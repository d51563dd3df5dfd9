/-
  Graphing.Proofs.Relation.Variables

  The variables that a relation is classified by, and those of its formulas.

  A relation is classified by the variables of the sides that are read for them
  (`variableSides`).  Each of these is a formula in them (`IsFormulaIn`), but
  for names of constants and functions, which count as no variables.  A relation
  that is classified as explicit has no variable but the one of its axis, and
  its formulas are among the sides that were read (`classify_explicit`).  One
  that is classified as implicit has no variables but the two of its axes
  (`classify_implicit`).
-/
import Graphing.Proofs.Except
import Graphing.Proofs.Relation.Segments
import Graphing.Relation.Classification

namespace Graphing.Relation

open Text (strip strip_strip)

/-! ## Formulas in some variables -/

/-- A text is a formula whose variables are among some names. -/
def IsFormulaIn (names : List String) (t : List Char) : Prop :=
  ∃ x, Notation.parse (String.ofList t) = .ok x ∧
    ∀ n ∈ Notation.freeVariables x, isVariableName n = true → n ∈ names

theorem IsFormulaIn.mono {names names' : List String} {t : List Char} (h : IsFormulaIn names t)
    (hsub : ∀ n ∈ names, n ∈ names') : IsFormulaIn names' t := by
  obtain ⟨x, hx, hnames⟩ := h
  exact ⟨x, hx, fun n hn hvar => hsub n (hnames n hn hvar)⟩

/-- A name is free in a text that is a formula. -/
def IsFree (n : String) (t : List Char) : Prop :=
  ∃ x, Notation.parse (String.ofList t) = .ok x ∧ n ∈ Notation.freeVariables x

theorem IsFormulaIn.mem_of_isFree {names : List String} {t : List Char} (h : IsFormulaIn names t)
    {n : String} (hvar : isVariableName n = true) (hfree : IsFree n t) : n ∈ names := by
  obtain ⟨x, hx, hnames⟩ := h
  obtain ⟨y, hy, hn⟩ := hfree
  cases hx.symm.trans hy
  exact hnames n hn hvar

/-- Blanks around a formula do not count. -/
theorem parse_strip {t : List Char} {x : Expr} :
    Notation.parse (String.ofList (strip t)) = .ok x ↔
      Notation.parse (String.ofList t) = .ok x := by
  have hformula : Notation.formula? (strip t) = Notation.formula? t := by
    unfold Notation.formula?
    rw [strip_strip]
  unfold Notation.parse
  rw [String.toList_ofList, String.toList_ofList, strip_strip, hformula]
  split
  · exact ⟨nofun, nofun⟩
  · split
    · exact Iff.rfl
    · exact ⟨nofun, nofun⟩

/-! ## The variables of a relation -/

theorem mem_insertName {a name : String} {ns : List String} :
    a ∈ insertName name ns ↔ a = name ∨ a ∈ ns := by
  induction ns with
  | nil => simp [insertName]
  | cons n ns ih =>
    unfold insertName
    split
    · rename_i heq
      obtain rfl : name = n := by simpa using heq
      simp
    · split
      · simp
      · rw [List.mem_cons, ih, List.mem_cons]
        exact or_left_comm

theorem mem_foldr_insertName {a : String} {ns : List String} :
    a ∈ ns.foldr insertName [] ↔ a ∈ ns := by
  induction ns with
  | nil => simp
  | cons n ns ih => rw [List.foldr_cons, mem_insertName, ih, List.mem_cons]

variable {s u : List Char} {main : String} {names : List String}

/-- All sides that are read for variables are formulas in what was read. -/
theorem isFormulaIn_of_mem_variableSides (h : variableNames u = .ok names) {side : List Char}
    (hside : side ∈ variableSides (unrestricted u)) : IsFormulaIn names side := by
  unfold variableNames at h
  obtain ⟨found, hfound, h⟩ := Except.bind_eq_ok.mp h
  cases h
  rcases Except.mapM_cases _ (variableSides (unrestricted u)) with
    ⟨a, -, e, -, herror⟩ | ⟨hall, hok⟩
  · rw [herror] at hfound
    cases hfound
  · rw [hok] at hfound
    cases hfound
    obtain ⟨vs, hvs⟩ := hall side hside
    obtain ⟨x, hx, hfree⟩ := Except.bind_eq_ok.mp hvs
    cases hfree
    refine ⟨x, hx, fun n hn hvar => ?_⟩
    rw [mem_foldr_insertName, List.mem_filter, List.mem_append, List.mem_flatten]
    refine ⟨.inl ⟨_, List.mem_filterMap.mpr ⟨side, hside, ?_⟩, hn⟩, hvar⟩
    rw [hvs]
    rfl

theorem mem_of_within {allowed : String} (h : within names allowed = true) :
    ∀ n ∈ names, n ∈ [allowed] := by
  intro n hn
  have := List.all_eq_true.mp h n hn
  exact List.mem_singleton.mpr (beq_iff_eq.mp this)

/-! ## Explicit relations -/

/-- Whether a family is drawn from formulas in one variable. -/
def Family.isExplicit : Family → Bool
  | .functionOfX | .functionOfY | .polar | .parametric | .sequence => true
  | _ => false

/-- The formulas that an explicit relation is drawn from. -/
def explicitFormulas (f : Family) (u : List Char) : List (List Char) :=
  match f with
  | .parametric =>
    match coordinates? u with
    | some (x, y) => [x, y]
    | none => []
  | _ => [assignedSide u]

/-- Drawn from one formula, whose variables are within the axis. -/
structure Classification.IsFunctionIn (names : List String) (k : Classification) : Prop where
  explicit : k.family.isExplicit = true
  single : k.family ≠ .parametric
  within : within names k.axis = true

theorem classifyDeclared?_isFunctionIn {target argument : String} {k : Classification}
    (h : classifyDeclared? target argument names = some k) : k.IsFunctionIn names := by
  unfold classifyDeclared? at h
  split at h
  · cases h
  rename_i hwithin
  replace hwithin : within names argument = true := by simpa using hwithin
  split at h
  · rename_i hy
    rw [beq_iff_eq.mp hy] at hwithin
    cases h
    exact ⟨rfl, nofun, hwithin⟩
  split at h
  · rename_i hpolar
    rw [beq_iff_eq.mp (Bool.and_eq_true_iff.mp hpolar).2] at hwithin
    cases h
    exact ⟨rfl, nofun, hwithin⟩
  split at h
  · rename_i hn
    rw [beq_iff_eq.mp hn] at hwithin
    cases h
    exact ⟨rfl, nofun, hwithin⟩
  · cases h
    exact ⟨rfl, nofun, hwithin⟩

theorem classifyTarget?_isFunctionIn {target : String} {k : Classification}
    (h : classifyTarget? target main names = some k) : k.IsFunctionIn names := by
  -- every rule but the fourth asks for variables within the axis that it gives
  have hrule {asked : Bool} {axis : String} (h : (asked && within names axis) = true) :
      within names axis = true := (Bool.and_eq_true_iff.mp h).2
  unfold classifyTarget? at h
  split at h
  · rename_i hfirst
    cases h
    exact ⟨rfl, nofun, hrule hfirst⟩
  split at h
  · rename_i hsecond
    cases h
    exact ⟨rfl, nofun, hrule hsecond⟩
  split at h
  · rename_i hthird
    cases h
    exact ⟨rfl, nofun, hrule hthird⟩
  split at h
  · cases h
  split at h
  · rename_i hfifth
    cases h
    exact ⟨rfl, nofun, hrule hfifth⟩
  split at h
  · rename_i hlast
    cases h
    exact ⟨rfl, nofun, hlast⟩
  · cases h

/-- What a relation can be classified as when its variables are known, and what that takes. -/
inductive Verdict (u : List Char) (names : List String) : Classification → Prop
  | parametric (hpair : (coordinates? u).isSome) (hwithin : within names "t" = true) :
    Verdict u names ⟨.parametric, "t", "", names⟩
  | function {k : Classification} (hpair : coordinates? u = none)
      (hassigns : sides? u = none ∨ (target? (unrestricted u)).isSome ∨ (target? u).isSome)
      (hk : k.IsFunctionIn names) : Verdict u names k
  | implicit (hpair : coordinates? u = none)
      (hnames : names.length = 2 ∨ names.all ["x", "y"].contains = true) :
    Verdict u names ⟨.implicit, (implicitAxes names).1, "", names⟩
  | unknown {k : Classification} (hk : k.family = .unknown) : Verdict u names k

theorem isSome_of_assignedName (h : (String.ofList (assignedName u) != "") = true) :
    (target? (unrestricted u)).isSome = true := by
  unfold assignedName at h
  cases htarget : target? (unrestricted u) with
  | none =>
    rw [htarget] at h
    cases h
  | some t => rfl

theorem classifyWith_verdict (u : List Char) (main : String) (names : List String) :
    Verdict u names (classifyWith u main names) := by
  unfold classifyWith
  -- a pair comes first, then a function by its form, and then a relation of several names
  split
  · rename_i hpair
    split
    · rename_i hwithin
      exact .parametric hpair hwithin
    · exact .unknown rfl
  · rename_i hpair
    replace hpair : coordinates? u = none := Option.not_isSome_iff_eq_none.mp hpair
    dsimp only
    split
    · rename_i k hk
      split at hk
      · rename_i argument hargument
        have htarget : (target? u).isSome = true := by
          obtain ⟨t, ht, -⟩ := Option.bind_eq_some_iff.mp hargument
          rw [ht]
          rfl
        exact .function hpair (.inr (.inr htarget)) (classifyDeclared?_isFunctionIn hk)
      · split at hk
        · rename_i hform
          refine .function hpair ?_ (classifyTarget?_isFunctionIn hk)
          rcases Bool.or_eq_true_iff.mp hform with hbare | hname
          · refine .inl ?_
            simpa using hbare
          · exact .inr (.inl (isSome_of_assignedName hname))
        · cases hk
    · split
      · rename_i hnames
        refine .implicit hpair ?_
        rcases Bool.or_eq_true_iff.mp hnames with htwo | haxes
        · exact .inl (of_decide_eq_true htwo)
        · exact .inr (Bool.and_eq_true_iff.mp haxes).2
      · exact .unknown rfl

/-- The side that a relation assigns is one of those that are read for variables, unless the
relation is an equation that assigns to nothing. -/
theorem assignedSide_mem_variableSides (hpair : coordinates? u = none)
    (h : sides? u = none ∨ (target? u).isSome) : assignedSide u ∈ variableSides u := by
  unfold assignedSide variableSides
  rw [hpair]
  dsimp only
  cases hsides : sides? u with
  | none => exact List.mem_singleton.mpr rfl
  | some sides =>
    obtain ⟨lhs, rhs⟩ := sides
    have htarget : (Target.ofText? lhs).isSome = true := by
      rcases h with h | h
      · rw [hsides] at h
        cases h
      · rw [target?, hsides] at h
        exact h
    dsimp only
    rw [if_pos htarget, if_pos htarget]
    exact List.mem_singleton.mpr rfl

/-- The formulas of an explicit relation are sides that were read for its variables, and these are
within its axis. -/
theorem Verdict.explicit {k : Classification} (h : Verdict u names k) (honce : unrestricted u = u)
    (hk : k.family.isExplicit = true) :
    within names k.axis = true ∧ explicitFormulas k.family u ≠ [] ∧
      ∀ t ∈ explicitFormulas k.family u, t ∈ variableSides u := by
  cases h with
  | parametric hpair hwithin =>
    refine ⟨hwithin, ?_⟩
    obtain ⟨⟨x, y⟩, hxy⟩ := Option.isSome_iff_exists.mp hpair
    rw [explicitFormulas, variableSides, hxy]
    exact ⟨List.cons_ne_nil _ _, fun t ht => ht⟩
  | function hpair hassigns hfun =>
    have hformulas : explicitFormulas k.family u = [assignedSide u] := by
      have := hfun.single
      unfold explicitFormulas
      split
      · contradiction
      · rfl
    rw [honce, or_self] at hassigns
    rw [hformulas]
    refine ⟨hfun.within, List.cons_ne_nil _ _, fun t ht => ?_⟩
    rw [List.mem_singleton.mp ht]
    exact assignedSide_mem_variableSides hpair hassigns
  | implicit hpair hnames => cases hk
  | unknown hunknown =>
    rw [hunknown] at hk
    cases hk

/-! ## Implicit relations -/

/-- The two axes of an implicit relation. -/
def Classification.axes (k : Classification) : List String :=
  [(implicitAxes k.names).1, (implicitAxes k.names).2]

theorem mem_axes (h : names.length = 2 ∨ names.all ["x", "y"].contains = true) :
    ∀ n ∈ names, n ∈ [(implicitAxes names).1, (implicitAxes names).2] := by
  intro n hn
  have hxy : names.all ["x", "y"].contains = true → n ∈ ["x", "y"] := by
    intro hall
    exact List.contains_iff_mem.mp (List.all_eq_true.mp hall n hn)
  unfold implicitAxes
  split
  · rename_i a b
    split
    · rename_i hall
      exact hxy hall
    · exact hn
  · rename_i hother
    refine hxy (h.resolve_left fun htwo => ?_)
    obtain ⟨a, b, hab⟩ := List.length_eq_two.mp htwo
    exact hother a b hab

theorem Verdict.implicit_axes {k : Classification} (h : Verdict u names k)
    (hk : k.family = .implicit) : coordinates? u = none ∧ ∀ n ∈ names, n ∈ k.axes := by
  cases h with
  | parametric hpair hwithin => cases hk
  | function hpair hassigns hfun =>
    have := hfun.explicit
    rw [hk] at this
    cases this
  | implicit hpair hnames => exact ⟨hpair, mem_axes hnames⟩
  | unknown hunknown =>
    rw [hunknown] at hk
    cases hk

/-! ## Segments -/

/-- How a segment is classified: by its form, by its variables, or as implicit when these cannot be
read. -/
theorem classify_cases (s : List Char) (main : String) :
    (classify s main).family = .point ∨ (classify s main).family = .asymptote ∨
      (∃ e, variableNames (unrestricted (strip s)) = .error e ∧
        classify s main = ⟨.implicit, "x", "", []⟩) ∨
      ∃ names, variableNames (unrestricted (strip s)) = .ok names ∧
        Verdict (unrestricted (strip s)) names (classify s main) := by
  unfold classify
  dsimp only
  split
  · exact .inl rfl
  split
  · exact .inr (.inl rfl)
  split
  · rename_i e he
    exact .inr (.inr (.inl ⟨e, he, rfl⟩))
  · rename_i names hnames
    exact .inr (.inr (.inr ⟨names, hnames, classifyWith_verdict _ main names⟩))

/-- The formulas of a segment that is classified as explicit are formulas in the variable of its
axis. -/
theorem classify_explicit (honce : findRestriction? (unrestricted (strip s)) = none)
    (hk : (classify s main).family.isExplicit = true) :
    explicitFormulas (classify s main).family (unrestricted (strip s)) ≠ [] ∧
      ∀ t ∈ explicitFormulas (classify s main).family (unrestricted (strip s)),
        IsFormulaIn [(classify s main).axis] t := by
  replace honce : unrestricted (unrestricted (strip s)) = unrestricted (strip s) :=
    unrestricted_of_none honce
  rcases classify_cases s main with h | h | ⟨e, -, h⟩ | ⟨names, hread, hverdict⟩
  · rw [h] at hk
    cases hk
  · rw [h] at hk
    cases hk
  · rw [h] at hk
    cases hk
  · obtain ⟨hwithin, hne, hsides⟩ := hverdict.explicit honce hk
    refine ⟨hne, fun t ht => ?_⟩
    have hside : t ∈ variableSides (unrestricted (unrestricted (strip s))) := by
      rw [honce]
      exact hsides t ht
    exact (isFormulaIn_of_mem_variableSides hread hside).mono (mem_of_within hwithin)

/-- The sides that were read of a segment that is classified as implicit are formulas in its
axes. -/
theorem classify_implicit (hread : variableNames (unrestricted (strip s)) = .ok names)
    (hk : (classify s main).family = .implicit) :
    coordinates? (unrestricted (strip s)) = none ∧
      ∀ side ∈ variableSides (unrestricted (unrestricted (strip s))),
        IsFormulaIn (classify s main).axes side := by
  rcases classify_cases s main with h | h | ⟨e, herror, -⟩ | ⟨names', hread', hverdict⟩
  · rw [h] at hk
    cases hk
  · rw [h] at hk
    cases hk
  · rw [herror] at hread
    cases hread
  · obtain ⟨hpair, haxes⟩ := hverdict.implicit_axes hk
    exact ⟨hpair, fun side hside => (isFormulaIn_of_mem_variableSides hread' hside).mono haxes⟩

end Graphing.Relation
