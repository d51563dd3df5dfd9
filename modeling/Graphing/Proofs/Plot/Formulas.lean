/-
  Graphing.Proofs.Plot.Formulas

  The formulas that a segment is drawn from.

  When a segment cannot be drawn because of a formula, then compiling one of its
  formulas fails (`drawSegment_formula`).  For a segment that is classified as
  explicit this is never because the text is no formula, nor because of a
  variable (`drawSegment_explicit`): only names of constants and functions can
  be in the way, which quotes make variables of.

  A segment that is classified as implicit is refused for its variables just if
  one that is no axis is free in its expression (`drawSegment_implicit`).  The
  variables of the sides that were read are axes.  The name that an equation
  assigns to need not be one, though it is part of the expression.
-/
import Graphing.Proofs.Evaluation.Compiling
import Graphing.Proofs.Plot.Outcome
import Graphing.Proofs.Relation.Variables

open Graphing.Relation
open Graphing.Text (strip)

namespace Graphing

open Except (FailsOnly)

/-! ## Formulas and their variables -/

namespace Relation

/-- The formulas that a segment of a family is drawn from. -/
def formulas (f : Family) (s : List Char) : List (List Char) :=
  if f.isExplicit then explicitFormulas f (unrestricted s)
  else if f = .implicit then [implicitExpression s]
  else []

/-- The variables that formulas are compiled in. -/
def Classification.parameters (k : Classification) : List String :=
  if k.family = .implicit then k.axes else [k.axis]

end Relation

/-- A fault that compiling one of some formulas has, if it is about a formula at all. -/
def PlotFault.IsOfFormula (ts : List (List Char)) (parameters : List String) (e : PlotFault) :
    Prop :=
  ∀ fault, e = .formula fault →
    ∃ t ∈ ts, CompiledFormula.ofText (String.ofList t) parameters = .error fault

section

variable {ts : List (List Char)} {parameters : List String}

theorem compile?_failsOnly {t : List Char} (ht : t ∈ ts) :
    FailsOnly (PlotFault.IsOfFormula ts parameters) (Restricted.compile? t parameters) :=
  FailsOnly.mapError fun e he => by
    rintro fault ⟨⟩
    exact ⟨t, ht, he⟩

theorem interval?_failsOnly (s : List Char) :
    FailsOnly (PlotFault.IsOfFormula ts parameters) (Restricted.interval? s) :=
  FailsOnly.mapError fun _ _ => nofun

theorem ofText?_failsOnly {s : List Char} {name : String}
    (h : assignedSide (unrestricted s) ∈ ts) :
    FailsOnly (PlotFault.IsOfFormula ts [name]) (Restricted.ofText? s name) :=
  (compile?_failsOnly h).bind fun _ => (interval?_failsOnly _).bind fun _ => .ok _

end

/-! ## Formulas that are refused -/

namespace Relation

variable {names missing expected : List String} {t : List Char}

theorem IsFormulaIn.ofText_ne_parse (h : IsFormulaIn names t) (parameters : List String)
    (fault : Notation.ParseError) :
    CompiledFormula.ofText (String.ofList t) parameters ≠ .error (.parse fault) := by
  obtain ⟨x, hx, -⟩ := h
  rw [Ne, CompiledFormula.ofText_eq_parse_iff, hx]
  exact nofun

/-- Variables that a text is refused for are free in it, and not among those that are given. -/
theorem ofText_unbound
    (h : CompiledFormula.ofText (String.ofList t) names =
      .error (.compile (.unbound missing expected))) :
    missing ≠ [] ∧ ∀ n ∈ missing, IsFree n t ∧ n ∉ names := by
  obtain ⟨x, hx, rfl, hne, -⟩ := CompiledFormula.ofText_eq_unbound_iff.mp h
  refine ⟨hne, fun n hn => ?_⟩
  obtain ⟨hfree, hmissing⟩ := List.mem_filter.mp hn
  refine ⟨⟨x, hx, hfree⟩, fun hmem => ?_⟩
  rw [List.contains_iff_mem.mpr hmem] at hmissing
  cases hmissing

/-- A text is refused for its variables just if one is free in it that is not given. -/
theorem exists_ofText_unbound_iff :
    (∃ missing expected, CompiledFormula.ofText (String.ofList t) names =
        .error (.compile (.unbound missing expected))) ↔ ∃ n, IsFree n t ∧ n ∉ names := by
  constructor
  · rintro ⟨missing, expected, h⟩
    obtain ⟨hne, hfree⟩ := ofText_unbound h
    obtain ⟨n, hn⟩ := List.exists_mem_of_ne_nil missing hne
    exact ⟨n, hfree n hn⟩
  · rintro ⟨n, ⟨x, hx, hfree⟩, hn⟩
    refine ⟨_, _, CompiledFormula.ofText_eq_unbound_iff.mpr ⟨x, hx, rfl, ?_, rfl⟩⟩
    refine List.ne_nil_of_mem (List.mem_filter.mpr ⟨hfree, ?_⟩)
    rw [List.contains_eq_mem, decide_eq_false hn]
    rfl

/-- A variable of an implicit relation that is none of its axes. It is free in the equation as one
expression, but in no side that was read: it is the name that is assigned to, or it cancels in its
side alone. Else only a second restriction, which is taken off before the variables are read, can
bring it in. -/
theorem IsFree.of_notMem_axes {s : List Char} {k : Classification}
    (hpair : coordinates? (unrestricted s) = none)
    (hsides : ∀ side ∈ variableSides (unrestricted (unrestricted s)), IsFormulaIn k.axes side)
    {n : String} (hfree : IsFree n (implicitExpression s)) (hn : n ∉ k.axes)
    (hvar : isVariableName n = true) :
    ((sides? (unrestricted s)).isSome ∨ (findRestriction? (unrestricted s)).isSome) ∧
      ∀ side ∈ variableSides (unrestricted (unrestricted s)), ¬IsFree n side := by
  have hnone : ∀ side ∈ variableSides (unrestricted (unrestricted s)), ¬IsFree n side :=
    fun side hside h => hn ((hsides side hside).mem_of_isFree hvar h)
  refine ⟨?_, hnone⟩
  -- a relation without sides is read as it is compiled
  by_contra hbare
  rw [not_or, Option.not_isSome_iff_eq_none, Option.not_isSome_iff_eq_none] at hbare
  obtain ⟨hequation, honce⟩ := hbare
  have hexpression : implicitExpression s = unrestricted s := by
    unfold implicitExpression
    dsimp only
    rw [hequation]
    rfl
  have hread : variableSides (unrestricted (unrestricted s)) = [strip (unrestricted s)] := by
    rw [unrestricted_of_none honce, variableSides, hpair, hequation]
  rw [hread] at hnone
  obtain ⟨x, hx, hnx⟩ := hfree
  rw [hexpression] at hx
  exact hnone _ (List.mem_singleton.mpr rfl) ⟨x, parse_strip.mpr hx, hnx⟩

end Relation

/-! ## Drawing a segment -/

theorem readPair_failsOnly (s : List Char) (name : String) :
    FailsOnly (PlotFault.IsOfFormula (explicitFormulas .parametric (unrestricted s)) [name])
      (Frame.readPair s name) := by
  unfold Frame.readPair explicitFormulas
  dsimp only
  cases coordinates? (unrestricted s) with
  | none => exact .error nofun
  | some pair =>
    obtain ⟨x, y⟩ := pair
    exact (compile?_failsOnly List.mem_cons_self).bind fun _ =>
      (compile?_failsOnly (List.mem_cons_of_mem _ List.mem_cons_self)).bind fun _ =>
        (interval?_failsOnly _).bind fun _ => .ok _

theorem sketch_failsOnly (f : Frame) (s : List Char) (k : Classification) (style : PlotStyle)
    (holes : List Float) (fast : Bool) :
    FailsOnly (PlotFault.IsOfFormula (formulas k.family s) k.parameters)
      (f.sketch s k style holes fast) := by
  unfold Frame.sketch formulas Classification.parameters
  have hread : FailsOnly (PlotFault.IsOfFormula [assignedSide (unrestricted s)] [k.axis])
      (Restricted.ofText? s k.axis) := ofText?_failsOnly (List.mem_singleton.mpr rfl)
  -- what is fitted, sampled or traced after the formulas has no fault that is about them
  have hother {ts : List (List Char)} {parameters : List String} {ε α : Type} {x : Except ε α}
      {f : ε → PlotFault} (h : ∀ e fault, f e ≠ .formula fault) :
      FailsOnly (PlotFault.IsOfFormula ts parameters) (x.mapError f) :=
    .mapError fun e _ fault he => absurd he (h e fault)
  cases k.family with
  | point => exact FailsOnly.bind (hother nofun) fun _ => .ok _
  | functionOfX => exact hread.bind fun _ => .ok _
  | functionOfY => exact hread.bind fun _ => .ok _
  | polar => exact hread.bind fun _ => (hother nofun).bind fun _ => .ok _
  | parametric =>
    exact (readPair_failsOnly s k.axis).bind fun _ => (hother nofun).bind fun _ => .ok _
  | sequence => exact hread.bind fun _ => (hother nofun).bind fun _ => .ok _
  | implicit =>
    have hcompile : FailsOnly (PlotFault.IsOfFormula [implicitExpression s] k.axes)
        (Restricted.compile? (implicitExpression s) k.axes) :=
      compile?_failsOnly (List.mem_singleton.mpr rfl)
    exact hcompile.bind fun _ => (hother nofun).bind fun _ => .ok _
  | asymptote => exact .error nofun
  | unknown => exact .error nofun

namespace Canvas

variable (c : Canvas) (style : PlotStyle) (existing : Option PieceId) (holes : List Float)
  (fast : Bool)

/-- A segment that cannot be drawn because of a formula has a formula that cannot be compiled. -/
theorem drawSegment_formula {s : List Char} {k : Classification} {e : FormulaError}
    (h : (c.drawSegment s k style existing holes fast).1 = .error (.formula e)) :
    ∃ t ∈ formulas k.family s,
      CompiledFormula.ofText (String.ofList t) k.parameters = .error e := by
  have hresult := (drawSegment_follows c existing s k style holes fast).result
  rw [h] at hresult
  have hsketch := sketch_failsOnly c.surface.frame s k style holes fast
  cases hs : c.surface.frame.sketch s k style holes fast with
  | error fault =>
    rw [hs] at hresult hsketch
    cases hresult
    exact hsketch _ rfl e rfl
  | ok sketch =>
    rw [hs] at hresult
    cases hresult

/-- A segment that is classified as explicit has formulas in the variable of its axis. Drawing it
never fails because one of them is no formula, and it fails because of a variable only if that has
the name of a constant or of a function. Here and below, any text is taken as the segment that a plot
makes of it: without the blanks around it. -/
theorem drawSegment_explicit {s : List Char} {main : String}
    (honce : findRestriction? (unrestricted (strip s)) = none)
    (hk : (classify s main).family.isExplicit = true) :
    formulas (classify s main).family (strip s) ≠ [] ∧
      (∀ t ∈ formulas (classify s main).family (strip s),
        IsFormulaIn [(classify s main).axis] t) ∧
      ∀ (c : Canvas) (style : PlotStyle) (existing : Option PieceId) (holes : List Float)
        (fast : Bool) (e : FormulaError),
        (c.drawSegment (strip s) (classify s main) style existing holes fast).1 =
          .error (.formula e) →
        (∀ fault, e ≠ .parse fault) ∧
          ∀ missing expected, e = .compile (.unbound missing expected) →
            missing ≠ [] ∧ ∀ n ∈ missing, isVariableName n = false := by
  have hformulas : formulas (classify s main).family (strip s) =
      explicitFormulas (classify s main).family (unrestricted (strip s)) := if_pos hk
  have hparameters : (classify s main).parameters = [(classify s main).axis] := by
    refine if_neg fun himplicit => ?_
    rw [himplicit] at hk
    cases hk
  obtain ⟨hne, hall⟩ := classify_explicit honce hk
  rw [← hformulas] at hne hall
  refine ⟨hne, hall, fun c style existing holes fast e he => ?_⟩
  obtain ⟨t, ht, hfault⟩ := drawSegment_formula c style existing holes fast he
  have hformula := hall t ht
  refine ⟨fun fault hparse => ?_, fun missing expected hunbound => ?_⟩
  · rw [hparse] at hfault
    exact hformula.ofText_ne_parse _ fault hfault
  · rw [hunbound, hparameters] at hfault
    obtain ⟨hmissing, hfree⟩ := ofText_unbound hfault
    refine ⟨hmissing, fun n hn => Bool.eq_false_iff.mpr fun hvar => ?_⟩
    exact (hfree n hn).2 (hformula.mem_of_isFree hvar (hfree n hn).1)

/-- Two coordinates, on an interval of the parameter, with blanks around. -/
theorem drawSegment_explicit_pair :
    let s := " <cos(t), sin(t)> (-4, 3] ".toList
    findRestriction? (unrestricted (strip s)) = none ∧
      (classify s "x").family.isExplicit = true ∧
      (∀ t ∈ ["cos(t)".toList, "sin(t)".toList], IsFormulaIn ["t"] t) ∧
      ∀ (c : Canvas) (fault : Notation.ParseError),
        (c.drawSegment (strip s) (classify s "x") .usual none [] false).1 ≠
          .error (.formula (.parse fault)) := by
  intro s
  have honce : findRestriction? (unrestricted (strip s)) = none := by decide +kernel
  have hk : classify s "x" = ⟨.parametric, "t", "", ["t"]⟩ := by decide +kernel
  have hexplicit : (classify s "x").family.isExplicit = true := by
    rw [hk]
    rfl
  have hformulas : formulas .parametric (strip s) = ["cos(t)".toList, "sin(t)".toList] := by
    decide +kernel
  obtain ⟨-, hall, hdraw⟩ := drawSegment_explicit (s := s) honce hexplicit
  refine ⟨honce, hexplicit, ?_, fun c fault h => (hdraw c _ _ _ _ _ h).1 fault rfl⟩
  rw [hk, hformulas] at hall
  exact hall

/-- A quoted name is a variable even if it is the name of a constant, and so the formula of this
function is refused. -/
theorem ofText_quoted_constant :
    let s := "y = sin('e')".toList
    strip s = s ∧ findRestriction? (unrestricted s) = none ∧
      classify s "x" = ⟨.functionOfX, "x", "y", []⟩ ∧
      formulas .functionOfX s = ["sin('e')".toList] ∧
      CompiledFormula.ofText "sin('e')" ["x"] = .error (.compile (.unbound ["e"] ["x"])) := by
  have hfree : (Notation.parse "sin('e')").toOption.any
      (fun x => Notation.freeVariables x == ["e"]) = true := by decide +kernel
  obtain ⟨x, hx, hnames⟩ := Except.exists_eq_ok_of_any hfree
  refine ⟨by decide +kernel, by decide +kernel, by decide +kernel, by decide +kernel, ?_⟩
  rw [CompiledFormula.ofText_eq_unbound_iff]
  refine ⟨x, hx, ?_, List.cons_ne_nil _ _, rfl⟩
  rw [beq_iff_eq.mp hnames]
  rfl

/-- An implicit relation is refused for its variables just if its expression is. -/
theorem drawSegment_implicit_unbound {s : List Char} {k : Classification}
    (hk : k.family = .implicit) {missing expected : List String} :
    (c.drawSegment s k style existing holes fast).1 =
        .error (.formula (.compile (.unbound missing expected))) ↔
      CompiledFormula.ofText (String.ofList (implicitExpression s)) k.axes =
        .error (.compile (.unbound missing expected)) := by
  have hparameters : k.parameters = k.axes := if_pos hk
  constructor
  · intro h
    obtain ⟨t, ht, hfault⟩ := drawSegment_formula c style existing holes fast h
    rw [hk] at ht
    rwa [hparameters, List.mem_singleton.mp ht] at hfault
  · intro h
    have hresult := (drawSegment_follows c existing s k style holes fast).result
    have hcompile : Restricted.compile? (implicitExpression s) k.axes =
        .error (.formula (.compile (.unbound missing expected))) := by
      rw [Restricted.compile?, h]
      rfl
    have hsketch : c.surface.frame.sketch s k style holes fast =
        Restricted.compile? (implicitExpression s) k.axes >>=
          c.surface.frame.ofImplicit style fast := by
      rw [Frame.sketch, hk]
      rfl
    rw [hresult, hsketch, hcompile]
    rfl

/-- A segment that is classified as implicit by its variables has sides that are formulas in its two
axes. It is refused for its variables just if one that is no axis is free in its expression; and that
has the name of a constant or of a function, or is free in no side that was read, while the relation
is an equation or has a second restriction. -/
theorem drawSegment_implicit {s : List Char} {main : String} {names : List String}
    (hread : variableNames (unrestricted (strip s)) = .ok names)
    (hk : (classify s main).family = .implicit) :
    (∀ side ∈ variableSides (unrestricted (unrestricted (strip s))),
        IsFormulaIn (classify s main).axes side) ∧
      (∀ n, IsFree n (implicitExpression (strip s)) → n ∉ (classify s main).axes →
        isVariableName n = true →
        ((sides? (unrestricted (strip s))).isSome ∨
          (findRestriction? (unrestricted (strip s))).isSome) ∧
          ∀ side ∈ variableSides (unrestricted (unrestricted (strip s))), ¬IsFree n side) ∧
      ∀ (c : Canvas) (style : PlotStyle) (existing : Option PieceId) (holes : List Float)
        (fast : Bool),
        (∃ missing expected,
          (c.drawSegment (strip s) (classify s main) style existing holes fast).1 =
            .error (.formula (.compile (.unbound missing expected)))) ↔
        ∃ n, IsFree n (implicitExpression (strip s)) ∧ n ∉ (classify s main).axes := by
  obtain ⟨hpair, hall⟩ := classify_implicit hread hk
  refine ⟨hall, fun n hfree hn hvar => hfree.of_notMem_axes hpair hall hn hvar, ?_⟩
  intro c style existing holes fast
  rw [← exists_ofText_unbound_iff]
  exact exists_congr fun missing => exists_congr fun expected =>
    drawSegment_implicit_unbound c style existing holes fast hk

/-- An equation in the two coordinates. -/
theorem drawSegment_implicit_equation :
    let s := "sin x = cos y".toList
    (variableNames (unrestricted (strip s))).toOption = some ["x", "y"] ∧
      (classify s "x").family = .implicit ∧
      (∀ side ∈ ["cos y".toList, "sin x".toList], IsFormulaIn ["x", "y"] side) ∧
      ∀ n, IsFree n (implicitExpression (strip s)) → n ∉ ["x", "y"] → isVariableName n = true →
        ¬IsFree n "cos y".toList ∧ ¬IsFree n "sin x".toList := by
  intro s
  have hread : (variableNames (unrestricted (strip s))).toOption.any (· == ["x", "y"]) = true := by
    decide +kernel
  have hk : classify s "x" = ⟨.implicit, "x", "", ["x", "y"]⟩ := by decide +kernel
  have hfamily : (classify s "x").family = .implicit := by rw [hk]
  obtain ⟨names, hnames, hxy⟩ := Except.exists_eq_ok_of_any hread
  have hsides : variableSides (unrestricted (unrestricted (strip s))) =
      ["cos y".toList, "sin x".toList] := by decide +kernel
  obtain ⟨hall, hothers, -⟩ := drawSegment_implicit (s := s) hnames hfamily
  rw [hk, hsides] at hall hothers
  refine ⟨?_, hfamily, hall, fun n hfree hn hvar => ?_⟩
  · rw [hnames, ← beq_iff_eq.mp hxy]
    rfl
  · obtain ⟨-, hnone⟩ := hothers n hfree hn hvar
    exact ⟨hnone _ List.mem_cons_self, hnone _ (List.mem_cons_of_mem _ List.mem_cons_self)⟩

/-- The name that is assigned to is no variable of the relation, but it is one of the expression. -/
example : (classify "f(x) = sin y".toList "x").axes = ["x", "y"] ∧
    implicitExpression "f(x) = sin y".toList = "f(x)-sin y".toList := by
  decide +kernel

end Canvas

end Graphing
