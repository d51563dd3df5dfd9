/-
  Graphing.Proofs.Evaluation.TextOutcome

  All that the evaluation of a text can come to.

  A text that is no formula, or that cannot be compiled, has the value NaN, and
  so has one whose scope gives more than a number to some name; any other has
  the value of its formula at the numbers of the scope (`evalText_outcome`).
  Two things stand apart: a pole or a band that is left in the formula makes
  the evaluation itself fail, and a name of the scope may not be the one by
  which a formula goes in its own calls.
-/
import Graphing.Proofs.Evaluation.Elementwise
import Graphing.Proofs.Evaluation.Layout

namespace Graphing

/-! ## Scopes -/

/-- The numbers of a scope that gives a number to each of its names. -/
def Scope.IsPoint (scope : Scope) (point : List Float) : Prop :=
  List.Forall₂ (fun name v => CompiledFormula.lookup scope name = some (Tensor.scalar v))
    (scope.map Prod.fst) point

namespace CompiledFormula

variable {f : CompiledFormula} {scope : Scope} {given : List (Tensor Float)}

/-- A name of a scope has a value in it. -/
theorem exists_lookup {name : String} (h : name ∈ scope.map Prod.fst) :
    ∃ p ∈ scope, lookup scope name = some p.2 := by
  obtain ⟨q, hq, rfl⟩ := List.mem_map.mp h
  have hsome : (scope.find? fun p => p.1 == q.1).isSome = true :=
    List.find?_isSome.mpr ⟨q, hq, beq_self_eq_true q.1⟩
  obtain ⟨p, hp⟩ := Option.isSome_iff_exists.mp hsome
  exact ⟨p, List.mem_of_find?_eq_some hp, by rw [lookup, hp]; rfl⟩

theorem exists_lookups (hfull : ∀ p ∈ scope, p.2.IsFull) {names : List String}
    (h : ∀ name ∈ names, name ∈ scope.map Prod.fst) :
    ∃ given : List (Tensor Float),
      List.Forall₂ (fun name t => lookup scope name = some t) names given ∧
        ∀ t ∈ given, t.IsFull := by
  induction names with
  | nil => exact ⟨[], .nil, fun t ht => absurd ht List.not_mem_nil⟩
  | cons name names ih =>
    obtain ⟨given, hgiven, hall⟩ := ih fun other hother => h other (List.mem_cons_of_mem name hother)
    obtain ⟨p, hp, hname⟩ := exists_lookup (h name List.mem_cons_self)
    exact ⟨p.2 :: given, .cons hname hgiven, List.forall_mem_cons.mpr ⟨hfull p hp, hall⟩⟩

/-- What is found under the names is scalars just if the scope gives numbers. -/
theorem isPoint_iff {point : List Float}
    (h : List.Forall₂ (fun name t => lookup scope name = some t) (scope.map Prod.fst) given) :
    scope.IsPoint point ↔ given = point.map Tensor.scalar := by
  unfold Scope.IsPoint
  generalize scope.map Prod.fst = names at h
  induction h generalizing point with
  | nil =>
    rw [List.forall₂_nil_left_iff, eq_comm (a := []), List.map_eq_nil_iff]
  | @cons name t names given hname _ ih =>
    rw [List.forall₂_cons_left_iff]
    constructor
    · rintro ⟨v, rest, hv, hrest, rfl⟩
      rw [List.map_cons, ih.mp hrest, Option.some.inj (hname.symm.trans hv)]
    · intro hgiven
      cases point with
      | nil => cases hgiven
      | cons v rest =>
        obtain ⟨rfl, hrest⟩ := List.cons.inj hgiven
        exact ⟨v, rest, hname, ih.mpr hrest, rfl⟩

theorem exists_scalars (hfull : ∀ t ∈ given, t.IsFull) (hshape : ∀ t ∈ given, t.shape = []) :
    ∃ point : List Float, given = point.map Tensor.scalar := by
  induction given with
  | nil => exact ⟨[], rfl⟩
  | cons t given ih =>
    obtain ⟨v, rfl⟩ := (hfull t List.mem_cons_self).eq_scalar (hshape t List.mem_cons_self)
    obtain ⟨point, rfl⟩ := ih (fun u hu => hfull u (List.mem_cons_of_mem _ hu))
      (fun u hu => hshape u (List.mem_cons_of_mem _ hu))
    exact ⟨v :: point, rfl⟩

/-- A result without axes comes from scalars only. -/
theorem toScalar?_run (hfull : ∀ t ∈ given, t.IsFull)
    (hno : ∀ point : List Float, given ≠ point.map Tensor.scalar) {t : Tensor Float}
    (hrun : f.run given = .ok t) : t.toScalar? = none := by
  obtain ⟨shape, hshape, rfl⟩ := exists_shape_of_run hrun
  cases shape with
  | cons n ns => rfl
  | nil =>
    obtain ⟨point, hpoint⟩ := exists_scalars hfull fun t ht =>
      Tensor.eq_nil_of_commonShapes hshape (List.mem_map.mpr ⟨t, ht, rfl⟩)
    exact absurd hpoint (hno point)

/-- A formula that is compiled takes its values under the names that were given. -/
theorem ofText_eq_ok_iff {text : String} {names : List String} :
    ofText text names = .ok f ↔
      ∃ x, Notation.parse text = .ok x ∧ ∃ p, Program.compile Bindings.full.binds names x = .ok p ∧
        f = ⟨names, p⟩ := by
  unfold ofText ofExpr
  cases Notation.parse text with
  | error e => exact ⟨nofun, nofun⟩
  | ok x =>
    dsimp only
    cases hcompile : Program.compile Bindings.full.binds names x with
    | error e =>
      refine ⟨nofun, ?_⟩
      rintro ⟨_, ⟨⟩, p, hp, -⟩
      cases hcompile.symm.trans hp
    | ok p =>
      constructor
      · rintro ⟨⟩
        exact ⟨x, rfl, p, hcompile, rfl⟩
      · rintro ⟨_, ⟨⟩, p', hp, rfl⟩
        cases hcompile.symm.trans hp
        rfl

end CompiledFormula

/-! ## Values of texts -/

open CompiledFormula (ofText ownName)
open Program (Writable hasHole inPlaces)

variable {text : String} {scope : Scope}

/-- The value of a compiled text in a scope. -/
theorem evalText_of_ofText {f : CompiledFormula} (hf : ofText text (scope.map Prod.fst) = .ok f)
    (hfull : ∀ p ∈ scope, p.2.IsFull) :
    ∃ y, evalText text scope = .ok y ∧
      ((∃ point, ownName ∉ scope.map Prod.fst ∧ scope.IsPoint point ∧
          y = f.valueAt point.toArray) ∨
        ((ownName ∈ scope.map Prod.fst ∨ ∀ point, ¬ scope.IsPoint point) ∧ y = Binary64.nan)) := by
  obtain ⟨given, hfound, hall⟩ := CompiledFormula.exists_lookups hfull (fun _ hname => hname)
  -- all arguments are found by name in the scope
  have hgives : f.Gives [] scope given := by
    obtain ⟨x, -, p, -, rfl⟩ := CompiledFormula.ofText_eq_ok_iff.mp hf
    exact .byName hfound
  unfold evalText
  rw [hf]
  by_cases hown : ownName ∈ scope.map Prod.fst
  · dsimp only
    rw [CompiledFormula.call_reserved f [] hown]
    exact ⟨_, rfl, .inr ⟨.inl hown, rfl⟩⟩
  · dsimp only
    rw [hgives.call_eq hown]
    by_cases hpoint : ∃ point : List Float, given = point.map Tensor.scalar
    · obtain ⟨point, rfl⟩ := hpoint
      rw [CompiledFormula.run_scalars]
      exact ⟨_, rfl, .inl ⟨point, hown, (CompiledFormula.isPoint_iff hfound).mpr rfl, rfl⟩⟩
    · have hno : ∀ point : List Float, given ≠ point.map Tensor.scalar := fun point h =>
        hpoint ⟨point, h⟩
      have hnever : ∀ point, ¬ scope.IsPoint point := fun point h =>
        hno point ((CompiledFormula.isPoint_iff hfound).mp h)
      refine ⟨Binary64.nan, ?_, .inr ⟨.inr hnever, rfl⟩⟩
      -- a result that is no single number is answered as one that failed
      cases hrun : f.run given with
      | error e => rfl
      | ok t =>
        dsimp only
        rw [CompiledFormula.toScalar?_run hall hno hrun]
        rfl

/-- A text whose formula cannot be compiled has the value NaN, unless a pole or a band is the
reason. -/
theorem evalText_of_compile_error {x : Expr} {e : CompileError}
    (hx : Notation.parse text = .ok x)
    (he : Program.compile Bindings.full.binds (scope.map Prod.fst) x = .error e) :
    evalText text scope = match e with
      | .hole h => .error h
      | _ => .ok Binary64.nan := by
  have htext : ofText text (scope.map Prod.fst) = .error (.compile e) :=
    CompiledFormula.ofText_eq_compile_iff.mpr
      ⟨x, hx, CompiledFormula.ofExpr_eq_error_iff.mpr he⟩
  unfold evalText
  rw [htext]
  cases e <;> rfl

/-- The value of a text in a scope of numbers and arrays.  It is NaN if the text is no formula or
its formula cannot be written out, and if the scope gives anything but a number to a name, or a
number to the name of the formula itself; otherwise it is the value of the formula at the numbers
of the scope, which is finite or NaN.  It is no value at all, but a failure, just if a pole or a
band is left in the formula. -/
theorem evalText_outcome (text : String) (hfull : ∀ p ∈ scope, p.2.IsFull) :
    (∃ e, Notation.parse text = .error e ∧ evalText text scope = .ok Binary64.nan) ∨
      ∃ x, Notation.parse text = .ok x ∧
        ((¬ Writable Bindings.full.binds (scope.map Prod.fst) x ∧
            evalText text scope = .ok Binary64.nan) ∨
          (Writable Bindings.full.binds (scope.map Prod.fst) x ∧
            hasHole (inPlaces (scope.map Prod.fst) x) = true ∧
            ∃ h, evalText text scope = .error h) ∨
          (Writable Bindings.full.binds (scope.map Prod.fst) x ∧
            hasHole (inPlaces (scope.map Prod.fst) x) = false ∧
            ∃ f y, ofText text (scope.map Prod.fst) = .ok f ∧ evalText text scope = .ok y ∧
              (y.isFinite = true ∨ y.isNaN = true) ∧
              ((∃ point, ownName ∉ scope.map Prod.fst ∧ scope.IsPoint point ∧
                  y = f.valueAt point.toArray) ∨
                ((ownName ∈ scope.map Prod.fst ∨ ∀ point, ¬ scope.IsPoint point) ∧
                  y = Binary64.nan)))) := by
  cases hparse : Notation.parse text with
  | error e => exact .inl ⟨e, rfl, evalText_of_parse_error hparse⟩
  | ok x =>
    refine .inr ⟨x, rfl, ?_⟩
    by_cases hwritable : Writable Bindings.full.binds (scope.map Prod.fst) x
    · refine .inr ?_
      rcases Program.compile_punctured hwritable with ⟨hhole, h, hcompile⟩ | ⟨hhole, p, hcompile⟩
      · exact .inl ⟨hwritable, hhole, h, evalText_of_compile_error hparse hcompile⟩
      · have hf : ofText text (scope.map Prod.fst) = .ok ⟨scope.map Prod.fst, p⟩ :=
          CompiledFormula.ofText_eq_ok_iff.mpr ⟨x, hparse, p, hcompile, rfl⟩
        obtain ⟨y, hy, hcases⟩ := evalText_of_ofText hf hfull
        exact .inr ⟨hwritable, hhole, _, y, hf, hy,
          Binary64.isFinite_or_isNaN (isInf_evalText hy), hcases⟩
    · obtain ⟨e, hcompile, hother⟩ := Program.compile_of_not_writable hwritable
      refine .inl ⟨hwritable, ?_⟩
      rw [evalText_of_compile_error hparse hcompile]
      cases e with
      -- all failures to compile are answered alike, but for a hole
      | hole h => exact absurd rfl (hother h)
      | _ => rfl

/-- The logarithm of zero is left in the formula as a pole, so that there is no value. -/
theorem evalText_outcome_logarithm :
    ∃ h, evalText "log(0)" [("a", Tensor.scalar 2)] = .error h := by
  have hpole : (Notation.parse "log(0)").toOption.any (fun x => x.freeNames.isEmpty &&
      (Program.unsupported Bindings.full.binds x).isEmpty && !x.holdsFunction &&
      !(inPlaces ["a"] x).holdsFunction && hasHole (inPlaces ["a"] x)) = true := by decide +kernel
  obtain ⟨x, hx, hpole⟩ := Except.exists_eq_ok_of_any hpole
  simp only [Bool.and_eq_true, List.isEmpty_iff, Bool.not_eq_true'] at hpole
  obtain ⟨⟨⟨⟨hnames, hsupported⟩, hcalled⟩, hstill⟩, hhole⟩ := hpole
  have hwritable : Writable Bindings.full.binds ["a"] x :=
    ⟨by rw [hnames]; exact fun _ h => absurd h List.not_mem_nil, hsupported, hcalled, hstill⟩
  have hfull : ∀ p ∈ ([("a", Tensor.scalar 2)] : Scope), p.2.IsFull :=
    List.forall_mem_singleton.mpr rfl
  rcases evalText_outcome "log(0)" hfull with ⟨e, he, -⟩ | ⟨x', hx', hcases⟩
  · cases hx.symm.trans he
  · cases hx.symm.trans hx'
    rcases hcases with ⟨hnot, -⟩ | ⟨-, -, herror⟩ | ⟨-, hnone, -⟩
    · exact absurd hwritable hnot
    · exact herror
    · exact absurd (hhole.symm.trans hnone) nofun

end Graphing
