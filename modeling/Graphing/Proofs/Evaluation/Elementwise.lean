/-
  Graphing.Proofs.Evaluation.Elementwise

  Calls with arrays, one element at a time.

  An array call whose values go together has a result, and each element of it
  is the call on the scalars at its index (`call_elementwise`): a fault at one
  element makes that element NaN and changes no other.  The one exception is a
  value given under the name by which the formula itself goes.
-/
import Graphing.Proofs.Evaluation.Broadcast
import Graphing.Proofs.Evaluation.Finite

namespace Graphing.CompiledFormula

variable {f : CompiledFormula} {values given : List (Tensor Float)}
  {named : List (String × Tensor Float)} {shape : List Nat}

/-! ## Values at points -/

theorem isNaN_valueAt {point : Array Float} {e : Fault} (h : f.real? point = .error e) :
    (f.valueAt point).isNaN = true := by
  unfold valueAt
  rw [h]
  exact Binary64.isNaN_nan

/-- Scalars are evaluated at the point that they make. -/
theorem run_scalars (f : CompiledFormula) (point : List Float) :
    f.run (point.map Tensor.scalar) = .ok (Tensor.scalar (f.valueAt point.toArray)) := by
  have hshapes : (point.map Tensor.scalar).map (·.shape) =
      List.replicate point.length ([] : List Nat) := by
    rw [List.map_map]
    exact List.map_const'
  have hpoint : pointAt (point.map Tensor.scalar) [] 0 = point.toArray := by
    unfold pointAt
    rw [List.map_map]
    exact congrArg List.toArray (List.map_id point)
  rw [run_eq_generate (hshapes ▸ Tensor.commonShapes_replicate _), Tensor.generate_nil, hpoint]

/-! ## Bindings -/

/-- The value that a call finds under a name. -/
def lookup (named : List (String × Tensor Float)) (name : String) : Option (Tensor Float) :=
  (named.find? fun p => p.1 == name).map Prod.snd

/-- How a call gets the values of its variables: all by position, or each under its name. -/
inductive Gives (f : CompiledFormula) :
    (values : List (Tensor Float)) → (named : List (String × Tensor Float)) →
      (given : List (Tensor Float)) → Prop
  | byPosition {values : List (Tensor Float)} (count : values.length = f.parameters.length) :
      Gives f values [] values
  | byName {named : List (String × Tensor Float)} {given : List (Tensor Float)}
      (found : List.Forall₂ (fun name t => lookup named name = some t) f.parameters given) :
      Gives f [] named given

theorem Gives.length_eq (h : f.Gives values named given) : given.length = f.parameters.length := by
  cases h with
  | byPosition count => exact count
  | byName found => exact found.length_eq.symm

theorem filterMap_lookup {names : List String}
    (h : List.Forall₂ (fun name t => lookup named name = some t) names given) :
    names.filterMap (lookup named) = given ∧
      names.filter (fun name => (lookup named name).isNone) = [] := by
  induction h with
  | nil => exact ⟨rfl, rfl⟩
  | cons hname _ ih =>
    obtain ⟨hgiven, hmissing⟩ := ih
    rw [List.filterMap_cons_some hname, hgiven, List.filter_cons_of_neg (by rw [hname]; nofun)]
    exact ⟨rfl, hmissing⟩

/-- The values are found, unless one is given under the name of the formula itself. -/
theorem Gives.bind_eq (h : f.Gives values named given)
    (hown : ownName ∉ named.map Prod.fst) : f.bind values named = .ok given := by
  have hnone : named.any (fun p => p.1 == ownName) = false := by
    rw [List.any_eq_false]
    rintro p hp hname
    exact hown (List.mem_map.mpr ⟨p, hp, beq_iff_eq.mp hname⟩)
  unfold bind
  rw [hnone, if_neg Bool.false_ne_true]
  cases h with
  | byPosition count =>
    cases values with
    | nil =>
      -- without variables there is nothing to find
      have hparameters : f.parameters = [] := List.length_eq_zero_iff.mp count.symm
      rw [hparameters]
      rfl
    | cons t ts =>
      rw [if_neg (by simp), if_pos (by simp), if_pos count]
  | byName found =>
    obtain ⟨hgiven, hmissing⟩ := filterMap_lookup found
    rw [if_neg (by simp), if_neg (by simp)]
    have hmissing' : f.parameters.filter
        (fun name => ((named.find? fun p => p.1 == name).map Prod.snd).isNone) = [] := hmissing
    dsimp only
    rw [hmissing']
    exact congrArg Except.ok hgiven

theorem call_reserved (f : CompiledFormula) (values : List (Tensor Float))
    (hown : ownName ∈ named.map Prod.fst) : f.call values named = .error .reserved := by
  obtain ⟨p, hp, hname⟩ := List.mem_map.mp hown
  have hany : named.any (fun p => p.1 == ownName) = true :=
    List.any_eq_true.mpr ⟨p, hp, beq_iff_eq.mpr hname⟩
  unfold call bind
  rw [hany, if_pos rfl]
  rfl

theorem Gives.call_eq (h : f.Gives values named given)
    (hown : ownName ∉ named.map Prod.fst) : f.call values named = f.run given := by
  unfold call
  rw [h.bind_eq hown]
  rfl

/-! ## Calls -/

/-- The values at an index of the common shape, if all tensors are full. -/
theorem exists_point (hfull : ∀ t ∈ given, t.IsFull)
    (hfits : ∀ t ∈ given, Tensor.Broadcasts t.shape.reverse shape.reverse) {i : Nat}
    (hi : i < Tensor.volume shape) :
    ∃ point : List Float, List.Forall₂ (fun t x => t.at? shape i = some x) given point ∧
      pointAt given shape i = point.toArray := by
  induction given with
  | nil => exact ⟨[], .nil, rfl⟩
  | cons t ts ih =>
    obtain ⟨x, hx⟩ := (hfull t List.mem_cons_self).exists_at? (hfits t List.mem_cons_self) hi
    obtain ⟨point, hpoint, hat⟩ :=
      ih (fun u hu => hfull u (List.mem_cons_of_mem t hu))
        (fun u hu => hfits u (List.mem_cons_of_mem t hu))
    refine ⟨x :: point, .cons hx hpoint, ?_⟩
    have hrest : ts.map (fun u => (u.at? shape i).getD Binary64.nan) = point :=
      congrArg Array.toList hat
    unfold pointAt
    rw [List.map_cons, hx, hrest]
    rfl

/-- A call with arrays that have a common shape has a result of that shape, unless a value is
given under the name of the formula itself.  Each element of the result is finite or NaN; it is
the result of the call on the scalars at its index, and NaN if there the formula has a fault. -/
theorem call_elementwise (hgives : f.Gives values named given) (hfull : ∀ t ∈ given, t.IsFull)
    (hshape : Tensor.commonShapes? (given.map (·.shape)) = some shape) :
    (ownName ∈ named.map Prod.fst ∧ f.call values named = .error .reserved) ∨
      (ownName ∉ named.map Prod.fst ∧ ∃ t, f.call values named = .ok t ∧
        t.shape = shape ∧ t.IsFull ∧
        ∀ i < Tensor.volume shape, ∃ (point : List Float) (y : Float),
          List.Forall₂ (fun u x => u.at? shape i = some x) given point ∧
            t.data[i]? = some y ∧ (y.isFinite = true ∨ y.isNaN = true) ∧
            f.call (point.map Tensor.scalar) [] = .ok (Tensor.scalar y) ∧
            ∀ e, f.real? point.toArray = .error e → y.isNaN = true) := by
  by_cases hown : ownName ∈ named.map Prod.fst
  · exact .inl ⟨hown, call_reserved f values hown⟩
  · refine .inr ⟨hown, _, (hgives.call_eq hown).trans (run_eq_generate hshape), rfl,
      .generate _ _, fun i hi => ?_⟩
    have hfits : ∀ t ∈ given, Tensor.Broadcasts t.shape.reverse shape.reverse := fun t ht =>
      .commonShapes hshape (List.mem_map.mpr ⟨t, ht, rfl⟩)
    obtain ⟨point, hpoint, hat⟩ := exists_point hfull hfits hi
    have hscalars : f.Gives (point.map Tensor.scalar) [] (point.map Tensor.scalar) := by
      refine .byPosition ?_
      rw [List.length_map, ← hpoint.length_eq, hgives.length_eq]
    refine ⟨point, f.valueAt point.toArray, hpoint, ?_,
      Binary64.isFinite_or_isNaN (isInf_valueAt f _), ?_, fun e he => isNaN_valueAt he⟩
    · rw [Tensor.data_generate shape _ i hi, hat]
    · rw [hscalars.call_eq List.not_mem_nil, run_scalars]

/-- The gamma function of a variable. -/
def gammaOfVariable : CompiledFormula := ⟨["x"], .call .gamma [.argument 0]⟩

/-- At a pole of the gamma function the result is NaN, next to an element that has a value. -/
theorem call_elementwise_pole :
    ∃ t y, gammaOfVariable.call [Tensor.vector #[0, 2]] [] = .ok t ∧
      t.shape = [2] ∧ t.data[0]? = some y ∧ y.isNaN = true := by
  have hgives : gammaOfVariable.Gives [Tensor.vector #[0, 2]] [] [Tensor.vector #[0, 2]] :=
    .byPosition rfl
  have hshape : Tensor.commonShapes? ([Tensor.vector #[0, 2]].map (·.shape)) = some [2] := rfl
  rcases call_elementwise hgives (List.forall_mem_singleton.mpr rfl) hshape with
    ⟨hown, -⟩ | ⟨-, t, hcall, ht, -, hat⟩
  · exact absurd hown List.not_mem_nil
  · obtain ⟨point, y, hpoint, hy, -, -, hfault⟩ := hat 0 (by decide)
    obtain ⟨x, rest, hx, hrest, rfl⟩ := List.forall₂_cons_left_iff.mp hpoint
    obtain rfl : x = 0 := (Option.some.inj hx).symm
    obtain rfl : rest = [] := List.forall₂_nil_left_iff.mp hrest
    have hpole : (gammaOfVariable.real? #[0]).toOption.isNone = true := by decide +kernel
    refine ⟨t, y, hcall, ht, hy, ?_⟩
    cases hreal : gammaOfVariable.real? #[0] with
    | error e => exact hfault e hreal
    | ok z => rw [hreal] at hpole; cases hpole

end Graphing.CompiledFormula
