/-
  Graphing.Proofs.Evaluation.Finite

  No evaluation comes to an infinity.

  A value is made real at the very end, and there an infinity becomes NaN or a
  fault.  An array is evaluated all at once if no element has a fault, and
  point by point otherwise; both come to the same (`run_eq_generate`).  So what
  equals the value of a text is a finite number: NaN equals nothing.
-/
import Graphing.Evaluation.Text
import Graphing.Proofs.Except
import Mathlib.Data.List.Basic

open Float.Model (UnpackedFloat)

namespace Graphing

/-! ## Comparing doubles -/

namespace Binary64

theorem compare_swap (a b : UnpackedFloat) : b.compare a = (a.compare b).map Ordering.swap := by
  have hint (m n : Int) : compare n m = (compare m n).swap := Std.OrientedCmp.eq_swap
  have hnat (m n : Nat) : compare n m = (compare m n).swap := Std.OrientedCmp.eq_swap
  rcases a with (_ | _) | _ | (_ | _) | ⟨_ | _, m, e, hm⟩ <;>
    rcases b with (_ | _) | _ | (_ | _) | ⟨_ | _, n, f, hn⟩ <;>
    first
    | rfl
    | (dsimp only [UnpackedFloat.compare]
       simp only [Option.map_some, Ordering.swap_then, ← hint, ← hnat])

/-- Equality of doubles is symmetric, although it is not reflexive. -/
theorem beq_comm (x y : Float) : (x == y) = (y == x) := by
  have hswap : ∀ a b : UnpackedFloat, (a.compare b == some .eq) = (b.compare a == some .eq) := by
    intro a b
    rw [compare_swap a b]
    cases a.compare b with
    | none => rfl
    | some o => cases o <;> rfl
  exact hswap x.toModel.unpack y.toModel.unpack

theorem isInf_of_isFinite {x : Float} (h : x.isFinite = true) : x.isInf = false := by
  have hunpacked : ∀ a : UnpackedFloat, a.isFinite = true → a.isInf = false := by
    intro a ha
    cases a with
    | infinity s => cases ha
    | notANumber => rfl
    | zero s => rfl
    | finite s m e hm => rfl
  exact hunpacked x.toModel.unpack h

/-- What is no infinity and equals something is finite. -/
theorem isFinite_of_beq {x y : Float} (h : (x == y) = true) (hx : x.isInf = false) :
    x.isFinite = true := by
  have hunpacked : ∀ a b : UnpackedFloat, (a.compare b == some .eq) = true → a.isInf = false →
      a.isFinite = true := by
    intro a b hab ha
    cases a with
    | infinity s => cases ha
    | notANumber => cases hab
    | zero s => rfl
    | finite s m e hm => rfl
  exact hunpacked x.toModel.unpack y.toModel.unpack h hx

/-- What equals a finite number is finite. -/
theorem isFinite_of_beq_isFinite {x y : Float} (h : (x == y) = true) (hy : y.isFinite = true) :
    x.isFinite = true := by
  have hunpacked : ∀ a b : UnpackedFloat, (a.compare b == some .eq) = true →
      b.isFinite = true → a.isFinite = true := by
    intro a b hab hb
    cases a with
    | infinity s =>
      cases b with
      | infinity t => cases hb
      | notANumber => cases hb
      -- an infinity is on one side of all finite numbers
      | zero t => cases s <;> cases t <;> cases hab
      | finite t n f hn => cases s <;> cases t <;> cases hab
    | notANumber => cases hab
    | zero s => rfl
    | finite s m e hm => rfl
  exact hunpacked x.toModel.unpack y.toModel.unpack h hy

theorem isFinite_or_isNaN {x : Float} (h : x.isInf = false) :
    x.isFinite = true ∨ x.isNaN = true := by
  have hunpacked : ∀ a : UnpackedFloat, a.isInf = false → a.isFinite = true ∨ a.isNaN = true := by
    intro a ha
    cases a with
    | infinity s => cases ha
    | notANumber => exact .inr rfl
    | zero s => exact .inl rfl
    | finite s m e hm => exact .inl rfl
  exact hunpacked x.toModel.unpack h

theorem isInf_nan : nan.isInf = false := by decide +kernel

theorem isNaN_nan : nan.isNaN = true := by decide +kernel

theorem isFinite_nan : nan.isFinite = false := by decide +kernel

/-- A double, or NaN in its place if it is not finite. -/
theorem isInf_settle {p : Prop} [Decidable p] {x : Float} (h : p → x.isFinite = true) :
    (if p then x else nan).isInf = false := by
  split
  · rename_i hp
    exact isInf_of_isFinite (h hp)
  · exact isInf_nan

end Binary64

/-! ## Real values -/

theorem Value.isInf_toReal {v : Value} {y : Float} (h : v.toReal = .ok y) : y.isInf = false := by
  cases v with
  | int n =>
    have hfloat : floatOfInt n = .ok y := h
    -- an integer that is too large is a fault
    rw [floatOfInt] at hfloat
    split at hfloat
    · cases hfloat
    · rename_i hinf
      cases hfloat
      exact Bool.eq_false_iff.mpr hinf
  | real s x =>
    cases h
    exact Binary64.isInf_settle id
  | complex s z =>
    cases h
    refine Binary64.isInf_settle fun hz => ?_
    exact ((Bool.and_eq_true _ _).mp hz).2

namespace CompiledFormula

variable {f : CompiledFormula} {values : List (Tensor Float)} {shape : List Nat}

theorem isInf_real? {point : Array Float} {y : Float} (h : f.real? point = .ok y) :
    y.isInf = false := by
  obtain ⟨v, -, hv⟩ := Except.bind_eq_ok.mp h
  exact Value.isInf_toReal hv

theorem isInf_valueAt (f : CompiledFormula) (point : Array Float) :
    (f.valueAt point).isInf = false := by
  unfold valueAt
  split
  · rename_i hy
    exact isInf_real? hy
  · exact Binary64.isInf_nan

/-! ## All points at once -/

theorem valueAt_of_real? {point : Array Float} {y : Float} (h : f.real? point = .ok y) :
    f.valueAt point = y := by
  unfold valueAt
  rw [h]

/-- If all points can be evaluated at once, their values are those they have one by one. -/
theorem batch?_eq {data : Array Float} (h : f.batch? values shape = .ok data) :
    data = (Array.range (Tensor.volume shape)).map fun i => f.valueAt (pointAt values shape i) := by
  rw [batch?, Array.mapM_eq_mapM_toList] at h
  rcases Except.mapM_cases (fun i => f.real? (pointAt values shape i))
      (Array.range (Tensor.volume shape)).toList with ⟨i, -, e, -, hrun⟩ | ⟨hall, hrun⟩
  · rw [hrun] at h
    cases h
  · rw [hrun] at h
    cases h
    apply Array.toList_inj.mp
    rw [Array.toList_map, ← List.filterMap_eq_map]
    refine List.filterMap_congr fun i hi => ?_
    obtain ⟨y, hy⟩ := hall i hi
    rw [hy, Function.comp_apply, valueAt_of_real? hy]
    rfl

/-- Both ways to evaluate an array come to the values at its points. -/
theorem run_eq_generate (h : Tensor.commonShapes? (values.map (·.shape)) = some shape) :
    f.run values =
      .ok (Tensor.generate shape fun i => f.valueAt (pointAt values shape i)) := by
  unfold run
  rw [h]
  dsimp only
  cases hbatch : f.batch? values shape with
  | error e => rfl
  | ok data => rw [batch?_eq hbatch]; rfl

/-- A result has the shape that the values have in common. -/
theorem exists_shape_of_run {t : Tensor Float} (h : f.run values = .ok t) :
    ∃ shape, Tensor.commonShapes? (values.map (·.shape)) = some shape ∧
      t = Tensor.generate shape fun i => f.valueAt (pointAt values shape i) := by
  cases hshape : Tensor.commonShapes? (values.map (·.shape)) with
  | none =>
    rw [run, hshape] at h
    cases h
  | some shape =>
    rw [run_eq_generate hshape] at h
    cases h
    exact ⟨shape, rfl, rfl⟩

/-- No value of a compiled formula is an infinity, whether all points are evaluated at once or one
by one. -/
theorem isInf_run {t : Tensor Float} (h : f.run values = .ok t) :
    ∀ y ∈ t.data.toList, y.isInf = false := by
  obtain ⟨shape, -, rfl⟩ := exists_shape_of_run h
  intro y hy
  rw [Tensor.generate, Array.toList_map] at hy
  obtain ⟨i, -, rfl⟩ := List.mem_map.mp hy
  exact isInf_valueAt f _

end CompiledFormula

/-! ## Values of texts -/

/-- The value of a text is a finite number or NaN. -/
theorem isInf_evalText {text : String} {scope : Scope} {y : Float}
    (h : evalText text scope = .ok y) : y.isInf = false := by
  unfold evalText at h
  split at h
  · cases h
  · cases h
    exact Binary64.isInf_nan
  · rename_i f hf
    split at h
    · rename_i t hcall
      cases h
      obtain ⟨values, -, hrun⟩ := Except.bind_eq_ok.mp hcall
      cases hscalar : t.toScalar? with
      | none => exact Binary64.isInf_nan
      | some y =>
        refine CompiledFormula.isInf_run hrun y ?_
        unfold Tensor.toScalar? at hscalar
        split at hscalar
        · exact Array.mem_toList_iff.mpr (Array.mem_of_getElem? hscalar)
        · cases hscalar
    · cases h
      exact Binary64.isInf_nan

end Graphing
