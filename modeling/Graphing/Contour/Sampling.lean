/-
  Graphing.Contour.Sampling

  Sampling a function of the plane. A function can be asked for many points at
  once; where that fails it is asked for each point by itself. Values that are
  not finite, and failures, become undefined.
-/
import Graphing.Contour.Coordinate

namespace Graphing.Contour

/-! ## Functions of the plane -/

/-- A function of the plane with two ways to call it, each of which can fail. -/
structure PlaneFunction (α β : Type) where
  onMany : List (Point α) → Option (List β)
  onPoint : Point α → Option β

variable {α β : Type}

/-- The function with a value at every point. -/
def PlaneFunction.ofTotal (f : Point α → β) : PlaneFunction α β :=
  ⟨fun ps => some (ps.map f), fun p => some (f p)⟩

/-- The function that fails on many points if it fails on one of them. -/
def PlaneFunction.ofPartial (f : Point α → Option β) : PlaneFunction α β :=
  ⟨fun ps => ps.mapM f, f⟩

/-- The function that always fails on many points. -/
def PlaneFunction.ofSingle (f : Point α → Option β) : PlaneFunction α β := ⟨fun _ => none, f⟩

/-- A function works element by element: on many points it fails, or has the same values as on each
point. -/
def PlaneFunction.Elementwise (f : PlaneFunction α β) : Prop :=
  ∀ ps vs, f.onMany ps = some vs → vs.map some = ps.map f.onPoint

/-! ## Samples -/

variable [Reading β α]

/-- A value, undefined if it is not finite. -/
def settle (v : β) : β := if Reading.isFinite v then v else Reading.undefined

/-- The sample at one point. -/
def PlaneFunction.sampleAt (f : PlaneFunction α β) (p : Point α) : β :=
  match f.onPoint p with
  | some v => settle v
  | none => Reading.undefined

/-- The samples at many points. -/
def PlaneFunction.sample (f : PlaneFunction α β) (ps : List (Point α)) : List β :=
  match f.onMany ps with
  | some vs => vs.map settle
  | none => ps.map f.sampleAt

/-! ## Laws -/

omit [Reading β α] in
theorem PlaneFunction.elementwise_ofTotal (f : Point α → β) : (ofTotal f).Elementwise := by
  intro ps vs h
  cases h
  simp [ofTotal]

omit [Reading β α] in
theorem PlaneFunction.elementwise_ofPartial (f : Point α → Option β) :
    (ofPartial f).Elementwise := by
  intro ps
  induction ps with
  | nil => simp [ofPartial]
  | cons p ps ih =>
    intro vs h
    simp only [ofPartial, List.mapM_cons, Option.pure_def, Option.bind_eq_bind,
      Option.bind_eq_some_iff, Option.some.injEq] at h ih ⊢
    obtain ⟨v, hv, ws, hws, rfl⟩ := h
    simp [hv, ih ws hws]

omit [Reading β α] in
theorem PlaneFunction.elementwise_ofSingle (f : Point α → Option β) :
    (ofSingle f).Elementwise := by
  intro ps vs h
  cases h

end Graphing.Contour
