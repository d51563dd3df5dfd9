/-
  Graphing.Contour.Batch

  Sampling a function of the plane over arrays of coordinates. The function is
  called once, with the arrays as they are; if that fails, or the answer does
  not fit their shape, it is called for one point after another, and a failure
  at one of them is left there.
-/
import Graphing.Contour.Sampling
import Graphing.Evaluation.Tensor

namespace Graphing.Contour

/-! ## Functions of arrays -/

/-- A function of the plane that can be called with arrays of coordinates and with the coordinates
of one point. A call fails if the function does, and if its answer holds anything but numbers. -/
structure ArrayFunction (ε α β : Type) where
  onArrays : (xs ys : Tensor α) → Except ε (Tensor β)
  onNumbers : (x y : α) → Except ε β

/-- What can go wrong while a batch is sampled. -/
inductive BatchError (ε : Type) where
  /-- The function fails. -/
  | call (e : ε)
  /-- The answer does not fit the shape of the batch. -/
  | shape
  /-- One of the arrays has no element at an index. -/
  | index
  deriving Repr, DecidableEq

variable {ε α β : Type}

/-- Repeat an answer to fit a shape. -/
def repeatTo (shape : List Nat) (t : Tensor β) : Except (BatchError ε) (Tensor β) :=
  if Tensor.commonShape? t.shape shape = some shape then
    match (Array.range (Tensor.volume shape)).mapM (t.at? shape) with
    | some data => .ok ⟨shape, data⟩
    | none => .error .shape
  else .error .shape

/-- The coordinate at a flat index of an array. -/
def coordinateAt (ts : Tensor α) (i : Nat) : Except (BatchError ε) α :=
  match ts.data[i]? with
  | some x => .ok x
  | none => .error .index

namespace ArrayFunction

/-- The values at all points of a batch, from a single call. -/
def atOnce (f : ArrayFunction ε α β) (xs ys : Tensor α) : Except (BatchError ε) (Tensor β) := do
  repeatTo xs.shape (← (f.onArrays xs ys).mapError .call)

/-- The value at one point of a batch. -/
def callAt (f : ArrayFunction ε α β) (xs ys : Tensor α) (i : Nat) : Except (BatchError ε) β := do
  let x ← coordinateAt xs i
  let y ← coordinateAt ys i
  (f.onNumbers x y).mapError .call

variable [Reading β α]

/-- The values at the points of a batch one after another, undefined where there is none. -/
def pointByPoint (f : ArrayFunction ε α β) (xs ys : Tensor α) :
    Except (BatchError ε) (Tensor β) := do
  let data ← (Array.range (Tensor.volume xs.shape)).mapM fun i =>
    tryCatch (f.callAt xs ys i) fun _ => pure Reading.undefined
  return ⟨xs.shape, data⟩

/-- The samples at the points of a batch. -/
def sample (f : ArrayFunction ε α β) (xs ys : Tensor α) : Except (BatchError ε) (Tensor β) := do
  let values ← tryCatch (f.atOnce xs ys) fun _ => f.pointByPoint xs ys
  return values.map settle

end ArrayFunction

/-! ## Lists of points as arrays -/

/-- The points that two arrays of coordinates make, in the order of their indices. -/
def pointsOf (xs ys : Tensor α) : List (Point α) :=
  List.zipWith Point.mk xs.data.toList ys.data.toList

/-- A function of many points as a function of arrays: the values for the points of a batch come
in its shape. -/
def PlaneFunction.onShapes (f : PlaneFunction α β) : ArrayFunction Unit α β where
  onArrays xs ys :=
    match f.onMany (pointsOf xs ys) with
    | some vs => .ok ⟨xs.shape, vs.toArray⟩
    | none => .error ()
  onNumbers x y :=
    match f.onPoint ⟨x, y⟩ with
    | some v => .ok v
    | none => .error ()

end Graphing.Contour
