/-
  Graphing.Contour.PlaneTerm

  Arithmetic terms in the two coordinates of the plane, as functions whose
  contours can be traced without any formula being compiled.
-/
import Graphing.Contour.Sampling

namespace Graphing.Contour

/-! ## Terms -/

/-- Operations on one number. -/
inductive UnaryOp where
  | neg
  | abs
  | sqrt
  | floor
  /-- The number itself, unless it is negative: then there is no value. -/
  | refuseNegative
  deriving Repr, DecidableEq

/-- Operations on two numbers. -/
inductive BinaryOp where
  | add
  | sub
  | mul
  | div
  deriving Repr, DecidableEq

/-- A term in the coordinates of a point. -/
inductive PlaneTerm where
  | x
  | y
  | const (v : Float)
  | unary (op : UnaryOp) (a : PlaneTerm)
  | binary (op : BinaryOp) (a b : PlaneTerm)

/-! ## Values -/

/-- The result of an operation on one number, if it has one. -/
def UnaryOp.apply? : UnaryOp → Float → Option Float
  | .neg, v => some (-v)
  | .abs, v => some v.abs
  | .sqrt, v => some v.sqrt
  | .floor, v => some v.floor
  | .refuseNegative, v => if v < 0 then none else some v

/-- The result of an operation on two numbers. -/
def BinaryOp.apply : BinaryOp → Float → Float → Float
  | .add, a, b => a + b
  | .sub, a, b => a - b
  | .mul, a, b => a * b
  | .div, a, b => a / b

namespace PlaneTerm

/-- The value of a term at a point, if it has one. -/
def value? : PlaneTerm → Point Float → Option Float
  | .x, p => some p.x
  | .y, p => some p.y
  | .const v, _ => some v
  | .unary op a, p => (a.value? p).bind op.apply?
  | .binary op a b, p => do return op.apply (← a.value? p) (← b.value? p)

/-- A term as a function that can be asked for many points at once. -/
def function (t : PlaneTerm) : PlaneFunction Float Float := .ofPartial t.value?

/-- A term as a function that can be asked for single points only. -/
def singleFunction (t : PlaneTerm) : PlaneFunction Float Float := .ofSingle t.value?

/-! ## Laws -/

/-- Asked for many points, a term has the values that it has at each of them. -/
theorem elementwise_function (t : PlaneTerm) : t.function.Elementwise :=
  PlaneFunction.elementwise_ofPartial t.value?

end PlaneTerm
end Graphing.Contour
