/-
  Graphing.Number.Elementary

  Elementary functions and constants on doubles. A function that has no
  answer for an argument says why, instead of returning a special value.
-/
import Graphing.Number.Binary64

namespace Graphing

/-- Why an arithmetic operation on numbers has no result. -/
inductive ArithmeticFault where
  /-- The argument is outside of the function's domain. -/
  | domain
  /-- The result is too large for a double. -/
  | overflow
  /-- The divisor is zero. -/
  | zeroDivision
  deriving Repr, DecidableEq

namespace Elementary

/-! ## Constants -/

/-- The ratio of a circle's circumference to its diameter. -/
def pi : Float := Float.ofBits 0x400921FB54442D18

/-- The base of the natural logarithm. -/
def euler : Float := Float.ofBits 0x4005BF0A8B145769

/-- The natural logarithm of two. -/
def ln2 : Float := Float.log 2

/-- The natural logarithm of ten. -/
def ln10 : Float := Float.log 10

/-- The golden ratio. -/
def phi : Float := (1 + Float.sqrt 5) / 2

/-- A tolerance close to the spacing of doubles around one. -/
def precision : Float := Binary64.ofDecimal false 1 (-16)

/-! ## Rounding -/

/-- The integer part towards negative infinity; NaN and the infinities have none. -/
def floor? (x : Float) : Except ArithmeticFault Float :=
  if x.isNaN then .error .domain
  else if x.isInf then .error .overflow
  else .ok x.floor

/-- A checked quotient: division by zero is a fault. -/
def div? (x y : Float) : Except ArithmeticFault Float :=
  if y == 0 then .error .zeroDivision else .ok (x / y)

/-- `10 ^ digits`, which may overflow but not underflow. -/
def powerOfTen? (digits : Int) : Except ArithmeticFault Float :=
  let p := Float.pow 10 (Binary64.ofInt digits)
  if p.isInf then .error .overflow else .ok p

/-- Round to `digits` decimal places, a half always going up: 2.5 to 3 and -2.5 to -2. -/
def roundTo (x : Float) (digits : Int) : Except ArithmeticFault Float := do
  let scale ← powerOfTen? digits
  let whole ← floor? (x * scale + 0.5)
  -- adding zero makes a rounded negative zero positive
  div? (whole + 0) scale

/-- The fractional part of the magnitude of `x`. -/
def frac (x : Float) : Except ArithmeticFault Float := do
  let m := x.abs
  return m - (← floor? m)

/-! ## Linear maps -/

/-- A pair of numbers that span a range, possibly in reverse. -/
structure Span where
  first : Float
  last : Float

/-- Map `x` linearly so that `source.first` goes to `target.first` and `source.last` to
`target.last`; values outside of the source extrapolate. -/
def scalemap (x : Float) (source target : Span) : Float :=
  (x - source.first) / (source.last - source.first) * (target.last - target.first) + target.first

/-- Why a value cannot be mapped. -/
inductive MapFault where
  /-- A span has fewer than two numbers. -/
  | incomplete
  /-- The source span is a single point. -/
  | degenerate
  deriving Repr, DecidableEq

/-- The span of the first two numbers of a list. -/
def Span.ofList? : List Float → Option Span
  | a :: b :: _ => some ⟨a, b⟩
  | _ => none

/-- The linear map between spans given as lists. The source is looked at before the target; with
`strict` a source of a single point is refused. -/
def scalemapList (strict : Bool) (x : Float) (source target : List Float) :
    Except MapFault Float :=
  match Span.ofList? source with
  | none => .error .incomplete
  | some s =>
    if strict && s.last - s.first == 0 then .error .degenerate
    else
      match Span.ofList? target with
      | none => .error .incomplete
      | some t => .ok (scalemap x s t)

/-! ## Sign, parity and roots -/

/-- `x / |x|`: no number for zero and NaN. -/
def sgn (x : Float) : Float :=
  if x == 0 || x.isNaN then Binary64.nan else Binary64.copySign 1 x

/-- Odd integers leave the remainder one. -/
def odd (n : Int) : Bool := n % 2 == 1

/-- Even integers leave the remainder zero. -/
def even (n : Int) : Bool := n % 2 == 0

/-- The natural logarithm of a positive number. -/
def ln (x : Float) : Except ArithmeticFault Float :=
  if x ≤ 0 then .error .domain else .ok x.log

/-- The logarithm to base ten. -/
def log (x : Float) : Except ArithmeticFault Float := do
  return (← ln x) / ln10

/-- The square. -/
def sqr (x : Float) : Float := x * x

/-- The real cube root, which keeps the sign. -/
def cbrt (x : Float) : Float := Binary64.copySign (Float.pow x.abs (1 / 3)) x

/-- The quadrant of a point; the axes belong to quadrants 2, 3 and 4. -/
def quadrant (x y : Float) : Nat :=
  if x > 0 then (if y > 0 then 1 else 4)
  else (if y > 0 then 2 else 3)

/-- Either of the two infinities. -/
def isInfinite (x : Float) : Bool := x == Binary64.posInf || x == Binary64.negInf

end Elementary
end Graphing
