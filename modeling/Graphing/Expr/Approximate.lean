/-
  Graphing.Expr.Approximate

  The value of a constant expression as a complex double, and the gamma
  function on which factorials rest.
-/
import Graphing.Expr.Order
import Graphing.Number.ComplexFloat

namespace Graphing

/-! ## The gamma function -/

namespace Gamma

/-- Coefficients of the numerator of the rational approximation. -/
def numerator : List Float :=
  [23531376880.410759688572007674451636754734846804940,
   42919803642.649098768957899047001988850926355848959,
   35711959237.355668049440185451547166705960488635843,
   17921034426.037209699919755754458931112671403265390,
   6039542586.3520280050642916443072979210699388420708,
   1439720407.3117216736632230727949123939715485786372,
   248874557.86205415651146038641322942321632125127801,
   31426415.585400194380614231628318205362874684987640,
   2876370.6289353724412254090516208496135991145378768,
   186056.26539522349504029498971604569928220784236328,
   8071.6720023658162106380029022722506138218516325024,
   210.82427775157934587250973392071336271166969580291,
   2.5066282746310002701649081771338373386264310793408]

/-- Coefficients of the denominator of the rational approximation. -/
def denominator : List Float :=
  [0, 39916800, 120543840, 150917976, 105258076, 45995730, 13339535, 2637558, 357423, 32670, 1925,
   66, 1]

/-- The shift of the approximation. -/
def shift : Float := 6.024680040776729583740234375

/-- The shift less one half. -/
def shiftLessHalf : Float := 5.524680040776729583740234375

/-- The quotient of the two polynomials at a positive number, evaluated from the end that keeps
the powers small. -/
def ratio (x : Float) : Float :=
  if x < 5 then
    let num := numerator.foldr (fun c acc => acc * x + c) 0
    let den := denominator.foldr (fun c acc => acc * x + c) 0
    num / den
  else
    let num := numerator.foldl (fun acc c => acc / x + c) 0
    let den := denominator.foldl (fun acc c => acc / x + c) 0
    num / den

/-- `sin (π x)`, reduced so that integers give zero. -/
def sinPi (x : Float) : Float :=
  let y := Binary64.truncRem x.abs 2
  let n := (2 * y).round
  let r :=
    if n == 0 then Float.sin (Elementary.pi * y)
    else if n == 1 then Float.cos (Elementary.pi * (y - 0.5))
    else if n == 2 then Float.sin (Elementary.pi * (1 - y))
    else if n == 3 then -Float.cos (Elementary.pi * (y - 1.5))
    else Float.sin (Elementary.pi * (y - 2))
  Binary64.copySign 1 x * r

/-- The factorial of a natural number. -/
def factorial : Nat → Nat
  | 0 => 1
  | n + 1 => (n + 1) * factorial n

/-- The gamma function; poles and negative infinity are faults, as is a result that is too large. -/
def gamma (x : Float) : Except ArithmeticFault Float :=
  if x.isNaN then .ok x
  else if x.isInf then (if x > 0 then .ok x else .error .domain)
  else if x == 0 then .error .domain
  -- the poles are zero and the negative whole numbers
  else if x == x.floor && x < 0 then .error .domain
  else if x == x.floor && x ≤ 23 then
    .ok (Binary64.ofInt (factorial ((((Binary64.toRat? x).map Rat.floor).getD 1).toNat - 1)))
  else
    let m := x.abs
    if m < 1e-20 then
      let r := 1 / x
      if r.isInf then .error .overflow else .ok r
    else if m > 200 then
      if x < 0 then .ok (0 / sinPi x) else .error .overflow
    else
      let y := m + shiftLessHalf
      -- how far the sum was rounded
      let z :=
        if m > shiftLessHalf then (y - m) - shiftLessHalf
        else (y - shiftLessHalf) - m
      let z := z * shift / y
      let r :=
        if x < 0 then
          -- by reflection
          let r := -Elementary.pi / sinPi m / m * y.exp / ratio m
          let r := r - z * r
          if m < 140 then r / Float.pow y (m - 0.5)
          else
            -- in two steps, since the power itself may overflow
            let s := Float.pow y (m / 2 - 0.25)
            r / s / s
        else
          let r := ratio m / y.exp
          let r := r + z * r
          if m < 140 then r * Float.pow y (m - 0.5)
          else
            let s := Float.pow y (m / 2 - 0.25)
            r * s * s
      if r.isInf then .error .overflow else .ok r

end Gamma

/-! ## Values of constants -/

namespace Expr

/-- A real function lifted to numbers without imaginary part. -/
def onReal (f : Float → Float) (z : ComplexFloat) : Option ComplexFloat :=
  if z.im == 0 then some (.ofFloat (f z.re)) else none

/-- The value of a function at values of its arguments. -/
def fnValue : Fn → List ComplexFloat → Option ComplexFloat
  | .abs, [z] => some (.ofFloat z.abs)
  | .sign, [z] => onReal (fun x => if x > 0 then 1 else if x < 0 then -1 else 0) z
  | .floor, [z] => some ⟨z.re.floor, z.im.floor⟩
  | .ceil, [z] => some ⟨z.re.ceil, z.im.ceil⟩
  | .exp, [z] => some z.exp
  | .log, [z] => some z.log
  | .sin, [z] => some z.sin
  | .cos, [z] => some z.cos
  | .tan, [z] => some z.tan
  | .cot, [z] => some (ComplexFloat.one.div z.tan)
  | .sinh, [z] => some z.sinh
  | .cosh, [z] => some z.cosh
  | .tanh, [z] => some z.tanh
  | .coth, [z] => some (ComplexFloat.one.div z.tanh)
  | .asin, [z] =>
    if z.im == 0 && z.re.abs ≤ 1 then some (.ofFloat z.re.asin) else some z.asin
  | .acos, [z] =>
    if z.im == 0 && z.re.abs ≤ 1 then some (.ofFloat z.re.acos) else some z.acos
  | .atan, [z] => if z.im == 0 then some (.ofFloat z.re.atan) else some z.atan
  | .asinh, [z] => if z.im == 0 then some (.ofFloat z.re.asinh) else some z.asinh
  | .acosh, [z] =>
    if z.im == 0 && z.re ≥ 1 then some (.ofFloat z.re.acosh) else some z.acosh
  | .atanh, [z] =>
    if z.im == 0 && z.re.abs < 1 then some (.ofFloat z.re.atanh) else some z.atanh
  | .atan2, [y, x] =>
    if y.im == 0 && x.im == 0 then some (.ofFloat (Float.atan2 y.re x.re)) else none
  | .re, [z] => some (.ofFloat z.re)
  | .gamma, [z] => if z.im == 0 then (Gamma.gamma z.re).toOption.map .ofFloat else none
  | .factorial, [z] =>
    if z.im == 0 then (Gamma.gamma (z.re + 1)).toOption.map .ofFloat else none
  | .mod, [x, y] =>
    if x.im == 0 && y.im == 0 then some (.ofFloat (Binary64.floorRem x.re y.re)) else none
  | _, _ => none

mutual
/-- The value of a constant, `none` if a part has none. -/
def value : Expr → Option ComplexFloat
  | .rat q => some (.ofFloat (Binary64.ofRat q))
  | .real x => some (.ofFloat x.toFloat)
  | .const .e => some (.ofFloat Elementary.euler)
  | .const .pi => some (.ofFloat Elementary.pi)
  | .const .i => some .unit
  | .sum ts => (values ts).map fun zs => zs.foldl .add .zero
  | .product fs => (values fs).map fun zs => zs.foldl .mul .one
  | .power b x => do
    let z ← value b
    let w ← value x
    if z.im == 0 && w.im == 0 && (z.re > 0 || w.re == w.re.floor) then
      some (.ofFloat (Float.pow z.re w.re))
    else some (z.pow w)
  | .call f args => do fnValue f (← values args)
  | _ => none

/-- The values of several constants. -/
def values : List Expr → Option (List ComplexFloat)
  | [] => some []
  | x :: xs => do return (← value x) :: (← values xs)
end

/-- The value as a pair. -/
def valuePair (x : Expr) : Option (Float × Float) := x.value.map fun z => (z.re, z.im)

/-- Whether a component is as small as rounding errors are. -/
def negligible (x : Float) (z : ComplexFloat) : Bool := x.abs ≤ 1e-13 * z.abs

/-- The value of a real constant. -/
def realValue (x : Expr) : Option Float := do
  if !x.isConstant then none else
    let z ← x.value
    if !z.isFinite then none
    else if negligible z.im z then some z.re else none

/-! ## The key of an expression -/

/-- The key by which an expression is ordered. -/
def key (x : Expr) : OrderKey := keyTo valuePair (x.size + 1) x

/-- Whether the first expression comes before the second. -/
def before (x y : Expr) : Bool := x.key.compare y.key == .lt

/-- The terms of a sum in the order in which they are added. -/
def orderTerms (ts : List Expr) : List Expr :=
  termsTo valuePair (ts.foldl (fun n t => n + t.size) 2) ts

/-- Expressions in the order of their keys. -/
def sortByKey (xs : List Expr) : List Expr :=
  (sortBy (fun a b => a.1.compare b.1 == .lt) (xs.map fun x => (x.key, x))).map Prod.snd

end Expr
end Graphing
