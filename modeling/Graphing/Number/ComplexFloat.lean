/-
  Graphing.Number.ComplexFloat

  Complex numbers with double components, and the elementary functions on
  their principal branches.
-/
import Graphing.Number.Elementary

namespace Graphing

/-- A complex number `re + im · i`. -/
structure ComplexFloat where
  re : Float
  im : Float
  deriving Inhabited

namespace ComplexFloat

/-! ## Arithmetic -/

def ofFloat (x : Float) : ComplexFloat := ⟨x, 0⟩

def zero : ComplexFloat := ⟨0, 0⟩

def one : ComplexFloat := ⟨1, 0⟩

/-- The imaginary unit. -/
def unit : ComplexFloat := ⟨0, 1⟩

def neg (z : ComplexFloat) : ComplexFloat := ⟨-z.re, -z.im⟩

def add (z w : ComplexFloat) : ComplexFloat := ⟨z.re + w.re, z.im + w.im⟩

def sub (z w : ComplexFloat) : ComplexFloat := ⟨z.re - w.re, z.im - w.im⟩

def mul (z w : ComplexFloat) : ComplexFloat :=
  ⟨z.re * w.re - z.im * w.im, z.re * w.im + z.im * w.re⟩

def scale (k : Float) (z : ComplexFloat) : ComplexFloat := ⟨k * z.re, k * z.im⟩

/-- Multiplication by the imaginary unit. -/
def rotate (z : ComplexFloat) : ComplexFloat := ⟨-z.im, z.re⟩

/-- The quotient, scaled by the larger component of the divisor. -/
def div (z w : ComplexFloat) : ComplexFloat :=
  if w.re.abs ≥ w.im.abs then
    if w.re.abs == 0 && w.im.abs == 0 then ⟨z.re / w.re.abs, z.im / w.re.abs⟩
    else
      let ratio := w.im / w.re
      let scale := 1 / (w.re + w.im * ratio)
      ⟨(z.re + z.im * ratio) * scale, (z.im - z.re * ratio) * scale⟩
  else
    let ratio := w.re / w.im
    let scale := 1 / (w.im + w.re * ratio)
    ⟨(z.re * ratio + z.im) * scale, (z.im * ratio - z.re) * scale⟩

/-- The length of the vector `(x, y)`, without overflow on the way. -/
def hypot (x y : Float) : Float :=
  let a := x.abs
  let b := y.abs
  let big := if a < b then b else a
  let small := if a < b then a else b
  if big == 0 || big.isInf || big.isNaN || small.isNaN then big + small
  else if big > 1e150 || small < 1e-150 then
    let r := small / big
    big * Float.sqrt (1 + r * r)
  else Float.sqrt (big * big + small * small)

/-- The magnitude. -/
def abs (z : ComplexFloat) : Float := hypot z.re z.im

/-- The angle, in (-π, π]. -/
def arg (z : ComplexFloat) : Float := Float.atan2 z.im z.re

/-- Both components are finite. -/
def isFinite (z : ComplexFloat) : Bool := z.re.isFinite && z.im.isFinite

/-! ## Exponential, logarithm and powers -/

def exp (z : ComplexFloat) : ComplexFloat :=
  let r := z.re.exp
  if z.im == 0 then ⟨r, z.im⟩ else ⟨r * z.im.cos, r * z.im.sin⟩

def log (z : ComplexFloat) : ComplexFloat := ⟨z.abs.log, z.arg⟩

/-- The principal square root. -/
def sqrt (z : ComplexFloat) : ComplexFloat :=
  if z.re == 0 && z.im == 0 then ⟨0, z.im⟩
  else if z.re ≥ 0 then
    let t := Float.sqrt ((z.re + z.abs) / 2)
    ⟨t, z.im / (2 * t)⟩
  else
    let t := Float.sqrt ((z.abs - z.re) / 2)
    ⟨z.im.abs / (2 * t), Binary64.copySign t z.im⟩

/-- Repeated squaring. -/
def powNatFrom (acc base : ComplexFloat) : (fuel : Nat) → Nat → ComplexFloat
  | 0, _ => acc
  | fuel + 1, n =>
    let acc := if n % 2 = 1 then acc.mul base else acc
    if n / 2 = 0 then acc else powNatFrom acc (base.mul base) fuel (n / 2)

/-- A power with a natural exponent. -/
def powNat (z : ComplexFloat) (n : Nat) : ComplexFloat :=
  if n = 1 then z
  else if n = 2 then z.mul z
  else if n = 3 then z.mul (z.mul z)
  else powNatFrom one z 64 n

/-- A power: by multiplication for small integer exponents, else through the logarithm. -/
def pow (z w : ComplexFloat) : ComplexFloat :=
  if w.re == 0 && w.im == 0 then one
  else if z.re == 0 && z.im == 0 then
    if w.re > 0 then zero else ⟨Binary64.nan, Binary64.nan⟩
  else
    let whole := w.re.floor
    if w.im == 0 && whole == w.re && w.re.abs < 100 then
      let n := ((Binary64.toRat? whole).map Rat.floor).getD 0
      let p := powNat z n.natAbs
      if n < 0 then div one p else p
    else exp (w.mul z.log)

/-! ## Trigonometric and hyperbolic functions -/

def sin (z : ComplexFloat) : ComplexFloat :=
  ⟨z.re.sin * z.im.cosh, z.re.cos * z.im.sinh⟩

def cos (z : ComplexFloat) : ComplexFloat :=
  ⟨z.re.cos * z.im.cosh, -(z.re.sin * z.im.sinh)⟩

def sinh (z : ComplexFloat) : ComplexFloat :=
  ⟨z.re.sinh * z.im.cos, z.re.cosh * z.im.sin⟩

def cosh (z : ComplexFloat) : ComplexFloat :=
  ⟨z.re.cosh * z.im.cos, z.re.sinh * z.im.sin⟩

def tan (z : ComplexFloat) : ComplexFloat := z.sin.div z.cos

def tanh (z : ComplexFloat) : ComplexFloat := z.sinh.div z.cosh

/-- `sqrt (1 - z) · sqrt (1 + z)`. -/
def cofactor (z : ComplexFloat) : ComplexFloat := (sqrt (one.sub z)).mul (sqrt (one.add z))

/-- `-i · log (i z + sqrt (1 - z²))`. -/
def asin (z : ComplexFloat) : ComplexFloat :=
  let l := log (z.rotate.add z.cofactor)
  ⟨l.im, -l.re⟩

/-- `π / 2 - asin z`. -/
def acos (z : ComplexFloat) : ComplexFloat := (ofFloat (Elementary.pi / 2)).sub z.asin

def asinh (z : ComplexFloat) : ComplexFloat :=
  let a := asin z.rotate
  ⟨a.im, -a.re⟩

def acosh (z : ComplexFloat) : ComplexFloat :=
  log (z.add ((sqrt (z.add one)).mul (sqrt (z.sub one))))

/-- `(log (1 + z) - log (1 - z)) / 2`. -/
def atanh (z : ComplexFloat) : ComplexFloat :=
  scale 0.5 ((log (one.add z)).sub (log (one.sub z)))

def atan (z : ComplexFloat) : ComplexFloat :=
  let a := atanh z.rotate
  ⟨a.im, -a.re⟩

end ComplexFloat
end Graphing
