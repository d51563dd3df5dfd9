/-
  Graphing.Number.BigFloat

  Binary floating-point numbers with a chosen precision and an exponent
  without bounds: the inexact constants of a formula. Every operation is exact
  integer arithmetic followed by one rounding to nearest, ties to even.
-/
import Graphing.Number.Decimal

namespace Graphing

open CorePower

/-- The number `mant · 2 ^ expo`, known to `prec` bits. The mantissa is odd, or zero with exponent
zero, so that a value has one form per precision. -/
structure BigFloat where
  mant : Int
  expo : Int
  prec : Nat
  deriving Repr, DecidableEq, Inhabited, Hashable

namespace BigFloat

/-! ## Normal form -/

/-- Move factors of two from the mantissa into the exponent. -/
def stripTwos : (fuel : Nat) → Nat → Int → Nat × Int
  | 0, m, e => (m, e)
  | fuel + 1, m, e => if m % 2 = 0 then stripTwos fuel (m / 2) (e + 1) else (m, e)

/-- The normal form of `± m · 2 ^ e`. -/
def make (neg : Bool) (m : Nat) (e : Int) (prec : Nat) : BigFloat :=
  if m = 0 then ⟨0, 0, prec⟩ else
    let (odd, e) := stripTwos (m.log2 + 1) m e
    ⟨if neg then -(odd : Int) else odd, e, prec⟩

/-- Round `± num / den` to `prec` bits. -/
def round (prec : Nat) (neg : Bool) (num den : Nat) : BigFloat :=
  let (m, e) := Rounding.significand prec none num den
  make neg m e prec

/-! ## Conversions -/

/-- The precision of ordinary constants. -/
def ordinary : Nat := 53

/-- Bits of precision that hold `digits` decimal digits. -/
def bitsForDigits (digits : Nat) : Nat :=
  -- (digits + 1) · log₂ 10, to the nearest integer
  max 1 (((digits + 1) * 33219280948873626 + 5000000000000000) / 10000000000000000)

/-- Decimal digits that `bits` of precision hold. -/
def digitsForBits (bits : Nat) : Nat :=
  max 1 ((bits * 10000000000000000 + 16609640474436813) / 33219280948873626 - 1)

/-- A fraction rounded to a precision. -/
def ofRat (prec : Nat) (q : Rat) : BigFloat := round prec (q.num < 0) q.num.natAbs q.den

/-- The exact value. -/
def toRat (x : BigFloat) : Rat :=
  let s := Rounding.scale 2 x.expo x.mant.natAbs 1
  let q : Rat := mkRat s.1 s.2
  if x.mant < 0 then -q else q

/-- A finite double as a constant of ordinary precision; `none` for infinities and NaN. -/
def ofFloat? (x : Float) : Option BigFloat :=
  match Binary64.parts x with
  | .finite neg m e => some (make neg m e ordinary)
  | _ => none

/-- The nearest double, infinite when the value is too large. -/
def toFloat (x : BigFloat) : Float :=
  if x.expo > 2000 then Binary64.ofQuotient (x.mant < 0) (2 ^ (2000 : Nat)) 1
  else if x.expo + (x.mant.natAbs.log2 : Int) < -2000 then Binary64.ofQuotient (x.mant < 0) 0 1
  else
    let s := Rounding.scale 2 x.expo x.mant.natAbs 1
    Binary64.ofQuotient (x.mant < 0) s.1 s.2

/-- The value rounded to the decimal digits that its precision holds, halves away from zero, as the
nearest double. This is the number that the constant's written form denotes. -/
def written (x : BigFloat) : Float :=
  if x.mant = 0 then 0 else
    let neg := x.mant < 0
    let top := x.expo + (x.mant.natAbs.log2 : Int)
    if top > 2000 then Binary64.ofQuotient neg (2 ^ (2000 : Nat)) 1
    else if top < -2000 then Binary64.ofQuotient neg 0 1
    else
      let s := Rounding.scale 2 x.expo x.mant.natAbs 1
      let digits := digitsForBits x.prec
      let k := Decimal.leadingExponent s.1 s.2
      let t := Rounding.scale 10 ((digits : Int) - k) s.1 s.2
      let d := (t.1 / t.2 + 5) / 10
      Binary64.ofDecimal neg d (k - ((digits : Int) - 1))

/-! ## Arithmetic -/

/-- The sign: -1, 0 or 1. -/
def sign (x : BigFloat) : Int := x.mant.sign

/-- The number zero. -/
def isZero (x : BigFloat) : Bool := x.mant == 0

/-- An exact fraction of the value with a common denominator that is a power of two. -/
def quotient (x : BigFloat) : Nat × Nat := Rounding.scale 2 x.expo x.mant.natAbs 1

/-- Round an exact `m · 2 ^ e`. -/
def roundBinary (prec : Nat) (m : Int) (e : Int) : BigFloat :=
  let (r, k) := Rounding.significand prec none m.natAbs 1
  make (m < 0) r (e + k) prec

def neg (x : BigFloat) : BigFloat := { x with mant := -x.mant }

def add (x y : BigFloat) : BigFloat :=
  let prec := max x.prec y.prec
  let low := min x.expo y.expo
  let span := max (x.expo - low) (y.expo - low)
  if span > 20000 then
    -- the smaller number is far below the last bit of the larger one
    if x.mant = 0 then { y with prec := prec }
    else if y.mant = 0 then { x with prec := prec }
    else if x.expo > y.expo then { x with prec := prec } else { y with prec := prec }
  else
    roundBinary prec
      (x.mant * 2 ^ (x.expo - low).toNat + y.mant * 2 ^ (y.expo - low).toNat) low

def mul (x y : BigFloat) : BigFloat :=
  roundBinary (max x.prec y.prec) (x.mant * y.mant) (x.expo + y.expo)

/-- The quotient by a number other than zero. -/
def div (x y : BigFloat) : BigFloat :=
  let prec := max x.prec y.prec
  let (m, e) := Rounding.significand prec none x.mant.natAbs y.mant.natAbs
  make ((x.mant < 0) != (y.mant < 0)) m (e + x.expo - y.expo) prec

/-- Repeated squaring with guard bits. -/
def powAux (x : BigFloat) : (fuel : Nat) → (n : Nat) → BigFloat
  | 0, _ => ⟨1, 0, x.prec⟩
  | fuel + 1, n =>
    if n = 0 then ⟨1, 0, x.prec⟩
    else
      let half := powAux x fuel (n / 2)
      let square := half.mul half
      if n % 2 = 0 then square else square.mul x

/-- A natural power: exact and rounded once when that is feasible, with guard bits otherwise. -/
def powNat (x : BigFloat) (n : Nat) : BigFloat :=
  if (x.mant.natAbs.log2 + 1) * n ≤ 20000 then
    roundBinary x.prec (x.mant ^ n) (x.expo * n)
  else
    let r := powAux { x with prec := x.prec + 64 } (n.log2 + 1) n
    roundBinary x.prec r.mant r.expo

/-- An integer power of a number other than zero. -/
def powInt (x : BigFloat) (n : Int) : BigFloat :=
  let p := powNat { x with prec := x.prec + 20 } n.natAbs
  let r := if n < 0 then div ⟨1, 0, x.prec + 20⟩ p else p
  roundBinary x.prec r.mant r.expo

/-- The three-way comparison of the values. -/
def compare (x y : BigFloat) : Ordering :=
  let d := (x.add y.neg).mant
  if d < 0 then .lt else if d = 0 then .eq else .gt

/-- The integer part towards negative infinity. -/
def floor (x : BigFloat) : Int :=
  match x.expo with
  | .ofNat n => x.mant * 2 ^ n
  | .negSucc n => x.mant.fdiv (2 ^ (n + 1))

/-- The value is an integer. -/
def isInt (x : BigFloat) : Bool := 0 ≤ x.expo

/-! ## Powers and exponentials of positive numbers -/

/-- `2 ^ t` for a double `t` of any size, as `fraction · 2 ^ shift`. -/
def exp2 (prec : Nat) (t : Float) : Option BigFloat :=
  if t.isNaN || t.isInf then none else
    let whole := t.floor
    let shift : Int := ((Binary64.toRat? whole).map Rat.floor).getD 0
    (ofFloat? (Float.exp2 (t - whole))).map fun f => roundBinary prec f.mant (f.expo + shift)

/-- A positive number to a power that is a double, through doubles where they suffice. -/
def powPositive (x : BigFloat) (y : Float) : Option BigFloat :=
  let direct := Float.pow x.toFloat y
  if direct.isFinite && direct > 1e-290 && x.toFloat > 1e-290 && x.toFloat < 1e290 then
    (ofFloat? direct).map fun r => { r with prec := x.prec }
  else
    let top := x.expo + (x.mant.natAbs.log2 : Int)
    let scaled : BigFloat := { x with expo := x.expo - top }
    exp2 x.prec (y * (Float.log2 scaled.toFloat + Binary64.ofInt top))

/-- The natural exponential. -/
def exp (x : BigFloat) : Option BigFloat :=
  let direct := Float.exp x.toFloat
  if direct.isFinite && direct > 1e-290 then
    (ofFloat? direct).map fun r => { r with prec := x.prec }
  else exp2 x.prec (x.toFloat * 1.4426950408889634)

/-- The natural logarithm of a positive number. -/
def log (x : BigFloat) : Option BigFloat :=
  let top := x.expo + (x.mant.natAbs.log2 : Int)
  let direct := x.toFloat
  if direct.isFinite && direct > 1e-290 then
    (ofFloat? (Float.log direct)).map fun r => { r with prec := x.prec }
  else
    let scaled : BigFloat := { x with expo := x.expo - top }
    (ofFloat? (Float.log scaled.toFloat + Binary64.ofInt top * Float.log 2)).map fun r =>
      { r with prec := x.prec }

/-! ## Reading decimal literals -/

/-- A decimal literal: its digits as an integer, how many digits there are, and the power of ten.
A literal with more than fifteen digits gets the precision to hold them all. -/
def ofDecimal (digits : Nat) (count : Nat) (expo : Int) (wholeLiteral : Bool) : BigFloat :=
  let whole := wholeLiteral && (0 ≤ expo)
  let count := if whole then max count ((Nat.toDigits 10 digits).length + expo.toNat) else count
  let prec := bitsForDigits (max 15 count)
  let s := Rounding.scale 10 expo digits 1
  round prec false s.1 s.2

end BigFloat
end Graphing
