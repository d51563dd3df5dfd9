/-
  Graphing.Number.Binary64

  The exact value of a double and the double nearest to an exact value.
-/
import Graphing.Number.Rounding

namespace Graphing.Binary64

open CorePower

/-! ## The value of a double -/

/-- What a double stands for: `± mant · 2 ^ expo`, an infinity, or no number. -/
inductive Parts where
  | finite (neg : Bool) (mant : Nat) (expo : Int)
  | infinite (neg : Bool)
  | nan
  deriving Repr, DecidableEq

/-- Read the sign, exponent and fraction fields of a bit pattern. -/
def Parts.ofBits (bits : Nat) : Parts :=
  let neg := bits / 2 ^ (63 : Nat) % 2 == 1
  let expo : Nat := bits / 2 ^ (52 : Nat) % 2 ^ (11 : Nat)
  let frac : Nat := bits % 2 ^ (52 : Nat)
  if expo = 2047 then
    if frac = 0 then .infinite neg else .nan
  else if expo = 0 then .finite neg frac (-1074)
  else .finite neg (frac + 2 ^ (52 : Nat)) ((expo : Int) - 1075)

/-- The exact value of a double. -/
def parts (x : Float) : Parts := .ofBits x.toBits.toNat

/-- A finite double as an exact fraction, `none` for the infinities and NaN. -/
def toRat? (x : Float) : Option Rat :=
  match parts x with
  | .finite neg m e =>
    let s := Rounding.scale 2 e m 1
    let q : Rat := mkRat s.1 s.2
    some (if neg then -q else q)
  | _ => none

/-- A finite double without a fraction as an integer. -/
def toInt? (x : Float) : Option Int :=
  (toRat? x).bind fun q => if q.isInt then some q.num else none

/-! ## The nearest double -/

/-- Bits of the double nearest to `num / den`, ties to even; too large a value becomes infinite. -/
def bitsOfQuotient (neg : Bool) (num den : Nat) : Nat :=
  let sign := if neg then 2 ^ (63 : Nat) else 0
  let (q, e) := Rounding.significand 53 (some (-1074)) num den
  if q < 2 ^ (52 : Nat) then sign + q
  else
    let biased := e + 1075
    if biased ≥ 2047 then sign + 2047 * 2 ^ (52 : Nat)
    else sign + biased.toNat * 2 ^ (52 : Nat) + (q - 2 ^ (52 : Nat))

/-- The double nearest to `± num / den`. -/
def ofQuotient (neg : Bool) (num den : Nat) : Float :=
  Float.ofBits (UInt64.ofNat (bitsOfQuotient neg num den))

/-- The double nearest to a fraction. -/
def ofRat (q : Rat) : Float := ofQuotient (q.num < 0) q.num.natAbs q.den

/-- The double nearest to an integer. -/
def ofInt (n : Int) : Float := ofQuotient (n < 0) n.natAbs 1

/-- The double nearest to `± mant · 10 ^ expo`. -/
def ofDecimal (neg : Bool) (mant : Nat) (expo : Int) : Float :=
  if mant = 0 then ofQuotient neg 0 1
  else if expo > 400 then ofQuotient neg (10 ^ (400 : Nat)) 1
  else if expo < -(400 + (mant.log2 : Int)) then ofQuotient neg 0 1
  else
    let s := Rounding.scale 10 expo mant 1
    ofQuotient neg s.1 s.2

/-- Whether a double is a number other than an infinity. -/
def isFinite (x : Float) : Bool := x.isFinite

/-- The sign bit of a double; unlike a comparison it sees the sign of zero. -/
def signBit (x : Float) : Bool := x.toBits.toNat / 2 ^ (63 : Nat) % 2 == 1

/-- The magnitude of the first double with the sign of the second. -/
def copySign (magnitude sign : Float) : Float :=
  let m := magnitude.toBits.toNat % 2 ^ (63 : Nat)
  Float.ofBits (UInt64.ofNat (if signBit sign then m + 2 ^ (63 : Nat) else m))

/-- Positive infinity. -/
def posInf : Float := Float.ofBits 0x7FF0000000000000

/-- Negative infinity. -/
def negInf : Float := Float.ofBits 0xFFF0000000000000

/-- The value of an undefined operation. -/
def nan : Float := Float.ofBits 0x7FF8000000000000

/-- The remainder `x - y · trunc (x / y)`, exact, with the sign of `x`. -/
def truncRem (x y : Float) : Float :=
  match parts x, parts y with
  | .finite neg m e, .finite _ n f =>
    if n = 0 then nan
    else
      let low := min e f
      let a := m * 2 ^ (e - low).toNat
      let b := n * 2 ^ (f - low).toNat
      let r := Rounding.scale 2 low (a % b) 1
      ofQuotient neg r.1 r.2
  | .finite .., .infinite _ => x
  | _, _ => nan

/-- The remainder that takes the sign of the divisor. -/
def floorRem (x y : Float) : Float :=
  let r := truncRem x y
  if y == 0 then nan
  else if r == 0 then copySign 0 y
  else if (y < 0) != (r < 0) then r + y
  else r

end Graphing.Binary64
