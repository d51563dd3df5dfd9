/-
  Graphing.Number.Decimal

  Decimal text of doubles: a fixed number of significant digits, the general
  format that switches between positional and exponent form, and the shortest
  digits that read back as the same double.
-/
import Graphing.Number.Binary64

namespace Graphing.Decimal

open CorePower

/-! ## Digits of an exact positive value -/

/-- A decimal approximation `digits · 10 ^ (expo - (count - 1))`: `count` digits, the first of them
worth `10 ^ expo`. -/
structure Digits where
  digits : Nat
  count : Nat
  expo : Int
  deriving Repr, DecidableEq

/-- The `k` with `10 ^ k ≤ num / den < 10 ^ (k + 1)`. -/
def leadingExponent (num den : Nat) : Int :=
  let bits := (num.log2 : Int) - (den.log2 : Int)
  let guess := (bits * 30103).fdiv 100000
  let reaches (k : Int) : Bool :=
    let s := Rounding.scale 10 (-k) num den
    s.2 ≤ s.1
  if reaches (guess + 1) then guess + 1
  else if reaches guess then guess
  else if reaches (guess - 1) then guess - 1
  else guess - 2

/-- `num / den` rounded to `count` significant digits, ties to even. -/
def roundTo (count : Nat) (num den : Nat) : Digits :=
  if num = 0 then ⟨0, count, 0⟩ else
    let k := leadingExponent num den
    let s := Rounding.scale 10 ((count : Int) - 1 - k) num den
    let d := Rounding.divNearestEven s.1 s.2
    if d = 10 ^ count then ⟨10 ^ (count - 1), count, k + 1⟩ else ⟨d, count, k⟩

/-- The two neighbours of the value on the grid of `count` digits, lower one first. -/
def neighbours (count : Nat) (num den : Nat) : Digits × Digits :=
  let k := leadingExponent num den
  let s := Rounding.scale 10 ((count : Int) - 1 - k) num den
  let d := s.1 / s.2
  let up : Digits :=
    if d + 1 = 10 ^ count then ⟨10 ^ (count - 1), count, k + 1⟩ else ⟨d + 1, count, k⟩
  (⟨d, count, k⟩, up)

/-- The exact fraction that the digits denote. -/
def Digits.quotient (d : Digits) : Nat × Nat :=
  Rounding.scale 10 (d.expo - ((d.count : Int) - 1)) d.digits 1

/-- The digits read back as the bit pattern `bits` of a positive double. -/
def Digits.readsAs (d : Digits) (bits : Nat) : Bool :=
  let q := d.quotient
  Binary64.bitsOfQuotient false q.1 q.2 == bits

/-- The fewest digits that read back as the positive double with the given bits and value; of two
candidates of equal length the nearer one. The search starts at `count` digits. -/
def shortestFrom (bits num den : Nat) : (fuel : Nat) → (count : Nat) → Digits
  | 0, count => roundTo count num den
  | fuel + 1, count =>
    let near := roundTo count num den
    let (lo, hi) := neighbours count num den
    if near.readsAs bits then near
    else if lo.readsAs bits then lo
    else if hi.readsAs bits then hi
    else shortestFrom bits num den fuel (count + 1)

/-- The fewest digits that read back as the given positive double. -/
def shortest (bits num den : Nat) : Digits := shortestFrom bits num den 16 1

/-! ## Layouts -/

/-- The decimal digits of a natural number, at least `width` of them. -/
def padded (width n : Nat) : List Char :=
  let ds := Nat.toDigits 10 n
  List.replicate (width - ds.length) '0' ++ ds

/-- Characters of the digits, first digit first. -/
def Digits.chars (d : Digits) : List Char := padded d.count d.digits

/-- A number with its sign, `-` for a negative one. -/
def signed (neg : Bool) (body : List Char) : String :=
  String.ofList (if neg then '-' :: body else body)

/-- An exponent: its sign and at least two digits. -/
def exponentChars (k : Int) : List Char :=
  'e' :: (if k < 0 then '-' else '+') :: padded 2 k.natAbs

/-- One digit, a point, the remaining digits if there are any, and the exponent. -/
def Digits.exponential (d : Digits) : List Char :=
  match d.chars with
  | [] => []
  | [c] => c :: exponentChars d.expo
  | c :: rest => c :: '.' :: rest ++ exponentChars d.expo

/-- The digits around a point without an exponent; zeros fill the gap to the point. -/
def Digits.positional (d : Digits) : List Char :=
  let cs := d.chars
  match d.expo with
  | .negSucc n => '0' :: '.' :: List.replicate n '0' ++ cs
  | .ofNat n =>
    let whole := cs.take (n + 1)
    let whole := whole ++ List.replicate (n + 1 - whole.length) '0'
    match cs.drop (n + 1) with
    | [] => whole
    | frac => whole ++ '.' :: frac

/-- Drop the zeros at the end of the digits, keeping at least one digit. -/
def Digits.trimFrom : (fuel : Nat) → Digits → Digits
  | 0, d => d
  | fuel + 1, d =>
    if d.count ≤ 1 then d
    else if d.digits % 10 = 0 then Digits.trimFrom fuel ⟨d.digits / 10, d.count - 1, d.expo⟩
    else d

/-- Drop the zeros at the end of the digits. -/
def Digits.trim (d : Digits) : Digits := Digits.trimFrom d.count d

/-! ## Text of a double -/

/-- Text of a double, given the layout of the digits of its magnitude and the texts of the values
that have no digits. -/
def withSpecials (x : Float) (layout : Nat → Nat → List Char) : String :=
  match Binary64.parts x with
  | .nan => "nan"
  | .infinite neg => if neg then "-inf" else "inf"
  | .finite neg m e =>
    let s := Rounding.scale 2 e m 1
    signed neg (layout s.1 s.2)

/-- Exponent form with `places` digits after the point. -/
def scientific (places : Nat) (x : Float) : String :=
  withSpecials x fun num den => (roundTo (places + 1) num den).exponential

/-- The general format with six significant digits: zeros at the end are dropped, and exponents
from -4 to 5 are written positionally. -/
def general (x : Float) : String :=
  withSpecials x fun num den =>
    let d := roundTo 6 num den
    if -4 ≤ d.expo ∧ d.expo < 6 then
      if num = 0 then ['0'] else d.trim.positional
    else d.trim.exponential

/-- The shortest text that reads back as the same double: positional for exponents from -4 to 15,
with `.0` where no other fraction is written. -/
def shortestText (x : Float) : String :=
  withSpecials x fun num den =>
    let d := if num = 0 then ⟨0, 1, 0⟩ else shortest (x.toBits.toNat % 2 ^ (63 : Nat)) num den
    if -4 ≤ d.expo ∧ d.expo < 16 then
      let cs := d.positional
      if cs.contains '.' then cs else cs ++ ['.', '0']
    else d.exponential

end Graphing.Decimal
