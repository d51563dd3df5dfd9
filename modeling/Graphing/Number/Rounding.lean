/-
  Graphing.Number.Rounding

  Rounding of exact quotients: to the nearest integer, and to a binary
  significand of a given width. Everything is integer arithmetic, so the
  results are exact and can be computed inside a proof.
-/

namespace Graphing.CorePower

/-- The core library's powers come first, also where those of a monoid are known. -/
scoped instance (priority := high) power {α : Type} [NatPow α] : Pow α Nat := instPowNat

end Graphing.CorePower

namespace Graphing.Rounding

open CorePower

/-! ## Nearest integer -/

/-- The integer nearest to `num / den`; a tie goes to the even neighbour. -/
def divNearestEven (num den : Nat) : Nat :=
  let q := num / den
  let r := num % den
  if 2 * r < den then q
  else if den < 2 * r then q + 1
  else q + q % 2

/-- A positive quotient is rounded by less than or exactly half a unit upwards. -/
theorem divNearestEven_le (num den : Nat) : divNearestEven num den ≤ num / den + 1 := by
  unfold divNearestEven
  simp only
  split
  · omega
  · split <;> omega

/-- Rounding never goes below the integer part. -/
theorem le_divNearestEven (num den : Nat) : num / den ≤ divNearestEven num den := by
  unfold divNearestEven
  simp only
  split
  · omega
  · split <;> omega

/-! ## Powers of two and ten with integer exponents -/

/-- Numerator and denominator of `num / den · base ^ k`. -/
def scale (base : Nat) (k : Int) (num den : Nat) : Nat × Nat :=
  match k with
  | .ofNat n => (num * base ^ n, den)
  | .negSucc n => (num, den * base ^ (n + 1))

/-! ## Binary significands -/

/-- The exponent `e` for which `num / den / 2 ^ e` has about `width` bits: its integer part lies
between `2 ^ (width - 1)` and `2 ^ (width + 1)`. -/
def binaryExponent (width : Nat) (num den : Nat) : Int :=
  (num.log2 : Int) - (den.log2 : Int) - (width : Int)

/-- Round `num / den` to a significand of `width` bits and its exponent, ties to even.
A significand never gets an exponent below `least`, so that small values lose bits instead. -/
def significand (width : Nat) (least : Option Int) (num den : Nat) : Nat × Int :=
  if num = 0 then (0, least.getD 0) else
    let guess := binaryExponent width num den
    let tight := scale 2 (-guess) num den
    let free := if tight.1 / tight.2 < 2 ^ width then guess else guess + 1
    let e := match least with
      | some l => max l free
      | none => free
    let s := scale 2 (-e) num den
    let q := divNearestEven s.1 s.2
    if q = 2 ^ width then (2 ^ (width - 1), e + 1) else (q, e)

end Graphing.Rounding
