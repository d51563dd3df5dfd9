/-
  Graphing.Expr.Arithmetic

  Arithmetic of the numbers in an expression: exact and inexact numbers and
  the two infinite ends of the line. An exact and an inexact number give an
  inexact one, except that an inexact zero is the exact zero.
-/
import Graphing.Expr.Facts

namespace Graphing.Expr

open CorePower

/-! ## Tests -/

/-- A number that is zero, exact or not. -/
def isZeroNumber : Expr → Bool
  | .rat q => q.num == 0
  | .real x => x.isZero
  | _ => false

/-- The exact number one. -/
def isOne : Expr → Bool
  | .rat q => q.num == 1 && q.den == 1
  | _ => false

/-- The exact number minus one. -/
def isMinusOne : Expr → Bool
  | .rat q => q.num == -1 && q.den == 1
  | _ => false

/-- An exact integer. -/
def integer? : Expr → Option Int
  | .rat q => if q.den = 1 then some q.num else none
  | _ => none

/-- A number below zero. -/
def isNegativeNumber : Expr → Bool
  | .rat q => q.num < 0
  | .real x => x.sign < 0
  | .negInf => true
  | _ => false

/-- A number above zero. -/
def isPositiveNumber : Expr → Bool
  | .rat q => 0 < q.num
  | .real x => 0 < x.sign
  | .posInf => true
  | _ => false

/-- One of the infinite values. -/
def isInfiniteAtom : Expr → Bool
  | .posInf | .negInf | .pole => true
  | _ => false

/-! ## Operations -/

/-- An inexact number; zero becomes exact. -/
def ofReal (x : BigFloat) : Expr := if x.isZero then zero else .real x

/-- An inexact number from a double. -/
def ofFloat (x : Float) : Expr :=
  match BigFloat.ofFloat? x with
  | some b => ofReal b
  | none => if x.isNaN then .nan else if x > 0 then .posInf else .negInf

/-- The sum of two numbers. -/
def addNumbers : Expr → Expr → Expr
  | .rat a, .rat b => .rat (a + b)
  | .rat a, .real b => ofReal ((BigFloat.ofRat b.prec a).add b)
  | .real a, .rat b => ofReal (a.add (BigFloat.ofRat a.prec b))
  | .real a, .real b => ofReal (a.add b)
  | .posInf, .negInf | .negInf, .posInf => .nan
  | .nan, _ | _, .nan => .nan
  | .posInf, _ | _, .posInf => .posInf
  | .negInf, _ | _, .negInf => .negInf
  | x, _ => x

/-- The sign of a number as an infinite value. -/
def infiniteBy (negative : Bool) : Expr := if negative then .negInf else .posInf

/-- The product of two numbers. -/
def mulNumbers : Expr → Expr → Expr
  | .rat a, .rat b => .rat (a * b)
  | .rat a, .real b => ofReal ((BigFloat.ofRat b.prec a).mul b)
  | .real a, .rat b => ofReal (a.mul (BigFloat.ofRat a.prec b))
  | .real a, .real b => ofReal (a.mul b)
  | .nan, _ | _, .nan => .nan
  | x, y =>
    if x.isZeroNumber || y.isZeroNumber then .nan
    else infiniteBy (x.isNegativeNumber != y.isNegativeNumber)

/-- The opposite of a number. -/
def negNumber (x : Expr) : Expr := mulNumbers minusOne x

/-- The magnitude of a number. -/
def absNumber (x : Expr) : Expr := if x.isNegativeNumber then negNumber x else x

/-- The quotient of two numbers by a divisor other than zero. -/
def divNumbers : Expr → Expr → Expr
  | .rat a, .rat b => .rat (a / b)
  | .rat a, .real b =>
    ofReal ((BigFloat.ofRat b.prec a).mul (b.powInt (-1)))
  | .real a, .rat b => ofReal (a.div (BigFloat.ofRat a.prec b))
  | .real a, .real b => ofReal (a.div b)
  | x, y =>
    if y.isInfiniteAtom then (if x.isInfiniteAtom then .nan else zero)
    else mulNumbers x (infiniteBy y.isNegativeNumber)

/-- Whether the first number is smaller. -/
def lessNumber : Expr → Expr → Bool
  | .posInf, _ => false
  | _, .posInf => true
  | _, .negInf => false
  | .negInf, _ => true
  | x, y => x.orderValue < y.orderValue

/-- The remainder of two finite numbers, with the sign of the divisor. -/
def modNumbers (x y : Expr) : Expr :=
  match x, y with
  | .rat a, .rat b => .rat (a - b * (a / b).floor)
  | x, y =>
    let a := x.orderValue
    let b := y.orderValue
    ofReal (BigFloat.ofRat BigFloat.ordinary (a - b * (a / b).floor))

/-! ## Roots of natural numbers -/

/-- Narrow the root of `n` down to the interval from `lo` to `lo + 2 ^ bits`. -/
def rootSearch (k n : Nat) : (bits : Nat) → (lo : Nat) → Nat
  | 0, lo => lo
  | bits + 1, lo =>
    let mid := lo + 2 ^ bits
    if mid ^ k ≤ n then rootSearch k n bits mid else rootSearch k n bits lo

/-- The integer part of the `k`-th root. -/
def natRoot (k n : Nat) : Nat :=
  if k = 0 then 1 else rootSearch k n (n.log2 / k + 1) 0

/-- The exact `k`-th root if there is one. -/
def exactRoot? (k n : Nat) : Option Nat :=
  let r := natRoot k n
  if r ^ k = n then some r else none

/-- The power of `p` in `n`, and what remains. -/
def divideOut (p : Nat) : (fuel : Nat) → Nat → Nat × Nat
  | 0, n => (0, n)
  | fuel + 1, n =>
    if n ≠ 0 ∧ n % p = 0 then
      let (k, rest) := divideOut p fuel (n / p)
      (k + 1, rest)
    else (0, n)

/-- Factors below a limit by trial division; what remains counts as one factor. -/
def trialFactors (limit : Nat) : (fuel : Nat) → (p : Nat) → Nat → List (Nat × Nat)
  | 0, _, n => if n = 1 then [] else [(n, 1)]
  | fuel + 1, p, n =>
    if n = 1 then []
    else if p * p > n then [(n, 1)]
    else if p > limit then [(n, 1)]
    else
      let (k, rest) := divideOut p (n.log2 + 1) n
      let next := if p = 2 then 3 else p + 2
      if k = 0 then trialFactors limit fuel next n
      else (p, k) :: trialFactors limit fuel next rest

/-- The largest exponent below the given one for which a number is a perfect power. -/
def perfectPower (n : Nat) : (k : Nat) → Option (Nat × Nat)
  | 0 | 1 => none
  | k + 2 =>
    match exactRoot? (k + 2) n with
    | some r => some (r, k + 2)
    | none => perfectPower n (k + 1)

/-- Prime factors with exponents; a factor beyond the limit of the trial division is kept whole. -/
def natFactors (n : Nat) : List (Nat × Nat) :=
  match perfectPower n n.log2 with
  | some (r, k) => [(r, k)]
  | none => trialFactors 32768 16400 2 n

end Graphing.Expr
