/-
  Graphing.Expr.Function.Remainder

  The remainder of two expressions, which has the sign of the divisor. It is
  settled where the quotient or the bounds of the dividend tell its integer
  part; elsewhere common divisors leave it, nested remainders by the same
  divisor are joined, and terms are reduced one by one.
-/
import Graphing.Expr.CommonDivisor
import Graphing.Expr.Function.Stepwise

namespace Graphing.Expr

/-! ## Settled remainders -/

/-- The integer part of a constant quotient, rounded towards zero. A quotient that two decimals
show as an integer is compared with that integer. -/
def integerPart? (r : Expr) : Option Int :=
  let truncated (q : Rat) : Int := if q < 0 then -((-q).floor) else q.floor
  match r with
  | .rat q => some (truncated q)
  | .real x => some (truncated x.toRat)
  | r => do
    let v ← r.realValue
    let q ← Binary64.toRat? v
    let hundredths := (q * 100 + mkRat 1 2).floor
    let n := truncated (mkRat hundredths 100)
    if n = 0 ∨ hundredths % 100 ≠ 0 then some n
    else
      match Binary64.toRat? (snapToInteger v) with
      | some s => some (if s < n then n - 1 else n)
      | none => none

/-- Whether an expression is surely negative, beyond rounding errors. -/
def surelyNegative (x : Expr) : Bool :=
  match x.realValue with
  | some v => v < -1e-12
  | none => x.facts.real == some true && x.facts.negative == some true

/-- Whether the first expression is surely at most the second. -/
def surelyAtMost (alg : Algebra) (x y : Expr) : Bool :=
  match x.realValue, y.realValue with
  | some u, some v => u ≤ v
  | _, _ =>
    x.facts.real == some true && y.facts.real == some true &&
      (alg.sub y x).facts.negative == some false

/-- The remainder of a dividend within two divisors of zero. The multiples of the divisor are
tried in turn: the dividend must reach each, and it is less than one divisor above the right one. -/
def modByBounds (alg : Algebra) (x y : Expr) (below atMost : Expr → Expr → Bool) :
    List Int → Option Expr
  | [] => none
  | k :: rest =>
    let multiple := alg.product [int k, y]
    if !atMost multiple x then none
    else if below (alg.sub x y) multiple then some (alg.sub x multiple)
    else modByBounds alg x y below atMost rest

/-- The remainder when the quotient is an integer or a constant, or the dividend is bounded. -/
def settledMod (alg : Algebra) (x y : Expr) : Option Expr :=
  if x == .nan || y == .nan || x.facts.finite == some false || y.facts.finite == some false then
    some .nan
  else if x == zero || x == y || x == alg.neg y || (x.facts.integer == some true && y.isOne) then
    some zero
  else if x.isNumber && y.isNumber then some (modNumbers x y)
  else
    let r := alg.div x y
    if r.facts.integer == some true then some zero
    else
      match integerPart? r with
      | some n =>
        let rest := alg.sub x (alg.product [int n, y])
        some (if surelyNegative (alg.product [rest, y]) then alg.sum [rest, y] else rest)
      | none =>
        let f := y.facts
        if f.finite == some true && f.positive == some true then
          modByBounds alg x y (surelyLess alg) (surelyAtMost alg) [-2, -1, 0, 1]
        else if f.finite == some true && f.negative == some true then
          modByBounds alg x y (fun a b => surelyLess alg b a) (fun a b => surelyAtMost alg b a)
            [-2, -1, 0, 1]
        else none

/-! ## Nested remainders -/

/-- The dividend and the divisor of a remainder. -/
def remainder? : Expr → Option (Expr × Expr)
  | .call .mod [x, y] => some (x, y)
  | _ => none

/-- The terms or factors that are remainders, as dividends and divisors, and the others. -/
def splitRemainders (xs : List Expr) : List (Expr × Expr) × List Expr :=
  (xs.filterMap remainder?, xs.filter fun x => (remainder? x).isNone)

/-- Finite and on one side of zero. -/
def isFiniteAnd (p : Facts → Bool) (x : Expr) : Bool := x.facts.finite == some true && p x.facts

/-- A remainder inside a remainder leaves it when the outer divisor divides the inner one, and is
the result when the outer divisor is the larger one. -/
def nestedMod (alg : Algebra) (x y : Expr) : Option Expr :=
  let divides (w : Expr) : Bool := alg.call .mod [w, y] == zero
  match remainder? x, remainder? (alg.neg x) with
  | some (z, w), _ =>
    if divides w then some (alg.call .mod [z, y])
    else if isFiniteAnd Facts.nonNegative (alg.product [w, alg.sub y w]) then some x
    else none
  | none, some (z, w) =>
    if divides w then some (alg.call .mod [alg.neg z, y])
    else if isFiniteAnd Facts.nonPositive (alg.product [w, alg.sum [y, w]]) then some x
    else none
  | none, none =>
    let joins (mods : List (Expr × Expr)) : Bool := !mods.isEmpty && mods.all (·.2 == y)
    match x with
    | .sum ts =>
      let (mods, others) := splitRemainders ts
      if joins mods then some (alg.call .mod [alg.sum (others ++ mods.map Prod.fst), y]) else none
    | .product fs =>
      let (mods, others) := splitRemainders fs
      if joins mods && (y :: fs).all fun f => f.facts.integer == some true then
        let reduced := others.map fun f => alg.call .mod [f, y]
        let (more, free) := splitRemainders reduced
        some (alg.product
          (free ++ [alg.call .mod [alg.product ((mods ++ more).map Prod.fst), y]]))
      else none
    | _ => none

/-- In a product of integers, a number is reduced by an integer divisor. -/
def reduceNumber (alg : Algebra) (x y : Expr) : Expr :=
  match x, y.integer? with
  | .product fs, some n =>
    if n ≠ 1 ∧ fs.all (fun f => f.facts.integer == some true) then
      alg.product (fs.map fun f => match f with
        | .rat q => modNumbers (.rat q) y
        | f => f)
    else x
  | x, _ => x

/-! ## The rule -/

/-- How many remainders an expression has. -/
def countRemainders (x : Expr) : Nat := (x.functions.filter (· == .mod)).length

/-- Terms of the dividend are reduced, unless that makes more remainders of them. -/
def reduceTerms (alg : Algebra) (ts : List Expr) (y : Expr) : Expr :=
  let reduced := ts.map fun t =>
    let r := alg.call .mod [t, y]
    if countRemainders r > countRemainders t then t else r
  if reduced == ts then .sum ts else alg.sum reduced

/-- Inexact coefficients: where that of the divisor divides that of the dividend, it leaves the
remainder. The result is a factor, the dividend and the divisor. -/
def reduceCoefficients (alg : Algebra) (x y : Expr) : Expr × Expr × Expr :=
  let (a, x') := splitCoefficient x
  let (b, y') := splitCoefficient y
  let isExact (c : Expr) : Bool := (exactNumber? c).isSome
  let whole : Option Int :=
    if isExact a && isExact b then none
    else if (modNumbers a b).isZeroNumber then integerPart? (divNumbers a b)
    else none
  match whole with
  | some n => (b, alg.product [int n, x'], y')
  | none => (one, alg.product [a, x'], alg.product [b, y'])

/-- The remainder with the greatest common divisor taken out of both sides. -/
def reducedMod (alg : Algebra) (x y : Expr) : Expr :=
  let x := reduceNumber alg x y
  let g := commonDivisor alg x y
  let (x₀, y₀) :=
    if g.isOne then (x, y) else (factored alg (alg.div x g), factored alg (alg.div y g))
  let (c, x, y) := match x₀ with
    | .sum ts => (one, reduceTerms alg ts y₀, y₀)
    | x₀ => reduceCoefficients alg x₀ y₀
  let (sign, x, y) :=
    if leadsNegative alg x && leadsNegative alg y then (minusOne, alg.neg x, alg.neg y)
    else (one, x, y)
  let rest := match settledMod alg x y with
    | some r => r
    | none => if x == x₀ && y == y₀ then .call .mod [x, y] else alg.call .mod [x, y]
  alg.product [sign, c, g, rest]

/-- The remainder. -/
def modRule (alg : Algebra) (x y : Expr) : Option Expr :=
  match settledMod alg x y with
  | some r => some r
  | none =>
    match nestedMod alg x y with
    | some r => some r
    | none => some (reducedMod alg x y)

end Graphing.Expr
