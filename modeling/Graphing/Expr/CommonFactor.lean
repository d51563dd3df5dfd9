/-
  Graphing.Expr.CommonFactor

  What the terms of a sum have in common: the largest rational that divides
  them, and the powers that occur in all of them. Taken out of the sum, they
  leave terms that may cancel: `x (x + 1) - x ^ 2` is `x (x + 1 - x)`.
-/
import Graphing.Expr.Sum

namespace Graphing.Expr

/-! ## Numbers in common -/

/-- The largest rational of which all the given ones are whole multiples; one for zeros only. -/
def rationalGcd (qs : List Rat) : Rat :=
  let num := qs.foldl (fun g q => Nat.gcd g q.num.natAbs) 0
  let den := qs.foldl (fun l q => Nat.lcm l q.den) 1
  if num = 0 then 1 else mkRat num den

/-- The largest rational that divides all numbers; one if some are inexact. -/
def numberGcd (numbers : List Expr) : Rat :=
  let rationals := numbers.filterMap exactNumber?
  if rationals.length ≠ numbers.length then 1 else rationalGcd rationals

/-- The largest rational that divides all coefficients. -/
def content (x : Expr) : Rat := numberGcd ((terms x).map fun t => (splitCoefficient t).1)

/-! ## Powers in common -/

/-- A term as a number and powers with whole exponents. -/
structure TermParts where
  number : Expr
  powers : List (Expr × Int)

/-- Multiply by a power. -/
def addPower (base : Expr) (n : Int) : List (Expr × Int) → List (Expr × Int)
  | [] => [(base, n)]
  | (b, k) :: rest => if b == base then (b, k + n) :: rest else (b, k) :: addPower base n rest

/-- A whole power of a rational. -/
def wholePower (q : Rat) (n : Int) : Rat :=
  if n < 0 then (1 / q) ^ n.natAbs else q ^ n.natAbs

/-- The parts of a term. The content of a base that is a sum belongs to the number. -/
def termParts (alg : Algebra) (t : Expr) : TermParts :=
  let (number, rest) := splitCoefficient t
  let rest := if rest.isOne then [] else factors rest
  rest.foldl
    (fun parts f =>
      let (base, n) := splitMonomial f
      let q := match base with
        | .sum _ => content base
        | _ => 1
      if q = 1 then { parts with powers := addPower base n parts.powers }
      else
        { number := mulNumbers (.rat (wholePower q n)) parts.number
          powers := addPower (alg.product [.rat (1 / q), base]) n parts.powers })
    ⟨number, []⟩

/-- The exponent of a base in a term. -/
def TermParts.exponent (parts : TermParts) (base : Expr) : Int :=
  ((parts.powers.find? fun p => p.1 == base).map Prod.snd).getD 0

/-- The exponent that all the given ones reach, on the same side of zero. -/
def sharedExponent (ns : List Int) : Int :=
  match ns with
  | [] => 0
  | n :: rest =>
    if ns.all (0 < ·) then rest.foldl min n
    else if ns.all (· < 0) then rest.foldl max n
    else 0

/-- The powers that occur in all terms. -/
def commonPowers (ts : List TermParts) : List (Expr × Int) :=
  match ts with
  | [] => []
  | t :: _ =>
    (t.powers.map fun p => (p.1, sharedExponent (ts.map (·.exponent p.1)))).filter (·.2 ≠ 0)

/-! ## Taking out -/

/-- A multiple of an expression that does not distribute over its terms. -/
def keepMultiple (alg : Algebra) (q : Rat) (x : Expr) : Expr :=
  if q = 1 then x
  else
    match x with
    | .sum ts => .product [.rat q, .sum ts]
    | x => alg.product [.rat q, x]

/-- A sum as what its terms have in common times the sum of what they leave. -/
def takeOutCommon (alg : Algebra) (ts : List Expr) : Expr :=
  let parts := ts.map (termParts alg)
  let q := numberGcd (parts.map (·.number))
  let common := commonPowers parts
  let raise (powers : List (Expr × Int)) : List Expr :=
    powers.map fun (b, n) => if n = 1 then b else alg.power b (int n)
  let quotient (t : TermParts) : Expr :=
    let left := t.powers.map fun (b, n) =>
      (b, n - ((common.find? fun p => p.1 == b).map Prod.snd).getD 0)
    alg.product (mulNumbers (.rat (1 / q)) t.number :: raise (left.filter (·.2 ≠ 0)))
  keepMultiple alg q (alg.product (raise common ++ [alg.sum (parts.map quotient)]))

mutual
/-- The expression with all that is common to the terms of a sum taken out of the sum. -/
def factored (alg : Algebra) : Expr → Expr
  | .sum ts => takeOutCommon alg (factoredAll alg ts)
  | .product fs => alg.product (factoredAll alg fs)
  | .power b e => alg.power (factored alg b) (factored alg e)
  | .call f args =>
    let args' := factoredAll alg args
    if args' == args then .call f args else alg.call f args'
  | x => x

/-- Several expressions with all that is common to the terms of sums taken out of the sums. -/
def factoredAll (alg : Algebra) : List Expr → List Expr
  | [] => []
  | x :: xs => factored alg x :: factoredAll alg xs
end

end Graphing.Expr
