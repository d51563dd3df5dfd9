/-
  Graphing.Expr.CommonDivisor

  The greatest common divisor of two expressions as polynomials: variables,
  constants with a name, roots and calls are the indeterminates. Sums are
  multiplied out, and powers with sums as exponents become products.
-/
import Graphing.Expr.CommonFactor
import Graphing.Number.IntPolynomial

namespace Graphing.Expr

open CorePower

/-! ## Multiplying out -/

/-- A term of a polynomial: a number, and indeterminates with their exponents. -/
structure PolynomialTerm where
  coefficient : Rat
  powers : List (Expr × Nat)
  deriving Inhabited

namespace PolynomialTerm

/-- A number. -/
def number (q : Rat) : PolynomialTerm := ⟨q, []⟩

/-- A power as a term. A negative exponent makes the inverse of the base an indeterminate. -/
def ofPower (x : Expr) : PolynomialTerm :=
  let (b, n) := splitMonomial x
  if n < 0 then ⟨1, [(.power b minusOne, n.natAbs)]⟩ else ⟨1, [(b, n.natAbs)]⟩

/-- A factor that is not multiplied out. -/
def ofFactor (x : Expr) : PolynomialTerm :=
  match x with
  | .rat q => number q
  | .real r => number r.toRat
  | x => ofPower x

/-- A base to a term of an exponent. -/
def ofExponent (b t : Expr) : PolynomialTerm :=
  match b, t.integer? with
  | .rat q, some n => number (wholePower q n)
  | .const .e, some n => ofPower (.power b (int n))
  | .const .e, none => ofPower (.call .exp [t])
  | b, _ => ofPower (.power b t)

/-- The exponent of an indeterminate in a term. -/
def exponent (t : PolynomialTerm) (x : Expr) : Nat :=
  ((t.powers.find? fun p => p.1 == x).map Prod.snd).getD 0

/-- Add to the exponent of an indeterminate. -/
def raise (x : Expr) (n : Nat) : List (Expr × Nat) → List (Expr × Nat)
  | [] => [(x, n)]
  | (y, k) :: rest => if y == x then (y, k + n) :: rest else (y, k) :: raise x n rest

/-- The product of two terms. -/
def mul (a b : PolynomialTerm) : PolynomialTerm :=
  ⟨a.coefficient * b.coefficient, b.powers.foldl (fun ps (x, n) => raise x n ps) a.powers⟩

/-- The products of the terms of two polynomials. -/
def mulAll (as bs : List PolynomialTerm) : List PolynomialTerm :=
  as.flatMap fun a => bs.map (mul a)

/-- The terms of a power of a polynomial. -/
def powAll (as : List PolynomialTerm) : Nat → List PolynomialTerm
  | 0 => [number 1]
  | n + 1 => mulAll (powAll as n) as

end PolynomialTerm

/-- The largest number of terms to which a product or a power is multiplied out. -/
def termLimit : Nat := 4096

mutual
/-- The terms of an expression after multiplying out. -/
def polynomialTerms : Expr → List PolynomialTerm
  | .rat q => [.number q]
  | .real x => [.number x.toRat]
  | .sum ts => (polynomialTermsOf ts).flatten
  | .product fs =>
    let parts := polynomialTermsOf fs
    if parts.foldl (fun n ts => n * ts.length) 1 ≤ termLimit then
      parts.foldl PolynomialTerm.mulAll [.number 1]
    else [fs.foldl (fun t f => t.mul (.ofFactor f)) (.number 1)]
  | .power b e =>
    match b, e.integer? with
    | .sum ts, some n =>
      let inner := (polynomialTermsOf ts).flatten
      if 0 < n ∧ inner.length ^ min n.toNat 16 ≤ termLimit then PolynomialTerm.powAll inner n.toNat
      else [.ofPower (.power b e)]
    | b, _ =>
      match e with
      | .sum ts =>
        if b.facts.zero == some false then
          [ts.foldl (fun t x => t.mul (.ofExponent b x)) (.number 1)]
        else [.ofPower (.power b e)]
      | e => [.ofPower (.power b e)]
  | .call .exp [.sum ts] => [ts.foldl (fun t x => t.mul (.ofExponent (.const .e) x)) (.number 1)]
  | x => [.ofPower x]

/-- The terms of several expressions. -/
def polynomialTermsOf : List Expr → List (List PolynomialTerm)
  | [] => []
  | x :: xs => polynomialTerms x :: polynomialTermsOf xs
end

/-! ## Polynomials in given indeterminates -/

/-- The powers of a term, with a coefficient of their own, as a polynomial in the given
indeterminates. -/
def monomialIn (c : Int) (t : PolynomialTerm) : (xs : List Expr) → IntPolynomial xs.length
  | [] => c
  | x :: xs => .monomial xs.length (monomialIn c t xs) (t.exponent x)

/-- Terms as a polynomial in the given indeterminates, `scale` times as large. -/
def polynomialIn (xs : List Expr) (scale : Nat) (ts : List PolynomialTerm) :
    IntPolynomial xs.length :=
  ts.foldl
    (fun p t => .add xs.length p (monomialIn (t.coefficient * (scale : Rat)).num t xs))
    (.zero xs.length)

/-- The terms of a polynomial. -/
def termsIn : (xs : List Expr) → IntPolynomial xs.length → List PolynomialTerm
  | [], c => if IntPolynomial.toInt c = 0 then [] else [.number (IntPolynomial.toInt c)]
  | x :: xs, p =>
    (List.zipIdx p).flatMap fun (c, n) =>
      (termsIn xs c).map fun t => if n = 0 then t else { t with powers := (x, n) :: t.powers }

/-! ## The divisor -/

/-- The largest exponent up to which terms are collected into a polynomial. -/
def exponentLimit : Nat := 512

/-- The term of the highest exponents and the largest number that divides all terms. -/
def commonTerm (xs : List Expr) (ts : List PolynomialTerm) : PolynomialTerm where
  coefficient := rationalGcd (ts.map (·.coefficient))
  powers := (xs.map fun x =>
    (x, (ts.map fun t => t.exponent x).foldl min ((ts.head?.map (·.exponent x)).getD 0))).filter
    (·.2 ≠ 0)

/-- The terms of the greatest common divisor of two lists of terms, and its leading coefficient.
Where exponents are large, only what all terms have in common is found. -/
def divisorTerms (a b : List PolynomialTerm) : List PolynomialTerm × Rat :=
  let xs := ((a ++ b).flatMap fun t => t.powers.map Prod.fst).eraseDups
  if (a ++ b).any fun t => t.powers.any (·.2 > exponentLimit) then
    let t := commonTerm xs (a ++ b)
    ([t], t.coefficient)
  else
    let scale := (a ++ b).foldl (fun l t => Nat.lcm l t.coefficient.den) 1
    let g := IntPolynomial.gcd xs.length (polynomialIn xs scale a) (polynomialIn xs scale b)
    (termsIn xs g, IntPolynomial.leadingInt xs.length g)

/-- The greatest common divisor. Integers count as far as all coefficients are exact integers;
otherwise its leading coefficient is one. The imaginary unit is a unit, so it divides nothing. -/
def commonDivisor (alg : Algebra) (x y : Expr) : Expr :=
  let a := polynomialTerms x
  let b := polynomialTerms y
  let exact := (a ++ b).all (·.coefficient.den == 1) && !(holdsInexact x || holdsInexact y)
  let (ts, lead) := divisorTerms a b
  let unit : Rat := if exact then 1 else lead
  alg.sum (ts.map fun t =>
    alg.product (.rat (t.coefficient / unit) ::
      (t.powers.filter (·.1 != .const .i)).map fun (b, n) => alg.power b (int n)))
where
  /-- Whether a coefficient is inexact. -/
  holdsInexact (x : Expr) : Bool :=
    let isReal : Expr → Bool
      | .real _ => true
      | _ => false
    (terms x).any fun t => (factors t).any isReal

end Graphing.Expr
