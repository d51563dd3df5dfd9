/-
  Graphing.Expr.Order

  The order of the parts of an expression. Factors are ordered by a key that
  compares bases first, then exponents, then coefficients; the terms of a sum
  are ordered like the monomials of a polynomial, highest powers first.
-/
import Graphing.Expr.Basic

namespace Graphing

/-! ## Keys -/

/-- The key of an expression: the rank and name of its kind, its text if it has no parts, its
parts, its exponent and its coefficient. -/
inductive OrderKey where
  | mk (major minor : Nat) (name : String) (size : Nat) (text : String)
      (parts : List OrderKey) (exponent : List OrderKey) (coefficient : Rat)
  deriving Inhabited

namespace OrderKey

mutual
/-- Keys compare field by field. -/
def compare : OrderKey → OrderKey → Ordering
  | .mk a b c n t ps es q, .mk a' b' c' n' t' ps' es' q' =>
    (Ord.compare a a').then <| (Ord.compare b b').then <| (Ord.compare c c').then <|
    (Ord.compare n n').then <| (Ord.compare t t').then <|
    (compareAll ps ps').then <| (compareAll es es').then <|
    if q < q' then .lt else if q = q' then .eq else .gt

/-- Lists of keys compare part by part. -/
def compareAll : List OrderKey → List OrderKey → Ordering
  | [], [] => .eq
  | [], _ :: _ => .lt
  | _ :: _, [] => .gt
  | x :: xs, y :: ys => (compare x y).then (compareAll xs ys)
end

/-- The key of a number. -/
def number (q : Rat) : OrderKey := .mk 1 0 "Number" 0 "" [] [] q

/-- The key of the exponent and the coefficient one. -/
def one : OrderKey := number 1

end OrderKey

namespace Expr

/-! ## Coefficients and exponents -/

/-- A product of the given factors without any evaluation. -/
def rawProduct : List Expr → Expr
  | [] => one
  | [x] => x
  | xs => .product xs

/-- A sum of the given terms without any evaluation. -/
def rawSum : List Expr → Expr
  | [] => zero
  | [x] => x
  | xs => .sum xs

/-- Rational and inexact numbers and the two directed infinities. -/
def isNumber : Expr → Bool
  | .rat _ | .real _ | .posInf | .negInf | .nan => true
  | _ => false

/-- Split a product into its number and the other factors. -/
def splitCoefficient : Expr → Expr × Expr
  | .product (c :: rest) => if c.isNumber then (c, rawProduct rest) else (one, .product (c :: rest))
  | x => if x.isNumber then (x, one) else (one, x)

/-- Split an expression into base and exponent. A power of a unit fraction has the inverse base. -/
def splitPower : Expr → Expr × Expr
  | .power (.rat b) x =>
    if b.num = 1 ∧ b.den ≠ 1 then
      match splitCoefficient x with
      | (.rat q, .rat _) => (int b.den, .rat (-q))
      | (.rat q, r) => (int b.den, if -q = 1 then r else rawProduct
          (match r with
          | .product fs => .rat (-q) :: fs
          | r => [.rat (-q), r]))
      | _ => (.rat b, x)
    else (.rat b, x)
  | .power b x => (b, x)
  | .call .exp [x] => (.const .e, x)
  | x => (x, one)

/-- The value by which a number takes its place among others. -/
def orderValue : Expr → Rat
  | .rat q => q
  | .real x => x.toRat
  | .posInf => 10 ^ (400 : Nat)
  | .negInf => -(10 ^ (400 : Nat))
  | _ => 0

/-- The rank of a function among the others. -/
def fnRank : Fn → Nat
  | .exp => 10 | .log => 11 | .sin => 20 | .cos => 21 | .tan => 22
  | .cot => 23 | .sinh => 30 | .cosh => 31 | .tanh => 32 | .coth => 33 | .re => 41
  | .max | .min => 0
  | f => if f.isNumerical then 0 else 10000

/-- A number of parts that bounds the depth of an expression. -/
def size : Expr → Nat
  | .sum ts => 1 + sizes ts
  | .product fs => 1 + sizes fs
  | .power b x => 1 + size b + size x
  | .call _ args => 1 + sizes args
  | .compare _ l r => 1 + size l + size r
  | .logic _ xs | .tuple xs => 1 + sizes xs
  | _ => 1
where
  /-- The parts of a list of expressions. -/
  sizes : List Expr → Nat
  | [] => 0
  | x :: xs => size x + sizes xs

/-! ## Terms of a sum -/

/-- A factor of a term as a generator with an integer exponent: `x ^ (3/2)` is the third power
of `x ^ (1/2)`. -/
def splitMonomial (x : Expr) : Expr × Int :=
  let (b, e) := splitPower x
  let root (b tail : Expr) : Expr :=
    match b, tail with
    | b, .rat 1 => b
    | .const .e, t => .call .exp [t]
    | b, t => .power b t
  match e with
  | .rat q => if q.den = 1 then (b, q.num) else (root b (.rat (mkRat 1 q.den)), q.num)
  | .real _ => (x, 1)
  | e =>
    match splitCoefficient e with
    | (.rat q, tail) =>
      if q = -1 then (root b tail, -1)
      else if q = 1 then (x, 1)
      else
        let tail := if q.den = 1 then tail else
          match tail with
          | .product fs => .product (.rat (mkRat 1 q.den) :: fs)
          | t => .product [.rat (mkRat 1 q.den), t]
        (root b tail, q.num)
    | _ => (x, 1)

/-- The factors of a product; any other expression is its only factor. -/
def factors : Expr → List Expr
  | .product fs => fs
  | x => [x]

/-- The terms of a sum; any other expression is its only term. -/
def terms : Expr → List Expr
  | .sum ts => ts
  | x => [x]

/-- Whether an expression has no variables and no undefined calls, so that it has a value. -/
def isConstant (x : Expr) : Bool :=
  x.names.isEmpty && !x.functions.any Fn.isNumerical && x.isPlain

/-- Order of two coefficients with real and imaginary part. -/
def compareCoefficient (a b : Float × Float) : Bool :=
  if a.2 == b.2 then a.1 < b.1
  else if a.2 == 0 then true
  else if b.2 == 0 then false
  else a.2 < b.2

/-- What the order of terms looks at: the numeric value of the coefficient, and the generators
with their exponents. -/
structure TermShape where
  term : Expr
  coefficient : Float × Float
  powers : List (Expr × Int)

/-- The shape of a term, given a way to find the value of its constant factors. -/
def termShape (value : Expr → Option (Float × Float)) (t : Expr) : TermShape :=
  (factors t).foldl
    (fun s f =>
      match if f.isConstant then value f else none with
      | some (u, v) =>
        let (a, b) := s.coefficient
        { s with coefficient := (a * u - b * v, a * v + b * u) }
      | none => { s with powers := s.powers ++ [splitMonomial f] })
    ⟨t, (1, 0), []⟩

/-- Exponents of the generators in a term. -/
def TermShape.exponents (gens : List Expr) (s : TermShape) : List Int :=
  gens.map fun g => ((s.powers.find? fun p => p.1 == g).map Prod.snd).getD 0

/-- Whether the exponents of the first term are larger, or equal with a smaller coefficient. -/
def TermShape.before (gens : List Expr) (a b : TermShape) : Bool :=
  let rec go : List Int → List Int → Bool
    | x :: xs, y :: ys => if y < x then true else if x < y then false else go xs ys
    | _, _ => compareCoefficient a.coefficient b.coefficient
  go (a.exponents gens) (b.exponents gens)

/-- Insert behind all elements that are not greater. -/
def insertBy {α : Type} (less : α → α → Bool) (x : α) : List α → List α
  | [] => [x]
  | y :: ys => if less x y then x :: y :: ys else y :: insertBy less x ys

/-- A stable sort. -/
def sortBy {α : Type} (less : α → α → Bool) (xs : List α) : List α :=
  xs.foldl (fun sorted x => insertBy less x sorted) []

/-- A sum of a positive number and a negative multiple keeps the number first. -/
def leadingNumber? (ts : List Expr) : Option (List Expr) :=
  let isNamed : Expr → Bool
    | .const c => c != .i
    | x => x.isNumber
  let positive : Expr → Bool
    | .rat q => 0 < q
    | .real x => 0 < x.sign
    | .const _ => true
    | _ => false
  let negativeMultiple : Expr → Bool
    | .product [.rat q, _] => q < 0
    | .product [.real x, _] => x.sign < 0
    | _ => false
  match ts with
  | [a, b] =>
    if isNamed a && positive a && negativeMultiple b then some [a, b]
    else if isNamed b && positive b && negativeMultiple a then some [b, a]
    else none
  | _ => none

/-! ## The key of an expression -/

mutual
/-- The key to the given depth. -/
def keyTo (value : Expr → Option (Float × Float)) : (depth : Nat) → Expr → OrderKey
  | 0, _ => OrderKey.one
  | depth + 1, x =>
    if x.isNumber then .number x.orderValue else
      -- the coefficient is compared last
      let (c, stripped) := splitCoefficient x
      let (body, exponent) : Expr × OrderKey :=
        match stripped with
        -- an exponential is ordered as a call, and not as a power
        | .power (.const .e) a => (.call .exp [a], OrderKey.one)
        | .power b a => (b, keyTo value depth a)
        | y => (y, OrderKey.one)
      let q := c.orderValue
      match body with
      | .rat r => .mk 1 0 "Number" 1 (if r.den = 1 then toString r.num else
          toString r.num ++ "/" ++ toString r.den) [] [exponent] q
      | .real _ | .posInf | .negInf | .nan => .mk 1 0 "Number" 1 "" [] [exponent] q
      | .const .e => .mk 2 0 "Exp1" 1 "E" [] [exponent] q
      | .const .pi => .mk 2 0 "Pi" 1 "pi" [] [exponent] q
      | .const .i => .mk 2 0 "ImaginaryUnit" 1 "I" [] [exponent] q
      | .pole => .mk 2 0 "ComplexInfinity" 1 "zoo" [] [exponent] q
      | .band => .mk 2 0 "AccumulationBounds" 1 "" [] [exponent] q
      | .var name => .mk 2 0 "Symbol" 1 name [] [exponent] q
      | .sum ts =>
        let ts := termsTo value depth ts
        .mk 3 1 "Add" ts.length "" (ts.map (keyTo value depth)) [exponent] q
      | .product fs =>
        -- factors are compared in order of their own keys
        let keys := sortBy (fun a b => a.compare b == .lt) (fs.map (keyTo value depth))
        .mk 3 0 "Mul" keys.length "" keys [exponent] q
      | .power b a =>
        .mk 3 2 "Pow" 2 "" [keyTo value depth b, keyTo value depth a] [exponent] q
      | .call f args =>
        .mk 4 (fnRank f) f.name args.length "" (args.map (keyTo value depth)) [exponent] q
      | .rule name => .mk 5 0 "Lambda" 1 name [] [exponent] q
      | .function name => .mk 5 0 "Function" 1 name [] [exponent] q
      | .truth b => .mk 5 0 "Boolean" 1 (toString b) [] [exponent] q
      | .compare _ l r => .mk 5 0 "Relational" 2 "" [keyTo value depth l, keyTo value depth r] [] q
      | .logic _ xs => .mk 5 0 "Logic" xs.length "" (xs.map (keyTo value depth)) [] q
      | .tuple xs => .mk 5 0 "Tuple" xs.length "" (xs.map (keyTo value depth)) [] q

/-- The terms of a sum in order, with keys to the given depth. -/
def termsTo (value : Expr → Option (Float × Float)) : (depth : Nat) → List Expr → List Expr
  | 0, ts => ts
  | depth + 1, ts =>
    match leadingNumber? ts with
    | some ordered => ordered
    | none =>
      let shapes := ts.map (termShape value)
      let gens := (shapes.flatMap fun s => s.powers.map Prod.fst).eraseDups
      let gens := sortBy (fun a b => a.2.compare b.2 == .lt)
        (gens.map fun g => (g, keyTo value depth g))
      (sortBy (TermShape.before (gens.map Prod.fst)) shapes).map TermShape.term
end

end Expr
end Graphing
