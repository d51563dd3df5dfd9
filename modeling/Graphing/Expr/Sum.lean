/-
  Graphing.Expr.Sum

  The canonical form of sums. This module also fixes how the canonical forms
  depend on each other: a rule is given the rules of the level below.
-/
import Graphing.Expr.Arithmetic

namespace Graphing

/-- The canonical sum, product, power and function call. -/
structure Algebra where
  sum : List Expr → Expr
  product : List Expr → Expr
  power : Expr → Expr → Expr
  call : Fn → List Expr → Expr

namespace Algebra

/-- The algebra that builds expressions without changing them. -/
def free : Algebra where
  sum := Expr.rawSum
  product := Expr.rawProduct
  power := .power
  call := .call

variable (alg : Algebra)

/-- The opposite of an expression. -/
def neg (x : Expr) : Expr := alg.product [.minusOne, x]

/-- The difference of two expressions. -/
def sub (x y : Expr) : Expr := alg.sum [x, alg.neg y]

/-- The inverse of an expression. -/
def inv (x : Expr) : Expr := alg.power x .minusOne

/-- The quotient of two expressions. -/
def div (x y : Expr) : Expr := alg.product [x, alg.inv y]

/-- The principal square root. -/
def sqrt (x : Expr) : Expr := alg.power x .half

end Algebra

namespace Expr

/-! ## Collecting terms -/

/-- A sum under construction: its constant, and the other terms with their coefficients. The
constant is a number, a pole or a band. -/
structure SumParts where
  constant : Expr := zero
  terms : List (Expr × Expr) := []

/-- Add a coefficient to the entry of a term. -/
def addTerm (term coefficient : Expr) : List (Expr × Expr) → List (Expr × Expr)
  | [] => [(term, coefficient)]
  | (t, c) :: rest =>
    if t == term then (t, addNumbers c coefficient) :: rest
    else (t, c) :: addTerm term coefficient rest

/-- Add one term; `none` when the sum has no meaning. -/
def SumParts.add (parts : SumParts) (x : Expr) : Option SumParts :=
  if x.isNumber then
    match parts.constant with
    | .pole => if x.isInfiniteAtom || x == .nan then none else some parts
    | .band => if x == .nan then none else some parts
    | c =>
      match addNumbers c x with
      | .nan => none
      | s => some { parts with constant := s }
  else
    match x with
    | .pole =>
      if parts.constant.isInfiniteAtom then none else some { parts with constant := .pole }
    | .band => some { parts with constant := .band }
    | x =>
      let (c, t) := splitCoefficient x
      let terms := addTerm t c parts.terms
      if terms.any fun p => p.2 == .nan then none else some { parts with terms := terms }

/-- A term with its coefficient. -/
def scaleTerm (alg : Algebra) (coefficient term : Expr) : Expr :=
  if coefficient.isOne then term
  else
    match term with
    | .product fs => .product (coefficient :: fs)
    | .sum ts => .product [coefficient, .sum ts]
    | t => alg.product [coefficient, t]

/-- Whether a term is lost beside an infinite constant. -/
def absorbedBy (constant term : Expr) : Bool :=
  let f := term.facts
  match constant with
  | .posInf => f.nonNegative || (f.real == some true && f.finite == some true)
  | .negInf => f.nonPositive || (f.real == some true && f.finite == some true)
  | .pole => f.finite == some true && f.real.isSome
  | _ => false

/-- The canonical sum: nested sums are joined, equal terms collected and numbers added. -/
def sumRule (alg : Algebra) (xs : List Expr) : Expr :=
  match (xs.flatMap terms).filter fun x => !(x == zero) with
  | [] => zero
  | [x] => x
  | xs =>
    match xs.foldlM SumParts.add {} with
    | none => .nan
    | some parts =>
      let kept := parts.terms.filter fun p => !p.2.isZeroNumber
      let ts := kept.map fun p => scaleTerm alg p.2 p.1
      let ts := sortByKey (ts.filter fun t => !absorbedBy parts.constant t)
      if parts.constant == zero then rawSum ts else rawSum (parts.constant :: ts)

/-! ## Signs of sums and products -/

/-- Whether a product begins with a negative number, or a sum has more negative terms than
positive ones; of `a - b` and `b - a` exactly one counts as negative. -/
def leadsNegative (alg : Algebra) (x : Expr) : Bool :=
  let leading : Expr → Bool
    | .product (c :: _) => c.isNegativeNumber
    | y => y.isNegativeNumber
  match x with
  | .sum ts =>
    let negative := (ts.filter leading).length
    let positive := ts.length - negative
    if positive > negative then false
    else if positive < negative then true
    else before x (alg.product [minusOne, x])
  | x => leading x

/-- The other factor of a product with the imaginary unit, if every term has it. -/
def imaginaryFactor? (alg : Algebra) (x : Expr) : Option Expr :=
  let ofTerm : Expr → Option Expr
    | .const .i => some one
    | .product fs =>
      if fs.contains (.const .i) then some (rawProduct (fs.erase (.const .i))) else none
    | _ => none
  match x with
  | .sum ts => (ts.mapM ofTerm).map alg.sum
  | x => ofTerm x

/-- The rational multiple of π that an expression is. -/
def exactPiMultiple? : Expr → Option Rat
  | .const .pi => some 1
  | .product [.rat q, .const .pi] => some q
  | .rat q => if q.num = 0 then some 0 else none
  | _ => none

/-- The multiple of π that an expression is, if it is rational. An inexact multiple counts as
rational when its fraction is zero or a power of one half. -/
def piMultiple? : Expr → Option Rat
  | .product [.real x, .const .pi] =>
    let q := x.toRat
    let part := if q < 0 then -q - (-q).floor else q - q.floor
    if part.num = 0 ∨ part.num = 1 then some q else none
  | x => exactPiMultiple? x

/-- Real terms, and the real factors of the terms that are multiples of the imaginary unit; `none`
if some term is neither. -/
def realAndImaginary? (ts : List Expr) : Option (List Expr × List Expr) :=
  ts.foldlM
    (fun (re, im) t =>
      if t.facts.real == some true then some (re ++ [t], im)
      else
        let factor : Option Expr :=
          match t with
          | .const .i => some one
          | .product fs =>
            if fs.contains (.const .i) then some (rawProduct (fs.erase (.const .i))) else none
          | _ => none
        match factor with
        | some f => if f.facts.real == some true then some (re, im ++ [f]) else none
        | none => none)
    ([], [])

/-- A constant as real and imaginary number. -/
def complexNumber? : Expr → Option (Expr × Expr)
  | .const .i => some (zero, one)
  | .product [c, .const .i] => if c.isNumber then some (zero, c) else none
  | .sum [a, .const .i] => if a.isNumber then some (a, one) else none
  | .sum [a, .product [c, .const .i]] =>
    if a.isNumber && c.isNumber then some (a, c) else none
  | x => if x.isNumber then some (x, zero) else none

end Expr
end Graphing
