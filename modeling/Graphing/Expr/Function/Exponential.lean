/-
  Graphing.Expr.Function.Exponential

  Special values of the exponential, the logarithm, the gamma function and
  the factorial.
-/
import Graphing.Expr.Function.Angle

namespace Graphing.Expr

open CorePower

/-! ## Exponential -/

/-- The exponential of a rational multiple of `π i`. -/
def expOfAngle (alg : Algebra) (q : Rat) : Option Expr :=
  let twice := q * 2
  if twice.den = 1 then
    match twice.num % 4 with
    | 0 => some one
    | 1 => some (.const .i)
    | 2 => some minusOne
    | _ => some (alg.neg (.const .i))
  else
    let r := q - 2 * (q / 2).floor
    let r := if 1 < r then r - 2 else r
    if r = q then none
    else some (alg.call .exp [alg.product [.rat r, .const .pi, .const .i]])

/-- The exponential of `π i` times an integer, or an integer less one half, that is not a number but
known to be even or odd. -/
def expOfTurns (alg : Algebra) (fs : List Expr) : Option Expr :=
  if fs.contains (.const .i) && fs.contains (.const .pi) then
    let c := alg.product ((fs.erase (.const .i)).erase (.const .pi))
    let half := alg.sum [c, .half]
    if c.isNumber then none
    else
      match c.isEven?, half.isEven? with
      | some even, _ => some (if even then one else minusOne)
      | none, some even => some (if even then alg.neg (.const .i) else .const .i)
      | none, none => none
  else none

/-- The exponential of a product: angles on the unit circle, and `exp (c · log x) = x ^ c` where
`c` is a real constant. -/
def expOfProduct (alg : Algebra) (fs : List Expr) : Option Expr :=
  let angle : Option Rat := (imaginaryFactor? alg (.product fs)).bind exactPiMultiple?
  match (angle.bind fun q => if q = 0 then none else expOfAngle alg q) <|> expOfTurns alg fs with
  | some r => some r
  | none =>
    let (c, t) := splitCoefficient (.product fs)
    if c == .posInf || c == .negInf then none
    else
      let logs := (factors t).filterMap fun f =>
        match f with
        | .call .log [x] => some x
        | _ => none
      let others := (factors t).filter fun f =>
        match f with
        | .call .log [_] => false
        | _ => true
      match logs with
      | [x] =>
        if others.all isComparable then some (alg.power x (alg.product (c :: others))) else none
      | _ => none

/-- The exponential of a sum: terms whose exponential has a simpler form leave the sum. -/
def expOfSum (alg : Algebra) (ts : List Expr) : Option Expr :=
  let parts : List (Option Expr × Option Expr) := ts.map fun t =>
    if t.isOne then (none, some t)
    else
      match alg.call .exp [t] with
      | .call .exp [u] => (none, some u)
      | r => (some r, none)
  let out := parts.filterMap Prod.fst
  let inner := parts.filterMap Prod.snd
  if out.isEmpty && inner == ts then none
  else
    let rest := alg.sum inner
    let tail := if rest == zero then one else if inner == ts then .call .exp [rest]
      else if inner.length ≤ 1 then alg.call .exp [rest] else .call .exp [rest]
    some (alg.product (out ++ [tail]))

/-- The exponential. -/
def expRule (alg : Algebra) (x : Expr) : Option Expr :=
  match x with
  | .nan | .pole => some .nan
  | .posInf => some .posInf
  | .negInf => some zero
  | .rat q => if q = 0 then some one else if q = 1 then some (.const .e) else none
  | .real r => if r.isZero then some one else none
  | .call .log [y] => some y
  | .product fs => expOfProduct alg fs
  | .sum ts => expOfSum alg ts
  | _ => none

/-! ## Logarithm -/

/-- How often one integer above one divides another. -/
def multiplicity (p n : Nat) : Nat := (divideOut p (n.log2 + 1) n).1

/-- The exponent of a base that can be split off an exact number. -/
def logExponent? (x base : Expr) : Option Int :=
  let ofNat (p n : Nat) : Option Int :=
    if p < 2 ∨ n = 0 then none else some (multiplicity p n)
  match x, base with
  | .rat a, .rat b =>
    if a.num ≤ 0 ∨ b.num ≤ 0 then none
    else if a.den = 1 ∧ b.den = 1 then ofNat b.num.toNat a.num.toNat
    else if b.den = 1 then
      if a.num = 1 then (ofNat b.num.toNat a.den).map (- ·)
      else do return (← ofNat b.num.toNat a.num.toNat) - (← ofNat b.num.toNat a.den)
    else if b.num = 1 then ofNat b.den a.den
    else do
      let top ← ofNat b.num.toNat a.num.toNat
      let bottom ← ofNat b.den a.den
      let topCross ← ofNat b.den a.num.toNat
      let bottomCross ← ofNat b.num.toNat a.den
      return min top bottom - min topCross bottomCross
  | _, _ => none

/-- The product of two numbers given by real and imaginary part. -/
def multiplyParts (alg : Algebra) (x y : Expr × Expr) : Expr × Expr :=
  let times (a b : Expr) : Expr :=
    alg.sum ((terms a).flatMap fun s => (terms b).map fun t => alg.product [s, t])
  (alg.sub (times x.1 y.1) (times x.2 y.2), alg.sum [times x.1 y.2, times x.2 y.1])

mutual
/-- Real and imaginary part of a constant, with products multiplied out. -/
def complexParts? (alg : Algebra) : Expr → Option (Expr × Expr)
  | .const .i => some (zero, one)
  | .sum ts => (partsOfAll? alg ts).map fun ps =>
    (alg.sum (ps.map Prod.fst), alg.sum (ps.map Prod.snd))
  | .product fs => (partsOfAll? alg fs).map fun ps => ps.foldl (multiplyParts alg) (one, zero)
  | x => if x.facts.real == some true then some (x, zero) else none

/-- Real and imaginary parts of several constants. -/
def partsOfAll? (alg : Algebra) : List Expr → Option (List (Expr × Expr))
  | [] => some []
  | x :: xs => do return (← complexParts? alg x) :: (← partsOfAll? alg xs)
end

/-- The logarithm of an algebraic number off the real line, where its angle is one that is
recognised. Real factors go to the modulus. -/
def logOfAlgebraic (alg : Algebra) (x : Expr) : Option Expr := do
  if !(x.isConstant && isAlgebraic x) then failure
  let (outside, inside) : List Expr × List Expr :=
    match x with
    | .product fs => fs.partition fun f => f.facts.real == some true
    | x => ([], [x])
  let scale := alg.product outside
  let flip := scale.facts.negative == some true
  let scale := if flip then alg.neg scale else scale
  let turned := alg.product inside
  let (re, im) ← complexParts? alg (if flip then alg.neg turned else turned)
  if im == zero || im.facts.real != some true || re.facts.real != some true then failure
  let axis (q : Rat) : Expr := alg.product [.rat q, .const .pi, .const .i]
  if re == zero then
    match im.facts.positive with
    | some true => return alg.sum [axis (mkRat 1 2), alg.call .log [alg.product [scale, im]]]
    | _ => return alg.sum [axis (mkRat (-1) 2), alg.call .log [alg.product [scale, alg.neg im]]]
  else
    let slope := alg.div im re
    let table := logarithmTable alg
    let whole := alg.sum [re, alg.product [im, .const .i]]
    let size := alg.call .log [alg.product [scale, alg.call .abs [whole]]]
    let right := re.facts.positive == some true
    match lookUpAngle table slope, lookUpAngle table (alg.neg slope) with
    | some q, _ => return alg.sum [size, axis (if right then q else q - 1)]
    | none, some q => return alg.sum [size, axis (if right then -q else 1 - q)]
    | none, none => failure

/-- The logarithm of the exponential of a constant: the imaginary part is brought into the range
from `-π` to `π`. -/
def logOfExponential (alg : Algebra) (y : Expr) : Option Expr := do
  let (re, im) ← realAndImaginary? (terms y)
  if im.isEmpty then failure
  let height := alg.sum im
  let turns ←
    match exactPiMultiple? height with
    | some q => some ((q + 1) / 2).ceil
    | none => do
      let v ← height.realValue
      ((Binary64.toRat? ((v / Elementary.pi + 1) / 2).ceil).map Rat.floor)
  let reduced := alg.sub height (angle alg (2 * (turns - 1)))
  return alg.sum (re ++ (terms reduced).map fun t => alg.product [t, .const .i])

/-- The natural logarithm. -/
def logRule (alg : Algebra) (x : Expr) : Option Expr :=
  let turn (half : Bool) (y : Expr) : Expr :=
    let angle : Expr := alg.product [if half then .half else one, .const .pi, .const .i]
    alg.sum [angle, alg.call .log [y]]
  match x with
  | .nan => some .nan
  | .pole => some .pole
  | .posInf | .negInf => some .posInf
  | .const .e => some one
  | .rat q =>
    if q = 0 then some .pole
    else if q = 1 then some zero
    -- the logarithm of an inverse
    else if q.num = 1 then some (alg.neg (alg.call .log [int q.den]))
    -- a negative number is half a turn away from a positive one
    else if q < 0 then some (turn false (.rat (-q)))
    else none
  | .real r =>
    if r.isZero then some .pole
    else if r.sign < 0 then some (turn false (.real r.neg))
    else none
  | .call .exp [y] =>
    if y.facts.real == some true then some y
    else if y.isConstant then logOfExponential alg y
    else none
  | x =>
    if x.isConstant && x.facts.negative == some true then some (turn false (alg.neg x))
    else
      match if x matches .sum _ then none else imaginaryFactor? alg x with
      | some (.rat q) =>
        -- an imaginary number is a quarter of a turn away, on either side
        if 0 ≤ q then some (turn true (.rat q))
        else some (alg.sum [alg.product [.rat (mkRat (-1) 2), .const .pi, .const .i],
          alg.call .log [.rat (-q)]])
      | _ => logOfAlgebraic alg x

/-- The logarithm to a base: whole exponents of an exact base are split off. -/
def logToBase (alg : Algebra) (x base : Expr) : Expr :=
  if base.isOne then (if x.isOne then .nan else .pole)
  else
    let quotient (y : Expr) : Expr := alg.div (alg.call .log [y]) (alg.call .log [base])
    match logExponent? x base with
    | some n =>
      if n = 0 then quotient x
      else alg.sum [int n, quotient (alg.div x (alg.power base (int n)))]
    | none => quotient x

/-! ## Gamma function and factorial -/

/-- The product of the odd numbers from three up to below twice a number. -/
def oddProduct : Nat → Nat
  | 0 | 1 => 1
  | k + 1 => (2 * k + 1) * oddProduct k

/-- The factorial; the negative integers are poles. -/
def factorialRule (x : Expr) : Option Expr :=
  match x with
  | .nan => some .nan
  | .posInf => some .posInf
  | .rat q =>
    if q.den = 1 then
      if q.num < 0 then some .pole else some (int (Gamma.factorial q.num.toNat : Nat))
    else none
  | .real r => if r.isZero then some one else none
  | _ => none

/-- The gamma function at integers and halves. -/
def gammaRule (alg : Algebra) (x : Expr) : Option Expr :=
  match x with
  | .nan => some .nan
  | .posInf => some .posInf
  | .rat q =>
    if q.den = 1 then
      if 0 < q then some (alg.call .factorial [.rat (q - 1)]) else some .pole
    else if q.den = 2 then
      let n := q.num.natAbs / 2
      let root := alg.sqrt (.const .pi)
      if 0 < q then
        some (alg.product [.rat (mkRat (oddProduct n) (2 ^ n)), root])
      else
        let n := n + 1
        let sign : Int := if n % 2 = 0 then 1 else -1
        some (alg.product [.rat (mkRat (sign * 2 ^ n) (oddProduct n)), root])
    else none
  | .real r =>
    if r.isInt then
      if 0 < r.sign then some (alg.call .factorial [addNumbers x minusOne]) else some .pole
    else none
  | x => if x.facts.integer == some true && x.facts.nonPositive then some .pole else none

end Graphing.Expr
