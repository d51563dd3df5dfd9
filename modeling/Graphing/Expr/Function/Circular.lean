/-
  Graphing.Expr.Function.Circular

  Special values of the trigonometric functions and their inverses: exact
  values at simple fractions of π, parity, and arguments along the imaginary
  axis.
-/
import Graphing.Expr.Function.Exponential

namespace Graphing.Expr

/-! ## Angles -/

/-- The factor of π in a product, as a number and an integer that is not a number. -/
def integerTurns? : Expr → Option (Rat × Expr)
  | .product fs =>
    if fs.contains (.const .pi) then
      match splitCoefficient (rawProduct (fs.erase (.const .pi))) with
      | (.rat q, n) =>
        if !n.isNumber && n.facts.integer == some true then some (q, n) else none
      | _ => none
    else none
  | _ => none

/-- A function of period 2π at a multiple of π that is an integer `n` times a number. Even and odd
numbers give values of their own; any other number is reduced into the range from zero to two. -/
def atIntegerTurns (alg : Algebra) (f : Fn) (x : Expr) (even : Expr) (odd : Expr → Expr) :
    Option Expr := do
  let (q, n) ← integerTurns? x
  let reduced := q - 2 * (q / 2).floor
  if reduced = 0 then return even
  else if reduced = 1 then return odd n
  else if reduced = q then failure
  else return alg.call f [alg.product [.rat reduced, n, .const .pi]]

/-- The factor of π in a term, if it is known to be rational. -/
def rationalTurns? (t : Expr) : Option Expr :=
  match exactPiMultiple? t with
  | some q => if q = 0 then none else some (.rat q)
  | none => (integerTurns? t).map fun (q, n) => rawTimesNumber q n
where
  /-- A number times an integer. -/
  rawTimesNumber (q : Rat) (n : Expr) : Expr :=
    if q = 1 then n else rawProduct (.rat q :: factors n)

/-- Split a sum into the rest and a multiple of π/2, if it has one. -/
def peelQuarterTurns (alg : Algebra) (ts : List Expr) : Option (Expr × Expr) :=
  let total := alg.sum (ts.filterMap rationalTurns?)
  if total == zero then none
  else
    let rest := ts.filter fun t => (rationalTurns? t).isNone
    let left := alg.call .mod [total, .half]
    let turns := alg.sub total left
    let isQuarter : Bool := match turns with
      | .rat q => q.den ≤ 2 && q.num ≠ 0
      | n => n.facts.integer == some true
    if isQuarter then some (alg.sum (rest ++ [alg.product [left, .const .pi]]), turns) else none

/-! ## Sine, cosine and tangent -/

/-- Values at infinite arguments. -/
def circularAtInfinity (x : Expr) : Option Expr :=
  match x with
  | .nan | .pole => some .nan
  | .posInf | .negInf => some .band
  | _ => none

/-- The sine. -/
def sinRule (alg : Algebra) (x : Expr) : Option Expr :=
  match circularAtInfinity x with
  | some v => some v
  | none =>
    if x.isZeroNumber then some zero
    else if leadsNegative alg x then some (alg.neg (alg.call .sin [alg.neg x]))
    else
      match imaginaryFactor? alg x with
      | some y => some (alg.product [.const .i, alg.call .sinh [y]])
      | none =>
        match piMultiple? x with
        | some q => sineOfAngle alg q x
        | none =>
          match x with
          | .product _ => atIntegerTurns alg .sin x zero (fun _ => zero)
          | .sum ts =>
            (peelQuarterTurns alg ts).map fun (rest, q) =>
              let m := alg.product [q, .const .pi]
              alg.sum [alg.product [alg.call .sin [m], alg.call .cos [rest]],
                alg.product [alg.call .cos [m], alg.call .sin [rest]]]
          | .call .asin [y] => some y
          | .call .atan [y] =>
            some (alg.div y (alg.sqrt (alg.sum [one, alg.power y (int 2)])))
          | .call .atan2 [y, z] =>
            some (alg.div y (alg.sqrt (alg.sum [alg.power z (int 2), alg.power y (int 2)])))
          | .call .acos [y] => some (alg.sqrt (alg.sub one (alg.power y (int 2))))
          | _ => none

/-- The cosine. -/
def cosRule (alg : Algebra) (x : Expr) : Option Expr :=
  match circularAtInfinity x with
  | some v => some v
  | none =>
    if x.isZeroNumber then some one
    else if leadsNegative alg x then some (alg.call .cos [alg.neg x])
    else
      match imaginaryFactor? alg x with
      | some y => some (alg.call .cosh [y])
      | none =>
        match piMultiple? x with
        | some q => cosineOfAngle alg q
        | none =>
          match x with
          | .product _ => atIntegerTurns alg .cos x one (alg.power minusOne)
          | .sum ts =>
            (peelQuarterTurns alg ts).map fun (rest, q) =>
              let m := alg.product [q, .const .pi]
              alg.sub (alg.product [alg.call .cos [m], alg.call .cos [rest]])
                (alg.product [alg.call .sin [m], alg.call .sin [rest]])
          | .call .acos [y] => some y
          | .call .atan [y] =>
            some (alg.inv (alg.sqrt (alg.sum [one, alg.power y (int 2)])))
          | .call .atan2 [y, z] =>
            some (alg.div z (alg.sqrt (alg.sum [alg.power z (int 2), alg.power y (int 2)])))
          | .call .asin [y] => some (alg.sqrt (alg.sub one (alg.power y (int 2))))
          | _ => none

/-- The tangent. -/
def tanRule (alg : Algebra) (x : Expr) : Option Expr :=
  match circularAtInfinity x with
  | some v => some v
  | none =>
    if x.isZeroNumber then some zero
    else if leadsNegative alg x then some (alg.neg (alg.call .tan [alg.neg x]))
    else
      match imaginaryFactor? alg x with
      | some y => some (alg.product [.const .i, alg.call .tanh [y]])
      | none =>
        match piMultiple? x with
        | some q => tangentOfAngle alg q x
        | none =>
          match x with
          | .product _ => atIntegerTurns alg .tan x zero (fun _ => zero)
          | .sum ts =>
            (peelQuarterTurns alg ts).map fun (rest, q) =>
              if q.facts.integer == some true then alg.call .tan [rest]
              else alg.neg (alg.call .cot [rest])
          | .call .atan [y] => some y
          | .call .atan2 [y, z] => some (alg.div y z)
          | .call .asin [y] =>
            some (alg.div y (alg.sqrt (alg.sub one (alg.power y (int 2)))))
          | .call .acos [y] =>
            some (alg.div (alg.sqrt (alg.sub one (alg.power y (int 2)))) y)
          | _ => none

/-- The cotangent, which arises as the tangent of a complement. -/
def cotRule (alg : Algebra) (x : Expr) : Option Expr :=
  match x with
  | .nan | .pole => some .nan
  | .posInf | .negInf => some .band
  | x =>
    if x.isZeroNumber then some .pole
    else if leadsNegative alg x then some (alg.neg (alg.call .cot [alg.neg x]))
    else
      match imaginaryFactor? alg x with
      | some y => some (alg.neg (alg.product [.const .i, alg.call .coth [y]]))
      | none =>
        match piMultiple? x with
        | some q => tangentOfAngle alg (1 / 2 - q) x
        | none =>
          match x with
          | .product _ => atIntegerTurns alg .cot x .pole (fun _ => .pole)
          | .sum ts =>
            (peelQuarterTurns alg ts).map fun (rest, q) =>
              if q.facts.integer == some true then alg.call .cot [rest]
              else alg.neg (alg.call .tan [rest])
          | .call .atan [y] => some (alg.inv y)
          | .call .atan2 [y, z] => some (alg.div z y)
          | .call .asin [y] =>
            some (alg.div (alg.sqrt (alg.sub one (alg.power y (int 2)))) y)
          | .call .acos [y] =>
            some (alg.div y (alg.sqrt (alg.sub one (alg.power y (int 2)))))
          | _ => none

/-! ## Inverse functions -/

/-- The multiple of π that a table gives to an exact constant. The table is not worked out for
other expressions. -/
def recognised (table : Unit → List (Expr × Rat)) (x : Expr) : Option Rat :=
  if x.isConstant && isAlgebraic x then lookUpAngle (table ()) x else none

/-- Reduce a real constant into the range of an inverse function, where `f` tells how many half
turns to take off and whether to reflect. -/
def reduceAngle (alg : Algebra) (x : Expr) (halfTurns : Float → Float) (reflect : Float → Bool) :
    Option Expr :=
  match x.realValue with
  | some v =>
    let n := halfTurns v
    let whole := ((Binary64.toRat? n).map Rat.floor).getD 0
    let shifted := alg.sub x (angle alg whole)
    some (if reflect n then alg.neg shifted else shifted)
  | none => none

/-- The arc sine. -/
def asinRule (alg : Algebra) (x : Expr) : Option Expr :=
  match x with
  | .nan => some .nan
  | .pole => some .pole
  | .posInf => some (alg.product [.negInf, .const .i])
  | .negInf => some (alg.product [.posInf, .const .i])
  | x =>
    if x.isZeroNumber then some zero
    else if x == one then some (angle alg (mkRat 1 2))
    else if leadsNegative alg x then some (alg.neg (alg.call .asin [alg.neg x]))
    else
      match recognised (fun _ => arcSineTable alg) x with
      | some q => some (angle alg q)
      | none =>
        match imaginaryFactor? alg x with
        | some y => some (alg.product [.const .i, alg.call .asinh [y]])
        | none =>
          match x with
          | .call .sin [y] =>
            reduceAngle alg y (fun v => (v / Elementary.pi + 0.5).floor)
              (fun n => Binary64.floorRem n 2 == 1)
          | .call .cos [y] =>
            if y.isComparable then
              some (alg.sub (angle alg (mkRat 1 2)) (alg.call .acos [x]))
            else none
          | _ => none

/-- The arc cosine of a cosine or its opposite: the angle, folded into the range from 0 to π. -/
def foldAngle (alg : Algebra) (y : Expr) : Option Expr :=
  y.realValue.map fun v =>
    let n := (v / Elementary.pi).floor
    let whole := ((Binary64.toRat? n).map Rat.floor).getD 0
    if whole % 2 = 0 then alg.sub y (angle alg whole) else alg.sub (angle alg (whole + 1)) y

/-- The arc cosine. -/
def acosRule (alg : Algebra) (x : Expr) : Option Expr :=
  match x with
  | .nan => some .nan
  | .pole => some .pole
  | .posInf => some (alg.product [.posInf, .const .i])
  | .negInf => some (alg.product [.negInf, .const .i])
  | x =>
    if x.isZeroNumber then some (angle alg (mkRat 1 2))
    else if x == one then some zero
    else if x.isMinusOne then some (.const .pi)
    else
      let table (_ : Unit) := arcSineTable alg
      match recognised table x, recognised table (alg.neg x) with
      | some q, _ => some (angle alg (mkRat 1 2 - q))
      | none, some q => some (angle alg (mkRat 1 2 + q))
      | none, none =>
        match imaginaryFactor? alg x with
        | some _ => some (alg.sub (angle alg (mkRat 1 2)) (alg.call .asin [x]))
        | none =>
          match x with
          | .call .cos [y] => foldAngle alg y
          | .product [.rat (-1), .call .cos [y]] => foldAngle alg (alg.sub (.const .pi) y)
          | .call .sin [y] =>
            if y.isComparable then
              some (alg.sub (angle alg (mkRat 1 2)) (alg.call .asin [x]))
            else none
          | .product [.rat (-1), .call .sin [y]] =>
            if y.isComparable then
              some (alg.sum [angle alg (mkRat 1 2), alg.call .asin [.call .sin [y]]])
            else none
          | _ => none

/-- The arc tangent. -/
def atanRule (alg : Algebra) (x : Expr) : Option Expr :=
  match x with
  | .nan => some .nan
  | .pole => some .band
  | .posInf => some (angle alg (mkRat 1 2))
  | .negInf => some (angle alg (mkRat (-1) 2))
  | x =>
    if x.isZeroNumber then some zero
    else if x.isOne then some (angle alg (mkRat 1 4))
    else if leadsNegative alg x then some (alg.neg (alg.call .atan [alg.neg x]))
    else
      match recognised (fun _ => arcTangentTable alg) x with
      | some q => some (angle alg q)
      | none =>
        match imaginaryFactor? alg x with
        | some y => some (alg.product [.const .i, alg.call .atanh [y]])
        | none =>
          match x with
          | .call .tan [y] =>
            reduceAngle alg y (fun v => (v / Elementary.pi + 0.5).floor) (fun _ => false)
          | _ => none

/-- The angle of the point `(x, y)`. -/
def atan2Rule (alg : Algebra) (y x : Expr) : Option Expr :=
  let fx := x.facts
  let fy := y.facts
  let principal := alg.call .atan [alg.div y x]
  if x == .posInf then some zero
  else if fx.real == some true && fy.real == some true then
    if fx.positive == some true then some principal
    else if fx.negative == some true then
      if fy.negative == some true then some (alg.sub principal (.const .pi))
      else if fy.negative == some false then some (alg.sum [principal, .const .pi])
      else none
    else if fx.zero == some true then
      if fy.positive == some true then some (angle alg (mkRat 1 2))
      else if fy.negative == some true then some (angle alg (mkRat (-1) 2))
      else if fy.zero == some true then some .nan
      else none
    else none
  else if x.isConstant && y.isConstant then
    let length := alg.sqrt (alg.sum [alg.power x (int 2), alg.power y (int 2)])
    let point := alg.sum [x, alg.product [.const .i, y]]
    some (alg.neg (alg.product [.const .i, alg.call .log [alg.div point length]]))
  else none

end Graphing.Expr
