/-
  Graphing.Expr.Function.Hyperbolic

  Special values of the hyperbolic functions and their inverses.
-/
import Graphing.Expr.Function.Circular

namespace Graphing.Expr

/-! ## Hyperbolic functions -/

/-- The square root of `1 - y²`. -/
def cofactorRoot (alg : Algebra) (y : Expr) : Expr := alg.sqrt (alg.sub one (alg.power y (int 2)))

/-- The square root of `1 + y²`. -/
def cosineRoot (alg : Algebra) (y : Expr) : Expr := alg.sqrt (alg.sum [one, alg.power y (int 2)])

/-- The product of the square roots of `y - 1` and `y + 1`. -/
def sineRoot (alg : Algebra) (y : Expr) : Expr :=
  alg.product [alg.sqrt (alg.sub y one), alg.sqrt (alg.sum [y, one])]

/-- Split a sum into the rest and a multiple of `π i / 2`, if it has one. -/
def peelImaginaryTurns (alg : Algebra) (ts : List Expr) : Option (Expr × Rat) :=
  let exact : Expr → Option Rat
    | .product [.const .pi, .const .i] | .product [.const .i, .const .pi] => some 1
    | .product [.rat q, .const .pi, .const .i] | .product [.rat q, .const .i, .const .pi] => some q
    | _ => none
  match ts.findSome? exact with
  | none => none
  | some q =>
    let turns := (2 * q).floor / (2 : Rat)
    if turns = 0 then none
    else
      let taken := alg.product [.rat (-turns), .const .pi, .const .i]
      some (alg.sum (ts ++ [taken]), turns)

/-- A multiple of `π i`. -/
def imaginaryAngle (alg : Algebra) (q : Rat) : Expr := alg.product [.rat q, .const .pi, .const .i]

/-- The hyperbolic sine. -/
def sinhRule (alg : Algebra) (x : Expr) : Option Expr :=
  match x with
  | .nan | .pole => some .nan
  | .posInf => some .posInf
  | .negInf => some .negInf
  | x =>
    if x.isZeroNumber then some zero
    else
      match imaginaryFactor? alg x with
      | some y => some (alg.product [.const .i, alg.call .sin [y]])
      | none =>
        if leadsNegative alg x then some (alg.neg (alg.call .sinh [alg.neg x]))
        else
          match x with
          | .sum ts =>
            (peelImaginaryTurns alg ts).map fun (rest, q) =>
              let m := imaginaryAngle alg q
              alg.sum [alg.product [alg.call .sinh [m], alg.call .cosh [rest]],
                alg.product [alg.call .cosh [m], alg.call .sinh [rest]]]
          | .call .asinh [y] => some y
          | .call .acosh [y] => some (sineRoot alg y)
          | .call .atanh [y] => some (alg.div y (cofactorRoot alg y))
          | _ => none

/-- The hyperbolic cosine. -/
def coshRule (alg : Algebra) (x : Expr) : Option Expr :=
  match x with
  | .nan | .pole => some .nan
  | .posInf | .negInf => some .posInf
  | x =>
    if x.isZeroNumber then some one
    else
      match imaginaryFactor? alg x with
      | some y => some (alg.call .cos [y])
      | none =>
        if leadsNegative alg x then some (alg.call .cosh [alg.neg x])
        else
          match x with
          | .sum ts =>
            (peelImaginaryTurns alg ts).map fun (rest, q) =>
              let m := imaginaryAngle alg q
              alg.sum [alg.product [alg.call .cosh [m], alg.call .cosh [rest]],
                alg.product [alg.call .sinh [m], alg.call .sinh [rest]]]
          | .call .asinh [y] => some (cosineRoot alg y)
          | .call .acosh [y] => some y
          | .call .atanh [y] => some (alg.inv (cofactorRoot alg y))
          | _ => none

/-- The hyperbolic tangent. -/
def tanhRule (alg : Algebra) (x : Expr) : Option Expr :=
  match x with
  | .nan | .pole => some .nan
  | .posInf => some one
  | .negInf => some minusOne
  | x =>
    if x.isZeroNumber then some zero
    else
      match imaginaryFactor? alg x with
      | some y => some (alg.product [.const .i, alg.call .tan [y]])
      | none =>
        if leadsNegative alg x then some (alg.neg (alg.call .tanh [alg.neg x]))
        else
          match x with
          | .sum ts =>
            (peelImaginaryTurns alg ts).map fun (rest, q) =>
              alg.call (if q.den = 1 then .tanh else .coth) [rest]
          | .call .asinh [y] => some (alg.div y (cosineRoot alg y))
          | .call .acosh [y] => some (alg.div (sineRoot alg y) y)
          | .call .atanh [y] => some y
          | _ => none

/-- The hyperbolic cotangent, which arises as the tangent half an imaginary turn away. -/
def cothRule (alg : Algebra) (x : Expr) : Option Expr :=
  match x with
  | .nan | .pole => some .nan
  | .posInf => some one
  | .negInf => some minusOne
  | x =>
    if x.isZeroNumber then some .pole
    else
      match imaginaryFactor? alg x with
      | some y => some (alg.neg (alg.product [.const .i, alg.call .cot [y]]))
      | none =>
        if leadsNegative alg x then some (alg.neg (alg.call .coth [alg.neg x]))
        else
          match x with
          | .sum ts =>
            (peelImaginaryTurns alg ts).map fun (rest, q) =>
              alg.call (if q.den = 1 then .coth else .tanh) [rest]
          | .call .asinh [y] => some (alg.div (cosineRoot alg y) y)
          | .call .acosh [y] => some (alg.div y (sineRoot alg y))
          | .call .atanh [y] => some (alg.inv y)
          | _ => none

/-! ## Inverse hyperbolic functions -/

/-- A constant off the real line, as its real part, and how often a part of π goes into its
imaginary part: `f` is given the imaginary part divided by π. -/
def imaginaryTurns? (alg : Algebra) (z : Expr) (f : Float → Float) : Option (Expr × Int) := do
  let (re, im) ← realAndImaginary? (terms z)
  if im.isEmpty then failure
  let v ← (alg.sum im).realValue
  let q ← Binary64.toRat? (f (v / Elementary.pi)).floor
  return (alg.sum re, q.floor)

/-- Take multiples of `π i / 2` off. -/
def lessQuarterTurns (alg : Algebra) (z : Expr) (n : Int) : Expr :=
  alg.sub z (alg.product [.rat (mkRat n 2), .const .pi, .const .i])

/-- The inverse hyperbolic sine of the hyperbolic sine of a constant. -/
def asinhOfSinh (alg : Algebra) (z : Expr) : Option Expr :=
  if z.isComparable then some z
  else
    (imaginaryTurns? alg z (· + 0.5)).map fun (_, n) =>
      let m := lessQuarterTurns alg z (2 * n)
      if n % 2 = 0 then m else alg.neg m

/-- The inverse hyperbolic cosine of the hyperbolic cosine of a constant. -/
def acoshOfCosh (alg : Algebra) (z : Expr) : Option Expr :=
  match z.realValue with
  | some v => some (if v < 0 then alg.neg z else z)
  | none => do
    let (re, n) ← imaginaryTurns? alg z id
    let v ← re.realValue
    if n % 2 = 0 then
      let m := lessQuarterTurns alg z (2 * n)
      return if v < 0 then alg.neg m else m
    else
      let m := lessQuarterTurns alg z (2 * n + 2)
      return if v ≤ 0 then alg.neg m else m

/-- The inverse hyperbolic tangent of the hyperbolic tangent of a constant. -/
def atanhOfTanh (alg : Algebra) (z : Expr) : Option Expr :=
  if z.isComparable then some z
  else
    (imaginaryTurns? alg z (2 * ·)).map fun (_, n) =>
      lessQuarterTurns alg z (if n % 2 = 0 then n else n + 1)

/-- The inverse hyperbolic sine. -/
def asinhRule (alg : Algebra) (x : Expr) : Option Expr :=
  match x with
  | .nan => some .nan
  | .pole => some .pole
  | .posInf => some .posInf
  | .negInf => some .negInf
  | x =>
    if x.isZeroNumber then some zero
    else if x.isOne then some (alg.call .log [alg.sum [alg.sqrt (int 2), one]])
    else if x.isMinusOne then some (alg.call .log [alg.sum [alg.sqrt (int 2), minusOne]])
    else
      match imaginaryFactor? alg x with
      | some y => some (alg.product [.const .i, alg.call .asin [y]])
      | none =>
        if leadsNegative alg x then some (alg.neg (alg.call .asinh [alg.neg x]))
        else
          match x with
          | .call .sinh [y] => if y.isConstant then asinhOfSinh alg y else none
          | _ => none

/-- The inverse hyperbolic cosine. -/
def acoshRule (alg : Algebra) (x : Expr) : Option Expr :=
  let onAxis (q : Rat) : Expr := alg.product [.rat q, .const .pi, .const .i]
  -- the value at the imaginary unit and its opposite
  let logOfUnit (opposite : Bool) : Expr :=
    alg.call .log [alg.product [if opposite then minusOne else one, .const .i,
      alg.sum [one, alg.sqrt (int 2)]]]
  match x with
  | .nan => some .nan
  | .pole => some .pole
  | .posInf | .negInf => some .posInf
  | x =>
    if x.isZeroNumber then some (onAxis (mkRat 1 2))
    else if x.isOne then some zero
    else if x.isMinusOne then some (onAxis 1)
    else
      match recognised (fun _ => arcCoshTable alg) x with
      | some q => some (onAxis q)
      | none =>
        match x with
        | .const .i => some (logOfUnit false)
        | .product [.rat (-1), .const .i] => some (logOfUnit true)
        | .call .cosh [y] => if y.isConstant then acoshOfCosh alg y else none
        | _ => none

/-- The inverse hyperbolic tangent. -/
def atanhRule (alg : Algebra) (x : Expr) : Option Expr :=
  match x with
  | .nan => some .nan
  | .pole => some (alg.product [.const .i, .band])
  | .posInf => some (alg.product [.rat (mkRat (-1) 2), .const .pi, .const .i])
  | .negInf => some (alg.product [.half, .const .pi, .const .i])
  | x =>
    if x.isZeroNumber then some zero
    else if x.isOne then some .posInf
    else if x.isMinusOne then some .negInf
    else
      match imaginaryFactor? alg x with
      | some y => some (alg.product [.const .i, alg.call .atan [y]])
      | none =>
        if leadsNegative alg x then some (alg.neg (alg.call .atanh [alg.neg x]))
        else
          match x with
          | .call .tanh [y] => if y.isConstant then atanhOfTanh alg y else none
          | _ => none

end Graphing.Expr
