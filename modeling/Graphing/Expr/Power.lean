/-
  Graphing.Expr.Power

  The canonical form of powers. Exact roots are extracted from integers,
  powers of powers and of products are combined where that holds for every
  complex number, and a power of an infinite value is decided by the signs.
-/
import Graphing.Expr.CommonFactor
import Graphing.Expr.Product

namespace Graphing.Expr

open CorePower

/-! ## Exact numbers -/

/-- A root of a positive integer: its prime factors move out of the root as far as they can. -/
def integerRoot (alg : Algebra) (n : Nat) (negative : Bool) (q : Rat) : Option Expr :=
  let signed (x : Expr) : Expr :=
    if negative then alg.product [x, alg.power minusOne (.rat q)] else x
  match exactRoot? q.den n with
  | some r => some (signed (int ((r ^ q.num.natAbs : Nat) : Int)))
  | none =>
    let step (acc : Nat × List Expr × List (Nat × Nat)) (f : Nat × Nat) :=
      let (whole, roots, rest) := acc
      let e := f.2 * q.num.natAbs
      let whole := whole * f.1 ^ (e / q.den)
      let m := e % q.den
      if m = 0 then (whole, roots, rest)
      else
        let g := Nat.gcd m q.den
        if g ≠ 1 then
          (whole, roots ++ [alg.power (int f.1) (.rat (mkRat (m / g : Nat) (q.den / g)))], rest)
        else (whole, roots, rest ++ [(f.1, m)])
    let (whole, roots, rest) := (natFactors n).foldl step (1, [], [])
    let common := rest.foldl (fun g r => Nat.gcd g r.2) 0
    let base := rest.foldl (fun b r => b * r.1 ^ (r.2 / common)) 1
    if base = n ∧ whole = 1 ∧ roots.isEmpty then none
    else
      some (signed (alg.product
        (int whole :: roots ++ [alg.power (int base) (.rat (mkRat common q.den))])))

/-- A power of minus one with a fraction as exponent. -/
def minusOnePower (alg : Algebra) (q : Rat) : Option Expr :=
  if q.den = 1 then some (if q.num % 2 = 0 then one else minusOne)
  else if q = mkRat 1 2 then some (.const .i)
  else if q.den = 2 then some (alg.power (.const .i) (int q.num))
  else
    let whole := q.floor
    if whole = 0 then none
    else some (alg.product [alg.power minusOne (int whole), alg.power minusOne (.rat (q - whole))])

/-- A power of an integer with a fraction as exponent. -/
def integerPower (alg : Algebra) (n : Int) (q : Rat) : Option Expr :=
  if n = 1 then some one
  else if n = -1 then minusOnePower alg q
  else if q = mkRat 1 2 ∧ n < 0 then some (alg.product [.const .i, alg.power (int (-n)) (.rat q)])
  else if q < 0 then
    let inverse : Expr := .rat (mkRat 1 n.natAbs)
    if n < 0 then some (alg.product [alg.power minusOne (.rat q), alg.power inverse (.rat (-q))])
    else some (alg.power inverse (.rat (-q)))
  else integerRoot alg n.natAbs (n < 0) q

/-- A power of a fraction with a fraction as exponent: the denominator is made rational. -/
def fractionPower (alg : Algebra) (b q : Rat) : Expr :=
  if q < 0 then
    let inverse : Expr := .rat (mkRat b.den b.num.natAbs)
    if b < 0 then alg.product [alg.power minusOne (.rat q), alg.power inverse (.rat (-q))]
    else alg.power inverse (.rat (-q))
  else
    let whole := q.floor + 1
    let rest : Rat := whole - q
    let scale : Expr := .rat (1 / (b.den : Rat) ^ whole.toNat)
    if b.num = 1 then alg.product [alg.power (int b.den) (.rat rest), scale]
    else alg.product [alg.power (int b.num) (.rat q), alg.power (int b.den) (.rat rest), scale]

/-- A power of two exact numbers. -/
def rationalPower (alg : Algebra) (b q : Rat) : Option Expr :=
  if b.num = 0 then some (if 0 < q then zero else .pole)
  else if q.den = 1 then
    let p := q.num.natAbs
    some (.rat (if 0 ≤ q then b ^ p else (1 / b) ^ p))
  else if b.den = 1 then integerPower alg b.num q
  else some (fractionPower alg b q)

/-! ## Inexact numbers -/

/-- A power of a negative inexact number, off the real line unless the exponent is whole. -/
def negativeRealPower (alg : Algebra) (x : BigFloat) (y : BigFloat) : Expr :=
  let size := (BigFloat.powPositive x.neg y.toFloat).getD x.neg
  let twice := y.toRat * 2
  let (c, s) : Float × Float :=
    if twice.den = 1 then
      match twice.num % 4 with
      | 0 => (1, 0)
      | 1 => (0, 1)
      | 2 => (-1, 0)
      | _ => (0, -1)
    else
      let t := Elementary.pi * Binary64.floorRem y.toFloat 2
      (t.cos, t.sin)
  let part (k : Float) : Expr :=
    match BigFloat.ofFloat? k with
    | some f => ofReal (size.mul f)
    | none => .nan
  alg.sum [part c, alg.product [part s, .const .i]]

/-- A power of an inexact number. -/
def realPower (alg : Algebra) (x : BigFloat) (e : Expr) : Option Expr :=
  let through (y : BigFloat) : Expr :=
    if x.sign < 0 then
      if y.isInt then ofReal (x.powInt y.floor) else negativeRealPower alg x y
    else if y.toRat = mkRat 1 2 then
      match BigFloat.ofFloat? x.toFloat.sqrt with
      | some r => ofReal { r with prec := x.prec }
      | none => ofReal ((BigFloat.powPositive x 0.5).getD x)
    else if y.isInt then ofReal (x.powInt y.floor)
    else ofReal ((BigFloat.powPositive x y.toFloat).getD x)
  if x.isZero then
    match e.facts.positive, e.facts.negative with
    | some true, _ => some (.real x)
    | _, some true => some .pole
    | _, _ => none
  else
    match e with
    | .rat q =>
      if q.den = 1 then some (ofReal (x.powInt q.num))
      else if q.num = 1 ∧ q.den % 2 = 1 ∧ x.sign < 0 then
        some (alg.product [.power minusOne (.rat q), alg.power (.real x.neg) (.rat q)])
      else some (through (BigFloat.ofRat x.prec q))
    | .real y => some (through y)
    | _ => none

/-- A power of an exact number with an inexact exponent. -/
def exactToReal (alg : Algebra) (b : Rat) (y : BigFloat) : Option Expr :=
  realPower alg (BigFloat.ofRat y.prec b) (.real y)

/-! ## Atoms -/

/-- A power of zero: only the sign of the exponent decides. -/
def zeroPower (alg : Algebra) (e : Expr) : Option Expr :=
  let f := e.facts
  if f.positive == some true then some zero
  else if f.negative == some true then some .pole
  else if f.real == some false then some .nan
  else
    let (c, t) := splitCoefficient e
    if c.isNegativeNumber then some (alg.power .pole t)
    else if !c.isOne then some (alg.power zero t)
    else none

/-- A power of the imaginary unit with an exact exponent. -/
def unitPower (q : Rat) : Expr :=
  if q.den = 1 then
    match q.num % 4 with
    | 0 => one
    | 1 => .const .i
    | 2 => minusOne
    | _ => .product [minusOne, .const .i]
  else
    let n := (q / 2).floor
    let rest : Expr := .power (.const .i) (.rat (q - 2 * n))
    if n % 2 = 0 then rest else .product [minusOne, rest]

/-- Whether the first expression is surely below the second. -/
def surelyLess (alg : Algebra) (x y : Expr) : Bool :=
  match x.realValue, y.realValue with
  | some u, some v => u < v
  | _, _ =>
    x.facts.real == some true && y.facts.real == some true &&
      (alg.sub x y).facts.negative == some true

/-- A power with the exponent positive infinity, where it is known how the base compares with one
and minus one. -/
def powerToInfinity (alg : Algebra) (b : Expr) : Option Expr :=
  if b == .posInf || surelyLess alg one b then some .posInf
  else if surelyLess alg minusOne b && surelyLess alg b one then some zero
  else if b == .negInf || surelyLess alg b minusOne then
    match b.facts.finite with
    | some true => some .pole
    | some false => some .nan
    | none => none
  else none

/-- A power of an infinite value. -/
def infinitePower (alg : Algebra) (b e : Expr) : Option Expr :=
  let f := e.facts
  match b with
  | .pole =>
    if e == .pole then some .nan
    else if e.isNumber then some (if e.isPositiveNumber then .pole else zero)
    else none
  | .posInf =>
    if f.positive == some true then some .posInf
    else if f.negative == some true then some zero
    else if f.real == some false && e.isConstant then
      let re := (alg.call .re [e]).facts
      if re.positive == some true then some .pole
      else if re.negative == some true then some zero
      else if re.zero == some true then some .nan
      else none
    else none
  | .negInf =>
    match e.integer? with
    | some n =>
      if n < 0 then some zero else some (if n % 2 = 0 then .posInf else .negInf)
    | none =>
      if e.isInfiniteAtom then some .nan
      else if !e.isConstant then none
      else
        let size := alg.power .posInf e
        if size.isZeroNumber then some size
        else if size == .pole then some .pole
        else some (alg.product [alg.power minusOne e, size])
  | _ => none

/-! ## Powers of powers, products and sums -/

/-- The magnitude of an exponent is below one. -/
def smallExponent (e : Expr) : Bool :=
  match e.realValue with
  | some v => v.abs < 1
  | none => false

/-- Whether an exponent is half of an integer, but not an integer by itself. -/
def isHalf (x : Expr) : Bool :=
  match x with
  | .rat q => q.den == 2
  | .product (.rat q :: fs) => q.den == 2 && fs.all fun f => f.facts.integer == some true
  | _ => false

/-- A finite number below zero. -/
def isFiniteNegative (x : Expr) : Bool :=
  x.facts.negative == some true && x.facts.finite == some true

/-- The angle of a value, where it is known. -/
def angleOf? (b : Expr) : Option Float :=
  if isFiniteNegative b then some Elementary.pi
  else if b.isConstant then b.value.map ComplexFloat.arg
  else none

/-- How many turns a power with a constant exponent adds to the angle of its base beyond the
principal one. -/
def extraTurns? (b e : Expr) : Option Int := do
  if !e.isConstant then none else
    let w ← e.value
    let angle ←
      if w.im == 0 then (angleOf? b).map (w.re * ·)
      else if b.isConstant then b.value.map fun z => (w.mul z.log).im
      else none
    (Binary64.toRat? (0.5 - angle / (2 * Elementary.pi))).map Rat.floor

/-- A power of a power: exponents multiply for whole outer exponents, small inner exponents and
bases that are not negative. Elsewhere the angle of the base decides: the turns that the inner
power adds to it leave a factor, which must be a sign. -/
def powerPower (alg : Algebra) (b e outer : Expr) : Option Expr :=
  let multiply (b : Expr) : Expr := alg.power b (alg.product [e, outer])
  let half := isHalf outer
  let fb := b.facts
  let even : Bool := match e with
    | .rat q => q.den == 1 && q.num % 2 == 0
    | _ => false
  let byTurns (b : Expr) : Option Expr := do
    let turns ← extraTurns? b e
    let s := alg.call .exp [alg.product [int (2 * turns), .const .pi, .const .i, outer]]
    if s.isOne || s.isMinusOne then some (alg.product [s, multiply b]) else none
  if outer.facts.integer == some true then some (multiply b)
  else if e.facts.real == some true then
    if e.isMinusOne && half && isFiniteNegative b then
      some (alg.product [alg.power minusOne outer, alg.power (alg.neg b) (alg.product [e, outer])])
    else if e.isMinusOne && half && fb.negative == some false then
      some (alg.power b (alg.neg outer))
    else
      let b := if even && fb.real == some true && !fb.nonNegative then alg.call .abs [b] else b
      if smallExponent e || e.isOne || b.facts.nonNegative then some (multiply b)
      else if (alg.call .re [b]).facts.nonNegative && smallExponent (alg.product [.half, e]) then
        some (multiply b)
      else if half then byTurns b
      else none
  else if e.facts.real == some false then byTurns b
  else none

/-- A root of an imaginary number with the coefficient `c`, where `|c| / 2` is the square of a
rational number `r`: the number is then the square of `r (1 ± i)`. -/
def imaginaryRoot (alg : Algebra) (c : Rat) (p : Int) : Option Expr := do
  let half := c / 2
  let n ← exactRoot? 2 half.num.natAbs
  let d ← exactRoot? 2 half.den
  let unit : Expr := if c < 0 then .product [minusOne, .const .i] else .const .i
  let turned := alg.power (alg.sum [one, unit]) (int p)
  return rawTimes (wholePower (mkRat n d) p) turned
where
  /-- A number times an expression, not distributed over its terms. -/
  rawTimes (q : Rat) (x : Expr) : Expr :=
    match splitCoefficient x with
    | (.rat c, rest) => if c * q = 1 then rest else rawProduct (.rat (c * q) :: factors rest)
    | _ => rawProduct [.rat q, x]

/-- A power of a product. A whole exponent goes to every factor; any other exact or inexact one
goes to the factors that are not negative. Signs can leave the whole product as its only factor:
then the power stays. -/
def productPower (alg : Algebra) (fs : List Expr) (e : Expr) : Option Expr :=
  let whole := Expr.product fs
  let toAll (xs : List Expr) : List Expr :=
    xs.map fun f => if f == whole then .power f e else alg.power f e
  -- a whole exponent goes to every factor
  if e.integer?.isSome then some (alg.product (toAll fs))
  else
    let fraction : Bool := match e with
      | .rat _ | .real _ => true
      | _ => false
    let root : Option Expr := match fs, e with
      | [.rat c, .const .i], .rat q => if q.den = 2 then imaginaryRoot alg c q.num else none
      | _, _ => none
    if root.isSome then root
    else if !fraction then none
    else
      -- only what is known to be at least zero leaves the root, and the rest stays under it
      let units := fs.filter (· == .const .i)
      let fs := fs.filter fun f => !(f == .const .i)
      let isBad (f : Expr) : Bool := f.facts.negative == some true || f.facts.real == some false
      let good := fs.filter fun f => f.facts.nonNegative
      let bad := fs.filter isBad
      let open_ := (fs.filter fun f => !(f.facts.nonNegative) && !isBad f) ++ units
      let (good, rest) : List Expr × List Expr :=
        -- negative factors leave in pairs: their signs are gathered in what stays
        if bad.length > 1 then
          let (kept, bad') :=
            match bad with
            | n :: more => if open_.isEmpty && n.isNumber then ([n], more) else ([], bad)
            | [] => ([], bad)
          let sign := if bad'.length % 2 = 1 then minusOne else one
          let o := alg.product (sign :: kept)
          (good ++ bad'.map alg.neg, if o.isOne then open_ else open_ ++ [o])
        else
          match bad with
          -- a single negative number leaves its sign behind
          | [n] =>
            if !open_.isEmpty && n.isNumber && !n.isMinusOne then
              (good ++ [negNumber n], open_ ++ [minusOne])
            else (good, open_ ++ [n])
          | _ => (good, open_)
      if good.isEmpty then none
      else
        let rest := if rest.isEmpty then [] else [alg.power (alg.product rest) e]
        some (alg.product (toAll good ++ rest))

/-- A power of a sum. The inverse of a complex number is made real in the denominator, and the
largest inexact coefficient is taken out of the sum. -/
def sumPower (alg : Algebra) (ts : List Expr) (e : Expr) : Option Expr :=
  let constant := (Expr.sum ts).isConstant
  match e with
  | .rat q =>
    if constant then
      match complexNumber? (.sum ts) with
      | some (re, im) =>
        let square := addNumbers (mulNumbers re re) (mulNumbers im im)
        -- the inverse is the conjugate over the square of the absolute value
        if q = -1 then
          some (rawProduct
            [alg.sum [re, alg.product [negNumber im, .const .i]], divNumbers one square])
        -- a root is laid out only where the absolute value is rational
        else if q.den = 2 then
          match alg.sqrt square with
          | .rat d =>
            let root :=
              alg.power (alg.sqrt (alg.product [.half, addNumbers (.rat d) (negNumber re)]))
              (int q.num)
            let turned := alg.sum [divNumbers (addNumbers (.rat d) re) (absNumber im),
              alg.product [if im.isNegativeNumber then minusOne else one, .const .i]]
            some (alg.product [root, expandedPower turned q.num])
          | _ => none
        else none
      | none => none
    else scaled
  | .real _ => scaled
  | _ => none
where
  /-- A whole power of a complex number, multiplied out unless it is the inverse. -/
  expandedPower (z : Expr) (n : Int) : Expr :=
    match complexNumber? z with
    | some (.rat re, .rat im) =>
      if n = -1 then alg.power z minusOne
      else
        let (a, b) := (List.range n.natAbs).foldl
          (fun ((a, b) : Rat × Rat) _ => (a * re - b * im, a * im + b * re)) (1, 0)
        let expanded := alg.sum [.rat a, alg.product [.rat b, .const .i]]
        if n < 0 then alg.power expanded minusOne else expanded
    | _ => alg.power z (int n)
  /-- Divide by the largest coefficient when one of the coefficients is inexact. -/
  scaled : Option Expr :=
    let split := ts.map splitCoefficient
    let isReal : Expr → Bool
      | .real _ => true
      | _ => false
    if e.isOne || e.isMinusOne || !(split.any fun p => isReal p.1) then none
    else
      let big := split.foldl
        (fun b p => if lessNumber (absNumber p.1) b then b else absNumber p.1) minusOne
      if !big.isPositiveNumber || big.orderValue = 1 then none
      else
        let adjusted := split.map fun (c, t) =>
          let c := if absNumber c == big then (if c.isNegativeNumber then minusOne else one)
            else divNumbers c big
          alg.product [c, t]
        some (alg.product [alg.power big e, alg.power (alg.sum adjusted) e])

/-! ## The rule -/

/-- `b ^ (c / log b)` is `exp c`, where `c` has no denominator of its own. -/
def logarithmicExponent? (alg : Algebra) (b e : Expr) : Option Expr :=
  let inverseLog : Expr := .power (.call .log [b]) minusOne
  let isQuotient : Expr → Bool
    | .power _ x | .call .exp [x] => (splitCoefficient x).1.isNegativeNumber
    | _ => false
  let e := match e with
    | .sum _ => if e.functions.contains .log then factored alg e else e
    | e => e
  match e with
  | .product fs =>
    if fs.contains inverseLog && !((fs.erase inverseLog).any isQuotient) then
      some (alg.product (fs.erase inverseLog))
    else none
  | x => if x == inverseLog then some one else none

/-- The rule that belongs to the kind of the base. -/
def powerByBase (alg : Algebra) (b e : Expr) : Option Expr :=
  match b, e with
  | .rat p, .rat q => rationalPower alg p q
  | .rat p, .real y => if p.num = 0 then zeroPower alg e else exactToReal alg p y
  | .rat p, e =>
    if p.num = 0 then zeroPower alg e
    else if p = -1 ∧ e.isEven? = some false then some minusOne
    else if p < 0 ∧ e.isEven? = some true then some (alg.power (.rat (-p)) e)
    else none
  | .real x, e => realPower alg x e
  | .const .e, e => some (alg.call .exp [e])
  | .const .i, .rat q => some (unitPower q)
  | .pole, e | .posInf, e | .negInf, e => infinitePower alg b e
  | .power b' e', e => powerPower alg b' e' e
  | .call .exp [x], e => powerPower alg (.const .e) x e
  | .call .sign [x], .rat q =>
    if x.facts.zero == some false && q.den = 1 && q.num % 2 = 0 then some one else none
  | .call .abs [x], .rat q =>
    if x.facts.real == some true && q.den = 1 then
      if q.num % 2 = 0 then some (alg.power x e)
      else if q = -1 then none
      else some (alg.product [alg.power x (.rat (q - 1)), b])
    else none
  | .product fs, e => productPower alg fs e
  | .sum ts, e => sumPower alg ts e
  | _, _ => none

/-- The canonical power. -/
def powerRule (alg : Algebra) (b e : Expr) : Expr :=
  let infinite : Option Expr := if e == .posInf then powerToInfinity alg b else none
  if e == .pole then .nan
  else if infinite.isSome then infinite.getD .nan
  else if e == zero then one
  else if e.isOne then b
  else if e.isMinusOne && b.isZeroNumber then .pole
  else if e == .band || b == .band then .power b e
  else
    -- a negative number to a whole power leaves at most a sign
    let signed : Option Expr :=
      match e.integer? with
      | some n =>
        let negative : Bool := match b with
          | .product (c :: _) => b.isConstant && c.isNegativeNumber
          | b => b.isNegativeNumber
        if negative then
          let positive := alg.neg b
          some (if n % 2 = 0 then alg.power positive e
            else alg.neg (alg.power positive e))
        else none
      | none => none
    match signed with
    | some r => r
    | none =>
      if b == .nan || e == .nan then .nan
      else if b.isOne then (if e.isInfiniteAtom then .nan else one)
      else
        match logarithmicExponent? alg b e with
        | some c => alg.call .exp [c]
        | none => (powerByBase alg b e).getD (.power b e)

end Graphing.Expr
