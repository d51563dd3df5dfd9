/-
  Graphing.Expr.Facts

  What is known about the value of an expression, whatever its variables
  stand for: whether it is real, finite, zero, positive, negative or an
  integer. A variable may be any complex number, so nothing is known of it.
-/
import Graphing.Expr.Approximate

namespace Graphing

/-- Each field says yes, no, or that the question is open. -/
structure Facts where
  /-- On the real line or one of its two infinite ends. -/
  real : Option Bool := none
  finite : Option Bool := none
  zero : Option Bool := none
  positive : Option Bool := none
  negative : Option Bool := none
  integer : Option Bool := none
  deriving Repr, DecidableEq

namespace Facts

/-! ## Three-valued logic -/

/-- Yes if all are yes, no if one is no. -/
def allOf (xs : List (Option Bool)) : Option Bool :=
  if xs.contains (some false) then some false
  else if xs.all (· == some true) then some true
  else none

/-- The opposite of an answer. -/
def opposite (x : Option Bool) : Option Bool := x.map (!·)

/-! ## Facts of numbers -/

/-- Nothing is known. -/
def unknown : Facts := {}

/-- The facts of a finite real number with the given sign. -/
def ofSign (sign : Int) (integer : Option Bool) : Facts where
  real := some true
  finite := some true
  zero := some (sign == 0)
  positive := some (0 < sign)
  negative := some (sign < 0)
  integer := integer

/-- The facts of an infinite end of the line. -/
def ofInfinity (positive : Bool) : Facts where
  real := some true
  finite := some false
  zero := some false
  positive := some positive
  negative := some !positive
  integer := some false

/-- The facts of a number off the real line. -/
def offLine (finite : Option Bool) : Facts where
  real := some false
  finite := finite
  zero := some false
  positive := some false
  negative := some false
  integer := some false

/-- The facts of a constant with the given value. -/
def ofValue (z : ComplexFloat) (integer : Option Bool) : Facts :=
  if !z.isFinite then unknown
  else if Expr.negligible z.im z then
    ofSign (if z.re > 0 then 1 else if z.re < 0 then -1 else 0) integer
  else if z.im.abs > 1e-9 * z.abs then offLine (some true)
  else unknown

/-- Real and at least zero. -/
def nonNegative (f : Facts) : Bool := f.real == some true && f.negative == some false

/-- Real and at most zero. -/
def nonPositive (f : Facts) : Bool := f.real == some true && f.positive == some false

/-! ## Facts of compound expressions -/

/-- A sum of real parts with one sign has that sign. One part off the real line takes the sum off
it. -/
def ofSum (fs : List Facts) : Facts where
  real := match fs.filter (·.real != some true) with
    | [] => some true
    | [f] => f.real
    | _ => none
  finite := if fs.all (·.finite == some true) then some true else none
  zero :=
    if fs.all nonNegative && fs.any (·.positive == some true) then some false
    else if fs.all nonPositive && fs.any (·.negative == some true) then some false
    else none
  positive :=
    if fs.all nonNegative && fs.any (·.positive == some true) then some true
    else if fs.all nonPositive then some false else none
  negative :=
    if fs.all nonPositive && fs.any (·.negative == some true) then some true
    else if fs.all nonNegative then some false else none
  integer := if fs.all (·.integer == some true) then some true else none

/-- The product of two values. -/
def mul (a b : Facts) : Facts where
  real :=
    if a.real == some true && b.real == some true then some true
    else if (a.real == some false && b.real == some true && b.zero == some false) ||
      (b.real == some false && a.real == some true && a.zero == some false) then some false
    else none
  finite :=
    if a.finite == some true && b.finite == some true then some true
    else if (a.finite == some false && b.zero == some false) ||
      (b.finite == some false && a.zero == some false) then some false
    else none
  zero :=
    if (a.zero == some true && b.finite == some true) ||
      (b.zero == some true && a.finite == some true) then some true
    else if a.zero == some false && b.zero == some false then some false
    else none
  positive :=
    if (a.positive == some true && b.positive == some true) ||
      (a.negative == some true && b.negative == some true) then some true
    else if (a.nonNegative && b.nonPositive) || (a.nonPositive && b.nonNegative) then some false
    else none
  negative :=
    if (a.positive == some true && b.negative == some true) ||
      (a.negative == some true && b.positive == some true) then some true
    else if (a.nonNegative && b.nonNegative) || (a.nonPositive && b.nonPositive) then some false
    else none
  integer := if a.integer == some true && b.integer == some true then some true else none

/-- The product of several values. -/
def ofProduct (fs : List Facts) : Facts := fs.foldl mul (ofSign 1 (some true))

/-- A power with an exponent of which the value may be known. -/
def ofPower (b : Facts) (x : Facts) (exponent : Option Rat) : Facts :=
  let isWhole (q : Rat) (rest : Int) : Bool := q.den == 1 && q.num % 2 == rest
  let even := exponent.any fun q => isWhole q 0
  let odd := exponent.any fun q => isWhole q 1
  let whole := x.integer == some true
  let realExponent := x.real == some true
  -- each of these may use the ones before it
  let real : Option Bool :=
    if b.real != some true || !realExponent then none
    else if b.positive == some true then some true
    else if b.nonNegative && x.nonNegative then some true
    else if whole && (b.zero == some false || x.nonNegative) then some true
    else if b.negative == some true && exponent.any fun q => q.den != 1 then some false
    else none
  let zero : Option Bool :=
    if b.zero == some true then
      if x.positive == some true then some true
      else if x.nonPositive then some false
      else none
    else if b.zero == some false then
      if b.finite == some true && x.finite == some true then some false
      else if x.finite == some true && x.negative == some true then opposite b.finite
      else if x.finite == some true && x.nonNegative then some false
      else none
    else if b.finite == some true && x.finite == some true && x.negative == some true then
      some false
    else none
  let negative : Option Bool :=
    if real == some false then some false
    else if b.negative == some true && odd && b.finite == some true then some true
    else if even && b.real == some true then some false
    else if b.positive == some true && realExponent then some false
    else if b.nonNegative && x.nonNegative then some false
    else none
  let positive : Option Bool :=
    if real == some false || negative == some true then some false
    else if b.positive == some true && b.finite == some true && realExponent &&
      x.finite == some true then some true
    else if b.negative == some true && even then some true
    else if b.nonPositive && odd then some false
    else if real == some true && negative == some false && zero == some false then some true
    else none
  { real := real
    finite :=
      if b.finite == some true && x.finite == some true &&
        (b.zero == some false || x.nonNegative) then some true else none
    zero := zero
    positive := positive
    negative := negative
    integer :=
      if b.integer == some true && whole && x.nonNegative then some true else none }

/-- The facts of the largest of several values, or of the smallest. One finite positive value makes
the largest positive, and one finite negative value the smallest negative, whatever is known of the
others. -/
def ofSelection (largest : Bool) (fs : List Facts) : Facts :=
  let integer := if fs.all (·.integer == some true) then some true else none
  let known (p : Facts → Bool) (f : Facts) : Bool := f.finite == some true && p f
  let positive := known (·.positive == some true)
  let negative := known (·.negative == some true)
  let (above, below) := if largest then (fs.any positive, fs.all negative)
    else (fs.all positive, fs.any negative)
  let notBelow := if largest then fs.any (known nonNegative) else fs.all (known nonNegative)
  let notAbove := fs.all (known nonPositive)
  if above then ofSign 1 integer
  else if below then ofSign (-1) integer
  else if notBelow || notAbove then
    { real := some true
      finite := some true
      positive := if notAbove then some false else none
      negative := if notBelow then some false else none
      integer := integer }
  else
    { real := if fs.all (·.real == some true) then some true else none
      integer := integer }

/-- The facts of a logarithm, from those of the argument and of the argument less one. -/
def ofLog (a less : Facts) : Facts :=
  let real := a.positive == some true
  { real := if real then some true else none
    finite := if a.zero == some true then some false else a.finite
    zero := less.zero
    positive := if real then less.positive else none
    negative := if real && less.nonNegative then some false
      else if real && less.negative == some true then some true
      else none }

/-- The facts of a call, from the facts of its arguments. -/
def ofCall (f : Fn) (args : List Facts) : Facts :=
  let real := allOf (args.map (·.real))
  let onLine : Option Bool := if real == some true then some true else none
  match f, args with
  | .abs, [a] =>
    { real := some true
      finite := a.finite
      zero := a.zero
      positive := opposite a.zero
      negative := some false
      integer := if a.integer == some true then some true else none }
  | .sign, [a] =>
    { real := onLine, finite := some true, zero := a.zero,
      positive := a.positive, negative := a.negative, integer := onLine }
  | .floor, [a] | .ceil, [a] =>
    -- an infinite value has no whole part
    let whole : Option Bool := if a.real == some true && a.finite == some true then some true
      else none
    { real := whole, finite := a.finite, integer := whole,
      negative := if f == .floor && whole == some true then a.negative else none,
      positive := if f == .ceil && whole == some true then a.positive else none }
  | .exp, [a] =>
    { real := onLine, finite := if a.finite == some true then some true else none
      zero := some false, positive := onLine, negative := onLine.map (!·) }
  | .cosh, [a] =>
    { real := onLine, finite := if onLine == some true then some true else a.finite
      positive := onLine, negative := onLine.map (!·), zero := onLine.map (!·) }
  | .sin, [a] | .cos, [a] =>
    { real := onLine, finite := if onLine == some true then some true else none,
      zero := if f == .sin then (if a.zero == some true then some true else none) else none }
  | .sinh, [a] | .tanh, [a] | .atan, [a] =>
    { real := onLine
      finite := match f with
        | .sinh => a.finite
        | .tanh => onLine
        | _ => none
      zero := a.zero, positive := if onLine == some true then a.positive else none,
      negative := if onLine == some true then a.negative else none }
  | .asinh, [a] => { real := onLine, finite := a.finite, zero := a.zero }
  | .log, [a] => ofLog a (ofSum [ofSign (-1) (some true), a])
  | .gamma, [a] =>
    let known := a.positive == some true && a.finite == some true
    { real := if known then some true else none
      positive := if known then some true else none
      negative := if known then some false else none }
  | .factorial, [a] =>
    let known := a.integer == some true && a.nonNegative
    { real := if known || (a.finite == some true && a.nonNegative) then some true else none
      finite := if known then some true else none
      positive := if known then some true else none
      negative := if known then some false else none
      integer := if known then some true else none }
  | .re, [a] => { real := some true, finite := if a.finite == some true then some true else none }
  | .max, fs | .min, fs => ofSelection (f == .max) fs
  | .mod, [a, b] =>
    -- the sign of a finite divisor is that of the remainder
    let bounded (side : Option Bool) : Bool := b.finite == some true && side == some true
    let whole := a.integer == some true && b.integer == some true && b.zero == some false
    let known : Option Bool :=
      if whole || bounded b.positive || bounded b.negative then some true else none
    { real := known
      finite := known
      positive := if bounded b.negative then some false else none
      negative := if bounded b.positive then some false else none
      integer := if whole then some true else none }
  | .atan2, _ => { real := onLine }
  | _, _ => unknown

end Facts

namespace Expr

/-- The exponent if it is an exact number. -/
def exactNumber? : Expr → Option Rat
  | .rat q => some q
  | _ => none

/-- Prefer the value of a constant to what its structure tells. -/
def factsFrom (x : Expr) (structural : Facts) : Facts :=
  if x.isConstant then
    match x.value with
    | some z =>
      let f := Facts.ofValue z structural.integer
      if f == Facts.unknown then structural else f
    | none => structural
  else structural

mutual
/-- What is known of an expression. -/
def facts : Expr → Facts
  | .rat q => .ofSign q.num.sign (some (q.den == 1))
  | .real x => .ofSign x.sign (if x.isInt then none else some false)
  | .const .e | .const .pi => .ofSign 1 (some false)
  | .const .i => .offLine (some true)
  | .pole => .offLine (some false)
  | .posInf => .ofInfinity true
  | .negInf => .ofInfinity false
  | .band => { real := some true }
  | .nan | .var _ | .rule _ => .unknown
  | .function _ | .truth _ | .compare _ _ _ | .logic _ _ | .tuple _ => .unknown
  | .sum ts => factsFrom (.sum ts) (.ofSum (factsOf ts))
  | .product fs => factsFrom (.product fs) (.ofProduct (factsOf fs))
  | .power b x => factsFrom (.power b x) (.ofPower (facts b) (facts x) x.exactNumber?)
  | .call .log [.sum (.rat c :: ts)] =>
    let fs := factsOf ts
    let sum (q : Rat) : Facts := .ofSum (.ofSign q.num.sign none :: fs)
    factsFrom (.call .log [.sum (.rat c :: ts)]) (.ofLog (sum c) (sum (c - 1)))
  | .call f args => factsFrom (.call f args) (.ofCall f (factsOf args))

/-- What is known of several expressions. -/
def factsOf : List Expr → List Facts
  | [] => []
  | x :: xs => facts x :: factsOf xs
end

mutual
/-- Whether an integer is even, as far as its terms and factors tell. -/
def isEven? : Expr → Option Bool
  | .rat q => if q.den = 1 then some (q.num % 2 == 0) else none
  | .product fs =>
    let parities := areEven fs
    if !((factsOf fs).all fun f => f.integer == some true) then none
    else if parities.contains (some true) then some true
    else if parities.all (· == some false) then some false
    else none
  | .sum ts =>
    let parities := areEven ts
    if parities.contains none then none
    else some ((parities.filter (· == some false)).length % 2 == 0)
  | _ => none

/-- Whether several integers are even. -/
def areEven : List Expr → List (Option Bool)
  | [] => []
  | x :: xs => isEven? x :: areEven xs
end

/-- A constant whose place on the real line is known. -/
def isComparable (x : Expr) : Bool := x.realValue.isSome

end Expr
end Graphing
