/-
  Graphing.Evaluation.Value

  Values that arise when a formula is evaluated. Values sampled from
  arguments follow floating-point arithmetic, where every operation has a
  result; plain constants are stricter, and an operation on them can fail.
-/
import Graphing.Number.ComplexFloat
import Graphing.Expr.Approximate

namespace Graphing

open CorePower

/-! ## Faults -/

/-- Why a formula has no value at some arguments. -/
inductive Fault where
  /-- An argument is outside of a function's domain. -/
  | domain
  /-- A plain constant is too large. -/
  | overflow
  /-- A plain constant is divided by zero. -/
  | zeroDivision
  /-- A function does not take a value of this kind, or this many values. -/
  | unsuitable
  /-- The function has no numerical implementation. -/
  | unavailable
  deriving Repr, DecidableEq

/-- The fault that belongs to a failure of arithmetic. -/
def Fault.ofArithmetic : ArithmeticFault → Fault
  | .domain => .domain
  | .overflow => .overflow
  | .zeroDivision => .zeroDivision

/-! ## Values -/

/-- A value: a plain integer, or a real or complex number, plain or sampled. -/
inductive Value where
  | int (n : Int)
  | real (sampled : Bool) (x : Float)
  | complex (sampled : Bool) (z : ComplexFloat)
  deriving Inhabited

namespace Value

/-- A number that comes from an argument. -/
def sample (x : Float) : Value := .real true x

/-- Whether the value follows floating-point arithmetic. -/
def isSampled : Value → Bool
  | .int _ => false
  | .real s _ => s
  | .complex s _ => s

/-- An integer as a double; too large an integer is a fault. -/
def floatOfInt (n : Int) : Except Fault Float :=
  let x := Binary64.ofInt n
  if x.isInf then .error .overflow else .ok x

/-- A value as a double, if it is real. -/
def toFloat : Value → Except Fault (Option Float)
  | .int n => return some (← floatOfInt n)
  | .real _ x => .ok (some x)
  | .complex _ _ => .ok none

/-- A value as a complex number. -/
def toComplex : Value → Except Fault ComplexFloat
  | .int n => return .ofFloat (← floatOfInt n)
  | .real _ x => .ok (.ofFloat x)
  | .complex _ z => .ok z

/-- Apply an operation to two values, as reals if both are real. -/
def lift (x y : Value) (onReals : Float → Float → Except Fault Value)
    (onComplex : ComplexFloat → ComplexFloat → Except Fault Value) : Except Fault Value := do
  match ← x.toFloat, ← y.toFloat with
  | some a, some b => onReals a b
  | _, _ => onComplex (← x.toComplex) (← y.toComplex)

/-! ## Arithmetic -/

/-- The sum. -/
def add (x y : Value) : Except Fault Value :=
  match x, y with
  | .int a, .int b => .ok (.int (a + b))
  | x, y =>
    let s := x.isSampled || y.isSampled
    lift x y (fun a b => .ok (.real s (a + b))) (fun a b => .ok (.complex s (a.add b)))

/-- The product. -/
def mul (x y : Value) : Except Fault Value :=
  match x, y with
  | .int a, .int b => .ok (.int (a * b))
  | x, y =>
    let s := x.isSampled || y.isSampled
    lift x y (fun a b => .ok (.real s (a * b))) (fun a b => .ok (.complex s (a.mul b)))

/-- The opposite. -/
def neg : Value → Value
  | .int n => .int (-n)
  | .real s x => .real s (-x)
  | .complex s z => .complex s z.neg

/-- The quotient of plain integers, rounded once. -/
def divInts (a b : Int) : Except Fault Value :=
  if b = 0 then .error .zeroDivision
  else
    let x := Binary64.ofQuotient ((a < 0) != (b < 0)) a.natAbs b.natAbs
    if x.isInf then .error .overflow else .ok (.real false x)

/-- The quotient. -/
def div (x y : Value) : Except Fault Value :=
  match x, y with
  | .int a, .int b => divInts a b
  | x, y =>
    let s := x.isSampled || y.isSampled
    lift x y
      (fun a b => if !s && b == 0 then .error .zeroDivision else .ok (.real s (a / b)))
      (fun a b =>
        if !s && b.re == 0 && b.im == 0 then .error .zeroDivision
        else .ok (.complex s (a.div b)))

/-- The largest number of bits of a plain integer power. -/
def maxPowerBits : Nat := 4000000

/-- A power of plain real numbers: a negative base and a fraction give a complex number. -/
def powPlain (a b : Float) : Except Fault Value :=
  if a == 0 && b < 0 then .error .zeroDivision
  else if a < 0 && b.isFinite && a.isFinite && b.floor != b then
    .ok (.complex false ((ComplexFloat.ofFloat a).pow (.ofFloat b)))
  else
    let p := Float.pow a b
    if p.isInf && a.isFinite && b.isFinite then .error .overflow else .ok (.real false p)

/-- The power. -/
def pow (x y : Value) : Except Fault Value :=
  match x, y with
  | .int a, .int b =>
    if 0 ≤ b then
      if (a.natAbs.log2 + 1) * b.toNat > maxPowerBits then .error .overflow
      else .ok (.int (a ^ b.toNat))
    else do
      let u ← floatOfInt a
      let v ← floatOfInt b
      powPlain u v
  | x, y =>
    let s := x.isSampled || y.isSampled
    lift x y
      (fun a b => if s then .ok (.real true (Float.pow a b)) else powPlain a b)
      (fun a b =>
        if !s && a.re == 0 && a.im == 0 && b.re < 0 then .error .zeroDivision
        else .ok (.complex s (a.pow b)))

/-- The remainder with the sign of the divisor. -/
def mod (x y : Value) : Except Fault Value :=
  match x, y with
  | .int a, .int b => if b = 0 then .error .zeroDivision else .ok (.int (Int.fmod a b))
  | x, y =>
    let s := x.isSampled || y.isSampled
    lift x y
      (fun a b =>
        if !s && b == 0 then .error .zeroDivision else .ok (.real s (Binary64.floorRem a b)))
      (fun _ _ => .error .unsuitable)

/-! ## Functions of sampled values -/

/-- A value as a sample. A plain integer must fit into a machine word. -/
def toSample : Value → Except Fault Value
  | .int n =>
    if -(2 ^ (63 : Nat)) ≤ n ∧ n < 2 ^ (64 : Nat) then .ok (.real true (Binary64.ofInt n))
    else .error .unsuitable
  | .real _ x => .ok (.real true x)
  | .complex _ z => .ok (.complex true z)

/-- A function of a sample that is defined on real and complex numbers. -/
def onSample (f : Float → Float) (g : ComplexFloat → ComplexFloat) (x : Value) :
    Except Fault Value := do
  match ← x.toSample with
  | .complex _ z => .ok (.complex true (g z))
  | .real _ a => .ok (.real true (f a))
  | .int _ => .error .unsuitable

/-- A function of a sample that is defined on real numbers only. -/
def onRealSample (f : Float → Float) (x : Value) : Except Fault Value := do
  match ← x.toSample with
  | .real _ a => .ok (.real true (f a))
  | _ => .error .unsuitable

/-- The sign of a real number; NaN stays. -/
def signOf (x : Float) : Float := if x > 0 then 1 else if x < 0 then -1 else if x == 0 then 0 else x

/-- The principal inverse hyperbolic cosine, NaN below one. -/
def acoshOf (x : Float) : Float := if x < 1 then Binary64.nan else x.acosh

/-- The fraction cut off. -/
def truncOf (x : Float) : Float := if x < 0 then x.ceil else x.floor

/-- The gamma function of a value. -/
def gammaOf (shift : Float) (x : Value) : Except Fault Value := do
  match ← x.toFloat with
  | some a =>
    match Gamma.gamma (a + shift) with
    | .ok y => .ok (.real true y)
    | .error e => .error (.ofArithmetic e)
  | none => .error .unsuitable

/-! ## Integers of 64 bits -/

/-- A double as a signed machine word; what does not fit becomes the least word. -/
def wordOf (x : Float) : Int :=
  match Binary64.toRat? x with
  | some q =>
    let n := if q < 0 then -((-q).floor) else q.floor
    if -(2 ^ (63 : Nat)) ≤ n ∧ n < 2 ^ (63 : Nat) then n else -(2 ^ (63 : Nat))
  | none => -(2 ^ (63 : Nat))

/-- A natural number wrapped into a signed machine word. -/
def wrapWord (n : Nat) : Int := Int.bmod n (2 ^ (64 : Nat))

/-- The greatest common divisor of two words, as a word. -/
def gcdWords (a b : Int) : Int := wrapWord (Nat.gcd a.natAbs b.natAbs)

/-- The least common multiple of two words, as a word: the product wraps. -/
def lcmWords (a b : Int) : Int :=
  let g := Nat.gcd a.natAbs b.natAbs
  if g = 0 then 0 else wrapWord (a.natAbs / g * b.natAbs)

/-- Whether a double is a whole number. The infinities count as whole. -/
def isWhole (x : Float) : Bool :=
  match Binary64.parts x with
  | .infinite _ => true
  | _ => (Binary64.toInt? x).isSome

/-- An operation on integers, NaN where an argument is not whole. -/
def onWords (op : Int → Int → Int) (a b : Float) : Float :=
  if isWhole a && isWhole b then Binary64.ofInt (op (wordOf a) (wordOf b)) else Binary64.nan

/-! ## Functions of several samples -/

/-- The sum from left to right. -/
def total (xs : List Float) : Float :=
  match xs with
  | [] => 0
  | x :: rest => rest.foldl (· + ·) x

/-- The mean; NaN without values. -/
def mean (xs : List Float) : Float := total xs / Float.ofNat xs.length

/-- Insert into an ascending list. -/
def insertFloat (x : Float) : List Float → List Float
  | [] => [x]
  | y :: ys => if x ≤ y then x :: y :: ys else y :: insertFloat x ys

/-- The middle value, or the mean of the two middle values; NaN if a value is NaN. -/
def median (xs : List Float) : Float :=
  if xs.isEmpty || xs.any Float.isNaN then Binary64.nan
  else
    let sorted := xs.foldr insertFloat []
    let n := sorted.length
    if n % 2 = 1 then sorted.getD (n / 2) 0
    else (sorted.getD (n / 2 - 1) 0 + sorted.getD (n / 2) 0) / 2

/-- The variance of a sample: the divisor is one less than the number of values. -/
def variance (xs : List Float) : Float :=
  let m := mean xs
  let squares := xs.map fun x => (x - m) * (x - m)
  total squares / Float.ofNat (xs.length - 1)

/-- The real root of a given order; negative numbers have none for even orders. -/
def nthRoot (x n : Float) : Float :=
  if x < 0 && Binary64.floorRem n 2 == 0 then Binary64.nan
  else signOf x * Float.pow x.abs (1 / n)

/-- A value as a real number; a sampled complex number loses its imaginary part. -/
def realPart : Value → Except Fault Float
  | .int n => floatOfInt n
  | .real _ x => .ok x
  | .complex true z => .ok z.re
  | .complex false _ => .error .unsuitable

/-- A function of any number of real samples. -/
def reduce (f : List Float → Float) (xs : List Value) : Except Fault Value := do
  return .real true (f (← xs.mapM realPart))

/-- The value of a function at values. -/
def apply (f : Fn) (xs : List Value) : Except Fault Value :=
  match f, xs with
  | .abs, [x] => do
    match ← x.toSample with
    | .complex _ z => .ok (.real true z.abs)
    | .real _ a => .ok (.real true a.abs)
    | .int _ => .error .unsuitable
  | .sign, [x] => onSample signOf (fun z => if z.re == 0 && z.im == 0 then .zero else
      z.div (.ofFloat z.abs)) x
  | .re, [x] => do
    match x with
    | .complex _ z => .ok (.real true z.re)
    | x => x.toSample
  | .floor, [x] => onRealSample Float.floor x
  | .ceil, [x] => onRealSample Float.ceil x
  | .exp, [x] => onSample Float.exp .exp x
  | .log, [x] => onSample Float.log .log x
  | .sin, [x] => onSample Float.sin .sin x
  | .cos, [x] => onSample Float.cos .cos x
  | .tan, [x] => onSample Float.tan .tan x
  | .asin, [x] => onSample Float.asin .asin x
  | .acos, [x] => onSample Float.acos .acos x
  | .atan, [x] => onSample Float.atan .atan x
  | .sinh, [x] => onSample Float.sinh .sinh x
  | .cosh, [x] => onSample Float.cosh .cosh x
  | .tanh, [x] => onSample Float.tanh .tanh x
  | .asinh, [x] => onSample Float.asinh .asinh x
  | .acosh, [x] => onSample acoshOf .acosh x
  | .atanh, [x] => onSample Float.atanh .atanh x
  | .atan2, [y, x] => do
    match ← y.toSample, ← x.toSample with
    | .real _ b, .real _ a => .ok (.real true (Float.atan2 b a))
    | _, _ => .error .unsuitable
  | .mod, [x, y] => mod x y
  | .gamma, [x] => gammaOf 0 x
  | .factorial, [x] => gammaOf 1 x
  | .cbrt, [x] => onRealSample Float.cbrt x
  | .fix, [x] => onRealSample truncOf x
  | .round, [x] => do return .real true ((← x.realPart) + 0.5).floor
  | .nthroot, [x, n] => do return .real true (nthRoot (← x.realPart) (← n.realPart))
  | .gcd, [x, y] => do return .real true (onWords gcdWords (← x.realPart) (← y.realPart))
  | .lcm, [x, y] => do return .real true (onWords lcmWords (← x.realPart) (← y.realPart))
  | .mean, xs => reduce mean xs
  | .median, xs => reduce median xs
  | .std, xs => reduce (fun ys => (variance ys).sqrt) xs
  | .variance, xs => reduce variance xs
  | .sum, xs => reduce total xs
  | .prod, xs => reduce (fun ys => ys.foldl (· * ·) 1) xs
  | .max, _ | .min, _ => .error .unavailable
  | _, _ => .error .unsuitable

/-! ## Truth values -/

/-- A truth value counts as one or zero. -/
def ofBool (b : Bool) : Value := .int (if b then 1 else 0)

/-- Whether a value counts as true: all but zero do. -/
def isTrue : Value → Bool
  | .int n => n != 0
  | .real _ x => !(x == 0)
  | .complex _ z => !(z.re == 0 && z.im == 0)

/-- Whether two real values compare as told. -/
def compare (c : Comparison) (x y : Value) : Except Fault Value := do
  match ← x.toFloat, ← y.toFloat with
  | some a, some b =>
    return ofBool (match c with
      | .less => a < b
      | .atMost => a ≤ b
      | .greater => a > b
      | .atLeast => a ≥ b)
  | _, _ => .error .unsuitable

/-- Connect truth values. -/
def connect (c : Connective) (xs : List Value) : Value :=
  ofBool (match c with
    | .not => !xs.any isTrue
    | .and => xs.all isTrue
    | .or => xs.any isTrue)

/-- The value of a function at a truth value. The exponential is computed with few digits, and the
sign is not defined. -/
def applyToTruth (f : Fn) (x : Value) : Except Fault Value :=
  match f with
  | .exp => .ok (.real true (if x.isTrue then 2.71875 else 1))
  | .sign => .error .unsuitable
  | f => apply f [x]

/-! ## Results -/

/-- A value as a real number: NaN when it has an imaginary part or is not finite. -/
def toReal : Value → Except Fault Float
  | .int n => do
    let x ← floatOfInt n
    return x
  | .real _ x => .ok (if x.isFinite then x else Binary64.nan)
  | .complex _ z => .ok (if z.im == 0 && z.re.isFinite then z.re else Binary64.nan)

end Value
end Graphing
