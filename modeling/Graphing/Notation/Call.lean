/-
  Graphing.Notation.Call

  The meaning of names and calls. Every function takes numbers; what happens
  when it is given a function that is not called, a truth value or a row is
  said for each function apart.
-/
import Graphing.Notation.Operand
import Graphing.Notation.Vocabulary
import Graphing.Text.Character

namespace Graphing.Notation

open Graphing.Expr (call? canonical add sub mul div pow neg int)

/-! ## Names -/

/-- What a name stands for when it is not called. -/
def nameValue? (s : String) : Option Operand :=
  if s == "e" then some (.expr (.const .e))
  else if s == "pi" then some (.expr (.const .pi))
  else if s == "i" then some (.expr (.const .i))
  else if s == "True" then some (.flag true)
  else if s == "False" then some (.flag false)
  else if isLetterVariable s then some (.expr (.var s))
  else if ruleNames.contains s then some (.expr (.rule s))
  else if callables.contains s && s != "sqrt" then some (.expr (.function s))
  else none

/-! ## Functions of the algebra -/

/-- The functions of the algebra that are called by their own name. -/
def plainFunction? (name : String) : Option (Fn × Nat) :=
  match name with
  | "abs" | "norm" => some (.abs, 1)
  | "ceil" => some (.ceil, 1)
  | "floor" => some (.floor, 1)
  | "sign" => some (.sign, 1)
  | "exp" => some (.exp, 1)
  | "factorial" => some (.factorial, 1)
  | "gamma" => some (.gamma, 1)
  | "sin" => some (.sin, 1)
  | "cos" => some (.cos, 1)
  | "tan" => some (.tan, 1)
  | "asin" => some (.asin, 1)
  | "acos" => some (.acos, 1)
  | "atan" => some (.atan, 1)
  | "atan2" => some (.atan2, 2)
  | "sinh" => some (.sinh, 1)
  | "cosh" => some (.cosh, 1)
  | "tanh" => some (.tanh, 1)
  | "asinh" => some (.asinh, 1)
  | "acosh" => some (.acosh, 1)
  | "atanh" => some (.atanh, 1)
  | _ => none

/-- Functions that take any number of arguments. -/
def openFunction? (name : String) : Option Fn :=
  match name with
  | "max" => some .max
  | "min" => some .min
  | "cbrt" => some .cbrt
  | "fix" => some .fix
  | "round" => some .round
  | "nthroot" => some .nthroot
  | "gcd" => some .gcd
  | "lcm" => some .lcm
  | "mean" => some .mean
  | "median" => some .median
  | "std" => some .std
  | "variance" => some .variance
  | "sum" => some .sum
  | "prod" => some .prod
  | _ => none

/-! ## Arguments that are no numbers -/

/-- Whether an expression is a function that is not called and has only a numerical meaning. -/
def isNumericalFunction : Expr → Bool
  | .function name => (plainFunction? name).isNone &&
      (openFunction? name).all fun f => f.isNumerical
  | _ => false

/-- The angle of a point, one coordinate of which is a function that is not called. Such a
coordinate passes for zero and for a positive number alike, and so it must not be divided by. -/
def angleAtFunction? : (y x : Expr) → Option Expr
  | .function _, .function _ => some .nan
  | .function f, x =>
    if x.facts.real == some true then
      if x.facts.zero == some true then some (div (.const .pi) (int 2)) else none
    else if x.isScalar && x.isConstant then none
    else some (.call .atan2 [.function f, x])
  | y, x =>
    if y.facts.real == some true || (y.isScalar && y.isConstant) then none
    else some (.call .atan2 [y, x])

/-- The value of a function at arguments of which one at least is no number: a function that is not
called passes for zero wherever zero has a value of its own. -/
def callAtOther? (f : Fn) (args : List Expr) : Option Expr :=
  match f, args with
  | .factorial, _ => some (.call f args)
  | .gamma, [.function _] => some .pole
  | .sign, [.function _] | .asinh, [.function _] => some .zero
  | .exp, [.function _] => some .one
  | .acosh, [.function _] => some (div (mul (.const .pi) (.const .i)) (int 2))
  | .log, [.function name] => if name == "abs" || name == "norm" then some .pole else none
  | .atan2, [y, .function g] => angleAtFunction? y (.function g)
  | .atan2, [.function g, x] => angleAtFunction? (.function g) x
  | .gamma, _ | .sign, _ | .exp, _ | .acosh, _ | .atan2, _ => some (.call f args)
  | f, args =>
    if f.isNumerical && !(args.any isNumericalFunction) then some (.call f args) else none

/-- The value of a function at any arguments. -/
def valueAt? (f : Fn) (args : List Expr) : Option Expr :=
  if args.all Expr.isScalar then call? f args else callAtOther? f args

/-! ## Functions that stand for a formula -/

/-- The inverse of a value. -/
def inverse (x : Expr) : Expr := div .one x

/-- The call of a function of one argument at the inverse of the argument. -/
def atInverse (f : Fn) (x : Expr) : Option Expr := call? f [inverse x]

/-- The inverse of a call. -/
def inverseOf (f : Fn) (x : Expr) : Option Expr := do
  let y ← valueAt? f [x]
  if y.isScalar then return inverse y else none

/-- The quotient of factorials that counts selections without regard to order. -/
def combinations? (n k : Expr) : Option Expr := do
  let top ← call? .factorial [n]
  let chosen ← call? .factorial [k]
  let rest ← call? .factorial [sub n k]
  return canonical.product [top, canonical.inv chosen, canonical.inv rest]

/-- The quotient of factorials that counts selections in order. -/
def permutations? (n k : Expr) : Option Expr := do
  let top ← call? .factorial [n]
  let rest ← call? .factorial [sub n k]
  return mul top (canonical.inv rest)

/-- A function of one argument that works out another function first, and so takes whatever that
one takes. -/
def composedCall? (name : String) (x : Expr) : Option Expr :=
  match name with
  | "expm1" => (valueAt? .exp [x]).map fun y => add y .minusOne
  | "log10" => (valueAt? .log [x]).map fun y => div y (canonical.call .log [int 10])
  | "log2" => (valueAt? .log [x]).map fun y => div y (canonical.call .log [int 2])
  | "sec" => inverseOf .cos x
  | "csc" => inverseOf .sin x
  | "cot" => inverseOf .tan x
  | "sech" => inverseOf .cosh x
  | "csch" => inverseOf .sinh x
  | "coth" => inverseOf .tanh x
  | _ => none

/-- A power with a truth value as exponent, which says nothing about the value. -/
def truthPower? (x : Expr) (b : Bool) : Option Expr :=
  if x.isZeroNumber || x.isOne then none
  else if x == .const .e then some (.call .exp [.truth b])
  else some (.power x (.truth b))

/-- A function that calculates with its arguments before it calls another one, and so takes numbers
only. -/
def numberCall? (name : String) (args : List Expr) : Option Expr :=
  match name, args with
  | "log1p", [x] => call? .log [add .one x]
  | "square", [x] => some (pow x (int 2))
  | "cube", [x] => some (pow x (int 3))
  | "pow", [x, y] => some (pow x y)
  | "combinations", [n, k] => combinations? n k
  | "permutations", [n, k] => permutations? n k
  | "asec", [x] => atInverse .acos x
  | "acsc", [x] => atInverse .asin x
  | "acot", [x] => atInverse .atan x
  | "asech", [x] => atInverse .acosh x
  | "acsch", [x] => atInverse .asinh x
  | "acoth", [x] => atInverse .atanh x
  | _, _ => none

/-! ## Names that make numbers and names -/

/-- A rational number cut off at the point. -/
def truncate (q : Rat) : Int := if q < 0 then -((-q).floor) else q.floor

/-- A whole number made from a real constant by cutting its fraction off. -/
def truncated? : Expr → Option Expr
  | .rat q => some (int (truncate q))
  | .real x => some (int (truncate x.toRat))
  | x => do return int (truncate (← Binary64.toRat? (← x.realValue)))

/-- The exact value of a number. -/
def exactValue? : Expr → Option Rat
  | .rat q => some q
  | .real x => some x.toRat
  | _ => none

/-- The number that an operand makes. A text must consist of digits and of the marks that such a
number is written with. -/
def numeral? (read : String → Option Expr) (marks : List Char) : Operand → Option Expr
  | .expr x => some x
  | .text s =>
    if s.toList.all fun c => Text.isAsciiDigit c || marks.contains c then read s else none
  | x => x.plain?.map int

/-- What a maker makes of its arguments. -/
def make? (read : String → Option Expr) (name : String) (args : List Operand) : Option Expr :=
  match name, args with
  | "Symbol", [.text s] => some (.var s)
  | "Function", [.text s] | "Function", [.expr (.var s)] => some (.function s)
  | "Integer", [x] => do truncated? (← numeral? read [] x)
  | "Float", [x] => do
    match ← numeral? read ['.'] x with
    | .rat q => some (.real (BigFloat.ofRat BigFloat.ordinary q))
    | .real x => some (.real x)
    | _ => none
  | "Rational", [x] => do return .rat (← exactValue? (← numeral? read ['/'] x))
  | "Rational", [x, y] => do
    let p ← exactValue? (← numeral? read ['/'] x)
    let q ← exactValue? (← numeral? read ['/'] y)
    return div (.rat p) (.rat q)
  | _, _ => none

/-! ## Calls -/

/-- The arguments of a call. -/
structure Arguments where
  /-- Those that are told by their position. -/
  operands : List Operand := []
  /-- Whether the call is worked out, where the call says so. -/
  evaluate : Option Operand := none
  /-- The names of other arguments. They have no meaning, but a selection puts up with them. -/
  others : List String := []

/-- The expression that a function is given for an operand. `read` reads a text. -/
def argument? (read : String → Option Expr) : Operand → Option Expr
  | .expr x => some x
  | .flag b => some (.truth b)
  | .whole n => some (int n)
  | .text s => read s
  | .row isFixed items => if isFixed then (parts items).map .tuple else none
where
  /-- The expressions for the operands of a row. -/
  parts : List Operand → Option (List Expr)
  | [] => some []
  | x :: xs => do return (← argument? read x) :: (← parts xs)

/-- A call that is not worked out. Even so a selection drops what is repeated, and is not left with
a single argument or none. -/
def bareCall (f : Fn) (args : List Expr) : Expr :=
  match f, args.eraseDups with
  | .max, [] => .negInf
  | .min, [] => .posInf
  | .max, [x] | .min, [x] => x
  | .max, xs | .min, xs => .call f xs
  | f, _ => .call f args

/-- A call of a function of the algebra. It is left as it is if it is not to be worked out. -/
def functionCall? (read : String → Option Expr) (f : Fn) (args : Arguments) : Option Expr := do
  let xs ← args.operands.mapM (argument? read)
  match args.evaluate with
  | none => valueAt? f xs
  | some e => if ← e.decides? then valueAt? f xs else return bareCall f xs

/-- The logarithm, to the base that is the second argument if there is one. -/
def logCall? (read : String → Option Expr) (args : Arguments) : Option Expr :=
  match args.operands with
  | [_] => functionCall? read .log args
  | [x, b] => do return Expr.logToBase canonical (← x.scalar?) (← b.scalar?)
  | _ => none

/-- The square root. A second argument tells whether it is worked out. -/
def rootCall? (args : Arguments) : Option Expr := do
  let (x, evaluate) ← match args.operands, args.evaluate with
    | [x], e => some (x, e)
    | [x, e], none => some (x, some e)
    | _, _ => none
  let x ← x.scalar?
  match evaluate with
  | none => return canonical.sqrt x
  | some e => return if ← e.decides? then canonical.sqrt x else .power x .half

/-- A call of a function that stands for a formula. -/
def ruleCall? (read : String → Option Expr) (name : String) (args : List Operand) : Option Expr :=
  match name, args with
  | "pow", [.flag _, .expr (.rat q)] => if q = 0 then some .one else none
  | "pow", [x, .flag b] | "pow", [x, .expr (.truth b)] => do truthPower? (← x.scalar?) b
  | name, [x] =>
    match x.scalar? with
    | some x => (numberCall? name [x]).or (composedCall? name x)
    | none => do composedCall? name (← argument? read x)
  | name, args => do numberCall? name (← args.mapM Operand.scalar?)

/-- A selection that names arguments without a meaning: only one that comes down to a single value
has a result. -/
def looseSelection? (read : String → Option Expr) (f : Fn) (args : Arguments) : Option Expr := do
  match ← functionCall? read f args with
  | .call g xs => if g == f then none else return .call g xs
  | x => return x

/-- The meaning of a call all of whose arguments have a meaning. -/
def plainCall? (read : String → Option Expr) (name : String) (args : Arguments) : Option Expr :=
  match plainFunction? name with
  | some (f, arity) =>
    if args.operands.length = arity then functionCall? read f args else none
  | none =>
    match openFunction? name with
    | some f => functionCall? read f args
    | none =>
      if name == "log" || name == "ln" then logCall? read args
      else if name == "sqrt" then rootCall? args
      else if args.evaluate.isSome then none
      else if makers.contains name then make? read name args.operands
      else ruleCall? read name args.operands

/-- The meaning of a call, if the function takes these arguments. -/
def applyName? (read : String → Option Expr) (name : String) (args : Arguments) : Option Expr :=
  if args.others.isEmpty then plainCall? read name args
  else
    match openFunction? name with
    | some f => if f.isNumerical then none else looseSelection? read f args
    | none => none

/-- The call of what an operand stands for: a function that was not called yet. -/
def applyOperand? (read : String → Option Expr) (x : Operand) (args : Arguments) : Option Expr :=
  match x with
  | .expr (.function name) =>
    if commonFunctions.contains name || (openFunction? name).isSome then applyName? read name args
    else do callAtOther? (.named name) (← args.operands.mapM (argument? read))
  | .expr (.rule name) => applyName? read name args
  | _ => none

end Graphing.Notation
