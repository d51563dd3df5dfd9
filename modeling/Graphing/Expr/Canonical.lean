/-
  Graphing.Expr.Canonical

  The algebra of canonical expressions. The rules for sums, products, powers
  and calls use each other; here they are stacked into levels, each of which
  calls the level below, so that every simplification ends.
-/
import Graphing.Expr.Function.Remainder
import Graphing.Expr.Function.Selection

namespace Graphing.Expr

/-! ## Calls with inexact arguments -/

/-- A sum or number with an inexact part. -/
def isInexact (x : Expr) : Bool :=
  match x with
  | .real _ => true
  | .sum _ =>
    match complexNumber? x with
    | some (.real _, _) | some (_, .real _) => true
    | _ => false
  | _ => false

/-- A complex value as an expression. -/
def ofComplex (alg : Algebra) (z : ComplexFloat) : Expr :=
  alg.sum [ofFloat z.re, alg.product [ofFloat z.im, .const .i]]

/-- The value of a call all of whose arguments are inexact. -/
def inexactCall? (alg : Algebra) (f : Fn) (args : List Expr) : Option Expr :=
  if f.isNumerical || args.isEmpty || !(args.all isInexact) then none
  else
    match f, args with
    | .exp, [.real x] => x.exp.map ofReal
    | .log, [.real x] => if 0 < x.sign then x.log.map ofReal else none
    | .atanh, [.real x] =>
      if x.toRat = 1 then some .posInf
      else if x.toRat = -1 then some .negInf
      else (fnValue f [.ofFloat x.toFloat]).map (ofComplex alg)
    | .max, _ | .min, _ => none
    | f, args => do
      let zs ← values args
      let z ← fnValue f zs
      return ofComplex alg z

/-! ## The rule for calls -/

/-- The special value of a call, if it has one. -/
def specialValue (alg : Algebra) : Fn → List Expr → Option Expr
  | .abs, [x] => absRule alg x
  | .sign, [x] => signRule alg x
  | .re, [x] => reRule alg x
  | .floor, [x] => roundRule alg .floor false x
  | .ceil, [x] => roundRule alg .ceil true x
  | .exp, [x] => expRule alg x
  | .log, [x] => logRule alg x
  | .gamma, [x] => gammaRule alg x
  | .factorial, [x] => factorialRule x
  | .sin, [x] => sinRule alg x
  | .cos, [x] => cosRule alg x
  | .tan, [x] => tanRule alg x
  | .cot, [x] => cotRule alg x
  | .asin, [x] => asinRule alg x
  | .acos, [x] => acosRule alg x
  | .atan, [x] => atanRule alg x
  | .atan2, [y, x] => atan2Rule alg y x
  | .sinh, [x] => sinhRule alg x
  | .cosh, [x] => coshRule alg x
  | .tanh, [x] => tanhRule alg x
  | .coth, [x] => cothRule alg x
  | .asinh, [x] => asinhRule alg x
  | .acosh, [x] => acoshRule alg x
  | .atanh, [x] => atanhRule alg x
  | .mod, [x, y] => modRule alg x y
  | .max, xs => selectionRule alg .max xs
  | .min, xs => selectionRule alg .min xs
  | _, _ => none

/-- The canonical call: a special value, a number if all arguments are inexact, or the call. -/
def callRule (alg : Algebra) (f : Fn) (args : List Expr) : Expr :=
  let settle (g : Fn) (xs : List Expr) : Expr := (inexactCall? alg g xs).getD (.call g xs)
  match specialValue alg f args with
  | some (.call g xs) => settle g xs
  | some r => r
  | none => settle f args

/-! ## Levels -/

/-- The algebra whose rules may nest to the given depth. -/
def level : Nat → Algebra
  | 0 => .free
  | n + 1 =>
    let below := level n
    { sum := sumRule below
      product := productRule below
      power := powerRule below
      call := callRule below }

/-- The depth to which rules may nest. -/
def depth : Nat := 120

/-- The algebra of canonical expressions. -/
def canonical : Algebra := level depth

/-! ## Operations of formulas -/

/-- The canonical sum of two expressions. -/
def add (x y : Expr) : Expr := canonical.sum [x, y]

/-- The canonical difference of two expressions. -/
def sub (x y : Expr) : Expr := canonical.sub x y

/-- The canonical product of two expressions. -/
def mul (x y : Expr) : Expr := canonical.product [x, y]

/-- The canonical quotient; two numbers are divided directly. -/
def div (x y : Expr) : Expr :=
  if x.isNumber && y.isNumber && !y.isZeroNumber then divNumbers x y
  else canonical.div x y

/-- The canonical power. -/
def pow (x y : Expr) : Expr := canonical.power x y

/-- The canonical opposite. -/
def neg (x : Expr) : Expr := canonical.neg x

/-- Arguments at which a function has no meaning at all, not even a symbolic one: constants that
cannot be ordered under a selection (unless an argument before them settles it), a remainder by
zero, and an inexact pole of the factorial. -/
def accepts (f : Fn) (args : List Expr) : Bool :=
  match f, args with
  | .max, xs | .min, xs => (xs.takeWhile fun x => x != f.otherEnd.weakest).all isOrderable
  | .mod, [_, y] => !(y.facts.zero == some true)
  | .factorial, [.real x] => !(x.isInt && x.sign < 0)
  | _, _ => true

/-- The canonical call, if the function takes the arguments. -/
def call? (f : Fn) (args : List Expr) : Option Expr :=
  if accepts f args then some (canonical.call f args) else none

/-- Replace variables and bring the result into canonical form again. -/
def mapVars (rename : String → Expr) : Expr → Expr
  | .var name => rename name
  | .sum ts => canonical.sum (mapAll rename ts)
  | .product fs => canonical.product (mapAll rename fs)
  | .power b e => canonical.power (mapVars rename b) (mapVars rename e)
  | .call f args => canonical.call f (mapAll rename args)
  | .compare c l r => .compare c (mapVars rename l) (mapVars rename r)
  | .logic c xs => .logic c (mapAll rename xs)
  | .tuple xs => .tuple (mapAll rename xs)
  | x => x
where
  /-- Replace variables in a list of expressions. -/
  mapAll (rename : String → Expr) : List Expr → List Expr
  | [] => []
  | x :: xs => mapVars rename x :: mapAll rename xs

end Graphing.Expr
