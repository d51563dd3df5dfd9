/-
  Graphing.Expr.Basic

  Expressions: exact and inexact numbers, named constants, variables, sums,
  products, powers and function calls, and what a call can take beside them:
  truth values, comparisons, functions that are not called, and tuples. This
  module holds the type and the names that occur in an expression.
-/
import Graphing.Number.BigFloat

namespace Graphing

/-! ## Constants and functions -/

/-- Constants with a name. -/
inductive Constant where
  /-- The base of the natural logarithm. -/
  | e
  | pi
  /-- The imaginary unit. -/
  | i
  deriving DecidableEq, Repr, Hashable

/-- Functions that an expression can call. -/
inductive Fn where
  | abs | ceil | floor | sign | exp | log
  | sin | cos | tan | cot | asin | acos | atan | atan2
  | sinh | cosh | tanh | coth | asinh | acosh | atanh
  | factorial | gamma | max | min | mod | re
  | cbrt | fix | round | nthroot | gcd | lcm
  | mean | median | std | variance | sum | prod
  /-- A function that is known by its name only. -/
  | named (name : String)
  deriving DecidableEq, Repr, Hashable

/-- The name under which messages mention a function. -/
def Fn.name : Fn → String
  | .abs => "Abs" | .ceil => "ceiling" | .floor => "floor" | .sign => "sign"
  | .exp => "exp" | .log => "log" | .sin => "sin" | .cos => "cos" | .tan => "tan"
  | .cot => "cot" | .coth => "coth"
  | .asin => "asin" | .acos => "acos" | .atan => "atan" | .atan2 => "atan2"
  | .sinh => "sinh" | .cosh => "cosh" | .tanh => "tanh"
  | .asinh => "asinh" | .acosh => "acosh" | .atanh => "atanh"
  | .factorial => "factorial" | .gamma => "gamma" | .max => "Max" | .min => "Min"
  | .mod => "Mod" | .re => "re"
  | .cbrt => "cbrt" | .fix => "fix" | .round => "round" | .nthroot => "nthroot"
  | .gcd => "gcd" | .lcm => "lcm" | .mean => "mean" | .median => "median"
  | .std => "std" | .variance => "variance" | .sum => "sum" | .prod => "prod"
  | .named name => name

/-- Functions that have only a numerical meaning, or none: the algebra never simplifies a call of
one. -/
def Fn.isNumerical : Fn → Bool
  | .cbrt | .fix | .round | .nthroot | .gcd | .lcm
  | .mean | .median | .std | .variance | .sum | .prod | .named _ => true
  | _ => false

/-! ## Comparisons and connectives -/

/-- How two expressions are compared. -/
inductive Comparison where
  | less
  | atMost
  | greater
  | atLeast
  deriving DecidableEq, Repr, Hashable

/-- The comparison that holds where this one does not. -/
def Comparison.opposite : Comparison → Comparison
  | .less => .atLeast
  | .atMost => .greater
  | .greater => .atMost
  | .atLeast => .less

/-- How truth values are connected. -/
inductive Connective where
  | not
  | and
  | or
  deriving DecidableEq, Repr, Hashable

/-! ## Expressions -/

/-- An expression in canonical form is built by the functions of `Graphing.Expr.Algebra`: sums and
products are flat, sorted, and have at most one number, which stands first. -/
inductive Expr where
  /-- An exact number. -/
  | rat (q : Rat)
  /-- An inexact number. -/
  | real (x : BigFloat)
  | const (c : Constant)
  /-- The result of an undefined operation. -/
  | nan
  /-- The value at a pole: infinite, without a direction. -/
  | pole
  | posInf
  | negInf
  /-- Any value of a bounded range. -/
  | band
  | var (name : String)
  | sum (terms : List Expr)
  | product (factors : List Expr)
  | power (base exponent : Expr)
  | call (f : Fn) (args : List Expr)
  /-- A function that stands for a formula, not called: it is calculated with like a variable. -/
  | rule (name : String)
  /-- Any other function, not called. -/
  | function (name : String)
  | truth (b : Bool)
  | compare (c : Comparison) (left right : Expr)
  | logic (c : Connective) (parts : List Expr)
  | tuple (parts : List Expr)
  deriving Repr, Hashable, Inhabited

namespace Expr

mutual
/-- Whether two expressions are the same. -/
def beq : Expr → Expr → Bool
  | .rat p, .rat q => p == q
  | .real x, .real y => x == y
  | .const c, .const d => c == d
  | .nan, .nan | .pole, .pole | .posInf, .posInf | .negInf, .negInf | .band, .band => true
  | .var a, .var b | .rule a, .rule b | .function a, .function b => a == b
  | .sum xs, .sum ys | .product xs, .product ys | .tuple xs, .tuple ys => beqAll xs ys
  | .power b e, .power b' e' => beq b b' && beq e e'
  | .call f xs, .call g ys => f == g && beqAll xs ys
  | .truth a, .truth b => a == b
  | .compare c l r, .compare c' l' r' => c == c' && (beq l l' && beq r r')
  | .logic c xs, .logic d ys => c == d && beqAll xs ys
  | _, _ => false

/-- Whether two lists hold the same expressions. -/
def beqAll : List Expr → List Expr → Bool
  | [], [] => true
  | x :: xs, y :: ys => beq x y && beqAll xs ys
  | _, _ => false
end

instance : BEq Expr := ⟨beq⟩

/-- The number zero. -/
def zero : Expr := .rat 0

/-- The number one. -/
def one : Expr := .rat 1

/-- The number minus one. -/
def minusOne : Expr := .rat (-1)

/-- One half. -/
def half : Expr := .rat (mkRat 1 2)

/-- An integer. -/
def int (n : Int) : Expr := .rat n

/-- Whether an expression stands for a number, as all do but those that only a call can take. -/
def isScalar : Expr → Bool
  | .function _ | .truth _ | .compare _ _ _ | .logic _ _ | .tuple _ => false
  | _ => true

/-! ## Names -/

mutual
/-- The variable names in an expression, one for each occurrence. -/
def names : Expr → List String
  | .var name => [name]
  | .sum ts => namesOf ts
  | .product fs => namesOf fs
  | .power b e => names b ++ names e
  | .call _ args => namesOf args
  | .compare _ l r => names l ++ names r
  | .logic _ xs | .tuple xs => namesOf xs
  | _ => []

/-- The variable names in a list of expressions. -/
def namesOf : List Expr → List String
  | [] => []
  | x :: xs => names x ++ namesOf xs
end

/-- Insert a name into an ascending list unless it is there. -/
def insertName (name : String) : List String → List String
  | [] => [name]
  | x :: xs =>
    if name < x then name :: x :: xs
    else if x == name then x :: xs
    else x :: insertName name xs

/-- Names in ascending order, each once. -/
def sortNames (names : List String) : List String := names.foldr insertName []

/-- The variable names of an expression in ascending order, each once. -/
def freeNames (x : Expr) : List String := sortNames x.names

mutual
/-- Functions that an expression calls. -/
def functions : Expr → List Fn
  | .sum ts => functionsOf ts
  | .product fs => functionsOf fs
  | .power b e => functions b ++ functions e
  | .call f args => f :: functionsOf args
  | .compare _ l r => functions l ++ functions r
  | .logic _ xs | .tuple xs => functionsOf xs
  | _ => []

/-- Functions that a list of expressions calls. -/
def functionsOf : List Expr → List Fn
  | [] => []
  | x :: xs => functions x ++ functionsOf xs
end

mutual
/-- Whether all parts are numbers, constants and variables, and nothing that only a call can take
or that is not called. -/
def isPlain : Expr → Bool
  | .sum xs | .product xs | .call _ xs => arePlain xs
  | .power b e => isPlain b && isPlain e
  | .rule _ => false
  | x => x.isScalar

/-- Whether several expressions are plain. -/
def arePlain : List Expr → Bool
  | [] => true
  | x :: xs => isPlain x && arePlain xs
end

mutual
/-- Whether a function that is not called occurs; one that stands for a formula does not count. -/
def holdsFunction : Expr → Bool
  | .function _ => true
  | .sum xs | .product xs | .call _ xs | .logic _ xs | .tuple xs => anyHoldsFunction xs
  | .power b e => holdsFunction b || holdsFunction e
  | .compare _ l r => holdsFunction l || holdsFunction r
  | _ => false

/-- Whether a function that is not called occurs in one of several expressions. -/
def anyHoldsFunction : List Expr → Bool
  | [] => false
  | x :: xs => holdsFunction x || anyHoldsFunction xs
end

/-! ## Laws of equality -/

mutual
theorem beq_iff : ∀ x y : Expr, beq x y = true ↔ x = y
  | .rat p, y => by cases y <;> simp [beq]
  | .real a, y => by cases y <;> simp [beq]
  | .const c, y => by cases y <;> simp [beq]
  | .nan, y => by cases y <;> simp [beq]
  | .pole, y => by cases y <;> simp [beq]
  | .posInf, y => by cases y <;> simp [beq]
  | .negInf, y => by cases y <;> simp [beq]
  | .band, y => by cases y <;> simp [beq]
  | .var a, y => by cases y <;> simp [beq]
  | .rule a, y => by cases y <;> simp [beq]
  | .function a, y => by cases y <;> simp [beq]
  | .truth a, y => by cases y <;> simp [beq]
  | .sum xs, y => by cases y <;> simp [beq, beqAll_iff xs]
  | .product xs, y => by cases y <;> simp [beq, beqAll_iff xs]
  | .tuple xs, y => by cases y <;> simp [beq, beqAll_iff xs]
  | .power b e, y => by cases y <;> simp [beq, beq_iff b, beq_iff e]
  | .call f xs, y => by cases y <;> simp [beq, beqAll_iff xs]
  | .compare c l r, y => by cases y <;> simp [beq, beq_iff l, beq_iff r]
  | .logic c xs, y => by cases y <;> simp [beq, beqAll_iff xs]

theorem beqAll_iff : ∀ xs ys : List Expr, beqAll xs ys = true ↔ xs = ys
  | [], ys => by cases ys <;> simp [beqAll]
  | x :: xs, ys => by cases ys <;> simp [beqAll, beq_iff x, beqAll_iff xs]
end

instance : LawfulBEq Expr where
  rfl := (beq_iff _ _).mpr rfl
  eq_of_beq := (beq_iff _ _).mp

instance : DecidableEq Expr := fun x y => decidable_of_iff _ (beq_iff x y)

end Expr
end Graphing
