/-
  Graphing.Notation.Operand

  What the parts of a formula denote. Beside expressions there are plain
  truth values, integers, texts and rows, which no formula is by itself but
  which calls and comparisons take and give. The operations of formulas are
  defined on all of them and have no result where they make no sense.
-/
import Graphing.Expr.Canonical

namespace Graphing.Notation

open CorePower
open Graphing.Expr (call? add sub mul div pow neg int canonical)

/-! ## Operands -/

/-- What a part of a formula denotes. -/
inductive Operand where
  | expr (x : Expr)
  /-- A plain truth value, which counts as one or zero. -/
  | flag (b : Bool)
  /-- A plain integer, as calculating with plain truth values gives. -/
  | whole (n : Int)
  | text (content : String)
  /-- Several operands in a row. A fixed row is written in parentheses, any other in brackets. -/
  | row (isFixed : Bool) (items : List Operand)
  deriving BEq, Repr, Inhabited

namespace Operand

/-- The expression that a scalar operand is. -/
def scalar? : Operand → Option Expr
  | .expr x => if x.isScalar then some x else none
  | .whole n => some (int n)
  | _ => none

/-- The integer that a plain operand counts as. -/
def plain? : Operand → Option Int
  | .flag b => some (if b then 1 else 0)
  | .whole n => some n
  | _ => none

/-- Whether an operand counts as true where a choice depends on it, if it can decide one. -/
def decides? : Operand → Option Bool
  | .flag b => some b
  | .whole n => some (n != 0)
  | .text s => some !s.isEmpty
  | .row _ items => some !items.isEmpty
  | .expr (.truth b) => some b
  | .expr (.compare _ _ _) => none
  | .expr x => some !x.isZeroNumber

/-- Equal operands are the same; truth values and integers are the same in either form. -/
def same : Operand → Operand → Bool
  | .expr (.truth a), .flag b | .flag b, .expr (.truth a) => a == b
  | .expr x, y => (y.plain?.map int).getD .nan == x || .expr x == y
  | x, .expr y => x.plain?.map int == some y
  | x, y =>
    match x.plain?, y.plain? with
    | some a, some b => a == b
    | _, _ => x == y

end Operand

/-! ## Truth values -/

/-- Whether an expression can be connected as a truth value. A variable stands for one as well. -/
def isLogical : Expr → Bool
  | .var _ | .truth _ | .compare _ _ _ | .logic _ _ => true
  | _ => false

/-- The truth value that holds where this one does not. -/
def negation : Expr → Expr
  | .truth b => .truth !b
  | .compare c l r => .compare c.opposite l r
  | .logic .not [x] => x
  | x => .logic .not [x]

/-- Connect truth values by `c`, where `neutral` changes nothing and its opposite decides. -/
def connect (c : Connective) (neutral : Bool) (xs : List Expr) : Expr :=
  let flat := xs.flatMap fun x =>
    match x with
    | .logic d ys => if d == c then ys else [x]
    | x => [x]
  let parts := (flat.filter fun x => !(x == .truth neutral)).eraseDups
  let opposed (x : Expr) : Bool :=
    match x with
    | .compare d l r => parts.contains (.compare d.opposite l r)
    | _ => false
  if parts.contains (.truth !neutral) || parts.any opposed then .truth !neutral
  else
    match parts with
    | [] => .truth neutral
    | [x] => x
    | parts => .logic c parts

/-- The truth value that holds where all do. -/
def conjunction (x y : Expr) : Expr := connect .and true [x, y]

/-- The truth value that holds where one does. -/
def disjunction (x y : Expr) : Expr := connect .or false [x, y]

/-- The truth value that holds unless the first holds and the second does not. -/
def implication (x y : Expr) : Expr :=
  if x == y then .truth true else disjunction (negation x) y

/-! ## Comparisons -/

/-- Compare two expressions on the real line: decided if the order is known. -/
def compareScalars (c : Comparison) (x y : Expr) : Option Expr :=
  let refuses (z : Expr) : Bool := z.facts.real == some false || z == .nan
  if refuses x || refuses y then none
  else
    let known :=
      match c with
      | .atLeast => Expr.atLeast canonical x y
      | .less => (Expr.atLeast canonical x y).map (!·)
      | .atMost => Expr.atLeast canonical y x
      | .greater => (Expr.atLeast canonical y x).map (!·)
    match known with
    | some b => some (.truth b)
    | none => some (.compare c x y)

/-- Compare two integers. -/
def compareIntegers (c : Comparison) (a b : Int) : Bool :=
  match c with
  | .less => a < b
  | .atMost => a ≤ b
  | .greater => a > b
  | .atLeast => a ≥ b

/-- Compare two operands. -/
def compareOperands (c : Comparison) (x y : Operand) : Option Operand :=
  match x.plain?, y.plain? with
  | some a, some b => some (.flag (compareIntegers c a b))
  | _, _ => do return .expr (← compareScalars c (← x.scalar?) (← y.scalar?))

/-- A sign between two operands that are compared: an order, or whether they are the same. -/
inductive Relator where
  | order (c : Comparison)
  | equality (same : Bool)
  deriving DecidableEq, Repr

/-- The sign with the given text. -/
def relator? : String → Option Relator
  | "<" => some (.order .less)
  | "<=" => some (.order .atMost)
  | ">" => some (.order .greater)
  | ">=" => some (.order .atLeast)
  | "==" => some (.equality true)
  | "!=" => some (.equality false)
  | _ => none

/-- The result of a comparison. -/
def Relator.apply : Relator → Operand → Operand → Option Operand
  | .order c, x, y => compareOperands c x y
  | .equality expected, x, y => some (.flag (x.same y == expected))

/-! ## Operations -/

/-- The two's complement operation on integers of any size. -/
def bitwise (f : Bool → Bool → Bool) (a b : Int) : Int :=
  let width := (max a.natAbs b.natAbs).log2 + 2
  let bit (n : Int) (i : Nat) : Bool := n / 2 ^ i % 2 == 1
  let total := (List.range width).foldl
    (fun acc i => if f (bit a i) (bit b i) then acc + 2 ^ i else acc) (0 : Int)
  if f (bit a width) (bit b width) then total - 2 ^ width else total

/-- The largest shift. -/
def maxShift : Int := 100000

/-- A binary operator: how tightly it binds, and its meaning on the different kinds of operands.
An operation that a kind does not have gives no result. -/
structure BinaryOperator where
  level : Nat
  onScalars : Expr → Expr → Option Expr
  /-- On plain integers. -/
  onPlain : Int → Int → Option Int := fun _ _ => none
  /-- On an exact integer and a plain truth value to the right of it. -/
  truthRight : Int → Int → Option Int := fun _ _ => none
  /-- On an exact integer and a plain truth value to the left of it. -/
  truthLeft : Int → Int → Option Int := fun _ _ => none
  /-- On truth values. -/
  onTruths : Option (Expr → Expr → Expr) := none
  /-- Whether two plain truth values give another. -/
  keepsFlags : Bool := false

/-- An operator on integers that treats truth values as integers everywhere. -/
def integerOperator (level : Nat) (onScalars : Expr → Expr → Option Expr)
    (f : Int → Int → Option Int) : BinaryOperator :=
  { level, onScalars, onPlain := f, truthRight := f, truthLeft := f }

/-- An operation that only integers have. -/
def onIntegers (f : Int → Int → Option Int) (x y : Expr) : Option Expr := do
  let a ← x.integer?
  let b ← y.integer?
  return int (← f a b)

/-- The operator of a connective, which works on the bits of integers. -/
def bitOperator (level : Nat) (f : Int → Int → Option Int) (onTruths : Expr → Expr → Expr)
    (keepsFlags : Bool) : BinaryOperator :=
  { integerOperator level (onIntegers f) f with onTruths := some onTruths, keepsFlags }

/-- Multiply by a power of two, unless it is too large. -/
def shiftLeft (a b : Int) : Option Int :=
  if 0 ≤ b ∧ b ≤ maxShift then some (a * 2 ^ b.toNat) else none

/-- Divide by a power of two. -/
def shiftRight (a b : Int) : Option Int :=
  if 0 ≤ b ∧ b ≤ maxShift then some (a / 2 ^ b.toNat) else none

/-- The remainder, with the sign of the divisor. -/
def remainder (a b : Int) : Option Int := if b = 0 then none else some (a.fmod b)

/-- The quotient without its fraction, rounded down. -/
def wholeQuotient (a b : Int) : Option Int := if b = 0 then none else some (a.fdiv b)

/-- The operator with the given text. -/
def binaryOperator? (s : String) : Option BinaryOperator :=
  match s with
  | "|" => some (bitOperator 1 (fun a b => some (bitwise (· || ·) a b)) disjunction true)
  | "&" => some (bitOperator 2 (fun a b => some (bitwise (· && ·) a b)) conjunction true)
  | "<<" => some (bitOperator 3 shiftLeft (fun x y => implication y x) false)
  | ">>" => some (bitOperator 3 shiftRight implication false)
  | "+" => some (integerOperator 4 (fun x y => some (add x y)) fun a b => some (a + b))
  | "-" => some (integerOperator 4 (fun x y => some (sub x y)) fun a b => some (a - b))
  | "*" => some (integerOperator 5 (fun x y => some (mul x y)) fun a b => some (a * b))
  | "/" => some { level := 5, onScalars := fun x y => some (div x y) }
  | "%" => some (integerOperator 5 (fun x y => call? .mod [x, y]) remainder)
  | "//" => some {
      level := 5
      onScalars := fun x y =>
        if x.isNumber && y.isZeroNumber then none else call? .floor [div x y]
      onPlain := wholeQuotient
      truthLeft := wholeQuotient }
  | _ => none

/-- The meaning of an operator on two operands. -/
def BinaryOperator.apply (o : BinaryOperator) (x y : Operand) : Option Operand :=
  let connected (a b : Expr) : Option Operand :=
    match o.onTruths with
    | some f => if isLogical a && isLogical b then some (.expr (f a b)) else none
    | none => none
  let scalars (a b : Expr) : Option Operand :=
    if a.isScalar && b.isScalar then (o.onScalars a b).map .expr else none
  match x, y with
  | .expr a, .expr b => (connected a b).or (scalars a b)
  | .expr a, .whole n => scalars a (int n)
  | .whole n, .expr b => scalars (int n) b
  | .expr a, .flag b =>
    (connected a (.truth b)).or do
      return .expr (int (← o.truthRight (← a.integer?) (if b then 1 else 0)))
  | .flag a, .expr b =>
    (connected (.truth a) b).or do
      return .expr (int (← o.truthLeft (if a then 1 else 0) (← b.integer?)))
  | x, y => do
    let n ← o.onPlain (← x.plain?) (← y.plain?)
    match x, y with
    | .flag _, .flag _ => if o.keepsFlags then return .flag (n != 0) else return .whole n
    | _, _ => return .whole n

/-- The power of two operands. -/
def Operand.power (x y : Operand) : Option Operand :=
  match x.plain?, y.plain? with
  | some a, some b => if 0 ≤ b ∧ b ≤ maxShift then some (.whole (a ^ b.toNat)) else none
  | _, _ => do return .expr (pow (← x.scalar?) (← y.scalar?))

/-- The opposite of an operand. -/
def Operand.opposite (x : Operand) : Option Operand :=
  match x.plain? with
  | some n => some (.whole (-n))
  | none => do return .expr (neg (← x.scalar?))

/-- An operand behind a plus sign. -/
def Operand.positive (x : Operand) : Option Operand :=
  match x.plain? with
  | some n => some (.whole n)
  | none => do return .expr (← x.scalar?)

/-- The complement of an operand: of the bits of an integer, or of a truth value. -/
def Operand.complement : Operand → Option Operand
  | .expr x =>
    if isLogical x then some (.expr (negation x))
    else x.integer?.map fun n => .expr (int (-n - 1))
  | x => x.plain?.map fun n => .whole (-n - 1)

end Graphing.Notation
