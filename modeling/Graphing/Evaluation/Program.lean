/-
  Graphing.Evaluation.Program

  Programs: expressions laid out for evaluation. A program fixes the order in
  which terms are added and factors multiplied, and which factors go below the
  fraction bar, so that it fixes the rounding of its value.
-/
import Graphing.Expr.Canonical
import Graphing.Evaluation.Value

namespace Graphing

/-! ## Programs -/

/-- An expression laid out for evaluation, with arguments by position. -/
inductive Program where
  | int (n : Int)
  /-- A quotient of plain integers. -/
  | ratio (num : Int) (den : Nat)
  /-- A plain constant. -/
  | literal (x : Float)
  /-- A value with sampled arithmetic. -/
  | sampled (x : Float)
  | imaginary
  | argument (i : Nat)
  | sum (ts : List Program)
  /-- A product over a product, with a sign. -/
  | product (negative : Bool) (top bottom : List Program)
  | power (b e : Program)
  | squareRoot (x : Program)
  | call (f : Fn) (args : List Program)
  | truth (b : Bool)
  | compare (c : Comparison) (left right : Program)
  | logic (c : Connective) (parts : List Program)
  /-- The value of a function at a truth value. -/
  | callTruth (f : Fn) (x : Program)
  /-- A part that has no value. -/
  | missing (e : Fault)
  deriving Inhabited

/-- A part of an expression that has no single value. -/
inductive Hole where
  /-- The value at a pole. -/
  | pole
  /-- Any value of a range. -/
  | band
  deriving Repr, DecidableEq

/-- Why an expression has no program. -/
inductive CompileError where
  /-- The expression has variables that are not bound. -/
  | unbound (names expected : List String)
  /-- The expression calls functions without a numerical form. -/
  | unsupported (names : List String)
  /-- A function that is not called cannot be written out. -/
  | uncalled
  /-- A part of the expression has no single value. -/
  | hole (h : Hole)
  deriving Repr, DecidableEq

namespace CompileError

/-- The wording of the error, if it has one. -/
def message? : CompileError → Option String
  | .unbound names expected =>
    some ("Expression contains unbound symbols: " ++ String.intercalate ", " names ++
      ". Expected only (" ++ String.intercalate ", " expected ++ ").")
  | .unsupported names =>
    some ("Expression contains function(s) without a NumPy implementation: " ++
      String.intercalate ", " names)
  | .uncalled | .hole _ => none

end CompileError

namespace Program

/-! ## Evaluation -/

mutual
/-- The value of a program at arguments. -/
def eval (args : Nat → Option Value) : Program → Except Fault Value
  | .int n => .ok (.int n)
  | .ratio num den => Value.divInts num den
  | .literal x => .ok (.real false x)
  | .sampled x => .ok (.real true x)
  | .imaginary => .ok (.complex false .unit)
  | .argument i =>
    match args i with
    | some v => .ok v
    | none => .error .unsuitable
  | .sum [] => .ok (.int 0)
  | .sum (t :: ts) => do evalSum args (← eval args t) ts
  | .product negative top bottom => do
    let numerator ←
      match top with
      | [] => pure (Value.int (if negative then -1 else 1))
      | f :: fs => do
        let first ← eval args f
        evalProduct args (if negative then first.neg else first) fs
    match bottom with
    | [] => return numerator
    | f :: fs => numerator.div (← evalProduct args (← eval args f) fs)
  | .power b e => do
    let x ← eval args b
    x.pow (← eval args e)
  | .squareRoot x => do
    (← eval args x).onSample Float.sqrt ComplexFloat.sqrt
  | .call f xs => do Value.apply f (← evalAll args xs)
  | .truth b => .ok (.ofBool b)
  | .compare c l r => do
    let x ← eval args l
    Value.compare c x (← eval args r)
  | .logic c xs => do return Value.connect c (← evalAll args xs)
  | .callTruth f x => do Value.applyToTruth f (← eval args x)
  | .missing e => .error e

/-- Add the values of terms from left to right. -/
def evalSum (args : Nat → Option Value) (acc : Value) : List Program → Except Fault Value
  | [] => .ok acc
  | t :: ts => do evalSum args (← acc.add (← eval args t)) ts

/-- Multiply the values of factors from left to right. -/
def evalProduct (args : Nat → Option Value) (acc : Value) : List Program → Except Fault Value
  | [] => .ok acc
  | f :: fs => do evalProduct args (← acc.mul (← eval args f)) fs

/-- The values of several programs. -/
def evalAll (args : Nat → Option Value) : List Program → Except Fault (List Value)
  | [] => .ok []
  | x :: xs => do return (← eval args x) :: (← evalAll args xs)
end

/-! ## Layout -/

/-- The program of a number. -/
def ofRat (q : Rat) : Program := if q.den = 1 then .int q.num else .ratio q.num q.den

/-- The program of an exponent: negative integers become inexact. -/
def negativeExponent (e : Expr) : Option Program :=
  match e with
  | .rat q => if q.den = 1 ∧ q < 0 then some (.literal (Binary64.ofRat q)) else none
  | _ => none

/-- A number that stands below the fraction bar: a power with a negative fraction as exponent. -/
def denominator? : Expr → Option Expr
  | .power b (.rat q) =>
    if q < 0 then some (if q = -1 then b else .power b (.rat (-q))) else none
  | _ => none

/-- The program of an expression whose variables are arguments by position. -/
def layout (position : String → Option Nat) : (fuel : Nat) → Expr → Except CompileError Program
  | 0, _ => .error (.hole .band)
  | fuel + 1, x =>
    let go := layout position fuel
    match x with
    | .rat q => .ok (ofRat q)
    | .real r => .ok (.literal r.written)
    | .const .e => .ok (.literal Elementary.euler)
    | .const .pi => .ok (.literal Elementary.pi)
    | .const .i => .ok .imaginary
    | .nan => .ok (.literal Binary64.nan)
    | .posInf => .ok (.literal Binary64.posInf)
    | .negInf => .ok (.literal Binary64.negInf)
    | .pole => .error (.hole .pole)
    | .band => .error (.hole .band)
    | .var name =>
      match position name with
      | some i => .ok (.argument i)
      | none => .ok (.missing .unsuitable)
    | .sum ts => do return .sum (← (Expr.orderTerms ts).mapM go)
    | .product fs => do
      let (c, rest) := Expr.splitCoefficient (.product fs)
      let negative := c.isNegativeNumber
      let c := Expr.absNumber c
      let ordered := Expr.sortByKey (if c.isOne then Expr.factors rest else c :: Expr.factors rest)
      let top := ordered.filter fun f => (denominator? f).isNone
      let bottom := ordered.filterMap denominator?
      return .product negative (← top.mapM go) (← bottom.mapM go)
    | .power b e => do
      match e with
      | .rat q =>
        if q = mkRat 1 2 then return .squareRoot (← go b)
        else if q = mkRat (-1) 2 then return .product false [] [.squareRoot (← go b)]
        else
          match negativeExponent e with
          | some p => return .power (← go b) p
          | none => return .power (← go b) (ofRat q)
      | e => return .power (← go b) (← go e)
    | .call f args =>
      match f, args with
      | .cot, [a] => do return .product false [] [.call .tan [← go a]]
      | .coth, [a] => do
        let p ← go a
        let rising := Program.call .exp [p]
        let falling := Program.call .exp [.product true [p] []]
        return .product false [.sum [rising, falling]]
          [.sum [rising, .product true [falling] []]]
      | f, [a] => do
        let p ← go a
        if a.isScalar || f.isNumerical then return .call f [p] else return .callTruth f p
      | f, args => do return .call f (← args.mapM go)
    | .rule _ => .ok (.missing .unavailable)
    | .function _ => .error .uncalled
    | .truth b => .ok (.truth b)
    | .compare c l r => do return .compare c (← go l) (← go r)
    | .logic c xs => do return .logic c (← xs.mapM go)
    | .tuple xs => do
      -- its parts are written out, although it has no value
      let _ ← xs.mapM go
      return .missing .unsuitable

/-! ## Checks -/

/-- Whether an expression holds a pole or a band, and so cannot be written out. -/
def hasHole : Expr → Bool
  | .pole | .band => true
  | .sum ts => holesIn ts
  | .product fs => holesIn fs
  | .power b e => hasHole b || hasHole e
  | .call _ args => holesIn args
  | .compare _ l r => hasHole l || hasHole r
  | .logic _ xs | .tuple xs => holesIn xs
  | _ => false
where
  /-- Whether one of several expressions holds a pole or a band. -/
  holesIn : List Expr → Bool
  | [] => false
  | x :: xs => hasHole x || holesIn xs

mutual
/-- The calls in an expression that cannot be written out, given the functions that are bound. -/
def unsupported (bound : Fn → Bool) : Expr → List String
  | .sum ts => unsupportedIn bound ts
  | .product fs => unsupportedIn bound fs
  | .power b e => unsupported bound b ++ unsupported bound e
  | .call f args =>
    let own :=
      if bound f || f == .max || f == .min then []
      else if f.isNumerical || hasHole.holesIn args || Expr.anyHoldsFunction args then [f.name]
      else []
    own ++ unsupportedIn bound args
  | .compare _ l r => unsupported bound l ++ unsupported bound r
  | .logic _ xs | .tuple xs => unsupportedIn bound xs
  | _ => []

/-- The calls in several expressions that cannot be written out. -/
def unsupportedIn (bound : Fn → Bool) : List Expr → List String
  | [] => []
  | x :: xs => unsupported bound x ++ unsupportedIn bound xs
end

/-! ## Compiling -/

/-- Names that stand for arguments while the terms are put in order. -/
def argumentName (i : Nat) : String := "_a" ++ toString i

/-- The position of a name; of a repeated name the last. -/
def positionOf (vars : List String) (name : String) : Option Nat :=
  let i := vars.reverse.findIdx (· == name)
  if i < vars.length then some (vars.length - 1 - i) else none

/-- The position that an argument name stands for. -/
def argumentPosition (count : Nat) (name : String) : Option Nat :=
  (List.range count).find? fun i => argumentName i == name

/-- An expression with argument names in place of its variables. -/
def inPlaces (vars : List String) (x : Expr) : Expr :=
  x.mapVars fun name =>
    match positionOf vars name with
    | some i => .var (argumentName i)
    | none => .var name

/-- The program of an expression with the given variables as arguments; `bound` tells which
functions have an implementation beside the built-in ones. -/
def compile (bound : Fn → Bool) (vars : List String) (x : Expr) : Except CompileError Program := do
  let missing := x.freeNames.filter fun name => !vars.contains name
  if !missing.isEmpty then throw (.unbound missing vars)
  let bad := unsupported bound x
  if !bad.isEmpty then throw (.unsupported (Expr.sortNames bad))
  let placed := inPlaces vars x
  if x.holdsFunction || placed.holdsFunction then throw .uncalled
  let body ← layout (argumentPosition vars.length) placed.size placed
  -- a constant takes part in the arithmetic of the samples
  if vars.isEmpty || !x.freeNames.isEmpty then return body
  else return .sum [body, .sampled 0]

/-! ## Laws -/

/-- A program with unbound variables is refused, and the message names exactly those. -/
theorem compile_unbound {bound : Fn → Bool} {vars : List String} {x : Expr}
    (h : (x.freeNames.filter fun name => !vars.contains name) ≠ []) :
    compile bound vars x =
      .error (.unbound (x.freeNames.filter fun name => !vars.contains name) vars) := by
  unfold compile
  simp only
  rw [if_pos]
  · rfl
  · simpa using h

end Program
end Graphing
