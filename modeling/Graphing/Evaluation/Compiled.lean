/-
  Graphing.Evaluation.Compiled

  Formulas compiled for evaluation. A call binds values to the variables by
  position or by name; its result has the common shape of the values, and is
  NaN wherever the formula has no finite real value.
-/
import Graphing.Evaluation.Program
import Graphing.Evaluation.Tensor
import Graphing.Notation.Formula

namespace Graphing

/-! ## Bindings -/

/-- Which functions are bound to an implementation beside the built-in ones. -/
inductive Bindings where
  /-- None. -/
  | bare
  /-- All functions that have only a numerical meaning. -/
  | full
  /-- The functions of a list. -/
  | only (fs : List Fn)
  /-- The functions with a name in a list, and no others. -/
  | exactly (names : List String)
  deriving Repr, DecidableEq

/-- Whether a function is bound. Without a list of all names factorials are, and what is known by
its name only is not. -/
def Bindings.binds : Bindings → Fn → Bool
  | .exactly names, f => names.contains f.name
  | _, .gamma | _, .factorial => true
  | _, .named _ => false
  | .bare, _ => false
  | .full, f => f.isNumerical
  | .only fs, f => fs.contains f

/-! ## Compiled programs -/

/-- A program with the names of its arguments. -/
structure CompiledFormula where
  parameters : List String
  program : Program
  deriving Inhabited

/-- Why a text cannot be compiled. -/
inductive FormulaError where
  | parse (e : Notation.ParseError)
  | compile (e : CompileError)
  deriving Repr, DecidableEq

/-- Why a call has no result. -/
inductive CallError where
  /-- A value was given under the name of the formula itself. -/
  | reserved
  /-- Values were given both by position and by name. -/
  | mixed
  /-- A wrong number of values by position. -/
  | count (parameters : List String) (given : Nat)
  /-- Variables without a value. -/
  | missing (names : List String)
  /-- The shapes of the values do not go together. -/
  | shape
  deriving Repr, DecidableEq

/-- Names in parentheses; a single name is followed by a comma. -/
def nameTuple (names : List String) : String :=
  match names.map Text.Quoted.quoted with
  | [] => "()"
  | [a] => "(" ++ a ++ ",)"
  | quoted => "(" ++ String.intercalate ", " quoted ++ ")"

/-- The wording of the error, if it has one. -/
def CallError.message? : CallError → Option String
  | .reserved => none
  | .mixed => some "Pass values either positionally or by name, not both"
  | .count parameters given =>
    some ("Expected " ++ toString parameters.length ++ " value(s) for " ++ nameTuple parameters ++
      ", got " ++ toString given)
  | .missing names => some ("Missing value(s) for: " ++ String.intercalate ", " names)
  | .shape => none

/-- The wording for a wrong number of arguments of a bare program. -/
def argumentCountMessage (parameters : List String) (given : Nat) : String :=
  "Expected " ++ toString parameters.length ++ " argument(s) (" ++
    String.intercalate ", " parameters ++ "), got " ++ toString given

namespace CompiledFormula

/-- Compile an expression with the given variables. -/
def ofExpr (bindings : Bindings) (parameters : List String) (x : Expr) :
    Except CompileError CompiledFormula := do
  return ⟨parameters, ← Program.compile bindings.binds parameters x⟩

/-- Compile a text with the given variables. -/
def ofText (text : String) (parameters : List String) : Except FormulaError CompiledFormula :=
  match Notation.parse text with
  | .error e => .error (.parse e)
  | .ok x =>
    match ofExpr .full parameters x with
    | .error e => .error (.compile e)
    | .ok f => .ok f

/-! ## Evaluation at points -/

/-- The value of the program at a point, before it is made real. -/
def value (f : CompiledFormula) (point : Array Float) : Except Fault Value :=
  f.program.eval fun i => (point[i]?).map .sample

/-- The real value at a point: a fault when the program has no value there. -/
def real? (f : CompiledFormula) (point : Array Float) : Except Fault Float := do
  (← f.value point).toReal

/-- The real value at a point, NaN where there is none. -/
def valueAt (f : CompiledFormula) (point : Array Float) : Float :=
  match f.real? point with
  | .ok y => y
  | .error _ => Binary64.nan

/-! ## Evaluation of arrays -/

/-- The point at a flat index of the common shape. -/
def pointAt (values : List (Tensor Float)) (shape : List Nat) (i : Nat) : Array Float :=
  (values.map fun t => (t.at? shape i).getD Binary64.nan).toArray

/-- The values at all points, if the program has one at each. -/
def batch? (f : CompiledFormula) (values : List (Tensor Float)) (shape : List Nat) :
    Except Fault (Array Float) :=
  (Array.range (Tensor.volume shape)).mapM fun i => f.real? (pointAt values shape i)

/-- Evaluate at all points of the common shape: all at once, or point by point if some point
fails. -/
def run (f : CompiledFormula) (values : List (Tensor Float)) : Except CallError (Tensor Float) :=
  match Tensor.commonShapes? (values.map (·.shape)) with
  | none => .error .shape
  | some shape =>
    match f.batch? values shape with
    | .ok data => .ok ⟨shape, data⟩
    | .error _ => .ok (Tensor.generate shape fun i => f.valueAt (pointAt values shape i))

/-- The name by which a formula goes in a call of its own. No value can be given under it. -/
def ownName : String := "self"

/-- The values of the variables, from values by position or by name. -/
def bind (f : CompiledFormula) (values : List (Tensor Float))
    (named : List (String × Tensor Float)) : Except CallError (List (Tensor Float)) :=
  if named.any fun p => p.1 == ownName then .error .reserved
  else if !values.isEmpty && !named.isEmpty then .error .mixed
  else if !values.isEmpty then
    if values.length = f.parameters.length then .ok values
    else .error (.count f.parameters values.length)
  else
    let lookup (name : String) : Option (Tensor Float) :=
      (named.find? fun p => p.1 == name).map Prod.snd
    match f.parameters.filter fun name => (lookup name).isNone with
    | [] => .ok (f.parameters.filterMap lookup)
    | missing => .error (.missing missing)

/-- Call a compiled formula. -/
def call (f : CompiledFormula) (values : List (Tensor Float))
    (named : List (String × Tensor Float)) : Except CallError (Tensor Float) := do
  f.run (← f.bind values named)

/-! ## Bare evaluation -/

/-- A value as a number, without making it real. -/
def bareNumber : Value → Except Fault Float
  | .int n => Value.floatOfInt n
  | .real _ x => .ok x
  | .complex _ _ => .error .unsuitable

/-- The positions of the arguments that a program uses. -/
def used : Program → List Nat
  | .argument i => [i]
  | .sum ts => usedIn ts
  | .product _ top bottom => usedIn top ++ usedIn bottom
  | .power b e => used b ++ used e
  | .squareRoot x => used x
  | .call _ args | .logic _ args => usedIn args
  | .compare _ l r => used l ++ used r
  | .callTruth _ x => used x
  | _ => []
where
  /-- The positions of the arguments that several programs use. -/
  usedIn : List Program → List Nat
  | [] => []
  | x :: xs => used x ++ usedIn xs

/-- Evaluate at all points without making the values real; a fault at one point is a fault of the
whole. Arguments that a program with variables does not use have no part in the shape. -/
def runBare (f : CompiledFormula) (values : List (Tensor Float)) : Except Fault (Tensor Float) :=
  let positions := used f.program
  let shapes := (values.map (·.shape)).zipIdx.filterMap fun (s, i) =>
    if positions.isEmpty || positions.contains i then some s else none
  match Tensor.commonShapes? shapes with
  | none => .error .domain
  | some shape => do
    let values := values.zipIdx.map fun (t, i) =>
      if positions.isEmpty || positions.contains i then t else Tensor.scalar Binary64.nan
    let data ← (Array.range (Tensor.volume shape)).mapM fun i => do
      bareNumber (← f.value (pointAt values shape i))
    return ⟨shape, data⟩

/-! ## Laws -/

/-- What is evaluated point by point is a finite number or NaN. -/
theorem real?_ok_of_value {f : CompiledFormula} {point : Array Float} {v : Value}
    (h : f.value point = .ok v) : f.real? point = v.toReal := by
  unfold real?
  rw [h]
  rfl

end CompiledFormula

end Graphing
