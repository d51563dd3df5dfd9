/-
  Graphing.Evaluation.Request

  Requests to compile an expression.  A request is put in order before anything
  is compiled: its variables become a list of names, and the implementations
  that it gives are joined by those that some functions have anyway.  The key
  that comes out holds everything that the compiled function depends on.
-/
import Graphing.Evaluation.Compiled

namespace Graphing

/-! ## Implementations -/

/-- What computes the values of a function. -/
inductive Implementation where
  /-- The implementation that a function has if none is given. -/
  | fallback (name : String)
  /-- The implementation that comes with the notation. -/
  | package (name : String)
  /-- Any other one, by a number that equal ones share; not every one can be part of a key. -/
  | other (number : Nat) (hashable : Bool)
  deriving Repr, DecidableEq

/-- Whether an implementation can be part of a key. -/
def Implementation.isHashable : Implementation → Bool
  | .other _ hashable => hashable
  | _ => true

/-- Names of the functions that have an implementation if none is given. -/
def fallbackNames : List String := ["gamma", "factorial"]

/-- Functions of the notation that have no implementation but the one that comes with it. -/
def packageFunctions : List Fn :=
  [.cbrt, .fix, .round, .nthroot, .gcd, .lcm, .mean, .median, .std, .variance, .sum, .prod]

/-- Implementations by the name of their function, in ascending order of the names. -/
structure Implementations where
  entries : List (String × Implementation) := []
  deriving Repr, DecidableEq

namespace Implementations

/-- The names of the functions with an implementation. -/
def names (b : Implementations) : List String := b.entries.map Prod.fst

/-- Entries with one more, which takes the place of another under its name. -/
def insertEntry (name : String) (i : Implementation) :
    List (String × Implementation) → List (String × Implementation)
  | [] => [(name, i)]
  | e :: rest =>
    if name < e.1 then (name, i) :: e :: rest
    else if name == e.1 then (name, i) :: rest
    else e :: insertEntry name i rest

/-- Give a function an implementation, in place of another that it has. -/
def set (b : Implementations) (name : String) (i : Implementation) : Implementations :=
  ⟨insertEntry name i b.entries⟩

/-- The implementations that come with the notation. -/
def full : Implementations :=
  packageFunctions.foldl (fun b f => b.set f.name (.package f.name)) {}

/-- Join the implementations that the functions in an expression have anyway. -/
def withFallbacks (b : Implementations) (x : Expr) : Implementations :=
  x.functions.foldl (fun b f =>
    if !b.names.contains f.name && fallbackNames.contains f.name then
      b.set f.name (.fallback f.name)
    else b) b

/-- Whether the implementations can be part of a key. -/
def isHashable (b : Implementations) : Bool := b.entries.all fun e => e.2.isHashable

end Implementations

/-! ## Keys -/

/-- What a compiled function depends on. -/
structure CompileKey where
  expr : Expr
  parameters : List String
  bindings : Implementations
  deriving DecidableEq

/-- A compiled function: a program, with the implementations that its calls are looked up in. -/
structure CompiledFunction where
  expr : Expr
  formula : CompiledFormula
  bindings : Implementations

/-- The names of the arguments. -/
def CompiledFunction.parameters (f : CompiledFunction) : List String := f.formula.parameters

namespace CompileKey

/-- Check that no variable is left over. -/
def check (k : CompileKey) : Except CompileError Unit :=
  match k.expr.freeNames.filter fun name => !k.parameters.contains name with
  | [] => .ok ()
  | missing => .error (.unbound missing k.parameters)

/-- The key with the implementations that its functions have anyway. -/
def withFallbacks (k : CompileKey) : CompileKey :=
  { k with bindings := k.bindings.withFallbacks k.expr }

/-- The key that a function is compiled for, if all variables are bound. -/
def prepare (k : CompileKey) : Except CompileError CompileKey := do
  k.check
  return k.withFallbacks

/-- Compile the function of a key. -/
def build (k : CompileKey) : Except CompileError CompiledFunction := do
  return ⟨k.expr, ← CompiledFormula.ofExpr (.exactly k.bindings.names) k.parameters k.expr,
    k.bindings⟩

end CompileKey

/-! ## Requests -/

/-- What is to be compiled. -/
inductive Source where
  /-- An expression, or something that one is read from. -/
  | formula (x : Expr)
  /-- Something of a type that no expression is read from. -/
  | unreadable (type : String)
  /-- Something of a type that another thing than an expression is read from. -/
  | other (type : String)

/-- What is to become the arguments. -/
inductive Variables where
  /-- All variables of the expression, in ascending order. -/
  | all
  /-- The given ones, among which there may be something that is no variable. -/
  | given (items : List (Option String))
  /-- Something that is neither a variable nor a list. -/
  | unlisted
  deriving Repr, DecidableEq

/-- An implementation with its function, as they are given. Either can be something else, of some
type. -/
structure GivenBinding where
  function : Except String String
  implementation : Except String Implementation

/-- A request to compile an expression. -/
structure Request where
  source : Source
  arguments : Variables := .all
  bindings : List GivenBinding := []

/-- Why a request is refused. -/
inductive RequestError where
  /-- The text to compile is no formula. -/
  | parse (e : Notation.ParseError)
  | unreadable (type : String)
  | noExpression (type : String)
  | noVariables
  | unlisted
  | noFunction (type : String)
  | notCallable (function type : String)
  | compile (e : CompileError)
  /-- One of the implementations cannot be part of a key. -/
  | unhashable
  deriving Repr, DecidableEq

/-- The wording of the error, if it has one. -/
def RequestError.message? : RequestError → Option String
  | .parse e => some e.message
  | .unreadable type => some ("numpify expects a SymPy-compatible expression, got " ++ type)
  | .noExpression type => some ("numpify expects a SymPy expression, got " ++ type)
  | .noVariables => some "vars must be a SymPy Symbol or an iterable of SymPy Symbols"
  | .noFunction type => some ("f_numpy keys must be SymPy function classes, got " ++ type)
  | .notCallable function type =>
    some ("Implementation for " ++ function ++ " must be callable, got " ++ type)
  | .compile e => e.message?
  | .unlisted | .unhashable => none

/-- The expression to compile. -/
def Source.expr : Source → Except RequestError Expr
  | .formula x => .ok x
  | .unreadable type => .error (.unreadable type)
  | .other type => .error (.noExpression type)

/-- The names of the arguments for an expression. -/
def Variables.names (x : Expr) : Variables → Except RequestError (List String)
  | .all => .ok x.freeNames
  | .given items =>
    match items.mapM id with
    | some names => .ok names
    | none => .error .noVariables
  | .unlisted => .error .unlisted

/-- Take one more of the given implementations. -/
def GivenBinding.addTo (b : Implementations) (g : GivenBinding) :
    Except RequestError Implementations :=
  match g.function, g.implementation with
  | .error type, _ => .error (.noFunction type)
  | .ok name, .error type => .error (.notCallable name type)
  | .ok name, .ok i => .ok (b.set name i)

/-- The implementations of the notation, as they are given in a request. -/
def packageBindings : List GivenBinding :=
  packageFunctions.map fun f => ⟨.ok f.name, .ok (.package f.name)⟩

namespace Request

/-- The key of a request. Variables are checked before the given implementations are looked at. -/
def key (r : Request) : Except RequestError CompileKey := do
  let x ← r.source.expr
  let names ← r.arguments.names x
  (CompileKey.check ⟨x, names, {}⟩).mapError .compile
  let bindings ← r.bindings.foldlM GivenBinding.addTo {}
  return CompileKey.withFallbacks ⟨x, names, bindings⟩

/-- The request for a source with the given names as arguments and all implementations of the
notation. -/
def withPackage (s : Source) (names : List String) : Request :=
  ⟨s, .given (names.map some), packageBindings⟩

end Request
end Graphing
