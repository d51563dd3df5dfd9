/-
  Graphing.Evaluation.Workshop

  The workshop in which requests are met.  It remembers what it has compiled,
  up to a number of functions, and hands the same function out again for the
  same key; a request can also ask for a function of its own.
-/
import Graphing.Evaluation.Memo
import Graphing.Evaluation.Request

namespace Graphing

/-- A compiled function as an object: the number, by which two objects are told apart, and what it
is. -/
abbrev FunctionObject := Nat × CompiledFunction

/-- The functions that were compiled, by key, and the number of the next object. -/
structure Workshop where
  memo : Memo CompileKey FunctionObject
  nextSerial : Nat := 0

namespace Workshop

/-! ## Keys -/

/-- The number of functions that are remembered. -/
def capacity : Nat := 256

/-- A workshop that remembers nothing. -/
def empty : Workshop := { memo := Memo.empty capacity }

/-- Compile the function of a key without the memory. -/
def built (w : Workshop) (key : CompileKey) : Except CompileError FunctionObject × Workshop :=
  match key.build with
  | .ok f => (.ok (w.nextSerial, f), { w with nextSerial := w.nextSerial + 1 })
  | .error e => (.error e, w)

/-- Compile the function of a key, or take it from the memory. -/
def remembered (w : Workshop) (key : CompileKey) :
    Except CompileError FunctionObject × Workshop :=
  let (fresh, after) := w.built key
  let (result, memo) := w.memo.get key fresh
  let serial := match w.memo.find? key with
    | some _ => w.nextSerial
    | none => after.nextSerial
  (result, { memo, nextSerial := serial })

/-- Forget the functions. -/
def clear (w : Workshop) : Workshop := { w with memo := w.memo.clear }

/-- Compile an expression without the memory. -/
def compileFresh (w : Workshop) (key : CompileKey) :
    Except CompileError FunctionObject × Workshop :=
  match key.prepare with
  | .error e => (.error e, w)
  | .ok key => w.built key

/-- Compile an expression, or take its function from the memory. Unbound variables are reported
before the memory is asked. -/
def compile (w : Workshop) (key : CompileKey) : Except CompileError FunctionObject × Workshop :=
  match key.prepare with
  | .error e => (.error e, w)
  | .ok key => w.remembered key

/-! ## Requests -/

/-- Meet a request, from the memory if `cache`. -/
def numpify (w : Workshop) (r : Request) (cache : Bool) :
    Except RequestError FunctionObject × Workshop :=
  match r.key with
  | .error e => (.error e, w)
  | .ok key =>
    if cache then
      if key.bindings.isHashable then (w.remembered key).map (·.mapError .compile) id
      else (.error .unhashable, w)
    else (w.built key).map (·.mapError .compile) id

/-- Compile an expression with the implementations of the notation. The answer is the function that
the compiled expression is evaluated with. -/
def compileExpression (w : Workshop) (s : Source) (names : List String) :
    Except RequestError FunctionObject × Workshop :=
  w.numpify (.withPackage s names) true

/-- Compile a text with the implementations of the notation. -/
def compileText (w : Workshop) (text : String) (names : List String) :
    Except RequestError FunctionObject × Workshop :=
  match Notation.parse text with
  | .error e => (.error (.parse e), w)
  | .ok x => w.compileExpression (.formula x) names

/-! ## Calls -/

/-- A call for a compiled function. -/
inductive Call where
  | numpify (r : Request) (cache : Bool)
  | expression (s : Source) (names : List String)
  | text (text : String) (names : List String)

/-- The function object that a call comes to, if it succeeds. -/
def call (w : Workshop) : Call → Except RequestError FunctionObject × Workshop
  | .numpify r cache => w.numpify r cache
  | .expression s names => w.compileExpression s names
  | .text text names => w.compileText text names

/-- What is done with a workshop. -/
inductive Command where
  | call (c : Call)
  | clear

/-- The workshop after a command. -/
def perform (w : Workshop) : Command → Workshop
  | .call c => (w.call c).2
  | .clear => w.clear

/-- The workshop after a history of commands. -/
def after (history : List Command) : Workshop := history.foldl perform empty

end Workshop
end Graphing
