/-
  Graphing.Relation.Classification

  The family of curves that a relation belongs to, read off its form, its
  assignment target and its free variables.
-/
import Graphing.Notation.Formula
import Graphing.Relation.Equation

namespace Graphing.Relation

open Text (lower strip)

/-! ## Variables -/

/-- The texts of a relation that hold its variables. -/
def variableSides (s : List Char) : List (List Char) :=
  match coordinates? s with
  | some (x, y) => [x, y]
  | none =>
    match sides? s with
    | none => [strip s]
    | some (lhs, rhs) => if (Target.ofText? lhs).isSome then [rhs] else [rhs, lhs]

/-- Insert a name into a sorted list of names without repetition. -/
def insertName (name : String) : List String → List String
  | [] => [name]
  | n :: ns =>
    if name == n then n :: ns else if name < n then name :: n :: ns else n :: insertName name ns

/-- Whether a name can be a variable. -/
def isVariableName (name : String) : Bool :=
  !Notation.constants.contains name && !Notation.functionNames.contains name

/-- The sorted free variables of a relation: those of its sides but the assignment target, and a
declared argument. -/
def variableNames (s : List Char) : Except Notation.ParseError (List String) := do
  let text := unrestricted s
  let names ← (variableSides text).mapM fun side => do
    return Notation.freeVariables (← Notation.parse (String.ofList side))
  let declared := ((declaredArgument? text).map String.ofList).toList
  return ((names.flatten ++ declared).filter isVariableName).foldr insertName []

/-! ## Families -/

/-- Families of relations. -/
inductive Family where
  | point
  | asymptote
  | functionOfX
  | functionOfY
  | polar
  | parametric
  | sequence
  | implicit
  | unknown
  deriving Repr, DecidableEq, Inhabited

/-- The name of a family. -/
def Family.name : Family → String
  | .point => "point"
  | .asymptote => "asymptote"
  | .functionOfX => "function_of_x"
  | .functionOfY => "function_of_y"
  | .polar => "polar"
  | .parametric => "parametric"
  | .sequence => "sequence"
  | .implicit => "implicit"
  | .unknown => "unknown"

/-- The family of a relation, its axis (the independent variable, or the horizontal one of an
implicit relation), the name it assigns to, and its free variables. -/
structure Classification where
  family : Family
  axis : String := "x"
  target : String := ""
  names : List String := []
  deriving Repr, DecidableEq, Inhabited

/-- Whether all variables are the given one. -/
def within (names : List String) (allowed : String) : Bool := names.all (· == allowed)

/-- The family of a relation that declares an argument. -/
def classifyDeclared? (target argument : String) (names : List String) :
    Option Classification :=
  if !within names argument then none
  else if argument == "y" then some ⟨.functionOfY, "y", target, names⟩
  else if target == "r" && argument == "t" then some ⟨.polar, "t", target, names⟩
  else if argument == "n" then some ⟨.sequence, "n", target, names⟩
  else some ⟨.functionOfX, argument, target, names⟩

/-- The family of a relation that assigns to a name, or to none. -/
def classifyTarget? (target main : String) (names : List String) : Option Classification :=
  if (target == "" || target == "y") && within names main then
    some ⟨.functionOfX, main, "y", names⟩
  else if (target == "" || target == "x") && within names "y" then
    some ⟨.functionOfY, "y", "x", names⟩
  else if target == "r" && within names "t" then some ⟨.polar, "t", "r", names⟩
  else if ["", "x", "y", "r"].contains target then none
  else if names.contains "n" && within names "n" then
    some ⟨.sequence, "n", target, names⟩
  else if within names main then some ⟨.functionOfX, main, target, names⟩
  else none

/-- The axes of an implicit relation in at most two variables, horizontal first. -/
def implicitAxes (names : List String) : String × String :=
  match names with
  | [a, b] => if names.all ["x", "y"].contains then ("x", "y") else (a, b)
  | _ => ("x", "y")

/-- The family of a relation with known free variables; `main` is the independent variable of bare
relations and of `y = …`. -/
def classifyWith (text : List Char) (main : String) (names : List String) : Classification :=
  let unknown : Classification := ⟨.unknown, "", "", names⟩
  if (coordinates? text).isSome then
    if within names "t" then ⟨.parametric, "t", "", names⟩ else unknown
  else
    let name := String.ofList (assignedName text)
    let isEquation := (sides? text).isSome
    let explicit :=
      match declaredArgument? text with
      | some argument => classifyDeclared? name (String.ofList argument) names
      | none =>
        if !isEquation || name != "" then classifyTarget? name main names else none
    match explicit with
    | some c => c
    | none =>
      if names.length = 2 ||
          (isEquation && !names.isEmpty && names.all ["x", "y"].contains) then
        ⟨.implicit, (implicitAxes names).1, "", names⟩
      else unknown

/-- Classify one segment of a relation. One that cannot be parsed is implicit. -/
def classify (s : List Char) (main : String) : Classification :=
  let text := strip s
  if (Interval.point? text).isSome then ⟨.point, "", "", []⟩
  else
    match Interval.hole? text with
    | some (c, _) => ⟨.asymptote, String.ofList (lower [c]), "", []⟩
    | none =>
      let text := unrestricted text
      match variableNames text with
      | .error _ => ⟨.implicit, "x", "", []⟩
      | .ok names => classifyWith text main names

/-- Whether the explicit part of a relation is no formula. -/
def isImplicitOnly (s : List Char) : Bool :=
  match Notation.parse (String.ofList (assignedSide (unrestricted s))) with
  | .ok _ => false
  | .error _ => true

end Graphing.Relation
