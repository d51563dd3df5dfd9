/-
  Graphing.Relation.Equation

  The parts of a relation as text: the sides of an equation, what the left
  side assigns to, the two coordinates of a parametric curve, and the equation
  as one expression.
-/
import Graphing.Relation.Restriction

namespace Graphing.Relation

open Text (isBlank isCaselessLetter isWord isDigit lower strip stripLeft stripRight)

/-! ## The sides of an equation -/

/-- Characters before an equals sign that make it part of a comparison. -/
def isComparison (c : Char) : Bool := c == '!' || c == '<' || c == '>' || c == '='

/-- Split a text at its first equals sign that is no part of a comparison. -/
def splitEquals : (previous : Option Char) → List Char → Option (List Char × List Char)
  | _, [] => none
  | previous, c :: cs =>
    if c == '=' && !previous.any isComparison && cs.head? != some '=' then some ([], cs)
    else (splitEquals (some c) cs).map fun (lhs, rhs) => (c :: lhs, rhs)

/-- The two sides of an equation. -/
def sides? (s : List Char) : Option (List Char × List Char) :=
  (splitEquals none s).map fun (lhs, rhs) => (strip lhs, strip rhs)

/-! ## Assignment targets -/

/-- A name at the start of a text, and the rest. -/
def scanName (s : List Char) : Option (List Char × List Char) :=
  match s with
  | [] => none
  | c :: cs =>
    if isCaselessLetter c then some (c :: cs.takeWhile isWord, cs.dropWhile isWord) else none

/-- What the left side of an equation assigns to: a name, or a function of a named argument. -/
structure Target where
  name : List Char
  argument? : Option (List Char) := none
  deriving Repr, DecidableEq

/-- The name in parentheses at the start of a text, if nothing else follows. -/
def scanArgument (s : List Char) : Option (List Char) := do
  let '(' :: rest := s | none
  let (name, rest) ← scanName (stripLeft rest)
  guard (strip rest == [')'])
  return name

/-- Read a left side as a target; names are written small. -/
def Target.ofText? (lhs : List Char) : Option Target := do
  let (name, rest) ← scanName (strip lhs)
  if rest.isEmpty then return ⟨lower name, none⟩
  let argument ← scanArgument (stripLeft rest)
  return ⟨lower name, some (lower argument)⟩

/-- The target that a relation assigns to. -/
def target? (s : List Char) : Option Target := do
  let (lhs, _) ← sides? s
  Target.ofText? lhs

/-- The argument that the target of a relation declares. -/
def declaredArgument? (s : List Char) : Option (List Char) := (target? s).bind (·.argument?)

/-- The name that a relation assigns to, empty without one. -/
def assignedName (s : List Char) : List Char := ((target? (unrestricted s)).map (·.name)).getD []

/-- The right side of an assignment, or the relation itself. -/
def assignedSide (s : List Char) : List Char :=
  match sides? s with
  | some (lhs, rhs) => if (Target.ofText? lhs).isSome then rhs else strip s
  | none => strip s

/-! ## Parametric curves -/

/-- Split a text at its commas outside of brackets; angle brackets count, and the depth may be
negative. -/
def splitCommas (depth : Int) : List Char → List (List Char)
  | [] => [[]]
  | c :: cs =>
    if c == ',' && depth == 0 then [] :: splitCommas depth cs
    else
      let depth :=
        if c == '(' || c == '[' || c == '{' || c == '<' then depth + 1
        else if c == ')' || c == ']' || c == '}' || c == '>' then depth - 1
        else depth
      match splitCommas depth cs with
      | [] => [[c]]
      | part :: parts => (c :: part) :: parts

/-- The two coordinates of a curve written in angle brackets. -/
def coordinates? (s : List Char) : Option (List Char × List Char) := do
  let '<' :: rest := strip s | none
  guard (rest.getLast? == some '>')
  let [x, y] := splitCommas 0 rest.dropLast | none
  return (strip x, strip y)

/-! ## One expression for an equation -/

/-- Whether a sign begins a new term, given the text before it in reverse and the text after. It
does not after an operator or within the exponent of a number. -/
def beginsTerm (before after : List Char) : Bool :=
  match before.dropWhile isBlank with
  | [] => true
  | p :: rest =>
    if p == '*' || p == '/' || p == '^' then false
    else !((p == 'e' || p == 'E') && rest.head?.any isDigit && after.head?.any isDigit)

/-- Change the signs of the terms of a text outside of brackets; the text before is given in
reverse. -/
def flipSigns (depth : Int) (before : List Char) : List Char → List Char
  | [] => []
  | c :: cs =>
    let depth' :=
      if c == '(' || c == '[' || c == '{' then depth + 1
      else if c == ')' || c == ']' || c == '}' then depth - 1
      else depth
    let shown :=
      if (c == '+' || c == '-') && depth == 0 && beginsTerm before cs then
        if c == '+' then '-' else '+'
      else c
    shown :: flipSigns depth' (c :: before) cs

/-- An equation as one expression that is zero where it holds: the right side with its signs changed
follows the left side. Other text stays as it is. -/
def difference (s : List Char) : List Char :=
  match sides? s with
  | none => strip s
  | some (lhs, rhs) =>
    let signed := if rhs.head? == some '+' || rhs.head? == some '-' then rhs else '+' :: rhs
    lhs ++ flipSigns 0 [] signed

end Graphing.Relation
