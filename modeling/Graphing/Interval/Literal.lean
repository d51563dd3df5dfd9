/-
  Graphing.Interval.Literal

  Written intervals and holes. A side of an interval is a sequence of
  characters other than commas, parentheses and square brackets, and of
  groups in parentheses that hold no parentheses themselves.
-/
import Graphing.Text.Character

namespace Graphing.Interval

open Text (isBlank isCaselessLetter strip stripLeft compact)

/-! ## Sides -/

/-- Read the longest side at the start of a text, and leave the rest; `inGroup` while a group is
open. A group that is not closed, or that holds a parenthesis, cannot be read. -/
def scanSide : (inGroup : Bool) → List Char → Option (List Char × List Char)
  | false, [] => some ([], [])
  | true, [] => none
  | false, c :: cs =>
    if c == '(' then do
      let (side, rest) ← scanSide true cs
      return (c :: side, rest)
    else if c == ',' || c == ')' || c == '[' || c == ']' then some ([], c :: cs)
    else do
      let (side, rest) ← scanSide false cs
      return (c :: side, rest)
  | true, c :: cs =>
    if c == '(' then none
    else do
      let (side, rest) ← scanSide (c != ')') cs
      return (c :: side, rest)

/-! ## Literals -/

/-- The kinds of brackets around an interval. -/
inductive Bracket where
  | round
  | square
  deriving Repr, DecidableEq

/-- The kind of an opening bracket. -/
def Bracket.ofOpening? (c : Char) : Option Bracket :=
  if c == '(' then some .round else if c == '[' then some .square else none

/-- The kind of a closing bracket. -/
def Bracket.ofClosing? (c : Char) : Option Bracket :=
  if c == ')' then some .round else if c == ']' then some .square else none

/-- A written interval: its brackets and its sides. -/
structure Literal where
  opening : Bracket
  lower : List Char
  upper : List Char
  closing : Bracket
  deriving Repr, DecidableEq

/-- Read a written interval at the start of a text, and leave the rest. Its sides may be empty. -/
def scanLiteral (s : List Char) : Option (Literal × List Char) := do
  let c :: s := s | none
  let opening ← Bracket.ofOpening? c
  let (lower, rest) ← scanSide false s
  let ',' :: rest := rest | none
  let (upper, rest) ← scanSide false rest
  let c :: rest := rest | none
  let closing ← Bracket.ofClosing? c
  return (⟨opening, lower, upper, closing⟩, rest)

/-- A text that is a written interval; blanks do not count. -/
def literal? (s : List Char) : Option Literal :=
  match scanLiteral (compact s) with
  | some (l, []) => some l
  | _ => none

/-- Whether an interval stands at the start of a text, with a character on each side, and only
blanks follow. -/
def endsWithLiteral (s : List Char) : Bool :=
  match scanLiteral s with
  | some (l, rest) => !l.lower.isEmpty && !l.upper.isEmpty && rest.all isBlank
  | none => false

/-! ## Holes -/

/-- Characters that end the value of a hole. -/
def isHoleStop (c : Char) : Bool := [';', '=', '<', '>', '!'].contains c

/-- A letter, `!=`, and a value up to the end of the text: the letter and the value, which may be
blank but not empty. -/
def scanHole (s : List Char) : Option (Char × List Char) := do
  let c :: rest := s | none
  guard (isCaselessLetter c)
  let '!' :: '=' :: value := stripLeft rest | none
  guard (!value.isEmpty && !value.any isHoleStop)
  return (c, value)

/-- A text that is a written hole: its letter and its value without blanks around. -/
def hole? (s : List Char) : Option (Char × List Char) :=
  (scanHole (strip s)).map fun (c, value) => (c, stripLeft value)

/-! ## Infinities -/

/-- Whether a text begins with another. -/
def beginsWith : (word s : List Char) → Bool
  | [], _ => true
  | _, [] => false
  | w :: ws, c :: cs => w == c && beginsWith ws cs

/-- Whether a text has another in it. -/
def mentions (word : List Char) : List Char → Bool
  | [] => word.isEmpty
  | c :: cs => beginsWith word (c :: cs) || mentions word cs

/-- Whether a side stands for an infinity. -/
def isInfinite (side : List Char) : Bool := mentions "inf".toList side || mentions "oo".toList side

/-! ## Points -/

/-- The written coordinates of a point: an interval with brackets of one kind whose sides are
neither empty nor infinite. -/
def point? (s : List Char) : Option Literal :=
  (literal? s).filter fun l =>
    l.opening == l.closing && !l.lower.isEmpty && !l.upper.isEmpty &&
    !isInfinite l.lower && !isInfinite l.upper

end Graphing.Interval
