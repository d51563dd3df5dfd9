/-
  Graphing.Relation.Pieces

  The segments of a piecewise relation: separated by semicolons outside of
  brackets, and perhaps in braces as a whole.
-/
import Graphing.Text.Character

namespace Graphing.Relation

open Text (strip)

/-! ## Brackets -/

/-- Characters that open a bracket. -/
def isOpening (c : Char) : Bool := c == '(' || c == '[' || c == '{'

/-- Characters that close a bracket. -/
def isClosing (c : Char) : Bool := c == ')' || c == ']' || c == '}'

/-- The depth of brackets after a character. It is never below zero, and a bracket of any kind
closes any other. -/
def depthAfter (depth : Nat) (c : Char) : Nat :=
  if isOpening c then depth + 1 else if isClosing c then depth - 1 else depth

/-! ## Segments -/

/-- Split a text at the semicolons outside of brackets. -/
def splitOutside (depth : Nat) : List Char → List (List Char)
  | [] => [[]]
  | c :: cs =>
    if c == ';' && depth == 0 then [] :: splitOutside depth cs
    else
      match splitOutside (depthAfter depth c) cs with
      | [] => [[c]]
      | piece :: pieces => (c :: piece) :: pieces

/-- The text inside of a pair of braces around it, or the text itself. -/
def withoutBraces (s : List Char) : List Char :=
  match s with
  | '{' :: rest => if rest.getLast? == some '}' then rest.dropLast else s
  | _ => s

/-- The segments of a relation, without blanks around them and without empty ones. -/
def pieces (s : List Char) : List (List Char) :=
  ((splitOutside 0 (withoutBraces (strip s))).map strip).filter fun p => !p.isEmpty

/-! ## Laws -/

theorem splitOutside_ne_nil (depth : Nat) (s : List Char) : splitOutside depth s ≠ [] := by
  cases s with
  | nil => simp [splitOutside]
  | cons c cs =>
    unfold splitOutside
    split
    · simp
    · split <;> simp

/-- No segment is empty. -/
theorem ne_nil_of_mem_pieces {s p : List Char} (h : p ∈ pieces s) : p ≠ [] := by
  have := (List.mem_filter.1 h).2
  simpa using this

end Graphing.Relation
