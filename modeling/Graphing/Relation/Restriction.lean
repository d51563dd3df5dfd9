/-
  Graphing.Relation.Restriction

  The restriction at the end of a relation: a written interval or hole that
  is set off by a blank, by `>` or `;`, by the word `on`, or that is the whole
  text. Without such a mark only an interval that cannot be a call counts.
-/
import Graphing.Interval.Literal
import Graphing.Interval.Text

namespace Graphing.Relation

open Text (isBlank lowerChar strip stripRight)
open Graphing.Interval (Literal endsWithLiteral scanHole scanLiteral mentions)

/-! ## Finding the restriction -/

/-- Whether a character is the given small letter or its capital. -/
def isLetter (small c : Char) : Bool := lowerChar c == small

/-- Whether a restriction can follow, given the text before it in reverse. -/
def isLead : (before : List Char) → Bool
  | [] => true
  | [c] => isBlank c || c == '>' || c == ';'
  | n :: o :: _ => isBlank n || n == '>' || n == ';' || (isLetter 'n' n && isLetter 'o' o)

/-- Whether a text is an interval or a hole, blanks after it included. -/
def isRestriction (s : List Char) : Bool := endsWithLiteral s || (scanHole s).isSome

/-- Split a text at the first place that satisfies a test of the text before, in reverse, and the
text after. -/
def splitFirst (test : List Char → List Char → Bool) :
    (before after : List Char) → Option (List Char × List Char)
  | before, [] => if test before [] then some (before.reverse, []) else none
  | before, c :: cs =>
    if test before (c :: cs) then some (before.reverse, c :: cs)
    else splitFirst test (c :: before) cs

/-- The text before the restriction that is set off, and the restriction. -/
def markedRestriction? (s : List Char) : Option (List Char × List Char) :=
  splitFirst (fun before after => isLead before && isRestriction after) [] s

/-- Whether an interval can be no call: it has a square bracket or an infinity. -/
def isNoCall (body : List Char) : Bool :=
  body.head? == some '[' || body.getLast? == some ']' ||
  mentions "inf".toList (Text.lower body) || mentions "oo".toList (Text.lower body)

/-- The text before an interval at the end, and the interval, if it can be no call. -/
def bareRestriction? (s : List Char) : Option (List Char × List Char) :=
  (splitFirst (fun _ after => endsWithLiteral after) [] s).filter fun (_, after) =>
    isNoCall (stripRight after)

/-- The text before the restriction, and the restriction with the blanks after it. -/
def findRestriction? (s : List Char) : Option (List Char × List Char) :=
  match markedRestriction? s with
  | some found => some found
  | none => bareRestriction? s

/-! ## Taking a relation apart -/

/-- The text without the word `on` at its end and the blanks before it. -/
def withoutOn (s : List Char) : List Char :=
  match s.reverse with
  | n :: o :: rest =>
    if isLetter 'n' n && isLetter 'o' o then stripRight rest.reverse else s
  | _ => s

/-- The restriction of a relation, empty without one. -/
def restriction (s : List Char) : List Char :=
  match findRestriction? s with
  | some (_, found) => strip found
  | none => []

/-- The relation without its restriction. -/
def unrestricted (s : List Char) : List Char :=
  match findRestriction? s with
  | some (before, _) => stripRight (withoutOn (stripRight before))
  | none => s

/-- The relation without its restriction, and the interval that it is restricted to. -/
def splitRestriction (s : List Char) : Except Hole (List Char × Interval Float) := do
  return (unrestricted s, ← Interval.ofText (restriction s))

/-! ## Laws -/

/-- The two parts of a split make up the text. -/
theorem append_of_splitFirst {test : List Char → List Char → Bool} {before s head tail : List Char}
    (h : splitFirst test before s = some (head, tail)) : head ++ tail = before.reverse ++ s := by
  induction s generalizing before with
  | nil =>
    unfold splitFirst at h
    split at h <;> simp_all
  | cons c cs ih =>
    unfold splitFirst at h
    split at h
    · simp_all
    · simpa using ih h

/-- A relation is its text before the restriction followed by the restriction and blanks. -/
theorem append_of_findRestriction {s before found : List Char}
    (h : findRestriction? s = some (before, found)) : before ++ found = s := by
  unfold findRestriction? markedRestriction? bareRestriction? at h
  split at h
  · next heq =>
    have := append_of_splitFirst heq
    simp_all
  · obtain ⟨h, -⟩ := Option.filter_eq_some_iff.1 h
    simpa using append_of_splitFirst h

/-- A relation without a restriction stays as it is. -/
theorem unrestricted_of_none {s : List Char} (h : findRestriction? s = none) :
    unrestricted s = s := by
  simp [unrestricted, h]

end Graphing.Relation
