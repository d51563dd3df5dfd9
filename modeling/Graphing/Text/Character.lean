/-
  Graphing.Text.Character

  Classes of characters and the change of case. Membership beyond ASCII is
  looked up in the range tables.
-/
import Graphing.Text.WordTable

namespace Graphing.Text

/-! ## Classes -/

/-- Whether a code point lies in one of the ranges. -/
def inRanges (ranges : Array (Nat × Nat)) (n : Nat) : Bool :=
  ranges.any fun (lo, hi) => lo ≤ n && n ≤ hi

/-- Blank characters: those that text is stripped of and that separate its parts. -/
def isBlank (c : Char) : Bool :=
  let n := c.toNat
  (9 ≤ n && n ≤ 13) || (28 ≤ n && n ≤ 32) || n == 133 || n == 160 || n == 5760 ||
  (8192 ≤ n && n ≤ 8202) || n == 8232 || n == 8233 || n == 8239 || n == 8287 || n == 12288

/-- ASCII digits. -/
def isAsciiDigit (c : Char) : Bool := '0' ≤ c && c ≤ '9'

/-- ASCII letters. -/
def isAsciiLetter (c : Char) : Bool := ('a' ≤ c && c ≤ 'z') || ('A' ≤ c && c ≤ 'Z')

/-- Characters of a word: letters, numerals and the underscore. -/
def isWord (c : Char) : Bool :=
  if c.toNat < 128 then isAsciiLetter c || isAsciiDigit c || c == '_'
  else inRanges wordRanges c.toNat

/-- Characters that can begin a name. -/
def isNameStart (c : Char) : Bool :=
  if c.toNat < 128 then isAsciiLetter c || c == '_'
  else inRanges wordRanges c.toNat && !inRanges innerRanges c.toNat

/-- Digits of any script. -/
def isDigit (c : Char) : Bool :=
  if c.toNat < 128 then isAsciiDigit c else inRanges digitRanges c.toNat

/-- Characters that are printed as themselves. -/
def isPrintable (c : Char) : Bool :=
  let n := c.toNat
  if n < 128 then 32 ≤ n && n < 127 else !inRanges unprintableRanges n

/-- Letters that a pattern `a`–`z` matches when case is ignored: besides the ASCII letters the
dotted and the dotless I, the long S and the Kelvin sign. -/
def isCaselessLetter (c : Char) : Bool :=
  isAsciiLetter c || c.toNat == 0x130 || c.toNat == 0x131 || c.toNat == 0x17F || c.toNat == 0x212A

/-! ## Case -/

/-- The small form of a capital letter of a single character, any other character itself. -/
def lowerChar (c : Char) : Char :=
  let n := c.toNat
  if n < 128 then (if 'A' ≤ c && c ≤ 'Z' then Char.ofNat (n + 32) else c)
  else
    match capitalRuns.find? fun (lo, hi, step, _) => lo ≤ n && n ≤ hi && (n - lo) % step == 0 with
    | some (_, _, _, shift) => Char.ofNat (n + shift).toNat
    | none => c

/-- The small form of each character. Two capitals need more than a table: the dotted I becomes two
characters, and a sigma at the end of a word has a form of its own. -/
def lowerAfter : (previous : Option Char) → List Char → List Char
  | _, [] => []
  | previous, c :: rest =>
    let letter (d : Char) : Bool := isWord d && !isDigit d
    let small :=
      if c.toNat == 0x130 then ['i', Char.ofNat 0x307]
      else if c.toNat == 0x3A3 && previous.any letter && !(rest.head?.any letter) then
        [Char.ofNat 0x3C2]
      else [lowerChar c]
    small ++ lowerAfter (some c) rest

/-- Text in small letters. -/
def lower (s : List Char) : List Char := lowerAfter none s

/-! ## Blanks around text -/

/-- Text without the blanks at its start. -/
def stripLeft (s : List Char) : List Char := s.dropWhile isBlank

/-- Text without the blanks at its end. -/
def stripRight (s : List Char) : List Char := (s.reverse.dropWhile isBlank).reverse

/-- Text without the blanks around it. -/
def strip (s : List Char) : List Char := stripRight (stripLeft s)

/-- Text without any blank. -/
def compact (s : List Char) : List Char := s.filter fun c => !isBlank c

/-! ## Laws -/

theorem compact_append (s t : List Char) : compact (s ++ t) = compact s ++ compact t :=
  List.filter_append ..

end Graphing.Text
