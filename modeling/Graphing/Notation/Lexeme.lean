/-
  Graphing.Notation.Lexeme

  The words of a formula: numbers, names and operators. A scanner takes one
  lexeme from the front of the text and returns the rest, which is shorter.
-/
import Graphing.Number.Rounding
import Graphing.Text.Character

namespace Graphing.Notation

open CorePower
open Text

/-! ## Lexemes -/

/-- A word of a formula. -/
inductive Lexeme where
  /-- A number as written. -/
  | number (text : List Char)
  /-- A repeating decimal. -/
  | repeating (value : Rat)
  | name (text : String)
  | op (text : String)
  /-- The sign of the factorial. -/
  | bang
  /-- A blank before the sign of the factorial. -/
  | gap
  /-- A line end inside of brackets. -/
  | newline
  /-- A text between quotes. -/
  | text (content : String)
  /-- The rest of a line. -/
  | comment
  deriving Repr, DecidableEq

/-! ## Numbers -/

/-- Digits, between which single underscores may stand. The text is assumed to begin with a digit
or with an underscore before a digit. -/
def digitRun (isDigit : Char → Bool) : List Char → List Char × List Char
  | [] => ([], [])
  | '_' :: d :: rest =>
    if isDigit d then
      let (run, rest) := digitRun isDigit rest
      ('_' :: d :: run, rest)
    else ([], '_' :: d :: rest)
  | d :: rest =>
    if isDigit d then
      let (run, rest) := digitRun isDigit rest
      (d :: run, rest)
    else ([], d :: rest)

/-- Digits that begin with a digit. -/
def digits (isDigit : Char → Bool) : List Char → List Char × List Char
  | d :: rest => if isDigit d then digitRun isDigit (d :: rest) else ([], d :: rest)
  | [] => ([], [])

/-- The exponent of a decimal number, empty if there is none. -/
def exponentPart : List Char → List Char × List Char
  | e :: rest =>
    if e == 'e' || e == 'E' then
      let (sign, after) := match rest with
        | s :: more => if s == '+' || s == '-' then ([s], more) else ([], rest)
        | [] => ([], [])
      match digits isAsciiDigit after with
      | ([], _) => ([], e :: rest)
      | (ds, after) => (e :: sign ++ ds, after)
    else ([], e :: rest)
  | [] => ([], [])

/-- Digits of a number in another base: 16, 8 or 2. -/
def baseDigit (mark : Char) (c : Char) : Bool :=
  if mark == 'x' then isAsciiDigit c || ('a' ≤ c && c ≤ 'f') || ('A' ≤ c && c ≤ 'F')
  else if mark == 'o' then '0' ≤ c && c ≤ '7'
  else c == '0' || c == '1'

/-- A number with a base mark, such as `0x1F`. -/
def basedNumber : List Char → Option (List Char × List Char)
  | '0' :: m :: rest =>
    let mark := lowerChar m
    if mark == 'x' || mark == 'o' || mark == 'b' then
      match digitRun (baseDigit mark) rest with
      | ([], _) => none
      | (ds, rest) => some ('0' :: m :: ds, rest)
    else none
  | _ => none

/-- A whole number: zeros only, or digits that do not begin with zero. -/
def wholeNumber : List Char → List Char × List Char
  | '0' :: rest => digitRun (· == '0') ('0' :: rest)
  | s => digits isAsciiDigit s

/-- The number at the front of a text that begins with a digit, or with a point and a digit. -/
def scanNumber (s : List Char) : List Char × List Char :=
  let (whole, rest) := digits isAsciiDigit s
  match rest with
  | '.' :: after =>
    let (frac, rest) := digits isAsciiDigit after
    let (expo, rest) := exponentPart rest
    (whole ++ '.' :: frac ++ expo, rest)
  | rest =>
    match exponentPart rest with
    | ([], _) =>
      match basedNumber s with
      | some r => r
      | none => wholeNumber s
    | (expo, rest) => (whole ++ expo, rest)

/-! ## Operators -/

/-- Operators of three characters. -/
def tripleOperators : List String := ["**=", "//=", "<<=", ">>=", "..."]

/-- Operators of two characters. -/
def doubleOperators : List String :=
  ["!=", "%=", "&=", "**", "*=", "+=", "-=", "->", "//", "/=", ":=", "<<", "<=", "==", ">=", ">>",
   "@=", "^=", "|="]

/-- Operators of one character. -/
def singleOperators : List Char :=
  ['(', ')', '[', ']', '\x7b', '\x7d', '+', '-', '*', '/', '%', '&', '|', '^', '~', ',', '.', ':',
   ';', '<', '=', '>', '@']

/-- The longest operator at the front of the text. -/
def scanOperator (s : List Char) : Option (String × List Char) :=
  let triple := String.ofList (s.take 3)
  let double := String.ofList (s.take 2)
  if tripleOperators.contains triple then some (triple, s.drop 3)
  else if doubleOperators.contains double then some (double, s.drop 2)
  else
    match s with
    | c :: rest => if singleOperators.contains c then some (String.singleton c, rest) else none
    | [] => none

/-! ## Quoted texts -/

/-- The quotes that a text can stand between. -/
def isQuote (c : Char) : Bool := c == '\'' || c == '"'

/-- The text in front of a closing quote, which has no escapes in it, and what follows the quote.
Quotes that are tripled are not read. -/
def scanQuoted (quote : Char) (s : List Char) : Option (String × List Char) :=
  let inside := s.takeWhile (· != quote)
  match s.dropWhile (· != quote) with
  | _ :: rest =>
    if inside.any (fun c => c == '\\' || c == '\n') then none
    else if inside.isEmpty && rest.head? == some quote then none
    else some (String.ofList inside, rest)
  | [] => none

/-- Marks that may stand right before a quote and leave the text as it is. -/
def quoteMarks : List String := ["r", "u", "R", "U"]

/-- Marks that may stand right before a quote if no braces are in the text. -/
def formatMarks : List String := ["f", "F"]

/-- The text behind a quote that has a mark before it. -/
def scanMarked (mark : String) (quote : Char) (s : List Char) : Option (String × List Char) := do
  let (text, rest) ← scanQuoted quote s
  if formatMarks.contains mark && text.toList.any (fun c => c == '\x7b' || c == '\x7d') then none
  else some (text, rest)

/-! ## Scanning -/

/-- Blanks that separate lexemes. -/
def isSpace (c : Char) : Bool := c == ' ' || c == '\t' || c == '\x0c'

/-- The lexeme at the front of a text without leading spaces, at the given depth of parentheses. -/
def scanOne (depth : Nat) (s : List Char) : Option (Lexeme × List Char) :=
  match s with
  | [] => none
  | c :: rest =>
    if isAsciiDigit c || (c == '.' && (rest.head?.any isAsciiDigit)) then
      let (num, rest) := scanNumber s
      -- a letter j would make a decimal number imaginary
      if (basedNumber s).isNone && (rest.head? == some 'j' || rest.head? == some 'J') then none
      else some (.number num, rest)
    else if isWord c then
      if !isNameStart c then none
      else
        let word := String.ofList (s.takeWhile isWord)
        let after := s.dropWhile isWord
        match after with
        | q :: quoted =>
          if isQuote q && (quoteMarks ++ formatMarks).contains word then
            (scanMarked word q quoted).map fun (text, rest) => (.text text, rest)
          else some (.name word, after)
        | [] => some (.name word, after)
    else if isQuote c then (scanQuoted c rest).map fun (text, rest) => (.text text, rest)
    else if c == '#' then some (.comment, rest.dropWhile fun c => c != '\n' && c != '\x0d')
    else if c == '\x0d' && rest.head? == some '\n' then
      if depth = 0 then none else some (.newline, rest.drop 1)
    else
      match scanOperator s with
      | some (op, rest) => some (.op op, rest)
      | none => if c == '!' then some (.bang, rest) else none

/-- The depth of brackets after a lexeme. -/
def Lexeme.depthAfter (depth : Nat) : Lexeme → Nat
  | .op "(" | .op "[" | .op "\x7b" => depth + 1
  | .op ")" | .op "]" | .op "\x7d" => depth - 1
  | _ => depth

/-- Whether a line holds nothing but blanks and a comment. -/
def isCommentLine (line : List Char) : Bool := (line.dropWhile isSpace).head?.all (· == '#')

/-- A text without the lines at its start that hold nothing but comments. -/
def dropComments : (fuel : Nat) → List Char → List Char
  | 0, s => s
  | fuel + 1, s =>
    match s.dropWhile (· != '\n') with
    | _ :: rest =>
      if isCommentLine (s.takeWhile (· != '\n')) then dropComments fuel rest else s
    | [] => s

/-- All lexemes of a text. The fuel is the length of the text. A line that ends in a backslash goes
on in the next one, and comments may stand in lines of their own. -/
def scanFrom : (fuel depth : Nat) → List Char → Option (List Lexeme)
  | 0, _, s => if s.isEmpty then some [] else none
  | fuel + 1, depth, s =>
    let blanks := s.takeWhile isSpace
    match s.dropWhile isSpace with
    | [] => if depth = 0 then some [] else none
    | '\\' :: '\n' :: rest => scanFrom fuel depth rest
    | '\n' :: rest =>
      if depth = 0 then
        if (rest.splitOn '\n').all isCommentLine then some [] else none
      else (scanFrom fuel depth rest).map (Lexeme.newline :: ·)
    | t =>
      match scanOne depth t with
      | none => none
      | some (lexeme, rest) =>
        let gaps := if lexeme == .bang then List.replicate blanks.length Lexeme.gap else []
        (scanFrom fuel (lexeme.depthAfter depth) rest).map fun more => gaps ++ lexeme :: more

/-- The lexemes of a text, `none` if it holds something that no formula can hold. The first line
must not be indented. -/
def scan (s : List Char) : Option (List Lexeme) :=
  let s := dropComments s.length s
  if s.head?.any isSpace then none else scanFrom (s.length + 1) 0 s

/-! ## Repeating decimals -/

/-- The value of digits, skipping underscores. -/
def digitsValue (ds : List Char) : Nat :=
  ds.foldl (fun n d => if d == '_' then n else 10 * n + (d.toNat - '0'.toNat)) 0

/-- Digits without underscores. -/
def plainDigits (ds : List Char) : List Char := ds.filter (· != '_')

/-- Decimal digits and underscores only. -/
def isDigitText (s : List Char) : Bool := s.all fun c => isAsciiDigit c || c == '_'

/-- A number with a point and without an exponent. -/
def isPointNumber (s : List Char) : Bool :=
  s.contains '.' && !(s.contains 'e') && !(s.contains 'E')

/-- The value of `whole.post[repetend]`, where the repetend must not be zero and the whole part
must not have leading zeros. -/
def repeatingValue (number repetend : List Char) : Option Rat :=
  let whole := plainDigits (number.takeWhile (· != '.'))
  let post := plainDigits ((number.dropWhile (· != '.')).drop 1)
  let repetend := plainDigits repetend
  let wholeOk := whole.head? != some '0' || whole.all (· == '0')
  if !wholeOk || digitsValue repetend = 0 then none
  else
    let scale : Nat := 10 ^ post.length
    some (digitsValue whole + mkRat (digitsValue post) scale +
      mkRat (digitsValue repetend) ((10 ^ repetend.length - 1) * scale))

/-- How much of a repeating decimal was read. -/
inductive Repetend where
  | none
  /-- A number with a point, or a point alone. -/
  | point (number : List Char)
  /-- A bracket after it. -/
  | opened (number : List Char)
  /-- Digits in the bracket. -/
  | once (number digits : List Char)
  /-- Digits in two pieces. -/
  | twice (number digits more : List Char)

/-- What is read of a repeating decimal after one more lexeme. A lexeme that does not fit in ends
it, and begins none itself. -/
def Repetend.next : Repetend → Lexeme → Repetend
  | .none, .number s => if isPointNumber s then .point s else .none
  | .none, .op "." => .point ['0', '.']
  | .point n, .op "[" => .opened n
  | .opened n, .number s => if isDigitText s then .once n s else .none
  | .once n s, .number t => if isDigitText t then .twice n s t else .none
  | _, _ => .none

/-- Join the parts of repeating decimals. `done` holds the lexemes before in reverse. -/
def joinRepeating (state : Repetend) (done : List Lexeme) : List Lexeme → Option (List Lexeme)
  | [] => some done.reverse
  | l :: rest =>
    match state, l with
    | .once n s, .op "]" => do
      joinRepeating .none (.repeating (← repeatingValue n s) :: done.drop 3) rest
    | .twice n s t, .op "]" => do
      joinRepeating .none (.repeating (← repeatingValue n (s ++ t)) :: done.drop 4) rest
    | state, l => joinRepeating (state.next l) (l :: done) rest

/-- The lexemes of a formula. -/
def lexemes (s : List Char) : Option (List Lexeme) := do
  joinRepeating .none [] (← scan s)

end Graphing.Notation
