/-
  Graphing.Notation.Token

  Tokens of a formula. Numbers and unknown names are written as calls of the
  functions that make them, and the sign of the factorial becomes a call
  around what stands before it.
-/
import Graphing.Notation.Lexeme
import Graphing.Notation.Vocabulary

namespace Graphing.Notation

/-! ## Tokens -/

/-- A token of a formula. -/
inductive Token where
  | name (text : String)
  | literal (value : Expr)
  /-- The text of a name that is being made. -/
  | quoted (text : String)
  /-- A text between quotes. -/
  | text (content : String)
  | op (text : String)
  | bang
  | gap
  /-- A line end inside of brackets. -/
  | newline
  | comment
  /-- The end of the formula. -/
  | finish
  deriving BEq, Repr, Inhabited

namespace Token

def lparen : Token := .op "("

def rparen : Token := .op ")"

def times : Token := .op "*"

/-- Token of a name. -/
def isName : Token → Bool
  | .name _ | .quoted _ => true
  | _ => false

/-- What no function takes as its argument: an operator or the end of the formula. -/
def endsOperand : Token → Bool
  | .op _ | .finish => true
  | _ => false

/-- Token of a function that can be called. -/
def isCallable : Token → Bool
  | .name s => Notation.isCallable s
  | _ => false

end Token

/-! ## Literals -/

/-- The value of a whole number, which may be written in base 16, 8 or 2. -/
def naturalValue (s : List Char) : Nat :=
  match s with
  | '0' :: m :: rest =>
    let mark := Text.lowerChar m
    let base := if mark == 'x' then 16 else if mark == 'o' then 8 else if mark == 'b' then 2 else 10
    if base = 10 then digitsValue s
    else
      rest.foldl
        (fun n d =>
          if d == '_' then n
          else
            let v := if Text.isAsciiDigit d then d.toNat - 48 else (Text.lowerChar d).toNat - 87
            base * n + v)
        0
  | s => digitsValue s

/-- The value of a decimal number with a point or an exponent. -/
def decimalValue (s : List Char) : BigFloat :=
  let isMark (c : Char) : Bool := c == 'e' || c == 'E'
  let body := s.takeWhile fun c => !isMark c
  let expo := (s.dropWhile fun c => !isMark c).drop 1
  let whole := plainDigits (body.takeWhile (· != '.'))
  let frac := plainDigits ((body.dropWhile (· != '.')).drop 1)
  let magnitude := digitsValue (expo.filter fun c => c != '+' && c != '-')
  let power : Int := if expo.head? == some '-' then -(magnitude : Int) else magnitude
  let all := (whole ++ frac).dropWhile (· == '0')
  BigFloat.ofDecimal (digitsValue all) (max 1 all.length) (power - frac.length) (!(s.contains '.'))

/-- Whether a number is a decimal number. -/
def isDecimal (s : List Char) : Bool :=
  s.contains '.' || ((s.contains 'e' || s.contains 'E') &&
    !(s.head? == some '0' && (s.drop 1).head?.any fun c => Text.lowerChar c == 'x'))

/-- The most digits that a whole number may have. -/
def maxDigits : Nat := 4300

/-- The tokens of a number. -/
def numberTokens (s : List Char) : Option (List Token) :=
  if isDecimal s then
    some [.name "Float", .lparen, .literal (.real (decimalValue s)), .rparen]
  else if (plainDigits s).length > maxDigits &&
      s.all (fun c => Text.isAsciiDigit c || c == '_') then
    none
  else some [.name "Integer", .lparen, .literal (Expr.int (naturalValue s)), .rparen]

/-! ## Names -/

/-- Whether a name stays as it is: it is known or reserved, follows a point, or names an argument.
`before` is the last lexeme that is not such a name. -/
def keepsName (before next : Option Lexeme) (s : String) : Bool :=
  isKnown s || reserved.contains s || before == some (.op ".") ||
    ((before == some (.op "(") || before == some (.op ",")) && next == some (.op "="))

/-- The tokens that make a name, given what follows it. -/
def madeName (s : String) (next : Option Lexeme) : List Token :=
  let maker := if next == some (.op "(") then "Function" else "Symbol"
  [.name maker, .lparen, .quoted s, .rparen]

/-- The tokens of a lexeme other than a name. -/
def plainTokens : Lexeme → Option (List Token)
  | .number s => numberTokens s
  | .repeating q =>
    some [.lparen, .name "Rational", .lparen, .literal (.rat q), .rparen, .rparen]
  | .name s => some [.name s]
  | .op s => some [.op s]
  | .bang => some [.bang]
  | .gap => some [.gap]
  | .newline => some [.newline]
  | .text s => some [.text s]
  | .comment => some [.comment]

/-- The tokens of a formula, with the signs of factorials still in place. -/
def tokensOf (before : Option Lexeme) : List Lexeme → Option (List Token)
  | [] => some []
  | .name s :: rest =>
    if keepsName before rest.head? s then (tokensOf before rest).map (.name s :: ·)
    else (tokensOf (some (.name s)) rest).map (madeName s rest.head? ++ ·)
  | l :: rest => do
    let ts ← plainTokens l
    return ts ++ (← tokensOf (some l) rest)

/-! ## Factorials -/

/-- The length of the operand at the front of reversed tokens: one token, or a whole group in
parentheses. -/
def operandLength : (depth : Nat) → List Token → Option Nat
  | _, [] => none
  | depth, t :: rest =>
    if t == .rparen then (operandLength (depth + 1) rest).map (· + 1)
    else if t == .lparen then
      if depth ≤ 1 then some 1 else (operandLength (depth - 1) rest).map (· + 1)
    else if depth = 0 then some 1
    else (operandLength depth rest).map (· + 1)

/-- Wrap the last operand in a factorial, together with a name right before it. -/
def wrapFactorial (tokens : List Token) : Option (List Token) :=
  match tokens.reverse with
  | [] => none
  | last :: before =>
    if last == .lparen then none
    else
      let reversed := last :: before
      match operandLength 0 reversed with
      | none => some tokens
      | some n =>
        let n := if (reversed.drop n).head?.any Token.isName then n + 1 else n
        let operand := (reversed.take n).reverse
        let head := (reversed.drop n).reverse
        some (head ++ [.name "factorial", .lparen] ++ operand ++ [.rparen])

/-- Apply the signs of factorials. Only a single sign has a meaning, and a gap forgets one. -/
def applyFactorials (count : Nat) (done : List Token) : List Token → Option (List Token)
  | [] => finish count done
  | .bang :: rest => applyFactorials (count + 1) done rest
  | .gap :: rest => applyFactorials 0 (done ++ [.op " "]) rest
  | t :: rest => do
    let done ← finish count done
    applyFactorials 0 (done ++ [t]) rest
where
  /-- Wrap the last operand if one sign came before. -/
  finish (count : Nat) (done : List Token) : Option (List Token) :=
    if count = 0 then some done
    else if count = 1 then wrapFactorial done
    else none

/-- A formula that begins with the reserved word for functions is read as if it named one. -/
def expandLambda : List Lexeme → Option (List Lexeme)
  | [.name "lambda"] => none
  | .name "lambda" :: rest =>
    if rest.any fun l => l == .op "*" || l == .op "**" || l == .op ":" then none
    else some ([.name "Lambda", .op "(", .op "("] ++ rest ++ [.op ")", .op ")"])
  | ls => some ls

/-- The tokens of a text. -/
def tokens? (s : List Char) : Option (List Token) := do
  let ls ← lexemes s
  let ts ← tokensOf none (← expandLambda ls)
  applyFactorials 0 [] ts

end Graphing.Notation
