/-
  Graphing.Notation.Formula

  Reading a formula from a text. A strict formula has every operation written
  out; in any other, what stands side by side has a meaning too. A text that
  is no formula is refused with the text in the message.
-/
import Graphing.Notation.Grammar
import Graphing.Notation.Juxtaposition
import Graphing.Text.Quoted

namespace Graphing.Notation

/-! ## Errors -/

/-- Why a text has no value as a formula. -/
inductive ParseError where
  /-- The text holds nothing but blanks. -/
  | blank (text : String)
  /-- The text is not in the notation. -/
  | malformed (text : String)
  deriving Repr, DecidableEq

/-- The wording of the error. -/
def ParseError.message : ParseError → String
  | .blank text =>
    "Cannot parse " ++ Text.Quoted.quoted text ++ " as an expression: empty expression"
  | .malformed text => "Cannot parse " ++ Text.Quoted.quoted text ++ " as an expression"

/-! ## Strict formulas -/

/-- Names with a meaning in strict formulas that they do not have in others, with the names that
have it there. -/
def strictNames : List (String × String) :=
  [("E", "e"), ("I", "i"), ("Abs", "abs"), ("ceiling", "ceil"), ("Max", "max"), ("Min", "min")]

/-- Values that only strict formulas have names for. -/
def strictValues : List (String × Expr) := [("oo", .posInf), ("zoo", .pole), ("nan", .nan)]

/-- The tokens of a name in a strict formula. -/
def strictName (s : String) (next : Option Lexeme) : List Token :=
  match strictNames.lookup s, strictValues.lookup s with
  | some known, _ => [.name known]
  | none, some value => [.literal value]
  | none, none =>
    if reserved.contains s || s == "pi" || commonFunctions.contains s then [.name s]
    else madeName s next

/-- The tokens of a formula in which every operation must be written out and names are never
split. The base of the natural logarithm and the imaginary unit are written in capitals. -/
def strictTokens : List Lexeme → Option (List Token)
  | [] => some []
  | l :: rest => do
    let ts ← match l with
      | .name s => some (strictName s rest.head?)
      | l => plainTokens l
    return ts ++ (← strictTokens rest)

/-- The expression that a text denotes when nothing is read between the lines. Texts in it are read
likewise, as deep as `depth`. -/
def strictFormula? : (depth : Nat) → (text : String) → Option Expr
  | 0, _ => none
  | depth + 1, text => do
    let ts ← applyFactorials 0 [] (← strictTokens (← lexemes (Text.strip text.toList)))
    match ← readTokens (strictFormula? depth) (spellPowers ts) with
    | .expr x => some x
    | _ => none

/-- How deep texts can stand in texts: there are two kinds of quotes. -/
def quoteDepth : Nat := 3

/-- The expression that a text denotes when nothing is read between the lines. It need not be a
number. -/
def plainFormula? (text : String) : Option Expr := strictFormula? quoteDepth text

/-! ## Formulas -/

/-- The expression that a text denotes, `none` if it is no formula. It must be a number. -/
def formula? (s : List Char) : Option Expr := do
  match ← readTokens plainFormula? (← explicitTokens (← tokens? (Text.strip s))) with
  | .expr x => if x.isScalar then some x else none
  | _ => none

/-- Read a formula. -/
def parse (text : String) : Except ParseError Expr :=
  if (Text.strip text.toList).isEmpty then .error (.blank text)
  else
    match formula? text.toList with
    | some x => .ok x
    | none => .error (.malformed text)

/-- The names of the variables of an expression. -/
def freeVariables (x : Expr) : List String := x.freeNames

end Graphing.Notation
