/-
  Graphing.Evaluation.Text

  The value of a text: a formula without variables, or with variables that a
  scope gives values to.
-/
import Graphing.Evaluation.Workshop

namespace Graphing

/-! ## Scopes -/

/-- Values of names. -/
abbrev Scope := List (String × Tensor Float)

/-- The value of a text in a scope: NaN if it is no formula, uses other names, or has no finite real
value. Only a formula with a pole or a band in it is refused. -/
def evalText (text : String) (scope : Scope) : Except Hole Float :=
  match CompiledFormula.ofText text (scope.map Prod.fst) with
  | .error (.compile (.hole h)) => .error h
  | .error _ => .ok Binary64.nan
  | .ok f =>
    match f.call [] scope with
    | .ok t => .ok (t.toScalar?.getD Binary64.nan)
    | .error _ => .ok Binary64.nan

/-- The value of a text without names. -/
def constantText (text : String) : Except Hole Float := evalText text []

/-! ## Laws -/

/-- A text that is no formula has the value NaN. -/
theorem evalText_of_parse_error {text : String} {scope : Scope} {e : Notation.ParseError}
    (h : Notation.parse text = .error e) : evalText text scope = .ok Binary64.nan := by
  unfold evalText CompiledFormula.ofText
  rw [h]

end Graphing
