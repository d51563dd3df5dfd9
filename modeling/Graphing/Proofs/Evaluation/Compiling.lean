/-
  Graphing.Proofs.Evaluation.Compiling

  Why a text is not compiled.  Variables are looked at once, before anything is
  laid out: laying out an expression has faults of its own, but none of them is
  about a variable (`layout_failsOnly`).  A text is thus refused for its
  variables just if it has some that are not given, and then for these
  (`ofText_eq_unbound_iff`).
-/
import Graphing.Evaluation.Compiled
import Graphing.Proofs.Except

namespace Graphing

open Except (FailsOnly)

/-- A fault that has nothing to do with variables. -/
def CompileError.IsOther (e : CompileError) : Prop :=
  ∀ names expected, e ≠ .unbound names expected

namespace Program

/-- By the time that an expression is laid out, its variables cannot fail any more. -/
theorem layout_failsOnly (position : String → Option Nat) (fuel : Nat) (x : Expr) :
    FailsOnly CompileError.IsOther (layout position fuel x) := by
  induction fuel generalizing x with
  | zero => exact .error nofun
  | succ fuel ih =>
    have hall := FailsOnly.mapM ih
    cases x with
    | rat q => exact .ok _
    | real r => exact .ok _
    | const c => cases c <;> exact .ok _
    | nan => exact .ok _
    | pole => exact .error nofun
    | posInf => exact .ok _
    | negInf => exact .ok _
    | band => exact .error nofun
    | var name =>
      unfold layout
      dsimp only
      -- special exponents leave only the base to lay out
      split <;> exact .ok _
    | sum ts => exact (hall _).bind fun _ => .ok _
    | product fs => exact (hall _).bind fun _ => (hall _).bind fun _ => .ok _
    | power b e =>
      unfold layout
      dsimp only
      split
      · split
        · exact (ih b).bind fun _ => .ok _
        · split
          · exact (ih b).bind fun _ => .ok _
          · split <;> exact (ih b).bind fun _ => .ok _
      · exact (ih b).bind fun _ => (ih e).bind fun _ => .ok _
    | call f args =>
      unfold layout
      dsimp only
      split
      · exact (ih _).bind fun _ => .ok _
      · exact (ih _).bind fun _ => .ok _
      · refine (ih _).bind fun p => ?_
        split <;> exact .ok _
      · exact (hall _).bind fun _ => .ok _
    | rule name => exact .ok _
    | function name => exact .error nofun
    | truth b => exact .ok _
    | compare c l r => exact (ih l).bind fun _ => (ih r).bind fun _ => .ok _
    | logic c xs => exact (hall xs).bind fun _ => .ok _
    | tuple xs => exact (hall xs).bind fun _ => .ok _

variable {bound : Fn → Bool} {vars missing expected : List String} {x : Expr}

theorem compile_failsOnly (h : x.freeNames.filter (fun name => !vars.contains name) = []) :
    FailsOnly CompileError.IsOther (compile bound vars x) := by
  unfold compile
  dsimp only
  rw [h]
  -- no name is missing, and the other checks name no variable
  rw [if_neg (by decide)]
  split
  · exact .error nofun
  · split
    · exact .error nofun
    · refine (layout_failsOnly _ _ _).bind fun body => ?_
      split <;> exact .ok _

/-- An expression is refused for its variables just if some are not given. -/
theorem compile_eq_unbound_iff :
    compile bound vars x = .error (.unbound missing expected) ↔
      missing = x.freeNames.filter (fun name => !vars.contains name) ∧ missing ≠ [] ∧
        expected = vars := by
  by_cases h : x.freeNames.filter (fun name => !vars.contains name) = []
  · rw [h]
    constructor
    · intro he
      exact absurd rfl (compile_failsOnly h _ he _ _)
    · rintro ⟨hmissing, hne, -⟩
      exact absurd hmissing hne
  · rw [compile_unbound h]
    constructor
    · rintro ⟨⟩
      exact ⟨rfl, h, rfl⟩
    · rintro ⟨rfl, -, rfl⟩
      rfl

end Program

namespace CompiledFormula

variable {text : String} {parameters missing expected : List String}

theorem ofExpr_eq_error_iff {bindings : Bindings} {x : Expr} {e : CompileError} :
    ofExpr bindings parameters x = .error e ↔
      Program.compile bindings.binds parameters x = .error e := by
  unfold ofExpr
  cases Program.compile bindings.binds parameters x with
  | error e' =>
    constructor
    · rintro ⟨⟩
      rfl
    · rintro ⟨⟩
      rfl
  | ok p => exact ⟨nofun, nofun⟩

theorem ofText_eq_parse_iff {e : Notation.ParseError} :
    ofText text parameters = .error (.parse e) ↔ Notation.parse text = .error e := by
  unfold ofText
  cases hx : Notation.parse text with
  | error e' => simp
  | ok x =>
    dsimp only
    split <;> simp

theorem ofText_eq_compile_iff {e : CompileError} :
    ofText text parameters = .error (.compile e) ↔
      ∃ x, Notation.parse text = .ok x ∧ ofExpr .full parameters x = .error e := by
  unfold ofText
  cases hx : Notation.parse text with
  | error e' => simp
  | ok x =>
    dsimp only
    split <;> simp_all

/-- A text is refused for its variables just if it is a formula with some that are not given. -/
theorem ofText_eq_unbound_iff :
    ofText text parameters = .error (.compile (.unbound missing expected)) ↔
      ∃ x, Notation.parse text = .ok x ∧
        missing = (Notation.freeVariables x).filter (fun name => !parameters.contains name) ∧
        missing ≠ [] ∧ expected = parameters := by
  rw [ofText_eq_compile_iff]
  refine exists_congr fun x => and_congr_right fun _ => ?_
  rw [ofExpr_eq_error_iff, Program.compile_eq_unbound_iff]
  rfl

end CompiledFormula
end Graphing
