/-
  Graphing.Proofs.Evaluation.Keys

  What a key says of the functions that are bound.  For the implementations of
  the notation it says the same as the list that formulas are compiled with
  elsewhere, so that both compile alike (`build_full`).  A text is compiled in a
  workshop like the expression in it (`compileText_eq`).
-/
import Graphing.Evaluation.Workshop
import Graphing.Proofs.Except
import Mathlib.Data.List.Basic

namespace Graphing

/-! ## Names with an implementation -/

namespace Implementations

variable {b : Implementations} {name n : String} {i : Implementation} {x : Expr}

theorem mem_names_set : n ∈ (b.set name i).names ↔ n = name ∨ n ∈ b.names := by
  obtain ⟨entries⟩ := b
  unfold names set
  dsimp only
  induction entries with
  | nil => simp [insertEntry]
  | cons e rest ih =>
    unfold insertEntry
    split
    · simp
    · split
      · rename_i _ hsame
        obtain rfl : name = e.1 := by simpa using hsame
        simp
      · rw [List.map_cons, List.map_cons, List.mem_cons, List.mem_cons, ih, or_left_comm]

theorem isHashable_set (hb : b.isHashable = true) (hi : i.isHashable = true) :
    (b.set name i).isHashable = true := by
  obtain ⟨entries⟩ := b
  unfold isHashable set at *
  dsimp only at *
  induction entries with
  | nil => simpa [insertEntry] using hi
  | cons e rest ih =>
    rw [List.all_cons, Bool.and_eq_true] at hb
    unfold insertEntry
    split
    · simp [hb, hi]
    · split
      · simp [hb, hi]
      · rw [List.all_cons, hb.1, ih hb.2]
        rfl

theorem isHashable_withFallbacks (hb : b.isHashable = true) :
    (b.withFallbacks x).isHashable = true := by
  unfold withFallbacks
  induction x.functions generalizing b with
  | nil => exact hb
  | cons f fs ih =>
    refine ih ?_
    dsimp only
    split
    · exact isHashable_set hb rfl
    · exact hb

theorem isHashable_full : full.isHashable = true := by decide

/-- With the implementations that functions have anyway come the names of those that are called. -/
theorem mem_names_withFallbacks : n ∈ (b.withFallbacks x).names ↔
    n ∈ b.names ∨ (n ∈ fallbackNames ∧ ∃ f ∈ x.functions, f.name = n) := by
  unfold withFallbacks
  induction x.functions generalizing b with
  | nil => simp
  | cons f fs ih =>
    rw [List.foldl_cons, ih]
    split
    · rename_i hnew
      rw [Bool.and_eq_true, List.contains_iff_mem] at hnew
      rw [mem_names_set, List.exists_mem_cons_iff]
      constructor
      · rintro ((rfl | hmem) | ⟨hfallback, hcalled⟩)
        · exact .inr ⟨hnew.2, .inl rfl⟩
        · exact .inl hmem
        · exact .inr ⟨hfallback, .inr hcalled⟩
      · rintro (hmem | ⟨hfallback, rfl | hcalled⟩)
        · exact .inl (.inr hmem)
        · exact .inl (.inl rfl)
        · exact .inr ⟨hfallback, hcalled⟩
    · rename_i hold
      rw [List.exists_mem_cons_iff]
      constructor
      · rintro (hmem | ⟨hfallback, hcalled⟩)
        · exact .inl hmem
        · exact .inr ⟨hfallback, .inr hcalled⟩
      · rintro (hmem | ⟨hfallback, rfl | hcalled⟩)
        · exact .inl hmem
        · -- the function has an implementation already
          refine .inl (by_contra fun hmem => hold ?_)
          simp [hmem, hfallback]
        · exact .inr ⟨hfallback, hcalled⟩

end Implementations

/-! ## Calls that cannot be written out -/

namespace Program

variable {bound bound' : Fn → Bool}

mutual
/-- Only the functions that are called count. -/
theorem unsupported_congr : ∀ x : Expr, (∀ f ∈ x.functions, bound f = bound' f) →
    unsupported bound x = unsupported bound' x
  | .rat _, _ | .real _, _ | .const _, _ | .nan, _ | .pole, _ | .posInf, _ | .negInf, _
  | .band, _ | .var _, _ | .rule _, _ | .function _, _ | .truth _, _ => rfl
  | .sum xs, h | .product xs, h | .logic _ xs, h | .tuple xs, h => unsupportedIn_congr xs h
  | .power l r, h | .compare _ l r, h => by
    have hl := unsupported_congr l fun f hf => h f (List.mem_append_left _ hf)
    have hr := unsupported_congr r fun f hf => h f (List.mem_append_right _ hf)
    rw [unsupported, unsupported, hl, hr]
  | .call f xs, h => by
    have hf := h f List.mem_cons_self
    have hxs := unsupportedIn_congr xs fun g hg => h g (List.mem_cons_of_mem f hg)
    rw [unsupported, unsupported, hf, hxs]

theorem unsupportedIn_congr : ∀ xs : List Expr, (∀ f ∈ Expr.functionsOf xs, bound f = bound' f) →
    unsupportedIn bound xs = unsupportedIn bound' xs
  | [], _ => rfl
  | x :: xs, h => by
    have hx := unsupported_congr x fun f hf => h f (List.mem_append_left _ hf)
    have hxs := unsupportedIn_congr xs fun f hf => h f (List.mem_append_right _ hf)
    rw [unsupportedIn, unsupportedIn, hx, hxs]
end

theorem compile_congr {vars : List String} {x : Expr}
    (h : ∀ f ∈ x.functions, bound f = bound' f) :
    compile bound vars x = compile bound' vars x := by
  unfold compile
  rw [unsupported_congr x h]

end Program

/-! ## The implementations of the notation -/

variable {x : Expr} {names : List String}

/-- No function that is known by its name only has the name of one with an implementation. -/
def HasOwnNames (x : Expr) : Prop :=
  ∀ s, Fn.named s ∈ x.functions → s ∉ Implementations.full.names ∧ s ∉ fallbackNames

theorem binds_full (hx : HasOwnNames x) {f : Fn} (hf : f ∈ x.functions) :
    (Bindings.exactly (Implementations.full.withFallbacks x).names).binds f =
      Bindings.full.binds f := by
  have hmem : f.name ∈ (Implementations.full.withFallbacks x).names ↔
      f.name ∈ Implementations.full.names ∨ f.name ∈ fallbackNames := by
    rw [Implementations.mem_names_withFallbacks, and_iff_left ⟨f, hf, rfl⟩]
  have hbinds : (Bindings.exactly (Implementations.full.withFallbacks x).names).binds f =
      decide (f.name ∈ Implementations.full.names ∨ f.name ∈ fallbackNames) := by
    rw [Bindings.binds, List.contains_eq_mem, decide_eq_decide]
    exact hmem
  rw [hbinds]
  cases f with
  | named s =>
    obtain ⟨hfull, hfallback⟩ := hx s hf
    exact decide_eq_false (not_or.mpr ⟨hfull, hfallback⟩)
  | _ => decide

/-- With the implementations of the notation, what is compiled for a key is what is compiled with
the list of functions that only have these. -/
theorem CompileKey.build_full (hx : HasOwnNames x) :
    ((CompileKey.withFallbacks ⟨x, names, .full⟩).build.map CompiledFunction.formula) =
      CompiledFormula.ofExpr .full names x := by
  have hcompile : Program.compile
      (Bindings.exactly (Implementations.full.withFallbacks x).names).binds names x =
        Program.compile Bindings.full.binds names x :=
    Program.compile_congr fun f hf => binds_full hx hf
  unfold build withFallbacks CompiledFormula.ofExpr
  dsimp only
  rw [hcompile]
  cases Program.compile Bindings.full.binds names x <;> rfl

namespace Workshop

/-- A request with the implementations of the notation compiles the expression with these. -/
theorem numpify_package (w : Workshop) {v : Variables} (hv : v.names x = .ok names)
    (cache : Bool) :
    w.numpify ⟨.formula x, v, packageBindings⟩ cache =
      (if cache then w.compile ⟨x, names, .full⟩ else w.compileFresh ⟨x, names, .full⟩).map
        (·.mapError .compile) id := by
  have hkey : Request.key ⟨.formula x, v, packageBindings⟩ =
      (CompileKey.prepare ⟨x, names, .full⟩).mapError .compile := by
    unfold Request.key
    change (Variables.names x v >>= _) = _
    rw [hv]
    -- the check of the variables looks at no implementation
    change ((CompileKey.check ⟨x, names, .full⟩).mapError RequestError.compile >>= _) = _
    unfold CompileKey.prepare
    cases CompileKey.check ⟨x, names, .full⟩ <;> rfl
  have hhash : (Implementations.full.withFallbacks x).isHashable = true :=
    Implementations.isHashable_withFallbacks Implementations.isHashable_full
  unfold numpify compile compileFresh
  rw [hkey]
  unfold CompileKey.prepare
  cases CompileKey.check ⟨x, names, .full⟩ with
  | error e => cases cache <;> rfl
  | ok =>
    cases cache with
    | false => rfl
    | true => exact if_pos hhash

theorem names_given (x : Expr) (names : List String) :
    Variables.names x (.given (names.map some)) = .ok names := by
  have hall : (names.map some).mapM id = some names := by
    induction names with
    | nil => rfl
    | cons a names ih => rw [List.map_cons, List.mapM_cons, ih]; rfl
  unfold Variables.names
  dsimp only
  rw [hall]

/-- A text is compiled like the expression in it. -/
theorem compileText_eq (w : Workshop) {text : String} (h : Notation.parse text = .ok x) :
    w.compileText text names = (w.compile ⟨x, names, .full⟩).map (·.mapError .compile) id := by
  unfold compileText compileExpression Request.withPackage
  rw [h]
  exact w.numpify_package (names_given x names) true

end Workshop
end Graphing
