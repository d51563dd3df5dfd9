/-
  Graphing.Proofs.Evaluation.Layout

  What can be laid out as a program.

  Laying out an expression puts the terms of sums in order and takes products
  apart into a number, factors above and factors below the fraction bar.  All
  parts are still there afterwards (`termsTo_perm`, `any_orderedFactors`), and
  none is larger than before.  So an expression without uncalled functions is
  laid out unless it holds a pole or a band, and then that is the fault
  (`layout_punctured`); compiling adds three checks in front (`compile_punctured`).
-/
import Graphing.Proofs.Evaluation.Compiling

namespace Graphing

/-! ## The order of parts -/

namespace Expr

theorem insertBy_perm {α : Type} (less : α → α → Bool) (x : α) (xs : List α) :
    (insertBy less x xs).Perm (x :: xs) := by
  induction xs with
  | nil => exact .refl _
  | cons y ys ih =>
    unfold insertBy
    split
    · exact .refl _
    · exact (ih.cons y).trans (.swap x y ys)

theorem sortBy_perm {α : Type} (less : α → α → Bool) (xs : List α) : (sortBy less xs).Perm xs := by
  have hfold : ∀ sorted : List α,
      (xs.foldl (fun sorted x => insertBy less x sorted) sorted).Perm (xs ++ sorted) := by
    induction xs with
    | nil => exact fun sorted => .refl sorted
    | cons x xs ih =>
      intro sorted
      calc (xs.foldl (fun sorted x => insertBy less x sorted) (insertBy less x sorted)).Perm
            (xs ++ insertBy less x sorted) := ih _
        List.Perm _ (xs ++ x :: sorted) := (insertBy_perm less x sorted).append_left xs
        List.Perm _ (x :: xs ++ sorted) := List.perm_middle
  have h := hfold []
  rwa [List.append_nil] at h

theorem sortByKey_perm (xs : List Expr) : (sortByKey xs).Perm xs := by
  have h := (sortBy_perm (fun a b : OrderKey × Expr => a.1.compare b.1 == .lt)
    (xs.map fun x => (x.key, x))).map Prod.snd
  rw [List.map_map] at h
  exact h.trans (.of_eq (List.map_id xs))

theorem termShape_term (value : Expr → Option (Float × Float)) (t : Expr) :
    (termShape value t).term = t := by
  -- no factor of the term changes what the shape is the shape of
  have hfold : ∀ (fs : List Expr) (s : TermShape) (step : TermShape → Expr → TermShape),
      (∀ s f, (step s f).term = s.term) → (fs.foldl step s).term = s.term := by
    intro fs s step hstep
    induction fs generalizing s with
    | nil => rfl
    | cons f fs ih => exact (ih (step s f)).trans (hstep s f)
  refine hfold (factors t) _ _ fun s f => ?_
  dsimp only
  split <;> rfl

theorem leadingNumber?_perm {ts ordered : List Expr} (h : leadingNumber? ts = some ordered) :
    ordered.Perm ts := by
  have htwo : ∀ (first second : Bool) (a b : Expr),
      (if first then some [a, b] else if second then some [b, a] else none) = some ordered →
        ordered.Perm [a, b] := by
    intro first second a b h
    cases first with
    | true => cases h; exact .refl _
    | false =>
      cases second with
      | true => cases h; exact .swap _ _ _
      | false => cases h
  unfold leadingNumber? at h
  dsimp only at h
  split at h
  · exact htwo _ _ _ _ h
  · cases h

/-- A sum keeps its terms when they are put in order. -/
theorem termsTo_perm (value : Expr → Option (Float × Float)) (depth : Nat) (ts : List Expr) :
    (termsTo value depth ts).Perm ts := by
  cases depth with
  | zero => rw [termsTo]
  | succ depth =>
    rw [termsTo]
    cases hleading : leadingNumber? ts with
    | some ordered => exact leadingNumber?_perm hleading
    | none =>
      dsimp only
      refine ((sortBy_perm _ _).map TermShape.term).trans (.of_eq ?_)
      rw [List.map_map]
      exact List.map_id'' (termShape_term value) ts

theorem orderTerms_perm (ts : List Expr) : (orderTerms ts).Perm ts := termsTo_perm _ _ ts

/-! ## Sizes -/

theorem size_pos (x : Expr) : 0 < x.size := by
  cases x <;> simp only [size] <;> omega

theorem size_le_sizes {x : Expr} {xs : List Expr} (h : x ∈ xs) : x.size ≤ size.sizes xs := by
  induction xs with
  | nil => cases h
  | cons y ys ih =>
    rw [size.sizes]
    rcases List.mem_cons.mp h with rfl | h
    · omega
    · have := ih h
      omega

theorem size_of_isNumber {x : Expr} (h : x.isNumber = true) : x.size = 1 := by
  cases x <;> first | rfl | cases h

/-! ## Properties of parts -/

/-- A property that an expression has through its parts, and that no number has. -/
structure Inherited (p : Expr → Bool) : Prop where
  product : ∀ fs, p (.product fs) = fs.any p
  power : ∀ b e, p (.power b e) = (p b || p e)
  number : ∀ x, x.isNumber = true → p x = false

variable {p : Expr → Bool}

namespace Inherited

theorem factors (hp : Inherited p) (x : Expr) : (factors x).any p = p x := by
  unfold Expr.factors
  split
  · exact (hp.product _).symm
  · rw [List.any_cons, List.any_nil, Bool.or_false]

theorem rawProduct (hp : Inherited p) (xs : List Expr) : p (rawProduct xs) = xs.any p := by
  unfold Expr.rawProduct
  split
  · exact hp.number _ rfl
  · rw [List.any_cons, List.any_nil, Bool.or_false]
  · exact hp.product _

end Inherited

/-! ## The factors of a product -/

/-- The factors of a product in the order in which they are multiplied, with a positive number in
front unless it is one. -/
def orderedFactors (fs : List Expr) : List Expr :=
  let (c, rest) := splitCoefficient (.product fs)
  let c := absNumber c
  sortByKey (if c.isOne then factors rest else c :: factors rest)

theorem isNumber_absNumber {x : Expr} (h : x.isNumber = true) : (absNumber x).isNumber = true := by
  have hreal : ∀ r, (ofReal r).isNumber = true := by
    intro r
    unfold ofReal
    split <;> rfl
  unfold absNumber
  split
  · cases x with
    | rat q => rfl
    | real r => exact hreal _
    | posInf => rfl
    | negInf => rfl
    | nan => rfl
    | _ => cases h
  · exact h

/-- The number of a product and the rest of it, in terms of its factors. -/
theorem splitCoefficient_product (fs : List Expr) :
    splitCoefficient (.product fs) = (one, .product fs) ∨
      ∃ c rest, fs = c :: rest ∧ c.isNumber = true ∧
        splitCoefficient (.product fs) = (c, rawProduct rest) := by
  cases fs with
  | nil => exact .inl rfl
  | cons c rest =>
    unfold splitCoefficient
    dsimp only
    split
    · rename_i hc
      exact .inr ⟨c, rest, rfl, hc, rfl⟩
    · exact .inl rfl

theorem any_orderedFactors (hp : Inherited p) (fs : List Expr) :
    (orderedFactors fs).any p = fs.any p := by
  have hone : ∀ c rest : Expr, c.isNumber = true →
      (if c.isOne then factors rest else c :: factors rest).any p = p rest := by
    intro c rest hc
    split
    · exact hp.factors rest
    · rw [List.any_cons, hp.number c hc, Bool.false_or, hp.factors]
  unfold orderedFactors
  rw [(sortByKey_perm _).any_eq]
  rcases splitCoefficient_product fs with h | ⟨c, rest, rfl, hc, h⟩
  · rw [h]
    exact (hone _ _ (isNumber_absNumber (x := one) rfl)).trans (hp.product fs)
  · rw [h]
    refine (hone _ _ (isNumber_absNumber hc)).trans ?_
    rw [hp.rawProduct, List.any_cons, hp.number c hc, Bool.false_or]

theorem size_le_of_mem_factors {x f : Expr} (h : f ∈ factors x) : f.size ≤ x.size := by
  unfold factors at h
  split at h
  · have := size_le_sizes h
    rw [size]
    omega
  · exact (List.mem_singleton.mp h) ▸ Nat.le_refl _

/-- No factor is larger than all of them were. -/
theorem size_le_of_mem_orderedFactors {fs : List Expr} {f : Expr} (h : f ∈ orderedFactors fs) :
    f.size ≤ size.sizes fs := by
  unfold orderedFactors at h
  rw [(sortByKey_perm _).mem_iff] at h
  rcases splitCoefficient_product fs with hsplit | ⟨c, rest, rfl, hc, hsplit⟩
  · rw [hsplit] at h
    exact size_le_sizes h
  · rw [hsplit] at h
    rw [size.sizes]
    have hnumber : c.size = 1 := size_of_isNumber hc
    have hrest : ∀ f ∈ factors (rawProduct rest), f.size ≤ c.size + size.sizes rest := by
      intro f hf
      unfold rawProduct at hf
      split at hf
      · rw [List.mem_singleton.mp hf, hnumber]
        exact Nat.le_add_right 1 _
      · have := size_le_of_mem_factors hf
        rw [size.sizes]
        omega
      · have : f.size ≤ size.sizes rest := size_le_sizes hf
        omega
    dsimp only at h
    split at h
    · exact hrest f h
    · rcases List.mem_cons.mp h with rfl | h
      · rw [size_of_isNumber (isNumber_absNumber hc)]
        omega
      · exact hrest f h

end Expr

/-! ## Factors below the fraction bar -/

namespace Program

open Graphing.Expr (Inherited orderedFactors)

variable {p : Expr → Bool}

theorem holesIn_eq (xs : List Expr) : hasHole.holesIn xs = xs.any hasHole := by
  induction xs with
  | nil => rfl
  | cons x xs ih => rw [hasHole.holesIn, List.any_cons, ih]

theorem anyHoldsFunction_eq (xs : List Expr) :
    Expr.anyHoldsFunction xs = xs.any Expr.holdsFunction := by
  induction xs with
  | nil => rfl
  | cons x xs ih => rw [Expr.anyHoldsFunction, List.any_cons, ih]

theorem inherited_hasHole : Inherited hasHole where
  product fs := by rw [hasHole, holesIn_eq]
  power b e := by rw [hasHole]
  number x h := by cases x <;> first | rfl | cases h

theorem inherited_holdsFunction : Inherited Expr.holdsFunction where
  product fs := by rw [Expr.holdsFunction, anyHoldsFunction_eq]
  power b e := by rw [Expr.holdsFunction]
  number x h := by cases x <;> first | rfl | cases h

/-- What stands below the fraction bar is a power with a number as exponent. -/
theorem denominator?_eq_some {x d : Expr} (h : denominator? x = some d) :
    ∃ b q, x = .power b (.rat q) ∧ (d = b ∨ d = .power b (.rat (-q))) := by
  unfold denominator? at h
  split at h
  · split at h
    · rename_i b q _
      cases h
      refine ⟨b, q, rfl, ?_⟩
      split
      · exact .inl rfl
      · exact .inr rfl
    · cases h
  · cases h

theorem denominator_inherits (hp : Inherited p) {x d : Expr} (h : denominator? x = some d) :
    p d = p x := by
  have hrat : ∀ q, p (.rat q) = false := fun q => hp.number _ rfl
  obtain ⟨b, q, rfl, rfl | rfl⟩ := denominator?_eq_some h
  · rw [hp.power, hrat, Bool.or_false]
  · rw [hp.power, hp.power, hrat, hrat]

theorem size_denominator_le {x d : Expr} (h : denominator? x = some d) : d.size ≤ x.size := by
  obtain ⟨b, q, rfl, rfl | rfl⟩ := denominator?_eq_some h
  · simp only [Expr.size]
    omega
  · simp only [Expr.size]
    exact Nat.le_refl _

/-- Each factor stands above the fraction bar or below it. -/
theorem any_top_or_bottom (hp : Inherited p) (xs : List Expr) :
    ((xs.filter fun f => (denominator? f).isNone).any p || (xs.filterMap denominator?).any p)
      = xs.any p := by
  induction xs with
  | nil => rfl
  | cons x xs ih =>
    rw [List.any_cons, ← ih]
    cases hx : denominator? x with
    | none =>
      rw [List.filterMap_cons_none hx, List.filter_cons_of_pos (by rw [hx]; rfl), List.any_cons,
        Bool.or_assoc]
    | some d =>
      rw [List.filterMap_cons_some hx, List.filter_cons_of_neg (by rw [hx]; nofun), List.any_cons,
        denominator_inherits hp hx, Bool.or_left_comm]

/-! ## Computations that fail at a hole -/

/-- The computation fails, and at a pole or a band, just if the condition holds. -/
def Punctured {α : Type} (hole : Bool) (x : Except CompileError α) : Prop :=
  (hole = true ∧ ∃ h, x = .error (.hole h)) ∨ (hole = false ∧ ∃ a, x = .ok a)

namespace Punctured

variable {α β : Type} {hole hole' : Bool}

theorem ok (a : α) : Punctured false (.ok a : Except CompileError α) := .inr ⟨rfl, a, rfl⟩

theorem error (h : Hole) : Punctured true (.error (.hole h) : Except CompileError α) :=
  .inl ⟨rfl, h, rfl⟩

theorem bind {x : Except CompileError α} {f : α → Except CompileError β} (hx : Punctured hole x)
    (hf : ∀ a, Punctured hole' (f a)) : Punctured (hole || hole') (x >>= f) := by
  rcases hx with ⟨rfl, h, rfl⟩ | ⟨rfl, a, rfl⟩
  · exact .inl ⟨rfl, h, rfl⟩
  · exact hf a

theorem map {x : Except CompileError α} (f : α → β) (hx : Punctured hole x) :
    Punctured hole (do return f (← x)) := by
  rcases hx with ⟨rfl, h, rfl⟩ | ⟨rfl, a, rfl⟩
  · exact error h
  · exact ok (f a)

theorem mapM {f : α → Except CompileError β} {hole : α → Bool} {as : List α}
    (hf : ∀ a ∈ as, Punctured (hole a) (f a)) : Punctured (as.any hole) (as.mapM f) := by
  rcases Except.mapM_cases f as with ⟨a, ha, e, hfa, hrun⟩ | ⟨hall, hrun⟩
  · rcases hf a ha with ⟨hhole, h, hfa'⟩ | ⟨-, b, hfa'⟩
    · cases hfa.symm.trans hfa'
      exact .inl ⟨List.any_eq_true.mpr ⟨a, ha, hhole⟩, h, hrun⟩
    · cases hfa.symm.trans hfa'
  · refine .inr ⟨List.any_eq_false.mpr fun a ha hhole => ?_, _, hrun⟩
    obtain ⟨b, hb⟩ := hall a ha
    rcases hf a ha with ⟨-, h, hfa⟩ | ⟨hnone, -⟩
    · cases hb.symm.trans hfa
    · exact Bool.false_ne_true (hnone.symm.trans hhole)

end Punctured

/-! ## Laying out -/

variable {position : String → Option Nat} {n : Nat}

/-- Expressions up to a size, in which every function is called, are laid out unless they hold a
pole or a band. -/
def LaysOut (position : String → Option Nat) (n : Nat) : Prop :=
  ∀ x : Expr, x.size ≤ n → x.holdsFunction = false → Punctured (hasHole x) (layout position n x)

theorem small_and_called_of_mem {xs : List Expr} (hsizes : Expr.size.sizes xs ≤ n)
    (hcalled : Expr.anyHoldsFunction xs = false) :
    ∀ x ∈ xs, x.size ≤ n ∧ x.holdsFunction = false := by
  intro x hx
  rw [anyHoldsFunction_eq] at hcalled
  exact ⟨Nat.le_trans (Expr.size_le_sizes hx) hsizes,
    Bool.eq_false_iff.mpr (List.any_eq_false.mp hcalled x hx)⟩

namespace LaysOut

theorem mapM (ih : LaysOut position n) (xs : List Expr)
    (hxs : ∀ x ∈ xs, x.size ≤ n ∧ x.holdsFunction = false) :
    Punctured (xs.any hasHole) (xs.mapM (layout position n)) :=
  .mapM fun x hx => ih x (hxs x hx).1 (hxs x hx).2

theorem var (name : String) : Punctured false (layout position (n + 1) (.var name)) := by
  unfold layout
  dsimp only
  split <;> exact .ok _

theorem sum (ih : LaysOut position n) {ts : List Expr} (hsize : Expr.size.sizes ts ≤ n)
    (hcalled : Expr.anyHoldsFunction ts = false) :
    Punctured (hasHole (.sum ts)) (layout position (n + 1) (.sum ts)) := by
  have hperm := Expr.orderTerms_perm ts
  have hterms := ih.mapM (Expr.orderTerms ts) fun t ht =>
    small_and_called_of_mem hsize hcalled t (hperm.mem_iff.mp ht)
  rw [hperm.any_eq, ← holesIn_eq] at hterms
  exact hterms.map _

/-- The factors above the fraction bar come first, so that a hole among them is the one found. -/
theorem product (ih : LaysOut position n) {fs : List Expr} (hsize : Expr.size.sizes fs ≤ n)
    (hcalled : (Expr.product fs).holdsFunction = false) :
    Punctured (hasHole (.product fs)) (layout position (n + 1) (.product fs)) := by
  have hordered : ∀ f ∈ orderedFactors fs, f.size ≤ n ∧ f.holdsFunction = false := by
    rw [inherited_holdsFunction.product, ← Expr.any_orderedFactors inherited_holdsFunction]
      at hcalled
    intro f hf
    have := Expr.size_le_of_mem_orderedFactors hf
    exact ⟨by omega, Bool.eq_false_iff.mpr (List.any_eq_false.mp hcalled f hf)⟩
  have htop := ih.mapM ((orderedFactors fs).filter fun f => (denominator? f).isNone)
    fun f hf => hordered f (List.mem_filter.mp hf).1
  have hbottom := ih.mapM ((orderedFactors fs).filterMap denominator?) fun d hd => by
    obtain ⟨f, hf, hfd⟩ := List.mem_filterMap.mp hd
    obtain ⟨hle, hnone⟩ := hordered f hf
    exact ⟨Nat.le_trans (size_denominator_le hfd) hle,
      (denominator_inherits inherited_holdsFunction hfd).trans hnone⟩
  have hboth := htop.bind fun top => hbottom.map (Program.product
    (Expr.splitCoefficient (.product fs)).1.isNegativeNumber top)
  rw [any_top_or_bottom inherited_hasHole, Expr.any_orderedFactors inherited_hasHole,
    ← inherited_hasHole.product] at hboth
  exact hboth

theorem power {b e : Expr} (hb : Punctured (hasHole b) (layout position n b))
    (he : Punctured (hasHole e) (layout position n e)) :
    Punctured (hasHole (.power b e)) (layout position (n + 1) (.power b e)) := by
  rw [hasHole]
  unfold layout
  dsimp only
  split
  · -- an exponent that is a number has no hole
    rename_i q
    rw [show hasHole (.rat q) = false from rfl, Bool.or_false]
    split
    · exact hb.map _
    · split
      · exact hb.map _
      · split <;> exact hb.map _
  · exact hb.bind fun p => he.map _

theorem call (ih : LaysOut position n) (f : Fn) {args : List Expr}
    (hargs : ∀ a ∈ args, a.size ≤ n ∧ a.holdsFunction = false) :
    Punctured (hasHole (.call f args)) (layout position (n + 1) (.call f args)) := by
  have hsingle : ∀ a, args = [a] → hasHole (.call f args) = hasHole a ∧
      Punctured (hasHole a) (layout position n a) := by
    rintro a rfl
    obtain ⟨hle, hnone⟩ := hargs a List.mem_cons_self
    exact ⟨Bool.or_false _, ih a hle hnone⟩
  unfold layout
  dsimp only
  split
  · obtain ⟨hhole, ha⟩ := hsingle _ rfl
    rw [hhole]
    exact ha.map _
  · obtain ⟨hhole, ha⟩ := hsingle _ rfl
    rw [hhole]
    exact ha.map _
  · obtain ⟨hhole, ha⟩ := hsingle _ rfl
    rw [hhole, ← Bool.or_false (hasHole _)]
    refine ha.bind fun p => ?_
    split <;> exact .ok _
  · have h := (ih.mapM args hargs).map (Program.call f)
    rw [← holesIn_eq] at h
    exact h

end LaysOut

/-- An expression in which every function is called is laid out unless it holds a pole or a
band. -/
theorem layout_punctured {x : Expr} (hsize : x.size ≤ n) (hcalled : x.holdsFunction = false) :
    Punctured (hasHole x) (layout position n x) := by
  -- on the size, since what stands below the fraction bar need not be a part of the product: for
  -- `x ^ (-2)` that is `x ^ 2`
  induction n generalizing x with
  | zero => exact absurd hsize (Nat.not_le.mpr x.size_pos)
  | succ n ih =>
    have ih : LaysOut position n := fun y hy hnone => ih hy hnone
    cases x with
    | rat q => exact .ok _
    | real r => exact .ok _
    | const c => cases c <;> exact .ok _
    | nan => exact .ok _
    | pole => exact .error _
    | posInf => exact .ok _
    | negInf => exact .ok _
    | band => exact .error _
    | var name => exact LaysOut.var name
    | sum ts =>
      rw [Expr.size] at hsize
      exact ih.sum (by omega) hcalled
    | product fs =>
      rw [Expr.size] at hsize
      exact ih.product (by omega) hcalled
    | power b e =>
      rw [Expr.size] at hsize
      rw [Expr.holdsFunction, Bool.or_eq_false_iff] at hcalled
      exact LaysOut.power (ih b (by omega) hcalled.1) (ih e (by omega) hcalled.2)
    | call f args =>
      rw [Expr.size] at hsize
      exact ih.call f (small_and_called_of_mem (by omega) hcalled)
    | rule name => exact .ok _
    | function name => cases hcalled
    | truth b => exact .ok _
    | compare c l r =>
      rw [Expr.size] at hsize
      rw [Expr.holdsFunction, Bool.or_eq_false_iff] at hcalled
      exact (ih l (by omega) hcalled.1).bind fun p => (ih r (by omega) hcalled.2).map _
    | logic c xs =>
      rw [Expr.size] at hsize
      have h := (ih.mapM xs (small_and_called_of_mem (by omega) hcalled)).map (Program.logic c)
      rw [← holesIn_eq] at h
      exact h
    | tuple xs =>
      rw [Expr.size] at hsize
      have h := (ih.mapM xs (small_and_called_of_mem (by omega) hcalled)).map
        fun _ => Program.missing .unsuitable
      rw [← holesIn_eq] at h
      exact h

/-! ## Compiling -/

/-- What is asked of an expression before it is laid out: its variables are given, every call in
it has an implementation or a meaning, and no function stands in it uncalled. -/
structure Writable (bound : Fn → Bool) (vars : List String) (x : Expr) : Prop where
  given : ∀ name ∈ x.freeNames, name ∈ vars
  supported : unsupported bound x = []
  called : x.holdsFunction = false
  stillCalled : (inPlaces vars x).holdsFunction = false

variable {bound : Fn → Bool} {vars : List String} {x : Expr}

theorem missing_eq_nil_iff :
    x.freeNames.filter (fun name => !vars.contains name) = [] ↔
      ∀ name ∈ x.freeNames, name ∈ vars := by
  simp [List.filter_eq_nil_iff]

theorem compile_of_not_writable (h : ¬ Writable bound vars x) :
    ∃ e, compile bound vars x = .error e ∧ ∀ hole, e ≠ .hole hole := by
  unfold compile
  dsimp only
  split
  · exact ⟨_, rfl, nofun⟩
  · rename_i hgiven
    split
    · exact ⟨_, rfl, nofun⟩
    · rename_i hsupported
      split
      · exact ⟨_, rfl, nofun⟩
      · rename_i hcalled
        refine absurd ?_ h
        rw [Bool.not_eq_true', Bool.not_eq_false, List.isEmpty_iff] at hgiven hsupported
        rw [Bool.not_eq_true, Bool.or_eq_false_iff] at hcalled
        exact ⟨missing_eq_nil_iff.mp hgiven, hsupported, hcalled.1, hcalled.2⟩

/-- An expression that passes the checks is compiled unless it holds a pole or a band once its
variables stand for arguments. -/
theorem compile_punctured (h : Writable bound vars x) :
    Punctured (hasHole (inPlaces vars x)) (compile bound vars x) := by
  unfold compile
  dsimp only
  rw [missing_eq_nil_iff.mpr h.given, h.supported, h.called, h.stillCalled]
  have hbody : Punctured (hasHole (inPlaces vars x))
      (layout (argumentPosition vars.length) (inPlaces vars x).size (inPlaces vars x)) :=
    layout_punctured (Nat.le_refl _) h.stillCalled
  rw [← Bool.or_false (hasHole _)]
  refine hbody.bind fun body => ?_
  split <;> exact .ok _

end Program
end Graphing
