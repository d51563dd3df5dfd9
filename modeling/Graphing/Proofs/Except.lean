/-
  Graphing.Proofs.Except

  Computations that can fail, taken apart at their steps.
-/
import Mathlib.Init

namespace Except

variable {ε α β : Type}

/-- A sequence of two computations succeeds if both do. -/
theorem bind_eq_ok {x : Except ε α} {f : α → Except ε β} {b : β} :
    x >>= f = .ok b ↔ ∃ a, x = .ok a ∧ f a = .ok b := by
  cases x with
  | error e => simp [bind, Except.bind]
  | ok a => simp [bind, Except.bind]

/-- Two computations that begin alike and succeed go on from the same result. -/
theorem exists_of_bind_eq_ok {γ : Type} {x : Except ε α} {f : α → Except ε β} {g : α → Except ε γ}
    {b : β} {c : γ} (hf : x >>= f = .ok b) (hg : x >>= g = .ok c) :
    ∃ a, f a = .ok b ∧ g a = .ok c := by
  obtain ⟨a, hx, hb⟩ := bind_eq_ok.mp hf
  obtain ⟨a', hx', hc⟩ := bind_eq_ok.mp hg
  cases hx.symm.trans hx'
  exact ⟨a, hb, hc⟩

/-- A computation succeeds whatever its faults are turned into. -/
theorem eq_ok_of_mapError {ε' : Type} {f : ε → ε'} {x : Except ε α} {a : α}
    (h : x.mapError f = .ok a) : x = .ok a := by
  cases x with
  | error e => cases h
  | ok b => exact congrArg Except.ok (Except.ok.inj h)

theorem eq_ok_of_toOption {x : Except ε α} {a : α} (h : x.toOption = some a) : x = .ok a := by
  cases x with
  | error e => cases h
  | ok b => exact congrArg Except.ok (Option.some.inj h)

theorem exists_eq_ok {x : Except ε α} (h : x.toOption.isSome) : ∃ a, x = .ok a := by
  cases x with
  | error e => cases h
  | ok a => exact ⟨a, rfl⟩

theorem exists_eq_ok_of_any {x : Except ε α} {p : α → Bool} (h : x.toOption.any p = true) :
    ∃ a, x = .ok a ∧ p a = true := by
  cases x with
  | error e => cases h
  | ok a => exact ⟨a, rfl, h⟩

/-- A computation for each element of a list fails with the fault of an element, or gives all
results. -/
theorem mapM_cases (f : α → Except ε β) (as : List α) :
    (∃ a ∈ as, ∃ e, f a = .error e ∧ as.mapM f = .error e) ∨
      ((∀ a ∈ as, ∃ b, f a = .ok b) ∧
        as.mapM f = .ok (as.filterMap fun a => (f a).toOption)) := by
  induction as with
  | nil => exact .inr ⟨fun _ ha => absurd ha List.not_mem_nil, rfl⟩
  | cons a as ih =>
    rw [List.mapM_cons]
    cases ha : f a with
    | error e => exact .inl ⟨a, List.mem_cons_self, e, ha, rfl⟩
    | ok b =>
      rcases ih with ⟨a', ha', e, hf, hrest⟩ | ⟨hall, hrest⟩
      · rw [hrest]
        exact .inl ⟨a', List.mem_cons_of_mem a ha', e, hf, rfl⟩
      · rw [hrest, List.filterMap_cons, ha]
        refine .inr ⟨?_, rfl⟩
        intro a' ha'
        rcases List.mem_cons.mp ha' with rfl | ha'
        · exact ⟨b, ha⟩
        · exact hall a' ha'

/-! ## Kinds of faults -/

/-- Whatever fault a computation has is one of a kind. -/
def FailsOnly (q : ε → Prop) (x : Except ε α) : Prop := ∀ e, x = .error e → q e

namespace FailsOnly

variable {q : ε → Prop}

theorem ok (a : α) : FailsOnly q (.ok a : Except ε α) := nofun

theorem error {e : ε} (h : q e) : FailsOnly q (.error e : Except ε α) := by
  rintro _ ⟨⟩
  exact h

theorem bind {x : Except ε α} {f : α → Except ε β} (hx : FailsOnly q x)
    (hf : ∀ a, FailsOnly q (f a)) : FailsOnly q (x >>= f) := by
  cases x with
  | error e => exact error (hx e rfl)
  | ok a => exact hf a

theorem mapM {f : α → Except ε β} (hf : ∀ a, FailsOnly q (f a)) (as : List α) :
    FailsOnly q (as.mapM f) := by
  rcases mapM_cases f as with ⟨a, -, e, ha, h⟩ | ⟨-, h⟩
  · rw [h]
    exact error (hf a e ha)
  · rw [h]
    exact ok _

theorem mapError {ε' : Type} {q' : ε' → Prop} {f : ε → ε'} {x : Except ε α}
    (h : ∀ e, x = .error e → q' (f e)) : FailsOnly q' (x.mapError f) := by
  cases x with
  | error e => exact error (h e rfl)
  | ok a => exact ok a

end FailsOnly
end Except
