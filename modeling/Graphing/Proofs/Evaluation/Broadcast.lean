/-
  Graphing.Proofs.Evaluation.Broadcast

  Tensors under a common shape.  Every tensor whose shape takes part in a
  common shape has a value at each index of that shape: its axes are the last
  axes of the common shape, and one of another length has length one
  (`Broadcasts`), so that the digits of an index find their place in it.
-/
import Graphing.Evaluation.Tensor
import Mathlib.Algebra.BigOperators.Group.List.Basic

namespace Graphing
namespace Tensor

/-! ## Shapes that are repeated to fit -/

/-- A reversed shape whose axes are axes of another one, or of length one. -/
inductive Broadcasts : (own common : List Nat) → Prop
  | nil (ns : List Nat) : Broadcasts [] ns
  | cons {m n : Nat} {ms ns : List Nat} (axis : m = n ∨ m = 1) (rest : Broadcasts ms ns) :
      Broadcasts (m :: ms) (n :: ns)

namespace Broadcasts

theorem refl (ns : List Nat) : Broadcasts ns ns := by
  induction ns with
  | nil => exact .nil []
  | cons n ns ih => exact .cons (.inl rfl) ih

theorem trans {ms ns ks : List Nat} (h : Broadcasts ms ns) (h' : Broadcasts ns ks) :
    Broadcasts ms ks := by
  induction h generalizing ks with
  | nil ns => exact .nil ks
  | cons axis rest ih =>
    cases h' with
    | cons axis' rest' =>
      refine .cons ?_ (ih rest')
      omega

/-- An axis that is repeated keeps its length or had length one. -/
theorem commonAxis {m n k : Nat} (h : commonAxis m n = some k) :
    (m = k ∨ m = 1) ∧ (n = k ∨ n = 1) := by
  unfold Tensor.commonAxis at h
  split at h
  · simp_all
  · split at h
    · simp_all
    · split at h <;> simp_all

theorem commonReversed {ms ns ks : List Nat} (h : commonReversed ms ns = some ks) :
    Broadcasts ms ks ∧ Broadcasts ns ks := by
  induction ms, ns using Tensor.commonReversed.induct generalizing ks with
  | case1 ns =>
    rw [commonReversed_nil] at h
    cases h
    exact ⟨.nil ns, refl ns⟩
  | case2 ms hms =>
    cases ms with
    | nil => exact absurd rfl hms
    | cons m ms =>
      cases h
      exact ⟨refl _, .nil _⟩
  | case3 m ms n ns ih =>
    rw [Tensor.commonReversed] at h
    obtain ⟨k, hk, h⟩ := Option.bind_eq_some_iff.mp h
    obtain ⟨rest, hrest, h⟩ := Option.bind_eq_some_iff.mp h
    cases h
    obtain ⟨hm, hn⟩ := commonAxis hk
    obtain ⟨hms, hns⟩ := ih hrest
    exact ⟨.cons hm hms, .cons hn hns⟩

theorem commonShape {ms ns ks : List Nat} (h : commonShape? ms ns = some ks) :
    Broadcasts ms.reverse ks.reverse ∧ Broadcasts ns.reverse ks.reverse := by
  obtain ⟨rs, hrs, rfl⟩ := Option.map_eq_some_iff.mp h
  rw [List.reverse_reverse]
  exact commonReversed hrs

/-- Each of the shapes that were put together, and the shape begun with, is repeated to fit. -/
theorem foldlM {shapes : List (List Nat)} {start common : List Nat}
    (h : shapes.foldlM commonShape? start = some common) :
    Broadcasts start.reverse common.reverse ∧
      ∀ s ∈ shapes, Broadcasts s.reverse common.reverse := by
  induction shapes generalizing start with
  | nil =>
    cases h
    exact ⟨refl _, fun s hs => absurd hs List.not_mem_nil⟩
  | cons s shapes ih =>
    rw [List.foldlM_cons] at h
    obtain ⟨next, hnext, h⟩ := Option.bind_eq_some_iff.mp h
    obtain ⟨hstart, hs⟩ := commonShape hnext
    obtain ⟨hfits, hrest⟩ := ih h
    refine ⟨hstart.trans hfits, fun u hu => ?_⟩
    rcases List.mem_cons.mp hu with rfl | hu
    · exact hs.trans hfits
    · exact hrest u hu

theorem commonShapes {shapes : List (List Nat)} {common s : List Nat}
    (h : commonShapes? shapes = some common) (hs : s ∈ shapes) :
    Broadcasts s.reverse common.reverse :=
  (foldlM h).2 s hs

end Broadcasts

/-- Shapes whose common shape is empty are empty themselves. -/
theorem eq_nil_of_commonShapes {shapes : List (List Nat)} (h : commonShapes? shapes = some [])
    {s : List Nat} (hs : s ∈ shapes) : s = [] := by
  have hfits : Broadcasts s.reverse [].reverse := .commonShapes h hs
  cases hrev : s.reverse with
  | nil => exact List.reverse_eq_nil_iff.mp hrev
  | cons m ms =>
    rw [hrev] at hfits
    cases hfits

/-- Empty shapes have the empty shape in common. -/
theorem commonShapes_replicate (n : Nat) : commonShapes? (List.replicate n []) = some [] := by
  unfold commonShapes?
  induction n with
  | zero => rfl
  | succ n ih => exact ih

/-! ## Indices under a common shape -/

theorem volume_eq_prod (shape : List Nat) : volume shape = shape.reverse.prod := by
  rw [List.prod_reverse, List.prod_eq_foldl]
  rfl

/-- The digits of an index stay below the lengths of the axes, and so does the index made of
them. -/
theorem Broadcasts.flatten_lt {own common : List Nat} (h : Broadcasts own common) {i : Nat}
    (hi : i < common.prod) : flatten own (digits common i) < own.prod := by
  induction h generalizing i with
  | nil ns => simp [flatten]
  | @cons m n ms ns axis rest ih =>
    rw [List.prod_cons] at hi
    have hdigit : flatten ms (digits ns (i / n)) < ms.prod :=
      ih (Nat.div_lt_of_lt_mul hi)
    have hn : 0 < n := Nat.pos_of_mul_pos_right (Nat.lt_of_le_of_lt (Nat.zero_le i) hi)
    rw [digits, flatten, List.prod_cons]
    split
    · rename_i hone
      subst hone
      simpa using hdigit
    · rename_i hone
      obtain rfl : m = n := by omega
      have hlast : i % m < m := Nat.mod_lt i hn
      -- below the last digit, the other digits leave room for a whole axis
      calc i % m + m * flatten ms (digits ns (i / m))
          < m + m * flatten ms (digits ns (i / m)) := by omega
        _ = m * (flatten ms (digits ns (i / m)) + 1) := by rw [Nat.mul_succ, Nat.add_comm]
        _ ≤ m * ms.prod := Nat.mul_le_mul_left m hdigit

/-- The digits of an index make up the index. -/
theorem flatten_digits {ns : List Nat} {i : Nat} (hi : i < ns.prod) :
    flatten ns (digits ns i) = i := by
  induction ns generalizing i with
  | nil => simpa [flatten, eq_comm] using hi
  | cons n ns ih =>
    rw [List.prod_cons] at hi
    have hdigit : (if n = 1 then 0 else i % n) = i % n := by
      split
      · rename_i hone
        rw [hone, Nat.mod_one]
      · rfl
    rw [digits, flatten, ih (Nat.div_lt_of_lt_mul hi), hdigit, Nat.mod_add_div]

/-- Under its own shape a tensor has its values where they are. -/
theorem at?_mk {α : Type} {shape : List Nat} (data : Array α) {i : Nat} (hi : i < volume shape) :
    (Tensor.mk shape data).at? shape i = data[i]? := by
  unfold at? project
  rw [flatten_digits (by rwa [← volume_eq_prod])]

/-- A tensor with a value for every index of its shape. -/
def IsFull {α : Type} (t : Tensor α) : Prop := t.data.size = volume t.shape

variable {α : Type}

theorem IsFull.generate (shape : List Nat) (f : Nat → α) : (Tensor.generate shape f).IsFull :=
  size_generate shape f

/-- A tensor that is repeated to fit has a value at every index of the common shape. -/
theorem IsFull.exists_at? {t : Tensor α} (ht : t.IsFull) {common : List Nat}
    (hfits : Broadcasts t.shape.reverse common.reverse) {i : Nat} (hi : i < volume common) :
    ∃ x, t.at? common i = some x := by
  rw [volume_eq_prod] at hi
  have hplace : project common t.shape i < t.data.size := by
    rw [ht, volume_eq_prod]
    exact hfits.flatten_lt hi
  exact ⟨t.data[project common t.shape i], Array.getElem?_eq_getElem hplace⟩

theorem generate_nil (f : Nat → α) : Tensor.generate [] f = Tensor.scalar (f 0) := by
  have hrange : Array.range (volume []) = #[0] := by decide
  simp [Tensor.generate, Tensor.scalar, hrange]

/-- Tensors without axes that are full are scalars. -/
theorem IsFull.eq_scalar {t : Tensor α} (ht : t.IsFull) (h : t.shape = []) :
    ∃ x, t = Tensor.scalar x := by
  obtain ⟨shape, data⟩ := t
  obtain rfl : shape = [] := h
  obtain ⟨x, rfl⟩ : ∃ x, data = #[x] := Array.size_eq_one_iff.mp ht
  exact ⟨x, rfl⟩

end Tensor
end Graphing
