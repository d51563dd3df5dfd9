/-
  Graphing.Proofs.Evaluation.Recency

  What a memory still holds.  An entry is followed from its last use on: it
  stays behind exactly the keys that were used since (`Kept`), each of them
  once, and is dropped when there are as many of these as the memory has room
  for.
-/
import Graphing.Evaluation.Memo
import Mathlib.Data.Finset.Card
import Mathlib.Data.Finset.Dedup

namespace Graphing.Memo

variable {κ β : Type} {m : Memo κ β} {k u : κ} {r q : β} {since us : List κ}

/-- The remembered keys, most recently used first. -/
def keys (m : Memo κ β) : List κ := m.entries.map Prod.fst

/-- Each key is remembered once, and there are not too many. -/
structure Sound (m : Memo κ β) : Prop where
  nodup : m.keys.Nodup
  size_le : m.size ≤ m.capacity

/-- A key is remembered, and before it come exactly the keys used since. -/
def Kept (m : Memo κ β) (k : κ) (r : β) (since : List κ) : Prop :=
  ∃ newer older, m.entries = newer ++ (k, r) :: older ∧
    ∀ x, x ∈ newer.map Prod.fst ↔ x ∈ since

theorem sound_empty (capacity : Nat) : (empty capacity : Memo κ β).Sound :=
  ⟨List.nodup_nil, Nat.zero_le _⟩

theorem Sound.miss (hs : m.Sound) : m.miss.Sound := ⟨hs.nodup, hs.size_le⟩

theorem Sound.eq_of_mem (hs : m.Sound) (hr : (k, r) ∈ m.entries) (hq : (k, q) ∈ m.entries) :
    r = q :=
  congrArg Prod.snd (List.inj_on_of_nodup_map hs.nodup hr hq rfl)

theorem Kept.mem (h : m.Kept k r since) : (k, r) ∈ m.entries := by
  obtain ⟨newer, older, he, -⟩ := h
  rw [he]
  exact List.mem_append_right _ List.mem_cons_self

theorem kept_insert_self (h : 0 < m.capacity) : (m.insert k r).Kept k r [] := by
  obtain ⟨n, hn⟩ := Nat.exists_eq_add_of_lt h
  rw [Nat.zero_add] at hn
  refine ⟨[], m.entries.take n, ?_, fun _ => Iff.rfl⟩
  rw [insert, hn]
  rfl

variable [DecidableEq κ]

/-! ## Finding -/

theorem mem_of_find? (h : m.find? k = some r) : (k, r) ∈ m.entries := by
  obtain ⟨⟨k', r'⟩, hfind, rfl⟩ := Option.map_eq_some_iff.mp h
  obtain rfl : k' = k := by simpa using List.find?_some hfind
  exact List.mem_of_find?_eq_some hfind

theorem not_mem_of_find? (h : m.find? k = none) : k ∉ m.keys := by
  intro hmem
  obtain ⟨e, he, rfl⟩ := List.mem_map.mp hmem
  have := List.find?_eq_none.mp (Option.map_eq_none_iff.mp h) e he
  exact this (beq_self_eq_true e.1)

/-- What is kept is what is found. -/
theorem Kept.find? (hs : m.Sound) (h : m.Kept k r since) : m.find? k = some r := by
  cases hfind : m.find? k with
  | none => exact absurd (List.mem_map.mpr ⟨_, h.mem, rfl⟩) (not_mem_of_find? hfind)
  | some q => rw [hs.eq_of_mem h.mem (mem_of_find? hfind)]

/-! ## Sound memories -/

theorem mem_keys_filter {entries : List (κ × β)} {x : κ} :
    x ∈ (entries.filter fun e => !(e.1 == u)).map Prod.fst ↔
      x ∈ entries.map Prod.fst ∧ x ≠ u := by
  simp only [List.mem_map, List.mem_filter, Bool.not_eq_true', beq_eq_false_iff_ne]
  constructor
  · rintro ⟨e, ⟨he, hne⟩, rfl⟩
    exact ⟨⟨e, he, rfl⟩, hne⟩
  · rintro ⟨⟨e, he, rfl⟩, hne⟩
    exact ⟨e, ⟨he, hne⟩, rfl⟩

theorem Sound.touch (hs : m.Sound) (hu : m.find? u = some q) : (m.touch u q).Sound := by
  constructor
  · refine List.nodup_cons.mpr ⟨fun hmem => (mem_keys_filter.mp hmem).2 rfl, ?_⟩
    exact hs.nodup.sublist (List.filter_sublist.map _)
  · have hsome : (m.entries.find? fun e => e.1 == u).isSome = true := by
      obtain ⟨e, he, -⟩ := Option.map_eq_some_iff.mp hu
      rw [he]
      rfl
    have hlt := length_filter_lt hsome
    exact (Nat.succ_le_of_lt hlt).trans hs.size_le

theorem Sound.insert (hs : m.Sound) (hu : m.find? u = none) : (m.insert u q).Sound := by
  constructor
  · have hnodup : (((u, q) :: m.entries).map Prod.fst).Nodup :=
      List.nodup_cons.mpr ⟨not_mem_of_find? hu, hs.nodup⟩
    exact hnodup.sublist ((List.take_sublist _ _).map _)
  · exact List.length_take_le _ _

/-! ## Entries that are kept -/

/-- The keys used since are as many as stand before the entry. -/
theorem length_newer (hs : m.Sound) {newer older : List (κ × β)}
    (he : m.entries = newer ++ (k, r) :: older)
    (hsince : ∀ x, x ∈ newer.map Prod.fst ↔ x ∈ since) :
    newer.length = since.toFinset.card := by
  have hnodup : (newer.map Prod.fst).Nodup := by
    have hall := hs.nodup
    rw [keys, he, List.map_append] at hall
    exact hall.of_append_left
  have hfinset : since.toFinset = (newer.map Prod.fst).toFinset := by
    ext x
    rw [List.mem_toFinset, List.mem_toFinset, hsince]
  rw [hfinset, List.toFinset_card_of_nodup hnodup, List.length_map]

/-- An entry that is kept has room behind the keys used since. -/
theorem Kept.card_lt (hs : m.Sound) (h : m.Kept k r since) :
    since.toFinset.card < m.capacity := by
  obtain ⟨newer, older, he, hsince⟩ := h
  have hlength := length_newer hs he hsince
  have hsize : m.size = newer.length + (older.length + 1) := by
    rw [size, he, List.length_append, List.length_cons]
  have hle := hs.size_le
  omega

theorem kept_touch_self : (m.touch k r).Kept k r [] :=
  ⟨[], _, rfl, fun _ => Iff.rfl⟩

/-- The use of another key that is remembered moves it before the entry. -/
theorem Kept.touch (h : m.Kept k r since) (hne : u ≠ k) :
    (m.touch u q).Kept k r (since ++ [u]) := by
  obtain ⟨newer, older, he, hsince⟩ := h
  have hkept : (!((k, r).1 == u)) = true := by simpa using Ne.symm hne
  refine ⟨(u, q) :: newer.filter (fun e => !(e.1 == u)), older.filter (fun e => !(e.1 == u)),
    ?_, fun x => ?_⟩
  · rw [Memo.touch]
    dsimp only
    rw [he, List.filter_append]
    exact congrArg (fun tail => (u, q) :: (_ ++ tail)) (List.filter_cons_of_pos hkept)
  · rw [List.map_cons, List.mem_cons, mem_keys_filter, hsince, List.mem_append,
      List.mem_singleton]
    by_cases hx : x = u <;> simp [hx]

/-- A new key comes before the entry, which is kept if there is room. -/
theorem Kept.insert (hs : m.Sound) (h : m.Kept k r since) (hu : m.find? u = none)
    (hlt : (since ++ [u]).toFinset.card < m.capacity) :
    (m.insert u q).Kept k r (since ++ [u]) := by
  obtain ⟨newer, older, he, hsince⟩ := h
  have hlength := length_newer hs he hsince
  have hnew : u ∉ since := fun hmem => by
    refine not_mem_of_find? hu ?_
    rw [keys, he, List.map_append]
    exact List.mem_append_left _ ((hsince u).mpr hmem)
  have hcard : (since ++ [u]).toFinset.card = newer.length + 1 := by
    rw [List.toFinset_append, List.toFinset_cons, List.toFinset_nil, insert_empty_eq,
      Finset.union_comm, ← Finset.insert_eq, Finset.card_insert_of_notMem (by simpa using hnew),
      hlength]
  rw [hcard] at hlt
  refine ⟨(u, q) :: newer, older.take (m.capacity - (newer.length + 2)), ?_, fun x => ?_⟩
  · rw [Memo.insert]
    dsimp only
    rw [he, ← List.cons_append, List.take_append, List.length_cons,
      List.take_of_length_le (by rw [List.length_cons]; omega),
      List.take_cons (by omega)]
    rfl
  · rw [List.map_cons, List.mem_cons, hsince, List.mem_append, List.mem_singleton, or_comm]

/-- What a new key leaves of a memory that has no room for the entry. -/
theorem Kept.of_mem_insert (hs : m.Sound) (h : m.Kept k r since)
    (hge : m.capacity ≤ (since ++ [u]).toFinset.card) {e : κ × β}
    (hmem : e ∈ (m.insert u q).entries) : e = (u, q) ∨ (e ∈ m.entries ∧ e.1 ≠ k) := by
  obtain ⟨newer, older, he, hsince⟩ := h
  have hlength := length_newer hs he hsince
  have hcard : (since ++ [u]).toFinset.card ≤ newer.length + 1 := by
    rw [List.toFinset_append, List.toFinset_cons, List.toFinset_nil, hlength]
    exact (Finset.card_union_le _ _).trans (by simp)
  have hfront : (m.insert u q).entries <+: (u, q) :: newer := by
    rw [Memo.insert]
    dsimp only
    rw [he, ← List.cons_append, List.take_append_of_le_length (by rw [List.length_cons]; omega)]
    exact List.take_prefix _ _
  rcases List.mem_cons.mp (hfront.subset hmem) with rfl | hnewer
  · exact .inl rfl
  · refine .inr ⟨?_, fun hkey => ?_⟩
    · rw [he]
      exact List.mem_append_left _ hnewer
    · -- the key stands before its own entry, so it would be remembered twice
      have hnodup := hs.nodup
      rw [keys, he, List.map_append, List.nodup_append'] at hnodup
      exact hnodup.2.2 (List.mem_map.mpr ⟨e, hnewer, hkey⟩) List.mem_cons_self

/-! ## Displaced keys -/

/-- At some time among the uses `us`, as many other keys as there is room for had been used since
the latest use of a key. -/
def Displaced (room : Nat) (k : κ) (us : List κ) : Prop :=
  ∃ others, others <:+: us ∧ k ∉ others ∧ room ≤ others.toFinset.card

/-- The same, where the keys `since` had been used since the latest use before. -/
def DisplacedSince (room : Nat) (since : List κ) (k : κ) (us : List κ) : Prop :=
  (∃ others, others <+: us ∧ k ∉ others ∧ room ≤ (since ++ others).toFinset.card) ∨
    Displaced room k us

theorem displacedSince_nil {room : Nat} : DisplacedSince room [] k us ↔ Displaced room k us := by
  refine or_iff_right_of_imp ?_
  rintro ⟨others, hfront, hk, hcard⟩
  exact ⟨others, hfront.isInfix, hk, hcard⟩

theorem not_displacedSince_of_no_uses {room : Nat} (hlt : since.toFinset.card < room) :
    ¬DisplacedSince room since k [] := by
  rintro (⟨others, hfront, -, hcard⟩ | ⟨others, hpart, -, hcard⟩)
  · rw [List.prefix_nil.mp hfront, List.append_nil] at hcard
    omega
  · rw [List.infix_nil.mp hpart, List.toFinset_nil, Finset.card_empty] at hcard
    omega

/-- From a use of the key itself on, what came before does not count. -/
theorem displacedSince_cons_self {room : Nat} (hlt : since.toFinset.card < room) :
    DisplacedSince room since k (k :: us) ↔ DisplacedSince room [] k us := by
  rw [displacedSince_nil]
  have hnone {others : List κ} (hfront : others <+: k :: us) (hk : k ∉ others) : others = [] := by
    rcases List.prefix_cons_iff.mp hfront with rfl | ⟨rest, rfl, -⟩
    · rfl
    · exact absurd List.mem_cons_self hk
  constructor
  · rintro (⟨others, hfront, hk, hcard⟩ | ⟨others, hpart, hk, hcard⟩)
    · rw [hnone hfront hk, List.append_nil] at hcard
      omega
    · rcases List.infix_cons_iff.mp hpart with hfront | hpart
      · rw [hnone hfront hk, List.toFinset_nil, Finset.card_empty] at hcard
        omega
      · exact ⟨others, hpart, hk, hcard⟩
  · rintro ⟨others, hpart, hk, hcard⟩
    exact .inr ⟨others, List.infix_cons hpart, hk, hcard⟩

/-- The use of another key is one more key used since. -/
theorem displacedSince_cons {room : Nat} (hlt : since.toFinset.card < room) (hne : u ≠ k) :
    DisplacedSince room since k (u :: us) ↔
      room ≤ (since ++ [u]).toFinset.card ∨ DisplacedSince room (since ++ [u]) k us := by
  constructor
  · rintro (⟨others, hfront, hk, hcard⟩ | ⟨others, hpart, hk, hcard⟩)
    · rcases List.prefix_cons_iff.mp hfront with rfl | ⟨rest, rfl, hrest⟩
      · rw [List.append_nil] at hcard
        omega
      · refine .inr (.inl ⟨rest, hrest, fun h => hk (List.mem_cons_of_mem u h), ?_⟩)
        rwa [List.append_assoc]
    · rcases List.infix_cons_iff.mp hpart with hfront | hpart
      · rcases List.prefix_cons_iff.mp hfront with rfl | ⟨rest, rfl, hrest⟩
        · rw [List.toFinset_nil, Finset.card_empty] at hcard
          omega
        · refine .inr (.inl ⟨rest, hrest, fun h => hk (List.mem_cons_of_mem u h), hcard.trans ?_⟩)
          rw [List.append_assoc, List.toFinset_append]
          exact Finset.card_le_card Finset.subset_union_right
      · exact .inr (.inr ⟨others, hpart, hk, hcard⟩)
  · rintro (hcard | ⟨rest, hrest, hk, hcard⟩ | ⟨others, hpart, hk, hcard⟩)
    · refine .inl ⟨[u], ⟨us, rfl⟩, ?_, hcard⟩
      simpa using Ne.symm hne
    · refine .inl ⟨u :: rest, List.cons_prefix_cons.mpr ⟨rfl, hrest⟩, ?_, ?_⟩
      · exact fun h => (List.mem_cons.mp h).elim (fun h => hne h.symm) hk
      · rwa [List.append_assoc] at hcard
    · exact .inr ⟨others, List.infix_cons hpart, hk, hcard⟩

end Graphing.Memo
