/-
  Graphing.Proofs.Contour.Chains

  The open chains of a store, and what each operation leaves alone.

  A chain is found by its number, and the numbers are different (`Numbered`),
  so that an operation changes one chain or two and keeps the others.  The
  operations on the raster change nothing but the raster.  Adding a segment
  opens at most one chain; a chain is put out early only if there are more of
  them than the limit allows.
-/
import Graphing.Contour.ChainStore
import Graphing.Proofs.Except
import Mathlib.Data.List.Basic
import Mathlib.Data.List.Nodup
import Mathlib.Order.Nat

namespace Graphing.Contour

namespace ChainStore

/-! ## Chains by number -/

section Chains

variable {α : Type}

theorem lookup_cons_eq {β : Type} (n m : Nat) (b : β) (l : List (Nat × β)) :
    ((n, b) :: l).lookup m = if m = n then some b else l.lookup m := by
  rw [List.lookup_cons]
  by_cases h : m = n
  · rw [if_pos h, beq_iff_eq.mpr h]
  · rw [if_neg h, beq_eq_false_iff_ne.mpr h]

theorem chain?_setChain (s : ChainStore α) (n m : Nat) (points : List (Point α)) :
    (s.setChain n points).chain? m =
      if m = n then (s.chain? n).map fun _ => points else s.chain? m := by
  simp only [chain?, setChain]
  induction s.chains with
  | nil => simp
  | cons c chains ih =>
    obtain ⟨k, old⟩ := c
    rw [List.map_cons, lookup_cons_eq k m, lookup_cons_eq k n]
    by_cases hk : k = n
    · subst hk
      rw [if_pos rfl, lookup_cons_eq, if_pos rfl, ih]
      split <;> rfl
    · rw [if_neg hk, lookup_cons_eq, ih, if_neg (Ne.symm hk)]
      by_cases hm : m = k
      · rw [if_pos hm, if_pos hm, if_neg (by omega)]
      · rw [if_neg hm, if_neg hm]

theorem chain?_dropChain (s : ChainStore α) (n m : Nat) :
    (s.dropChain n).chain? m = if m = n then none else s.chain? m := by
  simp only [chain?, dropChain]
  induction s.chains with
  | nil => simp
  | cons c chains ih =>
    obtain ⟨k, old⟩ := c
    rw [List.filter_cons, lookup_cons_eq]
    by_cases hk : k = n
    · subst hk
      rw [if_neg (by simp), ih]
      split <;> rfl
    · rw [if_pos (by simpa using hk), lookup_cons_eq, ih]
      by_cases hm : m = k
      · rw [if_pos hm, if_pos hm, if_neg (by omega)]
      · rw [if_neg hm, if_neg hm]

theorem mem_chains_of_chain? {s : ChainStore α} {n : Nat} {points : List (Point α)}
    (h : s.chain? n = some points) : (n, points) ∈ s.chains := by
  unfold chain? at h
  obtain ⟨l, r, heq, -⟩ := List.lookup_eq_some_iff.mp h
  rw [heq]
  simp

end Chains

/-! ## What the raster leaves alone -/

section Frame

variable {α : Type} [Coordinate α]

theorem register_frame (s : ChainStore α) (e : ChainEnd) :
    s.register e = { s with index := (s.register e).index } := by
  unfold register
  split <;> rfl

theorem unregister_frame (s : ChainStore α) (e : ChainEnd) :
    s.unregister e = { s with index := (s.unregister e).index } := by
  unfold unregister
  split
  · split <;> rfl
  · rfl

theorem registerBoth_frame (s : ChainStore α) (n : Nat) :
    s.registerBoth n = { s with index := (s.registerBoth n).index } := by
  rw [registerBoth, register_frame, register_frame s]

theorem unregisterBoth_frame (s : ChainStore α) (n : Nat) :
    s.unregisterBoth n = { s with index := (s.unregisterBoth n).index } := by
  rw [unregisterBoth, unregister_frame, unregister_frame s]

omit [Coordinate α] in
theorem point?_of_chain? {s : ChainStore α} {n : Nat} {points : List (Point α)}
    (h : s.chain? n = some points) (hne : points ≠ []) (b : Bool) :
    ∃ p, s.point? ⟨n, b⟩ = some p ∧ endPoint? points b = some p := by
  have hp : ∃ p, endPoint? points b = some p := by
    cases b
    · exact ⟨points.head hne, List.head?_eq_some_head hne⟩
    · exact ⟨points.getLast hne, List.getLast?_eq_some_getLast hne⟩
  obtain ⟨p, hp⟩ := hp
  exact ⟨p, by simp [point?, h, hp], hp⟩

/-! ### Opening, extending and joining chains -/

/-- The store after a chain of two points is opened, before a flush. -/
def opened (s : ChainStore α) (p q : Point α) : ChainStore α :=
  { s with next := s.next + 1, chains := s.chains ++ [(s.next, [p, q])] }.registerBoth s.next

theorem start_eq (s : ChainStore α) (p q : Point α) : s.start p q = (s.opened p q).flush := rfl

theorem opened_frame (s : ChainStore α) (p q : Point α) :
    s.opened p q = { s with
      next := s.next + 1
      chains := s.chains ++ [(s.next, [p, q])]
      index := (s.opened p q).index } := by
  rw [opened, registerBoth_frame]

/-- The points of a chain after it is extended at one of its ends. -/
def grow (points : List (Point α)) (isLast : Bool) (p : Point α) : List (Point α) :=
  if isLast then points ++ [p] else p :: points

theorem extend_frame {s : ChainStore α} {e : ChainEnd} {points : List (Point α)}
    (h : s.chain? e.chain = some points) (p : Point α) :
    s.extend e p =
      { s.setChain e.chain (grow points e.isLast p) with index := (s.extend e p).index } := by
  rw [extend, h]
  dsimp only
  rw [register_frame, unregister_frame]
  rfl

omit [Coordinate α] in
theorem endPoint?_grow {points : List (Point α)} (hne : points ≠ []) (isLast b : Bool)
    (p : Point α) : endPoint? (grow points isLast p) b =
      if b = isLast then some p else endPoint? points b := by
  cases isLast <;> cases b
  · simp [endPoint?, grow]
  · simp [endPoint?, grow, List.getLast?_cons_of_ne_nil, hne]
  · obtain ⟨q, points, rfl⟩ := List.exists_cons_of_ne_nil hne
    simp [endPoint?, grow]
  · simp [endPoint?, grow]

/-- Two chains joined at one end of each. -/
def joined (first second : List (Point α)) (e f : Bool) : List (Point α) :=
  (if e then first else first.reverse) ++ (if f then second.reverse else second)

omit [Coordinate α] in
/-- The ends of joined chains are the two ends that were not joined. -/
theorem endPoint?_joined {first second : List (Point α)} (hne : first ≠ []) (hne' : second ≠ [])
    (e f b : Bool) : endPoint? (joined first second e f) b =
      if b then endPoint? second (!f) else endPoint? first (!e) := by
  unfold joined
  cases b with
  | true =>
    have hlast : (if f then second.reverse else second) ≠ [] := by split <;> simpa
    rw [endPoint?, if_pos rfl, List.getLast?_append_of_ne_nil _ hlast, if_pos rfl]
    cases f <;> simp [endPoint?]
  | false =>
    have hfirst : (if e then first else first.reverse) ≠ [] := by split <;> simpa
    rw [endPoint?, if_neg Bool.false_ne_true, List.head?_append_of_ne_nil _ hfirst,
      if_neg Bool.false_ne_true]
    cases e <;> simp [endPoint?]

theorem join_frame {s : ChainStore α} {e f : ChainEnd} {first second : List (Point α)}
    (he : s.chain? e.chain = some first) (hf : s.chain? f.chain = some second) :
    s.join e f =
      { (s.setChain e.chain (joined first second e.isLast f.isLast)).dropChain f.chain with
        index := (s.join e f).index } := by
  rw [join, he, hf]
  dsimp only
  rw [registerBoth_frame, unregisterBoth_frame (s.unregisterBoth _), unregisterBoth_frame s]
  rfl

end Frame

/-! ## Open chains as lines -/

section Lines

variable {α : Type}

/-- The points of the open chains, oldest first. -/
def openLines (s : ChainStore α) : List (List (Point α)) := s.chains.map Prod.snd

/-- The open chains have different numbers, below the next one. -/
structure Numbered (s : ChainStore α) : Prop where
  nodup : (s.chains.map Prod.fst).Nodup
  lt_next : ∀ n ∈ s.chains.map Prod.fst, n < s.next

theorem chain?_eq_some_iff {s : ChainStore α} (h : s.Numbered) {n : Nat} {l : List (Point α)} :
    s.chain? n = some l ↔ (n, l) ∈ s.chains := by
  constructor
  · exact mem_chains_of_chain?
  · intro hmem
    obtain ⟨before, after, heq⟩ := List.append_of_mem hmem
    have hnd := h.nodup
    rw [heq, List.map_append, List.map_cons, List.nodup_append'] at hnd
    have hn : before.lookup n = none := by
      rw [List.lookup_eq_none_iff]
      rintro ⟨m, l'⟩ hm
      have : m ≠ n := by
        rintro rfl
        exact hnd.2.2 (List.mem_map_of_mem (f := Prod.fst) hm) (by simp)
      simpa using this.symm
    rw [chain?, heq, List.lookup_append, hn]
    simp

theorem chain?_next {s : ChainStore α} (h : s.Numbered) : s.chain? s.next = none := by
  cases hn : s.chain? s.next with
  | none => rfl
  | some l =>
    have := h.lt_next _ (List.mem_map_of_mem (f := Prod.fst) (mem_chains_of_chain? hn))
    exact absurd this (lt_irrefl _)

theorem exists_chain?_of_mem {s : ChainStore α} (h : s.Numbered) {l : List (Point α)}
    (hl : l ∈ s.openLines) : ∃ n, s.chain? n = some l := by
  obtain ⟨⟨n, l⟩, hmem, rfl⟩ := List.mem_map.mp hl
  exact ⟨n, (chain?_eq_some_iff h).mpr hmem⟩

/-- An open chain and the others. -/
theorem chains_perm {s : ChainStore α} (h : s.Numbered) {n : Nat} {l : List (Point α)}
    (hn : s.chain? n = some l) : s.chains.Perm ((n, l) :: (s.dropChain n).chains) := by
  obtain ⟨before, after, heq⟩ := List.append_of_mem ((chain?_eq_some_iff h).mp hn)
  have hnd := h.nodup
  rw [heq, List.map_append, List.map_cons, List.nodup_append', List.nodup_cons] at hnd
  obtain ⟨-, ⟨hafter, -⟩, hdisj⟩ := hnd
  have hkeep : ∀ c ∈ before ++ after, (c.1 != n) = true := by
    rintro ⟨m, l'⟩ hc
    rw [bne_iff_ne]
    rintro rfl
    rcases List.mem_append.mp hc with hc | hc
    · exact hdisj (List.mem_map_of_mem (f := Prod.fst) hc) (by simp)
    · exact hafter (List.mem_map.mpr ⟨_, hc, rfl⟩)
  have hdrop : (s.dropChain n).chains = before ++ after := by
    rw [dropChain, heq]
    simp only [List.filter_append, List.filter_cons, bne_self_eq_false, Bool.false_eq_true, if_false]
    rw [← List.filter_append, List.filter_eq_self.mpr hkeep]
  rw [hdrop, heq]
  exact List.perm_middle

theorem openLines_perm {s : ChainStore α} (h : s.Numbered) {n : Nat} {l : List (Point α)}
    (hn : s.chain? n = some l) : s.openLines.Perm (l :: (s.dropChain n).openLines) :=
  (chains_perm h hn).map Prod.snd

theorem Numbered.dropChain {s : ChainStore α} (h : s.Numbered) (n : Nat) :
    (s.dropChain n).Numbered where
  nodup := h.nodup.sublist (List.filter_sublist.map _)
  lt_next m hm := h.lt_next m ((List.filter_sublist.map _).subset hm)

theorem Numbered.setChain {s : ChainStore α} (h : s.Numbered) (n : Nat) (l : List (Point α)) :
    (s.setChain n l).Numbered := by
  have hfst : (s.setChain n l).chains.map Prod.fst = s.chains.map Prod.fst := by
    simp only [ChainStore.setChain, List.map_map]
    refine List.map_congr_left fun c _ => ?_
    by_cases hc : c.1 = n <;> simp [hc]
  exact ⟨by rw [hfst]; exact h.nodup, by rw [hfst]; exact h.lt_next⟩

theorem mem_openLines_setChain {s : ChainStore α} {n : Nat} {l m : List (Point α)}
    (h : m ∈ (s.setChain n l).openLines) : m = l ∨ m ∈ s.openLines := by
  obtain ⟨c, hc, rfl⟩ := List.mem_map.mp h
  obtain ⟨c₀, hc₀, rfl⟩ := List.mem_map.mp hc
  split
  · exact .inl rfl
  · exact .inr (List.mem_map_of_mem hc₀)

theorem mem_openLines_dropChain {s : ChainStore α} {n : Nat} {m : List (Point α)}
    (h : m ∈ (s.dropChain n).openLines) : m ∈ s.openLines :=
  (List.filter_sublist.map Prod.snd).subset h

theorem dropChain_setChain (s : ChainStore α) (n : Nat) (l : List (Point α)) :
    (s.setChain n l).dropChain n = s.dropChain n := by
  simp only [ChainStore.setChain, ChainStore.dropChain]
  congr 1
  induction s.chains with
  | nil => rfl
  | cons c chains ih =>
    rw [List.map_cons, List.filter_cons, List.filter_cons, ih]
    by_cases hc : c.1 = n <;> simp [hc]

theorem dropChain_comm (s : ChainStore α) (n m : Nat) :
    (s.dropChain n).dropChain m = (s.dropChain m).dropChain n := by
  simp only [ChainStore.dropChain, List.filter_filter, Bool.and_comm]

end Lines

/-! ### The numbers after an operation -/

section Numbers

variable {α : Type} [Coordinate α] {s : ChainStore α}

omit [Coordinate α] in
theorem numbered_empty (tolerance : α) (maxOpen : Int) :
    (ChainStore.empty tolerance maxOpen).Numbered :=
  ⟨List.nodup_nil, by simp [ChainStore.empty]⟩

theorem Numbered.opened (h : s.Numbered) (p q : Point α) : (s.opened p q).Numbered := by
  rw [opened_frame]
  refine ⟨?_, ?_⟩
  · rw [List.map_append, List.nodup_append_comm, List.map_singleton, List.singleton_append,
      List.nodup_cons]
    exact ⟨fun hmem => absurd (h.lt_next _ hmem) (lt_irrefl _), h.nodup⟩
  · intro n hn
    rw [List.map_append, List.mem_append] at hn
    rcases hn with hn | hn
    · exact (h.lt_next n hn).trans (Nat.lt_succ_self _)
    · obtain rfl : n = s.next := by simpa using hn
      exact Nat.lt_succ_self _

theorem Numbered.extend (h : s.Numbered) {e : ChainEnd} {l : List (Point α)}
    (hl : s.chain? e.chain = some l) (p : Point α) : (s.extend e p).Numbered := by
  rw [extend_frame hl]
  have hset := h.setChain e.chain (grow l e.isLast p)
  exact ⟨hset.nodup, hset.lt_next⟩

theorem Numbered.join (h : s.Numbered) {e f : ChainEnd} {first second : List (Point α)}
    (he : s.chain? e.chain = some first) (hf : s.chain? f.chain = some second) :
    (s.join e f).Numbered := by
  rw [join_frame he hf]
  have hdrop := (h.setChain e.chain (joined first second e.isLast f.isLast)).dropChain f.chain
  exact ⟨hdrop.nodup, hdrop.lt_next⟩

/-! ### The lines after an operation -/

@[simp] theorem opened_output (s : ChainStore α) (p q : Point α) : (s.opened p q).output = s.output := by
  rw [opened_frame]

theorem openLines_opened (s : ChainStore α) (p q : Point α) :
    (s.opened p q).openLines = s.openLines ++ [[p, q]] := by
  rw [openLines, opened_frame, List.map_append]
  rfl

theorem extend_output {e : ChainEnd} {l : List (Point α)} (hl : s.chain? e.chain = some l)
    (p : Point α) : (s.extend e p).output = s.output := by
  rw [extend_frame hl]
  rfl

/-- The chain that is extended, and the others. -/
theorem openLines_extend (h : s.Numbered) {e : ChainEnd} {l : List (Point α)}
    (hl : s.chain? e.chain = some l) (p : Point α) :
    (s.extend e p).openLines.Perm (grow l e.isLast p :: (s.dropChain e.chain).openLines) := by
  set t := s.setChain e.chain (grow l e.isLast p) with ht
  have hl' : t.chain? e.chain = some (grow l e.isLast p) := by
    rw [ht, chain?_setChain, if_pos rfl, hl]
    rfl
  have hperm := openLines_perm (h.setChain _ _) hl'
  rw [dropChain_setChain] at hperm
  rw [extend_frame hl]
  exact hperm

theorem join_output {e f : ChainEnd} {l m : List (Point α)} (hl : s.chain? e.chain = some l)
    (hm : s.chain? f.chain = some m) : (s.join e f).output = s.output := by
  rw [join_frame hl hm]
  rfl

omit [Coordinate α] in
/-- Two open chains, and the others. -/
theorem openLines_perm_pair (h : s.Numbered) {n k : Nat} {l m : List (Point α)}
    (hl : s.chain? n = some l) (hm : s.chain? k = some m) (hnk : n ≠ k) :
    s.openLines.Perm (l :: m :: ((s.dropChain n).dropChain k).openLines) := by
  have hm' : (s.dropChain n).chain? k = some m := by
    rw [chain?_dropChain, if_neg hnk.symm, hm]
  exact (openLines_perm h hl).trans ((openLines_perm (h.dropChain n) hm').cons l)

/-- The joined chain, and the others. -/
theorem openLines_join (h : s.Numbered) {e f : ChainEnd} {l m : List (Point α)}
    (hl : s.chain? e.chain = some l) (hm : s.chain? f.chain = some m) (hef : e.chain ≠ f.chain) :
    (s.join e f).openLines.Perm
      (joined l m e.isLast f.isLast :: ((s.dropChain e.chain).dropChain f.chain).openLines) := by
  set t := s.setChain e.chain (joined l m e.isLast f.isLast) with ht
  have hl' : (t.dropChain f.chain).chain? e.chain = some (joined l m e.isLast f.isLast) := by
    rw [chain?_dropChain, if_neg hef, ht, chain?_setChain, if_pos rfl, hl]
    rfl
  have hperm := openLines_perm ((h.setChain _ _).dropChain _) hl'
  rw [dropChain_comm, dropChain_setChain] at hperm
  rw [join_frame hl hm]
  exact hperm

end Numbers

/-! ## Putting chains out -/

section Output

variable {α : Type} [Coordinate α]

/-- The store after an open chain is taken out of it, and some points are put out. -/
def putOut (s : ChainStore α) (n : Nat) (l : List (Point α)) : ChainStore α :=
  { s.dropChain n with index := (s.unregisterBoth n).index, output := s.output.push l }

theorem retire_eq {s : ChainStore α} {n : Nat} {l : List (Point α)} (hn : s.chain? n = some l)
    (hl : 2 ≤ l.length) : s.retire n = s.putOut n l := by
  rw [retire, hn]
  dsimp only
  rw [emit, if_pos hl, unregisterBoth_frame]
  rfl

theorem close_eq {s : ChainStore α} {n : Nat} {l : List (Point α)} (hn : s.chain? n = some l)
    (hl : 2 ≤ l.length) : s.close n = s.putOut n (l ++ l.head?.toList) := by
  have hlong : 2 ≤ (l ++ l.head?.toList).length := by
    rw [List.length_append]
    omega
  rw [close, hn]
  dsimp only
  rw [emit, if_pos hlong, unregisterBoth_frame]
  rfl

@[simp] theorem putOut_output (s : ChainStore α) (n : Nat) (l : List (Point α)) :
    (s.putOut n l).output = s.output.push l := rfl

@[simp] theorem putOut_flushes (s : ChainStore α) (n : Nat) (l : List (Point α)) :
    (s.putOut n l).flushes = s.flushes := rfl

theorem Numbered.putOut {s : ChainStore α} (h : s.Numbered) (n : Nat) (l : List (Point α)) :
    (s.putOut n l).Numbered :=
  ⟨(h.dropChain n).nodup, (h.dropChain n).lt_next⟩

/-! ### Limits

The chains, the raster and the output change; the tolerance and the limit on open chains stay, and
the number of flushes never goes down. -/

omit [Coordinate α] in
theorem emit_frame (s : ChainStore α) (l : List (Point α)) :
    ∃ o, s.emit l = { s with output := o } := by
  rw [emit]
  split <;> exact ⟨_, rfl⟩

omit [Coordinate α] in
theorem length_dropChain_le (s : ChainStore α) (n : Nat) :
    (s.dropChain n).chains.length ≤ s.chains.length :=
  List.length_filter_le _ _

theorem retire_frame (s : ChainStore α) (n : Nat) :
    ∃ c i o, s.retire n = { s with chains := c, index := i, output := o } ∧
      c.length ≤ s.chains.length := by
  rw [retire]
  split
  · obtain ⟨o, ho⟩ := emit_frame ((s.unregisterBoth n).dropChain n) ‹_›
    rw [ho, unregisterBoth_frame]
    exact ⟨_, _, _, rfl, length_dropChain_le s n⟩
  · exact ⟨_, _, _, rfl, le_rfl⟩

theorem close_frame (s : ChainStore α) (n : Nat) :
    ∃ c i o, s.close n = { s with chains := c, index := i, output := o } ∧
      c.length ≤ s.chains.length := by
  rw [close]
  split
  · rename_i l _
    obtain ⟨o, ho⟩ := emit_frame ((s.unregisterBoth n).dropChain n) (l ++ l.head?.toList)
    rw [ho, unregisterBoth_frame]
    exact ⟨_, _, _, rfl, length_dropChain_le s n⟩
  · exact ⟨_, _, _, rfl, le_rfl⟩

theorem flush_frame (s : ChainStore α) :
    ∃ c i o k, s.flush = { s with chains := c, index := i, output := o, flushes := s.flushes + k } ∧
      c.length ≤ s.chains.length ∧ (k = 0 → s.flush = s) ∧
      ((s.chains.length : Int) ≤ s.maxOpen → k = 0) := by
  rw [flush]
  split
  · rename_i hfull
    split
    · obtain ⟨c, i, o, heq, hlen⟩ := retire_frame { s with flushes := s.flushes + 1 } ‹_›
      rw [heq]
      exact ⟨c, i, o, 1, rfl, hlen, by simp, fun h => absurd hfull (by omega)⟩
    · exact ⟨_, _, _, 0, rfl, le_rfl, fun _ => rfl, fun _ => rfl⟩
  · exact ⟨_, _, _, 0, rfl, le_rfl, fun _ => rfl, fun _ => rfl⟩

theorem flush_of_flushes_eq {s : ChainStore α} (h : s.flush.flushes = s.flushes) : s.flush = s := by
  obtain ⟨c, i, o, k, heq, -, hzero, -⟩ := flush_frame s
  refine hzero ?_
  rw [heq] at h
  dsimp only at h
  omega

theorem extend_limits (s : ChainStore α) (e : ChainEnd) (p : Point α) :
    ∃ c i, s.extend e p = { s with chains := c, index := i } ∧ c.length = s.chains.length := by
  cases h : s.chain? e.chain with
  | none => exact ⟨_, _, by rw [extend, h], rfl⟩
  | some l => exact ⟨_, _, extend_frame h p, List.length_map _⟩

theorem join_limits (s : ChainStore α) (e f : ChainEnd) :
    ∃ c i, s.join e f = { s with chains := c, index := i } ∧ c.length ≤ s.chains.length := by
  cases he : s.chain? e.chain with
  | none => exact ⟨_, _, by rw [join, he], le_rfl⟩
  | some first =>
    cases hf : s.chain? f.chain with
    | none => exact ⟨_, _, by rw [join, he, hf], le_rfl⟩
    | some second =>
      refine ⟨_, _, join_frame he hf, (length_dropChain_le _ _).trans ?_⟩
      exact (List.length_map _).le

theorem add_frame {s s' : ChainStore α} {p q : Point α} (h : s.add p q = .ok s') :
    ∃ n c i o k, s' = { s with
        next := n
        chains := c
        index := i
        output := o
        flushes := s.flushes + k } ∧
      c.length ≤ s.chains.length + 1 ∧ ((s.chains.length : Int) < s.maxOpen → k = 0) := by
  unfold add at h
  split at h
  · cases h
    exact ⟨_, _, _, _, 0, rfl, by omega, fun _ => rfl⟩
  · obtain ⟨kp, -, h⟩ := Except.bind_eq_ok.mp h
    obtain ⟨kq, -, h⟩ := Except.bind_eq_ok.mp h
    cases h
    cases s.find? p kp none with
    | none =>
      cases s.find? q kq none with
      | none =>
        -- only a new chain can be one too many
        obtain ⟨c, i, o, k, heq, hlen, -, hroom⟩ := flush_frame (s.opened p q)
        dsimp only
        rw [start_eq, heq]
        rw [opened_frame] at hlen hroom ⊢
        rw [List.length_append, List.length_singleton] at hlen
        refine ⟨_, _, _, _, _, rfl, hlen, fun hlt => hroom ?_⟩
        rw [List.length_append, List.length_singleton]
        push_cast
        omega
      | some f =>
        obtain ⟨c, i, heq, hlen⟩ := extend_limits s f p
        exact ⟨_, _, _, _, 0, heq, by omega, fun _ => rfl⟩
    | some e =>
      cases s.find? q kq (some e) with
      | none =>
        obtain ⟨c, i, heq, hlen⟩ := extend_limits s e q
        exact ⟨_, _, _, _, 0, heq, by omega, fun _ => rfl⟩
      | some f =>
        dsimp only
        split
        · obtain ⟨c, i, o, heq, hlen⟩ := close_frame s e.chain
          exact ⟨_, _, _, _, 0, heq, by omega, fun _ => rfl⟩
        · obtain ⟨c, i, heq, hlen⟩ := join_limits s e f
          exact ⟨_, _, _, _, 0, heq, by omega, fun _ => rfl⟩

/-- At the end the open chains are put out, oldest first. -/
theorem finish_output {s : ChainStore α} (h : s.Numbered) (hlong : ∀ l ∈ s.openLines, 2 ≤ l.length) :
    s.finish.output.toList = s.output.toList ++ s.openLines := by
  rw [finish, openLines]
  rw [openLines] at hlong
  generalize hchains : s.chains = chains at hlong ⊢
  induction chains generalizing s with
  | nil => simp
  | cons c chains ih =>
    obtain ⟨n, l⟩ := c
    have hn : s.chain? n = some l := by
      rw [chain?_eq_some_iff h, hchains]
      exact List.mem_cons_self
    have hdrop : (s.dropChain n).chains = chains := by
      have hnd := h.nodup
      rw [hchains, List.map_cons, List.nodup_cons] at hnd
      rw [dropChain, hchains]
      simp only [List.filter_cons, bne_self_eq_false, Bool.false_eq_true, if_false]
      rw [List.filter_eq_self]
      rintro ⟨m, l'⟩ hm
      rw [bne_iff_ne]
      rintro rfl
      exact hnd.1 (List.mem_map.mpr ⟨_, hm, rfl⟩)
    rw [List.map_cons, List.foldl_cons, retire_eq hn (hlong l (by simp)), List.map_cons,
      ih (h.putOut n l) hdrop fun l' hl' => hlong l' (by simp [hl'])]
    simp [putOut]

end Output

end ChainStore
end Graphing.Contour
