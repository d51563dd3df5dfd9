/-
  Graphing.Proofs.Contour.Vertices

  The vertices of stitched polylines are ends of segments.

  A store makes no points of its own: whatever it does with its chains, and
  whichever of them it puts out early, each point of a chain was given to it.
  This holds in any arithmetic, and without any condition on the segments.
-/
import Graphing.Contour.Tracer
import Graphing.Proofs.Contour.Chains

namespace Graphing.Contour

variable {α : Type}

namespace ChainStore

/-- Whether a point is one of a chain, be it open or finished. -/
def Holds (s : ChainStore α) (p : Point α) : Prop :=
  (∃ l ∈ s.openLines, p ∈ l) ∨ ∃ l ∈ s.output.toList, p ∈ l

/-! ## Open chains -/

theorem holds_of_chain? {s : ChainStore α} {n : Nat} {l : List (Point α)} (h : s.chain? n = some l)
    {p : Point α} (hp : p ∈ l) : s.Holds p :=
  .inl ⟨l, List.mem_map_of_mem (mem_chains_of_chain? h), hp⟩

theorem Holds.of_dropChain {s : ChainStore α} {n : Nat} {p : Point α}
    (h : (s.dropChain n).Holds p) : s.Holds p :=
  h.imp_left fun ⟨l, hl, hp⟩ => ⟨l, (List.filter_sublist.map _).subset hl, hp⟩

theorem Holds.of_setChain {s : ChainStore α} {n : Nat} {points : List (Point α)} {p : Point α}
    (h : (s.setChain n points).Holds p) : s.Holds p ∨ p ∈ points := by
  obtain ⟨l, hl, hp⟩ | hout := h
  · obtain ⟨c, hc, rfl⟩ := List.mem_map.mp hl
    obtain ⟨old, hold, rfl⟩ := List.mem_map.mp hc
    by_cases hn : old.1 = n
    · rw [if_pos hn] at hp
      exact .inr hp
    · rw [if_neg hn] at hp
      exact .inl (.inl ⟨old.2, List.mem_map_of_mem hold, hp⟩)
  · exact .inl (.inr hout)

theorem Holds.of_emit {s : ChainStore α} {points : List (Point α)} {p : Point α}
    (h : (s.emit points).Holds p) : s.Holds p ∨ p ∈ points := by
  rw [emit] at h
  split at h
  · obtain hopen | ⟨l, hl, hp⟩ := h
    · exact .inl (.inl hopen)
    · rw [Array.toList_push, List.mem_append, List.mem_singleton] at hl
      obtain hl | rfl := hl
      · exact .inl (.inr ⟨l, hl, hp⟩)
      · exact .inr hp
  · exact .inl h

/-! ## Operations -/

variable [Coordinate α]

theorem Holds.of_retire {s : ChainStore α} {n : Nat} {p : Point α} (h : (s.retire n).Holds p) :
    s.Holds p := by
  rw [retire] at h
  split at h
  · rename_i l hl
    rw [unregisterBoth_frame] at h
    obtain h | hp := h.of_emit
    · exact Holds.of_dropChain (s := s) h
    · exact holds_of_chain? hl hp
  · exact h

theorem Holds.of_flush {s : ChainStore α} {p : Point α} (h : s.flush.Holds p) : s.Holds p := by
  rw [flush] at h
  split at h
  · split at h
    · exact h.of_retire
    · exact h
  · exact h

theorem Holds.of_start {s : ChainStore α} {p q x : Point α} (h : (s.start p q).Holds x) :
    s.Holds x ∨ x = p ∨ x = q := by
  rw [start_eq] at h
  replace h := h.of_flush
  rw [opened_frame] at h
  obtain ⟨l, hl, hx⟩ | hout := h
  · rw [openLines, List.map_append, List.mem_append] at hl
    obtain hl | hl := hl
    · exact .inl (.inl ⟨l, hl, hx⟩)
    · obtain rfl : l = [p, q] := by simpa using hl
      exact .inr (by simpa using hx)
  · exact .inl (.inr hout)

theorem Holds.of_extend {s : ChainStore α} {e : ChainEnd} {p x : Point α}
    (h : (s.extend e p).Holds x) : s.Holds x ∨ x = p := by
  cases he : s.chain? e.chain with
  | none =>
    rw [extend, he] at h
    exact .inl h
  | some l =>
    rw [extend_frame he] at h
    obtain h | hx := Holds.of_setChain (s := s) h
    · exact .inl h
    · have hgrow : x ∈ l ∨ x = p := by
        rw [grow] at hx
        split at hx
        · simpa using hx
        · simpa [or_comm] using hx
      exact hgrow.imp_left (holds_of_chain? he)

theorem Holds.of_close {s : ChainStore α} {n : Nat} {p : Point α} (h : (s.close n).Holds p) :
    s.Holds p := by
  rw [close] at h
  split at h
  · rename_i l hl
    rw [unregisterBoth_frame] at h
    obtain h | hp := h.of_emit
    · exact Holds.of_dropChain (s := s) h
    · obtain hp | hp := List.mem_append.mp hp
      · exact holds_of_chain? hl hp
      · exact holds_of_chain? hl (List.mem_of_mem_head? (Option.mem_toList.mp hp))
  · exact h

theorem Holds.of_join {s : ChainStore α} {e f : ChainEnd} {p : Point α} (h : (s.join e f).Holds p) :
    s.Holds p := by
  cases he : s.chain? e.chain with
  | none =>
    rw [join, he] at h
    exact h
  | some first =>
    cases hf : s.chain? f.chain with
    | none =>
      rw [join, he, hf] at h
      exact h
    | some second =>
      rw [join_frame he hf] at h
      obtain h | hp := Holds.of_setChain (s := s) (Holds.of_dropChain h)
      · exact h
      · have hjoined : p ∈ first ∨ p ∈ second := by
          rw [joined, List.mem_append] at hp
          refine hp.imp ?_ ?_ <;> intro hp <;> split at hp <;> simpa using hp
        exact hjoined.elim (holds_of_chain? he) (holds_of_chain? hf)

theorem Holds.of_add {s s' : ChainStore α} {p q x : Point α} (hadd : s.add p q = .ok s')
    (h : s'.Holds x) : s.Holds x ∨ x = p ∨ x = q := by
  unfold add at hadd
  split at hadd
  · cases hadd
    exact .inl h
  · obtain ⟨kp, -, hadd⟩ := Except.bind_eq_ok.mp hadd
    obtain ⟨kq, -, hadd⟩ := Except.bind_eq_ok.mp hadd
    cases hadd
    generalize s.find? p kp none = atP at h
    generalize s.find? q kq atP = atQ at h
    cases atP with
    | none =>
      cases atQ with
      | none => exact h.of_start
      | some f => exact h.of_extend.imp_right .inl
    | some e =>
      cases atQ with
      | none => exact h.of_extend.imp_right .inr
      | some f =>
        dsimp only at h
        split at h
        · exact .inl h.of_close
        · exact .inl h.of_join

/-- Whatever is added, the points of the chains are points from before and ends of segments. -/
theorem Holds.of_addAll {segments : List (Point α × Point α)} {s s' : ChainStore α} {p : Point α}
    (hadd : s.addAll segments = .ok s') (h : s'.Holds p) :
    s.Holds p ∨ ∃ g ∈ segments, p = g.1 ∨ p = g.2 := by
  induction segments generalizing s with
  | nil =>
    cases hadd
    exact .inl h
  | cons g segments ih =>
    obtain ⟨t, ht, hrest⟩ := Except.bind_eq_ok.mp hadd
    obtain h | ⟨e, he, hp⟩ := ih hrest
    · exact (Holds.of_add ht h).imp_right fun hp => ⟨g, List.mem_cons_self, hp⟩
    · exact .inr ⟨e, List.mem_cons_of_mem g he, hp⟩

theorem Holds.of_finish {s : ChainStore α} {p : Point α} (h : s.finish.Holds p) : s.Holds p := by
  rw [finish] at h
  generalize s.chains.map Prod.fst = numbers at h
  induction numbers generalizing s with
  | nil => exact h
  | cons n numbers ih => exact (ih h).of_retire

end ChainStore

/-! ## Traces -/

variable {β : Type} [Coordinate α] [Reading β α]

/-- Every vertex of a traced polyline is an end of a segment that the passes found. -/
theorem Tracer.exists_segment_of_trace {t : Tracer α β} {r : TraceRequest α β}
    {consumer : Option (Tracer α β → List (PathPoint α) → Except (TraceFault α) Unit)}
    {lines : List (List (Point α))} (h : (t.trace r consumer).1 = .ok lines)
    {l : List (Point α)} (hl : l ∈ lines) {p : Point α} (hp : p ∈ l) :
    r.domain.isProper = true ∧ ∃ columns rows,
      t.gridShape r.resolution r.fast = .ok (columns, rows) ∧
      ∃ g ∈ (t.passes r columns rows).segments, p = g.1 ∨ p = g.2 := by
  unfold trace at h
  split at h
  · cases h
  · split at h
    · cases h
    · rename_i hdomain
      split at h
      · cases h
      · rename_i columns rows hshape
        dsimp only at h
        split at h
        · cases h
        · rename_i store hstore
          have hlines : lines = store.finish.output.toList := by
            split at h
            · cases h
              rfl
            · split at h <;> cases h
              rfl
          refine ⟨by simpa using hdomain, columns, rows, hshape, ?_⟩
          have hholds : store.finish.Holds p := .inr ⟨l, hlines ▸ hl, hp⟩
          obtain hempty | hsegment := ChainStore.Holds.of_addAll hstore hholds.of_finish
          · obtain ⟨l, hl, -⟩ | ⟨l, hl, -⟩ := hempty <;> cases hl
          · exact hsegment

end Graphing.Contour
