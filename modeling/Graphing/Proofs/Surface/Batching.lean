/-
  Graphing.Proofs.Surface.Batching

  Handles that wait to be shown.

  While updates are suspended, a handle that is pushed waits in the queue, and
  it is shown as it is when the suspension ends.  At any time, a handle that
  was pushed and not set since is in the queue or up to date (`Tracked`).
-/
import Graphing.Proofs.Surface.Resampled
import Graphing.Proofs.Surface.Script

namespace Graphing

namespace Surface

variable {s t : Surface} {n : HandleId} {pushed stale : HandleId → Prop}

/-! ## One run -/

/-- Handles that were pushed, and were not set since, are in the queue or up to date. -/
structure Tracked (pushed stale : HandleId → Prop) (s : Surface) : Prop where
  coherent : s.Coherent
  live_nodup : s.live.Nodup
  live_lt : ∀ n ∈ s.live, n < s.handles.size
  pushed_lt : ∀ n, pushed n → n < s.handles.size
  queued : ∀ n ∈ s.queue, pushed n
  idle : s.depth = 0 → s.queue = []
  shown : ∀ n, pushed n → ¬stale n → n ∈ s.queue ∨ s.Shown n

/-- A trace that is up to date stays so where the handle and the trace stay. -/
theorem Shown.transfer {s' : Surface} (h : s.Shown n) (hhandle : s'.handle? n = s.handle? n)
    (hfigure : ∀ k, s.handle? n = some k → k.removed = false →
      ∀ t ∈ s.figure, t.id = k.trace → t ∈ s'.figure) : s'.Shown n := by
  intro k hk hlive
  rw [hhandle] at hk
  obtain ⟨t, ht, hid, hlook⟩ := h k hk hlive
  exact ⟨t, hfigure k hk hlive t ht hid, hid, hlook⟩

theorem shown_of_removed {k : Handle} (hk : s.handle? n = some k) (hremoved : k.removed = true) :
    s.Shown n := by
  intro l hl hlive
  obtain rfl : k = l := Option.some.inj (hk.symm.trans hl)
  rw [hremoved] at hlive
  cases hlive

/-- A handle exists just if its number is below the number of handles. -/
theorem exists_handle? (hn : n < s.handles.size) : ∃ k, s.handle? n = some k :=
  ⟨_, Array.getElem?_eq_getElem hn⟩

theorem handle?_eq_none (hn : ¬n < s.handles.size) : s.handle? n = none :=
  Array.getElem?_eq_none (Nat.le_of_not_lt hn)

theorem update_of_not_lt (hn : ¬n < s.handles.size) : s.update n = s := by
  rw [update, handle?_eq_none hn]

theorem live_flush (s : Surface) : s.flush.live = s.live := by
  refine foldl_keeps Surface.live (fun s n => ?_) s.queue s
  obtain ⟨f, hf⟩ := s.draw_frame n
  rw [hf]

/-- Working off the queue keeps the other traces up to date. -/
theorem Shown.flush (hn : s.Shown n) (h : s.Coherent) : s.flush.Shown n := by
  have hfold : ∀ (ns : List HandleId) (s : Surface), s.Coherent → s.Shown n →
      (ns.foldl Surface.draw s).Shown n := by
    intro ns
    induction ns with
    | nil => exact fun s _ hs => hs
    | cons m ns ih => exact fun s h hs => ih _ (h.draw m) (hs.draw h m)
  exact (hfold s.queue s h hn).transfer rfl fun _ _ _ _ ht _ => ht

namespace Coherent

/-- A trace without a handle. -/
theorem addTrace (h : s.Coherent) (mode : String) : (s.addTrace mode).2.Coherent := by
  have hfigure : (s.addTrace mode).2.figure = s.figure ++ [{ id := s.nextTrace, mode }] := rfl
  have hnext : (s.addTrace mode).2.nextTrace = s.nextTrace + 1 := rfl
  refine ⟨?_, ?_, ?_, h.trace_inj, ?_⟩
  · rw [hfigure, List.map_append, List.nodup_append_comm, List.map_singleton,
      List.singleton_append, List.nodup_cons]
    refine ⟨fun hmem => ?_, h.ids_nodup⟩
    obtain ⟨t, ht, hid⟩ := List.mem_map.mp hmem
    have hlt := h.id_lt t ht
    rw [hid] at hlt
    exact absurd hlt (Nat.lt_irrefl _)
  · intro t ht
    rw [hfigure, List.mem_append, List.mem_singleton] at ht
    rw [hnext]
    rcases ht with ht | rfl
    · exact Nat.lt_succ_of_lt (h.id_lt t ht)
    · exact Nat.lt_succ_self _
  · intro n k hk
    exact Nat.lt_succ_of_lt (h.trace_lt n k hk)
  · intro n k hk hlive
    obtain ⟨t, ht, hid, hfits⟩ := h.fits n k hk hlive
    exact ⟨t, List.mem_append_left _ ht, hid, hfits⟩

end Coherent

namespace Tracked

theorem imp {pushed' stale' : HandleId → Prop} (h : Tracked pushed stale s)
    (hpushed : ∀ n, pushed' n ↔ pushed n) (hstale : ∀ n, pushed n → stale n → stale' n) :
    Tracked pushed' stale' s where
  coherent := h.coherent
  live_nodup := h.live_nodup
  live_lt := h.live_lt
  pushed_lt n hn := h.pushed_lt n ((hpushed n).mp hn)
  queued n hn := (hpushed n).mpr (h.queued n hn)
  idle := h.idle
  shown n hn hclean := by
    have hn' := (hpushed n).mp hn
    exact h.shown n hn' fun hs => hclean (hstale n hn' hs)

/-- A handle that is set is stale. -/
theorem modify (h : Tracked pushed stale s) (n : HandleId) {f : Handle → Handle}
    (hf : Handle.Gentle f) : Tracked pushed (fun m => stale m ∨ m = n) (s.modify n f) where
  coherent := h.coherent.modify fun k _ => hf k
  live_nodup := h.live_nodup
  live_lt m hm := by
    rw [Surface.modify, Array.size_modify]
    exact h.live_lt m hm
  pushed_lt m hm := by
    rw [Surface.modify, Array.size_modify]
    exact h.pushed_lt m hm
  queued := h.queued
  idle := h.idle
  shown m hm hclean := by
    have hne : ¬n = m := fun heq => hclean (.inr heq.symm)
    refine (h.shown m hm fun hs => hclean (.inl hs)).imp_right fun hshown => ?_
    refine hshown.transfer ?_ fun _ _ _ _ ht _ => ht
    rw [handle?_modify, if_neg hne]

/-- A handle that is pushed is not stale any more. -/
theorem update (h : Tracked pushed stale s) (hn : n < s.handles.size) :
    Tracked (fun m => pushed m ∨ m = n) (fun m => stale m ∧ m ≠ n) (s.update n) := by
  obtain ⟨k, hk⟩ := exists_handle? hn
  obtain ⟨f, q, hframe⟩ := s.update_frame n
  have hhandles : (s.update n).handles = s.handles := s.handles_update n
  have hlive : (s.update n).live = s.live := by rw [hframe]
  -- whether updates are suspended decides where the pushed handle is found
  have hcases : ((s.update n).queue = s.queue ∨ s.depth ≠ 0 ∧
        ∀ m, m ∈ (s.update n).queue ↔ m ∈ s.queue ∨ m = n) ∧
      (∀ m ∈ s.queue, m ∈ (s.update n).queue) ∧
      (n ∈ (s.update n).queue ∨ (s.update n).Shown n) ∧
      ∀ m, s.Shown m → (s.update n).Shown m := by
    cases hremoved : k.removed with
    | true =>
      have heq : s.update n = s := by rw [Surface.update, hk]; simp [hremoved]
      rw [heq]
      exact ⟨.inl rfl, fun _ hm => hm, .inr (shown_of_removed hk hremoved), fun _ hm => hm⟩
    | false =>
      by_cases hdepth : s.depth = 0
      · obtain ⟨g, hg⟩ := s.draw_frame n
        rw [update_eq_draw hdepth]
        refine ⟨.inl (by rw [hg]), ?_, .inr (shown_draw h.coherent n),
          fun m hm => hm.draw h.coherent n⟩
        rw [hg]
        exact fun _ hm => hm
      · rw [update_of_suspended hdepth hk hremoved]
        obtain ⟨q', hq'⟩ := s.enqueue_frame n
        refine ⟨.inr ⟨hdepth, fun m => mem_queue_enqueue⟩,
          fun m hm => mem_queue_enqueue.mpr (.inl hm), .inl (mem_queue_enqueue.mpr (.inr rfl)), ?_⟩
        intro m hm
        rw [hq']
        exact hm.transfer rfl fun _ _ _ _ ht _ => ht
  obtain ⟨hqueue, hkept, hself, hshown⟩ := hcases
  refine ⟨h.coherent.update n, by rw [hlive]; exact h.live_nodup, ?_, ?_, ?_, ?_, ?_⟩
  · rw [hlive, hhandles]
    exact h.live_lt
  · rintro m (hm | rfl)
    · rw [hhandles]
      exact h.pushed_lt m hm
    · rwa [hhandles]
  · intro m hm
    rcases hqueue with heq | ⟨-, hmem⟩
    · exact .inl (h.queued m (by rwa [← heq]))
    · exact ((hmem m).mp hm).imp_left (h.queued m)
  · intro hdepth
    rw [depth_update] at hdepth
    rcases hqueue with heq | ⟨hne, -⟩
    · rw [heq]
      exact h.idle hdepth
    · exact absurd hdepth hne
  · intro m hm hclean
    by_cases hmn : m = n
    · rw [hmn]
      exact hself
    · have hpushed : pushed m := hm.resolve_right hmn
      rcases h.shown m hpushed fun hs => hclean ⟨hs, hmn⟩ with hq | hs
      · exact .inl (hkept m hq)
      · exact .inr (hshown m hs)

/-- A new handle was not pushed yet. -/
theorem addHandle (h : Tracked pushed stale s) {mode : String} {shape : Shape}
    (hmode : mode = shape.mode) : Tracked pushed stale (s.addHandle mode shape).2 := by
  have hsize : (s.addHandle mode shape).2.handles.size = s.handles.size + 1 := Array.size_push _
  have hlive : (s.addHandle mode shape).2.live = s.live ++ [s.handles.size] := rfl
  refine ⟨h.coherent.addHandle hmode, ?_, ?_, ?_, h.queued, h.idle, ?_⟩
  · rw [hlive, List.nodup_append_comm, List.singleton_append, List.nodup_cons]
    exact ⟨fun hmem => Nat.lt_irrefl _ (h.live_lt _ hmem), h.live_nodup⟩
  · intro m hm
    rw [hlive, List.mem_append, List.mem_singleton] at hm
    rw [hsize]
    rcases hm with hm | rfl
    · exact Nat.lt_succ_of_lt (h.live_lt m hm)
    · exact Nat.lt_succ_self _
  · intro m hm
    rw [hsize]
    exact Nat.lt_succ_of_lt (h.pushed_lt m hm)
  · intro m hm hclean
    refine (h.shown m hm hclean).imp_right fun hs => ?_
    refine hs.transfer ?_ fun _ _ _ _ ht _ => List.mem_append_left _ ht
    rw [handle?_addHandle, if_neg (Nat.ne_of_lt (h.pushed_lt m hm))]

/-- A trace without a handle. -/
theorem addTrace (h : Tracked pushed stale s) (mode : String) :
    Tracked pushed stale (s.addTrace mode).2 where
  coherent := h.coherent.addTrace mode
  live_nodup := h.live_nodup
  live_lt := h.live_lt
  pushed_lt := h.pushed_lt
  queued := h.queued
  idle := h.idle
  shown m hm hclean := (h.shown m hm hclean).imp_right fun hs =>
    hs.transfer rfl fun _ _ _ _ ht _ => List.mem_append_left _ ht

theorem remove (h : Tracked pushed stale s) (n : HandleId) :
    Tracked pushed stale (s.remove n) := by
  obtain ⟨heq, -⟩ | ⟨k, hk, -, heq⟩ := s.remove_cases n
  · rwa [heq]
  · have hcoherent := h.coherent.remove n
    rw [heq] at hcoherent ⊢
    refine ⟨hcoherent, ?_, ?_, ?_, ?_, ?_, ?_⟩
    · exact h.live_nodup.filter _
    · intro m hm
      show m < (s.handles.modify n _).size
      rw [Array.size_modify]
      exact h.live_lt m (List.mem_filter.mp hm).1
    · intro m hm
      show m < (s.handles.modify n _).size
      rw [Array.size_modify]
      exact h.pushed_lt m hm
    · intro m hm
      exact h.queued m (List.mem_filter.mp hm).1
    · intro hdepth
      show s.queue.filter _ = []
      rw [h.idle hdepth, List.filter_nil]
    · intro m hm hclean
      have hhandle := s.handle?_modify n (fun k => { k with removed := true }) m
      by_cases hmn : n = m
      · subst hmn
        rw [if_pos rfl, hk] at hhandle
        -- a removed handle has nothing to show
        exact .inr (shown_of_removed hhandle rfl)
      · rw [if_neg hmn] at hhandle
        rcases h.shown m hm hclean with hq | hs
        · exact .inl (List.mem_filter.mpr ⟨hq, bne_iff_ne.mpr (Ne.symm hmn)⟩)
        · refine .inr (hs.transfer hhandle fun l hl _ u hu hid => ?_)
          refine List.mem_filter.mpr ⟨hu, bne_iff_ne.mpr fun heq => hmn ?_⟩
          exact h.coherent.trace_inj n m k l hk hl (by rw [← heq, hid])

theorem suspend (h : Tracked pushed stale s) : Tracked pushed stale s.suspend :=
  ⟨h.coherent.congr rfl rfl rfl, h.live_nodup, h.live_lt, h.pushed_lt, h.queued,
    fun hdepth => absurd hdepth (Nat.succ_ne_zero _), h.shown⟩

theorem rebound (h : Tracked pushed stale s) (d : Contour.Domain Float) :
    Tracked pushed stale { s with bounds := d } :=
  ⟨h.coherent.congr rfl rfl rfl, h.live_nodup, h.live_lt, h.pushed_lt, h.queued, h.idle, h.shown⟩

/-- Whatever waits in the queue is shown when the outermost suspension ends. -/
theorem resume (h : Tracked pushed stale s) : Tracked pushed stale s.resume := by
  have hcoherent : ({ s with depth := s.depth - 1 } : Surface).Coherent :=
    h.coherent.congr rfl rfl rfl
  unfold Surface.resume
  dsimp only
  split
  · generalize hs : ({ s with depth := s.depth - 1 } : Surface) = s' at hcoherent ⊢
    have hhandles : s'.flush.handles = s.handles := by rw [handles_flush, ← hs]
    have hlive : s'.flush.live = s.live := by rw [live_flush, ← hs]
    have hqueue : s'.queue = s.queue := by rw [← hs]
    refine ⟨hcoherent.flush, by rw [hlive]; exact h.live_nodup, ?_, ?_, ?_, fun _ => rfl, ?_⟩
    · rw [hlive, hhandles]
      exact h.live_lt
    · rw [hhandles]
      exact h.pushed_lt
    · exact fun m hm => absurd hm List.not_mem_nil
    · intro m hm hclean
      refine .inr ?_
      rcases h.shown m hm hclean with hq | hshown
      · rw [← hqueue] at hq
        exact shown_flush hcoherent hq
      · have hshown' : s'.Shown m := by
          rw [← hs]
          exact hshown.transfer rfl fun _ _ _ _ ht _ => ht
        exact hshown'.flush hcoherent
  · rename_i hdepth
    exact ⟨hcoherent, h.live_nodup, h.live_lt, h.pushed_lt, h.queued,
      fun h0 => absurd h0 hdepth, h.shown⟩

end Tracked

end Surface
end Graphing
