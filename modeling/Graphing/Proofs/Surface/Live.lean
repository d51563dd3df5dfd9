/-
  Graphing.Proofs.Surface.Live

  Which handles are live, and which traces belong to them.

  A handle is live until it is removed.  An operation `Adds` the handles that
  it makes, and none beside.  From the moment when a surface has a certain
  number of handles and traces, every trace that is made afterwards belongs to
  a live handle that was made afterwards: the surface is `Tidy`.
-/
import Graphing.Proofs.Surface.Actions

namespace Graphing

namespace Surface

variable {s s' s'' : Surface} {n : HandleId} {made : HandleId → Prop}

/-! ## Live handles -/

/-- A handle that was not removed. -/
def Live (s : Surface) (n : HandleId) : Prop := ∃ k, s.handle? n = some k ∧ k.removed = false

theorem Live.congr (hhandles : s'.handles = s.handles) (h : s'.Live n) : s.Live n := by
  obtain ⟨k, hk, hlive⟩ := h
  rw [handle?, hhandles] at hk
  exact ⟨k, hk, hlive⟩

theorem live_modify {f : Handle → Handle} (hf : ∀ k, (f k).removed = k.removed) {m : HandleId}
    (h : (s.modify n f).Live m) : s.Live m := by
  obtain ⟨k, hk, hlive⟩ := h
  rw [handle?_modify] at hk
  split at hk
  · obtain ⟨k₀, hk₀, rfl⟩ := Option.map_eq_some_iff.mp hk
    exact ⟨k₀, hk₀, (hf k₀).symm.trans hlive⟩
  · exact ⟨k, hk, hlive⟩

theorem Live.modify {f : Handle → Handle} (hf : ∀ k, (f k).removed = k.removed) {m : HandleId}
    (h : s.Live m) : (s.modify n f).Live m := by
  obtain ⟨k, hk, hlive⟩ := h
  have hhandle := s.handle?_modify n f m
  rw [hk] at hhandle
  split at hhandle
  · exact ⟨f k, hhandle, (hf k).trans hlive⟩
  · exact ⟨k, hhandle, hlive⟩

theorem remove_of_not_live (h : ¬s.Live n) : s.remove n = s := by
  obtain ⟨heq, -⟩ | ⟨k, hk, hlive, -⟩ := s.remove_cases n
  · exact heq
  · exact absurd ⟨k, hk, hlive⟩ h

theorem live_remove {m : HandleId} (h : (s.remove n).Live m) : s.Live m ∧ m ≠ n := by
  obtain ⟨l, hl, hlive⟩ := h
  by_cases hmn : m = n
  · -- a handle that was removed is not live, whether it was removed now or before
    subst hmn
    refine absurd hlive (ne_false_of_eq_true ?_)
    obtain ⟨heq, hgone⟩ | ⟨k, hk, -, heq⟩ := s.remove_cases m
    · rw [heq] at hl
      exact hgone l hl
    · rw [heq] at hl
      have hmarked := (s.handle?_modify m (fun k => { k with removed := true }) m).symm.trans hl
      rw [if_pos rfl, hk] at hmarked
      obtain rfl := Option.some.inj hmarked
      rfl
  · rw [handle?_remove hmn] at hl
    exact ⟨⟨l, hl, hlive⟩, hmn⟩

theorem Live.remove {m : HandleId} (h : s.Live m) (hmn : m ≠ n) : (s.remove n).Live m := by
  obtain ⟨k, hk, hlive⟩ := h
  exact ⟨k, (handle?_remove hmn).trans hk, hlive⟩

theorem live_foldl_remove {m : HandleId} (ns : List HandleId)
    (h : (ns.foldl remove s).Live m) : s.Live m ∧ m ∉ ns := by
  induction ns generalizing s with
  | nil => exact ⟨h, List.not_mem_nil⟩
  | cons n ns ih =>
    obtain ⟨hrest, hnot⟩ := ih h
    obtain ⟨hlive, hne⟩ := live_remove hrest
    exact ⟨hlive, fun hmem => (List.mem_cons.mp hmem).elim hne hnot⟩

theorem live_addHandle {mode : String} {shape : Shape} {m : HandleId}
    (h : (s.addHandle mode shape).2.Live m) : s.Live m ∨ m = s.handles.size := by
  obtain ⟨k, hk, hlive⟩ := h
  rw [handle?_addHandle] at hk
  split at hk
  · rename_i hm
    exact .inr hm
  · exact .inl ⟨k, hk, hlive⟩

theorem Live.addHandle {mode : String} {shape : Shape} {m : HandleId} (h : s.Live m) :
    (s.addHandle mode shape).2.Live m := by
  obtain ⟨k, hk, hlive⟩ := h
  refine ⟨k, ?_, hlive⟩
  rw [handle?_addHandle, if_neg (Nat.ne_of_lt (handle?_lt hk)), hk]

/-- A new handle is live. -/
theorem live_addHandle_self (s : Surface) (mode : String) (shape : Shape) :
    (s.addHandle mode shape).2.Live s.handles.size :=
  ⟨_, (handle?_addHandle ..).trans (if_pos rfl), rfl⟩

/-! ## Tidy surfaces -/

/-- Every trace from a certain number on belongs to a live handle from a certain number on. -/
structure Tidy (base : HandleId) (first : Nat) (s : Surface) : Prop where
  base_le : base ≤ s.handles.size
  owned : ∀ t ∈ s.figure, first ≤ t.id →
    ∃ n k, base ≤ n ∧ s.handle? n = some k ∧ k.removed = false ∧ k.trace = t.id

/-- Traces that are there belong to the time before. -/
theorem Coherent.tidy (h : s.Coherent) : s.Tidy s.handles.size s.nextTrace :=
  ⟨Nat.le_refl _, fun t ht hid => absurd (h.id_lt t ht) (Nat.not_lt_of_le hid)⟩

/-- A change that makes only the given handles, and no trace without a handle. -/
structure Adds (made : HandleId → Prop) (s s' : Surface) : Prop where
  live : ∀ n, s'.Live n → s.Live n ∨ made n
  tidy : ∀ base first, s.Tidy base first → s'.Tidy base first

namespace Adds

theorem refl (s : Surface) : Adds made s s := ⟨fun _ => .inl, fun _ _ h => h⟩

theorem trans (h : Adds made s s') (h' : Adds made s' s'') : Adds made s s'' :=
  ⟨fun n hn => (h'.live n hn).elim (h.live n) .inr,
    fun base first ht => h'.tidy base first (h.tidy base first ht)⟩

/-- A change that keeps the handles and the numbers of the traces. -/
theorem of_ids (hhandles : s'.handles = s.handles)
    (hids : s'.figure.map Trace.id = s.figure.map Trace.id) : Adds made s s' := by
  refine ⟨fun n hn => .inl (hn.congr hhandles), fun base first ht => ⟨?_, ?_⟩⟩
  · rw [hhandles]
    exact ht.base_le
  · intro t hmem hid
    have hid' : t.id ∈ s.figure.map Trace.id := hids ▸ List.mem_map_of_mem hmem
    obtain ⟨u, hu, huid⟩ := List.mem_map.mp hid'
    obtain ⟨n, k, hn, hk, hlive, htrace⟩ := ht.owned u hu (by rw [huid]; exact hid)
    refine ⟨n, k, hn, ?_, hlive, htrace.trans huid⟩
    rw [handle?, hhandles]
    exact hk

theorem modify (s : Surface) (n : HandleId) {f : Handle → Handle} (hf : Handle.Gentle f) :
    Adds made s (s.modify n f) := by
  refine ⟨fun m hm => .inl (live_modify (fun k => (hf k).2.1) hm), fun base first ht => ⟨?_, ?_⟩⟩
  · rw [Surface.modify, Array.size_modify]
    exact ht.base_le
  · intro t hmem hid
    obtain ⟨m, k, hm, hk, hlive, htrace⟩ := ht.owned t hmem hid
    have hhandle := s.handle?_modify n f m
    rw [hk] at hhandle
    split at hhandle
    · exact ⟨m, f k, hm, hhandle, (hf k).2.1.trans hlive, (hf k).1.trans htrace⟩
    · exact ⟨m, k, hm, hhandle, hlive, htrace⟩

theorem draw (s : Surface) (n : HandleId) : Adds made s (s.draw n) :=
  of_ids (s.handles_draw n) (s.ids_draw n)

theorem update (s : Surface) (n : HandleId) : Adds made s (s.update n) := by
  unfold Surface.update
  split
  · split
    · exact refl s
    · split
      · obtain ⟨q, hq⟩ := s.enqueue_frame n
        rw [hq]
        exact of_ids rfl rfl
      · exact draw s n
  · exact refl s

theorem flush (s : Surface) : Adds made s s.flush := by
  have hfold : ∀ (ns : List HandleId) (s : Surface), Adds made s (ns.foldl Surface.draw s) := by
    intro ns
    induction ns with
    | nil => exact fun s => refl s
    | cons n ns ih => exact fun s => (draw s n).trans (ih _)
  exact (hfold s.queue s).trans (of_ids rfl rfl)

theorem suspend (s : Surface) : Adds made s s.suspend := of_ids rfl rfl

theorem resume (s : Surface) : Adds made s s.resume := by
  have hdepth : Adds made s { s with depth := s.depth - 1 } := of_ids rfl rfl
  unfold Surface.resume
  dsimp only
  split
  · exact hdepth.trans (flush _)
  · exact hdepth

theorem setVisible (s : Surface) (n : HandleId) (visible : Bool) :
    Adds made s (s.setVisible n visible) :=
  (modify s n (.visible visible)).trans (update _ n)

theorem addHandle (s : Surface) (mode : String) (shape : Shape) :
    Adds (· = s.handles.size) s (s.addHandle mode shape).2 := by
  have hsize : (s.addHandle mode shape).2.handles.size = s.handles.size + 1 := Array.size_push _
  refine ⟨fun n => live_addHandle, fun base first ht => ⟨?_, ?_⟩⟩
  · rw [hsize]
    exact Nat.le_succ_of_le ht.base_le
  · intro t hmem hid
    rcases List.mem_append.mp hmem with hold | hnew
    · obtain ⟨n, k, hn, hk, hlive, htrace⟩ := ht.owned t hold hid
      refine ⟨n, k, hn, ?_, hlive, htrace⟩
      rw [handle?_addHandle, if_neg (Nat.ne_of_lt (handle?_lt hk))]
      exact hk
    · rw [List.mem_singleton.mp hnew]
      refine ⟨s.handles.size, { trace := s.nextTrace, shape }, ht.base_le, ?_, rfl, rfl⟩
      rw [handle?_addHandle, if_pos rfl]

theorem remove (s : Surface) (n : HandleId) : Adds made s (s.remove n) := by
  refine ⟨fun m hm => .inl (live_remove hm).1, fun base first ht => ?_⟩
  obtain ⟨heq, -⟩ | ⟨k, hk, -, heq⟩ := s.remove_cases n
  · rwa [heq]
  · rw [heq]
    refine ⟨?_, ?_⟩
    · show base ≤ (s.handles.modify n _).size
      rw [Array.size_modify]
      exact ht.base_le
    · intro t hmem hid
      obtain ⟨hmem, hne⟩ := List.mem_filter.mp hmem
      obtain ⟨m, l, hm, hl, hlive, htrace⟩ := ht.owned t hmem hid
      -- a trace that stays belongs to another handle
      have hnm : n ≠ m := by
        rintro rfl
        obtain rfl : k = l := Option.some.inj (hk.symm.trans hl)
        exact bne_iff_ne.mp hne htrace.symm
      refine ⟨m, l, hm, ?_, hlive, htrace⟩
      exact (s.handle?_modify n _ m).trans ((if_neg hnm).trans hl)

theorem foldl_remove (s : Surface) (ns : List HandleId) : Adds made s (ns.foldl Surface.remove s) := by
  induction ns generalizing s with
  | nil => exact refl s
  | cons n ns ih => exact (remove s n).trans (ih _)

end Adds

end Surface
end Graphing
