/-
  Graphing.Proofs.Surface.TwoRuns

  The same operations on two surfaces, with and without suspensions.

  The surfaces have the same handles at every step, and their figures `Agree`
  but for the traces of handles that were pushed (`Batched`).  An operation on
  both surfaces keeps this, and so does a suspension, or its end, on one of
  them.
-/
import Graphing.Proofs.Surface.Batching
import Mathlib.Data.List.Forall2

namespace Graphing

/-! ## Figures that agree -/

/-- Figures of the same traces, which may differ in those whose numbers are `free`. -/
def Agree (free : Nat → Prop) (us vs : List Trace) : Prop :=
  List.Forall₂ (fun u v => u.id = v.id ∧ (u = v ∨ free u.id)) us vs

namespace Agree

variable {free free' : Nat → Prop} {us vs ws : List Trace}

theorem refl (us : List Trace) : Agree free us us :=
  List.forall₂_same.mpr fun _ _ => ⟨rfl, .inl rfl⟩

theorem symm (h : Agree free us vs) : Agree free vs us := by
  refine List.Forall₂.flip (List.Forall₂.imp ?_ h)
  rintro u v ⟨hid, hsame⟩
  exact ⟨hid.symm, hsame.imp Eq.symm fun hfree => hid ▸ hfree⟩

theorem trans (h : Agree free us vs) (h' : Agree free vs ws) : Agree free us ws := by
  induction h generalizing ws with
  | nil => exact h'
  | cons huv _ ih =>
    cases h' with
    | cons hvw hrest =>
      refine .cons ⟨huv.1.trans hvw.1, ?_⟩ (ih hrest)
      rcases huv.2 with rfl | hfree
      · exact hvw.2
      · exact .inr hfree

theorem mono (hfree : ∀ i, free i → free' i) (h : Agree free us vs) : Agree free' us vs :=
  h.imp fun _ _ hpair => ⟨hpair.1, hpair.2.imp_right (hfree _)⟩

/-- Changes of free traces. -/
theorem map {f : Trace → Trace} (hf : ∀ u, (f u).id = u.id ∧ (f u = u ∨ free u.id)) :
    Agree free us (us.map f) := by
  refine List.forall₂_map_right_iff.mpr (List.forall₂_same.mpr fun u _ => ?_)
  exact ⟨(hf u).1.symm, (hf u).2.imp_left Eq.symm⟩

theorem append (h : Agree free us vs) (t : Trace) : Agree free (us ++ [t]) (vs ++ [t]) :=
  List.rel_append h (refl [t])

/-- A trace that is removed need not be free any more. -/
theorem remove {i : Nat} (hfree : ∀ j, j ≠ i → free j → free' j) (h : Agree free us vs) :
    Agree free' (us.filter fun t => t.id != i) (vs.filter fun t => t.id != i) := by
  induction h with
  | nil => exact .nil
  | @cons u v us vs huv _ ih =>
    rw [List.filter_cons, List.filter_cons, ← huv.1]
    split
    · rename_i hne
      exact .cons ⟨huv.1, huv.2.imp_right (hfree _ (bne_iff_ne.mp hne))⟩ ih
    · exact ih

/-- Figures agree in full if the free traces do. -/
theorem eq (h : Agree free us vs)
    (heq : ∀ u ∈ us, ∀ v ∈ vs, u.id = v.id → free u.id → u = v) : us = vs := by
  induction h with
  | nil => rfl
  | cons huv _ ih =>
    have hhead := huv.2.elim id (heq _ List.mem_cons_self _ List.mem_cons_self huv.1)
    have hrest := ih fun u hu v hv => heq u (List.mem_cons_of_mem _ hu) v (List.mem_cons_of_mem _ hv)
    rw [hhead, hrest]

end Agree

/-- A trace is its number, what can be seen of it, and whether it is seen. -/
theorem Trace.ext_look {u v : Trace} (hid : u.id = v.id) (hlook : u.look = v.look)
    (hvisible : u.visible = v.visible) : u = v := by
  cases u
  cases v
  simp only [Trace.look, Look.mk.injEq] at hid hlook hvisible
  obtain ⟨rfl, rfl, rfl, rfl, rfl⟩ := hlook
  rw [hid, hvisible]

namespace Surface

variable {s t : Surface} {n : HandleId} {pushed pushed' stale stale' : HandleId → Prop}

/-! ## Two runs -/

/-- The trace of a handle that was pushed. -/
def Pending (pushed : HandleId → Prop) (s : Surface) (i : Nat) : Prop :=
  ∃ n k, pushed n ∧ s.handle? n = some k ∧ k.removed = false ∧ k.trace = i

theorem Pending.imp {i : Nat} (hpushed : ∀ n, pushed n → pushed' n) (hhandles : t.handles = s.handles)
    (h : s.Pending pushed i) : t.Pending pushed' i := by
  obtain ⟨n, k, hn, hk, hlive, hid⟩ := h
  refine ⟨n, k, hpushed n hn, ?_, hlive, hid⟩
  rw [handle?, hhandles]
  exact hk

/-- Surfaces that differ in what they show, and in what is to be shown. -/
def Same (s t : Surface) : Prop := ∃ f q d, t = { s with figure := f, queue := q, depth := d }

namespace Same

theorem symm (h : Same s t) : Same t s := by
  obtain ⟨f, q, d, rfl⟩ := h
  exact ⟨s.figure, s.queue, s.depth, rfl⟩

theorem trans {u : Surface} (h : Same s t) (h' : Same t u) : Same s u := by
  obtain ⟨f, q, d, rfl⟩ := h
  obtain ⟨f', q', d', rfl⟩ := h'
  exact ⟨f', q', d', rfl⟩

theorem update (s : Surface) (n : HandleId) : Same s (s.update n) := by
  obtain ⟨f, q, h⟩ := s.update_frame n
  exact ⟨f, q, s.depth, h⟩

theorem flush (s : Surface) : Same s s.flush := by
  have hfold : ∀ (ns : List HandleId) (s : Surface), Same s (ns.foldl draw s) := by
    intro ns
    induction ns with
    | nil => exact fun s => ⟨s.figure, s.queue, s.depth, rfl⟩
    | cons n ns ih =>
      intro s
      obtain ⟨f, hf⟩ := s.draw_frame n
      have hdraw : Same s (s.draw n) := ⟨f, s.queue, s.depth, hf⟩
      exact hdraw.trans (ih _)
  exact (hfold s.queue s).trans ⟨_, [], _, rfl⟩

theorem resume (s : Surface) : Same s s.resume := by
  have hdepth : Same s { s with depth := s.depth - 1 } := ⟨s.figure, s.queue, s.depth - 1, rfl⟩
  unfold Surface.resume
  dsimp only
  split
  · exact hdepth.trans (flush _)
  · exact hdepth

end Same

/-- Whatever is done to the trace of a handle, it changes that trace only. -/
theorem agree_repaint {k : Handle} (hk : s.handle? n = some k) (hlive : k.removed = false)
    {f : Trace → Trace} (hf : ∀ t, (f t).id = t.id) :
    Agree (s.Pending (· = n)) s.figure
      (s.figure.map fun t => if t.id = k.trace then f t else t) := by
  refine .map fun u => ?_
  split
  · rename_i hid
    exact ⟨hf u, .inr ⟨n, k, rfl, hk, hlive, hid.symm⟩⟩
  · exact ⟨rfl, .inl rfl⟩

/-- Drawing a handle changes its trace only. -/
theorem agree_draw (s : Surface) (n : HandleId) :
    Agree (s.Pending (· = n)) s.figure (s.draw n).figure := by
  unfold draw
  split
  · rename_i k hk
    split
    · exact .refl _
    · rename_i hlive
      exact agree_repaint hk (eq_false_of_ne_true hlive) k.id_render
  · exact .refl _

theorem agree_update (s : Surface) (n : HandleId) :
    Agree (s.Pending (· = n)) s.figure (s.update n).figure := by
  unfold update
  split
  · split
    · exact .refl _
    · split
      · obtain ⟨q, hq⟩ := s.enqueue_frame n
        rw [hq]
        exact .refl _
      · exact s.agree_draw n
  · exact .refl _

/-- Drawing handles in turn changes their traces only. -/
theorem agree_foldl_draw {ns : List HandleId} (hns : ∀ n ∈ ns, pushed n) :
    Agree (s.Pending pushed) s.figure (ns.foldl draw s).figure := by
  induction ns generalizing s with
  | nil => exact .refl _
  | cons n ns ih =>
    have hn : pushed n := hns n List.mem_cons_self
    have hdraw := (s.agree_draw n).mono fun i => Pending.imp (fun m hm => hm ▸ hn) rfl
    have hrest := ih (s := s.draw n) fun m hm => hns m (List.mem_cons_of_mem _ hm)
    exact hdraw.trans (hrest.mono fun i => Pending.imp (fun _ hm => hm) (handles_draw s n).symm)

/-- Working off the queue changes the traces of its handles only. -/
theorem agree_flush (hqueue : ∀ n ∈ s.queue, pushed n) :
    Agree (s.Pending pushed) s.figure s.flush.figure := agree_foldl_draw hqueue

theorem agree_resume (hqueue : ∀ n ∈ s.queue, pushed n) :
    Agree (s.Pending pushed) s.figure s.resume.figure := by
  unfold resume
  dsimp only
  split
  · exact agree_flush (s := { s with depth := s.depth - 1 }) hqueue
  · exact .refl _

/-- Two runs of a script with the same handles, where the figures agree but for handles that were
pushed. -/
structure Batched (pushed stale : HandleId → Prop) (s t : Surface) : Prop where
  left : Tracked pushed stale s
  right : Tracked pushed stale t
  same : Same s t
  agree : Agree (s.Pending pushed) s.figure t.figure

namespace Batched

theorem symm (h : Batched pushed stale s t) : Batched pushed stale t s := by
  have hhandles : t.handles = s.handles := by
    obtain ⟨f, q, d, rfl⟩ := h.same
    rfl
  exact ⟨h.right, h.left, h.same.symm, h.agree.symm.mono fun i => Pending.imp (fun _ hn => hn) hhandles⟩

theorem imp (h : Batched pushed stale s t) (hpushed : ∀ n, pushed' n ↔ pushed n)
    (hstale : ∀ n, pushed n → stale n → stale' n) : Batched pushed' stale' s t where
  left := h.left.imp hpushed hstale
  right := h.right.imp hpushed hstale
  same := h.same
  agree := h.agree.mono fun _ => Pending.imp (fun n => (hpushed n).mpr) rfl

theorem modify (h : Batched pushed stale s t) (n : HandleId) {f : Handle → Handle}
    (hf : Handle.Gentle f) :
    Batched pushed (fun m => stale m ∨ m = n) (s.modify n f) (t.modify n f) := by
  obtain ⟨hleft, hright, ⟨g, q, d, rfl⟩, hagree⟩ := h
  refine ⟨hleft.modify n hf, hright.modify n hf, ⟨g, q, d, rfl⟩, hagree.mono ?_⟩
  rintro i ⟨m, k, hm, hk, hlive, hid⟩
  have hhandle := s.handle?_modify n f m
  rw [hk] at hhandle
  split at hhandle
  · exact ⟨m, f k, hm, hhandle, by rw [(hf k).2.1, hlive], by rw [(hf k).1, hid]⟩
  · exact ⟨m, k, hm, hhandle, hlive, hid⟩

/-- A handle is shown or queued on both sides. -/
theorem update (h : Batched pushed stale s t) (n : HandleId) :
    Batched (fun m => pushed m ∨ m = n ∧ m < s.handles.size)
      (fun m => stale m ∧ ¬(m = n ∧ m < s.handles.size)) (s.update n) (t.update n) := by
  have hhandles : t.handles = s.handles := by
    obtain ⟨f, q, d, rfl⟩ := h.same
    rfl
  by_cases hn : n < s.handles.size
  · have hboth : Batched (fun m => pushed m ∨ m = n) (fun m => stale m ∧ m ≠ n)
        (s.update n) (t.update n) := by
      refine ⟨h.left.update hn, h.right.update (by rwa [hhandles]),
        ((Same.update s n).symm.trans h.same).trans (Same.update t n), ?_⟩
      have hself : ∀ m, m = n → pushed m ∨ m = n := fun m => .inr
      have hkept : ∀ m, pushed m → pushed m ∨ m = n := fun m => .inl
      have hs : Agree ((s.update n).Pending fun m => pushed m ∨ m = n) _ _ :=
        (s.agree_update n).mono fun i => Pending.imp hself (s.handles_update n)
      have ht : Agree ((s.update n).Pending fun m => pushed m ∨ m = n) _ _ :=
        (t.agree_update n).mono fun i =>
          Pending.imp hself ((s.handles_update n).trans hhandles.symm)
      have hagree : Agree ((s.update n).Pending fun m => pushed m ∨ m = n) _ _ :=
        h.agree.mono fun i => Pending.imp hkept (s.handles_update n)
      exact (hs.symm.trans hagree).trans ht
    refine hboth.imp (fun m => or_congr_right ⟨fun hm => hm.1, fun hm => ⟨hm, hm ▸ hn⟩⟩) ?_
    exact fun m _ hm => ⟨hm.1, fun hmn => hm.2 hmn.1⟩
  · rw [update_of_not_lt hn, update_of_not_lt (by rwa [hhandles])]
    refine h.imp (fun m => ⟨fun hm => hm.resolve_right ?_, .inl⟩) fun m _ hm => ⟨hm, ?_⟩
    · rintro ⟨rfl, hlt⟩
      exact hn hlt
    · rintro ⟨rfl, hlt⟩
      exact hn hlt

theorem addHandle (h : Batched pushed stale s t) {mode : String} {shape : Shape}
    (hmode : mode = shape.mode) :
    Batched pushed stale (s.addHandle mode shape).2 (t.addHandle mode shape).2 := by
  obtain ⟨hleft, hright, ⟨g, q, d, rfl⟩, hagree⟩ := h
  refine ⟨hleft.addHandle hmode, hright.addHandle hmode, ⟨_, _, _, rfl⟩, ?_⟩
  refine (hagree.append { id := s.nextTrace, mode }).mono ?_
  rintro i ⟨m, k, hm, hk, hlive, hid⟩
  refine ⟨m, k, hm, ?_, hlive, hid⟩
  rw [handle?_addHandle, if_neg (Nat.ne_of_lt (hleft.pushed_lt m hm)), hk]

theorem addTrace (h : Batched pushed stale s t) (mode : String) :
    Batched pushed stale (s.addTrace mode).2 (t.addTrace mode).2 := by
  obtain ⟨hleft, hright, ⟨g, q, d, rfl⟩, hagree⟩ := h
  refine ⟨hleft.addTrace mode, hright.addTrace mode, ⟨_, _, _, rfl⟩, ?_⟩
  exact (hagree.append { id := s.nextTrace, mode }).mono fun i =>
    Pending.imp (fun _ hn => hn) rfl

theorem remove (h : Batched pushed stale s t) (n : HandleId) :
    Batched pushed stale (s.remove n) (t.remove n) := by
  have hleft := h.left.remove n
  have hright := h.right.remove n
  obtain ⟨-, -, ⟨g, q, d, rfl⟩, hagree⟩ := h
  refine ⟨hleft, hright, ?_, ?_⟩
  · unfold Surface.remove handle?
    dsimp only
    split
    · split
      · exact ⟨_, _, _, rfl⟩
      · exact ⟨_, _, _, rfl⟩
    · exact ⟨_, _, _, rfl⟩
  · cases hk : s.handle? n with
    | none =>
      have hk' : ({ s with figure := g, queue := q, depth := d } : Surface).handle? n = none := hk
      rw [Surface.remove, Surface.remove, hk, hk']
      exact hagree
    | some k =>
      have hk' : ({ s with figure := g, queue := q, depth := d } : Surface).handle? n = some k := hk
      rw [Surface.remove, Surface.remove, hk, hk']
      cases hlive : k.removed with
      | true => simpa [hlive] using hagree
      | false =>
        simp only [hlive, Bool.false_eq_true, if_false]
        refine hagree.remove ?_
        rintro i hne ⟨m, l, hm, hl, hlivel, hid⟩
        refine ⟨m, l, hm, ?_, hlivel, hid⟩
        have hmn : n ≠ m := by
          rintro rfl
          obtain rfl : k = l := Option.some.inj (hk.symm.trans hl)
          exact hne hid.symm
        exact (s.handle?_modify n _ m).trans (by rw [if_neg hmn, hl])

theorem rebound (h : Batched pushed stale s t) (d : Contour.Domain Float) :
    Batched pushed stale { s with bounds := d } { t with bounds := d } := by
  obtain ⟨hleft, hright, ⟨g, q, e, rfl⟩, hagree⟩ := h
  exact ⟨hleft.rebound d, hright.rebound d, ⟨g, q, e, rfl⟩, hagree⟩

/-! ### Suspensions on one side -/

theorem suspend_right (h : Batched pushed stale s t) : Batched pushed stale s t.suspend where
  left := h.left
  right := h.right.suspend
  same := h.same.trans ⟨t.figure, t.queue, t.depth + 1, rfl⟩
  agree := h.agree

theorem resume_right (h : Batched pushed stale s t) : Batched pushed stale s t.resume where
  left := h.left
  right := h.right.resume
  same := h.same.trans (Same.resume t)
  agree := by
    have hhandles : s.handles = t.handles := by
      obtain ⟨f, q, d, rfl⟩ := h.same
      rfl
    refine h.agree.trans ((agree_resume h.right.queued).mono fun i => ?_)
    exact Pending.imp (fun _ hn => hn) hhandles

theorem suspend (h : Batched pushed stale s t) : Batched pushed stale s.suspend t.suspend :=
  h.suspend_right.symm.suspend_right.symm

theorem resume (h : Batched pushed stale s t) : Batched pushed stale s.resume t.resume :=
  h.resume_right.symm.resume_right.symm

end Batched

end Surface
end Graphing
