/-
  Graphing.Proofs.Surface.Growth

  Operations that take nothing away.

  A handle is touched when it is changed or shown.  Touching, making and
  suspending leave every handle in place, of its kind, and removed just if it
  was before: the surface `Grows`.  All operations do so but `remove`, which
  takes away one handle.
-/
import Graphing.Proofs.Surface.Actions
import Mathlib.Logic.Relation

namespace Graphing.Surface

variable {s s' s'' : Surface} {k m n : HandleId}

/-! ## Touching one handle -/

/-- A handle is changed, or shown. -/
inductive Touch (k : HandleId) (s : Surface) : Surface → Prop
  | modify {f : Handle → Handle} (gentle : Handle.Gentle f) : Touch k s (s.modify k f)
  | update : Touch k s (s.update k)

/-- A handle is changed and shown any number of times. -/
abbrev Touches (k : HandleId) : Surface → Surface → Prop := Relation.ReflTransGen (Touch k)

theorem touches_modify (s : Surface) (k : HandleId) {f : Handle → Handle} (hf : Handle.Gentle f) :
    Touches k s (s.modify k f) :=
  .single (.modify hf)

theorem touches_setVisible (s : Surface) (k : HandleId) (visible : Bool) :
    Touches k s (s.setVisible k visible) :=
  (touches_modify s k (.visible visible)).tail .update

theorem touches_updateCurve (s : Surface) (k : HandleId) : Touches k s (s.updateCurve k).2 := by
  obtain ⟨f, ⟨hf, -⟩, hok | hfails | hsplits⟩ := s.updateCurve_cases k
  · rw [(hok s (.refl s)).1]
    exact (touches_modify s k hf).tail .update
  · rw [(hfails s (.refl s)).1]
  · rw [(hsplits s (.refl s)).1]
    exact touches_modify s k hf

/-! ## Growing surfaces -/

/-- No handle is lost, removed, or made a handle of another kind. A surface where nothing waits
unless updates are suspended stays so. -/
structure Grows (s s' : Surface) : Prop where
  coherent : s.Coherent → s'.Coherent
  idle : (s.depth = 0 → s.queue = []) → s'.depth = 0 → s'.queue = []
  handle : ∀ n k, s.handle? n = some k →
    ∃ k', s'.handle? n = some k' ∧ k'.removed = k.removed ∧ k.shape.SameKind k'.shape

namespace Grows

theorem refl (s : Surface) : Grows s s := ⟨id, id, fun _ k hk => ⟨k, hk, rfl, .refl _⟩⟩

theorem trans (h : Grows s s') (h' : Grows s' s'') : Grows s s'' where
  coherent hs := h'.coherent (h.coherent hs)
  idle hs := h'.idle (h.idle hs)
  handle n k hk := by
    obtain ⟨k', hk', hremoved, hkind⟩ := h.handle n k hk
    obtain ⟨k'', hk'', hremoved', hkind'⟩ := h'.handle n k' hk'
    exact ⟨k'', hk'', hremoved'.trans hremoved, hkind.trans hkind'⟩

/-- A change that keeps all handles as they are. -/
theorem of_handles (hhandles : s'.handles = s.handles) (hcoherent : s.Coherent → s'.Coherent)
    (hidle : (s.depth = 0 → s.queue = []) → s'.depth = 0 → s'.queue = []) : Grows s s' := by
  refine ⟨hcoherent, hidle, fun n k hk => ⟨k, ?_, rfl, .refl _⟩⟩
  rw [handle?, hhandles]
  exact hk

theorem modify (s : Surface) (n : HandleId) {f : Handle → Handle} (hf : Handle.Gentle f) :
    Grows s (s.modify n f) := by
  refine ⟨fun hs => hs.modify fun k _ => hf k, id, fun m k hk => ?_⟩
  rw [handle?_modify, hk]
  split
  · exact ⟨f k, rfl, (hf k).2⟩
  · exact ⟨k, rfl, rfl, .refl _⟩

theorem update (s : Surface) (n : HandleId) : Grows s (s.update n) := by
  refine of_handles (s.handles_update n) (fun hs => hs.update n) fun hs hdepth => ?_
  rw [depth_update] at hdepth
  obtain ⟨f, hf⟩ := s.draw_frame n
  rw [update_eq_draw hdepth, hf]
  exact hs hdepth

theorem touches (h : Touches k s s') : Grows s s' := by
  induction h with
  | refl => exact refl s
  | tail _ htouch ih =>
    cases htouch with
    | modify gentle => exact ih.trans (modify _ k gentle)
    | update => exact ih.trans (update _ k)

theorem addTrace (s : Surface) (mode : String) : Grows s (s.addTrace mode).2 :=
  of_handles rfl (fun hs => hs.addTrace mode) id

theorem addHandle (s : Surface) {mode : String} {shape : Shape} (hmode : mode = shape.mode) :
    Grows s (s.addHandle mode shape).2 := by
  refine ⟨fun hs => hs.addHandle hmode, id, fun m k hk => ⟨k, ?_, rfl, .refl _⟩⟩
  rw [handle?_addHandle, if_neg (Nat.ne_of_lt (handle?_lt hk)), hk]

theorem suspend (s : Surface) : Grows s s.suspend :=
  of_handles rfl (fun hs => hs.congr rfl rfl rfl) fun _ hdepth => absurd hdepth (Nat.succ_ne_zero _)

theorem resume (s : Surface) : Grows s s.resume := by
  have hhandles : s.resume.handles = s.handles := by
    obtain ⟨f, q, d, hsame⟩ := Same.resume s
    rw [hsame]
  refine of_handles hhandles Coherent.resume fun _ hdepth => ?_
  unfold Surface.resume at hdepth ⊢
  dsimp only at hdepth ⊢
  split
  · rfl
  · rename_i hopen
    rw [if_neg hopen] at hdepth
    exact absurd hdepth hopen

theorem updateCurve (s : Surface) (n : HandleId) : Grows s (s.updateCurve n).2 :=
  touches (touches_updateCurve s n)

theorem resample (ns : List HandleId) (s : Surface) : Grows s (Surface.resample ns s).2 :=
  resample_keeps (P := Grows s) (fun t n hs => hs.trans (updateCurve t n)) ns (refl s)

theorem setBounds (s : Surface) (d : Contour.Domain Float) : Grows s (s.setBounds d).2 := by
  cases hproper : d.isProper with
  | false =>
    rw [setBounds_of_not_isProper hproper]
    exact refl s
  | true =>
    have hstart : Grows s (s.rebounded d) :=
      (suspend s).trans (of_handles rfl (fun hs => hs.congr rfl rfl rfl) id)
    rw [setBounds_of_isProper hproper]
    exact (hstart.trans (resample _ _)).trans (resume _)

/-- Making a handle, or only its trace. -/
theorem createCurve (s : Surface) (r : Readout CurveSettings) : Grows s (s.createCurve r).2 := by
  obtain ⟨shape, hmode, hr⟩ | ⟨e, hr⟩ := createCurve_cases r
  · rw [hr]
    exact addHandle s hmode.symm
  · rw [hr]
    exact addTrace s "lines"

theorem createSegment (s : Surface) (start finish : List Float) (r : Readout SegmentSettings) :
    Grows s (s.createSegment start finish r).2 := by
  obtain ⟨shape, hmode, hr⟩ | ⟨e, hr⟩ := createSegment_cases start finish r
  · rw [hr]
    exact (addHandle s hmode.symm).trans (touches (touches_setVisible _ _ true))
  · rw [hr]
    exact addTrace s "lines"

end Grows

/-! ## Removing one handle -/

/-- A handle that is removed stays of its kind. -/
theorem handle?_remove_kind {l : Handle} (hm : s.handle? m = some l) (n : HandleId) :
    ∃ l', (s.remove n).handle? m = some l' ∧ l'.trace = l.trace ∧ l'.shape = l.shape := by
  obtain ⟨heq, -⟩ | ⟨k, -, -, heq⟩ := s.remove_cases n
  · rw [heq]
    exact ⟨l, hm, rfl, rfl⟩
  · rw [heq]
    have hmarked := s.handle?_modify n (fun k => { k with removed := true }) m
    rw [hm] at hmarked
    split at hmarked
    · exact ⟨_, hmarked, rfl, rfl⟩
    · exact ⟨l, hmarked, rfl, rfl⟩

/-- Removing a handle makes none. -/
theorem size_handles_remove (s : Surface) (n : HandleId) :
    (s.remove n).handles.size = s.handles.size := by
  obtain ⟨heq, -⟩ | ⟨k, -, -, heq⟩ := s.remove_cases n
  · rw [heq]
  · rw [heq]
    exact Array.size_modify

/-- Removing several handles keeps the others. -/
theorem handle?_foldl_remove (ns : List HandleId) (hm : m ∉ ns) :
    (ns.foldl remove s).handle? m = s.handle? m := by
  induction ns generalizing s with
  | nil => rfl
  | cons n ns ih =>
    obtain ⟨hne, hrest⟩ := not_or.mp (mt List.mem_cons.mpr hm)
    exact (ih hrest).trans (handle?_remove hne)

theorem coherent_foldl_remove (h : s.Coherent) (ns : List HandleId) :
    (ns.foldl remove s).Coherent := by
  induction ns generalizing s with
  | nil => exact h
  | cons n ns ih => exact ih (h.remove n)

/-- Removing handles puts nothing into the queue. -/
theorem idle_foldl_remove (h : s.depth = 0 → s.queue = []) (ns : List HandleId) :
    (ns.foldl remove s).depth = 0 → (ns.foldl remove s).queue = [] := by
  induction ns generalizing s with
  | nil => exact h
  | cons n ns ih =>
    refine ih fun hdepth => ?_
    rw [depth_remove] at hdepth
    obtain ⟨heq, -⟩ | ⟨k, -, -, heq⟩ := s.remove_cases n
    · rw [heq]
      exact h hdepth
    · rw [heq]
      show s.queue.filter _ = []
      rw [h hdepth, List.filter_nil]

end Graphing.Surface
