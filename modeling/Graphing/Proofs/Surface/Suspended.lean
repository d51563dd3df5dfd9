/-
  Graphing.Proofs.Surface.Suspended

  Operations on a suspended surface.

  While updates are suspended, a change of a handle only puts the handle into
  the queue.  Whatever is done to handles, the size and the bounds of the
  surface, its `Frame`, stay the same, and so does the number of suspensions.
-/
import Graphing.Proofs.Surface.Coherent

namespace Graphing

/-- The size of a surface in pixels, and its bounds. -/
structure Frame where
  width : Nat
  height : Nat
  bounds : Contour.Domain Float

/-- What each step keeps, a run keeps. -/
theorem foldl_keeps {σ α β : Type} (view : σ → β) {f : σ → α → σ}
    (hf : ∀ s a, view (f s a) = view s) (as : List α) (s : σ) :
    view (as.foldl f s) = view s := by
  induction as generalizing s with
  | nil => rfl
  | cons a as ih => exact (ih (f s a)).trans (hf s a)

namespace Surface

variable {s : Surface} {m n : HandleId}

/-- The frame of a surface. -/
def frame (s : Surface) : Frame := ⟨s.width, s.height, s.bounds⟩

/-! ## What stays -/

theorem draw_frame (s : Surface) (n : HandleId) : ∃ f, s.draw n = { s with figure := f } := by
  unfold draw
  split
  · split
    · exact ⟨_, rfl⟩
    · exact ⟨_, rfl⟩
  · exact ⟨_, rfl⟩

theorem enqueue_frame (s : Surface) (n : HandleId) : ∃ q, s.enqueue n = { s with queue := q } := by
  unfold enqueue
  split <;> exact ⟨_, rfl⟩

theorem update_frame (s : Surface) (n : HandleId) :
    ∃ f q, s.update n = { s with figure := f, queue := q } := by
  unfold update
  split
  · split
    · exact ⟨_, _, rfl⟩
    · split
      · obtain ⟨q, hq⟩ := s.enqueue_frame n
        exact ⟨_, q, hq⟩
      · obtain ⟨f, hf⟩ := s.draw_frame n
        exact ⟨f, _, hf⟩
  · exact ⟨_, _, rfl⟩

theorem remove_frame (s : Surface) (n : HandleId) : ∃ a f q l,
    s.remove n = { s with handles := a, figure := f, queue := q, live := l } := by
  obtain ⟨heq, -⟩ | ⟨k, -, -, heq⟩ := s.remove_cases n
  · exact ⟨_, _, _, _, heq⟩
  · exact ⟨_, _, _, _, heq⟩

theorem frame_update (s : Surface) (n : HandleId) : (s.update n).frame = s.frame := by
  obtain ⟨f, q, h⟩ := s.update_frame n
  rw [h]
  rfl

theorem depth_update (s : Surface) (n : HandleId) : (s.update n).depth = s.depth := by
  obtain ⟨f, q, h⟩ := s.update_frame n
  rw [h]

theorem handles_update (s : Surface) (n : HandleId) : (s.update n).handles = s.handles := by
  obtain ⟨f, q, h⟩ := s.update_frame n
  rw [h]

theorem frame_remove (s : Surface) (n : HandleId) : (s.remove n).frame = s.frame := by
  obtain ⟨a, f, q, l, h⟩ := s.remove_frame n
  rw [h]
  rfl

theorem depth_remove (s : Surface) (n : HandleId) : (s.remove n).depth = s.depth := by
  obtain ⟨a, f, q, l, h⟩ := s.remove_frame n
  rw [h]

theorem frame_hide (s : Surface) (n : HandleId) : (s.hide n).frame = s.frame :=
  frame_update _ n

theorem depth_hide (s : Surface) (n : HandleId) : (s.hide n).depth = s.depth :=
  depth_update _ n

/-- Removing a handle keeps the others. -/
theorem handle?_remove (h : m ≠ n) : (s.remove n).handle? m = s.handle? m := by
  obtain ⟨heq, -⟩ | ⟨k, -, -, heq⟩ := s.remove_cases n
  · rw [heq]
  · rw [heq]
    exact (s.handle?_modify n _ m).trans (if_neg h.symm)

theorem remove_of_live {k : Handle} (hk : s.handle? n = some k) (hlive : k.removed = false) :
    s.remove n = { s.modify n (fun k => { k with removed := true }) with
      figure := s.figure.filter fun t => t.id != k.trace
      queue := s.queue.filter (· != n)
      live := s.live.filter (· != n) } := by
  rw [remove, hk]
  simp only [hlive, Bool.false_eq_true, if_false]

theorem mem_queue_remove (h : m ≠ n) (hm : m ∈ s.queue) : m ∈ (s.remove n).queue := by
  obtain ⟨heq, -⟩ | ⟨k, -, -, heq⟩ := s.remove_cases n
  · rwa [heq]
  · rw [heq]
    exact List.mem_filter.mpr ⟨hm, bne_iff_ne.mpr h⟩

/-! ## The queue -/

theorem mem_queue_enqueue : m ∈ (s.enqueue n).queue ↔ m ∈ s.queue ∨ m = n := by
  unfold enqueue
  split
  · rename_i hn
    constructor
    · exact .inl
    · rintro (hm | rfl)
      · exact hm
      · exact List.contains_iff_mem.mp hn
  · simp

theorem update_of_suspended (hs : s.depth ≠ 0) {k : Handle} (hk : s.handle? n = some k)
    (hlive : k.removed = false) : s.update n = s.enqueue n := by
  have hsusp : s.isSuspended = true := by
    rw [isSuspended, decide_eq_true_eq]
    omega
  rw [update, hk]
  simp [hlive, hsusp]

/-- Nothing is put off unless updates are suspended. -/
theorem update_eq_draw (hdepth : s.depth = 0) (n : HandleId) : s.update n = s.draw n := by
  have hnow : s.isSuspended = false := by simp [isSuspended, hdepth]
  cases hn : s.handle? n with
  | none => simp [Surface.update, Surface.draw, hn]
  | some h => cases hremoved : h.removed <;> simp [Surface.update, Surface.draw, hn, hremoved, hnow]

/-- Nothing leaves the queue while updates are suspended. -/
theorem mem_queue_update (hs : s.depth ≠ 0) (hm : m ∈ s.queue) : m ∈ (s.update n).queue := by
  cases hk : s.handle? n with
  | none => rwa [update, hk]
  | some k =>
    cases hlive : k.removed with
    | true =>
      rw [update, hk]
      simpa [hlive] using hm
    | false =>
      rw [update_of_suspended hs hk hlive]
      exact mem_queue_enqueue.mpr (.inl hm)

theorem mem_queue_update_self (hs : s.depth ≠ 0) {k : Handle} (hk : s.handle? n = some k)
    (hlive : k.removed = false) : n ∈ (s.update n).queue := by
  rw [update_of_suspended hs hk hlive]
  exact mem_queue_enqueue.mpr (.inr rfl)

/-- A handle that is queued already is not queued again. -/
theorem update_modify_update (hs : s.depth ≠ 0) {f : Handle → Handle}
    (hf : ∀ k, (f k).removed = k.removed) {k : Handle} (hk : s.handle? n = some k)
    (hlive : k.removed = false) :
    ((s.update n).modify n f).update n = (s.modify n f).update n := by
  have hfk : (s.modify n f).handle? n = some (f k) := by
    rw [handle?_modify, if_pos rfl, hk]
    rfl
  have hs' : (s.modify n f).depth ≠ 0 := hs
  have hlive' : (f k).removed = false := (hf k).trans hlive
  have hmodify : (s.enqueue n).modify n f = (s.modify n f).enqueue n := by
    unfold enqueue modify
    split <;> rfl
  have hkn : ((s.modify n f).enqueue n).handle? n = some (f k) := by
    rw [handle?, handles_enqueue]
    exact hfk
  obtain ⟨q, hq⟩ := (s.modify n f).enqueue_frame n
  have hdepth : ((s.modify n f).enqueue n).depth ≠ 0 := by
    rw [hq]
    exact hs
  rw [update_of_suspended hs hk hlive, hmodify, update_of_suspended hdepth hkn hlive',
    update_of_suspended hs' hfk hlive', enqueue, if_pos]
  exact List.contains_iff_mem.mpr (mem_queue_enqueue.mpr (.inr rfl))

/-! ## The end of a suspension -/

theorem frame_draw (s : Surface) (n : HandleId) : (s.draw n).frame = s.frame := by
  obtain ⟨f, h⟩ := s.draw_frame n
  rw [h]
  rfl

theorem depth_draw (s : Surface) (n : HandleId) : (s.draw n).depth = s.depth := by
  obtain ⟨f, h⟩ := s.draw_frame n
  rw [h]

/-- The outermost suspension ends with the queue. -/
theorem resume_of_depth (h : s.depth = 1) : s.resume = { s with depth := 0 }.flush := by
  rw [resume, h]
  rfl

theorem handles_flush (s : Surface) : s.flush.handles = s.handles :=
  foldl_keeps Surface.handles handles_draw s.queue s

theorem frame_flush (s : Surface) : s.flush.frame = s.frame :=
  foldl_keeps Surface.frame frame_draw s.queue s

theorem depth_flush (s : Surface) : s.flush.depth = s.depth :=
  foldl_keeps Surface.depth depth_draw s.queue s

/-! ## Changes one after another -/

theorem modify_modify (s : Surface) (n : HandleId) (f g : Handle → Handle) :
    (s.modify n f).modify n g = s.modify n (g ∘ f) := by
  have : (s.handles.modify n f).modify n g = s.handles.modify n (g ∘ f) := by
    apply Array.ext_getElem?
    intro i
    simp only [Array.getElem?_modify]
    split
    · rw [Option.map_map]
    · rfl
  simp only [modify, this]

theorem modify_congr {f g : Handle → Handle} (h : ∀ k, s.handle? n = some k → f k = g k) :
    s.modify n f = s.modify n g := by
  have : s.handles.modify n f = s.handles.modify n g := by
    apply Array.ext_getElem?
    intro i
    simp only [Array.getElem?_modify]
    split
    · rename_i hi
      subst hi
      cases hk : s.handles[n]? with
      | none => rfl
      | some k => exact congrArg some (h k hk)
    · rfl
  simp only [modify, this]

/-- Sampling a lazy curve whose coordinates can be had. -/
theorem updateCurve_of_source {l : Handle} (hl : s.handle? n = some l) {curve : Curve}
    (hshape : l.shape = .curve curve) {source : LazySource} (hsource : curve.source = some source)
    {xs ys : List Float} (hxs : source.xOf (s.pixelSamples source.axis) = some xs)
    (hys : source.yOf (s.pixelSamples source.axis) = some ys) :
    s.updateCurve n =
      (.ok (), ((s.modify n (Handle.mapCurve fun c => { c with xs })).modify n
        (Handle.mapCurve fun c => { c with ys })).update n) := by
  have hof : ((s.handle? n).bind (·.curve?)).bind (·.source) = some source := by
    rw [hl, Option.bind_some, Handle.curve?, hshape]
    exact hsource
  rw [updateCurve, hof]
  dsimp only
  rw [hxs]
  dsimp only
  rw [hys]

/-- Changing a handle that was just made is making it in the changed shape. -/
theorem modify_addHandle (s : Surface) (mode : String) (shape : Shape) (f : Handle → Handle) :
    (s.addHandle mode shape).2.modify (s.addHandle mode shape).1 f =
      { (s.addHandle mode shape).2 with
        handles := s.handles.push (f { trace := s.nextTrace, shape }) } := by
  have : (s.handles.push { trace := s.nextTrace, shape }).modify s.handles.size f =
      s.handles.push (f { trace := s.nextTrace, shape }) := by
    apply Array.ext_getElem?
    intro i
    simp only [Array.getElem?_modify, Array.getElem?_push]
    grind
  simp only [modify, addHandle, addTrace, this]

end Surface
end Graphing
