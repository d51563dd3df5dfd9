/-
  Graphing.Proofs.Surface.Confined

  Changes that are confined to some traces.

  Whoever owns some traces can change them and their handles, make new ones and
  remove them: all other traces stay as they are (`ChangesOnly`).  This holds
  for the figure, and also for what the figure shows once all suspensions have
  ended (`settle`), since the other handles that wait in the queue stay there,
  in their order.
-/
import Graphing.Proofs.Surface.Growth
import Mathlib.Logic.Function.Iterate

namespace Graphing

/-- What can be seen of a trace. -/
def Trace.seen? (t : Trace) : Option Look := if t.visible then some t.look else none

namespace Surface

variable {s s' s'' : Surface} {k n : HandleId} {own : Nat → Bool}

/-- The looks of all visible traces of the figure. -/
def seen (s : Surface) : List Look := s.figure.filterMap Trace.seen?

/-! ## Once all suspensions have ended -/

/-- The surface after all suspensions have ended. -/
def settle (s : Surface) : Surface := Surface.resume^[s.depth] s

theorem settle_of_depth (h : s.depth = 0) : s.settle = s := by
  rw [settle, h]
  rfl

theorem settle_resume (h : s.depth ≠ 0) : s.resume.settle = s.settle := by
  obtain ⟨d, hd⟩ := Nat.exists_eq_succ_of_ne_zero h
  rw [settle, settle, depth_resume, hd]
  rfl

/-- The surface after all suspensions have ended is the one after its queue was worked off. -/
theorem settle_eq (hidle : s.depth = 0 → s.queue = []) :
    s.settle = { s with depth := 0 }.flush := by
  generalize hd : s.depth = d
  induction d generalizing s with
  | zero =>
    obtain ⟨width, height, bounds, handles, live, figure, nextTrace, queue, depth⟩ := s
    obtain rfl : depth = 0 := hd
    obtain rfl : queue = [] := hidle rfl
    rfl
  | succ d ih =>
    rw [← settle_resume (by rw [hd]; exact Nat.succ_ne_zero d)]
    cases d with
    | zero =>
      rw [settle_of_depth (by rw [depth_resume, hd]), resume_of_depth hd]
    | succ d =>
      have hresume : s.resume = { s with depth := d + 1 } := by
        unfold resume
        dsimp only
        rw [hd]
        exact if_neg (Nat.succ_ne_zero d)
      rw [hresume, ih (fun h => absurd h (Nat.succ_ne_zero d)) rfl]

/-! ## Handles and their traces -/

/-- The trace of a handle, and whether the handle was removed. -/
def tag? (s : Surface) (k : HandleId) : Option (Nat × Bool) :=
  (s.handle? k).map fun l => (l.trace, l.removed)

/-- Each handle keeps its trace, and none is made or removed. -/
structure SameTags (s s' : Surface) : Prop where
  tag : ∀ k, s'.tag? k = s.tag? k
  ids : s'.figure.map Trace.id = s.figure.map Trace.id
  next : s'.nextTrace = s.nextTrace

namespace SameTags

theorem refl (s : Surface) : SameTags s s := ⟨fun _ => rfl, rfl, rfl⟩

theorem trans (h : SameTags s s') (h' : SameTags s' s'') : SameTags s s'' :=
  ⟨fun k => (h'.tag k).trans (h.tag k), h'.ids.trans h.ids, h'.next.trans h.next⟩

theorem modify (s : Surface) (k : HandleId) {f : Handle → Handle} (hf : Handle.Gentle f) :
    SameTags s (s.modify k f) := by
  refine ⟨fun j => ?_, rfl, rfl⟩
  rw [tag?, handle?_modify, tag?]
  split
  · rw [Option.map_map]
    refine congrArg (fun g => (s.handle? j).map g) (funext fun l => ?_)
    exact Prod.ext (hf l).1 (hf l).2.1
  · rfl

theorem draw (s : Surface) (k : HandleId) : SameTags s (s.draw k) := by
  refine ⟨fun j => by rw [tag?, handle?_draw]; rfl, ?_, by obtain ⟨f, hf⟩ := s.draw_frame k; rw [hf]⟩
  unfold Surface.draw
  split
  · split
    · rfl
    · rw [List.map_map]
      refine List.map_congr_left fun t _ => ?_
      show (if _ then _ else _ : Trace).id = t.id
      split
      · exact Handle.id_render _ t
      · rfl
  · rfl

theorem update (s : Surface) (k : HandleId) : SameTags s (s.update k) := by
  unfold Surface.update
  split
  · split
    · exact refl s
    · split
      · obtain ⟨q, hq⟩ := s.enqueue_frame k
        rw [hq]
        exact ⟨fun _ => rfl, rfl, rfl⟩
      · exact draw s k
  · exact refl s

theorem touch (h : Touch k s s') : SameTags s s' := by
  cases h with
  | modify gentle => exact modify s k gentle
  | update => exact update s k

theorem flush (s : Surface) : SameTags s s.flush := by
  have hfold : ∀ (ks : List HandleId) (s : Surface), SameTags s (ks.foldl Surface.draw s) := by
    intro ks
    induction ks with
    | nil => exact fun s => refl s
    | cons k ks ih => exact fun s => (draw s k).trans (ih _)
  obtain ⟨htag, hids, hnext⟩ := hfold s.queue s
  exact ⟨htag, hids, hnext⟩

end SameTags

/-! ## Traces of others -/

/-- Whether a handle has a trace that is not owned. -/
def foreign (own : Nat → Bool) (s : Surface) (k : HandleId) : Bool :=
  (s.handle? k).any fun l => !own l.trace

/-- The traces of the figure that are not owned. -/
def others (own : Nat → Bool) (s : Surface) : List Trace := s.figure.filter fun t => !own t.id

theorem own_of_not_foreign (hk : s.foreign own k = false) {l : Handle} (hl : s.handle? k = some l) :
    own l.trace = true := by
  rw [foreign, hl] at hk
  simpa using hk

theorem not_foreign_of_own (h : ∀ l, s.handle? k = some l → own l.trace = true) :
    s.foreign own k = false := by
  rw [foreign]
  cases hl : s.handle? k with
  | none => rfl
  | some l => simp [h l hl]

/-- Drawing a handle changes its own trace only. -/
theorem others_draw (own : Nat → Bool) (s : Surface) (k : HandleId) : (s.draw k).others own =
    match s.handle? k with
    | some l =>
      if l.removed then s.others own
      else (s.others own).map fun t => if t.id = l.trace then l.render t else t
    | none => s.others own := by
  unfold Surface.draw
  cases s.handle? k with
  | none => rfl
  | some l =>
    dsimp only
    split
    · rfl
    · show (List.map _ s.figure).filter _ = _
      rw [List.filter_map]
      refine congrArg (List.map _) (List.filter_congr fun t _ => ?_)
      show (!own (if t.id = l.trace then l.render t else t).id) = !own t.id
      split
      · rw [l.id_render]
      · rfl

/-- Nothing but owned traces and their handles was changed. -/
structure ChangesOnly (own : Nat → Bool) (s s' : Surface) : Prop where
  figure : s'.others own = s.others own
  queue : s'.queue.filter (s.foreign own) = s.queue.filter (s.foreign own)
  handle : ∀ k l, own l.trace = false → (s'.handle? k = some l ↔ s.handle? k = some l)

namespace ChangesOnly

theorem foreign (h : ChangesOnly own s s') : s'.foreign own = s.foreign own := by
  have hof : ∀ {s s' : Surface} {k},
      (∀ l, own l.trace = false → s'.handle? k = some l → s.handle? k = some l) →
      s'.foreign own k = true → s.foreign own k = true := by
    intro s s' k hk hforeign
    unfold Surface.foreign at hforeign ⊢
    cases hl : s'.handle? k with
    | none =>
      rw [hl] at hforeign
      cases hforeign
    | some l =>
      rw [hl] at hforeign
      rw [hk l (by simpa using hforeign) hl]
      exact hforeign
  funext k
  rw [Bool.eq_iff_iff]
  exact ⟨hof fun l hl => (h.handle k l hl).mp, hof fun l hl => (h.handle k l hl).mpr⟩

theorem refl (own : Nat → Bool) (s : Surface) : ChangesOnly own s s :=
  ⟨rfl, rfl, fun _ _ _ => Iff.rfl⟩

theorem trans (h : ChangesOnly own s s') (h' : ChangesOnly own s' s'') :
    ChangesOnly own s s'' where
  figure := h'.figure.trans h.figure
  queue := by
    have hqueue := h'.queue
    rw [h.foreign] at hqueue
    exact hqueue.trans h.queue
  handle k l hl := (h'.handle k l hl).trans (h.handle k l hl)

/-- A change that keeps the figure, the queue and all handles. -/
theorem of_eq (hfigure : s'.figure = s.figure) (hqueue : s'.queue = s.queue)
    (hhandles : s'.handles = s.handles) : ChangesOnly own s s' := by
  refine ⟨by rw [others, hfigure]; rfl, by rw [hqueue], fun k l _ => ?_⟩
  rw [handle?, hhandles]
  rfl

theorem suspend (s : Surface) : ChangesOnly own s s.suspend := of_eq rfl rfl rfl

theorem modify (hk : s.foreign own k = false) {f : Handle → Handle} (hf : Handle.Gentle f) :
    ChangesOnly own s (s.modify k f) := by
  refine ⟨rfl, rfl, fun j l hl => ?_⟩
  rw [handle?_modify]
  split
  · rename_i hkj
    subst hkj
    have hnone : s.handle? k ≠ some l := fun hsome => by
      rw [own_of_not_foreign hk hsome] at hl
      cases hl
    refine iff_of_false (fun hsome => ?_) hnone
    obtain ⟨l₀, hl₀, rfl⟩ := Option.map_eq_some_iff.mp hsome
    rw [(hf l₀).1, own_of_not_foreign hk hl₀] at hl
    cases hl
  · rfl

theorem draw (hk : s.foreign own k = false) : ChangesOnly own s (s.draw k) := by
  obtain ⟨f, hf⟩ := s.draw_frame k
  refine ⟨?_, by rw [hf], fun j l _ => by rw [handle?_draw]⟩
  rw [others_draw]
  split
  · rename_i l hl
    split
    · rfl
    · have hown := own_of_not_foreign hk hl
      refine (List.map_congr_left fun t ht => if_neg fun heq => ?_).trans (List.map_id _)
      have hnot := (List.mem_filter.mp ht).2
      rw [heq, hown] at hnot
      cases hnot
  · rfl

theorem update (hk : s.foreign own k = false) : ChangesOnly own s (s.update k) := by
  unfold Surface.update
  split
  · split
    · exact refl own s
    · split
      · unfold enqueue
        split
        · exact refl own s
        · refine ⟨rfl, ?_, fun _ _ _ => Iff.rfl⟩
          show (s.queue ++ [k]).filter _ = _
          rw [List.filter_append, List.filter_singleton, hk]
          exact List.append_nil _
      · exact draw hk
  · exact refl own s

theorem touch (hk : s.foreign own k = false) (h : Touch k s s') : ChangesOnly own s s' := by
  cases h with
  | modify gentle => exact modify hk gentle
  | update => exact update hk

/-- New traces are owned. -/
theorem addHandle (hnext : own s.nextTrace = true) (mode : String) (shape : Shape) :
    ChangesOnly own s (s.addHandle mode shape).2 := by
  refine ⟨?_, rfl, fun j l hl => ?_⟩
  · show (s.figure ++ [({ id := s.nextTrace, mode } : Trace)]).filter _ = _
    rw [List.filter_append, List.filter_singleton]
    simp only [hnext, Bool.not_true]
    exact List.append_nil _
  · rw [handle?_addHandle]
    split
    · rename_i hj
      refine iff_of_false (fun hsome => ?_) fun hsome => ?_
      · cases hsome
        rw [hnext] at hl
        cases hl
      · exact absurd (handle?_lt hsome) (by rw [hj]; exact Nat.lt_irrefl _)
    · rfl

theorem remove (hk : s.foreign own k = false) : ChangesOnly own s (s.remove k) := by
  obtain ⟨heq, -⟩ | ⟨l, hl, -, heq⟩ := s.remove_cases k
  · rw [heq]
    exact refl own s
  · have hown := own_of_not_foreign hk hl
    rw [heq]
    refine ⟨?_, ?_, fun j l' hl' => ?_⟩
    · -- what is removed is owned, and is left out of what others have anyway
      show (s.figure.filter _).filter _ = _
      rw [List.filter_filter]
      refine List.filter_congr fun t _ => ?_
      cases hid : own t.id with
      | true => rfl
      | false =>
        have hne : t.id ≠ l.trace := fun heq => by
          rw [heq, hown] at hid
          cases hid
        simpa using hne
    · show (s.queue.filter _).filter _ = _
      rw [List.filter_filter]
      refine List.filter_congr fun j _ => ?_
      cases hj : s.foreign own j with
      | false => rfl
      | true =>
        have hne : j ≠ k := fun heq => by
          rw [heq, hk] at hj
          cases hj
        simpa using hne
    · show (s.modify k _).handle? j = some l' ↔ _
      rw [handle?_modify]
      split
      · -- the handle was owned, and is removed now: it is a foreign one on neither side
        rename_i hkj
        subst hkj
        refine iff_of_false (fun hsome => ?_) fun hsome => ?_
        · rw [hl] at hsome
          cases hsome
          exact Bool.noConfusion (hl'.symm.trans hown)
        · rw [hl] at hsome
          cases hsome
          exact Bool.noConfusion (hl'.symm.trans hown)
      · rfl

theorem foldl_remove (ks : List HandleId) (hks : ∀ k ∈ ks, s.foreign own k = false) :
    ChangesOnly own s (ks.foldl Surface.remove s) := by
  induction ks generalizing s with
  | nil => exact refl own s
  | cons k ks ih =>
    have hstep := remove (hks k List.mem_cons_self)
    refine hstep.trans (ih fun j hj => ?_)
    rw [hstep.foreign]
    exact hks j (List.mem_cons_of_mem k hj)

/-! ## Working off the queue -/

/-- Drawing the same handles on both sides. -/
theorem foldl_draw (h : ChangesOnly own s s') (ks : List HandleId)
    (hks : ∀ k ∈ ks, s.foreign own k = true) :
    ChangesOnly own (ks.foldl Surface.draw s) (ks.foldl Surface.draw s') := by
  induction ks generalizing s s' with
  | nil => exact h
  | cons k ks ih =>
    have hsame : (s.draw k).foreign own = s.foreign own := by
      funext j
      rw [Surface.foreign, Surface.foreign, handle?_draw]
    obtain ⟨f, hf⟩ := s.draw_frame k
    obtain ⟨f', hf'⟩ := s'.draw_frame k
    -- both sides have the same handle to draw
    have hhandle : s'.handle? k = s.handle? k := by
      have hforeign := hks k List.mem_cons_self
      cases hl : s.handle? k with
      | none =>
        rw [Surface.foreign, hl] at hforeign
        cases hforeign
      | some l =>
        rw [Surface.foreign, hl] at hforeign
        exact (h.handle k l (by simpa using hforeign)).mpr hl
    refine ih ⟨?_, ?_, fun j l hl => ?_⟩ fun j hj => ?_
    · rw [others_draw, others_draw, hhandle, h.figure]
    · rw [hsame, hf', hf]
      exact h.queue
    · rw [handle?_draw, handle?_draw]
      exact h.handle j l hl
    · rw [hsame]
      exact hks j (List.mem_cons_of_mem k hj)

/-- Of all handles that are drawn, those with traces of others are the ones that matter to these. -/
theorem foldl_draw_filter (own : Nat → Bool) (s : Surface) (ks : List HandleId) :
    ChangesOnly own ((ks.filter (s.foreign own)).foldl Surface.draw s) (ks.foldl Surface.draw s) := by
  induction ks generalizing s with
  | nil => exact refl own s
  | cons k ks ih =>
    have hsame : (s.draw k).foreign own = s.foreign own := by
      funext j
      rw [Surface.foreign, Surface.foreign, handle?_draw]
    have hrest := ih (s.draw k)
    rw [hsame] at hrest
    cases hk : s.foreign own k with
    | true =>
      rw [List.filter_cons_of_pos hk]
      exact hrest
    | false =>
      rw [List.filter_cons_of_neg (by rw [hk]; exact Bool.false_ne_true)]
      exact ((draw hk).foldl_draw _ fun j hj => (List.mem_filter.mp hj).2).trans hrest

theorem flush (h : ChangesOnly own s s') : s'.flush.others own = s.flush.others own := by
  have hqueue : s'.queue.filter (s'.foreign own) = s.queue.filter (s.foreign own) := by
    rw [h.foreign]
    exact h.queue
  have hdrawn := h.foldl_draw (s.queue.filter (s.foreign own)) fun k hk => (List.mem_filter.mp hk).2
  have hleft := foldl_draw_filter own s s.queue
  have hright := foldl_draw_filter own s' s'.queue
  rw [hqueue] at hright
  exact ((hright.figure.trans hdrawn.figure).trans hleft.figure.symm :)

/-- What others show is the same once all suspensions have ended. -/
theorem settle (h : ChangesOnly own s s') (hidle : s.depth = 0 → s.queue = [])
    (hidle' : s'.depth = 0 → s'.queue = []) : s'.settle.others own = s.settle.others own := by
  have hrunning : ChangesOnly own { s with depth := 0 } { s' with depth := 0 } :=
    ⟨h.figure, h.queue, h.handle⟩
  rw [settle_eq hidle, settle_eq hidle']
  exact hrunning.flush

end ChangesOnly

end Surface

end Graphing
