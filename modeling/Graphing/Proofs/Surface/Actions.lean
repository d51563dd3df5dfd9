/-
  Graphing.Proofs.Surface.Actions

  What each action does to two runs of a script, and to a surface on which
  updates are suspended.

  An action does the same on surfaces that differ only in what they show, and
  it keeps two runs `Batched`, whatever suspensions are open in either.  While
  updates are suspended, an action makes and removes traces, but it leaves the
  others as they are (`Still`).
-/
import Graphing.Proofs.Surface.TwoRuns

namespace Graphing

namespace Surface

variable {s t : Surface} {n : HandleId} {pushed stale : HandleId → Prop}

theorem Same.refl (s : Surface) : Same s s := ⟨s.figure, s.queue, s.depth, rfl⟩

theorem modify_id (s : Surface) (n : HandleId) : s.modify n id = s := by
  have : s.handles.modify n id = s.handles := by
    apply Array.ext_getElem?
    intro i
    rw [Array.getElem?_modify]
    split
    · exact Option.map_id'
    · rfl
  rw [modify, this]

/-- Sampling a curve anew changes it and pushes it, or fails at once, or fails half way. Which of
these happens does not depend on what is shown. -/
theorem updateCurve_cases (s : Surface) (n : HandleId) :
    ∃ f, (Handle.Gentle f ∧ Handle.KeepsVisible f) ∧ ((∀ t, Same s t →
        t.updateCurve n = (.ok (), (t.modify n f).update n) ∧ t.splits n = false) ∨
      (∀ t, Same s t → t.updateCurve n = (.error .source, t) ∧ t.splits n = false) ∨
      ∀ t, Same s t → t.updateCurve n = (.error .source, t.modify n f) ∧ t.splits n = true) := by
  have hsame : ∀ t, Same s t → t.handle? n = s.handle? n ∧ t.pixelSamples = s.pixelSamples := by
    rintro t ⟨f, q, d, rfl⟩
    exact ⟨rfl, rfl⟩
  cases hsource : ((s.handle? n).bind (·.curve?)).bind (·.source) with
  -- there is no source, and so nothing is sampled
  | none =>
    refine ⟨id, ⟨fun _ => ⟨rfl, rfl, .refl _⟩, fun _ => rfl⟩, .inl fun t ht => ?_⟩
    obtain ⟨hhandle, -⟩ := hsame t ht
    simp only [updateCurve, splits, hhandle, hsource, modify_id, Option.any_none, and_self]
  | some source =>
    cases hx : source.xOf (s.pixelSamples source.axis) with
    -- the first coordinates cannot be sampled: nothing is set
    | none =>
      refine ⟨id, ⟨fun _ => ⟨rfl, rfl, .refl _⟩, fun _ => rfl⟩, .inr (.inl fun t ht => ?_)⟩
      obtain ⟨hhandle, hsamples⟩ := hsame t ht
      simp [updateCurve, splits, hhandle, hsource, hsamples, hx]
    | some xs =>
      cases hy : source.yOf (s.pixelSamples source.axis) with
      -- only the second ones cannot: the first ones are set already
      | none =>
        refine ⟨_, ⟨.mapCurve fun c => { c with xs }, .mapCurve _⟩, .inr (.inr fun t ht => ?_)⟩
        obtain ⟨hhandle, hsamples⟩ := hsame t ht
        simp [updateCurve, splits, hhandle, hsource, hsamples, hx, hy]
      | some ys =>
        refine ⟨Handle.mapCurve (fun c => { c with ys }) ∘ Handle.mapCurve fun c => { c with xs },
          ⟨fun k => ?_, fun k => ?_⟩, .inl fun t ht => ?_⟩
        · obtain ⟨htrace, hremoved, hkind⟩ := Handle.Gentle.mapCurve (fun c => { c with xs }) k
          obtain ⟨htrace', hremoved', hkind'⟩ :=
            Handle.Gentle.mapCurve (fun c => { c with ys }) (Handle.mapCurve (fun c => { c with xs }) k)
          exact ⟨htrace'.trans htrace, hremoved'.trans hremoved, hkind.trans hkind'⟩
        · exact (Handle.KeepsVisible.mapCurve _ _).trans (Handle.KeepsVisible.mapCurve _ k)
        · obtain ⟨hhandle, hsamples⟩ := hsame t ht
          simp [updateCurve, splits, hhandle, hsource, hsamples, hx, hy, modify_modify]

theorem setBounds_of_isProper {d : Contour.Domain Float} (h : d.isProper = true) :
    (s.setBounds d).2 =
      (Surface.resample (s.rebounded d).lazyCurves (s.rebounded d)).2.resume := by
  rw [Surface.setBounds, h]
  rfl

/-- A curve is made, or only its trace. -/
theorem createCurve_cases (r : Readout CurveSettings) :
    (∃ shape : Shape, shape.mode = "lines" ∧ ∀ s : Surface,
        s.createCurve r = (.ok s.handles.size, (s.addHandle "lines" shape).2)) ∨
      ∃ e, ∀ s : Surface, s.createCurve r = (.error e, (s.addTrace "lines").2) := by
  cases hfault : r.fault with
  | none =>
    refine .inl ⟨.curve (({} : Curve).configure r.settings), rfl, fun s => ?_⟩
    rw [createCurve, hfault]
    rfl
  | some e =>
    refine .inr ⟨.setting e, fun s => ?_⟩
    rw [createCurve, hfault]

/-- A point is made and shown, or only its trace is made. -/
theorem createMarker_cases (coords : List Float) (r : Readout MarkerSettings) :
    (∃ shape : Shape, shape.mode = "markers" ∧ ∀ s : Surface, s.createMarker coords r =
        (.ok s.handles.size, (s.addHandle "markers" shape).2.unhide s.handles.size)) ∨
      ∃ e, ∀ s : Surface, s.createMarker coords r = (.error e, (s.addTrace "markers").2) := by
  cases hcoords : pair? coords with
  | error e => exact .inr ⟨e, fun s => by rw [createMarker, hcoords]⟩
  | ok p =>
    cases hfault : r.fault with
    | none =>
      refine .inl ⟨.marker (({ coords := p } : Marker).configure r.settings), rfl, fun s => ?_⟩
      rw [createMarker, hcoords, hfault]
      rfl
    | some e =>
      refine .inr ⟨.setting e, fun s => ?_⟩
      rw [createMarker, hcoords, hfault]

/-- A segment is made and shown, or only its trace is made. -/
theorem createSegment_cases (start finish : List Float) (r : Readout SegmentSettings) :
    (∃ shape : Shape, shape.mode = "lines" ∧ ∀ s : Surface, s.createSegment start finish r =
        (.ok s.handles.size, (s.addHandle "lines" shape).2.unhide s.handles.size)) ∨
      ∃ e, ∀ s : Surface, s.createSegment start finish r = (.error e, (s.addTrace "lines").2) := by
  cases hstart : firstTwo? start with
  | error e => exact .inr ⟨e, fun s => by rw [createSegment, hstart]⟩
  | ok p =>
    cases hfinish : firstTwo? finish with
    | error e => exact .inr ⟨e, fun s => by rw [createSegment, hstart, hfinish]⟩
    | ok q =>
      cases hfault : r.fault with
      | none =>
        refine .inl ⟨.segment (({ start := p, finish := q } : Segment).configure r.settings), rfl,
          fun s => ?_⟩
        rw [createSegment, hstart, hfinish, hfault]
        rfl
      | some e =>
        refine .inr ⟨.setting e, fun s => ?_⟩
        rw [createSegment, hstart, hfinish, hfault]

namespace Batched

theorem updateCurve (h : Batched pushed stale s t) (n : HandleId) :
    Batched (fun m => pushed m ∨ (Action.updateCurve n).Pushes s m)
      (fun m => (Action.updateCurve n).Sets s m ∨ stale m ∧ ¬(Action.updateCurve n).Pushes s m)
      (s.updateCurve n).2 (t.updateCurve n).2 := by
  have hsize : ∀ f, (s.modify n f).handles.size = s.handles.size := fun f => Array.size_modify
  obtain ⟨f, ⟨hf, -⟩, hok | hfails | hsplits⟩ := s.updateCurve_cases n
  · obtain ⟨hs, hwhole⟩ := hok s (.refl s)
    rw [hs, (hok t h.same).1]
    refine ((h.modify n hf).update n).imp (fun m => ?_) fun m hm hset => ?_
    · simp only [Action.Pushes, hs, hsize, and_true]
      grind
    · have hlt : m < s.handles.size := hm.elim (h.left.pushed_lt m) fun hself => hsize f ▸ hself.2
      simp only [Action.Pushes, hs, hsize, and_true] at hset ⊢
      grind
  · obtain ⟨hs, hwhole⟩ := hfails s (.refl s)
    rw [hs, (hfails t h.same).1]
    refine h.imp (fun m => ?_) fun m _ hm => .inr ⟨hm, ?_⟩
    · simp [Action.Pushes, hs]
    · simp [Action.Pushes, hs]
  · obtain ⟨hs, hhalf⟩ := hsplits s (.refl s)
    rw [hs, (hsplits t h.same).1]
    refine (h.modify n hf).imp (fun m => ?_) fun m _ hm => ?_
    · simp [Action.Pushes, hs]
    · simp only [Action.Pushes, Action.Sets, hs, hhalf]
      grind

/-- Curves that are sampled anew one after another. -/
theorem resample (h : Batched pushed stale s t) (ns : List HandleId)
    (hns : ∀ n ∈ ns, n < s.handles.size) :
    Batched (fun m => pushed m ∨ m ∈ resampled ns s)
      (fun m => halfSampled? ns s = some m ∨ stale m ∧ m ∉ resampled ns s)
      (Surface.resample ns s).2 (Surface.resample ns t).2 := by
  induction ns generalizing s t pushed stale with
  | nil =>
    refine h.imp (fun m => ?_) fun m _ hm => .inr ⟨hm, ?_⟩
    · simp [resampled]
    · simp [resampled]
  | cons n ns ih =>
    have hstep := h.updateCurve n
    have hn : n < s.handles.size := hns n List.mem_cons_self
    obtain ⟨f, ⟨hf, -⟩, hok | hfails | hsplits⟩ := s.updateCurve_cases n
    · -- the curve is sampled in both runs, and the rest of the list follows
      obtain ⟨hs, hwhole⟩ := hok s (.refl s)
      obtain ⟨ht, -⟩ := hok t h.same
      have hsize : ((s.modify n f).update n).handles.size = s.handles.size := by
        rw [handles_update]
        exact Array.size_modify
      rw [hs, ht] at hstep
      have hrest := ih hstep fun m hm => by
        rw [hsize]
        exact hns m (List.mem_cons_of_mem _ hm)
      simp only [Surface.resample, resampled, halfSampled?, hs, ht]
      refine hrest.imp (fun m => ?_) fun m _ hm => ?_
      · simp only [Action.Pushes, hs, and_true, List.mem_cons]
        grind
      · simp only [Action.Pushes, Action.Sets, hs, hwhole, and_true, List.mem_cons] at hm ⊢
        grind
    · -- both runs end here, with nothing set
      obtain ⟨hs, hwhole⟩ := hfails s (.refl s)
      obtain ⟨ht, -⟩ := hfails t h.same
      simp only [Surface.resample, resampled, halfSampled?, hs, ht, hwhole]
      refine h.imp (fun m => ?_) fun m _ hm => .inr ⟨hm, ?_⟩
      · simp
      · simp
    · -- both runs end here, with one of the coordinates set
      obtain ⟨hs, hhalf⟩ := hsplits s (.refl s)
      obtain ⟨ht, -⟩ := hsplits t h.same
      simp only [Surface.resample, resampled, halfSampled?, hs, ht, hhalf, if_true]
      refine (h.modify n hf).imp (fun m => ?_) fun m _ hm => ?_
      · simp
      · simp only [Option.some.injEq, List.not_mem_nil, not_false_eq_true, and_true]
        exact hm.symm.imp_left Eq.symm

theorem setVisible (h : Batched pushed stale s t) (n : HandleId) (visible : Bool) :
    Batched (fun m => pushed m ∨ n = m ∧ n < s.handles.size)
      (fun m => stale m ∧ ¬(n = m ∧ n < s.handles.size))
      (s.setVisible n visible) (t.setVisible n visible) := by
  have hsize : ∀ f, (s.modify n f).handles.size = s.handles.size := fun f => Array.size_modify
  refine ((h.modify n (.visible visible)).update n).imp (fun m => ?_) fun m hm hset => ?_
  · simp only [hsize]
    grind
  · have hlt : m < s.handles.size := hm.elim (h.left.pushed_lt m) fun hself => hsize _ ▸ hself.2
    simp only [hsize] at hset
    grind

/-- A new handle that is shown at once. -/
theorem create (h : Batched pushed stale s t) {mode : String} {shape : Shape}
    (hmode : mode = shape.mode) :
    Batched (fun m => pushed m ∨ m = s.handles.size) (fun m => stale m ∧ m ≠ s.handles.size)
      ((s.addHandle mode shape).2.unhide s.handles.size)
      ((t.addHandle mode shape).2.unhide s.handles.size) := by
  have hsize : (s.addHandle mode shape).2.handles.size = s.handles.size + 1 := Array.size_push _
  refine ((h.addHandle hmode).setVisible s.handles.size true).imp (fun m => ?_) fun m _ hset => ?_
  · simp only [hsize]
    grind
  · simp only [hsize] at hset
    grind

/-- Bounds change within a suspension of their own. -/
theorem setBounds (h : Batched pushed stale s t) (d : Contour.Domain Float) :
    Batched (fun m => pushed m ∨ (Action.setBounds d).Pushes s m)
      (fun m => (Action.setBounds d).Sets s m ∨ stale m ∧ ¬(Action.setBounds d).Pushes s m)
      (s.setBounds d).2 (t.setBounds d).2 := by
  cases hproper : d.isProper with
  | false =>
    rw [setBounds_of_not_isProper hproper, setBounds_of_not_isProper hproper]
    refine h.imp (fun m => ?_) fun m _ hset => .inr ⟨hset, ?_⟩
    · simp [Action.Pushes, hproper]
    · simp [Action.Pushes, hproper]
  | true =>
    have hstart : Batched pushed stale (s.rebounded d) (t.rebounded d) := h.suspend.rebound d
    have hlazy : (t.rebounded d).lazyCurves = (s.rebounded d).lazyCurves := by
      obtain ⟨f, q, e, rfl⟩ := h.same
      rfl
    have hrun := hstart.resample (s.rebounded d).lazyCurves fun n hn =>
      hstart.left.live_lt n (List.mem_filter.mp hn).1
    rw [setBounds_of_isProper hproper, setBounds_of_isProper hproper, hlazy]
    refine hrun.resume.imp (fun m => ?_) fun m _ hset => ?_
    · simp [Action.Pushes, hproper]
    · simpa [Action.Pushes, Action.Sets, hproper] using hset

/-- Runs of an action that pushes nothing, and sets what they tell. -/
theorem of_quiet {s' t' : Surface} {stale' : HandleId → Prop} {a : Action}
    (hpushes : ∀ m, ¬a.Pushes s m) (hsets : ∀ m, stale' m → a.Sets s m ∨ stale m)
    (h : Batched pushed stale' s' t') :
    Batched (fun m => pushed m ∨ a.Pushes s m)
      (fun m => a.Sets s m ∨ stale m ∧ ¬a.Pushes s m) s' t' := by
  refine h.imp (fun m => or_iff_left (hpushes m)) fun m _ hm => ?_
  exact (hsets m hm).imp_right fun hstale => ⟨hstale, hpushes m⟩

/-- A handle is made and shown, or only its trace is made. -/
theorem making (h : Batched pushed stale s t) {a : Action} {mode : String}
    {make : Surface → Except SurfaceFault HandleId × Surface}
    (hpushes : ∀ m, a.Pushes s m ↔ (make s).1 = .ok m)
    (hcases : (∃ shape : Shape, shape.mode = mode ∧ ∀ s : Surface, make s =
        (.ok s.handles.size, (s.addHandle mode shape).2.unhide s.handles.size)) ∨
      ∃ e, ∀ s : Surface, make s = (.error e, (s.addTrace mode).2)) :
    Batched (fun m => pushed m ∨ a.Pushes s m)
      (fun m => a.Sets s m ∨ stale m ∧ ¬a.Pushes s m) (make s).2 (make t).2 := by
  have hhandles : t.handles = s.handles := by
    obtain ⟨f, q, d, rfl⟩ := h.same
    rfl
  rcases hcases with ⟨shape, hmode, hmake⟩ | ⟨e, hmake⟩
  · have hpush : ∀ m, a.Pushes s m ↔ m = s.handles.size := fun m => by
      rw [hpushes, hmake, Except.ok.injEq, eq_comm]
    rw [hmake, hmake, hhandles]
    refine (h.create hmode.symm).imp (fun m => or_congr_right (hpush m)) fun m _ hm => .inr ?_
    exact ⟨hm.1, fun hself => hm.2 ((hpush m).mp hself)⟩
  · have hpush : ∀ m, ¬a.Pushes s m := fun m => by
      rw [hpushes, hmake]
      exact fun heq => nomatch heq
    rw [hmake, hmake]
    exact of_quiet hpush (fun m => .inr) (h.addTrace mode)

/-- An action keeps two runs together. -/
theorem run (h : Batched pushed stale s t) (a : Action) :
    Batched (fun m => pushed m ∨ a.Pushes s m)
      (fun m => a.Sets s m ∨ stale m ∧ ¬a.Pushes s m) (a.run s) (a.run t) := by
  cases a with
  | createCurve r =>
    refine of_quiet (fun m => id) (fun m => .inr) ?_
    show Batched pushed stale (s.createCurve r).2 (t.createCurve r).2
    obtain ⟨shape, hmode, hr⟩ | ⟨e, hr⟩ := createCurve_cases r
    · rw [hr, hr]
      exact h.addHandle hmode.symm
    · rw [hr, hr]
      exact h.addTrace "lines"
  | createMarker coords r => exact h.making (fun m => Iff.rfl) (createMarker_cases coords r)
  | createSegment start finish r =>
    exact h.making (fun m => Iff.rfl) (createSegment_cases start finish r)
  | set n f =>
    refine of_quiet (fun m => id) (fun m hm => ?_) (h.modify n (.setter f))
    exact hm.symm.imp_left Eq.symm
  | update n =>
    refine (h.update n).imp (fun m => ?_) fun m _ hm => .inr ?_
    · simp only [Action.Pushes]
      grind
    · simp only [Action.Pushes]
      grind
  | unhide n => exact (h.setVisible n true).imp (fun m => Iff.rfl) fun m _ => .inr
  | hide n => exact (h.setVisible n false).imp (fun m => Iff.rfl) fun m _ => .inr
  | updateCurve n => exact h.updateCurve n
  | remove n => exact of_quiet (fun m => id) (fun m => .inr) (h.remove n)
  | setBounds d => exact h.setBounds d

end Batched

/-! ## Suspended surfaces -/

theorem depth_suspend (s : Surface) : s.suspend.depth = s.depth + 1 := rfl

theorem depth_resume (s : Surface) : s.resume.depth = s.depth - 1 := by
  unfold resume
  dsimp only
  split
  · rw [depth_flush]
  · rfl

theorem depth_run (s : Surface) (a : Action) : (a.run s).depth = s.depth := by
  have hunhide : ∀ (s : Surface) n, (s.unhide n).depth = s.depth := fun s n => depth_update _ n
  cases a with
  | createCurve r =>
    show (s.createCurve r).2.depth = s.depth
    obtain ⟨shape, hmode, hr⟩ | ⟨e, hr⟩ := createCurve_cases r <;> rw [hr] <;> rfl
  | createMarker coords r =>
    show (s.createMarker coords r).2.depth = s.depth
    obtain ⟨shape, hmode, hr⟩ | ⟨e, hr⟩ := createMarker_cases coords r
    · rw [hr, hunhide]
      rfl
    · rw [hr]
      rfl
  | createSegment start finish r =>
    show (s.createSegment start finish r).2.depth = s.depth
    obtain ⟨shape, hmode, hr⟩ | ⟨e, hr⟩ := createSegment_cases start finish r
    · rw [hr, hunhide]
      rfl
    · rw [hr]
      rfl
  | set n f => rfl
  | update n => exact s.depth_update n
  | unhide n => exact hunhide s n
  | hide n => exact s.depth_hide n
  | updateCurve n => exact (Alike.updateCurve s n).depth
  | remove n => exact s.depth_remove n
  | setBounds d =>
    show (s.setBounds d).2.depth = s.depth
    cases hproper : d.isProper with
    | false => rw [setBounds_of_not_isProper hproper]
    | true =>
      -- the suspension and the end of it cancel out
      rw [setBounds_of_isProper hproper, depth_resume, (Alike.resample _ _).depth]
      rfl

/-- Traces came and went, and the others stayed as they were. -/
structure Still (s s' : Surface) : Prop where
  next : s.nextTrace ≤ s'.nextTrace
  old : ∀ t ∈ s'.figure, t.id < s.nextTrace → t ∈ s.figure

namespace Still

theorem refl (s : Surface) : Still s s := ⟨Nat.le_refl _, fun _ ht _ => ht⟩

theorem trans {s' s'' : Surface} (h : Still s s') (h' : Still s' s'') : Still s s'' where
  next := Nat.le_trans h.next h'.next
  old t ht hid := h.old t (h'.old t ht (Nat.lt_of_lt_of_le hid h.next)) hid

theorem of_eq {s' : Surface} (hfigure : s'.figure = s.figure) (hnext : s'.nextTrace = s.nextTrace) :
    Still s s' :=
  ⟨Nat.le_of_eq hnext.symm, fun _ ht _ => hfigure ▸ ht⟩

theorem modify (s : Surface) (n : HandleId) (f : Handle → Handle) : Still s (s.modify n f) :=
  of_eq rfl rfl

theorem update (hs : s.depth ≠ 0) (n : HandleId) : Still s (s.update n) := by
  cases hk : s.handle? n with
  | none =>
    rw [Surface.update, hk]
    exact refl s
  | some k =>
    cases hlive : k.removed with
    | true =>
      have heq : s.update n = s := by
        rw [Surface.update, hk]
        simp [hlive]
      rw [heq]
      exact refl s
    | false =>
      rw [update_of_suspended hs hk hlive]
      obtain ⟨q, hq⟩ := s.enqueue_frame n
      rw [hq]
      exact of_eq rfl rfl

theorem setVisible (hs : s.depth ≠ 0) (n : HandleId) (visible : Bool) :
    Still s (s.setVisible n visible) :=
  (modify s n _).trans (update (s := s.modify n _) hs n)

theorem addTrace (s : Surface) (mode : String) : Still s (s.addTrace mode).2 := by
  refine ⟨Nat.le_succ _, fun t ht hid => ?_⟩
  refine (List.mem_append.mp ht).resolve_right fun hnew => ?_
  rw [List.mem_singleton.mp hnew] at hid
  exact Nat.lt_irrefl _ hid

theorem addHandle (s : Surface) (mode : String) (shape : Shape) :
    Still s (s.addHandle mode shape).2 :=
  (addTrace s mode).trans (of_eq rfl rfl)

theorem remove (s : Surface) (n : HandleId) : Still s (s.remove n) := by
  obtain ⟨heq, -⟩ | ⟨k, -, -, heq⟩ := s.remove_cases n
  · rw [heq]
    exact refl s
  · rw [heq]
    exact ⟨Nat.le_refl _, fun t ht _ => (List.mem_filter.mp ht).1⟩

theorem updateCurve (hs : s.depth ≠ 0) (n : HandleId) : Still s (s.updateCurve n).2 := by
  obtain ⟨f, -, hok | hfails | hsplits⟩ := s.updateCurve_cases n
  · rw [(hok s (.refl s)).1]
    exact (modify s n f).trans (update (s := s.modify n f) hs n)
  · rw [(hfails s (.refl s)).1]
    exact refl s
  · rw [(hsplits s (.refl s)).1]
    exact modify s n f

theorem resample (hs : s.depth ≠ 0) (ns : List HandleId) : Still s (Surface.resample ns s).2 := by
  have hstep : ∀ t n, Still s t ∧ t.depth ≠ 0 →
      Still s (t.updateCurve n).2 ∧ (t.updateCurve n).2.depth ≠ 0 := by
    rintro t n ⟨hstill, ht⟩
    exact ⟨hstill.trans (updateCurve ht n), by rwa [(Alike.updateCurve t n).depth]⟩
  exact (resample_keeps hstep ns ⟨refl s, hs⟩).1

/-- The end of a suspension within another. -/
theorem resume (hs : s.resume.depth ≠ 0) : Still s s.resume := by
  rw [depth_resume] at hs
  unfold Surface.resume
  dsimp only
  rw [if_neg hs]
  exact of_eq rfl rfl

theorem setBounds (hs : s.depth ≠ 0) (d : Contour.Domain Float) : Still s (s.setBounds d).2 := by
  cases hproper : d.isProper with
  | false =>
    rw [setBounds_of_not_isProper hproper]
    exact refl s
  | true =>
    have hdepth := s.depth_run (.setBounds d)
    have hstart : Still s (s.rebounded d) := of_eq rfl rfl
    unfold Action.run at hdepth
    dsimp only at hdepth
    rw [setBounds_of_isProper hproper] at hdepth ⊢
    refine (hstart.trans (resample (s := s.rebounded d) (Nat.succ_ne_zero _) _)).trans (resume ?_)
    rwa [hdepth]

/-- While updates are suspended, an action changes no trace that is there. -/
theorem run (hs : s.depth ≠ 0) (a : Action) : Still s (a.run s) := by
  have hmakes : ∀ (mode : String) (shape : Shape),
      Still s ((s.addHandle mode shape).2.unhide s.handles.size) := fun mode shape =>
    (addHandle s mode shape).trans (setVisible (s := (s.addHandle mode shape).2) hs _ true)
  cases a with
  | createCurve r =>
    show Still s (s.createCurve r).2
    obtain ⟨shape, -, hr⟩ | ⟨e, hr⟩ := createCurve_cases r
    · rw [hr]
      exact addHandle s "lines" shape
    · rw [hr]
      exact addTrace s "lines"
  | createMarker coords r =>
    show Still s (s.createMarker coords r).2
    obtain ⟨shape, -, hr⟩ | ⟨e, hr⟩ := createMarker_cases coords r
    · rw [hr]
      exact hmakes "markers" shape
    · rw [hr]
      exact addTrace s "markers"
  | createSegment start finish r =>
    show Still s (s.createSegment start finish r).2
    obtain ⟨shape, -, hr⟩ | ⟨e, hr⟩ := createSegment_cases start finish r
    · rw [hr]
      exact hmakes "lines" shape
    · rw [hr]
      exact addTrace s "lines"
  | set n f => exact modify s n f.apply
  | update n => exact update hs n
  | unhide n => exact setVisible hs n true
  | hide n => exact setVisible hs n false
  | updateCurve n => exact updateCurve hs n
  | remove n => exact remove s n
  | setBounds d => exact setBounds hs d

/-- So does the begin of a suspension, and its end within another. -/
theorem event {e : Event} (hs : s.depth ≠ 0) (hs' : (e.run s).depth ≠ 0) : Still s (e.run s) := by
  cases e with
  | act a => exact run hs a
  | suspend => exact of_eq rfl rfl
  | resume => exact resume hs'

end Still

end Surface
end Graphing
