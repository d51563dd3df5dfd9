/-
  Graphing.Proofs.Surface.NewBounds

  What a change of the bounds does to a surface.

  Bounds that are no rectangle change nothing.  Other bounds are taken, and all
  lazy curves that are live are sampled at the pixels within them, whether they
  are visible or not; nothing else changes (`Panned`).  Then the curves are
  shown in turn, unless updates are suspended.  The figure can refuse one of
  them: the change of the bounds fails, and the curves after that one are not
  shown.  This holds for any surface that was built of handles, whatever was
  done to these: `Built` also counts what no action does, such as a handle that
  is made visible and not shown, or bounds that change by themselves.
-/
import Graphing.Proofs.Surface.Growth
import Graphing.Proofs.Surface.Reached
import Graphing.Proofs.Surface.Refusal

namespace Graphing

/-! ## Points at samples -/

/-- A lazy curve with the points that its source gives at samples along its axis. -/
def Curve.sampledAt (samples : Axis → List Float) (c : Curve) : Curve :=
  match c.source with
  | none => c
  | some source =>
    { c with
      xs := (source.xOf (samples source.axis)).getD c.xs
      ys := (source.yOf (samples source.axis)).getD c.ys }

theorem Curve.source_sampledAt (samples : Axis → List Float) (c : Curve) :
    (c.sampledAt samples).source = c.source := by
  unfold sampledAt
  split <;> rfl

theorem Curve.sampledAt_eq {c : Curve} {source : LazySource} {samples : Axis → List Float}
    {xs ys : List Float} (hsource : c.source = some source)
    (hxs : source.xOf (samples source.axis) = some xs)
    (hys : source.yOf (samples source.axis) = some ys) :
    c.sampledAt samples = { c with xs, ys } := by
  rw [sampledAt, hsource]
  dsimp only
  rw [hxs, hys, Option.getD_some, Option.getD_some]

theorem Curve.sampledAt_sampledAt (samples : Axis → List Float) (c : Curve) :
    (c.sampledAt samples).sampledAt samples = c.sampledAt samples := by
  cases hsource : c.source with
  | none => simp only [sampledAt, hsource]
  | some source =>
    simp only [sampledAt, hsource]
    cases source.xOf (samples source.axis) <;> cases source.yOf (samples source.axis) <;> rfl

theorem Handle.mapCurve_mapCurve (f g : Curve → Curve) (k : Handle) :
    (k.mapCurve f).mapCurve g = k.mapCurve (g ∘ f) := by
  obtain ⟨trace, shape, visible, removed⟩ := k
  cases shape <;> rfl

namespace Surface

variable {s s' : Surface} {m n : HandleId} {source : LazySource} {d : Contour.Domain Float}

/-- Where a handle gets its points from, if it is a lazy curve. -/
def source? (s : Surface) (n : HandleId) : Option LazySource :=
  ((s.handle? n).bind (·.curve?)).bind (·.source)

/-- A handle that was not removed is a lazy curve with a source. -/
def LazyCurve (s : Surface) (n : HandleId) (source : LazySource) : Prop :=
  s.Live n ∧ s.source? n = some source

/-- Both coordinates of a source can be had at the pixels of a surface. -/
def Yields (s : Surface) (source : LazySource) : Prop :=
  ∃ xs ys, source.xOf (s.pixelSamples source.axis) = some xs ∧
    source.yOf (s.pixelSamples source.axis) = some ys

theorem exists_curve_of_source? (h : s.source? n = some source) :
    ∃ k c, s.handle? n = some k ∧ k.shape = .curve c ∧ c.source = some source := by
  obtain ⟨c, hc, hsource⟩ := Option.bind_eq_some_iff.mp h
  obtain ⟨k, hk, hcurve⟩ := Option.bind_eq_some_iff.mp hc
  refine ⟨k, c, hk, ?_, hsource⟩
  unfold Handle.curve? at hcurve
  split at hcurve
  · rename_i hshape
    rw [hshape, Option.some.inj hcurve]
  · cases hcurve

/-! ## One curve -/

/-- A lazy curve is sampled at the pixels of the surface, and pushed. -/
theorem updateCurve_of_yields (hsource : s.source? n = some source) (h : s.Yields source) :
    s.updateCurve n =
      (.ok (), (s.modify n (Handle.mapCurve (Curve.sampledAt s.pixelSamples))).update n) := by
  obtain ⟨xs, ys, hxs, hys⟩ := h
  obtain ⟨k, c, hk, hshape, hc⟩ := exists_curve_of_source? hsource
  rw [updateCurve_of_source hk hshape hc hxs hys, modify_modify]
  refine congrArg (fun t : Surface => (Except.ok (), t.update n)) (modify_congr fun l hl => ?_)
  obtain rfl := Option.some.inj (hk.symm.trans hl)
  simp only [Function.comp, Handle.mapCurve, hshape, Curve.sampledAt_eq hc hxs hys]

/-- Sampling a curve leaves all handles what they are, and their sources. -/
theorem lazyCurve_modify_sampledAt (s : Surface) (n m : HandleId) (samples : Axis → List Float)
    (h : s.LazyCurve m source) :
    (s.modify n (Handle.mapCurve (Curve.sampledAt samples))).LazyCurve m source := by
  obtain ⟨⟨k, hk, hlive⟩, hsource⟩ := h
  rw [LazyCurve, Live, source?, handle?_modify]
  split
  · refine ⟨⟨_, congrArg (Option.map _) hk, (Handle.Gentle.mapCurve _ k).2.1.trans hlive⟩, ?_⟩
    rw [source?, hk] at hsource
    rw [hk]
    obtain ⟨trace, shape, visible, removed⟩ := k
    cases shape with
    | curve c => exact (c.source_sampledAt samples).trans hsource
    | marker | segment => exact hsource
  · exact ⟨⟨k, hk, hlive⟩, hsource⟩

/-- While updates are suspended, a lazy curve that is sampled waits to be shown. -/
theorem updateCurve_of_suspended (hdepth : s.depth ≠ 0) (h : s.LazyCurve n source)
    (hyields : s.Yields source) :
    ∃ q, s.updateCurve n = (.ok (), { s.modify n (Handle.mapCurve (Curve.sampledAt s.pixelSamples))
        with queue := q }) ∧ (∀ m, m ∈ q ↔ m ∈ s.queue ∨ m = n) ∧
      (n ∉ s.queue → q = s.queue ++ [n]) := by
  let s₁ := s.modify n (Handle.mapCurve (Curve.sampledAt s.pixelSamples))
  obtain ⟨⟨k, hk, hlive⟩, -⟩ := s.lazyCurve_modify_sampledAt n n s.pixelSamples h
  obtain ⟨q, hq⟩ := s₁.enqueue_frame n
  have hupdate : s₁.update n = { s₁ with queue := q } := by
    rw [update_of_suspended (s := s₁) hdepth hk hlive, hq]
  refine ⟨q, ?_, fun m => ?_, fun hn => ?_⟩
  · rw [updateCurve_of_yields h.2 hyields]
    exact congrArg (Prod.mk _) hupdate
  · have hmem := mem_queue_enqueue (s := s₁) (m := m) (n := n)
    rwa [hq] at hmem
  · have hnew : s₁.queue.contains n = false := eq_false_of_ne_true fun hmem =>
      hn (List.contains_iff_mem.mp hmem)
    rw [enqueue, if_neg (by rw [hnew]; exact Bool.false_ne_true)] at hq
    exact (congrArg Surface.queue hq).symm

/-! ## All curves -/

/-- Lazy curves that are sampled one after another on a suspended surface: each of them gets its
points and waits to be shown. -/
theorem resample_of_yields (hdepth : s.depth ≠ 0) (ns : List HandleId)
    (hns : ∀ n ∈ ns, ∃ source, s.LazyCurve n source ∧ s.Yields source) :
    ∃ a q, Surface.resample ns s = (.ok (), { s with handles := a, queue := q }) ∧
      (∀ m : HandleId, a[m]? = if m ∈ ns
        then (s.handle? m).map (Handle.mapCurve (Curve.sampledAt s.pixelSamples))
        else s.handle? m) ∧
      (∀ m, m ∈ q ↔ m ∈ s.queue ∨ m ∈ ns) ∧ ((s.queue ++ ns).Nodup → q = s.queue ++ ns) := by
  induction ns generalizing s with
  | nil =>
    exact ⟨s.handles, s.queue, rfl, fun m => rfl, fun m => by simp, fun _ =>
      (List.append_nil _).symm⟩
  | cons n ns ih =>
    obtain ⟨source, hlazy, hyields⟩ := hns n List.mem_cons_self
    obtain ⟨q₁, hstep, hq₁, happend⟩ := updateCurve_of_suspended hdepth hlazy hyields
    -- the other curves are still lazy, and their sources still yield points: sampling one curve
    -- changes no pixel
    let f := Handle.mapCurve (Curve.sampledAt s.pixelSamples)
    let s₁ : Surface := { s.modify n f with queue := q₁ }
    have hrest : ∀ m ∈ ns, ∃ source, s₁.LazyCurve m source ∧ s₁.Yields source := by
      intro m hm
      obtain ⟨source', hlazy', hyields'⟩ := hns m (List.mem_cons_of_mem _ hm)
      exact ⟨source', s.lazyCurve_modify_sampledAt n m _ hlazy', hyields'⟩
    obtain ⟨a, q, hrun, ha, hq, hall⟩ := ih (s := s₁) hdepth hrest
    refine ⟨a, q, ?_, fun m => ?_, fun m => ?_, fun hnodup => ?_⟩
    · rw [Surface.resample, hstep]
      exact hrun
    · have hhandle : s₁.handle? m = if n = m then (s.handle? m).map f else s.handle? m :=
        s.handle?_modify n f m
      -- a curve that is sampled twice gets the same points
      have htwice : ((s.handle? m).map f).map f = (s.handle? m).map f := by
        rw [Option.map_map]
        refine congrArg (fun g => (s.handle? m).map g) (funext fun l => ?_)
        refine (Handle.mapCurve_mapCurve _ _ l).trans (congrArg (fun g => l.mapCurve g) ?_)
        exact funext (Curve.sampledAt_sampledAt _)
      rw [ha, hhandle]
      by_cases hmn : n = m
      · rw [if_pos hmn, if_pos (show m ∈ n :: ns from hmn ▸ List.mem_cons_self)]
        split
        · exact htwice
        · rfl
      · rw [if_neg hmn]
        simp only [List.mem_cons, Ne.symm hmn, false_or]
        rfl
    · rw [hq, hq₁, List.mem_cons, or_assoc]
    · -- a curve that does not wait yet comes last
      have hn : n ∉ s.queue := fun hmem =>
        (List.nodup_append.mp hnodup).2.2 n hmem n List.mem_cons_self rfl
      have hq₁ : s₁.queue ++ ns = s.queue ++ n :: ns := by
        show q₁ ++ ns = _
        rw [happend hn, List.append_assoc]
        rfl
      rw [← hq₁] at hnodup ⊢
      exact hall hnodup

/-- Sampling fails only for want of points. -/
theorem resample_ne_bounds (ns : List HandleId) (s : Surface) :
    (Surface.resample ns s).1 ≠ .error (.bounds d) := by
  intro h
  induction ns generalizing s with
  | nil => cases h
  | cons n ns ih =>
    obtain ⟨f, -, hok | hfails | hsplits⟩ := s.updateCurve_cases n
    · rw [Surface.resample, (hok s (.refl s)).1] at h
      exact ih _ h
    · rw [Surface.resample, (hfails s (.refl s)).1] at h
      cases h
    · rw [Surface.resample, (hsplits s (.refl s)).1] at h
      cases h

/-! ## A change of the bounds -/

theorem isProper_iff {d : Contour.Domain Float} :
    d.isProper = true ↔ d.xmin < d.xmax ∧ d.ymin < d.ymax := by
  simp [Contour.Domain.isProper, Contour.Coordinate.less]

/-- What the bounds of a surface change, when they become others. Lazy curves that are live get the
points of their sources at the pixels within the new bounds, and no other handle changes. Traces of
other handles do not change either. While updates are suspended, no trace changes, and the lazy curves
wait. -/
structure Panned (d : Contour.Domain Float) (s s' : Surface) : Prop where
  frame : ∃ a f q, s' = { s with bounds := d, handles := a, figure := f, queue := q }
  sampled : ∀ n source, s.LazyCurve n source → ∃ xs ys,
    source.xOf (s'.pixelSamples source.axis) = some xs ∧
    source.yOf (s'.pixelSamples source.axis) = some ys ∧
    s'.handle? n = (s.handle? n).map (Handle.mapCurve fun c => { c with xs, ys })
  others : ∀ n, (∀ source, ¬s.LazyCurve n source) → s'.handle? n = s.handle? n
  figure : Agree (s.Pending fun n => ∃ source, s.LazyCurve n source) s.figure s'.figure
  idle : s.depth = 0 → s'.queue = []
  waiting : s.depth ≠ 0 → s'.figure = s.figure ∧
    ∀ n, n ∈ s'.queue ↔ n ∈ s.queue ∨ ∃ source, s.LazyCurve n source

theorem mem_lazyCurves (h : ∀ n, n ∈ s.live ↔ s.Live n) :
    n ∈ s.lazyCurves ↔ ∃ source, s.LazyCurve n source := by
  have hlazy : (s.handle? n).any (·.isLazy) = (s.source? n).isSome := by
    rw [source?]
    cases s.handle? n with
    | none => rfl
    | some k =>
      obtain ⟨trace, shape, visible, removed⟩ := k
      cases shape <;> rfl
  rw [lazyCurves, List.mem_filter, h, hlazy, Option.isSome_iff_exists]
  exact exists_and_left.symm

theorem pixelSamples_congr (h : s'.frame = s.frame) : s'.pixelSamples = s.pixelSamples := by
  obtain ⟨hwidth, hheight, hbounds⟩ := Frame.mk.inj h
  funext a
  cases a
  · rw [pixelSamples, hwidth, hbounds]
    rfl
  · rw [pixelSamples, hheight, hbounds]
    rfl

/-- Handles keep their traces when curves are sampled. -/
theorem Pending.of_sampled {pushed : HandleId → Prop} {f : Curve → Curve} {ns : List HandleId}
    {i : Nat} (hhandle : ∀ m, s'.handle? m =
      if m ∈ ns then (s.handle? m).map (Handle.mapCurve f) else s.handle? m)
    (h : s'.Pending pushed i) : s.Pending pushed i := by
  obtain ⟨n, k, hn, hk, hlive, hid⟩ := h
  rw [hhandle] at hk
  split at hk
  · obtain ⟨l, hl, rfl⟩ := Option.map_eq_some_iff.mp hk
    obtain ⟨htrace, hremoved, -⟩ := Handle.Gentle.mapCurve f l
    exact ⟨n, l, hn, hl, hremoved.symm.trans hlive, htrace.symm.trans hid⟩
  · exact ⟨n, k, hn, hk, hlive, hid⟩

/-- Sampling a curve leaves its style. -/
theorem takesAt_of_sampled {v : Validator} {samples : Axis → List Float} {ns : List HandleId}
    (hhandle : ∀ m, s'.handle? m =
      if m ∈ ns then (s.handle? m).map (Handle.mapCurve (Curve.sampledAt samples)) else s.handle? m) :
    s'.takesAt v = s.takesAt v := by
  have hstyle : ∀ k : Handle,
      v.takesHandle (k.mapCurve (Curve.sampledAt samples)) = v.takesHandle k :=
    Handle.takesHandle_mapCurve fun c => by
      unfold Curve.sampledAt
      split <;> rfl
  funext m
  unfold takesAt
  rw [hhandle]
  split
  · cases s.handle? m with
    | none => rfl
    | some k =>
      rw [Option.map_some, Option.all_some, Option.all_some, hstyle,
        (Handle.Gentle.mapCurve _ k).2.1]
  · rfl

/-! ## Surfaces that were built -/

/-- The surfaces that come of a new one: handles are made, changed in any way that leaves each its
trace and its kind, shown as far as some figure takes them and removed, the bounds become others, and
suspensions begin and end. -/
inductive Built : Surface → Prop
  | create {width height : Int} {bounds : Contour.Domain Float} {s : Surface}
      (new : create? width height bounds = .ok s) : Built s
  | touch {n : HandleId} {s s' : Surface} (built : Built s) (touch : Touch n s s') : Built s'
  | addTrace {s : Surface} (built : Built s) (mode : String) : Built (s.addTrace mode).2
  | addHandle {s : Surface} (built : Built s) (shape : Shape) :
      Built (s.addHandle shape.mode shape).2
  | remove {s : Surface} (built : Built s) (n : HandleId) : Built (s.remove n)
  | rebound {s : Surface} (built : Built s) (d : Contour.Domain Float) :
      Built { s with bounds := d }
  | updateOn {s : Surface} (built : Built s) (v : Validator) (n : HandleId) :
      Built (s.updateOn v n).2
  | suspend {s : Surface} (built : Built s) : Built s.suspend
  | resumeOn {s : Surface} (built : Built s) (v : Validator) : Built (s.resumeOn v).2

theorem live_create {width height : Int} {bounds : Contour.Domain Float}
    (h : create? width height bounds = .ok s) : s.live = [] := by
  unfold create? at h
  split at h
  · cases h
  · split at h <;> cases h
    rfl

theorem live_touch (h : Touch n s s') : s'.live = s.live := by
  cases h with
  | modify gentle => rfl
  | update =>
    obtain ⟨f, q, hs⟩ := s.update_frame n
    rw [hs]

/-- A handle that was removed is listed no more, even if it was removed before. -/
theorem mem_live_remove (h : ∀ n, n ∈ s.live ↔ s.Live n) :
    n ∈ (s.remove m).live ↔ n ∈ s.live ∧ n ≠ m := by
  by_cases hm : s.Live m
  · obtain ⟨k, hk, hlive⟩ := hm
    rw [remove_of_live hk hlive]
    exact List.mem_filter.trans (and_congr_right fun _ => bne_iff_ne)
  · rw [remove_of_not_live hm]
    refine ⟨fun hn => ⟨hn, ?_⟩, And.left⟩
    rintro rfl
    exact hm ((h n).mp hn)

namespace Built

theorem touches (h : Built s) (ht : Touches n s s') : Built s' := by
  induction ht with
  | refl => exact h
  | tail _ htouch ih => exact ih.touch htouch

theorem resume (h : Built s) : Built s.resume := by
  have hresumed := h.resumeOn .all
  rwa [resumeOn_all] at hresumed

theorem setVisible (h : Built s) (n : HandleId) (visible : Bool) : Built (s.setVisible n visible) :=
  h.touches (touches_setVisible s n visible)

theorem resample (h : Built s) (ns : List HandleId) : Built (Surface.resample ns s).2 :=
  resample_keeps (fun s n hs => hs.touches (touches_updateCurve s n)) ns h

theorem setBounds (h : Built s) (d : Contour.Domain Float) : Built (s.setBounds d).2 := by
  cases hproper : d.isProper with
  | false => rwa [setBounds_of_not_isProper hproper]
  | true =>
    rw [setBounds_of_isProper hproper]
    exact ((h.suspend.rebound d).resample _).resume

/-- Whatever an action does, handles make it. -/
theorem run (h : Built s) (a : Action) : Built (a.run s) := by
  cases a with
  | createCurve r =>
    show Built (s.createCurve r).2
    obtain ⟨shape, hmode, hr⟩ | ⟨e, hr⟩ := createCurve_cases r
    · rw [hr, ← hmode]
      exact h.addHandle shape
    · rw [hr]
      exact h.addTrace "lines"
  | createMarker coords r =>
    show Built (s.createMarker coords r).2
    obtain ⟨shape, hmode, hr⟩ | ⟨e, hr⟩ := createMarker_cases coords r
    · rw [hr, ← hmode]
      exact (h.addHandle shape).setVisible _ true
    · rw [hr]
      exact h.addTrace "markers"
  | createSegment start finish r =>
    show Built (s.createSegment start finish r).2
    obtain ⟨shape, hmode, hr⟩ | ⟨e, hr⟩ := createSegment_cases start finish r
    · rw [hr, ← hmode]
      exact (h.addHandle shape).setVisible _ true
    · rw [hr]
      exact h.addTrace "lines"
  | set n f => exact h.touch (.modify (.setter f))
  | update n => exact h.touch (n := n) .update
  | unhide n => exact h.setVisible n true
  | hide n => exact h.setVisible n false
  | updateCurve n => exact h.touches (touches_updateCurve s n)
  | remove n => exact h.remove n
  | setBounds d => exact h.setBounds d

theorem runs (h : Built s) (actions : List Action) : Built (actions.foldl Action.run s) :=
  List.foldlRecOn actions Action.run (motive := Built) h fun _ hs a _ => hs.run a

theorem coherent (h : Built s) : s.Coherent := by
  induction h with
  | create new => exact coherent_create new
  | touch _ touch ih => exact (Grows.touches (.single touch)).coherent ih
  | addTrace _ mode ih => exact ih.addTrace mode
  | addHandle _ shape ih => exact ih.addHandle rfl
  | remove _ n ih => exact ih.remove n
  | rebound _ d ih => exact ih.congr rfl rfl rfl
  | updateOn _ v n ih => exact (Grows.updateOn v _ n).coherent ih
  | suspend _ ih => exact ih.congr rfl rfl rfl
  | resumeOn _ v ih => exact ih.resumeOn v

/-- Nothing waits unless updates are suspended. -/
theorem idle (h : Built s) : s.depth = 0 → s.queue = [] := by
  induction h with
  | create new => exact (Settled.create new).idle
  | touch _ touch ih => exact (Grows.touches (.single touch)).idle ih
  | addTrace _ mode ih => exact ih
  | addHandle _ shape ih => exact ih
  | @remove s _ n ih => exact idle_foldl_remove ih [n]
  | rebound _ d ih => exact ih
  | updateOn _ v n ih => exact (Grows.updateOn v _ n).idle ih
  | suspend _ ih => exact (Grows.suspend _).idle ih
  | resumeOn _ v ih => exact (Grows.resumeOn v _).idle ih

/-- The handles that are listed are those that were not removed. -/
theorem live_iff (h : Built s) (n : HandleId) : n ∈ s.live ↔ s.Live n := by
  induction h generalizing n with
  | create new => exact (Settled.create new).live_iff n
  | @touch k s _ _ touch ih =>
    cases touch with
    | modify gentle =>
      exact (ih n).trans ⟨Live.modify fun l => (gentle l).2.1, live_modify fun l => (gentle l).2.1⟩
    | update =>
      obtain ⟨f, q, hs⟩ := s.update_frame k
      rw [hs]
      exact ih n
  | addTrace _ mode ih => exact ih n
  | @addHandle s _ shape ih =>
    show n ∈ s.live ++ [s.handles.size] ↔ _
    rw [List.mem_append, List.mem_singleton, ih n]
    refine ⟨?_, live_addHandle⟩
    rintro (hold | rfl)
    · exact hold.addHandle
    · exact s.live_addHandle_self shape.mode shape
  | remove _ m ih =>
    rw [mem_live_remove ih, ih n]
    exact ⟨fun hn => hn.1.remove hn.2, live_remove⟩
  | rebound _ d ih => exact ih n
  | @updateOn s _ v m ih =>
    obtain ⟨f, q, hs⟩ := s.updateOn_frame v m
    rw [hs]
    exact ih n
  | suspend _ ih => exact ih n
  | @resumeOn s _ v ih =>
    obtain ⟨f, q, hs⟩ := s.resumeOn_frame v
    rw [hs]
    exact ih n

/-- No handle is listed twice. -/
theorem live_nodup (h : Built s) : s.live.Nodup := by
  induction h with
  | create new =>
    rw [live_create new]
    exact .nil
  | touch _ touch ih =>
    rw [live_touch touch]
    exact ih
  | addTrace _ mode ih => exact ih
  | @addHandle s hs shape ih =>
    show (s.live ++ [s.handles.size]).Nodup
    refine List.nodup_append.mpr ⟨ih, List.nodup_singleton _, ?_⟩
    rintro n hn m hm rfl
    obtain ⟨k, hk, -⟩ := (hs.live_iff n).mp hn
    exact Nat.ne_of_lt (handle?_lt hk) (List.mem_singleton.mp hm)
  | @remove s _ m ih =>
    obtain ⟨heq, -⟩ | ⟨k, -, -, heq⟩ := s.remove_cases m
    · rw [heq]
      exact ih
    · rw [heq]
      exact ih.filter _
  | rebound _ d ih => exact ih
  | @updateOn s _ v m ih =>
    obtain ⟨f, q, hs⟩ := s.updateOn_frame v m
    rw [hs]
    exact ih
  | suspend _ ih => exact ih
  | @resumeOn s _ v ih =>
    obtain ⟨f, q, hs⟩ := s.resumeOn_frame v
    rw [hs]
    exact ih

end Built

/-- A surface that is reached by actions was built. -/
theorem built_of_reached {brackets : Nat} {strays : List Nat} (h : Reached s brackets strays) :
    Built s := by
  induction h with
  | create new => exact .create new
  | act _ a ih => exact ih.run a
  | suspend _ ih => exact ih.suspend
  | resume _ ih => exact ih.resume

/-! ## The bounds of a surface that was built -/

variable {v : Validator}

/-- Beyond bounds that are no rectangle, a change of the bounds fails for want of points, or because
the figure refuses a curve. -/
theorem setBoundsOn_ne_bounds (hd : d.isProper = true) (v : Validator) (s : Surface) :
    (s.setBoundsOn v d).1 ≠ .error (.bounds d) := by
  rw [setBoundsOn, hd]
  show (thenShow (Surface.resample s.lazyCurves (s.rebounded d)).1
    ((Surface.resample s.lazyCurves (s.rebounded d)).2.resumeOn v)).1 ≠ _
  have hsampled := resample_ne_bounds (d := d) s.lazyCurves (s.rebounded d)
  have hresumed := (Surface.resample s.lazyCurves (s.rebounded d)).2.resumeOn_fst v
  generalize (Surface.resample s.lazyCurves (s.rebounded d)).2.resumeOn v = shown at hresumed ⊢
  obtain ⟨e | _, s'⟩ := shown
  · intro h
    dsimp only at hresumed
    split at hresumed <;> cases hresumed
    cases h
  · exact hsampled

/-- Bounds that are a rectangle are taken: all lazy curves are sampled within a suspension, which
then ends. -/
theorem setBoundsOn_of_yields (h : Built s) (hd : d.isProper = true)
    (hyields : ∀ n source, s.LazyCurve n source → (s.rebounded d).Yields source) :
    ∃ s₁ : Surface, s.setBoundsOn v d = s₁.resumeOn v ∧ s₁.Coherent ∧
      (∃ a q, s₁ = { s.rebounded d with handles := a, queue := q }) ∧
      (∀ m, s₁.handle? m = if m ∈ s.lazyCurves
        then (s.handle? m).map (Handle.mapCurve (Curve.sampledAt (s.rebounded d).pixelSamples))
        else s.handle? m) ∧
      (∀ m, m ∈ s₁.queue ↔ m ∈ s.queue ∨ m ∈ s.lazyCurves) ∧
      (s.depth = 0 → s₁.queue = s.lazyCurves) := by
  obtain ⟨a, q, hrun, ha, hq, hall⟩ := resample_of_yields (s := s.rebounded d) (Nat.succ_ne_zero _)
    s.lazyCurves fun n hn => by
      obtain ⟨source, hn⟩ := (mem_lazyCurves h.live_iff).mp hn
      exact ⟨source, hn, hyields n source hn⟩
  refine ⟨{ s.rebounded d with handles := a, queue := q }, ?_, ?_, ⟨a, q, rfl⟩, ha, hq,
    fun hzero => ?_⟩
  · rw [setBoundsOn, hd]
    show thenShow (Surface.resample s.lazyCurves (s.rebounded d)).1
      ((Surface.resample s.lazyCurves (s.rebounded d)).2.resumeOn v) = _
    rw [hrun, thenShow_ok]
  · have hstart : (s.rebounded d).Coherent := h.coherent.congr rfl rfl rfl
    have hsampled := hstart.resample s.lazyCurves
    rwa [hrun] at hsampled
  · have hempty : (s.rebounded d).queue = [] := h.idle hzero
    rw [hempty] at hall
    exact hall (h.live_nodup.filter _)

/-- A change of the bounds changes what it should, and nothing else. -/
theorem panned_setBoundsOn (h : Built s) (hd : d.isProper = true)
    (hyields : ∀ n source, s.LazyCurve n source → (s.rebounded d).Yields source) :
    Panned d s (s.setBoundsOn v d).2 := by
  have hlazy : ∀ {n}, n ∈ s.lazyCurves ↔ ∃ source, s.LazyCurve n source := mem_lazyCurves h.live_iff
  obtain ⟨s₁, hresult, -, ⟨a, q, hs₁⟩, hsampled, hqueue, -⟩ :=
    setBoundsOn_of_yields (v := v) h hd hyields
  have hdepth : s₁.depth = s.depth + 1 := by
    rw [hs₁]
    rfl
  have hfigure : s₁.figure = s.figure := by
    rw [hs₁]
    rfl
  obtain ⟨f, q', hresume⟩ := s₁.resumeOn_frame v
  -- the suspension that ends here is the outermost one just if there was none before
  have hopen : s.depth ≠ 0 → (s₁.resumeOn v).2 = { s₁ with depth := s₁.depth - 1 } := fun hopen => by
    rw [resumeOn_of_suspended v (by rwa [hdepth])]
  rw [hresult]
  refine ⟨?_, fun n source hn => ?_, fun n hn => ?_, ?_, fun hzero => ?_, fun hne => ?_⟩
  · rw [hresume, hs₁]
    exact ⟨a, f, q', rfl⟩
  · obtain ⟨xs, ys, hxs, hys⟩ := hyields n source hn
    obtain ⟨k, c, hk, hshape, hc⟩ := exists_curve_of_source? hn.2
    have hsamples : (s₁.resumeOn v).2.pixelSamples = (s.rebounded d).pixelSamples := by
      rw [hresume, hs₁]
      exact pixelSamples_congr rfl
    rw [hsamples]
    refine ⟨xs, ys, hxs, hys, ?_⟩
    rw [handle?_resumeOn, hsampled, if_pos (hlazy.mpr ⟨source, hn⟩), hk, Option.map_some,
      Option.map_some]
    simp only [Handle.mapCurve, hshape]
    rw [Curve.sampledAt_eq hc hxs hys]
  · rw [handle?_resumeOn, hsampled, if_neg fun hmem => (hlazy.mp hmem).elim hn]
  · rw [← hfigure]
    by_cases hzero : s.depth = 0
    · -- nothing waited before, so what is shown now are the curves that were sampled
      refine (agree_resumeOn fun n hn => ?_).mono fun i => Pending.of_sampled hsampled
      rcases (hqueue n).mp hn with hold | hnew
      · rw [h.idle hzero] at hold
        exact absurd hold List.not_mem_nil
      · exact hlazy.mp hnew
    · rw [hopen hzero]
      exact .refl _
  · rw [resumeOn_of_depth v (by rw [hdepth, hzero])]
    rfl
  · rw [hopen hne]
    exact ⟨hfigure, fun n => (hqueue n).trans (or_congr_right hlazy)⟩

/-- A change of the bounds whose curves are all taken shows them all. -/
theorem setBoundsOn_of_taken (h : Built s) (hd : d.isProper = true)
    (hyields : ∀ n source, s.LazyCurve n source → (s.rebounded d).Yields source)
    (hzero : s.depth = 0) (hall : ∀ n ∈ s.lazyCurves, s.takesAt v n = true) :
    (s.setBoundsOn v d).1 = .ok () ∧ ∀ n ∈ s.lazyCurves, (s.setBoundsOn v d).2.Shown n := by
  obtain ⟨s₁, hresult, hcoherent, ⟨a, q, hs₁⟩, hsampled, -, hqueue⟩ :=
    setBoundsOn_of_yields (v := v) h hd hyields
  have hdepth : s₁.depth = 1 := by
    rw [hs₁]
    exact congrArg (· + 1) hzero
  -- samples are no matter of style, so that the figure takes a curve as it did before
  have htaken : ∀ n ∈ s₁.queue, s₁.takesAt v n = true := fun n hn => by
    rw [takesAt_of_sampled hsampled]
    exact hall n (hqueue hzero ▸ hn)
  rw [hresult, resumeOn_of_taken (by rw [hdepth]) htaken, resume_of_depth hdepth]
  refine ⟨rfl, fun n hn => shown_flush (hcoherent.congr rfl rfl rfl) ?_⟩
  show n ∈ s₁.queue
  rw [hqueue hzero]
  exact hn

/-- A change of the bounds fails at the first curve that is refused. The curves before it are shown. -/
theorem setBoundsOn_of_refused {taken rest : List HandleId} (h : Built s) (hd : d.isProper = true)
    (hyields : ∀ n source, s.LazyCurve n source → (s.rebounded d).Yields source)
    (hzero : s.depth = 0) (hcurves : s.lazyCurves = taken ++ n :: rest)
    (htaken : ∀ m ∈ taken, s.takesAt v m = true) (hn : s.takesAt v n = false) :
    (s.setBoundsOn v d).1 = .error .refused ∧ (∀ m ∈ taken, (s.setBoundsOn v d).2.Shown m) ∧
      (s.setBoundsOn v d).2.Placed n ∧
      Agree (s.Pending (· ∈ taken ++ [n])) s.figure (s.setBoundsOn v d).2.figure := by
  obtain ⟨s₁, hresult, hcoherent, ⟨a, q, hs₁⟩, hsampled, -, hqueue⟩ :=
    setBoundsOn_of_yields (v := v) h hd hyields
  have hdepth : s₁.depth - 1 = 0 := by
    rw [hs₁]
    exact hzero
  have hfigure : s₁.figure = s.figure := by
    rw [hs₁]
    rfl
  rw [← takesAt_of_sampled hsampled] at htaken hn
  have hnodup : (taken ++ n :: rest).Nodup := hcurves ▸ h.live_nodup.filter _
  -- the curve that is refused is not one of those that were shown before
  have hnew : ∀ m ∈ taken, m ≠ n := fun m hm =>
    (List.nodup_append.mp hnodup).2.2 m hm n List.mem_cons_self
  have hopen : ({ s₁ with depth := 0 } : Surface).Coherent := hcoherent.congr rfl rfl rfl
  let s₂ := taken.foldl draw { s₁ with depth := 0 }
  have hcoherent₂ : s₂.Coherent :=
    List.foldlRecOn taken draw (motive := Coherent) hopen fun _ ht m _ => ht.draw m
  have hshown : ∀ m ∈ taken, s₂.Shown m := fun m hm => shown_foldl_draw hopen (.inl hm)
  rw [hresult, resumeOn_of_refused hdepth ((hqueue hzero).trans hcurves) htaken hn]
  refine ⟨rfl, fun m hm => (hshown m hm).drawOn hcoherent₂ v (hnew m hm),
    placed_drawOn hcoherent₂ v n, ?_⟩
  rw [← hfigure]
  refine (agree_of_refused (fun m hm => List.mem_append_left _ hm)
    (List.mem_append_right _ (List.mem_singleton_self n))).mono fun i => Pending.of_sampled hsampled

/-- A change of the bounds finds them invalid just if they are no rectangle, and then it changes
nothing. If the points of all lazy curves that are live can be had within other bounds, it gives each
of them these points, and changes no other handle. Unless updates are suspended, the curves are then
shown in turn. If the figure takes them all, then all are up to date. If it refuses one, then the
change fails although it was made: the curves before that one are up to date, that one has its points
in place, and no other trace has changed. -/
theorem built_setBoundsOn (h : Built s) (v : Validator) (d : Contour.Domain Float) :
    let s' := (s.setBoundsOn v d).2
    ((s.setBoundsOn v d).1 = .error (.bounds d) ↔ ¬(d.xmin < d.xmax ∧ d.ymin < d.ymax)) ∧
    (¬(d.xmin < d.xmax ∧ d.ymin < d.ymax) → s' = s) ∧
    (d.xmin < d.xmax ∧ d.ymin < d.ymax →
      (∀ n source, s.LazyCurve n source → Yields { s with bounds := d } source) →
      Panned d s s' ∧
      (s.depth ≠ 0 → (s.setBoundsOn v d).1 = .ok ()) ∧
      (s.depth = 0 → (∀ n ∈ s.lazyCurves, s.takesAt v n = true) →
        (s.setBoundsOn v d).1 = .ok () ∧ ∀ n ∈ s.lazyCurves, s'.Shown n) ∧
      ∀ taken n rest, s.depth = 0 → s.lazyCurves = taken ++ n :: rest →
        (∀ m ∈ taken, s.takesAt v m = true) → s.takesAt v n = false →
        (s.setBoundsOn v d).1 = .error .refused ∧ (∀ m ∈ taken, s'.Shown m) ∧ s'.Placed n ∧
          Agree (s.Pending (· ∈ taken ++ [n])) s.figure s'.figure) := by
  intro s'
  rw [← isProper_iff, Bool.not_eq_true]
  refine ⟨⟨fun hfails => eq_false_of_ne_true fun hd => setBoundsOn_ne_bounds hd v s hfails,
    fun hd => ?_⟩, fun hd => ?_, fun hd hyields => ⟨panned_setBoundsOn h hd hyields, fun hne => ?_,
    fun hzero => setBoundsOn_of_taken h hd hyields hzero,
    fun taken n rest hzero => setBoundsOn_of_refused h hd hyields hzero⟩⟩
  · rw [setBoundsOn, hd]
    rfl
  · show (s.setBoundsOn v d).2 = s
    rw [setBoundsOn, hd]
    rfl
  · obtain ⟨s₁, hresult, -, ⟨a, q, hs₁⟩, -⟩ := setBoundsOn_of_yields (v := v) h hd hyields
    have hdepth : s₁.depth - 1 = s.depth := by
      rw [hs₁]
      rfl
    rw [hresult, resumeOn_of_suspended v (by rwa [hdepth])]

/-- A parabola that was never shown gets the points within the new bounds and shows them. A line after
it, whose width the figure refuses, makes the change fail. -/
theorem built_setBoundsOn_parabola_line :
    let parabola : LazySource := ⟨some, fun xs => some (xs.map fun x => x * x), .x⟩
    let line : LazySource := ⟨some, some, .y⟩
    let made : Surface := { width := 16, height := 12, bounds := ⟨-10, 10, -10, 10⟩ }
    let s := [Action.createCurve ⟨{}, none⟩, .createCurve ⟨{ width := some (-1) }, none⟩,
      .set 0 (.setSource parabola), .set 1 (.setSource line)].foldl Action.run made
    let s' := (s.setBoundsOn .documented ⟨0, 2, 0, 4⟩).2
    Built s ∧ s.LazyCurve 0 parabola ∧ s.LazyCurve 1 line ∧
      (s.setBoundsOn .documented ⟨0, 2, 0, 4⟩).1 = .error .refused ∧
      s'.bounds = ⟨0, 2, 0, 4⟩ ∧ s'.Shown 0 ∧ s'.Placed 1 ∧
      ∃ k c, s'.handle? 0 = some k ∧ k.visible = false ∧ k.shape = .curve c ∧
        c.xs = s'.pixelSamples .x ∧ c.ys = c.xs.map fun x => x * x := by
  intro parabola line made s s'
  have hnew : create? 16 12 ⟨-10, 10, -10, 10⟩ = .ok made := rfl
  have hbuilt : Built s := (Built.create hnew).runs _
  have hparabola : s.LazyCurve 0 parabola := ⟨⟨_, rfl, rfl⟩, rfl⟩
  have hline : s.LazyCurve 1 line := ⟨⟨_, rfl, rfl⟩, rfl⟩
  have hyields : ∀ n source, s.LazyCurve n source →
      Yields { s with bounds := ⟨0, 2, 0, 4⟩ } source := by
    rintro n source ⟨-, hsource⟩
    match n with
    | 0 =>
      obtain rfl : parabola = source := Option.some.inj hsource
      exact ⟨_, _, rfl, rfl⟩
    | 1 =>
      obtain rfl : line = source := Option.some.inj hsource
      exact ⟨_, _, rfl, rfl⟩
    | n + 2 => cases hsource
  have hproper : (0 : Float) < 2 ∧ (0 : Float) < 4 := by decide +kernel
  have htaken : ∀ m ∈ [0], s.takesAt .documented m = true := by decide +kernel
  have hrefused : s.takesAt .documented 1 = false := by decide +kernel
  obtain ⟨hpanned, -, -, hfails⟩ :=
    (built_setBoundsOn hbuilt .documented ⟨0, 2, 0, 4⟩).2.2 hproper hyields
  obtain ⟨herror, hshown, hplaced, -⟩ := hfails [0] 1 [] rfl rfl htaken hrefused
  obtain ⟨a, f, q, hframe⟩ := hpanned.frame
  obtain ⟨xs, ys, hxs, hys, hhandle⟩ := hpanned.sampled 0 parabola hparabola
  refine ⟨hbuilt, hparabola, hline, herror, congrArg Surface.bounds hframe,
    hshown 0 (List.mem_singleton_self 0), hplaced, _, _, hhandle, rfl, rfl, ?_, ?_⟩
  · exact (Option.some.inj hxs).symm
  · exact (Option.some.inj hys).symm.trans (congrArg _ (Option.some.inj hxs))

/-- Valid bounds can fail. The points of the one curve can be had within them, but the figure refuses
its width when the bounds have become others. -/
theorem setBoundsOn_negative_width :
    let source : LazySource := ⟨some, some, .x⟩
    let made : Surface := { width := 16, height := 12, bounds := ⟨-10, 10, -10, 10⟩ }
    let s := [Action.createCurve ⟨{ width := some (-1) }, none⟩,
      .set 0 (.setSource source)].foldl Action.run made
    let d : Contour.Domain Float := ⟨0, 1, 0, 1⟩
    Built s ∧ (d.xmin < d.xmax ∧ d.ymin < d.ymax) ∧
      (∀ n source, s.LazyCurve n source → Yields { s with bounds := d } source) ∧
      (s.setBoundsOn .documented d).1 = .error .refused ∧
      (s.setBoundsOn .documented d).2.bounds = d ∧ s.bounds ≠ d := by
  intro source made s d
  have hnew : create? 16 12 ⟨-10, 10, -10, 10⟩ = .ok made := rfl
  have hbuilt : Built s := (Built.create hnew).runs _
  have hproper : d.xmin < d.xmax ∧ d.ymin < d.ymax := by decide +kernel
  have hyields : ∀ n source', s.LazyCurve n source' → Yields { s with bounds := d } source' := by
    rintro n source' ⟨-, hsource⟩
    cases n with
    | zero =>
      obtain rfl : source = source' := Option.some.inj hsource
      exact ⟨_, _, rfl, rfl⟩
    | succ n => cases hsource
  have hcurves : s.lazyCurves = [] ++ 0 :: [] := rfl
  have hrefused : s.takesAt .documented 0 = false := by decide +kernel
  have hfails := setBoundsOn_of_refused hbuilt (isProper_iff.mpr hproper) hyields rfl hcurves
    (fun m hm => absurd hm List.not_mem_nil) hrefused
  obtain ⟨a, f, q, hframe⟩ :=
    (panned_setBoundsOn (v := .documented) hbuilt (isProper_iff.mpr hproper) hyields).frame
  refine ⟨hbuilt, hproper, hyields, hfails.1, congrArg Surface.bounds hframe, fun hsame => ?_⟩
  exact absurd (congrArg Contour.Domain.xmin hsame) (by decide +kernel)

end Surface
end Graphing
