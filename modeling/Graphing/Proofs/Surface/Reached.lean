/-
  Graphing.Proofs.Surface.Reached

  What holds of a surface after any script of actions and suspensions.

  A surface keeps four accounts: the traces of its figure, the handles that
  are live, the queue, and the number of open suspensions.  Making and
  removing handles change the first two at once, the queue is worked off
  later.  The accounts agree in every state (`Settled`), but for one thing:
  making a handle adds the trace before the values are looked at, so that
  values that cannot be used leave a trace behind that belongs to no handle.
  These traces are the strays; they are never visible and never removed.

  A handle that is made visible or invisible is ahead of its trace until it is
  drawn or queued.  So the invariant has two layers: what all operations keep
  (`Laid`), and that each handle is in the queue or agrees with its trace.
-/
import Graphing.Proofs.Surface.Live

namespace Graphing

/-! ## States that can be reached -/

/-- The trace that is left without a handle when a handle could not be made. -/
def Surface.strayOf (s : Surface) (result : Except SurfaceFault HandleId) : List Nat :=
  if result.isOk then [] else [s.nextTrace]

/-- The traces without a handle that an action leaves: one, if it should make a handle and fails. -/
def Action.strays (s : Surface) : Action → List Nat
  | .createCurve r => s.strayOf (s.createCurve r).1
  | .createMarker coords r => s.strayOf (s.createMarker coords r).1
  | .createSegment start finish r => s.strayOf (s.createSegment start finish r).1
  | .set _ _ | .update _ | .unhide _ | .hide _ | .updateCurve _ | .remove _ | .setBounds _ => []

/-- The surfaces that come of a new one by actions, suspensions and their ends, with the number of
suspensions that are open and the traces that were left without a handle. -/
inductive Reached : Surface → Nat → List Nat → Prop
  | create {width height : Int} {bounds : Contour.Domain Float} {s : Surface}
    (new : Surface.create? width height bounds = .ok s) : Reached s 0 []
  | act {s : Surface} {brackets : Nat} {strays : List Nat} (run : Reached s brackets strays)
    (a : Action) : Reached (a.run s) brackets (strays ++ a.strays s)
  | suspend {s : Surface} {brackets : Nat} {strays : List Nat} (run : Reached s brackets strays) :
    Reached s.suspend (brackets + 1) strays
  | resume {s : Surface} {brackets : Nat} {strays : List Nat}
    (run : Reached s (brackets + 1) strays) : Reached s.resume brackets strays

namespace Surface

variable {s s' : Surface} {m n : HandleId} {strays : List Nat}

/-! ## Accounts -/

/-- The traces of the live handles. -/
def traces (s : Surface) : List Nat := s.live.filterMap fun n => (s.handle? n).map Handle.trace

theorem traces_congr (hlive : s'.live = s.live)
    (htrace : ∀ n ∈ s.live, (s'.handle? n).map Handle.trace = (s.handle? n).map Handle.trace) :
    s'.traces = s.traces := by
  rw [traces, hlive]
  exact List.filterMap_congr htrace

/-- The trace of a handle shows whether the handle is visible. -/
def Agrees (s : Surface) (n : HandleId) : Prop :=
  ∀ k, s.handle? n = some k → k.removed = false →
    ∃ t ∈ s.figure, t.id = k.trace ∧ t.visible = k.visible

theorem Shown.agrees (h : s.Shown n) : s.Agrees n := by
  intro k hk hlive
  obtain ⟨t, ht, hid, -, hvisible⟩ := h k hk hlive
  exact ⟨t, ht, hid, hvisible⟩

theorem Agrees.draw (h : s.Agrees m) (hs : s.Coherent) (n : HandleId) : (s.draw n).Agrees m := by
  by_cases hmn : m = n
  · rw [hmn]
    exact (shown_draw hs n).agrees
  · intro k hk hlive
    rw [handle?_draw] at hk
    obtain ⟨t, ht, hid, hvisible⟩ := h k hk hlive
    exact ⟨t, mem_figure_draw hs hmn hk ht hid, hid, hvisible⟩

/-- What all operations keep: the traces are those of the live handles, in their order, and the
strays, which are invisible; and only live handles are queued. -/
structure Laid (strays : List Nat) (s : Surface) : Prop where
  coherent : s.Coherent
  live_iff : ∀ n, n ∈ s.live ↔ s.Live n
  traces : (s.figure.map Trace.id).filter (fun i => decide (i ∉ strays)) = s.traces
  stray_mem : ∀ i ∈ strays, i ∈ s.figure.map Trace.id
  hidden : ∀ t ∈ s.figure, t.id ∈ strays → t.visible = false
  queue_live : ∀ n ∈ s.queue, n ∈ s.live

namespace Laid

theorem mem_traces (h : s.Laid strays) {k : Handle} (hk : s.handle? n = some k)
    (hlive : k.removed = false) : k.trace ∈ s.traces :=
  List.mem_filterMap.mpr ⟨n, (h.live_iff n).mpr ⟨k, hk, hlive⟩, by rw [hk]; rfl⟩

/-- The trace of a live handle is no stray. -/
theorem not_stray (h : s.Laid strays) {k : Handle} (hk : s.handle? n = some k)
    (hlive : k.removed = false) : k.trace ∉ strays := by
  have hmem := h.mem_traces hk hlive
  rw [← h.traces, List.mem_filter] at hmem
  exact of_decide_eq_true hmem.2

/-- The next trace is no stray yet. -/
theorem next_not_stray (h : s.Laid strays) : s.nextTrace ∉ strays := by
  intro hmem
  obtain ⟨t, ht, hid⟩ := List.mem_map.mp (h.stray_mem _ hmem)
  exact absurd (h.coherent.id_lt t ht) (hid ▸ Nat.lt_irrefl _)

/-- A change of the figure, the queue and the number of suspensions that keeps the numbers of the
traces and shows no stray. -/
theorem of_frame (h : s.Laid strays) (hcoherent : s'.Coherent) (hhandles : s'.handles = s.handles)
    (hlive : s'.live = s.live) (hids : s'.figure.map Trace.id = s.figure.map Trace.id)
    (hhidden : ∀ t ∈ s'.figure, t.id ∈ strays → t.visible = false)
    (hqueue : ∀ n ∈ s'.queue, n ∈ s.live) : s'.Laid strays where
  coherent := hcoherent
  live_iff n := by
    rw [hlive, h.live_iff n]
    exact ⟨fun hn => hn.congr hhandles.symm, fun hn => hn.congr hhandles⟩
  traces := by
    rw [hids, h.traces, traces_congr hlive fun n _ => by rw [handle?, hhandles, handle?]]
  stray_mem := by
    rw [hids]
    exact h.stray_mem
  hidden := hhidden
  queue_live := by
    rw [hlive]
    exact hqueue

theorem modify (h : s.Laid strays) (n : HandleId) {f : Handle → Handle} (hf : Handle.Gentle f) :
    (s.modify n f).Laid strays where
  coherent := h.coherent.modify fun k _ => hf k
  live_iff m := (h.live_iff m).trans
    ⟨Live.modify fun k => (hf k).2.1, live_modify fun k => (hf k).2.1⟩
  traces := by
    refine h.traces.trans (Eq.symm ?_)
    refine traces_congr (s := s) rfl fun m _ => ?_
    rw [handle?_modify]
    split
    · rw [Option.map_map]
      exact Option.map_congr fun k _ => (hf k).1
    · rfl
  stray_mem := h.stray_mem
  hidden := h.hidden
  queue_live := h.queue_live

theorem draw (h : s.Laid strays) (n : HandleId) : (s.draw n).Laid strays := by
  obtain ⟨f, hf⟩ := s.draw_frame n
  refine h.of_frame (h.coherent.draw n) (s.handles_draw n) (by rw [hf]) (s.ids_draw n) ?_
    (by rw [hf]; exact h.queue_live)
  unfold Surface.draw
  split
  · rename_i k hk
    split
    · exact h.hidden
    · rename_i hlive
      intro t ht hstray
      obtain ⟨t₀, ht₀, rfl⟩ := List.mem_map.mp ht
      split at hstray <;> rename_i hid
      · -- only the trace of a live handle is drawn in
        rw [Handle.id_render, hid] at hstray
        exact absurd hstray (h.not_stray hk (Bool.eq_false_iff.mpr hlive))
      · rw [if_neg hid]
        exact h.hidden t₀ ht₀ hstray
  · exact h.hidden

theorem enqueue (h : s.Laid strays) (hn : n ∈ s.live) : (s.enqueue n).Laid strays := by
  obtain ⟨q, hq⟩ := s.enqueue_frame n
  refine h.of_frame (h.coherent.enqueue n) (s.handles_enqueue n) (by rw [hq]) (by rw [hq])
    (by rw [hq]; exact h.hidden) fun m hm => ?_
  rcases mem_queue_enqueue.mp hm with hm | rfl
  · exact h.queue_live m hm
  · exact hn

/-- A handle that is pushed is drawn or queued; if no suspension is open, it is drawn. -/
theorem update (h : s.Laid strays) (n : HandleId) :
    (s.update n).Laid strays ∧ (s.depth = 0 → (s.update n).queue = s.queue) ∧
      (n ∈ (s.update n).queue ∨ (s.update n).Agrees n) ∧
      ∀ m, m ∈ s.queue ∨ s.Agrees m → m ∈ (s.update n).queue ∨ (s.update n).Agrees m := by
  cases hk : s.handle? n with
  | none =>
    have heq : s.update n = s := by rw [Surface.update, hk]
    rw [heq]
    refine ⟨h, fun _ => rfl, .inr fun k hk' => ?_, fun m => id⟩
    cases hk.symm.trans hk'
  | some k =>
    cases hlive : k.removed with
    | true =>
      have heq : s.update n = s := by
        rw [Surface.update, hk]
        simp [hlive]
      rw [heq]
      refine ⟨h, fun _ => rfl, .inr fun l hl hlive' => ?_, fun m => id⟩
      obtain rfl := Option.some.inj (hk.symm.trans hl)
      exact Bool.noConfusion (hlive.symm.trans hlive')
    | false =>
      by_cases hs : s.depth = 0
      · have hqueue : (s.draw n).queue = s.queue := by
          obtain ⟨f, hf⟩ := s.draw_frame n
          rw [hf]
        -- it is drawn now, and agrees
        rw [update_eq_draw hs, hqueue]
        exact ⟨h.draw n, fun _ => rfl, .inr (shown_draw h.coherent n).agrees,
          fun m => Or.imp_right fun hagrees => hagrees.draw h.coherent n⟩
      · -- it waits in the queue
        have hn : n ∈ s.live := (h.live_iff n).mpr ⟨k, hk, hlive⟩
        obtain ⟨q, hq⟩ := s.enqueue_frame n
        rw [update_of_suspended hs hk hlive]
        refine ⟨h.enqueue hn, fun hzero => absurd hzero hs, .inl (mem_queue_enqueue.mpr (.inr rfl)),
          fun m hm => hm.imp (fun hm => mem_queue_enqueue.mpr (.inl hm)) fun hagrees => ?_⟩
        rw [hq]
        exact hagrees

end Laid

/-! ## Settled surfaces -/

/-- The accounts of a surface agree; each handle is in the queue or agrees with its trace, and the queue
is empty while no suspension is open. -/
structure Settled (strays : List Nat) (s : Surface) : Prop extends s.Laid strays where
  shown : ∀ n, n ∈ s.queue ∨ s.Agrees n
  idle : s.depth = 0 → s.queue = []

namespace Settled

theorem create {width height : Int} {bounds : Contour.Domain Float}
    (h : create? width height bounds = .ok s) : s.Settled [] := by
  have hcoherent := coherent_create h
  unfold create? at h
  split at h
  · cases h
  · split at h
    · cases h
    · cases h
      refine ⟨⟨hcoherent, ?_, rfl, ?_, ?_, ?_⟩, ?_, fun _ => rfl⟩ <;>
        simp [Live, Agrees, handle?]

/-- A change of the size, the bounds and the number of suspensions. -/
theorem of_frame (h : s.Settled strays) (hhandles : s'.handles = s.handles)
    (hlive : s'.live = s.live) (hfigure : s'.figure = s.figure) (hnext : s'.nextTrace = s.nextTrace)
    (hqueue : s'.queue = s.queue) (hidle : s'.depth = 0 → s.queue = []) : s'.Settled strays where
  toLaid := h.toLaid.of_frame (h.coherent.congr hhandles hfigure hnext) hhandles hlive (by rw [hfigure])
    (by rw [hfigure]; exact h.hidden) (by rw [hqueue]; exact h.queue_live)
  shown n := by
    rw [hqueue]
    refine (h.shown n).imp_right fun hagrees k hk => ?_
    rw [handle?, hhandles] at hk
    rw [hfigure]
    exact hagrees k hk
  idle := by rwa [hqueue]

theorem suspend (h : s.Settled strays) : s.suspend.Settled strays :=
  h.of_frame rfl rfl rfl rfl rfl fun hzero => absurd hzero (Nat.succ_ne_zero _)

theorem rebounded (h : s.Settled strays) (d : Contour.Domain Float) :
    (s.rebounded d).Settled strays :=
  h.suspend.of_frame rfl rfl rfl rfl rfl fun hzero => absurd hzero (Nat.succ_ne_zero _)

/-- A change that does not make a handle visible or invisible. -/
theorem modify (h : s.Settled strays) (n : HandleId) {f : Handle → Handle} (hf : Handle.Gentle f)
    (hvisible : Handle.KeepsVisible f) : (s.modify n f).Settled strays where
  toLaid := h.toLaid.modify n hf
  shown m := by
    refine (h.shown m).imp_right fun hagrees k hk hlive => ?_
    rw [handle?_modify] at hk
    split at hk
    · obtain ⟨l, hl, rfl⟩ := Option.map_eq_some_iff.mp hk
      obtain ⟨t, ht, hid, heq⟩ := hagrees l hl ((hf l).2.1.symm.trans hlive)
      exact ⟨t, ht, hid.trans (hf l).1.symm, heq.trans (hvisible l).symm⟩
    · exact hagrees k hk hlive
  idle := h.idle

theorem update (h : s.Settled strays) (n : HandleId) : (s.update n).Settled strays := by
  obtain ⟨hlaid, hqueue, -, hothers⟩ := h.toLaid.update n
  refine ⟨hlaid, fun m => hothers m (h.shown m), fun hzero => ?_⟩
  rw [depth_update] at hzero
  rw [hqueue hzero, h.idle hzero]

/-- A handle that is made visible or invisible is ahead of its trace until it is pushed. -/
theorem setVisible (h : s.Settled strays) (n : HandleId) (visible : Bool) :
    (s.setVisible n visible).Settled strays := by
  obtain ⟨hlaid, hqueue, hself, hothers⟩ := (h.toLaid.modify n (.visible visible)).update n
  refine ⟨hlaid, fun m => ?_, fun hzero => ?_⟩
  · by_cases hmn : m = n
    · rw [hmn]
      exact hself
    · refine hothers m ((h.shown m).imp_right fun hagrees k hk => ?_)
      rw [handle?_modify, if_neg (Ne.symm hmn)] at hk
      exact hagrees k hk
  · have hzero' : s.depth = 0 := (depth_update (s.modify n _) n).symm.trans hzero
    exact (hqueue hzero').trans (h.idle hzero')

/-- Working off the queue leaves no handle behind. -/
theorem flush (h : s.Laid strays) (hshown : ∀ n, n ∈ s.queue ∨ s.Agrees n) :
    s.flush.Settled strays := by
  have hfold : ∀ (ns : List HandleId) (s : Surface), s.Laid strays →
      (∀ m, m ∈ ns ∨ s.Agrees m) →
      (ns.foldl Surface.draw s).Laid strays ∧ ∀ m, (ns.foldl Surface.draw s).Agrees m := by
    intro ns
    induction ns with
    | nil => exact fun s h hall => ⟨h, fun m => (hall m).resolve_left List.not_mem_nil⟩
    | cons n ns ih =>
      intro s h hall
      refine ih (s.draw n) (h.draw n) fun m => ?_
      rcases hall m with hmem | hagrees
      · rcases List.mem_cons.mp hmem with rfl | hmem
        · exact .inr (shown_draw h.coherent m).agrees
        · exact .inl hmem
      · exact .inr (hagrees.draw h.coherent n)
  obtain ⟨hlaid, hagrees⟩ := hfold s.queue s h hshown
  refine ⟨hlaid.of_frame (hlaid.coherent.congr rfl rfl rfl) rfl rfl rfl hlaid.hidden ?_,
    fun m => .inr (hagrees m), fun _ => rfl⟩
  exact fun m hm => nomatch List.not_mem_nil hm

theorem resume (h : s.Settled strays) : s.resume.Settled strays := by
  unfold Surface.resume
  dsimp only
  split
  · refine flush (h.toLaid.of_frame (h.coherent.congr rfl rfl rfl) rfl rfl rfl h.hidden h.queue_live) ?_
    exact h.shown
  · rename_i hopen
    exact h.of_frame rfl rfl rfl rfl rfl fun hzero => absurd hzero hopen

/-! ### Handles that come and go -/

/-- A handle that could not be made leaves its trace behind. -/
theorem addTrace (h : s.Settled strays) (mode : String) :
    (s.addTrace mode).2.Settled (strays ++ [s.nextTrace]) where
  coherent := h.coherent.addTrace mode
  live_iff := h.live_iff
  traces := by
    have hids : (s.addTrace mode).2.figure.map Trace.id = s.figure.map Trace.id ++ [s.nextTrace] :=
      List.map_append
    rw [hids, List.filter_append, List.filter_cons_of_neg (by simp), List.filter_nil, List.append_nil]
    refine (List.filter_congr fun i hi => ?_).trans h.traces
    -- the traces that are there have other numbers
    obtain ⟨t, ht, rfl⟩ := List.mem_map.mp hi
    have hne : t.id ≠ s.nextTrace := Nat.ne_of_lt (h.coherent.id_lt t ht)
    simp [hne]
  stray_mem i hi := by
    have hids : (s.addTrace mode).2.figure.map Trace.id = s.figure.map Trace.id ++ [s.nextTrace] :=
      List.map_append
    rw [hids, List.mem_append]
    exact (List.mem_append.mp hi).imp_left (h.stray_mem i)
  hidden t ht hstray := by
    rcases List.mem_append.mp ht with hold | hnew
    · refine h.hidden t hold ((List.mem_append.mp hstray).resolve_right fun hnext => ?_)
      exact absurd (h.coherent.id_lt t hold) (List.mem_singleton.mp hnext ▸ Nat.lt_irrefl _)
    · rw [List.mem_singleton.mp hnew]
  queue_live := h.queue_live
  shown n := (h.shown n).imp_right fun hagrees k hk hlive => by
    obtain ⟨t, ht, hid, hvisible⟩ := hagrees k hk hlive
    exact ⟨t, List.mem_append_left _ ht, hid, hvisible⟩
  idle := h.idle

theorem addHandle (h : s.Settled strays) {mode : String} {shape : Shape} (hmode : mode = shape.mode) :
    (s.addHandle mode shape).2.Settled strays where
  coherent := h.coherent.addHandle hmode
  live_iff n := by
    show n ∈ s.live ++ [s.handles.size] ↔ _
    rw [List.mem_append, List.mem_singleton, h.live_iff n]
    refine ⟨?_, live_addHandle⟩
    rintro (hold | rfl)
    · exact hold.addHandle
    · exact s.live_addHandle_self mode shape
  traces := by
    -- the new trace comes last, as the new handle does
    have hids : (s.addHandle mode shape).2.figure.map Trace.id =
        s.figure.map Trace.id ++ [s.nextTrace] := List.map_append
    have hlive : (s.addHandle mode shape).2.live = s.live ++ [s.handles.size] := rfl
    have hnew : (s.addHandle mode shape).2.traces = s.traces ++ [s.nextTrace] := by
      rw [Surface.traces, hlive, List.filterMap_append]
      congr 1
      · refine List.filterMap_congr fun n hn => ?_
        obtain ⟨k, hk, -⟩ := (h.live_iff n).mp hn
        rw [handle?_addHandle, if_neg (Nat.ne_of_lt (handle?_lt hk))]
      · simp [handle?_addHandle]
    rw [hids, List.filter_append, h.traces, hnew]
    simp [h.next_not_stray]
  stray_mem i hi := by
    have hids : (s.addHandle mode shape).2.figure.map Trace.id =
        s.figure.map Trace.id ++ [s.nextTrace] := List.map_append
    rw [hids]
    exact List.mem_append_left _ (h.stray_mem i hi)
  hidden t ht hstray := by
    rcases List.mem_append.mp ht with hold | hnew
    · exact h.hidden t hold hstray
    · rw [List.mem_singleton.mp hnew]
  queue_live n hn := List.mem_append_left _ (h.queue_live n hn)
  shown n := by
    refine (h.shown n).imp_right fun hagrees k hk hlive => ?_
    rw [handle?_addHandle] at hk
    split at hk
    · -- the new handle is invisible, and so is its trace
      cases hk
      exact ⟨_, List.mem_append_right _ (List.mem_singleton_self _), rfl, rfl⟩
    · obtain ⟨t, ht, hid, hvisible⟩ := hagrees k hk hlive
      exact ⟨t, List.mem_append_left _ ht, hid, hvisible⟩
  idle := h.idle

/-- The trace of a handle goes with it; another handle has another trace. -/
theorem traces_remove (h : s.Settled strays) {k : Handle} (hk : s.handle? n = some k)
    (hlive : k.removed = false) : (s.remove n).traces = s.traces.filter (· != k.trace) := by
  have heq := remove_of_live hk hlive
  have htrace : ∀ m, ((s.remove n).handle? m).map Handle.trace = (s.handle? m).map Handle.trace := by
    intro m
    rw [heq]
    refine (congrArg _ (s.handle?_modify n _ m)).trans ?_
    split
    · rw [Option.map_map]
      rfl
    · rfl
  have hrest : (s.remove n).live = s.live.filter (· != n) := by rw [heq]
  rw [Surface.traces, hrest, Surface.traces, List.filter_filterMap, List.filterMap_filter]
  refine List.filterMap_congr fun m hm => ?_
  obtain ⟨l, hl, -⟩ := (h.live_iff m).mp hm
  rw [htrace, hl, Option.map_some]
  by_cases hmn : m = n
  · subst hmn
    obtain rfl := Option.some.inj (hk.symm.trans hl)
    simp [Option.filter]
  · have hne : l.trace ≠ k.trace := fun heq => hmn (h.coherent.trace_inj m n l k hl hk heq)
    simp [Option.filter, hmn, hne]

/-- A handle goes with its trace, and leaves the queue. -/
theorem remove (h : s.Settled strays) (n : HandleId) : (s.remove n).Settled strays := by
  obtain ⟨heq, -⟩ | ⟨k, hk, hlive, heq⟩ := s.remove_cases n
  · rwa [heq]
  have hfigure : (s.remove n).figure = s.figure.filter fun t => t.id != k.trace := by rw [heq]
  have hqueue : (s.remove n).queue = s.queue.filter (· != n) := by rw [heq]
  have hrest : (s.remove n).live = s.live.filter (· != n) := by rw [heq]
  refine ⟨⟨h.coherent.remove n, fun m => ?_, ?_, fun i hi => ?_, fun t ht => ?_, fun m hm => ?_⟩,
    fun m => ?_, fun hzero => ?_⟩
  · rw [hrest, List.mem_filter, bne_iff_ne, h.live_iff m]
    exact ⟨fun hm => hm.1.remove hm.2, live_remove⟩
  · have hids : (s.remove n).figure.map Trace.id =
        (s.figure.map Trace.id).filter (· != k.trace) := by
      rw [hfigure, List.filter_map]
      rfl
    -- the trace of a live handle is the trace of no other one
    rw [hids, h.traces_remove hk hlive, ← h.traces, List.filter_filter, List.filter_filter]
    exact List.filter_congr fun i _ => Bool.and_comm _ _
  · obtain ⟨t, ht, rfl⟩ := List.mem_map.mp (h.stray_mem i hi)
    rw [hfigure]
    refine List.mem_map.mpr ⟨t, List.mem_filter.mpr ⟨ht, bne_iff_ne.mpr fun hid => ?_⟩, rfl⟩
    -- strays belong to no handle, and so they all stay
    exact h.not_stray hk hlive (hid ▸ hi)
  · rw [hfigure] at ht
    exact h.hidden t (List.mem_filter.mp ht).1
  · rw [hqueue, List.mem_filter] at hm
    rw [hrest, List.mem_filter]
    exact ⟨h.queue_live m hm.1, hm.2⟩
  · by_cases hmn : m = n
    · -- the handle that was removed has no trace to agree with
      refine .inr fun l hl hlive' => absurd hmn (live_remove ⟨l, hl, hlive'⟩).2
    · refine (h.shown m).imp (mem_queue_remove hmn) fun hagrees l hl hlive' => ?_
      rw [handle?_remove hmn] at hl
      obtain ⟨t, ht, hid, hvisible⟩ := hagrees l hl hlive'
      refine ⟨t, ?_, hid, hvisible⟩
      rw [hfigure]
      refine List.mem_filter.mpr ⟨ht, bne_iff_ne.mpr fun heq => hmn ?_⟩
      exact h.coherent.trace_inj m n l k hl hk (hid.symm.trans heq)
  · rw [depth_remove] at hzero
    rw [hqueue, h.idle hzero, List.filter_nil]

/-! ### Sampling -/

theorem updateCurve (h : s.Settled strays) (n : HandleId) : (s.updateCurve n).2.Settled strays := by
  obtain ⟨f, ⟨hf, hvisible⟩, hok | hfails | hsplits⟩ := s.updateCurve_cases n
  · rw [(hok s (.refl s)).1]
    exact (h.modify n hf hvisible).update n
  · rw [(hfails s (.refl s)).1]
    exact h
  · rw [(hsplits s (.refl s)).1]
    exact h.modify n hf hvisible

theorem resample (h : s.Settled strays) (ns : List HandleId) :
    (Surface.resample ns s).2.Settled strays :=
  resample_keeps (fun _ n hs => hs.updateCurve n) ns h

theorem setBounds (h : s.Settled strays) (d : Contour.Domain Float) :
    (s.setBounds d).2.Settled strays := by
  cases hproper : d.isProper with
  | false => rwa [setBounds_of_not_isProper hproper]
  | true =>
    rw [setBounds_of_isProper hproper]
    exact ((h.rebounded d).resample _).resume

/-! ### Actions -/

/-- A handle is made and shown, or its trace is left behind. -/
theorem making (h : s.Settled strays) {mode : String}
    {make : Surface → Except SurfaceFault HandleId × Surface}
    (hcases : (∃ shape : Shape, shape.mode = mode ∧ ∀ s : Surface, make s =
        (.ok s.handles.size, (s.addHandle mode shape).2.unhide s.handles.size)) ∨
      ∃ e, ∀ s : Surface, make s = (.error e, (s.addTrace mode).2)) :
    (make s).2.Settled (strays ++ s.strayOf (make s).1) := by
  rcases hcases with ⟨shape, hmode, hmake⟩ | ⟨e, hmake⟩
  · rw [hmake]
    exact (List.append_nil strays).symm ▸ (h.addHandle hmode.symm).setVisible _ true
  · rw [hmake]
    exact h.addTrace mode

theorem run (h : s.Settled strays) (a : Action) : (a.run s).Settled (strays ++ a.strays s) := by
  cases a with
  | createCurve r =>
    show (s.createCurve r).2.Settled (strays ++ s.strayOf (s.createCurve r).1)
    obtain ⟨shape, hmode, hr⟩ | ⟨e, hr⟩ := createCurve_cases r
    · rw [hr]
      exact (List.append_nil strays).symm ▸ h.addHandle hmode.symm
    · rw [hr]
      exact h.addTrace "lines"
  | createMarker coords r => exact h.making (createMarker_cases coords r)
  | createSegment start finish r => exact h.making (createSegment_cases start finish r)
  | set n f => exact (List.append_nil strays).symm ▸ h.modify n (.setter f) (.setter f)
  | update n => exact (List.append_nil strays).symm ▸ h.update n
  | unhide n => exact (List.append_nil strays).symm ▸ h.setVisible n true
  | hide n => exact (List.append_nil strays).symm ▸ h.setVisible n false
  | updateCurve n => exact (List.append_nil strays).symm ▸ h.updateCurve n
  | remove n => exact (List.append_nil strays).symm ▸ h.remove n
  | setBounds d => exact (List.append_nil strays).symm ▸ h.setBounds d

end Settled

end Surface

/-! ## Runs -/

variable {s : Surface} {brackets : Nat} {strays : List Nat}

/-- In every state the accounts agree, and the number of suspensions is that of the brackets that are
open. -/
theorem Reached.settled (h : Reached s brackets strays) : s.depth = brackets ∧ s.Settled strays := by
  induction h with
  | create new => exact ⟨Surface.depth_create new, .create new⟩
  | act _ a ih => exact ⟨(Surface.depth_run _ a).trans ih.1, ih.2.run a⟩
  | suspend _ ih => exact ⟨congrArg Nat.succ ih.1, ih.2.suspend⟩
  | resume _ ih => exact ⟨by rw [Surface.depth_resume, ih.1, Nat.add_sub_cancel], ih.2.resume⟩

/-- The accounts of a surface in every state that can be reached. The traces of the figure are those of
the live handles, each once and in their order, and beside these only the invisible ones that were
left when a handle could not be made. So the figure shows the live handles and nothing else exactly if
no handle failed to be made. The live handles are those that were not removed; only they are queued;
and while no suspension is open the queue is empty, and each of them is as visible as its trace. -/
theorem reached_accounts (h : Reached s brackets strays) :
    (s.figure.map Trace.id).filter (fun i => decide (i ∉ strays)) = s.traces ∧
    (s.figure.map Trace.id).Nodup ∧
    (s.figure.map Trace.id = s.traces ↔ strays = []) ∧
    (∀ t ∈ s.figure, t.id ∈ strays → t.visible = false) ∧
    (∀ n, n ∈ s.live ↔ s.Live n) ∧ (∀ n ∈ s.queue, s.Live n) ∧ s.depth = brackets ∧
    (brackets = 0 → s.queue = [] ∧ ∀ n, s.Agrees n) := by
  obtain ⟨hdepth, hs⟩ := h.settled
  refine ⟨hs.traces, hs.coherent.ids_nodup, ⟨fun heq => ?_, ?_⟩, hs.hidden, hs.live_iff,
    fun n hn => (hs.live_iff n).mp (hs.queue_live n hn), hdepth, fun hzero => ?_⟩
  · -- a stray would be a trace of a live handle
    refine List.eq_nil_iff_forall_not_mem.mpr fun i hi => ?_
    have hmem := hs.stray_mem i hi
    rw [heq, ← hs.traces, List.mem_filter] at hmem
    exact of_decide_eq_true hmem.2 hi
  · rintro rfl
    rw [← hs.traces]
    simp
  · have hqueue := hs.idle (hdepth.trans hzero)
    refine ⟨hqueue, fun n => (hs.shown n).resolve_left ?_⟩
    rw [hqueue]
    exact List.not_mem_nil

/-- A point with one coordinate is not made, and its trace stays. -/
theorem reached_accounts_stray :
    ∃ s : Surface, Reached s 0 [0] ∧ s.live = [] ∧ s.figure.map Trace.id ≠ s.traces := by
  have hnew : Surface.create? 10 10 ⟨0, 1, 0, 1⟩ =
      .ok { width := 10, height := 10, bounds := ⟨0, 1, 0, 1⟩ } := rfl
  have hrun := (Reached.create hnew).act (.createMarker [1] ⟨{}, none⟩)
  obtain ⟨-, -, hiff, -⟩ := reached_accounts hrun
  exact ⟨_, hrun, rfl, fun heq => List.cons_ne_nil _ _ (hiff.mp heq)⟩

end Graphing
