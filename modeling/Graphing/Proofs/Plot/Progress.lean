/-
  Graphing.Proofs.Plot.Progress

  From the pieces of an earlier plot to the pieces of the next one.

  A plot first hides the pieces that it is given: then all of their handles are
  queued, and nothing is to be seen of them (`Hiding`).  Doing one job after
  the other keeps three groups of pieces apart (`Sketched`): those that show a
  sketch, in the order of the jobs, those that can still be used, and those
  that could not be drawn with.  The last two stay blank.  When the
  suspension ends, exactly the sketches can be seen.
-/
import Graphing.Proofs.Plot.Jobs

open Graphing.Relation (Classification Family)

namespace Graphing

/-! ## Pictures -/

namespace Frame

/-- The sketch of a segment that is drawn; excluded values are left for later. -/
def sketchOf? (f : Frame) (style : PlotStyle) (holes : List Float) (fast : Bool)
    (s : List Char × Classification) : Option Sketch :=
  if s.2.family == .asymptote then none
  else (f.sketch s.1 s.2 style holes fast).toOption

/-- All sketches of a relation: those of its segments, and the marks of excluded values. -/
def picture (f : Frame) (style : PlotStyle) (holes : List Float) (fast : Bool)
    (segments : List (List Char × Classification)) : List Sketch :=
  let sketches := segments.filterMap (f.sketchOf? style holes fast)
  sketches ++ holes.map (f.mark style (sketches.filterMap (·.source)))

end Frame

namespace Canvas

variable {c c' : Canvas} {ns rest : List PieceId} {n : PieceId}

/-! ## Hiding pieces -/

/-- Pieces of which some handles are hidden and queued. -/
structure Hiding (c : Canvas) (ns : List PieceId) (ks : List HandleId) : Prop where
  coherent : c.surface.Coherent
  suspended : c.surface.depth ≠ 0
  owned : c.Owned ns
  hidden : ∀ k ∈ ks, k ∈ c.surface.queue ∧ c.surface.shape? k = none

namespace Hiding

/-- Hide one more handle. -/
theorem hide {ks : List HandleId} (h : c.Hiding ns ks) {k : HandleId} {a : Spot} (hn : n ∈ ns)
    (hk : c.spot? n a = some k) :
    (c.onSurface fun s => s.hide k).Hiding ns (ks ++ [k]) := by
  obtain ⟨l, hl, hlive, -⟩ := h.owned.live n hn a k hk
  have hhandle : ∀ j, (c.surface.hide k).handle? j =
      if k = j then (c.surface.handle? j).map (fun l => { l with visible := false })
      else c.surface.handle? j := fun j => Surface.handle?_modify_update _ _ _ _
  have hqueue : ∀ j ∈ c.surface.queue, j ∈ (c.surface.hide k).queue := fun j hj =>
    Surface.mem_queue_update (s := c.surface.modify k fun l => { l with visible := false })
      h.suspended hj
  have hshape : ∀ j, c.surface.shape? j = none → (c.surface.hide k).shape? j = none := by
    intro j hj
    rw [Surface.shape?, hhandle]
    split
    · cases c.surface.handle? j <;> rfl
    · exact hj
  -- only a flag of one handle changes, so that all pieces keep what they own
  refine ⟨?_, ?_, ⟨h.owned.nodup, h.owned.exists_piece, ?_, h.owned.inj, h.owned.implicit⟩, ?_⟩
  · refine Surface.Coherent.update (h.coherent.modify fun l _ => ?_) k
    exact ⟨rfl, rfl, .refl _⟩
  · show ((c.surface.modify k _).update k).depth ≠ 0
    rw [Surface.depth_update]
    exact h.suspended
  · intro m hm b j hj
    obtain ⟨l', hl', hlive', hfits⟩ := h.owned.live m hm b j hj
    show ∃ l, (c.surface.hide k).handle? j = some l ∧ _
    rw [hhandle, hl']
    split
    · exact ⟨_, rfl, hlive', hfits⟩
    · exact ⟨_, rfl, hlive', hfits⟩
  · intro j hj
    rcases List.mem_append.mp hj with hj | hj
    · obtain ⟨hq, hs⟩ := h.hidden j hj
      exact ⟨hqueue j hq, hshape j hs⟩
    · obtain rfl := List.mem_singleton.mp hj
      constructor
      · refine Surface.mem_queue_update_self (s := c.surface.modify j _) h.suspended
          (k := { l with visible := false }) ?_ hlive
        rw [Surface.handle?_modify, if_pos rfl, hl]
        rfl
      · show (c.surface.hide j).shape? j = none
        rw [Surface.shape?, hhandle, if_pos rfl, hl]
        rfl

theorem foldl_hide {ks : List HandleId} (h : c.Hiding ns ks) (hn : n ∈ ns) (js : List HandleId)
    (hjs : ∀ k ∈ js, ∃ a, c.spot? n a = some k) :
    (c.onSurface fun s => js.foldl Surface.hide s).Hiding ns (ks ++ js) := by
  induction js generalizing c ks with
  | nil =>
    rw [List.append_nil]
    exact h
  | cons j js ih =>
    obtain ⟨a, ha⟩ := hjs j List.mem_cons_self
    have hstep := ih (h.hide hn ha) fun k hk => hjs k (List.mem_cons_of_mem j hk)
    rw [List.append_assoc] at hstep
    exact hstep

/-- Hide a piece. -/
theorem hidePiece {ks : List HandleId} (h : c.Hiding ns ks) (hn : n ∈ ns) :
    (c.hidePiece n).Hiding ns (ks ++ c.handles n) := by
  have hhide := h.foldl_hide hn (c.handles n) fun k hk => Canvas.mem_handles.mp hk
  have hspot : ∀ p (a : Spot), a.get { p with active := false } = a.get p := by
    intro p a
    cases a with
    | part σ => cases σ <;> rfl
    | contour i => rfl
  have hall := spot?_modify_eq hspot (c.onSurface fun s => (c.handles n).foldl Surface.hide s) n
  refine ⟨hhide.coherent, hhide.suspended, ⟨h.owned.nodup, ?_, ?_, ?_, ?_⟩, hhide.hidden⟩
  · intro m hm
    obtain ⟨p, hp⟩ := hhide.owned.exists_piece m hm
    rw [Canvas.hidePiece, piece?_modify, hp]
    split <;> exact ⟨_, rfl⟩
  · intro m hm a k hk
    exact hhide.owned.live m hm a k ((hall m a).symm.trans hk)
  · intro m hm m' hm' a b k hk hk'
    exact hhide.owned.inj m hm m' hm' a b k ((hall m a).symm.trans hk) ((hall m' b).symm.trans hk')
  · intro m hm q hq hne
    rw [Canvas.hidePiece, piece?_modify] at hq
    split at hq
    · obtain ⟨p, hp, rfl⟩ := Option.map_eq_some_iff.mp hq
      exact hhide.owned.implicit m hm p hp hne
    · exact hhide.owned.implicit m hm q hq hne

end Hiding

/-- Hiding a piece keeps which handles belong to which piece. -/
theorem spot?_hidePiece (c : Canvas) (n m : PieceId) (a : Spot) :
    (c.hidePiece n).spot? m a = c.spot? m a := by
  refine spot?_modify_eq (fun p a => ?_) (c.onSurface fun s => (c.handles n).foldl Surface.hide s) n m a
  cases a with
  | part σ => cases σ <;> rfl
  | contour i => rfl

theorem depth_hidePiece (c : Canvas) (n : PieceId) :
    (c.hidePiece n).surface.depth = c.surface.depth :=
  foldl_keeps Surface.depth Surface.depth_hide _ _

/-- Hide several pieces. -/
theorem Hiding.foldl_hidePiece {ks : List HandleId} (h : c.Hiding ns ks) (ms : List PieceId)
    (hms : ∀ m ∈ ms, m ∈ ns) :
    ∃ js, (ms.foldl Canvas.hidePiece c).Hiding ns js ∧ (∀ k ∈ ks, k ∈ js) ∧
      (∀ m ∈ ms, ∀ a k, c.spot? m a = some k → k ∈ js) ∧
      ∀ m a, (ms.foldl Canvas.hidePiece c).spot? m a = c.spot? m a := by
  induction ms generalizing c ks with
  | nil => exact ⟨ks, h, fun _ hk => hk, fun _ hm => absurd hm List.not_mem_nil, fun _ _ => rfl⟩
  | cons m ms ih =>
    obtain ⟨js, hjs, hold, hnew, hspot⟩ := ih (h.hidePiece (hms m List.mem_cons_self))
      fun m' hm' => hms m' (List.mem_cons_of_mem m hm')
    refine ⟨js, hjs, fun k hk => hold k (List.mem_append_left _ hk), ?_, ?_⟩
    · intro m' hm' a k hk
      rcases List.mem_cons.mp hm' with rfl | hm'
      · exact hold k (List.mem_append_right _ (mem_handles.mpr ⟨a, hk⟩))
      · exact hnew m' hm' a k ((spot?_hidePiece c m m' a).trans hk)
    · intro m' a
      exact (hspot m' a).trans (spot?_hidePiece c m m' a)

/-- Pieces that own their handles, on a surface where updates are not suspended: what a plot is
given. -/
structure Ready (c : Canvas) (ns : List PieceId) : Prop where
  coherent : c.surface.Coherent
  depth : c.surface.depth = 0
  owned : c.Owned ns

/-- Within a suspension of its own, a plot first makes all of its pieces blank. -/
theorem Owned.begin (hcoherent : c.surface.Coherent) (howned : c.Owned ns) :
    let c' := (Progress.start c ns).canvas
    c'.InPlot ns ∧ (∀ n ∈ ns, c'.Blank n) ∧ c'.surface.depth = c.surface.depth + 1 := by
  intro c'
  have hstart : (c.onSurface Surface.suspend).Hiding ns [] :=
    ⟨hcoherent.congr rfl rfl rfl, Nat.succ_ne_zero _,
      ⟨howned.nodup, howned.exists_piece, howned.live, howned.inj, howned.implicit⟩,
      fun _ hk => by cases hk⟩
  obtain ⟨ks, hks, -, hall, hspot⟩ := hstart.foldl_hidePiece ns fun _ hn => hn
  refine ⟨⟨hks.coherent, hks.suspended, hks.owned, ?_⟩, ?_, ?_⟩
  · intro n hn a k hk
    exact (hks.hidden k (hall n hn a k ((hspot n a).symm.trans hk))).1
  · intro n hn a
    rw [shapeAt]
    cases hk : c'.spot? n a with
    | none => rfl
    | some k => exact (hks.hidden k (hall n hn a k ((hspot n a).symm.trans hk))).2
  · exact foldl_keeps (fun c : Canvas => c.surface.depth) depth_hidePiece ns
      (c.onSurface Surface.suspend)

/-! ## Sketches of jobs -/

theorem filterMap_cons_eq {α β : Type} (f : α → Option β) (a : α) (as : List α) :
    (a :: as).filterMap f = (f a).toList ++ as.filterMap f := by
  rw [List.filterMap_cons]
  cases f a <;> rfl

/-- What some jobs draw. -/
def sketchesOf (jobs : List Job) : List Sketch := jobs.filterMap fun j => j.sketch.toOption

theorem sketchesOf_append (jobs jobs' : List Job) :
    sketchesOf (jobs ++ jobs') = sketchesOf jobs ++ sketchesOf jobs' := List.filterMap_append

theorem sketchesOf_singleton (j : Job) : sketchesOf [j] = j.sketch.toOption.toList := by
  rw [sketchesOf, filterMap_cons_eq]
  exact List.append_nil _

theorem sketchesOf_segmentJobs (f : Frame) (style : PlotStyle) (holes : List Float) (fast : Bool)
    (segments : List (List Char × Classification)) :
    sketchesOf (segmentJobs f style holes fast segments) =
      segments.filterMap (f.sketchOf? style holes fast) := by
  unfold sketchesOf segmentJobs
  rw [List.filterMap_map, List.filterMap_filter]
  refine List.filterMap_congr fun s _ => ?_
  unfold Frame.sketchOf?
  cases hs : s.2.family == Family.asymptote
  · rw [bne, hs]
    rfl
  · rw [bne, hs]
    rfl

theorem sketchesOf_markJobs (f : Frame) (style : PlotStyle)
    (functions : List ((Float → Float) × Interval Float)) (values : List Float) :
    sketchesOf (markJobs f style functions values) = values.map (f.mark style functions) := by
  rw [sketchesOf, markJobs, List.filterMap_map]
  exact congrFun (List.filterMap_eq_map (f := f.mark style functions)) values

theorem Keeps.note? (h : Keeps c c' ns) (hn : n ∈ ns) : c'.note? n = c.note? n := by
  rw [Canvas.note?, Canvas.note?, h.piece n hn]

theorem Keeps.blank (h : Keeps c c' ns) (hn : n ∈ ns) (hblank : c.Blank n) : c'.Blank n :=
  fun a => (h.shapeAt hn a).trans (hblank a)

theorem Keeps.sketch (h : Keeps c c' ns) (hn : n ∈ ns) : c'.sketch n = c.sketch n := by
  refine Sketch.ext (funext fun σ => h.shapeAt hn _) ?_ ?_
  · exact contourShapes_congr (fun i => h.spot? hn _) fun i k hk => h.handle n hn _ k hk
  · show (c'.note? n).bind _ = (c.note? n).bind _
    rw [h.note? hn]

/-! ## One job after the other -/

/-- Where a plot is: the pieces that can still be used, and those that could not be drawn with, are
blank. -/
structure Pooled (p : Progress) : Prop where
  plot : p.canvas.InPlot (p.drawn ++ (p.pool ++ p.spare))
  blank : ∀ n ∈ p.pool ++ p.spare, p.canvas.Blank n

/-- A job is done with a piece, or a new one, beside the rest of the pieces. -/
theorem Pooled.run {f : Frame} {p : Progress} (h : Pooled p) (hf : p.canvas.surface.frame = f)
    {j : Job} (hj : j.OfPlot f) :
    let rest := p.drawn ++ ((p.take j.kind).2.pool ++ p.spare)
    Pooled (p.run j) ∧ Keeps p.canvas (p.run j).canvas rest ∧
      p.canvas.Draws (p.take j.kind).1 rest j.sketch (j.draw p.canvas (p.take j.kind).1) := by
  have hperm := p.take_perm j.kind
  have hall := p.groups_perm j.kind
  have hdraws : ∀ rest, p.canvas.InPlot ((p.take j.kind).1.toList ++ rest) →
      (∀ m, (p.take j.kind).1 = some m → p.canvas.Blank m) →
      p.canvas.Draws (p.take j.kind).1 rest j.sketch (j.draw p.canvas (p.take j.kind).1) :=
    fun _ hplot hblank => hj.draws hf hplot hblank
  unfold Progress.run
  rw [p.take_eq j.kind]
  generalize (p.take j.kind).2.pool = pool at hperm hall ⊢
  generalize (p.take j.kind).1 = existing at hperm hall hdraws ⊢
  intro rest
  have hblank : ∀ m, m ∈ existing.toList ++ pool → p.canvas.Blank m := fun m hm =>
    h.blank m (List.mem_append_left _ (hperm.mem_iff.mp hm))
  have hexisting : ∀ m, existing = some m → p.canvas.Blank m := by
    rintro m rfl
    exact hblank m (List.mem_append_left _ List.mem_cons_self)
  have hrest : ∀ m ∈ pool ++ p.spare, m ∈ rest := fun m hm => List.mem_append_right _ hm
  have hold : ∀ m ∈ pool ++ p.spare, p.canvas.Blank m := by
    intro m hm
    rcases List.mem_append.mp hm with hm | hm
    · exact hblank m (List.mem_append_right _ hm)
    · exact h.blank m (List.mem_append_right _ hm)
  have hdrawn := hdraws rest (h.plot.perm hall) hexisting
  generalize j.draw p.canvas existing = outcome at hdrawn ⊢
  generalize j.sketch = sketch at hdrawn ⊢
  suffices hpooled : Pooled _ ∧ Keeps p.canvas _ rest from ⟨hpooled.1, hpooled.2, hdrawn⟩
  -- the piece is added to those that are drawn, or to the spare ones, at the end of either
  cases hdrawn with
  | @drawn c' s plot keeps shows =>
    refine ⟨⟨plot.perm ?_, fun m hm => keeps.blank (hrest m hm) (hold m hm)⟩, keeps⟩
    show (_ :: (p.drawn ++ (pool ++ p.spare))).Perm ((p.drawn ++ [_]) ++ (pool ++ p.spare))
    rw [List.append_assoc]
    exact List.perm_middle.symm
  | @failed c' e plot keeps blank =>
    refine ⟨⟨plot.perm ?_, ?_⟩, keeps⟩
    · show (existing.toList ++ (p.drawn ++ (pool ++ p.spare))).Perm
        (p.drawn ++ (pool ++ (p.spare ++ existing.toList)))
      refine List.perm_append_comm.trans ?_
      rw [List.append_assoc, List.append_assoc]
    · intro m hm
      replace hm : m ∈ pool ++ (p.spare ++ existing.toList) := hm
      rw [← List.append_assoc] at hm
      rcases List.mem_append.mp hm with hm | hm
      · exact keeps.blank (hrest m hm) (hold m hm)
      · exact blank m (Option.mem_toList.mp hm)

theorem Pooled.exists_piece {p : Progress} (h : Pooled p) (kind : PieceKind) :
    ∀ n, (p.take kind).1 = some n → ∃ q, p.canvas.piece? n = some q := fun n hn =>
  h.plot.owned.exists_piece n (Progress.mem_groups_of_take hn)

/-- Where a plot is, within suspensions of some depth: some pieces show the sketches that were drawn
so far, and all others are blank. -/
structure Sketched (f : Frame) (d : Nat) (p : Progress) (sketches : List Sketch) : Prop where
  plot : p.canvas.InPlot (p.drawn ++ (p.pool ++ p.spare))
  frame : p.canvas.surface.frame = f
  depth : p.canvas.surface.depth = d
  blank : ∀ n ∈ p.pool ++ p.spare, p.canvas.Blank n
  shows : p.drawn.map p.canvas.sketch = sketches

theorem Sketched.run {f : Frame} {d : Nat} {p : Progress} {done : List Job}
    (h : Sketched f d p (sketchesOf done)) {j : Job} (hj : j.OfPlot f) :
    Sketched f d (p.run j) (sketchesOf (done ++ [j])) := by
  obtain ⟨hpooled, hkeeps, hdrawn⟩ := Pooled.run ⟨h.plot, h.blank⟩ h.frame hj
  refine ⟨hpooled.plot, hkeeps.frame.trans h.frame, hkeeps.depth.trans h.depth, hpooled.blank, ?_⟩
  have hshows : p.drawn.map (p.run j).canvas.sketch = sketchesOf done := by
    rw [← h.shows]
    exact List.map_congr_left fun m hm => hkeeps.sketch (List.mem_append_left _ hm)
  rw [sketchesOf_append, sketchesOf_singleton, ← hshows]
  unfold Progress.run
  rw [p.take_eq j.kind]
  generalize j.draw _ _ = outcome at hdrawn ⊢
  generalize j.sketch = sketch at hdrawn ⊢
  cases hdrawn with
  | @drawn c' s plot keeps shows =>
    show (p.drawn ++ [_]).map c'.sketch = _
    rw [List.map_append, List.map_singleton, shows]
    rfl
  | @failed c' e plot keeps blank => exact (List.append_nil _).symm

/-! ## What can be seen of pieces -/

/-- The looks of the visible traces of some pieces. -/
def looks (c : Canvas) (ns : List PieceId) : List Look :=
  (ns.flatMap c.handles).filterMap c.surface.seen?

theorem shapes_sketch (c : Canvas) (n : PieceId) :
    (c.sketch n).shapes = (c.handles n).filterMap c.surface.shape? := by
  unfold Sketch.shapes sketch contourShapes contours handles
  cases hp : c.piece? n with
  | none =>
    have hpart : ∀ σ : Part, c.shapeAt n (.part σ) = none := by
      intro σ
      rw [shapeAt, spot?, hp]
      rfl
    simp [hpart]
  | some p =>
    have hpart : ∀ σ : Part, c.shapeAt n (.part σ) = (σ.get p).bind c.surface.shape? := by
      intro σ
      rw [shapeAt, spot?, hp]
      rfl
    simp only [Option.map_some, Option.getD_some, Piece.handles_eq, List.filterMap_append,
      List.filterMap_filterMap, hpart]

theorem Blank.shapes_sketch (h : c.Blank n) : (c.sketch n).shapes = [] := by
  have hparts : (c.sketch n).parts = fun _ => none := funext fun σ => h (.part σ)
  have hcontours : (c.sketch n).contours = [] := h.contourShapes
  rw [Sketch.shapes, hparts, hcontours]
  rfl

/-- After the outermost suspension the pieces of a plot look as they are to be seen. -/
theorem InPlot.resume (h : c.InPlot ns) (hdepth : c.surface.depth = 1) :
    (c.onSurface Surface.resume).Ready ns ∧
      (c.onSurface Surface.resume).surface.frame = c.surface.frame ∧
      (c.onSurface Surface.resume).looks ns =
        ns.flatMap fun n => (c.sketch n).shapes.map Shape.look := by
  let s : Surface := { c.surface with depth := 0 }
  have hs : c.surface.resume = s.flush := Surface.resume_of_depth hdepth
  have hcoherent : s.Coherent := h.coherent.congr rfl rfl rfl
  have hhandles : ∀ k, c.surface.resume.handle? k = c.surface.handle? k := by
    intro k
    rw [hs, Surface.handle?, Surface.handles_flush, Surface.handle?]
  -- the outermost suspension ends in a flush, which shows every queued handle
  refine ⟨⟨?_, ?_, h.owned.nodup, h.owned.exists_piece, ?_, h.owned.inj, h.owned.implicit⟩, ?_, ?_⟩
  · show c.surface.resume.Coherent
    rw [hs]
    exact hcoherent.flush
  · show c.surface.resume.depth = 0
    rw [hs, Surface.depth_flush]
  · intro n hn a k hk
    show ∃ l, c.surface.resume.handle? k = some l ∧ _
    rw [hhandles]
    exact h.owned.live n hn a k hk
  · show c.surface.resume.frame = _
    rw [hs, Surface.frame_flush]
    rfl
  · unfold looks
    rw [List.filterMap_flatMap]
    refine List.flatMap_congr fun n hn => ?_
    rw [shapes_sketch, List.map_filterMap]
    refine List.filterMap_congr fun k hk => ?_
    obtain ⟨a, ha⟩ := mem_handles.mp hk
    obtain ⟨l, hl, hlive, -⟩ := h.owned.live n hn a k ha
    have hshown : s.flush.Shown k := Surface.shown_flush hcoherent (h.queued n hn a k ha)
    have hflush : s.flush.handle? k = some l := by
      rw [← hs, hhandles, hl]
    show c.surface.resume.seen? k = (c.surface.shape? k).map Shape.look
    rw [hs, hshown.seen?_eq hcoherent.flush hflush hlive, Surface.shape?, hflush, Surface.shape?, hl]

/-! ## Whole plots -/

theorem functionsOf_eq (c : Canvas) (ns : List PieceId) :
    c.functionsOf ns = (ns.map c.sketch).filterMap (·.source) := by
  rw [functionsOf, List.filterMap_map]
  refine List.filterMap_congr fun n _ => ?_
  show _ = (c.note? n).bind Note.source?
  rw [note?]
  cases c.piece? n <;> rfl

/-- The pieces of a plot show its sketches. -/
theorem Sketched.resume {f : Frame} {p : Progress} {sketches : List Sketch}
    (h : Sketched f 1 p sketches) :
    let c' := p.canvas.onSurface Surface.resume
    c'.Ready p.groups ∧ c'.surface.frame = f ∧
      c'.looks p.groups = sketches.flatMap fun s => s.shapes.map Shape.look := by
  obtain ⟨hready, hframe, hlooks⟩ := h.plot.resume h.depth
  refine ⟨hready, hframe.trans h.frame, hlooks.trans ?_⟩
  have hblank : ((p.pool ++ p.spare).flatMap fun n =>
      (p.canvas.sketch n).shapes.map Shape.look) = [] := by
    rw [List.flatMap_eq_nil_iff]
    intro n hn
    rw [(h.blank n hn).shapes_sketch]
    rfl
  rw [List.flatMap_append, hblank, List.append_nil, ← h.shows, List.flatMap_map]

/-- A plot starts without a sketch. -/
theorem Owned.start (hcoherent : c.surface.Coherent) (h : c.Owned ns) :
    Sketched c.surface.frame (c.surface.depth + 1) (.start c ns) (sketchesOf []) := by
  obtain ⟨hplot, hblank, hdepth⟩ := h.begin hcoherent
  refine ⟨?_, Progress.frame_start c ns, hdepth, ?_, rfl⟩
  · show InPlot _ ([] ++ (ns ++ []))
    rw [List.nil_append, List.append_nil]
    exact hplot
  · show ∀ n ∈ ns ++ [], _
    rw [List.append_nil]
    exact hblank

/-- The marks are told by the functions among the sketches of the segments. -/
theorem Sketched.picture {f : Frame} {d : Nat} {p : Progress} {style : PlotStyle}
    {holes : List Float} {fast : Bool} {segments : List (List Char × Classification)}
    (h : Sketched f d p (sketchesOf (segmentJobs f style holes fast segments))) :
    sketchesOf (segmentJobs f style holes fast segments ++
        markJobs f style (p.canvas.functionsOf p.drawn) holes) =
      f.picture style holes fast segments := by
  rw [sketchesOf_append, sketchesOf_markJobs, functionsOf_eq, h.shows, sketchesOf_segmentJobs]
  rfl

section

variable {options : PlotOptions} {style : PlotStyle}
  (hstyle : PlotStyle.ofOptions? options.style = .ok style)

include hstyle

/-- A plot gives the pieces that show its picture, and then those that are left over. -/
theorem Owned.plot (hcoherent : c.surface.Coherent) (h : c.Owned ns) (relation : List Char)
    {holes : List Float} (hholes : holeValues (segmentsOf relation options.name) = .ok holes) :
    ∃ p : Progress,
      c.plot relation options ns =
        (.ok { pieces := p.groups, skipped := p.skipped }, p.canvas.onSurface Surface.resume) ∧
      Sketched c.surface.frame (c.surface.depth + 1) p
        (c.surface.frame.picture style holes options.fast (segmentsOf relation options.name)) := by
  obtain ⟨shown, marked, heq, hshown, hmarked⟩ := plot_rec hstyle c relation ns hholes
    (P := fun p done => Sketched c.surface.frame (c.surface.depth + 1) p (sketchesOf done))
    (h.start hcoherent) fun _ _ _ hj _ hp => hp.run hj
  rw [hshown.picture] at hmarked
  exact ⟨marked, heq, hmarked⟩

/-- What a plot shows depends on the frame and on what is plotted, but not on the pieces that it is
given. -/
theorem Ready.plot (h : c.Ready ns) (relation : List Char) {holes : List Float}
    (hholes : holeValues (segmentsOf relation options.name) = .ok holes) :
    ∃ r c', c.plot relation options ns = (.ok r, c') ∧ c'.Ready r.pieces ∧
      c'.surface.frame = c.surface.frame ∧
      c'.looks r.pieces = (c.surface.frame.picture style holes options.fast
        (segmentsOf relation options.name)).flatMap fun s => s.shapes.map Shape.look := by
  obtain ⟨p, heq, hp⟩ := h.owned.plot hstyle h.coherent relation hholes
  rw [h.depth] at hp
  obtain ⟨hready, hframe, hlooks⟩ := hp.resume
  exact ⟨_, _, heq, hready, hframe, hlooks⟩

/-- A plot of a relation whose excluded values cannot be told leaves the pieces blank. -/
theorem Ready.plot_of_untold (h : c.Ready ns) (relation : List Char) {hole : Hole}
    (hholes : holeValues (segmentsOf relation options.name) = .error hole) :
    ∃ c', c.plot relation options ns = (.error (.hole hole), c') ∧ c'.Ready ns ∧
      c'.surface.frame = c.surface.frame := by
  obtain ⟨hplot, -, hdepth⟩ := h.owned.begin h.coherent
  obtain ⟨hready, hframe, -⟩ := hplot.resume (by rw [hdepth, h.depth])
  exact ⟨_, plot_eq_of_untold hstyle c relation ns hholes, hready,
    hframe.trans (Progress.frame_start c ns)⟩

end

end Canvas

end Graphing
