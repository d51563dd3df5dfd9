/-
  Graphing.Proofs.Plot.Skipping

  What a skipped segment leaves behind.

  A segment that cannot be drawn may take a piece out of the pool, note its
  relation there and remove its contours, so the segments after it get other
  pieces.  But it adds no sketch and excludes no value: the picture is that of
  the relation without it, and the figure shows the picture and what others
  show.  Without pieces to use again the segment does not even touch the
  surface.
-/
import Graphing.Proofs.Plot.Figure
import Graphing.Proofs.Plot.Twins

open Graphing.Relation (Classification Family)

namespace Graphing

/-! ## Without the skipped segments -/

/-- Whether a relation lists those segments of another one that a plot of it did not skip. -/
def PlotResult.Keeps (r : PlotResult) (relation rest : List Char) : Prop :=
  Relation.pieces (Text.lower rest) =
    (Relation.pieces (Text.lower relation)).filter fun t => !r.skips t

instance (r : PlotResult) (relation rest : List Char) : Decidable (r.Keeps relation rest) :=
  inferInstanceAs (Decidable (_ = _))

namespace Frame

variable {f : Frame} {style : PlotStyle} {holes : List Float} {fast : Bool}
  {s : List Char × Classification}

/-- A skipped segment excludes no value, and has no sketch. -/
theorem skip?_isSome : (f.skip? style holes fast s).isSome ↔
    s.2.family ≠ .asymptote ∧ ∃ e, f.sketch s.1 s.2 style holes fast = .error e := by
  unfold skip?
  cases hfamily : s.2.family == Family.asymptote
  · have hne : s.2.family ≠ .asymptote := beq_eq_false_iff_ne.mp hfamily
    cases f.sketch s.1 s.2 style holes fast with
    | error e => exact iff_of_true rfl ⟨hne, e, rfl⟩
    | ok sketch =>
      refine iff_of_false Bool.false_ne_true ?_
      rintro ⟨-, e, he⟩
      cases he
  · exact iff_of_false Bool.false_ne_true fun h => h.1 (beq_iff_eq.mp hfamily)

theorem sketchOf?_of_skip (h : (f.skip? style holes fast s).isSome) :
    f.sketchOf? style holes fast s = none := by
  obtain ⟨hfamily, e, he⟩ := skip?_isSome.mp h
  rw [sketchOf?, if_neg (by simpa using hfamily), he]
  rfl

theorem sketches_filter (f : Frame) (style : PlotStyle) (holes : List Float) (fast : Bool)
    (segments : List (List Char × Classification)) :
    (segments.filter fun s => !(f.skip? style holes fast s).isSome).filterMap
        (f.sketchOf? style holes fast) = segments.filterMap (f.sketchOf? style holes fast) := by
  rw [List.filterMap_filter]
  refine List.filterMap_congr fun s _ => ?_
  cases hskip : (f.skip? style holes fast s).isSome
  · rfl
  · exact (sketchOf?_of_skip hskip).symm

/-- The picture is that of the segments that are not skipped. -/
theorem picture_filter (f : Frame) (style : PlotStyle) (holes : List Float) (fast : Bool)
    (segments : List (List Char × Classification)) :
    f.picture style holes fast
        (segments.filter fun s => !(f.skip? style holes fast s).isSome) =
      f.picture style holes fast segments := by
  unfold picture
  rw [sketches_filter]

end Frame

namespace Canvas

variable {c c' : Canvas} {ns : List PieceId}

/-- The excluded values are those of the segments that are not skipped. -/
theorem holeValues_filter (f : Frame) (style : PlotStyle) (holes : List Float) (fast : Bool)
    (segments : List (List Char × Classification)) :
    holeValues (segments.filter fun s => !(f.skip? style holes fast s).isSome) =
      holeValues segments := by
  have hmarked : ((segments.filter fun s => !(f.skip? style holes fast s).isSome).filter fun s =>
      s.2.family == .asymptote) = segments.filter fun s => s.2.family == .asymptote := by
    rw [List.filter_filter]
    refine List.filter_congr fun s _ => ?_
    cases hfamily : s.2.family == Family.asymptote
    · rfl
    · have hskip : ¬(f.skip? style holes fast s).isSome := fun h =>
        (Frame.skip?_isSome.mp h).1 (beq_iff_eq.mp hfamily)
      simpa using hskip
  unfold holeValues
  rw [hmarked]

theorem segmentsOf_of_keeps {f : Frame} {style : PlotStyle} {holes : List Float} {fast : Bool}
    {relation rest : List Char} {name : String} {r : PlotResult}
    (hr : r.skipped = (segmentsOf relation name).filterMap (f.skip? style holes fast))
    (hrest : r.Keeps relation rest) :
    segmentsOf rest name =
      (segmentsOf relation name).filter fun s => !(f.skip? style holes fast s).isSome := by
  have hkept : (segmentsOf relation name).filter (fun s => !r.skips s.1) =
      (segmentsOf relation name).filter fun s => !(f.skip? style holes fast s).isSome :=
    List.filter_congr fun s hs => by rw [skips_eq hr hs]
  rw [← hkept, segmentsOf, show Relation.pieces _ = _ from hrest, segmentsOf, List.filter_map]
  rfl

/-! ## Pieces to be used again -/

/-- A plot of all segments shows the same as one of those that were not skipped, at once or when all
suspensions have ended. -/
theorem Owned.plot_kept (hcoherent : c.surface.Coherent)
    (hidle : c.surface.depth = 0 → c.surface.queue = []) (h : c.Owned ns)
    {relation rest : List Char} {options : PlotOptions} {r : PlotResult}
    (hplot : c.plot relation options ns = (.ok r, c'))
    (hrest : r.Keeps relation rest) :
    ∃ r' c'', c.plot rest options ns = (.ok r', c'') ∧
      c''.surface.settle.seen.Perm c'.surface.settle.seen ∧
      (c.surface.depth = 0 → c''.surface.seen.Perm c'.surface.seen) := by
  obtain ⟨style, hstyle, hholes, hskipped⟩ := plot_of_ok hplot
  have hkept := segmentsOf_of_keeps hskipped hrest
  have hholes' : holeValues (segmentsOf rest options.name) =
      .ok (holesOf (segmentsOf relation options.name)) := by
    rw [hkept, holeValues_filter, hholes]
  obtain ⟨_, _, heq, hdepth, hseen⟩ := h.plot_seen hstyle hcoherent hidle relation hholes
  obtain ⟨r', c'', heq', hdepth', hseen'⟩ := h.plot_seen hstyle hcoherent hidle rest hholes'
  rw [hplot] at heq
  cases heq
  -- both plots show the same picture
  rw [hkept, Frame.picture_filter] at hseen'
  have hboth := hseen'.trans hseen.symm
  refine ⟨r', c'', heq', hboth, fun hrunning => ?_⟩
  rwa [Surface.settle_of_depth (hdepth'.trans hrunning),
    Surface.settle_of_depth (hdepth.trans hrunning)] at hboth

/-! ## New pieces only -/

/-- Two plots side by side, both without pieces to be used again, on the same surface. -/
structure Abreast (f : Frame) (p q : Progress) : Prop where
  surface : q.canvas.surface = p.canvas.surface
  frame : p.canvas.surface.frame = f
  pool : p.pool = []
  pool' : q.pool = []

theorem Progress.take_nil {p : Progress} (h : p.pool = []) (kind : PieceKind) :
    p.take kind = (none, p) := by
  unfold Progress.take
  rw [h]
  rfl

theorem Progress.run_of_nil {p : Progress} (h : p.pool = []) (j : Job) :
    p.run j = p.note none j.what (j.draw p.canvas none) := by
  rw [Progress.run, Progress.take_nil h]

/-- What a job does to the surface with a new piece does not depend on the other pieces. -/
theorem Job.OfPlot.surface_draw {f : Frame} {j : Job} (hj : j.OfPlot f)
    (h : c'.surface = c.surface) : (j.draw c' none).2.surface = (j.draw c none).2.surface := by
  cases hj with
  | segment style holes fast s => exact surface_drawSegment h s.1 s.2 style holes fast
  | mark style functions value => exact surface_plotMark h value functions style

/-- A job that fails with a new piece leaves the surface as it is. -/
theorem Job.Lawful.surface_of_error {f : Frame} {j : Job} (hj : j.Lawful f)
    (hf : c.surface.frame = f) {e : PlotFault} (he : j.sketch = .error e) :
    (j.draw c none).2.surface = c.surface := by
  obtain ⟨family, Notes, huses⟩ := hj.uses c none fun n hn => nomatch hn
  have hresult := (hj.follows c none hf).result
  rw [he] at hresult
  generalize j.draw c none = outcome at huses hresult ⊢
  obtain ⟨result, c'⟩ := outcome
  obtain rfl : result = .error e := hresult
  exact huses.surface_of_error

namespace Abreast

variable {f : Frame} {p q : Progress} {j : Job}

/-- Both do the same job. -/
theorem run (h : Abreast f p q) (hj : j.OfPlot f) : Abreast f (p.run j) (q.run j) where
  surface := by
    rw [Progress.run_of_nil h.pool, Progress.run_of_nil h.pool', Progress.canvas_note,
      Progress.canvas_note]
    exact hj.surface_draw h.surface
  frame := Progress.frame_run hj.lawful h.frame
  pool := by rw [Progress.run_of_nil h.pool, Progress.pool_note, h.pool]
  pool' := by rw [Progress.run_of_nil h.pool', Progress.pool_note, h.pool']

/-- One of them does a job that fails, and that the other does not have. -/
theorem skip (h : Abreast f p q) (hj : j.Lawful f) {e : PlotFault} (he : j.sketch = .error e) :
    Abreast f (p.run j) q where
  surface := by
    rw [Progress.run_of_nil h.pool, Progress.canvas_note, hj.surface_of_error h.frame he,
      h.surface]
  frame := Progress.frame_run hj h.frame
  pool := by rw [Progress.run_of_nil h.pool, Progress.pool_note, h.pool]
  pool' := h.pool'

/-- One of them does a job, and the other one too, unless it fails. -/
theorem run_kept (h : Abreast f p q) (hj : j.OfPlot f) :
    Abreast f (p.run j) ((keptJobs [j]).foldl Progress.run q) := by
  rw [keptJobs_singleton]
  cases hsketch : j.sketch with
  | ok s => exact h.run hj
  | error e => exact h.skip hj.lawful hsketch

end Abreast

/-- Jobs that fail add no sketch. -/
theorem Sketched.run_kept {f : Frame} {d : Nat} {p : Progress} {done : List Job}
    (h : Sketched f d p (sketchesOf done)) {j : Job} (hj : j.OfPlot f) :
    Sketched f d ((keptJobs [j]).foldl Progress.run p) (sketchesOf (done ++ [j])) := by
  rw [keptJobs_singleton]
  cases hsketch : j.sketch with
  | ok s => exact h.run hj
  | error e =>
    rw [sketchesOf_append, sketchesOf_singleton, hsketch]
    exact (List.append_nil (sketchesOf done)).symm ▸ h

theorem segmentJobs_filter (f : Frame) (style : PlotStyle) (holes : List Float) (fast : Bool)
    (segments : List (List Char × Classification)) :
    segmentJobs f style holes fast
        (segments.filter fun s => !(f.skip? style holes fast s).isSome) =
      keptJobs (segmentJobs f style holes fast segments) := by
  unfold keptJobs segmentJobs
  rw [List.filter_map, List.filter_filter, List.filter_filter]
  refine congrArg (List.map _) (List.filter_congr fun s _ => ?_)
  unfold Frame.skip?
  cases hs : s.2.family == Family.asymptote
  · cases hsketch : (f.sketch s.1 s.2 style holes fast).toOption <;>
      simp [segmentJob, bne, hs, hsketch]
  · simp [bne, hs]

/-- Without pieces to be used again, a plot of all segments leaves the same surface as one of those
that were not skipped. -/
theorem plot_kept_surface (hcoherent : c.surface.Coherent) {relation rest : List Char}
    {options : PlotOptions} {r : PlotResult} (hplot : c.plot relation options [] = (.ok r, c'))
    (hrest : r.Keeps relation rest) :
    ∃ r' c'', c.plot rest options [] = (.ok r', c'') ∧ c''.surface = c'.surface := by
  obtain ⟨style, hstyle, hholes, hskipped⟩ := plot_of_ok hplot
  have hkept := segmentsOf_of_keeps hskipped hrest
  have hholes' : holeValues (segmentsOf rest options.name) =
      .ok (holesOf (segmentsOf relation options.name)) := by
    rw [hkept, holeValues_filter, hholes]
  have hstart := (Owned.nil c).start hcoherent
  -- the other plot is where the jobs that do not fail lead to
  obtain ⟨shown, marked, heq, ⟨hshown, hshown', -⟩, -, -, hmarked⟩ :=
    plot_rec hstyle c relation [] hholes
      (P := fun p done =>
        Sketched c.surface.frame (c.surface.depth + 1) p (sketchesOf done) ∧
        Sketched c.surface.frame (c.surface.depth + 1)
          ((keptJobs done).foldl Progress.run (.start c [])) (sketchesOf done) ∧
        Abreast c.surface.frame p ((keptJobs done).foldl Progress.run (.start c [])))
      ⟨hstart, hstart, rfl, hstart.frame, rfl, rfl⟩ fun p done j hj hf hp => by
        rw [keptJobs_append, List.foldl_append]
        exact ⟨hp.1.run hj, hp.2.1.run_kept hj, hp.2.2.run_kept hj⟩
  have heq' := plot_eq_of_jobs hstyle c rest [] hholes'
  rw [hkept, segmentJobs_filter] at heq'
  rw [keptJobs_append, keptJobs_markJobs, List.foldl_append] at hmarked
  dsimp only at heq'
  generalize List.foldl Progress.run (.start c []) _ = q at heq' hshown' hmarked
  -- the marks depend on the functions that were drawn
  have hfunctions : q.canvas.functionsOf q.drawn = shown.canvas.functionsOf shown.drawn := by
    rw [functionsOf_eq, functionsOf_eq, hshown.shows, hshown'.shows]
  rw [hfunctions] at heq'
  rw [hplot] at heq
  cases heq
  exact ⟨_, _, heq', congrArg Surface.resume hmarked.surface⟩

end Canvas

end Graphing
