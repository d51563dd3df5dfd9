/-
  Graphing.Proofs.Plot.Failures

  What fails in a plot, and what is drawn all the same.

  A segment that cannot be drawn is skipped, and every other segment is drawn
  as if it were not there.  There is one exception: the constant of an excluded
  value is evaluated for all segments at once, and nothing is drawn if one of
  them cannot be evaluated.
-/
import Graphing.Proofs.Except
import Graphing.Proofs.Plot.Progress

open Graphing.Relation (Classification Family)

namespace Graphing

/-! ## Excluded values -/

/-- The finite values that some segments exclude, if all of them can be evaluated. -/
def holesOf (segments : List (List Char × Classification)) : List Float :=
  ((segments.filter fun s => s.2.family == .asymptote).filterMap fun s =>
    (Interval.textHole s.1).toOption).filter Float.isFinite

/-- A segment that excludes a value which cannot be evaluated. -/
def Untold (s : List Char × Classification) (h : Hole) : Prop :=
  s.2.family = .asymptote ∧ Interval.textHole s.1 = .error h

/-! ## Skipped segments -/

/-- A segment that cannot be drawn, as it is reported. -/
def Frame.skip? (f : Frame) (style : PlotStyle) (holes : List Float) (fast : Bool)
    (s : List Char × Classification) : Option Skipped :=
  if s.2.family == .asymptote || (f.sketch s.1 s.2 style holes fast).toOption.isSome then none
  else some (.segment s.1)

namespace Canvas

theorem holeValues_cases (segments : List (List Char × Classification)) :
    (∃ s ∈ segments, ∃ h, Untold s h ∧ holeValues segments = .error h) ∨
      ((∀ s ∈ segments, ∀ h, ¬Untold s h) ∧ holeValues segments = .ok (holesOf segments)) := by
  have hmem : ∀ s, s ∈ segments.filter (fun s => s.2.family == .asymptote) ↔
      s ∈ segments ∧ s.2.family = .asymptote := by
    intro s
    rw [List.mem_filter, beq_iff_eq]
  unfold holeValues
  rcases Except.mapM_cases (fun s => Interval.textHole s.1)
      (segments.filter fun s : List Char × Classification => s.2.family == .asymptote) with
    ⟨s, hs, h, htext, hrun⟩ | ⟨hall, hrun⟩
  · rw [hrun]
    exact .inl ⟨s, ((hmem s).mp hs).1, h, ⟨((hmem s).mp hs).2, htext⟩, rfl⟩
  · rw [hrun]
    refine .inr ⟨?_, rfl⟩
    rintro s hs h ⟨hfamily, herror⟩
    obtain ⟨v, hv⟩ := hall s ((hmem s).mpr ⟨hs, hfamily⟩)
    rw [herror] at hv
    cases hv

/-- What some jobs leave out. -/
def skippedBy (jobs : List Job) : List Skipped :=
  jobs.filterMap fun j => if j.sketch.toOption.isSome then none else some j.what

theorem skippedBy_append (jobs jobs' : List Job) :
    skippedBy (jobs ++ jobs') = skippedBy jobs ++ skippedBy jobs' := List.filterMap_append

theorem skippedBy_segmentJobs (f : Frame) (style : PlotStyle) (holes : List Float) (fast : Bool)
    (segments : List (List Char × Classification)) :
    skippedBy (segmentJobs f style holes fast segments) =
      segments.filterMap (f.skip? style holes fast) := by
  unfold skippedBy segmentJobs
  rw [List.filterMap_map, List.filterMap_filter]
  refine List.filterMap_congr fun s _ => ?_
  unfold Frame.skip?
  cases hs : s.2.family == Family.asymptote
  · rw [bne, hs]
    rfl
  · rw [bne, hs]
    rfl

/-- Marks are never left out. -/
theorem skippedBy_markJobs (f : Frame) (style : PlotStyle)
    (functions : List ((Float → Float) × Interval Float)) (values : List Float) :
    skippedBy (markJobs f style functions values) = [] := by
  rw [skippedBy, markJobs, List.filterMap_map]
  exact List.filterMap_eq_nil_iff.mpr fun _ _ => rfl

/-- How many pieces are drawn so far, and what was skipped, on any canvas at all. -/
structure Tally (f : Frame) (p : Progress) (count : Nat) (skipped : List Skipped) : Prop where
  frame : p.canvas.surface.frame = f
  drawn : p.drawn.length = count
  skipped : p.skipped = skipped

theorem Tally.run {f : Frame} {p : Progress} {done : List Job}
    (h : Tally f p (sketchesOf done).length (skippedBy done)) {j : Job} (hj : j.Lawful f) :
    Tally f (p.run j) (sketchesOf (done ++ [j])).length (skippedBy (done ++ [j])) := by
  obtain ⟨hresult, hframe⟩ := hj.follows p.canvas (p.take j.kind).1 h.frame
  rw [sketchesOf_append, sketchesOf_singleton, skippedBy_append, List.length_append, ← h.drawn,
    ← h.skipped]
  unfold Progress.run
  rw [p.take_eq j.kind]
  generalize j.draw _ _ = outcome at hresult hframe ⊢
  obtain ⟨result, c'⟩ := outcome
  replace hresult : result = _ := hresult
  subst hresult
  rw [skippedBy, filterMap_cons_eq]
  cases j.sketch with
  | error e => exact ⟨hframe.trans h.frame, rfl, rfl⟩
  | ok s =>
    refine ⟨hframe.trans h.frame, ?_, (List.append_nil _).symm⟩
    show (p.drawn ++ [_]).length = _
    rw [List.length_append]
    rfl

/-! ## Outcomes of a plot -/

/-- A plot in an accepted style whose excluded values can all be evaluated. -/
theorem plot_of_holes (c : Canvas) {options : PlotOptions} {style : PlotStyle}
    (hstyle : PlotStyle.ofOptions? options.style = .ok style) (relation : List Char)
    {holes : List Float} (hholes : holeValues (segmentsOf relation options.name) = .ok holes)
    (previous : List PieceId) :
    ∃ drawn left c', c.plot relation options previous =
        (.ok { pieces := drawn ++ left
               skipped := (segmentsOf relation options.name).filterMap
                 (c.surface.frame.skip? style holes options.fast) }, c') ∧
      drawn.length = (c.surface.frame.picture style holes options.fast
        (segmentsOf relation options.name)).length := by
  obtain ⟨shown, marked, heq, -, hmarked⟩ := plot_rec hstyle c relation previous hholes
    (P := fun p done => Tally c.surface.frame p (sketchesOf done).length (skippedBy done))
    ⟨Progress.frame_start c previous, rfl, rfl⟩ fun _ _ _ hj _ hp => hp.run hj.lawful
  rw [sketchesOf_append, sketchesOf_segmentJobs, sketchesOf_markJobs, skippedBy_append,
    skippedBy_segmentJobs, skippedBy_markJobs, List.append_nil, List.length_append,
    List.length_map] at hmarked
  rw [hmarked.skipped] at heq
  refine ⟨marked.drawn, marked.pool ++ marked.spare, _, heq, ?_⟩
  rw [hmarked.drawn, Frame.picture, List.length_append, List.length_map]

end Canvas

end Graphing
