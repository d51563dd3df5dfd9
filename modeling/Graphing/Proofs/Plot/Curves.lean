/-
  Graphing.Proofs.Plot.Curves

  The curves that a plot stores.

  Of a relation whose segments are points, excluded values and functions of
  the horizontal coordinate, a plot draws one curve for each function that can
  be read, in the order of the segments.  What is stored of it are the samples
  with the values of the function on its interval without the holes
  (`plot_curves`).
-/
import Graphing.Proofs.Plot.Failures
import Graphing.Proofs.Surface.TwoRuns

open Graphing.Relation (Classification Family)

namespace Graphing

/-- The function of the horizontal coordinate that a segment stands for, with the text of the
segment. -/
def explicit? (s : List Char × Classification) : Option (List Char × Restricted) :=
  if s.2.family == .functionOfX then (Restricted.ofText? s.1 s.2.axis).toOption.map (s.1, ·)
  else none

/-- The curve that a sketch tells of: its interval and its points. -/
def Sketch.curve? (s : Sketch) : Option (Interval Float × List (Float × Float)) :=
  match s.parts .curve, s.source with
  | some (.curve g), some (_, interval) => some (interval, g.xs.zip g.ys)
  | _, _ => none

/-! ## Sketches of functions and of points -/

namespace Frame

variable (f : Frame) (style : PlotStyle) (holes : List Float)

theorem curve?_ofFunction (r : Restricted) :
    (f.ofFunction style holes r).curve? =
      some (r.interval, (f.samples .x).map fun x => (x, r.valueWithin holes x)) := by
  have hpoints : (f.samples .x).zip ((f.samples .x).map (r.valueWithin holes)) =
      (f.samples .x).map fun x => (x, r.valueWithin holes x) :=
    List.map_prod_left_eq_zip.symm
  exact congrArg (fun points => some (r.interval, points)) hpoints

/-- A sketch shows the curve of a function, or no curve. -/
def IsExplicit (s : Sketch) : Prop :=
  s.parts .curve = none ∨ ∃ r, s = f.ofFunction style holes r

/-- The mark of an excluded value shows no curve. -/
theorem curve_mark (functions : List ((Float → Float) × Interval Float)) (value : Float) :
    (f.mark style functions value).parts .curve = none := by
  unfold mark
  dsimp only
  split <;> rfl

variable {f style holes} {s : List Char × Classification} {fast : Bool}

/-- Points show no curves, and functions show theirs. -/
theorem isExplicit_of_sketchOf? (hs : s.2.family = .point ∨ s.2.family = .asymptote ∨
      s.2.family = .functionOfX) {k : Sketch} (hk : f.sketchOf? style holes fast s = some k) :
    f.IsExplicit style holes k := by
  unfold sketchOf? sketch at hk
  rcases hs with hs | hs | hs
  · rw [hs] at hk
    left
    cases hbounds : Interval.textBounds s.1 with
    | error e =>
      rw [hbounds] at hk
      cases hk
    | ok coords =>
      rw [hbounds] at hk
      cases hk
      rfl
  · rw [hs] at hk
    cases hk
  · rw [hs] at hk
    right
    cases hr : Restricted.ofText? s.1 s.2.axis with
    | error e =>
      rw [hr] at hk
      cases hk
    | ok r =>
      rw [hr] at hk
      cases hk
      exact ⟨r, rfl⟩

/-- The sketch of a segment shows the curve of the function that the segment stands for. -/
theorem bind_curve?_sketchOf? (hs : s.2.family = .point ∨ s.2.family = .asymptote ∨
      s.2.family = .functionOfX) :
    (f.sketchOf? style holes fast s).bind Sketch.curve? =
      (explicit? s).map fun e =>
        (e.2.interval, (f.samples .x).map fun x => (x, e.2.valueWithin holes x)) := by
  unfold sketchOf? sketch explicit?
  rcases hs with hs | hs | hs
  · rw [hs]
    cases hbounds : Interval.textBounds s.1 <;> rfl
  · rw [hs]
    rfl
  · rw [hs]
    cases hr : Restricted.ofText? s.1 s.2.axis with
    | error e => rfl
    | ok r => exact curve?_ofFunction f style holes r

end Frame

namespace Canvas

variable {c : Canvas} {ns : List PieceId} {n : PieceId}

/-! ## Curves of pieces -/

/-- The curve that is to be seen of a piece: its interval, and its points as they are stored. -/
def curveOf? (c : Canvas) (n : PieceId) : Option (Interval Float × List (Float × Float)) :=
  match c.shapeAt n (.part .curve), c.note? n with
  | some (.curve g), some note => some (note.interval, g.xs.zip g.ys)
  | _, _ => none

theorem Note.interval_of_source? {note : Note} {g : Float → Float} {i : Interval Float}
    (h : note.source? = some (g, i)) : note.interval = i := by
  obtain ⟨family, interval, function⟩ := note
  unfold source? at h
  cases function with
  | none => cases h
  | some formula =>
    replace h : (if family == some .functionOfX then
      some ((fun x => formula.valueAt #[x]), interval) else none) = some (g, i) := h
    split at h
    · cases h
      rfl
    · cases h

theorem curveOf?_eq_none (h : c.shapeAt n (.part .curve) = none) : c.curveOf? n = none := by
  rw [curveOf?, h]

/-- The curve of a piece is told by its sketch. -/
theorem curveOf?_eq {f : Frame} {style : PlotStyle} {holes : List Float}
    (h : f.IsExplicit style holes (c.sketch n)) : c.curveOf? n = (c.sketch n).curve? := by
  rcases h with h | ⟨r, hr⟩
  · rw [curveOf?_eq_none h, Sketch.curve?, h]
  · have hcurve : c.shapeAt n (.part .curve) = some (.line style "lines" (f.samples .x)
        ((f.samples .x).map (r.valueWithin holes)) (some (sourceOverX r holes))) :=
      congrArg (fun s : Sketch => s.parts .curve) hr
    have hsource : (c.note? n).bind Note.source? = some (r.value, r.interval) :=
      congrArg Sketch.source hr
    obtain ⟨note, hnote, hinterval⟩ := Option.bind_eq_some_iff.mp hsource
    rw [curveOf?, hcurve, hnote, hr]
    show some (note.interval, _) = some (r.interval, _)
    rw [Note.interval_of_source? hinterval]

theorem curveOf?_resume (c : Canvas) (n : PieceId) :
    (c.onSurface Surface.resume).curveOf? n = c.curveOf? n := by
  have hshape : (c.onSurface Surface.resume).shapeAt n (.part .curve) =
      c.shapeAt n (.part .curve) := by
    obtain ⟨g, q, d, hsame⟩ := Surface.Same.resume c.surface
    show (c.spot? n (.part .curve)).bind c.surface.resume.shape? = _
    rw [hsame]
    rfl
  rw [curveOf?, hshape]
  rfl

/-! ## Curves of plots -/

/-- A plot of points, excluded values and functions stores one curve for each function that can be
read, in the order of the segments. -/
theorem plot_curves (hcoherent : c.surface.Coherent) (hns : c.Owned ns) {relation : List Char}
    {options : PlotOptions} {style : PlotStyle}
    (hstyle : PlotStyle.ofOptions? options.style = .ok style)
    (htold : ∀ s ∈ segmentsOf relation options.name, ∀ h, ¬Untold s h)
    (hfamily : ∀ s ∈ segmentsOf relation options.name,
      s.2.family = .point ∨ s.2.family = .asymptote ∨ s.2.family = .functionOfX) :
    ∃ r c', c.plot relation options ns = (.ok r, c') ∧
      r.pieces.filterMap c'.curveOf? =
        ((segmentsOf relation options.name).filterMap explicit?).map fun e =>
          (e.2.interval, (c.surface.pixelSamples .x).map fun x =>
            (x, e.2.valueWithin (holesOf (segmentsOf relation options.name)) x)) := by
  generalize hsegments : segmentsOf relation options.name = segments at htold hfamily
  generalize hholes : holesOf segments = holes
  have hvalues : holeValues (segmentsOf relation options.name) = .ok holes := by
    rw [hsegments]
    rcases holeValues_cases segments with ⟨s, hs, h, huntold, -⟩ | ⟨-, hok⟩
    · exact absurd huntold (htold s hs h)
    · rw [hok, hholes]
  obtain ⟨p, hplot, hp⟩ := hns.plot hstyle hcoherent relation hvalues
  rw [hsegments] at hp
  refine ⟨_, _, hplot, ?_⟩
  -- what a drawn piece stores is the curve of its sketch; the other pieces, and marks, store none
  have hexplicit : ∀ k ∈ c.surface.frame.picture style holes options.fast segments,
      c.surface.frame.IsExplicit style holes k := by
    intro k hk
    rcases List.mem_append.mp hk with hk | hk
    · obtain ⟨s, hs, hsketch⟩ := List.mem_filterMap.mp hk
      exact Frame.isExplicit_of_sketchOf? (hfamily s hs) hsketch
    · obtain ⟨value, -, rfl⟩ := List.mem_map.mp hk
      exact .inl (Frame.curve_mark _ _ _ value)
  have hdrawn : p.drawn.filterMap p.canvas.curveOf? =
      (c.surface.frame.picture style holes options.fast segments).filterMap Sketch.curve? := by
    rw [← hp.shows, List.filterMap_map]
    refine List.filterMap_congr fun n hn => curveOf?_eq (hexplicit _ ?_)
    rw [← hp.shows]
    exact List.mem_map_of_mem hn
  have hblank : (p.pool ++ p.spare).filterMap p.canvas.curveOf? = [] := by
    rw [List.filterMap_eq_nil_iff]
    exact fun n hn => curveOf?_eq_none (hp.blank n hn _)
  have hmarks : ∀ functions, (holes.map (c.surface.frame.mark style functions)).filterMap
      Sketch.curve? = [] := by
    intro functions
    rw [List.filterMap_map, List.filterMap_eq_nil_iff]
    intro value _
    show (c.surface.frame.mark style functions value).curve? = none
    rw [Sketch.curve?, Frame.curve_mark]
  rw [Progress.groups, funext (curveOf?_resume p.canvas), List.filterMap_append, hblank,
    List.append_nil, hdrawn, Frame.picture, List.filterMap_append, hmarks, List.append_nil,
    List.filterMap_filterMap, List.map_filterMap, Surface.pixelSamples_eq]
  exact List.filterMap_congr fun s hs => Frame.bind_curve?_sketchOf? (hfamily s hs)

end Canvas
end Graphing
