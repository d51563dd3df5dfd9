/-
  Graphing.Proofs.Plot.Replot

  Plotting again with the pieces of an earlier plot.

  A piece that is used again may have shown anything before: another family,
  another style, circles or contours.  None of it is left: after any number of
  plots and changes of bounds, the pieces of the last plot look the same as if
  that plot had been made on a new surface.
-/
import Graphing.Proofs.Plot.Progress
import Graphing.Proofs.Surface.Resampled

namespace Graphing.Canvas

variable {c c' : Canvas} {ns : List PieceId}

/-! ## Between two plots -/

/-- A change of bounds keeps which pieces own which handles. -/
theorem Ready.setBounds (h : c.Ready ns) (d : Contour.Domain Float) :
    (c.onSurface fun s => (s.setBounds d).2).Ready ns := by
  have halike := Surface.Alike.setBounds h.depth d
  refine ⟨h.coherent.setBounds d, halike.depth.trans h.depth, h.owned.nodup, h.owned.exists_piece,
    ?_, h.owned.inj, h.owned.implicit⟩
  intro n hn a k hk
  obtain ⟨l, hl, hlive, hfits⟩ := h.owned.live n hn a k hk
  obtain ⟨l', hl', hremoved, hkind⟩ := halike.handle k l hl
  refine ⟨l', hl', hremoved.trans hlive, ?_⟩
  cases a with
  | part σ => exact Part.Fits.of_sameKind hfits hkind
  | contour i => exact Part.Fits.of_sameKind (σ := .curve) hfits hkind

/-- Without pieces, a coherent surface is enough. -/
theorem Ready.restart (h : c.Ready ns) : c.Ready [] := ⟨h.coherent, h.depth, .nil c⟩

/-! ## Chains of plots -/

/-- What can be done with a surface from one plot to the next. -/
inductive Step where
  /-- Plot a relation with the pieces that the plot before returned. -/
  | plot (relation : List Char) (options : PlotOptions)
  /-- Change the bounds. -/
  | setBounds (d : Contour.Domain Float)
  /-- Leave the pieces as they are, and go on without them. -/
  | restart

/-- The canvas after a step, and the pieces that the next plot is given. A plot that fails leaves
the pieces that it was given. -/
def Step.run (state : Canvas × List PieceId) : Step → Canvas × List PieceId
  | .plot relation options =>
    match state.1.plot relation options state.2 with
    | (.ok r, c) => (c, r.pieces)
    | (.error _, c) => (c, state.2)
  | .setBounds d => (state.1.onSurface fun s => (s.setBounds d).2, state.2)
  | .restart => (state.1, [])

/-- What the pieces of a plot look like. -/
def plotLooks (c : Canvas) (relation : List Char) (options : PlotOptions)
    (previous : List PieceId) : Except PlotFault (List Look) :=
  match c.plot relation options previous with
  | (.ok r, c) => .ok (c.looks r.pieces)
  | (.error e, _) => .error e

/-- Every step keeps the pieces ready for the next one, and the size of the surface. -/
theorem Ready.run (h : c.Ready ns) (step : Step) :
    (Step.run (c, ns) step).1.Ready (Step.run (c, ns) step).2 ∧
      (Step.run (c, ns) step).1.surface.width = c.surface.width ∧
      (Step.run (c, ns) step).1.surface.height = c.surface.height := by
  cases step with
  | plot relation options =>
    unfold Step.run
    dsimp only
    cases hstyle : PlotStyle.ofOptions? options.style with
    | error e =>
      rw [plot_of_style_error hstyle]
      exact ⟨h, rfl, rfl⟩
    | ok style =>
      cases hholes : holeValues (segmentsOf relation options.name) with
      | error hole =>
        obtain ⟨c', heq, hready, hframe⟩ := h.plot_of_untold hstyle relation hholes
        rw [heq]
        exact ⟨hready, congrArg Frame.width hframe, congrArg Frame.height hframe⟩
      | ok holes =>
        obtain ⟨r, c', heq, hready, hframe, -⟩ := h.plot hstyle relation hholes
        rw [heq]
        exact ⟨hready, congrArg Frame.width hframe, congrArg Frame.height hframe⟩
  | setBounds d =>
    have halike := Surface.Alike.setBounds h.depth d
    exact ⟨h.setBounds d, halike.width, halike.height⟩
  | restart => exact ⟨h.restart, rfl, rfl⟩

theorem Ready.foldl_run (h : c.Ready ns) (steps : List Step) :
    (steps.foldl Step.run (c, ns)).1.Ready (steps.foldl Step.run (c, ns)).2 ∧
      (steps.foldl Step.run (c, ns)).1.surface.width = c.surface.width ∧
      (steps.foldl Step.run (c, ns)).1.surface.height = c.surface.height := by
  induction steps generalizing c ns with
  | nil => exact ⟨h, rfl, rfl⟩
  | cons step steps ih =>
    obtain ⟨hready, hwidth, hheight⟩ := h.run step
    obtain ⟨hready', hwidth', hheight'⟩ := ih hready
    exact ⟨hready', hwidth'.trans hwidth, hheight'.trans hheight⟩

/-- The looks of a plot do not depend on the pieces that it is given. -/
theorem Ready.plotLooks_eq {c₀ : Canvas} {ns₀ : List PieceId} (h : c.Ready ns) (h₀ : c₀.Ready ns₀)
    (hframe : c.surface.frame = c₀.surface.frame) (relation : List Char) (options : PlotOptions) :
    c.plotLooks relation options ns = c₀.plotLooks relation options ns₀ := by
  unfold plotLooks
  cases hstyle : PlotStyle.ofOptions? options.style with
  | error e => rw [plot_of_style_error hstyle, plot_of_style_error hstyle]
  | ok style =>
    cases hholes : holeValues (segmentsOf relation options.name) with
    | error hole =>
      obtain ⟨c', heq, -⟩ := h.plot_of_untold hstyle relation hholes
      obtain ⟨c₀', heq₀, -⟩ := h₀.plot_of_untold hstyle relation hholes
      rw [heq, heq₀]
    | ok holes =>
      obtain ⟨r, c', heq, -, -, hlooks⟩ := h.plot hstyle relation hholes
      obtain ⟨r₀, c₀', heq₀, -, -, hlooks₀⟩ := h₀.plot hstyle relation hholes
      rw [heq, heq₀]
      show Except.ok (c'.looks r.pieces) = .ok (c₀'.looks r₀.pieces)
      rw [hlooks, hlooks₀, hframe]

/-! ## Plotting again -/

theorem ready_create {width height : Int} {bounds : Contour.Domain Float} {s : Surface}
    (h : Surface.create? width height bounds = .ok s) : ({ surface := s } : Canvas).Ready [] := by
  refine ⟨Surface.coherent_create h, ?_, .nil _⟩
  unfold Surface.create? at h
  split at h
  · cases h
  · split at h
    · cases h
    · cases h
      rfl

theorem frame_create {width height : Int} {bounds : Contour.Domain Float} {s : Surface}
    (h : Surface.create? width height bounds = .ok s) :
    s.frame = ⟨width.toNat, height.toNat, bounds⟩ := by
  unfold Surface.create? at h
  split at h
  · cases h
  · split at h
    · cases h
    · cases h
      rfl

/-- After any plots and changes of bounds on a surface, a plot with the pieces of the plot before
shows the same as on a new surface with the same number of pixels and the same bounds. -/
theorem replot_looks {width height : Int} {bounds : Contour.Domain Float} {s fresh : Surface}
    (hs : Surface.create? width height bounds = .ok s) (steps : List Step)
    (hfresh : Surface.create? width height
      (steps.foldl Step.run ({ surface := s }, [])).1.surface.bounds = .ok fresh)
    (relation : List Char) (options : PlotOptions) :
    (steps.foldl Step.run ({ surface := s }, [])).1.plotLooks relation options
        (steps.foldl Step.run ({ surface := s }, [])).2 =
      ({ surface := fresh } : Canvas).plotLooks relation options [] := by
  obtain ⟨hready, hwidth, hheight⟩ := (ready_create hs).foldl_run steps
  refine hready.plotLooks_eq (ready_create hfresh) ?_ relation options
  have hold := frame_create hs
  have hnew := frame_create hfresh
  show Surface.frame _ = fresh.frame
  rw [hnew, Surface.frame, hwidth, hheight]
  exact congrArg₂ (fun w h => Frame.mk w h _) (congrArg Frame.width hold)
    (congrArg Frame.height hold)

/-- A circle that is plotted with the piece of a line, after a change of bounds. -/
theorem replot_looks_line_circle : ∃ (s fresh : Surface) (steps : List Step),
    steps = [.plot "y = x".toList {}, .setBounds ⟨-2, 2, -2, 2⟩] ∧
      Surface.create? 40 40 ⟨-1, 1, -1, 1⟩ = .ok s ∧
      Surface.create? 40 40 (steps.foldl Step.run ({ surface := s }, [])).1.surface.bounds =
        .ok fresh ∧
      (steps.foldl Step.run ({ surface := s }, [])).1.plotLooks "x^2 + y^2 = 1".toList {}
          (steps.foldl Step.run ({ surface := s }, [])).2 =
        ({ surface := fresh } : Canvas).plotLooks "x^2 + y^2 = 1".toList {} [] := by
  let s : Surface := { width := 40, height := 40, bounds := ⟨-1, 1, -1, 1⟩ }
  let steps : List Step := [.plot "y = x".toList {}, .setBounds ⟨-2, 2, -2, 2⟩]
  let bounds := (steps.foldl Step.run ({ surface := s }, [])).1.surface.bounds
  have hs : Surface.create? 40 40 ⟨-1, 1, -1, 1⟩ = .ok s := rfl
  have hfresh : Surface.create? 40 40 bounds = .ok { width := 40, height := 40, bounds } := rfl
  exact ⟨s, _, steps, rfl, hs, hfresh, replot_looks hs steps hfresh _ _⟩

end Graphing.Canvas
