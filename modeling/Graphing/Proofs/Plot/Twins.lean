/-
  Graphing.Proofs.Plot.Twins

  Drawing with a new piece, whatever its number.

  A new piece gets the next free number, and nothing else depends on how many
  pieces there were before.  So two canvases with the same surface have the
  same surface after the same was drawn on both with new pieces: the pieces are
  `Twins` through all steps.  A segment that cannot be drawn with a new piece
  leaves the surface as it was.
-/
import Graphing.Proofs.Plot.Uses

open Graphing.Relation (Classification Family)

namespace Graphing.Canvas

variable {c d : Canvas} {n m : PieceId}

/-- Canvases with the same surface, and a piece of each, which are the same but for their numbers. -/
structure Twins (c d : Canvas) (n m : PieceId) : Prop where
  surface : d.surface = c.surface
  piece : d.piece? m = c.piece? n

namespace Twins

/-- New pieces are twins. -/
theorem acquire (h : d.surface = c.surface) (kind : PieceKind) (family : Family) :
    ∃ n m c' d', c.acquire none kind family = (n, c') ∧ d.acquire none kind family = (m, d') ∧
      Twins c' d' n m := by
  refine ⟨_, _, _, _, rfl, rfl, h, ?_⟩
  exact Array.getElem?_push_size.trans Array.getElem?_push_size.symm

theorem modify (h : Twins c d n m) (f : Piece → Piece) :
    Twins (c.modify n f) (d.modify m f) n m := by
  refine ⟨h.surface, ?_⟩
  rw [piece?_modify, piece?_modify, if_pos rfl, if_pos rfl, h.piece]

theorem describe (h : Twins c d n m) (r : Restricted) :
    Twins (c.describe n r) (d.describe m r) n m := h.modify _

theorem activate (h : Twins c d n m) : Twins (c.activate n) (d.activate m) n m := h.modify _

theorem withSurface (h : Twins c d n m) (s : Surface) :
    Twins { c with surface := s } { d with surface := s } n m := ⟨rfl, h.piece⟩

theorem onSurface (h : Twins c d n m) {f g : Surface → Surface} (hfg : g c.surface = f c.surface) :
    Twins (c.onSurface f) (d.onSurface g) n m := by
  refine ⟨?_, h.piece⟩
  show g d.surface = f c.surface
  rw [h.surface, hfg]

/-! ## Steps of drawing -/

theorem useCurve (h : Twins c d n m) (style : PlotStyle) (mode : String) :
    (d.useCurve m style mode).1 = (c.useCurve n style mode).1 ∧
      Twins (c.useCurve n style mode).2 (d.useCurve m style mode).2 n m := by
  unfold Canvas.useCurve
  rw [h.piece, h.surface]
  cases (c.piece? n).bind (·.curve) with
  | none => exact ⟨rfl, (h.withSurface _).modify _⟩
  | some k => exact ⟨rfl, (h.withSurface _).modify _⟩

theorem showData (h : Twins c d n m) (style : PlotStyle) (mode : String) (xs ys : List Float) :
    Twins (c.showData n style mode xs ys) (d.showData m style mode xs ys) n m := by
  obtain ⟨hk, htwins⟩ := h.useCurve style mode
  unfold Canvas.showData
  dsimp only
  rw [hk]
  exact htwins.onSurface rfl

theorem showSource (h : Twins c d n m) (style : PlotStyle) (source : LazySource) :
    ∃ result c' d', c.showSource n style source = (result, c') ∧
      d.showSource m style source = (result, d') ∧ Twins c' d' n m := by
  obtain ⟨hk, htwins⟩ := h.useCurve style "lines"
  unfold Canvas.showSource
  dsimp only
  rw [hk, htwins.surface]
  exact ⟨_, _, _, rfl, rfl, htwins.withSurface _⟩

theorem placeBounds (h : Twins c d n m) (interval : Interval Float) (view : Float × Float)
    (place : Float → Float × Float) (style : PlotStyle) :
    Twins (c.placeBounds n interval view place style)
      (d.placeBounds m interval view place style) n m := by
  unfold Canvas.placeBounds
  dsimp only
  rw [h.piece, h.surface]
  exact (h.withSurface _).modify _

theorem removeContours (h : Twins c d n m) : Twins (c.removeContours n) (d.removeContours m) n m := by
  unfold Canvas.removeContours
  dsimp only
  rw [h.piece]
  exact (h.onSurface rfl).modify _

theorem addContours (h : Twins c d n m) (style : PlotStyle)
    (lines : List (List (Contour.Point Float))) :
    Twins (c.addContours n style lines) (d.addContours m style lines) n m := by
  unfold Canvas.addContours
  induction lines generalizing c d with
  | nil => exact h
  | cons line lines ih =>
    rw [List.foldl_cons, List.foldl_cons]
    refine ih ?_
    dsimp only
    rw [h.surface]
    exact (h.withSurface _).modify _

end Twins

/-! ## Families -/

section

variable (h : d.surface = c.surface)

include h

theorem surface_plotFunction (relation : List Char) (name : String) (holes : List Float)
    (style : PlotStyle) : (d.plotFunction relation name holes none style).2.surface =
      (c.plotFunction relation name holes none style).2.surface := by
  unfold plotFunction
  cases Restricted.ofText? relation name with
  | error e => exact h
  | ok r =>
    obtain ⟨n, m, c₁, d₁, hc, hd, hnew⟩ := Twins.acquire h .curve .functionOfX
    obtain ⟨result, c₂, d₂, hshow, hshow', hshown⟩ :=
      (hnew.describe r).showSource style (sourceOverX r holes)
    dsimp only
    rw [hc, hd]
    dsimp only
    rw [hshow, hshow']
    cases result with
    | error e => exact hshown.surface
    | ok _ =>
      dsimp only
      rw [hshown.surface]
      exact (hshown.placeBounds _ _ _ style).activate.surface

theorem surface_plotSideways (relation : List Char) (name : String) (style : PlotStyle) :
    (d.plotSideways relation name none style).2.surface =
      (c.plotSideways relation name none style).2.surface := by
  unfold plotSideways
  cases Restricted.ofText? relation name with
  | error e => exact h
  | ok r =>
    obtain ⟨n, m, c₁, d₁, hc, hd, hnew⟩ := Twins.acquire h .curve .functionOfY
    obtain ⟨result, c₂, d₂, hshow, hshow', hshown⟩ :=
      (hnew.describe r).showSource style (sourceOverY r)
    dsimp only
    rw [hc, hd]
    dsimp only
    rw [hshow, hshow']
    cases result with
    | error e => exact hshown.surface
    | ok _ =>
      dsimp only
      rw [hshown.surface]
      exact (hshown.placeBounds _ _ _ style).activate.surface

theorem surface_plotPolar (relation : List Char) (name : String) (style : PlotStyle) :
    (d.plotPolar relation name none style).2.surface =
      (c.plotPolar relation name none style).2.surface := by
  unfold plotPolar
  cases Restricted.ofText? relation name with
  | error e => exact h
  | ok r =>
    obtain ⟨n, m, c₁, d₁, hc, hd, hnew⟩ := Twins.acquire h .curve .polar
    have hdescribed := hnew.describe r
    dsimp only
    rw [hc, hd]
    dsimp only
    cases Plot.parameterSamples r.polarRange.1 r.polarRange.2 style.density with
    | error e => exact hdescribed.surface
    | ok ts =>
      have hshown := hdescribed.showData style "lines"
      dsimp only
      rw [(hshown _ _).piece]
      exact ((hshown _ _).onSurface rfl).activate.surface

theorem surface_plotParametric (relation : List Char) (name : String) (style : PlotStyle) :
    (d.plotParametric relation name none style).2.surface =
      (c.plotParametric relation name none style).2.surface := by
  unfold plotParametric
  dsimp only
  split
  next e hread => exact h
  next x y interval hread =>
    obtain ⟨n, m, c₁, d₁, hc, hd, hnew⟩ := Twins.acquire h .curve .parametric
    have hnoted := hnew.modify fun p =>
      { p with
        relation := Relation.unrestricted relation
        restriction := Relation.restriction relation
        interval
        function := none }
    rw [hc, hd]
    dsimp only
    rw [hnoted.surface]
    split
    next e hsamples => exact hnoted.surface
    next ts hsamples =>
      generalize (ts.map fun t => if interval.contains t = true then
        (x.valueAt #[t], y.valueAt #[t]) else (Binary64.nan, Binary64.nan)) = points
      have hcurve := hnoted.showData style "lines" (points.map Prod.fst) (points.map Prod.snd)
      have hshown := hcurve.placeBounds interval (Scale.negInf, Scale.posInf)
        (fun t => (x.valueAt #[t], y.valueAt #[t])) style
      generalize (Canvas.placeBounds _ n _ _ _ _) = c₂ at hshown ⊢
      generalize (Canvas.placeBounds _ m _ _ _ _) = d₂ at hshown ⊢
      rw [hshown.piece, hshown.surface]
      cases Interval.finite? interval.hole with
      | some v => exact ((hshown.withSurface _).modify _).activate.surface
      | none => exact (hshown.onSurface rfl).activate.surface

theorem surface_plotSequence (relation : List Char) (name : String) (style : PlotStyle) :
    (d.plotSequence relation name none style).2.surface =
      (c.plotSequence relation name none style).2.surface := by
  unfold plotSequence
  cases Restricted.ofText? relation name with
  | error e => exact h
  | ok r =>
    obtain ⟨n, m, c₁, d₁, hc, hd, hnew⟩ := Twins.acquire h .curve .sequence
    have hdescribed := hnew.describe r
    dsimp only
    rw [hc, hd]
    dsimp only
    rw [hdescribed.surface]
    cases Plot.integerSamples (c₁.describe n r).surface.bounds.xmin
        (c₁.describe n r).surface.bounds.xmax with
    | error e => exact hdescribed.surface
    | ok all => exact (hdescribed.showData style "markers" _ _).activate.surface

theorem surface_plotImplicit (relation : List Char) (axes : List String) (fast : Bool)
    (style : PlotStyle) : (d.plotImplicit relation axes fast none style).2.surface =
      (c.plotImplicit relation axes fast none style).2.surface := by
  unfold plotImplicit
  dsimp only
  cases Restricted.compile? (Relation.implicitExpression relation) axes with
  | error e => exact h
  | ok formula =>
    obtain ⟨n, m, c₁, d₁, hc, hd, hnew⟩ := Twins.acquire h .curve .implicit
    have hcleared := (hnew.modify fun p =>
      { p with
        relation := Relation.implicitExpression relation
        restriction := []
        interval := .universal
        function := some formula }).removeContours
    dsimp only
    rw [hc, hd]
    dsimp only
    rw [hcleared.surface]
    split
    next e htrace => exact hcleared.surface
    next lines htrace => exact (hcleared.addContours style lines).activate.surface

theorem surface_plotPoint (coords : List Float) (solid : Bool) (style : PlotStyle) :
    (d.plotPoint coords solid none style).2.surface =
      (c.plotPoint coords solid none style).2.surface := by
  obtain ⟨n, m, c₁, d₁, hc, hd, hnew⟩ := Twins.acquire h .point .point
  unfold plotPoint
  rw [hc, hd]
  dsimp only
  rw [hnew.piece, hnew.surface]
  cases Surface.pair? coords with
  | error e => exact hnew.surface
  | ok point => rfl

theorem surface_plotMark (value : Float) (functions : List ((Float → Float) × Interval Float))
    (style : PlotStyle) : (d.plotMark value functions none style).2.surface =
      (c.plotMark value functions none style).2.surface := by
  obtain ⟨n, m, c₁, d₁, hc, hd, hnew⟩ := Twins.acquire h .asymptote .asymptote
  have hnoted := hnew.modify fun p =>
    { p with
      relation := []
      restriction := ("x != " ++ Decimal.general value).toList
      interval := .punctured value }
  unfold plotMark
  rw [hc, hd]
  dsimp only
  rw [hnoted.piece, hnoted.surface]
  split
  · exact (((hnoted.withSurface _).modify _).onSurface rfl).activate.surface
  · exact (((hnoted.withSurface _).modify _).onSurface rfl).activate.surface

/-- What drawing a segment with a new piece does to the surface depends on nothing but the surface. -/
theorem surface_drawSegment (text : List Char) (k : Classification) (style : PlotStyle)
    (holes : List Float) (fast : Bool) :
    (d.drawSegment text k style none holes fast).2.surface =
      (c.drawSegment text k style none holes fast).2.surface := by
  unfold drawSegment
  cases k.family with
  | point =>
    dsimp only
    cases Interval.textBounds text with
    | error e => exact h
    | ok coords => exact surface_plotPoint h _ _ style
  | functionOfX =>
    dsimp only
    exact surface_plotFunction h text k.axis holes style
  | functionOfY =>
    dsimp only
    exact surface_plotSideways h text k.axis style
  | polar =>
    dsimp only
    exact surface_plotPolar h text k.axis style
  | parametric =>
    dsimp only
    exact surface_plotParametric h text k.axis style
  | sequence =>
    dsimp only
    exact surface_plotSequence h text k.axis style
  | implicit =>
    dsimp only
    exact surface_plotImplicit h text _ fast style
  | asymptote => exact h
  | unknown => exact h

end

/-- A segment that cannot be drawn with a new piece leaves the surface as it is. -/
theorem Uses.surface_of_error {kind : PieceKind} {family : Family} {Notes : Piece → Prop}
    {e : PlotFault} (h : c.Uses none kind family Notes (.error e, d)) : d.surface = c.surface := by
  cases h with
  | unread e => rfl
  | @parked e c₁ _ f acquired quiet idle clear =>
    obtain rfl : (c.acquire none kind family).2 = c₁ := congrArg Prod.snd acquired
    rcases clear with rfl | rfl
    · rfl
    · -- a new piece has no contours
      have hpiece : (c.acquire none kind family).2.piece? c.pieces.size =
          some { kind, family := some family } :=
        (piece?_acquire_none kind family _).trans (if_pos rfl)
      show (((((c.acquire none kind family).2.modify c.pieces.size f).piece?
        c.pieces.size).map (·.contours)).getD []).foldl Surface.remove c.surface = c.surface
      rw [piece?_modify_self hpiece, Option.map_some, quiet.contours_eq]
      rfl

end Graphing.Canvas
