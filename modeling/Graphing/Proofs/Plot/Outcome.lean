/-
  Graphing.Proofs.Plot.Outcome

  What drawing returns, on any canvas at all.

  Whether a segment can be drawn is decided by its sketch: not even a piece
  whose handles were removed, or belong to another piece, makes drawing fail
  or succeed (`Follows`).  Such pieces may show the wrong thing, but what is
  skipped and what is returned stays the same.
-/
import Graphing.Proofs.Plot.Sketch

open Graphing.Relation (Classification Family unrestricted)

namespace Graphing

/-! ## The frame stays -/

namespace Surface

theorem frame_modify_update (s : Surface) (n : HandleId) (f : Handle → Handle) :
    ((s.modify n f).update n).frame = s.frame := frame_update _ n

theorem frame_modify (s : Surface) (n : HandleId) (f : Handle → Handle) :
    (s.modify n f).frame = s.frame := rfl

theorem frame_unhide (s : Surface) (n : HandleId) : (s.unhide n).frame = s.frame :=
  frame_update _ n

theorem frame_hideSome (s : Surface) (h : Option HandleId) : (s.hideSome h).frame = s.frame := by
  cases h with
  | none => rfl
  | some h => exact s.frame_hide h

theorem frame_placeCircle (s : Surface) (coords : Float × Float) (solid : Bool) (color : String)
    (existing : Option HandleId) (size : Option Float) :
    (s.placeCircle coords solid color existing size).2.frame = s.frame := by
  cases existing <;> exact frame_modify_update _ _ _

theorem frame_placeBound (s : Surface) (bound : Float) (closed : Bool) (view : Float × Float)
    (place : Float → Float × Float) (style : PlotStyle) (existing : Option HandleId) :
    (s.placeBound bound closed view place style existing).2.frame = s.frame := by
  unfold placeBound
  split
  · exact s.frame_placeCircle _ _ _ _ _
  · exact s.frame_hideSome existing

theorem frame_updateCurve (s : Surface) (n : HandleId) : (s.updateCurve n).2.frame = s.frame := by
  unfold updateCurve
  split
  · exact s.frame_update n
  · dsimp only
    split
    · rfl
    · split
      · rfl
      · exact frame_modify_update _ _ _

end Surface

namespace Canvas

variable (c : Canvas) (n : PieceId)

theorem surface_activate : (c.activate n).surface = c.surface := rfl

theorem frame_removeContours : (c.removeContours n).surface.frame = c.surface.frame :=
  foldl_keeps Surface.frame Surface.frame_remove _ _

theorem acquire_eq (existing : Option PieceId) (kind : PieceKind) (family : Family) :
    ∃ c₁ : Canvas, c.acquire existing kind family = (existing.getD c.pieces.size, c₁) ∧
      c₁.surface.frame = c.surface.frame := by
  cases existing with
  | none => exact ⟨_, rfl, rfl⟩
  | some n =>
    refine ⟨_, rfl, ?_⟩
    rw [surface_modify]
    split
    · exact c.frame_removeContours n
    · rfl

theorem frame_useCurve (style : PlotStyle) (mode : String) :
    (c.useCurve n style mode).2.surface.frame = c.surface.frame := by
  unfold useCurve
  cases (c.piece? n).bind (·.curve) <;> rfl

theorem frame_showData (style : PlotStyle) (mode : String) (xs ys : List Float) :
    (c.showData n style mode xs ys).surface.frame = c.surface.frame :=
  (Surface.frame_modify_update _ _ _).trans (c.frame_useCurve n style mode)

/-- A source whose coordinates can always be had is shown, whatever the piece holds. -/
theorem showSource_eq (style : PlotStyle) (source : LazySource)
    (hxs : ∀ ts, ∃ xs, source.xOf ts = some xs) (hys : ∀ ts, ∃ ys, source.yOf ts = some ys) :
    ∃ c', c.showSource n style source = (.ok (), c') ∧ c'.surface.frame = c.surface.frame := by
  let used := c.useCurve n style "lines"
  let s := used.2.surface.modify used.1 (Handle.mapCurve fun curve => curve.setSource source)
  -- a handle that is no curve has no source, and is merely updated
  have hsource : ((s.handle? used.1).bind (·.curve?)).bind (·.source) = none ∨
      ((s.handle? used.1).bind (·.curve?)).bind (·.source) = some source := by
    rw [Surface.handle?_modify, if_pos rfl]
    cases used.2.surface.handle? used.1 with
    | none => exact .inl rfl
    | some h =>
      obtain ⟨trace, shape, visible, removed⟩ := h
      cases shape with
      | curve curve => exact .inr rfl
      | marker m => exact .inl rfl
      | segment g => exact .inl rfl
  have hresult : (s.updateCurve used.1).1 = .ok () := by
    unfold Surface.updateCurve
    rcases hsource with h | h
    · rw [h]
    · rw [h]
      dsimp only
      obtain ⟨xs, hx⟩ := hxs (s.pixelSamples source.axis)
      obtain ⟨ys, hy⟩ := hys (s.pixelSamples source.axis)
      rw [hx]
      dsimp only
      rw [hy]
  refine ⟨{ used.2 with surface := (s.updateCurve used.1).2 }, ?_,
    (s.frame_updateCurve used.1).trans (c.frame_useCurve n style "lines")⟩
  show ((s.updateCurve used.1).1.mapError PlotFault.surface, _) = _
  rw [hresult]
  rfl

theorem frame_placeBounds (interval : Interval Float) (view : Float × Float)
    (place : Float → Float × Float) (style : PlotStyle) :
    (c.placeBounds n interval view place style).surface.frame = c.surface.frame :=
  (Surface.frame_placeBound _ _ _ _ _ _ _).trans (Surface.frame_placeBound _ _ _ _ _ _ _)

theorem frame_addContours (style : PlotStyle) (lines : List (List (Contour.Point Float))) :
    (c.addContours n style lines).surface.frame = c.surface.frame := by
  refine foldl_keeps (fun c : Canvas => c.surface.frame) (fun c line => ?_) lines c
  exact Surface.frame_modify_update _ _ _

/-! ## Every family follows its sketch -/

/-- An outcome that is decided by a sketch. -/
structure Follows (c : Canvas) (existing : Option PieceId) (sketch : Except PlotFault Sketch)
    (outcome : Outcome PieceId) : Prop where
  result : outcome.1 = sketch.map fun _ => existing.getD c.pieces.size
  frame : outcome.2.surface.frame = c.surface.frame

section

variable (existing : Option PieceId)

theorem plotFunction_follows (relation : List Char) (name : String) (holes : List Float)
    (style : PlotStyle) :
    c.Follows existing
      (do return c.surface.frame.ofFunction style holes (← Restricted.ofText? relation name))
      (c.plotFunction relation name holes existing style) := by
  unfold plotFunction
  cases Restricted.ofText? relation name with
  | error e => exact ⟨rfl, rfl⟩
  | ok r =>
    obtain ⟨c₁, hacquire, hframe⟩ := c.acquire_eq existing .curve .functionOfX
    dsimp only
    rw [hacquire]
    obtain ⟨c₂, hshow, hframe'⟩ := (c₁.describe (existing.getD c.pieces.size) r).showSource_eq
      (existing.getD c.pieces.size) style (sourceOverX r holes)
      (fun ts => ⟨_, rfl⟩) (fun ts => ⟨_, rfl⟩)
    dsimp only
    rw [hshow]
    refine ⟨rfl, ?_⟩
    show ((c₂.placeBounds _ _ _ _ _).activate _).surface.frame = _
    rw [surface_activate, frame_placeBounds, hframe']
    exact hframe

theorem plotSideways_follows (relation : List Char) (name : String) (style : PlotStyle) :
    c.Follows existing
      (do return c.surface.frame.ofSideways style (← Restricted.ofText? relation name))
      (c.plotSideways relation name existing style) := by
  unfold plotSideways
  cases Restricted.ofText? relation name with
  | error e => exact ⟨rfl, rfl⟩
  | ok r =>
    obtain ⟨c₁, hacquire, hframe⟩ := c.acquire_eq existing .curve .functionOfY
    dsimp only
    rw [hacquire]
    obtain ⟨c₂, hshow, hframe'⟩ := (c₁.describe (existing.getD c.pieces.size) r).showSource_eq
      (existing.getD c.pieces.size) style (sourceOverY r)
      (fun ts => ⟨_, rfl⟩) (fun ts => ⟨_, rfl⟩)
    dsimp only
    rw [hshow]
    refine ⟨rfl, ?_⟩
    show ((c₂.placeBounds _ _ _ _ _).activate _).surface.frame = _
    rw [surface_activate, frame_placeBounds, hframe']
    exact hframe

theorem plotPolar_follows (relation : List Char) (name : String) (style : PlotStyle) :
    c.Follows existing
      (do Frame.ofPolar style (← Restricted.ofText? relation name))
      (c.plotPolar relation name existing style) := by
  unfold plotPolar
  cases Restricted.ofText? relation name with
  | error e => exact ⟨rfl, rfl⟩
  | ok r =>
    obtain ⟨c₁, hacquire, hframe⟩ := c.acquire_eq existing .curve .polar
    rcases hrange : r.polarRange with ⟨lo, hi⟩
    dsimp only
    rw [hacquire, hrange]
    show Follows c existing (Frame.ofPolar style r) _
    rw [Frame.ofPolar, hrange]
    dsimp only
    cases Plot.parameterSamples lo hi style.density with
    | error e => exact ⟨rfl, hframe⟩
    | ok ts =>
      refine ⟨rfl, ?_⟩
      show ((onSurface _ _).activate _).surface.frame = _
      rw [surface_activate]
      show (((Surface.hideSome _ _).hideSome _).hideSome _).frame = _
      rw [Surface.frame_hideSome, Surface.frame_hideSome, Surface.frame_hideSome, frame_showData]
      exact hframe

theorem plotSequence_follows (relation : List Char) (name : String) (style : PlotStyle) :
    c.Follows existing
      (do Frame.ofSequence c.surface.frame style (← Restricted.ofText? relation name))
      (c.plotSequence relation name existing style) := by
  unfold plotSequence
  cases Restricted.ofText? relation name with
  | error e => exact ⟨rfl, rfl⟩
  | ok r =>
    obtain ⟨c₁, hacquire, hframe⟩ := c.acquire_eq existing .curve .sequence
    have hbounds : c.surface.frame.bounds =
        (c₁.describe (existing.getD c.pieces.size) r).surface.bounds :=
      congrArg Frame.bounds hframe.symm
    dsimp only
    rw [hacquire]
    show Follows c existing (Frame.ofSequence c.surface.frame style r) _
    rw [Frame.ofSequence, hbounds]
    dsimp only
    cases Plot.integerSamples (c₁.describe (existing.getD c.pieces.size) r).surface.bounds.xmin
        (c₁.describe (existing.getD c.pieces.size) r).surface.bounds.xmax with
    | error e => exact ⟨rfl, hframe⟩
    | ok all =>
      refine ⟨rfl, ?_⟩
      show ((showData _ _ _ _ _ _).activate _).surface.frame = _
      rw [surface_activate, frame_showData]
      exact hframe

theorem plotParametric_follows (relation : List Char) (name : String) (style : PlotStyle) :
    c.Follows existing
      (do c.surface.frame.ofParametric style (← Frame.readPair relation name))
      (c.plotParametric relation name existing style) := by
  unfold plotParametric
  dsimp only
  split
  next e hread =>
    rw [show Frame.readPair relation name = .error e from hread]
    exact ⟨rfl, rfl⟩
  next x y interval hread =>
    rw [show Frame.readPair relation name = .ok (x, y, interval) from hread]
    obtain ⟨c₁, hacquire, hframe⟩ := c.acquire_eq existing .curve .parametric
    have hbounds : c₁.surface.bounds = c.surface.bounds := congrArg Frame.bounds hframe
    rw [hacquire]
    dsimp only
    rw [surface_modify, hbounds]
    -- both sides clamp the interval to the same bounds
    show Follows c existing (Frame.ofParametric c.surface.frame style (x, y, interval)) _
    rw [Frame.ofParametric]
    dsimp only [Surface.frame]
    rcases interval.clamp (smaller c.surface.bounds.xmin c.surface.bounds.ymin)
      (larger c.surface.bounds.xmax c.surface.bounds.ymax) with ⟨lo, hi⟩
    dsimp only
    cases Plot.parameterSamples lo hi style.density with
    | error e => exact ⟨rfl, hframe⟩
    | ok ts =>
      refine ⟨rfl, ?_⟩
      cases Interval.finite? interval.hole with
      | some v =>
        show ((modify _ _ _).activate _).surface.frame = _
        rw [surface_activate, surface_modify]
        show (Surface.placeCircle _ _ _ _ _ _).2.frame = _
        rw [Surface.frame_placeCircle, frame_placeBounds, frame_showData]
        exact hframe
      | none =>
        show ((onSurface _ _).activate _).surface.frame = _
        rw [surface_activate]
        show (Surface.hideSome _ _).frame = _
        rw [Surface.frame_hideSome, frame_placeBounds, frame_showData]
        exact hframe

theorem plotImplicit_follows (relation : List Char) (axes : List String) (fast : Bool)
    (style : PlotStyle) :
    c.Follows existing
      (do
        let formula ← Restricted.compile? (Relation.implicitExpression relation) axes
        c.surface.frame.ofImplicit style fast formula)
      (c.plotImplicit relation axes fast existing style) := by
  unfold plotImplicit
  dsimp only
  cases Restricted.compile? (Relation.implicitExpression relation) axes with
  | error e => exact ⟨rfl, rfl⟩
  | ok formula =>
    obtain ⟨c₁, hacquire, hframe₁⟩ := c.acquire_eq existing .curve .implicit
    dsimp only
    rw [hacquire]
    dsimp only
    have hframe : ∀ f, ((c₁.modify (existing.getD c.pieces.size) f).removeContours
        (existing.getD c.pieces.size)).surface.frame = c.surface.frame := fun f =>
      (frame_removeContours _ _).trans hframe₁
    generalize hc₂ : removeContours _ _ = c₂
    replace hframe : c₂.surface.frame = c.surface.frame := by
      rw [← hc₂]
      exact hframe _
    -- tracing reads the frame only, and nothing before it has changed that
    have hbounds : c₂.surface.bounds = c.surface.bounds := congrArg Frame.bounds hframe
    have hwidth : c₂.surface.width = c.surface.width := congrArg Frame.width hframe
    have hheight : c₂.surface.height = c.surface.height := congrArg Frame.height hframe
    rw [hbounds, hwidth, hheight]
    show Follows c existing (Frame.ofImplicit c.surface.frame style fast formula) _
    rw [Frame.ofImplicit]
    dsimp only [Surface.frame]
    cases (Contour.Tracer.usual.trace
        { function := formula.onPlane, domain := c.surface.bounds,
          resolution := (c.surface.width, c.surface.height), fast } none).1 with
    | error e => exact ⟨rfl, hframe⟩
    | ok lines =>
      refine ⟨rfl, ?_⟩
      show ((addContours _ _ _ _).activate _).surface.frame = _
      rw [surface_activate, frame_addContours]
      exact hframe

theorem plotPoint_follows (coords : Float × Float) (solid : Bool) (style : PlotStyle) :
    c.Follows existing (.ok (Frame.ofPoint style coords solid))
      (c.plotPoint [coords.1, coords.2] solid existing style) := by
  obtain ⟨c₁, hacquire, hframe⟩ := c.acquire_eq existing .point .point
  rw [plotPoint, hacquire]
  refine ⟨rfl, ?_⟩
  show (Surface.placeCircle _ _ _ _ _ _).2.frame = _
  rw [Surface.frame_placeCircle]
  exact hframe

theorem plotMark_follows (style : PlotStyle)
    (functions : List ((Float → Float) × Interval Float)) (value : Float) :
    c.Follows existing (.ok (c.surface.frame.mark style functions value))
      (.ok (c.plotMark value functions existing style).1,
        (c.plotMark value functions existing style).2) := by
  obtain ⟨c₁, hacquire, hframe⟩ := c.acquire_eq existing .asymptote .asymptote
  rw [plotMark, hacquire]
  refine ⟨rfl, ?_⟩
  dsimp only
  generalize hc₂ : modify c₁ _ _ = c₂
  replace hframe : c₂.surface.frame = c.surface.frame := by
    rw [← hc₂]
    exact hframe
  rw [surface_activate]
  split
  · show (Surface.hideSome _ _).frame = _
    rw [Surface.frame_hideSome, surface_modify, Surface.frame_placeCircle]
    exact hframe
  · show (Surface.hideSome _ _).frame = _
    rw [Surface.frame_hideSome, surface_modify, Surface.frame_unhide, Surface.frame_modify]
    refine Eq.trans ?_ hframe
    split
    · rfl
    · exact Surface.frame_unhide _ _

/-- Whether a segment is drawn is decided by its sketch. -/
theorem drawSegment_follows (text : List Char) (k : Classification) (style : PlotStyle)
    (holes : List Float) (fast : Bool) :
    c.Follows existing (c.surface.frame.sketch text k style holes fast)
      (c.drawSegment text k style existing holes fast) := by
  unfold Frame.sketch drawSegment
  cases k.family with
  | point =>
    dsimp only
    cases Interval.textBounds text with
    | error e => exact ⟨rfl, rfl⟩
    | ok coords => exact plotPoint_follows c existing coords _ style
  | functionOfX => exact plotFunction_follows c existing text k.axis holes style
  | functionOfY => exact plotSideways_follows c existing text k.axis style
  | polar => exact plotPolar_follows c existing text k.axis style
  | parametric => exact plotParametric_follows c existing text k.axis style
  | sequence => exact plotSequence_follows c existing text k.axis style
  | implicit =>
    exact plotImplicit_follows c existing text
      [(Relation.implicitAxes k.names).1, (Relation.implicitAxes k.names).2] fast style
  | asymptote => exact ⟨rfl, rfl⟩
  | unknown => exact ⟨rfl, rfl⟩

end

end Canvas

end Graphing
