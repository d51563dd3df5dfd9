/-
  Graphing.Proofs.Plot.Deferral

  Drawing curves at once, and while updates are suspended.

  A suspension defers what is shown, and nothing else.  So each family of curves
  does the same to the pieces and to the handles of canvases that are the `Same`
  but for what they show and what they are still to show; and what is known of
  drawing under a suspension is known of drawing at once.
-/
import Graphing.Plot.Explicit
import Graphing.Plot.Implicit
import Graphing.Plot.Parametric
import Graphing.Proofs.Plot.Ownership
import Graphing.Proofs.Surface.TwoRuns

namespace Graphing

/-! ## Surfaces -/

namespace Surface

/-- The same results, and surfaces that are the same but for what they show. -/
def SameResults {α : Type} (a b : α × Surface) : Prop := b.1 = a.1 ∧ Same a.2 b.2

namespace Same

variable {s t : Surface} (h : Same s t)

include h

theorem handles : t.handles = s.handles := by
  obtain ⟨f, q, d, rfl⟩ := h
  rfl

theorem frame : t.frame = s.frame := by
  obtain ⟨f, q, d, rfl⟩ := h
  rfl

theorem pixelSamples (a : Axis) : t.pixelSamples a = s.pixelSamples a := by
  obtain ⟨f, q, d, rfl⟩ := h
  cases a <;> rfl

theorem handle? (n : HandleId) : t.handle? n = s.handle? n := by
  rw [Surface.handle?, Surface.handle?, h.handles]

theorem modify (n : HandleId) (f : Handle → Handle) : Same (s.modify n f) (t.modify n f) := by
  obtain ⟨g, q, d, rfl⟩ := h
  exact ⟨g, q, d, rfl⟩

theorem updated (n : HandleId) : Same (s.update n) (t.update n) :=
  ((Same.update s n).symm.trans h).trans (Same.update t n)

theorem setVisible (n : HandleId) (visible : Bool) :
    Same (s.setVisible n visible) (t.setVisible n visible) :=
  (h.modify n _).updated n

theorem addHandle (mode : String) (shape : Shape) :
    SameResults (s.addHandle mode shape) (t.addHandle mode shape) := by
  obtain ⟨g, q, d, rfl⟩ := h
  exact ⟨rfl, _, q, d, rfl⟩

theorem remove (n : HandleId) : Same (s.remove n) (t.remove n) := by
  have hhandle := h.handle? n
  unfold Surface.remove
  rw [hhandle]
  cases s.handle? n with
  | none => exact h
  | some k =>
    dsimp only
    split
    · exact h
    · obtain ⟨g, q, d, rfl⟩ := h
      exact ⟨_, _, d, rfl⟩

theorem foldl_remove (ns : List HandleId) :
    Same (ns.foldl Surface.remove s) (ns.foldl Surface.remove t) := by
  induction ns generalizing s t with
  | nil => exact h
  | cons n ns ih => exact ih (h.remove n)

theorem placeCircle (coords : Float × Float) (solid : Bool) (color : String)
    (existing : Option HandleId) (size : Option Float) :
    SameResults (s.placeCircle coords solid color existing size)
      (t.placeCircle coords solid color existing size) := by
  cases existing with
  | none =>
    have hnew := h.addHandle "markers" (.marker (({ coords } : Marker).configure
      { color := some color, solid := some solid, size }))
    obtain ⟨g, q, d, rfl⟩ := h
    exact ⟨rfl, hnew.2.setVisible _ true⟩
  | some k => exact ⟨rfl, (h.modify k _).setVisible k true⟩

theorem hideSome (existing : Option HandleId) :
    Same (s.hideSome existing) (t.hideSome existing) := by
  cases existing with
  | none => exact h
  | some k => exact h.setVisible k false

theorem placeBound (bound : Float) (closed : Bool) (view : Float × Float)
    (place : Float → Float × Float) (style : PlotStyle) (existing : Option HandleId) :
    SameResults (s.placeBound bound closed view place style existing)
      (t.placeBound bound closed view place style existing) := by
  unfold Surface.placeBound
  split
  · have hplaced := h.placeCircle (place bound) closed style.color existing (some style.size)
    exact ⟨congrArg some hplaced.1, hplaced.2⟩
  · exact ⟨rfl, h.hideSome existing⟩

theorem updateCurve (n : HandleId) : SameResults (s.updateCurve n) (t.updateCurve n) := by
  unfold Surface.updateCurve
  rw [h.handle?]
  cases ((s.handle? n).bind (·.curve?)).bind (·.source) with
  | none => exact ⟨rfl, h.updated n⟩
  | some source =>
    dsimp only
    rw [h.pixelSamples]
    cases source.xOf (s.pixelSamples source.axis) with
    | none => exact ⟨rfl, h⟩
    | some xs =>
      dsimp only
      cases source.yOf (s.pixelSamples source.axis) with
      | none => exact ⟨rfl, h.modify n _⟩
      | some ys => exact ⟨rfl, ((h.modify n _).modify n _).updated n⟩

end Same

end Surface

/-! ## Canvases -/

namespace Canvas

variable {c d : Canvas} {n : PieceId}

/-- Canvases with the same pieces and the same handles. -/
structure Same (c d : Canvas) : Prop where
  surface : Surface.Same c.surface d.surface
  pieces : d.pieces = c.pieces

/-- The same results, and canvases that are the same but for what they show. -/
def SameOutcomes {α : Type} (a b : Outcome α) : Prop := b.1 = a.1 ∧ Same a.2 b.2

namespace Same

variable (h : Same c d)

include h

theorem piece? (n : PieceId) : d.piece? n = c.piece? n := by
  rw [Canvas.piece?, Canvas.piece?, h.pieces]

theorem modify (n : PieceId) (f : Piece → Piece) : Same (c.modify n f) (d.modify n f) :=
  ⟨h.surface, congrArg (·.modify n f) h.pieces⟩

theorem describe (n : PieceId) (r : Restricted) : Same (c.describe n r) (d.describe n r) :=
  h.modify n _

theorem activate (n : PieceId) : Same (c.activate n) (d.activate n) := h.modify n _

theorem withSurface {s t : Surface} (hs : Surface.Same s t) :
    Same { c with surface := s } { d with surface := t } := ⟨hs, h.pieces⟩

theorem hideSome (k : Option HandleId) :
    Same (c.onSurface fun s => s.hideSome k) (d.onSurface fun s => s.hideSome k) :=
  h.withSurface (h.surface.hideSome k)

theorem hideMarkers (lower upper hole : Option HandleId) :
    Same (c.onSurface fun s => ((s.hideSome lower).hideSome upper).hideSome hole)
      (d.onSurface fun s => ((s.hideSome lower).hideSome upper).hideSome hole) :=
  h.withSurface (((h.surface.hideSome lower).hideSome upper).hideSome hole)

theorem removeContours (n : PieceId) : Same (c.removeContours n) (d.removeContours n) := by
  unfold Canvas.removeContours
  dsimp only
  rw [h.piece?]
  exact (h.withSurface (h.surface.foldl_remove _)).modify n _

theorem bounds : d.surface.bounds = c.surface.bounds := congrArg Frame.bounds h.surface.frame

theorem width : d.surface.width = c.surface.width := congrArg Frame.width h.surface.frame

theorem height : d.surface.height = c.surface.height := congrArg Frame.height h.surface.frame

theorem acquire (existing : Option PieceId) (kind : PieceKind) (family : Relation.Family) :
    ∃ n c' d', c.acquire existing kind family = (n, c') ∧
      d.acquire existing kind family = (n, d') ∧ Same c' d' := by
  cases existing with
  | none =>
    refine ⟨_, _, (d.acquire none kind family).2, rfl,
      Prod.ext (congrArg Array.size h.pieces) rfl, h.surface, ?_⟩
    show d.pieces.push _ = c.pieces.push _
    rw [h.pieces]
  | some n =>
    refine ⟨_, _, _, rfl, rfl, ?_⟩
    rw [h.piece?]
    split
    · exact (h.removeContours n).modify n _
    · exact h.modify n _

theorem useCurve (n : PieceId) (style : PlotStyle) (mode : String) :
    (d.useCurve n style mode).1 = (c.useCurve n style mode).1 ∧
      Same (c.useCurve n style mode).2 (d.useCurve n style mode).2 := by
  unfold Canvas.useCurve
  rw [h.piece?]
  cases (c.piece? n).bind (·.curve) with
  | none =>
    have hnew := h.surface.addHandle "lines" (.curve (({} : Curve).configure {}))
    dsimp only
    refine ⟨hnew.1, ?_⟩
    rw [show (d.surface.newCurve {}).1 = (c.surface.newCurve {}).1 from hnew.1]
    exact (h.withSurface (hnew.2.modify _ _)).modify n _
  | some k => exact ⟨rfl, (h.withSurface (h.surface.modify k _)).modify n _⟩

theorem showData (n : PieceId) (style : PlotStyle) (mode : String) (xs ys : List Float) :
    Same (c.showData n style mode xs ys) (d.showData n style mode xs ys) := by
  obtain ⟨hk, hcurve⟩ := h.useCurve n style mode
  unfold Canvas.showData
  dsimp only
  rw [hk]
  exact hcurve.withSurface ((hcurve.surface.modify _ _).updated _)

theorem showSource (n : PieceId) (style : PlotStyle) (source : LazySource) :
    ∃ result c' d', c.showSource n style source = (result, c') ∧
      d.showSource n style source = (result, d') ∧ Same c' d' := by
  obtain ⟨hk, hcurve⟩ := h.useCurve n style "lines"
  unfold Canvas.showSource
  dsimp only
  rw [hk]
  obtain ⟨hresult, hsampled⟩ := (hcurve.surface.modify (c.useCurve n style "lines").1
    (Handle.mapCurve fun curve => curve.setSource source)).updateCurve
      (c.useCurve n style "lines").1
  rw [hresult]
  exact ⟨_, _, _, rfl, rfl, hcurve.withSurface hsampled⟩

theorem placeBounds (n : PieceId) (interval : Interval Float) (view : Float × Float)
    (place : Float → Float × Float) (style : PlotStyle) :
    Same (c.placeBounds n interval view place style)
      (d.placeBounds n interval view place style) := by
  unfold Canvas.placeBounds
  dsimp only
  rw [h.piece?]
  obtain ⟨hlower, hfirst⟩ := h.surface.placeBound interval.lower interval.lowerClosed view place
    style ((c.piece? n).bind (·.lower))
  obtain ⟨hupper, hsecond⟩ := hfirst.placeBound interval.upper interval.upperClosed view place
    style ((c.piece? n).bind (·.upper))
  rw [hlower, hupper]
  exact (h.withSurface hsecond).modify n _

theorem addContours (n : PieceId) (style : PlotStyle) (lines : List (List (Contour.Point Float))) :
    Same (c.addContours n style lines) (d.addContours n style lines) := by
  unfold Canvas.addContours
  induction lines generalizing c d with
  | nil => exact h
  | cons line lines ih =>
    have hnew := h.surface.addHandle "lines" (.curve (({} : Curve).configure
      { color := some style.color, width := some style.width, dash := some style.dash }))
    rw [List.foldl_cons, List.foldl_cons]
    refine ih ?_
    dsimp only
    rw [show ∀ settings, (d.surface.newCurve settings).1 = (c.surface.newCurve settings).1 from
      fun settings => (h.surface.addHandle "lines" (.curve (({} : Curve).configure settings))).1]
    exact (h.withSurface ((hnew.2.modify _ _).setVisible _ true)).modify n _

/-! ## Families of curves -/

theorem plotFunction (relation : List Char) (name : String) (holes : List Float)
    (existing : Option PieceId) (style : PlotStyle) :
    SameOutcomes (c.plotFunction relation name holes existing style)
      (d.plotFunction relation name holes existing style) := by
  unfold Canvas.plotFunction
  cases Restricted.ofText? relation name with
  | error e => exact ⟨rfl, h⟩
  | ok r =>
    obtain ⟨n, c₁, d₁, hc, hd, hacquired⟩ := h.acquire existing .curve .functionOfX
    obtain ⟨result, c₂, d₂, hshow, hshow', hshown⟩ :=
      (hacquired.describe n r).showSource n style (sourceOverX r holes)
    dsimp only
    rw [hc, hd]
    dsimp only
    rw [hshow, hshow']
    cases result with
    | error e => exact ⟨rfl, hshown⟩
    | ok _ =>
      dsimp only
      rw [hshown.bounds]
      exact ⟨rfl, (hshown.placeBounds n _ _ _ style).activate n⟩

theorem plotSideways (relation : List Char) (name : String) (existing : Option PieceId)
    (style : PlotStyle) :
    SameOutcomes (c.plotSideways relation name existing style)
      (d.plotSideways relation name existing style) := by
  unfold Canvas.plotSideways
  cases Restricted.ofText? relation name with
  | error e => exact ⟨rfl, h⟩
  | ok r =>
    obtain ⟨n, c₁, d₁, hc, hd, hacquired⟩ := h.acquire existing .curve .functionOfY
    obtain ⟨result, c₂, d₂, hshow, hshow', hshown⟩ :=
      (hacquired.describe n r).showSource n style (sourceOverY r)
    dsimp only
    rw [hc, hd]
    dsimp only
    rw [hshow, hshow']
    cases result with
    | error e => exact ⟨rfl, hshown⟩
    | ok _ =>
      dsimp only
      rw [hshown.bounds]
      exact ⟨rfl, (hshown.placeBounds n _ _ _ style).activate n⟩

theorem plotPolar (relation : List Char) (name : String) (existing : Option PieceId)
    (style : PlotStyle) :
    SameOutcomes (c.plotPolar relation name existing style)
      (d.plotPolar relation name existing style) := by
  unfold Canvas.plotPolar
  cases Restricted.ofText? relation name with
  | error e => exact ⟨rfl, h⟩
  | ok r =>
    obtain ⟨n, c₁, d₁, hc, hd, hacquired⟩ := h.acquire existing .curve .polar
    have hdescribed := hacquired.describe n r
    dsimp only
    rw [hc, hd]
    dsimp only
    cases Plot.parameterSamples r.polarRange.1 r.polarRange.2 style.density with
    | error e => exact ⟨rfl, hdescribed⟩
    | ok ts =>
      have hcurve := hdescribed.showData n style "lines"
      dsimp only
      rw [(hcurve _ _).piece?]
      exact ⟨rfl, ((hcurve _ _).hideMarkers _ _ _).activate n⟩

theorem plotParametric (relation : List Char) (name : String) (existing : Option PieceId)
    (style : PlotStyle) :
    SameOutcomes (c.plotParametric relation name existing style)
      (d.plotParametric relation name existing style) := by
  unfold Canvas.plotParametric
  dsimp only
  split
  next e hread => exact ⟨rfl, h⟩
  next x y interval hread =>
    obtain ⟨n, c₁, d₁, hc, hd, hacquired⟩ := h.acquire existing .curve .parametric
    have hnoted := hacquired.modify n fun p =>
      { p with
        relation := Relation.unrestricted relation
        restriction := Relation.restriction relation
        interval
        function := none }
    rw [hc, hd]
    dsimp only
    rw [hnoted.bounds]
    split
    next e hsamples => exact ⟨rfl, hnoted⟩
    next ts hsamples =>
      -- both canvases show the same samples
      generalize (ts.map fun t => if interval.contains t = true then
        (x.valueAt #[t], y.valueAt #[t]) else (Binary64.nan, Binary64.nan)) = points
      have hcurve := hnoted.showData n style "lines" (points.map Prod.fst) (points.map Prod.snd)
      have hends := hcurve.placeBounds n interval (Scale.negInf, Scale.posInf)
        (fun t => (x.valueAt #[t], y.valueAt #[t])) style
      generalize Canvas.placeBounds _ n _ _ _ _ = c₂ at hends ⊢
      generalize Canvas.placeBounds _ n _ _ _ _ = d₂ at hends ⊢
      rw [hends.piece?]
      -- the circle at the hole has the same handle in both
      cases Interval.finite? interval.hole with
      | some v =>
        obtain ⟨hk, hplaced⟩ := hends.surface.placeCircle (x.valueAt #[v], y.valueAt #[v]) false
          style.color ((c₂.piece? n).bind (·.hole)) (some style.size)
        dsimp only
        rw [hk]
        exact ⟨rfl, ((hends.withSurface hplaced).modify n _).activate n⟩
      | none => exact ⟨rfl, (hends.hideSome _).activate n⟩

theorem plotSequence (relation : List Char) (name : String) (existing : Option PieceId)
    (style : PlotStyle) :
    SameOutcomes (c.plotSequence relation name existing style)
      (d.plotSequence relation name existing style) := by
  unfold Canvas.plotSequence
  cases Restricted.ofText? relation name with
  | error e => exact ⟨rfl, h⟩
  | ok r =>
    obtain ⟨n, c₁, d₁, hc, hd, hacquired⟩ := h.acquire existing .curve .sequence
    have hdescribed := hacquired.describe n r
    dsimp only
    rw [hc, hd]
    dsimp only
    rw [hdescribed.bounds]
    cases Plot.integerSamples (c₁.describe n r).surface.bounds.xmin
        (c₁.describe n r).surface.bounds.xmax with
    | error e => exact ⟨rfl, hdescribed⟩
    | ok all => exact ⟨rfl, (hdescribed.showData n style "markers" _ _).activate n⟩

theorem plotImplicit (relation : List Char) (axes : List String) (fast : Bool)
    (existing : Option PieceId) (style : PlotStyle) :
    SameOutcomes (c.plotImplicit relation axes fast existing style)
      (d.plotImplicit relation axes fast existing style) := by
  unfold Canvas.plotImplicit
  dsimp only
  cases Restricted.compile? (Relation.implicitExpression relation) axes with
  | error e => exact ⟨rfl, h⟩
  | ok formula =>
    obtain ⟨n, c₁, d₁, hc, hd, hacquired⟩ := h.acquire existing .curve .implicit
    have hcleared := (hacquired.modify n fun p =>
      { p with
        relation := Relation.implicitExpression relation
        restriction := []
        interval := .universal
        function := some formula }).removeContours n
    dsimp only
    rw [hc, hd]
    dsimp only
    rw [hcleared.bounds, hcleared.width, hcleared.height]
    split
    next e htrace => exact ⟨rfl, hcleared⟩
    next lines htrace => exact ⟨rfl, (hcleared.addContours n style lines).activate n⟩

end Same

end Canvas

end Graphing
