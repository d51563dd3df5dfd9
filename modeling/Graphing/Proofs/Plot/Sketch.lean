/-
  Graphing.Proofs.Plot.Sketch

  What a segment looks like, told without pieces.

  A `Sketch` is what one piece shows of one segment.  It is computed from the
  text of the segment, the style, and the `Frame` of the surface alone: no
  piece and no handle comes into it.  Every family draws its sketch, and fails
  just if the sketch does.

  A family draws with some parts of a piece (`Family.parts`).  With a piece that
  shows something already it draws over it (`Overlays`): those parts show the
  sketch, and the others what they showed before.  A piece that is blank before
  shows the sketch and nothing else (`Draws`).
-/
import Graphing.Plot.Relation
import Graphing.Proofs.Plot.Draft

open Graphing.Relation (Classification Family assignedSide unrestricted)

namespace Graphing

/-! ## Sketches -/

/-- What a piece shows, and the function that it stands for. -/
@[ext]
structure Sketch where
  parts : Part → Option Shape := fun _ => none
  contours : List Shape := []
  source : Option ((Float → Float) × Interval Float) := none

/-- The shapes of a sketch, in the order of the handles of a piece. -/
def Sketch.shapes (s : Sketch) : List Shape := Part.all.filterMap s.parts ++ s.contours

/-- The parts of a piece that relations of a family are drawn with. -/
def Relation.Family.parts : Family → List Part
  | .functionOfX | .functionOfY => [.curve, .lower, .upper]
  | .polar | .parametric => [.curve, .lower, .upper, .hole]
  | .sequence => [.curve]
  | .point => [.point]
  | .asymptote => [.hole, .segment]
  | .implicit | .unknown => []

/-- A sketch shows nothing but the given parts, and contours. -/
def Sketch.Within (s : Sketch) (ps : List Part) : Prop :=
  ∀ σ, ps.contains σ = false → s.parts σ = none

/-- A sketch that is drawn with the given parts of a piece, over what the piece shows. -/
def Sketch.over (s : Sketch) (ps : List Part) (old : Part → Option Shape) : Sketch :=
  { s with parts := fun σ => if ps.contains σ then s.parts σ else old σ }

/-- Nothing of what the piece showed stays to be seen just if it showed nothing at the other
parts. -/
theorem Sketch.over_eq_self_iff {s : Sketch} {ps : List Part} (h : s.Within ps)
    {old : Part → Option Shape} :
    s.over ps old = s ↔ ∀ σ, ps.contains σ = false → old σ = none := by
  constructor
  · intro heq σ hσ
    have hparts : (if ps.contains σ then s.parts σ else old σ) = s.parts σ :=
      congrFun (congrArg Sketch.parts heq) σ
    rwa [hσ, if_neg Bool.false_ne_true, h σ hσ] at hparts
  · intro hold
    refine Sketch.ext (funext fun σ => ?_) rfl rfl
    show (if ps.contains σ then s.parts σ else old σ) = s.parts σ
    cases hσ : ps.contains σ with
    | true => rfl
    | false => rw [if_neg Bool.false_ne_true, hold σ hσ, h σ hσ]

namespace Frame

/-- One sample for each column of pixels, or for each row, and one more. -/
def samples (f : Frame) (a : Axis) : List Float :=
  ({ width := f.width, height := f.height, bounds := f.bounds } : Surface).pixelSamples a

/-- A function of the horizontal coordinate. -/
def ofFunction (f : Frame) (style : PlotStyle) (holes : List Float) (r : Restricted) : Sketch where
  parts
    | .curve => some (.line style "lines" (f.samples .x)
        ((f.samples .x).map (r.valueWithin holes)) (some (Canvas.sourceOverX r holes)))
    | .lower => Surface.boundShape r.interval.lower r.interval.lowerClosed
        (f.bounds.xmin, f.bounds.xmax) (fun v => (v, r.value v)) style
    | .upper => Surface.boundShape r.interval.upper r.interval.upperClosed
        (f.bounds.xmin, f.bounds.xmax) (fun v => (v, r.value v)) style
    | _ => none
  source := some (r.value, r.interval)

/-- A function of the vertical coordinate. -/
def ofSideways (f : Frame) (style : PlotStyle) (r : Restricted) : Sketch where
  parts
    | .curve => some (.line style "lines" ((f.samples .y).map (r.valueWithin [])) (f.samples .y)
        (some (Canvas.sourceOverY r)))
    | .lower => Surface.boundShape r.interval.lower r.interval.lowerClosed
        (f.bounds.ymin, f.bounds.ymax) (fun v => (r.value v, v)) style
    | .upper => Surface.boundShape r.interval.upper r.interval.upperClosed
        (f.bounds.ymin, f.bounds.ymax) (fun v => (r.value v, v)) style
    | _ => none

/-- A polar curve. -/
def ofPolar (style : PlotStyle) (r : Restricted) : Except PlotFault Sketch := do
  let range := r.polarRange
  let ts ← (Plot.parameterSamples range.1 range.2 style.density).mapError .sampling
  let polar := ts.map fun t => (r.valueWithin [] t, t)
  return {
    parts := fun
      | .curve => some (.line style "lines" (polar.map fun (d, t) => d * Float.cos t)
          (polar.map fun (d, t) => d * Float.sin t) none)
      | _ => none }

/-- The coordinates of a parametric pair, and the interval of the parameter. -/
def readPair (relation : List Char) (name : String) :
    Except PlotFault (CompiledFormula × CompiledFormula × Interval Float) := do
  match Relation.coordinates? (unrestricted relation) with
  | none => throw (.notParametric (String.ofList (unrestricted relation)))
  | some (x, y) =>
    let x ← Restricted.compile? x [name]
    let y ← Restricted.compile? y [name]
    return (x, y, ← Restricted.interval? (Relation.restriction relation))

/-- A parametric curve. -/
def ofParametric (f : Frame) (style : PlotStyle)
    (pair : CompiledFormula × CompiledFormula × Interval Float) : Except PlotFault Sketch := do
  let (x, y, interval) := pair
  let point (t : Float) : Float × Float := (x.valueAt #[t], y.valueAt #[t])
  let range := interval.clamp (smaller f.bounds.xmin f.bounds.ymin)
    (larger f.bounds.xmax f.bounds.ymax)
  let ts ← (Plot.parameterSamples range.1 range.2 style.density).mapError .sampling
  let points := ts.map fun t =>
    if interval.contains t then point t else (Binary64.nan, Binary64.nan)
  let view := (Scale.negInf, Scale.posInf)
  return {
    parts := fun
      | .curve => some (.line style "lines" (points.map Prod.fst) (points.map Prod.snd) none)
      | .lower => Surface.boundShape interval.lower interval.lowerClosed view point style
      | .upper => Surface.boundShape interval.upper interval.upperClosed view point style
      | .hole => (Interval.finite? interval.hole).map fun h => .circle style (point h) false
      | _ => none }

/-- A sequence. -/
def ofSequence (f : Frame) (style : PlotStyle) (r : Restricted) : Except PlotFault Sketch := do
  let all ← (Plot.integerSamples f.bounds.xmin f.bounds.xmax).mapError .range
  let ns := all.filter r.interval.contains
  return {
    parts := fun
      | .curve => some (.line style "markers" ns (ns.map r.value) none)
      | _ => none }

/-- An implicit relation. -/
def ofImplicit (f : Frame) (style : PlotStyle) (fast : Bool) (formula : CompiledFormula) :
    Except PlotFault Sketch := do
  let request : Contour.TraceRequest Float Float :=
    { function := formula.onPlane
      domain := f.bounds
      resolution := (f.width, f.height)
      fast }
  let lines ← (Contour.Tracer.usual.trace request none).1.mapError .trace
  return { contours := lines.map (Shape.contour style) }

/-- A point. -/
def ofPoint (style : PlotStyle) (coords : Float × Float) (solid : Bool) : Sketch where
  parts
    | .point => some (.circle style coords solid)
    | _ => none

/-- A segment of a relation, by its family. -/
def sketch (f : Frame) (text : List Char) (k : Classification) (style : PlotStyle)
    (holes : List Float) (fast : Bool) : Except PlotFault Sketch :=
  match k.family with
  | .point => do
    let coords ← (Interval.textBounds text).mapError .hole
    return ofPoint style coords ((Interval.point? text).any (·.opening == .round))
  | .functionOfX => return f.ofFunction style holes (← Restricted.ofText? text k.axis)
  | .functionOfY => return f.ofSideways style (← Restricted.ofText? text k.axis)
  | .polar => do ofPolar style (← Restricted.ofText? text k.axis)
  | .parametric => do f.ofParametric style (← readPair text k.axis)
  | .sequence => do f.ofSequence style (← Restricted.ofText? text k.axis)
  | .implicit => do
    let axes := Relation.implicitAxes k.names
    f.ofImplicit style fast
      (← Restricted.compile? (Relation.implicitExpression text) [axes.1, axes.2])
  | .asymptote | .unknown => throw .noFamily

/-- The mark of an excluded value. -/
def mark (f : Frame) (style : PlotStyle) (functions : List ((Float → Float) × Interval Float))
    (value : Float) : Sketch :=
  let y := Canvas.markValue functions value
  if y.isFinite then
    { parts := fun
        | .hole => some (.circle style (value, y) false)
        | _ => none }
  else
    { parts := fun
        | .segment => some (.wall style (value, f.bounds.ymin) (value, f.bounds.ymax))
        | _ => none }

end Frame

theorem Surface.pixelSamples_eq (s : Surface) (a : Axis) :
    s.pixelSamples a = s.frame.samples a := by
  cases a <;> rfl

namespace Canvas

variable {c : Canvas} {rest : List PieceId} {n : PieceId}

/-! ## Pieces that show a sketch -/

/-- The function of the horizontal coordinate that a piece stands for. -/
def Note.source? (ν : Note) : Option ((Float → Float) × Interval Float) := do
  let f ← ν.function
  if ν.family == some .functionOfX then some (fun x => f.valueAt #[x], ν.interval) else none

/-- What is to be seen of a piece. -/
def sketch (c : Canvas) (n : PieceId) : Sketch where
  parts σ := c.shapeAt n (.part σ)
  contours := c.contourShapes n
  source := (c.note? n).bind Note.source?

/-- A piece that does not exist shows nothing. -/
theorem parts_sketch_size (c : Canvas) : (c.sketch c.pieces.size).parts = fun _ => none := by
  funext σ
  show (c.spot? c.pieces.size (.part σ)).bind c.surface.shape? = none
  rw [spot?_size]
  rfl

theorem Blank.parts_sketch (h : c.Blank n) : (c.sketch n).parts = fun _ => none :=
  funext fun σ => h (.part σ)

/-- What comes of drawing a sketch with the given parts of a piece, beside other pieces. -/
inductive Overlays (c : Canvas) (existing : Option PieceId) (rest : List PieceId)
    (ps : List Part) : Except PlotFault Sketch → Outcome PieceId → Prop
  /-- The piece shows the sketch over what it showed before. Contours do not stay. -/
  | drawn {c' : Canvas} {s : Sketch}
      (plot : c'.InPlot (existing.getD c.pieces.size :: rest)) (keeps : Keeps c c' rest)
      (within : s.Within ps)
      (shows : c'.sketch (existing.getD c.pieces.size) =
        s.over ps (c.sketch (existing.getD c.pieces.size)).parts) :
      Overlays c existing rest ps (.ok s) (.ok (existing.getD c.pieces.size), c')
  /-- The parts of the piece show what they showed before. -/
  | failed {c' : Canvas} {e : PlotFault}
      (plot : c'.InPlot (existing.toList ++ rest)) (keeps : Keeps c c' rest)
      (shows : ∀ m, existing = some m → (c'.sketch m).parts = (c.sketch m).parts)
      (contours : ∀ m, existing = some m →
        c'.contourShapes m = [] ∨ c'.contourShapes m = c.contourShapes m) :
      Overlays c existing rest ps (.error e) (.error e, c')

/-- What comes of drawing a sketch with a blank piece, beside other pieces. -/
inductive Draws (c : Canvas) (existing : Option PieceId) (rest : List PieceId) :
    Except PlotFault Sketch → Outcome PieceId → Prop
  /-- The piece is blank before, and shows the sketch after. -/
  | drawn {c' : Canvas} {s : Sketch}
      (plot : c'.InPlot (existing.getD c.pieces.size :: rest)) (keeps : Keeps c c' rest)
      (shows : c'.sketch (existing.getD c.pieces.size) = s) :
      Draws c existing rest (.ok s) (.ok (existing.getD c.pieces.size), c')
  /-- The piece stays blank. -/
  | failed {c' : Canvas} {e : PlotFault}
      (plot : c'.InPlot (existing.toList ++ rest)) (keeps : Keeps c c' rest)
      (blank : ∀ m, existing = some m → c'.Blank m) :
      Draws c existing rest (.error e) (.error e, c')

/-- Over a blank piece nothing but the sketch is seen. -/
theorem Overlays.draws {existing : Option PieceId} {ps : List Part}
    {sketch : Except PlotFault Sketch} {outcome : Outcome PieceId}
    (h : c.Overlays existing rest ps sketch outcome)
    (hblank : ∀ m, existing = some m → c.Blank m) : c.Draws existing rest sketch outcome := by
  cases h with
  | drawn plot keeps within shows =>
    refine .drawn plot keeps ?_
    have hold : (c.sketch (existing.getD c.pieces.size)).parts = fun _ => none := by
      cases existing with
      | none => exact c.parts_sketch_size
      | some m => exact (hblank m rfl).parts_sketch
    rw [shows, hold, (Sketch.over_eq_self_iff within).mpr fun _ _ => rfl]
  | failed plot keeps shows contours =>
    refine .failed plot keeps fun m hm => blank_of_contourShapes (fun σ => ?_) ?_
    · exact (congrFun (shows m hm) σ).trans (hblank m hm _)
    · rcases contours m hm with hnil | hkept
      · exact hnil
      · rw [hkept, (hblank m hm).contourShapes]

/-- Nothing is drawn. -/
theorem Overlays.unread {existing : Option PieceId} (h : c.InPlot (existing.toList ++ rest))
    (ps : List Part) (e : PlotFault) : c.Overlays existing rest ps (.error e) (.error e, c) :=
  .failed h (.refl c rest) (fun _ _ => rfl) fun _ _ => .inr rfl

/-- A draft that shows a sketch over what the piece showed before. -/
theorem Draft.drawn {existing : Option PieceId} {c' : Canvas} {parts : Part → Option Shape}
    {contours : List Shape} {note : Note}
    (h : Draft c rest c' (existing.getD c.pieces.size) parts contours note) {s : Sketch}
    {ps : List Part} (hwithin : s.Within ps)
    (hparts : ∀ σ, parts σ =
      (s.over ps fun σ => c.shapeAt (existing.getD c.pieces.size) (.part σ)).parts σ)
    (hcontours : contours = s.contours) (hsource : note.source? = s.source) :
    c.Overlays existing rest ps (.ok s) (.ok (existing.getD c.pieces.size), c') :=
  .drawn h.inPlot h.keeps hwithin <| Sketch.ext
    (funext fun σ => (h.part σ).trans (hparts σ))
    (h.contour.trans hcontours)
    (by rw [sketch, h.noted, Option.bind_some, hsource]; rfl)

/-- A draft that is given up. -/
theorem Draft.failed {existing : Option PieceId} {c' : Canvas} {contours : List Shape} {note : Note}
    (h : Draft c rest c' (existing.getD c.pieces.size)
      (fun σ => c.shapeAt (existing.getD c.pieces.size) (.part σ)) contours note)
    (hcontours : contours = []) (ps : List Part) (e : PlotFault) :
    c.Overlays existing rest ps (.error e) (.error e, c') := by
  refine .failed h.undo h.keeps ?_ ?_
  · rintro m rfl
    exact funext fun σ => h.part σ
  · rintro m rfl
    exact .inl (h.contour.trans hcontours)

/-- Only functions of the horizontal coordinate are noted. -/
theorem Note.source?_of_ne {ν : Note} {family : Family} (h : ν.family = some family)
    (hne : family ≠ .functionOfX) : ν.source? = none := by
  obtain ⟨f, interval, function⟩ := ν
  cases function with
  | none => rfl
  | some g =>
    have : (f == some Family.functionOfX) = false := by
      rw [show f = some family from h]
      simpa using hne
    simp [Note.source?, this]

/-! ## Every family draws its sketch -/

section

variable {existing : Option PieceId} (h : c.InPlot (existing.toList ++ rest))

include h

theorem plotPolar_overlays (relation : List Char) (name : String) (style : PlotStyle) :
    c.Overlays existing rest (Family.parts .polar)
      (do Frame.ofPolar style (← Restricted.ofText? relation name))
      (c.plotPolar relation name existing style) := by
  unfold plotPolar
  cases Restricted.ofText? relation name with
  | error e => exact .unread h _ e
  | ok r =>
    obtain ⟨c₁, note, hacquire, hfamily, hd⟩ := h.acquire .curve .polar
    rcases hrange : r.polarRange with ⟨lo, hi⟩
    dsimp only
    rw [hacquire, hrange]
    show Overlays c existing rest _ (Frame.ofPolar style r) _
    rw [Frame.ofPolar, hrange]
    dsimp only
    cases Plot.parameterSamples lo hi style.density with
    | error e => exact (hd.describe r).failed rfl _ _
    | ok ts =>
      have hcurve := (hd.describe r).showData style "lines"
        ((ts.map fun t => (r.valueWithin [] t, t)).map fun (d, t) => d * Float.cos t)
        ((ts.map fun t => (r.valueWithin [] t, t)).map fun (d, t) => d * Float.sin t)
      dsimp only
      generalize Canvas.showData _ _ _ _ _ _ = c₂ at hcurve ⊢
      have hall := ((hcurve.hide .lower).hide .upper).hide .hole
      show Overlays c existing rest _ (.ok _) _
      refine hall.activate.drawn ?_ ?_ rfl (Note.source?_of_ne hfamily (by decide))
      · intro σ hσ
        cases σ <;> first | rfl | cases hσ
      · intro σ
        cases σ <;> rfl

theorem plotSequence_overlays (relation : List Char) (name : String) (style : PlotStyle) :
    c.Overlays existing rest (Family.parts .sequence)
      (do Frame.ofSequence c.surface.frame style (← Restricted.ofText? relation name))
      (c.plotSequence relation name existing style) := by
  unfold plotSequence
  cases Restricted.ofText? relation name with
  | error e => exact .unread h _ e
  | ok r =>
    obtain ⟨c₁, note, hacquire, hfamily, hd⟩ := h.acquire .curve .sequence
    have hbounds : c.surface.frame.bounds =
        (c₁.describe (existing.getD c.pieces.size) r).surface.bounds :=
      congrArg Frame.bounds hd.keeps.frame.symm
    dsimp only
    rw [hacquire]
    show Overlays c existing rest _ (Frame.ofSequence c.surface.frame style r) _
    rw [Frame.ofSequence, hbounds]
    dsimp only
    cases Plot.integerSamples (c₁.describe (existing.getD c.pieces.size) r).surface.bounds.xmin
        (c₁.describe (existing.getD c.pieces.size) r).surface.bounds.xmax with
    | error e => exact (hd.describe r).failed rfl _ _
    | ok all =>
      refine ((hd.describe r).showData style "markers" _ _).activate.drawn ?_ ?_ rfl
        (Note.source?_of_ne hfamily (by decide))
      · intro σ hσ
        cases σ <;> first | rfl | cases hσ
      · intro σ
        cases σ <;> rfl

theorem plotFunction_overlays (relation : List Char) (name : String) (holes : List Float)
    (style : PlotStyle) :
    c.Overlays existing rest (Family.parts .functionOfX)
      (do return c.surface.frame.ofFunction style holes (← Restricted.ofText? relation name))
      (c.plotFunction relation name holes existing style) := by
  unfold plotFunction
  cases Restricted.ofText? relation name with
  | error e => exact .unread h _ e
  | ok r =>
    obtain ⟨c₁, note, hacquire, hfamily, hd⟩ := h.acquire .curve .functionOfX
    dsimp only
    rw [hacquire]
    have hsamples : (c₁.describe (existing.getD c.pieces.size) r).surface.pixelSamples .x =
        c.surface.frame.samples .x :=
      (Surface.pixelSamples_eq _ .x).trans (congrArg (Frame.samples · .x) hd.keeps.frame)
    obtain ⟨c₂, hshow, hcurve⟩ := (hd.describe r).showSource style (sourceOverX r holes)
      (congrArg some hsamples)
      (congrArg (sourceOverX r holes).yOf hsamples)
    have hbounds : c₂.surface.bounds = c.surface.bounds := congrArg Frame.bounds hcurve.keeps.frame
    dsimp only
    rw [hshow]
    dsimp only
    rw [hbounds]
    refine (hcurve.placeBounds r.interval (c.surface.bounds.xmin, c.surface.bounds.xmax)
      (fun v => (v, r.value v)) style).activate.drawn ?_ ?_ rfl ?_
    · intro σ hσ
      cases σ <;> first | rfl | cases hσ
    · intro σ
      cases σ <;> rfl
    · simp [Note.source?, hfamily]
      rfl

theorem plotSideways_overlays (relation : List Char) (name : String) (style : PlotStyle) :
    c.Overlays existing rest (Family.parts .functionOfY)
      (do return c.surface.frame.ofSideways style (← Restricted.ofText? relation name))
      (c.plotSideways relation name existing style) := by
  unfold plotSideways
  cases Restricted.ofText? relation name with
  | error e => exact .unread h _ e
  | ok r =>
    obtain ⟨c₁, note, hacquire, hfamily, hd⟩ := h.acquire .curve .functionOfY
    dsimp only
    rw [hacquire]
    have hsamples : (c₁.describe (existing.getD c.pieces.size) r).surface.pixelSamples .y =
        c.surface.frame.samples .y :=
      (Surface.pixelSamples_eq _ .y).trans (congrArg (Frame.samples · .y) hd.keeps.frame)
    obtain ⟨c₂, hshow, hcurve⟩ := (hd.describe r).showSource style (sourceOverY r)
      (congrArg (sourceOverY r).xOf hsamples) (congrArg some hsamples)
    have hbounds : c₂.surface.bounds = c.surface.bounds := congrArg Frame.bounds hcurve.keeps.frame
    dsimp only
    rw [hshow]
    dsimp only
    rw [hbounds]
    refine (hcurve.placeBounds r.interval (c.surface.bounds.ymin, c.surface.bounds.ymax)
      (fun v => (r.value v, v)) style).activate.drawn ?_ ?_ rfl
      (Note.source?_of_ne hfamily (by decide))
    · intro σ hσ
      cases σ <;> first | rfl | cases hσ
    · intro σ
      cases σ <;> rfl

theorem plotParametric_overlays (relation : List Char) (name : String) (style : PlotStyle) :
    c.Overlays existing rest (Family.parts .parametric)
      (do c.surface.frame.ofParametric style (← Frame.readPair relation name))
      (c.plotParametric relation name existing style) := by
  unfold plotParametric
  dsimp only
  split
  next e hread =>
    rw [show Frame.readPair relation name = .error e from hread]
    exact .unread h _ e
  next x y interval hread =>
    rw [show Frame.readPair relation name = .ok (x, y, interval) from hread]
    obtain ⟨c₁, note, hacquire, hfamily, hd⟩ := h.acquire .curve .parametric
    -- no function is noted: a pair does not tell marks where to stand
    have hnoted := hd.annotate (f := fun p =>
        { p with
          relation := unrestricted relation
          restriction := Relation.restriction relation
          interval
          function := none })
      (fun p σ => by cases σ <;> rfl) (fun _ => rfl) (fun _ => rfl) (fun _ => rfl) fun _ => rfl
    rw [hacquire]
    dsimp only
    generalize Canvas.modify _ _ _ = c₂ at hnoted ⊢
    have hbounds : c₂.surface.bounds = c.surface.bounds := congrArg Frame.bounds hnoted.keeps.frame
    rw [hbounds]
    show Overlays c existing rest _ (Frame.ofParametric c.surface.frame style (x, y, interval)) _
    rw [Frame.ofParametric]
    dsimp only [Surface.frame]
    rcases interval.clamp (smaller c.surface.bounds.xmin c.surface.bounds.ymin)
      (larger c.surface.bounds.xmax c.surface.bounds.ymax) with ⟨lo, hi⟩
    dsimp only
    cases Plot.parameterSamples lo hi style.density with
    | error e => exact hnoted.failed rfl _ _
    | ok ts =>
      show Overlays c existing rest _ (.ok _) _
      dsimp only
      -- from here on it does not matter what the points are
      generalize (ts.map fun t => if interval.contains t = true then
        (x.valueAt #[t], y.valueAt #[t]) else (Binary64.nan, Binary64.nan)) = points
      have hends := (hnoted.showData style "lines" (points.map Prod.fst)
        (points.map Prod.snd)).placeBounds interval (Scale.negInf, Scale.posInf)
        (fun t => (x.valueAt #[t], y.valueAt #[t])) style
      generalize Canvas.placeBounds _ _ _ _ _ _ = c₃ at hends ⊢
      cases Interval.finite? interval.hole with
      | some v =>
        have hmark := hends.circle (.inl rfl) style (x.valueAt #[v], y.valueAt #[v]) false
        refine hmark.activate.drawn ?_ ?_ rfl (Note.source?_of_ne hfamily (by decide))
        · intro σ hσ
          cases σ <;> first | rfl | cases hσ
        · intro σ
          cases σ <;> rfl
      | none =>
        refine (hends.hide .hole).activate.drawn ?_ ?_ rfl (Note.source?_of_ne hfamily (by decide))
        · intro σ hσ
          cases σ <;> first | rfl | cases hσ
        · intro σ
          cases σ <;> rfl

theorem plotImplicit_overlays (relation : List Char) (axes : List String) (fast : Bool)
    (style : PlotStyle) :
    c.Overlays existing rest (Family.parts .implicit)
      (do
        let formula ← Restricted.compile? (Relation.implicitExpression relation) axes
        c.surface.frame.ofImplicit style fast formula)
      (c.plotImplicit relation axes fast existing style) := by
  unfold plotImplicit
  dsimp only
  cases Restricted.compile? (Relation.implicitExpression relation) axes with
  | error e => exact .unread h _ e
  | ok formula =>
    obtain ⟨c₁, note, hacquire, hfamily, hd⟩ := h.acquire .curve .implicit
    have hnoted := (hd.annotate (f := fun p =>
        { p with
          relation := Relation.implicitExpression relation
          restriction := []
          interval := .universal
          function := some formula })
      (fun p σ => by cases σ <;> rfl) (fun _ => rfl) (fun _ => rfl) (fun _ => rfl)
      fun _ => rfl).removeContours
    dsimp only
    rw [hacquire]
    dsimp only
    generalize Canvas.removeContours _ _ = c₂ at hnoted ⊢
    -- tracing looks at the frame alone, which is still the same
    have hframe : c₂.surface.frame = c.surface.frame := hnoted.keeps.frame
    have hbounds : c₂.surface.bounds = c.surface.bounds := congrArg Frame.bounds hframe
    have hwidth : c₂.surface.width = c.surface.width := congrArg Frame.width hframe
    have hheight : c₂.surface.height = c.surface.height := congrArg Frame.height hframe
    rw [hbounds, hwidth, hheight]
    show Overlays c existing rest _ (Frame.ofImplicit c.surface.frame style fast formula) _
    rw [Frame.ofImplicit]
    dsimp only [Surface.frame]
    cases (Contour.Tracer.usual.trace
        { function := formula.onPlane, domain := c.surface.bounds,
          resolution := (c.surface.width, c.surface.height), fast } none).1 with
    | error e => exact hnoted.failed rfl _ _
    | ok lines =>
      exact (hnoted.addContours hfamily style lines).activate.drawn (fun _ _ => rfl)
        (fun _ => rfl) rfl (Note.source?_of_ne hfamily (by decide))

theorem plotPoint_overlays (coords : Float × Float) (solid : Bool) (style : PlotStyle) :
    c.Overlays existing rest (Family.parts .point) (.ok (Frame.ofPoint style coords solid))
      (c.plotPoint [coords.1, coords.2] solid existing style) := by
  obtain ⟨c₁, note, hacquire, hfamily, hd⟩ := h.acquire .point .point
  rw [plotPoint, hacquire]
  dsimp only [Surface.pair?]
  have hpoint := (hd.circle (.inr rfl) style coords solid).modify (f := fun p =>
      { p with coords := some coords, solid, active := true })
    (fun p σ => by cases σ <;> rfl) (fun _ => rfl) (fun _ hp => hp) rfl
  rw [give, modify_modify] at hpoint
  refine hpoint.drawn ?_ ?_ rfl (Note.source?_of_ne hfamily (by decide))
  · intro σ hσ
    cases σ <;> first | rfl | cases hσ
  · intro σ
    cases σ <;> rfl

theorem plotMark_overlays (style : PlotStyle)
    (functions : List ((Float → Float) × Interval Float)) (value : Float) :
    c.Overlays existing rest (Family.parts .asymptote)
      (.ok (c.surface.frame.mark style functions value))
      (.ok (c.plotMark value functions existing style).1,
        (c.plotMark value functions existing style).2) := by
  obtain ⟨c₁, note, hacquire, hfamily, hd⟩ := h.acquire .asymptote .asymptote
  have hnoted : Draft c rest _ (existing.getD c.pieces.size) _ _
      ⟨note.family, .punctured value, note.function⟩ := hd.modify (f := fun p =>
        { p with
          relation := []
          restriction := ("x != " ++ Decimal.general value).toList
          interval := .punctured value })
    (fun p σ => by cases σ <;> rfl) (fun _ => rfl) (fun p hp => by rw [← hp]) rfl
  rw [plotMark, hacquire]
  dsimp only
  generalize Canvas.modify _ _ _ = c₂ at hnoted ⊢
  have hbounds : c₂.surface.bounds = c.surface.bounds := congrArg Frame.bounds hnoted.keeps.frame
  rw [Frame.mark, hbounds]
  -- a circle where the functions have a value, and else a line from bound to bound
  split
  · have hhole := hnoted.circle (.inl rfl) style (value, markValue functions value) false
    have hboth := hhole.hide .segment
    rw [spot?_give _ _ (by decide)] at hboth
    refine hboth.activate.drawn ?_ ?_ rfl (Note.source?_of_ne hfamily (by decide))
    · intro σ hσ
      cases σ <;> first | rfl | cases hσ
    · intro σ
      cases σ <;> rfl
  · have hwall := hnoted.wall style (value, c.surface.bounds.ymin) (value, c.surface.bounds.ymax)
    have hboth := hwall.hide .hole
    rw [spot?_give _ _ (by decide)] at hboth
    refine hboth.activate.drawn ?_ ?_ rfl (Note.source?_of_ne hfamily (by decide))
    · intro σ hσ
      cases σ <;> first | rfl | cases hσ
    · intro σ
      cases σ <;> rfl

/-- A segment draws its sketch over what the piece shows. -/
theorem drawSegment_overlays (text : List Char) (k : Classification) (style : PlotStyle)
    (holes : List Float) (fast : Bool) :
    c.Overlays existing rest k.family.parts (c.surface.frame.sketch text k style holes fast)
      (c.drawSegment text k style existing holes fast) := by
  unfold Frame.sketch drawSegment
  cases k.family with
  | point =>
    dsimp only
    cases Interval.textBounds text with
    | error e => exact .unread h _ _
    | ok coords => exact plotPoint_overlays h coords _ style
  | functionOfX => exact plotFunction_overlays h text k.axis holes style
  | functionOfY => exact plotSideways_overlays h text k.axis style
  | polar => exact plotPolar_overlays h text k.axis style
  | parametric => exact plotParametric_overlays h text k.axis style
  | sequence => exact plotSequence_overlays h text k.axis style
  | implicit =>
    exact plotImplicit_overlays h text
      [(Relation.implicitAxes k.names).1, (Relation.implicitAxes k.names).2] fast style
  | asymptote => exact .unread h _ _
  | unknown => exact .unread h _ _

/-! ## Blank pieces -/

variable (hblank : ∀ m, existing = some m → c.Blank m)

include hblank

/-- Drawing a segment with a blank piece draws its sketch. -/
theorem drawSegment_draws (text : List Char) (k : Classification) (style : PlotStyle)
    (holes : List Float) (fast : Bool) :
    c.Draws existing rest (c.surface.frame.sketch text k style holes fast)
      (c.drawSegment text k style existing holes fast) :=
  (drawSegment_overlays h text k style holes fast).draws hblank

theorem plotMark_draws (style : PlotStyle)
    (functions : List ((Float → Float) × Interval Float)) (value : Float) :
    c.Draws existing rest (.ok (c.surface.frame.mark style functions value))
      (.ok (c.plotMark value functions existing style).1,
        (c.plotMark value functions existing style).2) :=
  (plotMark_overlays h style functions value).draws hblank

end

end Canvas

end Graphing
