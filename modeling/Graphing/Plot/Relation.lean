/-
  Graphing.Plot.Relation

  Plotting a piecewise relation. Every segment is drawn by its family, and
  every excluded value is marked. Pieces of an earlier plot are hidden first
  and used again in order; those that are left over stay hidden. A segment
  that cannot be drawn is skipped, and the others are drawn all the same.
-/
import Graphing.Plot.Explicit
import Graphing.Plot.Implicit
import Graphing.Plot.Mark
import Graphing.Plot.Parametric
import Graphing.Relation.Pieces

open Graphing.Relation (Classification Family)

namespace Graphing

/-! ## Options -/

/-- How a relation is plotted. -/
structure PlotOptions where
  style : StyleOptions := {}
  /-- The independent variable of bare relations and of `y = …`. -/
  name : String := "x"
  /-- Trace implicit relations coarsely. -/
  fast : Bool := false

/-- What was not drawn. -/
inductive Skipped where
  | segment (text : List Char)
  | mark (value : Float)

/-- The pieces of a plot: those in use, in the order of drawing, and then those left over. -/
structure PlotResult where
  pieces : List PieceId
  skipped : List Skipped

namespace Canvas

/-! ## Segments -/

/-- Draw one segment by its family. -/
def drawSegment (c : Canvas) (text : List Char) (k : Classification) (style : PlotStyle)
    (existing : Option PieceId) (holes : List Float) (fast : Bool) : Outcome PieceId :=
  match k.family with
  | .point =>
    match Interval.textBounds text with
    | .error h => (.error (.hole h), c)
    | .ok (x, y) =>
      c.plotPoint [x, y] ((Interval.point? text).any (·.opening == .round)) existing style
  | .functionOfX => c.plotFunction text k.axis holes existing style
  | .functionOfY => c.plotSideways text k.axis existing style
  | .polar => c.plotPolar text k.axis existing style
  | .parametric => c.plotParametric text k.axis existing style
  | .sequence => c.plotSequence text k.axis existing style
  | .implicit =>
    let axes := Relation.implicitAxes k.names
    c.plotImplicit text [axes.1, axes.2] fast existing style
  | .asymptote | .unknown => (.error .noFamily, c)

/-- The kind of piece that a family is drawn with. -/
def kindOf : Family → PieceKind
  | .point => .point
  | _ => .curve

/-! ## Progress of a plot -/

/-- What was drawn so far, and the pieces that can still be used. -/
structure Progress where
  canvas : Canvas
  pool : List PieceId
  drawn : List PieceId := []
  spare : List PieceId := []
  skipped : List Skipped := []

/-- Take the first piece of a kind out of the pool. -/
def Progress.take (p : Progress) (kind : PieceKind) : Option PieceId × Progress :=
  match p.canvas.indexOfKind? p.pool kind with
  | some i => (p.pool[i]?, { p with pool := p.pool.eraseIdx i })
  | none => (none, p)

/-- Note the outcome of drawing with a piece of the pool or a new one. -/
def Progress.note (p : Progress) (existing : Option PieceId) (what : Skipped)
    (outcome : Outcome PieceId) : Progress :=
  match outcome with
  | (.ok n, canvas) => { p with canvas, drawn := p.drawn ++ [n] }
  | (.error _, canvas) =>
    { p with canvas, spare := p.spare ++ existing.toList, skipped := p.skipped ++ [what] }

/-- Draw the next segment; excluded values are left for later. -/
def Progress.segment (style : PlotStyle) (holes : List Float) (fast : Bool) (p : Progress)
    (s : List Char × Classification) : Progress :=
  if s.2.family == .asymptote then p
  else
    let (existing, p) := p.take (kindOf s.2.family)
    p.note existing (.segment s.1) (p.canvas.drawSegment s.1 s.2 style existing holes fast)

/-- Mark the next excluded value. -/
def Progress.mark (style : PlotStyle) (functions : List ((Float → Float) × Interval Float))
    (p : Progress) (value : Float) : Progress :=
  let (existing, p) := p.take .asymptote
  let (n, canvas) := p.canvas.plotMark value functions existing style
  p.note existing (.mark value) (.ok n, canvas)

/-- The functions of the horizontal coordinate among some pieces, with their intervals. -/
def functionsOf (c : Canvas) (ns : List PieceId) : List ((Float → Float) × Interval Float) :=
  ns.filterMap fun n => do
    let p ← c.piece? n
    let f ← p.function
    if p.family == some .functionOfX then some (fun x => f.valueAt #[x], p.interval) else none

/-! ## Plots -/

/-- The finite values that the segments exclude. -/
def holeValues (segments : List (List Char × Classification)) : Except Hole (List Float) := do
  let values ← (segments.filter fun s => s.2.family == .asymptote).mapM fun s =>
    Interval.textHole s.1
  return values.filter Float.isFinite

/-- What a plot does within its suspension: hide the given pieces, and draw the segments and the marks
with them. -/
def plotWithin (c : Canvas) (relation : List Char) (style : PlotStyle) (options : PlotOptions)
    (previous : List PieceId) : Outcome PlotResult :=
  let c := previous.foldl hidePiece (c.onSurface Surface.suspend)
  let segments := (Relation.pieces (Text.lower relation)).map fun s =>
    (s, Relation.classify s options.name)
  match holeValues segments with
  | .error h => (.error (.hole h), c)
  | .ok holes =>
    let p := segments.foldl (Progress.segment style holes options.fast)
      { canvas := c, pool := previous }
    let p := holes.foldl (Progress.mark style (p.canvas.functionsOf p.drawn)) p
    (.ok { pieces := p.drawn ++ p.pool ++ p.spare, skipped := p.skipped }, p.canvas)

/-- Plot a relation with the pieces of an earlier plot, on a figure that takes all values. -/
def plot (c : Canvas) (relation : List Char) (options : PlotOptions) (previous : List PieceId) :
    Outcome PlotResult :=
  match PlotStyle.ofOptions? options.style with
  | .error e => (.error (.style e), c)
  | .ok style =>
    let (result, c) := c.plotWithin relation style options previous
    (result, c.onSurface Surface.resume)

/-- Plot a relation with the pieces of an earlier plot. Colors are not looked at before the figure
does so: then everything is drawn, but if one is refused the new pieces are not returned. -/
def plotOn (v : Validator) (c : Canvas) (relation : List Char) (options : PlotOptions)
    (previous : List PieceId) : Outcome PlotResult :=
  match PlotStyle.ofOptions? options.style with
  | .error e => (.error (.style e), c)
  | .ok style =>
    let (result, c) := c.plotWithin relation style options previous
    match c.surface.resumeOn v with
    | (.ok _, s) => (result, { c with surface := s })
    | (.error e, s) => (.error (.surface e), { c with surface := s })

/-! ## Laws -/

/-- Options that are refused leave the canvas as it is. -/
theorem plot_of_style_error {options : PlotOptions} {e : StyleFault}
    (h : PlotStyle.ofOptions? options.style = .error e) (c : Canvas) (relation : List Char)
    (previous : List PieceId) :
    c.plot relation options previous = (.error (.style e), c) := by
  simp [plot, h]

end Canvas
end Graphing
