/-
  Graphing.Plot.Mark

  Single points, and the marks of excluded values: a hollow circle on a curve
  that has a value or a limit there, a dashed vertical line otherwise.
-/
import Graphing.Plot.Drawing

namespace Graphing

namespace Surface

/-- Show a circle at coordinates as they were read, on a figure that may refuse it. -/
def placeCircleAtOn (v : Validator) (s : Surface) (coords : List Float) (solid : Bool)
    (color : String) (existing : Option HandleId) (size : Option Float) :
    Except SurfaceFault HandleId × Surface :=
  let settings : MarkerSettings := { color := some color, solid := some solid, size }
  match existing with
  | none => s.createMarkerOn v coords ⟨settings, none⟩
  | some h =>
    match pair? coords with
    | .error e => (.error e, s)
    | .ok coords =>
      let s := s.modify h (Handle.mapMarker fun m => { m with coords }.configure settings)
      thenShow (.ok h) (s.setVisibleOn v h true)

end Surface

namespace Canvas

/-- Draw a point, filled or hollow. -/
def plotPoint (c : Canvas) (coords : List Float) (solid : Bool) (existing : Option PieceId)
    (style : PlotStyle) : Outcome PieceId :=
  let (n, c) := c.acquire existing .point .point
  match Surface.pair? coords with
  | .error e => (.error (.surface e), c)
  | .ok coords =>
    let old := (c.piece? n).bind (·.point)
    let (h, s) := c.surface.placeCircle coords solid style.color old (some style.size)
    (.ok n, ({ c with surface := s }).modify n fun p =>
      { p with coords := some coords, solid, point := some h, active := true })

/-- The value that functions on intervals have at an excluded place: the limit of the first function
whose interval contains it but for its own hole. -/
def markValue (functions : List ((Float → Float) × Interval Float)) (value : Float) : Float :=
  match functions.find? fun (_, i) => (i.withHole none).contains value with
  | some (f, _) => Plot.limitValue f value
  | none => Binary64.nan

/-- Draw the mark of an excluded value. -/
def plotMark (c : Canvas) (value : Float) (functions : List ((Float → Float) × Interval Float))
    (existing : Option PieceId) (style : PlotStyle) : PieceId × Canvas :=
  let (n, c) := c.acquire existing .asymptote .asymptote
  let c := c.modify n fun p =>
    { p with
      relation := []
      restriction := ("x != " ++ Decimal.general value).toList
      interval := .punctured value }
  let y := markValue functions value
  let part (f : Piece → Option HandleId) : Option HandleId := (c.piece? n).bind f
  let c :=
    if y.isFinite then
      let (h, s) := c.surface.placeCircle (value, y) false style.color (part (·.hole))
        (some style.size)
      (({ c with surface := s }).modify n fun p => { p with hole := some h }).onSurface fun s =>
        s.hideSome (part (·.segment))
    else
      let start := (value, c.surface.bounds.ymin)
      let finish := (value, c.surface.bounds.ymax)
      let (h, s) := match part (·.segment) with
        | some h => (h, c.surface)
        | none => c.surface.newSegment start finish {}
      let settings : SegmentSettings :=
        { color := some style.color, width := some style.width, dash := some dashedPattern }
      let s := s.modify h (Handle.mapSegment fun g => { g with start, finish }.configure settings)
      (({ c with surface := s.unhide h }).modify n fun p =>
        { p with segment := some h }).onSurface fun s => s.hideSome (part (·.hole))
  (n, c.activate n)

end Canvas
end Graphing
