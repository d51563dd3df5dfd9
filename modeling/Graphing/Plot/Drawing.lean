/-
  Graphing.Plot.Drawing

  What the families of relations have in common when they are drawn: reading a
  restricted formula, the curve of a piece, and the circles at the ends of an
  interval.
-/
import Graphing.Contour.Tracer
import Graphing.Interval.Text
import Graphing.Plot.Piece
import Graphing.Plot.Sampling

open Graphing.Relation (assignedSide unrestricted)

namespace Graphing

/-! ## Faults -/

/-- Why a segment cannot be drawn. -/
inductive PlotFault where
  | style (e : StyleFault)
  | formula (e : FormulaError)
  /-- A bound or a hole cannot be evaluated. -/
  | hole (h : Hole)
  /-- The text is no pair of coordinates. -/
  | notParametric (text : String)
  | sampling (e : Plot.SamplingFault)
  /-- The visible range holds no integers that can be counted. -/
  | range (e : Contour.RasterFault)
  | trace (e : Contour.TraceFault Float)
  | surface (e : SurfaceFault)
  /-- No family of curves fits the variables. -/
  | noFamily

/-- The wording of the fault, if it has one. -/
def PlotFault.message? : PlotFault → Option String
  | .style e => some e.message
  | .formula (.parse e) => some e.message
  | .formula (.compile e) => e.message?
  | .notParametric text => some ("Not a parametric pair: " ++ Text.Quoted.quoted text)
  | .trace e => e.message?
  | .surface e => e.message?
  | _ => none

/-- What an operation on a canvas gives, and the canvas after it. A fault leaves behind what was
done before it arose. -/
abbrev Outcome (α : Type) := Except PlotFault α × Canvas

/-! ## Restricted formulas -/

/-- A formula in one variable on an interval, with the texts they come from. -/
structure Restricted where
  expression : List Char
  restriction : List Char
  interval : Interval Float
  function : CompiledFormula

namespace Restricted

/-- Compile a text in the given variables. -/
def compile? (text : List Char) (parameters : List String) : Except PlotFault CompiledFormula :=
  (CompiledFormula.ofText (String.ofList text) parameters).mapError .formula

/-- The interval of a restriction. -/
def interval? (restriction : List Char) : Except PlotFault (Interval Float) :=
  (Interval.ofText restriction).mapError .hole

/-- Read a relation whose assigned side is a formula in one variable. -/
def ofText? (relation : List Char) (name : String) : Except PlotFault Restricted := do
  let expression := assignedSide (unrestricted relation)
  let function ← compile? expression [name]
  let restriction := Relation.restriction relation
  return { expression, restriction, interval := ← interval? restriction, function }

/-- The value of the formula, whether or not the place is in the interval. -/
def value (r : Restricted) (x : Float) : Float := r.function.valueAt #[x]

/-- The value of the formula on the interval without some holes, NaN elsewhere. -/
def valueWithin (r : Restricted) (holes : List Float) (x : Float) : Float :=
  if r.interval.contains x && holes.all fun h => x != h then r.value x else Binary64.nan

end Restricted

namespace Canvas

/-! ## Pieces in use -/

/-- Note what a piece shows. -/
def describe (c : Canvas) (n : PieceId) (r : Restricted) : Canvas :=
  c.modify n fun p =>
    { p with
      relation := r.expression
      restriction := r.restriction
      interval := r.interval
      function := some r.function }

/-- Note that a piece is part of what is drawn. -/
def activate (c : Canvas) (n : PieceId) : Canvas := c.modify n fun p => { p with active := true }

/-- The curve of a piece, made if it has none. It is visible from its next update on. -/
def useCurve (c : Canvas) (n : PieceId) (style : PlotStyle) (mode : String) :
    HandleId × Canvas :=
  let (h, s) := match (c.piece? n).bind (·.curve) with
    | some h => (h, c.surface)
    | none => c.surface.newCurve {}
  let settings : CurveSettings :=
    { color := some style.color, width := some style.width, dash := some style.dash
      mode := some mode, markerSize := some style.size }
  let s := s.modify h fun handle =>
    { handle.mapCurve (fun curve => curve.configure settings) with visible := true }
  (h, ({ c with surface := s }).modify n fun p => { p with curve := some h })

/-- Show given points with the curve of a piece. -/
def showData (c : Canvas) (n : PieceId) (style : PlotStyle) (mode : String)
    (xs ys : List Float) : Canvas :=
  let (h, c) := c.useCurve n style mode
  c.onSurface fun s => (s.modify h (Handle.mapCurve fun curve => curve.setData xs ys)).update h

/-- Show a lazy curve with the curve of a piece. -/
def showSource (c : Canvas) (n : PieceId) (style : PlotStyle) (source : LazySource) :
    Outcome Unit :=
  let (h, c) := c.useCurve n style "lines"
  let s := c.surface.modify h (Handle.mapCurve fun curve => curve.setSource source)
  let (result, s) := s.updateCurve h
  (result.mapError .surface, { c with surface := s })

end Canvas

/-! ## Circles -/

namespace Surface

/-- Show a filled or hollow circle: a new one, or a given one that is moved. -/
def placeCircle (s : Surface) (coords : Float × Float) (solid : Bool) (color : String)
    (existing : Option HandleId) (size : Option Float) : HandleId × Surface :=
  let settings : MarkerSettings := { color := some color, solid := some solid, size }
  match existing with
  | none => s.newMarker coords settings
  | some h =>
    let s := s.modify h (Handle.mapMarker fun m => { m with coords }.configure settings)
    (h, s.unhide h)

/-- Hide a handle if there is one. -/
def hideSome (s : Surface) (h : Option HandleId) : Surface :=
  match h with
  | some h => s.hide h
  | none => s

/-- Show the circle at a bound that is finite and in view; hide it otherwise. -/
def placeBound (s : Surface) (bound : Float) (closed : Bool) (view : Float × Float)
    (place : Float → Float × Float) (style : PlotStyle) (existing : Option HandleId) :
    Option HandleId × Surface :=
  if (Interval.finite? (some bound)).isSome && Interval.isBetween bound view.1 view.2 false then
    let (h, s) := s.placeCircle (place bound) closed style.color existing (some style.size)
    (some h, s)
  else (existing, s.hideSome existing)

end Surface

namespace Canvas

/-- Show circles at the bounds of an interval that are in view. -/
def placeBounds (c : Canvas) (n : PieceId) (interval : Interval Float) (view : Float × Float)
    (place : Float → Float × Float) (style : PlotStyle) : Canvas :=
  let existing (part : Piece → Option HandleId) : Option HandleId := (c.piece? n).bind part
  let (lower, s) := c.surface.placeBound interval.lower interval.lowerClosed view place style
    (existing (·.lower))
  let (upper, s) := s.placeBound interval.upper interval.upperClosed view place style
    (existing (·.upper))
  ({ c with surface := s }).modify n fun p => { p with lower, upper }

end Canvas
end Graphing
