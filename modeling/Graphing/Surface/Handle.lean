/-
  Graphing.Surface.Handle

  The primitives of a surface: curves, points and segments. Each has its own
  state, and shows it in a trace of the figure when it is asked to.
-/
import Graphing.Plot.Style

namespace Graphing

/-! ## Traces -/

/-- How a line looks. -/
structure LineStyle where
  color : String
  width : Float
  dash : String
  deriving Repr

/-- How a marker looks; its outline has a color and a width. -/
structure MarkerStyle where
  color : String
  size : Float
  outline : Option (String × Float) := none
  deriving Repr

/-- What a figure draws. A trace that nothing was shown in yet has no line and no marker. -/
structure Trace where
  id : Nat
  xs : List Float := []
  ys : List Float := []
  mode : String
  visible : Bool := false
  line : Option LineStyle := none
  marker : Option MarkerStyle := none

/-! ## Curves -/

/-- The axis that a curve is sampled along. -/
inductive Axis where
  | x
  | y
  deriving Repr, DecidableEq

/-- Read the name of an axis. -/
def Axis.ofText? (s : String) : Option Axis :=
  if s == "x" then some .x else if s == "y" then some .y else none

/-- Coordinates at samples; nothing if they cannot be had. -/
abbrev Producer := List Float → Option (List Float)

/-- Where a lazy curve gets its points from: a coordinate along each axis for samples along one. -/
structure LazySource where
  xOf : Producer
  yOf : Producer
  axis : Axis

/-- A polyline of given points, or of points that are sampled when it is shown. -/
structure Curve where
  xs : List Float := []
  ys : List Float := []
  color : String := PlotStyle.usual.color
  width : Float := PlotStyle.usual.width
  dash : String := solidPattern
  mode : String := "lines"
  markerSize : Float := PlotStyle.usual.size
  source : Option LazySource := none

/-- Changes to the looks of a curve. -/
structure CurveSettings where
  color : Option String := none
  width : Option Float := none
  dash : Option String := none
  mode : Option String := none
  markerSize : Option Float := none

/-- Read changes to the looks of a curve. -/
def CurveSettings.read (s : Settings) : Readout CurveSettings :=
  match s.only ["color", "width", "dash", "mode", "marker_size"] with
  | .error e => ⟨{}, some e⟩
  | .ok _ =>
    let changes : CurveSettings := { color := s.text? "color" }
    match s.number? "width" with
    | .error e => ⟨changes, some e⟩
    | .ok width =>
      let changes := { changes with width, dash := s.text? "dash", mode := s.text? "mode" }
      match s.number? "marker_size" with
      | .error e => ⟨changes, some e⟩
      | .ok markerSize => ⟨{ changes with markerSize }, none⟩

/-- Change the looks of a curve. -/
def Curve.configure (c : Curve) (s : CurveSettings) : Curve :=
  { c with
    color := s.color.getD c.color
    width := s.width.getD c.width
    dash := s.dash.getD c.dash
    mode := s.mode.getD c.mode
    markerSize := s.markerSize.getD c.markerSize }

/-- Give a curve its points. It is lazy no more. -/
def Curve.setData (c : Curve) (xs ys : List Float) : Curve := { c with xs, ys, source := none }

/-- Make a curve lazy. Its points stay until it is sampled. -/
def Curve.setSource (c : Curve) (source : LazySource) : Curve := { c with source := some source }

/-- Whether a curve is lazy. -/
def Curve.isLazy (c : Curve) : Bool := c.source.isSome

/-- Show a curve in a trace. -/
def Curve.render (c : Curve) (t : Trace) : Trace :=
  { t with
    xs := c.xs
    ys := c.ys
    mode := c.mode
    line := some ⟨c.color, c.width, c.dash⟩
    marker := some ⟨c.color, c.markerSize, none⟩ }

/-! ## Points -/

/-- A round marker, filled or hollow. -/
structure Marker where
  coords : Float × Float
  color : String := PlotStyle.usual.color
  size : Float := PlotStyle.usual.size
  solid : Bool := true

/-- Changes to the looks of a point. -/
structure MarkerSettings where
  color : Option String := none
  solid : Option Bool := none
  size : Option Float := none

/-- Read changes to the looks of a point. -/
def MarkerSettings.read (s : Settings) : Readout MarkerSettings :=
  match s.only ["color", "solid", "size"] with
  | .error e => ⟨{}, some e⟩
  | .ok _ =>
    let changes : MarkerSettings := { color := s.text? "color", solid := s.flag? "solid" }
    match s.number? "size" with
    | .error e => ⟨changes, some e⟩
    | .ok size => ⟨{ changes with size }, none⟩

/-- Change the looks of a point. -/
def Marker.configure (m : Marker) (s : MarkerSettings) : Marker :=
  { m with
    color := s.color.getD m.color
    solid := s.solid.getD m.solid
    size := s.size.getD m.size }

/-- The fill of a point. -/
def Marker.fill (m : Marker) : String := if m.solid then m.color else hollowFill

/-- Show a point in a trace. -/
def Marker.render (m : Marker) (t : Trace) : Trace :=
  { t with
    xs := [m.coords.1]
    ys := [m.coords.2]
    marker := some ⟨m.fill, m.size, some (m.color, 2)⟩ }

/-! ## Segments -/

/-- A straight line between two points. -/
structure Segment where
  start : Float × Float
  finish : Float × Float
  color : String := PlotStyle.usual.color
  width : Float := PlotStyle.usual.width
  dash : String := solidPattern

/-- Changes to the looks of a segment. -/
structure SegmentSettings where
  color : Option String := none
  width : Option Float := none
  dash : Option String := none

/-- Read changes to the looks of a segment. -/
def SegmentSettings.read (s : Settings) : Readout SegmentSettings :=
  match s.only ["color", "width", "dash"] with
  | .error e => ⟨{}, some e⟩
  | .ok _ =>
    let changes : SegmentSettings := { color := s.text? "color" }
    match s.number? "width" with
    | .error e => ⟨changes, some e⟩
    | .ok width => ⟨{ changes with width, dash := s.text? "dash" }, none⟩

/-- Change the looks of a segment. -/
def Segment.configure (g : Segment) (s : SegmentSettings) : Segment :=
  { g with
    color := s.color.getD g.color
    width := s.width.getD g.width
    dash := s.dash.getD g.dash }

/-- Show a segment in a trace. -/
def Segment.render (g : Segment) (t : Trace) : Trace :=
  { t with
    xs := [g.start.1, g.finish.1]
    ys := [g.start.2, g.finish.2]
    line := some ⟨g.color, g.width, g.dash⟩ }

/-! ## Handles -/

/-- The primitives. -/
inductive Shape where
  | curve (c : Curve)
  | marker (m : Marker)
  | segment (g : Segment)

/-- A primitive on a surface, with the trace that shows it. -/
structure Handle where
  trace : Nat
  shape : Shape
  visible : Bool := false
  removed : Bool := false

namespace Handle

/-- Show the state of a handle in a trace. -/
def render (h : Handle) (t : Trace) : Trace :=
  let shown := match h.shape with
    | .curve c => c.render t
    | .marker m => m.render t
    | .segment g => g.render t
  { shown with visible := h.visible }

/-- The handle as a curve. -/
def curve? (h : Handle) : Option Curve :=
  match h.shape with
  | .curve c => some c
  | _ => none

/-- Change a curve; other handles stay as they are. -/
def mapCurve (f : Curve → Curve) (h : Handle) : Handle :=
  match h.shape with
  | .curve c => { h with shape := .curve (f c) }
  | _ => h

/-- Change a point; other handles stay as they are. -/
def mapMarker (f : Marker → Marker) (h : Handle) : Handle :=
  match h.shape with
  | .marker m => { h with shape := .marker (f m) }
  | _ => h

/-- Change a segment; other handles stay as they are. -/
def mapSegment (f : Segment → Segment) (h : Handle) : Handle :=
  match h.shape with
  | .segment g => { h with shape := .segment (f g) }
  | _ => h

/-- Whether a handle is a lazy curve. -/
def isLazy (h : Handle) : Bool := h.curve?.any (·.isLazy)

/-- A handle as text: its kind and its state. -/
def toText (h : Handle) : String :=
  let kind := match h.shape with
    | .curve _ => "Curve"
    | .marker _ => "Point"
    | .segment _ => "Segment"
  let state := if h.removed then "removed" else if h.visible then "visible" else "hidden"
  "<" ++ kind ++ " " ++ state ++ ">"

/-! ## Laws -/

theorem visible_render (h : Handle) (t : Trace) : (h.render t).visible = h.visible := rfl

theorem id_render (h : Handle) (t : Trace) : (h.render t).id = t.id := by
  unfold render
  split <;> rfl

theorem trace_mapCurve (f : Curve → Curve) (h : Handle) : (h.mapCurve f).trace = h.trace := by
  unfold mapCurve
  split <;> rfl

end Handle
end Graphing
