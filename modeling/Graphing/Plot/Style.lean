/-
  Graphing.Plot.Style

  How curves and points look: the options that a plot takes, what is used for
  those that are left out, and which values are refused.
-/
import Graphing.Plot.Setting

namespace Graphing

/-! ## Options -/

/-- What each option of a plot is for. -/
def styleOptionTexts : List (String × String) :=
  [("color", "Line and marker color. Accepts CSS-like names (e.g., red), hex (#RRGGBB), or " ++
     "rgb()/rgba() strings."),
   ("width", "Line width in pixels. Larger values draw thicker lines."),
   ("thickness", "Alias for width."),
   ("dashed", "Draw the curve with a dashed line pattern instead of a solid one."),
   ("density", "Parameter step for polar and parametric sampling (default 0.01)."),
   ("variable", "Independent variable of bare expressions and y = f(...) relations."),
   ("size", "Marker size of points and endpoint circles, in pixels.")]

/-- Options as they are given; those that are left out are `none`. -/
structure StyleOptions where
  color : Option String := none
  width : Option Float := none
  /-- Another name for the width. -/
  thickness : Option Float := none
  dashed : Option Bool := none
  density : Option Float := none
  size : Option Float := none

/-- The settings that make up a style. -/
def StyleOptions.names : List String :=
  ["color", "width", "thickness", "dashed", "density", "size"]

/-- Read style options from settings that hold nothing else but the settings named in `others`. -/
def StyleOptions.ofSettings? (s : Settings) (others : List String) :
    Except SettingFault StyleOptions := do
  s.only (names ++ others)
  return {
    color := s.text? "color"
    width := ← s.number? "width"
    thickness := ← s.number? "thickness"
    dashed := s.flag? "dashed"
    density := ← s.number? "density"
    size := ← s.number? "size" }

/-! ## Styles -/

/-- The dash pattern of dashed lines. -/
def dashedPattern : String := "dash"

/-- The dash pattern of all other lines. -/
def solidPattern : String := "solid"

/-- The fill of hollow circles. -/
def hollowFill : String := "white"

/-- Complete style values. -/
structure PlotStyle where
  color : String := "blue"
  width : Float := 2
  dashed : Bool := false
  density : Float := 0.01
  size : Float := 8

/-- The style of a plot without options. -/
def PlotStyle.usual : PlotStyle := {}

/-- The dash pattern of a style. -/
def PlotStyle.dash (s : PlotStyle) : String := if s.dashed then dashedPattern else solidPattern

/-! ## Resolution -/

/-- Why options are refused. -/
inductive StyleFault where
  /-- The width was given under both of its names, with different values. -/
  | conflict
  /-- A number that has to be positive and finite is not. -/
  | notPositive (name : String) (value : Float)

/-- The wording of the fault. -/
def StyleFault.message : StyleFault → String
  | .conflict =>
    "plot() received both width= and thickness= with different values; use only one."
  | .notPositive name value =>
    name ++ " must be a positive finite number, got " ++ Decimal.shortestText value

/-- The width under either of its names. -/
def StyleOptions.lineWidth (o : StyleOptions) : Except StyleFault (Option Float) :=
  match o.thickness, o.width with
  | none, width => .ok width
  | some thickness, none => .ok (some thickness)
  | some thickness, some width => if width != thickness then .error .conflict else .ok (some width)

/-- Whether a number is positive and finite. -/
def isPositiveFinite (x : Float) : Bool := x.isFinite && x > 0

/-- Refuse a number that is not positive and finite. -/
def requirePositive (name : String) (value : Float) : Except StyleFault Unit :=
  if isPositiveFinite value then .ok () else .error (.notPositive name value)

/-- The style that options stand for. -/
def PlotStyle.ofOptions? (o : StyleOptions) : Except StyleFault PlotStyle := do
  let usual := PlotStyle.usual
  let style : PlotStyle :=
    { color := o.color.getD usual.color
      width := (← o.lineWidth).getD usual.width
      dashed := o.dashed.getD usual.dashed
      density := o.density.getD usual.density
      size := o.size.getD usual.size }
  requirePositive "width" style.width
  requirePositive "density" style.density
  requirePositive "size" style.size
  return style

end Graphing
