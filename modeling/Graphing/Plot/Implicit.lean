/-
  Graphing.Plot.Implicit

  Implicit relations, drawn as the contours where the difference of their
  sides is zero.
-/
import Graphing.Plot.Drawing

namespace Graphing

/-- The tracer that plots use. -/
def Contour.Tracer.usual : Contour.Tracer Float Float :=
  { options := .usual, raster := ⟨0, 0, #[]⟩ }

/-- A formula in two variables as a function of the plane. -/
def CompiledFormula.onPlane (f : CompiledFormula) : Contour.PlaneFunction Float Float :=
  .ofTotal fun p => f.valueAt #[p.x, p.y]

/-- The expression that is zero where a relation holds. A restriction is left out. -/
def Relation.implicitExpression (relation : List Char) : List Char :=
  let expression := unrestricted relation
  if (sides? expression).isSome then difference expression else expression

namespace Canvas

/-- Make a visible curve for each contour. -/
def addContours (c : Canvas) (n : PieceId) (style : PlotStyle)
    (lines : List (List (Contour.Point Float))) : Canvas :=
  lines.foldl (fun c line =>
    let (h, s) := c.surface.newCurve
      { color := some style.color, width := some style.width, dash := some style.dash }
    let s := s.modify h (Handle.mapCurve fun curve =>
      curve.setData (line.map (·.x)) (line.map (·.y)))
    ({ c with surface := s.unhide h }).modify n fun p => { p with contours := p.contours ++ [h] }) c

/-- Draw an implicit relation in the variables of the two axes. -/
def plotImplicit (c : Canvas) (relation : List Char) (axes : List String) (fast : Bool)
    (existing : Option PieceId) (style : PlotStyle) : Outcome PieceId :=
  let expression := Relation.implicitExpression relation
  match Restricted.compile? expression axes with
  | .error e => (.error e, c)
  | .ok f =>
    let (n, c) := c.acquire existing .curve .implicit
    let c := c.modify n fun p =>
      { p with
        relation := expression
        restriction := []
        interval := .universal
        function := some f }
    let c := c.removeContours n
    let request : Contour.TraceRequest Float Float :=
      { function := f.onPlane
        domain := c.surface.bounds
        resolution := (c.surface.width, c.surface.height)
        fast }
    match (Contour.Tracer.usual.trace request none).1 with
    | .error e => (.error (.trace e), c)
    | .ok lines => (.ok n, (c.addContours n style lines).activate n)

end Canvas
end Graphing
