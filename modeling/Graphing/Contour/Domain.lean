/-
  Graphing.Contour.Domain

  Rectangles of the plane: what is visible, and what is traced.
-/
import Graphing.Contour.Coordinate

namespace Graphing.Contour

/-- A rectangle with sides along the axes. -/
structure Domain (α : Type) where
  xmin : α
  xmax : α
  ymin : α
  ymax : α
  deriving Repr, DecidableEq, Inhabited

/-- Whether a domain has a width and a height. -/
def Domain.isProper {α : Type} [Coordinate α] (d : Domain α) : Bool :=
  Coordinate.less d.xmin d.xmax && Coordinate.less d.ymin d.ymax

end Graphing.Contour
