/-
  Graphing.Contour.Text

  Cells and their status as text.
-/
import Graphing.Contour.Cell
import Graphing.Number.Decimal

namespace Graphing.Contour

/-- A truth value as text. -/
def truthText (b : Bool) : String := if b then "True" else "False"

/-- The status of a cell as text. -/
def CellStatus.toText (s : CellStatus) : String :=
  "CellStatus(pos=" ++ toString s.positive ++ ", neg=" ++ toString s.negative ++
    ", zero=" ++ toString s.zero ++ ", valid=" ++ truthText s.valid ++
    ", empty=" ++ truthText s.isEmpty ++ ")"

/-- A cell as text: two opposite corners, its depth and its status. -/
def Cell.toText (c : Cell Float Float) : String :=
  let corner (x y : Float) : String :=
    "(" ++ Decimal.general x ++ ", " ++ Decimal.general y ++ ")"
  "GridCell(" ++ corner c.x0 c.y0 ++ "-" ++ corner c.x1 c.y1 ++
    ", depth=" ++ toString c.depth ++ ", " ++ c.status.toText ++ ")"

end Graphing.Contour
