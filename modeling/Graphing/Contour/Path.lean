/-
  Graphing.Contour.Path

  Polylines as one flat path whose points tell whether they continue the point
  before. The two forms hold the same.
-/
import Graphing.Contour.Coordinate

namespace Graphing.Contour

/-- A point of a flat path. -/
structure PathPoint (α : Type) where
  x : α
  y : α
  /-- False where a polyline starts. -/
  continues : Bool
  deriving Repr, DecidableEq

variable {α : Type}

/-- A point of a path, without its mark. -/
def PathPoint.point (p : PathPoint α) : Point α := ⟨p.x, p.y⟩

/-- A point with a mark. -/
def Point.onPath (p : Point α) (continues : Bool) : PathPoint α := ⟨p.x, p.y, continues⟩

/-- The path of one polyline. -/
def pathOf : List (Point α) → List (PathPoint α)
  | [] => []
  | p :: ps => p.onPath false :: ps.map (·.onPath true)

/-- Polylines as one path. -/
def flatten (lines : List (List (Point α))) : List (PathPoint α) := lines.flatMap pathOf

/-- The polylines of what is left of a path, given the one that is open, last point first. A start
closes it, unless it has no point yet, and so does the end of the path. -/
def polylinesFrom (current : List (Point α)) : List (PathPoint α) → List (List (Point α))
  | [] => if current.isEmpty then [] else [current.reverse]
  | p :: rest =>
    if !p.continues && !current.isEmpty then current.reverse :: polylinesFrom [p.point] rest
    else polylinesFrom (p.point :: current) rest

/-- The polylines of a path. Its first point starts one even if it is marked as continuing. -/
def polylines (path : List (PathPoint α)) : List (List (Point α)) := polylinesFrom [] path

/-- The places in a path where a polyline starts. -/
def starts (path : List (PathPoint α)) : List Nat :=
  path.zipIdx.filterMap fun (p, i) => if p.continues then none else some i

/-! ## Laws -/

theorem flatten_cons (line : List (Point α)) (lines : List (List (Point α))) :
    flatten (line :: lines) = pathOf line ++ flatten lines := rfl

end Graphing.Contour
