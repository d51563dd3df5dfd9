/-
  Graphing.Contour.Refinement

  The segments of a cell. A saddle is split into quarters, and these again,
  down to a level; a saddle that is left there is connected as its middle
  tells, or put off for a second pass. The quarters are kept under their cell,
  and are used again for the next function.
-/
import Graphing.Contour.Cell

namespace Graphing.Contour

variable {α β : Type}

/-! ## Cells with their quarters -/

/-- A cell and the quarters that it was split into, if any. -/
inductive CellTree (α β : Type) where
  | node (cell : Cell α β) (quarters : List (CellTree α β))

namespace CellTree

/-- A cell that was not split. -/
def leaf (c : Cell α β) : CellTree α β := .node c []

/-- The cell on top. -/
def cell : CellTree α β → Cell α β
  | .node c _ => c

/-- The quarters of the cell on top. -/
def quarters : CellTree α β → List (CellTree α β)
  | .node _ qs => qs

/-- The same quarters under another cell. -/
def place (t : CellTree α β) (c : Cell α β) : CellTree α β := .node c t.quarters

/-- Quarters for the given cells: those that are there are placed anew. -/
def placeAll : (old : List (CellTree α β)) → List (Cell α β) → List (CellTree α β)
  | _, [] => []
  | [], c :: cs => leaf c :: placeAll [] cs
  | t :: ts, c :: cs => t.place c :: placeAll ts cs

/-- The cell at the end of a path of quarters. -/
def get? : CellTree α β → (path : List Nat) → Option (CellTree α β)
  | t, [] => some t
  | .node _ qs, k :: path => (qs[k]?).bind (get? · path)

/-- Replace the cell at the end of a path of quarters. -/
def set (new : CellTree α β) : CellTree α β → (path : List Nat) → CellTree α β
  | _, [] => new
  | .node c qs, k :: path =>
    match qs[k]? with
    | some q => .node c (qs.set k (set new q path))
    | none => .node c qs

end CellTree

/-! ## Refinement -/

/-- What the refinement of a cell gives: the cell with its quarters, the segments in it, and the
paths to the saddles that were put off. -/
structure Refined (α β : Type) where
  tree : CellTree α β
  segments : List (Point α × Point α) := []
  pending : List (List Nat) := []

variable [Coordinate α] [Reading β α]

/-- Put the results of the quarters together. -/
def Refined.gather (c : Cell α β) (parts : List (Refined α β)) : Refined α β where
  tree := .node c (parts.map (·.tree))
  segments := parts.flatMap (·.segments)
  pending := parts.zipIdx.flatMap fun (r, k) => r.pending.map (k :: ·)

/-- The segments of a saddle that is not split any further. -/
def saddleSegments (f : PlaneFunction α β) (c : Cell α β) : List (Point α × Point α) :=
  c.segments (Cell.saddleConnections c.code (c.isCenterPositive f))

/-- Refine a cell, with at most `levels` splits of a quarter below a cell. Saddles on the last level
are put off if `defers`. -/
def refine (f : PlaneFunction α β) (defers : Bool) :
    (levels : Nat) → CellTree α β → Refined α β
  | levels, .node c quarters =>
    match Cell.connections? c.code with
    | some pairs => { tree := .node c quarters, segments := c.segments pairs }
    | none =>
      match levels with
      | 0 =>
        if defers then { tree := .node c quarters, pending := [[]] }
        else { tree := .node c quarters, segments := saddleSegments f c }
      | levels + 1 =>
        .gather c <| (CellTree.placeAll quarters (c.split f)).map fun t =>
          if t.cell.isEmpty then { tree := t } else refine f defers levels t

/-- Refine a cell that a contour may cross; nothing is in an empty one. -/
def visit (f : PlaneFunction α β) (defers : Bool) (levels : Nat) (t : CellTree α β) :
    Refined α β :=
  if t.cell.isEmpty then { tree := t } else refine f defers levels t

/-! ## Laws -/

omit [Coordinate α] [Reading β α] in
/-- The placed quarters are the given cells, whatever was there. -/
theorem CellTree.map_cell_placeAll (old : List (CellTree α β)) (cs : List (Cell α β)) :
    (placeAll old cs).map cell = cs := by
  induction cs generalizing old with
  | nil => cases old <;> rfl
  | cons c cs ih => cases old <;> simp [placeAll, ih, leaf, cell, place]

end Graphing.Contour
