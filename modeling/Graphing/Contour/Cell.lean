/-
  Graphing.Contour.Cell

  Rectangles with a sampled value at each corner. The signs of the corners
  tell which edges a contour crosses; where two opposite corners are positive
  and the others are not, the value in the middle decides how the crossings
  are connected.
-/
import Graphing.Contour.Sampling

namespace Graphing.Contour

/-! ## Cells -/

/-- A rectangle, the values at its corners, and how many splits it comes from. -/
structure Cell (α β : Type) where
  x0 : α
  y0 : α
  x1 : α
  y1 : α
  nw : β
  ne : β
  se : β
  sw : β
  depth : Nat := 0
  deriving Repr

/-- What the corner values of a cell tell: how many are positive, negative and zero, and whether all
are finite. -/
structure CellStatus where
  positive : Nat
  negative : Nat
  zero : Nat
  valid : Bool
  deriving Repr, DecidableEq

/-- Whether no contour crosses the cell: some corner is not finite, all have one sign, or at least
three are zero. -/
def CellStatus.isEmpty (s : CellStatus) : Bool :=
  !s.valid || ((s.zero + 1) ||| s.positive ||| s.negative) ≥ 4

namespace Cell

variable {α β : Type} [Coordinate α] [Reading β α]

/-- A cell that has not been placed yet. -/
def blank : Cell α β :=
  let zero : α := Coordinate.ofNat 0
  ⟨zero, zero, zero, zero, Reading.undefined, Reading.undefined, Reading.undefined,
    Reading.undefined, 0⟩

/-- The corner values: north-west, north-east, south-east, south-west. -/
def corners (c : Cell α β) : List β := [c.nw, c.ne, c.se, c.sw]

/-- The status of four or any other number of values. -/
def statusOf (values : List β) : CellStatus :=
  ⟨values.countP Reading.isPositive, values.countP Reading.isNegative,
    values.countP Reading.isZero, values.all Reading.isFinite⟩

/-- The status of a cell. -/
def status (c : Cell α β) : CellStatus := statusOf c.corners

/-- Whether no contour crosses the cell. -/
def isEmpty (c : Cell α β) : Bool := c.status.isEmpty

/-- The middle of a cell. -/
def center (c : Cell α β) : Point α := ⟨middle c.x0 c.x1, middle c.y0 c.y1⟩

/-! ## Crossings -/

/-- The edges of a cell. -/
inductive Edge where
  | bottom
  | right
  | top
  | left
  deriving Repr, DecidableEq

/-- One bit for each positive corner: 8 north-west, 4 north-east, 2 south-east, 1 south-west. -/
def code (c : Cell α β) : Nat :=
  (if Reading.isPositive c.nw then 8 else 0) + (if Reading.isPositive c.ne then 4 else 0) +
  (if Reading.isPositive c.se then 2 else 0) + (if Reading.isPositive c.sw then 1 else 0)

/-- The pairs of edges that a contour connects; nothing for a saddle, whose corners do not tell. -/
def connections? : (code : Nat) → Option (List (Edge × Edge))
  | 1 => some [(.left, .bottom)]
  | 2 => some [(.bottom, .right)]
  | 3 => some [(.left, .right)]
  | 4 => some [(.top, .right)]
  | 5 => none
  | 6 => some [(.top, .bottom)]
  | 7 => some [(.left, .top)]
  | 8 => some [(.left, .top)]
  | 9 => some [(.top, .bottom)]
  | 10 => none
  | 11 => some [(.top, .right)]
  | 12 => some [(.left, .right)]
  | 13 => some [(.bottom, .right)]
  | 14 => some [(.left, .bottom)]
  | _ => some []

/-- The pairs of edges that a contour connects in a saddle, given the sign in its middle. -/
def saddleConnections (code : Nat) (positive : Bool) : List (Edge × Edge) :=
  if (code == 5) == positive then [(.left, .top), (.bottom, .right)]
  else [(.top, .right), (.left, .bottom)]

/-- The point where a value that changes evenly from `a` to `b` is zero. -/
def between (p q : Point α) (a b : β) : Point α :=
  let t := Reading.crossing a b
  ⟨p.x + t * (q.x - p.x), p.y + t * (q.y - p.y)⟩

/-- The point where the contour crosses an edge. It is reckoned from the lower or left corner, so
that cells with a common edge have the same point there. -/
def edgePoint (c : Cell α β) : Edge → Point α
  | .bottom => between ⟨c.x0, c.y0⟩ ⟨c.x1, c.y0⟩ c.sw c.se
  | .top => between ⟨c.x0, c.y1⟩ ⟨c.x1, c.y1⟩ c.nw c.ne
  | .left => between ⟨c.x0, c.y0⟩ ⟨c.x0, c.y1⟩ c.sw c.nw
  | .right => between ⟨c.x1, c.y0⟩ ⟨c.x1, c.y1⟩ c.se c.ne

/-- The segments between the crossings of pairs of edges. -/
def segments (c : Cell α β) (pairs : List (Edge × Edge)) : List (Point α × Point α) :=
  pairs.map fun (a, b) => (c.edgePoint a, c.edgePoint b)

/-- Whether the middle of a cell counts as positive; where the function is undefined the mean of the
corners decides. -/
def isCenterPositive (f : PlaneFunction α β) (c : Cell α β) : Bool :=
  match f.sample [c.center] with
  | v :: _ =>
    if Reading.isFinite v then Reading.isPositive v
    else Reading.isPositiveMean c.nw c.ne c.se c.sw
  | [] => Reading.isPositiveMean c.nw c.ne c.se c.sw

/-! ## Splitting -/

/-- The points that are sampled when a cell is split: the middles of the bottom, right, top and left
edge, and the middle of the cell. -/
def splitPoints (c : Cell α β) : List (Point α) :=
  let m := c.center
  [⟨m.x, c.y0⟩, ⟨c.x1, m.y⟩, ⟨m.x, c.y1⟩, ⟨c.x0, m.y⟩, m]

/-- The four quarters of a cell, given the values at the split points: south-west, south-east,
north-east, north-west. -/
def quarters (c : Cell α β) (bottom right top left middle : β) : List (Cell α β) :=
  let m := c.center
  let d := c.depth + 1
  [⟨c.x0, c.y0, m.x, m.y, left, middle, bottom, c.sw, d⟩,
   ⟨m.x, c.y0, c.x1, m.y, middle, right, c.se, bottom, d⟩,
   ⟨m.x, m.y, c.x1, c.y1, top, c.ne, right, middle, d⟩,
   ⟨c.x0, m.y, m.x, c.y1, c.nw, top, middle, left, d⟩]

/-- Split a cell into quarters. -/
def split (f : PlaneFunction α β) (c : Cell α β) : List (Cell α β) :=
  match f.sample c.splitPoints with
  | [bottom, right, top, left, middle] => c.quarters bottom right top left middle
  | _ =>
    let u : β := Reading.undefined
    c.quarters u u u u u

/-! ## Laws -/

omit [Coordinate α] in
theorem code_lt (c : Cell α β) : c.code < 16 := by
  unfold code
  split <;> split <;> split <;> split <;> omega

/-- The quarters are one level deeper. -/
theorem depth_of_mem_split {f : PlaneFunction α β} {c q : Cell α β} (h : q ∈ c.split f) :
    q.depth = c.depth + 1 := by
  unfold split at h
  split at h <;> simp only [quarters, List.mem_cons, List.not_mem_nil, or_false] at h <;>
    rcases h with rfl | rfl | rfl | rfl <;> rfl

end Cell
end Graphing.Contour
