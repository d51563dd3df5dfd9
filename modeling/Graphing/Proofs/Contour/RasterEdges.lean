/-
  Graphing.Proofs.Contour.RasterEdges

  The edges of a raster, and the points where a contour crosses them.

  An edge inside the raster belongs to two cells and an edge on its border to
  one.  The cells on both sides of an edge reckon the crossing from the same
  corners, so they agree on the point; and each cell connects every crossed
  edge of its own exactly once, whatever its corners.  In exact arithmetic the
  crossings lie inside their edges, so different edges are crossed at
  different points.
-/
import Graphing.Contour.Tracer
import Graphing.Proofs.Contour.Exact
import Graphing.Proofs.Contour.Weaving
import Mathlib.Algebra.BigOperators.Intervals

namespace Graphing.Contour

/-! ## Edges of a raster -/

/-- An edge of a raster: from a corner to the next one on its right, or to the next one above it. -/
inductive RasterEdge where
  | across (i j : Nat)
  | up (i j : Nat)
  deriving Repr, DecidableEq

namespace RasterEdge

/-- The left or lower corner of an edge, as its column and row. -/
def first : RasterEdge → Nat × Nat
  | across i j => (i, j)
  | up i j => (i, j)

/-- The right or upper corner of an edge. -/
def second : RasterEdge → Nat × Nat
  | across i j => (i + 1, j)
  | up i j => (i, j + 1)

/-- Whether an edge is one of a raster. -/
def InRaster (columns rows : Nat) : RasterEdge → Prop
  | across i j => i < columns ∧ j ≤ rows
  | up i j => i ≤ columns ∧ j < rows

/-- Whether an edge lies on the border of a raster. -/
def OnBorder (columns rows : Nat) : RasterEdge → Prop
  | across _ j => j = 0 ∨ j = rows
  | up i _ => i = 0 ∨ i = columns

instance (columns rows : Nat) : DecidablePred (OnBorder columns rows)
  | across _ j => inferInstanceAs (Decidable (j = 0 ∨ j = rows))
  | up i _ => inferInstanceAs (Decidable (i = 0 ∨ i = columns))

end RasterEdge

namespace Cell

/-- The edges of a cell, one after another. -/
def edges : List Edge := [.bottom, .right, .top, .left]

/-- An edge of the cell in a column and row, as an edge of the raster. -/
def Edge.side (i j : Nat) : Edge → RasterEdge
  | .bottom => .across i j
  | .right => .up (i + 1) j
  | .top => .across i (j + 1)
  | .left => .up i j

end Cell

/-- The edges of all cells of a raster. -/
def cellSides (columns rows : Nat) : List RasterEdge :=
  (List.range rows).flatMap fun j =>
    (List.range columns).flatMap fun i => Cell.edges.map (Cell.Edge.side i j)

theorem inRaster_of_mem_cellSides {columns rows : Nat} {e : RasterEdge}
    (h : e ∈ cellSides columns rows) : e.InRaster columns rows := by
  simp only [cellSides, List.mem_flatMap, List.mem_range, List.mem_map] at h
  obtain ⟨j, hj, i, hi, k, -, rfl⟩ := h
  cases k <;> exact ⟨by omega, by omega⟩

theorem count_range_flatMap {γ : Type} [DecidableEq γ] (f : Nat → List γ) (n : Nat) (a : γ) :
    ((List.range n).flatMap f).count a = ∑ i ∈ Finset.range n, (f i).count a := by
  induction n with
  | zero => rfl
  | succ n ih =>
    rw [List.range_succ, List.flatMap_append, List.count_append, ih, Finset.sum_range_succ]
    simp

theorem sum_sum_ite_and (m n a b : Nat) :
    (∑ j ∈ Finset.range n, ∑ i ∈ Finset.range m, if i = a ∧ j = b then 1 else 0) =
      if a < m ∧ b < n then 1 else 0 := by
  simp [ite_and]

theorem count_sides_across (i j a b : Nat) :
    (Cell.edges.map (Cell.Edge.side i j)).count (.across a b) =
      (if i = a ∧ j = b then 1 else 0) + if i = a ∧ j + 1 = b then 1 else 0 := by
  simp [Cell.edges, Cell.Edge.side, List.count_cons]
  omega

theorem count_sides_up (i j a b : Nat) :
    (Cell.edges.map (Cell.Edge.side i j)).count (.up a b) =
      (if i = a ∧ j = b then 1 else 0) + if i + 1 = a ∧ j = b then 1 else 0 := by
  simp [Cell.edges, Cell.Edge.side, List.count_cons]

/-- An edge inside a raster is an edge of two cells, one on the border of one. -/
theorem count_cellSides {columns rows : Nat} (hc : 0 < columns) (hr : 0 < rows) {e : RasterEdge}
    (h : e.InRaster columns rows) :
    (cellSides columns rows).count e = if e.OnBorder columns rows then 1 else 2 := by
  rw [cellSides, count_range_flatMap]
  simp only [count_range_flatMap]
  cases e with
  | across a b =>
    obtain ⟨ha, hb⟩ := h
    simp only [count_sides_across, Finset.sum_add_distrib, sum_sum_ite_and]
    cases b with
    | zero => simp [RasterEdge.OnBorder, ha, hr]
    | succ b =>
      simp only [Nat.add_right_cancel_iff, sum_sum_ite_and]
      -- there is no cell above the last row of edges
      by_cases hlast : b + 1 = rows
      · rw [if_pos (show RasterEdge.OnBorder columns rows (.across a (b + 1)) from .inr hlast)]
        simp [hlast, ha, show b < rows by omega]
      · rw [if_neg (show ¬RasterEdge.OnBorder columns rows (.across a (b + 1)) from
          fun h => h.elim (by omega) hlast)]
        simp [ha, show b < rows by omega, show b + 1 < rows by omega]
  | up a b =>
    obtain ⟨ha, hb⟩ := h
    simp only [count_sides_up, Finset.sum_add_distrib, sum_sum_ite_and]
    cases a with
    | zero => simp [RasterEdge.OnBorder, hb, hc]
    | succ a =>
      simp only [Nat.add_right_cancel_iff, sum_sum_ite_and]
      by_cases hlast : a + 1 = columns
      · rw [if_pos (show RasterEdge.OnBorder columns rows (.up (a + 1) b) from .inr hlast)]
        simp [hlast, hb, show a < columns by omega]
      · rw [if_neg (show ¬RasterEdge.OnBorder columns rows (.up (a + 1) b) from
          fun h => h.elim (by omega) hlast)]
        simp [hb, show a < columns by omega, show a + 1 < columns by omega]

/-! ## Crossed edges of a cell -/

namespace Cell

variable {α β : Type} [Coordinate α] [Reading β α]

/-- Whether one end of an edge is positive and the other is not. -/
def isCrossed (c : Cell α β) : Edge → Bool
  | .bottom => Reading.isPositive c.sw != Reading.isPositive c.se
  | .right => Reading.isPositive c.se != Reading.isPositive c.ne
  | .top => Reading.isPositive c.nw != Reading.isPositive c.ne
  | .left => Reading.isPositive c.sw != Reading.isPositive c.nw

/-- The pairs of edges that are connected in a cell, given the sign in its middle. -/
def pairs (c : Cell α β) (positive : Bool) : List (Edge × Edge) :=
  (connections? c.code).getD (saddleConnections c.code positive)

/-- For all signs of the corners and the middle: each edge between different signs is connected
once. -/
theorem ends_perm_of_signs : ∀ nw ne se sw positive : Bool,
    let code := (if nw then 8 else 0) + (if ne then 4 else 0) + (if se then 2 else 0) +
      (if sw then 1 else 0)
    (((connections? code).getD (saddleConnections code positive)).flatMap fun e =>
      [e.1, e.2]).Perm
      (edges.filter fun
        | .bottom => sw != se
        | .right => se != ne
        | .top => nw != ne
        | .left => sw != nw) := by
  decide

omit [Coordinate α] in
/-- Every crossed edge is connected once, and no other is. -/
theorem ends_pairs_perm (c : Cell α β) (positive : Bool) :
    ((c.pairs positive).flatMap fun e => [e.1, e.2]).Perm (edges.filter c.isCrossed) := by
  have hcrossed : c.isCrossed = fun
      | .bottom => Reading.isPositive c.sw != Reading.isPositive c.se
      | .right => Reading.isPositive c.se != Reading.isPositive c.ne
      | .top => Reading.isPositive c.nw != Reading.isPositive c.ne
      | .left => Reading.isPositive c.sw != Reading.isPositive c.nw := by
    funext k
    cases k <;> rfl
  rw [hcrossed]
  exact ends_perm_of_signs _ _ _ _ positive

omit [Coordinate α] in
/-- No edge is connected to itself. -/
theorem ne_of_mem_pairs {c : Cell α β} {positive : Bool} {e : Edge × Edge}
    (h : e ∈ c.pairs positive) : e.1 ≠ e.2 := by
  have hnd : ((c.pairs positive).flatMap fun e => [e.1, e.2]).Nodup :=
    (c.ends_pairs_perm positive).nodup_iff.mpr (List.Nodup.filter _ (by decide))
  have := (List.nodup_flatMap.mp hnd).1 e h
  simpa using this

omit [Coordinate α] in
/-- If every corner is positive or negative, a cell is empty when all are the same. -/
theorem isEmpty_iff {c : Cell α β} (hfinite : ∀ v ∈ c.corners, Reading.isFinite v = true)
    (hzero : ∀ v ∈ c.corners, Reading.isZero v = false)
    (hsign : ∀ v ∈ c.corners, Reading.isNegative v = !Reading.isPositive v) :
    c.isEmpty = true ↔ c.code = 0 ∨ c.code = 15 := by
  have hnegative : c.corners.countP Reading.isNegative =
      c.corners.countP fun v => !Reading.isPositive v :=
    List.countP_congr fun v hv => by rw [hsign v hv]
  have hz : c.corners.countP Reading.isZero = 0 := by
    rw [List.countP_eq_zero]
    intro v hv
    rw [hzero v hv]
    exact Bool.false_ne_true
  have hall : c.corners.all Reading.isFinite = true := List.all_eq_true.mpr hfinite
  rw [isEmpty, status, statusOf, hnegative, hz, hall]
  simp only [CellStatus.isEmpty, corners, List.countP_cons, List.countP_nil, code]
  cases Reading.isPositive c.nw <;> cases Reading.isPositive c.ne <;>
    cases Reading.isPositive c.se <;> cases Reading.isPositive c.sw <;> decide

omit [Coordinate α] in
theorem pairs_eq_nil {c : Cell α β} (h : c.code = 0 ∨ c.code = 15) (positive : Bool) :
    c.pairs positive = [] := by
  rcases h with h | h <;> rw [pairs, h] <;> rfl

end Cell

end Graphing.Contour
