/-
  Graphing.Proofs.Contour.Crossings

  Where a contour crosses the edges of a raster, in exact arithmetic.

  A crossing lies strictly between the corners of its edge, so different edges
  are crossed at different points, and only edges on the border of the raster
  are crossed on the boundary of the domain.
-/
import Graphing.Proofs.Contour.RasterEdges

namespace Graphing.Contour

/-- A raster over a domain with the values that were sampled at its corners, row by row. -/
structure SampledRaster (α β : Type) where
  domain : Domain α
  columns : Nat
  rows : Nat
  samples : Array β

/-- Whether a point lies on the boundary of a rectangle. -/
def Domain.OnBoundary {K : Type} [LE K] (d : Domain K) (p : Point K) : Prop :=
  (p.x = d.xmin ∨ p.x = d.xmax) ∧ d.ymin ≤ p.y ∧ p.y ≤ d.ymax ∨
    (p.y = d.ymin ∨ p.y = d.ymax) ∧ d.xmin ≤ p.x ∧ p.x ≤ d.xmax

namespace SampledRaster

section

variable {α β : Type} [Coordinate α] [Reading β α]

/-- The corner in a column and row. -/
def corner (g : SampledRaster α β) (c : Nat × Nat) : Point α :=
  g.domain.corner g.columns g.rows c.1 c.2

/-- The value sampled at a corner. -/
def value (g : SampledRaster α β) (c : Nat × Nat) : β :=
  (g.samples[c.2 * (g.columns + 1) + c.1]?).getD Reading.undefined

/-- The cell in a column and row. -/
def cell (g : SampledRaster α β) (i j : Nat) : Cell α β :=
  g.domain.cell g.columns g.rows g.samples i j

/-- The point where an edge is crossed. -/
def crossing (g : SampledRaster α β) (e : RasterEdge) : Point α :=
  Cell.between (g.corner e.first) (g.corner e.second) (g.value e.first) (g.value e.second)

/-- Whether one end of an edge is positive and the other is not. -/
def changesSign (g : SampledRaster α β) (e : RasterEdge) : Bool :=
  Reading.isPositive (g.value e.first) != Reading.isPositive (g.value e.second)

/-- The cells on both sides of an edge have the same crossing there. -/
theorem edgePoint_cell (g : SampledRaster α β) (i j : Nat) (k : Cell.Edge) :
    (g.cell i j).edgePoint k = g.crossing (k.side i j) := by
  cases k <;> rfl

theorem isCrossed_cell (g : SampledRaster α β) (i j : Nat) (k : Cell.Edge) :
    (g.cell i j).isCrossed k = g.changesSign (k.side i j) := by
  cases k <;> rfl

/-- The segments of all cells, given the signs in their middles. -/
def segments (g : SampledRaster α β) (positive : Nat → Nat → Bool) : List (Point α × Point α) :=
  (List.range g.rows).flatMap fun j =>
    (List.range g.columns).flatMap fun i =>
      (g.cell i j).segments ((g.cell i j).pairs (positive i j))

/-- Each edge that changes its sign is an end of a segment once for each of its cells. -/
theorem ends_segments_perm (g : SampledRaster α β) (positive : Nat → Nat → Bool) :
    ((g.segments positive).flatMap fun s => [s.1, s.2]).Perm
      (((cellSides g.columns g.rows).filter g.changesSign).map g.crossing) := by
  rw [segments, cellSides, List.flatMap_assoc, List.filter_flatMap, List.map_flatMap]
  refine List.Perm.flatMap_left _ fun j _ => ?_
  rw [List.flatMap_assoc, List.filter_flatMap, List.map_flatMap]
  refine List.Perm.flatMap_left _ fun i _ => ?_
  have hsides : ((Cell.edges.map (Cell.Edge.side i j)).filter g.changesSign).map g.crossing =
      (Cell.edges.filter (g.cell i j).isCrossed).map (g.cell i j).edgePoint := by
    rw [List.filter_map, List.map_map]
    have hcrossed : g.changesSign ∘ Cell.Edge.side i j = (g.cell i j).isCrossed := by
      funext k
      exact (g.isCrossed_cell i j k).symm
    rw [hcrossed]
    exact List.map_congr_left fun k _ => (g.edgePoint_cell i j k).symm
  have hends : (((g.cell i j).segments ((g.cell i j).pairs (positive i j))).flatMap fun s =>
      [s.1, s.2]) = (((g.cell i j).pairs (positive i j)).flatMap fun e => [e.1, e.2]).map
        (g.cell i j).edgePoint := by
    rw [Cell.segments, List.flatMap_map, List.map_flatMap]
    rfl
  rw [hsides, hends]
  exact (Cell.ends_pairs_perm _ _).map _

end

/-! ## Exact arithmetic -/

variable {K : Type} [Field K] [LinearOrder K] [FloorRing K]

/-- Whether the values at the ends of an edge of the raster have opposite signs. -/
def IsCrossed (g : SampledRaster K (Option K)) (e : RasterEdge) : Prop :=
  e.InRaster g.columns g.rows ∧
    ∃ a b, g.value e.first = some a ∧ g.value e.second = some b ∧ a * b < 0

/-- Whether there is a value that is not zero at every corner. -/
def Definite (g : SampledRaster K (Option K)) : Prop :=
  ∀ i ≤ g.columns, ∀ j ≤ g.rows, ∃ v, g.value (i, j) = some v ∧ v ≠ 0

variable [IsStrictOrderedRing K] {g : SampledRaster K (Option K)} {e : RasterEdge}

omit [FloorRing K] in
/-- Between definite values a change of sign is a crossing. -/
theorem isCrossed_iff (hg : g.Definite) (he : e.InRaster g.columns g.rows) :
    g.IsCrossed e ↔ g.changesSign e = true := by
  have hends : ∃ a b, g.value e.first = some a ∧ g.value e.second = some b ∧ a ≠ 0 ∧ b ≠ 0 := by
    cases e with
    | across i j =>
      obtain ⟨a, ha, ha0⟩ := hg i he.1.le j he.2
      obtain ⟨b, hb, hb0⟩ := hg (i + 1) he.1 j he.2
      exact ⟨a, b, ha, hb, ha0, hb0⟩
    | up i j =>
      obtain ⟨a, ha, ha0⟩ := hg i he.1 j he.2.le
      obtain ⟨b, hb, hb0⟩ := hg i he.1 (j + 1) he.2
      exact ⟨a, b, ha, hb, ha0, hb0⟩
  obtain ⟨a, b, ha, hb, ha0, hb0⟩ := hends
  have hcross : g.IsCrossed e ↔ a * b < 0 := by
    simp [IsCrossed, he, ha, hb]
  rw [hcross, changesSign, ha, hb, mul_neg_iff]
  simp only [Reading.isPositive, Option.any_some, bne_iff_ne, ne_eq, decide_eq_decide]
  rcases lt_or_gt_of_ne ha0 with h1 | h1 <;> rcases lt_or_gt_of_ne hb0 with h2 | h2 <;>
    simp [h1, h2, not_lt_of_gt]

/-- Between opposite signs the value is zero strictly inside. -/
theorem exists_between {a b : K} (hab : a * b < 0) (p q : Point K) :
    ∃ t, 0 < t ∧ t < 1 ∧ Cell.between p q (some a) (some b) =
      ⟨p.x + t * (q.x - p.x), p.y + t * (q.y - p.y)⟩ := by
  have hne : a - b ≠ 0 := by
    intro h
    rw [sub_eq_zero] at h
    rw [h] at hab
    exact absurd hab (not_lt_of_ge (mul_self_nonneg b))
  refine ⟨a / (a - b), ?_, ?_, ?_⟩
  · rcases mul_neg_iff.mp hab with ⟨ha, hb⟩ | ⟨ha, hb⟩
    · exact div_pos ha (by linarith)
    · exact div_pos_of_neg_of_neg ha (by linarith)
  · rcases mul_neg_iff.mp hab with ⟨ha, hb⟩ | ⟨ha, hb⟩
    · rw [div_lt_one (by linarith)]
      linarith
    · rw [div_lt_one_of_neg (by linarith)]
      linarith
  · simp [Cell.between, Reading.crossing, hne]

theorem exists_crossing (h : g.IsCrossed e) :
    ∃ t, 0 < t ∧ t < 1 ∧ g.crossing e =
      ⟨(g.corner e.first).x + t * ((g.corner e.second).x - (g.corner e.first).x),
        (g.corner e.first).y + t * ((g.corner e.second).y - (g.corner e.first).y)⟩ := by
  obtain ⟨-, a, b, ha, hb, hab⟩ := h
  rw [crossing, ha, hb]
  exact exists_between hab _ _

theorem crossing_across (hd : g.domain.isProper = true) {i j : Nat}
    (h : g.IsCrossed (.across i j)) :
    (g.crossing (.across i j)).y = (g.corner (i, j)).y ∧
      (g.corner (i, j)).x < (g.crossing (.across i j)).x ∧
      (g.crossing (.across i j)).x < (g.corner (i + 1, j)).x := by
  obtain ⟨t, ht0, ht1, hcross⟩ := exists_crossing h
  have hlt : (g.corner (i, j)).x < (g.corner (i + 1, j)).x :=
    spread_lt_spread (isProper_iff.mp hd).1 (Nat.lt_succ_self i) h.1.1
  have hy : (g.corner (i + 1, j)).y = (g.corner (i, j)).y := rfl
  rw [hcross]
  dsimp only [RasterEdge.first, RasterEdge.second]
  exact ⟨by rw [hy]; ring, by nlinarith, by nlinarith⟩

theorem crossing_up (hd : g.domain.isProper = true) {i j : Nat} (h : g.IsCrossed (.up i j)) :
    (g.crossing (.up i j)).x = (g.corner (i, j)).x ∧
      (g.corner (i, j)).y < (g.crossing (.up i j)).y ∧
      (g.crossing (.up i j)).y < (g.corner (i, j + 1)).y := by
  obtain ⟨t, ht0, ht1, hcross⟩ := exists_crossing h
  have hlt : (g.corner (i, j)).y < (g.corner (i, j + 1)).y :=
    spread_lt_spread (isProper_iff.mp hd).2 (Nat.lt_succ_self j) h.1.2
  have hx : (g.corner (i, j + 1)).x = (g.corner (i, j)).x := rfl
  rw [hcross]
  dsimp only [RasterEdge.first, RasterEdge.second]
  exact ⟨by rw [hx]; ring, by nlinarith, by nlinarith⟩

/-- Different edges are crossed at different points. -/
theorem crossing_injective (hd : g.domain.isProper = true) {e' : RasterEdge} (he : g.IsCrossed e)
    (he' : g.IsCrossed e') (h : g.crossing e = g.crossing e') : e = e' := by
  obtain ⟨hx, hy⟩ := isProper_iff.mp hd
  cases e with
  | across i j =>
    obtain ⟨hy1, hx1, hx2⟩ := crossing_across hd he
    cases e' with
    | across i' j' =>
      obtain ⟨hy1', hx1', hx2'⟩ := crossing_across hd he'
      rw [h] at hy1 hx1 hx2
      -- on the same row, strictly between two columns
      have hj : j = j' := spread_injective hy he.1.2 he'.1.2 (hy1.symm.trans hy1')
      have h1 : i < i' + 1 :=
        lt_of_spread_lt hx he.1.1.le (hx1.trans hx2')
      have h2 : i' < i + 1 := lt_of_spread_lt hx he'.1.1.le (hx1'.trans hx2)
      rw [hj, show i = i' by omega]
    | up i' j' =>
      obtain ⟨hx1', hy1', hy2'⟩ := crossing_up hd he'
      -- a crossing of an upright edge is on no row
      rw [← h, hy1] at hy1' hy2'
      have h1 : j' < j := lt_of_spread_lt hy he'.1.2.le hy1'
      have h2 : j < j' + 1 := lt_of_spread_lt hy he.1.2 hy2'
      omega
  | up i j =>
    obtain ⟨hx1, hy1, hy2⟩ := crossing_up hd he
    cases e' with
    | across i' j' =>
      obtain ⟨hy1', hx1', hx2'⟩ := crossing_across hd he'
      rw [← h, hx1] at hx1' hx2'
      have h1 : i' < i := lt_of_spread_lt hx he'.1.1.le hx1'
      have h2 : i < i' + 1 := lt_of_spread_lt hx he.1.1 hx2'
      omega
    | up i' j' =>
      obtain ⟨hx1', hy1', hy2'⟩ := crossing_up hd he'
      rw [h] at hx1 hy1 hy2
      -- on the same column, strictly between two rows
      have hi : i = i' := spread_injective hx he.1.1 he'.1.1 (hx1.symm.trans hx1')
      have h1 : j < j' + 1 := lt_of_spread_lt hy he.1.2.le (hy1.trans hy2')
      have h2 : j' < j + 1 := lt_of_spread_lt hy he'.1.2.le (hy1'.trans hy2)
      rw [hi, show j = j' by omega]

/-- Edges on the border of the raster are crossed on the boundary of the domain. -/
theorem onBoundary_crossing (hd : g.domain.isProper = true) (he : g.IsCrossed e)
    (hborder : e.OnBorder g.columns g.rows) : g.domain.OnBoundary (g.crossing e) := by
  obtain ⟨hx, hy⟩ := isProper_iff.mp hd
  cases e with
  | across i j =>
    obtain ⟨hyj, hx1, hx2⟩ := crossing_across hd he
    obtain ⟨hi, -⟩ := he.1
    rw [Domain.OnBoundary, hyj]
    exact .inr ⟨spread_eq_or_eq hy hborder, (spread_mem hx (by omega) hi.le).1.trans hx1.le,
      hx2.le.trans (spread_mem hx (by omega) hi).2⟩
  | up i j =>
    obtain ⟨hxi, hy1, hy2⟩ := crossing_up hd he
    obtain ⟨-, hj⟩ := he.1
    rw [Domain.OnBoundary, hxi]
    exact .inl ⟨spread_eq_or_eq hx hborder, (spread_mem hy (by omega) hj.le).1.trans hy1.le,
      hy2.le.trans (spread_mem hy (by omega) hj).2⟩

end SampledRaster
end Graphing.Contour
