/-
  Graphing.Proofs.Contour.SignChange

  Every traced vertex is witnessed by a change of sign.

  What carries this is that a cell tells the truth about its corners: the
  values it holds are those of the function there (`Cell.Faithful`).  The cells
  of the raster do, and so do the quarters of one that does.  A cell that is
  not empty has finite corners, and only its crossed edges are connected; so in
  exact arithmetic each end of a segment is the one zero of the interpolation
  between a positive value and one that is not.
-/
import Graphing.Proofs.Contour.Findings
import Graphing.Proofs.Contour.RasterEdges
import Graphing.Proofs.Contour.Vertices
import Graphing.Proofs.Contour.Watertight

namespace Graphing.Contour

variable {α β : Type}

/-! ## Samples -/

section Samples

variable [Reading β α]

/-- On many points an element-wise function is sampled as on each of them. -/
theorem PlaneFunction.Elementwise.sample_eq {f : PlaneFunction α β} (h : f.Elementwise)
    (ps : List (Point α)) : f.sample ps = ps.map f.sampleAt := by
  rw [sample]
  cases hvs : f.onMany ps with
  | none => rfl
  | some vs =>
    have hsettle : f.sampleAt =
        (fun v => (v.map settle).getD Reading.undefined) ∘ f.onPoint := by
      funext p
      rw [sampleAt, Function.comp_apply]
      cases f.onPoint p <;> rfl
    dsimp only
    rw [hsettle, ← List.map_map, ← h ps vs hvs, List.map_map]
    rfl

end Samples

/-- The entry in a column of a row, in rows one after another. -/
theorem getElem?_flatMap_range {γ : Type} (entry : Nat → Nat → γ) {columns rows i j : Nat}
    (hi : i < columns) (hj : j < rows) :
    ((List.range rows).flatMap fun j => (List.range columns).map (entry j))[j * columns + i]? =
      some (entry j i) := by
  induction rows generalizing j with
  | zero => exact absurd hj (Nat.not_lt_zero j)
  | succ rows ih =>
    have hlength : ((List.range rows).flatMap fun j => (List.range columns).map (entry j)).length =
        rows * columns := by
      simp [List.length_flatMap]
    rw [List.range_succ, List.flatMap_append]
    rcases Nat.lt_succ_iff_lt_or_eq.mp hj with hlt | rfl
    · have hle : (j + 1) * columns ≤ rows * columns := Nat.mul_le_mul_right _ hlt
      rw [List.getElem?_append_left (by rw [hlength]; rw [Nat.succ_mul] at hle; omega), ih hlt]
    · rw [List.getElem?_append_right (by omega), hlength, Nat.add_sub_cancel_left]
      simp [hi]

/-! ## Faithful cells -/

namespace Cell

section

variable [Reading β α]

/-- The values of a cell are the samples of a function at its corners. -/
structure Faithful (f : PlaneFunction α β) (c : Cell α β) : Prop where
  nw : c.nw = f.sampleAt ⟨c.x0, c.y1⟩
  ne : c.ne = f.sampleAt ⟨c.x1, c.y1⟩
  se : c.se = f.sampleAt ⟨c.x1, c.y0⟩
  sw : c.sw = f.sampleAt ⟨c.x0, c.y0⟩

/-- The ends of an edge, from the left or the lower one. -/
def ends (c : Cell α β) : Edge → Point α × Point α
  | .bottom => (⟨c.x0, c.y0⟩, ⟨c.x1, c.y0⟩)
  | .right => (⟨c.x1, c.y0⟩, ⟨c.x1, c.y1⟩)
  | .top => (⟨c.x0, c.y1⟩, ⟨c.x1, c.y1⟩)
  | .left => (⟨c.x0, c.y0⟩, ⟨c.x0, c.y1⟩)

/-- The values at the ends of an edge. -/
def endValues (c : Cell α β) : Edge → β × β
  | .bottom => (c.sw, c.se)
  | .right => (c.se, c.ne)
  | .top => (c.nw, c.ne)
  | .left => (c.sw, c.nw)

theorem Faithful.endValues_eq {f : PlaneFunction α β} {c : Cell α β} (h : c.Faithful f)
    (k : Edge) : c.endValues k = (f.sampleAt (c.ends k).1, f.sampleAt (c.ends k).2) := by
  cases k <;> simp only [endValues, ends, h.nw, h.ne, h.se, h.sw]

theorem isCrossed_eq (c : Cell α β) (k : Edge) :
    c.isCrossed k =
      (Reading.isPositive (c.endValues k).1 != Reading.isPositive (c.endValues k).2) := by
  cases k <;> rfl

/-- The values at the corners of a cell that is not empty are finite. -/
theorem isFinite_of_mem_corners {c : Cell α β} (h : c.isEmpty = false) {v : β}
    (hv : v ∈ c.corners) : Reading.isFinite v = true := by
  rw [isEmpty, CellStatus.isEmpty, Bool.or_eq_false_iff, Bool.not_eq_false'] at h
  exact List.all_eq_true.mp h.1 v hv

/-- The values at the ends of all edges of a cell that is not empty are finite. -/
theorem isFinite_endValues {c : Cell α β} (h : c.isEmpty = false) (k : Edge) :
    Reading.isFinite (c.endValues k).1 = true ∧ Reading.isFinite (c.endValues k).2 = true := by
  have hfst : (c.endValues k).1 ∈ c.corners := by cases k <;> simp [endValues, corners]
  have hsnd : (c.endValues k).2 ∈ c.corners := by cases k <;> simp [endValues, corners]
  exact ⟨isFinite_of_mem_corners h hfst, isFinite_of_mem_corners h hsnd⟩

end

variable [Coordinate α] [Reading β α]

theorem edgePoint_eq (c : Cell α β) (k : Edge) :
    c.edgePoint k = between (c.ends k).1 (c.ends k).2 (c.endValues k).1 (c.endValues k).2 := by
  cases k <;> rfl

/-- A cell or one of its sub-cells. -/
inductive Within (f : PlaneFunction α β) : Cell α β → Cell α β → Prop where
  | self (c : Cell α β) : Within f c c
  | split {c q q' : Cell α β} (hq : Within f c q) (hsplit : q' ∈ q.split f) : Within f c q'

theorem Within.of_split {f : PlaneFunction α β} {c q q' : Cell α β} (hq : q ∈ c.split f)
    (h : Within f q q') : Within f c q' := by
  induction h with
  | self => exact .split (.self c) hq
  | split _ hsplit ih => exact .split ih hsplit

/-! ### Splitting -/

/-- An element-wise function gives a value to each of the split points. -/
theorem split_eq {f : PlaneFunction α β} (hf : f.Elementwise) (c : Cell α β) :
    c.split f = c.quarters (f.sampleAt ⟨c.center.x, c.y0⟩) (f.sampleAt ⟨c.x1, c.center.y⟩)
      (f.sampleAt ⟨c.center.x, c.y1⟩) (f.sampleAt ⟨c.x0, c.center.y⟩) (f.sampleAt c.center) := by
  rw [split, hf.sample_eq]
  rfl

theorem Faithful.split {f : PlaneFunction α β} (hf : f.Elementwise) {c q : Cell α β}
    (h : c.Faithful f) (hq : q ∈ c.split f) : q.Faithful f := by
  rw [split_eq hf] at hq
  simp only [quarters, List.mem_cons, List.not_mem_nil, or_false] at hq
  rcases hq with rfl | rfl | rfl | rfl
  · exact ⟨rfl, rfl, rfl, h.sw⟩
  · exact ⟨rfl, rfl, h.se, rfl⟩
  · exact ⟨rfl, h.ne, rfl, rfl⟩
  · exact ⟨h.nw, rfl, rfl, rfl⟩

theorem Faithful.within {f : PlaneFunction α β} (hf : f.Elementwise) {c q : Cell α β}
    (h : c.Faithful f) (hq : Within f c q) : q.Faithful f := by
  induction hq with
  | self => exact h
  | split _ hsplit ih => exact ih.split hf hsplit

/-! ### What is found -/

omit [Coordinate α] in
theorem mem_occupied {cells : List (Cell α β)} {c : Cell α β} :
    c ∈ occupied cells ↔ c ∈ cells ∧ c.isEmpty = false := by
  simp [occupied]

omit [Coordinate α] in
/-- Only crossed edges are connected. -/
theorem isCrossed_of_mem_pairs {c : Cell α β} {positive : Bool} {e : Edge × Edge}
    (h : e ∈ c.pairs positive) : c.isCrossed e.1 = true ∧ c.isCrossed e.2 = true := by
  have hcrossed : ∀ k ∈ [e.1, e.2], c.isCrossed k = true := by
    intro k hk
    have hmem : k ∈ (c.pairs positive).flatMap fun e => [e.1, e.2] :=
      List.mem_flatMap.mpr ⟨e, h, hk⟩
    exact (List.mem_filter.mp ((c.ends_pairs_perm positive).subset hmem)).2
  exact ⟨hcrossed e.1 (by simp), hcrossed e.2 (by simp)⟩

/-- Each segment that is found under a cell lies in it or in a sub-cell, between connected edges. -/
theorem exists_of_mem_found {f : PlaneFunction α β} {defers : Bool} {levels : Nat} {c : Cell α β}
    (hc : c.isEmpty = false) {g : Point α × Point α} (hg : g ∈ c.found f defers levels) :
    ∃ q, Within f c q ∧ q.isEmpty = false ∧ ∃ positive, g ∈ q.segments (q.pairs positive) := by
  induction levels generalizing c with
  | zero =>
    rw [found] at hg
    refine ⟨c, .self c, hc, c.isCenterPositive f, ?_⟩
    cases hpairs : connections? c.code with
    | some pairs =>
      rw [hpairs] at hg
      rwa [Cell.pairs, hpairs]
    | none =>
      rw [hpairs] at hg
      cases defers with
      | true => cases hg
      | false => rwa [Cell.pairs, hpairs]
  | succ levels ih =>
    rw [found] at hg
    cases hpairs : connections? c.code with
    | some pairs =>
      rw [hpairs] at hg
      exact ⟨c, .self c, hc, true, by rwa [Cell.pairs, hpairs]⟩
    | none =>
      rw [hpairs] at hg
      obtain ⟨q, hq, hg⟩ := List.mem_flatMap.mp hg
      obtain ⟨hsplit, hempty⟩ := mem_occupied.mp hq
      obtain ⟨q', hwithin, hq'⟩ := ih hempty hg
      exact ⟨q', hwithin.of_split hsplit, hq'⟩

/-- Each saddle that is put off is the cell itself or one of its sub-cells. -/
theorem within_of_mem_deferred {f : PlaneFunction α β} {defers : Bool} {levels : Nat} {c q : Cell α β}
    (hc : c.isEmpty = false) (hq : q ∈ c.deferred f defers levels) :
    Within f c q ∧ q.isEmpty = false := by
  induction levels generalizing c with
  | zero =>
    rw [deferred] at hq
    cases hpairs : connections? c.code with
    | some pairs =>
      rw [hpairs] at hq
      cases hq
    | none =>
      rw [hpairs] at hq
      cases defers with
      | true =>
        obtain rfl : q = c := by simpa using hq
        exact ⟨.self q, hc⟩
      | false => cases hq
  | succ levels ih =>
    rw [deferred] at hq
    cases hpairs : connections? c.code with
    | some pairs =>
      rw [hpairs] at hq
      cases hq
    | none =>
      rw [hpairs] at hq
      obtain ⟨q', hq', hq⟩ := List.mem_flatMap.mp hq
      obtain ⟨hsplit, hempty⟩ := mem_occupied.mp hq'
      obtain ⟨hwithin, hq⟩ := ih hempty hq
      exact ⟨hwithin.of_split hsplit, hq⟩

theorem Within.trans {f : PlaneFunction α β} {c q q' : Cell α β} (h : Within f c q)
    (h' : Within f q q') : Within f c q' := by
  induction h' with
  | self => exact h
  | split _ hsplit ih => exact .split ih hsplit

end Cell

variable [Coordinate α] [Reading β α]

/-- Each segment of a request lies in a cell of the raster or in a sub-cell of one, and its ends are
on crossed edges of that cell. -/
theorem TraceRequest.exists_edges_of_mem_found {r : TraceRequest α β} {o : TracerOptions α}
    {columns rows : Nat} {g : Point α × Point α} (hg : g ∈ r.found o columns rows) :
    ∃ c ∈ r.domain.cells columns rows r.function, ∃ q, Cell.Within r.function c q ∧
      q.isEmpty = false ∧ ∃ a b, q.isCrossed a = true ∧ q.isCrossed b = true ∧
        g = (q.edgePoint a, q.edgePoint b) := by
  have hcell : ∃ c ∈ r.domain.cells columns rows r.function, ∃ q, Cell.Within r.function c q ∧
      q.isEmpty = false ∧ ∃ positive, g ∈ q.segments (q.pairs positive) := by
    obtain hg | hg := List.mem_append.mp hg
    · obtain ⟨c, hc, hg⟩ := List.mem_flatMap.mp hg
      obtain ⟨hc, hempty⟩ := Cell.mem_occupied.mp hc
      exact ⟨c, hc, Cell.exists_of_mem_found hempty hg⟩
    · obtain ⟨d, hd, hg⟩ := List.mem_flatMap.mp hg
      obtain ⟨c, hc, hd⟩ := List.mem_flatMap.mp hd
      obtain ⟨hc, hempty⟩ := Cell.mem_occupied.mp hc
      obtain ⟨hwithin, hempty⟩ := Cell.within_of_mem_deferred hempty hd
      obtain ⟨q, hq, hrest⟩ := Cell.exists_of_mem_found hempty hg
      exact ⟨c, hc, q, hwithin.trans hq, hrest⟩
  obtain ⟨c, hc, q, hwithin, hempty, positive, hg⟩ := hcell
  obtain ⟨⟨a, b⟩, hab, rfl⟩ := List.mem_map.mp hg
  obtain ⟨ha, hb⟩ := Cell.isCrossed_of_mem_pairs hab
  exact ⟨c, hc, q, hwithin, hempty, a, b, ha, hb, rfl⟩

/-- The cells of a raster are faithful. -/
theorem faithful_of_mem_cells {r : TraceRequest α β} (hf : r.function.Elementwise)
    {columns rows : Nat} {c : Cell α β} (hc : c ∈ r.domain.cells columns rows r.function) :
    c.Faithful r.function := by
  obtain ⟨i, hi, j, hj, rfl⟩ := mem_cells.mp hc
  have hvalue : ∀ i ≤ columns, ∀ j ≤ rows, (r.raster columns rows).value (i, j) =
      r.function.sampleAt (r.domain.corner columns rows i j) := by
    intro i hi j hj
    have hcorner := getElem?_flatMap_range (fun j i => r.domain.corner columns rows i j)
      (Nat.lt_succ_of_le hi) (Nat.lt_succ_of_le hj)
    rw [SampledRaster.value, TraceRequest.raster, hf.sample_eq]
    dsimp only
    rw [List.getElem?_toArray, List.getElem?_map, Domain.corners, hcorner]
    rfl
  exact ⟨hvalue i hi.le (j + 1) hj, hvalue (i + 1) hi (j + 1) hj, hvalue (i + 1) hi j hj.le,
    hvalue i hi.le j hj.le⟩

/-! ## Exact arithmetic -/

section Exact

variable {K : Type} [Field K] [LinearOrder K] [FloorRing K]

/-- Whether a point lies in a rectangle or on its boundary. -/
def Domain.Contains (d : Domain K) (p : Point K) : Prop :=
  (d.xmin ≤ p.x ∧ p.x ≤ d.xmax) ∧ d.ymin ≤ p.y ∧ p.y ≤ d.ymax

/-- The point that divides the way between two others in a ratio. -/
def Point.along (a b : Point K) (s : K) : Point K := ⟨a.x + s * (b.x - a.x), a.y + s * (b.y - a.y)⟩

/-- A cell with a width and a height inside a rectangle. -/
structure Cell.Inside (d : Domain K) (c : Cell K (Option K)) : Prop where
  xmin_le : d.xmin ≤ c.x0
  x0_lt : c.x0 < c.x1
  le_xmax : c.x1 ≤ d.xmax
  ymin_le : d.ymin ≤ c.y0
  y0_lt : c.y0 < c.y1
  le_ymax : c.y1 ≤ d.ymax

/-- An edge of a cell witnesses a point: it is parallel to an axis, the cell holds finite values at
its ends, the function has these values exactly there, one is positive and the other is not, and the
point is where the value is zero if it changes evenly from one end to the other, and nowhere else. -/
structure Cell.Witnesses (f : PlaneFunction K (Option K)) (c : Cell K (Option K)) (k : Edge)
    (p : Point K) : Prop where
  parallel : (c.ends k).1.x = (c.ends k).2.x ∨ (c.ends k).1.y = (c.ends k).2.y
  signChange : ∃ u v : K, c.endValues k = (some u, some v) ∧
    f.onPoint (c.ends k).1 = some (some u) ∧ f.onPoint (c.ends k).2 = some (some v) ∧
    (0 < u ∧ v ≤ 0 ∨ u ≤ 0 ∧ 0 < v) ∧ u - v ≠ 0 ∧
    ∃ s, 0 ≤ s ∧ s ≤ 1 ∧ p = (c.ends k).1.along (c.ends k).2 s ∧
      ∀ s', u + s' * (v - u) = 0 ↔ s' = s

omit [FloorRing K] in
/-- A finite sample is the value of the function. -/
theorem onPoint_of_sampleAt {f : PlaneFunction K (Option K)} {p : Point K} {u : K}
    (h : f.sampleAt p = some u) : f.onPoint p = some (some u) := by
  rw [PlaneFunction.sampleAt] at h
  cases hp : f.onPoint p with
  | none =>
    rw [hp] at h
    cases h
  | some v =>
    rw [hp] at h
    cases v with
    | none => cases h
    | some w => exact congrArg (fun x => some x) h

variable [IsStrictOrderedRing K]

/-- Between a positive value and one that is not, an even change is zero once. -/
theorem between_eq_along {u v : K} (h : 0 < u ∧ v ≤ 0 ∨ u ≤ 0 ∧ 0 < v) (a b : Point K) :
    u - v ≠ 0 ∧ ∃ s, 0 ≤ s ∧ s ≤ 1 ∧ Cell.between a b (some u) (some v) = a.along b s ∧
      ∀ s', u + s' * (v - u) = 0 ↔ s' = s := by
  have hne : u - v ≠ 0 := by
    rcases h with ⟨hu, hv⟩ | ⟨hu, hv⟩
    · exact (by linarith : 0 < u - v).ne'
    · exact (by linarith : u - v < 0).ne
  refine ⟨hne, u / (u - v), ?_, ?_, ?_, fun s' => ?_⟩
  · rcases h with ⟨hu, hv⟩ | ⟨hu, hv⟩
    · exact div_nonneg hu.le (by linarith)
    · exact div_nonneg_of_nonpos hu (by linarith)
  · rcases h with ⟨hu, hv⟩ | ⟨hu, hv⟩
    · rw [div_le_one (by linarith)]
      linarith
    · rw [div_le_one_of_neg (by linarith)]
      linarith
  · simp [Cell.between, Reading.crossing, Point.along, hne]
  · rw [eq_div_iff hne]
    constructor <;> intro hs <;> linarith

namespace Cell

/-- The edges of a cell that are crossed witness the points where they are. -/
theorem witnesses_of_isCrossed {f : PlaneFunction K (Option K)} {c : Cell K (Option K)}
    (hf : c.Faithful f) (hempty : c.isEmpty = false) {k : Edge} (hk : c.isCrossed k = true) :
    c.Witnesses f k (c.edgePoint k) := by
  obtain ⟨hfst, hsnd⟩ := isFinite_endValues hempty k
  obtain ⟨u, hu⟩ : ∃ u, (c.endValues k).1 = some u := Option.isSome_iff_exists.mp hfst
  obtain ⟨v, hv⟩ : ∃ v, (c.endValues k).2 = some v := Option.isSome_iff_exists.mp hsnd
  have hsign : 0 < u ∧ v ≤ 0 ∨ u ≤ 0 ∧ 0 < v := by
    rw [isCrossed_eq, hu, hv, bne_iff_ne] at hk
    simp only [Reading.isPositive, Option.any_some, ne_eq, decide_eq_decide] at hk
    rcases lt_or_ge 0 u with h1 | h1 <;> rcases lt_or_ge 0 v with h2 | h2
    · exact absurd (iff_of_true h1 h2) hk
    · exact .inl ⟨h1, h2⟩
    · exact .inr ⟨h1, h2⟩
    · exact absurd (iff_of_false h1.not_gt h2.not_gt) hk
  obtain ⟨hne, hzero⟩ := between_eq_along hsign (c.ends k).1 (c.ends k).2
  have hvalues := hf.endValues_eq k
  refine ⟨?_, u, v, Prod.ext hu hv, onPoint_of_sampleAt ?_, onPoint_of_sampleAt ?_, hsign, hne, ?_⟩
  · cases k <;> simp [ends]
  · rw [← hu, hvalues]
  · rw [← hv, hvalues]
  · rwa [edgePoint_eq, hu, hv]

/-! ### Cells inside the domain -/

theorem Inside.split {d : Domain K} {f : PlaneFunction K (Option K)} {c q : Cell K (Option K)}
    (h : c.Inside d) (hf : f.Elementwise) (hq : q ∈ c.split f) : q.Inside d := by
  obtain ⟨hx0, hx, hx1, hy0, hy, hy1⟩ := h
  have hmx : c.center.x = 1 / 2 * (c.x0 + c.x1) := rfl
  have hmy : c.center.y = 1 / 2 * (c.y0 + c.y1) := rfl
  rw [split_eq hf] at hq
  simp only [quarters, List.mem_cons, List.not_mem_nil, or_false] at hq
  rcases hq with rfl | rfl | rfl | rfl <;> constructor <;> dsimp only <;> linarith

theorem Inside.within {d : Domain K} {f : PlaneFunction K (Option K)} {c q : Cell K (Option K)}
    (h : c.Inside d) (hf : f.Elementwise) (hq : Within f c q) : q.Inside d := by
  induction hq with
  | self => exact h
  | split _ hsplit ih => exact ih.split hf hsplit

omit [FloorRing K] in
/-- A point between the ends of an edge lies in the rectangle. -/
theorem Inside.contains_along {d : Domain K} {c : Cell K (Option K)} (h : c.Inside d) (k : Edge)
    {s : K} (h0 : 0 ≤ s) (h1 : s ≤ 1) : d.Contains ((c.ends k).1.along (c.ends k).2 s) := by
  obtain ⟨hx0, hx, hx1, hy0, hy, hy1⟩ := h
  have hwidth : 0 ≤ s * (c.x1 - c.x0) ∧ s * (c.x1 - c.x0) ≤ c.x1 - c.x0 :=
    ⟨mul_nonneg h0 (by linarith), mul_le_of_le_one_left (by linarith) h1⟩
  have hheight : 0 ≤ s * (c.y1 - c.y0) ∧ s * (c.y1 - c.y0) ≤ c.y1 - c.y0 :=
    ⟨mul_nonneg h0 (by linarith), mul_le_of_le_one_left (by linarith) h1⟩
  cases k <;> simp only [ends, Point.along, sub_self, mul_zero, add_zero] <;>
    exact ⟨⟨by linarith, by linarith⟩, by linarith, by linarith⟩

end Cell

/-- The cells of a raster lie in the domain. -/
theorem inside_of_mem_cells {r : TraceRequest K (Option K)} (hx : r.domain.xmin < r.domain.xmax)
    (hy : r.domain.ymin < r.domain.ymax) {columns rows : Nat} {c : Cell K (Option K)}
    (hc : c ∈ r.domain.cells columns rows r.function) : c.Inside r.domain := by
  obtain ⟨i, hi, j, hj, rfl⟩ := mem_cells.mp hc
  have hcolumns : 0 < columns := by omega
  have hrows : 0 < rows := by omega
  exact ⟨(spread_mem hx hcolumns hi.le).1, spread_lt_spread hx (Nat.lt_succ_self i) hi,
    (spread_mem hx hcolumns hi).2, (spread_mem hy hrows hj.le).1,
    spread_lt_spread hy (Nat.lt_succ_self j) hj, (spread_mem hy hrows hj).2⟩

/-! ## Traces -/

/-- Each vertex of a traced polyline lies in the domain, and a crossed edge of a cell of the raster
or of one of its sub-cells witnesses it. -/
theorem witnesses_of_trace {t : Tracer K (Option K)} {r : TraceRequest K (Option K)}
    (hf : r.function.Elementwise)
    {consumer : Option (Tracer K (Option K) → List (PathPoint K) → Except (TraceFault K) Unit)}
    {lines : List (List (Point K))} (h : (t.trace r consumer).1 = .ok lines)
    {l : List (Point K)} (hl : l ∈ lines) {p : Point K} (hp : p ∈ l) :
    r.domain.Contains p ∧ ∃ columns rows, t.gridShape r.resolution r.fast = .ok (columns, rows) ∧
      ∃ c ∈ r.domain.cells columns rows r.function, ∃ q, Cell.Within r.function c q ∧
        q.Inside r.domain ∧ ∃ k, q.Witnesses r.function k p := by
  obtain ⟨hdomain, columns, rows, hshape, g, hg, hpg⟩ := t.exists_segment_of_trace h hl hp
  obtain ⟨hx, hy⟩ := isProper_iff.mp hdomain
  rw [t.passes_found] at hg
  obtain ⟨c, hc, q, hwithin, hempty, a, b, ha, hb, rfl⟩ := r.exists_edges_of_mem_found hg
  have hfaithful := (faithful_of_mem_cells hf hc).within hf hwithin
  have hinside := (inside_of_mem_cells hx hy hc).within hf hwithin
  have hedge : ∃ k, q.Witnesses r.function k p := by
    rcases hpg with rfl | rfl
    · exact ⟨a, Cell.witnesses_of_isCrossed hfaithful hempty ha⟩
    · exact ⟨b, Cell.witnesses_of_isCrossed hfaithful hempty hb⟩
  obtain ⟨k, hk⟩ := hedge
  obtain ⟨-, -, -, -, -, -, -, s, h0, h1, hpoint, -⟩ := hk.signChange
  exact ⟨hpoint ▸ hinside.contains_along k h0 h1, columns, rows, hshape, c, hc, q, hwithin, hinside,
    k, hk⟩

/-- Traced vertices are witnessed by changes of sign.  In exact arithmetic a proper domain is traced
at every positive resolution, and whatever a trace gives, each vertex of each polyline lies in the
domain and is the one zero of the interpolation along an edge of a cell, or of a sub-cell, between a
positive value of the function and one that is not. -/
theorem trace_witnessed {t : Tracer K (Option K)} {r : TraceRequest K (Option K)}
    (hidle : t.isBusy = false) (hf : r.function.Elementwise)
    (hx : r.domain.xmin < r.domain.xmax) (hy : r.domain.ymin < r.domain.ymax) :
    (0 < t.options.tolerance → r.fast = true ∨ 0 < r.resolution.1 ∧ 0 < r.resolution.2 →
      ∃ lines, (t.trace r none).1 = .ok lines) ∧
    ∀ consumer lines, (t.trace r consumer).1 = .ok lines → ∀ l ∈ lines, ∀ p ∈ l,
      r.domain.Contains p ∧ ∃ columns rows, t.gridShape r.resolution r.fast = .ok (columns, rows) ∧
        ∃ c ∈ r.domain.cells columns rows r.function, ∃ q, Cell.Within r.function c q ∧
          q.Inside r.domain ∧ ∃ k, q.Witnesses r.function k p := by
  refine ⟨fun _ hresolution => ?_, fun consumer lines h l hl p hp => witnesses_of_trace hf h hl hp⟩
  have hshape : ∃ columns rows, t.gridShape r.resolution r.fast = .ok (columns, rows) := by
    rw [Tracer.gridShape]
    split
    · exact ⟨_, _, rfl⟩
    · rename_i hfast
      obtain ⟨hw, hh⟩ := hresolution.resolve_left hfast
      rw [if_neg (by simp; omega)]
      exact ⟨_, _, rfl⟩
  obtain ⟨columns, rows, hshape⟩ := hshape
  obtain ⟨store, hstore⟩ := ChainStore.exists_addAll
    (ChainStore.empty t.options.tolerance t.options.maxOpenChains) (t.passes r columns rows).segments
  exact ⟨_, (Tracer.trace_eq hidle (isProper_iff.mpr ⟨hx, hy⟩) hshape hstore).1⟩

/-- The two branches of a hyperbola, in one cell that is a saddle and is split. -/
theorem trace_witnessed_hyperbola :
    let t : Tracer ℚ (Option ℚ) := ⟨{ tolerance := 1 / 100, fastGrid := 1 }, ⟨0, 0, #[]⟩, false⟩
    let r : TraceRequest ℚ (Option ℚ) :=
      { function := .ofTotal fun p => some (p.x * p.y - 1 / 9), domain := ⟨-1, 1, -1, 1⟩, fast := true }
    ∃ lines, (t.trace r none).1 = .ok lines ∧ ∀ l ∈ lines, ∀ p ∈ l, r.domain.Contains p ∧
      ∃ c ∈ r.domain.cells 1 1 r.function, ∃ q, Cell.Within r.function c q ∧
        ∃ k, q.Witnesses r.function k p := by
  intro t r
  obtain ⟨htrace, hwitnessed⟩ := trace_witnessed (t := t) (r := r) rfl
    (PlaneFunction.elementwise_ofTotal _) (by decide +kernel) (by decide +kernel)
  obtain ⟨lines, hlines⟩ := htrace (by decide +kernel) (.inl rfl)
  refine ⟨lines, hlines, fun l hl p hp => ?_⟩
  obtain ⟨hcontains, columns, rows, hshape, c, hc, q, hq, -, hk⟩ :=
    hwitnessed none lines hlines l hl p hp
  cases hshape
  exact ⟨hcontains, c, hc, q, hq, hk⟩

end Exact

end Graphing.Contour
