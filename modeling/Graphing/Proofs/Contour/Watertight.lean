/-
  Graphing.Proofs.Contour.Watertight

  Traced contours have no gaps.

  If no cell is split, every crossing of an edge inside the raster has two
  segments, one from the cell on each side, and every crossing of an edge on
  the border has one.  What stitching makes of these segments are their
  connected components, so a polyline can only end on the boundary of the
  domain, and passes each crossing once.
-/
import Graphing.Proofs.Contour.Crossings
import Graphing.Proofs.Contour.Stitching
import Mathlib.Tactic.IntervalCases

namespace Graphing.Contour

/-! ## Vertices -/

section Vertices

variable {P : Type} [DecidableEq P]

/-- The points of a polyline, without the repeated point at the end of a loop. -/
def vertices (l : List P) : List P := if l.head? = l.getLast? then l.dropLast else l

theorem IsPath.vertices_eq {l : List P} (h : IsPath l) : vertices l = l := by
  obtain ⟨a, m, rfl⟩ := List.exists_cons_of_length_pos (by have := h.two_le; omega : 0 < l.length)
  obtain ⟨m, z, rfl⟩ : ∃ m' z, m = m' ++ [z] := by
    have hm : m ≠ [] := by
      rintro rfl
      exact absurd h.two_le (by simp)
    exact ⟨m.dropLast, m.getLast hm, (List.dropLast_append_getLast hm).symm⟩
  have haz : a ≠ z := by
    rintro rfl
    exact absurd h.nodup (by simp)
  rw [vertices, if_neg]
  simpa [List.getLast?_cons] using haz

theorem count_vertices {l : List P} (h : IsPath l ∨ IsLoop l) (p : P) :
    (vertices l).count p = if p ∈ l then 1 else 0 := by
  rcases h with h | h
  · rw [h.vertices_eq, h.nodup.count]
  · rw [vertices, if_pos h.closed, h.nodup.count]
    simp only [h.mem_dropLast]

/-- A point is a vertex as often as polylines run through it. -/
theorem count_flatMap_vertices {lines : List (List P)} (h : ∀ l ∈ lines, IsPath l ∨ IsLoop l)
    (p : P) : (lines.flatMap vertices).count p = lines.countP fun l => decide (p ∈ l) := by
  induction lines with
  | nil => rfl
  | cons l lines ih =>
    rw [List.flatMap_cons, List.count_append, List.countP_cons, count_vertices (h l (by simp)),
      ih fun m hm => h m (by simp [hm]), add_comm]
    simp

end Vertices

variable {K : Type} [Field K] [LinearOrder K] [FloorRing K]

/-! ## Polylines without gaps -/

/-- Polylines that run through all crossings of a raster. -/
structure Watertight (g : SampledRaster K (Option K)) (lines : List (List (Point K))) : Prop where
  /-- A polyline is a loop, or begins and ends on the boundary of the domain. -/
  closed_or_boundary : ∀ l ∈ lines, IsLoop l ∨ ∃ p q, l.head? = some p ∧ l.getLast? = some q ∧
    g.domain.OnBoundary p ∧ g.domain.OnBoundary q
  /-- Every crossed edge gives one vertex of one polyline. -/
  once : ∀ e, g.IsCrossed e → (lines.flatMap vertices).count (g.crossing e) = 1
  /-- Every point of a polyline is the crossing of exactly one edge. -/
  crossing : ∀ l ∈ lines, ∀ p ∈ l, ∃! e, g.IsCrossed e ∧ g.crossing e = p

namespace SampledRaster

variable [IsStrictOrderedRing K] {g : SampledRaster K (Option K)} {positive : Nat → Nat → Bool}

/-- The crossings of a raster are as far apart as stitching needs. -/
def CrossingsApart (g : SampledRaster K (Option K)) (tolerance : K) : Prop :=
  ∀ e e', g.IsCrossed e → g.IsCrossed e' → g.crossing e ≠ g.crossing e' →
    tolerance < |(g.crossing e).x - (g.crossing e').x| ∨
      tolerance < |(g.crossing e).y - (g.crossing e').y|

theorem exists_isCrossed_of_mem_segments (hg : g.Definite) {s : Point K × Point K}
    (hs : s ∈ g.segments positive) {p : Point K} (hp : p = s.1 ∨ p = s.2) :
    ∃ e, g.IsCrossed e ∧ g.crossing e = p := by
  have hmem : p ∈ (g.segments positive).flatMap fun s => [s.1, s.2] := by
    rw [List.mem_flatMap]
    exact ⟨s, hs, by simpa using hp⟩
  rw [(g.ends_segments_perm positive).mem_iff, List.mem_map] at hmem
  obtain ⟨e, he, rfl⟩ := hmem
  obtain ⟨hside, hsign⟩ := List.mem_filter.mp he
  exact ⟨e, (isCrossed_iff hg (inRaster_of_mem_cellSides hside)).mpr hsign, rfl⟩

/-- Every segment joins two different crossings. -/
theorem ne_of_mem_segments (hg : g.Definite) (hd : g.domain.isProper = true)
    {s : Point K × Point K} (hs : s ∈ g.segments positive) : s.1 ≠ s.2 := by
  simp only [segments, List.mem_flatMap, List.mem_range, Cell.segments, List.mem_map] at hs
  obtain ⟨j, hj, i, hi, k, hk, rfl⟩ := hs
  have hcrossed : ∀ b, b = k.1 ∨ b = k.2 → g.IsCrossed (b.side i j) := by
    intro b hb
    have hmem : b ∈ ((g.cell i j).pairs (positive i j)).flatMap fun e => [e.1, e.2] := by
      rw [List.mem_flatMap]
      exact ⟨k, hk, by simpa using hb⟩
    rw [(Cell.ends_pairs_perm _ _).mem_iff, List.mem_filter, isCrossed_cell] at hmem
    refine (isCrossed_iff hg ?_).mpr hmem.2
    cases b <;> exact ⟨by omega, by omega⟩
  intro heq
  dsimp only at heq
  rw [edgePoint_cell, edgePoint_cell] at heq
  have hside := crossing_injective hd (hcrossed _ (.inl rfl)) (hcrossed _ (.inr rfl)) heq
  refine Cell.ne_of_mem_pairs hk ?_
  revert hside
  cases k.1 <;> cases k.2 <;> simp [Cell.Edge.side]

/-- A crossing has a segment for each cell of its edge. -/
theorem degree_crossing (hg : g.Definite) (hd : g.domain.isProper = true) {e : RasterEdge}
    (he : g.IsCrossed e) : degree (undirected (g.segments positive)) (g.crossing e) =
      (cellSides g.columns g.rows).count e := by
  rw [degree_undirected (fun s hs => ne_of_mem_segments hg hd hs),
    (g.ends_segments_perm positive).count_eq, List.count, List.countP_map, List.countP_filter,
    List.count]
  refine List.countP_congr fun e' hmem => ?_
  have hin := inRaster_of_mem_cellSides hmem
  simp only [Function.comp_apply, Bool.and_eq_true, beq_iff_eq]
  constructor
  · rintro ⟨heq, hsign⟩
    exact crossing_injective hd ((isCrossed_iff hg hin).mpr hsign) he heq
  · rintro rfl
    exact ⟨rfl, (isCrossed_iff hg hin).mp he⟩

/-- The segments of a raster can be told apart if its crossings can. -/
theorem separated_segments (hg : g.Definite) (hd : g.domain.isProper = true)
    (hc : 0 < g.columns) (hr : 0 < g.rows) {tolerance : K} (hapart : g.CrossingsApart tolerance) :
    Separated tolerance (undirected (g.segments positive)) := by
  have hend : ∀ f ∈ undirected (g.segments positive), ∀ p ∈ f,
      ∃ e, g.IsCrossed e ∧ g.crossing e = p := by
    intro f hf p hp
    obtain ⟨s, hs, rfl⟩ := List.mem_map.mp (Multiset.mem_coe.mp hf)
    exact exists_isCrossed_of_mem_segments hg hs (Sym2.mem_iff.mp hp)
  refine ⟨?_, ?_, ?_⟩
  · intro p q hpq
    obtain ⟨s, hs, heq⟩ := List.mem_map.mp (Multiset.mem_coe.mp hpq)
    have hne := ne_of_mem_segments hg hd hs
    rcases Sym2.eq_iff.mp heq with ⟨rfl, rfl⟩ | ⟨rfl, rfl⟩
    · exact hne
    · exact hne.symm
  · intro f hf f' hf' p hp q hq hpq
    obtain ⟨e, he, rfl⟩ := hend f hf p hp
    obtain ⟨e', he', rfl⟩ := hend f' hf' q hq
    exact hapart e e' he he' hpq
  · intro p
    by_cases hp : 0 < degree (undirected (g.segments positive)) p
    · obtain ⟨f, hf, hpf⟩ := Multiset.countP_pos.mp hp
      obtain ⟨e, he, rfl⟩ := hend f hf p hpf
      rw [degree_crossing hg hd he, count_cellSides hc hr he.1]
      split <;> omega
    · omega

/-- What runs through the segments of a raster has no gaps. -/
theorem watertight_of_traversal (hg : g.Definite) (hd : g.domain.isProper = true)
    (hc : 0 < g.columns) (hr : 0 < g.rows) {lines : List (List (Point K))}
    (h : Traversal (undirected (g.segments positive)) lines) : Watertight g lines := by
  have hpoint : ∀ l ∈ lines, ∀ p ∈ l, ∃ e, g.IsCrossed e ∧ g.crossing e = p := by
    intro l hl p hp
    obtain ⟨f, hf, hpf⟩ := Multiset.countP_pos.mp (h.degree_pos hl hp)
    obtain ⟨s, hs, rfl⟩ := List.mem_map.mp (Multiset.mem_coe.mp hf)
    exact exists_isCrossed_of_mem_segments hg hs (Sym2.mem_iff.mp hpf)
  -- an end has one segment, so its edge is the side of one cell only
  have hborder : ∀ l ∈ lines, ∀ p ∈ l, degree (undirected (g.segments positive)) p = 1 →
      g.domain.OnBoundary p := by
    intro l hl p hp hone
    obtain ⟨e, he, rfl⟩ := hpoint l hl p hp
    rw [degree_crossing hg hd he, count_cellSides hc hr he.1] at hone
    refine onBoundary_crossing hd he ?_
    by_contra hinner
    rw [if_neg hinner] at hone
    omega
  refine ⟨?_, ?_, ?_⟩
  · intro l hl
    rcases h.shape l hl with ⟨hloop, -⟩ | ⟨hpath, hdeg⟩
    · exact .inl hloop
    · obtain ⟨p, t, rfl⟩ :=
        List.exists_cons_of_length_pos (by have := hpath.two_le; omega : 0 < l.length)
      have hlast : (p :: t).getLast? = some ((p :: t).getLast (by simp)) :=
        List.getLast?_eq_some_getLast _
      refine .inr ⟨p, _, rfl, hlast, ?_, ?_⟩
      · exact hborder _ hl p (by simp) (by rw [hdeg p (by simp), if_pos (.inl rfl)])
      · refine hborder _ hl _ (List.getLast_mem _) ?_
        rw [hdeg _ (List.getLast_mem _), if_pos (.inr hlast)]
  · intro e he
    rw [count_flatMap_vertices fun l hl => (h.shape l hl).symm.imp And.left And.left]
    refine h.covers _ ?_
    rw [degree_crossing hg hd he, count_cellSides hc hr he.1]
    split <;> omega
  · intro l hl p hp
    obtain ⟨e, he, rfl⟩ := hpoint l hl p hp
    exact ⟨e, ⟨he, rfl⟩, fun e' he' => crossing_injective hd he'.1 he he'.2⟩

end SampledRaster

/-! ## Traces without splits -/

section Passes

variable {α β : Type} [Coordinate α] [Reading β α]

/-- Whether refining a cell splits nothing: there are no levels to split, or it is no saddle. -/
def Cell.Unsplit (deep : Nat) (c : Cell α β) : Prop :=
  deep = 0 ∨ (Cell.connections? c.code).isSome = true

/-- A cell that is not split has the segments that its corners and its middle tell. -/
theorem visit_unsplit {f : PlaneFunction α β} {shallow deep : Nat} (hle : shallow ≤ deep)
    {t : CellTree α β} (h : t.cell.Unsplit deep) (hempty : t.cell.isEmpty = true →
      t.cell.segments (t.cell.pairs (t.cell.isCenterPositive f)) = []) :
    (visit f (shallow < deep) shallow t).segments =
        t.cell.segments (t.cell.pairs (t.cell.isCenterPositive f)) ∧
      (visit f (shallow < deep) shallow t).pending = [] := by
  obtain ⟨c, quarters⟩ := t
  rw [visit]
  split
  · rename_i he
    exact ⟨(hempty he).symm, rfl⟩
  · rcases h with rfl | hsome
    · obtain rfl : shallow = 0 := by omega
      cases hc : Cell.connections? c.code with
      | none => simp [refine, hc, Cell.pairs, CellTree.cell, saddleSegments]
      | some pairs => simp [refine, hc, Cell.pairs, CellTree.cell]
    · obtain ⟨pairs, hc⟩ := Option.isSome_iff_exists.mp hsome
      simp only [CellTree.cell] at hc
      cases shallow <;> simp [refine, hc, Cell.pairs, CellTree.cell]

/-- The raster of a request, with the samples of its function. -/
def TraceRequest.raster (r : TraceRequest α β) (columns rows : Nat) : SampledRaster α β :=
  ⟨r.domain, columns, rows, (r.function.sample (r.domain.corners columns rows)).toArray⟩

theorem cells_eq (r : TraceRequest α β) (columns rows : Nat) :
    r.domain.cells columns rows r.function = (List.range rows).flatMap fun j =>
      (List.range columns).map fun i => (r.raster columns rows).cell i j := rfl

theorem mem_cells {r : TraceRequest α β} {columns rows : Nat} {c : Cell α β} :
    c ∈ r.domain.cells columns rows r.function ↔
      ∃ i < columns, ∃ j < rows, (r.raster columns rows).cell i j = c := by
  rw [cells_eq]
  simp only [List.mem_flatMap, List.mem_map, List.mem_range]
  constructor
  · rintro ⟨j, hj, i, hi, heq⟩
    exact ⟨i, hi, j, hj, heq⟩
  · rintro ⟨i, hi, j, hj, heq⟩
    exact ⟨j, hj, i, hi, heq⟩

/-- A first pass that puts nothing off collects what is in the cells, whatever was kept of them. -/
theorem firstPass_eq {f : PlaneFunction α β} {shallow deep : Nat} {cells : List (Cell α β)}
    (found : Cell α β → List (Point α × Point α))
    (h : ∀ t : CellTree α β, t.cell ∈ cells →
      (visit f (shallow < deep) shallow t).segments = found t.cell ∧
        (visit f (shallow < deep) shallow t).pending = [])
    (old : List (CellTree α β)) :
    (firstPass f shallow deep old cells).segments = cells.flatMap found ∧
      (firstPass f shallow deep old cells).pending = [] := by
  have hmap : (CellTree.placeAll old cells).map CellTree.cell = cells :=
    CellTree.map_cell_placeAll old cells
  have hcell : ∀ t ∈ CellTree.placeAll old cells, t.cell ∈ cells := by
    intro t ht
    rw [← hmap]
    exact List.mem_map_of_mem ht
  constructor
  · rw [firstPass]
    dsimp only
    conv_rhs => rw [← hmap]
    rw [List.flatMap_map, List.flatMap_map]
    exact List.flatMap_congr fun t ht => (h t (hcell t ht)).1
  · rw [firstPass]
    refine List.flatMap_eq_nil_iff.mpr ?_
    rintro ⟨part, k⟩ hpart
    obtain ⟨t, ht, rfl⟩ := List.mem_map.mp (List.fst_mem_of_mem_zipIdx hpart)
    simp [(h t (hcell t ht)).2]

/-- If no cell is split, the passes find the segments that each cell tells by itself. -/
theorem segments_passes {t : Tracer α β} (r : TraceRequest α β) {columns rows : Nat}
    (hle : t.options.shallowDepth.toNat ≤ t.options.maxDepth.toNat)
    (hunsplit : ∀ i < columns, ∀ j < rows,
      ((r.raster columns rows).cell i j).Unsplit t.options.maxDepth.toNat)
    (hempty : ∀ i < columns, ∀ j < rows, ((r.raster columns rows).cell i j).isEmpty = true →
      ∀ positive, ((r.raster columns rows).cell i j).pairs positive = []) :
    (t.passes r columns rows).segments = (r.raster columns rows).segments fun i j =>
      ((r.raster columns rows).cell i j).isCenterPositive r.function := by
  have hvisit : ∀ tree : CellTree α β, tree.cell ∈ r.domain.cells columns rows r.function →
      (visit r.function (t.options.shallowDepth.toNat < t.options.maxDepth.toNat)
        t.options.shallowDepth.toNat tree).segments =
          tree.cell.segments (tree.cell.pairs (tree.cell.isCenterPositive r.function)) ∧
      (visit r.function (t.options.shallowDepth.toNat < t.options.maxDepth.toNat)
        t.options.shallowDepth.toNat tree).pending = [] := by
    intro tree htree
    obtain ⟨i, hi, j, hj, hcell⟩ := mem_cells.mp htree
    refine visit_unsplit hle (hcell ▸ hunsplit i hi j hj) fun he => ?_
    rw [← hcell] at he ⊢
    rw [hempty i hi j hj he]
    rfl
  obtain ⟨hsegments, hpending⟩ := firstPass_eq
    (fun c => c.segments (c.pairs (c.isCenterPositive r.function))) hvisit
    (t.rasterFor columns rows).cells.toList
  rw [Tracer.passes, secondPass, hpending, List.foldl_nil, hsegments, cells_eq,
    SampledRaster.segments, List.flatMap_assoc]
  exact List.flatMap_congr fun j _ => List.flatMap_map ..

end Passes

/-! ## Traces -/

variable [IsStrictOrderedRing K]

omit [IsStrictOrderedRing K] in
theorem SampledRaster.pairs_eq_nil_of_isEmpty {g : SampledRaster K (Option K)} (hg : g.Definite)
    {i j : Nat} (hi : i < g.columns) (hj : j < g.rows) (he : (g.cell i j).isEmpty = true)
    (positive : Bool) : (g.cell i j).pairs positive = [] := by
  have hcorners : ∀ v ∈ (g.cell i j).corners, ∃ a, v = some a ∧ a ≠ 0 := by
    intro v hv
    simp only [Cell.corners, List.mem_cons, List.not_mem_nil, or_false] at hv
    rcases hv with rfl | rfl | rfl | rfl
    · exact hg i hi.le (j + 1) hj
    · exact hg (i + 1) hi (j + 1) hj
    · exact hg (i + 1) hi j hj.le
    · exact hg i hi.le j hj.le
  refine Cell.pairs_eq_nil ((Cell.isEmpty_iff ?_ ?_ ?_).mp he) positive
  · intro v hv
    obtain ⟨a, rfl, -⟩ := hcorners v hv
    rfl
  · intro v hv
    obtain ⟨a, rfl, ha⟩ := hcorners v hv
    simp [Reading.isZero, ha]
  · intro v hv
    obtain ⟨a, rfl, ha⟩ := hcorners v hv
    rcases lt_or_gt_of_ne ha with h | h <;>
      simp [Reading.isNegative, Reading.isPositive, h, not_lt_of_gt]

/-- Options that a tracer can be built with. -/
structure TracerOptions.Valid {α : Type} (o : TracerOptions α) : Prop where
  shallow_nonneg : 0 ≤ o.shallowDepth
  shallow_le : o.shallowDepth ≤ o.maxDepth
  pixels_pos : 1 ≤ o.pixelsPerCell
  grid_pos : 1 ≤ o.fastGrid

theorem Tracer.valid_iff {α β : Type} {o : TracerOptions α} :
    o.Valid ↔ ∃ t : Tracer α β, Tracer.ofOptions? o = .ok t := by
  unfold Tracer.ofOptions?
  constructor
  · rintro ⟨h1, h2, h3, h4⟩
    rw [if_neg (by simp [h1, h2]), if_neg (by simp; omega)]
    exact ⟨_, rfl⟩
  · rintro ⟨t, ht⟩
    split at ht
    · cases ht
    · rename_i hdepths
      split at ht
      · cases ht
      · rename_i hsizes
        simp at hdepths hsizes
        exact ⟨hdepths.1, hdepths.2, by omega, by omega⟩

/-- The raster of a tracer has columns and rows. -/
theorem Tracer.gridShape_pos {α β : Type} {t : Tracer α β} (hopt : t.options.Valid)
    {resolution : Int × Int} {fast : Bool} {columns rows : Nat}
    (h : t.gridShape resolution fast = .ok (columns, rows)) : 0 < columns ∧ 0 < rows := by
  have hgrid := hopt.grid_pos
  unfold Tracer.gridShape at h
  split at h
  · cases h
    omega
  · split at h
    · cases h
    · cases h
      exact ⟨Nat.le_max_left _ _, Nat.le_max_left _ _⟩

theorem Cell.isSome_connections? {α β : Type} [Reading β α] {c : Cell α β}
    (h5 : c.code ≠ 5) (h10 : c.code ≠ 10) : (Cell.connections? c.code).isSome = true := by
  have := c.code_lt
  unfold Cell.connections?
  split <;> simp_all

/-- What a trace gives once its segments are stitched. -/
theorem Tracer.trace_eq {α β : Type} [Coordinate α] [Reading β α] {t : Tracer α β}
    {r : TraceRequest α β} (hidle : t.isBusy = false) (hdomain : r.domain.isProper = true)
    {columns rows : Nat} (hshape : t.gridShape r.resolution r.fast = .ok (columns, rows))
    {store : ChainStore α}
    (hstore : (ChainStore.empty t.options.tolerance t.options.maxOpenChains).addAll
      (t.passes r columns rows).segments = .ok store) :
    (t.trace r none).1 = .ok store.finish.output.toList ∧
      ∀ consumer lines, (t.trace r consumer).1 = .ok lines → lines = store.finish.output.toList := by
  unfold trace
  rw [hidle, hdomain, hshape]
  simp only [Bool.not_true, Bool.false_eq_true, if_false, hstore, true_and]
  intro consumer lines h
  cases consumer with
  | none =>
    cases h
    rfl
  | some consume =>
    dsimp only at h
    split at h <;> cases h
    rfl

/-- Traced contours have no gaps.  If no cell is split, all samples are definite, different crossings
are further apart than the tolerance and no chain is put out early, then a trace gives polylines that
are closed or end on the boundary of the domain, and each crossed edge of the raster gives one vertex
of one of them. -/
theorem trace_watertight {t : Tracer K (Option K)} {r : TraceRequest K (Option K)}
    (hopt : t.options.Valid) (htol : 0 < t.options.tolerance) (hidle : t.isBusy = false)
    (hx : r.domain.xmin < r.domain.xmax) (hy : r.domain.ymin < r.domain.ymax) {columns rows : Nat}
    (hshape : t.gridShape r.resolution r.fast = .ok (columns, rows))
    (hdefinite : (r.raster columns rows).Definite)
    (hunsplit : t.options.maxDepth = 0 ∨ ∀ i < columns, ∀ j < rows,
      ((r.raster columns rows).cell i j).code ≠ 5 ∧ ((r.raster columns rows).cell i j).code ≠ 10)
    (hapart : (r.raster columns rows).CrossingsApart t.options.tolerance) :
    ∃ store, (ChainStore.empty t.options.tolerance t.options.maxOpenChains).addAll
        (t.passes r columns rows).segments = .ok store ∧
      (store.flushes = 0 → ∃ lines, (t.trace r none).1 = .ok lines ∧
        (∀ consumer lines', (t.trace r consumer).1 = .ok lines' → lines' = lines) ∧
        Watertight (r.raster columns rows) lines) := by
  obtain ⟨hc, hr⟩ := Tracer.gridShape_pos hopt hshape
  have hdomain : r.domain.isProper = true := isProper_iff.mpr ⟨hx, hy⟩
  have hle : t.options.shallowDepth.toNat ≤ t.options.maxDepth.toNat := by
    have := hopt.shallow_le
    omega
  have hcells : ∀ i < columns, ∀ j < rows,
      ((r.raster columns rows).cell i j).Unsplit t.options.maxDepth.toNat := by
    intro i hi j hj
    rcases hunsplit with hzero | hcodes
    · exact .inl (by rw [hzero]; rfl)
    · obtain ⟨h5, h10⟩ := hcodes i hi j hj
      exact .inr (Cell.isSome_connections? h5 h10)
  have hsegments := segments_passes r hle hcells fun i hi j hj he positive =>
    SampledRaster.pairs_eq_nil_of_isEmpty hdefinite hi hj he positive
  obtain ⟨store, hstore⟩ := ChainStore.exists_addAll
    (ChainStore.empty t.options.tolerance t.options.maxOpenChains) (t.passes r columns rows).segments
  refine ⟨store, hstore, fun hflush => ?_⟩
  -- what is returned is what the finished store puts out
  obtain ⟨htrace, hsame⟩ := Tracer.trace_eq hidle hdomain hshape hstore
  refine ⟨_, htrace, hsame, ?_⟩
  -- crossings that lie apart make segments whose ends are near only if they are equal
  have hsep : Separated t.options.tolerance (undirected (t.passes r columns rows).segments) := by
    rw [hsegments]
    exact SampledRaster.separated_segments hdefinite hdomain hc hr hapart
  rw [hsegments] at hstore hsep
  exact SampledRaster.watertight_of_traversal hdefinite hdomain hc hr
    (ChainStore.traversal_of_addAll htol hsep hstore hflush)

/-- A circle around the middle corner of a raster of four cells. There is one segment of it in each
cell, and nothing is left of these but loops. -/
theorem trace_watertight_circle :
    let t : Tracer ℚ (Option ℚ) := ⟨{ tolerance := 1 / 100, fastGrid := 2 }, ⟨0, 0, #[]⟩, false⟩
    let r : TraceRequest ℚ (Option ℚ) :=
      { function := .ofTotal fun p => some (p.x * p.x + p.y * p.y - 1 / 4)
        domain := ⟨-1, 1, -1, 1⟩
        fast := true }
    (t.passes r 2 2).segments.length = 4 ∧
      ∃ lines, (t.trace r none).1 = .ok lines ∧ Watertight (r.raster 2 2) lines ∧ lines ≠ [] ∧
        ∀ l ∈ lines, IsLoop l := by
  intro t r
  have hdefinite : (r.raster 2 2).Definite := by
    have hvalue : ∀ i ≤ 2, ∀ j ≤ 2, ((r.raster 2 2).value (i, j)).any (· ≠ 0) = true := by
      decide +kernel
    intro i hi j hj
    obtain ⟨v, hv, hne⟩ := (Option.any_eq_true _ _).mp (hvalue i hi j hj)
    exact ⟨v, hv, of_decide_eq_true hne⟩
  -- the circle runs through the four edges at the middle corner
  let points : List (Point ℚ) := [⟨0, 1 / 4⟩, ⟨-1 / 4, 0⟩, ⟨0, -1 / 4⟩, ⟨1 / 4, 0⟩]
  have hcrossing : ∀ e, (r.raster 2 2).IsCrossed e → (r.raster 2 2).crossing e ∈ points := by
    have hacross : ∀ i < 2, ∀ j ≤ 2, (r.raster 2 2).changesSign (.across i j) = true →
        (r.raster 2 2).crossing (.across i j) ∈ points := by decide +kernel
    have hup : ∀ i ≤ 2, ∀ j < 2, (r.raster 2 2).changesSign (.up i j) = true →
        (r.raster 2 2).crossing (.up i j) ∈ points := by decide +kernel
    intro e he
    have hsign := (SampledRaster.isCrossed_iff hdefinite he.1).mp he
    cases e with
    | across i j => exact hacross i he.1.1 j he.1.2 hsign
    | up i j => exact hup i he.1.1 j he.1.2 hsign
  have hapart : (r.raster 2 2).CrossingsApart (1 / 100) := by
    have hpoints : ∀ p ∈ points, ∀ q ∈ points, p ≠ q →
        1 / 100 < |p.x - q.x| ∨ 1 / 100 < |p.y - q.y| := by decide +kernel
    exact fun e e' he he' hne => hpoints _ (hcrossing e he) _ (hcrossing e' he') hne
  have hshape : t.gridShape r.resolution r.fast = .ok (2, 2) := rfl
  obtain ⟨store, hstore, h⟩ := trace_watertight ⟨by decide, by decide, by decide, by decide⟩
    (by decide +kernel) rfl (by decide +kernel) (by decide +kernel) hshape hdefinite
    (.inr (by decide +kernel)) hapart
  have hlength : (t.passes r 2 2).segments.length = 4 := by decide +kernel
  obtain ⟨lines, hlines, -, hwatertight⟩ :=
    h (ChainStore.flushes_of_length_le hstore (by rw [hlength]; decide))
  refine ⟨hlength, lines, hlines, hwatertight, ?_, fun l hl => ?_⟩
  · rintro rfl
    have hin : (RasterEdge.across 0 1).InRaster 2 2 := ⟨by decide, by decide⟩
    have hcrossed : (r.raster 2 2).IsCrossed (.across 0 1) :=
      (SampledRaster.isCrossed_iff hdefinite hin).mpr (by decide +kernel)
    exact absurd (hwatertight.once _ hcrossed) (by decide)
  · -- no crossing is on the boundary, so no line ends
    refine (hwatertight.closed_or_boundary l hl).resolve_right ?_
    rintro ⟨p, -, hp, -, hboundary, -⟩
    obtain ⟨e, ⟨he, rfl⟩, -⟩ := hwatertight.crossing l hl p (List.mem_of_head? hp)
    have hinner : ∀ p ∈ points, ¬r.domain.OnBoundary p := by
      unfold Domain.OnBoundary
      decide +kernel
    exact hinner _ (hcrossing e he) hboundary

end Graphing.Contour
