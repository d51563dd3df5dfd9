/-
  Graphing.Proofs.Contour.Findings

  What the two passes of a trace find.

  A tracer keeps its cells with their quarters, and puts saddles off by the
  path that leads to them.  What is found does not depend on what is kept: it
  is told by the cells alone, split as often as the levels allow
  (`Cell.found`, `Cell.deferred`).  Every quarter is placed anew before it is
  read, and splitting one saddle keeps the cells at the paths to the others.
-/
import Graphing.Contour.Tracer
import Mathlib.Data.List.Basic

namespace Graphing.Contour

variable {α β : Type}

/-! ## Cells by themselves -/

namespace Cell

variable [Coordinate α] [Reading β α]

/-- The cells that a contour may cross. -/
def occupied (cells : List (Cell α β)) : List (Cell α β) := cells.filter fun c => !c.isEmpty

/-- The segments in a cell, with at most `levels` splits of a quarter below it. Saddles on the last
level are left out if they are put off. -/
def found (f : PlaneFunction α β) (defers : Bool) :
    (levels : Nat) → Cell α β → List (Point α × Point α)
  | levels, c =>
    match connections? c.code with
    | some pairs => c.segments pairs
    | none =>
      match levels with
      | 0 => if defers then [] else saddleSegments f c
      | levels + 1 => (occupied (c.split f)).flatMap (found f defers levels)

/-- The saddles in a cell that are put off. -/
def deferred (f : PlaneFunction α β) (defers : Bool) : (levels : Nat) → Cell α β → List (Cell α β)
  | levels, c =>
    match connections? c.code with
    | some _ => []
    | none =>
      match levels with
      | 0 => if defers then [c] else []
      | levels + 1 => (occupied (c.split f)).flatMap (deferred f defers levels)

end Cell

/-! ## Cells with their quarters -/

namespace CellTree

/-- Replacing the cell at the end of a path keeps the cells at all other paths of its length. -/
theorem get?_set (new t : CellTree α β) {path other : List Nat} (hlength : path.length = other.length)
    (ht : (t.get? path).isSome = true) :
    (set new t path).get? other = if path = other then some new else t.get? other := by
  induction path generalizing t other with
  | nil =>
    obtain rfl : other = [] := List.length_eq_zero_iff.mp hlength.symm
    rw [set, get?, if_pos rfl]
  | cons k path ih =>
    obtain ⟨c, qs⟩ := t
    obtain ⟨l, other, rfl⟩ := List.exists_cons_of_length_eq_add_one hlength.symm
    rw [get?] at ht
    cases hk : qs[k]? with
    | none =>
      rw [hk] at ht
      cases ht
    | some q =>
      rw [hk, Option.bind_some] at ht
      have hlt : k < qs.length := (List.getElem?_eq_some_iff.mp hk).1
      have hstep := ih q (Nat.succ.inj hlength) ht
      rw [set, hk]
      dsimp only
      rw [get?, get?, List.getElem?_set]
      by_cases hkl : k = l
      · subst hkl
        rw [if_pos rfl, if_pos hlt, Option.bind_some, hstep, hk, Option.bind_some]
        simp
      · rw [if_neg hkl, if_neg (by simp [hkl])]

end CellTree

/-! ## Refinement -/

variable [Coordinate α] [Reading β α]

/-- What refining a cell with some levels gives: the cell itself on top, the given segments, and
paths of the given length to the given saddles. -/
structure Refined.Yields (r : Refined α β) (c : Cell α β) (levels : Nat)
    (found : List (Point α × Point α)) (deferred : List (Cell α β)) : Prop where
  cell : r.tree.cell = c
  segments : r.segments = found
  length : ∀ path ∈ r.pending, path.length = levels
  pending : r.pending.map (fun path => (r.tree.get? path).map CellTree.cell) = deferred.map some

/-- Parts that are read together with their numbers, where the number tells nothing more. -/
theorem flatMap_zipIdx_congr {γ δ : Type} {parts : List γ} {read : γ × Nat → List δ}
    {view : γ → List δ} (h : ∀ k r, parts[k]? = some r → read (r, k) = view r) :
    parts.zipIdx.flatMap read = parts.flatMap view := by
  calc parts.zipIdx.flatMap read
      = parts.zipIdx.flatMap fun e => view e.1 :=
        List.flatMap_congr fun e he => h e.2 e.1 (List.mk_mem_zipIdx_iff_getElem?.mp he)
    _ = (parts.zipIdx.map Prod.fst).flatMap view := by rw [List.flatMap_map]
    _ = parts.flatMap view := by rw [List.zipIdx_map_fst]

/-- Cells that are visited one after another yield what the occupied ones yield. -/
theorem flatMap_visit {γ : Type} {f : PlaneFunction α β} {defers : Bool} {levels : Nat}
    {view : Refined α β → List γ} {yield : Cell α β → List γ}
    (hempty : ∀ t : CellTree α β, view { tree := t } = [])
    (hrefine : ∀ t : CellTree α β, view (refine f defers levels t) = yield t.cell)
    (ts : List (CellTree α β)) :
    (ts.map (visit f defers levels)).flatMap view =
      (Cell.occupied (ts.map CellTree.cell)).flatMap yield := by
  induction ts with
  | nil => rfl
  | cons t ts ih =>
    rw [List.map_cons, List.flatMap_cons, ih, List.map_cons, visit]
    by_cases ht : t.cell.isEmpty = true
    · rw [if_pos ht, hempty, Cell.occupied, Cell.occupied, List.filter_cons_of_neg (by simp [ht])]
      rfl
    · rw [if_neg ht, hrefine, Cell.occupied, Cell.occupied, List.filter_cons_of_pos (by simpa using ht),
        List.flatMap_cons]

theorem length_of_mem_visit {f : PlaneFunction α β} {defers : Bool} {levels : Nat}
    (h : ∀ t : CellTree α β, ∀ path ∈ (refine f defers levels t).pending, path.length = levels)
    {t : CellTree α β} {path : List Nat} (hpath : path ∈ (visit f defers levels t).pending) :
    path.length = levels := by
  rw [visit] at hpath
  split at hpath
  · cases hpath
  · exact h t path hpath

/-- Refining a cell finds what is in the cell, whatever quarters were kept under it. -/
theorem refine_yields (f : PlaneFunction α β) (defers : Bool) (levels : Nat) (t : CellTree α β) :
    (refine f defers levels t).Yields t.cell levels (t.cell.found f defers levels)
      (t.cell.deferred f defers levels) := by
  induction levels generalizing t with
  | zero =>
    obtain ⟨c, quarters⟩ := t
    rw [refine, Cell.found, Cell.deferred, CellTree.cell]
    cases Cell.connections? c.code with
    | some pairs => exact ⟨rfl, rfl, by simp, rfl⟩
    | none =>
      cases defers with
      | true => exact ⟨rfl, rfl, by simp, rfl⟩
      | false => exact ⟨rfl, rfl, by simp, rfl⟩
  | succ levels ih =>
    obtain ⟨c, quarters⟩ := t
    rw [refine, Cell.found, Cell.deferred, CellTree.cell]
    cases Cell.connections? c.code with
    | some pairs => exact ⟨rfl, rfl, by simp, rfl⟩
    | none =>
      show (Refined.gather c ((CellTree.placeAll quarters (c.split f)).map
        (visit f defers levels))).Yields _ _ _ _
      -- of the quarters only their cells count: what was kept under them is visited anew
      have hcells := CellTree.map_cell_placeAll quarters (c.split f)
      generalize CellTree.placeAll quarters (c.split f) = ts at hcells ⊢
      dsimp only
      rw [← hcells]
      refine ⟨rfl, ?_, ?_, ?_⟩
      · exact flatMap_visit (fun _ => rfl) (fun t => (ih t).segments) ts
      · intro path hpath
        obtain ⟨⟨r, k⟩, hr, hmem⟩ := List.mem_flatMap.mp hpath
        obtain ⟨rest, hrest, rfl⟩ := List.mem_map.mp hmem
        obtain ⟨t, -, rfl⟩ := List.mem_map.mp (List.fst_mem_of_mem_zipIdx hr)
        rw [List.length_cons, length_of_mem_visit (fun t => (ih t).length) hrest]
      · -- a path to a saddle begins with the place of the quarter that it was found in
        rw [Refined.gather, List.map_flatMap, List.map_flatMap]
        dsimp only
        simp only [List.map_map]
        have hvisit : ((ts.map (visit f defers levels)).flatMap fun r =>
            r.pending.map fun path => (r.tree.get? path).map CellTree.cell) =
            (Cell.occupied (ts.map CellTree.cell)).flatMap fun c =>
              (c.deferred f defers levels).map some :=
          flatMap_visit (fun _ => rfl) (fun t => (ih t).pending) ts
        refine (flatMap_zipIdx_congr fun k r hk => List.map_congr_left fun path _ => ?_).trans hvisit
        obtain ⟨t, ht, rfl⟩ := Option.map_eq_some_iff.mp (List.getElem?_map.symm.trans hk)
        rw [Function.comp_apply, CellTree.get?, List.getElem?_map, ht]
        rfl

/-! ## The two passes -/

/-- The cell at a place of the raster. -/
def Passes.cellAt (p : Passes α β) (place : Nat × List Nat) : Option (Cell α β) :=
  ((p.cells[place.1]?).bind (·.get? place.2)).map CellTree.cell

/-- The first pass finds what is in the cells, and puts off saddles by paths of one length. -/
theorem firstPass_found (f : PlaneFunction α β) (shallow deep : Nat) (old : List (CellTree α β))
    (cells : List (Cell α β)) :
    let p := firstPass f shallow deep old cells
    p.segments = (Cell.occupied cells).flatMap (Cell.found f (shallow < deep) shallow) ∧
      (∀ place ∈ p.pending, place.2.length = shallow) ∧
      p.pending.map p.cellAt =
        ((Cell.occupied cells).flatMap (Cell.deferred f (shallow < deep) shallow)).map some := by
  intro p
  have hcells := CellTree.map_cell_placeAll old cells
  have hp : p = firstPass f shallow deep old cells := rfl
  rw [firstPass] at hp
  generalize CellTree.placeAll old cells = ts at hcells hp
  rw [← hcells, hp]
  refine ⟨?_, ?_, ?_⟩
  · exact flatMap_visit (fun _ => rfl) (fun t => (refine_yields f _ shallow t).segments) ts
  · intro place hplace
    obtain ⟨⟨r, k⟩, hr, hmem⟩ := List.mem_flatMap.mp hplace
    obtain ⟨path, hpath, rfl⟩ := List.mem_map.mp hmem
    obtain ⟨t, -, rfl⟩ := List.mem_map.mp (List.fst_mem_of_mem_zipIdx hr)
    exact length_of_mem_visit (fun t => (refine_yields f _ shallow t).length) hpath
  · rw [List.map_flatMap, List.map_flatMap]
    simp only [List.map_map]
    have hvisit : ((ts.map (visit f (shallow < deep) shallow)).flatMap fun r =>
        r.pending.map fun path => (r.tree.get? path).map CellTree.cell) =
        (Cell.occupied (ts.map CellTree.cell)).flatMap fun c =>
          (c.deferred f (shallow < deep) shallow).map some :=
      flatMap_visit (fun _ => rfl) (fun t => (refine_yields f _ shallow t).pending) ts
    refine (flatMap_zipIdx_congr fun k r hk => List.map_congr_left fun path _ => ?_).trans hvisit
    obtain ⟨t, ht, rfl⟩ := Option.map_eq_some_iff.mp (List.getElem?_map.symm.trans hk)
    rw [Function.comp_apply, Passes.cellAt, List.getElem?_toArray, List.getElem?_map, ht]
    rfl

/-- Splitting a saddle further finds what is in it, and keeps the cells at the places of others. -/
theorem resolve_found (f : PlaneFunction α β) (levels : Nat) {p : Passes α β}
    {place : Nat × List Nat} {c : Cell α β} (h : p.cellAt place = some c) :
    (resolve f levels p place).segments = p.segments ++ c.found f false levels ∧
      ∀ other : Nat × List Nat, other.2.length = place.2.length →
        (resolve f levels p place).cellAt other = p.cellAt other := by
  obtain ⟨k, path⟩ := place
  rw [Passes.cellAt] at h
  dsimp only at h
  obtain ⟨t, ht, rfl⟩ := Option.map_eq_some_iff.mp h
  obtain ⟨top, htop, hget⟩ := Option.bind_eq_some_iff.mp ht
  have hyields := refine_yields f false levels t
  rw [resolve]
  dsimp only
  rw [htop]
  dsimp only
  rw [hget]
  refine ⟨congrArg (p.segments ++ ·) hyields.segments, ?_⟩
  rintro ⟨l, other⟩ hlength
  have hlt : k < p.cells.size := (Array.getElem?_eq_some_iff.mp htop).1
  rw [Passes.cellAt, Passes.cellAt]
  dsimp only at hlength ⊢
  -- one tree is replaced, by one that has the same cells at all other places of this depth
  rw [Array.getElem?_setIfInBounds]
  by_cases hkl : k = l
  · subst hkl
    rw [if_pos rfl, if_pos hlt, htop, Option.bind_some, Option.bind_some,
      CellTree.get?_set _ _ hlength.symm (by rw [hget]; rfl)]
    split
    · rename_i heq
      rw [← heq, hget]
      exact congrArg some hyields.cell
    · rfl
  · rw [if_neg hkl]

/-- The second pass finds what is in the saddles that were put off. -/
theorem foldl_resolve_found {f : PlaneFunction α β} {levels depth : Nat}
    (places : List (Nat × List Nat)) {p : Passes α β} {cells : List (Cell α β)}
    (hlength : ∀ place ∈ places, place.2.length = depth)
    (hcells : places.map p.cellAt = cells.map some) :
    (places.foldl (resolve f levels) p).segments =
      p.segments ++ cells.flatMap (Cell.found f false levels) := by
  induction places generalizing p cells with
  | nil =>
    obtain rfl : cells = [] := by simpa using hcells.symm
    rw [List.foldl_nil, List.flatMap_nil, List.append_nil]
  | cons place places ih =>
    obtain ⟨c, cells, rfl⟩ : ∃ c cs, cells = c :: cs :=
      List.exists_cons_of_length_pos (by
        have := congrArg List.length hcells
        simp only [List.length_map, List.length_cons] at this
        omega)
    rw [List.map_cons, List.map_cons, List.cons.injEq] at hcells
    obtain ⟨hsegments, hothers⟩ := resolve_found f levels hcells.1
    have hdepth := hlength place List.mem_cons_self
    have hrest : places.map (resolve f levels p place).cellAt = cells.map some := by
      rw [← hcells.2]
      refine List.map_congr_left fun other hother => hothers other ?_
      rw [hdepth, hlength other (List.mem_cons_of_mem place hother)]
    rw [List.foldl_cons, ih (fun q hq => hlength q (List.mem_cons_of_mem place hq)) hrest, hsegments,
      List.flatMap_cons, List.append_assoc]

/-! ## Traces -/

/-- The segments of a request in a raster of the given size: those of all cells up to the shallow
depth, and then those of the saddles that are left there. -/
def TraceRequest.found (r : TraceRequest α β) (o : TracerOptions α) (columns rows : Nat) :
    List (Point α × Point α) :=
  let shallow := o.shallowDepth.toNat
  let deep := o.maxDepth.toNat
  let cells := Cell.occupied (r.domain.cells columns rows r.function)
  cells.flatMap (Cell.found r.function (shallow < deep) shallow) ++
    (cells.flatMap (Cell.deferred r.function (shallow < deep) shallow)).flatMap
      (Cell.found r.function false (deep - shallow))

/-- What the passes find depends on the options of the tracer, but not on its cells. -/
theorem Tracer.passes_found (t : Tracer α β) (r : TraceRequest α β) (columns rows : Nat) :
    (t.passes r columns rows).segments = r.found t.options columns rows := by
  obtain ⟨hfirst, hlength, hpending⟩ := firstPass_found r.function t.options.shallowDepth.toNat
    t.options.maxDepth.toNat (t.rasterFor columns rows).cells.toList
    (r.domain.cells columns rows r.function)
  rw [passes, secondPass, foldl_resolve_found _ hlength hpending, hfirst]
  rfl

end Graphing.Contour
