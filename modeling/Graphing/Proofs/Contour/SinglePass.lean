/-
  Graphing.Proofs.Contour.SinglePass

  Two passes find what one deep pass finds.

  Whatever a refinement takes from the cells that it comes to (`Cell.gather`),
  it takes the same if it stops at a level, puts the saddles there off, and
  goes on with each of them later: the cells are the same up to their order.
  The segments are one thing to take, the cells that emit them another, the
  sampled points a third.

  The saddles that are put off lie at different places, so the second pass
  comes to each of them once, and finds the cell there as the first pass left
  it.
-/
import Graphing.Proofs.Contour.Findings
import Graphing.Proofs.Contour.RasterEdges
import Mathlib.Data.Rat.Floor
import Mathlib.Data.List.Perm.Basic

namespace Graphing.Contour

variable {α β γ δ : Type} [Coordinate α] [Reading β α]

/-! ## What a refinement comes to -/

namespace Cell

omit [Coordinate α] in
/-- Induction along a refinement: the cells that are no saddles, the saddles on the last level, and
the saddles that are split, where the quarters have one level less below them. -/
@[elab_as_elim]
theorem refinement_induction {motive : Nat → Cell α β → Prop}
    (plain : ∀ levels c pairs, connections? c.code = some pairs → motive levels c)
    (last : ∀ c, connections? c.code = none → motive 0 c)
    (divided : ∀ levels c, connections? c.code = none → (∀ q, motive levels q) →
      motive (levels + 1) c) (levels : Nat) (c : Cell α β) : motive levels c := by
  induction levels generalizing c with
  | zero =>
    cases h : connections? c.code with
    | some pairs => exact plain 0 c pairs h
    | none => exact last c h
  | succ levels ih =>
    cases h : connections? c.code with
    | some pairs => exact plain (levels + 1) c pairs h
    | none => exact divided levels c h ih

/-- What a refinement takes from the cells that it comes to: from those that are no saddles, from
the saddles on the last level unless they are put off, and from the saddles that are split, before
it goes on with their quarters. -/
def gather (plain last divided : Cell α β → List γ) (f : PlaneFunction α β) (defers : Bool) :
    (levels : Nat) → Cell α β → List γ
  | levels, c =>
    match connections? c.code with
    | some _ => plain c
    | none =>
      match levels with
      | 0 => if defers then [] else last c
      | levels + 1 =>
        divided c ++ (occupied (c.split f)).flatMap (gather plain last divided f defers levels)

section

variable {plain last divided : Cell α β → List γ} {f : PlaneFunction α β} {defers : Bool}
  {levels : Nat} {c : Cell α β}

theorem gather_of_connections? {pairs : List (Edge × Edge)} (h : connections? c.code = some pairs) :
    c.gather plain last divided f defers levels = plain c := by
  cases levels <;> rw [gather, h]

theorem gather_zero (h : connections? c.code = none) :
    c.gather plain last divided f defers 0 = if defers then [] else last c := by
  rw [gather, h]

theorem gather_succ (h : connections? c.code = none) :
    c.gather plain last divided f defers (levels + 1) =
      divided c ++ (occupied (c.split f)).flatMap (gather plain last divided f defers levels) := by
  rw [gather, h]

theorem deferred_of_connections? {pairs : List (Edge × Edge)}
    (h : connections? c.code = some pairs) : c.deferred f defers levels = [] := by
  cases levels <;> rw [deferred, h]

theorem deferred_zero (h : connections? c.code = none) :
    c.deferred f defers 0 = if defers then [c] else [] := by
  rw [deferred, h]

theorem deferred_succ (h : connections? c.code = none) :
    c.deferred f defers (levels + 1) =
      (occupied (c.split f)).flatMap (deferred f defers levels) := by
  rw [deferred, h]

end

/-- If nothing is put off on the shallow level, no levels are left below it. -/
theorem rest_eq_zero (shallow deep : Nat) (h : decide (shallow < deep) = false) :
    deep - shallow = 0 := by
  have hle := of_decide_eq_false h
  omega

/-- Going on with the saddles that were put off takes what is taken without a stop. -/
theorem gather_append_deferred (plain last divided : Cell α β → List γ) (f : PlaneFunction α β)
    {defers : Bool} (levels : Nat) {rest : Nat} (hrest : defers = false → rest = 0) (c : Cell α β) :
    (c.gather plain last divided f defers levels ++
      (c.deferred f defers levels).flatMap (gather plain last divided f false rest)).Perm
      (c.gather plain last divided f false (levels + rest)) := by
  induction levels, c using refinement_induction with
  | plain levels c pairs hplain =>
    rw [gather_of_connections? hplain, gather_of_connections? hplain,
      deferred_of_connections? hplain, List.flatMap_nil, List.append_nil]
  | last c hsaddle =>
    rw [gather_zero hsaddle, deferred_zero hsaddle, Nat.zero_add]
    cases defers with
    | true => simp
    | false =>
      -- nothing is put off, and there are no levels left to take anything from
      rw [hrest rfl, gather_zero hsaddle]
      simp
  | divided levels c hsaddle ih =>
    have hlevels : levels + 1 + rest = levels + rest + 1 := Nat.succ_add_eq_add_succ levels rest
    rw [gather_succ hsaddle, deferred_succ hsaddle, hlevels, gather_succ hsaddle,
      List.append_assoc, List.flatMap_assoc]
    -- what the quarters put off comes after all of them, not after each of them
    refine List.Perm.append_left _ ?_
    exact (List.flatMap_append_perm _ _ _).trans (List.Perm.flatMap_left _ fun q _ => ih q)

/-- What is taken further from what is taken. -/
theorem flatMap_gather (plain last divided : Cell α β → List γ) (f : PlaneFunction α β)
    (defers : Bool) (levels : Nat) (take : γ → List δ) (c : Cell α β) :
    (c.gather plain last divided f defers levels).flatMap take =
      c.gather (fun q => (plain q).flatMap take) (fun q => (last q).flatMap take)
        (fun q => (divided q).flatMap take) f defers levels := by
  induction levels, c using refinement_induction with
  | plain levels c pairs hplain => rw [gather_of_connections? hplain, gather_of_connections? hplain]
  | last c hsaddle =>
    rw [gather_zero hsaddle, gather_zero hsaddle]
    cases defers <;> rfl
  | divided levels c hsaddle ih =>
    rw [gather_succ hsaddle, gather_succ hsaddle, List.flatMap_append, List.flatMap_assoc]
    exact congrArg _ (List.flatMap_congr fun q _ => ih q)

/-! ### The cells that emit -/

/-- The segments that a cell emits, if it is not split. -/
def emission (f : PlaneFunction α β) (c : Cell α β) : List (Point α × Point α) :=
  c.segments (c.pairs (c.isCenterPositive f))

/-- The cells below a cell that emit their segments. -/
def emitters (f : PlaneFunction α β) (defers : Bool) (levels : Nat) (c : Cell α β) :
    List (Cell α β) :=
  c.gather (fun q => [q]) (fun q => [q]) (fun _ => []) f defers levels

omit [Coordinate α] in
theorem pairs_of_connections? {c : Cell α β} {edges : List (Edge × Edge)}
    (h : connections? c.code = some edges) (positive : Bool) : c.pairs positive = edges := by
  rw [pairs, h, Option.getD_some]

omit [Coordinate α] in
theorem pairs_of_saddle {c : Cell α β} (h : connections? c.code = none) (positive : Bool) :
    c.pairs positive = saddleConnections c.code positive := by
  rw [pairs, h, Option.getD_none]

/-- What is found below a cell is what the cells emit that are not split. -/
theorem found_eq_flatMap_emission (f : PlaneFunction α β) (defers : Bool) (levels : Nat) :
    found f defers levels = fun c => (c.emitters f defers levels).flatMap (emission f) := by
  funext c
  rw [emitters, flatMap_gather]
  simp only [List.flatMap_singleton, List.flatMap_nil]
  induction levels, c using refinement_induction with
  | plain levels c edges hplain =>
    rw [gather_of_connections? hplain, emission, pairs_of_connections? hplain]
    cases levels <;> rw [found, hplain]
  | last c hsaddle =>
    rw [gather_zero hsaddle, emission, pairs_of_saddle hsaddle, found, hsaddle]
    rfl
  | divided levels c hsaddle ih =>
    rw [gather_succ hsaddle, List.nil_append, found, hsaddle]
    exact List.flatMap_congr fun q _ => ih q

/-- A cell that emits lies on the last level or above it, and on the last level if it is a
saddle. -/
theorem depth_of_mem_emitters {f : PlaneFunction α β} {defers : Bool} {levels : Nat}
    {c q : Cell α β} (hq : q ∈ c.emitters f defers levels) :
    q.depth ≤ c.depth + levels ∧ (connections? q.code = none → q.depth = c.depth + levels) := by
  rw [emitters] at hq
  induction levels, c using refinement_induction with
  | plain levels c pairs hplain =>
    rw [gather_of_connections? hplain] at hq
    obtain rfl := List.mem_singleton.mp hq
    refine ⟨Nat.le_add_right _ _, fun hsaddle => ?_⟩
    rw [hplain] at hsaddle
    cases hsaddle
  | last c hsaddle =>
    rw [gather_zero hsaddle] at hq
    cases defers with
    | true => cases hq
    | false =>
      obtain rfl := List.mem_singleton.mp hq
      exact ⟨le_rfl, fun _ => rfl⟩
  | divided levels c hsaddle ih =>
    rw [gather_succ hsaddle, List.nil_append] at hq
    obtain ⟨q', hq', hq⟩ := List.mem_flatMap.mp hq
    have hdepth : q'.depth = c.depth + 1 := depth_of_mem_split (List.mem_filter.mp hq').1
    obtain ⟨hle, heq⟩ := ih q' hq
    rw [hdepth] at hle heq
    exact ⟨by omega, fun h => by rw [heq h]; omega⟩

/-- A saddle that is put off is a saddle of the last level. -/
theorem saddle_of_mem_deferred {f : PlaneFunction α β} {defers : Bool} {levels : Nat}
    {c q : Cell α β} (hq : q ∈ c.deferred f defers levels) :
    connections? q.code = none ∧ q.depth = c.depth + levels := by
  induction levels, c using refinement_induction with
  | plain levels c pairs hplain =>
    rw [deferred_of_connections? hplain] at hq
    cases hq
  | last c hsaddle =>
    rw [deferred_zero hsaddle] at hq
    cases defers with
    | true =>
      obtain rfl := List.mem_singleton.mp hq
      exact ⟨hsaddle, rfl⟩
    | false => cases hq
  | divided levels c hsaddle ih =>
    rw [deferred_succ hsaddle] at hq
    obtain ⟨q', hq', hq⟩ := List.mem_flatMap.mp hq
    have hdepth : q'.depth = c.depth + 1 := depth_of_mem_split (List.mem_filter.mp hq').1
    obtain ⟨hnone, heq⟩ := ih q' hq
    rw [hdepth] at heq
    exact ⟨hnone, by rw [heq]; omega⟩

end Cell

/-! ## Requests -/

namespace TraceRequest

/-- What the two passes take from the cells that they come to. -/
def gather (plain last divided : Cell α β → List γ) (r : TraceRequest α β) (o : TracerOptions α)
    (columns rows : Nat) : List γ :=
  let shallow := o.shallowDepth.toNat
  let deep := o.maxDepth.toNat
  let cells := Cell.occupied (r.domain.cells columns rows r.function)
  cells.flatMap (Cell.gather plain last divided r.function (shallow < deep) shallow) ++
    (cells.flatMap (Cell.deferred r.function (shallow < deep) shallow)).flatMap
      (Cell.gather plain last divided r.function false (deep - shallow))

/-- The cells that emit segments, in the order of the passes. -/
def emitters (r : TraceRequest α β) (o : TracerOptions α) (columns rows : Nat) : List (Cell α β) :=
  r.gather (fun c => [c]) (fun c => [c]) (fun _ => []) o columns rows

/-- The segments of one pass that goes down to a level without a stop. -/
def singlePass (r : TraceRequest α β) (deep columns rows : Nat) : List (Point α × Point α) :=
  (Cell.occupied (r.domain.cells columns rows r.function)).flatMap
    (Cell.found r.function false deep)

theorem found_eq_flatMap_emission (r : TraceRequest α β) (o : TracerOptions α)
    (columns rows : Nat) :
    r.found o columns rows = (r.emitters o columns rows).flatMap (Cell.emission r.function) := by
  simp only [found, emitters, gather, List.flatMap_append, List.flatMap_assoc,
    Cell.found_eq_flatMap_emission]
  rfl

/-- Two passes take what one deep pass takes. -/
theorem gather_perm (plain last divided : Cell α β → List γ) (r : TraceRequest α β)
    {o : TracerOptions α} (horder : o.shallowDepth ≤ o.maxDepth) (columns rows : Nat) :
    (r.gather plain last divided o columns rows).Perm
      ((Cell.occupied (r.domain.cells columns rows r.function)).flatMap
        (Cell.gather plain last divided r.function false o.maxDepth.toNat)) := by
  have hle : o.shallowDepth.toNat ≤ o.maxDepth.toNat := Int.toNat_le_toNat horder
  rw [gather, List.flatMap_assoc]
  refine (List.flatMap_append_perm _ _ _).trans (List.Perm.flatMap_left _ fun c _ => ?_)
  have hrest := Cell.rest_eq_zero o.shallowDepth.toNat o.maxDepth.toNat
  have hcell :=
    Cell.gather_append_deferred plain last divided r.function o.shallowDepth.toNat hrest c
  rwa [Nat.add_sub_cancel' hle] at hcell

/-- A cell of the raster comes from no split. -/
theorem depth_of_mem_cells {r : TraceRequest α β} {columns rows : Nat} {c : Cell α β}
    (hc : c ∈ r.domain.cells columns rows r.function) : c.depth = 0 := by
  obtain ⟨j, -, hc⟩ := List.mem_flatMap.mp hc
  obtain ⟨i, -, rfl⟩ := List.mem_map.mp hc
  rfl

end TraceRequest

/-! ## The places of the saddles that are put off -/

/-- Parts that are read together with their numbers have nothing twice, if what is read tells the
number. -/
theorem nodup_flatMap_zipIdx {parts : List γ} {read : γ × Nat → List δ} (number : δ → Nat)
    (hnodup : ∀ e ∈ parts.zipIdx, (read e).Nodup) (hnumber : ∀ e, ∀ x ∈ read e, number x = e.2) :
    (parts.zipIdx.flatMap read).Nodup := by
  have hnumbers : (parts.zipIdx.map Prod.snd).Nodup := by
    rw [List.zipIdx_map_snd]
    exact List.nodup_range'
  refine List.nodup_flatMap.mpr ⟨hnodup, ?_⟩
  refine (List.pairwise_map.mp hnumbers).imp fun {a b} hne x hxa hxb => ?_
  exact hne ((hnumber a x hxa).symm.trans (hnumber b x hxb))

/-- A refinement puts no saddle off twice. -/
theorem nodup_pending_refine (f : PlaneFunction α β) (defers : Bool) (levels : Nat)
    (t : CellTree α β) : (refine f defers levels t).pending.Nodup := by
  induction levels generalizing t with
  | zero =>
    obtain ⟨c, quarters⟩ := t
    rw [refine]
    cases Cell.connections? c.code with
    | some pairs => exact List.nodup_nil
    | none => cases defers <;> simp
  | succ levels ih =>
    obtain ⟨c, quarters⟩ := t
    rw [refine]
    cases Cell.connections? c.code with
    | some pairs => exact List.nodup_nil
    | none =>
      -- a path begins with the number of the quarter that it leads to
      refine nodup_flatMap_zipIdx (fun path => path.headD 0) (fun e he => ?_) ?_
      · obtain ⟨r, k⟩ := e
        obtain ⟨t, -, rfl⟩ := List.mem_map.mp (List.fst_mem_of_mem_zipIdx he)
        refine List.Nodup.map (fun _ _ h => (List.cons.inj h).2) ?_
        split
        · exact List.nodup_nil
        · exact ih t
      · rintro ⟨r, k⟩ path hpath
        obtain ⟨rest, -, rfl⟩ := List.mem_map.mp hpath
        rfl

/-- The first pass puts no saddle off twice. -/
theorem nodup_pending_firstPass (f : PlaneFunction α β) (shallow deep : Nat)
    (old : List (CellTree α β)) (cells : List (Cell α β)) :
    (firstPass f shallow deep old cells).pending.Nodup := by
  refine nodup_flatMap_zipIdx Prod.fst (fun e he => ?_) ?_
  · obtain ⟨r, k⟩ := e
    obtain ⟨t, -, rfl⟩ := List.mem_map.mp (List.fst_mem_of_mem_zipIdx he)
    refine List.Nodup.map (fun _ _ h => (Prod.mk.inj h).2) ?_
    rw [visit]
    split
    · exact List.nodup_nil
    · exact nodup_pending_refine f _ shallow t
  · rintro ⟨r, k⟩ place hplace
    obtain ⟨path, -, rfl⟩ := List.mem_map.mp hplace
    rfl

/-! ## Traces -/

/-- The first pass of a trace. -/
def Tracer.firstPasses (t : Tracer α β) (r : TraceRequest α β) (columns rows : Nat) : Passes α β :=
  firstPass r.function t.options.shallowDepth.toNat t.options.maxDepth.toNat
    (t.rasterFor columns rows).cells.toList (r.domain.cells columns rows r.function)

/-- The second pass goes on with each saddle that was put off, once, and finds it there as the first
pass left it. -/
theorem Tracer.passes_resolve (t : Tracer α β) (r : TraceRequest α β) (columns rows : Nat) :
    let shallow := t.options.shallowDepth.toNat
    let first := t.firstPasses r columns rows
    first.pending.Nodup ∧ ∃ saddles : List (Cell α β),
      first.pending.map first.cellAt = saddles.map some ∧
      (∀ c ∈ saddles, Cell.connections? c.code = none ∧ c.depth = shallow) ∧
      (t.passes r columns rows).segments = first.segments ++
        saddles.flatMap (Cell.found r.function false (t.options.maxDepth.toNat - shallow)) := by
  intro shallow first
  obtain ⟨-, hlength, hpending⟩ := firstPass_found r.function shallow t.options.maxDepth.toNat
    (t.rasterFor columns rows).cells.toList (r.domain.cells columns rows r.function)
  refine ⟨nodup_pending_firstPass .., _, hpending, fun c hc => ?_,
    foldl_resolve_found _ hlength hpending⟩
  obtain ⟨top, htop, hc⟩ := List.mem_flatMap.mp hc
  obtain ⟨hnone, hdepth⟩ := Cell.saddle_of_mem_deferred hc
  rw [TraceRequest.depth_of_mem_cells (List.mem_filter.mp htop).1, Nat.zero_add] at hdepth
  exact ⟨hnone, hdepth⟩

/-- A cell that emits lies on the deep level or above it, and on the deep level if it is a
saddle. -/
theorem TraceRequest.depth_of_mem_emitters {r : TraceRequest α β} {o : TracerOptions α}
    (horder : o.shallowDepth ≤ o.maxDepth) {columns rows : Nat} {c : Cell α β}
    (hc : c ∈ r.emitters o columns rows) : c.depth ≤ o.maxDepth.toNat ∧
      (Cell.connections? c.code = none → c.depth = o.maxDepth.toNat) := by
  have hc := (r.gather_perm _ _ _ horder columns rows).subset hc
  obtain ⟨top, htop, hc⟩ := List.mem_flatMap.mp hc
  have hdepth := Cell.depth_of_mem_emitters hc
  rwa [depth_of_mem_cells (List.mem_filter.mp htop).1, Nat.zero_add] at hdepth

/-- The segments of two passes are those of one. -/
theorem TraceRequest.found_perm_singlePass (r : TraceRequest α β) {o : TracerOptions α}
    (horder : o.shallowDepth ≤ o.maxDepth) (columns rows : Nat) :
    (r.found o columns rows).Perm (r.singlePass o.maxDepth.toNat columns rows) := by
  rw [found_eq_flatMap_emission, singlePass, Cell.found_eq_flatMap_emission, ← List.flatMap_assoc]
  exact (r.gather_perm _ _ _ horder columns rows).flatMap_right _

/-- Two passes find what one deep pass finds.  The segments that a trace stitches are, up to their
order, those of one pass down to the deep level, so they are the same for every shallow level; they
come from cells on the deep level or above it, saddles from the deep level only; and the second pass
goes on with each saddle that the first one puts off exactly once. -/
theorem Tracer.passes_perm_singlePass {t : Tracer α β} (r : TraceRequest α β) (columns rows : Nat)
    (hshallow : 0 ≤ t.options.shallowDepth) (horder : t.options.shallowDepth ≤ t.options.maxDepth) :
    let deep := t.options.maxDepth.toNat
    let first := t.firstPasses r columns rows
    (t.passes r columns rows).segments.Perm (r.singlePass deep columns rows) ∧
    (∀ t' : Tracer α β, t'.options.maxDepth = t.options.maxDepth → 0 ≤ t'.options.shallowDepth →
      t'.options.shallowDepth ≤ t'.options.maxDepth →
      (t.passes r columns rows).segments.Perm (t'.passes r columns rows).segments) ∧
    (t.passes r columns rows).segments =
      (r.emitters t.options columns rows).flatMap (Cell.emission r.function) ∧
    (∀ c ∈ r.emitters t.options columns rows,
      c.depth ≤ deep ∧ (Cell.connections? c.code = none → c.depth = deep)) ∧
    first.pending.Nodup ∧ ∃ saddles : List (Cell α β),
      first.pending.map first.cellAt = saddles.map some ∧
      (∀ c ∈ saddles, Cell.connections? c.code = none ∧
        (c.depth : Int) = t.options.shallowDepth) ∧
      (t.passes r columns rows).segments = first.segments ++ saddles.flatMap
        (Cell.found r.function false (deep - t.options.shallowDepth.toNat)) := by
  intro deep first
  -- wherever the first pass stops, both passes find what one pass to the full depth finds
  have hsingle : ∀ t' : Tracer α β, t'.options.shallowDepth ≤ t'.options.maxDepth →
      (t'.passes r columns rows).segments.Perm
        (r.singlePass t'.options.maxDepth.toNat columns rows) := by
    intro t' horder'
    rw [t'.passes_found]
    exact r.found_perm_singlePass horder' columns rows
  obtain ⟨hnodup, saddles, hcells, hsaddles, hsegments⟩ := t.passes_resolve r columns rows
  refine ⟨hsingle t horder, fun t' hdeep _ horder' => ?_, ?_,
    fun c hc => TraceRequest.depth_of_mem_emitters horder hc, hnodup, saddles, hcells, ?_,
    hsegments⟩
  · have hother := hsingle t' horder'
    rw [hdeep] at hother
    exact (hsingle t horder).trans hother.symm
  · rw [t.passes_found, r.found_eq_flatMap_emission]
  · intro c hc
    obtain ⟨hnone, hdepth⟩ := hsaddles c hc
    exact ⟨hnone, by rw [hdepth, Int.toNat_of_nonneg hshallow]⟩

/-- A function that is zero on two lines that cross at no corner of any split: the cell of the
raster is a saddle, and so is one of its quarters on each level, which is put off. -/
theorem Tracer.passes_perm_singlePass_cross :
    let t : Tracer ℚ (Option ℚ) := ⟨{ tolerance := 1 / 100, fastGrid := 1 }, ⟨0, 0, #[]⟩, false⟩
    let once : Tracer ℚ (Option ℚ) := { t with options := { t.options with shallowDepth := 4 } }
    let r : TraceRequest ℚ (Option ℚ) :=
      { function := .ofTotal fun p => some ((p.x - 1 / 3) * (p.y - 1 / 3)),
        domain := ⟨-1, 1, -1, 1⟩, fast := true }
    (t.firstPasses r 1 1).pending = [(0, [2])] ∧ (once.firstPasses r 1 1).pending = [] ∧
      (t.passes r 1 1).segments.Perm (once.passes r 1 1).segments ∧
      ∀ c ∈ r.emitters t.options 1 1, c.depth ≤ 4 := by
  intro t once r
  obtain ⟨-, hsame, -, hdepth, -⟩ :=
    Tracer.passes_perm_singlePass (t := t) r 1 1 (by decide) (by decide)
  exact ⟨by decide +kernel, by decide +kernel, hsame once rfl (by decide) (by decide),
    fun c hc => (hdepth c hc).1⟩

end Graphing.Contour
