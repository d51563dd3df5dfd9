/-
  Graphing.Proofs.Contour.Mirror

  A function and its negative are traced alike.

  Where no sample is zero, negation complements the code of a cell.  A code and
  its complement connect the same edges, the crossings on the edges do not
  depend on the sign, and a saddle and its mirror image are decided in opposite
  ways, which comes to the same connections.  So both refinements come to the
  same cells, one negated, in the same order.
-/
import Graphing.Proofs.Contour.CrossingCells
import Graphing.Proofs.Contour.Reuse

namespace Graphing.Contour

/-! ## Values that can be negated -/

/-- Sampled values with a negative each. -/
class Negatable (β : Type) {α : outParam Type} [Reading β α] extends SignedReading β where
  negate : β → β
  /-- Whether the mean of four values is zero. -/
  isZeroMean : β → β → β → β → Bool
  negate_undefined : negate (Reading.undefined : β) = Reading.undefined
  isFinite_negate : ∀ v, Reading.isFinite (negate v) = Reading.isFinite v
  isPositive_negate : ∀ v, Reading.isPositive (negate v) = Reading.isNegative v
  isNegative_negate : ∀ v, Reading.isNegative (negate v) = Reading.isPositive v
  isZero_negate : ∀ v, Reading.isZero (negate v) = Reading.isZero v
  crossing_negate : ∀ v w, Reading.crossing (negate v) (negate w) = Reading.crossing v w
  isPositiveMean_negate : ∀ {a b c d : β}, Reading.isFinite a = true → Reading.isFinite b = true →
    Reading.isFinite c = true → Reading.isFinite d = true → isZeroMean a b c d = false →
    Reading.isPositiveMean (negate a) (negate b) (negate c) (negate d) =
      !Reading.isPositiveMean a b c d

instance : Negatable Float where
  negate x := -x
  isZeroMean a b c d := 0.25 * (a + b + c + d) == 0
  negate_undefined := by decide +kernel
  isFinite_negate x := by
    simp only [Reading.isFinite, Binary64.isFinite_eq, Binary64.unpacked_neg, Binary64.isFinite_neg]
  isPositive_negate x := by
    simp only [Reading.isPositive, Reading.isNegative, Binary64.decide_pos_eq,
      Binary64.decide_neg_eq, Binary64.unpacked_neg, Binary64.zero_lt_neg]
  isNegative_negate x := by
    simp only [Reading.isPositive, Reading.isNegative, Binary64.decide_pos_eq,
      Binary64.decide_neg_eq, Binary64.unpacked_neg, Binary64.neg_lt_zero]
  isZero_negate x := by
    simp only [Reading.isZero, Binary64.beq_zero_eq, Binary64.unpacked_neg, Binary64.neg_beq_zero]
  crossing_negate := Binary64.crossing_neg
  isPositiveMean_negate := Binary64.mean_neg

instance (priority := low) exactNegatable {K : Type} [Field K] [LinearOrder K]
    [IsStrictOrderedRing K] : Negatable (Option K) where
  negate v := v.map fun x => -x
  isZeroMean
    -- without rounding, the mean is zero where the sum is
    | some a, some b, some c, some d => decide (a + b + c + d = 0)
    | _, _, _, _ => false
  negate_undefined := rfl
  isFinite_negate v := Option.isSome_map
  isPositive_negate v := by cases v <;> simp [Reading.isPositive, Reading.isNegative]
  isNegative_negate v := by cases v <;> simp [Reading.isPositive, Reading.isNegative]
  isZero_negate v := by cases v <;> simp [Reading.isZero]
  crossing_negate v w := by
    cases v with
    | none => rfl
    | some a =>
      cases w with
      | none => rfl
      | some b =>
        have hsub : -a - -b = -(a - b) := by ring
        simp only [Reading.crossing, Option.map_some, hsub, neg_eq_zero, neg_div_neg_eq]
  isPositiveMean_negate {a b c d} ha hb hc hd hzero := by
    obtain ⟨a, rfl⟩ := Option.isSome_iff_exists.mp ha
    obtain ⟨b, rfl⟩ := Option.isSome_iff_exists.mp hb
    obtain ⟨c, rfl⟩ := Option.isSome_iff_exists.mp hc
    obtain ⟨d, rfl⟩ := Option.isSome_iff_exists.mp hd
    have hsum : a + b + c + d ≠ 0 := of_decide_eq_false hzero
    have hne : 1 / 4 * (a + b + c + d) ≠ 0 := mul_ne_zero (by norm_num) hsum
    have hneg : 1 / 4 * (-a + -b + -c + -d) = -(1 / 4 * (a + b + c + d)) := by ring
    simp only [Reading.isPositiveMean, Option.map_some, hneg, Left.neg_pos_iff]
    rcases lt_or_gt_of_ne hne with h | h <;> simp only [h, h.not_gt, decide_true, decide_false,
      Bool.not_true, Bool.not_false]

variable {α β γ : Type} [Reading β α] [Negatable β]

open Negatable (negate)

/-! ## Functions -/

/-- The negative of a function. -/
def PlaneFunction.negated (f : PlaneFunction α β) : PlaneFunction α β where
  onMany ps := (f.onMany ps).map (List.map negate)
  onPoint p := (f.onPoint p).map negate

theorem PlaneFunction.Elementwise.negated {f : PlaneFunction α β} (hf : f.Elementwise) :
    f.negated.Elementwise := by
  intro ps vs hvs
  obtain ⟨ws, hws, rfl⟩ := Option.map_eq_some_iff.mp hvs
  have hpoints := congrArg (List.map (Option.map negate)) (hf ps ws hws)
  rw [List.map_map, List.map_map] at hpoints
  rw [List.map_map]
  exact hpoints

theorem settle_negate (v : β) : settle (negate v) = negate (settle v) := by
  rw [settle, settle, Negatable.isFinite_negate v]
  split
  · rfl
  · exact Negatable.negate_undefined.symm

theorem PlaneFunction.sampleAt_negated (f : PlaneFunction α β) (p : Point α) :
    f.negated.sampleAt p = negate (f.sampleAt p) := by
  have hpoint : f.negated.onPoint p = (f.onPoint p).map negate := rfl
  rw [sampleAt, sampleAt, hpoint]
  cases f.onPoint p with
  | none => exact Negatable.negate_undefined.symm
  | some v => exact settle_negate v

/-! ## Cells -/

namespace Cell

/-- A cell with the negatives at its corners. -/
def negated (c : Cell α β) : Cell α β :=
  { c with nw := negate c.nw, ne := negate c.ne, se := negate c.se, sw := negate c.sw }

/-- A cell that is not empty and has no zero at its corners. -/
structure Signed (c : Cell α β) : Prop where
  isEmpty : c.isEmpty = false
  isZero : ∀ v ∈ c.corners, Reading.isZero v = false

theorem status_negated (c : Cell α β) : c.negated.status =
    ⟨c.status.negative, c.status.positive, c.status.zero, c.status.valid⟩ := by
  have hcorners : c.negated.corners = c.corners.map negate := rfl
  have hcount : ∀ p q : β → Bool, (∀ v, p (negate v) = q v) →
      (c.corners.map negate).countP p = c.corners.countP q := by
    intro p q h
    rw [List.countP_map]
    exact List.countP_congr fun v _ => by rw [Function.comp_apply, h]
  have hvalid : (c.corners.map negate).all Reading.isFinite = c.corners.all Reading.isFinite := by
    rw [List.all_map]
    exact congrArg _ (funext Negatable.isFinite_negate)
  rw [status, statusOf, hcorners, hcount _ _ Negatable.isPositive_negate,
    hcount _ _ Negatable.isNegative_negate, hcount _ _ Negatable.isZero_negate, hvalid]
  rfl

theorem isEmpty_negated (c : Cell α β) : c.negated.isEmpty = c.isEmpty := by
  have hswap : ∀ zeros positives negatives : Nat,
      zeros ||| negatives ||| positives = zeros ||| positives ||| negatives := by
    intro zeros positives negatives
    rw [Nat.or_assoc, Nat.or_comm negatives, ← Nat.or_assoc]
  rw [isEmpty, isEmpty, status_negated, CellStatus.isEmpty, CellStatus.isEmpty, hswap]

theorem occupied_map_negated (cells : List (Cell α β)) :
    occupied (cells.map negated) = (occupied cells).map negated := by
  rw [occupied, occupied, List.filter_map]
  refine congrArg _ (List.filter_congr fun c _ => ?_)
  rw [Function.comp_apply, isEmpty_negated]

theorem Signed.isPositive_negate {c : Cell α β} (h : c.Signed) {v : β} (hv : v ∈ c.corners) :
    Reading.isPositive (negate v) = !Reading.isPositive v := by
  have hfinite := isFinite_of_mem_corners h.isEmpty hv
  rw [Negatable.isPositive_negate, SignedReading.isNegative_eq hfinite (h.isZero v hv)]

/-- A cell with signs at its corners has the complementary code when they are negated. -/
theorem code_negated {c : Cell α β} (h : c.Signed) : c.negated.code = 15 - c.code := by
  have hnw := h.isPositive_negate (v := c.nw) (by simp [corners])
  have hne := h.isPositive_negate (v := c.ne) (by simp [corners])
  have hse := h.isPositive_negate (v := c.se) (by simp [corners])
  have hsw := h.isPositive_negate (v := c.sw) (by simp [corners])
  simp only [code, negated, hnw, hne, hse, hsw]
  cases Reading.isPositive c.nw <;> cases Reading.isPositive c.ne <;>
    cases Reading.isPositive c.se <;> cases Reading.isPositive c.sw <;> rfl

/-- A code and its complement connect the same edges. -/
theorem connections?_negated {c : Cell α β} (h : c.Signed) :
    connections? c.negated.code = connections? c.code := by
  have hcomplement : ∀ code < 16, connections? (15 - code) = connections? code := by decide
  rw [code_negated h, hcomplement c.code c.code_lt]

/-- A cell and its mirror image connect the same edges if their middles have opposite signs. -/
theorem pairs_negated {c : Cell α β} (h : c.Signed) {positive : Bool} :
    c.negated.pairs (!positive) = c.pairs positive := by
  have hcomplement : ∀ code < 16, ∀ positive,
      (connections? (15 - code)).getD (saddleConnections (15 - code) (!positive)) =
        (connections? code).getD (saddleConnections code positive) := by decide
  rw [pairs, pairs, code_negated h, hcomplement c.code c.code_lt]

/-! ### With coordinates -/

variable [Coordinate α]

theorem edgePoint_negated (c : Cell α β) (k : Edge) : c.negated.edgePoint k = c.edgePoint k := by
  cases k <;> simp only [edgePoint, between, negated, Negatable.crossing_negate]

/-- What decides a saddle is not zero: the value in its middle, or the mean of its corners if that
value is not finite. -/
structure Decided (f : PlaneFunction α β) (c : Cell α β) : Prop where
  center : Reading.isZero (f.sampleAt c.center) = false
  mean : Reading.isFinite (f.sampleAt c.center) = false →
    Negatable.isZeroMean c.nw c.ne c.se c.sw = false

omit [Negatable β] in
theorem isCenterPositive_eq {f : PlaneFunction α β} (hf : f.Elementwise) (c : Cell α β) :
    c.isCenterPositive f =
      if Reading.isFinite (f.sampleAt c.center) then Reading.isPositive (f.sampleAt c.center)
      else Reading.isPositiveMean c.nw c.ne c.se c.sw := by
  rw [isCenterPositive, hf.sample_eq]
  rfl

theorem isCenterPositive_negated {f : PlaneFunction α β} (hf : f.Elementwise) {c : Cell α β}
    (h : c.Signed) (hdecided : c.Decided f) :
    c.negated.isCenterPositive f.negated = !c.isCenterPositive f := by
  have hcenter : f.negated.sampleAt c.negated.center = negate (f.sampleAt c.center) :=
    f.sampleAt_negated c.center
  rw [isCenterPositive_eq hf.negated, isCenterPositive_eq hf, hcenter, Negatable.isFinite_negate]
  cases hfinite : Reading.isFinite (f.sampleAt c.center) with
  | true =>
    rw [if_pos rfl, if_pos rfl, Negatable.isPositive_negate,
      SignedReading.isNegative_eq hfinite hdecided.center]
  | false =>
    have hcorner : ∀ v ∈ c.corners, Reading.isFinite v = true :=
      fun v hv => isFinite_of_mem_corners h.isEmpty hv
    simp only [corners, List.forall_mem_cons] at hcorner
    obtain ⟨hnw, hne, hse, hsw, -⟩ := hcorner
    -- the middle has no value, so the mean of the corners decides, which are finite
    rw [if_neg Bool.false_ne_true, if_neg Bool.false_ne_true]
    exact Negatable.isPositiveMean_negate hnw hne hse hsw (hdecided.mean hfinite)

/-- A cell that is not split and its mirror image emit the same segments. -/
theorem emission_negated {f : PlaneFunction α β} (hf : f.Elementwise) {c : Cell α β} (h : c.Signed)
    (hdecided : connections? c.code = none → c.Decided f) :
    c.negated.emission f.negated = c.emission f := by
  have hpairs : c.negated.pairs (c.negated.isCenterPositive f.negated) =
      c.pairs (c.isCenterPositive f) := by
    cases hsaddle : connections? c.code with
    | some edges =>
      have hmirror := connections?_negated h
      rw [hsaddle] at hmirror
      rw [pairs_of_connections? hmirror, pairs_of_connections? hsaddle]
    | none => rw [isCenterPositive_negated hf h (hdecided hsaddle), pairs_negated h]
  have hedges : c.negated.edgePoint = c.edgePoint := funext fun k => edgePoint_negated c k
  rw [emission, emission, hpairs, segments, segments, hedges]

/-! ### Refinement -/

theorem split_negated {f : PlaneFunction α β} (hf : f.Elementwise) (c : Cell α β) :
    c.negated.split f.negated = (c.split f).map negated := by
  rw [split_eq hf.negated, split_eq hf]
  simp only [PlaneFunction.sampleAt_negated]
  rfl

omit [Negatable β] in
/-- Where no split point is zero, the quarters have signs again unless they are empty. -/
theorem Signed.of_mem_occupied {f : PlaneFunction α β} (hf : f.Elementwise) {c q : Cell α β}
    (h : c.Signed) (hpoints : ∀ p ∈ c.splitPoints, Reading.isZero (f.sampleAt p) = false)
    (hq : q ∈ occupied (c.split f)) : q.Signed := by
  obtain ⟨hsplit, hempty⟩ := mem_occupied.mp hq
  exact ⟨hempty, forall_corners_of_mem_split hf h.isZero hpoints hsplit⟩

/-- The probes below a cell are not zero. -/
def Probed (f : PlaneFunction α β) (levels : Nat) (c : Cell α β) : Prop :=
  ∀ p ∈ c.probes f levels, Reading.isZero (f.sampleAt p) = false

omit [Negatable β] in
/-- Where a saddle is split, no split point is zero, and the same goes for its quarters. -/
theorem Probed.split {f : PlaneFunction α β} {levels : Nat} {c : Cell α β}
    (h : c.Probed f (levels + 1)) (hsaddle : connections? c.code = none) :
    (∀ p ∈ c.splitPoints, Reading.isZero (f.sampleAt p) = false) ∧
      ∀ q ∈ occupied (c.split f), q.Probed f levels := by
  rw [Probed, probes, gather_succ hsaddle, List.forall_mem_append] at h
  exact ⟨h.1, fun q hq p hp => h.2 p (List.mem_flatMap.mpr ⟨q, hq, hp⟩)⟩

/-- The refinement of a mirror image comes to the mirror images of the cells. -/
theorem gather_negated {f : PlaneFunction α β} (hf : f.Elementwise)
    {plain last divided : Cell α β → List γ} {defers : Bool} {levels : Nat} {c : Cell α β}
    (h : c.Signed) (hprobes : c.Probed f levels) :
    c.negated.gather plain last divided f.negated defers levels =
      c.gather (fun q => plain q.negated) (fun q => last q.negated) (fun q => divided q.negated)
        f defers levels := by
  have hmirror := connections?_negated h
  induction levels, c using refinement_induction with
  | plain levels c edges hplain =>
    rw [gather_of_connections? hplain, gather_of_connections? (hmirror.trans hplain)]
  | last c hsaddle => rw [gather_zero hsaddle, gather_zero (hmirror.trans hsaddle)]
  | divided levels c hsaddle ih =>
    obtain ⟨hpoints, hquarters⟩ := hprobes.split hsaddle
    rw [gather_succ hsaddle, gather_succ (hmirror.trans hsaddle), split_negated hf,
      occupied_map_negated, List.flatMap_map]
    refine congrArg _ (List.flatMap_congr fun q hq => ?_)
    have hq' := h.of_mem_occupied hf hpoints hq
    exact ih q hq' (hquarters q hq) (connections?_negated hq')

omit [Negatable β] in
/-- If nothing is taken from the saddles on the last level, it does not matter whether they are put
off. -/
theorem gather_of_last_nil (plain divided : Cell α β → List γ) (f : PlaneFunction α β)
    (defers : Bool) (levels : Nat) (c : Cell α β) :
    c.gather plain (fun _ => []) divided f defers levels =
      c.gather plain (fun _ => []) divided f false levels := by
  induction levels, c using refinement_induction with
  | plain levels c edges hplain => rw [gather_of_connections? hplain, gather_of_connections? hplain]
  | last c hsaddle => rw [gather_zero hsaddle, gather_zero hsaddle, ite_self, ite_self]
  | divided levels c hsaddle ih =>
    rw [gather_succ hsaddle, gather_succ hsaddle]
    exact congrArg _ (List.flatMap_congr fun q _ => ih q)

omit [Negatable β] in
/-- The saddles that are put off are those that are taken if they are not. -/
theorem deferred_eq_gather (f : PlaneFunction α β) (defers : Bool) (levels : Nat) (c : Cell α β) :
    c.deferred f defers levels =
      c.gather (fun _ => []) (fun q => [q]) (fun _ => []) f (!defers) levels := by
  induction levels, c using refinement_induction with
  | plain levels c edges hplain =>
    rw [deferred_of_connections? hplain, gather_of_connections? hplain]
  | last c hsaddle =>
    rw [deferred_zero hsaddle, gather_zero hsaddle]
    cases defers <;> rfl
  | divided levels c hsaddle ih =>
    rw [deferred_succ hsaddle, gather_succ hsaddle, List.nil_append]
    exact List.flatMap_congr fun q _ => ih q

omit [Negatable β] in
/-- The cells that a refinement comes to have signs, and so do those that it leaves. -/
theorem signed_of_mem_gather {f : PlaneFunction α β} (hf : f.Elementwise)
    {plain last : Cell α β → List (Cell α β)} (hplain : ∀ q, ∀ x ∈ plain q, x = q)
    (hlast : ∀ q, ∀ x ∈ last q, x = q) {defers : Bool} {levels : Nat} {c q : Cell α β}
    (h : c.Signed) (hprobes : c.Probed f levels)
    (hq : q ∈ c.gather plain last (fun _ => []) f defers levels) : q.Signed := by
  induction levels, c using refinement_induction with
  | plain levels c edges hconnections =>
    rw [gather_of_connections? hconnections] at hq
    rwa [hplain c q hq]
  | last c hsaddle =>
    rw [gather_zero hsaddle] at hq
    cases defers with
    | true => cases hq
    | false => rwa [hlast c q hq]
  | divided levels c hsaddle ih =>
    obtain ⟨hpoints, hquarters⟩ := hprobes.split hsaddle
    rw [gather_succ hsaddle, List.nil_append] at hq
    obtain ⟨q', hq', hq⟩ := List.mem_flatMap.mp hq
    exact ih q' (h.of_mem_occupied hf hpoints hq') (hquarters q' hq') hq

section

variable {f : PlaneFunction α β} {defers : Bool} {levels : Nat} {c q : Cell α β}

theorem emitters_negated (hf : f.Elementwise) (h : c.Signed) (hprobes : c.Probed f levels) :
    c.negated.emitters f.negated defers levels = (c.emitters f defers levels).map negated := by
  rw [emitters, emitters, gather_negated hf h hprobes, List.map_eq_flatMap, flatMap_gather]
  rfl

theorem deferred_negated (hf : f.Elementwise) (h : c.Signed) (hprobes : c.Probed f levels) :
    c.negated.deferred f.negated defers levels = (c.deferred f defers levels).map negated := by
  rw [deferred_eq_gather, deferred_eq_gather, gather_negated hf h hprobes, List.map_eq_flatMap,
    flatMap_gather]
  rfl

/-- The refinements of mirror images, one after the other, are the mirror images of those of the
cells. -/
theorem flatMap_emitters_negated (hf : f.Elementwise) {cells : List (Cell α β)}
    (h : ∀ c ∈ cells, c.Signed ∧ c.Probed f levels) :
    (cells.map negated).flatMap (emitters f.negated defers levels) =
      (cells.flatMap (emitters f defers levels)).map negated := by
  rw [List.flatMap_map, List.map_flatMap]
  exact List.flatMap_congr fun c hc => emitters_negated hf (h c hc).1 (h c hc).2

theorem flatMap_deferred_negated (hf : f.Elementwise) {cells : List (Cell α β)}
    (h : ∀ c ∈ cells, c.Signed ∧ c.Probed f levels) :
    (cells.map negated).flatMap (deferred f.negated defers levels) =
      (cells.flatMap (deferred f defers levels)).map negated := by
  rw [List.flatMap_map, List.map_flatMap]
  exact List.flatMap_congr fun c hc => deferred_negated hf (h c hc).1 (h c hc).2

omit [Negatable β] in
theorem signed_of_mem_emitters (hf : f.Elementwise) (h : c.Signed) (hprobes : c.Probed f levels)
    (hq : q ∈ c.emitters f defers levels) : q.Signed :=
  signed_of_mem_gather hf (fun _ _ => List.mem_singleton.mp) (fun _ _ => List.mem_singleton.mp) h
    hprobes hq

omit [Negatable β] in
theorem signed_of_mem_deferred (hf : f.Elementwise) (h : c.Signed) (hprobes : c.Probed f levels)
    (hq : q ∈ c.deferred f defers levels) : q.Signed := by
  rw [deferred_eq_gather] at hq
  exact signed_of_mem_gather hf (fun _ _ hx => absurd hx List.not_mem_nil)
    (fun _ _ => List.mem_singleton.mp) h hprobes hq

end

end Cell

/-! ## Requests -/

namespace TraceRequest

variable [Coordinate α]

/-- The request for the negative of a function. -/
def negated (r : TraceRequest α β) : TraceRequest α β := { r with function := r.function.negated }

/-- No value that a trace samples is zero: at no corner, at no point where a saddle is split, and in
the middle of no saddle that is not, where the mean of the corners takes the place of a value that
is not finite. -/
structure NowhereZero (r : TraceRequest α β) (o : TracerOptions α) (columns rows : Nat) : Prop where
  points : ∀ p ∈ r.points o columns rows, Reading.isZero (r.function.sampleAt p) = false
  means : ∀ c ∈ r.saddles o columns rows,
    Reading.isFinite (r.function.sampleAt c.center) = false →
      Negatable.isZeroMean c.nw c.ne c.se c.sw = false

/-- The cells of the raster for the negative of a function. -/
theorem cells_negated {r : TraceRequest α β} (hf : r.function.Elementwise) (columns rows : Nat) :
    r.domain.cells columns rows r.negated.function =
      (r.domain.cells columns rows r.function).map Cell.negated := by
  have hsamples : (r.function.negated.sample (r.domain.corners columns rows)).toArray =
      (r.function.sample (r.domain.corners columns rows)).toArray.map negate := by
    rw [hf.negated.sample_eq, hf.sample_eq, List.map_toArray, List.map_map]
    exact congrArg _ (List.map_congr_left fun p _ => r.function.sampleAt_negated p)
  have hcell : ∀ (samples : Array β) (i j : Nat),
      r.domain.cell columns rows (samples.map negate) i j =
        (r.domain.cell columns rows samples i j).negated := by
    intro samples i j
    have hvalue : ∀ k : Nat, ((samples.map negate)[k]?).getD Reading.undefined =
        negate ((samples[k]?).getD Reading.undefined) := by
      intro k
      rw [Array.getElem?_map]
      cases samples[k]? with
      | none => exact Negatable.negate_undefined.symm
      | some v => rfl
    simp only [Domain.cell, hvalue]
    rfl
  rw [Domain.cells, Domain.cells, negated, hsamples, List.map_flatMap]
  exact List.flatMap_congr fun j _ => by
    rw [List.map_map]
    exact List.map_congr_left fun i _ => hcell _ i j

omit [Negatable β] in
/-- The cells of the raster that are not empty have signs, and so have their probes and those of the
saddles that are put off. -/
theorem signed_of_points {r : TraceRequest α β} {o : TracerOptions α} {columns rows : Nat}
    (hf : r.function.Elementwise)
    (hpoints : ∀ p ∈ r.points o columns rows, Reading.isZero (r.function.sampleAt p) = false) :
    let shallow := o.shallowDepth.toNat
    let deep := o.maxDepth.toNat
    ∀ c ∈ Cell.occupied (r.domain.cells columns rows r.function), c.Signed ∧
      c.Probed r.function shallow ∧
      ∀ d ∈ c.deferred r.function (shallow < deep) shallow,
        d.Probed r.function (deep - shallow) := by
  intro shallow deep c hc
  rw [points, List.forall_mem_append, List.forall_mem_append] at hpoints
  obtain ⟨⟨hcorners, hprobes⟩, -⟩ := hpoints
  obtain ⟨hcell, hempty⟩ := Cell.mem_occupied.mp hc
  refine ⟨⟨hempty, forall_corners_of_mem_cells hf hcorners hcell⟩, fun p hp => ?_,
    fun d hd p hp => ?_⟩
  -- the split points of both passes are sampled: those of the first, and those of the second
  · refine hprobes p (List.mem_append_left _ (List.mem_flatMap.mpr ⟨c, hc, ?_⟩))
    rwa [Cell.gather_of_last_nil]
  · refine hprobes p (List.mem_append_right _ (List.mem_flatMap.mpr ⟨d, ?_, hp⟩))
    exact List.mem_flatMap.mpr ⟨c, hc, hd⟩

/-- The cells that emit segments are the mirror images of those that do for the negative. -/
theorem emitters_negated {r : TraceRequest α β} {o : TracerOptions α} {columns rows : Nat}
    (hf : r.function.Elementwise)
    (hpoints : ∀ p ∈ r.points o columns rows, Reading.isZero (r.function.sampleAt p) = false) :
    r.negated.emitters o columns rows = (r.emitters o columns rows).map Cell.negated ∧
      ∀ c ∈ r.emitters o columns rows, c.Signed := by
  let cells := Cell.occupied (r.domain.cells columns rows r.function)
  let shallow := o.shallowDepth.toNat
  let deep := o.maxDepth.toNat
  -- the second pass starts at the cells that the first one put off
  let saddles := cells.flatMap (Cell.deferred r.function (shallow < deep) shallow)
  have hsigned := signed_of_points hf hpoints
  have hfirst : ∀ c ∈ cells, c.Signed ∧ c.Probed r.function shallow := fun c hc =>
    ⟨(hsigned c hc).1, (hsigned c hc).2.1⟩
  have hsecond : ∀ d ∈ saddles, d.Signed ∧ d.Probed r.function (deep - shallow) := by
    intro d hd
    obtain ⟨c, hc, hd⟩ := List.mem_flatMap.mp hd
    obtain ⟨h, hprobes, hrest⟩ := hsigned c hc
    exact ⟨Cell.signed_of_mem_deferred hf h hprobes hd, hrest d hd⟩
  constructor
  · have hcells : Cell.occupied (r.negated.domain.cells columns rows r.negated.function) =
        cells.map Cell.negated := by
      rw [← Cell.occupied_map_negated, ← cells_negated hf]
      rfl
    have hsaddles : (cells.map Cell.negated).flatMap
        (Cell.deferred r.negated.function (shallow < deep) shallow) = saddles.map Cell.negated :=
      Cell.flatMap_deferred_negated hf hfirst
    rw [emitters, gather, hcells, hsaddles]
    exact (congrArg₂ _ (Cell.flatMap_emitters_negated hf hfirst)
      (Cell.flatMap_emitters_negated hf hsecond)).trans List.map_append.symm
  · intro c hc
    obtain hc | hc := List.mem_append.mp hc
    · obtain ⟨top, htop, hc⟩ := List.mem_flatMap.mp hc
      exact Cell.signed_of_mem_emitters hf (hfirst top htop).1 (hfirst top htop).2 hc
    · obtain ⟨d, hd, hc⟩ := List.mem_flatMap.mp hc
      exact Cell.signed_of_mem_emitters hf (hsecond d hd).1 (hsecond d hd).2 hc

/-- A function that is nowhere zero and its negative have the same segments, in the same order. -/
theorem found_negated {r : TraceRequest α β} {o : TracerOptions α} {columns rows : Nat}
    (hf : r.function.Elementwise) (h : r.NowhereZero o columns rows) :
    r.negated.found o columns rows = r.found o columns rows := by
  obtain ⟨hemitters, hsigned⟩ := emitters_negated hf h.points
  rw [found_eq_flatMap_emission, found_eq_flatMap_emission, hemitters, List.flatMap_map]
  refine List.flatMap_congr fun c hc => ?_
  refine Cell.emission_negated hf (hsigned c hc) fun hsaddle => ?_
  have hmem : c ∈ r.saddles o columns rows :=
    List.mem_filter.mpr ⟨hc, by rw [hsaddle, Option.isNone_none]⟩
  exact ⟨h.points _ (List.mem_append_right _ (List.mem_map_of_mem hmem)), h.means c hmem⟩

end TraceRequest

/-! ## Traces -/

namespace Tracer

variable [Coordinate α]

omit [Negatable β] in
/-- Requests that differ in the function only have the same outcome if the passes find the same
segments, in the same order, whatever is done with the path. -/
theorem trace_congr {t : Tracer α β} (r r' : TraceRequest α β) (hdomain : r'.domain = r.domain)
    (hresolution : r'.resolution = r.resolution) (hfast : r'.fast = r.fast)
    (hsegments : ∀ columns rows, t.gridShape r.resolution r.fast = .ok (columns, rows) →
      (t.passes r' columns rows).segments = (t.passes r columns rows).segments)
    (finish : Option (List (PathPoint α) → Except (TraceFault α) Unit)) :
    (t.trace r' (finish.map fun consume _ => consume)).1 =
      (t.trace r (finish.map fun consume _ => consume)).1 := by
  have hnone : (t.trace r' none).1 = (t.trace r none).1 := by
    unfold trace
    rw [hdomain, hresolution, hfast]
    split
    · rfl
    · split
      · rfl
      · split
        · rfl
        · rename_i columns rows hshape
          -- up to here only the domain and the resolution were looked at
          dsimp only
          rw [hsegments columns rows hshape]
          split <;> rfl
  cases finish with
  | none => exact hnone
  | some consume =>
    obtain ⟨running, -, h⟩ := t.trace_some r fun _ => consume
    obtain ⟨running', -, h'⟩ := t.trace_some r' fun _ => consume
    rw [Option.map_some, h, h', hnone]

/-- A function and its negative are traced alike.  If no value that the trace of an element-wise
function samples is zero, the negative of the function gives the same segments point by point and in
the same order, and so the same polylines, whatever the path of them is used for. -/
theorem trace_negated {t : Tracer α β} {r : TraceRequest α β} (hf : r.function.Elementwise) :
    (∀ columns rows, r.NowhereZero t.options columns rows →
      (t.passes r.negated columns rows).segments = (t.passes r columns rows).segments) ∧
    ((∀ columns rows, t.gridShape r.resolution r.fast = .ok (columns, rows) →
        r.NowhereZero t.options columns rows) →
      ∀ finish : Option (List (PathPoint α) → Except (TraceFault α) Unit),
        (t.trace r.negated (finish.map fun consume _ => consume)).1 =
          (t.trace r (finish.map fun consume _ => consume)).1) := by
  have hsegments : ∀ columns rows, r.NowhereZero t.options columns rows →
      (t.passes r.negated columns rows).segments = (t.passes r columns rows).segments := by
    intro columns rows h
    rw [t.passes_found, t.passes_found, TraceRequest.found_negated hf h]
  refine ⟨hsegments, fun h finish => ?_⟩
  exact trace_congr r r.negated rfl rfl rfl
    (fun columns rows hshape => hsegments columns rows (h columns rows hshape)) finish

/-- A saddle in doubles that is not split, with an undefined value in its middle: the mean of its
corners decides. -/
theorem trace_negated_saddle :
    let t : Tracer Float Float :=
      ⟨{ TracerOptions.usual with fastGrid := 1, shallowDepth := 0, maxDepth := 0 }, ⟨0, 0, #[]⟩,
        false⟩
    let r : TraceRequest Float Float :=
      { function := .ofTotal fun p => if p.x == 0 then Binary64.nan else p.x * p.y + 0.125,
        domain := ⟨-1, 1, -1, 1⟩, fast := true }
    (r.saddles t.options 1 1).map (Cell.isCenterPositive r.function) = [true] ∧
      (t.passes r.negated 1 1).segments = (t.passes r 1 1).segments ∧
      (t.trace r.negated none).1 = (t.trace r none).1 := by
  intro t r
  have hzero : r.NowhereZero t.options 1 1 := ⟨by decide +kernel, by decide +kernel⟩
  obtain ⟨hsegments, htrace⟩ :=
    trace_negated (t := t) (r := r) (PlaneFunction.elementwise_ofTotal _)
  refine ⟨by decide +kernel, hsegments 1 1 hzero, htrace (fun columns rows hshape => ?_) none⟩
  cases hshape
  exact hzero

end Tracer
end Graphing.Contour
