/-
  Graphing.Proofs.Contour.CrossingCells

  No cell that a contour crosses is missed.

  Where all samples are finite and not zero, a cell that is not empty has
  corners of both signs.  Such a cell passes a segment on, however deep its
  saddles are split: in a saddle the corners of one side have different signs,
  so the value in the middle differs in its sign from one of them, and the
  quarter between the two is not empty either.
-/
import Graphing.Proofs.Contour.SignChange
import Graphing.Proofs.Contour.SinglePass
import Graphing.Proofs.Number.Signs

namespace Graphing.Contour

/-! ## Definite values -/

section Definite

/-- Sampled values with signs: a finite value that is not zero is negative or positive. -/
class SignedReading (β : Type) {α : outParam Type} [Reading β α] : Prop where
  isNegative_eq : ∀ {v : β}, Reading.isFinite v = true → Reading.isZero v = false →
    Reading.isNegative v = !Reading.isPositive v

instance : SignedReading Float where
  isNegative_eq := Binary64.decide_neg_eq_not

instance (priority := low) exactSignedReading {K : Type} [Field K] [LinearOrder K] :
    SignedReading (Option K) where
  isNegative_eq {v} hfinite hzero := by
    obtain ⟨x, rfl⟩ := Option.isSome_iff_exists.mp hfinite
    have hne : x ≠ 0 := of_decide_eq_false hzero
    simp only [Reading.isNegative, Reading.isPositive, Option.any_some]
    rcases lt_or_gt_of_ne hne with h | h <;> simp [h, h.not_gt]

variable {α β : Type} [Reading β α]

/-- Whether a value is finite and not zero. -/
def isDefinite (v : β) : Bool := Reading.isFinite v && !Reading.isZero v

theorem isDefinite_iff {v : β} :
    isDefinite v = true ↔ Reading.isFinite v = true ∧ Reading.isZero v = false := by
  rw [isDefinite, Bool.and_eq_true, Bool.not_eq_true']

theorem isNegative_of_isDefinite [SignedReading β] {v : β} (h : isDefinite v = true) :
    Reading.isNegative v = !Reading.isPositive v :=
  SignedReading.isNegative_eq (isDefinite_iff.mp h).1 (isDefinite_iff.mp h).2

end Definite

variable {α β : Type} [Coordinate α] [Reading β α]

/-! ## Cells -/

namespace Cell

/-- Whether all corners of a cell are positive, or all are negative. -/
def IsUniform (c : Cell α β) : Prop :=
  (∀ v ∈ c.corners, Reading.isPositive v = true) ∨ ∀ v ∈ c.corners, Reading.isNegative v = true

/-- The points that are sampled where saddles below a cell are split. -/
def probes (f : PlaneFunction α β) (levels : Nat) (c : Cell α β) : List (Point α) :=
  c.gather (fun _ => []) (fun _ => []) splitPoints f false levels

section Signs

variable [SignedReading β] {f : PlaneFunction α β} {c q : Cell α β}

omit [Coordinate α] in
/-- A cell with definite corners is empty when they have the same sign. -/
theorem isEmpty_iff_isUniform (hdefinite : ∀ v ∈ c.corners, isDefinite v = true) :
    c.isEmpty = true ↔ c.IsUniform := by
  have hsign : ∀ v ∈ c.corners, Reading.isNegative v = !Reading.isPositive v :=
    fun v hv => isNegative_of_isDefinite (hdefinite v hv)
  have hnegative : (∀ v ∈ c.corners, Reading.isNegative v = true) ↔
      ∀ v ∈ c.corners, Reading.isPositive v = false :=
    forall₂_congr fun v hv => by rw [hsign v hv, Bool.not_eq_true']
  rw [isEmpty_iff (fun v hv => (isDefinite_iff.mp (hdefinite v hv)).1)
    (fun v hv => (isDefinite_iff.mp (hdefinite v hv)).2) hsign, IsUniform, hnegative]
  simp only [corners, List.forall_mem_cons, code]
  cases Reading.isPositive c.nw <;> cases Reading.isPositive c.ne <;>
    cases Reading.isPositive c.se <;> cases Reading.isPositive c.sw <;> simp

omit [Coordinate α] in
/-- A cell with definite corners, two of which have different signs, is not empty. -/
theorem isEmpty_eq_false_of_ne (hdefinite : ∀ v ∈ c.corners, isDefinite v = true) {v w : β}
    (hv : v ∈ c.corners) (hw : w ∈ c.corners)
    (hne : Reading.isPositive v ≠ Reading.isPositive w) : c.isEmpty = false := by
  rw [Bool.eq_false_iff, ne_eq, isEmpty_iff_isUniform hdefinite]
  rintro (h | h)
  · exact hne ((h v hv).trans (h w hw).symm)
  · have hsign : ∀ u ∈ c.corners, Reading.isPositive u = false := by
      intro u hu
      have hu' := h u hu
      rwa [isNegative_of_isDefinite (hdefinite u hu), Bool.not_eq_true'] at hu'
    exact hne ((hsign v hv).trans (hsign w hw).symm)

omit [Coordinate α] [SignedReading β] in
/-- In a saddle the corners on the left have different signs. -/
theorem isPositive_ne_of_saddle (h : connections? c.code = none) :
    Reading.isPositive c.nw ≠ Reading.isPositive c.sw := by
  revert h
  unfold code
  cases Reading.isPositive c.nw <;> cases Reading.isPositive c.ne <;>
    cases Reading.isPositive c.se <;> cases Reading.isPositive c.sw <;> decide

omit [SignedReading β] in
/-- One of the quarters on the left of a saddle has corners of different signs. -/
theorem exists_quarter_of_saddle (hf : f.Elementwise) (hsaddle : connections? c.code = none) :
    ∃ q ∈ c.split f, ∃ v ∈ q.corners, ∃ w ∈ q.corners,
      Reading.isPositive v ≠ Reading.isPositive w := by
  rw [split_eq hf]
  -- the middle is a corner of both, and differs in its sign from one of the corners on the left
  by_cases hmiddle : Reading.isPositive (f.sampleAt c.center) = Reading.isPositive c.nw
  · refine ⟨_, List.mem_cons_self, f.sampleAt c.center, by simp [corners], c.sw,
      by simp [corners], ?_⟩
    rw [hmiddle]
    exact isPositive_ne_of_saddle hsaddle
  · refine ⟨_, List.mem_cons_of_mem _ (List.mem_cons_of_mem _ (List.mem_cons_of_mem _
      List.mem_cons_self)), f.sampleAt c.center, by simp [corners], c.nw, by simp [corners],
      hmiddle⟩

omit [SignedReading β] in
/-- The corners of the quarters are the corners of the cell and the split points. -/
theorem forall_corners_of_mem_split {P : β → Prop} (hf : f.Elementwise)
    (hcorners : ∀ v ∈ c.corners, P v) (hpoints : ∀ p ∈ c.splitPoints, P (f.sampleAt p))
    (hq : q ∈ c.split f) : ∀ v ∈ q.corners, P v := by
  simp only [splitPoints, List.forall_mem_cons] at hpoints
  obtain ⟨hbottom, hright, htop, hleft, hmiddle, -⟩ := hpoints
  simp only [corners, List.forall_mem_cons] at hcorners
  obtain ⟨hnw, hne, hse, hsw, -⟩ := hcorners
  rw [split_eq hf] at hq
  simp only [quarters, List.mem_cons, List.not_mem_nil, or_false] at hq
  rcases hq with rfl | rfl | rfl | rfl <;> simp only [corners, List.forall_mem_cons, *] <;> simp

omit [SignedReading β] in
/-- A cell that is not split emits a segment if some of its corners are positive and some are
not. -/
theorem emission_ne_nil (hcode : ¬(c.code = 0 ∨ c.code = 15)) : c.emission f ≠ [] := by
  have hpairs : ∀ code < 16, ¬(code = 0 ∨ code = 15) → ∀ positive,
      (connections? code).getD (saddleConnections code positive) ≠ [] := by decide
  rw [emission, segments, ne_eq, List.map_eq_nil_iff]
  exact hpairs c.code c.code_lt hcode _

/-- Below a cell that is not empty something is found, where all samples are definite. -/
theorem found_ne_nil (hf : f.Elementwise) {levels : Nat} (hempty : c.isEmpty = false)
    (hcorners : ∀ v ∈ c.corners, isDefinite v = true)
    (hprobes : ∀ p ∈ c.probes f levels, isDefinite (f.sampleAt p) = true) :
    c.found f false levels ≠ [] := by
  have hself : ∀ {c : Cell α β}, c.isEmpty = false → (∀ v ∈ c.corners, isDefinite v = true) →
      c.emission f ≠ [] := by
    intro c hempty hcorners
    refine emission_ne_nil fun hcode => ?_
    rw [(isEmpty_iff (fun v hv => (isDefinite_iff.mp (hcorners v hv)).1)
      (fun v hv => (isDefinite_iff.mp (hcorners v hv)).2)
      fun v hv => isNegative_of_isDefinite (hcorners v hv)).mpr hcode] at hempty
    cases hempty
  simp only [found_eq_flatMap_emission, emitters]
  rw [probes] at hprobes
  induction levels, c using refinement_induction with
  | plain levels c edges hplain =>
    rw [gather_of_connections? hplain, List.flatMap_singleton]
    exact hself hempty hcorners
  | last c hsaddle =>
    rw [gather_zero hsaddle, if_neg Bool.false_ne_true, List.flatMap_singleton]
    exact hself hempty hcorners
  | divided levels c hsaddle ih =>
    -- one of the quarters is not empty, and the same goes for it
    rw [gather_succ hsaddle, List.forall_mem_append] at hprobes
    obtain ⟨hsplit, hbelow⟩ := hprobes
    obtain ⟨q, hq, v, hv, w, hw, hne⟩ := exists_quarter_of_saddle hf hsaddle
    have hdefinite := forall_corners_of_mem_split hf hcorners hsplit hq
    have hfilled : q.isEmpty = false := isEmpty_eq_false_of_ne hdefinite hv hw hne
    have hoccupied : q ∈ occupied (c.split f) := mem_occupied.mpr ⟨hq, hfilled⟩
    have hquarter := ih q hfilled hdefinite fun p hp =>
      hbelow p (List.mem_flatMap.mpr ⟨q, hoccupied, hp⟩)
    obtain ⟨g, hg⟩ := List.exists_mem_of_ne_nil _ hquarter
    rw [gather_succ hsaddle, List.nil_append, List.flatMap_assoc]
    exact List.ne_nil_of_mem (List.mem_flatMap.mpr ⟨q, hoccupied, hg⟩)

end Signs

/-! ### What a cell of the raster passes on -/

/-- The segments that a cell of the raster passes on: those that the first pass finds in it, and
those that the second one finds in its saddles that were put off. -/
def passed (f : PlaneFunction α β) (o : TracerOptions α) (c : Cell α β) :
    List (Point α × Point α) :=
  let shallow := o.shallowDepth.toNat
  let deep := o.maxDepth.toNat
  if c.isEmpty then []
  else c.found f (shallow < deep) shallow ++
    (c.deferred f (shallow < deep) shallow).flatMap (found f false (deep - shallow))

/-- What is found below a cell in two steps is found in one. -/
theorem found_append_deferred (f : PlaneFunction α β) {defers : Bool} (levels : Nat) {rest : Nat}
    (hrest : defers = false → rest = 0) (c : Cell α β) :
    (c.found f defers levels ++ (c.deferred f defers levels).flatMap (found f false rest)).Perm
      (c.found f false (levels + rest)) := by
  have hemitters : (c.emitters f defers levels ++
      (c.deferred f defers levels).flatMap (emitters f false rest)).Perm
        (c.emitters f false (levels + rest)) := gather_append_deferred _ _ _ f levels hrest c
  simp only [found_eq_flatMap_emission]
  rw [← List.flatMap_assoc, ← List.flatMap_append]
  exact hemitters.flatMap_right _

theorem passed_perm_found (f : PlaneFunction α β) {o : TracerOptions α} {c : Cell α β}
    (horder : o.shallowDepth ≤ o.maxDepth) (hc : c.isEmpty = false) :
    (c.passed f o).Perm (c.found f false o.maxDepth.toNat) := by
  have hle : o.shallowDepth.toNat ≤ o.maxDepth.toNat := Int.toNat_le_toNat horder
  have hrest := rest_eq_zero o.shallowDepth.toNat o.maxDepth.toNat
  have hboth := c.found_append_deferred f o.shallowDepth.toNat hrest
  rw [Nat.add_sub_cancel' hle] at hboth
  rwa [passed, if_neg (by rw [hc]; exact Bool.false_ne_true)]

/-- Each segment that is passed on lies in the cell or in a sub-cell, between connected edges. -/
theorem exists_of_mem_passed {f : PlaneFunction α β} {o : TracerOptions α} {c : Cell α β}
    {g : Point α × Point α} (hg : g ∈ c.passed f o) :
    ∃ q, Within f c q ∧ q.isEmpty = false ∧ ∃ positive, g ∈ q.segments (q.pairs positive) := by
  rw [passed] at hg
  cases hempty : c.isEmpty with
  | true =>
    rw [hempty, if_pos rfl] at hg
    cases hg
  | false =>
    rw [hempty, if_neg Bool.false_ne_true] at hg
    obtain hg | hg := List.mem_append.mp hg
    · exact exists_of_mem_found hempty hg
    · obtain ⟨d, hd, hg⟩ := List.mem_flatMap.mp hg
      obtain ⟨hwithin, hd⟩ := within_of_mem_deferred hempty hd
      obtain ⟨q, hq, hrest⟩ := exists_of_mem_found hd hg
      exact ⟨q, hwithin.trans hq, hrest⟩

end Cell

/-! ## Requests -/

omit [Coordinate α] in
/-- What is taken from the cells that are not empty. -/
theorem Cell.flatMap_occupied {γ : Type} (take : Cell α β → List γ) (cells : List (Cell α β)) :
    (occupied cells).flatMap take = cells.flatMap fun c => if c.isEmpty then [] else take c := by
  induction cells with
  | nil => rfl
  | cons c cells ih =>
    have hcons : occupied (c :: cells) =
        if c.isEmpty then occupied cells else c :: occupied cells := by
      cases hc : c.isEmpty <;> simp [occupied, hc]
    rw [hcons, List.flatMap_cons, ← ih]
    cases c.isEmpty <;> rfl

namespace TraceRequest

/-- The saddles that are not split any further: the values in their middles decide. -/
def saddles (r : TraceRequest α β) (o : TracerOptions α) (columns rows : Nat) : List (Cell α β) :=
  (r.emitters o columns rows).filter fun c => (Cell.connections? c.code).isNone

/-- All points that a trace samples: the corners of the raster, the points where saddles are split,
and the middles of those that are not. -/
def points (r : TraceRequest α β) (o : TracerOptions α) (columns rows : Nat) : List (Point α) :=
  r.domain.corners columns rows ++
    r.gather (fun _ => []) (fun _ => []) Cell.splitPoints o columns rows ++
    (r.saddles o columns rows).map Cell.center

/-- The segments that a trace stitches are those that the cells of the raster pass on. -/
theorem found_perm_passed (r : TraceRequest α β) (o : TracerOptions α) (columns rows : Nat) :
    (r.found o columns rows).Perm
      ((r.domain.cells columns rows r.function).flatMap (Cell.passed r.function o)) := by
  rw [found, List.flatMap_assoc]
  refine (List.flatMap_append_perm _ _ _).trans ?_
  rw [Cell.flatMap_occupied]
  rfl

/-- The corners of the cells of a raster are sampled. -/
theorem forall_corners_of_mem_cells {P : β → Prop} {r : TraceRequest α β}
    (hf : r.function.Elementwise) {columns rows : Nat}
    (hcorners : ∀ p ∈ r.domain.corners columns rows, P (r.function.sampleAt p))
    {c : Cell α β} (hc : c ∈ r.domain.cells columns rows r.function) : ∀ v ∈ c.corners, P v := by
  have hfaithful := faithful_of_mem_cells hf hc
  obtain ⟨i, hi, j, hj, rfl⟩ := mem_cells.mp hc
  have hcorner : ∀ i ≤ columns, ∀ j ≤ rows,
      P (r.function.sampleAt (r.domain.corner columns rows i j)) := by
    intro i hi j hj
    refine hcorners _ (List.mem_flatMap.mpr ⟨j, List.mem_range.mpr (by omega), ?_⟩)
    exact List.mem_map.mpr ⟨i, List.mem_range.mpr (by omega), rfl⟩
  simp only [Cell.corners, List.forall_mem_cons]
  rw [hfaithful.nw, hfaithful.ne, hfaithful.se, hfaithful.sw]
  exact ⟨hcorner i hi.le (j + 1) hj, hcorner (i + 1) hi (j + 1) hj, hcorner (i + 1) hi j hj.le,
    hcorner i hi.le j hj.le, fun v hv => absurd hv List.not_mem_nil⟩

/-- A cell of the raster passes a segment on when its corners differ in their signs. -/
theorem passed_ne_nil_iff [SignedReading β] {r : TraceRequest α β} {o : TracerOptions α}
    (hf : r.function.Elementwise) (horder : o.shallowDepth ≤ o.maxDepth) {columns rows : Nat}
    (hpoints : ∀ p ∈ r.points o columns rows, isDefinite (r.function.sampleAt p) = true)
    {c : Cell α β} (hc : c ∈ r.domain.cells columns rows r.function) :
    c.passed r.function o ≠ [] ↔ ¬c.IsUniform := by
  rw [points, List.forall_mem_append, List.forall_mem_append] at hpoints
  obtain ⟨⟨hcorners, hbelow⟩, -⟩ := hpoints
  have hdefinite : ∀ v ∈ c.corners, isDefinite v = true :=
    forall_corners_of_mem_cells hf hcorners hc
  rw [← Cell.isEmpty_iff_isUniform hdefinite, Bool.not_eq_true]
  constructor
  · intro hpassed
    refine Bool.eq_false_iff.mpr fun hempty => hpassed ?_
    rw [Cell.passed, hempty, if_pos rfl]
  · intro hempty hnil
    -- what both passes find in the cell is what one deep pass finds, and sampling goes alike
    refine Cell.found_ne_nil hf hempty hdefinite (fun p hp => hbelow p ?_)
      ((Cell.passed_perm_found r.function horder hempty).symm.trans (.of_eq hnil)).eq_nil
    refine (r.gather_perm _ _ _ horder columns rows).symm.subset ?_
    exact List.mem_flatMap.mpr ⟨c, Cell.mem_occupied.mpr ⟨hc, hempty⟩, hp⟩

end TraceRequest

/-! ## Exact arithmetic -/

/-- The rectangle of a cell. -/
def Cell.rectangle (c : Cell α β) : Domain α := ⟨c.x0, c.x1, c.y0, c.y1⟩

section Exact

variable {K : Type} [Field K] [LinearOrder K] [IsStrictOrderedRing K]

/-- An even way from one number to another stays between bounds of both. -/
theorem along_mem {lo hi a b s : K} (ha : lo ≤ a ∧ a ≤ hi) (hb : lo ≤ b ∧ b ≤ hi) (h0 : 0 ≤ s)
    (h1 : s ≤ 1) : lo ≤ a + s * (b - a) ∧ a + s * (b - a) ≤ hi := by
  have hsum : a + s * (b - a) = (1 - s) * a + s * b := by ring
  have hrest : 0 ≤ 1 - s := sub_nonneg.mpr h1
  rw [hsum]
  constructor
  · calc lo = (1 - s) * lo + s * lo := by ring
      _ ≤ (1 - s) * a + s * b := by gcongr <;> [exact ha.1; exact hb.1]
  · calc (1 - s) * a + s * b ≤ (1 - s) * hi + s * hi := by gcongr <;> [exact ha.2; exact hb.2]
      _ = hi := by ring

/-- A rectangle that holds two points holds the way between them. -/
theorem Domain.Contains.along {d : Domain K} {p q : Point K} (hp : d.Contains p)
    (hq : d.Contains q) {s : K} (h0 : 0 ≤ s) (h1 : s ≤ 1) : d.Contains (p.along q s) :=
  ⟨along_mem hp.1 hq.1 h0 h1, along_mem hp.2 hq.2 h0 h1⟩

variable [FloorRing K]

/-- A segment that a cell passes on lies in its rectangle. -/
theorem Cell.contains_of_mem_passed {f : PlaneFunction K (Option K)} {o : TracerOptions K}
    {c : Cell K (Option K)} (hf : f.Elementwise) (hfaithful : c.Faithful f) (hx : c.x0 < c.x1)
    (hy : c.y0 < c.y1) {g : Point K × Point K} (hg : g ∈ c.passed f o) {s : K} (h0 : 0 ≤ s)
    (h1 : s ≤ 1) : c.rectangle.Contains (g.1.along g.2 s) := by
  obtain ⟨q, hwithin, hempty, positive, hg⟩ := exists_of_mem_passed hg
  obtain ⟨⟨a, b⟩, hab, rfl⟩ := List.mem_map.mp hg
  have hself : c.Inside c.rectangle := ⟨le_rfl, hx, le_rfl, le_rfl, hy, le_rfl⟩
  have hinside := hself.within hf hwithin
  -- a crossing lies on an edge of the sub-cell, and a segment between two of them
  have hedge : ∀ k, q.isCrossed k = true → c.rectangle.Contains (q.edgePoint k) := by
    intro k hk
    have hwitness := witnesses_of_isCrossed (hfaithful.within hf hwithin) hempty hk
    obtain ⟨-, -, -, -, -, -, -, s, h0, h1, hpoint, -⟩ := hwitness.signChange
    exact hpoint ▸ hinside.contains_along k h0 h1
  obtain ⟨ha, hb⟩ := isCrossed_of_mem_pairs hab
  exact (hedge a ha).along (hedge b hb) h0 h1

end Exact

/-! ## Traces -/

/-- No cell that a contour crosses is missed, and none passes on what lies elsewhere.  The segments
of a trace are those that the cells of the raster pass on.  Where all samples are finite and not
zero, a cell passes a segment on exactly if its corners differ in their signs; in exact arithmetic
all that it passes on lies in its rectangle. -/
theorem Tracer.crossing_cells :
    (∀ {α β : Type} [Coordinate α] [Reading β α] [SignedReading β] (t : Tracer α β)
      (r : TraceRequest α β) (columns rows : Nat), t.options.shallowDepth ≤ t.options.maxDepth →
      r.function.Elementwise →
      (∀ p ∈ r.points t.options columns rows, isDefinite (r.function.sampleAt p) = true) →
      (t.passes r columns rows).segments.Perm
        ((r.domain.cells columns rows r.function).flatMap (Cell.passed r.function t.options)) ∧
      ∀ c ∈ r.domain.cells columns rows r.function, c.Faithful r.function ∧
        (c.passed r.function t.options ≠ [] ↔ ¬c.IsUniform)) ∧
    ∀ {K : Type} [Field K] [LinearOrder K] [IsStrictOrderedRing K] [FloorRing K]
      (t : Tracer K (Option K)) (r : TraceRequest K (Option K)) (columns rows : Nat),
      r.domain.isProper = true → r.function.Elementwise →
      ∀ c ∈ r.domain.cells columns rows r.function, ∀ g ∈ c.passed r.function t.options,
        ∀ s, 0 ≤ s → s ≤ 1 → c.rectangle.Contains (g.1.along g.2 s) := by
  constructor
  · intro α β _ _ _ t r columns rows horder hf hpoints
    have hpassed := r.found_perm_passed t.options columns rows
    rw [← t.passes_found] at hpassed
    exact ⟨hpassed, fun c hc =>
      ⟨faithful_of_mem_cells hf hc, TraceRequest.passed_ne_nil_iff hf horder hpoints hc⟩⟩
  · intro K _ _ _ _ t r columns rows hdomain hf c hc g hg s h0 h1
    obtain ⟨hx, hy⟩ := isProper_iff.mp hdomain
    have hinside := inside_of_mem_cells hx hy hc
    have hfaithful := faithful_of_mem_cells hf hc
    exact Cell.contains_of_mem_passed hf hfaithful hinside.x0_lt hinside.y0_lt hg h0 h1

/-- A hyperbola in one cell, which is a saddle: its left corners differ in their signs. -/
theorem Tracer.crossing_cells_hyperbola :
    let t : Tracer ℚ (Option ℚ) := ⟨{ tolerance := 1 / 100, fastGrid := 1 }, ⟨0, 0, #[]⟩, false⟩
    let r : TraceRequest ℚ (Option ℚ) :=
      { function := .ofTotal fun p => some (p.x * p.y - 1 / 9), domain := ⟨-1, 1, -1, 1⟩,
        fast := true }
    ∀ c ∈ r.domain.cells 1 1 r.function, c.passed r.function t.options ≠ [] ∧
      ∀ g ∈ c.passed r.function t.options, c.rectangle.Contains g.1 := by
  intro t r c hc
  have hf : r.function.Elementwise := PlaneFunction.elementwise_ofTotal _
  obtain ⟨-, hcells⟩ :=
    Tracer.crossing_cells.1 t r 1 1 (by decide) hf (by decide +kernel)
  obtain ⟨-, hpassed⟩ := hcells c hc
  have hcorners : ∀ c ∈ r.domain.cells 1 1 r.function,
      Reading.isPositive c.nw = false ∧ Reading.isNegative c.sw = false := by decide +kernel
  refine ⟨hpassed.mpr fun h => ?_, fun g hg => ?_⟩
  · obtain ⟨hnw, hsw⟩ := hcorners c hc
    rcases h with h | h
    · exact absurd (h c.nw (by simp [Cell.corners])) (by rw [hnw]; exact Bool.false_ne_true)
    · exact absurd (h c.sw (by simp [Cell.corners])) (by rw [hsw]; exact Bool.false_ne_true)
  · have hproper : r.domain.isProper = true := by decide +kernel
    have hstart := Tracer.crossing_cells.2 t r 1 1 hproper hf c hc g hg 0 le_rfl zero_le_one
    simpa [Point.along] using hstart

/-- Doubles round: the cell from `-10 ^ 8` to `8 · 10 ^ (-9)` passes on a segment to the right of
it. -/
theorem Tracer.passed_outside_rectangle :
    let t : Tracer Float Float := ⟨{ TracerOptions.usual with fastGrid := 1 }, ⟨0, 0, #[]⟩, false⟩
    let r : TraceRequest Float Float :=
      { function := .ofTotal fun p => -(p.x * (p.x * p.x)), domain := ⟨-1e8, 8e-9, 0, 1⟩,
        fast := true }
    t.gridShape r.resolution r.fast = .ok (1, 1) ∧ r.domain.isProper = true ∧
      r.function.Elementwise ∧
      (∀ p ∈ r.points t.options 1 1, isDefinite (r.function.sampleAt p) = true) ∧
      ∃ c ∈ r.domain.cells 1 1 r.function, ∃ g ∈ c.passed r.function t.options, c.x1 < g.1.x :=
  ⟨rfl, by decide +kernel, PlaneFunction.elementwise_ofTotal _, by decide +kernel,
    by decide +kernel⟩

end Graphing.Contour
