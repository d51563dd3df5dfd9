/-
  Graphing.Proofs.Contour.Pointwise

  A batch is sampled point by point.

  There are two ways through a batch.  A single call either fails as a whole or
  has, for a function that works element by element, the value of each point at
  its index; the loop over the points catches each failure where it happens.
  Both leave the same samples (`IsSample`), which depend on the point alone, so
  that a point has the same sample in every batch of any shape.

  The lists of points that a contour is traced with are such batches
  (`sample_onShapes`).
-/
import Graphing.Contour.Batch
import Graphing.Proofs.Contour.Exact
import Graphing.Proofs.Contour.SignChange
import Graphing.Proofs.Evaluation.Broadcast

namespace Graphing.Contour

variable {ε α β : Type} {xs ys : Tensor α}

/-! ## Batches -/

/-- Two arrays with the coordinates of the same points. -/
structure IsBatch (xs ys : Tensor α) : Prop where
  full_left : xs.IsFull
  full_right : ys.IsFull
  shape_eq : ys.shape = xs.shape

/-- There is a point at each index of a batch. -/
theorem IsBatch.exists_point (h : IsBatch xs ys) {i : Nat} (hi : i < Tensor.volume xs.shape) :
    ∃ x y, xs.data[i]? = some x ∧ ys.data[i]? = some y := by
  have hx : i < xs.data.size := by rwa [h.full_left]
  have hy : i < ys.data.size := by rwa [h.full_right, h.shape_eq]
  exact ⟨xs.data[i], ys.data[i], Array.getElem?_eq_getElem hx, Array.getElem?_eq_getElem hy⟩

theorem IsBatch.lt_volume (h : IsBatch xs ys) {i : Nat} {x : α} (hx : xs.data[i]? = some x) :
    i < Tensor.volume xs.shape := by
  rw [← h.full_left]
  exact (Array.getElem?_eq_some_iff.mp hx).1

/-- Results for all indices below a bound, if there is one for each of them. -/
theorem getElem?_of_mapM_range {f : Nat → Option β} {n : Nat} {vs : List β}
    (h : (List.range n).mapM f = some vs) : vs.length = n ∧ ∀ i < n, vs[i]? = f i := by
  induction n generalizing vs with
  | zero =>
    cases h
    exact ⟨rfl, fun i hi => absurd hi (Nat.not_lt_zero i)⟩
  | succ n ih =>
    rw [List.range_succ, List.mapM_append] at h
    obtain ⟨front, hfront, h⟩ := Option.bind_eq_some_iff.mp h
    obtain ⟨last, hlast, h⟩ := Option.bind_eq_some_iff.mp h
    cases h
    rw [List.mapM_cons, List.mapM_nil] at hlast
    obtain ⟨v, hv, hlast⟩ := Option.bind_eq_some_iff.mp hlast
    cases hlast
    obtain ⟨hlength, hget⟩ := ih hfront
    refine ⟨by simp [hlength], fun i hi => ?_⟩
    rcases Nat.lt_succ_iff_lt_or_eq.mp hi with hlt | rfl
    · rw [List.getElem?_append_left (by omega), hget i hlt]
    · rw [List.getElem?_append_right (by omega), hlength, Nat.sub_self, hv]
      rfl

/-- An answer that fits is repeated to the shape. -/
theorem repeatTo_eq_ok {shape : List Nat} {t u : Tensor β}
    (h : (repeatTo shape t : Except (BatchError ε) (Tensor β)) = .ok u) :
    u.shape = shape ∧ u.IsFull ∧ ∀ i < Tensor.volume shape, u.data[i]? = t.at? shape i := by
  unfold repeatTo at h
  split at h
  · split at h
    · rename_i data hdata
      cases h
      rw [Array.mapM_eq_mapM_toList, Array.toList_range] at hdata
      obtain ⟨vs, hvs, rfl⟩ := Option.map_eq_some_iff.mp hdata
      obtain ⟨hlength, hget⟩ := getElem?_of_mapM_range hvs
      refine ⟨rfl, hlength, fun i hi => ?_⟩
      rw [List.getElem?_toArray, hget i hi]
    · cases h
  · cases h

namespace ArrayFunction

variable {f : ArrayFunction ε α β}

/-- A function works element by element: called with the arrays of a batch it fails, or its answer
has at each index the value of the point there. -/
def Elementwise (f : ArrayFunction ε α β) : Prop :=
  ∀ xs ys, IsBatch xs ys → ∀ t, f.onArrays xs ys = .ok t →
    ∀ (i : Nat) (x y : α), xs.data[i]? = some x → ys.data[i]? = some y →
      ∃ v, f.onNumbers x y = .ok v ∧ t.at? xs.shape i = some v

/-! ## The two ways through a batch -/

/-- What a single call comes to has the value of each point at its index. -/
theorem Elementwise.atOnce_eq_ok (hf : f.Elementwise) (hb : IsBatch xs ys) {u : Tensor β}
    (h : f.atOnce xs ys = .ok u) :
    u.shape = xs.shape ∧ u.IsFull ∧
      ∀ (i : Nat) (x y : α), xs.data[i]? = some x → ys.data[i]? = some y →
        ∃ v, f.onNumbers x y = .ok v ∧ u.data[i]? = some v := by
  obtain ⟨t, ht, hu⟩ := Except.bind_eq_ok.mp h
  have ht := Except.eq_ok_of_mapError ht
  obtain ⟨hshape, hfull, hget⟩ := repeatTo_eq_ok hu
  refine ⟨hshape, hfull, fun i x y hx hy => ?_⟩
  rw [hget i (hb.lt_volume hx)]
  exact hf xs ys hb t ht i x y hx hy

theorem callAt_eq {i : Nat} {x y : α} (hx : xs.data[i]? = some x) (hy : ys.data[i]? = some y) :
    f.callAt xs ys i = (f.onNumbers x y).mapError .call := by
  unfold callAt coordinateAt
  rw [hx, hy]
  rfl

variable [Reading β α]

/-- The value at one point of a batch, undefined if there is none. -/
def valueAt (f : ArrayFunction ε α β) (xs ys : Tensor α) (i : Nat) : β :=
  match f.callAt xs ys i with
  | .ok v => v
  | .error _ => Reading.undefined

/-- The loop over the points of a batch never fails. -/
theorem pointByPoint_eq (f : ArrayFunction ε α β) (xs ys : Tensor α) :
    f.pointByPoint xs ys = .ok (.generate xs.shape (f.valueAt xs ys)) := by
  have hcaught : (fun i => tryCatch (f.callAt xs ys i)
      fun _ : BatchError ε => pure Reading.undefined) = fun i => pure (f.valueAt xs ys i) := by
    funext i
    unfold valueAt
    cases f.callAt xs ys i <;> rfl
  unfold pointByPoint
  rw [hcaught, Array.mapM_pure]
  rfl

/-! ## Samples -/

/-- What the sample at a point is: the value there if it is finite, and undefined otherwise. -/
inductive IsSample (f : ArrayFunction ε α β) (x y : α) : β → Prop
  | finite {v : β} (called : f.onNumbers x y = .ok v) (finite : Reading.isFinite v = true) :
      IsSample f x y v
  | notFinite {v : β} (called : f.onNumbers x y = .ok v) (notFinite : Reading.isFinite v = false) :
      IsSample f x y Reading.undefined
  | failed {e : ε} (called : f.onNumbers x y = .error e) : IsSample f x y Reading.undefined

/-- The sample at a point. -/
def sampleOf (f : ArrayFunction ε α β) (x y : α) : β :=
  match f.onNumbers x y with
  | .ok v => settle v
  | .error _ => Reading.undefined

/-- A point has one sample. -/
theorem isSample_iff {x y : α} {v : β} : f.IsSample x y v ↔ v = f.sampleOf x y := by
  unfold sampleOf
  constructor
  · intro h
    cases h with
    | finite called finite =>
      rw [called]
      exact (if_pos finite).symm
    | notFinite called notFinite =>
      rw [called]
      exact (if_neg (Bool.eq_false_iff.mp notFinite)).symm
    | failed called => rw [called]
  · rintro rfl
    cases called : f.onNumbers x y with
    | error e => exact .failed called
    | ok v =>
      dsimp only [settle]
      split
      · exact .finite called ‹_›
      · exact .notFinite called (Bool.eq_false_iff.mpr ‹_›)

/-- Whatever is left where the loop has a failure, its samples are those of the points. -/
theorem settle_valueAt {i : Nat} {x y : α} (hx : xs.data[i]? = some x)
    (hy : ys.data[i]? = some y) : settle (f.valueAt xs ys i) = f.sampleOf x y := by
  unfold valueAt sampleOf
  rw [callAt_eq hx hy]
  cases f.onNumbers x y with
  | ok v => rfl
  | error e => exact ite_self _

/-- A batch has samples, those of its points. -/
theorem Elementwise.exists_sample (hf : f.Elementwise) (hb : IsBatch xs ys) :
    ∃ t : Tensor β, f.sample xs ys = .ok t ∧ t.shape = xs.shape ∧ t.IsFull ∧
      ∀ (i : Nat) (x y : α), xs.data[i]? = some x → ys.data[i]? = some y →
        ∃ v, t.data[i]? = some v ∧ f.IsSample x y v := by
  unfold sample
  cases honce : f.atOnce xs ys with
  | ok u =>
    obtain ⟨hshape, hfull, hget⟩ := hf.atOnce_eq_ok hb honce
    refine ⟨u.map settle, rfl, hshape, (Array.size_map ..).trans hfull, fun i x y hx hy => ?_⟩
    obtain ⟨v, hv, hu⟩ := hget i x y hx hy
    refine ⟨settle v, ?_, isSample_iff.mpr ?_⟩
    · rw [Tensor.map, Array.getElem?_map, hu]
      rfl
    · rw [sampleOf, hv]
  | error e =>
    refine ⟨(Tensor.generate xs.shape (f.valueAt xs ys)).map settle, ?_, rfl,
      (Array.size_map ..).trans (Tensor.size_generate ..), fun i x y hx hy => ?_⟩
    · exact congrArg (· >>= fun values => pure (values.map settle)) (f.pointByPoint_eq xs ys)
    · refine ⟨settle (f.valueAt xs ys i), ?_, isSample_iff.mpr (settle_valueAt hx hy)⟩
      rw [Tensor.map, Array.getElem?_map, Tensor.data_generate _ _ _ (hb.lt_volume hx)]
      rfl

/-- A batch of any shape is sampled without fail, and has at each index the sample of the point
there.  So points have the same sample in any two batches, at any indices. -/
theorem sample_pointwise (hf : f.Elementwise) :
    (∀ xs ys : Tensor α, IsBatch xs ys →
      ∃ t : Tensor β, f.sample xs ys = .ok t ∧ t.shape = xs.shape ∧ t.IsFull ∧
        ∀ (i : Nat) (x y : α), xs.data[i]? = some x → ys.data[i]? = some y →
          ∃ v, t.data[i]? = some v ∧ f.IsSample x y v) ∧
    ∀ (xs ys xs' ys' : Tensor α) (t t' : Tensor β), IsBatch xs ys → IsBatch xs' ys' →
      f.sample xs ys = .ok t → f.sample xs' ys' = .ok t' →
      ∀ (i j : Nat) (x y : α), xs.data[i]? = some x → ys.data[i]? = some y →
        xs'.data[j]? = some x → ys'.data[j]? = some y → t.data[i]? = t'.data[j]? := by
  refine ⟨fun xs ys hb => hf.exists_sample hb, ?_⟩
  intro xs ys xs' ys' t t' hb hb' ht ht' i j x y hx hy hx' hy'
  obtain ⟨u, hu, -, -, hget⟩ := hf.exists_sample hb
  obtain ⟨u', hu', -, -, hget'⟩ := hf.exists_sample hb'
  obtain rfl := Except.ok.inj (ht.symm.trans hu)
  obtain rfl := Except.ok.inj (ht'.symm.trans hu')
  obtain ⟨v, hv, hsample⟩ := hget i x y hx hy
  obtain ⟨v', hv', hsample'⟩ := hget' j x y hx' hy'
  rw [hv, hv', isSample_iff.mp hsample, isSample_iff.mp hsample']

/-- A function that fails as a whole where its left coordinate is zero at one of the points. -/
def quotient : ArrayFunction Unit Rat (Option Rat) where
  onArrays xs ys :=
    if xs.data.any (· == 0) then .error ()
    else .ok ⟨xs.shape, Array.zipWith (fun x y => some (y / x)) xs.data ys.data⟩
  onNumbers x y := if x == 0 then .error () else .ok (some (y / x))

theorem elementwise_quotient : quotient.Elementwise := by
  intro xs ys hb t ht i x y hx hy
  rw [quotient] at ht ⊢
  dsimp only at ht ⊢
  split at ht
  · cases ht
  · rename_i hany
    cases ht
    have hne : ¬(x == 0) = true := by
      obtain ⟨hi, rfl⟩ := Array.getElem?_eq_some_iff.mp hx
      exact fun hzero => hany (Array.any_eq_true.mpr ⟨i, hi, hzero⟩)
    refine ⟨some (y / x), if_neg hne, ?_⟩
    rw [Tensor.at?_mk _ (hb.lt_volume hx), Array.getElem?_zipWith, hx, hy]

/-- Next to a point where the function fails, a column of two points has a value. -/
theorem sample_pointwise_column :
    quotient.Elementwise ∧ IsBatch (⟨[2, 1], #[0, 2]⟩ : Tensor Rat) ⟨[2, 1], #[3, 3]⟩ ∧
      ∃ t : Tensor (Option Rat), quotient.sample ⟨[2, 1], #[0, 2]⟩ ⟨[2, 1], #[3, 3]⟩ = .ok t ∧
        t.shape = [2, 1] ∧ t.data[0]? = some none ∧ t.data[1]? = some (some (3 / 2)) := by
  have hb : IsBatch (⟨[2, 1], #[0, 2]⟩ : Tensor Rat) ⟨[2, 1], #[3, 3]⟩ := ⟨rfl, rfl, rfl⟩
  refine ⟨elementwise_quotient, hb, ?_⟩
  obtain ⟨t, ht, hshape, -, hget⟩ := (sample_pointwise elementwise_quotient).1 _ _ hb
  obtain ⟨v, hv, hsample⟩ := hget 0 0 3 rfl rfl
  obtain ⟨w, hw, hsample'⟩ := hget 1 2 3 rfl rfl
  have hpole : quotient.onNumbers 0 3 = .error () := by simp [quotient]
  have hvalue : quotient.onNumbers 2 3 = .ok (some (3 / 2)) := by simp [quotient]
  rw [isSample_iff.mp hsample, sampleOf, hpole] at hv
  rw [isSample_iff.mp hsample', sampleOf, hvalue] at hw
  exact ⟨t, ht, hshape, hv, hw⟩

end ArrayFunction

/-! ## Lists of points -/

theorem getElem?_pointsOf {i : Nat} {x y : α} (hx : xs.data[i]? = some x)
    (hy : ys.data[i]? = some y) : (pointsOf xs ys)[i]? = some ⟨x, y⟩ := by
  unfold pointsOf
  rw [List.getElem?_zipWith, Array.getElem?_toList, Array.getElem?_toList, hx, hy]

theorem IsBatch.length_pointsOf (h : IsBatch xs ys) :
    (pointsOf xs ys).length = Tensor.volume xs.shape := by
  have hx : xs.data.size = Tensor.volume xs.shape := h.full_left
  have hy : ys.data.size = Tensor.volume xs.shape := h.shape_eq ▸ h.full_right
  simp [pointsOf, hx, hy]

namespace PlaneFunction

variable {f : PlaneFunction α β}

theorem elementwise_onShapes (hf : f.Elementwise) : f.onShapes.Elementwise := by
  intro xs ys hb t ht i x y hx hy
  simp only [PlaneFunction.onShapes] at ht
  split at ht
  · rename_i vs hvs
    cases ht
    have hmap := congrArg (·[i]?) (hf _ vs hvs)
    simp only [List.getElem?_map, getElem?_pointsOf hx hy, Option.map_some] at hmap
    obtain ⟨v, hv, hpoint⟩ := Option.map_eq_some_iff.mp hmap
    refine ⟨v, ?_, ?_⟩
    · rw [PlaneFunction.onShapes]
      dsimp only
      rw [← hpoint]
    · rwa [Tensor.at?_mk _ (hb.lt_volume hx), List.getElem?_toArray]
  · cases ht

variable [Reading β α]

theorem sampleOf_onShapes (f : PlaneFunction α β) (x y : α) :
    f.onShapes.sampleOf x y = f.sampleAt ⟨x, y⟩ := by
  unfold ArrayFunction.sampleOf sampleAt onShapes
  dsimp only
  cases f.onPoint ⟨x, y⟩ <;> rfl

/-- The samples of a list of points are those of a batch, in whatever shape. -/
theorem sample_onShapes (hf : f.Elementwise) (hb : IsBatch xs ys) :
    f.onShapes.sample xs ys = .ok ⟨xs.shape, (f.sample (pointsOf xs ys)).toArray⟩ := by
  obtain ⟨⟨shape, data⟩, ht, rfl, hfull, hget⟩ := (elementwise_onShapes hf).exists_sample hb
  rw [ht, hf.sample_eq]
  congr 2
  refine Array.ext_getElem? fun i => ?_
  by_cases hi : i < Tensor.volume xs.shape
  · obtain ⟨x, y, hx, hy⟩ := hb.exists_point hi
    obtain ⟨v, hv, hsample⟩ := hget i x y hx hy
    have hlist : ((pointsOf xs ys).map f.sampleAt).toArray[i]? = some (f.sampleAt ⟨x, y⟩) := by
      rw [List.getElem?_toArray, List.getElem?_map, getElem?_pointsOf hx hy]
      rfl
    rw [hlist, ← sampleOf_onShapes, ← ArrayFunction.isSample_iff.mp hsample]
    exact hv
  · have hsize : data.size = Tensor.volume xs.shape := hfull
    have hlength := hb.length_pointsOf
    rw [Array.getElem?_eq_none (by omega), Array.getElem?_eq_none (by simp; omega)]

end PlaneFunction
end Graphing.Contour
