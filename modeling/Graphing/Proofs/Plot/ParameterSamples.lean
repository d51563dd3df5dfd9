/-
  Graphing.Proofs.Plot.ParameterSamples

  The samples of a parameter over a range.

  In exact arithmetic the samples cover the range: they go up strictly from its
  lower end to its upper end, by the given step or a shorter last one, or they
  are equally spaced where there would be too many of them
  (`parameterSamples_covers`).

  How many there are is a matter of the arithmetic at hand.  The whole steps are
  counted before the upper end is added, so that there can be one sample more
  than a range is divided into, and there is in one case only
  (`length_parameterSamples`).  The integers of a range are counted with both
  ends (`length_integerSamples`).
-/
import Graphing.Plot.Sampling
import Graphing.Proofs.Contour.Exact
import Mathlib.Data.Rat.Floor

open Graphing.Contour

namespace Graphing.Plot

/-! ## Covered ranges -/

section Covering

variable {K : Type} [LinearOrder K] {lo hi t : K} {ts : List K}

/-- Samples that go up strictly from the lower end of a range to its upper end. -/
structure Covers (lo hi : K) (ts : List K) : Prop where
  increasing : ts.Pairwise (· < ·)
  first : ts.head? = some lo
  last : ts.getLast? = some hi
  within : ∀ t ∈ ts, lo ≤ t ∧ t ≤ hi

namespace Covers

theorem ne_nil (h : Covers lo hi ts) : ts ≠ [] := by
  rintro rfl
  exact absurd h.first (by simp)

/-- A range that is a single number has a single sample. -/
theorem eq_singleton (h : Covers lo lo ts) : ts = [lo] := by
  obtain ⟨rest, rfl⟩ := List.head?_eq_some_iff.mp h.first
  cases rest with
  | nil => rfl
  | cons b rest =>
    have hlt : lo < b := (List.pairwise_cons.mp h.increasing).1 b (by simp)
    exact absurd hlt (h.within b (by simp)).2.not_gt

/-- An upper end is added behind samples that end below it. -/
theorem append (h : Covers lo t ts) (hlt : t < hi) : Covers lo hi (ts ++ [hi]) := by
  refine ⟨List.pairwise_append.mpr ⟨h.increasing, List.pairwise_singleton _ _, ?_⟩, ?_,
    List.getLast?_concat, fun u hu => ?_⟩
  · intro a ha b hb
    rw [List.mem_singleton.mp hb]
    exact (h.within a ha).2.trans_lt hlt
  · rw [List.head?_append_of_ne_nil _ h.ne_nil, h.first]
  · rcases List.mem_append.mp hu with hu | hu
    · exact ⟨(h.within u hu).1, (h.within u hu).2.trans hlt.le⟩
    · rw [List.mem_singleton.mp hu]
      have hlo : lo ∈ ts := List.mem_of_mem_head? h.first
      exact ⟨(h.within lo hlo).2.trans hlt.le, le_rfl⟩

/-- Samples by a function of their numbers that goes up strictly. -/
theorem of_range {f : Nat → K} {n : Nat} (hf : ∀ i j, i < j → j ≤ n → f i < f j) :
    Covers (f 0) (f n) ((List.range (n + 1)).map f) := by
  have hle : ∀ i j, i ≤ j → j ≤ n → f i ≤ f j := fun i j hij hj => by
    rcases hij.eq_or_lt with rfl | hlt
    · exact le_rfl
    · exact (hf i j hlt hj).le
  refine ⟨?_, ?_, ?_, fun u hu => ?_⟩
  · rw [List.pairwise_map]
    refine (List.pairwise_lt_range).imp_of_mem fun {i j} _ hj hij => ?_
    exact hf i j hij (Nat.lt_succ_iff.mp (List.mem_range.mp hj))
  · rw [List.range_succ_eq_map, List.map_cons, List.head?_cons]
  · rw [List.range_succ, List.map_append, List.map_singleton, List.getLast?_concat]
  · obtain ⟨i, hi, rfl⟩ := List.mem_map.mp hu
    have hin : i ≤ n := Nat.lt_succ_iff.mp (List.mem_range.mp hi)
    exact ⟨hle 0 i (Nat.zero_le i) hin, hle i n hin le_rfl⟩

end Covers

end Covering

/-! ## Steps -/

section Exact

variable {K : Type} [Field K]

/-- Samples at whole steps. -/
def grid (lo step : K) (n : Nat) : List K := (List.range n).map fun k : Nat => lo + step * k

/-- All differences of samples at whole steps are the step. -/
theorem grid_step (lo step : K) (n i : Nat) (h : i + 1 < (grid lo step n).length) :
    (grid lo step n)[i + 1] - (grid lo step n)[i] = step := by
  simp only [grid, List.getElem_map, List.getElem_range]
  push_cast
  ring

variable [LinearOrder K] {lo hi step : K}

/-- Neighbouring samples that differ by the step; the last difference can be smaller, but it is
positive. -/
def Steps (step : K) (ts : List K) : Prop :=
  ∀ i (h : i + 1 < ts.length),
    (i + 2 < ts.length → ts[i + 1] - ts[i] = step) ∧
      0 < ts[i + 1] - ts[i] ∧ ts[i + 1] - ts[i] ≤ step

theorem steps_grid (lo : K) (hstep : 0 < step) (n : Nat) : Steps step (grid lo step n) := by
  intro i h
  have hdiff := grid_step lo step n i h
  exact ⟨fun _ => hdiff, hdiff.ge.trans_lt' hstep, hdiff.le⟩

variable [IsStrictOrderedRing K]

theorem covers_grid (lo : K) (hstep : 0 < step) (n : Nat) :
    Covers lo (lo + step * n) (grid lo step (n + 1)) := by
  have hrange := Covers.of_range (f := fun k : Nat => lo + step * k) (n := n) fun i j hij _ => by
    have : (i : K) < j := by exact_mod_cast hij
    gcongr
  simpa [grid] using hrange

/-- A last sample at most one step behind the others. -/
theorem steps_grid_append {n : Nat} (hlt : lo + step * n < hi)
    (hle : hi - (lo + step * n) ≤ step) : Steps step (grid lo step (n + 1) ++ [hi]) := by
  have hstep : 0 < step := (sub_pos.mpr hlt).trans_le hle
  have hlen : (grid lo step (n + 1)).length = n + 1 := by simp [grid]
  intro i h
  have hi' : i < (grid lo step (n + 1)).length := by simpa using h
  rcases Nat.lt_or_ge (i + 1) (grid lo step (n + 1)).length with hin | hout
  · rw [List.getElem_append_left hin, List.getElem_append_left hi']
    have hdiff := grid_step lo step (n + 1) i hin
    exact ⟨fun _ => hdiff, hdiff.ge.trans_lt' hstep, hdiff.le⟩
  · obtain rfl : i = n := by omega
    have hlast : (grid lo step (i + 1))[i] = lo + step * i := by simp [grid]
    rw [List.getElem_append_right hout, List.getElem_append_left hi', hlast,
      List.getElem_singleton]
    refine ⟨fun hmore => ?_, sub_pos.mpr hlt, hle⟩
    rw [List.length_append, List.length_singleton] at hmore
    omega

/-! ## Exact samples -/

variable [FloorRing K]

/-- The whole steps of a range end at most one step below its upper end. -/
theorem floor_steps (lo hi : K) (hstep : 0 < step) :
    lo + step * ⌊(hi - lo) / step⌋ ≤ hi ∧ hi - (lo + step * ⌊(hi - lo) / step⌋) ≤ step := by
  have hle : (⌊(hi - lo) / step⌋ : K) * step ≤ hi - lo :=
    (le_div_iff₀ hstep).mp (Int.floor_le _)
  have hlt : hi - lo < (⌊(hi - lo) / step⌋ + 1 : K) * step :=
    (div_lt_iff₀ hstep).mp (Int.lt_floor_add_one _)
  constructor <;> linarith

/-- Samples that are not too many: those at whole steps, and the upper end. -/
theorem parameterSamples_of_le (hstep : 0 < step) (h : lo ≤ hi)
    (hn : ⌊(hi - lo) / step⌋ + 1 ≤ (maxSamples : Int)) :
    ∃ ts, parameterSamples lo hi step = .ok ts ∧ Covers lo hi ts ∧ Steps step ts := by
  obtain ⟨n, hfloor⟩ : ∃ n : Nat, ⌊(hi - lo) / step⌋ = n :=
    Int.eq_ofNat_of_zero_le (Int.floor_nonneg.mpr (div_nonneg (sub_nonneg.mpr h) hstep.le))
  have hgrid := covers_grid lo hstep n
  have hends := floor_steps lo hi hstep
  rw [hfloor, Int.cast_natCast] at hends
  have hvalue : parameterSamples lo hi step = .ok
      (if lo + step * n < hi then grid lo step (n + 1) ++ [hi] else grid lo step (n + 1)) := by
    rw [hfloor] at hn
    have hcount : ((n : Int) + 1).toNat = n + 1 := by omega
    have hlast := hgrid.last
    rw [grid] at hlast ⊢
    simp only [parameterSamples, Coordinate.isFinite, Coordinate.less, Coordinate.isZero,
      Coordinate.floor?, Coordinate.ofNat, hfloor, hcount, hlast, not_lt.mpr h, hstep.ne',
      not_lt.mpr hn, decide_eq_true_eq, decide_false, Bool.and_self, Bool.not_true, Bool.or_self,
      if_false, Bool.false_eq_true]
  rcases hends.1.lt_or_eq with hlt | heq
  · rw [if_pos hlt] at hvalue
    exact ⟨_, hvalue, hgrid.append hlt, steps_grid_append hlt hends.2⟩
  · rw [if_neg heq.not_lt] at hvalue
    exact ⟨_, hvalue, heq ▸ hgrid, steps_grid lo hstep _⟩

/-- Samples that would be too many: equally spaced ones. -/
theorem parameterSamples_of_lt (hstep : 0 < step) (h : lo ≤ hi)
    (hn : (maxSamples : Int) < ⌊(hi - lo) / step⌋ + 1) :
    ∃ ts, parameterSamples lo hi step = .ok ts ∧ Covers lo hi ts ∧
      ts = (List.range maxSamples).map fun k : Nat =>
        lo + k * ((hi - lo) / ((maxSamples - 1 : Nat) : K)) := by
  have hlt : lo < hi := by
    rcases h.lt_or_eq with hlt | rfl
    · exact hlt
    · rw [sub_self, zero_div, Int.floor_zero] at hn
      exact absurd hn (by decide)
  have hpos : 0 < maxSamples - 1 := by decide
  have hgrid := Covers.of_range (f := spread lo hi (maxSamples - 1)) (n := maxSamples - 1)
    fun i j hij hj => spread_lt_spread hlt hij hj
  rw [spread_zero hlt hpos, spread_last, Nat.sub_add_cancel (by decide)] at hgrid
  refine ⟨_, ?_, hgrid, List.map_congr_left fun k _ => spread_eq hlt hpos⟩
  simp only [parameterSamples, Coordinate.isFinite, Coordinate.less, Coordinate.isZero,
    Coordinate.floor?, not_lt.mpr h, hstep.ne', hn, decide_false, Bool.and_self, Bool.not_true,
    Bool.or_self, if_false, Bool.false_eq_true, if_true]

end Exact

/-! ## Counts -/

section Counts

variable {α : Type} [Coordinate α] {lo hi step : α} {ts : List α}

/-- An empty range, or one with an end that is not finite. -/
def NoRange (lo hi : α) : Prop :=
  Coordinate.isFinite lo = false ∨ Coordinate.isFinite hi = false ∨ Coordinate.less hi lo = true

/-- There are no samples in no range. -/
theorem parameterSamples_of_noRange (h : NoRange lo hi) : parameterSamples lo hi step = .ok [] := by
  rw [parameterSamples, if_pos]
  rcases h with h | h | h <;> simp [h]

/-- All ways to sample a range: not at all, equally spaced, and at whole steps, of which the last
one can end below the upper end of the range. -/
inductive Sampled (lo hi step : α) : List α → Prop
  | empty (h : NoRange lo hi) : Sampled lo hi step []
  | even (n : Int) (hn : Coordinate.floor? ((hi - lo) / step) = .ok n)
      (hmany : (maxSamples : Int) < n + 1) :
      Sampled lo hi step ((List.range maxSamples).map (spread lo hi (maxSamples - 1)))
  | whole (n : Nat) (hn : Coordinate.floor? ((hi - lo) / step) = .ok n) (hfew : n + 1 ≤ maxSamples)
      (hend : Coordinate.less (lo + step * Coordinate.ofNat n) hi = false) :
      Sampled lo hi step ((List.range (n + 1)).map fun k => lo + step * Coordinate.ofNat k)
  | ended (n : Nat) (hn : Coordinate.floor? ((hi - lo) / step) = .ok n) (hfew : n + 1 ≤ maxSamples)
      (hrange : ¬NoRange lo hi) (hstep : Coordinate.isZero step = false)
      (hend : Coordinate.less (lo + step * Coordinate.ofNat n) hi = true) :
      Sampled lo hi step
        (((List.range (n + 1)).map fun k => lo + step * Coordinate.ofNat k) ++ [hi])

theorem noRange_iff :
    (!(Coordinate.isFinite lo && Coordinate.isFinite hi) || Coordinate.less hi lo) = true ↔
      NoRange lo hi := by
  simp [NoRange, or_assoc]

/-- The last of the samples at whole steps. -/
theorem getLast?_whole (lo step : α) (n : Nat) :
    ((List.range (n + 1)).map fun k => lo + step * Coordinate.ofNat k).getLast? =
      some (lo + step * Coordinate.ofNat n) := by
  rw [List.range_succ, List.map_append, List.map_singleton, List.getLast?_concat]

theorem parameterSamples_sampled (h : parameterSamples lo hi step = .ok ts) :
    Sampled lo hi step ts := by
  by_cases hrange : NoRange lo hi
  · rw [parameterSamples_of_noRange hrange, Except.ok.injEq] at h
    exact h ▸ .empty hrange
  rw [parameterSamples, if_neg fun hno => hrange (noRange_iff.mp hno)] at h
  split at h
  · cases h
  rename_i hstep
  split at h
  · cases h
  rename_i n hn
  split at h
  · rename_i hmany
    rw [Except.ok.injEq] at h
    exact h ▸ .even n hn hmany
  rename_i hfew
  dsimp only at h
  -- fewer than no steps leave no last sample, and then there is no result
  obtain hneg | ⟨m, rfl⟩ : n + 1 ≤ 0 ∨ ∃ m : Nat, n = m := by
    rcases lt_or_ge n 0 with hneg | hpos
    · exact .inl (by omega)
    · exact .inr (Int.eq_ofNat_of_zero_le hpos)
  · simp [Int.toNat_of_nonpos hneg] at h
  · rw [show ((m : Int) + 1).toNat = m + 1 by omega, getLast?_whole] at h
    dsimp only at h
    rw [Except.ok.injEq] at h
    subst h
    split
    · rename_i hend
      exact .ended m hn (by omega) hrange (Bool.eq_false_iff.mpr hstep) hend
    · rename_i hend
      exact .whole m hn (by omega) (Bool.eq_false_iff.mpr hend)

/-- The whole steps of a range make as many samples as there may be, and end below its upper
end. -/
structure Overshoots (lo hi step : α) : Prop where
  range : ¬NoRange lo hi
  moving : Coordinate.isZero step = false
  count : Coordinate.floor? ((hi - lo) / step) = .ok (maxSamples - 1 : Nat)
  below : Coordinate.less (lo + step * Coordinate.ofNat (maxSamples - 1)) hi = true

instance (lo hi : α) : Decidable (NoRange lo hi) :=
  inferInstanceAs (Decidable (_ ∨ _ ∨ _))

instance (lo hi step : α) : Decidable (Overshoots lo hi step) :=
  decidable_of_iff
    (¬NoRange lo hi ∧ Coordinate.isZero step = false ∧
      Coordinate.floor? ((hi - lo) / step) = .ok ((maxSamples - 1 : Nat) : Int) ∧
      Coordinate.less (lo + step * Coordinate.ofNat (maxSamples - 1)) hi = true)
    ⟨fun ⟨h₁, h₂, h₃, h₄⟩ => ⟨h₁, h₂, h₃, h₄⟩, fun h => ⟨h.range, h.moving, h.count, h.below⟩⟩

theorem maxSamples_pos : 0 < maxSamples := by decide

/-- A range that is overshot can be sampled. -/
theorem Overshoots.exists_samples (h : Overshoots lo hi step) :
    ∃ ts, parameterSamples lo hi step = .ok ts := by
  have hmax := maxSamples_pos
  obtain ⟨m, hm⟩ : ∃ m, maxSamples = m + 1 := ⟨maxSamples - 1, by omega⟩
  have hcount := h.count
  rw [hm, Nat.add_sub_cancel] at hcount
  rw [parameterSamples, if_neg fun hno => h.range (noRange_iff.mp hno), h.moving,
    if_neg Bool.false_ne_true, hcount]
  dsimp only
  rw [if_neg (by rw [hm]; omega), show ((m : Int) + 1).toNat = m + 1 by omega, getLast?_whole]
  exact ⟨_, rfl⟩

/-- There is at most one sample more than a range is divided into, and there is just if the range
is overshot. -/
theorem length_parameterSamples (h : parameterSamples lo hi step = .ok ts) :
    ts.length ≤ maxSamples + 1 ∧ (ts.length = maxSamples + 1 ↔ Overshoots lo hi step) := by
  have hmax := maxSamples_pos
  cases parameterSamples_sampled h with
  | empty hno => exact ⟨Nat.zero_le _, iff_of_false (by simp) fun ho => ho.range hno⟩
  | even n hn hmany =>
    rw [List.length_map, List.length_range]
    refine ⟨by omega, iff_of_false (by omega) fun ho => ?_⟩
    rw [ho.count, Except.ok.injEq] at hn
    omega
  | whole n hn hfew hend =>
    rw [List.length_map, List.length_range]
    refine ⟨by omega, iff_of_false (by omega) fun ho => ?_⟩
    have heq : maxSamples - 1 = n := by
      rw [ho.count, Except.ok.injEq] at hn
      omega
    rw [← heq, ho.below] at hend
    cases hend
  | ended n hn hfew hrange hstep hend =>
    rw [List.length_append, List.length_map, List.length_range, List.length_singleton]
    refine ⟨by omega, fun heq => ?_, fun ho => ?_⟩
    · obtain rfl : n = maxSamples - 1 := by omega
      exact ⟨hrange, hstep, hn, hend⟩
    · rw [ho.count, Except.ok.injEq] at hn
      omega

end Counts

example : Overshoots (0 : Float) 199999.5 1 ∧ ¬Overshoots (0 : Float) 199999 1 := by
  decide +kernel

/-- The integers of a range are at most as many as there can be samples. -/
theorem length_integerSamples {lo hi : Float} {ns : List Float}
    (h : integerSamples lo hi = .ok ns) : ns.length ≤ maxSamples := by
  have hmax := maxSamples_pos
  simp only [integerSamples, bind, Except.bind, pure, Except.pure] at h
  split at h
  · cases h
  rename_i first _
  split at h
  · cases h
  rename_i last _
  rw [Except.ok.injEq] at h
  rw [← h, List.length_map, List.length_range]
  omega

/-! ## Samples of a range -/

variable {K : Type} [Field K] [LinearOrder K] [IsStrictOrderedRing K] [FloorRing K]

/-- In exact arithmetic the samples go up from the lower end of a range to its upper end. They
differ by the step, up to the last one, or they are equally spaced where there would be too many. In
any arithmetic there are none in an empty range, or in one with an end that is not finite. -/
theorem parameterSamples_covers (lo hi : K) {step : K} (hstep : 0 < step) :
    (lo ≤ hi → ∃ ts, parameterSamples lo hi step = .ok ts ∧ Covers lo hi ts ∧
      (lo = hi → ts = [lo]) ∧
      if (maxSamples : Int) < ⌊(hi - lo) / step⌋ + 1 then
        ts = (List.range maxSamples).map fun k : Nat =>
          lo + k * ((hi - lo) / ((maxSamples - 1 : Nat) : K))
      else Steps step ts) ∧
    (hi < lo → parameterSamples lo hi step = .ok []) ∧
    ∀ {α : Type} [Coordinate α] (a b d : α),
      Coordinate.isFinite a = false ∨ Coordinate.isFinite b = false ∨
        Coordinate.less b a = true → parameterSamples a b d = .ok [] := by
  refine ⟨fun h => ?_, fun h => ?_, fun a b d h => parameterSamples_of_noRange h⟩
  · rcases lt_or_ge (maxSamples : Int) (⌊(hi - lo) / step⌋ + 1) with hmany | hfew
    · obtain ⟨ts, hts, hcovers, heven⟩ := parameterSamples_of_lt hstep h hmany
      refine ⟨ts, hts, hcovers, fun heq => ?_, by rwa [if_pos hmany]⟩
      subst heq
      exact hcovers.eq_singleton
    · obtain ⟨ts, hts, hcovers, hsteps⟩ := parameterSamples_of_le hstep h hfew
      refine ⟨ts, hts, hcovers, fun heq => ?_, by rwa [if_neg hfew.not_gt]⟩
      subst heq
      exact hcovers.eq_singleton
  · exact parameterSamples_of_noRange (.inr (.inr (less_iff.mpr h)))

/-- Two and a half in steps of one. -/
theorem parameterSamples_covers_half :
    (0 : ℚ) < 1 ∧ parameterSamples (0 : ℚ) (5 / 2) 1 = .ok [0, 1, 2, 5 / 2] ∧
      Covers (0 : ℚ) (5 / 2) [0, 1, 2, 5 / 2] ∧ Steps (1 : ℚ) [0, 1, 2, 5 / 2] := by
  have hvalue : parameterSamples (0 : ℚ) (5 / 2) 1 = .ok [0, 1, 2, 5 / 2] := by
    decide +kernel
  obtain ⟨ts, hts, hcovers, -, hsteps⟩ :=
    (parameterSamples_covers (0 : ℚ) (5 / 2) one_pos).1 (by norm_num)
  rw [if_neg (by decide +kernel)] at hsteps
  obtain rfl := Except.ok.inj (hvalue.symm.trans hts)
  exact ⟨one_pos, hvalue, hcovers, hsteps⟩

end Graphing.Plot
