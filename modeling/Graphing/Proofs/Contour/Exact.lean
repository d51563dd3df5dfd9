/-
  Graphing.Proofs.Contour.Exact

  Contours in exact arithmetic: coordinates from any ordered field in which
  numbers can be rounded down, and sampled values that are such numbers or
  undefined.

  Rounding never interferes here.  Points near each other lie in squares of
  the raster that touch, and the equally spaced numbers of a raster increase
  strictly from its lower to its upper end.
-/
import Graphing.Contour.ChainStore
import Graphing.Contour.Domain
import Mathlib.Algebra.Order.Floor.Ring
import Mathlib.Tactic.FieldSimp
import Mathlib.Tactic.Linarith
import Mathlib.Tactic.Positivity
import Mathlib.Tactic.Ring

namespace Graphing.Contour

/-! ## Exact coordinates -/

section Instances

variable {K : Type} [Field K] [LinearOrder K]

/-- The numbers of an ordered field as coordinates. -/
instance (priority := low) exactCoordinate [FloorRing K] : Coordinate K where
  ofNat n := n
  half := 1 / 2
  isZero x := decide (x = 0)
  isFinite _ := true
  less a b := decide (a < b)
  lessEq a b := decide (a ≤ b)
  floor? x := .ok ⌊x⌋

/-- The numbers of an ordered field as sampled values; a value can be missing. -/
instance (priority := low) exactReading : Reading (Option K) K where
  undefined := none
  isFinite v := v.isSome
  isPositive v := v.any fun x => decide (0 < x)
  isNegative v := v.any fun x => decide (x < 0)
  isZero v := v.any fun x => decide (x = 0)
  crossing
    | some a, some b => if a - b = 0 then 1 / 2 else a / (a - b)
    | _, _ => 1 / 2
  isPositiveMean
    | some a, some b, some c, some d => decide (0 < 1 / 4 * (a + b + c + d))
    | _, _, _, _ => false

end Instances

variable {K : Type} [Field K] [LinearOrder K] [FloorRing K]

theorem less_iff {a b : K} : Coordinate.less a b = true ↔ a < b := by
  simp [Coordinate.less]

theorem isProper_iff {d : Domain K} :
    d.isProper = true ↔ d.xmin < d.xmax ∧ d.ymin < d.ymax := by
  simp [Domain.isProper, less_iff]

/-! ## Nearness -/

variable [IsStrictOrderedRing K]

theorem near_iff {tolerance a b : K} :
    near tolerance a b = true ↔ |a - b| ≤ tolerance := by
  simp only [near, Coordinate.lessEq, Bool.and_eq_true, decide_eq_true_eq, abs_le]
  constructor
  · rintro ⟨h1, h2⟩
    exact ⟨by linarith, h1⟩
  · rintro ⟨h1, h2⟩
    exact ⟨h2, by linarith⟩

theorem Point.near_iff {tolerance : K} {p q : Point K} :
    p.near tolerance q = true ↔ |p.x - q.x| ≤ tolerance ∧ |p.y - q.y| ≤ tolerance := by
  rw [Point.near, Bool.and_eq_true, Contour.near_iff, Contour.near_iff]

theorem Point.near_self {tolerance : K} (htol : 0 < tolerance) (p : Point K) :
    p.near tolerance p = true := by
  rw [Point.near_iff]
  simp [htol.le]

theorem Point.near_comm {tolerance : K} {p q : Point K} :
    p.near tolerance q = q.near tolerance p := by
  rw [Bool.eq_iff_iff, Point.near_iff, Point.near_iff, abs_sub_comm p.x, abs_sub_comm p.y]

/-! ## Squares -/

theorem ChainStore.mem_around {k l : Square} :
    l ∈ ChainStore.around k ↔
      (k.1 - 1 ≤ l.1 ∧ l.1 ≤ k.1 + 1) ∧ (k.2 - 1 ≤ l.2 ∧ l.2 ≤ k.2 + 1) := by
  obtain ⟨i, j⟩ := l
  simp only [ChainStore.around, List.mem_flatMap, List.mem_map, List.mem_cons, List.not_mem_nil,
    or_false, Prod.mk.injEq]
  constructor
  · rintro ⟨dx, hdx, dy, hdy, rfl, rfl⟩
    omega
  · rintro ⟨hi, hj⟩
    exact ⟨i - k.1, by omega, j - k.2, by omega, by omega, by omega⟩

/-- Numbers that differ by at most the tolerance are in the same or in neighbouring steps of it. -/
theorem floor_div_le_add_one {tolerance a b : K} (htol : 0 < tolerance) (h : b - a ≤ tolerance) :
    ⌊b / tolerance⌋ ≤ ⌊a / tolerance⌋ + 1 := by
  have hle : b / tolerance ≤ a / tolerance + 1 := by
    rw [div_add_one htol.ne']
    gcongr
    linarith
  calc ⌊b / tolerance⌋ ≤ ⌊a / tolerance + 1⌋ := Int.floor_le_floor hle
    _ = ⌊a / tolerance⌋ + 1 := Int.floor_add_one _

/-- Points near each other lie in squares that touch. -/
theorem ChainStore.mem_around_of_near {tolerance : K} (htol : 0 < tolerance) {p q : Point K}
    (h : p.near tolerance q = true) :
    (⌊q.x / tolerance⌋, ⌊q.y / tolerance⌋) ∈
      ChainStore.around (⌊p.x / tolerance⌋, ⌊p.y / tolerance⌋) := by
  rw [Point.near_iff, abs_le, abs_le] at h
  obtain ⟨⟨hx1, hx2⟩, hy1, hy2⟩ := h
  have h1 := floor_div_le_add_one (a := p.x) (b := q.x) htol (by linarith)
  have h2 := floor_div_le_add_one (a := q.x) (b := p.x) htol (by linarith)
  have h3 := floor_div_le_add_one (a := p.y) (b := q.y) htol (by linarith)
  have h4 := floor_div_le_add_one (a := q.y) (b := p.y) htol (by linarith)
  rw [ChainStore.mem_around]
  dsimp only
  omega

/-! ## Equally spaced numbers -/

/-- The equally spaced numbers lie on a straight line. -/
theorem spread_eq {lo hi : K} (h : lo < hi) {n k : Nat} (hn : 0 < n) :
    spread lo hi n k = lo + k * ((hi - lo) / n) := by
  have hn' : (n : K) ≠ 0 := by positivity
  have hstep : (hi - lo) / (n : K) ≠ 0 := div_ne_zero (sub_ne_zero.mpr h.ne') hn'
  unfold spread
  by_cases hkn : k = n
  · rw [if_pos hkn, hkn]
    field_simp
    ring
  · rw [if_neg hkn]
    simp only [Coordinate.isZero, Coordinate.ofNat, decide_eq_true_eq]
    rw [if_neg hstep]
    ring

theorem spread_lt_spread {lo hi : K} (h : lo < hi) {n i j : Nat} (hij : i < j) (hj : j ≤ n) :
    spread lo hi n i < spread lo hi n j := by
  have hn : 0 < n := by omega
  have hn' : (0 : K) < n := by positivity
  have hstep : 0 < (hi - lo) / (n : K) := div_pos (sub_pos.mpr h) hn'
  rw [spread_eq h hn, spread_eq h hn]
  have : (i : K) < j := by exact_mod_cast hij
  gcongr

theorem spread_injective {lo hi : K} (h : lo < hi) {n i j : Nat} (h_i : i ≤ n) (h_j : j ≤ n)
    (heq : spread lo hi n i = spread lo hi n j) : i = j := by
  rcases Nat.lt_trichotomy i j with hij | hij | hij
  · exact absurd heq (spread_lt_spread h hij h_j).ne
  · exact hij
  · exact absurd heq (spread_lt_spread h hij h_i).ne'

theorem lt_of_spread_lt {lo hi : K} (h : lo < hi) {n i j : Nat} (h_i : i ≤ n)
    (hlt : spread lo hi n i < spread lo hi n j) : i < j := by
  rcases Nat.lt_trichotomy i j with hij | hij | hij
  · exact hij
  · exact absurd hlt (by rw [hij]; exact lt_irrefl _)
  · exact absurd hlt (spread_lt_spread h hij h_i).not_gt

theorem spread_zero {lo hi : K} (h : lo < hi) {n : Nat} (hn : 0 < n) : spread lo hi n 0 = lo := by
  rw [spread_eq h hn]
  simp

theorem spread_mem {lo hi : K} (h : lo < hi) {n k : Nat} (hn : 0 < n) (hk : k ≤ n) :
    lo ≤ spread lo hi n k ∧ spread lo hi n k ≤ hi := by
  constructor
  · rcases Nat.eq_zero_or_pos k with rfl | hpos
    · exact (spread_zero h hn).ge
    · exact (spread_zero h hn).symm.le.trans (spread_lt_spread h hpos hk).le
  · rcases hk.eq_or_lt with rfl | hlt
    · exact (spread_last lo hi k).le
    · exact (spread_lt_spread h hlt le_rfl).le.trans (spread_last lo hi n).le

theorem spread_eq_or_eq {lo hi : K} (h : lo < hi) {n k : Nat} (hk : k = 0 ∨ k = n) :
    spread lo hi n k = lo ∨ spread lo hi n k = hi := by
  rcases hk with rfl | rfl
  · rcases Nat.eq_zero_or_pos n with rfl | hn
    · exact .inr (spread_last lo hi 0)
    · exact .inl (spread_zero h hn)
  · exact .inr (spread_last lo hi k)

end Graphing.Contour
