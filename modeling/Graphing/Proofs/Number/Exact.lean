/-
  Graphing.Proofs.Number.Exact

  The numbers that doubles stand for.

  A double is read in two ways: field by field (`parts`), and as it is reckoned
  with (`unpacked`).  Both come to the same (`unpacked_eq`).  Among finite
  doubles a mantissa of fewer bits has the least exponent (`IsReduced`), so the
  one with the larger exponent is the larger one, and doubles compare as the
  exact numbers do (`decide_lt_eq`, `beq_eq`).
-/
import Graphing.Proofs.Number.Signs

namespace Graphing.Binary64

open Float.Model (UnpackedFloat Format)
open Float.Model.UnpackedFloat

/-! ## Fields -/

theorem toNat_unpackMantissa (b : BitVec 64) :
    (@unpackMantissa .binary64 b).toNat = b.toNat % 2 ^ 52 := by
  rw [unpackMantissa, BitVec.toNat_cast, BitVec.extractLsb_toNat]
  rfl

theorem toNat_unpackExponent (b : BitVec 64) :
    (@unpackExponent .binary64 b).toNat = b.toNat / 2 ^ 52 % 2 ^ 11 := by
  rw [unpackExponent, BitVec.toNat_cast, BitVec.extractLsb_toNat, Nat.shiftRight_eq_div_pow]
  rfl

theorem toNat_unpackSign (b : BitVec 64) :
    (@unpackSign .binary64 b).toNat = b.toNat / 2 ^ 63 % 2 := by
  rw [unpackSign, BitVec.toNat_cast, BitVec.extractLsb_toNat, Nat.shiftRight_eq_div_pow]
  rfl

/-- The sign that a bit stands for. -/
def signOf (neg : Bool) : Sign := if neg then .negative else .positive

theorem ofBitVec_unpackSign (b : BitVec 64) :
    Sign.ofBitVec (@unpackSign .binary64 b) = signOf (b.toNat / 2 ^ 63 % 2 == 1) := by
  have hbit := toNat_unpackSign b
  unfold Sign.ofBitVec signOf
  split
  · rename_i hzero
    rw [hzero] at hbit
    rw [← hbit]
    rfl
  · rename_i hone
    have hne : (@unpackSign .binary64 b).toNat ≠ 0 := fun h => hone (BitVec.eq_of_toNat_eq h)
    have hlast : b.toNat / 2 ^ 63 % 2 = 1 := by omega
    rw [hlast]
    rfl

/-- The parts of a double, from the numbers in its fields. -/
def Parts.ofFields (neg : Bool) (expo frac : Nat) : Parts :=
  if expo = 2047 then if frac = 0 then .infinite neg else .nan
  else if expo = 0 then .finite neg frac (-1074)
  else .finite neg (frac + 2 ^ 52) ((expo : Int) - 1075)

theorem Parts.ofBits_eq (n : Nat) :
    Parts.ofBits n =
      .ofFields (n / 2 ^ 63 % 2 == 1) (n / 2 ^ 52 % 2 ^ 11) (n % 2 ^ 52) := rfl

/-- The parts of a double, as they are reckoned with: a mantissa of zero makes a zero. -/
def Parts.unpacked : Parts → UnpackedFloat
  | .nan => .notANumber
  | .infinite neg => .infinity (signOf neg)
  | .finite neg m e => if h : 0 < m then .finite (signOf neg) m e h else .zero (signOf neg)

theorem Parts.unpacked_ofFields (neg : Bool) (e : BitVec 11) (m : BitVec 52) :
    (Parts.ofFields neg e.toNat m.toNat).unpacked = Binary64.ofFields (signOf neg) e m := by
  have hmax : e = -1#11 ↔ e.toNat = 2047 := BitVec.toNat_eq
  have hmin : e = 0#11 ↔ e.toNat = 0 := BitVec.toNat_eq
  have hzero : m = 0#52 ↔ m.toNat = 0 := BitVec.toNat_eq
  rw [Binary64.ofFields_eq, Parts.ofFields]
  simp only [hmax, hmin, hzero]
  split
  · split <;> rfl
  · split
    · rename_i hsubnormal
      rw [unpacked]
      by_cases hm : m.toNat = 0
      · rw [dif_pos hm, dif_neg (by omega)]
      · rw [dif_neg hm, dif_pos (Nat.pos_of_ne_zero hm), hsubnormal]
        rfl
    · rw [unpacked, dif_pos (by omega)]
      simp only [toNat_implicit, Nat.add_comm]

theorem unpack_eq (b : BitVec 64) : unpack .binary64 b = (Parts.ofBits b.toNat).unpacked := by
  have hfields : unpack .binary64 b = ofFields (Sign.ofBitVec (@unpackSign .binary64 b))
      (@unpackExponent .binary64 b) (@unpackMantissa .binary64 b) := by
    rw [ofFields_eq]
    rfl
  rw [hfields, ofBitVec_unpackSign, ← Parts.unpacked_ofFields, toNat_unpackExponent,
    toNat_unpackMantissa, Parts.ofBits_eq]

/-- A double is reckoned with as its fields say. -/
theorem unpacked_eq (x : Float) : unpacked x = (parts x).unpacked :=
  unpack_eq x.toBits.toBitVec

/-! ## Kinds of doubles -/

theorem isFinite_unpacked (neg : Bool) (m : Nat) (e : Int) :
    (Parts.finite neg m e).unpacked.isFinite = true := by
  rw [Parts.unpacked]
  split <;> rfl

theorem isFinite_parts (x : Float) :
    x.isFinite = true ↔ ∃ neg m e, parts x = .finite neg m e := by
  rw [isFinite_eq, unpacked_eq]
  cases parts x with
  | nan => simp [Parts.unpacked, UnpackedFloat.isFinite]
  | infinite neg => simp [Parts.unpacked, UnpackedFloat.isFinite]
  | finite neg m e => exact iff_of_true (isFinite_unpacked neg m e) ⟨neg, m, e, rfl⟩

/-- Just the finite doubles have an exact value. -/
theorem isSome_toRat? (x : Float) : (toRat? x).isSome = x.isFinite := by
  rw [Bool.eq_iff_iff, isFinite_parts, toRat?]
  cases parts x <;> simp

/-! ## Exact values -/

/-- The number with a sign, a mantissa and an exponent of two. -/
def magnitude (m : Nat) (e : Int) : ℚ := m * 2 ^ e

def signed (neg : Bool) (q : ℚ) : ℚ := if neg then -q else q

theorem magnitude_pos {m : Nat} (hm : 0 < m) (e : Int) : 0 < magnitude m e := by
  unfold magnitude
  positivity

theorem magnitude_zero (e : Int) : magnitude 0 e = 0 := by
  rw [magnitude, Nat.cast_zero, zero_mul]

theorem mkRat_scale (m : Nat) (e : Int) :
    mkRat (Rounding.scale 2 e m 1).1 (Rounding.scale 2 e m 1).2 = magnitude m e := by
  rw [magnitude]
  cases e with
  | ofNat n =>
    have hscale : Rounding.scale 2 (.ofNat n) m 1 = (m * 2 ^ n, 1) := rfl
    rw [hscale, Rat.mkRat_eq_div, Int.ofNat_eq_natCast, zpow_natCast]
    push_cast
    ring
  | negSucc n =>
    have hscale : Rounding.scale 2 (.negSucc n) m 1 = (m, 1 * 2 ^ (n + 1)) := rfl
    rw [hscale, Rat.mkRat_eq_div, zpow_negSucc]
    push_cast
    ring

variable {x y : Float} {neg : Bool} {m n : Nat} {e f : Int}

theorem toRat?_of_parts (h : parts x = .finite neg m e) :
    toRat? x = some (signed neg (magnitude m e)) := by
  rw [toRat?, h]
  dsimp only
  rw [mkRat_scale, signed]

/-- Mantissas of finite doubles use all their bits, unless the exponent is the least one. -/
structure IsReduced (m : Nat) (e : Int) : Prop where
  lt_full : m < 2 ^ 53
  least_le : -1074 ≤ e
  full : -1074 < e → 2 ^ 52 ≤ m

theorem isReduced_of_parts (h : parts x = .finite neg m e) : IsReduced m e := by
  rw [parts, Parts.ofBits_eq, Parts.ofFields] at h
  have hfraction := Nat.mod_lt x.toBits.toNat (Nat.two_pow_pos 52)
  split at h
  · split at h <;> cases h
  · split at h
    · cases h
      exact ⟨by omega, by omega, by omega⟩
    · cases h
      exact ⟨by omega, by omega, by omega⟩

/-- The larger exponent makes the larger number. -/
theorem magnitude_lt (hm : IsReduced m e) (hn : IsReduced n f) (h : e < f) :
    magnitude m e < magnitude n f := by
  have hfull : (2 : ℚ) ^ (52 : Int) ≤ n := by
    exact_mod_cast hn.full (lt_of_le_of_lt hm.least_le h)
  have hbits : (m : ℚ) < 2 ^ (53 : Int) := by exact_mod_cast hm.lt_full
  calc magnitude m e < 2 ^ (53 : Int) * 2 ^ e := by unfold magnitude; gcongr
    _ = 2 ^ (52 : Int) * 2 ^ (e + 1) := by
      rw [← zpow_add₀ two_ne_zero, ← zpow_add₀ two_ne_zero]
      congr 1
      ring
    _ ≤ n * 2 ^ (e + 1) := by gcongr
    _ ≤ magnitude n f := by
      unfold magnitude
      have := zpow_le_zpow_right₀ (one_le_two (α := ℚ)) (Int.add_one_le_of_lt h)
      gcongr

/-- Doubles of one sign are compared by their exponents first. -/
theorem compare_magnitude (hm : IsReduced m e) (hn : IsReduced n f) :
    compare (magnitude m e) (magnitude n f) = (compare e f).then (compare m n) := by
  rcases lt_trichotomy e f with h | rfl | h
  · rw [compare_lt_iff_lt.mpr h, compare_lt_iff_lt.mpr (magnitude_lt hm hn h)]
    rfl
  · have hpos : (0 : ℚ) < 2 ^ e := by positivity
    rw [compare_eq_iff_eq.mpr rfl, Ordering.eq_then]
    rcases lt_trichotomy m n with h | rfl | h
    · have hlt : magnitude m e < magnitude n e := by unfold magnitude; gcongr
      rw [compare_lt_iff_lt.mpr h, compare_lt_iff_lt.mpr hlt]
    · rw [compare_eq_iff_eq.mpr rfl, compare_eq_iff_eq.mpr rfl]
    · have hlt : magnitude n e < magnitude m e := by unfold magnitude; gcongr
      rw [compare_gt_iff_gt.mpr h, compare_gt_iff_gt.mpr hlt]
  · rw [compare_gt_iff_gt.mpr h, compare_gt_iff_gt.mpr (magnitude_lt hn hm h)]
    rfl

theorem unpacked_pos (hm : 0 < m) (neg : Bool) (e : Int) :
    (Parts.finite neg m e).unpacked = .finite (signOf neg) m e hm := dif_pos hm

theorem signed_magnitude_zero (neg : Bool) (e : Int) : signed neg (magnitude 0 e) = 0 := by
  rw [magnitude_zero, signed, neg_zero, ite_self]

theorem compare_neg_neg (a b : ℚ) : compare (-a) (-b) = (compare a b).swap := by
  rcases lt_trichotomy a b with h | rfl | h
  · rw [compare_lt_iff_lt.mpr h, compare_gt_iff_gt.mpr (neg_lt_neg h)]
    rfl
  · rw [compare_eq_iff_eq.mpr rfl, compare_eq_iff_eq.mpr rfl]
    rfl
  · rw [compare_gt_iff_gt.mpr h, compare_lt_iff_lt.mpr (neg_lt_neg h)]
    rfl

/-- Finite doubles are compared as the numbers that they stand for. -/
theorem compare_unpacked (neg neg' : Bool) (hm : IsReduced m e) (hn : IsReduced n f) :
    (Parts.finite neg m e).unpacked.compare (Parts.finite neg' n f).unpacked =
      some (compare (signed neg (magnitude m e)) (signed neg' (magnitude n f))) := by
  have hcompare := compare_magnitude hm hn
  -- zero has a form of its own, and so it is compared apart from the others
  rcases Nat.eq_zero_or_pos m with rfl | hmpos
  · rw [signed_magnitude_zero]
    rcases Nat.eq_zero_or_pos n with rfl | hnpos
    · rw [signed_magnitude_zero, compare_eq_iff_eq.mpr rfl]
      rfl
    · rw [unpacked_pos hnpos]
      have hpos := magnitude_pos hnpos f
      cases neg'
      · rw [signed, if_neg Bool.false_ne_true, compare_lt_iff_lt.mpr hpos]
        rfl
      · rw [signed, if_pos rfl, compare_gt_iff_gt.mpr (neg_neg_of_pos hpos)]
        rfl
  · rw [unpacked_pos hmpos]
    have hpos := magnitude_pos hmpos e
    rcases Nat.eq_zero_or_pos n with rfl | hnpos
    · rw [signed_magnitude_zero]
      cases neg
      · rw [signed, if_neg Bool.false_ne_true, compare_gt_iff_gt.mpr hpos]
        rfl
      · rw [signed, if_pos rfl, compare_lt_iff_lt.mpr (neg_neg_of_pos hpos)]
        rfl
    · rw [unpacked_pos hnpos]
      have hpos' := magnitude_pos hnpos f
      cases neg <;> cases neg'
      · exact congrArg some hcompare.symm
      · have hlt : signed true (magnitude n f) < signed false (magnitude m e) :=
          (neg_neg_of_pos hpos').trans hpos
        rw [compare_gt_iff_gt.mpr hlt]
        rfl
      · have hlt : signed true (magnitude m e) < signed false (magnitude n f) :=
          (neg_neg_of_pos hpos).trans hpos'
        rw [compare_lt_iff_lt.mpr hlt]
        rfl
      · -- below zero the order is the other way
        rw [signed, signed, if_pos rfl, if_pos rfl, compare_neg_neg, hcompare]
        rfl

/-! ## The line of exact values -/

/-- The rational numbers between two infinities. -/
abbrev RationalLine : Type := WithBot (WithTop ℚ)

/-- What a double stands for, nothing if it is no number. -/
def exact (x : Float) : Option RationalLine :=
  match parts x with
  | .nan => none
  | .infinite neg => some (if neg then ⊥ else ⊤)
  | .finite neg m e => some ((signed neg (magnitude m e) : WithTop ℚ) : RationalLine)

theorem compare_coe (a b : ℚ) : compare ((a : WithTop ℚ) : RationalLine) (b : WithTop ℚ) =
    compare a b := by
  rcases lt_trichotomy a b with h | rfl | h
  · rw [compare_lt_iff_lt.mpr h, compare_lt_iff_lt.mpr]
    exact_mod_cast h
  · rw [compare_eq_iff_eq.mpr rfl, compare_eq_iff_eq.mpr rfl]
  · rw [compare_gt_iff_gt.mpr h, compare_gt_iff_gt.mpr]
    exact_mod_cast h

theorem compare_notANumber (u : UnpackedFloat) : u.compare .notANumber = none := by
  cases u <;> rfl

theorem infinity_compare {u : UnpackedFloat} (hu : u.isFinite = true) (neg : Bool) :
    (UnpackedFloat.infinity (signOf neg)).compare u = some (if neg then .lt else .gt) := by
  cases u with
  | notANumber => cases hu
  | infinity s => cases hu
  | zero s => cases neg <;> rfl
  | finite s m e hm => cases neg <;> rfl

theorem compare_infinity {u : UnpackedFloat} (hu : u.isFinite = true) (neg : Bool) :
    u.compare (UnpackedFloat.infinity (signOf neg)) = some (if neg then .gt else .lt) := by
  cases u with
  | notANumber => cases hu
  | infinity s => cases hu
  | zero s => cases neg <;> rfl
  | finite s m e hm => cases neg <;> cases s <;> rfl

/-- Doubles are compared as what they stand for, unless one of them is no number. -/
theorem compare_exact (x y : Float) : (unpacked x).compare (unpacked y) =
    (exact x).bind fun a => (exact y).map fun b => compare a b := by
  have hbot (a : ℚ) : (⊥ : RationalLine) < (a : WithTop ℚ) := WithBot.bot_lt_coe _
  have htop (a : ℚ) : ((a : WithTop ℚ) : RationalLine) < ⊤ :=
    WithBot.coe_lt_coe.mpr (WithTop.coe_lt_top a)
  rw [unpacked_eq, unpacked_eq, exact, exact]
  cases hx : parts x with
  | nan => cases parts y <;> rfl
  | infinite neg =>
    cases hy : parts y with
    | nan => cases neg <;> rfl
    | infinite neg' =>
      have hends : (⊥ : RationalLine) < ⊤ := bot_lt_top
      cases neg <;> cases neg'
      · exact congrArg some (compare_eq_iff_eq.mpr rfl).symm
      · exact congrArg some (compare_gt_iff_gt.mpr hends).symm
      · exact congrArg some (compare_lt_iff_lt.mpr hends).symm
      · exact congrArg some (compare_eq_iff_eq.mpr rfl).symm
    | finite neg' n f =>
      refine (infinity_compare (isFinite_unpacked neg' n f) neg).trans ?_
      cases neg
      · exact congrArg some (compare_gt_iff_gt.mpr (htop _)).symm
      · exact congrArg some (compare_lt_iff_lt.mpr (hbot _)).symm
  | finite neg m e =>
    cases hy : parts y with
    | nan => exact compare_notANumber _
    | infinite neg' =>
      refine (compare_infinity (isFinite_unpacked neg m e) neg').trans ?_
      cases neg'
      · exact congrArg some (compare_lt_iff_lt.mpr (htop _)).symm
      · exact congrArg some (compare_gt_iff_gt.mpr (hbot _)).symm
    | finite neg' n f =>
      -- two finite numbers are compared by their mantissas and exponents
      rw [compare_unpacked neg neg' (isReduced_of_parts hx) (isReduced_of_parts hy)]
      exact congrArg some (compare_coe _ _).symm

theorem decide_lt_eq (x y : Float) : decide (x < y) =
    (((exact x).bind fun a => (exact y).map fun b => compare a b) == some .lt) := by
  rw [← compare_exact]
  show decide (Float.lt x y = true) = _
  rw [Bool.decide_eq_true]
  show decide ((_ : Bool) = true) = _
  rw [Bool.decide_eq_true]
  rfl

theorem beq_eq (x y : Float) : (x == y) =
    (((exact x).bind fun a => (exact y).map fun b => compare a b) == some .eq) := by
  rw [← compare_exact]
  rfl

end Graphing.Binary64
