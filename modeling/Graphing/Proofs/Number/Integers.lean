/-
  Graphing.Proofs.Number.Integers

  Integers as doubles.

  Integers are rounded to a significand of 53 bits.  That of a natural number
  fills these bits, at an exponent that goes by the leading bit of the number
  (`significand_natural`), so the double can be read off its fields
  (`parts_ofQuotient`).  It is finite, of the sign of the integer, and lies
  between the powers of two around it (`toRat?_ofInt`); no more than that is
  needed to tell doubles of integers of different sizes apart.
-/
import Graphing.Proofs.Number.Exact

namespace Graphing.Binary64

open CorePower
open Float.Model (UnpackedFloat Format)

/-! ## Significands of natural numbers -/

theorem div_scale (n : Nat) (e : Int) :
    (Rounding.scale 2 e n 1).1 / (Rounding.scale 2 e n 1).2 = ⌊magnitude n e⌋₊ := by
  rw [← mkRat_scale, Rat.mkRat_eq_div, Int.cast_natCast, Nat.floor_div_eq_div]

theorem two_zpow_sub (k j : Nat) : (2 : ℚ) ^ ((k : Int) - j) = 2 ^ k / 2 ^ j := by
  rw [zpow_sub₀ two_ne_zero, zpow_natCast, zpow_natCast]

/-- A number whose leading bit is moved to another place. -/
theorem magnitude_leading {n : Nat} (hn : n ≠ 0) (w : Nat) :
    2 ^ w ≤ magnitude n (w - n.log2) ∧ magnitude n (w - n.log2) < 2 ^ (w + 1) := by
  have hlow : (2 : ℚ) ^ n.log2 ≤ n := by exact_mod_cast Nat.log2_self_le hn
  have hhigh : (n : ℚ) < 2 ^ (n.log2 + 1) := by exact_mod_cast Nat.lt_log2_self
  have hmagnitude : magnitude n (w - n.log2) = n * 2 ^ w / 2 ^ n.log2 := by
    rw [magnitude, two_zpow_sub, mul_div_assoc]
  rw [hmagnitude]
  constructor
  · rw [le_div_iff₀ (by positivity), mul_comm]
    gcongr
  · rw [div_lt_iff₀ (by positivity)]
    calc (n : ℚ) * 2 ^ w < 2 ^ (n.log2 + 1) * 2 ^ w := by gcongr
      _ = 2 ^ (w + 1) * 2 ^ n.log2 := by ring

theorem scale_leading {n : Nat} (hn : n ≠ 0) {w : Nat} {e : Int} (he : e = w - n.log2) :
    2 ^ w ≤ (Rounding.scale 2 e n 1).1 / (Rounding.scale 2 e n 1).2 ∧
      (Rounding.scale 2 e n 1).1 / (Rounding.scale 2 e n 1).2 < 2 ^ (w + 1) := by
  obtain ⟨hlow, hhigh⟩ := magnitude_leading hn w
  subst he
  rw [div_scale]
  constructor
  · exact Nat.le_floor (by exact_mod_cast hlow)
  · exact (Nat.floor_lt (hlow.trans' (by positivity))).mpr (by exact_mod_cast hhigh)

/-- The significand of a natural number fills its bits, at the exponent of the leading bit or, if it
is rounded up to a power of two, the next one. -/
theorem significand_natural {n : Nat} (hn : n ≠ 0) :
    ∃ (q : Nat) (e : Int), Rounding.significand 53 (some (-1074)) n 1 = (q, e) ∧
      2 ^ 52 ≤ q ∧ q < 2 ^ 53 ∧ (e = n.log2 - 52 ∨ q = 2 ^ 52 ∧ e = n.log2 - 51) := by
  have hguess : Rounding.binaryExponent 53 n 1 = n.log2 - 53 := by
    have hone : Nat.log2 1 = 0 := by decide
    rw [Rounding.binaryExponent, hone]
    simp
  obtain ⟨htight, -⟩ := scale_leading hn (w := 53) (e := -(n.log2 - 53)) (by push_cast; ring)
  obtain ⟨hlow, hhigh⟩ := scale_leading hn (w := 52) (e := -(n.log2 - 52)) (by push_cast; ring)
  have hmax : max (-1074) ((n.log2 : Int) - 53 + 1) = n.log2 - 52 := by omega
  rw [Rounding.significand, if_neg hn, hguess]
  dsimp only
  rw [if_neg (not_lt.mpr htight), hmax]
  have hdown := Rounding.le_divNearestEven (Rounding.scale 2 (-(n.log2 - 52)) n 1).1
    (Rounding.scale 2 (-(n.log2 - 52)) n 1).2
  have hup := Rounding.divNearestEven_le (Rounding.scale 2 (-(n.log2 - 52)) n 1).1
    (Rounding.scale 2 (-(n.log2 - 52)) n 1).2
  generalize Rounding.divNearestEven _ _ = q at hdown hup ⊢
  split
  · exact ⟨2 ^ 52, n.log2 - 51, by ring_nf, le_rfl, by norm_num, .inr ⟨rfl, rfl⟩⟩
  · exact ⟨q, n.log2 - 52, rfl, hlow.trans hdown, by omega, .inl rfl⟩

/-! ## Doubles with given bits -/

/-- Bits that make no NaN are the bits of their double. -/
theorem toBits_ofBits {b : UInt64} (h : b.toNat / 2 ^ 52 % 2 ^ 11 ≠ 2047) :
    (Float.ofBits b).toBits = b := by
  have hvalid : Format.binary64.Valid b.toBitVec := by
    refine ⟨fun hexponent => absurd ?_ h⟩
    have hfield := congrArg BitVec.toNat hexponent
    rw [toNat_unpackExponent] at hfield
    exact hfield
  exact congrArg UInt64.ofBitVec (UnpackedFloat.pack_unpack_of_valid hvalid)

theorem parts_ofBits {n : Nat} (hn : n < 2 ^ 64) (h : n / 2 ^ 52 % 2 ^ 11 ≠ 2047) :
    parts (Float.ofBits (UInt64.ofNat n)) = .ofBits n := by
  have hbits : (UInt64.ofNat n).toNat = n := by
    rw [UInt64.toNat_ofNat']
    exact Nat.mod_eq_of_lt hn
  rw [parts, toBits_ofBits (by rwa [hbits]), hbits]

/-- A quotient with a full significand, at an exponent that doubles have, makes a double of these
parts. -/
theorem parts_ofQuotient {neg : Bool} {num den q : Nat} {e : Int}
    (h : Rounding.significand 53 (some (-1074)) num den = (q, e)) (hlow : 2 ^ 52 ≤ q)
    (hhigh : q < 2 ^ 53) (hleast : -1074 ≤ e) (hmost : e < 972) :
    parts (ofQuotient neg num den) = .finite neg q e := by
  obtain ⟨k, hk⟩ : ∃ k : Nat, e + 1075 = k := ⟨(e + 1075).toNat, by omega⟩
  obtain ⟨f, hf⟩ : ∃ f, q = f + 2 ^ 52 := ⟨q - 2 ^ 52, by omega⟩
  obtain ⟨s, hs, hle, hneg⟩ :
      ∃ s : Nat, (if neg then 2 ^ 63 else 0) = s * 2 ^ 63 ∧ s ≤ 1 ∧ (s == 1) = neg := by
    cases neg
    · exact ⟨0, rfl, by omega, rfl⟩
    · exact ⟨1, rfl, by omega, rfl⟩
  have hbits : bitsOfQuotient neg num den = s * 2 ^ 63 + k * 2 ^ 52 + f := by
    rw [bitsOfQuotient, h]
    dsimp only
    rw [if_neg (by norm_num; omega), hk, if_neg (by omega), Int.toNat_natCast, hf,
      Nat.add_sub_cancel]
    exact congrArg (· + k * 2 ^ 52 + f) hs
  -- the fields stand side by side
  have hsign : bitsOfQuotient neg num den / 2 ^ 63 % 2 = s := by omega
  have hexponent : bitsOfQuotient neg num den / 2 ^ 52 % 2 ^ 11 = k := by omega
  have hfraction : bitsOfQuotient neg num den % 2 ^ 52 = f := by omega
  rw [ofQuotient, parts_ofBits (by omega) (by omega), Parts.ofBits_eq, hsign, hexponent, hfraction,
    hneg, Parts.ofFields, if_neg (by omega), if_neg (by omega), hf]
  exact congrArg (Parts.finite neg _) (by omega)

/-! ## Integers -/

theorem toRat?_ofInt_zero : toRat? (ofInt 0) = some 0 := by decide +kernel

/-- An integer that is not too large makes a double of its sign, between the powers of two around
it. -/
theorem toRat?_ofInt {n : Int} (hn : n ≠ 0) (hlog : n.natAbs.log2 < 1023) :
    ∃ r : ℚ, toRat? (ofInt n) = some (signed (decide (n < 0)) r) ∧
      2 ^ n.natAbs.log2 ≤ r ∧ r ≤ 2 ^ (n.natAbs.log2 + 1) := by
  obtain ⟨q, e, hsignificand, hlow, hhigh, he⟩ := significand_natural (Int.natAbs_ne_zero.mpr hn)
  have hparts : parts (ofInt n) = .finite (decide (n < 0)) q e :=
    parts_ofQuotient hsignificand hlow hhigh (by omega) (by omega)
  refine ⟨magnitude q e, toRat?_of_parts hparts, ?_⟩
  generalize n.natAbs.log2 = k at he ⊢
  have hlow' : (2 : ℚ) ^ 52 ≤ q := by exact_mod_cast hlow
  have hhigh' : (q : ℚ) < 2 ^ 53 := by exact_mod_cast hhigh
  have hfull : (2 : ℚ) ^ ((k : Int) - 52) = 2 ^ k / 2 ^ 52 := two_zpow_sub k 52
  have hround : (2 : ℚ) ^ ((k : Int) - 51) = 2 ^ k / 2 ^ 51 := two_zpow_sub k 51
  have hpow : (0 : ℚ) < 2 ^ k := by positivity
  rw [magnitude]
  rcases he with rfl | ⟨rfl, rfl⟩
  · rw [hfull, pow_succ (2 : ℚ) k]
    constructor <;> linarith [mul_le_mul_of_nonneg_right hlow' hpow.le,
      mul_lt_mul_of_pos_right hhigh' hpow]
  · -- rounded up to the next power of two
    have hnext : ((2 ^ 52 : Nat) : ℚ) * (2 ^ k / 2 ^ 51) = 2 ^ (k + 1) := by
      push_cast
      ring
    rw [hround, hnext, pow_succ (2 : ℚ) k]
    exact ⟨by linarith, le_rfl⟩

theorem isFinite_ofInt {n : Int} (hlog : n.natAbs.log2 < 1023) : (ofInt n).isFinite = true := by
  rw [← isSome_toRat?]
  by_cases hn : n = 0
  · rw [hn, toRat?_ofInt_zero]
    rfl
  · obtain ⟨r, hr, -⟩ := toRat?_ofInt hn hlog
    rw [hr]
    rfl

end Graphing.Binary64
