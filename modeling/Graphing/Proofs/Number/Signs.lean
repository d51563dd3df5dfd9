/-
  Graphing.Proofs.Number.Signs

  The signs of doubles, and what negation does to arithmetic.

  A double is unpacked, reckoned with as a sign, a mantissa and an exponent,
  and packed again.  Packing loses what a double cannot hold, in the same way
  for both signs (`settled_neg`), and so does rounding; so sums and differences
  of negated doubles are the negated ones, but for the sign of zero, which no
  comparison sees (`Opposed`).
-/
import Mathlib
import Graphing.Number.Binary64

namespace Graphing.Binary64

open Float.Model (UnpackedFloat Format)
open Float.Model.UnpackedFloat

/-! ## The fields of a double -/

/-- The leading one of a mantissa that is not stored. -/
theorem toNat_implicit (m : BitVec 52) : (1#1 ++ m).toNat = 2 ^ 52 + m.toNat := by
  rw [BitVec.toNat_append, ← Nat.shiftLeft_add_eq_or_of_lt m.isLt]
  rfl

/-- What a sign, a stored exponent and a stored mantissa stand for. -/
def ofFields (s : Sign) (e : BitVec 11) (m : BitVec 52) : UnpackedFloat :=
  unpack .binary64 (packComponents .binary64 s e m)

theorem ofFields_eq (s : Sign) (e : BitVec 11) (m : BitVec 52) :
    ofFields s e m =
      if e = -1#11 then if m = 0#52 then .infinity s else .notANumber
      else if e = 0#11 then
        if h : m = 0#52 then .zero s
        else .finite s m.toNat ((e.toNat : Int) - 1075 + 1)
          (by simpa [BitVec.toNat_pos, BitVec.pos_iff_ne_zero])
      else .finite s (1#1 ++ m).toNat ((e.toNat : Int) - 1075) (by rw [toNat_implicit]; omega) := by
  rw [ofFields, unpack]
  simp only [unpackMantissa_packComponents, unpackExponent_packComponents,
    unpackSign_packComponents, Sign.ofBitVec_toBitVec]
  rfl

theorem ofFields_neg (s : Sign) (e : BitVec 11) (m : BitVec 52) :
    ofFields (-s) e m = (ofFields s e m).neg := by
  rw [ofFields_eq, ofFields_eq]
  split
  · split <;> rfl
  · split
    · split <;> rfl
    · rfl

theorem ofFields_ne_notANumber {e : BitVec 11} (he : e ≠ -1#11) (s : Sign) (m : BitVec 52) :
    ofFields s e m ≠ .notANumber := by
  rw [ofFields_eq, if_neg he]
  split
  · split <;> exact UnpackedFloat.noConfusion
  · exact UnpackedFloat.noConfusion

/-! ## Packing -/

/-- What is left of a number when it is packed. -/
def settled (u : UnpackedFloat) : UnpackedFloat := unpack .binary64 (pack .binary64 u)

theorem settled_infinity (s : Sign) : settled (.infinity s) = .infinity s := by cases s <;> rfl

theorem settled_zero (s : Sign) : settled (.zero s) = .zero s := by cases s <;> rfl

theorem settled_finite (s : Sign) (m : Nat) (e : Int) (hm : 0 < m) :
    settled (.finite s m e hm) =
      if 2 ^ 11 ≤ (e + 1075).toNat + 1 then .infinity s
      else if m.log2 + 1 = 53 then ofFields s (BitVec.ofNat 11 (e + 1075).toNat) (BitVec.ofNat 52 m)
      else ofFields s 0#11 (BitVec.ofNat 52 m) := by
  have hbias : e + (Format.binary64.exponentBias : Int) +
      (Format.binary64.mantissaBitsWithoutImplicit : Int) = e + 1075 := by
    show e + ((2 ^ (11 - 1) - 1 : Nat) : Int) + ((52 : Nat) : Int) = e + 1075
    omega
  have hbits : Format.binary64.mantissaBits = 53 := rfl
  rw [settled, pack]
  simp only [hbias, hbits]
  split
  · exact settled_infinity s
  · split <;> rfl

theorem settled_neg (u : UnpackedFloat) : settled u.neg = (settled u).neg := by
  cases u with
  | notANumber => rfl
  | infinity s => rw [UnpackedFloat.neg, settled_infinity, settled_infinity, UnpackedFloat.neg]
  | zero s => rw [UnpackedFloat.neg, settled_zero, settled_zero, UnpackedFloat.neg]
  | finite s m e hm =>
    rw [UnpackedFloat.neg, settled_finite, settled_finite]
    split
    · rfl
    · split <;> exact ofFields_neg s _ _

theorem settled_ne_notANumber {u : UnpackedFloat} (hu : u ≠ .notANumber) :
    settled u ≠ .notANumber := by
  cases u with
  | notANumber => exact absurd rfl hu
  | infinity s =>
    rw [settled_infinity]
    exact hu
  | zero s =>
    rw [settled_zero]
    exact hu
  | finite s m e hm =>
    rw [settled_finite]
    split
    · exact UnpackedFloat.noConfusion
    · rename_i hrange
      -- the exponent is below the one that is kept for infinities
      split
      · refine ofFields_ne_notANumber (fun h => ?_) _ _
        have htoNat := congrArg BitVec.toNat h
        rw [BitVec.toNat_ofNat, Nat.mod_eq_of_lt (by omega)] at htoNat
        have : (-1#11).toNat = 2047 := rfl
        omega
      · exact ofFields_ne_notANumber (by decide) _ _

/-! ## Doubles as they are reckoned with -/

/-- A double as a sign, a mantissa and an exponent. -/
def unpacked (x : Float) : UnpackedFloat := x.toModel.unpack

theorem unpacked_neg (x : Float) : unpacked (-x) = (unpacked x).neg := by
  have hself : settled (unpacked x) = unpacked x :=
    congrArg (unpack .binary64) (pack_unpack_of_valid x.toModel.valid)
  calc unpacked (-x) = settled (unpacked x).neg := rfl
    _ = (unpacked x).neg := by rw [settled_neg, hself]

theorem unpacked_add (x y : Float) :
    unpacked (x + y) = settled ((unpacked x).add .binary64 (unpacked y)) := rfl

theorem unpacked_sub (x y : Float) :
    unpacked (x - y) = settled ((unpacked x).sub .binary64 (unpacked y)) := rfl

theorem unpacked_mul (x y : Float) :
    unpacked (x * y) = settled ((unpacked x).mul .binary64 (unpacked y)) := rfl

theorem div_eq (x y : Float) :
    x / y = .ofModel (.pack ((unpacked x).div .binary64 (unpacked y))) := rfl

theorem isFinite_eq (x : Float) : x.isFinite = (unpacked x).isFinite := rfl

theorem beq_zero_eq (x : Float) : (x == 0) = (unpacked x).beq (.zero .positive) := rfl

theorem decide_pos_eq (x : Float) :
    decide (x > 0) = (UnpackedFloat.zero .positive).lt (unpacked x) := by
  show decide (Float.lt 0 x = true) = _
  rw [Bool.decide_eq_true]
  show decide ((_ : Bool) = true) = _
  rw [Bool.decide_eq_true]
  rfl

theorem decide_neg_eq (x : Float) :
    decide (x < 0) = (unpacked x).lt (.zero .positive) := by
  show decide (Float.lt x 0 = true) = _
  rw [Bool.decide_eq_true]
  show decide ((_ : Bool) = true) = _
  rw [Bool.decide_eq_true]
  rfl

/-! ## Signs -/

theorem isFinite_neg (u : UnpackedFloat) : u.neg.isFinite = u.isFinite := by cases u <;> rfl

theorem neg_beq_zero (u : UnpackedFloat) :
    u.neg.beq (.zero .positive) = u.beq (.zero .positive) := by
  cases u with
  | notANumber => rfl
  | infinity s => cases s <;> rfl
  | zero s => rfl
  | finite s => cases s <;> rfl

theorem zero_lt_neg (u : UnpackedFloat) :
    (UnpackedFloat.zero .positive).lt u.neg = u.lt (.zero .positive) := by
  cases u with
  | notANumber => rfl
  | infinity s => cases s <;> rfl
  | zero s => rfl
  | finite s => cases s <;> rfl

theorem neg_lt_zero (u : UnpackedFloat) :
    u.neg.lt (.zero .positive) = (UnpackedFloat.zero .positive).lt u := by
  cases u with
  | notANumber => rfl
  | infinity s => cases s <;> rfl
  | zero s => rfl
  | finite s => cases s <;> rfl

/-- A number that is not zero is negative or positive. -/
theorem lt_zero_eq {u : UnpackedFloat} (hnan : u ≠ .notANumber)
    (hzero : u.beq (.zero .positive) = false) :
    u.lt (.zero .positive) = !(UnpackedFloat.zero .positive).lt u := by
  cases u with
  | notANumber => exact absurd rfl hnan
  | infinity s => cases s <;> rfl
  | zero s => cases hzero
  | finite s => cases s <;> rfl

theorem ne_notANumber_of_isFinite {u : UnpackedFloat} (h : u.isFinite = true) :
    u ≠ .notANumber := by
  rintro rfl
  cases h

/-! ## Arithmetic with signs -/

theorem apply_neg (s : Sign) (n : Int) : (-s).apply n = -s.apply n := by
  cases s
  · exact (Int.neg_neg n).symm
  · rfl

theorem sign_mul_neg (s t : Sign) : s * -t = -(s * t) := by cases s <;> cases t <;> rfl

theorem sign_neg_div_neg (s t : Sign) : -s / -t = s / t := by cases s <;> cases t <;> rfl

variable (spec : Format)

theorem roundWithAccuracy_neg (s : Sign) (m : Nat) (e : Int) (a : Accuracy) :
    roundWithAccuracy spec (-s) m e a = (roundWithAccuracy spec s m e a).neg := by
  rw [roundWithAccuracy, roundWithAccuracy]
  dsimp only
  split <;> rfl

theorem roundWithAccuracy_ne_notANumber (s : Sign) (m : Nat) (e : Int) (a : Accuracy) :
    roundWithAccuracy spec s m e a ≠ .notANumber := by
  rw [roundWithAccuracy]
  dsimp only
  split <;> exact UnpackedFloat.noConfusion

theorem normalize_neg {m : Int} (hm : m ≠ 0) (e : Int) (s : Sign) :
    UnpackedFloat.normalize spec (-m) e s = (UnpackedFloat.normalize spec m e s).neg := by
  rcases Int.lt_or_gt_of_ne hm with hlt | hgt
  · rw [UnpackedFloat.normalize, UnpackedFloat.normalize, Int.compare_eq_gt.mpr (by omega),
      Int.compare_eq_lt.mpr hlt]
    exact roundWithAccuracy_neg spec .negative _ _ _
  · rw [UnpackedFloat.normalize, UnpackedFloat.normalize, Int.compare_eq_lt.mpr (by omega),
      Int.compare_eq_gt.mpr hgt, Int.neg_neg]
    exact roundWithAccuracy_neg spec .positive _ _ _

theorem normalize_ne_notANumber (m e : Int) (s : Sign) :
    UnpackedFloat.normalize spec m e s ≠ .notANumber := by
  rw [UnpackedFloat.normalize]
  split
  · exact roundWithAccuracy_ne_notANumber spec _ _ _ _
  · exact UnpackedFloat.noConfusion
  · exact roundWithAccuracy_ne_notANumber spec _ _ _ _

/-- Only an infinity that is added to a finite number gives no finite one, and it stays a number. -/
theorem add_ne_notANumber {u v : UnpackedFloat} (hu : u ≠ .notANumber) (hv : v.isFinite = true) :
    u.add spec v ≠ .notANumber := by
  cases v with
  | notANumber => cases hv
  | infinity t => cases hv
  | zero t =>
    cases u with
    | notANumber => exact absurd rfl hu
    | infinity s => exact hu
    | zero s => cases s <;> cases t <;> exact UnpackedFloat.noConfusion
    | finite s m e hm => exact hu
  | finite t n f hn =>
    cases u with
    | notANumber => exact absurd rfl hu
    | infinity s => exact hu
    | zero s => exact UnpackedFloat.noConfusion
    | finite s m e hm => exact normalize_ne_notANumber spec _ _ _

theorem finite_mul_ne_notANumber {s : Sign} {m : Nat} {e : Int} {hm : 0 < m} {u : UnpackedFloat}
    (hu : u ≠ .notANumber) : (UnpackedFloat.finite s m e hm).mul spec u ≠ .notANumber := by
  cases u with
  | notANumber => exact absurd rfl hu
  | infinity t => exact UnpackedFloat.noConfusion
  | zero t => exact UnpackedFloat.noConfusion
  | finite t n f hn => exact roundWithAccuracy_ne_notANumber spec _ _ _ _

theorem sub_eq_add_neg (u v : UnpackedFloat) : u.sub spec v = u.add spec v.neg := by
  cases u <;> cases v <;> try rfl
  simp only [UnpackedFloat.neg, UnpackedFloat.sub, UnpackedFloat.add, apply_neg,
    Int.sub_eq_add_neg]

theorem mul_neg (u v : UnpackedFloat) : u.mul spec v.neg = (u.mul spec v).neg := by
  cases u <;> cases v <;>
    simp only [UnpackedFloat.neg, UnpackedFloat.mul, sign_mul_neg, roundWithAccuracy_neg]

theorem neg_div_neg (u v : UnpackedFloat) : u.neg.div spec v.neg = u.div spec v := by
  cases u <;> cases v <;> simp only [UnpackedFloat.neg, UnpackedFloat.div, sign_neg_div_neg]

/-! ## Opposed numbers -/

/-- Two numbers are opposed: one is the other negated, or both are zero. -/
inductive Opposed : UnpackedFloat → UnpackedFloat → Prop where
  | neg (u : UnpackedFloat) : Opposed u u.neg
  | zero (s t : Sign) : Opposed (.zero s) (.zero t)

namespace Opposed

theorem settled {u v : UnpackedFloat} (h : Opposed u v) :
    Opposed (Binary64.settled u) (Binary64.settled v) := by
  cases h with
  | neg u =>
    rw [settled_neg]
    exact .neg _
  | zero s t =>
    rw [settled_zero, settled_zero]
    exact .zero s t

theorem neg_add_neg (u v : UnpackedFloat) : Opposed (u.add spec v) (u.neg.add spec v.neg) := by
  cases u with
  | notANumber => exact .neg .notANumber
  | infinity s =>
    cases v with
    | notANumber => exact .neg .notANumber
    | infinity t =>
      -- infinities of different signs have no sum, whichever of them is negated
      cases s <;> cases t
      · exact .neg (.infinity .negative)
      · exact .neg .notANumber
      · exact .neg .notANumber
      · exact .neg (.infinity .positive)
    | zero t => exact .neg (.infinity s)
    | finite t n f => exact .neg (.infinity s)
  | zero s =>
    cases v with
    | notANumber => exact .neg .notANumber
    | infinity t => exact .neg (.infinity t)
    | zero t => cases s <;> cases t <;> exact .zero _ _
    | finite t n f hn => exact .neg (.finite t n f hn)
  | finite s m e hm =>
    cases v with
    | notANumber => exact .neg .notANumber
    | infinity t => exact .neg (.infinity t)
    | zero t => exact .neg (.finite s m e hm)
    | finite t n f hn =>
      simp only [UnpackedFloat.neg, UnpackedFloat.add, apply_neg, ← Int.neg_add]
      generalize s.apply _ + t.apply _ = k
      by_cases hk : k = 0
      -- numbers that cancel give a positive zero both times
      · rw [hk]
        exact .zero .positive .positive
      · rw [normalize_neg spec hk]
        exact .neg _

/-- Opposed numbers stay opposed when a number is added to one and its negative to the other. -/
theorem add {u u' : UnpackedFloat} (h : Opposed u u') (v : UnpackedFloat) :
    Opposed (u.add spec v) (u'.add spec v.neg) := by
  cases h with
  | neg u => exact neg_add_neg spec u v
  | zero s t =>
    cases v with
    | notANumber => exact .neg .notANumber
    | infinity r => exact .neg (.infinity r)
    | zero r => cases s <;> cases t <;> cases r <;> exact .zero _ _
    | finite r n f hn => exact .neg (.finite r n f hn)

theorem mul (q : UnpackedFloat) {u v : UnpackedFloat} (h : Opposed u v) :
    Opposed (q.mul spec u) (q.mul spec v) := by
  cases h with
  | neg u =>
    rw [mul_neg]
    exact .neg _
  | zero s t =>
    cases q with
    | notANumber => exact .neg .notANumber
    | infinity r => exact .neg .notANumber
    | zero r => exact .zero _ _
    | finite r m e hm => exact .zero _ _

/-- A number that is not zero is opposed to its negative only. -/
theorem eq_neg {u v : UnpackedFloat} (h : Opposed u v) (hzero : u.beq (.zero .positive) = false) :
    v = u.neg := by
  cases h with
  | neg u => rfl
  | zero s t => cases hzero

theorem beq_zero {u v : UnpackedFloat} (h : Opposed u v) :
    v.beq (.zero .positive) = u.beq (.zero .positive) := by
  cases h with
  | neg u => exact neg_beq_zero u
  | zero s t => rfl

end Opposed

/-! ## Negated doubles -/

/-- A finite double that is not zero is negative or positive. -/
theorem decide_neg_eq_not {x : Float} (hfinite : x.isFinite = true) (hzero : (x == 0) = false) :
    decide (x < 0) = !decide (x > 0) := by
  rw [isFinite_eq] at hfinite
  rw [beq_zero_eq] at hzero
  rw [decide_neg_eq, decide_pos_eq, lt_zero_eq (ne_notANumber_of_isFinite hfinite) hzero]

theorem opposed_neg_sub_neg (x y : Float) : Opposed (unpacked (x - y)) (unpacked (-x - -y)) := by
  rw [unpacked_sub, unpacked_sub, unpacked_neg, unpacked_neg, sub_eq_add_neg, sub_eq_add_neg]
  exact (Opposed.neg_add_neg _ _ _).settled

/-- Where an even change from one double to another is zero does not depend on the sign. -/
theorem crossing_neg (x y : Float) :
    (if -x - -y != 0 then -x / (-x - -y) else 0.5) = if x - y != 0 then x / (x - y) else 0.5 := by
  have hopposed := opposed_neg_sub_neg x y
  have hzero : (-x - -y == 0) = (x - y == 0) := by
    rw [beq_zero_eq, beq_zero_eq, hopposed.beq_zero]
  rw [bne, bne, hzero]
  cases hd : (x - y == 0) with
  | true => rw [Bool.not_true, if_neg Bool.false_ne_true, if_neg Bool.false_ne_true]
  | false =>
    -- here the change is negated, not only opposed, and the signs of the quotient cancel
    rw [beq_zero_eq] at hd
    rw [Bool.not_false, if_pos rfl, if_pos rfl, div_eq, div_eq, unpacked_neg,
      hopposed.eq_neg hd, neg_div_neg]

/-- The mean of finite doubles that is not zero changes its sign with them. -/
theorem mean_neg {a b c d : Float} (ha : a.isFinite = true) (hb : b.isFinite = true)
    (hc : c.isFinite = true) (hd : d.isFinite = true)
    (hzero : (0.25 * (a + b + c + d) == 0) = false) :
    decide (0.25 * (-a + -b + -c + -d) > 0) = !decide (0.25 * (a + b + c + d) > 0) := by
  have hopposed : Opposed (unpacked (0.25 * (a + b + c + d)))
      (unpacked (0.25 * (-a + -b + -c + -d))) := by
    simp only [unpacked_mul, unpacked_add, unpacked_neg]
    have hab := Opposed.neg_add_neg .binary64 (unpacked a) (unpacked b)
    have habc := hab.settled.add .binary64 (unpacked c)
    exact ((habc.settled.add .binary64 (unpacked d)).settled.mul .binary64 _).settled
  have hnumber : unpacked (0.25 * (a + b + c + d)) ≠ .notANumber := by
    simp only [unpacked_mul, unpacked_add]
    have hab := add_ne_notANumber .binary64 (ne_notANumber_of_isFinite ha) hb
    have habc := add_ne_notANumber .binary64 (settled_ne_notANumber hab) hc
    have habcd := add_ne_notANumber .binary64 (settled_ne_notANumber habc) hd
    exact settled_ne_notANumber (finite_mul_ne_notANumber .binary64 (settled_ne_notANumber habcd))
  rw [decide_pos_eq, decide_pos_eq, hopposed.eq_neg hzero, zero_lt_neg, lt_zero_eq hnumber hzero]

end Graphing.Binary64
