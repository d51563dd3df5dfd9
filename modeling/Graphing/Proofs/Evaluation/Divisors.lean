/-
  Graphing.Proofs.Evaluation.Divisors

  Greatest common divisors and least common multiples of doubles.

  Both are operations on signed words of 64 bits.  A finite argument that is no
  integer makes the result NaN, but an integer that is no word is taken for the
  least word (`castWord`), and a result that is no word is wrapped into one
  (`wrapWord`).  So for words the result is the right one just if it is a word
  itself (`ofInt_wrapWord_eq_iff`): what is wrapped gets another sign, or falls
  below half of what it was.  Calls inherit this at each index
  (`call_divisors`).
-/
import Graphing.Proofs.Evaluation.Elementwise
import Graphing.Proofs.Number.Integers

namespace Graphing

open Binary64 (ofInt toInt? toRat?)

namespace Value

/-! ## Integers as words -/

/-- The integers that are signed words. -/
def IsWord (n : Int) : Prop := -2 ^ 63 ≤ n ∧ n < 2 ^ 63

instance (n : Int) : Decidable (IsWord n) := inferInstanceAs (Decidable (_ ∧ _))

/-- An integer as a word: the least word if it is none. -/
def castWord (n : Int) : Int := if IsWord n then n else -2 ^ 63

theorem castWord_of_isWord {n : Int} (h : IsWord n) : castWord n = n := if_pos h

theorem natAbs_castWord_le (n : Int) : (castWord n).natAbs ≤ 2 ^ 63 := by
  unfold castWord
  split
  · rename_i h
    obtain ⟨hlow, hhigh⟩ := h
    omega
  · decide

theorem toRat?_of_toInt? {x : Float} {n : Int} (h : toInt? x = some n) :
    toRat? x = some (n : ℚ) := by
  obtain ⟨q, hq, hn⟩ := Option.bind_eq_some_iff.mp h
  split at hn
  · rename_i hint
    cases hn
    rw [hq, Rat.eq_num_of_isInt hint, Rat.num_intCast]
  · cases hn

theorem isFinite_of_toInt? {x : Float} {n : Int} (h : toInt? x = some n) : x.isFinite = true := by
  rw [← Binary64.isSome_toRat?, toRat?_of_toInt? h]
  rfl

/-- An integer is read as a word. -/
theorem wordOf_of_toInt? {x : Float} {n : Int} (h : toInt? x = some n) : wordOf x = castWord n := by
  rw [wordOf, toRat?_of_toInt? h]
  dsimp only
  have hfloor : (if (n : ℚ) < 0 then -(-(n : ℚ)).floor else (n : ℚ).floor) = n := by
    rw [← Int.cast_neg, Rat.floor_intCast, Rat.floor_intCast, neg_neg, ite_self]
  rw [hfloor]
  rfl

/-- Among finite doubles just the integers are whole. -/
theorem isWhole_of_isFinite {x : Float} (h : x.isFinite = true) :
    isWhole x = (toInt? x).isSome := by
  obtain ⟨neg, m, e, hparts⟩ := (Binary64.isFinite_parts x).mp h
  rw [isWhole, hparts]

/-! ## Wrapped results -/

/-- A word is the remainder by `2 ^ 64` that is nearest to zero. -/
theorem wrapWord_eq (n : Nat) :
    wrapWord n = if n % 2 ^ 64 < 2 ^ 63 then (n % 2 ^ 64 : Int) else n % 2 ^ 64 - 2 ^ 64 := by
  change Int.bmod n (2 ^ 64 : Nat) = _
  rw [Int.bmod_def]
  split_ifs <;> omega

theorem isWord_wrapWord (n : Nat) : IsWord (wrapWord n) := by
  rw [wrapWord_eq]
  unfold IsWord
  split <;> omega

theorem wrapWord_of_lt {n : Nat} (h : n < 2 ^ 63) : wrapWord n = n := by
  rw [wrapWord_eq, if_pos (by omega)]
  omega

/-- What is too large for a word becomes negative, or it was larger by a multiple of `2 ^ 64`. -/
theorem wrapWord_of_le {n : Nat} (h : 2 ^ 63 ≤ n) :
    wrapWord n < 0 ∨ 0 ≤ wrapWord n ∧ 2 ^ 64 ≤ n := by
  rw [wrapWord_eq]
  split <;> omega

theorem log2_lt_of_isWord {n : Int} (h : IsWord n) : n.natAbs.log2 < 64 := by
  obtain ⟨hlow, hhigh⟩ := h
  by_cases hn : n = 0
  · rw [hn]
    decide
  · exact (Nat.log2_lt (Int.natAbs_ne_zero.mpr hn)).mpr (by omega)

/-- A wrapped number stays the same double just if nothing was wrapped. -/
theorem ofInt_wrapWord_eq_iff {n : Nat} (hlog : n.log2 < 1023) :
    ofInt (wrapWord n) = ofInt n ↔ n < 2 ^ 63 := by
  refine ⟨fun heq => ?_, fun h => by rw [wrapWord_of_lt h]⟩
  by_contra hlarge
  rw [not_lt] at hlarge
  obtain ⟨r, hr, hlow, -⟩ := Binary64.toRat?_ofInt (n := n) (by omega) (by simpa using hlog)
  rw [← heq, decide_eq_false (by omega), Binary64.signed, if_neg Bool.false_ne_true] at hr
  have hpos : (0 : ℚ) < r := lt_of_lt_of_le (by positivity) hlow
  obtain hneg | ⟨hnonneg, htwice⟩ := wrapWord_of_le hlarge
  · -- the sign is another one
    obtain ⟨r', hr', hlow', -⟩ := Binary64.toRat?_ofInt hneg.ne
      ((log2_lt_of_isWord (isWord_wrapWord n)).trans (by decide))
    have hpos' : (0 : ℚ) < r' := lt_of_lt_of_le (by positivity) hlow'
    rw [hr, decide_eq_true hneg, Binary64.signed, if_pos rfl] at hr'
    linarith [Option.some.inj hr']
  · obtain hzero | hne := eq_or_ne (wrapWord n) 0
    -- nothing is left of it
    · rw [hzero, Binary64.toRat?_ofInt_zero] at hr
      exact hpos.ne (Option.some.inj hr)
    · -- half of what it was is between them
      obtain ⟨r', hr', -, hhigh'⟩ := Binary64.toRat?_ofInt hne
        ((log2_lt_of_isWord (isWord_wrapWord n)).trans (by decide))
      rw [hr, decide_eq_false (by omega), Binary64.signed, if_neg Bool.false_ne_true] at hr'
      obtain ⟨-, hword⟩ := isWord_wrapWord n
      have hsmall : (wrapWord n).natAbs.log2 < 63 :=
        (Nat.log2_lt (Int.natAbs_ne_zero.mpr hne)).mpr (by omega)
      have hbig : 64 ≤ n.log2 := (Nat.le_log2 (by omega)).mpr htwice
      have hbetween : r < r :=
        calc r = r' := Option.some.inj hr'
          _ ≤ 2 ^ ((wrapWord n).natAbs.log2 + 1) := hhigh'
          _ ≤ 2 ^ 63 := pow_le_pow_right₀ one_le_two (by omega)
          _ < 2 ^ 64 := by norm_num
          _ ≤ 2 ^ n.log2 := pow_le_pow_right₀ one_le_two hbig
          _ ≤ r := hlow
      exact lt_irrefl r hbetween

/-! ## Operations on words -/

/-- The operations on pairs of integers. -/
inductive DivisorOp where
  | gcd
  | lcm
  deriving DecidableEq

namespace DivisorOp

/-- The operation on natural numbers. -/
def exact : DivisorOp → Nat → Nat → Nat
  | gcd => Nat.gcd
  | lcm => Nat.lcm

/-- The operation on words. -/
def words : DivisorOp → Int → Int → Int
  | gcd => gcdWords
  | lcm => lcmWords

/-- The function with the name of the operation. -/
def fn : DivisorOp → Fn
  | gcd => .gcd
  | lcm => .lcm

/-- The operation on words is that on their magnitudes, wrapped. -/
theorem words_eq (op : DivisorOp) (m n : Int) :
    op.words m n = wrapWord (op.exact m.natAbs n.natAbs) := by
  cases op with
  | gcd => rfl
  | lcm =>
    change lcmWords m n = wrapWord (m.natAbs.lcm n.natAbs)
    rw [lcmWords]
    split
    · rename_i hzero
      obtain ⟨hm, hn⟩ := Nat.gcd_eq_zero_iff.mp hzero
      rw [hm, hn]
      rfl
    · rw [Nat.div_mul_right_comm (Nat.gcd_dvd_left _ _)]
      rfl

theorem log2_exact_lt (op : DivisorOp) {m n : Nat} (hm : m ≤ 2 ^ 63) (hn : n ≤ 2 ^ 63) :
    (op.exact m n).log2 < 1023 := by
  have hle : op.exact m n ≤ 2 ^ 126 := by
    cases op with
    | gcd =>
      obtain rfl | hpos := Nat.eq_zero_or_pos m
      · exact (Nat.gcd_zero_left n).trans_le (hn.trans (by norm_num))
      · exact (Nat.gcd_le_left n hpos).trans (hm.trans (by norm_num))
    | lcm =>
      calc m.lcm n ≤ m * n := Nat.div_le_self _ _
        _ ≤ 2 ^ 63 * 2 ^ 63 := Nat.mul_le_mul hm hn
        _ = 2 ^ 126 := by norm_num
  obtain hzero | hne := eq_or_ne (op.exact m n) 0
  · rw [hzero]
    decide
  · exact ((Nat.log2_lt hne).mpr (by omega : _ < 2 ^ 127)).trans (by decide)

theorem apply_fn (op : DivisorOp) (x y : Float) :
    Value.apply op.fn [.sample x, .sample y] = .ok (.real true (onWords op.words x y)) := by
  cases op <;> rfl

/-- What an operation gives for two finite doubles. -/
structure Result (op : DivisorOp) (x y z : Float) : Prop where
  /-- Two numbers that are not both integers have no result. -/
  undefined : toInt? x = none ∨ toInt? y = none → z.isNaN = true
  /-- Two integers always have one: that of the words that they are taken for. -/
  defined : ∀ m n, toInt? x = some m → toInt? y = some n → z.isFinite = true ∧
    z = ofInt (wrapWord (op.exact (castWord m).natAbs (castWord n).natAbs))
  /-- Two words have the right result just if it is a word. -/
  right_iff : ∀ m n, toInt? x = some m → toInt? y = some n → IsWord m → IsWord n →
    (z = ofInt (op.exact m.natAbs n.natAbs) ↔ op.exact m.natAbs n.natAbs < 2 ^ 63)

theorem onWords_of_toInt? (op : DivisorOp) {x y : Float} {m n : Int} (hx : toInt? x = some m)
    (hy : toInt? y = some n) : onWords op.words x y =
      ofInt (wrapWord (op.exact (castWord m).natAbs (castWord n).natAbs)) := by
  rw [onWords, isWhole_of_isFinite (isFinite_of_toInt? hx),
    isWhole_of_isFinite (isFinite_of_toInt? hy), hx, hy, wordOf_of_toInt? hx, wordOf_of_toInt? hy,
    words_eq]
  rfl

theorem onWords_of_isFinite (op : DivisorOp) {x y : Float} (hx : x.isFinite = true)
    (hy : y.isFinite = true) (h : toInt? x = none ∨ toInt? y = none) :
    onWords op.words x y = Binary64.nan := by
  rw [onWords, isWhole_of_isFinite hx, isWhole_of_isFinite hy]
  rcases h with h | h
  · rw [h]
    rfl
  · rw [h, Option.isSome_none, Bool.and_false]
    rfl

theorem result_onWords (op : DivisorOp) {x y : Float} (hx : x.isFinite = true)
    (hy : y.isFinite = true) : op.Result x y (onWords op.words x y) where
  undefined h := by
    rw [op.onWords_of_isFinite hx hy h]
    exact Binary64.isNaN_nan
  defined m n hm hn := by
    have hvalue := op.onWords_of_toInt? hm hn
    refine ⟨?_, hvalue⟩
    rw [hvalue]
    exact Binary64.isFinite_ofInt ((log2_lt_of_isWord (isWord_wrapWord _)).trans (by decide))
  right_iff m n hm hn hwordm hwordn := by
    rw [op.onWords_of_toInt? hm hn, castWord_of_isWord hwordm, castWord_of_isWord hwordn]
    have hlem := castWord_of_isWord hwordm ▸ natAbs_castWord_le m
    have hlen := castWord_of_isWord hwordn ▸ natAbs_castWord_le n
    exact ofInt_wrapWord_eq_iff (op.log2_exact_lt hlem hlen)

/-- A result stays the result where what is not finite becomes NaN. -/
theorem Result.settle {op : DivisorOp} {x y z : Float} (h : op.Result x y z) :
    op.Result x y (if z.isFinite then z else Binary64.nan) := by
  by_cases hz : z.isFinite = true
  · rwa [if_pos hz]
  · rw [if_neg hz]
    exact {
      undefined := fun _ => Binary64.isNaN_nan
      defined := fun m n hm hn => absurd (h.defined m n hm hn).1 hz
      right_iff := fun m n hm hn _ _ => absurd (h.defined m n hm hn).1 hz }

/-! ## Formulas -/

/-- The formula of an operation on two variables. -/
def formula (op : DivisorOp) (u v : String) : CompiledFormula :=
  ⟨[u, v], .call op.fn [.argument 0, .argument 1]⟩

/-- The text of an operation on two variables. -/
def text : DivisorOp → String
  | gcd => "gcd(a,b)"
  | lcm => "lcm(a,b)"

theorem value_formula (op : DivisorOp) (u v : String) (x y : Float) :
    (op.formula u v).value #[x, y] = .ok (.real true (onWords op.words x y)) :=
  op.apply_fn x y

theorem result_valueAt (op : DivisorOp) (u v : String) {x y : Float} (hx : x.isFinite = true)
    (hy : y.isFinite = true) : op.Result x y ((op.formula u v).valueAt #[x, y]) := by
  have hreal : (op.formula u v).real? #[x, y] =
      .ok (if (onWords op.words x y).isFinite then onWords op.words x y else Binary64.nan) :=
    CompiledFormula.real?_ok_of_value (op.value_formula u v x y)
  rw [CompiledFormula.valueAt_of_real? hreal]
  exact (op.result_onWords hx hy).settle

/-- Whether an expression is a call with two variables. -/
def isCallOf (f : Fn) (u v : String) : Expr → Bool
  | .call g [.var u', .var v'] => g == f && u' == u && v' == v
  | _ => false

theorem eq_of_isCallOf {f : Fn} {u v : String} {x : Expr} (h : isCallOf f u v x = true) :
    x = .call f [.var u, .var v] := by
  unfold isCallOf at h
  split at h
  · simp only [Bool.and_eq_true, beq_iff_eq] at h
    obtain ⟨⟨rfl, rfl⟩, rfl⟩ := h
    rfl
  · cases h

theorem ofText_text (op : DivisorOp) :
    CompiledFormula.ofText op.text ["a", "b"] = .ok (op.formula "a" "b") := by
  have hparse : (Notation.parse op.text).toOption.any (isCallOf op.fn "a" "b") = true := by
    cases op <;> decide +kernel
  obtain ⟨x, hx, hcall⟩ := Except.exists_eq_ok_of_any hparse
  rw [CompiledFormula.ofText, hx, eq_of_isCallOf hcall]
  cases op <;> rfl

/-- The texts compile. A call with tensors that have a common shape has a result of that shape, and
each element of it is the result of the operation on the elements at its index, if they are
finite. -/
theorem call_divisors (op : DivisorOp) {u v : String} {values given : List (Tensor Float)}
    {named : List (String × Tensor Float)} {shape : List Nat}
    (hgives : (op.formula u v).Gives values named given)
    (hown : CompiledFormula.ownName ∉ named.map Prod.fst) (hfull : ∀ t ∈ given, t.IsFull)
    (hshape : Tensor.commonShapes? (given.map (·.shape)) = some shape) :
    CompiledFormula.ofText op.text ["a", "b"] = .ok (op.formula "a" "b") ∧
      ∃ t, (op.formula u v).call values named = .ok t ∧ t.shape = shape ∧ t.IsFull ∧
        ∀ i < Tensor.volume shape, ∃ x y z : Float,
          List.Forall₂ (fun s w => s.at? shape i = some w) given [x, y] ∧ t.data[i]? = some z ∧
            (x.isFinite = true → y.isFinite = true → op.Result x y z) := by
  refine ⟨op.ofText_text, _, (hgives.call_eq hown).trans (CompiledFormula.run_eq_generate hshape),
    rfl, .generate _ _, fun i hi => ?_⟩
  have hfits : ∀ t ∈ given, Tensor.Broadcasts t.shape.reverse shape.reverse := fun t ht =>
    .commonShapes hshape (List.mem_map.mpr ⟨t, ht, rfl⟩)
  obtain ⟨point, hpoint, hat⟩ := CompiledFormula.exists_point hfull hfits hi
  obtain ⟨x, y, rfl⟩ : ∃ x y, point = [x, y] :=
    List.length_eq_two.mp (hpoint.length_eq.symm.trans hgives.length_eq)
  refine ⟨x, y, _, hpoint, Tensor.data_generate shape _ i hi, fun hx hy => ?_⟩
  rw [hat]
  exact op.result_valueAt u v hx hy

/-- The least common multiple of four and six, and one that is no word: another number stands in its
place. -/
theorem call_divisors_wrapped :
    ∃ t z, (lcm.formula "a" "b").call
        [Tensor.vector #[4, 4294967296], Tensor.vector #[6, 4294967297]] [] = .ok t ∧
      t.data[0]? = some (ofInt (Nat.lcm 4 6)) ∧ t.data[1]? = some z ∧ z.isFinite = true ∧
      z ≠ ofInt (Nat.lcm 4294967296 4294967297) := by
  have hgives : (lcm.formula "a" "b").Gives
      [Tensor.vector #[4, 4294967296], Tensor.vector #[6, 4294967297]] []
      [Tensor.vector #[4, 4294967296], Tensor.vector #[6, 4294967297]] := .byPosition rfl
  have hfull : ∀ t ∈ [Tensor.vector #[(4 : Float), 4294967296], Tensor.vector #[6, 4294967297]],
      t.IsFull := by
    simp only [List.forall_mem_cons]
    exact ⟨rfl, rfl, by simp⟩
  obtain ⟨-, t, hcall, -, -, hat⟩ :=
    call_divisors lcm hgives List.not_mem_nil hfull (rfl : _ = some [2])
  obtain ⟨x, y, z, hxy, hz, hresult⟩ := hat 0 (by decide)
  obtain ⟨x', y', z', hxy', hz', hresult'⟩ := hat 1 (by decide)
  simp only [List.forall₂_cons, List.forall₂_nil_right_iff, and_true] at hxy hxy'
  obtain ⟨hx, hy⟩ := hxy
  obtain ⟨hx', hy'⟩ := hxy'
  obtain rfl : x = 4 := (Option.some.inj hx).symm
  obtain rfl : y = 6 := (Option.some.inj hy).symm
  obtain rfl : x' = 4294967296 := (Option.some.inj hx').symm
  obtain rfl : y' = 4294967297 := (Option.some.inj hy').symm
  have hfour : toInt? 4 = some 4 := by decide +kernel
  have hsix : toInt? 6 = some 6 := by decide +kernel
  have hpower : toInt? 4294967296 = some 4294967296 := by decide +kernel
  have hnext : toInt? 4294967297 = some 4294967297 := by decide +kernel
  have hresult := hresult (isFinite_of_toInt? hfour) (isFinite_of_toInt? hsix)
  have hresult' := hresult' (isFinite_of_toInt? hpower) (isFinite_of_toInt? hnext)
  have hright := (hresult.right_iff 4 6 hfour hsix (by decide) (by decide)).mpr (by decide)
  refine ⟨t, z', hcall, hright ▸ hz, hz', (hresult'.defined _ _ hpower hnext).1, fun hright' => ?_⟩
  exact absurd ((hresult'.right_iff _ _ hpower hnext (by decide) (by decide)).mp hright')
    (by decide)

end DivisorOp
end Value
end Graphing
