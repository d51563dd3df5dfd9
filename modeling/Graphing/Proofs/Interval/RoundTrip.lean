/-
  Graphing.Proofs.Interval.RoundTrip

  An interval that was read is written as a text that reads back as the same
  interval.

  What is read has one of two shapes (`ofText_cases`): all of the line but one
  point, or two bounds without a hole, where an infinite bound is the one at its
  end of the line.  Finite numbers are written with characters that separate
  nothing, are no blanks and spell no infinity (`isNumeral_general`), so a
  written bound is a side of its own (`isSide_boundText`), and its value is all
  that printing has to keep (`SurvivesPrinting`).
-/
import Graphing.Proofs.Evaluation.Finite
import Graphing.Proofs.Interval.Endpoints
import Graphing.Proofs.Number.Exact

namespace Graphing

/-! ## Numerals -/

namespace Decimal

/-- The characters that finite numbers are written with. -/
def numerals : List Char := "0123456789.e+-".toList

/-- One or more of the characters that finite numbers are written with. -/
structure IsNumeral (s : List Char) : Prop where
  ne_nil : s ≠ []
  subset : s ⊆ numerals

theorem mem_numerals_of_isDigit {c : Char} (h : c.isDigit = true) : c ∈ numerals := by
  have hrange : 48 ≤ c.toNat ∧ c.toNat ≤ 57 := by
    simpa [Char.isDigit, UInt32.le_iff_toNat_le] using h
  obtain ⟨hlow, hhigh⟩ := hrange
  rw [← Char.ofNat_toNat c]
  generalize c.toNat = n at hlow hhigh
  interval_cases n <;> decide

theorem isNumeral_padded (width n : Nat) : IsNumeral (padded width n) where
  ne_nil := List.append_ne_nil_of_right_ne_nil _ Nat.toDigits_ne_nil
  subset := by
    refine List.append_subset.mpr ⟨fun c hc => ?_, fun c hc => ?_⟩
    · rw [List.eq_of_mem_replicate hc]
      decide
    · exact mem_numerals_of_isDigit (Nat.isDigit_of_mem_toDigits (by decide) le_rfl hc)

theorem subset_exponentChars (k : Int) : exponentChars k ⊆ numerals := by
  refine List.cons_subset.mpr ⟨by decide, List.cons_subset.mpr ⟨?_, (isNumeral_padded 2 _).subset⟩⟩
  split <;> decide

theorem isNumeral_exponential (d : Digits) : IsNumeral d.exponential := by
  have hchars : IsNumeral d.chars := isNumeral_padded d.count d.digits
  unfold Digits.exponential
  split
  · rename_i hnil
    exact absurd hnil hchars.ne_nil
  · rename_i c hone
    have hc : c ∈ numerals := hchars.subset (by simp [hone])
    exact ⟨List.cons_ne_nil _ _, List.cons_subset.mpr ⟨hc, subset_exponentChars _⟩⟩
  · rename_i c rest _ hmore
    obtain ⟨hc, hrest⟩ := List.cons_subset.mp (hmore ▸ hchars.subset)
    refine ⟨List.cons_ne_nil _ _, List.append_subset.mpr ⟨?_, subset_exponentChars _⟩⟩
    exact List.cons_subset.mpr ⟨hc, List.cons_subset.mpr ⟨by decide, hrest⟩⟩

theorem isNumeral_positional (d : Digits) : IsNumeral d.positional := by
  have hchars : d.chars ⊆ numerals := (isNumeral_padded d.count d.digits).subset
  have hzeros (n : Nat) : List.replicate n '0' ⊆ numerals := fun c hc =>
    List.eq_of_mem_replicate hc ▸ by decide
  unfold Digits.positional
  dsimp only
  split
  · refine ⟨List.cons_ne_nil _ _, ?_⟩
    refine List.append_subset.mpr ⟨?_, hchars⟩
    exact List.cons_subset.mpr ⟨by decide, List.cons_subset.mpr ⟨by decide, hzeros _⟩⟩
  · rename_i n _
    have hwhole : IsNumeral (d.chars.take (n + 1) ++
        List.replicate (n + 1 - (d.chars.take (n + 1)).length) '0') := by
      refine ⟨List.ne_nil_of_length_pos ?_, ?_⟩
      · simp only [List.length_append, List.length_replicate]
        omega
      · exact List.append_subset.mpr ⟨List.Subset.trans (List.take_subset _ _) hchars, hzeros _⟩
    split
    · exact hwhole
    · rename_i hfrac
      refine ⟨List.append_ne_nil_of_left_ne_nil hwhole.ne_nil _, ?_⟩
      refine List.append_subset.mpr ⟨hwhole.subset, List.cons_subset.mpr ⟨by decide, ?_⟩⟩
      exact List.Subset.trans (List.drop_subset _ _) hchars

theorem isNumeral_signed {body : List Char} (h : IsNumeral body) (neg : Bool) :
    IsNumeral (signed neg body).toList := by
  rw [signed, String.toList_ofList]
  split
  · exact ⟨List.cons_ne_nil _ _, List.cons_subset.mpr ⟨by decide, h.subset⟩⟩
  · exact h

/-- A finite number is written with the characters of numbers. -/
theorem isNumeral_general {x : Float} (hx : x.isFinite = true) :
    IsNumeral (general x).toList := by
  obtain ⟨neg, m, e, hparts⟩ := (Binary64.isFinite_parts x).mp hx
  rw [general, withSpecials, hparts]
  refine isNumeral_signed ?_ neg
  dsimp only
  split
  · split
    · exact ⟨List.cons_ne_nil _ _, by decide⟩
    · exact isNumeral_positional _
  · exact isNumeral_exponential _

end Decimal

namespace Interval

open Decimal (IsNumeral numerals)
open Text (compact isBlank strip stripLeft stripRight)

/-! ## Written bounds -/

/-- The value of what a number is written as equals the number. -/
def SurvivesPrinting (v : Float) : Prop :=
  ∃ w, constantText (boundText v) = .ok w ∧ (w == v) = true

/-- The infinities equal themselves only, and are not finite. -/
theorem beq_infinity :
    ((Scale.negInf : Float) == Scale.negInf) = true ∧
      ((Scale.negInf : Float) == Scale.posInf) = false ∧
      ((Scale.posInf : Float) == Scale.posInf) = true ∧
      (Scale.negInf : Float).isFinite = false ∧ (Scale.posInf : Float).isFinite = false := by
  decide +kernel

theorem boundText_posInf : boundText Scale.posInf = "oo" := if_pos beq_infinity.2.2.1

theorem boundText_negInf : boundText Scale.negInf = "-oo" := by
  obtain ⟨hneg, hdifferent, -⟩ := beq_infinity
  rw [boundText, hdifferent, hneg]
  rfl

theorem isFinite_posInf : (Scale.posInf : Float).isFinite = false := beq_infinity.2.2.2.2

theorem isFinite_negInf : (Scale.negInf : Float).isFinite = false := beq_infinity.2.2.2.1

/-- A finite number equals no infinity. -/
theorem beq_eq_false_of_isFinite {v infinity : Float} (hv : v.isFinite = true)
    (h : infinity.isFinite = false) : (v == infinity) = false := by
  rw [Bool.eq_false_iff, Binary64.beq_comm]
  intro hbeq
  rw [Binary64.isFinite_of_beq_isFinite hbeq hv] at h
  cases h

theorem boundText_of_isFinite {v : Float} (hv : v.isFinite = true) :
    boundText v = Decimal.general v := by
  rw [boundText, beq_eq_false_of_isFinite hv isFinite_posInf,
    beq_eq_false_of_isFinite hv isFinite_negInf]
  rfl

/-- A number that a written interval can have at the given end of the line. -/
def IsBound (infinity v : Float) : Prop := v = infinity ∨ v.isFinite = true

/-- The characters that bounds are written with, those of infinities among them. -/
theorem boundText_chars {infinity v : Float} (hv : IsBound infinity v)
    (hinfinity : infinity = Scale.negInf ∨ infinity = Scale.posInf) :
    (boundText v).toList ≠ [] ∧ (boundText v).toList ⊆ 'o' :: numerals := by
  rcases hv with rfl | hv
  · rcases hinfinity with rfl | rfl
    · rw [boundText_negInf]
      decide
    · rw [boundText_posInf]
      decide
  · rw [boundText_of_isFinite hv]
    obtain ⟨hne, hsubset⟩ := Decimal.isNumeral_general hv
    exact ⟨hne, List.subset_cons_of_subset _ hsubset⟩

theorem plain_of_mem {c : Char} (hc : c ∈ 'o' :: numerals) :
    isSeparator c = false ∧ isBlank c = false ∧ isHoleStop c = false := by
  have hall : ('o' :: numerals).all
      (fun c => !isSeparator c && !isBlank c && !isHoleStop c) = true := rfl
  simpa [and_assoc] using List.all_eq_true.mp hall c hc

/-- Characters that separate nothing are a side. -/
theorem isSide_of_forall {s : List Char} (hne : s ≠ []) (h : ∀ c ∈ s, isSeparator c = false) :
    IsSide s := by
  refine ⟨s.map fun c => [c], by simpa using hne, ?_, ?_⟩
  · simp only [List.forall_mem_map]
    exact fun c hc => .char (h c hc)
  · rw [List.flatten_eq_flatMap, List.flatMap_map]
    simp

theorem isInfinite_of_isNumeral {s : List Char} (hs : IsNumeral s) : isInfinite s = false := by
  rw [Bool.eq_false_iff, ne_eq, isInfinite_iff]
  rintro (hinf | hoo)
  · exact absurd (hs.subset (hinf.subset (by decide : 'i' ∈ "inf".toList))) (by decide)
  · exact absurd (hs.subset (hoo.subset (by decide : 'o' ∈ "oo".toList))) (by decide)

/-- A written bound reads back as a bound that equals it. -/
theorem sideValue_boundText {infinity v : Float} (hv : IsBound infinity v)
    (hinfinity : infinity = Scale.negInf ∨ infinity = Scale.posInf)
    (hprint : v.isFinite = true → SurvivesPrinting v) :
    ∃ w, sideValue (boundText v).toList infinity = .ok w ∧ (w == v) = true := by
  rcases hv with rfl | hv
  · refine ⟨v, ?_, ?_⟩
    · rcases hinfinity with rfl | rfl
      · rw [boundText_negInf]
        rfl
      · rw [boundText_posInf]
        rfl
    · rcases hinfinity with rfl | rfl
      · exact beq_infinity.1
      · exact beq_infinity.2.2.1
  · obtain ⟨w, hw, hbeq⟩ := hprint hv
    refine ⟨w, ?_, hbeq⟩
    have hfinite : isInfinite (boundText v).toList = false := by
      rw [boundText_of_isFinite hv]
      exact isInfinite_of_isNumeral (Decimal.isNumeral_general hv)
    rw [sideValue, hfinite, String.ofList_toList]
    exact hw

/-! ## What is read -/

/-- The bounds of an interval, and its hole if it has one. -/
def numbers (i : Interval Float) : List Float := i.lower :: i.upper :: i.hole.toList

theorem isInf_sideValue {side : List Char} {infinity x : Float}
    (h : sideValue side infinity = .ok x) : x = infinity ∨ x.isInf = false := by
  unfold sideValue at h
  split at h
  · cases h
    exact .inl rfl
  · exact .inr (isInf_evalText h)

/-- What is read from a text is all of the line but one point, or it has no hole. Infinite bounds
are at their ends of the line. -/
theorem ofText_cases {s : List Char} {i : Interval Float} (h : ofText s = .ok i) :
    (∃ x : Float, x.isInf = false ∧ i = punctured x) ∨
      ∃ (x y : Float) (a b : Bool), (x = Scale.negInf ∨ x.isInf = false) ∧
        (y = Scale.posInf ∨ y.isInf = false) ∧ i = ⟨x, y, a, b, none⟩ := by
  unfold ofText at h
  split at h
  · rw [map_eq_pure_bind] at h
    obtain ⟨x, hx, h⟩ := Except.bind_eq_ok.mp h
    cases h
    exact .inl ⟨x, isInf_evalText hx, rfl⟩
  · split at h
    · rename_i l _
      obtain ⟨⟨x, y⟩, hbounds, h⟩ := Except.bind_eq_ok.mp h
      obtain ⟨x', hx, hbounds⟩ := Except.bind_eq_ok.mp hbounds
      obtain ⟨y', hy, hbounds⟩ := Except.bind_eq_ok.mp hbounds
      cases hbounds
      cases h
      exact .inr ⟨x, y, _, _, isInf_sideValue hx, isInf_sideValue hy, rfl⟩
    · cases h
      exact .inr ⟨Scale.negInf, Scale.posInf, false, false, .inl rfl, .inl rfl, rfl⟩

/-! ## Reading what is written -/

/-- A written interval reads as the values of its sides, between its brackets. -/
theorem ofText_of_sides {s lower upper : List Char} {opening closing : Char}
    (hs : compact s = opening :: (lower ++ ',' :: (upper ++ [closing])))
    (hopening : isOpener opening = true) (hlower : IsSide lower) (hupper : IsSide upper)
    (hclosing : isCloser closing = true) {x y : Float} (hx : sideValue lower Scale.negInf = .ok x)
    (hy : sideValue upper Scale.posInf = .ok y) :
    ofText s = .ok ⟨x, y, opening == '[', closing == ']', none⟩ := by
  obtain ⟨a, b, ha, hb, hscan⟩ := scanLiteral_written hopening hlower hupper hclosing
  have hliteral : literal? s = some ⟨a, lower, upper, b⟩ := by rw [literal?, hs, hscan]
  rw [ofText, hole?_eq_none hs hopening, hliteral]
  dsimp only
  rw [Literal.interval, Literal.bounds, hx, hy, ← eq_square_of_ofOpening? ha,
    ← eq_square_of_ofClosing? hb]
  rfl

theorem compact_eq_self {s : List Char} (h : ∀ c ∈ s, isBlank c = false) : compact s = s :=
  List.filter_eq_self.mpr fun c hc => by rw [h c hc]; rfl

/-- An interval without a hole, as it is written if a bound is finite, reads back. -/
theorem ofText_body {x y : Float} (hx : IsBound Scale.negInf x) (hy : IsBound Scale.posInf y)
    (hprintx : x.isFinite = true → SurvivesPrinting x)
    (hprinty : y.isFinite = true → SurvivesPrinting y) (a b : Bool) :
    ∃ x' y', ofText ((if a then "[" else "(") ++ boundText x ++ ", " ++ boundText y ++
        (if b then "]" else ")")).toList = .ok ⟨x', y', a, b, none⟩ ∧
      (x' == x) = true ∧ (y' == y) = true := by
  obtain ⟨x', hx', hbeqx⟩ := sideValue_boundText hx (.inl rfl) hprintx
  obtain ⟨y', hy', hbeqy⟩ := sideValue_boundText hy (.inr rfl) hprinty
  refine ⟨x', y', ?_, hbeqx, hbeqy⟩
  obtain ⟨hnex, hcharsx⟩ := boundText_chars hx (.inl rfl)
  obtain ⟨hney, hcharsy⟩ := boundText_chars hy (.inr rfl)
  have hlower := isSide_of_forall hnex fun c hc => (plain_of_mem (hcharsx hc)).1
  have hupper := isSide_of_forall hney fun c hc => (plain_of_mem (hcharsy hc)).1
  have hcompactx := compact_eq_self fun c hc => (plain_of_mem (hcharsx hc)).2.1
  have hcompacty := compact_eq_self fun c hc => (plain_of_mem (hcharsy hc)).2.1
  obtain ⟨opening, hopen, hopener, hopening, ha⟩ : ∃ c, (if a then "[" else "(").toList = [c] ∧
      isOpener c = true ∧ compact [c] = [c] ∧ (c == '[') = a := by
    cases a
    · exact ⟨'(', rfl, rfl, rfl, rfl⟩
    · exact ⟨'[', rfl, rfl, rfl, rfl⟩
  obtain ⟨closing, hclose, hcloser, hclosing, hb⟩ : ∃ c, (if b then "]" else ")").toList = [c] ∧
      isCloser c = true ∧ compact [c] = [c] ∧ (c == ']') = b := by
    cases b
    · exact ⟨')', rfl, rfl, rfl, rfl⟩
    · exact ⟨']', rfl, rfl, rfl, rfl⟩
  have hcomma : compact ", ".toList = [','] := rfl
  subst ha hb
  refine ofText_of_sides ?_ hopener hlower hupper hcloser hx' hy'
  simp only [String.toList_append, hopen, hclose, Text.compact_append, hcompactx, hcompacty,
    hopening, hclosing, hcomma]
  simp

/-- A hole, as it is written, reads back as a hole with its value. -/
theorem hole?_written {value : List Char} (hne : value ≠ [])
    (hchars : ∀ c ∈ value, isBlank c = false ∧ isHoleStop c = false) :
    hole? ("x != ".toList ++ value) = some ('x', value) := by
  have hleft : stripLeft ("x != ".toList ++ value) = "x != ".toList ++ value := rfl
  have hright : stripRight ("x != ".toList ++ value) = "x != ".toList ++ value := by
    refine List.rdropWhile_eq_self_iff.mpr fun hl => ?_
    rw [List.getLast_append_of_ne_nil _ hne, (hchars _ (List.getLast_mem hne)).1]
    exact Bool.false_ne_true
  have hblanks : stripLeft value = value := by
    obtain ⟨c, cs, rfl⟩ := List.exists_cons_of_ne_nil hne
    exact List.dropWhile_cons_of_neg (by simp [(hchars c List.mem_cons_self).1])
  have hstops : value.any isHoleStop = false :=
    List.any_eq_false.mpr fun c hc => by simp [(hchars c hc).2]
  have hscan : scanHole ("x != ".toList ++ value) = some ('x', ' ' :: value) := by
    have hvalue : (!(' ' :: value).isEmpty && !(' ' :: value).any isHoleStop) = true := by
      rw [List.any_cons, hstops]
      rfl
    change (do
      guard ((!(' ' :: value).isEmpty && !(' ' :: value).any isHoleStop) = true)
      pure ('x', ' ' :: value) : Option (Char × List Char)) = _
    rw [hvalue]
    rfl
  rw [hole?, strip, hleft, hright, hscan]
  exact congrArg (fun v => some ('x', v)) hblanks

theorem isUnbounded_punctured (x : Float) : (punctured x).isUnbounded = true :=
  (Bool.and_eq_true _ _).mpr ⟨beq_infinity.1, beq_infinity.2.2.1⟩

theorem agree_negInf : Scale.agree (Scale.negInf : Float) Scale.negInf = true :=
  Scale.agree_of_same beq_infinity.1

theorem agree_posInf : Scale.agree (Scale.posInf : Float) Scale.posInf = true :=
  Scale.agree_of_same beq_infinity.2.2.1

theorem agrees_punctured {x y : Float} (h : (x == y) = true) :
    (punctured x).agrees (punctured y) = true := by
  have hhole : Scale.agree x y = true := Scale.agree_of_same h
  simp [agrees, punctured, agree_negInf, agree_posInf, hhole]

/-- All of the line but one point reads back. -/
theorem ofText_toText_punctured {x : Float} (hx : x.isFinite = true) (hprint : SurvivesPrinting x) :
    ∃ j, ofText (toText (punctured x)).toList = .ok j ∧ j.agrees (punctured x) = true := by
  obtain ⟨w, hw, hbeq⟩ := hprint
  obtain ⟨hne, hchars⟩ := boundText_chars (.inr hx : IsBound Scale.posInf x) (.inr rfl)
  have hwritten : (toText (punctured x)).toList = "x != ".toList ++ (boundText x).toList := by
    rw [toText, isUnbounded_punctured]
    exact String.toList_append
  have hhole : hole? (toText (punctured x)).toList = some ('x', (boundText x).toList) := by
    rw [hwritten]
    exact hole?_written hne fun c hc => (plain_of_mem (hchars hc)).2
  have hvalue : constantText (String.ofList (boundText x).toList) = .ok w := by
    rw [String.ofList_toList]
    exact hw
  exact ⟨punctured w, ofText_of_hole hhole hvalue, agrees_punctured hbeq⟩

/-- Bounds that are both infinite are written as no text at all. -/
theorem eq_universal_of_isUnbounded {x y : Float} (hx : IsBound Scale.negInf x)
    (hy : IsBound Scale.posInf y) {a b : Bool}
    (h : (⟨x, y, a, b, none⟩ : Interval Float).isUnbounded = true) :
    x = Scale.negInf ∧ y = Scale.posInf := by
  obtain ⟨hlower, hupper⟩ := (Bool.and_eq_true _ _).mp h
  constructor
  · refine hx.resolve_right fun hfinite => ?_
    exact Bool.false_ne_true ((beq_eq_false_of_isFinite hfinite isFinite_negInf).symm.trans hlower)
  · refine hy.resolve_right fun hfinite => ?_
    exact Bool.false_ne_true ((beq_eq_false_of_isFinite hfinite isFinite_posInf).symm.trans hupper)

/-- An interval that is read from a text and has no NaN in it is written as a text that reads back
as the same interval, if its finite numbers survive being printed and no bracket is closed at the
ends of the whole line. -/
theorem ofText_toText {s : List Char} {i : Interval Float} (hread : ofText s = .ok i)
    (hnan : ∀ v ∈ i.numbers, v.isNaN = false)
    (hprint : ∀ v ∈ i.numbers, v.isFinite = true → SurvivesPrinting v)
    (hopen : i.isUnbounded = true → i.lowerClosed = false ∧ i.upperClosed = false) :
    ∃ j, ofText (toText i).toList = .ok j ∧ j.agrees i = true := by
  have hfinite (v : Float) (hv : v ∈ i.numbers) (hinf : v.isInf = false) : v.isFinite = true :=
    (Binary64.isFinite_or_isNaN hinf).resolve_right (by
      rw [hnan v hv]
      exact Bool.false_ne_true)
  obtain ⟨x, hx, rfl⟩ | ⟨x, y, a, b, hx, hy, rfl⟩ := ofText_cases hread
  · have hmem : x ∈ (punctured x).numbers := by simp [numbers, punctured]
    exact ofText_toText_punctured (hfinite x hmem hx) (hprint x hmem (hfinite x hmem hx))
  · have hmemx : x ∈ (⟨x, y, a, b, none⟩ : Interval Float).numbers := by simp [numbers]
    have hmemy : y ∈ (⟨x, y, a, b, none⟩ : Interval Float).numbers := by simp [numbers]
    have hboundx : IsBound Scale.negInf x := hx.imp_right (hfinite x hmemx)
    have hboundy : IsBound Scale.posInf y := hy.imp_right (hfinite y hmemy)
    cases hunbounded : (⟨x, y, a, b, none⟩ : Interval Float).isUnbounded with
    | true =>
      -- nothing is written for the whole line, which is read from an empty text again
      obtain ⟨rfl, rfl⟩ := hopen hunbounded
      obtain ⟨rfl, rfl⟩ := eq_universal_of_isUnbounded hboundx hboundy hunbounded
      rw [toText, hunbounded]
      exact ⟨universal, ofText_of_neither rfl rfl, by
        simp [agrees, universal, agree_negInf, agree_posInf]⟩
    | false =>
      obtain ⟨x', y', hbody, hbeqx, hbeqy⟩ :=
        ofText_body hboundx hboundy (hprint x hmemx) (hprint y hmemy) a b
      refine ⟨⟨x', y', a, b, none⟩, ?_, ?_⟩
      · rw [toText, hunbounded]
        exact hbody
      · have hlower : Scale.agree x' x = true := Scale.agree_of_same hbeqx
        have hupper : Scale.agree y' y = true := Scale.agree_of_same hbeqy
        simp [agrees, hlower, hupper]

/-- Bounds in the wrong order, the first of them as a call. -/
theorem ofText_toText_inverted :
    ofText "( mean(1,9), 1]".toList = .ok ⟨5, 1, false, true, none⟩ ∧ SurvivesPrinting 5 ∧
      SurvivesPrinting 1 ∧
      ∃ j, ofText (toText ⟨5, 1, false, true, none⟩).toList = .ok j ∧
        j.agrees ⟨5, 1, false, true, none⟩ = true := by
  have hlower : IsSide "mean(1,9)".toList :=
    ⟨[['m'], ['e'], ['a'], ['n'], "(1,9)".toList], by decide, by
      simp only [List.forall_mem_cons]
      exact ⟨.char rfl, .char rfl, .char rfl, .char rfl,
        @IsPiece.group "1,9".toList (by simp), by simp⟩, rfl⟩
  have hread : ofText "( mean(1,9), 1]".toList = .ok ⟨5, 1, false, true, none⟩ :=
    ofText_of_sides
      (by decide +kernel : _ = '(' :: ("mean(1,9)".toList ++ ',' :: ("1".toList ++ [']']))) rfl
      hlower (isSide_of_forall (by decide) (by simp; rfl)) rfl
      (Except.eq_ok_of_toOption (by decide +kernel)) (Except.eq_ok_of_toOption (by decide +kernel))
  have hfive : SurvivesPrinting 5 :=
    ⟨5, Except.eq_ok_of_toOption (by decide +kernel), by decide +kernel⟩
  have hone : SurvivesPrinting 1 :=
    ⟨1, Except.eq_ok_of_toOption (by decide +kernel), by decide +kernel⟩
  have hnan : ∀ v ∈ numbers ⟨5, 1, false, true, none⟩, v.isNaN = false := by decide +kernel
  refine ⟨hread, hfive, hone, ofText_toText hread hnan ?_ fun h => ?_⟩
  · simp only [numbers, Option.toList_none, List.forall_mem_cons]
    exact ⟨fun _ => hfive, fun _ => hone, by simp⟩
  · exact absurd h (by decide +kernel)

/-- A closed bracket at an end of the line is not written. -/
example : (ofText "[-oo, oo)".toList).toOption.map toText = some "" := by decide +kernel

end Interval
end Graphing
