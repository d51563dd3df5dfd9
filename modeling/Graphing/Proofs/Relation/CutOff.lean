/-
  Graphing.Proofs.Relation.CutOff

  A written interval at the end of a relation is cut off whole.

  The restriction of a relation is searched for from the left, and the search
  knows nothing of balanced brackets: what stands before the interval may hold
  brackets of any kind, commas and intervals of its own.  Still the first place
  where a restriction begins is the interval at the end: nothing that begins
  before it reaches the end of the text (`not_isRestriction_before`).  What is
  in between, blanks or the word `on`, is left out on both sides.
-/
import Graphing.Proofs.Interval.Written
import Graphing.Proofs.Relation.Rejoined
import Graphing.Relation.Restriction

namespace Graphing

namespace Text

/-! ## Blanks at the end of a text -/

theorem stripRight_append_blanks (s : List Char) {blanks : List Char}
    (h : ∀ c ∈ blanks, isBlank c = true) : stripRight (s ++ blanks) = stripRight s := by
  rw [stripRight, List.reverse_append,
    List.dropWhile_append_of_pos fun c hc => h c (List.mem_reverse.mp hc), stripRight]

theorem stripRight_of_filled {s : List Char} (h : ∀ c ∈ s.getLast?, isBlank c = false) :
    stripRight s = s := by
  have hhead : ∀ c ∈ s.reverse.head?, isBlank c = false := by rwa [List.head?_reverse]
  rw [stripRight, ← stripLeft, stripLeft_of_head hhead, List.reverse_reverse]

/-! ## Small forms beyond ASCII -/

/-- The small forms of capitals beyond ASCII lie beyond ASCII, but for the Kelvin sign. -/
theorem capitalRuns_shift : capitalRuns.toList.all (fun (lo, hi, _, shift) =>
    decide (128 ≤ lo + shift) || (Nat.beq lo hi && decide (lo + shift = 'k'.toNat))) = true := by
  decide +kernel

/-- A character beyond ASCII is the small form of itself, or of the character that its run shifts it
to. -/
theorem lowerChar_of_beyond {c : Char} (hc : 128 ≤ c.toNat) :
    lowerChar c = c ∨ ∃ lo hi step shift, (lo, hi, step, shift) ∈ capitalRuns.toList ∧
      lo ≤ c.toNat ∧ c.toNat ≤ hi ∧ lowerChar c = Char.ofNat (c.toNat + shift).toNat := by
  have hnot : ¬c.toNat < 128 := Nat.not_lt.mpr hc
  unfold lowerChar
  dsimp only
  rw [find?_capitalRuns, if_neg hnot]
  cases hfind : capitalRuns.find? (inRun c.toNat) with
  | none => exact .inl rfl
  | some run =>
    obtain ⟨lo, hi, step, shift⟩ := run
    have hin := Array.find?_some hfind
    simp only [inRun, Bool.and_eq_true, decide_eq_true_eq] at hin
    exact .inr ⟨lo, hi, step, shift, Array.mem_toList_iff.mpr (Array.mem_of_find?_eq_some hfind),
      hin.1.1, hin.1.2, rfl⟩

/-- A character beyond ASCII has the small form of no ASCII letter but `k`. -/
theorem lowerChar_ne_of_beyond {c small : Char} (hc : 128 ≤ c.toNat) (hsmall : small.toNat < 128)
    (hzero : small.toNat ≠ 0) (hk : small.toNat ≠ 'k'.toNat) : lowerChar c ≠ small := by
  intro heq
  obtain hself | ⟨lo, hi, step, shift, hmem, hlo, hhi, hshift⟩ := lowerChar_of_beyond hc
  · rw [heq] at hself
    rw [hself] at hsmall
    omega
  · have hrun := List.all_eq_true.mp capitalRuns_shift _ hmem
    simp only [Bool.or_eq_true, Bool.and_eq_true, decide_eq_true_eq, Nat.beq_eq] at hrun
    rw [heq] at hshift
    rcases toNat_ofNat (c.toNat + shift).toNat with hn | hn
    · rw [← hshift] at hn
      rcases hrun with hbeyond | ⟨rfl, hkelvin⟩
      · omega
      · have hc : c.toNat = lo := Nat.le_antisymm hhi hlo
        rw [hc, hkelvin] at hn
        exact hk hn
    · rw [← hshift] at hn
      exact hzero hn

end Text

namespace Relation

open Graphing.Interval (IsWritten isOpener isCloser endsWithLiteral endsWithLiteral_before_written
  endsWithLiteral_written scanHole)
open Text (isBlank lowerChar lowerChar_ne_of_beyond strip stripLeft stripLeft_of_head stripRight
  stripRight_append_blanks stripRight_of_filled)

/-! ## The letters of the word -/

/-- A letter is found in both sizes, and nowhere beyond ASCII. -/
theorem isLetter_iff {small capital : Char} (hcapital : capital.toNat < 128)
    (hsmall : small.toNat < 128) (hzero : small.toNat ≠ 0) (hk : small.toNat ≠ 'k'.toNat)
    (hascii : ∀ n < 128, lowerChar (Char.ofNat n) = small ↔
      Char.ofNat n = small ∨ Char.ofNat n = capital) {c : Char} :
    isLetter small c = true ↔ c = small ∨ c = capital := by
  rw [isLetter, beq_iff_eq]
  by_cases hc : c.toNat < 128
  · have hchar := hascii c.toNat hc
    rwa [Char.ofNat_toNat] at hchar
  · constructor
    · intro h
      exact absurd h (lowerChar_ne_of_beyond (Nat.not_lt.mp hc) hsmall hzero hk)
    · rintro (rfl | rfl)
      · exact absurd hsmall hc
      · exact absurd hcapital hc

theorem isLetter_o {c : Char} : isLetter 'o' c = true ↔ c = 'o' ∨ c = 'O' :=
  isLetter_iff (by decide) (by decide) (by decide) (by decide) (by decide +kernel)

theorem isLetter_n {c : Char} : isLetter 'n' c = true ↔ c = 'n' ∨ c = 'N' :=
  isLetter_iff (by decide) (by decide) (by decide) (by decide) (by decide +kernel)

/-! ## Texts before and between -/

/-- What sets a restriction off from the text before it: blanks, or the word `on` in letters of
either size, with or without blanks around it. -/
inductive IsLeadIn : List Char → Prop
  | blanks {blanks : List Char} (hne : blanks ≠ []) (h : ∀ c ∈ blanks, isBlank c = true) :
    IsLeadIn blanks
  | on {before after : List Char} {o n : Char} (hbefore : ∀ c ∈ before, isBlank c = true)
    (ho : o = 'o' ∨ o = 'O') (hn : n = 'n' ∨ n = 'N') (hafter : ∀ c ∈ after, isBlank c = true) :
    IsLeadIn (before ++ o :: n :: after)

/-- A text that a restriction can be cut off from without loss: it holds no hole, and does not end in
what is left out between the text and its restriction. -/
structure IsHead (e : List Char) : Prop where
  noHole : ¬['!', '='] <:+: e
  filled : ∀ c ∈ e.getLast?, isBlank c = false
  notOn : ∀ o n, (o = 'o' ∨ o = 'O') → (n = 'n' ∨ n = 'N') → ¬[o, n] <:+ e

theorem IsLeadIn.chars {l : List Char} (hl : IsLeadIn l) :
    ∀ c ∈ l, isBlank c = true ∨ c ∈ ['o', 'O', 'n', 'N'] := by
  intro c hc
  cases hl with
  | blanks _ h => exact .inl (h c hc)
  | on hbefore ho hn hafter =>
    simp only [List.mem_append, List.mem_cons] at hc
    rcases hc with hc | rfl | rfl | hc
    · exact .inl (hbefore c hc)
    · exact .inr (by rcases ho with rfl | rfl <;> decide)
    · exact .inr (by rcases hn with rfl | rfl <;> decide)
    · exact .inl (hafter c hc)

theorem IsLeadIn.equals_not_mem {l : List Char} (hl : IsLeadIn l) : '=' ∉ l := by
  intro hmem
  have := hl.chars '=' hmem
  revert this
  decide

theorem isLead_blank {c : Char} (hc : isBlank c = true) (rest : List Char) :
    isLead (c :: rest) = true := by
  cases rest <;> simp [isLead, hc]

/-- A lead-in ends in a blank or in the word. -/
theorem IsLeadIn.exists_last {l : List Char} (hl : IsLeadIn l) :
    (∃ start c, l = start ++ [c] ∧ isBlank c = true) ∨
    ∃ start o n, l = start ++ [o, n] ∧ (o = 'o' ∨ o = 'O') ∧ (n = 'n' ∨ n = 'N') := by
  cases hl with
  | blanks hne h =>
    obtain ⟨start, c, rfl⟩ := (List.eq_nil_or_concat' l).resolve_left hne
    exact .inl ⟨start, c, rfl, h c (by simp)⟩
  | @on before after o n hbefore ho hn hafter =>
    obtain rfl | ⟨start, c, rfl⟩ := List.eq_nil_or_concat' after
    · exact .inr ⟨before, o, n, rfl, ho, hn⟩
    · exact .inl ⟨before ++ o :: n :: start, c, by simp, hafter c (by simp)⟩

/-- A lead-in marks the place behind it. -/
theorem isLead_append {l : List Char} (hl : IsLeadIn l) (e : List Char) :
    isLead (e ++ l).reverse = true := by
  obtain ⟨start, c, rfl, hc⟩ | ⟨start, o, n, rfl, ho, hn⟩ := hl.exists_last
  · rw [← List.append_assoc, List.reverse_concat]
    exact isLead_blank hc _
  · have hreverse : (e ++ (start ++ [o, n])).reverse = n :: o :: (e ++ start).reverse := by simp
    rw [hreverse, isLead, isLetter_n.mpr hn, isLetter_o.mpr ho]
    simp

/-- A lead-in is no part of the sign of a hole. -/
theorem noHole_append {e l : List Char} (he : ¬['!', '='] <:+: e) (hl : '=' ∉ l) :
    ¬['!', '='] <:+: e ++ l := by
  rintro ⟨s, t, h⟩
  obtain ⟨rest, hhead, -⟩ | ⟨rest, hhead, htail⟩ := List.append_eq_append_iff.mp h
  · exact he ⟨s, rest, hhead.symm⟩
  · obtain rfl | ⟨start, c, rfl⟩ := List.eq_nil_or_concat' rest
    · exact he ⟨s, [], by simpa using hhead⟩
    · -- the lead-in would begin with the end of the sign
      have hlast := congrArg List.getLast? hhead
      rw [← List.append_assoc, List.getLast?_append] at hlast
      have hc : c = '=' := by simpa using hlast.symm
      rw [htail, hc] at hl
      exact hl (by simp)

/-! ## The place that is found -/

variable {r : List Char}

/-- What begins before a written interval, without the sign of a hole, is no hole. -/
theorem scanHole_before_written (hr : IsWritten r) {c : Char} {t : List Char}
    (h : ¬['!', '='] <:+: c :: t) : scanHole (c :: (t ++ r)) = none := by
  obtain ⟨opener, inside, hcons, hopener⟩ := hr.exists_cons
  have hopener' : opener = '(' ∨ opener = '[' := by simpa [isOpener] using hopener
  have hnosign : ∀ value, stripLeft (t ++ r) ≠ '!' :: '=' :: value := by
    intro value hsign
    rw [stripLeft, List.dropWhile_append] at hsign
    cases hrest : t.dropWhile isBlank with
    | nil =>
      -- only blanks stand before the written interval
      have hfilled : isBlank opener = false := by rcases hopener' with rfl | rfl <;> rfl
      rw [hrest, List.isEmpty_nil, if_pos rfl, hcons,
        List.dropWhile_cons_of_neg (by rw [hfilled]; decide)] at hsign
      obtain ⟨rfl, -⟩ := List.cons.inj hsign
      exact absurd hopener (by decide)
    | cons d ds =>
      rw [hrest, List.isEmpty_cons, if_neg Bool.false_ne_true, List.cons_append] at hsign
      obtain ⟨rfl, htail⟩ := List.cons.inj hsign
      cases ds with
      | nil =>
        rw [List.nil_append, hcons] at htail
        obtain ⟨rfl, -⟩ := List.cons.inj htail
        exact absurd hopener (by decide)
      | cons d' ds =>
        obtain ⟨rfl, -⟩ := List.cons.inj htail
        have hsplit : t = t.takeWhile isBlank ++ '!' :: '=' :: ds := by
          rw [← hrest, List.takeWhile_append_dropWhile]
        exact h ⟨c :: t.takeWhile isBlank, ds, by simpa using hsplit.symm⟩
  rw [Option.eq_none_iff_forall_ne_some]
  intro found hfound
  obtain ⟨-, -, hfound⟩ := Option.bind_eq_some_iff.mp hfound
  split at hfound
  · rename_i value hsign
    exact hnosign value hsign
  · cases hfound

/-- Nothing that begins before a written interval is a restriction. -/
theorem not_isRestriction_before (hr : IsWritten r) {t : List Char} (hne : t ≠ [])
    (h : ¬['!', '='] <:+: t) : isRestriction (t ++ r) = false := by
  cases t with
  | nil => exact absurd rfl hne
  | cons c t =>
    rw [List.cons_append, isRestriction, endsWithLiteral_before_written hr,
      scanHole_before_written hr h]
    rfl

/-- The search goes on where the test fails all along a text. -/
theorem splitFirst_append {test : List Char → List Char → Bool} {s : List Char} :
    ∀ {before : List Char},
      (∀ u v, u ++ v = s → v ≠ [] → test (u.reverse ++ before) (v ++ r) = false) →
      splitFirst test before (s ++ r) = splitFirst test (s.reverse ++ before) r := by
  induction s with
  | nil => exact fun _ => rfl
  | cons c cs ih =>
    intro before h
    have hhere := h [] (c :: cs) rfl (List.cons_ne_nil c cs)
    rw [List.reverse_nil, List.nil_append] at hhere
    rw [List.cons_append, splitFirst, ← List.cons_append, hhere, if_neg Bool.false_ne_true,
      ih, List.reverse_cons, List.append_assoc, List.singleton_append]
    intro u v huv hv
    have := h (c :: u) v (by rw [List.cons_append, huv]) hv
    rwa [List.reverse_cons, List.append_assoc, List.singleton_append] at this

/-- The restriction of a text that ends in a written interval is that interval. -/
theorem findRestriction?_append {s : List Char} (hr : IsWritten r) (hs : ¬['!', '='] <:+: s)
    (hlead : isLead s.reverse = true) : findRestriction? (s ++ r) = some (s, r) := by
  have hmarked : markedRestriction? (s ++ r) = some (s, r) := by
    rw [markedRestriction?, splitFirst_append]
    · obtain ⟨opener, inside, hcons, -⟩ := hr.exists_cons
      have hfound : isRestriction r = true := by
        rw [isRestriction, endsWithLiteral_written hr, Bool.true_or]
      rw [List.append_nil, hcons, splitFirst, ← hcons, hlead, hfound]
      simp
    · intro u v huv hv
      have hsub : ¬['!', '='] <:+: v := fun h => hs (h.trans ⟨u, [], by rw [List.append_nil, huv]⟩)
      rw [not_isRestriction_before hr hv hsub, Bool.and_false]
  rw [findRestriction?, hmarked]

/-! ## What comes back -/

theorem stripRight_written (hr : IsWritten r) : stripRight r = r := by
  obtain @⟨opening, closing, lower, upper, -, -, -, hclosing⟩ := hr
  have hlast : isBlank closing = false := by
    simp only [isCloser, Bool.or_eq_true, beq_iff_eq] at hclosing
    rcases hclosing with rfl | rfl <;> rfl
  have happ : opening :: (lower ++ ',' :: (upper ++ [closing])) =
      (opening :: (lower ++ ',' :: upper)) ++ [closing] := by simp
  refine stripRight_of_filled ?_
  rw [happ, List.getLast?_concat]
  rintro c ⟨⟩
  exact hlast

theorem strip_written (hr : IsWritten r) : strip r = r := by
  obtain ⟨opener, inside, hcons, hopener⟩ := hr.exists_cons
  have hfirst : isBlank opener = false := by
    simp only [isOpener, Bool.or_eq_true, beq_iff_eq] at hopener
    rcases hopener with rfl | rfl <;> rfl
  rw [strip, stripLeft_of_head, stripRight_written hr]
  rw [hcons]
  rintro c ⟨⟩
  exact hfirst

theorem withoutOn_concat {o n : Char} (ho : o = 'o' ∨ o = 'O') (hn : n = 'n' ∨ n = 'N')
    (s : List Char) : withoutOn (s ++ [o, n]) = stripRight s := by
  have hreverse : (s ++ [o, n]).reverse = n :: o :: s.reverse := by simp
  rw [withoutOn, hreverse]
  dsimp only
  rw [isLetter_n.mpr hn, isLetter_o.mpr ho, List.reverse_reverse]
  rfl

theorem IsHead.withoutOn {e : List Char} (he : IsHead e) : withoutOn e = e := by
  unfold Relation.withoutOn
  split
  · rename_i n o rest hreverse
    refine if_neg fun hon => ?_
    rw [Bool.and_eq_true, isLetter_n, isLetter_o] at hon
    have hsuffix : [o, n] <:+ e := by
      rw [← List.reverse_prefix, hreverse]
      exact ⟨rest, rfl⟩
    exact he.notOn o n hon.2 hon.1 hsuffix
  · rfl

/-- The word is removed once, and only where a lead-in has it. -/
theorem stripRight_withoutOn {e l : List Char} (he : IsHead e) (hl : IsLeadIn l) :
    stripRight (withoutOn (stripRight (e ++ l))) = e := by
  have hself : stripRight e = e := stripRight_of_filled he.filled
  cases hl with
  | blanks _ h => rw [stripRight_append_blanks e h, hself, he.withoutOn, hself]
  | @on before after o n hbefore ho hn hafter =>
    have hfilled : ∀ c ∈ (e ++ before ++ [o, n]).getLast?, isBlank c = false := by
      have hend : (e ++ before ++ [o, n]).getLast? = some n := by simp
      rw [hend]
      rintro c ⟨⟩
      rcases hn with rfl | rfl <;> rfl
    have hword : stripRight (e ++ (before ++ o :: n :: after)) = e ++ before ++ [o, n] := by
      have happ : e ++ (before ++ o :: n :: after) = e ++ before ++ [o, n] ++ after := by simp
      rw [happ, stripRight_append_blanks _ hafter, stripRight_of_filled hfilled]
    rw [hword, withoutOn_concat ho hn, stripRight_append_blanks e hbefore, hself, hself]

/-- A written interval at the end of a text, and the text before it, come back as they were
written. -/
theorem restriction_append_written {e l : List Char} (he : IsHead e) (hl : IsLeadIn l)
    (hr : IsWritten r) : restriction (e ++ l ++ r) = r ∧ unrestricted (e ++ l ++ r) = e := by
  have hfind : findRestriction? (e ++ l ++ r) = some (e ++ l, r) :=
    findRestriction?_append hr (noHole_append he.noHole hl.equals_not_mem) (isLead_append hl e)
  constructor
  · rw [restriction, hfind]
    exact strip_written hr
  · rw [unrestricted, hfind]
    exact stripRight_withoutOn he hl

/-- The text before may hold brackets that are not closed, a comma and an interval of its own. -/
theorem restriction_append_written_unbalanced :
    let e := "y = atan2(1, [x (0,1)".toList
    let l := " oN ".toList
    let r := "(-2, f(1)]".toList
    IsHead e ∧ IsLeadIn l ∧ IsWritten r ∧ restriction (e ++ l ++ r) = r ∧
      unrestricted (e ++ l ++ r) = e := by
  intro e l r
  have he : IsHead e :=
    { noHole := by decide +kernel
      filled := by
        intro c hc
        rw [← Option.some.inj hc]
        decide
      notOn := by rintro o n (rfl | rfl) (rfl | rfl) <;> decide +kernel }
  have hblank : ∀ c ∈ [' '], isBlank c = true := by
    intro c hc
    rw [List.mem_singleton.mp hc]
    rfl
  have hl : IsLeadIn l := .on hblank (.inl rfl) (.inr rfl) hblank
  have hlower : Interval.IsSide ['-', '2'] :=
    ⟨[['-'], ['2']], by decide, by rintro p (_ | ⟨_, _ | ⟨_, ⟨⟩⟩⟩) <;> exact .char rfl, rfl⟩
  have hupper : Interval.IsSide [' ', 'f', '(', '1', ')'] := by
    refine ⟨[[' '], ['f'], ['(', '1', ')']], by decide, ?_, rfl⟩
    rintro p (_ | ⟨_, _ | ⟨_, _ | ⟨_, ⟨⟩⟩⟩⟩)
    · exact .char rfl
    · exact .char rfl
    · have hgroup : ∀ c ∈ ['1'], c ≠ '(' ∧ c ≠ ')' := by
        intro c hc
        rw [List.mem_singleton.mp hc]
        exact ⟨by decide, by decide⟩
      exact .group hgroup
  have hr : IsWritten r := by
    have hopening : Interval.isOpener '(' = true := rfl
    have hclosing : Interval.isCloser ']' = true := rfl
    exact .mk hopening hlower hupper hclosing
  exact ⟨he, hl, hr, restriction_append_written he hl hr⟩

end Relation
end Graphing
