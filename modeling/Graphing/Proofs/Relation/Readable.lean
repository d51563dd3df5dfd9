/-
  Graphing.Proofs.Relation.Readable

  Whatever is cut off a relation can be read.

  A restriction is found by scanners that look for the end of the text, and is
  read by others: the one for intervals looks at the text without its blanks, the
  one for holes at the text without the blanks around it.  Nothing is accepted by
  the former and refused by the latter, so that a restriction that is cut off is
  never lost (`restriction_readable`).  A relation that ends in a blank is left
  out: the blank can be all there is of the value of a hole.
-/
import Graphing.Proofs.Interval.Endpoints
import Graphing.Proofs.Relation.Calls

namespace Graphing

/-! ## Blanks at the end of a text -/

namespace Text

theorem exists_stripRight (s : List Char) :
    ∃ blanks, s = stripRight s ++ blanks ∧ ∀ c ∈ blanks, isBlank c = true := by
  refine ⟨(s.reverse.takeWhile isBlank).reverse, ?_,
    fun c hc => List.mem_takeWhile_imp (List.mem_reverse.mp hc)⟩
  rw [stripRight, ← List.reverse_append, List.takeWhile_append_dropWhile, List.reverse_reverse]

theorem stripRight_stripRight (s : List Char) : stripRight (stripRight s) = stripRight s := by
  obtain ⟨blanks, hs, hblanks⟩ := exists_stripRight s
  conv_rhs => rw [hs, stripRight_append_blanks _ hblanks]

end Text

/-! ## Literals without their blanks -/

namespace Interval

open Text (compact isAsciiLetter isBlank isCaselessLetter le_iff_toNat strip stripLeft
  stripLeft_of_head stripRight stripRight_of_filled)

/-- A literal is an opening bracket, two sides with a comma between them, and a closing bracket. -/
theorem scanLiteral_eq_some_iff {s rest : List Char} {l : Literal} :
    scanLiteral s = some (l, rest) ↔
      ∃ opening sides upper closing, s = opening :: sides ∧
        Bracket.ofOpening? opening = some l.opening ∧
        scanSide false sides = some (l.lower, ',' :: upper) ∧
        scanSide false upper = some (l.upper, closing :: rest) ∧
        Bracket.ofClosing? closing = some l.closing := by
  constructor
  · intro h
    unfold scanLiteral at h
    split at h
    · rename_i opening sides
      obtain ⟨a, ha, h⟩ := Option.bind_eq_some_iff.mp h
      obtain ⟨⟨lower, rest₁⟩, hlower, h⟩ := Option.bind_eq_some_iff.mp h
      dsimp only at h
      split at h
      · rename_i upper
        obtain ⟨⟨upper', rest₂⟩, hupper, h⟩ := Option.bind_eq_some_iff.mp h
        dsimp only at h
        split at h
        · rename_i closing rest₃
          obtain ⟨b, hb, h⟩ := Option.bind_eq_some_iff.mp h
          cases h
          exact ⟨opening, sides, upper, closing, rfl, ha, hlower, hupper, hb⟩
        · cases h
      · cases h
    · cases h
  · rintro ⟨opening, sides, upper, closing, rfl, hopening, hlower, hupper, hclosing⟩
    simp [scanLiteral, hopening, hlower, hupper, hclosing]

theorem isOpener_of_ofOpening? {c : Char} {b : Bracket} (h : Bracket.ofOpening? c = some b) :
    isOpener c = true := by
  unfold Bracket.ofOpening? at h
  unfold isOpener
  cases hround : c == '(' with
  | true => rfl
  | false =>
    cases hsquare : c == '[' with
    | true => rfl
    | false => simp [hround, hsquare] at h

theorem isCloser_of_ofClosing? {c : Char} {b : Bracket} (h : Bracket.ofClosing? c = some b) :
    isCloser c = true := by
  unfold Bracket.ofClosing? at h
  unfold isCloser
  cases hround : c == ')' with
  | true => rfl
  | false =>
    cases hsquare : c == ']' with
    | true => rfl
    | false => simp [hround, hsquare] at h

theorem isBlank_of_isOpener {c : Char} (h : isOpener c = true) : isBlank c = false := by
  simp only [isOpener, Bool.or_eq_true, beq_iff_eq] at h
  rcases h with rfl | rfl <;> rfl

theorem isBlank_of_isCloser {c : Char} (h : isCloser c = true) : isBlank c = false := by
  simp only [isCloser, Bool.or_eq_true, beq_iff_eq] at h
  rcases h with rfl | rfl <;> rfl

theorem compact_cons_of_filled {c : Char} (hc : isBlank c = false) (s : List Char) :
    compact (c :: s) = c :: compact s :=
  List.filter_cons_of_pos (by rw [hc]; rfl)

theorem compact_cons_of_blank {c : Char} (hc : isBlank c = true) (s : List Char) :
    compact (c :: s) = compact s :=
  List.filter_cons_of_neg (by rw [hc]; decide)

/-- Blanks change nothing about where a side ends: none of them is a bracket or a comma. -/
theorem scanSide_compact {inGroup : Bool} {s side rest : List Char}
    (h : scanSide inGroup s = some (side, rest)) :
    scanSide inGroup (compact s) = some (compact side, compact rest) := by
  fun_induction scanSide inGroup s generalizing side rest with
  | case1 =>
    cases h
    rfl
  | case2 => cases h
  | case3 c cs hopen ih =>
    obtain ⟨⟨side', rest'⟩, hside, h⟩ := Option.bind_eq_some_iff.mp h
    cases h
    obtain rfl := beq_iff_eq.mp hopen
    have hfilled : isBlank '(' = false := rfl
    -- a group opens, and its blanks are scanned with it
    simp [compact_cons_of_filled hfilled, scanSide, ih hside]
  | case4 c cs hopen hstop =>
    cases h
    -- a character that ends the side is no blank
    have hfilled : isBlank c = false := by
      simp only [Bool.or_eq_true, beq_iff_eq] at hstop
      rcases hstop with ((rfl | rfl) | rfl) | rfl <;> rfl
    rw [compact_cons_of_filled hfilled, scanSide, if_neg hopen, if_pos hstop]
    rfl
  | case5 c cs hopen hstop ih =>
    obtain ⟨⟨side', rest'⟩, hside, h⟩ := Option.bind_eq_some_iff.mp h
    cases h
    -- a blank is dropped, and any other character is kept
    cases hblank : isBlank c with
    | true => rw [compact_cons_of_blank hblank, compact_cons_of_blank hblank, ih hside]
    | false =>
      rw [compact_cons_of_filled hblank, compact_cons_of_filled hblank, scanSide, if_neg hopen,
        if_neg hstop, ih hside]
      rfl
  | case6 => cases h
  | case7 c cs hopen ih =>
    obtain ⟨⟨side', rest'⟩, hside, h⟩ := Option.bind_eq_some_iff.mp h
    cases h
    cases hblank : isBlank c with
    | true =>
      -- only the end of a group matters in it, and this is no blank
      have hinside : (c != ')') = true := by
        rw [bne_iff_ne]
        rintro rfl
        cases hblank
      rw [compact_cons_of_blank hblank, compact_cons_of_blank hblank, ← ih hside, hinside]
    | false =>
      rw [compact_cons_of_filled hblank, compact_cons_of_filled hblank, scanSide, if_neg hopen,
        ih hside]
      rfl

theorem scanLiteral_compact {s rest : List Char} {l : Literal}
    (h : scanLiteral s = some (l, rest)) :
    scanLiteral (compact s) =
      some ({ l with lower := compact l.lower, upper := compact l.upper }, compact rest) := by
  obtain ⟨opening, sides, upper, closing, rfl, hopening, hlower, hupper, hclosing⟩ :=
    scanLiteral_eq_some_iff.mp h
  have hfilled : isBlank opening = false := isBlank_of_isOpener (isOpener_of_ofOpening? hopening)
  have hfilled' : isBlank closing = false := isBlank_of_isCloser (isCloser_of_ofClosing? hclosing)
  have hcomma : isBlank ',' = false := rfl
  refine scanLiteral_eq_some_iff.mpr
    ⟨opening, compact sides, compact upper, closing, compact_cons_of_filled hfilled _, hopening, ?_,
      ?_, hclosing⟩
  · rw [scanSide_compact hlower, compact_cons_of_filled hcomma]
  · rw [scanSide_compact hupper, compact_cons_of_filled hfilled']

/-- A text that the scanner takes for an interval is read as one, and not as a hole. -/
theorem read_of_endsWithLiteral {s : List Char} (h : endsWithLiteral s = true) :
    ∃ l, literal? s = some l ∧ hole? s = none := by
  unfold endsWithLiteral at h
  split at h
  · rename_i l rest hscan
    obtain ⟨-, hblank⟩ := Bool.and_eq_true_iff.mp h
    have hrest : compact rest = [] := by
      refine List.filter_eq_nil_iff.mpr fun c hc => ?_
      rw [List.all_eq_true.mp hblank c hc]
      decide
    have hcompact := scanLiteral_compact hscan
    rw [hrest] at hcompact
    refine ⟨_, by rw [literal?, hcompact], ?_⟩
    obtain ⟨opening, sides, _, _, hs, hopening, -⟩ := scanLiteral_eq_some_iff.mp hcompact
    exact hole?_eq_none hs (isOpener_of_ofOpening? hopening)
  · cases h

/-! ## Holes without the blanks around them -/

theorem isBlank_of_isCaselessLetter {c : Char} (h : isCaselessLetter c = true) :
    isBlank c = false := by
  have ha : 'a'.toNat = 97 := rfl
  have hz : 'z'.toNat = 122 := rfl
  have hA : 'A'.toNat = 65 := rfl
  have hZ : 'Z'.toNat = 90 := rfl
  simp only [isCaselessLetter, isAsciiLetter, Bool.or_eq_true, Bool.and_eq_true, decide_eq_true_eq,
    beq_iff_eq, le_iff_toNat, ha, hz, hA, hZ] at h
  simp only [isBlank, Bool.or_eq_false_iff, Bool.and_eq_false_iff, decide_eq_false_iff_not,
    beq_eq_false_iff_ne]
  omega

/-- A hole begins with a letter. -/
theorem exists_letter_of_scanHole {s : List Char} (h : (scanHole s).isSome = true) :
    ∃ c rest, s = c :: rest ∧ isCaselessLetter c = true := by
  cases s with
  | nil => cases h
  | cons c rest =>
    obtain ⟨found, h⟩ := Option.isSome_iff_exists.mp h
    obtain ⟨_, hletter, -⟩ := Option.bind_eq_some_iff.mp h
    refine ⟨c, rest, rfl, ?_⟩
    unfold guard at hletter
    split at hletter
    · assumption
    · cases hletter

/-- A text that ends in no blank and that the scanner takes for a hole is read as one, and not as an
interval. -/
theorem read_of_scanHole {s : List Char} (hs : ∀ c ∈ s.getLast?, isBlank c = false)
    (h : (scanHole s).isSome = true) :
    ∃ c value, hole? s = some (c, value) ∧ literal? s = none := by
  obtain ⟨c, rest, hcons, hletter⟩ := exists_letter_of_scanHole h
  have hfilled := isBlank_of_isCaselessLetter hletter
  have hstrip : strip s = s := by
    rw [strip, stripLeft_of_head, stripRight_of_filled hs]
    rw [hcons]
    rintro _ ⟨⟩
    exact hfilled
  obtain ⟨⟨name, value⟩, hscan⟩ := Option.isSome_iff_exists.mp h
  refine ⟨name, stripLeft value, by rw [hole?, hstrip, hscan]; rfl, ?_⟩
  rw [literal?, hcons, compact_cons_of_filled hfilled]
  -- a letter is no bracket
  cases hliteral : scanLiteral (c :: compact rest) with
  | none => rfl
  | some found =>
    obtain ⟨l, left⟩ := found
    obtain ⟨opening, _, _, _, hopen, hopening, -⟩ := scanLiteral_eq_some_iff.mp hliteral
    obtain ⟨rfl, -⟩ := List.cons.inj hopen
    have hopener := isOpener_of_ofOpening? hopening
    simp only [isOpener, Bool.or_eq_true, beq_iff_eq] at hopener
    rcases hopener with rfl | rfl <;> cases hletter

end Interval

namespace Relation

open Graphing.Interval (endsWithLiteral_of_not_opener exists_letter_of_scanHole hole?
  isBlank_of_isCaselessLetter isBlank_of_isOpener isOpener literal? ofText punctured
  read_of_endsWithLiteral read_of_scanHole)
open Text (isBlank strip stripLeft_of_head stripRight stripRight_of_filled stripRight_stripRight
  exists_stripRight)

/-! ## What is found, and what is left out -/

/-- What is found at the end of a relation passes for an interval or a hole. -/
theorem isRestriction_of_findRestriction? {s before found : List Char}
    (h : findRestriction? s = some (before, found)) : isRestriction found = true := by
  unfold findRestriction? at h
  split at h
  · rename_i marked hmarked
    cases h
    exact (Bool.and_eq_true_iff.mp (test_of_splitFirst hmarked)).2
  · obtain ⟨hbare, -⟩ := Option.filter_eq_some_iff.mp h
    rw [isRestriction, test_of_splitFirst hbare, Bool.true_or]

/-- What passes for an interval or a hole begins with a bracket or a letter. -/
theorem exists_cons_of_isRestriction {s : List Char} (h : isRestriction s = true) :
    ∃ c rest, s = c :: rest ∧ isBlank c = false := by
  rcases Bool.or_eq_true_iff.mp h with hliteral | hhole
  · cases s with
    | nil => cases hliteral
    | cons c rest =>
      refine ⟨c, rest, rfl, isBlank_of_isOpener ?_⟩
      cases hopener : isOpener c with
      | true => rfl
      | false =>
        rw [endsWithLiteral_of_not_opener hopener] at hliteral
        cases hliteral
  · obtain ⟨c, rest, hs, hletter⟩ := exists_letter_of_scanHole hhole
    exact ⟨c, rest, hs, isBlank_of_isCaselessLetter hletter⟩

/-- Between a text and what it is without its end there are blanks, or the word with blanks around
it. -/
theorem exists_gap (s : List Char) :
    ∃ gap, s = stripRight (withoutOn (stripRight s)) ++ gap ∧ (gap = [] ∨ IsLeadIn gap) := by
  obtain ⟨after, hs, hafter⟩ := exists_stripRight s
  have hblank : after = [] ∨ IsLeadIn after := by
    by_cases hne : after = []
    · exact .inl hne
    · exact .inr (.blanks hne hafter)
  unfold withoutOn
  split
  · rename_i n o rest hreverse
    split
    · rename_i hon
      rw [Bool.and_eq_true, isLetter_n, isLetter_o] at hon
      obtain ⟨before, hrest, hbefore⟩ := exists_stripRight rest.reverse
      refine ⟨before ++ o :: n :: after, ?_, .inr (.on hbefore hon.2 hon.1 hafter)⟩
      have hword : stripRight s = rest.reverse ++ [o, n] := by
        rw [← List.reverse_reverse (stripRight s), hreverse]
        simp
      calc s = stripRight s ++ after := hs
        _ = rest.reverse ++ [o, n] ++ after := by rw [hword]
        _ = stripRight rest.reverse ++ before ++ [o, n] ++ after := by rw [← hrest]
        _ = stripRight (stripRight rest.reverse) ++ (before ++ o :: n :: after) := by
          rw [stripRight_stripRight]
          simp
    · exact ⟨after, by rwa [stripRight_stripRight], hblank⟩
  · exact ⟨after, by rwa [stripRight_stripRight], hblank⟩

/-! ## What is cut off -/

/-- A restriction is read as an interval or as a hole, by one reader only, and stands for what that
reader makes of it. -/
inductive IsRead (r : List Char) : Prop
  | interval {l : Interval.Literal} (hread : literal? r = some l) (hother : hole? r = none)
    (hvalue : ofText r = l.interval)
  | hole {c : Char} {value : List Char} (hread : hole? r = some (c, value))
    (hother : literal? r = none)
    (hvalue : ofText r = punctured <$> constantText (String.ofList value))

/-- What is found in a text that ends in no blank is read. -/
theorem IsRead.of_isRestriction {r : List Char} (hr : ∀ c ∈ r.getLast?, isBlank c = false)
    (h : isRestriction r = true) : IsRead r := by
  rcases Bool.or_eq_true_iff.mp h with hliteral | hhole
  · obtain ⟨l, hread, hother⟩ := read_of_endsWithLiteral hliteral
    exact .interval hread hother (by rw [ofText, hother, hread])
  · obtain ⟨c, value, hread, hother⟩ := read_of_scanHole hr hhole
    exact .hole hread hother (by rw [ofText, hread])

/-- A relation that ends in no blank is unchanged if it has no restriction.  Otherwise exactly one
reader accepts the restriction, and the relation is a shorter text, then blanks or the word `on`
with blanks around it, if anything, and then the restriction. -/
theorem restriction_readable {s : List Char} (hs : ∀ c ∈ s.getLast?, isBlank c = false) :
    (restriction s = [] → unrestricted s = s) ∧
      (restriction s ≠ [] → IsRead (restriction s) ∧ (unrestricted s).length < s.length ∧
        ∃ gap, s = unrestricted s ++ gap ++ restriction s ∧ (gap = [] ∨ IsLeadIn gap)) := by
  cases hfind : findRestriction? s with
  | none =>
    have hnone : restriction s = [] := by rw [restriction, hfind]
    exact ⟨fun _ => unrestricted_of_none hfind, fun hne => absurd hnone hne⟩
  | some parts =>
    obtain ⟨before, found⟩ := parts
    have hfound := isRestriction_of_findRestriction? hfind
    have hsplit := append_of_findRestriction hfind
    obtain ⟨c, rest, hcons, hfilled⟩ := exists_cons_of_isRestriction hfound
    -- the restriction ends where the relation does
    have hlast : ∀ c ∈ found.getLast?, isBlank c = false := by
      intro d hd
      refine hs d ?_
      rw [← hsplit, List.getLast?_append, Option.mem_def.mp hd]
      rfl
    have hhead : ∀ c ∈ found.head?, isBlank c = false := by
      rw [hcons]
      rintro _ ⟨⟩
      exact hfilled
    have hrestriction : restriction s = found := by
      rw [restriction, hfind]
      exact (congrArg stripRight (stripLeft_of_head hhead)).trans (stripRight_of_filled hlast)
    have hunrestricted : unrestricted s = stripRight (withoutOn (stripRight before)) := by
      rw [unrestricted, hfind]
    rw [hrestriction, hunrestricted]
    refine ⟨fun hnil => absurd (hcons.symm.trans hnil) (List.cons_ne_nil c rest), fun hne => ?_⟩
    obtain ⟨gap, hgap, hkind⟩ := exists_gap before
    have hwhole : s = stripRight (withoutOn (stripRight before)) ++ gap ++ found := by
      rw [← hgap, hsplit]
    refine ⟨.of_isRestriction hlast hfound, ?_, gap, hwhole, hkind⟩
    have hpositive : 0 < found.length := List.length_pos_of_ne_nil hne
    have hlength := congrArg List.length hwhole
    rw [List.length_append, List.length_append] at hlength
    omega

/-- A hole whose value has brackets and blanks in it, behind the word without any blank. -/
theorem restriction_readable_glued :
    let s := "y = 1/x oNx\t!= f( 1, [2 )".toList
    (∀ c ∈ s.getLast?, isBlank c = false) ∧ restriction s ≠ [] ∧ IsRead (restriction s) ∧
      (unrestricted s).length < s.length ∧
        ∃ gap, s = unrestricted s ++ gap ++ restriction s ∧ (gap = [] ∨ IsLeadIn gap) := by
  intro s
  have hs : ∀ c ∈ s.getLast?, isBlank c = false := by
    intro c hc
    rw [← Option.some.inj hc]
    decide
  have hne : restriction s ≠ [] := by decide +kernel
  exact ⟨hs, hne, (restriction_readable hs).2 hne⟩

end Relation
end Graphing
