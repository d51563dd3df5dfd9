/-
  Graphing.Proofs.Interval.Endpoints

  The bounds of a written interval are the values of its sides.

  The comma between the sides is the first one outside of all groups, so calls
  with several arguments can stand in a side.  A side that mentions an infinity
  is not evaluated: it is the infinity at its end of the line.  Mentioning means
  having the letters `inf` or `oo`; what is said here about infinities is said
  where these stand by themselves.
-/
import Graphing.Interval.Text
import Graphing.Proofs.Except
import Graphing.Proofs.Interval.Written
import Mathlib.Data.List.DropRight

namespace Graphing.Interval

open Text (compact isBlank isCaselessLetter isWord strip stripLeft stripRight)

/-! ## Words in a side -/

theorem beginsWith_iff {word s : List Char} : beginsWith word s = true ↔ word <+: s := by
  induction word generalizing s with
  | nil => simp [beginsWith]
  | cons w ws ih =>
    cases s with
    | nil => simp [beginsWith]
    | cons c cs => rw [beginsWith, Bool.and_eq_true, beq_iff_eq, ih, List.cons_prefix_cons]

/-- A text mentions what is a part of it. -/
theorem mentions_iff {word s : List Char} : mentions word s = true ↔ word <:+: s := by
  induction s with
  | nil => rw [mentions, List.isEmpty_iff, List.infix_nil]
  | cons c cs ih => rw [mentions, Bool.or_eq_true, beginsWith_iff, ih, List.infix_cons_iff]

theorem isInfinite_iff {side : List Char} :
    isInfinite side = true ↔ "inf".toList <:+: side ∨ "oo".toList <:+: side := by
  rw [isInfinite, Bool.or_eq_true, mentions_iff, mentions_iff]

/-- A word stands by itself in a side: it is no part of a longer name. -/
def StandsAlone (word side : List Char) : Prop :=
  ∃ before after, side = before ++ word ++ after ∧
    (∀ c ∈ before.getLast?, isWord c = false) ∧ ∀ c ∈ after.head?, isWord c = false

/-- What a side denotes: a side without the letters of an infinity denotes its value, one in which
an infinity stands by itself denotes the one at its end of the line. -/
inductive Denotes (infinity : Float) (side : List Char) : Float → Prop where
  | value {x : Float} (hinf : ¬"inf".toList <:+: side) (hoo : ¬"oo".toList <:+: side)
      (hx : constantText (String.ofList side) = .ok x) : Denotes infinity side x
  | infinity {word : List Char} (hword : word = "inf".toList ∨ word = "oo".toList)
      (h : StandsAlone word side) : Denotes infinity side infinity

theorem Denotes.sideValue_eq {infinity x : Float} {side : List Char} (h : Denotes infinity side x) :
    sideValue side infinity = .ok x := by
  cases h with
  | value hinf hoo hx =>
    have hfinite : ¬isInfinite side = true := fun h => (isInfinite_iff.mp h).elim hinf hoo
    rw [sideValue, if_neg hfinite, hx]
  | infinity hword h =>
    obtain ⟨before, after, hside, -, -⟩ := h
    have hinfinite : isInfinite side = true := by
      rw [isInfinite_iff, hside]
      rcases hword with rfl | rfl
      · exact .inl ⟨before, after, rfl⟩
      · exact .inr ⟨before, after, rfl⟩
    rw [sideValue, if_pos hinfinite]

/-! ## Written intervals -/

/-- A text that begins with a bracket, apart from blanks, is no hole. -/
theorem hole?_eq_none {s cs : List Char} {c : Char} (hs : compact s = c :: cs)
    (hc : isOpener c = true) : hole? s = none := by
  obtain ⟨blanks, rest, rfl, hblanks, hfilled, -⟩ := List.filter_eq_cons_iff.mp hs
  have hleft : stripLeft (blanks ++ c :: rest) = c :: rest := by
    have hblank : ∀ d ∈ blanks, isBlank d = true := fun d hd => by simpa using hblanks d hd
    rw [stripLeft, List.dropWhile_append_of_pos hblank,
      List.dropWhile_cons_of_neg (by simpa using hfilled)]
  -- what is left of the text is empty or begins with the bracket
  obtain ⟨after, hafter⟩ := List.rdropWhile_prefix isBlank (l := stripLeft (blanks ++ c :: rest))
  change strip (blanks ++ c :: rest) ++ after = stripLeft (blanks ++ c :: rest) at hafter
  rw [hleft] at hafter
  rw [hole?]
  cases hstrip : strip (blanks ++ c :: rest) with
  | nil => rfl
  | cons d ds =>
    rw [hstrip, List.cons_append] at hafter
    obtain ⟨rfl, -⟩ := List.cons.inj hafter
    have hletter : isCaselessLetter d = false := by
      simp only [isOpener, Bool.or_eq_true, beq_iff_eq] at hc
      rcases hc with rfl | rfl <;> rfl
    simp [scanHole, hletter, guard, failure]

/-- A bracket, read as one of two characters, is square if it is the second of them. -/
theorem eq_square_of_ite {c round square : Char} {b : Bracket} (hne : (round == square) = false)
    (h : (if c == round then some Bracket.round else if c == square then some .square else none) =
      some b) : (b == .square) = (c == square) := by
  split at h
  · rename_i hround
    cases h
    rw [beq_iff_eq.mp hround, hne]
    rfl
  · split at h
    · rename_i hsquare
      cases h
      exact hsquare.symm
    · cases h

theorem eq_square_of_ofOpening? {c : Char} {b : Bracket} (h : Bracket.ofOpening? c = some b) :
    (b == .square) = (c == '[') :=
  eq_square_of_ite rfl h

theorem eq_square_of_ofClosing? {c : Char} {b : Bracket} (h : Bracket.ofClosing? c = some b) :
    (b == .square) = (c == ']') :=
  eq_square_of_ite rfl h

/-- The bounds of a written interval are what its sides denote, whatever calls stand in them, and a
bound is closed where the bracket is square. -/
theorem textBounds_written {s lower upper : List Char} {opening closing : Char}
    (hs : compact s = opening :: (lower ++ ',' :: (upper ++ [closing])))
    (hopening : isOpener opening = true) (hlower : IsSide lower) (hupper : IsSide upper)
    (hclosing : isCloser closing = true) {x y : Float} (hx : Denotes Scale.negInf lower x)
    (hy : Denotes Scale.posInf upper y) :
    textBounds s = .ok (x, y) ∧
      ofText s = .ok ⟨x, y, opening == '[', closing == ']', none⟩ := by
  obtain ⟨a, b, ha, hb, hscan⟩ := scanLiteral_written hopening hlower hupper hclosing
  have hliteral : literal? s = some ⟨a, lower, upper, b⟩ := by rw [literal?, hs, hscan]
  have hbounds : Literal.bounds ⟨a, lower, upper, b⟩ = .ok (x, y) := by
    rw [Literal.bounds, hx.sideValue_eq, hy.sideValue_eq]
    rfl
  constructor
  · rw [textBounds, hliteral]
    exact hbounds
  · rw [ofText, hole?_eq_none hs hopening, hliteral]
    dsimp only
    rw [Literal.interval, hbounds, ← eq_square_of_ofOpening? ha, ← eq_square_of_ofClosing? hb]
    rfl

/-- A call with two arguments for a lower bound, and an infinity. -/
theorem textBounds_written_mean :
    textBounds "[ mean(1,3), oo )".toList = .ok (2, Scale.posInf) ∧
      ofText "[ mean(1,3), oo )".toList = .ok ⟨2, Scale.posInf, true, false, none⟩ := by
  have hlower : IsSide "mean(1,3)".toList :=
    ⟨[['m'], ['e'], ['a'], ['n'], "(1,3)".toList], by decide, by
      simp only [List.forall_mem_cons]
      exact ⟨.char rfl, .char rfl, .char rfl, .char rfl,
        @IsPiece.group "1,3".toList (by simp), by simp⟩, rfl⟩
  have hupper : IsSide "oo".toList :=
    ⟨[['o'], ['o']], by decide, by
      simp only [List.forall_mem_cons]
      exact ⟨.char rfl, .char rfl, by simp⟩, rfl⟩
  have hx : Denotes Scale.negInf "mean(1,3)".toList 2 :=
    .value (by decide +kernel) (by decide +kernel) (Except.eq_ok_of_toOption (by decide +kernel))
  have hy : Denotes Scale.posInf "oo".toList Scale.posInf :=
    .infinity (.inr rfl) ⟨[], [], rfl, by simp, by simp⟩
  have hs : compact "[ mean(1,3), oo )".toList =
      '[' :: ("mean(1,3)".toList ++ ',' :: ("oo".toList ++ [')'])) := by decide +kernel
  have hopening : isOpener '[' = true := rfl
  have hclosing : isCloser ')' = true := rfl
  exact textBounds_written hs hopening hlower hupper hclosing hx hy

/-- The sign of infinity is one; as a bound, the side mentions an infinity. -/
theorem textBounds_mentioned_infinity :
    IsSide "sign('oo')".toList ∧ IsSide "3".toList ∧
      constantText "sign('oo')" = .ok 1 ∧ constantText "3" = .ok 3 ∧
      textBounds "(sign('oo'),3)".toList = .ok (Scale.negInf, 3) ∧ Scale.negInf ≠ (1 : Float) := by
  refine ⟨⟨[['s'], ['i'], ['g'], ['n'], "('oo')".toList], by decide, ?_, rfl⟩,
    ⟨[['3']], by decide, ?_, rfl⟩, Except.eq_ok_of_toOption (by decide +kernel),
    Except.eq_ok_of_toOption (by decide +kernel), Except.eq_ok_of_toOption (by decide +kernel),
    by decide +kernel⟩
  · simp only [List.forall_mem_cons]
    exact ⟨.char rfl, .char rfl, .char rfl, .char rfl,
      @IsPiece.group "'oo'".toList (by simp), by simp⟩
  · simp only [List.forall_mem_cons]
    exact ⟨.char rfl, by simp⟩

end Graphing.Interval
