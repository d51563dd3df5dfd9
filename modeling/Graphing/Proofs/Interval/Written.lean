/-
  Graphing.Proofs.Interval.Written

  The grammar of written intervals, apart from the scanner that reads them.

  A side is made of pieces: characters that separate nothing, and groups in
  parentheses that hold no parentheses.  A written interval is an opening
  bracket, a side, a comma, a side and a closing bracket.  Two facts about the
  scanner carry what is said about texts that end in a written interval:

    * it reads a written interval to its end (`scanLiteral_written`),
    * it never stops inside of one: a scan that begins before a written
      interval at the end of the text stops before it, or it takes all of the
      text and finds no bracket to close with (`scanSide_before_written`).

  Nor does an interval that begins inside of a written one reach its end: its
  bracket opens or stands in a group, and the group ends before the text does
  (`endsWithLiteral_inside_written`).
-/
import Graphing.Interval.Literal

namespace Graphing.Interval

open Text (isBlank)

/-! ## The grammar -/

/-- Characters that separate the parts of an interval. -/
def isSeparator (c : Char) : Bool := c == ',' || c == '(' || c == ')' || c == '[' || c == ']'

/-- A piece of a side: a character that separates nothing, or a group in parentheses without
parentheses in it. -/
inductive IsPiece : List Char → Prop
  | char {c : Char} (hc : isSeparator c = false) : IsPiece [c]
  | group {inside : List Char} (h : ∀ c ∈ inside, c ≠ '(' ∧ c ≠ ')') :
    IsPiece ('(' :: (inside ++ [')']))

/-- A side of an interval: one or more pieces. -/
def IsSide (s : List Char) : Prop :=
  ∃ pieces : List (List Char), pieces ≠ [] ∧ (∀ p ∈ pieces, IsPiece p) ∧ s = pieces.flatten

/-- An opening bracket. -/
def isOpener (c : Char) : Bool := c == '(' || c == '['

/-- A closing bracket. -/
def isCloser (c : Char) : Bool := c == ')' || c == ']'

/-- A written interval: its brackets may be of two kinds. -/
inductive IsWritten : List Char → Prop
  | mk {opening closing : Char} {lower upper : List Char} (hopening : isOpener opening = true)
    (hlower : IsSide lower) (hupper : IsSide upper) (hclosing : isCloser closing = true) :
    IsWritten (opening :: (lower ++ ',' :: (upper ++ [closing])))

/-! ## Reading what is written -/

theorem scanSide_char {c : Char} (hc : isSeparator c = false) (s : List Char) :
    scanSide false (c :: s) = (scanSide false s).map fun (side, rest) => (c :: side, rest) := by
  simp only [isSeparator, Bool.or_eq_false_iff, beq_eq_false_iff_ne] at hc
  obtain ⟨⟨⟨⟨hcomma, hopen⟩, hclose⟩, hopen'⟩, hclose'⟩ := hc
  rw [scanSide, if_neg (by simpa using hopen),
    if_neg (by simp [hcomma, hclose, hopen', hclose'])]
  cases scanSide false s <;> rfl

/-- A group without parentheses in it is read up to its end. -/
theorem scanSide_inside {inside : List Char} (h : ∀ c ∈ inside, c ≠ '(' ∧ c ≠ ')')
    (s : List Char) :
    scanSide true (inside ++ ')' :: s) =
      (scanSide false s).map fun (side, rest) => (inside ++ ')' :: side, rest) := by
  induction inside with
  | nil =>
    have hclosed : (')' != ')') = false := rfl
    rw [List.nil_append, scanSide, if_neg (by decide), hclosed]
    cases scanSide false s <;> rfl
  | cons c cs ih =>
    obtain ⟨hopen, hclose⟩ := h c List.mem_cons_self
    have hgroup : (c != ')') = true := by simpa using hclose
    rw [List.cons_append, scanSide, if_neg (by simpa using hopen), hgroup,
      ih fun d hd => h d (List.mem_cons_of_mem c hd)]
    cases scanSide false s <;> rfl

theorem scanSide_piece {p : List Char} (hp : IsPiece p) (s : List Char) :
    scanSide false (p ++ s) = (scanSide false s).map fun (side, rest) => (p ++ side, rest) := by
  cases hp with
  | char hc => exact scanSide_char hc s
  | @group inside h =>
    have happ : '(' :: (inside ++ [')']) ++ s = '(' :: (inside ++ ')' :: s) := by simp
    rw [happ, scanSide, if_pos (by decide), scanSide_inside h]
    cases scanSide false s with
    | none => rfl
    | some found => simp

/-- A side is read to its end where a comma or a bracket follows. -/
theorem scanSide_side {side : List Char} (h : IsSide side) {c : Char}
    (hc : c = ',' ∨ isCloser c = true) (rest : List Char) :
    scanSide false (side ++ c :: rest) = some (side, c :: rest) := by
  obtain ⟨pieces, -, hpieces, rfl⟩ := h
  induction pieces with
  | nil =>
    have hstop : (c == ',' || c == ')' || c == '[' || c == ']') = true := by
      rcases hc with rfl | hc
      · rfl
      · simp only [isCloser, Bool.or_eq_true, beq_iff_eq] at hc
        rcases hc with rfl | rfl <;> rfl
    have hopen : ¬(c == '(') = true := by
      rintro hopen
      rw [beq_iff_eq.mp hopen] at hstop
      exact absurd hstop (by decide)
    rw [List.flatten_nil, List.nil_append, scanSide, if_neg hopen, if_pos hstop]
  | cons p ps ih =>
    rw [List.flatten_cons, List.append_assoc, scanSide_piece (hpieces p List.mem_cons_self),
      ih fun q hq => hpieces q (List.mem_cons_of_mem p hq)]
    rfl

theorem IsPiece.ne_nil {p : List Char} (hp : IsPiece p) : p ≠ [] := by
  cases hp <;> exact List.cons_ne_nil _ _

theorem IsSide.ne_nil {side : List Char} (h : IsSide side) : side ≠ [] := by
  obtain ⟨pieces, hne, hpieces, rfl⟩ := h
  cases pieces with
  | nil => exact absurd rfl hne
  | cons p ps =>
    rw [List.flatten_cons]
    exact List.append_ne_nil_of_left_ne_nil (hpieces p List.mem_cons_self).ne_nil _

theorem ofOpening?_isSome {c : Char} (h : isOpener c = true) :
    (Bracket.ofOpening? c).isSome = true := by
  simp only [isOpener, Bool.or_eq_true, beq_iff_eq] at h
  rcases h with rfl | rfl <;> rfl

theorem ofClosing?_isSome {c : Char} (h : isCloser c = true) :
    (Bracket.ofClosing? c).isSome = true := by
  simp only [isCloser, Bool.or_eq_true, beq_iff_eq] at h
  rcases h with rfl | rfl <;> rfl

/-- A written interval is read to its end, with the brackets and sides that it is made of. -/
theorem scanLiteral_written {opening closing : Char} {lower upper : List Char}
    (hopening : isOpener opening = true) (hlower : IsSide lower) (hupper : IsSide upper)
    (hclosing : isCloser closing = true) :
    ∃ a b, Bracket.ofOpening? opening = some a ∧ Bracket.ofClosing? closing = some b ∧
      scanLiteral (opening :: (lower ++ ',' :: (upper ++ [closing]))) =
        some (⟨a, lower, upper, b⟩, []) := by
  obtain ⟨a, ha⟩ := Option.isSome_iff_exists.mp (ofOpening?_isSome hopening)
  obtain ⟨b, hb⟩ := Option.isSome_iff_exists.mp (ofClosing?_isSome hclosing)
  have hfirst := scanSide_side hlower (.inl rfl) (upper ++ [closing])
  have hsecond := scanSide_side hupper (.inr hclosing) []
  refine ⟨a, b, ha, hb, ?_⟩
  simp only [scanLiteral, ha, hfirst, hsecond, hb, Option.bind_eq_bind, Option.bind_some]
  rfl

theorem endsWithLiteral_written {r : List Char} (h : IsWritten r) : endsWithLiteral r = true := by
  obtain ⟨hopening, hlower, hupper, hclosing⟩ := h
  obtain ⟨a, b, -, -, hscan⟩ := scanLiteral_written hopening hlower hupper hclosing
  rw [endsWithLiteral, hscan]
  simp [hlower.ne_nil, hupper.ne_nil]

/-! ## Scans that begin before a written interval -/

theorem IsWritten.exists_cons {r : List Char} (h : IsWritten r) :
    ∃ c cs, r = c :: cs ∧ isOpener c = true := by
  obtain ⟨hopening, -, -, -⟩ := h
  exact ⟨_, _, rfl, hopening⟩

/-- Inside of a group, a piece that is read is no group of its own. -/
theorem scanSide_group_piece {p s side rest : List Char} (hp : IsPiece p)
    (h : scanSide true (p ++ s) = some (side, rest)) :
    ∃ side', scanSide true s = some (side', rest) := by
  cases hp with
  | @char c hc =>
    simp only [isSeparator, Bool.or_eq_false_iff, beq_eq_false_iff_ne] at hc
    have hgroup : (c != ')') = true := by simpa using hc.1.1.2
    rw [List.singleton_append, scanSide, if_neg (by simpa using hc.1.1.1.2), hgroup] at h
    obtain ⟨⟨side', rest'⟩, hscan, h⟩ := Option.bind_eq_some_iff.mp h
    cases h
    exact ⟨side', hscan⟩
  | group h' =>
    rw [List.cons_append, scanSide, if_pos (by decide)] at h
    cases h

theorem scanSide_group_side {s side rest : List Char} {written : List Char} (hs : IsSide written)
    (h : scanSide true (written ++ s) = some (side, rest)) :
    ∃ side', scanSide true s = some (side', rest) := by
  obtain ⟨pieces, -, hpieces, rfl⟩ := hs
  induction pieces generalizing side with
  | nil => exact ⟨side, h⟩
  | cons p ps ih =>
    rw [List.flatten_cons, List.append_assoc] at h
    obtain ⟨side', h'⟩ := scanSide_group_piece (hpieces p List.mem_cons_self) h
    exact ih (fun q hq => hpieces q (List.mem_cons_of_mem p hq)) h'

/-- A group that is open when the inside of a written interval begins is closed by its last bracket
only, and nothing is left. -/
theorem scanSide_group_written {lower upper side rest : List Char} {closing : Char}
    (hlower : IsSide lower) (hupper : IsSide upper) (hclosing : isCloser closing = true)
    (h : scanSide true (lower ++ ',' :: (upper ++ [closing])) = some (side, rest)) : rest = [] := by
  obtain ⟨_, h⟩ := scanSide_group_side hlower h
  rw [scanSide, if_neg (by decide)] at h
  obtain ⟨⟨_, _⟩, h, heq⟩ := Option.bind_eq_some_iff.mp h
  cases heq
  obtain ⟨_, h⟩ := scanSide_group_side hupper h
  simp only [isCloser, Bool.or_eq_true, beq_iff_eq] at hclosing
  rcases hclosing with rfl | rfl
  · -- a parenthesis closes the group, and the text ends
    cases h
    rfl
  · -- any other bracket leaves the group open
    cases h

/-- A scan that begins before a written interval stops before it, or at the end of the text. -/
theorem scanSide_before_written {r : List Char} (hr : IsWritten r) {inGroup : Bool}
    {t side rest : List Char} (h : scanSide inGroup (t ++ r) = some (side, rest)) :
    rest = [] ∨ ∃ t', rest = t' ++ r := by
  -- the induction is on the text before; the group that is open may change with each character
  induction t generalizing inGroup side with
  | nil =>
    obtain ⟨hopening, hlower, hupper, hclosing⟩ := hr
    rw [List.nil_append] at h
    simp only [isOpener, Bool.or_eq_true, beq_iff_eq] at hopening
    cases inGroup with
    | false =>
      rcases hopening with rfl | rfl
      · rw [scanSide, if_pos (by decide)] at h
        obtain ⟨⟨_, _⟩, h, heq⟩ := Option.bind_eq_some_iff.mp h
        cases heq
        exact .inl (scanSide_group_written hlower hupper hclosing h)
      · rw [scanSide, if_neg (by decide), if_pos (by decide)] at h
        cases h
        exact .inr ⟨[], rfl⟩
    | true =>
      rcases hopening with rfl | rfl
      · rw [scanSide, if_pos (by decide)] at h
        cases h
      · rw [scanSide, if_neg (by decide)] at h
        obtain ⟨⟨_, _⟩, h, heq⟩ := Option.bind_eq_some_iff.mp h
        cases heq
        exact .inl (scanSide_group_written hlower hupper hclosing h)
  | cons c cs ih =>
    rw [List.cons_append] at h
    cases inGroup with
    | false =>
      rw [scanSide] at h
      split at h
      · obtain ⟨⟨_, _⟩, h, heq⟩ := Option.bind_eq_some_iff.mp h
        cases heq
        exact ih h
      · split at h
        · cases h
          exact .inr ⟨c :: cs, rfl⟩
        · obtain ⟨⟨_, _⟩, h, heq⟩ := Option.bind_eq_some_iff.mp h
          cases heq
          exact ih h
    | true =>
      rw [scanSide] at h
      split at h
      · cases h
      · obtain ⟨⟨_, _⟩, h, heq⟩ := Option.bind_eq_some_iff.mp h
        cases heq
        exact ih h

/-- What follows the character that a scan stops at, if it is no opening bracket, ends in the written
interval. -/
theorem rest_before_written {r : List Char} (hr : IsWritten r) {t side rest : List Char} {d : Char}
    (h : scanSide false (t ++ r) = some (side, d :: rest)) (hd : isOpener d = false) :
    ∃ t', rest = t' ++ r := by
  obtain hnil | ⟨t', hrest⟩ := scanSide_before_written hr h
  · cases hnil
  · cases t' with
    | nil =>
      obtain ⟨opener, inside, hcons, hopener⟩ := hr.exists_cons
      rw [List.nil_append, hcons] at hrest
      obtain ⟨rfl, -⟩ := List.cons.inj hrest
      rw [hopener] at hd
      cases hd
    | cons e t' =>
      obtain ⟨-, htail⟩ := List.cons.inj hrest
      exact ⟨t', htail⟩

/-- A written interval does not consist of blanks. -/
theorem IsWritten.not_blank {r : List Char} (hr : IsWritten r) (t : List Char) :
    (t ++ r).all isBlank = false := by
  obtain ⟨opener, inside, rfl, hopener⟩ := hr.exists_cons
  have hfilled : isBlank opener = false := by
    simp only [isOpener, Bool.or_eq_true, beq_iff_eq] at hopener
    rcases hopener with rfl | rfl <;> rfl
  rw [List.all_append, List.all_cons, hfilled, Bool.false_and, Bool.and_false]

/-- No interval that begins before a written interval reaches to the end of the text. -/
theorem endsWithLiteral_before_written {r : List Char} (hr : IsWritten r) (c : Char)
    (t : List Char) : endsWithLiteral (c :: (t ++ r)) = false := by
  cases hscan : scanLiteral (c :: (t ++ r)) with
  | none => rw [endsWithLiteral, hscan]
  | some found =>
    obtain ⟨l, rest⟩ := found
    suffices ∃ t', rest = t' ++ r by
      obtain ⟨t', rfl⟩ := this
      rw [endsWithLiteral, hscan]
      dsimp only
      rw [hr.not_blank, Bool.and_false]
    -- both sides stop before the written interval, for each has a character after it
    obtain ⟨opening, -, hscan⟩ := Option.bind_eq_some_iff.mp hscan
    obtain ⟨⟨lower, afterLower⟩, hlower, hscan⟩ := Option.bind_eq_some_iff.mp hscan
    dsimp only at hscan
    split at hscan
    · obtain ⟨t₁, rfl⟩ := rest_before_written hr hlower rfl
      obtain ⟨⟨upper, afterUpper⟩, hupper, hscan⟩ := Option.bind_eq_some_iff.mp hscan
      dsimp only at hscan
      split at hscan
      · rename_i closer _
        obtain ⟨closing, hclosing, hscan⟩ := Option.bind_eq_some_iff.mp hscan
        have hcloser : isOpener closer = false := by
          rw [Bool.eq_false_iff]
          intro hopener
          simp only [isOpener, Bool.or_eq_true, beq_iff_eq] at hopener
          rcases hopener with rfl | rfl <;> cases hclosing
        cases hscan
        exact rest_before_written hr hupper hcloser
      · cases hscan
    · cases hscan

/-! ## Scans that begin inside of a written interval -/

/-- A scan that begins in a group stops at the end of the group, or before it. -/
theorem scanSide_in_group {inside tail side rest : List Char}
    (hinside : ∀ c ∈ inside, c ≠ '(' ∧ c ≠ ')')
    (h : scanSide false (inside ++ ')' :: tail) = some (side, rest)) :
    ∃ left, (∀ c ∈ left, c ≠ '(' ∧ c ≠ ')') ∧ rest = left ++ ')' :: tail := by
  induction inside generalizing side with
  | nil =>
    cases h
    exact ⟨[], by simp, rfl⟩
  | cons c cs ih =>
    have hc := (hinside c List.mem_cons_self).1
    rw [List.cons_append, scanSide, if_neg (by simpa using hc)] at h
    split at h
    · cases h
      exact ⟨c :: cs, hinside, rfl⟩
    · obtain ⟨⟨_, _⟩, h, heq⟩ := Option.bind_eq_some_iff.mp h
      cases heq
      exact ih (fun d hd => hinside d (List.mem_cons_of_mem c hd)) h

/-- An interval that begins in a group is no end of the text, if more than blanks follows the
group. -/
theorem endsWithLiteral_in_group {inside tail : List Char}
    (hinside : ∀ c ∈ inside, c ≠ '(' ∧ c ≠ ')') (htail : tail.all isBlank = false) (c : Char) :
    endsWithLiteral (c :: (inside ++ ')' :: tail)) = false := by
  cases hscan : scanLiteral (c :: (inside ++ ')' :: tail)) with
  | none => rw [endsWithLiteral, hscan]
  | some found =>
    obtain ⟨l, rest⟩ := found
    suffices ∃ left, rest = left ++ tail by
      obtain ⟨left, rfl⟩ := this
      rw [endsWithLiteral, hscan]
      dsimp only
      rw [List.all_append, htail, Bool.and_false, Bool.and_false]
    obtain ⟨opening, -, hscan⟩ := Option.bind_eq_some_iff.mp hscan
    obtain ⟨⟨lower, afterLower⟩, hlower, hscan⟩ := Option.bind_eq_some_iff.mp hscan
    dsimp only at hscan
    obtain ⟨left, hleft, rfl⟩ := scanSide_in_group hinside hlower
    cases left with
    | nil =>
      -- the group ends before a comma
      cases hscan
    | cons d left =>
      rw [List.cons_append] at hscan
      split at hscan
      · rename_i heq
        obtain ⟨-, rfl⟩ := List.cons.inj heq
        obtain ⟨⟨upper, afterUpper⟩, hupper, hscan⟩ := Option.bind_eq_some_iff.mp hscan
        dsimp only at hscan
        obtain ⟨left', -, rfl⟩ :=
          scanSide_in_group (fun e he => hleft e (List.mem_cons_of_mem d he)) hupper
        cases left' with
        | nil =>
          obtain ⟨closing, -, hscan⟩ := Option.bind_eq_some_iff.mp hscan
          cases hscan
          exact ⟨[], rfl⟩
        | cons e left' =>
          obtain ⟨closing, -, hscan⟩ := Option.bind_eq_some_iff.mp hscan
          cases hscan
          exact ⟨left' ++ [')'], by simp⟩
      · cases hscan

theorem endsWithLiteral_of_not_opener {c : Char} (hc : isOpener c = false) (s : List Char) :
    endsWithLiteral (c :: s) = false := by
  have hbracket : Bracket.ofOpening? c = none := by
    simp only [isOpener, Bool.or_eq_false_iff] at hc
    simp [Bracket.ofOpening?, hc]
  have hscan : scanLiteral (c :: s) = none := by simp [scanLiteral, hbracket]
  rw [endsWithLiteral, hscan]

/-- No interval begins inside of a piece and reaches to the end of the text. -/
theorem endsWithLiteral_piece {p s u v : List Char} (hp : IsPiece p) (hs : s.all isBlank = false)
    (h : u ++ v = p ++ s) : endsWithLiteral v = false ∨ v <:+ s := by
  cases hp with
  | @char c hc =>
    simp only [isSeparator, Bool.or_eq_false_iff] at hc
    cases u with
    | nil =>
      rw [List.nil_append] at h
      rw [h]
      exact .inl (endsWithLiteral_of_not_opener (by simp [isOpener, hc]) s)
    | cons d u => exact .inr ⟨u, (List.cons.inj h).2⟩
  | @group inside hinside =>
    cases u with
    | nil =>
      rw [List.nil_append] at h
      rw [h, List.cons_append, List.append_assoc]
      exact .inl (endsWithLiteral_in_group hinside hs '(')
    | cons d u =>
      have h : u ++ v = inside ++ [')'] ++ s := (List.cons.inj h).2
      rw [List.append_assoc] at h
      obtain ⟨left, hleft, hv⟩ | ⟨left, -, hv⟩ := List.append_eq_append_iff.mp h
      · cases left with
        | nil =>
          -- the text begins at the end of the group
          rw [List.nil_append] at hv
          rw [hv]
          exact .inl (endsWithLiteral_of_not_opener rfl s)
        | cons e left =>
          have hsub : ∀ c ∈ left, c ≠ '(' ∧ c ≠ ')' := fun c hc =>
            hinside c (hleft ▸ List.mem_append_right u (List.mem_cons_of_mem e hc))
          rw [hv]
          exact .inl (endsWithLiteral_in_group hsub hs e)
      · cases left with
        | nil =>
          rw [List.nil_append] at hv
          rw [← hv]
          exact .inl (endsWithLiteral_of_not_opener rfl s)
        | cons e left => exact .inr ⟨left, (List.cons.inj hv).2.symm⟩

theorem endsWithLiteral_side {side s u v : List Char} (hside : IsSide side)
    (hs : s.all isBlank = false) (h : u ++ v = side ++ s) :
    endsWithLiteral v = false ∨ v <:+ s := by
  obtain ⟨pieces, -, hpieces, rfl⟩ := hside
  induction pieces generalizing u with
  | nil => exact .inr ⟨u, h⟩
  | cons p ps ih =>
    rw [List.flatten_cons, List.append_assoc] at h
    have hrest : (ps.flatten ++ s).all isBlank = false := by
      rw [List.all_append, hs, Bool.and_false]
    obtain hv | ⟨u', hu'⟩ := endsWithLiteral_piece (hpieces p List.mem_cons_self) hrest h
    · exact .inl hv
    · exact ih (fun q hq => hpieces q (List.mem_cons_of_mem p hq)) hu'

/-- No interval that begins inside of a written one reaches to the end of it. -/
theorem endsWithLiteral_inside_written {r u v : List Char} (hr : IsWritten r) (h : u ++ v = r)
    (hu : u ≠ []) : endsWithLiteral v = false := by
  obtain @⟨opening, closing, lower, upper, -, hlower, hupper, hclosing⟩ := hr
  obtain ⟨d, u, rfl⟩ := List.exists_cons_of_ne_nil hu
  obtain ⟨-, h⟩ := List.cons.inj h
  simp only [isCloser, Bool.or_eq_true, beq_iff_eq] at hclosing
  have hfilled : isBlank closing = false := by rcases hclosing with rfl | rfl <;> rfl
  have hopener : isOpener closing = false := by rcases hclosing with rfl | rfl <;> rfl
  have hend : [closing].all isBlank = false := by simp [hfilled]
  obtain hv | ⟨u', hu'⟩ := endsWithLiteral_side hlower (by simp [hfilled]) h
  · exact hv
  · cases u' with
    | nil =>
      -- the text begins at the comma
      rw [List.nil_append] at hu'
      rw [hu']
      exact endsWithLiteral_of_not_opener rfl _
    | cons e u' =>
      obtain ⟨-, hu'⟩ := List.cons.inj hu'
      obtain hv | ⟨u'', hu''⟩ := endsWithLiteral_side hupper hend hu'
      · exact hv
      · obtain ⟨rfl, rfl⟩ | ⟨rfl, rfl⟩ := List.append_eq_singleton_iff.mp hu''
        · exact endsWithLiteral_of_not_opener hopener []
        · rfl

end Graphing.Interval
