/-
  Graphing.Proofs.Relation.Difference

  An equation as one expression: what its signs come to.

  A side of an equation is taken as a sum of terms with signs before them
  (`SignedTerm`).  A term is any text in which no sign outside of brackets
  begins a term itself.  Then the sides written as one expression are the terms
  of the left side, followed by those of the right side with every single sign
  changed (`difference_eq_sumText`).  This negates a term with one sign before
  it, but not a term with two: `1--2` becomes `-1++2`.  The values are those of
  the texts between the signs, whatever a formula with these signs means.
-/
import Graphing.Relation.Equation
import Mathlib.Algebra.BigOperators.Group.List.Basic
import Mathlib.Algebra.Group.Nat.Even
import Mathlib.Algebra.Ring.Basic
import Mathlib.Data.List.Chain
import Mathlib.Data.List.TakeWhile
import Mathlib.Tactic.Ring

namespace Graphing.Relation

open Text (isBlank isDigit strip)

/-! ## Signs -/

/-- The sign of a term. -/
inductive Sign where
  | plus
  | minus
  deriving Repr, DecidableEq

namespace Sign

def char : Sign → Char
  | plus => '+'
  | minus => '-'

def flip : Sign → Sign
  | plus => minus
  | minus => plus

/-- The factor that a sign stands for. -/
def factor {R : Type} [CommRing R] : Sign → R
  | plus => 1
  | minus => -1

theorem factor_flip {R : Type} [CommRing R] (σ : Sign) : (σ.flip.factor : R) = -σ.factor := by
  cases σ with
  | plus => rfl
  | minus => exact (neg_neg 1).symm

end Sign

/-! ## Sums as texts -/

/-- A term with signs before it, each with the blanks behind it. -/
structure SignedTerm where
  signs : List (Sign × List Char) := []
  term : List Char

/-- The text of signs. -/
def signsText (signs : List (Sign × List Char)) : List Char :=
  signs.flatMap fun s => s.1.char :: s.2

namespace SignedTerm

def text (t : SignedTerm) : List Char := signsText t.signs ++ t.term

/-- The term with every one of its signs changed. -/
def flip (t : SignedTerm) : SignedTerm := { t with signs := t.signs.map fun s => (s.1.flip, s.2) }

/-- The value of the term: each sign before it counts, and counts for all of it, as signs do before
products, quotients and powers. -/
def value {R : Type} [CommRing R] (val : List Char → R) (t : SignedTerm) : R :=
  (t.signs.map fun s => s.1.factor).prod * val t.term

/-- A term whose signs are changed is negated once for each of them. -/
theorem value_flip {R : Type} [CommRing R] (val : List Char → R) (t : SignedTerm) :
    t.flip.value val = (-1) ^ t.signs.length * t.value val := by
  have hprod : ∀ signs : List (Sign × List Char),
      ((signs.map fun s => (s.1.flip, s.2)).map fun s => (s.1.factor : R)).prod =
        (-1) ^ signs.length * (signs.map fun s => (s.1.factor : R)).prod := by
    intro signs
    induction signs with
    | nil => simp
    | cons s signs ih =>
      rw [List.map_cons, List.map_cons, List.prod_cons, ih, List.map_cons, List.prod_cons,
        List.length_cons, Sign.factor_flip, pow_succ]
      ring
  rw [value, value, flip, hprod, mul_assoc]

end SignedTerm

/-- The text of a sum. -/
def sumText (ts : List SignedTerm) : List Char := ts.flatMap SignedTerm.text

/-- The value of a sum, given the values of its terms. -/
def total {R : Type} [CommRing R] (val : List Char → R) (ts : List SignedTerm) : R :=
  (ts.map (SignedTerm.value val)).sum

/-- The depth of brackets after a character. -/
def nesting (depth : Int) (c : Char) : Int :=
  if c == '(' || c == '[' || c == '{' then depth + 1
  else if c == ')' || c == ']' || c == '}' then depth - 1
  else depth

/-- Whether a text is in one piece: no sign outside of brackets begins a term in it, and its brackets
are closed. The text before is given in reverse. -/
def isWhole (depth : Int) (before : List Char) : List Char → Bool
  | [] => depth == 0
  | c :: cs =>
    !((c == '+' || c == '-') && depth == 0 && beginsTerm before cs) &&
      isWhole (nesting depth c) (c :: before) cs

/-- A term as it is to be written: in one piece, with something in it, and only blanks between its
signs. -/
structure SignedTerm.Proper (t : SignedTerm) : Prop where
  whole : isWhole 0 [] t.term = true
  filled : t.term.all isBlank = false
  spaced : (t.signs.all fun s => s.2.all isBlank) = true

instance (t : SignedTerm) : Decidable t.Proper :=
  decidable_of_iff (isWhole 0 [] t.term = true ∧ t.term.all isBlank = false ∧
      (t.signs.all fun s => s.2.all isBlank) = true)
    ⟨fun ⟨whole, filled, spaced⟩ => ⟨whole, filled, spaced⟩, fun h => ⟨h.whole, h.filled, h.spaced⟩⟩

/-- Whether a sign stands between two terms, and begins the second. -/
def Joins (a b : SignedTerm) : Prop :=
  b.signs ≠ [] ∧ beginsTerm a.term.reverse (b.text.drop 1) = true

instance (a b : SignedTerm) : Decidable (Joins a b) :=
  inferInstanceAs (Decidable (b.signs ≠ [] ∧ _ = true))

/-- Terms that make up a sum: each one is set off from the one before. -/
structure IsSum (ts : List SignedTerm) : Prop where
  proper : ∀ t ∈ ts, t.Proper
  joined : ts.IsChain Joins

instance (ts : List SignedTerm) : Decidable (IsSum ts) :=
  decidable_of_iff ((∀ t ∈ ts, t.Proper) ∧ ts.IsChain Joins)
    ⟨fun ⟨proper, joined⟩ => ⟨proper, joined⟩, fun h => ⟨h.proper, h.joined⟩⟩

/-- The terms of a sum, with a sign before the first one too. -/
def signedFirst : List SignedTerm → List SignedTerm
  | [] => []
  | t :: ts => (if t.signs.isEmpty then { t with signs := [(.plus, [])] } else t) :: ts

/-! ## Where terms begin -/

/-- The code points of the blanks. -/
def blankCodes : List Nat :=
  List.range' 9 5 ++ List.range' 28 5 ++ [133, 160, 5760] ++ List.range' 8192 11 ++
    [8232, 8233, 8239, 8287, 12288]

theorem mem_blankCodes {c : Char} (h : isBlank c = true) : c.toNat ∈ blankCodes := by
  simp only [isBlank, Bool.or_eq_true, Bool.and_eq_true, decide_eq_true_eq, beq_iff_eq] at h
  simp only [blankCodes, List.mem_append, List.mem_range'_1, List.mem_cons, List.not_mem_nil,
    or_false]
  omega

theorem isDigit_of_isBlank {c : Char} (h : isBlank c = true) : isDigit c = false := by
  have hall : ∀ n ∈ blankCodes, isDigit (Char.ofNat n) = false := by decide +kernel
  rw [← Char.ofNat_toNat c]
  exact hall c.toNat (mem_blankCodes h)

section

variable {before context after rest : List Char}

theorem exists_of_beginsTerm (h : beginsTerm before after = false) :
    ∃ c ∈ before, isBlank c = false := by
  by_contra hnone
  have hall : before.dropWhile isBlank = [] := by
    rw [List.dropWhile_eq_nil_iff]
    intro c hc
    by_contra hblank
    exact hnone ⟨c, hc, Bool.eq_false_iff.mpr hblank⟩
  rw [beginsTerm, hall] at h
  cases h

/-- What begins a term does not depend on what is farther away. -/
theorem beginsTerm_append (hbefore : ∃ c ∈ before, isBlank c = false)
    (hcontext : context.head?.any isDigit = false) :
    beginsTerm (before ++ context) after = beginsTerm before after := by
  have hne : before.dropWhile isBlank ≠ [] := by
    obtain ⟨c, hc, hblank⟩ := hbefore
    intro hnil
    rw [List.dropWhile_eq_nil_iff] at hnil
    rw [hnil c hc] at hblank
    cases hblank
  unfold beginsTerm
  rw [List.dropWhile_append, if_neg (by simpa using hne)]
  cases hdrop : before.dropWhile isBlank with
  | nil => exact absurd hdrop hne
  | cons p behind =>
    cases behind with
    | nil =>
      show (if _ then false else !(_ && context.head?.any isDigit && _)) =
        (if _ then false else !(_ && false && _))
      rw [hcontext]
    | cons q behind => rfl

theorem beginsTerm_congr {after' : List Char}
    (h : after.head?.any isDigit = after'.head?.any isDigit) :
    beginsTerm before after = beginsTerm before after' := by
  unfold beginsTerm
  rw [h]

/-- A sign that begins no term begins none in a longer text. -/
theorem beginsTerm_append_right (h : beginsTerm before after = false) :
    beginsTerm before (after ++ rest) = false := by
  cases after with
  | cons c cs => exact h
  | nil =>
    unfold beginsTerm at h ⊢
    cases hdrop : before.dropWhile isBlank with
    | nil =>
      rw [hdrop] at h
      cases h
    | cons p behind =>
      rw [hdrop] at h
      dsimp only at h ⊢
      split at h
      · rename_i hop
        rw [if_pos hop]
      · -- a sign at the end is no part of an exponent
        simp at h

end

/-! ## Changing signs -/

section

variable {before context rest : List Char}

theorem flipSigns_cons (depth : Int) (before : List Char) (c : Char) (cs : List Char) :
    flipSigns depth before (c :: cs) =
      (if (c == '+' || c == '-') && depth == 0 && beginsTerm before cs then
        if c == '+' then '-' else '+' else c) ::
        flipSigns (nesting depth c) (c :: before) cs := rfl

/-- A text in one piece stays as it is. -/
theorem flipSigns_whole {depth : Int} {t : List Char} (h : isWhole depth before t = true)
    (hcontext : context.head?.any isDigit = false) (rest : List Char) :
    flipSigns depth (before ++ context) (t ++ rest) =
      t ++ flipSigns 0 (t.reverse ++ before ++ context) rest := by
  induction t generalizing depth before with
  | nil =>
    have hdepth : depth = 0 := by simpa [isWhole] using h
    rw [hdepth]
    rfl
  | cons c cs ih =>
    rw [isWhole, Bool.and_eq_true, Bool.not_eq_true'] at h
    obtain ⟨hkept, hcs⟩ := h
    have hshown : ((c == '+' || c == '-') && depth == 0 &&
        beginsTerm (before ++ context) (cs ++ rest)) = false := by
      cases hsign : (c == '+' || c == '-') && depth == 0 with
      | false => rfl
      | true =>
        rw [hsign, Bool.true_and] at hkept
        rw [Bool.true_and, beginsTerm_append (exists_of_beginsTerm hkept) hcontext]
        exact beginsTerm_append_right hkept
    have hrest := ih hcs
    rw [List.cons_append, flipSigns_cons, hshown]
    show c :: flipSigns (nesting depth c) (c :: before ++ context) (cs ++ rest) = _
    rw [hrest, List.reverse_cons, List.append_assoc cs.reverse [c]]
    rfl

/-- Blanks stay as they are. -/
theorem flipSigns_blanks {blanks : List Char} (h : ∀ c ∈ blanks, isBlank c = true) :
    flipSigns 0 before (blanks ++ rest) = blanks ++ flipSigns 0 (blanks.reverse ++ before) rest := by
  induction blanks generalizing before with
  | nil => rfl
  | cons c cs ih =>
    have hc := h c List.mem_cons_self
    have hne : ∀ d : Char, isBlank d = false → (c == d) = false := by
      intro d hd
      refine beq_false_of_ne ?_
      rintro rfl
      rw [hc] at hd
      cases hd
    have hsign : (c == '+' || c == '-') = false := by
      rw [hne '+' (by decide), hne '-' (by decide)]
      rfl
    have hnesting : nesting 0 c = 0 := by
      rw [nesting, hne '(' (by decide), hne '[' (by decide), hne '{' (by decide),
        hne ')' (by decide), hne ']' (by decide), hne '}' (by decide)]
      rfl
    rw [List.cons_append, flipSigns_cons, hsign, hnesting, ih fun d hd =>
      h d (List.mem_cons_of_mem c hd), List.reverse_cons, List.append_assoc]
    rfl

/-- Signs in a row are changed, every one of them. -/
theorem flipSigns_signs {signs : List (Sign × List Char)}
    (hblanks : ∀ s ∈ signs, ∀ c ∈ s.2, isBlank c = true)
    (hfirst : signs ≠ [] → beginsTerm before ((signsText signs ++ rest).drop 1) = true) :
    flipSigns 0 before (signsText signs ++ rest) =
      signsText (signs.map fun s => (s.1.flip, s.2)) ++
        flipSigns 0 ((signsText signs).reverse ++ before) rest := by
  induction signs generalizing before with
  | nil => rfl
  | cons s signs ih =>
    obtain ⟨σ, blanks⟩ := s
    have hbegins : beginsTerm before (blanks ++ (signsText signs ++ rest)) = true := by
      rw [← List.append_assoc]
      exact hfirst (List.cons_ne_nil _ _)
    -- behind a sign, another one begins a term as well
    have hnext : ∀ after, beginsTerm (blanks.reverse ++ σ.char :: before) after = true := by
      intro after
      have hdrop : (blanks.reverse ++ σ.char :: before).dropWhile isBlank = σ.char :: before := by
        rw [List.dropWhile_append_of_pos fun c hc =>
          hblanks _ List.mem_cons_self c (List.mem_reverse.mp hc)]
        cases σ <;> rfl
      rw [beginsTerm, hdrop]
      cases σ <;> rfl
    have hrest := ih (fun u hu => hblanks u (List.mem_cons_of_mem _ hu)) fun _ => hnext _
    have hshown : flipSigns 0 before (σ.char :: (blanks ++ (signsText signs ++ rest))) =
        σ.flip.char :: flipSigns 0 (σ.char :: before) (blanks ++ (signsText signs ++ rest)) := by
      rw [flipSigns_cons, hbegins]
      cases σ <;> rfl
    have htext : signsText ((σ, blanks) :: signs) ++ rest =
        σ.char :: (blanks ++ (signsText signs ++ rest)) := by
      rw [← List.append_assoc]
      rfl
    rw [htext, hshown, flipSigns_blanks (hblanks _ List.mem_cons_self), hrest]
    simp only [signsText, List.map_cons, List.flatMap_cons, List.reverse_append, List.reverse_cons,
      List.cons_append, List.append_assoc, List.nil_append]

/-- Before the term stands a sign or a blank. -/
theorem head?_signsText {signs : List (Sign × List Char)} (hne : signs ≠ [])
    (hblanks : ∀ s ∈ signs, ∀ c ∈ s.2, isBlank c = true) :
    ((signsText signs).reverse ++ before).head?.any isDigit = false := by
  have hchars : ∀ c ∈ signsText signs, isDigit c = false := by
    intro c hc
    obtain ⟨s, hs, hc⟩ := List.mem_flatMap.mp hc
    rcases List.mem_cons.mp hc with rfl | hc
    · cases s.1 <;> decide
    · exact isDigit_of_isBlank (hblanks s hs c hc)
  have htext : (signsText signs).reverse ≠ [] := by
    obtain ⟨s, rest, rfl⟩ := List.exists_cons_of_ne_nil hne
    simp [signsText]
  obtain ⟨c, behind, hcons⟩ := List.exists_cons_of_ne_nil htext
  rw [hcons]
  exact hchars c (List.mem_reverse.mp (by rw [hcons]; exact List.mem_cons_self))

namespace SignedTerm

variable {t : SignedTerm}

theorem Proper.exists_filled (h : t.Proper) : ∃ c ∈ t.term, isBlank c = false := by
  obtain ⟨c, hc, hblank⟩ := List.all_eq_false.mp h.filled
  exact ⟨c, hc, Bool.eq_false_iff.mpr hblank⟩

theorem Proper.blanks (h : t.Proper) : ∀ s ∈ t.signs, ∀ c ∈ s.2, isBlank c = true :=
  fun s hs => List.all_eq_true.mp (List.all_eq_true.mp h.spaced s hs)

theorem Proper.flip (h : t.Proper) : t.flip.Proper := by
  refine ⟨h.whole, h.filled, ?_⟩
  rw [SignedTerm.flip, List.all_map]
  exact h.spaced

/-- A term with a sign before it has something behind the sign. -/
theorem drop_text (h : t.Proper) (hne : t.signs ≠ []) :
    ∃ c cs, t.text.drop 1 = c :: cs := by
  obtain ⟨s, signs, hsigns⟩ := List.exists_cons_of_ne_nil hne
  obtain ⟨c, hc, -⟩ := h.exists_filled
  have hmem : c ∈ t.text.drop 1 := by
    rw [text, hsigns]
    exact List.mem_append_right _ hc
  exact List.exists_cons_of_ne_nil (List.ne_nil_of_mem hmem)

/-- The signs of a term are changed, and the term is kept. -/
theorem flipSigns_text (h : t.Proper) (hne : t.signs ≠ [])
    (hbegins : beginsTerm before (t.text.drop 1) = true) (rest : List Char) :
    flipSigns 0 before (t.text ++ rest) =
      t.flip.text ++ flipSigns 0 (t.text.reverse ++ before) rest := by
  have hfirst : beginsTerm before ((signsText t.signs ++ (t.term ++ rest)).drop 1) = true := by
    obtain ⟨c, cs, hdrop⟩ := drop_text h hne
    have hlength : 1 ≤ t.text.length := by
      have := congrArg List.length hdrop
      rw [List.length_drop, List.length_cons] at this
      omega
    rw [hdrop] at hbegins
    rw [← List.append_assoc, ← text, List.drop_append_of_le_length hlength, hdrop]
    exact hbegins
  have hsigns := flipSigns_signs h.blanks fun _ => hfirst
  have hhead : ((signsText t.signs).reverse ++ before).head?.any isDigit = false :=
    head?_signsText hne h.blanks
  have hterm := flipSigns_whole h.whole hhead rest
  rw [List.nil_append] at hterm
  rw [text, List.append_assoc, hsigns, hterm]
  simp only [text, flip, List.append_assoc, List.reverse_append, List.append_nil]

end SignedTerm

theorem Joins.flip_right {a b : SignedTerm} (h : Joins a b) : Joins a b.flip := by
  obtain ⟨hne, hbegins⟩ := h
  obtain ⟨signs, term⟩ := b
  obtain ⟨⟨σ, blanks⟩, signs, rfl⟩ := List.exists_cons_of_ne_nil hne
  refine ⟨List.cons_ne_nil _ _, ?_⟩
  -- behind the first sign stands the same, or another sign
  have hhead : ((blanks ++ signsText signs) ++ term).head?.any isDigit =
      ((blanks ++ signsText (signs.map fun s => (s.1.flip, s.2))) ++ term).head?.any isDigit := by
    cases blanks with
    | cons c cs => rfl
    | nil =>
      cases signs with
      | nil => rfl
      | cons s signs =>
        obtain ⟨τ, behind⟩ := s
        cases τ <;> rfl
  exact (beginsTerm_congr hhead).symm.trans hbegins

/-- In a sum every sign is changed. -/
theorem flipSigns_sumText {ts : List SignedTerm} (h : IsSum ts)
    (hfirst : ∀ t ∈ ts.head?, t.signs ≠ [] ∧ beginsTerm before (t.text.drop 1) = true) :
    flipSigns 0 before (sumText ts) = sumText (ts.map SignedTerm.flip) := by
  induction ts generalizing before with
  | nil => rfl
  | cons t ts ih =>
    obtain ⟨hne, hbegins⟩ := hfirst t rfl
    have hproper := h.proper t List.mem_cons_self
    have hrest : IsSum ts := ⟨fun u hu => h.proper u (List.mem_cons_of_mem t hu), h.joined.tail⟩
    have htext := SignedTerm.flipSigns_text hproper hne hbegins (sumText ts)
    rw [sumText, List.flatMap_cons, ← sumText, htext, ih hrest]
    · rfl
    · intro u hu
      obtain ⟨hune, hubegins⟩ := h.joined.rel_head? hu
      refine ⟨hune, ?_⟩
      rw [SignedTerm.text, List.reverse_append, List.append_assoc, beginsTerm_append]
      · exact hubegins
      · obtain ⟨c, hc, hblank⟩ := hproper.exists_filled
        exact ⟨c, List.mem_reverse.mpr hc, hblank⟩
      · exact head?_signsText hne hproper.blanks

/-- With all signs of its second part changed, a sum is a sum. -/
theorem IsSum.append_flip {as bs : List SignedTerm} (h : IsSum (as ++ bs)) :
    IsSum (as ++ bs.map SignedTerm.flip) := by
  obtain ⟨has, hbs, hjoin⟩ := List.isChain_append.mp h.joined
  refine ⟨fun t ht => ?_, List.isChain_append.mpr ⟨has, ?_, ?_⟩⟩
  · rcases List.mem_append.mp ht with ht | ht
    · exact h.proper t (List.mem_append_left _ ht)
    · obtain ⟨b, hb, rfl⟩ := List.mem_map.mp ht
      exact (h.proper b (List.mem_append_right _ hb)).flip
  · exact (List.isChain_map _).mpr (hbs.imp fun a b hab => hab.flip_right)
  · intro a ha b hb
    rw [List.head?_map] at hb
    obtain ⟨u, hu, rfl⟩ := Option.mem_map.mp hb
    exact (hjoin a ha u hu).flip_right

end

/-! ## The sides of an equation -/

/-- An equation is split where its sign is, if no side has another. -/
theorem splitEquals_append {previous : Option Char} {l r : List Char} (hl : '=' ∉ l)
    (hlast : (l.getLast?.or previous).any isComparison = false) (hr : '=' ∉ r) :
    splitEquals previous (l ++ '=' :: r) = some (l, r) := by
  induction l generalizing previous with
  | nil =>
    have hhead : (r.head? != some '=') = true := by
      rw [bne_iff_ne]
      exact fun h => hr (List.mem_of_head? h)
    rw [List.nil_append, splitEquals]
    rw [show previous.any isComparison = false from hlast, hhead]
    rfl
  | cons c cs ih =>
    have hc : (c == '=') = false := beq_false_of_ne fun h => hl (h ▸ List.mem_cons_self)
    have hlast' : (cs.getLast?.or (some c)).any isComparison = false := by
      rw [List.getLast?_cons] at hlast
      cases hcs : cs.getLast? with
      | none => rw [hcs] at hlast; exact hlast
      | some d => rw [hcs] at hlast; exact hlast
    have hrest := ih (fun h => hl (List.mem_cons_of_mem c h)) hlast'
    rw [List.cons_append, splitEquals, hc, hrest]
    rfl

/-- A side begins with a sign, or gets one. -/
theorem sumText_signedFirst {ts : List SignedTerm} (hne : ts ≠ []) (h : IsSum (signedFirst ts)) :
    sumText (signedFirst ts) =
      if (sumText ts).head? == some '+' || (sumText ts).head? == some '-' then sumText ts
      else '+' :: sumText ts := by
  obtain ⟨⟨signs, term⟩, ts, rfl⟩ := List.exists_cons_of_ne_nil hne
  cases signs with
  | cons s signs =>
    obtain ⟨σ, blanks⟩ := s
    cases σ <;> rfl
  | nil =>
    have hwhole : isWhole 0 [] term = true := (h.proper _ List.mem_cons_self).whole
    obtain ⟨c, hc, -⟩ := (h.proper _ List.mem_cons_self).exists_filled
    obtain ⟨d, cs, hterm⟩ := List.exists_cons_of_ne_nil (List.ne_nil_of_mem hc)
    replace hterm : term = d :: cs := hterm
    subst hterm
    -- a sign in front would begin a term in the first one
    have hsign : (d == '+' || d == '-') = false := by
      rw [isWhole, Bool.and_eq_true, Bool.not_eq_true'] at hwhole
      have hkept := hwhole.1
      rw [show beginsTerm [] cs = true from rfl] at hkept
      simpa using hkept
    have hhead : (sumText ({ term := d :: cs } :: ts)).head? = some d := rfl
    rw [hhead]
    show _ = if (some d == some '+' || some d == some '-') then _ else _
    rw [show (some d == some '+' || some d == some '-') = (d == '+' || d == '-') from rfl, hsign]
    rfl

/-- The sides of an equation as one expression: the terms of the left side, and those of the right
side with every sign changed. -/
theorem difference_eq_sumText {l r : List Char} {lhs rhs : List SignedTerm} (hl : '=' ∉ l)
    (hlast : l.getLast?.any isComparison = false) (hr : '=' ∉ r) (hlhs : strip l = sumText lhs)
    (hrhs : strip r = sumText rhs) (hne : rhs ≠ []) (h : IsSum (lhs ++ signedFirst rhs)) :
    difference (l ++ '=' :: r) = sumText (lhs ++ (signedFirst rhs).map SignedTerm.flip) := by
  have hsides : sides? (l ++ '=' :: r) = some (sumText lhs, sumText rhs) := by
    rw [sides?, splitEquals_append hl (by rw [Option.or_none]; exact hlast) hr, ← hlhs, ← hrhs]
    rfl
  have hright : IsSum (signedFirst rhs) :=
    ⟨fun t ht => h.proper t (List.mem_append_right _ ht), h.joined.right_of_append⟩
  have hfirst : ∀ t ∈ (signedFirst rhs).head?,
      t.signs ≠ [] ∧ beginsTerm [] (t.text.drop 1) = true := by
    intro t ht
    obtain ⟨u, ts, rfl⟩ := List.exists_cons_of_ne_nil hne
    obtain rfl := Option.some.inj ht
    refine ⟨?_, rfl⟩
    split
    · exact List.cons_ne_nil _ _
    · rename_i hsigns
      exact fun hnil => hsigns (by rw [hnil]; rfl)
  have hflip := flipSigns_sumText hright hfirst
  rw [sumText_signedFirst hne hright] at hflip
  rw [difference, hsides]
  show sumText lhs ++ flipSigns 0 [] _ = _
  rw [hflip]
  exact List.flatMap_append.symm

/-! ## The value of the difference -/

section

variable {R : Type} [CommRing R] (val : List Char → R)

theorem total_append (as bs : List SignedTerm) :
    total val (as ++ bs) = total val as + total val bs := by
  rw [total, List.map_append, List.sum_append, total, total]

theorem total_signedFirst (ts : List SignedTerm) : total val (signedFirst ts) = total val ts := by
  cases ts with
  | nil => rfl
  | cons t ts =>
    obtain ⟨signs, term⟩ := t
    cases signs with
    | cons s signs => rfl
    | nil =>
      have hvalue : SignedTerm.value val ⟨[(.plus, [])], term⟩ = SignedTerm.value val ⟨[], term⟩ := by
        simp [SignedTerm.value, Sign.factor]
      show SignedTerm.value val ⟨[(.plus, [])], term⟩ + total val ts = _
      rw [hvalue]
      rfl

theorem total_flip (ts : List SignedTerm) :
    total val (ts.map SignedTerm.flip) =
      (ts.map fun t => (-1) ^ t.signs.length * t.value val).sum := by
  rw [total, List.map_map]
  congr 1
  exact List.map_congr_left fun t _ => t.value_flip val

/-- With one sign before each term, or any odd number of them, all terms are negated. -/
theorem total_flip_of_odd {ts : List SignedTerm} (h : ∀ t ∈ ts, Odd t.signs.length) :
    total val (ts.map SignedTerm.flip) = -total val ts := by
  have hterms : ts.map (fun t => (-1) ^ t.signs.length * t.value val) =
      ts.map fun t => -t.value val := by
    refine List.map_congr_left fun t ht => ?_
    rw [(h t ht).neg_one_pow, neg_one_mul]
  rw [total_flip, hterms, total, List.sum_neg, List.map_map]
  rfl

/-- Let both sides of an equation be sums. Then the equation as one expression is a sum too, in which
every term of the right side is negated once for each of its signs. It has the value of the left side
less that of the right side if every term of the right side has an odd number of signs, where a first
term without a sign counts as one with a plus.

The terms are texts, cut where `beginsTerm` says that one begins, and `val` gives each of them any
value at all. Nothing here says that a formula is read with the same terms, and `beginsTerm` can be
wrong about that. It cuts `1.e-5` in two, and takes the minus of `2e -3` for part of an exponent. So the
last part also holds for `x = 1.e-5` and `0 = 2e -3`, whose sides are sums of the terms `x`, `1.e` and
`5`, and `0` and `2e -3`; but as formulas `x-1.e+5` and `0-2e -3` do not have the value of the left side
less that of the right side. -/
theorem difference_total {l r : List Char} {lhs rhs : List SignedTerm} (hl : '=' ∉ l)
    (hlast : l.getLast?.any isComparison = false) (hr : '=' ∉ r) (hlhs : strip l = sumText lhs)
    (hrhs : strip r = sumText rhs) (hne : rhs ≠ []) (h : IsSum (lhs ++ signedFirst rhs)) :
    ∃ ts, difference (l ++ '=' :: r) = sumText ts ∧ IsSum ts ∧
      total val ts = total val lhs +
        ((signedFirst rhs).map fun t => (-1) ^ t.signs.length * t.value val).sum ∧
      ((∀ t ∈ signedFirst rhs, Odd t.signs.length) →
        total val ts = total val lhs - total val rhs) := by
  refine ⟨_, difference_eq_sumText hl hlast hr hlhs hrhs hne h, h.append_flip, ?_, fun hodd => ?_⟩
  · rw [total_append, total_flip]
  · rw [total_append, total_flip_of_odd val hodd, total_signedFirst, sub_eq_add_neg]

end

/-- A product on the left, and two terms on the right. -/
theorem difference_total_product :
    let lhs : List SignedTerm := [{ term := "x*y".toList }]
    let rhs : List SignedTerm :=
      [{ term := "2x".toList }, { signs := [(.minus, [])], term := "y".toList }]
    IsSum (lhs ++ signedFirst rhs) ∧ ∀ val : List Char → ℤ,
      ∃ ts, difference "x*y = 2x-y".toList = sumText ts ∧
        total val ts = total val lhs - total val rhs := by
  intro lhs rhs
  have h : IsSum (lhs ++ signedFirst rhs) := by decide +kernel
  refine ⟨h, fun val => ?_⟩
  obtain ⟨ts, htext, -, -, hvalue⟩ := difference_total val
    (l := "x*y ".toList) (r := " 2x-y".toList)
    (by decide) (by decide) (by decide) (by decide +kernel) (by decide +kernel) (List.cons_ne_nil _ _) h
  exact ⟨ts, htext, hvalue (by decide +kernel)⟩

/-- Both signs of a term are changed, so that it is added after all. -/
example : difference "x = 1--2".toList = "x-1++2".toList := by
  decide +kernel

end Graphing.Relation
