/-
  Graphing.Proofs.Relation.Rejoined

  Segments put together again.

  The segments of a relation, or some of them, can be written as a relation of
  their own: with semicolons between them, and in braces as a whole.  A segment
  with a bracket that is not closed is the last one, so no semicolon falls into
  a bracket.  What is in small letters stays as it is.
-/
import Graphing.Proofs.Relation.Segments
import Graphing.Relation.Pieces

namespace Graphing

/-! ## Small letters -/

namespace Text

/-- Runs of characters that have small forms: the capital letters, and the dotted I. -/
def capitals : List (Nat × Nat × Nat × Int) :=
  (0x41, 0x5A, 1, 32) :: (0x130, 0x130, 1, 0) :: capitalRuns.toList

/-- Whether a character of a run has this number. -/
def inRun (n : Nat) (run : Nat × Nat × Nat × Int) : Bool :=
  match run with
  | (lo, hi, step, _) => lo ≤ n && n ≤ hi && (n - lo) % step == 0

/-- Whether a character has a small form. -/
def isCapital (c : Char) : Bool := capitals.any (inRun c.toNat)

/-- Whether small forms between two numbers, every other one perhaps, are none of a run. -/
def isApart (a b : Nat) (spaced : Bool) (run : Nat × Nat × Nat × Int) : Bool :=
  match run with
  | (lo, hi, step, _) =>
    Nat.blt b lo || Nat.blt hi a || (spaced && Nat.beq step 2 && Nat.beq ((a + lo) % 2) 1)

theorem capitalRuns_apart : capitalRuns.toList.all (fun (lo, hi, step, shift) =>
    decide (0 ≤ lo + shift) && capitals.all
      (isApart (lo + shift).toNat (hi + shift).toNat (Nat.beq step 2 || Nat.beq lo hi))) = true := by
  decide +kernel

theorem capitalRuns_ge : capitalRuns.toList.all (fun run => Nat.ble 128 run.1) = true := by
  decide +kernel

/-- Small forms have no small forms. -/
theorem inRun_shift {lo hi step n : Nat} {shift : Int} (hrun : (lo, hi, step, shift) ∈ capitalRuns.toList)
    (hn : inRun n (lo, hi, step, shift) = true) {run : Nat × Nat × Nat × Int} (h : run ∈ capitals) :
    inRun (n + shift).toNat run = false := by
  have happart := List.all_eq_true.mp capitalRuns_apart _ hrun
  rw [Bool.and_eq_true, decide_eq_true_eq, List.all_eq_true] at happart
  obtain ⟨hpositive, happart⟩ := happart
  replace happart := happart run h
  obtain ⟨lo', hi', step', shift'⟩ := run
  simp only [inRun, isApart, Bool.and_eq_true, Bool.or_eq_true, decide_eq_true_eq, beq_iff_eq,
    Nat.blt_eq, Nat.beq_eq] at hn happart
  obtain ⟨⟨hlo, hhi⟩, hstep⟩ := hn
  rw [Bool.eq_false_iff]
  intro hmem
  simp only [inRun, Bool.and_eq_true, decide_eq_true_eq, beq_iff_eq] at hmem
  obtain ⟨⟨hlo', hhi'⟩, hstep'⟩ := hmem
  rcases happart with (hbelow | habove) | ⟨⟨hspaced, rfl⟩, hodd⟩
  · omega
  · omega
  · -- every small form of a spaced run is as far from the first one as the capital is
    have heven : (n - lo) % 2 = 0 := by
      rcases hspaced with rfl | rfl
      · exact hstep
      · omega
    omega

/-- A number beyond all characters stands for the null character. -/
theorem toNat_ofNat (n : Nat) : (Char.ofNat n).toNat = n ∨ (Char.ofNat n).toNat = 0 := by
  by_cases h : n.isValidChar
  · rw [Char.ofNat, dif_pos h]
    exact .inl rfl
  · rw [Char.ofNat, dif_neg h]
    exact .inr rfl

theorem isCapital_eq_false {c : Char} :
    isCapital c = false ↔ ∀ run ∈ capitals, inRun c.toNat run = false := by
  rw [isCapital, List.any_eq_false]
  exact forall₂_congr fun run _ => Bool.eq_false_iff.symm

/-- Beyond ASCII, small forms are looked up in the runs. -/
theorem find?_capitalRuns (n : Nat) : (capitalRuns.find? fun (lo, hi, step, _) =>
    lo ≤ n && n ≤ hi && (n - lo) % step == 0) = capitalRuns.find? (inRun n) := rfl

theorem le_iff_toNat {a b : Char} : a ≤ b ↔ a.toNat ≤ b.toNat := Iff.rfl

theorem lowerChar_of_not_capital {c : Char} (h : isCapital c = false) : lowerChar c = c := by
  rw [isCapital_eq_false] at h
  unfold lowerChar
  dsimp only
  rw [find?_capitalRuns]
  split
  · refine if_neg fun hascii => ?_
    have hnot := h (0x41, 0x5A, 1, 32) List.mem_cons_self
    simp only [Bool.and_eq_true, decide_eq_true_eq, le_iff_toNat] at hascii
    simp only [inRun, Nat.mod_one, beq_self_eq_true, Bool.and_true, Bool.and_eq_false_iff,
      decide_eq_false_iff_not] at hnot
    exact hnot.elim (fun hlo => hlo hascii.1) fun hhi => hhi hascii.2
  · have hnone : capitalRuns.find? (inRun c.toNat) = none := by
      rw [Array.find?_eq_none]
      intro run hrun hin
      have hnot := h run (List.mem_cons_of_mem _ (List.mem_cons_of_mem _ (Array.mem_toList_iff.mpr hrun)))
      rw [hin] at hnot
      cases hnot
    rw [hnone]

/-- The runs of capital letters lie beyond ASCII, but for the first. -/
theorem isCapital_of_ascii {c : Char} (hc : c.toNat < 128)
    (hletter : ¬(0x41 ≤ c.toNat ∧ c.toNat ≤ 0x5A)) : isCapital c = false := by
  rw [isCapital_eq_false]
  intro run hrun
  have hbelow : ∀ lo hi step shift, 128 ≤ lo → inRun c.toNat (lo, hi, step, shift) = false := by
    intro lo hi step shift hlo
    have hnot : ¬lo ≤ c.toNat := by omega
    simp [inRun, hnot]
  rcases List.mem_cons.mp hrun with rfl | hrun
  · rw [Bool.eq_false_iff]
    intro hin
    simp only [inRun, Bool.and_eq_true, decide_eq_true_eq] at hin
    exact hletter hin.1
  · rcases List.mem_cons.mp hrun with rfl | hrun
    · exact hbelow _ _ _ _ (by decide)
    · exact hbelow _ _ _ _ (Nat.le_of_ble_eq_true (List.all_eq_true.mp capitalRuns_ge _ hrun))

theorem isCapital_lowerChar {c : Char} (h : c.toNat ≠ 0x130) : isCapital (lowerChar c) = false := by
  unfold lowerChar
  dsimp only
  rw [find?_capitalRuns]
  split
  · -- the capitals below 128 are A to Z
    rename_i hascii
    split
    · rename_i hletter
      simp only [Bool.and_eq_true, decide_eq_true_eq, le_iff_toNat] at hletter
      have hhi : c.toNat ≤ 0x5A := hletter.2
      have hlo : 0x41 ≤ c.toNat := hletter.1
      rcases toNat_ofNat (c.toNat + 32) with hn | hn
      · exact isCapital_of_ascii (by omega) (by omega)
      · exact isCapital_of_ascii (by omega) (by omega)
    · rename_i hletter
      simp only [Bool.and_eq_true, decide_eq_true_eq, le_iff_toNat] at hletter
      exact isCapital_of_ascii hascii hletter
  · rename_i hascii
    cases hfind : capitalRuns.find? (inRun c.toNat) with
    | some run =>
      -- the small letters of a run are in no run
      obtain ⟨lo, hi, step, shift⟩ := run
      have hrun := Array.mem_toList_iff.mpr (Array.mem_of_find?_eq_some hfind)
      dsimp only
      rcases toNat_ofNat (c.toNat + shift).toNat with hn | hn
      · rw [isCapital_eq_false]
        intro run hmem
        rw [hn]
        exact inRun_shift hrun (Array.find?_some hfind) hmem
      · exact isCapital_of_ascii (by omega) (by omega)
    | none =>
      -- a character outside of the runs stays: the table leaves out A to Z and the dotted I
      rw [isCapital_eq_false]
      intro run hrun
      rcases List.mem_cons.mp hrun with rfl | hrun
      · have hnot : ¬c.toNat ≤ 0x5A := by omega
        simp [inRun, hnot]
      · rcases List.mem_cons.mp hrun with rfl | hrun
        · have hnot : ¬(0x130 ≤ c.toNat ∧ c.toNat ≤ 0x130) := by omega
          simp only [inRun, Nat.mod_one, beq_self_eq_true, Bool.and_true]
          rw [Bool.eq_false_iff]
          intro hin
          simp only [Bool.and_eq_true, decide_eq_true_eq] at hin
          exact hnot hin
        · exact Bool.eq_false_iff.mpr
            (Array.find?_eq_none.mp hfind run (Array.mem_toList_iff.mp hrun))

/-- Small letters stay as they are. -/
theorem lower_of_small {s : List Char} (h : ∀ c ∈ s, isCapital c = false) : lower s = s := by
  have hrun : ∀ (s : List Char) (previous : Option Char), (∀ c ∈ s, isCapital c = false) →
      lowerAfter previous s = s := by
    intro s
    induction s with
    | nil => exact fun _ _ => rfl
    | cons c cs ih =>
      intro previous h
      have hc := h c List.mem_cons_self
      have hne : ∀ d : Char, isCapital d = true → (c.toNat == d.toNat) = false := by
        intro d hd
        rw [beq_eq_false_iff_ne]
        intro heq
        have hcd : c = d := by rw [← Char.ofNat_toNat c, heq, Char.ofNat_toNat]
        rw [hcd, hd] at hc
        cases hc
      have hdotted : (c.toNat == 0x130) = false := hne (Char.ofNat 0x130) (by decide +kernel)
      have hsigma : (c.toNat == 0x3A3) = false := hne (Char.ofNat 0x3A3) (by decide +kernel)
      unfold lowerAfter
      dsimp only
      rw [hdotted, hsigma, ih _ fun d hd => h d (List.mem_cons_of_mem c hd),
        lowerChar_of_not_capital hc]
      rfl
  exact hrun s none h

theorem small_of_mem_lower {s : List Char} {c : Char} (h : c ∈ lower s) : isCapital c = false := by
  have hrun : ∀ (s : List Char) (previous : Option Char), c ∈ lowerAfter previous s →
      isCapital c = false := by
    intro s
    induction s with
    | nil => exact fun _ hc => absurd hc List.not_mem_nil
    | cons d ds ih =>
      intro previous hc
      unfold lowerAfter at hc
      rcases List.mem_append.mp hc with hc | hc
      · split at hc
        · rcases List.mem_pair.mp hc with rfl | rfl <;> decide +kernel
        · rename_i hdotted
          split at hc
          · rw [List.mem_singleton.mp hc]
            decide +kernel
          · rw [List.mem_singleton.mp hc]
            exact isCapital_lowerChar (by simpa using hdotted)
      · exact ih _ hc
  exact hrun s none h

end Text

/-! ## Semicolons outside of brackets -/

namespace Relation

open Text (isBlank isCapital lower strip stripLeft stripRight)

/-- The depth of brackets at the end of a text, if no semicolon of it is outside of brackets. -/
def depthAtEnd? (depth : Nat) : List Char → Option Nat
  | [] => some depth
  | c :: cs => if c == ';' && depth == 0 then none else depthAtEnd? (depthAfter depth c) cs

theorem depthAtEnd?_append (depth : Nat) (s t : List Char) :
    depthAtEnd? depth (s ++ t) = (depthAtEnd? depth s).bind fun d => depthAtEnd? d t := by
  induction s generalizing depth with
  | nil => rfl
  | cons c cs ih =>
    rw [List.cons_append, depthAtEnd?, depthAtEnd?]
    split
    · rfl
    · exact ih _

theorem depthAtEnd?_blanks (depth : Nat) {blanks : List Char} (h : ∀ c ∈ blanks, isBlank c = true) :
    depthAtEnd? depth blanks = some depth := by
  induction blanks with
  | nil => rfl
  | cons c cs ih =>
    have hc := h c List.mem_cons_self
    have hne : ∀ d : Char, isBlank d = false → (c == d) = false := by
      intro d hd
      rw [beq_eq_false_iff_ne]
      rintro rfl
      rw [hc] at hd
      cases hd
    have hdepth : depthAfter depth c = depth := by
      have hopening : isOpening c = false := by
        simp only [isOpening, hne '(' rfl, hne '[' rfl, hne '{' rfl, Bool.or_self]
      have hclosing : isClosing c = false := by
        simp only [isClosing, hne ')' rfl, hne ']' rfl, hne '}' rfl, Bool.or_self]
      simp only [depthAfter, hopening, hclosing, Bool.false_eq_true, if_false]
    rw [depthAtEnd?, hne ';' rfl, hdepth]
    exact ih fun d hd => h d (List.mem_cons_of_mem c hd)

/-- A text is its stripped form with blanks around it. -/
theorem exists_blanks (s : List Char) : ∃ before after, s = before ++ strip s ++ after ∧
    (∀ c ∈ before, isBlank c = true) ∧ ∀ c ∈ after, isBlank c = true := by
  refine ⟨s.takeWhile isBlank, ((stripLeft s).reverse.takeWhile isBlank).reverse, ?_,
    fun c hc => List.mem_takeWhile_imp hc,
    fun c hc => List.mem_takeWhile_imp (List.mem_reverse.mp hc)⟩
  have hright : strip s ++ ((stripLeft s).reverse.takeWhile isBlank).reverse = stripLeft s := by
    rw [strip, stripRight, ← List.reverse_append, List.takeWhile_append_dropWhile,
      List.reverse_reverse]
  rw [List.append_assoc, hright]
  exact List.takeWhile_append_dropWhile.symm

theorem depthAtEnd?_strip (depth : Nat) (s : List Char) :
    depthAtEnd? depth (strip s) = depthAtEnd? depth s := by
  obtain ⟨before, after, hs, hbefore, hafter⟩ := exists_blanks s
  conv_rhs => rw [hs]
  rw [depthAtEnd?_append, depthAtEnd?_append, depthAtEnd?_blanks depth hbefore, Option.bind_some]
  cases depthAtEnd? depth (strip s) with
  | none => rfl
  | some d => exact (depthAtEnd?_blanks d hafter).symm

/-- Segments without semicolons outside of brackets; each but the last closes its brackets. -/
def Separate (ps : List (List Char)) : Prop :=
  ps.Pairwise (fun p _ => depthAtEnd? 0 p = some 0) ∧ ∀ p ∈ ps, (depthAtEnd? 0 p).isSome

theorem Separate.sublist {ps qs : List (List Char)} (h : Separate ps) (hs : qs.Sublist ps) :
    Separate qs := ⟨h.1.sublist hs, fun q hq => h.2 q (hs.subset hq)⟩

theorem Separate.map_strip {ps : List (List Char)} (h : Separate ps) : Separate (ps.map strip) := by
  refine ⟨List.pairwise_map.mpr (h.1.imp fun hp => ?_), fun q hq => ?_⟩
  · exact (depthAtEnd?_strip 0 _).trans hp
  · obtain ⟨p, hp, rfl⟩ := List.mem_map.mp hq
    rw [depthAtEnd?_strip]
    exact h.2 p hp

theorem separate_splitOutside (depth : Nat) (s : List Char) :
    ∃ p ps d, splitOutside depth s = p :: ps ∧ depthAtEnd? depth p = some d ∧ (ps = [] ∨ d = 0) ∧
      Separate ps := by
  induction s generalizing depth with
  | nil => exact ⟨[], [], depth, rfl, rfl, .inl rfl, .nil, fun _ hp => absurd hp List.not_mem_nil⟩
  | cons c cs ih =>
    cases hc : c == ';' && depth == 0 with
    | true =>
      obtain ⟨-, hdepth⟩ := Bool.and_eq_true_iff.mp hc
      obtain rfl : depth = 0 := beq_iff_eq.mp hdepth
      obtain ⟨p, ps, d, hsplit, hp, hlast, hps⟩ := ih 0
      refine ⟨[], p :: ps, 0, ?_, rfl, .inr rfl, List.pairwise_cons.mpr ⟨fun q hq => ?_, hps.1⟩,
        List.forall_mem_cons.mpr ⟨by rw [hp]; rfl, hps.2⟩⟩
      · rw [splitOutside, if_pos hc, hsplit]
      · rcases hlast with rfl | rfl
        · exact absurd hq List.not_mem_nil
        · exact hp
    | false =>
      obtain ⟨p, ps, d, hsplit, hp, hlast, hps⟩ := ih (depthAfter depth c)
      refine ⟨c :: p, ps, d, ?_, ?_, hlast, hps⟩
      · rw [splitOutside, if_neg (by rw [hc]; exact Bool.false_ne_true), hsplit]
      · rw [depthAtEnd?, hc]
        exact hp

theorem separate_pieces (s : List Char) : Separate (pieces s) := by
  obtain ⟨p, ps, d, hsplit, hp, hlast, hps⟩ := separate_splitOutside 0 (withoutBraces (strip s))
  have hall : Separate (splitOutside 0 (withoutBraces (strip s))) := by
    rw [hsplit]
    refine ⟨List.pairwise_cons.mpr ⟨fun q hq => ?_, hps.1⟩,
      List.forall_mem_cons.mpr ⟨by rw [hp]; rfl, hps.2⟩⟩
    rcases hlast with rfl | rfl
    · exact absurd hq List.not_mem_nil
    · exact hp
  exact hall.map_strip.sublist List.filter_sublist

/-! ## Segments put together -/

theorem splitOutside_append {depth d : Nat} {s : List Char} (h : depthAtEnd? depth s = some d)
    {t p : List Char} {ps : List (List Char)} (ht : splitOutside d t = p :: ps) :
    splitOutside depth (s ++ t) = (s ++ p) :: ps := by
  induction s generalizing depth with
  | nil =>
    cases h
    exact ht
  | cons c cs ih =>
    rw [depthAtEnd?] at h
    split at h
    · cases h
    · rename_i hc
      rw [List.cons_append, splitOutside, if_neg hc, ih h]
      rfl

theorem splitOutside_intercalate {ps : List (List Char)} (h : Separate ps) (hne : ps ≠ []) :
    splitOutside 0 ([';'].intercalate ps) = ps := by
  induction ps with
  | nil => exact absurd rfl hne
  | cons p ps ih =>
    obtain ⟨hfirst, hrest⟩ := List.pairwise_cons.mp h.1
    obtain ⟨hp, hps⟩ := List.forall_mem_cons.mp h.2
    cases ps with
    | nil =>
      obtain ⟨d, hd⟩ := Option.isSome_iff_exists.mp hp
      have hsplit := splitOutside_append hd (t := []) rfl
      rw [List.append_nil] at hsplit
      rw [List.intercalate_singleton, hsplit]
    | cons q qs =>
      have hsplit : splitOutside 0 (';' :: [';'].intercalate (q :: qs)) = [] :: q :: qs := by
        rw [splitOutside, if_pos (by decide), ih ⟨hrest, hps⟩ (List.cons_ne_nil q qs)]
      rw [List.intercalate_cons_cons, List.append_assoc]
      have hwhole := splitOutside_append (hfirst q List.mem_cons_self) hsplit
      rw [List.append_nil] at hwhole
      exact hwhole

/-- Segments as a relation in braces. -/
def rejoin (ps : List (List Char)) : List Char := '{' :: ([';'].intercalate ps ++ ['}'])

theorem strip_rejoin (ps : List (List Char)) : strip (rejoin ps) = rejoin ps := by
  have hleft : stripLeft (rejoin ps) = rejoin ps := List.dropWhile_cons_of_neg (by decide)
  have hreverse : (rejoin ps).reverse = '}' :: ('{' :: [';'].intercalate ps).reverse := by
    rw [rejoin, ← List.cons_append, List.reverse_append]
    rfl
  rw [strip, hleft, stripRight, hreverse, List.dropWhile_cons_of_neg (by decide), ← hreverse,
    List.reverse_reverse]

theorem withoutBraces_rejoin (ps : List (List Char)) :
    withoutBraces (rejoin ps) = [';'].intercalate ps := by
  rw [rejoin, withoutBraces, List.getLast?_concat, if_pos (by decide), List.dropLast_concat]

theorem pieces_rejoin {ps : List (List Char)} (h : Separate ps) (hstrip : ∀ p ∈ ps, strip p = p)
    (hne : ∀ p ∈ ps, p ≠ []) : pieces (rejoin ps) = ps := by
  rw [pieces, strip_rejoin, withoutBraces_rejoin]
  by_cases hnil : ps = []
  · subst hnil
    rfl
  · rw [splitOutside_intercalate h hnil, List.map_congr_left hstrip, List.map_id']
    exact List.filter_eq_self.mpr fun p hp => by simpa using hne p hp

/-! ## Characters of segments -/

theorem mem_of_mem_strip {s : List Char} {c : Char} (hc : c ∈ strip s) : c ∈ s := by
  obtain ⟨before, after, hs, -⟩ := exists_blanks s
  rw [hs]
  exact List.mem_append_left _ (List.mem_append_right _ hc)

theorem mem_of_mem_splitOutside {depth : Nat} {s p : List Char} (hp : p ∈ splitOutside depth s)
    {c : Char} (hc : c ∈ p) : c ∈ s := by
  induction s generalizing depth p with
  | nil =>
    rw [List.mem_singleton.mp hp] at hc
    exact hc
  | cons d ds ih =>
    obtain ⟨q, qs, -, hsplit, -⟩ := separate_splitOutside (depthAfter depth d) ds
    rw [splitOutside, hsplit] at hp
    split at hp
    · rcases List.mem_cons.mp hp with rfl | hp
      · exact absurd hc List.not_mem_nil
      · exact List.mem_cons_of_mem d (ih hp hc)
    · rcases List.mem_cons.mp hp with rfl | hp
      · refine (List.mem_cons.mp hc).elim (fun h => h ▸ List.mem_cons_self) fun hc => ?_
        exact List.mem_cons_of_mem d (ih (hsplit ▸ List.mem_cons_self) hc)
      · exact List.mem_cons_of_mem d (ih (hsplit ▸ List.mem_cons_of_mem q hp) hc)

theorem mem_of_mem_withoutBraces {s : List Char} {c : Char} (hc : c ∈ withoutBraces s) : c ∈ s := by
  unfold withoutBraces at hc
  split at hc
  · split at hc
    · exact List.mem_cons_of_mem _ ((List.dropLast_sublist _).subset hc)
    · exact hc
  · exact hc

theorem mem_of_mem_pieces {s p : List Char} (hp : p ∈ pieces s) {c : Char} (hc : c ∈ p) : c ∈ s := by
  obtain ⟨q, hq, rfl⟩ := List.mem_map.mp (List.mem_filter.mp hp).1
  exact mem_of_mem_strip (mem_of_mem_withoutBraces
    (mem_of_mem_splitOutside hq (mem_of_mem_strip hc)))

theorem mem_rejoin {ps : List (List Char)} {c : Char} (hc : c ∈ rejoin ps) :
    c = '{' ∨ c = ';' ∨ c = '}' ∨ ∃ p ∈ ps, c ∈ p := by
  have hinner : ∀ ps : List (List Char), c ∈ [';'].intercalate ps → c = ';' ∨ ∃ p ∈ ps, c ∈ p := by
    intro ps
    induction ps with
    | nil => exact fun hc => absurd hc List.not_mem_nil
    | cons p ps ih =>
      intro hc
      cases ps with
      | nil =>
        rw [List.intercalate_singleton] at hc
        exact .inr ⟨p, List.mem_singleton_self p, hc⟩
      | cons q qs =>
        rw [List.intercalate_cons_cons, List.append_assoc] at hc
        rcases List.mem_append.mp hc with hc | hc
        · exact .inr ⟨p, List.mem_cons_self, hc⟩
        · rcases List.mem_cons.mp hc with rfl | hc
          · exact .inl rfl
          · exact (ih hc).imp_right fun ⟨r, hr, hcr⟩ => ⟨r, List.mem_cons_of_mem p hr, hcr⟩
  rcases List.mem_cons.mp hc with rfl | hc
  · exact .inl rfl
  · rcases List.mem_append.mp hc with hc | hc
    · exact (hinner ps hc).elim (fun h => .inr (.inl h)) fun h => .inr (.inr (.inr h))
    · exact .inr (.inr (.inl (List.mem_singleton.mp hc)))

/-- Any of the segments of a relation are those of another relation, also in small letters. -/
theorem exists_pieces_eq_filter (s : List Char) (keep : List Char → Bool) :
    ∃ rest, pieces (lower rest) = (pieces (lower s)).filter keep := by
  have hmem : ∀ p ∈ (pieces (lower s)).filter keep, p ∈ pieces (lower s) := fun p hp =>
    (List.mem_filter.mp hp).1
  refine ⟨rejoin ((pieces (lower s)).filter keep), ?_⟩
  rw [Text.lower_of_small fun c hc => ?_]
  · exact pieces_rejoin ((separate_pieces _).sublist List.filter_sublist)
      (fun p hp => strip_of_mem_pieces (hmem p hp)) fun p hp => ne_nil_of_mem_pieces (hmem p hp)
  · rcases mem_rejoin hc with rfl | rfl | rfl | ⟨p, hp, hc⟩
    · decide +kernel
    · decide +kernel
    · decide +kernel
    · exact Text.small_of_mem_lower (mem_of_mem_pieces (hmem p hp) hc)

end Relation

end Graphing
