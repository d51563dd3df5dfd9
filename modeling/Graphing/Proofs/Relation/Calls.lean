/-
  Graphing.Proofs.Relation.Calls

  Which calls at the end of a relation are taken for a restriction.

  The arguments of a call of two arguments are written like an interval.  They
  are glued to the name of the function, so that no mark sets them off; then
  they are a restriction only if an infinity is mentioned.  But the letters of
  an infinity are searched for in all of the text, and stand in names such as
  `floor` as well; and a hole can be set off by a blank within the arguments.
  These two are all that can be found in a call (`restriction_call`).
-/
import Graphing.Notation.Vocabulary
import Graphing.Proofs.Relation.CutOff

namespace Graphing

/-! ## Infinities in parts of a text -/

namespace Text

theorem lowerAfter_of_break {c : Char} (hc : (isWord c && !isDigit c) = false) (s : List Char) :
    lowerAfter (some c) s = lowerAfter none s := by
  cases s with
  | nil => rfl
  | cons d s => simp [lowerAfter, hc]

/-- A character that belongs to no word parts a text for its small form. -/
theorem lowerAfter_append_cons {c : Char} (hc : (isWord c && !isDigit c) = false)
    (hsmall : ∀ p s, lowerAfter p (c :: s) = c :: lowerAfter (some c) s) (s t : List Char)
    (p : Option Char) : lowerAfter p (s ++ c :: t) = lowerAfter p s ++ c :: lower t := by
  induction s generalizing p with
  | nil => rw [List.nil_append, hsmall, lowerAfter_of_break hc, lower, lowerAfter, List.nil_append]
  | cons d s ih =>
    rw [List.cons_append, lowerAfter, lowerAfter, ih, List.append_assoc]
    cases s with
    | nil => simp [hc]
    | cons e s => rfl

end Text

namespace Interval

theorem beginsWith_append_cons {word : List Char} {c : Char} (hc : c ∉ word) (s t : List Char) :
    beginsWith word (s ++ c :: t) = beginsWith word s := by
  induction word generalizing s with
  | nil => rfl
  | cons w ws ih =>
    obtain ⟨hw, hws⟩ := not_or.mp (mt List.mem_cons.mpr hc)
    cases s with
    | nil =>
      have hne : (w == c) = false := beq_eq_false_iff_ne.mpr (Ne.symm hw)
      simp [beginsWith, hne]
    | cons d s => rw [List.cons_append, beginsWith, beginsWith, ih hws]

/-- A text that is parted by a character has a word in it if one of the parts has, unless the
character is a part of the word. -/
theorem mentions_append_cons {word : List Char} {c : Char} (hc : c ∉ word) (s t : List Char) :
    mentions word (s ++ c :: t) = (mentions word s || mentions word t) := by
  induction s with
  | nil =>
    have hbegin : beginsWith word (c :: t) = beginsWith word [] := beginsWith_append_cons hc [] t
    rw [List.nil_append, mentions.eq_def, mentions.eq_def word []]
    dsimp only
    rw [hbegin]
    cases word <;> rfl
  | cons d s ih =>
    rw [List.cons_append, mentions, ← List.cons_append, beginsWith_append_cons hc, ih, mentions,
      Bool.or_assoc]

theorem isInfinite_append_cons {c : Char} (hc : c ∉ ['i', 'n', 'f', 'o']) (s t : List Char) :
    isInfinite (s ++ c :: t) = (isInfinite s || isInfinite t) := by
  have hinf : c ∉ "inf".toList := fun h => hc (List.mem_append_left ['o'] h)
  have hoo : c ∉ "oo".toList := fun h => hc (by simp_all)
  rw [isInfinite, mentions_append_cons hinf, mentions_append_cons hoo, isInfinite, isInfinite]
  simp only [Bool.or_assoc, Bool.or_left_comm]

end Interval

namespace Relation

open Graphing.Interval (IsSide IsWritten endsWithLiteral endsWithLiteral_before_written
  endsWithLiteral_inside_written endsWithLiteral_written isInfinite isInfinite_append_cons isOpener
  scanHole)
open Text (isBlank lower lowerAfter lowerAfter_append_cons strip stripRight stripRight_of_filled)

/-! ## The search -/

/-- A search finds nothing if the test fails at every place. -/
theorem splitFirst_eq_none_iff {test : List Char → List Char → Bool} {before s : List Char} :
    splitFirst test before s = none ↔
      ∀ u v, u ++ v = s → test (u.reverse ++ before) v = false := by
  induction s generalizing before with
  | nil =>
    rw [splitFirst]
    split
    · rename_i htest
      exact iff_of_false (Option.some_ne_none _) fun h =>
        Bool.noConfusion (htest.symm.trans (h [] [] rfl))
    · rename_i htest
      refine iff_of_true rfl fun u v huv => ?_
      obtain ⟨rfl, rfl⟩ := List.append_eq_nil_iff.mp huv
      exact Bool.eq_false_iff.mpr htest
  | cons c cs ih =>
    rw [splitFirst]
    split
    · rename_i htest
      exact iff_of_false (Option.some_ne_none _) fun h =>
        Bool.noConfusion (htest.symm.trans (h [] (c :: cs) rfl))
    · rename_i htest
      rw [ih]
      -- a split after the first character is a split of the rest
      constructor
      · intro h u v huv
        cases u with
        | nil =>
          rw [List.nil_append] at huv
          rw [huv]
          exact Bool.eq_false_iff.mpr htest
        | cons d u =>
          obtain ⟨hd, hrest⟩ := List.cons.inj huv
          rw [hd, List.reverse_cons, List.append_assoc]
          exact h u v hrest
      · intro h u v huv
        have := h (c :: u) v (congrArg (c :: ·) huv)
        rwa [List.reverse_cons, List.append_assoc] at this

/-- The place that is found passes the test. -/
theorem test_of_splitFirst {test : List Char → List Char → Bool} {before s head tail : List Char}
    (h : splitFirst test before s = some (head, tail)) : test head.reverse tail = true := by
  induction s generalizing before with
  | nil =>
    rw [splitFirst] at h
    split at h
    · rename_i htest
      cases h
      rwa [List.reverse_reverse]
    · cases h
  | cons c cs ih =>
    rw [splitFirst] at h
    split at h
    · rename_i htest
      cases h
      rwa [List.reverse_reverse]
    · exact ih h

/-- A restriction that is found is not empty. -/
theorem found_ne_nil {s before found : List Char} (h : findRestriction? s = some (before, found)) :
    found ≠ [] := by
  rintro rfl
  unfold findRestriction? at h
  split at h
  · rename_i heq
    cases h
    have htest := test_of_splitFirst heq
    have hempty : isRestriction [] = false := rfl
    rw [hempty, Bool.and_false] at htest
    cases htest
  · exact Bool.noConfusion (test_of_splitFirst (Option.filter_eq_some_iff.mp h).1)

theorem length_stripRight_le (s : List Char) : (stripRight s).length ≤ s.length := by
  rw [stripRight, List.length_reverse]
  exact (List.dropWhile_sublist _).length_le.trans (List.length_reverse).le

theorem length_withoutOn_le (s : List Char) : (withoutOn s).length ≤ s.length := by
  unfold withoutOn
  split
  · rename_i n o rest hreverse
    split
    · have hlength := congrArg List.length hreverse
      have hrest := length_stripRight_le rest.reverse
      simp only [List.length_reverse, List.length_cons] at hlength hrest
      omega
    · exact le_rfl
  · exact le_rfl

/-- A relation is taken apart exactly if a restriction is found. -/
theorem unrestricted_eq_self_iff {s : List Char} :
    restriction s = [] ∧ unrestricted s = s ↔ findRestriction? s = none := by
  constructor
  · rintro ⟨-, hsame⟩
    cases hfind : findRestriction? s with
    | none => rfl
    | some found =>
      obtain ⟨before, found⟩ := found
      rw [unrestricted, hfind] at hsame
      have hshort := congrArg List.length hsame
      have happ := congrArg List.length (append_of_findRestriction hfind)
      have hpos := List.length_pos_iff.mpr (found_ne_nil hfind)
      have h₁ := length_stripRight_le (withoutOn (stripRight before))
      have h₂ := length_withoutOn_le (stripRight before)
      have h₃ := length_stripRight_le before
      rw [List.length_append] at happ
      dsimp only at hshort
      omega
  · intro hfind
    rw [restriction, hfind]
    exact ⟨rfl, unrestricted_of_none hfind⟩

/-! ## Texts that end in a glued interval -/

/-- A hole is set off within a text. -/
def HoldsHole (s : List Char) : Prop :=
  ∃ u v, u ++ v = s ∧ isLead u.reverse = true ∧ (scanHole v).isSome = true

theorem HoldsHole.sign {s : List Char} (h : HoldsHole s) : ['!', '='] <:+: s := by
  obtain ⟨u, v, rfl, -, hv⟩ := h
  obtain ⟨found, hfound⟩ := Option.isSome_iff_exists.mp hv
  cases v with
  | nil => cases hfound
  | cons c rest =>
    obtain ⟨-, -, hfound⟩ := Option.bind_eq_some_iff.mp hfound
    split at hfound
    · rename_i value hsign
      have hrest : rest = rest.takeWhile isBlank ++ '!' :: '=' :: value := by
        rw [← hsign, Text.stripLeft, List.takeWhile_append_dropWhile]
      exact ⟨u ++ c :: rest.takeWhile isBlank, value, by simpa using hrest.symm⟩
    · cases hfound

variable {e r : List Char}

/-- A text that marks no place behind it can be cut off from without loss. -/
theorem isHead_of_not_lead (hsign : ¬['!', '='] <:+: e) (hlead : isLead e.reverse = false) :
    IsHead e := by
  rcases List.eq_nil_or_concat' e with rfl | ⟨e, n, rfl⟩
  · cases hlead
  rw [List.reverse_concat] at hlead
  have hfilled : ∀ c ∈ (e ++ [n]).getLast?, isBlank c = false := by
    intro c hc
    rw [List.getLast?_concat, Option.mem_some_iff] at hc
    subst hc
    rw [Bool.eq_false_iff]
    intro hblank
    rw [isLead_blank hblank] at hlead
    cases hlead
  refine ⟨hsign, hfilled, ?_⟩
  rintro o n' ho hn ⟨start, heq⟩
  have happ : start ++ [o] ++ [n'] = e ++ [n] := by simpa using heq
  obtain ⟨rfl, hlast⟩ := List.append_inj' happ rfl
  obtain rfl : n' = n := by simpa using hlast
  rw [List.reverse_concat, isLead, isLetter_n.mpr hn, isLetter_o.mpr ho] at hlead
  simp at hlead

/-- Behind an opening bracket, the marks are those within the brackets. -/
theorem isLead_glued {c : Char} (hc : isOpener c = true) (u e : List Char) :
    isLead ((c :: u).reverse ++ e) = isLead (c :: u).reverse := by
  rw [List.reverse_cons, List.append_assoc, List.singleton_append]
  cases u.reverse with
  | nil =>
    simp only [isOpener, Bool.or_eq_true, beq_iff_eq] at hc
    rcases hc with rfl | rfl <;> cases e <;> rfl
  | cons d ds =>
    cases ds <;> rfl

/-- A search that passes over a text goes on behind it. -/
theorem splitFirst_behind {test : List Char → List Char → Bool}
    (h : ∀ u v, u ++ v = e → v ≠ [] → test u.reverse (v ++ r) = false) :
    splitFirst test [] (e ++ r) = splitFirst test e.reverse r := by
  rw [splitFirst_append fun u v huv hv => by rw [List.append_nil]; exact h u v huv hv,
    List.append_nil]

/-- Of a text that ends in a glued interval nothing is set off but a hole within the interval. -/
theorem markedRestriction?_glued (hsign : ¬['!', '='] <:+: e) (hlead : isLead e.reverse = false)
    (hr : IsWritten r) : markedRestriction? (e ++ r) = none ↔ ¬HoldsHole r := by
  obtain ⟨opener, inside, hcons, hopener⟩ := hr.exists_cons
  have hsearch : markedRestriction? (e ++ r) =
      splitFirst (fun before after => isLead before && isRestriction after) e.reverse r := by
    refine splitFirst_behind fun u v huv hv => ?_
    have hsub : ¬['!', '='] <:+: v := fun h => hsign (h.trans ⟨u, [], by rw [List.append_nil, huv]⟩)
    rw [not_isRestriction_before hr hv hsub, Bool.and_false]
  -- within the interval, a place is marked whatever stands before the interval
  have hinside : ∀ u v, u ++ v = r → u ≠ [] →
      (isLead (u.reverse ++ e.reverse) && isRestriction v) =
        (isLead u.reverse && (scanHole v).isSome) := by
    intro u v huv hu
    obtain ⟨d, u, rfl⟩ := List.exists_cons_of_ne_nil hu
    have hd : isOpener d = true := by
      rw [hcons] at huv
      rw [(List.cons.inj huv).1, hopener]
    rw [isLead_glued hd, isRestriction, endsWithLiteral_inside_written hr huv hu, Bool.false_or]
  rw [hsearch, splitFirst_eq_none_iff]
  constructor
  · rintro hfails ⟨u, v, huv, hu, hv⟩
    have hne : u ≠ [] := by
      rintro rfl
      -- an opening bracket is no letter
      rw [List.nil_append] at huv
      rw [huv, hcons] at hv
      simp only [isOpener, Bool.or_eq_true, beq_iff_eq] at hopener
      rcases hopener with rfl | rfl <;> cases hv
    have htest := hfails u v huv
    rw [hinside u v huv hne, hu, hv] at htest
    cases htest
  · intro hhole u v huv
    by_cases hu : u = []
    · rw [hu, List.reverse_nil, List.nil_append, hlead, Bool.false_and]
    · rw [hinside u v huv hu, Bool.eq_false_iff]
      intro htest
      exact hhole ⟨u, v, huv, (Bool.and_eq_true _ _).mp htest⟩

theorem bareRestriction?_glued (e : List Char) (hr : IsWritten r) :
    bareRestriction? (e ++ r) = if isNoCall r then some (e, r) else none := by
  have hsearch : splitFirst (fun _ after => endsWithLiteral after) [] (e ++ r) = some (e, r) := by
    rw [splitFirst_behind fun u v huv hv => ?_]
    · obtain ⟨opener, inside, hcons, -⟩ := hr.exists_cons
      rw [hcons, splitFirst, ← hcons, endsWithLiteral_written hr, if_pos rfl, List.reverse_reverse]
    · obtain ⟨c, v, rfl⟩ := List.exists_cons_of_ne_nil hv
      exact endsWithLiteral_before_written hr c v
  rw [bareRestriction?, hsearch, Option.filter_some]
  simp only [stripRight_written hr]

/-- A glued interval is left alone exactly if it can be a call and holds no hole. -/
theorem findRestriction?_glued (hsign : ¬['!', '='] <:+: e) (hlead : isLead e.reverse = false)
    (hr : IsWritten r) :
    (findRestriction? (e ++ r) = none ↔ isNoCall r = false ∧ ¬HoldsHole r) ∧
    (isNoCall r = true → ¬HoldsHole r → findRestriction? (e ++ r) = some (e, r)) := by
  have hmarked := markedRestriction?_glued hsign hlead hr
  have hbare := bareRestriction?_glued e hr
  unfold findRestriction?
  cases hfound : markedRestriction? (e ++ r) with
  | some found =>
    have hhole : ¬¬HoldsHole r := fun h => Option.some_ne_none _ (hfound.symm.trans (hmarked.mpr h))
    exact ⟨iff_of_false (Option.some_ne_none _) fun h => hhole h.2, fun _ h => absurd h hhole⟩
  | none =>
    dsimp only
    rw [hbare]
    cases isNoCall r with
    | true =>
      rw [if_pos rfl]
      exact ⟨iff_of_false (Option.some_ne_none _) fun h => Bool.noConfusion h.1, fun _ _ => rfl⟩
    | false =>
      rw [if_neg Bool.false_ne_true]
      exact ⟨iff_of_true rfl ⟨rfl, hmarked.mp hfound⟩, fun h => Bool.noConfusion h⟩

/-! ## Calls -/

/-- The arguments of a call, in their parentheses. -/
def arguments (a b : List Char) : List Char := '(' :: (a ++ ',' :: (b ++ [')']))

theorem isWritten_arguments {a b : List Char} (ha : IsSide a) (hb : IsSide b) :
    IsWritten (arguments a b) := .mk rfl ha hb rfl

/-- Arguments can be no call only if an infinity is mentioned in one of them. -/
theorem isNoCall_arguments (a b : List Char) :
    isNoCall (arguments a b) = (isInfinite (lower a) || isInfinite (lower b)) := by
  have hbrackets : isNoCall (arguments a b) = isInfinite (lower (arguments a b)) := by
    have hlast : (arguments a b).getLast? = some ')' := by
      have happ : arguments a b = ('(' :: (a ++ ',' :: b)) ++ [')'] := by simp [arguments]
      rw [happ, List.getLast?_concat]
    rw [isNoCall, hlast]
    rfl
  have hopen := lowerAfter_append_cons (c := '(') rfl (fun p s => rfl) [] (a ++ ',' :: (b ++ [')'])) none
  have hcomma := lowerAfter_append_cons (c := ',') rfl (fun p s => rfl) a (b ++ [')']) none
  have hclose := lowerAfter_append_cons (c := ')') rfl (fun p s => rfl) b [] none
  have hlower : lower (arguments a b) = [] ++ '(' :: (lower a ++ ',' :: (lower b ++ ')' :: [])) := by
    rw [arguments, lower]
    exact hopen.trans (by rw [lower, hcomma, lower, hclose]; rfl)
  rw [hbrackets, hlower, isInfinite_append_cons (by decide), isInfinite_append_cons (by decide),
    isInfinite_append_cons (by decide)]
  simp [isInfinite, Interval.mentions]

/-- The name of a function marks no place behind it, whatever stands before. -/
theorem isLead_functionName {name : String} (h : name ∈ Notation.functionNames) (s : List Char) :
    isLead (s ++ name.toList).reverse = false ∧ '=' ∉ name.toList := by
  have hnames : ∀ name ∈ Notation.functionNames, '=' ∉ name.toList ∧
      2 ≤ name.toList.length ∧ isLead name.toList.reverse = false := by
    decide +kernel
  obtain ⟨hequals, hlength, hlead⟩ := hnames name h
  refine ⟨?_, hequals⟩
  rw [List.reverse_append]
  rw [← List.length_reverse] at hlength
  match hreverse : name.toList.reverse with
  | [] | [_] =>
    rw [hreverse] at hlength
    simp at hlength
  | n :: o :: rest =>
    rw [hreverse] at hlead
    exact hlead

/-- What is found at the end of a relation that ends in a call. The call is left alone exactly if
neither argument mentions an infinity, which names of functions do as well, and no hole is set off
within the arguments. If an infinity is mentioned, the arguments are taken for an interval and the
name is left behind. -/
theorem restriction_call {before a b : List Char} {name : String} (hsign : ¬['!', '='] <:+: before)
    (hname : name ∈ Notation.functionNames) (ha : IsSide a) (hb : IsSide b) :
    (restriction (before ++ name.toList ++ arguments a b) = [] ∧
        unrestricted (before ++ name.toList ++ arguments a b) =
          before ++ name.toList ++ arguments a b ↔
      (isInfinite (lower a) || isInfinite (lower b)) = false ∧ ¬HoldsHole (arguments a b)) ∧
    ((isInfinite (lower a) || isInfinite (lower b)) = true → ¬HoldsHole (arguments a b) →
      restriction (before ++ name.toList ++ arguments a b) = arguments a b ∧
        unrestricted (before ++ name.toList ++ arguments a b) = before ++ name.toList) := by
  obtain ⟨hlead, hequals⟩ := isLead_functionName hname before
  have hr := isWritten_arguments ha hb
  have hsign' := noHole_append hsign hequals
  obtain ⟨hnone, hfound⟩ := findRestriction?_glued hsign' hlead hr
  rw [isNoCall_arguments] at hnone hfound
  refine ⟨unrestricted_eq_self_iff.trans hnone, fun hinfinite hhole => ?_⟩
  have hfind := hfound hinfinite hhole
  have he := isHead_of_not_lead hsign' hlead
  have hself := stripRight_of_filled he.filled
  constructor
  · rw [restriction, hfind]
    exact strip_written hr
  · rw [unrestricted, hfind]
    dsimp only
    rw [hself, he.withoutOn, hself]

/-- A call of `floor` among the arguments mentions an infinity. -/
theorem restriction_call_floor :
    let before := "y = ".toList
    let a := "floor(x)".toList
    let b := "2".toList
    ¬['!', '='] <:+: before ∧ "max" ∈ Notation.functionNames ∧ IsSide a ∧ IsSide b ∧
      (isInfinite (lower a) || isInfinite (lower b)) = true ∧ ¬HoldsHole (arguments a b) ∧
      restriction (before ++ "max".toList ++ arguments a b) = arguments a b ∧
      unrestricted (before ++ "max".toList ++ arguments a b) = before ++ "max".toList := by
  intro before a b
  have hsign : ¬['!', '='] <:+: before := by decide +kernel
  have hname : "max" ∈ Notation.functionNames := by decide
  have ha : IsSide a := by
    refine ⟨[['f'], ['l'], ['o'], ['o'], ['r'], ['(', 'x', ')']], by decide, ?_, rfl⟩
    rintro p (_ | ⟨_, _ | ⟨_, _ | ⟨_, _ | ⟨_, _ | ⟨_, _ | ⟨_, ⟨⟩⟩⟩⟩⟩⟩⟩)
    · exact .char rfl
    · exact .char rfl
    · exact .char rfl
    · exact .char rfl
    · exact .char rfl
    · have hgroup : ∀ c ∈ ['x'], c ≠ '(' ∧ c ≠ ')' := by
        intro c hc
        rw [List.mem_singleton.mp hc]
        exact ⟨by decide, by decide⟩
      exact .group hgroup
  have hb : IsSide b := ⟨[['2']], by decide, by rintro p (_ | ⟨_, ⟨⟩⟩); exact .char rfl, rfl⟩
  have hinfinite : (isInfinite (lower a) || isInfinite (lower b)) = true := by decide +kernel
  have hhole : ¬HoldsHole (arguments a b) := fun h => absurd h.sign (by decide +kernel)
  exact ⟨hsign, hname, ha, hb, hinfinite, hhole,
    (restriction_call hsign hname ha hb).2 hinfinite hhole⟩

end Relation
end Graphing
