/-
  Graphing.Proofs.Relation.Joined

  Segments that are written one after another are split where they were joined.

  A segment may hold brackets, one in another, and semicolons inside of them; a
  bracket of any kind closes any other.  Said with counts instead of a depth:
  no beginning of the segment has closed more brackets than it opened, all of
  it has closed as many, and fewer are closed than opened where a semicolon
  stands (`IsSegment`).

  Blanks around a text lie around its first and its last segment, where they
  are stripped off as all others (`pieces_eq_map_strip`).  So braces are taken
  off a text with blanks before or after them as well.
-/
import Graphing.Proofs.Relation.CutOff
import Graphing.Proofs.Relation.Rejoined
import Mathlib.Data.List.Infix

namespace Graphing.Relation

open Text (isBlank strip stripLeft stripLeft_of_head stripRight stripRight_append_blanks
  stripRight_of_filled)

/-! ## Segments -/

/-- A text that can stand between semicolons: it is not empty, it neither begins nor ends with a
blank, its brackets match, and its semicolons are inside of brackets. -/
structure IsSegment (s : List Char) : Prop where
  ne_nil : s ≠ []
  head_filled : ∀ c ∈ s.head?, isBlank c = false
  last_filled : ∀ c ∈ s.getLast?, isBlank c = false
  matched : ∀ t, t <+: s → t.countP isClosing ≤ t.countP isOpening
  closed : s.countP isClosing = s.countP isOpening
  enclosed : ∀ t, t ++ [';'] <+: s → t.countP isClosing < t.countP isOpening

theorem all_filled_iff {o : Option Char} :
    o.all (fun c => !isBlank c) = true ↔ ∀ c ∈ o, isBlank c = false := by
  cases o with
  | none => exact iff_of_true rfl nofun
  | some c => simp

/-- The beginnings of a text can be gone through. -/
instance (s : List Char) : Decidable (IsSegment s) :=
  decidable_of_iff (s ≠ [] ∧ s.head?.all (fun c => !isBlank c) = true ∧
      s.getLast?.all (fun c => !isBlank c) = true ∧
      (∀ t ∈ s.inits, t.countP isClosing ≤ t.countP isOpening) ∧
      s.countP isClosing = s.countP isOpening ∧
      ∀ t ∈ s.inits, t ++ [';'] <+: s → t.countP isClosing < t.countP isOpening)
    ⟨fun ⟨hne, hhead, hlast, hmatched, hclosed, henclosed⟩ =>
      { ne_nil := hne
        head_filled := all_filled_iff.mp hhead
        last_filled := all_filled_iff.mp hlast
        matched := fun t ht => hmatched t ((List.mem_inits t s).mpr ht)
        closed := hclosed
        enclosed := fun t ht =>
          henclosed t ((List.mem_inits t s).mpr ((List.prefix_append t [';']).trans ht)) ht },
    fun h => ⟨h.ne_nil, all_filled_iff.mpr h.head_filled, all_filled_iff.mpr h.last_filled,
      fun t ht => h.matched t ((List.mem_inits t s).mp ht), h.closed, fun t _ => h.enclosed t⟩⟩

theorem isClosing_of_isOpening {c : Char} (h : isOpening c = true) : isClosing c = false := by
  simp only [isOpening, Bool.or_eq_true, beq_iff_eq] at h
  rcases h with (rfl | rfl) | rfl <;> rfl

/-- One more character opens, closes, or does neither. -/
theorem depthAfter_add (d : Nat) (c : Char) (h : [c].countP isClosing ≤ d + [c].countP isOpening) :
    depthAfter d c + [c].countP isClosing = d + [c].countP isOpening := by
  rw [List.countP_singleton, List.countP_singleton] at *
  unfold depthAfter
  cases ho : isOpening c with
  | true => simp [isClosing_of_isOpening ho]
  | false =>
    cases hc : isClosing c with
    | true =>
      simp only [ho, hc, if_true, Bool.false_eq_true, if_false] at h ⊢
      omega
    | false => simp

/-- The depth is what was opened and not closed, if no bracket is closed that was not opened. -/
theorem depthAtEnd?_of_matched {s : List Char} :
    ∀ {d : Nat}, (∀ t, t <+: s → t.countP isClosing ≤ d + t.countP isOpening) →
      (∀ t, t ++ [';'] <+: s → t.countP isClosing < d + t.countP isOpening) →
      ∃ e, depthAtEnd? d s = some e ∧ e + s.countP isClosing = d + s.countP isOpening := by
  induction s with
  | nil => exact fun _ _ => ⟨_, rfl, rfl⟩
  | cons c cs ih =>
    intro d hmatched henclosed
    have hfirst := hmatched [c] ⟨cs, rfl⟩
    have hdepth := depthAfter_add d c hfirst
    have hcount (p : Char → Bool) (t : List Char) :
        (c :: t).countP p = [c].countP p + t.countP p := by
      rw [← List.singleton_append, List.countP_append]
    -- a separator outside of all brackets would end the text here
    have hin : (c == ';' && d == 0) = false := by
      rw [Bool.eq_false_iff]
      intro hout
      obtain ⟨hc, hd⟩ := Bool.and_eq_true_iff.mp hout
      have hbefore := henclosed [] ⟨cs, by rw [beq_iff_eq.mp hc]; rfl⟩
      rw [beq_iff_eq.mp hd] at hbefore
      exact absurd hbefore (Nat.lt_irrefl 0)
    obtain ⟨e, he, hopen⟩ := ih (d := depthAfter d c)
      (fun t ht => by
        have hall := hmatched (c :: t) ((List.prefix_cons_inj c).mpr ht)
        rw [hcount isClosing, hcount isOpening] at hall
        omega)
      (fun t ht => by
        have hall := henclosed (c :: t) ((List.prefix_cons_inj c).mpr ht)
        rw [hcount isClosing, hcount isOpening] at hall
        omega)
    refine ⟨e, ?_, ?_⟩
    · rw [depthAtEnd?, hin, if_neg Bool.false_ne_true]
      exact he
    · rw [hcount isClosing, hcount isOpening]
      omega

variable {s : List Char}

theorem IsSegment.depthAtEnd? (h : IsSegment s) : depthAtEnd? 0 s = some 0 := by
  obtain ⟨e, he, hopen⟩ := depthAtEnd?_of_matched (d := 0)
    (fun t ht => by rw [Nat.zero_add]; exact h.matched t ht)
    (fun t ht => by rw [Nat.zero_add]; exact h.enclosed t ht)
  rw [h.closed, Nat.add_right_cancel_iff] at hopen
  rw [he, hopen]

theorem IsSegment.strip_eq (h : IsSegment s) : strip s = s := by
  rw [strip, stripLeft_of_head h.head_filled, stripRight_of_filled h.last_filled]

/-! ## Segments as they are written -/

/-- A segment with blanks around it. -/
structure Padded where
  before : List Char
  text : List Char
  after : List Char
  isSegment : IsSegment text
  before_blank : ∀ c ∈ before, isBlank c = true
  after_blank : ∀ c ∈ after, isBlank c = true

/-- The segment as it is written. -/
def Padded.written (p : Padded) : List Char := p.before ++ p.text ++ p.after

/-- Segments with semicolons between them. -/
def joined (ps : List Padded) : List Char := [';'].intercalate (ps.map Padded.written)

theorem strip_append_blanks {before after : List Char} (hbefore : ∀ c ∈ before, isBlank c = true)
    (hafter : ∀ c ∈ after, isBlank c = true) (t : List Char) :
    strip (before ++ t ++ after) = strip t := by
  have hleft : stripLeft (before ++ (t ++ after)) = stripLeft (t ++ after) :=
    List.dropWhile_append_of_pos hbefore
  rw [List.append_assoc, strip, hleft, strip, stripLeft, List.dropWhile_append]
  cases hdrop : t.dropWhile isBlank with
  | nil =>
    -- there is nothing but blanks
    have hblank : after.dropWhile isBlank = [] := List.dropWhile_eq_nil_iff.mpr hafter
    rw [stripLeft, hdrop, List.isEmpty_nil, if_pos rfl, hblank]
  | cons c cs =>
    rw [stripLeft, hdrop, List.isEmpty_cons, if_neg Bool.false_ne_true]
    exact stripRight_append_blanks _ hafter

theorem Padded.strip_written (p : Padded) : strip p.written = p.text := by
  rw [written, strip_append_blanks p.before_blank p.after_blank, p.isSegment.strip_eq]

theorem Padded.depthAtEnd?_written (p : Padded) : depthAtEnd? 0 p.written = some 0 := by
  rw [written, depthAtEnd?_append, depthAtEnd?_append, depthAtEnd?_blanks 0 p.before_blank,
    Option.bind_some, p.isSegment.depthAtEnd?]
  exact depthAtEnd?_blanks 0 p.after_blank

theorem separate_written (ps : List Padded) : Separate (ps.map Padded.written) := by
  constructor
  · exact List.pairwise_map.mpr (List.pairwise_of_forall fun p _ => p.depthAtEnd?_written)
  · intro s hs
    obtain ⟨p, -, rfl⟩ := List.mem_map.mp hs
    rw [p.depthAtEnd?_written]
    rfl

/-- The segments are found where they were joined. -/
theorem splitOutside_joined {ps : List Padded} (hne : ps ≠ []) :
    splitOutside 0 (joined ps) = ps.map Padded.written :=
  splitOutside_intercalate (separate_written ps) (by simpa using hne)

theorem filter_strip_written (ps : List Padded) :
    ((ps.map Padded.written).map strip).filter (fun p => !p.isEmpty) = ps.map (·.text) := by
  have hstrip : (ps.map Padded.written).map strip = ps.map (·.text) := by
    rw [List.map_map]
    exact List.map_congr_left fun p _ => p.strip_written
  rw [hstrip, List.filter_eq_self]
  intro s hs
  obtain ⟨p, -, rfl⟩ := List.mem_map.mp hs
  simpa using p.isSegment.ne_nil

/-! ## Blanks around a text -/

/-- Blanks at the end of a text belong to its last segment. -/
theorem splitOutside_append_blanks {blanks : List Char} (h : ∀ c ∈ blanks, isBlank c = true)
    (d : Nat) (s : List Char) :
    ∃ ps q, splitOutside d s = ps ++ [q] ∧ splitOutside d (s ++ blanks) = ps ++ [q ++ blanks] := by
  induction s generalizing d with
  | nil =>
    have hsplit := splitOutside_append (depthAtEnd?_blanks d h) (t := []) rfl
    rw [List.append_nil] at hsplit
    exact ⟨[], [], rfl, hsplit⟩
  | cons c cs ih =>
    rw [List.cons_append, splitOutside, splitOutside]
    split
    · obtain ⟨ps, q, hs, happend⟩ := ih d
      exact ⟨[] :: ps, q, by rw [hs]; rfl, by rw [happend]; rfl⟩
    · obtain ⟨ps, q, hs, happend⟩ := ih (depthAfter d c)
      rw [hs, happend]
      cases ps with
      | nil => exact ⟨[], c :: q, rfl, rfl⟩
      | cons p ps => exact ⟨(c :: p) :: ps, q, rfl, rfl⟩

/-- Blanks around a text are stripped off with those around its segments. -/
theorem map_strip_splitOutside (s : List Char) :
    (splitOutside 0 (strip s)).map strip = (splitOutside 0 s).map strip := by
  obtain ⟨before, after, hs, hbefore, hafter⟩ := exists_blanks s
  obtain ⟨ps, q, hsplit, happend⟩ := splitOutside_append_blanks hafter 0 (strip s)
  have hlast : strip (q ++ after) = strip q := by
    simpa using strip_append_blanks (nofun : ∀ c ∈ [], isBlank c = true) hafter q
  have hafter' : (splitOutside 0 (strip s ++ after)).map strip =
      (splitOutside 0 (strip s)).map strip := by
    rw [hsplit, happend, List.map_append, List.map_append, List.map_singleton,
      List.map_singleton, hlast]
  obtain ⟨p, rest, hfirst⟩ := List.exists_cons_of_ne_nil
    (splitOutside_ne_nil 0 (strip s ++ after))
  have hbefore' : strip (before ++ p) = strip p := by
    simpa using strip_append_blanks hbefore (nofun : ∀ c ∈ [], isBlank c = true) p
  conv_rhs => rw [hs, List.append_assoc,
    splitOutside_append (depthAtEnd?_blanks 0 hbefore) hfirst, List.map_cons, hbefore']
  rw [← hafter', hfirst, List.map_cons]

/-- A text without braces around it is split as it is. -/
theorem pieces_eq_map_strip {s : List Char} (h : withoutBraces (strip s) = strip s) :
    pieces s = ((splitOutside 0 s).map strip).filter fun p => !p.isEmpty := by
  rw [pieces, h, map_strip_splitOutside]

/-! ## Braces around a text -/

/-- Whether a text is in braces as a whole. -/
def isBraced (s : List Char) : Bool := s.head? == some '{' && s.getLast? == some '}'

theorem withoutBraces_of_not_braced {s : List Char} (h : isBraced s = false) :
    withoutBraces s = s := by
  unfold withoutBraces
  split
  · rename_i rest
    refine if_neg fun hlast => ?_
    cases rest with
    | nil => cases hlast
    | cons c cs =>
      rw [isBraced, List.getLast?_cons_cons, hlast] at h
      cases h
  · rfl

/-- A pair of braces that is taken off is lost. -/
theorem count_withoutBraces {s : List Char} (h : isBraced s = true) :
    (withoutBraces s).count '{' + 1 = s.count '{' := by
  obtain ⟨hhead, hlast⟩ := Bool.and_eq_true_iff.mp h
  obtain ⟨rest, rfl⟩ := List.head?_eq_some_iff.mp (beq_iff_eq.mp hhead)
  cases rest with
  | nil => cases hlast
  | cons c cs =>
    rw [List.getLast?_cons_cons] at hlast
    have hbraces : withoutBraces ('{' :: c :: cs) = (c :: cs).dropLast := if_pos hlast
    obtain ⟨inside, hinside⟩ := List.getLast?_eq_some_iff.mp (beq_iff_eq.mp hlast)
    rw [hbraces, hinside, List.dropLast_concat, List.count_cons_self, List.count_append]
    rfl

theorem flatten_splitOutside_sublist (d : Nat) (s : List Char) :
    (splitOutside d s).flatten.Sublist s := by
  induction s generalizing d with
  | nil => exact .slnil
  | cons c cs ih =>
    rw [splitOutside]
    split
    · exact (ih d).cons c
    · obtain ⟨p, ps, hsplit⟩ := List.exists_cons_of_ne_nil (splitOutside_ne_nil (depthAfter d c) cs)
      have hrest := ih (depthAfter d c)
      rw [hsplit] at hrest ⊢
      exact hrest.cons_cons c

theorem strip_sublist (s : List Char) : (strip s).Sublist s := by
  obtain ⟨before, after, hs, -, -⟩ := exists_blanks s
  conv_rhs => rw [hs]
  exact (List.sublist_append_right _ _).trans (List.sublist_append_left _ _)

/-- No brace is in more segments than the text has braces. -/
theorem count_pieces_le (s : List Char) :
    (pieces s).flatten.count '{' ≤ (withoutBraces (strip s)).count '{' := by
  have hstripped : ∀ ps : List (List Char),
      ((ps.map strip).filter fun p => !p.isEmpty).flatten.Sublist ps.flatten := by
    intro ps
    induction ps with
    | nil => exact .slnil
    | cons p ps ih =>
      rw [List.map_cons, List.filter_cons]
      split
      · exact (strip_sublist p).append ih
      · exact ih.trans (List.sublist_append_right _ _)
  exact ((hstripped _).trans (flatten_splitOutside_sublist 0 _)).count_le '{'

theorem count_blanks {blanks : List Char} (h : ∀ c ∈ blanks, isBlank c = true) :
    blanks.count '{' = 0 := by
  refine List.count_eq_zero.mpr fun hmem => ?_
  cases h '{' hmem

theorem count_strip (s : List Char) : (strip s).count '{' = s.count '{' := by
  obtain ⟨before, after, hs, hbefore, hafter⟩ := exists_blanks s
  conv_rhs => rw [hs]
  rw [List.count_append, List.count_append, count_blanks hbefore, count_blanks hafter,
    Nat.zero_add, Nat.add_zero]

theorem count_joined (ps : List Padded) :
    (joined ps).count '{' = (ps.map (·.text)).flatten.count '{' := by
  have hwritten (p : Padded) : p.written.count '{' = p.text.count '{' := by
    rw [← count_strip, p.strip_written]
  unfold joined
  induction ps with
  | nil => rfl
  | cons p ps ih =>
    cases ps with
    | nil => simp [hwritten]
    | cons q qs =>
      have hsemicolon : [';'].count '{' = 0 := rfl
      rw [List.map_cons, List.map_cons, List.intercalate_cons_cons, ← List.map_cons,
        List.count_append, List.count_append, ih, hwritten, hsemicolon, Nat.add_zero,
        List.map_cons (l := q :: qs), List.flatten_cons, List.count_append]

/-! ## Splitting what was joined -/

/-- Segments that are joined are split again, in braces and without; only a text that is in braces
already, whatever blanks are around it, is taken for the inside of them. -/
theorem pieces_joined {ps : List Padded} (hne : ps ≠ []) :
    pieces ('{' :: (joined ps ++ ['}'])) = ps.map (·.text) ∧
      (pieces (joined ps) = ps.map (·.text) ↔ isBraced (strip (joined ps)) = false) := by
  constructor
  · have hrejoin : '{' :: (joined ps ++ ['}']) = rejoin (ps.map Padded.written) := rfl
    rw [hrejoin, pieces, strip_rejoin, withoutBraces_rejoin,
      splitOutside_intercalate (separate_written ps) (by simpa using hne), filter_strip_written]
  · constructor
    · intro hpieces
      rw [Bool.eq_false_iff]
      intro hbraced
      -- one brace is missing from the segments
      have hle := count_pieces_le (joined ps)
      have hlost := count_withoutBraces hbraced
      rw [hpieces, ← count_joined] at hle
      rw [count_strip] at hlost
      omega
    · intro hbraced
      rw [pieces_eq_map_strip (withoutBraces_of_not_braced hbraced), splitOutside_joined hne,
        filter_strip_written]

/-- Brackets in brackets, of kinds that do not belong together, and a semicolon inside of them. -/
theorem pieces_joined_brackets :
    pieces ('{' :: (" 2x (-oo,4] ;f([a;b))\t".toList ++ ['}'])) =
        ["2x (-oo,4]".toList, "f([a;b))".toList] ∧
      pieces " 2x (-oo,4] ;f([a;b))\t".toList = ["2x (-oo,4]".toList, "f([a;b))".toList] := by
  have hfirst : IsSegment "2x (-oo,4]".toList := by decide +kernel
  have hsecond : IsSegment "f([a;b))".toList := by decide +kernel
  have hspace : ∀ c ∈ [' '], isBlank c = true := List.forall_mem_singleton.mpr rfl
  have htab : ∀ c ∈ ['\t'], isBlank c = true := List.forall_mem_singleton.mpr rfl
  let ps : List Padded :=
    [⟨[' '], _, [' '], hfirst, hspace, hspace⟩, ⟨[], _, ['\t'], hsecond, nofun, htab⟩]
  have hpieces := pieces_joined (List.cons_ne_nil _ _ : ps ≠ [])
  have hopen : isBraced (strip " 2x (-oo,4] ;f([a;b))\t".toList) = false := by decide +kernel
  exact ⟨hpieces.1, hpieces.2.mpr hopen⟩

/-- A text that begins with a blank does not begin with a brace, and still its braces are taken
off. -/
theorem pieces_joined_blank_before_braces :
    ∃ ps : List Padded, ps ≠ [] ∧ ps.map (·.text) = ["\x7ba\x7d".toList, "\x7bb\x7d".toList] ∧
      joined ps = " \x7ba\x7d;\x7bb\x7d".toList ∧ isBraced (joined ps) = false ∧
      pieces (joined ps) = ["a\x7d".toList, "\x7bb".toList] ∧
      pieces (joined ps) ≠ ps.map (·.text) := by
  have hfirst : IsSegment "\x7ba\x7d".toList := by decide +kernel
  have hsecond : IsSegment "\x7bb\x7d".toList := by decide +kernel
  have hpieces : pieces " \x7ba\x7d;\x7bb\x7d".toList = ["a\x7d".toList, "\x7bb".toList] := by
    decide +kernel
  have hspace : ∀ c ∈ [' '], isBlank c = true := List.forall_mem_singleton.mpr rfl
  refine ⟨[⟨[' '], _, [], hfirst, hspace, nofun⟩, ⟨[], _, [], hsecond, nofun, nofun⟩],
    List.cons_ne_nil _ _, rfl, rfl, rfl, hpieces, fun h => ?_⟩
  have hsame : ["a\x7d".toList, "\x7bb".toList] = ["\x7ba\x7d".toList, "\x7bb\x7d".toList] :=
    hpieces.symm.trans h
  exact absurd hsame (by decide)

end Graphing.Relation
