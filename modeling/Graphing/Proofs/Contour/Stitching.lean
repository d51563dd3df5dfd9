/-
  Graphing.Proofs.Contour.Stitching

  Stitching puts out the connected components of the segments it was given.

  The invariant of a run (`Stitched`) says that the open chains and the chains
  put out so far are a weave of the segments added so far, and that the raster
  holds the ends of the open chains.  Among segments that can be told apart
  (`Separated`) a new segment can only meet the lines at ends of open chains,
  and the search finds those ends; so each outcome of adding a segment is one
  of the ways to add a segment to a weave.
-/
import Graphing.Proofs.Contour.Adding
import Graphing.Proofs.Contour.Weaving
import Mathlib.Algebra.Order.Ring.Rat
import Mathlib.Data.Rat.Floor
import Mathlib.Tactic.NormNum

namespace Graphing.Contour

/-! ## Joining at the right ends -/

namespace Weave

variable {P : Type} {opens loops : List (List (Point P))} {E : Multiset (Sym2 (Point P))}
  {l m : List (Point P)} {p q : Point P}

/-- A segment from an end of a path to a new point extends the path there. -/
theorem grow (h : Weave (l :: opens) loops E) {b : Bool} (hp : endPoint? l b = some p)
    (hq : ∀ m ∈ (l :: opens) ++ loops, q ∉ m) :
    Weave (ChainStore.grow l b q :: opens) loops (s(p, q) ::ₘ E) := by
  cases b with
  | true => exact h.extend hp hq
  | false =>
    have hrev := h.reverse.extend (p := p) (q := q) (by simpa [endPoint?] using hp) (by simpa using hq)
    simpa [ChainStore.grow] using hrev.reverse

/-- A segment between ends of two paths joins them there. -/
theorem joined (h : Weave (l :: m :: opens) loops E) {b c : Bool} (hp : endPoint? l b = some p)
    (hq : endPoint? m c = some q) :
    Weave (ChainStore.joined l m b c :: opens) loops (s(p, q) ::ₘ E) := by
  have hfirst : Weave ((if b then l else l.reverse) :: m :: opens) loops E := by
    cases b with
    | true => exact h
    | false => exact h.reverse
  have hswap := hfirst.perm (List.Perm.swap m _ opens) (List.Perm.refl _)
  have hsecond : Weave ((if c then m.reverse else m) :: (if b then l else l.reverse) :: opens)
      loops E := by
    cases c with
    | true => exact hswap.reverse
    | false => exact hswap
  have hboth := hsecond.perm (List.Perm.swap _ _ opens) (List.Perm.refl _)
  refine hboth.join ?_ ?_
  · cases b <;> simpa [endPoint?] using hp
  · cases c <;> simpa [endPoint?] using hq

/-- A segment between the two ends of a path closes it. -/
theorem close_ends (h : Weave (l :: opens) loops E) {b : Bool} (hp : endPoint? l b = some p)
    (hq : endPoint? l (!b) = some q) :
    Weave opens ((l ++ l.head?.toList) :: loops) (s(p, q) ::ₘ E) := by
  cases b with
  | true =>
    have hhead : l.head? = some q := hq
    rw [hhead]
    exact h.close hp hhead
  | false =>
    have hhead : l.head? = some p := hp
    rw [hhead, Sym2.eq_swap]
    exact h.close hq hhead

end Weave

/-! ## The invariant of a run -/

variable {K : Type} [Field K] [LinearOrder K] [FloorRing K]

/-- Segments that a store can tell apart: none joins a point to itself, different points are not
within the tolerance of each other, and at most two segments meet at a point. -/
structure Separated (tolerance : K) (E : Multiset (Sym2 (Point K))) : Prop where
  ne : ∀ p q, s(p, q) ∈ E → p ≠ q
  apart : ∀ e ∈ E, ∀ f ∈ E, ∀ p ∈ e, ∀ q ∈ f, p ≠ q →
    tolerance < |p.x - q.x| ∨ tolerance < |p.y - q.y|
  degree_le : ∀ p, degree E p ≤ 2

omit [FloorRing K] in
theorem Separated.of_le {tolerance : K} {E F : Multiset (Sym2 (Point K))}
    (h : Separated tolerance F) (hle : E ≤ F) : Separated tolerance E where
  ne p q hpq := h.ne p q (Multiset.mem_of_le hle hpq)
  apart e he f hf := h.apart e (Multiset.mem_of_le hle he) f (Multiset.mem_of_le hle hf)
  degree_le p := (Multiset.countP_le_of_le _ hle).trans (h.degree_le p)

namespace ChainStore

/-- The chains of a store run through the given segments, and the raster holds their ends. -/
structure Stitched (E : Multiset (Sym2 (Point K))) (s : ChainStore K) : Prop where
  numbered : s.Numbered
  indexed : s.Indexed
  weave : Weave s.openLines s.output.toList E

variable {E : Multiset (Sym2 (Point K))} {s : ChainStore K} {p q : Point K}

theorem stitched_empty (tolerance : K) (maxOpen : Int) :
    Stitched 0 (ChainStore.empty tolerance maxOpen) where
  numbered := numbered_empty tolerance maxOpen
  indexed := indexed_empty tolerance maxOpen
  weave := Weave.empty

omit [Field K] [LinearOrder K] [FloorRing K] in
theorem mem_lines_of_point? {e : ChainEnd} (he : s.point? e = some p) :
    ∃ l ∈ s.openLines ++ s.output.toList, p ∈ l := by
  obtain ⟨l, hl, hp⟩ := Option.bind_eq_some_iff.mp he
  refine ⟨l, List.mem_append_left _ (List.mem_map.mpr ⟨_, mem_chains_of_chain? hl, rfl⟩), ?_⟩
  unfold endPoint? at hp
  split at hp
  · exact List.mem_of_getLast? hp
  · exact List.mem_of_head? hp

namespace Stitched

theorem weave_cons (h : Stitched E s) {n : Nat} {l : List (Point K)} (hn : s.chain? n = some l) :
    Weave (l :: (s.dropChain n).openLines) s.output.toList E :=
  h.weave.perm (openLines_perm h.numbered hn) (List.Perm.refl _)

theorem two_le (h : Stitched E s) {n : Nat} {l : List (Point K)} (hn : s.chain? n = some l) :
    2 ≤ l.length :=
  ((h.weave_cons hn).paths l (by simp)).two_le

theorem ne_nil (h : Stitched E s) {n : Nat} {l : List (Point K)} (hn : s.chain? n = some l) :
    l ≠ [] := by
  rintro rfl
  exact absurd (h.two_le hn) (by simp)

/-- A point of a line is an end of a segment. -/
theorem exists_mem (h : Stitched E s) {l : List (Point K)} (hl : l ∈ s.openLines ++ s.output.toList)
    (hp : p ∈ l) : ∃ e ∈ E, p ∈ e := by
  have hlong : 2 ≤ l.length := by
    rcases List.mem_append.mp hl with hl | hl
    · exact (h.weave.paths l hl).two_le
    · have := (h.weave.closed l hl).three_le
      omega
  obtain ⟨e, he, hpe⟩ := exists_mem_edges hlong hp
  refine ⟨e, ?_, hpe⟩
  rw [← h.weave.edges_eq, mem_allEdges]
  exact ⟨l, hl, he⟩

/-! ### The outcomes of adding a segment -/

theorem opened (h : Stitched E s) (hpq : p ≠ q)
    (hp : ∀ l ∈ s.openLines ++ s.output.toList, p ∉ l)
    (hq : ∀ l ∈ s.openLines ++ s.output.toList, q ∉ l) :
    Stitched (s(p, q) ::ₘ E) (s.opened p q) where
  numbered := h.numbered.opened p q
  indexed := indexed_opened h.indexed (chain?_next h.numbered) p q
  weave := by
    rw [opened_output, openLines_opened]
    exact (h.weave.start hpq hp hq).perm (List.perm_append_singleton [p, q] s.openLines).symm
      (List.Perm.refl _)

theorem extended (h : Stitched E s) {e : ChainEnd} {l : List (Point K)}
    (hn : s.chain? e.chain = some l) (hp : endPoint? l e.isLast = some p)
    (hq : ∀ l ∈ s.openLines ++ s.output.toList, q ∉ l) :
    Stitched (s(p, q) ::ₘ E) (s.extend e q) where
  numbered := h.numbered.extend hn q
  indexed := indexed_extend h.indexed hn (h.ne_nil hn) q
  weave := by
    have hq' : ∀ m ∈ (l :: (s.dropChain e.chain).openLines) ++ s.output.toList, q ∉ m := by
      intro m hm
      refine hq m ?_
      rw [List.mem_append, (openLines_perm h.numbered hn).mem_iff, ← List.mem_append]
      exact hm
    rw [extend_output hn]
    exact ((h.weave_cons hn).grow hp hq').perm (openLines_extend h.numbered hn q).symm
      (List.Perm.refl _)

theorem closed (h : Stitched E s) {n : Nat} {l : List (Point K)} (hn : s.chain? n = some l)
    {b : Bool} (hp : endPoint? l b = some p) (hq : endPoint? l (!b) = some q) :
    Stitched (s(p, q) ::ₘ E) (s.close n) := by
  rw [close_eq hn (h.two_le hn)]
  refine ⟨h.numbered.putOut n _, indexed_putOut h.indexed hn (h.ne_nil hn) _, ?_⟩
  refine ((h.weave_cons hn).close_ends hp hq).perm (List.Perm.refl _) ?_
  rw [putOut, Array.toList_push]
  exact (List.perm_append_singleton _ _).symm

theorem joined (h : Stitched E s) {e f : ChainEnd} {first second : List (Point K)}
    (he : s.chain? e.chain = some first) (hf : s.chain? f.chain = some second)
    (hef : e.chain ≠ f.chain) (hp : endPoint? first e.isLast = some p)
    (hq : endPoint? second f.isLast = some q) : Stitched (s(p, q) ::ₘ E) (s.join e f) where
  numbered := h.numbered.join he hf
  indexed := indexed_join h.indexed he hf (h.ne_nil he) (h.ne_nil hf) hef
  weave := by
    have hold := openLines_perm_pair h.numbered he hf hef
    have hweave := (h.weave.perm hold (List.Perm.refl _)).joined hp hq
    rw [join_output he hf]
    exact hweave.perm (openLines_join h.numbered he hf hef).symm (List.Perm.refl _)

variable [IsStrictOrderedRing K]

/-- Points of the lines that are near a point of a new segment are that point. -/
theorem eq_of_near (h : Stitched E s) {g : Sym2 (Point K)}
    (hsep : Separated s.tolerance (g ::ₘ E)) (hp : p ∈ g) {e : ChainEnd}
    (he : s.point? e = some q) (hnear : p.near s.tolerance q = true) : q = p := by
  obtain ⟨l, hl, hq⟩ := mem_lines_of_point? he
  obtain ⟨f, hf, hqf⟩ := h.exists_mem hl hq
  by_contra hne
  have := hsep.apart g (Multiset.mem_cons_self _ _) f (Multiset.mem_cons_of_mem hf) p hp q hqf
    (Ne.symm hne)
  rw [Point.near_iff] at hnear
  rcases this with hx | hy
  · exact absurd hnear.1 (not_le.mpr hx)
  · exact absurd hnear.2 (not_le.mpr hy)

/-- A line meets a new segment only at an end of an open chain, and no end but the excepted one is
near the point. -/
theorem exists_end (h : Stitched E s) (htol : 0 < s.tolerance) {g : Sym2 (Point K)}
    (hsep : Separated s.tolerance (g ::ₘ E)) (hp : p ∈ g) {except : Option ChainEnd}
    (hfree : s.IsFree p except) {l : List (Point K)}
    (hl : l ∈ s.openLines ++ s.output.toList) (hpl : p ∈ l) :
    ∃ e, some e = except ∧ s.point? e = some p := by
  have hdeg : degree E p ≤ 1 := by
    have := hsep.degree_le p
    rw [degree_cons, if_pos hp] at this
    omega
  obtain ⟨hopen, hend⟩ := h.weave.isEnd_of_degree_le hdeg hl hpl
  obtain ⟨n, hn⟩ := exists_chain?_of_mem h.numbered hopen
  have hpoint : ∃ b, s.point? ⟨n, b⟩ = some p := by
    rcases hend with hhead | hlast
    · exact ⟨false, by simpa [point?, hn, endPoint?] using hhead⟩
    · exact ⟨true, by simpa [point?, hn, endPoint?] using hlast⟩
  obtain ⟨b, hb⟩ := hpoint
  exact ⟨_, hfree _ _ hb (Point.near_self htol p), hb⟩

/-- No line meets a point of a new segment that is near no end. -/
theorem not_mem_of_isFree (h : Stitched E s) (htol : 0 < s.tolerance) {g : Sym2 (Point K)}
    (hsep : Separated s.tolerance (g ::ₘ E)) (hp : p ∈ g) (hfree : s.IsFree p none) :
    ∀ l ∈ s.openLines ++ s.output.toList, p ∉ l := by
  intro l hl hpl
  obtain ⟨e, he, -⟩ := h.exists_end htol hsep hp hfree hl hpl
  cases he

/-- Adding a segment keeps the invariant, unless a chain is put out early. -/
theorem add (h : Stitched E s) (htol : 0 < s.tolerance)
    (hsep : Separated s.tolerance (s(p, q) ::ₘ E)) {s' : ChainStore K} (hadd : s.add p q = .ok s')
    (hflush : s'.flushes = s.flushes) : Stitched (s(p, q) ::ₘ E) s' := by
  have hpq : p ≠ q := hsep.ne p q (Multiset.mem_cons_self _ _)
  have hfar : p.near s.tolerance q = false := by
    have := hsep.apart s(p, q) (Multiset.mem_cons_self _ _) s(p, q) (Multiset.mem_cons_self _ _)
      p (Sym2.mem_mk_left p q) q (Sym2.mem_mk_right p q) hpq
    rw [← Bool.not_eq_true, Point.near_iff, not_and_or, not_le, not_le]
    exact this
  have hpmem : p ∈ s(p, q) := Sym2.mem_mk_left p q
  have hqmem : q ∈ s(p, q) := Sym2.mem_mk_right p q
  obtain ⟨hnear, -⟩ | ⟨-, hout⟩ := isFree_outcome_of_add h.indexed htol hadd
  · rw [hfar] at hnear
    cases hnear
  cases hout with
  | started hp hq =>
    rw [start_eq] at hflush ⊢
    rw [flush_of_flushes_eq]
    · exact h.opened hpq (h.not_mem_of_isFree htol hsep hpmem hp)
        (h.not_mem_of_isFree htol hsep hqmem hq)
    · rw [hflush, opened_frame]
  | @extended a b r e l hab ha hb =>
    have hamem : a ∈ s(p, q) := hab ▸ Sym2.mem_mk_left a b
    have hbmem : b ∈ s(p, q) := hab ▸ Sym2.mem_mk_right a b
    have hne : a ≠ b := hsep.ne a b (hab ▸ Multiset.mem_cons_self _ _)
    obtain rfl := h.eq_of_near hsep hamem ha.point? ha.near
    rw [← hab]
    refine h.extended ha.chain ha.point fun m hm hbm => hne ?_
    -- the only end near the new point is the one that is extended
    obtain ⟨f, hf, hpoint⟩ := h.exists_end htol hsep hbmem hb hm hbm
    rw [Option.some.inj hf, ha.point?] at hpoint
    exact Option.some.inj hpoint
  | closed hp hq =>
    obtain rfl := h.eq_of_near hsep hpmem hp.point? hp.near
    obtain rfl := h.eq_of_near hsep hqmem hq.point? hq.near
    exact h.closed hp.chain hp.point hq.point
  | joined hef hp hq =>
    obtain rfl := h.eq_of_near hsep hpmem hp.point? hp.near
    obtain rfl := h.eq_of_near hsep hqmem hq.point? hq.near
    exact h.joined hp.chain hq.chain hef hp.point hq.point

end Stitched

/-! ## Whole runs -/

variable [IsStrictOrderedRing K] {segments : List (Point K × Point K)}

omit [IsStrictOrderedRing K] in
/-- The tolerance and the limit on open chains stay, and flushes are never taken back. -/
theorem addAll_frame {s s' : ChainStore K} (h : s.addAll segments = .ok s') :
    s'.tolerance = s.tolerance ∧ s.flushes ≤ s'.flushes ∧
      ((s.chains.length + segments.length : Int) ≤ s.maxOpen → s'.flushes = s.flushes) := by
  induction segments generalizing s with
  | nil =>
    cases h
    exact ⟨rfl, le_rfl, fun _ => rfl⟩
  | cons g segments ih =>
    obtain ⟨t, hadd, hrest⟩ := Except.bind_eq_ok.mp h
    obtain ⟨n, c, i, o, k, rfl, hlen, hroom⟩ := add_frame hadd
    obtain ⟨htol, hle, hzero⟩ := ih hrest
    dsimp only at htol hle hzero
    refine ⟨htol, by omega, fun hfits => ?_⟩
    rw [List.length_cons] at hfits
    push_cast at hfits
    obtain rfl : k = 0 := hroom (by omega)
    exact hzero (by omega)

omit [IsStrictOrderedRing K] in
/-- With room for as many chains as there are segments no chain is put out early. -/
theorem flushes_of_length_le {tolerance : K} {maxOpen : Int} {s : ChainStore K}
    (h : (ChainStore.empty tolerance maxOpen).addAll segments = .ok s)
    (hroom : (segments.length : Int) ≤ maxOpen) : s.flushes = 0 :=
  (addAll_frame h).2.2 (by simpa [ChainStore.empty] using hroom)

/-- Adding segments keeps the invariant, unless chains are put out early. -/
theorem Stitched.addAll (h : Stitched E s) (htol : 0 < s.tolerance)
    (hsep : Separated s.tolerance (undirected segments + E)) {s' : ChainStore K}
    (hadd : s.addAll segments = .ok s') (hflush : s'.flushes = s.flushes) :
    Stitched (undirected segments + E) s' := by
  induction segments generalizing s E with
  | nil =>
    cases hadd
    rwa [undirected_nil, zero_add]
  | cons g segments ih =>
    have hE : undirected (g :: segments) + E = undirected segments + (s(g.1, g.2) ::ₘ E) := by
      rw [undirected_cons, Multiset.cons_add, Multiset.add_cons]
    rw [hE] at hsep ⊢
    obtain ⟨t, ht, hrest⟩ := Except.bind_eq_ok.mp hadd
    obtain ⟨_, _, _, _, k, rfl, -, -⟩ := add_frame ht
    have hle := (addAll_frame hrest).2.1
    dsimp only at hle
    obtain rfl : k = 0 := by omega
    have hstep := h.add htol (hsep.of_le (Multiset.le_add_left _ _)) ht rfl
    exact ih hstep htol hsep hrest hflush

/-- The chains that are put out run through the segments, if none is put out early. -/
theorem traversal_of_addAll {tolerance : K} (htol : 0 < tolerance) {maxOpen : Int}
    (hsep : Separated tolerance (undirected segments)) {s : ChainStore K}
    (hadd : (ChainStore.empty tolerance maxOpen).addAll segments = .ok s) (hflush : s.flushes = 0) :
    Traversal (undirected segments) s.finish.output.toList := by
  rw [← add_zero (undirected segments)] at hsep ⊢
  have h := (stitched_empty tolerance maxOpen).addAll htol hsep hadd hflush
  refine h.weave.traversal ?_
  rw [finish_output h.numbered fun l hl => (h.weave.paths l hl).two_le]
  exact List.perm_append_comm

/-- Stitching finds the components of the segments.  If no chain is put out early, the chains that
come out are one for each component, and they run through its segments.  Hence they are the same for
every order and every direction of the segments, up to their own order, their direction and the
starting points of loops. -/
theorem finish_traverses {tolerance : K} (htol : 0 < tolerance) (maxOpen : Int)
    (hsep : Separated tolerance (undirected segments)) :
    ∃ s, (ChainStore.empty tolerance maxOpen).addAll segments = .ok s ∧
      (s.flushes = 0 →
        Traversal (undirected segments) s.finish.output.toList ∧
        ∀ segments', undirected segments' = undirected segments → ∀ maxOpen', ∃ s',
          (ChainStore.empty tolerance maxOpen').addAll segments' = .ok s' ∧
          (s'.flushes = 0 → SameLines s.finish.output.toList s'.finish.output.toList)) := by
  obtain ⟨s, hs⟩ := exists_addAll (ChainStore.empty tolerance maxOpen) segments
  refine ⟨s, hs, fun hflush => ?_⟩
  have htrav := traversal_of_addAll htol hsep hs hflush
  refine ⟨htrav, fun segments' hsame maxOpen' => ?_⟩
  obtain ⟨s', hs'⟩ := exists_addAll (ChainStore.empty tolerance maxOpen') segments'
  refine ⟨s', hs', fun hflush' => ?_⟩
  have htrav' := traversal_of_addAll htol (by rwa [hsame]) hs' hflush'
  rw [hsame] at htrav'
  exact htrav.sameLines htrav'

/-- Two segments towards the same point are far enough apart, and there is room for two chains. -/
theorem finish_traverses_two_segments :
    ∃ s, (ChainStore.empty (1 / 10 : ℚ) 2).addAll [(⟨0, 0⟩, ⟨1, 0⟩), (⟨1, 1⟩, ⟨1, 0⟩)] = .ok s ∧
      Traversal {s(⟨0, 0⟩, ⟨1, 0⟩), s(⟨1, 1⟩, ⟨1, 0⟩)} s.finish.output.toList := by
  have hsep : Separated (1 / 10 : ℚ) (undirected [(⟨0, 0⟩, ⟨1, 0⟩), (⟨1, 1⟩, ⟨1, 0⟩)]) := by
    refine ⟨?_, ?_, fun p => Multiset.countP_le_card ..⟩
    · intro p q h
      rintro rfl
      simp only [undirected, List.map_cons, List.map_nil, Multiset.mem_coe, List.mem_cons,
        List.not_mem_nil, or_false, Sym2.eq_iff] at h
      rcases h with (⟨rfl, h⟩ | ⟨rfl, h⟩) | ⟨rfl, h⟩ | ⟨rfl, h⟩ <;> norm_num at h
    · simp only [undirected, List.map_cons, List.map_nil, Multiset.mem_coe, List.mem_cons,
        List.not_mem_nil, or_false]
      rintro e (rfl | rfl) f (rfl | rfl) p hp q hq hpq <;>
        rw [Sym2.mem_iff] at hp hq <;>
        rcases hp with rfl | rfl <;> rcases hq with rfl | rfl <;> first | exact absurd rfl hpq | norm_num
  obtain ⟨s, hs, h⟩ := finish_traverses (by norm_num) 2 hsep
  exact ⟨s, hs, (h (flushes_of_length_le hs le_rfl)).1⟩

end ChainStore
end Graphing.Contour
