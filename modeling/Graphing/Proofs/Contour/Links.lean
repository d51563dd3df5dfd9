/-
  Graphing.Proofs.Contour.Links

  No segment is lost, doubled or made up by stitching.

  The links of a store are the pairs of points in a row on its chains, the
  open ones and those put out.  Adding a segment between points that are far
  from each other adds one link, from the end that was found near a point of
  the segment, or from that point itself; nothing else that happens to a chain
  changes its links.  So the links can be matched with the segments one to
  one, and this needs no law of the arithmetic and no separation of the
  points.
-/
import Graphing.Proofs.Contour.Adding
import Graphing.Proofs.Contour.Weaving
import Mathlib.Algebra.Order.Ring.Rat
import Mathlib.Data.Rat.Floor
import Mathlib.Tactic.NormNum

namespace Graphing.Contour

/-! ## Links of polylines -/

section Edges

variable {α : Type} {l m : List (Point α)} {p q x : Point α} {b c : Bool}

theorem undirected_concat {P : Type} (segments : List (P × P)) (g : P × P) :
    undirected (segments ++ [g]) = s(g.1, g.2) ::ₘ undirected segments := by
  induction segments with
  | nil => rfl
  | cons h segments ih =>
    rw [List.cons_append, undirected_cons, ih, undirected_cons, Multiset.cons_swap]

theorem edges_append_of_ends (hp : l.getLast? = some p) (hq : m.head? = some q) :
    edges (l ++ m) = s(p, q) ::ₘ (edges l + edges m) := by
  obtain ⟨l, rfl⟩ := List.getLast?_eq_some_iff.mp hp
  obtain ⟨m, rfl⟩ := List.head?_eq_some_iff.mp hq
  exact edges_append l p q m

/-- A polyline that is extended at one of its ends. -/
theorem edges_grow (hp : endPoint? l b = some p) (x : Point α) :
    edges (ChainStore.grow l b x) = s(p, x) ::ₘ edges l := by
  cases b with
  | true =>
    rw [ChainStore.grow, if_pos rfl, edges_append_of_ends hp rfl, edges_singleton, add_zero]
  | false =>
    obtain ⟨l, rfl⟩ := List.head?_eq_some_iff.mp hp
    rw [ChainStore.grow, if_neg Bool.false_ne_true, edges_cons_cons, Sym2.eq_swap]

/-- Two polylines that are joined at one end of each. -/
theorem edges_joined (hp : endPoint? l b = some p) (hq : endPoint? m c = some q) :
    edges (ChainStore.joined l m b c) = s(p, q) ::ₘ (edges l + edges m) := by
  have hlast : (if b then l else l.reverse).getLast? = some p := by
    cases b <;> simpa [endPoint?] using hp
  have hhead : (if c then m.reverse else m).head? = some q := by
    cases c <;> simpa [endPoint?] using hq
  rw [ChainStore.joined, edges_append_of_ends hlast hhead]
  cases b <;> cases c <;> simp

/-- A polyline that is closed to a loop. -/
theorem edges_closed (hp : endPoint? l b = some p) (hq : endPoint? l (!b) = some q) :
    edges (l ++ l.head?.toList) = s(p, q) ::ₘ edges l := by
  cases b with
  | true =>
    have hhead : l.head? = some q := hq
    rw [hhead, edges_append_of_ends hp rfl, Option.toList_some, edges_singleton, add_zero]
  | false =>
    have hhead : l.head? = some p := hp
    rw [hhead, edges_append_of_ends hq rfl, Option.toList_some, edges_singleton, add_zero,
      Sym2.eq_swap]

/-- A polyline has one point more than links. -/
theorem card_edges (h : l ≠ []) : (edges l).card + 1 = l.length := by
  induction l with
  | nil => exact absurd rfl h
  | cons p l ih =>
    cases l with
    | nil => rfl
    | cons q l =>
      rw [edges_cons_cons, Multiset.card_cons, ih (by simp)]
      rfl

theorem card_allEdges {lines : List (List (Point α))} (h : ∀ l ∈ lines, l ≠ []) :
    (allEdges lines).card + lines.length = (lines.map List.length).sum := by
  induction lines with
  | nil => rfl
  | cons l lines ih =>
    have hl := card_edges (h l (by simp))
    have hrest := ih fun m hm => h m (by simp [hm])
    rw [allEdges_cons, Multiset.card_add, List.length_cons, List.map_cons, List.sum_cons]
    omega

end Edges

/-! ## Links that stand for segments -/

variable {α : Type} [Coordinate α]

/-- The two points are the same, or near each other. A point that is no number is not near itself. -/
def Point.Alike (tolerance : α) (p q : Point α) : Prop := p = q ∨ p.near tolerance q = true

/-- In exact arithmetic, points are alike if they are within the tolerance of each other. -/
theorem Point.alike_iff {K : Type} [Field K] [LinearOrder K] [FloorRing K] [IsStrictOrderedRing K]
    {tolerance : K} (htol : 0 < tolerance) {p q : Point K} :
    p.Alike tolerance q ↔ |p.x - q.x| ≤ tolerance ∧ |p.y - q.y| ≤ tolerance := by
  rw [← Point.near_iff]
  refine or_iff_right_of_imp ?_
  rintro rfl
  exact Point.near_self htol p

/-- A link and a segment are the same, up to direction, if the points that are alike are taken for
one. -/
def LinkAlike (tolerance : α) (e f : Sym2 (Point α)) : Prop :=
  ∃ a b p q, e = s(a, b) ∧ f = s(p, q) ∧ p.Alike tolerance a ∧ q.Alike tolerance b

/-- The segments that are not left out: those whose points are not near each other. -/
def farApart (tolerance : α) (segments : List (Point α × Point α)) : List (Point α × Point α) :=
  segments.filter fun g => !g.1.near tolerance g.2

theorem farApart_of_near {tolerance : α} {p q : Point α} (h : p.near tolerance q = true)
    (segments : List (Point α × Point α)) :
    farApart tolerance (segments ++ [(p, q)]) = farApart tolerance segments := by
  simp [farApart, h]

theorem farApart_of_far {tolerance : α} {p q : Point α} (h : p.near tolerance q = false)
    (segments : List (Point α × Point α)) :
    farApart tolerance (segments ++ [(p, q)]) = farApart tolerance segments ++ [(p, q)] := by
  simp [farApart, h]

namespace ChainStore

/-! ## Links of a store -/

section Links

variable {s : ChainStore α}

/-- The links of all chains, the open ones and those put out. -/
def links (s : ChainStore α) : Multiset (Sym2 (Point α)) :=
  allEdges (s.openLines ++ s.output.toList)

omit [Coordinate α] in
theorem links_eq (h : s.Numbered) {n : Nat} {l : List (Point α)} (hl : s.chain? n = some l) :
    s.links = edges l + (s.dropChain n).links :=
  allEdges_perm ((openLines_perm h hl).append_right s.output.toList)

theorem links_putOut (n : Nat) (l : List (Point α)) :
    (s.putOut n l).links = edges l + (s.dropChain n).links := by
  refine (allEdges_perm ?_).trans (allEdges_cons l _)
  have hlines : (s.putOut n l).openLines = (s.dropChain n).openLines := rfl
  rw [hlines, putOut_output, Array.toList_push, ← List.append_assoc]
  exact List.perm_append_singleton l _

/-- A chain that is put out as it is keeps its links. -/
theorem links_putOut_self (h : s.Numbered) {n : Nat} {l : List (Point α)}
    (hl : s.chain? n = some l) : (s.putOut n l).links = s.links := by
  rw [links_putOut, links_eq h hl]

theorem links_opened (p q : Point α) : (s.opened p q).links = s(p, q) ::ₘ s.links := by
  have hperm : ((s.openLines ++ [[p, q]]) ++ s.output.toList).Perm
      ([p, q] :: (s.openLines ++ s.output.toList)) := by
    rw [List.append_assoc, List.singleton_append]
    exact List.perm_middle
  rw [links, openLines_opened, opened_output, allEdges_perm hperm, allEdges_cons, edges_cons_cons,
    edges_singleton, Multiset.cons_add, zero_add, links]

theorem links_extend (h : s.Numbered) {e : ChainEnd} {l : List (Point α)} {r : Point α}
    (hl : s.chain? e.chain = some l) (hr : endPoint? l e.isLast = some r) (x : Point α) :
    (s.extend e x).links = s(r, x) ::ₘ s.links := by
  calc (s.extend e x).links
      = edges (grow l e.isLast x) + (s.dropChain e.chain).links := by
        rw [links, extend_output hl]
        exact allEdges_perm ((openLines_extend h hl x).append_right s.output.toList)
    _ = s(r, x) ::ₘ s.links := by rw [edges_grow hr, Multiset.cons_add, links_eq h hl]

theorem links_join (h : s.Numbered) {e f : ChainEnd} {l m : List (Point α)} {r u : Point α}
    (hl : s.chain? e.chain = some l) (hm : s.chain? f.chain = some m) (hef : e.chain ≠ f.chain)
    (hr : endPoint? l e.isLast = some r) (hu : endPoint? m f.isLast = some u) :
    (s.join e f).links = s(r, u) ::ₘ s.links := by
  have hold : s.links =
      edges l + (edges m + ((s.dropChain e.chain).dropChain f.chain).links) :=
    allEdges_perm ((openLines_perm_pair h hl hm hef).append_right s.output.toList)
  calc (s.join e f).links
      = edges (joined l m e.isLast f.isLast) + ((s.dropChain e.chain).dropChain f.chain).links := by
        rw [links, join_output hl hm]
        exact allEdges_perm ((openLines_join h hl hm hef).append_right s.output.toList)
    _ = s(r, u) ::ₘ s.links := by
        rw [edges_joined hr hu, Multiset.cons_add, add_assoc, hold]

/-- A flush puts a chain out as it is. -/
theorem links_flush (h : s.Proper) : s.flush.links = s.links := by
  obtain ⟨heq, -⟩ | ⟨n, l, hl, heq⟩ := h.flush_cases
  · rw [heq]
  · rw [heq]
    exact links_putOut_self h.counted.numbered hl

/-! ### One segment, one link -/

theorem Meets.alike {p r : Point α} {e : ChainEnd} {l : List (Point α)} (h : s.Meets p e l r) :
    p.Alike s.tolerance r :=
  .inr h.near

/-- A segment that is added is one link more, and the link is like the segment. -/
theorem Outcome.links_eq {free : Point α → Option ChainEnd → Prop} {u : ChainStore α}
    {p q : Point α} (hout : Outcome free s p q u) (h : s.Proper) :
    ∃ e, LinkAlike s.tolerance e s(p, q) ∧ u.links = e ::ₘ s.links := by
  cases hout with
  | started _ _ =>
    refine ⟨s(p, q), ⟨p, q, p, q, rfl, rfl, .inl rfl, .inl rfl⟩, ?_⟩
    rw [start_eq, links_flush (h.opened p q), links_opened]
  | @extended a b r e l hab ha _ =>
    refine ⟨s(r, b), ⟨r, b, a, b, rfl, hab.symm, ha.alike, .inl rfl⟩, ?_⟩
    exact links_extend h.numbered ha.chain ha.point b
  | @closed r t e l hp hq =>
    refine ⟨s(r, t), ⟨r, t, p, q, rfl, rfl, hp.alike, hq.alike⟩, ?_⟩
    rw [close_eq hp.chain (h.two_le_of_chain? hp.chain), links_putOut, edges_closed hp.point hq.point,
      Multiset.cons_add, ChainStore.links_eq h.numbered hp.chain]
  | @joined r t e f l m hef hp hq =>
    refine ⟨s(r, t), ⟨r, t, p, q, rfl, rfl, hp.alike, hq.alike⟩, ?_⟩
    exact links_join h.numbered hp.chain hq.chain hef hp.point hq.point

end Links

/-! ## Runs -/

variable {tolerance : α} {maxOpen : Int} {segments : List (Point α × Point α)} {s : ChainStore α}

/-- The links of a store are the segments that were added, up to points that are alike. -/
theorem Picked.links_rel (h : Picked tolerance maxOpen segments s) :
    Multiset.Rel (LinkAlike tolerance) s.links (undirected (farApart tolerance segments)) := by
  induction h with
  | empty => exact .zero
  | reordered run order ih =>
    rw [order.frame]
    exact ih
  | leftOut run hpq ih =>
    rw [run.limits.1] at hpq
    rwa [farApart_of_near hpq]
  | added run hpq outcome ih =>
    obtain ⟨e, he, hlinks⟩ := outcome.links_eq run.proper
    rw [run.limits.1] at hpq he
    rw [hlinks, farApart_of_far hpq, undirected_concat]
    exact .cons he ih

theorem links_finish (h : s.Proper) : allEdges s.finish.output.toList = s.links := by
  rw [finish_output h.numbered h.two_le]
  exact allEdges_perm List.perm_append_comm

theorem card_links (h : Picked tolerance maxOpen segments s) :
    (allEdges s.finish.output.toList).card = (farApart tolerance segments).length := by
  rw [links_finish h.proper, Multiset.card_eq_card_of_rel h.links_rel, undirected,
    Multiset.coe_card, List.length_map]

/-- No segment is lost, doubled or made up. Whichever of the ends near a point is picked, the links of
the chains that come out can be matched one to one with the segments that are not left out, and links
and segments that are matched are the same up to direction and to points that are alike. So the points
that come out are as many as these segments and the chains together, and the links are as many for
every limit on the open chains. What the search picks is one of the ends near a point, so that all
this holds of the runs of `add`. -/
theorem picked_links (h : Picked tolerance maxOpen segments s) :
    Multiset.Rel (LinkAlike tolerance) (allEdges s.finish.output.toList)
      (undirected (farApart tolerance segments)) ∧
    (s.finish.output.toList.map List.length).sum =
      (farApart tolerance segments).length + s.finish.output.size ∧
    (∀ maxOpen' s', Picked tolerance maxOpen' segments s' →
      (allEdges s'.finish.output.toList).card = (allEdges s.finish.output.toList).card) ∧
    ∀ p q u, s.add p q = .ok u → Picked tolerance maxOpen (segments ++ [(p, q)]) u := by
  refine ⟨?_, ?_, fun maxOpen' s' h' => ?_, fun p q u hadd => h.add hadd⟩
  · rw [links_finish h.proper]
    exact h.links_rel
  · have hne : ∀ l ∈ s.finish.output.toList, l ≠ [] := by
      rintro l hl rfl
      rw [finish_output h.proper.numbered h.proper.two_le, List.mem_append] at hl
      rcases hl with hl | hl
      · exact absurd (h.proper.output [] (Array.mem_toList_iff.mp hl)) (by simp)
      · exact absurd (h.proper.two_le [] hl) (by simp)
    rw [← card_allEdges hne, card_links h]
    simp only [Array.length_toList]
  · rw [card_links h', card_links h]

/-- There is room for one chain only, so that the first one is put out before it could be joined. -/
theorem picked_links_cut :
    ∃ s : ChainStore ℚ,
      Picked (1 / 10) 1 [(⟨0, 0⟩, ⟨1, 0⟩), (⟨5, 0⟩, ⟨6, 0⟩), (⟨1, 0⟩, ⟨5, 0⟩)] s ∧
      (s.finish.output.toList.map List.length).sum = 3 + s.finish.output.size := by
  obtain ⟨s, hs⟩ := exists_addAll (ChainStore.empty (1 / 10 : ℚ) 1)
    [(⟨0, 0⟩, ⟨1, 0⟩), (⟨5, 0⟩, ⟨6, 0⟩), (⟨1, 0⟩, ⟨5, 0⟩)]
  have hrun := (grown_of_addAll .empty hs).picked
  obtain ⟨-, hsum, -⟩ := picked_links hrun
  refine ⟨s, hrun, hsum.trans ?_⟩
  norm_num [farApart, Point.near, near, Coordinate.lessEq]

end ChainStore
end Graphing.Contour
