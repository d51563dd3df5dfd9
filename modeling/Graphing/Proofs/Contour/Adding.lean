/-
  Graphing.Proofs.Contour.Adding

  What adding a segment to a store of chains can do.

  The ends in a square are looked through in an order that nothing fixes.  So
  a run is not told by its segments alone: before each segment, the ends in
  every square may be put in any order (`Reordered`).  A store is `Grown` if
  it comes of some run.

  Whatever is found, a segment whose points are far from each other starts a
  chain, extends one, closes one or joins two.  `Outcome` has one constructor
  for each, with all that is known then: which ends the points are near, and
  which points met no end.  Every invariant of a run is a case analysis of it.
  It says nothing of the search, so that a store is `Picked` if it comes of a
  run in which any end may be found that is near a point.

  All this holds in any arithmetic.  In exact arithmetic a segment can always
  be added, and a point that met no end is near none.
-/
import Graphing.Proofs.Contour.EndIndex
import Mathlib.Data.Sym.Sym2

namespace Graphing.Contour

namespace ChainStore

/-! ## Orders of the ends -/

variable {α : Type}

/-- The same store, with the ends in each square in another order. -/
structure Reordered (s t : ChainStore α) : Prop where
  frame : t = { s with index := t.index }
  perm : ∀ k, (s.endsIn k).Perm (t.endsIn k)
  squares : ∀ k, k ∈ s.index ↔ k ∈ t.index

theorem Reordered.refl (s : ChainStore α) : Reordered s s := ⟨rfl, fun _ => .refl _, fun _ => .rfl⟩

/-- The stores that come of adding segments to an empty one, whatever the order of the ends in each
square is when a segment is added. -/
inductive Grown [Coordinate α] (tolerance : α) (maxOpen : Int) :
    List (Point α × Point α) → ChainStore α → Prop
  | empty : Grown tolerance maxOpen [] (ChainStore.empty tolerance maxOpen)
  | add {segments : List (Point α × Point α)} {s t u : ChainStore α} {p q : Point α}
    (run : Grown tolerance maxOpen segments s) (order : Reordered s t) (step : t.add p q = .ok u) :
    Grown tolerance maxOpen (segments ++ [(p, q)]) u

/-- Segments that are added one after another, in the order that the squares have of themselves. -/
theorem grown_of_addAll [Coordinate α] {tolerance : α} {maxOpen : Int}
    {segments segments' : List (Point α × Point α)} {s s' : ChainStore α}
    (h : Grown tolerance maxOpen segments s) (hadd : s.addAll segments' = .ok s') :
    Grown tolerance maxOpen (segments ++ segments') s' := by
  induction segments' generalizing segments s with
  | nil =>
    cases hadd
    rwa [List.append_nil]
  | cons g segments' ih =>
    obtain ⟨t, hstep, hrest⟩ := Except.bind_eq_ok.mp hadd
    have hrun := ih (.add h (.refl s) hstep) hrest
    rwa [List.append_assoc, List.singleton_append] at hrun

/-! ## Points that meet ends -/

section Meeting

variable [Coordinate α]

/-- An end of an open chain is near a point: the chain, and the point at its end. -/
structure Meets (s : ChainStore α) (p : Point α) (e : ChainEnd) (l : List (Point α)) (r : Point α) :
    Prop where
  chain : s.chain? e.chain = some l
  point : endPoint? l e.isLast = some r
  near : p.near s.tolerance r = true

/-- The search around a point finds no end but the excepted one. -/
def Unmet (s : ChainStore α) (p : Point α) (except : Option ChainEnd) : Prop :=
  ∃ k, s.square? p = .ok k ∧ s.find? p k except = none

theorem Meets.point? {s : ChainStore α} {p r : Point α} {e : ChainEnd} {l : List (Point α)}
    (h : s.Meets p e l r) : s.point? e = some r := by
  rw [ChainStore.point?, h.chain]
  exact h.point

theorem exists_meets {s : ChainStore α} {p : Point α} {k : Square} {excluded : Option ChainEnd}
    {e : ChainEnd} (h : s.find? p k excluded = some e) :
    some e ≠ excluded ∧ ∃ l r, s.Meets p e l r := by
  obtain ⟨_, -, hfound⟩ := List.exists_of_findSome?_eq_some h
  have htest := List.find?_some hfound
  rw [Bool.and_eq_true, isNear, Option.any_eq_true] at htest
  obtain ⟨hne, r, hr, hnear⟩ := htest
  obtain ⟨l, hl, hend⟩ := Option.bind_eq_some_iff.mp hr
  exact ⟨by simpa using hne, l, r, hl, hend, hnear⟩

theorem Unmet.except {s : ChainStore α} {p : Point α} (h : s.Unmet p none) (e : ChainEnd) :
    s.Unmet p (some e) := by
  obtain ⟨k, hk, hnone⟩ := h
  refine ⟨k, hk, ?_⟩
  unfold find? at hnone ⊢
  rw [List.findSome?_eq_none_iff] at hnone ⊢
  intro k' hk'
  have hfree := hnone k' hk'
  rw [List.find?_eq_none] at hfree ⊢
  intro f hf htest
  rw [Bool.and_eq_true] at htest
  exact hfree f hf (Bool.and_eq_true _ _ ▸ ⟨rfl, htest.2⟩)

/-! ## The outcome of adding a segment -/

/-- What adding a segment between points that are far from each other does to a store. The points
that met no end, but for the excepted one, are free of them in the given sense. -/
inductive Outcome (free : Point α → Option ChainEnd → Prop) (s : ChainStore α) (p q : Point α) :
    ChainStore α → Prop
  | started (hp : free p none) (hq : free q none) : Outcome free s p q (s.start p q)
  | extended {a b r : Point α} {e : ChainEnd} {l : List (Point α)} (hab : s(a, b) = s(p, q))
    (ha : s.Meets a e l r) (hb : free b (some e)) : Outcome free s p q (s.extend e b)
  | closed {r u : Point α} {e : ChainEnd} {l : List (Point α)} (hp : s.Meets p e l r)
    (hq : s.Meets q ⟨e.chain, !e.isLast⟩ l u) : Outcome free s p q (s.close e.chain)
  | joined {r u : Point α} {e f : ChainEnd} {l m : List (Point α)} (hef : e.chain ≠ f.chain)
    (hp : s.Meets p e l r) (hq : s.Meets q f m u) : Outcome free s p q (s.join e f)

theorem Outcome.mono {free free' : Point α → Option ChainEnd → Prop} {s u : ChainStore α}
    {p q : Point α} (h : Outcome free s p q u) (hfree : ∀ x except, free x except → free' x except) :
    Outcome free' s p q u := by
  cases h with
  | started hp hq => exact .started (hfree _ _ hp) (hfree _ _ hq)
  | extended hab ha hb => exact .extended hab ha (hfree _ _ hb)
  | closed hp hq => exact .closed hp hq
  | joined hef hp hq => exact .joined hef hp hq

/-- Adding a segment leaves a store as it is if its points are near each other, and has an outcome
otherwise. -/
theorem outcome_of_add {s u : ChainStore α} {p q : Point α} (hadd : s.add p q = .ok u) :
    p.near s.tolerance q = true ∧ u = s ∨
      p.near s.tolerance q = false ∧ Outcome s.Unmet s p q u := by
  cases hpq : p.near s.tolerance q with
  | true =>
    rw [add_of_near hpq] at hadd
    exact .inl ⟨rfl, (Except.ok.inj hadd).symm⟩
  | false =>
    refine .inr ⟨rfl, ?_⟩
    rw [add, hpq, if_neg Bool.false_ne_true] at hadd
    obtain ⟨kp, hkp, hadd⟩ := Except.bind_eq_ok.mp hadd
    obtain ⟨kq, hkq, hadd⟩ := Except.bind_eq_ok.mp hadd
    obtain rfl := Except.ok.inj hadd
    -- what the search found at each of the two points
    cases hfp : s.find? p kp none with
    | none =>
      have hp : s.Unmet p none := ⟨kp, hkp, hfp⟩
      cases hfq : s.find? q kq none with
      | none => exact .started hp ⟨kq, hkq, hfq⟩
      | some f =>
        obtain ⟨-, l, r, hq⟩ := exists_meets hfq
        exact .extended Sym2.eq_swap hq (hp.except f)
    | some e =>
      obtain ⟨-, l, r, hp⟩ := exists_meets hfp
      cases hfq : s.find? q kq (some e) with
      | none => exact .extended rfl hp ⟨kq, hkq, hfq⟩
      | some f =>
        obtain ⟨hne, m, u, hq⟩ := exists_meets hfq
        show Outcome _ s p q (if e.chain = f.chain then s.close e.chain else s.join e f)
        by_cases hef : e.chain = f.chain
        · rw [if_pos hef]
          -- the search never finds the same end twice
          have hother : f = ⟨e.chain, !e.isLast⟩ := by
            obtain ⟨n, b⟩ := e
            obtain ⟨n', c⟩ := f
            obtain rfl : n = n' := hef
            cases b <;> cases c <;> first | rfl | exact absurd rfl hne
          obtain rfl : l = m := by
            have hsame := hq.chain
            rw [← hef, hp.chain] at hsame
            exact Option.some.inj hsame
          rw [hother] at hq
          exact .closed hp hq
        · rw [if_neg hef]
          exact .joined hef hp hq

theorem Outcome.limits {free : Point α → Option ChainEnd → Prop} {s u : ChainStore α}
    {p q : Point α} (h : Outcome free s p q u) :
    u.tolerance = s.tolerance ∧ u.maxOpen = s.maxOpen := by
  cases h with
  | started _ _ =>
    obtain ⟨_, _, _, _, heq, -⟩ := flush_frame (s.opened p q)
    rw [start_eq, heq, opened_frame]
    exact ⟨rfl, rfl⟩
  | extended _ ha _ =>
    rw [extend_frame ha.chain]
    exact ⟨rfl, rfl⟩
  | @closed _ _ e _ _ _ =>
    obtain ⟨_, _, _, heq, -⟩ := close_frame s e.chain
    rw [heq]
    exact ⟨rfl, rfl⟩
  | joined _ hp hq =>
    rw [join_frame hp.chain hq.chain]
    exact ⟨rfl, rfl⟩

/-! ### Any end may be picked -/

/-- The stores that come of adding segments to an empty one, whichever of the ends near a point is
picked, and even if none is. -/
inductive Picked (tolerance : α) (maxOpen : Int) : List (Point α × Point α) → ChainStore α → Prop
  | empty : Picked tolerance maxOpen [] (ChainStore.empty tolerance maxOpen)
  | reordered {segments : List (Point α × Point α)} {s t : ChainStore α}
    (run : Picked tolerance maxOpen segments s) (order : Reordered s t) :
    Picked tolerance maxOpen segments t
  | leftOut {segments : List (Point α × Point α)} {s : ChainStore α} {p q : Point α}
    (run : Picked tolerance maxOpen segments s) (hpq : p.near s.tolerance q = true) :
    Picked tolerance maxOpen (segments ++ [(p, q)]) s
  | added {segments : List (Point α × Point α)} {s u : ChainStore α} {p q : Point α}
    (run : Picked tolerance maxOpen segments s) (hpq : p.near s.tolerance q = false)
    (outcome : Outcome (fun _ _ => True) s p q u) :
    Picked tolerance maxOpen (segments ++ [(p, q)]) u

variable {tolerance : α} {maxOpen : Int} {segments : List (Point α × Point α)} {s : ChainStore α}

/-- What the search finds could be picked. -/
theorem Picked.add (h : Picked tolerance maxOpen segments s) {p q : Point α} {u : ChainStore α}
    (hadd : s.add p q = .ok u) : Picked tolerance maxOpen (segments ++ [(p, q)]) u := by
  obtain ⟨hpq, rfl⟩ | ⟨hpq, hout⟩ := outcome_of_add hadd
  · exact h.leftOut hpq
  · exact h.added hpq (hout.mono fun _ _ _ => trivial)

theorem Grown.picked (h : Grown tolerance maxOpen segments s) :
    Picked tolerance maxOpen segments s := by
  induction h with
  | empty => exact .empty
  | add _ order step ih => exact (ih.reordered order).add step

theorem Picked.limits (h : Picked tolerance maxOpen segments s) :
    s.tolerance = tolerance ∧ s.maxOpen = maxOpen := by
  induction h with
  | empty => exact ⟨rfl, rfl⟩
  | reordered _ order ih =>
    rw [order.frame]
    exact ih
  | leftOut _ _ ih => exact ih
  | added _ _ outcome ih =>
    rw [outcome.limits.1, outcome.limits.2]
    exact ih

end Meeting

/-! ## Chains of two points or more -/

/-- The chains of a store have numbers of their own, and all its chains have two points or more, the
open ones and those put out. -/
structure Proper (s : ChainStore α) : Prop where
  numbered : s.Numbered
  two_le : ∀ l ∈ s.openLines, 2 ≤ l.length
  output : ∀ l ∈ s.output, 2 ≤ l.length

namespace Proper

theorem two_le_of_chain? {s : ChainStore α} (h : s.Proper) {n : Nat} {l : List (Point α)}
    (hl : s.chain? n = some l) : 2 ≤ l.length :=
  h.two_le l (List.mem_map.mpr ⟨_, mem_chains_of_chain? hl, rfl⟩)

theorem ne_nil {s : ChainStore α} (h : s.Proper) {n : Nat} {l : List (Point α)}
    (hl : s.chain? n = some l) : l ≠ [] := by
  rintro rfl
  exact absurd (h.two_le_of_chain? hl) (by simp)

theorem reordered {s t : ChainStore α} (h : s.Proper) (hst : Reordered s t) : t.Proper := by
  rw [hst.frame]
  exact ⟨⟨h.numbered.nodup, h.numbered.lt_next⟩, h.two_le, h.output⟩

theorem empty (tolerance : α) (maxOpen : Int) : (ChainStore.empty tolerance maxOpen).Proper where
  numbered := numbered_empty tolerance maxOpen
  two_le l hl := by simp [openLines, ChainStore.empty] at hl
  output l hl := by simp [ChainStore.empty] at hl

theorem counted {s : ChainStore α} (h : s.Proper) : { s with flushes := s.flushes + 1 }.Proper :=
  ⟨⟨h.numbered.nodup, h.numbered.lt_next⟩, h.two_le, h.output⟩

variable [Coordinate α] {s u : ChainStore α} {p q : Point α}

/-- A chain that is taken out leaves the others. -/
theorem putOut (h : s.Proper) (n : Nat) {l : List (Point α)} (hl : 2 ≤ l.length) :
    (s.putOut n l).Proper where
  numbered := h.numbered.putOut n l
  two_le m hm := h.two_le m (mem_openLines_dropChain hm)
  output m hm := by
    rw [putOut_output, Array.mem_push] at hm
    rcases hm with hm | rfl
    · exact h.output m hm
    · exact hl

theorem opened (h : s.Proper) (p q : Point α) : (s.opened p q).Proper where
  numbered := h.numbered.opened p q
  two_le l hl := by
    rw [openLines, opened_frame, List.map_append, List.mem_append] at hl
    rcases hl with hl | hl
    · exact h.two_le l hl
    · obtain rfl : l = [p, q] := by simpa using hl
      exact le_rfl
  output := by
    rw [opened_frame]
    exact h.output

theorem extend (h : s.Proper) {e : ChainEnd} {l : List (Point α)} (hl : s.chain? e.chain = some l)
    (p : Point α) : (s.extend e p).Proper where
  numbered := h.numbered.extend hl p
  two_le m hm := by
    rw [extend_frame hl] at hm
    rcases mem_openLines_setChain hm with rfl | hm
    · have hlong := h.two_le_of_chain? hl
      unfold grow
      split
      · rw [List.length_append]
        omega
      · rw [List.length_cons]
        omega
    · exact h.two_le m hm
  output := by
    rw [extend_frame hl]
    exact h.output

theorem join (h : s.Proper) {e f : ChainEnd} {l m : List (Point α)}
    (hl : s.chain? e.chain = some l) (hm : s.chain? f.chain = some m) : (s.join e f).Proper where
  numbered := h.numbered.join hl hm
  two_le k hk := by
    rw [join_frame hl hm] at hk
    rcases mem_openLines_setChain (mem_openLines_dropChain hk) with rfl | hk
    · have hlong := h.two_le_of_chain? hl
      unfold joined
      split <;> simp only [List.length_append, List.length_reverse] <;> omega
    · exact h.two_le k hk
  output := by
    rw [join_frame hl hm]
    exact h.output

/-- The oldest chain is put out if there are more than the limit, and then as it is. -/
theorem flush_cases (h : s.Proper) :
    s.flush = s ∧ (0 ≤ s.maxOpen → (s.chains.length : Int) ≤ s.maxOpen) ∨
    ∃ n l, s.chain? n = some l ∧ s.flush = { s with flushes := s.flushes + 1 }.putOut n l := by
  unfold flush
  split
  · split
    · rename_i n l rest hchains
      have hl : s.chain? n = some l :=
        (chain?_eq_some_iff h.numbered).mpr (hchains ▸ List.mem_cons_self)
      exact .inr ⟨n, l, hl, retire_eq hl (h.two_le_of_chain? hl)⟩
    · rename_i hchains
      exact .inl ⟨rfl, fun hmax => by simpa [hchains] using hmax⟩
  · exact .inl ⟨rfl, fun _ => by omega⟩

theorem flush (h : s.Proper) : s.flush.Proper := by
  obtain ⟨heq, -⟩ | ⟨n, l, hl, heq⟩ := h.flush_cases
  · rwa [heq]
  · rw [heq]
    exact h.counted.putOut n (h.two_le_of_chain? hl)

theorem outcome (h : s.Proper) {free : Point α → Option ChainEnd → Prop}
    (hout : Outcome free s p q u) : u.Proper := by
  cases hout with
  | started _ _ => exact (h.opened p q).flush
  | extended _ ha _ => exact h.extend ha.chain _
  | closed hp _ =>
    have hlong := h.two_le_of_chain? hp.chain
    rw [close_eq hp.chain hlong]
    exact h.putOut _ (hlong.trans (List.length_append ▸ Nat.le_add_right _ _))
  | joined _ hp hq => exact h.join hp.chain hq.chain

end Proper

theorem Picked.proper [Coordinate α] {tolerance : α} {maxOpen : Int}
    {segments : List (Point α × Point α)} {s : ChainStore α}
    (h : Picked tolerance maxOpen segments s) : s.Proper := by
  induction h with
  | empty => exact .empty tolerance maxOpen
  | reordered _ order ih => exact ih.reordered order
  | leftOut _ _ ih => exact ih
  | added _ _ outcome ih => exact ih.outcome outcome

/-! ## Exact arithmetic -/

section Exact

variable {K : Type} [Field K] [LinearOrder K] [FloorRing K]

/-- In exact arithmetic a segment can always be added. -/
theorem exists_add (s : ChainStore K) (p q : Point K) : ∃ s', s.add p q = .ok s' := by
  cases h : p.near s.tolerance q with
  | true => exact ⟨s, add_of_near h⟩
  | false =>
    rw [add, h]
    exact ⟨_, rfl⟩

theorem exists_addAll (s : ChainStore K) (segments : List (Point K × Point K)) :
    ∃ s', s.addAll segments = .ok s' := by
  induction segments generalizing s with
  | nil => exact ⟨s, rfl⟩
  | cons g segments ih =>
    obtain ⟨t, ht⟩ := exists_add s g.1 g.2
    obtain ⟨s', hs'⟩ := ih t
    exact ⟨s', Except.bind_eq_ok.mpr ⟨t, ht, hs'⟩⟩

/-- No end of an open chain is near a point, but for the excepted one. -/
def IsFree (s : ChainStore K) (p : Point K) (except : Option ChainEnd) : Prop :=
  ∀ e r, s.point? e = some r → p.near s.tolerance r = true → some e = except

variable [IsStrictOrderedRing K]

/-- A point that met no end is near none. -/
theorem Unmet.isFree {s : ChainStore K} (h : s.Indexed) (htol : 0 < s.tolerance) {p : Point K}
    {except : Option ChainEnd} (hp : s.Unmet p except) : s.IsFree p except := by
  obtain ⟨k, hk, hnone⟩ := hp
  obtain rfl := Except.ok.inj hk
  exact fun _ _ he hnear => eq_excluded_of_find?_none h htol hnone he hnear

theorem isFree_outcome_of_add {s u : ChainStore K} {p q : Point K} (h : s.Indexed)
    (htol : 0 < s.tolerance) (hadd : s.add p q = .ok u) :
    p.near s.tolerance q = true ∧ u = s ∨
      p.near s.tolerance q = false ∧ Outcome s.IsFree s p q u :=
  (outcome_of_add hadd).imp_right fun hout =>
    ⟨hout.1, hout.2.mono fun _ _ hp => hp.isFree h htol⟩

end Exact

end ChainStore
end Graphing.Contour
