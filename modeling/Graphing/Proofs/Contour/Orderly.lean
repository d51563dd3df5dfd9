/-
  Graphing.Proofs.Contour.Orderly

  How a store of chains is kept, whatever segments are added.

  A store is `Orderly` if its chains have numbers of their own and two points
  or more, its raster holds the ends of the open chains and nothing else, and
  no two of these ends are near each other.  The last is what makes a search
  around one point enough: a new end takes a place that is near no other end,
  for an end near it would have been found, and been joined or closed.

  The ends are read as a partial map from ends to points, and `Apart` is said
  of that map.  Extending a chain updates the map at one end, starting a chain
  at two; taking chains out and joining them only leave ends out or rename
  them.
-/
import Graphing.Proofs.Contour.Adding
import Mathlib.Algebra.Order.Ring.Rat
import Mathlib.Data.Rat.Floor
import Mathlib.Tactic.NormNum

namespace Graphing.Contour

namespace ChainStore

variable {K : Type} [Field K] [LinearOrder K] [FloorRing K]

/-! ## Ends that are apart -/

/-- No two ends have points near each other. -/
def Apart (tolerance : K) (at? : ChainEnd → Option (Point K)) : Prop :=
  ∀ e f p q, at? e = some p → at? f = some q → e ≠ f → p.near tolerance q = false

/-- Ends that are left out or renamed stay apart. -/
theorem Apart.comap {tolerance : K} {at? at?' : ChainEnd → Option (Point K)} (h : Apart tolerance at?)
    (rename : ChainEnd → ChainEnd)
    (hat : ∀ e p, at?' e = some p → at? (rename e) = some p)
    (hinj : ∀ e f p q, at?' e = some p → at?' f = some q → rename e = rename f → e = f) :
    Apart tolerance at?' := by
  intro e f p q he hf hne
  exact h _ _ p q (hat e p he) (hat f q hf) fun heq => hne (hinj e f p q he hf heq)

/-- An end that moves to a point near no other end stays apart from them. -/
theorem Apart.update [IsStrictOrderedRing K] {tolerance : K} {at? : ChainEnd → Option (Point K)}
    (h : Apart tolerance at?) {e : ChainEnd} {p : Point K}
    (hfree : ∀ f q, at? f = some q → f ≠ e → p.near tolerance q = false) :
    Apart tolerance (Function.update at? e (some p)) := by
  intro f g q r hf hg hne
  by_cases hfe : f = e
  · subst hfe
    rw [Function.update_self, Option.some.injEq] at hf
    rw [Function.update_of_ne hne.symm] at hg
    rw [← hf]
    exact hfree g r hg hne.symm
  · rw [Function.update_of_ne hfe] at hf
    by_cases hge : g = e
    · subst hge
      rw [Function.update_self, Option.some.injEq] at hg
      rw [← hg, Point.near_comm]
      exact hfree f q hf hfe
    · rw [Function.update_of_ne hge] at hg
      exact h f g q r hf hg hne

/-! ## The points at the ends -/

omit [Field K] [LinearOrder K] [FloorRing K] in
theorem point?_dropChain (s : ChainStore K) (n : Nat) (e : ChainEnd) :
    (s.dropChain n).point? e = if e.chain = n then none else s.point? e := by
  rw [point?, chain?_dropChain]
  split <;> rfl

theorem point?_extend {s : ChainStore K} {e : ChainEnd} {l : List (Point K)}
    (hl : s.chain? e.chain = some l) (hne : l ≠ []) (p : Point K) :
    (s.extend e p).point? = Function.update s.point? e (some p) := by
  funext f
  rw [extend_frame hl]
  show ((s.setChain e.chain (grow l e.isLast p)).chain? f.chain).bind _ = _
  rw [chain?_setChain, hl]
  obtain ⟨n, b⟩ := e
  obtain ⟨m, c⟩ := f
  dsimp only at hl ⊢
  by_cases hm : m = n
  · subst hm
    rw [if_pos rfl, Option.map_some, Option.bind_some, endPoint?_grow hne]
    by_cases hc : c = b
    · subst hc
      rw [if_pos rfl, Function.update_self]
    · rw [if_neg hc, Function.update_of_ne (by simpa using hc), point?, hl]
      rfl
  · rw [if_neg hm, Function.update_of_ne (by simp [hm])]
    rfl

theorem point?_opened {s : ChainStore K} (h : s.chain? s.next = none) (p q : Point K) :
    (s.opened p q).point? =
      Function.update (Function.update s.point? ⟨s.next, false⟩ (some p)) ⟨s.next, true⟩ (some q) := by
  funext f
  obtain ⟨m, c⟩ := f
  rw [opened_frame]
  show ((s.chains ++ [(s.next, [p, q])]).lookup m).bind _ = _
  rw [List.lookup_append]
  by_cases hm : m = s.next
  · subst hm
    rw [show s.chains.lookup s.next = none from h]
    cases c <;> simp [endPoint?]
  · have hne : ∀ b, (⟨m, c⟩ : ChainEnd) ≠ ⟨s.next, b⟩ := fun b heq => hm (by cases heq; rfl)
    rw [Function.update_of_ne (hne true), Function.update_of_ne (hne false), point?, chain?,
      lookup_cons_eq, if_neg hm]
    simp

/-- The ends of a chain that was joined are the ends of its two parts that were not joined. -/
theorem point?_join {s : ChainStore K} {e f : ChainEnd} {l m : List (Point K)}
    (hl : s.chain? e.chain = some l) (hm : s.chain? f.chain = some m) (hne : l ≠ []) (hne' : m ≠ [])
    (hef : e.chain ≠ f.chain) (g : ChainEnd) :
    (s.join e f).point? g =
      if g.chain = f.chain then none
      else if g.chain = e.chain then
        s.point? (if g.isLast then ⟨f.chain, !f.isLast⟩ else ⟨e.chain, !e.isLast⟩)
      else s.point? g := by
  rw [join_frame hl hm]
  show (((s.setChain e.chain _).dropChain f.chain).chain? g.chain).bind _ = _
  rw [chain?_dropChain, chain?_setChain, hl, Option.map_some]
  obtain ⟨n, b⟩ := e
  obtain ⟨n', b'⟩ := f
  obtain ⟨k, c⟩ := g
  dsimp only at hl hm hef ⊢
  split
  · rfl
  · split
    · rw [Option.bind_some, endPoint?_joined hne hne']
      cases c with
      | true => rw [if_pos rfl, if_pos rfl, point?, hm, Option.bind_some]
      | false =>
        rw [if_neg Bool.false_ne_true, if_neg Bool.false_ne_true, point?, hl, Option.bind_some]
    · rfl

/-! ## The invariant -/

/-- The representation of a store: the chains have numbers of their own and two points or more, the
raster holds the ends of the open chains, and no two of these ends are near each other. -/
structure Orderly (s : ChainStore K) : Prop extends Proper s where
  indexed : s.Indexed
  apart : Apart s.tolerance s.point?

theorem IsFree.not_near {s : ChainStore K} {p q : Point K} {except : Option ChainEnd} {e : ChainEnd}
    (h : s.IsFree p except) (he : s.point? e = some q) (hne : some e ≠ except) :
    p.near s.tolerance q = false := by
  rw [← Bool.not_eq_true]
  exact fun hnear => hne (h e q he hnear)

theorem orderly_empty (tolerance : K) (maxOpen : Int) :
    (ChainStore.empty tolerance maxOpen).Orderly where
  toProper := .empty tolerance maxOpen
  indexed := indexed_empty tolerance maxOpen
  apart e f p q he := by simp [point?, chain?, ChainStore.empty] at he

namespace Orderly

variable {s t u : ChainStore K} {p q : Point K}

/-- The order of the ends in a square does not matter. -/
theorem reordered (h : s.Orderly) (hst : Reordered s t) : t.Orderly := by
  have hplace : t.place = s.place := by rw [hst.frame]; rfl
  refine ⟨h.toProper.reordered hst, ⟨fun k e => ?_, fun k => ?_, fun k hk => ?_⟩, ?_⟩
  · rw [hplace, ← h.indexed.mem_iff]
    exact (hst.perm k).mem_iff.symm
  · exact (hst.perm k).nodup_iff.mp (h.indexed.nodup k)
  · -- a square without ends would be forgotten in the other order as well
    have hmem : k ∈ t.index := Std.HashMap.mem_iff_isSome_getElem?.mpr (by rw [hk]; rfl)
    obtain ⟨ends, hends⟩ := Option.isSome_iff_exists.mp
      (Std.HashMap.mem_iff_isSome_getElem?.mp ((hst.squares k).mpr hmem))
    have hperm := hst.perm k
    rw [endsIn, endsIn, hk, hends] at hperm
    obtain rfl : ends = [] := List.perm_nil.mp hperm
    exact h.indexed.no_empty k hends
  · rw [hst.frame]
    exact h.apart

/-- A chain that is taken out leaves the others in order. -/
theorem putOut (h : s.Orderly) {n : Nat} {l : List (Point K)} (hl : s.chain? n = some l)
    {l' : List (Point K)} (hlong : 2 ≤ l'.length) : (s.putOut n l').Orderly where
  toProper := h.toProper.putOut n hlong
  indexed := indexed_putOut h.indexed hl (h.ne_nil hl) l'
  apart := by
    refine h.apart.comap id (fun e p he => ?_) fun _ _ _ _ _ _ heq => heq
    have hpoint : (s.putOut n l').point? e = (s.dropChain n).point? e := rfl
    rw [hpoint, point?_dropChain] at he
    split at he
    · cases he
    · exact he

theorem flush (h : s.Orderly) : s.flush.Orderly := by
  obtain ⟨heq, -⟩ | ⟨n, l, hl, heq⟩ := h.flush_cases
  · rwa [heq]
  · have hcounted : { s with flushes := s.flushes + 1 }.Orderly :=
      ⟨h.counted, h.indexed, h.apart⟩
    rw [heq]
    exact hcounted.putOut hl (h.two_le_of_chain? hl)

variable [IsStrictOrderedRing K]

theorem opened (h : s.Orderly) (hpq : p.near s.tolerance q = false) (hp : s.IsFree p none)
    (hq : s.IsFree q none) : (s.opened p q).Orderly where
  toProper := h.toProper.opened p q
  indexed := indexed_opened h.indexed (chain?_next h.numbered) p q
  apart := by
    have htol : (s.opened p q).tolerance = s.tolerance := by rw [opened_frame]
    rw [htol, point?_opened (chain?_next h.numbered)]
    refine (h.apart.update fun f r hf _ => hp.not_near hf nofun).update fun f r hf hne => ?_
    by_cases hfirst : f = ⟨s.next, false⟩
    · rw [hfirst, Function.update_self, Option.some.injEq] at hf
      rw [← hf, Point.near_comm]
      exact hpq
    · rw [Function.update_of_ne hfirst] at hf
      exact hq.not_near hf nofun

theorem extend (h : s.Orderly) {e : ChainEnd} {l : List (Point K)} (hl : s.chain? e.chain = some l)
    (hp : s.IsFree p (some e)) : (s.extend e p).Orderly where
  toProper := h.toProper.extend hl p
  indexed := indexed_extend h.indexed hl (h.ne_nil hl) p
  apart := by
    have htol : (s.extend e p).tolerance = s.tolerance := by
      rw [extend_frame hl]
      rfl
    rw [htol, point?_extend hl (h.ne_nil hl)]
    exact h.apart.update fun f r hf hne => hp.not_near hf fun heq => hne (Option.some.inj heq)

omit [IsStrictOrderedRing K] in
theorem join (h : s.Orderly) {e f : ChainEnd} {l m : List (Point K)}
    (hl : s.chain? e.chain = some l) (hm : s.chain? f.chain = some m) (hef : e.chain ≠ f.chain) :
    (s.join e f).Orderly where
  toProper := h.toProper.join hl hm
  indexed := indexed_join h.indexed hl hm (h.ne_nil hl) (h.ne_nil hm) hef
  apart := by
    have htol : (s.join e f).tolerance = s.tolerance := by
      rw [join_frame hl hm]
      rfl
    have hpoint := point?_join hl hm (h.ne_nil hl) (h.ne_nil hm) hef
    rw [htol]
    -- an end of the joined chain is one of the two ends that were not joined
    refine h.apart.comap (fun g => if g.chain = e.chain then
      if g.isLast then ⟨f.chain, !f.isLast⟩ else ⟨e.chain, !e.isLast⟩ else g) ?_ ?_
    · intro g r hg
      rw [hpoint] at hg
      split at hg
      · cases hg
      · split at hg <;> rename_i hge
        · rwa [if_pos hge]
        · rwa [if_neg hge]
    · rintro ⟨n, b⟩ ⟨n', b'⟩ r r' hg hg' heq
      have hn : n ≠ f.chain := fun heq => by rw [hpoint, if_pos heq] at hg; cases hg
      have hn' : n' ≠ f.chain := fun heq => by rw [hpoint, if_pos heq] at hg'; cases hg'
      dsimp only at heq
      cases b <;> cases b' <;> grind

/-- Adding a segment keeps a store in order. -/
theorem outcome (h : s.Orderly) (hpq : p.near s.tolerance q = false) (hout : Outcome s.IsFree s p q u) :
    u.Orderly := by
  cases hout with
  | started hp hq => exact (h.opened hpq hp hq).flush
  | extended _ ha hb => exact h.extend ha.chain hb
  | closed hp _ =>
    have hlong := h.two_le_of_chain? hp.chain
    rw [close_eq hp.chain hlong]
    exact h.putOut hp.chain (hlong.trans (List.length_append ▸ Nat.le_add_right _ _))
  | joined hef hp hq => exact h.join hp.chain hq.chain hef

theorem add (h : s.Orderly) (htol : 0 < s.tolerance) (hadd : s.add p q = .ok u) : u.Orderly := by
  obtain ⟨-, rfl⟩ | ⟨hpq, hout⟩ := isFree_outcome_of_add h.indexed htol hadd
  · exact h
  · exact h.outcome hpq hout

/-- Only a segment that starts a chain makes more of them, and then the oldest is put out if there
are too many. -/
theorem length_add_le (h : s.Orderly) (htol : 0 < s.tolerance) (hmax : 0 ≤ s.maxOpen)
    (hroom : (s.chains.length : Int) ≤ s.maxOpen) (hadd : s.add p q = .ok u) :
    (u.chains.length : Int) ≤ s.maxOpen := by
  obtain ⟨-, rfl⟩ | ⟨hpq, hout⟩ := isFree_outcome_of_add h.indexed htol hadd
  · exact hroom
  cases hout with
  | started hp hq =>
    have hopened := h.opened hpq hp hq
    have hmax' : (s.opened p q).maxOpen = s.maxOpen := by rw [opened_frame]
    have hlength : (s.opened p q).chains.length = s.chains.length + 1 := by
      rw [opened_frame, List.length_append, List.length_singleton]
    rw [start_eq]
    -- the only step with a chain more, and it may put one out at once
    obtain ⟨heq, hfits⟩ | ⟨n, l, hl, heq⟩ := hopened.flush_cases
    · rw [heq, ← hmax']
      exact hfits (by rwa [hmax'])
    · have hdrop := (chains_perm hopened.numbered hl).length_eq
      rw [List.length_cons, hlength] at hdrop
      have hput : (s.opened p q).flush.chains = ((s.opened p q).dropChain n).chains := by rw [heq]; rfl
      rw [hput]
      omega
  | @extended _ b _ e =>
    obtain ⟨c, i, heq, hlength⟩ := extend_limits s e b
    rw [heq]
    dsimp only
    omega
  | @closed _ _ e =>
    obtain ⟨c, i, o, heq, hlength⟩ := close_frame s e.chain
    rw [heq]
    dsimp only
    omega
  | @joined _ _ e f =>
    obtain ⟨c, i, heq, hlength⟩ := join_limits s e f
    rw [heq]
    dsimp only
    omega

/-- Adding a segment puts out nothing, or the oldest chain because there are too many, or a chain that
it closes. -/
theorem output_add (h : s.Orderly) (htol : 0 < s.tolerance) (hadd : s.add p q = .ok u) :
    u.output = s.output ∧ u.flushes = s.flushes ∨
    ∃ l, u.output = s.output.push l ∧
      (u.flushes = s.flushes + 1 ∧ 2 ≤ l.length ∨
        u.flushes = s.flushes ∧ 3 ≤ l.length ∧ l.head? = l.getLast?) := by
  obtain ⟨-, rfl⟩ | ⟨hpq, hout⟩ := isFree_outcome_of_add h.indexed htol hadd
  · exact .inl ⟨rfl, rfl⟩
  cases hout with
  | started hp hq =>
    have hopened := h.opened hpq hp hq
    have hframe := s.opened_frame p q
    rw [start_eq]
    obtain ⟨heq, -⟩ | ⟨n, l, hl, heq⟩ := hopened.flush_cases
    · rw [heq, hframe]
      exact .inl ⟨rfl, rfl⟩
    · refine .inr ⟨l, ?_, .inl ⟨?_, hopened.two_le_of_chain? hl⟩⟩
      · rw [heq, putOut_output, hframe]
      · rw [heq, putOut_flushes, hframe]
  | extended _ ha _ =>
    rw [extend_frame ha.chain]
    exact .inl ⟨rfl, rfl⟩
  | @closed _ _ e l hp _ =>
    have hlong := h.two_le_of_chain? hp.chain
    obtain ⟨a, rest, rfl⟩ := List.exists_cons_of_ne_nil (h.ne_nil hp.chain)
    -- a closed line repeats its first point at the end
    rw [close_eq hp.chain hlong]
    refine .inr ⟨_, rfl, .inr ⟨rfl, ?_, ?_⟩⟩
    · rw [List.length_append]
      exact Nat.add_le_add_right hlong 1
    · exact List.getLast?_concat.symm
  | joined _ hp hq =>
    rw [join_frame hp.chain hq.chain]
    exact .inl ⟨rfl, rfl⟩

/-! ### The end of a run -/

omit [IsStrictOrderedRing K] in
theorem retire (h : s.Orderly) (n : Nat) :
    (s.retire n).Orderly ∧ (s.retire n).chains = (s.dropChain n).chains := by
  cases hn : s.chain? n with
  | none =>
    have hgone : (s.dropChain n).chains = s.chains := by
      refine List.filter_eq_self.mpr fun c hc => ?_
      rw [bne_iff_ne]
      rintro rfl
      rw [(chain?_eq_some_iff h.numbered).mpr hc] at hn
      cases hn
    rw [ChainStore.retire, hn]
    exact ⟨h, hgone.symm⟩
  | some l =>
    rw [retire_eq hn (h.two_le_of_chain? hn)]
    exact ⟨h.putOut hn (h.two_le_of_chain? hn), rfl⟩

omit [IsStrictOrderedRing K] in
/-- At the end all chains are put out, and the store is in order. -/
theorem finish (h : s.Orderly) : s.finish.Orderly ∧ s.finish.chains = [] := by
  have hrun : ∀ (ns : List Nat) {s : ChainStore K}, s.Orderly →
      (ns.foldl ChainStore.retire s).Orderly ∧
        (ns.foldl ChainStore.retire s).chains = s.chains.filter fun c => c.1 ∉ ns := by
    intro ns
    induction ns with
    | nil => exact fun h => ⟨h, by simp⟩
    | cons n ns ih =>
      intro s h
      obtain ⟨hnext, hchains⟩ := h.retire n
      obtain ⟨hlast, hrest⟩ := ih hnext
      refine ⟨hlast, ?_⟩
      rw [List.foldl_cons, hrest, hchains, dropChain, List.filter_filter]
      refine List.filter_congr fun c _ => ?_
      rw [Bool.eq_iff_iff]
      simp [and_comm]
  obtain ⟨hlast, hchains⟩ := hrun (s.chains.map Prod.fst) h
  refine ⟨hlast, hchains.trans (List.filter_eq_nil_iff.mpr fun c hc => ?_)⟩
  simpa using ⟨c.2, hc⟩

omit [IsStrictOrderedRing K] in
/-- Without open chains the raster is empty. -/
theorem index_isEmpty (h : s.Orderly) (hchains : s.chains = []) : s.index.isEmpty = true := by
  rw [Std.HashMap.isEmpty_iff_forall_not_mem]
  intro k hk
  obtain ⟨ends, hends⟩ := Option.isSome_iff_exists.mp (Std.HashMap.mem_iff_isSome_getElem?.mp hk)
  cases ends with
  | nil => exact h.indexed.no_empty k hends
  | cons e rest =>
    have hplace := (h.indexed.mem_iff k e).mp (by rw [hends]; exact List.mem_cons_self)
    simp [place, point?, chain?, hchains] at hplace

end Orderly

/-! ## Runs -/

section Runs

variable [IsStrictOrderedRing K] {tolerance : K} {maxOpen : Int}
  {segments : List (Point K × Point K)} {s : ChainStore K}

/-- A run keeps the store in order. -/
theorem Grown.orderly (htol : 0 < tolerance) (h : Grown tolerance maxOpen segments s) :
    s.Orderly := by
  induction h with
  | empty => exact orderly_empty tolerance maxOpen
  | add run order step ih =>
    obtain ⟨rfl, -⟩ := (run.picked.reordered order).limits
    exact (ih.reordered order).add htol step

theorem Grown.length_le (htol : 0 < tolerance) (hmax : 0 ≤ maxOpen)
    (h : Grown tolerance maxOpen segments s) : (s.chains.length : Int) ≤ maxOpen := by
  induction h with
  | empty => exact hmax
  | add run order step ih =>
    obtain ⟨rfl, rfl⟩ := (run.picked.reordered order).limits
    have hchains := congrArg ChainStore.chains order.frame
    rw [← hchains] at ih
    exact ((run.orderly htol).reordered order).length_add_le htol hmax ih step

/-- The invariant of the representation. Whatever segments are added, and in whatever order the ends
in a square are looked through: the raster holds exactly the ends of the open chains, no two of which
are near each other; the chains have two points or more, and are not more than the limit. So every
further segment can be added, a chain that it closes has three points or more and ends where it
begins, and at the end no chain is open and the raster is empty. -/
theorem grown_orderly (htol : 0 < tolerance) (hmax : 0 ≤ maxOpen)
    (h : Grown tolerance maxOpen segments s) :
    s.Orderly ∧ (s.chains.length : Int) ≤ maxOpen ∧ (∀ l ∈ s.output, 2 ≤ l.length) ∧
    (∀ t p q, Reordered s t → ∃ u, t.add p q = .ok u ∧
      (u.output = s.output ∧ u.flushes = s.flushes ∨
        ∃ l, u.output = s.output.push l ∧
          (u.flushes = s.flushes + 1 ∧ 2 ≤ l.length ∨
            u.flushes = s.flushes ∧ 3 ≤ l.length ∧ l.head? = l.getLast?))) ∧
    s.finish.chains = [] ∧ s.finish.index.isEmpty = true ∧
    ∀ l ∈ s.finish.output, 2 ≤ l.length := by
  obtain ⟨rfl, -⟩ := h.picked.limits
  have hs := h.orderly htol
  obtain ⟨hlast, hclosed⟩ := hs.finish
  refine ⟨hs, h.length_le htol hmax, hs.output, fun t p q order => ?_, hclosed,
    hlast.index_isEmpty hclosed, hlast.output⟩
  obtain ⟨u, hadd⟩ := exists_add t p q
  have htol' : 0 < t.tolerance := by
    rw [order.frame]
    exact htol
  have hout := (hs.reordered order).output_add htol' hadd
  rw [order.frame] at hout
  exact ⟨u, hadd, hout⟩

end Runs

/-- Two segments far from each other, and room for one chain. -/
theorem grown_orderly_two_segments :
    ∃ s : ChainStore ℚ, Grown (1 / 10) 1 [(⟨0, 0⟩, ⟨1, 0⟩), (⟨5, 5⟩, ⟨6, 5⟩)] s ∧ s.Orderly ∧
      s.chains.length ≤ 1 ∧ s.finish.chains = [] := by
  obtain ⟨s, hs⟩ := exists_addAll (ChainStore.empty (1 / 10 : ℚ) 1)
    [(⟨0, 0⟩, ⟨1, 0⟩), (⟨5, 5⟩, ⟨6, 5⟩)]
  have hrun := grown_of_addAll .empty hs
  obtain ⟨horderly, hroom, -, -, hclosed, -⟩ := grown_orderly (by norm_num) (by norm_num) hrun
  exact ⟨s, hrun, horderly, by omega, hclosed⟩

end ChainStore
end Graphing.Contour
