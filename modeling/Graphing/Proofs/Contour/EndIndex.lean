/-
  Graphing.Proofs.Contour.EndIndex

  The raster of a chain store finds the ends of the open chains.

  The raster is read as a partial map from ends to squares (`Places`): an end
  is in the square that the map gives it, once, and in no other, and no square
  is empty.  Each operation on the raster is a change of that map.  A store is
  `Indexed` if the map is the one that its chains determine: then looking
  around a point finds an end near it if there is one.
-/
import Graphing.Proofs.Contour.Chains
import Graphing.Proofs.Contour.Exact
import Mathlib.Logic.Function.Basic

namespace Graphing.Contour

namespace ChainStore

/-! ## The raster as a partial map -/

/-- The raster holds the ends that have a square, each once, in its square. -/
structure Places (index : Std.HashMap Square (List ChainEnd)) (place : ChainEnd → Option Square) :
    Prop where
  mem_iff : ∀ (k : Square) (e : ChainEnd), e ∈ (index[k]?).getD [] ↔ place e = some k
  nodup : ∀ k : Square, ((index[k]?).getD []).Nodup
  no_empty : ∀ k : Square, index[k]? ≠ some []

theorem Places.congr {index : Std.HashMap Square (List ChainEnd)} {f g : ChainEnd → Option Square}
    (h : Places index f) (hfg : ∀ e, f e = g e) : Places index g := by
  rwa [← show f = g from funext hfg]

variable {K : Type} [Field K] [LinearOrder K] [FloorRing K]

/-- The square of a point. -/
def squareOf (tolerance : K) (p : Point K) : Square := (⌊p.x / tolerance⌋, ⌊p.y / tolerance⌋)

theorem square?_eq_squareOf (s : ChainStore K) (p : Point K) :
    s.square? p = .ok (squareOf s.tolerance p) := rfl

/-- The square that an end of an open chain belongs in. -/
def place (s : ChainStore K) (e : ChainEnd) : Option Square :=
  (s.point? e).map (squareOf s.tolerance)

/-- The raster holds the ends of the open chains. -/
def Indexed (s : ChainStore K) : Prop := Places s.index s.place

theorem places_register {s : ChainStore K} {e : ChainEnd} {p : Point K}
    {g : ChainEnd → Option Square} (h : Places s.index g) (hp : s.point? e = some p)
    (hg : g e = none) :
    Places (s.register e).index (Function.update g e (some (squareOf s.tolerance p))) := by
  have hreg : (s.register e).index =
      s.index.insert (squareOf s.tolerance p) (s.endsIn (squareOf s.tolerance p) ++ [e]) := by
    rw [register, hp]
    rfl
  have hfree : ∀ k : Square, e ∉ (s.index[k]?).getD [] := by
    intro k hk
    rw [h.mem_iff, hg] at hk
    cases hk
  rw [hreg]
  refine ⟨fun k f => ?_, fun k => ?_, fun k => ?_⟩
  · -- one more end in its own square, and no change in the others
    rw [Std.HashMap.getElem?_insert]
    by_cases hk : squareOf s.tolerance p = k
    · subst hk
      by_cases hf : f = e
      · subst hf
        simp
      · simp [endsIn, h.mem_iff, hf]
    · rw [if_neg (by simpa using hk), h.mem_iff]
      by_cases hf : f = e
      · subst hf
        simp [hg, hk]
      · rw [Function.update_of_ne hf]
  · rw [Std.HashMap.getElem?_insert]
    split
    · rw [Option.getD_some, List.nodup_append_comm, List.singleton_append, List.nodup_cons]
      exact ⟨hfree _, h.nodup _⟩
    · exact h.nodup k
  · rw [Std.HashMap.getElem?_insert]
    split
    · simp
    · exact h.no_empty k

/-- The square of an end loses it, and is dropped with its last end. -/
theorem index_unregister {s : ChainStore K} {e : ChainEnd} {p : Point K} (hp : s.point? e = some p)
    (k : Square) : (s.unregister e).index[k]? =
      if squareOf s.tolerance p = k then
        if (s.endsIn k).filter (· != e) = [] then none else some ((s.endsIn k).filter (· != e))
      else s.index[k]? := by
  rw [unregister, hp]
  simp only [Option.map_some, square?_eq_squareOf]
  by_cases hk : squareOf s.tolerance p = k
  · subst hk
    rw [if_pos rfl]
    cases (s.endsIn (squareOf s.tolerance p)).filter (· != e) with
    | nil => simp
    | cons f rest => simp
  · rw [if_neg hk]
    split <;> simp [Std.HashMap.getElem?_erase, Std.HashMap.getElem?_insert, hk]

theorem endsIn_unregister {s : ChainStore K} {e : ChainEnd} {p : Point K}
    (hp : s.point? e = some p) (k : Square) : (s.unregister e).endsIn k =
      if squareOf s.tolerance p = k then (s.endsIn k).filter (· != e) else s.endsIn k := by
  rw [endsIn, index_unregister hp]
  split
  · split
    · rename_i heq
      rw [heq]
      rfl
    · rfl
  · rfl

theorem places_unregister {s : ChainStore K} {e : ChainEnd} {p : Point K}
    {g : ChainEnd → Option Square} (h : Places s.index g) (hp : s.point? e = some p)
    (hg : g e = some (squareOf s.tolerance p)) :
    Places (s.unregister e).index (Function.update g e none) := by
  have hget : ∀ k : Square, ((s.unregister e).index[k]?).getD [] = _ := endsIn_unregister hp
  refine ⟨fun k f => ?_, fun k => ?_, fun k => ?_⟩
  · rw [hget]
    by_cases hk : squareOf s.tolerance p = k
    · subst hk
      rw [if_pos rfl, List.mem_filter, endsIn, h.mem_iff]
      by_cases hf : f = e
      · subst hf
        simp
      · simp [hf]
    · rw [if_neg hk, endsIn, h.mem_iff]
      by_cases hf : f = e
      · subst hf
        simp [hg, hk]
      · rw [Function.update_of_ne hf]
  · rw [hget]
    split
    · exact (h.nodup k).filter _
    · exact h.nodup k
  · rw [index_unregister hp]
    split
    · split
      · simp
      · rename_i hne
        simpa using hne
    · exact h.no_empty k

theorem places_registerBoth {s : ChainStore K} {n : Nat} {points : List (Point K)}
    {g : ChainEnd → Option Square} (h : Places s.index g) (hn : s.chain? n = some points)
    (hne : points ≠ []) (hg : ∀ b, g ⟨n, b⟩ = none) :
    Places (s.registerBoth n).index fun e => if e.chain = n then s.place e else g e := by
  obtain ⟨p, hp, -⟩ := point?_of_chain? hn hne false
  obtain ⟨q, hq, -⟩ := point?_of_chain? hn hne true
  have hq' : (s.register ⟨n, false⟩).point? ⟨n, true⟩ = some q := by
    rw [register_frame]
    exact hq
  have htol : (s.register ⟨n, false⟩).tolerance = s.tolerance := by rw [register_frame]
  have h1 := places_register h hp (hg false)
  have h2 := places_register h1 hq' (by simp [hg])
  rw [htol] at h2
  rw [registerBoth]
  refine h2.congr ?_
  rintro ⟨m, b⟩
  by_cases hm : m = n
  · subst hm
    cases b
    · simp [place, hp]
    · simp [place, hq]
  · simp [hm]

theorem places_unregisterBoth {s : ChainStore K} {n : Nat} {points : List (Point K)}
    {g : ChainEnd → Option Square} (h : Places s.index g) (hn : s.chain? n = some points)
    (hne : points ≠ []) (hg : ∀ b, g ⟨n, b⟩ = s.place ⟨n, b⟩) :
    Places (s.unregisterBoth n).index fun e => if e.chain = n then none else g e := by
  obtain ⟨p, hp, -⟩ := point?_of_chain? hn hne false
  obtain ⟨q, hq, -⟩ := point?_of_chain? hn hne true
  have hq' : (s.unregister ⟨n, false⟩).point? ⟨n, true⟩ = some q := by
    rw [unregister_frame]
    exact hq
  have htol : (s.unregister ⟨n, false⟩).tolerance = s.tolerance := by rw [unregister_frame]
  have h1 := places_unregister h hp (by rw [hg, place, hp]; rfl)
  have h2 := places_unregister h1 hq' (by rw [Function.update_of_ne (by simp), hg, place, hq, htol]; rfl)
  rw [unregisterBoth]
  refine h2.congr ?_
  rintro ⟨m, b⟩
  by_cases hm : m = n
  · subst hm
    cases b <;> simp
  · simp [hm]

/-! ## Chains that come, change and go -/

theorem place_congr {s s' : ChainStore K} {e f : ChainEnd} (htol : s'.tolerance = s.tolerance)
    (h : s'.point? e = s.point? f) : s'.place e = s.place f := by
  rw [place, place, htol, h]

/-- Registering an end says where it is, and moves none. -/
theorem place_register (s : ChainStore K) (e f : ChainEnd) : (s.register e).place f = s.place f := by
  apply place_congr
  · rw [register_frame]
  · rw [register_frame]
    rfl

theorem place_registerBoth (s : ChainStore K) (n : Nat) (f : ChainEnd) :
    (s.registerBoth n).place f = s.place f := by
  rw [registerBoth, place_register, place_register]

theorem place_of_chain?_none {s : ChainStore K} {e : ChainEnd} (h : s.chain? e.chain = none) :
    s.place e = none := by
  simp [place, point?, h]

theorem indexed_empty (tolerance : K) (maxOpen : Int) :
    (ChainStore.empty tolerance maxOpen).Indexed :=
  ⟨by simp [ChainStore.empty, place, point?, chain?], by simp [ChainStore.empty],
    by simp [ChainStore.empty]⟩

theorem indexed_opened {s : ChainStore K} (h : s.Indexed) (hfree : s.chain? s.next = none)
    (p q : Point K) : (s.opened p q).Indexed := by
  set t : ChainStore K :=
    { s with next := s.next + 1, chains := s.chains ++ [(s.next, [p, q])] } with ht
  have hchain : ∀ m, t.chain? m = if m = s.next then some [p, q] else s.chain? m := by
    intro m
    rw [chain?, ht, List.lookup_append]
    by_cases hm : m = s.next
    · subst hm
      rw [if_pos rfl, show s.chains.lookup s.next = none from hfree]
      simp
    · simp [chain?, hm, List.lookup_cons, beq_eq_false_iff_ne.mpr hm]
  have hnew : t.chain? s.next = some [p, q] := by rw [hchain, if_pos rfl]
  have hplaces := places_registerBoth (s := t) h hnew (by simp)
    fun b => place_of_chain?_none (e := ⟨s.next, b⟩) hfree
  refine Places.congr hplaces fun e => ?_
  have hlast : (s.opened p q).place e = t.place e := place_registerBoth t s.next e
  rw [hlast]
  split
  · rfl
  · rename_i he
    have hold : t.place e = s.place e := place_congr rfl (by rw [point?, point?, hchain, if_neg he])
    exact hold.symm

theorem indexed_dropChain {s : ChainStore K} (h : s.Indexed) {n : Nat} {points : List (Point K)}
    (hn : s.chain? n = some points) (hne : points ≠ []) :
    ((s.unregisterBoth n).dropChain n).Indexed := by
  refine Places.congr (places_unregisterBoth h hn hne fun _ => rfl) fun e => ?_
  have hchain : ((s.unregisterBoth n).dropChain n).chain? e.chain =
      if e.chain = n then none else s.chain? e.chain := by
    rw [chain?_dropChain, unregisterBoth_frame]
    rfl
  split
  · rename_i he
    exact (place_of_chain?_none (by rw [hchain, if_pos he])).symm
  · rename_i he
    refine (place_congr ?_ ?_).symm
    · rw [unregisterBoth_frame]
      rfl
    · rw [point?, point?, hchain, if_neg he]

theorem indexed_putOut {s : ChainStore K} (h : s.Indexed) {n : Nat} {points : List (Point K)}
    (hn : s.chain? n = some points) (hne : points ≠ []) (l : List (Point K)) :
    (s.putOut n l).Indexed := by
  have hindex := indexed_dropChain h hn hne
  rw [unregisterBoth_frame] at hindex
  exact hindex

theorem indexed_extend {s : ChainStore K} (h : s.Indexed) {e : ChainEnd}
    {points : List (Point K)} (hn : s.chain? e.chain = some points) (hne : points ≠ [])
    (p : Point K) : (s.extend e p).Indexed := by
  obtain ⟨old, hold, -⟩ := point?_of_chain? hn hne e.isLast
  set t := (s.unregister e).setChain e.chain (grow points e.isLast p) with ht
  have htol : t.tolerance = s.tolerance := by
    rw [ht, unregister_frame]
    rfl
  have hchain : ∀ m, t.chain? m =
      if m = e.chain then some (grow points e.isLast p) else s.chain? m := by
    intro m
    rw [ht, chain?_setChain, unregister_frame]
    change (if m = e.chain then (s.chain? e.chain).map _ else s.chain? m) = _
    rw [hn]
    rfl
  have hpoint : ∀ f, t.point? f = if f = e then some p else s.point? f := by
    intro f
    obtain ⟨m, b⟩ := f
    obtain ⟨n, isLast⟩ := e
    rw [point?, hchain]
    by_cases hm : m = n
    · subst hm
      rw [if_pos rfl, Option.bind_some, endPoint?_grow hne, point?, hn]
      simp
    · simp [hm, point?]
  have hext : s.extend e p = t.register e := by
    rw [extend, hn]
    rfl
  -- the end leaves its square before the chain grows, and is put into the square of its new point
  have h1 : Places t.index (Function.update s.place e none) :=
    places_unregister h hold (by rw [place, hold]; rfl)
  have h2 := places_register h1 (by rw [hpoint, if_pos rfl]) (Function.update_self _ _ _)
  rw [hext]
  refine Places.congr h2 fun f => ?_
  rw [place_register, place, hpoint]
  by_cases hf : f = e
  · subst hf
    simp
  · rw [if_neg hf, Function.update_of_ne hf, Function.update_of_ne hf, place, htol]

theorem indexed_join {s : ChainStore K} (h : s.Indexed) {e f : ChainEnd}
    {first second : List (Point K)} (he : s.chain? e.chain = some first)
    (hf : s.chain? f.chain = some second) (hne : first ≠ []) (hne' : second ≠ [])
    (hef : e.chain ≠ f.chain) : (s.join e f).Indexed := by
  set u := (s.unregisterBoth e.chain).unregisterBoth f.chain with hu
  set t := (u.setChain e.chain (joined first second e.isLast f.isLast)).dropChain f.chain with ht
  have hframe : u = { s with index := u.index } := by
    rw [hu, unregisterBoth_frame (s.unregisterBoth _), unregisterBoth_frame s]
  have htol : t.tolerance = s.tolerance := by
    rw [ht, hframe]
    rfl
  have hchain : ∀ m, t.chain? m = if m = f.chain then none else
      if m = e.chain then some (joined first second e.isLast f.isLast) else s.chain? m := by
    intro m
    rw [ht, chain?_dropChain, chain?_setChain, hframe]
    change (if m = f.chain then none else
      if m = e.chain then (s.chain? e.chain).map _ else s.chain? m) = _
    rw [he]
    rfl
  have hnew : t.chain? e.chain = some (joined first second e.isLast f.isLast) := by
    rw [hchain, if_neg hef, if_pos rfl]
  -- all four ends leave their squares before the chains are joined; two of them come back
  have h1 := places_unregisterBoth h he hne fun _ => rfl
  have hf' : (s.unregisterBoth e.chain).chain? f.chain = some second := by
    rw [unregisterBoth_frame]
    exact hf
  have h2 := places_unregisterBoth h1 hf' hne' fun b => by
    rw [if_neg (Ne.symm hef)]
    refine (place_congr ?_ ?_).symm
    · rw [unregisterBoth_frame]
    · rw [unregisterBoth_frame]
      rfl
  have h3 := places_registerBoth (s := t) h2 hnew (by
    unfold joined
    split <;> simp [hne]) fun b => by simp
  have hjoin : s.join e f = t.registerBoth e.chain := by
    rw [join, he, hf]
    rfl
  rw [hjoin]
  refine Places.congr h3 fun g => ?_
  rw [place_registerBoth]
  by_cases hge : g.chain = e.chain
  · rw [if_pos hge]
  · rw [if_neg hge, if_neg hge]
    by_cases hgf : g.chain = f.chain
    · rw [if_pos hgf, place_of_chain?_none (by rw [hchain, if_pos hgf])]
    · rw [if_neg hgf]
      have hold : t.place g = s.place g :=
        place_congr htol (by rw [point?, point?, hchain, if_neg hgf, if_neg hge])
      exact hold.symm

/-! ## Looking around a point -/

section Search

variable [IsStrictOrderedRing K]

/-- If the search finds nothing, then no end but the excluded one is near the point. -/
theorem eq_excluded_of_find?_none {s : ChainStore K} (h : s.Indexed) (htol : 0 < s.tolerance)
    {p q : Point K} {excluded : Option ChainEnd} {e : ChainEnd}
    (hnone : s.find? p (squareOf s.tolerance p) excluded = none) (he : s.point? e = some q)
    (hnear : p.near s.tolerance q = true) : some e = excluded := by
  unfold find? at hnone
  rw [List.findSome?_eq_none_iff] at hnone
  have hl := hnone _ (mem_around_of_near htol hnear)
  rw [List.find?_eq_none] at hl
  have hmem : e ∈ s.endsIn (squareOf s.tolerance q) :=
    (h.mem_iff _ _).mpr (by rw [place, he]; rfl)
  have := hl e hmem
  rw [Bool.and_eq_true, isNear, he] at this
  by_contra hne
  exact this ⟨by simpa using hne, hnear⟩

end Search

end ChainStore
end Graphing.Contour
