/-
  Graphing.Proofs.Plot.Enclosed

  What a plot does not touch.

  A plot owns the traces of the pieces that it is given, and all traces that
  are made from its beginning on.  Drawing keeps to these: each handle at a
  spot of one of its pieces has an owned trace, and each owned trace of the
  figure belongs to such a handle (`Enclosed`).  So what the figure shows after
  a plot is what the pieces show, and what was to be seen of all others before.
-/
import Graphing.Proofs.Plot.Accounting
import Graphing.Proofs.Surface.Confined

open Graphing.Relation (Classification Family)

namespace Graphing

namespace Surface

variable {s s' : Surface} {k j : HandleId} {own : Nat → Bool}

theorem foreign_eq_of_tag (h : s'.tag? k = s.tag? k) : s'.foreign own k = s.foreign own k := by
  have hof : ∀ s : Surface, s.foreign own k = (s.tag? k).any fun tag => !own tag.1 := by
    intro s
    rw [foreign, tag?]
    cases s.handle? k <;> rfl
  rw [hof, hof, h]

theorem tag?_addHandle (s : Surface) (mode : String) (shape : Shape) (k : HandleId) :
    (s.addHandle mode shape).2.tag? k =
      if k = s.handles.size then some (s.nextTrace, false) else s.tag? k := by
  rw [tag?, handle?_addHandle]
  split <;> rfl

theorem tag?_foldl_remove (ks : List HandleId) (hk : k ∉ ks) :
    (ks.foldl remove s).tag? k = s.tag? k := by
  rw [tag?, handle?_foldl_remove ks hk, tag?]

theorem foreign_foldl_remove (ks : List HandleId) :
    (ks.foldl remove s).foreign own k = s.foreign own k := by
  have hstep : ∀ (s : Surface) (j : HandleId), (s.remove j).foreign own k = s.foreign own k := by
    intro s j
    obtain ⟨heq, -⟩ | ⟨l, -, -, heq⟩ := s.remove_cases j
    · rw [heq]
    · rw [heq]
      show ((s.modify j _).handle? k).any _ = (s.handle? k).any _
      rw [handle?_modify]
      split
      · cases s.handle? k <;> rfl
      · rfl
  exact foldl_keeps (fun s : Surface => s.foreign own k) hstep ks s

/-- Removing a handle removes its trace. -/
theorem mem_figure_foldl_remove {t : Trace} (ks : List HandleId)
    (ht : t ∈ (ks.foldl remove s).figure) :
    t ∈ s.figure ∧ ∀ k ∈ ks, s.tag? k ≠ some (t.id, false) := by
  induction ks generalizing s with
  | nil => exact ⟨ht, fun k hk => absurd hk List.not_mem_nil⟩
  | cons j ks ih =>
    obtain ⟨hmem, hrest⟩ := ih ht
    have hold : t ∈ s.figure ∧ s.tag? j ≠ some (t.id, false) := by
      rw [tag?]
      obtain ⟨heq, hgone⟩ | ⟨l, hl, -, heq⟩ := s.remove_cases j
      · rw [heq] at hmem
        refine ⟨hmem, fun htag => ?_⟩
        obtain ⟨l, hl, htag⟩ := Option.map_eq_some_iff.mp htag
        exact Bool.noConfusion ((hgone l hl).symm.trans (Prod.mk.inj htag).2)
      · rw [heq] at hmem
        refine ⟨(List.mem_filter.mp hmem).1, fun htag => ?_⟩
        rw [hl] at htag
        obtain ⟨htrace, -⟩ := Prod.mk.inj (Option.some.inj htag)
        exact bne_iff_ne.mp (List.mem_filter.mp hmem).2 htrace.symm
    refine ⟨hold.1, fun k hk => ?_⟩
    by_cases hkj : k = j
    · rw [hkj]
      exact hold.2
    · have hsame : (s.remove j).tag? k = s.tag? k := by
        rw [tag?, handle?_remove hkj, tag?]
      rw [← hsame]
      exact hrest k ((List.mem_cons.mp hk).resolve_left hkj)

end Surface

namespace Canvas

variable {c c' : Canvas} {n : PieceId} {ns rest : List PieceId} {own : Nat → Bool} {s₀ : Surface}

theorem mem_contours {k : HandleId} : k ∈ c.contours n ↔ ∃ i, c.spot? n (.contour i) = some k := by
  rw [List.mem_iff_getElem?]
  exact exists_congr fun i => by rw [contours_getElem?]

theorem mem_handles_modify {f : Piece → Piece} (hf : ∀ p (a : Spot), a.get (f p) = a.get p)
    {m : PieceId} {k : HandleId} : k ∈ (c.modify n f).handles m ↔ k ∈ c.handles m := by
  rw [mem_handles, mem_handles]
  exact exists_congr fun a => by rw [spot?_modify_eq hf]

theorem mem_handles_of_removeContours {m : PieceId} {k : HandleId}
    (hk : k ∈ (c.removeContours n).handles m) : k ∈ c.handles m := by
  obtain ⟨a, ha⟩ := mem_handles.mp hk
  exact mem_handles.mpr ⟨a, (spot?_removeContours.mp ha).1⟩

theorem handles_of_size_le {m : PieceId} (hm : c.pieces.size ≤ m) : c.handles m = [] := by
  rw [handles, piece?, Array.getElem?_eq_none hm]
  rfl

/-- A new piece has no handles. -/
theorem handles_acquire_none (kind : PieceKind) (family : Family) (m : PieceId) :
    (c.acquire none kind family).2.handles m = c.handles m := by
  by_cases hm : m = c.pieces.size
  · rw [handles, piece?_acquire_none, if_pos hm, handles_of_size_le (Nat.le_of_eq hm.symm)]
    rfl
  · rw [handles, piece?_acquire_none, if_neg hm, handles]

/-! ## Pieces with owned traces -/

/-- Nothing but owned traces was changed since some surface. The pieces have owned traces, and all
owned traces of the figure are theirs. -/
structure Enclosed (own : Nat → Bool) (s₀ : Surface) (c : Canvas) (ns : List PieceId) : Prop where
  same : s₀.ChangesOnly own c.surface
  fresh : ∀ id, c.surface.nextTrace ≤ id → own id = true
  inside : ∀ n ∈ ns, ∀ k ∈ c.handles n, c.surface.foreign own k = false
  covered : ∀ t ∈ c.surface.figure, own t.id = true →
    ∃ n ∈ ns, ∃ k ∈ c.handles n, c.surface.tag? k = some (t.id, false)

namespace Enclosed

theorem perm (h : Enclosed own s₀ c ns) {ms : List PieceId} (hp : ∀ n, n ∈ ns ↔ n ∈ ms) :
    Enclosed own s₀ c ms where
  same := h.same
  fresh := h.fresh
  inside n hn := h.inside n ((hp n).mpr hn)
  covered t ht hown := by
    obtain ⟨n, hn, hrest⟩ := h.covered t ht hown
    exact ⟨n, (hp n).mp hn, hrest⟩

/-- A piece without handles does not count. -/
theorem drop (h : Enclosed own s₀ c (n :: ns)) (hn : c.handles n = []) : Enclosed own s₀ c ns where
  same := h.same
  fresh := h.fresh
  inside m hm := h.inside m (List.mem_cons_of_mem n hm)
  covered t ht hown := by
    obtain ⟨m, hm, k, hk, htag⟩ := h.covered t ht hown
    rcases List.mem_cons.mp hm with rfl | hm
    · rw [hn] at hk
      exact absurd hk List.not_mem_nil
    · exact ⟨m, hm, k, hk, htag⟩

/-- A change of owned traces that leaves all handles with their traces. -/
theorem retag (h : Enclosed own s₀ c ns) {s : Surface} (hs : c.surface.SameTags s)
    (hchange : c.surface.ChangesOnly own s) : Enclosed own s₀ { c with surface := s } ns where
  same := h.same.trans hchange
  fresh id hid := h.fresh id (hs.next ▸ hid)
  inside n hn k hk := (Surface.foreign_eq_of_tag (hs.tag k)).trans (h.inside n hn k hk)
  covered t ht hown := by
    obtain ⟨u, hu, hid⟩ := List.mem_map.mp (hs.ids ▸ List.mem_map_of_mem ht)
    obtain ⟨n, hn, k, hk, htag⟩ := h.covered u hu (by rw [hid]; exact hown)
    exact ⟨n, hn, k, hk, (hs.tag k).trans (by rw [htag, hid])⟩

/-- A change of a piece that keeps its handles. -/
theorem modify (h : Enclosed own s₀ c ns) (n : PieceId) {f : Piece → Piece}
    (hf : ∀ p (a : Spot), a.get (f p) = a.get p) : Enclosed own s₀ (c.modify n f) ns := by
  refine ⟨h.same, h.fresh, fun m hm k hk => h.inside m hm k ((mem_handles_modify hf).mp hk),
    fun t ht hown => ?_⟩
  obtain ⟨m, hm, k, hk, htag⟩ := h.covered t ht hown
  exact ⟨m, hm, k, (mem_handles_modify hf).mpr hk, htag⟩

/-- The contours of a piece are removed, and their traces with them. -/
theorem removeContours (h : Enclosed own s₀ c ns) (hn : n ∈ ns) :
    Enclosed own s₀ (c.removeContours n) ns := by
  have hsurface : (c.removeContours n).surface = (c.contours n).foldl Surface.remove c.surface := rfl
  have hcontours : ∀ k ∈ c.contours n, k ∈ c.handles n := fun k hk => by
    obtain ⟨i, hi⟩ := mem_contours.mp hk
    exact mem_handles.mpr ⟨_, hi⟩
  refine ⟨h.same.trans ?_, ?_, fun m hm k hk => ?_, fun t ht hown => ?_⟩
  · exact .foldl_remove _ fun k hk => h.inside n hn k (hcontours k hk)
  · have hnext : (c.removeContours n).surface.nextTrace = c.surface.nextTrace :=
      foldl_keeps Surface.nextTrace (fun s k => by
        obtain ⟨a, f, q, l, heq⟩ := s.remove_frame k
        rw [heq]) _ c.surface
    rw [hnext]
    exact h.fresh
  · rw [hsurface, Surface.foreign_foldl_remove]
    exact h.inside m hm k (mem_handles_of_removeContours hk)
  · rw [hsurface] at ht ⊢
    obtain ⟨hfigure, hkept⟩ := Surface.mem_figure_foldl_remove _ ht
    obtain ⟨m, hm, k, hk, htag⟩ := h.covered t hfigure hown
    -- the handle of a trace that stays is none of the contours
    have hknot : k ∉ c.contours n := fun hmem => hkept k hmem htag
    refine ⟨m, hm, k, ?_, (Surface.tag?_foldl_remove _ hknot).trans htag⟩
    obtain ⟨a, ha⟩ := mem_handles.mp hk
    refine mem_handles.mpr ⟨a, spot?_removeContours.mpr ⟨ha, ?_⟩⟩
    rintro ⟨rfl, i, rfl⟩
    exact hknot (mem_contours.mpr ⟨i, ha⟩)

theorem move (h : Enclosed own s₀ c ns) (hn : n ∈ ns) (hm : Move n c c') :
    Enclosed own s₀ c' ns := by
  cases hm with
  | touch mem touch =>
    have hk := h.inside n hn _ mem
    exact h.retag (.touch touch) (.touch hk touch)
  | @attach p a shape put piece empty fits here others bare implicit =>
    let k := c.surface.handles.size
    let s := (c.surface.addHandle shape.mode shape).2
    have hnext : own c.surface.nextTrace = true := h.fresh _ (Nat.le_refl _)
    have hspot : ∀ m b, ¬(m = n ∧ b = a) →
        (({ c with surface := s } : Canvas).modify n put).spot? m b = c.spot? m b := fun m b hmb =>
      (spot?_attach piece here others s m b).trans (if_neg hmb)
    have hat : (({ c with surface := s } : Canvas).modify n put).spot? n a = some k :=
      (spot?_attach piece here others s n a).trans (if_pos ⟨rfl, rfl⟩)
    have hold : ∀ j tag, c.surface.tag? j = some tag → s.tag? j = some tag := by
      intro j tag hj
      rw [Surface.tag?_addHandle, if_neg]
      · exact hj
      · obtain ⟨l, hl, -⟩ := Option.map_eq_some_iff.mp hj
        exact Nat.ne_of_lt (Surface.handle?_lt hl)
    have hsame := h.same.trans (.addHandle hnext shape.mode shape)
    refine ⟨hsame, fun id hid => h.fresh id (Nat.le_of_succ_le hid), fun m hm j hj => ?_,
      fun t ht hown => ?_⟩
    · obtain ⟨b, hb⟩ := mem_handles.mp hj
      by_cases hmb : m = n ∧ b = a
      · obtain ⟨rfl, rfl⟩ := hmb
        obtain rfl : k = j := Option.some.inj (hat.symm.trans hb)
        refine Surface.not_foreign_of_own fun l hl => ?_
        replace hl : s.handle? k = some l := hl
        rw [Surface.handle?_addHandle, if_pos rfl] at hl
        cases hl
        exact hnext
      · rw [hspot m b hmb] at hb
        have hforeign := h.inside m hm j (mem_handles.mpr ⟨b, hb⟩)
        exact (congrFun (Surface.ChangesOnly.addHandle hnext shape.mode shape).foreign j).trans
          hforeign
    · rcases List.mem_append.mp ht with ht | ht
      · obtain ⟨m, hm, j, hj, htag⟩ := h.covered t ht hown
        obtain ⟨b, hb⟩ := mem_handles.mp hj
        refine ⟨m, hm, j, mem_handles.mpr ⟨b, (hspot m b ?_).trans hb⟩, hold j _ htag⟩
        -- the spot of the new handle was empty before
        rintro ⟨rfl, rfl⟩
        rw [spot?, piece, Option.bind_some, empty] at hb
        cases hb
      · obtain rfl := List.mem_singleton.mp ht
        refine ⟨n, hn, k, mem_handles.mpr ⟨a, hat⟩, ?_⟩
        exact (Surface.tag?_addHandle _ _ _ k).trans (if_pos rfl)
  | clear => exact h.removeContours hn

theorem moves (h : Enclosed own s₀ c ns) (hn : n ∈ ns) (hm : Moves n c c') :
    Enclosed own s₀ c' ns := by
  induction hm with
  | refl => exact h
  | tail _ hmove ih => exact ih.move hn hmove

/-! ## Drawing with a piece -/

theorem acquire {existing : Option PieceId} (h : Enclosed own s₀ c (existing.toList ++ rest))
    {kind : PieceKind} {family : Family} {c₁ : Canvas}
    (heq : c.acquire existing kind family = (existing.getD c.pieces.size, c₁)) :
    Enclosed own s₀ c₁ (existing.getD c.pieces.size :: rest) := by
  obtain rfl : (c.acquire existing kind family).2 = c₁ := congrArg Prod.snd heq
  cases existing with
  | none =>
    refine ⟨h.same, h.fresh, fun m hm k hk => ?_, fun t ht hown => ?_⟩
    · rw [handles_acquire_none] at hk
      rcases List.mem_cons.mp hm with rfl | hm
      · rw [Option.getD_none, handles_of_size_le (Nat.le_refl _)] at hk
        exact absurd hk List.not_mem_nil
      · exact h.inside m hm k hk
    · obtain ⟨m, hm, k, hk, htag⟩ := h.covered t ht hown
      exact ⟨m, List.mem_cons_of_mem _ hm, k, by rwa [handles_acquire_none], htag⟩
  | some n =>
    have hset : ∀ {c : Canvas}, Enclosed own s₀ c (n :: rest) →
        Enclosed own s₀ (c.modify n fun p => { p with kind, family := some family }) (n :: rest) :=
      fun h => h.modify n fun p a => by cases a with
        | part σ => cases σ <;> rfl
        | contour i => rfl
    show Enclosed own s₀ (c.acquire (some n) kind family).2 (n :: rest)
    unfold Canvas.acquire
    dsimp only
    split
    · exact hset (h.removeContours List.mem_cons_self)
    · exact hset h

/-- Drawing with a piece keeps to the traces of the pieces. -/
theorem uses {existing : Option PieceId} (h : Enclosed own s₀ c (existing.toList ++ rest))
    {kind : PieceKind} {family : Family} {Notes : Piece → Prop} {outcome : Outcome PieceId}
    (hu : c.Uses existing kind family Notes outcome) :
    match outcome with
    | (.ok n, c') => Enclosed own s₀ c' (n :: rest)
    | (.error _, c') => Enclosed own s₀ c' (existing.toList ++ rest) := by
  cases hu with
  | unread e => exact h
  | @parked e c₁ c' f acquired quiet idle clear =>
    have hnoted := (h.acquire acquired).modify (existing.getD c.pieces.size) quiet.spot
    have hparked : Enclosed own s₀ c' (existing.getD c.pieces.size :: rest) := by
      rcases clear with rfl | rfl
      · exact hnoted
      · exact hnoted.removeContours List.mem_cons_self
    cases existing with
    | some n => exact hparked
    | none =>
      -- a new piece that could not be drawn with has no handles
      refine hparked.drop (List.eq_nil_iff_forall_not_mem.mpr fun k hk => ?_)
      obtain rfl : (c.acquire none kind family).2 = c₁ := congrArg Prod.snd acquired
      have hbefore : k ∈ (c.acquire none kind family).2.handles c.pieces.size := by
        rcases clear with rfl | rfl
        · exact (mem_handles_modify quiet.spot).mp hk
        · exact (mem_handles_modify quiet.spot).mp (mem_handles_of_removeContours hk)
      rw [handles_acquire_none, handles_of_size_le (Nat.le_refl _)] at hbefore
      exact absurd hbefore List.not_mem_nil
  | drawn acquired quiet moves quiet' notes =>
    exact (((h.acquire acquired).modify _ quiet.spot).moves List.mem_cons_self moves).modify _
      quiet'.spot

end Enclosed

end Canvas

end Graphing
