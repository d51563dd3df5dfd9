/-
  Graphing.Proofs.Plot.Sound

  What holds of a canvas with any pieces at any time.

  Every handle at a spot exists, has the shape that belongs there, and is at no
  other spot of any piece: the canvas is `Sound`.  It is sound as a whole if
  none of these handles was removed either.  Drawing with a piece keeps this,
  and it `Spares` the other pieces with their handles.
-/
import Graphing.Proofs.Plot.Uses
import Graphing.Proofs.Surface.Live

open Graphing.Relation (Family)

namespace Graphing

theorem Spot.Fits.of_sameKind {a : Spot} {g g' : Shape} (hg : a.Fits g) (h : g.SameKind g') :
    a.Fits g' := by
  cases a with
  | part σ => exact Part.Fits.of_sameKind hg h
  | contour i => exact Part.Fits.of_sameKind (σ := .curve) hg h

namespace Canvas

variable {c c' c'' : Canvas} {n : PieceId} {whole : Prop}

/-! ## Sparing other pieces -/

/-- What is done with a piece leaves other pieces and their handles alone. -/
structure Spares (n : PieceId) (c c' : Canvas) : Prop where
  pieces : c.pieces.size ≤ c'.pieces.size
  piece : ∀ m, m ≠ n → c'.piece? m = c.piece? m
  size : c.surface.handles.size ≤ c'.surface.handles.size
  spot : ∀ k ∈ c'.handles n, k ∈ c.handles n ∨ c.surface.handles.size ≤ k
  handle : ∀ k, k < c.surface.handles.size → k ∉ c.handles n →
    c'.surface.handle? k = c.surface.handle? k

namespace Spares

theorem refl (n : PieceId) (c : Canvas) : Spares n c c :=
  ⟨Nat.le_refl _, fun _ _ => rfl, Nat.le_refl _, fun _ => .inl, fun _ _ _ => rfl⟩

theorem trans (h : Spares n c c') (h' : Spares n c' c'') : Spares n c c'' where
  pieces := Nat.le_trans h.pieces h'.pieces
  piece m hm := (h'.piece m hm).trans (h.piece m hm)
  size := Nat.le_trans h.size h'.size
  spot k hk := (h'.spot k hk).elim (h.spot k) fun hle => .inr (Nat.le_trans h.size hle)
  handle k hlt hk := by
    refine (h'.handle k (Nat.lt_of_lt_of_le hlt h.size) fun hmem => ?_).trans (h.handle k hlt hk)
    exact (h.spot k hmem).elim hk fun hle => absurd hlt (Nat.not_lt_of_le hle)

/-- A change of the piece alone. -/
theorem modify (c : Canvas) (n : PieceId) {f : Piece → Piece}
    (hf : ∀ p, ∀ k ∈ (f p).handles, k ∈ p.handles) : Spares n c (c.modify n f) := by
  refine ⟨Nat.le_of_eq (c.size_modify n f).symm, fun m hm => ?_, Nat.le_refl _, fun k hk => .inl ?_,
    fun _ _ _ => rfl⟩
  · rw [piece?_modify, if_neg hm.symm]
  · rw [handles, piece?_modify, if_pos rfl] at hk
    rw [handles]
    cases hp : c.piece? n with
    | none =>
      rw [hp] at hk
      exact absurd hk List.not_mem_nil
    | some p =>
      rw [hp] at hk
      exact hf p k hk

theorem note (c : Canvas) (n : PieceId) {f : Piece → Piece} (hf : Quiet f) :
    Spares n c (c.modify n f) := by
  refine modify c n fun p k hk => ?_
  obtain ⟨a, ha⟩ := Piece.mem_handles.mp hk
  exact Piece.mem_handles.mpr ⟨a, (hf.spot p a).symm.trans ha⟩

theorem removeContours (c : Canvas) (n : PieceId) : Spares n c (c.removeContours n) := by
  have hforget := modify c n (f := fun p => { p with contours := [] }) fun p k hk =>
    List.mem_append_left _ (by simpa [Piece.handles] using hk)
  refine ⟨hforget.pieces, hforget.piece, ?_, hforget.spot, fun k _ hk => ?_⟩
  · show _ ≤ (Surface.handles _).size
    exact Nat.le_of_eq (foldl_keeps (fun s : Surface => s.handles.size)
      Surface.size_handles_remove _ c.surface).symm
  · refine Surface.handle?_foldl_remove _ fun hmem => hk ?_
    unfold handles
    cases hp : c.piece? n with
    | none =>
      rw [hp] at hmem
      exact absurd hmem List.not_mem_nil
    | some p =>
      rw [hp] at hmem
      exact List.mem_append_right _ hmem

end Spares

theorem Move.spares (h : Move n c c') : Spares n c c' := by
  cases h with
  | @touch k s own touch =>
    have hother : s.handles.size = c.surface.handles.size ∧
        ∀ m, m ≠ k → s.handle? m = c.surface.handle? m := by
      cases touch with
      | @modify f gentle =>
        exact ⟨Array.size_modify, fun m hm =>
          (c.surface.handle?_modify k f m).trans (if_neg hm.symm)⟩
      | update =>
        exact ⟨by rw [Surface.handles_update], fun m _ => Surface.handle?_update _ _ _⟩
    exact ⟨Nat.le_refl _, fun _ _ => rfl, Nat.le_of_eq hother.1.symm, fun _ => .inl,
      fun m _ hm => hother.2 m fun heq => hm (heq ▸ own)⟩
  | @attach p a shape put piece empty fits here others bare implicit =>
    have hsize : (c.surface.addHandle shape.mode shape).2.handles.size =
        c.surface.handles.size + 1 := Array.size_push _
    refine ⟨Nat.le_of_eq (size_modify _ n put).symm, fun m hm => ?_, ?_, fun k hk => ?_,
      fun k hlt _ => ?_⟩
    · rw [piece?_modify, if_neg hm.symm]
      rfl
    · show _ ≤ (c.surface.addHandle shape.mode shape).2.handles.size
      rw [hsize]
      exact Nat.le_succ _
    · obtain ⟨b, hb⟩ := mem_handles.mp hk
      rw [spot?_attach piece here others] at hb
      split at hb
      · exact .inr (Nat.le_of_eq (Option.some.inj hb))
      · exact .inl (mem_handles.mpr ⟨b, hb⟩)
    · exact (Surface.handle?_addHandle _ _ _ k).trans (if_neg (Nat.ne_of_lt hlt))
  | clear => exact .removeContours c n

theorem Moves.spares (h : Moves n c c') : Spares n c c' := by
  induction h with
  | refl => exact .refl n c
  | tail _ hmove ih => exact ih.trans hmove.spares

theorem acquire_spares {existing : Option PieceId} {kind : PieceKind} {family : Family}
    {c₁ : Canvas} (h : c.acquire existing kind family = (existing.getD c.pieces.size, c₁)) :
    Spares (existing.getD c.pieces.size) c c₁ := by
  cases existing with
  | none =>
    obtain rfl : (c.acquire none kind family).2 = c₁ := congrArg Prod.snd h
    refine ⟨?_, fun m hm => (piece?_acquire_none kind family m).trans (if_neg hm), Nat.le_refl _,
      fun k hk => .inl ?_, fun _ _ _ => rfl⟩
    · show _ ≤ (c.pieces.push _).size
      rw [Array.size_push]
      exact Nat.le_succ _
    · obtain ⟨a, ha⟩ := mem_handles.mp hk
      exact mem_handles.mpr ⟨a, (spot?_acquire_none kind family _ a).symm.trans ha⟩
  | some n =>
    have hset : ∀ c : Canvas, Spares n c (c.modify n fun p =>
        { p with kind, family := some family }) := fun c => .modify c n fun p k hk => hk
    cases h
    show Spares n c (c.acquire (some n) kind family).2
    unfold acquire
    dsimp only
    split
    · exact (Spares.removeContours c n).trans (hset _)
    · exact hset c

theorem Uses.spares {existing : Option PieceId} {kind : PieceKind} {family : Family}
    {Notes : Piece → Prop} {outcome : Outcome PieceId}
    (h : c.Uses existing kind family Notes outcome) :
    Spares (existing.getD c.pieces.size) c outcome.2 := by
  cases h with
  | unread e => exact .refl _ c
  | parked e acquired quiet idle clear =>
    have hnoted := (acquire_spares acquired).trans (.note _ _ quiet)
    rcases clear with rfl | rfl
    · exact hnoted
    · exact hnoted.trans (.removeContours _ _)
  | drawn acquired quiet moves quiet' notes =>
    exact (((acquire_spares acquired).trans (.note _ _ quiet)).trans (Moves.spares moves)).trans
      (.note _ _ quiet')

theorem pieces_removePiecesOn (v : Validator) (c : Canvas) (ns : List PieceId) :
    (c.removePiecesOn v ns).2.pieces.size = c.pieces.size :=
  foldl_keeps (f := removePiece) (fun c : Canvas => c.pieces.size) (fun _ n => size_modify _ n _) ns
    (c.onSurface Surface.suspend)

theorem pieces_hidePieceOn (v : Validator) (c : Canvas) (n : PieceId) :
    (c.hidePieceOn v n).2.pieces.size = c.pieces.size := by
  unfold hidePieceOn
  split
  · exact size_modify _ n _
  · rfl

/-! ## Sound canvases -/

/-- Handles at spots exist, have the shapes that belong there, and are at no other spots. As a whole,
none of them was removed. -/
structure Sound (whole : Prop) (c : Canvas) : Prop where
  coherent : c.surface.Coherent
  /-- Nothing waits to be shown unless updates are suspended. -/
  idle : c.surface.depth = 0 → c.surface.queue = []
  known : ∀ n a k, c.spot? n a = some k →
    ∃ l, c.surface.handle? k = some l ∧ a.Fits l.shape ∧ (whole → l.removed = false)
  apart : ∀ m n a b k, c.spot? m a = some k → c.spot? n b = some k → m = n ∧ a = b
  implicit : ∀ n p, c.piece? n = some p → p.contours ≠ [] → p.family = some .implicit

namespace Sound

theorem known_lt (h : c.Sound whole) {k : HandleId} (hk : k ∈ c.handles n) :
    k < c.surface.handles.size := by
  obtain ⟨a, ha⟩ := mem_handles.mp hk
  obtain ⟨l, hl, -⟩ := h.known n a k ha
  exact Surface.handle?_lt hl

/-- As a whole, a canvas lacks no handle of its pieces. -/
theorem live (h : c.Sound True) (n : PieceId) : ∀ k ∈ c.handles n, c.surface.Live k := by
  intro k hk
  obtain ⟨a, ha⟩ := mem_handles.mp hk
  obtain ⟨l, hl, -, hlive⟩ := h.known n a k ha
  exact ⟨l, hl, hlive trivial⟩

/-- Pieces own their handles if none of these was removed. -/
theorem owned (h : c.Sound whole) {ns : List PieceId} (hnodup : ns.Nodup)
    (hns : ∀ n ∈ ns, n < c.pieces.size)
    (hlive : ∀ n ∈ ns, ∀ k ∈ c.handles n, c.surface.Live k) : c.Owned ns where
  nodup := hnodup
  exists_piece n hn := ⟨_, Array.getElem?_eq_getElem (hns n hn)⟩
  live n hn a k hk := by
    obtain ⟨l, hl, hfits, -⟩ := h.known n a k hk
    obtain ⟨l', hl', hremoved⟩ := hlive n hn k (mem_handles.mpr ⟨a, hk⟩)
    cases hl.symm.trans hl'
    exact ⟨l, hl, hremoved, hfits⟩
  inj m _ n _ a b k := h.apart m n a b k
  implicit n _ := h.implicit n

theorem mono {whole' : Prop} (h : c.Sound whole) (hw : whole' → whole) : c.Sound whole' where
  coherent := h.coherent
  idle := h.idle
  known n a k hk := by
    obtain ⟨l, hl, hfits, hlive⟩ := h.known n a k hk
    exact ⟨l, hl, hfits, fun hwhole => hlive (hw hwhole)⟩
  apart := h.apart
  implicit := h.implicit

/-- Whatever grows the surface keeps a canvas sound. -/
theorem onSurface (h : c.Sound whole) {s : Surface} (hs : c.surface.Grows s) :
    ({ c with surface := s } : Canvas).Sound whole where
  coherent := hs.coherent h.coherent
  idle := hs.idle h.idle
  known n a k hk := by
    obtain ⟨l, hl, hfits, hlive⟩ := h.known n a k hk
    obtain ⟨l', hl', hremoved, hkind⟩ := hs.handle k l hl
    exact ⟨l', hl', hfits.of_sameKind hkind, fun hw => hremoved.trans (hlive hw)⟩
  apart := h.apart
  implicit := h.implicit

/-- A piece that lists no more handles than before, in the spots where they were. -/
theorem disown (h : c.Sound whole) {f : Piece → Piece}
    (hspot : ∀ p (a : Spot) k, a.get (f p) = some k → a.get p = some k)
    (himplicit : ∀ p, c.piece? n = some p → (f p).contours ≠ [] → (f p).family = some .implicit) :
    (c.modify n f).Sound whole := by
  have hold : ∀ m a k, (c.modify n f).spot? m a = some k → c.spot? m a = some k := by
    intro m a k hk
    rw [spot?_modify] at hk
    split at hk
    · obtain ⟨p, hp, hget⟩ := Option.bind_eq_some_iff.mp hk
      exact (spot?_of_piece hp a).trans (hspot p a k hget)
    · exact hk
  refine ⟨h.coherent, h.idle, fun m a k hk => h.known m a k (hold m a k hk),
    fun m m' a b k ha hb => h.apart m m' a b k (hold m a k ha) (hold m' b k hb),
    fun m p hp hne => ?_⟩
  rw [piece?_modify] at hp
  split at hp
  · rename_i hm
    subst hm
    obtain ⟨q, hq, rfl⟩ := Option.map_eq_some_iff.mp hp
    exact himplicit q hq hne
  · exact h.implicit m p hp hne

theorem note (h : c.Sound whole) {f : Piece → Piece} (hf : Quiet f) :
    (c.modify n f).Sound whole := by
  refine h.disown (fun p a k hk => (hf.spot p a).symm.trans hk) fun p hp hne => ?_
  rw [hf.family]
  exact h.implicit n p hp fun hnil => hne ((hf.contours_eq p).trans hnil)

/-- Handles that are at no spot can be removed. -/
theorem foldl_remove (h : c.Sound whole) (ks : List HandleId)
    (hks : ∀ k ∈ ks, ∀ n a, c.spot? n a ≠ some k) :
    (c.onSurface fun s => ks.foldl Surface.remove s).Sound whole where
  coherent := Surface.coherent_foldl_remove h.coherent ks
  idle := Surface.idle_foldl_remove h.idle ks
  known n a k hk := by
    obtain ⟨l, hl, hrest⟩ := h.known n a k hk
    refine ⟨l, ?_, hrest⟩
    exact (Surface.handle?_foldl_remove ks fun hmem => hks k hmem n a hk).trans hl
  apart := h.apart
  implicit := h.implicit

/-- Any handle can be removed; then the canvas may not be sound as a whole any more. -/
theorem remove (h : c.Sound whole) (k : HandleId) :
    (c.onSurface fun s => s.remove k).Sound (whole ∧ ∀ n a, c.spot? n a ≠ some k) where
  coherent := h.coherent.remove k
  idle := Surface.idle_foldl_remove h.idle [k]
  known n a j hj := by
    obtain ⟨l, hl, hfits, hlive⟩ := h.known n a j hj
    obtain ⟨l', hl', -, hshape⟩ := Surface.handle?_remove_kind hl k
    refine ⟨l', hl', by rwa [hshape], fun hw => ?_⟩
    have hjk : j ≠ k := fun heq => hw.2 n a (heq ▸ hj)
    rw [Surface.handle?_remove hjk, hl] at hl'
    cases hl'
    exact hlive hw.1
  apart := h.apart
  implicit := h.implicit

theorem removeContours (h : c.Sound whole) (n : PieceId) : (c.removeContours n).Sound whole := by
  have hforget : (c.modify n fun p => { p with contours := [] }).Sound whole := by
    refine h.disown (fun p a k hk => ?_) fun _ _ hne => absurd rfl hne
    cases a with
    | part σ => cases σ <;> exact hk
    | contour i => cases hk
  refine hforget.foldl_remove (((c.piece? n).map (·.contours)).getD []) fun k hk m a ha => ?_
  obtain ⟨i, hi⟩ := List.getElem?_of_mem hk
  replace hi : c.spot? n (.contour i) = some k := (c.contours_getElem? n i).symm.trans hi
  -- the contour was the only spot of the handle, and it is not there any more
  rw [spot?_modify] at ha
  split at ha
  · rename_i hnm
    subst hnm
    obtain ⟨p, hp, hget⟩ := Option.bind_eq_some_iff.mp ha
    obtain ⟨⟨σ, rfl⟩, hget⟩ := Spot.get_forget hget
    cases (h.apart n n _ _ k ((spot?_of_piece hp _).trans hget) hi).2
  · rename_i hnm
    exact hnm (h.apart m n _ _ k ha hi).1.symm

theorem removePiece (h : c.Sound whole) (n : PieceId) : (c.removePiece n).Sound whole := by
  have hbare : ∀ (p : Piece) (a : Spot) k,
      a.get { p with
        curve := none, lower := none, upper := none, hole := none, point := none, segment := none
        contours := [], active := false } ≠ some k := by
    intro p a k hk
    cases a with
    | part σ => cases σ <;> cases hk
    | contour i => cases hk
  have hforget : (c.modify n fun p =>
      { p with
        curve := none, lower := none, upper := none, hole := none, point := none, segment := none
        contours := [], active := false }).Sound whole :=
    h.disown (fun p a k hk => absurd hk (hbare p a k)) fun _ _ hne => absurd rfl hne
  refine hforget.foldl_remove (c.handles n) fun k hk m a ha => ?_
  obtain ⟨b, hb⟩ := mem_handles.mp hk
  rw [spot?_modify] at ha
  split at ha
  · obtain ⟨p, -, hget⟩ := Option.bind_eq_some_iff.mp ha
    exact hbare p a k hget
  · rename_i hnm
    exact hnm (h.apart m n _ _ k ha hb).1.symm

theorem removePiecesOn (h : c.Sound whole) (v : Validator) (ns : List PieceId) :
    (c.removePiecesOn v ns).2.Sound whole := by
  have hrun : ∀ (ns : List PieceId) (c : Canvas), c.Sound whole →
      (ns.foldl Canvas.removePiece c).Sound whole := by
    intro ns
    induction ns with
    | nil => exact fun c hc => hc
    | cons n ns ih => exact fun c hc => ih _ (hc.removePiece n)
  exact (hrun ns _ (h.onSurface (.suspend c.surface))).onSurface (.resumeOn v _)

theorem hidePieceOn (h : c.Sound whole) (v : Validator) (n : PieceId) :
    (c.hidePieceOn v n).2.Sound whole := by
  have hgrows := Surface.Grows.each (fun s k => Surface.Grows.setVisibleOn v s k false)
    (c.handles n) c.surface
  unfold Canvas.hidePieceOn
  generalize Surface.each (fun s k => s.setVisibleOn v k false) (c.handles n) c.surface = shown
    at hgrows ⊢
  obtain ⟨_ | _, s⟩ := shown
  · exact h.onSurface hgrows
  · exact (h.onSurface hgrows).disown (fun p a k hk => by cases a <;> exact hk)
      fun p hp hne => h.implicit n p hp hne

theorem move (h : c.Sound whole) (hm : Move n c c') : c'.Sound whole := by
  cases hm with
  | touch own touch => exact h.onSurface (.touches (.single touch))
  | @attach p a shape put piece empty fits here others bare implicit =>
    let k := c.surface.handles.size
    let c₁ : Canvas := { c with surface := (c.surface.addHandle shape.mode shape).2 }
    have hgrown : c₁.Sound whole := h.onSurface (.addHandle _ rfl)
    have hnew : c₁.surface.handle? k = some { trace := c.surface.nextTrace, shape } := by
      rw [Surface.handle?_addHandle, if_pos rfl]
    -- a spot holds what it held before, or it is the one that got the new handle
    have hspot : ∀ m b j, (c₁.modify n put).spot? m b = some j →
        (c.spot? m b = some j ∧ j < k) ∨ m = n ∧ b = a ∧ j = k := by
      intro m b j hj
      rw [spot?_attach piece here others] at hj
      split at hj
      · rename_i hmb
        exact .inr ⟨hmb.1, hmb.2, (Option.some.inj hj).symm⟩
      · exact .inl ⟨hj, h.known_lt (mem_handles.mpr ⟨b, hj⟩)⟩
    refine ⟨hgrown.coherent, hgrown.idle, fun m b j hj => ?_, fun m m' b b' j hj hj' => ?_,
      fun m q hq hne => ?_⟩
    · rcases hspot m b j hj with ⟨hj, -⟩ | ⟨rfl, rfl, rfl⟩
      · exact hgrown.known m b j hj
      · exact ⟨_, hnew, fits, fun _ => rfl⟩
    · rcases hspot m b j hj with ⟨hj, hlt⟩ | ⟨rfl, rfl, rfl⟩ <;>
        rcases hspot m' b' _ hj' with ⟨hj', hlt'⟩ | ⟨rfl, rfl, heq⟩
      · exact h.apart m m' b b' j hj hj'
      · exact absurd hlt (Nat.not_lt_of_le (Nat.le_of_eq heq.symm))
      · exact absurd hlt' (Nat.lt_irrefl _)
      · exact ⟨rfl, rfl⟩
    · rw [piece?_modify] at hq
      split at hq
      · rename_i hnm
        subst hnm
        replace hq : (c.piece? n).map put = some q := hq
        rw [piece, Option.map_some] at hq
        cases hq
        rw [(Piece.fields_of_bare bare).2.1]
        exact (implicit hne).elim (h.implicit n p piece) id
      · exact h.implicit m q hq hne
  | clear => exact h.removeContours n

theorem moves (h : c.Sound whole) (hm : Moves n c c') : c'.Sound whole := by
  induction hm with
  | refl => exact h
  | tail _ hmove ih => exact ih.move hmove

theorem acquire (h : c.Sound whole) {existing : Option PieceId} {kind : PieceKind}
    {family : Family} {c₁ : Canvas}
    (heq : c.acquire existing kind family = (existing.getD c.pieces.size, c₁)) :
    c₁.Sound whole := by
  cases existing with
  | none =>
    obtain rfl : (c.acquire none kind family).2 = c₁ := congrArg Prod.snd heq
    have hspot : ∀ m a k, (c.acquire none kind family).2.spot? m a = some k →
        c.spot? m a = some k := fun m a k hk => (spot?_acquire_none kind family m a).symm.trans hk
    refine ⟨h.coherent, h.idle, fun m a k hk => h.known m a k (hspot m a k hk),
      fun m m' a b k ha hb => h.apart m m' a b k (hspot m a k ha) (hspot m' b k hb),
      fun m p hp hne => ?_⟩
    rw [piece?_acquire_none] at hp
    split at hp
    · cases hp
      exact absurd rfl hne
    · exact h.implicit m p hp hne
  | some n =>
    -- only an implicit piece may keep its contours
    have hset : ∀ {c : Canvas}, c.Sound whole →
        (∀ p, c.piece? n = some p → p.contours ≠ [] → family = .implicit) →
        (c.modify n fun p => { p with kind, family := some family }).Sound whole := by
      intro c hc himplicit
      refine hc.disown (fun p a k hk => ?_) fun p hp hne => congrArg some (himplicit p hp hne)
      cases a with
      | part σ => cases σ <;> exact hk
      | contour i => exact hk
    cases heq
    show (c.acquire (some n) kind family).2.Sound whole
    unfold Canvas.acquire
    dsimp only
    split
    · refine hset (h.removeContours n) fun p hp hne => ?_
      rw [Canvas.removeContours, piece?_modify, if_pos rfl] at hp
      obtain ⟨q, -, rfl⟩ := Option.map_eq_some_iff.mp hp
      exact absurd rfl hne
    · rename_i hkeep
      refine hset h fun p hp hne => ?_
      have hold := h.implicit n p hp hne
      rw [hp] at hkeep
      simpa [hold] using hkeep

/-- Drawing with a piece. -/
theorem uses (h : c.Sound whole) {existing : Option PieceId} {kind : PieceKind} {family : Family}
    {Notes : Piece → Prop} {outcome : Outcome PieceId}
    (hu : c.Uses existing kind family Notes outcome) : outcome.2.Sound whole := by
  cases hu with
  | unread e => exact h
  | parked e acquired quiet idle clear =>
    have hnoted := (h.acquire acquired).note (n := existing.getD c.pieces.size) quiet
    rcases clear with rfl | rfl
    · exact hnoted
    · exact hnoted.removeContours _
  | drawn acquired quiet moves quiet' notes =>
    exact (((h.acquire acquired).note quiet).moves moves).note quiet'

end Sound

end Canvas

end Graphing
