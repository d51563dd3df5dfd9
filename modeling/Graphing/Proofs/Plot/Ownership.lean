/-
  Graphing.Proofs.Plot.Ownership

  Which handles a piece owns.

  A handle is found at a spot of a piece: one of its parts, or a place among
  its contours.  The pieces of a plot own their handles (`Owned`) if no handle
  is at two spots, and the handle at a spot is not removed and has the shape
  that belongs there.  While a plot is drawn, all handles of its pieces are
  queued besides (`InPlot`), so the end of the plot shows every one of them.
  Drawing with one piece keeps the others (`Keeps`).
-/
import Graphing.Plot.Piece
import Graphing.Proofs.Surface.Suspended

namespace Graphing

/-! ## Spots -/

/-- The parts of a piece that hold one handle. -/
inductive Part where
  | curve
  | lower
  | upper
  | hole
  | point
  | segment
  deriving Repr, DecidableEq

namespace Part

/-- The parts in the order in which a piece lists its handles. -/
def all : List Part := [.curve, .lower, .upper, .hole, .point, .segment]

/-- The handle of a part. -/
def get (p : Piece) : Part → Option HandleId
  | .curve => p.curve
  | .lower => p.lower
  | .upper => p.upper
  | .hole => p.hole
  | .point => p.point
  | .segment => p.segment

/-- Replace the handle of a part. -/
def set (σ : Part) (h : Option HandleId) (p : Piece) : Piece :=
  match σ with
  | .curve => { p with curve := h }
  | .lower => { p with lower := h }
  | .upper => { p with upper := h }
  | .hole => { p with hole := h }
  | .point => { p with point := h }
  | .segment => { p with segment := h }

/-- The shapes that belong to a part. -/
def Fits : Part → Shape → Prop
  | .curve, .curve _ => True
  | .lower, .marker _ | .upper, .marker _ | .hole, .marker _ | .point, .marker _ => True
  | .segment, .segment _ => True
  | _, _ => False

theorem get_set (σ τ : Part) (h : Option HandleId) (p : Piece) :
    get (σ.set h p) τ = if τ = σ then h else get p τ := by
  cases σ <;> cases τ <;> rfl

theorem get_set_self (σ : Part) (h : Option HandleId) (p : Piece) : get (σ.set h p) σ = h :=
  (get_set σ σ h p).trans (if_pos rfl)

theorem get_set_of_ne {σ τ : Part} (hτ : τ ≠ σ) (h : Option HandleId) (p : Piece) :
    get (σ.set h p) τ = get p τ :=
  (get_set σ τ h p).trans (if_neg hτ)

theorem contours_set (σ : Part) (h : Option HandleId) (p : Piece) :
    (σ.set h p).contours = p.contours := by
  cases σ <;> rfl

theorem family_set (σ : Part) (h : Option HandleId) (p : Piece) :
    (σ.set h p).family = p.family := by
  cases σ <;> rfl

theorem set_get (σ : Part) (p : Piece) : σ.set (get p σ) p = p := by
  cases σ <;> rfl

theorem Fits.sameKind {σ : Part} {a b : Shape} (ha : σ.Fits a) (hb : σ.Fits b) :
    a.SameKind b := by
  cases σ <;> cases a <;> cases b <;> first | exact trivial | exact ha.elim | exact hb.elim

theorem Fits.of_sameKind {σ : Part} {a b : Shape} (ha : σ.Fits a) (h : a.SameKind b) :
    σ.Fits b := by
  cases σ <;> cases a <;> cases b <;> first | exact trivial | exact ha.elim | exact h.elim

end Part

/-- Where a piece keeps a handle. -/
inductive Spot where
  | part (σ : Part)
  | contour (i : Nat)
  deriving Repr, DecidableEq

namespace Spot

/-- The handle at a spot. -/
def get (p : Piece) : Spot → Option HandleId
  | .part σ => σ.get p
  | .contour i => p.contours[i]?

/-- The shapes that belong to a spot. -/
def Fits : Spot → Shape → Prop
  | .part σ => σ.Fits
  | .contour _ => Part.curve.Fits

/-- A part is given a handle, and no other spot is. -/
theorem get_set_of_ne {a : Spot} {σ : Part} (ha : a ≠ .part σ) (h : Option HandleId) (p : Piece) :
    a.get (σ.set h p) = a.get p := by
  cases a with
  | part τ => exact Part.get_set_of_ne (fun hτ => ha (by rw [hτ])) h p
  | contour i => rw [get, Part.contours_set]; rfl

/-- Without contours a piece has the handles of its parts. -/
theorem get_forget {a : Spot} {p : Piece} {h : HandleId}
    (ha : a.get { p with contours := [] } = some h) : (∃ σ, a = .part σ) ∧ a.get p = some h := by
  cases a with
  | part σ => exact ⟨⟨σ, rfl⟩, by cases σ <;> exact ha⟩
  | contour i => cases ha

/-- A contour more is found after the others, and at no other spot. -/
theorem get_concat_of_ne {a : Spot} {p : Piece} (ha : a ≠ .contour p.contours.length)
    (h : HandleId) : a.get { p with contours := p.contours ++ [h] } = a.get p := by
  cases a with
  | part σ => cases σ <;> rfl
  | contour i =>
    have hi : i ≠ p.contours.length := fun hi => ha (by rw [hi])
    show (p.contours ++ [h])[i]? = p.contours[i]?
    rw [List.getElem?_append]
    split
    · rfl
    · rw [List.getElem?_eq_none (by simp; omega), List.getElem?_eq_none (by omega)]

end Spot

theorem Piece.handles_eq (p : Piece) : p.handles = Part.all.filterMap (Part.get p) ++ p.contours :=
  rfl

theorem Piece.mem_handles {p : Piece} {h : HandleId} :
    h ∈ p.handles ↔ ∃ a : Spot, a.get p = some h := by
  rw [handles_eq, List.mem_append, List.mem_filterMap]
  constructor
  · rintro (⟨σ, -, hσ⟩ | hc)
    · exact ⟨.part σ, hσ⟩
    · obtain ⟨i, hi⟩ := List.getElem?_of_mem hc
      exact ⟨.contour i, hi⟩
  · rintro ⟨a, ha⟩
    cases a with
    | part σ => exact .inl ⟨σ, by cases σ <;> simp [Part.all], ha⟩
    | contour i => exact .inr (List.mem_of_getElem? ha)

namespace Canvas

/-- The handle at a spot of a piece. -/
def spot? (c : Canvas) (n : PieceId) (a : Spot) : Option HandleId := (c.piece? n).bind a.get

theorem spot?_of_piece {c : Canvas} {n : PieceId} {p : Piece} (hp : c.piece? n = some p)
    (a : Spot) : c.spot? n a = a.get p := by
  rw [spot?, hp]
  rfl

theorem map_set_spot? (c : Canvas) (n : PieceId) (σ : Part) :
    (c.piece? n).map (σ.set (c.spot? n (.part σ))) = c.piece? n := by
  rw [spot?]
  cases c.piece? n with
  | none => rfl
  | some p => exact congrArg some (σ.set_get p)

theorem mem_handles {c : Canvas} {n : PieceId} {h : HandleId} :
    h ∈ c.handles n ↔ ∃ a, c.spot? n a = some h := by
  unfold handles spot?
  cases c.piece? n with
  | none => simp
  | some p => exact Piece.mem_handles

theorem piece?_modify (c : Canvas) (n : PieceId) (f : Piece → Piece) (m : PieceId) :
    (c.modify n f).piece? m = if n = m then (c.piece? m).map f else c.piece? m := by
  simp only [piece?, modify, Array.getElem?_modify]

theorem piece?_modify_self {c : Canvas} {n : PieceId} {p : Piece} (hp : c.piece? n = some p)
    (f : Piece → Piece) : (c.modify n f).piece? n = some (f p) := by
  rw [piece?_modify, if_pos rfl, hp]
  rfl

/-! ## Owned handles -/

/-- Pieces that own their handles. -/
structure Owned (c : Canvas) (ns : List PieceId) : Prop where
  nodup : ns.Nodup
  exists_piece : ∀ n ∈ ns, ∃ p, c.piece? n = some p
  live : ∀ n ∈ ns, ∀ a h, c.spot? n a = some h →
    ∃ k, c.surface.handle? h = some k ∧ k.removed = false ∧ a.Fits k.shape
  inj : ∀ m ∈ ns, ∀ n ∈ ns, ∀ a b h, c.spot? m a = some h → c.spot? n b = some h → m = n ∧ a = b
  /-- Only implicit relations have contours. -/
  implicit : ∀ n ∈ ns, ∀ p, c.piece? n = some p → p.contours ≠ [] → p.family = some .implicit

theorem Owned.nil (c : Canvas) : c.Owned [] := by
  refine ⟨List.nodup_nil, ?_, ?_, ?_, ?_⟩ <;> simp

theorem Owned.perm {c : Canvas} {ns ns' : List PieceId} (h : c.Owned ns) (hp : ns.Perm ns') :
    c.Owned ns' where
  nodup := hp.nodup_iff.mp h.nodup
  exists_piece n hn := h.exists_piece n (hp.mem_iff.mpr hn)
  live n hn := h.live n (hp.mem_iff.mpr hn)
  inj m hm n hn := h.inj m (hp.mem_iff.mpr hm) n (hp.mem_iff.mpr hn)
  implicit n hn := h.implicit n (hp.mem_iff.mpr hn)

theorem Owned.sublist {c : Canvas} {ns ns' : List PieceId} (h : c.Owned ns) (hs : ns'.Sublist ns) :
    c.Owned ns' where
  nodup := h.nodup.sublist hs
  exists_piece n hn := h.exists_piece n (hs.subset hn)
  live n hn := h.live n (hs.subset hn)
  inj m hm n hn := h.inj m (hs.subset hm) n (hs.subset hn)
  implicit n hn := h.implicit n (hs.subset hn)

/-! ## Plots in progress -/

/-- While a plot is drawn: updates are suspended, and the handles of the pieces are queued. -/
structure InPlot (c : Canvas) (ns : List PieceId) : Prop where
  coherent : c.surface.Coherent
  suspended : c.surface.depth ≠ 0
  owned : c.Owned ns
  queued : ∀ n ∈ ns, ∀ a h, c.spot? n a = some h → h ∈ c.surface.queue

/-- A change that keeps the given pieces, their handles and the frame. -/
structure Keeps (c c' : Canvas) (ns : List PieceId) : Prop where
  frame : c'.surface.frame = c.surface.frame
  depth : c'.surface.depth = c.surface.depth
  piece : ∀ n ∈ ns, c'.piece? n = c.piece? n
  handle : ∀ n ∈ ns, ∀ a h, c.spot? n a = some h → c'.surface.handle? h = c.surface.handle? h

/-- The shape that is to be seen at a spot. -/
def shapeAt (c : Canvas) (n : PieceId) (a : Spot) : Option Shape :=
  (c.spot? n a).bind c.surface.shape?

namespace Keeps

variable {c c' c'' : Canvas} {ns : List PieceId} {n : PieceId}

theorem refl (c : Canvas) (ns : List PieceId) : Keeps c c ns :=
  ⟨rfl, rfl, fun _ _ => rfl, fun _ _ _ _ _ => rfl⟩

theorem spot? (h : Keeps c c' ns) (hn : n ∈ ns) (a : Spot) : c'.spot? n a = c.spot? n a := by
  rw [Canvas.spot?, Canvas.spot?, h.piece n hn]

theorem sublist {ns' : List PieceId} (h : Keeps c c' ns) (hs : ns'.Sublist ns) : Keeps c c' ns' where
  frame := h.frame
  depth := h.depth
  piece n hn := h.piece n (hs.subset hn)
  handle n hn := h.handle n (hs.subset hn)

theorem trans (h : Keeps c c' ns) (h' : Keeps c' c'' ns) : Keeps c c'' ns where
  frame := h'.frame.trans h.frame
  depth := h'.depth.trans h.depth
  piece n hn := (h'.piece n hn).trans (h.piece n hn)
  handle n hn a k hk := by
    rw [h'.handle n hn a k (by rwa [h.spot? hn]), h.handle n hn a k hk]

theorem shapeAt (h : Keeps c c' ns) (hn : n ∈ ns) (a : Spot) :
    c'.shapeAt n a = c.shapeAt n a := by
  rw [Canvas.shapeAt, Canvas.shapeAt, h.spot? hn]
  cases ha : c.spot? n a with
  | none => rfl
  | some k =>
    rw [Option.bind_some, Option.bind_some, Surface.shape?, Surface.shape?, h.handle n hn a k ha]

end Keeps

namespace InPlot

variable {c c' : Canvas} {ns ns' rest : List PieceId} {n : PieceId}

theorem perm (h : c.InPlot ns) (hp : ns.Perm ns') : c.InPlot ns' where
  coherent := h.coherent
  suspended := h.suspended
  owned := h.owned.perm hp
  queued n hn := h.queued n (hp.mem_iff.mpr hn)

theorem sublist (h : c.InPlot ns) (hs : ns'.Sublist ns) : c.InPlot ns' where
  coherent := h.coherent
  suspended := h.suspended
  owned := h.owned.sublist hs
  queued n hn := h.queued n (hs.subset hn)

theorem tail (h : c.InPlot (n :: rest)) : c.InPlot rest := h.sublist (List.sublist_cons_self n rest)

theorem not_mem (h : c.InPlot (n :: rest)) : n ∉ rest := (List.nodup_cons.mp h.owned.nodup).1

/-- A piece that owns its handles joins pieces that are kept. -/
theorem cons (h : c.InPlot rest) (hk : Keeps c c' rest) (hn : n ∉ rest)
    (hcoherent : c'.surface.Coherent)
    (hqueue : ∀ m ∈ rest, ∀ a k, c.spot? m a = some k → k ∈ c'.surface.queue) {p : Piece}
    (hp : c'.piece? n = some p)
    (hlive : ∀ (a : Spot) k, a.get p = some k →
      ∃ l, c'.surface.handle? k = some l ∧ l.removed = false ∧ a.Fits l.shape)
    (hqueued : ∀ (a : Spot) k, a.get p = some k → k ∈ c'.surface.queue)
    (hapart : ∀ (a : Spot) k, a.get p = some k → ∀ m ∈ rest, ∀ b, c.spot? m b ≠ some k)
    (hinj : ∀ (a b : Spot) k, a.get p = some k → b.get p = some k → a = b)
    (himplicit : p.contours ≠ [] → p.family = some .implicit) : c'.InPlot (n :: rest) := by
  have hspot : ∀ a, c'.spot? n a = a.get p := spot?_of_piece hp
  refine ⟨hcoherent, by rw [hk.depth]; exact h.suspended, ⟨?_, ?_, ?_, ?_, ?_⟩, ?_⟩
  · exact List.nodup_cons.mpr ⟨hn, h.owned.nodup⟩
  · intro m hm
    rcases List.mem_cons.mp hm with rfl | hm
    · exact ⟨p, hp⟩
    · rw [hk.piece m hm]
      exact h.owned.exists_piece m hm
  · intro m hm a k hak
    rcases List.mem_cons.mp hm with rfl | hm
    · exact hlive a k (by rwa [← hspot])
    · rw [hk.spot? hm] at hak
      rw [hk.handle m hm a k hak]
      exact h.owned.live m hm a k hak
  · intro m hm m' hm' a b k hak hbk
    -- the new piece has no handle of the rest, and the rest stays apart
    rcases List.mem_cons.mp hm with rfl | hr <;> rcases List.mem_cons.mp hm' with rfl | hr'
    · exact ⟨rfl, hinj a b k (by rwa [← hspot]) (by rwa [← hspot])⟩
    · rw [hk.spot? hr'] at hbk
      exact absurd hbk (hapart a k (by rwa [← hspot]) m' hr' b)
    · rw [hk.spot? hr] at hak
      exact absurd hak (hapart b k (by rwa [← hspot]) m hr a)
    · rw [hk.spot? hr] at hak
      rw [hk.spot? hr'] at hbk
      exact h.owned.inj m hr m' hr' a b k hak hbk
  · intro m hm q hq
    rcases List.mem_cons.mp hm with rfl | hm
    · obtain rfl : p = q := Option.some.inj (hp.symm.trans hq)
      exact himplicit
    · rw [hk.piece m hm] at hq
      exact h.owned.implicit m hm q hq
  · intro m hm a k hak
    rcases List.mem_cons.mp hm with rfl | hm
    · exact hqueued a k (by rwa [← hspot])
    · rw [hk.spot? hm] at hak
      exact hqueue m hm a k hak

end InPlot

end Canvas

end Graphing
