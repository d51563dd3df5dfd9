/-
  Graphing.Proofs.Plot.Display

  Showing a shape at a spot of a piece.

  Every family draws with three moves: a handle at a spot changes (`touch`), a
  new handle comes to a spot (`attach`), and handles that no piece lists any
  more are removed (`disown`, `removeContours`).  Each keeps a plot in
  progress, and everything that other pieces own.  `display` is the move that
  the parts of a piece have in common: it lets a part show a shape, or
  nothing.
-/
import Graphing.Plot.Drawing
import Graphing.Proofs.Plot.Ownership

open Graphing.Relation (Family)

namespace Graphing

/-! ## Shapes for handles -/

namespace Surface

variable {s : Surface} {m n : HandleId}

/-- Show a shape with a given handle, or with a new one. -/
def present (s : Surface) (existing : Option HandleId) (shape : Shape) : HandleId × Surface :=
  match existing with
  | some h => (h, (s.modify h fun k => { k with shape, visible := true }).update h)
  | none =>
    let (h, s) := s.addHandle shape.mode shape
    (h, s.unhide h)

/-- Show a shape if there is one; hide the given handle otherwise. -/
def presentSome (s : Surface) (existing : Option HandleId) (shape : Option Shape) :
    Option HandleId × Surface :=
  match shape with
  | some shape =>
    let (h, s) := s.present existing shape
    (some h, s)
  | none => (existing, s.hideSome existing)

theorem handle?_modify_update (s : Surface) (n : HandleId) (f : Handle → Handle) (m : HandleId) :
    ((s.modify n f).update n).handle? m = if n = m then (s.handle? m).map f else s.handle? m := by
  rw [handle?_update, handle?_modify]

/-! ### A new handle for a shape -/

theorem handle?_present_self (s : Surface) (shape : Shape) :
    (s.present none shape).2.handle? s.handles.size =
      some { trace := s.nextTrace, shape, visible := true } := by
  show (((s.addHandle shape.mode shape).2.modify s.handles.size _).update _).handle? _ = _
  rw [handle?_modify_update, if_pos rfl, handle?_addHandle, if_pos rfl]
  rfl

theorem handle?_present_of_lt (shape : Shape) (hm : m < s.handles.size) :
    (s.present none shape).2.handle? m = s.handle? m := by
  show (((s.addHandle shape.mode shape).2.modify s.handles.size _).update _).handle? m = _
  rw [handle?_modify_update, if_neg (Nat.ne_of_gt hm), handle?_addHandle,
    if_neg (Nat.ne_of_lt hm)]

theorem Coherent.present (h : s.Coherent) (shape : Shape) :
    (s.present none shape).2.Coherent := by
  have hnew : (s.addHandle shape.mode shape).2.Coherent := h.addHandle rfl
  have hshown := hnew.modify (n := s.handles.size) (f := fun k => { k with visible := true })
    fun _ _ => ⟨rfl, rfl, .refl _⟩
  exact hshown.update _

theorem mem_queue_present (hs : s.depth ≠ 0) (shape : Shape) (hm : m ∈ s.queue) :
    m ∈ (s.present none shape).2.queue :=
  mem_queue_update (s := (s.addHandle shape.mode shape).2.modify s.handles.size _) hs hm

theorem mem_queue_present_self (hs : s.depth ≠ 0) (shape : Shape) :
    s.handles.size ∈ (s.present none shape).2.queue := by
  have hnew := handle?_present_self s shape
  rw [show (s.present none shape).2 = ((s.addHandle shape.mode shape).2.modify s.handles.size
    fun k => { k with visible := true }).update s.handles.size from rfl, handle?_update] at hnew
  exact mem_queue_update_self hs hnew rfl

end Surface

namespace Canvas

variable {c : Canvas} {ns rest : List PieceId} {n : PieceId}

/-- Let a part of a piece show a shape, or nothing. -/
def display (c : Canvas) (n : PieceId) (σ : Part) (shape : Option Shape) : Canvas :=
  let shown := c.surface.presentSome (c.spot? n (.part σ)) shape
  ({ c with surface := shown.2 }).modify n (σ.set shown.1)

theorem spot?_modify (c : Canvas) (n : PieceId) (f : Piece → Piece) (m : PieceId) (a : Spot) :
    (c.modify n f).spot? m a = if n = m then (c.piece? m).bind (fun p => a.get (f p))
      else c.spot? m a := by
  rw [spot?, piece?_modify, spot?]
  split
  · cases c.piece? m <;> rfl
  · rfl

theorem spot?_modify_eq {f : Piece → Piece} (h : ∀ p (a : Spot), a.get (f p) = a.get p)
    (c : Canvas) (n m : PieceId) (a : Spot) : (c.modify n f).spot? m a = c.spot? m a := by
  rw [spot?_modify]
  split
  · exact congrArg (Option.bind (c.piece? m)) (funext fun p => h p a)
  · rfl

/-- Only contours go. -/
theorem spot?_removeContours {c : Canvas} {n m : PieceId} {a : Spot} {k : HandleId} :
    (c.removeContours n).spot? m a = some k ↔
      c.spot? m a = some k ∧ ¬(n = m ∧ ∃ i, a = .contour i) := by
  rw [removeContours, spot?_modify]
  split
  · rename_i hnm
    subst hnm
    show (c.piece? n).bind _ = _ ↔ _
    cases a with
    | part σ =>
      rw [and_iff_left (by rintro ⟨-, i, hi⟩; cases hi), spot?]
      cases σ <;> rfl
    | contour i =>
      refine iff_of_false (fun h => ?_) fun h => h.2 ⟨rfl, i, rfl⟩
      cases hp : c.piece? n <;> rw [hp] at h <;> cases h
  · rename_i hnm
    exact (and_iff_left fun h => hnm h.1).symm

theorem modify_eq_self {f : Piece → Piece} (h : (c.piece? n).map f = c.piece? n) :
    c.modify n f = c := by
  have : c.pieces.modify n f = c.pieces := by
    apply Array.ext_getElem?
    intro i
    rw [Array.getElem?_modify]
    split
    · rename_i hi
      subst hi
      exact h
    · rfl
  rw [modify, this]

theorem display_of_some {σ : Part} {shape : Option Shape} {k : HandleId}
    (hk : c.spot? n (.part σ) = some k)
    (hset : (c.piece? n).map (σ.set (some k)) = c.piece? n) :
    c.display n σ shape = c.onSurface fun s =>
      (s.modify k fun l =>
        { l with shape := shape.getD l.shape, visible := shape.isSome }).update k := by
  rw [display, hk]
  cases shape <;> exact modify_eq_self hset

theorem display_none_of_none {σ : Part} (hk : c.spot? n (.part σ) = none)
    (hset : (c.piece? n).map (σ.set none) = c.piece? n) : c.display n σ none = c := by
  rw [display, hk]
  exact modify_eq_self hset

theorem display_some_of_none {σ : Part} {g : Shape} (hk : c.spot? n (.part σ) = none) :
    c.display n σ (some g) =
      ({ c with surface := (c.surface.present none g).2 }).modify n
        (σ.set (some c.surface.handles.size)) := by
  rw [display, hk]
  rfl

/-- The handles of the contours of a piece. -/
def contours (c : Canvas) (n : PieceId) : List HandleId :=
  ((c.piece? n).map (·.contours)).getD []

/-- The contours of a piece that are to be seen. -/
def contourShapes (c : Canvas) (n : PieceId) : List Shape :=
  (c.contours n).filterMap c.surface.shape?

theorem contours_getElem? (c : Canvas) (n : PieceId) (i : Nat) :
    (c.contours n)[i]? = c.spot? n (.contour i) := by
  rw [contours, spot?]
  cases c.piece? n <;> rfl

/-! ## Changes at one spot -/

/-- A change of one spot of a piece, which keeps its other spots and other pieces. -/
structure ChangesAt (c c' : Canvas) (n : PieceId) (a : Spot) (rest : List PieceId) : Prop where
  keeps : Keeps c c' rest
  spot : ∀ b, b ≠ a → c'.spot? n b = c.spot? n b
  handle : ∀ b k, b ≠ a → c.spot? n b = some k → c'.surface.handle? k = c.surface.handle? k

theorem ChangesAt.shapeAt {c' : Canvas} {a b : Spot} (h : ChangesAt c c' n a rest) (hb : b ≠ a) :
    c'.shapeAt n b = c.shapeAt n b := by
  rw [Canvas.shapeAt, Canvas.shapeAt, h.spot b hb]
  cases hk : c.spot? n b with
  | none => rfl
  | some k =>
    rw [Option.bind_some, Option.bind_some, Surface.shape?, Surface.shape?, h.handle b k hb hk]

/-- What a piece shows depends on its handles only. -/
theorem contourShapes_congr {c' : Canvas}
    (hspot : ∀ i, c'.spot? n (.contour i) = c.spot? n (.contour i))
    (hhandle : ∀ i k, c.spot? n (.contour i) = some k →
      c'.surface.handle? k = c.surface.handle? k) : c'.contourShapes n = c.contourShapes n := by
  have hcontours : c'.contours n = c.contours n := by
    apply List.ext_getElem?
    intro i
    rw [contours_getElem?, contours_getElem?, hspot i]
  rw [contourShapes, contourShapes, hcontours]
  refine List.filterMap_congr fun k hk => ?_
  obtain ⟨i, hi⟩ := List.getElem?_of_mem hk
  rw [contours_getElem?] at hi
  rw [Surface.shape?, Surface.shape?, hhandle i k hi]

namespace InPlot

/-! ## A handle changes -/

/-- Change a handle of a piece, and queue it. -/
theorem touch (h : c.InPlot (n :: rest)) {a : Spot} {k : HandleId} (ha : c.spot? n a = some k)
    {f : Handle → Handle} (hf : ∀ l, (f l).trace = l.trace ∧ (f l).removed = l.removed)
    (hfits : ∀ l, a.Fits l.shape → a.Fits (f l).shape ∧ l.shape.SameKind (f l).shape) :
    (c.onSurface fun s => (s.modify k f).update k).InPlot (n :: rest) ∧
      ChangesAt c (c.onSurface fun s => (s.modify k f).update k) n a rest ∧
      (c.onSurface fun s => (s.modify k f).update k).surface.handle? k =
        (c.surface.handle? k).map f := by
  obtain ⟨l, hl, hlive, hlfits⟩ := h.owned.live n List.mem_cons_self a k ha
  have hdepth : (c.surface.modify k f).depth ≠ 0 := h.suspended
  have hmk : (c.surface.modify k f).handle? k = some (f l) := by
    rw [Surface.handle?_modify, if_pos rfl, hl]
    rfl
  have hmlive : (f l).removed = false := (hf l).2.trans hlive
  -- no other spot has this handle, so the handles there are as before
  have hother : ∀ m ∈ n :: rest, ∀ b j, c.spot? m b = some j → ¬(m = n ∧ b = a) →
      ((c.surface.modify k f).update k).handle? j = c.surface.handle? j := by
    intro m hm b j hj hne
    rw [Surface.handle?_modify_update, if_neg]
    rintro rfl
    exact hne (h.owned.inj m hm n List.mem_cons_self b a k hj ha)
  refine ⟨⟨?_, ?_, ⟨h.owned.nodup, h.owned.exists_piece, ?_, h.owned.inj, h.owned.implicit⟩, ?_⟩,
    ⟨⟨?_, ?_, fun _ _ => rfl, ?_⟩, fun _ _ => rfl, ?_⟩, ?_⟩
  · refine Surface.Coherent.update (h.coherent.modify fun l' hl' => ?_) k
    obtain rfl : l = l' := Option.some.inj (hl.symm.trans hl')
    exact ⟨(hf l).1, (hf l).2, (hfits l hlfits).2⟩
  · show ((c.surface.modify k f).update k).depth ≠ 0
    rw [Surface.depth_update]
    exact h.suspended
  · intro m hm b j hj
    show ∃ l, ((c.surface.modify k f).update k).handle? j = some l ∧ _
    by_cases hsame : m = n ∧ b = a
    · obtain ⟨rfl, rfl⟩ := hsame
      obtain rfl : k = j := Option.some.inj (ha.symm.trans hj)
      refine ⟨f l, ?_, hmlive, (hfits l hlfits).1⟩
      rw [Surface.handle?_update, hmk]
    · rw [hother m hm b j hj hsame]
      exact h.owned.live m hm b j hj
  · intro m hm b j hj
    exact Surface.mem_queue_update hdepth (h.queued m hm b j hj)
  · exact Surface.frame_update _ _
  · exact Surface.depth_update _ _
  · intro m hm b j hj
    refine hother m (List.mem_cons_of_mem n hm) b j hj ?_
    rintro ⟨rfl, -⟩
    exact h.not_mem hm
  · intro b j hb hj
    exact hother n List.mem_cons_self b j hj fun hsame => hb hsame.2
  · exact (Surface.handle?_modify_update _ _ _ _).trans (if_pos rfl)

/-! ## A handle is made -/

/-- Bring a new handle to an empty spot of a piece. -/
theorem attach (h : c.InPlot (n :: rest)) {p : Piece} (hp : c.piece? n = some p) (a : Spot)
    (shape : Shape) (put : Piece → Piece) (hfits : a.Fits shape) (hempty : a.get p = none)
    (ha : a.get (put p) = some c.surface.handles.size)
    (hother : ∀ b, b ≠ a → Spot.get (put p) b = b.get p)
    (himplicit : (put p).contours ≠ [] → (put p).family = some .implicit) :
    let c' := ({ c with surface := (c.surface.present none shape).2 }).modify n put
    c'.InPlot (n :: rest) ∧ ChangesAt c c' n a rest ∧ c'.shapeAt n a = some shape := by
  intro c'
  set k := c.surface.handles.size with hk
  have hnew : c'.surface.handle? k = some { trace := c.surface.nextTrace, shape, visible := true } :=
    c.surface.handle?_present_self shape
  have hold : ∀ m, m < k → c'.surface.handle? m = c.surface.handle? m := fun m hm =>
    Surface.handle?_present_of_lt shape hm
  have hlt : ∀ m ∈ n :: rest, ∀ b j, c.spot? m b = some j → j < k := by
    intro m hm b j hj
    obtain ⟨l, hl, -⟩ := h.owned.live m hm b j hj
    exact Surface.handle?_lt hl
  have hpiece : c'.piece? n = some (put p) :=
    piece?_modify_self (c := { c with surface := (c.surface.present none shape).2 }) hp put
  have hspot : ∀ b, c.spot? n b = b.get p := spot?_of_piece hp
  have hspot' : ∀ b, c'.spot? n b = b.get (put p) := spot?_of_piece hpiece
  -- a handle of the piece is the new one, or one that it had at the same spot
  have hcases : ∀ b j, Spot.get (put p) b = some j →
      b = a ∧ j = k ∨ b ≠ a ∧ c.spot? n b = some j ∧ j < k := by
    intro b j hj
    by_cases hb : b = a
    · rw [hb, ha] at hj
      exact .inl ⟨hb, (Option.some.inj hj).symm⟩
    · rw [hother b hb, ← hspot] at hj
      exact .inr ⟨hb, hj, hlt n List.mem_cons_self b j hj⟩
  have hkeeps : Keeps c c' rest := by
    refine ⟨Surface.frame_update _ _, Surface.depth_update _ _, ?_, ?_⟩
    · intro m hm
      show (({ c with surface := _ } : Canvas).modify n put).piece? m = _
      rw [piece?_modify, if_neg]
      · rfl
      · rintro rfl
        exact h.not_mem hm
    · intro m hm b j hj
      exact hold j (hlt m (List.mem_cons_of_mem n hm) b j hj)
  have hchanges : ChangesAt c c' n a rest := by
    refine ⟨hkeeps, ?_, ?_⟩
    · intro b hb
      rw [hspot', hspot, hother b hb]
    · intro b j _ hj
      exact hold j (hlt n List.mem_cons_self b j hj)
  have hat : c'.shapeAt n a = some shape := by
    rw [shapeAt, hspot', ha, Option.bind_some, Surface.shape?, hnew]
    rfl
  refine ⟨h.tail.cons hkeeps h.not_mem (h.coherent.present shape) ?_ hpiece ?_ ?_ ?_ ?_ himplicit,
    hchanges, hat⟩
  · intro m hm b j hj
    exact Surface.mem_queue_present h.suspended shape
      (h.queued m (List.mem_cons_of_mem n hm) b j hj)
  · intro b j hj
    rcases hcases b j hj with ⟨rfl, rfl⟩ | ⟨-, hj, hlt⟩
    · exact ⟨_, hnew, rfl, hfits⟩
    · rw [hold j hlt]
      exact h.owned.live n List.mem_cons_self b j hj
  · intro b j hj
    rcases hcases b j hj with ⟨rfl, rfl⟩ | ⟨-, hj, -⟩
    · exact Surface.mem_queue_present_self h.suspended shape
    · exact Surface.mem_queue_present h.suspended shape (h.queued n List.mem_cons_self b j hj)
  · intro b j hj m hm b' hj'
    rcases hcases b j hj with ⟨rfl, rfl⟩ | ⟨-, hj, -⟩
    · exact absurd (hlt m (List.mem_cons_of_mem n hm) b' _ hj') (Nat.lt_irrefl _)
    · obtain ⟨rfl, -⟩ := h.owned.inj n List.mem_cons_self m (List.mem_cons_of_mem n hm) b b' j hj hj'
      exact h.not_mem hm
  · intro b b' j hj hj'
    rcases hcases b j hj with ⟨rfl, rfl⟩ | ⟨-, hj, hlt⟩ <;>
      rcases hcases b' _ hj' with ⟨rfl, hk'⟩ | ⟨-, hj', hlt'⟩
    · rfl
    · exact absurd hlt' (Nat.lt_irrefl _)
    · exact absurd (hk' ▸ hlt) (Nat.lt_irrefl _)
    · exact (h.owned.inj n List.mem_cons_self n List.mem_cons_self b b' j hj hj').2

/-! ## Handles are left -/

/-- A piece that lists no more handles than before, in the spots where they were. -/
theorem disown (h : c.InPlot (n :: rest)) {f : Piece → Piece}
    (hspot : ∀ p, c.piece? n = some p → ∀ a : Spot, ∀ k, a.get (f p) = some k → a.get p = some k)
    (himplicit : ∀ p, c.piece? n = some p → (f p).contours ≠ [] →
      (f p).family = some .implicit) :
    (c.modify n f).InPlot (n :: rest) ∧ Keeps c (c.modify n f) rest := by
  obtain ⟨p, hp⟩ := h.owned.exists_piece n List.mem_cons_self
  have hget : ∀ a k, a.get (f p) = some k → c.spot? n a = some k := fun a k hk =>
    (spot?_of_piece hp a).trans (hspot p hp a k hk)
  have hkeeps : Keeps c (c.modify n f) rest := by
    refine ⟨rfl, rfl, ?_, fun _ _ _ _ _ => rfl⟩
    intro m hm
    rw [piece?_modify, if_neg]
    rintro rfl
    exact h.not_mem hm
  have hpiece := piece?_modify_self hp f
  refine ⟨h.tail.cons hkeeps h.not_mem h.coherent ?_ hpiece ?_ ?_ ?_ ?_ (himplicit p hp), hkeeps⟩
  · intro m hm a k hk
    exact h.queued m (List.mem_cons_of_mem n hm) a k hk
  · intro a k hk
    exact h.owned.live n List.mem_cons_self a k (hget a k hk)
  · intro a k hk
    exact h.queued n List.mem_cons_self a k (hget a k hk)
  · intro a k hk m hm b hb
    obtain ⟨rfl, -⟩ := h.owned.inj n List.mem_cons_self m (List.mem_cons_of_mem n hm) a b k
      (hget a k hk) hb
    exact h.not_mem hm
  · intro a b k ha hb
    exact (h.owned.inj n List.mem_cons_self n List.mem_cons_self a b k (hget a k ha)
      (hget b k hb)).2

/-- Remove a handle that none of the pieces owns. -/
theorem remove (h : c.InPlot ns) {k : HandleId} (hk : ∀ m ∈ ns, ∀ a, c.spot? m a ≠ some k) :
    (c.onSurface fun s => s.remove k).InPlot ns ∧
      Keeps c (c.onSurface fun s => s.remove k) ns := by
  have hne : ∀ m ∈ ns, ∀ a j, c.spot? m a = some j → j ≠ k := by
    rintro m hm a j hj rfl
    exact hk m hm a hj
  refine ⟨⟨h.coherent.remove k, ?_, ⟨h.owned.nodup, h.owned.exists_piece, ?_, h.owned.inj,
    h.owned.implicit⟩, ?_⟩, ⟨Surface.frame_remove _ _, Surface.depth_remove _ _,
    fun _ _ => rfl, ?_⟩⟩
  · show (c.surface.remove k).depth ≠ 0
    rw [Surface.depth_remove]
    exact h.suspended
  · intro m hm a j hj
    show ∃ l, (c.surface.remove k).handle? j = some l ∧ _
    rw [Surface.handle?_remove (hne m hm a j hj)]
    exact h.owned.live m hm a j hj
  · intro m hm a j hj
    exact Surface.mem_queue_remove (hne m hm a j hj) (h.queued m hm a j hj)
  · intro m hm a j hj
    exact Surface.handle?_remove (hne m hm a j hj)

theorem foldl_remove (h : c.InPlot ns) (ks : List HandleId)
    (hks : ∀ k ∈ ks, ∀ m ∈ ns, ∀ a, c.spot? m a ≠ some k) :
    (c.onSurface fun s => ks.foldl Surface.remove s).InPlot ns ∧
      Keeps c (c.onSurface fun s => ks.foldl Surface.remove s) ns := by
  induction ks generalizing c with
  | nil => exact ⟨h, .refl c ns⟩
  | cons k ks ih =>
    obtain ⟨hstep, hkeeps⟩ := h.remove (hks k List.mem_cons_self)
    obtain ⟨hrest, hkeeps'⟩ := ih hstep fun j hj => hks j (List.mem_cons_of_mem k hj)
    exact ⟨hrest, hkeeps.trans hkeeps'⟩

/-- Removing the contours of a piece keeps its parts. -/
theorem removeContours (h : c.InPlot (n :: rest)) :
    (c.removeContours n).InPlot (n :: rest) ∧ Keeps c (c.removeContours n) rest ∧
      (∀ σ, (c.removeContours n).shapeAt n (.part σ) = c.shapeAt n (.part σ)) ∧
      (c.removeContours n).piece? n =
        (c.piece? n).map fun p => { p with contours := [] } := by
  obtain ⟨p, hp⟩ := h.owned.exists_piece n List.mem_cons_self
  -- the piece forgets its contours first: then no piece lists the handles that are removed
  have heq : c.removeContours n =
      (c.modify n fun p => { p with contours := [] }).onSurface fun s =>
        (c.contours n).foldl Surface.remove s := rfl
  obtain ⟨hplot, hkeeps⟩ := h.disown (f := fun p => { p with contours := [] })
    (fun q _ a k hk => (Spot.get_forget hk).2) (fun q _ hne => absurd rfl hne)
  have hspot : ∀ a, (c.modify n fun p => { p with contours := [] }).spot? n a =
      a.get { p with contours := [] } := spot?_of_piece (piece?_modify_self hp _)
  obtain ⟨hplot', hkeeps'⟩ := hplot.foldl_remove (c.contours n) (by
    intro k hk m hm a ha
    obtain ⟨i, hi⟩ := List.getElem?_of_mem hk
    rw [contours_getElem?] at hi
    rcases List.mem_cons.mp hm with rfl | hm'
    · rw [hspot] at ha
      obtain ⟨⟨σ, rfl⟩, hget⟩ := Spot.get_forget ha
      cases (h.owned.inj m List.mem_cons_self m List.mem_cons_self _ _ k
        ((spot?_of_piece hp _).trans hget) hi).2
    · rw [hkeeps.spot? hm'] at ha
      obtain ⟨rfl, -⟩ := h.owned.inj m hm n List.mem_cons_self _ _ k ha hi
      exact h.not_mem hm')
  rw [heq]
  refine ⟨hplot', hkeeps.trans (Keeps.sublist hkeeps' (List.sublist_cons_self n rest)), ?_, ?_⟩
  · intro σ
    rw [hkeeps'.shapeAt List.mem_cons_self, shapeAt, hspot, shapeAt, spot?, hp]
    cases σ <;> rfl
  · rw [hkeeps'.piece n List.mem_cons_self, piece?_modify, if_pos rfl]

/-! ## A part shows something -/

/-- A part shows what it is told to show, and the rest of the piece stays. -/
theorem display (h : c.InPlot (n :: rest)) {σ : Part} {shape : Option Shape}
    (hfits : ∀ g, shape = some g → σ.Fits g) :
    (c.display n σ shape).InPlot (n :: rest) ∧
      ChangesAt c (c.display n σ shape) n (.part σ) rest ∧
      (c.display n σ shape).shapeAt n (.part σ) = shape ∧
      ∃ k, (c.display n σ shape).piece? n = (c.piece? n).map (σ.set k) := by
  obtain ⟨p, hp⟩ := h.owned.exists_piece n List.mem_cons_self
  have hself : ∀ k, c.spot? n (.part σ) = k → (c.piece? n).map (σ.set k) = c.piece? n := by
    rintro k rfl
    exact c.map_set_spot? n σ
  cases hk : c.spot? n (.part σ) with
  | some k =>
    -- the handle of the part is used again
    have hset := hself (some k) hk
    rw [display_of_some hk hset]
    obtain ⟨l, hl, hlive, hlfits⟩ := h.owned.live n List.mem_cons_self _ k hk
    obtain ⟨hplot, hchanges, hhandle⟩ := h.touch hk
      (f := fun l => { l with shape := shape.getD l.shape, visible := shape.isSome })
      (fun l => ⟨rfl, rfl⟩) (by
        intro l hl
        cases shape with
        | none => exact ⟨hl, .refl _⟩
        | some g => exact ⟨hfits g rfl, Part.Fits.sameKind hl (hfits g rfl)⟩)
    refine ⟨hplot, hchanges, ?_, some k, hset.symm⟩
    show (c.spot? n (.part σ)).bind (Surface.shape? _) = shape
    rw [hk, Option.bind_some, Surface.shape?, hhandle, hl]
    cases shape <;> rfl
  | none =>
    have hset := hself none hk
    cases shape with
    | none =>
      rw [display_none_of_none hk hset]
      refine ⟨h, ⟨.refl c rest, fun _ _ => rfl, fun _ _ _ _ => rfl⟩, ?_, none, hset.symm⟩
      rw [shapeAt, hk]
      rfl
    | some g =>
      -- the part gets a handle of its own
      rw [display_some_of_none hk]
      obtain ⟨hplot, hchanges, hshape⟩ := h.attach hp (.part σ) g
        (σ.set (some c.surface.handles.size)) (hfits g rfl) ((spot?_of_piece hp _).symm.trans hk)
        (Part.get_set_self σ _ p) (fun b hb => Spot.get_set_of_ne hb _ p)
        (by
          rw [Part.contours_set, Part.family_set]
          exact h.owned.implicit n List.mem_cons_self p hp)
      refine ⟨hplot, hchanges, hshape, some c.surface.handles.size, ?_⟩
      rw [piece?_modify, if_pos rfl]
      rfl

end InPlot

end Canvas
end Graphing
