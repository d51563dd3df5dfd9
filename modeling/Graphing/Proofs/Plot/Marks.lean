/-
  Graphing.Proofs.Plot.Marks

  The marks of excluded values.

  A mark is a hollow circle at a height, or a dashed line through the visible
  range.  Its piece has one part for each, and the part that is not needed is
  hidden: whatever the piece showed before, one of both is to be seen
  afterwards, and unless updates are suspended the figure shows it at once.

  The height is the limit of a function at the value.  Several functions can
  reach to the value, and only the first of them is asked.  So the mark is a
  line although a later function has a limit, just if the first one has none
  (`plotMark_marks`).
-/
import Graphing.Proofs.Evaluation.Finite
import Graphing.Proofs.Plot.Uses
import Graphing.Proofs.Surface.Live

namespace Graphing

/-! ## Handles that are shown at once -/

namespace Surface

variable {s s' : Surface} {k m : HandleId} {l : Handle} {σ : Part} {existing : Option HandleId}

theorem shown_setVisible (h : s.Coherent) (hdepth : s.depth = 0) (n : HandleId) (visible : Bool) :
    (s.setVisible n visible).Shown n := by
  have hmodify := (Grows.modify s n (.visible visible)).coherent h
  rw [setVisible, update_eq_draw (s := s.modify n _) hdepth]
  exact shown_draw hmodify n

/-- A handle stays up to date while another one is shown. -/
theorem Shown.setVisible (hm : s.Shown m) (h : s.Coherent) (hdepth : s.depth = 0) {n : HandleId}
    (hmn : m ≠ n) (visible : Bool) : (s.setVisible n visible).Shown m := by
  have hmodify := (Grows.modify s n (.visible visible)).coherent h
  have hkept : (s.modify n fun h => { h with visible }).Shown m := by
    intro k hk
    rw [handle?_modify, if_neg hmn.symm] at hk
    exact hm k hk
  rw [Surface.setVisible, update_eq_draw (s := s.modify n _) hdepth]
  exact hkept.draw hmodify n

theorem shape?_unhide (hl : s.handle? k = some l) : (s.unhide k).shape? k = some l.shape := by
  have hvisible : (s.unhide k).handle? k = some { l with visible := true } := by
    refine (handle?_modify_update s k _ k).trans ?_
    rw [if_pos rfl, hl]
    rfl
  rw [shape?, hvisible]
  rfl

theorem shape?_hide (s : Surface) (k : HandleId) : (s.hide k).shape? k = none := by
  have hhidden : (s.hide k).handle? k =
      (s.handle? k).map fun l => { l with visible := false } :=
    (handle?_modify_update s k _ k).trans (if_pos rfl)
  rw [shape?, hhidden]
  cases s.handle? k <;> rfl

theorem handle?_setVisible_of_ne {n : HandleId} (hmn : m ≠ n) (s : Surface) (visible : Bool) :
    (s.setVisible n visible).handle? m = s.handle? m :=
  (handle?_modify_update s n _ m).trans (if_neg hmn.symm)

/-! ## Handles that are supplied -/

theorem Touches.handle? (h : Touches k s s') (hm : m ≠ k) : s'.handle? m = s.handle? m := by
  induction h with
  | refl => rfl
  | tail _ htouch ih =>
    cases htouch with
    | modify gentle => rw [handle?_modify, if_neg hm.symm, ih]
    | update => rw [handle?_update, ih]

theorem Touches.depth (h : Touches k s s') : s'.depth = s.depth := by
  induction h with
  | refl => rfl
  | tail _ htouch ih =>
    cases htouch with
    | modify gentle => exact ih
    | update => exact (depth_update _ k).trans ih

/-- A handle for a part leaves the other handles alone. -/
theorem Supplies.handle? (h : s.Supplies σ existing k s') (hm : existing ≠ some m)
    {l : Handle} (hl : s.handle? m = some l) : m ≠ k ∧ s'.handle? m = some l := by
  cases h with
  | given touches =>
    have hmk : m ≠ k := fun hmk => hm (congrArg some hmk.symm)
    exact ⟨hmk, (touches.handle? hmk).trans hl⟩
  | made shape fits touches =>
    have hlt : m ≠ s.handles.size := Nat.ne_of_lt (handle?_lt hl)
    refine ⟨hlt, ?_⟩
    rw [touches.handle? hlt, handle?_addHandle, if_neg hlt, hl]

theorem Supplies.depth (h : s.Supplies σ existing k s') : s'.depth = s.depth := by
  cases h with
  | given touches => exact touches.depth
  | made shape fits touches => exact touches.depth

/-- The handle that is supplied is not removed, if the one that was there is not. -/
theorem Supplies.live (h : s.Supplies σ existing k s') (hold : s.Holds σ existing) :
    ∃ l, s'.handle? k = some l ∧ l.removed = false := by
  cases h with
  | given touches =>
    obtain ⟨l, hl, hlive, -⟩ := hold k rfl
    obtain ⟨l', hl', hremoved, -⟩ := (Grows.touches touches).handle k l hl
    exact ⟨l', hl', hremoved.trans hlive⟩
  | made shape fits touches =>
    have hnew : (s.addHandle shape.mode shape).2.handle? s.handles.size =
        some { trace := s.nextTrace, shape } := by
      rw [handle?_addHandle, if_pos rfl]
    obtain ⟨l', hl', hremoved, -⟩ := (Grows.touches touches).handle _ _ hnew
    exact ⟨l', hl', hremoved⟩

/-- A circle is to be seen where it was placed. -/
theorem shape?_placeCircle (hσ : ∀ g, σ.Fits g → ∃ m, g = .marker m) (h : s.Holds σ existing)
    (style : PlotStyle) (coords : Float × Float) (solid : Bool) :
    let placed := s.placeCircle coords solid style.color existing (some style.size)
    placed.2.shape? placed.1 = some (.circle style coords solid) := by
  intro placed
  cases existing with
  | none =>
    refine shape?_unhide (l := { trace := s.nextTrace, shape := .circle style coords solid }) ?_
    exact (handle?_addHandle s _ _ _).trans (if_pos rfl)
  | some k =>
    obtain ⟨l, hl, -, hfits⟩ := h k rfl
    obtain ⟨m, hm⟩ := hσ l.shape hfits
    refine shape?_unhide (l := { l with shape := .circle style coords solid }) ?_
    rw [handle?_modify, if_pos rfl, hl, Option.map_some, Handle.mapMarker, hm]
    rfl

theorem shown_placeCircle (h : s.Coherent) (hdepth : s.depth = 0) (coords : Float × Float)
    (solid : Bool) (color : String) (existing : Option HandleId) (size : Option Float) :
    let placed := s.placeCircle coords solid color existing size
    placed.2.Shown placed.1 := by
  cases existing with
  | none => exact shown_setVisible (h.addHandle rfl) hdepth _ true
  | some k =>
    have hmodify := (Grows.modify s k (Handle.Gentle.mapMarker fun m =>
      { m with coords }.configure { color := some color, solid := some solid, size })).coherent h
    exact shown_setVisible hmodify hdepth _ true

/-- A line is to be seen where it was placed, whether it is made first or not. -/
theorem shape?_wall (h : s.Holds .segment existing) (style : PlotStyle)
    (start finish : Float × Float) :
    let settings : SegmentSettings :=
      { color := some style.color, width := some style.width, dash := some dashedPattern }
    let made := match existing with
      | some h => (h, s)
      | none => s.newSegment start finish {}
    ((made.2.modify made.1 (Handle.mapSegment fun g =>
      { g with start, finish }.configure settings)).unhide made.1).shape? made.1 =
        some (.wall style start finish) := by
  intro settings made
  -- given or new, there is a segment that can be moved
  obtain ⟨l, g, hl, hg⟩ : ∃ l g, made.2.handle? made.1 = some l ∧ l.shape = .segment g := by
    cases existing with
    | none =>
      let g : Segment := ({ start, finish } : Segment).configure {}
      refine ⟨{ trace := s.nextTrace, shape := .segment g, visible := true }, g, ?_, rfl⟩
      have hnew := (s.handle?_addHandle "lines" (.segment g) s.handles.size).trans (if_pos rfl)
      refine (handle?_modify_update _ s.handles.size _ s.handles.size).trans ((if_pos rfl).trans ?_)
      exact congrArg (Option.map _) hnew
    | some k =>
      obtain ⟨l, hl, -, hfits⟩ := h k rfl
      cases hshape : l.shape with
      | segment g => exact ⟨l, g, hl, hshape⟩
      | curve g | marker g =>
        rw [hshape] at hfits
        exact hfits.elim
  refine shape?_unhide (l := { l with shape := .wall style start finish }) ?_
  rw [handle?_modify, if_pos rfl, hl, Option.map_some, Handle.mapSegment, hg]
  rfl

theorem shown_wall (h : s.Coherent) (hdepth : s.depth = 0) (start finish : Float × Float)
    (settings : SegmentSettings) (existing : Option HandleId) :
    let made := match existing with
      | some h => (h, s)
      | none => s.newSegment start finish {}
    ((made.2.modify made.1 (Handle.mapSegment fun g =>
      { g with start, finish }.configure settings)).unhide made.1).Shown made.1 := by
  intro made
  obtain ⟨hmade, hdepth'⟩ : made.2.Coherent ∧ made.2.depth = 0 := by
    cases existing with
    | none =>
      have hshow := touches_setVisible (s.addHandle "lines"
        (.segment (({ start, finish } : Segment).configure {}))).2 s.handles.size true
      exact ⟨(Grows.touches hshow).coherent (h.addHandle rfl), (Touches.depth hshow).trans hdepth⟩
    | some k => exact ⟨h, hdepth⟩
  have hmodify := touches_modify made.2 made.1 (Handle.Gentle.mapSegment fun g =>
    { g with start, finish }.configure settings)
  exact shown_setVisible ((Grows.touches hmodify).coherent hmade)
    ((Touches.depth hmodify).trans hdepth') _ true

/-- What is to be seen of a handle, and of another one that is hidden. -/
theorem seen?_hideSome (hs : s.Coherent) (hk : s.handle? k = some l) (hlive : l.removed = false)
    {shape : Shape} (hshape : s.shape? k = some shape) (hshown : s.depth = 0 → s.Shown k)
    {other : Option HandleId} (hother : ∀ j, other = some j → j ≠ k ∧ s.Live j) :
    (s.hideSome other).shape? k = some shape ∧ other.bind (s.hideSome other).shape? = none ∧
      ((s.hideSome other).depth = 0 →
        (s.hideSome other).seen? k = some shape.look ∧
          other.bind (s.hideSome other).seen? = none) := by
  cases other with
  | none =>
    refine ⟨hshape, rfl, fun hnow => ⟨?_, rfl⟩⟩
    show s.seen? k = some shape.look
    rw [(hshown hnow).seen?_eq hs hk hlive, hshape]
    rfl
  | some j =>
    obtain ⟨hjk, lj, hj, hjlive⟩ := hother j rfl
    have hgrows : s.Grows (s.hide j) := .touches (touches_setVisible s j false)
    obtain ⟨lj', hj', hremoved, -⟩ := hgrows.handle j lj hj
    have hkept : (s.hide j).handle? k = s.handle? k :=
      handle?_setVisible_of_ne hjk.symm s false
    have hshape' : (s.hide j).shape? k = some shape := by
      rw [shape?, hkept]
      exact hshape
    have hhidden : (s.hide j).shape? j = none := s.shape?_hide j
    refine ⟨hshape', hhidden, fun hnow => ?_⟩
    have hnow' : s.depth = 0 := (s.depth_hide j).symm.trans hnow
    -- hiding the one redraws that one only
    have hshownk : (s.hide j).Shown k := (hshown hnow').setVisible hs hnow' hjk.symm false
    have hshownj : (s.hide j).Shown j := shown_setVisible hs hnow' j false
    constructor
    · show (s.hide j).seen? k = some shape.look
      rw [hshownk.seen?_eq (hgrows.coherent hs) (hkept.trans hk) hlive, hshape']
      rfl
    · show (s.hide j).seen? j = none
      rw [hshownj.seen?_eq (hgrows.coherent hs) hj' (hremoved.trans hjlive), hhidden]
      rfl

end Surface

namespace Canvas

variable {c : Canvas} {n : PieceId} {existing : Option PieceId}

/-! ## The parts of a piece -/

/-- The handles of the parts of a piece: each is there, has the shape of its part and was not
removed, and none is at two parts. -/
structure OwnsParts (c : Canvas) (n : PieceId) : Prop where
  piece : ∃ p, c.piece? n = some p
  holds : ∀ σ, c.surface.Holds σ (c.spot? n (.part σ))
  apart : ∀ σ τ k, c.spot? n (.part σ) = some k → c.spot? n (.part τ) = some k → σ = τ

theorem Owned.ownsParts {ns : List PieceId} (h : c.Owned ns) (hn : n ∈ ns) : c.OwnsParts n where
  piece := h.exists_piece n hn
  holds σ k hk := h.live n hn (.part σ) k hk
  apart σ τ k hσ hτ := by
    cases (h.inj n hn n hn (.part σ) (.part τ) k hσ hτ).2
    rfl

namespace OwnsParts

/-- A change that keeps the handles of the parts. -/
theorem congr {c' : Canvas} (h : c.OwnsParts n) (hpiece : ∃ p, c'.piece? n = some p)
    (hspot : ∀ σ, c'.spot? n (.part σ) = c.spot? n (.part σ))
    (hhandle : ∀ σ k, c.spot? n (.part σ) = some k →
      c'.surface.handle? k = c.surface.handle? k) : c'.OwnsParts n where
  piece := hpiece
  holds σ k hk := by
    rw [hspot] at hk
    rw [hhandle σ k hk]
    exact h.holds σ k hk
  apart σ τ k hσ hτ := by
    rw [hspot] at hσ hτ
    exact h.apart σ τ k hσ hτ

/-- A change of what the piece notes. -/
theorem modify (h : c.OwnsParts n) {f : Piece → Piece} (hf : ∀ p (σ : Part), σ.get (f p) = σ.get p) :
    (c.modify n f).OwnsParts n := by
  obtain ⟨p, hp⟩ := h.piece
  refine h.congr ⟨f p, piece?_modify_self hp f⟩ (fun σ => ?_) fun _ _ _ => rfl
  rw [spot?_modify, if_pos rfl, spot?]
  exact congrArg (Option.bind (c.piece? n)) (funext fun p => hf p σ)

end OwnsParts

/-- The contours of a piece are no handles of its parts, so the parts outlast them. -/
theorem Owned.ownsParts_removeContours {ns : List PieceId} (h : c.Owned ns) (hn : n ∈ ns) :
    (c.removeContours n).OwnsParts n := by
  have hkept : ∀ σ k, c.spot? n (.part σ) = some k →
      ((c.contours n).foldl Surface.remove c.surface).handle? k = c.surface.handle? k := by
    intro σ k hk
    refine Surface.handle?_foldl_remove _ fun hmem => ?_
    -- a contour with the handle of a part would put it at two spots
    obtain ⟨i, hi⟩ := List.getElem?_of_mem hmem
    rw [contours_getElem?] at hi
    cases (h.inj n hn n hn (.part σ) (.contour i) k hk hi).2
  have hremoved : (c.onSurface fun s => (c.contours n).foldl Surface.remove s).OwnsParts n :=
    (h.ownsParts hn).congr (h.exists_piece n hn) (fun _ => rfl) hkept
  exact hremoved.modify fun p σ => by cases σ <;> rfl

/-- A piece that is taken into use keeps its parts; a new one has none. -/
theorem acquire_ownsParts (hcoherent : c.surface.Coherent) (h : c.Owned existing.toList)
    (kind : PieceKind) (family : Relation.Family) :
    ∃ c₁, c.acquire existing kind family = (existing.getD c.pieces.size, c₁) ∧
      c₁.surface.Coherent ∧ c₁.surface.frame = c.surface.frame ∧
      c₁.OwnsParts (existing.getD c.pieces.size) := by
  obtain ⟨c₁, hacquire, hframe⟩ := c.acquire_eq existing kind family
  obtain rfl : (c.acquire existing kind family).2 = c₁ := congrArg Prod.snd hacquire
  refine ⟨_, hacquire, ?_⟩
  cases existing with
  | none =>
    have hspot : ∀ a, (c.acquire none kind family).2.spot? c.pieces.size a = none := by
      intro a
      rw [spot?_acquire_none, spot?, piece?, Array.getElem?_eq_none (Nat.le_refl _)]
      rfl
    refine ⟨hcoherent, hframe, ⟨_, Array.getElem?_push_size⟩, fun σ k hk => ?_,
      fun σ τ k hk => ?_⟩
    · cases (hspot _).symm.trans hk
    · cases (hspot _).symm.trans hk
  | some n =>
    have hn : n ∈ (some n).toList := List.mem_singleton_self n
    have hset : ∀ p (σ : Part), σ.get { p with kind, family := some family } = σ.get p :=
      fun p σ => by cases σ <;> rfl
    unfold acquire
    dsimp only
    split
    · exact ⟨Surface.coherent_foldl_remove hcoherent _, c.frame_removeContours n,
        (h.ownsParts_removeContours hn).modify hset⟩
    · exact ⟨hcoherent, rfl, (h.ownsParts hn).modify hset⟩

/-! ## One part instead of another -/

/-- What the figure shows of a spot. -/
def lookAt (c : Canvas) (n : PieceId) (a : Spot) : Option Look :=
  (c.spot? n a).bind c.surface.seen?

/-- One part of a piece shows a shape, and another part nothing. In the figure this is to be seen
unless updates are suspended. -/
structure Swapped (c : Canvas) (n : PieceId) (σ τ : Part) (shape : Shape) : Prop where
  shows : c.shapeAt n (.part σ) = some shape
  hides : c.shapeAt n (.part τ) = none
  look : c.surface.depth = 0 →
    c.lookAt n (.part σ) = some shape.look ∧ c.lookAt n (.part τ) = none

/-- Give a part a handle that shows a shape, and hide the handle of another part. -/
theorem OwnsParts.swap (h : c.OwnsParts n) (hcoherent : c.surface.Coherent) {σ τ : Part}
    (hτ : τ ≠ σ) {k : HandleId} {s : Surface} {shape : Shape}
    (hsupplies : c.surface.Supplies σ (c.spot? n (.part σ)) k s)
    (hshape : s.shape? k = some shape) (hshown : c.surface.depth = 0 → s.Shown k) :
    (((c.give n σ k s).onSurface fun s => s.hideSome (c.spot? n (.part τ))).activate n).Swapped n σ τ
      shape := by
  obtain ⟨p, hp⟩ := h.piece
  obtain ⟨l, hl, hlive⟩ := hsupplies.live (h.holds σ)
  have hgiven : (c.give n σ k s).spot? n (.part σ) = some k := spot?_give_self hp σ k s
  have hother : (c.give n σ k s).spot? n (.part τ) = c.spot? n (.part τ) := spot?_give c n hτ k s
  -- the handle of the other part is not the one that was supplied
  have hapart : ∀ j, c.spot? n (.part τ) = some j → j ≠ k ∧ s.Live j := by
    intro j hj
    obtain ⟨l', hl', hlive', -⟩ := h.holds τ j hj
    obtain ⟨hjk, hj'⟩ := hsupplies.handle? (fun hσ => hτ (h.apart τ σ j hj hσ)) hl'
    exact ⟨hjk, l', hj', hlive'⟩
  obtain ⟨hshows, hhides, hlook⟩ := Surface.seen?_hideSome (hsupplies.grows.coherent hcoherent) hl
    hlive hshape (fun hnow => hshown (hsupplies.depth.symm.trans hnow)) hapart
  let last := (c.give n σ k s).onSurface fun s => s.hideSome (c.spot? n (.part τ))
  have hactive : ∀ a, (last.activate n).spot? n a = (c.give n σ k s).spot? n a :=
    fun a => spot?_modify_eq quiet_activate.spot last n n a
  show (last.activate n).Swapped n σ τ shape
  refine ⟨?_, ?_, fun hnow => ?_⟩
  · rw [shapeAt, hactive, hgiven]
    exact hshows
  · rw [shapeAt, hactive, hother]
    exact hhides
  · rw [lookAt, lookAt, hactive, hactive, hgiven, hother]
    exact hlook hnow

/-! ## The height of a mark -/

/-- The finite limits at a value, for each function on whose interval it lies. A hole of the interval
does not count, as it may be the very value. -/
def limitsAt (functions : List ((Float → Float) × Interval Float)) (value : Float) :
    List (Option Float) :=
  (functions.filter fun (_, i) => (i.withHole none).contains value).map fun (f, _) =>
    Option.guard Float.isFinite (Plot.limitValue f value)

variable {functions : List ((Float → Float) × Interval Float)} {value : Float}

/-- Only the first function on whose interval the value lies is asked. -/
theorem head?_limitsAt : (limitsAt functions value).head?.join =
    Option.guard Float.isFinite (markValue functions value) := by
  rw [limitsAt, List.head?_map, List.head?_filter, markValue]
  cases functions.find? fun (_, i) => (i.withHole none).contains value with
  | some f => rfl
  | none =>
    show none = Option.guard Float.isFinite Binary64.nan
    rw [Option.guard, Binary64.isFinite_nan, if_neg Bool.false_ne_true]

/-- The first of some values, and the first of them that is there, differ just if there are some
later ones only. -/
theorem findSome?_id_eq_join_head? {α : Type} (values : List (Option α)) :
    values.findSome? id = values.head?.join ↔
      values.head? = some none → ∀ y ∈ values, y = none := by
  cases values with
  | nil => exact ⟨fun _ _ y hy => absurd hy List.not_mem_nil, fun _ => rfl⟩
  | cons first rest =>
    cases first with
    | some y => exact ⟨fun _ h => (nomatch h), fun _ => rfl⟩
    | none =>
      -- the first value is missing, so all that matters is whether a later one is there
      constructor
      · intro h _ y hy
        exact List.findSome?_eq_none_iff.mp h y hy
      · intro h
        exact List.findSome?_eq_none_iff.mpr fun y hy => h rfl y hy

/-! ## Marks -/

/-- A mark at a value. With a height, a hollow circle is to be seen there and no line; without one, a
dashed line from the bottom to the top, and no circle. -/
def Marks (c : Canvas) (n : PieceId) (style : PlotStyle) (bounds : Contour.Domain Float)
    (value : Float) : Option Float → Prop
  | some y => c.Swapped n .hole .segment (.circle style (value, y) false)
  | none => c.Swapped n .segment .hole (.wall style (value, bounds.ymin) (value, bounds.ymax))

/-- A mark has one height, or none. -/
theorem Marks.height_eq {style : PlotStyle} {bounds : Contour.Domain Float} {y y' : Option Float}
    (h : c.Marks n style bounds value y) (h' : c.Marks n style bounds value y') : y' = y := by
  cases y with
  | none =>
    cases y' with
    | none => rfl
    | some y' => cases h'.shows.symm.trans h.hides
  | some y =>
    cases y' with
    | none => cases h'.hides.symm.trans h.shows
    | some y' =>
      cases h'.shows.symm.trans h.shows
      rfl

/-- A piece that owns the handles of its parts is marked at the height of the mark. -/
theorem plotMark_height (hcoherent : c.surface.Coherent) (howned : c.Owned existing.toList)
    (functions : List ((Float → Float) × Interval Float)) (value : Float) (style : PlotStyle) :
    ∃ c', c.plotMark value functions existing style = (existing.getD c.pieces.size, c') ∧
      c'.Marks (existing.getD c.pieces.size) style c.surface.bounds value
        (Option.guard Float.isFinite (markValue functions value)) := by
  obtain ⟨c₁, hacquire, hcoherent₁, hframe₁, hparts₁⟩ :=
    acquire_ownsParts hcoherent howned .asymptote .asymptote
  let note : Piece → Piece := fun p =>
    { p with
      relation := []
      restriction := ("x != " ++ Decimal.general value).toList
      interval := .punctured value }
  -- what the piece notes is no handle, so its parts and the surface stay
  have hparts : (c₁.modify (existing.getD c.pieces.size) note).OwnsParts _ :=
    hparts₁.modify fun p σ => by cases σ <;> rfl
  have hcoherent₂ : (c₁.modify (existing.getD c.pieces.size) note).surface.Coherent := hcoherent₁
  have hbounds : (c₁.modify (existing.getD c.pieces.size) note).surface.bounds =
      c.surface.bounds := congrArg Frame.bounds hframe₁
  rw [plotMark, hacquire, Option.guard]
  dsimp only
  generalize c₁.modify (existing.getD c.pieces.size) note = c₂ at hparts hcoherent₂ hbounds ⊢
  refine ⟨_, rfl, ?_⟩
  rw [← hbounds]
  split
  · exact hparts.swap (σ := .hole) (τ := .segment) hcoherent₂ (by decide)
      (Surface.supplies_placeCircle (σ := .hole) (fun _ => trivial) _ _ _ _ _ _)
      (Surface.shape?_placeCircle (InPlot.circle_of_fits (by decide)) (hparts.holds .hole) style _
        false)
      fun hnow => Surface.shown_placeCircle hcoherent₂ hnow _ _ _ _ _
  · exact hparts.swap (σ := .segment) (τ := .hole) hcoherent₂ (by decide)
      (Surface.supplies_wall c₂.surface _ _ _ _)
      (Surface.shape?_wall (hparts.holds .segment) style _ _)
      fun hnow => Surface.shown_wall hcoherent₂ hnow _ _ _ _

end Canvas
end Graphing
