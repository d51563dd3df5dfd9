/-
  Graphing.Proofs.Plot.Moves

  Drawing with a piece, move by move.

  Whatever a family does to draw with a piece, it does by moves of three kinds:
  a handle of the piece is changed or shown, a new handle comes to an empty
  spot, or the contours are removed.  What one `Move` keeps, all `Moves` keep;
  so a property of canvases is proved for three moves instead of for every way
  of drawing.
-/
import Graphing.Proofs.Plot.Draft
import Graphing.Proofs.Surface.Refusal

namespace Graphing

/-! ## Handles for parts -/

namespace Surface

/-- A part of a piece keeps its handle, or gets a new one, which is then touched. -/
inductive Supplies (s : Surface) (σ : Part) : Option HandleId → HandleId → Surface → Prop
  | given {k : HandleId} {s' : Surface} (touches : Touches k s s') : Supplies s σ (some k) k s'
  | made (shape : Shape) {s' : Surface} (fits : σ.Fits shape)
      (touches : Touches s.handles.size (s.addHandle shape.mode shape).2 s') :
      Supplies s σ none s.handles.size s'

/-- Circles are made or moved. -/
theorem supplies_placeCircle {σ : Part} (hσ : ∀ m, σ.Fits (.marker m)) (s : Surface)
    (coords : Float × Float) (solid : Bool) (color : String) (existing : Option HandleId)
    (size : Option Float) :
    Supplies s σ existing (s.placeCircle coords solid color existing size).1
      (s.placeCircle coords solid color existing size).2 := by
  cases existing with
  | none =>
    exact .made (.marker (({ coords } : Marker).configure _)) (hσ _)
      (touches_setVisible _ _ true)
  | some k =>
    exact .given ((touches_modify s k (.mapMarker _)).trans (touches_setVisible _ k true))

/-- Dashed lines are made or moved. -/
theorem supplies_wall (s : Surface) (start finish : Float × Float) (settings : SegmentSettings)
    (existing : Option HandleId) :
    let made := match existing with
      | some h => (h, s)
      | none => s.newSegment start finish {}
    Supplies s .segment existing made.1 ((made.2.modify made.1
      (Handle.mapSegment fun g => { g with start, finish }.configure settings)).unhide made.1) := by
  have htouches : ∀ (s : Surface) (k : HandleId), s.Touches k ((s.modify k
      (Handle.mapSegment fun g => { g with start, finish }.configure settings)).unhide k) :=
    fun s k => (Surface.touches_modify s k (.mapSegment _)).trans
      (Surface.touches_setVisible _ k true)
  cases existing with
  | none =>
    exact .made (.segment (({ start, finish } : Segment).configure {})) trivial
      ((Surface.touches_setVisible _ _ true).trans (htouches _ _))
  | some k => exact .given (htouches _ _)

/-- Touching makes no handle. -/
theorem size_handles_of_touches {s s' : Surface} {k : HandleId} (h : Touches k s s') :
    s'.handles.size = s.handles.size := by
  induction h with
  | refl => rfl
  | tail _ htouch ih =>
    cases htouch with
    | modify gentle => exact Array.size_modify.trans ih
    | update => rw [handles_update, ih]

theorem Supplies.grows {s s' : Surface} {σ : Part} {existing : Option HandleId} {k : HandleId}
    (h : Supplies s σ existing k s') : Grows s s' := by
  cases h with
  | given touches => exact .touches touches
  | made _ fits touches => exact (Grows.addHandle s rfl).trans (.touches touches)

/-- Circles at coordinates as they were read. -/
theorem Grows.placeCircleAtOn (v : Validator) (s : Surface) (coords : List Float) (solid : Bool)
    (color : String) (existing : Option HandleId) (size : Option Float) :
    Grows s (s.placeCircleAtOn v coords solid color existing size).2 := by
  unfold Surface.placeCircleAtOn
  cases existing with
  | none => exact .createMarkerOn v s coords _
  | some h =>
    dsimp only
    cases pair? coords with
    | error e => exact .refl s
    | ok point => exact .thenShow ((modify s h (.mapMarker _)).trans (.setVisibleOn v _ h true)) _

end Surface

/-! ## Moves -/

/-- A piece without its handles. -/
def Piece.bare (p : Piece) : Piece :=
  { p with
    curve := none, lower := none, upper := none, hole := none, point := none, segment := none
    contours := [] }

theorem Piece.fields_of_bare {p q : Piece} (h : q.bare = p.bare) :
    q.kind = p.kind ∧ q.family = p.family ∧ q.relation = p.relation ∧
      q.restriction = p.restriction ∧ q.interval = p.interval ∧ q.active = p.active := by
  cases p
  cases q
  simp only [Piece.bare, Piece.mk.injEq] at h
  simp [h]

theorem Part.bare_set (σ : Part) (h : Option HandleId) (p : Piece) :
    (σ.set h p).bare = p.bare := by
  cases σ <;> rfl

namespace Canvas

variable {c c' : Canvas} {n : PieceId}

/-- What is done to a piece, and to the surface for its sake. -/
inductive Move (n : PieceId) (c : Canvas) : Canvas → Prop
  /-- A handle of the piece is touched. -/
  | touch {k : HandleId} {s : Surface} (own : k ∈ c.handles n) (touch : c.surface.Touch k s) :
    Move n c { c with surface := s }
  /-- A new handle comes to an empty spot. Only implicit relations get contours. -/
  | attach {p : Piece} {a : Spot} {shape : Shape} {put : Piece → Piece}
      (piece : c.piece? n = some p) (empty : a.get p = none) (fits : a.Fits shape)
      (here : a.get (put p) = some c.surface.handles.size)
      (others : ∀ b, b ≠ a → Spot.get (put p) b = b.get p) (bare : (put p).bare = p.bare)
      (implicit : (put p).contours ≠ [] → p.contours ≠ [] ∨ p.family = some .implicit) :
    Move n c
      (({ c with surface := (c.surface.addHandle shape.mode shape).2 }).modify n put)
  /-- The contours are removed. -/
  | clear : Move n c (c.removeContours n)

/-- A new handle comes to its spot, and to no other. -/
theorem spot?_attach {p : Piece} {a : Spot} {put : Piece → Piece} (hp : c.piece? n = some p)
    {k : HandleId} (here : a.get (put p) = some k)
    (others : ∀ b, b ≠ a → Spot.get (put p) b = b.get p) (s : Surface) (m : PieceId) (b : Spot) :
    (({ c with surface := s } : Canvas).modify n put).spot? m b =
      if m = n ∧ b = a then some k else c.spot? m b := by
  rw [spot?_modify]
  show (if n = m then (c.piece? m).bind fun p => b.get (put p) else c.spot? m b) = _
  by_cases hmn : m = n
  · subst hmn
    rw [if_pos rfl, hp, Option.bind_some]
    by_cases hba : b = a
    · rw [hba, here, if_pos ⟨rfl, rfl⟩]
    · rw [others b hba, if_neg fun h => hba h.2, spot?, hp, Option.bind_some]
  · rw [if_neg (Ne.symm hmn), if_neg fun h => hmn h.1]

/-- Any number of moves. -/
abbrev Moves (n : PieceId) : Canvas → Canvas → Prop := Relation.ReflTransGen (Move n)

/-- Moves keep what a piece notes. -/
theorem Move.bare (h : Move n c c') :
    (c'.piece? n).map Piece.bare = (c.piece? n).map Piece.bare := by
  cases h with
  | touch own touch => rfl
  | @attach p a shape put piece empty fits here others bare implicit =>
    rw [piece?_modify, if_pos rfl]
    show ((c.piece? n).map put).map Piece.bare = _
    rw [piece, Option.map_some, Option.map_some, Option.map_some, bare]
  | clear =>
    rw [removeContours, piece?_modify, if_pos rfl]
    show ((c.piece? n).map _).map Piece.bare = _
    cases c.piece? n <;> rfl

theorem Moves.bare (h : Moves n c c') :
    (c'.piece? n).map Piece.bare = (c.piece? n).map Piece.bare := by
  induction h with
  | refl => rfl
  | tail _ hmove ih => exact hmove.bare.trans ih

theorem Moves.exists_piece (h : Moves n c c') {p : Piece} (hp : c.piece? n = some p) :
    ∃ q, c'.piece? n = some q ∧ q.bare = p.bare := by
  have hbare := h.bare
  rw [hp, Option.map_some] at hbare
  exact Option.map_eq_some_iff.mp hbare

/-- Touching a handle of the piece. -/
theorem moves_touch {k : HandleId} (hk : k ∈ c.handles n) {s : Surface}
    (h : c.surface.Touches k s) : Moves n c { c with surface := s } := by
  induction h with
  | refl => exact .refl
  | tail _ htouch ih => exact ih.tail (.touch (c := { c with surface := _ }) hk htouch)

/-- A part is given the handle that it has, or a new one. -/
theorem moves_give {p : Piece} (hp : c.piece? n = some p) {σ : Part} {k : HandleId} {s : Surface}
    (h : c.surface.Supplies σ (c.spot? n (.part σ)) k s) : Moves n c (c.give n σ k s) := by
  generalize hexisting : c.spot? n (.part σ) = existing at h
  cases h with
  | given touches =>
    have hset : (({ c with surface := s } : Canvas).piece? n).map (σ.set (some k)) =
        ({ c with surface := s } : Canvas).piece? n := by
      show (c.piece? n).map _ = c.piece? n
      rw [← hexisting, map_set_spot?]
    rw [give, modify_eq_self hset]
    exact moves_touch (mem_handles.mpr ⟨_, hexisting⟩) touches
  | @made shape s' fits touches =>
    let c₁ := c.give n σ c.surface.handles.size (c.surface.addHandle shape.mode shape).2
    have hattach : Move n c c₁ := by
      refine .attach hp (a := .part σ) ((spot?_of_piece hp _).symm.trans hexisting) fits
        (Part.get_set_self σ _ p) (fun b hb => Spot.get_set_of_ne hb _ p) (Part.bare_set _ _ _) ?_
      rw [Part.contours_set]
      exact .inl
    have hmem : c.surface.handles.size ∈ c₁.handles n :=
      mem_handles.mpr ⟨.part σ, spot?_give_self hp σ _ _⟩
    exact (moves_touch hmem touches).head hattach

/-! ## What families do -/

/-- Show the circle at one bound. -/
def boundCircle (c : Canvas) (n : PieceId) (σ : Part) (bound : Float) (closed : Bool)
    (view : Float × Float) (place : Float → Float × Float) (style : PlotStyle) : Canvas :=
  let placed := c.surface.placeBound bound closed view place style (c.spot? n (.part σ))
  ({ c with surface := placed.2 }).modify n (σ.set placed.1)

/-- The circles at both bounds are placed one after the other. -/
theorem placeBounds_eq_circles (c : Canvas) (n : PieceId) (interval : Interval Float)
    (view : Float × Float) (place : Float → Float × Float) (style : PlotStyle) :
    c.placeBounds n interval view place style =
      (c.boundCircle n .lower interval.lower interval.lowerClosed view place style).boundCircle n
        .upper interval.upper interval.upperClosed view place style := by
  have hspot : (c.boundCircle n .lower interval.lower interval.lowerClosed view place style).spot? n
      (.part .upper) = c.spot? n (.part .upper) := by
    rw [boundCircle, spot?_modify, if_pos rfl]
    show (c.piece? n).bind _ = (c.piece? n).bind _
    cases c.piece? n <;> rfl
  rw [boundCircle, hspot]
  show _ = (({ c with surface := _ } : Canvas).modify n (Part.lower.set _)).modify n _
  rw [modify_modify]
  rfl

/-- The curve of a piece is made, or changed. -/
theorem supplies_useCurve (c : Canvas) (n : PieceId) (style : PlotStyle) (mode : String) :
    ∃ k s, c.useCurve n style mode = (k, c.give n .curve k s) ∧
      c.surface.Supplies .curve (c.spot? n (.part .curve)) k s := by
  have hgentle : ∀ settings : CurveSettings, Handle.Gentle fun handle : Handle =>
      { handle.mapCurve (fun curve => curve.configure settings) with visible := true } :=
    fun settings => Handle.Gentle.mapCurve fun curve => curve.configure settings
  have hof : (c.piece? n).bind (·.curve) = c.spot? n (.part .curve) := rfl
  rw [useCurve, hof]
  cases c.spot? n (.part .curve) with
  | none =>
    exact ⟨_, _, rfl, .made (.curve (({} : Curve).configure {})) trivial
      (Surface.touches_modify _ _ (hgentle _))⟩
  | some k => exact ⟨_, _, rfl, .given (Surface.touches_modify _ _ (hgentle _))⟩

section

variable {p : Piece} (hp : c.piece? n = some p)

include hp

theorem moves_useCurve (style : PlotStyle) (mode : String) :
    Moves n c (c.useCurve n style mode).2 ∧
      (c.useCurve n style mode).1 ∈ (c.useCurve n style mode).2.handles n := by
  obtain ⟨k, s, hgive, hsupplies⟩ := c.supplies_useCurve n style mode
  rw [hgive]
  exact ⟨moves_give hp hsupplies, mem_handles.mpr ⟨.part .curve, spot?_give_self hp .curve k s⟩⟩

theorem moves_showData (style : PlotStyle) (mode : String) (xs ys : List Float) :
    Moves n c (c.showData n style mode xs ys) := by
  obtain ⟨hmoves, hmem⟩ := moves_useCurve hp style mode
  exact hmoves.trans (moves_touch hmem
    ((Surface.touches_modify _ _ (.mapCurve _)).tail .update))

theorem moves_showSource (style : PlotStyle) (source : LazySource) :
    Moves n c (c.showSource n style source).2 := by
  obtain ⟨hmoves, hmem⟩ := moves_useCurve hp style "lines"
  exact hmoves.trans (moves_touch hmem
    ((Surface.touches_modify _ _ (.mapCurve _)).trans (Surface.touches_updateCurve _ _)))

/-- The circle of a part. -/
theorem moves_circle {σ : Part} (hσ : ∀ m, σ.Fits (.marker m)) (coords : Float × Float)
    (solid : Bool) (color : String) (size : Option Float) :
    Moves n c
      (c.give n σ (c.surface.placeCircle coords solid color (c.spot? n (.part σ)) size).1
        (c.surface.placeCircle coords solid color (c.spot? n (.part σ)) size).2) :=
  moves_give hp (Surface.supplies_placeCircle hσ _ _ _ _ _ _)

/-- The dashed line of a mark. -/
theorem moves_wall (start finish : Float × Float) (settings : SegmentSettings) :
    let made := match c.spot? n (.part .segment) with
      | some h => (h, c.surface)
      | none => c.surface.newSegment start finish {}
    Moves n c
      (c.give n .segment made.1 ((made.2.modify made.1
        (Handle.mapSegment fun g => { g with start, finish }.configure settings)).unhide
          made.1)) :=
  moves_give hp (Surface.supplies_wall _ start finish settings _)

/-- The circle at a bound. -/
theorem moves_boundCircle {σ : Part} (hσ : ∀ m, σ.Fits (.marker m)) (bound : Float)
    (closed : Bool) (view : Float × Float) (place : Float → Float × Float) (style : PlotStyle) :
    Moves n c (c.boundCircle n σ bound closed view place style) := by
  unfold boundCircle Surface.placeBound
  split
  · exact moves_circle hp hσ (place bound) closed style.color (some style.size)
  · rw [modify_eq_self]
    · cases hk : c.spot? n (.part σ) with
      | none => exact .refl
      | some k =>
        exact moves_touch (mem_handles.mpr ⟨_, hk⟩) (Surface.touches_setVisible _ k false)
    · show (c.piece? n).map _ = c.piece? n
      exact c.map_set_spot? n σ

theorem moves_placeBounds (interval : Interval Float) (view : Float × Float)
    (place : Float → Float × Float) (style : PlotStyle) :
    Moves n c (c.placeBounds n interval view place style) := by
  have hlower := moves_boundCircle hp (σ := .lower) (fun _ => trivial) interval.lower
    interval.lowerClosed view place style
  obtain ⟨q, hq, -⟩ := hlower.exists_piece hp
  rw [placeBounds_eq_circles]
  exact hlower.trans (moves_boundCircle hq (σ := .upper) (fun _ => trivial) interval.upper
    interval.upperClosed view place style)

/-- Implicit relations get a curve for each contour. -/
theorem moves_addContours (himplicit : p.family = some .implicit) (style : PlotStyle)
    (lines : List (List (Contour.Point Float))) : Moves n c (c.addContours n style lines) := by
  induction lines generalizing c p with
  | nil => exact .refl
  | cons line lines ih =>
    let k := c.surface.handles.size
    let shape : Shape := .curve (({} : Curve).configure
      { color := some style.color, width := some style.width, dash := some style.dash })
    let put : Piece → Piece := fun p => { p with contours := p.contours ++ [k] }
    let c₁ := ({ c with surface := (c.surface.addHandle shape.mode shape).2 }).modify n put
    have hattach : Move n c c₁ := by
      exact .attach hp (a := .contour p.contours.length)
        (List.getElem?_eq_none (Nat.le_refl _)) trivial List.getElem?_concat_length
        (fun b hb => Spot.get_concat_of_ne hb k) rfl fun _ => .inr himplicit
    have hpiece : c₁.piece? n = some (put p) :=
      piece?_modify_self (c := { c with surface := (c.surface.addHandle shape.mode shape).2 }) hp put
    have hmem : k ∈ c₁.handles n :=
      mem_handles.mpr ⟨.contour p.contours.length,
        (spot?_of_piece hpiece _).trans List.getElem?_concat_length⟩
    have hshow := moves_touch hmem ((Surface.touches_modify c₁.surface k (.mapCurve fun curve =>
      curve.setData (line.map (·.x)) (line.map (·.y)))).trans
        (Surface.touches_setVisible _ k true))
    obtain ⟨q, hq, hbare⟩ := hshow.exists_piece hpiece
    exact (hshow.head hattach).trans (ih hq ((Piece.fields_of_bare hbare).2.1.trans himplicit))

end

/-- Hiding the handle of a part. -/
theorem moves_hideSome (c : Canvas) (n : PieceId) (σ : Part) :
    Moves n c (c.onSurface fun s => s.hideSome (c.spot? n (.part σ))) := by
  cases hk : c.spot? n (.part σ) with
  | none => exact .refl
  | some k => exact moves_touch (mem_handles.mpr ⟨_, hk⟩) (Surface.touches_setVisible _ k false)

end Canvas

end Graphing
