/-
  Graphing.Proofs.Plot.Draft

  What is drawn with one piece, move by move.

  The curve, the circles and the dashed line of a piece are made or changed in
  several small steps, and in other steps for a piece that is used again.
  Either way the outcome is that of one `display`.  A `Draft` says what a piece
  in the making shows so far, whatever it showed before.
-/
import Graphing.Plot.Implicit
import Graphing.Plot.Mark
import Graphing.Proofs.Plot.Display

open Graphing.Relation (Family)

namespace Graphing

/-! ## Shapes in a style -/

/-- A polyline in a style. -/
def Shape.line (style : PlotStyle) (mode : String) (xs ys : List Float)
    (source : Option LazySource) : Shape :=
  .curve { xs, ys, color := style.color, width := style.width, dash := style.dash, mode,
           markerSize := style.size, source }

/-- A circle in a style. -/
def Shape.circle (style : PlotStyle) (coords : Float × Float) (solid : Bool) : Shape :=
  .marker { coords, color := style.color, size := style.size, solid }

/-- The dashed line of a style. -/
def Shape.wall (style : PlotStyle) (start finish : Float × Float) : Shape :=
  .segment { start, finish, color := style.color, width := style.width, dash := dashedPattern }

/-- The contour of an implicit relation in a style. -/
def Shape.contour (style : PlotStyle) (line : List (Contour.Point Float)) : Shape :=
  .curve { xs := line.map (·.x), ys := line.map (·.y), color := style.color, width := style.width,
           dash := style.dash }

/-! ## Steps that amount to showing a shape -/

namespace Surface

variable {s : Surface} {n : HandleId}

/-- A part has no handle, or one that is not removed and has the shape of the part. -/
def Holds (s : Surface) (σ : Part) (existing : Option HandleId) : Prop :=
  ∀ k, existing = some k → ∃ l, s.handle? k = some l ∧ l.removed = false ∧ σ.Fits l.shape

theorem present_some {l : Handle} (hl : s.handle? n = some l) {f : Handle → Handle} {g : Shape}
    (hf : f l = { l with shape := g, visible := true }) :
    ((s.modify n f).update n) = (s.present (some n) g).2 := by
  rw [present, modify_congr (g := fun k => { k with shape := g, visible := true })]
  intro k hk
  obtain rfl : l = k := Option.some.inj (hl.symm.trans hk)
  exact hf

theorem present_none (s : Surface) {f : Handle → Handle} {mode : String} {g₀ g : Shape}
    (hmode : mode = g.mode)
    (hf : f { trace := s.nextTrace, shape := g₀ } =
      { trace := s.nextTrace, shape := g, visible := true }) :
    ((s.addHandle mode g₀).2.modify s.handles.size f).update s.handles.size =
      (s.present none g).2 := by
  have h₁ := s.modify_addHandle mode g₀ f
  have h₂ := s.modify_addHandle mode g fun k => { k with visible := true }
  rw [hf] at h₁
  show _ = ((s.addHandle g.mode g).2.modify s.handles.size fun k =>
    { k with visible := true }).update s.handles.size
  rw [← hmode]
  exact congrArg (Surface.update · s.handles.size) (h₁.trans h₂.symm)

theorem placeCircle_eq {σ : Part} (hσ : ∀ g, σ.Fits g → ∃ m, g = .marker m)
    {existing : Option HandleId} (h : s.Holds σ existing) (style : PlotStyle)
    (coords : Float × Float) (solid : Bool) :
    s.placeCircle coords solid style.color existing (some style.size) =
      s.present existing (.circle style coords solid) := by
  cases existing with
  | none =>
    exact Prod.ext rfl (s.present_none (g := .circle style coords solid) rfl rfl)
  | some k =>
    obtain ⟨l, hl, -, hfits⟩ := h k rfl
    obtain ⟨m, hm⟩ := hσ l.shape hfits
    refine Prod.ext rfl ?_
    show ((s.modify k _).modify k _).update k = _
    rw [modify_modify]
    refine present_some hl ?_
    simp only [Function.comp, Handle.mapMarker, hm]
    rfl

/-- The circle at a bound, if it is in view. -/
def boundShape (bound : Float) (closed : Bool) (view : Float × Float)
    (place : Float → Float × Float) (style : PlotStyle) : Option Shape :=
  if (Interval.finite? (some bound)).isSome && Interval.isBetween bound view.1 view.2 false then
    some (.circle style (place bound) closed)
  else none

theorem fits_boundShape {bound : Float} {closed : Bool} {view : Float × Float}
    {place : Float → Float × Float} {style : PlotStyle} {g : Shape}
    (hg : boundShape bound closed view place style = some g) {σ : Part}
    (hσ : σ.Fits (.circle style (place bound) closed)) : σ.Fits g := by
  unfold boundShape at hg
  split at hg
  · cases hg
    exact hσ
  · cases hg

theorem placeBound_eq {σ : Part} (hσ : ∀ g, σ.Fits g → ∃ m, g = .marker m)
    {existing : Option HandleId} (h : s.Holds σ existing) (style : PlotStyle) (bound : Float)
    (closed : Bool) (view : Float × Float) (place : Float → Float × Float) :
    s.placeBound bound closed view place style existing =
      s.presentSome existing (boundShape bound closed view place style) := by
  unfold placeBound boundShape
  split
  · rw [placeCircle_eq hσ h]
    rfl
  · rfl

end Surface

namespace Canvas

variable {c : Canvas} {rest : List PieceId} {n : PieceId}

/-- Give a part of a piece a handle of a changed surface. -/
def give (c : Canvas) (n : PieceId) (σ : Part) (k : HandleId) (s : Surface) : Canvas :=
  ({ c with surface := s }).modify n (σ.set (some k))

theorem spot?_give (c : Canvas) (n : PieceId) {σ τ : Part} (h : τ ≠ σ) (k : HandleId)
    (s : Surface) : (c.give n σ k s).spot? n (.part τ) = c.spot? n (.part τ) := by
  rw [give, spot?_modify, if_pos rfl, spot?]
  refine congrArg (Option.bind (c.piece? n)) (funext fun p => ?_)
  exact Part.get_set_of_ne h (some k) p

theorem spot?_give_self {p : Piece} (hp : c.piece? n = some p) (σ : Part) (k : HandleId)
    (s : Surface) : (c.give n σ k s).spot? n (.part σ) = some k := by
  rw [give, spot?_modify, if_pos rfl]
  show (c.piece? n).bind _ = _
  rw [hp, Option.bind_some]
  exact Part.get_set_self σ _ p

theorem modify_modify (c : Canvas) (n : PieceId) (f g : Piece → Piece) :
    (c.modify n f).modify n g = c.modify n (g ∘ f) := by
  have : (c.pieces.modify n f).modify n g = c.pieces.modify n (g ∘ f) := by
    apply Array.ext_getElem?
    intro i
    simp only [Array.getElem?_modify]
    split
    · rw [Option.map_map]
    · rfl
  simp only [modify, this]

/-- Hiding the handle of a part. -/
theorem hideSome_eq (c : Canvas) (n : PieceId) (σ : Part) :
    (c.onSurface fun s => s.hideSome (c.spot? n (.part σ))) = c.display n σ none := by
  symm
  exact modify_eq_self (c := c.onSurface fun s => s.hideSome (c.spot? n (.part σ)))
    (c.map_set_spot? n σ)

namespace InPlot

theorem holds (h : c.InPlot (n :: rest)) (σ : Part) :
    c.surface.Holds σ (c.spot? n (.part σ)) :=
  fun k hk => h.owned.live n List.mem_cons_self (.part σ) k hk

theorem showData_eq (h : c.InPlot (n :: rest)) (style : PlotStyle) (mode : String)
    (xs ys : List Float) :
    c.showData n style mode xs ys = c.display n .curve (some (.line style mode xs ys none)) := by
  have hof : (c.piece? n).bind (·.curve) = c.spot? n (.part .curve) := rfl
  rw [showData, useCurve, hof, Canvas.display]
  cases hk : c.spot? n (.part .curve) with
  | none =>
    show c.give n .curve c.surface.handles.size
        ((((c.surface.addHandle "lines" _).2.modify _ _).modify _ _).update _) =
      c.give n .curve c.surface.handles.size (c.surface.present none _).2
    rw [Surface.modify_modify]
    exact congrArg (c.give n .curve _) (c.surface.present_none rfl rfl)
  | some k =>
    obtain ⟨l, hl, -, hfits⟩ := h.holds .curve k hk
    obtain ⟨trace, shape, visible, removed⟩ := l
    cases shape with
    | curve curve =>
      show c.give n .curve k (((c.surface.modify k _).modify k _).update k) =
        c.give n .curve k (c.surface.present (some k) _).2
      rw [Surface.modify_modify]
      exact congrArg (c.give n .curve _) (Surface.present_some hl rfl)
    | marker m => exact hfits.elim
    | segment g => exact hfits.elim

theorem showSource_eq (h : c.InPlot (n :: rest)) (style : PlotStyle) {source : LazySource}
    {xs ys : List Float} (hxs : source.xOf (c.surface.pixelSamples source.axis) = some xs)
    (hys : source.yOf (c.surface.pixelSamples source.axis) = some ys) :
    c.showSource n style source =
      (.ok (), c.display n .curve (some (.line style "lines" xs ys (some source)))) := by
  have hof : (c.piece? n).bind (·.curve) = c.spot? n (.part .curve) := rfl
  let settings : CurveSettings :=
    { color := some style.color, width := some style.width, dash := some style.dash
      mode := some "lines", markerSize := some style.size }
  let restyle : Handle → Handle := fun handle =>
    { handle.mapCurve (fun curve => curve.configure settings) with visible := true }
  let relink : Handle → Handle := Handle.mapCurve fun curve => curve.setSource source
  rw [showSource, useCurve, hof, Canvas.display]
  cases hk : c.spot? n (.part .curve) with
  | none =>
    -- a new handle is styled, gets its source, and is sampled
    let k := c.surface.handles.size
    let s := (((c.surface.addHandle "lines" (.curve (({} : Curve).configure {}))).2.modify k
      restyle).modify k relink)
    have hl : s.handle? k =
        some (relink (restyle { trace := c.surface.nextTrace,
                                shape := .curve (({} : Curve).configure {}) })) := by
      rw [Surface.handle?_modify, if_pos rfl, Surface.handle?_modify, if_pos rfl,
        Surface.handle?_addHandle, if_pos rfl]
      rfl
    have hsamples : ∀ a, s.pixelSamples a = c.surface.pixelSamples a := by
      intro a
      cases a <;> rfl
    have hupdate := Surface.updateCurve_of_source hl rfl rfl (by rw [hsamples]; exact hxs)
      (by rw [hsamples]; exact hys)
    show ((s.updateCurve k).1.mapError PlotFault.surface,
      c.give n .curve k (s.updateCurve k).2) = (.ok (), c.give n .curve k (c.surface.present none _).2)
    rw [hupdate, Surface.modify_modify, Surface.modify_modify, Surface.modify_modify]
    exact congrArg (fun s => (Except.ok (), c.give n .curve k s)) (c.surface.present_none rfl rfl)
  | some k =>
    -- the handle that is there is a curve, since it fits the part
    obtain ⟨l, hk', -, hfits⟩ := h.holds .curve k hk
    obtain ⟨trace, shape, visible, removed⟩ := l
    cases shape with
    | curve curve =>
      let s := (c.surface.modify k restyle).modify k relink
      have hl : s.handle? k = some (relink (restyle ⟨trace, .curve curve, visible, removed⟩)) := by
        rw [Surface.handle?_modify, if_pos rfl, Surface.handle?_modify, if_pos rfl, hk']
        rfl
      have hsamples : ∀ a, s.pixelSamples a = c.surface.pixelSamples a := by
        intro a
        cases a <;> rfl
      have hupdate := Surface.updateCurve_of_source hl rfl rfl (by rw [hsamples]; exact hxs)
        (by rw [hsamples]; exact hys)
      show ((s.updateCurve k).1.mapError PlotFault.surface,
        c.give n .curve k (s.updateCurve k).2) =
          (.ok (), c.give n .curve k (c.surface.present (some k) _).2)
      rw [hupdate, Surface.modify_modify, Surface.modify_modify, Surface.modify_modify]
      exact congrArg (fun s => (Except.ok (), c.give n .curve k s)) (Surface.present_some hk' rfl)
    | marker m => exact hfits.elim
    | segment g => exact hfits.elim

/-- The parts that hold circles. -/
theorem circle_of_fits {σ : Part} (hσ : σ ≠ .curve ∧ σ ≠ .segment) (g : Shape) (hg : σ.Fits g) :
    ∃ m, g = .marker m := by
  cases σ <;> cases g <;> first | exact ⟨_, rfl⟩ | exact hg.elim | exact absurd rfl hσ.1 |
    exact absurd rfl hσ.2

theorem placeBounds_eq (h : c.InPlot (n :: rest)) (interval : Interval Float)
    (view : Float × Float) (place : Float → Float × Float) (style : PlotStyle) :
    c.placeBounds n interval view place style =
      (c.display n .lower
        (Surface.boundShape interval.lower interval.lowerClosed view place style)).display n .upper
        (Surface.boundShape interval.upper interval.upperClosed view place style) := by
  have hlower := h.display (σ := .lower)
    fun g (hg : Surface.boundShape interval.lower interval.lowerClosed view place style = some g) =>
      Surface.fits_boundShape (σ := .lower) hg trivial
  obtain ⟨hplot, hchanges, -, -⟩ := hlower
  have hholds := hplot.holds .upper
  rw [hchanges.spot (.part .upper) (by simp)] at hholds
  have hfirst := Surface.placeBound_eq (circle_of_fits (by simp)) (h.holds .lower) style
    interval.lower interval.lowerClosed view place
  have hsecond := Surface.placeBound_eq (circle_of_fits (by simp)) hholds style
    interval.upper interval.upperClosed view place
  rw [Canvas.display, hchanges.spot (.part .upper) (by simp), ← hsecond]
  show _ = (({ c with surface := _ } : Canvas).modify n (Part.lower.set _)).modify n _
  rw [modify_modify, Canvas.display, ← hfirst]
  rfl

/-- Showing a circle that belongs to a part. -/
theorem circle_eq (h : c.InPlot (n :: rest)) {σ : Part} (hσ : σ ≠ .curve ∧ σ ≠ .segment)
    (style : PlotStyle) (coords : Float × Float) (solid : Bool) :
    c.give n σ (c.surface.placeCircle coords solid style.color (c.spot? n (.part σ))
        (some style.size)).1
      (c.surface.placeCircle coords solid style.color (c.spot? n (.part σ)) (some style.size)).2 =
      c.display n σ (some (.circle style coords solid)) := by
  rw [Surface.placeCircle_eq (circle_of_fits hσ) (h.holds σ)]
  rfl

/-- Showing the dashed line of a mark. -/
theorem wall_eq (h : c.InPlot (n :: rest)) (style : PlotStyle) (start finish : Float × Float) :
    let settings : SegmentSettings :=
      { color := some style.color, width := some style.width, dash := some dashedPattern }
    let made := match c.spot? n (.part .segment) with
      | some h => (h, c.surface)
      | none => c.surface.newSegment start finish {}
    c.give n .segment made.1 ((made.2.modify made.1
        (Handle.mapSegment fun g => { g with start, finish }.configure settings)).unhide made.1) =
      c.display n .segment (some (.wall style start finish)) := by
  intro settings made
  let reveal : Handle → Handle := fun handle => { handle with visible := true }
  let restyle : Handle → Handle :=
    Handle.mapSegment fun g => { g with start, finish }.configure settings
  have hremoved : ∀ l : Handle, ((reveal ∘ restyle) l).removed = l.removed := by
    intro l
    show (Handle.mapSegment _ l).removed = l.removed
    unfold Handle.mapSegment
    split <;> rfl
  cases hk : c.spot? n (.part .segment) with
  | none =>
    -- a new segment is queued at once, and once more when it has its looks
    let k := c.surface.handles.size
    let shape : Shape := .segment (({ start, finish } : Segment).configure {})
    let s := (c.surface.addHandle "lines" shape).2.modify k reveal
    have hmade : made = (k, s.update k) := by
      show (match c.spot? n (.part .segment) with
        | some h => (h, c.surface)
        | none => c.surface.newSegment start finish {}) = _
      rw [hk]
      rfl
    have hl : s.handle? k = some (reveal { trace := c.surface.nextTrace, shape }) := by
      rw [Surface.handle?_modify, if_pos rfl, Surface.handle?_addHandle, if_pos rfl]
      rfl
    rw [hmade, Canvas.display, hk]
    show c.give n .segment k ((((s.update k).modify k restyle).modify k reveal).update k) =
      c.give n .segment k (c.surface.present none _).2
    have hdepth : s.depth ≠ 0 := h.suspended
    rw [Surface.modify_modify, Surface.update_modify_update hdepth hremoved hl rfl,
      Surface.modify_modify]
    exact congrArg (c.give n .segment k) (c.surface.present_none rfl rfl)
  | some k =>
    have hmade : made = (k, c.surface) := by
      show (match c.spot? n (.part .segment) with
        | some h => (h, c.surface)
        | none => c.surface.newSegment start finish {}) = _
      rw [hk]
    obtain ⟨l, hl, -, hfits⟩ := h.holds .segment k hk
    obtain ⟨trace, shape, visible, removed⟩ := l
    rw [hmade, Canvas.display, hk]
    cases shape with
    | segment g =>
      show c.give n .segment k (((c.surface.modify k restyle).modify k reveal).update k) =
        c.give n .segment k (c.surface.present (some k) _).2
      rw [Surface.modify_modify]
      exact congrArg (c.give n .segment k) (Surface.present_some hl rfl)
    | curve curve => exact hfits.elim
    | marker m => exact hfits.elim

end InPlot

/-! ## Contours -/

/-- A contour is a line with a handle of its own. -/
theorem addContours_singleton (c : Canvas) (n : PieceId) (style : PlotStyle)
    (line : List (Contour.Point Float)) :
    c.addContours n style [line] =
      ({ c with surface := (c.surface.present none (.contour style line)).2 }).modify n
        fun p => { p with contours := p.contours ++ [c.surface.handles.size] } := by
  let k := c.surface.handles.size
  show ({ c with surface := (((c.surface.addHandle "lines" _).2.modify k _).modify k _).update k } :
    Canvas).modify n (fun p => { p with contours := p.contours ++ [k] }) = _
  rw [Surface.modify_modify]
  exact congrArg (fun s => ({ c with surface := s } : Canvas).modify n _)
    (c.surface.present_none rfl rfl)

/-- A piece with one contour more shows one shape more. -/
theorem contourShapes_concat {c' : Canvas} {p : Piece} {k : HandleId} {shape : Shape}
    (hp : c.piece? n = some p)
    (hp' : c'.piece? n = some { p with contours := p.contours ++ [k] })
    (hold : ∀ i j, i < p.contours.length → c.spot? n (.contour i) = some j →
      c'.surface.handle? j = c.surface.handle? j)
    (hnew : c'.shapeAt n (.contour p.contours.length) = some shape) :
    c'.contourShapes n = c.contourShapes n ++ [shape] := by
  have hbefore : c.contours n = p.contours := by
    rw [Canvas.contours, hp]
    rfl
  have hafter : c'.contours n = p.contours ++ [k] := by
    rw [Canvas.contours, hp']
    rfl
  have hlast : c'.surface.shape? k = some shape := by
    rw [← hnew, shapeAt, spot?_of_piece hp']
    show _ = ((p.contours ++ [k])[p.contours.length]?).bind _
    rw [List.getElem?_concat_length]
    rfl
  rw [contourShapes, hafter, List.filterMap_append, contourShapes, hbefore]
  refine congrArg₂ (· ++ ·) ?_ ?_
  · refine List.filterMap_congr fun j hj => ?_
    obtain ⟨i, hi⟩ := List.getElem?_of_mem hj
    have hlt : i < p.contours.length := (List.getElem?_eq_some_iff.mp hi).1
    rw [← hbefore, contours_getElem?] at hi
    rw [Surface.shape?, Surface.shape?, hold i j hlt hi]
  · rw [List.filterMap_cons, hlast]
    rfl

/-! ## Drafts -/

/-- What a piece notes about the relation that it shows. -/
structure Note where
  family : Option Family
  interval : Interval Float
  function : Option CompiledFormula

/-- The note of a piece. -/
def note? (c : Canvas) (n : PieceId) : Option Note :=
  (c.piece? n).map fun p => ⟨p.family, p.interval, p.function⟩

/-- A piece in the making, beside pieces that are kept: what its parts and its contours show, and
what it notes. -/
structure Draft (c₀ : Canvas) (rest : List PieceId) (c : Canvas) (n : PieceId)
    (parts : Part → Option Shape) (contours : List Shape) (note : Note) : Prop where
  inPlot : c.InPlot (n :: rest)
  keeps : Keeps c₀ c rest
  part : ∀ σ, c.shapeAt n (.part σ) = parts σ
  contour : c.contourShapes n = contours
  noted : c.note? n = some note

namespace Draft

variable {c₀ c : Canvas} {parts : Part → Option Shape} {contours : List Shape} {note : Note}

/-- Change what a piece notes, but not its family. -/
theorem modify (h : Draft c₀ rest c n parts contours note) {f : Piece → Piece}
    (hpart : ∀ p (σ : Part), σ.get (f p) = σ.get p) (hcontours : ∀ p, (f p).contours = p.contours)
    {note' : Note}
    (hnote : ∀ p : Piece, (⟨p.family, p.interval, p.function⟩ : Note) = note →
      (⟨(f p).family, (f p).interval, (f p).function⟩ : Note) = note')
    (hfamily : note'.family = note.family) :
    Draft c₀ rest (c.modify n f) n parts contours note' := by
  obtain ⟨p, hp⟩ := h.inPlot.owned.exists_piece n List.mem_cons_self
  have hnoted : (⟨p.family, p.interval, p.function⟩ : Note) = note := by
    have := h.noted
    rw [note?, hp] at this
    exact Option.some.inj this
  have hspot : ∀ p (a : Spot), a.get (f p) = a.get p := by
    intro p a
    cases a with
    | part σ => exact hpart p σ
    | contour i => rw [Spot.get, hcontours]; rfl
  have hsame : ∀ a, (c.modify n f).spot? n a = c.spot? n a := by
    intro a
    rw [spot?_modify, if_pos rfl, spot?, hp]
    exact hspot p a
  -- every spot holds what it held, so the piece owns nothing new
  obtain ⟨hplot, hkeeps⟩ := h.inPlot.disown (f := f)
    (fun q _ a k hk => (hspot q a).symm.trans hk)
    (by
      intro q hq hne
      obtain rfl : p = q := Option.some.inj (hp.symm.trans hq)
      rw [hcontours] at hne
      have hold := h.inPlot.owned.implicit n List.mem_cons_self p hp hne
      have hf := congrArg Note.family (hnote p hnoted)
      rw [show (f p).family = note'.family from hf, hfamily, ← hnoted]
      exact hold)
  refine ⟨hplot, h.keeps.trans hkeeps, ?_, ?_, ?_⟩
  · intro σ
    rw [← h.part σ, shapeAt, hsame]
    rfl
  · rw [← h.contour]
    exact contourShapes_congr (fun i => hsame (.contour i)) fun _ _ _ => rfl
  · rw [note?, piece?_modify, if_pos rfl, hp]
    exact congrArg some (hnote p hnoted)

theorem display (h : Draft c₀ rest c n parts contours note) {σ : Part} {shape : Option Shape}
    (hfits : ∀ g, shape = some g → σ.Fits g) :
    Draft c₀ rest (c.display n σ shape) n (Function.update parts σ shape) contours note := by
  obtain ⟨hplot, hchanges, hshape, k, hpiece⟩ := h.inPlot.display hfits
  refine ⟨hplot, h.keeps.trans hchanges.keeps, ?_, ?_, ?_⟩
  · intro τ
    by_cases hτ : τ = σ
    · subst hτ
      rw [hshape, Function.update_self]
    · rw [Function.update_of_ne hτ, ← h.part τ]
      exact hchanges.shapeAt (by simpa using hτ)
  · rw [← h.contour]
    exact contourShapes_congr (fun i => hchanges.spot _ (by simp))
      fun i k hk => hchanges.handle _ k (by simp) hk
  · rw [← h.noted, note?, note?, hpiece]
    cases c.piece? n with
    | none => rfl
    | some p => cases σ <;> rfl

/-- Hide a part. -/
theorem hide (h : Draft c₀ rest c n parts contours note) (σ : Part) :
    Draft c₀ rest (c.onSurface fun s => s.hideSome (c.spot? n (.part σ))) n
      (Function.update parts σ none) contours note := by
  rw [hideSome_eq]
  exact h.display fun g hg => by cases hg

theorem showData (h : Draft c₀ rest c n parts contours note) (style : PlotStyle) (mode : String)
    (xs ys : List Float) :
    Draft c₀ rest (c.showData n style mode xs ys) n
      (Function.update parts .curve (some (.line style mode xs ys none))) contours note := by
  rw [h.inPlot.showData_eq]
  refine h.display fun g hg => ?_
  cases hg
  exact trivial

theorem showSource (h : Draft c₀ rest c n parts contours note) (style : PlotStyle)
    (source : LazySource) {xs ys : List Float}
    (hxs : source.xOf (c.surface.pixelSamples source.axis) = some xs)
    (hys : source.yOf (c.surface.pixelSamples source.axis) = some ys) :
    ∃ c', c.showSource n style source = (.ok (), c') ∧
      Draft c₀ rest c' n
        (Function.update parts .curve (some (.line style "lines" xs ys (some source))))
        contours note := by
  refine ⟨_, h.inPlot.showSource_eq style hxs hys, h.display fun g hg => ?_⟩
  cases hg
  exact trivial

theorem circle (h : Draft c₀ rest c n parts contours note) {σ : Part}
    (hσ : σ = .hole ∨ σ = .point) (style : PlotStyle) (coords : Float × Float) (solid : Bool) :
    Draft c₀ rest
      (c.give n σ (c.surface.placeCircle coords solid style.color (c.spot? n (.part σ))
          (some style.size)).1
        (c.surface.placeCircle coords solid style.color (c.spot? n (.part σ)) (some style.size)).2)
      n (Function.update parts σ (some (.circle style coords solid))) contours note := by
  rw [h.inPlot.circle_eq (by rcases hσ with rfl | rfl <;> simp)]
  refine h.display fun g hg => ?_
  cases hg
  rcases hσ with rfl | rfl <;> exact trivial

theorem wall (h : Draft c₀ rest c n parts contours note) (style : PlotStyle)
    (start finish : Float × Float) :
    let settings : SegmentSettings :=
      { color := some style.color, width := some style.width, dash := some dashedPattern }
    let made := match c.spot? n (.part .segment) with
      | some h => (h, c.surface)
      | none => c.surface.newSegment start finish {}
    Draft c₀ rest
      (c.give n .segment made.1 ((made.2.modify made.1
        (Handle.mapSegment fun g => { g with start, finish }.configure settings)).unhide made.1))
      n (Function.update parts .segment (some (.wall style start finish))) contours note := by
  intro settings made
  rw [h.inPlot.wall_eq style start finish]
  refine h.display fun g hg => ?_
  cases hg
  exact trivial

theorem placeBounds (h : Draft c₀ rest c n parts contours note) (interval : Interval Float)
    (view : Float × Float) (place : Float → Float × Float) (style : PlotStyle) :
    Draft c₀ rest (c.placeBounds n interval view place style) n
      (Function.update
        (Function.update parts .lower
          (Surface.boundShape interval.lower interval.lowerClosed view place style)) .upper
        (Surface.boundShape interval.upper interval.upperClosed view place style))
      contours note := by
  rw [h.inPlot.placeBounds_eq]
  exact (h.display fun g hg => Surface.fits_boundShape (σ := .lower) hg trivial).display
    fun g hg => Surface.fits_boundShape (σ := .upper) hg trivial

/-- Note an interval and a function. -/
theorem annotate (h : Draft c₀ rest c n parts contours note) {f : Piece → Piece}
    (hpart : ∀ p (σ : Part), σ.get (f p) = σ.get p) (hcontours : ∀ p, (f p).contours = p.contours)
    (hfamily : ∀ p, (f p).family = p.family) {i : Interval Float}
    (hinterval : ∀ p, (f p).interval = i) {g : Option CompiledFormula}
    (hfunction : ∀ p, (f p).function = g) :
    Draft c₀ rest (c.modify n f) n parts contours ⟨note.family, i, g⟩ := by
  refine h.modify hpart hcontours (fun p hp => ?_) rfl
  rw [hfamily, hinterval, hfunction, ← hp]

theorem describe (h : Draft c₀ rest c n parts contours note) (r : Restricted) :
    Draft c₀ rest (c.describe n r) n parts contours
      ⟨note.family, r.interval, some r.function⟩ := by
  refine h.annotate (fun p σ => ?_) ?_ ?_ ?_ ?_
  · cases σ <;> rfl
  all_goals exact fun _ => rfl

theorem activate (h : Draft c₀ rest c n parts contours note) :
    Draft c₀ rest (c.activate n) n parts contours note := by
  refine h.modify (fun p σ => ?_) ?_ ?_ rfl
  · cases σ <;> rfl
  · exact fun _ => rfl
  · exact fun _ hp => hp

theorem removeContours (h : Draft c₀ rest c n parts contours note) :
    Draft c₀ rest (c.removeContours n) n parts [] note := by
  obtain ⟨hplot, hkeeps, hparts, hpiece⟩ := h.inPlot.removeContours
  refine ⟨hplot, h.keeps.trans hkeeps, fun σ => (hparts σ).trans (h.part σ), ?_, ?_⟩
  · rw [contourShapes, Canvas.contours, hpiece]
    cases c.piece? n <;> rfl
  · rw [← h.noted, note?, note?, hpiece]
    cases c.piece? n <;> rfl

/-- One more contour of an implicit relation. -/
theorem addContour (h : Draft c₀ rest c n parts contours note)
    (himplicit : note.family = some .implicit) (style : PlotStyle)
    (line : List (Contour.Point Float)) :
    Draft c₀ rest (c.addContours n style [line]) n parts (contours ++ [.contour style line])
      note := by
  obtain ⟨p, hp⟩ := h.inPlot.owned.exists_piece n List.mem_cons_self
  let k := c.surface.handles.size
  let put : Piece → Piece := fun p => { p with contours := p.contours ++ [k] }
  have heq := c.addContours_singleton n style line
  have hfamily : p.family = some .implicit := by
    have hnoted := h.noted
    rw [note?, hp] at hnoted
    rw [← himplicit, ← Option.some.inj hnoted]
  obtain ⟨hplot, hchanges, hshape⟩ := h.inPlot.attach hp
    (.contour p.contours.length) (.contour style line) put trivial
    (List.getElem?_eq_none (Nat.le_refl _)) List.getElem?_concat_length
    (fun b hb => Spot.get_concat_of_ne hb k) (fun _ => hfamily)
  rw [← heq] at hplot hchanges hshape
  have hpiece : (c.addContours n style [line]).piece? n = some (put p) := by
    rw [heq]
    exact piece?_modify_self (c := { c with surface := _ }) hp put
  refine ⟨hplot, h.keeps.trans hchanges.keeps, ?_, ?_, ?_⟩
  · intro σ
    rw [← h.part σ]
    exact hchanges.shapeAt (by simp)
  · rw [← h.contour]
    refine contourShapes_concat hp hpiece (fun i j hi hj => ?_) hshape
    exact hchanges.handle (.contour i) j (by simp; omega) hj
  · rw [← h.noted, note?, note?, hpiece, hp]
    rfl

theorem addContours (h : Draft c₀ rest c n parts contours note)
    (himplicit : note.family = some .implicit) (style : PlotStyle)
    (lines : List (List (Contour.Point Float))) :
    Draft c₀ rest (c.addContours n style lines) n parts
      (contours ++ lines.map (Shape.contour style)) note := by
  induction lines generalizing c contours with
  | nil =>
    rw [List.map_nil, List.append_nil]
    exact h
  | cons line lines ih =>
    have hstep := ih (h.addContour himplicit style line)
    rw [List.append_assoc] at hstep
    exact hstep

end Draft

/-! ## The beginning and the end of a draft -/

/-- Nothing is to be seen of a piece. -/
def Blank (c : Canvas) (n : PieceId) : Prop := ∀ a, c.shapeAt n a = none

theorem Blank.contourShapes (h : c.Blank n) : c.contourShapes n = [] := by
  rw [Canvas.contourShapes, List.filterMap_eq_nil_iff]
  intro k hk
  obtain ⟨i, hi⟩ := List.getElem?_of_mem hk
  rw [contours_getElem?] at hi
  have := h (.contour i)
  rw [shapeAt, hi] at this
  exact this

theorem blank_of_contourShapes (hparts : ∀ σ, c.shapeAt n (.part σ) = none)
    (hcontours : c.contourShapes n = []) : c.Blank n := by
  intro a
  cases a with
  | part σ => exact hparts σ
  | contour i =>
    rw [shapeAt]
    cases hi : c.spot? n (.contour i) with
    | none => rfl
    | some k =>
      rw [← contours_getElem?] at hi
      exact List.filterMap_eq_nil_iff.mp hcontours k (List.mem_of_getElem? hi)

/-- A piece that is no implicit relation has no contours. -/
theorem InPlot.contourShapes_eq_nil (h : c.InPlot (n :: rest))
    (hfamily : ((c.piece? n).any fun p => p.family == some .implicit) = false) :
    c.contourShapes n = [] := by
  obtain ⟨p, hp⟩ := h.owned.exists_piece n List.mem_cons_self
  have hnone : p.contours = [] := by
    by_contra hne
    have himplicit := h.owned.implicit n List.mem_cons_self p hp hne
    simp [hp, himplicit] at hfamily
  rw [contourShapes, contours, hp]
  show p.contours.filterMap _ = []
  rw [hnone]
  rfl

/-- A piece loses its contours, unless they can stay. -/
theorem InPlot.forget (h : c.InPlot (n :: rest)) (kind : PieceKind) (family : Family) :
    ∃ c₁ : Canvas,
      (c.acquire (some n) kind family).2 =
        c₁.modify n (fun p => { p with kind, family := some family }) ∧
      c₁.InPlot (n :: rest) ∧ Keeps c c₁ rest ∧
      (∀ σ, c₁.shapeAt n (.part σ) = c.shapeAt n (.part σ)) ∧
      c₁.contourShapes n = (if family = .implicit then c.contourShapes n else []) ∧
      ∀ p, c₁.piece? n = some p → p.contours ≠ [] → family = .implicit := by
  by_cases hdrop : ((c.piece? n).any fun p => p.family == some .implicit) && family != .implicit
  · obtain ⟨hplot, hkeeps, hparts, hpiece⟩ := h.removeContours
    have hfamily : family ≠ .implicit := by simpa using ((Bool.and_eq_true _ _).mp hdrop).2
    refine ⟨c.removeContours n, ?_, hplot, hkeeps, hparts, ?_, ?_⟩
    · simp only [acquire, hdrop, if_true]
    · rw [if_neg hfamily, contourShapes, contours, hpiece]
      cases c.piece? n <;> rfl
    · intro p hp hne
      rw [hpiece] at hp
      obtain ⟨q, -, rfl⟩ := Option.map_eq_some_iff.mp hp
      exact absurd rfl hne
  · refine ⟨c, ?_, h, .refl c rest, fun σ => rfl, ?_, ?_⟩
    · simp only [acquire, hdrop, Bool.false_eq_true, if_false]
    · split
      · rfl
      · rename_i hfamily
        exact h.contourShapes_eq_nil (by simpa [hfamily] using hdrop)
    · intro p hp hne
      have hold := h.owned.implicit n List.mem_cons_self p hp hne
      rw [hp] at hdrop
      simpa [hold] using hdrop

/-- A piece that does not exist has no handles. -/
theorem spot?_size (c : Canvas) (a : Spot) : c.spot? c.pieces.size a = none := by
  rw [spot?, piece?, Array.getElem?_eq_none (Nat.le_refl _)]
  rfl

/-- A new piece is taken into use: nothing is to be seen of it. -/
theorem InPlot.acquire_new (h : c.InPlot rest) (kind : PieceKind) (family : Family) :
    ∃ note, note.family = some family ∧
      Draft c rest (c.acquire none kind family).2 c.pieces.size (fun _ => none) [] note := by
  let p : Piece := { kind, family := some family }
  -- the new piece comes after all others, and has no handles
  have hpiece : ∀ m, (c.acquire none kind family).2.piece? m =
      if m = c.pieces.size then some p else c.piece? m := by
    intro m
    exact Array.getElem?_push
  have hp : (c.acquire none kind family).2.piece? c.pieces.size = some p :=
    (hpiece c.pieces.size).trans (if_pos rfl)
  have hnew : c.pieces.size ∉ rest := by
    intro hmem
    obtain ⟨q, hq⟩ := h.owned.exists_piece _ hmem
    exact Nat.lt_irrefl _ (Array.getElem?_eq_some_iff.mp hq).1
  have hkeeps : Keeps c (c.acquire none kind family).2 rest := by
    refine ⟨rfl, rfl, ?_, fun _ _ _ _ _ => rfl⟩
    intro m hm
    rw [hpiece, if_neg]
    rintro rfl
    exact hnew hm
  have hspot : ∀ a : Spot, a.get p = none := by
    intro a
    cases a with
    | part σ => cases σ <;> rfl
    | contour i => rfl
  have hempty : ∀ (a : Spot) k, a.get p ≠ some k := by
    intro a k hk
    rw [hspot a] at hk
    cases hk
  refine ⟨⟨some family, p.interval, none⟩, rfl, ⟨?_, hkeeps, ?_, ?_, ?_⟩⟩
  · exact InPlot.cons h hkeeps hnew h.coherent h.queued hp (fun a k hk => absurd hk (hempty a k))
      (fun a k hk => absurd hk (hempty a k)) (fun a k hk => absurd hk (hempty a k))
      (fun a b k hk _ => absurd hk (hempty a k)) fun hne => absurd rfl hne
  · intro σ
    rw [shapeAt, spot?_of_piece hp, hspot]
    rfl
  · rw [contourShapes, contours, hp]
    rfl
  · rw [note?, hp]
    rfl

/-- A piece is taken into use again: it keeps its parts, and contours only for an implicit
relation. -/
theorem InPlot.acquire_again (h : c.InPlot (n :: rest)) (kind : PieceKind) (family : Family) :
    ∃ note, note.family = some family ∧
      Draft c rest (c.acquire (some n) kind family).2 n (fun σ => c.shapeAt n (.part σ))
        (if family = .implicit then c.contourShapes n else []) note := by
  let f : Piece → Piece := fun p => { p with kind, family := some family }
  obtain ⟨c₁, heq, hplot, hkeeps, hparts, hcontours, himplicit⟩ := h.forget kind family
  obtain ⟨p, hp⟩ := hplot.owned.exists_piece n List.mem_cons_self
  have hget : ∀ (q : Piece) (a : Spot), a.get (f q) = a.get q := by
    intro q a
    cases a with
    | part σ => cases σ <;> rfl
    | contour i => rfl
  obtain ⟨hplot', hkeeps'⟩ := hplot.disown (f := f) (fun q _ a k hk => (hget q a).symm.trans hk)
    (fun q hq hne => congrArg some (himplicit q hq hne))
  have hsame : ∀ a, (c₁.modify n f).spot? n a = c₁.spot? n a := spot?_modify_eq hget c₁ n n
  rw [heq]
  refine ⟨⟨some family, p.interval, p.function⟩, rfl, ⟨hplot', hkeeps.trans hkeeps', ?_, ?_, ?_⟩⟩
  · intro σ
    rw [← hparts σ, shapeAt, hsame]
    rfl
  · rw [← hcontours]
    exact contourShapes_congr (fun i => hsame (.contour i)) fun _ _ _ => rfl
  · rw [note?, piece?_modify_self hp]
    rfl

/-- A piece is taken into use: it keeps its parts, and contours only for an implicit relation. -/
theorem InPlot.acquire {existing : Option PieceId} (h : c.InPlot (existing.toList ++ rest))
    (kind : PieceKind) (family : Family) :
    ∃ c₁ note, c.acquire existing kind family = (existing.getD c.pieces.size, c₁) ∧
      note.family = some family ∧
      Draft c rest c₁ (existing.getD c.pieces.size)
        (fun σ => c.shapeAt (existing.getD c.pieces.size) (.part σ))
        (if family = .implicit then c.contourShapes (existing.getD c.pieces.size) else [])
        note := by
  cases existing with
  | none =>
    obtain ⟨note, hnote, hdraft⟩ := InPlot.acquire_new h kind family
    have hparts : (fun σ => c.shapeAt c.pieces.size (.part σ)) = fun _ => none := by
      funext σ
      rw [shapeAt, spot?_size]
      rfl
    have hcontours : c.contourShapes c.pieces.size = [] := by
      rw [contourShapes, contours, piece?, Array.getElem?_eq_none (Nat.le_refl _)]
      rfl
    refine ⟨_, note, rfl, hnote, ?_⟩
    rw [Option.getD_none, hparts, hcontours, ite_self]
    exact hdraft
  | some n =>
    obtain ⟨note, hnote, hdraft⟩ := h.acquire_again kind family
    exact ⟨_, note, rfl, hnote, hdraft⟩

/-- A piece that could not be drawn is still in use. -/
theorem Draft.undo {c₀ : Canvas} {existing : Option PieceId} {parts : Part → Option Shape}
    {contours : List Shape} {note : Note}
    (h : Draft c₀ rest c (existing.getD c₀.pieces.size) parts contours note) :
    c.InPlot (existing.toList ++ rest) := by
  cases existing with
  | none => exact h.inPlot.tail
  | some n => exact h.inPlot

end Canvas

end Graphing
