/-
  Graphing.Proofs.Plot.Fitting

  Which parts of a piece get handles.

  Drawing gives a handle to each part that its sketch shows, and to no other
  part: a part that has a handle keeps it, and is not given another one.  So a
  piece is fitted out for a sketch once (`Fits`), and after that nothing is
  made any more when the same sketch is drawn with it.
-/
import Graphing.Proofs.Plot.Sketch
import Graphing.Proofs.Plot.Sound

open Graphing.Relation (Classification Family assignedSide unrestricted)

namespace Graphing.Canvas

variable {c c' c'' : Canvas} {n : PieceId} {D D' : Part → Prop}

/-! ## Fitting out a piece -/

/-- A change of a piece that keeps the handles of its parts. -/
theorem spot?_modify_part {f : Piece → Piece} (h : ∀ p (σ : Part), σ.get (f p) = σ.get p)
    (c : Canvas) (n m : PieceId) (σ : Part) :
    (c.modify n f).spot? m (.part σ) = c.spot? m (.part σ) := by
  rw [spot?_modify]
  split
  · exact congrArg (Option.bind (c.piece? m)) (funext fun p => h p σ)
  · rfl

/-- Whether a part of a piece has a handle. -/
def Has (c : Canvas) (n : PieceId) (σ : Part) : Prop := (c.spot? n (.part σ)).isSome = true

/-- What is done with a piece gives handles to some of its parts; nothing is made if all of these
have handles before. -/
structure Fits (n : PieceId) (D : Part → Prop) (c c' : Canvas) : Prop where
  piece : (∃ p, c.piece? n = some p) → ∃ p, c'.piece? n = some p
  kept : ∀ σ, c.Has n σ → c'.Has n σ
  given : ∀ σ, D σ → c'.Has n σ
  still : (∀ σ, D σ → c.Has n σ) → c'.surface.handles.size = c.surface.handles.size

namespace Fits

theorem trans (h : Fits n D c c') (h' : Fits n D' c' c'') :
    Fits n (fun σ => D σ ∨ D' σ) c c'' where
  piece hp := h'.piece (h.piece hp)
  kept σ hσ := h'.kept σ (h.kept σ hσ)
  given σ hσ := hσ.elim (fun hσ => h'.kept σ (h.given σ hσ)) (h'.given σ)
  still hall :=
    (h'.still fun σ hσ => h.kept σ (hall σ (.inr hσ))).trans (h.still fun σ hσ => hall σ (.inl hσ))

theorem congr (h : Fits n D c c') (hD : ∀ σ, D' σ ↔ D σ) : Fits n D' c c' := by
  obtain rfl : D' = D := funext fun σ => propext (hD σ)
  exact h

/-- What makes no handle, and gives none away. -/
theorem of_same (hpiece : (∃ p, c.piece? n = some p) → ∃ p, c'.piece? n = some p)
    (hspot : ∀ σ : Part, c'.spot? n (.part σ) = c.spot? n (.part σ))
    (hsize : c'.surface.handles.size = c.surface.handles.size) : Fits n (fun _ => False) c c' where
  piece := hpiece
  kept σ hσ := by
    rw [Has, hspot]
    exact hσ
  given _ := False.elim
  still _ := hsize

theorem of_surface {s : Surface} (hsize : s.handles.size = c.surface.handles.size) :
    Fits n (fun _ => False) c { c with surface := s } :=
  of_same id (fun _ => rfl) hsize

theorem note (c : Canvas) (n : PieceId) {f : Piece → Piece} (hf : Quiet f) :
    Fits n (fun _ => False) c (c.modify n f) := by
  refine of_same ?_ (fun σ => spot?_modify_eq hf.spot c n n (.part σ)) rfl
  rintro ⟨p, hp⟩
  exact ⟨_, piece?_modify_self hp f⟩

theorem hideSome (c : Canvas) (n : PieceId) (h : Option HandleId) :
    Fits n (fun _ => False) c (c.onSurface fun s => s.hideSome h) := by
  refine of_surface ?_
  cases h with
  | none => rfl
  | some k => exact Surface.size_handles_of_touches (Surface.touches_setVisible _ k false)

theorem removeContours (c : Canvas) (n : PieceId) :
    Fits n (fun _ => False) c (c.removeContours n) := by
  refine of_same ?_ (fun σ => ?_) ?_
  · rintro ⟨p, hp⟩
    obtain ⟨q, hq, -⟩ := Moves.exists_piece (.single .clear) hp
    exact ⟨q, hq⟩
  · refine spot?_modify_part ?_ _ n n σ
    intro p τ
    cases τ <;> rfl
  · exact foldl_keeps (fun s : Surface => s.handles.size) Surface.size_handles_remove _ _

/-- A piece that is taken into use keeps its parts. -/
theorem acquire {existing : Option PieceId} {kind : PieceKind} {family : Family} {c₁ : Canvas}
    (h : c.acquire existing kind family = (existing.getD c.pieces.size, c₁)) :
    Fits (existing.getD c.pieces.size) (fun _ => False) c c₁ := by
  obtain rfl : (c.acquire existing kind family).2 = c₁ := congrArg Prod.snd h
  have hset : ∀ (c : Canvas) (n : PieceId), Fits n (fun _ => False) c
      (c.modify n fun p => { p with kind, family := some family }) := by
    intro c n
    refine of_same ?_ (fun σ => ?_) rfl
    · rintro ⟨p, hp⟩
      exact ⟨_, piece?_modify_self hp _⟩
    · refine spot?_modify_part ?_ _ n n σ
      intro p τ
      cases τ <;> rfl
  cases existing with
  | none =>
    refine of_same ?_ (fun σ => spot?_acquire_none kind family _ _) rfl
    rintro ⟨p, hp⟩
    exact absurd (Array.getElem?_eq_some_iff.mp hp).1 (Nat.lt_irrefl _)
  | some m =>
    unfold Canvas.acquire
    dsimp only
    split
    · exact ((removeContours c m).trans (hset _ m)).congr fun _ => or_self_iff.symm
    · exact hset c m

end Fits

/-! ## Parts -/

section

variable {p : Piece} (hp : c.piece? n = some p)

include hp

theorem fits_give {σ : Part} {k : HandleId} {s : Surface}
    (h : c.surface.Supplies σ (c.spot? n (.part σ)) k s) : Fits n (· = σ) c (c.give n σ k s) := by
  have hgiven : (c.give n σ k s).spot? n (.part σ) = some k := spot?_give_self hp σ k s
  refine ⟨fun _ => ⟨_, piece?_modify_self (c := { c with surface := s }) hp _⟩, fun τ hτ => ?_, ?_,
    fun hall => ?_⟩
  · by_cases hστ : τ = σ
    · rw [Has, hστ, hgiven]
      rfl
    · rw [Has, spot?_give c n hστ]
      exact hτ
  · rintro τ rfl
    rw [Has, hgiven]
    rfl
  · have hhas := hall σ rfl
    rw [Has] at hhas
    show s.handles.size = c.surface.handles.size
    generalize c.spot? n (.part σ) = existing at h hhas
    cases h with
    | given touches => exact Surface.size_handles_of_touches touches
    | made shape fits touches => cases hhas

theorem fits_useCurve (style : PlotStyle) (mode : String) :
    Fits n (· = .curve) c (c.useCurve n style mode).2 := by
  obtain ⟨k, s, hgive, hsupplies⟩ := c.supplies_useCurve n style mode
  rw [hgive]
  exact fits_give hp hsupplies

theorem fits_showData (style : PlotStyle) (mode : String) (xs ys : List Float) :
    Fits n (· = .curve) c (c.showData n style mode xs ys) := by
  refine ((fits_useCurve hp style mode).trans (.of_surface ?_)).congr fun _ => by rw [or_false]
  exact Surface.size_handles_of_touches ((Surface.touches_modify _ _ (.mapCurve _)).tail .update)

theorem fits_showSource (style : PlotStyle) (source : LazySource) :
    Fits n (· = .curve) c (c.showSource n style source).2 := by
  refine ((fits_useCurve hp style "lines").trans (.of_surface ?_)).congr fun _ => by
    rw [or_false]
  exact Surface.size_handles_of_touches
    ((Surface.touches_modify _ _ (.mapCurve _)).trans (Surface.touches_updateCurve _ _))

theorem fits_circle {σ : Part} (hσ : ∀ m, σ.Fits (.marker m)) (coords : Float × Float)
    (solid : Bool) (color : String) (size : Option Float) :
    Fits n (· = σ) c
      (c.give n σ (c.surface.placeCircle coords solid color (c.spot? n (.part σ)) size).1
        (c.surface.placeCircle coords solid color (c.spot? n (.part σ)) size).2) :=
  fits_give hp (Surface.supplies_placeCircle hσ _ _ _ _ _ _)

theorem fits_boundCircle {σ : Part} (hσ : ∀ m, σ.Fits (.marker m)) (bound : Float) (closed : Bool)
    (view : Float × Float) (place : Float → Float × Float) (style : PlotStyle) :
    Fits n (fun τ => τ = σ ∧ (Surface.boundShape bound closed view place style).isSome = true) c
      (c.boundCircle n σ bound closed view place style) := by
  unfold boundCircle Surface.placeBound Surface.boundShape
  split
  · exact (fits_circle hp hσ (place bound) closed style.color (some style.size)).congr fun τ =>
      and_iff_left rfl
  · rw [modify_eq_self]
    · exact (Fits.hideSome c n _).congr fun τ => iff_of_false (fun h => nomatch h.2) id
    · show (c.piece? n).map _ = c.piece? n
      exact c.map_set_spot? n σ

theorem fits_placeBounds (interval : Interval Float) (view : Float × Float)
    (place : Float → Float × Float) (style : PlotStyle) :
    Fits n
      (fun σ =>
        (σ = .lower ∧ (Surface.boundShape interval.lower interval.lowerClosed view place
          style).isSome = true) ∨
        (σ = .upper ∧ (Surface.boundShape interval.upper interval.upperClosed view place
          style).isSome = true)) c (c.placeBounds n interval view place style) := by
  have hlower := fits_boundCircle hp (σ := .lower) (fun _ => trivial) interval.lower
    interval.lowerClosed view place style
  obtain ⟨q, hq⟩ := hlower.piece ⟨p, hp⟩
  rw [placeBounds_eq_circles]
  exact hlower.trans (fits_boundCircle hq (σ := .upper) (fun _ => trivial) interval.upper
    interval.upperClosed view place style)

end

/-! ## Families -/

theorem frame_acquire {existing : Option PieceId} {kind : PieceKind} {family : Family} {c₁ : Canvas}
    (h : c.acquire existing kind family = (existing.getD c.pieces.size, c₁)) :
    c₁.surface.frame = c.surface.frame := by
  obtain ⟨c₁', hacquire, hframe⟩ := c.acquire_eq existing kind family
  rw [h] at hacquire
  cases hacquire
  exact hframe

/-- Drawing a sketch fits the piece out for just the parts that the sketch shows. -/
def FitsOut (c : Canvas) (existing : Option PieceId) (sketch : Except PlotFault Sketch)
    (outcome : Outcome PieceId) : Prop :=
  ∀ s, sketch = .ok s →
    Fits (existing.getD c.pieces.size) (fun σ => (s.parts σ).isSome = true) c outcome.2

/-- A sketch that fails asks for nothing. -/
theorem fitsOut_error (c : Canvas) (existing : Option PieceId) (e : PlotFault)
    (outcome : Outcome PieceId) : c.FitsOut existing (.error e) outcome := by
  intro s hs
  cases hs

section

variable {existing : Option PieceId}
  (hexisting : ∀ n, existing = some n → ∃ p, c.piece? n = some p)

include hexisting

/-- A curve with a source, and circles at the bounds of its interval. -/
theorem source_fits {family : Family} (r : Restricted) (style : PlotStyle) {s : LazySource}
    (hxs : ∀ ts, ∃ xs, s.xOf ts = some xs) (hys : ∀ ts, ∃ ys, s.yOf ts = some ys) :
    ∃ c₁ c₂, c.acquire existing .curve family = (existing.getD c.pieces.size, c₁) ∧
      (c₁.describe (existing.getD c.pieces.size) r).showSource (existing.getD c.pieces.size) style
        s = (.ok (), c₂) ∧ c₂.surface.frame = c.surface.frame ∧
      ∀ view place, Fits (existing.getD c.pieces.size)
        (fun σ => σ = .curve ∨
          (σ = .lower ∧ (Surface.boundShape r.interval.lower r.interval.lowerClosed view place
            style).isSome = true) ∨
          (σ = .upper ∧ (Surface.boundShape r.interval.upper r.interval.upperClosed view place
            style).isSome = true)) c
        ((c₂.placeBounds (existing.getD c.pieces.size) r.interval view place style).activate
          (existing.getD c.pieces.size)) := by
  obtain ⟨c₁, p, hacquire, hp, -⟩ := acquire_piece hexisting .curve family
  obtain ⟨c₂, hshow, hframe⟩ := (c₁.describe (existing.getD c.pieces.size) r).showSource_eq
    (existing.getD c.pieces.size) style s hxs hys
  have hshown := fits_showSource (c := c₁.describe (existing.getD c.pieces.size) r)
    (piece?_modify_self hp _) style s
  rw [hshow] at hshown
  obtain ⟨q, hq⟩ := hshown.piece ⟨_, piece?_modify_self hp _⟩
  have hframe₁ : c₁.surface.frame = c.surface.frame := frame_acquire hacquire
  refine ⟨c₁, c₂, hacquire, hshow, hframe.trans hframe₁, fun view place => ?_⟩
  refine (((((Fits.acquire hacquire).trans (.note c₁ _ (quiet_describe r))).trans hshown).trans
    (fits_placeBounds hq r.interval view place style)).trans (.note _ _ quiet_activate)).congr ?_
  intro σ
  simp only [false_or, or_false]

theorem plotFunction_fits (relation : List Char) (name : String) (holes : List Float)
    (style : PlotStyle) :
    c.FitsOut existing
      (do return c.surface.frame.ofFunction style holes (← Restricted.ofText? relation name))
      (c.plotFunction relation name holes existing style) := by
  unfold plotFunction
  cases Restricted.ofText? relation name with
  | error e => exact fitsOut_error _ _ _ _
  | ok r =>
    obtain ⟨c₁, c₂, hacquire, hshow, hframe, hfits⟩ := source_fits hexisting r style
      (s := sourceOverX r holes) (fun ts => ⟨_, rfl⟩) (fun ts => ⟨_, rfl⟩)
    have hbounds : c₂.surface.bounds = c.surface.bounds := congrArg Frame.bounds hframe
    dsimp only
    rw [hacquire]
    dsimp only
    rw [hshow]
    dsimp only
    rw [hbounds]
    rintro s ⟨⟩
    refine (hfits _ _).congr fun σ => ?_
    cases σ <;> simp [Frame.ofFunction, Surface.frame]

theorem plotSideways_fits (relation : List Char) (name : String) (style : PlotStyle) :
    c.FitsOut existing
      (do return c.surface.frame.ofSideways style (← Restricted.ofText? relation name))
      (c.plotSideways relation name existing style) := by
  unfold plotSideways
  cases Restricted.ofText? relation name with
  | error e => exact fitsOut_error _ _ _ _
  | ok r =>
    obtain ⟨c₁, c₂, hacquire, hshow, hframe, hfits⟩ := source_fits hexisting r style
      (s := sourceOverY r) (fun ts => ⟨_, rfl⟩) (fun ts => ⟨_, rfl⟩)
    have hbounds : c₂.surface.bounds = c.surface.bounds := congrArg Frame.bounds hframe
    dsimp only
    rw [hacquire]
    dsimp only
    rw [hshow]
    dsimp only
    rw [hbounds]
    rintro s ⟨⟩
    refine (hfits _ _).congr fun σ => ?_
    cases σ <;> simp [Frame.ofSideways, Surface.frame]

theorem plotPolar_fits (relation : List Char) (name : String) (style : PlotStyle) :
    c.FitsOut existing
      (do Frame.ofPolar style (← Restricted.ofText? relation name))
      (c.plotPolar relation name existing style) := by
  unfold plotPolar
  cases Restricted.ofText? relation name with
  | error e => exact fitsOut_error _ _ _ _
  | ok r =>
    obtain ⟨c₁, p, hacquire, hp, -⟩ := acquire_piece hexisting .curve .polar
    rcases hrange : r.polarRange with ⟨lo, hi⟩
    dsimp only
    rw [hacquire, hrange]
    show FitsOut c existing (Frame.ofPolar style r) _
    rw [Frame.ofPolar, hrange]
    dsimp only
    cases Plot.parameterSamples lo hi style.density with
    | error e => exact fitsOut_error _ _ _ _
    | ok ts =>
      dsimp only
      have hcurve := fits_showData (c := c₁.describe (existing.getD c.pieces.size) r)
        (piece?_modify_self hp _) style "lines"
      rintro s ⟨⟩
      refine ((((Fits.acquire hacquire).trans (.note c₁ _ (quiet_describe r))).trans
        (hcurve _ _)).trans
          ((((Fits.hideSome _ _ _).trans (.hideSome _ _ _)).trans (.hideSome _ _ _)).trans
            (.note _ _ quiet_activate))).congr fun σ => ?_
      cases σ <;> simp

theorem plotSequence_fits (relation : List Char) (name : String) (style : PlotStyle) :
    c.FitsOut existing
      (do Frame.ofSequence c.surface.frame style (← Restricted.ofText? relation name))
      (c.plotSequence relation name existing style) := by
  unfold plotSequence
  cases Restricted.ofText? relation name with
  | error e => exact fitsOut_error _ _ _ _
  | ok r =>
    obtain ⟨c₁, p, hacquire, hp, -⟩ := acquire_piece hexisting .curve .sequence
    have hbounds : c.surface.frame.bounds =
        (c₁.describe (existing.getD c.pieces.size) r).surface.bounds :=
      congrArg Frame.bounds (frame_acquire hacquire).symm
    dsimp only
    rw [hacquire]
    show FitsOut c existing (Frame.ofSequence c.surface.frame style r) _
    rw [Frame.ofSequence, hbounds]
    dsimp only
    cases Plot.integerSamples (c₁.describe (existing.getD c.pieces.size) r).surface.bounds.xmin
        (c₁.describe (existing.getD c.pieces.size) r).surface.bounds.xmax with
    | error e => exact fitsOut_error _ _ _ _
    | ok all =>
      rintro s ⟨⟩
      refine ((((Fits.acquire hacquire).trans (.note c₁ _ (quiet_describe r))).trans
        (fits_showData (piece?_modify_self hp _) style "markers" _ _)).trans
          (.note _ _ quiet_activate)).congr fun σ => ?_
      cases σ <;> simp

theorem plotParametric_fits (relation : List Char) (name : String) (style : PlotStyle) :
    c.FitsOut existing
      (do c.surface.frame.ofParametric style (← Frame.readPair relation name))
      (c.plotParametric relation name existing style) := by
  unfold plotParametric
  dsimp only
  split
  next e hread =>
    rw [show Frame.readPair relation name = .error e from hread]
    exact fitsOut_error _ _ _ _
  next x y interval hread =>
    rw [show Frame.readPair relation name = .ok (x, y, interval) from hread]
    obtain ⟨c₁, p, hacquire, hp, -⟩ := acquire_piece hexisting .curve .parametric
    let note : Piece → Piece := fun p =>
      { p with
        relation := unrestricted relation
        restriction := Relation.restriction relation
        interval
        function := none }
    have hquiet : Quiet note :=
      quiet_of (fun p σ => by cases σ <;> rfl) (fun _ => rfl) (fun _ => rfl) fun _ => rfl
    have hnoted := (Fits.acquire hacquire).trans (.note c₁ _ hquiet)
    have hbounds : (c₁.modify (existing.getD c.pieces.size) note).surface.bounds =
        c.surface.bounds := congrArg Frame.bounds (frame_acquire hacquire)
    have hpiece := piece?_modify_self hp note
    rw [hacquire]
    dsimp only
    generalize c₁.modify (existing.getD c.pieces.size) note = c₂ at hnoted hbounds hpiece ⊢
    rw [hbounds]
    -- both the piece and its sketch are drawn from the same samples, or from none
    show FitsOut c existing (Frame.ofParametric c.surface.frame style (x, y, interval)) _
    rw [Frame.ofParametric]
    dsimp only [Surface.frame]
    rcases interval.clamp (smaller c.surface.bounds.xmin c.surface.bounds.ymin)
      (larger c.surface.bounds.xmax c.surface.bounds.ymax) with ⟨lo, hi⟩
    dsimp only
    cases Plot.parameterSamples lo hi style.density with
    | error e => exact fitsOut_error _ _ _ _
    | ok ts =>
      dsimp only
      generalize (ts.map fun t => if interval.contains t = true then
        (x.valueAt #[t], y.valueAt #[t]) else (Binary64.nan, Binary64.nan)) = points
      have hcurve := fits_showData hpiece style "lines" (points.map Prod.fst)
        (points.map Prod.snd)
      obtain ⟨q, hq⟩ := hcurve.piece ⟨_, hpiece⟩
      have hends := (hnoted.trans hcurve).trans (fits_placeBounds hq interval
        (Scale.negInf, Scale.posInf) (fun t => (x.valueAt #[t], y.valueAt #[t])) style)
      obtain ⟨q', hq'⟩ := (fits_placeBounds hq interval (Scale.negInf, Scale.posInf)
        (fun t => (x.valueAt #[t], y.valueAt #[t])) style).piece ⟨_, hq⟩
      generalize Canvas.placeBounds _ _ _ _ _ _ = c₃ at hends hq' ⊢
      cases Interval.finite? interval.hole with
      | some v =>
        have hmark := fits_circle hq' (σ := .hole) (fun _ => trivial)
          (x.valueAt #[v], y.valueAt #[v]) false style.color (some style.size)
        rintro s ⟨⟩
        refine ((hends.trans hmark).trans (.note _ _ quiet_activate)).congr fun σ => ?_
        cases σ <;> simp
      | none =>
        rintro s ⟨⟩
        refine ((hends.trans (.hideSome c₃ _ _)).trans (.note _ _ quiet_activate)).congr fun σ => ?_
        cases σ <;> simp

theorem plotPoint_fits (coords : Float × Float) (solid : Bool) (style : PlotStyle) :
    c.FitsOut existing (.ok (Frame.ofPoint style coords solid))
      (c.plotPoint [coords.1, coords.2] solid existing style) := by
  obtain ⟨c₁, p, hacquire, hp, -⟩ := acquire_piece hexisting .point .point
  rw [plotPoint, hacquire]
  rintro s ⟨⟩
  have hcircle := fits_circle hp (σ := .point) (fun _ => trivial) coords solid style.color
    (some style.size)
  have hquiet : Quiet fun p : Piece => { p with coords := some coords, solid, active := true } :=
    quiet_of (fun p σ => by cases σ <;> rfl) (fun _ => rfl) (fun _ => rfl) fun _ => rfl
  have hnoted := ((Fits.acquire hacquire).trans hcircle).trans (.note _ _ hquiet)
  rw [give, modify_modify] at hnoted
  refine hnoted.congr fun σ => ?_
  cases σ <;> simp [Frame.ofPoint]

theorem plotMark_fits (style : PlotStyle) (functions : List ((Float → Float) × Interval Float))
    (value : Float) :
    c.FitsOut existing (.ok (c.surface.frame.mark style functions value))
      (.ok (c.plotMark value functions existing style).1,
        (c.plotMark value functions existing style).2) := by
  obtain ⟨c₁, p, hacquire, hp, -⟩ := acquire_piece hexisting .asymptote .asymptote
  let note : Piece → Piece := fun p =>
    { p with
      relation := []
      restriction := ("x != " ++ Decimal.general value).toList
      interval := .punctured value }
  have hquiet : Quiet note :=
    quiet_of (fun p σ => by cases σ <;> rfl) (fun _ => rfl) (fun _ => rfl) fun _ => rfl
  have hnoted := (Fits.acquire hacquire).trans (.note c₁ _ hquiet)
  have hpiece := piece?_modify_self hp note
  rw [plotMark, hacquire]
  dsimp only
  generalize c₁.modify (existing.getD c.pieces.size) note = c₂ at hnoted hpiece ⊢
  rintro s ⟨⟩
  rw [Frame.mark]
  -- a circle where the functions have a value, and else a line from bound to bound
  split
  · have hcircle := fits_circle hpiece (σ := .hole) (fun _ => trivial)
      (value, markValue functions value) false style.color (some style.size)
    refine (((hnoted.trans hcircle).trans (.hideSome _ _ _)).trans
      (.note _ _ quiet_activate)).congr fun σ => ?_
    cases σ <;> simp
  · have hwall := fits_give hpiece (Surface.supplies_wall c₂.surface
      (value, c₂.surface.bounds.ymin) (value, c₂.surface.bounds.ymax)
      { color := some style.color, width := some style.width, dash := some dashedPattern } _)
    refine (((hnoted.trans hwall).trans (.hideSome _ _ _)).trans
      (.note _ _ quiet_activate)).congr fun σ => ?_
    cases σ <;> simp

/-- Every segment but an implicit relation, which gets new contours whenever it is drawn. -/
theorem drawSegment_fits (text : List Char) {k : Classification} (hk : k.family ≠ .implicit)
    (style : PlotStyle) (holes : List Float) (fast : Bool) :
    c.FitsOut existing (c.surface.frame.sketch text k style holes fast)
      (c.drawSegment text k style existing holes fast) := by
  unfold Frame.sketch drawSegment
  cases hfamily : k.family with
  | point =>
    dsimp only
    cases Interval.textBounds text with
    | error e => exact fitsOut_error _ _ _ _
    | ok coords => exact plotPoint_fits hexisting coords _ style
  | functionOfX => exact plotFunction_fits hexisting text k.axis holes style
  | functionOfY => exact plotSideways_fits hexisting text k.axis style
  | polar => exact plotPolar_fits hexisting text k.axis style
  | parametric => exact plotParametric_fits hexisting text k.axis style
  | sequence => exact plotSequence_fits hexisting text k.axis style
  | implicit => exact absurd hfamily hk
  | asymptote | unknown => exact fitsOut_error _ _ _ _

end

end Graphing.Canvas
