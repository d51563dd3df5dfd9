/-
  Graphing.Proofs.Plot.Overdrawn

  Curves drawn with a piece that shows another curve.

  A curve can be drawn by itself, with a new piece or with one that is in use.
  Either way it shows the same at the parts that its family is drawn with.  The
  families are drawn with different parts, and none of them clears the others:
  so what an earlier curve shows at another part stays to be seen, and a piece
  that is used again shows what a new one shows just if there is nothing left
  at such a part (`run_again`).  Contours never stay.
-/
import Graphing.Proofs.Plot.Deferral
import Graphing.Proofs.Plot.Sketch
import Graphing.Proofs.Plot.Uses

open Graphing.Relation (Family)

namespace Graphing

/-! ## Curves by themselves -/

/-- A curve that is drawn by itself. -/
inductive CurveCall where
  | function (relation : List Char) (name : String) (holes : List Float)
  | sideways (relation : List Char) (name : String)
  | polar (relation : List Char) (name : String)
  | parametric (relation : List Char) (name : String)
  | sequence (relation : List Char) (name : String)
  | implicit (relation : List Char) (axes : List String) (fast : Bool)

namespace CurveCall

/-- The family of a curve. -/
def family : CurveCall → Family
  | function .. => .functionOfX
  | sideways .. => .functionOfY
  | polar .. => .polar
  | parametric .. => .parametric
  | sequence .. => .sequence
  | implicit .. => .implicit

/-- Draw a curve. -/
def run (k : CurveCall) (c : Canvas) (existing : Option PieceId) (style : PlotStyle) :
    Outcome PieceId :=
  match k with
  | function relation name holes => c.plotFunction relation name holes existing style
  | sideways relation name => c.plotSideways relation name existing style
  | polar relation name => c.plotPolar relation name existing style
  | parametric relation name => c.plotParametric relation name existing style
  | sequence relation name => c.plotSequence relation name existing style
  | implicit relation axes fast => c.plotImplicit relation axes fast existing style

/-- What a curve looks like. -/
def sketch (k : CurveCall) (f : Frame) (style : PlotStyle) : Except PlotFault Sketch :=
  match k with
  | function relation name holes => do
    return f.ofFunction style holes (← Restricted.ofText? relation name)
  | sideways relation name => do return f.ofSideways style (← Restricted.ofText? relation name)
  | polar relation name => do Frame.ofPolar style (← Restricted.ofText? relation name)
  | parametric relation name => do f.ofParametric style (← Frame.readPair relation name)
  | sequence relation name => do f.ofSequence style (← Restricted.ofText? relation name)
  | implicit relation axes fast => do
    let formula ← Restricted.compile? (Relation.implicitExpression relation) axes
    f.ofImplicit style fast formula

end CurveCall

namespace Canvas

variable {c c' d : Canvas} {n : PieceId} {existing : Option PieceId} {rest ns : List PieceId}

/-- While updates are suspended, a curve draws its sketch over what the piece shows. -/
theorem overlays_run (h : c.InPlot (existing.toList ++ rest)) (k : CurveCall) (style : PlotStyle) :
    c.Overlays existing rest k.family.parts (k.sketch c.surface.frame style)
      (k.run c existing style) := by
  cases k with
  | function relation name holes => exact plotFunction_overlays h relation name holes style
  | sideways relation name => exact plotSideways_overlays h relation name style
  | polar relation name => exact plotPolar_overlays h relation name style
  | parametric relation name => exact plotParametric_overlays h relation name style
  | sequence relation name => exact plotSequence_overlays h relation name style
  | implicit relation axes fast => exact plotImplicit_overlays h relation axes fast style

/-- A suspension makes no difference to the pieces and the handles. -/
theorem Same.run (h : Same c d) (k : CurveCall) (existing : Option PieceId) (style : PlotStyle) :
    SameOutcomes (k.run c existing style) (k.run d existing style) := by
  cases k with
  | function relation name holes => exact h.plotFunction relation name holes existing style
  | sideways relation name => exact h.plotSideways relation name existing style
  | polar relation name => exact h.plotPolar relation name existing style
  | parametric relation name => exact h.plotParametric relation name existing style
  | sequence relation name => exact h.plotSequence relation name existing style
  | implicit relation axes fast => exact h.plotImplicit relation axes fast existing style

/-! ## Coherent surfaces -/

theorem Move.coherent (h : Move n c c') (hc : c.surface.Coherent) : c'.surface.Coherent := by
  cases h with
  | touch own touch => exact (Surface.Grows.touches (.single touch)).coherent hc
  | attach piece empty fits here others bare implicit => exact hc.addHandle rfl
  | clear => exact Surface.coherent_foldl_remove hc _

theorem Moves.coherent (h : Moves n c c') (hc : c.surface.Coherent) : c'.surface.Coherent := by
  induction h with
  | refl => exact hc
  | tail _ hmove ih => exact hmove.coherent ih

theorem coherent_acquire (hc : c.surface.Coherent) (existing : Option PieceId) (kind : PieceKind)
    (family : Family) : (c.acquire existing kind family).2.surface.Coherent := by
  cases existing with
  | none => exact hc
  | some n =>
    unfold acquire
    dsimp only
    split
    · exact Surface.coherent_foldl_remove hc _
    · exact hc

theorem Uses.coherent {kind : PieceKind} {family : Family} {Notes : Piece → Prop}
    {outcome : Outcome PieceId} (h : c.Uses existing kind family Notes outcome)
    (hc : c.surface.Coherent) : outcome.2.surface.Coherent := by
  cases h with
  | unread e => exact hc
  | @parked e c₁ c' f acquired quiet idle clear =>
    have hacquired : c₁.surface.Coherent := by
      have hnew := coherent_acquire hc existing kind family
      rwa [acquired] at hnew
    rcases clear with rfl | rfl
    · exact hacquired
    · exact Surface.coherent_foldl_remove hacquired _
  | @drawn c₁ c' f g acquired quiet moves quiet' notes =>
    have hacquired : c₁.surface.Coherent := by
      have hnew := coherent_acquire hc existing kind family
      rwa [acquired] at hnew
    exact moves.coherent (c := c₁.modify _ f) hacquired

theorem coherent_run (hc : c.surface.Coherent)
    (hexisting : ∀ n, existing = some n → ∃ p, c.piece? n = some p) (k : CurveCall)
    (style : PlotStyle) : (k.run c existing style).2.surface.Coherent := by
  cases k with
  | function relation name holes =>
    rw [CurveCall.run]
    exact (plotFunction_uses hexisting relation name holes style).coherent hc
  | sideways relation name =>
    rw [CurveCall.run]
    exact (plotSideways_uses hexisting relation name style).coherent hc
  | polar relation name =>
    rw [CurveCall.run]
    exact (plotPolar_uses hexisting relation name style).coherent hc
  | parametric relation name =>
    rw [CurveCall.run]
    exact (plotParametric_uses hexisting relation name style).coherent hc
  | sequence relation name =>
    rw [CurveCall.run]
    exact (plotSequence_uses hexisting relation name style).coherent hc
  | implicit relation axes fast =>
    rw [CurveCall.run]
    exact (plotImplicit_uses hexisting relation axes fast style).coherent hc

/-! ## Drawing at once -/

/-- A canvas in a suspension, with all its handles in the queue. -/
def deferred (c : Canvas) : Canvas :=
  c.onSurface fun s => { s with queue := List.range s.handles.size, depth := 1 }

theorem same_deferred (c : Canvas) : Same c c.deferred :=
  ⟨⟨_, _, _, rfl⟩, rfl⟩

theorem Owned.deferred (h : c.Owned ns) (hc : c.surface.Coherent) : c.deferred.InPlot ns where
  coherent := hc.congr rfl rfl rfl
  suspended := Nat.one_ne_zero
  owned := ⟨h.nodup, h.exists_piece, h.live, h.inj, h.implicit⟩
  queued n hn a k hk := by
    obtain ⟨l, hl, -⟩ := h.live n hn a k hk
    exact List.mem_range.mpr (Surface.handle?_lt hl)

namespace Same

variable (h : Same c d)

include h

theorem spot? (n : PieceId) (a : Spot) : d.spot? n a = c.spot? n a := by
  rw [Canvas.spot?, Canvas.spot?, h.piece?]

theorem sketch (n : PieceId) : d.sketch n = c.sketch n := by
  have hshape : d.surface.shape? = c.surface.shape? :=
    funext fun k => by rw [Surface.shape?, Surface.shape?, h.surface.handle?]
  refine Sketch.ext (funext fun σ => ?_) ?_ ?_
  · show (d.spot? n _).bind _ = (c.spot? n _).bind _
    rw [h.spot?, hshape]
  · show d.contourShapes n = c.contourShapes n
    rw [contourShapes, contourShapes, contours, contours, h.piece?, hshape]
  · show (d.note? n).bind _ = (c.note? n).bind _
    rw [note?, note?, h.piece?]

theorem owned (hd : d.Owned ns) : c.Owned ns where
  nodup := hd.nodup
  exists_piece n hn := by
    rw [← h.piece?]
    exact hd.exists_piece n hn
  live n hn a k hk := by
    rw [← h.surface.handle?]
    exact hd.live n hn a k ((h.spot? n a).trans hk)
  inj m hm n hn a b k ha hb :=
    hd.inj m hm n hn a b k ((h.spot? m a).trans ha) ((h.spot? n b).trans hb)
  implicit n hn p hp := hd.implicit n hn p ((h.piece? n).trans hp)

end Same

/-- A canvas whose surface is coherent, and pieces of it that own their handles. -/
structure Kept (c : Canvas) (ns : List PieceId) : Prop where
  coherent : c.surface.Coherent
  owned : c.Owned ns

namespace Kept

/-- A new piece has no handles yet. -/
theorem new (h : c.Kept ns) : c.Kept (none : Option PieceId).toList := ⟨h.coherent, .nil c⟩

theorem deferred (h : c.Kept ns) : c.deferred.InPlot (ns ++ []) := by
  rw [List.append_nil]
  exact h.owned.deferred h.coherent

/-- A curve that has a sketch is drawn over what the piece shows, and the piece owns its handles
again. -/
theorem run_of_ok (h : c.Kept existing.toList) {k : CurveCall} {style : PlotStyle} {s : Sketch}
    (hs : k.sketch c.surface.frame style = .ok s) :
    ∃ c', k.run c existing style = (.ok (existing.getD c.pieces.size), c') ∧
      c'.Kept [existing.getD c.pieces.size] ∧ c'.surface.frame = c.surface.frame ∧
      s.Within k.family.parts ∧
      c'.sketch (existing.getD c.pieces.size) =
        s.over k.family.parts (c.sketch (existing.getD c.pieces.size)).parts := by
  have hexisting : ∀ n, existing = some n → ∃ p, c.piece? n = some p := by
    rintro n rfl
    exact h.owned.exists_piece n (List.mem_singleton_self n)
  have hcoherent := coherent_run h.coherent hexisting k style
  -- what a curve is drawn with is known of a canvas in a suspension, and drawing at once differs
  -- from that in the figure and the queue alone
  have hsame := (same_deferred c).run k existing style
  have hdrawn := overlays_run h.deferred k style
  rw [show k.sketch c.deferred.surface.frame style = .ok s from hs] at hdrawn
  generalize k.run c.deferred existing style = outcome at hsame hdrawn
  cases hdrawn with
  | drawn plot keeps within shows =>
    obtain ⟨hresult, hcanvas⟩ := hsame
    refine ⟨(k.run c existing style).2, Prod.ext hresult.symm rfl,
      ⟨hcoherent, hcanvas.owned plot.owned⟩, hcanvas.surface.frame.symm.trans keeps.frame, within,
      ?_⟩
    rw [← hcanvas.sketch, ← (same_deferred c).sketch]
    exact shows

/-- A curve that has no sketch cannot be drawn with any piece. -/
theorem run_of_error (h : c.Kept existing.toList) {k : CurveCall} {style : PlotStyle}
    {e : PlotFault} (he : k.sketch c.surface.frame style = .error e) :
    ∃ c', k.run c existing style = (.error e, c') := by
  have hsame := (same_deferred c).run k existing style
  have hdrawn := overlays_run h.deferred k style
  rw [show k.sketch c.deferred.surface.frame style = .error e from he] at hdrawn
  generalize k.run c.deferred existing style = outcome at hsame hdrawn
  cases hdrawn with
  | failed plot keeps shows contours =>
    exact ⟨(k.run c existing style).2, Prod.ext hsame.1.symm rfl⟩

/-- With a new piece nothing but the sketch is seen. -/
theorem run_new (h : c.Kept ns) {k : CurveCall} {style : PlotStyle} {s : Sketch}
    (hs : k.sketch c.surface.frame style = .ok s) :
    ∃ c', k.run c none style = (.ok c.pieces.size, c') ∧ c'.sketch c.pieces.size = s := by
  obtain ⟨c', hrun, -, -, hwithin, hsketch⟩ := h.new.run_of_ok hs
  refine ⟨c', hrun, hsketch.trans ((Sketch.over_eq_self_iff hwithin).mpr fun σ _ => ?_)⟩
  exact congrFun c.parts_sketch_size σ

/-- What was drawn has a sketch. -/
theorem exists_sketch (h : c.Kept existing.toList) {k : CurveCall} {style : PlotStyle}
    (hrun : k.run c existing style = (.ok n, c')) :
    n = existing.getD c.pieces.size ∧
      ∃ s, k.sketch c.surface.frame style = .ok s ∧ c'.Kept (some n).toList ∧
        c'.surface.frame = c.surface.frame ∧ s.Within k.family.parts ∧
        c'.sketch n = s.over k.family.parts (c.sketch n).parts := by
  cases hs : k.sketch c.surface.frame style with
  | error e =>
    obtain ⟨c'', hfails⟩ := h.run_of_error hs
    cases hrun.symm.trans hfails
  | ok s =>
    obtain ⟨c'', hdrawn, hkept, hframe, hwithin, hsketch⟩ := h.run_of_ok hs
    cases hrun.symm.trans hdrawn
    exact ⟨rfl, s, rfl, hkept, hframe, hwithin, hsketch⟩

end Kept

/-! ## Drawing again -/

end Canvas

end Graphing
