/-
  Graphing.Proofs.Plot.Painted

  Plots on a figure that takes their style.

  The options of a plot are looked at before it draws, all but the color.  If
  the figure takes the color, it takes every handle that the plot makes or
  changes: the surface stays `Painted`, whatever is drawn.  Then nothing is
  refused when the plot ends.
-/
import Graphing.Proofs.Plot.Jobs

namespace Graphing

/-! ## Usual values -/

namespace Validator

/-- A figure that takes what handles begin with and what plots use of themselves: the usual colors,
dashes and modes, and all widths and sizes that are positive and finite. -/
structure Usual (v : Validator) : Prop where
  color : v.color PlotStyle.usual.color = true
  fill : v.color hollowFill = true
  width : ∀ x, isPositiveFinite x = true → v.width x = true
  size : ∀ x, isPositiveFinite x = true → v.size x = true
  solid : v.dash solidPattern = true
  dashed : v.dash dashedPattern = true
  lines : v.mode "lines" = true
  markers : v.mode "markers" = true

theorem usual_documented : documented.Usual := by
  have hpositive : ∀ x, isPositiveFinite x = true → isNotNegative x = true := by
    intro x hx
    rw [isNotNegative, ((Bool.and_eq_true _ _).mp hx).2, Bool.true_or]
  exact ⟨by decide +kernel, by decide +kernel, hpositive, hpositive, by decide +kernel,
    by decide +kernel, by decide +kernel, by decide +kernel⟩

/-- A figure that takes the values of a style. -/
structure TakesStyle (v : Validator) (style : PlotStyle) : Prop where
  color : v.color style.color = true
  width : v.width style.width = true
  size : v.size style.size = true
  dash : v.dash style.dash = true

theorem requirePositive_ok {name : String} {x : Float} {u : Unit}
    (h : requirePositive name x = .ok u) : isPositiveFinite x = true := by
  unfold requirePositive at h
  split at h
  · assumption
  · cases h

/-- Options that are accepted need only their color taken. -/
theorem Usual.takesStyle {v : Validator} (hv : v.Usual) {o : StyleOptions} {style : PlotStyle}
    (hstyle : PlotStyle.ofOptions? o = .ok style)
    (hcolor : v.color (o.color.getD PlotStyle.usual.color) = true) : v.TakesStyle style := by
  unfold PlotStyle.ofOptions? at hstyle
  obtain ⟨width, -, hstyle⟩ := Except.bind_eq_ok.mp hstyle
  obtain ⟨_, hw, hstyle⟩ := Except.bind_eq_ok.mp hstyle
  obtain ⟨_, -, hstyle⟩ := Except.bind_eq_ok.mp hstyle
  obtain ⟨_, hs, hstyle⟩ := Except.bind_eq_ok.mp hstyle
  cases hstyle
  refine ⟨hcolor, hv.width _ (requirePositive_ok hw), hv.size _ (requirePositive_ok hs), ?_⟩
  unfold PlotStyle.dash
  split
  · exact hv.dashed
  · exact hv.solid

/-! ## Shapes -/

variable {v : Validator}

theorem takes_curve {c : Curve} : (Shape.curve c).attributes.all v.takes = true ↔
    v.mode c.mode = true ∧ v.color c.color = true ∧ v.width c.width = true ∧
      v.dash c.dash = true ∧ v.size c.markerSize = true := by
  simp only [Shape.attributes, takes, List.all_cons, List.all_nil, Option.all_none, Bool.and_true,
    Bool.true_and, Bool.and_eq_true]
  tauto

theorem takes_marker {m : Marker} : (Shape.marker m).attributes.all v.takes = true ↔
    v.color m.fill = true ∧ v.size m.size = true ∧ v.color m.color = true ∧ v.width 2 = true := by
  simp only [Shape.attributes, takes, List.all_cons, List.all_nil, Option.all_some, Bool.and_true,
    Bool.true_and, Bool.and_eq_true]
  tauto

theorem takes_segment {g : Segment} : (Shape.segment g).attributes.all v.takes = true ↔
    v.color g.color = true ∧ v.width g.width = true ∧ v.dash g.dash = true := by
  simp only [Shape.attributes, takes, List.all_cons, List.all_nil, Bool.and_true, Bool.true_and,
    Bool.and_eq_true]
  tauto

end Validator

/-! ## Surfaces -/

namespace Surface

variable {v : Validator} {s s' : Surface}

/-- The figure takes every handle that is there. -/
def Painted (v : Validator) (s : Surface) : Prop := ∀ n, s.takesAt v n = true

namespace Painted

theorem congr (h : s.Painted v) (hhandles : s'.handles = s.handles) : s'.Painted v := by
  intro n
  rw [takesAt_congr hhandles]
  exact h n

/-- Nothing is refused at the end of a suspension. -/
theorem endsWell (h : s.Painted v) : s.endsWell v = true := by
  rw [Surface.endsWell, List.all_eq_true.mpr fun n _ => h n, Bool.or_true]

theorem modify (h : s.Painted v) (n : HandleId) {f : Handle → Handle}
    (hremoved : ∀ k, k.removed = true → (f k).removed = true)
    (htakes : ∀ k, v.takesHandle k = true → v.takesHandle (f k) = true) :
    (s.modify n f).Painted v := by
  intro m
  have hm := h m
  unfold takesAt at hm ⊢
  rw [handle?_modify]
  split
  · cases hk : s.handle? m with
    | none => rfl
    | some k =>
      rw [hk, Option.all_some, Bool.or_eq_true] at hm
      rw [Option.map_some, Option.all_some, Bool.or_eq_true]
      exact hm.imp (hremoved k) (htakes k)
  · exact hm

theorem update (h : s.Painted v) (n : HandleId) : (s.update n).Painted v :=
  h.congr (s.handles_update n)

theorem setVisible (h : s.Painted v) (n : HandleId) (visible : Bool) :
    (s.setVisible n visible).Painted v := by
  have htakes : ∀ k : Handle, v.takesHandle k = true →
      v.takesHandle { k with visible } = true := fun k hk => by
    rw [Handle.takesHandle_eq] at hk ⊢
    exact hk
  exact (h.modify n (f := fun k => { k with visible }) (fun _ => id) htakes).update n

theorem hideSome (h : s.Painted v) (n : Option HandleId) : (s.hideSome n).Painted v := by
  cases n with
  | none => exact h
  | some n => exact h.setVisible n false

theorem addHandle (h : s.Painted v) {mode : String} {shape : Shape}
    (hshape : shape.attributes.all v.takes = true) : (s.addHandle mode shape).2.Painted v := by
  intro m
  unfold takesAt
  rw [handle?_addHandle]
  split
  · rw [Option.all_some, Handle.takesHandle_eq v _, hshape, Bool.or_true]
  · exact h m

theorem remove (h : s.Painted v) (n : HandleId) : (s.remove n).Painted v := by
  unfold Surface.remove
  split
  · split
    · exact h
    · refine congr (h.modify n (f := fun k => { k with removed := true }) (fun _ _ => rfl) ?_) rfl
      intro k hk
      rw [Handle.takesHandle_eq] at hk ⊢
      exact hk
  · exact h

theorem foldl_remove (h : s.Painted v) (ns : List HandleId) :
    (ns.foldl Surface.remove s).Painted v :=
  List.foldlRecOn ns Surface.remove h fun _ hs n _ => hs.remove n

/-! ### Changes of shapes -/

theorem mapCurve (h : s.Painted v) (n : HandleId) {f : Curve → Curve}
    (hf : ∀ c, (Shape.curve c).attributes.all v.takes = true →
      (Shape.curve (f c)).attributes.all v.takes = true) :
    (s.modify n (Handle.mapCurve f)).Painted v := by
  refine h.modify n (fun k hk => (Handle.Gentle.mapCurve f k).2.1.trans hk) fun k hk => ?_
  rw [Handle.takesHandle_eq] at hk ⊢
  obtain ⟨trace, shape, visible, removed⟩ := k
  cases shape with
  | curve c => exact hf c hk
  | marker | segment => exact hk

theorem mapMarker (h : s.Painted v) (n : HandleId) {f : Marker → Marker}
    (hf : ∀ m, (Shape.marker (f m)).attributes.all v.takes = true) :
    (s.modify n (Handle.mapMarker f)).Painted v := by
  refine h.modify n (fun k hk => (Handle.Gentle.mapMarker f k).2.1.trans hk) fun k hk => ?_
  rw [Handle.takesHandle_eq] at hk ⊢
  obtain ⟨trace, shape, visible, removed⟩ := k
  cases shape with
  | marker m => exact hf m
  | curve | segment => exact hk

theorem mapSegment (h : s.Painted v) (n : HandleId) {f : Segment → Segment}
    (hf : ∀ g, (Shape.segment (f g)).attributes.all v.takes = true) :
    (s.modify n (Handle.mapSegment f)).Painted v := by
  refine h.modify n (fun k hk => (Handle.Gentle.mapSegment f k).2.1.trans hk) fun k hk => ?_
  rw [Handle.takesHandle_eq] at hk ⊢
  obtain ⟨trace, shape, visible, removed⟩ := k
  cases shape with
  | segment g => exact hf g
  | curve | marker => exact hk

/-- Samples are no matter of style. -/
theorem updateCurve (h : s.Painted v) (n : HandleId) : (s.updateCurve n).2.Painted v := by
  unfold Surface.updateCurve
  split
  · exact h.update n
  · dsimp only
    split
    · exact h
    · rename_i xs _
      have hxs := h.mapCurve n (f := fun c => { c with xs }) fun c hc =>
        Validator.takes_curve.mpr (Validator.takes_curve.mp hc)
      split
      · exact hxs
      · rename_i ys _
        exact (hxs.mapCurve n (f := fun c => { c with ys }) fun c hc =>
          Validator.takes_curve.mpr (Validator.takes_curve.mp hc)).update n

/-! ### What plots make -/

variable {style : PlotStyle} (hv : v.Usual) (hstyle : v.TakesStyle style)

include hv hstyle

theorem placeCircle (h : s.Painted v) (coords : Float × Float) (solid : Bool)
    (existing : Option HandleId) :
    (s.placeCircle coords solid style.color existing (some style.size)).2.Painted v := by
  have htakes : ∀ m : Marker, (Shape.marker (m.configure
      { color := some style.color, solid := some solid, size := some style.size })).attributes.all
        v.takes = true := by
    intro m
    refine Validator.takes_marker.mpr ⟨?_, hstyle.size, hstyle.color, hv.width 2 ?_⟩
    · -- a hollow circle is filled with a color of its own
      cases solid
      · exact hv.fill
      · exact hstyle.color
    · decide +kernel
  cases existing with
  | none => exact (h.addHandle (htakes _)).setVisible _ true
  | some k => exact (h.mapMarker k fun m => htakes _).setVisible k true

omit hstyle in
theorem newSegment (h : s.Painted v) (start finish : Float × Float) :
    (s.newSegment start finish {}).2.Painted v := by
  have hshape : (Shape.segment (({ start, finish } : Segment).configure {})).attributes.all
      v.takes = true :=
    Validator.takes_segment.mpr
      ⟨hv.color, hv.width PlotStyle.usual.width (by decide +kernel), hv.solid⟩
  have hadded : (s.addHandle "lines" _).2.Painted v := h.addHandle hshape
  exact hadded.setVisible _ true

theorem placeBound (h : s.Painted v) (bound : Float) (closed : Bool) (view : Float × Float)
    (place : Float → Float × Float) (existing : Option HandleId) :
    (s.placeBound bound closed view place style existing).2.Painted v := by
  unfold Surface.placeBound
  split
  · exact h.placeCircle hv hstyle (place bound) closed existing
  · exact h.hideSome existing

end Painted
end Surface

/-! ## Canvases -/

namespace Canvas

/-- The figure takes every handle on the canvas. -/
def Painted (v : Validator) (c : Canvas) : Prop := c.surface.Painted v

namespace Painted

variable {v : Validator} {c : Canvas} {n : PieceId}

theorem modify (h : c.Painted v) (n : PieceId) (f : Piece → Piece) : (c.modify n f).Painted v := h

theorem describe (h : c.Painted v) (n : PieceId) (r : Restricted) : (c.describe n r).Painted v := h

theorem activate (h : c.Painted v) (n : PieceId) : (c.activate n).Painted v := h

theorem hideSome (h : c.Painted v) (k : Option HandleId) :
    (c.onSurface fun s => s.hideSome k).Painted v := Surface.Painted.hideSome h k

theorem hidePiece (h : c.Painted v) (n : PieceId) : (c.hidePiece n).Painted v := by
  have hhide : ((c.handles n).foldl Surface.hide c.surface).Painted v :=
    List.foldlRecOn (motive := Surface.Painted v) _ Surface.hide h fun _ hs k _ =>
      hs.setVisible k false
  exact hhide

theorem removeContours (h : c.Painted v) (n : PieceId) : (c.removeContours n).Painted v :=
  Surface.Painted.foldl_remove h _

theorem acquire (h : c.Painted v) (existing : Option PieceId) (kind : PieceKind)
    (family : Relation.Family) : (c.acquire existing kind family).2.Painted v := by
  cases existing with
  | none => exact h
  | some n =>
    unfold Canvas.acquire
    dsimp only
    split
    · exact h.removeContours n
    · exact h

variable {style : PlotStyle} (hv : v.Usual) (hstyle : v.TakesStyle style)

include hv hstyle

theorem useCurve (h : c.Painted v) (n : PieceId) {mode : String} (hmode : v.mode mode = true) :
    (c.useCurve n style mode).2.Painted v := by
  have htakes : ∀ {s : Surface}, s.Painted v → ∀ k, (s.modify k fun handle =>
      { handle.mapCurve (fun curve => curve.configure
        { color := some style.color, width := some style.width, dash := some style.dash
          mode := some mode, markerSize := some style.size }) with visible := true }).Painted v := by
    intro s hs k
    refine hs.modify k (fun handle hremoved => ?_) fun handle hhandle => ?_
    · exact (Handle.Gentle.mapCurve _ handle).2.1.trans hremoved
    · rw [Handle.takesHandle_eq] at hhandle ⊢
      obtain ⟨trace, shape, visible, removed⟩ := handle
      cases shape with
      | curve curve =>
        exact Validator.takes_curve.mpr
          ⟨hmode, hstyle.color, hstyle.width, hstyle.dash, hstyle.size⟩
      | marker | segment => exact hhandle
  have hnew : (c.surface.newCurve {}).2.Painted v := by
    refine Surface.Painted.addHandle h (Validator.takes_curve.mpr ?_)
    exact ⟨hv.lines, hv.color, hv.width PlotStyle.usual.width (by decide +kernel), hv.solid,
      hv.size PlotStyle.usual.size (by decide +kernel)⟩
  -- a new curve is taken as it is made, and again in the style of the plot
  unfold Canvas.useCurve
  cases (c.piece? n).bind (·.curve) with
  | none => exact htakes hnew _
  | some k => exact htakes h k

theorem showData (h : c.Painted v) (n : PieceId) {mode : String} (hmode : v.mode mode = true)
    (xs ys : List Float) : (c.showData n style mode xs ys).Painted v :=
  (Surface.Painted.mapCurve (h.useCurve hv hstyle n hmode) _ (f := fun c => c.setData xs ys)
    fun _ hc => Validator.takes_curve.mpr (Validator.takes_curve.mp hc)).update _

theorem showSource (h : c.Painted v) (n : PieceId) (source : LazySource) :
    (c.showSource n style source).2.Painted v :=
  (Surface.Painted.mapCurve (h.useCurve hv hstyle n hv.lines) _ (f := fun c => c.setSource source)
    fun _ hc => Validator.takes_curve.mpr (Validator.takes_curve.mp hc)).updateCurve _

theorem placeBounds (h : c.Painted v) (n : PieceId) (interval : Interval Float)
    (view : Float × Float) (place : Float → Float × Float) :
    (c.placeBounds n interval view place style).Painted v :=
  (Surface.Painted.placeBound hv hstyle h _ _ view place _).placeBound hv hstyle _ _ view place _

theorem addContours (h : c.Painted v) (n : PieceId) (lines : List (List (Contour.Point Float))) :
    (c.addContours n style lines).Painted v := by
  have hcurve : (Shape.curve (({} : Curve).configure
      { color := some style.color, width := some style.width, dash := some style.dash })).attributes.all
        v.takes = true :=
    Validator.takes_curve.mpr ⟨hv.lines, hstyle.color, hstyle.width, hstyle.dash,
      hv.size PlotStyle.usual.size (by decide +kernel)⟩
  unfold Canvas.addContours
  induction lines generalizing c with
  | nil => exact h
  | cons line lines ih =>
    rw [List.foldl_cons]
    refine ih ?_
    have hnew : (c.surface.addHandle "lines" _).2.Painted v := Surface.Painted.addHandle h hcurve
    have hset := hnew.mapCurve c.surface.handles.size
      (f := fun curve => curve.setData (line.map (·.x)) (line.map (·.y)))
      fun _ hc => Validator.takes_curve.mpr (Validator.takes_curve.mp hc)
    exact hset.setVisible c.surface.handles.size true

/-! ### Families of curves -/

theorem plotFunction (h : c.Painted v) (relation : List Char) (name : String) (holes : List Float)
    (existing : Option PieceId) :
    (c.plotFunction relation name holes existing style).2.Painted v := by
  unfold Canvas.plotFunction
  cases Restricted.ofText? relation name with
  | error e => exact h
  | ok r =>
    have hacquired := h.acquire existing .curve .functionOfX
    dsimp only
    generalize c.acquire existing .curve .functionOfX = acquired at hacquired ⊢
    have hshown := (hacquired.describe acquired.1 r).showSource hv hstyle acquired.1
      (sourceOverX r holes)
    generalize Canvas.showSource _ _ _ _ = shown at hshown ⊢
    obtain ⟨_ | _, c'⟩ := shown
    · exact hshown
    · exact (hshown.placeBounds hv hstyle acquired.1 r.interval _ _).activate _

theorem plotSideways (h : c.Painted v) (relation : List Char) (name : String)
    (existing : Option PieceId) : (c.plotSideways relation name existing style).2.Painted v := by
  unfold Canvas.plotSideways
  cases Restricted.ofText? relation name with
  | error e => exact h
  | ok r =>
    have hacquired := h.acquire existing .curve .functionOfY
    dsimp only
    generalize c.acquire existing .curve .functionOfY = acquired at hacquired ⊢
    have hshown := (hacquired.describe acquired.1 r).showSource hv hstyle acquired.1 (sourceOverY r)
    generalize Canvas.showSource _ _ _ _ = shown at hshown ⊢
    obtain ⟨_ | _, c'⟩ := shown
    · exact hshown
    · exact (hshown.placeBounds hv hstyle acquired.1 r.interval _ _).activate _

theorem plotPolar (h : c.Painted v) (relation : List Char) (name : String)
    (existing : Option PieceId) : (c.plotPolar relation name existing style).2.Painted v := by
  unfold Canvas.plotPolar
  cases Restricted.ofText? relation name with
  | error e => exact h
  | ok r =>
    have hdescribed := (h.acquire existing .curve .polar).describe
      (c.acquire existing .curve .polar).1 r
    dsimp only
    cases Plot.parameterSamples r.polarRange.1 r.polarRange.2 style.density with
    | error e => exact hdescribed
    | ok ts =>
      have hcurve := hdescribed.showData hv hstyle (c.acquire existing .curve .polar).1 hv.lines
      exact Painted.activate (((hcurve _ _).hideSome _).hideSome _ |>.hideSome _) _

theorem plotParametric (h : c.Painted v) (relation : List Char) (name : String)
    (existing : Option PieceId) : (c.plotParametric relation name existing style).2.Painted v := by
  unfold Canvas.plotParametric
  dsimp only
  split
  next e hread => exact h
  next x y interval hread =>
    have hacquired := h.acquire existing .curve .parametric
    generalize c.acquire existing .curve .parametric = acquired at hacquired ⊢
    have hnoted := hacquired.modify acquired.1 fun p =>
      { p with
        relation := Relation.unrestricted relation
        restriction := Relation.restriction relation
        interval
        function := none }
    generalize acquired.2.modify acquired.1 _ = c₁ at hnoted ⊢
    split
    next e hsamples => exact hnoted
    next ts hsamples =>
      generalize (ts.map fun t => if interval.contains t = true then
        (x.valueAt #[t], y.valueAt #[t]) else (Binary64.nan, Binary64.nan)) = points
      have hcurve := (hnoted.showData hv hstyle acquired.1 hv.lines (points.map Prod.fst)
        (points.map Prod.snd)).placeBounds hv hstyle acquired.1 interval
          (Scale.negInf, Scale.posInf) fun t => (x.valueAt #[t], y.valueAt #[t])
      generalize Canvas.placeBounds _ _ _ _ _ _ = c₂ at hcurve ⊢
      refine Painted.activate ?_ _
      split
      next hole _ =>
        have hplaced := Surface.Painted.placeCircle hv hstyle hcurve
          (x.valueAt #[hole], y.valueAt #[hole]) false ((c₂.piece? acquired.1).bind (·.hole))
        exact hplaced
      next => exact hcurve.hideSome _

theorem plotSequence (h : c.Painted v) (relation : List Char) (name : String)
    (existing : Option PieceId) : (c.plotSequence relation name existing style).2.Painted v := by
  unfold Canvas.plotSequence
  cases Restricted.ofText? relation name with
  | error e => exact h
  | ok r =>
    have hdescribed := (h.acquire existing .curve .sequence).describe
      (c.acquire existing .curve .sequence).1 r
    dsimp only
    split
    next e _ => exact hdescribed
    next all _ => exact (hdescribed.showData hv hstyle _ hv.markers _ _).activate _

theorem plotImplicit (h : c.Painted v) (relation : List Char) (axes : List String) (fast : Bool)
    (existing : Option PieceId) :
    (c.plotImplicit relation axes fast existing style).2.Painted v := by
  unfold Canvas.plotImplicit
  dsimp only
  cases Restricted.compile? (Relation.implicitExpression relation) axes with
  | error e => exact h
  | ok formula =>
    have hcleared := ((h.acquire existing .curve .implicit).modify
      (c.acquire existing .curve .implicit).1 fun p =>
        { p with
          relation := Relation.implicitExpression relation
          restriction := []
          interval := .universal
          function := some formula }).removeContours (c.acquire existing .curve .implicit).1
    dsimp only
    split
    next e _ => exact hcleared
    next lines _ => exact (hcleared.addContours hv hstyle _ lines).activate _

theorem plotPoint (h : c.Painted v) (coords : List Float) (solid : Bool)
    (existing : Option PieceId) : (c.plotPoint coords solid existing style).2.Painted v := by
  unfold Canvas.plotPoint
  have hacquired := h.acquire existing .point .point
  generalize c.acquire existing .point .point = acquired at hacquired ⊢
  dsimp only
  split
  next e _ => exact hacquired
  next point _ =>
    have hplaced := Surface.Painted.placeCircle hv hstyle hacquired point solid
      ((acquired.2.piece? acquired.1).bind (·.point))
    exact hplaced

theorem plotMark (h : c.Painted v) (value : Float)
    (functions : List ((Float → Float) × Interval Float)) (existing : Option PieceId) :
    (c.plotMark value functions existing style).2.Painted v := by
  unfold Canvas.plotMark
  have hacquired := h.acquire existing .asymptote .asymptote
  generalize c.acquire existing .asymptote .asymptote = acquired at hacquired ⊢
  have hnoted := hacquired.modify acquired.1 fun p =>
    { p with
      relation := []
      restriction := ("x != " ++ Decimal.general value).toList
      interval := .punctured value }
  dsimp only
  generalize acquired.2.modify acquired.1 _ = c₁ at hnoted ⊢
  refine Painted.activate ?_ _
  split
  · have hplaced := Surface.Painted.placeCircle hv hstyle hnoted (value, markValue functions value)
      false ((c₁.piece? acquired.1).bind (·.hole))
    exact hplaced.hideSome _
  · -- a wall is dashed whatever the style of the plot
    have hwall : ∀ {s : Surface}, s.Painted v → ∀ k start finish, ((s.modify k
        (Handle.mapSegment fun g => { g with start, finish }.configure
          { color := some style.color, width := some style.width,
            dash := some dashedPattern })).unhide k).Painted v := fun hs k start finish =>
      (hs.mapSegment k fun _ => Validator.takes_segment.mpr
        ⟨hstyle.color, hstyle.width, hv.dashed⟩).setVisible k true
    refine Surface.Painted.hideSome ?_ _
    rw [surface_modify]
    split
    · exact hwall hnoted _ _ _
    · have hnew := Surface.Painted.newSegment hv hnoted (value, c₁.surface.bounds.ymin)
        (value, c₁.surface.bounds.ymax)
      generalize c₁.surface.newSegment _ _ {} = made at hnew ⊢
      exact hwall hnew _ _ _

/-! ### Whole plots -/

theorem drawSegment (h : c.Painted v) (text : List Char) (k : Relation.Classification)
    (existing : Option PieceId) (holes : List Float) (fast : Bool) :
    (c.drawSegment text k style existing holes fast).2.Painted v := by
  unfold Canvas.drawSegment
  cases k.family with
  | point =>
    dsimp only
    split
    · exact h
    · exact h.plotPoint hv hstyle _ _ existing
  | functionOfX => exact h.plotFunction hv hstyle text k.axis holes existing
  | functionOfY => exact h.plotSideways hv hstyle text k.axis existing
  | polar => exact h.plotPolar hv hstyle text k.axis existing
  | parametric => exact h.plotParametric hv hstyle text k.axis existing
  | sequence => exact h.plotSequence hv hstyle text k.axis existing
  | implicit => exact h.plotImplicit hv hstyle text _ fast existing
  | asymptote | unknown => exact h

theorem segment {p : Progress} (h : p.canvas.Painted v) (holes : List Float) (fast : Bool)
    (s : List Char × Relation.Classification) :
    (p.segment style holes fast s).canvas.Painted v := by
  unfold Progress.segment
  split
  · exact h
  · dsimp only
    rw [Progress.canvas_note, Progress.canvas_take]
    exact h.drawSegment hv hstyle s.1 s.2 _ holes fast

theorem mark {p : Progress} (h : p.canvas.Painted v)
    (functions : List ((Float → Float) × Interval Float)) (value : Float) :
    (p.mark style functions value).canvas.Painted v := by
  unfold Progress.mark
  dsimp only
  rw [Progress.canvas_note, Progress.canvas_take]
  exact h.plotMark hv hstyle value functions _

theorem plotWithin (h : c.Painted v) (relation : List Char) (options : PlotOptions)
    (previous : List PieceId) :
    (c.plotWithin relation style options previous).2.Painted v := by
  have hstart : (previous.foldl Canvas.hidePiece (c.onSurface Surface.suspend)).Painted v :=
    List.foldlRecOn (motive := Painted v) previous Canvas.hidePiece (Surface.Painted.congr h rfl)
      fun _ hc n _ => hc.hidePiece n
  unfold Canvas.plotWithin
  dsimp only
  split
  · exact hstart
  · refine List.foldlRecOn (motive := fun p : Progress => p.canvas.Painted v) _ _ ?_
      fun p hp value _ => hp.mark hv hstyle _ value
    exact List.foldlRecOn (motive := fun p : Progress => p.canvas.Painted v) _ _ hstart
      fun p hp s _ => hp.segment hv hstyle _ options.fast s

end Painted

/-- On a figure that takes every handle and the color, a plot is never refused. -/
theorem plotOn_eq_plot {v : Validator} {c : Canvas} (h : c.Painted v) (hv : v.Usual)
    {options : PlotOptions}
    (hcolor : v.color (options.style.color.getD PlotStyle.usual.color) = true)
    (relation : List Char) (previous : List PieceId) :
    c.plotOn v relation options previous = c.plot relation options previous ∧
      (c.plotOn v relation options previous).2.Painted v := by
  cases hstyle : PlotStyle.ofOptions? options.style with
  | error e =>
    rw [plot_of_style_error hstyle, plotOn, hstyle]
    exact ⟨rfl, h⟩
  | ok style =>
    have hwithin := h.plotWithin hv (hv.takesStyle hstyle hcolor) relation options previous
    have hend := Surface.resumeOn_of_endsWell (Surface.Painted.endsWell hwithin)
    rw [plotOn_eq hstyle c relation previous v, plot_eq hstyle c relation previous]
    dsimp only [onSurface]
    rw [hend, if_pos (Surface.Painted.endsWell hwithin)]
    refine ⟨rfl, Surface.Painted.congr hwithin ?_⟩
    obtain ⟨f, q, d, hsame⟩ :=
      Surface.Same.resume (c.plotWithin relation style options previous).2.surface
    rw [hsame]

end Canvas
end Graphing
