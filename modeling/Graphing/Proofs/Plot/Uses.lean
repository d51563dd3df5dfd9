/-
  Graphing.Proofs.Plot.Uses

  How a family uses the piece that it is given.

  A family first reads the relation.  Then it takes a piece into use and notes
  the relation there; it makes its moves once nothing can fail any more
  (`Uses`).  So a piece that something was drawn with is active and of the kind
  that its segment requires, and a piece that could not be drawn with has at
  most lost its contours.
-/
import Graphing.Proofs.Except
import Graphing.Proofs.Plot.Moves
import Graphing.Proofs.Plot.Outcome

open Graphing.Relation (Classification Family assignedSide unrestricted)

namespace Graphing.Canvas

variable {c c' : Canvas} {n : PieceId}

/-! ## Using a piece -/

/-- A change of what a piece notes, but not of its handles, its kind and its family. -/
structure Quiet (f : Piece → Piece) : Prop where
  spot : ∀ p (a : Spot), a.get (f p) = a.get p
  kind : ∀ p, (f p).kind = p.kind
  family : ∀ p, (f p).family = p.family

theorem Quiet.contours_eq {f : Piece → Piece} (h : Quiet f) (p : Piece) :
    (f p).contours = p.contours := List.ext_getElem? fun i => h.spot p (.contour i)

/-- A change of a piece that leaves all handles alone. -/
theorem quiet_of {f : Piece → Piece} (hpart : ∀ p (σ : Part), σ.get (f p) = σ.get p)
    (hcontours : ∀ p, (f p).contours = p.contours) (hkind : ∀ p, (f p).kind = p.kind)
    (hfamily : ∀ p, (f p).family = p.family) : Quiet f where
  spot p a := by
    cases a with
    | part σ => exact hpart p σ
    | contour i => rw [Spot.get, hcontours]; rfl
  kind := hkind
  family := hfamily

/-- How a family draws with the given piece, or with a new one. It reads the relation, takes the
piece into use, and notes the relation there. If it fails after that, it has at most removed the
contours. Otherwise it makes its moves, and then the piece is active. -/
inductive Uses (c : Canvas) (existing : Option PieceId) (kind : PieceKind) (family : Family)
    (Notes : Piece → Prop) : Outcome PieceId → Prop
  | unread (e : PlotFault) : Uses c existing kind family Notes (.error e, c)
  | parked (e : PlotFault) {c₁ c' : Canvas} {f : Piece → Piece}
      (acquired : c.acquire existing kind family = (existing.getD c.pieces.size, c₁))
      (quiet : Quiet f) (idle : ∀ p, (f p).active = p.active)
      (clear : c' = c₁.modify (existing.getD c.pieces.size) f ∨
        c' = (c₁.modify (existing.getD c.pieces.size) f).removeContours
          (existing.getD c.pieces.size)) :
    Uses c existing kind family Notes (.error e, c')
  | drawn {c₁ c' : Canvas} {f g : Piece → Piece}
      (acquired : c.acquire existing kind family = (existing.getD c.pieces.size, c₁))
      (quiet : Quiet f)
      (moves : Moves (existing.getD c.pieces.size)
        (c₁.modify (existing.getD c.pieces.size) f) c')
      (quiet' : Quiet g)
      (notes : ∀ p q, q.bare = (f p).bare → (g q).active = true ∧ Notes (g q)) :
    Uses c existing kind family Notes
      (.ok (existing.getD c.pieces.size), c'.modify (existing.getD c.pieces.size) g)

theorem Uses.imp {existing : Option PieceId} {kind : PieceKind} {family : Family}
    {Notes Notes' : Piece → Prop} {outcome : Outcome PieceId} (hnotes : ∀ p, Notes p → Notes' p)
    (h : c.Uses existing kind family Notes outcome) :
    c.Uses existing kind family Notes' outcome := by
  cases h with
  | unread e => exact .unread e
  | parked e acquired quiet idle clear => exact .parked e acquired quiet idle clear
  | drawn acquired quiet moves quiet' notes =>
    exact .drawn acquired quiet moves quiet' fun p q hq =>
      ⟨(notes p q hq).1, hnotes _ (notes p q hq).2⟩

theorem quiet_describe (r : Restricted) : Quiet fun p : Piece =>
    { p with
      relation := r.expression
      restriction := r.restriction
      interval := r.interval
      function := some r.function } :=
  quiet_of (fun p σ => by cases σ <;> rfl) (fun _ => rfl) (fun _ => rfl) fun _ => rfl

theorem quiet_activate : Quiet fun p : Piece => { p with active := true } :=
  quiet_of (fun p σ => by cases σ <;> rfl) (fun _ => rfl) (fun _ => rfl) fun _ => rfl

theorem piece?_acquire_none (kind : PieceKind) (family : Family) (m : PieceId) :
    (c.acquire none kind family).2.piece? m =
      if m = c.pieces.size then some { kind, family := some family } else c.piece? m :=
  Array.getElem?_push

/-- A new piece has no handles. -/
theorem spot?_acquire_none (kind : PieceKind) (family : Family) (m : PieceId) (a : Spot) :
    (c.acquire none kind family).2.spot? m a = c.spot? m a := by
  rw [spot?, piece?_acquire_none]
  split
  · rename_i hm
    rw [spot?, piece?, Array.getElem?_eq_none (Nat.le_of_eq hm.symm)]
    cases a with
    | part σ => cases σ <;> rfl
    | contour i => rfl
  · rfl

/-- A piece that is taken into use exists. -/
theorem acquire_piece {existing : Option PieceId}
    (hexisting : ∀ n, existing = some n → ∃ p, c.piece? n = some p) (kind : PieceKind)
    (family : Family) :
    ∃ c₁ p, c.acquire existing kind family = (existing.getD c.pieces.size, c₁) ∧
      c₁.piece? (existing.getD c.pieces.size) = some p ∧ p.kind = kind ∧
      p.family = some family := by
  cases existing with
  | none => exact ⟨_, { kind, family := some family }, rfl, Array.getElem?_push_size, rfl, rfl⟩
  | some n =>
    have hclear : ∃ p, (c.removeContours n).piece? n = some p := by
      obtain ⟨p, hp⟩ := hexisting n rfl
      exact ⟨_, piece?_modify_self (c := { c with surface := _ }) hp _⟩
    by_cases hdrop : ((c.piece? n).any fun p => p.family == some .implicit) && family != .implicit
    · obtain ⟨p, hp⟩ := hclear
      simp only [acquire, hdrop, if_true]
      exact ⟨_, _, rfl, piece?_modify_self hp _, rfl, rfl⟩
    · obtain ⟨p, hp⟩ := hexisting n rfl
      simp only [acquire, hdrop, Bool.false_eq_true, if_false]
      exact ⟨_, _, rfl, piece?_modify_self hp _, rfl, rfl⟩

/-! ## Every family uses its piece -/

/-- What a piece notes of a relation that it shows. -/
def Noted (relation restriction : List Char) (p : Piece) : Prop :=
  p.relation = relation ∧ p.restriction = restriction

theorem ofText?_eq {relation : List Char} {name : String} {r : Restricted}
    (h : Restricted.ofText? relation name = .ok r) :
    r.expression = assignedSide (unrestricted relation) ∧
      r.restriction = Relation.restriction relation := by
  unfold Restricted.ofText? at h
  obtain ⟨f, -, h⟩ := Except.bind_eq_ok.mp h
  obtain ⟨i, -, h⟩ := Except.bind_eq_ok.mp h
  cases h
  exact ⟨rfl, rfl⟩

/-- Activating a piece keeps what was noted. -/
theorem noted_of_describe {relation : List Char} {name : String} {r : Restricted}
    (h : Restricted.ofText? relation name = .ok r) (p q : Piece)
    (hq : q.bare = ({ p with
      relation := r.expression
      restriction := r.restriction
      interval := r.interval
      function := some r.function } : Piece).bare) :
    ({ q with active := true } : Piece).active = true ∧
      Noted (assignedSide (unrestricted relation)) (Relation.restriction relation)
        { q with active := true } := by
  obtain ⟨-, -, hrelation, hrestriction, -⟩ := Piece.fields_of_bare hq
  exact ⟨rfl, hrelation.trans (ofText?_eq h).1, hrestriction.trans (ofText?_eq h).2⟩

section

variable {existing : Option PieceId}
  (hexisting : ∀ n, existing = some n → ∃ p, c.piece? n = some p)

include hexisting

/-- A curve with a source is shown, with circles at the bounds of its interval. -/
theorem source_uses {family : Family} {relation : List Char} {name : String} {r : Restricted}
    (hread : Restricted.ofText? relation name = .ok r) (style : PlotStyle) {s : LazySource}
    (hxs : ∀ ts, ∃ xs, s.xOf ts = some xs) (hys : ∀ ts, ∃ ys, s.yOf ts = some ys) :
    ∃ c₁ c₂, c.acquire existing .curve family = (existing.getD c.pieces.size, c₁) ∧
      (c₁.describe (existing.getD c.pieces.size) r).showSource (existing.getD c.pieces.size) style
        s = (.ok (), c₂) ∧
      ∀ view place, c.Uses existing .curve family
        (Noted (assignedSide (unrestricted relation)) (Relation.restriction relation))
        (.ok (existing.getD c.pieces.size),
          (c₂.placeBounds (existing.getD c.pieces.size) r.interval view place style).activate
            (existing.getD c.pieces.size)) := by
  obtain ⟨c₁, p, hacquire, hp, -⟩ := acquire_piece hexisting .curve family
  have hshown := moves_showSource (c := c₁.describe (existing.getD c.pieces.size) r)
    (piece?_modify_self hp _) style s
  obtain ⟨c₂, hshow, -⟩ := (c₁.describe (existing.getD c.pieces.size) r).showSource_eq
    (existing.getD c.pieces.size) style s hxs hys
  rw [hshow] at hshown
  obtain ⟨q, hq, -⟩ := hshown.exists_piece (piece?_modify_self hp _)
  refine ⟨c₁, c₂, hacquire, hshow, fun view place => ?_⟩
  exact .drawn hacquire (quiet_describe r) (hshown.trans (moves_placeBounds hq _ _ _ _))
    quiet_activate (noted_of_describe hread)

theorem plotFunction_uses (relation : List Char) (name : String) (holes : List Float)
    (style : PlotStyle) :
    c.Uses existing .curve .functionOfX
      (Noted (assignedSide (unrestricted relation)) (Relation.restriction relation))
      (c.plotFunction relation name holes existing style) := by
  unfold plotFunction
  cases hread : Restricted.ofText? relation name with
  | error e => exact .unread e
  | ok r =>
    obtain ⟨c₁, c₂, hacquire, hshow, hdrawn⟩ := source_uses hexisting hread style
      (s := sourceOverX r holes) (fun ts => ⟨_, rfl⟩) (fun ts => ⟨_, rfl⟩)
    dsimp only
    rw [hacquire]
    dsimp only
    rw [hshow]
    exact hdrawn _ _

theorem plotSideways_uses (relation : List Char) (name : String) (style : PlotStyle) :
    c.Uses existing .curve .functionOfY
      (Noted (assignedSide (unrestricted relation)) (Relation.restriction relation))
      (c.plotSideways relation name existing style) := by
  unfold plotSideways
  cases hread : Restricted.ofText? relation name with
  | error e => exact .unread e
  | ok r =>
    obtain ⟨c₁, c₂, hacquire, hshow, hdrawn⟩ := source_uses hexisting hread style
      (s := sourceOverY r) (fun ts => ⟨_, rfl⟩) (fun ts => ⟨_, rfl⟩)
    dsimp only
    rw [hacquire]
    dsimp only
    rw [hshow]
    exact hdrawn _ _

theorem plotPolar_uses (relation : List Char) (name : String) (style : PlotStyle) :
    c.Uses existing .curve .polar
      (Noted (assignedSide (unrestricted relation)) (Relation.restriction relation))
      (c.plotPolar relation name existing style) := by
  unfold plotPolar
  cases hread : Restricted.ofText? relation name with
  | error e => exact .unread e
  | ok r =>
    obtain ⟨c₁, p, hacquire, hp, -⟩ := acquire_piece hexisting .curve .polar
    rcases hrange : r.polarRange with ⟨lo, hi⟩
    dsimp only
    rw [hacquire, hrange]
    dsimp only
    cases Plot.parameterSamples lo hi style.density with
    | error e => exact .parked _ hacquire (quiet_describe r) (fun _ => rfl) (.inl rfl)
    | ok ts =>
      dsimp only
      generalize List.map _ (List.map _ ts) = xs
      generalize List.map _ (List.map _ ts) = ys
      have hcurve := moves_showData (c := c₁.describe (existing.getD c.pieces.size) r)
        (piece?_modify_self hp _) style "lines" xs ys
      generalize Canvas.showData _ _ _ _ _ _ = c₂ at hcurve ⊢
      exact .drawn hacquire (quiet_describe r)
        (((hcurve.trans (moves_hideSome _ _ .lower)).trans (moves_hideSome _ _ .upper)).trans
          (moves_hideSome _ _ .hole))
        quiet_activate (noted_of_describe hread)

theorem plotSequence_uses (relation : List Char) (name : String) (style : PlotStyle) :
    c.Uses existing .curve .sequence
      (Noted (assignedSide (unrestricted relation)) (Relation.restriction relation))
      (c.plotSequence relation name existing style) := by
  unfold plotSequence
  cases hread : Restricted.ofText? relation name with
  | error e => exact .unread e
  | ok r =>
    obtain ⟨c₁, p, hacquire, hp, -⟩ := acquire_piece hexisting .curve .sequence
    dsimp only
    rw [hacquire]
    dsimp only
    cases Plot.integerSamples (c₁.describe (existing.getD c.pieces.size) r).surface.bounds.xmin
        (c₁.describe (existing.getD c.pieces.size) r).surface.bounds.xmax with
    | error e => exact .parked _ hacquire (quiet_describe r) (fun _ => rfl) (.inl rfl)
    | ok all =>
      exact .drawn hacquire (quiet_describe r)
        (moves_showData (piece?_modify_self hp _) style "markers" _ _)
        quiet_activate (noted_of_describe hread)

theorem plotParametric_uses (relation : List Char) (name : String) (style : PlotStyle) :
    c.Uses existing .curve .parametric
      (Noted (unrestricted relation) (Relation.restriction relation))
      (c.plotParametric relation name existing style) := by
  unfold plotParametric
  dsimp only
  split
  next e hread => exact .unread e
  next x y interval hread =>
    obtain ⟨c₁, p, hacquire, hp, -⟩ := acquire_piece hexisting .curve .parametric
    let note : Piece → Piece := fun p =>
      { p with
        relation := unrestricted relation
        restriction := Relation.restriction relation
        interval
        function := none }
    have hquiet : Quiet note :=
      quiet_of (fun p σ => by cases σ <;> rfl) (fun _ => rfl) (fun _ => rfl) fun _ => rfl
    have hpiece := piece?_modify_self hp note
    rw [hacquire]
    dsimp only
    -- the range decides only whether the samples can be taken
    rcases interval.clamp (smaller (c₁.modify (existing.getD c.pieces.size) note).surface.bounds.xmin
        (c₁.modify (existing.getD c.pieces.size) note).surface.bounds.ymin)
      (larger (c₁.modify (existing.getD c.pieces.size) note).surface.bounds.xmax
        (c₁.modify (existing.getD c.pieces.size) note).surface.bounds.ymax) with ⟨lo, hi⟩
    dsimp only
    cases Plot.parameterSamples lo hi style.density with
    | error e => exact .parked _ hacquire hquiet (fun _ => rfl) (.inl rfl)
    | ok ts =>
      dsimp only
      -- which points are shown does not matter to what is used
      generalize (ts.map fun t => if interval.contains t = true then
        (x.valueAt #[t], y.valueAt #[t]) else (Binary64.nan, Binary64.nan)) = points
      have hcurve := moves_showData hpiece style "lines" (points.map Prod.fst)
        (points.map Prod.snd)
      obtain ⟨q, hq, -⟩ := hcurve.exists_piece hpiece
      have hends := hcurve.trans (moves_placeBounds hq interval (Scale.negInf, Scale.posInf)
        (fun t => (x.valueAt #[t], y.valueAt #[t])) style)
      obtain ⟨q, hq, -⟩ := Moves.exists_piece hends hpiece
      have hnotes : ∀ p q : Piece, q.bare = (note p).bare →
          ({ q with active := true } : Piece).active = true ∧
            Noted (unrestricted relation) (Relation.restriction relation)
              { q with active := true } := by
        intro p q hq
        obtain ⟨-, -, hrelation, hrestriction, -⟩ := Piece.fields_of_bare hq
        exact ⟨rfl, hrelation, hrestriction⟩
      generalize Canvas.placeBounds _ _ _ _ _ _ = c₃ at hends hq ⊢
      cases Interval.finite? interval.hole with
      | some v =>
        exact .drawn hacquire hquiet
          (hends.trans (moves_circle hq (σ := .hole) (fun _ => trivial) _ _ _ _))
          quiet_activate hnotes
      | none =>
        exact .drawn hacquire hquiet (hends.trans (moves_hideSome _ _ .hole))
          quiet_activate hnotes

theorem plotImplicit_uses (relation : List Char) (axes : List String) (fast : Bool)
    (style : PlotStyle) :
    c.Uses existing .curve .implicit (Noted (Relation.implicitExpression relation) [])
      (c.plotImplicit relation axes fast existing style) := by
  unfold plotImplicit
  dsimp only
  cases Restricted.compile? (Relation.implicitExpression relation) axes with
  | error e => exact .unread e
  | ok formula =>
    obtain ⟨c₁, p, hacquire, hp, -, hfamily⟩ := acquire_piece hexisting .curve .implicit
    let note : Piece → Piece := fun p =>
      { p with
        relation := Relation.implicitExpression relation
        restriction := []
        interval := .universal
        function := some formula }
    have hquiet : Quiet note :=
      quiet_of (fun p σ => by cases σ <;> rfl) (fun _ => rfl) (fun _ => rfl) fun _ => rfl
    have hpiece := piece?_modify_self hp note
    -- the old contours go before the tracing, which may still fail
    have hclear : Moves (existing.getD c.pieces.size)
        (c₁.modify (existing.getD c.pieces.size) note)
        ((c₁.modify (existing.getD c.pieces.size) note).removeContours
          (existing.getD c.pieces.size)) := .single .clear
    obtain ⟨q, hq, hbare⟩ := hclear.exists_piece hpiece
    dsimp only
    rw [hacquire]
    dsimp only
    generalize hc₂ : (c₁.modify (existing.getD c.pieces.size) note).removeContours
      (existing.getD c.pieces.size) = c₂ at hclear hq
    cases (Contour.Tracer.usual.trace
        { function := formula.onPlane, domain := c₂.surface.bounds,
          resolution := (c₂.surface.width, c₂.surface.height), fast } none).1 with
    | error e => exact .parked _ hacquire hquiet (fun _ => rfl) (.inr hc₂.symm)
    | ok lines =>
      refine .drawn hacquire hquiet (hclear.trans (moves_addContours hq
        ((Piece.fields_of_bare hbare).2.1.trans hfamily) style lines)) quiet_activate ?_
      intro p q hq
      obtain ⟨-, -, hrelation, hrestriction, -⟩ := Piece.fields_of_bare hq
      exact ⟨rfl, hrelation, hrestriction⟩

theorem plotPoint_uses (coords : List Float) (solid : Bool) (style : PlotStyle) :
    c.Uses existing .point .point
      (fun p => ∃ point, Surface.pair? coords = .ok point ∧ p.coords = some point)
      (c.plotPoint coords solid existing style) := by
  obtain ⟨c₁, p, hacquire, hp, -⟩ := acquire_piece hexisting .point .point
  have hsame : c₁.modify (existing.getD c.pieces.size) id = c₁ :=
    modify_eq_self (by rw [hp]; rfl)
  have hquiet : Quiet id := ⟨fun _ _ => rfl, fun _ => rfl, fun _ => rfl⟩
  rw [plotPoint, hacquire]
  dsimp only
  cases hpair : Surface.pair? coords with
  | error e => exact .parked _ hacquire hquiet (fun _ => rfl) (.inl hsame.symm)
  | ok point =>
    have hmoves := moves_circle hp (σ := .point) (fun _ => trivial) point solid style.color
      (some style.size)
    generalize hgive : c₁.give _ _ _ _ = c₂ at hmoves
    have hdrawn : c.Uses existing .point .point
        (fun p => ∃ point', (.ok point : Except SurfaceFault _) = .ok point' ∧
          p.coords = some point')
        (.ok (existing.getD c.pieces.size), c₂.modify (existing.getD c.pieces.size) fun p =>
          { p with coords := some point, solid, active := true }) :=
      .drawn hacquire hquiet (by rw [hsame]; exact hmoves)
        (quiet_of (fun p σ => by cases σ <;> rfl) (fun _ => rfl) (fun _ => rfl) fun _ => rfl)
        fun p q _ => ⟨rfl, point, rfl, rfl⟩
    rw [← hgive, give, modify_modify] at hdrawn
    exact hdrawn

/-- The mark of an excluded value is always drawn. -/
theorem plotMark_uses (style : PlotStyle) (functions : List ((Float → Float) × Interval Float))
    (value : Float) :
    c.Uses existing .asymptote .asymptote
      (fun p => Noted [] ("x != " ++ Decimal.general value).toList p ∧
        p.interval = .punctured value)
      (.ok (c.plotMark value functions existing style).1,
        (c.plotMark value functions existing style).2) := by
  obtain ⟨c₁, p, hacquire, hp, -⟩ := acquire_piece hexisting .asymptote .asymptote
  let note : Piece → Piece := fun p =>
    { p with
      relation := []
      restriction := ("x != " ++ Decimal.general value).toList
      interval := .punctured value }
  have hquiet : Quiet note :=
    quiet_of (fun p σ => by cases σ <;> rfl) (fun _ => rfl) (fun _ => rfl) fun _ => rfl
  have hpiece := piece?_modify_self hp note
  have hnotes : ∀ p q : Piece, q.bare = (note p).bare →
      ({ q with active := true } : Piece).active = true ∧
        Noted [] ("x != " ++ Decimal.general value).toList { q with active := true } ∧
          ({ q with active := true } : Piece).interval = .punctured value := by
    intro p q hq
    obtain ⟨-, -, hrelation, hrestriction, hinterval, -⟩ := Piece.fields_of_bare hq
    exact ⟨rfl, ⟨hrelation, hrestriction⟩, hinterval⟩
  rw [plotMark, hacquire]
  dsimp only
  generalize hc₂ : c₁.modify (existing.getD c.pieces.size) note = c₂ at hpiece
  -- a circle where the functions have a value, and else a line from bound to bound
  split
  · have hcircle := moves_circle hpiece (σ := .hole) (fun _ => trivial)
      (value, markValue functions value) false style.color (some style.size)
    have hboth := hcircle.trans (moves_hideSome _ _ .segment)
    rw [spot?_give _ _ (by decide)] at hboth
    exact .drawn hacquire hquiet (by rw [hc₂]; exact hboth) quiet_activate hnotes
  · have hwall := moves_wall hpiece (value, c₂.surface.bounds.ymin)
      (value, c₂.surface.bounds.ymax)
      { color := some style.color, width := some style.width, dash := some dashedPattern }
    have hboth := hwall.trans (moves_hideSome _ _ .hole)
    rw [spot?_give _ _ (by decide)] at hboth
    exact .drawn hacquire hquiet (by rw [hc₂]; exact hboth) quiet_activate hnotes

/-- What a piece notes of a segment that it is drawn with. -/
def Reads (text : List Char) : Family → Piece → Prop
  | .functionOfX | .functionOfY | .polar | .sequence =>
    Noted (assignedSide (unrestricted text)) (Relation.restriction text)
  | .parametric => Noted (unrestricted text) (Relation.restriction text)
  | .implicit => Noted (Relation.implicitExpression text) []
  | .point => fun p => ∃ point, Interval.textBounds text = .ok point ∧ p.coords = some point
  | .asymptote | .unknown => fun _ => False

/-- Drawing a segment. -/
theorem drawSegment_uses (text : List Char) (k : Classification) (style : PlotStyle)
    (holes : List Float) (fast : Bool) :
    c.Uses existing (kindOf k.family) k.family (Reads text k.family)
      (c.drawSegment text k style existing holes fast) := by
  unfold drawSegment
  cases k.family with
  | point =>
    dsimp only
    cases hbounds : Interval.textBounds text with
    | error e => exact .unread _
    | ok point =>
      refine (plotPoint_uses hexisting [point.1, point.2] _ style).imp ?_
      rintro p ⟨coords, hpair, hp⟩
      cases hpair
      exact ⟨_, hbounds, hp⟩
  | functionOfX => exact plotFunction_uses hexisting text k.axis holes style
  | functionOfY => exact plotSideways_uses hexisting text k.axis style
  | polar => exact plotPolar_uses hexisting text k.axis style
  | parametric => exact plotParametric_uses hexisting text k.axis style
  | sequence => exact plotSequence_uses hexisting text k.axis style
  | implicit =>
    exact plotImplicit_uses hexisting text
      [(Relation.implicitAxes k.names).1, (Relation.implicitAxes k.names).2] fast style
  | asymptote => exact .unread _
  | unknown => exact .unread _

/-- A piece that something was drawn with. -/
theorem Uses.piece {kind : PieceKind} {family : Family} {Notes : Piece → Prop} {m : PieceId}
    (h : c.Uses existing kind family Notes (.ok m, c')) :
    m = existing.getD c.pieces.size ∧ ∃ q, c'.piece? m = some q ∧ q.kind = kind ∧
      q.family = some family ∧ q.active = true ∧ Notes q := by
  cases h with
  | @drawn c₁ c₂ f g acquired quiet moves quiet' notes =>
    obtain ⟨c₁', p, hacquire, hp, hkind, hfamily⟩ := acquire_piece hexisting kind family
    obtain rfl : c₁ = c₁' := congrArg Prod.snd (acquired.symm.trans hacquire)
    obtain ⟨q, hq, hbare⟩ := moves.exists_piece (piece?_modify_self hp f)
    obtain ⟨hkind', hfamily', -⟩ := Piece.fields_of_bare hbare
    obtain ⟨hactive, hnotes⟩ := notes p q hbare
    refine ⟨rfl, g q, piece?_modify_self hq g, ?_, ?_, hactive, hnotes⟩
    · rw [quiet'.kind, hkind', quiet.kind, hkind]
    · rw [quiet'.family, hfamily', quiet.family, hfamily]

end

end Graphing.Canvas
