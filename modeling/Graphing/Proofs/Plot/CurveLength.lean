/-
  Graphing.Proofs.Plot.CurveLength

  How many points a curve has.

  A polar or a parametric curve has a point for each sample of its parameter,
  and a sequence at most one for each integer in view.  So a sequence has at
  most as many points as a range is divided into, and a curve over a parameter
  has at most one more; it has that one just if its range is overshot
  (`length_curve`).
-/
import Graphing.Proofs.Plot.Overdrawn
import Graphing.Proofs.Plot.ParameterSamples

open Graphing.Relation (Family)

namespace Graphing

/-! ## Ranges -/

/-- The range that the parameter of a curve runs over. -/
def CurveCall.range? (k : CurveCall) (f : Frame) : Option (Float × Float) :=
  match k with
  | polar relation name => (Restricted.ofText? relation name).toOption.map Restricted.polarRange
  | parametric relation name =>
    (Frame.readPair relation name).toOption.map fun pair =>
      pair.2.2.clamp (smaller f.bounds.xmin f.bounds.ymin) (larger f.bounds.xmax f.bounds.ymax)
  | _ => none

/-- The number of points of a curve: at most one more than a range is divided into, and that many
just if the parameter of the curve overshoots its range. -/
structure Curve.Sampled (g : Curve) (range : Option (Float × Float)) (density : Float) : Prop where
  length : g.ys.length = g.xs.length
  le : g.xs.length ≤ Plot.maxSamples + 1
  eq_iff : g.xs.length = Plot.maxSamples + 1 ↔
    ∃ r, range = some r ∧ Plot.Overshoots r.1 r.2 density

namespace Curve.Sampled

variable {g : Curve} {ts : List Float} {range : Option (Float × Float)} {density : Float}

/-- A point for each sample of a range. -/
theorem of_samples {r : Float × Float} (hts : Plot.parameterSamples r.1 r.2 density = .ok ts)
    (hxs : g.xs.length = ts.length) (hys : g.ys.length = ts.length) :
    g.Sampled (some r) density := by
  obtain ⟨hle, hiff⟩ := Plot.length_parameterSamples hts
  refine ⟨hys.trans hxs.symm, hxs ▸ hle, hxs ▸ hiff.trans ⟨fun ho => ⟨r, rfl, ho⟩, ?_⟩⟩
  rintro ⟨r', hr', ho⟩
  cases hr'
  exact ho

/-- No parameter, and not too many points. -/
theorem of_le (hxs : g.xs.length ≤ Plot.maxSamples) (hys : g.ys.length = g.xs.length) :
    g.Sampled none density := by
  refine ⟨hys, Nat.le_succ_of_le hxs, iff_of_false (Nat.lt_succ_of_le hxs).ne ?_⟩
  rintro ⟨r, hr, -⟩
  cases hr

end Curve.Sampled

/-! ## Sketches -/

namespace Frame

variable {f : Frame} {style : PlotStyle} {s : Sketch}

theorem sampled_ofPolar {r : Restricted} (hs : ofPolar style r = .ok s) :
    ∃ g, s.parts .curve = some (.curve g) ∧ g.Sampled (some r.polarRange) style.density := by
  obtain ⟨ts, hts, hrest⟩ := Except.bind_eq_ok.mp hs
  cases hrest
  refine ⟨_, rfl, .of_samples (Except.eq_ok_of_mapError hts) ?_ ?_⟩ <;>
    simp only [List.length_map]

theorem sampled_ofParametric {pair : CompiledFormula × CompiledFormula × Interval Float}
    (hs : f.ofParametric style pair = .ok s) :
    ∃ g, s.parts .curve = some (.curve g) ∧
      g.Sampled (some (pair.2.2.clamp (smaller f.bounds.xmin f.bounds.ymin)
        (larger f.bounds.xmax f.bounds.ymax))) style.density := by
  obtain ⟨ts, hts, hrest⟩ := Except.bind_eq_ok.mp hs
  cases hrest
  refine ⟨_, rfl, .of_samples (Except.eq_ok_of_mapError hts) ?_ ?_⟩ <;>
    simp only [List.length_map]

theorem sampled_ofSequence {r : Restricted} (hs : f.ofSequence style r = .ok s) :
    ∃ g, s.parts .curve = some (.curve g) ∧ g.Sampled none style.density := by
  obtain ⟨all, hall, hrest⟩ := Except.bind_eq_ok.mp hs
  cases hrest
  have hlength := Plot.length_integerSamples (Except.eq_ok_of_mapError hall)
  refine ⟨_, rfl, .of_le ((List.length_filter_le _ _).trans hlength) ?_⟩
  simp only [List.length_map]

end Frame

/-! ## Curves -/

/-- The families of curves that are computed once, point by point. -/
def CurveCall.IsPointwise (k : CurveCall) : Prop :=
  k.family = .polar ∨ k.family = .parametric ∨ k.family = .sequence

theorem CurveCall.sampled_of_sketch {k : CurveCall} (hk : k.IsPointwise) {f : Frame}
    {style : PlotStyle} {s : Sketch} (hs : k.sketch f style = .ok s) :
    ∃ g, s.parts .curve = some (.curve g) ∧ g.Sampled (k.range? f) style.density := by
  cases k with
  | polar relation name =>
    obtain ⟨r, hr, hsketch⟩ := Except.bind_eq_ok.mp hs
    have hrange : (CurveCall.polar relation name).range? f = some r.polarRange := by
      rw [range?, hr]
      rfl
    rw [hrange]
    exact Frame.sampled_ofPolar hsketch
  | parametric relation name =>
    obtain ⟨pair, hpair, hsketch⟩ := Except.bind_eq_ok.mp hs
    have hrange : (CurveCall.parametric relation name).range? f =
        some (pair.2.2.clamp (smaller f.bounds.xmin f.bounds.ymin)
          (larger f.bounds.xmax f.bounds.ymax)) := by
      rw [range?, hpair]
      rfl
    rw [hrange]
    exact Frame.sampled_ofParametric hsketch
  | sequence relation name =>
    obtain ⟨r, -, hsketch⟩ := Except.bind_eq_ok.mp hs
    exact Frame.sampled_ofSequence hsketch
  | function | sideways | implicit => simp [IsPointwise, family] at hk

namespace Canvas

variable {c c' : Canvas} {n : PieceId} {existing : Option PieceId}

/-- A polar curve, a parametric curve and a sequence have at most one point more than a range is
divided into, whatever the bounds, the restriction and the density. They have that one just if
there is a parameter, and the whole steps of its range are as many as there may be samples and end
below its upper end. -/
theorem length_curve (h : c.Kept existing.toList) {k : CurveCall} (hk : k.IsPointwise)
    {style : PlotStyle} (hrun : k.run c existing style = (.ok n, c')) :
    ∃ g, c'.shapeAt n (.part .curve) = some (.curve g) ∧
      g.ys.length = g.xs.length ∧ g.xs.length ≤ Plot.maxSamples + 1 ∧
      (g.xs.length = Plot.maxSamples + 1 ↔
        ∃ r, k.range? c.surface.frame = some r ∧ Plot.Overshoots r.1 r.2 style.density) := by
  obtain ⟨-, s, hs, -, -, -, hsketch⟩ := h.exists_sketch hrun
  obtain ⟨g, hg, hlength, hle, heq⟩ := CurveCall.sampled_of_sketch hk hs
  refine ⟨g, ?_, hlength, hle, heq⟩
  have hparts : c'.shapeAt n (.part .curve) =
      (s.over k.family.parts (c.sketch n).parts).parts .curve :=
    congrFun (congrArg Sketch.parts hsketch) .curve
  -- the piece may have been drawn before, but each of these families draws the curve anew
  have hcurve : k.family.parts.contains .curve = true := by
    rcases hk with hk | hk | hk <;> rw [hk] <;> rfl
  rw [hparts, Sketch.over]
  dsimp only
  rw [hcurve, if_pos rfl, hg]

/-- A spiral with a point too many. -/
theorem length_curve_spiral :
    let c : Canvas := { surface := { width := 16, height := 16, bounds := ⟨-2, 2, -2, 2⟩ } }
    let k : CurveCall := .polar "r = t [0, 199999.5]".toList "t"
    ∃ n c' g, c.Kept [] ∧ k.IsPointwise ∧ k.run c none { density := 1 } = (.ok n, c') ∧
      c'.shapeAt n (.part .curve) = some (.curve g) ∧ g.xs.length = Plot.maxSamples + 1 := by
  intro c k
  have hc : c.Kept [] := ⟨Surface.coherent_create
    (show Surface.create? 16 16 ⟨-2, 2, -2, 2⟩ = .ok c.surface from rfl), .nil c⟩
  have hread : (Restricted.ofText? "r = t [0, 199999.5]".toList "t").toOption.any (fun r =>
      decide (Plot.Overshoots r.polarRange.1 r.polarRange.2 (1 : Float))) = true := by
    decide +kernel
  obtain ⟨r, hr, hovershoots⟩ := Except.exists_eq_ok_of_any hread
  have ho : Plot.Overshoots r.polarRange.1 r.polarRange.2 (1 : Float) :=
    of_decide_eq_true hovershoots
  obtain ⟨ts, hts⟩ := ho.exists_samples
  have hts' : (Plot.parameterSamples r.polarRange.1 r.polarRange.2 (1 : Float)).mapError
      PlotFault.sampling = .ok ts := by
    rw [hts]
    rfl
  have hs : ∃ s, k.sketch c.surface.frame { density := 1 } = .ok s :=
    ⟨_, Except.bind_eq_ok.mpr ⟨r, hr, Except.bind_eq_ok.mpr ⟨ts, hts', rfl⟩⟩⟩
  obtain ⟨s, hs⟩ := hs
  obtain ⟨c', hrun, -⟩ := hc.run_new hs
  have hk : k.IsPointwise := .inl rfl
  obtain ⟨g, hg, -, -, hiff⟩ := length_curve hc.new hk hrun
  refine ⟨_, c', g, hc, hk, hrun, hg, hiff.mpr ⟨r.polarRange, ?_, ho⟩⟩
  show (Restricted.ofText? _ _).toOption.map _ = _
  rw [hr]
  rfl

end Canvas

end Graphing
