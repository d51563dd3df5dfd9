/-
  Graphing.Plot.Parametric

  Curves of points that are computed once: polar and parametric curves over
  samples of their parameter, and sequences over integers.
-/
import Graphing.Plot.Drawing

namespace Graphing

/-! ## Ranges -/

/-- The range of the angle of a polar curve without a restriction: one turn. -/
def polarRange : Float × Float := (0, 2 * Elementary.pi)

/-- What stands for an infinite angle. -/
def polarLimit : Float := 12 * Elementary.pi

/-- The range of the angle of a polar curve. A hole alone does not restrict it. -/
def Restricted.polarRange (r : Restricted) : Float × Float :=
  if r.restriction.isEmpty || (Interval.hole? r.restriction).isSome then Graphing.polarRange
  else r.interval.clamp (-polarLimit) polarLimit

/-- The smaller of two numbers, the first if they do not compare. -/
def smaller (a b : Float) : Float := if b < a then b else a

/-- The larger of two numbers, the first if they do not compare. -/
def larger (a b : Float) : Float := if b > a then b else a

namespace Canvas

/-- Draw a polar curve. -/
def plotPolar (c : Canvas) (relation : List Char) (name : String)
    (existing : Option PieceId) (style : PlotStyle) : Outcome PieceId :=
  match Restricted.ofText? relation name with
  | .error e => (.error e, c)
  | .ok r =>
    let (n, c) := c.acquire existing .curve .polar
    let c := c.describe n r
    let (lo, hi) := r.polarRange
    match Plot.parameterSamples lo hi style.density with
    | .error e => (.error (.sampling e), c)
    | .ok ts =>
      let polar := ts.map fun t => (r.valueWithin [] t, t)
      let c := c.showData n style "lines" (polar.map fun (d, t) => d * Float.cos t)
        (polar.map fun (d, t) => d * Float.sin t)
      let part (f : Piece → Option HandleId) : Option HandleId := (c.piece? n).bind f
      let c := c.onSurface fun s =>
        ((s.hideSome (part (·.lower))).hideSome (part (·.upper))).hideSome (part (·.hole))
      (.ok n, c.activate n)

/-- Draw a parametric curve with circles at its ends and at its hole. -/
def plotParametric (c : Canvas) (relation : List Char) (name : String)
    (existing : Option PieceId) (style : PlotStyle) : Outcome PieceId :=
  let expression := Relation.unrestricted relation
  let restriction := Relation.restriction relation
  let read : Except PlotFault (CompiledFormula × CompiledFormula × Interval Float) := do
    match Relation.coordinates? expression with
    | none => throw (.notParametric (String.ofList expression))
    | some (x, y) =>
      let x ← Restricted.compile? x [name]
      let y ← Restricted.compile? y [name]
      return (x, y, ← Restricted.interval? restriction)
  match read with
  | .error e => (.error e, c)
  | .ok (x, y, interval) =>
    let point (t : Float) : Float × Float := (x.valueAt #[t], y.valueAt #[t])
    let (n, c) := c.acquire existing .curve .parametric
    let c := c.modify n fun p =>
      { p with relation := expression, restriction, interval, function := none }
    let b := c.surface.bounds
    let (lo, hi) := interval.clamp (smaller b.xmin b.ymin) (larger b.xmax b.ymax)
    match Plot.parameterSamples lo hi style.density with
    | .error e => (.error (.sampling e), c)
    | .ok ts =>
      let points := ts.map fun t =>
        if interval.contains t then point t else (Binary64.nan, Binary64.nan)
      let c := c.showData n style "lines" (points.map Prod.fst) (points.map Prod.snd)
      let c := c.placeBounds n interval (Scale.negInf, Scale.posInf) point style
      let existing := (c.piece? n).bind (·.hole)
      let c := match Interval.finite? interval.hole with
        | some h =>
          let (hole, s) :=
            c.surface.placeCircle (point h) false style.color existing (some style.size)
          ({ c with surface := s }).modify n fun p => { p with hole := some hole }
        | none => c.onSurface fun s => s.hideSome existing
      (.ok n, c.activate n)

/-- Draw a sequence: a marker at each integer in view and in the interval. -/
def plotSequence (c : Canvas) (relation : List Char) (name : String)
    (existing : Option PieceId) (style : PlotStyle) : Outcome PieceId :=
  match Restricted.ofText? relation name with
  | .error e => (.error e, c)
  | .ok r =>
    let (n, c) := c.acquire existing .curve .sequence
    let c := c.describe n r
    match Plot.integerSamples c.surface.bounds.xmin c.surface.bounds.xmax with
    | .error e => (.error (.range e), c)
    | .ok all =>
      let ns := all.filter r.interval.contains
      (.ok n, (c.showData n style "markers" ns (ns.map r.value)).activate n)

end Canvas
end Graphing
