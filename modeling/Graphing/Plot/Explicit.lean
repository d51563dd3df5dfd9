/-
  Graphing.Plot.Explicit

  Functions of one coordinate. Their curves are lazy: they are sampled once
  for each column or row of pixels, and have gaps outside of the interval and
  at holes.
-/
import Graphing.Plot.Drawing

namespace Graphing.Canvas

/-- The source of a curve over the horizontal axis. -/
def sourceOverX (r : Restricted) (holes : List Float) : LazySource :=
  { xOf := some, yOf := fun xs => some (xs.map (r.valueWithin holes)), axis := .x }

/-- The source of a curve over the vertical axis. -/
def sourceOverY (r : Restricted) : LazySource :=
  { xOf := fun ys => some (ys.map (r.valueWithin [])), yOf := some, axis := .y }

/-- Draw a function of the horizontal coordinate. -/
def plotFunction (c : Canvas) (relation : List Char) (name : String) (holes : List Float)
    (existing : Option PieceId) (style : PlotStyle) : Outcome PieceId :=
  match Restricted.ofText? relation name with
  | .error e => (.error e, c)
  | .ok r =>
    let (n, c) := c.acquire existing .curve .functionOfX
    match (c.describe n r).showSource n style (sourceOverX r holes) with
    | (.error e, c) => (.error e, c)
    | (.ok _, c) =>
      let view := (c.surface.bounds.xmin, c.surface.bounds.xmax)
      (.ok n, (c.placeBounds n r.interval view (fun v => (v, r.value v)) style).activate n)

/-- Draw a function of the vertical coordinate. -/
def plotSideways (c : Canvas) (relation : List Char) (name : String)
    (existing : Option PieceId) (style : PlotStyle) : Outcome PieceId :=
  match Restricted.ofText? relation name with
  | .error e => (.error e, c)
  | .ok r =>
    let (n, c) := c.acquire existing .curve .functionOfY
    match (c.describe n r).showSource n style (sourceOverY r) with
    | (.error e, c) => (.error e, c)
    | (.ok _, c) =>
      let view := (c.surface.bounds.ymin, c.surface.bounds.ymax)
      (.ok n, (c.placeBounds n r.interval view (fun v => (r.value v, v)) style).activate n)

end Graphing.Canvas
