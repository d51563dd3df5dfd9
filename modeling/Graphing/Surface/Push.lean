/-
  Graphing.Surface.Push

  Showing handles on a figure that does not take every style value.

  A handle keeps any values that it is given.  The figure looks at them when
  the handle is shown: at once, or at the end of a suspension.  So an operation
  that shows handles can fail when everything else that it does is done, and
  nothing of that is taken back.  Of several handles that are shown together,
  those before the one that is refused are shown, and those after it are not.
-/
import Graphing.Surface.Basic
import Graphing.Surface.Validator

namespace Graphing.Surface

/-! ## One after the other -/

/-- Do the same with several handles, up to the first fault. -/
def each (f : Surface → HandleId → Except SurfaceFault Unit × Surface) :
    List HandleId → Surface → Except SurfaceFault Unit × Surface
  | [], s => (.ok (), s)
  | n :: ns, s =>
    match f s n with
    | (.ok _, s) => each f ns s
    | (.error e, s) => (.error e, s)

/-- What an operation gives that shows handles at its end: a refusal there stands for whatever it gave
before. -/
def thenShow {α : Type} (result : Except SurfaceFault α)
    (shown : Except SurfaceFault Unit × Surface) : Except SurfaceFault α × Surface :=
  match shown with
  | (.ok _, s) => (result, s)
  | (.error e, s) => (.error e, s)

/-! ## Showing handles -/

variable (v : Validator)

/-- Show a handle in its trace, as far as its values are taken. -/
def drawOn (s : Surface) (n : HandleId) : Except SurfaceFault Unit × Surface :=
  match s.handle? n with
  | some h =>
    if h.removed then (.ok (), s)
    else
      (if v.takesHandle h then .ok () else .error .refused,
        { s with figure := s.figure.map fun t => if t.id = h.trace then h.renderOn v t else t })
  | none => (.ok (), s)

/-- Show a handle, or queue it while updates are suspended. A removed handle is not shown. -/
def updateOn (s : Surface) (n : HandleId) : Except SurfaceFault Unit × Surface :=
  match s.handle? n with
  | some h =>
    if h.removed then (.ok (), s)
    else if s.isSuspended then (.ok (), s.enqueue n)
    else s.drawOn v n
  | none => (.ok (), s)

/-- Show the handles of the queue. The queue is empty afterwards, whether or not one of them is
refused. -/
def flushOn (s : Surface) : Except SurfaceFault Unit × Surface :=
  let (result, s) := each (drawOn v) s.queue s
  (result, { s with queue := [] })

/-- End the innermost suspension. -/
def resumeOn (s : Surface) : Except SurfaceFault Unit × Surface :=
  let s := { s with depth := s.depth - 1 }
  if s.depth = 0 then s.flushOn v else (.ok (), s)

/-- Make a handle visible or not, and show that. -/
def setVisibleOn (s : Surface) (n : HandleId) (visible : Bool) : Except SurfaceFault Unit × Surface :=
  (s.modify n fun h => { h with visible }).updateOn v n

/-! ## Making handles -/

/-- Show a handle that was just made. It is there even if it is refused. -/
def showNew (made : HandleId × Surface) : Except SurfaceFault HandleId × Surface :=
  thenShow (.ok made.1) (made.2.setVisibleOn v made.1 true)

/-- Make a point with coordinates and settings as they were read, and show it. -/
def createMarkerOn (s : Surface) (coords : List Float) (r : Readout MarkerSettings) :
    Except SurfaceFault HandleId × Surface :=
  match pair? coords, r.fault with
  | .ok coords, none =>
    showNew v (s.addHandle "markers" (.marker (({ coords } : Marker).configure r.settings)))
  | .error e, _ => (.error e, (s.addTrace "markers").2)
  | _, some e => (.error (.setting e), (s.addTrace "markers").2)

/-- Make a segment with coordinates and settings as they were read, and show it. -/
def createSegmentOn (s : Surface) (start finish : List Float) (r : Readout SegmentSettings) :
    Except SurfaceFault HandleId × Surface :=
  match firstTwo? start, firstTwo? finish, r.fault with
  | .ok start, .ok finish, none =>
    showNew v (s.addHandle "lines" (.segment (({ start, finish } : Segment).configure r.settings)))
  | .error e, _, _ => (.error e, (s.addTrace "lines").2)
  | _, .error e, _ => (.error e, (s.addTrace "lines").2)
  | _, _, some e => (.error (.setting e), (s.addTrace "lines").2)

/-! ## Lazy curves -/

/-- Sample a lazy curve anew, and show the curve. -/
def updateCurveOn (s : Surface) (n : HandleId) : Except SurfaceFault Unit × Surface :=
  match ((s.handle? n).bind (·.curve?)).bind (·.source) with
  | none => s.updateOn v n
  | some source =>
    let samples := s.pixelSamples source.axis
    match source.xOf samples with
    | none => (.error .source, s)
    | some xs =>
      let s := s.modify n (Handle.mapCurve fun c => { c with xs })
      match source.yOf samples with
      | none => (.error .source, s)
      | some ys => (s.modify n (Handle.mapCurve fun c => { c with ys })).updateOn v n

/-- Change the bounds, and sample all lazy curves anew. They are shown when the suspension ends, so
that none is refused before. -/
def setBoundsOn (s : Surface) (d : Contour.Domain Float) : Except SurfaceFault Unit × Surface :=
  if !d.isProper then (.error (.bounds d), s)
  else
    let s := { s.suspend with bounds := d }
    let (result, s) := resample s.lazyCurves s
    thenShow result (s.resumeOn v)

end Graphing.Surface
