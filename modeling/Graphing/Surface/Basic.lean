/-
  Graphing.Surface.Basic

  A drawing surface: a figure of traces, and handles that each own one of
  them. While updates are suspended, handles that are to be shown are queued;
  the queue is worked off when the outermost suspension ends. Traces are made
  and removed at once.

  The figure takes whatever is shown here.  `Graphing.Surface.Push` has the same
  operations on a figure that can refuse style values.
-/
import Graphing.Contour.Domain
import Graphing.Number.Elementary
import Graphing.Surface.Handle
import Graphing.Text.Quoted

namespace Graphing

/-! ## Faults -/

/-- Why an operation on a surface fails. -/
inductive SurfaceFault where
  /-- The number of pixels is not positive. -/
  | pixels (width height : Int)
  /-- The number of pixels is too small for a figure. -/
  | tooSmall
  | bounds (d : Contour.Domain Float)
  | axis (name : String)
  /-- A point does not have two coordinates. -/
  | notPair
  /-- A point has fewer than two coordinates. -/
  | tooFew
  | setting (e : SettingFault)
  /-- The coordinates of a lazy curve cannot be had. -/
  | source
  /-- The figure does not take a style value. -/
  | refused
  deriving Repr

/-- The wording of the fault, if it has one. -/
def SurfaceFault.message? : SurfaceFault → Option String
  | .pixels w h => some ("Pixel size must be positive, got " ++ toString w ++ "x" ++ toString h)
  | .bounds d =>
    let range (lo hi : Float) : String :=
      "(" ++ Decimal.shortestText lo ++ ", " ++ Decimal.shortestText hi ++ ")"
    some ("Invalid bounds: x=" ++ range d.xmin d.xmax ++ " y=" ++ range d.ymin d.ymax)
  | .axis name => some ("parameter must be 'x' or 'y', got " ++ Text.Quoted.quoted name)
  | _ => none

/-! ## Surfaces -/

/-- The number of a handle. Handles are numbered as they are made. -/
abbrev HandleId := Nat

/-- A surface with its figure. -/
structure Surface where
  width : Nat
  height : Nat
  bounds : Contour.Domain Float
  /-- All handles that were ever made. -/
  handles : Array Handle := #[]
  /-- The handles that were not removed. -/
  live : List HandleId := []
  /-- The traces of the figure. -/
  figure : List Trace := []
  nextTrace : Nat := 0
  /-- The handles that are to be shown when the suspension ends. -/
  queue : List HandleId := []
  /-- How many suspensions are open. -/
  depth : Nat := 0

namespace Surface

/-- The fewest pixels that a figure can have along a side. -/
def leastPixels : Int := 10

/-- A surface without handles. -/
def create? (width height : Int) (bounds : Contour.Domain Float) : Except SurfaceFault Surface :=
  if width ≤ 0 || height ≤ 0 then .error (.pixels width height)
  else if width < leastPixels || height < leastPixels then .error .tooSmall
  else .ok { width := width.toNat, height := height.toNat, bounds }

/-- Whether updates are suspended. -/
def isSuspended (s : Surface) : Bool := s.depth > 0

/-- The handle with a number. -/
def handle? (s : Surface) (n : HandleId) : Option Handle := s.handles[n]?

/-- Change a handle. -/
def modify (s : Surface) (n : HandleId) (f : Handle → Handle) : Surface :=
  { s with handles := s.handles.modify n f }

/-! ## Samples -/

/-- The `k`-th of `n + 1` samples from `lo` to `hi`. -/
def sampleAt (n : Nat) (lo hi : Float) (k : Nat) : Float :=
  Elementary.scalemap (Binary64.ofRat k) ⟨0, Binary64.ofRat n⟩ ⟨lo, hi⟩

/-- One sample for each column of pixels, or for each row, and one more. -/
def pixelSamples (s : Surface) : Axis → List Float
  | .x => (List.range (s.width + 1)).map (sampleAt s.width s.bounds.xmin s.bounds.xmax)
  | .y => (List.range (s.height + 1)).map (sampleAt s.height s.bounds.ymin s.bounds.ymax)

/-! ## Showing handles -/

/-- Show a handle in its trace, on a figure that takes all of its values. -/
def draw (s : Surface) (n : HandleId) : Surface :=
  match s.handle? n with
  | some h =>
    if h.removed then s
    else { s with figure := s.figure.map fun t => if t.id = h.trace then h.render t else t }
  | none => s

/-- Put a handle into the queue, where it is at most once. -/
def enqueue (s : Surface) (n : HandleId) : Surface :=
  if s.queue.contains n then s else { s with queue := s.queue ++ [n] }

/-- Show a handle, or queue it while updates are suspended. A removed handle is not shown. -/
def update (s : Surface) (n : HandleId) : Surface :=
  match s.handle? n with
  | some h => if h.removed then s else if s.isSuspended then s.enqueue n else s.draw n
  | none => s

/-- Show the handles of the queue. -/
def flush (s : Surface) : Surface :=
  { s.queue.foldl draw s with queue := [] }

/-- Begin a suspension. -/
def suspend (s : Surface) : Surface := { s with depth := s.depth + 1 }

/-- End the innermost suspension. -/
def resume (s : Surface) : Surface :=
  let s := { s with depth := s.depth - 1 }
  if s.depth = 0 then s.flush else s

/-- Make a handle visible or not, and show that. -/
def setVisible (s : Surface) (n : HandleId) (visible : Bool) : Surface :=
  (s.modify n fun h => { h with visible }).update n

/-- Make a handle visible. -/
def unhide (s : Surface) (n : HandleId) : Surface := s.setVisible n true

/-- Make a handle invisible. -/
def hide (s : Surface) (n : HandleId) : Surface := s.setVisible n false

/-! ## Making and removing handles -/

/-- Add an empty trace to the figure. -/
def addTrace (s : Surface) (mode : String) : Nat × Surface :=
  (s.nextTrace,
    { s with figure := s.figure ++ [{ id := s.nextTrace, mode }], nextTrace := s.nextTrace + 1 })

/-- Add a handle with a trace of its own. -/
def addHandle (s : Surface) (mode : String) (shape : Shape) : HandleId × Surface :=
  let (trace, s) := s.addTrace mode
  let n := s.handles.size
  (n, { s with handles := s.handles.push { trace, shape }, live := s.live ++ [n] })

/-- Make a curve. It is not visible yet. -/
def newCurve (s : Surface) (settings : CurveSettings) : HandleId × Surface :=
  s.addHandle "lines" (.curve (({} : Curve).configure settings))

/-- Make a point and show it. -/
def newMarker (s : Surface) (coords : Float × Float) (settings : MarkerSettings) :
    HandleId × Surface :=
  let (n, s) := s.addHandle "markers" (.marker (({ coords } : Marker).configure settings))
  (n, s.unhide n)

/-- Make a segment and show it. -/
def newSegment (s : Surface) (start finish : Float × Float) (settings : SegmentSettings) :
    HandleId × Surface :=
  let (n, s) := s.addHandle "lines" (.segment (({ start, finish } : Segment).configure settings))
  (n, s.unhide n)

/-- Remove a handle and its trace. A handle that was removed before stays as it is. -/
def remove (s : Surface) (n : HandleId) : Surface :=
  match s.handle? n with
  | some h =>
    if h.removed then s
    else
      { s.modify n (fun h => { h with removed := true }) with
        figure := s.figure.filter fun t => t.id != h.trace
        queue := s.queue.filter (· != n)
        live := s.live.filter (· != n) }
  | none => s

/-! ## Handles from raw values -/

/-- Two coordinates, and no more. -/
def pair? : List Float → Except SurfaceFault (Float × Float)
  | [x, y] => .ok (x, y)
  | _ => .error .notPair

/-- The first two of some coordinates. -/
def firstTwo? : List Float → Except SurfaceFault (Float × Float)
  | x :: y :: _ => .ok (x, y)
  | _ => .error .tooFew

/-- Make a curve with settings as they were read. What cannot be used leaves a trace without a
handle. -/
def createCurve (s : Surface) (r : Readout CurveSettings) :
    Except SurfaceFault HandleId × Surface :=
  match r.fault with
  | none =>
    let (n, s) := s.newCurve r.settings
    (.ok n, s)
  | some e => (.error (.setting e), (s.addTrace "lines").2)

/-- Make a point with coordinates and settings as they were read. What cannot be used leaves a trace
without a handle. -/
def createMarker (s : Surface) (coords : List Float) (r : Readout MarkerSettings) :
    Except SurfaceFault HandleId × Surface :=
  match pair? coords, r.fault with
  | .ok coords, none =>
    let (n, s) := s.newMarker coords r.settings
    (.ok n, s)
  | .error e, _ => (.error e, (s.addTrace "markers").2)
  | _, some e => (.error (.setting e), (s.addTrace "markers").2)

/-- Make a segment with coordinates and settings as they were read. What cannot be used leaves a
trace without a handle. -/
def createSegment (s : Surface) (start finish : List Float) (r : Readout SegmentSettings) :
    Except SurfaceFault HandleId × Surface :=
  match firstTwo? start, firstTwo? finish, r.fault with
  | .ok start, .ok finish, none =>
    let (n, s) := s.newSegment start finish r.settings
    (.ok n, s)
  | .error e, _, _ => (.error e, (s.addTrace "lines").2)
  | _, .error e, _ => (.error e, (s.addTrace "lines").2)
  | _, _, some e => (.error (.setting e), (s.addTrace "lines").2)

/-! ## Lazy curves -/

/-- Sample a lazy curve anew, and show the curve. -/
def updateCurve (s : Surface) (n : HandleId) : Except SurfaceFault Unit × Surface :=
  match ((s.handle? n).bind (·.curve?)).bind (·.source) with
  | none => (.ok (), s.update n)
  | some source =>
    let samples := s.pixelSamples source.axis
    match source.xOf samples with
    | none => (.error .source, s)
    | some xs =>
      let s := s.modify n (Handle.mapCurve fun c => { c with xs })
      match source.yOf samples with
      | none => (.error .source, s)
      | some ys => (.ok (), (s.modify n (Handle.mapCurve fun c => { c with ys })).update n)

/-- Sample several lazy curves anew, up to the first that fails. -/
def resample : List HandleId → Surface → Except SurfaceFault Unit × Surface
  | [], s => (.ok (), s)
  | n :: ns, s =>
    match s.updateCurve n with
    | (.ok _, s) => resample ns s
    | (.error e, s) => (.error e, s)

/-- The lazy curves that were not removed. -/
def lazyCurves (s : Surface) : List HandleId :=
  s.live.filter fun n => (s.handle? n).any (·.isLazy)

/-- Change the bounds, and sample all lazy curves anew. -/
def setBounds (s : Surface) (d : Contour.Domain Float) : Except SurfaceFault Unit × Surface :=
  if !d.isProper then (.error (.bounds d), s)
  else
    let s := { s.suspend with bounds := d }
    let (result, s) := resample s.lazyCurves s
    (result, s.resume)

/-! ## Laws -/

/-- Bounds that are no rectangle change nothing. -/
theorem setBounds_of_not_isProper {s : Surface} {d : Contour.Domain Float}
    (h : d.isProper = false) : s.setBounds d = (.error (.bounds d), s) := by
  simp [setBounds, h]

end Surface
end Graphing
