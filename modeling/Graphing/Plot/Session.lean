/-
  Graphing.Plot.Session

  A session: a canvas that is worked on by commands. Handles are named by
  their numbers, and pieces by their places in named sets: every plot keeps
  its pieces under a name, so that later commands can use them again. A
  command that fails leaves behind what it did before the fault arose.
-/
import Graphing.Plot.Relation

open Graphing.Relation (Family)

namespace Graphing

/-! ## Commands -/

/-- The place of a piece: the name of a set, and a place in it. -/
abbrev PiecePlace := String × Int

/-- What can be done with one handle. -/
inductive HandleCommand where
  | configure (settings : Settings)
  | setData (xs ys : List Float)
  /-- Sample formulas in the variable `s` along an axis. -/
  | setFunction (x y : String) (axis : String)
  | movePoint (coords : List Float)
  | moveSegment (start finish : List Float)
  | update
  | unhide
  | hide
  | updateCurve
  | remove

/-- What is drawn with a single piece. -/
inductive Drawing where
  | family (f : Family) (relation : List Char)
  | point (coords : List Float)
  /-- An excluded value, with formulas in the variable `x` on their intervals. -/
  | mark (value : Float) (functions : List (String × Interval Float))

/-- What can be done in a session. -/
inductive Command where
  | bounds
  | setBounds (d : Contour.Domain Float)
  | pixelSamples (axis : Axis)
  | createCurve (settings : Settings)
  | createPoint (coords : List Float) (settings : Settings)
  | createSegment (start finish : List Float) (settings : Settings)
  | onHandle (h : Int) (c : HandleCommand)
  /-- Nothing happens: there is no handle to remove. -/
  | removeNothing
  | suspend
  | resume
  | order
  | handles (hs : Option (List Int))
  | traces
  | circle (coords : List Float) (solid : Bool) (color : String) (h : Option Int)
      (size : Option Float)
  | plot (relation : List Char) (settings : Settings) (reuse : Option String) (name : String)
  | draw (d : Drawing) (settings : Settings) (piece : Option PiecePlace) (name : String)
  | firstCurve (name : String)
  | pieces (name : String)
  | removePieces (name : String)
  | hidePiece (p : PiecePlace)

/-- What a command answers. -/
inductive Reply where
  | nothing
  | flag (b : Bool)
  | place (n : Option Nat)
  | bounds (d : Contour.Domain Float)
  | samples (xs : List Float)
  | order (hs : List HandleId)
  | handles (hs : List (HandleId × Handle))
  /-- Traces, each with the handle that it belongs to. -/
  | traces (ts : List (Option HandleId × Trace))
  | piece (p : Piece)
  | pieces (ps : List Piece) (skipped : List Skipped)

/-- Why a command fails. -/
inductive SessionFault where
  /-- A number is beyond the end of what it counts. -/
  | noPlace
  /-- There is no set of this name. -/
  | noSet
  /-- The handle knows no such command. -/
  | notSupported
  /-- The command does not fit the handle. -/
  | unsuitable
  | setting (e : SettingFault)
  | surface (e : SurfaceFault)
  | plot (e : PlotFault)

/-! ## Sessions -/

/-- A canvas with named sets of its pieces. -/
structure Session where
  canvas : Canvas
  /-- The latest set of a name comes first. -/
  sets : List (String × List PieceId) := []
  /-- How many suspensions were begun by commands and not ended. -/
  suspensions : Nat := 0
  /-- What the figure takes. -/
  validator : Validator := .documented

namespace Session

/-- A step of a session. What it did is kept when it fails. -/
abbrev Step := ExceptT SessionFault (StateM Session)

/-- The place that a number stands for in a list; negative numbers count from the end. -/
def place? (size : Nat) (i : Int) : Option Nat :=
  let i := if i < 0 then i + size else i
  if 0 ≤ i && i < size then some i.toNat else none

/-- The place that a number stands for. -/
def place (size : Nat) (i : Int) : Step Nat :=
  match place? size i with
  | some n => return n
  | none => throw .noPlace

/-- Change the surface. -/
def onSurface (f : Surface → Surface) : Step Unit :=
  modify fun w => { w with canvas := w.canvas.onSurface f }

/-- Run an operation on the surface. -/
def withSurface {α : Type} (f : Surface → Except SurfaceFault α × Surface) : Step α := do
  let (result, surface) := f (← get).canvas.surface
  onSurface fun _ => surface
  match result with
  | .ok a => return a
  | .error e => throw (.surface e)

/-- Run an operation on the canvas. -/
def withCanvas {α : Type} (f : Canvas → Outcome α) : Step α := do
  let (result, canvas) := f (← get).canvas
  modify fun w => { w with canvas }
  match result with
  | .ok a => return a
  | .error e => throw (.plot e)

/-- Run an operation on the surface that shows handles. -/
def withFigure {α : Type} (f : Validator → Surface → Except SurfaceFault α × Surface) :
    Step α := do
  let validator := (← get).validator
  withSurface (f validator)

/-- Run an operation on the pieces that shows handles. -/
def withPieces (f : Validator → Canvas → Except SurfaceFault Unit × Canvas) : Step Unit := do
  let validator := (← get).validator
  withCanvas fun c =>
    let (result, c) := f validator c
    (result.mapError .surface, c)

/-- The handle that a number stands for. -/
def handleAt (h : Int) : Step (HandleId × Handle) := do
  let handles := (← get).canvas.surface.handles
  let n ← place handles.size h
  match handles[n]? with
  | some handle => return (n, handle)
  | none => throw .noPlace

/-- The pieces of a set. -/
def setNamed (name : String) : Step (List PieceId) := do
  match (← get).sets.lookup name with
  | some ns => return ns
  | none => throw .noSet

/-- The piece at a place. -/
def pieceAt (p : PiecePlace) : Step PieceId := do
  let ns ← setNamed p.1
  let i ← place ns.length p.2
  match ns[i]? with
  | some n => return n
  | none => throw .noPlace

/-- The pieces with some numbers. -/
def piecesOf (ns : List PieceId) : Step (List Piece) := do
  let canvas := (← get).canvas
  return ns.filterMap canvas.piece?

/-- Keep pieces under a name. -/
def keep (name : String) (ns : List PieceId) : Step Unit :=
  modify fun w => { w with sets := (name, ns) :: w.sets }

/-- Lift the reading of settings. -/
def readSettings {α : Type} (r : Except SettingFault α) : Step α :=
  match r with
  | .ok a => return a
  | .error e => throw (.setting e)

/-- Compile a formula. -/
def compile (text : String) (parameters : List String) : Step CompiledFormula :=
  match CompiledFormula.ofText text parameters with
  | .ok f => return f
  | .error e => throw (.plot (.formula e))

/-! ## Commands on a handle -/

/-- Change a handle to what was read of some settings. -/
def change {α : Type} (n : HandleId) (r : Readout α) (f : α → Handle → Handle) : Step Unit := do
  onSurface fun s => s.modify n (f r.settings)
  match r.fault with
  | none => return
  | some e => throw (.setting e)

/-- Use coordinates as they were read. -/
def coordinates (r : Except SurfaceFault (Float × Float)) : Step (Float × Float) :=
  match r with
  | .ok p => return p
  | .error e => throw (.surface e)

/-- Run a command on a handle. -/
def runOnHandle (n : HandleId) (h : Handle) : HandleCommand → Step Unit
  | .configure settings =>
    match h.shape with
    | .curve _ =>
      change n (CurveSettings.read settings) fun s => Handle.mapCurve fun c => c.configure s
    | .marker _ =>
      change n (MarkerSettings.read settings) fun s => Handle.mapMarker fun m => m.configure s
    | .segment _ =>
      change n (SegmentSettings.read settings) fun s => Handle.mapSegment fun g => g.configure s
  | .setData xs ys => do
    if h.curve?.isNone then throw .notSupported
    onSurface fun s => s.modify n (Handle.mapCurve fun c => c.setData xs ys)
  | .setFunction x y axis => do
    if h.curve?.isNone then throw .notSupported
    let x ← compile x ["s"]
    let y ← compile y ["s"]
    match Axis.ofText? axis with
    | none => throw (.surface (.axis axis))
    | some axis =>
      let producer (f : CompiledFormula) : Producer :=
        fun samples => some (samples.map fun v => f.valueAt #[v])
      onSurface fun s => s.modify n (Handle.mapCurve fun c =>
        c.setSource ⟨producer x, producer y, axis⟩)
  | .movePoint coords =>
    match h.shape with
    | .curve _ => throw .notSupported
    | .segment _ => throw .unsuitable
    | .marker _ => do
      let coords ← coordinates (Surface.pair? coords)
      onSurface fun s => s.modify n (Handle.mapMarker fun m => { m with coords })
  | .moveSegment start finish =>
    match h.shape with
    | .curve _ => throw .notSupported
    | .marker _ => throw .unsuitable
    | .segment _ => do
      let start ← coordinates (Surface.firstTwo? start)
      onSurface fun s => s.modify n (Handle.mapSegment fun g => { g with start })
      let finish ← coordinates (Surface.firstTwo? finish)
      onSurface fun s => s.modify n (Handle.mapSegment fun g => { g with finish })
  | .update => withFigure fun v s => s.updateOn v n
  | .unhide => withFigure fun v s => s.setVisibleOn v n true
  | .hide => withFigure fun v s => s.setVisibleOn v n false
  | .updateCurve => do
    if h.curve?.isNone then throw .notSupported
    withFigure fun v s => s.updateCurveOn v n
  | .remove => onSurface fun s => s.remove n

/-! ## Drawing with a single piece -/

/-- The style in some settings, which may hold the settings named in `others` too. -/
def styleOf (settings : Settings) (others : List String) : Step PlotStyle := do
  let options ← readSettings (StyleOptions.ofSettings? settings others)
  match PlotStyle.ofOptions? options with
  | .ok style => return style
  | .error e => throw (.plot (.style e))

/-- Draw a relation of a family with a piece. -/
def drawFamily (f : Family) (relation : List Char) (settings : Settings)
    (existing : Option PieceId) : Step PieceId :=
  let name (usual : String) : String := (settings.text? "variable").getD usual
  match f with
  | .functionOfX => do
    let style ← styleOf settings ["variable", "holes"]
    let holes := (settings.value "holes").numbers
    withCanvas fun c => c.plotFunction relation (name "x") holes existing style
  | .functionOfY => do
    let style ← styleOf settings ["variable"]
    withCanvas fun c => c.plotSideways relation (name "y") existing style
  | .polar => do
    let style ← styleOf settings ["variable"]
    withCanvas fun c => c.plotPolar relation (name "t") existing style
  | .parametric => do
    let style ← styleOf settings ["variable"]
    withCanvas fun c => c.plotParametric relation (name "t") existing style
  | .sequence => do
    let style ← styleOf settings ["variable"]
    withCanvas fun c => c.plotSequence relation (name "n") existing style
  | .implicit => do
    let style ← styleOf settings ["axes", "fast"]
    let axes := match settings.value "axes" with
      | .absent => ["x", "y"]
      | names => names.texts
    withCanvas fun c => c.plotImplicit relation axes (settings.flagOr "fast" false) existing style
  | .point | .asymptote | .unknown => throw (.plot .noFamily)

/-- Draw with a piece. -/
def drawPiece (d : Drawing) (settings : Settings) (existing : Option PieceId) : Step PieceId :=
  match d with
  | .family f relation => drawFamily f relation settings existing
  | .point coords => do
    let style ← styleOf settings ["solid"]
    withCanvas fun c => c.plotPoint coords (settings.flagOr "solid" true) existing style
  | .mark value functions => do
    let functions ← functions.mapM fun (text, interval) => do
      let f ← compile text ["x"]
      return ((fun x => f.valueAt #[x] : Float → Float), interval)
    let style ← styleOf settings []
    withCanvas fun c =>
      let (n, c) := c.plotMark value functions existing style
      (.ok n, c)

/-! ## Commands -/

/-- A circle can be moved if it is a point. -/
def circleAt (h : Option Int) : Step (Option HandleId) :=
  match h with
  | none => return none
  | some h => do
    let (n, handle) ← handleAt h
    match handle.shape with
    | .curve _ => throw .notSupported
    | .segment _ => throw .unsuitable
    | .marker _ => return some n

/-- The traces of a figure, each with the handle that it belongs to. -/
def tracesOf (s : Surface) : List (Option HandleId × Trace) :=
  s.figure.map fun t => (s.live.find? fun n => (s.handle? n).any fun h => h.trace == t.id, t)

/-- Run a command. -/
def runCommand : Command → Step Reply
  | .bounds => return .bounds (← get).canvas.surface.bounds
  | .setBounds d => do
    withFigure fun v s => s.setBoundsOn v d
    return .nothing
  | .pixelSamples axis => return .samples ((← get).canvas.surface.pixelSamples axis)
  | .createCurve settings =>
    return .place (some (← withSurface fun s => s.createCurve (CurveSettings.read settings)))
  | .createPoint coords settings =>
    return .place (some
      (← withFigure fun v s => s.createMarkerOn v coords (MarkerSettings.read settings)))
  | .createSegment start finish settings =>
    return .place (some
      (← withFigure fun v s => s.createSegmentOn v start finish (SegmentSettings.read settings)))
  | .onHandle h c => do
    let (n, handle) ← handleAt h
    runOnHandle n handle c
    return .nothing
  | .removeNothing => return .nothing
  | .suspend => do
    onSurface Surface.suspend
    modify fun w => { w with suspensions := w.suspensions + 1 }
    return .flag (← get).canvas.surface.isSuspended
  | .resume => do
    -- only a suspension of the script itself is ended
    if (← get).suspensions = 0 then throw .noPlace
    modify fun w => { w with suspensions := w.suspensions - 1 }
    withFigure fun v s => s.resumeOn v
    return .flag (← get).canvas.surface.isSuspended
  | .order => return .order (← get).canvas.surface.live
  | .handles hs => do
    let s := (← get).canvas.surface
    match hs with
    | some hs => return .handles (← hs.mapM handleAt)
    | none => return .handles (s.handles.toList.zipIdx.map fun (h, n) => (n, h))
  | .traces => return .traces (tracesOf (← get).canvas.surface)
  | .circle coords solid color h size => do
    let existing ← circleAt h
    return .place (some
      (← withFigure fun v s => s.placeCircleAtOn v coords solid color existing size))
  | .plot relation settings reuse name => do
    let previous ← match reuse with
      | none => pure []
      | some set => setNamed set
    let style ← readSettings (StyleOptions.ofSettings? settings ["variable", "fast"])
    let options : PlotOptions :=
      { style, name := (settings.text? "variable").getD "x", fast := settings.flagOr "fast" false }
    let validator := (← get).validator
    let result ← withCanvas fun c => c.plotOn validator relation options previous
    keep name result.pieces
    return .pieces (← piecesOf result.pieces) result.skipped
  | .draw d settings piece name => do
    let existing ← piece.mapM pieceAt
    let n ← drawPiece d settings existing
    keep name [n]
    match (← get).canvas.piece? n with
    | some p => return .piece p
    | none => throw .noPlace
  | .firstCurve name => do
    let ns ← setNamed name
    return .place ((← get).canvas.indexOfKind? ns .curve)
  | .pieces name => return .pieces (← piecesOf (← setNamed name)) []
  | .removePieces name => do
    let ns ← setNamed name
    withPieces fun v c => c.removePiecesOn v ns
    return .pieces (← piecesOf ns) []
  | .hidePiece p => do
    let n ← pieceAt p
    withPieces fun v c => c.hidePieceOn v n
    match (← get).canvas.piece? n with
    | some p => return .piece p
    | none => throw .noPlace

/-- The reply to a command, and the session after it. -/
def run (w : Session) (c : Command) : Except SessionFault Reply × Session :=
  (runCommand c).run.run w

/-- The replies to several commands in turn, each with the session after it. A command that fails
does not end the session. -/
def runAll : Session → List Command → List (Except SessionFault Reply × Session)
  | _, [] => []
  | w, c :: cs =>
    let r := w.run c
    r :: runAll r.2 cs

end Session
end Graphing
