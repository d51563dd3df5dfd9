/-
  Graphing.Contour.Tracer

  Tracing the curve where a function of the plane is zero. The domain is cut
  into a raster of cells; a first pass splits saddles a few times, a second
  one splits those that are left further. The segments are stitched into
  polylines. A tracer keeps its cells for the next trace, and cannot be used
  while it is tracing.
-/
import Graphing.Contour.ChainStore
import Graphing.Contour.Domain
import Graphing.Contour.Path
import Graphing.Contour.Refinement
import Graphing.Number.Decimal

namespace Graphing.Contour

/-! ## Rasters of cells -/

/-- Cells in rows, from the bottom to the top. -/
structure Raster (α β : Type) where
  columns : Nat
  rows : Nat
  cells : Array (CellTree α β)

section

variable {α β : Type} [Coordinate α] [Reading β α]

/-- A raster of blank cells. -/
def Raster.blank (columns rows : Nat) : Raster α β :=
  ⟨columns, rows, Array.replicate (columns * rows) (.leaf .blank)⟩

/-- The corner of the raster in a column and row. -/
def Domain.corner (d : Domain α) (columns rows i j : Nat) : Point α :=
  ⟨spread d.xmin d.xmax columns i, spread d.ymin d.ymax rows j⟩

/-- All corners of the raster, row by row. -/
def Domain.corners (d : Domain α) (columns rows : Nat) : List (Point α) :=
  (List.range (rows + 1)).flatMap fun j =>
    (List.range (columns + 1)).map fun i => d.corner columns rows i j

/-- The cell of the raster in a column and row, given the samples at all corners. -/
def Domain.cell (d : Domain α) (columns rows : Nat) (samples : Array β) (i j : Nat) : Cell α β :=
  let lo := d.corner columns rows i j
  let hi := d.corner columns rows (i + 1) (j + 1)
  let sample (i j : Nat) : β := (samples[j * (columns + 1) + i]?).getD Reading.undefined
  { x0 := lo.x, y0 := lo.y, x1 := hi.x, y1 := hi.y,
    nw := sample i (j + 1), ne := sample (i + 1) (j + 1),
    se := sample (i + 1) j, sw := sample i j }

/-- The cells of the raster, row by row. -/
def Domain.cells (d : Domain α) (columns rows : Nat) (f : PlaneFunction α β) :
    List (Cell α β) :=
  let samples := (f.sample (d.corners columns rows)).toArray
  (List.range rows).flatMap fun j =>
    (List.range columns).map fun i => d.cell columns rows samples i j

/-! ## The two passes -/

/-- The cells with their quarters, the segments found so far, and where the saddles are that were
put off. -/
structure Passes (α β : Type) where
  cells : Array (CellTree α β)
  segments : List (Point α × Point α)
  pending : List (Nat × List Nat)

/-- The first pass: split saddles up to the shallow level. -/
def firstPass (f : PlaneFunction α β) (shallow deep : Nat) (old : List (CellTree α β))
    (cells : List (Cell α β)) : Passes α β :=
  let parts := (CellTree.placeAll old cells).map (visit f (shallow < deep) shallow)
  { cells := (parts.map (·.tree)).toArray
    segments := parts.flatMap (·.segments)
    pending := parts.zipIdx.flatMap fun (r, k) => r.pending.map fun path => (k, path) }

/-- Split one saddle that was put off. -/
def resolve (f : PlaneFunction α β) (levels : Nat) (p : Passes α β) (place : Nat × List Nat) :
    Passes α β :=
  match p.cells[place.1]? with
  | none => p
  | some top =>
    match top.get? place.2 with
    | none => p
    | some t =>
      let r := refine f false levels t
      { p with
        cells := p.cells.setIfInBounds place.1 (CellTree.set r.tree top place.2)
        segments := p.segments ++ r.segments }

/-- The second pass: split the saddles that were put off, down to the deep level. -/
def secondPass (f : PlaneFunction α β) (shallow deep : Nat) (p : Passes α β) : Passes α β :=
  p.pending.foldl (resolve f (deep - shallow)) p

end

/-! ## Tracers -/

/-- How a tracer works. -/
structure TracerOptions (α : Type) where
  pixelsPerCell : Int := 8
  /-- Columns and rows of the coarse raster. -/
  fastGrid : Int := 8
  shallowDepth : Int := 1
  maxDepth : Int := 4
  tolerance : α
  maxOpenChains : Int := 512

/-- The usual options. -/
def TracerOptions.usual : TracerOptions Float := { tolerance := 1e-6 }

/-- Why options cannot be used. -/
inductive OptionsFault where
  | depths
  | sizes
  deriving Repr, DecidableEq

/-- The wording of the fault. -/
def OptionsFault.message : OptionsFault → String
  | .depths => "Expected 0 <= shallow_depth <= max_depth"
  | .sizes => "Cell sizes must be positive"

/-- A tracer with its cells. -/
structure Tracer (α β : Type) where
  options : TracerOptions α
  raster : Raster α β
  isBusy : Bool := false

/-- Why a trace fails. -/
inductive TraceFault (α : Type) where
  /-- The tracer is tracing already. -/
  | busy
  | domain (d : Domain α)
  | resolution (width height : Int)
  /-- A point lies in no square of the raster of ends. -/
  | raster (e : RasterFault)
  /-- The path was refused by its consumer. -/
  | refused
  deriving Repr

/-- The wording of the fault, if it has one. -/
def TraceFault.message? : TraceFault Float → Option String
  | .busy => some "ImplicitTracer.trace() is not reentrant"
  | .domain d =>
    some ("Invalid domain (" ++ String.intercalate ", "
      ([d.xmin, d.xmax, d.ymin, d.ymax].map Decimal.shortestText) ++ ")")
  | .resolution w h =>
    some ("Resolution must be positive, got (" ++ toString w ++ ", " ++ toString h ++ ")")
  | .raster _ => none
  | .refused => none

/-- The quotient rounded up, at least one. -/
def cellCount (pixels perCell : Int) : Nat := max 1 (-((-pixels) / perCell)).toNat

/-- What to trace. -/
structure TraceRequest (α β : Type) where
  function : PlaneFunction α β
  domain : Domain α
  resolution : Int × Int := (600, 600)
  fast : Bool := false

namespace Tracer

variable {α β : Type}

/-- A tracer without cells. -/
def ofOptions? (options : TracerOptions α) : Except OptionsFault (Tracer α β) :=
  if !(0 ≤ options.shallowDepth && options.shallowDepth ≤ options.maxDepth) then .error .depths
  else if options.pixelsPerCell < 1 || options.fastGrid < 1 then .error .sizes
  else .ok { options, raster := ⟨0, 0, #[]⟩ }

/-- The columns and rows of the raster for a number of pixels. -/
def gridShape (t : Tracer α β) (resolution : Int × Int) (fast : Bool) :
    Except (TraceFault α) (Nat × Nat) :=
  if fast then .ok (t.options.fastGrid.toNat, t.options.fastGrid.toNat)
  else if resolution.1 ≤ 0 || resolution.2 ≤ 0 then
    .error (.resolution resolution.1 resolution.2)
  else
    .ok (cellCount resolution.1 t.options.pixelsPerCell,
      cellCount resolution.2 t.options.pixelsPerCell)

variable [Coordinate α] [Reading β α]

/-- The raster of a tracer, blank if it has another shape. -/
def rasterFor (t : Tracer α β) (columns rows : Nat) : Raster α β :=
  if t.raster.columns = columns ∧ t.raster.rows = rows then t.raster else .blank columns rows

/-- Both passes over the raster. -/
def passes (t : Tracer α β) (request : TraceRequest α β) (columns rows : Nat) : Passes α β :=
  let shallow := t.options.shallowDepth.toNat
  let deep := t.options.maxDepth.toNat
  secondPass request.function shallow deep <|
    firstPass request.function shallow deep (t.rasterFor columns rows).cells.toList
      (request.domain.cells columns rows request.function)

/-- Trace a function. The path of the polylines is given to the consumer, if there is one, while the
tracer is still busy. -/
def trace (t : Tracer α β) (request : TraceRequest α β)
    (consumer : Option (Tracer α β → List (PathPoint α) → Except (TraceFault α) Unit)) :
    Except (TraceFault α) (List (List (Point α))) × Tracer α β :=
  if t.isBusy then (.error .busy, t)
  else if !request.domain.isProper then (.error (.domain request.domain), t)
  else
    match t.gridShape request.resolution request.fast with
    | .error e => (.error e, t)
    | .ok (columns, rows) =>
      let p := t.passes request columns rows
      let t' : Tracer α β := { t with raster := ⟨columns, rows, p.cells⟩ }
      match (ChainStore.empty t.options.tolerance t.options.maxOpenChains).addAll p.segments with
      | .error e => (.error (.raster e), t')
      | .ok store =>
        let lines := store.finish.output.toList
        match consumer with
        | none => (.ok lines, t')
        | some consume =>
          match consume { t' with isBusy := true } (flatten lines) with
          | .ok _ => (.ok lines, t')
          | .error e => (.error e, t')

/-! ## Laws -/

/-- A busy tracer refuses and stays as it is. -/
theorem trace_of_isBusy {t : Tracer α β} (h : t.isBusy = true) (request : TraceRequest α β)
    (consumer : Option (Tracer α β → List (PathPoint α) → Except (TraceFault α) Unit)) :
    t.trace request consumer = (.error .busy, t) := by
  simp [trace, h]

/-- A trace leaves the options as they are. -/
theorem options_trace (t : Tracer α β) (request : TraceRequest α β)
    (consumer : Option (Tracer α β → List (PathPoint α) → Except (TraceFault α) Unit)) :
    (t.trace request consumer).2.options = t.options := by
  unfold trace
  split
  · rfl
  · split
    · rfl
    · split
      · rfl
      · dsimp only
        split
        · rfl
        · split
          · rfl
          · split <;> rfl

end Tracer
end Graphing.Contour
