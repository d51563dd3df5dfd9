/-
  Graphing.Plot.Piece

  Pieces: what one segment of a relation is drawn with. A piece owns handles
  of the surface, and keeps them when it is used for another segment. A canvas
  is a surface with all pieces that were made on it.
-/
import Graphing.Evaluation.Compiled
import Graphing.Interval.Basic
import Graphing.Relation.Classification
import Graphing.Surface.Push

namespace Graphing

/-! ## Pieces -/

/-- What a piece can be used for. -/
inductive PieceKind where
  | curve
  | point
  | asymptote
  deriving Repr, DecidableEq, Inhabited

/-- The name of a kind. -/
def PieceKind.name : PieceKind → String
  | .curve => "curve"
  | .point => "point"
  | .asymptote => "asymptote"

/-- What one segment of a relation is drawn with. -/
structure Piece where
  kind : PieceKind
  family : Option Relation.Family := none
  relation : List Char := []
  restriction : List Char := []
  interval : Interval Float := .universal
  curve : Option HandleId := none
  lower : Option HandleId := none
  upper : Option HandleId := none
  hole : Option HandleId := none
  point : Option HandleId := none
  segment : Option HandleId := none
  /-- The curves of an implicit relation. -/
  contours : List HandleId := []
  coords : Option (Float × Float) := none
  solid : Bool := true
  /-- Whether the piece is part of what is drawn. -/
  active : Bool := false
  function : Option CompiledFormula := none

/-- The handles of a piece. -/
def Piece.handles (p : Piece) : List HandleId :=
  [p.curve, p.lower, p.upper, p.hole, p.point, p.segment].filterMap id ++ p.contours

/-- The number of a piece. Pieces are numbered as they are made. -/
abbrev PieceId := Nat

/-- A surface and its pieces. -/
structure Canvas where
  surface : Surface
  pieces : Array Piece := #[]

namespace Canvas

/-- The piece with a number. -/
def piece? (c : Canvas) (n : PieceId) : Option Piece := c.pieces[n]?

/-- Change a piece. -/
def modify (c : Canvas) (n : PieceId) (f : Piece → Piece) : Canvas :=
  { c with pieces := c.pieces.modify n f }

/-- Change the surface. -/
def onSurface (c : Canvas) (f : Surface → Surface) : Canvas := { c with surface := f c.surface }

/-- The handles of a piece. -/
def handles (c : Canvas) (n : PieceId) : List HandleId :=
  ((c.piece? n).map (·.handles)).getD []

/-! ## Hiding and removing -/

/-- Make all handles of a piece invisible. -/
def hidePiece (c : Canvas) (n : PieceId) : Canvas :=
  (c.onSurface fun s => (c.handles n).foldl Surface.hide s).modify n fun p =>
    { p with active := false }

/-- Remove all handles of a piece. -/
def removePiece (c : Canvas) (n : PieceId) : Canvas :=
  (c.onSurface fun s => (c.handles n).foldl Surface.remove s).modify n fun p =>
    { p with
      curve := none, lower := none, upper := none, hole := none, point := none, segment := none
      contours := [], active := false }

/-- Make all handles of a piece invisible, up to the first that the figure refuses. Then the piece
stays part of what is drawn. -/
def hidePieceOn (v : Validator) (c : Canvas) (n : PieceId) : Except SurfaceFault Unit × Canvas :=
  match Surface.each (fun s k => s.setVisibleOn v k false) (c.handles n) c.surface with
  | (.ok _, s) => (.ok (), ({ c with surface := s }).modify n fun p => { p with active := false })
  | (.error e, s) => (.error e, { c with surface := s })

/-- Remove all handles of several pieces. Other handles that wait may be refused at the end. -/
def removePiecesOn (v : Validator) (c : Canvas) (ns : List PieceId) :
    Except SurfaceFault Unit × Canvas :=
  let c := ns.foldl removePiece (c.onSurface Surface.suspend)
  let (result, s) := c.surface.resumeOn v
  (result, { c with surface := s })

/-- The place of the first piece of a kind. -/
def indexOfKind? (c : Canvas) (ns : List PieceId) (kind : PieceKind) : Option Nat :=
  ns.findIdx? fun n => (c.piece? n).any fun p => p.kind == kind

/-! ## Taking pieces into use -/

/-- Remove the contours of a piece. -/
def removeContours (c : Canvas) (n : PieceId) : Canvas :=
  let contours := ((c.piece? n).map (·.contours)).getD []
  (c.onSurface fun s => contours.foldl Surface.remove s).modify n fun p => { p with contours := [] }

/-- A piece to draw a segment with: the given one, or a new one. Contours do not outlast the
implicit relation that they belong to. -/
def acquire (c : Canvas) (existing : Option PieceId) (kind : PieceKind)
    (family : Relation.Family) : PieceId × Canvas :=
  match existing with
  | none => (c.pieces.size, { c with pieces := c.pieces.push { kind, family := some family } })
  | some n =>
    let wasImplicit := (c.piece? n).any fun p => p.family == some .implicit
    let c := if wasImplicit && family != .implicit then c.removeContours n else c
    (n, c.modify n fun p => { p with kind, family := some family })

/-! ## Laws -/

theorem size_modify (c : Canvas) (n : PieceId) (f : Piece → Piece) :
    (c.modify n f).pieces.size = c.pieces.size := by
  simp [modify]

theorem surface_modify (c : Canvas) (n : PieceId) (f : Piece → Piece) :
    (c.modify n f).surface = c.surface := rfl

end Canvas
end Graphing
