/-
  Graphing.Relation.Value

  The value of a piecewise relation at a point: that of its first segment
  whose interval contains the point. A hole has no value.
-/
import Graphing.Relation.Equation
import Graphing.Relation.Pieces

namespace Graphing.Relation

open Text (lower)

/-! ## Segments -/

/-- What a segment contributes to the value at a point. -/
inductive Segment where
  /-- Nothing. -/
  | none
  /-- A point without a value. -/
  | hole
  /-- The value of an expression on an interval. -/
  | formula (expression : List Char) (interval : Interval Float)

/-- Read one segment, given the point of evaluation. -/
def Segment.read (piece : List Char) (x : Float) : Except Hole Segment := do
  if (Interval.point? piece).isSome then return .none
  let (expression, interval) ← splitRestriction piece
  if interval.isHole x then return .hole
  if (Interval.hole? piece).isSome || (interval.hole.isSome && expression.isEmpty) then return .none
  return .formula expression interval

/-- The segments with a value, or nothing if the point is a hole of one of them. -/
def readSegments? (x : Float) :
    List (List Char) → Except Hole (Option (List (List Char × Interval Float)))
  | [] => .ok (some [])
  | piece :: rest => do
    match ← Segment.read piece x with
    | .hole => return none
    | .none => readSegments? x rest
    | .formula e i => return (← readSegments? x rest).map ((e, i) :: ·)

/-! ## Values -/

/-- The value of a formula in one variable: NaN if it is none, or uses other names. -/
def formulaValue (text : List Char) (name : String) (x : Float) : Except Hole Float :=
  match CompiledFormula.ofText (String.ofList text) [name] with
  | .ok f => .ok (f.valueAt #[x])
  | .error (.compile (.hole h)) => .error h
  | .error _ => .ok Binary64.nan

/-- The value of a relation at a point of the named variable, NaN where it has none. -/
def valueAt (s : List Char) (name : String) (x : Float) : Except Hole Float := do
  match ← readSegments? x (pieces (lower s)) with
  | none => return Binary64.nan
  | some segments =>
    match segments.find? fun (_, i) => i.contains x with
    | some (e, _) => formulaValue (assignedSide e) name x
    | none => return Binary64.nan

/-- The value of a relation as a constant. -/
def constantValue (s : List Char) : Except Hole Float := constantText (String.ofList (lower s))

end Graphing.Relation
