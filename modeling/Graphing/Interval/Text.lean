/-
  Graphing.Interval.Text

  Intervals read from text and written as text. The sides of a written
  interval are constant formulas; a side that mentions an infinity is the one
  at its end of the line.
-/
import Graphing.Evaluation.Text
import Graphing.Interval.Basic
import Graphing.Interval.Literal
import Graphing.Number.Decimal

namespace Graphing.Interval

/-! ## Reading -/

/-- The value of a side; `infinity` is the infinity at its end of the line. -/
def sideValue (side : List Char) (infinity : Float) : Except Hole Float :=
  if isInfinite side then .ok infinity else constantText (String.ofList side)

/-- The bounds that a literal stands for. -/
def Literal.bounds (l : Literal) : Except Hole (Float × Float) := do
  let lower ← sideValue l.lower Scale.negInf
  let upper ← sideValue l.upper Scale.posInf
  return (lower, upper)

/-- The interval that a literal stands for. -/
def Literal.interval (l : Literal) : Except Hole (Interval Float) := do
  let (lower, upper) ← l.bounds
  return ⟨lower, upper, l.opening == .square, l.closing == .square, none⟩

/-- The bounds of a written interval, infinite ones for any other text. -/
def textBounds (s : List Char) : Except Hole (Float × Float) :=
  match literal? s with
  | some l => l.bounds
  | none => .ok (Scale.negInf, Scale.posInf)

/-- The value of a written hole, NaN for any other text. -/
def textHole (s : List Char) : Except Hole Float :=
  match hole? s with
  | some (_, value) => constantText (String.ofList value)
  | none => .ok Binary64.nan

/-- The interval of a restriction: all points but a hole, or those of a written interval. Any other
text restricts nothing. -/
def ofText (s : List Char) : Except Hole (Interval Float) :=
  match hole? s with
  | some (_, value) => punctured <$> constantText (String.ofList value)
  | none =>
    match literal? s with
    | some l => l.interval
    | none => .ok universal

/-! ## Writing -/

/-- A bound as text: six significant digits, or an infinity. -/
def boundText (x : Float) : String :=
  if x == Scale.posInf then "oo" else if x == Scale.negInf then "-oo" else Decimal.general x

/-- A hole as text. -/
def holeText (x : Float) : String := "x != " ++ boundText x

/-- An interval as text. Where nothing but one point is excluded, only the hole is written. -/
def toText (i : Interval Float) : String :=
  if i.isUnbounded then
    match i.hole with
    | none => ""
    | some h => holeText h
  else
    let body := (if i.lowerClosed then "[" else "(") ++ boundText i.lower ++ ", " ++
      boundText i.upper ++ (if i.upperClosed then "]" else ")")
    match i.hole with
    | none => body
    | some h => body ++ " " ++ holeText h

/-! ## Laws -/

/-- A restriction that is a hole leaves the bounds infinite. -/
theorem ofText_of_hole {s value : List Char} {c : Char} {x : Float} (h : hole? s = some (c, value))
    (hx : constantText (String.ofList value) = .ok x) : ofText s = .ok (punctured x) := by
  unfold ofText
  rw [h]
  simp only [hx]
  rfl

/-- Text that is neither a hole nor an interval restricts nothing. -/
theorem ofText_of_neither {s : List Char} (h : hole? s = none) (hl : literal? s = none) :
    ofText s = .ok universal := by
  simp [ofText, h, hl]

end Graphing.Interval
