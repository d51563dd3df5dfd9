/-
  Graphing.Contour.Coordinate

  The arithmetic that contours are traced with. Points and sampled values have
  types of their own: a sampled value can be undefined, a coordinate is a
  number that can be added, scaled and put into a square of a raster.
-/
import Graphing.Number.Binary64

namespace Graphing.Contour

/-! ## Coordinates -/

/-- Why a coordinate lies in no square of a raster. -/
inductive RasterFault where
  /-- The coordinate is no number. -/
  | undefined
  /-- The coordinate is infinite, or too large for the width of the squares. -/
  | unbounded
  deriving Repr, DecidableEq

/-- Numbers that points are made of. -/
class Coordinate (α : Type) where
  addition : Add α := by infer_instance
  subtraction : Sub α := by infer_instance
  multiplication : Mul α := by infer_instance
  division : Div α := by infer_instance
  ofNat : Nat → α
  half : α
  isZero : α → Bool
  isFinite : α → Bool
  less : α → α → Bool
  lessEq : α → α → Bool
  floor? : α → Except RasterFault Int

section Arithmetic

variable {α : Type} [Coordinate α]

-- types with an arithmetic of their own keep it: these come last
instance (priority := low) coordinateAdd : Add α := Coordinate.addition

instance (priority := low) coordinateSub : Sub α := Coordinate.subtraction

instance (priority := low) coordinateMul : Mul α := Coordinate.multiplication

instance (priority := low) coordinateDiv : Div α := Coordinate.division

end Arithmetic

/-- The largest integer up to a double. -/
def floorOfFloat (x : Float) : Except RasterFault Int :=
  match Binary64.parts x with
  | .nan => .error .undefined
  | .infinite _ => .error .unbounded
  | .finite neg m e =>
    let s := Rounding.scale 2 e m 1
    let n : Int := if neg then -(s.1 : Int) else s.1
    .ok (n / (s.2 : Int))

instance : Coordinate Float where
  ofNat n := Binary64.ofRat n
  half := 0.5
  isZero x := x == 0
  isFinite x := x.isFinite
  less a b := a < b
  lessEq a b := a ≤ b
  floor? := floorOfFloat

/-- A point of the plane. -/
structure Point (α : Type) where
  x : α
  y : α
  deriving Repr, DecidableEq, Inhabited

variable {α : Type} [Coordinate α]

/-- Whether two numbers differ by at most a tolerance. -/
def near (tolerance a b : α) : Bool :=
  Coordinate.lessEq (a - b) tolerance && Coordinate.lessEq (b - a) tolerance

/-- Whether two points are near each other along both axes. -/
def Point.near (tolerance : α) (p q : Point α) : Bool :=
  Contour.near tolerance p.x q.x && Contour.near tolerance p.y q.y

/-- The middle between two numbers. -/
def middle (a b : α) : α := Coordinate.half * (a + b)

/-- The `k`-th of `n + 1` equally spaced numbers from `lo` to `hi`; the last one is exactly `hi`. -/
def spread (lo hi : α) (n k : Nat) : α :=
  if k = n then hi
  else
    let step := (hi - lo) / Coordinate.ofNat n
    if Coordinate.isZero step then
      Coordinate.ofNat k / Coordinate.ofNat n * (hi - lo) + lo
    else Coordinate.ofNat k * step + lo

/-! ## Sampled values -/

/-- Values that a function of the plane is sampled with. -/
class Reading (β : Type) (α : outParam Type) where
  undefined : β
  isFinite : β → Bool
  isPositive : β → Bool
  isNegative : β → Bool
  isZero : β → Bool
  /-- How far along an edge the value is zero, if it changes evenly between the given ends; one half
  between equal values. -/
  crossing : β → β → α
  /-- Whether the mean of four values is positive. -/
  isPositiveMean : β → β → β → β → Bool

instance : Reading Float Float where
  undefined := Binary64.nan
  isFinite x := x.isFinite
  isPositive x := x > 0
  isNegative x := x < 0
  isZero x := x == 0
  crossing a b :=
    let d := a - b
    if d != 0 then a / d else 0.5
  isPositiveMean a b c d := 0.25 * (a + b + c + d) > 0

/-! ## Laws -/

/-- The last of the equally spaced numbers is the upper end. -/
theorem spread_last (lo hi : α) (n : Nat) : spread lo hi n n = hi := by simp [spread]

end Graphing.Contour
