/-
  Graphing.Interval.Basic

  Intervals that a relation can be restricted to: two bounds, open or closed,
  and perhaps one excluded point. An interval whose bounds are in the wrong
  order is empty.
-/
import Graphing.Number.Scale

namespace Graphing

/-- An interval with at most one hole. -/
structure Interval (α : Type) where
  lower : α
  upper : α
  lowerClosed : Bool := false
  upperClosed : Bool := false
  hole : Option α := none
  deriving Repr, Inhabited

namespace Interval

variable {α : Type} [Scale α]

open Scale (less lessEq same isNone agree negInf posInf)

/-! ## Construction -/

/-- The whole line between the infinities. -/
def universal : Interval α := ⟨negInf, posInf, false, false, none⟩

/-- The whole line without one point. -/
def punctured (hole : α) : Interval α := ⟨negInf, posInf, false, false, some hole⟩

/-- The same interval with another hole or none. -/
def withHole (i : Interval α) (hole : Option α) : Interval α := { i with hole }

/-! ## Membership -/

/-- Whether a value is on the inner side of the lower bound. -/
def above (i : Interval α) (x : α) : Bool :=
  if i.lowerClosed then lessEq i.lower x else less i.lower x

/-- Whether a value is on the inner side of the upper bound. -/
def below (i : Interval α) (x : α) : Bool :=
  if i.upperClosed then lessEq x i.upper else less x i.upper

/-- Whether a value is the hole. -/
def isHole (i : Interval α) (x : α) : Bool := i.hole.any fun h => same h x

/-- Whether a value lies in the interval. -/
def contains (i : Interval α) (x : α) : Bool := i.above x && i.below x && !i.isHole x

/-- Whether no value lies in the interval. -/
def isEmpty (i : Interval α) : Bool :=
  if isNone i.lower || isNone i.upper then true
  else if less i.upper i.lower then true
  else if same i.lower i.upper then !(i.lowerClosed && i.upperClosed) || i.isHole i.lower
  else false

/-- Whether both bounds are infinite, each at its own end. -/
def isUnbounded (i : Interval α) : Bool := same i.lower negInf && same i.upper posInf

/-- Whether nothing is excluded but perhaps the infinities. -/
def isUniversal (i : Interval α) : Bool := i.isUnbounded && i.hole.isNone

/-- The bounds, with the given ones in place of infinite ones. -/
def clamp (i : Interval α) (lo hi : α) : α × α :=
  (if same i.lower negInf then lo else i.lower, if same i.upper posInf then hi else i.upper)

/-- Whether two intervals have the same bounds, brackets and hole. -/
def agrees (i j : Interval α) : Bool :=
  agree i.lower j.lower && agree i.upper j.upper && i.lowerClosed == j.lowerClosed &&
  i.upperClosed == j.upperClosed &&
  match i.hole, j.hole with
  | none, none => true
  | some a, some b => agree a b
  | _, _ => false

/-! ## Ranges without an interval -/

/-- Whether a value lies between two others, which count themselves if `closed`. -/
def isBetween (x lower upper : α) (closed : Bool) : Bool :=
  contains ⟨lower, upper, closed, closed, none⟩ x

/-- A number that is finite, nothing otherwise. -/
def finite? (x : Option α) : Option α := x.filter Scale.isFinite

end Interval
end Graphing
