/-
  Graphing.Number.Scale

  Numbers on a line that ends in two infinities, perhaps with values beside
  the line that are no numbers. Intervals are built over any such scale.
-/
import Graphing.Number.Binary64

namespace Graphing

/-- A line of numbers: a strict order, an equality, and the two ends. A value that is no number is
neither below nor equal to anything, itself included. -/
class Scale (α : Type) where
  less : α → α → Bool
  same : α → α → Bool
  negInf : α
  posInf : α

namespace Scale

variable {α : Type} [Scale α]

/-- Below or equal. -/
def lessEq (a b : α) : Bool := less a b || same a b

/-- Whether a value is beside the line. -/
def isNone (a : α) : Bool := !same a a

/-- Whether two values are indistinguishable: equal, or both beside the line. -/
def agree (a b : α) : Bool := same a b || (isNone a && isNone b)

/-- Neither infinite nor beside the line. -/
def isFinite (a : α) : Bool := same a a && !same a negInf && !same a posInf

instance : Scale Float where
  less a b := a < b
  same a b := a == b
  negInf := Binary64.negInf
  posInf := Binary64.posInf

/-! ## Laws -/

theorem agree_of_same {a b : α} (h : same a b = true) : agree a b = true := by simp [agree, h]

end Scale
end Graphing
