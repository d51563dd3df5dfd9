/-
  Graphing.Evaluation.Tensor

  Numbers and arrays of numbers with any number of axes, and the shape that
  several of them have in common. An axis of length one is repeated to fit.
-/

namespace Graphing

/-- Values in row-major order under a shape; the empty shape holds a single value. -/
structure Tensor (α : Type) where
  shape : List Nat
  data : Array α
  deriving Repr, Inhabited

namespace Tensor

variable {α β : Type}

/-! ## Shapes -/

/-- The number of values under a shape. -/
def volume (shape : List Nat) : Nat := shape.foldl (· * ·) 1

/-- The common length of two axes. -/
def commonAxis (m n : Nat) : Option Nat :=
  if m = n then some m else if m = 1 then some n else if n = 1 then some m else none

/-- The common shape of two reversed shapes, last axis first. -/
def commonReversed : List Nat → List Nat → Option (List Nat)
  | [], ns => some ns
  | ms, [] => some ms
  | m :: ms, n :: ns => do
    let k ← commonAxis m n
    let rest ← commonReversed ms ns
    return k :: rest

/-- The common shape of two shapes; shapes are aligned at their last axes. -/
def commonShape? (ms ns : List Nat) : Option (List Nat) :=
  (commonReversed ms.reverse ns.reverse).map List.reverse

/-- The common shape of several shapes. -/
def commonShapes? (shapes : List (List Nat)) : Option (List Nat) :=
  shapes.foldlM commonShape? []

/-! ## Indices -/

/-- The digits of a flat index under a reversed shape, last axis first. -/
def digits : List Nat → Nat → List Nat
  | [], _ => []
  | n :: ns, i => i % n :: digits ns (i / n)

/-- The flat index under a reversed shape; an axis of length one ignores its digit. -/
def flatten : List Nat → List Nat → Nat
  | n :: ns, d :: ds => (if n = 1 then 0 else d) + n * flatten ns ds
  | _, _ => 0

/-- The place in a tensor of shape `own` of the flat index `i` under the common shape. -/
def project (common own : List Nat) (i : Nat) : Nat :=
  flatten own.reverse (digits common.reverse i)

/-! ## Tensors -/

/-- A single value. -/
def scalar (x : α) : Tensor α := ⟨[], #[x]⟩

/-- A list of values along one axis. -/
def vector (xs : Array α) : Tensor α := ⟨[xs.size], xs⟩

/-- The value that a tensor has at a flat index of the common shape. -/
def at? (t : Tensor α) (common : List Nat) (i : Nat) : Option α :=
  t.data[project common t.shape i]?

/-- Apply a function to every value. -/
def map (f : α → β) (t : Tensor α) : Tensor β := ⟨t.shape, t.data.map f⟩

/-- Build a tensor from a function of the flat index. -/
def generate (shape : List Nat) (f : Nat → α) : Tensor α :=
  ⟨shape, (Array.range (volume shape)).map f⟩

/-- The single value of a tensor without axes. -/
def toScalar? (t : Tensor α) : Option α :=
  if t.shape.isEmpty then t.data[0]? else none

/-- Stack tensors of one shape along a new first axis. -/
def stack? (ts : List (Tensor α)) : Option (Tensor α) :=
  match ts with
  | [] => some ⟨[0], #[]⟩
  | t :: _ =>
    if ts.all fun u => u.shape == t.shape then
      some ⟨ts.length :: t.shape, (ts.map (·.data)).foldl (· ++ ·) #[]⟩
    else none

/-! ## Laws -/

theorem commonReversed_nil (ns : List Nat) : commonReversed [] ns = some ns := by
  unfold commonReversed
  rfl

theorem size_generate (shape : List Nat) (f : Nat → α) :
    (generate shape f).data.size = volume shape := by simp [generate]

theorem data_generate (shape : List Nat) (f : Nat → α) (i : Nat) (h : i < volume shape) :
    (generate shape f).data[i]? = some (f i) := by simp [generate, h]

end Tensor
end Graphing
