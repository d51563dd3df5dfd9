/-
  Graphing.Evaluation.Memo

  A memory for results that are costly to build. It holds a bounded number of
  entries, most recently used first, and drops the last one when it is full.
-/

namespace Graphing

/-- Remembered results by key, with counts of the look-ups that found one and that did not. -/
structure Memo (κ β : Type) where
  capacity : Nat
  entries : List (κ × β) := []
  hits : Nat := 0
  misses : Nat := 0

namespace Memo

variable {κ β ε : Type} [BEq κ]

/-! ## Operations -/

/-- A memory without entries. -/
def empty (capacity : Nat) : Memo κ β := { capacity }

/-- The number of entries. -/
def size (m : Memo κ β) : Nat := m.entries.length

/-- The result of a key. -/
def find? (m : Memo κ β) (key : κ) : Option β :=
  (m.entries.find? fun e => e.1 == key).map Prod.snd

/-- Count a look-up that found the key, which becomes the most recently used one. -/
def touch (m : Memo κ β) (key : κ) (result : β) : Memo κ β :=
  { m with
    entries := (key, result) :: m.entries.filter fun e => !(e.1 == key)
    hits := m.hits + 1 }

/-- Count a look-up that found nothing. -/
def miss (m : Memo κ β) : Memo κ β := { m with misses := m.misses + 1 }

/-- Put a new result in front. -/
def insert (m : Memo κ β) (key : κ) (result : β) : Memo κ β :=
  { m with entries := ((key, result) :: m.entries).take m.capacity }

/-- The result of a key, built and remembered if it is new. A failure to build is not remembered. -/
def get (m : Memo κ β) (key : κ) (build : Except ε β) : Except ε β × Memo κ β :=
  match m.find? key with
  | some result => (.ok result, m.touch key result)
  | none =>
    match build with
    | .ok result => (.ok result, m.miss.insert key result)
    | .error e => (.error e, m.miss)

/-- Forget all entries and counts. -/
def clear (m : Memo κ β) : Memo κ β := empty m.capacity

/-! ## Laws -/

/-- Dropping the entry of a key that occurs leaves fewer entries. -/
theorem length_filter_lt {entries : List (κ × β)} {key : κ}
    (h : (entries.find? fun e => e.1 == key).isSome = true) :
    (entries.filter fun e => !(e.1 == key)).length < entries.length := by
  rw [List.find?_isSome] at h
  obtain ⟨e, he, hk⟩ := h
  have hnot : ¬ (!(e.1 == key)) = true := by simp [hk]
  exact List.length_filter_lt_length_iff_exists.2 ⟨e, he, hnot⟩

end Memo
end Graphing
