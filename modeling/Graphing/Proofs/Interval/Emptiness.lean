/-
  Graphing.Proofs.Interval.Emptiness

  An interval is empty just if it contains nothing.

  Bounds may be finite or infinite, in either order, or no numbers at all; the
  hole may lie anywhere.  Between two different bounds there are more points
  than a hole can take away, so emptiness is decided by the bounds alone unless
  they are equal.  This is said of a line that is dense, such as that of the
  rational numbers with both infinities.
-/
import Graphing.Interval.Basic
import Graphing.Proofs.Number.Exact

namespace Graphing

/-! ## Lines with ends -/

/-- A line that ends on both sides, and a value beside it that is no number. -/
instance {β : Type} [LinearOrder β] [BoundedOrder β] : Scale (Option β) where
  less
    | some a, some b => decide (a < b)
    | _, _ => false
  same
    | some a, some b => decide (a = b)
    | _, _ => false
  negInf := some ⊥
  posInf := some ⊤

namespace Interval

section Line

variable {β : Type} [LinearOrder β] [BoundedOrder β] {a b x : β} {hole : Option (Option β)}
  {lowerClosed upperClosed : Bool}

theorem isHole_iff {i : Interval (Option β)} :
    i.isHole (some x) = true ↔ i.hole = some (some x) := by
  rw [isHole]
  rcases i.hole with _ | _ | h
  · simp
  · simp [Scale.same]
  · simp [Scale.same]

/-- What lies in an interval lies on the inner side of each bound, and is not the hole. -/
theorem contains_iff :
    contains ⟨some a, some b, lowerClosed, upperClosed, hole⟩ (some x) = true ↔
      (if lowerClosed then a ≤ x else a < x) ∧ (if upperClosed then x ≤ b else x < b) ∧
        hole ≠ some (some x) := by
  have habove : above ⟨some a, some b, lowerClosed, upperClosed, hole⟩ (some x) = true ↔
      if lowerClosed then a ≤ x else a < x := by
    cases lowerClosed <;> simp [above, Scale.lessEq, Scale.less, Scale.same, le_iff_lt_or_eq]
  have hbelow : below ⟨some a, some b, lowerClosed, upperClosed, hole⟩ (some x) = true ↔
      if upperClosed then x ≤ b else x < b := by
    cases upperClosed <;> simp [below, Scale.lessEq, Scale.less, Scale.same, le_iff_lt_or_eq]
  rw [contains, Bool.and_eq_true, Bool.and_eq_true, habove, hbelow, and_assoc,
    Bool.not_eq_true', ← Bool.not_eq_true, isHole_iff]

/-- A bound that is no number has nothing on its inner side. -/
theorem contains_of_none {i : Interval (Option β)} (h : i.lower = none ∨ i.upper = none) :
    i.contains (some x) = false := by
  rcases h with h | h
  · cases hclosed : i.lowerClosed <;>
      simp [contains, above, h, hclosed, Scale.lessEq, Scale.less, Scale.same]
  · cases hclosed : i.upperClosed <;>
      simp [contains, below, h, hclosed, Scale.lessEq, Scale.less, Scale.same]

theorem isEmpty_of_none {i : Interval (Option β)} (h : i.lower = none ∨ i.upper = none) :
    i.isEmpty = true := by
  rcases h with h | h <;> simp [isEmpty, h, Scale.isNone, Scale.same]

/-- Bounds in the wrong order make an interval empty, and so do equal ones if either is excluded. -/
theorem isEmpty_bounds :
    isEmpty ⟨some a, some b, lowerClosed, upperClosed, hole⟩ = true ↔
      b < a ∨ a = b ∧ (lowerClosed = false ∨ upperClosed = false ∨ hole = some (some a)) := by
  have hnumber (y : β) : Scale.isNone (some y) = false := by simp [Scale.isNone, Scale.same]
  have hless : Scale.less (some b) (some a) = decide (b < a) := rfl
  have hsame : Scale.same (some a) (some b) = decide (a = b) := rfl
  rw [isEmpty]
  simp only [hnumber, hless, hsame, Bool.or_self, Bool.false_eq_true, if_false, decide_eq_true_eq]
  split
  · rename_i hlt
    simp [hlt]
  · rename_i hle
    split
    · rename_i heq
      rw [Bool.or_eq_true, isHole_iff]
      cases lowerClosed <;> cases upperClosed <;> simp [heq]
    · rename_i hne
      simp [hle, hne]

/-- What lies in an interval lies between its bounds. -/
theorem le_of_contains
    (h : contains ⟨some a, some b, lowerClosed, upperClosed, hole⟩ (some x) = true) :
    a ≤ x ∧ x ≤ b := by
  obtain ⟨hlower, hupper, -⟩ := contains_iff.mp h
  constructor
  · cases lowerClosed
    · exact le_of_lt hlower
    · exact hlower
  · cases upperClosed
    · exact le_of_lt hupper
    · exact hupper

/-- What lies between the bounds and is not the hole lies in the interval. -/
theorem contains_of_lt (hlower : a < x) (hupper : x < b) (hhole : hole ≠ some (some x)) :
    contains ⟨some a, some b, lowerClosed, upperClosed, hole⟩ (some x) = true := by
  refine contains_iff.mpr ⟨?_, ?_, hhole⟩
  · split
    · exact hlower.le
    · exact hlower
  · split
    · exact hupper.le
    · exact hupper

/-- A bound on both sides is contained if neither side excludes it. -/
theorem contains_bound :
    contains ⟨some a, some a, lowerClosed, upperClosed, hole⟩ (some a) = true ↔
      lowerClosed = true ∧ upperClosed = true ∧ hole ≠ some (some a) := by
  rw [contains_iff]
  cases lowerClosed <;> cases upperClosed <;> simp

omit [BoundedOrder β] in
/-- Between two different points there is one that is not the hole. -/
theorem exists_between_ne [DenselyOrdered β] (h : a < b) (hole : Option (Option β)) :
    ∃ x, a < x ∧ x < b ∧ hole ≠ some (some x) := by
  obtain ⟨x, hax, hxb⟩ := exists_between h
  obtain ⟨y, hxy, hyb⟩ := exists_between hxb
  by_cases hx : hole = some (some x)
  · refine ⟨y, hax.trans hxy, hyb, fun hy => ?_⟩
    rw [hx, Option.some_inj, Option.some_inj] at hy
    exact hxy.ne hy
  · exact ⟨x, hax, hxb, hx⟩

theorem isEmpty_iff_of_dense [DenselyOrdered β] {i : Interval (Option β)} :
    i.isEmpty = true ↔ ∀ x : β, i.contains (some x) = false := by
  obtain ⟨lower, upper, lowerClosed, upperClosed, hole⟩ := i
  cases lower with
  | none => exact iff_of_true (isEmpty_of_none (.inl rfl)) fun x => contains_of_none (.inl rfl)
  | some a =>
    cases upper with
    | none => exact iff_of_true (isEmpty_of_none (.inr rfl)) fun x => contains_of_none (.inr rfl)
    | some b =>
      rw [isEmpty_bounds]
      rcases lt_trichotomy a b with hlt | rfl | hgt
      · obtain ⟨x, hax, hxb, hhole⟩ := exists_between_ne hlt hole
        refine iff_of_false (fun h => h.elim hlt.not_gt fun h => hlt.ne h.1) fun hall => ?_
        exact Bool.false_ne_true ((hall x).symm.trans (contains_of_lt hax hxb hhole))
      · -- the bound is the only point that can be contained
        have honly : (∀ x, contains ⟨some a, some a, lowerClosed, upperClosed, hole⟩ (some x) = false) ↔
            ¬contains ⟨some a, some a, lowerClosed, upperClosed, hole⟩ (some a) = true := by
          refine ⟨fun hall => Bool.eq_false_iff.mp (hall a), fun ha x => Bool.eq_false_iff.mpr ?_⟩
          intro hx
          obtain ⟨hle, hge⟩ := le_of_contains hx
          rw [le_antisymm hge hle] at hx
          exact ha hx
        rw [honly, contains_bound]
        cases lowerClosed <;> cases upperClosed <;> simp
      · refine iff_of_true (.inl hgt) fun x => Bool.eq_false_iff.mpr fun hx => ?_
        obtain ⟨hle, hge⟩ := le_of_contains hx
        exact absurd (hle.trans hge) hgt.not_ge

end Line

/-! ## Doubles and what they stand for -/

open Binary64 (RationalLine exact)

theorem less_exact (x y : Float) : Scale.less (exact x) (exact y) = Scale.less x y := by
  refine Eq.trans ?_ (Binary64.decide_lt_eq x y).symm
  cases exact x with
  | none => rfl
  | some a =>
    cases exact y with
    | none => rfl
    | some b =>
      have hlt : (some (compare a b) == some Ordering.lt) = decide (a < b) := by
        rw [Bool.eq_iff_iff, beq_iff_eq, Option.some_inj, compare_lt_iff_lt, decide_eq_true_eq]
      exact hlt.symm

theorem same_exact (x y : Float) : Scale.same (exact x) (exact y) = Scale.same x y := by
  refine Eq.trans ?_ (Binary64.beq_eq x y).symm
  cases exact x with
  | none => rfl
  | some a =>
    cases exact y with
    | none => rfl
    | some b =>
      have heq : (some (compare a b) == some Ordering.eq) = decide (a = b) := by
        rw [Bool.eq_iff_iff, beq_iff_eq, Option.some_inj, compare_eq_iff_eq, decide_eq_true_eq]
      exact heq.symm

/-- The interval with the exact values of its bounds and of its hole. -/
def exactly (i : Interval Float) : Interval (Option RationalLine) :=
  ⟨exact i.lower, exact i.upper, i.lowerClosed, i.upperClosed, i.hole.map exact⟩

theorem isHole_exactly (i : Interval Float) (x : Float) :
    i.exactly.isHole (exact x) = i.isHole x := by
  rw [isHole, isHole, exactly]
  cases i.hole with
  | none => rfl
  | some h => exact same_exact h x

theorem contains_exactly (i : Interval Float) (x : Float) :
    i.exactly.contains (exact x) = i.contains x := by
  have habove : i.exactly.above (exact x) = i.above x := by
    simp only [above, exactly, Scale.lessEq, less_exact, same_exact]
  have hbelow : i.exactly.below (exact x) = i.below x := by
    simp only [below, exactly, Scale.lessEq, less_exact, same_exact]
  rw [contains, contains, habove, hbelow, isHole_exactly]

theorem isEmpty_exactly (i : Interval Float) : i.exactly.isEmpty = i.isEmpty := by
  have hhole : i.exactly.isHole i.exactly.lower = i.isHole i.lower := isHole_exactly i i.lower
  rw [isEmpty, isEmpty, hhole]
  simp only [exactly, Scale.isNone, less_exact, same_exact]
  rfl

/-! ## Emptiness -/

/-- An interval of rational numbers, with any bounds, brackets and hole, is empty just if it
contains no rational number and no infinity.  An interval of doubles is empty just if the one with
the exact bounds is, and contains the doubles whose exact values that one contains. -/
theorem isEmpty_iff_contains_nothing :
    (∀ i : Interval (Option RationalLine),
      i.isEmpty = true ↔ ∀ x : RationalLine, i.contains (some x) = false) ∧
    ∀ i : Interval Float, i.isEmpty = i.exactly.isEmpty ∧
      ∀ x, i.contains x = i.exactly.contains (exact x) :=
  ⟨fun _ => isEmpty_iff_of_dense,
    fun i => ⟨(isEmpty_exactly i).symm, fun x => (contains_exactly i x).symm⟩⟩

/-- No double lies between zero and the least positive one, but rational numbers do. -/
example : (⟨0, Float.ofBits 1, false, false, none⟩ : Interval Float).isEmpty = false := by
  decide +kernel

end Interval
end Graphing
