/-
  Graphing.Proofs.Relation.Segments

  The segments of a relation, as they are classified and as they are read.

  Drawing classifies a segment first; evaluating at a point reads it without.
  Both look for a point and for an excluded value before all else, and so a
  segment that is classified as one of these, or as a function that can be
  compiled, is read as what it is classified as (`read_of_point`,
  `read_of_excluded`, `read_of_function`).
-/
import Graphing.Plot.Drawing
import Graphing.Proofs.Except
import Graphing.Relation.Classification
import Graphing.Relation.Value
import Mathlib.Data.List.DropRight

namespace Graphing

/-! ## Blanks around texts -/

namespace Text

theorem stripLeft_of_head {s : List Char} (h : ∀ c ∈ s.head?, isBlank c = false) :
    stripLeft s = s := by
  cases s with
  | nil => rfl
  | cons c cs =>
    have hc : isBlank c = false := h c rfl
    rw [stripLeft, List.dropWhile_cons_of_neg (by rw [hc]; decide)]

theorem strip_strip (s : List Char) : strip (strip s) = strip s := by
  have hhead : ∀ c ∈ (strip s).head?, isBlank c = false := by
    intro c hc
    -- the text without blanks at its end begins as the text with them
    obtain ⟨rest, hrest⟩ := List.rdropWhile_prefix isBlank (l := stripLeft s)
    have hleft : (s.dropWhile isBlank).head? = some c := by
      rw [← stripLeft, ← hrest, List.head?_append]
      exact congrArg (Option.or · rest.head?) hc
    have hnot := List.head?_dropWhile_not isBlank s
    rw [hleft] at hnot
    exact hnot
  rw [strip, stripLeft_of_head hhead]
  exact List.rdropWhile_idempotent isBlank (stripLeft s)

end Text

namespace Relation

open Text (lower strip strip_strip)

theorem strip_of_mem_pieces {s p : List Char} (h : p ∈ pieces s) : strip p = p := by
  obtain ⟨q, -, rfl⟩ := List.mem_map.mp (List.mem_filter.mp h).1
  exact strip_strip q

/-! ## Classification -/

theorem classifyDeclared?_family {target argument : String} {names : List String}
    {k : Classification} (h : classifyDeclared? target argument names = some k) :
    k.family ≠ .point ∧ k.family ≠ .asymptote := by
  unfold classifyDeclared? at h
  grind

theorem classifyTarget?_family {target main : String} {names : List String} {k : Classification}
    (h : classifyTarget? target main names = some k) :
    k.family ≠ .point ∧ k.family ≠ .asymptote := by
  unfold classifyTarget? at h
  grind

/-- With variables to tell it by, a relation is neither a point nor an excluded value. -/
theorem classifyWith_family (text : List Char) (main : String) (names : List String) :
    (classifyWith text main names).family ≠ .point ∧
      (classifyWith text main names).family ≠ .asymptote := by
  unfold classifyWith
  split
  · split <;> exact ⟨nofun, nofun⟩
  · dsimp only
    split
    · rename_i k hk
      split at hk
      · exact classifyDeclared?_family hk
      · split at hk
        · exact classifyTarget?_family hk
        · cases hk
    · split <;> exact ⟨nofun, nofun⟩

/-- What a segment is classified as tells whether it is a point or an excluded value. -/
theorem classify_family (s : List Char) (main : String) :
    ((classify s main).family = .point → (Interval.point? (strip s)).isSome) ∧
    ((classify s main).family = .asymptote →
      Interval.point? (strip s) = none ∧ (Interval.hole? (strip s)).isSome) ∧
    ((classify s main).family ≠ .point → (classify s main).family ≠ .asymptote →
      Interval.point? (strip s) = none ∧ Interval.hole? (strip s) = none) := by
  unfold classify
  dsimp only
  split
  · rename_i hpoint
    exact ⟨fun _ => hpoint, nofun, fun h => absurd rfl h⟩
  · rename_i hpoint
    have hnone : Interval.point? (strip s) = none := by
      rwa [Option.not_isSome_iff_eq_none] at hpoint
    split
    · rename_i c value hhole
      rw [hhole]
      exact ⟨nofun, fun _ => ⟨hnone, rfl⟩, fun _ h => absurd rfl h⟩
    · rename_i hhole
      have hother := fun names => classifyWith_family (unrestricted (strip s)) main names
      split
      · exact ⟨nofun, nofun, fun _ _ => ⟨hnone, hhole⟩⟩
      · rename_i names _
        exact ⟨fun h => absurd h (hother names).1, fun h => absurd h (hother names).2,
          fun _ _ => ⟨hnone, hhole⟩⟩

/-! ## Segments as they are read -/

variable {p : List Char} {x : Float}

/-- The restriction of an excluded value is all of its text. -/
theorem restriction_of_hole (hstrip : strip p = p) (hhole : (Interval.hole? p).isSome) :
    restriction p = p := by
  have hscan : (Interval.scanHole p).isSome := by
    rw [Interval.hole?, hstrip, Option.isSome_map] at hhole
    exact hhole
  have hfind : findRestriction? p = some ([], p) := by
    unfold findRestriction? markedRestriction?
    cases p with
    | nil => cases hscan
    | cons c cs =>
      rw [splitFirst, if_pos]
      · rfl
      · rw [isRestriction, hscan, Bool.or_true]
        rfl
  rw [restriction, hfind]
  exact hstrip

theorem read_of_point (hpoint : (Interval.point? p).isSome) : Segment.read p x = .ok .none := by
  rw [Segment.read, if_pos hpoint]
  rfl

/-- An excluded value is read as a hole where it is, and as nothing anywhere else. -/
theorem read_of_excluded (hstrip : strip p = p) (hpoint : Interval.point? p = none)
    (hhole : (Interval.hole? p).isSome) {v : Float} (hv : Interval.textHole p = .ok v) :
    Segment.read p x = .ok (if v == x then .hole else .none) := by
  obtain ⟨⟨c, value⟩, hsome⟩ := Option.isSome_iff_exists.mp hhole
  have hvalue : constantText (String.ofList value) = .ok v := by
    rw [Interval.textHole, hsome] at hv
    exact hv
  have hinterval : Interval.ofText (restriction p) = .ok (.punctured v) := by
    rw [restriction_of_hole hstrip hhole]
    exact Interval.ofText_of_hole hsome hvalue
  have hat : (Interval.punctured v).isHole x = (v == x) := rfl
  rw [Segment.read, hpoint, splitRestriction, hinterval]
  show (if (Interval.punctured v).isHole x then _ else _) = _
  rw [hat, hhole, Bool.true_or]
  cases v == x <;> rfl

/-- What a restricted formula is read from. -/
theorem ofText?_eq_ok {name : String} {r : Restricted} (h : Restricted.ofText? p name = .ok r) :
    CompiledFormula.ofText (String.ofList (assignedSide (unrestricted p))) [name] = .ok r.function ∧
      Interval.ofText (restriction p) = .ok r.interval := by
  obtain ⟨f, hf, h⟩ := Except.bind_eq_ok.mp h
  obtain ⟨i, hi, h⟩ := Except.bind_eq_ok.mp h
  cases h
  exact ⟨Except.eq_ok_of_mapError hf, Except.eq_ok_of_mapError hi⟩

/-- No formula is empty. -/
theorem unrestricted_ne_nil {name : String} {f : CompiledFormula}
    (h : CompiledFormula.ofText (String.ofList (assignedSide (unrestricted p))) [name] = .ok f) :
    unrestricted p ≠ [] := by
  intro hnil
  rw [hnil] at h
  have hempty : ∀ names, (CompiledFormula.ofText (String.ofList (assignedSide [])) names).toOption = none := by
    intro names
    rfl
  have := hempty [name]
  rw [h] at this
  cases this

/-- A function is read as its formula, but for the value that it excludes itself. -/
theorem read_of_function (hpoint : Interval.point? p = none) (hhole : Interval.hole? p = none)
    {name : String} {r : Restricted} (hr : Restricted.ofText? p name = .ok r)
    (hx : r.interval.isHole x = false) :
    Segment.read p x = .ok (.formula (unrestricted p) r.interval) := by
  obtain ⟨hformula, hinterval⟩ := ofText?_eq_ok hr
  have hne : (unrestricted p).isEmpty = false :=
    Bool.eq_false_iff.mpr fun h => unrestricted_ne_nil hformula (List.isEmpty_iff.mp h)
  rw [Segment.read, hpoint, splitRestriction, hinterval, hhole]
  show (if r.interval.isHole x then _ else _) = _
  rw [hx, hne, Bool.and_false]
  rfl

end Relation
end Graphing
