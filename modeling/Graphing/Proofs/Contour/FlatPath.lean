/-
  Graphing.Proofs.Contour.FlatPath

  Polylines and the flat path are two forms of the same.  A path falls apart
  where a point does not continue the one before, whatever the lengths of the
  parts; the only things that a path does not show are polylines without points,
  and the only thing that polylines do not show is a first point that is marked
  as continuing (`polylines_flatten_iff`).
-/
import Graphing.Contour.Path

namespace Graphing.Contour

variable {α : Type} {current : List (Point α)} {path : List (PathPoint α)}

/-! ## The open polyline -/

theorem polylinesFrom_of_continues {p : PathPoint α} (hp : p.continues = true)
    (current : List (Point α)) (rest : List (PathPoint α)) :
    polylinesFrom current (p :: rest) = polylinesFrom (p.point :: current) rest := by
  rw [polylinesFrom, hp]
  rfl

theorem polylinesFrom_of_starts {p : PathPoint α} (hp : p.continues = false)
    (hcurrent : current ≠ []) (rest : List (PathPoint α)) :
    polylinesFrom current (p :: rest) = current.reverse :: polylinesFrom [p.point] rest := by
  rw [polylinesFrom, hp, List.isEmpty_eq_false_iff.mpr hcurrent]
  rfl

/-- The first point opens a polyline, whatever its mark. -/
theorem polylines_cons (p : PathPoint α) (rest : List (PathPoint α)) :
    polylines (p :: rest) = polylinesFrom [p.point] rest := by
  rw [polylines, polylinesFrom, List.isEmpty_nil, Bool.not_true, Bool.and_false]
  rfl

/-- A start, or the end of the path, closes the polyline that is open. -/
theorem polylinesFrom_closed (hcurrent : current ≠ [])
    (hpath : ∀ p ∈ path.head?, p.continues = false) :
    polylinesFrom current path = current.reverse :: polylines path := by
  cases path with
  | nil =>
    rw [polylinesFrom, List.isEmpty_eq_false_iff.mpr hcurrent]
    rfl
  | cons p rest => rw [polylinesFrom_of_starts (hpath p rfl) hcurrent, polylines_cons]

/-- Points that continue are added to the polyline that is open. -/
theorem polylinesFrom_append (line current : List (Point α)) (path : List (PathPoint α)) :
    polylinesFrom current (line.map (·.onPath true) ++ path) =
      polylinesFrom (line.reverse ++ current) path := by
  induction line generalizing current with
  | nil => rfl
  | cons p line ih =>
    have hpoint : (p.onPath true).point = p := rfl
    rw [List.map_cons, List.cons_append, polylinesFrom_of_continues rfl, ih, hpoint,
      List.reverse_cons, List.append_assoc, List.singleton_append]

/-! ## There and back -/

theorem flatten_starts (lines : List (List (Point α))) :
    ∀ p ∈ (flatten lines).head?, p.continues = false := by
  induction lines with
  | nil => exact nofun
  | cons line lines ih =>
    cases line with
    | nil => exact ih
    | cons p line =>
      rintro _ ⟨⟩
      rfl

/-- Of polylines that went through a path all come back but those without points. -/
theorem polylines_flatten (lines : List (List (Point α))) :
    polylines (flatten lines) = lines.filter fun line => !line.isEmpty := by
  induction lines with
  | nil => rfl
  | cons line lines ih =>
    cases line with
    | nil => exact ih
    | cons p line =>
      have hne : line.reverse ++ [p] ≠ [] := List.append_ne_nil_of_right_ne_nil _ (by simp)
      calc polylines (flatten ((p :: line) :: lines))
          = polylinesFrom [p] (line.map (·.onPath true) ++ flatten lines) := polylines_cons _ _
        _ = polylinesFrom (line.reverse ++ [p]) (flatten lines) := polylinesFrom_append line [p] _
        _ = (line.reverse ++ [p]).reverse :: polylines (flatten lines) :=
          polylinesFrom_closed hne (flatten_starts lines)
        _ = (p :: line) :: lines.filter fun line => !line.isEmpty := by simp [ih]

/-- Putting together again what is left of a path gives the open polyline and what was left. -/
theorem flatten_polylinesFrom (hcurrent : current ≠ []) (path : List (PathPoint α)) :
    flatten (polylinesFrom current path) = pathOf current.reverse ++ path := by
  induction path generalizing current with
  | nil =>
    rw [polylinesFrom, List.isEmpty_eq_false_iff.mpr hcurrent]
    rfl
  | cons p rest ih =>
    cases hp : p.continues with
    | false =>
      have hstart : pathOf [p.point] = [p] := by
        rw [pathOf, ← hp]
        rfl
      rw [polylinesFrom_of_starts hp hcurrent, flatten_cons, ih (List.cons_ne_nil _ _),
        List.reverse_singleton, hstart, List.singleton_append]
    | true =>
      obtain ⟨first, line, hline⟩ :=
        List.exists_cons_of_ne_nil (mt List.reverse_eq_nil_iff.mp hcurrent)
      have hlast : p.point.onPath true = p := by
        rw [← hp]
        rfl
      rw [polylinesFrom_of_continues hp, ih (List.cons_ne_nil _ _), List.reverse_cons, hline,
        List.cons_append, pathOf, pathOf, List.map_append, List.map_singleton, hlast]
      simp

/-- A path that was taken apart is put together again, with its first point as a start. -/
theorem flatten_polylines_cons (p : PathPoint α) (rest : List (PathPoint α)) :
    flatten (polylines (p :: rest)) = p.point.onPath false :: rest := by
  rw [polylines_cons, flatten_polylinesFrom (List.cons_ne_nil _ _)]
  rfl

/-- Polylines come back from their path just if each has a point, and a path comes back from its
polylines just if it begins with a start or is empty. -/
theorem polylines_flatten_iff (lines : List (List (Point α))) (path : List (PathPoint α)) :
    (polylines (flatten lines) = lines ↔ ∀ line ∈ lines, line ≠ []) ∧
      (flatten (polylines path) = path ↔ ∀ p ∈ path.head?, p.continues = false) := by
  constructor
  · rw [polylines_flatten, List.filter_eq_self]
    exact forall₂_congr fun line _ => by cases line <;> simp
  · constructor
    · intro h
      rw [← h]
      exact flatten_starts _
    · intro h
      cases path with
      | nil => rfl
      | cons p rest =>
        rw [flatten_polylines_cons, ← h p rfl]
        rfl

end Graphing.Contour
