/-
  Graphing.Proofs.Plot.Tending

  No handle is lost while a piece is drawn with.

  Whatever a family does to draw with a piece, each handle that it makes goes
  to a spot of the piece, and a handle that leaves the piece is removed
  (`Tends`).  This holds of each single move, and so of everything that a
  family does, up to where it fails (`Uses.tends`), for any piece, whatever it
  shows.
-/
import Graphing.Proofs.Plot.Uses
import Graphing.Proofs.Surface.Live

open Graphing.Relation (Family)

namespace Graphing.Canvas

variable {c₀ c c' : Canvas} {n : PieceId}

/-! ## Tended pieces -/

/-- A handle that is live belongs to the piece, or it was live before and did not belong to the piece
then. -/
structure Tends (n : PieceId) (c₀ c : Canvas) : Prop where
  live : ∀ k, c.surface.Live k →
    (∃ a, c.spot? n a = some k) ∨ (c₀.surface.Live k ∧ ∀ a, c₀.spot? n a ≠ some k)
  tidy : ∀ base first, c₀.surface.Tidy base first → c.surface.Tidy base first

theorem Tends.refl (n : PieceId) (c : Canvas) : Tends n c c where
  live k hk := by
    by_cases hown : ∃ a, c.spot? n a = some k
    · exact .inl hown
    · exact .inr ⟨hk, fun a ha => hown ⟨a, ha⟩⟩
  tidy _ _ ht := ht

/-- A piece in use is tended. -/
structure Tended (c₀ c : Canvas) (n : PieceId) : Prop extends Tends n c₀ c where
  piece : ∃ p, c.piece? n = some p

namespace Tended

/-- A change of the surface and of the piece. Handles that are made go to a spot of the piece, and
handles that stay live stay with the piece. -/
theorem step (h : Tended c₀ c n) {s : Surface} {f : Piece → Piece} {made : HandleId → Prop}
    (hs : Surface.Adds made c.surface s)
    (hmade : ∀ p, c.piece? n = some p → ∀ k, made k → ∃ a : Spot, a.get (f p) = some k)
    (hkept : ∀ p, c.piece? n = some p → ∀ (a : Spot) k, a.get p = some k → s.Live k →
      ∃ b : Spot, b.get (f p) = some k) :
    Tended c₀ (({ c with surface := s }).modify n f) n := by
  obtain ⟨p, hp⟩ := h.piece
  have hpiece := piece?_modify_self (c := { c with surface := s }) hp f
  refine ⟨⟨fun k hk => ?_, fun base first ht => hs.tidy _ _ (h.tidy _ _ ht)⟩, ⟨f p, hpiece⟩⟩
  have hspot := spot?_of_piece hpiece
  rcases hs.live k hk with hold | hnew
  · rcases h.live k hold with ⟨a, ha⟩ | hother
    · rw [spot?_of_piece hp] at ha
      obtain ⟨b, hb⟩ := hkept p hp a k ha hk
      exact .inl ⟨b, (hspot b).trans hb⟩
    · exact .inr hother
  · obtain ⟨a, ha⟩ := hmade p hp k hnew
    exact .inl ⟨a, (hspot a).trans ha⟩

/-- A change of the surface that makes no handle. -/
theorem onSurface (h : Tended c₀ c n) {g : Surface → Surface}
    (hg : Surface.Adds (fun _ => False) c.surface (g c.surface)) :
    Tended c₀ (c.onSurface g) n where
  piece := h.piece
  live k hk := h.live k ((hg.live k hk).resolve_right id)
  tidy base first ht := hg.tidy base first (h.tidy base first ht)

/-- A change of a piece that keeps its handles. -/
theorem modify (h : Tended c₀ c n) {f : Piece → Piece} (hf : ∀ p (a : Spot), a.get (f p) = a.get p) :
    Tended c₀ (c.modify n f) n := by
  have hs : Surface.Adds (fun _ => False) c.surface c.surface := .refl _
  exact h.step hs (fun _ _ _ hk => hk.elim) fun p _ a _ hk _ => ⟨a, (hf p a).trans hk⟩

/-- Contours that leave the piece are removed. -/
theorem removeContours (h : Tended c₀ c n) : Tended c₀ (c.removeContours n) n := by
  have hs : Surface.Adds (fun _ => False) c.surface
      ((((c.piece? n).map (·.contours)).getD []).foldl Surface.remove c.surface) :=
    .foldl_remove c.surface _
  refine h.step hs (fun _ _ _ hk => hk.elim) ?_
  intro p hp a k ha hlive
  cases a with
  | part σ => exact ⟨.part σ, by cases σ <;> exact ha⟩
  | contour i =>
    refine absurd (List.mem_of_getElem? ha) ?_
    have hgone := (Surface.live_foldl_remove _ hlive).2
    rw [hp] at hgone
    exact hgone

theorem move (h : Tended c₀ c n) (hmove : Move n c c') : Tended c₀ c' n := by
  cases hmove with
  | touch own touch =>
    refine h.onSurface (g := fun _ => _) ?_
    cases touch with
    | modify gentle => exact .modify _ _ gentle
    | update => exact .update _ _
  | @attach p a shape put piece empty fits here others bare implicit =>
    refine h.step (.addHandle c.surface shape.mode shape) ?_ ?_
    · rintro q hq k rfl
      obtain rfl : p = q := Option.some.inj (piece.symm.trans hq)
      exact ⟨a, here⟩
    · intro q hq b k hb _
      obtain rfl : p = q := Option.some.inj (piece.symm.trans hq)
      refine ⟨b, (others b ?_).trans hb⟩
      rintro rfl
      cases empty.symm.trans hb
  | clear => exact h.removeContours

theorem moves (h : Tended c₀ c n) (hmoves : Moves n c c') : Tended c₀ c' n := by
  induction hmoves with
  | refl => exact h
  | tail _ hmove ih => exact ih.move hmove

/-- A piece is taken into use: the given one, or a new one without handles. -/
theorem acquire {existing : Option PieceId}
    (hexisting : ∀ n, existing = some n → ∃ p, c.piece? n = some p) (kind : PieceKind)
    (family : Family) :
    Tended c (c.acquire existing kind family).2 (existing.getD c.pieces.size) := by
  cases existing with
  | none =>
    have hnew : c.piece? c.pieces.size = none := Array.getElem?_eq_none (Nat.le_refl _)
    refine ⟨⟨fun k hk => .inr ⟨hk, fun a ha => ?_⟩, fun _ _ ht => ht⟩, { kind, family := some family },
      Array.getElem?_push_size⟩
    rw [spot?, Option.getD_none, hnew] at ha
    cases ha
  | some n =>
    have hset : ∀ p (a : Spot), a.get { p with kind, family := some family } = a.get p := by
      intro p a
      cases a with
      | part σ => cases σ <;> rfl
      | contour i => rfl
    have hstart : Tended c c n := ⟨.refl n c, hexisting n rfl⟩
    by_cases hdrop : ((c.piece? n).any fun p => p.family == some .implicit) && family != .implicit
    · simp only [Canvas.acquire, hdrop, if_true]
      exact hstart.removeContours.modify hset
    · simp only [Canvas.acquire, hdrop, Bool.false_eq_true, if_false]
      exact hstart.modify hset

end Tended

/-! ## Every family tends its piece -/

variable {kind : PieceKind} {family : Family} {Notes : Piece → Prop}

/-- A family that uses a piece loses no handle, even if it fails. -/
theorem Uses.tends {existing : Option PieceId}
    (hexisting : ∀ n, existing = some n → ∃ p, c.piece? n = some p) {outcome : Outcome PieceId}
    (h : c.Uses existing kind family Notes outcome) :
    Tends (existing.getD c.pieces.size) c outcome.2 := by
  have hacquired := Tended.acquire hexisting kind family
  cases h with
  | unread e => exact .refl _ c
  | parked e acquired quiet idle clear =>
    rw [acquired] at hacquired
    have hnoted := hacquired.modify quiet.spot
    rcases clear with rfl | rfl
    · exact hnoted.toTends
    · exact hnoted.removeContours.toTends
  | drawn acquired quiet moves quiet' notes =>
    rw [acquired] at hacquired
    exact (((hacquired.modify quiet.spot).moves moves).modify quiet'.spot).toTends

/-- A new piece that could not be drawn with has no handles. -/
theorem Uses.bare {e : PlotFault} {outcome : Outcome PieceId}
    (h : c.Uses none kind family Notes outcome) (he : outcome.1 = .error e) (a : Spot) :
    outcome.2.spot? c.pieces.size a = none := by
  cases h with
  | unread => exact c.spot?_size a
  | @parked e c₁ _ f acquired quiet idle clear =>
    obtain rfl : (c.acquire none kind family).2 = c₁ := congrArg Prod.snd acquired
    have hnoted : ∀ a, ((c.acquire none kind family).2.modify c.pieces.size f).spot? c.pieces.size a =
        none := fun a => by
      rw [spot?_modify_eq quiet.spot, spot?_acquire_none, spot?_size]
    rcases clear with rfl | rfl
    · exact hnoted a
    · refine Option.eq_none_iff_forall_ne_some.mpr fun k hk => ?_
      cases (hnoted a).symm.trans (spot?_removeContours.mp hk).1
  | drawn => cases he

end Graphing.Canvas
