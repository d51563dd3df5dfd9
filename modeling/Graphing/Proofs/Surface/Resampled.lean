/-
  Graphing.Proofs.Surface.Resampled

  Sampling lazy curves anew, as a change of bounds does.

  Curves get other points, but no handle comes or goes, and each stays what it
  is: the surface before and the surface after are `Alike`.
-/
import Graphing.Proofs.Surface.Suspended

namespace Graphing

theorem Shape.SameKind.trans {a b d : Shape} (h : a.SameKind b) (h' : b.SameKind d) :
    a.SameKind d := by
  cases a <;> cases b <;> cases d <;> first | exact trivial | exact h.elim | exact h'.elim

namespace Surface

variable {s s' s'' : Surface} {n : HandleId}

/-- The same handles, of the same kinds, on surfaces of one size. -/
structure Alike (s s' : Surface) : Prop where
  width : s'.width = s.width
  height : s'.height = s.height
  depth : s'.depth = s.depth
  handle : ∀ n h, s.handle? n = some h →
    ∃ h', s'.handle? n = some h' ∧ h'.removed = h.removed ∧ h.shape.SameKind h'.shape

namespace Alike

theorem refl (s : Surface) : Alike s s :=
  ⟨rfl, rfl, rfl, fun _ h hh => ⟨h, hh, rfl, .refl _⟩⟩

theorem trans (h : Alike s s') (h' : Alike s' s'') : Alike s s'' where
  width := h'.width.trans h.width
  height := h'.height.trans h.height
  depth := h'.depth.trans h.depth
  handle n k hk := by
    obtain ⟨k', hk', hremoved, hkind⟩ := h.handle n k hk
    obtain ⟨k'', hk'', hremoved', hkind'⟩ := h'.handle n k' hk'
    exact ⟨k'', hk'', hremoved'.trans hremoved, hkind.trans hkind'⟩

theorem update (s : Surface) (n : HandleId) : Alike s (s.update n) := by
  obtain ⟨f, q, h⟩ := s.update_frame n
  rw [h]
  exact ⟨rfl, rfl, rfl, fun _ k hk => ⟨k, hk, rfl, .refl _⟩⟩

theorem mapCurve (s : Surface) (n : HandleId) (f : Curve → Curve) :
    Alike s (s.modify n (Handle.mapCurve f)) := by
  refine ⟨rfl, rfl, rfl, fun m k hk => ?_⟩
  rw [handle?_modify, hk]
  split
  · refine ⟨_, rfl, ?_⟩
    unfold Handle.mapCurve
    split
    · rename_i c hc
      exact ⟨rfl, by rw [hc]; exact trivial⟩
    · exact ⟨rfl, .refl _⟩
  · exact ⟨k, rfl, rfl, .refl _⟩

theorem updateCurve (s : Surface) (n : HandleId) : Alike s (s.updateCurve n).2 := by
  unfold Surface.updateCurve
  split
  · exact .update s n
  · dsimp only
    split
    · exact .refl s
    · split
      · exact .mapCurve s n _
      · exact ((mapCurve s n _).trans (mapCurve _ n _)).trans (update _ n)

theorem resample (ns : List HandleId) (s : Surface) : Alike s (Surface.resample ns s).2 :=
  resample_keeps (P := Alike s) (fun t n hs => hs.trans (updateCurve t n)) ns (.refl s)

/-- A change of bounds between suspensions. -/
theorem setBounds (h : s.depth = 0) (d : Contour.Domain Float) : Alike s (s.setBounds d).2 := by
  unfold Surface.setBounds
  split
  · exact .refl s
  · let start : Surface := { s.suspend with bounds := d }
    have hrun : Alike start (Surface.resample start.lazyCurves start).2 := .resample _ start
    show Alike s (Surface.resample start.lazyCurves start).2.resume
    generalize (Surface.resample start.lazyCurves start).2 = s' at hrun ⊢
    have hdepth : s'.depth = 1 := by
      rw [hrun.depth]
      show s.depth + 1 = 1
      rw [h]
    rw [resume_of_depth hdepth]
    refine ⟨?_, ?_, ?_, ?_⟩
    · exact (congrArg Frame.width (frame_flush _)).trans hrun.width
    · exact (congrArg Frame.height (frame_flush _)).trans hrun.height
    · rw [depth_flush, h]
    · intro n k hk
      obtain ⟨k', hk', hsame⟩ := hrun.handle n k hk
      refine ⟨k', ?_, hsame⟩
      rw [handle?, handles_flush]
      exact hk'

end Alike

end Surface

end Graphing
