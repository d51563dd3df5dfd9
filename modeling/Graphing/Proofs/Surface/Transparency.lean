/-
  Graphing.Proofs.Surface.Transparency

  Suspensions do not change what a script comes to.

  If no handle is set after its last push, all handles that were pushed are up
  to date when the last suspension has ended, and the figure is the same as
  without suspensions.  While a suspension is open, traces only come and go.
-/
import Graphing.Proofs.Surface.Actions

namespace Graphing

namespace Surface

variable {s t : Surface} {n : HandleId} {pushed stale : HandleId → Prop}

/-! ## Suspensions are nested -/

/-- Every suspension ends. -/
theorem depth_bracketed {script : List Action} {events : List Event} (hb : Bracketed script events)
    (s : Surface) : (events.foldl Event.run s).depth = s.depth := by
  induction hb generalizing s with
  | nil => rfl
  | act a _ ih => exact (ih (a.run s)).trans (s.depth_run a)
  | bracket _ _ ihbody ihrest =>
    rw [List.foldl_cons, List.foldl_append, List.foldl_cons, ihrest]
    show (Surface.resume _).depth = s.depth
    rw [depth_resume, ihbody]
    rfl

/-- No suspension ends that was open before. -/
theorem le_depth_take {script : List Action} {events : List Event} (hb : Bracketed script events)
    (s : Surface) (i : Nat) : s.depth ≤ ((events.take i).foldl Event.run s).depth := by
  induction hb generalizing s i with
  | nil => rw [List.take_nil]; exact Nat.le_refl _
  | act a _ ih =>
    cases i with
    | zero => exact Nat.le_refl _
    | succ i =>
      have hrest := ih (a.run s) i
      rw [depth_run] at hrest
      exact hrest
  | @bracket inner script events events' hbody _ ihbody ihrest =>
    cases i with
    | zero => exact Nat.le_refl _
    | succ i =>
      rw [List.take_succ_cons, List.take_append, List.foldl_cons, List.foldl_append]
      by_cases hi : i ≤ events.length
      · -- the suspension is open still
        have hopen := ihbody s.suspend i
        rw [depth_suspend] at hopen
        rw [Nat.sub_eq_zero_of_le hi]
        exact Nat.le_of_succ_le hopen
      · -- the suspension is over, and the depth is the one before it
        obtain ⟨k, hk⟩ := Nat.exists_eq_add_of_lt (Nat.lt_of_not_le hi)
        have hsub : i - events.length = k + 1 := by omega
        have htake : events.take i = events := List.take_of_length_le (Nat.le_of_not_le hi)
        have hclosed := depth_bracketed hbody s.suspend
        rw [hsub, htake, List.take_succ_cons, List.foldl_cons]
        refine Nat.le_trans ?_ (ihrest _ k)
        show s.depth ≤ (Surface.resume _).depth
        rw [depth_resume]
        show s.depth ≤ (events.foldl Event.run s.suspend).depth - 1
        rw [hclosed, depth_suspend]
        exact Nat.le_refl _

/-- Between two moments at which a suspension is open, no trace that is there changes. -/
theorem still_within {script : List Action} {events : List Event} (hb : Bracketed script events)
    (hs : s.depth ≠ 0) {i j : Nat} (hij : i ≤ j) :
    Still ((events.take i).foldl Event.run s) ((events.take j).foldl Event.run s) := by
  have hopen : ∀ k, ((events.take k).foldl Event.run s).depth ≠ 0 := fun k =>
    Nat.ne_of_gt (Nat.lt_of_lt_of_le (Nat.pos_of_ne_zero hs) (le_depth_take hb s k))
  induction hij with
  | refl => exact .refl _
  | @step j _ ih =>
    refine ih.trans ?_
    have hnext := hopen (j + 1)
    rw [List.take_add_one] at hnext ⊢
    cases hj : events[j]? with
    | none => rw [Option.toList_none, List.append_nil]; exact .refl _
    | some e =>
      rw [hj, Option.toList_some, List.foldl_append] at hnext
      rw [Option.toList_some, List.foldl_append]
      exact .event (hopen j) hnext

/-! ## Scripts with suspensions -/

namespace Batched

/-- A script, and the same script with suspensions, keep two runs together. -/
theorem bracketed {script : List Action} {events : List Event} (hb : Bracketed script events)
    (h : Batched pushed stale s t) :
    Batched (fun m => pushed m ∨ s.PushedBy script m)
      (fun m => s.LeftSet script m ∨ stale m ∧ ¬s.PushedBy script m)
      (script.foldl Action.run s) (events.foldl Event.run t) := by
  induction hb generalizing s t pushed stale with
  | nil => exact h.imp (fun m => or_iff_left id) fun m _ hm => .inr ⟨hm, id⟩
  | @act a script events _ ih =>
    refine (ih (h.run a)).imp (fun m => or_assoc.symm) fun m _ hm => ?_
    rw [LeftSet, PushedBy]
    tauto
  | @bracket inner script events events' _ _ ihbody ihrest =>
    -- the suspension begins and ends on the right only
    have hbody := ihbody h.suspend_right
    have hrest := ihrest hbody.resume_right
    rw [List.foldl_append, List.foldl_cons, List.foldl_append, List.foldl_cons]
    refine hrest.imp (fun m => ?_) fun m _ hm => ?_
    · rw [pushedBy_append, or_assoc]
    · rw [leftSet_append, pushedBy_append]
      tauto

/-- Runs in which every handle that was pushed is up to date show the same. -/
theorem figure_eq (h : Batched pushed stale s t) (hclean : ∀ n, ¬(pushed n ∧ stale n))
    (hs : s.depth = 0) (ht : t.depth = 0) : t.figure = s.figure := by
  have hshown : ∀ {s : Surface}, Tracked pushed stale s → s.depth = 0 → ∀ n, pushed n →
      s.Shown n := by
    intro s htracked hdepth n hn
    refine (htracked.shown n hn fun hstale => hclean n ⟨hn, hstale⟩).resolve_left ?_
    rw [htracked.idle hdepth]
    exact List.not_mem_nil
  have hhandle : ∀ n, t.handle? n = s.handle? n := by
    obtain ⟨f, q, d, rfl⟩ := h.same
    exact fun n => rfl
  refine (h.agree.eq ?_).symm
  rintro u hu v hv hid ⟨n, k, hn, hk, hlive, hku⟩
  -- both traces look as the handle tells
  obtain ⟨u', hu', hid', hlook, hvisible⟩ := hshown h.left hs n hn k hk hlive
  obtain ⟨v', hv', hidv, hlookv, hvisiblev⟩ := hshown h.right ht n hn k (hhandle n ▸ hk) hlive
  obtain rfl : u' = u :=
    List.inj_on_of_nodup_map h.left.coherent.ids_nodup hu' hu (hid'.trans hku)
  obtain rfl : v' = v :=
    List.inj_on_of_nodup_map h.right.coherent.ids_nodup hv' hv (hidv.trans (hku.trans hid))
  exact Trace.ext_look hid (hlook.trans hlookv.symm) (hvisible.trans hvisiblev.symm)

end Batched

theorem tracked_create {width height : Int} {bounds : Contour.Domain Float}
    (h : create? width height bounds = .ok s) : Tracked (fun _ => False) (fun _ => False) s := by
  have hcoherent := coherent_create h
  unfold create? at h
  split at h
  · cases h
  · split at h
    · cases h
    · cases h
      refine ⟨hcoherent, List.nodup_nil, ?_, ?_, ?_, fun _ => rfl, ?_⟩
      · exact fun n hn => absurd hn List.not_mem_nil
      · exact fun n hn => hn.elim
      · exact fun n hn => absurd hn List.not_mem_nil
      · exact fun n hn => hn.elim

/-- A script in which no handle is set after its last push comes to the same figure and the same
bounds, whatever parts of it run while updates are suspended. And from one moment to a later one of
the same suspension, no trace that is there changes. -/
theorem suspensions_transparent {width height : Int} {bounds : Contour.Domain Float}
    (hs : create? width height bounds = .ok s) {script : List Action} {events : List Event}
    (hb : Bracketed script events) (hlast : s.PushedLast script) :
    (events.foldl Event.run s).figure = (script.foldl Action.run s).figure ∧
    (events.foldl Event.run s).bounds = (script.foldl Action.run s).bounds ∧
    ∀ (before : List Event) (part : List Action) (inner after : List Event),
      events = before ++ .suspend :: (inner ++ .resume :: after) → Bracketed part inner →
      ∀ i j, i ≤ j →
        let earlier := (before ++ .suspend :: inner.take i).foldl Event.run s
        let later := (before ++ .suspend :: inner.take j).foldl Event.run s
        ∀ t ∈ later.figure, t.id < earlier.nextTrace → t ∈ earlier.figure := by
  have htracked := tracked_create hs
  have hdepth := depth_create hs
  have hruns := Batched.bracketed hb ⟨htracked, htracked, .refl s, .refl _⟩
  have hplain : (script.foldl Action.run s).depth = 0 := by
    rw [foldl_keeps Surface.depth depth_run, hdepth]
  have hbracketed : (events.foldl Event.run s).depth = 0 := by
    rw [depth_bracketed hb, hdepth]
  refine ⟨hruns.figure_eq (fun n hn => hlast n ?_) hplain hbracketed, ?_, ?_⟩
  · obtain ⟨hpushed, hstale⟩ := hn
    exact ⟨hpushed.resolve_left id, hstale.resolve_right fun hfalse => hfalse.1⟩
  · obtain ⟨f, q, d, heq⟩ := hruns.same
    rw [heq]
  · intro before part inner after _ hpart i j hij
    dsimp only
    rw [List.foldl_append, List.foldl_append, List.foldl_cons, List.foldl_cons]
    exact (still_within hpart (Nat.succ_ne_zero _) hij).old

/-- A point is changed and shown within a suspension, in which another one is open for a curve. -/
theorem suspensions_transparent_point_curve :
    let s : Surface := { width := 20, height := 10, bounds := ⟨0, 1, 0, 1⟩ }
    let make : Action := .createMarker [1, 2] ⟨{}, none⟩
    let change : Action := .set 0 (.configureMarker { solid := some false })
    let curve : Action := .createCurve ⟨{}, none⟩
    let script := [make, change, .unhide 0, curve]
    let events := [.act make, .suspend, .act change, .act (.unhide 0), .suspend, .act curve,
      .resume, .resume]
    create? 20 10 ⟨0, 1, 0, 1⟩ = .ok s ∧ Bracketed script events ∧ s.PushedLast script ∧
      (events.foldl Event.run s).figure = (script.foldl Action.run s).figure := by
  intro s make change curve script events
  have hs : create? 20 10 ⟨0, 1, 0, 1⟩ = .ok s := rfl
  have hb : Bracketed script events := by
    have hinner : Bracketed ([curve] ++ []) [.suspend, .act curve, .resume] :=
      .bracket (.act curve .nil) .nil
    have hbody : Bracketed [change, .unhide 0, curve]
        [.act change, .act (.unhide 0), .suspend, .act curve, .resume] :=
      .act change (.act (.unhide 0) hinner)
    have houter : Bracketed ([change, .unhide 0, curve] ++ []) (events.drop 1) :=
      .bracket hbody .nil
    exact .act make houter
  have hlast : s.PushedLast script := by
    -- the point is set once, and shown right after that
    rintro n ⟨-, ⟨hset, -⟩ | ⟨rfl, hnever⟩ | ⟨hset, -⟩ | ⟨hset, -⟩ | hset⟩
    · exact hset
    · exact hnever (.inl ⟨rfl, by decide⟩)
    · exact hset
    · exact hset
    · exact hset
  exact ⟨hs, hb, hlast, (suspensions_transparent hs hb hlast).1⟩

end Surface
end Graphing
