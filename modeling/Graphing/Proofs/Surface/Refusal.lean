/-
  Graphing.Proofs.Surface.Refusal

  What a figure that refuses style values changes, and what it does not.

  A refusal concerns the figure alone: the handles, the queue and the
  suspensions become what they become on a figure that takes everything.  A
  handle that is taken is shown as there (`drawOn_of_takes`), and of several
  handles those before the first that is refused are (`each_drawOn_of_refused`).
  So an operation fails just if it shows a handle that is refused.
-/
import Graphing.Proofs.Surface.Growth
import Graphing.Proofs.Surface.Live
import Graphing.Surface.Push
import Mathlib.Data.List.TakeWhile

namespace Graphing

/-! ## Handles in their traces -/

namespace Handle

variable {v : Validator}

/-- Whether a handle is taken is a matter of its shape. -/
theorem takesHandle_eq (v : Validator) (h : Handle) :
    v.takesHandle h = h.shape.attributes.all v.takes := by
  rw [Validator.takesHandle, attributes, List.all_append]
  exact Bool.and_true _

/-- A change of a curve that leaves its style. -/
theorem takesHandle_mapCurve {f : Curve → Curve}
    (hf : ∀ c, (Shape.curve (f c)).attributes.all v.takes = (Shape.curve c).attributes.all v.takes)
    (h : Handle) : v.takesHandle (h.mapCurve f) = v.takesHandle h := by
  rw [takesHandle_eq, takesHandle_eq]
  obtain ⟨trace, shape, visible, removed⟩ := h
  cases shape with
  | curve c => exact hf c
  | marker | segment => rfl

/-- A handle that is taken sets all of its attributes. -/
theorem renderOn_of_takes {h : Handle} (hv : v.takesHandle h = true) (t : Trace) :
    h.renderOn v t = h.render t := by
  have hall : h.attributes.takeWhile v.takes = h.attributes :=
    List.takeWhile_eq_self_iff.mpr fun a ha => List.all_eq_true.mp hv a ha
  rw [renderOn, hall, foldl_attributes]

theorem id_renderOn (v : Validator) (h : Handle) (t : Trace) : (h.renderOn v t).id = t.id := by
  refine foldl_keeps Trace.id (fun t a => ?_) _ t
  cases a <;> rfl

/-- Showing a part of a handle leaves the trace fit for it. -/
theorem fits_renderOn (v : Validator) {h : Handle} {t : Trace} (hfits : h.shape.Fits t) :
    h.shape.Fits (h.renderOn v t) := by
  have hset : ∀ a ∈ h.attributes, ∀ t : Trace, h.shape.Fits t → h.shape.Fits (a.set t) := by
    obtain ⟨trace, shape, visible, removed⟩ := h
    intro a ha t ht
    -- a point sets neither the mode nor the line, and a segment neither the mode nor the marker
    cases shape <;> cases a <;> first | exact ht | simp [attributes, Shape.attributes] at ha
  have hfold : ∀ as : List Attribute, (∀ a ∈ as, a ∈ h.attributes) → ∀ t : Trace,
      h.shape.Fits t → h.shape.Fits (as.foldl Attribute.set t) := by
    intro as
    induction as with
    | nil => exact fun _ t ht => ht
    | cons a as ih =>
      intro has t ht
      exact ih (fun b hb => has b (List.mem_cons_of_mem a hb)) _
        (hset a (has a List.mem_cons_self) t ht)
  exact hfold _ (fun a ha => (List.takeWhile_prefix _).subset ha) t hfits

/-- The points of a trace are set even if the rest is refused. -/
theorem points_renderOn (v : Validator) (h : Handle) (t : Trace) :
    (h.renderOn v t).xs = h.shape.look.xs ∧ (h.renderOn v t).ys = h.shape.look.ys := by
  obtain ⟨trace, shape, visible, removed⟩ := h
  have hpoints : ∀ xs ys, v.takes (.points xs ys) = true := fun _ _ => rfl
  have hrest : ∀ (as : List Attribute) (t : Trace), (∀ a ∈ as, ∀ xs ys, a ≠ .points xs ys) →
      ((as.takeWhile v.takes).foldl Attribute.set t).xs = t.xs ∧
        ((as.takeWhile v.takes).foldl Attribute.set t).ys = t.ys := by
    intro as
    induction as with
    | nil => exact fun t _ => ⟨rfl, rfl⟩
    | cons a as ih =>
      intro t has
      rw [List.takeWhile_cons]
      split
      · have hstep := ih (a.set t) fun b hb => has b (List.mem_cons_of_mem a hb)
        have ha := has a List.mem_cons_self
        cases a with
        | points xs ys => exact absurd rfl (ha xs ys)
        | mode | line | marker | visible => exact hstep
      · exact ⟨rfl, rfl⟩
  cases shape with
  | curve c | marker m | segment g =>
    rw [renderOn, attributes, Shape.attributes, List.cons_append, List.takeWhile_cons, hpoints]
    exact hrest _ _ (by simp)

end Handle

namespace Surface

variable {v : Validator} {s s' : Surface} {m n : HandleId}

/-! ## Showing one handle -/

/-- Whether the figure takes a handle. One that was removed has nothing to show. -/
def takesAt (v : Validator) (s : Surface) (n : HandleId) : Bool :=
  (s.handle? n).all fun h => h.removed || v.takesHandle h

theorem takesAt_congr (h : s'.handles = s.handles) : s'.takesAt v = s.takesAt v := by
  funext n
  rw [takesAt, handle?, h, takesAt, handle?]

theorem drawOn_frame (v : Validator) (s : Surface) (n : HandleId) :
    ∃ f, (s.drawOn v n).2 = { s with figure := f } := by
  unfold drawOn
  split
  · split <;> exact ⟨_, rfl⟩
  · exact ⟨_, rfl⟩

theorem updateOn_frame (v : Validator) (s : Surface) (n : HandleId) :
    ∃ f q, (s.updateOn v n).2 = { s with figure := f, queue := q } := by
  unfold updateOn
  split
  · split
    · exact ⟨_, _, rfl⟩
    · split
      · obtain ⟨q, hq⟩ := s.enqueue_frame n
        exact ⟨_, q, hq⟩
      · obtain ⟨f, hf⟩ := s.drawOn_frame v n
        exact ⟨f, _, hf⟩
  · exact ⟨_, _, rfl⟩

theorem drawOn_fst (v : Validator) (s : Surface) (n : HandleId) :
    (s.drawOn v n).1 = if s.takesAt v n then .ok () else .error .refused := by
  unfold drawOn takesAt
  cases s.handle? n with
  | none => rfl
  | some h => cases hremoved : h.removed <;> simp [hremoved]

/-- A handle that is taken is shown as on any figure. -/
theorem drawOn_of_takes (h : s.takesAt v n = true) : s.drawOn v n = (.ok (), s.draw n) := by
  refine Prod.ext ((s.drawOn_fst v n).trans (if_pos h)) ?_
  unfold drawOn draw
  unfold takesAt at h
  cases hn : s.handle? n with
  | none => rfl
  | some k =>
    rw [hn, Option.all_some] at h
    dsimp only
    cases hremoved : k.removed with
    | true => rfl
    | false =>
      rw [hremoved, Bool.false_or] at h
      simp only [Handle.renderOn_of_takes h, Bool.false_eq_true, if_false]

theorem ids_drawOn (v : Validator) (s : Surface) (n : HandleId) :
    (s.drawOn v n).2.figure.map Trace.id = s.figure.map Trace.id := by
  unfold drawOn
  split
  · split
    · rfl
    · rw [List.map_map]
      refine List.map_congr_left fun t _ => ?_
      show (if _ then _ else _ : Trace).id = t.id
      split
      · exact Handle.id_renderOn v _ t
      · rfl
  · rfl

/-- The points of a handle are in its trace. -/
def Placed (s : Surface) (n : HandleId) : Prop :=
  ∀ h, s.handle? n = some h → h.removed = false →
    ∃ t ∈ s.figure, t.id = h.trace ∧ t.xs = h.shape.look.xs ∧ t.ys = h.shape.look.ys

/-- A handle is refused with its points in place. -/
theorem placed_drawOn (h : s.Coherent) (v : Validator) (n : HandleId) :
    (s.drawOn v n).2.Placed n := by
  intro k hk hlive
  obtain ⟨f, hframe⟩ := s.drawOn_frame v n
  have hold : s.handle? n = some k := by
    rw [hframe] at hk
    exact hk
  obtain ⟨t, ht, hid, -⟩ := h.fits n k hold hlive
  refine ⟨k.renderOn v t, ?_, (k.id_renderOn v t).trans hid, k.points_renderOn v t⟩
  rw [drawOn, hold]
  simp only [hlive, Bool.false_eq_true, if_false]
  exact List.mem_map.mpr ⟨t, ht, if_pos hid⟩

/-- Showing a part of a handle keeps the other traces up to date. -/
theorem Shown.drawOn (hs : s.Shown m) (h : s.Coherent) (v : Validator) (hmn : m ≠ n) :
    (s.drawOn v n).2.Shown m := by
  intro k hk hlive
  obtain ⟨f, hframe⟩ := s.drawOn_frame v n
  have hold : s.handle? m = some k := by
    rw [hframe] at hk
    exact hk
  obtain ⟨t, ht, hid, hrest⟩ := hs k hold hlive
  refine ⟨t, ?_, hid, hrest⟩
  unfold Surface.drawOn
  split
  · rename_i l hl
    split
    · exact ht
    · exact mem_repaint h hmn hold hl _ ht hid
  · exact ht

theorem agree_drawOn (v : Validator) (s : Surface) (n : HandleId) :
    Agree (s.Pending (· = n)) s.figure (s.drawOn v n).2.figure := by
  unfold drawOn
  split
  · rename_i k hk
    split
    · exact .refl _
    · rename_i hlive
      exact agree_repaint hk (eq_false_of_ne_true hlive) (k.id_renderOn v)
  · exact .refl _

/-! ## Several handles -/

/-- What each step keeps, the steps up to the first fault keep. -/
theorem each_keeps {P : Surface → Prop} {f : Surface → HandleId → Except SurfaceFault Unit × Surface}
    {ns : List HandleId} (hf : ∀ s, ∀ n ∈ ns, P s → P (f s n).2) (h : P s) : P (each f ns s).2 := by
  induction ns generalizing s with
  | nil => exact h
  | cons n ns ih =>
    have hstep := hf s n List.mem_cons_self h
    unfold each
    generalize f s n = outcome at hstep ⊢
    obtain ⟨_ | _, s'⟩ := outcome
    · exact hstep
    · exact ih (fun s m hm => hf s m (List.mem_cons_of_mem n hm)) hstep

/-- Handles that are all taken. -/
theorem each_drawOn_of_taken {ns : List HandleId} (hns : ∀ n ∈ ns, s.takesAt v n = true) :
    each (drawOn v) ns s = (.ok (), ns.foldl draw s) := by
  induction ns generalizing s with
  | nil => rfl
  | cons n ns ih =>
    rw [each, drawOn_of_takes (hns n List.mem_cons_self)]
    refine ih fun m hm => ?_
    rw [takesAt_congr (s.handles_draw n)]
    exact hns m (List.mem_cons_of_mem n hm)

/-- Handles of which one is refused: those before the first such one are shown, and a part of that
one. -/
theorem each_drawOn_of_refused {taken rest : List HandleId}
    (htaken : ∀ m ∈ taken, s.takesAt v m = true) (hn : s.takesAt v n = false) :
    each (drawOn v) (taken ++ n :: rest) s =
      (.error .refused, ((taken.foldl draw s).drawOn v n).2) := by
  induction taken generalizing s with
  | nil =>
    have hrefused : s.drawOn v n = (.error .refused, (s.drawOn v n).2) := by
      refine Prod.ext ((s.drawOn_fst v n).trans ?_) rfl
      rw [hn]
      rfl
    rw [List.nil_append, each, hrefused]
    rfl
  | cons m taken ih =>
    rw [List.cons_append, each, drawOn_of_takes (htaken m List.mem_cons_self)]
    have hsame := takesAt_congr (v := v) (s.handles_draw m)
    refine ih (s := s.draw m) (fun k hk => ?_) (by rwa [hsame])
    rw [hsame]
    exact htaken k (List.mem_cons_of_mem m hk)

/-- Handles are all taken, or there is a first one that is refused. -/
theorem all_taken_or (v : Validator) (s : Surface) (ns : List HandleId) :
    (∀ n ∈ ns, s.takesAt v n = true) ∨ ∃ taken n rest, ns = taken ++ n :: rest ∧
      (∀ m ∈ taken, s.takesAt v m = true) ∧ s.takesAt v n = false := by
  cases hfind : ns.find? fun n => !s.takesAt v n with
  | none =>
    refine .inl fun n hn => ?_
    simpa using List.find?_eq_none.mp hfind n hn
  | some n =>
    obtain ⟨hn, taken, rest, hns, htaken⟩ := List.find?_eq_some_iff_append.mp hfind
    exact .inr ⟨taken, n, rest, hns, fun m hm => by simpa using htaken m hm, by simpa using hn⟩

/-! ## The end of a suspension -/

/-- Whether the figure takes everything that the end of a suspension shows. -/
def endsWell (v : Validator) (s : Surface) : Bool :=
  s.depth - 1 != 0 || s.queue.all (s.takesAt v)

/-- The end of the outermost suspension. -/
theorem resumeOn_of_depth (v : Validator) (h : s.depth - 1 = 0) :
    s.resumeOn v = ({ s with depth := 0 } : Surface).flushOn v := by
  unfold resumeOn
  dsimp only
  rw [h]
  rfl

theorem resumeOn_of_suspended (v : Validator) (h : s.depth - 1 ≠ 0) :
    s.resumeOn v = (.ok (), { s with depth := s.depth - 1 }) := by
  unfold resumeOn
  exact if_neg h

/-- The end of the outermost suspension, if everything that waits is taken. -/
theorem resumeOn_of_taken (h : s.depth - 1 = 0) (hqueue : ∀ n ∈ s.queue, s.takesAt v n = true) :
    s.resumeOn v = (.ok (), s.resume) := by
  rw [resumeOn_of_depth v h, flushOn, each_drawOn_of_taken (s := { s with depth := 0 }) hqueue,
    resume]
  dsimp only
  rw [if_pos h, h]
  rfl

/-- The end of the outermost suspension, if something that waits is refused. -/
theorem resumeOn_of_refused {taken rest : List HandleId} (h : s.depth - 1 = 0)
    (hqueue : s.queue = taken ++ n :: rest) (htaken : ∀ m ∈ taken, s.takesAt v m = true)
    (hn : s.takesAt v n = false) :
    s.resumeOn v = (.error .refused,
      { ((taken.foldl draw { s with depth := 0 }).drawOn v n).2 with queue := [] }) := by
  have hrun : each (drawOn v) (taken ++ n :: rest) { s with depth := 0 } = _ :=
    each_drawOn_of_refused htaken hn
  rw [← hqueue] at hrun
  rw [resumeOn_of_depth v h]
  exact congrArg (fun o : Except SurfaceFault Unit × Surface => (o.1, { o.2 with queue := [] })) hrun

/-- Handles before one that is refused, and that one: no other trace changes. -/
theorem agree_of_refused {pushed : HandleId → Prop} {taken : List HandleId}
    (htaken : ∀ m ∈ taken, pushed m) (hn : pushed n) :
    Agree (s.Pending pushed) s.figure
      ((taken.foldl draw { s with depth := 0 }).drawOn v n).2.figure := by
  have hhandles : (taken.foldl draw { s with depth := 0 }).handles = s.handles :=
    foldl_keeps Surface.handles handles_draw taken { s with depth := 0 }
  have hfold := agree_foldl_draw (s := { s with depth := 0 }) htaken
  have hlast := (agree_drawOn v (taken.foldl draw { s with depth := 0 }) n).mono fun i =>
    Pending.imp (t := s) (fun m hm => hm ▸ hn) hhandles.symm
  exact (hfold.mono fun i => Pending.imp (fun _ hm => hm) rfl).trans hlast

/-- A suspension at whose end nothing is refused ends as on any figure. -/
theorem resumeOn_of_endsWell (h : s.endsWell v = true) : s.resumeOn v = (.ok (), s.resume) := by
  by_cases hdepth : s.depth - 1 = 0
  · rw [endsWell, hdepth, bne_self_eq_false, Bool.false_or, List.all_eq_true] at h
    exact resumeOn_of_taken hdepth h
  · rw [resumeOn_of_suspended v hdepth, resume]
    exact congrArg (Prod.mk _) (if_neg hdepth).symm

theorem resumeOn_fst (v : Validator) (s : Surface) :
    (s.resumeOn v).1 = if s.endsWell v then .ok () else .error .refused := by
  split
  · rename_i hwell
    rw [resumeOn_of_endsWell hwell]
  · rename_i hwell
    unfold endsWell at hwell
    rw [Bool.or_eq_true, not_or] at hwell
    have hdepth : s.depth - 1 = 0 := by simpa using hwell.1
    obtain hall | ⟨taken, n, rest, hqueue, htaken, hn⟩ := all_taken_or v s s.queue
    · exact absurd (List.all_eq_true.mpr hall) hwell.2
    · rw [resumeOn_of_refused hdepth hqueue htaken hn]

theorem each_drawOn_frame (v : Validator) (ns : List HandleId) (s : Surface) :
    ∃ f, (each (drawOn v) ns s).2 = { s with figure := f } := by
  refine each_keeps (P := fun t => ∃ f, t = { s with figure := f }) ?_ ⟨s.figure, rfl⟩
  rintro _ n - ⟨f, rfl⟩
  exact drawOn_frame v _ n

/-- A suspension that ends changes the figure, the queue and the number of suspensions. -/
theorem resumeOn_frame (v : Validator) (s : Surface) :
    ∃ f q, (s.resumeOn v).2 = { s with figure := f, queue := q, depth := s.depth - 1 } := by
  by_cases hdepth : s.depth - 1 = 0
  · obtain ⟨f, hf⟩ := each_drawOn_frame v s.queue { s with depth := 0 }
    refine ⟨f, [], ?_⟩
    rw [resumeOn_of_depth v hdepth, hdepth]
    exact congrArg (fun t : Surface => { t with queue := [] }) hf
  · exact ⟨s.figure, s.queue, by rw [resumeOn_of_suspended v hdepth]⟩

theorem ids_resumeOn (v : Validator) (s : Surface) :
    (s.resumeOn v).2.figure.map Trace.id = s.figure.map Trace.id := by
  by_cases hdepth : s.depth - 1 = 0
  · rw [resumeOn_of_depth v hdepth]
    exact each_keeps (P := fun t => t.figure.map Trace.id = s.figure.map Trace.id)
      (fun t n _ ht => (ids_drawOn v t n).trans ht) rfl
  · rw [resumeOn_of_suspended v hdepth]

theorem handle?_resumeOn (v : Validator) (s : Surface) (n : HandleId) :
    (s.resumeOn v).2.handle? n = s.handle? n := by
  obtain ⟨f, q, h⟩ := s.resumeOn_frame v
  rw [h]
  rfl

/-- The end of a suspension changes the traces of handles that wait, and no others. -/
theorem agree_resumeOn {pushed : HandleId → Prop} (hqueue : ∀ n ∈ s.queue, pushed n) :
    Agree (s.Pending pushed) s.figure (s.resumeOn v).2.figure := by
  by_cases hdepth : s.depth - 1 = 0
  · obtain hall | ⟨taken, n, rest, heq, htaken, hn⟩ := all_taken_or v s s.queue
    · rw [resumeOn_of_taken hdepth hall]
      exact agree_resume hqueue
    · rw [resumeOn_of_refused hdepth heq htaken hn]
      refine agree_of_refused (fun m hm => hqueue m ?_) (hqueue n ?_)
      · exact heq ▸ List.mem_append_left _ hm
      · exact heq ▸ List.mem_append_right _ List.mem_cons_self
  · rw [resumeOn_of_suspended v hdepth]
    exact .refl _

/-! ## Figures that take everything -/

theorem takesAt_all (s : Surface) (n : HandleId) : s.takesAt .all n = true := by
  have hall : ∀ a : Attribute, Validator.all.takes a = true := by
    intro a
    cases a with
    | marker m =>
      obtain ⟨color, size, outline⟩ := m
      cases outline <;> rfl
    | points | mode | line | visible => rfl
  unfold takesAt
  cases s.handle? n with
  | none => rfl
  | some h =>
    rw [Option.all_some, Validator.takesHandle, List.all_eq_true.mpr fun a _ => hall a, Bool.or_true]

theorem drawOn_all (s : Surface) (n : HandleId) : s.drawOn .all n = (.ok (), s.draw n) :=
  drawOn_of_takes (s.takesAt_all n)

theorem updateOn_all (s : Surface) (n : HandleId) : s.updateOn .all n = (.ok (), s.update n) := by
  unfold updateOn update
  cases s.handle? n with
  | none => rfl
  | some h =>
    dsimp only
    rw [drawOn_all]
    split
    · rfl
    · split <;> rfl

theorem resumeOn_all (s : Surface) : s.resumeOn .all = (.ok (), s.resume) := by
  refine resumeOn_of_endsWell ?_
  rw [endsWell, List.all_eq_true.mpr fun n _ => s.takesAt_all n, Bool.or_true]

theorem thenShow_ok (shown : Except SurfaceFault Unit × Surface) :
    thenShow (.ok ()) shown = shown := by
  obtain ⟨_ | _, s⟩ := shown <;> rfl

theorem setBoundsOn_all (s : Surface) (d : Contour.Domain Float) :
    s.setBoundsOn .all d = s.setBounds d := by
  unfold setBoundsOn setBounds
  dsimp only
  rw [resumeOn_all]
  rfl

/-! ## Coherent surfaces -/

namespace Coherent

theorem drawOn (h : s.Coherent) (v : Validator) (n : HandleId) : (s.drawOn v n).2.Coherent := by
  unfold Surface.drawOn
  split
  · rename_i k hk
    split
    · exact h
    · exact h.repaint hk (k.id_renderOn v) fun _ => Handle.fits_renderOn v
  · exact h

theorem resumeOn (h : s.Coherent) (v : Validator) : (s.resumeOn v).2.Coherent := by
  by_cases hdepth : s.depth - 1 = 0
  · have hstart : ({ s with depth := 0 } : Surface).Coherent := h.congr rfl rfl rfl
    rw [resumeOn_of_depth v hdepth]
    exact (each_keeps (P := Coherent) (fun t n _ ht => ht.drawOn v n) hstart).congr rfl rfl rfl
  · rw [resumeOn_of_suspended v hdepth]
    exact h.congr rfl rfl rfl

end Coherent

theorem Adds.resumeOn (made : HandleId → Prop) (v : Validator) (s : Surface) :
    Adds made s (s.resumeOn v).2 := by
  obtain ⟨f, q, h⟩ := s.resumeOn_frame v
  exact .of_ids (by rw [h]) (s.ids_resumeOn v)

/-! ## Growing surfaces -/

namespace Grows

variable (v : Validator)

theorem updateOn (s : Surface) (n : HandleId) : Grows s (s.updateOn v n).2 := by
  unfold Surface.updateOn
  split
  · split
    · exact refl s
    · split
      · rename_i hsuspended
        obtain ⟨q, hq⟩ := s.enqueue_frame n
        rw [hq]
        refine of_handles rfl (fun hs => hs.congr rfl rfl rfl) fun _ hdepth => ?_
        exact absurd hdepth (Nat.ne_of_gt (of_decide_eq_true hsuspended))
      · obtain ⟨f, hf⟩ := s.drawOn_frame v n
        refine of_handles (by rw [hf]) (fun hs => hs.drawOn v n) fun hs hdepth => ?_
        rw [hf] at hdepth ⊢
        exact hs hdepth
  · exact refl s

theorem setVisibleOn (s : Surface) (n : HandleId) (visible : Bool) :
    Grows s (s.setVisibleOn v n visible).2 :=
  (modify s n (.visible visible)).trans (updateOn v _ n)

theorem each {f : Surface → HandleId → Except SurfaceFault Unit × Surface}
    (hf : ∀ s n, Grows s (f s n).2) (ns : List HandleId) (s : Surface) :
    Grows s (Surface.each f ns s).2 :=
  each_keeps (P := Grows s) (fun t n _ ht => ht.trans (hf t n)) (refl s)

theorem resumeOn (s : Surface) : Grows s (s.resumeOn v).2 := by
  obtain ⟨f, q, hframe⟩ := s.resumeOn_frame v
  refine of_handles (by rw [hframe]) (fun hs => hs.resumeOn v) fun _ hdepth => ?_
  rw [hframe] at hdepth
  rw [resumeOn_of_depth v hdepth]
  rfl

theorem thenShow {α : Type} {shown : Except SurfaceFault Unit × Surface} (h : Grows s shown.2)
    (result : Except SurfaceFault α) : Grows s (Surface.thenShow result shown).2 := by
  obtain ⟨_ | _, s'⟩ := shown <;> exact h

/-- A handle is made, and shown as far as it is taken. -/
theorem showNew (s : Surface) {mode : String} {shape : Shape} (hmode : mode = shape.mode) :
    Grows s (Surface.showNew v (s.addHandle mode shape)).2 :=
  thenShow ((addHandle s hmode).trans (setVisibleOn v _ _ true)) _

theorem createMarkerOn (s : Surface) (coords : List Float) (r : Readout MarkerSettings) :
    Grows s (s.createMarkerOn v coords r).2 := by
  unfold Surface.createMarkerOn
  split
  · exact showNew v s rfl
  · exact addTrace s "markers"
  · exact addTrace s "markers"

theorem createSegmentOn (s : Surface) (start finish : List Float) (r : Readout SegmentSettings) :
    Grows s (s.createSegmentOn v start finish r).2 := by
  unfold Surface.createSegmentOn
  split
  · exact showNew v s rfl
  · exact addTrace s "lines"
  · exact addTrace s "lines"
  · exact addTrace s "lines"

theorem updateCurveOn (s : Surface) (n : HandleId) : Grows s (s.updateCurveOn v n).2 := by
  have hmap : ∀ (s : Surface) (f : Curve → Curve), Grows s (s.modify n (Handle.mapCurve f)) :=
    fun s f => modify s n (.mapCurve f)
  unfold Surface.updateCurveOn
  split
  · exact updateOn v s n
  · dsimp only
    split
    · exact refl s
    · split
      · exact hmap s _
      · exact ((hmap s _).trans (hmap _ _)).trans (updateOn v _ n)

theorem setBoundsOn (s : Surface) (d : Contour.Domain Float) : Grows s (s.setBoundsOn v d).2 := by
  unfold Surface.setBoundsOn
  split
  · exact refl s
  · have hstart : Grows s (s.rebounded d) :=
      (suspend s).trans (of_handles rfl (fun hs => hs.congr rfl rfl rfl) id)
    exact thenShow ((hstart.trans (resample _ _)).trans (resumeOn v _)) _

end Grows

end Surface
end Graphing
