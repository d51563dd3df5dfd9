/-
  Graphing.Proofs.Surface.Coherent

  The figure of a surface holds one trace for each handle that was not
  removed.

  A handle shows its state only when it is drawn, and the mode and the unused
  half of a trace are left over from the time when the trace was made.  A
  surface is `Coherent` if every handle has its own trace, of the kind that
  fits its shape; every operation keeps this.  A trace is `Shown` if it is up
  to date with its handle: then it looks as the handle alone tells.
-/
import Graphing.Surface.Basic
import Mathlib.Data.List.Nodup

namespace Graphing

/-! ## Looks -/

/-- What of a trace can be seen, if it is visible. -/
structure Look where
  xs : List Float
  ys : List Float
  mode : String
  line : Option LineStyle
  marker : Option MarkerStyle

/-- The look of a trace. -/
def Trace.look (t : Trace) : Look := ⟨t.xs, t.ys, t.mode, t.line, t.marker⟩

/-- The mode of the trace that is made for a shape. -/
def Shape.mode : Shape → String
  | .marker _ => "markers"
  | .curve _ | .segment _ => "lines"

/-- How a shape looks in a trace of its own. -/
def Shape.look : Shape → Look
  | .curve c =>
    ⟨c.xs, c.ys, c.mode, some ⟨c.color, c.width, c.dash⟩, some ⟨c.color, c.markerSize, none⟩⟩
  | .marker m =>
    ⟨[m.coords.1], [m.coords.2], "markers", none, some ⟨m.fill, m.size, some (m.color, 2)⟩⟩
  | .segment g =>
    ⟨[g.start.1, g.finish.1], [g.start.2, g.finish.2], "lines",
      some ⟨g.color, g.width, g.dash⟩, none⟩

/-- Whether a trace can show a shape: showing a point never changes its mode and its line, showing a
segment never its mode and its marker. -/
def Shape.Fits (s : Shape) (t : Trace) : Prop :=
  match s with
  | .curve _ => True
  | .marker _ => t.mode = "markers" ∧ t.line = none
  | .segment _ => t.mode = "lines" ∧ t.marker = none

/-- Whether two shapes are of one kind. -/
def Shape.SameKind : Shape → Shape → Prop
  | .curve _, .curve _ | .marker _, .marker _ | .segment _, .segment _ => True
  | _, _ => False

theorem Shape.SameKind.fits_iff {a b : Shape} (h : a.SameKind b) (t : Trace) :
    a.Fits t ↔ b.Fits t := by
  cases a <;> cases b <;> first | exact h.elim | exact Iff.rfl

theorem Shape.SameKind.refl (a : Shape) : a.SameKind a := by
  cases a <;> exact trivial

theorem Handle.look_render {h : Handle} {t : Trace} (hfits : h.shape.Fits t) :
    (h.render t).look = h.shape.look := by
  obtain ⟨trace, shape, visible, removed⟩ := h
  cases shape with
  | curve c => rfl
  | marker m =>
    obtain ⟨hmode, hline⟩ := hfits
    simp [Handle.render, Marker.render, Trace.look, Shape.look, hmode, hline]
  | segment g =>
    obtain ⟨hmode, hmarker⟩ := hfits
    simp [Handle.render, Segment.render, Trace.look, Shape.look, hmode, hmarker]

theorem Handle.fits_render {h : Handle} {t : Trace} (hfits : h.shape.Fits t) :
    h.shape.Fits (h.render t) := by
  obtain ⟨trace, shape, visible, removed⟩ := h
  cases shape <;> exact hfits

namespace Surface

variable {s : Surface} {m n : HandleId}

/-! ## Handles after an operation -/

theorem handle?_modify (s : Surface) (n : HandleId) (f : Handle → Handle) (m : HandleId) :
    (s.modify n f).handle? m = if n = m then (s.handle? m).map f else s.handle? m := by
  simp only [handle?, modify, Array.getElem?_modify]

/-- All that removing can do: a handle that was removed before, or that is not there, is left alone;
any other is marked, and leaves the queue and the order, and its trace leaves the figure. -/
theorem remove_cases (s : Surface) (n : HandleId) :
    (s.remove n = s ∧ ∀ k, s.handle? n = some k → k.removed = true) ∨
      ∃ k, s.handle? n = some k ∧ k.removed = false ∧
        s.remove n = { s.modify n (fun k => { k with removed := true }) with
          figure := s.figure.filter fun t => t.id != k.trace
          queue := s.queue.filter (· != n)
          live := s.live.filter (· != n) } := by
  unfold remove
  split
  · rename_i k hk
    split
    · rename_i hremoved
      exact .inl ⟨rfl, fun l hl => Option.some.inj (hk.symm.trans hl) ▸ hremoved⟩
    · rename_i hremoved
      exact .inr ⟨k, hk, eq_false_of_ne_true hremoved, rfl⟩
  · rename_i hnone
    exact .inl ⟨rfl, fun k hk => absurd (hnone.symm.trans hk) nofun⟩

theorem handles_draw (s : Surface) (n : HandleId) : (s.draw n).handles = s.handles := by
  unfold draw
  split
  · split <;> rfl
  · rfl

theorem ids_draw (s : Surface) (n : HandleId) :
    (s.draw n).figure.map Trace.id = s.figure.map Trace.id := by
  unfold draw
  split
  · split
    · rfl
    · rw [List.map_map]
      refine List.map_congr_left fun t _ => ?_
      show (if _ then _ else _ : Trace).id = t.id
      split
      · exact Handle.id_render _ t
      · rfl
  · rfl

theorem handles_enqueue (s : Surface) (n : HandleId) : (s.enqueue n).handles = s.handles := by
  unfold enqueue
  split <;> rfl

theorem handle?_update (s : Surface) (n m : HandleId) : (s.update n).handle? m = s.handle? m := by
  unfold update
  split
  · split
    · rfl
    · split
      · rw [handle?, handles_enqueue, handle?]
      · rw [handle?, handles_draw, handle?]
  · rfl

theorem handle?_lt {h : Handle} (hn : s.handle? n = some h) : n < s.handles.size :=
  (Array.getElem?_eq_some_iff.mp hn).1

theorem handle?_addHandle (s : Surface) (mode : String) (shape : Shape) (m : HandleId) :
    (s.addHandle mode shape).2.handle? m =
      if m = s.handles.size then some { trace := s.nextTrace, shape } else s.handle? m := by
  simp only [addHandle, addTrace, handle?, Array.getElem?_push]

/-- What sampling one curve keeps, sampling several curves keeps, whether or not one of them fails. -/
theorem resample_keeps {P : Surface → Prop} (hP : ∀ s n, P s → P (s.updateCurve n).2)
    (ns : List HandleId) (h : P s) : P (resample ns s).2 := by
  induction ns generalizing s with
  | nil => exact h
  | cons n ns ih =>
    have hstep := hP s n h
    unfold resample
    split
    · rename_i s' heq
      rw [heq] at hstep
      exact ih hstep
    · rename_i e s' heq
      rwa [heq] at hstep

/-! ## Coherent surfaces -/

/-- Every handle has a trace of its own, which is in the figure and fits its shape until the handle
is removed. -/
structure Coherent (s : Surface) : Prop where
  ids_nodup : (s.figure.map Trace.id).Nodup
  id_lt : ∀ t ∈ s.figure, t.id < s.nextTrace
  trace_lt : ∀ n h, s.handle? n = some h → h.trace < s.nextTrace
  trace_inj : ∀ m n h k, s.handle? m = some h → s.handle? n = some k → h.trace = k.trace → m = n
  fits : ∀ n h, s.handle? n = some h → h.removed = false →
    ∃ t ∈ s.figure, t.id = h.trace ∧ h.shape.Fits t

theorem coherent_create {width height : Int} {bounds : Contour.Domain Float}
    (h : create? width height bounds = .ok s) : s.Coherent := by
  unfold create? at h
  split at h
  · cases h
  · split at h
    · cases h
    · cases h
      refine ⟨by simp, by simp, ?_, ?_, ?_⟩ <;> simp [handle?]

theorem depth_create {width height : Int} {bounds : Contour.Domain Float}
    (h : create? width height bounds = .ok s) : s.depth = 0 := by
  unfold create? at h
  split at h
  · cases h
  · split at h
    · cases h
    · cases h
      rfl

namespace Coherent

theorem congr {s' : Surface} (h : s.Coherent) (hhandles : s'.handles = s.handles)
    (hfigure : s'.figure = s.figure) (hnext : s'.nextTrace = s.nextTrace) : s'.Coherent := by
  have hh : ∀ n, s'.handle? n = s.handle? n := fun n => by rw [handle?, hhandles, handle?]
  refine ⟨?_, ?_, ?_, ?_, ?_⟩
  · rw [hfigure]
    exact h.ids_nodup
  · rw [hfigure, hnext]
    exact h.id_lt
  · intro n k hk
    rw [hnext]
    exact h.trace_lt n k (by rwa [← hh])
  · intro m n k l hk hl
    exact h.trace_inj m n k l (by rwa [← hh]) (by rwa [← hh])
  · intro n k hk hlive
    rw [hfigure]
    exact h.fits n k (by rwa [← hh]) hlive

/-- A change of a handle that keeps its trace and the kind of its shape. -/
theorem modify {f : Handle → Handle} (h : s.Coherent)
    (hf : ∀ k, s.handle? n = some k → (f k).trace = k.trace ∧ (f k).removed = k.removed ∧
      k.shape.SameKind (f k).shape) : (s.modify n f).Coherent := by
  have hold : ∀ m k, (s.modify n f).handle? m = some k → ∃ k₀, s.handle? m = some k₀ ∧
      k.trace = k₀.trace ∧ k.removed = k₀.removed ∧ k₀.shape.SameKind k.shape := by
    intro m k hk
    rw [handle?_modify] at hk
    split at hk
    · rename_i hmn
      subst hmn
      obtain ⟨k₀, hk₀, rfl⟩ := Option.map_eq_some_iff.mp hk
      exact ⟨k₀, hk₀, hf k₀ hk₀⟩
    · exact ⟨k, hk, rfl, rfl, .refl _⟩
  refine ⟨h.ids_nodup, h.id_lt, ?_, ?_, ?_⟩
  · intro m k hk
    obtain ⟨k₀, hk₀, htrace, -, -⟩ := hold m k hk
    rw [htrace]
    exact h.trace_lt m k₀ hk₀
  · intro m l k₁ k₂ hk₁ hk₂ heq
    obtain ⟨a, ha, hta, -, -⟩ := hold m k₁ hk₁
    obtain ⟨b, hb, htb, -, -⟩ := hold l k₂ hk₂
    exact h.trace_inj m l a b ha hb (by rw [← hta, ← htb, heq])
  · intro m k hk hlive
    obtain ⟨k₀, hk₀, htrace, hremoved, hkind⟩ := hold m k hk
    obtain ⟨t, ht, hid, hfits⟩ := h.fits m k₀ hk₀ (by rw [← hremoved, hlive])
    exact ⟨t, ht, by rw [hid, htrace], (hkind.fits_iff t).mp hfits⟩

/-- A change of the trace of one handle, which stays fit for the handle. -/
theorem repaint (h : s.Coherent) {k : Handle} (hk : s.handle? n = some k) {f : Trace → Trace}
    (hid : ∀ t, (f t).id = t.id) (hfits : ∀ t, k.shape.Fits t → k.shape.Fits (f t)) :
    ({ s with figure := s.figure.map fun t => if t.id = k.trace then f t else t } :
      Surface).Coherent := by
  have hids : ∀ t : Trace, (if t.id = k.trace then f t else t).id = t.id := by
    intro t
    split
    · exact hid t
    · rfl
  refine ⟨?_, ?_, h.trace_lt, h.trace_inj, ?_⟩
  · rw [List.map_map]
    convert h.ids_nodup using 2
    funext t
    exact hids t
  · intro t ht
    obtain ⟨t₀, ht₀, rfl⟩ := List.mem_map.mp ht
    rw [hids]
    exact h.id_lt t₀ ht₀
  · intro m l hl hlive
    obtain ⟨t, ht, htid, hfit⟩ := h.fits m l hl hlive
    refine ⟨_, List.mem_map.mpr ⟨t, ht, rfl⟩, (hids t).trans htid, ?_⟩
    split
    · rename_i htk
      obtain rfl := h.trace_inj m n l k hl hk (by rw [← htid, htk])
      obtain rfl : l = k := Option.some.inj (hl.symm.trans hk)
      exact hfits t hfit
    · exact hfit

theorem draw (h : s.Coherent) (n : HandleId) : (s.draw n).Coherent := by
  unfold Surface.draw
  split
  · rename_i k hk
    split
    · exact h
    · exact h.repaint hk k.id_render fun t => k.fits_render
  · exact h

theorem enqueue (h : s.Coherent) (n : HandleId) : (s.enqueue n).Coherent := by
  unfold Surface.enqueue
  split
  · exact h
  · exact h.congr rfl rfl rfl

theorem update (h : s.Coherent) (n : HandleId) : (s.update n).Coherent := by
  unfold Surface.update
  split
  · split
    · exact h
    · split
      · exact h.enqueue n
      · exact h.draw n
  · exact h

theorem foldl_draw (h : s.Coherent) (ns : List HandleId) : (ns.foldl Surface.draw s).Coherent := by
  induction ns generalizing s with
  | nil => exact h
  | cons n ns ih => exact ih (h.draw n)

theorem flush (h : s.Coherent) : s.flush.Coherent := (h.foldl_draw s.queue).congr rfl rfl rfl

theorem resume (h : s.Coherent) : s.resume.Coherent := by
  have h' : { s with depth := s.depth - 1 }.Coherent := h.congr rfl rfl rfl
  unfold Surface.resume
  dsimp only
  split
  · exact h'.flush
  · exact h'

theorem addHandle (h : s.Coherent) {mode : String} {shape : Shape} (hmode : mode = shape.mode) :
    (s.addHandle mode shape).2.Coherent := by
  have hfigure : (s.addHandle mode shape).2.figure = s.figure ++ [{ id := s.nextTrace, mode }] := rfl
  have hnext : (s.addHandle mode shape).2.nextTrace = s.nextTrace + 1 := rfl
  -- the new trace has the next number, and all others are below it
  refine ⟨?_, ?_, ?_, ?_, ?_⟩
  · rw [hfigure, List.map_append, List.nodup_append_comm, List.map_singleton,
      List.singleton_append, List.nodup_cons]
    refine ⟨fun hmem => ?_, h.ids_nodup⟩
    obtain ⟨t, ht, hid⟩ := List.mem_map.mp hmem
    have hlt := h.id_lt t ht
    rw [hid] at hlt
    exact absurd hlt (Nat.lt_irrefl _)
  · intro t ht
    rw [hfigure, List.mem_append, List.mem_singleton] at ht
    rw [hnext]
    rcases ht with ht | rfl
    · exact Nat.lt_succ_of_lt (h.id_lt t ht)
    · exact Nat.lt_succ_self _
  · intro n k hk
    rw [handle?_addHandle] at hk
    rw [hnext]
    split at hk
    · cases hk
      exact Nat.lt_succ_self _
    · exact Nat.lt_succ_of_lt (h.trace_lt n k hk)
  · intro m n k l hk hl heq
    rw [handle?_addHandle] at hk hl
    split at hk <;> split at hl
    · rw [‹m = _›, ‹n = _›]
    · cases hk
      have hlt := h.trace_lt n l hl
      rw [← heq] at hlt
      exact absurd hlt (Nat.lt_irrefl _)
    · cases hl
      have hlt := h.trace_lt m k hk
      rw [heq] at hlt
      exact absurd hlt (Nat.lt_irrefl _)
    · exact h.trace_inj m n k l hk hl heq
  · intro n k hk hlive
    rw [handle?_addHandle] at hk
    rw [hfigure]
    split at hk
    · cases hk
      refine ⟨_, List.mem_append_right _ (List.mem_singleton_self _), rfl, ?_⟩
      cases shape with
      | curve c => exact trivial
      | marker m => exact ⟨hmode, rfl⟩
      | segment g => exact ⟨hmode, rfl⟩
    · obtain ⟨t, ht, hid, hfits⟩ := h.fits n k hk hlive
      exact ⟨t, List.mem_append_left _ ht, hid, hfits⟩

theorem remove (h : s.Coherent) (n : HandleId) : (s.remove n).Coherent := by
  obtain ⟨heq, -⟩ | ⟨k, hk, -, heq⟩ := s.remove_cases n
  · rwa [heq]
  · rw [heq]
    -- the handles are the old ones, and those that are still live are others than this
    have hold : ∀ m l, (s.modify n fun k => { k with removed := true }).handle? m = some l →
        ∃ l₀, s.handle? m = some l₀ ∧ l.trace = l₀.trace ∧ l.shape = l₀.shape ∧
          (l.removed = false → l₀.removed = false ∧ n ≠ m) := by
      intro m l hl
      rw [handle?_modify] at hl
      split at hl
      · obtain ⟨l₀, hl₀, rfl⟩ := Option.map_eq_some_iff.mp hl
        exact ⟨l₀, hl₀, rfl, rfl, fun hlive => by cases hlive⟩
      · rename_i hmn
        exact ⟨l, hl, rfl, rfl, fun hlive => ⟨hlive, hmn⟩⟩
    refine ⟨?_, ?_, ?_, ?_, ?_⟩
    · exact h.ids_nodup.sublist (List.filter_sublist.map _)
    · intro t ht
      exact h.id_lt t (List.mem_filter.mp ht).1
    · intro m l hl
      obtain ⟨l₀, hl₀, htrace, -, -⟩ := hold m l hl
      rw [htrace]
      exact h.trace_lt m l₀ hl₀
    · intro m m' l l' hl hl' heq
      obtain ⟨a, ha, hta, -, -⟩ := hold m l hl
      obtain ⟨b, hb, htb, -, -⟩ := hold m' l' hl'
      exact h.trace_inj m m' a b ha hb (by rw [← hta, ← htb, heq])
    · intro m l hl hlive
      obtain ⟨l₀, hl₀, htrace, hshape, hstill⟩ := hold m l hl
      obtain ⟨hlive₀, hne⟩ := hstill hlive
      obtain ⟨t, ht, hid, hfits⟩ := h.fits m l₀ hl₀ hlive₀
      refine ⟨t, List.mem_filter.mpr ⟨ht, ?_⟩, by rw [hid, htrace], by rwa [hshape]⟩
      -- two handles have no trace in common, so that this trace stays
      rw [bne_iff_ne, hid]
      exact fun heq => hne (h.trace_inj n m k l₀ hk hl₀ heq.symm)

theorem updateCurve (h : s.Coherent) (n : HandleId) : (s.updateCurve n).2.Coherent := by
  have hcurve : ∀ {s : Surface} (_ : s.Coherent) (f : Curve → Curve),
      (s.modify n (Handle.mapCurve f)).Coherent := by
    intro s h f
    refine h.modify fun k _ => ⟨Handle.trace_mapCurve f k, ?_⟩
    unfold Handle.mapCurve
    split
    · rename_i c hc
      exact ⟨rfl, by rw [hc]; exact trivial⟩
    · exact ⟨rfl, .refl _⟩
  unfold Surface.updateCurve
  split
  · exact h.update n
  · dsimp only
    split
    · exact h
    · split
      · exact hcurve h _
      · exact (hcurve (hcurve h _) _).update n

theorem resample (h : s.Coherent) (ns : List HandleId) : (Surface.resample ns s).2.Coherent :=
  resample_keeps (fun _ n hs => hs.updateCurve n) ns h

theorem setBounds (h : s.Coherent) (d : Contour.Domain Float) : (s.setBounds d).2.Coherent := by
  unfold Surface.setBounds
  split
  · exact h
  · have h' : { s.suspend with bounds := d }.Coherent := h.congr rfl rfl rfl
    exact (h'.resample _).resume

end Coherent

/-! ## Traces that are up to date -/

/-- The trace of a handle. -/
def trace? (s : Surface) (n : HandleId) : Option Trace :=
  (s.handle? n).bind fun h => s.figure.find? fun t => t.id == h.trace

/-- What can be seen of a handle. -/
def seen? (s : Surface) (n : HandleId) : Option Look :=
  (s.trace? n).bind fun t => if t.visible then some t.look else none

/-- What is to be seen of a handle once it is drawn. -/
def shape? (s : Surface) (n : HandleId) : Option Shape :=
  (s.handle? n).bind fun h => if h.visible then some h.shape else none

/-- The trace of a handle is up to date. -/
def Shown (s : Surface) (n : HandleId) : Prop :=
  ∀ h, s.handle? n = some h → h.removed = false →
    ∃ t ∈ s.figure, t.id = h.trace ∧ t.look = h.shape.look ∧ t.visible = h.visible

theorem handle?_draw (s : Surface) (n m : HandleId) : (s.draw n).handle? m = s.handle? m := by
  rw [handle?, handles_draw, handle?]

theorem shown_draw (h : s.Coherent) (n : HandleId) : (s.draw n).Shown n := by
  intro k hk hlive
  rw [handle?_draw] at hk
  obtain ⟨t, ht, hid, hfits⟩ := h.fits n k hk hlive
  refine ⟨k.render t, ?_, (k.id_render t).trans hid, k.look_render hfits, k.visible_render t⟩
  rw [draw, hk]
  simp only [hlive, Bool.false_eq_true, if_false]
  exact List.mem_map.mpr ⟨t, ht, by rw [if_pos hid]⟩

/-- Whatever is done to the trace of a handle, the traces of the others stay as they are. -/
theorem mem_repaint (h : s.Coherent) (hmn : m ≠ n) {k l : Handle} (hk : s.handle? m = some k)
    (hl : s.handle? n = some l) (f : Trace → Trace) {t : Trace} (ht : t ∈ s.figure)
    (hid : t.id = k.trace) : t ∈ s.figure.map fun t => if t.id = l.trace then f t else t := by
  refine List.mem_map.mpr ⟨t, ht, if_neg fun heq => ?_⟩
  exact hmn (h.trace_inj m n k l hk hl (hid.symm.trans heq))

/-- Drawing a handle leaves the traces of the others as they are. -/
theorem mem_figure_draw (h : s.Coherent) (hmn : m ≠ n) {k : Handle} (hk : s.handle? m = some k)
    {t : Trace} (ht : t ∈ s.figure) (hid : t.id = k.trace) : t ∈ (s.draw n).figure := by
  unfold draw
  split
  · rename_i l hl
    split
    · exact ht
    · exact mem_repaint h hmn hk hl _ ht hid
  · exact ht

/-- Drawing a handle keeps the other traces up to date. -/
theorem Shown.draw (hs : s.Shown m) (h : s.Coherent) (n : HandleId) : (s.draw n).Shown m := by
  by_cases hmn : m = n
  · rw [hmn]
    exact shown_draw h n
  · intro k hk hlive
    rw [handle?_draw] at hk
    obtain ⟨t, ht, hid, hlook, hvisible⟩ := hs k hk hlive
    exact ⟨t, mem_figure_draw h hmn hk ht hid, hid, hlook, hvisible⟩

/-- Drawing handles in turn brings the traces of all of them up to date. -/
theorem shown_foldl_draw (h : s.Coherent) {ns : List HandleId} (hn : n ∈ ns ∨ s.Shown n) :
    (ns.foldl Surface.draw s).Shown n := by
  induction ns generalizing s with
  | nil => exact hn.resolve_left List.not_mem_nil
  | cons m ns ih =>
    refine ih (h.draw m) ?_
    rcases hn with hmem | hs
    · rcases List.mem_cons.mp hmem with rfl | hmem
      · exact .inr (shown_draw h n)
      · exact .inl hmem
    · exact .inr (hs.draw h m)

/-- Working off the queue brings the traces of its handles up to date. -/
theorem shown_flush (h : s.Coherent) (hn : n ∈ s.queue) : s.flush.Shown n := by
  intro k hk hlive
  have hk' : (s.queue.foldl Surface.draw s).handle? n = some k := hk
  exact shown_foldl_draw h (.inl hn) k hk' hlive

/-- Of a handle that is up to date exactly its shape is seen, if it is visible. -/
theorem Shown.seen?_eq (hs : s.Shown n) (h : s.Coherent) {k : Handle} (hk : s.handle? n = some k)
    (hlive : k.removed = false) : s.seen? n = (s.shape? n).map Shape.look := by
  obtain ⟨t, ht, hid, hlook, hvisible⟩ := hs k hk hlive
  have hfind : s.figure.find? (fun t => t.id == k.trace) = some t := by
    cases hf : s.figure.find? (fun t => t.id == k.trace) with
    | none =>
      rw [List.find?_eq_none] at hf
      exact absurd (beq_iff_eq.mpr hid) (hf t ht)
    | some u =>
      have hu := List.mem_of_find?_eq_some hf
      have huid : u.id = k.trace := by simpa using List.find?_some hf
      rw [List.inj_on_of_nodup_map h.ids_nodup hu ht (by rw [huid, hid])]
  rw [seen?, trace?, shape?, hk, Option.bind_some, Option.bind_some, hfind, Option.bind_some,
    hvisible, hlook]
  split <;> rfl

end Surface
end Graphing
