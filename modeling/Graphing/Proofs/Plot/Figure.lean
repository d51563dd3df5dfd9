/-
  Graphing.Proofs.Plot.Figure

  What the figure shows after a plot.

  A trace of the figure is that of one handle of one piece of the plot, or it
  belongs to others.  The pieces show the picture of the relation, and of the
  others is to be seen what was to be seen before the plot.  So the figure as a
  whole depends on the relation, and on which pieces the plot is given, but not
  on how it uses them.
-/
import Graphing.Proofs.Plot.Enclosed

namespace Graphing

/-! ## Traces of handles -/

namespace Surface

variable {s : Surface} {k : HandleId} {t : Trace}

theorem Coherent.trace?_eq_some (h : s.Coherent) :
    s.trace? k = some t ↔ t ∈ s.figure ∧ ∃ l, s.handle? k = some l ∧ t.id = l.trace := by
  constructor
  · intro ht
    obtain ⟨l, hl, hfind⟩ := Option.bind_eq_some_iff.mp ht
    exact ⟨List.mem_of_find?_eq_some hfind, l, hl, by simpa using List.find?_some hfind⟩
  · rintro ⟨ht, l, hl, hid⟩
    rw [trace?, hl, Option.bind_some]
    cases hfind : s.figure.find? fun t => t.id == l.trace with
    | none => exact absurd (beq_iff_eq.mpr hid) (List.find?_eq_none.mp hfind t ht)
    | some u =>
      have huid : u.id = l.trace := by simpa using List.find?_some hfind
      rw [List.inj_on_of_nodup_map h.ids_nodup (List.mem_of_find?_eq_some hfind) ht
        (huid.trans hid.symm)]

/-- No trace belongs to two handles. -/
theorem Coherent.trace?_inj (h : s.Coherent) {j : HandleId} (hk : s.trace? k = some t)
    (hj : s.trace? j = some t) : k = j := by
  obtain ⟨-, l, hl, hid⟩ := h.trace?_eq_some.mp hk
  obtain ⟨-, l', hl', hid'⟩ := h.trace?_eq_some.mp hj
  exact h.trace_inj k j l l' hl hl' (hid.symm.trans hid')

theorem tag?_eq_some {tag : Nat × Bool} :
    s.tag? k = some tag ↔ ∃ l, s.handle? k = some l ∧ (l.trace, l.removed) = tag :=
  Option.map_eq_some_iff

end Surface

namespace Canvas

variable {c c' : Canvas} {n : PieceId} {ns : List PieceId} {own : Nat → Bool} {s₀ : Surface}

/-- Pieces that own their handles list each of them once. -/
theorem Owned.nodup_handles (h : c.Owned ns) : (ns.flatMap c.handles).Nodup := by
  refine List.nodup_flatMap.mpr ⟨fun n hn => ?_, ?_⟩
  · obtain ⟨p, hp⟩ := h.exists_piece n hn
    have hinj : ∀ (a b : Spot) k, a.get p = some k → b.get p = some k → a = b := by
      intro a b k ha hb
      exact (h.inj n hn n hn a b k ((spot?_of_piece hp a).trans ha)
        ((spot?_of_piece hp b).trans hb)).2
    have hhandles : c.handles n = Part.all.filterMap (Part.get p) ++ p.contours := by
      rw [handles, hp]
      rfl
    rw [hhandles, List.nodup_append]
    refine ⟨?_, ?_, fun k hk j hj hkj => ?_⟩
    · refine List.Nodup.filterMap (fun σ τ k hσ hτ => ?_) (by decide)
      cases hinj (.part σ) (.part τ) k hσ hτ
      rfl
    · rw [List.nodup_iff_getElem?_ne_getElem?]
      intro i j hij hj heq
      have hi := List.getElem?_eq_getElem (Nat.lt_trans hij hj)
      cases hinj (.contour i) (.contour j) _ hi (heq.symm.trans hi)
      exact absurd hij (Nat.lt_irrefl i)
    · subst hkj
      obtain ⟨σ, -, hσ⟩ := List.mem_filterMap.mp hk
      obtain ⟨i, hi⟩ := List.getElem?_of_mem hj
      cases hinj (.part σ) (.contour i) k hσ hi
  · refine h.nodup.imp_of_mem fun {m n} hm hn hmn => ?_
    show List.Disjoint (c.handles m) (c.handles n)
    intro k hk hk'
    obtain ⟨a, ha⟩ := mem_handles.mp hk
    obtain ⟨b, hb⟩ := mem_handles.mp hk'
    exact hmn (h.inj m hm n hn a b k ha hb).1

namespace Enclosed

/-- The owned traces of the figure, in some order, are those of the handles of the pieces. -/
theorem figure_perm (h : Enclosed own s₀ c ns) (howned : c.Owned ns) {s : Surface}
    (hs : c.surface.SameTags s) (hcoherent : s.Coherent) :
    (s.figure.filter fun t => own t.id).Perm ((ns.flatMap c.handles).filterMap s.trace?) := by
  refine (List.perm_ext_iff_of_nodup ?_ ?_).mpr fun t => ?_
  · exact (List.Nodup.of_map _ hcoherent.ids_nodup).filter _
  · exact howned.nodup_handles.filterMap fun k j t hk hj => hcoherent.trace?_inj hk hj
  · rw [List.mem_filter, List.mem_filterMap]
    constructor
    · rintro ⟨ht, hown⟩
      -- the figure had a trace of this number before, and a handle of a piece has it
      obtain ⟨u, hu, hid⟩ := List.mem_map.mp (hs.ids ▸ List.mem_map_of_mem ht)
      obtain ⟨n, hn, k, hk, htag⟩ := h.covered u hu (by rw [hid]; exact hown)
      obtain ⟨l, hl, hltag⟩ := Surface.tag?_eq_some.mp ((hs.tag k).trans htag)
      refine ⟨k, List.mem_flatMap.mpr ⟨n, hn, hk⟩, hcoherent.trace?_eq_some.mpr ⟨ht, l, hl, ?_⟩⟩
      rw [← hid]
      exact (congrArg Prod.fst hltag).symm
    · rintro ⟨k, hk, htrace⟩
      obtain ⟨n, hn, hk⟩ := List.mem_flatMap.mp hk
      obtain ⟨ht, l, hl, hid⟩ := hcoherent.trace?_eq_some.mp htrace
      refine ⟨ht, ?_⟩
      rw [hid]
      exact Surface.own_of_not_foreign
        ((Surface.foreign_eq_of_tag (hs.tag k)).trans (h.inside n hn k hk)) hl

/-- What the figure shows is what the pieces show, and what others show. -/
theorem seen_perm (h : Enclosed own s₀ c ns) (howned : c.Owned ns) {s : Surface}
    (hs : c.surface.SameTags s) (hcoherent : s.Coherent) :
    s.seen.Perm (({ c with surface := s } : Canvas).looks ns ++
      (s.others own).filterMap Trace.seen?) := by
  have hsplit := List.filter_append_perm (fun t : Trace => own t.id) s.figure
  refine (hsplit.symm.filterMap Trace.seen?).trans ?_
  rw [List.filterMap_append]
  refine List.Perm.append ?_ (.refl _)
  refine ((h.figure_perm howned hs hcoherent).filterMap Trace.seen?).trans ?_
  rw [List.filterMap_filterMap]
  exact .refl _

end Enclosed

/-! ## The beginning of a plot -/

/-- Whether a trace belongs to some pieces, or is yet to be made. -/
def owns (c : Canvas) (ns : List PieceId) (id : Nat) : Bool :=
  decide (c.surface.nextTrace ≤ id) ||
    (ns.flatMap c.handles).any fun k => (c.surface.tag? k).any fun tag => tag.1 == id

theorem Owned.enclosed (hcoherent : c.surface.Coherent) (h : c.Owned ns) :
    Enclosed (c.owns ns) c.surface c ns := by
  refine ⟨.refl _ _, fun id hid => ?_, fun n hn k hk => ?_, fun t ht hown => ?_⟩
  · rw [owns, decide_eq_true hid, Bool.true_or]
  · refine Surface.not_foreign_of_own fun l hl => ?_
    rw [owns, Bool.or_eq_true, List.any_eq_true]
    refine .inr ⟨k, List.mem_flatMap.mpr ⟨n, hn, hk⟩, ?_⟩
    rw [Surface.tag?_eq_some.mpr ⟨l, hl, rfl⟩]
    exact beq_self_eq_true l.trace
  · rw [owns, decide_eq_false (Nat.not_le_of_lt (hcoherent.id_lt t ht)), Bool.false_or,
      List.any_eq_true] at hown
    obtain ⟨k, hk, hany⟩ := hown
    obtain ⟨n, hn, hk⟩ := List.mem_flatMap.mp hk
    obtain ⟨a, ha⟩ := mem_handles.mp hk
    obtain ⟨l, hl, hlive, -⟩ := h.live n hn a k ha
    have htag : c.surface.tag? k = some (l.trace, false) :=
      Surface.tag?_eq_some.mpr ⟨l, hl, by rw [hlive]⟩
    rw [htag] at hany
    refine ⟨n, hn, k, hk, ?_⟩
    rw [htag, show l.trace = t.id from beq_iff_eq.mp hany]

theorem moves_foldl_hide (ks : List HandleId) (hks : ∀ k ∈ ks, k ∈ c.handles n) :
    Moves n c (c.onSurface fun s => ks.foldl Surface.hide s) := by
  induction ks generalizing c with
  | nil => exact .refl
  | cons k ks ih =>
    have hhide := moves_touch (hks k List.mem_cons_self)
      (Surface.touches_setVisible c.surface k false)
    exact hhide.trans (ih fun j hj => hks j (List.mem_cons_of_mem k hj))

theorem Enclosed.hidePiece (h : Enclosed own s₀ c ns) (hn : n ∈ ns) :
    Enclosed own s₀ (c.hidePiece n) ns :=
  (h.moves hn (moves_foldl_hide (c.handles n) fun _ hk => hk)).modify n quiet_deactivate.spot

/-- A plot begins with a change of its own traces only. -/
theorem Enclosed.begin (h : Enclosed own s₀ c ns) :
    Enclosed own s₀ (ns.foldl Canvas.hidePiece (c.onSurface Surface.suspend)) ns := by
  have hstart : Enclosed own s₀ (c.onSurface Surface.suspend) ns :=
    h.retag ⟨fun _ => rfl, rfl, rfl⟩ (.suspend c.surface)
  exact List.foldlRecOn (motive := fun c => Enclosed own s₀ c ns) ns Canvas.hidePiece hstart
    fun c hc n hn => hc.hidePiece hn

/-! ## One job after the other -/

/-- Where a plot is, with nothing but its own traces changed. -/
structure Confined (own : Nat → Bool) (s₀ : Surface) (p : Progress) : Prop where
  pooled : Pooled p
  enclosed : Enclosed own s₀ p.canvas (p.drawn ++ (p.pool ++ p.spare))

theorem Confined.run {p : Progress} (h : Confined own s₀ p) {f : Frame}
    (hf : p.canvas.surface.frame = f) {j : Job} (hj : j.OfPlot f) : Confined own s₀ (p.run j) := by
  refine ⟨(h.pooled.run hf hj).1, ?_⟩
  obtain ⟨family, Notes, huses⟩ := hj.lawful.uses p.canvas _ (h.pooled.exists_piece j.kind)
  have hall := p.groups_perm j.kind
  unfold Progress.run
  rw [p.take_eq j.kind]
  generalize (p.take j.kind).2.pool = pool at hall ⊢
  generalize (p.take j.kind).1 = existing at hall huses ⊢
  generalize j.draw p.canvas existing = outcome at huses ⊢
  have hdrawn := (h.enclosed.perm fun m => hall.mem_iff).uses huses
  obtain ⟨result, c'⟩ := outcome
  cases result with
  | ok n =>
    refine Enclosed.perm hdrawn fun m => ?_
    show m ∈ n :: (p.drawn ++ (pool ++ p.spare)) ↔ m ∈ (p.drawn ++ [n]) ++ (pool ++ p.spare)
    simp only [List.mem_cons, List.mem_append, List.not_mem_nil, or_false]
    tauto
  | error e =>
    refine Enclosed.perm hdrawn fun m => ?_
    show m ∈ existing.toList ++ (p.drawn ++ (pool ++ p.spare)) ↔
      m ∈ p.drawn ++ (pool ++ (p.spare ++ existing.toList))
    simp only [List.mem_append]
    tauto

/-! ## Whole plots -/

/-- Once all suspensions have ended, the pieces show what was sketched. -/
theorem Sketched.settle {f : Frame} {d : Nat} {p : Progress} {sketches : List Sketch}
    (h : Sketched f (d + 1) p sketches) :
    ({ p.canvas with surface := p.canvas.surface.settle } : Canvas).looks p.groups =
      sketches.flatMap fun s => s.shapes.map Shape.look := by
  let s : Surface := { p.canvas.surface with depth := 1 }
  have hsettle : p.canvas.surface.settle = s.resume := by
    rw [Surface.settle_eq fun hdepth => absurd hdepth h.plot.suspended, Surface.resume_of_depth rfl]
  -- the number of suspensions does not matter to what is queued
  have hlast : Sketched f 1 { p with canvas := { p.canvas with surface := s } } sketches := by
    have howned := h.plot.owned
    refine ⟨⟨h.plot.coherent.congr rfl rfl rfl, Nat.one_ne_zero, ?_, h.plot.queued⟩, h.frame, rfl,
      h.blank, h.shows⟩
    exact ⟨howned.nodup, howned.exists_piece, howned.live, howned.inj, howned.implicit⟩
  rw [hsettle]
  exact hlast.resume.2.2

/-- At the end of a plot the figure shows what was sketched, and beside it what others show. -/
theorem Confined.seen_resume {f : Frame} {d : Nat} {p : Progress} {sketches : List Sketch}
    (h : Confined own s₀ p) (hp : Sketched f (d + 1) p sketches)
    (hidle : s₀.depth = 0 → s₀.queue = []) :
    p.canvas.surface.resume.settle.seen.Perm
      (sketches.flatMap (fun s => s.shapes.map Shape.look) ++
        (s₀.settle.others own).filterMap Trace.seen?) := by
  have hsuspended := hp.plot.suspended
  have hwaits : p.canvas.surface.depth = 0 → p.canvas.surface.queue = [] := fun hdepth =>
    absurd hdepth hsuspended
  let s : Surface := { p.canvas.surface with depth := 0 }
  have hflush : p.canvas.surface.settle = s.flush := Surface.settle_eq hwaits
  have hsame : p.canvas.surface.SameTags s := ⟨fun _ => rfl, rfl, rfl⟩
  have htags : p.canvas.surface.SameTags s.flush := hsame.trans (.flush s)
  have hcoherent : s.Coherent := hp.plot.coherent.congr rfl rfl rfl
  rw [Surface.settle_resume hsuspended, ← hp.settle,
    ← h.enclosed.same.settle hidle hwaits, hflush]
  exact h.enclosed.seen_perm hp.plot.owned htags hcoherent.flush

section

variable {options : PlotOptions} {style : PlotStyle}
  (hstyle : PlotStyle.ofOptions? options.style = .ok style)

include hstyle

/-- After a plot the figure shows the picture of the relation, and beside it what others show. -/
theorem Owned.plot_seen (hcoherent : c.surface.Coherent)
    (hidle : c.surface.depth = 0 → c.surface.queue = []) (h : c.Owned ns) (relation : List Char)
    {holes : List Float} (hholes : holeValues (segmentsOf relation options.name) = .ok holes) :
    ∃ r c', c.plot relation options ns = (.ok r, c') ∧ c'.surface.depth = c.surface.depth ∧
      c'.surface.settle.seen.Perm
        ((c.surface.frame.picture style holes options.fast
            (segmentsOf relation options.name)).flatMap (fun s => s.shapes.map Shape.look) ++
          (c.surface.settle.others (c.owns ns)).filterMap Trace.seen?) := by
  have hsketched := h.start hcoherent
  have hconfined : Confined (c.owns ns) c.surface (.start c ns) :=
    ⟨⟨hsketched.plot, hsketched.blank⟩, (h.enclosed hcoherent).begin.perm fun n => by
      simp [Progress.start]⟩
  obtain ⟨shown, marked, heq, ⟨hshown, -⟩, hmarked, hend⟩ := plot_rec hstyle c relation ns hholes
    (P := fun p done => Sketched c.surface.frame (c.surface.depth + 1) p (sketchesOf done) ∧
      Confined (c.owns ns) c.surface p)
    ⟨hsketched, hconfined⟩ fun _ _ _ hj hf hp => ⟨hp.1.run hj, hp.2.run hf hj⟩
  rw [hshown.picture] at hmarked
  refine ⟨_, _, heq, ?_, hend.seen_resume hmarked hidle⟩
  exact (Surface.depth_resume _).trans (congrArg (· - 1) hmarked.depth)

end

end Canvas

end Graphing
