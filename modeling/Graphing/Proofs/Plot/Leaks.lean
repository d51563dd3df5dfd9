/-
  Graphing.Proofs.Plot.Leaks

  Which pieces own the handles that a chain of plots made.

  Along a chain of plots, each of which is given the pieces of the latest one
  that succeeded, every handle that was made and not removed is found at a spot
  of a piece (`Accounted`).  Drawing one segment after the other keeps this,
  also where a segment cannot be drawn, or the plot as a whole.  But a plot
  that the figure refuses at its end returns none of the pieces that it made:
  those are lost, and their traces stay.  The figure refuses none of the plots
  if it takes their colors, and then nothing is lost.
-/
import Graphing.Proofs.Plot.Painted
import Graphing.Proofs.Plot.Progress
import Graphing.Proofs.Plot.Sound
import Graphing.Proofs.Plot.Tending

namespace Graphing.Canvas

variable {c c' : Canvas} {ns ms : List PieceId} {n : PieceId} {base : HandleId} {first : Nat}

/-! ## Pieces that are not drawn with -/

/-- A surface with the same handles. -/
theorem Owned.congr {s : Surface} (h : c.Owned ns) (hs : ∀ k, s.handle? k = c.surface.handle? k) :
    ({ c with surface := s } : Canvas).Owned ns where
  nodup := h.nodup
  exists_piece := h.exists_piece
  live n hn a k hk := by
    obtain ⟨l, hl, hlive⟩ := h.live n hn a k hk
    exact ⟨l, (hs k).trans hl, hlive⟩
  inj := h.inj
  implicit := h.implicit

/-- Pieces without handles own all of them. -/
theorem Owned.of_bare {ns' : List PieceId} (h : c.Owned ns) (hnodup : ns'.Nodup)
    (hlt : ∀ n ∈ ns', n < c.pieces.size)
    (hns' : ∀ n ∈ ns', n ∈ ns ∨ ∀ a, c.spot? n a = none) : c.Owned ns' := by
  have hmem : ∀ n ∈ ns', ∀ a k, c.spot? n a = some k → n ∈ ns := fun n hn a k hk =>
    (hns' n hn).resolve_right fun hbare => nomatch (hbare a).symm.trans hk
  refine ⟨hnodup, fun n hn => ⟨_, Array.getElem?_eq_getElem (hlt n hn)⟩,
    fun n hn a k hk => h.live n (hmem n hn a k hk) a k hk,
    fun m hm n hn a b k ha hb => h.inj m (hmem m hm a k ha) n (hmem n hn b k hb) a b k ha hb,
    fun n hn p hp hne => ?_⟩
  obtain ⟨k, hk⟩ := List.exists_mem_of_ne_nil _ hne
  obtain ⟨i, hi⟩ := List.getElem?_of_mem hk
  have hspot : c.spot? n (.contour i) = some k := (spot?_of_piece hp _).trans hi
  exact h.implicit n (hmem n hn _ k hspot) p hp hne

/-- What is drawn with one piece leaves pieces that are set aside with their handles. -/
theorem Owned.spare {ns' : List PieceId} (h : c.Owned (ns ++ ms)) (hs : Spares n c c')
    (hns' : c'.Owned ns') (hsub : ∀ m ∈ ns', m ≠ n → m ∈ ns)
    (hn : n ∈ ns ∨ c.piece? n = none) : c'.Owned (ns' ++ ms) := by
  have hleft : ∀ {m}, m ∈ ns → m ∈ ns ++ ms := fun hm => List.mem_append_left _ hm
  have hright : ∀ {m}, m ∈ ms → m ∈ ns ++ ms := fun hm => List.mem_append_right _ hm
  have hdisjoint : ∀ m ∈ ms, m ∉ ns := fun m hm hmem =>
    (List.nodup_append.mp h.nodup).2.2 m hmem m hm rfl
  have hne : ∀ m ∈ ms, m ≠ n := by
    rintro m hm rfl
    obtain ⟨p, hp⟩ := h.exists_piece m (hright hm)
    exact hn.elim (hdisjoint m hm) fun hnone => nomatch hp.symm.trans hnone
  have hspot : ∀ m, m ≠ n → ∀ a, c'.spot? m a = c.spot? m a := fun m hm a => by
    rw [spot?, hs.piece m hm, spot?]
  -- the piece that is drawn with had no handle of those that are set aside
  have hapart : ∀ m ∈ ms, ∀ a k, c.spot? m a = some k → k ∉ c.handles n := by
    intro m hm a k hk hmem
    obtain ⟨b, hb⟩ := mem_handles.mp hmem
    rcases hn with hn | hnone
    · exact hne m hm (h.inj m (hright hm) n (hleft hn) a b k hk hb).1
    · rw [spot?, hnone] at hb
      cases hb
  have hlt : ∀ m ∈ ms, ∀ a k, c.spot? m a = some k → k < c.surface.handles.size := by
    intro m hm a k hk
    obtain ⟨l, hl, -⟩ := h.live m (hright hm) a k hk
    exact Surface.handle?_lt hl
  have hcross : ∀ m ∈ ms, ∀ m' ∈ ns', ∀ a b k, c'.spot? m a = some k → c'.spot? m' b ≠ some k := by
    intro m hm m' hm' a b k ha hb
    rw [hspot m (hne m hm)] at ha
    by_cases hmn : m' = n
    · subst hmn
      rcases hs.spot k (mem_handles.mpr ⟨b, hb⟩) with hmem | hle
      · exact hapart m hm a k ha hmem
      · exact absurd (hlt m hm a k ha) (Nat.not_lt_of_le hle)
    · rw [hspot m' hmn] at hb
      have hmem := hsub m' hm' hmn
      obtain rfl := (h.inj m (hright hm) m' (hleft hmem) a b k ha hb).1
      exact hdisjoint m hm hmem
  refine ⟨?_, fun m hm => ?_, fun m hm a k hk => ?_, fun m hm m' hm' a b k ha hb => ?_,
    fun m hm p hp => ?_⟩
  · refine List.nodup_append.mpr ⟨hns'.nodup, (List.nodup_append.mp h.nodup).2.1, ?_⟩
    rintro m hm m' hm' rfl
    exact hdisjoint m hm' (hsub m hm (hne m hm'))
  · rcases List.mem_append.mp hm with hm | hm
    · exact hns'.exists_piece m hm
    · rw [hs.piece m (hne m hm)]
      exact h.exists_piece m (hright hm)
  · rcases List.mem_append.mp hm with hm | hm
    · exact hns'.live m hm a k hk
    · rw [hspot m (hne m hm)] at hk
      rw [hs.handle k (hlt m hm a k hk) (hapart m hm a k hk)]
      exact h.live m (hright hm) a k hk
  · rcases List.mem_append.mp hm with hm | hm <;> rcases List.mem_append.mp hm' with hm' | hm'
    · exact hns'.inj m hm m' hm' a b k ha hb
    · exact absurd ha (hcross m' hm' m hm b a k hb)
    · exact absurd hb (hcross m hm m' hm' a b k ha)
    · rw [hspot m (hne m hm)] at ha
      rw [hspot m' (hne m' hm')] at hb
      exact h.inj m (hright hm) m' (hright hm') a b k ha hb
  · rcases List.mem_append.mp hm with hm | hm
    · exact hns'.implicit m hm p hp
    · rw [hs.piece m (hne m hm)] at hp
      exact h.implicit m (hright hm) p hp

/-! ## One job after the other -/

/-- A job is done with one piece: a piece of the plot, or a new one. If a new one is given up, it has
no handles. -/
structure DrawnWith (n : PieceId) (p p' : Progress) : Prop where
  spares : Spares n p.canvas p'.canvas
  tends : Tends n p.canvas p'.canvas
  here : n ∈ p.groups ∨ n = p.canvas.pieces.size
  left : n ∈ p'.groups ∨ ∀ a, p'.canvas.spot? n a = none
  kept : ∀ m ∈ p.groups, m ∈ p'.groups
  fresh : ∀ m ∈ p'.groups, m ∈ p.groups ∨ m = n

theorem Pooled.drawnWith {p : Progress} (h : Pooled p) {f : Frame}
    (hf : p.canvas.surface.frame = f) {j : Job} (hj : j.OfPlot f) :
    ∃ n, DrawnWith n p (p.run j) := by
  have hexisting := h.exists_piece j.kind
  obtain ⟨family, Notes, huses⟩ := hj.lawful.uses p.canvas _ hexisting
  have hresult := (hj.lawful.follows p.canvas (p.take j.kind).1 hf).result
  have htends := huses.tends hexisting
  have hspares := huses.spares
  have hall := p.groups_perm j.kind
  have hgroups := p.groups_run hj.lawful hf
  rw [← p.canvas_run] at htends hspares
  have hcanvas := p.canvas_run j
  generalize p.run j = p' at *
  generalize (p.take j.kind).1 = existing at *
  refine ⟨_, hspares, htends, ?_, ?_, fun m hm => ?_, fun m hm => ?_⟩
  -- the piece that was taken out of the pool goes back to it, or to those that were drawn
  · cases existing with
    | none => exact .inr rfl
    | some m => exact .inl (hall.mem_iff.mpr List.mem_cons_self)
  · cases existing with
    | some m => exact .inl (hgroups.mem_iff.mpr (List.mem_append_left _
        (hall.mem_iff.mpr List.mem_cons_self)))
    | none =>
      cases hsketch : j.sketch with
      | ok s =>
        rw [hsketch, if_pos ⟨rfl, rfl⟩] at hgroups
        exact .inl (hgroups.mem_iff.mpr (List.mem_append_right _ (List.mem_singleton_self _)))
      | error e =>
        -- a new piece is given up when nothing was drawn with it
        rw [hsketch] at hresult
        rw [hcanvas]
        exact .inr (huses.bare hresult)
  · exact hgroups.mem_iff.mpr (List.mem_append_left _ hm)
  · refine (List.mem_append.mp (hgroups.mem_iff.mp hm)).imp_right fun hm => ?_
    split at hm
    · rename_i hnew
      rw [hnew.1]
      exact List.mem_singleton.mp hm
    · cases hm

/-- Where a plot is, with every handle accounted for: it is with the pieces of the plot or with those
that were lost before. -/
structure Owning (base : HandleId) (first : Nat) (start : Nat) (previous lost : List PieceId)
    (p : Progress) : Prop where
  pooled : Pooled p
  owned : p.canvas.Owned (p.groups ++ lost)
  kept : ∀ n ∈ previous, n ∈ p.groups
  fresh : ∀ n ∈ p.groups, n ∈ previous ∨ start ≤ n
  /-- A piece that was made for nothing has no handles. -/
  bare : ∀ n, start ≤ n → n ∉ p.groups → ∀ a, p.canvas.spot? n a = none
  start_le : start ≤ p.canvas.pieces.size
  held : ∀ k, base ≤ k → p.canvas.surface.Live k →
    ∃ n ∈ p.groups ++ lost, ∃ a, p.canvas.spot? n a = some k
  tidy : p.canvas.surface.Tidy base first

namespace Owning

variable {start : Nat} {previous lost : List PieceId} {p : Progress}

/-- A job is done with a piece of the pool, or with a new one. -/
theorem run (h : Owning base first start previous lost p) {f : Frame}
    (hf : p.canvas.surface.frame = f) {j : Job} (hj : j.OfPlot f) :
    Owning base first start previous lost (p.run j) := by
  obtain ⟨n, hn⟩ := h.pooled.drawnWith hf hj
  have hpooled := (h.pooled.run hf hj).1
  generalize p.run j = p' at hn hpooled ⊢
  have hspot : ∀ m, m ≠ n → ∀ a, p'.canvas.spot? m a = p.canvas.spot? m a := fun m hm a => by
    rw [spot?, hn.spares.piece m hm, spot?]
  refine ⟨hpooled, ?_, fun m hm => hn.kept m (h.kept m hm), fun m hm => ?_, fun m hle hm a => ?_,
    Nat.le_trans h.start_le hn.spares.pieces, fun k hbase hk => ?_, hn.tends.tidy _ _ h.tidy⟩
  · refine h.owned.spare hn.spares hpooled.plot.owned
      (fun m hm hne => (hn.fresh m hm).resolve_right hne) (hn.here.imp_right ?_)
    rintro rfl
    exact Array.getElem?_eq_none (Nat.le_refl _)
  · rcases hn.fresh m hm with hm | rfl
    · exact h.fresh m hm
    · exact hn.here.elim (h.fresh m) fun heq => .inr (heq ▸ h.start_le)
  · by_cases hmn : m = n
    · subst hmn
      exact hn.left.resolve_left hm a
    · rw [hspot m hmn]
      exact h.bare m hle (fun hmem => hm (hn.kept m hmem)) a
  · rcases hn.tends.live k hk with ⟨a, ha⟩ | ⟨hold, hnot⟩
    · refine ⟨n, List.mem_append_left _ (hn.left.resolve_right fun hbare => ?_), a, ha⟩
      cases (hbare a).symm.trans ha
    · -- a handle that another piece owned stays with that piece
      obtain ⟨m, hm, a, ha⟩ := h.held k hbase hold
      have hmn : m ≠ n := by
        rintro rfl
        exact hnot a ha
      refine ⟨m, ?_, a, (hspot m hmn a).trans ha⟩
      exact List.mem_append.mpr ((List.mem_append.mp hm).imp_left (hn.kept m))

end Owning

/-! ## Chains of plots -/

/-- Where a chain of plots is. -/
structure Chain where
  canvas : Canvas
  /-- What the latest plot returned that did not fail. -/
  latest : List PieceId := []
  /-- What was made by plots that failed. -/
  lost : List PieceId := []

namespace Chain

/-- One more plot, with the latest pieces. If it fails, then the pieces that it made are not
returned. -/
def plot (v : Validator) (s : Chain) (relation : List Char) (options : PlotOptions) : Chain :=
  match s.canvas.plotOn v relation options s.latest with
  | (.ok r, c) => { s with canvas := c, latest := r.pieces }
  | (.error _, c) =>
    let start := s.canvas.pieces.size
    { s with canvas := c, lost := s.lost ++ List.range' start (c.pieces.size - start) }

/-- Several plots in turn on a canvas. -/
def after (v : Validator) (c : Canvas) (plots : List (List Char × PlotOptions)) : Chain :=
  plots.foldl (fun s p => s.plot v p.1 p.2) { canvas := c }

/-- The latest pieces and those that were lost own their handles, and among these is every live
handle from a certain number on. -/
structure Accounted (base : HandleId) (first : Nat) (s : Chain) : Prop where
  coherent : s.canvas.surface.Coherent
  owned : s.canvas.Owned (s.latest ++ s.lost)
  held : ∀ k, base ≤ k → s.canvas.surface.Live k →
    ∃ n ∈ s.latest ++ s.lost, ∃ a, s.canvas.spot? n a = some k
  tidy : s.canvas.surface.Tidy base first

/-- A chain begins without pieces. -/
theorem accounted_start (h : c.surface.Coherent) :
    Accounted c.surface.handles.size c.surface.nextTrace { canvas := c } where
  coherent := h
  owned := .nil c
  held k hbase hk := by
    obtain ⟨l, hl, -⟩ := hk
    exact absurd (Surface.handle?_lt hl) (Nat.not_lt_of_le hbase)
  tidy := h.tidy

/-- Hiding pieces makes no handle. -/
theorem adds_foldl_hidePiece (ns : List PieceId) (c : Canvas) :
    Surface.Adds (fun _ => False) c.surface (ns.foldl hidePiece c).surface := by
  have hhide : ∀ (ks : List HandleId) (s : Surface),
      Surface.Adds (fun _ => False) s (ks.foldl Surface.hide s) := by
    intro ks
    induction ks with
    | nil => exact fun s => .refl s
    | cons k ks ih => exact fun s => (Surface.Adds.setVisible s k false).trans (ih _)
  induction ns generalizing c with
  | nil => exact .refl _
  | cons n ns ih => exact Surface.Adds.trans (hhide (c.handles n) c.surface) (ih (c.hidePiece n))

theorem pieces_start (c : Canvas) (ns : List PieceId) :
    (Progress.start c ns).canvas.pieces.size = c.pieces.size :=
  foldl_keeps (f := hidePiece) (fun c : Canvas => c.pieces.size) (fun _ n => size_modify _ n _) ns
    (c.onSurface Surface.suspend)

namespace Accounted

variable {s : Chain}

/-- A plot begins with all handles accounted for. -/
theorem begin (h : s.Accounted base first) :
    Owning base first s.canvas.pieces.size s.latest s.lost (.start s.canvas s.latest) := by
  obtain ⟨hplot, hblank, -⟩ :=
    (h.owned.sublist (List.sublist_append_left _ _)).begin h.coherent
  have hhiding : (s.canvas.onSurface Surface.suspend).Hiding (s.latest ++ s.lost) [] :=
    ⟨h.coherent.congr rfl rfl rfl, Nat.succ_ne_zero _, h.owned.congr fun _ => rfl,
      fun _ hk => nomatch hk⟩
  obtain ⟨_, hhidden, -, -, hspot⟩ :=
    hhiding.foldl_hidePiece s.latest fun _ hn => List.mem_append_left _ hn
  have hgroups : (Progress.start s.canvas s.latest).groups = s.latest :=
    Progress.groups_start s.canvas s.latest
  have hsize := pieces_start s.canvas s.latest
  have hadds : Surface.Adds (fun _ => False) s.canvas.surface
      (Progress.start s.canvas s.latest).canvas.surface :=
    .trans (.suspend _) (adds_foldl_hidePiece s.latest (s.canvas.onSurface Surface.suspend))
  refine ⟨⟨?_, ?_⟩, ?_, fun n hn => ?_, fun n hn => ?_, fun n hle _ a => ?_, Nat.le_of_eq hsize.symm,
    fun k hbase hk => ?_, hadds.tidy base first h.tidy⟩
  · show InPlot _ (Progress.groups _)
    rw [hgroups]
    exact hplot
  · intro n hn
    exact hblank n (hgroups ▸ List.mem_append_right _ hn)
  · rw [hgroups]
    exact hhidden.owned
  · rw [hgroups]
    exact hn
  · rw [hgroups] at hn
    exact .inl hn
  · rw [spot?, piece?, Array.getElem?_eq_none (hsize.trans_le hle)]
    rfl
  · obtain ⟨n, hn, a, ha⟩ := h.held k hbase ((hadds.live k hk).resolve_right id)
    refine ⟨n, ?_, a, (hspot n a).trans ha⟩
    rw [hgroups]
    exact hn

end Accounted

/-- Numbers from one on are new to numbers below it. -/
theorem nodup_append_range' {ns : List Nat} {start : Nat} (h : ns.Nodup) (hlt : ∀ n ∈ ns, n < start)
    (count : Nat) : (ns ++ List.range' start count).Nodup := by
  refine List.nodup_append.mpr ⟨h, List.nodup_range', ?_⟩
  rintro n hn m hm rfl
  exact absurd (hlt n hn) (Nat.not_lt_of_le (List.mem_range'_1.mp hm).1)

section

variable {start : Nat} {previous lost : List PieceId} {p : Progress}
  (h : Owning base first start previous lost p) (v : Validator)

include h

/-- A plot that ends well returns its pieces. -/
theorem accounted_of_returned :
    Accounted base first
      { canvas := p.canvas.onSurface fun s => (s.resumeOn v).2, latest := p.groups, lost } where
  coherent := h.pooled.plot.coherent.resumeOn v
  owned := h.owned.congr (Surface.handle?_resumeOn v _)
  held k hbase hk :=
    h.held k hbase (((Surface.Adds.resumeOn (fun _ => False) v _).live k hk).resolve_right id)
  tidy := (Surface.Adds.resumeOn (fun _ => False) v _).tidy base first h.tidy

/-- If a plot fails, then all pieces that it made are lost. -/
theorem accounted_of_failed (hnodup : (previous ++ lost).Nodup)
    (hlt : ∀ n ∈ previous ++ lost, n < start) :
    Accounted base first
      { canvas := p.canvas.onSurface fun s => (s.resumeOn v).2
        latest := previous
        lost := lost ++ List.range' start (p.canvas.pieces.size - start) } := by
  have hreturned := accounted_of_returned h v
  have hmade : ∀ n, n ∈ List.range' start (p.canvas.pieces.size - start) ↔
      start ≤ n ∧ n < p.canvas.pieces.size := fun n => by
    rw [List.mem_range'_1]
    have := h.start_le
    omega
  refine ⟨hreturned.coherent, ?_, fun k hbase hk => ?_, hreturned.tidy⟩
  · refine hreturned.owned.of_bare ?_ (fun n hn => ?_) fun n hn => ?_
    · show (previous ++ (lost ++ List.range' start (p.canvas.pieces.size - start))).Nodup
      rw [← List.append_assoc]
      exact nodup_append_range' hnodup hlt _
    · rw [← List.append_assoc] at hn
      exact (List.mem_append.mp hn).elim (fun hn => Nat.lt_of_lt_of_le (hlt n hn) h.start_le)
        fun hn => ((hmade n).mp hn).2
    · rcases List.mem_append.mp hn with hn | hn
      · exact .inl (List.mem_append_left _ (h.kept n hn))
      rcases List.mem_append.mp hn with hn | hn
      · exact .inl (List.mem_append_right _ hn)
      · -- a piece that was made and is not one of the plot has no handles
        by_cases hmem : n ∈ p.groups
        · exact .inl (List.mem_append_left _ hmem)
        · exact .inr (h.bare n ((hmade n).mp hn).1 hmem)
  · obtain ⟨n, hn, a, ha⟩ := hreturned.held k hbase hk
    refine ⟨n, ?_, a, ha⟩
    obtain ⟨q, hq⟩ := hreturned.owned.exists_piece n hn
    show n ∈ previous ++ (lost ++ _)
    rcases List.mem_append.mp hn with hn | hn
    · rcases h.fresh n hn with hn | hle
      · exact List.mem_append_left _ hn
      · exact List.mem_append_right _ (List.mem_append_right _
          ((hmade n).mpr ⟨hle, (Array.getElem?_eq_some_iff.mp hq).1⟩))
    · exact List.mem_append_right _ (List.mem_append_left _ hn)

end

/-- A plot keeps all handles accounted for. -/
theorem Accounted.plot {s : Chain} (h : s.Accounted base first) (v : Validator)
    (relation : List Char) (options : PlotOptions) :
    (s.plot v relation options).Accounted base first := by
  unfold Chain.plot
  cases hstyle : PlotStyle.ofOptions? options.style with
  | error e =>
    rw [plotOn, hstyle]
    dsimp only
    rw [Nat.sub_self, List.range'_zero, List.append_nil]
    exact h
  | ok style =>
    have hlt : ∀ n ∈ s.latest ++ s.lost, n < s.canvas.pieces.size := fun n hn => by
      obtain ⟨p, hp⟩ := h.owned.exists_piece n hn
      exact (Array.getElem?_eq_some_iff.mp hp).1
    rw [plotOn_eq hstyle s.canvas relation s.latest v]
    cases hholes : holeValues (segmentsOf relation options.name) with
    | error hole =>
      rw [plotWithin_eq_of_untold s.canvas relation s.latest hholes]
      have hfailed := accounted_of_failed h.begin v h.owned.nodup hlt
      dsimp only
      cases (Progress.start s.canvas s.latest).canvas.surface.endsWell v <;> exact hfailed
    | ok holes =>
      obtain ⟨-, marked, heq, -, hmarked⟩ := plotWithin_rec s.canvas relation s.latest style
        hholes (P := fun p _ => Owning base first s.canvas.pieces.size s.latest s.lost p) h.begin
        fun _ _ _ hj hf hp => hp.run hf hj
      rw [heq]
      dsimp only
      cases marked.canvas.surface.endsWell v with
      | true => exact accounted_of_returned hmarked v
      | false => exact accounted_of_failed hmarked v h.owned.nodup hlt

theorem accounted_after (h : c.surface.Coherent) (v : Validator)
    (plots : List (List Char × PlotOptions)) :
    Accounted c.surface.handles.size c.surface.nextTrace (after v c plots) :=
  List.foldlRecOn (motive := Accounted c.surface.handles.size c.surface.nextTrace) plots _
    (accounted_start h) fun _ hs p _ => hs.plot v p.1 p.2

/-- A plot that its options or its excluded values stop has made no piece. -/
theorem pieces_plot_of_error {relation : List Char} {options : PlotOptions} {previous : List PieceId}
    {e : PlotFault} (h : (c.plot relation options previous).1 = .error e) :
    (c.plot relation options previous).2.pieces.size = c.pieces.size := by
  cases hstyle : PlotStyle.ofOptions? options.style with
  | error e => rw [plot_of_style_error hstyle]
  | ok style =>
    cases hholes : holeValues (segmentsOf relation options.name) with
    | error hole =>
      rw [plot_eq_of_untold hstyle c relation previous hholes]
      exact pieces_start c previous
    | ok holes =>
      rw [plot_eq_of_jobs hstyle c relation previous hholes] at h
      cases h

/-- Nothing is lost if the figure takes the colors of all plots. -/
theorem lost_after {v : Validator} (hv : v.Usual) {plots : List (List Char × PlotOptions)}
    (hplots : ∀ p ∈ plots, v.color (p.2.style.color.getD PlotStyle.usual.color) = true)
    (hc : c.Painted v) : (after v c plots).lost = [] := by
  suffices h : (after v c plots).canvas.Painted v ∧ (after v c plots).lost = [] from h.2
  refine List.foldlRecOn (motive := fun s : Chain => s.canvas.Painted v ∧ s.lost = []) plots _
    ⟨hc, rfl⟩ fun s hs p hp => ?_
  obtain ⟨heq, hpainted⟩ := plotOn_eq_plot hs.1 hv (hplots p hp) p.1 s.latest
  have hnone : ∀ e, (s.canvas.plotOn v p.1 p.2 s.latest).1 = .error e →
      (s.canvas.plotOn v p.1 p.2 s.latest).2.pieces.size = s.canvas.pieces.size := by
    rw [heq]
    exact fun e => pieces_plot_of_error
  unfold Chain.plot
  generalize s.canvas.plotOn v p.1 p.2 s.latest = outcome at hpainted hnone ⊢
  obtain ⟨e | r, c'⟩ := outcome
  · refine ⟨hpainted, ?_⟩
    dsimp only
    rw [hnone e rfl, Nat.sub_self, List.range'_zero, List.append_nil]
    exact hs.2
  · exact ⟨hpainted, hs.2⟩

end Chain

/-! ## Removing pieces -/

/-- Removing pieces removes their handles. -/
theorem live_foldl_removePiece (ns : List PieceId) {k : HandleId}
    (hk : (ns.foldl removePiece c).surface.Live k) :
    c.surface.Live k ∧ ∀ n ∈ ns, k ∉ c.handles n := by
  induction ns generalizing c with
  | nil => exact ⟨hk, fun n hn => absurd hn List.not_mem_nil⟩
  | cons m ns ih =>
    obtain ⟨hlive, hrest⟩ := ih hk
    obtain ⟨hold, hnot⟩ := Surface.live_foldl_remove _ hlive
    refine ⟨hold, fun n hn => ?_⟩
    by_cases hnm : n = m
    · rw [hnm]
      exact hnot
    · -- the handles of the other pieces are still there when their turn comes
      have hsame : (c.removePiece m).handles n = c.handles n := by
        rw [handles, removePiece, piece?_modify, if_neg (Ne.symm hnm)]
        rfl
      rw [← hsame]
      exact hrest n ((List.mem_cons.mp hn).resolve_left hnm)

/-- A handle of none of the pieces is not removed. -/
theorem handle?_foldl_removePiece (ns : List PieceId) {k : HandleId}
    (hk : ∀ n ∈ ns, k ∉ c.handles n) :
    (ns.foldl removePiece c).surface.handle? k = c.surface.handle? k := by
  induction ns generalizing c with
  | nil => rfl
  | cons m ns ih =>
    refine (ih fun n hn hmem => ?_).trans
      (Surface.handle?_foldl_remove _ (hk m List.mem_cons_self))
    by_cases hnm : m = n
    · -- the piece has no handles any more
      rw [handles, removePiece, piece?_modify, if_pos hnm] at hmem
      cases hp : (c.onSurface fun s => (c.handles m).foldl Surface.remove s).piece? n <;>
        rw [hp] at hmem <;> cases hmem
    · rw [handles, removePiece, piece?_modify, if_neg hnm] at hmem
      exact hk n (List.mem_cons_of_mem _ hn) hmem

theorem coherent_foldl_removePiece (h : c.surface.Coherent) (ns : List PieceId) :
    (ns.foldl removePiece c).surface.Coherent :=
  List.foldlRecOn ns removePiece (motive := fun c : Canvas => c.surface.Coherent) h
    fun d hd n _ => Surface.coherent_foldl_remove hd (d.handles n)

theorem adds_foldl_removePiece (ns : List PieceId) (c : Canvas) :
    Surface.Adds (fun _ => False) c.surface (ns.foldl removePiece c).surface := by
  induction ns generalizing c with
  | nil => exact .refl _
  | cons n ns ih =>
    exact Surface.Adds.trans (.foldl_remove c.surface (c.handles n)) (ih (c.removePiece n))

/-! ## What is owned, and what is lost -/

namespace Chain

/-- After any plots on a surface, each with the pieces of the latest one that did not fail: every
handle that they made and did not remove is at exactly one spot of exactly one piece, which is one of
the latest pieces, or one that was lost when the figure refused a plot; and none of these pieces owns
a removed handle. If the latest pieces are removed, then of the traces that were made since just those
of lost pieces are left. Nothing is lost on a figure that takes the handles that were there before,
and the colors of all plots. -/
theorem after_owns_handles (v : Validator) (c : Canvas) (hc : c.surface.Coherent)
    (plots : List (List Char × PlotOptions)) :
    let s := after v c plots
    let left := (s.canvas.removePiecesOn v s.latest).2.surface
    (∀ k, c.surface.handles.size ≤ k → s.canvas.surface.Live k →
      ∃! spot : PieceId × Spot,
        spot.1 ∈ s.latest ++ s.lost ∧ s.canvas.spot? spot.1 spot.2 = some k) ∧
    (∀ n ∈ s.latest ++ s.lost, ∀ k ∈ s.canvas.handles n, s.canvas.surface.Live k) ∧
    (∀ t ∈ left.figure, c.surface.nextTrace ≤ t.id →
      ∃ n ∈ s.lost, ∃ k ∈ s.canvas.handles n, ∃ l, left.handle? k = some l ∧ l.trace = t.id) ∧
    (∀ n ∈ s.lost, ∀ k ∈ s.canvas.handles n, left.Live k ∧
      ∃ l, left.handle? k = some l ∧ ∃ t ∈ left.figure, t.id = l.trace) ∧
    (v.Usual → c.Painted v →
      (∀ p ∈ plots, v.color (p.2.style.color.getD PlotStyle.usual.color) = true) →
      s.lost = []) := by
  intro s left
  have h := accounted_after hc v plots
  have hremoved : Surface.Adds (fun _ => False) s.canvas.surface left :=
    .trans (.trans (.suspend _) (adds_foldl_removePiece s.latest
      (s.canvas.onSurface Surface.suspend))) (.resumeOn _ v _)
  have hsuspended : (s.canvas.onSurface Surface.suspend).surface.Coherent :=
    h.coherent.congr rfl rfl rfl
  have hcoherent : left.Coherent := (coherent_foldl_removePiece hsuspended s.latest).resumeOn v
  have hleft : ∀ k, left.handle? k =
      (s.latest.foldl removePiece (s.canvas.onSurface Surface.suspend)).surface.handle? k :=
    Surface.handle?_resumeOn v _
  refine ⟨fun k hbase hk => ?_, fun n hn k hk => ?_, fun t ht hid => ?_, fun n hn k hk => ?_,
    fun hv hpainted hplots => lost_after hv hplots hpainted⟩
  · obtain ⟨n, hn, a, ha⟩ := h.held k hbase hk
    refine ⟨(n, a), ⟨hn, ha⟩, ?_⟩
    rintro ⟨m, b⟩ ⟨hm, hb⟩
    obtain ⟨rfl, rfl⟩ := h.owned.inj m hm n hn b a k hb ha
    rfl
  · obtain ⟨a, ha⟩ := mem_handles.mp hk
    obtain ⟨l, hl, hlive, -⟩ := h.owned.live n hn a k ha
    exact ⟨l, hl, hlive⟩
  · -- the trace belongs to a live handle, which none of the latest pieces owned
    obtain ⟨k, l, hbase, hl, hlive, htrace⟩ := (hremoved.tidy _ _ h.tidy).owned t ht hid
    obtain ⟨hstill, hnot⟩ := live_foldl_removePiece (c := s.canvas.onSurface Surface.suspend)
      s.latest ⟨l, (hleft k).symm.trans hl, hlive⟩
    obtain ⟨n, hn, a, ha⟩ := h.held k hbase hstill
    have hmem : k ∈ s.canvas.handles n := mem_handles.mpr ⟨a, ha⟩
    exact ⟨n, (List.mem_append.mp hn).resolve_left fun hn => hnot n hn hmem, k, hmem, l, hl, htrace⟩
  · obtain ⟨a, ha⟩ := mem_handles.mp hk
    obtain ⟨l, hl, hlive, -⟩ := h.owned.live n (List.mem_append_right _ hn) a k ha
    -- the handle is at no spot of the latest pieces
    have hnot : ∀ m ∈ s.latest, k ∉ s.canvas.handles m := fun m hm hmem => by
      obtain ⟨b, hb⟩ := mem_handles.mp hmem
      obtain ⟨heq, -⟩ := h.owned.inj m (List.mem_append_left _ hm) n (List.mem_append_right _ hn)
        b a k hb ha
      exact (List.nodup_append.mp h.owned.nodup).2.2 m hm n hn heq
    have hstill : left.handle? k = some l :=
      (hleft k).trans ((handle?_foldl_removePiece (c := s.canvas.onSurface Surface.suspend) s.latest
        hnot).trans hl)
    obtain ⟨t, ht, hid, -⟩ := hcoherent.fits k l hstill hlive
    exact ⟨⟨l, hstill, hlive⟩, l, hstill, t, ht, hid⟩

/-- Two points that are plotted in a color that is refused: their traces stay when the pieces of the
plot after that are removed. Without that plot nothing stays of the line before it. -/
theorem after_owns_handles_two_points :
    let c : Canvas := { surface := { width := 16, height := 16, bounds := ⟨-1, 1, -1, 1⟩ } }
    let line : List Char × PlotOptions := ("y = x; y = @".toList, {})
    let points : List Char × PlotOptions :=
      ("(0,1); (1,0)".toList, { style := { color := some "no such color" } })
    let s := after .documented c [line, points, ("(1,1)".toList, {})]
    let left := (s.canvas.removePiecesOn .documented s.latest).2.surface
    c.surface.Coherent ∧ s.latest = [3, 0] ∧ s.lost = [1, 2] ∧ left.figure.map Trace.id = [1, 2] ∧
      (∀ t ∈ left.figure,
        ∃ n ∈ s.lost, ∃ k ∈ s.canvas.handles n, ∃ l, left.handle? k = some l ∧ l.trace = t.id) ∧
      (after .documented c [line]).lost = [] := by
  intro c line points
  have hs : Surface.create? 16 16 ⟨-1, 1, -1, 1⟩ = .ok c.surface := rfl
  have hc : c.surface.Coherent := Surface.coherent_create hs
  have hold : c.Painted .documented := fun _ => rfl
  have hcolor : ∀ p ∈ [line],
      Validator.documented.color (p.2.style.color.getD PlotStyle.usual.color) = true := by
    intro p hp
    rw [List.mem_singleton.mp hp]
    exact Validator.usual_documented.color
  obtain ⟨-, -, htraces, -, -⟩ :=
    after_owns_handles .documented c hc [line, points, ("(1,1)".toList, {})]
  obtain ⟨-, -, -, -, hnone⟩ := after_owns_handles .documented c hc [line]
  refine ⟨hc, ?_, ?_, ?_, fun t ht => htraces t ht (Nat.zero_le t.id),
    hnone Validator.usual_documented hold hcolor⟩
  · dsimp only [points, line, c]
    decide +kernel
  · dsimp only [points, line, c]
    decide +kernel
  · dsimp only [points, line, c]
    decide +kernel

end Chain

end Graphing.Canvas
