/-
  Graphing.Proofs.Plot.Accounting

  Where the pieces go in a plot.

  A plot hides the pieces that it is given, and moves them from the pool to the
  pieces that are drawn, or to the spare ones if a segment cannot be drawn with
  them.  At any time the three groups hold every given piece once, and new
  pieces beside (`Ledger`): what is drawn is active and notes its segment, and
  nothing is to be seen of the others.  This holds on every sound canvas,
  whatever the given pieces showed before, and also where some of their handles
  were removed.
-/
import Graphing.Proofs.Plot.Failures
import Graphing.Proofs.Plot.Sound
import Mathlib.Data.List.Forall2

open Graphing.Relation (Classification Family)

namespace Graphing

/-- Whether a segment was skipped. -/
def PlotResult.skips (r : PlotResult) (text : List Char) : Bool :=
  r.skipped.any fun
    | .segment t => t == text
    | .mark _ => false

/-! ## Hidden pieces -/

namespace Surface

variable {s : Surface} {j k : HandleId}

/-- A handle that is not visible, whether or not it was removed. -/
def Invisible (s : Surface) (k : HandleId) : Prop := ∀ l, s.handle? k = some l → l.visible = false

theorem handle?_hide (s : Surface) (k j : HandleId) : (s.hide k).handle? j =
    if k = j then (s.handle? j).map (fun l => { l with visible := false }) else s.handle? j :=
  handle?_modify_update _ _ _ _

theorem invisible_hide (s : Surface) (k : HandleId) : (s.hide k).Invisible k := by
  intro l hl
  rw [handle?_hide, if_pos rfl] at hl
  obtain ⟨l₀, -, rfl⟩ := Option.map_eq_some_iff.mp hl
  rfl

theorem Invisible.hide (h : s.Invisible j) (k : HandleId) : (s.hide k).Invisible j := by
  by_cases hkj : k = j
  · subst hkj
    exact s.invisible_hide k
  · intro l hl
    rw [handle?_hide, if_neg hkj] at hl
    exact h l hl

theorem Invisible.foldl_hide (h : s.Invisible j) (ks : List HandleId) :
    (ks.foldl Surface.hide s).Invisible j := by
  induction ks generalizing s with
  | nil => exact h
  | cons k ks ih => exact ih (h.hide k)

theorem invisible_foldl_hide {ks : List HandleId} (hj : j ∈ ks) :
    (ks.foldl Surface.hide s).Invisible j := by
  induction ks generalizing s with
  | nil => exact absurd hj List.not_mem_nil
  | cons k ks ih =>
    rcases List.mem_cons.mp hj with rfl | hj
    · exact (s.invisible_hide j).foldl_hide ks
    · exact ih hj

theorem grows_foldl_hide (ks : List HandleId) (s : Surface) : Grows s (ks.foldl hide s) := by
  induction ks generalizing s with
  | nil => exact .refl s
  | cons k ks ih => exact (Grows.touches (touches_setVisible s k false)).trans (ih _)

end Surface

namespace Canvas

variable {c c' : Canvas} {m n : PieceId} {whole : Prop}

/-- Nothing is to be seen of a piece, and it is not part of what is drawn. -/
structure Hidden (c : Canvas) (n : PieceId) : Prop where
  inactive : ∀ p, c.piece? n = some p → p.active = false
  invisible : ∀ k ∈ c.handles n, c.surface.Invisible k

namespace Hidden

/-- A piece that has no other handles than before. -/
theorem modify (h : c.Hidden n) {f : Piece → Piece} (hf : ∀ p, ∀ k ∈ (f p).handles, k ∈ p.handles)
    (hactive : ∀ p, (f p).active = p.active) : (c.modify n f).Hidden n := by
  refine ⟨fun q hq => ?_, fun k hk => ?_⟩
  · rw [piece?_modify, if_pos rfl] at hq
    obtain ⟨p, hp, rfl⟩ := Option.map_eq_some_iff.mp hq
    exact (hactive p).trans (h.inactive p hp)
  · rcases (Spares.modify c n hf).spot k hk with hold | hnew
    · exact h.invisible k hold
    · -- a handle that does not exist
      intro l hl
      exact absurd (Surface.handle?_lt hl) (Nat.not_lt_of_le hnew)

theorem note (h : c.Hidden n) {f : Piece → Piece} (hf : Quiet f)
    (hactive : ∀ p, (f p).active = p.active) : (c.modify n f).Hidden n := by
  refine h.modify (fun p k hk => ?_) hactive
  obtain ⟨a, ha⟩ := Piece.mem_handles.mp hk
  exact Piece.mem_handles.mpr ⟨a, (hf.spot p a).symm.trans ha⟩

theorem removeContours (h : c.Hidden n) (hc : c.Sound whole) : (c.removeContours n).Hidden n := by
  have hforget : (c.modify n fun p => { p with contours := [] }).Hidden n :=
    h.modify (fun p k hk => List.mem_append_left _ (by simpa [Piece.handles] using hk))
      fun _ => rfl
  refine ⟨hforget.inactive, fun k hk l hl => hforget.invisible k hk l ?_⟩
  -- a handle that the piece still lists is none of its contours
  refine (Surface.handle?_foldl_remove _ fun hmem => ?_).symm.trans hl
  obtain ⟨i, hi⟩ := List.getElem?_of_mem hmem
  replace hi : c.spot? n (.contour i) = some k := (c.contours_getElem? n i).symm.trans hi
  obtain ⟨a, ha⟩ := mem_handles.mp hk
  replace ha : (c.modify n fun p => { p with contours := [] }).spot? n a = some k := ha
  rw [spot?_modify, if_pos rfl] at ha
  obtain ⟨p, hp, hget⟩ := Option.bind_eq_some_iff.mp ha
  obtain ⟨⟨σ, rfl⟩, hget⟩ := Spot.get_forget hget
  cases (hc.apart n n _ _ k ((spot?_of_piece hp _).trans hget) hi).2

/-- What is done with one piece shows nothing of another. -/
theorem spared (h : c.Hidden m) (hc : c.Sound whole) (hs : Spares n c c') (hmn : m ≠ n) :
    c'.Hidden m := by
  have hpiece := hs.piece m hmn
  have hhandles : c'.handles m = c.handles m := by rw [handles, handles, hpiece]
  refine ⟨fun p hp => h.inactive p (hpiece.symm.trans hp), fun k hk l hl => ?_⟩
  rw [hhandles] at hk
  refine h.invisible k hk l ((hs.handle k (hc.known_lt hk) fun hkn => hmn ?_).symm.trans hl)
  obtain ⟨a, ha⟩ := mem_handles.mp hk
  obtain ⟨b, hb⟩ := mem_handles.mp hkn
  exact (hc.apart m n a b k ha hb).1

theorem acquire (h : c.Hidden n) (hc : c.Sound whole) {kind : PieceKind} {family : Family}
    {c₁ : Canvas} (heq : c.acquire (some n) kind family = (n, c₁)) : c₁.Hidden n := by
  obtain rfl : (c.acquire (some n) kind family).2 = c₁ := congrArg Prod.snd heq
  have hset : ∀ {c : Canvas}, c.Hidden n →
      (c.modify n fun p => { p with kind, family := some family }).Hidden n :=
    fun h => h.modify (fun _ _ hk => hk) fun _ => rfl
  unfold Canvas.acquire
  dsimp only
  split
  · exact hset (h.removeContours hc)
  · exact hset h

/-- A piece that could not be drawn with stays hidden. -/
theorem uses (h : c.Hidden n) (hc : c.Sound whole) {kind : PieceKind} {family : Family}
    {Notes : Piece → Prop} {e : PlotFault}
    (hu : c.Uses (some n) kind family Notes (.error e, c')) : c'.Hidden n := by
  cases hu with
  | unread => exact h
  | @parked _ c₁ _ f acquired quiet idle clear =>
    have hnoted : (c₁.modify n f).Hidden n := (h.acquire hc acquired).note quiet idle
    have hsound : (c₁.modify n f).Sound whole := (hc.acquire acquired).note quiet
    rcases clear with rfl | rfl
    · exact hnoted
    · exact hnoted.removeContours hsound

end Hidden

theorem quiet_deactivate : Quiet fun p : Piece => { p with active := false } :=
  quiet_of (fun p σ => by cases σ <;> rfl) (fun _ => rfl) (fun _ => rfl) fun _ => rfl

theorem Sound.hidePiece (h : c.Sound whole) (n : PieceId) : (c.hidePiece n).Sound whole :=
  (h.onSurface (Surface.grows_foldl_hide (c.handles n) c.surface)).note quiet_deactivate

theorem handles_hidePiece (c : Canvas) (n m : PieceId) : (c.hidePiece n).handles m = c.handles m := by
  unfold handles
  rw [Canvas.hidePiece, piece?_modify]
  split
  · show ((((c.piece? m).map _).map _).getD [] : List HandleId) = _
    cases c.piece? m <;> rfl
  · rfl

/-- Hiding a piece, and keeping others hidden. -/
theorem hidden_hidePiece (c : Canvas) (n : PieceId) : (c.hidePiece n).Hidden n := by
  refine ⟨fun q hq => ?_, fun k hk => ?_⟩
  · rw [Canvas.hidePiece, piece?_modify, if_pos rfl] at hq
    obtain ⟨p, -, rfl⟩ := Option.map_eq_some_iff.mp hq
    rfl
  · rw [handles_hidePiece] at hk
    exact Surface.invisible_foldl_hide hk

theorem Hidden.hidePiece (h : c.Hidden m) (n : PieceId) : (c.hidePiece n).Hidden m := by
  refine ⟨fun q hq => ?_, fun k hk => ?_⟩
  · rw [Canvas.hidePiece, piece?_modify] at hq
    split at hq
    · obtain ⟨p, -, rfl⟩ := Option.map_eq_some_iff.mp hq
      rfl
    · exact h.inactive q hq
  · rw [handles_hidePiece] at hk
    exact (h.invisible k hk).foldl_hide _

theorem pieces_hidePiece (c : Canvas) (n : PieceId) :
    (c.hidePiece n).pieces.size = c.pieces.size := size_modify _ n _

/-- A plot begins with all given pieces hidden. -/
theorem Sound.begin (h : c.Sound whole) (ns : List PieceId) :
    let c' := (Progress.start c ns).canvas
    c'.Sound whole ∧ (∀ n ∈ ns, c'.Hidden n) ∧ c'.pieces.size = c.pieces.size := by
  have hrun : ∀ (ns : List PieceId) (c : Canvas), c.Sound whole →
      (ns.foldl Canvas.hidePiece c).Sound whole ∧
        (∀ n, n ∈ ns ∨ c.Hidden n → (ns.foldl Canvas.hidePiece c).Hidden n) := by
    intro ns
    induction ns with
    | nil => exact fun c hc => ⟨hc, fun n hn => hn.resolve_left List.not_mem_nil⟩
    | cons m ns ih =>
      intro c hc
      obtain ⟨hsound, hhidden⟩ := ih _ (hc.hidePiece m)
      refine ⟨hsound, fun n hn => hhidden n ?_⟩
      rcases hn with hmem | hn
      · rcases List.mem_cons.mp hmem with rfl | hmem
        · exact .inr (hidden_hidePiece c n)
        · exact .inl hmem
      · exact .inr (hn.hidePiece m)
  obtain ⟨hsound, hhidden⟩ := hrun ns _ (h.onSurface (.suspend c.surface))
  exact ⟨hsound, fun n hn => hhidden n (.inl hn),
    foldl_keeps (fun c : Canvas => c.pieces.size) pieces_hidePiece ns _⟩

/-! ## Pieces in a plot -/

/-- The pieces of a plot in progress are there, each of them once. -/
structure Listed (p : Progress) : Prop where
  nodup : p.groups.Nodup
  lt : ∀ n ∈ p.groups, n < p.canvas.pieces.size

theorem Listed.exists_piece {p : Progress} (h : Listed p) (kind : PieceKind) :
    ∀ n, (p.take kind).1 = some n → ∃ q, p.canvas.piece? n = some q := fun n hn =>
  ⟨_, Array.getElem?_eq_getElem (h.lt n (Progress.mem_groups_of_take hn))⟩

/-- A plot begins with the pieces that it is given. -/
theorem Listed.start {previous : List PieceId} (hnodup : previous.Nodup)
    (hprevious : ∀ n ∈ previous, n < c.pieces.size) : Listed (.start c previous) := by
  have hsize : (Progress.start c previous).canvas.pieces.size = c.pieces.size :=
    foldl_keeps (fun c : Canvas => c.pieces.size) pieces_hidePiece previous _
  constructor
  · rw [Progress.groups_start]
    exact hnodup
  · rw [Progress.groups_start, hsize]
    exact hprevious

theorem Listed.run {f : Frame} {p : Progress} (h : Listed p) {j : Job} (hj : j.Lawful f)
    (hf : p.canvas.surface.frame = f) :
    Listed (p.run j) := by
  have hgroups := p.groups_run hj hf
  obtain ⟨family, Notes, huses⟩ := hj.uses p.canvas _ (h.exists_piece j.kind)
  have hsize := huses.spares.pieces
  have hmade := hj.exists_piece hf (h.exists_piece j.kind)
  by_cases hnew : (p.take j.kind).1 = none ∧ j.sketch.toOption.isSome = true
  · rw [if_pos hnew] at hgroups
    refine ⟨hgroups.nodup_iff.mpr (List.nodup_append.mpr ⟨h.nodup, List.nodup_singleton _, ?_⟩),
      fun n hn => ?_⟩
    · intro n hn m hm
      obtain rfl := List.mem_singleton.mp hm
      exact Nat.ne_of_lt (h.lt n hn)
    · rw [Progress.canvas_run]
      rcases List.mem_append.mp (hgroups.mem_iff.mp hn) with hn | hn
      · exact Nat.lt_of_lt_of_le (h.lt n hn) hsize
      · obtain ⟨q, hq, -⟩ := hmade hnew.2
        rw [hnew.1] at hq ⊢
        exact List.mem_singleton.mp hn ▸ (Array.getElem?_eq_some_iff.mp hq).1
  · rw [if_neg hnew, List.append_nil] at hgroups
    refine ⟨hgroups.nodup_iff.mpr h.nodup, fun n hn => ?_⟩
    rw [Progress.canvas_run]
    exact Nat.lt_of_lt_of_le (h.lt n (hgroups.mem_iff.mp hn)) hsize

/-- What is drawn with a piece: a segment. -/
def ShowsSegment (s : List Char × Classification) (p : Piece) : Prop :=
  p.kind = kindOf s.2.family ∧ p.family = some s.2.family ∧ p.active = true ∧
    Reads s.1 s.2.family p

/-- What is drawn with a piece: the mark of an excluded value. -/
def ShowsMark (value : Float) (p : Piece) : Prop :=
  p.kind = .asymptote ∧ p.family = some .asymptote ∧ p.active = true ∧
    Noted [] ("x != " ++ Decimal.general value).toList p ∧ p.interval = .punctured value

/-- A piece as a job leaves it, on some canvas where the job is done. -/
def Job.Leaves (j : Job) (q : Piece) : Prop :=
  ∃ (c : Canvas) (existing : Option PieceId) (n : PieceId) (c' : Canvas),
    (∀ n, existing = some n → ∃ p, c.piece? n = some p) ∧ j.draw c existing = (.ok n, c') ∧
      c'.piece? n = some q

theorem showsSegment_of_leaves {f : Frame} {style : PlotStyle} {holes : List Float} {fast : Bool}
    {s : List Char × Classification} {q : Piece}
    (h : (segmentJob f style holes fast s).Leaves q) : ShowsSegment s q := by
  obtain ⟨c, existing, n, c', hexisting, hdraw, hq⟩ := h
  have huses := drawSegment_uses hexisting s.1 s.2 style holes fast
  rw [show c.drawSegment s.1 s.2 style existing holes fast = _ from hdraw] at huses
  obtain ⟨-, q', hq', hshows⟩ := huses.piece hexisting
  obtain rfl := Option.some.inj (hq'.symm.trans hq)
  exact hshows

theorem showsMark_of_leaves {f : Frame} {style : PlotStyle}
    {functions : List ((Float → Float) × Interval Float)} {value : Float} {q : Piece}
    (h : (markJob f style functions value).Leaves q) : ShowsMark value q := by
  obtain ⟨c, existing, n, c', hexisting, hdraw, hq⟩ := h
  have huses := plotMark_uses hexisting style functions value
  rw [show (_, _) = _ from hdraw] at huses
  obtain ⟨-, q', hq', hshows⟩ := huses.piece hexisting
  obtain rfl := Option.some.inj (hq'.symm.trans hq)
  exact hshows

/-- Those of some jobs that do not fail. -/
def keptJobs (jobs : List Job) : List Job := jobs.filter fun j => j.sketch.toOption.isSome

theorem keptJobs_append (jobs jobs' : List Job) :
    keptJobs (jobs ++ jobs') = keptJobs jobs ++ keptJobs jobs' := List.filter_append _ _

theorem keptJobs_singleton (j : Job) :
    keptJobs [j] = if j.sketch.toOption.isSome then [j] else [] := by
  rw [keptJobs, List.filter_singleton]
  cases j.sketch.toOption.isSome <;> rfl

theorem keptJobs_markJobs (f : Frame) (style : PlotStyle)
    (functions : List ((Float → Float) × Interval Float)) (values : List Float) :
    keptJobs (markJobs f style functions values) = markJobs f style functions values := by
  unfold keptJobs markJobs
  rw [List.filter_map]
  exact congrArg (List.map _) (List.filter_eq_self.mpr fun _ _ => rfl)

/-- What is drawn by some jobs, without those that fail. -/
def shownBy (jobs : List Job) : List (Piece → Prop) := (keptJobs jobs).map Job.Leaves

theorem shownBy_append (jobs jobs' : List Job) :
    shownBy (jobs ++ jobs') = shownBy jobs ++ shownBy jobs' := by
  rw [shownBy, keptJobs_append, List.map_append]
  rfl

theorem shownBy_singleton (j : Job) :
    shownBy [j] = if j.sketch.toOption.isSome then [j.Leaves] else [] := by
  rw [shownBy, keptJobs_singleton]
  cases j.sketch.toOption.isSome <;> rfl

theorem shownBy_segmentJobs (f : Frame) (style : PlotStyle) (holes : List Float) (fast : Bool)
    (segments : List (List Char × Classification)) :
    shownBy (segmentJobs f style holes fast segments) =
      (segments.filter fun s => (f.sketchOf? style holes fast s).isSome).map fun s =>
        (segmentJob f style holes fast s).Leaves := by
  unfold shownBy keptJobs segmentJobs
  rw [List.filter_map, List.filter_filter, List.map_map]
  refine congrArg (List.map _) (List.filter_congr fun s _ => ?_)
  unfold Frame.sketchOf?
  cases hs : s.2.family == Family.asymptote <;> simp [segmentJob, bne, hs]

theorem shownBy_markJobs (f : Frame) (style : PlotStyle)
    (functions : List ((Float → Float) × Interval Float)) (values : List Float) :
    shownBy (markJobs f style functions values) =
      values.map fun v => (markJob f style functions v).Leaves := by
  rw [shownBy, keptJobs_markJobs, markJobs, List.map_map]
  rfl

/-- Where a plot is: every given piece is in one of the groups, and all other pieces there are new.
The pieces that are drawn show what they are to show, in this order, and the others are hidden. -/
structure Ledger (whole : Prop) (f : Frame) (start : Nat) (previous : List PieceId) (p : Progress)
    (shows : List (Piece → Prop)) : Prop where
  sound : p.canvas.Sound whole
  frame : p.canvas.surface.frame = f
  nodup : (p.drawn ++ (p.pool ++ p.spare)).Nodup
  lt : ∀ n ∈ p.drawn ++ (p.pool ++ p.spare), n < p.canvas.pieces.size
  start_le : start ≤ p.canvas.pieces.size
  kept : ∀ n ∈ previous, n ∈ p.drawn ++ (p.pool ++ p.spare)
  fresh : ∀ n ∈ p.drawn ++ (p.pool ++ p.spare), n ∈ previous ∨ start ≤ n
  drawn : List.Forall₂ (fun n shows => ∃ q, p.canvas.piece? n = some q ∧ shows q) p.drawn shows
  hidden : ∀ n ∈ p.pool ++ p.spare, p.canvas.Hidden n

namespace Ledger

variable {f : Frame} {start : Nat} {previous : List PieceId} {p : Progress}
  {shows : List (Piece → Prop)}

theorem listed (h : Ledger whole f start previous p shows) : Listed p := ⟨h.nodup, h.lt⟩

/-- Drawing with a piece, or with a new one, spares those that are drawn already, and those that are
not drawn with. -/
theorem spared (h : Ledger whole f start previous p shows) {existing : Option PieceId}
    {pool : List PieceId}
    (hall : p.groups.Perm (existing.toList ++ (p.drawn ++ (pool ++ p.spare))))
    (hpool : ∀ m ∈ pool, m ∈ p.pool)
    (hs : Spares (existing.getD p.canvas.pieces.size) p.canvas c') :
    List.Forall₂ (fun n shows => ∃ q, c'.piece? n = some q ∧ shows q) p.drawn shows ∧
      ∀ m ∈ pool ++ p.spare, c'.Hidden m := by
  have hrest : ∀ m ∈ p.drawn ++ (pool ++ p.spare), m ≠ existing.getD p.canvas.pieces.size := by
    rintro m hm rfl
    cases existing with
    | none => exact absurd (h.lt _ (hall.mem_iff.mpr hm)) (Nat.lt_irrefl _)
    | some k => exact (List.nodup_cons.mp (hall.nodup_iff.mp h.nodup)).1 hm
  refine ⟨?_, fun m hm => ?_⟩
  · have hmem : ∀ m ∈ p.drawn, m ≠ existing.getD p.canvas.pieces.size := fun m hm =>
      hrest m (List.mem_append_left _ hm)
    refine ((List.forall₂_and_left _ _).mpr ⟨hmem, h.drawn⟩).imp ?_
    rintro m shows ⟨hm, q, hq, hshows⟩
    exact ⟨q, (hs.piece m hm).trans hq, hshows⟩
  · refine (h.hidden m ?_).spared h.sound hs (hrest m (List.mem_append_right _ hm))
    exact (List.mem_append.mp hm).elim (fun hm => List.mem_append_left _ (hpool m hm))
      (List.mem_append_right _)

/-- After a job, the pieces that are drawn show what they are to show, and the others are hidden. -/
theorem shows_run {done : List Job} (h : Ledger whole f start previous p (shownBy done)) {j : Job}
    (hj : j.Lawful f) :
    List.Forall₂ (fun n shows => ∃ q, (p.run j).canvas.piece? n = some q ∧ shows q) (p.run j).drawn
        (shownBy (done ++ [j])) ∧
      ∀ n ∈ (p.run j).pool ++ (p.run j).spare, (p.run j).canvas.Hidden n := by
  have hexisting := h.listed.exists_piece j.kind
  obtain ⟨family, Notes, huses⟩ := hj.uses p.canvas _ hexisting
  have hresult := (hj.follows p.canvas (p.take j.kind).1 h.frame).result
  have hleaves : ∀ n c', j.draw p.canvas (p.take j.kind).1 = (.ok n, c') →
      ∀ q, c'.piece? n = some q → j.Leaves q :=
    fun n c' hdraw q hq => ⟨_, _, n, c', hexisting, hdraw, hq⟩
  have hperm := p.take_perm j.kind
  obtain ⟨hdrawn, hhidden⟩ := h.spared (p.groups_perm j.kind)
    (fun m hm => hperm.mem_iff.mp (List.mem_append_right _ hm)) huses.spares
  unfold Progress.run
  rw [p.take_eq j.kind, shownBy_append, shownBy_singleton]
  generalize (p.take j.kind).2.pool = pool at hperm hhidden ⊢
  generalize (p.take j.kind).1 = existing at hperm hexisting hresult huses hleaves hdrawn hhidden ⊢
  generalize j.draw p.canvas existing = outcome at hresult huses hleaves hdrawn hhidden ⊢
  obtain ⟨result, c'⟩ := outcome
  cases hsketch : j.sketch with
  | ok s =>
    rw [hsketch] at hresult
    obtain rfl : result = .ok _ := hresult
    obtain ⟨-, q, hq, -⟩ := huses.piece hexisting
    exact ⟨List.rel_append hdrawn (.cons ⟨q, hq, hleaves _ _ rfl q hq⟩ .nil), hhidden⟩
  | error e =>
    rw [hsketch] at hresult
    obtain rfl : result = .error e := hresult
    refine ⟨(List.append_nil (shownBy done)).symm ▸ hdrawn, fun m hm => ?_⟩
    -- the piece is spare, if it is none that was made for nothing
    replace hm : m ∈ pool ++ (p.spare ++ existing.toList) := hm
    rw [← List.append_assoc] at hm
    rcases List.mem_append.mp hm with hm | hm
    · exact hhidden m hm
    · obtain rfl := Option.mem_toList.mp hm
      refine (h.hidden m ?_).uses h.sound huses
      exact List.mem_append_left _ (hperm.mem_iff.mp List.mem_cons_self)

/-- A job is done with a piece of the pool, or with a new one. -/
theorem run {done : List Job} (h : Ledger whole f start previous p (shownBy done)) {j : Job}
    (hj : j.Lawful f) : Ledger whole f start previous (p.run j) (shownBy (done ++ [j])) := by
  obtain ⟨family, Notes, huses⟩ := hj.uses p.canvas _ (h.listed.exists_piece j.kind)
  obtain ⟨hnodup, hlt⟩ := h.listed.run hj h.frame
  obtain ⟨hdrawn, hhidden⟩ := h.shows_run hj
  have hgroups := p.groups_run hj h.frame
  refine ⟨?_, Progress.frame_run hj h.frame, hnodup, hlt, ?_, fun n hn => ?_, fun n hn => ?_,
    hdrawn, hhidden⟩
  · rw [Progress.canvas_run]
    exact h.sound.uses huses
  · rw [Progress.canvas_run]
    exact Nat.le_trans h.start_le huses.spares.pieces
  · exact hgroups.mem_iff.mpr (List.mem_append_left _ (h.kept n hn))
  · rcases List.mem_append.mp (hgroups.mem_iff.mp hn) with hn | hn
    · exact h.fresh n hn
    · -- a piece that was made is none of those that were there at the start
      split at hn
      · exact .inr (List.mem_singleton.mp hn ▸ h.start_le)
      · exact absurd hn List.not_mem_nil

/-- The given pieces are all there, and the others are new. -/
theorem perm (h : Ledger whole f start previous p shows) (hnodup : previous.Nodup)
    (hprevious : ∀ n ∈ previous, n < start) :
    (p.drawn ++ (p.pool ++ p.spare)).Perm
      (previous ++ (p.drawn ++ (p.pool ++ p.spare)).filter fun n => start ≤ n) := by
  have hfresh : ∀ n, n ∈ (p.drawn ++ (p.pool ++ p.spare)).filter (fun n => start ≤ n) ↔
      n ∈ p.drawn ++ (p.pool ++ p.spare) ∧ start ≤ n := fun n => by
    rw [List.mem_filter, decide_eq_true_eq]
  refine (List.perm_ext_iff_of_nodup h.nodup ?_).mpr fun n => ?_
  · refine List.nodup_append.mpr ⟨hnodup, h.nodup.filter _, fun n hn m hm heq => ?_⟩
    exact absurd (heq ▸ hprevious n hn) (Nat.not_lt_of_le ((hfresh m).mp hm).2)
  · rw [List.mem_append (s := previous), hfresh]
    constructor
    · exact fun hn => (h.fresh n hn).imp_right fun hle => ⟨hn, hle⟩
    · exact fun hn => hn.elim (h.kept n) And.left

end Ledger

/-! ## Whole plots -/

theorem Hidden.resume (h : c.Hidden n) : (c.onSurface Surface.resume).Hidden n := by
  refine ⟨h.inactive, fun k hk l hl => h.invisible k hk l ?_⟩
  obtain ⟨f, q, d, hsame⟩ := Surface.Same.resume c.surface
  replace hl : c.surface.resume.handle? k = some l := hl
  rw [hsame] at hl
  exact hl

/-- Every handle of a hidden piece exists, and is invisible. -/
theorem Hidden.exists_piece (h : c.Hidden n) (hc : c.Sound whole) (hn : n < c.pieces.size) :
    ∃ p, c.piece? n = some p ∧ p.active = false ∧
      ∀ k ∈ p.handles, ∃ l, c.surface.handle? k = some l ∧ l.visible = false := by
  have hpiece : c.piece? n = some _ := Array.getElem?_eq_getElem hn
  refine ⟨_, hpiece, h.inactive _ hpiece, fun k hk => ?_⟩
  obtain ⟨a, ha⟩ := Piece.mem_handles.mp hk
  have hspot : c.spot? n a = some k := (spot?_of_piece hpiece a).trans ha
  obtain ⟨l, hl, -⟩ := hc.known n a k hspot
  exact ⟨l, hl, h.invisible k (mem_handles.mpr ⟨a, hspot⟩) l hl⟩

/-- What a plot does within its suspension, with any pieces of a sound canvas. -/
theorem Sound.plotWithin (h : c.Sound whole) (relation : List Char) (style : PlotStyle)
    {options : PlotOptions} {holes : List Float}
    (hholes : holeValues (segmentsOf relation options.name) = .ok holes)
    {previous : List PieceId} (hnodup : previous.Nodup)
    (hprevious : ∀ n ∈ previous, n < c.pieces.size) :
    ∃ (p : Progress) (functions : List ((Float → Float) × Interval Float)),
      c.plotWithin relation style options previous =
        (.ok { pieces := p.groups, skipped := p.skipped }, p.canvas) ∧
      Ledger whole c.surface.frame c.pieces.size previous p
        (shownBy (segmentJobs c.surface.frame style holes options.fast
            (segmentsOf relation options.name) ++
          markJobs c.surface.frame style functions holes)) := by
  obtain ⟨hsound, hhidden, hsize⟩ := h.begin previous
  obtain ⟨hlisted, hlt⟩ := Listed.start hnodup hprevious
  have hmem : ∀ n, n ∈ (Progress.start c previous).groups ↔ n ∈ previous := fun n => by
    rw [Progress.groups_start]
  have hstart : Ledger whole c.surface.frame c.pieces.size previous (.start c previous)
      (shownBy []) :=
    ⟨hsound, Progress.frame_start c previous, hlisted, hlt, Nat.le_of_eq hsize.symm,
      fun n hn => (hmem n).mpr hn, fun n hn => .inl ((hmem n).mp hn), .nil,
      fun n hn => hhidden n ((hmem n).mp hn)⟩
  obtain ⟨shown, marked, heq, -, hmarked⟩ := plotWithin_rec c relation previous style
    hholes (P := fun p done => Ledger whole c.surface.frame c.pieces.size previous p (shownBy done))
    hstart fun _ _ _ hj _ hp => hp.run hj.lawful
  exact ⟨marked, _, heq, hmarked⟩

/-- Whatever comes of a plot, the canvas stays sound, and the plot returns pieces that exist, none of
them twice. -/
theorem Sound.plotOn_keeps (h : c.Sound whole) (v : Validator) (relation : List Char)
    (options : PlotOptions) {previous : List PieceId} (hnodup : previous.Nodup)
    (hprevious : ∀ n ∈ previous, n < c.pieces.size) :
    (c.plotOn v relation options previous).2.Sound whole ∧
      c.pieces.size ≤ (c.plotOn v relation options previous).2.pieces.size ∧
      ∀ r, (c.plotOn v relation options previous).1 = .ok r → r.pieces.Nodup ∧
        ∀ n ∈ r.pieces, n < (c.plotOn v relation options previous).2.pieces.size := by
  cases hstyle : PlotStyle.ofOptions? options.style with
  | error e =>
    rw [plotOn, hstyle]
    refine ⟨h, Nat.le_refl _, fun r hr => ?_⟩
    cases hr
  | ok style =>
    rw [plotOn_eq hstyle c relation previous v]
    cases hholes : holeValues (segmentsOf relation options.name) with
    | error hole =>
      obtain ⟨hsound, -, hsize⟩ := h.begin previous
      rw [plotWithin_eq_of_untold c relation previous hholes]
      refine ⟨hsound.onSurface (.resumeOn v _), Nat.le_of_eq hsize.symm, fun r hr => ?_⟩
      dsimp only at hr
      split at hr <;> cases hr
    | ok holes =>
      obtain ⟨p, _, heq, hp⟩ := h.plotWithin relation style hholes hnodup hprevious
      rw [heq]
      refine ⟨hp.sound.onSurface (.resumeOn v _), hp.start_le, fun r hr => ?_⟩
      dsimp only at hr
      split at hr <;> cases hr
      exact ⟨hp.nodup, hp.lt⟩

/-- A segment is skipped if it excludes no value and has no sketch. -/
theorem skips_eq {f : Frame} {style : PlotStyle} {holes : List Float} {fast : Bool}
    {relation : List Char} {name : String} {r : PlotResult}
    (hr : r.skipped = (segmentsOf relation name).filterMap (f.skip? style holes fast))
    {s : List Char × Classification} (hs : s ∈ segmentsOf relation name) :
    r.skips s.1 = (f.skip? style holes fast s).isSome := by
  have htext : ∀ t ∈ segmentsOf relation name, t.1 = s.1 → t = s := by
    intro t ht heq
    obtain ⟨text, -, rfl⟩ := List.mem_map.mp ht
    obtain ⟨text', -, rfl⟩ := List.mem_map.mp hs
    obtain rfl : text = text' := heq
    rfl
  have hskip : ∀ t what, f.skip? style holes fast t = some what → what = .segment t.1 := by
    intro t what ht
    unfold Frame.skip? at ht
    split at ht
    · cases ht
    · exact (Option.some.inj ht).symm
  rw [Bool.eq_iff_iff, PlotResult.skips, List.any_eq_true, Option.isSome_iff_exists, hr]
  constructor
  · rintro ⟨what, hwhat, htest⟩
    obtain ⟨t, ht, htwhat⟩ := List.mem_filterMap.mp hwhat
    obtain rfl := hskip t what htwhat
    obtain rfl := htext t ht (by simpa using htest)
    exact ⟨_, htwhat⟩
  · rintro ⟨what, hwhat⟩
    refine ⟨what, List.mem_filterMap.mpr ⟨s, hs, hwhat⟩, ?_⟩
    obtain rfl := hskip s what hwhat
    simp

/-- The segments with a sketch are those that exclude no value and are not skipped. -/
theorem filter_sketchOf?_eq {f : Frame} {style : PlotStyle} {holes : List Float} {fast : Bool}
    {relation : List Char} {name : String} {r : PlotResult}
    (hr : r.skipped = (segmentsOf relation name).filterMap (f.skip? style holes fast)) :
    ((segmentsOf relation name).filter fun s => (f.sketchOf? style holes fast s).isSome) =
      (segmentsOf relation name).filter fun s => s.2.family != .asymptote && !r.skips s.1 := by
  refine List.filter_congr fun s hs => ?_
  rw [skips_eq hr hs]
  unfold Frame.sketchOf? Frame.skip?
  cases hfamily : s.2.family == Family.asymptote
  · cases hsketch : (f.sketch s.1 s.2 style holes fast).toOption <;> simp [bne, hfamily]
  · simp [bne, hfamily]

/-- A plot that does not fail: its style is accepted, all excluded values are known, and it skips the
segments that have no sketch. -/
theorem plot_of_ok {relation : List Char} {options : PlotOptions} {previous : List PieceId}
    {r : PlotResult} (hplot : c.plot relation options previous = (.ok r, c')) :
    ∃ style, PlotStyle.ofOptions? options.style = .ok style ∧
      holeValues (segmentsOf relation options.name) =
        .ok (holesOf (segmentsOf relation options.name)) ∧
      r.skipped = (segmentsOf relation options.name).filterMap
        (c.surface.frame.skip? style (holesOf (segmentsOf relation options.name)) options.fast) := by
  cases hstyle : PlotStyle.ofOptions? options.style with
  | error e =>
    rw [plot_of_style_error hstyle] at hplot
    cases hplot
  | ok style =>
    rcases holeValues_cases (segmentsOf relation options.name) with
      ⟨-, -, hole, -, hholes⟩ | ⟨-, hholes⟩
    · rw [plot_eq_of_untold hstyle c relation previous hholes] at hplot
      cases hplot
    · obtain ⟨_, _, _, htally, -⟩ := plot_of_holes c hstyle relation hholes previous
      rw [htally] at hplot
      cases hplot
      exact ⟨style, rfl, hholes, rfl⟩

/-- Whatever pieces of a sound canvas a plot is given, each once: each of them is returned once, and
beside them only new ones. First come the pieces that are drawn, one for each segment that is not
skipped, in their order, and then one for each excluded value. All other pieces are inactive, and
their handles invisible. -/
theorem Sound.plot_accounts (h : c.Sound whole) (relation : List Char) (options : PlotOptions)
    {previous : List PieceId} (hnodup : previous.Nodup)
    (hprevious : ∀ n ∈ previous, n < c.pieces.size) {r : PlotResult}
    (hplot : c.plot relation options previous = (.ok r, c')) :
    ∃ drawn marks left fresh,
      r.pieces = drawn ++ (marks ++ left) ∧
      r.pieces.Perm (previous ++ fresh) ∧ r.pieces.Nodup ∧
      (∀ n ∈ fresh, c.pieces.size ≤ n ∧ n < c'.pieces.size) ∧
      List.Forall₂ (fun n s => ∃ p, c'.piece? n = some p ∧ ShowsSegment s p) drawn
        ((segmentsOf relation options.name).filter fun s =>
          s.2.family != .asymptote && !r.skips s.1) ∧
      List.Forall₂ (fun n v => ∃ p, c'.piece? n = some p ∧ ShowsMark v p) marks
        (holesOf (segmentsOf relation options.name)) ∧
      ∀ n ∈ left, ∃ p, c'.piece? n = some p ∧ p.active = false ∧
        ∀ k ∈ p.handles, ∃ l, c'.surface.handle? k = some l ∧ l.visible = false := by
  obtain ⟨style, hstyle, hholes, hskipped⟩ := plot_of_ok hplot
  obtain ⟨p, functions, heq, hp⟩ := h.plotWithin relation style hholes hnodup hprevious
  rw [plot_eq hstyle c relation previous, heq] at hplot
  cases hplot
  rw [shownBy_append, shownBy_segmentJobs, shownBy_markJobs, filter_sketchOf?_eq hskipped] at hp
  -- the jobs are the segments first and the marks after them, and so are the drawn pieces
  have hsegments := List.forall₂_take_append _ _ _ hp.drawn
  have hmarks := List.forall₂_drop_append _ _ _ hp.drawn
  rw [List.forall₂_map_right_iff] at hsegments hmarks
  refine ⟨_, _, p.pool ++ p.spare, _, ?_, hp.perm hnodup hprevious, hp.nodup, fun n hn => ?_,
    hsegments.imp fun n s => ?_, hmarks.imp fun n v => ?_, fun n hn => ?_⟩
  · rw [← List.append_assoc, List.take_append_drop]
    rfl
  · rw [List.mem_filter, decide_eq_true_eq] at hn
    exact ⟨hn.2, hp.lt n hn.1⟩
  · exact fun ⟨q, hq, hleaves⟩ => ⟨q, hq, showsSegment_of_leaves hleaves⟩
  · exact fun ⟨q, hq, hleaves⟩ => ⟨q, hq, showsMark_of_leaves hleaves⟩
  · exact (hp.hidden n hn).resume.exists_piece (hp.sound.onSurface (.resume p.canvas.surface))
      (hp.lt n (List.mem_append_right _ hn))

end Canvas

end Graphing
