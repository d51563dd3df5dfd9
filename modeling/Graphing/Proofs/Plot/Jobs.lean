/-
  Graphing.Proofs.Plot.Jobs

  A plot as the jobs that it does in turn.

  For each segment that excludes no value, and then for each excluded value, a
  plot takes a piece out of the pool, or none, draws with it, and notes what
  came of that.  Only the drawing differs (`Job`).  So an invariant has to be
  looked at for one job: what each job keeps, a whole plot keeps (`plot_rec`).
  An invariant may speak of the jobs that were done so far, since what a plot
  has drawn and skipped is told by them.
-/
import Graphing.Proofs.Plot.Uses
import Mathlib.Data.List.Perm.Basic

open Graphing.Relation (Classification Family)

namespace Graphing.Canvas

variable {f : Frame}

/-! ## Pieces out of the pool -/

namespace Progress

variable {p : Progress}

/-- Taking a piece only moves it out of the pool. -/
theorem take_perm (p : Progress) (kind : PieceKind) :
    ((p.take kind).1.toList ++ (p.take kind).2.pool).Perm p.pool := by
  unfold take
  cases p.canvas.indexOfKind? p.pool kind with
  | none => exact .refl _
  | some i =>
    show (p.pool[i]?.toList ++ p.pool.eraseIdx i).Perm p.pool
    by_cases hi : i < p.pool.length
    · rw [List.getElem?_eq_getElem hi]
      exact List.getElem_cons_eraseIdx_perm hi
    · rw [List.getElem?_eq_none (Nat.le_of_not_lt hi),
        List.eraseIdx_of_length_le (Nat.le_of_not_lt hi)]
      exact .refl _

/-- All pieces of a plot in progress. -/
def groups (p : Progress) : List PieceId := p.drawn ++ (p.pool ++ p.spare)

/-- Taking a piece loses none. -/
theorem groups_perm (p : Progress) (kind : PieceKind) :
    p.groups.Perm ((p.take kind).1.toList ++ (p.drawn ++ ((p.take kind).2.pool ++ p.spare))) := by
  refine (((p.take_perm kind).symm.append_right p.spare).append_left p.drawn).trans ?_
  rw [List.append_assoc]
  exact List.perm_append_comm_assoc _ _ _

theorem mem_groups_of_take {kind : PieceKind} {n : PieceId} (h : (p.take kind).1 = some n) :
    n ∈ p.groups := by
  refine (p.groups_perm kind).mem_iff.mpr ?_
  rw [h]
  exact List.mem_cons_self

theorem take_eq (p : Progress) (kind : PieceKind) :
    (p.take kind).2 = { p with pool := (p.take kind).2.pool } := by
  unfold take
  cases p.canvas.indexOfKind? p.pool kind <;> rfl

theorem canvas_take (p : Progress) (kind : PieceKind) : (p.take kind).2.canvas = p.canvas := by
  rw [p.take_eq]

theorem canvas_note (p : Progress) (existing : Option PieceId) (what : Skipped)
    (outcome : Outcome PieceId) : (p.note existing what outcome).canvas = outcome.2 := by
  obtain ⟨_ | _, _⟩ := outcome <;> rfl

theorem pool_note (p : Progress) (existing : Option PieceId) (what : Skipped)
    (outcome : Outcome PieceId) : (p.note existing what outcome).pool = p.pool := by
  obtain ⟨_ | _, _⟩ := outcome <;> rfl

end Progress

/-! ## Jobs -/

/-- What a plot does with one use of a piece, and the sketch that it draws. -/
structure Job where
  kind : PieceKind
  what : Skipped
  sketch : Except PlotFault Sketch
  draw : Canvas → Option PieceId → Outcome PieceId

/-- A job whose sketch decides the outcome, and which uses a piece of its kind. -/
structure Job.Lawful (f : Frame) (j : Job) : Prop where
  follows : ∀ (c : Canvas) (existing : Option PieceId), c.surface.frame = f →
    c.Follows existing j.sketch (j.draw c existing)
  uses : ∀ (c : Canvas) (existing : Option PieceId),
    (∀ n, existing = some n → ∃ p, c.piece? n = some p) →
    ∃ family Notes, c.Uses existing j.kind family Notes (j.draw c existing)

/-- The piece that a job was done with is of its kind. -/
theorem Job.Lawful.exists_piece {j : Job} (hj : j.Lawful f) {c : Canvas} (hf : c.surface.frame = f)
    {existing : Option PieceId} (hexisting : ∀ n, existing = some n → ∃ p, c.piece? n = some p)
    (hsome : j.sketch.toOption.isSome = true) :
    ∃ q, (j.draw c existing).2.piece? (existing.getD c.pieces.size) = some q ∧
      q.kind = j.kind := by
  obtain ⟨family, Notes, huses⟩ := hj.uses c existing hexisting
  have hresult := (hj.follows c existing hf).result
  generalize j.draw c existing = outcome at huses hresult ⊢
  obtain ⟨result, c'⟩ := outcome
  cases hsketch : j.sketch with
  | error e =>
    rw [hsketch] at hsome
    cases hsome
  | ok s =>
    rw [hsketch] at hresult
    obtain rfl : result = .ok _ := hresult
    obtain ⟨-, q, hq, hkind, -⟩ := huses.piece hexisting
    exact ⟨q, hq, hkind⟩

/-- A segment that excludes no value. -/
def segmentJob (f : Frame) (style : PlotStyle) (holes : List Float) (fast : Bool)
    (s : List Char × Classification) : Job where
  kind := kindOf s.2.family
  what := .segment s.1
  sketch := f.sketch s.1 s.2 style holes fast
  draw c existing := c.drawSegment s.1 s.2 style existing holes fast

/-- The mark of an excluded value. -/
def markJob (f : Frame) (style : PlotStyle) (functions : List ((Float → Float) × Interval Float))
    (value : Float) : Job where
  kind := .asymptote
  what := .mark value
  sketch := .ok (f.mark style functions value)
  draw c existing :=
    (.ok (c.plotMark value functions existing style).1,
      (c.plotMark value functions existing style).2)

/-- The jobs of the segments that exclude no value. -/
def segmentJobs (f : Frame) (style : PlotStyle) (holes : List Float) (fast : Bool)
    (segments : List (List Char × Classification)) : List Job :=
  (segments.filter fun s => s.2.family != .asymptote).map (segmentJob f style holes fast)

/-- The jobs of excluded values. -/
def markJobs (f : Frame) (style : PlotStyle) (functions : List ((Float → Float) × Interval Float))
    (values : List Float) : List Job :=
  values.map (markJob f style functions)

/-- The two kinds of jobs that plots do. -/
inductive Job.OfPlot (f : Frame) : Job → Prop
  | segment (style : PlotStyle) (holes : List Float) (fast : Bool)
      (s : List Char × Classification) : OfPlot f (segmentJob f style holes fast s)
  | mark (style : PlotStyle) (functions : List ((Float → Float) × Interval Float))
      (value : Float) : OfPlot f (markJob f style functions value)

theorem Job.OfPlot.lawful {j : Job} (h : j.OfPlot f) : j.Lawful f := by
  cases h with
  | segment style holes fast s =>
    constructor
    · rintro c existing rfl
      exact drawSegment_follows c existing s.1 s.2 style holes fast
    · exact fun c existing hexisting =>
        ⟨_, _, drawSegment_uses hexisting s.1 s.2 style holes fast⟩
  | mark style functions value =>
    constructor
    · rintro c existing rfl
      exact plotMark_follows c existing style functions value
    · exact fun c existing hexisting => ⟨_, _, plotMark_uses hexisting style functions value⟩

/-- With a blank piece a job draws its sketch, beside the rest of the pieces. -/
theorem Job.OfPlot.draws {j : Job} (h : j.OfPlot f) {c : Canvas} (hf : c.surface.frame = f)
    {existing : Option PieceId} {rest : List PieceId} (hplot : c.InPlot (existing.toList ++ rest))
    (hblank : ∀ m, existing = some m → c.Blank m) :
    c.Draws existing rest j.sketch (j.draw c existing) := by
  subst hf
  cases h with
  | segment style holes fast s => exact drawSegment_draws hplot hblank s.1 s.2 style holes fast
  | mark style functions value => exact plotMark_draws hplot hblank style functions value

theorem ofPlot_segmentJobs (f : Frame) (style : PlotStyle) (holes : List Float) (fast : Bool)
    (segments : List (List Char × Classification)) :
    ∀ j ∈ segmentJobs f style holes fast segments, j.OfPlot f := by
  intro j hj
  obtain ⟨s, -, rfl⟩ := List.mem_map.mp hj
  exact .segment style holes fast s

theorem ofPlot_markJobs (f : Frame) (style : PlotStyle)
    (functions : List ((Float → Float) × Interval Float)) (values : List Float) :
    ∀ j ∈ markJobs f style functions values, j.OfPlot f := by
  intro j hj
  obtain ⟨v, -, rfl⟩ := List.mem_map.mp hj
  exact .mark style functions v

/-! ## One job after the other -/

namespace Progress

/-- Do a job with a piece of the pool, or with a new one. -/
def run (p : Progress) (j : Job) : Progress :=
  (p.take j.kind).2.note (p.take j.kind).1 j.what (j.draw p.canvas (p.take j.kind).1)

theorem canvas_run (p : Progress) (j : Job) :
    (p.run j).canvas = (j.draw p.canvas (p.take j.kind).1).2 := canvas_note _ _ _ _

theorem pool_run (p : Progress) (j : Job) : (p.run j).pool = (p.take j.kind).2.pool :=
  pool_note _ _ _ _

/-- A job adds a piece just if there was none to take and it does not fail. -/
theorem groups_run (p : Progress) {j : Job} (hj : j.Lawful f) (hf : p.canvas.surface.frame = f) :
    (p.run j).groups.Perm (p.groups ++
      if (p.take j.kind).1 = none ∧ j.sketch.toOption.isSome = true
        then [p.canvas.pieces.size] else []) := by
  have hall := p.groups_perm j.kind
  have hresult := (hj.follows p.canvas (p.take j.kind).1 hf).result
  unfold run
  rw [p.take_eq j.kind]
  generalize (p.take j.kind).2.pool = pool at hall ⊢
  generalize (p.take j.kind).1 = existing at hall hresult ⊢
  generalize j.draw p.canvas existing = outcome at hresult ⊢
  obtain ⟨result, c'⟩ := outcome
  cases hsketch : j.sketch with
  | ok s =>
    rw [hsketch] at hresult
    obtain rfl : result = .ok (existing.getD p.canvas.pieces.size) := hresult
    have hmoved : ((p.drawn ++ [existing.getD p.canvas.pieces.size]) ++ (pool ++ p.spare)).Perm
        ([existing.getD p.canvas.pieces.size] ++ (p.drawn ++ (pool ++ p.spare))) := by
      rw [List.append_assoc]
      exact List.perm_append_comm_assoc _ _ _
    cases existing with
    -- no piece was at hand, and so a new one is drawn
    | none => exact (hmoved.trans List.perm_append_comm).trans (hall.symm.append_right _)
    -- the piece moves from the pool to the drawn ones
    | some m =>
      rw [if_neg fun h => nomatch h.1]
      exact (hmoved.trans hall.symm).trans (.of_eq (List.append_nil _).symm)
  | error e =>
    rw [hsketch] at hresult
    obtain rfl : result = .error e := hresult
    -- the piece is laid aside
    rw [if_neg fun h => nomatch h.2]
    have hmoved : (p.drawn ++ (pool ++ (p.spare ++ existing.toList))).Perm
        (existing.toList ++ (p.drawn ++ (pool ++ p.spare))) := by
      rw [← List.append_assoc, ← List.append_assoc, List.append_assoc p.drawn]
      exact List.perm_append_comm
    exact (hmoved.trans hall.symm).trans (.of_eq (List.append_nil _).symm)

/-- Jobs leave the frame as it is. -/
theorem frame_run {p : Progress} {j : Job} (hj : j.Lawful f) (hf : p.canvas.surface.frame = f) :
    (p.run j).canvas.surface.frame = f := by
  rw [canvas_run]
  exact (hj.follows p.canvas _ hf).frame.trans hf

/-- What each job keeps, jobs in turn keep. -/
theorem foldl_run_rec {P : Progress → List Job → Prop} {jobs : List Job}
    (hjobs : ∀ j ∈ jobs, j.Lawful f)
    (hrun : ∀ p done, ∀ j ∈ jobs, p.canvas.surface.frame = f → P p done → P (p.run j) (done ++ [j]))
    {p : Progress} {done : List Job} (hf : p.canvas.surface.frame = f) (h : P p done) :
    (jobs.foldl run p).canvas.surface.frame = f ∧ P (jobs.foldl run p) (done ++ jobs) := by
  induction jobs generalizing p done with
  | nil => exact ⟨hf, (List.append_nil done).symm ▸ h⟩
  | cons j jobs ih =>
    have hframe := frame_run (hjobs j List.mem_cons_self) hf
    have hstep := hrun p done j List.mem_cons_self hf h
    have hrest := ih (fun k hk => hjobs k (List.mem_cons_of_mem j hk))
      (fun p done k hk => hrun p done k (List.mem_cons_of_mem j hk)) hframe hstep
    rw [List.append_assoc] at hrest
    exact hrest

theorem frame_foldl_run {jobs : List Job} (hjobs : ∀ j ∈ jobs, j.Lawful f) {p : Progress}
    (hf : p.canvas.surface.frame = f) : (jobs.foldl run p).canvas.surface.frame = f :=
  List.foldlRecOn (motive := fun p => p.canvas.surface.frame = f) jobs run hf fun _ hp j hj =>
    frame_run (hjobs j hj) hp

/-- Drawing segments is doing a job for each of them that excludes no value. -/
theorem foldl_segment_eq (f : Frame) (style : PlotStyle) (holes : List Float) (fast : Bool)
    (segments : List (List Char × Classification)) (p : Progress) :
    segments.foldl (segment style holes fast) p =
      (segmentJobs f style holes fast segments).foldl run p := by
  have hsegment : ∀ (p : Progress) s, ¬(s.2.family == Family.asymptote) = true →
      p.segment style holes fast s = p.run (segmentJob f style holes fast s) := by
    intro p s hs
    rw [segment, if_neg hs, run, ← p.canvas_take (kindOf s.2.family)]
    rfl
  induction segments generalizing p with
  | nil => rfl
  | cons s segments ih =>
    rw [List.foldl_cons, ih]
    unfold segmentJobs
    by_cases hs : s.2.family == .asymptote
    · rw [segment, if_pos hs, List.filter_cons_of_neg (by simp [bne, hs])]
    · rw [hsegment p s hs, List.filter_cons_of_pos (by simp [bne, hs])]
      rfl

/-- Marking excluded values is doing a job for each of them. -/
theorem foldl_mark_eq (f : Frame) (style : PlotStyle)
    (functions : List ((Float → Float) × Interval Float)) (values : List Float) (p : Progress) :
    values.foldl (mark style functions) p = (markJobs f style functions values).foldl run p := by
  have hmark : ∀ (p : Progress) v, p.mark style functions v = p.run (markJob f style functions v) := by
    intro p v
    rw [run, ← p.canvas_take .asymptote]
    rfl
  rw [markJobs, List.foldl_map]
  exact congrArg (fun g => values.foldl g p) (funext₂ hmark)

end Progress

/-! ## Whole plots -/

theorem frame_hidePiece (c : Canvas) (n : PieceId) :
    (c.hidePiece n).surface.frame = c.surface.frame :=
  foldl_keeps Surface.frame Surface.frame_hide _ _

/-- The segments of a relation, with what they are read as. -/
def segmentsOf (relation : List Char) (name : String) : List (List Char × Classification) :=
  (Relation.pieces (Text.lower relation)).map fun s => (s, Relation.classify s name)

/-- Where a plot is before its first job. -/
def Progress.start (c : Canvas) (previous : List PieceId) : Progress :=
  { canvas := previous.foldl hidePiece (c.onSurface Surface.suspend), pool := previous }

theorem Progress.frame_start (c : Canvas) (previous : List PieceId) :
    (start c previous).canvas.surface.frame = c.surface.frame :=
  foldl_keeps (fun c : Canvas => c.surface.frame) frame_hidePiece previous _

theorem Progress.groups_start (c : Canvas) (previous : List PieceId) :
    (start c previous).groups = previous := List.append_nil previous

section

variable {options : PlotOptions} {style : PlotStyle}
  (hstyle : PlotStyle.ofOptions? options.style = .ok style) (c : Canvas) (relation : List Char)
  (previous : List PieceId)

theorem plotWithin_eq_of_untold {hole : Hole}
    (hholes : holeValues (segmentsOf relation options.name) = .error hole) :
    c.plotWithin relation style options previous =
      (.error (.hole hole), (Progress.start c previous).canvas) := by
  unfold segmentsOf at hholes
  unfold plotWithin
  dsimp only
  rw [hholes]
  rfl

/-- The jobs of a plot: its segments, and then its marks, which are told by what the segments have
become. -/
theorem plotWithin_eq_of_jobs {holes : List Float}
    (hholes : holeValues (segmentsOf relation options.name) = .ok holes) :
    c.plotWithin relation style options previous =
      let shown := (segmentJobs c.surface.frame style holes options.fast
        (segmentsOf relation options.name)).foldl Progress.run (.start c previous)
      let marked := (markJobs c.surface.frame style (shown.canvas.functionsOf shown.drawn)
        holes).foldl Progress.run shown
      (.ok { pieces := marked.groups, skipped := marked.skipped }, marked.canvas) := by
  dsimp only
  rw [← Progress.foldl_segment_eq, ← Progress.foldl_mark_eq]
  unfold segmentsOf at hholes ⊢
  unfold plotWithin Progress.groups
  dsimp only
  rw [hholes, ← List.append_assoc]
  rfl

/-- What holds at the start of a plot, and is kept by every job, holds after the segments and at the
end. -/
theorem plotWithin_rec (style : PlotStyle) {holes : List Float}
    (hholes : holeValues (segmentsOf relation options.name) = .ok holes)
    {P : Progress → List Job → Prop} (hstart : P (.start c previous) [])
    (hrun : ∀ p done j, j.OfPlot c.surface.frame → p.canvas.surface.frame = c.surface.frame →
      P p done → P (p.run j) (done ++ [j])) :
    ∃ shown marked,
      c.plotWithin relation style options previous =
        (.ok { pieces := marked.groups, skipped := marked.skipped }, marked.canvas) ∧
      P shown (segmentJobs c.surface.frame style holes options.fast
        (segmentsOf relation options.name)) ∧
      P marked (segmentJobs c.surface.frame style holes options.fast
          (segmentsOf relation options.name) ++
        markJobs c.surface.frame style (shown.canvas.functionsOf shown.drawn) holes) := by
  have hkept : ∀ jobs : List Job, (∀ j ∈ jobs, j.OfPlot c.surface.frame) → ∀ p done,
      p.canvas.surface.frame = c.surface.frame → P p done →
      (jobs.foldl Progress.run p).canvas.surface.frame = c.surface.frame ∧
        P (jobs.foldl Progress.run p) (done ++ jobs) := fun jobs hjobs p done hf h =>
    Progress.foldl_run_rec (fun j hj => (hjobs j hj).lawful)
      (fun p done j hj => hrun p done j (hjobs j hj)) hf h
  obtain ⟨hframe, hshown⟩ := hkept _ (ofPlot_segmentJobs c.surface.frame style holes options.fast
    (segmentsOf relation options.name)) _ [] (Progress.frame_start c previous) hstart
  obtain ⟨-, hmarked⟩ := hkept _ (ofPlot_markJobs c.surface.frame style _ holes) _ _ hframe hshown
  exact ⟨_, _, plotWithin_eq_of_jobs c relation previous hholes, hshown, hmarked⟩

/-! ## The end of a plot -/

include hstyle

/-- A plot is what it does within its suspension, and the end of that. -/
theorem plot_eq : c.plot relation options previous =
    ((c.plotWithin relation style options previous).1,
      (c.plotWithin relation style options previous).2.onSurface Surface.resume) := by
  rw [plot, hstyle]

/-- On a figure that may refuse values, a plot is what it does within its suspension, and the end of
that. The pieces are returned unless something is refused there. -/
theorem plotOn_eq (v : Validator) : c.plotOn v relation options previous =
    (if (c.plotWithin relation style options previous).2.surface.endsWell v then
        (c.plotWithin relation style options previous).1
      else .error (.surface .refused),
      (c.plotWithin relation style options previous).2.onSurface fun s => (s.resumeOn v).2) := by
  rw [plotOn, hstyle]
  dsimp only [onSurface]
  have hend := (c.plotWithin relation style options previous).2.surface.resumeOn_fst v
  generalize (c.plotWithin relation style options previous) = within at hend ⊢
  obtain ⟨result, c'⟩ := within
  dsimp only at hend ⊢
  generalize c'.surface.resumeOn v = shown at hend ⊢
  obtain ⟨_, s⟩ := shown
  obtain rfl := hend
  cases c'.surface.endsWell v <;> rfl

theorem plot_eq_of_untold {hole : Hole}
    (hholes : holeValues (segmentsOf relation options.name) = .error hole) :
    c.plot relation options previous =
      (.error (.hole hole), (Progress.start c previous).canvas.onSurface Surface.resume) := by
  rw [plot_eq hstyle c relation previous, plotWithin_eq_of_untold c relation previous hholes]

variable {holes : List Float} (hholes : holeValues (segmentsOf relation options.name) = .ok holes)

include hholes

theorem plot_eq_of_jobs :
    c.plot relation options previous =
      let shown := (segmentJobs c.surface.frame style holes options.fast
        (segmentsOf relation options.name)).foldl Progress.run (.start c previous)
      let marked := (markJobs c.surface.frame style (shown.canvas.functionsOf shown.drawn)
        holes).foldl Progress.run shown
      (.ok { pieces := marked.groups, skipped := marked.skipped },
        marked.canvas.onSurface Surface.resume) := by
  rw [plot_eq hstyle c relation previous, plotWithin_eq_of_jobs c relation previous hholes]

theorem plot_rec {P : Progress → List Job → Prop} (hstart : P (.start c previous) [])
    (hrun : ∀ p done j, j.OfPlot c.surface.frame → p.canvas.surface.frame = c.surface.frame →
      P p done → P (p.run j) (done ++ [j])) :
    ∃ shown marked,
      c.plot relation options previous =
        (.ok { pieces := marked.groups, skipped := marked.skipped },
          marked.canvas.onSurface Surface.resume) ∧
      P shown (segmentJobs c.surface.frame style holes options.fast
        (segmentsOf relation options.name)) ∧
      P marked (segmentJobs c.surface.frame style holes options.fast
          (segmentsOf relation options.name) ++
        markJobs c.surface.frame style (shown.canvas.functionsOf shown.drawn) holes) := by
  obtain ⟨shown, marked, heq, hshown, hmarked⟩ := plotWithin_rec c relation previous style
    hholes hstart hrun
  refine ⟨shown, marked, ?_, hshown, hmarked⟩
  rw [plot_eq hstyle c relation previous, heq]

end

end Graphing.Canvas
