/-
  Graphing.Proofs.Plot.InPlace

  Plotting again in place.

  When nothing is skipped, the pieces that a plot draws with come first in its
  result, one for each job in their order, and each has handles for all that its
  sketch shows.  A plot of the same relation takes these pieces from the pool
  one by one, and finds their handles there: it returns the same pieces, and
  makes no handle.
-/
import Graphing.Proofs.Plot.Allocation
import Graphing.Proofs.Plot.Fitting

open Graphing.Relation (Classification Family)

namespace Graphing.Canvas

variable {c c' : Canvas} {n : PieceId}

/-! ## Sketches in different styles -/

theorem isSome_boundShape (bound : Float) (closed : Bool) (view : Float × Float)
    (place : Float → Float × Float) (style : PlotStyle) :
    (Surface.boundShape bound closed view place style).isSome =
      ((Interval.finite? (some bound)).isSome &&
        Interval.isBetween bound view.1 view.2 false) := by
  unfold Surface.boundShape
  split
  · rename_i h
    exact h.symm
  · rename_i h
    exact (Bool.eq_false_iff.mpr h).symm

/-- Sketches that show the same parts, and stand for the same function. -/
def SameParts (s s' : Sketch) : Prop :=
  (∀ σ, (s'.parts σ).isSome = (s.parts σ).isSome) ∧ s'.source = s.source

/-- The style decides how a segment looks, but not which parts it has. -/
theorem sameParts_sketch (f : Frame) (text : List Char) (k : Classification)
    (style style' : PlotStyle) (holes : List Float) (fast fast' : Bool) {s s' : Sketch}
    (hs : f.sketch text k style holes fast = .ok s)
    (hs' : f.sketch text k style' holes fast' = .ok s') : SameParts s s' := by
  unfold Frame.sketch at hs hs'
  cases hfamily : k.family with
  | point =>
    rw [hfamily] at hs hs'
    dsimp only at hs hs'
    cases hbounds : Interval.textBounds text with
    | error e =>
      rw [hbounds] at hs
      cases hs
    | ok coords =>
      rw [hbounds] at hs hs'
      cases hs
      cases hs'
      exact ⟨fun σ => by cases σ <;> rfl, rfl⟩
  | functionOfX =>
    rw [hfamily] at hs hs'
    obtain ⟨r, hs, hs'⟩ := Except.exists_of_bind_eq_ok hs hs'
    cases hs
    cases hs'
    -- whether a bound has a mark depends on the function, and not on the style
    exact ⟨fun σ => by cases σ <;> simp [Frame.ofFunction, isSome_boundShape], rfl⟩
  | functionOfY =>
    rw [hfamily] at hs hs'
    obtain ⟨r, hs, hs'⟩ := Except.exists_of_bind_eq_ok hs hs'
    cases hs
    cases hs'
    exact ⟨fun σ => by cases σ <;> simp [Frame.ofSideways, isSome_boundShape], rfl⟩
  | polar =>
    rw [hfamily] at hs hs'
    obtain ⟨r, hs, hs'⟩ := Except.exists_of_bind_eq_ok hs hs'
    -- the style decides how many samples there are, but they make one curve in any case
    obtain ⟨ts, -, hs⟩ := Except.bind_eq_ok.mp hs
    obtain ⟨ts', -, hs'⟩ := Except.bind_eq_ok.mp hs'
    cases hs
    cases hs'
    exact ⟨fun σ => by cases σ <;> rfl, rfl⟩
  | parametric =>
    rw [hfamily] at hs hs'
    obtain ⟨⟨x, y, interval⟩, hs, hs'⟩ := Except.exists_of_bind_eq_ok hs hs'
    obtain ⟨ts, -, hs⟩ := Except.bind_eq_ok.mp hs
    obtain ⟨ts', -, hs'⟩ := Except.bind_eq_ok.mp hs'
    cases hs
    cases hs'
    exact ⟨fun σ => by cases σ <;> simp [isSome_boundShape], rfl⟩
  | sequence =>
    rw [hfamily] at hs hs'
    obtain ⟨r, hs, hs'⟩ := Except.exists_of_bind_eq_ok hs hs'
    obtain ⟨all, -, hs⟩ := Except.bind_eq_ok.mp hs
    obtain ⟨all', -, hs'⟩ := Except.bind_eq_ok.mp hs'
    cases hs
    cases hs'
    exact ⟨fun σ => by cases σ <;> rfl, rfl⟩
  | implicit =>
    rw [hfamily] at hs hs'
    obtain ⟨formula, hs, hs'⟩ := Except.exists_of_bind_eq_ok hs hs'
    obtain ⟨lines, -, hs⟩ := Except.bind_eq_ok.mp hs
    obtain ⟨lines', -, hs'⟩ := Except.bind_eq_ok.mp hs'
    cases hs
    cases hs'
    exact ⟨fun σ => rfl, rfl⟩
  | asymptote | unknown =>
    rw [hfamily] at hs
    cases hs

theorem sameParts_mark (f : Frame) (style style' : PlotStyle)
    (functions : List ((Float → Float) × Interval Float)) (value : Float) :
    SameParts (f.mark style functions value) (f.mark style' functions value) := by
  unfold Frame.mark
  dsimp only
  split <;> exact ⟨fun σ => by cases σ <;> rfl, rfl⟩

/-! ## What a piece stands for -/

/-- A sketch that is no function of the horizontal coordinate stands for none. -/
theorem source_sketch_of_ne {f : Frame} {text : List Char} {k : Classification}
    (hk : k.family ≠ .functionOfX) {style : PlotStyle} {holes : List Float} {fast : Bool}
    {s : Sketch} (hs : f.sketch text k style holes fast = .ok s) : s.source = none := by
  unfold Frame.sketch at hs
  cases hfamily : k.family with
  | functionOfX => exact absurd hfamily hk
  | point | functionOfY =>
    rw [hfamily] at hs
    obtain ⟨_, -, hs⟩ := Except.bind_eq_ok.mp hs
    cases hs
    rfl
  | polar | parametric | sequence | implicit =>
    rw [hfamily] at hs
    obtain ⟨_, -, hs⟩ := Except.bind_eq_ok.mp hs
    obtain ⟨_, -, hs⟩ := Except.bind_eq_ok.mp hs
    cases hs
    rfl
  | asymptote | unknown =>
    rw [hfamily] at hs
    cases hs

/-- A piece of another family stands for no function of the horizontal coordinate. -/
theorem source_of_family {q : Piece} (hq : c.piece? n = some q) {family : Family}
    (hfamily : q.family = some family) (hne : family ≠ .functionOfX) :
    (c.sketch n).source = none := by
  show (c.note? n).bind Note.source? = none
  rw [note?, hq]
  exact Note.source?_of_ne hfamily hne

section

variable {existing : Option PieceId}
  (hexisting : ∀ n, existing = some n → ∃ p, c.piece? n = some p)

include hexisting

/-- A function is noted with its interval. -/
theorem plotFunction_notes {relation : List Char} {name : String} {r : Restricted}
    (hread : Restricted.ofText? relation name = .ok r) (holes : List Float) (style : PlotStyle) :
    c.Uses existing .curve .functionOfX
      (fun p => p.interval = r.interval ∧ p.function = some r.function)
      (c.plotFunction relation name holes existing style) := by
  obtain ⟨c₁, p, hacquire, hp, -⟩ := acquire_piece hexisting .curve .functionOfX
  have hshown := moves_showSource (c := c₁.describe (existing.getD c.pieces.size) r)
    (piece?_modify_self hp _) style (sourceOverX r holes)
  obtain ⟨c₂, hshow, -⟩ := (c₁.describe (existing.getD c.pieces.size) r).showSource_eq
    (existing.getD c.pieces.size) style (sourceOverX r holes) (fun ts => ⟨_, rfl⟩)
    fun ts => ⟨_, rfl⟩
  rw [hshow] at hshown
  obtain ⟨q, hq, -⟩ := hshown.exists_piece (piece?_modify_self hp _)
  unfold plotFunction
  rw [hread]
  dsimp only
  rw [hacquire]
  dsimp only
  rw [hshow]
  refine .drawn hacquire (quiet_describe r) (hshown.trans (moves_placeBounds hq _ _ _ _))
    quiet_activate fun p q hbare => ?_
  obtain ⟨-, -, -, -, hinterval, -⟩ := Piece.fields_of_bare hbare
  exact ⟨rfl, hinterval, congrArg Piece.function hbare⟩

/-- A segment is drawn with a piece that stands for what its sketch stands for. -/
theorem drawSegment_source (text : List Char) (k : Classification) (style : PlotStyle)
    (holes : List Float) (fast : Bool) {s : Sketch}
    (hs : c.surface.frame.sketch text k style holes fast = .ok s) :
    ((c.drawSegment text k style existing holes fast).2.sketch
      (existing.getD c.pieces.size)).source = s.source := by
  have hresult := (drawSegment_follows c existing text k style holes fast).result
  rw [hs] at hresult
  by_cases hk : k.family = .functionOfX
  · -- a function of the first coordinate leaves itself as the source for later marks
    obtain ⟨r, hread, hr⟩ : ∃ r, Restricted.ofText? text k.axis = .ok r ∧
        c.surface.frame.ofFunction style holes r = s := by
      rw [Frame.sketch, hk] at hs
      obtain ⟨r, hread, hr⟩ := Except.bind_eq_ok.mp hs
      exact ⟨r, hread, Except.ok.inj hr⟩
    have huses := plotFunction_notes hexisting hread holes style
    have hdraw : c.drawSegment text k style existing holes fast =
        c.plotFunction text k.axis holes existing style := by
      rw [drawSegment, hk]
    rw [← hdraw] at huses
    generalize c.drawSegment text k style existing holes fast = outcome at hresult huses ⊢
    obtain ⟨result, c'⟩ := outcome
    obtain rfl : result = .ok _ := hresult
    obtain ⟨-, q, hq, -, hfamily, -, hinterval, hfunction⟩ := huses.piece hexisting
    show (c'.note? _).bind Note.source? = _
    rw [note?, hq, ← hr]
    simp [Note.source?, hfamily, hinterval, hfunction]
    rfl
  · -- nothing else is a source
    have huses := drawSegment_uses hexisting text k style holes fast
    generalize c.drawSegment text k style existing holes fast = outcome at hresult huses ⊢
    obtain ⟨result, c'⟩ := outcome
    obtain rfl : result = .ok _ := hresult
    obtain ⟨-, q, hq, -, hfamily, -⟩ := huses.piece hexisting
    rw [source_of_family hq hfamily hk, source_sketch_of_ne hk hs]

theorem plotMark_source (style : PlotStyle) (functions : List ((Float → Float) × Interval Float))
    (value : Float) :
    ((c.plotMark value functions existing style).2.sketch (existing.getD c.pieces.size)).source =
      (c.surface.frame.mark style functions value).source := by
  have hnone : (c.surface.frame.mark style functions value).source = none := by
    unfold Frame.mark
    dsimp only
    split <;> rfl
  obtain ⟨hn, q, hq, -, hfamily, -⟩ := (plotMark_uses hexisting style functions value).piece
    hexisting
  rw [hn] at hq
  rw [hnone, source_of_family hq hfamily (by decide)]

end

/-! ## Jobs that fit a piece out -/

/-- A job that fits its piece out for its sketch. -/
structure Job.Fitting (f : Frame) (j : Job) : Prop extends j.Lawful f where
  fits : ∀ (c : Canvas) (existing : Option PieceId), c.surface.frame = f →
    (∀ n, existing = some n → ∃ p, c.piece? n = some p) →
    c.FitsOut existing j.sketch (j.draw c existing)
  source : ∀ (c : Canvas) (existing : Option PieceId), c.surface.frame = f →
    (∀ n, existing = some n → ∃ p, c.piece? n = some p) → ∀ s, j.sketch = .ok s →
    ((j.draw c existing).2.sketch (existing.getD c.pieces.size)).source = s.source

theorem fitting_segmentJob (f : Frame) (style : PlotStyle) (holes : List Float) (fast : Bool)
    {s : List Char × Classification} (hs : s.2.family ≠ .implicit) :
    (segmentJob f style holes fast s).Fitting f := by
  refine { (Job.OfPlot.segment style holes fast s).lawful with fits := ?_, source := ?_ }
  · rintro c existing rfl hexisting
    exact drawSegment_fits hexisting s.1 hs style holes fast
  · rintro c existing rfl hexisting sketch hsketch
    exact drawSegment_source hexisting s.1 s.2 style holes fast hsketch

theorem fitting_markJob (f : Frame) (style : PlotStyle)
    (functions : List ((Float → Float) × Interval Float)) (value : Float) :
    (markJob f style functions value).Fitting f := by
  refine { (Job.OfPlot.mark style functions value).lawful with fits := ?_, source := ?_ }
  · rintro c existing rfl hexisting
    exact plotMark_fits hexisting style functions value
  · rintro c existing rfl hexisting sketch ⟨⟩
    exact plotMark_source hexisting style functions value

/-- What a piece that a job was done with has: the kind, handles for what the sketch shows, and the
function that it stands for. -/
structure Serves (c : Canvas) (n : PieceId) (j : Job) : Prop where
  kind : c.isOfKind j.kind n = true
  parts : ∀ s, j.sketch = .ok s → ∀ σ, (s.parts σ).isSome = true → c.Has n σ
  source : ∀ s, j.sketch = .ok s → (c.sketch n).source = s.source

theorem Serves.congr {j : Job} (h : c.Serves n j) (hpiece : c'.piece? n = c.piece? n) :
    c'.Serves n j := by
  refine ⟨?_, fun s hs σ hσ => ?_, fun s hs => ?_⟩
  · rw [isOfKind, hpiece]
    exact h.kind
  · rw [Has, spot?, hpiece]
    exact h.parts s hs σ hσ
  · rw [← h.source s hs]
    show (c'.note? n).bind _ = (c.note? n).bind _
    rw [note?, note?, hpiece]

/-- What comes of a job that does not fail. -/
theorem Job.Fitting.done {f : Frame} {j : Job} (hj : j.Fitting f)
    (hf : c.surface.frame = f) {existing : Option PieceId}
    (hexisting : ∀ n, existing = some n → ∃ p, c.piece? n = some p) {s : Sketch}
    (hs : j.sketch = .ok s) :
    ∃ c', j.draw c existing = (.ok (existing.getD c.pieces.size), c') ∧
      c'.Serves (existing.getD c.pieces.size) j ∧
      (∀ m, m ≠ existing.getD c.pieces.size → c'.piece? m = c.piece? m) ∧
      ((∀ σ, (s.parts σ).isSome = true → c.Has (existing.getD c.pieces.size) σ) →
        c'.surface.handles.size = c.surface.handles.size) := by
  obtain ⟨family, Notes, huses⟩ := hj.uses c existing hexisting
  have hresult := (hj.follows c existing hf).result
  have hfits := hj.fits c existing hf hexisting s hs
  have hsource := hj.source c existing hf hexisting
  rw [hs] at hresult
  generalize j.draw c existing = outcome at huses hresult hfits hsource ⊢
  obtain ⟨result, c'⟩ := outcome
  obtain rfl : result = .ok _ := hresult
  obtain ⟨-, q, hq, hkind, -⟩ := huses.piece hexisting
  refine ⟨c', rfl, ⟨?_, ?_, hsource⟩, huses.spares.piece, hfits.still⟩
  · rw [isOfKind, hq, Option.any_some, beq_iff_eq]
    exact hkind
  · intro s' hs' σ hσ
    rw [hs] at hs'
    cases hs'
    exact hfits.given σ hσ

/-! ## The first plot -/

/-- The pieces that jobs were done with serve them, in their order. -/
def Served (p : Progress) (done : List Job) : Prop :=
  List.Forall₂ (fun n j => p.canvas.Serves n j) p.drawn done

theorem Served.run {p : Progress} {done : List Job} (h : Served p done) (hlisted : Listed p)
    {f : Frame} (hf : p.canvas.surface.frame = f) {j : Job} (hj : j.Fitting f) {s : Sketch}
    (hs : j.sketch = .ok s) : Served (p.run j) (done ++ [j]) := by
  obtain ⟨c', hdraw, hserves, hothers, -⟩ := hj.done hf (hlisted.exists_piece j.kind) hs
  have hnew : ∀ m ∈ p.drawn, m ≠ (p.take j.kind).1.getD p.canvas.pieces.size := by
    rintro m hm rfl
    have hall := p.groups_perm j.kind
    cases htake : (p.take j.kind).1 with
    | none =>
      rw [htake] at hm
      exact absurd (hlisted.lt _ (List.mem_append_left _ hm)) (Nat.lt_irrefl _)
    | some n =>
      rw [htake] at hm hall
      have hfresh : n ∉ p.drawn ++ ((p.take j.kind).2.pool ++ p.spare) :=
        (List.nodup_cons.mp (hall.nodup_iff.mp hlisted.nodup)).1
      exact hfresh (List.mem_append_left _ hm)
  rw [Progress.run, hdraw, p.take_eq]
  refine List.rel_append ?_ (.cons hserves .nil)
  refine ((List.forall₂_and_left _ _).mpr ⟨hnew, h⟩).imp ?_
  rintro m k ⟨hm, hk⟩
  exact hk.congr (hothers m hm)

theorem Served.foldl_run {p : Progress} {done : List Job} (h : Served p done)
    (hlisted : Listed p) {f : Frame} (hf : p.canvas.surface.frame = f) {jobs : List Job}
    (hjobs : ∀ j ∈ jobs, j.Fitting f) (hok : ∀ j ∈ jobs, ∃ s, j.sketch = .ok s) :
    (jobs.foldl Progress.run p).canvas.surface.frame = f ∧
      Listed (jobs.foldl Progress.run p) ∧ Served (jobs.foldl Progress.run p) (done ++ jobs) := by
  refine Progress.foldl_run_rec (P := fun p done => Listed p ∧ Served p done)
    (fun j hj => (hjobs j hj).toLawful) (fun p done j hj hf hp => ?_) hf ⟨hlisted, h⟩
  obtain ⟨s, hs⟩ := hok j hj
  exact ⟨hp.1.run (hjobs j hj).toLawful hf, hp.2.run hp.1 hf (hjobs j hj) hs⟩

/-! ## The plot after it -/

/-- Whether a piece that serves a job has all that another job needs. -/
def Job.Like (j j' : Job) : Prop :=
  j'.kind = j.kind ∧ ∀ s s', j.sketch = .ok s → j'.sketch = .ok s' → SameParts s s'

/-- The first pieces of the pool are drawn with, in their order, and no handle is made. -/
structure InPlace (p p' : Progress) (ds rest : List PieceId) : Prop where
  drawn : p'.drawn = p.drawn ++ ds
  pool : p'.pool = rest
  spare : p'.spare = p.spare
  others : ∀ m, m ∉ ds → p'.canvas.piece? m = p.canvas.piece? m
  still : p'.canvas.surface.handles.size = p.canvas.surface.handles.size

theorem InPlace.trans {p p' p'' : Progress} {ds ds' rest rest' : List PieceId}
    (h : InPlace p p' ds rest') (h' : InPlace p' p'' ds' rest) :
    InPlace p p'' (ds ++ ds') rest where
  drawn := by rw [h'.drawn, h.drawn, List.append_assoc]
  pool := h'.pool
  spare := h'.spare.trans h.spare
  others m hm :=
    (h'.others m fun hmem => hm (List.mem_append_right _ hmem)).trans
      (h.others m fun hmem => hm (List.mem_append_left _ hmem))
  still := h'.still.trans h.still

/-- The first piece of the pool is taken if it is of the right kind. -/
theorem Progress.take_of_head {p : Progress} {rest : List PieceId} {kind : PieceKind}
    (hpool : p.pool = n :: rest) (hkind : p.canvas.isOfKind kind n = true) :
    p.take kind = (some n, { p with pool := rest }) := by
  have hindex : p.canvas.indexOfKind? p.pool kind = some 0 := by
    rw [hpool, indexOfKind?, List.findIdx?_cons]
    exact if_pos hkind
  rw [Progress.take, hindex, hpool]
  rfl

theorem Progress.run_inPlace {p : Progress} {rest : List PieceId} (hpool : p.pool = n :: rest)
    {f : Frame} (hf : p.canvas.surface.frame = f) {j j' : Job} (hserves : p.canvas.Serves n j)
    (hlike : j.Like j') (hj' : j'.Fitting f) {s s' : Sketch} (hs : j.sketch = .ok s)
    (hs' : j'.sketch = .ok s') :
    InPlace p (p.run j') [n] rest ∧ (p.run j').canvas.Serves n j' := by
  have hpiece : ∀ m, some n = some m → ∃ q, p.canvas.piece? m = some q := by
    rintro m ⟨⟩
    have hkind := hserves.kind
    rw [isOfKind] at hkind
    exact (Option.any_eq_true _ _).mp hkind |>.imp fun q hq => hq.1
  have hkind : p.canvas.isOfKind j'.kind n = true := hlike.1 ▸ hserves.kind
  obtain ⟨hparts, -⟩ := hlike.2 s s' hs hs'
  obtain ⟨c', hdraw, hserves', hothers, hstill⟩ := hj'.done hf hpiece hs'
  rw [Progress.run, Progress.take_of_head hpool hkind, hdraw]
  refine ⟨⟨rfl, rfl, rfl, fun m hm => ?_, ?_⟩, hserves'⟩
  · exact hothers m fun heq => hm (List.mem_singleton.mpr heq)
  · refine hstill fun σ hσ => hserves.parts s hs σ ?_
    rw [← hparts σ]
    exact hσ

/-- Jobs are done in place with pieces that serve jobs like them. -/
theorem Progress.foldl_run_inPlace {p : Progress} {ds rest : List PieceId}
    (hpool : p.pool = ds ++ rest) (hnodup : ds.Nodup) {f : Frame}
    (hf : p.canvas.surface.frame = f) {jobs jobs' : List Job}
    (hserves : List.Forall₂ (fun n j => p.canvas.Serves n j) ds jobs)
    (hlike : List.Forall₂ Job.Like jobs jobs') (hjobs' : ∀ j ∈ jobs', j.Fitting f)
    (hok : ∀ j ∈ jobs, ∃ s, j.sketch = .ok s) (hok' : ∀ j ∈ jobs', ∃ s, j.sketch = .ok s) :
    InPlace p (jobs'.foldl Progress.run p) ds rest ∧
      List.Forall₂ (fun n j => (jobs'.foldl Progress.run p).canvas.Serves n j) ds jobs' := by
  -- the pieces that are still to come stay as they are, since no piece is there twice
  induction hlike generalizing p ds with
  | nil =>
    cases hserves
    exact ⟨⟨(List.append_nil _).symm, hpool, rfl, fun _ _ => rfl, rfl⟩, .nil⟩
  | @cons j j' jobs jobs' hjj' hlike ih =>
    obtain _ | @⟨n, _, ds, _, hn, hserves⟩ := hserves
    obtain ⟨hfresh, hnodup⟩ := List.nodup_cons.mp hnodup
    obtain ⟨s, hs⟩ := hok j List.mem_cons_self
    obtain ⟨s', hs'⟩ := hok' j' List.mem_cons_self
    have hj' := hjobs' j' List.mem_cons_self
    obtain ⟨hstep, hdone⟩ := Progress.run_inPlace hpool hf hn hjj' hj' hs hs'
    have hlater : List.Forall₂ (fun n j => (p.run j').canvas.Serves n j) ds jobs := by
      have hne : ∀ m ∈ ds, m ≠ n := fun m hm heq => hfresh (heq ▸ hm)
      refine ((List.forall₂_and_left _ _).mpr ⟨hne, hserves⟩).imp ?_
      rintro m k ⟨hm, hk⟩
      exact hk.congr (hstep.others m fun hmem => hm (List.mem_singleton.mp hmem))
    obtain ⟨hrest, hserved⟩ := ih hstep.pool hnodup (Progress.frame_run hj'.toLawful hf) hlater
      (fun k hk => hjobs' k (List.mem_cons_of_mem j' hk))
      (fun k hk => hok k (List.mem_cons_of_mem j hk))
      fun k hk => hok' k (List.mem_cons_of_mem j' hk)
    exact ⟨hstep.trans hrest, .cons (hdone.congr (hrest.others n hfresh)) hserved⟩

/-! ## Jobs of the same relation -/

/-- The functions of the horizontal coordinate among the sketches of some jobs. -/
def functionsFor (jobs : List Job) : List ((Float → Float) × Interval Float) :=
  jobs.filterMap fun j => j.sketch.toOption.bind (·.source)

/-- The functions that marks are told by are those of the jobs done before. -/
theorem functionsOf_of_serves {ns : List PieceId} {jobs : List Job}
    (h : List.Forall₂ (fun n j => c.Serves n j) ns jobs)
    (hok : ∀ j ∈ jobs, ∃ s, j.sketch = .ok s) : c.functionsOf ns = functionsFor jobs := by
  rw [functionsOf_eq]
  induction h with
  | nil => rfl
  | @cons n j ns jobs hn _ ih =>
    obtain ⟨s, hs⟩ := hok j List.mem_cons_self
    have hsource : j.sketch.toOption.bind (·.source) = (c.sketch n).source := by
      rw [hn.source s hs, hs]
      rfl
    rw [functionsFor, List.map_cons, filterMap_cons_eq, filterMap_cons_eq, hsource,
      ih fun k hk => hok k (List.mem_cons_of_mem j hk)]
    rfl

theorem functionsFor_of_like {jobs jobs' : List Job} (h : List.Forall₂ Job.Like jobs jobs')
    (hok : ∀ j ∈ jobs, ∃ s, j.sketch = .ok s) (hok' : ∀ j ∈ jobs', ∃ s, j.sketch = .ok s) :
    functionsFor jobs' = functionsFor jobs := by
  induction h with
  | nil => rfl
  | @cons j j' jobs jobs' hj _ ih =>
    obtain ⟨s, hs⟩ := hok j List.mem_cons_self
    obtain ⟨s', hs'⟩ := hok' j' List.mem_cons_self
    have hsource : j'.sketch.toOption.bind (·.source) = j.sketch.toOption.bind (·.source) := by
      rw [hs, hs']
      exact (hj.2 s s' hs hs').2
    rw [functionsFor, functionsFor, filterMap_cons_eq, filterMap_cons_eq, hsource]
    exact congrArg _ (ih (fun k hk => hok k (List.mem_cons_of_mem j hk))
      fun k hk => hok' k (List.mem_cons_of_mem j' hk))

theorem like_segmentJobs (f : Frame) (style style' : PlotStyle) (holes : List Float)
    (fast fast' : Bool) (segments : List (List Char × Classification)) :
    List.Forall₂ Job.Like (segmentJobs f style holes fast segments)
      (segmentJobs f style' holes fast' segments) := by
  unfold segmentJobs
  rw [List.forall₂_map_left_iff, List.forall₂_map_right_iff, List.forall₂_same]
  exact fun s _ =>
    ⟨rfl, fun _ _ hs hs' => sameParts_sketch f s.1 s.2 style style' holes fast fast' hs hs'⟩

theorem like_markJobs (f : Frame) (style style' : PlotStyle)
    (functions : List ((Float → Float) × Interval Float)) (values : List Float) :
    List.Forall₂ Job.Like (markJobs f style functions values)
      (markJobs f style' functions values) := by
  unfold markJobs
  rw [List.forall₂_map_left_iff, List.forall₂_map_right_iff, List.forall₂_same]
  rintro v - 
  refine ⟨rfl, ?_⟩
  rintro s s' ⟨⟩ ⟨⟩
  exact sameParts_mark f style style' functions v

theorem fitting_segmentJobs (f : Frame) (style : PlotStyle) (holes : List Float) (fast : Bool)
    {segments : List (List Char × Classification)}
    (hsegments : ∀ s ∈ segments, s.2.family ≠ .implicit) :
    ∀ j ∈ segmentJobs f style holes fast segments, j.Fitting f := by
  intro j hj
  obtain ⟨s, hs, rfl⟩ := List.mem_map.mp hj
  exact fitting_segmentJob f style holes fast (hsegments s (List.mem_of_mem_filter hs))

theorem fitting_markJobs (f : Frame) (style : PlotStyle)
    (functions : List ((Float → Float) × Interval Float)) (values : List Float) :
    ∀ j ∈ markJobs f style functions values, j.Fitting f := by
  intro j hj
  obtain ⟨v, -, rfl⟩ := List.mem_map.mp hj
  exact fitting_markJob f style functions v

/-- When nothing is skipped, every segment has a sketch. -/
theorem ok_segmentJobs {f : Frame} {style : PlotStyle} {holes : List Float} {fast : Bool}
    {relation : List Char} {name : String} {r : PlotResult}
    (hr : r.skipped = (segmentsOf relation name).filterMap (f.skip? style holes fast))
    (hskipped : r.skipped = []) :
    ∀ j ∈ segmentJobs f style holes fast (segmentsOf relation name), ∃ s, j.sketch = .ok s := by
  intro j hj
  obtain ⟨s, hs, rfl⟩ := List.mem_map.mp hj
  obtain ⟨hs, hfamily⟩ := List.mem_filter.mp hs
  have hnone : r.skips s.1 = false := by
    rw [PlotResult.skips, hskipped]
    rfl
  have hsome := isSome_sketch hr hs hfamily
  rw [hnone] at hsome
  show ∃ k, f.sketch s.1 s.2 style holes fast = .ok k
  cases hsketch : f.sketch s.1 s.2 style holes fast with
  | error e =>
    rw [hsketch] at hsome
    cases hsome
  | ok k => exact ⟨k, rfl⟩

theorem ok_markJobs (f : Frame) (style : PlotStyle)
    (functions : List ((Float → Float) × Interval Float)) (values : List Float) :
    ∀ j ∈ markJobs f style functions values, ∃ s, j.sketch = .ok s := by
  intro j hj
  obtain ⟨v, -, rfl⟩ := List.mem_map.mp hj
  exact ⟨_, rfl⟩

/-! ## Whole plots -/

theorem frame_resume (s : Surface) : s.resume.frame = s.frame := by
  obtain ⟨g, q, d, hsame⟩ := Surface.Same.resume s
  rw [hsame]
  rfl

/-- When nothing is skipped and no segment is an implicit relation, the pieces that are drawn come
first, and serve their jobs. -/
theorem plot_serves {relation : List Char} {options : PlotOptions} {previous : List PieceId}
    (hnodup : previous.Nodup) (hprevious : ∀ n ∈ previous, n < c.pieces.size) {r : PlotResult}
    (hplot : c.plot relation options previous = (.ok r, c')) (hskipped : r.skipped = [])
    (hsegments : ∀ s ∈ segmentsOf relation options.name, s.2.family ≠ .implicit) :
    ∃ style drawn marks left,
      PlotStyle.ofOptions? options.style = .ok style ∧ c'.surface.frame = c.surface.frame ∧
      r.pieces = drawn ++ (marks ++ left) ∧
      let jobs := segmentJobs c.surface.frame style (holesOf (segmentsOf relation options.name))
        options.fast (segmentsOf relation options.name)
      (∀ j ∈ jobs, ∃ s, j.sketch = .ok s) ∧
      List.Forall₂ (fun n j => c'.Serves n j) drawn jobs ∧
      List.Forall₂ (fun n j => c'.Serves n j) marks (markJobs c.surface.frame style
        (functionsFor jobs) (holesOf (segmentsOf relation options.name))) := by
  obtain ⟨style, hstyle, hholes, htally⟩ := plot_of_ok hplot
  rw [plot_eq_of_jobs hstyle c relation previous hholes] at hplot
  set f := c.surface.frame
  set segments := segmentsOf relation options.name
  set jobs := segmentJobs f style (holesOf segments) options.fast segments
  have hok : ∀ j ∈ jobs, ∃ s, j.sketch = .ok s := ok_segmentJobs htally hskipped
  -- the jobs of the segments are served first: the marks depend on the functions that they showed
  have hserved : Served (.start c previous) [] := .nil
  obtain ⟨hframe, hlisted, hshown⟩ := hserved.foldl_run (.start hnodup hprevious)
    (Progress.frame_start c previous)
    (fitting_segmentJobs f style (holesOf segments) options.fast hsegments) hok
  rw [List.nil_append] at hshown
  dsimp only at hplot
  generalize List.foldl Progress.run (.start c previous) _ = shown at hplot hshown hlisted hframe
  rw [functionsOf_of_serves hshown hok] at hplot
  obtain ⟨hframe', -, hall⟩ := hshown.foldl_run hlisted hframe
    (fitting_markJobs f style (functionsFor jobs) (holesOf segments))
    (ok_markJobs f style (functionsFor jobs) (holesOf segments))
  generalize List.foldl Progress.run shown _ = marked at hplot hall hframe'
  cases hplot
  have hserves : List.Forall₂ (fun n j => (marked.canvas.onSurface Surface.resume).Serves n j)
      marked.drawn (jobs ++ markJobs f style (functionsFor jobs) (holesOf segments)) :=
    hall.imp fun n j h => h.congr rfl
  refine ⟨style, marked.drawn.take jobs.length, marked.drawn.drop jobs.length,
    marked.pool ++ marked.spare, hstyle, (frame_resume _).trans hframe', ?_, hok, ?_, ?_⟩
  · show marked.drawn ++ (marked.pool ++ marked.spare) = _
    rw [← List.append_assoc (marked.drawn.take jobs.length), List.take_append_drop]
  · exact List.forall₂_take_append _ _ _ hserves
  · exact List.forall₂_drop_append _ _ _ hserves

theorem Serves.foldl_hidePiece {j : Job} (h : c.Serves n j) (ms : List PieceId) :
    (ms.foldl hidePiece (c.onSurface Surface.suspend)).Serves n j := by
  have hhide : ∀ (ms : List PieceId) (c : Canvas), c.Serves n j →
      (ms.foldl hidePiece c).Serves n j := by
    intro ms
    induction ms with
    | nil => exact fun _ h => h
    | cons m ms ih =>
      intro c h
      refine ih _ ⟨?_, fun s hs σ hσ => ?_, fun s hs => ?_⟩
      · rw [isOfKind_hidePiece]
        exact h.kind
      · rw [Has, spot?_hidePiece]
        exact h.parts s hs σ hσ
      · rw [← h.source s hs]
        show ((c.hidePiece m).note? n).bind _ = (c.note? n).bind _
        rw [note?, note?, hidePiece, piece?_modify]
        show ((if m = n then (c.piece? n).map _ else c.piece? n).map _).bind _ = _
        split
        · cases c.piece? n <;> rfl
        · rfl
  exact hhide ms _ (h.congr rfl)

theorem size_handles_start (c : Canvas) (previous : List PieceId) :
    (Progress.start c previous).canvas.surface.handles.size = c.surface.handles.size :=
  foldl_keeps (fun c : Canvas => c.surface.handles.size)
    (fun c m => foldl_keeps (fun s : Surface => s.handles.size)
      (fun s k => Surface.size_handles_of_touches (Surface.touches_setVisible s k false))
      (c.handles m) c.surface) previous _

/-- A plot with pieces that serve jobs like its own takes them in their order, and makes no
handle. -/
theorem plot_inPlace {relation : List Char} {options : PlotOptions} {style : PlotStyle}
    (hstyle : PlotStyle.ofOptions? options.style = .ok style) {drawn marks left : List PieceId}
    (hnodup : (drawn ++ (marks ++ left)).Nodup) {r : PlotResult}
    (hplot : c.plot relation options (drawn ++ (marks ++ left)) = (.ok r, c'))
    (hskipped : r.skipped = [])
    (hsegments : ∀ s ∈ segmentsOf relation options.name, s.2.family ≠ .implicit)
    {style' : PlotStyle} {fast' : Bool} {jobs : List Job}
    (hjobs : jobs = segmentJobs c.surface.frame style'
      (holesOf (segmentsOf relation options.name)) fast' (segmentsOf relation options.name))
    (hok : ∀ j ∈ jobs, ∃ s, j.sketch = .ok s)
    (hdrawn : List.Forall₂ (fun n j => c.Serves n j) drawn jobs)
    (hmarks : List.Forall₂ (fun n j => c.Serves n j) marks (markJobs c.surface.frame style'
      (functionsFor jobs) (holesOf (segmentsOf relation options.name)))) :
    r.pieces = drawn ++ (marks ++ left) ∧
      c'.surface.handles.size = c.surface.handles.size := by
  obtain ⟨style₀, hstyle₀, hholes, htally⟩ := plot_of_ok hplot
  obtain rfl : style₀ = style := Except.ok.inj (hstyle₀.symm.trans hstyle)
  rw [plot_eq_of_jobs hstyle c relation _ hholes] at hplot
  set f := c.surface.frame
  set segments := segmentsOf relation options.name
  set jobs' := segmentJobs f style₀ (holesOf segments) options.fast segments
  have hok' : ∀ j ∈ jobs', ∃ s, j.sketch = .ok s := ok_segmentJobs htally hskipped
  have hlike : List.Forall₂ Job.Like jobs jobs' := by
    rw [hjobs]
    exact like_segmentJobs f style' style₀ (holesOf segments) fast' options.fast segments
  obtain ⟨hnodup₁, hnodup₂, hdisjoint⟩ := List.nodup_append.mp hnodup
  have hfitting := fitting_segmentJobs f style₀ (holesOf segments) options.fast hsegments
  set start := Progress.start c (drawn ++ (marks ++ left))
  have hframe : start.canvas.surface.frame = f := Progress.frame_start c _
  -- the pool gives the pieces to the segments in their order, and those of the marks are next
  obtain ⟨hplace, hserved⟩ := Progress.foldl_run_inPlace (p := start) rfl hnodup₁ hframe
    (hdrawn.imp fun n j h => h.foldl_hidePiece _) hlike hfitting hok hok'
  have hframe' := Progress.frame_foldl_run
    (fun j hj => (hfitting j hj).toLawful) hframe
  have hlater : List.Forall₂ (fun n j => (jobs'.foldl Progress.run start).canvas.Serves n j) marks
      (markJobs f style' (functionsFor jobs) (holesOf segments)) := by
    have hne : ∀ n ∈ marks, n ∉ drawn := fun n hn hmem =>
      hdisjoint n hmem n (List.mem_append_left _ hn) rfl
    refine ((List.forall₂_and_left _ _).mpr ⟨hne, hmarks⟩).imp ?_
    rintro n j ⟨hn, h⟩
    exact (h.foldl_hidePiece _).congr (hplace.others n hn)
  dsimp only at hplot
  generalize List.foldl Progress.run start jobs' = shown
    at hplot hplace hserved hframe' hlater
  -- the same functions are shown as before, so the marks are those that the other pieces serve
  have hfunctions : shown.canvas.functionsOf shown.drawn = functionsFor jobs := by
    rw [hplace.drawn]
    exact (functionsOf_of_serves hserved hok').trans (functionsFor_of_like hlike hok hok')
  rw [hfunctions] at hplot
  obtain ⟨hplace', -⟩ := Progress.foldl_run_inPlace hplace.pool
    (List.nodup_append.mp hnodup₂).1 hframe' hlater
    (like_markJobs f style' style₀ (functionsFor jobs) (holesOf segments))
    (fitting_markJobs f style₀ _ _) (ok_markJobs f style' _ _) (ok_markJobs f style₀ _ _)
  generalize List.foldl Progress.run shown _ = marked at hplot hplace'
  have hwhole := hplace.trans hplace'
  cases hplot
  constructor
  · show marked.drawn ++ (marked.pool ++ marked.spare) = _
    rw [hwhole.drawn, hwhole.pool, hwhole.spare]
    show [] ++ (drawn ++ marks) ++ (left ++ []) = _
    rw [List.nil_append, List.append_nil, List.append_assoc]
  · show marked.canvas.surface.resume.handles.size = _
    obtain ⟨g, q, d, hsame⟩ := Surface.Same.resume marked.canvas.surface
    rw [hsame]
    exact hwhole.still.trans (size_handles_start c _)

/-! ## Plotting again -/

/-- A plot of the relation with these pieces that skips nothing, in any style, returns them as they
are, and makes no handle. -/
def ReplotsInPlace (c : Canvas) (relation : List Char) (name : String) (ns : List PieceId) : Prop :=
  ∀ (options : PlotOptions) (r : PlotResult) (c' : Canvas), options.name = name →
    c.plot relation options ns = (.ok r, c') → r.skipped = [] →
    r.pieces = ns ∧ c'.surface.handles.size = c.surface.handles.size

section

variable {relation : List Char} {options : PlotOptions} {previous : List PieceId} {r : PlotResult}

/-- After a plot that skipped nothing and drew no implicit relation, while the bounds and its pieces
stay. -/
theorem replotsInPlace (hnodup : previous.Nodup) (hprevious : ∀ n ∈ previous, n < c.pieces.size)
    (hplot : c.plot relation options previous = (.ok r, c')) (hskipped : r.skipped = [])
    (hsegments : ∀ s ∈ segmentsOf relation options.name, s.2.family ≠ .implicit) {c₂ : Canvas}
    (hframe : c₂.surface.frame = c'.surface.frame)
    (hpieces : ∀ n ∈ r.pieces, c₂.piece? n = c'.piece? n) :
    c₂.ReplotsInPlace relation options.name r.pieces := by
  intro options' r' c₃ hname hplot' hskipped'
  obtain ⟨hnodup', -⟩ := plot_counts hnodup hprevious hplot
  obtain ⟨style, drawn, marks, left, -, hframe', hr, hok, hdrawn, hmarks⟩ :=
    plot_serves hnodup hprevious hplot hskipped hsegments
  obtain ⟨style', hstyle', -⟩ := plot_of_ok hplot'
  have hsame : c₂.surface.frame = c.surface.frame := hframe.trans hframe'
  have hstay : ∀ ns : List PieceId, (∀ n ∈ ns, n ∈ r.pieces) → ∀ jobs,
      List.Forall₂ (fun n j => c'.Serves n j) ns jobs →
      List.Forall₂ (fun n j => c₂.Serves n j) ns jobs := by
    intro ns hns jobs h
    refine ((List.forall₂_and_left _ _).mpr ⟨hns, h⟩).imp ?_
    rintro n j ⟨hn, h⟩
    exact h.congr (hpieces n hn)
  have hdrawn' := hstay drawn (fun n hn => hr ▸ List.mem_append_left _ hn) _ hdrawn
  have hmarks' := hstay marks
    (fun n hn => hr ▸ List.mem_append_right _ (List.mem_append_left _ hn)) _ hmarks
  rw [hr] at hnodup' hplot' ⊢
  rw [← hname, ← hsame] at hdrawn' hmarks'
  rw [← hname] at hsegments
  rw [← hname, ← hsame] at hok
  exact plot_inPlace hstyle' hnodup' hplot' hskipped' hsegments rfl hok hdrawn' hmarks'

/-- The same plot again does not fail, and skips the same. -/
theorem plot_again (hplot : c.plot relation options previous = (.ok r, c')) {c₂ : Canvas}
    (hframe : c₂.surface.frame = c.surface.frame) (ns : List PieceId) :
    ∃ r' c₃, c₂.plot relation options ns = (.ok r', c₃) ∧ r'.skipped = r.skipped := by
  obtain ⟨style, hstyle, hholes, htally⟩ := plot_of_ok hplot
  obtain ⟨drawn, left, c₃, hplot', -⟩ := plot_of_holes c₂ hstyle relation hholes ns
  refine ⟨_, c₃, hplot', ?_⟩
  rw [htally, ← hframe]

/-- A plot with any pieces there are, each given once, returns pieces that exist, each once.

Of each kind it returns those that it is given, and a new one for each use that succeeds after as
many uses of this kind as there were pieces to take. So there are at least as many as were given and
as are drawn, and just the larger number of both if no use of this kind fails; but a use that fails
has taken its piece all the same, and a later one does without.

If nothing is skipped and no segment is an implicit relation, then the plot can be repeated with its
own pieces, while the bounds and these pieces stay: it returns the same pieces in the same order,
and no handle is made, in whatever style it is plotted again. -/
theorem plot_allocates (hnodup : previous.Nodup) (hprevious : ∀ n ∈ previous, n < c.pieces.size)
    (hplot : c.plot relation options previous = (.ok r, c')) :
    r.pieces.Nodup ∧ (∀ n ∈ r.pieces, n < c'.pieces.size) ∧
    (∀ kind,
      let given := c.countOf kind previous
      let tries := triesOf kind (r.uses (segmentsOf relation options.name))
      c'.countOf kind r.pieces = given + (tries.drop given).count true ∧
      max given (tries.count true) ≤ c'.countOf kind r.pieces ∧
      c'.countOf kind r.pieces ≤ max given tries.length ∧
      (false ∉ tries → c'.countOf kind r.pieces = max given (tries.count true))) ∧
    (r.skipped = [] → (∀ s ∈ segmentsOf relation options.name, s.2.family ≠ .implicit) →
      ∀ c₂ : Canvas, c₂.surface.frame = c'.surface.frame →
        (∀ n ∈ r.pieces, c₂.piece? n = c'.piece? n) →
        c₂.ReplotsInPlace relation options.name r.pieces ∧
        ∃ r' c₃, c₂.plot relation options r.pieces = (.ok r', c₃) ∧ r'.skipped = []) := by
  obtain ⟨hnodup', hlt, hcounts⟩ := plot_counts hnodup hprevious hplot
  refine ⟨hnodup', hlt, fun kind => ?_, fun hskipped hsegments c₂ hframe hpieces => ⟨?_, ?_⟩⟩
  · intro given tries
    rw [hcounts kind]
    exact ⟨rfl, given_add_count_drop given tries⟩
  · exact replotsInPlace hnodup hprevious hplot hskipped hsegments hframe hpieces
  · obtain ⟨-, -, -, -, -, hframe', -⟩ := plot_serves hnodup hprevious hplot hskipped hsegments
    obtain ⟨r', c₃, hplot', hagain⟩ := plot_again hplot (hframe.trans hframe') r.pieces
    exact ⟨r', c₃, hplot', hagain.trans hskipped⟩

end

/-- A line on a new surface, and the same line again with its piece. -/
theorem plot_allocates_line :
    let c : Canvas := { surface := { width := 40, height := 40, bounds := ⟨-1, 1, -1, 1⟩ } }
    ∃ c' r, c.plot "y = x".toList {} [] = (.ok r, c') ∧ c'.countOf .curve r.pieces = 1 ∧
      ∃ r' c₃, c'.plot "y = x".toList {} r.pieces = (.ok r', c₃) ∧ r'.pieces = r.pieces ∧
        c₃.surface.handles.size = c'.surface.handles.size := by
  intro c
  obtain ⟨style, hstyle⟩ : ∃ style, PlotStyle.ofOptions? ({} : PlotOptions).style = .ok style :=
    ⟨_, rfl⟩
  obtain ⟨holes, hholes⟩ : ∃ holes, holeValues (segmentsOf "y = x".toList "x") = .ok holes :=
    Except.exists_eq_ok (by decide +kernel)
  have hread : ∀ s ∈ segmentsOf "y = x".toList "x", s.2.family = .functionOfX ∧
      (Restricted.ofText? s.1 s.2.axis).toOption.isSome = true := by decide +kernel
  have hnone : ∀ s ∈ segmentsOf "y = x".toList "x",
      c.surface.frame.skip? style holes false s = none := by
    intro s hs
    obtain ⟨hfamily, hok⟩ := hread s hs
    obtain ⟨r, hr⟩ := Except.exists_eq_ok hok
    rw [Frame.skip?, Frame.sketch, hfamily, hr]
    rfl
  obtain ⟨drawn, left, c', hplot, -⟩ := plot_of_holes c hstyle "y = x".toList hholes []
  rw [List.filterMap_eq_nil_iff.mpr hnone] at hplot
  obtain ⟨-, -, hcounts, hagain⟩ :=
    plot_allocates List.nodup_nil (fun n hn => absurd hn List.not_mem_nil) hplot
  obtain ⟨hplace, r', c₃, hplot', hskipped⟩ := hagain rfl
    (fun s hs => by rw [(hread s hs).1]; decide) c' rfl fun _ _ => rfl
  obtain ⟨hpieces, hsize⟩ := hplace {} r' c₃ rfl hplot' hskipped
  have htries : ∀ pieces : List PieceId, triesOf .curve
      (PlotResult.uses ⟨pieces, []⟩ (segmentsOf "y = x".toList "x")) = [true] := by
    intro pieces
    show triesOf .curve (PlotResult.uses ⟨[], []⟩ (segmentsOf "y = x".toList "x")) = [true]
    decide +kernel
  refine ⟨c', _, hplot, ?_, r', c₃, hplot', hpieces, hsize⟩
  rw [(hcounts .curve).1, htries]
  rfl

end Graphing.Canvas
