/-
  Graphing.Proofs.Plot.Allocation

  How many pieces a plot allocates.

  A segment takes a piece of its kind out of the pool, whether or not it can be
  drawn with it, and a new piece is made just for a segment that finds none and
  can be drawn.  So the pieces of a kind are counted by the uses of this kind in
  their order (`Counted`): the first ones are served by the pool, and each later
  one that succeeds adds a piece.
-/
import Graphing.Proofs.Plot.Accounting

open Graphing.Relation (Classification Family)

namespace Graphing

/-! ## Uses of pieces -/

/-- Which uses of a kind succeed, among uses of all kinds in their order. -/
def triesOf (kind : PieceKind) (uses : List (PieceKind × Bool)) : List Bool :=
  (uses.filter (·.1 == kind)).map Prod.snd

/-- The uses of pieces in a plot, and which of them succeed: one for each segment that excludes no
value, and then one for each excluded value, which always succeeds. -/
def PlotResult.uses (r : PlotResult) (segments : List (List Char × Classification)) :
    List (PieceKind × Bool) :=
  ((segments.filter fun s => s.2.family != .asymptote).map fun s =>
      (Canvas.kindOf s.2.family, !r.skips s.1)) ++
    (holesOf segments).map fun _ => (.asymptote, true)

theorem triesOf_append (kind : PieceKind) (uses uses' : List (PieceKind × Bool)) :
    triesOf kind (uses ++ uses') = triesOf kind uses ++ triesOf kind uses' := by
  rw [triesOf, List.filter_append, List.map_append]
  rfl

theorem triesOf_singleton (kind k : PieceKind) (b : Bool) :
    triesOf kind [(k, b)] = if k = kind then [b] else [] := by
  by_cases h : k = kind <;> simp [triesOf, h]

/-- One more try counts if it succeeds and is none of the first ones. -/
theorem count_drop_concat (given : Nat) (tries : List Bool) (b : Bool) :
    ((tries ++ [b]).drop given).count true =
      (tries.drop given).count true + if given ≤ tries.length ∧ b = true then 1 else 0 := by
  rw [List.drop_append, List.count_append]
  by_cases hle : given ≤ tries.length
  · rw [Nat.sub_eq_zero_of_le hle]
    cases b <;> simp [hle]
  · have hpos : [b].length ≤ given - tries.length := by
      rw [List.length_singleton]
      omega
    rw [List.drop_of_length_le hpos]
    simp [hle]

/-- What is given and what is added are together as many as needed, and not more than were tried. -/
theorem given_add_count_drop (given : Nat) (tries : List Bool) :
    max given (tries.count true) ≤ given + (tries.drop given).count true ∧
      given + (tries.drop given).count true ≤ max given tries.length ∧
      (false ∉ tries → given + (tries.drop given).count true = max given (tries.count true)) := by
  have hparts : tries.count true =
      (tries.take given).count true + (tries.drop given).count true := by
    rw [← List.count_append, List.take_append_drop]
  have htake : (tries.take given).count true ≤ given :=
    Nat.le_trans List.count_le_length (List.length_take_le given tries)
  have hdrop : (tries.drop given).count true ≤ tries.length - given :=
    Nat.le_trans List.count_le_length (Nat.le_of_eq List.length_drop)
  refine ⟨by omega, by omega, fun hall => ?_⟩
  have hwhole : ∀ l : List Bool, false ∉ l → l.count true = l.length := by
    intro l hl
    refine List.count_eq_length.mpr fun b hb => ?_
    cases b with
    | true => rfl
    | false => exact absurd hb hl
  rw [hwhole _ fun hmem => hall (List.mem_of_mem_drop hmem), hwhole _ hall, List.length_drop]
  omega

namespace Canvas

variable {c c' : Canvas} {kind : PieceKind} {n : PieceId}

/-! ## Pieces of a kind -/

/-- Whether a piece is of a kind. -/
def isOfKind (c : Canvas) (kind : PieceKind) (n : PieceId) : Bool :=
  (c.piece? n).any (·.kind == kind)

/-- How many of some pieces are of a kind. -/
def countOf (c : Canvas) (kind : PieceKind) (ns : List PieceId) : Nat :=
  ns.countP (c.isOfKind kind)

theorem countOf_append (c : Canvas) (kind : PieceKind) (ns ms : List PieceId) :
    c.countOf kind (ns ++ ms) = c.countOf kind ns + c.countOf kind ms :=
  List.countP_append

theorem countOf_perm {ns ms : List PieceId} (h : ns.Perm ms) :
    c.countOf kind ns = c.countOf kind ms :=
  h.countP_eq _

/-- Pieces are counted by their kinds. -/
theorem countOf_congr {ns : List PieceId}
    (h : ∀ n ∈ ns, c'.isOfKind kind n = c.isOfKind kind n) :
    c'.countOf kind ns = c.countOf kind ns :=
  List.countP_congr fun n hn => by rw [h n hn]

/-- A piece is of one kind only. -/
theorem countOf_singleton (h : c.isOfKind kind n = true) (k : PieceKind) :
    c.countOf k [n] = if kind = k then 1 else 0 := by
  have hof : c.isOfKind k n = (kind == k) := by
    unfold isOfKind at h ⊢
    cases hp : c.piece? n with
    | none =>
      rw [hp] at h
      cases h
    | some p =>
      rw [hp] at h
      rw [Option.any_some, eq_of_beq h]
  rw [countOf, List.countP_singleton, hof]
  simp

theorem isOfKind_hidePiece (c : Canvas) (m : PieceId) (kind : PieceKind) (n : PieceId) :
    (c.hidePiece m).isOfKind kind n = c.isOfKind kind n := by
  unfold isOfKind
  rw [hidePiece, piece?_modify]
  show (if m = n then (c.piece? n).map _ else c.piece? n).any _ = _
  split
  · cases c.piece? n <;> rfl
  · rfl

theorem isOfKind_foldl_hidePiece (ms : List PieceId) (c : Canvas) (kind : PieceKind)
    (n : PieceId) : (ms.foldl hidePiece c).isOfKind kind n = c.isOfKind kind n :=
  foldl_keeps (fun c : Canvas => c.isOfKind kind n)
    (fun c m => c.isOfKind_hidePiece m kind n) ms c

/-- Drawing with a piece of the right kind, or with a new one, leaves all kinds as they are. -/
theorem Uses.isOfKind {existing : Option PieceId} {family : Family} {Notes : Piece → Prop}
    {outcome : Outcome PieceId} (h : c.Uses existing kind family Notes outcome)
    (hexisting : ∀ n, existing = some n → c.isOfKind kind n = true) (k : PieceKind)
    (hn : n < c.pieces.size) : outcome.2.isOfKind k n = c.isOfKind k n := by
  by_cases hother : n = existing.getD c.pieces.size
  swap
  · rw [Canvas.isOfKind, h.spares.piece n hother]
    rfl
  · -- the piece that is drawn with: it was taken for its kind
    obtain rfl : existing = some n := by
      cases existing with
      | none => exact absurd hn (by rw [hother]; exact Nat.lt_irrefl _)
      | some m => rw [hother]; rfl
    have hpiece : ∀ m, some n = some m → ∃ p, c.piece? m = some p := by
      rintro m ⟨⟩
      exact ⟨_, Array.getElem?_eq_getElem hn⟩
    have hkinds : ∀ {c' : Canvas} {q : Piece}, c'.piece? n = some q → q.kind = kind →
        c'.isOfKind k n = c.isOfKind k n := by
      intro c' q hq hkind
      obtain ⟨p, hp⟩ := hpiece n rfl
      have hold := hexisting n rfl
      rw [Canvas.isOfKind, hp, Option.any_some, beq_iff_eq] at hold
      rw [Canvas.isOfKind, Canvas.isOfKind, hq, hp, Option.any_some, Option.any_some, hkind, hold]
    obtain ⟨result, c'⟩ := outcome
    cases result with
    | ok m =>
      obtain ⟨rfl, q, hq, hkind, -⟩ := h.piece hpiece
      exact hkinds hq hkind
    | error e =>
      cases h with
      | unread => rfl
      | @parked _ c₁ _ f acquired quiet idle clear =>
        obtain ⟨c₁', p, hacquire, hp, hkind, -⟩ := acquire_piece hpiece kind family
        obtain rfl : c₁ = c₁' := congrArg Prod.snd (acquired.symm.trans hacquire)
        have hnoted := piece?_modify_self hp f
        -- the piece is noted in any case, and its contours may be gone
        rcases clear with rfl | rfl
        · exact hkinds hnoted ((quiet.kind p).trans hkind)
        · obtain ⟨q, hq, hbare⟩ := Moves.exists_piece (.single .clear) hnoted
          exact hkinds hq ((Piece.fields_of_bare hbare).1.trans ((quiet.kind p).trans hkind))

/-! ## Taking pieces out of the pool -/

theorem Progress.take_isOfKind {p : Progress} (h : (p.take kind).1 = some n) :
    p.canvas.isOfKind kind n = true := by
  unfold take at h
  cases hindex : p.canvas.indexOfKind? p.pool kind with
  | none =>
    rw [hindex] at h
    cases h
  | some i =>
    rw [hindex] at h
    obtain ⟨hi, hkind, -⟩ := List.findIdx?_eq_some_iff_getElem.mp hindex
    obtain rfl : p.pool[i] = n := Option.some.inj ((List.getElem?_eq_getElem hi).symm.trans h)
    exact hkind

/-- No piece of a kind is taken just if there is none. -/
theorem Progress.take_eq_none_iff {p : Progress} :
    (p.take kind).1 = none ↔ p.canvas.countOf kind p.pool = 0 := by
  have hindex : p.canvas.indexOfKind? p.pool kind = none ↔ p.canvas.countOf kind p.pool = 0 := by
    rw [indexOfKind?, List.findIdx?_eq_none_iff, countOf, List.countP_eq_zero]
    simp [isOfKind]
  rw [← hindex]
  unfold take
  cases hi : p.canvas.indexOfKind? p.pool kind with
  | none => simp
  | some i =>
    obtain ⟨hlt, -⟩ := List.findIdx?_eq_some_iff_getElem.mp hi
    simp [hlt]

/-- The pool has one piece less of the kind that is taken, if it has one. -/
theorem Progress.countOf_take (p : Progress) (kind k : PieceKind) :
    p.canvas.countOf k (p.take kind).2.pool =
      p.canvas.countOf k p.pool - if kind = k then 1 else 0 := by
  have hperm : p.canvas.countOf k _ = p.canvas.countOf k _ := countOf_perm (p.take_perm kind)
  rw [countOf_append] at hperm
  cases htake : (p.take kind).1 with
  | none =>
    rw [htake, Option.toList_none] at hperm
    have hzero := Progress.take_eq_none_iff.mp htake
    have hnil : p.canvas.countOf k [] = 0 := rfl
    by_cases hk : kind = k
    · subst hk
      omega
    · rw [if_neg hk]
      omega
  | some n =>
    rw [htake, Option.toList_some, countOf_singleton (Progress.take_isOfKind htake)] at hperm
    omega

/-- A piece that is made for a job is of its kind. -/
theorem Progress.isOfKind_made {f : Frame} {p : Progress} (hf : p.canvas.surface.frame = f)
    {j : Job} (hj : j.Lawful f)
    (hnew : (p.take j.kind).1 = none ∧ j.sketch.toOption.isSome = true) :
    (p.run j).canvas.isOfKind j.kind p.canvas.pieces.size = true := by
  have hnone : ∀ n, (none : Option PieceId) = some n → ∃ q, p.canvas.piece? n = some q :=
    fun n hn => nomatch hn
  obtain ⟨q, hq, hkind⟩ := hj.exists_piece hf hnone hnew.2
  rw [Option.getD_none] at hq
  rw [canvas_run, hnew.1, isOfKind, hq, Option.any_some, beq_iff_eq]
  exact hkind

/-! ## Counting uses -/

/-- The kind that a job uses, and whether it succeeds. -/
def Job.use (j : Job) : PieceKind × Bool := (j.kind, j.sketch.toOption.isSome)

/-- Where a plot is that was given so many pieces of each kind: the first uses of a kind have taken
them, and every later one that succeeded has added one. -/
structure Counted (given : PieceKind → Nat) (p : Progress) (uses : List (PieceKind × Bool)) :
    Prop where
  nodup : p.groups.Nodup
  lt : ∀ n ∈ p.groups, n < p.canvas.pieces.size
  pool : ∀ k, p.canvas.countOf k p.pool = given k - (triesOf k uses).length
  all : ∀ k, p.canvas.countOf k p.groups = given k + ((triesOf k uses).drop (given k)).count true

namespace Counted

variable {given : PieceKind → Nat} {p : Progress} {uses : List (PieceKind × Bool)}

theorem listed (h : Counted given p uses) : Listed p := ⟨h.nodup, h.lt⟩

/-- Do a job with a piece of the pool, or with a new one. -/
theorem run (h : Counted given p uses) {f : Frame} (hf : p.canvas.surface.frame = f) {j : Job}
    (hj : j.Lawful f) : Counted given (p.run j) (uses ++ [j.use]) := by
  have hexisting := h.listed.exists_piece j.kind
  obtain ⟨family, Notes, huses⟩ := hj.uses p.canvas _ hexisting
  obtain ⟨hnodup, hlt⟩ := h.listed.run hj hf
  have hgroups := p.groups_run hj hf
  -- the kinds of all pieces stay, so that they are counted as before
  have hkinds : ∀ k, ∀ n < p.canvas.pieces.size,
      (p.run j).canvas.isOfKind k n = p.canvas.isOfKind k n := fun k n hn => by
    rw [Progress.canvas_run]
    exact huses.isOfKind (fun m hm => Progress.take_isOfKind hm) k hn
  have hpool : ∀ m ∈ (p.take j.kind).2.pool, m < p.canvas.pieces.size := fun m hm =>
    h.lt m ((p.groups_perm j.kind).mem_iff.mpr
      (List.mem_append_right _ (List.mem_append_right _ (List.mem_append_left _ hm))))
  have htaken : (p.take j.kind).1 = none ↔ given j.kind ≤ (triesOf j.kind uses).length := by
    rw [Progress.take_eq_none_iff, h.pool, Nat.sub_eq_zero_iff_le]
  refine ⟨hnodup, hlt, fun k => ?_, fun k => ?_⟩
  · rw [p.pool_run, countOf_congr fun n hn => hkinds k n (hpool n hn), p.countOf_take, h.pool,
      Job.use, triesOf_append, triesOf_singleton, List.length_append]
    split
    · rw [List.length_singleton]
      omega
    · rw [List.length_nil]
      omega
  · by_cases hnew : (p.take j.kind).1 = none ∧ j.sketch.toOption.isSome = true
    · -- a new piece comes beside the others
      rw [if_pos hnew] at hgroups
      rw [countOf_perm hgroups, countOf_append, countOf_singleton (Progress.isOfKind_made hf hj hnew),
        countOf_congr fun n hn => hkinds k n (h.lt n hn), h.all, Job.use, triesOf_append,
        triesOf_singleton]
      by_cases hk : j.kind = k
      · subst hk
        rw [if_pos rfl, if_pos rfl, count_drop_concat, if_pos ⟨htaken.mp hnew.1, hnew.2⟩,
          Nat.add_assoc]
      · rw [if_neg hk, if_neg hk, List.append_nil, Nat.add_zero]
    · rw [if_neg hnew, List.append_nil] at hgroups
      rw [countOf_perm hgroups, countOf_congr fun n hn => hkinds k n (h.lt n hn), h.all, Job.use,
        triesOf_append, triesOf_singleton]
      by_cases hk : j.kind = k
      · subst hk
        rw [if_pos rfl, count_drop_concat, if_neg fun hle => hnew ⟨htaken.mpr hle.1, hle.2⟩,
          Nat.add_zero]
      · rw [if_neg hk, List.append_nil]

/-- A plot begins with the pieces that it is given, and no uses. -/
theorem start (c : Canvas) {previous : List PieceId} (hnodup : previous.Nodup)
    (hprevious : ∀ n ∈ previous, n < c.pieces.size) :
    Counted (fun k => c.countOf k previous) (.start c previous) [] := by
  have hkinds : ∀ k, (Progress.start c previous).canvas.countOf k previous =
      c.countOf k previous := fun k =>
    countOf_congr fun n _ => isOfKind_foldl_hidePiece previous (c.onSurface Surface.suspend) k n
  obtain ⟨hlisted, hlt⟩ := Listed.start hnodup hprevious
  refine ⟨hlisted, hlt, hkinds, fun k => ?_⟩
  rw [Progress.groups_start, hkinds]
  simp [triesOf]

end Counted

/-! ## Whole plots -/

/-- A segment that excludes no value is drawn just if it is not skipped. -/
theorem isSome_sketch {f : Frame} {style : PlotStyle} {holes : List Float} {fast : Bool}
    {relation : List Char} {name : String} {r : PlotResult}
    (hr : r.skipped = (segmentsOf relation name).filterMap (f.skip? style holes fast))
    {s : List Char × Classification} (hs : s ∈ segmentsOf relation name)
    (hfamily : (s.2.family != .asymptote) = true) :
    (f.sketch s.1 s.2 style holes fast).toOption.isSome = !r.skips s.1 := by
  rw [skips_eq hr hs]
  unfold Frame.skip?
  rw [bne, Bool.not_eq_true'] at hfamily
  rw [hfamily]
  cases (f.sketch s.1 s.2 style holes fast).toOption <;> rfl

/-- The uses of pieces, as told by what is skipped. -/
theorem uses_eq {f : Frame} {style : PlotStyle} {holes : List Float} {fast : Bool}
    {relation : List Char} {name : String} {r : PlotResult}
    (hr : r.skipped = (segmentsOf relation name).filterMap (f.skip? style holes fast))
    (functions : List ((Float → Float) × Interval Float)) :
    (segmentJobs f style holes fast (segmentsOf relation name) ++
        markJobs f style functions (holesOf (segmentsOf relation name))).map Job.use =
      r.uses (segmentsOf relation name) := by
  rw [List.map_append, segmentJobs, markJobs, List.map_map, List.map_map]
  refine congrArg (· ++ _) (List.map_congr_left fun s hs => ?_)
  obtain ⟨hs, hfamily⟩ := List.mem_filter.mp hs
  exact congrArg (Prod.mk _) (isSome_sketch hr hs hfamily)

/-- A plot with any pieces there are, each given once, returns pieces that exist, each once. Of each
kind it returns as many as it is given, and one more for each use that succeeds and is not among as
many first uses of this kind. -/
theorem plot_counts {relation : List Char} {options : PlotOptions} {previous : List PieceId}
    (hnodup : previous.Nodup) (hprevious : ∀ n ∈ previous, n < c.pieces.size) {r : PlotResult}
    (hplot : c.plot relation options previous = (.ok r, c')) :
    r.pieces.Nodup ∧ (∀ n ∈ r.pieces, n < c'.pieces.size) ∧
      ∀ kind, c'.countOf kind r.pieces = c.countOf kind previous +
        ((triesOf kind (r.uses (segmentsOf relation options.name))).drop
          (c.countOf kind previous)).count true := by
  obtain ⟨style, hstyle, hholes, hskipped⟩ := plot_of_ok hplot
  obtain ⟨shown, marked, heq, -, hmarked⟩ := plot_rec hstyle c relation previous hholes
    (P := fun p done => Counted (fun k => c.countOf k previous) p (done.map Job.use))
    (.start c hnodup hprevious) fun p done j hj hf hp => by
      rw [List.map_append]
      exact hp.run hf hj.lawful
  rw [uses_eq hskipped] at hmarked
  rw [heq] at hplot
  cases hplot
  exact ⟨hmarked.nodup, hmarked.lt, hmarked.all⟩

end Canvas

end Graphing
