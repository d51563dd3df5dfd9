/-
  Graphing.Proofs.Plot.Excluded

  Excluded values and the curves beside them.

  A relation can exclude values of its variable.  The excluded values of all
  its segments are known before the first curve is drawn, and they reach the
  functions of the horizontal coordinate: no such curve has a value at any of
  them, in whatever order the segments come and whichever pieces are used
  again.  They do not reach the functions of the vertical coordinate and the
  sequences, whose curves have a value at an excluded sample just if they would
  have one anyway (`plot_excludes`).
-/
import Graphing.Proofs.Plot.PointValues

open Graphing.Relation (Classification Family)

namespace Graphing

/-! ## Values at samples -/

/-- Whether a curve has a point with finite coordinates, of which the given one has this value. -/
def DefinedAt (coordinate : Float × Float → Float) (v : Float) (points : List (Float × Float)) :
    Prop :=
  ∃ q ∈ points, (coordinate q == v) = true ∧ q.1.isFinite = true ∧ q.2.isFinite = true

namespace Restricted

variable {r : Restricted} {holes samples : List Float} {v x : Float}

/-- The values of a function are missing at its holes. -/
theorem valueWithin_of_mem (hv : v ∈ holes) (hx : (x == v) = true) :
    r.valueWithin holes x = Binary64.nan := by
  have hnot : (holes.all fun h => x != h) = false := by
    rw [List.all_eq_false]
    exact ⟨v, hv, by rw [bne, hx]; nofun⟩
  rw [valueWithin, hnot, Bool.and_false, if_neg Bool.false_ne_true]

theorem isFinite_valueWithin_nil :
    (r.valueWithin [] x).isFinite = true ↔
      r.interval.contains x = true ∧ (r.value x).isFinite = true := by
  rw [valueWithin, List.all_nil, Bool.and_true]
  cases r.interval.contains x with
  | true => exact ⟨fun h => ⟨rfl, h⟩, And.right⟩
  | false =>
    rw [if_neg Bool.false_ne_true, Binary64.isFinite_nan]
    exact iff_of_false Bool.false_ne_true fun h => Bool.false_ne_true h.1

/-- A function of the horizontal coordinate has no value at a hole. -/
theorem not_definedAt_over (samples : List Float) (hv : v ∈ holes) :
    ¬DefinedAt Prod.fst v (samples.map fun x => (x, r.valueWithin holes x)) := by
  rintro ⟨q, hq, hat, -, hfinite⟩
  obtain ⟨x, -, rfl⟩ := List.mem_map.mp hq
  rw [valueWithin_of_mem hv hat, Binary64.isFinite_nan] at hfinite
  cases hfinite

/-- A function of the vertical coordinate has a value at a finite place just if it has one there
on its interval. -/
theorem definedAt_beside (hv : v.isFinite = true) :
    DefinedAt Prod.snd v (samples.map fun y => (r.valueWithin [] y, y)) ↔
      ∃ y ∈ samples, (y == v) = true ∧ r.interval.contains y = true ∧
        (r.value y).isFinite = true := by
  constructor
  · rintro ⟨q, hq, hat, hfinite, -⟩
    obtain ⟨y, hy, rfl⟩ := List.mem_map.mp hq
    obtain ⟨hcontains, hvalue⟩ := isFinite_valueWithin_nil.mp hfinite
    exact ⟨y, hy, hat, hcontains, hvalue⟩
  · rintro ⟨y, hy, hat, hcontains, hvalue⟩
    exact ⟨_, List.mem_map_of_mem hy, hat, isFinite_valueWithin_nil.mpr ⟨hcontains, hvalue⟩,
      Binary64.isFinite_of_beq_isFinite hat hv⟩

/-- And so has a sequence. -/
theorem definedAt_terms (hv : v.isFinite = true) :
    DefinedAt Prod.fst v
        ((samples.filter r.interval.contains).map fun n => (n, r.value n)) ↔
      ∃ n ∈ samples, (n == v) = true ∧ r.interval.contains n = true ∧
        (r.value n).isFinite = true := by
  constructor
  · rintro ⟨q, hq, hat, -, hvalue⟩
    obtain ⟨n, hn, rfl⟩ := List.mem_map.mp hq
    obtain ⟨hn, hcontains⟩ := List.mem_filter.mp hn
    exact ⟨n, hn, hat, hcontains, hvalue⟩
  · rintro ⟨n, hn, hat, hcontains, hvalue⟩
    exact ⟨_, List.mem_map_of_mem (List.mem_filter.mpr ⟨hn, hcontains⟩), hat,
      Binary64.isFinite_of_beq_isFinite hat hv, hvalue⟩

end Restricted

/-! ## Sketches -/

/-- What the holes of a relation do to the curve of a segment.  Functions of the horizontal
coordinate have no value at a hole; functions of the vertical coordinate and sequences have one at
every sample where they would have one without it. -/
structure Frame.Excludes (f : Frame) (holes : List Float) (s : List Char × Classification)
    (points : Option (List (Float × Float))) : Prop where
  horizontal : s.2.family = .functionOfX →
    ∃ ps, points = some ps ∧ ∀ v ∈ holes, ¬DefinedAt Prod.fst v ps
  vertical : s.2.family = .functionOfY →
    ∃ r ps, Restricted.ofText? s.1 s.2.axis = .ok r ∧ points = some ps ∧
      ∀ v ∈ holes, DefinedAt Prod.snd v ps ↔
        ∃ y ∈ f.samples .y, (y == v) = true ∧ r.interval.contains y = true ∧
          (r.value y).isFinite = true
  sequence : s.2.family = .sequence →
    ∃ r ns ps, Restricted.ofText? s.1 s.2.axis = .ok r ∧
      Plot.integerSamples f.bounds.xmin f.bounds.xmax = .ok ns ∧ points = some ps ∧
      ∀ v ∈ holes, DefinedAt Prod.fst v ps ↔
        ∃ n ∈ ns, (n == v) = true ∧ r.interval.contains n = true ∧ (r.value n).isFinite = true

/-- The points of the curve of a sketch. -/
def Sketch.points? (s : Sketch) : Option (List (Float × Float)) :=
  match s.parts .curve with
  | some (.curve g) => some (g.xs.zip g.ys)
  | _ => none

namespace Frame

variable {f : Frame} {style : PlotStyle} {holes : List Float} {fast : Bool}
  {s : List Char × Classification} {k : Sketch}

theorem points?_ofFunction (r : Restricted) :
    (f.ofFunction style holes r).points? =
      some ((f.samples .x).map fun x => (x, r.valueWithin holes x)) :=
  congrArg some List.map_prod_left_eq_zip.symm

theorem points?_ofSideways (r : Restricted) :
    (f.ofSideways style r).points? =
      some ((f.samples .y).map fun y => (r.valueWithin [] y, y)) :=
  congrArg some List.map_prod_right_eq_zip.symm

theorem points?_ofSequence {r : Restricted} {ns : List Float}
    (hns : Plot.integerSamples f.bounds.xmin f.bounds.xmax = .ok ns) {k : Sketch}
    (hk : f.ofSequence style r = .ok k) :
    k.points? = some ((ns.filter r.interval.contains).map fun n => (n, r.value n)) := by
  rw [ofSequence, hns] at hk
  cases hk
  exact congrArg some List.map_prod_left_eq_zip.symm

/-- The curve of a segment that is drawn, beside finite holes. -/
theorem excludes_of_sketchOf? (hholes : ∀ v ∈ holes, v.isFinite = true)
    (hk : f.sketchOf? style holes fast s = some k) : f.Excludes holes s k.points? := by
  have hsketch : f.sketch s.1 s.2 style holes fast = .ok k := by
    unfold sketchOf? at hk
    split at hk
    · cases hk
    · exact Except.eq_ok_of_toOption hk
  unfold sketch at hsketch
  constructor
  · intro hfamily
    rw [hfamily] at hsketch
    obtain ⟨r, -, hr⟩ := Except.bind_eq_ok.mp hsketch
    cases hr
    exact ⟨_, points?_ofFunction r, fun v hv => Restricted.not_definedAt_over _ hv⟩
  · intro hfamily
    rw [hfamily] at hsketch
    obtain ⟨r, hread, hr⟩ := Except.bind_eq_ok.mp hsketch
    cases hr
    exact ⟨r, _, hread, points?_ofSideways r, fun v hv =>
      Restricted.definedAt_beside (hholes v hv)⟩
  · intro hfamily
    rw [hfamily] at hsketch
    obtain ⟨r, hread, hr⟩ := Except.bind_eq_ok.mp hsketch
    cases hns : Plot.integerSamples f.bounds.xmin f.bounds.xmax with
    | error e =>
      rw [ofSequence, hns] at hr
      cases hr
    | ok ns =>
      exact ⟨r, ns, _, hread, rfl, points?_ofSequence hns hr, fun v hv =>
        Restricted.definedAt_terms (hholes v hv)⟩

theorem points?_mark (functions : List ((Float → Float) × Interval Float)) (value : Float) :
    (f.mark style functions value).points? = none := by
  rw [Sketch.points?, curve_mark]

end Frame

/-! ## Plots -/

/-- Two lists with the same images, where the first is looked at only where it has one. -/
theorem forall₂_of_filterMap_eq_map {α β γ : Type} {f : α → Option γ} {g : β → γ} {as : List α}
    {bs : List β} (h : as.filterMap f = bs.map g) :
    List.Forall₂ (fun a b => f a = some (g b)) (as.filter fun a => (f a).isSome) bs := by
  induction as generalizing bs with
  | nil =>
    obtain rfl : bs = [] := List.map_eq_nil_iff.mp h.symm
    exact .nil
  | cons a as ih =>
    cases ha : f a with
    | none =>
      rw [List.filterMap_cons_none ha] at h
      rw [List.filter_cons_of_neg (by rw [ha]; nofun)]
      exact ih h
    | some k =>
      rw [List.filterMap_cons_some ha] at h
      obtain ⟨b, rest, rfl, rfl, hrest⟩ := List.map_eq_cons_iff.mp h.symm
      rw [List.filter_cons_of_pos (by rw [ha]; rfl)]
      exact .cons ha (ih hrest.symm)

theorem exists_mem_of_forall₂ {α β : Type} {R : α → β → Prop} {as : List α} {bs : List β}
    (h : List.Forall₂ R as bs) {a : α} (ha : a ∈ as) : ∃ b ∈ bs, R a b := by
  induction h with
  | nil => cases ha
  | @cons x y as bs hxy _ ih =>
    rcases List.mem_cons.mp ha with rfl | ha
    · exact ⟨y, List.mem_cons_self, hxy⟩
    · obtain ⟨b, hb, hab⟩ := ih ha
      exact ⟨b, List.mem_cons_of_mem y hb, hab⟩

theorem isFinite_of_mem_holesOf {segments : List (List Char × Classification)} {v : Float}
    (h : v ∈ holesOf segments) : v.isFinite = true := (List.mem_filter.mp h).2

namespace Canvas

variable {c : Canvas} {ns : List PieceId} {n : PieceId}

/-- The points of the curve that is to be seen of a piece are those of its sketch. -/
theorem map_curveOf? (c : Canvas) (n : PieceId) :
    (c.curveOf? n).map Prod.snd = (c.sketch n).points? := by
  have hparts : (c.sketch n).parts .curve = c.shapeAt n (.part .curve) := rfl
  rw [Sketch.points?, hparts, curveOf?]
  cases hshape : c.shapeAt n (.part .curve) with
  | none => rfl
  | some shape =>
    -- what has a shape belongs to a piece, and every piece has a note
    obtain ⟨p, hp⟩ : ∃ p, c.piece? n = some p := by
      obtain ⟨k, hk, -⟩ := Option.bind_eq_some_iff.mp hshape
      obtain ⟨p, hp, -⟩ := Option.bind_eq_some_iff.mp hk
      exact ⟨p, hp⟩
    rw [note?, hp]
    cases shape <;> rfl

/-- A plot of a relation whose excluded values can be evaluated gives first the pieces of the
segments that are drawn, in their order, and then pieces without a curve.  Of the drawn curves,
the functions of the horizontal coordinate leave out all values that some segment excludes; those of
the vertical coordinate and the sequences leave out none. -/
theorem plot_excludes (hcoherent : c.surface.Coherent) (hns : c.Owned ns) {relation : List Char}
    {options : PlotOptions} {style : PlotStyle}
    (hstyle : PlotStyle.ofOptions? options.style = .ok style)
    (htold : ∀ s ∈ segmentsOf relation options.name, ∀ h, ¬Untold s h) :
    let segments := segmentsOf relation options.name
    ∃ r c' drawn rest, c.plot relation options ns = (.ok r, c') ∧ r.pieces = drawn ++ rest ∧
      (∀ n ∈ rest, c'.curveOf? n = none) ∧
      List.Forall₂
        (fun s n => c.surface.frame.Excludes (holesOf segments) s ((c'.curveOf? n).map Prod.snd))
        (segments.filter fun s =>
          (c.surface.frame.sketchOf? style (holesOf segments) options.fast s).isSome) drawn := by
  intro segments
  have hvalues : holeValues segments = .ok (holesOf segments) := by
    rcases holeValues_cases segments with ⟨s, hs, h, huntold, -⟩ | ⟨-, hok⟩
    · exact absurd huntold (htold s hs h)
    · exact hok
  obtain ⟨p, hplot, hp⟩ := hns.plot hstyle hcoherent relation hvalues
  have hshows := hp.shows
  unfold Frame.picture at hshows
  -- the picture is split as it is made: the segments, and then the marks
  obtain ⟨drawn, marks, hdrawn, hsketches, hmarks⟩ := List.map_eq_append_iff.mp hshows
  refine ⟨_, _, drawn, marks ++ (p.pool ++ p.spare), hplot, ?_, ?_, ?_⟩
  · rw [Progress.groups, hdrawn, List.append_assoc]
  · intro n hn
    rw [curveOf?_resume]
    rcases List.mem_append.mp hn with hn | hn
    · -- the mark of an excluded value is a circle or a line
      have hsketch : p.canvas.sketch n ∈ marks.map p.canvas.sketch := List.mem_map_of_mem hn
      rw [hmarks] at hsketch
      obtain ⟨v, -, hv⟩ := List.mem_map.mp hsketch
      apply Option.map_eq_none_iff.mp
      rw [map_curveOf?, ← hv, Frame.points?_mark]
    · exact curveOf?_eq_none (hp.blank n hn _)
  · refine (forall₂_of_filterMap_eq_map hsketches.symm).imp fun s n hs => ?_
    rw [curveOf?_resume, map_curveOf?]
    exact Frame.excludes_of_sketchOf? (fun v hv => isFinite_of_mem_holesOf hv) hs

/-- A function of the vertical coordinate keeps its value at a height that is excluded. -/
theorem plot_excludes_sideways :
    let c : Canvas := { surface := { width := 16, height := 16, bounds := ⟨-2, 2, -2, 2⟩ } }
    ∃ r c' n points, c.plot "x = y; y != 1".toList {} [] = (.ok r, c') ∧ n ∈ r.pieces ∧
      (c'.curveOf? n).map Prod.snd = some points ∧
      ∃ v ∈ holesOf (segmentsOf "x = y; y != 1".toList "x"), DefinedAt Prod.snd v points := by
  intro c
  have hc : c.surface.Coherent :=
    Surface.coherent_create (show Surface.create? 16 16 ⟨-2, 2, -2, 2⟩ = .ok c.surface from rfl)
  obtain ⟨style, hstyle⟩ : ∃ style,
      PlotStyle.ofOptions? ({} : PlotOptions).style = .ok style := ⟨_, rfl⟩
  have hsegments : segmentsOf "x = y; y != 1".toList "x" =
      ["x = y".toList, "y != 1".toList].map fun p => (p, Relation.classify p "x") := by
    have hpieces : Relation.pieces (Text.lower "x = y; y != 1".toList) =
        ["x = y".toList, "y != 1".toList] := by decide +kernel
    rw [segmentsOf, hpieces]
  have hsideways : (Relation.classify "x = y".toList "x").family = .functionOfY := by
    decide +kernel
  have hexcluded : (Relation.classify "y != 1".toList "x").family = .asymptote := by
    decide +kernel
  -- the sample of the twelfth row is at the excluded height
  let y := Surface.sampleAt 16 (-2) 2 12
  have hy : y ∈ c.surface.frame.samples .y :=
    List.mem_map_of_mem (List.mem_range.mpr (show 12 < 16 + 1 by decide))
  have hread : (Restricted.ofText? "x = y".toList
      (Relation.classify "x = y".toList "x").axis).toOption.any
        (fun r => r.interval.contains y && (r.value y).isFinite) = true := by decide +kernel
  have hhole : (Interval.textHole "y != 1".toList).toOption.any
      (fun v => v.isFinite && y == v) = true := by decide +kernel
  obtain ⟨r, hr, hvalue⟩ := Except.exists_eq_ok_of_any hread
  obtain ⟨v, hv, hv'⟩ := Except.exists_eq_ok_of_any hhole
  obtain ⟨hcontains, hfinite⟩ := (Bool.and_eq_true _ _).mp hvalue
  obtain ⟨hvfinite, hat⟩ := (Bool.and_eq_true _ _).mp hv'
  have hmem : v ∈ holesOf (segmentsOf "x = y; y != 1".toList "x") := by
    rw [hsegments, holesOf, List.map_cons, List.filter_cons_of_neg (by rw [hsideways]; decide),
      List.map_singleton, List.filter_cons_of_pos (by rw [hexcluded]; rfl), List.filter_nil]
    refine List.mem_filter.mpr ⟨List.mem_filterMap.mpr ⟨_, List.mem_singleton_self _, ?_⟩, hvfinite⟩
    rw [hv]
    rfl
  have htold : ∀ s ∈ segmentsOf "x = y; y != 1".toList "x", ∀ h, ¬Untold s h := by
    rintro s hs h ⟨hfamily, herror⟩
    rw [hsegments] at hs
    simp only [List.map_cons, List.map_nil, List.mem_cons, List.not_mem_nil, or_false] at hs
    rcases hs with rfl | rfl
    · rw [hsideways] at hfamily
      cases hfamily
    · rw [hv] at herror
      cases herror
  have hfirst : ("x = y".toList, Relation.classify "x = y".toList "x") ∈
      segmentsOf "x = y; y != 1".toList "x" := by
    rw [hsegments]
    exact List.mem_cons_self
  -- the text stays a text: nothing of the plot is evaluated
  generalize "x = y; y != 1".toList = relation at htold hmem hfirst ⊢
  obtain ⟨result, c', drawn, rest, hplot, hpieces, -, hall⟩ :=
    plot_excludes hc (.nil c) hstyle htold
  have hdrawn : ("x = y".toList, Relation.classify "x = y".toList "x") ∈
      (segmentsOf relation "x").filter fun s =>
        (c.surface.frame.sketchOf? style (holesOf (segmentsOf relation "x")) false s).isSome := by
    refine List.mem_filter.mpr ⟨hfirst, ?_⟩
    rw [Frame.sketchOf?, if_neg (by rw [hsideways]; decide), Frame.sketch, hsideways]
    dsimp only
    rw [hr]
    rfl
  obtain ⟨n, hn, hexcludes⟩ := exists_mem_of_forall₂ hall hdrawn
  obtain ⟨r', points, hr', hpoints, hiff⟩ := hexcludes.vertical hsideways
  cases hr.symm.trans hr'
  refine ⟨result, c', n, points, hplot, ?_, hpoints, v, hmem, ?_⟩
  · rw [hpieces]
    exact List.mem_append_left _ hn
  · exact (hiff v hmem).mpr ⟨y, hy, hat, hcontains, hfinite⟩

end Canvas
end Graphing
