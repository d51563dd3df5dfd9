/-
  Graphing.Proofs.Plot.PointValues

  The value of a relation at a point, beside what a plot of it stores there.

  Evaluating at a point and plotting are two readings of the same segments.
  The first looks for an excluded value at the point, and then for the first
  segment whose interval contains it.  The second draws every function, with
  gaps at all excluded values.  At a sample of a curve both come to the same
  (`valueAt_eq_stored`), as an excluded value is never an infinity.
-/
import Graphing.Proofs.Evaluation.Finite
import Graphing.Proofs.Plot.Curves
import Graphing.Proofs.Relation.Segments

open Graphing.Relation (Classification assignedSide classify formulaValue pieces readSegments?
  unrestricted valueAt)

namespace Graphing

/-! ## Segments that can be read -/

/-- A segment that can be drawn and read: a point, an excluded value that can be evaluated, or a
function of the named variable that can be compiled, on an interval that can be evaluated. -/
inductive Legible (name : String) (s : List Char × Classification) : Prop where
  | point (family : s.2.family = .point)
  | excluded (family : s.2.family = .asymptote) (told : ∃ v, Interval.textHole s.1 = .ok v)
  | function (family : s.2.family = .functionOfX) (axis : s.2.axis = name)
      (read : ∃ r, Restricted.ofText? s.1 name = .ok r)

namespace Legible

variable {name : String} {s : List Char × Classification} {x : Float}

theorem family (h : Legible name s) :
    s.2.family = .point ∨ s.2.family = .asymptote ∨ s.2.family = .functionOfX := by
  cases h with
  | point hfamily => exact .inl hfamily
  | excluded hfamily => exact .inr (.inl hfamily)
  | function hfamily => exact .inr (.inr hfamily)

theorem not_untold (h : Legible name s) (e : Hole) : ¬Untold s e := by
  rintro ⟨hfamily, herror⟩
  cases h with
  | point hpoint => rw [hpoint] at hfamily; cases hfamily
  | excluded _ told =>
    obtain ⟨v, hv⟩ := told
    rw [hv] at herror
    cases herror
  | function hfunction => rw [hfunction] at hfamily; cases hfamily

end Legible

/-! ## Excluded values -/

/-- A value that is excluded is a finite number, wherever it is met. -/
theorem isFinite_of_textHole {text : List Char} {v x : Float} (hv : Interval.textHole text = .ok v)
    (hx : (v == x) = true) : v.isFinite = true := by
  refine Binary64.isFinite_of_beq hx ?_
  unfold Interval.textHole at hv
  split at hv
  · exact isInf_evalText hv
  · cases hv
    exact Binary64.isInf_nan

theorem holesOf_cons_of_ne {s : List Char × Classification} (h : s.2.family ≠ .asymptote)
    (segments : List (List Char × Classification)) : holesOf (s :: segments) = holesOf segments := by
  unfold holesOf
  rw [List.filter_cons_of_neg (by simpa using h)]

/-- Whether a point is excluded depends on all segments that exclude a value, finite or not. -/
theorem any_holesOf_cons {s : List Char × Classification} (h : s.2.family = .asymptote) {v : Float}
    (hv : Interval.textHole s.1 = .ok v) (segments : List (List Char × Classification)) (x : Float) :
    (holesOf (s :: segments)).any (· == x) = (v == x || (holesOf segments).any (· == x)) := by
  unfold holesOf
  rw [List.filter_cons_of_pos (by simpa using h), List.filterMap_cons, hv]
  dsimp only [Except.toOption]
  by_cases hfinite : v.isFinite = true
  · rw [List.filter_cons_of_pos hfinite, List.any_cons]
  · -- a value that is not finite is not met
    have hne : (v == x) = false :=
      Bool.eq_false_iff.mpr fun hx => hfinite (isFinite_of_textHole hv hx)
    rw [List.filter_cons_of_neg hfinite, hne, Bool.false_or]

theorem explicit?_of_ne {s : List Char × Classification} (h : s.2.family ≠ .functionOfX) :
    explicit? s = none := if_neg (by simpa using h)

theorem explicit?_of_ofText? {s : List Char × Classification} {name : String} {r : Restricted}
    (hfamily : s.2.family = .functionOfX) (haxis : s.2.axis = name)
    (hr : Restricted.ofText? s.1 name = .ok r) : explicit? s = some (s.1, r) := by
  rw [explicit?, hfamily, haxis, hr]
  rfl

/-- What the function of a segment is read from. -/
theorem Legible.ofText?_of_explicit? {name : String} {s : List Char × Classification}
    (h : Legible name s) {e : List Char × Restricted} (he : explicit? s = some e) :
    Restricted.ofText? e.1 name = .ok e.2 := by
  cases h with
  | point hfamily => rw [explicit?_of_ne (by rw [hfamily]; decide)] at he; cases he
  | excluded hfamily => rw [explicit?_of_ne (by rw [hfamily]; decide)] at he; cases he
  | function hfamily haxis read =>
    obtain ⟨r, hr⟩ := read
    rw [explicit?_of_ofText? hfamily haxis hr] at he
    cases he
    exact hr

/-! ## Reading the segments -/

/-- The segments are read up to an excluded value at the point; without one, what is read are the
functions. -/
theorem readSegments?_eq {name : String} {x : Float} {ps : List (List Char)}
    (hstrip : ∀ p ∈ ps, Text.strip p = p)
    (hlegible : ∀ p ∈ ps, Legible name (p, classify p name))
    (hown : ∀ p ∈ ps, ∀ e, explicit? (p, classify p name) = some e →
      e.2.interval.isHole x = false) :
    readSegments? x ps =
      .ok (if (holesOf (ps.map fun p => (p, classify p name))).any (· == x) then none
        else some (((ps.map fun p => (p, classify p name)).filterMap explicit?).map fun e =>
          (unrestricted e.1, e.2.interval))) := by
  induction ps with
  | nil => rfl
  | cons p ps ih =>
    have hrest := ih (fun q hq => hstrip q (List.mem_cons_of_mem p hq))
      (fun q hq => hlegible q (List.mem_cons_of_mem p hq))
      (fun q hq => hown q (List.mem_cons_of_mem p hq))
    -- the reader of segments and the classification test for the same things, in the same order
    have hp := hstrip p List.mem_cons_self
    obtain ⟨hpoint, hexcluded, hfunction⟩ := Relation.classify_family p name
    rw [hp] at hpoint hexcluded hfunction
    rw [readSegments?, List.map_cons]
    cases hlegible p List.mem_cons_self with
    | point hfamily =>
      rw [Relation.read_of_point (hpoint hfamily), holesOf_cons_of_ne (by rw [hfamily]; decide),
        List.filterMap_cons, explicit?_of_ne (by rw [hfamily]; decide)]
      exact hrest
    | excluded hfamily told =>
      obtain ⟨v, hv⟩ := told
      obtain ⟨hnone, hhole⟩ := hexcluded hfamily
      rw [Relation.read_of_excluded hp hnone hhole hv, any_holesOf_cons hfamily hv,
        List.filterMap_cons, explicit?_of_ne (by rw [hfamily]; decide)]
      cases v == x with
      | true => rfl
      | false =>
        rw [Bool.false_or]
        exact hrest
    | function hfamily haxis read =>
      obtain ⟨r, hr⟩ := read
      obtain ⟨hnone, hhole⟩ := hfunction (by rw [hfamily]; decide) (by rw [hfamily]; decide)
      have hexplicit := explicit?_of_ofText? hfamily haxis hr
      rw [Relation.read_of_function hnone hhole hr (hown p List.mem_cons_self _ hexplicit),
        holesOf_cons_of_ne (by rw [hfamily]; decide), List.filterMap_cons, hexplicit]
      show (readSegments? x ps >>= fun rest =>
        .ok (rest.map ((unrestricted p, r.interval) :: ·))) = _
      rw [hrest]
      cases (holesOf (ps.map fun p => (p, classify p name))).any (· == x) <;> rfl

namespace Canvas

/-! ## Values at points -/

variable {relation : List Char} {name : String} {x : Float}

/-- The value of a relation at a point: none if the point is excluded, and else that of the first
function whose interval contains it. -/
theorem valueAt_eq (hlegible : ∀ s ∈ segmentsOf relation name, Legible name s)
    (hown : ∀ s ∈ segmentsOf relation name, ∀ e, explicit? s = some e →
      e.2.interval.isHole x = false) :
    valueAt relation name x =
      .ok (if (holesOf (segmentsOf relation name)).any (· == x) then Binary64.nan
        else match ((segmentsOf relation name).filterMap explicit?).find? fun e =>
            e.2.interval.contains x with
          | some e => e.2.value x
          | none => Binary64.nan) := by
  have hread : readSegments? x (Relation.pieces (Text.lower relation)) =
      .ok (if (holesOf (segmentsOf relation name)).any (· == x) then none
        else some (((segmentsOf relation name).filterMap explicit?).map fun e =>
          (unrestricted e.1, e.2.interval))) :=
    readSegments?_eq (fun p hp => Relation.strip_of_mem_pieces hp)
      (fun p hp => hlegible _ (List.mem_map_of_mem hp))
      fun p hp => hown _ (List.mem_map_of_mem hp)
  -- a formula that is found is read again from its text, with the same result
  have hformula : ∀ e ∈ (segmentsOf relation name).filterMap explicit?,
      formulaValue (assignedSide (unrestricted e.1)) name x = .ok (e.2.value x) := by
    intro e he
    obtain ⟨s, hs, he⟩ := List.mem_filterMap.mp he
    rw [formulaValue, (Relation.ofText?_eq_ok ((hlegible s hs).ofText?_of_explicit? he)).1]
    rfl
  generalize (segmentsOf relation name).filterMap explicit? = functions at hread hformula ⊢
  have hfind : (functions.map fun e => (unrestricted e.1, e.2.interval)).find?
      (fun e => e.2.contains x) =
        (functions.find? fun e => e.2.interval.contains x).map fun e =>
          (unrestricted e.1, e.2.interval) := List.find?_map
  rw [valueAt, hread]
  -- a hole comes before all functions, whatever they say about it
  cases (holesOf (segmentsOf relation name)).any (· == x) with
  | true => rfl
  | false =>
    dsimp only [bind, Except.bind]
    rw [if_neg Bool.false_ne_true, if_neg Bool.false_ne_true]
    dsimp only
    rw [hfind]
    cases hsome : functions.find? fun e => e.2.interval.contains x with
    | none => rfl
    | some e => exact hformula e (List.mem_of_find?_eq_some hsome)

/-- A value is stored at a point of the interval that is not excluded. -/
theorem valueWithin_of_contains {r : Restricted} (hcontains : r.interval.contains x = true)
    (holes : List Float) :
    r.valueWithin holes x = if holes.any (· == x) then Binary64.nan else r.value x := by
  have hall : (holes.all fun h => x != h) = !holes.any (· == x) := by
    induction holes with
    | nil => rfl
    | cons h holes ih => rw [List.all_cons, List.any_cons, ih, bne, Binary64.beq_comm, Bool.not_or]
  rw [Restricted.valueWithin, hcontains, Bool.true_and, hall]
  cases holes.any (· == x) <;> rfl

/-- What is stored for the `i`-th sample `x` in the first curve among some pieces whose interval
contains `x`; the point without a value if there is no such curve. -/
def storedPoint? (c : Canvas) (ns : List PieceId) (x : Float) (i : Nat) : Option (Float × Float) :=
  match (ns.filterMap c.curveOf?).find? fun curve => curve.1.contains x with
  | some (_, points) => points[i]?
  | none => some (x, Binary64.nan)

/-- Let a relation consist of points, of excluded values that can be evaluated, and of functions
that can be compiled on intervals that can be evaluated. At every sample of a plot that is not the
value which a function excludes itself, the relation has the value that the first curve stores whose
interval contains the sample, or no value if there is no such curve. -/
theorem valueAt_eq_stored {c : Canvas} (hc : c.surface.Coherent) {previous : List PieceId}
    (hprevious : c.Owned previous) {options : PlotOptions} {style : PlotStyle}
    (hstyle : PlotStyle.ofOptions? options.style = .ok style)
    (hlegible : ∀ s ∈ segmentsOf relation options.name, Legible options.name s)
    {i : Nat} (hx : (c.surface.pixelSamples .x)[i]? = some x)
    (hown : ∀ s ∈ segmentsOf relation options.name, ∀ e, explicit? s = some e →
      e.2.interval.isHole x = false) :
    ∃ r c' y, c.plot relation options previous = (.ok r, c') ∧
      valueAt relation options.name x = .ok y ∧ c'.storedPoint? r.pieces x i = some (x, y) := by
  obtain ⟨r, c', hplot, hcurves⟩ := plot_curves hc hprevious hstyle
    (fun s hs => (hlegible s hs).not_untold) fun s hs => (hlegible s hs).family
  refine ⟨r, c', _, hplot, valueAt_eq hlegible hown, ?_⟩
  generalize (segmentsOf relation options.name).filterMap explicit? = functions at hcurves ⊢
  generalize holesOf (segmentsOf relation options.name) = holes at hcurves ⊢
  have hfind : (functions.map fun e =>
      (e.2.interval, (c.surface.pixelSamples .x).map fun x => (x, e.2.valueWithin holes x))).find?
        (fun curve => curve.1.contains x) =
      (functions.find? fun e => e.2.interval.contains x).map fun e =>
        (e.2.interval, (c.surface.pixelSamples .x).map fun x => (x, e.2.valueWithin holes x)) :=
    List.find?_map
  rw [storedPoint?, hcurves, hfind]
  cases hsome : functions.find? fun e => e.2.interval.contains x with
  | none =>
    -- there is no value, excluded or not
    dsimp only [Option.map_none]
    rw [ite_self]
  | some e =>
    have hcontains := List.find?_some hsome
    show ((c.surface.pixelSamples .x).map fun x => (x, e.2.valueWithin holes x))[i]? = _
    rw [List.getElem?_map, hx, Option.map_some, valueWithin_of_contains hcontains]

/-- A line to the left of zero, a constant and an excluded value, at the left border. -/
theorem valueAt_eq_stored_line_constant :
    let c : Canvas := { surface := { width := 40, height := 40, bounds := ⟨-1, 1, -1, 1⟩ } }
    let x := Surface.sampleAt 40 (-1) 1 0
    c.surface.Coherent ∧ ∃ r c' y, c.plot "x (-oo, 0]; 2; x != 1".toList {} [] = (.ok r, c') ∧
      valueAt "x (-oo, 0]; 2; x != 1".toList "x" x = .ok y ∧
      c'.storedPoint? r.pieces x 0 = some (x, y) := by
  intro c x
  have hs : Surface.create? 40 40 ⟨-1, 1, -1, 1⟩ = .ok c.surface := rfl
  have hc : c.surface.Coherent := Surface.coherent_create hs
  obtain ⟨style, hstyle⟩ : ∃ style, PlotStyle.ofOptions? {} = .ok style := ⟨_, rfl⟩
  have hx : (c.surface.pixelSamples .x)[0]? = some x := by
    rw [Surface.pixelSamples, List.getElem?_map]
    rfl
  have hsegments : segmentsOf "x (-oo, 0]; 2; x != 1".toList "x" =
      ["x (-oo, 0]".toList, "2".toList, "x != 1".toList].map fun p => (p, classify p "x") := by
    have hpieces : Relation.pieces (Text.lower "x (-oo, 0]; 2; x != 1".toList) =
        ["x (-oo, 0]".toList, "2".toList, "x != 1".toList] := by decide +kernel
    rw [segmentsOf, hpieces]
  have hlegible : ∀ s ∈ segmentsOf "x (-oo, 0]; 2; x != 1".toList "x", Legible "x" s := by
    intro s hs
    rw [hsegments] at hs
    obtain ⟨p, hp, rfl⟩ := List.mem_map.mp hs
    simp only [List.mem_cons, List.not_mem_nil, or_false] at hp
    rcases hp with rfl | rfl | rfl
    · exact .function (by decide +kernel) (by decide +kernel)
        (Except.exists_eq_ok (by decide +kernel))
    · exact .function (by decide +kernel) (by decide +kernel)
        (Except.exists_eq_ok (by decide +kernel))
    · exact .excluded (by decide +kernel) (Except.exists_eq_ok (by decide +kernel))
  have hown : ∀ s ∈ segmentsOf "x (-oo, 0]; 2; x != 1".toList "x", ∀ e, explicit? s = some e →
      e.2.interval.isHole x = false := by
    have hall : ∀ p ∈ ["x (-oo, 0]".toList, "2".toList, "x != 1".toList],
        (explicit? (p, classify p "x")).all (fun e => e.2.interval.hole.isNone) = true := by
      decide +kernel
    intro s hs e he
    rw [hsegments] at hs
    obtain ⟨p, hp, rfl⟩ := List.mem_map.mp hs
    have hnone := hall p hp
    rw [he] at hnone
    rw [Interval.isHole, Option.isNone_iff_eq_none.mp hnone]
    rfl
  -- the text stays a text: nothing of the plot is evaluated
  generalize "x (-oo, 0]; 2; x != 1".toList = relation at hlegible hown ⊢
  exact ⟨hc, @valueAt_eq_stored relation x c hc [] (.nil c) {} style hstyle hlegible 0 hx hown⟩

end Canvas

end Graphing
