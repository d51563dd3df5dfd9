/-
  Graphing.Proofs.Contour.Weaving

  Disjoint polylines that run through a graph of undirected segments.

  While segments are added one by one, the lines found so far are open paths
  and closed loops, no two of which share a point, and together they have
  exactly the links of the segments that were added (`Weave`).  A new segment
  starts a path, extends one, joins two, or closes one: each of these keeps
  the property.  At the end the lines are the connected components of the
  graph (`Traversal`), and so they are the same for every order of the
  segments, up to their order, direction and the starting points of loops.
-/
import Graphing.Proofs.Contour.Polyline
import Mathlib.Algebra.BigOperators.Group.Multiset.Basic
import Mathlib.Logic.Relation

namespace Graphing.Contour

variable {P : Type} [DecidableEq P]

/-! ## Segments and links -/

/-- Segments without their direction. -/
def undirected (segments : List (P × P)) : Multiset (Sym2 P) :=
  (segments.map fun s => s(s.1, s.2) : List (Sym2 P))

omit [DecidableEq P] in
@[simp] theorem undirected_nil : undirected ([] : List (P × P)) = 0 := rfl

omit [DecidableEq P] in
@[simp] theorem undirected_cons (s : P × P) (segments : List (P × P)) :
    undirected (s :: segments) = s(s.1, s.2) ::ₘ undirected segments := rfl

/-- A point has as many segments as there are ends of segments at it. -/
theorem degree_undirected {segments : List (P × P)} (h : ∀ s ∈ segments, s.1 ≠ s.2) (p : P) :
    degree (undirected segments) p = (segments.flatMap fun s => [s.1, s.2]).count p := by
  induction segments with
  | nil => rfl
  | cons s segments ih =>
    have hs : s.1 ≠ s.2 := h s (by simp)
    rw [undirected_cons, degree_cons, ih fun s' hs' => h s' (by simp [hs']), List.flatMap_cons,
      List.count_append, add_comm]
    congr 1
    rw [List.count_cons, List.count_cons, List.count_nil]
    simp only [Sym2.mem_iff, beq_iff_eq]
    grind

/-- The links of several polylines together. -/
def allEdges (lines : List (List P)) : Multiset (Sym2 P) := (lines.map edges).sum

omit [DecidableEq P] in
@[simp] theorem allEdges_nil : allEdges ([] : List (List P)) = 0 := rfl

omit [DecidableEq P] in
@[simp] theorem allEdges_cons (l : List P) (lines : List (List P)) :
    allEdges (l :: lines) = edges l + allEdges lines := rfl

omit [DecidableEq P] in
theorem allEdges_perm {lines lines' : List (List P)} (h : lines.Perm lines') :
    allEdges lines = allEdges lines' :=
  (h.map edges).sum_eq

omit [DecidableEq P] in
theorem mem_allEdges {lines : List (List P)} {e : Sym2 P} :
    e ∈ allEdges lines ↔ ∃ l ∈ lines, e ∈ edges l := by
  induction lines with
  | nil => simp
  | cons l lines ih => simp [ih]

/-- A point of one of several disjoint polylines has the links that it has there. -/
theorem degree_allEdges {lines : List (List P)} (hdisj : lines.Pairwise List.Disjoint)
    {l : List P} (hl : l ∈ lines) {p : P} (hp : p ∈ l) :
    degree (allEdges lines) p = degree (edges l) p := by
  induction lines with
  | nil => simp at hl
  | cons m lines ih =>
    obtain ⟨hm, hdisj⟩ := List.pairwise_cons.mp hdisj
    rw [allEdges_cons, degree_add]
    rcases List.mem_cons.mp hl with rfl | hl'
    · have hzero : degree (allEdges lines) p = 0 := by
        apply Multiset.countP_eq_zero.mpr
        intro e he hpe
        obtain ⟨n, hn, hen⟩ := mem_allEdges.mp he
        exact hm n hn hp (mem_of_mem_edges hen hpe)
      rw [hzero, add_zero]
    · rw [ih hdisj hl', degree_edges_of_not_mem (fun hpm => hm l hl' hpm hp), zero_add]

/-! ## Weaves -/

/-- Open paths and closed loops that are disjoint and have the given links. -/
structure Weave (opens loops : List (List P)) (E : Multiset (Sym2 P)) : Prop where
  paths : ∀ l ∈ opens, IsPath l
  closed : ∀ l ∈ loops, IsLoop l
  disjoint : (opens ++ loops).Pairwise List.Disjoint
  edges_eq : allEdges (opens ++ loops) = E

namespace Weave

variable {opens loops : List (List P)} {E : Multiset (Sym2 P)} {l m : List P} {p q : P}

omit [DecidableEq P] in
theorem empty : Weave ([] : List (List P)) [] 0 := ⟨by simp, by simp, by simp, by simp⟩

omit [DecidableEq P] in
theorem perm {opens' loops' : List (List P)} (h : Weave opens loops E) (ho : opens.Perm opens')
    (hl : loops.Perm loops') : Weave opens' loops' E where
  paths m hm := h.paths m (ho.mem_iff.mpr hm)
  closed m hm := h.closed m (hl.mem_iff.mpr hm)
  disjoint := ((ho.append hl).pairwise_iff List.Disjoint.symm).mp h.disjoint
  edges_eq := by rw [← allEdges_perm (ho.append hl), h.edges_eq]

omit [DecidableEq P] in
/-- A path can be taken out of a weave, and put in if it meets none of the other lines. -/
theorem cons_iff : Weave (l :: opens) loops E ↔
    IsPath l ∧ (∀ m ∈ opens ++ loops, l.Disjoint m) ∧
      ∃ F, E = edges l + F ∧ Weave opens loops F := by
  constructor
  · rintro ⟨hp, hl, hd, he⟩
    rw [List.cons_append] at hd he
    obtain ⟨hm, hd⟩ := List.pairwise_cons.mp hd
    exact ⟨hp l (by simp), hm, _, he.symm, fun m hm => hp m (by simp [hm]), hl, hd, rfl⟩
  · rintro ⟨hpath, hm, F, rfl, hp, hl, hd, rfl⟩
    refine ⟨by simpa using ⟨hpath, hp⟩, hl, ?_, rfl⟩
    exact List.pairwise_cons.mpr ⟨hm, hd⟩

omit [DecidableEq P] in
/-- A loop that meets none of the other lines can be put into a weave. -/
theorem cons_loop (h : Weave opens loops E) (hl : IsLoop l)
    (hd : ∀ m ∈ opens ++ loops, l.Disjoint m) : Weave opens (l :: loops) (edges l + E) := by
  have hperm : (opens ++ l :: loops).Perm (l :: (opens ++ loops)) := List.perm_middle
  refine ⟨h.paths, by simpa using ⟨hl, h.closed⟩, ?_, ?_⟩
  · rw [hperm.pairwise_iff List.Disjoint.symm]
    exact List.pairwise_cons.mpr ⟨hd, h.disjoint⟩
  · rw [allEdges_perm hperm, allEdges_cons, h.edges_eq]

/-! ### The five ways to add a segment -/

omit [DecidableEq P] in
theorem reverse (h : Weave (l :: opens) loops E) : Weave (l.reverse :: opens) loops E := by
  rw [cons_iff] at h ⊢
  obtain ⟨hpath, hd, F, rfl, hw⟩ := h
  refine ⟨hpath.reverse, fun m hm a ha => hd m hm (List.mem_reverse.mp ha), F, ?_, hw⟩
  rw [edges_reverse]

omit [DecidableEq P] in
/-- A segment away from all lines starts a path. -/
theorem start (h : Weave opens loops E) (hpq : p ≠ q) (hp : ∀ m ∈ opens ++ loops, p ∉ m)
    (hq : ∀ m ∈ opens ++ loops, q ∉ m) : Weave ([p, q] :: opens) loops (s(p, q) ::ₘ E) := by
  rw [cons_iff]
  refine ⟨⟨by simp, by simpa using hpq⟩, ?_, E, by simp, h⟩
  intro m hm a ha
  rcases (by simpa using ha : a = p ∨ a = q) with rfl | rfl
  · exact hp m hm
  · exact hq m hm

omit [DecidableEq P] in
/-- A segment from the last point of a path to a new point extends the path. -/
theorem extend (h : Weave (l :: opens) loops E) (hl : l.getLast? = some p)
    (hq : ∀ m ∈ (l :: opens) ++ loops, q ∉ m) :
    Weave ((l ++ [q]) :: opens) loops (s(p, q) ::ₘ E) := by
  rw [cons_iff] at h ⊢
  obtain ⟨hpath, hd, F, rfl, hw⟩ := h
  have hql : q ∉ l := hq l (by simp)
  obtain ⟨l, rfl⟩ := List.getLast?_eq_some_iff.mp hl
  refine ⟨⟨by simp, ?_⟩, ?_, F, ?_, hw⟩
  · rw [List.nodup_append_comm, List.singleton_append, List.nodup_cons]
    exact ⟨hql, hpath.nodup⟩
  · intro m hm
    rw [List.disjoint_append_left]
    refine ⟨hd m hm, ?_⟩
    rw [List.singleton_disjoint]
    exact hq m (List.mem_cons_of_mem _ hm)
  · rw [edges_concat, Multiset.cons_add]

omit [DecidableEq P] in
/-- A segment from the last point of a path to the first of another joins them. -/
theorem join (h : Weave (l :: m :: opens) loops E) (hl : l.getLast? = some p)
    (hm : m.head? = some q) : Weave ((l ++ m) :: opens) loops (s(p, q) ::ₘ E) := by
  obtain ⟨hl', hdl, F, rfl, hF⟩ := cons_iff.mp h
  obtain ⟨hm', hdm, G, rfl, hw⟩ := cons_iff.mp hF
  have hdlm : l.Disjoint m := hdl m (by simp)
  obtain ⟨l, rfl⟩ := List.getLast?_eq_some_iff.mp hl
  obtain ⟨m, rfl⟩ := List.head?_eq_some_iff.mp hm
  rw [cons_iff]
  refine ⟨⟨?_, ?_⟩, ?_, G, ?_, hw⟩
  · rw [List.length_append]
    have := hl'.two_le
    omega
  · exact List.nodup_append'.mpr ⟨hl'.nodup, hm'.nodup, hdlm⟩
  · intro n hn
    rw [List.disjoint_append_left]
    exact ⟨hdl n (List.mem_cons_of_mem _ hn), hdm n hn⟩
  · rw [edges_append, Multiset.cons_add, add_assoc]

omit [DecidableEq P] in
/-- A segment from the last point of a path to its first closes the path. -/
theorem close (h : Weave (l :: opens) loops E) (hl : l.getLast? = some p)
    (hf : l.head? = some q) : Weave opens ((l ++ [q]) :: loops) (s(p, q) ::ₘ E) := by
  rw [cons_iff] at h
  obtain ⟨hpath, hd, F, rfl, hw⟩ := h
  have hloop : IsLoop (l ++ [q]) := by
    have := hpath.isLoop
    rwa [hf] at this
  have hq : q ∈ l := List.mem_of_head? hf
  have hedges : edges (l ++ [q]) = s(p, q) ::ₘ edges l := by
    obtain ⟨l, rfl⟩ := List.getLast?_eq_some_iff.mp hl
    exact edges_concat l p q
  rw [← Multiset.cons_add, ← hedges]
  refine hw.cons_loop hloop ?_
  intro m hm
  rw [List.disjoint_append_left, List.singleton_disjoint]
  exact ⟨hd m hm, hd m hm hq⟩

/-! ### Where a new segment can end -/

theorem degree_eq (h : Weave opens loops E) (hl : l ∈ opens ++ loops) (hp : p ∈ l) :
    degree E p = degree (edges l) p := by
  rw [← h.edges_eq]
  exact degree_allEdges h.disjoint hl hp

/-- A point with at most one link is the end of an open path, if it is on a line at all. -/
theorem isEnd_of_degree_le (h : Weave opens loops E) (hdeg : degree E p ≤ 1)
    (hl : l ∈ opens ++ loops) (hp : p ∈ l) :
    l ∈ opens ∧ (l.head? = some p ∨ l.getLast? = some p) := by
  rw [h.degree_eq hl hp] at hdeg
  rcases List.mem_append.mp hl with hopen | hloop
  · rw [(h.paths l hopen).degree_eq hp] at hdeg
    refine ⟨hopen, ?_⟩
    by_contra hends
    rw [if_neg hends] at hdeg
    omega
  · rw [(h.closed l hloop).degree_eq hp] at hdeg
    omega

end Weave

/-! ## Traversals -/

/-- Undirected segments lead from one point to another. -/
def Linked (E : Multiset (Sym2 P)) : P → P → Prop :=
  Relation.ReflTransGen fun p q => s(p, q) ∈ E

omit [DecidableEq P] in
theorem Linked.symm {E : Multiset (Sym2 P)} {p q : P} (h : Linked E p q) : Linked E q p := by
  induction h with
  | refl => exact .refl
  | tail _ hstep ih => exact .head (by rwa [Sym2.eq_swap]) ih

omit [DecidableEq P] in
theorem Linked.mono {E F : Multiset (Sym2 P)} (hEF : ∀ e ∈ E, e ∈ F) {p q : P}
    (h : Linked E p q) : Linked F p q := by
  induction h with
  | refl => exact .refl
  | tail _ hstep ih => exact .tail ih (hEF _ hstep)

omit [DecidableEq P] in
theorem linked_head {a : P} {t : List P} {p : P} (hp : p ∈ a :: t) :
    Linked (edges (a :: t)) a p := by
  induction t generalizing a with
  | nil =>
    obtain rfl : p = a := by simpa using hp
    exact .refl
  | cons b t ih =>
    rcases List.mem_cons.mp hp with rfl | hp
    · exact .refl
    · refine .head (Multiset.mem_cons_self _ _) ((ih hp).mono ?_)
      exact fun e he => Multiset.mem_cons_of_mem he

omit [DecidableEq P] in
/-- The points of a polyline are linked along it. -/
theorem linked_of_mem {l : List P} {p q : P} (hp : p ∈ l) (hq : q ∈ l) :
    Linked (edges l) p q := by
  cases l with
  | nil => simp at hp
  | cons a t => exact (linked_head hp).symm.trans (linked_head hq)

/-- Lines that run through undirected segments, one for each connected component. -/
structure Traversal (E : Multiset (Sym2 P)) (lines : List (List P)) : Prop where
  /-- A line consists of all points that are linked to one of its points. -/
  component : ∀ l ∈ lines, ∀ p ∈ l, ∀ q, q ∈ l ↔ Linked E p q
  /-- Exactly one line runs through each end of a segment. -/
  covers : ∀ p, 0 < degree E p → lines.countP (fun l => decide (p ∈ l)) = 1
  /-- A line runs through each segment of its component once, and through no other. -/
  through : ∀ l ∈ lines, edges l = E.filter fun e => ∃ p ∈ l, p ∈ e
  /-- A component whose points all have two segments is a loop; on every other line exactly the two
  ends have one segment. -/
  shape : ∀ l ∈ lines,
    (IsLoop l ∧ ∀ p ∈ l, degree E p = 2) ∨
    (IsPath l ∧ ∀ p ∈ l, degree E p = if l.head? = some p ∨ l.getLast? = some p then 1 else 2)

theorem countP_mem_of_disjoint {lines : List (List P)} (hdisj : lines.Pairwise List.Disjoint)
    {l : List P} (hl : l ∈ lines) {p : P} (hp : p ∈ l) :
    lines.countP (fun l => decide (p ∈ l)) = 1 := by
  induction lines with
  | nil => simp at hl
  | cons m lines ih =>
    obtain ⟨hm, hdisj⟩ := List.pairwise_cons.mp hdisj
    rcases List.mem_cons.mp hl with rfl | hl'
    · have hzero : lines.countP (fun l => decide (p ∈ l)) = 0 := by
        rw [List.countP_eq_zero]
        intro n hn hpn
        exact hm n hn hp (of_decide_eq_true hpn)
      rw [List.countP_cons_of_pos (by simpa using hp), hzero]
    · have hpm : p ∉ m := fun hpm => hm l hl' hpm hp
      rw [List.countP_cons_of_neg (by simpa using hpm), ih hdisj hl']

omit [DecidableEq P] in
/-- Of disjoint lines only one runs through a point. -/
theorem eq_of_mem_of_mem {lines : List (List P)} (hdisj : lines.Pairwise List.Disjoint)
    {l m : List P} (hl : l ∈ lines) (hm : m ∈ lines) {p : P} (hpl : p ∈ l) (hpm : p ∈ m) :
    l = m := by
  by_contra hne
  have : Std.Symm (List.Disjoint (α := P)) := ⟨fun _ _ => List.Disjoint.symm⟩
  exact hdisj.forall hl hm hne hpl hpm

/-- The links at the points of one of several disjoint polylines are its own. -/
theorem filter_allEdges {lines : List (List P)} (hdisj : lines.Pairwise List.Disjoint) {l : List P}
    (hl : l ∈ lines) : (allEdges lines).filter (fun e => ∃ p ∈ l, p ∈ e) = edges l := by
  have hperm := List.perm_cons_erase hl
  have hd := List.pairwise_cons.mp ((hperm.pairwise_iff List.Disjoint.symm).mp hdisj) |>.1
  have hself : (edges l).filter (fun e => ∃ p ∈ l, p ∈ e) = edges l := by
    rw [Multiset.filter_eq_self]
    intro e he
    induction e with
    | h p q => exact ⟨p, mem_of_mem_edges he (Sym2.mem_mk_left p q), Sym2.mem_mk_left p q⟩
  have hrest : (allEdges (lines.erase l)).filter (fun e => ∃ p ∈ l, p ∈ e) = 0 := by
    rw [Multiset.filter_eq_nil]
    rintro e he ⟨p, hp, hpe⟩
    obtain ⟨m, hm, he⟩ := mem_allEdges.mp he
    exact hd m hm hp (mem_of_mem_edges he hpe)
  rw [allEdges_perm hperm, allEdges_cons, Multiset.filter_add, hself, hrest, add_zero]

omit [DecidableEq P] in
/-- A link at a point of one of several disjoint polylines is one of its own. -/
theorem mem_edges_of_mem_allEdges {lines : List (List P)} (hdisj : lines.Pairwise List.Disjoint)
    {l : List P} (hl : l ∈ lines) {p q : P} (hp : p ∈ l) (hpq : s(p, q) ∈ allEdges lines) :
    s(p, q) ∈ edges l := by
  obtain ⟨m, hm, hpq⟩ := mem_allEdges.mp hpq
  have hpm := mem_of_mem_edges hpq (Sym2.mem_mk_left p q)
  rwa [eq_of_mem_of_mem hdisj hl hm hp hpm]

/-- The lines of a weave run through its segments. -/
theorem Weave.traversal {opens loops lines : List (List P)} {E : Multiset (Sym2 P)}
    (h : Weave opens loops E) (hlines : lines.Perm (opens ++ loops)) : Traversal E lines := by
  have hdisj : lines.Pairwise List.Disjoint :=
    (hlines.pairwise_iff List.Disjoint.symm).mpr h.disjoint
  have hE : E = allEdges lines := by rw [allEdges_perm hlines, h.edges_eq]
  subst hE
  refine ⟨?_, ?_, fun l hl => (filter_allEdges hdisj hl).symm, ?_⟩
  · intro l hl p hp q
    constructor
    · exact fun hq => (linked_of_mem hp hq).mono fun e he => mem_allEdges.mpr ⟨l, hl, he⟩
    · -- along the links no step leaves the line
      intro hpq
      induction hpq with
      | refl => exact hp
      | tail _ hbc ih =>
        exact mem_of_mem_edges (mem_edges_of_mem_allEdges hdisj hl ih hbc) (Sym2.mem_mk_right _ _)
  · intro p hp
    obtain ⟨e, he, hpe⟩ := Multiset.countP_pos.mp hp
    obtain ⟨l, hl, he⟩ := mem_allEdges.mp he
    exact countP_mem_of_disjoint hdisj hl (mem_of_mem_edges he hpe)
  · intro l hl
    have hl' := hlines.mem_iff.mp hl
    rcases List.mem_append.mp hl' with hopen | hloop
    · exact .inr ⟨h.paths l hopen, fun p hp => by
        rw [h.degree_eq hl' hp, (h.paths l hopen).degree_eq hp]⟩
    · exact .inl ⟨h.closed l hloop, fun p hp => by
        rw [h.degree_eq hl' hp, (h.closed l hloop).degree_eq hp]⟩

/-! ## Independence of the order -/

/-- Two lines are the same up to their direction, and up to their starting point if they are
loops. -/
def SameLine (l m : List P) : Prop :=
  m = l ∨ m = l.reverse ∨
    (IsLoop l ∧ IsLoop m ∧ (m.dropLast ~r l.dropLast ∨ m.dropLast ~r l.reverse.dropLast))

/-- Two lists of lines are the same up to the order of the lines, and up to the direction and the
starting point of each. -/
def SameLines (lines lines' : List (List P)) : Prop :=
  Multiset.Rel SameLine (lines : Multiset (List P)) (lines' : Multiset (List P))

namespace Traversal

variable {E : Multiset (Sym2 P)} {lines lines' : List (List P)}

theorem two_le (h : Traversal E lines) {l : List P} (hl : l ∈ lines) : 2 ≤ l.length := by
  rcases h.shape l hl with ⟨hloop, -⟩ | ⟨hpath, -⟩
  · have := hloop.three_le
    omega
  · exact hpath.two_le

theorem degree_pos (h : Traversal E lines) {l : List P} (hl : l ∈ lines) {p : P} (hp : p ∈ l) :
    0 < degree E p := by
  rcases h.shape l hl with ⟨-, hdeg⟩ | ⟨-, hdeg⟩
  · rw [hdeg p hp]
    omega
  · rw [hdeg p hp]
    split <;> omega

/-- Lines through one point in two traversals of the same segments are the same. -/
theorem sameLine (h : Traversal E lines) (h' : Traversal E lines') {l l' : List P} (hl : l ∈ lines)
    (hl' : l' ∈ lines') {p : P} (hp : p ∈ l) (hp' : p ∈ l') : SameLine l l' := by
  have hmem : ∀ q, q ∈ l ↔ q ∈ l' := by
    intro q
    rw [h.component l hl p hp, h'.component l' hl' p hp']
  have hedges : edges l = edges l' := by
    rw [h.through l hl, h'.through l' hl']
    refine Multiset.filter_congr fun e _ => ?_
    simp only [hmem]
  -- a loop has no point with one segment, and a path has one
  have hends : ∀ {m : List P}, IsPath m → ∃ q ∈ m, m.head? = some q := by
    intro m hm
    obtain ⟨a, t, rfl⟩ :=
      List.exists_cons_of_length_pos (by have := hm.two_le; omega : 0 < m.length)
    exact ⟨a, by simp, rfl⟩
  rcases h.shape l hl with ⟨hloop, hdeg⟩ | ⟨hpath, hdeg⟩ <;>
    rcases h'.shape l' hl' with ⟨hloop', hdeg'⟩ | ⟨hpath', hdeg'⟩
  · exact .inr (.inr ⟨hloop, hloop', hloop.isRotated hloop' hedges⟩)
  · obtain ⟨q, hq, hhead⟩ := hends hpath'
    have h1 := hdeg' q hq
    rw [if_pos (.inl hhead), hdeg q ((hmem q).mpr hq)] at h1
    omega
  · obtain ⟨q, hq, hhead⟩ := hends hpath
    have h1 := hdeg q hq
    rw [if_pos (.inl hhead), hdeg' q ((hmem q).mp hq)] at h1
    omega
  · rcases hpath.eq_or_eq_reverse hpath' hedges with heq | heq
    · exact .inl heq
    · exact .inr (.inl heq)

theorem disjoint (h : Traversal E lines) : lines.Pairwise List.Disjoint := by
  rw [List.pairwise_iff_getElem]
  intro i j hi hj hij p hpi hpj
  have hone := h.covers p (h.degree_pos (List.getElem_mem hi) hpi)
  rw [← List.take_append_drop j lines, List.drop_eq_getElem_cons hj, List.countP_append,
    List.countP_cons_of_pos (by simpa using hpj)] at hone
  have hbefore : 0 < (lines.take j).countP (fun l => decide (p ∈ l)) := by
    rw [List.countP_pos_iff]
    exact ⟨lines[i], List.mem_take_iff_getElem.mpr ⟨i, by omega, rfl⟩, by simpa using hpi⟩
  omega

/-- A line of one traversal meets a line of every other traversal of the same segments. -/
theorem exists_common (h : Traversal E lines) (h' : Traversal E lines') {l : List P}
    (hl : l ∈ lines) : ∃ l' ∈ lines', ∃ p ∈ l, p ∈ l' := by
  obtain ⟨a, t, rfl⟩ :=
    List.exists_cons_of_length_pos (by have := h.two_le hl; omega : 0 < l.length)
  have ha : a ∈ a :: t := List.mem_cons_self
  have hone := h'.covers a (h.degree_pos hl ha)
  obtain ⟨l', hl', ha'⟩ := List.countP_pos_iff.mp (by omega :
    0 < lines'.countP (fun l => decide (a ∈ l)))
  exact ⟨l', hl', a, ha, of_decide_eq_true ha'⟩

end Traversal

omit [DecidableEq P] in
/-- Disjoint lines that have a counterpart each, and are the counterparts of each, correspond one to
one. -/
theorem rel_of_exists {R : List P → List P → Prop} {lines lines' : List (List P)}
    (hdisj : lines.Pairwise List.Disjoint) (hdisj' : lines'.Pairwise List.Disjoint)
    (hR : ∀ {l m l'}, R l l' → R m l' → ¬l.Disjoint m)
    (hR' : ∀ {l l' m'}, R l l' → R l m' → ¬l'.Disjoint m')
    (hleft : ∀ l ∈ lines, ∃ l' ∈ lines', R l l') (hright : ∀ l' ∈ lines', ∃ l ∈ lines, R l l') :
    Multiset.Rel R (lines : Multiset (List P)) (lines' : Multiset (List P)) := by
  induction lines generalizing lines' with
  | nil =>
    cases lines' with
    | nil => exact .zero
    | cons l' _ =>
      obtain ⟨l, hl, -⟩ := hright l' (by simp)
      simp at hl
  | cons l lines ih =>
    obtain ⟨hd, hdisj⟩ := List.pairwise_cons.mp hdisj
    obtain ⟨l', hl', hll'⟩ := hleft l (by simp)
    -- the line that fits the first one is taken out, and fits no other one
    classical
    have hperm := List.perm_cons_erase hl'
    rw [hperm.pairwise_iff List.Disjoint.symm, List.pairwise_cons] at hdisj'
    obtain ⟨hd', hdisj'⟩ := hdisj'
    rw [Multiset.coe_eq_coe.mpr hperm]
    refine .cons hll' (ih hdisj hdisj' ?_ ?_)
    · intro m hm
      obtain ⟨m', hm', hmm'⟩ := hleft m (List.mem_cons_of_mem _ hm)
      have hne : m' ≠ l' := by
        rintro rfl
        exact hR hll' hmm' (hd m hm)
      exact ⟨m', (List.mem_erase_of_ne hne).mpr hm', hmm'⟩
    · intro m' hm'
      obtain ⟨m, hm, hmm'⟩ := hright m' (List.mem_of_mem_erase hm')
      rcases List.mem_cons.mp hm with rfl | hm
      · exact absurd (hd' m' hm') (hR' hll' hmm')
      · exact ⟨m, hm, hmm'⟩

omit [DecidableEq P] in
theorem SameLine.mem_iff {l m : List P} (h : SameLine l m) (p : P) : p ∈ l ↔ p ∈ m := by
  rcases h with rfl | rfl | ⟨hl, hm, hrot | hrot⟩
  · rfl
  · rw [List.mem_reverse]
  · rw [← hl.mem_dropLast, ← hm.mem_dropLast, hrot.mem_iff]
  · rw [← hm.mem_dropLast, hrot.mem_iff, hl.reverse.mem_dropLast, List.mem_reverse]

/-- All traversals of the same segments have the same lines. -/
theorem Traversal.sameLines {E : Multiset (Sym2 P)} {lines lines' : List (List P)}
    (h : Traversal E lines) (h' : Traversal E lines') : SameLines lines lines' := by
  have hrel : Multiset.Rel (fun l l' => SameLine l l' ∧ ∃ p ∈ l, p ∈ l')
      (lines : Multiset (List P)) (lines' : Multiset (List P)) := by
    refine rel_of_exists h.disjoint h'.disjoint ?_ ?_ ?_ ?_
    · rintro l m l' ⟨hl, p, hp, hp'⟩ ⟨hm, -⟩ hdisj
      exact hdisj hp ((hm.mem_iff p).mpr hp')
    · rintro l l' m' ⟨hl, p, hp, hp'⟩ ⟨hm, -⟩ hdisj
      exact hdisj hp' ((hm.mem_iff p).mp hp)
    · intro l hl
      obtain ⟨l', hl', p, hp, hp'⟩ := h.exists_common h' hl
      exact ⟨l', hl', h.sameLine h' hl hl' hp hp', p, hp, hp'⟩
    · intro l' hl'
      obtain ⟨l, hl, p, hp', hp⟩ := h'.exists_common h hl'
      exact ⟨l, hl, h.sameLine h' hl hl' hp hp', p, hp, hp'⟩
  exact hrel.mono fun l _ l' _ hll' => hll'.1

end Graphing.Contour
