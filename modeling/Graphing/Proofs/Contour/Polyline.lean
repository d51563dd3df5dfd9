/-
  Graphing.Proofs.Contour.Polyline

  Polylines as trails in a graph of undirected segments.

  A polyline is a path if no point is met twice, and a loop if only its first
  point is met again, at its end.  Along a path the two ends have one link and
  all other points two; along a loop every point has two.  The undirected
  links determine a path up to its direction, and a loop up to its direction
  and the point it starts from.
-/
import Mathlib.Data.List.Rotate
import Mathlib.Data.Sym.Sym2

namespace Graphing.Contour

variable {P : Type}

/-! ## Links -/

/-- The links between consecutive points of a polyline, without their direction. -/
def edges : List P → Multiset (Sym2 P)
  | p :: q :: rest => s(p, q) ::ₘ edges (q :: rest)
  | _ => 0

@[simp] theorem edges_nil : edges ([] : List P) = 0 := rfl

@[simp] theorem edges_singleton (p : P) : edges [p] = 0 := rfl

@[simp] theorem edges_cons_cons (p q : P) (rest : List P) :
    edges (p :: q :: rest) = s(p, q) ::ₘ edges (q :: rest) := rfl

/-- A polyline can be cut at any of its points. -/
theorem edges_append_cons (l : List P) (p : P) (r : List P) :
    edges (l ++ p :: r) = edges (l ++ [p]) + edges (p :: r) := by
  induction l with
  | nil => simp
  | cons a l ih =>
    cases l with
    | nil => simp
    | cons b l =>
      simp only [List.cons_append, edges_cons_cons, Multiset.cons_add] at ih ⊢
      rw [ih]

/-- Two polylines in a row have a link between them. -/
theorem edges_append (l : List P) (p q : P) (r : List P) :
    edges (l ++ [p] ++ q :: r) = s(p, q) ::ₘ (edges (l ++ [p]) + edges (q :: r)) := by
  rw [List.append_assoc, List.singleton_append, edges_append_cons, edges_cons_cons,
    Multiset.add_cons]

theorem edges_concat (l : List P) (p q : P) :
    edges (l ++ [p] ++ [q]) = s(p, q) ::ₘ edges (l ++ [p]) := by
  rw [edges_append, edges_singleton, add_zero]

@[simp] theorem edges_reverse (l : List P) : edges l.reverse = edges l := by
  induction l with
  | nil => rfl
  | cons a l ih =>
    cases l with
    | nil => rfl
    | cons b l =>
      rw [List.reverse_cons] at ih
      rw [List.reverse_cons, List.reverse_cons, edges_concat, ih, edges_cons_cons, Sym2.eq_swap]

/-- A link joins points of the polyline. -/
theorem mem_of_mem_edges {l : List P} {e : Sym2 P} {p : P} (he : e ∈ edges l) (hp : p ∈ e) :
    p ∈ l := by
  induction l with
  | nil => simp at he
  | cons a l ih =>
    cases l with
    | nil => simp at he
    | cons b l =>
      rw [edges_cons_cons, Multiset.mem_cons] at he
      rcases he with rfl | he
      · rcases Sym2.mem_iff.mp hp with rfl | rfl <;> simp
      · exact List.mem_cons_of_mem _ (ih he)

/-- Every point of a polyline that is no single point is on a link. -/
theorem exists_mem_edges {l : List P} (h : 2 ≤ l.length) {p : P} (hp : p ∈ l) :
    ∃ e ∈ edges l, p ∈ e := by
  induction l with
  | nil => simp at hp
  | cons a l ih =>
    cases l with
    | nil => simp at h
    | cons b l =>
      rw [edges_cons_cons]
      by_cases hab : p = a ∨ p = b
      · exact ⟨s(a, b), Multiset.mem_cons_self _ _, Sym2.mem_iff.mpr hab⟩
      · have hl : p ∈ b :: l := by simp_all
        have hlen : 2 ≤ (b :: l).length := by
          cases l with
          | nil => simp_all
          | cons c l => simp
        obtain ⟨e, he, hpe⟩ := ih hlen hl
        exact ⟨e, Multiset.mem_cons_of_mem he, hpe⟩

/-! ## Degrees -/

variable [DecidableEq P]

/-- How many of some undirected segments end in a point. -/
def degree (E : Multiset (Sym2 P)) (p : P) : Nat := E.countP fun e => p ∈ e

@[simp] theorem degree_zero (p : P) : degree 0 p = 0 := rfl

theorem degree_cons (e : Sym2 P) (E : Multiset (Sym2 P)) (p : P) :
    degree (e ::ₘ E) p = degree E p + if p ∈ e then 1 else 0 :=
  Multiset.countP_cons ..

theorem degree_add (E F : Multiset (Sym2 P)) (p : P) :
    degree (E + F) p = degree E p + degree F p :=
  Multiset.countP_add ..

theorem degree_edges_of_not_mem {l : List P} {p : P} (h : p ∉ l) : degree (edges l) p = 0 := by
  apply Multiset.countP_eq_zero.mpr
  intro e he hp
  exact h (mem_of_mem_edges he hp)

theorem mem_of_degree_edges_pos {l : List P} {p : P} (h : 0 < degree (edges l) p) : p ∈ l := by
  by_contra hp
  rw [degree_edges_of_not_mem hp] at h
  exact absurd h (lt_irrefl 0)

/-! ## Paths -/

/-- A polyline that meets no point twice. -/
structure IsPath (l : List P) : Prop where
  two_le : 2 ≤ l.length
  nodup : l.Nodup

omit [DecidableEq P] in
theorem IsPath.reverse {l : List P} (h : IsPath l) : IsPath l.reverse :=
  ⟨by simpa using h.two_le, by simpa using h.nodup⟩

/-- An end of a path has one link, every other point two. -/
theorem IsPath.degree_eq {l : List P} (h : IsPath l) {p : P} (hp : p ∈ l) :
    degree (edges l) p = if l.head? = some p ∨ l.getLast? = some p then 1 else 2 := by
  obtain ⟨hlen, hnd⟩ := h
  induction l with
  | nil => simp at hp
  | cons a l ih =>
    cases l with
    | nil => simp at hlen
    | cons b l =>
      obtain ⟨ha, hnd'⟩ := List.nodup_cons.mp hnd
      rw [edges_cons_cons, degree_cons]
      by_cases hpa : p = a
      · subst hpa
        -- the first point has its first link only
        rw [degree_edges_of_not_mem ha]
        simp
      · have hpl : p ∈ b :: l := by simpa [hpa] using hp
        have hne : a ≠ p := Ne.symm hpa
        cases l with
        | nil =>
          have hpb : p = b := by simpa using hpl
          simp [hpb]
        | cons c l =>
          rw [ih hpl (by simp) hnd']
          have hlast : (a :: b :: c :: l).getLast? = (b :: c :: l).getLast? := by simp
          rw [hlast]
          by_cases hpb : p = b
          · -- the second point: its second link is the one to the first point
            subst hpb
            have hb : (c :: l).getLast? ≠ some p :=
              fun hl => (List.nodup_cons.mp hnd').1 (List.mem_of_getLast? hl)
            simp [hne, hb]
          · have hbp : b ≠ p := Ne.symm hpb
            simp [hpa, hpb, hne, hbp]

/-! ## Loops -/

/-- A polyline that meets its first point again at its end, and no other point twice. -/
structure IsLoop (l : List P) : Prop where
  three_le : 3 ≤ l.length
  closed : l.head? = l.getLast?
  nodup : l.dropLast.Nodup

omit [DecidableEq P] in
/-- A loop is a path whose last point is linked to the first. -/
theorem IsLoop.exists_eq {l : List P} (h : IsLoop l) :
    ∃ a m z, l = a :: (m ++ [z] ++ [a]) ∧ (a :: (m ++ [z])).Nodup := by
  obtain ⟨hlen, hclosed, hnd⟩ := h
  obtain ⟨a, t, rfl⟩ := List.exists_cons_of_length_pos (by omega : 0 < l.length)
  have ht : t ≠ [] := by
    rintro rfl
    simp at hlen
  obtain ⟨m, b, rfl⟩ := List.eq_nil_or_concat' t |>.resolve_left ht
  have hab : a = b := by simpa [List.getLast?_cons] using hclosed
  subst hab
  have hm : m ≠ [] := by
    rintro rfl
    simp at hlen
  obtain ⟨m, z, rfl⟩ := List.eq_nil_or_concat' m |>.resolve_left hm
  refine ⟨a, m, z, rfl, ?_⟩
  rw [← List.cons_append, List.dropLast_concat] at hnd
  exact hnd

omit [DecidableEq P] in
theorem isLoop_of_nodup {a z : P} {m : List P} (h : (a :: (m ++ [z])).Nodup) :
    IsLoop (a :: (m ++ [z] ++ [a])) where
  three_le := by simp
  closed := by simp [List.getLast?_cons]
  nodup := by
    rw [← List.cons_append, List.dropLast_concat]
    exact h

omit [DecidableEq P] in
theorem IsLoop.reverse {l : List P} (h : IsLoop l) : IsLoop l.reverse := by
  obtain ⟨a, m, z, rfl, hnd⟩ := h.exists_eq
  have heq : (a :: (m ++ [z] ++ [a])).reverse = a :: (m ++ [z]).reverse ++ [a] := by simp
  refine ⟨by simp, by simp [List.getLast?_cons], ?_⟩
  rw [heq, List.dropLast_concat, List.nodup_cons]
  rw [List.nodup_cons] at hnd
  exact ⟨fun hmem => hnd.1 (List.mem_reverse.mp hmem), List.nodup_reverse.mpr hnd.2⟩

omit [DecidableEq P] in
/-- A path that is closed is a loop. -/
theorem IsPath.isLoop {l : List P} (h : IsPath l) : IsLoop (l ++ l.head?.toList) := by
  obtain ⟨hlen, hnd⟩ := h
  obtain ⟨a, t, rfl⟩ := List.exists_cons_of_length_pos (by omega : 0 < l.length)
  have ht : t ≠ [] := by
    rintro rfl
    simp at hlen
  obtain ⟨m, z, rfl⟩ := List.eq_nil_or_concat' t |>.resolve_left ht
  exact isLoop_of_nodup hnd

/-- Every point of a loop has two links. -/
theorem IsLoop.degree_eq {l : List P} (h : IsLoop l) {p : P} (hp : p ∈ l) :
    degree (edges l) p = 2 := by
  obtain ⟨a, m, z, rfl, hnd⟩ := h.exists_eq
  have hpath : IsPath (a :: (m ++ [z])) := ⟨by simp, hnd⟩
  have hedges : edges (a :: (m ++ [z] ++ [a])) = s(z, a) ::ₘ edges (a :: (m ++ [z])) := by
    have := edges_concat (a :: m) z a
    simpa using this
  have hpm : p ∈ a :: (m ++ [z]) := by
    simp only [List.mem_cons, List.mem_append, List.not_mem_nil, or_false] at hp ⊢
    tauto
  rw [hedges, degree_cons, hpath.degree_eq hpm]
  by_cases hends : p = a ∨ p = z
  · have h1 : (a :: (m ++ [z])).head? = some p ∨ (a :: (m ++ [z])).getLast? = some p := by
      rcases hends with rfl | rfl <;> simp [List.getLast?_cons]
    have h2 : p ∈ s(z, a) := Sym2.mem_iff.mpr hends.symm
    rw [if_pos h1, if_pos h2]
  · have h1 : ¬((a :: (m ++ [z])).head? = some p ∨ (a :: (m ++ [z])).getLast? = some p) := by
      simpa [List.getLast?_cons, eq_comm] using hends
    have h2 : p ∉ s(z, a) := fun h2 => hends (Sym2.mem_iff.mp h2).symm
    rw [if_neg h1, if_neg h2]

omit [DecidableEq P] in
/-- Apart from the repetition at its end, a loop meets each of its points once. -/
theorem IsLoop.mem_dropLast {l : List P} (h : IsLoop l) {p : P} :
    p ∈ l.dropLast ↔ p ∈ l := by
  obtain ⟨a, m, z, rfl, -⟩ := h.exists_eq
  rw [← List.cons_append, List.dropLast_concat]
  simp only [List.mem_append, List.mem_cons, List.not_mem_nil, or_false]
  tauto

/-! ## The links determine a polyline -/

omit [DecidableEq P] in
/-- A polyline that goes on from a point it does not come back to has one link there. -/
theorem not_mem_edges {a b : P} {l : List P} (h : a ∉ l) : s(a, b) ∉ edges l :=
  fun hmem => h (mem_of_mem_edges hmem (Sym2.mem_mk_left a b))

omit [DecidableEq P] in
/-- Two paths from one point that have the same links are the same. -/
theorem eq_of_edges_cons {a : P} {l l' : List P} (hnd : (a :: l).Nodup) (hnd' : (a :: l').Nodup)
    (h : edges (a :: l) = edges (a :: l')) : l = l' := by
  induction l generalizing a l' with
  | nil =>
    cases l' with
    | nil => rfl
    | cons c l' => simp at h
  | cons b l ih =>
    cases l' with
    | nil => simp at h
    | cons c l' =>
      obtain ⟨ha, hnd⟩ := List.nodup_cons.mp hnd
      obtain ⟨ha', hnd'⟩ := List.nodup_cons.mp hnd'
      rw [edges_cons_cons, edges_cons_cons] at h
      have hmem : s(a, b) ∈ s(a, c) ::ₘ edges (c :: l') := h ▸ Multiset.mem_cons_self _ _
      have hbc : b = c := by
        rcases Multiset.mem_cons.mp hmem with hbc | hbc
        · exact Sym2.congr_right.mp hbc
        · exact absurd hbc (not_mem_edges ha')
      subst hbc
      rw [ih hnd hnd' ((Multiset.cons_inj_right _).mp h)]

/-- The links of a path determine it up to its direction. -/
theorem IsPath.eq_or_eq_reverse {l l' : List P} (h : IsPath l) (h' : IsPath l')
    (hedges : edges l = edges l') : l' = l ∨ l' = l.reverse := by
  obtain ⟨a, t, rfl⟩ := List.exists_cons_of_length_pos (by have := h.two_le; omega : 0 < l.length)
  have hdeg : degree (edges l') a = 1 := by
    rw [← hedges, h.degree_eq (by simp)]
    simp
  have ha : a ∈ l' := mem_of_degree_edges_pos (by omega)
  rw [h'.degree_eq ha] at hdeg
  have hends : l'.head? = some a ∨ l'.getLast? = some a := by
    by_contra hends
    rw [if_neg hends] at hdeg
    omega
  rcases hends with hhead | hlast
  · left
    obtain ⟨t', rfl⟩ := List.head?_eq_some_iff.mp hhead
    rw [eq_of_edges_cons h.nodup h'.nodup hedges]
  · right
    rw [← List.head?_reverse] at hlast
    obtain ⟨t', ht'⟩ := List.head?_eq_some_iff.mp hlast
    have hnd := h'.reverse.nodup
    rw [← edges_reverse l', ht'] at hedges
    rw [ht'] at hnd
    rw [eq_of_edges_cons h.nodup hnd hedges, ← ht', List.reverse_reverse]

omit [DecidableEq P] in
/-- Two loops from one point that have the same links and go on to the same point are the same. -/
theorem eq_of_edges_cons_cons {a b : P} {l l' : List P} (hnd : (b :: l).Nodup)
    (hnd' : (b :: l').Nodup) (h : edges (a :: b :: l) = edges (a :: b :: l')) : l = l' :=
  eq_of_edges_cons hnd hnd' ((Multiset.cons_inj_right s(a, b)).mp h)

omit [DecidableEq P] in
/-- Two loops from one point that have the same links are the same up to their direction. -/
theorem eq_or_eq_reverse_of_loops {a z z' : P} {m m' : List P} (hnd : (a :: (m ++ [z])).Nodup)
    (hnd' : (a :: (m' ++ [z'])).Nodup)
    (h : edges (a :: (m ++ [z] ++ [a])) = edges (a :: (m' ++ [z'] ++ [a]))) :
    m' ++ [z'] = m ++ [z] ∨ m' ++ [z'] = (m ++ [z]).reverse := by
  have htail : ∀ {y : P} {n : List P}, (a :: (n ++ [y])).Nodup → (n ++ [y] ++ [a]).Nodup := by
    intro y n hn
    rw [List.nodup_append_comm]
    exact hn
  -- the second loop goes on from its start as the first does, or comes back the way that one goes
  obtain ⟨b, r, hr⟩ : ∃ b r, m ++ [z] = b :: r := by cases m <;> simp
  obtain ⟨c, r', hr'⟩ : ∃ c r', m' ++ [z'] = c :: r' := by cases m' <;> simp
  by_cases hbc : b = c
  · left
    subst hbc
    have h1 := htail hnd
    have h2 := htail hnd'
    rw [hr, List.cons_append] at h h1
    rw [hr', List.cons_append] at h h2
    have := eq_of_edges_cons_cons h1 h2 h
    rw [hr, hr', List.append_cancel_right this]
  · right
    have hlast : s(a, b) ∈ s(z', a) ::ₘ edges (m' ++ [z']) := by
      have hmem : s(a, b) ∈ edges (a :: (m' ++ [z'] ++ [a])) := by
        rw [← h, hr]
        simp
      rw [hr', List.cons_append, edges_cons_cons, ← List.cons_append, ← hr',
        Multiset.mem_cons] at hmem
      rw [← edges_concat]
      rcases hmem with heq | hmem
      · exact absurd (Sym2.congr_right.mp heq) hbc
      · exact hmem
    have hbz : b = z' := by
      rcases Multiset.mem_cons.mp hlast with heq | hmem
      · rw [Sym2.eq_swap] at heq
        exact Sym2.congr_left.mp heq
      · exact absurd hmem (not_mem_edges (List.nodup_cons.mp hnd').1)
    subst hbz
    have hrev : edges (a :: (m' ++ [b] ++ [a])) = edges (a :: b :: (m'.reverse ++ [a])) := by
      rw [← edges_reverse]
      simp
    have h1 := htail hnd
    have h2 : (b :: (m'.reverse ++ [a])).Nodup := by
      rw [← List.cons_append, List.nodup_append_comm, List.singleton_append]
      have heq : b :: m'.reverse = (m' ++ [b]).reverse := by simp
      rw [heq, List.nodup_cons, List.mem_reverse, List.nodup_reverse]
      exact List.nodup_cons.mp hnd'
    rw [hrev] at h
    rw [hr, List.cons_append] at h h1
    have := List.append_cancel_right (eq_of_edges_cons_cons h1 h2 h)
    rw [hr, this]
    simp

omit [DecidableEq P] in
/-- A loop can be started from any of its points: it keeps its links. -/
theorem IsLoop.exists_rotation {l : List P} (h : IsLoop l) {a : P} (ha : a ∈ l) :
    ∃ m z, (a :: (m ++ [z])).Nodup ∧ edges (a :: (m ++ [z] ++ [a])) = edges l ∧
      (a :: (m ++ [z])) ~r l.dropLast := by
  have hmem := h.mem_dropLast.mpr ha
  obtain ⟨b, m, z, rfl, hnd⟩ := h.exists_eq
  rw [← List.cons_append, List.dropLast_concat] at hmem ⊢
  obtain ⟨u, v, huv⟩ := List.append_of_mem hmem
  cases u with
  | nil =>
    obtain ⟨rfl, rfl⟩ := List.cons.inj (by simpa using huv)
    exact ⟨m, z, hnd, by simp, List.IsRotated.refl _⟩
  | cons b' u =>
    obtain ⟨rfl, huv⟩ := List.cons.inj huv
    obtain ⟨m', z', hm'⟩ : ∃ m' z', v ++ b :: u = m' ++ [z'] := by
      obtain hv | ⟨m', z', hv⟩ := List.eq_nil_or_concat' (v ++ b :: u)
      · simp at hv
      · exact ⟨m', z', hv⟩
    have hrot : (a :: (m' ++ [z'])) ~r (b :: (m ++ [z])) := by
      rw [← hm', huv, ← List.cons_append]
      exact List.isRotated_append
    refine ⟨m', z', (List.IsRotated.nodup_iff hrot).mpr hnd, ?_, hrot⟩
    have h1 : a :: (m' ++ [z'] ++ [a]) = (a :: v) ++ b :: (u ++ [a]) := by
      rw [← hm']
      simp
    have h2 : b :: (m ++ [z]) ++ [b] = (b :: u) ++ a :: (v ++ [b]) := by
      rw [huv]
      simp
    rw [h1, h2, edges_append_cons (a :: v), edges_append_cons (b :: u), add_comm]
    simp

/-- The links of a loop determine it up to its direction and the point it starts from. -/
theorem IsLoop.isRotated {l l' : List P} (h : IsLoop l) (h' : IsLoop l')
    (hedges : edges l = edges l') :
    l'.dropLast ~r l.dropLast ∨ l'.dropLast ~r l.reverse.dropLast := by
  obtain ⟨a, m, z, rfl, hnd⟩ := h.exists_eq
  have ha : a ∈ l' := by
    apply mem_of_degree_edges_pos
    rw [← hedges, h.degree_eq (by simp)]
    omega
  obtain ⟨m', z', hnd', hedges', hrot⟩ := h'.exists_rotation ha
  have hrev : (a :: (m ++ [z] ++ [a])).reverse.dropLast = a :: (m ++ [z]).reverse := by
    have heq : (a :: (m ++ [z] ++ [a])).reverse = a :: (m ++ [z]).reverse ++ [a] := by simp
    rw [heq, List.dropLast_concat]
  rw [hrev, ← List.cons_append, List.dropLast_concat]
  rcases eq_or_eq_reverse_of_loops hnd hnd' (hedges.trans hedges'.symm) with heq | heq
  · left
    rw [← heq]
    exact hrot.symm
  · right
    rw [← heq]
    exact hrot.symm

end Graphing.Contour
