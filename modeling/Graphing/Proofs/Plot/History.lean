/-
  Graphing.Proofs.Plot.History

  Sessions, whatever was done in them.

  A command fails or answers, and what it did until then is kept.  So a
  property of sessions is followed through each step of a command, on all the
  ways out (`Leads`).  The canvas of a session is sound after any commands, and
  each of its sets lists pieces that exist, none of them twice.  Only a command
  on the handle itself removes a handle that a piece keeps.
-/
import Graphing.Plot.Session
import Graphing.Proofs.Plot.Accounting

open Graphing.Relation (Family)

namespace Graphing.Session

variable {α β : Type} {I : Session → Prop} {w w' : Session} {whole : Prop}

/-! ## Steps -/

/-- What a step answers, and the session after it. -/
def outcome (x : Step α) (w : Session) : Except SessionFault α × Session := x.run.run w

/-- A step keeps a property of sessions, whether or not it fails, and what it answers is as told. -/
def Leads (I : Session → Prop) (x : Step α) (w : Session) (Q : α → Session → Prop) : Prop :=
  match outcome x w with
  | (.ok a, w') => I w' ∧ Q a w'
  | (.error _, w') => I w'

namespace Leads

variable {x : Step α} {f : α → Step β} {P Q : α → Session → Prop} {R : β → Session → Prop}

theorem pure {a : α} (h : I w) (hQ : Q a w) : Leads I (pure a) w Q := ⟨h, hQ⟩

theorem throw (e : SessionFault) (h : I w) : Leads I (throw e) w Q := h

theorem get (h : I w) : Leads I get w fun a w' => a = w ∧ w' = w := ⟨h, rfl, rfl⟩

theorem modify {g : Session → Session} (h : I (g w)) :
    Leads I (modify g) w fun _ w' => w' = g w := ⟨h, rfl⟩

theorem bind (hx : Leads I x w P) (hf : ∀ a w', I w' → P a w' → Leads I (f a) w' R) :
    Leads I (x >>= f) w R := by
  have hrun : outcome (x >>= f) w = match outcome x w with
      | (.ok a, w') => outcome (f a) w'
      | (.error e, w') => (.error e, w') := by
    show ExceptT.bindCont f (outcome x w).1 (outcome x w).2 = _
    rcases outcome x w with ⟨_ | _, _⟩ <;> rfl
  unfold Leads at hx ⊢
  rw [hrun]
  generalize outcome x w = o at hx ⊢
  obtain ⟨e | a, w'⟩ := o
  · exact hx
  · exact hf a w' hx.1 hx.2

theorem map {g : α → β} (hx : Leads I x w fun a w' => R (g a) w') : Leads I (g <$> x) w R := by
  have hrun : outcome (g <$> x) w = ((outcome x w).1.map g, (outcome x w).2) := by
    simp only [outcome, ExceptT.run_map, StateT.run_map]
    rfl
  unfold Leads at hx ⊢
  rw [hrun]
  generalize outcome x w = o at hx ⊢
  obtain ⟨e | a, w'⟩ := o
  · exact hx
  · exact hx

/-- A test that a step begins with. -/
theorem guard {p : Prop} [Decidable p] {e : SessionFault} {k : PUnit → Step β} (h : I w)
    (hk : Leads I (k ⟨⟩) w R) :
    Leads I (if p then (MonadExcept.throw e : Step PUnit) >>= k else k ⟨⟩) w R := by
  split
  · exact (throw (Q := fun _ _ => False) e h).bind fun _ _ _ hfalse => hfalse.elim
  · exact hk

theorem imp (hx : Leads I x w P) (hPQ : ∀ a w', I w' → P a w' → Q a w') : Leads I x w Q := by
  unfold Leads at hx ⊢
  generalize outcome x w = o at hx ⊢
  obtain ⟨e | a, w'⟩ := o
  · exact hx
  · exact ⟨hx.1, hPQ a w' hx.1 hx.2⟩

/-- The session after a step. -/
theorem after (hx : Leads I x w Q) : I (outcome x w).2 := by
  unfold Leads at hx
  generalize outcome x w = o at hx ⊢
  obtain ⟨e | a, w'⟩ := o
  · exact hx
  · exact hx.1

/-- A step that leaves the session as it is. -/
theorem of_reads (hx : Leads (· = w) x w Q) (h : I w) :
    Leads I x w fun a w' => w' = w ∧ Q a w' := by
  unfold Leads at hx ⊢
  generalize outcome x w = o at hx ⊢
  obtain ⟨e | a, w'⟩ := o
  · obtain rfl : w' = w := hx
    exact h
  · obtain ⟨rfl, hQ⟩ := hx
    exact ⟨h, rfl, hQ⟩

/-- What is done after a step that leaves the session as it is. -/
theorem bind_reads (hx : Leads (· = w) x w P) (h : I w) (hf : ∀ a, P a w → Leads I (f a) w R) :
    Leads I (x >>= f) w R := by
  refine (hx.of_reads h).bind ?_
  rintro a w' - ⟨rfl, hP⟩
  exact hf a hP

theorem mapM {xs : List α} {f : α → Step β} (hf : ∀ a ∈ xs, Leads (· = w) (f a) w fun _ _ => True) :
    Leads (· = w) (xs.mapM f) w fun _ _ => True := by
  induction xs with
  | nil => exact pure rfl trivial
  | cons a xs ih =>
    rw [List.mapM_cons]
    refine bind_reads (hf a List.mem_cons_self) rfl fun b _ => ?_
    refine bind_reads (ih fun a ha => hf a (List.mem_cons_of_mem _ ha)) rfl fun bs _ => ?_
    exact pure rfl trivial

end Leads

-- from here on, steps are followed by these laws alone
attribute [irreducible] Leads

/-! ## Steps that only read -/

theorem reads_place (size : Nat) (i : Int) :
    Leads (· = w) (place size i) w fun n _ => place? size i = some n := by
  unfold place
  split
  · rename_i n hn
    exact .pure rfl hn
  · exact .throw _ rfl

theorem reads_handleAt (h : Int) : Leads (· = w) (handleAt h) w fun _ _ => True := by
  refine .bind_reads (.get rfl) rfl ?_
  rintro _ ⟨rfl, -⟩
  refine .bind_reads (reads_place _ h) rfl fun n _ => ?_
  split
  · exact .pure rfl trivial
  · exact .throw _ rfl

theorem reads_setNamed (name : String) :
    Leads (· = w) (setNamed name) w fun ns _ => (name, ns) ∈ w.sets := by
  refine .bind_reads (.get rfl) rfl ?_
  rintro _ ⟨rfl, -⟩
  split
  · rename_i ns hns
    refine .pure rfl ?_
    obtain ⟨before, after, heq, -⟩ := List.lookup_eq_some_iff.mp hns
    rw [heq]
    exact List.mem_append_right _ List.mem_cons_self
  · exact .throw _ rfl

theorem reads_pieceAt (p : PiecePlace) :
    Leads (· = w) (pieceAt p) w fun n _ => ∃ name ns, (name, ns) ∈ w.sets ∧ n ∈ ns := by
  refine .bind_reads (reads_setNamed p.1) rfl fun ns hns => ?_
  refine .bind_reads (reads_place _ p.2) rfl fun i _ => ?_
  split
  · rename_i n hn
    exact .pure rfl ⟨p.1, ns, hns, List.mem_of_getElem? hn⟩
  · exact .throw _ rfl

theorem reads_piecesOf (ns : List PieceId) : Leads (· = w) (piecesOf ns) w fun _ _ => True :=
  .bind_reads (.get rfl) rfl fun _ _ => .pure rfl trivial

theorem reads_readSettings {r : Except SettingFault α} :
    Leads (· = w) (readSettings r) w fun _ _ => True := by
  unfold readSettings
  split
  · exact .pure rfl trivial
  · exact .throw _ rfl

theorem reads_compile (text : String) (parameters : List String) :
    Leads (· = w) (compile text parameters) w fun _ _ => True := by
  unfold compile
  split
  · exact .pure rfl trivial
  · exact .throw _ rfl

theorem reads_coordinates (r : Except SurfaceFault (Float × Float)) :
    Leads (· = w) (coordinates r) w fun _ _ => True := by
  unfold coordinates
  split
  · exact .pure rfl trivial
  · exact .throw _ rfl

theorem reads_styleOf (settings : Settings) (others : List String) :
    Leads (· = w) (styleOf settings others) w fun _ _ => True := by
  refine .bind_reads reads_readSettings rfl fun options _ => ?_
  split
  · exact .pure rfl trivial
  · exact .throw _ rfl

theorem reads_circleAt (h : Option Int) : Leads (· = w) (circleAt h) w fun _ _ => True := by
  cases h with
  | none => exact .pure rfl trivial
  | some h =>
    refine .bind_reads (reads_handleAt h) rfl fun handle _ => ?_
    obtain ⟨n, trace, shape, visible, removed⟩ := handle
    cases shape with
    | curve | segment => exact .throw _ rfl
    | marker m => exact .pure rfl trivial

/-! ## Sound sessions -/

/-- A sound canvas, with sets of pieces that exist, none of them twice. -/
structure Sound (whole : Prop) (w : Session) : Prop where
  canvas : w.canvas.Sound whole
  sets : ∀ entry ∈ w.sets, entry.2.Nodup ∧ ∀ n ∈ entry.2, n < w.canvas.pieces.size

namespace Sound

/-- A canvas that has lost no piece. -/
theorem withCanvas (h : w.Sound whole) {c : Canvas} (hc : c.Sound whole)
    (hsize : w.canvas.pieces.size ≤ c.pieces.size) : ({ w with canvas := c } : Session).Sound whole :=
  ⟨hc, fun entry hentry => ⟨(h.sets entry hentry).1, fun n hn =>
    Nat.lt_of_lt_of_le ((h.sets entry hentry).2 n hn) hsize⟩⟩

theorem onSurface (h : w.Sound whole) {f : Surface → Surface}
    (hf : w.canvas.surface.Grows (f w.canvas.surface)) :
    Leads (Sound whole) (onSurface f) w fun _ _ => True :=
  (Leads.modify (h.withCanvas (h.canvas.onSurface hf) (Nat.le_refl _))).imp fun _ _ _ _ => trivial

theorem withSurface (h : w.Sound whole) {f : Surface → Except SurfaceFault α × Surface}
    (hf : w.canvas.surface.Grows (f w.canvas.surface).2) :
    Leads (Sound whole) (withSurface f) w fun _ _ => True := by
  refine .bind_reads (.get rfl) h ?_
  rintro _ ⟨rfl, -⟩
  refine (h.onSurface (f := fun _ => (f _).2) hf).bind fun _ w' hw' _ => ?_
  split
  · exact .pure hw' trivial
  · exact .throw _ hw'

theorem withFigure (h : w.Sound whole) {f : Validator → Surface → Except SurfaceFault α × Surface}
    (hf : ∀ v, w.canvas.surface.Grows (f v w.canvas.surface).2) :
    Leads (Sound whole) (withFigure f) w fun _ _ => True := by
  refine .bind_reads (.get rfl) h ?_
  rintro _ ⟨rfl, -⟩
  exact h.withSurface (hf _)

theorem runOnCanvas (h : w.Sound whole) {f : Canvas → Outcome α} {Q : α → Canvas → Prop}
    (hf : (f w.canvas).2.Sound whole) (hsize : w.canvas.pieces.size ≤ (f w.canvas).2.pieces.size)
    (hQ : ∀ a, (f w.canvas).1 = .ok a → Q a (f w.canvas).2) :
    Leads (Sound whole) (Session.withCanvas f) w fun a w' => Q a w'.canvas := by
  refine .bind_reads (.get rfl) h ?_
  rintro _ ⟨rfl, -⟩
  generalize f _ = o at hf hsize hQ ⊢
  obtain ⟨result, c⟩ := o
  refine (Leads.modify (g := fun w => { w with canvas := c }) (h.withCanvas hf hsize)).bind ?_
  rintro _ w' hw' rfl
  cases result with
  | ok a => exact .pure hw' (hQ a rfl)
  | error e => exact .throw _ hw'

theorem withPieces (h : w.Sound whole)
    {f : Validator → Canvas → Except SurfaceFault Unit × Canvas}
    (hf : ∀ v, (f v w.canvas).2.Sound whole)
    (hsize : ∀ v, w.canvas.pieces.size ≤ (f v w.canvas).2.pieces.size) :
    Leads (Sound whole) (withPieces f) w fun _ _ => True := by
  refine .bind_reads (.get rfl) h ?_
  rintro _ ⟨rfl, -⟩
  exact h.runOnCanvas (Q := fun _ _ => True) (hf _) (hsize _) fun _ _ => trivial

theorem keep (h : w.Sound whole) {name : String} {ns : List PieceId} (hnodup : ns.Nodup)
    (hns : ∀ n ∈ ns, n < w.canvas.pieces.size) :
    Leads (Sound whole) (keep name ns) w fun _ _ => True := by
  refine (Leads.modify ⟨h.canvas, fun entry hentry => ?_⟩).imp fun _ _ _ _ => trivial
  rcases List.mem_cons.mp hentry with rfl | hold
  · exact ⟨hnodup, hns⟩
  · exact h.sets entry hold

/-! ## Commands on a handle -/

theorem modify (h : w.Sound whole) (n : HandleId) {f : Handle → Handle} (hf : Handle.Gentle f) :
    Leads (Sound whole) (Session.onSurface fun s => s.modify n f) w fun _ _ => True :=
  h.onSurface (.modify _ n hf)

theorem change (h : w.Sound whole) (n : HandleId) (r : Readout α) {f : α → Handle → Handle}
    (hf : ∀ a, Handle.Gentle (f a)) : Leads (Sound whole) (change n r f) w fun _ _ => True := by
  refine (h.modify n (hf r.settings)).bind fun _ w' hw' _ => ?_
  split
  · exact .pure hw' trivial
  · exact .throw _ hw'

/-- A command on a handle. After a removal, some handle of a piece may be lacking. -/
theorem runOnHandle (h : w.Sound whole) (n : HandleId) (handle : Handle) (c : HandleCommand)
    (hc : whole → c ≠ .remove) :
    Leads (Sound whole) (runOnHandle n handle c) w fun _ _ => True := by
  cases c with
  | configure settings =>
    unfold Session.runOnHandle
    cases handle.shape with
    | curve _ => exact h.change n _ fun _ => .mapCurve _
    | marker _ => exact h.change n _ fun _ => .mapMarker _
    | segment _ => exact h.change n _ fun _ => .mapSegment _
  | setData xs ys =>
    unfold Session.runOnHandle
    exact .guard h (h.modify n (.mapCurve _))
  | setFunction x y axis =>
    unfold Session.runOnHandle
    refine .guard h ?_
    -- both formulas are compiled before anything changes
    refine .bind_reads (reads_compile x ["s"]) h fun _ _ => ?_
    refine .bind_reads (reads_compile y ["s"]) h fun _ _ => ?_
    cases Axis.ofText? axis with
    | none => exact .throw _ h
    | some axis => exact h.modify n (.mapCurve _)
  | movePoint coords =>
    unfold Session.runOnHandle
    cases handle.shape with
    | curve _ | segment _ => exact .throw _ h
    | marker _ =>
      refine .bind_reads (reads_coordinates _) h fun _ _ => ?_
      exact h.modify n (.mapMarker _)
  | moveSegment start finish =>
    unfold Session.runOnHandle
    cases handle.shape with
    | curve _ | marker _ => exact .throw _ h
    | segment _ =>
      refine .bind_reads (reads_coordinates _) h fun _ _ => ?_
      -- the start is in place when the finish is read
      refine (h.modify n (.mapSegment _)).bind fun _ w' hw' _ => ?_
      refine .bind_reads (reads_coordinates _) hw' fun _ _ => ?_
      exact hw'.modify n (.mapSegment _)
  | update => exact h.withFigure (f := fun v s => s.updateOn v n) fun v => .updateOn v _ n
  | unhide =>
    exact h.withFigure (f := fun v s => s.setVisibleOn v n true) fun v => .setVisibleOn v _ n true
  | hide =>
    exact h.withFigure (f := fun v s => s.setVisibleOn v n false) fun v => .setVisibleOn v _ n false
  | updateCurve =>
    unfold Session.runOnHandle
    exact .guard h (h.withFigure (f := fun v s => s.updateCurveOn v n) fun v => .updateCurveOn v _ n)
  | remove =>
    -- a piece may go on to list the handle, so that the canvas need not be whole any more
    have hcanvas : (w.canvas.onSurface fun s => s.remove n).Sound whole :=
      (h.canvas.remove n).mono fun hw => absurd rfl (hc hw)
    exact (Leads.modify (h.withCanvas hcanvas (Nat.le_refl _))).imp fun _ _ _ _ => trivial

/-! ## Drawing with a single piece -/

/-- Drawing with a piece that exists, or with a new one. -/
theorem uses (h : w.Sound whole) {existing : Option PieceId} {f : Canvas → Outcome PieceId}
    {kind : PieceKind} {family : Family} {Notes : Piece → Prop}
    (hexisting : ∀ n, existing = some n → ∃ p, w.canvas.piece? n = some p)
    (hf : w.canvas.Uses existing kind family Notes (f w.canvas)) :
    Leads (Sound whole) (Session.withCanvas f) w fun n w' => n < w'.canvas.pieces.size := by
  refine h.runOnCanvas (h.canvas.uses hf) hf.spares.pieces
    (Q := fun n c => n < c.pieces.size) fun n hn => ?_
  have hpiece : w.canvas.Uses existing kind family Notes (.ok n, (f w.canvas).2) := by
    rw [← hn]
    exact hf
  obtain ⟨-, q, hq, -⟩ := hpiece.piece hexisting
  exact (Array.getElem?_eq_some_iff.mp hq).1

theorem drawFamily (h : w.Sound whole) (f : Family) (relation : List Char) (settings : Settings)
    {existing : Option PieceId} (hexisting : ∀ n, existing = some n → ∃ p, w.canvas.piece? n = some p) :
    Leads (Sound whole) (drawFamily f relation settings existing) w
      fun n w' => n < w'.canvas.pieces.size := by
  cases f with
  | functionOfX =>
    exact .bind_reads (reads_styleOf _ _) h fun style _ =>
      h.uses hexisting (Canvas.plotFunction_uses hexisting _ _ _ style)
  | functionOfY =>
    exact .bind_reads (reads_styleOf _ _) h fun style _ =>
      h.uses hexisting (Canvas.plotSideways_uses hexisting _ _ style)
  | polar =>
    exact .bind_reads (reads_styleOf _ _) h fun style _ =>
      h.uses hexisting (Canvas.plotPolar_uses hexisting _ _ style)
  | parametric =>
    exact .bind_reads (reads_styleOf _ _) h fun style _ =>
      h.uses hexisting (Canvas.plotParametric_uses hexisting _ _ style)
  | sequence =>
    exact .bind_reads (reads_styleOf _ _) h fun style _ =>
      h.uses hexisting (Canvas.plotSequence_uses hexisting _ _ style)
  | implicit =>
    exact .bind_reads (reads_styleOf _ _) h fun style _ =>
      h.uses hexisting (Canvas.plotImplicit_uses hexisting _ _ _ style)
  | point | asymptote | unknown => exact .throw _ h

theorem drawPiece (h : w.Sound whole) (d : Drawing) (settings : Settings)
    {existing : Option PieceId} (hexisting : ∀ n, existing = some n → ∃ p, w.canvas.piece? n = some p) :
    Leads (Sound whole) (drawPiece d settings existing) w
      fun n w' => n < w'.canvas.pieces.size := by
  cases d with
  | family f relation => exact h.drawFamily f relation settings hexisting
  | point coords =>
    exact .bind_reads (reads_styleOf _ _) h fun style _ =>
      h.uses hexisting (Canvas.plotPoint_uses hexisting _ _ style)
  | mark value functions =>
    refine .bind_reads (Leads.mapM fun entry _ => ?_) h fun functions _ => ?_
    · exact .bind_reads (reads_compile _ _) rfl fun _ _ => .pure rfl trivial
    · exact .bind_reads (reads_styleOf _ _) h fun style _ =>
        h.uses hexisting (Canvas.plotMark_uses hexisting style functions value)

/-! ## Commands -/

/-- What is done with the pieces of a set, or with none. -/
theorem reuse (h : w.Sound whole) (set : Option String) {f : List PieceId → Step α}
    (hf : ∀ ns : List PieceId, ns.Nodup → (∀ n ∈ ns, n < w.canvas.pieces.size) →
      Leads (Sound whole) (f ns) w fun _ _ => True) :
    Leads (Sound whole)
      (match set with | none => Pure.pure [] >>= f | some name => setNamed name >>= f) w
      fun _ _ => True := by
  cases set with
  | none => exact hf [] List.nodup_nil fun n hn => absurd hn List.not_mem_nil
  | some name =>
    exact .bind_reads (reads_setNamed name) h fun ns hns => hf ns (h.sets _ hns).1 (h.sets _ hns).2

/-- The session counts its suspensions. -/
theorem count (h : w.Sound whole) (g : Nat → Nat) :
    Leads (Sound whole) (modifyThe Session fun w => { w with suspensions := g w.suspensions }) w
      fun _ w' => w' = { w with suspensions := g w.suspensions } :=
  Leads.modify (g := fun w => { w with suspensions := g w.suspensions }) ⟨h.canvas, h.sets⟩

/-- The reply to a command on one piece shows the piece. -/
theorem shown (h : w.Sound whole) (n : PieceId) :
    Leads (Sound whole) (do
      match (← get).canvas.piece? n with
      | some p => return Reply.piece p
      | none => throw .noPlace) w fun _ _ => True := by
  refine .bind_reads (.get rfl) h fun _ _ => ?_
  split
  · exact .pure h trivial
  · exact .throw _ h

/-- Plotting a relation keeps the pieces it returns under a name. -/
theorem plot (h : w.Sound whole) (relation : List Char) (settings : Settings)
    (set : Option String) (name : String) :
    Leads (Sound whole) (runCommand (.plot relation settings set name)) w fun _ _ => True := by
  refine h.reuse set fun ns hnodup hns => ?_
  refine .bind_reads reads_readSettings h fun style _ => ?_
  refine .bind_reads (.get rfl) h ?_
  rintro _ ⟨rfl, -⟩
  obtain ⟨hsound, hsize, hr⟩ := h.canvas.plotOn_keeps _ relation _ hnodup hns
  refine (h.runOnCanvas (Q := fun r c => r.pieces.Nodup ∧ ∀ n ∈ r.pieces, n < c.pieces.size)
    hsound hsize hr).bind fun r _ hw' hr => ?_
  refine (hw'.keep hr.1 hr.2).bind fun _ _ hw' _ => ?_
  exact .bind_reads (reads_piecesOf r.pieces) hw' fun _ _ => .pure hw' trivial

/-- Drawing with one piece keeps it under a name. -/
theorem draw (h : w.Sound whole) (d : Drawing) (settings : Settings) (piece : Option PiecePlace)
    (name : String) :
    Leads (Sound whole) (runCommand (.draw d settings piece name)) w fun _ _ => True := by
  have hpiece : Leads (· = w) (piece.mapM pieceAt) w
      fun existing _ => ∀ n, existing = some n → ∃ p, w.canvas.piece? n = some p := by
    cases piece with
    | none => exact .pure rfl fun n hn => nomatch hn
    | some p =>
      refine Leads.map ((reads_pieceAt p).imp ?_)
      rintro n - - ⟨name, ns, hns, hn⟩ _ ⟨⟩
      exact ⟨_, Array.getElem?_eq_getElem ((h.sets _ hns).2 n hn)⟩
  refine .bind_reads hpiece h fun existing hexisting => ?_
  refine (h.drawPiece d settings hexisting).bind fun n w' hw' hn => ?_
  refine (hw'.keep (List.nodup_singleton n) fun m hm => ?_).bind fun _ _ hw' _ => hw'.shown n
  exact List.mem_singleton.mp hm ▸ hn

/-- Every command keeps a session sound, as a whole unless it removes a handle directly. -/
theorem runCommand (h : w.Sound whole) (c : Command) (hc : whole → ∀ k, c ≠ .onHandle k .remove) :
    Leads (Sound whole) (runCommand c) w fun _ _ => True := by
  cases c with
  | bounds => exact .bind_reads (.get rfl) h fun _ _ => .pure h trivial
  | setBounds d => exact (h.withFigure fun v => .setBoundsOn v _ d).bind fun _ _ hw' _ => .pure hw' trivial
  | pixelSamples axis => exact .bind_reads (.get rfl) h fun _ _ => .pure h trivial
  | createCurve settings =>
    exact (h.withSurface (.createCurve _ _)).bind fun _ _ hw' _ => .pure hw' trivial
  | createPoint coords settings =>
    exact (h.withFigure fun v => .createMarkerOn v _ coords _).bind fun _ _ hw' _ =>
      .pure hw' trivial
  | createSegment start finish settings =>
    exact (h.withFigure fun v => .createSegmentOn v _ start finish _).bind fun _ _ hw' _ =>
      .pure hw' trivial
  | onHandle k c =>
    -- the one command that can take a handle away from a piece
    refine .bind_reads (reads_handleAt k) h fun handle _ => ?_
    refine (h.runOnHandle handle.1 handle.2 c ?_).bind fun _ _ hw' _ => .pure hw' trivial
    rintro hw rfl
    exact hc hw k rfl
  | removeNothing => exact .pure h trivial
  | suspend =>
    refine (h.onSurface (.suspend _)).bind fun _ _ hw' _ => ?_
    refine (hw'.count (· + 1)).bind fun _ _ hw' _ => ?_
    exact .bind_reads (.get rfl) hw' fun _ _ => .pure hw' trivial
  | resume =>
    refine .bind_reads (.get rfl) h ?_
    rintro _ ⟨rfl, -⟩
    split
    · exact .throw _ h
    · refine (h.count (· - 1)).bind fun _ _ hw' _ => ?_
      refine (hw'.withFigure fun v => .resumeOn v _).bind fun _ _ hw' _ => ?_
      exact .bind_reads (.get rfl) hw' fun _ _ => .pure hw' trivial
  | order => exact .bind_reads (.get rfl) h fun _ _ => .pure h trivial
  | handles hs =>
    refine .bind_reads (.get rfl) h fun _ _ => ?_
    cases hs with
    | none => exact .pure h trivial
    | some hs =>
      refine .bind_reads (Leads.mapM fun k _ => reads_handleAt k) h fun _ _ => .pure h trivial
  | traces => exact .bind_reads (.get rfl) h fun _ _ => .pure h trivial
  | circle coords solid color k size =>
    refine .bind_reads (reads_circleAt k) h fun existing _ => ?_
    refine (h.withFigure fun v => ?_).bind fun _ _ hw' _ => .pure hw' trivial
    exact .placeCircleAtOn v _ coords solid color existing size
  | plot relation settings reuse name => exact h.plot relation settings reuse name
  | draw d settings piece name => exact h.draw d settings piece name
  | firstCurve name =>
    refine .bind_reads (reads_setNamed name) h fun ns _ => ?_
    exact .bind_reads (.get rfl) h fun _ _ => .pure h trivial
  | pieces name =>
    refine .bind_reads (reads_setNamed name) h fun ns _ => ?_
    exact .bind_reads (reads_piecesOf ns) h fun _ _ => .pure h trivial
  | removePieces name =>
    refine .bind_reads (reads_setNamed name) h fun ns _ => ?_
    refine (h.withPieces (fun v => h.canvas.removePiecesOn v ns) fun v => ?_).bind
      fun _ _ hw' _ => ?_
    · exact Nat.le_of_eq (Canvas.pieces_removePiecesOn v w.canvas ns).symm
    · exact .bind_reads (reads_piecesOf ns) hw' fun _ _ => .pure hw' trivial
  | hidePiece p =>
    refine .bind_reads (reads_pieceAt p) h fun n _ => ?_
    refine (h.withPieces (fun v => h.canvas.hidePieceOn v n) fun v => ?_).bind
      fun _ _ hw' _ => hw'.shown n
    exact Nat.le_of_eq (Canvas.pieces_hidePieceOn v w.canvas n).symm

theorem run (h : w.Sound whole) (c : Command) (hc : whole → ∀ k, c ≠ .onHandle k .remove) :
    (w.run c).2.Sound whole := (h.runCommand c hc).after

end Sound

/-! ## Sessions from the beginning -/

/-- The session after several commands, whether or not they fail. -/
def after (w : Session) (cs : List Command) : Session := cs.foldl (fun w c => (w.run c).2) w

theorem Sound.after (h : w.Sound whole) (cs : List Command)
    (hcs : whole → ∀ c ∈ cs, ∀ k, c ≠ .onHandle k .remove) : (w.after cs).Sound whole := by
  induction cs generalizing w with
  | nil => exact h
  | cons c cs ih =>
    exact ih (h.run c fun hw => hcs hw c List.mem_cons_self)
      fun hw d hd => hcs hw d (List.mem_cons_of_mem c hd)

/-- A session begins without handles and pieces. -/
theorem sound_create {width height : Int} {bounds : Contour.Domain Float} {s : Surface}
    (h : Surface.create? width height bounds = .ok s) :
    ({ canvas := { surface := s } } : Session).Sound whole := by
  have hspot : ∀ n a k, ({ surface := s } : Canvas).spot? n a ≠ some k := by
    intro n a k hk
    rw [Canvas.spot?, Canvas.piece?, Array.getElem?_empty] at hk
    cases hk
  have hidle : s.queue = [] := by
    unfold Surface.create? at h
    split at h
    · cases h
    · split at h
      · cases h
      · cases h
        rfl
  refine ⟨⟨Surface.coherent_create h, fun _ => hidle, fun n a k hk => absurd hk (hspot n a k),
    fun m n a b k hk _ => absurd hk (hspot m a k), fun n p hp _ => ?_⟩,
    fun entry hentry => absurd hentry List.not_mem_nil⟩
  rw [Canvas.piece?, Array.getElem?_empty] at hp
  cases hp

/-- The pieces of a set exist, and none is there twice. -/
theorem Sound.lookup (h : w.Sound whole) (name : String) :
    ((w.sets.lookup name).getD []).Nodup ∧
      ∀ n ∈ (w.sets.lookup name).getD [], n < w.canvas.pieces.size := by
  cases hns : w.sets.lookup name with
  | none => exact ⟨List.nodup_nil, fun n hn => absurd hn List.not_mem_nil⟩
  | some ns =>
    obtain ⟨before, after, heq, -⟩ := List.lookup_eq_some_iff.mp hns
    exact h.sets (name, ns) (heq ▸ List.mem_append_right _ List.mem_cons_self)

/-! ## Where the pieces go -/

/-- After any commands, a plot with any pieces there are, each given once: it returns each of them
once, and new ones beside. First come the pieces that are drawn, which are active and of the kind
that is required: one for each segment that excludes no value and is not skipped, in their order, and
then one for each excluded value. All other pieces are inactive, and their handles invisible. -/
theorem plot_returns_pieces {width height : Int} {bounds : Contour.Domain Float} {s : Surface}
    (hs : Surface.create? width height bounds = .ok s) (cs : List Command) {c c' : Canvas}
    (hc : (({ canvas := { surface := s } } : Session).after cs).canvas = c) (relation : List Char)
    (options : PlotOptions) {previous : List PieceId} (hnodup : previous.Nodup)
    (hprevious : ∀ n ∈ previous, n < c.pieces.size) {r : PlotResult}
    (hplot : c.plot relation options previous = (.ok r, c')) :
    ∃ drawn marks left fresh,
      r.pieces = drawn ++ (marks ++ left) ∧
      r.pieces.Perm (previous ++ fresh) ∧ r.pieces.Nodup ∧
      (∀ n ∈ fresh, c.pieces.size ≤ n ∧ n < c'.pieces.size) ∧
      List.Forall₂ (fun n s => ∃ p, c'.piece? n = some p ∧ Canvas.ShowsSegment s p) drawn
        ((Canvas.segmentsOf relation options.name).filter fun s =>
          s.2.family != .asymptote && !r.skips s.1) ∧
      List.Forall₂ (fun n v => ∃ p, c'.piece? n = some p ∧ Canvas.ShowsMark v p) marks
        (holesOf (Canvas.segmentsOf relation options.name)) ∧
      ∀ n ∈ left, ∃ p, c'.piece? n = some p ∧ p.active = false ∧
        ∀ k ∈ p.handles, ∃ l, c'.surface.handle? k = some l ∧ l.visible = false := by
  subst hc
  have hsound : (({ canvas := { surface := s } } : Session).after cs).Sound False :=
    (sound_create hs).after cs fun hw => hw.elim
  exact hsound.canvas.plot_accounts relation options hnodup hprevious hplot

/-- A line and a text that is no formula, with the pieces of the plot before. -/
theorem plot_returns_pieces_line :
    ∃ (s : Surface) (c c' : Canvas) (previous : List PieceId) (r : PlotResult),
      Surface.create? 40 40 ⟨-1, 1, -1, 1⟩ = .ok s ∧
      (({ canvas := { surface := s } } : Session).after
        [.plot "x^2 + y^2 = 1".toList [] none "circle"]).canvas = c ∧
      c.plot "y = @; y = x".toList {} previous = (.ok r, c') ∧
      ∃ drawn marks left fresh,
        r.pieces = drawn ++ (marks ++ left) ∧ r.pieces.Perm (previous ++ fresh) ∧
        (∀ n ∈ fresh, c.pieces.size ≤ n ∧ n < c'.pieces.size) ∧
        List.Forall₂ (fun n s => ∃ p, c'.piece? n = some p ∧ Canvas.ShowsSegment s p) drawn
          ((Canvas.segmentsOf "y = @; y = x".toList "x").filter fun s =>
            s.2.family != .asymptote && !r.skips s.1) ∧
        ∀ n ∈ left, ∃ p, c'.piece? n = some p ∧ p.active = false := by
  let s : Surface := { width := 40, height := 40, bounds := ⟨-1, 1, -1, 1⟩ }
  have hs : Surface.create? 40 40 ⟨-1, 1, -1, 1⟩ = .ok s := rfl
  let w : Session := ({ canvas := { surface := s } } : Session).after
    [.plot "x^2 + y^2 = 1".toList [] none "circle"]
  have hw : w.Sound False := (sound_create hs).after _ fun hw => hw.elim
  obtain ⟨style, hstyle⟩ : ∃ style, PlotStyle.ofOptions? ({} : PlotOptions).style = .ok style :=
    ⟨_, rfl⟩
  obtain ⟨holes, hholes⟩ : ∃ holes, Canvas.holeValues
      (Canvas.segmentsOf "y = @; y = x".toList ({} : PlotOptions).name) = .ok holes :=
    Except.exists_eq_ok (by decide +kernel)
  obtain ⟨drawn, left, c', hplot, -⟩ := Canvas.plot_of_holes w.canvas hstyle
    "y = @; y = x".toList hholes ((w.sets.lookup "circle").getD [])
  obtain ⟨drawn, marks, left, fresh, hr, hperm, -, hfresh, hdrawn, -, hleft⟩ :=
    plot_returns_pieces hs _ (c := w.canvas) rfl "y = @; y = x".toList {} (hw.lookup "circle").1
      (hw.lookup "circle").2 hplot
  refine ⟨s, w.canvas, c', _, _, hs, rfl, hplot, drawn, marks, left, fresh, hr, hperm, hfresh, hdrawn,
    fun n hn => ?_⟩
  obtain ⟨p, hp, hactive, -⟩ := hleft n hn
  exact ⟨p, hp, hactive⟩

end Graphing.Session
