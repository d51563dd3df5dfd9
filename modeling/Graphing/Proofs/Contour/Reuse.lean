/-
  Graphing.Proofs.Contour.Reuse

  A tracer has no memory.

  The callbacks of a call are programs that may call the tracer again: the
  function, while it is sampled, and the consumer of the path.  The tracer is
  busy then, so each such call is refused and leaves it as it is.  Between the
  calls a tracer keeps its cells, but what a trace finds is told by the request
  and the options alone (`Tracer.passes_found`).
-/
import Graphing.Proofs.Contour.Exact
import Graphing.Proofs.Contour.Findings
import Mathlib.Data.Rat.Floor

namespace Graphing.Contour

variable {α β γ : Type}

/-! ## Programs that call a tracer -/

/-- A program that may call a tracer: it answers, or makes a call and goes on with the outcome. -/
inductive Use (α β γ : Type) where
  | answer (a : γ)
  | call (request : TraceRequest α β)
      (consumer : Option (Tracer α β → List (PathPoint α) → Except (TraceFault α) Unit))
      (next : Except (TraceFault α) (List (List (Point α))) → Use α β γ)

/-- One call of a tracer, whose callbacks may call it again. -/
structure Call (α β : Type) where
  onMany : List (Point α) → Use α β (Option (List β))
  onPoint : Point α → Use α β (Option β)
  domain : Domain α
  resolution : Int × Int := (600, 600)
  fast : Bool := false
  finish : Option (List (PathPoint α) → Use α β (Except (TraceFault α) Unit)) := none

namespace Use

/-- The answer of a program, if all its calls are refused. -/
def refused : Use α β γ → γ
  | .answer a => a
  | .call _ _ next => (next (.error .busy)).refused

/-- The second program is the first one without some of its calls: where such a call is refused, the
first program swallows the fault and goes on as the second one. -/
inductive Drops : Use α β γ → Use α β γ → Prop where
  | answer (a : γ) : Drops (.answer a) (.answer a)
  | keep {request consumer next next'} (h : ∀ outcome, Drops (next outcome) (next' outcome)) :
      Drops (.call request consumer next) (.call request consumer next')
  | drop {request consumer next rest} (h : Drops (next (.error .busy)) rest) :
      Drops (.call request consumer next) rest

theorem Drops.refused_eq {a b : Use α β γ} (h : a.Drops b) : a.refused = b.refused := by
  induction h with
  | answer a => rfl
  | keep _ ih => exact ih (.error .busy)
  | drop _ ih => exact ih

end Use

/-- The second call is the first one without some of the calls that its callbacks make. -/
structure Call.Drops (call call' : Call α β) : Prop where
  domain : call.domain = call'.domain
  resolution : call.resolution = call'.resolution
  fast : call.fast = call'.fast
  onMany : ∀ ps, (call.onMany ps).Drops (call'.onMany ps)
  onPoint : ∀ p, (call.onPoint p).Drops (call'.onPoint p)
  finish : Option.Rel (fun a b => ∀ path, (a path).Drops (b path)) call.finish call'.finish

/-! ## Calls and their outcomes -/

variable [Coordinate α] [Reading β α]

/-- Run a program with a tracer. -/
def Use.run : Use α β γ → Tracer α β → γ × Tracer α β
  | .answer a, t => (a, t)
  | .call request consumer next, t =>
    (next (t.trace request consumer).1).run (t.trace request consumer).2

/-- What a call requests, if its callbacks find the given tracer. -/
def Call.request (call : Call α β) (running : Tracer α β) : TraceRequest α β where
  function := ⟨fun ps => ((call.onMany ps).run running).1, fun p => ((call.onPoint p).run running).1⟩
  domain := call.domain
  resolution := call.resolution
  fast := call.fast

/-- The consumer of the path of a call. -/
def Call.consumer (call : Call α β) :
    Option (Tracer α β → List (PathPoint α) → Except (TraceFault α) Unit) :=
  call.finish.map fun finish running path => ((finish path).run running).1

namespace Tracer

/-- The tracer as the callbacks of a call find it. -/
def running (t : Tracer α β) : Tracer α β := { t with isBusy := true }

/-- Make a call. -/
def perform (t : Tracer α β) (call : Call α β) :
    Except (TraceFault α) (List (List (Point α))) × Tracer α β :=
  t.trace (call.request t.running) call.consumer

/-- The tracer after some calls. -/
def after (t : Tracer α β) (calls : List (Call α β)) : Tracer α β :=
  calls.foldl (fun t call => (t.perform call).2) t

/-- The path that a call hands to its consumer, if it comes to that. -/
def handed? (t : Tracer α β) (call : Call α β) : Option (List (PathPoint α)) :=
  match call.finish, (t.trace (call.request t.running) none).1 with
  | some _, .ok lines => some (flatten lines)
  | _, _ => none

end Tracer

/-! ## Busy tracers -/

/-- A busy tracer refuses all calls of a program, and stays as it is. -/
theorem Use.run_of_isBusy (a : Use α β γ) {t : Tracer α β} (h : t.isBusy = true) :
    a.run t = (a.refused, t) := by
  induction a with
  | answer a => rfl
  | call request consumer next ih => rw [run, Tracer.trace_of_isBusy h, ih, refused]

/-- All that a busy tracer tells the function of a call is that it is busy. -/
theorem Call.request_of_isBusy (call : Call α β) {running : Tracer α β}
    (h : running.isBusy = true) :
    call.request running =
      { function := ⟨fun ps => (call.onMany ps).refused, fun p => (call.onPoint p).refused⟩
        domain := call.domain
        resolution := call.resolution
        fast := call.fast } := by
  simp only [request, Use.run_of_isBusy _ h]

namespace Tracer

/-- The consumer sees the path of what the trace would give without it, and can only turn that into
a failure. -/
theorem trace_some (t : Tracer α β) (r : TraceRequest α β)
    (consume : Tracer α β → List (PathPoint α) → Except (TraceFault α) Unit) :
    ∃ running : Tracer α β, running.isBusy = true ∧
      t.trace r (some consume) =
        ((t.trace r none).1.bind fun lines => (consume running (flatten lines)).map fun _ => lines,
          (t.trace r none).2) := by
  unfold trace
  split
  · exact ⟨t.running, rfl, rfl⟩
  · split
    · exact ⟨t.running, rfl, rfl⟩
    · split
      · exact ⟨t.running, rfl, rfl⟩
      · rename_i columns rows _
        dsimp only
        split
        · exact ⟨t.running, rfl, rfl⟩
        · refine ⟨{ t with raster := ⟨columns, rows, (t.passes r columns rows).cells⟩,
                           isBusy := true }, rfl, ?_⟩
          dsimp only [Except.bind]
          cases consume _ _ <;> rfl

/-- A trace leaves a tracer that is as busy as before. -/
theorem isBusy_trace (t : Tracer α β) (r : TraceRequest α β)
    (consumer : Option (Tracer α β → List (PathPoint α) → Except (TraceFault α) Unit)) :
    (t.trace r consumer).2.isBusy = t.isBusy := by
  have hnone : (t.trace r none).2.isBusy = t.isBusy := by
    unfold trace
    split
    · rfl
    · split
      · rfl
      · split
        · rfl
        · dsimp only
          split <;> rfl
  cases consumer with
  | none => exact hnone
  | some consume =>
    obtain ⟨running, -, h⟩ := t.trace_some r consume
    rw [h, hnone]

/-- The path that a call hands over is what its consumer hears: the outcome is that of the call
without a consumer, unless the consumer refuses this path. -/
theorem perform_eq_of_handed? (t : Tracer α β) {call : Call α β}
    {finish : List (PathPoint α) → Use α β (Except (TraceFault α) Unit)}
    (hfinish : call.finish = some finish) :
    (t.perform call).1 =
      match t.handed? call with
      | some path => (t.perform { call with finish := none }).1.bind fun lines =>
          (finish path).refused.map fun _ => lines
      | none => (t.perform { call with finish := none }).1 := by
  obtain ⟨running, hbusy, h⟩ := t.trace_some (call.request t.running)
    fun running path => ((finish path).run running).1
  have hwithout : t.perform { call with finish := none } =
      t.trace (call.request t.running) none := rfl
  rw [hwithout, handed?, hfinish, perform, Call.consumer, hfinish, Option.map_some, h]
  cases (t.trace (call.request t.running) none).1 with
  | error e => rfl
  | ok lines => simp only [Except.bind, Use.run_of_isBusy _ hbusy]

/-! ## Histories -/

/-- The outcome of a trace is told by the options of an idle tracer, whatever cells it has kept. -/
theorem trace_none_congr {t t' : Tracer α β} (hoptions : t.options = t'.options)
    (hidle : t.isBusy = false) (hidle' : t'.isBusy = false) (r : TraceRequest α β) :
    (t.trace r none).1 = (t'.trace r none).1 := by
  have hshape : t.gridShape r.resolution r.fast = t'.gridShape r.resolution r.fast := by
    rw [gridShape, gridShape, hoptions]
  unfold trace
  rw [hidle, hidle', hshape, hoptions]
  split
  · rfl
  · split
    · rfl
    · split
      · rfl
      · dsimp only
        rw [passes_found, passes_found, hoptions]
        split <;> rfl

theorem perform_congr {t t' : Tracer α β} (hoptions : t.options = t'.options)
    (hidle : t.isBusy = false) (hidle' : t'.isBusy = false) (call : Call α β) :
    (t.perform call).1 = (t'.perform call).1 ∧ t.handed? call = t'.handed? call := by
  have hrequest : call.request t.running = call.request t'.running := by
    rw [call.request_of_isBusy rfl, call.request_of_isBusy rfl]
  have htrace := trace_none_congr hoptions hidle hidle' (call.request t'.running)
  constructor
  · rw [perform, perform, hrequest, Call.consumer]
    cases call.finish with
    | none => exact htrace
    | some finish =>
      dsimp only [Option.map_some]
      obtain ⟨running, hbusy, h⟩ := t.trace_some (call.request t'.running)
        fun running path => ((finish path).run running).1
      obtain ⟨running', hbusy', h'⟩ := t'.trace_some (call.request t'.running)
        fun running path => ((finish path).run running).1
      simp only [h, h', htrace, Use.run_of_isBusy _ hbusy, Use.run_of_isBusy _ hbusy']
  · rw [handed?, handed?, hrequest, htrace]

/-- Calls leave the options as they are, and an idle tracer idle. -/
theorem options_isBusy_after (t : Tracer α β) (calls : List (Call α β)) :
    (t.after calls).options = t.options ∧ (t.after calls).isBusy = t.isBusy := by
  induction calls generalizing t with
  | nil => exact ⟨rfl, rfl⟩
  | cons call calls ih =>
    obtain ⟨hoptions, hbusy⟩ := ih (t.perform call).2
    exact ⟨hoptions.trans (options_trace ..), hbusy.trans (isBusy_trace ..)⟩

omit [Coordinate α] [Reading β α] in
theorem isBusy_of_ofOptions? {o : TracerOptions α} {t : Tracer α β} (h : ofOptions? o = .ok t) :
    t.isBusy = false := by
  unfold ofOptions? at h
  split at h
  · cases h
  · split at h <;> cases h
    rfl

/-! ## Swallowed refusals -/

/-- A call has the same outcome, and leaves the same tracer, without the calls of its callbacks that
are swallowed. -/
theorem perform_of_drops (t : Tracer α β) {call call' : Call α β} (h : call.Drops call') :
    t.perform call = t.perform call' := by
  have hrequest : call.request t.running = call'.request t.running := by
    rw [call.request_of_isBusy rfl, call'.request_of_isBusy rfl, h.domain, h.resolution, h.fast]
    simp only [fun ps => (h.onMany ps).refused_eq, fun p => (h.onPoint p).refused_eq]
  have hfinish := h.finish
  rw [perform, perform, hrequest, Call.consumer, Call.consumer]
  generalize call.finish = finish, call'.finish = finish' at hfinish
  cases hfinish with
  | none => rfl
  | @some a b hab =>
    dsimp only [Option.map_some]
    obtain ⟨running, hbusy, hrun⟩ := t.trace_some (call'.request t.running)
      fun running path => ((a path).run running).1
    obtain ⟨running', hbusy', hrun'⟩ := t.trace_some (call'.request t.running)
      fun running path => ((b path).run running).1
    simp only [hrun, hrun', Use.run_of_isBusy _ hbusy, Use.run_of_isBusy _ hbusy',
      fun path => (hab path).refused_eq]

/-! ## The main result -/

/-- A tracer has no memory.  After any calls the next one has the outcome, and hands over the path,
that it has with a tracer that was built anew; a busy tracer refuses and stays as it is, and a call
whose callbacks swallow such refusals is the same as without them. -/
theorem perform_after {o : TracerOptions α} {new : Tracer α β} (hnew : ofOptions? o = .ok new)
    (calls : List (Call α β)) (call : Call α β) :
    ((new.after calls).perform call).1 = (new.perform call).1 ∧
    (new.after calls).handed? call = new.handed? call ∧
    (∀ busy : Tracer α β, busy.isBusy = true → ∀ request consumer,
      busy.trace request consumer = (.error .busy, busy)) ∧
    ∀ call', call.Drops call' → (new.after calls).perform call = (new.after calls).perform call' := by
  have hidle := isBusy_of_ofOptions? hnew
  obtain ⟨hoptions, hbusy⟩ := new.options_isBusy_after calls
  obtain ⟨houtcome, hpath⟩ := perform_congr hoptions (hbusy.trans hidle) hidle call
  exact ⟨houtcome, hpath, fun busy h => trace_of_isBusy h,
    fun call' h => (new.after calls).perform_of_drops h⟩

/-- Calls that fail in four ways, two of them by their consumer, before one that traces a line. -/
theorem perform_after_failures :
    let new : Tracer ℚ (Option ℚ) := ⟨{ tolerance := 1 / 100, fastGrid := 1 }, ⟨0, 0, #[]⟩, false⟩
    let line : Call ℚ (Option ℚ) :=
      { onMany := fun ps => .answer (some (ps.map fun p => some (p.x - 1 / 3)))
        onPoint := fun p => .answer (some (some (p.x - 1 / 3)))
        domain := ⟨0, 1, 0, 1⟩
        fast := true
        finish := some fun _ => .answer (.ok ()) }
    let again (goOn : Except (TraceFault ℚ) (List (List (Point ℚ))) → Except (TraceFault ℚ) Unit) :
        Call ℚ (Option ℚ) :=
      { line with
        finish := some fun _ => .call (line.request new) none fun outcome => .answer (goOn outcome) }
    let calls :=
      [{ line with domain := ⟨1, 0, 0, 1⟩ }, { line with resolution := (0, 5), fast := false },
        again (·.map fun _ => ()), { line with finish := some fun _ => .answer (.error .refused) }]
    ((new.after calls).perform line).1 = (new.perform line).1 ∧
      (new.after calls).handed? line = new.handed? line ∧
      (new.after calls).perform (again fun _ => .ok ()) = (new.after calls).perform line := by
  intro new line again calls
  have hnew : ofOptions? new.options = .ok new := rfl
  obtain ⟨houtcome, hpath, -, -⟩ := perform_after hnew calls line
  obtain ⟨-, -, -, hdrops⟩ := perform_after hnew calls (again fun _ => .ok ())
  refine ⟨houtcome, hpath, hdrops line ⟨rfl, rfl, rfl, ?_, ?_, ?_⟩⟩
  · exact fun ps => .answer _
  · exact fun p => .answer _
  · exact .some fun path => .drop (.answer _)

end Tracer
end Graphing.Contour
