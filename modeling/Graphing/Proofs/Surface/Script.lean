/-
  Graphing.Proofs.Surface.Script

  Scripts of actions on a surface, with and without suspensions.

  An action makes, changes, shows or removes a handle, or changes the bounds.
  It `Sets` a handle if it changes what the handle would show without showing
  it, and `Pushes` the handle if it shows it, or puts it into the queue.  A
  script whose actions stand between suspensions and their ends, properly
  nested, is `Bracketed`.
-/
import Graphing.Proofs.Surface.Suspended

namespace Graphing

/-! ## Setters -/

/-- Changes of a handle that show nothing. A setter that does not fit the kind of a handle changes
nothing. -/
inductive Setter where
  | configureCurve (settings : CurveSettings)
  | configureMarker (settings : MarkerSettings)
  | configureSegment (settings : SegmentSettings)
  | setData (xs ys : List Float)
  | setSource (source : LazySource)
  | movePoint (coords : Float × Float)
  | moveStart (start : Float × Float)
  | moveFinish (finish : Float × Float)

/-- What a setter does to a handle. -/
def Setter.apply : Setter → Handle → Handle
  | .configureCurve s => Handle.mapCurve fun c => c.configure s
  | .configureMarker s => Handle.mapMarker fun m => m.configure s
  | .configureSegment s => Handle.mapSegment fun g => g.configure s
  | .setData xs ys => Handle.mapCurve fun c => c.setData xs ys
  | .setSource source => Handle.mapCurve fun c => c.setSource source
  | .movePoint coords => Handle.mapMarker fun m => { m with coords }
  | .moveStart start => Handle.mapSegment fun g => { g with start }
  | .moveFinish finish => Handle.mapSegment fun g => { g with finish }

/-- A change that leaves a handle its trace and its kind, and does not remove it. -/
def Handle.Gentle (f : Handle → Handle) : Prop :=
  ∀ h, (f h).trace = h.trace ∧ (f h).removed = h.removed ∧ h.shape.SameKind (f h).shape

namespace Handle.Gentle

theorem mapCurve (f : Curve → Curve) : Gentle (Handle.mapCurve f) := by
  intro h
  unfold Handle.mapCurve
  split
  · rename_i c hc
    exact ⟨rfl, rfl, by rw [hc]; exact trivial⟩
  · exact ⟨rfl, rfl, .refl _⟩

theorem mapMarker (f : Marker → Marker) : Gentle (Handle.mapMarker f) := by
  intro h
  unfold Handle.mapMarker
  split
  · rename_i m hm
    exact ⟨rfl, rfl, by rw [hm]; exact trivial⟩
  · exact ⟨rfl, rfl, .refl _⟩

theorem mapSegment (f : Segment → Segment) : Gentle (Handle.mapSegment f) := by
  intro h
  unfold Handle.mapSegment
  split
  · rename_i g hg
    exact ⟨rfl, rfl, by rw [hg]; exact trivial⟩
  · exact ⟨rfl, rfl, .refl _⟩

theorem visible (b : Bool) : Gentle fun h => { h with visible := b } :=
  fun _ => ⟨rfl, rfl, .refl _⟩

theorem setter (f : Setter) : Gentle f.apply := by
  cases f with
  | configureCurve | setData | setSource => exact mapCurve _
  | configureMarker | movePoint => exact mapMarker _
  | configureSegment | moveStart | moveFinish => exact mapSegment _

end Handle.Gentle

/-- A change that does not make a handle visible or invisible. -/
def Handle.KeepsVisible (f : Handle → Handle) : Prop := ∀ h, (f h).visible = h.visible

namespace Handle.KeepsVisible

theorem mapCurve (f : Curve → Curve) : KeepsVisible (Handle.mapCurve f) := by
  intro h
  unfold Handle.mapCurve
  split <;> rfl

theorem mapMarker (f : Marker → Marker) : KeepsVisible (Handle.mapMarker f) := by
  intro h
  unfold Handle.mapMarker
  split <;> rfl

theorem mapSegment (f : Segment → Segment) : KeepsVisible (Handle.mapSegment f) := by
  intro h
  unfold Handle.mapSegment
  split <;> rfl

theorem setter (f : Setter) : KeepsVisible f.apply := by
  cases f with
  | configureCurve | setData | setSource => exact mapCurve _
  | configureMarker | movePoint => exact mapMarker _
  | configureSegment | moveStart | moveFinish => exact mapSegment _

end Handle.KeepsVisible

/-! ## Actions -/

/-- What can be done with a surface, beside suspending its updates. -/
inductive Action where
  | createCurve (settings : Readout CurveSettings)
  | createMarker (coords : List Float) (settings : Readout MarkerSettings)
  | createSegment (start finish : List Float) (settings : Readout SegmentSettings)
  | set (n : HandleId) (f : Setter)
  | update (n : HandleId)
  | unhide (n : HandleId)
  | hide (n : HandleId)
  | updateCurve (n : HandleId)
  | remove (n : HandleId)
  | setBounds (d : Contour.Domain Float)

/-- The surface after an action. One that fails keeps what it did before. -/
def Action.run (s : Surface) : Action → Surface
  | .createCurve r => (s.createCurve r).2
  | .createMarker coords r => (s.createMarker coords r).2
  | .createSegment start finish r => (s.createSegment start finish r).2
  | .set n f => s.modify n f.apply
  | .update n => s.update n
  | .unhide n => s.unhide n
  | .hide n => s.hide n
  | .updateCurve n => (s.updateCurve n).2
  | .remove n => s.remove n
  | .setBounds d => (s.setBounds d).2

namespace Surface

variable {s : Surface} {n : HandleId}

/-- The curves that are sampled anew and shown, when several are to be. -/
def resampled : List HandleId → Surface → List HandleId
  | [], _ => []
  | n :: ns, s =>
    match s.updateCurve n with
    | (.ok _, s) => n :: resampled ns s
    | (.error _, _) => []

/-- Whether a lazy curve has coordinates along the first axis, but none along the second. Sampling it
replaces the former, and then fails. -/
def splits (s : Surface) (n : HandleId) : Bool :=
  (((s.handle? n).bind (·.curve?)).bind (·.source)).any fun source =>
    let samples := s.pixelSamples source.axis
    (source.xOf samples).isSome && (source.yOf samples).isNone

/-- The curve that is left half sampled, when several are to be sampled. -/
def halfSampled? : List HandleId → Surface → Option HandleId
  | [], _ => none
  | n :: ns, s =>
    match s.updateCurve n with
    | (.ok _, s) => halfSampled? ns s
    | (.error _, _) => if s.splits n then some n else none

/-- A surface on which the bounds are being changed. -/
def rebounded (s : Surface) (d : Contour.Domain Float) : Surface := { s.suspend with bounds := d }

end Surface

/-- An action shows a handle, or puts it into the queue. -/
def Action.Pushes (s : Surface) (n : HandleId) : Action → Prop
  | .createMarker coords r => (s.createMarker coords r).1 = .ok n
  | .createSegment start finish r => (s.createSegment start finish r).1 = .ok n
  | .update m | .unhide m | .hide m => m = n ∧ m < s.handles.size
  | .updateCurve m => m = n ∧ m < s.handles.size ∧ (s.updateCurve m).1 = .ok ()
  | .setBounds d =>
    d.isProper = true ∧ n ∈ Surface.resampled (s.rebounded d).lazyCurves (s.rebounded d)
  | .createCurve _ | .set _ _ | .remove _ => False

/-- An action changes a handle, and does not show it. Sampling counts if it fails half way, since it
leaves new coordinates along one axis behind. -/
def Action.Sets (s : Surface) (n : HandleId) : Action → Prop
  | .set m _ => m = n
  | .updateCurve m => m = n ∧ s.splits m = true
  | .setBounds d =>
    d.isProper = true ∧ Surface.halfSampled? (s.rebounded d).lazyCurves (s.rebounded d) = some n
  | .createCurve _ | .createMarker _ _ | .createSegment _ _ _ | .update _ | .unhide _ | .hide _
  | .remove _ => False

namespace Surface

/-- Some action of a script pushes a handle. -/
def PushedBy (s : Surface) : List Action → HandleId → Prop
  | [], _ => False
  | a :: script, n => a.Pushes s n ∨ PushedBy (a.run s) script n

/-- Some action of a script sets a handle, and none pushes it afterwards. -/
def LeftSet (s : Surface) : List Action → HandleId → Prop
  | [], _ => False
  | a :: script, n =>
    a.Sets s n ∧ ¬PushedBy (a.run s) script n ∨ LeftSet (a.run s) script n

/-- No handle is set after its last push. A handle that is never pushed may be set at will. -/
def PushedLast (s : Surface) (script : List Action) : Prop :=
  ∀ n, ¬(s.PushedBy script n ∧ s.LeftSet script n)

theorem pushedBy_append (s : Surface) (script script' : List Action) (n : HandleId) :
    s.PushedBy (script ++ script') n ↔
      s.PushedBy script n ∨ (script.foldl Action.run s).PushedBy script' n := by
  induction script generalizing s with
  | nil => exact (false_or _).symm.to_iff
  | cons a script ih =>
    rw [List.cons_append, PushedBy, PushedBy, ih, List.foldl_cons, or_assoc]

theorem leftSet_append (s : Surface) (script script' : List Action) (n : HandleId) :
    s.LeftSet (script ++ script') n ↔
      s.LeftSet script n ∧ ¬(script.foldl Action.run s).PushedBy script' n ∨
        (script.foldl Action.run s).LeftSet script' n := by
  induction script generalizing s with
  | nil => simp [LeftSet]
  | cons a script ih =>
    rw [List.cons_append, LeftSet, LeftSet, ih, pushedBy_append, List.foldl_cons]
    -- only the order of the cases differs
    tauto

end Surface

/-! ## Brackets -/

/-- An action, or the beginning or the end of a suspension. A suspension ends in the same way when
what it holds fails. -/
inductive Event where
  | act (a : Action)
  | suspend
  | resume

/-- The surface after an event. -/
def Event.run (s : Surface) : Event → Surface
  | .act a => a.run s
  | .suspend => s.suspend
  | .resume => s.resume

/-- A script, and the same script with some of its parts between suspensions and their ends. -/
inductive Bracketed : List Action → List Event → Prop
  | nil : Bracketed [] []
  | act (a : Action) {script : List Action} {events : List Event} (rest : Bracketed script events) :
    Bracketed (a :: script) (.act a :: events)
  | bracket {inner script : List Action} {events events' : List Event}
    (body : Bracketed inner events) (rest : Bracketed script events') :
    Bracketed (inner ++ script) (.suspend :: (events ++ .resume :: events'))

end Graphing
