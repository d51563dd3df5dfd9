/-
  Graphing.Proofs.Evaluation.Remembering

  Remembering compiled functions changes nothing but which object is handed
  out.

  All that a call can do is listed once (`Called`).  From it comes what every
  history leaves intact (`Sound`): each remembered function was compiled for
  its key, and no two are the same object.  An object is then followed from the
  call that returned it: it is kept until its key is displaced or the workshop
  is cleared, and from then on it is gone (`kept_or_gone`).
-/
import Graphing.Evaluation.Workshop
import Graphing.Proofs.Evaluation.Compiling
import Graphing.Proofs.Evaluation.Recency

namespace Graphing

/-! ## Keys and functions -/

/-- A function has the expression, the arguments and the implementations of its key. -/
theorem CompileKey.of_build {k : CompileKey} {f : CompiledFunction} (h : k.build = .ok f) :
    f.expr = k.expr ∧ f.parameters = k.parameters ∧ f.bindings = k.bindings := by
  obtain ⟨formula, hformula, hf⟩ := Except.bind_eq_ok.mp h
  obtain ⟨program, -, hprogram⟩ := Except.bind_eq_ok.mp hformula
  cases hf
  cases hprogram
  exact ⟨rfl, rfl, rfl⟩

/-- The key of a request has its expression, and the arguments that it asks for. -/
theorem Request.of_key {r : Request} {k : CompileKey} (h : r.key = .ok k) :
    r.source.expr = .ok k.expr ∧ r.arguments.names k.expr = .ok k.parameters := by
  obtain ⟨x, hx, h⟩ := Except.bind_eq_ok.mp h
  obtain ⟨names, hnames, h⟩ := Except.bind_eq_ok.mp h
  obtain ⟨-, -, h⟩ := Except.bind_eq_ok.mp h
  obtain ⟨bindings, -, h⟩ := Except.bind_eq_ok.mp h
  cases h
  exact ⟨hx, hnames⟩

namespace Workshop

/-! ## Calls -/

/-- The request that a call makes. -/
def Call.request : Call → Except RequestError Request
  | .numpify r _ => .ok r
  | .expression s names => .ok (.withPackage s names)
  | .text t names =>
    match Notation.parse t with
    | .error e => .error (.parse e)
    | .ok x => .ok (.withPackage (.formula x) names)

/-- Whether a call may be answered from the memory. -/
def Call.isCached : Call → Bool
  | .numpify _ cache => cache
  | _ => true

/-- The key of a call. -/
def Call.key (c : Call) : Except RequestError CompileKey := do
  (← c.request).key

/-- What the same call comes to without any memory. -/
def Call.compiled (c : Call) : Except RequestError CompiledFunction := do
  (← c.key).build.mapError .compile

/-- The key that a call uses: that of a call that succeeds and may be answered from the memory. -/
def Call.use? (c : Call) : Option CompileKey :=
  match c.key with
  | .ok k => if c.isCached && k.bindings.isHashable && k.build.isOk then some k else none
  | .error _ => none

/-- All that a call can come to: the answer, and the workshop after it. -/
inductive Called (w : Workshop) (c : Call) :
    Except RequestError FunctionObject → Workshop → Prop
  /-- The request has no key. -/
  | refused {e : RequestError} (key : c.key = .error e) : Called w c (.error e) w
  /-- The memory is asked for what cannot be part of a key. -/
  | unhashable {k : CompileKey} (key : c.key = .ok k) (cached : c.isCached = true)
      (hashable : k.bindings.isHashable = false) : Called w c (.error .unhashable) w
  /-- A function is compiled without the memory. -/
  | made {k : CompileKey} {f : CompiledFunction} (key : c.key = .ok k)
      (cached : c.isCached = false) (build : k.build = .ok f) :
      Called w c (.ok (w.nextSerial, f)) { w with nextSerial := w.nextSerial + 1 }
  /-- No function can be compiled, without the memory. -/
  | unmade {k : CompileKey} {e : CompileError} (key : c.key = .ok k)
      (cached : c.isCached = false) (build : k.build = .error e) :
      Called w c (.error (.compile e)) w
  /-- A function is remembered. -/
  | found {k : CompileKey} {r : FunctionObject} (key : c.key = .ok k)
      (cached : c.isCached = true) (hashable : k.bindings.isHashable = true)
      (found : w.memo.find? k = some r) :
      Called w c (.ok r) { w with memo := w.memo.touch k r }
  /-- A function is compiled and remembered. -/
  | stored {k : CompileKey} {f : CompiledFunction} (key : c.key = .ok k)
      (cached : c.isCached = true) (hashable : k.bindings.isHashable = true)
      (found : w.memo.find? k = none) (build : k.build = .ok f) :
      Called w c (.ok (w.nextSerial, f))
        { memo := w.memo.miss.insert k (w.nextSerial, f), nextSerial := w.nextSerial + 1 }
  /-- No function is remembered, and none can be compiled. -/
  | missed {k : CompileKey} {e : CompileError} (key : c.key = .ok k)
      (cached : c.isCached = true) (hashable : k.bindings.isHashable = true)
      (found : w.memo.find? k = none) (build : k.build = .error e) :
      Called w c (.error (.compile e)) { w with memo := w.memo.miss }

variable {w : Workshop} {c : Call} {k : CompileKey} {r : FunctionObject}

/-- Every call is the call for its request. -/
theorem call_eq (w : Workshop) (c : Call) :
    w.call c = match c.request with
      | .error e => (.error e, w)
      | .ok r => w.numpify r c.isCached := by
  cases c with
  | numpify r cache => rfl
  | expression s names => rfl
  | text t names =>
    unfold call compileText Call.request
    dsimp only
    cases Notation.parse t <;> rfl

theorem called (w : Workshop) (c : Call) : Called w c (w.call c).1 (w.call c).2 := by
  rw [call_eq]
  -- one constructor for each way through, in the order of the tests
  cases hrequest : c.request with
  | error e => exact .refused (by rw [Call.key, hrequest]; rfl)
  | ok r =>
    have hcall : c.key = r.key := by
      rw [Call.key, hrequest]
      rfl
    dsimp only
    unfold numpify
    cases hkey : r.key with
    | error e => exact .refused (hcall.trans hkey)
    | ok k =>
      have hk := hcall.trans hkey
      dsimp only
      cases hcached : c.isCached with
      | false =>
        rw [if_neg Bool.false_ne_true]
        unfold built
        cases hbuild : k.build with
        | error e => exact .unmade hk hcached hbuild
        | ok f => exact .made hk hcached hbuild
      | true =>
        rw [if_pos rfl]
        cases hhash : k.bindings.isHashable with
        | false => exact .unhashable hk hcached hhash
        | true =>
          rw [if_pos rfl]
          unfold remembered built Memo.get
          cases hfind : w.memo.find? k with
          | some q =>
            cases k.build <;> exact .found hk hcached hhash hfind
          | none =>
            cases hbuild : k.build with
            | error e => exact .missed hk hcached hhash hfind hbuild
            | ok f => exact .stored hk hcached hhash hfind hbuild

/-! ## Sound workshops -/

/-- What every history leaves intact: each remembered function is compiled for its key, and is an
object of its own. -/
structure Sound (w : Workshop) : Prop where
  capacity : w.memo.capacity = Workshop.capacity
  memo : w.memo.Sound
  serial_lt : ∀ e ∈ w.memo.entries, e.2.1 < w.nextSerial
  serial_inj : ∀ e ∈ w.memo.entries, ∀ e' ∈ w.memo.entries, e.2.1 = e'.2.1 → e = e'
  built : ∀ e ∈ w.memo.entries, e.1.build = .ok e.2.2

theorem sound_empty : empty.Sound where
  capacity := rfl
  memo := Memo.sound_empty _
  serial_lt := nofun
  serial_inj := nofun
  built := nofun

/-- Entries that were there before are as sound as before. -/
theorem Sound.of_subset (h : w.Sound) {w' : Workshop} (hmemo : w'.memo.Sound)
    (hcapacity : w'.memo.capacity = w.memo.capacity) (hserial : w.nextSerial ≤ w'.nextSerial)
    (hsubset : ∀ e ∈ w'.memo.entries, e ∈ w.memo.entries) : w'.Sound where
  capacity := hcapacity.trans h.capacity
  memo := hmemo
  serial_lt e he := (h.serial_lt e (hsubset e he)).trans_le hserial
  serial_inj e he e' he' := h.serial_inj e (hsubset e he) e' (hsubset e' he')
  built e he := h.built e (hsubset e he)

theorem mem_of_mem_touch {e : CompileKey × FunctionObject} (hfind : w.memo.find? k = some r)
    (he : e ∈ (w.memo.touch k r).entries) : e ∈ w.memo.entries := by
  rcases List.mem_cons.mp he with rfl | he
  · exact Memo.mem_of_find? hfind
  · exact List.mem_of_mem_filter he

theorem mem_of_mem_insert {e : CompileKey × FunctionObject}
    (he : e ∈ (w.memo.miss.insert k r).entries) : e = (k, r) ∨ e ∈ w.memo.entries :=
  List.mem_cons.mp ((List.take_subset _ _) he)

theorem Sound.of_called (h : w.Sound) {a : Except RequestError FunctionObject} {w' : Workshop}
    (hc : Called w c a w') : w'.Sound := by
  cases hc with
  | refused => exact h
  | unhashable => exact h
  | unmade => exact h
  | made => exact h.of_subset h.memo rfl (Nat.le_succ _) fun _ => id
  | missed => exact h.of_subset h.memo.miss rfl le_rfl fun _ => id
  | found key cached hashable found =>
    exact h.of_subset (h.memo.touch found) rfl le_rfl fun _ => mem_of_mem_touch found
  | @stored k f key cached hashable found build =>
    refine ⟨h.capacity, h.memo.miss.insert found, fun e he => ?_, fun e he e' he' heq => ?_,
      fun e he => ?_⟩
    · rcases mem_of_mem_insert he with rfl | he
      · exact Nat.lt_succ_self _
      · exact (h.serial_lt e he).trans (Nat.lt_succ_self _)
    · -- the new object has a number that no other one has
      rcases mem_of_mem_insert he with rfl | he <;> rcases mem_of_mem_insert he' with rfl | he'
      · rfl
      · exact absurd heq.symm (h.serial_lt e' he').ne
      · exact absurd heq (h.serial_lt e he).ne
      · exact h.serial_inj e he e' he' heq
    · rcases mem_of_mem_insert he with rfl | he
      · exact build
      · exact h.built e he

theorem Sound.perform (h : w.Sound) (d : Command) : (w.perform d).Sound := by
  cases d with
  | call c => exact h.of_called (called w c)
  | clear => exact h.of_subset (Memo.sound_empty _) rfl le_rfl nofun

theorem Sound.foldl (h : w.Sound) (history : List Command) :
    (history.foldl Workshop.perform w).Sound := by
  induction history generalizing w with
  | nil => exact h
  | cons d history ih => exact ih (h.perform d)

theorem sound_after (history : List Command) : (after history).Sound :=
  sound_empty.foldl history

theorem after_append (before between : List Command) :
    after (before ++ between) = between.foldl perform (after before) :=
  List.foldl_append

/-! ## Uses -/

/-- The key that a command uses. -/
def Command.use? : Command → Option CompileKey
  | .call c => c.use?
  | .clear => none

/-- The keys that are used in a history. -/
def uses (history : List Command) : List CompileKey := history.filterMap Command.use?

variable {a : Except RequestError FunctionObject} {w' : Workshop}

theorem use?_eq_some {f : CompiledFunction} (key : c.key = .ok k) (cached : c.isCached = true)
    (hashable : k.bindings.isHashable = true) (build : k.build = .ok f) : c.use? = some k := by
  unfold Call.use?
  rw [key]
  dsimp only
  rw [cached, hashable, build]
  rfl

theorem use?_eq_none (key : c.key = .ok k)
    (h : c.isCached = false ∨ k.bindings.isHashable = false ∨ ∃ e, k.build = .error e) :
    c.use? = none := by
  unfold Call.use?
  rw [key]
  dsimp only
  rcases h with h | h | ⟨e, h⟩
  · rw [h]
    rfl
  · rw [h, Bool.and_false]
    rfl
  · rw [h]
    exact if_neg (by simp [Except.isOk, Except.toBool])

/-- What a call does to the memory: nothing but count unless it uses a key, which is then touched or
new. -/
theorem Called.memo_eq (hc : Called w c a w') (h : w.Sound) :
    (c.use? = none ∧ w'.memo.entries = w.memo.entries) ∨
      (∃ u q, c.use? = some u ∧ w.memo.find? u = some q ∧ w'.memo = w.memo.touch u q) ∨
      ∃ u f, c.use? = some u ∧ w.memo.find? u = none ∧
        w'.memo = w.memo.miss.insert u (w.nextSerial, f) := by
  cases hc with
  | refused key =>
    refine .inl ⟨?_, rfl⟩
    unfold Call.use?
    rw [key]
  | unhashable key cached hashable => exact .inl ⟨use?_eq_none key (.inr (.inl hashable)), rfl⟩
  | made key cached => exact .inl ⟨use?_eq_none key (.inl cached), rfl⟩
  | unmade key cached => exact .inl ⟨use?_eq_none key (.inl cached), rfl⟩
  | missed key cached hashable found build =>
    exact .inl ⟨use?_eq_none key (.inr (.inr ⟨_, build⟩)), rfl⟩
  | found key cached hashable found =>
    have build := h.built _ (Memo.mem_of_find? found)
    exact .inr (.inl ⟨_, _, use?_eq_some key cached hashable build, found, rfl⟩)
  | stored key cached hashable found build =>
    exact .inr (.inr ⟨_, _, use?_eq_some key cached hashable build, found, rfl⟩)

/-! ## Objects -/

/-- An object that is not remembered, and never will be. -/
structure Gone (w : Workshop) (n : Nat) : Prop where
  serial_lt : n < w.nextSerial
  ne_serial : ∀ e ∈ w.memo.entries, e.2.1 ≠ n

theorem Called.nextSerial_le (hc : Called w c a w') : w.nextSerial ≤ w'.nextSerial := by
  cases hc <;> first | exact le_rfl | exact Nat.le_succ _

theorem Gone.of_called {n : Nat} (hgone : w.Gone n) (h : w.Sound) (hc : Called w c a w') :
    w'.Gone n := by
  refine ⟨hgone.serial_lt.trans_le hc.nextSerial_le, fun e he => ?_⟩
  rcases hc.memo_eq h with ⟨-, hentries⟩ | ⟨u, q, -, hfind, hmemo⟩ | ⟨u, f, -, -, hmemo⟩
  · exact hgone.ne_serial e (hentries ▸ he)
  · rw [hmemo] at he
    exact hgone.ne_serial e (mem_of_mem_touch hfind he)
  · rw [hmemo] at he
    rcases mem_of_mem_insert he with rfl | he
    · exact hgone.serial_lt.ne'
    · exact hgone.ne_serial e he

theorem Gone.foldl {n : Nat} (hgone : w.Gone n) (h : w.Sound) (history : List Command) :
    (history.foldl perform w).Gone n := by
  induction history generalizing w with
  | nil => exact hgone
  | cons d history ih =>
    refine ih ?_ (h.perform d)
    cases d with
    | call c => exact hgone.of_called h (called w c)
    | clear => exact ⟨hgone.serial_lt, nofun⟩

/-- A key is lost in a history that clears the workshop or displaces it. -/
def Lost (since : List CompileKey) (k : CompileKey) (history : List Command) : Prop :=
  .clear ∈ history ∨ Memo.DisplacedSince capacity since k (uses history)

theorem lost_call {since : List CompileKey} {history : List Command} :
    Lost since k (.call c :: history) ↔
      .clear ∈ history ∨ Memo.DisplacedSince capacity since k (c.use?.toList ++ uses history) := by
  have huses : uses (.call c :: history) = c.use?.toList ++ uses history := by
    unfold uses
    rw [List.filterMap_cons]
    cases huse : c.use? <;> simp [Command.use?, huse]
  have hclear : Command.clear ∈ Command.call c :: history ↔ Command.clear ∈ history := by simp
  rw [Lost, huses, hclear]

/-- What a call does to an entry that is kept: it stays, behind the keys used since, or it is gone if
with the key of the call there are too many of these. -/
theorem Called.kept_or_gone (hc : Called w c a w') (h : w.Sound) {since : List CompileKey}
    (hkept : w.memo.Kept k r since) :
    (∃ since', w'.memo.Kept k r since' ∧
      ∀ history, Lost since k (.call c :: history) ↔ Lost since' k history) ∨
      (w'.Gone r.1 ∧ ∀ history, Lost since k (.call c :: history)) := by
  have h' := h.of_called hc
  have hlt := hkept.card_lt h.memo
  rw [h.capacity] at hlt
  rcases hc.memo_eq h with
    ⟨huse, hentries⟩ | ⟨u, q, huse, hfind, hmemo⟩ | ⟨u, f, huse, hfind, hmemo⟩
  · -- the memory is not used
    obtain ⟨newer, older, he, hsince⟩ := hkept
    refine .inl ⟨since, ⟨newer, older, hentries.trans he, hsince⟩, fun history => ?_⟩
    rw [lost_call, huse]
    rfl
  · -- an entry is found: this one comes to the front, another one comes in front of it
    by_cases hu : u = k
    · subst hu
      obtain rfl : r = q := Option.some.inj ((hkept.find? h.memo).symm.trans hfind)
      refine .inl ⟨[], hmemo ▸ Memo.kept_touch_self, fun history => ?_⟩
      rw [lost_call, huse, Option.toList_some, List.singleton_append,
        Memo.displacedSince_cons_self hlt, Lost]
    · have hkept' : w'.memo.Kept k r (since ++ [u]) := hmemo ▸ hkept.touch hu
      have hroom := hkept'.card_lt h'.memo
      rw [h'.capacity] at hroom
      refine .inl ⟨since ++ [u], hkept', fun history => ?_⟩
      rw [lost_call, huse, Option.toList_some, List.singleton_append,
        Memo.displacedSince_cons hlt hu, or_iff_right hroom.not_ge, Lost]
  · -- a new entry comes in front, and the last one goes if there is no room
    have hu : u ≠ k := by
      rintro rfl
      cases hfind.symm.trans (hkept.find? h.memo)
    have hlost (history : List Command) : Lost since k (.call c :: history) ↔
        .clear ∈ history ∨ capacity ≤ (since ++ [u]).toFinset.card ∨
          Memo.DisplacedSince capacity (since ++ [u]) k (uses history) := by
      rw [lost_call, huse, Option.toList_some, List.singleton_append,
        Memo.displacedSince_cons hlt hu]
    -- the entry goes just if the keys used since it was last used fill the memory
    by_cases hroom : (since ++ [u]).toFinset.card < w.memo.capacity
    · refine .inl ⟨since ++ [u], hmemo ▸ Memo.Kept.insert h.memo.miss hkept hfind hroom,
        fun history => ?_⟩
      rw [h.capacity] at hroom
      rw [hlost, or_iff_right hroom.not_ge, Lost]
    · have hfull : w.memo.capacity ≤ (since ++ [u]).toFinset.card := not_lt.mp hroom
      have hserial := h.serial_lt _ hkept.mem
      refine .inr ⟨⟨hserial.trans_le hc.nextSerial_le, fun e he heq => ?_⟩, fun history => ?_⟩
      · have he : e ∈ (w.memo.miss.insert u (w.nextSerial, f)).entries := hmemo ▸ he
        rcases Memo.Kept.of_mem_insert h.memo.miss hkept hfull he with rfl | ⟨he, hne⟩
        · exact hserial.ne' heq
        · exact hne (congrArg Prod.fst (h.serial_inj e he _ hkept.mem heq))
      · rw [h.capacity] at hfull
        exact (hlost history).mpr (.inr (.inl hfull))

/-- An entry that is kept is still kept after a history, or gone if the history has lost its
key. -/
theorem kept_or_gone (h : w.Sound) {since : List CompileKey} (hkept : w.memo.Kept k r since)
    (history : List Command) :
    (Lost since k history ∧ (history.foldl perform w).Gone r.1) ∨
      (¬Lost since k history ∧ ∃ since', (history.foldl perform w).memo.Kept k r since') := by
  induction history generalizing w since with
  | nil =>
    have hlt := hkept.card_lt h.memo
    rw [h.capacity] at hlt
    refine .inr ⟨?_, since, hkept⟩
    exact fun hlost => hlost.elim (by nofun) (Memo.not_displacedSince_of_no_uses hlt)
  | cons d history ih =>
    have h' := h.perform d
    cases d with
    | clear =>
      have hgone : (w.perform .clear).Gone r.1 := ⟨h.serial_lt _ hkept.mem, nofun⟩
      exact .inl ⟨.inl List.mem_cons_self, hgone.foldl h' history⟩
    | call c =>
      rcases (called w c).kept_or_gone h hkept with ⟨since', hkept', hlost⟩ | ⟨hgone, hlost⟩
      · rw [hlost]
        exact ih h' hkept'
      · exact .inl ⟨hlost history, Gone.foldl hgone h' history⟩

/-! ## Histories -/

/-- Where a call has an answer, it is the one without any memory. -/
theorem Called.ok_compiled {o : FunctionObject} (hc : Called w c (.ok o) w') (h : w.Sound) :
    c.compiled = .ok o.2 := by
  have hcompiled {k : CompileKey} (key : c.key = .ok k) (build : k.build = .ok o.2) :
      c.compiled = .ok o.2 := by
    rw [Call.compiled, key]
    exact congrArg (Except.mapError RequestError.compile) build
  cases hc with
  | made key cached build => exact hcompiled key build
  | found key cached hashable found => exact hcompiled key (h.built _ (Memo.mem_of_find? found))
  | stored key cached hashable found build => exact hcompiled key build

/-- A call that fails does so without the memory too, unless it asks the memory for what cannot be
part of a key. -/
theorem Called.error_compiled {e : RequestError} (hc : Called w c (.error e) w') :
    c.compiled = .error e ∨ (c.isCached = true ∧ e = .unhashable) := by
  have hcompiled {k : CompileKey} {e : CompileError} (key : c.key = .ok k)
      (build : k.build = .error e) : c.compiled = .error (.compile e) := by
    rw [Call.compiled, key]
    exact congrArg (Except.mapError RequestError.compile) build
  cases hc with
  | refused key =>
    refine .inl ?_
    rw [Call.compiled, key]
    rfl
  | unhashable key cached hashable => exact .inr ⟨cached, rfl⟩
  | unmade key cached build => exact .inl (hcompiled key build)
  | missed key cached hashable found build => exact .inl (hcompiled key build)

theorem Called.entries_of_error {e : RequestError} (hc : Called w c (.error e) w') :
    w'.memo.entries = w.memo.entries := by
  cases hc <;> rfl

theorem Called.memo_of_not_cached (hc : Called w c a w') (h : c.isCached = false) :
    w'.memo = w.memo := by
  cases hc with
  | refused => rfl
  | made => rfl
  | unmade => rfl
  | unhashable key cached => cases h.symm.trans cached
  | found key cached => cases h.symm.trans cached
  | stored key cached => cases h.symm.trans cached
  | missed key cached => cases h.symm.trans cached

/-- A call that has a function has it for the expression and the arguments of its request. -/
theorem Call.of_compiled {f : CompiledFunction} (h : c.compiled = .ok f) :
    ∃ r, c.request = .ok r ∧ r.source.expr = .ok f.expr ∧
      r.arguments.names f.expr = .ok f.parameters := by
  obtain ⟨k, hk, hbuild⟩ := Except.bind_eq_ok.mp h
  obtain ⟨r, hr, hk⟩ := Except.bind_eq_ok.mp hk
  obtain ⟨hexpr, hparameters, -⟩ := CompileKey.of_build (Except.eq_ok_of_mapError hbuild)
  rw [hexpr, hparameters]
  exact ⟨r, hr, Request.of_key hk⟩

/-- The object of a call is new, or it is the one kept for its key. -/
theorem Called.serial_cases {o : FunctionObject} (hc : Called w c (.ok o) w') :
    o.1 = w.nextSerial ∧ (c.isCached = false ∨ ∃ k, c.key = .ok k ∧ w.memo.find? k = none) ∨
      c.isCached = true ∧ ∃ k, c.key = .ok k ∧ w.memo.find? k = some o := by
  cases hc with
  | made key cached build => exact .inl ⟨rfl, .inl cached⟩
  | found key cached hashable found => exact .inr ⟨cached, _, key, found⟩
  | stored key cached hashable found build => exact .inl ⟨rfl, .inr ⟨_, key, found⟩⟩

/-- A call that may be answered from the memory leaves its object there, any other does not. -/
theorem Called.kept_self {o : FunctionObject} (hc : Called w c (.ok o) w') (h : w.Sound) :
    (c.isCached = true ∧ ∃ k, c.key = .ok k ∧ w'.memo.Kept k o []) ∨
      (c.isCached = false ∧ w'.Gone o.1) := by
  cases hc with
  | made key cached build =>
    exact .inr ⟨cached, Nat.lt_succ_self _, fun e he => (h.serial_lt e he).ne⟩
  | found key cached hashable found => exact .inl ⟨cached, _, key, Memo.kept_touch_self⟩
  | stored key cached hashable found build =>
    refine .inl ⟨cached, _, key, Memo.kept_insert_self ?_⟩
    have hroom : 0 < capacity := by decide
    rwa [← h.capacity] at hroom

/-- An object that is gone is not returned again. -/
theorem Called.serial_ne_of_gone {o : FunctionObject} {n : Nat} (hc : Called w c (.ok o) w')
    (hgone : w.Gone n) : n ≠ o.1 := by
  rcases hc.serial_cases with ⟨hnew, -⟩ | ⟨-, k, -, hfind⟩
  · exact hnew ▸ hgone.serial_lt.ne
  · exact (hgone.ne_serial _ (Memo.mem_of_find? hfind)).symm

/-- An object that is kept is returned by the calls for its key that ask the memory. -/
theorem Called.serial_eq_iff_of_kept {o : FunctionObject} (hc : Called w c (.ok o) w')
    (h : w.Sound) {since : List CompileKey} (hkept : w.memo.Kept k r since) :
    r.1 = o.1 ↔ c.isCached = true ∧ c.key = .ok k := by
  have hfind := hkept.find? h.memo
  rcases hc.serial_cases with ⟨hnew, hown⟩ | ⟨hcached, k', hkey, hfind'⟩
  · refine iff_of_false (hnew ▸ (h.serial_lt _ hkept.mem).ne) ?_
    rintro ⟨hcached, hkey⟩
    rcases hown with hown | ⟨k', hkey', hnone⟩
    · rw [hcached] at hown
      cases hown
    · cases hkey.symm.trans hkey'
      cases hfind.symm.trans hnone
  · constructor
    · intro heq
      cases h.serial_inj _ hkept.mem _ (Memo.mem_of_find? hfind') heq
      exact ⟨hcached, hkey⟩
    · rintro ⟨-, hkey'⟩
      cases hkey.symm.trans hkey'
      rw [Option.some.inj (hfind.symm.trans hfind')]

/-- Two calls of a history return the same object just if both may be answered from the memory,
have the same key, and between them it was not lost. -/
theorem serial_eq_iff {c' : Call} {o o' : FunctionObject} {w'' : Workshop} (h : w.Sound)
    (hc : Called w c (.ok o) w') (between : List Command)
    (hc' : Called (between.foldl perform w') c' (.ok o') w'') :
    o.1 = o'.1 ↔ c.isCached = true ∧ c'.isCached = true ∧
      ∃ k, c.key = .ok k ∧ c'.key = .ok k ∧ .clear ∉ between ∧
        ¬Memo.Displaced capacity k (uses between) := by
  have h' := h.of_called hc
  rcases hc.kept_self h with ⟨hcached, k, hkey, hkept⟩ | ⟨hcached, hgone⟩
  · have hlost : Lost [] k between ↔
        .clear ∈ between ∨ Memo.Displaced capacity k (uses between) := by
      rw [Lost, Memo.displacedSince_nil]
    rcases kept_or_gone h' hkept between with ⟨hloss, hgone⟩ | ⟨hloss, since, hkept⟩
    · refine iff_of_false (hc'.serial_ne_of_gone hgone) ?_
      rintro ⟨-, -, k', hkey', -, hclear, hdisplaced⟩
      cases hkey.symm.trans hkey'
      exact (hlost.mp hloss).elim hclear hdisplaced
    · rw [hlost, not_or] at hloss
      rw [hc'.serial_eq_iff_of_kept (h'.foldl between) hkept]
      constructor
      · rintro ⟨hcached', hkey'⟩
        exact ⟨hcached, hcached', k, hkey, hkey', hloss⟩
      · rintro ⟨-, hcached', k', hk, hkey', -⟩
        cases hkey.symm.trans hk
        exact ⟨hcached', hkey'⟩
  · refine iff_of_false (hc'.serial_ne_of_gone (hgone.foldl h' between)) ?_
    rintro ⟨hcached', -⟩
    rw [hcached] at hcached'
    cases hcached'

/-- What a caller sees of the memory, over every history: a function that is returned is what the
same call compiles without any memory, for the arguments that it asks for; a call that fails does so
without the memory too (or asks it for what cannot be part of a key), and nothing is remembered but
what was compiled; two calls return the same object just if both may be answered from the memory,
have the same key, and between them the workshop was not cleared and the key was never displaced by
as many others as there is room for; a call for a function of its own leaves the memory as it is;
and there are never more than 256 functions in it. -/
theorem caching_transparent :
    (∀ before c n f, ((after before).call c).1 = .ok (n, f) → c.compiled = .ok f ∧
      ∃ r, c.request = .ok r ∧ r.source.expr = .ok f.expr ∧
        r.arguments.names f.expr = .ok f.parameters) ∧
    (∀ before c e, ((after before).call c).1 = .error e →
      (c.compiled = .error e ∨ (c.isCached = true ∧ e = .unhashable)) ∧
      (after (before ++ [.call c])).memo.entries = (after before).memo.entries) ∧
    (∀ history, ∀ e ∈ (after history).memo.entries, e.1.build = .ok e.2.2) ∧
    (∀ before c between c' n f n' f', ((after before).call c).1 = .ok (n, f) →
      ((after (before ++ .call c :: between)).call c').1 = .ok (n', f') →
      (n = n' ↔ c.isCached = true ∧ c'.isCached = true ∧
        ∃ k, c.key = .ok k ∧ c'.key = .ok k ∧ .clear ∉ between ∧
          ¬Memo.Displaced capacity k (uses between))) ∧
    (∀ before c, c.isCached = false →
      (after (before ++ [.call c])).memo = (after before).memo) ∧
    ∀ history, (after history).memo.size ≤ 256 := by
  refine ⟨fun before c n f h => ?_, fun before c e h => ?_,
    fun history => (sound_after history).built,
    fun before c between c' n f n' f' h h' => ?_, fun before c h => ?_, fun history => ?_⟩
  · have hcompiled := (h ▸ called (after before) c).ok_compiled (sound_after before)
    exact ⟨hcompiled, Call.of_compiled hcompiled⟩
  · have hc := h ▸ called (after before) c
    rw [after_append]
    exact ⟨hc.error_compiled, hc.entries_of_error⟩
  · have hc := h ▸ called (after before) c
    have hc' := h' ▸ called (after (before ++ Command.call c :: between)) c'
    rw [after_append, List.foldl_cons] at hc'
    exact serial_eq_iff (sound_after before) hc between hc'
  · rw [after_append]
    exact (called (after before) c).memo_of_not_cached h
  · have hsound := sound_after history
    exact hsound.memo.size_le.trans_eq hsound.capacity

/-- A call for the constant one. -/
def callOne (cache : Bool) : Call := .numpify { source := .formula .one } cache

/-- The same object is returned after a call for a function of its own, but not after the workshop
was cleared. -/
theorem caching_transparent_constant :
    ∃ f f' f'' n n' n'',
      ((after []).call (callOne true)).1 = .ok (n, f) ∧
      ((after [.call (callOne true), .call (callOne false)]).call (callOne true)).1 = .ok (n', f') ∧
      ((after [.call (callOne true), .clear]).call (callOne true)).1 = .ok (n'', f'') ∧
      n = n' ∧ n ≠ n'' := by
  have hfirst : ∃ n f, ((after []).call (callOne true)).1 = .ok (n, f) := ⟨_, _, rfl⟩
  have hagain : ∃ n f,
      ((after [.call (callOne true), .call (callOne false)]).call (callOne true)).1 = .ok (n, f) :=
    ⟨_, _, rfl⟩
  have hcleared : ∃ n f,
      ((after [.call (callOne true), .clear]).call (callOne true)).1 = .ok (n, f) := ⟨_, _, rfl⟩
  obtain ⟨n, f, hfirst⟩ := hfirst
  obtain ⟨n', f', hagain⟩ := hagain
  obtain ⟨n'', f'', hcleared⟩ := hcleared
  obtain ⟨k, hkey⟩ : ∃ k, (callOne true).key = .ok k := ⟨_, rfl⟩
  have hsame := caching_transparent.2.2.2.1 [] (callOne true) [.call (callOne false)] (callOne true)
  have hnew := caching_transparent.2.2.2.1 [] (callOne true) [.clear] (callOne true)
  refine ⟨f, f', f'', n, n', n'', hfirst, hagain, hcleared, ?_, ?_⟩
  · refine (hsame n f n' f' hfirst hagain).mpr ⟨rfl, rfl, k, hkey, hkey, by simp, ?_⟩
    -- a call for a function of its own uses no key
    rintro ⟨others, hpart, -, hcard⟩
    have huses : uses [.call (callOne false)] = [] := rfl
    rw [huses, List.infix_nil] at hpart
    rw [hpart, List.toFinset_nil, Finset.card_empty] at hcard
    exact absurd hcard (by decide)
  · rw [Ne, hnew n f n'' f'' hfirst hcleared]
    rintro ⟨-, -, -, -, -, hclear, -⟩
    exact hclear List.mem_cons_self

end Workshop
end Graphing
