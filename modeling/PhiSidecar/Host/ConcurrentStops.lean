import PhiSidecar.Host.Drain

/-!
# Concurrent stops of one backend (`sidecar.cpp`: `DefaultInstanceExecutionBackend::stop`)

In `Host.Drain` one thread calls `start` and `stop`. Here a start cycle is stopped by any number of
threads at once (a stop of an instance beside the destructor, say), each of which takes the steps of
`stop` from where it is. A later stop does not wait for the worker: while an earlier one waits it finds
the thread handle taken, and resets the `State` that the worker still uses; after an earlier one has
timed out it finds a fresh `State`, and returns at once.

* `step_safe`: a step keeps `Safe`, unless it is one of these while the worker is in its loop.
* `run_stops`: **in a run without such a step, a stop that returned true found the worker of the start
  cycle out of its loop, and every accepted task was begun or is still queued for a worker in its loop**.
* `run_stops_discards`: two stops, of which the second discards a task and returns true.
-/

set_option autoImplicit false

namespace Phi.Host

universe u

open DefaultInstanceExecutionBackend (Caller Worker Pc Act State get_set)

/-- A call of `stop`. -/
structure StopCall where
  /-- The `State` it has found. -/
  state : Nat
  caller : Caller := .idle
  /-- What it has returned. -/
  result : Option Bool := none

/-- A backend with the calls of `stop`, in the order in which they have entered. -/
structure StoppingBackend (α : Type u) where
  /-- Its `caller` stands for the call that takes a step and is idle between the steps. -/
  backend : DefaultInstanceExecutionBackend α := {}
  stops : List StopCall := []

namespace StoppingBackend

variable {α : Type u}

inductive StopAct (α : Type u)
  | execute (task : Option α)
  | lock (k : Nat)
  | work (i : Nat)
  /-- A further call of `stop` enters. -/
  | stop
  /-- The next step of the call at a position. -/
  | next (j : Nat)

/-- The step that a call takes next. -/
def nextAct : Caller → Option (Act α)
  | .stopWait _ _ => some .waited
  | .stopJoin _ _ => some .join
  | .stopClear _ _ => some .clear
  | .stopReplace _ _ => some .replace
  | .idle | .startThread | .startFlag => none

/-- The call after a step that has left the backend in `b`. -/
def after (call : StopCall) (b : DefaultInstanceExecutionBackend α) : StopCall :=
  match b.caller with
  | .idle => { call with caller := .idle, result := some b.result.isOk }
  | caller => { call with caller }

def step (s : StoppingBackend α) : StopAct α → Option (StoppingBackend α)
  | .execute task => (s.backend.step (.execute task)).map fun b => { s with backend := b }
  | .lock k => (s.backend.step (.lock k)).map fun b => { s with backend := b }
  | .work i => (s.backend.step (.work i)).map fun b => { s with backend := b }
  | .stop =>
    let b := DefaultInstanceExecutionBackend.stop { s.backend with caller := .idle }
    some { backend := { b with caller := .idle },
           stops := s.stops ++ [after { state := s.backend.current } b] }
  | .next j =>
    s.stops[j]?.bind fun call =>
      (nextAct call.caller).bind fun act =>
        (DefaultInstanceExecutionBackend.step { s.backend with caller := call.caller } act).map fun b =>
          { backend := { b with caller := .idle }, stops := s.stops.set j (after call b) }

def machine (α : Type u) : Lts.Machine (StoppingBackend α) (StopAct α) := ⟨step⟩

/-! ## The condition -/

/-- No worker of the `State` is in its loop. -/
def Left (b : DefaultInstanceExecutionBackend α) (k : Nat) : Prop :=
  ∀ (i : Nat) w, b.workers[i]? = some w → w.state = k → ¬w.pc.InLoop

/-- The worker of the start cycle, which is the last one, is not in its loop. -/
def CycleLeft (b : DefaultInstanceExecutionBackend α) : Prop := ∀ w ∈ b.workers.getLast?, ¬w.pc.InLoop

/-- The `State` that a call resets without having joined a thread. -/
def resets : Caller → Option Nat
  | .stopClear k none => some k
  | .stopClear _ (some _) | .idle | .startThread | .startFlag | .stopWait _ _ | .stopReplace _ _
  | .stopJoin _ _ => none

/-- A call that does not wait finds the worker out of its loop: one that returns at once, and one that
found the thread handle taken, before it resets the `State`. -/
def Patient (s : StoppingBackend α) : StopAct α → Prop
  | .stop => s.backend.state.started = false → s.backend.thread = none → CycleLeft s.backend
  | .next j => ∀ call ∈ s.stops[j]?, ∀ k ∈ resets call.caller, Left s.backend k
  | .execute _ | .lock _ | .work _ => True

instance (pc : Pc α) : Decidable pc.InLoop :=
  match pc with
  | .loop | .running _ => .isTrue ⟨nofun, nofun⟩
  | .leaving => .isFalse fun h => h.1 rfl
  | .exited => .isFalse fun h => h.2 rfl

instance (b : DefaultInstanceExecutionBackend α) (k : Nat) : Decidable (Left b k) :=
  decidable_of_iff (∀ w ∈ b.workers, w.state = k → ¬w.pc.InLoop)
    ⟨fun h _ w hi => h w (List.mem_of_getElem? hi), fun h w hw =>
      (List.mem_iff_getElem?.1 hw).elim fun i hi => h i w hi⟩

instance (b : DefaultInstanceExecutionBackend α) : Decidable (CycleLeft b) :=
  inferInstanceAs (Decidable (∀ w ∈ b.workers.getLast?, ¬w.pc.InLoop))

instance (s : StoppingBackend α) (a : StopAct α) : Decidable (Patient s a) :=
  match a with
  | .stop => inferInstanceAs (Decidable (_ → _ = none → CycleLeft s.backend))
  | .next j => inferInstanceAs (Decidable (∀ call ∈ s.stops[j]?, ∀ k ∈ resets call.caller, Left s.backend k))
  | .execute _ | .lock _ | .work _ => .isTrue trivial

/-! ## The invariant -/

structure WorkerSafe (b : DefaultInstanceExecutionBackend α) (i : Nat) (w : Worker α) : Prop where
  state_le : w.state ≤ b.current
  inLoop : w.pc.InLoop → (b.states w.state).worker = i ∧ w.accepted = w.begun ++ (b.states w.state).tasks
  started : w.pc.InLoop → w.state = b.current → b.state.started = true
  left : ¬w.pc.InLoop → w.accepted = w.begun

/-- What a call holds. -/
def CallerSafe (b : DefaultInstanceExecutionBackend α) (k : Nat) : Caller → Prop
  | .idle | .startThread | .startFlag => True
  | .stopWait k' i | .stopReplace k' i | .stopJoin k' i => k' = k ∧ (b.states k).worker = i
  | .stopClear k' none => k' = k
  | .stopClear k' (some i) => k' = k ∧ (b.states k).worker = i ∧
      ∃ w, b.workers[i]? = some w ∧ w.pc = .exited

/-- The `State` is that of the start cycle. -/
def OfCycle (b : DefaultInstanceExecutionBackend α) (k : Nat) : Prop :=
  ∃ w, b.workers.getLast? = some w ∧ w.state = k

structure CallSafe (b : DefaultInstanceExecutionBackend α) (call : StopCall) : Prop where
  caller : CallerSafe b call.state call.caller
  cycle : call.caller ≠ .idle → OfCycle b call.state
  returned : call.result = some true → CycleLeft b

structure Safe (s : StoppingBackend α) : Prop where
  worker : ∀ i w, s.backend.workers[i]? = some w → WorkerSafe s.backend i w
  /-- Where an `execute` is accepted, a worker is in its loop. -/
  accepts : ∀ k, (s.backend.states k).started = true → (s.backend.states k).stopRequested = false →
    ∃ w, s.backend.workers[(s.backend.states k).worker]? = some w ∧ w.state = k ∧ w.pc.InLoop
  thread : ∀ i, s.backend.thread = some i → s.stops = [] ∧ s.backend.state.worker = i
  fresh : ∀ k, s.backend.current < k → (s.backend.states k).started = false
  /-- A stop that does not return at once stops the start cycle. -/
  cycle : s.backend.state.started = true ∨ s.backend.thread.isSome → OfCycle s.backend s.backend.current
  call : ∀ call ∈ s.stops, CallSafe s.backend call

variable {s t : StoppingBackend α} {b b' : DefaultInstanceExecutionBackend α} {k : Nat}

/-! ## Frames -/

/-- What the calls rely on is kept: whose worker is whose, and that one that has left its loop does not
come back. -/
structure Later (b b' : DefaultInstanceExecutionBackend α) : Prop where
  length : b'.workers.length = b.workers.length
  worker : ∀ k, (b'.states k).worker = (b.states k).worker
  left : ∀ (i : Nat) w', b'.workers[i]? = some w' → ∃ w, b.workers[i]? = some w ∧ w.state = w'.state ∧
    (¬w.pc.InLoop → ¬w'.pc.InLoop)
  exited : ∀ (i : Nat) w, b.workers[i]? = some w → w.pc = .exited →
    ∃ w', b'.workers[i]? = some w' ∧ w'.pc = .exited

/-- No worker takes a step. -/
theorem Later.of_workers (hworkers : b'.workers = b.workers)
    (hworker : ∀ k, (b'.states k).worker = (b.states k).worker) : Later b b' where
  length := congrArg List.length hworkers
  worker := hworker
  left _ w hi := ⟨w, hworkers ▸ hi, rfl, id⟩
  exited _ w hi he := ⟨w, hworkers ▸ hi, he⟩

/-- The last worker is the same one. -/
theorem Later.last (h : Later b b') {w' : Worker α} (hw' : b'.workers.getLast? = some w') :
    ∃ w, b.workers.getLast? = some w ∧ w.state = w'.state ∧ (¬w.pc.InLoop → ¬w'.pc.InLoop) := by
  rw [List.getLast?_eq_getElem?, h.length] at hw'
  rw [List.getLast?_eq_getElem?]
  exact h.left _ w' hw'

theorem Later.cycleLeft (h : Later b b') (hl : CycleLeft b) : CycleLeft b' := by
  intro w' hw'
  obtain ⟨w, hw, -, hleft⟩ := h.last hw'
  exact hleft (hl w hw)

theorem Later.ofCycle (h : Later b b') (hk : OfCycle b k) : OfCycle b' k := by
  obtain ⟨w, hw, hstate⟩ := hk
  cases hlast : b'.workers.getLast? with
  | none =>
    have hempty : b.workers = [] := by
      rw [← List.length_eq_zero_iff, ← h.length, List.getLast?_eq_none_iff.1 hlast]
      rfl
    rw [hempty] at hw
    cases hw
  | some w' =>
    obtain ⟨v, hv, hsame, -⟩ := h.last hlast
    obtain rfl := Option.some.inj (hw.symm.trans hv)
    exact ⟨w', hlast, hsame.symm.trans hstate⟩

theorem Later.call (h : Later b b') {call : StopCall} (hc : CallSafe b call) : CallSafe b' call := by
  refine ⟨?_, fun hne => h.ofCycle (hc.cycle hne), fun hr => h.cycleLeft (hc.returned hr)⟩
  have hcaller := hc.caller
  cases hat : call.caller with
  | idle | startThread | startFlag => trivial
  | stopWait k i | stopReplace k i | stopJoin k i =>
    rw [hat] at hcaller
    exact ⟨hcaller.1, (h.worker _).trans hcaller.2⟩
  | stopClear k thread =>
    rw [hat] at hcaller
    cases thread with
    | none => exact hcaller
    | some i =>
      obtain ⟨hk, hworker, w, hw, hexited⟩ := hcaller
      exact ⟨hk, (h.worker _).trans hworker, h.exited i w hw hexited⟩

/-- One worker takes a step. -/
theorem Later.set {i : Nat} {w w' : Worker α} (hi : b.workers[i]? = some w)
    (hworkers : b'.workers = b.workers.set i w') (hworker : ∀ k, (b'.states k).worker = (b.states k).worker)
    (hstate : w'.state = w.state) (hleft : ¬w.pc.InLoop → ¬w'.pc.InLoop)
    (hexited : w.pc = .exited → w'.pc = .exited) : Later b b' where
  length := by rw [hworkers, List.length_set]
  worker := hworker
  left j v hj := by
    rw [hworkers] at hj
    obtain ⟨rfl, rfl⟩ | ⟨-, hj⟩ := get_set hj
    · exact ⟨w, hi, hstate.symm, hleft⟩
    · exact ⟨v, hj, rfl, id⟩
  exited j v hj he := by
    have hlt : i < b.workers.length := (List.getElem?_eq_some_iff.1 hi).1
    rw [hworkers]
    by_cases heq : j = i
    · subst heq
      obtain rfl := Option.some.inj (hi.symm.trans hj)
      exact ⟨w', List.getElem?_set_self hlt, hexited he⟩
    · exact ⟨v, by rw [List.getElem?_set_ne (Ne.symm heq)]; exact hj, he⟩

/-- A worker in its loop is the worker of its `State`. -/
theorem Safe.worker_eq (h : Safe s) {i : Nat} {w : Worker α} (hi : s.backend.workers[i]? = some w)
    (hl : w.pc.InLoop) : (s.backend.states w.state).worker = i :=
  ((h.worker i w hi).inLoop hl).1

/-! ## Steps of a worker -/

theorem inLoop_loop : (Pc.loop : Pc α).InLoop := by
  constructor <;> intro h <;> cases h

theorem inLoop_running (task : α) : (Pc.running task).InLoop := by
  constructor <;> intro h <;> cases h

/-- What a step of the worker `w` makes of it and of its `State`. -/
structure WorkStep (b : DefaultInstanceExecutionBackend α) (w : Worker α) (state' : State α)
    (w' : Worker α) : Prop where
  worker : state'.worker = (b.states w.state).worker
  started : state'.started = (b.states w.state).started
  stopRequested : state'.stopRequested = (b.states w.state).stopRequested
  state : w'.state = w.state
  tasks : ¬w.pc.InLoop → state'.tasks = (b.states w.state).tasks
  inLoop : w'.pc.InLoop → w.pc.InLoop ∧ w'.accepted = w'.begun ++ state'.tasks
  left : ¬w'.pc.InLoop → w'.accepted = w'.begun
  leaves : w.pc.InLoop → ¬w'.pc.InLoop → (b.states w.state).stopRequested = true
  exited : w.pc = .exited → w'.pc = .exited

theorem work_step {i : Nat} {w : Worker α} (hw : WorkerSafe b i w) (h : b.work i w = some b') :
    ∃ state' w', WorkStep b w state' w' ∧ b' = (b.setState w.state state').setWorker i w' := by
  have hsame : b = b.setState w.state (b.states w.state) := by
    rw [DefaultInstanceExecutionBackend.setState, Function.update_eq_self]
  unfold DefaultInstanceExecutionBackend.work at h
  dsimp only at h
  split at h
  · next hpc =>
    have hin : w.pc.InLoop := hpc ▸ inLoop_loop
    have hacc := (hw.inLoop hin).2
    split at h
    · next htasks =>
      split at h
      · next hstop =>
        cases h
        refine ⟨b.states w.state, { w with pc := .leaving }, ?_, by rw [← hsame]⟩
        refine ⟨rfl, rfl, rfl, rfl, fun _ => rfl, fun hl => absurd rfl hl.1, fun _ => ?_, fun _ _ => hstop,
          fun he => by rw [hpc] at he; cases he⟩
        rw [hacc, htasks, List.append_nil]
      · cases h
    · next task tasks htasks =>
      cases h
      refine ⟨{ b.states w.state with tasks }, { w with pc := .running task, begun := w.begun ++ [task] },
        ?_, rfl⟩
      refine ⟨rfl, rfl, rfl, rfl, fun hn => absurd hin hn, fun _ => ⟨hin, ?_⟩,
        fun hn => absurd (inLoop_running task) hn, fun _ hn => absurd (inLoop_running task) hn,
        fun he => by rw [hpc] at he; cases he⟩
      rw [hacc, htasks, List.append_assoc, List.singleton_append]
  · next task hpc =>
    cases h
    have hin : w.pc.InLoop := hpc ▸ inLoop_running task
    refine ⟨b.states w.state, { w with pc := .loop, ended := w.ended ++ [task] }, ?_, by rw [← hsame]⟩
    exact ⟨rfl, rfl, rfl, rfl, fun _ => rfl, fun _ => ⟨hin, (hw.inLoop hin).2⟩,
      fun hn => absurd inLoop_loop hn, fun _ hn => absurd inLoop_loop hn,
      fun he => by rw [hpc] at he; cases he⟩
  · next hpc =>
    cases h
    have hout : ¬w.pc.InLoop := fun hl => hl.1 hpc
    refine ⟨{ b.states w.state with workerExited := true }, { w with pc := .exited }, ?_, rfl⟩
    exact ⟨rfl, rfl, rfl, rfl, fun _ => rfl, fun hl => absurd rfl hl.2, fun _ => hw.left hout,
      fun hin => absurd hin hout, fun _ => rfl⟩
  · cases h

theorem WorkStep.later {i : Nat} {w w' : Worker α} {state' : State α} (h : WorkStep b w state' w')
    (hi : b.workers[i]? = some w) : Later b ((b.setState w.state state').setWorker i w') := by
  refine .set hi rfl (fun k => ?_) h.state (fun hout hl => hout (h.inLoop hl).1) h.exited
  change (Function.update b.states w.state state' k).worker = _
  by_cases hk : k = w.state
  · subst hk
    rw [Function.update_self, h.worker]
  · rw [Function.update_of_ne hk]

theorem Safe.work (h : Safe s) {i : Nat} {w w' : Worker α} {state' : State α}
    (hi : s.backend.workers[i]? = some w) (hs : WorkStep s.backend w state' w') :
    Safe { s with backend := (s.backend.setState w.state state').setWorker i w' } := by
  have hw := h.worker i w hi
  have hlater := hs.later hi
  have hself : Function.update s.backend.states w.state state' w.state = state' := Function.update_self ..
  have hflags : ∀ k, (Function.update s.backend.states w.state state' k).started =
      (s.backend.states k).started ∧ (Function.update s.backend.states w.state state' k).stopRequested =
        (s.backend.states k).stopRequested := by
    intro k
    by_cases hk : k = w.state
    · subst hk
      rw [hself]
      exact ⟨hs.started, hs.stopRequested⟩
    · rw [Function.update_of_ne hk]
      exact ⟨rfl, rfl⟩
  refine ⟨fun j v hj => ?_, fun k hstarted hstop => ?_, fun j hj => ?_,
    fun k hk => (hflags k).1.trans (h.fresh k hk),
    fun hopen => hlater.ofCycle (h.cycle (hopen.imp_left ((hflags _).1.symm.trans ·))),
    fun call hc => hlater.call (h.call call hc)⟩
  · obtain ⟨rfl, rfl⟩ | ⟨hne, hj⟩ := get_set hj
    · refine ⟨hs.state ▸ hw.state_le, fun hl => ?_, fun hl hk => ?_, hs.left⟩
      · obtain ⟨hin, hacc⟩ := hs.inLoop hl
        refine ⟨(hlater.worker _).trans (hs.state ▸ (hw.inLoop hin).1), ?_⟩
        change _ = _ ++ (Function.update s.backend.states w.state state' v.state).tasks
        rw [hs.state, hself]
        exact hacc
      · exact (hflags _).1.trans (hw.started (hs.inLoop hl).1 (hs.state ▸ hk))
    · have hv := h.worker j v hj
      refine ⟨hv.state_le, fun hl => ⟨(hlater.worker _).trans (hv.inLoop hl).1, ?_⟩,
        fun hl hk => (hflags _).1.trans (hv.started hl hk), hv.left⟩
      have htasks : (Function.update s.backend.states w.state state' v.state).tasks =
          (s.backend.states v.state).tasks := by
        by_cases hk : v.state = w.state
        · rw [hk, hself]
          -- two workers in their loops have different states
          exact hs.tasks fun hin => hne ((h.worker_eq hj hl).symm.trans (hk ▸ h.worker_eq hi hin))
        · rw [Function.update_of_ne hk]
      exact (hv.inLoop hl).2.trans (congrArg _ htasks.symm)
  · have hk := hlater.worker k
    obtain ⟨v, hv, hstate, hin⟩ := h.accepts k ((hflags k).1 ▸ hstarted) ((hflags k).2 ▸ hstop)
    rw [hk]
    have hlt : i < s.backend.workers.length := (List.getElem?_eq_some_iff.1 hi).1
    by_cases heq : (s.backend.states k).worker = i
    · rw [heq] at hv ⊢
      obtain rfl := Option.some.inj (hi.symm.trans hv)
      refine ⟨w', List.getElem?_set_self hlt, hs.state.trans hstate, ?_⟩
      by_contra hout
      have hrequested := hs.leaves hin hout
      rw [hstate, ← (hflags k).2] at hrequested
      exact absurd (hstop.symm.trans hrequested) nofun
    · exact ⟨v, (List.getElem?_set_ne (Ne.symm heq)).trans hv, hstate, hin⟩
  · obtain ⟨hnil, hworker⟩ := h.thread j hj
    exact ⟨hnil, (hlater.worker _).trans hworker⟩

/-! ## Other steps -/

/-- What `Safe` does not depend on. -/
theorem Safe.of_eq (h : Safe s) (hstates : b.states = s.backend.states)
    (hcurrent : b.current = s.backend.current) (hthread : b.thread = s.backend.thread)
    (hworkers : b.workers = s.backend.workers) : Safe { s with backend := b } := by
  have hlater : Later s.backend b := .of_workers hworkers fun k => by rw [hstates]
  refine ⟨fun i w hi => ?_, ?_, ?_, ?_, fun hopen => ?_, fun call hc => hlater.call (h.call call hc)⟩
  · rw [hworkers] at hi
    obtain ⟨hle, hin, hstarted, hleft⟩ := h.worker i w hi
    refine ⟨hcurrent ▸ hle, ?_, ?_, hleft⟩
    · rw [hstates]
      exact hin
    · rw [DefaultInstanceExecutionBackend.state, hstates, hcurrent]
      exact hstarted
  · rw [hstates, hworkers]
    exact h.accepts
  · rw [DefaultInstanceExecutionBackend.state, hthread, hstates, hcurrent]
    exact h.thread
  · rw [hcurrent, hstates]
    exact h.fresh
  · rw [DefaultInstanceExecutionBackend.state, hthread, hstates, hcurrent] at hopen
    rw [hcurrent]
    exact hlater.ofCycle (h.cycle hopen)

/-- A change of a `State` that no worker in its loop can notice. -/
theorem Safe.setState (h : Safe s) {state' : State α}
    (hworker : state'.worker = (s.backend.states k).worker)
    (hkeeps : Left s.backend k ∨ state'.tasks = (s.backend.states k).tasks ∧
      state'.started = (s.backend.states k).started)
    (hstarted' : state'.started = true → (s.backend.states k).started = true)
    (hstop' : state'.started = true → state'.stopRequested = false →
      (s.backend.states k).stopRequested = false) :
    Safe { s with backend := s.backend.setState k state' } := by
  have hself : Function.update s.backend.states k state' k = state' := Function.update_self ..
  have hother {k' : Nat} (hk : k' ≠ k) :
      Function.update s.backend.states k state' k' = s.backend.states k' := Function.update_of_ne hk ..
  have hworker' : ∀ k', (Function.update s.backend.states k state' k').worker =
      (s.backend.states k').worker := by
    intro k'
    by_cases hk : k' = k
    · subst hk
      rw [hself, hworker]
    · rw [hother hk]
  have hlater : Later s.backend (s.backend.setState k state') := .of_workers rfl hworker'
  have hopen : ∀ k', (Function.update s.backend.states k state' k').started = true →
      (s.backend.states k').started = true := by
    intro k' hk'
    by_cases hk : k' = k
    · subst hk
      rw [hself] at hk'
      exact hstarted' hk'
    · rw [hother hk] at hk'
      exact hk'
  refine ⟨fun i w hi => ?_, fun k' hstarted hstop => ?_, fun i hi => ?_, fun k' hk' => ?_,
    fun hor => hlater.ofCycle (h.cycle (hor.imp_left (hopen _))),
    fun call hc => hlater.call (h.call call hc)⟩
  · have hw := h.worker i w hi
    have hkeep : w.pc.InLoop → w.state = k →
        state'.tasks = (s.backend.states k).tasks ∧ state'.started = (s.backend.states k).started :=
      fun hl hk => hkeeps.resolve_left fun hleft => hleft i w hi hk hl
    refine ⟨hw.state_le, fun hl => ⟨(hworker' _).trans (hw.inLoop hl).1, ?_⟩, fun hl hk => ?_, hw.left⟩
    · refine (hw.inLoop hl).2.trans (congrArg _ ?_)
      change _ = (Function.update s.backend.states k state' w.state).tasks
      by_cases hk : w.state = k
      · rw [hk, hself, (hkeep hl hk).1]
      · rw [hother hk]
    · change (Function.update s.backend.states k state' s.backend.current).started = true
      have hstarted := hw.started hl hk
      by_cases hk' : s.backend.current = k
      · rw [hk', hself, (hkeep hl (hk.trans hk')).2, ← hk']
        exact hstarted
      · rw [hother hk']
        exact hstarted
  · have hk' := hlater.worker k'
    rw [hk']
    change (Function.update s.backend.states k state' k').started = true at hstarted
    change (Function.update s.backend.states k state' k').stopRequested = false at hstop
    by_cases hk : k' = k
    · subst hk
      rw [hself] at hstarted hstop
      exact h.accepts k' (hstarted' hstarted) (hstop' hstarted hstop)
    · rw [hother hk] at hstarted hstop
      exact h.accepts k' hstarted hstop
  · obtain ⟨hnil, hi⟩ := h.thread i hi
    exact ⟨hnil, (hworker' _).trans hi⟩
  · exact Bool.eq_false_iff.2 fun hstarted => Bool.eq_false_iff.1 (h.fresh k' hk') (hopen k' hstarted)

/-- A worker with what its `stop` has returned. -/
theorem Safe.setStopResult (h : Safe s) (i : Nat) (result : Option Bool) :
    Safe { s with backend := s.backend.modifyWorker i fun w => { w with stopResult := result } } := by
  unfold DefaultInstanceExecutionBackend.modifyWorker
  rw [List.modify_eq_set_getElem?]
  cases hi : s.backend.workers[i]? with
  | none => exact h
  | some w =>
    have hw := h.worker i w hi
    have hstep : WorkStep s.backend w (s.backend.states w.state) { w with stopResult := result } :=
      ⟨rfl, rfl, rfl, rfl, fun _ => rfl, fun hl => ⟨hl, (hw.inLoop hl).2⟩, hw.left,
        fun hl hn => absurd hl hn, id⟩
    have hsafe := h.work hi hstep
    rwa [DefaultInstanceExecutionBackend.setState, Function.update_eq_self] at hsafe

/-- The critical section of an `execute`. -/
theorem Safe.push (h : Safe s) (k : Nat) (task : α) : Safe { s with backend := s.backend.push k task } := by
  unfold DefaultInstanceExecutionBackend.push
  dsimp only
  split_ifs with hstarted hstop
  · exact h.of_eq rfl rfl rfl rfl
  · exact h.of_eq rfl rfl rfl rfl
  · obtain ⟨w, hi, rfl, hin⟩ := h.accepts k (by simpa using hstarted) (by simpa using hstop)
    have hacc := (h.worker _ w hi).inLoop hin
    have hstep : WorkStep s.backend w
        { s.backend.states w.state with tasks := (s.backend.states w.state).tasks ++ [task] }
        { w with accepted := w.accepted ++ [task] } := by
      refine ⟨rfl, rfl, rfl, rfl, fun hn => absurd hin hn, fun _ => ⟨hin, ?_⟩, fun hn => absurd hin hn,
        fun _ hn => absurd hin hn, id⟩
      rw [hacc.2, List.append_assoc]
    refine (h.work hi hstep).of_eq rfl rfl rfl ?_
    change s.backend.workers.modify _ _ = s.backend.workers.set _ _
    rw [List.modify_eq_set_getElem?, hi]
    rfl

/-- A call that enters, or takes a step. -/
theorem Safe.setCall (h : Safe s) (j : Nat) {call : StopCall} (hc : CallSafe s.backend call) :
    Safe { s with stops := s.stops.set j call } := by
  refine ⟨h.worker, h.accepts, fun i hi => ?_, h.fresh, h.cycle, fun c hmem => ?_⟩
  · obtain ⟨hnil, hi⟩ := h.thread i hi
    exact ⟨by rw [hnil, List.set_nil], hi⟩
  · obtain hmem | rfl := List.mem_or_eq_of_mem_set hmem
    · exact h.call c hmem
    · exact hc

theorem Safe.addCall (h : Safe s) (hthread : s.backend.thread = none) {call : StopCall}
    (hc : CallSafe s.backend call) : Safe { s with stops := s.stops ++ [call] } := by
  refine ⟨h.worker, h.accepts, fun i hi => ?_, h.fresh, h.cycle, fun c hmem => ?_⟩
  · rw [hthread] at hi
    cases hi
  · obtain hmem | hmem := List.mem_append.1 hmem
    · exact h.call c hmem
    · rw [List.mem_singleton.1 hmem]
      exact hc

/-- The thread is moved out of the backend. -/
theorem Safe.takeThread (h : Safe s) : Safe { s with backend := { s.backend with thread := none } } := by
  have hlater : Later s.backend { s.backend with thread := none } := .of_workers rfl fun _ => rfl
  refine ⟨fun i w hi => ?_, h.accepts, fun i hi => ?_, h.fresh, fun hopen => ?_,
    fun call hc => hlater.call (h.call call hc)⟩
  · obtain ⟨hle, hin, hstarted, hleft⟩ := h.worker i w hi
    exact ⟨hle, hin, hstarted, hleft⟩
  · cases hi
  · obtain hstarted | hthread := hopen
    · exact h.cycle (.inl hstarted)
    · cases hthread

/-- The backend with its `State` told to stop. -/
def requested (b : DefaultInstanceExecutionBackend α) : DefaultInstanceExecutionBackend α :=
  b.setState b.current { b.state with stopRequested := true }

theorem requested_worker (b : DefaultInstanceExecutionBackend α) :
    ((requested b).states b.current).worker = b.state.worker := by
  change (Function.update b.states b.current _ b.current).worker = _
  rw [Function.update_self]

theorem Safe.request (h : Safe s) : Safe { s with backend := requested s.backend } :=
  h.setState rfl (.inr ⟨rfl, rfl⟩) id nofun

theorem Safe.stop (h : Safe s) (hok : Patient s .stop) : Safe
    { backend := { DefaultInstanceExecutionBackend.stop { s.backend with caller := .idle } with caller := .idle }
      stops := s.stops ++ [after { state := s.backend.current }
        (DefaultInstanceExecutionBackend.stop { s.backend with caller := .idle })] } := by
  unfold DefaultInstanceExecutionBackend.stop
  split_ifs with hearly
  · -- the call returns at once
    obtain ⟨hstarted, hnone⟩ := Bool.and_eq_true_iff.1 hearly
    have hstarted : s.backend.state.started = false := by
      simpa [DefaultInstanceExecutionBackend.state] using hstarted
    have hnone : s.backend.thread = none := by simpa using hnone
    have hcall : CallSafe s.backend { state := s.backend.current, result := some true } :=
      ⟨trivial, fun hne => absurd rfl hne, fun _ => hok hstarted hnone⟩
    exact (h.addCall hnone hcall).of_eq rfl rfl rfl rfl
  · cases hthread : s.backend.thread with
    | none =>
      have hstarted : s.backend.state.started = true := by
        simpa [DefaultInstanceExecutionBackend.state, hthread] using hearly
      have hcall : CallSafe (requested s.backend)
          { state := s.backend.current, caller := .stopClear s.backend.current none } :=
        ⟨rfl, fun _ => h.cycle (.inl hstarted), fun h => (by cases h)⟩
      exact (h.request.addCall hthread hcall).takeThread.of_eq rfl rfl rfl rfl
    | some i =>
      have hworker := (requested_worker s.backend).trans (h.thread i hthread).2
      have hcall : CallSafe { requested s.backend with thread := none }
          { state := s.backend.current, caller := .stopWait s.backend.current i } :=
        ⟨⟨rfl, hworker⟩, fun _ => h.cycle (.inr (by rw [hthread]; rfl)), fun h => (by cases h)⟩
      exact (h.request.takeThread.addCall rfl hcall).of_eq rfl rfl rfl rfl

/-! ## The next step of a call -/

/-- A fresh `State` takes the place of an abandoned one. -/
theorem Safe.renew (h : Safe s) (hthread : s.backend.thread = none) :
    Safe { s with backend := { s.backend with current := s.backend.current + 1 } } := by
  have hlater : Later s.backend { s.backend with current := s.backend.current + 1 } :=
    .of_workers rfl fun _ => rfl
  refine ⟨fun i w hi => ?_, h.accepts, fun i hi => ?_, fun k hk => h.fresh k (Nat.lt_of_succ_lt hk),
    fun hopen => ?_, fun call hc => hlater.call (h.call call hc)⟩
  · obtain ⟨hle, hin, -, hleft⟩ := h.worker i w hi
    refine ⟨Nat.le_succ_of_le hle, hin, fun _ hk => ?_, hleft⟩
    rw [hk] at hle
    exact absurd hle (Nat.not_succ_le_self _)
  · rw [hthread] at hi
    cases hi
  · obtain hstarted | hsome := hopen
    · exact absurd (hstarted.symm.trans (h.fresh _ (Nat.lt_succ_self _))) nofun
    · rw [hthread] at hsome
      cases hsome

/-- The end of a `stop` that timed out. -/
theorem Safe.replace (h : Safe s) (k i : Nat) (hthread : s.backend.thread = none) :
    Safe { s with backend := s.backend.replace k i } := by
  have hresult := h.setStopResult i (some false)
  unfold DefaultInstanceExecutionBackend.replace
  split_ifs with hk
  · exact (hresult.renew hthread).of_eq rfl rfl rfl rfl
  · exact hresult.of_eq rfl rfl rfl rfl

/-- The reset, with no worker of the `State` in its loop. -/
theorem Safe.clear (h : Safe s) (hleft : Left s.backend k) (thread : Option Nat) :
    Safe { s with backend := s.backend.clear k thread } := by
  have hreset (workerExited : Bool) : Safe { s with backend := s.backend.setState k { s.backend.states k with
      started := false, stopRequested := false, tasks := [], workerExited } } :=
    h.setState rfl (.inl hleft) nofun nofun
  cases thread with
  | none => exact (hreset true).of_eq rfl rfl rfl rfl
  | some i => exact ((hreset (s.backend.states k).workerExited).setStopResult i (some true)).of_eq rfl rfl rfl rfl

theorem later_setStopResult (b : DefaultInstanceExecutionBackend α) (i : Nat) (result : Option Bool) :
    Later b (b.modifyWorker i fun w => { w with stopResult := result }) := by
  unfold DefaultInstanceExecutionBackend.modifyWorker
  rw [List.modify_eq_set_getElem?]
  cases hi : b.workers[i]? with
  | none => exact .of_workers rfl fun _ => rfl
  | some w => exact .set hi rfl (fun _ => rfl) rfl id id

theorem clear_cycleLeft (hleft : CycleLeft b) (k : Nat) (thread : Option Nat) :
    CycleLeft (b.clear k thread) := by
  cases thread with
  | none => exact hleft
  | some i => exact (later_setStopResult b i (some true)).cycleLeft hleft

/-- The worker of a `State` whose thread has been joined is not in its loop. -/
theorem Safe.left_joined (h : Safe s) {i : Nat} {w : Worker α} (hworker : (s.backend.states k).worker = i)
    (hi : s.backend.workers[i]? = some w) (hexited : w.pc = .exited) : Left s.backend k := by
  rintro j v hj rfl hl
  rw [(h.worker_eq hj hl).symm.trans hworker, hi] at hj
  cases hj
  exact hl.2 hexited

theorem thread_none (h : Safe s) {j : Nat} {call : StopCall} (hj : s.stops[j]? = some call) :
    s.backend.thread = none := by
  cases hthread : s.backend.thread with
  | none => rfl
  | some i =>
    rw [(h.thread i hthread).1] at hj
    cases hj

theorem Safe.next (h : Safe s) {j : Nat} (hok : Patient s (.next j)) (ht : s.step (.next j) = some t) :
    Safe t := by
  obtain ⟨call, hj, ht⟩ := Option.bind_eq_some_iff.1 ht
  obtain ⟨act, hact, ht⟩ := Option.bind_eq_some_iff.1 ht
  obtain ⟨b, hb, rfl⟩ := Option.map_eq_some_iff.1 ht
  have hcall := h.call call (List.mem_of_getElem? hj)
  have hcaller := hcall.caller
  cases hat : call.caller with
  | idle | startThread | startFlag =>
    rw [hat] at hact
    cases hact
  | stopWait k i =>
    have hcycle := hcall.cycle (by rw [hat]; exact fun h => by cases h)
    rw [hat] at hact hcaller hb
    cases hact
    simp only [DefaultInstanceExecutionBackend.step] at hb
    split at hb
    · cases hb
      have hjoin : CallSafe s.backend { call with caller := .stopJoin k i } :=
        ⟨hcaller, fun _ => hcycle, hcall.returned⟩
      exact (h.setCall j hjoin).of_eq rfl rfl rfl rfl
    · cases hb
      have hreplace : CallSafe s.backend { call with caller := .stopReplace k i } :=
        ⟨hcaller, fun _ => hcycle, hcall.returned⟩
      exact (h.setCall j hreplace).of_eq rfl rfl rfl rfl
  | stopReplace k i =>
    rw [hat] at hact hb
    cases hact
    cases hb
    have hreturned : CallSafe (s.backend.replace k i) { call with caller := .idle, result := some false } :=
      ⟨trivial, fun hne => absurd rfl hne, fun h => (by cases h)⟩
    exact ((h.replace k i (thread_none h hj)).setCall j hreturned).of_eq rfl rfl rfl rfl
  | stopJoin k i =>
    have hcycle := hcall.cycle (by rw [hat]; exact fun h => by cases h)
    rw [hat] at hact hcaller hb
    cases hact
    simp only [DefaultInstanceExecutionBackend.step] at hb
    split at hb
    · next hreturned =>
      cases hb
      obtain ⟨w, hi, hw⟩ := Option.map_eq_some_iff.1 hreturned
      have hexited : w.pc = .exited := by
        unfold DefaultInstanceExecutionBackend.Worker.returned at hw
        split at hw
        · assumption
        all_goals cases hw
      have hclear : CallSafe s.backend { call with caller := .stopClear k (some i) } :=
        ⟨⟨hcaller.1, hcaller.2, w, hi, hexited⟩, fun _ => hcycle, hcall.returned⟩
      exact (h.setCall j hclear).of_eq rfl rfl rfl rfl
    · cases hb
  | stopClear k thread =>
    obtain ⟨last, hlast, hstate⟩ := hcall.cycle (by rw [hat]; exact fun h => by cases h)
    rw [hat] at hact hcaller hb
    cases hact
    cases hb
    have hleft : k = call.state ∧ Left s.backend k := by
      cases thread with
      | none => exact ⟨hcaller, hok call hj k (by rw [hat]; rfl)⟩
      | some i =>
        obtain ⟨rfl, hworker, w, hi, hexited⟩ := hcaller
        exact ⟨rfl, h.left_joined hworker hi hexited⟩
    obtain ⟨rfl, hleft⟩ := hleft
    have hcleared := h.clear hleft thread
    have hcycle : CycleLeft s.backend := by
      intro w hw
      obtain rfl := Option.some.inj (hlast.symm.trans hw)
      rw [List.getLast?_eq_getElem?] at hlast
      exact hleft _ last hlast hstate
    have hreturned : CallSafe (s.backend.clear call.state thread)
        { call with caller := .idle, result := some true } :=
      ⟨trivial, fun hne => absurd rfl hne, fun _ => clear_cycleLeft hcycle _ thread⟩
    cases thread with
    | none => exact (hcleared.setCall j hreturned).of_eq rfl rfl rfl rfl
    | some i => exact (hcleared.setCall j hreturned).of_eq rfl rfl rfl rfl

/-- **A step keeps the invariant**, unless a call does not wait for a worker in its loop. -/
theorem step_safe (h : Safe s) {a : StopAct α} (hok : Patient s a) (ht : s.step a = some t) : Safe t := by
  cases a with
  | execute task =>
    obtain ⟨b, hb, rfl⟩ := Option.map_eq_some_iff.1 ht
    cases task with
    | none =>
      cases hb
      exact h.of_eq rfl rfl rfl rfl
    | some task =>
      cases hb
      exact h.of_eq rfl rfl rfl rfl
  | lock k =>
    obtain ⟨b, hb, rfl⟩ := Option.map_eq_some_iff.1 ht
    obtain ⟨call, -, rfl⟩ := Option.map_eq_some_iff.1 hb
    have herased : Safe { s with backend := { s.backend with executing := s.backend.executing.eraseIdx k } } :=
      h.of_eq rfl rfl rfl rfl
    exact herased.push call.1 call.2
  | work i =>
    obtain ⟨b, hb, rfl⟩ := Option.map_eq_some_iff.1 ht
    obtain ⟨w, hi, hw⟩ := Option.bind_eq_some_iff.1 hb
    obtain ⟨state', w', hstep, rfl⟩ := work_step (h.worker i w hi) hw
    exact h.work hi hstep
  | stop =>
    cases ht
    exact h.stop hok
  | next j => exact h.next hok ht

/-! ## Runs -/

/-- A backend between two lifecycle calls, with nobody in `stop`. -/
theorem Safe.of_inv {b : DefaultInstanceExecutionBackend α} (h : b.Inv) (hidle : b.caller = .idle) :
    Safe { backend := b } := by
  have hcaller := h.caller
  rw [hidle] at hcaller
  refine ⟨fun i w hi => ?_, fun k hstarted hstop => ?_, fun i hi => ⟨rfl, ?_⟩,
    fun k hk => by rw [h.fresh k hk], fun hopen => ?_, List.forall_mem_nil _⟩
  · have hw := h.worker i w hi
    refine ⟨hw.state_le, fun hl => ?_, fun hl hk => ?_, fun hn => ?_⟩
    · obtain ⟨hworker, -, hacc⟩ := hw.live hl.2
      exact ⟨hworker, hacc⟩
    · obtain hr | ⟨j, v, hr⟩ := hcaller
      · exact absurd (hr.quiet i w hi hk) hl.2
      · exact hr.started
    · by_cases he : w.pc = .exited
      · exact hw.exited he
      · have hleaving : w.pc = .leaving := by
          by_contra hne
          exact hn ⟨hne, he⟩
        rw [(hw.live he).2.2, (hw.leaving hleaving).1, List.append_nil]
  · have hk : k ≤ b.current := by
      by_contra hlt
      rw [h.fresh k (Nat.lt_of_not_le hlt)] at hstarted
      cases hstarted
    obtain ⟨rfl, -, i, w, hr⟩ := h.open hk hstarted hstop
    refine ⟨w, ?_, hr.serves.state, hr.inLoop⟩
    exact (congrArg (b.workers[·]?) hr.serves.worker).trans hr.serves.get
  · obtain hr | ⟨j, v, hr⟩ := hcaller
    · rw [hr.thread] at hi
      cases hi
    · obtain rfl := Option.some.inj (hr.thread.symm.trans hi)
      exact hr.serves.worker
  · obtain hr | ⟨j, v, hr⟩ := hcaller
    · obtain hstarted | hthread := hopen
      · exact absurd (hstarted.symm.trans hr.started) nofun
      · rw [hr.thread] at hthread
        cases hthread
    · refine ⟨v, ?_, hr.serves.state⟩
      rw [List.getLast?_eq_getElem?, ← hr.serves.last]
      exact hr.serves.get

/-- Every accepted task has been begun, or is queued for a worker that is in its loop. -/
def Kept (b : DefaultInstanceExecutionBackend α) : Prop :=
  ∀ (i : Nat) w, b.workers[i]? = some w →
    if w.pc.InLoop then w.accepted = w.begun ++ (b.states w.state).tasks else w.accepted = w.begun

/-- If a stop has returned true, the worker of the start cycle has left its loop. -/
def Stopped (s : StoppingBackend α) : Prop :=
  ∀ call ∈ s.stops, call.result = some true → CycleLeft s.backend

/-- **Concurrent stops are safe** in a run in which every stop that does not wait for the worker finds it
out of its loop: then every stop that returned true did, and no accepted task is discarded. The run is one
of any number of stops, of the workers and of `execute` calls, from any state between two lifecycle
calls. -/
theorem run_stops {as : List (Act α)} {b : DefaultInstanceExecutionBackend α}
    (hb : (DefaultInstanceExecutionBackend.machine α).run {} as = some b) (hidle : b.caller = .idle)
    {bs : List (StopAct α)} {s : StoppingBackend α} (hok : (machine α).Along Patient { backend := b } bs)
    (h : (machine α).run { backend := b } bs = some s) : Stopped s ∧ Kept s.backend := by
  have hsafe : Safe s := Lts.Machine.along_inv (I := Safe) (fun _ _ _ hs hok ht => step_safe hs hok ht)
    (.of_inv (DefaultInstanceExecutionBackend.run_inv hb) hidle) hok h
  refine ⟨fun call hc => (hsafe.call call hc).returned, fun i w hi => ?_⟩
  have hw := hsafe.worker i w hi
  split_ifs with hl
  · exact (hw.inLoop hl).2
  · exact hw.left hl

/-- A cycle has been started. -/
def startActs : List (Act Nat) := [.start, .createThread none, .setStarted]

/-- Two stops; the second takes its turn when the worker has left its loop. -/
def patientActs : List (StopAct Nat) :=
  [.execute (some 7), .lock 0, .stop, .stop, .work 0, .work 0, .work 0, .next 1, .work 0, .next 0, .next 0,
    .next 0]

theorem run_stops_patient : ∃ b s, (DefaultInstanceExecutionBackend.machine Nat).run {} startActs = some b ∧
    (machine Nat).run { backend := b } patientActs = some s ∧ s.stops.map StopCall.result =
      [some true, some true] ∧ Stopped s ∧ Kept s.backend := by
  have hb : ∃ b, (DefaultInstanceExecutionBackend.machine Nat).run {} startActs = some b := ⟨_, rfl⟩
  obtain ⟨_, ⟨⟩⟩ := hb
  exact ⟨_, _, rfl, rfl, rfl, @run_stops Nat startActs _ rfl rfl patientActs _ (by decide) rfl⟩

/-- Two stops; the second does not wait for the worker. -/
def hastyActs : List (StopAct Nat) := [.execute (some 7), .lock 0, .stop, .stop, .next 1]

/-- The second stop returns true with the worker in its loop and the task gone. -/
theorem run_stops_discards :
    (¬∀ (as : List (Act Nat)) (b : DefaultInstanceExecutionBackend Nat) (bs : List (StopAct Nat))
        (s : StoppingBackend Nat), (DefaultInstanceExecutionBackend.machine Nat).run {} as = some b →
      b.caller = .idle → (machine Nat).run { backend := b } bs = some s → Stopped s) ∧
    ¬∀ (as : List (Act Nat)) (b : DefaultInstanceExecutionBackend Nat) (bs : List (StopAct Nat))
        (s : StoppingBackend Nat), (DefaultInstanceExecutionBackend.machine Nat).run {} as = some b →
      b.caller = .idle → (machine Nat).run { backend := b } bs = some s → Kept s.backend := by
  constructor
  · intro hall
    have hstopped := hall startActs _ hastyActs _ rfl rfl rfl
    exact hstopped _ (.tail _ (.head _)) rfl _ rfl ⟨nofun, nofun⟩
  · intro hall
    have hkept := hall startActs _ hastyActs _ rfl rfl rfl 0 _ rfl
    rw [if_pos ⟨nofun, nofun⟩] at hkept
    cases hkept

end StoppingBackend

end Phi.Host
