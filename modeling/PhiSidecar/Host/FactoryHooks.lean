import PhiSidecar.Host.FactoryThread

/-!
# Factory hooks never overlap

While the host has a backend for its factory, or waits for one to stop, that backend's worker is the
only thread that may call hooks (`owner`); without one it is the host thread. A backend that has
stopped has nothing left to run, so the turn goes from one to the next with no hook in progress
(`Inv`). A stop that times out gives up on a worker that may be in a hook, or may have hooks queued, and
the host reports that timeout by a hook of its own.

* `run_serial`: **in a run whose backends stop in time, no two hooks are in progress at once**.
* `run_overlap`: a hook that outlives the stop of its backend overlaps with the report.
-/

set_option autoImplicit false

namespace Phi.Host

open Phi.V1 Phi.Wire Phi.Dispatcher

/-- The worker calls no hook any more, unless it gets another task. -/
structure FactoryWorker.Quiet (w : FactoryWorker) : Prop where
  current : w.thread.current = none
  steps : w.thread.steps = []
  tasks : w.backend.tasks = []

/-- A worker outside its tasks has no steps. -/
structure FactoryWorker.Linked (w : FactoryWorker) : Prop where
  drained : w.backend.Drained
  idle : w.backend.running = none → w.thread.current = none ∧ w.thread.steps = []

theorem FactoryWorker.Linked.quiet {w : FactoryWorker} (h : w.Linked)
    (hx : w.backend.workerExited = true) : w.Quiet := by
  have hp := h.drained.pending hx
  simp only [Backend.pending, List.append_eq_nil_iff, Option.toList_eq_nil_iff] at hp
  obtain ⟨hc, hs⟩ := h.idle hp.1
  exact ⟨hc, hs, hp.2⟩

namespace FactoryHost

variable {s t : FactoryHost}

/-- The backend whose worker calls the hooks. -/
def owner (s : FactoryHost) : Option Nat := s.execution.or s.joining

/-- No two hooks are in progress. -/
def Serial (s : FactoryHost) : Prop :=
  ∀ (a b : HookCaller) (c d : FactoryHookCall),
    s.inProgress a = some c → s.inProgress b = some d → a = b

/-- Whose turn it is to call hooks. -/
structure Turn (s : FactoryHost) : Prop where
  linked : ∀ i, (s.workers i).Linked
  quiet : ∀ i, s.owner ≠ some i → (s.workers i).Quiet
  host : s.owner ≠ none → s.host.current = none ∧ ∀ step ∈ s.host.steps, step = .stopExecution
  accepts : ∀ i, s.execution = some i →
    (s.workers i).backend.started = true ∧ (s.workers i).backend.stopRequested = false
  joining : s.joining ≠ none → s.execution = none

structure Inv (s : FactoryHost) : Prop extends Turn s where
  /-- A host that is done with a shutdown has no backend. -/
  active : s.execution ≠ none → s.factoryActive = true ∨ .stopExecution ∈ s.host.steps

theorem Turn.serial (h : s.Turn) : s.Serial := by
  intro a b c d ha hb
  have hworker : ∀ {i : Nat} {c : FactoryHookCall}, s.inProgress (.worker i) = some c →
      s.owner = some i := by
    intro i c hc
    by_contra hne
    cases hc.symm.trans (h.quiet i hne).current
  have hhost : ∀ {c : FactoryHookCall}, s.inProgress .host = some c → s.owner = none := by
    intro c hc
    by_contra hne
    cases hc.symm.trans (h.host hne).1
  cases a with
  | host =>
    cases b with
    | host => rfl
    | worker j => cases (hhost ha).symm.trans (hworker hb)
  | worker i =>
    cases b with
    | host => cases (hhost hb).symm.trans (hworker ha)
    | worker j =>
      cases (hworker ha).symm.trans (hworker hb)
      rfl

theorem inv_new : Inv {} := by
  refine ⟨⟨fun _ => ⟨.new, fun _ => ⟨rfl, rfl⟩⟩, fun _ _ => ⟨rfl, rfl, rfl⟩, ?_, ?_, fun _ => rfl⟩, ?_⟩
  · intro hne
    exact absurd rfl hne
  · intro i hi
    cases hi
  · intro hne
    exact absurd rfl hne

/-! ## Steps on one worker -/

@[simp] theorem setWorker_self (s : FactoryHost) (i : Nat) (w : FactoryWorker) :
    (s.setWorker i w).workers i = w := Function.update_self ..

theorem setWorker_ne {i j : Nat} (h : j ≠ i) (w : FactoryWorker) :
    (s.setWorker i w).workers j = s.workers j := Function.update_of_ne h ..

theorem setWorker_same (s : FactoryHost) (i : Nat) : s.setWorker i (s.workers i) = s := by
  rw [setWorker, Function.update_eq_self]

/-- A property of all workers, after a step on one. -/
theorem forall_setWorker {P : Nat → FactoryWorker → Prop} {i : Nat} {w : FactoryWorker}
    (h : ∀ j, P j (s.workers j)) (hw : P i w) (j : Nat) : P j ((s.setWorker i w).workers j) := by
  by_cases hj : j = i
  · subst hj
    rw [setWorker_self]
    exact hw
  · rw [setWorker_ne hj]
    exact h j

theorem Turn.setWorker (h : s.Turn) {i : Nat} {w : FactoryWorker} (hlinked : w.Linked)
    (hquiet : s.owner ≠ some i → w.Quiet)
    (haccepts : s.execution = some i → w.backend.started = true ∧ w.backend.stopRequested = false) :
    (s.setWorker i w).Turn :=
  ⟨forall_setWorker (P := fun _ w => w.Linked) h.linked hlinked,
    forall_setWorker (P := fun j w => s.owner ≠ some j → w.Quiet) h.quiet hquiet, h.host,
    forall_setWorker (P := fun j w => s.execution = some j →
      w.backend.started = true ∧ w.backend.stopRequested = false) h.accepts haccepts,
    h.joining⟩

/-! ## Calls of the host thread -/

/-- What a handler leaves as it is. -/
structure Same (s t : FactoryHost) : Prop where
  execution : t.execution = s.execution
  joining : t.joining = s.joining
  active : t.factoryActive = s.factoryActive
  steps : ∀ step ∈ s.host.steps, step ∈ t.host.steps

theorem Same.refl (s : FactoryHost) : s.Same s := ⟨rfl, rfl, rfl, fun _ h => h⟩

theorem Inv.same (h : s.Inv) (ht : t.Turn) (hsame : s.Same t) : t.Inv := by
  refine ⟨ht, fun hne => ?_⟩
  rw [hsame.execution] at hne
  rcases h.active hne with ha | hstop
  · exact .inl (hsame.active.trans ha)
  · exact .inr (hsame.steps _ hstop)

theorem Turn.runHost (h : s.Turn) (ho : s.owner = none) (steps : List FactoryStep) :
    (s.runHere .host steps).Turn :=
  ⟨h.linked, h.quiet, fun hne => absurd ho hne, h.accepts, h.joining⟩

theorem same_runHost (s : FactoryHost) (steps : List FactoryStep) : s.Same (s.runHere .host steps) :=
  ⟨rfl, rfl, rfl, fun _ hstep => List.mem_append_left _ hstep⟩

/-- A task in the queue of a backend that accepts tasks. -/
theorem Turn.push (h : s.Turn) {i : Nat} (hi : s.execution = some i) (task : List FactoryStep) :
    ∃ t, s.setWorker i { s.workers i with backend := ((s.workers i).backend.execute task).1 } = t ∧
      ((s.workers i).backend.execute task).2 = .ok () ∧ t.Turn ∧ s.Same t := by
  obtain ⟨hstarted, hstop⟩ := h.accepts i hi
  have howner : s.owner = some i := by rw [owner, hi, Option.some_or]
  refine ⟨_, rfl, by simp [Backend.execute, hstarted, hstop], ?_, rfl, rfl, rfl, fun _ h => h⟩
  refine h.setWorker ⟨(h.linked i).drained.execute task, fun hr => ?_⟩
    (fun hne => absurd howner hne) fun _ => ?_
  · exact (h.linked i).idle (by simpa [Backend.execute, hstarted, hstop] using hr)
  · simp [Backend.execute, hstarted, hstop]

/-- No task of the host thread is refused. -/
theorem Turn.executeOnFactory (h : s.Turn) (hj : s.joining = none) (task : List FactoryStep) :
    ∃ t, s.executeOnFactory .host task = (t, .ok ()) ∧ t.Turn ∧ s.Same t := by
  unfold FactoryHost.executeOnFactory
  cases hi : s.execution with
  | none =>
    have howner : s.owner = none := by rw [owner, hi, hj, Option.none_or]
    exact ⟨_, rfl, h.runHost howner task, s.same_runHost task⟩
  | some i =>
    obtain ⟨t, ht, hok, hturn, hsame⟩ := h.push hi task
    refine ⟨t, ?_, hturn, hsame⟩
    rw [← ht, ← hok]

theorem Turn.report (h : s.Turn) (hj : s.joining = none) (message : Utf8String) :
    (s.reportProtocolError .host message).Turn ∧ s.Same (s.reportProtocolError .host message) := by
  obtain ⟨t, ht, hturn⟩ := h.executeOnFactory hj [.call (.protocolError message)]
  rw [reportProtocolError, ht]
  exact hturn

theorem Turn.connection (h : s.Turn) (hj : s.joining = none) (call : FactoryHookCall) (failed : String) :
    (s.onConnection call failed).Turn ∧ s.Same (s.onConnection call failed) := by
  obtain ⟨t, ht, hturn⟩ := h.executeOnFactory hj [.call call]
  rw [onConnection, ht]
  exact hturn

theorem Turn.request (h : s.Turn) (hj : s.joining = none) (r : Route) :
    (s.request r).Turn ∧ s.Same (s.request r) := by
  cases r with
  | refused refusal =>
    cases refusal with
    | reply result => exact ⟨h, .refl s⟩
    | report message => exact h.report hj message
  | factory hook failed =>
    obtain ⟨t, ht, hturn⟩ := h.executeOnFactory hj (task hook)
    rw [FactoryHost.request, factoryHook, ht]
    exact hturn
  | config request => exact ⟨h, .refl s⟩
  | runtime externalId hook failed => exact ⟨h, .refl s⟩
  | remove externalId => exact ⟨h, .refl s⟩

/-- A state without a backend to wait for or to use: the host may do anything. -/
theorem Turn.free (h : s.Turn) (ho : s.owner = none) (host : HookThread) : Inv { s with host } := by
  have hi : s.execution = none := (Option.or_eq_none_iff.1 ho).1
  exact ⟨⟨h.linked, h.quiet, fun hne => absurd ho hne, h.accepts, h.joining⟩, fun hne => absurd hi hne⟩

/-- A host thread that has a hook to call, is in one or replies, has no backend. -/
theorem Inv.owner_none (h : s.Inv)
    (hbusy : s.host.current ≠ none ∨ ∃ step ∈ s.host.steps, step ≠ .stopExecution) :
    s.owner = none := by
  by_contra hne
  obtain ⟨hc, hs⟩ := h.host hne
  rcases hbusy with hb | ⟨step, hmem, hstep⟩
  · exact hb hc
  · exact hstep (hs step hmem)

theorem Inv.opened (h : s.Inv) (opened : Bool) : Inv { s with opened } :=
  ⟨⟨h.linked, h.quiet, h.host, h.accepts, h.joining⟩, h.active⟩

theorem isIdle_iff (s : FactoryHost) :
    s.isIdle = true ↔ s.host.current = none ∧ s.host.steps = [] ∧ s.joining = none := by
  simp [isIdle, HookThread.isIdle, and_assoc]

/-! ## Start and stop -/

theorem Inv.shutdown (h : s.Inv) (hj : s.joining = none) : s.shutdownFactoryExecution.Inv := by
  unfold shutdownFactoryExecution
  split
  · have hturn : Turn { s with factoryActive := false } :=
      ⟨h.linked, h.quiet, h.host, h.accepts, h.joining⟩
    obtain ⟨t, ht, hturn, -⟩ := hturn.executeOnFactory hj [.call .stopping]
    dsimp only
    rw [ht]
    refine ⟨⟨hturn.linked, hturn.quiet, fun hne => ?_, hturn.accepts, hturn.joining⟩, fun _ => ?_⟩
    · obtain ⟨hc, hs⟩ := hturn.host hne
      refine ⟨hc, fun step hstep => ?_⟩
      rcases List.mem_append.1 hstep with hold | hnew
      · exact hs step hold
      · exact List.mem_singleton.1 hnew
    · exact .inr (List.mem_append_right _ (List.mem_singleton.2 rfl))
  · exact h

/-- The backend that a start makes is the only one that is not quiet. -/
theorem Inv.activate (h : s.Inv) (hidle : s.isIdle = true) {execution : Except Utf8String Unit}
    {r : Except Utf8String Unit} (ht : s.activateFactory execution = (t, r)) :
    t.Inv ∧ t.isIdle = true := by
  obtain ⟨hc, hs, hj⟩ := s.isIdle_iff.1 hidle
  unfold activateFactory at ht
  split_ifs at ht with ha
  · cases ht
    exact ⟨h, hidle⟩
  · cases execution with
    | error e =>
      cases ht
      exact ⟨h, hidle⟩
    | ok =>
      cases ht
      have hi : s.execution = none := by
        by_contra hne
        rcases h.active hne with hactive | hstop
        · exact ha hactive
        · rw [hs] at hstop
          cases hstop
      have howner : s.owner = none := by rw [owner, hi, hj, Option.none_or]
      refine ⟨⟨⟨?_, ?_, ?_, ?_, ?_⟩, fun _ => .inl rfl⟩, hidle⟩
      · exact forall_setWorker (P := fun _ w => w.Linked) h.linked ⟨.afterStart, fun _ => ⟨rfl, rfl⟩⟩
      · intro j hne
        have hj : j ≠ s.created := fun he => hne (by rw [he]; rfl)
        have hold : (s.workers j).Quiet := h.quiet j (by rw [howner]; exact nofun)
        exact (setWorker_ne hj _).symm ▸ hold
      · intro _
        refine ⟨hc, fun step hstep => ?_⟩
        rw [show ({ s.setWorker s.created { backend := .afterStart } with
          created := s.created + 1, execution := some s.created,
          factoryActive := true } : FactoryHost).host.steps = [] from hs] at hstep
        cases hstep
      · intro j hj
        cases hj
        exact (setWorker_self s s.created _).symm ▸ ⟨rfl, rfl⟩
      · intro hne
        exact absurd hj hne

theorem Inv.start (h : s.Inv) (hidle : s.isIdle = true) (execution dispatcher : Except Utf8String Unit) :
    (s.start execution dispatcher).Inv := by
  unfold FactoryHost.start
  split
  · next u e hu => exact (h.activate hidle hu).1
  · next u hu =>
    obtain ⟨hinv, hidle⟩ := h.activate hidle hu
    split
    · exact hinv.opened true
    · exact (hinv.opened false).shutdown (u.isIdle_iff.1 hidle).2.2

/-- The turn stays with the worker of the backend that is asked to stop. -/
theorem Inv.stopExecution (h : s.Inv) {steps : List FactoryStep}
    (hs : s.host.steps = .stopExecution :: steps) (hj : s.joining = none) :
    Inv { s with host.steps := steps }.stopExecution := by
  unfold FactoryHost.stopExecution
  split
  · next hi =>
    have howner : s.owner = none := by rw [owner, hj, Option.or_none]; exact hi
    exact h.free howner _
  · next i hi =>
    have howner : s.owner = some i := by rw [owner, hj, Option.or_none]; exact hi
    refine ⟨⟨?_, ?_, ?_, nofun, fun _ => rfl⟩, fun hne => absurd rfl hne⟩
    · exact forall_setWorker (P := fun _ w => w.Linked) h.linked
        ⟨(h.linked i).drained.requestStop, (h.linked i).idle⟩
    · intro j hne
      have hji : j ≠ i := fun he => hne (by rw [he]; rfl)
      have hold : (s.workers j).Quiet := h.quiet j (by rw [howner]; exact fun he => hji (Option.some.inj he).symm)
      exact (setWorker_ne hji _).symm ▸ hold
    · intro _
      obtain ⟨hc, hsteps⟩ := h.host (by rw [howner]; exact nofun)
      exact ⟨hc, fun step hstep => hsteps step (hs ▸ List.mem_cons_of_mem _ hstep)⟩

/-- All workers are quiet once the one that was waited for is. -/
theorem Turn.release (h : s.Turn) {i : Nat} (hi : s.joining = some i) {w : FactoryWorker}
    (hlinked : w.Linked) (hquiet : w.Quiet) : Turn { s.setWorker i w with joining := none } := by
  have hexec : s.execution = none := h.joining (by rw [hi]; exact nofun)
  have howner : s.owner = some i := by rw [owner, hexec, hi, Option.none_or]
  refine ⟨forall_setWorker (P := fun _ w => w.Linked) h.linked hlinked, ?_, ?_, ?_, fun hne => absurd rfl hne⟩
  · intro j _
    by_cases hj : j = i
    · subst hj
      exact (setWorker_self s j w).symm ▸ hquiet
    · have hold : (s.workers j).Quiet := h.quiet j (by rw [howner]; exact fun he => hj (Option.some.inj he).symm)
      exact (setWorker_ne hj w).symm ▸ hold
  · intro hne
    exact absurd (by rw [owner]; exact (congrArg (Option.or · none) hexec)) hne
  · intro j hj
    cases hexec.symm.trans hj

/-! ## Steps of a worker -/

/-- A worker that has a hook to call, is in one or replies: it is its turn, within a task. -/
theorem Turn.busy (h : s.Turn) {i : Nat}
    (hbusy : (s.workers i).thread.current = none → (s.workers i).thread.steps ≠ []) :
    s.owner = some i ∧ (s.workers i).backend.running ≠ none := by
  constructor
  · by_contra hne
    obtain ⟨hc, hs, -⟩ := h.quiet i hne
    exact hbusy hc hs
  · intro hr
    obtain ⟨hc, hs⟩ := (h.linked i).idle hr
    exact hbusy hc hs

/-- The thread of a worker whose turn it is goes on within its task. -/
theorem Turn.setThread (h : s.Turn) {i : Nat} (howner : s.owner = some i)
    (hrun : (s.workers i).backend.running ≠ none) (u : HookThread) :
    (s.setThread (.worker i) u).Turn :=
  h.setWorker ⟨(h.linked i).drained, fun hr => absurd hr hrun⟩ (fun hne => absurd howner hne)
    (h.accepts i)

theorem same_setThread (s : FactoryHost) (i : Nat) (u : HookThread) :
    s.Same (s.setThread (.worker i) u) := ⟨rfl, rfl, rfl, fun _ h => h⟩

/-- The failure of a reply: queued behind the task, or reported within it once the host has taken the
backend away. -/
theorem Turn.reportWorker (h : s.Turn) {i : Nat} (howner : s.owner = some i)
    (hrun : (s.workers i).backend.running ≠ none) (message : Utf8String) :
    (s.reportProtocolError (.worker i) message).Turn ∧
      s.Same (s.reportProtocolError (.worker i) message) := by
  unfold reportProtocolError FactoryHost.executeOnFactory
  cases hi : s.execution with
  | none => exact ⟨h.setThread howner hrun _, s.same_setThread i _⟩
  | some j =>
    obtain ⟨t, ht, hok, hturn⟩ := h.push hi [.call (.protocolError message)]
    dsimp only
    rw [ht, hok]
    exact hturn

theorem Inv.setThread (h : s.Inv) {i : Nat} (u : HookThread)
    (hbusy : (s.workers i).thread.current = none → (s.workers i).thread.steps ≠ []) :
    (s.setThread (.worker i) u).Inv := by
  obtain ⟨howner, hrun⟩ := h.busy hbusy
  exact h.same (h.toTurn.setThread howner hrun u) (s.same_setThread i u)

theorem hookBegins_busy {t u : HookThread} (h : t.hookBegins = some u) :
    t.current = none ∧ ∃ call steps, t.steps = .call call :: steps := by
  unfold HookThread.hookBegins at h
  split at h
  · next call steps hc hs => exact ⟨hc, call, steps, hs⟩
  · cases h

theorem replies_busy {t u : HookThread} (h : t.replies = some u) :
    t.current = none ∧ ∃ request steps, t.steps = .reply request :: steps := by
  unfold HookThread.replies at h
  split at h
  · next request steps hc hs => exact ⟨hc, request, steps, hs⟩
  · cases h

theorem hookReturns_busy {t u : HookThread} (h : t.hookReturns = some u) : t.current ≠ none := by
  unfold HookThread.hookReturns at h
  split at h
  · cases h
  · next hc =>
    rw [hc]
    exact nofun

theorem hookThrows_busy {t u : HookThread} (h : t.hookThrows = some u) : t.current ≠ none := by
  unfold HookThread.hookThrows at h
  split at h
  · cases h
  · next hc =>
    rw [hc]
    exact nofun

/-- The end of a bootstrap task on a worker. -/
theorem Inv.repliesWorker (h : s.Inv) {i : Nat} {result : Except Utf8String Unit}
    (ht : s.replies (.worker i) result = some t) : t.Inv := by
  obtain ⟨u, hu, rfl⟩ := Option.map_eq_some_iff.1 ht
  obtain ⟨-, request, steps, hs⟩ := replies_busy hu
  have hbusy : (s.workers i).thread.current = none → (s.workers i).thread.steps ≠ [] := by
    intro _ hnil
    cases hnil.symm.trans hs
  obtain ⟨howner, hrun⟩ := h.busy hbusy
  have hinv := h.setThread u hbusy
  cases result with
  | ok => exact hinv
  | error e =>
    have hrun' : ((s.setThread (.worker i) u).workers i).backend.running ≠ none := by
      rw [FactoryHost.setThread, setWorker_self]
      exact hrun
    obtain ⟨hturn, hsame⟩ := hinv.reportWorker (s := s.setThread (.worker i) u) howner hrun'
      (lit "Failed to send bootstrap descriptor: " ++ e)
    exact hinv.same hturn hsame

theorem Inv.workerStep (h : s.Inv) {i : Nat} {step : WorkerStep} (ht : s.workerStep i step = some t) :
    t.Inv := by
  have hset : ∀ {w : FactoryWorker}, w.Linked → (s.owner ≠ some i → w.Quiet) →
      w.backend.started = (s.workers i).backend.started →
      w.backend.stopRequested = (s.workers i).backend.stopRequested → (s.setWorker i w).Inv := by
    intro w hlinked hquiet hstarted hstop
    refine h.same (h.setWorker hlinked hquiet fun hi => ?_) ⟨rfl, rfl, rfl, fun _ h => h⟩
    rw [hstarted, hstop]
    exact h.accepts i hi
  cases step with
  | take =>
    obtain ⟨-, ht⟩ := Option.ite_none_right_eq_some.1 ht
    obtain ⟨b, hb, rfl⟩ := Option.map_eq_some_iff.1 ht
    have hdrained := Backend.Drained.take hb
    obtain ⟨task, tasks, -, -, htasks, rfl⟩ := Backend.take_cases hb
    refine hset ⟨hdrained, nofun⟩ (fun hne => ?_) rfl rfl
    cases (h.quiet i hne).tasks.symm.trans htasks
  | hookBegins =>
    obtain ⟨u, hu, rfl⟩ := Option.map_eq_some_iff.1 ht
    obtain ⟨-, call, steps, hs⟩ := hookBegins_busy hu
    apply h.setThread
    intro _ hnil
    cases hnil.symm.trans hs
  | hookReturns =>
    obtain ⟨u, hu, rfl⟩ := Option.map_eq_some_iff.1 ht
    exact h.setThread u fun hc => absurd hc (hookReturns_busy hu)
  | hookThrows =>
    obtain ⟨u, hu, rfl⟩ := Option.map_eq_some_iff.1 ht
    exact h.setThread u fun hc => absurd hc (hookThrows_busy hu)
  | replies result => exact h.repliesWorker ht
  | finish =>
    obtain ⟨hidle, ht⟩ := Option.ite_none_right_eq_some.1 ht
    cases ht
    simp only [HookThread.isIdle, Bool.and_eq_true, Option.isNone_iff_eq_none, List.isEmpty_iff] at hidle
    refine hset ⟨(h.linked i).drained.finish, fun _ => hidle.1⟩ (fun hne => ?_) rfl rfl
    obtain ⟨hc, hs, htasks⟩ := h.quiet i hne
    exact ⟨hc, hs, htasks⟩
  | exit =>
    obtain ⟨b, hb, rfl⟩ := Option.map_eq_some_iff.1 ht
    have hdrained := Backend.Drained.exit hb
    obtain ⟨-, -, rfl⟩ := Backend.exit_cases hb
    refine hset ⟨hdrained, (h.linked i).idle⟩ (fun hne => ?_) rfl rfl
    obtain ⟨hc, hs, htasks⟩ := h.quiet i hne
    exact ⟨hc, hs, htasks⟩

/-! ## Runs -/

/-- The stop of a backend does not give up on a worker with a hook running or left to run. -/
def InTime (s : FactoryHost) : FactoryAct → Prop
  | .timeout => ∀ i, s.joining = some i → (s.workers i).Quiet
  | _ => True

/-- **One step keeps the turn**. -/
theorem step_inv (h : s.Inv) {a : FactoryAct} (hok : s.InTime a) (ht : s.step a = some t) : t.Inv := by
  have hidle : s.isIdle = true → s.joining = none := fun hidle => (s.isIdle_iff.1 hidle).2.2
  cases a with
  | start execution dispatcher =>
    obtain ⟨hi, ht⟩ := Option.ite_none_right_eq_some.1 ht
    cases ht
    exact h.start hi execution dispatcher
  | stop =>
    obtain ⟨hi, ht⟩ := Option.ite_none_right_eq_some.1 ht
    cases ht
    exact (h.opened false).shutdown (hidle hi)
  | connected =>
    obtain ⟨hi, ht⟩ := Option.ite_none_right_eq_some.1 ht
    cases ht
    obtain ⟨hturn, hsame⟩ := h.connection (hidle (Bool.and_eq_true_iff.1 hi).1) .connected _
    exact h.same hturn hsame
  | disconnected =>
    obtain ⟨hi, ht⟩ := Option.ite_none_right_eq_some.1 ht
    cases ht
    obtain ⟨hturn, hsame⟩ := h.connection (hidle (Bool.and_eq_true_iff.1 hi).1) .disconnected _
    exact h.same hturn hsame
  | request pluginType call now =>
    obtain ⟨hi, ht⟩ := Option.ite_none_right_eq_some.1 ht
    cases ht
    obtain ⟨hturn, hsame⟩ := h.request (hidle (Bool.and_eq_true_iff.1 hi).1) (route pluginType now call)
    exact h.same hturn hsame
  | report message =>
    obtain ⟨hi, ht⟩ := Option.ite_none_right_eq_some.1 ht
    cases ht
    obtain ⟨hturn, hsame⟩ := h.report (hidle hi) message
    exact h.same hturn hsame
  | hookBegins =>
    obtain ⟨-, ht⟩ := Option.ite_none_right_eq_some.1 ht
    obtain ⟨u, hu, rfl⟩ := Option.map_eq_some_iff.1 ht
    obtain ⟨-, call, steps, hs⟩ := hookBegins_busy hu
    refine h.free (h.owner_none (.inr ⟨.call call, ?_, nofun⟩)) u
    rw [hs]
    exact .head _
  | hookReturns =>
    obtain ⟨-, ht⟩ := Option.ite_none_right_eq_some.1 ht
    obtain ⟨u, hu, rfl⟩ := Option.map_eq_some_iff.1 ht
    exact h.free (h.owner_none (.inl (hookReturns_busy hu))) u
  | replies result =>
    obtain ⟨hj, ht⟩ := Option.ite_none_right_eq_some.1 ht
    obtain ⟨u, hu, rfl⟩ := Option.map_eq_some_iff.1 ht
    obtain ⟨-, request, steps, hs⟩ := replies_busy hu
    have hinv : Inv { s with host := u } := by
      refine h.free (h.owner_none (.inr ⟨.reply request, ?_, nofun⟩)) u
      rw [show s.host.steps = _ from hs]
      exact .head _
    cases result with
    | ok => exact hinv
    | error e =>
      obtain ⟨hturn, hsame⟩ := hinv.report (Option.isNone_iff_eq_none.1 hj)
        (lit "Failed to send bootstrap descriptor: " ++ e)
      exact hinv.same hturn hsame
  | stopExecution =>
    simp only [step] at ht
    split at ht
    · next hc hs hj =>
      cases ht
      exact h.stopExecution hs hj
    · cases ht
  | joined =>
    simp only [step] at ht
    split at ht
    · cases ht
    · next i hi =>
      split at ht
      · next hx =>
        cases ht
        have hlinked := h.linked i
        obtain ⟨hc, hs, -⟩ := hlinked.quiet hx
        exact ⟨h.release hi ⟨hlinked.drained.stopped, hlinked.idle⟩ ⟨hc, hs, rfl⟩,
          fun hne => absurd (h.joining (by rw [hi]; exact nofun)) hne⟩
      · cases ht
  | timeout =>
    simp only [step] at ht
    split at ht
    · cases ht
    · next i hi =>
      split at ht
      · cases ht
      · cases ht
        have hturn := h.release hi (h.linked i) (hok i hi)
        rw [setWorker_same] at hturn
        have hexec : s.execution = none := h.joining (by rw [hi]; exact nofun)
        exact hturn.free (by rw [owner]; exact congrArg (Option.or · none) hexec) _
  | worker i step => exact h.workerStep ht

/-- **Factory hooks never overlap** in a run in which no stop of a backend gives up on a worker with a
hook running or left to run. -/
theorem run_serial {acts : List FactoryAct} (h : machine.run {} acts = some s)
    (hok : machine.Along InTime {} acts) : s.Serial := by
  have hinv : s.Inv := Lts.Machine.along_inv (I := Inv) (fun _ _ _ hs hok ht => step_inv hs hok ht) inv_new hok h
  exact hinv.serial

/-- A bootstrap whose reply fails while the host stops the backend, which waits for it. -/
def stoppedRun : List FactoryAct :=
  [.start (.ok ()) (.ok ()), .connected, .request [] (.onBootstrap {}) 0, .worker 0 .take,
    .worker 0 .hookBegins, .stop, .stopExecution, .worker 0 .hookReturns, .worker 0 .finish,
    .worker 0 .take, .worker 0 .hookBegins, .worker 0 .hookReturns,
    .worker 0 (.replies (.error (lit "outbound payload must not be empty"))), .worker 0 .hookBegins,
    .worker 0 .hookReturns, .worker 0 .finish, .worker 0 .take, .worker 0 .hookBegins,
    .worker 0 .hookReturns, .worker 0 .finish, .worker 0 .exit, .joined,
    .start (.ok ()) (.ok ()), .connected, .worker 1 .take, .worker 1 .hookBegins]

theorem run_serial_stopped :
    ∃ s, machine.run {} stoppedRun = some s ∧ (s.inProgress (.worker 1)).isSome ∧ s.Serial := by
  have hrun : (machine.run {} stoppedRun).map (fun s => (s.inProgress (.worker 1)).isSome) = some true := rfl
  obtain ⟨s, hs, hhook⟩ := Option.map_eq_some_iff.1 hrun
  refine ⟨s, hs, hhook, run_serial hs ?_⟩
  simp [stoppedRun, Lts.Machine.Along, InTime]

/-- `onConnected` outlives the budget of `stop`, which reports that by `onProtocolError`. -/
def overlapRun : List FactoryAct :=
  [.start (.ok ()) (.ok ()), .connected, .worker 0 .take, .worker 0 .hookBegins, .stop, .stopExecution,
    .timeout, .hookBegins]

theorem run_overlap : ∃ s, machine.run {} overlapRun = some s ∧ ¬ s.Serial := by
  have hrun : (machine.run {} overlapRun).map (fun s =>
      (s.inProgress .host).isSome && (s.inProgress (.worker 0)).isSome) = some true := rfl
  obtain ⟨s, hs, hhooks⟩ := Option.map_eq_some_iff.1 hrun
  refine ⟨s, hs, fun hserial => ?_⟩
  obtain ⟨hhost, hworker⟩ := Bool.and_eq_true_iff.1 hhooks
  obtain ⟨c, hc⟩ := Option.isSome_iff_exists.1 hhost
  obtain ⟨d, hd⟩ := Option.isSome_iff_exists.1 hworker
  cases hserial _ _ c d hc hd

end FactoryHost

end Phi.Host
