import PhiSidecar.Host.Replies

/-!
# Start and stop of the host (`sidecar.cpp`: `SidecarHost::start`, `stop`, `shutdownFactoryExecution`)

The constructor binds the factory's result submitter, `stop` unbinds it, and `start` does not bind it
again. `hostRequestStop` raises a flag of the factory that nothing lowers; for an instance `hostStart`
lowers it ("A restarted instance must not inherit a stale stop request"). So what a start gives
depends on the calls before it.

* `start_works_iff`: **after a start that returns true the factory can send results and has not been
  asked to stop, if and only if there was no `stop` before and no start that failed in the dispatcher**.

In between the queues and the registry of instances take their own steps.
-/

set_option autoImplicit false

namespace Phi.Host

open Phi.V1 Phi.Wire Phi.Dispatcher

/-- The factory, as far as the host changes it. -/
structure AdapterFactory where
  /-- `m_actionResultSubmitter` is bound. -/
  submitter : Bool := false
  stopRequested : Bool := false
  deriving DecidableEq

def AdapterFactory.bindResultSubmitter (f : AdapterFactory) (submitter : Bool) : AdapterFactory :=
  { f with submitter }

def AdapterFactory.hostRequestStop (f : AdapterFactory) : AdapterFactory := { f with stopRequested := true }

structure HostControl where
  factory : Option AdapterFactory
  /-- `m_factoryExecution` is set. -/
  factoryExecution : Bool := false
  factoryActive : Bool := false
  queues : HostQueues := {}
  lifecycle : Lifecycle := {}
  /-- Calls of `hostOnProtocolError` from these functions. -/
  protocolErrors : List Utf8String := []

/-- What the factory's backend answers in `shutdownFactoryExecution`. -/
structure ShutdownAnswers where
  execute : Except Utf8String Unit := .ok ()
  stop : Except Utf8String Unit := .ok ()

/-- What is answered to `start`: the start of the backend, if the factory makes one, and the start of
the dispatcher. -/
structure StartAnswers where
  execution : Option (Except Utf8String Unit) := none
  dispatcher : Except Utf8String Unit := .ok ()
  shutdown : ShutdownAnswers := {}

end Phi.Host

namespace Phi.Dispatcher.SidecarDispatcher

variable {τ : Type}

def start (s : SidecarDispatcher τ) (result : Except Bytes Unit) : SidecarDispatcher τ :=
  { s with runtime := s.runtime.stop, started := s.started || Host.Lifecycle.isOk result }

def stop (s : SidecarDispatcher τ) : SidecarDispatcher τ :=
  { s with
    started := false, sendQueue := [], runtime := s.runtime.stop
    history.lost := s.history.lost ++ s.sendQueue.map Loss.cleared }

theorem start_run (s : SidecarDispatcher τ) (result : Except Bytes Unit) :
    (machine τ).run s [.start result] = some (s.start result) := by
  cases result with
  | ok => simp [Lts.Machine.run_cons, machine, step, start, Host.Lifecycle.isOk]
  | error => simp [Lts.Machine.run_cons, machine, step, start, Host.Lifecycle.isOk]

theorem stop_run (s : SidecarDispatcher τ) : (machine τ).run s [.stop, .stopRuntime] = some s.stop := rfl

end Phi.Dispatcher.SidecarDispatcher

namespace Phi.Host

open Phi.V1 Phi.Wire Phi.Dispatcher

namespace HostControl

variable {s t : HostControl}

/-- The constructors. -/
def construct (hasFactory : Bool) : HostControl :=
  { factory := if hasFactory then some (AdapterFactory.bindResultSubmitter {} true) else none }

def hostOnProtocolError (s : HostControl) (message : Utf8String) : HostControl :=
  { s with protocolErrors := s.protocolErrors ++ [message] }

/-- `executeOnFactory`: without a backend the task runs here. -/
def executeOnFactory (s : HostControl) (answer : Except Utf8String Unit) : Except Utf8String Unit :=
  if s.factoryExecution then answer else .ok ()

/-- The first half of `shutdownFactoryExecution`. -/
def requestFactoryStop (s : HostControl) (answer : Except Utf8String Unit) : HostControl :=
  match s.factory with
  | none => s
  | some factory =>
    let s := { s with factory := some factory.hostRequestStop }
    match s.executeOnFactory answer with
    | .ok () => s
    | .error scheduleError =>
      s.hostOnProtocolError (lit "Failed to dispatch factory stopping hook: " ++ scheduleError)

/-- The second half: the backend is stopped. -/
def stopFactoryExecution (s : HostControl) (answer : Except Utf8String Unit) : HostControl :=
  if s.factoryExecution then
    let s := { s with factoryExecution := false }
    match answer with
    | .ok () => s
    | .error stopError =>
      if s.factory.isSome then
        s.hostOnProtocolError (lit "Factory execution backend stop timed out: " ++ stopError)
      else s
  else s

def shutdownFactoryExecution (s : HostControl) (a : ShutdownAnswers) : HostControl :=
  if s.factoryActive then
    { s with factoryActive := false }.requestFactoryStop a.execute |>.stopFactoryExecution a.stop
  else s

/-- The first half of `start`: the factory's backend. -/
def activateFactory (s : HostControl) (execution : Option (Except Utf8String Unit)) :
    HostControl × Except Utf8String Unit :=
  if s.factoryActive then (s, .ok ())
  else
    match execution with
    | none => ({ s with factoryActive := true }, .ok ())
    | some (.ok ()) => ({ s with factoryActive := true, factoryExecution := true }, .ok ())
    | some (.error backendError) =>
      (s, .error (lit "Failed to start factory execution backend: " ++ backendError))

def start (s : HostControl) (a : StartAnswers) : HostControl × Except Utf8String Unit :=
  if s.factory.isNone then (s, .error (lit "SidecarHost has no factory"))
  else
    match s.activateFactory a.execution with
    | (s, .error error) => (s, .error error)
    | (s, .ok ()) =>
      let s := { s with queues.dispatcher := s.queues.dispatcher.start a.dispatcher }
      match a.dispatcher with
      | .error error => (s.shutdownFactoryExecution a.shutdown, .error error)
      | .ok () => (s, .ok ())

/-- `stop`, after `stopAndDestroyInstances`. -/
def stop (s : HostControl) (a : ShutdownAnswers) : HostControl :=
  let s := s.shutdownFactoryExecution a
  { s with
    factory := s.factory.map (·.bindResultSubmitter false)
    queues := { s.queues with resultQueue := [], dispatcher := s.queues.dispatcher.stop } }

end HostControl

/-! ## The machine -/

/-- Only `start` and `stop` of the host start and stop its dispatcher. -/
def QueueAct.isTraffic : QueueAct → Bool
  | .net a => a.isTraffic
  | _ => true

inductive ControlAct
  | start (answers : StartAnswers)
  | stop (instances : List (ExternalId × Int × StopAnswers)) (answers : ShutdownAnswers)
  | queue (a : QueueAct)
  | configChanged (request : ConfigChangedRequest) (answers : CreateAnswers)
      (execute : Except Utf8String Unit)
  | instanceRemoved (externalId : ExternalId) (answers : StopAnswers)

namespace HostControl

variable {s t : HostControl}

/-- A step of the registry of instances. -/
def onLifecycle (s : HostControl) (a : LifecycleAct) : Option HostControl :=
  (s.lifecycle.step a).map fun lifecycle => { s with lifecycle }

def step (s : HostControl) : ControlAct → Option HostControl
  | .start answers => some (s.start answers).1
  | .stop instances answers => (s.onLifecycle (.stop instances)).map (·.stop answers)
  | .queue a => if a.isTraffic then (s.queues.step a).map fun queues => { s with queues } else none
  | .configChanged request answers execute => s.onLifecycle (.configChanged request answers execute)
  | .instanceRemoved externalId answers => s.onLifecycle (.instanceRemoved externalId answers)

def machine : Lts.Machine HostControl ControlAct := ⟨step⟩

/-! ## What a start gives -/

/-- What a host promises after `start`: `AdapterFactory::sendResult` takes every result with an id, and
`AdapterFactory::stopRequested()` is false. -/
def Works (s : HostControl) : Prop :=
  ∃ factory, s.factory = some factory ∧ factory.submitter = true ∧ factory.stopRequested = false ∧
    ∀ (caller : Caller) (response : ActionResponse) (now : Int64), response.id ≠ 0 →
      (AdapterFactory.sendResult s.queues factory.submitter caller response now).2 = .ok ()

/-- The factory as the constructor leaves it. -/
def Fresh (s : HostControl) : Prop := s.factory = some ⟨true, false⟩

/-- The start gets as far as the dispatcher. -/
def reachesDispatcher (s : HostControl) (a : StartAnswers) : Bool :=
  s.factory.isSome && (s.factoryActive || a.execution.all Lifecycle.isOk)

/-- The calls after which no start gives a host that works: a `stop`, and a start that fails in the
dispatcher. -/
def Spoils (s : HostControl) : ControlAct → Prop
  | .start a => s.reachesDispatcher a = true ∧ Lifecycle.isOk a.dispatcher = false
  | .stop _ _ => True
  | _ => False

theorem works_iff : s.Works ↔ s.Fresh := by
  constructor
  · rintro ⟨⟨submitter, stopRequested⟩, hf, hs, hr, -⟩
    cases hs
    cases hr
    exact hf
  · intro h
    refine ⟨_, h, rfl, rfl, ?_⟩
    intro caller response now hid
    simp [AdapterFactory.sendResult, hid]

@[simp] theorem hostOnProtocolError_factory (s : HostControl) (message : Utf8String) :
    (s.hostOnProtocolError message).factory = s.factory := rfl

/-- An active factory that is shut down has been asked to stop. -/
theorem shutdownFactoryExecution_active (a : ShutdownAnswers) (h : s.factoryActive = true) :
    (s.shutdownFactoryExecution a).factory = s.factory.map (·.hostRequestStop) := by
  have hstop : ∀ (s : HostControl) (answer : Except Utf8String Unit),
      (s.stopFactoryExecution answer).factory = s.factory := by
    intro s answer
    unfold stopFactoryExecution
    split
    · cases answer with
      | ok => rfl
      | error e =>
        dsimp only
        split <;> rfl
    · rfl
  rw [shutdownFactoryExecution, if_pos h, hstop]
  unfold requestFactoryStop
  cases hf : s.factory with
  | none => rfl
  | some factory =>
    dsimp only
    split <;> rfl

theorem shutdownFactoryExecution_factory (s : HostControl) (a : ShutdownAnswers) :
    ∃ f, (s.shutdownFactoryExecution a).factory = s.factory.map f := by
  cases ha : s.factoryActive with
  | true => exact ⟨_, shutdownFactoryExecution_active a ha⟩
  | false =>
    rw [shutdownFactoryExecution, if_neg (by rw [ha]; nofun)]
    exact ⟨id, Option.map_id_fun.symm ▸ rfl⟩

theorem start_none (hf : s.factory = none) (a : StartAnswers) :
    s.start a = (s, .error (lit "SidecarHost has no factory")) := by
  rw [start, hf]
  rfl

/-- The first half of `start` activates the factory or changes nothing. -/
theorem activateFactory_cases (s : HostControl) (execution : Option (Except Utf8String Unit)) :
    (∃ u, s.activateFactory execution = (u, .ok ()) ∧ u.factory = s.factory ∧ u.factoryActive = true ∧
        (s.factoryActive || execution.all Lifecycle.isOk) = true) ∨
      ∃ e, s.activateFactory execution = (s, .error e) ∧
        (s.factoryActive || execution.all Lifecycle.isOk) = false := by
  unfold activateFactory
  split_ifs with ha
  · exact .inl ⟨s, rfl, rfl, ha, by rw [ha, Bool.true_or]⟩
  · have ha : s.factoryActive = false := Bool.not_eq_true _ ▸ ha
    rcases execution with - | ⟨e | u⟩
    · exact .inl ⟨_, rfl, rfl, rfl, Bool.or_true _⟩
    · exact .inr ⟨_, rfl, by rw [ha]; rfl⟩
    · exact .inl ⟨_, rfl, rfl, rfl, Bool.or_true _⟩

/-- A start that does not fail in the dispatcher leaves the factory as it is. -/
theorem start_factory (s : HostControl) (a : StartAnswers) :
    s.Spoils (.start a) ∧ (s.start a).1.factory = s.factory.map (·.hostRequestStop) ∧
        (s.start a).2 ≠ .ok () ∨
      ¬ s.Spoils (.start a) ∧ (s.start a).1.factory = s.factory := by
  cases hf : s.factory with
  | none =>
    rw [start_none hf]
    exact .inr ⟨fun h => by simp [Spoils, reachesDispatcher, hf] at h, hf⟩
  | some factory =>
    have hstart : s.start a = match s.activateFactory a.execution with
      | (s, .error error) => (s, .error error)
      | (s, .ok ()) =>
        let s := { s with queues.dispatcher := s.queues.dispatcher.start a.dispatcher }
        match a.dispatcher with
        | .error error => (s.shutdownFactoryExecution a.shutdown, .error error)
        | .ok () => (s, .ok ()) := by
      rw [start, hf]
      rfl
    rcases s.activateFactory_cases a.execution with ⟨u, hu, huf, hua, hreach⟩ | ⟨e, he, hreach⟩
    · have hreach : s.reachesDispatcher a = true := by
        rw [reachesDispatcher, hf]
        exact hreach
      rw [hstart, hu]
      cases hd : a.dispatcher with
      | ok =>
        refine .inr ⟨fun h => ?_, ?_⟩
        · rw [Spoils, hd] at h
          cases h.2
        · exact huf.trans hf
      | error e =>
        refine .inl ⟨⟨hreach, by rw [hd]; rfl⟩, ?_, nofun⟩
        rw [← hf, ← huf]
        exact shutdownFactoryExecution_active a.shutdown hua
    · rw [hstart, he]
      refine .inr ⟨fun h => ?_, hf⟩
      rw [Spoils, reachesDispatcher, hreach, Bool.and_false] at h
      cases h.1

theorem onLifecycle_factory {a : LifecycleAct} (h : s.onLifecycle a = some t) :
    t.factory = s.factory := by
  obtain ⟨l, -, rfl⟩ := Option.map_eq_some_iff.1 h
  rfl

/-- **One call**: it leaves the factory as it is, or spoils it. -/
theorem step_factory {a : ControlAct} (h : s.step a = some t) :
    ¬ s.Spoils a ∧ t.factory = s.factory ∨
      s.Spoils a ∧ ∃ f : AdapterFactory → AdapterFactory, t.factory = s.factory.map f ∧
        ∀ factory, f factory ≠ ⟨true, false⟩ := by
  cases a with
  | start a =>
    cases h
    rcases s.start_factory a with ⟨hspoils, hf, -⟩ | hkept
    · refine .inr ⟨hspoils, _, hf, ?_⟩
      intro factory he
      have hflag : true = false := congrArg AdapterFactory.stopRequested he
      cases hflag
    · exact .inl hkept
  | stop instances answers =>
    obtain ⟨u, hu, rfl⟩ := Option.map_eq_some_iff.1 h
    obtain ⟨f, hf⟩ := u.shutdownFactoryExecution_factory answers
    refine .inr ⟨trivial, fun factory => (f factory).bindResultSubmitter false, ?_, ?_⟩
    · rw [← onLifecycle_factory hu]
      simp only [stop, hf, Option.map_map]
      rfl
    · intro factory he
      have hbound : false = true := congrArg AdapterFactory.submitter he
      cases hbound
  | queue a =>
    obtain ⟨-, h⟩ := Option.ite_none_right_eq_some.1 h
    obtain ⟨queues, -, rfl⟩ := Option.map_eq_some_iff.1 h
    exact .inl ⟨id, rfl⟩
  | configChanged request answers execute => exact .inl ⟨id, onLifecycle_factory h⟩
  | instanceRemoved externalId answers => exact .inl ⟨id, onLifecycle_factory h⟩

theorem step_fresh {a : ControlAct} (h : s.step a = some t) : t.Fresh ↔ s.Fresh ∧ ¬ s.Spoils a := by
  rcases step_factory h with ⟨hno, hf⟩ | ⟨hspoils, f, hf, hne⟩
  · rw [Fresh, Fresh, hf, and_iff_left hno]
  · refine iff_of_false (fun hfresh => ?_) fun h => h.2 hspoils
    obtain ⟨factory, -, he⟩ := Option.map_eq_some_iff.1 (hf.symm.trans hfresh)
    exact hne factory he

/-- No call gives the host a factory. -/
theorem step_none {a : ControlAct} (hs : s.factory = none) (h : s.step a = some t) :
    t.factory = none := by
  rcases step_factory h with ⟨-, hf⟩ | ⟨-, f, hf, -⟩
  · exact hf.trans hs
  · rw [hf, hs]
    rfl

/-- A start that returns true leaves the factory as it is, and there is one. -/
theorem start_ok {a : StartAnswers} (h : s.start a = (t, .ok ())) :
    t.factory = s.factory ∧ s.factory.isSome = true := by
  cases hf : s.factory with
  | none =>
    rw [start_none hf] at h
    cases h
  | some factory =>
    refine ⟨?_, rfl⟩
    rcases s.start_factory a with ⟨-, -, herror⟩ | ⟨-, hsame⟩
    · rw [h] at herror
      exact absurd rfl herror
    · rw [← hf, ← hsame, h]

/-- **A start that returns true gives a host that works if and only if** no call before it was a `stop`
or a start that failed in the dispatcher. -/
theorem start_works_iff {hasFactory : Bool} {acts : List ControlAct} {a : StartAnswers}
    (hrun : machine.run (construct hasFactory) acts = some s) (hstart : s.start a = (t, .ok ())) :
    t.Works ↔ machine.Along (fun s act => ¬ s.Spoils act) (construct hasFactory) acts := by
  obtain ⟨hsame, hsome⟩ := start_ok hstart
  have hexact := Lts.Machine.along_iff (I := Fresh) (fun _ _ _ h => step_fresh h) hrun
  cases hasFactory with
  | true =>
    rw [works_iff, Fresh, hsame]
    exact hexact.trans (and_iff_right rfl)
  | false =>
    have hnone : s.factory = none :=
      Lts.Machine.run_inv (I := fun s => s.factory = none) (fun _ _ _ hs h => step_none hs h) rfl hrun
    rw [hnone] at hsome
    cases hsome

/-- A start whose backend fails does not spoil the next one. -/
theorem start_works_retried :
    ∃ t, machine.run (construct true) [.start { execution := some (.error (lit "no thread")) }] =
        some (construct true) ∧
      (construct true).start { execution := some (.ok ()) } = (t, .ok ()) ∧ t.Works := by
  have hrun : machine.run (construct true) [.start { execution := some (.error (lit "no thread")) }] =
      some (construct true) := rfl
  have hstart : (construct true).start { execution := some (.ok ()) } =
      (((construct true).start { execution := some (.ok ()) }).1, .ok ()) := rfl
  refine ⟨_, hrun, hstart, (start_works_iff hrun hstart).2 ?_⟩
  refine ⟨?_, fun _ _ => trivial⟩
  rintro ⟨hreach, -⟩
  cases hreach

/-- After a `stop` the submitter is not bound, and the stop is still requested; after a start that
failed in the dispatcher the stop is requested. -/
theorem start_broken :
    (∃ s t, machine.run (construct true) [.start {}, .stop [] {}] = some s ∧ s.start {} = (t, .ok ()) ∧
      t.factory = some { submitter := false, stopRequested := true } ∧ ¬ t.Works) ∧
    ∃ s t, machine.run (construct true) [.start { dispatcher := .error (lit "bind: Permission denied") }] =
        some s ∧ s.start {} = (t, .ok ()) ∧
      t.factory = some { submitter := true, stopRequested := true } ∧ ¬ t.Works := by
  refine ⟨⟨_, _, rfl, rfl, rfl, fun h => ?_⟩, _, _, rfl, rfl, rfl, fun h => ?_⟩
  · have hfresh : some (AdapterFactory.mk false true) = some ⟨true, false⟩ := works_iff.1 h
    cases hfresh
  · have hfresh : some (AdapterFactory.mk true true) = some ⟨true, false⟩ := works_iff.1 h
    cases hfresh

end HostControl

end Phi.Host
