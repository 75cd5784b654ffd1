import PhiSidecar.Host.Registry
import PhiSidecar.Host.SidecarHost

/-!
# The hooks of instances under timeouts (`sidecar.cpp`: `createInstanceRuntime`,
`stopAndDestroyInstance`, `AdapterInstance::hostStart`, `hostStop`)

A host whose instances have default execution backends. The host thread and the threads of the
instances are interleaved; a hook begins, and it returns or throws, in steps of its thread, so it may
take any time. Each of the host's waits (`Wait`) ends when what it waits for has happened, or before
that with a timeout. The start task is the one that has steps inside: `start()` returns, a failure is
reported to the instance, and the result is handed to the host under `startMutex`. A `start()` that takes
too long is rolled back with that mutex locked, so the start task does not come to its end before the
rollback does. (Behind it the mutex is gone; the model lets the task go on then.)

What the host does to its registry is in `Host.Registry`, done when the wait is over. The backend of an
instance that does not stop in time goes on running what it has accepted. `scheduled` and `executed` are
ghost state: what the backend accepted, and the hooks that were called.
-/

set_option autoImplicit false

namespace Phi.Host

open Phi.V1 Phi.Wire Phi.Dispatcher

/-- An instance with its backend. -/
structure InstanceThread where
  backend : Backend Task := {}
  /-- What `start()` has returned. -/
  startResult : Option Bool := none
  /-- The failure of `start()` has been reported to the instance. -/
  reported : Bool := false
  /-- `started`, when `startDone` is set. -/
  startDone : Option Bool := none
  /-- `completion->done`. -/
  stopDone : Bool := false
  scheduled : List Task := []
  executed : List Task := []

/-- A step of the thread of an instance. -/
inductive Work
  /-- The next task begins, and with it its hook. -/
  | take
  | startReturns (ok : Bool)
  /-- `hostOnProtocolError` after a `start()` that returned false. -/
  | report
  /-- The end of the start task. -/
  | startDone
  /-- A hook returns that is not `start()`. -/
  | returns
  | throws
  | exit

/-- The step locks `startMutex`. -/
def Work.locksStart : Work → Bool
  | .startDone => true
  | .take | .startReturns _ | .report | .returns | .throws | .exit => false

namespace InstanceThread

/-- The hook of a start task whose `start()` returned false. -/
def startFailed : Task := .hook (.onProtocolError (lit "Instance start() failed"))

def execute (w : InstanceThread) (task : Task) : InstanceThread × Except Utf8String Unit :=
  match w.backend.execute task with
  | (backend, .ok ()) => ({ w with backend, scheduled := w.scheduled ++ [task] }, .ok ())
  | (backend, .error error) => ({ w with backend }, .error error)

/-- The instance of a backend that has just been started, which accepts the start task. -/
def starting : InstanceThread := (execute { backend := .afterStart } .start).1

def work (w : InstanceThread) : Work → Option InstanceThread
  | .take => w.backend.take.map fun backend =>
      { w with backend, executed := w.executed ++ backend.running.toList }
  | .startReturns ok =>
    match w.backend.running, w.startResult with
    | some .start, none => some { w with startResult := some ok }
    | _, _ => none
  | .report =>
    match w.backend.running, w.startResult, w.reported with
    | some .start, some false, false =>
      some { w with reported := true, executed := w.executed ++ [startFailed] }
    | _, _, _ => none
  | .startDone =>
    match w.backend.running, w.startResult with
    | some .start, some ok =>
      if ok || w.reported then some { w with startDone := some ok, backend := w.backend.finish }
      else none
    | _, _ => none
  | .returns =>
    match w.backend.running with
    | none | some .start => none
    | some task =>
      some { w with backend := w.backend.finish, stopDone := w.stopDone || task = .stop }
  | .throws =>
    match w.backend.running with
    | none => none
    | some .start =>
      if w.startResult = none || w.reported then some { w with backend := w.backend.finish } else none
    | some _ => some { w with backend := w.backend.finish }
  | .exit => w.backend.exit.map fun backend => { w with backend }

end InstanceThread

/-- What the host thread waits for. -/
inductive Wait
  | idle
  /-- The start task of a new instance. -/
  | starting (request : ConfigChangedRequest) (answers : CreateAnswers)
  /-- The `stop` of its backend, when it could not be started. -/
  | rollback (request : ConfigChangedRequest) (answers : CreateAnswers)
  /-- The stop task of an instance. -/
  | stopping (externalId : ExternalId) (i : Nat)
  /-- The `stop` of its backend. -/
  | joining (externalId : ExternalId) (i : Nat)

/-- `threads` has an entry for every instance by its number; the next one is `registry.created.length`. -/
structure TimedHost where
  registry : Registry := {}
  threads : Nat → InstanceThread := fun _ => {}
  wait : Wait := .idle
  /-- What the loop of `stopAndDestroyInstances` has still to remove. -/
  teardown : List ExternalId := []

inductive HookAct
  /-- A `config.changed` for an instance. -/
  | configChanged (request : ConfigChangedRequest) (answers : CreateAnswers)
  | instanceRemoved (externalId : ExternalId)
  /-- `stop`, with the order in which the map is iterated. -/
  | stop (externalIds : List ExternalId)
  /-- The next round of its loop. -/
  | next
  /-- `executeOnRuntime` of any other hook. -/
  | dispatch (externalId : ExternalId) (task : Task)
  /-- `executeOnAllRuntimes`. -/
  | dispatchAll (task : Task)
  | waited
  | timeout
  | work (i : Nat) (w : Work)

namespace TimedHost

/-- `findInstance`. -/
def findInstance (s : TimedHost) (externalId : ExternalId) : Option Nat :=
  (s.registry.findRuntime externalId).bind (·.instance?)

def setThread (s : TimedHost) (i : Nat) (w : InstanceThread) : TimedHost :=
  { s with threads := Function.update s.threads i w }

/-- `execute` of an instance's backend. -/
def execute (s : TimedHost) (i : Nat) (task : Task) : TimedHost :=
  s.setThread i ((s.threads i).execute task).1

def executeOnRuntime (s : TimedHost) (externalId : ExternalId) (task : Task) : TimedHost :=
  match s.findInstance externalId with
  | none => s
  | some i => s.execute i task

def executeOnAllRuntimes (s : TimedHost) (task : Task) : TimedHost :=
  s.registry.hosted.foldl (fun s i => s.execute i task) s

def requestStop (s : TimedHost) (i : Nat) : TimedHost :=
  let w := s.threads i
  s.setThread i { w with backend := w.backend.requestStop }

/-- The end of a `stop` that has waited for the worker. -/
def stopped (s : TimedHost) (i : Nat) : TimedHost :=
  let w := s.threads i
  s.setThread i { w with backend := w.backend.stopped }

/-- `createInstanceRuntime` gets as far as the start task. -/
def startsBackend (s : Registry) (request : ConfigChangedRequest) (a : CreateAnswers) : Bool :=
  request.adapter.externalId ≠ [] && (s.findRuntime request.adapter.externalId).isNone &&
    !(0 < a.maxInstances.toInt && a.maxInstances.toInt ≤ s.instances.length) &&
    a.instanceCreated && a.executionCreated && Lifecycle.isOk a.start

/-- The `onConfigChanged` handler, up to the wait for a new instance. -/
def configChanged (s : TimedHost) (request : ConfigChangedRequest) (a : CreateAnswers) : TimedHost :=
  if (s.registry.findRuntime request.adapter.externalId).isSome then
    s.executeOnRuntime request.adapter.externalId (.hook (.onConfigChanged request))
  else if startsBackend s.registry request a then
    { s.setThread s.registry.created.length .starting with
      wait := .starting request { a with execute := .ok () } }
  else { s with registry := s.registry.ensureInstance request a }

/-- `stopAndDestroyInstance`, up to its first wait. -/
def removeInstance (s : TimedHost) (externalId : ExternalId) : TimedHost :=
  match s.findInstance externalId with
  | none => s
  | some i =>
    match (s.threads i).execute .stop with
    | (w, .ok ()) => { s.setThread i w with wait := .stopping externalId i }
    | (w, .error _) => { (s.setThread i w).requestStop i with wait := .joining externalId i }

/-- A wait that has seen what it waits for. -/
def waited (s : TimedHost) : Option TimedHost :=
  match s.wait with
  | .idle => none
  | .starting request a =>
    let i := s.registry.created.length
    match (s.threads i).startDone with
    | none => none
    | some true =>
      some ({ s with wait := .idle
                     registry := s.registry.ensureInstance request { a with started := some true } }
        |>.executeOnRuntime request.adapter.externalId (.hook (.onConfigChanged request)))
    | some false =>
      some { s.requestStop i with wait := .rollback request { a with started := some false } }
  | .rollback request a =>
    let i := s.registry.created.length
    if (s.threads i).backend.workerExited then
      some { s.stopped i with
        wait := .idle, registry := s.registry.ensureInstance request { a with stop := .ok () } }
    else none
  | .stopping externalId i =>
    if (s.threads i).stopDone then some { s.requestStop i with wait := .joining externalId i } else none
  | .joining externalId i =>
    if (s.threads i).backend.workerExited then
      some { s.stopped i with
        wait := .idle, registry := s.registry.stopAndDestroyInstance externalId { stop := .ok () } }
    else none

/-- What a `stop` of the default backend reports that has not seen the end of its worker. -/
def stopTimedOut : Except Utf8String Unit :=
  .error (lit "Timed out waiting for execution backend stop")

/-- A wait whose time is over. -/
def timeout (s : TimedHost) : Option TimedHost :=
  match s.wait with
  | .idle => none
  | .starting request a =>
    let i := s.registry.created.length
    if (s.threads i).startDone = none then
      some { s.requestStop i with wait := .rollback request { a with started := none } }
    else none
  | .rollback request a =>
    if (s.threads s.registry.created.length).backend.workerExited then none
    else
      some { s with
        wait := .idle, registry := s.registry.ensureInstance request { a with stop := stopTimedOut } }
  | .stopping externalId i =>
    if (s.threads i).stopDone then none else some { s.requestStop i with wait := .joining externalId i }
  | .joining externalId i =>
    if (s.threads i).backend.workerExited then none
    else
      some { s with
        wait := .idle
        registry := s.registry.stopAndDestroyInstance externalId { stop := stopTimedOut } }

/-- The host has `startMutex` of an instance locked: it does not unlock it before the rollback that
follows a timeout of the start task. -/
def startMutexLocked (s : TimedHost) (i : Nat) : Bool :=
  match s.wait with
  | .rollback _ a => a.started.isNone && i = s.registry.created.length
  | .idle | .starting _ _ | .stopping _ _ | .joining _ _ => false

/-- The host thread can handle the next message. -/
def isIdle (s : TimedHost) : Bool :=
  match s.wait, s.teardown with
  | .idle, [] => true
  | _, _ => false

def step (s : TimedHost) : HookAct → Option TimedHost
  | .configChanged request a =>
    if s.isIdle && request.adapter.externalId ≠ [] then some (s.configChanged request a) else none
  | .instanceRemoved externalId =>
    if s.isIdle && externalId ≠ [] then some (s.removeInstance externalId) else none
  | .stop externalIds =>
    if s.isIdle && externalIds.isPerm (s.registry.instances.map Prod.fst) then
      some { s with teardown := externalIds }
    else none
  | .next =>
    match s.wait, s.teardown with
    | .idle, externalId :: rest => some ({ s with teardown := rest }.removeInstance externalId)
    | _, _ => none
  | .dispatch externalId task =>
    if s.isIdle && task ≠ .start && task ≠ .stop then some (s.executeOnRuntime externalId task) else none
  | .dispatchAll task =>
    if s.isIdle && task ≠ .start && task ≠ .stop then some (s.executeOnAllRuntimes task) else none
  | .waited => s.waited
  | .timeout => s.timeout
  | .work i a =>
    if a.locksStart && s.startMutexLocked i then none else ((s.threads i).work a).map (s.setThread i)

def machine : Lts.Machine TimedHost HookAct := ⟨step⟩

end TimedHost

end Phi.Host
