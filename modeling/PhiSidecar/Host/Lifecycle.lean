import PhiSidecar.Dispatcher.Request
import PhiSidecar.Lib.Machine

/-!
# Creating and destroying instances (`sidecar.cpp`: `ensureInstance`, `createInstanceRuntime`,
`stopAndDestroyInstance`, `stopAndDestroyInstances`)

The host thread asks the factory and the execution backends; what they answer, and whether a hook
completes within a wait, comes with the action (`CreateAnswers`, `StopAnswers`), so any backend and
any hook is covered. What the host does to them is appended to `trace`.

An instance is named by its number; its backend has the same one. `instances` is the map, in the
unspecified order of an `unordered_map`. The host has a factory: one without cannot be started.
-/

set_option autoImplicit false

namespace Phi.Host

open Phi.V1 Phi.Wire Phi.Dispatcher

def kExecutionBackendStopTimeout : Int := 3000
def kMinimumStopSlice : Int := 50
def kShutdownBudget : Int := 2000

def atLeastMinimumSlice (value : Int) : Int := max value kMinimumStopSlice

/-- A hook of an instance that is scheduled on its backend. -/
inductive InstanceHook
  | start
  | stop
  | configChanged (request : ConfigChangedRequest)

/-- What the host does to factory, backends and instances. -/
inductive Effect
  | createInstance (i : Nat) (externalId : ExternalId)
  | backendStart (i : Nat)
  | bindContext (i : Nat) (adapterId : Int32) (pluginType : Utf8String) (externalId : ExternalId)
  | backendExecute (i : Nat) (hook : InstanceHook)
  | requestStop (i : Nat)
  /-- The backend was told to stop, within a time, and returned this. -/
  | backendStop (i : Nat) (timeout : Int) (result : Bool)
  | destroyInstance (i : Nat)
  | leakInstance (i : Nat)
  | protocolError (message : Utf8String)

/-- The answers to one call of `createInstanceRuntime`. -/
structure CreateAnswers where
  maxInstances : Int32 := 0
  /-- `hostCreateInstance` and `hostCreateInstanceExecutionBackend` return an object. -/
  instanceCreated : Bool := true
  executionCreated : Bool := true
  start : Except Utf8String Unit := .ok ()
  /-- `execute` of the start task. -/
  execute : Except Utf8String Unit := .ok ()
  /-- What the start task reports within `kInstanceStartTimeout`, if it completes. -/
  started : Option Bool := some true
  /-- `stop` of the backend, in a rollback. -/
  stop : Except Utf8String Unit := .ok ()

/-- The answers to one call of `stopAndDestroyInstance`. -/
structure StopAnswers where
  execute : Except Utf8String Unit := .ok ()
  /-- The stop task completes within its budget. -/
  completed : Bool := true
  stop : Except Utf8String Unit := .ok ()

structure Lifecycle where
  instances : List (ExternalId × Nat) := []
  created : Nat := 0
  trace : List Effect := []

namespace Lifecycle

def emit (s : Lifecycle) (e : Effect) : Lifecycle := { s with trace := s.trace ++ [e] }

def findRuntime (s : Lifecycle) (externalId : ExternalId) : Option Nat := s.instances.lookup externalId

def reportProtocolError (s : Lifecycle) (message : Utf8String) : Lifecycle :=
  s.emit (.protocolError message)

def isOk (r : Except Utf8String Unit) : Bool :=
  match r with
  | .ok () => true
  | .error _ => false

/-- `execution->stop(timeout, &stopError)`, and a report of the error if it returns false. -/
def stopBackend (s : Lifecycle) (i : Nat) (timeout : Int) (answer : Except Utf8String Unit)
    (text : Utf8String) : Lifecycle :=
  let s := s.emit (.backendStop i timeout (isOk answer))
  match answer with
  | .ok () => s
  | .error stopError => s.reportProtocolError (text ++ stopError)

def destroyInstance (s : Lifecycle) (i : Nat) : Lifecycle := s.emit (.destroyInstance i)

/-- A failed start: stop the backend, whatever it answers, and destroy the instance. -/
def rollback (s : Lifecycle) (i : Nat) (answer : Except Utf8String Unit) (text : Utf8String) :
    Lifecycle :=
  (s.stopBackend i kExecutionBackendStopTimeout answer text).destroyInstance i

/-- `createInstanceRuntime` from the call of `hostCreateInstance` on, for the new instance `i`. -/
def createRuntime (s : Lifecycle) (request : ConfigChangedRequest) (a : CreateAnswers) (i : Nat) :
    Lifecycle × Except Utf8String Unit :=
  let externalId := request.adapter.externalId
  let s := s.emit (.createInstance i externalId)
  if !a.executionCreated then
    (s.destroyInstance i, .error (lit "Factory createInstanceExecutionBackend returned null"))
  else
    let s := s.emit (.backendStart i)
    match a.start with
    | .error backendError =>
      (s.destroyInstance i,
        .error (lit "Failed to start instance execution backend: " ++ backendError))
    | .ok () =>
      let s := s.emit (.bindContext i request.adapterId request.adapter.pluginType externalId)
      let s := s.emit (.backendExecute i .start)
      match a.execute with
      | .error backendError =>
        (s.rollback i a.stop (lit "Execution backend stop failed after start scheduling error: "),
          .error (lit "Failed to schedule instance start on execution backend: " ++ backendError))
      | .ok () =>
        match a.started with
        | none =>
          (s.rollback i a.stop (lit "Execution backend stop failed after start timeout: "),
            .error (lit "Timed out waiting for instance start completion for externalId='" ++
              externalId ++ lit "'"))
        | some false =>
          (s.rollback i a.stop (lit "Execution backend stop failed after instance start failure: "),
            .error (lit "Instance start() failed for externalId='" ++ externalId ++ lit "'"))
        | some true =>
          if (s.findRuntime externalId).isSome then
            let s := s.emit (.backendExecute i .stop)
            (s.rollback i a.stop
              (lit "Execution backend stop failed for duplicate instance rollback: "),
              .error (lit "Instance runtime already exists"))
          else ({ s with instances := s.instances ++ [(externalId, i)] }, .ok ())

def createInstanceRuntime (s : Lifecycle) (request : ConfigChangedRequest) (a : CreateAnswers) :
    Lifecycle × Except Utf8String Unit :=
  if request.adapter.externalId = [] then (s, .error (lit "externalId is required"))
  else if (s.findRuntime request.adapter.externalId).isSome then (s, .ok ())
  else if 0 < a.maxInstances.toInt ∧ a.maxInstances.toInt ≤ s.instances.length then
    (s, .error (lit "maxInstances reached"))
  else if !a.instanceCreated then (s, .error (lit "Factory createInstance returned null"))
  else { s with created := s.created + 1 }.createRuntime request a s.created

/-- `ensureInstance`: the instance, if there is one or it could be created. -/
def ensureInstance (s : Lifecycle) (request : ConfigChangedRequest) (a : CreateAnswers) :
    Lifecycle × Option Nat :=
  let externalId := request.adapter.externalId
  if externalId = [] then (s, none)
  else if (s.findRuntime externalId).isSome then (s, s.findRuntime externalId)
  else
    match s.createInstanceRuntime request a with
    | (s, .ok ()) => (s, s.findRuntime externalId)
    | (s, .error error) =>
      (s.reportProtocolError (lit "Failed to create instance runtime for externalId='" ++ externalId ++
        lit "': " ++ error), none)

/-- The instance-scope half of the `onConfigChanged` handler; `execute` answers the dispatch of the
hook. -/
def configChanged (s : Lifecycle) (request : ConfigChangedRequest) (a : CreateAnswers)
    (execute : Except Utf8String Unit) : Lifecycle :=
  match s.ensureInstance request a with
  | (s, none) => s
  | (s, some i) =>
    let s := s.emit (.backendExecute i (.configChanged request))
    match execute with
    | .ok () => s
    | .error error =>
      s.reportProtocolError (lit "Failed to dispatch config.changed for externalId='" ++
        request.adapter.externalId ++ lit "': " ++ error)

/-- The cooperative half of `stopAndDestroyInstance`: schedule `hostStop` and wait for it. -/
def stopHook (s : Lifecycle) (externalId : ExternalId) (i : Nat) (stopBudget : Int)
    (a : StopAnswers) : Lifecycle :=
  let s := s.emit (.requestStop i)
  let s := s.emit (.backendExecute i .stop)
  match a.execute with
  | .error error =>
    s.reportProtocolError (lit "Failed to schedule stop for externalId='" ++ externalId ++ lit "': " ++
      error)
  | .ok () =>
    if a.completed then s
    else
      s.reportProtocolError (lit "Instance stop() did not complete within " ++ toStringI stopBudget ++
        lit "ms for externalId='" ++ externalId ++ lit "'")

def stopAndDestroyInstance (s : Lifecycle) (externalId : ExternalId) (budget : Int) (a : StopAnswers) :
    Lifecycle :=
  let stopBudget := atLeastMinimumSlice (budget * 3 / 5)
  let joinBudget := atLeastMinimumSlice (budget - stopBudget)
  match s.findRuntime externalId with
  | none => s
  | some i =>
    let s := { s with instances := s.instances.filter (·.1 ≠ externalId) }
    let s := s.stopHook externalId i stopBudget a
    let s := s.stopBackend i joinBudget a.stop
      (lit "Execution backend stop timed out for externalId='" ++ externalId ++ lit "': ")
    if isOk a.stop then s.destroyInstance i
    else
      s.reportProtocolError (lit "Leaking instance runtime for externalId='" ++ externalId ++
        lit "': its execution backend did not stop and may still use it") |>.emit (.leakInstance i)

/-- The `onInstanceRemoved` handler. -/
def instanceRemoved (s : Lifecycle) (externalId : ExternalId) (a : StopAnswers) : Lifecycle :=
  if externalId = [] then
    s.reportProtocolError (lit "InstanceRemoved must target instance scope (externalId required)")
  else s.stopAndDestroyInstance externalId kShutdownBudget a

/-- `stopAndDestroyInstances`: every instance, with the slice of the remaining time it gets. -/
def stopAndDestroyInstances (s : Lifecycle) (answers : List (ExternalId × Int × StopAnswers)) :
    Lifecycle :=
  let s := answers.foldl
    (fun s a => match s.findRuntime a.1 with
      | some i => s.emit (.requestStop i)
      | none => s) s
  answers.foldl (fun s a => s.stopAndDestroyInstance a.1 (atLeastMinimumSlice a.2.1) a.2.2) s

end Lifecycle

inductive LifecycleAct
  | configChanged (request : ConfigChangedRequest) (answers : CreateAnswers)
      (execute : Except Utf8String Unit)
  | instanceRemoved (externalId : ExternalId) (answers : StopAnswers)
  /-- `stop`, with the order in which the map is iterated, slices and answers. -/
  | stop (answers : List (ExternalId × Int × StopAnswers))

namespace Lifecycle

def step (s : Lifecycle) : LifecycleAct → Option Lifecycle
  | .configChanged request answers execute => some (s.configChanged request answers execute)
  | .instanceRemoved externalId answers => some (s.instanceRemoved externalId answers)
  | .stop answers =>
    if (answers.map Prod.fst).isPerm (s.instances.map Prod.fst) then
      some (s.stopAndDestroyInstances answers)
    else none

def machine : Lts.Machine Lifecycle LifecycleAct := ⟨step⟩

end Lifecycle

end Phi.Host
