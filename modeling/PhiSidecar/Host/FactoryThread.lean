import PhiSidecar.Host.Backend
import PhiSidecar.Host.Lifecycle
import PhiSidecar.Host.Routing
import PhiSidecar.Lib.Machine
import Mathlib.Logic.Function.Basic

/-!
# Factory hooks on their threads (`sidecar.cpp`: `executeOnFactory`, `reportProtocolError`,
`shutdownFactoryExecution`, the factory scope of `wireHandlers`)

A host whose factory makes a default execution backend at every start. The hooks of the factory run on
the worker of that backend, or on the host thread where `executeOnFactory` has no backend or a backend
has refused the task. A hook begins and ends in steps of its thread, so it may take any time.

What a thread has still to do is a list of `FactoryStep`. Backends are numbered; `execution` is
`m_factoryExecution` and `joining` is the backend whose `stop` the host is in. A backend whose stop has
timed out keeps its worker. What the threads do between hooks is left out where it calls none: the
reports of instances, of a drain and of a flush are `report` steps.
-/

set_option autoImplicit false

namespace Phi.Host

open Phi.V1 Phi.Wire Phi.Dispatcher

/-- A call of a hook of the factory. -/
inductive FactoryHookCall
  | hook (hook : FactoryHook)
  | connected
  | disconnected
  | protocolError (message : Utf8String)
  | stopping

/-- What a thread does for the factory. -/
inductive FactoryStep
  | call (call : FactoryHookCall)
  /-- The end of `respond`: `sendAdapterDescriptor`. -/
  | reply (request : BootstrapRequest)
  /-- The end of `shutdownFactoryExecution`. -/
  | stopExecution

/-- The hook that a thread is in, and what it does next. -/
structure HookThread where
  current : Option FactoryHookCall := none
  steps : List FactoryStep := []

namespace HookThread

def enqueue (t : HookThread) (steps : List FactoryStep) : HookThread :=
  { t with steps := t.steps ++ steps }

def hookBegins (t : HookThread) : Option HookThread :=
  match t.current, t.steps with
  | none, .call call :: steps => some { current := some call, steps }
  | _, _ => none

def hookReturns (t : HookThread) : Option HookThread :=
  match t.current with
  | none => none
  | some _ => some { t with current := none }

/-- A hook that throws ends the task. -/
def hookThrows (t : HookThread) : Option HookThread :=
  match t.current with
  | none => none
  | some _ => some {}

/-- The thread gets to the end of `respond`. -/
def replies (t : HookThread) : Option HookThread :=
  match t.current, t.steps with
  | none, .reply _ :: steps => some { t with steps }
  | _, _ => none

/-- There is nothing left to do. -/
def isIdle (t : HookThread) : Bool := t.current.isNone && t.steps.isEmpty

end HookThread

/-- A backend of the factory; its tasks are what they do. -/
structure FactoryWorker where
  backend : Backend (List FactoryStep) := {}
  thread : HookThread := {}

structure FactoryHost where
  workers : Nat → FactoryWorker := fun _ => {}
  created : Nat := 0
  execution : Option Nat := none
  factoryActive : Bool := false
  /-- The dispatcher is started. -/
  opened : Bool := false
  host : HookThread := {}
  joining : Option Nat := none

/-- A thread that calls hooks. -/
inductive HookCaller
  | host
  | worker (i : Nat)
  deriving DecidableEq

inductive WorkerStep
  | take
  | hookBegins
  | hookReturns
  | hookThrows
  | replies (result : Except Utf8String Unit)
  /-- The task returns. -/
  | finish
  | exit

inductive FactoryAct
  /-- `start`, with what the backend and the dispatcher answer. -/
  | start (execution dispatcher : Except Utf8String Unit)
  | stop
  | connected
  | disconnected
  | request (pluginType : Utf8String) (call : HandlerCall) (now : Int64)
  | report (message : Utf8String)
  /-- The host thread goes on with its steps. -/
  | hookBegins
  | hookReturns
  | replies (result : Except Utf8String Unit)
  | stopExecution
  /-- The `stop` of the backend has seen the end of the worker. -/
  | joined
  | timeout
  | worker (i : Nat) (step : WorkerStep)

namespace FactoryHost

def thread (s : FactoryHost) : HookCaller → HookThread
  | .host => s.host
  | .worker i => (s.workers i).thread

/-- The hook that is in progress on a thread. -/
def inProgress (s : FactoryHost) (c : HookCaller) : Option FactoryHookCall := (s.thread c).current

def setWorker (s : FactoryHost) (i : Nat) (w : FactoryWorker) : FactoryHost :=
  { s with workers := Function.update s.workers i w }

def setThread (s : FactoryHost) (c : HookCaller) (t : HookThread) : FactoryHost :=
  match c with
  | .host => { s with host := t }
  | .worker i => s.setWorker i { s.workers i with thread := t }

/-- The thread goes on with these steps. -/
def runHere (s : FactoryHost) (c : HookCaller) (steps : List FactoryStep) : FactoryHost :=
  s.setThread c ((s.thread c).enqueue steps)

def executeOnFactory (s : FactoryHost) (c : HookCaller) (task : List FactoryStep) :
    FactoryHost × Except Utf8String Unit :=
  match s.execution with
  | none => (s.runHere c task, .ok ())
  | some i =>
    let (backend, result) := (s.workers i).backend.execute task
    (s.setWorker i { s.workers i with backend }, result)

def rejectedReportText (scheduleError : Utf8String) : Utf8String :=
  lit "Factory execution backend rejected a protocol error report: " ++ scheduleError

def reportProtocolError (s : FactoryHost) (c : HookCaller) (message : Utf8String) : FactoryHost :=
  match s.executeOnFactory c [.call (.protocolError message)] with
  | (s, .ok ()) => s
  | (s, .error scheduleError) =>
    s.runHere c [.call (.protocolError message),
      .call (.protocolError (rejectedReportText scheduleError))]

/-! ## Handlers -/

/-- The task of a hook. -/
def task : FactoryHook → List FactoryStep
  | .bootstrap request => [.call (.hook (.bootstrap request)), .reply request]
  | hook => [.call (.hook hook)]

/-- The `onConnected` and `onDisconnected` handlers. -/
def onConnection (s : FactoryHost) (call : FactoryHookCall) (failed : String) : FactoryHost :=
  match s.executeOnFactory .host [.call call] with
  | (s, .ok ()) => s
  | (s, .error error) => s.reportProtocolError .host (lit failed ++ error)

def refuse (s : FactoryHost) : Refusal → FactoryHost
  | .reply _ => s
  | .report message => s.reportProtocolError .host message

/-- A factory-scope hook; a bootstrap that the backend refuses runs here. -/
def factoryHook (s : FactoryHost) (hook : FactoryHook) (failed : Utf8String → Refusal) : FactoryHost :=
  match s.executeOnFactory .host (task hook) with
  | (s, .ok ()) => s
  | (s, .error error) =>
    let s := s.refuse (failed error)
    match hook with
    | .bootstrap request => s.runHere .host (task (.bootstrap request))
    | _ => s

/-- A handler of a request, as far as the factory is concerned. -/
def request (s : FactoryHost) : Route → FactoryHost
  | .refused refusal => s.refuse refusal
  | .factory hook failed => s.factoryHook hook failed
  | _ => s

/-! ## Start and stop -/

def shutdownFactoryExecution (s : FactoryHost) : FactoryHost :=
  if s.factoryActive then
    let s := { s with factoryActive := false }
    let s := match s.executeOnFactory .host [.call .stopping] with
      | (s, .ok ()) => s
      | (s, .error scheduleError) =>
        s.runHere .host
          [.call (.protocolError (lit "Failed to dispatch factory stopping hook: " ++ scheduleError))]
    s.runHere .host [.stopExecution]
  else s

/-- The first half of `start`. -/
def activateFactory (s : FactoryHost) (execution : Except Utf8String Unit) :
    FactoryHost × Except Utf8String Unit :=
  if s.factoryActive then (s, .ok ())
  else
    match execution with
    | .error backendError =>
      (s, .error (lit "Failed to start factory execution backend: " ++ backendError))
    | .ok () =>
      ({ s.setWorker s.created { backend := .afterStart } with
          created := s.created + 1, execution := some s.created, factoryActive := true }, .ok ())

def start (s : FactoryHost) (execution dispatcher : Except Utf8String Unit) : FactoryHost :=
  match s.activateFactory execution with
  | (s, .error _) => s
  | (s, .ok ()) =>
    match dispatcher with
    | .ok () => { s with opened := true }
    | .error _ => { s with opened := false }.shutdownFactoryExecution

def stop (s : FactoryHost) : FactoryHost := { s with opened := false }.shutdownFactoryExecution

/-- The end of `shutdownFactoryExecution`, up to the wait of the backend's `stop`. -/
def stopExecution (s : FactoryHost) : FactoryHost :=
  match s.execution with
  | none => s
  | some i =>
    let w := s.workers i
    { s.setWorker i { w with backend := w.backend.requestStop } with
      execution := none, joining := some i }

def stopTimedOutText : Utf8String :=
  lit "Factory execution backend stop timed out: " ++ lit "Timed out waiting for execution backend stop"

/-- Neither in a hook nor in a function of the host. -/
def isIdle (s : FactoryHost) : Bool := s.host.isIdle && s.joining.isNone

/-! ## The machine -/

/-- The end of `respond` on a thread. -/
def replies (s : FactoryHost) (c : HookCaller) (result : Except Utf8String Unit) : Option FactoryHost :=
  (s.thread c).replies.map fun t =>
    let s := s.setThread c t
    match result with
    | .ok () => s
    | .error err => s.reportProtocolError c (lit "Failed to send bootstrap descriptor: " ++ err)

def workerStep (s : FactoryHost) (i : Nat) : WorkerStep → Option FactoryHost
  | .take =>
    let w := s.workers i
    if w.thread.isIdle then
      w.backend.take.map fun backend =>
        s.setWorker i { backend, thread := { steps := backend.running.getD [] } }
    else none
  | .hookBegins => (s.thread (.worker i)).hookBegins.map (s.setThread (.worker i))
  | .hookReturns => (s.thread (.worker i)).hookReturns.map (s.setThread (.worker i))
  | .hookThrows => (s.thread (.worker i)).hookThrows.map (s.setThread (.worker i))
  | .replies result => s.replies (.worker i) result
  | .finish =>
    let w := s.workers i
    if w.thread.isIdle && w.backend.running.isSome then
      some (s.setWorker i { w with backend := w.backend.finish })
    else none
  | .exit =>
    let w := s.workers i
    w.backend.exit.map fun backend => s.setWorker i { w with backend }

def step (s : FactoryHost) : FactoryAct → Option FactoryHost
  | .start execution dispatcher => if s.isIdle then some (s.start execution dispatcher) else none
  | .stop => if s.isIdle then some s.stop else none
  | .connected =>
    if s.isIdle && s.opened then
      some (s.onConnection .connected "Failed to dispatch connected to factory: ")
    else none
  | .disconnected =>
    if s.isIdle && s.opened then
      some (s.onConnection .disconnected "Failed to dispatch disconnected to factory: ")
    else none
  | .request pluginType call now =>
    if s.isIdle && s.opened then some (s.request (route pluginType now call)) else none
  | .report message => if s.isIdle then some (s.reportProtocolError .host message) else none
  | .hookBegins =>
    if s.joining.isNone then s.host.hookBegins.map fun host => { s with host } else none
  | .hookReturns =>
    if s.joining.isNone then s.host.hookReturns.map fun host => { s with host } else none
  | .replies result => if s.joining.isNone then s.replies .host result else none
  | .stopExecution =>
    match s.host.current, s.host.steps, s.joining with
    | none, .stopExecution :: steps, none => some { s with host.steps := steps }.stopExecution
    | _, _, _ => none
  | .joined =>
    match s.joining with
    | none => none
    | some i =>
      let w := s.workers i
      if w.backend.workerExited then
        some { s.setWorker i { w with backend := w.backend.stopped } with joining := none }
      else none
  | .timeout =>
    match s.joining with
    | none => none
    | some i =>
      if (s.workers i).backend.workerExited then none
      else some ({ s with joining := none }.runHere .host [.call (.protocolError stopTimedOutText)])
  | .worker i step => s.workerStep i step

def machine : Lts.Machine FactoryHost FactoryAct := ⟨step⟩

end FactoryHost

end Phi.Host
