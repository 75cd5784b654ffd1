import PhiSidecar.Host.Backend
import PhiSidecar.Host.Lifecycle
import PhiSidecar.Host.Queues
import PhiSidecar.Host.Routing

/-!
# The host and its execution threads (`sidecar.cpp`: `SidecarHost`)

A host that was started and is not stopped. Every instance has a default execution backend, whose
`stop` succeeds; the factory has one too or runs on the poll thread.

A handler of the poll thread is one step, up to the point where it waits: for the start task of a new
instance, the stop task or the backend of one that goes, or for a factory hook that runs inline
(`HostThread`). What it does to the registry of instances is in `Lifecycle`, done when the wait is
over: no other thread reads the registry. Adapter code is free, apart from the results: the hook of a
command sends exactly one before it returns, and no other hook sends any.

`handled` is ghost state: the requests that were handled, a factory hook that runs inline when it has
returned.
-/

set_option autoImplicit false

namespace Phi.Host

open Phi.V1 Phi.Wire Phi.Dispatcher

/-! ## Tasks -/

/-- The id of a `Cmd` request. -/
def commandId (call : HandlerCall) : Option CmdId :=
  call.command.bind fun command => if command.isCmdCommand then some call.cmdId else none

/-- The result has the id of the command, and the type of its results. -/
def answers (call : HandlerCall) (result : CommandResult) : Bool :=
  commandId call == some result.id &&
    match result with
    | .action _ => call.command == some .CmdAdapterActionInvoke
    | .cmd _ => call.command != some .CmdAdapterActionInvoke

/-- What a backend runs. -/
inductive Task
  | start
  | stop
  | connected
  | disconnected
  | hook (call : HandlerCall)
  deriving DecidableEq

def Task.commandId : Task → Option CmdId
  | hook call => Host.commandId call
  | _ => none

/-- A backend, and whether the hook that it runs has sent its result. -/
structure Worker where
  backend : Backend Task := {}
  answered : Bool := false

/-- An execution thread. -/
inductive Thread
  | factory
  | runtime (i : Nat)

def Thread.caller : Thread → Caller
  | factory => .worker 0
  | .runtime i => .worker (i + 1)

/-- What the poll thread does when a backend has stopped. -/
inductive AfterStop
  | rollback (request : ConfigChangedRequest) (answers : CreateAnswers)
  | remove (externalId : ExternalId) (answers : StopAnswers)

/-- Where the poll thread is. -/
inductive HostThread
  | idle
  /-- In `createInstanceRuntime`: the new instance runs its start task. -/
  | starting (request : ConfigChangedRequest) (answers : CreateAnswers)
  /-- In `stopAndDestroyInstance`: the instance runs its stop task. -/
  | stopping (externalId : ExternalId) (i : Nat)
  /-- In the `stop` of a backend. -/
  | joining (i : Nat) (next : AfterStop)
  /-- In a factory hook. -/
  | hook (call : HandlerCall) (answered : Bool)

structure SidecarHost where
  queues : HostQueues := { dispatcher := { started := true } }
  lifecycle : Lifecycle := {}
  /-- The backends of the instances, by their number. -/
  instances : List Worker := []
  factory : Option Worker := none
  thread : HostThread := .idle
  handled : List HandlerCall := []

namespace SidecarHost

/-! ## Backends -/

def worker (s : SidecarHost) : Thread → Option Worker
  | .factory => s.factory
  | .runtime i => s.instances[i]?

def setWorker (s : SidecarHost) (t : Thread) (w : Worker) : SidecarHost :=
  match t with
  | .factory => { s with factory := some w }
  | .runtime i => { s with instances := s.instances.set i w }

/-- A step of the backend of `t`, if it has one. -/
def onBackend (s : SidecarHost) (t : Thread) (f : Backend Task → Backend Task) : SidecarHost :=
  match s.worker t with
  | none => s
  | some w => s.setWorker t { w with backend := f w.backend }

def execute (s : SidecarHost) (t : Thread) (task : Task) : SidecarHost × Except Utf8String Unit :=
  match s.worker t with
  | none => (s, .error (lit "Execution backend not initialized"))
  | some w =>
    let (backend, result) := w.backend.execute task
    (s.setWorker t { w with backend }, result)

/-- No such task is queued or running. -/
def isDone (s : SidecarHost) (t : Thread) (task : Task) : Bool :=
  match s.worker t with
  | none => true
  | some w => task ∉ w.backend.pending

def hasExited (s : SidecarHost) (t : Thread) : Bool :=
  match s.worker t with
  | none => true
  | some w => w.backend.workerExited

/-- `reportProtocolError`: a task of the factory's backend; without one, or if it refuses, the hook
runs here. -/
def reportProtocolError (s : SidecarHost) (message : Utf8String) : SidecarHost :=
  { s with queues := s.queues.reportProtocolError message }
    |>.execute .factory (.hook (.onProtocolError message)) |>.1

def reportProtocolErrors (s : SidecarHost) (messages : List Utf8String) : SidecarHost :=
  messages.foldl reportProtocolError s

def executeOnRuntime (s : SidecarHost) (externalId : ExternalId) (task : Task) :
    SidecarHost × Except Utf8String Unit :=
  match s.lifecycle.findRuntime externalId with
  | none => (s, .error (lit "Unknown instance externalId: " ++ externalId))
  | some i => s.execute (.runtime i) task

/-- One round of the loop of `executeOnAllRuntimes`. -/
def notifyRuntime (task : Task) (s : SidecarHost) (runtime : ExternalId × Nat) : SidecarHost :=
  match s.execute (.runtime runtime.2) task with
  | (s, .ok ()) => s
  | (s, .error error) =>
    s.reportProtocolError (lit "Failed to dispatch runtime callback for externalId='" ++ runtime.1 ++
      lit "': " ++ error)

def executeOnAllRuntimes (s : SidecarHost) (task : Task) : SidecarHost :=
  s.lifecycle.instances.foldl (notifyRuntime task) s

/-- The `onConnected` and `onDisconnected` handlers: a task of the factory, unless its hook runs here,
and of every instance. -/
def onConnection (s : SidecarHost) (task : Task) (failed : String) : SidecarHost :=
  let s :=
    if s.factory.isNone then s
    else
      match s.execute .factory task with
      | (s, .ok ()) => s
      | (s, .error error) => s.reportProtocolError (lit failed ++ error)
  s.executeOnAllRuntimes task

/-! ## Instances -/

def message? : Effect → Option Utf8String
  | .protocolError message => some message
  | _ => none

/-- A step of the registry, with the reports that it makes. An instance whose backend could not be
started gets one that never runs. -/
def onLifecycle (s : SidecarHost) (f : Lifecycle → Lifecycle) : SidecarHost :=
  let lifecycle := f s.lifecycle
  let unstarted : List Worker := .replicate (lifecycle.created - s.instances.length) {}
  { s with lifecycle, instances := s.instances ++ unstarted }
    |>.reportProtocolErrors ((lifecycle.trace.drop s.lifecycle.trace.length).filterMap message?)

/-- `createInstanceRuntime` gets as far as the start task. -/
def startsBackend (lifecycle : Lifecycle) (a : CreateAnswers) : Bool :=
  (a.maxInstances.toInt ≤ 0 || lifecycle.instances.length < a.maxInstances.toInt) &&
    a.instanceCreated && a.executionCreated && Lifecycle.isOk a.start

/-- The `config.changed` hook of an instance, after `ensureInstance`. -/
def dispatchConfig (s : SidecarHost) (i : Nat) (request : ConfigChangedRequest) (a : CreateAnswers) :
    SidecarHost :=
  let (s, result) := s.execute (.runtime i) (.hook (.onConfigChanged request))
  s.onLifecycle (·.configChanged request a result)

/-- The instance-scope half of `onConfigChanged`, up to the wait for a new instance. -/
def configChanged (s : SidecarHost) (request : ConfigChangedRequest) (a : CreateAnswers) : SidecarHost :=
  match s.lifecycle.findRuntime request.adapter.externalId with
  | some i => s.dispatchConfig i request a
  | none =>
    if startsBackend s.lifecycle a then
      { s with
        instances := s.instances ++ [{ backend := { Backend.afterStart with tasks := [.start] } }]
        thread := .starting request { a with execute := .ok (), stop := .ok () } }
    else s.onLifecycle (·.configChanged request a (.ok ()))

/-- `stopAndDestroyInstance`, up to the wait for the stop task. -/
def removeInstance (s : SidecarHost) (externalId : ExternalId) : SidecarHost :=
  match s.lifecycle.findRuntime externalId with
  | none => s
  | some i =>
    match s.execute (.runtime i) .stop with
    | (s, .ok ()) => { s with thread := .stopping externalId i }
    | (s, .error error) =>
      { s.onBackend (.runtime i) .requestStop with
        thread := .joining i (.remove externalId { execute := .error error }) }

/-- What follows the stop of a backend. -/
def afterStop (next : AfterStop) (lifecycle : Lifecycle) : Lifecycle :=
  match next with
  | .rollback request a => lifecycle.configChanged request a (.ok ())
  | .remove externalId a => lifecycle.stopAndDestroyInstance externalId kShutdownBudget a

/-! ## Handlers -/

def refuse (s : SidecarHost) (now : Int64) (clock : Clock) : Refusal → SidecarHost
  | .reply result => { s with queues := (s.queues.call .host result.outbound now clock).1 }
  | .report message => s.reportProtocolError message

/-- A request has been handled. -/
def returned (s : SidecarHost) (call : HandlerCall) : SidecarHost :=
  { s with handled := s.handled ++ [call] }

/-- A factory-scope hook; a bootstrap that the backend refuses runs here. -/
def factoryHook (s : SidecarHost) (hook : FactoryHook) (failed : Utf8String → Refusal) (now : Int64)
    (clock : Clock) : SidecarHost :=
  if s.factory.isNone then { s with thread := .hook hook.call false }
  else
    match s.execute .factory (.hook hook.call) with
    | (s, .ok ()) => s.returned hook.call
    | (s, .error error) =>
      let s := s.refuse now clock (failed error)
      match hook with
      | .bootstrap _ => { s with thread := .hook hook.call false }
      | _ => s.returned hook.call

/-- A handler of `wireHandlers`. -/
def handle (s : SidecarHost) (pluginType : Utf8String) (call : HandlerCall) (a : CreateAnswers)
    (now : Int64) (clock : Clock) : SidecarHost :=
  match route pluginType now call with
  | .refused r =>
    let s := s.refuse now clock r
    match call with
    | .onProtocolError _ => s.executeOnAllRuntimes (.hook call) |>.returned call
    | _ => s.returned call
  | .factory hook failed => s.factoryHook hook failed now clock
  | .config request => s.configChanged request a |>.returned call
  | .runtime externalId hook failed =>
    match s.executeOnRuntime externalId (.hook hook) with
    | (s, .ok ()) => s.returned call
    | (s, .error error) => s.refuse now clock (failed error) |>.returned call
  | .remove externalId => s.removeInstance externalId |>.returned call

/-- A frame that the transport delivers: the handler that `handleRequestFrame` calls, and what it
sends itself. -/
def receive (s : SidecarHost) (parseDouble : Bytes → Option Double) (pluginType : Utf8String)
    (header : FrameHeader) (payload : Bytes) (a : CreateAnswers) (now : Int64) (clock : Clock) :
    SidecarHost :=
  let h := onFrame parseDouble {} header payload now
  let s :=
    match h.call with
    | none => s
    | some call => s.handle pluginType call a now clock
  match h.reply with
  | none => s
  | some result => s.refuse now clock (.reply result)

/-- `sendResult` of an instance or of the factory; a result without an id is refused. -/
def sendResult (s : SidecarHost) (caller : Caller) (result : CommandResult) (now : Int64) :
    SidecarHost :=
  if result.id = 0 then s
  else { s with queues := s.queues.queueDeferredResult caller result now }

/-- Reports of a drain, as tasks of the factory. -/
def onDrain (s : SidecarHost) (queues : HostQueues) : SidecarHost :=
  (queues.reports.drop s.queues.reports.length).foldl
    (fun s message => (s.execute .factory (.hook (.onProtocolError message))).1) { s with queues }

end SidecarHost

/-! ## The machine -/

/-- What an execution thread does. -/
inductive WorkerAct
  | take
  /-- The hook that runs sends its result. -/
  | sendResult (result : CommandResult) (now : Int64)
  /-- The task that runs returns. -/
  | finish
  | exit

/-- `starting`, `stopping` and `joining` end a wait of the poll thread: with what the start task
returned, if it did so in time, with whether the stop task did, and with a backend that has
stopped. -/
inductive HostAct
  | receive (header : FrameHeader) (payload : Bytes) (answers : CreateAnswers) (now : Int64)
      (clock : Clock)
  | starting (started : Option Bool)
  | stopping (completed : Bool)
  | joining
  /-- The factory hook that runs inline sends its result. -/
  | hookResult (result : CommandResult) (now : Int64)
  | hookReturn
  | connected
  | disconnected
  | drainBegin
  | drainNext (now : Int64) (clock : Clock)
  /-- Any other outbound call. -/
  | call (caller : Caller) (call : Outbound) (now : Int64) (clock : Clock)
  | net (a : Net)
  | worker (t : Thread) (a : WorkerAct)

/-- The call sends the result of a command. -/
def isResult : Outbound → Bool
  | .cmdResult _ | .actionResult _ => true
  | _ => false

/-- The dispatcher is neither started again nor stopped. -/
def Net.isTraffic : Net → Bool
  | flush | send _ _ _ | connect | disconnect => true
  | start _ | stop | stopRuntime => false

/-- The hook may return: it owes no result. -/
def mayReturn (commandId : Option CmdId) (answered : Bool) : Bool := commandId.isNone || answered

namespace SidecarHost

/-- A step of the worker of `t`, which is `w`. -/
def workerStep (s : SidecarHost) (t : Thread) (w : Worker) : WorkerAct → Option SidecarHost
  | .take => w.backend.take.map fun backend => s.setWorker t { backend }
  | .sendResult result now =>
    match w.backend.running with
    | some (.hook call) =>
      if !w.answered && answers call result then
        some (s.setWorker t { w with answered := true } |>.sendResult t.caller result now)
      else none
    | _ => none
  | .finish =>
    match w.backend.running with
    | none => none
    | some task =>
      if mayReturn task.commandId w.answered then
        some (s.setWorker t { backend := w.backend.finish })
      else none
  | .exit => w.backend.exit.map fun backend => s.setWorker t { w with backend }

section
variable (parseDouble : Bytes → Option Double) (pluginType : Utf8String)

/-- A step of the poll thread. -/
def step (s : SidecarHost) : HostAct → Option SidecarHost
  | .receive header payload a now clock =>
    match s.thread with
    | .idle => some (s.receive parseDouble pluginType header payload a now clock)
    | _ => none
  | .starting started =>
    match s.thread with
    | .starting request a =>
      let i := s.lifecycle.created
      let a := { a with started }
      if started = some true then
        if s.isDone (.runtime i) .start then
          some ({ s with thread := .idle }.dispatchConfig i request a)
        else none
      else if started = none || s.isDone (.runtime i) .start then
        some { s.onBackend (.runtime i) .requestStop with thread := .joining i (.rollback request a) }
      else none
    | _ => none
  | .stopping completed =>
    match s.thread with
    | .stopping externalId i =>
      if !completed || s.isDone (.runtime i) .stop then
        some { s.onBackend (.runtime i) .requestStop with
          thread := .joining i (.remove externalId { completed }) }
      else none
    | _ => none
  | .joining =>
    match s.thread with
    | .joining i next =>
      if s.hasExited (.runtime i) then
        some ({ s.onBackend (.runtime i) .stopped with thread := .idle }.onLifecycle (afterStop next))
      else none
    | _ => none
  | .hookResult result now =>
    match s.thread with
    | .hook call false =>
      if answers call result then some ({ s with thread := .hook call true }.sendResult .host result now)
      else none
    | _ => none
  | .hookReturn =>
    match s.thread with
    | .hook call answered =>
      if mayReturn (commandId call) answered then some ({ s with thread := .idle }.returned call)
      else none
    | _ => none
  | .connected =>
    match s.thread with
    | .idle => some (s.onConnection .connected "Failed to dispatch connected to factory: ")
    | _ => none
  | .disconnected =>
    match s.thread with
    | .idle => some (s.onConnection .disconnected "Failed to dispatch disconnected to factory: ")
    | _ => none
  | .drainBegin =>
    match s.thread with
    | .idle => (s.queues.step .drainBegin).map s.onDrain
    | _ => none
  | .drainNext now clock =>
    match s.thread with
    | .idle => (s.queues.step (.drainNext now clock)).map s.onDrain
    | _ => none
  | .call caller call now clock =>
    if isResult call then none else some { s with queues := (s.queues.call caller call now clock).1 }
  | .net a =>
    if a.isTraffic then (s.queues.step (.net a)).map fun queues => { s with queues } else none
  | .worker t a =>
    match s.worker t with
    | none => none
    | some w => s.workerStep t w a

def machine : Lts.Machine SidecarHost HostAct := ⟨step parseDouble pluginType⟩

end

/-- A host whose factory has a backend, or none, after `start`. -/
def afterStart (factoryBackend : Bool) : SidecarHost :=
  { factory := if factoryBackend then some { backend := Backend.afterStart } else none }

end SidecarHost

end Phi.Host
