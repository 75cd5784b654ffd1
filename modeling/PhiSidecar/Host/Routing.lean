import PhiSidecar.Dispatcher.Request

/-!
# Where the host sends a request (`sidecar.cpp`: `SidecarHost::wireHandlers`)

A handler refuses a request, hands it to the factory, or hands it to an instance (`Route`). Routes
that may be refused later, by the execution backend or because there is no such instance, carry what
the host does then. The host has a factory.

What the host does with the instances of the routes `config` and `remove` is in `Host.Lifecycle`.
-/

set_option autoImplicit false

namespace Phi.Host

open Phi.V1 Phi.Wire Phi.Dispatcher

/-- What the host does itself with a request that reaches no hook. -/
inductive Refusal
  | reply (result : CommandResult)
  | report (message : Utf8String)

/-- A factory-scope hook; the first two requests are cached before it is scheduled. -/
inductive FactoryHook
  | bootstrap (request : BootstrapRequest)
  | configChanged (request : ConfigChangedRequest)
  | actionInvoke (request : AdapterActionInvokeRequest)

/-- The hook's request, as a handler gets it. -/
def FactoryHook.call : FactoryHook → HandlerCall
  | bootstrap request => .onBootstrap request
  | configChanged request => .onConfigChanged request
  | actionInvoke request => .onAdapterActionInvoke request

inductive Route
  | refused (r : Refusal)
  /-- `executeOnFactory`; `failed` is what happens if the backend refuses the task. -/
  | factory (hook : FactoryHook) (failed : Utf8String → Refusal)
  /-- `ensureInstance`, then the `config.changed` hook on the instance. -/
  | config (request : ConfigChangedRequest)
  /-- `executeOnRuntime`. -/
  | runtime (externalId : ExternalId) (hook : HandlerCall) (failed : Utf8String → Refusal)
  | remove (externalId : ExternalId)

def report (message : Utf8String) : Route := .refused (.report message)

/-- `normalized.adapter.pluginType`. -/
def normalizeAdapter (pluginType : Utf8String) (adapter : Adapter) : Adapter :=
  if adapter.pluginType = [] then { adapter with pluginType } else adapter

/-! ## Sync commands -/

def onBootstrap (pluginType : Utf8String) (request : BootstrapRequest) : Route :=
  if request.adapter.externalId ≠ [] then
    report (lit "Bootstrap must target factory scope (externalId must be empty)")
  else
    .factory (.bootstrap { request with adapter := normalizeAdapter pluginType request.adapter })
      fun error => .report (lit "Failed to dispatch bootstrap to factory: " ++ error)

def onConfigChanged (pluginType : Utf8String) (request : ConfigChangedRequest) : Route :=
  let normalized := { request with adapter := normalizeAdapter pluginType request.adapter }
  if normalized.adapter.externalId = [] then
    .factory (.configChanged normalized) fun error =>
      .report (lit "Failed to dispatch factory config.changed: " ++ error)
  else .config normalized

def onInstanceRemoved (request : InstanceRemovedRequest) : Route :=
  if request.externalId = [] then
    report (lit "InstanceRemoved must target instance scope (externalId required)")
  else .remove request.externalId

/-! ## Commands -/

def invalidArgument (cmdId : CmdId) (message : Utf8String) (now : Int64) : Refusal :=
  .reply (.cmd { id := cmdId, status := .InvalidArgument, error := message, tsMs := now })

/-- The handlers of the commands that only an instance takes. -/
def instanceCommand (externalId : ExternalId) (call : HandlerCall) (required failed : String)
    (cmdId : CmdId) (now : Int64) : Route :=
  if externalId = [] then .refused (invalidArgument cmdId (lit required) now)
  else
    .runtime externalId call fun dispatchError =>
      invalidArgument cmdId (lit failed ++ dispatchError) now

section
variable (now : Int64)

def onChannelInvoke (request : ChannelInvokeRequest) : Route :=
  instanceCommand request.externalId (.onChannelInvoke request)
    "externalId is required for CmdChannelInvoke" "Failed to dispatch channel invoke: "
    request.cmdId now

def onDeviceNameUpdate (request : DeviceNameUpdateRequest) : Route :=
  instanceCommand request.externalId (.onDeviceNameUpdate request)
    "externalId is required for CmdDeviceNameUpdate" "Failed to dispatch device.name.update: "
    request.cmdId now

def onDeviceEffectInvoke (request : DeviceEffectInvokeRequest) : Route :=
  instanceCommand request.externalId (.onDeviceEffectInvoke request)
    "externalId is required for CmdDeviceEffectInvoke" "Failed to dispatch device.effect.invoke: "
    request.cmdId now

def onSceneInvoke (request : SceneInvokeRequest) : Route :=
  instanceCommand request.externalId (.onSceneInvoke request)
    "externalId is required for CmdSceneInvoke" "Failed to dispatch scene invoke: "
    request.cmdId now

def onAdaptersStreamStart (request : AdaptersStreamStartRequest) : Route :=
  instanceCommand request.externalId (.onAdaptersStreamStart request)
    "externalId is required for CmdAdaptersStreamStart"
    "Failed to dispatch adapters stream.start: " request.cmdId now

def onAdaptersStreamStop (request : AdaptersStreamStopRequest) : Route :=
  instanceCommand request.externalId (.onAdaptersStreamStop request)
    "externalId is required for CmdAdaptersStreamStop"
    "Failed to dispatch adapters stream.stop: " request.cmdId now

/-- The one command that the factory takes as well, when the external id is empty. -/
def onAdapterActionInvoke (request : AdapterActionInvokeRequest) : Route :=
  let response : ActionResponse := { id := request.cmdId, resultType := .None, tsMs := now }
  if request.externalId = [] then
    .factory (.actionInvoke request) fun dispatchError =>
      .reply (.action { response with
        status := .Failure, error := lit "Failed to dispatch factory action: " ++ dispatchError })
  else
    .runtime request.externalId (.onAdapterActionInvoke request) fun dispatchError =>
      .reply (.action { response with
        status := .InvalidArgument
        error := lit "Failed to dispatch adapter action: " ++ dispatchError })

end

def onUnknownRequest (request : UnknownRequest) : Route :=
  if request.externalId = [] then
    report (lit "Unhandled IPC command: " ++ toStringU request.command.toNat)
  else
    .runtime request.externalId (.onUnknownRequest request) fun dispatchError =>
      .report (lit "Failed to dispatch unknown request for externalId='" ++ request.externalId ++
        lit "': " ++ dispatchError)

/-- The handlers that `wireHandlers` registers. -/
def route (pluginType : Utf8String) (now : Int64) : HandlerCall → Route
  | .onProtocolError message => report message
  | .onBootstrap request => onBootstrap pluginType request
  | .onConfigChanged request => onConfigChanged pluginType request
  | .onInstanceRemoved request => onInstanceRemoved request
  | .onChannelInvoke request => onChannelInvoke now request
  | .onAdapterActionInvoke request => onAdapterActionInvoke now request
  | .onDeviceNameUpdate request => onDeviceNameUpdate now request
  | .onDeviceEffectInvoke request => onDeviceEffectInvoke now request
  | .onSceneInvoke request => onSceneInvoke now request
  | .onAdaptersStreamStart request => onAdaptersStreamStart now request
  | .onAdaptersStreamStop request => onAdaptersStreamStop now request
  | .onUnknownRequest request => onUnknownRequest request

theorem normalizeAdapter_externalId (pluginType : Utf8String) (adapter : Adapter) :
    (normalizeAdapter pluginType adapter).externalId = adapter.externalId := by
  unfold normalizeAdapter
  split_ifs <;> rfl

end Phi.Host
