import PhiSidecar.Dispatcher.Outbound
import PhiSidecar.V1.Frame
import PhiSidecar.Wire.Members

/-!
# Inbound requests (`sidecar.cpp`: `handleRequestFrame`)

`handleRequestFrame` is a function of the frame and of which handlers are registered. It gives the
handler call it makes and the reply it sends itself (`Handled`). A `static_cast` between integer
types truncates.
-/

set_option autoImplicit false

namespace Phi.Dispatcher

open Phi.V1 Phi.Wire

/-! ## Requests (`sidecar.h`) -/

structure BootstrapRequest where
  adapterId : Int32 := 0
  cmdId : CmdId := 0
  correlationId : CorrelationId := 0
  adapter : Adapter := {}
  staticConfigJson : JsonText := []
  deriving DecidableEq

structure ConfigChangedRequest where
  adapterId : Int32 := 0
  cmdId : CmdId := 0
  correlationId : CorrelationId := 0
  adapter : Adapter := {}
  staticConfigJson : JsonText := []
  deriving DecidableEq

structure InstanceRemovedRequest where
  adapterId : Int32 := 0
  cmdId : CmdId := 0
  correlationId : CorrelationId := 0
  pluginType : Utf8String := []
  externalId : ExternalId := []
  deriving DecidableEq

structure ChannelInvokeRequest where
  cmdId : CmdId := 0
  externalId : ExternalId := []
  deviceExternalId : ExternalId := []
  channelExternalId : ExternalId := []
  value : ScalarValue := .null
  valueJson : JsonText := []
  hasScalarValue : Bool := false
  deriving DecidableEq

structure AdapterActionInvokeRequest where
  cmdId : CmdId := 0
  externalId : ExternalId := []
  actionId : Utf8String := []
  paramsJson : JsonText := []
  deriving DecidableEq

structure DeviceNameUpdateRequest where
  cmdId : CmdId := 0
  externalId : ExternalId := []
  deviceExternalId : ExternalId := []
  name : Utf8String := []
  deriving DecidableEq

structure DeviceEffectInvokeRequest where
  cmdId : CmdId := 0
  externalId : ExternalId := []
  deviceExternalId : ExternalId := []
  effect : DeviceEffect := 0
  effectId : Utf8String := []
  paramsJson : JsonText := []
  deriving DecidableEq

structure SceneInvokeRequest where
  cmdId : CmdId := 0
  externalId : ExternalId := []
  sceneExternalId : ExternalId := []
  groupExternalId : ExternalId := []
  action : Utf8String := []
  deriving DecidableEq

structure AdaptersStreamStartRequest where
  cmdId : CmdId := 0
  externalId : ExternalId := []
  streamId : Utf8String := []
  kind : Utf8String := []
  paramsJson : JsonText := []
  deriving DecidableEq

structure AdaptersStreamStopRequest where
  cmdId : CmdId := 0
  externalId : ExternalId := []
  streamId : Utf8String := []
  deriving DecidableEq

structure UnknownRequest where
  cmdId : CmdId := 0
  externalId : ExternalId := []
  command : UInt16 := 0
  payloadJson : JsonText := []
  deriving DecidableEq

/-- A call of one of the `SidecarHandlers` about a request. -/
inductive HandlerCall
  | onProtocolError (message : Utf8String)
  | onBootstrap (request : BootstrapRequest)
  | onConfigChanged (request : ConfigChangedRequest)
  | onInstanceRemoved (request : InstanceRemovedRequest)
  | onChannelInvoke (request : ChannelInvokeRequest)
  | onAdapterActionInvoke (request : AdapterActionInvokeRequest)
  | onDeviceNameUpdate (request : DeviceNameUpdateRequest)
  | onDeviceEffectInvoke (request : DeviceEffectInvokeRequest)
  | onSceneInvoke (request : SceneInvokeRequest)
  | onAdaptersStreamStart (request : AdaptersStreamStartRequest)
  | onAdaptersStreamStop (request : AdaptersStreamStopRequest)
  | onUnknownRequest (request : UnknownRequest)
  deriving DecidableEq

namespace HandlerCall

/-- The command of a typed request. -/
def command : HandlerCall → Option IpcCommand
  | onProtocolError _ | onUnknownRequest _ => none
  | onBootstrap _ => some .SyncAdapterBootstrap
  | onConfigChanged _ => some .SyncAdapterConfigChanged
  | onInstanceRemoved _ => some .SyncAdapterInstanceRemoved
  | onChannelInvoke _ => some .CmdChannelInvoke
  | onAdapterActionInvoke _ => some .CmdAdapterActionInvoke
  | onDeviceNameUpdate _ => some .CmdDeviceNameUpdate
  | onDeviceEffectInvoke _ => some .CmdDeviceEffectInvoke
  | onSceneInvoke _ => some .CmdSceneInvoke
  | onAdaptersStreamStart _ => some .CmdAdaptersStreamStart
  | onAdaptersStreamStop _ => some .CmdAdaptersStreamStop

def cmdId : HandlerCall → CmdId
  | onProtocolError _ => 0
  | onBootstrap request => request.cmdId
  | onConfigChanged request => request.cmdId
  | onInstanceRemoved request => request.cmdId
  | onChannelInvoke request => request.cmdId
  | onAdapterActionInvoke request => request.cmdId
  | onDeviceNameUpdate request => request.cmdId
  | onDeviceEffectInvoke request => request.cmdId
  | onSceneInvoke request => request.cmdId
  | onAdaptersStreamStart request => request.cmdId
  | onAdaptersStreamStop request => request.cmdId
  | onUnknownRequest request => request.cmdId

end HandlerCall

/-- Which handlers are registered. -/
structure SidecarHandlers where
  onProtocolError : Bool := true
  onBootstrap : Bool := true
  onConfigChanged : Bool := true
  onInstanceRemoved : Bool := true
  onChannelInvoke : Bool := true
  onAdapterActionInvoke : Bool := true
  onDeviceNameUpdate : Bool := true
  onDeviceEffectInvoke : Bool := true
  onSceneInvoke : Bool := true
  onAdaptersStreamStart : Bool := true
  onAdaptersStreamStop : Bool := true
  onUnknownRequest : Bool := true

/-- The handler that a call is of is registered. -/
def SidecarHandlers.on (handlers : SidecarHandlers) : HandlerCall → Bool
  | .onProtocolError _ => handlers.onProtocolError
  | .onBootstrap _ => handlers.onBootstrap
  | .onConfigChanged _ => handlers.onConfigChanged
  | .onInstanceRemoved _ => handlers.onInstanceRemoved
  | .onChannelInvoke _ => handlers.onChannelInvoke
  | .onAdapterActionInvoke _ => handlers.onAdapterActionInvoke
  | .onDeviceNameUpdate _ => handlers.onDeviceNameUpdate
  | .onDeviceEffectInvoke _ => handlers.onDeviceEffectInvoke
  | .onSceneInvoke _ => handlers.onSceneInvoke
  | .onAdaptersStreamStart _ => handlers.onAdaptersStreamStart
  | .onAdaptersStreamStop _ => handlers.onAdaptersStreamStop
  | .onUnknownRequest _ => handlers.onUnknownRequest

/-- The result of a command: what `sendCmdResult` and `sendActionResult` take. -/
inductive CommandResult
  | cmd (response : CmdResponse)
  | action (response : ActionResponse)
  deriving DecidableEq

namespace CommandResult

def id : CommandResult → CmdId
  | cmd response => response.id
  | action response => response.id

/-- The frame of `sendCmdResult` or `sendActionResult`. -/
def frame {τ : Type} (origin : τ) (now : Int64) : CommandResult → OutboundFrame τ
  | cmd response => sendCmdResult origin response now
  | action response => sendActionResult origin response now

end CommandResult

def defaultCmdResponse (cmdId : CmdId) (message : Bytes) (now : Int64) : CmdResponse :=
  { id := cmdId, status := .NotImplemented, error := message, tsMs := now }

def defaultActionResponse (cmdId : CmdId) (message : Bytes) (now : Int64) : ActionResponse :=
  { id := cmdId, status := .NotImplemented, error := message, resultType := .None, tsMs := now }

/-- What `handleRequestFrame` does. -/
structure Handled where
  call : Option HandlerCall := none
  /-- Sent after the call; the function then returns what sending it returns. -/
  reply : Option CommandResult := none
  result : Bool := true

/-! ## Decoding -/

def parseIpcCommandToken (token : Bytes) : Option IpcCommand :=
  match parseInt64 token with
  | none => none
  | some raw => if raw ≤ 0 ∨ 0xFFFF < raw then none else some ⟨raw.toUInt64.toUInt16⟩

section
variable (map : MemberMap) (key : String)

def memberText : Utf8String := decodeStringOrDefault (member map (lit key))
def memberInt : Int64 := parseIntOrDefault (member map (lit key)) 0

end

def parseAdapterFromMap (adapterMap : MemberMap) : Adapter where
  name := memberText adapterMap "name"
  host := memberText adapterMap "host"
  ip := memberText adapterMap "ip"
  port := (memberInt adapterMap "port").toUInt64.toUInt16
  user := memberText adapterMap "user"
  password := memberText adapterMap "password"
  token := memberText adapterMap "token"
  pluginType := memberText adapterMap "pluginType"
  externalId := memberText adapterMap "externalId"
  metaJson := member adapterMap (lit "meta")
  flags := (memberInt adapterMap "flags").toUInt64.toUInt32

/-- The adapter of the two `Sync` requests that carry one: the `adapter` object, with what it leaves
empty taken from the payload. -/
def requestAdapter (payloadMap : MemberMap) : Adapter :=
  let adapter : Adapter :=
    { externalId := memberText payloadMap "externalId", pluginType := memberText payloadMap "pluginType" }
  let adapter :=
    match parseObjectMembers (member payloadMap (lit "adapter")) with
    | .ok adapterMap => parseAdapterFromMap adapterMap
    | .error _ => adapter
  let adapter :=
    if adapter.pluginType = [] then { adapter with pluginType := memberText payloadMap "pluginType" }
    else adapter
  if adapter.externalId = [] then { adapter with externalId := memberText payloadMap "externalId" }
  else adapter

/-- `params`, or `{}` if it is blank. -/
def requestParams (payloadMap : MemberMap) : JsonText :=
  let params := member payloadMap (lit "params")
  if trim params = [] then lit "\x7b\x7d" else params

section
variable (header : FrameHeader) (cmdId : CmdId) (payloadMap : MemberMap)

def bootstrapRequest : BootstrapRequest where
  cmdId := cmdId
  correlationId := header.correlationId
  adapterId := (memberInt payloadMap "adapterId").toInt32
  staticConfigJson := member payloadMap (lit "staticConfig")
  adapter := requestAdapter payloadMap

def configChangedRequest : ConfigChangedRequest where
  cmdId := cmdId
  correlationId := header.correlationId
  adapterId := (memberInt payloadMap "adapterId").toInt32
  staticConfigJson := member payloadMap (lit "staticConfig")
  adapter := requestAdapter payloadMap

def instanceRemovedRequest : InstanceRemovedRequest where
  cmdId := cmdId
  correlationId := header.correlationId
  adapterId := (memberInt payloadMap "adapterId").toInt32
  pluginType := memberText payloadMap "pluginType"
  externalId := memberText payloadMap "externalId"

def channelInvokeRequest (parseDouble : Bytes → Option Double) : ChannelInvokeRequest :=
  let valueToken := member payloadMap (lit "value")
  let value := parseScalarValueToken parseDouble valueToken
  { cmdId := cmdId
    externalId := memberText payloadMap "externalId"
    deviceExternalId := memberText payloadMap "deviceExternalId"
    channelExternalId := memberText payloadMap "channelExternalId"
    valueJson := valueToken
    hasScalarValue := value.isSome
    value := value.getD .null }

def adapterActionInvokeRequest : AdapterActionInvokeRequest where
  cmdId := cmdId
  externalId := memberText payloadMap "externalId"
  actionId := memberText payloadMap "actionId"
  paramsJson := requestParams payloadMap

def deviceNameUpdateRequest : DeviceNameUpdateRequest where
  cmdId := cmdId
  externalId := memberText payloadMap "externalId"
  deviceExternalId := memberText payloadMap "deviceExternalId"
  name := memberText payloadMap "name"

def deviceEffectInvokeRequest : DeviceEffectInvokeRequest where
  cmdId := cmdId
  externalId := memberText payloadMap "externalId"
  deviceExternalId := memberText payloadMap "deviceExternalId"
  effect := (memberInt payloadMap "effect").toUInt64.toUInt16
  effectId := memberText payloadMap "effectId"
  paramsJson := requestParams payloadMap

def sceneInvokeRequest : SceneInvokeRequest where
  cmdId := cmdId
  externalId := memberText payloadMap "externalId"
  sceneExternalId := memberText payloadMap "sceneExternalId"
  groupExternalId := memberText payloadMap "groupExternalId"
  action := memberText payloadMap "action"

def adaptersStreamStartRequest : AdaptersStreamStartRequest where
  cmdId := cmdId
  externalId := memberText payloadMap "externalId"
  streamId := memberText payloadMap "streamId"
  kind := memberText payloadMap "kind"
  paramsJson := requestParams payloadMap

def adaptersStreamStopRequest : AdaptersStreamStopRequest where
  cmdId := cmdId
  externalId := memberText payloadMap "externalId"
  streamId := memberText payloadMap "streamId"

end

/-! ## Dispatch -/

/-- A `Sync` command: its handler, if there is one. -/
def sync (handlers : SidecarHandlers) (call : HandlerCall) : Handled :=
  if handlers.on call then { call := some call } else {}

/-- A typed `Cmd` command: its handler, or a default reply. -/
def typed (handlers : SidecarHandlers) (call : HandlerCall) (reply : CommandResult) : Handled :=
  if handlers.on call then { call := some call } else { reply := some reply }

def unhandledCommand (command : IpcCommand) : Bytes :=
  lit "Unhandled IPC command: " ++ toStringU command.toUint16.toNat

def unknown (handlers : SidecarHandlers) (request : UnknownRequest) (command : IpcCommand) (now : Int64) :
    Handled where
  call := if handlers.onUnknownRequest then some (.onUnknownRequest request) else none
  reply :=
    if request.cmdId ≠ 0 then
      some (.cmd (defaultCmdResponse request.cmdId (unhandledCommand command) now))
    else none

/-- `handleRequestFrame` from the first comparison of `command` on. -/
def dispatchCommand (parseDouble : Bytes → Option Double) (handlers : SidecarHandlers)
    (header : FrameHeader) (command : IpcCommand) (cmdId : CmdId) (payloadToken : Bytes)
    (payloadMap : MemberMap) (now : Int64) : Handled :=
  let missing (message : String) := CommandResult.cmd (defaultCmdResponse cmdId (lit message) now)
  if command = .SyncAdapterBootstrap then
    sync handlers (.onBootstrap (bootstrapRequest header cmdId payloadMap))
  else if command = .SyncAdapterConfigChanged then
    sync handlers (.onConfigChanged (configChangedRequest header cmdId payloadMap))
  else if command = .SyncAdapterInstanceRemoved then
    sync handlers (.onInstanceRemoved (instanceRemovedRequest header cmdId payloadMap))
  else if command = .CmdChannelInvoke then
    typed handlers (.onChannelInvoke (channelInvokeRequest cmdId payloadMap parseDouble))
      (missing "Channel invoke handler not registered")
  else if command = .CmdAdapterActionInvoke then
    typed handlers (.onAdapterActionInvoke (adapterActionInvokeRequest cmdId payloadMap))
      (.action (defaultActionResponse cmdId (lit "Adapter action handler not registered") now))
  else if command = .CmdDeviceNameUpdate then
    typed handlers (.onDeviceNameUpdate (deviceNameUpdateRequest cmdId payloadMap))
      (missing "Device name update handler not registered")
  else if command = .CmdDeviceEffectInvoke then
    typed handlers (.onDeviceEffectInvoke (deviceEffectInvokeRequest cmdId payloadMap))
      (missing "Device effect handler not registered")
  else if command = .CmdSceneInvoke then
    typed handlers (.onSceneInvoke (sceneInvokeRequest cmdId payloadMap))
      (missing "Scene invoke handler not registered")
  else if command = .CmdAdaptersStreamStart then
    typed handlers (.onAdaptersStreamStart (adaptersStreamStartRequest cmdId payloadMap))
      (missing "Adapters stream start handler not registered")
  else if command = .CmdAdaptersStreamStop then
    typed handlers (.onAdaptersStreamStop (adaptersStreamStopRequest cmdId payloadMap))
      (missing "Adapters stream stop handler not registered")
  else
    let request : UnknownRequest :=
      { cmdId, externalId := memberText payloadMap "externalId", command := command.toUint16,
        payloadJson := payloadToken }
    unknown handlers request command now

def protocolError (handlers : SidecarHandlers) (message : Bytes) : Handled where
  call := if handlers.onProtocolError then some (.onProtocolError message) else none
  result := false

/-- The command id of a request: the `cmdId` member if it is a number, else the header's. -/
def requestCmdId (header : FrameHeader) (root : MemberMap) : CmdId :=
  (parseCmdIdToken (member root (lit "cmdId"))).getD header.correlationId

def requestPayloadToken (root : MemberMap) : Bytes :=
  let payloadToken := member root (lit "payload")
  if payloadToken = [] then lit "\x7b\x7d" else payloadToken

/-- The members of the payload; a payload that is no object has none. -/
def requestPayloadMap (root : MemberMap) : MemberMap :=
  match parseObjectMembers (requestPayloadToken root) with
  | .ok payloadMap => payloadMap
  | .error _ => {}

def handleRequestFrame (parseDouble : Bytes → Option Double) (handlers : SidecarHandlers)
    (header : FrameHeader) (payload : Bytes) (now : Int64) : Handled :=
  match parseObjectMembers payload with
  | .error parseError => protocolError handlers (lit "Invalid request JSON: " ++ parseError)
  | .ok root =>
    match parseIpcCommandToken (member root (lit "command")) with
    | none => protocolError handlers (lit "Request missing/invalid command")
    | some command =>
      if matchesMessageType (messageType header) command then
        dispatchCommand parseDouble handlers header command (requestCmdId header root)
          (requestPayloadToken root) (requestPayloadMap root) now
      else
        protocolError handlers (lit "Frame type does not match command class: command=" ++
          toStringU command.toUint16.toNat)

/-- The `onFrame` callback of the dispatcher. -/
def onFrame (parseDouble : Bytes → Option Double) (handlers : SidecarHandlers)
    (header : FrameHeader) (payload : Bytes) (now : Int64) : Handled :=
  if messageType header ≠ .Request then {}
  else handleRequestFrame parseDouble handlers header payload now

end Phi.Dispatcher
