import PhiSidecar.Wire.Build

/-!
# Outbound functions (`sidecar.cpp`: `sendJson`, `sendCmdResult` … `sendStreamEnd`)

Each function is the frame it hands to `queueOutboundFrame`; `now` is what `nowMs()` returns. A
frame carries the two facts its constructions share: only log frames are incidents, and log frames
are events. `origin` is a ghost: it says where a frame comes from and no function reads it.
-/

set_option autoImplicit false

namespace Phi.Dispatcher

open Phi.V1 Phi.Wire

/-- `SidecarDispatcher::OutboundFrame`. -/
structure OutboundFrame (τ : Type) where
  type : MessageType := .Event
  correlationId : CorrelationId := 0
  isLogFrame : Bool := false
  isIncident : Bool := false
  plugin : Utf8String := []
  externalId : ExternalId := []
  message : Utf8String := []
  payload : Bytes
  origin : τ
  incident_log : isIncident = true → isLogFrame = true := by decide
  log_event : isLogFrame = true → type = .Event := by decide

variable {τ : Type}

def sendJson (origin : τ) (type : MessageType) (correlationId : CorrelationId) (json : Bytes) :
    OutboundFrame τ where
  type := type
  correlationId := correlationId
  payload := json
  origin := origin
  log_event h := absurd h (by decide)

/-- `tsMs > 0 ? tsMs : nowMs()`. -/
def tsOrNow (tsMs now : Int64) : Int64 := if 0 < tsMs then tsMs else now

/-! ## Results -/

def cmdResultJson (response : CmdResponse) (now : Int64) : Bytes :=
  openEnvelopeWithCmdId .ResultCmd response.id
    |>.field "status" (toStringI response.status.raw.toNat)
    |>.field "error" (jsonQuoted response.error)
    |>.field "errorCtx" (jsonQuoted response.errorContext)
    |>.field "errorParams" (scalarListJson response.errorParams)
    |>.field "finalValue" (scalarJson response.finalValue)
    |>.field "tsMs" (toStringI (tsOrNow response.tsMs now).toInt)
    |> closeEnvelope

def sendCmdResult (origin : τ) (response : CmdResponse) (now : Int64) : OutboundFrame τ :=
  sendJson origin .Response response.id (cmdResultJson response now)

def actionResultJson (response : ActionResponse) (now : Int64) : Bytes :=
  let resultValueJson := trim response.resultValueJson
  let formValues := trim response.formValuesJson
  let fieldChoices := trim response.fieldChoicesJson
  openEnvelopeWithCmdId .ResultAction response.id
    |>.field "status" (toStringI response.status.raw.toNat)
    |>.field "error" (jsonQuoted response.error)
    |>.field "errorCtx" (jsonQuoted response.errorContext)
    |>.field "errorParams" (scalarListJson response.errorParams)
    |>.field "resultType" (toStringI response.resultType.raw.toNat)
    |>.field "resultValue" (if resultValueJson ≠ [] then
        jsonTokenOrDefault resultValueJson (lit "null")
      else scalarJson response.resultValue)
    |>.fieldIf (formValues != []) "formValues" (metaJson formValues)
    |>.fieldIf (fieldChoices != []) "fieldChoices" (metaJson fieldChoices)
    |>.fieldIf response.reloadLayout "reloadLayout" (lit "true")
    |>.field "tsMs" (toStringI (tsOrNow response.tsMs now).toInt)
    |> closeEnvelope

def sendActionResult (origin : τ) (response : ActionResponse) (now : Int64) : OutboundFrame τ :=
  sendJson origin .Response response.id (actionResultJson response now)

/-! ## Connection state, logs and descriptors -/

def sendConnectionStateChanged (origin : τ) (externalId : ExternalId) (connected : Bool) :
    OutboundFrame τ :=
  sendJson origin .Event 0 (openEnvelope .EventConnectionStateChanged
    |>.field "externalId" (jsonQuoted externalId)
    |>.field "connected" (boolJson connected)
    |> closeEnvelope)

/-- The body that `sendError` and `sendLog` share. -/
def logJson (externalId : ExternalId) (plugin : Utf8String) (level : LogLevel)
    (category : LogCategory) (incident : Bool) (message : Utf8String) (params : ScalarList)
    (ctx : Utf8String) (fieldsJson : JsonText) (tsMs now : Int64) : Bytes :=
  let fields := if blank fieldsJson then lit "\x7b\x7d" else fieldsJson
  openEnvelope .EventLog
    |>.field "externalId" (jsonQuoted externalId)
    |>.field "plugin" (jsonQuoted plugin)
    |>.field "level" (toStringI (encodeWireLevel level).toNat)
    |>.field "category" (toStringI (encodeWireCategory category incident).toNat)
    |>.field "message" (jsonQuoted message)
    |>.field "ctx" (jsonQuoted ctx)
    |>.field "params" (scalarListJson params)
    |>.field "fields" (jsonTokenOrDefault fields (lit "\x7b\x7d"))
    |>.field "tsMs" (toStringI (tsOrNow tsMs now).toInt)
    |> closeEnvelope

def sendError (origin : τ) (externalId : ExternalId) (plugin : Utf8String) (category : LogCategory)
    (message : Utf8String) (params : ScalarList) (ctx : Utf8String) (fieldsJson : JsonText)
    (tsMs now : Int64) : OutboundFrame τ where
  isLogFrame := true
  isIncident := true
  plugin := plugin
  externalId := externalId
  message := message
  payload := logJson externalId plugin .Error category true message params ctx fieldsJson tsMs now
  origin := origin

def sendLog (origin : τ) (externalId : ExternalId) (plugin : Utf8String) (entry : LogEntry)
    (now : Int64) : OutboundFrame τ where
  isLogFrame := true
  plugin := plugin
  externalId := externalId
  message := entry.message
  payload := logJson externalId plugin entry.level entry.category false entry.message entry.params
    entry.ctx entry.fieldsJson entry.tsMs now
  origin := origin

def sendAdapterMetaUpdated (origin : τ) (externalId : ExternalId) (metaPatchJson : JsonText) :
    OutboundFrame τ :=
  let patch := if blank metaPatchJson then lit "\x7b\x7d" else metaPatchJson
  sendJson origin .Event 0 (openEnvelope .EventAdapterMetaUpdated
    |>.field "externalId" (jsonQuoted externalId)
    |>.field "metaPatch" (jsonTokenOrDefault patch (lit "\x7b\x7d"))
    |> closeEnvelope)

/-- The body that the two descriptor messages share. -/
def descriptorBody (command : IpcCommand) (externalId : ExternalId)
    (descriptor : AdapterDescriptor) : Bytes :=
  openEnvelope command
    |>.field "externalId" (jsonQuoted externalId)
    |>.field "descriptor" (descriptorToJson descriptor)
    |> closeEnvelope

def sendAdapterDescriptor (origin : τ) (externalId : ExternalId) (descriptor : AdapterDescriptor)
    (correlationId : CorrelationId) : OutboundFrame τ :=
  sendJson origin .Response correlationId
    (descriptorBody .ResponseFactoryDescriptor externalId descriptor)

def sendAdapterDescriptorUpdated (origin : τ) (externalId : ExternalId)
    (descriptor : AdapterDescriptor) : OutboundFrame τ :=
  sendJson origin .Event 0 (descriptorBody .EventFactoryDescriptorUpdated externalId descriptor)

/-! ## Channels and devices -/

/-- The body that the two channel state messages share. -/
def channelStateBody (externalId deviceExternalId channelExternalId : ExternalId) (value : Bytes)
    (tsMs now : Int64) : Bytes :=
  openEnvelope .EventChannelStateUpdated
    |>.field "externalId" (jsonQuoted externalId)
    |>.field "deviceExternalId" (jsonQuoted deviceExternalId)
    |>.field "channelExternalId" (jsonQuoted channelExternalId)
    |>.field "value" value
    |>.field "tsMs" (toStringI (tsOrNow tsMs now).toInt)
    |> closeEnvelope

def sendChannelStateUpdated (origin : τ) (externalId deviceExternalId channelExternalId : ExternalId)
    (value : ScalarValue) (tsMs now : Int64) : OutboundFrame τ :=
  sendJson origin .Event 0
    (channelStateBody externalId deviceExternalId channelExternalId (scalarJson value) tsMs now)

/-- The color value of `sendChannelColorStateUpdated`. -/
def colorJson (r g b : Double) : Bytes :=
  lit "\x7b\"r\":" ++ doubleJson r ++ lit ",\"g\":" ++ doubleJson g ++ lit ",\"b\":" ++
    doubleJson b ++ [0x7D]

def sendChannelColorStateUpdated (origin : τ)
    (externalId deviceExternalId channelExternalId : ExternalId) (r g b : Double)
    (tsMs now : Int64) : OutboundFrame τ :=
  sendJson origin .Event 0
    (channelStateBody externalId deviceExternalId channelExternalId (colorJson r g b) tsMs now)

def sendDeviceUpdated (origin : τ) (externalId : ExternalId) (device : Device)
    (channels : List Channel) : OutboundFrame τ :=
  sendJson origin .Event 0 (openEnvelope .EventDeviceUpdated
    |>.field "externalId" (jsonQuoted externalId)
    |>.field "device" (deviceToJson device)
    |>.field "channels" (arrayJson (channels.map channelToJson))
    |> closeEnvelope)

def sendChannelUpdated (origin : τ) (externalId deviceExternalId : ExternalId) (channel : Channel) :
    OutboundFrame τ :=
  sendJson origin .Event 0 (openEnvelope .EventChannelUpdated
    |>.field "externalId" (jsonQuoted externalId)
    |>.field "deviceExternalId" (jsonQuoted deviceExternalId)
    |>.field "channel" (channelToJson channel)
    |> closeEnvelope)

/-! ## Rooms, groups and scenes; removals -/

/-- The message of one entity: its instance and the entity object or id. -/
def sendEntity (origin : τ) (command : IpcCommand) (externalId : ExternalId) (key : String)
    (value : Bytes) : OutboundFrame τ :=
  sendJson origin .Event 0 (openEnvelope command
    |>.field "externalId" (jsonQuoted externalId)
    |>.field key value
    |> closeEnvelope)

def sendDeviceRemoved (origin : τ) (externalId deviceExternalId : ExternalId) : OutboundFrame τ :=
  sendEntity origin .EventDeviceRemoved externalId "deviceExternalId" (jsonQuoted deviceExternalId)

def sendRoomUpdated (origin : τ) (externalId : ExternalId) (room : Room) : OutboundFrame τ :=
  sendEntity origin .EventRoomUpdated externalId "room" (roomToJson room)

def sendRoomRemoved (origin : τ) (externalId roomExternalId : ExternalId) : OutboundFrame τ :=
  sendEntity origin .EventRoomRemoved externalId "roomExternalId" (jsonQuoted roomExternalId)

def sendGroupUpdated (origin : τ) (externalId : ExternalId) (group : Group) : OutboundFrame τ :=
  sendEntity origin .EventGroupUpdated externalId "group" (groupToJson group)

def sendGroupRemoved (origin : τ) (externalId groupExternalId : ExternalId) : OutboundFrame τ :=
  sendEntity origin .EventGroupRemoved externalId "groupExternalId" (jsonQuoted groupExternalId)

def sendSceneUpdated (origin : τ) (externalId : ExternalId) (scene : Scene) : OutboundFrame τ :=
  sendEntity origin .EventSceneUpdated externalId "scene" (sceneToJson scene)

def sendSceneRemoved (origin : τ) (externalId sceneExternalId : ExternalId) : OutboundFrame τ :=
  sendEntity origin .EventSceneRemoved externalId "sceneExternalId" (jsonQuoted sceneExternalId)

/-! ## Streams -/

/-- The envelope and the three fields with which every stream message begins. -/
def openStream (command : IpcCommand) (externalId : ExternalId) (streamId cmd : Utf8String) : Out :=
  openEnvelope command
    |>.field "externalId" (jsonQuoted externalId)
    |>.field "streamId" (jsonQuoted streamId)
    |>.field "cmd" (jsonQuoted cmd)

def sendStreamOpen (origin : τ) (externalId : ExternalId) (streamId cmd kind contentType
    contentEncoding : Utf8String) (metaJson : JsonText) : OutboundFrame τ :=
  sendJson origin .Event 0 (openStream .EventStreamOpen externalId streamId cmd
    |>.field "kind" (jsonQuoted kind)
    |>.field "contentType"
      (jsonQuoted (if contentType = [] then lit "application/json" else contentType))
    |>.fieldIf (!blank contentEncoding) "contentEncoding" (jsonQuoted contentEncoding)
    |>.field "meta" (jsonTokenOrDefault metaJson (lit "\x7b\x7d"))
    |> closeEnvelope)

def sendStreamData (origin : τ) (externalId : ExternalId) (streamId cmd : Utf8String) (seq : Int64)
    (payloadJson : JsonText) (tsMs now : Int64) : OutboundFrame τ :=
  sendJson origin .Event 0 (openStream .EventStreamData externalId streamId cmd
    |>.field "seq" (toStringI seq.toInt)
    |>.field "tsMs" (toStringI (tsOrNow tsMs now).toInt)
    |>.field "data" (jsonTokenOrDefault payloadJson (lit "\x7b\x7d"))
    |> closeEnvelope)

/-- The `error` object of `sendStreamError`. -/
def streamErrorJson (message code : Utf8String) (params : ScalarList) (ctx : Utf8String) : Bytes :=
  openObject
    |>.field "message" (jsonQuoted message)
    |>.fieldIf (!blank code) "code" (jsonQuoted code)
    |>.fieldIf (!blank ctx) "ctx" (jsonQuoted ctx)
    |>.fieldIf (!params.isEmpty) "params" (scalarListJson params)
    |>.close

def sendStreamError (origin : τ) (externalId : ExternalId) (streamId cmd message code : Utf8String)
    (params : ScalarList) (ctx : Utf8String) : OutboundFrame τ :=
  sendJson origin .Event 0 (openStream .EventStreamError externalId streamId cmd
    |>.field "error" (streamErrorJson message code params ctx)
    |> closeEnvelope)

def sendStreamEnd (origin : τ) (externalId : ExternalId) (streamId cmd reason : Utf8String) :
    OutboundFrame τ :=
  sendJson origin .Event 0 (openStream .EventStreamEnd externalId streamId cmd
    |>.field "reason" (jsonQuoted reason)
    |> closeEnvelope)

end Phi.Dispatcher
