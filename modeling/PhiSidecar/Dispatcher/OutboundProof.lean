import PhiSidecar.Dispatcher.Outbound
import PhiSidecar.Wire.EntityDoc

/-!
# Outbound envelopes round-trip

`Outbound` is a call of one of the outbound functions with its arguments, `Outbound.frame` the frame
it makes and `Outbound.doc` what the contract says the frame holds. `frame_reads`: **the payload of
every outbound function is a JSON object from which its document reads back**, when the raw JSON
arguments are blank or JSON text.
-/

set_option autoImplicit false

namespace Phi.Dispatcher

open Phi.V1 Phi.Wire Doc
open Rfc8259 (commaSep)

/-- A call of an outbound function. -/
inductive Outbound
  | cmdResult (response : CmdResponse)
  | actionResult (response : ActionResponse)
  | connectionStateChanged (externalId : ExternalId) (connected : Bool)
  | error (externalId : ExternalId) (plugin : Utf8String) (category : LogCategory)
      (message : Utf8String) (params : ScalarList) (ctx : Utf8String) (fieldsJson : JsonText)
      (tsMs : Int64)
  | log (externalId : ExternalId) (plugin : Utf8String) (entry : LogEntry)
  | adapterMetaUpdated (externalId : ExternalId) (metaPatchJson : JsonText)
  | adapterDescriptor (externalId : ExternalId) (descriptor : AdapterDescriptor)
      (correlationId : CorrelationId)
  | adapterDescriptorUpdated (externalId : ExternalId) (descriptor : AdapterDescriptor)
  | channelStateUpdated (externalId deviceExternalId channelExternalId : ExternalId)
      (value : ScalarValue) (tsMs : Int64)
  | channelColorStateUpdated (externalId deviceExternalId channelExternalId : ExternalId)
      (r g b : Double) (tsMs : Int64)
  | deviceUpdated (externalId : ExternalId) (device : Device) (channels : List Channel)
  | deviceRemoved (externalId deviceExternalId : ExternalId)
  | channelUpdated (externalId deviceExternalId : ExternalId) (channel : Channel)
  | roomUpdated (externalId : ExternalId) (room : Room)
  | roomRemoved (externalId roomExternalId : ExternalId)
  | groupUpdated (externalId : ExternalId) (group : Group)
  | groupRemoved (externalId groupExternalId : ExternalId)
  | sceneUpdated (externalId : ExternalId) (scene : Scene)
  | sceneRemoved (externalId sceneExternalId : ExternalId)
  | streamOpen (externalId : ExternalId) (streamId cmd kind contentType contentEncoding : Utf8String)
      (metaJson : JsonText)
  | streamData (externalId : ExternalId) (streamId cmd : Utf8String) (seq : Int64)
      (payloadJson : JsonText) (tsMs : Int64)
  | streamError (externalId : ExternalId) (streamId cmd message code : Utf8String)
      (params : ScalarList) (ctx : Utf8String)
  | streamEnd (externalId : ExternalId) (streamId cmd reason : Utf8String)

namespace Outbound

/-- The frame the call queues. -/
def frame {τ : Type} (origin : τ) (now : Int64) : Outbound → OutboundFrame τ
  | .cmdResult response => sendCmdResult origin response now
  | .actionResult response => sendActionResult origin response now
  | .connectionStateChanged externalId connected =>
    sendConnectionStateChanged origin externalId connected
  | .error externalId plugin category message params ctx fieldsJson tsMs =>
    sendError origin externalId plugin category message params ctx fieldsJson tsMs now
  | .log externalId plugin entry => sendLog origin externalId plugin entry now
  | .adapterMetaUpdated externalId metaPatchJson =>
    sendAdapterMetaUpdated origin externalId metaPatchJson
  | .adapterDescriptor externalId descriptor correlationId =>
    sendAdapterDescriptor origin externalId descriptor correlationId
  | .adapterDescriptorUpdated externalId descriptor =>
    sendAdapterDescriptorUpdated origin externalId descriptor
  | .channelStateUpdated externalId deviceExternalId channelExternalId value tsMs =>
    sendChannelStateUpdated origin externalId deviceExternalId channelExternalId value tsMs now
  | .channelColorStateUpdated externalId deviceExternalId channelExternalId r g b tsMs =>
    sendChannelColorStateUpdated origin externalId deviceExternalId channelExternalId r g b tsMs now
  | .deviceUpdated externalId device channels => sendDeviceUpdated origin externalId device channels
  | .deviceRemoved externalId deviceExternalId => sendDeviceRemoved origin externalId deviceExternalId
  | .channelUpdated externalId deviceExternalId channel =>
    sendChannelUpdated origin externalId deviceExternalId channel
  | .roomUpdated externalId room => sendRoomUpdated origin externalId room
  | .roomRemoved externalId roomExternalId => sendRoomRemoved origin externalId roomExternalId
  | .groupUpdated externalId group => sendGroupUpdated origin externalId group
  | .groupRemoved externalId groupExternalId => sendGroupRemoved origin externalId groupExternalId
  | .sceneUpdated externalId scene => sendSceneUpdated origin externalId scene
  | .sceneRemoved externalId sceneExternalId => sendSceneRemoved origin externalId sceneExternalId
  | .streamOpen externalId streamId cmd kind contentType contentEncoding metaJson =>
    sendStreamOpen origin externalId streamId cmd kind contentType contentEncoding metaJson
  | .streamData externalId streamId cmd seq payloadJson tsMs =>
    sendStreamData origin externalId streamId cmd seq payloadJson tsMs now
  | .streamError externalId streamId cmd message code params ctx =>
    sendStreamError origin externalId streamId cmd message code params ctx
  | .streamEnd externalId streamId cmd reason => sendStreamEnd origin externalId streamId cmd reason

/-- The raw JSON arguments of the call are blank or JSON text. -/
def RawArgs : Outbound → Prop
  | .actionResult response => RawArg response.resultValueJson ∧ RawArg response.formValuesJson ∧
      RawArg response.fieldChoicesJson
  | .error _ _ _ _ _ _ fieldsJson _ => RawArg fieldsJson
  | .log _ _ entry => RawArg entry.fieldsJson
  | .adapterMetaUpdated _ metaPatchJson => RawArg metaPatchJson
  | .adapterDescriptor _ descriptor _ => DescriptorRaw descriptor
  | .adapterDescriptorUpdated _ descriptor => DescriptorRaw descriptor
  | .deviceUpdated _ device channels =>
    DeviceRaw device ∧ ∀ channel ∈ channels, RawArg channel.metaJson
  | .channelUpdated _ _ channel => RawArg channel.metaJson
  | .roomUpdated _ room => RawArg room.metaJson
  | .groupUpdated _ group => RawArg group.metaJson
  | .sceneUpdated _ scene => RawArg scene.metaJson
  | .streamOpen _ _ _ _ _ _ metaJson => RawArg metaJson
  | .streamData _ _ _ _ payloadJson _ => RawArg payloadJson
  | _ => True

/-! ## Documents -/

/-- `{"command": …, "payload": {…}}`. -/
def envelope (command : IpcCommand) (fs : List (Bytes × Doc)) : Doc :=
  .obj [fld "command" (.int command.toUint16.toNat), fld "payload" (.obj fs)]

/-- `{"command": …, "cmdId": …, "payload": {…}}`. -/
def envelopeWithCmdId (command : IpcCommand) (cmdId : CmdId) (fs : List (Bytes × Doc)) : Doc :=
  .obj [fld "command" (.int command.toUint16.toNat), fld "cmdId" (.uint cmdId),
    fld "payload" (.obj fs)]

def scalarsDoc (values : ScalarList) : Doc := .arr (values.map ofScalar)

/-- The millisecond timestamp of a message: the given one, or the current time. -/
def tsDoc (tsMs now : Int64) : Bytes × Doc := fld "tsMs" (.int (tsOrNow tsMs now).toInt)

def logDoc (externalId : ExternalId) (plugin : Utf8String) (level category : UInt8)
    (message : Utf8String) (params : ScalarList) (ctx : Utf8String) (fieldsJson : JsonText)
    (tsMs now : Int64) : Doc :=
  envelope .EventLog [fld "externalId" (.text externalId), fld "plugin" (.text plugin),
    fld "level" (.int level.toNat), fld "category" (.int category.toNat),
    fld "message" (.text message), fld "ctx" (.text ctx), fld "params" (scalarsDoc params),
    fld "fields" (rawOr fieldsJson (.obj [])), tsDoc tsMs now]

def entityDoc (command : IpcCommand) (externalId : ExternalId) (key : String) (d : Doc) : Doc :=
  envelope command [fld "externalId" (.text externalId), fld key d]

def channelStateDoc (externalId deviceExternalId channelExternalId : ExternalId) (value : Doc)
    (tsMs now : Int64) : Doc :=
  envelope .EventChannelStateUpdated [fld "externalId" (.text externalId),
    fld "deviceExternalId" (.text deviceExternalId),
    fld "channelExternalId" (.text channelExternalId), fld "value" value, tsDoc tsMs now]

def colorDoc (r g b : Double) : Doc :=
  .obj [fld "r" (.double r), fld "g" (.double g), fld "b" (.double b)]

def streamDoc (command : IpcCommand) (externalId : ExternalId) (streamId cmd : Utf8String)
    (fs : List (Bytes × Doc)) : Doc :=
  envelope command ([fld "externalId" (.text externalId), fld "streamId" (.text streamId),
    fld "cmd" (.text cmd)] ++ fs)

/-- What the frame of the call holds. -/
def doc (now : Int64) : Outbound → Doc
  | .cmdResult response => envelopeWithCmdId .ResultCmd response.id
      [fld "status" (.int response.status.raw.toNat), fld "error" (.text response.error),
        fld "errorCtx" (.text response.errorContext),
        fld "errorParams" (scalarsDoc response.errorParams),
        fld "finalValue" (ofScalar response.finalValue), tsDoc response.tsMs now]
  | .actionResult response => envelopeWithCmdId .ResultAction response.id
      ([fld "status" (.int response.status.raw.toNat), fld "error" (.text response.error),
        fld "errorCtx" (.text response.errorContext),
        fld "errorParams" (scalarsDoc response.errorParams),
        fld "resultType" (.int response.resultType.raw.toNat),
        fld "resultValue" (rawOr response.resultValueJson (ofScalar response.resultValue))] ++
        optional (!blank response.formValuesJson) "formValues" (.raw response.formValuesJson) ++
        optional (!blank response.fieldChoicesJson) "fieldChoices" (.raw response.fieldChoicesJson) ++
        optional response.reloadLayout "reloadLayout" (.bool true) ++ [tsDoc response.tsMs now])
  | .connectionStateChanged externalId connected => envelope .EventConnectionStateChanged
      [fld "externalId" (.text externalId), fld "connected" (.bool connected)]
  | .error externalId plugin category message params ctx fieldsJson tsMs =>
    logDoc externalId plugin (encodeWireLevel .Error) (encodeWireCategory category true) message
      params ctx fieldsJson tsMs now
  | .log externalId plugin entry =>
    logDoc externalId plugin (encodeWireLevel entry.level) (encodeWireCategory entry.category false)
      entry.message entry.params entry.ctx entry.fieldsJson entry.tsMs now
  | .adapterMetaUpdated externalId metaPatchJson =>
    entityDoc .EventAdapterMetaUpdated externalId "metaPatch" (rawOr metaPatchJson (.obj []))
  | .adapterDescriptor externalId descriptor _ =>
    entityDoc .ResponseFactoryDescriptor externalId "descriptor" (descriptorDoc descriptor)
  | .adapterDescriptorUpdated externalId descriptor =>
    entityDoc .EventFactoryDescriptorUpdated externalId "descriptor" (descriptorDoc descriptor)
  | .channelStateUpdated externalId deviceExternalId channelExternalId value tsMs =>
    channelStateDoc externalId deviceExternalId channelExternalId (ofScalar value) tsMs now
  | .channelColorStateUpdated externalId deviceExternalId channelExternalId r g b tsMs =>
    channelStateDoc externalId deviceExternalId channelExternalId (colorDoc r g b) tsMs now
  | .deviceUpdated externalId device channels => envelope .EventDeviceUpdated
      [fld "externalId" (.text externalId), fld "device" (deviceDoc device),
        fld "channels" (.arr (channels.map channelDoc))]
  | .deviceRemoved externalId deviceExternalId =>
    entityDoc .EventDeviceRemoved externalId "deviceExternalId" (.text deviceExternalId)
  | .channelUpdated externalId deviceExternalId channel => envelope .EventChannelUpdated
      [fld "externalId" (.text externalId), fld "deviceExternalId" (.text deviceExternalId),
        fld "channel" (channelDoc channel)]
  | .roomUpdated externalId room => entityDoc .EventRoomUpdated externalId "room" (roomDoc room)
  | .roomRemoved externalId roomExternalId =>
    entityDoc .EventRoomRemoved externalId "roomExternalId" (.text roomExternalId)
  | .groupUpdated externalId group =>
    entityDoc .EventGroupUpdated externalId "group" (groupDoc group)
  | .groupRemoved externalId groupExternalId =>
    entityDoc .EventGroupRemoved externalId "groupExternalId" (.text groupExternalId)
  | .sceneUpdated externalId scene =>
    entityDoc .EventSceneUpdated externalId "scene" (sceneDoc scene)
  | .sceneRemoved externalId sceneExternalId =>
    entityDoc .EventSceneRemoved externalId "sceneExternalId" (.text sceneExternalId)
  | .streamOpen externalId streamId cmd kind contentType contentEncoding metaJson =>
    streamDoc .EventStreamOpen externalId streamId cmd
      ([fld "kind" (.text kind), fld "contentType"
          (.text (if contentType = [] then lit "application/json" else contentType))] ++
        optional (!blank contentEncoding) "contentEncoding" (.text contentEncoding) ++
        [fld "meta" (rawOr metaJson (.obj []))])
  | .streamData externalId streamId cmd seq payloadJson tsMs =>
    streamDoc .EventStreamData externalId streamId cmd [fld "seq" (.int seq.toInt), tsDoc tsMs now,
      fld "data" (rawOr payloadJson (.obj []))]
  | .streamError externalId streamId cmd message code params ctx =>
    streamDoc .EventStreamError externalId streamId cmd [fld "error" (.obj
      ([fld "message" (.text message)] ++ optional (!blank code) "code" (.text code) ++
        optional (!blank ctx) "ctx" (.text ctx) ++
        optional (!params.isEmpty) "params" (scalarsDoc params)))]
  | .streamEnd externalId streamId cmd reason =>
    streamDoc .EventStreamEnd externalId streamId cmd [fld "reason" (.text reason)]

/-! ## Envelopes show their documents -/

section
variable {o : Out} {ks : List String} {fs : List (Bytes × Doc)}

theorem payload_shows {p : Bytes} (h : o.Says p ks fs) (hn : (ks.map lit).Nodup) :
    ∃ text, closeEnvelope o = p ++ (text ++ [0x7D]) ∧ (Doc.obj fs).Exact (0x7B :: text) := by
  obtain ⟨⟨kvs, rfl, hkvs⟩, hks⟩ := h
  exact ⟨commaSep (kvs.map Doc.memberText) ++ [0x7D], by simp [closeEnvelope, lit],
    .obj (hks.nodup hn) hkvs⟩

theorem lit_openCommand : lit "\x7b\"command\":" = 0x7B :: (jsonQuoted (lit "command") ++ [0x3A]) := by
  decide

theorem lit_cmdId : lit ",\"cmdId\":" = 0x2C :: (jsonQuoted (lit "cmdId") ++ [0x3A]) := by decide

theorem lit_openPayload :
    lit ",\"payload\":\x7b" = 0x2C :: (jsonQuoted (lit "payload") ++ [0x3A, 0x7B]) := by
  decide

theorem toStringI_nat (n : Nat) : toStringI n = toStringU n := rfl

/-- Closing an envelope. -/
theorem envelope_shows {command : IpcCommand} (h : o.Says (openEnvelope command).out ks fs)
    (hn : (ks.map lit).Nodup) : (envelope command fs).Exact (closeEnvelope o) := by
  obtain ⟨text, ht, hs⟩ := payload_shows h hn
  have := @Exact.obj [fld "command" (.int command.toUint16.toNat), fld "payload" (.obj fs)]
    [(lit "command", toStringI command.toUint16.toNat), (lit "payload", 0x7B :: text)]
    (show [lit "command", lit "payload"].Nodup by decide)
    (.cons ⟨rfl, .int (fits_uint16 _)⟩ (.cons ⟨rfl, hs.shows⟩ .nil))
  rw [envelope, ht, openEnvelope, lit_openCommand, lit_openPayload]
  simpa only [List.map_cons, List.map_nil, commaSep, Rfc8259.commaTail, Doc.memberText, toStringI_nat,
    List.cons_append, List.append_assoc, List.nil_append, List.append_nil] using this

theorem envelopeWithCmdId_shows {command : IpcCommand} {cmdId : CmdId}
    (h : o.Says (openEnvelopeWithCmdId command cmdId).out ks fs) (hn : (ks.map lit).Nodup) :
    (envelopeWithCmdId command cmdId fs).Exact (closeEnvelope o) := by
  obtain ⟨text, ht, hs⟩ := payload_shows h hn
  have := @Exact.obj [fld "command" (.int command.toUint16.toNat), fld "cmdId" (.uint cmdId),
      fld "payload" (.obj fs)]
    [(lit "command", toStringI command.toUint16.toNat),
      (lit "cmdId", toStringU cmdId.toNat), (lit "payload", 0x7B :: text)]
    (show [lit "command", lit "cmdId", lit "payload"].Nodup by decide)
    (.cons ⟨rfl, .int (fits_uint16 _)⟩ (.cons ⟨rfl, .uint _⟩ (.cons ⟨rfl, hs.shows⟩ .nil)))
  rw [envelopeWithCmdId, ht, openEnvelopeWithCmdId, lit_openCommand, lit_cmdId, lit_openPayload]
  simpa only [List.map_cons, List.map_nil, commaSep, Rfc8259.commaTail, Doc.memberText, toStringI_nat,
    List.cons_append, List.append_assoc, List.nil_append, List.append_nil] using this

theorem scalarList_shows (values : ScalarList) :
    (scalarsDoc values).Shows (scalarListJson values) := .list fun _ _ => .scalar _

theorem fits_ts (tsMs now : Int64) : Fits (tsOrNow tsMs now).toInt := fits_int64 _

end

section
variable (now : Int64)

theorem cmdResult_shows (response : CmdResponse) :
    (doc now (.cmdResult response)).Exact (cmdResultJson response now) :=
  envelopeWithCmdId_shows (Out.Says.start _ |>.field (.int (fits_uint8 _)) |>.field (.text _)
    |>.field (.text _) |>.field (scalarList_shows _) |>.field (.scalar _)
    |>.field (.int (fits_ts _ _))) (by decide)

/-- The optional raw JSON arguments of `sendActionResult` are trimmed before they are tested. -/
theorem trimmed_shows {json : Bytes} (h : RawArg json) (hb : (trim json != []) = true) :
    (Doc.raw json).Shows (metaJson (trim json)) := by
  have hj : RawJson json := h.rawJson hb
  have hs := Shows.raw_trim hj
  obtain ⟨w, v, w', hw, hv, hw', he⟩ := hj
  have ht : trim json = v := by rw [he, trim_value hv hw hw']
  rw [ht] at hs hb ⊢
  rwa [metaJson, trim_value_self hv, if_neg (by simpa using hb)]

theorem resultValue_shows {response : ActionResponse} (h : RawArg response.resultValueJson) :
    (rawOr response.resultValueJson (ofScalar response.resultValue)).Shows
      (if trim response.resultValueJson ≠ [] then
        jsonTokenOrDefault (trim response.resultValueJson) (lit "null")
      else scalarJson response.resultValue) := by
  unfold rawOr
  split_ifs with hb ht ht
  · exact absurd (blank_iff.1 hb) ht
  · exact .scalar _
  · obtain ⟨w, v, w', hw, hv, hw', he⟩ := h.resolve_left hb
    have htr : trim response.resultValueJson = v := by rw [he, trim_value hv hw hw']
    have hs := Shows.raw_trim (h.resolve_left hb)
    rw [htr] at hs ht ⊢
    rwa [jsonTokenOrDefault, trim_value_self hv, if_neg ht]
  · exact absurd (blank_iff.2 (not_not.1 ht)) hb

theorem actionResult_shows {response : ActionResponse} (h : RawArgs (.actionResult response)) :
    (doc now (.actionResult response)).Exact (actionResultJson response now) :=
  envelopeWithCmdId_shows (Out.Says.start _ |>.field (.int (fits_uint8 _)) |>.field (.text _)
    |>.field (.text _) |>.field (scalarList_shows _) |>.field (.int (fits_uint8 _))
    |>.field (resultValue_shows h.1) |>.fieldIf (trimmed_shows h.2.1)
    |>.fieldIf (trimmed_shows h.2.2) |>.fieldIf (fun _ => .bool true)
    |>.field (.int (fits_ts _ _))) (by decide)

theorem logFields_shows {fieldsJson : Bytes} (h : RawArg fieldsJson) :
    (rawOr fieldsJson (.obj [])).Shows (jsonTokenOrDefault
      (if blank fieldsJson then lit "\x7b\x7d" else fieldsJson) (lit "\x7b\x7d")) := by
  cases hb : blank fieldsJson with
  | true => rw [rawOr, hb]; exact .emptyObj
  | false =>
    rw [if_neg (by decide)]
    exact h.tokenOr .emptyObj

theorem log_shows {externalId : ExternalId} {plugin : Utf8String} {level : LogLevel}
    {category : LogCategory} {incident : Bool} {message : Utf8String} {params : ScalarList}
    {ctx : Utf8String} {fieldsJson : JsonText} {tsMs : Int64} (h : RawArg fieldsJson) :
    (logDoc externalId plugin (encodeWireLevel level) (encodeWireCategory category incident) message
      params ctx fieldsJson tsMs now).Exact
      (logJson externalId plugin level category incident message params ctx fieldsJson tsMs now) :=
  envelope_shows (Out.Says.start _ |>.field (.text _) |>.field (.text _)
    |>.field (.int (fits_uint8 _)) |>.field (.int (fits_uint8 _)) |>.field (.text _)
    |>.field (.text _) |>.field (scalarList_shows _) |>.field (logFields_shows h)
    |>.field (.int (fits_ts _ _))) (by decide)

theorem channelState_shows {externalId deviceExternalId channelExternalId : ExternalId} {d : Doc}
    {value : Bytes} {tsMs : Int64} (h : d.Shows value) :
    (channelStateDoc externalId deviceExternalId channelExternalId d tsMs now).Exact
      (channelStateBody externalId deviceExternalId channelExternalId value tsMs now) :=
  envelope_shows (Out.Says.start _ |>.field (.text _) |>.field (.text _) |>.field (.text _)
    |>.field h |>.field (.int (fits_ts _ _))) (by decide)

theorem color_shows (r g b : Double) : (colorDoc r g b).Shows (colorJson r g b) := by
  have := @Exact.obj [fld "r" (.double r), fld "g" (.double g), fld "b" (.double b)]
    [(lit "r", doubleJson r), (lit "g", doubleJson g), (lit "b", doubleJson b)]
    (show [lit "r", lit "g", lit "b"].Nodup by decide)
    (.cons ⟨rfl, .double _⟩ (.cons ⟨rfl, .double _⟩ (.cons ⟨rfl, .double _⟩ .nil)))
  refine Exact.shows ?_
  rw [colorDoc, colorJson, show lit "\x7b\"r\":" = 0x7B :: (jsonQuoted (lit "r") ++ [0x3A]) by decide,
    show lit ",\"g\":" = 0x2C :: (jsonQuoted (lit "g") ++ [0x3A]) by decide,
    show lit ",\"b\":" = 0x2C :: (jsonQuoted (lit "b") ++ [0x3A]) by decide]
  simpa only [List.map_cons, List.map_nil, commaSep, Rfc8259.commaTail, Doc.memberText,
    List.cons_append, List.append_assoc, List.nil_append, List.append_nil] using this

theorem entity_shows {τ : Type} {origin : τ} {command : IpcCommand} {externalId : ExternalId}
    {key : String} {d : Doc} {value : Bytes} (h : d.Shows value)
    (hk : ([("externalId" : String), key].map lit).Nodup) :
    (entityDoc command externalId key d).Exact (sendEntity origin command externalId key value).payload :=
  envelope_shows (Out.Says.start _ |>.field (.text _) |>.field h) hk

theorem streamError_shows (message code : Utf8String) (params : ScalarList) (ctx : Utf8String) :
    (Doc.obj ([fld "message" (.text message)] ++ optional (!blank code) "code" (.text code) ++
        optional (!blank ctx) "ctx" (.text ctx) ++
        optional (!params.isEmpty) "params" (scalarsDoc params))).Shows
      (streamErrorJson message code params ctx) :=
  Out.Says.start _ |>.field (.text _) |>.fieldIf (fun _ => .text _) |>.fieldIf (fun _ => .text _)
    |>.fieldIf (fun _ => scalarList_shows _) |>.close (by decide)

/-- The three fields with which every stream message begins. -/
theorem openStream_fields (command : IpcCommand) (externalId : ExternalId)
    (streamId cmd : Utf8String) :
    (openStream command externalId streamId cmd).Says (openEnvelope command).out
      ["externalId", "streamId", "cmd"] [fld "externalId" (.text externalId),
        fld "streamId" (.text streamId), fld "cmd" (.text cmd)] :=
  Out.Says.start _ |>.field (.text _) |>.field (.text _) |>.field (.text _)

/-- **What every outbound function sends reads back.** -/
theorem frame_exact {τ : Type} (origin : τ) : ∀ o : Outbound, o.RawArgs →
    (o.doc now).Exact (o.frame origin now).payload
  | .cmdResult response, _ => cmdResult_shows now response
  | .actionResult _, h => actionResult_shows now h
  | .connectionStateChanged _ _, _ =>
    envelope_shows (Out.Says.start _ |>.field (.text _) |>.field (.bool _)) (by decide)
  | .error _ _ _ _ _ _ _ _, h => log_shows now h
  | .log _ _ _, h => log_shows now h
  | .adapterMetaUpdated _ _, h =>
    envelope_shows (Out.Says.start _ |>.field (.text _) |>.field (logFields_shows h)) (by decide)
  | .adapterDescriptor _ _ _, h =>
    envelope_shows (Out.Says.start _ |>.field (.text _) |>.field (descriptorToJson_shows h))
      (by decide)
  | .adapterDescriptorUpdated _ _, h =>
    envelope_shows (Out.Says.start _ |>.field (.text _) |>.field (descriptorToJson_shows h))
      (by decide)
  | .channelStateUpdated _ _ _ _ _, _ => channelState_shows now (.scalar _)
  | .channelColorStateUpdated _ _ _ _ _ _ _, _ => channelState_shows now (color_shows _ _ _)
  | .deviceUpdated _ _ _, h =>
    envelope_shows (Out.Says.start _ |>.field (.text _) |>.field (deviceToJson_shows h.1)
      |>.field (.list fun channel hc => channelToJson_shows (h.2 channel hc))) (by decide)
  | .deviceRemoved _ _, _ => entity_shows (.text _) (by decide)
  | .channelUpdated _ _ _, h =>
    envelope_shows (Out.Says.start _ |>.field (.text _) |>.field (.text _)
      |>.field (channelToJson_shows h)) (by decide)
  | .roomUpdated _ _, h => entity_shows (roomToJson_shows h) (by decide)
  | .roomRemoved _ _, _ => entity_shows (.text _) (by decide)
  | .groupUpdated _ _, h => entity_shows (groupToJson_shows h) (by decide)
  | .groupRemoved _ _, _ => entity_shows (.text _) (by decide)
  | .sceneUpdated _ _, h => entity_shows (sceneToJson_shows h) (by decide)
  | .sceneRemoved _ _, _ => entity_shows (.text _) (by decide)
  | .streamOpen _ _ _ _ _ _ _, h =>
    envelope_shows (openStream_fields _ _ _ _ |>.field (.text _) |>.field (.text _)
      |>.fieldIf (fun _ => .text _) |>.field (RawArg.tokenOr h .emptyObj)) (by decide)
  | .streamData _ _ _ _ _ _, h =>
    envelope_shows (openStream_fields _ _ _ _ |>.field (.int (fits_int64 _))
      |>.field (.int (fits_ts _ _)) |>.field (RawArg.tokenOr h .emptyObj)) (by decide)
  | .streamError _ _ _ _ _ _ _, _ =>
    envelope_shows (openStream_fields _ _ _ _ |>.field (streamError_shows _ _ _ _)) (by decide)
  | .streamEnd _ _ _ _, _ =>
    envelope_shows (openStream_fields _ _ _ _ |>.field (.text _)) (by decide)

end

/-- **Outbound envelopes round-trip**: the payload is one JSON object and reads back as the document
of the call. -/
theorem frame_reads {τ : Type} (origin : τ) (now : Int64) (o : Outbound) (h : o.RawArgs) :
    Rfc8259.Value (o.frame origin now).payload ∧ (o.doc now).Reads (o.frame origin now).payload :=
  have he := frame_exact now origin o h
  ⟨he.value, he.reads⟩

/-- A room whose texts have quotes, a backslash and control bytes, with an object as metadata. -/
theorem frame_reads_room :
    let o : Outbound := .roomUpdated (lit "x") { name := [0x22, 0x5C, 0x00, 0xFF, 0x0A], metaJson := lit " \x7b\x7d " }
    Rfc8259.Value (o.frame () 0).payload ∧ (o.doc 0).Reads (o.frame () 0).payload :=
  frame_reads () 0 _ (.inr ⟨lit " ", Rfc8259.objText [] [], lit " ", by simp [Rfc8259.Ws, lit, Rfc8259.isWs],
    .obj .nil (by simp) (by simp), by simp [Rfc8259.Ws, lit, Rfc8259.isWs], by decide⟩)

/-- The member a list of keys leads to. -/
def follow : List String → Bytes → Except Bytes Bytes
  | [], t => .ok t
  | k :: ks, t => do follow ks (member (← parseObjectMembers t) (lit k))

/-- The part of a document that it leads to. -/
def docAt : List String → Doc → Option Doc
  | [], d => some d
  | k :: ks, .obj fs => (fs.lookup (lit k)).bind (docAt ks)
  | _ :: _, _ => none

theorem readsFields_lookup {fs : List (Bytes × Doc)} {es : List (Bytes × Bytes)} {key : Bytes} {d : Doc}
    (h : Doc.ReadsFields fs es) (hd : fs.lookup key = some d) : ∃ t, es.lookup key = some t ∧ d.Reads t := by
  induction fs generalizing es with
  | nil => cases hd
  | cons f fs ih =>
    cases es with
    | nil => exact absurd h id
    | cons e es =>
      obtain ⟨k, dk⟩ := f
      obtain ⟨ke, te⟩ := e
      obtain ⟨rfl, hread, hrest⟩ : ke = k ∧ dk.Reads te ∧ Doc.ReadsFields fs es := h
      rw [List.lookup_cons] at hd ⊢
      split at hd
      · cases hd
        exact ⟨te, rfl, hread⟩
      · exact ih hrest hd

/-- What the document has there, the parsers find there. -/
theorem follow_reads {ks : List String} {d e : Doc} {t : Bytes} (h : d.Reads t)
    (hd : docAt ks d = some e) : ∃ t', follow ks t = .ok t' ∧ e.Reads t' := by
  induction ks generalizing d t with
  | nil =>
    cases hd
    exact ⟨t, rfl, h⟩
  | cons k ks ih =>
    cases d with
    | obj fs =>
      obtain ⟨m, hm, -, hfields⟩ := h
      obtain ⟨d, hlookup, hd⟩ := Option.bind_eq_some_iff.1 hd
      obtain ⟨t', ht', hread⟩ := readsFields_lookup hfields hlookup
      obtain ⟨t'', hfollow, hread⟩ := ih hread hd
      refine ⟨t'', ?_, hread⟩
      rw [follow, hm]
      show follow ks (member m (lit k)) = _
      rw [member, MemberMap.value, ht']
      exact hfollow
    | null | bool | int | uint | double | text | raw | arr => cases hd

/-- Not every list keeps its length: an action without an id is left out of its list. -/
theorem actionListToJson_drops : ¬ ∀ (descriptor : AdapterDescriptor) (es : List Bytes),
    DescriptorRaw descriptor →
    (follow ["payload", "descriptor", "capabilities", "factoryActions"]
      ((Outbound.adapterDescriptorUpdated [] descriptor).frame () 0).payload >>=
        parseArrayElements) = .ok es →
    es.length = descriptor.capabilities.factoryActions.length := by
  intro h
  have hb : RawArg [] := .inl rfl
  have hraw : DescriptorRaw { capabilities := { factoryActions := [{}] } } :=
    ⟨⟨List.forall_mem_singleton.2 ⟨hb, hb⟩, by simp, hb⟩, hb⟩
  have hread := (frame_reads () 0
    (.adapterDescriptorUpdated [] { capabilities := { factoryActions := [{}] } }) hraw).2
  have hempty : docAt ["payload", "descriptor", "capabilities", "factoryActions"]
      (doc 0 (.adapterDescriptorUpdated [] { capabilities := { factoryActions := [{}] } })) =
        some (.arr []) := rfl
  obtain ⟨t, hfollow, ts, hparse, hreads⟩ := follow_reads hread hempty
  cases ts with
  | nil => exact absurd (h _ [] hraw (by rw [hfollow]; exact hparse)) (by decide)
  | cons => exact absurd hreads id

end Outbound

end Phi.Dispatcher
