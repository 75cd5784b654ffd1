import PhiSidecar.Dispatcher.Request
import PhiSidecar.Wire.Rendering

/-!
# Every rendering of a request decodes to it

`RequestText header call text` says that `text` is a JSON rendering of the request that `call`
carries: an envelope object with `command`, `cmdId` and `payload` members among any others, laid out
and escaped in any way. `handleRequestFrame_renders`: **for each of the ten request commands, such a
text makes exactly that handler call**.
-/

set_option autoImplicit false

namespace Phi.Dispatcher

open Phi.V1 Phi.Wire
open Rfc8259 (Ws Value)

/-! ## Renderings -/

/-- An adapter object. -/
def AdapterText (a : Adapter) (tok : Bytes) : Prop :=
  ∃ kms, ObjectText kms tok ∧
    TextField kms "name" a.name ∧ TextField kms "host" a.host ∧ TextField kms "ip" a.ip ∧
    IntField kms "port" a.port.toNat ∧ TextField kms "user" a.user ∧
    TextField kms "password" a.password ∧ TextField kms "token" a.token ∧
    TextField kms "pluginType" a.pluginType ∧ TextField kms "externalId" a.externalId ∧
    JsonField kms "meta" a.metaJson ∧ IntField kms "flags" a.flags.toNat

/-- The adapter of a payload: an `adapter` object, and members of the payload for the plugin type
and the external id, which count where the object has none. -/
def AdapterField (kms : List Keyed) (a : Adapter) : Prop :=
  ∃ inner pluginType externalId, Field kms "adapter" (AdapterText inner) (inner = {}) ∧
    TextField kms "pluginType" pluginType ∧ TextField kms "externalId" externalId ∧
    a = { inner with
      pluginType := if inner.pluginType = [] then pluginType else inner.pluginType
      externalId := if inner.externalId = [] then externalId else inner.externalId }

/-- `params`, which default to `{}`. -/
def ParamsField (kms : List Keyed) (json : JsonText) : Prop :=
  Field kms "params" (· = json) (json = lit "\x7b\x7d")

/-- The payload members of a typed request. -/
def Payload (header : FrameHeader) (kms : List Keyed) : HandlerCall → Prop
  | .onBootstrap r => r.correlationId = header.correlationId ∧
      IntField kms "adapterId" r.adapterId.toInt ∧
      JsonField kms "staticConfig" r.staticConfigJson ∧ AdapterField kms r.adapter
  | .onConfigChanged r => r.correlationId = header.correlationId ∧
      IntField kms "adapterId" r.adapterId.toInt ∧
      JsonField kms "staticConfig" r.staticConfigJson ∧ AdapterField kms r.adapter
  | .onInstanceRemoved r => r.correlationId = header.correlationId ∧
      IntField kms "adapterId" r.adapterId.toInt ∧ TextField kms "pluginType" r.pluginType ∧
      TextField kms "externalId" r.externalId
  | .onChannelInvoke r => TextField kms "externalId" r.externalId ∧
      TextField kms "deviceExternalId" r.deviceExternalId ∧
      TextField kms "channelExternalId" r.channelExternalId ∧ JsonField kms "value" r.valueJson
  | .onAdapterActionInvoke r => TextField kms "externalId" r.externalId ∧
      TextField kms "actionId" r.actionId ∧ ParamsField kms r.paramsJson
  | .onDeviceNameUpdate r => TextField kms "externalId" r.externalId ∧
      TextField kms "deviceExternalId" r.deviceExternalId ∧ TextField kms "name" r.name
  | .onDeviceEffectInvoke r => TextField kms "externalId" r.externalId ∧
      TextField kms "deviceExternalId" r.deviceExternalId ∧ IntField kms "effect" r.effect.toNat ∧
      TextField kms "effectId" r.effectId ∧ ParamsField kms r.paramsJson
  | .onSceneInvoke r => TextField kms "externalId" r.externalId ∧
      TextField kms "sceneExternalId" r.sceneExternalId ∧
      TextField kms "groupExternalId" r.groupExternalId ∧ TextField kms "action" r.action
  | .onAdaptersStreamStart r => TextField kms "externalId" r.externalId ∧
      TextField kms "streamId" r.streamId ∧ TextField kms "kind" r.kind ∧
      ParamsField kms r.paramsJson
  | .onAdaptersStreamStop r => TextField kms "externalId" r.externalId ∧
      TextField kms "streamId" r.streamId
  | .onProtocolError _ | .onUnknownRequest _ => False

/-- A rendering of the request that the call carries. -/
def RequestText (header : FrameHeader) (call : HandlerCall) (text : Bytes) : Prop :=
  ∃ w w' tok root kms command, Ws w ∧ Ws w' ∧ text = w ++ (tok ++ w') ∧ ObjectText root tok ∧
    call.command = some command ∧ Has root "command" (IsInt command.toUint16.toNat) ∧
    Field root "cmdId" (IsUInt call.cmdId.toNat) (call.cmdId = header.correlationId) ∧
    Field root "payload" (ObjectText kms) (kms = []) ∧ Payload header kms call

/-- The decoded call is the rendered one. A value that is no plain scalar is handed on as JSON text,
and what is said of its scalar reading is nothing. -/
def Agrees (call decoded : HandlerCall) : Prop :=
  match call, decoded with
  | .onChannelInvoke r, .onChannelInvoke d =>
    d = { r with value := d.value, hasScalarValue := d.hasScalarValue } ∧
      ∀ s, IsScalar s r.valueJson → d.hasScalarValue = true ∧ d.value = s
  | _, _ => decoded = call

/-! ## Fields -/

section
variable {kms : List Keyed} {tok : Bytes} {key : String} (h : ObjectText kms tok)

include h

theorem memberText_field {s : Bytes} (hf : TextField kms key s) :
    memberText (insertAll {} kms) key = s := h.text_field hf

theorem memberInt_int32 {n : Int32} (hf : IntField kms key n.toInt) :
    (memberInt (insertAll {} kms) key).toInt32 = n := by
  have h1 := n.le_toInt
  have h2 := n.toInt_lt
  rw [memberInt, h.int_field hf (by omega) (by omega), Int64.toInt32_ofInt, Int32.ofInt_toInt]

theorem memberInt_nat {n : Nat} (hf : IntField kms key n) (hn : n < 2 ^ 63) :
    (memberInt (insertAll {} kms) key).toUInt64 = UInt64.ofNat n := by
  rw [memberInt, h.int_field hf (by omega) (by omega), Int64.ofInt_eq_ofNat, Int64.toUInt64_ofNat']

theorem memberInt_uint16 {n : UInt16} (hf : IntField kms key n.toNat) :
    (memberInt (insertAll {} kms) key).toUInt64.toUInt16 = n := by
  have := n.toNat_lt
  rw [memberInt_nat h hf (by omega), ← UInt16.toNat_inj]
  simp

theorem memberInt_uint32 {n : UInt32} (hf : IntField kms key n.toNat) :
    (memberInt (insertAll {} kms) key).toUInt64.toUInt32 = n := by
  have := n.toNat_lt
  rw [memberInt_nat h hf (by omega), ← UInt32.toNat_inj]
  simp

theorem requestParams_field {json : JsonText} (hf : ParamsField kms json) :
    requestParams (insertAll {} kms) = json := by
  unfold requestParams
  rcases hf with hf | ⟨rfl, hf⟩
  · obtain ⟨he, hv⟩ := h.has hf
    simp only [he] at hv ⊢
    obtain ⟨c, s, hc, -⟩ := hv.head
    rw [trim_value_self hv, if_neg (by rw [hc]; exact List.cons_ne_nil _ _)]
  · rw [h.lacks hf]
    rfl

theorem requestAdapter_field {a : Adapter} (hf : AdapterField kms a) :
    requestAdapter (insertAll {} kms) = a := by
  obtain ⟨inner, p, e, ha, hp, he, rfl⟩ := hf
  have hpt := memberText_field h hp
  have het := memberText_field h he
  unfold requestAdapter
  simp only [hpt, het]
  rcases ha with ha | ⟨rfl, ha⟩
  · obtain ⟨ks, ho, h1, h2, h3, h4, h5, h6, h7, h8, h9, h10, h11⟩ := (h.has ha).1
    have hin : parseAdapterFromMap (insertAll {} ks) = inner := by
      simp only [parseAdapterFromMap, memberText_field ho h1, memberText_field ho h2,
        memberText_field ho h3, memberInt_uint16 ho h4, memberText_field ho h5,
        memberText_field ho h6, memberText_field ho h7, memberText_field ho h8,
        memberText_field ho h9, ho.json_field h10, memberInt_uint32 ho h11]
    rw [ho.parse_self]
    simp only [hin]
    by_cases hpe : inner.pluginType = [] <;> by_cases hee : inner.externalId = [] <;>
      simp [hpe, hee]
  · rw [h.lacks ha]
    have hno : parseObjectMembers [] = .error (lit "Expected JSON object") := rfl
    simp only [hno]
    by_cases hpe : p = [] <;> by_cases hee : e = [] <;> simp [hpe, hee]

end

/-! ## Commands -/

theorem parseIpcCommandToken_isInt {c : IpcCommand} {tok : Bytes} (h : IsInt c.toUint16.toNat tok)
    (h0 : 0 < c.toUint16.toNat) : parseIpcCommandToken tok = some c := by
  have hlt := c.toUint16.toNat_lt
  unfold parseIpcCommandToken
  rw [parseInt64_isInt h (by omega) (by omega)]
  have hi : (Int64.ofInt (c.toUint16.toNat : Int)).toInt = c.toUint16.toNat :=
    Int64.toInt_ofInt_of_le (by omega) (by omega)
  simp only [Int64.le_iff_toInt_le, Int64.lt_iff_toInt_lt, hi]
  rw [if_neg]
  · rw [Int64.ofInt_eq_ofNat, Int64.toUInt64_ofNat']
    congr 1
    cases c
    congr 1
    rw [← UInt16.toNat_inj]
    simp
  · simp
    omega

theorem requestCmdId_field {root : List Keyed} {tok : Bytes} (h : ObjectText root tok)
    {header : FrameHeader} {id : CmdId}
    (hf : Field root "cmdId" (IsUInt id.toNat) (id = header.correlationId)) :
    requestCmdId header (insertAll {} root) = id := by
  unfold requestCmdId
  rcases hf with hf | ⟨rfl, hf⟩
  · have hi := (h.has hf).1
    rw [parseCmdIdToken, parseUInt64_of hi.1 hi.2, Option.getD_some]
  · rw [h.lacks hf]
    rfl

theorem requestPayloadMap_field {root kms : List Keyed} {tok : Bytes} (h : ObjectText root tok)
    (hf : Field root "payload" (ObjectText kms) (kms = [])) :
    requestPayloadMap (insertAll {} root) = insertAll {} kms ∧ ∃ tok', ObjectText kms tok' := by
  unfold requestPayloadMap requestPayloadToken
  rcases hf with hf | ⟨rfl, hf⟩
  · obtain ⟨ho, hv⟩ := h.has hf
    obtain ⟨c, s, hc, -⟩ := hv.head
    refine ⟨?_, _, ho⟩
    rw [if_neg (by rw [hc]; exact List.cons_ne_nil _ _), ho.parse_self]
  · refine ⟨?_, _, ⟨by simp, by simp, [], .nil, rfl⟩⟩
    rw [h.lacks hf]
    rfl

/-! ## The handler call -/

section
variable {handlers : SidecarHandlers} {call decoded : HandlerCall}

theorem sync_on (he : decoded = call) (h : handlers.on call = true) :
    sync handlers decoded = { call := some call } := by subst he; exact if_pos h

theorem typed_on (he : decoded = call) (h : handlers.on call = true) (reply : CommandResult) :
    typed handlers decoded reply = { call := some call } := by subst he; exact if_pos h

end

theorem channelInvokeRequest_field {kms : List Keyed} {tok : Bytes} (h : ObjectText kms tok)
    {r : ChannelInvokeRequest} {header : FrameHeader}
    (hp : Payload header kms (.onChannelInvoke r)) (parseDouble : Bytes → Option Double) :
    Agrees (.onChannelInvoke r)
      (.onChannelInvoke (channelInvokeRequest r.cmdId (insertAll {} kms) parseDouble)) := by
  obtain ⟨h1, h2, h3, h4⟩ := hp
  refine ⟨?_, fun s hs => ?_⟩
  · simp only [channelInvokeRequest, memberText_field h h1, memberText_field h h2,
      memberText_field h h3, h.json_field h4]
  · simp only [channelInvokeRequest, h.json_field h4, parseScalarValueToken_isScalar hs,
      Option.isSome_some, Option.getD_some, and_self]

/-- The branch of a typed command. -/
theorem dispatchCommand_payload {kms : List Keyed} {tok : Bytes} (h : ObjectText kms tok)
    {header : FrameHeader} {call : HandlerCall} {command : IpcCommand}
    (hc : call.command = some command) (hp : Payload header kms call) (handlers : SidecarHandlers)
    (hon : handlers.on call = true) (parseDouble : Bytes → Option Double) (payloadToken : Bytes)
    (now : Int64) :
    ∃ decoded, Agrees call decoded ∧
      dispatchCommand parseDouble handlers header command call.cmdId payloadToken (insertAll {} kms)
        now = { call := some decoded } := by
  cases call with
  | onProtocolError m => cases hc
  | onUnknownRequest r => cases hc
  | onBootstrap r =>
    cases hc
    obtain ⟨h1, h2, h3, h4⟩ := hp
    have he : bootstrapRequest header r.cmdId (insertAll {} kms) = r := by
      simp only [bootstrapRequest, ← h1, memberInt_int32 h h2, h.json_field h3,
        requestAdapter_field h h4]
    exact ⟨_, rfl, sync_on (congrArg _ he) hon⟩
  | onConfigChanged r =>
    cases hc
    obtain ⟨h1, h2, h3, h4⟩ := hp
    have he : configChangedRequest header r.cmdId (insertAll {} kms) = r := by
      simp only [configChangedRequest, ← h1, memberInt_int32 h h2, h.json_field h3,
        requestAdapter_field h h4]
    exact ⟨_, rfl, sync_on (congrArg _ he) hon⟩
  | onInstanceRemoved r =>
    cases hc
    obtain ⟨h1, h2, h3, h4⟩ := hp
    have he : instanceRemovedRequest header r.cmdId (insertAll {} kms) = r := by
      simp only [instanceRemovedRequest, ← h1, memberInt_int32 h h2, memberText_field h h3,
        memberText_field h h4]
    exact ⟨_, rfl, sync_on (congrArg _ he) hon⟩
  | onChannelInvoke r =>
    cases hc
    have hd : handlers.on (.onChannelInvoke (channelInvokeRequest r.cmdId (insertAll {} kms) parseDouble)) =
        true := hon
    exact ⟨_, channelInvokeRequest_field h hp parseDouble, typed_on rfl hd _⟩
  | onAdapterActionInvoke r =>
    cases hc
    obtain ⟨h1, h2, h3⟩ := hp
    have he : adapterActionInvokeRequest r.cmdId (insertAll {} kms) = r := by
      simp only [adapterActionInvokeRequest, memberText_field h h1, memberText_field h h2,
        requestParams_field h h3]
    exact ⟨_, rfl, typed_on (congrArg _ he) hon _⟩
  | onDeviceNameUpdate r =>
    cases hc
    obtain ⟨h1, h2, h3⟩ := hp
    have he : deviceNameUpdateRequest r.cmdId (insertAll {} kms) = r := by
      simp only [deviceNameUpdateRequest, memberText_field h h1, memberText_field h h2,
        memberText_field h h3]
    exact ⟨_, rfl, typed_on (congrArg _ he) hon _⟩
  | onDeviceEffectInvoke r =>
    cases hc
    obtain ⟨h1, h2, h3, h4, h5⟩ := hp
    have he : deviceEffectInvokeRequest r.cmdId (insertAll {} kms) = r := by
      simp only [deviceEffectInvokeRequest, memberText_field h h1, memberText_field h h2,
        memberInt_uint16 h h3, memberText_field h h4, requestParams_field h h5]
    exact ⟨_, rfl, typed_on (congrArg _ he) hon _⟩
  | onSceneInvoke r =>
    cases hc
    obtain ⟨h1, h2, h3, h4⟩ := hp
    have he : sceneInvokeRequest r.cmdId (insertAll {} kms) = r := by
      simp only [sceneInvokeRequest, memberText_field h h1, memberText_field h h2,
        memberText_field h h3, memberText_field h h4]
    exact ⟨_, rfl, typed_on (congrArg _ he) hon _⟩
  | onAdaptersStreamStart r =>
    cases hc
    obtain ⟨h1, h2, h3, h4⟩ := hp
    have he : adaptersStreamStartRequest r.cmdId (insertAll {} kms) = r := by
      simp only [adaptersStreamStartRequest, memberText_field h h1, memberText_field h h2,
        memberText_field h h3, requestParams_field h h4]
    exact ⟨_, rfl, typed_on (congrArg _ he) hon _⟩
  | onAdaptersStreamStop r =>
    cases hc
    obtain ⟨h1, h2⟩ := hp
    have he : adaptersStreamStopRequest r.cmdId (insertAll {} kms) = r := by
      simp only [adaptersStreamStopRequest, memberText_field h h1, memberText_field h h2]
    exact ⟨_, rfl, typed_on (congrArg _ he) hon _⟩

/-- The commands of typed requests are request commands. -/
theorem command_request {call : HandlerCall} {command : IpcCommand} (h : call.command = some command) :
    0 < command.toUint16.toNat ∧ expectedMessageType command = .Request := by
  cases call <;> cases h <;> decide

/-- **Inbound request decode is faithful**: on a Request frame with any rendering of a typed
request, `handleRequestFrame` calls the handler of its command with that request, once, and does
nothing else. -/
theorem handleRequestFrame_renders (parseDouble : Bytes → Option Double) (handlers : SidecarHandlers)
    (header : FrameHeader) (call : HandlerCall) (payload : Bytes) (now : Int64)
    (ht : messageType header = .Request) (hon : handlers.on call = true)
    (hr : RequestText header call payload) :
    ∃ decoded, Agrees call decoded ∧
      handleRequestFrame parseDouble handlers header payload now = { call := some decoded } := by
  obtain ⟨w, w', tok, root, kms, command, hw, hw', rfl, ho, hc, hcmd, hid, hpay, hp⟩ := hr
  obtain ⟨hpos, hreq⟩ := command_request hc
  obtain ⟨hmap, tok', hkms⟩ := requestPayloadMap_field ho hpay
  obtain ⟨decoded, ha, hd⟩ := dispatchCommand_payload hkms hc hp handlers hon parseDouble
    (requestPayloadToken (insertAll {} root)) now
  refine ⟨decoded, ha, ?_⟩
  have hmatch : matchesMessageType (messageType header) command = true := by
    rw [matchesMessageType, hreq, ht]
    decide
  unfold handleRequestFrame
  simp only [ho.parse hw hw', parseIpcCommandToken_isInt (ho.has hcmd).1 hpos, hmatch, if_true,
    requestCmdId_field ho hid, hmap, hd]

/-- A `channel.invoke` with its members out of order, an escaped string, whitespace, a member that is
unknown and no `cmdId`. -/
theorem handleRequestFrame_renders_channelInvoke :
    let text := lit "\x7b \"x\" : null,\"payload\":\x7b\"value\":-5,\"externalId\":\"\\u0061\"\x7d,\"command\":513\x7d "
    let call : HandlerCall := .onChannelInvoke
      { cmdId := 7, externalId := lit "a", valueJson := lit "-5" }
    ∃ decoded, Agrees call decoded ∧
      handleRequestFrame (fun _ => none) {} { type := MessageType.Request.raw, correlationId := 7 } text
        0 = { call := some decoded } := by
  intro text call
  have hm : ∀ {k b v w : Bytes}, Ws w → Value v → Rfc8259.Denotes b k →
      GoodMember (k, { key := b, afterKey := w, beforeVal := w, val := v }) :=
    fun hw hv hb => ⟨hv, ⟨.nil, hw, hw, .nil⟩, hb⟩
  have hsp : Ws [0x20] := by simp [Ws, Rfc8259.isWs]
  have hint : ∀ {z : Int} {t : Bytes}, Decimal.intText z = t → Value t :=
    fun h => h ▸ .num (Rfc8259.intText_number _)
  have ha : Rfc8259.Denotes (lit "\\u0061") (lit "a") :=
    @Rfc8259.Denotes.unicode 0x30 0x30 0x36 0x31 [] [] 'a' rfl .nil
  let kms : List Keyed := [(lit "value", { key := lit "value", val := lit "-5" }),
    (lit "externalId", { key := lit "externalId", val := lit "\"\\u0061\"" })]
  have ho : ObjectText kms (Rfc8259.objText [] (kms.map Prod.snd)) := by
    refine ⟨?_, by decide, [], .nil, rfl⟩
    simp only [kms, List.forall_mem_cons]
    exact ⟨hm .nil (@hint (-5) _ (by decide)) (.of_plain (by decide +kernel)),
      hm .nil (isText_value ⟨_, ha, rfl⟩) (.of_plain (by decide +kernel)), by simp⟩
  have hv : Value (Rfc8259.objText [] (kms.map Prod.snd)) := by
    refine .obj .nil ?_ ?_ <;> intro m hmem <;> obtain ⟨p, hp, rfl⟩ := List.mem_map.1 hmem
    · exact ⟨(ho.good p hp).spaced, (ho.good p hp).key.body⟩
    · exact (ho.good p hp).value
  let root : List Keyed :=
    [(lit "x", { key := lit "x", afterKey := [0x20], beforeVal := [0x20], val := lit "null" }),
      (lit "payload", { key := lit "payload", val := Rfc8259.objText [] (kms.map Prod.snd) }),
      (lit "command", { key := lit "command", val := lit "513" })]
  have hroot : ObjectText root (Rfc8259.objText [0x20] (root.map Prod.snd)) := by
    refine ⟨?_, by decide, _, hsp, rfl⟩
    simp only [root, List.forall_mem_cons]
    exact ⟨hm hsp .null (.of_plain (by decide +kernel)), hm .nil hv (.of_plain (by decide +kernel)),
      hm .nil (@hint 513 _ (by decide)) (.of_plain (by decide +kernel)), by simp⟩
  have hno : ∀ {ks : List Keyed} {key : String}, lit key ∉ ks.map Prod.fst → Lacks ks key := id
  refine handleRequestFrame_renders _ _ _ call text 0 (by decide) rfl ⟨[], [0x20], _, root, kms, _, .nil,
    hsp, by decide, hroot, rfl, ?_, .inr ⟨rfl, hno (by decide)⟩, .inl ?_, ?_⟩
  · exact ⟨_, .tail _ (.tail _ (.head _)), rfl, @hint 513 _ (by decide), by decide⟩
  · exact ⟨_, .tail _ (.head _), rfl, ho⟩
  · exact ⟨.inl ⟨_, .tail _ (.head _), rfl, _, ha, rfl⟩, .inr ⟨rfl, hno (by decide)⟩,
      .inr ⟨rfl, hno (by decide)⟩, .inl ⟨_, .head _, rfl, rfl⟩⟩

end Phi.Dispatcher
