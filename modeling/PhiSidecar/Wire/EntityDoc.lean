import PhiSidecar.Wire.Doc

/-!
# What the entity builders say

For each entity its document (field names and values as the contract documents them) and the proof
that its builder shows it, when every raw JSON argument is blank or JSON text (`RawArg`). The
documents also record what the builders leave out or replace: a blank raw JSON argument is its
default, an optional one is omitted, and an action without an id is skipped.
-/

set_option autoImplicit false

namespace Phi.Wire

open Phi.V1 Doc

/-! ## Raw JSON arguments and integers -/

/-- A raw JSON argument: blank, or JSON text. -/
def RawArg (json : Bytes) : Prop := blank json = true ∨ RawJson json

/-- A raw JSON argument with a default. -/
def rawOr (json : Bytes) (fallback : Doc) : Doc := if blank json then fallback else .raw json

/-- A named field. -/
def fld (key : String) (d : Doc) : Bytes × Doc := (lit key, d)

def optional (c : Bool) (key : String) (d : Doc) : List (Bytes × Doc) :=
  if c then [fld key d] else []

theorem blank_iff {json : Bytes} : blank json = true ↔ trim json = [] := beq_iff_eq

theorem RawArg.rawJson {json : Bytes} (h : RawArg json) (hb : (!blank json) = true) :
    RawJson json := h.resolve_left (by simpa using hb)

theorem Doc.Shows.emptyObj : (Doc.obj []).Shows (lit "\x7b\x7d") := (@Exact.obj [] [] List.nodup_nil .nil).shows

theorem RawArg.orEmpty {json : Bytes} (h : RawArg json) :
    (rawOr json (.obj [])).Shows (metaJson json) := by
  unfold rawOr Wire.metaJson
  split_ifs with hb ht ht
  · exact .emptyObj
  · exact absurd (blank_iff.1 hb) ht
  · exact absurd (blank_iff.2 ht) hb
  · exact .raw (h.resolve_left hb)

theorem RawArg.tokenOr {json fallback : Bytes} {d : Doc} (h : RawArg json)
    (hd : d.Shows fallback) : (rawOr json d).Shows (jsonTokenOrDefault json fallback) := by
  unfold rawOr jsonTokenOrDefault
  simp only
  split_ifs with hb ht ht
  · exact hd
  · exact absurd (blank_iff.1 hb) ht
  · exact absurd (blank_iff.2 ht) hb
  · exact .raw_trim (h.resolve_left hb)

/-- A raw JSON argument that is there. -/
theorem RawArg.token {json fallback : Bytes} (h : RawArg json) (hb : (!blank json) = true) :
    (Doc.raw json).Shows (jsonTokenOrDefault json fallback) := by
  have ht : trim json ≠ [] := fun ht => by simp [blank_iff.2 ht] at hb
  rw [jsonTokenOrDefault, if_neg ht]
  exact .raw_trim (h.rawJson hb)

theorem fits_uint8 (n : UInt8) : Fits n.toNat := by
  have := n.toNat_lt
  constructor <;> omega

theorem fits_uint16 (n : UInt16) : Fits n.toNat := by
  have := n.toNat_lt
  constructor <;> omega

theorem fits_int32 (z : Int32) : Fits z.toInt := by
  have h1 := Int32.le_toInt z
  have h2 := Int32.toInt_lt z
  constructor <;> omega

theorem fits_int64 (z : Int64) : Fits z.toInt := ⟨Int64.le_toInt z, Int64.toInt_lt z⟩

theorem fits_asInt (flags : UInt32) : Fits (asInt flags) := fits_int32 _

/-! ## Devices and channels -/

def effectDoc (effect : DeviceEffectDescriptor) : Doc :=
  .obj [fld "effect" (.int effect.effect.toNat), fld "id" (.text effect.id),
    fld "label" (.text effect.label), fld "description" (.text effect.description),
    fld "requiresParams" (.bool effect.requiresParams), fld "meta" (rawOr effect.metaJson (.obj []))]

theorem effectToJson_shows {effect : DeviceEffectDescriptor} (h : RawArg effect.metaJson) :
    (effectDoc effect).Shows (effectToJson effect) :=
  Out.Says.start _ |>.field (.int (fits_uint16 _)) |>.field (.text _) |>.field (.text _)
    |>.field (.text _) |>.field (.bool _) |>.field h.orEmpty |>.close (by decide)

def deviceDoc (device : Device) : Doc :=
  .obj [fld "externalId" (.text device.externalId), fld "name" (.text device.name),
    fld "deviceClass" (.int device.deviceClass.toNat), fld "flags" (.int (asInt device.flags)),
    fld "manufacturer" (.text device.manufacturer), fld "firmware" (.text device.firmware),
    fld "model" (.text device.model), fld "meta" (rawOr device.metaJson (.obj [])),
    fld "effects" (.arr (device.effects.map effectDoc))]

/-- The raw JSON arguments of a device. -/
structure DeviceRaw (device : Device) : Prop where
  metaJson : RawArg device.metaJson
  effects : ∀ effect ∈ device.effects, RawArg effect.metaJson

theorem deviceToJson_shows {device : Device} (h : DeviceRaw device) :
    (deviceDoc device).Shows (deviceToJson device) :=
  Out.Says.start _ |>.field (.text _) |>.field (.text _) |>.field (.int (fits_uint8 _))
    |>.field (.int (fits_asInt _)) |>.field (.text _) |>.field (.text _) |>.field (.text _)
    |>.field h.metaJson.orEmpty |>.field (.list fun effect he => effectToJson_shows (h.effects effect he))
    |>.close (by decide)

def choiceDoc (choice : AdapterConfigOption) : Doc :=
  .obj [fld "value" (.text choice.value), fld "label" (.text choice.label)]

theorem choiceToJson_shows (choice : AdapterConfigOption) :
    (choiceDoc choice).Shows (choiceToJson choice) := by
  have h : (choiceDoc choice).Shows (openObject |>.field "value" (jsonQuoted choice.value)
      |>.field "label" (jsonQuoted choice.label) |>.close) :=
    Out.Says.start _ |>.field (.text _) |>.field (.text _) |>.close (by decide)
  have ht : choiceToJson choice = (openObject |>.field "value" (jsonQuoted choice.value)
      |>.field "label" (jsonQuoted choice.label) |>.close) := by
    simp only [choiceToJson, openObject, Out.field, appendFieldPrefix, Out.close, if_true,
      Bool.false_eq_true, if_false, List.append_assoc, List.nil_append]
    rfl
  rw [ht]
  exact h

def channelDoc (channel : Channel) : Doc :=
  .obj [fld "externalId" (.text channel.externalId), fld "name" (.text channel.name),
    fld "kind" (.int channel.kind.toNat), fld "dataType" (.int channel.dataType.toNat),
    fld "flags" (.int (asInt channel.flags)), fld "unit" (.text channel.unit),
    fld "minValue" (.double channel.minValue), fld "maxValue" (.double channel.maxValue),
    fld "stepValue" (.double channel.stepValue), fld "meta" (rawOr channel.metaJson (.obj [])),
    fld "choices" (.arr (channel.choices.map choiceDoc)),
    fld "lastValue" (ofScalar channel.lastValue),
    fld "lastUpdateMs" (.int channel.lastUpdateMs.toInt), fld "hasValue" (.bool channel.hasValue)]

theorem channelToJson_shows {channel : Channel} (h : RawArg channel.metaJson) :
    (channelDoc channel).Shows (channelToJson channel) :=
  Out.Says.start _ |>.field (.text _) |>.field (.text _) |>.field (.int (fits_uint16 _))
    |>.field (.int (fits_uint8 _)) |>.field (.int (fits_asInt _)) |>.field (.text _)
    |>.field (.double _) |>.field (.double _) |>.field (.double _) |>.field h.orEmpty
    |>.field (.list fun choice _ => choiceToJson_shows choice) |>.field (.scalar _)
    |>.field (.int (fits_int64 _)) |>.field (.bool _) |>.close (by decide)

/-! ## Rooms, groups and scenes -/

theorem arrayOfStrings_shows (values : List Bytes) :
    (Doc.arr (values.map .text)).Shows (arrayOfStrings values) := .list fun _ _ => .text _

def roomDoc (room : Room) : Doc :=
  .obj [fld "externalId" (.text room.externalId), fld "name" (.text room.name),
    fld "zone" (.text room.zone),
    fld "deviceExternalIds" (.arr (room.deviceExternalIds.map .text)),
    fld "meta" (rawOr room.metaJson (.obj []))]

theorem roomToJson_shows {room : Room} (h : RawArg room.metaJson) :
    (roomDoc room).Shows (roomToJson room) :=
  Out.Says.start _ |>.field (.text _) |>.field (.text _) |>.field (.text _)
    |>.field (arrayOfStrings_shows _) |>.field h.orEmpty |>.close (by decide)

def groupDoc (group : Group) : Doc :=
  .obj [fld "externalId" (.text group.externalId), fld "name" (.text group.name),
    fld "zone" (.text group.zone),
    fld "deviceExternalIds" (.arr (group.deviceExternalIds.map .text)),
    fld "meta" (rawOr group.metaJson (.obj []))]

theorem groupToJson_shows {group : Group} (h : RawArg group.metaJson) :
    (groupDoc group).Shows (groupToJson group) :=
  Out.Says.start _ |>.field (.text _) |>.field (.text _) |>.field (.text _)
    |>.field (arrayOfStrings_shows _) |>.field h.orEmpty |>.close (by decide)

def sceneDoc (scene : Scene) : Doc :=
  .obj [fld "externalId" (.text scene.externalId), fld "name" (.text scene.name),
    fld "description" (.text scene.description),
    fld "scopeExternalId" (.text scene.scopeExternalId), fld "scopeType" (.text scene.scopeType),
    fld "avatarColor" (.text scene.avatarColor), fld "image" (.text scene.image),
    fld "presetTag" (.text scene.presetTag), fld "state" (.int scene.state.toNat),
    fld "flags" (.int (asInt scene.flags)), fld "meta" (rawOr scene.metaJson (.obj []))]

theorem sceneToJson_shows {scene : Scene} (h : RawArg scene.metaJson) :
    (sceneDoc scene).Shows (sceneToJson scene) :=
  Out.Says.start _ |>.field (.text _) |>.field (.text _) |>.field (.text _) |>.field (.text _)
    |>.field (.text _) |>.field (.text _) |>.field (.text _) |>.field (.text _)
    |>.field (.int (fits_uint8 _)) |>.field (.int (fits_asInt _)) |>.field h.orEmpty
    |>.close (by decide)

/-! ## Descriptors -/

def actionDoc (action : AdapterActionDescriptor) : Doc :=
  .obj ([fld "id" (.text action.id), fld "label" (.text action.label),
    fld "description" (.text action.description), fld "hasForm" (.bool action.hasForm),
    fld "danger" (.bool action.danger), fld "cooldownMs" (.int action.cooldownMs.toInt)] ++
    optional (!blank action.confirmJson) "confirm" (.raw action.confirmJson) ++
    optional (!blank action.metaJson) "meta" (.raw action.metaJson))

/-- The raw JSON arguments of an action. -/
structure ActionRaw (action : AdapterActionDescriptor) : Prop where
  confirmJson : RawArg action.confirmJson
  metaJson : RawArg action.metaJson

theorem actionToJson_shows {action : AdapterActionDescriptor} (h : ActionRaw action) :
    (actionDoc action).Shows (actionToJson action) :=
  Out.Says.start _ |>.field (.text _) |>.field (.text _) |>.field (.text _)
    |>.field (.bool _) |>.field (.bool _) |>.field (.int (fits_int32 _))
    |>.fieldIf h.confirmJson.token |>.fieldIf h.metaJson.token |>.close (by decide)

/-- The actions with an id. -/
def actionListDoc (actions : List AdapterActionDescriptor) : Doc :=
  .arr ((actions.filter fun action => action.id != []).map actionDoc)

theorem actionListToJson_shows {actions : List AdapterActionDescriptor}
    (h : ∀ action ∈ actions, ActionRaw action) :
    (actionListDoc actions).Shows (actionListToJson actions) :=
  .list fun action ha => actionToJson_shows (h action (List.mem_of_mem_filter ha))

def capabilitiesDoc (caps : AdapterCapabilities) : Doc :=
  .obj ([fld "required" (.int (asInt caps.required)), fld "optional" (.int (asInt caps.optional)),
    fld "flags" (.int (asInt caps.flags)), fld "factoryActions" (actionListDoc caps.factoryActions),
    fld "instanceActions" (actionListDoc caps.instanceActions)] ++
    optional (!blank caps.defaultsJson) "defaults" (.raw caps.defaultsJson))

/-- The raw JSON arguments of a capability set. -/
structure CapabilitiesRaw (caps : AdapterCapabilities) : Prop where
  factoryActions : ∀ action ∈ caps.factoryActions, ActionRaw action
  instanceActions : ∀ action ∈ caps.instanceActions, ActionRaw action
  defaultsJson : RawArg caps.defaultsJson

theorem capabilitiesToJson_shows {caps : AdapterCapabilities} (h : CapabilitiesRaw caps) :
    (capabilitiesDoc caps).Shows (capabilitiesToJson caps) :=
  Out.Says.start _ |>.field (.int (fits_asInt _)) |>.field (.int (fits_asInt _))
    |>.field (.int (fits_asInt _)) |>.field (actionListToJson_shows h.factoryActions)
    |>.field (actionListToJson_shows h.instanceActions) |>.fieldIf h.defaultsJson.token
    |>.close (by decide)

def descriptorDoc (descriptor : AdapterDescriptor) : Doc :=
  .obj [fld "pluginType" (.text descriptor.pluginType),
    fld "displayName" (.text descriptor.displayName),
    fld "description" (.text descriptor.description),
    fld "apiVersion" (.text descriptor.apiVersion), fld "iconSvg" (.text descriptor.iconSvg),
    fld "imageBase64" (.text descriptor.imageBase64),
    fld "timeoutMs" (.int descriptor.timeoutMs.toInt),
    fld "maxInstances" (.int descriptor.maxInstances.toInt),
    fld "capabilities" (capabilitiesDoc descriptor.capabilities),
    fld "configSchema" (rawOr descriptor.configSchemaJson .null)]

/-- The raw JSON arguments of a descriptor. -/
structure DescriptorRaw (descriptor : AdapterDescriptor) : Prop where
  capabilities : CapabilitiesRaw descriptor.capabilities
  configSchemaJson : RawArg descriptor.configSchemaJson

theorem configSchema_shows {json : Bytes} (h : RawArg json) : (rawOr json .null).Shows
    (if blank json then lit "null" else jsonTokenOrDefault json (lit "\x7b\x7d")) := by
  unfold rawOr
  split_ifs with hb
  · exact .null
  · exact h.token (by simpa using hb)

theorem descriptorToJson_shows {descriptor : AdapterDescriptor} (h : DescriptorRaw descriptor) :
    (descriptorDoc descriptor).Shows (descriptorToJson descriptor) :=
  Out.Says.start _ |>.field (.text _) |>.field (.text _) |>.field (.text _) |>.field (.text _)
    |>.field (.text _) |>.field (.text _) |>.field (.int (fits_int32 _))
    |>.field (.int (fits_int32 _)) |>.field (capabilitiesToJson_shows h.capabilities)
    |>.field (configSchema_shows h.configSchemaJson) |>.close (by decide)

end Phi.Wire
