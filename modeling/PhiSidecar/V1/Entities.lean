import PhiSidecar.V1.Types

/-!
# Entities (`device.h`, `channel.h`, `room.h`, `group.h`, `scene.h`, `schema.h`, `sidecar.h`)

The records that are serialized, without the config schema classes, which only appear as JSON text.
An enumeration is its underlying integer: the serializers cast it and nothing reads its
enumerators. A C++ `int` is an `Int32`.
-/

set_option autoImplicit false

namespace Phi.V1

abbrev DeviceClass := UInt8
abbrev DeviceEffect := UInt16
abbrev DeviceFlags := UInt32
abbrev ChannelKind := UInt16
abbrev ChannelDataType := UInt8
abbrev ChannelFlags := UInt32
abbrev SceneState := UInt8
abbrev SceneFlags := UInt32
abbrev AdapterFlags := UInt32
abbrev AdapterRequirements := UInt32

structure DeviceEffectDescriptor where
  effect : DeviceEffect := 0
  id : Utf8String := []
  label : Utf8String := []
  description : Utf8String := []
  requiresParams : Bool := false
  metaJson : JsonText := []

structure Device where
  name : Utf8String := []
  deviceClass : DeviceClass := 0
  flags : DeviceFlags := 0
  externalId : ExternalId := []
  manufacturer : Utf8String := []
  firmware : Utf8String := []
  model : Utf8String := []
  metaJson : JsonText := []
  effects : List DeviceEffectDescriptor := []

structure AdapterConfigOption where
  value : Utf8String := []
  label : Utf8String := []

structure Channel where
  name : Utf8String := []
  externalId : ExternalId := []
  kind : ChannelKind := 0
  dataType : ChannelDataType := 0
  flags : ChannelFlags := 0
  unit : Utf8String := []
  minValue : Double := ⟨0⟩
  maxValue : Double := ⟨0⟩
  stepValue : Double := ⟨0⟩
  metaJson : JsonText := []
  choices : List AdapterConfigOption := []
  lastValue : ScalarValue := .null
  lastUpdateMs : Int64 := 0
  hasValue : Bool := false

structure Room where
  externalId : ExternalId := []
  name : Utf8String := []
  zone : Utf8String := []
  deviceExternalIds : List ExternalId := []
  metaJson : JsonText := []

structure Group where
  externalId : ExternalId := []
  name : Utf8String := []
  zone : Utf8String := []
  deviceExternalIds : List ExternalId := []
  metaJson : JsonText := []

structure Scene where
  externalId : ExternalId := []
  name : Utf8String := []
  description : Utf8String := []
  scopeExternalId : ExternalId := []
  scopeType : Utf8String := []
  avatarColor : Utf8String := []
  image : Utf8String := []
  presetTag : Utf8String := []
  state : SceneState := 0
  flags : SceneFlags := 0
  metaJson : JsonText := []

structure AdapterActionDescriptor where
  id : Utf8String := []
  label : Utf8String := []
  description : Utf8String := []
  hasForm : Bool := false
  danger : Bool := false
  cooldownMs : Int32 := 0
  confirmJson : JsonText := []
  metaJson : JsonText := []

structure AdapterCapabilities where
  required : AdapterRequirements := 0
  optional : AdapterRequirements := 0
  flags : AdapterFlags := 0
  factoryActions : List AdapterActionDescriptor := []
  instanceActions : List AdapterActionDescriptor := []
  defaultsJson : JsonText := []

structure AdapterDescriptor where
  pluginType : Utf8String := []
  displayName : Utf8String := []
  description : Utf8String := []
  apiVersion : Utf8String := []
  iconSvg : Utf8String := []
  imageBase64 : Utf8String := []
  timeoutMs : Int32 := 0
  maxInstances : Int32 := 0
  capabilities : AdapterCapabilities := {}
  configSchemaJson : JsonText := []

/-- The inbound adapter snapshot of a `config.changed` or `bootstrap` request. -/
structure Adapter where
  name : Utf8String := []
  host : Utf8String := []
  ip : Utf8String := []
  port : UInt16 := 0
  user : Utf8String := []
  password : Utf8String := []
  token : Utf8String := []
  pluginType : Utf8String := []
  externalId : ExternalId := []
  metaJson : JsonText := []
  flags : AdapterFlags := 0
  deriving DecidableEq

/-! ## Logging (`sidecar.h`) -/

/-- `enum class LogLevel : std::uint8_t`; the enumerators are `1` to `5`. -/
structure LogLevel where
  raw : UInt8
  deriving DecidableEq

namespace LogLevel
def Trace : LogLevel := ⟨1⟩
def Debug : LogLevel := ⟨2⟩
def Info : LogLevel := ⟨3⟩
def Warn : LogLevel := ⟨4⟩
def Error : LogLevel := ⟨5⟩
end LogLevel

/-- `enum class LogCategory : std::uint8_t`. -/
structure LogCategory where
  raw : UInt8
  deriving DecidableEq

namespace LogCategory
def Internal : LogCategory := ⟨0⟩
def Lifecycle : LogCategory := ⟨1⟩
def Discovery : LogCategory := ⟨2⟩
def Network : LogCategory := ⟨3⟩
def Protocol : LogCategory := ⟨4⟩
def Device : LogCategory := ⟨5⟩
def Config : LogCategory := ⟨6⟩
def Performance : LogCategory := ⟨7⟩
def Security : LogCategory := ⟨8⟩
def Database : LogCategory := ⟨9⟩
end LogCategory

structure LogEntry where
  level : LogLevel := .Info
  category : LogCategory := .Internal
  message : Utf8String := []
  ctx : Utf8String := []
  params : ScalarList := []
  fieldsJson : JsonText := []
  tsMs : Int64 := 0

end Phi.V1
