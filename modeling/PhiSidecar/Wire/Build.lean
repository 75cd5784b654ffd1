import PhiSidecar.Lib.Binary64
import PhiSidecar.V1.Entities
import PhiSidecar.V1.Frame
import PhiSidecar.Wire.Scan

/-!
# Building JSON text (`sidecar.cpp`: `jsonQuoted` … `descriptorToJson`)

`Out` is the string under construction with its `first` flag. The two statements
`appendFieldPrefix(out, first, key); out += value;` are one `Out.field`.
-/

set_option autoImplicit false

namespace Phi.Wire

open Phi.V1

/-! ## Scalars -/

/-- A hexadecimal digit of `kHex`. -/
def kHex (n : UInt8) : UInt8 := if n < 10 then 0x30 + n else 0x61 + (n - 10)

/-- What `jsonQuoted` appends for one character. -/
def quotedChar (ch : UInt8) : Bytes :=
  if ch = 0x22 then [0x5C, 0x22]
  else if ch = 0x5C then [0x5C, 0x5C]
  else if ch = 0x08 then [0x5C, 0x62]
  else if ch = 0x0C then [0x5C, 0x66]
  else if ch = 0x0A then [0x5C, 0x6E]
  else if ch = 0x0D then [0x5C, 0x72]
  else if ch = 0x09 then [0x5C, 0x74]
  else if ch < 0x20 then [0x5C, 0x75, 0x30, 0x30, kHex (ch >>> 4 &&& 0x0F), kHex (ch &&& 0x0F)]
  else [ch]

def jsonQuoted (text : Bytes) : Bytes := 0x22 :: (text.flatMap quotedChar ++ [0x22])

/-- `std::to_string` of an unsigned number. -/
def toStringU (n : Nat) : Bytes := Decimal.natText n

/-- `std::to_string` of a signed number. -/
def toStringI (z : Int) : Bytes := Decimal.intText z

def boolJson (b : Bool) : Bytes := if b then lit "true" else lit "false"

/-- `static_cast<int>` of a 32-bit flag set. -/
def asInt (flags : UInt32) : Int := flags.toInt32.toInt

def doubleJson (value : Double) : Bytes :=
  if Binary64.isFinite value.bits then Binary64.generalText 15 value.bits else lit "null"

def scalarJson : ScalarValue → Bytes
  | .null => lit "null"
  | .bool b => boolJson b
  | .int i => toStringI i.toInt
  | .double d => doubleJson d
  | .text s => jsonQuoted s

/-! ## Objects and arrays -/

structure Out where
  out : Bytes
  first : Bool := true

def appendFieldPrefix (o : Out) (key : Bytes) : Out :=
  ⟨o.out ++ ((if o.first then [] else [0x2C]) ++ (jsonQuoted key ++ [0x3A])), false⟩

namespace Out

def field (o : Out) (key : String) (value : Bytes) : Out :=
  let o := appendFieldPrefix o (lit key)
  { o with out := o.out ++ value }

/-- A field inside an `if`. -/
def fieldIf (o : Out) (c : Bool) (key : String) (value : Bytes) : Out :=
  if c then o.field key value else o

def close (o : Out) : Bytes := o.out ++ [0x7D]

end Out

/-- `out.push_back('{'); bool first = true;`. -/
def openObject : Out := ⟨[0x7B], true⟩

/-- One round of the list loops: a comma before every element but the first. -/
def appendElement (o : Out) (value : Bytes) : Out :=
  ⟨o.out ++ ((if o.first then [] else [0x2C]) ++ value), false⟩

/-- The list loops: `[`, the elements, `]`. -/
def arrayJson (values : List Bytes) : Bytes := (values.foldl appendElement ⟨[0x5B], true⟩).out ++ [0x5D]

def scalarListJson (values : ScalarList) : Bytes := arrayJson (values.map scalarJson)

def metaJson (json : Bytes) : Bytes := if trim json = [] then lit "\x7b\x7d" else json

def arrayOfStrings (values : List Bytes) : Bytes := arrayJson (values.map jsonQuoted)

def jsonTokenOrDefault (json fallback : Bytes) : Bytes :=
  let token := trim json
  if token = [] then fallback else token

/-- `trim(text).empty()`. -/
def blank (text : Bytes) : Bool := trim text == []

/-! ## Entities -/

def effectToJson (effect : DeviceEffectDescriptor) : Bytes :=
  openObject
    |>.field "effect" (toStringI effect.effect.toNat)
    |>.field "id" (jsonQuoted effect.id)
    |>.field "label" (jsonQuoted effect.label)
    |>.field "description" (jsonQuoted effect.description)
    |>.field "requiresParams" (boolJson effect.requiresParams)
    |>.field "meta" (metaJson effect.metaJson)
    |>.close

def deviceToJson (device : Device) : Bytes :=
  openObject
    |>.field "externalId" (jsonQuoted device.externalId)
    |>.field "name" (jsonQuoted device.name)
    |>.field "deviceClass" (toStringI device.deviceClass.toNat)
    |>.field "flags" (toStringI (asInt device.flags))
    |>.field "manufacturer" (jsonQuoted device.manufacturer)
    |>.field "firmware" (jsonQuoted device.firmware)
    |>.field "model" (jsonQuoted device.model)
    |>.field "meta" (metaJson device.metaJson)
    |>.field "effects" (arrayJson (device.effects.map effectToJson))
    |>.close

def choiceToJson (choice : AdapterConfigOption) : Bytes :=
  lit "\x7b\"value\":" ++ jsonQuoted choice.value ++ lit ",\"label\":" ++ jsonQuoted choice.label ++
    [0x7D]

def channelToJson (channel : Channel) : Bytes :=
  openObject
    |>.field "externalId" (jsonQuoted channel.externalId)
    |>.field "name" (jsonQuoted channel.name)
    |>.field "kind" (toStringI channel.kind.toNat)
    |>.field "dataType" (toStringI channel.dataType.toNat)
    |>.field "flags" (toStringI (asInt channel.flags))
    |>.field "unit" (jsonQuoted channel.unit)
    |>.field "minValue" (doubleJson channel.minValue)
    |>.field "maxValue" (doubleJson channel.maxValue)
    |>.field "stepValue" (doubleJson channel.stepValue)
    |>.field "meta" (metaJson channel.metaJson)
    |>.field "choices" (arrayJson (channel.choices.map choiceToJson))
    |>.field "lastValue" (scalarJson channel.lastValue)
    |>.field "lastUpdateMs" (toStringI channel.lastUpdateMs.toInt)
    |>.field "hasValue" (boolJson channel.hasValue)
    |>.close

def roomToJson (room : Room) : Bytes :=
  openObject
    |>.field "externalId" (jsonQuoted room.externalId)
    |>.field "name" (jsonQuoted room.name)
    |>.field "zone" (jsonQuoted room.zone)
    |>.field "deviceExternalIds" (arrayOfStrings room.deviceExternalIds)
    |>.field "meta" (metaJson room.metaJson)
    |>.close

def groupToJson (group : Group) : Bytes :=
  openObject
    |>.field "externalId" (jsonQuoted group.externalId)
    |>.field "name" (jsonQuoted group.name)
    |>.field "zone" (jsonQuoted group.zone)
    |>.field "deviceExternalIds" (arrayOfStrings group.deviceExternalIds)
    |>.field "meta" (metaJson group.metaJson)
    |>.close

def sceneToJson (scene : Scene) : Bytes :=
  openObject
    |>.field "externalId" (jsonQuoted scene.externalId)
    |>.field "name" (jsonQuoted scene.name)
    |>.field "description" (jsonQuoted scene.description)
    |>.field "scopeExternalId" (jsonQuoted scene.scopeExternalId)
    |>.field "scopeType" (jsonQuoted scene.scopeType)
    |>.field "avatarColor" (jsonQuoted scene.avatarColor)
    |>.field "image" (jsonQuoted scene.image)
    |>.field "presetTag" (jsonQuoted scene.presetTag)
    |>.field "state" (toStringI scene.state.toNat)
    |>.field "flags" (toStringI (asInt scene.flags))
    |>.field "meta" (metaJson scene.metaJson)
    |>.close

def actionToJson (action : AdapterActionDescriptor) : Bytes :=
  openObject
    |>.field "id" (jsonQuoted action.id)
    |>.field "label" (jsonQuoted action.label)
    |>.field "description" (jsonQuoted action.description)
    |>.field "hasForm" (boolJson action.hasForm)
    |>.field "danger" (boolJson action.danger)
    |>.field "cooldownMs" (toStringI action.cooldownMs.toInt)
    |>.fieldIf (!blank action.confirmJson) "confirm"
      (jsonTokenOrDefault action.confirmJson (lit "\x7b\x7d"))
    |>.fieldIf (!blank action.metaJson) "meta"
      (jsonTokenOrDefault action.metaJson (lit "\x7b\x7d"))
    |>.close

/-- Actions without an id are skipped. -/
def actionListToJson (actions : List AdapterActionDescriptor) : Bytes :=
  arrayJson ((actions.filter fun action => action.id != []).map actionToJson)

def capabilitiesToJson (caps : AdapterCapabilities) : Bytes :=
  openObject
    |>.field "required" (toStringI (asInt caps.required))
    |>.field "optional" (toStringI (asInt caps.optional))
    |>.field "flags" (toStringI (asInt caps.flags))
    |>.field "factoryActions" (actionListToJson caps.factoryActions)
    |>.field "instanceActions" (actionListToJson caps.instanceActions)
    |>.fieldIf (!blank caps.defaultsJson) "defaults"
      (jsonTokenOrDefault caps.defaultsJson (lit "\x7b\x7d"))
    |>.close

def descriptorToJson (descriptor : AdapterDescriptor) : Bytes :=
  openObject
    |>.field "pluginType" (jsonQuoted descriptor.pluginType)
    |>.field "displayName" (jsonQuoted descriptor.displayName)
    |>.field "description" (jsonQuoted descriptor.description)
    |>.field "apiVersion" (jsonQuoted descriptor.apiVersion)
    |>.field "iconSvg" (jsonQuoted descriptor.iconSvg)
    |>.field "imageBase64" (jsonQuoted descriptor.imageBase64)
    |>.field "timeoutMs" (toStringI descriptor.timeoutMs.toInt)
    |>.field "maxInstances" (toStringI descriptor.maxInstances.toInt)
    |>.field "capabilities" (capabilitiesToJson descriptor.capabilities)
    |>.field "configSchema" (if blank descriptor.configSchemaJson then lit "null"
      else jsonTokenOrDefault descriptor.configSchemaJson (lit "\x7b\x7d"))
    |>.close

/-! ## Envelopes -/

def openEnvelope (command : IpcCommand) : Out :=
  ⟨lit "\x7b\"command\":" ++ toStringU command.toUint16.toNat ++ lit ",\"payload\":\x7b", true⟩

def openEnvelopeWithCmdId (command : IpcCommand) (cmdId : CmdId) : Out :=
  ⟨lit "\x7b\"command\":" ++ toStringU command.toUint16.toNat ++ lit ",\"cmdId\":" ++
    toStringU cmdId.toNat ++ lit ",\"payload\":\x7b", true⟩

def closeEnvelope (o : Out) : Bytes := o.out ++ lit "\x7d\x7d"

/-! ## Logs -/

def encodeWireLevel (level : LogLevel) : UInt8 :=
  if level = .Trace then 1 else if level = .Debug then 2 else if level = .Info then 3
  else if level = .Warn then 4 else 5

def encodeWireCategory (category : LogCategory) (incident : Bool) : UInt8 :=
  let base := category.raw &&& 0x7F
  if incident then base ||| 0x80 else base

/-- `shortened` at its default length. -/
def shortened (text : Bytes) : Bytes :=
  if text.length ≤ 160 then text else text.take (160 - 3) ++ lit "..."

end Phi.Wire
