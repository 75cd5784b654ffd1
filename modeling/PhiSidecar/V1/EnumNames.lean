import Mathlib.Data.List.Nodup
import PhiSidecar.Lib.Decimal
import PhiSidecar.V1.Types

/-!
# Names of enumerators (`enum_names.h`)

Twenty-one tables of names, and two chains that pick a table by the name of the enum type, in any
letter case: `enumNameFor` prints a value, `parseEnumValueByName` reads a name or a number. An
`EnumType` is a table that can be read back: no two names agree up to letter case and none can be
taken for a number.

* `enumNameFor_eq`, `parseEnumValueByName_eq`: both chains pick from one list, `enumTypes`.
* `enumNames_roundTrip`: **what a known type prints reads back, for every `int`**; both functions
  know the same type names; a listed name reads as its value in any letter case.
-/

set_option autoImplicit false

namespace Phi.V1.EnumNames

structure EnumValueName where
  value : Int32
  name : Bytes
  deriving DecidableEq

def lowerAscii (c : UInt8) : UInt8 := if 0x41 ≤ c && c ≤ 0x5A then c - 0x41 + 0x61 else c

def equalsIgnoreCaseAscii (lhs rhs : Bytes) : Bool :=
  lhs.length == rhs.length && (lhs.zip rhs).all fun (l, r) => lowerAscii l == lowerAscii r

def findByValue (entries : List EnumValueName) (value : Int32) : Option EnumValueName :=
  entries.find? fun entry => entry.value == value

def findByName (entries : List EnumValueName) (name : Bytes) : Option EnumValueName :=
  entries.find? fun entry => equalsIgnoreCaseAscii entry.name name

/-- `std::from_chars` into an `int`, up to the end of the text. -/
def parseNumeric (text : Bytes) : Option Int32 :=
  if text = [] then none
  else
    match Decimal.readInt text with
    | none => none
    | some z => if -2 ^ 31 ≤ z ∧ z < 2 ^ 31 then some (Int32.ofInt z) else none

def valueToName (entries : List EnumValueName) (value : Int32) (fallbackNumber : Bool) : Bytes :=
  match findByValue entries value with
  | some entry => entry.name
  | none => if fallbackNumber then Decimal.intText value.toInt else []

def parseNameToValue (entries : List EnumValueName) (name : Bytes) : Option Int32 :=
  match parseNumeric name with
  | some v => some v
  | none => (findByName entries name).map EnumValueName.value

/-! ## The tables

Each name stands beside the value its enumerator has in `types.h`. -/

def names (entries : List (Int32 × String)) : List EnumValueName :=
  entries.map fun e => ⟨e.1, lit e.2⟩

def kCmdStatusNames : List EnumValueName := names
  [(0, "Success"), (1, "Failure"), (2, "Timeout"), (3, "NotSupported"), (4, "InvalidArgument"),
   (5, "Busy"), (6, "TemporarilyOffline"), (7, "NotAuthorized"), (8, "NotImplemented")]

def kActionResultTypeNames : List EnumValueName := names
  [(0, "None"), (1, "Boolean"), (2, "Integer"), (3, "Float"), (4, "String"), (5, "StringList")]

def kDeviceClassNames : List EnumValueName := names
  [(0, "Unknown"), (1, "Light"), (2, "Switch"), (3, "Sensor"), (4, "Button"), (5, "Plug"),
   (6, "Cover"), (7, "Thermostat"), (8, "Gateway"), (9, "MediaPlayer"), (10, "Heater"),
   (11, "Gate"), (12, "Valve")]

def kButtonEventCodeNames : List EnumValueName := names
  [(0, "None"), (1, "InitialPress"), (2, "DoublePress"), (3, "TriplePress"), (4, "QuadruplePress"),
   (5, "QuintuplePress"), (10, "LongPress"), (11, "LongPressRelease"), (12, "ShortPressRelease"),
   (20, "Repeat")]

def kRockerModeNames : List EnumValueName := names
  [(0, "Unknown"), (1, "SingleRocker"), (2, "DualRocker"), (3, "SinglePush"), (4, "DualPush")]

def kSensitivityLevelNames : List EnumValueName := names
  [(0, "Unknown"), (1, "Low"), (2, "Medium"), (3, "High"), (4, "VeryHigh"), (5, "Max")]

def kOperatingLevelNames : List EnumValueName := names
  [(0, "Unknown"), (1, "Off"), (2, "Low"), (3, "Medium"), (4, "High"), (5, "Auto")]

def kPresetModeNames : List EnumValueName := names
  [(0, "Unknown"), (1, "Eco"), (2, "Normal"), (3, "Comfort"), (4, "Sleep"), (5, "Away"),
   (6, "Boost")]

def kChannelKindNames : List EnumValueName := names
  [(0, "Unknown"), (1, "PowerOnOff"), (2, "ButtonEvent"), (10, "Brightness"),
   (11, "ColorTemperature"), (12, "ColorRGB"), (13, "ColorTemperaturePreset"), (30, "Volume"),
   (31, "Mute"), (32, "HdmiInput"), (33, "PlayPause"), (50, "Temperature"), (51, "Humidity"),
   (52, "Illuminance"), (53, "Motion"), (54, "Battery"), (55, "CO2"), (56, "RelativeRotation"),
   (57, "ConnectivityStatus"), (58, "DeviceSoftwareUpdate"), (59, "SignalStrength"), (60, "Power"),
   (61, "Voltage"), (62, "Current"), (63, "Energy"), (64, "LinkQuality"), (65, "Duration"),
   (66, "Contact"), (67, "Tamper"), (68, "AmbientLightLevel"), (69, "MotionSensitivity"),
   (200, "PhValue"), (201, "OrpValue"), (202, "SaltPpm"), (203, "Conductivity"), (204, "TdsValue"),
   (205, "SpecificGravity"), (206, "WaterHardness"), (207, "FreeChlorine"),
   (208, "FilterPressure"), (209, "WaterFlow"), (300, "SceneTrigger")]

def kChannelDataTypeNames : List EnumValueName := names
  [(0, "Unknown"), (1, "Bool"), (2, "Int"), (3, "Float"), (4, "String"), (5, "Color"), (6, "Enum")]

def kConnectivityStatusNames : List EnumValueName := names
  [(0, "Unknown"), (1, "Connected"), (2, "Limited"), (3, "Disconnected")]

def kAdapterConfigFieldTypeNames : List EnumValueName := names
  [(0, "String"), (1, "Password"), (2, "Integer"), (3, "Boolean"), (4, "Hostname"), (5, "Port"),
   (6, "QrCode"), (7, "Select"), (8, "Action")]

def kAdapterConfigLabelPositionNames : List EnumValueName := names
  [(0, "Top"), (1, "Left"), (2, "Right")]

def kAdapterConfigActionPositionNames : List EnumValueName := names
  [(0, "None"), (1, "Inline"), (2, "Below")]

def kAdapterConfigVisibilityOpNames : List EnumValueName := names
  [(0, "Equals"), (1, "Contains")]

def kChannelFlagNames : List EnumValueName := names
  [(0, "None"), (1, "Readable"), (2, "Writable"), (4, "Reportable"), (8, "Retained"),
   (16, "Inactive"), (32, "NoTrigger"), (64, "Suppress")]

def kDeviceFlagNames : List EnumValueName := names
  [(0, "None"), (1, "Wireless"), (2, "Battery"), (4, "Flushable"), (8, "Ble")]

def kSceneFlagNames : List EnumValueName := names
  [(0, "None"), (1, "OriginAdapter"), (2, "SupportsDynamic"), (4, "SupportsDeactivate")]

def kAdapterFlagNames : List EnumValueName := names
  [(0, "None"), (1, "UseTls"), (2, "CloudServices"), (4, "EnableLogs"), (8, "RequiresPolling"),
   (16, "SupportsDiscovery"), (32, "SupportsProbe"), (64, "SupportsRename")]

def kAdapterConfigFieldFlagNames : List EnumValueName := names
  [(0, "None"), (1, "Required"), (2, "Secret"), (4, "ReadOnly"), (8, "Transient"), (16, "Multi"),
   (32, "InstanceOnly")]

def kAdapterRequirementNames : List EnumValueName := names
  [(0, "None"), (1, "Host"), (2, "Port"), (4, "Username"), (8, "Password"), (16, "AppKey"),
   (32, "Token"), (64, "QrCode"), (128, "SupportsTls"), (256, "ManualConfirm"),
   (512, "UsesRetryInterval")]

/-! ## The two chains -/

def enumNameFor (enumTypeName : Bytes) (value : Int32) (fallbackNumber : Bool) : Bytes :=
  if equalsIgnoreCaseAscii enumTypeName (lit "CmdStatus") then
    valueToName kCmdStatusNames value fallbackNumber
  else if equalsIgnoreCaseAscii enumTypeName (lit "ActionResultType") then
    valueToName kActionResultTypeNames value fallbackNumber
  else if equalsIgnoreCaseAscii enumTypeName (lit "DeviceClass") then
    valueToName kDeviceClassNames value fallbackNumber
  else if equalsIgnoreCaseAscii enumTypeName (lit "ButtonEventCode") then
    valueToName kButtonEventCodeNames value fallbackNumber
  else if equalsIgnoreCaseAscii enumTypeName (lit "RockerMode") then
    valueToName kRockerModeNames value fallbackNumber
  else if equalsIgnoreCaseAscii enumTypeName (lit "SensitivityLevel") then
    valueToName kSensitivityLevelNames value fallbackNumber
  else if equalsIgnoreCaseAscii enumTypeName (lit "OperatingLevel") then
    valueToName kOperatingLevelNames value fallbackNumber
  else if equalsIgnoreCaseAscii enumTypeName (lit "PresetMode") then
    valueToName kPresetModeNames value fallbackNumber
  else if equalsIgnoreCaseAscii enumTypeName (lit "ChannelKind") then
    valueToName kChannelKindNames value fallbackNumber
  else if equalsIgnoreCaseAscii enumTypeName (lit "ChannelDataType") then
    valueToName kChannelDataTypeNames value fallbackNumber
  else if equalsIgnoreCaseAscii enumTypeName (lit "ConnectivityStatus") then
    valueToName kConnectivityStatusNames value fallbackNumber
  else if equalsIgnoreCaseAscii enumTypeName (lit "AdapterConfigFieldType") then
    valueToName kAdapterConfigFieldTypeNames value fallbackNumber
  else if equalsIgnoreCaseAscii enumTypeName (lit "AdapterConfigLabelPosition") then
    valueToName kAdapterConfigLabelPositionNames value fallbackNumber
  else if equalsIgnoreCaseAscii enumTypeName (lit "AdapterConfigActionPosition") then
    valueToName kAdapterConfigActionPositionNames value fallbackNumber
  else if equalsIgnoreCaseAscii enumTypeName (lit "AdapterConfigVisibilityOp") then
    valueToName kAdapterConfigVisibilityOpNames value fallbackNumber
  else if equalsIgnoreCaseAscii enumTypeName (lit "AdapterConfigFieldFlag") then
    valueToName kAdapterConfigFieldFlagNames value fallbackNumber
  else if equalsIgnoreCaseAscii enumTypeName (lit "AdapterRequirement") then
    valueToName kAdapterRequirementNames value fallbackNumber
  else if equalsIgnoreCaseAscii enumTypeName (lit "AdapterFlag") then
    valueToName kAdapterFlagNames value fallbackNumber
  else if equalsIgnoreCaseAscii enumTypeName (lit "DeviceFlag") then
    valueToName kDeviceFlagNames value fallbackNumber
  else if equalsIgnoreCaseAscii enumTypeName (lit "SceneFlag") then
    valueToName kSceneFlagNames value fallbackNumber
  else if equalsIgnoreCaseAscii enumTypeName (lit "ChannelFlag") then
    valueToName kChannelFlagNames value fallbackNumber
  else if fallbackNumber then Decimal.intText value.toInt
  else []

def parseEnumValueByName (enumTypeName : Bytes) (name : Bytes) : Option Int32 :=
  if equalsIgnoreCaseAscii enumTypeName (lit "CmdStatus") then
    parseNameToValue kCmdStatusNames name
  else if equalsIgnoreCaseAscii enumTypeName (lit "ActionResultType") then
    parseNameToValue kActionResultTypeNames name
  else if equalsIgnoreCaseAscii enumTypeName (lit "DeviceClass") then
    parseNameToValue kDeviceClassNames name
  else if equalsIgnoreCaseAscii enumTypeName (lit "ButtonEventCode") then
    parseNameToValue kButtonEventCodeNames name
  else if equalsIgnoreCaseAscii enumTypeName (lit "RockerMode") then
    parseNameToValue kRockerModeNames name
  else if equalsIgnoreCaseAscii enumTypeName (lit "SensitivityLevel") then
    parseNameToValue kSensitivityLevelNames name
  else if equalsIgnoreCaseAscii enumTypeName (lit "OperatingLevel") then
    parseNameToValue kOperatingLevelNames name
  else if equalsIgnoreCaseAscii enumTypeName (lit "PresetMode") then
    parseNameToValue kPresetModeNames name
  else if equalsIgnoreCaseAscii enumTypeName (lit "ChannelKind") then
    parseNameToValue kChannelKindNames name
  else if equalsIgnoreCaseAscii enumTypeName (lit "ChannelDataType") then
    parseNameToValue kChannelDataTypeNames name
  else if equalsIgnoreCaseAscii enumTypeName (lit "ConnectivityStatus") then
    parseNameToValue kConnectivityStatusNames name
  else if equalsIgnoreCaseAscii enumTypeName (lit "AdapterConfigFieldType") then
    parseNameToValue kAdapterConfigFieldTypeNames name
  else if equalsIgnoreCaseAscii enumTypeName (lit "AdapterConfigLabelPosition") then
    parseNameToValue kAdapterConfigLabelPositionNames name
  else if equalsIgnoreCaseAscii enumTypeName (lit "AdapterConfigActionPosition") then
    parseNameToValue kAdapterConfigActionPositionNames name
  else if equalsIgnoreCaseAscii enumTypeName (lit "AdapterConfigVisibilityOp") then
    parseNameToValue kAdapterConfigVisibilityOpNames name
  else if equalsIgnoreCaseAscii enumTypeName (lit "AdapterConfigFieldFlag") then
    parseNameToValue kAdapterConfigFieldFlagNames name
  else if equalsIgnoreCaseAscii enumTypeName (lit "AdapterRequirement") then
    parseNameToValue kAdapterRequirementNames name
  else if equalsIgnoreCaseAscii enumTypeName (lit "AdapterFlag") then
    parseNameToValue kAdapterFlagNames name
  else if equalsIgnoreCaseAscii enumTypeName (lit "DeviceFlag") then
    parseNameToValue kDeviceFlagNames name
  else if equalsIgnoreCaseAscii enumTypeName (lit "SceneFlag") then
    parseNameToValue kSceneFlagNames name
  else if equalsIgnoreCaseAscii enumTypeName (lit "ChannelFlag") then
    parseNameToValue kChannelFlagNames name
  else none

/-! ## Letter case -/

/-- A name in lower case. -/
def lowered (name : Bytes) : Bytes := name.map lowerAscii

theorem equalsIgnoreCaseAscii_iff {lhs rhs : Bytes} :
    equalsIgnoreCaseAscii lhs rhs = true ↔ lowered lhs = lowered rhs := by
  induction lhs generalizing rhs with
  | nil => cases rhs <;> simp [equalsIgnoreCaseAscii, lowered]
  | cons l lhs ih =>
    cases rhs with
    | nil => simp [equalsIgnoreCaseAscii, lowered]
    | cons r rhs =>
      have := @ih rhs
      simp only [equalsIgnoreCaseAscii, lowered, Bool.and_eq_true, beq_iff_eq, List.length_cons,
        List.zip_cons_cons, List.all_cons, List.map_cons, List.cons.injEq, Nat.add_right_cancel_iff]
        at this ⊢
      tauto

/-- The first byte is a letter. -/
def Lettered (name : Bytes) : Prop :=
  ∃ c ∈ name.head?, 0x61 ≤ (lowerAscii c).toNat ∧ (lowerAscii c).toNat ≤ 0x7A

instance (name : Bytes) : Decidable (Lettered name) := by
  unfold Lettered; infer_instance

theorem Lettered.recase {name other : Bytes} (h : Lettered name) (ho : lowered other = lowered name) :
    Lettered other := by
  obtain ⟨c, hc, hletter⟩ := h
  have hhead : other.head?.map lowerAscii = some (lowerAscii c) := by
    rw [← List.head?_map, show other.map lowerAscii = name.map lowerAscii from ho, List.head?_map,
      Option.mem_def.1 hc, Option.map_some]
  obtain ⟨d, hd, he⟩ := Option.map_eq_some_iff.1 hhead
  exact ⟨d, hd, he ▸ hletter⟩

/-- A letter is neither a digit nor a minus sign: nothing else starts a number. -/
theorem parseNumeric_of_lettered {name : Bytes} (h : Lettered name) : parseNumeric name = none := by
  obtain ⟨c, hc, hlo, hhi⟩ := h
  obtain ⟨cs, rfl⟩ : ∃ cs, name = c :: cs := by
    cases name with
    | nil => cases hc
    | cons d ds => exact ⟨ds, by rw [Option.some.inj hc]⟩
  have hdigit : Decimal.isDigit c = false := by
    by_contra hd
    obtain ⟨h0, h9⟩ := Decimal.isDigit_iff.1 (Bool.of_not_eq_false hd)
    rw [lowerAscii, if_neg (by simp only [Bool.and_eq_true, decide_eq_true_iff,
      UInt8.le_iff_toNat_le, UInt8.reduceToNat]; omega)] at hlo
    omega
  have hminus : c ≠ 0x2D := by
    rintro rfl
    exact absurd hlo (by decide)
  simp [parseNumeric, Decimal.readInt, Decimal.readNat, hminus, hdigit]

theorem parseNumeric_intText (v : Int32) : parseNumeric (Decimal.intText v.toInt) = some v := by
  have hne : Decimal.intText v.toInt ≠ [] := by
    intro he
    have := Decimal.readInt_intText v.toInt
    rw [he] at this
    cases this
  have hfit : -2 ^ 31 ≤ v.toInt ∧ v.toInt < 2 ^ 31 := ⟨v.le_toInt, v.toInt_lt⟩
  simp only [parseNumeric, if_neg hne, Decimal.readInt_intText, if_pos hfit, Int32.ofInt_toInt]

/-! ## A table that can be read back -/

structure EnumType where
  name : Bytes
  table : List EnumValueName
  nonempty : table ≠ []
  distinct : (table.map fun e => lowered e.name).Nodup
  lettered : ∀ e ∈ table, Lettered e.name

/-- Looking up a key that no two members share finds the member that has it. -/
theorem find?_of_nodup_map {α κ : Type} {key : α → κ} {xs : List α} (hnd : (xs.map key).Nodup)
    {x : α} (hx : x ∈ xs) {p : α → Bool} (hp : ∀ y, p y = true ↔ key y = key x) :
    xs.find? p = some x := by
  induction xs with
  | nil => cases hx
  | cons y ys ih =>
    obtain ⟨hy, hys⟩ := List.nodup_cons.1 hnd
    rcases List.mem_cons.1 hx with rfl | hx
    · exact List.find?_cons_of_pos ((hp x).2 rfl)
    · have hne : ¬ p y = true := fun h => hy ((hp y).1 h ▸ List.mem_map_of_mem hx)
      rw [List.find?_cons_of_neg hne]
      exact ih hys hx

namespace EnumType

variable (T : EnumType)

theorem parse_listed {e : EnumValueName} (he : e ∈ T.table) {name : Bytes}
    (hn : equalsIgnoreCaseAscii name e.name = true) :
    parseNameToValue T.table name = some e.value := by
  have hlow := equalsIgnoreCaseAscii_iff.1 hn
  have hnum : parseNumeric name = none := parseNumeric_of_lettered ((T.lettered e he).recase hlow)
  have hfind : findByName T.table name = some e :=
    find?_of_nodup_map T.distinct he fun y => by rw [equalsIgnoreCaseAscii_iff, hlow]
  simp only [parseNameToValue, hnum, hfind, Option.map_some]

/-- **What a table prints for a value reads back**: a name by the table, anything else as the
number it is. -/
theorem parse_valueToName (v : Int32) :
    parseNameToValue T.table (valueToName T.table v true) = some v := by
  cases hv : findByValue T.table v with
  | none => simp only [valueToName, hv, if_true, parseNameToValue, parseNumeric_intText]
  | some e =>
    have hval : e.value = v := by simpa using List.find?_some hv
    simp only [valueToName, hv]
    rw [T.parse_listed (List.mem_of_find?_eq_some hv) (equalsIgnoreCaseAscii_iff.2 rfl), hval]

theorem exists_name : ∃ v, valueToName T.table v false ≠ [] := by
  obtain ⟨e, he⟩ := List.exists_mem_of_ne_nil _ T.nonempty
  refine ⟨e.value, ?_⟩
  obtain ⟨e', he'⟩ : ∃ e', findByValue T.table e.value = some e' :=
    Option.isSome_iff_exists.1 (List.find?_isSome.2 ⟨e, he, by simp⟩)
  obtain ⟨c, hc, -⟩ := T.lettered e' (List.mem_of_find?_eq_some he')
  simp only [valueToName, he']
  rintro hnil
  rw [hnil] at hc
  cases hc

end EnumType

/-! ## The types both chains know -/

def enumTypes : List EnumType :=
  [⟨lit "CmdStatus", kCmdStatusNames, by decide, by decide, by decide⟩,
   ⟨lit "ActionResultType", kActionResultTypeNames, by decide, by decide, by decide⟩,
   ⟨lit "DeviceClass", kDeviceClassNames, by decide, by decide, by decide⟩,
   ⟨lit "ButtonEventCode", kButtonEventCodeNames, by decide, by decide, by decide⟩,
   ⟨lit "RockerMode", kRockerModeNames, by decide, by decide, by decide⟩,
   ⟨lit "SensitivityLevel", kSensitivityLevelNames, by decide, by decide, by decide⟩,
   ⟨lit "OperatingLevel", kOperatingLevelNames, by decide, by decide, by decide⟩,
   ⟨lit "PresetMode", kPresetModeNames, by decide, by decide, by decide⟩,
   ⟨lit "ChannelKind", kChannelKindNames, by decide, by decide, by decide⟩,
   ⟨lit "ChannelDataType", kChannelDataTypeNames, by decide, by decide, by decide⟩,
   ⟨lit "ConnectivityStatus", kConnectivityStatusNames, by decide, by decide, by decide⟩,
   ⟨lit "AdapterConfigFieldType", kAdapterConfigFieldTypeNames, by decide, by decide, by decide⟩,
   ⟨lit "AdapterConfigLabelPosition", kAdapterConfigLabelPositionNames, by decide, by decide, by decide⟩,
   ⟨lit "AdapterConfigActionPosition", kAdapterConfigActionPositionNames, by decide, by decide, by decide⟩,
   ⟨lit "AdapterConfigVisibilityOp", kAdapterConfigVisibilityOpNames, by decide, by decide, by decide⟩,
   ⟨lit "AdapterConfigFieldFlag", kAdapterConfigFieldFlagNames, by decide, by decide, by decide⟩,
   ⟨lit "AdapterRequirement", kAdapterRequirementNames, by decide, by decide, by decide⟩,
   ⟨lit "AdapterFlag", kAdapterFlagNames, by decide, by decide, by decide⟩,
   ⟨lit "DeviceFlag", kDeviceFlagNames, by decide, by decide, by decide⟩,
   ⟨lit "SceneFlag", kSceneFlagNames, by decide, by decide, by decide⟩,
   ⟨lit "ChannelFlag", kChannelFlagNames, by decide, by decide, by decide⟩]

/-- The type that a name picks, in any letter case. -/
def enumTypeFor (enumTypeName : Bytes) : Option EnumType :=
  enumTypes.find? fun T => equalsIgnoreCaseAscii enumTypeName T.name

/-- A chain of comparisons over a list of types. -/
def dispatch {α : Type} (enumTypeName : Bytes) (onTable : List EnumValueName → α) (other : α) :
    List EnumType → α
  | [] => other
  | T :: rest =>
    if equalsIgnoreCaseAscii enumTypeName T.name then onTable T.table
    else dispatch enumTypeName onTable other rest

theorem dispatch_eq {α : Type} (enumTypeName : Bytes) (onTable : List EnumValueName → α) (other : α)
    (types : List EnumType) :
    dispatch enumTypeName onTable other types =
      (types.find? fun T => equalsIgnoreCaseAscii enumTypeName T.name).elim other
        fun T => onTable T.table := by
  induction types with
  | nil => rfl
  | cons T rest ih =>
    by_cases h : equalsIgnoreCaseAscii enumTypeName T.name = true
    · simp only [dispatch, h, if_true, List.find?_cons, Option.elim_some]
    · simp only [dispatch, h, Bool.false_eq_true, if_false, List.find?_cons, ih]

theorem enumNameFor_eq (enumTypeName : Bytes) (value : Int32) (fallbackNumber : Bool) :
    enumNameFor enumTypeName value fallbackNumber =
      (enumTypeFor enumTypeName).elim (if fallbackNumber then Decimal.intText value.toInt else [])
        fun T => valueToName T.table value fallbackNumber :=
  dispatch_eq enumTypeName (valueToName · value fallbackNumber) _ enumTypes

theorem parseEnumValueByName_eq (enumTypeName name : Bytes) :
    parseEnumValueByName enumTypeName name =
      (enumTypeFor enumTypeName).elim none fun T => parseNameToValue T.table name :=
  dispatch_eq enumTypeName (parseNameToValue · name) none enumTypes

theorem enumTypes_distinct : (enumTypes.map fun T => lowered T.name).Nodup := by decide

theorem enumTypeFor_of_mem {T : EnumType} (hT : T ∈ enumTypes) {enumTypeName : Bytes}
    (hn : equalsIgnoreCaseAscii enumTypeName T.name = true) : enumTypeFor enumTypeName = some T :=
  find?_of_nodup_map enumTypes_distinct hT fun U => by
    rw [equalsIgnoreCaseAscii_iff, equalsIgnoreCaseAscii_iff.1 hn]
    exact eq_comm

/-- `enumNameFor` has a table for the type name: it gives some value a name that is not the
number it falls back to. -/
def Known (enumTypeName : Bytes) : Prop := ∃ v, enumNameFor enumTypeName v false ≠ []

theorem known_iff {enumTypeName : Bytes} :
    Known enumTypeName ↔ ∃ T, enumTypeFor enumTypeName = some T := by
  cases h : enumTypeFor enumTypeName with
  | none => simp [Known, enumNameFor_eq, h]
  | some T => simpa [Known, enumNameFor_eq, h] using T.exists_name

/-- The type names that `enumNameFor` knows are the listed ones in any letter case, and those under
which `parseEnumValueByName` reads anything at all; under each, what is printed for an `int` reads
back as that `int`, and a listed name in any letter case reads as its value. -/
theorem enumNames_roundTrip :
    (∀ enumTypeName, Known enumTypeName →
      ∀ v, parseEnumValueByName enumTypeName (enumNameFor enumTypeName v true) = some v) ∧
    (∀ enumTypeName, Known enumTypeName ↔
      ∃ name v, parseEnumValueByName enumTypeName name = some v) ∧
    (∀ enumTypeName, Known enumTypeName ↔
      ∃ T ∈ enumTypes, equalsIgnoreCaseAscii enumTypeName T.name = true) ∧
    ∀ T ∈ enumTypes, ∀ enumTypeName, equalsIgnoreCaseAscii enumTypeName T.name = true →
      ∀ e ∈ T.table, ∀ name, equalsIgnoreCaseAscii name e.name = true →
        parseEnumValueByName enumTypeName name = some e.value := by
  have hback : ∀ enumTypeName, Known enumTypeName →
      ∀ v, parseEnumValueByName enumTypeName (enumNameFor enumTypeName v true) = some v := by
    intro enumTypeName hk v
    obtain ⟨T, hT⟩ := known_iff.1 hk
    simpa only [parseEnumValueByName_eq, enumNameFor_eq, hT, Option.elim_some] using
      T.parse_valueToName v
  refine ⟨hback, fun enumTypeName => ⟨fun hk => ⟨_, 0, hback _ hk 0⟩, ?_⟩,
    fun enumTypeName => known_iff.trans ⟨?_, ?_⟩, ?_⟩
  · rintro ⟨name, v, hv⟩
    rw [parseEnumValueByName_eq] at hv
    cases hT : enumTypeFor enumTypeName with
    | none => simp [hT] at hv
    | some T => exact known_iff.2 ⟨T, hT⟩
  · rintro ⟨T, hT⟩
    have hn := List.find?_some hT
    exact ⟨T, List.mem_of_find?_eq_some hT, hn⟩
  · rintro ⟨T, hT, hn⟩
    exact ⟨T, enumTypeFor_of_mem hT hn⟩
  · intro T hT enumTypeName hn e he name hname
    rw [parseEnumValueByName_eq, enumTypeFor_of_mem hT hn]
    exact T.parse_listed he hname

/-- `cmdSTATUS` is known, and `-7`, which has no name there, reads back. -/
theorem enumNames_roundTrip_cmdStatus :
    parseEnumValueByName (lit "cmdSTATUS") (enumNameFor (lit "cmdSTATUS") (-7) true) = some (-7) :=
  enumNames_roundTrip.1 (lit "cmdSTATUS") ⟨0, by decide⟩ (-7)

end Phi.V1.EnumNames
