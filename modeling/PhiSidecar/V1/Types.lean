import Mathlib.Data.List.Basic

/-!
# Contract types (`phi/adapter/v1/types.h`, `value.h`)

Text is bytes: `std::string` holds arbitrary bytes and the code never checks that they are UTF-8.
An `enum class` with a fixed underlying type holds every value of that type, so it is a structure
around it, with the enumerators the code names as constants.
-/

set_option autoImplicit false

namespace Phi

abbrev Bytes := List UInt8

/-- The bytes of a string literal of the source (all of them are ASCII). -/
def lit (s : String) : Bytes := s.toList.map fun c => UInt8.ofNat c.toNat

@[simp] theorem lit_empty : lit "" = [] := rfl

end Phi

namespace Phi.V1

abbrev Utf8String := Bytes
abbrev JsonText := Bytes
abbrev ExternalId := Bytes
abbrev CmdId := UInt64
abbrev CorrelationId := UInt64

/-- `double`, as its IEEE 754 bit pattern. -/
structure Double where
  bits : UInt64
  deriving DecidableEq

/-- `std::variant<std::monostate, bool, std::int64_t, double, Utf8String>`. -/
inductive ScalarValue
  | null
  | bool (b : Bool)
  | int (i : Int64)
  | double (d : Double)
  | text (s : Utf8String)
  deriving DecidableEq

abbrev ScalarList := List ScalarValue

structure CmdStatus where
  raw : UInt8
  deriving DecidableEq

namespace CmdStatus
def Success : CmdStatus := ⟨0⟩
def Failure : CmdStatus := ⟨1⟩
def InvalidArgument : CmdStatus := ⟨4⟩
def NotImplemented : CmdStatus := ⟨8⟩
end CmdStatus

structure ActionResultType where
  raw : UInt8
  deriving DecidableEq

def ActionResultType.None : ActionResultType := ⟨0⟩

structure CmdResponse where
  id : CmdId := 0
  status : CmdStatus := .Success
  error : Utf8String := []
  errorParams : ScalarList := []
  errorContext : Utf8String := []
  finalValue : ScalarValue := .null
  tsMs : Int64 := 0
  deriving DecidableEq

structure ActionResponse where
  id : CmdId := 0
  status : CmdStatus := .Success
  error : Utf8String := []
  errorParams : ScalarList := []
  errorContext : Utf8String := []
  resultType : ActionResultType := .None
  resultValue : ScalarValue := .null
  resultValueJson : JsonText := []
  formValuesJson : JsonText := []
  fieldChoicesJson : JsonText := []
  reloadLayout : Bool := false
  tsMs : Int64 := 0
  deriving DecidableEq

/-- `MessageType`: the frame class byte of a header. -/
structure MessageType where
  raw : UInt8
  deriving DecidableEq

namespace MessageType
def Request : MessageType := ⟨3⟩
def Response : MessageType := ⟨4⟩
def Event : MessageType := ⟨5⟩
end MessageType

end Phi.V1
