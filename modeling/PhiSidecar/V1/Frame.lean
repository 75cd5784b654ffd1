import Mathlib.Algebra.Group.Nat.Defs
import PhiSidecar.V1.Types

/-!
# Commands and frames (`phi/adapter/v1/ipc_command.h`, `frame.h`)

`IpcCommand` holds any `uint16_t`, as the `enum class` does. `readHeader` is the `memcpy` into the
packed `FrameHeader` on a little-endian host.
-/

set_option autoImplicit false

namespace Phi.V1

structure IpcCommand where
  toUint16 : UInt16
  deriving DecidableEq

namespace IpcCommand
def SyncAdapterBootstrap : IpcCommand := ⟨0x0101⟩
def SyncAdapterConfigChanged : IpcCommand := ⟨0x0102⟩
def SyncAdapterInstanceRemoved : IpcCommand := ⟨0x0103⟩
def CmdChannelInvoke : IpcCommand := ⟨0x0201⟩
def CmdAdapterActionInvoke : IpcCommand := ⟨0x0202⟩
def CmdDeviceNameUpdate : IpcCommand := ⟨0x0203⟩
def CmdDeviceEffectInvoke : IpcCommand := ⟨0x0204⟩
def CmdSceneInvoke : IpcCommand := ⟨0x0205⟩
def CmdAdaptersStreamStart : IpcCommand := ⟨0x0206⟩
def CmdAdaptersStreamStop : IpcCommand := ⟨0x0207⟩
def ResponseFactoryDescriptor : IpcCommand := ⟨0x1001⟩
def EventFactoryDescriptorUpdated : IpcCommand := ⟨0x1002⟩
def EventAdapterMetaUpdated : IpcCommand := ⟨0x1003⟩
def EventConnectionStateChanged : IpcCommand := ⟨0x1004⟩
def EventLog : IpcCommand := ⟨0x1005⟩
def EventDeviceUpdated : IpcCommand := ⟨0x1101⟩
def EventDeviceRemoved : IpcCommand := ⟨0x1102⟩
def EventChannelUpdated : IpcCommand := ⟨0x1201⟩
def EventChannelStateUpdated : IpcCommand := ⟨0x1202⟩
def EventRoomUpdated : IpcCommand := ⟨0x1301⟩
def EventRoomRemoved : IpcCommand := ⟨0x1302⟩
def EventGroupUpdated : IpcCommand := ⟨0x1401⟩
def EventGroupRemoved : IpcCommand := ⟨0x1402⟩
def EventSceneUpdated : IpcCommand := ⟨0x1501⟩
def EventSceneRemoved : IpcCommand := ⟨0x1502⟩
def EventStreamOpen : IpcCommand := ⟨0x1601⟩
def EventStreamData : IpcCommand := ⟨0x1602⟩
def EventStreamError : IpcCommand := ⟨0x1603⟩
def EventStreamEnd : IpcCommand := ⟨0x1604⟩
def ResultCmd : IpcCommand := ⟨0x2001⟩
def ResultAction : IpcCommand := ⟨0x2002⟩

def isSyncCommand (value : IpcCommand) : Bool := 0x0100 ≤ value.toUint16 && value.toUint16 < 0x0200
def isCmdCommand (value : IpcCommand) : Bool := 0x0200 ≤ value.toUint16 && value.toUint16 < 0x1000
def isResultCommand (value : IpcCommand) : Bool :=
  0x2000 ≤ value.toUint16 && value.toUint16 < 0x3000

end IpcCommand

/-! ## Frames -/

def kProtocolVersion : UInt16 := 1
def kFrameMagic : Bytes := lit "PHIA"
def kMaxPayloadSize : UInt32 := 2 * 1024 * 1024
def kFrameHeaderSize : Nat := 20

structure FrameHeader where
  magic : Bytes := kFrameMagic
  version : UInt16 := kProtocolVersion
  type : UInt8 := MessageType.Event.raw
  flags : UInt8 := 0
  payloadSize : UInt32 := 0
  correlationId : CorrelationId := 0
  deriving DecidableEq

/-- An unsigned number in little-endian order. -/
def readLE : Bytes → Nat
  | [] => 0
  | b :: bs => b.toNat + 256 * readLE bs

/-- The header at the front of at least `kFrameHeaderSize` bytes. -/
def readHeader (frameStart : Bytes) : FrameHeader where
  magic := frameStart.take 4
  version := UInt16.ofNat (readLE ((frameStart.drop 4).take 2))
  type := frameStart.getD 6 0
  flags := frameStart.getD 7 0
  payloadSize := UInt32.ofNat (readLE ((frameStart.drop 8).take 4))
  correlationId := UInt64.ofNat (readLE ((frameStart.drop 12).take 8))

def isValidFrameHeader (header : FrameHeader) : Bool :=
  header.magic == kFrameMagic && header.version == kProtocolVersion &&
    header.payloadSize ≤ kMaxPayloadSize

def messageType (header : FrameHeader) : MessageType := ⟨header.type⟩

def expectedMessageType (command : IpcCommand) : MessageType :=
  if command = .ResponseFactoryDescriptor then .Response
  else if command.isSyncCommand || command.isCmdCommand then .Request
  else if command.isResultCommand then .Response
  else .Event

def matchesMessageType (type : MessageType) (command : IpcCommand) : Bool :=
  type == expectedMessageType command

/-- The header depends on the first `kFrameHeaderSize` bytes only. -/
theorem readHeader_append {s : Bytes} (h : kFrameHeaderSize ≤ s.length) (t : Bytes) :
    readHeader (s ++ t) = readHeader s := by
  have h20 : 20 ≤ s.length := h
  simp only [readHeader, List.getD_eq_getElem?_getD]
  rw [List.take_append_of_le_length (by omega), List.drop_append_of_le_length (by omega),
    List.drop_append_of_le_length (by omega), List.drop_append_of_le_length (by omega),
    List.take_append_of_le_length (by rw [List.length_drop]; omega),
    List.take_append_of_le_length (by rw [List.length_drop]; omega),
    List.take_append_of_le_length (by rw [List.length_drop]; omega),
    List.getElem?_append_left (by omega), List.getElem?_append_left (by omega)]

/-! ## Writing a header -/

/-- The low `k` bytes of a number in little-endian order. -/
def writeLE : Nat → Nat → Bytes
  | 0, _ => []
  | k + 1, n => UInt8.ofNat n :: writeLE k (n / 256)

/-- The object representation of a `FrameHeader`, packed, on a little-endian host. -/
def headerBytes (header : FrameHeader) : Bytes :=
  header.magic ++ writeLE 2 header.version.toNat ++ [header.type, header.flags] ++
    writeLE 4 header.payloadSize.toNat ++ writeLE 8 header.correlationId.toNat

@[simp] theorem length_writeLE (k n : Nat) : (writeLE k n).length = k := by
  induction k generalizing n with
  | zero => rfl
  | succ k ih => rw [writeLE, List.length_cons, ih]

/-- Reading back what was written gives the low bytes of the number. -/
theorem readLE_writeLE (k n : Nat) : readLE (writeLE k n) = n % 256 ^ k := by
  induction k generalizing n with
  | zero => exact (Nat.mod_one n).symm
  | succ k ih =>
    rw [writeLE, readLE, ih]
    show n % 256 + 256 * (n / 256 % 256 ^ k) = n % 256 ^ (k + 1)
    rw [Nat.pow_succ', Nat.mod_mul]

theorem length_headerBytes {header : FrameHeader} (h : header.magic.length = 4) :
    (headerBytes header).length = kFrameHeaderSize := by
  simp [headerBytes, h, kFrameHeaderSize]

/-- **A header reads back as it was written**, whatever follows it. -/
theorem readHeader_headerBytes {header : FrameHeader} (h : header.magic.length = 4) (t : Bytes) :
    readHeader (headerBytes header ++ t) = header := by
  obtain ⟨magic, version, type, flags, payloadSize, correlationId⟩ := header
  obtain ⟨a, b, c, d, rfl⟩ : ∃ a b c d, magic = [a, b, c, d] := by
    match magic, h with
    | [a, b, c, d], _ => exact ⟨a, b, c, d, rfl⟩
  have hv : readLE (writeLE 2 version.toNat) = version.toNat :=
    (readLE_writeLE _ _).trans (Nat.mod_eq_of_lt version.toNat_lt)
  have hp : readLE (writeLE 4 payloadSize.toNat) = payloadSize.toNat :=
    (readLE_writeLE _ _).trans (Nat.mod_eq_of_lt payloadSize.toNat_lt)
  have hc : readLE (writeLE 8 correlationId.toNat) = correlationId.toNat :=
    (readLE_writeLE _ _).trans (Nat.mod_eq_of_lt correlationId.toNat_lt)
  have hr : readHeader (headerBytes ⟨[a, b, c, d], version, type, flags, payloadSize,
      correlationId⟩ ++ t) =
      ⟨[a, b, c, d], UInt16.ofNat (readLE (writeLE 2 version.toNat)), type, flags,
        UInt32.ofNat (readLE (writeLE 4 payloadSize.toNat)),
        UInt64.ofNat (readLE (writeLE 8 correlationId.toNat))⟩ := rfl
  rw [hr, hv, hp, hc, UInt16.ofNat_toNat, UInt32.ofNat_toNat, UInt64.ofNat_toNat]

end Phi.V1
