import PhiSidecar.Dispatcher.Request

/-!
# Integer members and the casts that follow them (`sidecar.cpp`: `parseIntOrDefault`, `handleRequestFrame`)

An integer member is read as an `std::int64_t` (the default 0 if it does not fit) and then cast to the
type of its field. The cast takes the value modulo the width of that type.

* `IntType.cast_iff`: a cast keeps the value, or makes it 0, exactly for the values of the type and the
  multiples of its modulus.
* `handleRequestFrame_kept_iff`: **the integers of a request are those of its tokens or 0 if and only if
  every token that fits 64 bits is such a value**.
* `handleRequestFrame_wraps`: a port of 65616 is delivered as 80.
-/

set_option autoImplicit false

namespace Phi.Dispatcher

open Phi.V1 Phi.Wire

/-! ## The integer types -/

/-- The integer types of the fields. -/
inductive IntType
  | uint16
  | uint32
  | int
  deriving DecidableEq

namespace IntType

/-- `static_cast` from an `std::int64_t`. -/
def cast : IntType → Int64 → Int
  | uint16, i => i.toUInt64.toUInt16.toNat
  | uint32, i => i.toUInt64.toUInt32.toNat
  | int, i => i.toInt32.toInt

/-- The values of the type. -/
def Holds : IntType → Int → Prop
  | uint16, z => 0 ≤ z ∧ z < 2 ^ 16
  | uint32, z => 0 ≤ z ∧ z < 2 ^ 32
  | int, z => -2 ^ 31 ≤ z ∧ z < 2 ^ 31

/-- Their number. -/
def modulus : IntType → Int
  | uint16 => 2 ^ 16
  | uint32 | int => 2 ^ 32

theorem toInt_toUInt64 (i : Int64) : (i.toUInt64.toNat : Int) = i.toInt % 2 ^ 64 := by
  have h : i.toUInt64.toNat = i.toBitVec.toNat := rfl
  have hint : i.toInt = i.toBitVec.toInt := rfl
  have hlt := i.toBitVec.isLt
  rw [h, hint, BitVec.toInt_eq_toNat_cond]
  split <;> omega

theorem cast_holds (t : IntType) (i : Int64) : t.Holds (t.cast i) := by
  cases t with
  | uint16 =>
    have := i.toUInt64.toUInt16.toNat_lt
    simp only [Holds, cast]
    omega
  | uint32 =>
    have := i.toUInt64.toUInt32.toNat_lt
    simp only [Holds, cast]
    omega
  | int => exact ⟨i.toInt32.le_toInt, i.toInt32.toInt_lt⟩

/-- A cast keeps the value modulo the width. -/
theorem cast_emod (t : IntType) (i : Int64) : t.cast i % t.modulus = i.toInt % t.modulus := by
  have h := toInt_toUInt64 i
  cases t with
  | uint16 =>
    simp only [cast, modulus, UInt64.toNat_toUInt16]
    omega
  | uint32 =>
    simp only [cast, modulus, UInt64.toNat_toUInt32]
    omega
  | int =>
    simp only [cast, modulus, Int64.toInt_toInt32]
    exact Int.bmod_emod

/-- The values of the type that are equal modulo the width are equal. -/
theorem eq_of_emod {t : IntType} {y z : Int} (hy : t.Holds y) (hz : t.Holds z)
    (h : y % t.modulus = z % t.modulus) : y = z := by
  cases t <;> simp only [Holds, modulus] at hy hz h <;> omega

theorem holds_zero (t : IntType) : t.Holds 0 := by
  cases t <;> simp [Holds]

/-- **Which values a cast keeps, or makes the default.** -/
theorem cast_iff (t : IntType) (i : Int64) :
    (t.cast i = i.toInt ∨ t.cast i = 0) ↔ t.Holds i.toInt ∨ t.modulus ∣ i.toInt := by
  have hemod := t.cast_emod i
  have hholds := t.cast_holds i
  constructor
  · rintro (h | h)
    · exact .inl (h ▸ hholds)
    · rw [h, Int.zero_emod] at hemod
      exact .inr (Int.dvd_of_emod_eq_zero hemod.symm)
  · rintro (h | h)
    · exact .inl (eq_of_emod hholds h hemod)
    · rw [Int.emod_eq_zero_of_dvd h] at hemod
      exact .inr (eq_of_emod hholds t.holds_zero (hemod.trans (Int.zero_emod _).symm))

end IntType

/-! ## Integer members -/

/-- A member that is read as an integer, with the type of its field. -/
structure IntegerMember where
  type : IntType
  token : Bytes
  deriving DecidableEq

namespace IntegerMember

/-- The number that an integer token denotes, of any magnitude. -/
def value (m : IntegerMember) : Option Int := Decimal.readInt (trim m.token)

/-- What the field gets. -/
def delivered (m : IntegerMember) : Int := m.type.cast (parseIntOrDefault m.token 0)

/-- The field has the number of the token or the default. -/
def Kept (m : IntegerMember) (field : Int) : Prop := ∀ z, m.value = some z → field = z ∨ field = 0

/-- The token does not denote a 64-bit number that the cast would wrap to another one than 0. -/
def Narrows (m : IntegerMember) : Prop :=
  ∀ z, m.value = some z → -2 ^ 63 ≤ z → z < 2 ^ 63 → m.type.Holds z ∨ m.type.modulus ∣ z

theorem parseIntOrDefault_eq {token : Bytes} {z : Int} (h : Decimal.readInt (trim token) = some z) :
    (parseIntOrDefault token 0).toInt = if -2 ^ 63 ≤ z ∧ z < 2 ^ 63 then z else 0 := by
  have hne : token ≠ [] := by
    rintro rfl
    cases h
  rw [parseIntOrDefault, if_neg hne, parseInt64, h]
  dsimp only
  split
  · next hz => exact Int64.toInt_ofInt_of_le hz.1 hz.2
  · rfl

theorem kept_iff (m : IntegerMember) : m.Kept m.delivered ↔ m.Narrows := by
  refine forall_congr' fun z => ⟨fun h hz hlow hhigh => ?_, fun h hz => ?_⟩
  · have hint := parseIntOrDefault_eq hz
    rw [if_pos ⟨hlow, hhigh⟩] at hint
    have hkept := h hz
    rw [delivered, ← hint, IntType.cast_iff, hint] at hkept
    exact hkept
  · have hint := parseIntOrDefault_eq hz
    by_cases hfits : -2 ^ 63 ≤ z ∧ z < 2 ^ 63
    · rw [if_pos hfits] at hint
      rw [delivered, ← hint, IntType.cast_iff, hint]
      exact h hz hfits.1 hfits.2
    · rw [if_neg hfits] at hint
      have hzero := (IntType.cast_iff m.type (parseIntOrDefault m.token 0)).2
        (.inl (hint ▸ m.type.holds_zero))
      rw [hint, or_self] at hzero
      exact .inr hzero

end IntegerMember

/-! ## Requests -/

/-- The members of the adapter object. -/
def adapterMembers (payloadMap : MemberMap) : MemberMap :=
  match parseObjectMembers (member payloadMap (lit "adapter")) with
  | .ok adapterMap => adapterMap
  | .error _ => {}

/-- The integer members of a request. -/
def integerMembers (command : IpcCommand) (payloadMap : MemberMap) : List IntegerMember :=
  if command = .SyncAdapterBootstrap ∨ command = .SyncAdapterConfigChanged then
    [⟨.int, member payloadMap (lit "adapterId")⟩,
      ⟨.uint16, member (adapterMembers payloadMap) (lit "port")⟩,
      ⟨.uint32, member (adapterMembers payloadMap) (lit "flags")⟩]
  else if command = .SyncAdapterInstanceRemoved then [⟨.int, member payloadMap (lit "adapterId")⟩]
  else if command = .CmdDeviceEffectInvoke then [⟨.uint16, member payloadMap (lit "effect")⟩]
  else []

/-- The members of the payload of a request. -/
def payloadMembers (payload : Bytes) : MemberMap :=
  match parseObjectMembers payload with
  | .ok root => requestPayloadMap root
  | .error _ => {}

/-- The integers that a call delivers, in the order of `integerMembers`. -/
def HandlerCall.integers : HandlerCall → List Int
  | .onBootstrap request =>
    [request.adapterId.toInt, request.adapter.port.toNat, request.adapter.flags.toNat]
  | .onConfigChanged request =>
    [request.adapterId.toInt, request.adapter.port.toNat, request.adapter.flags.toNat]
  | .onInstanceRemoved request => [request.adapterId.toInt]
  | .onDeviceEffectInvoke request => [request.effect.toNat]
  | _ => []

theorem requestAdapter_integers (payloadMap : MemberMap) :
    (requestAdapter payloadMap).port = (memberInt (adapterMembers payloadMap) "port").toUInt64.toUInt16 ∧
      (requestAdapter payloadMap).flags =
        (memberInt (adapterMembers payloadMap) "flags").toUInt64.toUInt32 := by
  unfold requestAdapter adapterMembers
  cases parseObjectMembers (member payloadMap (lit "adapter")) with
  | ok adapterMap =>
    dsimp only
    constructor <;> split_ifs <;> rfl
  | error =>
    dsimp only
    constructor <;> split_ifs <;> rfl

theorem sync_call {handlers : SidecarHandlers} {call decoded : HandlerCall}
    (h : (sync handlers decoded).call = some call) : decoded = call := by
  unfold sync at h
  split at h
  · exact Option.some.inj h
  · cases h

theorem typed_call {handlers : SidecarHandlers} {call decoded : HandlerCall} {reply : CommandResult}
    (h : (typed handlers decoded reply).call = some call) : decoded = call := by
  unfold typed at h
  split at h
  · exact Option.some.inj h
  · cases h

/-- A call that was made has the command or none, and each of its integers is what its member
delivers. -/
def Delivers (command : IpcCommand) (payloadMap : MemberMap) (handled : Handled) : Prop :=
  ∀ call, handled.call = some call → (call.command = some command ∨ call.command = none) ∧
    call.integers = (integerMembers command payloadMap).map IntegerMember.delivered

theorem dispatchCommand_integers (parseDouble : Bytes → Option Double) (handlers : SidecarHandlers)
    (header : FrameHeader) (command : IpcCommand) (cmdId : CmdId) (payloadToken : Bytes)
    (payloadMap : MemberMap) (now : Int64) :
    Delivers command payloadMap
      (dispatchCommand parseDouble handlers header command cmdId payloadToken payloadMap now) := by
  have hnext {c : IpcCommand} {a b : Handled} :=
    @iteInduction Handled (command = c) inferInstance (Delivers command payloadMap) a b
  obtain ⟨hport, hflags⟩ := requestAdapter_integers payloadMap
  unfold dispatchCommand
  dsimp only
  refine hnext (fun hcommand call h => ?_) fun h1 => hnext (fun hcommand call h => ?_) fun h2 =>
    hnext (fun hcommand call h => ?_) fun h3 => ?_
  · obtain rfl := sync_call h
    subst hcommand
    refine ⟨.inl rfl, ?_⟩
    simp only [HandlerCall.integers, bootstrapRequest, hport, hflags]
    rfl
  · obtain rfl := sync_call h
    subst hcommand
    refine ⟨.inl rfl, ?_⟩
    simp only [HandlerCall.integers, configChangedRequest, hport, hflags]
    rfl
  · obtain rfl := sync_call h
    subst hcommand
    exact ⟨.inl rfl, rfl⟩
  -- the typed commands, of which only the device effect has an integer
  refine hnext (fun hcommand call h => ?_) fun _ => hnext (fun hcommand call h => ?_) fun _ =>
    hnext (fun hcommand call h => ?_) fun _ => hnext (fun hcommand call h => ?_) fun h7 =>
    hnext (fun hcommand call h => ?_) fun _ => hnext (fun hcommand call h => ?_) fun _ =>
    hnext (fun hcommand call h => ?_) fun _ => ?_
  iterate 7
    · obtain rfl := typed_call h
      subst hcommand
      exact ⟨.inl rfl, rfl⟩
  intro call h
  have hnone : integerMembers command payloadMap = [] := by
    rw [integerMembers, if_neg (not_or.2 ⟨h1, h2⟩), if_neg h3, if_neg h7]
  rw [hnone]
  unfold unknown at h
  dsimp only at h
  split at h
  · cases h
    exact ⟨.inr rfl, rfl⟩
  · cases h

theorem handleRequestFrame_integers {parseDouble : Bytes → Option Double} {handlers : SidecarHandlers}
    {header : FrameHeader} {payload : Bytes} {now : Int64} {call : HandlerCall} {command : IpcCommand}
    (h : (handleRequestFrame parseDouble handlers header payload now).call = some call)
    (hc : call.command = some command) :
    call.integers = (integerMembers command (payloadMembers payload)).map IntegerMember.delivered := by
  have hrefused {message : Bytes} (h : (protocolError handlers message).call = some call) : False := by
    unfold protocolError at h
    dsimp only at h
    split at h
    · cases h
      cases hc
    · cases h
  unfold handleRequestFrame at h
  unfold payloadMembers
  cases hroot : parseObjectMembers payload with
  | error parseError =>
    rw [hroot] at h
    exact (hrefused h).elim
  | ok root =>
    rw [hroot] at h
    dsimp only at h
    split at h
    · exact (hrefused h).elim
    · split at h
      · obtain ⟨hcommand | hcommand, hintegers⟩ := dispatchCommand_integers _ _ _ _ _ _ _ _ call h
        · obtain rfl := Option.some.inj (hc.symm.trans hcommand)
          exact hintegers
        · rw [hc] at hcommand
          cases hcommand
      · exact (hrefused h).elim

/-- **The integers of a request are its tokens' or 0 if and only if no token that fits 64 bits is one
that the cast wraps.** -/
theorem handleRequestFrame_kept_iff (parseDouble : Bytes → Option Double) (handlers : SidecarHandlers)
    (header : FrameHeader) (payload : Bytes) (now : Int64) {call : HandlerCall} {command : IpcCommand}
    (h : (handleRequestFrame parseDouble handlers header payload now).call = some call)
    (hc : call.command = some command) :
    List.Forall₂ IntegerMember.Kept (integerMembers command (payloadMembers payload)) call.integers ↔
      ∀ m ∈ integerMembers command (payloadMembers payload), m.Narrows := by
  rw [handleRequestFrame_integers h hc, List.forall₂_map_right_iff, List.forall₂_same]
  exact forall₂_congr fun m _ => m.kept_iff

/-- A request with an `adapter.port` of 443, and the same with one of 65616. -/
def portRequest (port : String) : Bytes :=
  lit "\x7b\"command\":257,\"payload\":\x7b\"adapter\":\x7b\"port\":" ++ lit port ++ lit "\x7d\x7d\x7d"

theorem portRequest_call :
    let header : FrameHeader := { type := MessageType.Request.raw }
    (handleRequestFrame (fun _ => none) {} header (portRequest "443") 0).call =
        some (.onBootstrap { adapter := { port := 443 } }) ∧
      integerMembers .SyncAdapterBootstrap (payloadMembers (portRequest "443")) =
        [⟨.int, []⟩, ⟨.uint16, lit "443"⟩, ⟨.uint32, []⟩] ∧
      (handleRequestFrame (fun _ => none) {} header (portRequest "65616") 0).call =
        some (.onBootstrap { adapter := { port := 80 } }) ∧
      integerMembers .SyncAdapterBootstrap (payloadMembers (portRequest "65616")) =
        [⟨.int, []⟩, ⟨.uint16, lit "65616"⟩, ⟨.uint32, []⟩] ∧
      Decimal.readInt (trim (lit "443")) = some 443 ∧ Decimal.readInt (trim (lit "65616")) = some 65616 := by
  decide +kernel

theorem handleRequestFrame_kept_port :
    List.Forall₂ IntegerMember.Kept
      (integerMembers .SyncAdapterBootstrap (payloadMembers (portRequest "443"))) [0, 443, 0] := by
  obtain ⟨hcall, hmembers, -, -, hvalue, -⟩ := portRequest_call
  refine (handleRequestFrame_kept_iff _ _ _ _ _ hcall rfl).2 fun m hm z hz _ _ => ?_
  rw [hmembers] at hm
  simp only [List.mem_cons, List.not_mem_nil, or_false] at hm
  obtain rfl | rfl | rfl := hm
  · cases hz
  · obtain rfl := Option.some.inj (hvalue.symm.trans hz)
    exact .inl (by simp [IntType.Holds])
  · cases hz

/-- The port of an adapter is taken modulo 2^16. -/
theorem handleRequestFrame_wraps :
    ¬∀ (header : FrameHeader) (payload : Bytes) (call : HandlerCall) (command : IpcCommand),
      (handleRequestFrame (fun _ => none) {} header payload 0).call = some call →
      call.command = some command →
      List.Forall₂ IntegerMember.Kept (integerMembers command (payloadMembers payload)) call.integers := by
  intro hall
  obtain ⟨-, -, hcall, hmembers, -, hvalue⟩ := portRequest_call
  have hkept := hall _ _ _ _ hcall rfl
  rw [hmembers] at hkept
  have hport := (List.forall₂_cons.1 (List.forall₂_cons.1 hkept).2).1
  have hwrapped := hport 65616 hvalue
  revert hwrapped
  decide

end Phi.Dispatcher
