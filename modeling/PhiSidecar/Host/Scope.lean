import PhiSidecar.Host.Routing
import PhiSidecar.Wire.Strictness

/-!
# Which requests reach the factory

The routing key is an external id, and the empty one names the factory. `handleRequestFrame` also
gets the empty key from an id that it cannot decode or does not see. What a request carries is read off
the grammar (`HasMember`); what `handleRequestFrame` sees of it (`readIds`) has gone through
`parseObjectMembers`.

* `scope_kept_iff`: **a request is kept from the factory unless it names the factory, exactly if an id
  that is read names an instance, or the payload is a JSON object that splits into members and none of
  its ids is unreadable or overlooked**.
-/

set_option autoImplicit false

namespace Phi.Host

open Phi.V1 Phi.Wire Phi.Dispatcher
open Rfc8259 (Ws Meaning objText)

/-! ## Requests -/

/-- The members of a frame that is dispatched, and its command. -/
def dispatched (header : FrameHeader) (payload : Bytes) : Option (MemberMap × IpcCommand) :=
  match parseObjectMembers payload with
  | .error _ => none
  | .ok root =>
    match parseIpcCommandToken (member root (lit "command")) with
    | none => none
    | some command =>
      if messageType header = .Request ∧ matchesMessageType (messageType header) command then
        some (root, command)
      else none

/-- The value of a member that is there. -/
def present (map : MemberMap) (key : String) : List Bytes := (map.entries.lookup (lit key)).toList

/-- The members of each object among some values. -/
def objects (tokens : List Bytes) : List MemberMap := tokens.filterMap (parseObjectMembers · |>.toOption)

/-- The commands that the factory takes. -/
def FactoryCommand (command : IpcCommand) : Prop :=
  command = .CmdAdapterActionInvoke ∨ command = .SyncAdapterConfigChanged ∨
    command = .SyncAdapterBootstrap

/-- The text begins with an object that has a member with this name and value, among any others. -/
def HasMember (text : Bytes) (key : String) (value : Bytes) : Prop :=
  ∃ pad ms rest, Ws pad ∧ Members ms ∧ trim text = objText pad ms ++ rest ∧
    ∃ m ∈ ms, Meaning m.key (lit key) ∧ m.val = value

/-- An external id in a payload: its own or, for the `Sync` commands, its adapter's. -/
def PayloadId (command : IpcCommand) (token externalId : Bytes) : Prop :=
  HasMember token "externalId" externalId ∨
    command ≠ .CmdAdapterActionInvoke ∧ ∃ adapter, HasMember token "adapter" adapter ∧
      HasMember adapter "externalId" externalId

/-- An external id that a request carries. -/
def RequestId (payload : Bytes) (command : IpcCommand) (externalId : Bytes) : Prop :=
  ∃ token, HasMember payload "payload" token ∧ PayloadId command token externalId

/-- The payload, if there is one, is a JSON object that splits into members. -/
def PayloadReads (payload : Bytes) : Prop :=
  ∀ token, HasMember payload "payload" token → IsObject token ∧ ∃ map, parseObjectMembers token = .ok map

/-- The request says that it is for the factory. -/
structure NamesFactory (payload : Bytes) (command : IpcCommand) : Prop where
  object : PayloadReads payload
  ids : ∀ token, RequestId payload command token → decodeJsonString token = .ok []

/-- The external ids that are read in a payload. -/
def payloadIds (command : IpcCommand) (map : MemberMap) : List Bytes :=
  let adapters := if command = .CmdAdapterActionInvoke then [] else objects (present map "adapter")
  adapters.flatMap (present · "externalId") ++ present map "externalId"

/-- The external ids that are read in a request, as tokens: of members with one name the last, and none
of an object that does not split into members. -/
def readIds (root : MemberMap) (command : IpcCommand) : List Bytes :=
  (objects (present root "payload")).flatMap (payloadIds command)

/-- The factory hook that a frame leads to: the factory caches the request and runs the hook. -/
def factoryEffect (parseDouble : Bytes → Option Double) (pluginType : Utf8String) (header : FrameHeader)
    (payload : Bytes) (now : Int64) : Option FactoryHook :=
  match (onFrame parseDouble {} header payload now).call with
  | none => none
  | some call =>
    match route pluginType now call with
    | .factory hook _ => some hook
    | _ => none

/-- The factory executes the frame only if it is a request that says so. -/
def ScopeKept (parseDouble : Bytes → Option Double) (pluginType : Utf8String) (header : FrameHeader)
    (payload : Bytes) (now : Int64) : Prop :=
  (factoryEffect parseDouble pluginType header payload now).isSome →
    ∃ root command, dispatched header payload = some (root, command) ∧ NamesFactory payload command

/-- An external id that is read names an instance. -/
def NamesInstance (root : MemberMap) (command : IpcCommand) : Prop :=
  ∃ token ∈ readIds root command, ∃ externalId ≠ [], decodeJsonString token = .ok externalId

/-- The payload splits into members, and each external id in it decodes, to the empty one unless it is
read. -/
structure AllRead (payload : Bytes) (root : MemberMap) (command : IpcCommand) : Prop where
  object : PayloadReads payload
  ids : ∀ token, RequestId payload command token → ∃ externalId, decodeJsonString token = .ok externalId ∧
    (externalId = [] ∨ token ∈ readIds root command)

/-- The request can be read far enough to tell where it goes. -/
def ScopeReads (payload : Bytes) (root : MemberMap) (command : IpcCommand) : Prop :=
  NamesInstance root command ∨ AllRead payload root command

/-! ## What is read is carried -/

theorem hasMember_of_present {text token : Bytes} {map : MemberMap} {key : String}
    (h : parseObjectMembers text = .ok map) (ht : token ∈ present map key) : HasMember text key token := by
  obtain ⟨pad, kms, j, hp, hmeaning, rfl, hms, rest, hat, -⟩ := parseObjectMembers_span h
  rw [present, Option.mem_toList] at ht
  obtain ⟨l₁, l₂, hentries, -⟩ := List.lookup_eq_some_iff.1 ht
  have hmem : (lit key, token) ∈ (insertAll {} kms).entries :=
    hentries ▸ List.mem_append_right l₁ (.head l₂)
  obtain hnone | ⟨p, hpm, hpair⟩ := mem_insertAll hmem
  · cases hnone
  · obtain ⟨hkey, rfl⟩ := Prod.mk.inj hpair
    have hname : Meaning p.2.key (lit key) := hkey ▸ hmeaning p hpm
    exact ⟨pad, _, rest, hp, hms, hat.2, p.2, List.mem_map_of_mem hpm, hname, rfl⟩

theorem mem_objects {tokens : List Bytes} {map : MemberMap} (h : map ∈ objects tokens) :
    ∃ token ∈ tokens, parseObjectMembers token = .ok map := by
  obtain ⟨token, ht, hmap⟩ := List.mem_filterMap.1 h
  cases hp : parseObjectMembers token with
  | error e => simp [hp, Except.toOption] at hmap
  | ok map' =>
    obtain rfl : map' = map := by simpa [hp, Except.toOption] using hmap
    exact ⟨token, ht, hp⟩

/-- An id that is read in a payload is in it. -/
theorem payloadIds_carried {command : IpcCommand} {text token : Bytes} {map : MemberMap}
    (h : parseObjectMembers text = .ok map) (ht : token ∈ payloadIds command map) :
    PayloadId command text token := by
  rcases List.mem_append.1 ht with ht | ht
  · obtain ⟨members, hm, ht⟩ := List.mem_flatMap.1 ht
    split_ifs at hm with hc
    · cases hm
    · obtain ⟨adapter, ha, hp⟩ := mem_objects hm
      exact .inr ⟨hc, adapter, hasMember_of_present h ha, hasMember_of_present hp ht⟩
  · exact .inl (hasMember_of_present h ht)

theorem readIds_carried {header : FrameHeader} {payload token : Bytes} {root : MemberMap}
    {command : IpcCommand} (hd : dispatched header payload = some (root, command))
    (ht : token ∈ readIds root command) : RequestId payload command token := by
  have hroot : parseObjectMembers payload = .ok root := by
    unfold dispatched at hd
    split at hd
    · cases hd
    · split at hd
      · cases hd
      · next hp _ _ _ =>
        obtain ⟨-, hd⟩ := Option.ite_none_right_eq_some.1 hd
        cases hd
        exact hp
  obtain ⟨map, hm, ht⟩ := List.mem_flatMap.1 ht
  obtain ⟨text, hp, hmap⟩ := mem_objects hm
  exact ⟨text, hasMember_of_present hroot hp, payloadIds_carried hmap ht⟩

/-! ## What the decoder makes of it -/

theorem decodeStringOrDefault_eq_nil {token : Bytes} :
    decodeStringOrDefault token = [] ↔
      ∀ externalId, decodeJsonString token = .ok externalId → externalId = [] := by
  unfold decodeStringOrDefault
  split_ifs with h
  · subst h
    exact ⟨fun _ _ => nofun, fun _ => rfl⟩
  · cases decodeJsonString token with
    | error e => exact ⟨fun _ _ => nofun, fun _ => rfl⟩
    | ok text => simp

theorem memberText_eq_nil {map : MemberMap} {key : String} :
    memberText map key = [] ↔ ∀ token ∈ present map key, decodeStringOrDefault token = [] := by
  rw [memberText, member, MemberMap.value, present]
  cases map.entries.lookup (lit key) with
  | none => exact ⟨fun _ token htoken => (List.not_mem_nil htoken).elim, fun _ => rfl⟩
  | some token => simp

/-- An absent object has no members. -/
theorem objects_present (map : MemberMap) (key : String) :
    objects (present map key) = (parseObjectMembers (member map (lit key))).toOption.toList := by
  rw [member, MemberMap.value, present]
  cases map.entries.lookup (lit key) with
  | none => rfl
  | some token =>
    cases h : parseObjectMembers token with
    | error e => simp [objects, h, Except.toOption]
    | ok members => simp [objects, h, Except.toOption]

/-- The adapter's own id comes first. -/
theorem requestAdapter_externalId (map : MemberMap) :
    (requestAdapter map).externalId = [] ↔
      (∀ m ∈ objects (present map "adapter"), memberText m "externalId" = []) ∧
        memberText map "externalId" = [] := by
  have hid : ∀ adapter : Adapter,
      (if adapter.externalId = [] then { adapter with externalId := memberText map "externalId" }
        else adapter).externalId = [] ↔
        adapter.externalId = [] ∧ memberText map "externalId" = [] := by
    intro adapter
    split_ifs with h <;> simp [h]
  have hplugin : ∀ adapter : Adapter,
      (if adapter.pluginType = [] then { adapter with pluginType := memberText map "pluginType" }
        else adapter).externalId = adapter.externalId := by
    intro adapter
    split_ifs <;> rfl
  rw [objects_present, requestAdapter, hid, hplugin]
  cases parseObjectMembers (member map (lit "adapter")) with
  | error e => simp [Except.toOption]
  | ok members => simp [Except.toOption, parseAdapterFromMap]

/-- The routing key of a `Sync` request is empty. -/
theorem sync_key {command : IpcCommand} (h : command ≠ .CmdAdapterActionInvoke) (map : MemberMap) :
    (requestAdapter map).externalId = [] ↔
      ∀ token ∈ payloadIds command map, decodeStringOrDefault token = [] := by
  rw [requestAdapter_externalId, payloadIds, if_neg h]
  simp only [memberText_eq_nil, List.forall_mem_append, List.mem_flatMap, forall_exists_index, and_imp]
  exact and_congr_left fun _ => ⟨fun h t m hm ht => h m hm t ht, fun h m hm t ht => h t m hm ht⟩

/-- The routing key of a factory action is empty. -/
theorem action_key (map : MemberMap) :
    memberText map "externalId" = [] ↔
      ∀ token ∈ payloadIds .CmdAdapterActionInvoke map, decodeStringOrDefault token = [] := by
  rw [memberText_eq_nil, payloadIds, if_pos rfl]
  rfl

theorem parseObjectMembers_empty : parseObjectMembers (lit "\x7b\x7d") = .ok {} := by decide

/-- In a payload that is not there or does not split no ids are read. -/
theorem readIds_eq (root : MemberMap) (command : IpcCommand) :
    readIds root command = payloadIds command (requestPayloadMap root) := by
  have hnone : payloadIds command {} = [] := by
    unfold payloadIds
    split <;> rfl
  rw [readIds, objects_present, requestPayloadMap, requestPayloadToken]
  by_cases habs : member root (lit "payload") = []
  · rw [if_pos habs, habs, parseObjectMembers_empty]
    exact hnone.symm
  · rw [if_neg habs]
    cases parseObjectMembers (member root (lit "payload")) with
    | error e => exact hnone.symm
    | ok map => exact List.append_nil _

/-! ## The effect -/

section
variable {parseDouble : Bytes → Option Double} {pluginType : Utf8String} {header : FrameHeader}
  {payload : Bytes} {now : Int64}

/-- `handleRequestFrame` dispatches what is `dispatched`, and reports the rest as protocol errors. -/
theorem onFrame_cases :
    (∃ root command, dispatched header payload = some (root, command) ∧
      onFrame parseDouble {} header payload now =
        dispatchCommand parseDouble {} header command (requestCmdId header root)
          (requestPayloadToken root) (requestPayloadMap root) now) ∨
    dispatched header payload = none ∧
      ((onFrame parseDouble {} header payload now).call = none ∨
        ∃ message, (onFrame parseDouble {} header payload now).call = some (.onProtocolError message)) := by
  unfold onFrame dispatched handleRequestFrame
  by_cases ht : messageType header = .Request
  · rw [if_neg (not_not.2 ht)]
    cases parseObjectMembers payload with
    | error e => exact .inr ⟨rfl, .inr ⟨_, rfl⟩⟩
    | ok root =>
      simp only
      cases parseIpcCommandToken (member root (lit "command")) with
      | none => exact .inr ⟨rfl, .inr ⟨_, rfl⟩⟩
      | some command =>
        simp only
        by_cases hm : matchesMessageType (messageType header) command = true
        · rw [if_pos ⟨ht, hm⟩, if_pos hm]
          exact .inl ⟨root, command, rfl, rfl⟩
        · rw [if_neg fun h => hm h.2, if_neg hm]
          exact .inr ⟨rfl, .inr ⟨_, rfl⟩⟩
  · rw [if_pos ht]
    refine .inr ⟨?_, .inl rfl⟩
    cases parseObjectMembers payload with
    | error e => rfl
    | ok root =>
      simp only
      cases parseIpcCommandToken (member root (lit "command")) with
      | none => rfl
      | some command => exact if_neg fun h => ht h.1

/-- A handler call with an empty routing key, of a command that the factory takes. -/
def FactoryCall : HandlerCall → Prop
  | .onAdapterActionInvoke request => request.externalId = []
  | .onConfigChanged request => request.adapter.externalId = []
  | .onBootstrap request => request.adapter.externalId = []
  | _ => False

theorem instanceCommand_factory {externalId : ExternalId} {call : HandlerCall}
    {required failed : String} {cmdId : CmdId} {hook : FactoryHook} {error : Utf8String → Refusal} :
    instanceCommand externalId call required failed cmdId now ≠ .factory hook error := by
  unfold instanceCommand
  split <;> nofun

theorem factoryEffect_isSome :
    (factoryEffect parseDouble pluginType header payload now).isSome ↔
      ∃ call, (onFrame parseDouble {} header payload now).call = some call ∧ FactoryCall call := by
  unfold factoryEffect
  cases (onFrame parseDouble {} header payload now).call with
  | none => simp
  | some call =>
    simp only [Option.some.injEq, exists_eq_left']
    cases call with
    | onBootstrap request =>
      by_cases h : request.adapter.externalId = [] <;> simp [route, onBootstrap, FactoryCall, report, h]
    | onConfigChanged request =>
      by_cases h : request.adapter.externalId = [] <;>
        simp [route, onConfigChanged, FactoryCall, normalizeAdapter_externalId, h]
    | onAdapterActionInvoke request =>
      by_cases h : request.externalId = [] <;> simp [route, onAdapterActionInvoke, FactoryCall, h]
    | onProtocolError message => simp [route, report, FactoryCall]
    | onInstanceRemoved request =>
      by_cases h : request.externalId = [] <;> simp [route, onInstanceRemoved, report, FactoryCall, h]
    | onUnknownRequest request =>
      by_cases h : request.externalId = [] <;> simp [route, onUnknownRequest, report, FactoryCall, h]
    | _ =>
      split
      · next h => exact absurd h instanceCommand_factory
      · simp [FactoryCall]

theorem dispatchCommand_factory {command : IpcCommand} {cmdId : CmdId} {payloadToken : Bytes}
    {map : MemberMap} :
    (∃ call, (dispatchCommand parseDouble {} header command cmdId payloadToken map now).call = some call ∧
        FactoryCall call) ↔
      FactoryCommand command ∧ ∀ token ∈ payloadIds command map, decodeStringOrDefault token = [] := by
  unfold dispatchCommand
  by_cases h1 : command = .SyncAdapterBootstrap
  · subst h1
    rw [if_pos rfl, ← sync_key (by decide) map]
    simp [sync, SidecarHandlers.on, FactoryCall, FactoryCommand, bootstrapRequest]
  rw [if_neg h1]
  by_cases h2 : command = .SyncAdapterConfigChanged
  · subst h2
    rw [if_pos rfl, ← sync_key (by decide) map]
    simp [sync, SidecarHandlers.on, FactoryCall, FactoryCommand, configChangedRequest]
  rw [if_neg h2]
  by_cases h3 : command = .CmdAdapterActionInvoke
  · subst h3
    rw [if_neg (by decide), if_neg (by decide), if_pos rfl, ← action_key map]
    simp [typed, SidecarHandlers.on, FactoryCall, FactoryCommand, adapterActionInvokeRequest]
  have hcmd : ¬FactoryCommand command := by simp [FactoryCommand, h1, h2, h3]
  refine iff_of_false ?_ fun h => hcmd h.1
  rw [if_neg h3]
  split_ifs <;> simp [sync, typed, unknown, SidecarHandlers.on, FactoryCall]

/-- A frame reaches the factory exactly if its command does and none of its ids reads as one. -/
theorem factoryEffect_iff :
    (factoryEffect parseDouble pluginType header payload now).isSome ↔
      ∃ root command, dispatched header payload = some (root, command) ∧ FactoryCommand command ∧
        ∀ token ∈ readIds root command, decodeStringOrDefault token = [] := by
  rw [factoryEffect_isSome]
  rcases @onFrame_cases parseDouble header payload now with ⟨root, command, hd, h⟩ | ⟨hd, h | ⟨message, h⟩⟩
  · rw [h, dispatchCommand_factory, ← readIds_eq]
    refine ⟨fun hf => ⟨root, command, hd, hf⟩, fun ⟨root', command', hd', hf⟩ => ?_⟩
    cases hd.symm.trans hd'
    exact hf
  · simp [h, hd]
  · simp [h, hd, FactoryCall]

/-- No id that is read names an instance. -/
theorem not_namesInstance {root : MemberMap} {command : IpcCommand} :
    ¬NamesInstance root command ↔ ∀ token ∈ readIds root command, decodeStringOrDefault token = [] := by
  simp only [NamesInstance, decodeStringOrDefault_eq_nil]
  push Not
  exact forall₂_congr fun token _ => forall_congr' fun externalId =>
    ⟨fun h hd => by_contra fun hne => h hne hd, fun h hne hd => hne (h hd)⟩

/-- A request that names no instance names the factory, exactly if all of it is read. -/
theorem namesFactory_iff {root : MemberMap} {command : IpcCommand} (h : ¬NamesInstance root command) :
    NamesFactory payload command ↔ AllRead payload root command := by
  constructor
  · intro hf
    exact ⟨hf.object, fun token ht => ⟨[], hf.ids token ht, .inl rfl⟩⟩
  · intro hr
    refine ⟨hr.object, fun token ht => ?_⟩
    obtain ⟨externalId, hd, rfl | hread⟩ := hr.ids token ht
    · exact hd
    · have hnil : externalId = [] := by_contra fun hne => h ⟨token, hread, externalId, hne, hd⟩
      rw [hd, hnil]

/-- **The factory executes only what is addressed to it, exactly if the request reads**: an external id
that is read names an instance, or the payload is a JSON object that splits into members (or absent) and
every external id that the request carries is a string, and not an overlooked name of an instance. -/
theorem scope_kept_iff :
    ScopeKept parseDouble pluginType header payload now ↔
      ∀ root command, dispatched header payload = some (root, command) → FactoryCommand command →
        ScopeReads payload root command := by
  rw [ScopeKept, factoryEffect_iff]
  constructor
  · intro h root command hd hc
    by_cases hn : NamesInstance root command
    · exact .inl hn
    · obtain ⟨root', command', hd', hf⟩ := h ⟨root, command, hd, hc, not_namesInstance.1 hn⟩
      cases hd.symm.trans hd'
      exact .inr ((namesFactory_iff hn).1 hf)
  · rintro h ⟨root, command, hd, hc, hids⟩
    have hn : ¬NamesInstance root command := not_namesInstance.2 hids
    obtain hinstance | hread := h root command hd hc
    · exact absurd hinstance hn
    · exact ⟨root, command, hd, (namesFactory_iff hn).2 hread⟩

end

/-- A factory action whose external id is a number is executed by the factory. -/
theorem scope_changed :
    let payload := lit "\x7b\"command\":514,\"payload\":\x7b\"externalId\":42\x7d\x7d"
    ¬ScopeKept (fun _ => none) [] { type := MessageType.Request.raw } payload 0 := by
  intro payload h
  have he : (factoryEffect (fun _ => none) [] { type := MessageType.Request.raw } payload 0).isSome =
      true := by decide +kernel
  have hids : (dispatched { type := MessageType.Request.raw } payload).map
      (fun request => readIds request.1 request.2) = some [lit "42"] := by decide +kernel
  obtain ⟨root, command, hd, hn⟩ := h he
  rw [hd, Option.map_some, Option.some.injEq] at hids
  have hcarried : RequestId payload command (lit "42") := readIds_carried hd (hids ▸ .head _)
  exact absurd (hn.ids (lit "42") hcarried) (by decide)

end Phi.Host
