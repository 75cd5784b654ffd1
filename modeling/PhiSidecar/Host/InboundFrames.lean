import PhiSidecar.Host.Results

/-!
# What becomes of an inbound frame (`sidecar.cpp`: the `onFrame` callback, `handleRequestFrame`)

A frame is classified in three places: the callback passes requests on, `handleRequestFrame` compares
the frame class with the command, and the chain of typed commands ends in a fallback. `CallFor` says
which call a frame is to get, and `ResultRule` what the function may enqueue itself.

* `onFrame_call`: **with every handler registered a request makes exactly the call that `CallFor`
  says, a mismatch of the classes being a protocol error; other frames are ignored**.
* `resultRule_iff`: **`handleRequestFrame` keeps to `ResultRule` unless a `Sync` command that is not
  defined arrives with an id**: the fallback takes it for a command and answers it.
-/

set_option autoImplicit false

namespace Phi.Dispatcher

open Phi.V1 Phi.Wire

/-! ## Classification -/

/-- The commands that have a handler of their own. -/
def typedCommands : List IpcCommand :=
  [.SyncAdapterBootstrap, .SyncAdapterConfigChanged, .SyncAdapterInstanceRemoved, .CmdChannelInvoke,
    .CmdAdapterActionInvoke, .CmdDeviceNameUpdate, .CmdDeviceEffectInvoke, .CmdSceneInvoke,
    .CmdAdaptersStreamStart, .CmdAdaptersStreamStop]

/-- The command of a payload, if it is an object with a valid one. -/
def frameCommand (payload : Bytes) : Option IpcCommand :=
  match parseObjectMembers payload with
  | .error _ => none
  | .ok root => parseIpcCommandToken (member root (lit "command"))

theorem frameCommand_eq {payload : Bytes} {root : MemberMap} {command : IpcCommand}
    (hroot : parseObjectMembers payload = .ok root)
    (hcommand : parseIpcCommandToken (member root (lit "command")) = some command) :
    frameCommand payload = some command := by
  rw [frameCommand, hroot]
  exact hcommand

/-- The call that a frame is to get. -/
inductive CallFor (header : FrameHeader) (payload : Bytes) : HandlerCall → Prop
  | protocolError {message} :
      (∀ command, frameCommand payload = some command →
        matchesMessageType (messageType header) command = false) →
      CallFor header payload (.onProtocolError message)
  | typed {call command} : frameCommand payload = some command →
      matchesMessageType (messageType header) command = true → call.command = some command →
      CallFor header payload call
  | unknown {request command} : frameCommand payload = some command →
      matchesMessageType (messageType header) command = true → command ∉ typedCommands →
      request.command = command.toUint16 → CallFor header payload (.onUnknownRequest request)

/-- What the chain of commands does with one. -/
inductive Dispatched (handlers : SidecarHandlers) (command : IpcCommand) (cmdId : CmdId) (now : Int64) :
    Handled → Prop
  | sync {call} : call.command = some command → command ∈ typedCommands →
      Dispatched handlers command cmdId now (sync handlers call)
  | typed {call reply} : call.command = some command → command ∈ typedCommands →
      command.isSyncCommand = false → Dispatched handlers command cmdId now (typed handlers call reply)
  | unknown {request} : command ∉ typedCommands → request.cmdId = cmdId →
      request.command = command.toUint16 →
      Dispatched handlers command cmdId now (unknown handlers request command now)

theorem dispatchCommand_cases (parseDouble : Bytes → Option Double) (handlers : SidecarHandlers)
    (header : FrameHeader) (command : IpcCommand) (cmdId : CmdId) (payloadToken : Bytes)
    (payloadMap : MemberMap) (now : Int64) :
    Dispatched handlers command cmdId now
      (dispatchCommand parseDouble handlers header command cmdId payloadToken payloadMap now) := by
  have hnext {c : IpcCommand} {a b : Handled} :=
    @iteInduction Handled (command = c) inferInstance (Dispatched handlers command cmdId now) a b
  unfold dispatchCommand
  dsimp only
  refine hnext (fun h => ?_) fun h1 => hnext (fun h => ?_) fun h2 => hnext (fun h => ?_) fun h3 => ?_
  iterate 3
    · subst h
      exact .sync rfl (by decide)
  refine hnext (fun h => ?_) fun h4 => hnext (fun h => ?_) fun h5 => hnext (fun h => ?_) fun h6 =>
    hnext (fun h => ?_) fun h7 => hnext (fun h => ?_) fun h8 => hnext (fun h => ?_) fun h9 =>
    hnext (fun h => ?_) fun h10 => ?_
  iterate 7
    · subst h
      exact .typed rfl (by decide) (by decide)
  refine .unknown ?_ rfl rfl
  simp only [typedCommands, List.mem_cons, List.not_mem_nil, or_false]
  simp only [h1, h2, h3, h4, h5, h6, h7, h8, h9, h10, or_self, not_false_eq_true]

section
variable {parseDouble : Bytes → Option Double} {handlers : SidecarHandlers} {header : FrameHeader}
  {payload : Bytes} {now : Int64}

/-- A frame is refused, or its command goes through the chain. -/
theorem handleRequestFrame_cases :
    ((∀ command, frameCommand payload = some command →
        matchesMessageType (messageType header) command = false) ∧
      ∃ message, handleRequestFrame parseDouble handlers header payload now =
        protocolError handlers message) ∨
    ∃ root command, parseObjectMembers payload = .ok root ∧ frameCommand payload = some command ∧
      matchesMessageType (messageType header) command = true ∧
      Dispatched handlers command (requestCmdId header root) now
        (handleRequestFrame parseDouble handlers header payload now) := by
  unfold handleRequestFrame frameCommand
  cases parseObjectMembers payload with
  | error parseError => exact .inl ⟨nofun, _, rfl⟩
  | ok root =>
    dsimp only
    cases parseIpcCommandToken (member root (lit "command")) with
    | none => exact .inl ⟨nofun, _, rfl⟩
    | some command =>
      dsimp only
      split
      · next hmatch =>
        exact .inr ⟨root, command, rfl, rfl, hmatch, dispatchCommand_cases _ _ _ _ _ _ _ _⟩
      · next hmatch =>
        refine .inl ⟨?_, _, rfl⟩
        intro c hc
        obtain rfl := Option.some.inj hc
        exact Bool.eq_false_iff.2 hmatch

end

/-- **Every inbound request makes one call.** Of a frame of another class whose command belongs to a
third one nothing is said: the protocol wants it rejected, and the callback drops it. -/
theorem onFrame_call (parseDouble : Bytes → Option Double) (header : FrameHeader) (payload : Bytes)
    (now : Int64) :
    (messageType header = .Request →
      ∃ call, (onFrame parseDouble {} header payload now).call = some call ∧
        CallFor header payload call ∧
        ∀ command, frameCommand payload = some command →
          matchesMessageType (messageType header) command = false →
          ∃ message, call = .onProtocolError message) ∧
    (messageType header ≠ .Request →
      (∀ command, frameCommand payload = some command →
        matchesMessageType (messageType header) command = true) →
      onFrame parseDouble {} header payload now = {}) := by
  refine ⟨fun hrequest => ?_, fun hother _ => if_pos hother⟩
  rw [onFrame, if_neg (not_not.2 hrequest)]
  have hon (call : HandlerCall) : SidecarHandlers.on {} call = true := by
    cases call <;> rfl
  obtain ⟨hmis, message, heq⟩ | ⟨root, command, -, hcommand, hmatch, hdispatched⟩ :=
    @handleRequestFrame_cases parseDouble {} header payload now
  · rw [heq]
    exact ⟨_, rfl, .protocolError hmis, fun _ _ _ => ⟨message, rfl⟩⟩
  · have hno : ∀ c, frameCommand payload = some c →
        matchesMessageType (messageType header) c = false → False := by
      intro c hc hmis
      obtain rfl := Option.some.inj (hcommand.symm.trans hc)
      rw [hmatch] at hmis
      cases hmis
    generalize handleRequestFrame parseDouble {} header payload now = handled at hdispatched ⊢
    cases hdispatched with
    | @sync call hcall _ =>
      refine ⟨call, ?_, .typed hcommand hmatch hcall, fun c hc hmis => (hno c hc hmis).elim⟩
      rw [sync, if_pos (hon call)]
    | @typed call reply hcall _ _ =>
      refine ⟨call, ?_, .typed hcommand hmatch hcall, fun c hc hmis => (hno c hc hmis).elim⟩
      rw [typed, if_pos (hon call)]
    | unknown hnot _ hraw =>
      exact ⟨_, rfl, .unknown hcommand hmatch hnot hraw, fun c hc hmis => (hno c hc hmis).elim⟩

/-- A command in a request of its own class. -/
theorem onFrame_call_sceneInvoke :
    let header : FrameHeader := { type := MessageType.Request.raw, payloadSize := 15 }
    let payload := lit "\x7b\"command\":517\x7d"
    ∃ call, (onFrame (fun _ => none) {} header payload 0).call = some call ∧
      CallFor header payload call ∧
      ∀ command, frameCommand payload = some command →
        matchesMessageType (messageType header) command = false →
        ∃ message, call = .onProtocolError message :=
  (onFrame_call (fun _ => none) _ _ 0).1 rfl

/-- An event makes no call, whether its payload has the command of an event (`EventLog`) or that of a
request. -/
theorem onFrame_event_silent :
    (¬∀ (header : FrameHeader) (payload : Bytes),
      isValidFrameHeader header = true → header.payloadSize.toNat = payload.length →
      ∃ call, (onFrame (fun _ => none) {} header payload 0).call = some call) ∧
    ¬∀ (header : FrameHeader) (payload : Bytes) (command : IpcCommand),
      isValidFrameHeader header = true → header.payloadSize.toNat = payload.length →
      frameCommand payload = some command → matchesMessageType (messageType header) command = false →
      ∃ message, (onFrame (fun _ => none) {} header payload 0).call = some (.onProtocolError message) := by
  constructor
  · intro h
    obtain ⟨call, hcall⟩ := h { type := MessageType.Event.raw, payloadSize := 16 }
      (lit "\x7b\"command\":4101\x7d") (by decide) (by decide)
    cases hcall
  · intro h
    obtain ⟨message, hcall⟩ := h { type := MessageType.Event.raw, payloadSize := 15 }
      (lit "\x7b\"command\":257\x7d") ⟨257⟩ (by decide) (by decide) (by decide +kernel) (by decide)
    cases hcall

/-! ## The size of a default response -/

theorem length_jsonQuoted_le (text : Bytes) : (jsonQuoted text).length ≤ 6 * text.length + 2 := by
  have hchar (ch : UInt8) : (quotedChar ch).length ≤ 6 := by
    unfold quotedChar
    split_ifs <;> simp
  have hflat : (text.flatMap quotedChar).length ≤ 6 * text.length := by
    induction text with
    | nil => simp
    | cons ch text ih =>
      have := hchar ch
      rw [List.flatMap_cons, List.length_append, List.length_cons]
      omega
  rw [jsonQuoted, List.length_cons, List.length_append, List.length_singleton]
  omega

theorem length_field_le {o : Out} {value : Bytes} {n k v : Nat} (key : String) (ho : o.out.length ≤ n)
    (hk : (jsonQuoted (lit key)).length ≤ k) (hv : value.length ≤ v) :
    (o.field key value).out.length ≤ n + k + v + 2 := by
  have hcomma : (if o.first then ([] : Bytes) else [0x2C]).length ≤ 1 := by
    split <;> simp
  simp only [Out.field, appendFieldPrefix, List.length_append, List.length_singleton]
  omega

theorem length_toStringU_le (n : UInt64) : (toStringU n.toNat).length ≤ 20 :=
  Decimal.natText_length (by decide) (Nat.lt_trans n.toNat_lt (by decide))

theorem length_toStringI_le (n : Int64) : (toStringI n.toInt).length ≤ 20 := by
  have h1 := Int64.le_toInt n
  have h2 := Int64.toInt_lt n
  exact Decimal.intText_length (by decide) (by omega)

/-- The answer to an unknown command fits into a frame, whatever the id. -/
theorem length_unhandledResponse_le (cmdId : CmdId) (command : IpcCommand) (now now' : Int64) :
    (cmdResultJson (defaultCmdResponse cmdId (unhandledCommand command) now) now').length ≤
      kMaxPayloadSize.toNat := by
  have hraw : (toStringU command.toUint16.toNat).length ≤ 5 :=
    Decimal.natText_length (by decide) (Nat.lt_trans command.toUint16.toNat_lt (by decide))
  have herror : (unhandledCommand command).length ≤ 28 := by
    rw [unhandledCommand, List.length_append]
    exact Nat.add_le_add (Nat.le_refl 23) hraw
  have hquoted : (jsonQuoted (unhandledCommand command)).length ≤ 170 := by
    have := length_jsonQuoted_le (unhandledCommand command)
    omega
  have hopen : (openEnvelopeWithCmdId .ResultCmd cmdId).out.length ≤ 56 := by
    have hid := length_toStringU_le cmdId
    have h1 : (lit "\x7b\"command\":" ++ toStringU IpcCommand.ResultCmd.toUint16.toNat).length = 15 := by
      decide
    have h2 : (lit ",\"cmdId\":").length = 9 := rfl
    have h3 : (lit ",\"payload\":\x7b").length = 12 := rfl
    rw [openEnvelopeWithCmdId, List.length_append, List.length_append, List.length_append, h1, h2, h3]
    omega
  have hstatus := length_field_le "status" hopen (Nat.le_refl _)
    (Nat.le_refl (toStringI (CmdStatus.NotImplemented.raw.toNat : Int)).length)
  have herror := length_field_le "error" hstatus (Nat.le_refl _) hquoted
  have hcontext := length_field_le "errorCtx" herror (Nat.le_refl _)
    (Nat.le_refl (jsonQuoted []).length)
  have hparams := length_field_le "errorParams" hcontext (Nat.le_refl _)
    (Nat.le_refl (scalarListJson []).length)
  have hfinal := length_field_le "finalValue" hparams (Nat.le_refl _)
    (Nat.le_refl (scalarJson .null).length)
  have hts := length_field_le "tsMs" hfinal (Nat.le_refl _) (length_toStringI_le (tsOrNow now now'))
  refine Nat.le_trans (Nat.le_of_eq (List.length_append ..)) ?_
  refine Nat.le_trans (Nat.add_le_add_right hts _) ?_
  decide

/-! ## What the function itself enqueues -/

/-- A frame of `sendCmdResult` or `sendActionResult`. -/
def IsResult {τ : Type} (f : OutboundFrame τ) : Prop :=
  ∃ (result : CommandResult) (origin : τ) (now : Int64), f = result.frame origin now

theorem isResult_cmd {τ : Type} (origin : τ) (response : CmdResponse) (now : Int64) :
    IsResult (sendCmdResult origin response now) := ⟨.cmd response, origin, now, rfl⟩

namespace SidecarDispatcher

variable {τ : Type}

/-- The end of `handleRequestFrame`, after the call of the handler. -/
def sendReply (s : SidecarDispatcher τ) (handled : Handled) (origin : τ) (now : Int64) (clock : Clock) :
    SidecarDispatcher τ × Bool :=
  match handled.reply with
  | none => (s, handled.result)
  | some reply =>
    match s.queueOutboundFrame (reply.frame origin now) clock with
    | (s, .ok ()) => (s, true)
    | (s, .error _) => (s, false)

/-- What the function may enqueue for a request: nothing that answers a `Sync` command, and one result
that is no success for a command that has no handler of its own. -/
structure ResultRule (s t : SidecarDispatcher τ) (command : IpcCommand) (cmdId : CmdId)
    (own : List (OutboundFrame τ)) : Prop where
  accepted : t.history.accepted = s.history.accepted ++ own
  sync : command.isSyncCommand = true → ∀ f ∈ own, ¬IsResult f
  cmd : command.isCmdCommand = true → command ∉ typedCommands → cmdId ≠ 0 → s.started = true →
    ∃ response origin now, own = [sendCmdResult origin response now] ∧ response.id = cmdId ∧
      response.status ≠ .Success

variable {s : SidecarDispatcher τ} {origin : τ} {now : Int64} {clock : Clock}

theorem sendReply_none {handled : Handled} (h : handled.reply = none) :
    (s.sendReply handled origin now clock).1 = s := by
  rw [sendReply, h]

theorem sendReply_some {handled : Handled} {reply : CommandResult} (h : handled.reply = some reply) :
    (s.sendReply handled origin now clock).1 = (s.queueOutboundFrame (reply.frame origin now) clock).1 := by
  rw [sendReply, h]
  dsimp only
  split <;> next heq => rw [heq]

theorem cmdResult_payload (origin : τ) (response : CmdResponse) (now : Int64) :
    ((CommandResult.cmd response).frame origin now).payload = cmdResultJson response now := rfl

theorem queueOutboundFrame_stopped (frame : OutboundFrame τ) (hs : s.started = false) :
    (s.queueOutboundFrame frame clock).1.history.accepted = s.history.accepted := by
  obtain ⟨hok, -⟩ | ⟨-, heq⟩ := s.queueOutboundFrame_accepted frame clock
  · have hc : s.checkOutbound frame clock.check = some
        (s.reportSendFailure frame (lit "dispatcher not started") clock.check,
          lit "dispatcher not started") := by
      simp [checkOutbound, hs]
    rw [queueOutboundFrame, hc] at hok
    cases hok
  · exact heq

/-- The fallback answers if there is an id and the dispatcher is started. -/
theorem sendReply_unknown (s : SidecarDispatcher τ) (handlers : SidecarHandlers) (request : UnknownRequest)
    (command : IpcCommand) (origin : τ) (now now' : Int64) (clock : Clock) :
    (s.sendReply (unknown handlers request command now') origin now clock).1.history.accepted =
      s.history.accepted ++
        if request.cmdId ≠ 0 ∧ s.started = true then
          [sendCmdResult origin (defaultCmdResponse request.cmdId (unhandledCommand command) now') now]
        else [] := by
  by_cases hid : request.cmdId = 0
  · have hnone : (unknown handlers request command now').reply = none := if_neg (not_not.2 hid)
    rw [sendReply_none hnone, if_neg (fun h => h.1 hid), List.append_nil]
  · have hsome : (unknown handlers request command now').reply =
        some (.cmd (defaultCmdResponse request.cmdId (unhandledCommand command) now')) := if_pos hid
    rw [sendReply_some hsome]
    by_cases hs : s.started = true
    · obtain ⟨hpayload, htype, -⟩ := Host.frame_response
        (.cmd (defaultCmdResponse request.cmdId (unhandledCommand command) now')) origin now
      have hfit := length_unhandledResponse_le request.cmdId command now' now
      rw [← cmdResult_payload origin] at hfit
      rw [queueOutboundFrame_response clock hs hpayload htype, if_pos hfit,
        if_pos (And.intro hid hs)]
      rfl
    · rw [queueOutboundFrame_stopped _ (Bool.eq_false_iff.2 hs), if_neg (fun h => hs h.2),
        List.append_nil]

/-- So a `Sync` command with an id is answered, if it gets there. -/
theorem not_resultRule {handlers : SidecarHandlers} {request : UnknownRequest} {command : IpcCommand}
    {cmdId : CmdId} {now' : Int64} (hsync : command.isSyncCommand = true) (hid : request.cmdId = cmdId)
    (hne : cmdId ≠ 0) (hstarted : s.started = true) :
    ¬∃ own, ResultRule s (s.sendReply (unknown handlers request command now') origin now clock).1 command
      cmdId own := by
  rintro ⟨own, hrule⟩
  have haccepted := s.sendReply_unknown handlers request command origin now now' clock
  rw [hid, if_pos ⟨hne, hstarted⟩] at haccepted
  have hown := List.append_cancel_left (hrule.accepted.symm.trans haccepted)
  have hnone := hrule.sync hsync
  rw [hown] at hnone
  exact hnone _ (List.mem_singleton_self _) (isResult_cmd origin _ now)

end SidecarDispatcher

/-- The commands of requests go with the frame class of requests. -/
theorem matchesMessageType_request {command : IpcCommand}
    (h : command.isSyncCommand = true ∨ command.isCmdCommand = true) :
    matchesMessageType .Request command = true := by
  have hne : command ≠ .ResponseFactoryDescriptor := by
    rintro rfl
    revert h
    decide
  have hor : (command.isSyncCommand || command.isCmdCommand) = true := by
    simpa using h
  rw [matchesMessageType, expectedMessageType, if_neg hne, if_pos hor]
  rfl

/-- A command of a request that is not defined goes to the fallback. -/
theorem handleRequestFrame_undefined (parseDouble : Bytes → Option Double) (handlers : SidecarHandlers)
    {header : FrameHeader} {payload : Bytes} {root : MemberMap} {command : IpcCommand} (now : Int64)
    (hrequest : messageType header = .Request) (hroot : parseObjectMembers payload = .ok root)
    (hcommand : parseIpcCommandToken (member root (lit "command")) = some command)
    (hclass : command.isSyncCommand = true ∨ command.isCmdCommand = true)
    (hnot : command ∉ typedCommands) :
    ∃ request, request.cmdId = requestCmdId header root ∧
      handleRequestFrame parseDouble handlers header payload now =
        unknown handlers request command now := by
  have hframe := frameCommand_eq hroot hcommand
  obtain ⟨hmis, -⟩ | ⟨root', command', hroot', hframe', -, hdispatched⟩ :=
    @handleRequestFrame_cases parseDouble handlers header payload now
  · have hmatch := matchesMessageType_request hclass
    rw [← hrequest, hmis command hframe] at hmatch
    cases hmatch
  · obtain rfl := Except.ok.inj (hroot.symm.trans hroot')
    obtain rfl := Option.some.inj (hframe.symm.trans hframe')
    generalize handleRequestFrame parseDouble handlers header payload now = handled at hdispatched ⊢
    cases hdispatched with
    | sync _ hin => exact absurd hin hnot
    | typed _ hin _ => exact absurd hin hnot
    | @unknown request _ hid _ => exact ⟨request, hid, rfl⟩

open SidecarDispatcher in
/-- **The rule holds unless the fallback answers a `Sync` command.** -/
theorem resultRule_iff {τ : Type} (parseDouble : Bytes → Option Double) (handlers : SidecarHandlers)
    (header : FrameHeader) {payload : Bytes} {root : MemberMap} {command : IpcCommand}
    (hrequest : messageType header = .Request) (hroot : parseObjectMembers payload = .ok root)
    (hcommand : parseIpcCommandToken (member root (lit "command")) = some command)
    (s : SidecarDispatcher τ) (origin : τ) (now : Int64) (clock : Clock) :
    (∃ own, ResultRule s
      (s.sendReply (handleRequestFrame parseDouble handlers header payload now) origin now clock).1
      command (requestCmdId header root) own) ↔
    ¬(command.isSyncCommand = true ∧ command ∉ typedCommands ∧ requestCmdId header root ≠ 0 ∧
      s.started = true) := by
  have hframe := frameCommand_eq hroot hcommand
  obtain ⟨hmis, message, heq⟩ | ⟨root', command', hroot', hframe', -, hdispatched⟩ :=
    @handleRequestFrame_cases parseDouble handlers header payload now
  · have hno : ¬(command.isSyncCommand = true ∨ command.isCmdCommand = true) := by
      intro h
      have hmatch := matchesMessageType_request h
      rw [← hrequest, hmis command hframe] at hmatch
      cases hmatch
    have hrule : ResultRule s s command (requestCmdId header root) [] :=
      ⟨(List.append_nil _).symm, fun h => (hno (.inl h)).elim, fun h => (hno (.inr h)).elim⟩
    rw [heq, sendReply_none rfl]
    exact ⟨fun _ h => hno (.inl h.1), fun _ => ⟨[], hrule⟩⟩
  · obtain rfl := Except.ok.inj (hroot.symm.trans hroot')
    obtain rfl := Option.some.inj (hframe.symm.trans hframe')
    generalize handleRequestFrame parseDouble handlers header payload now = handled at hdispatched ⊢
    cases hdispatched with
    | @sync call _ hin =>
      have hreply : (sync handlers call).reply = none := by
        unfold sync
        split <;> rfl
      rw [sendReply_none hreply]
      exact ⟨fun _ h => h.2.1 hin, fun _ => ⟨[], (List.append_nil _).symm,
        fun _ => List.forall_mem_nil _, fun _ h => absurd hin h⟩⟩
    | @typed call reply _ hin hsync =>
      refine ⟨fun _ h => h.2.1 hin, fun _ => ?_⟩
      have hrule (t : SidecarDispatcher τ) (own : List (OutboundFrame τ))
          (h : t.history.accepted = s.history.accepted ++ own) :
          ResultRule s t command (requestCmdId header root) own :=
        ⟨h, fun h => absurd h (Bool.eq_false_iff.1 hsync), fun _ h => absurd hin h⟩
      cases hreply : (typed handlers call reply).reply with
      | none =>
        rw [sendReply_none hreply]
        exact ⟨[], hrule _ _ (List.append_nil _).symm⟩
      | some result =>
        rw [sendReply_some hreply]
        obtain ⟨-, h⟩ | ⟨-, h⟩ := s.queueOutboundFrame_accepted (result.frame origin now) clock
        · exact ⟨_, hrule _ _ h⟩
        · exact ⟨[], hrule _ _ (h.trans (List.append_nil _).symm)⟩
    | @unknown request hnot hid _ =>
      have haccepted := s.sendReply_unknown handlers request command origin now now clock
      rw [hid] at haccepted
      constructor
      · rintro hrule ⟨hsync, -, hne, hstarted⟩
        exact not_resultRule hsync hid hne hstarted hrule
      · intro hcond
        refine ⟨_, haccepted, ?_, ?_⟩
        · intro hsync f hf
          split at hf
          · next h => exact (hcond ⟨hsync, hnot, h.1, h.2⟩).elim
          · cases hf
        · intro _ _ hne hstarted
          rw [if_pos ⟨hne, hstarted⟩]
          have hfailure : CmdStatus.NotImplemented ≠ .Success := by decide
          exact ⟨_, origin, now, rfl, rfl, hfailure⟩

/-- A request with nothing but a command, and its transport id. -/
def bareRequest : FrameHeader := { type := MessageType.Request.raw, correlationId := 7 }

/-- Two commands that are not defined, `0x020F` and `0x0110`. -/
theorem bare_root :
    (parseObjectMembers (lit "\x7b\"command\":527\x7d") = .ok ⟨[(lit "command", lit "527")]⟩ ∧
      parseIpcCommandToken (member ⟨[(lit "command", lit "527")]⟩ (lit "command")) = some ⟨527⟩) ∧
    (parseObjectMembers (lit "\x7b\"command\":272\x7d") = .ok ⟨[(lit "command", lit "272")]⟩ ∧
      parseIpcCommandToken (member ⟨[(lit "command", lit "272")]⟩ (lit "command")) = some ⟨272⟩ ∧
      requestCmdId bareRequest ⟨[(lit "command", lit "272")]⟩ ≠ 0) := by
  decide +kernel

/-- The command `0x020F` is answered once. -/
theorem resultRule_undefined : ∃ own, SidecarDispatcher.ResultRule (τ := Unit) { started := true }
    (SidecarDispatcher.sendReply { started := true } (handleRequestFrame (fun _ => none) {} bareRequest
      (lit "\x7b\"command\":527\x7d") 0) () 0 {}).1 ⟨527⟩
    (requestCmdId bareRequest ⟨[(lit "command", lit "527")]⟩) own := by
  obtain ⟨⟨hroot, hcommand⟩, -⟩ := bare_root
  have hno : ¬((⟨527⟩ : IpcCommand).isSyncCommand = true) := by decide
  exact (resultRule_iff (fun _ => none) {} bareRequest rfl hroot hcommand _ () 0 {}).2
    fun h => hno h.1

/-- The `Sync` command `0x0110` is answered too. -/
theorem resultRule_undefined_sync : ¬∃ own, SidecarDispatcher.ResultRule (τ := Unit) { started := true }
    (SidecarDispatcher.sendReply { started := true } (handleRequestFrame (fun _ => none) {} bareRequest
      (lit "\x7b\"command\":272\x7d") 0) () 0 {}).1 ⟨272⟩
    (requestCmdId bareRequest ⟨[(lit "command", lit "272")]⟩) own := by
  obtain ⟨-, hroot, hcommand, hne⟩ := bare_root
  obtain ⟨request, hid, heq⟩ := handleRequestFrame_undefined (fun _ => none) {} 0
    (show messageType bareRequest = .Request from rfl) hroot hcommand (by decide) (by decide)
  rw [heq]
  exact SidecarDispatcher.not_resultRule rfl hid hne rfl

end Phi.Dispatcher
