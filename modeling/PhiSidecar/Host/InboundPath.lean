import PhiSidecar.Dispatcher.RequestProof
import PhiSidecar.Host.Mail
import PhiSidecar.Transport.Agreement

/-!
# From the bytes of a peer to the hooks of the instances

An `InboundHost` is the host of `TimedHost` with the frames that its poll thread hands to it, one
after the other, in whichever way the other threads are interleaved. What a frame is for the host is
what `onFrame` and `route` make of it.

* `run_mailed`: the host is a post office whose letters are the calls of the frames, in their order.
* `requests_reach_instances`: **requests that a peer writes in any rendering and that arrive in any
  pieces are hooks of the instances they name, each on one instance at most, in the order in which they
  were written and without gaps**; a request reaches none only when no instance has the external id that
  it names, as its turn comes.
-/

set_option autoImplicit false

namespace Phi.Host

open Phi.V1 Phi.Wire Phi.Dispatcher Phi.Transport PostOffice Stream
open Rfc8259 (Value)

/-! ## What a frame is for the instances -/

/-- What a handler hands to the instances. -/
def routeAct (a : CreateAnswers) (call : HandlerCall) : Route → Option HookAct
  | .config request => some (.configChanged request a)
  | .runtime externalId hook _ => some (.dispatch externalId (.hook hook))
  | .remove externalId => some (.instanceRemoved externalId)
  | .factory _ _ => none
  | .refused _ =>
    match call with
    | .onProtocolError _ => some (.dispatchAll (.hook call))
    | _ => none

/-- The handlers of `wireHandlers`, as far as instances are concerned. -/
def hookAct (pluginType : Utf8String) (now : Int64) (a : CreateAnswers) (call : HandlerCall) :
    Option HookAct := routeAct a call (route pluginType now call)

/-- The letter of a request, with the external id it names. -/
def routeMail : Route → Option (ExternalId × Task)
  | .config request => some (request.adapter.externalId, .hook (.onConfigChanged request))
  | .runtime externalId hook _ => some (externalId, .hook hook)
  | .remove _ | .factory _ _ | .refused _ => none

def mail (pluginType : Utf8String) (call : HandlerCall) : Option (ExternalId × Task) :=
  routeMail (route pluginType 0 call)

theorem routeMail_instanceCommand (externalId : ExternalId) (call : HandlerCall)
    (required failed : String) (cmdId : CmdId) (now : Int64) :
    routeMail (instanceCommand externalId call required failed cmdId now) =
      if externalId = [] then none else some (externalId, .hook call) := by
  unfold instanceCommand
  split_ifs <;> rfl

/-- The time is in the answers only. -/
theorem routeMail_now (pluginType : Utf8String) (now : Int64) (call : HandlerCall) :
    routeMail (route pluginType now call) = mail pluginType call := by
  have hcommand : ∀ externalId call required failed cmdId,
      routeMail (instanceCommand externalId call required failed cmdId now) =
        routeMail (instanceCommand externalId call required failed cmdId 0) := by
    intro externalId call required failed cmdId
    rw [routeMail_instanceCommand, routeMail_instanceCommand]
  cases call with
  | onChannelInvoke | onDeviceNameUpdate | onDeviceEffectInvoke | onSceneInvoke
  | onAdaptersStreamStart | onAdaptersStreamStop => exact hcommand _ _ _ _ _
  | onAdapterActionInvoke request =>
    show routeMail (onAdapterActionInvoke now request) = routeMail (onAdapterActionInvoke 0 request)
    unfold onAdapterActionInvoke
    dsimp only
    split_ifs <;> rfl
  | onProtocolError | onBootstrap | onConfigChanged | onInstanceRemoved | onUnknownRequest => rfl

theorem hookAct_mail (pluginType : Utf8String) (now : Int64) (a : CreateAnswers) (call : HandlerCall) :
    ((hookAct pluginType now a call).map HookAct.mail).getD [] = (mail pluginType call).toList := by
  rw [← routeMail_now pluginType now, hookAct]
  cases route pluginType now call with
  | refused r => cases call <;> rfl
  | factory | config | runtime | remove => rfl

/-- The call of a frame. -/
def decode (parseDouble : Bytes → Option Double) (frame : Frame) : Option HandlerCall :=
  (onFrame parseDouble {} frame.1 frame.2 0).call

theorem onFrame_now (parseDouble : Bytes → Option Double) (header : FrameHeader) (payload : Bytes)
    (now : Int64) :
    (onFrame parseDouble {} header payload now).call = decode parseDouble (header, payload) := by
  have hdispatch : ∀ command cmdId token map,
      (dispatchCommand parseDouble {} header command cmdId token map now).call =
        (dispatchCommand parseDouble {} header command cmdId token map 0).call := by
    intro command cmdId token map
    simp only [dispatchCommand, apply_ite Handled.call, unknown]
    repeat' refine ite_congr rfl (fun _ => ?_) fun _ => ?_
    all_goals rfl
  unfold decode onFrame handleRequestFrame
  split
  · rfl
  · dsimp only
    split
    · rfl
    · split
      · rfl
      · split
        · exact hdispatch _ _ _ _
        · rfl

/-! ## The machine -/

structure InboundHost where
  host : TimedHost := {}
  /-- The frames that the host has been handed. -/
  frames : List Frame := []

inductive InboundAct
  | frame (header : FrameHeader) (payload : Bytes) (now : Int64) (answers : CreateAnswers)
  /-- What no frame is behind. -/
  | other (a : HookAct)

/-- What `wireHandlers` hands to all instances. -/
def Task.isBroadcast : Task → Bool
  | .connected | .disconnected | .hook (.onProtocolError _) => true
  | .start | .stop | .hook _ => false

/-- The poll thread gets it out of a frame. -/
def HookAct.isMessage : HookAct → Bool
  | .configChanged _ _ | .instanceRemoved _ | .dispatch _ _ => true
  | .dispatchAll task => !task.isBroadcast
  | .stop _ | .next | .waited | .timeout | .work _ _ => false

namespace InboundHost

section
variable (parseDouble : Bytes → Option Double) (pluginType : Utf8String)

/-- What the host does. -/
def hostAct : InboundAct → Option HookAct
  | .frame header payload now a =>
    (onFrame parseDouble {} header payload now).call.bind (hookAct pluginType now a)
  | .other a => some a

def step (s : InboundHost) : InboundAct → Option InboundHost
  | .frame header payload now a =>
    if s.host.isIdle then
      let s := { s with frames := s.frames ++ [(header, payload)] }
      match hostAct parseDouble pluginType (.frame header payload now a) with
      | none => some s
      | some act => (s.host.step act).map fun host => { s with host }
    else none
  | .other a => if a.isMessage then none else (s.host.step a).map fun host => { s with host }

def machine : Lts.Machine InboundHost InboundAct := ⟨step parseDouble pluginType⟩

/-- The calls that the frames have made. -/
def calls (s : InboundHost) : List HandlerCall := s.frames.filterMap (decode parseDouble)

/-! ## The letters of the frames -/

/-- The letters of a log are those of the calls; the last one may still wait for its instance to start. -/
def Accounts (s : InboundHost) (log : List (Entry ExternalId Task)) : Prop :=
  letters log ++ s.host.wait.mail = (s.calls parseDouble).filterMap (mail pluginType)

/-- A step of the run has made the entry, behind those before it. -/
def MadeIn (as : List InboundAct) (before : List (Entry ExternalId Task)) (e : Entry ExternalId Task) :
    Prop :=
  ∃ as₀ a s₀ s₁ act, as₀ ++ [a] <+: as ∧ (machine parseDouble pluginType).run {} as₀ = some s₀ ∧
    s₀.step parseDouble pluginType a = some s₁ ∧ hostAct parseDouble pluginType a = some act ∧
    s₀.Accounts parseDouble pluginType before ∧ s₁.Accounts parseDouble pluginType (before ++ [e]) ∧
    s₀.host.Posted act s₁.host e

/-- The host is a post office whose letters are those of the calls. -/
def Mailed (as : List InboundAct) (s : InboundHost) : Prop :=
  s.host.Inv ∧ ∃ p, s.host.Files p ∧ s.host.Configured p.log ∧ s.Accounts parseDouble pluginType p.log ∧
    ∀ before e after, p.log = before ++ e :: after → MadeIn parseDouble pluginType as before e

variable {parseDouble pluginType} {s t : InboundHost} {as : List InboundAct} {a : InboundAct}

theorem Mailed.init : Mailed parseDouble pluginType [] {} := by
  refine ⟨.init, {}, .init, .init, rfl, fun before e after h => ?_⟩
  cases before <;> cases h

theorem MadeIn.mono {before : List (Entry ExternalId Task)} {e : Entry ExternalId Task}
    (h : MadeIn parseDouble pluginType as before e) : MadeIn parseDouble pluginType (as ++ [a]) before e := by
  obtain ⟨as₀, a₀, s₀, s₁, act, hpre, h⟩ := h
  exact ⟨as₀, a₀, s₀, s₁, act, hpre.trans (List.prefix_append _ _), h⟩

/-- A step of the host, with the frames that it has been handed then. -/
theorem Mailed.host (hs : s.Mailed parseDouble pluginType as)
    (hrun : (machine parseDouble pluginType).run {} as = some s) {act : HookAct} {host : TimedHost}
    {frames : List Frame} (ha : s.step parseDouble pluginType a = some { host, frames })
    (hact : hostAct parseDouble pluginType a = some act) (hstep : s.host.step act = some host)
    (hcalls : (frames.filterMap (decode parseDouble)).filterMap (mail pluginType) =
      (s.calls parseDouble).filterMap (mail pluginType) ++ act.mail) :
    Mailed parseDouble pluginType (as ++ [a]) { host, frames } := by
  obtain ⟨hi, p, hf, hc, hletters, hmade⟩ := hs
  obtain ⟨bs, q, -, hfiles, hconf, hq, hlog⟩ := TimedHost.files_step hf hi hc hstep
  have haccounts : Accounts parseDouble pluginType { host, frames } q.log := by
    rw [Accounts, hq, ← List.append_assoc, hletters]
    exact hcalls.symm
  refine ⟨TimedHost.step_inv hi hstep, q, hfiles, hconf, haccounts, fun before e after h => ?_⟩
  obtain hsame | ⟨e', hlog, hposted⟩ := hlog
  · rw [hsame] at h
    exact (hmade before e after h).mono
  · rw [hlog] at h haccounts
    obtain ⟨rfl, rfl, -⟩ | ⟨rest, -, hold⟩ := split_snoc h
    · exact ⟨as, a, s, _, act, List.prefix_refl _, hrun, ha, hact, hletters, haccounts, hposted⟩
    · exact (hmade before e rest hold).mono

/-- Another frame. -/
theorem mail_snoc (frames : List Frame) (frame : Frame) :
    ((frames ++ [frame]).filterMap (decode parseDouble)).filterMap (mail pluginType) =
      (frames.filterMap (decode parseDouble)).filterMap (mail pluginType) ++
        ((decode parseDouble frame).bind (mail pluginType)).toList := by
  rw [List.filterMap_append, List.filterMap_append]
  cases hd : decode parseDouble frame with
  | none => simp [hd]
  | some call => cases hm : mail pluginType call <;> simp [hd, hm]

theorem bind_hookAct (call : Option HandlerCall) (now : Int64) (a : CreateAnswers) :
    (call.bind (mail pluginType)).toList =
      ((call.bind (hookAct pluginType now a)).map HookAct.mail).getD [] := by
  cases call with
  | none => rfl
  | some call => exact (hookAct_mail pluginType now a call).symm

theorem Mailed.step (hrun : (machine parseDouble pluginType).run {} as = some s)
    (hs : s.Mailed parseDouble pluginType as) (ha : s.step parseDouble pluginType a = some t) :
    t.Mailed parseDouble pluginType (as ++ [a]) := by
  have h := ha
  cases a with
  | frame header payload now a =>
    obtain ⟨-, h⟩ := Option.ite_none_right_eq_some.1 h
    have hletter := @bind_hookAct pluginType (decode parseDouble (header, payload)) now a
    have hframe : hostAct parseDouble pluginType (.frame header payload now a) =
        (decode parseDouble (header, payload)).bind (hookAct pluginType now a) := by
      rw [hostAct, onFrame_now]
    split at h
    · next hnone =>
      cases h
      obtain ⟨hi, p, hf, hc, hletters, hmade⟩ := hs
      refine ⟨hi, p, hf, hc, ?_, fun before e after h => (hmade before e after h).mono⟩
      rw [Accounts, hletters, calls, calls, mail_snoc, hletter, ← hframe, hnone]
      exact (List.append_nil _).symm
    · next act hact =>
      obtain ⟨host, hhost, rfl⟩ := Option.map_eq_some_iff.1 h
      refine hs.host hrun ha hact hhost ?_
      rw [mail_snoc, hletter, ← hframe, hact]
      rfl
  | other a =>
    obtain ⟨hmsg, h⟩ := Option.ite_none_left_eq_some.1 h
    obtain ⟨host, hhost, rfl⟩ := Option.map_eq_some_iff.1 h
    refine hs.host hrun ha rfl hhost ?_
    have hnone : a.mail = [] := by
      cases a with
      | configChanged | instanceRemoved | dispatch => exact absurd rfl hmsg
      | stop | next | dispatchAll | waited | timeout | work => rfl
    rw [hnone, List.append_nil]
    rfl

theorem run_mailed (h : (machine parseDouble pluginType).run {} as = some s) :
    s.Mailed parseDouble pluginType as :=
  Lts.Machine.run_history (M := machine parseDouble pluginType) (I := Mailed parseDouble pluginType) .init
    (fun _ _ _ _ hrun hs ha => hs.step hrun ha) h

/-- What goes to all instances is no request. -/
theorem MadeIn.broadcast {before : List (Entry ExternalId Task)} {task : Task} {boxes : List Nat}
    (h : MadeIn parseDouble pluginType as before (.circular task boxes)) : task.isBroadcast = true := by
  obtain ⟨as₀, a, s₀, s₁, act, -, -, ha, hact, -, -, rfl, -⟩ := h
  cases a with
  | frame header payload now a =>
    obtain ⟨call, -, hcall⟩ := Option.bind_eq_some_iff.1 hact
    unfold hookAct at hcall
    cases hr : route pluginType now call with
    | refused =>
      rw [hr] at hcall
      cases call <;> cases hcall
      rfl
    | config | runtime | remove | factory =>
      rw [hr] at hcall
      cases hcall
  | other a =>
    obtain ⟨hmsg, -⟩ := Option.ite_none_left_eq_some.1 ha
    cases hact
    simpa [HookAct.isMessage] using hmsg

/-- What the threads of the instances make of it: the hooks that instance `i` has called are the first
of what is in its box, but for the report of a `start()` that failed, after which it gets nothing. -/
theorem hooks_of_box (hi : s.host.Inv) {p : PostOffice ExternalId Task} (hf : s.host.Files p) (i : Nat) :
    otherTasks (s.host.threads i).executed <+: contents p.log i ∨
      (s.host.threads i).executed = [.start, InstanceThread.startFailed] ∧ contents p.log i = [] := by
  rw [← hf.mail i]
  obtain hpre | ⟨-, hscheduled, hexecuted⟩ := ((hi.ok i).inOrder (hi.script i)).order
  · exact .inl (hpre.filter _)
  · refine .inr ⟨hexecuted, ?_⟩
    rw [hscheduled]
    rfl

end

end InboundHost

/-! ## Requests -/

/-- A request as its peer sends it. -/
structure SentRequest where
  correlationId : CorrelationId
  call : HandlerCall
  /-- A rendering of the call. -/
  text : Bytes

namespace SentRequest

/-- The frame as a call of the sender. -/
def sent (r : SentRequest) : Call where
  type := .Request
  correlationId := r.correlationId
  payload := r.text
  put := []
  result := none

def frame (r : SentRequest) : Frame := r.sent.frame

/-- The text renders the call and is no longer than a frame may be. -/
def Renders (r : SentRequest) : Prop :=
  RequestText r.frame.1 r.call r.text ∧ r.text.length ≤ kMaxPayloadSize.toNat

variable {r : SentRequest}

theorem Renders.fits (h : r.Renders) : Transport.Fits r.text := by
  obtain ⟨⟨w, w', tok, root, kms, command, hw, hw', htext, ho, -⟩, hlen⟩ := h
  refine ⟨fun hnil => ?_, hlen⟩
  have hparse := ho.parse hw hw'
  rw [← htext, hnil] at hparse
  cases hparse

/-- The call that the request makes. -/
theorem Renders.decode (h : r.Renders) (parseDouble : Bytes → Option Double) :
    ∃ call, Agrees r.call call ∧ decode parseDouble r.frame = some call := by
  obtain ⟨⟨w, w', tok, root, kms, command, hw, hw', htext, ho, hc, hcmd, hid, hpay, hp⟩, -⟩ := h
  obtain ⟨hpos, hreq⟩ := command_request hc
  obtain ⟨hmap, tok', hkms⟩ := requestPayloadMap_field ho hpay
  have hon : SidecarHandlers.on {} r.call = true := by
    cases r.call <;> rfl
  obtain ⟨call, ha, hd⟩ := dispatchCommand_payload hkms hc hp {} hon parseDouble
    (requestPayloadToken (insertAll {} root)) 0
  refine ⟨call, ha, ?_⟩
  have htype : messageType r.frame.1 = .Request := rfl
  have hmatch : matchesMessageType (messageType r.frame.1) command = true := by
    rw [matchesMessageType, hreq, htype]
    decide
  have hpayload : r.frame.2 = w ++ (tok ++ w') := htext
  rw [Host.decode, onFrame, if_neg (not_not.2 htype), handleRequestFrame, hpayload]
  simp only [ho.parse hw hw', parseIpcCommandToken_isInt (ho.has hcmd).1 hpos, hmatch, if_true,
    requestCmdId_field ho hid, hmap, hd]

end SentRequest

theorem parse_requests {requests : List SentRequest} (hr : ∀ r ∈ requests, r.Renders) :
    frames.parse (requests.flatMap fun r => frameBytes r.frame) =
      ⟨requests.map SentRequest.frame, false, []⟩ := by
  have hfits : ∀ k ∈ requests.map SentRequest.sent, Transport.Fits k.payload := by
    intro k hk
    obtain ⟨r, hmem, rfl⟩ := List.mem_map.1 hk
    exact (hr r hmem).fits
  have hall := Connection.frames_parse_calls hfits (t := []) rfl
  rw [List.append_nil, List.flatMap_map, List.map_map] at hall
  exact hall

/-- What the poll thread dispatches. -/
theorem dispatched_eq {batches : List (List ReadResult)}
    (hopen : ∀ reads ∈ batches, ∀ r ∈ reads, r.Open) :
    (UdsEpollServer.pollBatches (fun _ => false) batches).onFrame =
      (frames.parse (batches.map UdsEpollServer.received).flatten).items := by
  have hbatch := @UdsEpollServer.pollBatches_feed (fun _ => false) (fun _ => rfl) batches hopen
  have hfeed := Splitter.feed_eq_parse (D := frames) rfl (batches.map UdsEpollServer.received)
  exact hbatch.onFrame.trans hfeed.items

/-- Each request makes the call that it renders. -/
theorem decode_all {requests : List SentRequest} (hr : ∀ r ∈ requests, r.Renders)
    (parseDouble : Bytes → Option Double) :
    List.Forall₂ (fun r call => Agrees r.call call) requests
      ((requests.map SentRequest.frame).filterMap (decode parseDouble)) := by
  induction requests with
  | nil => exact .nil
  | cons r requests ih =>
    obtain ⟨hfirst, hrest⟩ := List.forall_mem_cons.1 hr
    obtain ⟨call, hagrees, hcall⟩ := hfirst.decode parseDouble
    rw [List.map_cons, List.filterMap_cons_some hcall]
    exact .cons hagrees (ih hrest)

/-- How the host has delivered calls to its instances in a run; `log` says where each letter went. -/
structure Delivers (parseDouble : Bytes → Option Double) (pluginType : Utf8String)
    (as : List InboundAct) (calls : List HandlerCall) (host : TimedHost)
    (log : List (Entry ExternalId Task)) : Prop where
  /-- The letters are those of the calls, each once and in order; the last one may still wait for its
  instance to start. -/
  letters : letters log ++ host.wait.mail = calls.filterMap (mail pluginType)
  /-- Each went to the instance that had its external id when it was its turn; to nobody only when there was
  none, as its creation had failed if the letter asked for it. -/
  made : ∀ before e after, log = before ++ e :: after →
    InboundHost.MadeIn parseDouble pluginType as before e
  /-- What went to all instances is no letter. -/
  broadcast : ∀ task boxes, .circular task boxes ∈ log → task.isBroadcast = true
  /-- The hooks of an instance, between `start()` and `stop()`, are the first of what is in its box; an
  instance whose `start()` failed is told so, and gets nothing. -/
  hooks : ∀ i, otherTasks (host.threads i).executed <+: contents log i ∨
    (host.threads i).executed = [.start, InstanceThread.startFailed] ∧ contents log i = []
  /-- An instance gets letters for its own external id only. -/
  addressed : ∀ key task i, .letter key task (some i) ∈ log → host.registry.created[i]? = some key
  /-- It misses none between two that it gets. -/
  uninterrupted : ∀ i key, host.registry.created[i]? = some key → Uninterrupted key i log
  /-- The first one is the `config.changed` that it was created for. -/
  first : ∀ i, contents log i = [] ∨ ∃ request rest,
    contents log i = .hook (.onConfigChanged request) :: rest ∧
      host.registry.created[i]? = some request.adapter.externalId

/-- **From the bytes of a peer to the hooks of the instances**: of requests that a peer has written in
any rendering, and that have arrived as far as they have, in any pieces, those that the host has been
handed so far are delivered. -/
theorem requests_reach_instances (parseDouble : Bytes → Option Double) (pluginType : Utf8String)
    {requests : List SentRequest} (hr : ∀ r ∈ requests, r.Renders) {batches : List (List ReadResult)}
    (hopen : ∀ reads ∈ batches, ∀ r ∈ reads, r.Open)
    (hreceived : (batches.map UdsEpollServer.received).flatten <+:
      requests.flatMap fun r => frameBytes r.frame)
    {as : List InboundAct} {s : InboundHost}
    (h : (InboundHost.machine parseDouble pluginType).run {} as = some s)
    (hframes : s.frames <+: (UdsEpollServer.pollBatches (fun _ => false) batches).onFrame) :
    ∃ calls log, List.Forall₂ (fun r call => Agrees r.call call) (requests.take s.frames.length) calls ∧
      Delivers parseDouble pluginType as calls s.host log := by
  obtain ⟨hi, p, hf, hc, hletters, hmade⟩ := InboundHost.run_mailed h
  have htake : s.frames = (requests.take s.frames.length).map SentRequest.frame := by
    have hparse := parse_requests hr
    have harrived := (Splitter.parse_isPrefix (D := frames) hreceived (by rw [hparse])).2
    rw [hparse] at harrived
    rw [dispatched_eq hopen] at hframes
    rw [List.map_take]
    exact List.prefix_iff_eq_take.1 (hframes.trans harrived)
  refine ⟨s.calls parseDouble, p.log, ?_, hletters, hmade, fun task boxes hmem => ?_,
    InboundHost.hooks_of_box hi hf, ?_, ?_, hc.first⟩
  · rw [InboundHost.calls]
    have hall := decode_all (fun r hmem => hr r (List.mem_of_mem_take (i := s.frames.length) hmem))
      parseDouble
    rw [← htake] at hall
    exact hall
  · obtain ⟨before, after, hlog⟩ := List.append_of_mem hmem
    exact (hmade before _ after hlog).broadcast
  · intro key task i hmem
    obtain ⟨k, hk, hfor⟩ := hf.sorted.letter _ hmem i rfl
    obtain rfl : key = k := hfor
    rw [← hf.owners]
    exact hk
  · rw [← hf.owners]
    exact hf.sorted.uninterrupted

/-- A `config.changed` that arrives in two pieces, up to its hook. -/
theorem requests_reach_instances_config :
    let request : ConfigChangedRequest :=
      { cmdId := 7, correlationId := 7, adapter := { externalId := lit "x" } }
    let sent : SentRequest :=
      { correlationId := 7, call := .onConfigChanged request
        text := lit "\x7b\"command\":258,\"payload\":\x7b\"externalId\":\"x\"\x7d\x7d" }
    let as : List InboundAct := [.frame sent.frame.1 sent.frame.2 0 {}, .other (.work 0 .take),
      .other (.work 0 (.startReturns true)), .other (.work 0 .startDone), .other .waited,
      .other (.work 0 .take)]
    ∃ s, (InboundHost.machine (fun _ => none) (lit "p")).run {} as = some s ∧
      ∃ calls log,
        List.Forall₂ (fun r call => Agrees r.call call) ([sent].take s.frames.length) calls ∧
        Delivers (fun _ => none) (lit "p") as calls s.host log := by
  intro request sent as
  let bytes := frameBytes sent.frame
  let batches : List (List ReadResult) := [[.data (bytes.take 9)], [.intr, .data (bytes.drop 9)]]
  have hm : ∀ {k b v : Bytes}, Value v → Rfc8259.Denotes b k → GoodMember (k, { key := b, val := v }) :=
    fun hv hb => ⟨hv, ⟨.nil, .nil, .nil, .nil⟩, hb⟩
  have hx : Rfc8259.Denotes (lit "x") (lit "x") := .of_plain (by decide +kernel)
  have hint : Value (lit "258") := by
    have h := Value.num (Rfc8259.intText_number 258)
    exact h
  let kms : List Keyed := [(lit "externalId", { key := lit "externalId", val := lit "\"x\"" })]
  have ho : ObjectText kms (Rfc8259.objText [] (kms.map Prod.snd)) := by
    refine ⟨?_, by decide, [], .nil, rfl⟩
    simp only [kms, List.forall_mem_cons]
    exact ⟨hm (isText_value ⟨_, hx, rfl⟩) (.of_plain (by decide +kernel)), by simp⟩
  have hv : Value (Rfc8259.objText [] (kms.map Prod.snd)) := by
    refine .obj .nil ?_ ?_ <;> intro m hmem <;> obtain ⟨p, hp, rfl⟩ := List.mem_map.1 hmem
    · exact ⟨(ho.good p hp).spaced, (ho.good p hp).key.body⟩
    · exact (ho.good p hp).value
  let root : List Keyed := [(lit "command", { key := lit "command", val := lit "258" }),
    (lit "payload", { key := lit "payload", val := Rfc8259.objText [] (kms.map Prod.snd) })]
  have hroot : ObjectText root (Rfc8259.objText [] (root.map Prod.snd)) := by
    refine ⟨?_, by decide, _, .nil, rfl⟩
    simp only [root, List.forall_mem_cons]
    exact ⟨hm hint (.of_plain (by decide +kernel)), hm hv (.of_plain (by decide +kernel)), by simp⟩
  have hno : ∀ {ks : List Keyed} {key : String}, lit key ∉ ks.map Prod.fst → Lacks ks key := id
  have hrenders : sent.Renders := by
    refine ⟨⟨[], [], _, root, kms, _, .nil, .nil, by decide, hroot, rfl, ?_, .inr ⟨rfl, hno (by decide)⟩,
      .inl ?_, rfl, .inr ⟨rfl, hno (by decide)⟩, .inr ⟨rfl, hno (by decide)⟩, {}, [], lit "x",
      .inr ⟨rfl, hno (by decide)⟩, .inr ⟨rfl, hno (by decide)⟩, .inl ?_, rfl⟩, by decide⟩
    · exact ⟨_, .head _, rfl, hint, by decide⟩
    · exact ⟨_, .tail _ (.head _), rfl, ho⟩
    · exact ⟨_, .head _, rfl, _, hx, rfl⟩
  have hr : ∀ r ∈ [sent], r.Renders := by simpa using hrenders
  have hreceived : (batches.map UdsEpollServer.received).flatten =
      [sent].flatMap fun r => frameBytes r.frame := by
    have hsplit : ∀ l : Bytes, ([[ReadResult.data (l.take 9)], [.intr, .data (l.drop 9)]].map
        UdsEpollServer.received).flatten = l := by
      intro l
      simp [UdsEpollServer.received, ReadResult.bytes]
    rw [List.flatMap_cons, List.flatMap_nil, List.append_nil]
    exact hsplit _
  have hopen : ∀ reads ∈ batches, ∀ r ∈ reads, r.Open := by
    simp [batches, ReadResult.Open]
  obtain ⟨call, hcall, hdecode⟩ := hrenders.decode fun _ => none
  obtain rfl : call = sent.call := hcall
  have hrun : ∀ frame : Frame, decode (fun _ => none) frame = some sent.call →
      ∃ s, (InboundHost.machine (fun _ => none) (lit "p")).run {}
        (.frame frame.1 frame.2 0 {} :: as.tail) = some s ∧ s.frames = [frame] := by
    intro frame hframe
    have hidle : ({} : InboundHost).host.isIdle = true := rfl
    have hfirst : InboundHost.step (fun _ => none) (lit "p") {} (.frame frame.1 frame.2 0 {}) =
        some ⟨({} : TimedHost).configChanged { request with
          adapter := normalizeAdapter (lit "p") request.adapter } {}, [frame]⟩ := by
      rw [InboundHost.step, if_pos hidle, InboundHost.hostAct, onFrame_now, hframe]
      rfl
    refine ⟨_, (congrArg (Option.bind · _) hfirst).trans rfl, rfl⟩
  obtain ⟨s, hs, hframes⟩ := hrun sent.frame hdecode
  refine ⟨s, hs, requests_reach_instances _ _ hr hopen (hreceived ▸ List.prefix_refl _) hs ?_⟩
  rw [dispatched_eq hopen, hreceived, parse_requests hr, hframes]
  exact List.prefix_refl _

end Phi.Host
