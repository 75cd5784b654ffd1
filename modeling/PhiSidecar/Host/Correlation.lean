import PhiSidecar.Host.Accounts
import PhiSidecar.Host.Scope

/-!
# One result for each command

A `Cmd` request that is handled is answered at once, or leaves a task that owes its result; the
result is deferred when its hook sends it and enqueued by a drain. So for each id what is due is as
much as the requests that were handled ask for (`Ledger`); a factory hook that runs inline pays
before it is counted.

* `run_one_result`: **in every state of every run in which no task and no deferred result is pending,
  the results enqueued for an id are as many as the commands handled with it, and each carries it**.
-/

set_option autoImplicit false

namespace Phi.Host

open Phi.V1 Phi.Wire Phi.Dispatcher

/-! ## What a route owes -/

/-- A route answers as many results for the id as the call asks for. -/
def Route.Settles (id : CmdId) (call : HandlerCall) : Route → Prop
  | .refused r => r.counts id = counts (commandId call) id
  | .factory hook failed => commandId hook.call = commandId call ∧
      ∀ error, (failed error).counts id = counts (commandId call) id
  | .config _ | .remove _ => commandId call = none
  | .runtime _ hook failed => commandId hook = commandId call ∧
      ∀ error, (failed error).counts id = counts (commandId call) id

section
variable {id : CmdId}

theorem instanceCommand_settles {call : HandlerCall} {cmdId : CmdId} (h : commandId call = some cmdId)
    (externalId : ExternalId) (required failed : String) (now : Int64) :
    (instanceCommand externalId call required failed cmdId now).Settles id call := by
  have hc : ∀ message, (invalidArgument cmdId message now).counts id = counts (commandId call) id :=
    fun message => by rw [h]; rfl
  unfold instanceCommand
  split_ifs
  · exact hc _
  · exact ⟨rfl, fun error => hc _⟩

theorem route_settles (pluginType : Utf8String) (now : Int64) (call : HandlerCall) :
    (route pluginType now call).Settles id call := by
  cases call with
  | onProtocolError message => rfl
  | onBootstrap request =>
    simp only [route, onBootstrap]
    split_ifs
    · rfl
    · exact ⟨rfl, fun error => rfl⟩
  | onConfigChanged request =>
    simp only [route, onConfigChanged]
    split_ifs
    · exact ⟨rfl, fun error => rfl⟩
    · rfl
  | onInstanceRemoved request =>
    simp only [route, onInstanceRemoved]
    split_ifs <;> rfl
  | onAdapterActionInvoke request =>
    simp only [route, onAdapterActionInvoke]
    split_ifs <;> exact ⟨rfl, fun error => rfl⟩
  | onUnknownRequest request =>
    simp only [route, onUnknownRequest]
    split_ifs
    · rfl
    · exact ⟨rfl, fun error => rfl⟩
  | onChannelInvoke request => exact instanceCommand_settles rfl _ _ _ _
  | onDeviceNameUpdate request => exact instanceCommand_settles rfl _ _ _ _
  | onDeviceEffectInvoke request => exact instanceCommand_settles rfl _ _ _ _
  | onSceneInvoke request => exact instanceCommand_settles rfl _ _ _ _
  | onAdaptersStreamStart request => exact instanceCommand_settles rfl _ _ _ _
  | onAdaptersStreamStop request => exact instanceCommand_settles rfl _ _ _ _

end

namespace SidecarHost

/-! ## The ledger -/

variable {s t u : SidecarHost} {id : CmdId} {k l : Nat}

/-- What is due for an id is what was served; what a running inline hook paid early is deferred. -/
structure Ledger (id : CmdId) (s : SidecarHost) : Prop where
  sound : s.Sound
  balance : s.due id = s.served id + s.thread.early id
  early : s.thread.early id ≠ 0 → ∃ d ∈ s.queues.resultQueue, d.id = id

theorem Ledger.adds (h : Ledger id s) (ha : Adds id 0 s t) : Ledger id t where
  sound := ha.sound h.sound
  balance := by rw [ha.due, ha.early, h.balance, served, served, ha.handled, Nat.add_zero]
  early ht := by
    obtain ⟨d, hd, hid⟩ := h.early (ha.early ▸ ht)
    exact ⟨d, ha.kept hd, hid⟩

/-- A request is served: as many results are due as it asks for. -/
theorem Ledger.returned (h : Ledger id s) {call : HandlerCall}
    (ha : Adds id (counts (commandId call) id) s t) : Ledger id (t.returned call) where
  sound := ⟨(ha.sound h.sound).books, (ha.sound h.sound).drained⟩
  balance := by
    have hb := h.balance
    have hd := ha.due
    have hs : (t.returned call).served id = s.served id + counts (commandId call) id := by
      simp only [served, SidecarHost.returned, ha.handled, List.countP_append, List.countP_singleton,
        counts, decide_eq_true_eq]
    have hdue : (t.returned call).due id = t.due id := rfl
    have he : (t.returned call).thread.early id = s.thread.early id := ha.early
    omega
  early ht := by
    obtain ⟨d, hd, hid⟩ := h.early (ha.early ▸ ht)
    exact ⟨d, ha.kept hd, hid⟩

/-- The poll thread starts or ends a wait in which nothing was paid early. -/
theorem Ledger.setThread (h : Ledger id s) (hs : s.thread.early id = 0) {thread : HostThread}
    (ht : thread.early id = 0) : Ledger id { s with thread } where
  sound := ⟨h.sound.books, h.sound.drained⟩
  balance := by
    have hb := h.balance
    rw [hs] at hb
    show s.due id = s.served id + thread.early id
    rw [ht, hb]
  early hne := absurd ht hne

/-- A request that asks for no result. -/
theorem Ledger.returned_none (h : Ledger id s) {call : HandlerCall} (hc : commandId call = none) :
    Ledger id (s.returned call) := by
  refine h.returned ?_
  rw [hc]
  exact .refl s

theorem configChanged_ledger (h : Ledger id s) (hs : s.thread = .idle)
    (request : ConfigChangedRequest) (a : CreateAnswers) : Ledger id (s.configChanged request a) := by
  unfold configChanged
  split
  · exact h.adds (dispatchConfig_adds _ _ _ _)
  · split_ifs
    · have hw : ∀ w ∈ [({ backend := { Backend.afterStart with tasks := [.start] } } : Worker)],
          w.owes id = 0 ∧ w.backend.Drained := by
        intro w hw
        rw [List.mem_singleton.1 hw]
        exact ⟨rfl, nofun, nofun⟩
      have hb : Ledger id { s with instances := s.instances ++ _ } := h.adds (.backends hw)
      exact hb.setThread (by show s.thread.early id = 0; rw [hs]; rfl) rfl
    · exact h.adds (onLifecycle_adds _ _)

theorem requestStop_adds (s : SidecarHost) (th : Thread) :
    Adds id 0 s (s.onBackend th .requestStop) :=
  .onBackend th (fun _ => ⟨rfl, rfl⟩) fun _ hb => hb.requestStop

theorem removeInstance_ledger (h : Ledger id s) (hs : s.thread = .idle) (externalId : ExternalId) :
    Ledger id (s.removeInstance externalId) := by
  have hidle : s.thread.early id = 0 := by rw [hs]; rfl
  unfold removeInstance
  split
  · exact h
  · next i _ =>
    have ha : Adds id 0 s _ := execute_adds_zero s (.runtime i) (t := .stop) rfl
    split
    · next he =>
      rw [he] at ha
      exact (h.adds ha).setThread (ha.early.trans hidle) rfl
    · next he =>
      rw [he] at ha
      have hr := ha.trans (requestStop_adds _ (.runtime i))
      exact (h.adds hr).setThread (hr.early.trans hidle) rfl

theorem factoryHook_ledger (h : Ledger id s) (hs : s.thread = .idle) {hook : FactoryHook}
    {failed : Utf8String → Refusal} {now : Int64} {clock : Clock}
    (hf : ∀ error, (failed error).counts id = counts (commandId hook.call) id) :
    Ledger id (s.factoryHook hook failed now clock) := by
  have hidle : s.thread.early id = 0 := by rw [hs]; rfl
  unfold factoryHook
  split_ifs
  · exact h.setThread hidle rfl
  · have ha := @execute_adds id s .factory (.hook hook.call)
    split
    · next he =>
      rw [he] at ha
      exact h.returned (ha.resolve_right (by simp)).2
    · next error he =>
      rw [he] at ha
      have ha := (ha.resolve_left (by simp)).2
      have hr := ha.trans (refuse_adds _ now clock (failed error))
      rw [hf, Nat.zero_add] at hr
      cases hook with
      | bootstrap request => exact (h.adds hr).setThread (hr.early.trans hidle) rfl
      | configChanged request => exact h.returned hr
      | actionInvoke request => exact h.returned hr

/-- **A handler keeps the ledger**. -/
theorem handle_ledger (h : Ledger id s) (hs : s.thread = .idle) (pluginType : Utf8String)
    (call : HandlerCall) (a : CreateAnswers) (now : Int64) (clock : Clock) :
    Ledger id (s.handle pluginType call a now clock) := by
  have hr := @route_settles id pluginType now call
  unfold handle
  cases hroute : route pluginType now call with
  | refused r =>
    rw [hroute] at hr
    have hadds : Adds id _ s _ := refuse_adds s now clock r
    rw [show r.counts id = _ from hr] at hadds
    cases call with
    | onProtocolError message => exact h.returned (hadds.trans (executeOnAllRuntimes_adds _ rfl))
    | _ => exact h.returned hadds
  | factory hook failed =>
    rw [hroute] at hr
    exact factoryHook_ledger h hs fun error => by rw [hr.1]; exact hr.2 error
  | config request =>
    rw [hroute] at hr
    exact (configChanged_ledger h hs request a).returned_none hr
  | runtime externalId hook failed =>
    rw [hroute] at hr
    have ha := @executeOnRuntime_adds id s externalId (.hook hook)
    simp only
    split
    · next he =>
      rw [he] at ha
      have ha := (ha.resolve_right (by simp)).2
      exact h.returned (hr.1 ▸ ha)
    · next error he =>
      rw [he] at ha
      have ha := (ha.resolve_left (by simp)).2.trans (refuse_adds _ now clock (failed error))
      rw [hr.2 error, Nat.zero_add] at ha
      exact h.returned ha
  | remove externalId =>
    rw [hroute] at hr
    exact (removeInstance_ledger h hs externalId).returned_none hr

end SidecarHost

/-! ## Typed requests -/

/-- The inbound frame is a request of a command that has a handler of its own. -/
def isTyped (parseDouble : Bytes → Option Double) : HostAct → Bool
  | .receive header payload _ now _ =>
    ((onFrame parseDouble {} header payload now).call.bind HandlerCall.command).isSome
  | _ => true

theorem sync_reply (handlers : SidecarHandlers) (call : HandlerCall) :
    (sync handlers call).reply = none := by
  unfold sync
  split <;> rfl

theorem typed_reply (call : HandlerCall) (reply : CommandResult) : (typed {} call reply).reply = none := by
  have hon : SidecarHandlers.on {} call = true := by cases call <;> rfl
  rw [typed, if_pos hon]

/-- The handler answers, or the command is unknown. -/
def LeavesReply (h : Handled) : Prop :=
  h.reply = none ∨ ∃ request, h.call = some (.onUnknownRequest request)

/-- `handleRequestFrame` itself answers unknown commands only. -/
theorem dispatchCommand_reply (parseDouble : Bytes → Option Double) (header : FrameHeader)
    (command : IpcCommand) (cmdId : CmdId) (payloadToken : Bytes) (payloadMap : MemberMap) (now : Int64) :
    LeavesReply (dispatchCommand parseDouble {} header command cmdId payloadToken payloadMap now) := by
  unfold dispatchCommand
  iterate 3 refine iteInduction (motive := LeavesReply) (fun _ => .inl (sync_reply _ _)) fun _ => ?_
  iterate 7 refine iteInduction (motive := LeavesReply) (fun _ => .inl (typed_reply _ _)) fun _ => ?_
  exact .inr ⟨_, rfl⟩

theorem onFrame_reply {parseDouble : Bytes → Option Double} {header : FrameHeader} {payload : Bytes}
    {now : Int64} {call : HandlerCall} (h : (onFrame parseDouble {} header payload now).call = some call)
    (hc : call.command.isSome = true) : (onFrame parseDouble {} header payload now).reply = none := by
  rcases @onFrame_cases parseDouble header payload now with ⟨root, command, -, he⟩ | ⟨-, hn | ⟨message, hm⟩⟩
  · rw [he] at h ⊢
    refine (dispatchCommand_reply _ _ _ _ _ _ _).resolve_right ?_
    rintro ⟨request, hr⟩
    cases hr.symm.trans h
    cases hc
  · rw [hn] at h
    cases h
  · rw [hm] at h
    cases h
    cases hc

namespace SidecarHost

/-! ## Steps -/

variable {s t : SidecarHost} {id : CmdId} {parseDouble : Bytes → Option Double} {pluginType : Utf8String}
  {a : HostAct}

theorem early_idle (hs : s.thread = .idle) : s.thread.early id = 0 := by
  rw [hs]
  rfl

theorem receive_ledger (h : Ledger id s) (hs : s.thread = .idle) {header : FrameHeader} {payload : Bytes}
    {answers : CreateAnswers} {now : Int64} {clock : Clock}
    (htyped : isTyped parseDouble (.receive header payload answers now clock) = true) :
    Ledger id (s.receive parseDouble pluginType header payload answers now clock) := by
  obtain ⟨command, hcommand⟩ := Option.isSome_iff_exists.1 htyped
  obtain ⟨call, hcall, hc⟩ := Option.bind_eq_some_iff.1 hcommand
  simp only [receive, hcall, onFrame_reply hcall (by rw [hc]; rfl)]
  exact handle_ledger h hs _ _ _ _ _

/-- The end of the wait for a start task. -/
theorem starting_ledger (h : Ledger id s) {started : Option Bool}
    (hs : s.step parseDouble pluginType (.starting started) = some t) : Ledger id t := by
  simp only [step] at hs
  split at hs
  · next request a hth =>
    have hearly : s.thread.early id = 0 := by rw [hth]; rfl
    split_ifs at hs
    · cases hs
      exact (h.setThread hearly rfl).adds (dispatchConfig_adds _ _ _ _)
    · cases hs
      have ha : Adds id 0 s _ := requestStop_adds s (.runtime s.lifecycle.created)
      exact (h.adds ha).setThread (ha.early.trans hearly) rfl
  · cases hs

/-- The end of the wait for a stop task. -/
theorem stopping_ledger (h : Ledger id s) {completed : Bool}
    (hs : s.step parseDouble pluginType (.stopping completed) = some t) : Ledger id t := by
  simp only [step] at hs
  split at hs
  · next externalId i hth =>
    have hearly : s.thread.early id = 0 := by rw [hth]; rfl
    split_ifs at hs
    cases hs
    have ha : Adds id 0 s _ := requestStop_adds s (.runtime i)
    exact (h.adds ha).setThread (ha.early.trans hearly) rfl
  · cases hs

/-- A backend has stopped: all its tasks have run. -/
theorem joining_ledger (h : Ledger id s) (hs : s.step parseDouble pluginType .joining = some t) :
    Ledger id t := by
  simp only [step] at hs
  split at hs
  · next i next hth =>
    have hearly : s.thread.early id = 0 := by rw [hth]; rfl
    split_ifs at hs with hx
    cases hs
    have ha : Adds id 0 s _ := stopped_adds h.sound hx
    exact ((h.adds ha).setThread (ha.early.trans hearly) rfl).adds (onLifecycle_adds _ _)
  · cases hs

/-- The result of a hook that runs inline is deferred before its request is counted. -/
theorem hookResult_ledger (hid : id ≠ 0) (h : Ledger id s) {result : CommandResult} {now : Int64}
    (hs : s.step parseDouble pluginType (.hookResult result now) = some t) : Ledger id t := by
  simp only [step] at hs
  split at hs
  · next call hth =>
    split_ifs at hs with hans
    cases hs
    obtain ⟨ha, hq⟩ := sendResult_adds hid { s with thread := .hook call true } .host result now
    have hc := answers_commandId hans
    have hb := h.balance
    have hearly : s.thread.early id = 0 := by rw [hth]; rfl
    have hearly' : HostThread.early id (.hook call true) = counts (some result.id) id := by rw [← hc]; rfl
    refine ⟨ha.sound ⟨h.sound.books, h.sound.drained⟩, ?_, fun hne => hq ?_⟩
    · rw [ha.due, ha.early, hearly', served, ha.handled]
      show s.due id + _ = s.served id + _
      omega
    · rw [ha.early, hearly', counts] at hne
      by_contra hne'
      exact hne (if_neg fun he => hne' (Option.some.inj he))
  · cases hs

/-- The request is counted when the hook returns, which owes nothing then. -/
theorem hookReturn_ledger (h : Ledger id s) (hs : s.step parseDouble pluginType .hookReturn = some t) :
    Ledger id t := by
  simp only [step] at hs
  split at hs
  · next call answered hth =>
    split_ifs at hs with hret
    cases hs
    refine ⟨⟨h.sound.books, h.sound.drained⟩, ?_, fun hne => absurd rfl hne⟩
    have hb := h.balance
    have hpaid : s.thread.early id = counts (commandId call) id := by
      rw [hth]
      cases answered with
      | true => rfl
      | false =>
        simp only [mayReturn, Bool.or_false, Option.isNone_iff_eq_none] at hret
        rw [hret]
        rfl
    have hserved : ({ s with thread := .idle }.returned call).served id =
        s.served id + counts (commandId call) id := by
      simp only [served, SidecarHost.returned, List.countP_append, List.countP_singleton, counts,
        decide_eq_true_eq]
    rw [hserved, ← hpaid]
    exact hb
  · cases hs

/-- A drain moves results on. -/
theorem Ledger.drain (h : Ledger id s) (hs : s.thread = .idle) {q : HostQueues} (hb : Books q.dispatcher)
    (hdue : ({ s with queues := q } : SidecarHost).due id = s.due id) : Ledger id (s.onDrain q) := by
  have hq : Ledger id { s with queues := q } :=
    ⟨⟨hb, h.sound.drained⟩, hdue.trans h.balance, fun hne => absurd (early_idle hs) hne⟩
  exact hq.adds (.foldl (fun s message => execute_adds_zero s .factory rfl) _ _)

theorem drainBegin_ledger (h : Ledger id s)
    (hs : s.step parseDouble pluginType .drainBegin = some t) : Ledger id t := by
  simp only [step] at hs
  split at hs
  · next hth =>
    obtain ⟨q, hq, rfl⟩ := Option.map_eq_some_iff.1 hs
    simp only [HostQueues.step] at hq
    split_ifs at hq with hempty
    cases hq
    refine h.drain hth h.sound.books ?_
    simp only [due, sent, deferred, owed, HostQueues.drainBegin, List.isEmpty_iff.1 hempty, List.countP_nil]
    omega
  · cases hs

/-- A result with the id 0 is dropped; every other one is handed to the dispatcher. -/
theorem drainNext_ledger (hid : id ≠ 0) (h : Ledger id s) {now : Int64} {clock : Clock}
    (hs : s.step parseDouble pluginType (.drainNext now clock) = some t) : Ledger id t := by
  simp only [step] at hs
  split at hs
  · next hth =>
    obtain ⟨q, hq, rfl⟩ := Option.map_eq_some_iff.1 hs
    simp only [HostQueues.step] at hq
    split at hq
    · cases hq
    · next d rest hd =>
      cases hq
      rcases HostQueues.drainResult_cases { s.queues with draining := rest } d now clock with
        ⟨h0, he⟩ | ⟨-, reports, he⟩
      · rw [he]
        refine h.drain hth h.sound.books ?_
        have hne : d.id ≠ id := fun heq => hid (heq ▸ h0)
        simp [due, sent, deferred, owed, HostQueues.reportProtocolError, hd, hne]
      · rw [he]
        have hmade : Made (d.result.frame d.origin now) :=
          ⟨now, by rw [CommandResult.frame_origin]; exact CommandResult.frame_eq _ _ _⟩
        have hret := (s.queues.dispatcher.queueOutboundFrame_returned (d.result.frame d.origin now) clock).2
        refine h.drain hth (h.sound.books.queueOutboundFrame hmade clock) ?_
        have hf : [d.result.frame d.origin now].countP (isResultFor id) = [d].countP (·.id = id) := by
          rw [List.countP_singleton, List.countP_singleton, @isResultFor_frame id d.result d.origin rfl]
          by_cases hk : d.result.id = id <;> simp [counts, DeferredResult.id, hk]
        have hsplit : (d :: rest).countP (·.id = id) = [d].countP (·.id = id) + rest.countP (·.id = id) :=
          @List.countP_append _ _ [d] rest
        simp only [due, sent, deferred, owed, hret, hd, List.countP_append, hf, hsplit]
        omega
  · cases hs

/-- **One step keeps the ledger**. -/
theorem Ledger.step (hid : id ≠ 0) (h : Ledger id s) (htyped : isTyped parseDouble a = true)
    (hs : s.step parseDouble pluginType a = some t) : Ledger id t := by
  cases a with
  | receive header payload answers now clock =>
    simp only [SidecarHost.step] at hs
    split at hs
    · next hth =>
      cases hs
      exact receive_ledger h hth htyped
    · cases hs
  | starting started => exact starting_ledger h hs
  | stopping completed => exact stopping_ledger h hs
  | joining => exact joining_ledger h hs
  | hookResult result now => exact hookResult_ledger hid h hs
  | hookReturn => exact hookReturn_ledger h hs
  | connected =>
    simp only [SidecarHost.step] at hs
    split at hs
    · cases hs
      exact h.adds (onConnection_adds s rfl _)
    · cases hs
  | disconnected =>
    simp only [SidecarHost.step] at hs
    split at hs
    · cases hs
      exact h.adds (onConnection_adds s rfl _)
    · cases hs
  | drainBegin => exact drainBegin_ledger h hs
  | drainNext now clock => exact drainNext_ledger hid h hs
  | call caller call now clock =>
    simp only [SidecarHost.step] at hs
    split_ifs at hs with hr
    cases hs
    exact h.adds (call_adds s (by simpa using hr) caller now clock)
  | net a =>
    simp only [SidecarHost.step] at hs
    split_ifs at hs with ha
    obtain ⟨q, hq, rfl⟩ := Option.map_eq_some_iff.1 hs
    exact h.adds (net_adds ha hq)
  | worker th a =>
    simp only [SidecarHost.step] at hs
    split at hs
    · cases hs
    · next w hw => exact h.adds (workerStep_adds hid hw hs)

/-! ## Runs -/

theorem Ledger.init (id : CmdId) (factoryBackend : Bool) : Ledger id (afterStart factoryBackend) := by
  refine ⟨⟨.init, fun th w hw => ?_⟩, ?_, fun hne => absurd rfl hne⟩
  · cases th with
    | factory =>
      cases factoryBackend with
      | true => cases hw; exact .afterStart
      | false => cases hw
    | runtime i => cases hw
  · cases factoryBackend <;> rfl

/-- Every run keeps the ledger. -/
theorem run_ledger {as : List HostAct} {factoryBackend : Bool} (hid : id ≠ 0)
    (htyped : ∀ a ∈ as, isTyped parseDouble a = true)
    (h : (machine parseDouble pluginType).run (afterStart factoryBackend) as = some s) : Ledger id s :=
  Lts.Machine.along_inv (fun _ _ _ hs hok h => hs.step hid hok h) (.init id factoryBackend)
    (Lts.Machine.along_of_forall (fun a ha _ => htyped a ha) _) h

/-- No task of a backend is queued or running, and no result is deferred. -/
structure Settled (s : SidecarHost) : Prop where
  tasks : ∀ th w, s.worker th = some w → w.backend.pending = []
  deferred : s.queues.resultQueue = [] ∧ s.queues.draining = []

theorem owes_eq_zero {w : Worker} (h : w.backend.pending = []) : w.owes id = 0 := by
  simp only [Backend.pending, List.append_eq_nil_iff] at h
  simp [Worker.owes, h.1, h.2]

theorem Settled.owed (h : s.Settled) : s.owed id = 0 := by
  have hruntimes : ∀ w ∈ s.instances, w.owes id = 0 := fun w hw => by
    obtain ⟨i, hi⟩ := List.getElem?_of_mem hw
    exact owes_eq_zero (h.tasks (.runtime i) w hi)
  have hfactory : ∀ w ∈ s.factory.toList, w.owes id = 0 := fun w hw =>
    owes_eq_zero (h.tasks .factory w (Option.mem_toList.1 hw))
  rw [SidecarHost.owed, List.map_congr_left (g := fun _ => 0) hruntimes,
    List.map_congr_left (g := fun _ => 0) hfactory]
  simp

/-- **Exactly one correlated result per command**: in every run of a host, in every state in which no
task of a backend is pending and no result is deferred, as many results are enqueued for an id as
commands were handled with it, if all results fit into frames, and each of them carries the id. -/
theorem run_one_result {as : List HostAct} {factoryBackend : Bool}
    (htyped : ∀ a ∈ as, isTyped parseDouble a = true)
    (h : (machine parseDouble pluginType).run (afterStart factoryBackend) as = some s)
    (hfit : ∀ f ∈ results s.queues.dispatcher.history.returned,
      f.payload.length ≤ kMaxPayloadSize.toNat)
    (hs : s.Settled) (hid : id ≠ 0) :
    s.queues.dispatcher.history.accepted.countP (isResultFor id) =
        s.handled.countP (commandId · = some id) ∧
      ∀ f ∈ s.queues.dispatcher.history.accepted, isResultFor id f → Carries id f := by
  have hl : Ledger id s := run_ledger hid htyped h
  have hbooks := hl.sound.books
  have hall : results s.queues.dispatcher.history.accepted = results s.queues.dispatcher.history.returned :=
    hbooks.enqueued.trans (List.filter_eq_self.2 fun f hf => by simpa using hfit f hf)
  have hcount : ∀ l, l.countP (isResultFor id) = (results l).countP (·.correlationId = id) := fun l => by
    rw [results, List.countP_filter]
    exact List.countP_congr fun f _ => by simp [isResultFor, and_comm]
  have hearly : s.thread.early id = 0 := by
    by_contra hne
    obtain ⟨d, hd, -⟩ := hl.early hne
    simp [hs.deferred.1] at hd
  refine ⟨?_, fun f hf hr => ?_⟩
  · have hb := hl.balance
    rw [due, hs.owed, deferred, hs.deferred.1, hs.deferred.2, hearly] at hb
    rw [hcount, hall, ← hcount]
    exact hb
  · simp only [isResultFor, Bool.and_eq_true, decide_eq_true_eq] at hr
    have hmem : f ∈ results s.queues.dispatcher.history.returned :=
      hall ▸ List.mem_filter.2 ⟨hf, hr.1⟩
    obtain ⟨result, now, he⟩ := (hbooks.made f (List.mem_filter.1 hmem).1).result hr.1
    have hc := frame_carries result f.origin now
    rw [← he, show result.id = id from by rw [← hr.2, he]; exact (frame_response _ _ _).2.2.symm] at hc
    exact hc

/-- A command is queued when its instance is removed, and a second one finds no instance. -/
theorem run_one_result_removed :
    let frame (command : String) (payload : String) (correlationId : CorrelationId) : HostAct :=
      .receive { type := MessageType.Request.raw, correlationId }
        (lit "\x7b\"command\":" ++ lit command ++ lit ",\"payload\":\x7b\"externalId\":\"x\"" ++
          lit payload ++ lit "\x7d\x7d") {} 1 {}
    let worker (a : WorkerAct) : HostAct := .worker (.runtime 0) a
    let as := [frame "258" "" 1, worker .take, worker .finish, .starting (some true),
      frame "513" "" 7, frame "259" "" 2, worker .take, worker .finish, worker .take,
      worker (.sendResult (.cmd { id := 7 }) 1), worker .finish, worker .take, worker .finish,
      .stopping true, worker .exit, .joining, frame "513" "" 7, .drainBegin, .drainNext 1 {}]
    ∃ s, (machine (fun _ => none) []).run (afterStart true) as = some s ∧
      s.queues.dispatcher.history.accepted.countP (isResultFor 7) = 2 ∧
      s.handled.countP (commandId · = some 7) = 2 ∧
      ∀ f ∈ s.queues.dispatcher.history.accepted, isResultFor 7 f → Carries 7 f := by
  intro frame worker as
  let look (s : SidecarHost) : Bool × Bool × Bool × Bool × Nat :=
    (s.instances.all (·.backend.pending.isEmpty), s.factory.all (·.backend.pending.isEmpty),
      s.queues.resultQueue.isEmpty && s.queues.draining.isEmpty,
      (results s.queues.dispatcher.history.returned).all (·.payload.length ≤ kMaxPayloadSize.toNat),
      s.handled.countP (commandId · = some 7))
  have hrun : ((machine (fun _ => none) []).run (afterStart true) as).map look =
      some (true, true, true, true, 2) := by decide +kernel
  obtain ⟨s, hs, hlook⟩ := Option.map_eq_some_iff.1 hrun
  simp only [look, Prod.mk.injEq, List.all_eq_true, Option.all_eq_true, Bool.and_eq_true,
    List.isEmpty_iff, decide_eq_true_eq] at hlook
  obtain ⟨hinstances, hfactory, hdeferred, hfit, hhandled⟩ := hlook
  have htasks : ∀ th w, s.worker th = some w → w.backend.pending = [] := by
    intro th w hw
    cases th with
    | factory => exact hfactory w hw
    | runtime i => exact hinstances w (List.mem_of_getElem? hw)
  have hid : (7 : CmdId) ≠ 0 := by decide
  obtain ⟨hcount, hcarries⟩ := run_one_result (by decide +kernel) hs hfit ⟨htasks, hdeferred⟩ hid
  exact ⟨s, hs, hcount.trans hhandled, hhandled, hcarries⟩

end SidecarHost

end Phi.Host
