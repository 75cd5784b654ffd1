import PhiSidecar.Host.Results

/-!
# Replies (`sidecar.cpp`: `sendResult`, `SidecarHost::wireHandlers` `onBootstrap`)

A result that `sendResult` accepts waits in the deferred queue for the next drain; the descriptor that
answers a bootstrap is sent by the task that runs the hook. A payload that no frame can carry is
refused by the dispatcher, which the host reports (`drain_oversize`).

* `reply_enqueued`: **while the dispatcher stays started, a drain enqueues every accepted result, and a
  bootstrap task whose hooks return enqueues its descriptor: exactly one response with the id of the
  reply, if its payload fits into a frame; a reply that does not fit is not enqueued and is reported**.
-/

set_option autoImplicit false

namespace Phi.Host

open Phi.V1 Phi.Wire Phi.Dispatcher

/-! ## `sendResult` -/

def notBoundText : CommandResult → Utf8String
  | .cmd _ => lit "Command result submitter not bound"
  | .action _ => lit "Action result submitter not bound"

def zeroIdText : CommandResult → Utf8String
  | .cmd _ => lit "CmdResponse.id must be > 0"
  | .action _ => lit "ActionResponse.id must be > 0"

/-- `AdapterInstance::sendResult`; `bound`: its submitter is set. -/
def AdapterInstance.sendResult (s : HostQueues) (bound : Bool) (caller : Caller)
    (result : CommandResult) (now : Int64) : HostQueues × Except Utf8String Unit :=
  if !bound then (s, .error (notBoundText result))
  else if result.id = 0 then (s, .error (zeroIdText result))
  else (s.queueDeferredResult caller result now, .ok ())

/-- `AdapterFactory::sendResult`. -/
def AdapterFactory.sendResult (s : HostQueues) (bound : Bool) (caller : Caller)
    (response : ActionResponse) (now : Int64) : HostQueues × Except Utf8String Unit :=
  if !bound then (s, .error (lit "Factory action result submitter not bound"))
  else if response.id = 0 then (s, .error (lit "ActionResponse.id must be > 0"))
  else (s.queueDeferredResult caller (.action response) now, .ok ())

namespace HostQueues

/-- A `sendResult` has returned true. -/
inductive Accepts (s : HostQueues) (caller : Caller) (now : Int64) :
    CommandResult → HostQueues → Prop
  | ofInstance {bound : Bool} {result : CommandResult} {t : HostQueues}
      (h : AdapterInstance.sendResult s bound caller result now = (t, .ok ())) :
      Accepts s caller now result t
  | ofFactory {bound : Bool} {response : ActionResponse} {t : HostQueues}
      (h : AdapterFactory.sendResult s bound caller response now = (t, .ok ())) :
      Accepts s caller now (.action response) t

theorem Accepts.queued {s t : HostQueues} {caller : Caller} {now : Int64} {result : CommandResult}
    (h : s.Accepts caller now result t) :
    result.id ≠ 0 ∧ t = s.queueDeferredResult caller result now := by
  cases h with
  | ofInstance h =>
    unfold AdapterInstance.sendResult at h
    split_ifs at h with hb hid
    · cases h
    · cases h
    · cases h
      exact ⟨hid, rfl⟩
  | ofFactory h =>
    unfold AdapterFactory.sendResult at h
    split_ifs at h with hb hid
    · cases h
    · cases h
    · cases h
      exact ⟨hid, rfl⟩

/-! ## The answer to a bootstrap -/

def bootstrapDescriptor (request : BootstrapRequest) (descriptor : AdapterDescriptor) :
    AdapterDescriptor :=
  if descriptor.pluginType = [] then { descriptor with pluginType := request.adapter.pluginType }
  else descriptor

def bootstrapReply (request : BootstrapRequest) (descriptor : AdapterDescriptor) : Outbound :=
  .adapterDescriptor [] (bootstrapDescriptor request descriptor) request.correlationId

/-- The rest of the task `respond` once its hooks are done. `descriptor` is what `hostDescriptor()`
has returned; a hook that throws ends the task. -/
def respond (s : HostQueues) (caller : Caller) (request : BootstrapRequest)
    (descriptor : Option AdapterDescriptor) (now : Int64) (clock : Clock) : HostQueues :=
  match descriptor with
  | none => s
  | some descriptor =>
    match s.call caller (bootstrapReply request descriptor) now clock with
    | (s, .ok ()) => s
    | (s, .error err) => s.reportProtocolError (lit "Failed to send bootstrap descriptor: " ++ err)

theorem respond_none (s : HostQueues) (caller : Caller) (request : BootstrapRequest) (now : Int64)
    (clock : Clock) : s.respond caller request none now clock = s := rfl

/-! ## What becomes of a response -/

def oversizeText (size : Nat) : Utf8String :=
  lit "outbound payload exceeds kMaxPayloadSize (" ++ toStringU size ++ lit " > " ++
    toStringU kMaxPayloadSize.toNat ++ lit " bytes)"

end HostQueues

end Phi.Host

namespace Phi.Dispatcher.SidecarDispatcher

open Phi.V1 Phi.Wire

/-- A started dispatcher refuses a response for its size only. -/
theorem queueOutboundFrame_result {τ : Type} {s : SidecarDispatcher τ} {frame : OutboundFrame τ}
    (clock : Clock) (hs : s.started = true) (hp : frame.payload ≠ []) (ht : frame.type ≠ .Event) :
    (s.queueOutboundFrame frame clock).2 =
      if frame.payload.length ≤ kMaxPayloadSize.toNat then .ok ()
      else .error (Host.HostQueues.oversizeText frame.payload.length) := by
  have hacc := queueOutboundFrame_response clock hs hp ht
  by_cases hfit : frame.payload.length ≤ kMaxPayloadSize.toNat
  · rw [if_pos hfit] at hacc ⊢
    rcases s.queueOutboundFrame_accepted frame clock with ⟨hr, -⟩ | ⟨-, ha⟩
    · exact hr
    · rw [ha] at hacc
      simp at hacc
  · rw [if_neg hfit]
    unfold queueOutboundFrame
    have hc : s.checkOutbound frame clock.check = some (s.hostStderrLine (oversizeLine frame),
        Host.HostQueues.oversizeText frame.payload.length) := by
      simp [checkOutbound, hs, hp, Nat.not_le.1 hfit, Host.HostQueues.oversizeText]
    rw [hc]

end Phi.Dispatcher.SidecarDispatcher

namespace Phi.Host.HostQueues

open Phi.V1 Phi.Wire Phi.Dispatcher

/-- The frames enqueued by the call with a number. -/
def enqueued (s : HostQueues) (n : Nat) : List (OutboundFrame Origin) :=
  s.dispatcher.history.accepted.filter (·.origin.seq = n)

/-- What has become of the response `f` of the call `n`. -/
structure Answered (s : HostQueues) (n : Nat) (f : OutboundFrame Origin) (failed : Utf8String) :
    Prop where
  enqueued : s.enqueued n = if f.payload.length ≤ kMaxPayloadSize.toNat then [f] else []
  reported : kMaxPayloadSize.toNat < f.payload.length →
    failed ++ oversizeText f.payload.length ∈ s.reports

variable {s t u : HostQueues} {a : QueueAct} {d : DeferredResult} {n : Nat}

/-- No call has a later number than the next one. -/
structure Numbered (s : HostQueues) : Prop where
  accepted : ∀ f ∈ s.dispatcher.history.accepted, f.origin.seq < s.seq
  deferred : ∀ d ∈ s.draining ++ s.resultQueue, d.seq < s.seq

/-- What a response does to the dispatcher. -/
theorem enqueue_other (f : OutboundFrame Origin) (clock : Clock) (h : f.origin.seq ≠ n) :
    (s.dispatcher.queueOutboundFrame f clock).1.history.accepted.filter (·.origin.seq = n) =
      s.enqueued n := by
  rcases s.dispatcher.queueOutboundFrame_accepted f clock with ⟨-, ha⟩ | ⟨-, ha⟩
  · rw [ha, List.filter_append]
    simp [enqueued, h]
  · rw [ha]
    rfl

theorem Numbered.enqueue (hs : s.Numbered) {f : OutboundFrame Origin} (hf : f.origin.seq < n)
    (hn : s.seq ≤ n) (clock : Clock) : ∀ g ∈
      (s.dispatcher.queueOutboundFrame f clock).1.history.accepted, g.origin.seq < n := by
  intro g hg
  rcases s.dispatcher.queueOutboundFrame_accepted f clock with ⟨-, ha⟩ | ⟨-, ha⟩
  · rw [ha] at hg
    rcases List.mem_append.1 hg with hg | hg
    · exact Nat.lt_of_lt_of_le (hs.accepted g hg) hn
    · rw [List.mem_singleton.1 hg]
      exact hf
  · rw [ha] at hg
    exact Nat.lt_of_lt_of_le (hs.accepted g hg) hn

theorem Numbered.init : Numbered {} := ⟨by simp, by simp⟩

theorem Numbered.step (hs : s.Numbered) (h : s.step a = some t) : t.Numbered := by
  cases a with
  | sendResult caller result now =>
    cases h
    refine ⟨fun f hf => Nat.lt_succ_of_lt (hs.accepted f hf), ?_⟩
    intro e he
    simp only [queueDeferredResult, ← List.append_assoc, List.mem_append, List.mem_singleton] at he
    rcases he with he | rfl
    · exact Nat.lt_succ_of_lt (hs.deferred e (List.mem_append.2 he))
    · exact Nat.lt_succ_self _
  | call caller call now clock =>
    cases h
    refine ⟨hs.enqueue ?_ (Nat.le_succ _) clock, fun e he => Nat.lt_succ_of_lt (hs.deferred e he)⟩
    rw [Outbound.frame_origin]
    exact Nat.lt_succ_self _
  | drainBegin =>
    obtain ⟨hd, h⟩ := Option.ite_none_right_eq_some.1 h
    cases h
    refine ⟨hs.accepted, ?_⟩
    intro e he
    apply hs.deferred
    simpa [HostQueues.drainBegin, List.isEmpty_iff.1 hd] using he
  | drainNext now clock =>
    simp only [HostQueues.step] at h
    split at h
    · cases h
    · next d rest hd =>
      cases h
      have hlater : ∀ e ∈ rest ++ s.resultQueue, e.seq < s.seq := by
        intro e he
        apply hs.deferred
        rw [hd]
        exact List.mem_cons_of_mem d he
      have hseq : d.seq < s.seq := hs.deferred d (by simp [hd])
      rcases drainResult_cases { s with draining := rest } d now clock with ⟨-, he⟩ | ⟨-, _, he⟩
      · rw [he]
        exact ⟨hs.accepted, hlater⟩
      · rw [he]
        refine ⟨?_, hlater⟩
        apply hs.enqueue _ (Nat.le_refl _)
        rw [CommandResult.frame_origin]
        exact hseq
  | net a =>
    obtain ⟨e, he, rfl⟩ := Option.map_eq_some_iff.1 h
    refine ⟨?_, hs.deferred⟩
    rw [net_accepted he]
    exact hs.accepted

theorem run_numbered {as : List QueueAct} (h : machine.run {} as = some s) : s.Numbered :=
  Lts.Machine.run_inv (fun _ _ _ hs h => hs.step h) .init h

/-! ## From the deferred queue to the send queue -/

/-- Where an accepted result is. -/
inductive Stage (d : DeferredResult) (s : HostQueues) : Prop
  | queued (queue : s.resultQueue.filter (·.seq = d.seq) = [d])
      (drain : s.draining.filter (·.seq = d.seq) = []) (sent : s.enqueued d.seq = [])
  | draining (queue : s.resultQueue.filter (·.seq = d.seq) = [])
      (drain : s.draining.filter (·.seq = d.seq) = [d]) (sent : s.enqueued d.seq = [])
  | done (queue : s.resultQueue.filter (·.seq = d.seq) = [])
      (drain : s.draining.filter (·.seq = d.seq) = []) (now : Int64)
      (answered : s.Answered d.seq (d.result.frame d.origin now) (failedText d.result))

/-- A step that leaves the result where it is. -/
theorem Stage.congr (hd : Stage d s)
    (hq : t.resultQueue.filter (·.seq = d.seq) = s.resultQueue.filter (·.seq = d.seq))
    (hl : t.draining.filter (·.seq = d.seq) = s.draining.filter (·.seq = d.seq))
    (he : t.enqueued d.seq = s.enqueued d.seq) (hr : s.reports ⊆ t.reports) : Stage d t := by
  rcases hd with ⟨h1, h2, h3⟩ | ⟨h1, h2, h3⟩ | ⟨h1, h2, now', h3⟩
  · exact .queued (hq.trans h1) (hl.trans h2) (he.trans h3)
  · exact .draining (hq.trans h1) (hl.trans h2) (he.trans h3)
  · exact .done (hq.trans h1) (hl.trans h2) now' ⟨he.trans h3.enqueued, fun h => hr (h3.reported h)⟩

theorem drainResult_reports (s : HostQueues) (e : DeferredResult) (now : Int64) (clock : Clock) :
    s.reports ⊆ (s.drainResult e now clock).reports := by
  unfold drainResult
  split_ifs
  · exact List.subset_append_left _ _
  · split
    · exact List.Subset.refl _
    · exact List.subset_append_left _ _

/-- A round of the drain for another result. -/
theorem drainResult_other (e : DeferredResult) (now : Int64) (clock : Clock) (h : e.seq ≠ n) :
    (s.drainResult e now clock).enqueued n = s.enqueued n := by
  rcases drainResult_cases s e now clock with ⟨-, he⟩ | ⟨-, _, he⟩
  · rw [he]
    rfl
  · rw [he]
    apply enqueue_other
    rw [CommandResult.frame_origin]
    exact h

/-- What the dispatcher does with the response of a call, the first with its number. -/
theorem enqueue_response {f : OutboundFrame Origin} {clock : Clock} {e : SidecarDispatcher Origin}
    {r : Except Utf8String Unit} (hstarted : s.dispatcher.started = true) (hp : f.payload ≠ [])
    (ht : f.type ≠ .Event) (hn : f.origin.seq = n) (hnone : s.enqueued n = [])
    (he : s.dispatcher.queueOutboundFrame f clock = (e, r)) :
    e.history.accepted.filter (·.origin.seq = n) =
        (if f.payload.length ≤ kMaxPayloadSize.toNat then [f] else []) ∧
      r = if f.payload.length ≤ kMaxPayloadSize.toNat then .ok ()
        else .error (oversizeText f.payload.length) := by
  have hres := SidecarDispatcher.queueOutboundFrame_result clock hstarted hp ht
  have hacc := SidecarDispatcher.queueOutboundFrame_response clock hstarted hp ht
  rw [he] at hres hacc
  refine ⟨?_, hres⟩
  have hnone : s.dispatcher.history.accepted.filter (·.origin.seq = n) = [] := hnone
  rw [show e.history.accepted = _ from hacc, List.filter_append, hnone]
  split_ifs
  · simp [hn]
  · rfl

/-- The round for the result itself. -/
theorem drainResult_answered (hstarted : s.dispatcher.started = true) (hid : d.id ≠ 0)
    (hnone : s.enqueued d.seq = []) (now : Int64) (clock : Clock) :
    (s.drainResult d now clock).Answered d.seq (d.result.frame d.origin now)
      (failedText d.result) := by
  obtain ⟨hp, ht, -⟩ := frame_response d.result d.origin now
  have hn : (d.result.frame d.origin now).origin.seq = d.seq :=
    congrArg Origin.seq (CommandResult.frame_origin d.result d.origin now)
  obtain ⟨e, r, he⟩ : ∃ e r, s.dispatcher.queueOutboundFrame (d.result.frame d.origin now) clock =
    (e, r) := ⟨_, _, rfl⟩
  obtain ⟨hfilter, hr⟩ := enqueue_response hstarted hp ht hn hnone he
  unfold drainResult
  rw [if_neg hid, he]
  by_cases hfit : (d.result.frame d.origin now).payload.length ≤ kMaxPayloadSize.toNat
  · rw [if_pos hfit] at hr
    subst hr
    exact ⟨hfilter, fun hover => absurd hfit (Nat.not_le.2 hover)⟩
  · rw [if_neg hfit] at hr
    subst hr
    exact ⟨hfilter, fun _ => List.mem_append_right _ (List.mem_singleton.2 rfl)⟩

theorem Stage.step (hd : Stage d s) (hid : d.id ≠ 0) (hn : d.seq < s.seq)
    (hstarted : s.dispatcher.started = true) (h : s.step a = some t) : Stage d t := by
  have hne : s.seq ≠ d.seq := Nat.ne_of_gt hn
  cases a with
  | sendResult caller result now =>
    cases h
    refine hd.congr ?_ rfl rfl (List.Subset.refl _)
    simp [queueDeferredResult, hne]
  | call caller call now clock =>
    cases h
    refine hd.congr rfl rfl ?_ (List.Subset.refl _)
    apply enqueue_other
    rw [Outbound.frame_origin]
    exact hne
  | drainBegin =>
    obtain ⟨he, h⟩ := Option.ite_none_right_eq_some.1 h
    cases h
    have hnil : s.draining = [] := List.isEmpty_iff.1 he
    rcases hd with ⟨h1, h2, h3⟩ | ⟨h1, h2, h3⟩ | ⟨h1, h2, now', h3⟩
    · exact .draining rfl h1 h3
    · simp [hnil] at h2
    · exact .done rfl h1 now' ⟨h3.enqueued, h3.reported⟩
  | drainNext now clock =>
    simp only [HostQueues.step] at h
    split at h
    · cases h
    · next e rest hrest =>
      cases h
      have hqueue : (({ s with draining := rest }.drainResult e now clock).resultQueue = s.resultQueue)
          ∧ ({ s with draining := rest }.drainResult e now clock).draining = rest := by
        rcases drainResult_cases { s with draining := rest } e now clock with ⟨-, h⟩ | ⟨-, _, h⟩
        all_goals
          rw [h]
          exact ⟨rfl, rfl⟩
      have hreports := drainResult_reports { s with draining := rest } e now clock
      by_cases heq : e.seq = d.seq
      · -- the front has the number of the result, so it is the result
        rcases hd with ⟨h1, h2, h3⟩ | ⟨h1, h2, h3⟩ | ⟨h1, h2, now', h3⟩
        · simp [hrest, heq] at h2
        · rw [hrest, List.filter_cons_of_pos (by simpa using heq)] at h2
          obtain ⟨rfl, hnone⟩ := List.cons.inj h2
          refine .done ?_ ?_ now ?_
          · rw [hqueue.1]
            exact h1
          · rw [hqueue.2]
            exact hnone
          · exact drainResult_answered (s := { s with draining := rest }) hstarted hid h3 now clock
        · simp [hrest, heq] at h2
      · refine hd.congr (by rw [hqueue.1]) ?_ (drainResult_other e now clock heq) hreports
        rw [hqueue.2, hrest, List.filter_cons_of_neg (by simpa using heq)]
  | net a =>
    obtain ⟨e, he, rfl⟩ := Option.map_eq_some_iff.1 h
    refine hd.congr rfl rfl ?_ (List.Subset.refl _)
    simp only [enqueued, net_accepted he]

/-- The dispatcher is started when the step is taken. -/
def Started (s : HostQueues) (_ : QueueAct) : Prop := s.dispatcher.started = true

theorem step_seq (h : s.step a = some t) : s.seq ≤ t.seq := by
  cases a with
  | sendResult caller result now => cases h; exact Nat.le_succ _
  | call caller call now clock => cases h; exact Nat.le_succ _
  | drainBegin =>
    obtain ⟨-, h⟩ := Option.ite_none_right_eq_some.1 h
    cases h; exact Nat.le_refl _
  | drainNext now clock =>
    simp only [HostQueues.step] at h
    split at h
    · cases h
    · next e rest _ =>
      cases h
      rcases drainResult_cases { s with draining := rest } e now clock with ⟨-, h⟩ | ⟨-, _, h⟩
      all_goals exact Nat.le_of_eq (congrArg HostQueues.seq h).symm
  | net a =>
    obtain ⟨e, -, rfl⟩ := Option.map_eq_some_iff.1 h
    exact Nat.le_refl _

/-- The result is where it can be, and its call is over. -/
def Tracked (d : DeferredResult) (s : HostQueues) : Prop := Stage d s ∧ d.seq < s.seq

theorem run_tracked {as : List QueueAct} (hd : Tracked d s) (hid : d.id ≠ 0)
    (hs : machine.Along Started s as) (h : machine.run s as = some t) : Tracked d t := by
  refine Lts.Machine.along_inv ?_ hd hs h
  intro s a t hd hs h
  exact ⟨hd.1.step hid hd.2 hs h, Nat.lt_of_lt_of_le hd.2 (step_seq h)⟩

/-- A result that is not in the deferred queue will not be again. -/
theorem run_left {as : List QueueAct} (hd : Tracked d s) (hid : d.id ≠ 0)
    (hq : s.resultQueue.filter (·.seq = d.seq) = []) (hs : machine.Along Started s as)
    (h : machine.run s as = some t) :
    Tracked d t ∧ t.resultQueue.filter (·.seq = d.seq) = [] := by
  refine Lts.Machine.along_inv (I := fun s => Tracked d s ∧ s.resultQueue.filter (·.seq = d.seq) = [])
    ?_ ⟨hd, hq⟩ hs h
  rintro s a t ⟨hd, hq⟩ hs h
  refine ⟨⟨hd.1.step hid hd.2 hs h, Nat.lt_of_lt_of_le hd.2 (step_seq h)⟩, ?_⟩
  cases a with
  | sendResult caller result now =>
    cases h
    have hne : s.seq ≠ d.seq := Nat.ne_of_gt hd.2
    simp [queueDeferredResult, hq, hne]
  | call caller call now clock => cases h; exact hq
  | drainBegin =>
    simp only [machine, HostQueues.step] at h
    split at h
    · cases h; rfl
    · cases h
  | drainNext now clock =>
    simp only [machine, HostQueues.step] at h
    split at h
    · cases h
    · next e rest _ =>
      cases h
      rcases drainResult_cases { s with draining := rest } e now clock with ⟨-, he⟩ | ⟨-, _, he⟩
      all_goals
        rw [he]
        exact hq
  | net a =>
    obtain ⟨e, -, rfl⟩ := Option.map_eq_some_iff.1 h
    exact hq

/-- What an accepted result adds to the deferred queue. -/
theorem Accepts.tracked {caller : Caller} {now : Int64} {result : CommandResult} (hs : s.Numbered)
    (h : s.Accepts caller now result t) :
    Tracked ⟨normalizeResult now result, caller, s.seq⟩ t := by
  obtain ⟨-, rfl⟩ := h.queued
  have hfresh : ∀ e ∈ s.draining ++ s.resultQueue, ¬decide (e.seq = s.seq) = true := by
    intro e he
    simpa using Nat.ne_of_lt (hs.deferred e he)
  refine ⟨.queued ?_ ?_ ?_, Nat.lt_succ_self _⟩
  · have hnone : s.resultQueue.filter (·.seq = s.seq) = [] :=
      List.filter_eq_nil_iff.2 fun e he => hfresh e (List.mem_append_right _ he)
    simp [queueDeferredResult, hnone]
  · exact List.filter_eq_nil_iff.2 fun e he => hfresh e (List.mem_append_left _ he)
  · refine List.filter_eq_nil_iff.2 fun f hf => ?_
    simpa using Nat.ne_of_lt (hs.accepted f hf)

theorem failedText_normalizeResult (now : Int64) (result : CommandResult) :
    failedText (normalizeResult now result) = failedText result := by
  cases result <;> rfl

/-- A drain that has begun after the result was accepted, and is over, has dealt with it. -/
theorem drain_answered {as bs cs : List QueueAct} {caller : Caller} {now : Int64}
    {result : CommandResult} (hrun : machine.run {} as = some s)
    (hsend : s.Accepts caller now result t)
    (hstarted : machine.Along Started t (bs ++ .drainBegin :: cs))
    (hdrain : machine.run t (bs ++ .drainBegin :: cs) = some u) (hdone : u.draining = []) :
    ∃ now', let d : DeferredResult := ⟨normalizeResult now result, caller, s.seq⟩
      u.Answered s.seq (d.result.frame d.origin now') (failedText result) := by
  have hid : (normalizeResult now result).id ≠ 0 := by
    rw [normalizeResult_id]
    exact hsend.queued.1
  obtain ⟨r, hr, hu⟩ := Lts.Machine.run_append_some hdrain
  obtain ⟨hbs, hcs⟩ := hstarted.append hr
  have htr := run_tracked (hsend.tracked (run_numbered hrun)) hid hbs hr
  obtain ⟨v, hv, hu⟩ := Lts.Machine.run_cons_some hu
  have hv : r.step .drainBegin = some v := hv
  have htv : Tracked _ v := ⟨htr.1.step hid htr.2 hcs.1 hv, Nat.lt_of_lt_of_le htr.2 (step_seq hv)⟩
  have hq : v.resultQueue = [] := by
    obtain ⟨-, hv⟩ := Option.ite_none_right_eq_some.1 hv
    cases hv; rfl
  obtain ⟨⟨hstage, -⟩, hqu⟩ := run_left htv hid (by rw [hq]; rfl) (hcs.2 v hv) hu
  rcases hstage with ⟨h1, -, -⟩ | ⟨-, h2, -⟩ | ⟨-, -, now', h3⟩
  · cases h1.symm.trans hqu
  · rw [hdone] at h2
    cases h2
  · exact ⟨now', failedText_normalizeResult now result ▸ h3⟩

/-- The task of a bootstrap whose hooks return. -/
theorem respond_answered {as : List QueueAct} (hrun : machine.run {} as = some s)
    (hstarted : s.dispatcher.started = true) (caller : Caller) (request : BootstrapRequest)
    (descriptor : AdapterDescriptor) (now : Int64) (clock : Clock) :
    (s.respond caller request (some descriptor) now clock).Answered s.seq
      ((bootstrapReply request descriptor).frame
        ⟨caller, s.seq, bootstrapReply request descriptor⟩ now)
      (lit "Failed to send bootstrap descriptor: ") := by
  obtain ⟨f, hf⟩ : ∃ f : OutboundFrame Origin, f = (bootstrapReply request descriptor).frame
    ⟨caller, s.seq, bootstrapReply request descriptor⟩ now := ⟨_, rfl⟩
  have hp : f.payload ≠ [] := hf ▸ closeEnvelope_ne_nil _
  have hresponse : f.type = .Response := by rw [hf]; rfl
  have ht : f.type ≠ .Event := by rw [hresponse]; decide
  have hnone : s.enqueued s.seq = [] := by
    refine List.filter_eq_nil_iff.2 fun g hg => ?_
    simpa using Nat.ne_of_lt ((run_numbered hrun).accepted g hg)
  have hn : f.origin.seq = s.seq := by rw [hf, Outbound.frame_origin]
  obtain ⟨e, r, he⟩ : ∃ e r, s.dispatcher.queueOutboundFrame f clock = (e, r) := ⟨_, _, rfl⟩
  obtain ⟨hfilter, hr⟩ := enqueue_response hstarted hp ht hn hnone he
  rw [← hf]
  simp only [respond, call, ← hf, he]
  by_cases hfit : f.payload.length ≤ kMaxPayloadSize.toNat
  · rw [if_pos hfit] at hr
    subst hr
    exact ⟨hfilter, fun hover => absurd hfit (Nat.not_le.2 hover)⟩
  · rw [if_neg hfit] at hr
    subst hr
    exact ⟨hfilter, fun _ => List.mem_append_right _ (List.mem_singleton.2 rfl)⟩

/-- **A committed reply reaches the send queue if a frame can carry it**, while the dispatcher stays
started. For an accepted result: whatever happens between, once a drain that begins after it is over,
the response with its id has been enqueued exactly once. For a bootstrap whose hooks return: so has its
descriptor when the task is done. A reply that is too long is not enqueued, and its size is reported. -/
theorem reply_enqueued :
    (∀ {as bs cs : List QueueAct} {s t u : HostQueues} {caller : Caller} {now : Int64}
        {result : CommandResult}, machine.run {} as = some s → s.Accepts caller now result t →
      machine.Along Started t (bs ++ .drainBegin :: cs) →
      machine.run t (bs ++ .drainBegin :: cs) = some u → u.draining = [] →
      ∃ now', let d : DeferredResult := ⟨normalizeResult now result, caller, s.seq⟩
        let f := d.result.frame d.origin now'
        f.type = .Response ∧ f.correlationId = result.id ∧ u.Answered s.seq f (failedText result)) ∧
    ∀ {as : List QueueAct} {s : HostQueues}, machine.run {} as = some s →
      s.dispatcher.started = true → ∀ (caller : Caller) (request : BootstrapRequest)
        (descriptor : AdapterDescriptor) (now : Int64) (clock : Clock),
      let reply := bootstrapReply request descriptor
      let f := reply.frame ⟨caller, s.seq, reply⟩ now
      f.type = .Response ∧ f.correlationId = request.correlationId ∧
        (s.respond caller request (some descriptor) now clock).Answered s.seq f
          (lit "Failed to send bootstrap descriptor: ") := by
  constructor
  · intro as bs cs s t u caller now result hrun hsend hstarted hdrain hdone
    obtain ⟨now', h⟩ := drain_answered hrun hsend hstarted hdrain hdone
    obtain ⟨htype, hid, -⟩ := frame_carries (normalizeResult now result)
      ⟨caller, s.seq, (normalizeResult now result).outbound⟩ now'
    exact ⟨now', htype, hid.trans (normalizeResult_id now result), h⟩
  · intro as s hrun hstarted caller request descriptor now clock
    exact ⟨rfl, rfl, respond_answered hrun hstarted caller request descriptor now clock⟩

/-- A short result and a bootstrap, on a dispatcher that has just started. -/
theorem reply_enqueued_short :
    ∃ s t u now', machine.run {} [.net (.start (.ok ()))] = some s ∧
      s.Accepts (.worker 0) 1 (.cmd { id := 7 }) t ∧
      machine.run t ([] ++ .drainBegin :: [.drainNext 1 {}]) = some u ∧
      u.Answered s.seq (CommandResult.frame
        ⟨.worker 0, s.seq, (normalizeResult 1 (.cmd { id := 7 })).outbound⟩ now'
        (normalizeResult 1 (.cmd { id := 7 }))) (lit "Failed to send command result: ") ∧
      (s.respond .host {} (some {}) 1 {}).Answered s.seq
        ((bootstrapReply {} {}).frame ⟨.host, s.seq, bootstrapReply {} {}⟩ 1)
        (lit "Failed to send bootstrap descriptor: ") := by
  let s : HostQueues := { dispatcher := { started := true } }
  have hs : machine.run {} [.net (.start (.ok ()))] = some s := rfl
  have hsend : s.Accepts (.worker 0) 1 (.cmd { id := 7 })
      (s.queueDeferredResult (.worker 0) (.cmd { id := 7 }) 1) := @Accepts.ofInstance s (.worker 0) 1 true _ _ rfl
  have hrun : ((machine.run (s.queueDeferredResult (.worker 0) (.cmd { id := 7 }) 1)
      [.drainBegin, .drainNext 1 {}]).map fun u => u.draining.isEmpty) = some true := by
    decide +kernel
  obtain ⟨u, hu, hempty⟩ := Option.map_eq_some_iff.1 hrun
  have hstarted : machine.Along Started (s.queueDeferredResult (.worker 0) (.cmd { id := 7 }) 1)
      ([] ++ .drainBegin :: [.drainNext 1 {}]) := by
    refine ⟨rfl, fun t ht => ?_⟩
    cases ht
    exact ⟨rfl, fun _ _ => trivial⟩
  obtain ⟨now', -, -, hanswer⟩ :=
    reply_enqueued.1 hs hsend hstarted hu (List.isEmpty_iff.1 hempty)
  obtain ⟨-, -, hboot⟩ := reply_enqueued.2 hs rfl .host {} {} 1 {}
  exact ⟨s, _, u, now', hs, hsend, hu, hanswer, hboot⟩

/-! ## A reply that is too long -/

theorem length_le_jsonQuoted (text : Bytes) : text.length ≤ (jsonQuoted text).length := by
  have hchar : ∀ ch : UInt8, 1 ≤ (quotedChar ch).length := by
    intro ch
    unfold quotedChar
    split_ifs <;> simp
  have hflat : text.length ≤ (text.flatMap quotedChar).length := by
    induction text with
    | nil => exact Nat.le_refl _
    | cons ch text ih =>
      rw [List.flatMap_cons, List.length_append, List.length_cons]
      have := hchar ch
      omega
  rw [jsonQuoted, List.length_cons, List.length_append]
  omega

theorem length_le_field (o : Out) (key : String) (value : Bytes) :
    o.out.length ≤ (o.field key value).out.length ∧
      value.length ≤ (o.field key value).out.length := by
  simp only [Out.field, appendFieldPrefix, List.length_append]
  omega

/-- The payload of a command result is longer than its error text. -/
theorem length_error_lt (response : CmdResponse) (now : Int64) :
    response.error.length < (cmdResultJson response now).length := by
  have hclose : ∀ o : Out, o.out.length < (closeEnvelope o).length := by
    intro o
    simp [closeEnvelope, lit]
  refine Nat.lt_of_le_of_lt ?_ (hclose _)
  iterate 4 refine Nat.le_trans ?_ (length_le_field _ _ _).1
  exact Nat.le_trans (length_le_jsonQuoted response.error) (length_le_field _ _ _).2

/-- A started dispatcher drops a result that is too long for a frame. -/
theorem drainResult_oversize (hstarted : s.dispatcher.started = true)
    (hover : ∀ now, kMaxPayloadSize.toNat < (d.result.frame d.origin now).payload.length)
    (now : Int64) (clock : Clock) :
    (s.drainResult d now clock).dispatcher.started = true ∧
      (s.drainResult d now clock).draining = s.draining ∧
      (s.drainResult d now clock).dispatcher.history.accepted = s.dispatcher.history.accepted := by
  rcases drainResult_cases s d now clock with ⟨-, he⟩ | ⟨-, _, he⟩
  · rw [he]
    exact ⟨hstarted, rfl, rfl⟩
  · obtain ⟨hp, ht, -⟩ := frame_response d.result d.origin now
    have hacc := SidecarDispatcher.queueOutboundFrame_response clock hstarted hp ht
    rw [if_neg (Nat.not_le.2 (hover now)), List.append_nil] at hacc
    rw [he]
    exact ⟨(s.dispatcher.queueOutboundFrame_returned _ clock).1.trans hstarted, rfl, hacc⟩

/-- An accepted command result with an error text of two megabytes: the dispatcher is started, the
drain is over, and nothing has been enqueued. Neither has anything by a bootstrap whose hook throws. -/
theorem drain_oversize :
    let result : CommandResult := .cmd { id := 7, error := List.replicate kMaxPayloadSize.toNat 0x61 }
    ∃ s t u, machine.run {} [.net (.start (.ok ()))] = some s ∧
      s.Accepts (.worker 0) 1 result t ∧
      machine.Along Started t [.drainBegin, .drainNext 1 {}] ∧
      machine.run t [.drainBegin, .drainNext 1 {}] = some u ∧ u.draining = [] ∧
      u.dispatcher.started = true ∧ u.dispatcher.history.accepted = [] ∧
      (u.respond .host {} none 1 {}).dispatcher.history.accepted = [] := by
  intro result
  let s : HostQueues := { dispatcher := { started := true } }
  let t : HostQueues := s.queueDeferredResult (.worker 0) result 1
  let d : DeferredResult := ⟨normalizeResult 1 result, .worker 0, 0⟩
  let v : HostQueues := { t with resultQueue := [], draining := [] }
  have hover : ∀ now, kMaxPayloadSize.toNat < (d.result.frame d.origin now).payload.length := by
    intro now
    refine Nat.lt_of_le_of_lt ?_ (length_error_lt _ now)
    exact Nat.le_of_eq (List.length_replicate ..).symm
  have hsend : s.Accepts (.worker 0) 1 result t := @Accepts.ofInstance s (.worker 0) 1 true _ _ rfl
  have hrun : machine.run t [.drainBegin, .drainNext 1 {}] = some (v.drainResult d 1 {}) := rfl
  obtain ⟨hstarted, hempty, hacc⟩ := @drainResult_oversize v d rfl hover 1 {}
  refine ⟨s, t, _, rfl, hsend, ⟨rfl, fun r hr => ?_⟩, hrun, hempty, hstarted, hacc, ?_⟩
  · cases hr
    exact ⟨rfl, fun _ _ => trivial⟩
  · rw [respond_none]
    exact hacc

end Phi.Host.HostQueues
