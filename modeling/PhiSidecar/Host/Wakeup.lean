import PhiSidecar.Host.Reentrancy
import PhiSidecar.Host.Restart

/-!
# No lost wakeup (`sidecar.cpp`: both `pollOnce` functions; `uds_epoll_transport.cpp`: `wakeup`, `pollOnce`)

Two queues share one wake descriptor. A thread that pushes into either of them writes to the descriptor
afterwards; the polling thread reads it when it comes out of `epoll_wait`, and empties the queues at
other points of its poll. `WakingHost` is the polling thread with the transport it polls, the counter of
the descriptor and the calls of other threads that have pushed and not yet written.

* `run_no_lost_wakeup`: **whenever the polling thread is blocked in `epoll_wait` and a queue is not
  empty, the counter is positive or some thread is about to write to it**.

The thread polls through `SidecarHost::pollOnce`, also from the hooks that it runs in between. Its own
push and write are one step: it is not blocked then.
-/

set_option autoImplicit false

namespace Phi.Dispatcher.SidecarDispatcher

open Phi.V1

variable {τ : Type}

/-- A call that is refused leaves the queue as it is. -/
theorem queueOutboundFrame_refused (s : SidecarDispatcher τ) (frame : OutboundFrame τ) (clock : Clock)
    (h : (s.queueOutboundFrame frame clock).2 ≠ .ok ()) :
    (s.queueOutboundFrame frame clock).1.sendQueue = s.sendQueue := by
  unfold queueOutboundFrame at h ⊢
  cases hc : s.checkOutbound frame clock.check with
  | some r =>
    obtain ⟨d, ls, -, ht⟩ := checkOutbound_cases (t := r.1) (e := r.2) hc
    simp only [ht]
  | none =>
    simp only [hc] at h ⊢
    obtain ⟨d, r, hr, -, he⟩ | ⟨i, f, d, r, hr, -, -, he⟩ | ⟨r, -, -, -, -, he⟩ :=
      enqueue_cases { s with history.returned := s.history.returned ++ [frame] } frame
    · simp [pushOutbound, he, hr] at h
    · simp [pushOutbound, he, hr] at h
    · obtain ⟨d, ls, -, hd⟩ := pushOutbound_cases he clock.overflow clock.warning
      rw [hd]

/-- Sending a frame leaves the queue and the flag as they are. -/
theorem sendFront_queue (s : SidecarDispatcher τ) (frame : OutboundFrame τ)
    (rest : List (OutboundFrame τ)) (writeHeader writePayload : Except Bytes Unit) (tsMs : Int) :
    let t := { s with localQueue := rest }.sendFront frame writeHeader writePayload tsMs
    t.sendQueue = s.sendQueue ∧ t.started = s.started := by
  intro t
  have hstep := sendFront_step (s := { s with localQueue := frame :: rest }) rfl writeHeader
    writePayload tsMs
  generalize ht : ({ s with localQueue := rest }.sendFront frame writeHeader writePayload tsMs) = u at hstep
  have hu : t = u := ht
  rw [hu]
  cases hstep with
  | sent _ => exact ⟨rfl, rfl⟩
  | failed _ _ _ _ _ => exact ⟨rfl, rfl⟩
  | other ho => simp at ho

end Phi.Dispatcher.SidecarDispatcher

namespace Phi.Host

open Phi.V1 Phi.Wire Phi.Dispatcher

/-- Where `UdsEpollServer::pollOnce` is. -/
inductive TransportPc
  /-- Before `epoll_wait`: a disconnect may be told. -/
  | notify
  /-- Blocked in `epoll_wait`. -/
  | waiting
  /-- In its loop over the events, with that of the wake descriptor still to come. -/
  | events (wakeReady : Bool)
  deriving DecidableEq

structure WakingHost where
  thread : PollingThread := {}
  transport : TransportPc := .notify
  /-- The counter of `m_wakeFd`, once that is open. -/
  wakeFd : Option Nat := none
  /-- Calls of other threads between their push and their `wakeup`. -/
  waking : Nat := 0

inductive WakeAct
  /-- A step of the polling thread, or a push of another one. -/
  | thread (a : PollAct)
  /-- Another thread calls `wakeup`, behind its push. -/
  | wakeup
  | epollWait
  /-- `epoll_wait` returns, with the wake descriptor or without. -/
  | epollReturns (wakeReady : Bool)
  | drainWakeFd
  /-- The polling thread starts the dispatcher; `opened` says that the wake descriptor was reached. -/
  | start (result : Except Bytes Unit) (opened : Bool)
  | stop

namespace PollingThread

/-- The step pushes into a queue. -/
def pushes (s : PollingThread) : PollAct → Bool
  | .call (.send caller call now clock) | .otherSend caller call now clock =>
    (s.queues.call caller call now clock).2.isOk
  | .call (.sendResult _ _ _) | .otherResult _ _ _ => true
  | .next a =>
    match s.stack with
    | .drain (d :: _) :: _ =>
      d.id ≠ 0 && (s.queues.dispatcher.queueOutboundFrame (d.result.frame d.origin a.now) a.clock).2.isOk
    | _ => false
  | .call .hostPollOnce | .call .pollOnce | .ret | .connection _ => false

/-- The lock of the runtime is next, and behind it the transport. -/
def entersTransport (s : PollingThread) : PollAct → Bool
  | .next _ => match s.stack with
    | .poll .lock :: _ => true
    | _ => false
  | _ => false

/-- The transport is on top of the stack. -/
def inTransport (s : PollingThread) : Bool :=
  match s.stack with
  | .hook :: .poll .unlock :: _ => true
  | _ => false

end PollingThread

namespace WakingHost

/-- The largest value of an `eventfd` counter. -/
def kWakeFdMax : Nat := 0xfffffffffffffffe

def wakeup (s : WakingHost) : WakingHost :=
  { s with wakeFd := s.wakeFd.map fun n => min (n + 1) kWakeFdMax }

/-- What follows the pushes of a step. -/
def announce (s : WakingHost) (a : PollAct) : WakingHost :=
  if s.thread.pushes a then
    match a with
    | .otherSend _ _ _ _ | .otherResult _ _ _ => { s with waking := s.waking + 1 }
    | .call _ | .ret | .next _ | .connection _ => s.wakeup
  else s

/-- The polling thread takes no step of its own while it is blocked. -/
def enabled (s : WakingHost) : PollAct → Bool
  | .call .pollOnce => false
  | .call _ | .ret | .next _ => s.transport ≠ .waiting
  | .otherSend _ _ _ _ | .otherResult _ _ _ | .connection _ => true

def step (s : WakingHost) : WakeAct → Option WakingHost
  | .thread a =>
    if s.enabled a then
      (s.thread.step a).map fun thread => { s.announce a with
        thread
        transport := if s.thread.entersTransport a then .notify else s.transport }
    else none
  | .wakeup => if 0 < s.waking then some { s.wakeup with waking := s.waking - 1 } else none
  | .epollWait =>
    if s.transport = .notify ∧ s.thread.inTransport then some { s with transport := .waiting } else none
  | .epollReturns wakeReady =>
    if s.transport = .waiting ∧ (wakeReady → ∃ n ∈ s.wakeFd, 0 < n) then
      some { s with transport := .events wakeReady }
    else none
  | .drainWakeFd =>
    if s.transport = .events true ∧ s.thread.inTransport then
      some { s with transport := .events false, wakeFd := s.wakeFd.map fun _ => 0 }
    else none
  | .start result opened =>
    if s.thread.stack.isEmpty then
      some { s with
        thread.queues.dispatcher := s.thread.queues.dispatcher.start result
        wakeFd := if opened || Lifecycle.isOk result then some 0 else s.wakeFd }
    else none
  | .stop =>
    if s.thread.stack.isEmpty then
      some { s with thread.queues.dispatcher := s.thread.queues.dispatcher.stop }.wakeup
    else none

def machine : Lts.Machine WakingHost WakeAct := ⟨step⟩

end WakingHost

/-! ## What the polling thread does to its stack -/

namespace PollingThread

/-- A poll of the dispatcher is called by one of the host, which drains the results next. -/
def Hosted : List Activation → Prop
  | [] => True
  | .poll _ :: below => below.head? = some (.hostPoll .drainAgain) ∧ Hosted below
  | .hook :: below | .drain _ :: below | .flush _ :: below | .hostPoll _ :: below => Hosted below

/-- The thread drains the results before it polls the dispatcher. -/
inductive DrainsFirst : List Activation → Prop
  | outside : DrainsFirst []
  | first : DrainsFirst [.hostPoll .drain]
  | again (below : List Activation) : DrainsFirst (.hostPoll .drainAgain :: below)

/-- The polls are the same, and so is what they rely on. -/
structure Keeps (s t : PollingThread) : Prop where
  polls : polls t.stack = polls s.stack
  hosted : Hosted s.stack → Hosted t.stack
  pollingThread : t.pollingThread = s.pollingThread
  runtimeMutex : t.runtimeMutex = s.runtimeMutex
  started : t.queues.dispatcher.started = s.queues.dispatcher.started

/-- The order of the steps of a poll. -/
inductive Follows : PollPc → PollPc → Prop
  | lock : Follows .flush .lock
  | unlock : Follows .lock .unlock
  | flushAgain : Follows .unlock .flushAgain
  | done : Follows .flushAgain .done

/-- What a step of `PollingThread` does. -/
inductive Turn (s t : PollingThread) : Prop
  | same (h : t.stack = s.stack) (hk : Keeps s t)
  | kept (hd : ¬DrainsFirst s.stack) (hk : Keeps s t)
  | begins (hs : s.stack = []) (ht : t.stack = [.hostPoll .drain]) (hk : Keeps s t)
  | drained (hr : t.queues.resultQueue = []) (hk : Keeps s t)
  /-- A poll of the dispatcher begins. -/
  | enters (hs : ¬DrainsFirst s.stack) (hfree : s.pollingThread = false)
      (hstarted : s.queues.dispatcher.started = true) (hpolls : polls t.stack = .flush :: polls s.stack)
      (hhosted : Hosted s.stack → Hosted t.stack) (hslot : t.pollingThread = true)
      (hmutex : t.runtimeMutex = s.runtimeMutex)
      (hstays : t.queues.dispatcher.started = s.queues.dispatcher.started)
  /-- It goes on, and finds the send queue empty when it comes to the lock. -/
  | polls {pc pc' : PollPc} {below : List Activation} (hs : s.stack = .poll pc :: below)
      (hf : Follows pc pc') (hpolls : PollingThread.polls t.stack = pc' :: PollingThread.polls below)
      (hhosted : Hosted s.stack → Hosted t.stack) (hslot : t.pollingThread = s.pollingThread)
      (hmutex : s.runtimeMutex = decide (pc = .unlock) → t.runtimeMutex = decide (pc' = .unlock))
      (hstarted : t.queues.dispatcher.started = s.queues.dispatcher.started)
      (hqueue : pc' = .lock → t.queues.dispatcher.sendQueue = [])
  /-- It returns. -/
  | returns {below : List Activation} (hs : s.stack = .poll .done :: below) (ht : t.stack = below)
      (hslot : t.pollingThread = false) (hmutex : t.runtimeMutex = s.runtimeMutex)
      (hstarted : t.queues.dispatcher.started = s.queues.dispatcher.started)

variable {s t : PollingThread}

theorem hosted_cons {x : Activation} (hx : pollPc x = none) {below : List Activation} :
    Hosted (x :: below) ↔ Hosted below := by
  cases x with
  | poll pc => cases hx
  | hook | drain | flush | hostPoll => exact Iff.rfl

theorem polls_cons {x : Activation} (hx : pollPc x = none) (below : List Activation) :
    polls (x :: below) = polls below := by
  rw [polls, List.filterMap_cons, hx]
  rfl

theorem Keeps.refl (s : PollingThread) : Keeps s s := ⟨rfl, id, rfl, rfl, rfl⟩

theorem Keeps.trans {u : PollingThread} (h : Keeps s t) (h' : Keeps t u) : Keeps s u where
  polls := h'.polls.trans h.polls
  hosted := h'.hosted ∘ h.hosted
  pollingThread := h'.pollingThread.trans h.pollingThread
  runtimeMutex := h'.runtimeMutex.trans h.runtimeMutex
  started := h'.started.trans h.started

/-- Another queue, with the flag as it was. -/
theorem Keeps.queues {q : HostQueues} (hq : q.dispatcher.started = s.queues.dispatcher.started) :
    Keeps s { s with queues := q } := ⟨rfl, id, rfl, rfl, hq⟩

theorem Keeps.push (s : PollingThread) {x : Activation} (hx : pollPc x = none) : Keeps s (s.push x) where
  polls := polls_cons hx _
  hosted := (hosted_cons hx).2
  pollingThread := rfl
  runtimeMutex := rfl
  started := rfl

theorem Keeps.pop {top : Activation} {below : List Activation} (hs : s.stack = top :: below)
    (hx : pollPc top = none) : Keeps s { s with stack := below } where
  polls := by rw [hs, polls_cons hx]
  hosted h := (hosted_cons hx).1 (hs ▸ h)
  pollingThread := rfl
  runtimeMutex := rfl
  started := rfl

theorem Keeps.report (s : PollingThread) (inlineHook : Bool) : Keeps s (s.report inlineHook) := by
  unfold PollingThread.report
  split
  · exact .push s rfl
  · exact .refl s

theorem Keeps.flushSendQueue (s : PollingThread) : Keeps s s.flushSendQueue := by
  unfold PollingThread.flushSendQueue
  split
  · exact .refl s
  · exact ⟨polls_cons rfl _, (hosted_cons rfl).2, rfl, rfl, rfl⟩

theorem flushSendQueue_queue (s : PollingThread) :
    s.flushSendQueue.queues.dispatcher.sendQueue = [] ∧
      s.flushSendQueue.queues.resultQueue = s.queues.resultQueue := by
  unfold PollingThread.flushSendQueue
  split
  · next h => exact ⟨List.isEmpty_iff.1 h, rfl⟩
  · exact ⟨rfl, rfl⟩

theorem Keeps.drain (s : PollingThread) : Keeps s s.drainDeferredResults :=
  ⟨polls_cons rfl _, (hosted_cons rfl).2, rfl, rfl, rfl⟩

theorem call_started (q : HostQueues) (caller : Caller) (call : Outbound) (now : Int64) (clock : Clock) :
    (q.call caller call now clock).1.dispatcher.started = q.dispatcher.started :=
  (SidecarDispatcher.queueOutboundFrame_returned _ _ _).1

theorem drainResult_started (q : HostQueues) (d : DeferredResult) (now : Int64) (clock : Clock) :
    (q.drainResult d now clock).dispatcher.started = q.dispatcher.started := by
  obtain ⟨-, he⟩ | ⟨-, reports, he⟩ := q.drainResult_cases d now clock
  · rw [he]; rfl
  · rw [he]
    exact (SidecarDispatcher.queueOutboundFrame_returned _ _ _).1

theorem Keeps.sendFrame (s : PollingThread) (frame : OutboundFrame Origin)
    (rest : List (OutboundFrame Origin)) (a : Answers) : Keeps s (s.sendFrame frame rest a) := by
  have hstarted := (s.queues.dispatcher.sendFront_queue frame rest a.writeHeader a.writePayload a.tsMs).2
  have hpush : ∀ q l, q.dispatcher.started = s.queues.dispatcher.started →
      Keeps s ({ s with queues := q }.push (.flush l)) :=
    fun q l hq => (Keeps.queues hq).trans (.push _ rfl)
  unfold PollingThread.sendFrame
  simp only
  split
  · exact (hpush _ _ (by exact hstarted)).trans (.report _ _)
  · exact hpush _ _ (by exact hstarted)

theorem Keeps.drainResult (s : PollingThread) (d : DeferredResult) (rest : List DeferredResult)
    (a : Answers) : Keeps s (s.drainResult d rest a) := by
  have hq : Keeps s { s with queues := s.queues.drainResult d a.now a.clock } :=
    .queues (drainResult_started _ _ _ _)
  unfold PollingThread.drainResult
  simp only
  split
  · exact (hq.trans (.push _ rfl)).trans (.report _ _)
  · exact hq.trans (.push _ rfl)

/-- Another queue and a function on the stack in the place of one. -/
theorem Keeps.next {top x : Activation} {below : List Activation} (hs : s.stack = top :: below)
    (htop : pollPc top = none) (hx : pollPc x = none) : Keeps s ({ s with stack := below }.push x) :=
  (Keeps.pop hs htop).trans (.push _ hx)

/-- The function on top of the stack goes on. -/
theorem turn_next {top : Activation} {below : List Activation} {a : Answers} (hs : s.stack = top :: below)
    (h : { s with stack := below }.next a top = some t) : Turn s t := by
  have hkept {u : PollingThread} (hk : Keeps s u) (hd : ¬DrainsFirst (top :: below)) : Turn s u :=
    .kept (hs ▸ hd) hk
  cases top with
  | hook => cases h
  | hostPoll pc =>
    cases pc with
    | drain =>
      cases h
      exact .drained rfl ((Keeps.next hs rfl rfl).trans (.drain _))
    | flush =>
      cases h
      exact hkept ((Keeps.next hs rfl rfl).trans (.flushSendQueue _)) (by rintro ⟨⟩)
    | poll =>
      simp only [PollingThread.next, Option.some.injEq] at h
      have hk : Keeps s ({ s with stack := below }.push (.hostPoll .drainAgain)) := .next hs rfl rfl
      unfold PollingThread.pollOnce at h
      split_ifs at h with hstarted hslot
      · exact hkept (h ▸ hk) (by rintro ⟨⟩)
      · exact hkept (h ▸ hk) (by rintro ⟨⟩)
      · cases h
        refine .enters (by rw [hs]; rintro ⟨⟩) (Bool.eq_false_iff.2 hslot)
          (by simpa [PollingThread.push] using hstarted) ?_ ?_ rfl rfl rfl
        · rw [hs]
          rfl
        · rw [hs]
          exact fun hh => ⟨rfl, hh⟩
    | drainAgain =>
      cases h
      exact .drained rfl ((Keeps.next hs rfl rfl).trans (.drain _))
    | flushAgain =>
      cases h
      exact hkept ((Keeps.next hs rfl rfl).trans (.flushSendQueue _)) (by rintro ⟨⟩)
    | done =>
      cases h
      exact hkept (.pop hs rfl) (by rintro ⟨⟩)
  | poll pc =>
    have hmoves (pc' : PollPc) : Hosted s.stack → Hosted (.poll pc' :: below) := fun hh => by
      rw [hs] at hh
      exact hh
    cases pc with
    | flush =>
      cases h
      have hk := Keeps.flushSendQueue ({ s with stack := below }.push (.poll .lock))
      refine .polls hs .lock ?_ (fun hh => hk.hosted (hmoves _ hh)) hk.pollingThread ?_ hk.started ?_
      · rw [hk.polls]
        rfl
      · exact fun hm => hk.runtimeMutex.trans hm
      · exact fun _ => (flushSendQueue_queue _).1
    | lock =>
      simp only [PollingThread.next] at h
      split_ifs at h
      · cases h
        refine .same hs.symm ⟨?_, ?_, rfl, rfl, rfl⟩
        · rw [hs]
          rfl
        · rw [hs]
          exact id
      · cases h
        exact .polls hs .unlock rfl (hmoves .unlock) rfl (fun _ => rfl) rfl (by rintro ⟨⟩)
    | unlock =>
      cases h
      exact .polls hs .flushAgain rfl (hmoves .flushAgain) rfl (fun _ => rfl) rfl (by rintro ⟨⟩)
    | flushAgain =>
      cases h
      have hk := Keeps.flushSendQueue ({ s with stack := below }.push (.poll .done))
      refine .polls hs .done ?_ (fun hh => hk.hosted (hmoves _ hh)) hk.pollingThread ?_ hk.started (by rintro ⟨⟩)
      · rw [hk.polls]
        rfl
      · exact fun hm => hk.runtimeMutex.trans hm
    | done =>
      cases h
      exact .returns hs rfl rfl rfl rfl
  | drain rest =>
    cases rest with
    | nil =>
      cases h
      exact hkept (.pop hs rfl) (by rintro ⟨⟩)
    | cons d rest =>
      cases h
      exact hkept ((Keeps.pop hs rfl).trans (.drainResult _ d rest a)) (by rintro ⟨⟩)
  | flush batch =>
    cases batch with
    | nil =>
      cases h
      exact hkept (.pop hs rfl) (by rintro ⟨⟩)
    | cons frame rest =>
      simp only [PollingThread.next] at h
      split_ifs at h
      · cases h
        exact hkept ((Keeps.next (x := .flush (frame :: rest)) hs rfl rfl).trans ⟨rfl, id, rfl, rfl, rfl⟩) (by rintro ⟨⟩)
      · cases h
        exact hkept ((Keeps.pop hs rfl).trans (.sendFrame _ frame rest a)) (by rintro ⟨⟩)

/-- Every step but a poll of the dispatcher alone. -/
theorem turn_step {a : PollAct} (ha : a ≠ .call .pollOnce) (h : s.step a = some t) : Turn s t := by
  cases a with
  | call c =>
    have hturn : t = s.call c ∧ (s.stack = [] ∨ ∃ below, s.stack = .hook :: below) := by
      simp only [PollingThread.step] at h
      split at h
      · next hs =>
        split_ifs at h
        cases h
        exact ⟨rfl, .inl hs⟩
      · next hs =>
        split_ifs at h
        cases h
        exact ⟨rfl, .inr ⟨_, hs⟩⟩
      · cases h
    obtain ⟨rfl, hs⟩ := hturn
    cases c with
    | hostPollOnce =>
      obtain hs | ⟨below, hs⟩ := hs
      · exact .begins hs (by simp [PollingThread.call, PollingThread.push, hs]) (.push s rfl)
      · exact .kept (by rw [hs]; rintro ⟨⟩) (.push s rfl)
    | pollOnce => exact absurd rfl ha
    | send caller call now clock => exact .same rfl (.queues (call_started _ _ _ _ _))
    | sendResult => exact .same rfl (.queues rfl)
  | ret =>
    simp only [PollingThread.step] at h
    split at h
    · next hs =>
      cases h
      exact .kept (by rw [hs]; rintro ⟨⟩) (.pop hs rfl)
    · cases h
  | next answers =>
    simp only [PollingThread.step] at h
    split at h
    · next hs =>
      split_ifs at h
      exact turn_next hs h
    · cases h
  | otherSend caller call now clock =>
    cases h
    exact .same rfl (.queues (call_started _ _ _ _ _))
  | otherResult =>
    cases h
    exact .same rfl (.queues rfl)
  | connection connected =>
    cases h
    exact .same rfl ⟨rfl, id, rfl, rfl, rfl⟩

/-! ## What it does to the queues -/

/-- A queue that was not pushed into is the same, or was emptied. -/
def Emptied {α : Type} (q q' : List α) : Prop := q' = q ∨ q' = []

theorem not_ok {e : Except Utf8String Unit} (h : e.isOk = false) : e ≠ .ok () := by
  rintro rfl
  cases h

/-- Both queues. -/
def Takes (s t : PollingThread) : Prop :=
  Emptied s.queues.dispatcher.sendQueue t.queues.dispatcher.sendQueue ∧
    Emptied s.queues.resultQueue t.queues.resultQueue

theorem Takes.same (h : t.queues = s.queues) : Takes s t := by
  rw [Takes, h]
  exact ⟨.inl rfl, .inl rfl⟩

/-- A call that the dispatcher refuses. -/
theorem takes_refused (s : PollingThread) (caller : Caller) (call : Outbound) (now : Int64) (clock : Clock)
    (h : (s.queues.call caller call now clock).2.isOk = false) :
    Takes s { s with queues := (s.queues.call caller call now clock).1 } :=
  ⟨.inl (SidecarDispatcher.queueOutboundFrame_refused _ _ _ (not_ok h)), .inl rfl⟩

theorem takes_flush (s : PollingThread) : Takes s s.flushSendQueue :=
  ⟨.inr (flushSendQueue_queue s).1, .inl (flushSendQueue_queue s).2⟩

theorem pollOnce_queues (s : PollingThread) : s.pollOnce.queues = s.queues := by
  unfold PollingThread.pollOnce
  split_ifs
  · rfl
  · rfl
  · rfl

theorem report_queues (s : PollingThread) (inlineHook : Bool) :
    (s.report inlineHook).queues = s.queues := by
  unfold PollingThread.report
  split
  · rfl
  · rfl

theorem takes_sendFrame (s : PollingThread) (frame : OutboundFrame Origin)
    (rest : List (OutboundFrame Origin)) (a : Answers) : Takes s (s.sendFrame frame rest a) := by
  have hqueue := (s.queues.dispatcher.sendFront_queue frame rest a.writeHeader a.writePayload a.tsMs).1
  unfold PollingThread.sendFrame
  simp only
  split
  · rw [Takes, report_queues]
    exact ⟨.inl hqueue, .inl rfl⟩
  · exact ⟨.inl hqueue, .inl rfl⟩

theorem takes_drainResult (s : PollingThread) (d : DeferredResult) (rest : List DeferredResult)
    (a : Answers) (h : (d.id ≠ 0 && (s.queues.dispatcher.queueOutboundFrame
      (d.result.frame d.origin a.now) a.clock).2.isOk) = false) : Takes s (s.drainResult d rest a) := by
  have hq : (s.drainResult d rest a).queues = s.queues.drainResult d a.now a.clock := by
    unfold PollingThread.drainResult
    simp only
    split
    · rw [report_queues]
      rfl
    · rfl
  rw [Takes, hq]
  obtain ⟨-, he⟩ | ⟨hid, reports, he⟩ := s.queues.drainResult_cases d a.now a.clock
  · rw [he]
    exact ⟨.inl rfl, .inl rfl⟩
  · rw [he]
    simp only [ne_eq, hid, not_false_eq_true, decide_true, Bool.true_and] at h
    exact ⟨.inl (SidecarDispatcher.queueOutboundFrame_refused _ _ _ (not_ok h)), .inl rfl⟩

/-- A function on top of the stack that pushes into no queue. -/
theorem takes_next {top : Activation} {below : List Activation} {a : Answers} (hs : s.stack = top :: below)
    (ha : s.pushes (.next a) = false) (h : { s with stack := below }.next a top = some t) : Takes s t := by
  cases top with
  | hook => cases h
  | hostPoll pc =>
    cases pc with
    | drain | drainAgain =>
      cases h
      exact ⟨.inl rfl, .inr rfl⟩
    | flush | flushAgain =>
      cases h
      exact takes_flush _
    | poll =>
      cases h
      exact .same (pollOnce_queues _)
    | done =>
      cases h
      exact .same rfl
  | poll pc =>
    cases pc with
    | flush | flushAgain =>
      cases h
      exact takes_flush _
    | lock =>
      simp only [PollingThread.next] at h
      split_ifs at h
      all_goals
        cases h
        exact .same rfl
    | unlock | done =>
      cases h
      exact .same rfl
  | drain rest =>
    cases rest with
    | nil =>
      cases h
      exact .same rfl
    | cons d rest =>
      cases h
      simp only [pushes, hs] at ha
      exact takes_drainResult _ d rest a ha
  | flush batch =>
    cases batch with
    | nil =>
      cases h
      exact .same rfl
    | cons frame rest =>
      simp only [PollingThread.next] at h
      split_ifs at h
      · cases h
        exact .same rfl
      · cases h
        exact takes_sendFrame _ frame rest a

/-- A step that pushes into no queue. -/
theorem takes_step {a : PollAct} (ha : s.pushes a = false) (h : s.step a = some t) : Takes s t := by
  cases a with
  | call c =>
    have ht : t = s.call c := by
      simp only [PollingThread.step] at h
      split at h
      · split_ifs at h; cases h; rfl
      · split_ifs at h; cases h; rfl
      · cases h
    subst ht
    cases c with
    | hostPollOnce => exact .same rfl
    | pollOnce => exact .same (pollOnce_queues s)
    | send caller call now clock => exact takes_refused s caller call now clock ha
    | sendResult => cases ha
  | ret =>
    simp only [PollingThread.step] at h
    split at h
    · cases h
      exact .same rfl
    · cases h
  | otherSend caller call now clock =>
    cases h
    exact takes_refused s caller call now clock ha
  | otherResult => cases ha
  | connection connected =>
    cases h
    cases connected with
    | true => exact ⟨.inl rfl, .inl rfl⟩
    | false => exact ⟨.inl rfl, .inl rfl⟩
  | next a =>
    simp only [PollingThread.step] at h
    split at h
    · next top below hs =>
      split_ifs at h
      exact takes_next hs ha h
    · cases h

end PollingThread

/-! ## The wake descriptor -/

namespace WakingHost

open PollingThread

variable {s t : WakingHost}

/-- Whoever blocks is woken, as soon as there is a descriptor. -/
def Woken (s : WakingHost) : Prop := 0 < s.waking ∨ ∀ n ∈ s.wakeFd, 0 < n

/-- What waits in the queue has been announced. -/
def Covered {α : Type} (s : WakingHost) (queue : List α) : Prop := queue ≠ [] → s.Woken

theorem Woken.wakeup (s : WakingHost) : s.wakeup.Woken := by
  refine .inr fun n hn => ?_
  obtain ⟨m, -, rfl⟩ := Option.map_eq_some_iff.1 hn
  exact Nat.lt_min.2 ⟨Nat.succ_pos m, by decide⟩

theorem Woken.announced {a : PollAct} (ha : s.thread.pushes a = true) : (s.announce a).Woken := by
  unfold announce
  rw [if_pos ha]
  cases a with
  | otherSend | otherResult => exact .inl (Nat.succ_pos _)
  | call | ret | next | connection => exact .wakeup s

/-- A step that pushes into a queue announces it, and any other leaves it as it is or empty. -/
theorem Covered.thread {α : Type} {a : PollAct} {queue queue' : List α} {u : PollingThread}
    {transport : TransportPc} (h : s.Covered queue)
    (hq : s.thread.pushes a = false → Emptied queue queue') :
    Covered { s.announce a with thread := u, transport } queue' := by
  intro hne
  cases ha : s.thread.pushes a with
  | true => exact Woken.announced ha
  | false =>
    have hwoken : s.Woken := by
      obtain he | he := hq ha
      · exact h (he ▸ hne)
      · exact absurd he hne
    rw [show s.announce a = s from if_neg (by simp [ha])]
    exact hwoken

/-- The poll has flushed and has not come out of `epoll_wait`. -/
def Awaits (transport : TransportPc) : PollPc → Prop
  | .lock => True
  | .unlock => transport = .notify ∨ transport = .waiting
  | .flush | .flushAgain | .done => False

/-- The poll has come out of `epoll_wait`. -/
def Awoken (transport : TransportPc) : PollPc → Prop
  | .unlock => ∃ wakeReady, transport = .events wakeReady
  | .flushAgain | .done => True
  | .flush | .lock => False

structure Inv (s : WakingHost) : Prop where
  guard : Guard (polls s.thread.stack) s.thread.pollingThread s.thread.runtimeMutex
  hosted : Hosted s.thread.stack
  opened : s.thread.queues.dispatcher.started = true ∨ polls s.thread.stack ≠ [] → s.wakeFd.isSome
  waiting : s.transport = .waiting → s.thread.inTransport
  /-- From the flush of a poll to the return of `epoll_wait`, every frame has been announced. -/
  frames : ∀ pc ∈ polls s.thread.stack, Awaits s.transport pc →
    s.Covered s.thread.queues.dispatcher.sendQueue
  /-- So has every result, where the thread will not drain the results before it blocks. -/
  results : DrainsFirst s.thread.stack ∨ (∃ pc ∈ polls s.thread.stack, Awoken s.transport pc) ∨
    s.Covered s.thread.queues.resultQueue

theorem Inv.init : Inv {} where
  guard := .free
  hosted := trivial
  opened := by simp [polls]
  waiting := by decide
  frames := List.forall_mem_nil _
  results := .inl .outside

/-- The transport is on the stack together with the poll that called it. -/
theorem polls_of_inTransport {p : PollingThread} (h : p.inTransport = true) :
    ∃ below, p.stack = .hook :: .poll .unlock :: below := by
  unfold PollingThread.inTransport at h
  split at h
  · next below hs => exact ⟨below, hs⟩
  · cases h

/-- It is the only one. -/
theorem Inv.polls_inTransport (hs : s.Inv) (h : s.thread.inTransport = true) :
    polls s.thread.stack = [.unlock] := by
  obtain ⟨below, hb⟩ := polls_of_inTransport h
  have hg := hs.guard
  rw [hb] at hg ⊢
  exact congrArg (PollPc.unlock :: ·) (Guard.of_poll hg).1

theorem announce_wakeFd (s : WakingHost) (a : PollAct) :
    (s.announce a).wakeFd.isSome = s.wakeFd.isSome := by
  unfold announce
  split
  · split
    · rfl
    · rfl
    all_goals exact Option.isSome_map
  · rfl

/-- While the thread is blocked, the others leave its stack as it is. -/
theorem stack_of_waiting {a : PollAct} {u : PollingThread} (ha : s.enabled a = true)
    (hw : s.transport = .waiting) (h : s.thread.step a = some u) : u.stack = s.thread.stack := by
  cases a with
  | call c => cases c <;> simp [enabled, hw] at ha
  | ret => simp [enabled, hw] at ha
  | next => simp [enabled, hw] at ha
  | otherSend | otherResult | connection => cases h; rfl

/-- `transport` after a step of the thread. -/
def entered (s : WakingHost) (a : PollAct) : TransportPc :=
  if s.thread.entersTransport a then .notify else s.transport

theorem polls_of_enters {a : PollAct} (h : s.thread.entersTransport a = true) :
    ∃ below, s.thread.stack = .poll .lock :: below := by
  unfold PollingThread.entersTransport at h
  split at h
  · split at h
    · next hs => exact ⟨_, hs⟩
    · cases h
  · cases h

/-- The transport is entered when no poll is in it. -/
theorem Inv.entered (hs : s.Inv) (a : PollAct) :
    s.entered a = s.transport ∨ polls s.thread.stack = [.lock] := by
  unfold WakingHost.entered
  split
  · next h =>
    obtain ⟨below, hb⟩ := polls_of_enters h
    have hg := hs.guard
    rw [hb] at hg ⊢
    exact .inr (congrArg (PollPc.lock :: ·) hg.of_poll.1)
  · exact .inl rfl

theorem Inv.awaits (hs : s.Inv) {a : PollAct} {pc : PollPc} (hpc : pc ∈ polls s.thread.stack)
    (h : Awaits (s.entered a) pc) : Awaits s.transport pc := by
  obtain he | he := hs.entered a
  · exact he ▸ h
  · rw [he, List.mem_singleton] at hpc
    rw [hpc]
    trivial

theorem Inv.awoken (hs : s.Inv) {a : PollAct} {pc : PollPc} (hpc : pc ∈ polls s.thread.stack)
    (h : Awoken s.transport pc) : Awoken (s.entered a) pc := by
  obtain he | he := hs.entered a
  · exact he.symm ▸ h
  · rw [he, List.mem_singleton] at hpc
    rw [hpc] at h
    cases h

/-- A thread that is blocked stays so. -/
theorem Inv.waiting_entered (hs : s.Inv) {a : PollAct} {u : PollingThread} (ha : s.enabled a = true)
    (hstep : s.thread.step a = some u) (hw : s.entered a = .waiting) : u.inTransport = true := by
  have hsame : s.transport = .waiting := by
    unfold WakingHost.entered at hw
    split at hw
    · cases hw
    · exact hw
  obtain ⟨below, hb⟩ := polls_of_inTransport (hs.waiting hsame)
  simp [PollingThread.inTransport, stack_of_waiting ha hsame hstep, hb]

/-- A step of the thread that keeps its polls. -/
theorem Inv.keeps (hs : s.Inv) {a : PollAct} {u : PollingThread} (ha : s.enabled a = true)
    (hstep : s.thread.step a = some u) (hk : Keeps s.thread u)
    (hd : DrainsFirst s.thread.stack → DrainsFirst u.stack ∨ u.queues.resultQueue = []) :
    Inv { s.announce a with thread := u, transport := s.entered a } where
  guard := by
    simp only [hk.polls, hk.pollingThread, hk.runtimeMutex]
    exact hs.guard
  hosted := hk.hosted hs.hosted
  opened := by
    simp only [hk.polls, hk.started, announce_wakeFd]
    exact hs.opened
  waiting := hs.waiting_entered ha hstep
  frames pc hpc haw := by
    simp only [hk.polls] at hpc
    exact (hs.frames pc hpc (hs.awaits hpc haw)).thread fun hp => (takes_step hp hstep).1
  results := by
    obtain hdrains | ⟨pc, hpc, haw⟩ | hc := hs.results
    · obtain hd | he := hd hdrains
      · exact .inl hd
      · exact .inr (.inr fun hne => absurd he hne)
    · refine .inr (.inl ⟨pc, ?_, hs.awoken hpc haw⟩)
      rw [hk.polls]
      exact hpc
    · exact .inr (.inr (hc.thread fun hp => (takes_step hp hstep).2))

theorem Inv.thread (hs : s.Inv) {a : PollAct} {u : PollingThread} (ha : s.enabled a = true)
    (hstep : s.thread.step a = some u) :
    Inv { s.announce a with thread := u, transport := s.entered a } := by
  have hpoll : a ≠ .call .pollOnce := by
    rintro rfl
    cases ha
  have hsend (hp : s.thread.pushes a = false) := (takes_step hp hstep).1
  have hresult (hp : s.thread.pushes a = false) := (takes_step hp hstep).2
  have hwaiting := hs.waiting_entered ha hstep
  cases turn_step hpoll hstep with
  | same h hk => exact hs.keeps ha hstep hk fun hd => .inl (h.symm ▸ hd)
  | kept hd hk => exact hs.keeps ha hstep hk fun hd' => absurd hd' hd
  | begins _ ht hk => exact hs.keeps ha hstep hk fun _ => .inl (ht ▸ .first)
  | drained hr hk => exact hs.keeps ha hstep hk fun _ => .inr hr
  | enters hd hfree hstarted hpolls hhosted hslot hmutex hstays =>
    obtain ⟨hnone, hm⟩ := hs.guard.of_free hfree
    rw [hnone] at hpolls
    refine ⟨?_, hhosted hs.hosted, fun _ => ?_, hwaiting, ?_, ?_⟩
    · simp only [hpolls, hslot, hmutex, hm]
      exact .polling .flush
    · rw [announce_wakeFd]
      exact hs.opened (.inl hstarted)
    · simp only [hpolls, List.forall_mem_singleton]
      exact nofun
    · obtain hd' | ⟨pc, hpc, -⟩ | hc := hs.results
      · exact absurd hd' hd
      · rw [hnone] at hpc
        cases hpc
      · exact .inr (.inr (hc.thread hresult))
  | @polls pc pc' below hb hf hpolls hhosted hslot hmutex hstarted hqueue =>
    have hg := hs.guard
    rw [hb] at hg
    obtain ⟨hbelow, hslot', hm⟩ := hg.of_poll
    have hnone : polls below = [] := hbelow
    have hmem : pc ∈ polls s.thread.stack := by
      rw [hb]
      exact List.mem_cons_self
    rw [hnone] at hpolls
    refine ⟨?_, hhosted hs.hosted, fun _ => ?_, hwaiting, ?_, ?_⟩
    · simp only [hpolls, hslot, hslot', hmutex hm]
      exact .polling pc'
    · rw [announce_wakeFd]
      exact hs.opened (.inr (List.ne_nil_of_mem hmem))
    · simp only [hpolls, List.forall_mem_singleton]
      intro haw
      cases hf with
      | lock => exact fun hne => absurd (hqueue rfl) hne
      | unlock => exact (hs.frames .lock hmem trivial).thread hsend
      | flushAgain => cases haw
      | done => cases haw
    · simp only [hpolls, List.mem_singleton, exists_eq_left]
      obtain hd | ⟨pc₀, hpc, haw⟩ | hc := hs.results
      · rw [hb] at hd
        cases hd
      · have he : pc₀ = pc := by
          rw [hb] at hpc
          exact List.mem_singleton.1 (hnone ▸ hpc)
        rw [he] at haw
        cases hf with
        | lock => cases haw
        | unlock => cases haw
        | flushAgain => exact .inr (.inl trivial)
        | done => exact .inr (.inl trivial)
      · exact .inr (.inr (hc.thread hresult))
  | @returns below hb ht hslot hmutex hstarted =>
    have hg := hs.guard
    have hh := hs.hosted
    rw [hb] at hg hh
    obtain ⟨hbelow, -, hm⟩ := hg.of_poll
    have hnone : polls below = [] := hbelow
    refine ⟨?_, ?_, fun _ => ?_, hwaiting, ?_, .inl ?_⟩
    · simp only [ht, hnone, hslot, hmutex, hm]
      exact .free
    · exact ht ▸ hh.2
    · rw [announce_wakeFd]
      refine hs.opened (.inr ?_)
      rw [hb]
      exact nofun
    · simp only [ht, hnone]
      exact List.forall_mem_nil _
    · obtain ⟨hhead, -⟩ := hh
      cases below with
      | nil => cases hhead
      | cons x below =>
        cases hhead
        exact ht ▸ .again below

/-- **One step.** -/
theorem Inv.step (hs : s.Inv) {a : WakeAct} (h : machine.step s a = some t) : t.Inv := by
  cases a with
  | thread a =>
    simp only [machine, WakingHost.step] at h
    split at h
    · next ha =>
      obtain ⟨u, hu, rfl⟩ := Option.map_eq_some_iff.1 h
      exact hs.thread ha hu
    · cases h
  | wakeup =>
    simp only [machine, WakingHost.step] at h
    split_ifs at h
    cases h
    have hwoken : Woken { s.wakeup with waking := s.waking - 1 } :=
      (Woken.wakeup { s with waking := 0 }).elim (fun h0 => absurd h0 (Nat.lt_irrefl 0)) .inr
    refine { hs with opened := fun ho => ?_, frames := fun _ _ _ _ => hwoken, results := ?_ }
    · simp only [wakeup, Option.isSome_map]
      exact hs.opened ho
    · exact .inr (.inr fun _ => hwoken)
  | epollWait =>
    simp only [machine, WakingHost.step] at h
    split_ifs at h with hc
    cases h
    refine { hs with waiting := fun _ => hc.2, frames := fun pc hpc haw => hs.frames pc hpc ?_, results := ?_ }
    · cases pc with
      | unlock => exact .inl hc.1
      | lock => trivial
      | flush | flushAgain | done => cases haw
    · obtain hd | ⟨pc, hpc, haw⟩ | hq := hs.results
      · exact .inl hd
      · rw [hs.polls_inTransport hc.2, List.mem_singleton] at hpc
        rw [hpc] at haw
        obtain ⟨w, hw⟩ := haw
        rw [hc.1] at hw
        cases hw
      · exact .inr (.inr hq)
  | epollReturns wakeReady =>
    simp only [machine, WakingHost.step] at h
    split_ifs at h with hc
    cases h
    refine { hs with
      waiting := by rintro ⟨⟩
      frames := fun pc hpc haw => hs.frames pc hpc ?_
      results := .inr (.inl ⟨.unlock, ?_, wakeReady, rfl⟩) }
    · cases pc with
      | unlock => exact .inr hc.1
      | lock => trivial
      | flush | flushAgain | done => cases haw
    · rw [hs.polls_inTransport (hs.waiting hc.1)]
      exact List.mem_singleton_self _
  | drainWakeFd =>
    simp only [machine, WakingHost.step] at h
    split_ifs at h with hc
    cases h
    have hpolls := hs.polls_inTransport hc.2
    refine { hs with opened := fun ho => ?_, waiting := by rintro ⟨⟩, frames := ?_, results := .inr (.inl ?_) }
    · simp only [Option.isSome_map]
      exact hs.opened ho
    · simp only [hpolls, List.forall_mem_singleton]
      rintro (h | h)
      · cases h
      · cases h
    · simp only [hpolls, List.mem_singleton, exists_eq_left]
      exact ⟨false, rfl⟩
  | start result opened =>
    simp only [machine, WakingHost.step] at h
    split_ifs at h with hc
    all_goals
      cases h
      have hstack := List.isEmpty_iff.1 hc
      refine { hs with opened := ?_, frames := ?_, results := .inl ?_ }
    · exact fun _ => rfl
    · simp only [hstack]
      exact List.forall_mem_nil _
    · simp only [hstack]
      exact .outside
    · rename_i hnot
      simp only [Bool.or_eq_true, not_or] at hnot
      intro ho
      refine hs.opened (ho.imp_left fun hst => ?_)
      simpa [SidecarDispatcher.start, hnot.2] using hst
    · simp only [hstack]
      exact List.forall_mem_nil _
    · simp only [hstack]
      exact .outside
  | stop =>
    simp only [machine, WakingHost.step] at h
    split_ifs at h with hc
    cases h
    have hstack := List.isEmpty_iff.1 hc
    refine { hs with opened := fun ho => ?_, frames := ?_, results := .inl ?_ }
    · simp only [wakeup, Option.isSome_map]
      exact hs.opened (ho.imp_left (by rintro ⟨⟩))
    · simp only [wakeup, hstack]
      exact List.forall_mem_nil _
    · simp only [wakeup, hstack]
      exact .outside

/-- **No wakeup is lost.** -/
theorem run_no_lost_wakeup {as : List WakeAct} (h : machine.run {} as = some s)
    (hblocked : s.transport = .waiting)
    (hqueues : s.thread.queues.dispatcher.sendQueue ≠ [] ∨ s.thread.queues.resultQueue ≠ []) :
    (∃ n, s.wakeFd = some n ∧ 0 < n) ∨ 0 < s.waking := by
  have hs : s.Inv := Lts.Machine.run_inv (fun _ _ _ hs h => hs.step h) .init h
  obtain ⟨below, hb⟩ := polls_of_inTransport (hs.waiting hblocked)
  have hpolls := hs.polls_inTransport (hs.waiting hblocked)
  have hmem : PollPc.unlock ∈ polls s.thread.stack := by
    rw [hpolls]
    exact List.mem_singleton_self _
  have hwoken : s.Woken := by
    obtain hframes | hresults := hqueues
    · exact hs.frames .unlock hmem (.inr hblocked) hframes
    · obtain hd | ⟨pc, hpc, haw⟩ | hc := hs.results
      · rw [hb] at hd
        cases hd
      · rw [hpolls, List.mem_singleton] at hpc
        rw [hpc] at haw
        obtain ⟨w, hw⟩ := haw
        rw [hblocked] at hw
        cases hw
      · exact hc hresults
  obtain ⟨n, hn⟩ := Option.isSome_iff_exists.1 (hs.opened (.inr (List.ne_nil_of_mem hmem)))
  obtain hpending | hcounter := hwoken
  · exact .inr hpending
  · exact .inl ⟨n, hn, hcounter n hn⟩

/-- The thread polls and blocks. -/
def blockingRun : List WakeAct :=
  [.start (.ok ()) true, .thread (.call .hostPollOnce), .thread (.next {}), .thread (.next {}),
    .thread (.next {}), .thread (.next {}), .thread (.next {}), .thread (.next {}), .epollWait]

/-- A worker has queued its result, and is about to wake the thread. -/
theorem run_no_lost_wakeup_result :
    ∃ s, machine.run {} (blockingRun ++ [.thread (.otherResult (.worker 0) (.cmd { id := 7 }) 1)]) = some s ∧
      s.transport = .waiting ∧ s.thread.queues.resultQueue ≠ [] ∧
      ((∃ n, s.wakeFd = some n ∧ 0 < n) ∨ 0 < s.waking) := by
  have hrun : (machine.run {} (blockingRun ++
      [.thread (.otherResult (.worker 0) (.cmd { id := 7 }) 1)])).map
        (fun s => (s.transport, s.thread.queues.resultQueue.length)) = some (.waiting, 1) := rfl
  obtain ⟨s, hs, he⟩ := Option.map_eq_some_iff.1 hrun
  simp only [Prod.mk.injEq] at he
  have hne : s.thread.queues.resultQueue ≠ [] := List.ne_nil_of_length_pos (by omega)
  exact ⟨s, hs, he.1, hne, run_no_lost_wakeup hs he.1 (.inr hne)⟩

end WakingHost

end Phi.Host
