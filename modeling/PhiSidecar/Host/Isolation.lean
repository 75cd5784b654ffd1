import PhiSidecar.Host.Fifo
import Mathlib.Logic.Function.Basic

/-!
# Responses and connections (`sidecar.cpp`: `queueDeferredResult`, `drainDeferredResults`,
`flushSendQueue`; `uds_epoll_transport.cpp`: `acceptClient`)

The two queues of the host know nothing of connections: what is queued is written to the client that
is connected when it is flushed. The host thread accepts and closes connections and reads requests
between its drains and flushes.

Ghost state: connections are counted by `session`; `answers` says which connection the request came
from that a call answers, and `submitted` which one was the last when the call was made.

* `run_isolated`: **a response that waits in no queue while a connection is accepted is written to the
  connection that was the last when it was submitted**; so if that was before a later connection was
  accepted than that of its request, it is written to no later one.
* `run_crossed`: a result that is submitted after the next connection was accepted, or waits in a queue
  while it is, is written to it.
-/

set_option autoImplicit false

namespace Phi.Host

open Phi.V1 Phi.Wire Phi.Dispatcher

structure SessionHost where
  queues : HostQueues := {}
  /-- The connections accepted so far. -/
  session : Nat := 0
  /-- The requests read, with their connections. -/
  requests : List (Nat × CorrelationId) := []
  answers : Nat → Option Nat := fun _ => none
  submitted : Nat → Nat := fun _ => 0
  /-- The frames written, with the connection. -/
  written : List (Nat × OutboundFrame Origin) := []

/-- The actions on the queues, with the connection of the request that a call answers. -/
inductive SessionAct
  /-- A request is read from the client. -/
  | request (id : CorrelationId)
  | sendResult (caller : Caller) (result : CommandResult) (now : Int64) (answers : Option Nat)
  | call (caller : Caller) (call : Outbound) (now : Int64) (clock : Clock) (answers : Option Nat)
  | drainBegin
  | drainNext (now : Int64) (clock : Clock)
  | net (a : Net)

/-- A connection is accepted. -/
def Net.isConnect : Net → Bool
  | connect => true
  | _ => false

namespace SessionHost

/-- The host thread is in no drain and no flush. -/
def polling (s : SessionHost) : Bool :=
  s.queues.draining.isEmpty && s.queues.dispatcher.localQueue.isEmpty

/-- When the host thread gets to the action. -/
def enabled (s : SessionHost) : Net → Bool
  | .send _ _ _ => true
  | .flush => s.queues.draining.isEmpty
  | _ => s.polling

/-- An answer is to a request that was read. -/
def mayAnswer (s : SessionHost) (answers : Option Nat) (id : CorrelationId) : Bool :=
  match answers with
  | none => true
  | some k => (k, id) ∈ s.requests

/-- A step of the queues, with the frames that it wrote. -/
def onQueues (s : SessionHost) (queues : HostQueues) : SessionHost :=
  { s with
    queues
    written := s.written ++
      (queues.dispatcher.history.written.drop s.queues.dispatcher.history.written.length).map
        (s.session, ·) }

/-- The next call answers a request, or none. -/
def submit (s : SessionHost) (answers : Option Nat) : SessionHost :=
  { s with
    answers := Function.update s.answers s.queues.seq answers
    submitted := Function.update s.submitted s.queues.seq s.session }

def step (s : SessionHost) : SessionAct → Option SessionHost
  | .request id =>
    if s.polling && s.queues.dispatcher.runtime.client then
      some { s with requests := s.requests ++ [(s.session, id)] }
    else none
  | .sendResult caller result now answers =>
    if s.mayAnswer answers result.id then
      (s.queues.step (.sendResult caller result now)).map (s.submit answers).onQueues
    else none
  | .call caller call now clock answers =>
    let frame := call.frame () now
    if s.mayAnswer answers frame.correlationId && (answers.isNone || frame.type = .Response) then
      (s.queues.step (.call caller call now clock)).map (s.submit answers).onQueues
    else none
  | .drainBegin =>
    if s.queues.dispatcher.localQueue.isEmpty then (s.queues.step .drainBegin).map s.onQueues else none
  | .drainNext now clock => (s.queues.step (.drainNext now clock)).map s.onQueues
  | .net a =>
    if s.enabled a then
      (s.queues.step (.net a)).map fun queues =>
        if a.isConnect then { s.onQueues queues with session := s.session + 1 } else s.onQueues queues
    else none

def machine : Lts.Machine SessionHost SessionAct := ⟨step⟩

/-- The response of a call is written to the connection that was the last when it was submitted: it is
written to no later one than its request was read from, unless it was submitted after that one was
accepted. -/
def Isolated (call : Nat) (s : SessionHost) : Prop :=
  ∀ n f, (n, f) ∈ s.written → f.type = .Response → f.origin.seq = call → n = s.submitted call ∧
    ∀ k, s.answers call = some k → k < n → k < s.submitted call

end SessionHost

/-! ## What a step of the queues moves -/

namespace HostQueues

variable {q r : HostQueues}

/-- The frames that wait to be sent. -/
def toSend (q : HostQueues) : List (OutboundFrame Origin) :=
  q.dispatcher.sendQueue ++ q.dispatcher.localQueue

/-- What waits afterwards has waited before or is the call that the step makes, and what is written has
waited to be sent. -/
structure Moves (q r : HostQueues) : Prop where
  results : ∀ d ∈ r.waiting, d ∈ q.waiting ∨ d.seq = q.seq ∧ q.seq < r.seq
  frames : ∀ f ∈ r.toSend, f ∈ q.toSend ∨ (∃ d ∈ q.waiting, f.origin.seq = d.seq) ∨
    f.origin.seq = q.seq ∧ q.seq < r.seq
  written : ∃ new, r.dispatcher.history.written = q.dispatcher.history.written ++ new ∧
    ∀ f ∈ new, f ∈ q.toSend
  seq : q.seq ≤ r.seq

/-- A step that leaves the dispatcher as it is. -/
theorem Moves.of_results (hd : r.dispatcher = q.dispatcher) (hseq : q.seq ≤ r.seq)
    (hresults : ∀ d ∈ r.waiting, d ∈ q.waiting ∨ d.seq = q.seq ∧ q.seq < r.seq) : Moves q r := by
  refine ⟨hresults, fun f hf => .inl ?_, ⟨[], ?_, List.forall_mem_nil _⟩, hseq⟩
  · rw [toSend, hd] at hf
    exact hf
  · rw [hd, List.append_nil]

end HostQueues

end Phi.Host

namespace Phi.Dispatcher.SidecarDispatcher

variable {τ : Type}

/-- A call queues its frame at most. -/
theorem queueOutboundFrame_queues (s : SidecarDispatcher τ) (frame : OutboundFrame τ) (clock : Clock) :
    (∀ f ∈ (s.queueOutboundFrame frame clock).1.sendQueue, f ∈ s.sendQueue ∨ f = frame) ∧
      (s.queueOutboundFrame frame clock).1.localQueue = s.localQueue ∧
      (s.queueOutboundFrame frame clock).1.history.written = s.history.written := by
  unfold queueOutboundFrame
  cases hc : s.checkOutbound frame clock.check with
  | some r =>
    obtain ⟨d, ls, -, ht⟩ := checkOutbound_cases (t := r.1) (e := r.2) hc
    simp only [ht, and_self, and_true]
    exact fun f hf => .inl hf
  | none =>
    rcases enqueue_cases { s with history.returned := s.history.returned ++ [frame] } frame with
      ⟨d, r, -, -, he⟩ | ⟨i, f, d, r, -, -, -, he⟩ | ⟨r, -, -, -, -, he⟩
    · obtain ⟨d', ls, -, hd⟩ := pushOutbound_cases he clock.overflow clock.warning
      simp only [hd, and_self, and_true]
      intro g hg
      rcases List.mem_append.1 hg with hg | hg
      · exact .inl hg
      · exact .inr (List.mem_singleton.1 hg)
    · obtain ⟨d', ls, -, hd⟩ := pushOutbound_cases he clock.overflow clock.warning
      simp only [hd, and_self, and_true]
      intro g hg
      rcases List.mem_append.1 hg with hg | hg
      · exact .inl (List.mem_of_mem_eraseIdx hg)
      · exact .inr (List.mem_singleton.1 hg)
    · obtain ⟨d', ls, -, hd⟩ := pushOutbound_cases he clock.overflow clock.warning
      simp only [hd, and_self, and_true]
      exact fun g hg => .inl hg

end Phi.Dispatcher.SidecarDispatcher

namespace Phi.Host

open Phi.V1 Phi.Wire Phi.Dispatcher

namespace HostQueues

variable {q r : HostQueues}

/-- A call of an outbound function. -/
theorem Moves.enqueue (f : OutboundFrame Origin) (clock : Clock) {seq : Nat} (hseq : q.seq ≤ seq)
    (hresults : ∀ d ∈ r.waiting, d ∈ q.waiting)
    (hd : r.dispatcher = (q.dispatcher.queueOutboundFrame f clock).1) (hr : r.seq = seq)
    (hf : (∃ d ∈ q.waiting, f.origin.seq = d.seq) ∨ f.origin.seq = q.seq ∧ q.seq < seq) :
    Moves q r := by
  obtain ⟨hsend, hlocal, hwritten⟩ := q.dispatcher.queueOutboundFrame_queues f clock
  refine ⟨fun d h => .inl (hresults d h), fun g hg => ?_, ⟨[], ?_, List.forall_mem_nil _⟩, hr ▸ hseq⟩
  · rw [toSend, hd, hlocal] at hg
    rcases List.mem_append.1 hg with hg | hg
    · rcases hsend g hg with hold | rfl
      · exact .inl (List.mem_append_left _ hold)
      · exact .inr (hr ▸ hf)
    · exact .inl (List.mem_append_right _ hg)
  · rw [hd, hwritten, List.append_nil]

theorem Moves.net {a : Net} (h : q.step (.net a) = some r) : Moves q r := by
  obtain ⟨d, hd, rfl⟩ := Option.map_eq_some_iff.1 h
  have hmoves : (∀ f ∈ d.sendQueue ++ d.localQueue, f ∈ q.toSend) →
      (∃ new, d.history.written = q.dispatcher.history.written ++ new ∧ ∀ f ∈ new, f ∈ q.toSend) →
      Moves q { q with dispatcher := d } := fun hf hw =>
    ⟨fun d h => .inl h, fun f h => .inl (hf f h), hw, Nat.le_refl _⟩
  have hkept : d.history.written = q.dispatcher.history.written → ∃ new,
      d.history.written = q.dispatcher.history.written ++ new ∧ ∀ f ∈ new, f ∈ q.toSend := fun hw =>
    ⟨[], by rw [hw, List.append_nil], List.forall_mem_nil _⟩
  cases a with
  | flush =>
    cases SidecarDispatcher.step_cases hd with
    | flushed hlocal =>
      apply hmoves _ (hkept rfl)
      intro f hf
      rw [List.nil_append] at hf
      exact List.mem_append_left _ hf
    | other ho => simp [Net.act] at ho
  | send wh wp tsMs =>
    cases SidecarDispatcher.step_cases hd with
    | @sent _ _ _ frame rest hlocal =>
      have hmem : ∀ f ∈ frame :: rest, f ∈ q.toSend := fun f hf =>
        List.mem_append_right _ (hlocal ▸ hf)
      refine hmoves (fun f hf => ?_) ⟨[frame], rfl, fun f hf => ?_⟩
      · rcases List.mem_append.1 hf with hf | hf
        · exact List.mem_append_left _ hf
        · exact hmem f (List.mem_cons_of_mem _ hf)
      · rw [List.mem_singleton.1 hf]
        exact hmem frame (.head _)
    | failed hlocal _ _ _ _ =>
      apply hmoves _ (hkept rfl)
      intro f hf
      rw [List.append_nil] at hf
      exact List.mem_append_left _ hf
    | other ho => simp [Net.act] at ho
  | connect =>
    cases hd
    exact hmoves (fun f hf => hf) (hkept rfl)
  | disconnect =>
    cases hd
    exact hmoves (fun f hf => hf) (hkept rfl)
  | start result =>
    cases result with
    | ok =>
      cases hd
      exact hmoves (fun f hf => hf) (hkept rfl)
    | error e =>
      cases hd
      exact hmoves (fun f hf => hf) (hkept rfl)
  | stop =>
    cases hd
    apply hmoves _ (hkept rfl)
    intro f hf
    exact List.mem_append_right _ hf
  | stopRuntime =>
    cases hd
    exact hmoves (fun f hf => hf) (hkept rfl)

/-- **Every step of the queues moves what waits**. -/
theorem step_moves {a : QueueAct} (h : q.step a = some r) : Moves q r := by
  cases a with
  | sendResult caller result now =>
    cases h
    obtain ⟨d, -, hseq, hw | hw⟩ := q.queue_waiting caller result now
    · refine Moves.of_results rfl (Nat.le_succ _) fun e he => ?_
      rw [hw] at he
      rcases List.mem_append.1 he with he | he
      · exact .inl he
      · rw [List.mem_singleton.1 he]
        exact .inr ⟨hseq, Nat.lt_succ_self _⟩
    · refine Moves.of_results rfl (Nat.le_succ _) fun e he => ?_
      rw [hw] at he
      exact .inl he
  | call caller call now clock =>
    cases h
    refine Moves.enqueue (call.frame ⟨caller, q.seq, call⟩ now) clock (Nat.le_succ _) (fun d h => h) rfl rfl ?_
    rw [Outbound.frame_origin]
    exact .inr ⟨rfl, Nat.lt_succ_self _⟩
  | drainBegin =>
    obtain ⟨hd, h⟩ := Option.ite_none_right_eq_some.1 h
    cases h
    refine Moves.of_results rfl (Nat.le_refl _) fun e he => .inl ?_
    simpa [waiting, HostQueues.drainBegin, List.isEmpty_iff.1 hd] using he
  | drainNext now clock =>
    simp only [HostQueues.step] at h
    split at h
    · cases h
    · next d rest hd =>
      cases h
      have hrest : ∀ e ∈ HostQueues.waiting { q with draining := rest }, e ∈ q.waiting := by
        intro e he
        simp only [waiting, List.mem_filter, List.mem_append] at he ⊢
        refine ⟨he.1.imp_left fun h => ?_, he.2⟩
        rw [hd]
        exact List.mem_cons_of_mem _ h
      rcases drainResult_cases { q with draining := rest } d now clock with ⟨-, he⟩ | ⟨hid, reports, he⟩
      · rw [he]
        exact Moves.of_results rfl (Nat.le_refl _) fun e h => .inl (hrest e h)
      · rw [he]
        refine Moves.enqueue (d.result.frame d.origin now) clock (Nat.le_refl _) hrest rfl rfl
          (.inl ⟨d, ?_, ?_⟩)
        · simp [waiting, hd, hid]
        · rw [CommandResult.frame_origin]
          rfl
  | net a => exact Moves.net h

end HostQueues

namespace SessionHost

variable {s t : SessionHost} {call : Nat}

/-- The response of the call does not wait when a connection is accepted. -/
def NoneWaits (call : Nat) (s : SessionHost) : SessionAct → Prop
  | .net .connect => (∀ d ∈ s.queues.waiting, d.seq ≠ call) ∧
    ∀ f ∈ s.queues.dispatcher.sendQueue, f.type = .Response → f.origin.seq ≠ call
  | _ => True

instance decidableNoneWaits (call : Nat) (s : SessionHost) : ∀ a, Decidable (s.NoneWaits call a)
  | .net .connect => inferInstanceAs (Decidable ((∀ d ∈ s.queues.waiting, d.seq ≠ call) ∧
      ∀ f ∈ s.queues.dispatcher.sendQueue, f.type = .Response → f.origin.seq ≠ call))
  | .net (.start _) | .net .stop | .net .stopRuntime | .net .disconnect | .net .flush
  | .net (.send _ _ _) | .request _ | .sendResult _ _ _ _ | .call _ _ _ _ _ | .drainBegin
  | .drainNext _ _ => .isTrue trivial

/-- The response of the call waits only for the connection it was submitted to, and is written to that
one. -/
structure Inv (call : Nat) (s : SessionHost) : Prop where
  results : ∀ d ∈ s.queues.waiting, d.seq < s.queues.seq ∧
    (d.seq = call → s.submitted d.seq = s.session)
  frames : ∀ f ∈ s.queues.toSend, f.origin.seq < s.queues.seq ∧
    (f.type = .Response → f.origin.seq = call → s.submitted f.origin.seq = s.session)
  written : ∀ n f, (n, f) ∈ s.written → f.origin.seq < s.queues.seq ∧
    (f.type = .Response → f.origin.seq = call → s.submitted f.origin.seq = n)

theorem inv_new (call : Nat) : Inv call {} := by
  refine ⟨List.forall_mem_nil _, List.forall_mem_nil _, ?_⟩
  intro n f hf
  exact absurd hf List.not_mem_nil

/-- The next call. -/
theorem submitted_submit (s : SessionHost) (answers : Option Nat) :
    (s.submit answers).submitted s.queues.seq = s.session := Function.update_self ..

theorem Inv.submit (h : s.Inv call) (answers : Option Nat) : (s.submit answers).Inv call := by
  have hsame : ∀ {n : Nat}, n < s.queues.seq → (s.submit answers).submitted n = s.submitted n :=
    fun hn => Function.update_of_ne (Nat.ne_of_lt hn) ..
  refine ⟨fun d hd => ?_, fun f hf => ?_, fun n f hf => ?_⟩
  · obtain ⟨hlt, he⟩ := h.results d hd
    exact ⟨hlt, fun hd => (hsame hlt).trans (he hd)⟩
  · obtain ⟨hlt, he⟩ := h.frames f hf
    exact ⟨hlt, fun hr hf => (hsame hlt).trans (he hr hf)⟩
  · obtain ⟨hlt, he⟩ := h.written n f hf
    exact ⟨hlt, fun hr hf => (hsame hlt).trans (he hr hf)⟩

/-- A step of the queues within a connection; a call that it makes has been submitted to it. -/
theorem Inv.onQueues (h : s.Inv call) {queues : HostQueues} (hm : s.queues.Moves queues)
    (hcall : s.queues.seq < queues.seq → s.submitted s.queues.seq = s.session) :
    (s.onQueues queues).Inv call := by
  refine ⟨fun d hd => ?_, fun f hf => ?_, fun n f hf => ?_⟩
  · rcases hm.results d hd with hold | ⟨hseq, hlt⟩
    · obtain ⟨hlt, he⟩ := h.results d hold
      exact ⟨Nat.lt_of_lt_of_le hlt hm.seq, he⟩
    · exact ⟨hseq ▸ hlt, fun _ => hseq ▸ hcall hlt⟩
  · rcases hm.frames f hf with hold | ⟨d, hd, hseq⟩ | ⟨hseq, hlt⟩
    · obtain ⟨hlt, he⟩ := h.frames f hold
      exact ⟨Nat.lt_of_lt_of_le hlt hm.seq, he⟩
    · obtain ⟨hlt, he⟩ := h.results d hd
      rw [hseq]
      exact ⟨Nat.lt_of_lt_of_le hlt hm.seq, fun _ => he⟩
    · rw [hseq]
      exact ⟨hlt, fun _ _ => hcall hlt⟩
  · obtain ⟨new, hw, hnew⟩ := hm.written
    rcases List.mem_append.1 hf with hold | hf
    · obtain ⟨hlt, he⟩ := h.written n f hold
      exact ⟨Nat.lt_of_lt_of_le hlt hm.seq, he⟩
    · rw [hw, List.drop_left] at hf
      obtain ⟨g, hg, he⟩ := List.mem_map.1 hf
      cases he
      obtain ⟨hlt, he⟩ := h.frames f (hnew f hg)
      exact ⟨Nat.lt_of_lt_of_le hlt hm.seq, he⟩

theorem Inv.step_queues (h : s.Inv call) {a : QueueAct} {queues : HostQueues}
    (ha : s.queues.step a = some queues)
    (hcall : s.queues.seq < queues.seq → s.submitted s.queues.seq = s.session) :
    (s.onQueues queues).Inv call := h.onQueues (HostQueues.step_moves ha) hcall

/-- A connection that is accepted does not find the response. -/
theorem Inv.accept (h : s.Inv call) (hpoll : s.polling = true) (hok : s.NoneWaits call (.net .connect))
    {queues : HostQueues} (hq : s.queues.step (.net .connect) = some queues) :
    Inv call { s.onQueues queues with session := s.session + 1 } := by
  obtain ⟨hresults, hsend⟩ := hok
  cases hq
  have hlocal : s.queues.dispatcher.localQueue = [] :=
    List.isEmpty_iff.1 (Bool.and_eq_true_iff.1 hpoll).2
  refine ⟨fun d hd => ?_, fun f hf => ?_, fun n f hf => ?_⟩
  · exact ⟨(h.results d hd).1, fun he => absurd he (hresults d hd)⟩
  · refine ⟨(h.frames f hf).1, fun hr he => ?_⟩
    have hmem : f ∈ s.queues.dispatcher.sendQueue ++ s.queues.dispatcher.localQueue := hf
    rw [hlocal, List.append_nil] at hmem
    exact absurd he (hsend f hmem hr)
  · apply h.written n f
    have hmem : (n, f) ∈ s.written ++ (s.queues.dispatcher.history.written.drop
        s.queues.dispatcher.history.written.length).map (s.session, ·) := hf
    rw [List.drop_length, List.map_nil, List.append_nil] at hmem
    exact hmem

/-- The steps of the queues that make no call. -/
theorem seq_net {q r : HostQueues} {a : Net} (h : q.step (.net a) = some r) : r.seq = q.seq := by
  obtain ⟨d, -, rfl⟩ := Option.map_eq_some_iff.1 h
  rfl

/-- **One step** keeps the response within its connection. -/
theorem step_inv (h : s.Inv call) {a : SessionAct} (hok : s.NoneWaits call a) (ht : s.step a = some t) :
    t.Inv call := by
  have hnone : ∀ {r : HostQueues}, r.seq = s.queues.seq →
      s.queues.seq < r.seq → s.submitted s.queues.seq = s.session :=
    fun he hlt => absurd hlt (Nat.not_lt.2 (Nat.le_of_eq he))
  cases a with
  | request id =>
    obtain ⟨-, ht⟩ := Option.ite_none_right_eq_some.1 ht
    cases ht
    exact ⟨h.results, h.frames, h.written⟩
  | sendResult caller result now answers =>
    obtain ⟨-, ht⟩ := Option.ite_none_right_eq_some.1 ht
    obtain ⟨queues, hq, rfl⟩ := Option.map_eq_some_iff.1 ht
    exact (h.submit answers).step_queues hq fun _ => s.submitted_submit answers
  | call caller call now clock answers =>
    obtain ⟨-, ht⟩ := Option.ite_none_right_eq_some.1 ht
    obtain ⟨queues, hq, rfl⟩ := Option.map_eq_some_iff.1 ht
    exact (h.submit answers).step_queues hq fun _ => s.submitted_submit answers
  | drainBegin =>
    obtain ⟨-, ht⟩ := Option.ite_none_right_eq_some.1 ht
    obtain ⟨queues, hq, rfl⟩ := Option.map_eq_some_iff.1 ht
    refine h.step_queues hq (hnone ?_)
    simp only [HostQueues.step] at hq
    split at hq
    · cases hq
      rfl
    · cases hq
  | drainNext now clock =>
    obtain ⟨queues, hq, rfl⟩ := Option.map_eq_some_iff.1 ht
    refine h.step_queues hq (hnone ?_)
    simp only [HostQueues.step] at hq
    split at hq
    · cases hq
    · next d rest hd =>
      cases hq
      rcases HostQueues.drainResult_cases { s.queues with draining := rest } d now clock with
        ⟨-, he⟩ | ⟨-, _, he⟩
      · rw [he]
        rfl
      · rw [he]
  | net a =>
    obtain ⟨hen, ht⟩ := Option.ite_none_right_eq_some.1 ht
    obtain ⟨queues, hq, rfl⟩ := Option.map_eq_some_iff.1 ht
    cases a with
    | connect => exact h.accept hen hok hq
    | _ => exact h.step_queues hq (hnone (seq_net hq))

/-- **A response stays within its connection** if it waits in no queue when a connection is
accepted. -/
theorem run_isolated {acts : List SessionAct} (h : machine.run {} acts = some s)
    (hok : machine.Along (NoneWaits call) {} acts) : s.Isolated call := by
  have hinv : s.Inv call := Lts.Machine.along_inv (I := Inv call)
    (fun _ _ _ hs hok ht => step_inv hs hok ht) (inv_new call) hok h
  rintro n f hf hr rfl
  have hn : s.submitted f.origin.seq = n := (hinv.written n f hf).2 hr rfl
  refine ⟨hn.symm, ?_⟩
  intro k _ hlt
  rw [hn]
  exact hlt

/-- The steps from the deferred queue to the client. -/
def sent : List SessionAct :=
  [.drainBegin, .drainNext 0 {}, .net .flush, .net (.send (.ok ()) (.ok ()) 0)]

/-- The result of the command 7 of the first connection. -/
def result : SessionAct := .sendResult (.worker 1) (.cmd { id := 7 }) 0 (some 1)

/-- The first connection is served, and then replaced while a second result waits. -/
def servedRun : List SessionAct :=
  [.net (.start (.ok ())), .net .connect, .request 7, result] ++ sent ++ [result, .net .connect] ++ sent

theorem run_isolated_served :
    ∃ s, machine.run {} servedRun = some s ∧ s.written.map (fun w => (w.1, w.2.origin.seq)) =
      [(1, 0), (2, 1)] ∧ s.Isolated 0 := by
  have hrun : (machine.run {} servedRun).map
      (fun s => s.written.map fun w => (w.1, w.2.origin.seq)) = some [(1, 0), (2, 1)] := by
    decide +kernel
  obtain ⟨s, hs, hwritten⟩ := Option.map_eq_some_iff.1 hrun
  exact ⟨s, hs, hwritten, run_isolated hs (by decide +kernel)⟩

/-- A response to a request of one connection has been written to a later one. -/
def Crossed (s : SessionHost) : Prop :=
  ∃ n f k, (n, f) ∈ s.written ∧ f.type = .Response ∧ s.answers f.origin.seq = some k ∧ k < n

/-- The next connection is accepted before the result is there. -/
def lateRun : List SessionAct :=
  [.net (.start (.ok ())), .net .connect, .request 7, .net .disconnect, .net .connect, result] ++ sent

/-- The next connection is accepted while the result waits to be drained. -/
def waitingRun : List SessionAct :=
  [.net (.start (.ok ())), .net .connect, .request 7, result, .net .connect] ++ sent

theorem crossed_of_written {run : List SessionAct}
    (h : ((machine.run {} run).bind fun s => s.written.head?.map fun w =>
      (w.1, w.2.type, s.answers w.2.origin.seq)) = some (2, .Response, some 1)) :
    ∃ s, machine.run {} run = some s ∧ s.Crossed := by
  obtain ⟨s, hs, hw⟩ := Option.bind_eq_some_iff.1 h
  obtain ⟨w, hhead, he⟩ := Option.map_eq_some_iff.1 hw
  simp only [Prod.mk.injEq] at he
  obtain ⟨hn, htype, hanswers⟩ := he
  refine ⟨s, hs, 2, w.2, 1, ?_, htype, hanswers, by decide⟩
  rw [← hn]
  exact List.mem_of_head? hhead

/-- Either way the response is written to the second connection. -/
theorem run_crossed :
    (∃ s, machine.run {} lateRun = some s ∧ s.Crossed) ∧
      ∃ s, machine.run {} waitingRun = some s ∧ s.Crossed :=
  ⟨crossed_of_written (by decide +kernel), crossed_of_written (by decide +kernel)⟩

end SessionHost

end Phi.Host
