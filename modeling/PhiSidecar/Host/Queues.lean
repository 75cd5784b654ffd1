import PhiSidecar.Dispatcher.Delivery
import PhiSidecar.Dispatcher.OutboundProof
import PhiSidecar.Dispatcher.Request

/-!
# The two queues of the host (`sidecar.cpp`: `queueDeferredResult`, `drainDeferredResults`)

Results go into the deferred queue and are enqueued for sending by the host thread; every other
outbound function enqueues its frame from the thread that calls it. The atomic steps are the
critical sections on the two queues; the tests before the second one read what no other thread
changes.

Ghost state: `seq` counts the calls of adapters and of the host, and the origin of a frame says who
made which call and when.
-/

set_option autoImplicit false

namespace Phi.Host

open Phi.V1 Phi.Wire Phi.Dispatcher

/-- The thread that makes an outbound call: an execution thread, or the host's own. -/
inductive Caller
  | worker (w : Nat)
  | host
  deriving DecidableEq

/-- The call that a frame comes from. -/
structure Origin where
  caller : Caller
  seq : Nat
  call : Outbound

end Phi.Host

namespace Phi.Dispatcher

/-- The outbound call that sends the result. -/
def CommandResult.outbound : CommandResult → Outbound
  | cmd response => .cmdResult response
  | action response => .actionResult response

@[simp] theorem Outbound.frame_origin {τ : Type} (call : Outbound) (origin : τ) (now : Int64) :
    (call.frame origin now).origin = origin := by
  cases call <;> rfl

@[simp] theorem CommandResult.frame_origin {τ : Type} (result : CommandResult) (origin : τ)
    (now : Int64) : (result.frame origin now).origin = origin := by
  cases result <;> rfl

/-- What `nowMs()` returns in the three places of `queueOutboundFrame`. -/
structure Clock where
  check : Int := 0
  overflow : Int := 0
  warning : Int := 0

namespace SidecarDispatcher

variable {τ : Type}

/-- `queueOutboundFrame`, with nothing between its tests and its critical section. -/
def queueOutboundFrame (s : SidecarDispatcher τ) (frame : OutboundFrame τ) (clock : Clock) :
    SidecarDispatcher τ × Except V1.Utf8String Unit :=
  match s.checkOutbound frame clock.check with
  | some (s, error) => ({ s with history.returned := s.history.returned ++ [frame] }, .error error)
  | none =>
    { s with history.returned := s.history.returned ++ [frame] }.pushOutbound frame clock.overflow
      clock.warning

/-- The call as a run of the dispatcher. -/
theorem queueOutboundFrame_run (s : SidecarDispatcher τ) (frame : OutboundFrame τ) (clock : Clock) :
    ∃ as, (machine τ).run s as = some (s.queueOutboundFrame frame clock).1 := by
  unfold queueOutboundFrame
  cases hc : s.checkOutbound frame clock.check with
  | some r =>
    refine ⟨[.check frame clock.check], ?_⟩
    simp only [Lts.Machine.run_cons, machine, step, hc, Option.bind_some, Lts.Machine.run_nil]
  | none =>
    refine ⟨[.check frame clock.check, .push s.calls.length clock.overflow clock.warning], ?_⟩
    simp [Lts.Machine.run_cons, machine, step, hc, List.eraseIdx_append_of_length_le]

/-- It accepts the frame and returns true, or changes no history but its calls and rejections. -/
theorem queueOutboundFrame_accepted (s : SidecarDispatcher τ) (frame : OutboundFrame τ) (clock : Clock) :
    let r := s.queueOutboundFrame frame clock
    r.2 = .ok () ∧ r.1.history.accepted = s.history.accepted ++ [frame] ∨
      r.2 ≠ .ok () ∧ r.1.history.accepted = s.history.accepted := by
  unfold queueOutboundFrame
  cases hc : s.checkOutbound frame clock.check with
  | some r =>
    obtain ⟨d, ls, -, ht⟩ := checkOutbound_cases (t := r.1) (e := r.2) hc
    exact .inr ⟨nofun, by simp only [ht]⟩
  | none =>
    rcases pushOutbound_result { s with history.returned := s.history.returned ++ [frame] } frame
      clock.overflow clock.warning with ⟨hr, ha⟩ | ⟨hr, ha⟩
    · exact .inl ⟨hr, ha⟩
    · exact .inr ⟨by simp [hr], ha⟩

end SidecarDispatcher

end Phi.Dispatcher

namespace Phi.Host

open Phi.V1 Phi.Wire Phi.Dispatcher

/-- A `DeferredResult`, with the call it comes from. -/
structure DeferredResult where
  result : CommandResult
  caller : Caller
  seq : Nat

namespace DeferredResult

def origin (d : DeferredResult) : Origin := ⟨d.caller, d.seq, d.result.outbound⟩

def id (d : DeferredResult) : CmdId := d.result.id

end DeferredResult

/-- What the threads share, and the `local` queue of a drain. -/
structure HostQueues where
  dispatcher : SidecarDispatcher Origin := {}
  resultQueue : List DeferredResult := []
  draining : List DeferredResult := []
  /-- Texts handed to `reportProtocolError`. -/
  reports : List Utf8String := []
  seq : Nat := 0

namespace HostQueues

/-- `normalizeCmdResponse` and `normalizeActionResponse`. -/
def normalizeResult (now : Int64) : CommandResult → CommandResult
  | .cmd response => .cmd { response with tsMs := tsOrNow response.tsMs now }
  | .action response => .action { response with tsMs := tsOrNow response.tsMs now }

theorem normalizeResult_id (now : Int64) (result : CommandResult) :
    (normalizeResult now result).id = result.id := by
  cases result <;> rfl

def reportProtocolError (s : HostQueues) (message : Utf8String) : HostQueues :=
  { s with reports := s.reports ++ [message] }

/-- `sendResult` of an instance or of the factory. -/
def queueDeferredResult (s : HostQueues) (caller : Caller) (result : CommandResult) (now : Int64) :
    HostQueues :=
  { s with resultQueue := s.resultQueue ++ [⟨normalizeResult now result, caller, s.seq⟩]
           seq := s.seq + 1 }

/-- An outbound function of the dispatcher. -/
def call (s : HostQueues) (caller : Caller) (call : Outbound) (now : Int64) (clock : Clock) :
    HostQueues × Except Utf8String Unit :=
  let (dispatcher, result) :=
    s.dispatcher.queueOutboundFrame (call.frame ⟨caller, s.seq, call⟩ now) clock
  ({ s with dispatcher, seq := s.seq + 1 }, result)

/-- The swap of `drainDeferredResults`. -/
def drainBegin (s : HostQueues) : HostQueues :=
  { s with draining := s.resultQueue, resultQueue := [] }

def droppedText : CommandResult → Utf8String
  | .cmd _ => lit "Dropped command result with id=0"
  | .action _ => lit "Dropped action result with id=0"

def failedText : CommandResult → Utf8String
  | .cmd _ => lit "Failed to send command result: "
  | .action _ => lit "Failed to send action result: "

/-- One round of the loop of `drainDeferredResults`; `s.draining` is what is left after `d`. -/
def drainResult (s : HostQueues) (d : DeferredResult) (now : Int64) (clock : Clock) : HostQueues :=
  if d.id = 0 then s.reportProtocolError (droppedText d.result)
  else
    match s.dispatcher.queueOutboundFrame (d.result.frame d.origin now) clock with
    | (dispatcher, .ok ()) => { s with dispatcher }
    | (dispatcher, .error sendError) =>
      { s with dispatcher }.reportProtocolError (failedText d.result ++ sendError)

end HostQueues

/-! ## The machine -/

/-- What the transport does, and the start and stop of the dispatcher. -/
inductive Net
  | flush
  | send (writeHeader writePayload : Except Bytes Unit) (tsMs : Int)
  | connect
  | disconnect
  | start (result : Except Bytes Unit)
  | stop
  | stopRuntime

def Net.act : Net → Act Origin
  | flush => .flush
  | send writeHeader writePayload tsMs => .send writeHeader writePayload tsMs
  | connect => .connect
  | disconnect => .disconnect
  | start result => .start result
  | stop => .stop
  | stopRuntime => .stopRuntime

inductive QueueAct
  | sendResult (caller : Caller) (result : CommandResult) (now : Int64)
  | call (caller : Caller) (call : Outbound) (now : Int64) (clock : Clock)
  | drainBegin
  | drainNext (now : Int64) (clock : Clock)
  | net (a : Net)

namespace HostQueues

def step (s : HostQueues) : QueueAct → Option HostQueues
  | .sendResult caller result now => some (s.queueDeferredResult caller result now)
  | .call caller call now clock => some (s.call caller call now clock).1
  | .drainBegin => if s.draining.isEmpty then some s.drainBegin else none
  | .drainNext now clock =>
    match s.draining with
    | [] => none
    | d :: rest => some ({ s with draining := rest }.drainResult d now clock)
  | .net a => (s.dispatcher.step a.act).map fun dispatcher => { s with dispatcher }

def machine : Lts.Machine HostQueues QueueAct := ⟨step⟩

/-! ## What a step does to the dispatcher -/

theorem drainResult_cases (s : HostQueues) (d : DeferredResult) (now : Int64) (clock : Clock) :
    d.id = 0 ∧ s.drainResult d now clock = s.reportProtocolError (droppedText d.result) ∨
    d.id ≠ 0 ∧ ∃ reports, s.drainResult d now clock =
      { s with dispatcher := (s.dispatcher.queueOutboundFrame (d.result.frame d.origin now) clock).1
               reports := reports } := by
  unfold drainResult
  by_cases h : d.id = 0
  · exact .inl ⟨h, if_pos h⟩
  · rw [if_neg h]
    refine .inr ⟨h, ?_⟩
    obtain ⟨t, r, hr⟩ : ∃ t r, s.dispatcher.queueOutboundFrame (d.result.frame d.origin now) clock =
      (t, r) := ⟨_, _, rfl⟩
    rw [hr]
    cases r with
    | ok u => exact ⟨s.reports, rfl⟩
    | error e => exact ⟨s.reports ++ [failedText d.result ++ e], rfl⟩

/-- A run of the host's queues contains a run of the dispatcher. -/
theorem dispatches : Lts.Sim machine (SidecarDispatcher.machine Origin)
    fun s d => d = s.dispatcher := by
  rintro s a t _ rfl h
  cases a with
  | sendResult caller result now => cases h; exact ⟨[], _, rfl, rfl⟩
  | call caller call now clock =>
    cases h
    obtain ⟨as, ha⟩ := s.dispatcher.queueOutboundFrame_run
      (call.frame ⟨caller, s.seq, call⟩ now) clock
    exact ⟨as, _, ha, rfl⟩
  | drainBegin =>
    simp only [machine, step] at h
    split at h
    · cases h; exact ⟨[], _, rfl, rfl⟩
    · cases h
  | drainNext now clock =>
    simp only [machine, step] at h
    split at h
    · cases h
    · next d rest _ =>
      cases h
      rcases drainResult_cases { s with draining := rest } d now clock with ⟨-, he⟩ | ⟨-, _, he⟩
      · exact ⟨[], _, rfl, by rw [he]; rfl⟩
      · obtain ⟨as, ha⟩ := s.dispatcher.queueOutboundFrame_run (d.result.frame d.origin now) clock
        exact ⟨as, _, ha, by rw [he]⟩
  | net a =>
    obtain ⟨d, hd, rfl⟩ := Option.map_eq_some_iff.1 h
    exact ⟨[a.act], d, by rw [Lts.Machine.run_cons, show (SidecarDispatcher.machine Origin).step
      s.dispatcher a.act = some d from hd]; rfl, rfl⟩

/-- The transport accepts no frames. -/
theorem net_accepted {s t : SidecarDispatcher Origin} {a : Net} (h : s.step a.act = some t) :
    t.history.accepted = s.history.accepted := by
  cases a <;> cases SidecarDispatcher.step_cases h <;> rfl

end HostQueues

end Phi.Host
