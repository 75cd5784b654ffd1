import PhiSidecar.Host.Restart

/-!
# Stop as a barrier (`sidecar.cpp`: `SidecarDispatcher::start`, `stop`, `queueOutboundFrame`)

`stop` lowers the flag, clears the queue and closes the transport, in three steps; `start` opens the
transport and raises the flag, and clears nothing. A call of `queueOutboundFrame` tests the flag and
takes the queue lock later. One thread starts and stops the dispatcher; calls and the thread that polls
go on in between. That thread accepts connections, and does so between two flushes.

Ghost state: `stops` counts the calls of `stop` that have returned, and the origin of a frame is that
number when its call tested the flag. `written` says of every frame how many stops were over when the
dispatcher was started for the last time before it was written.

* `run_barrier`: **if no call takes the queue lock after a `stop` has cleared the queue that it began
  before, no frame is written after a start that follows a `stop` which returned after its call began**.
* `run_crosses`: one that does is written in the next session.
-/

set_option autoImplicit false

namespace Phi.Host

open Phi.V1 Phi.Wire Phi.Dispatcher

/-- Where the thread is that starts and stops the dispatcher. -/
inductive Control
  | idle
  /-- In `stop`, after the write of the flag. -/
  | flagged
  /-- In `stop`, after the queue was cleared. -/
  | cleared
  /-- In `start`, after the transport was opened. -/
  | opened
  deriving DecidableEq

structure Periods where
  dispatcher : SidecarDispatcher Nat := {}
  control : Control := .idle
  /-- The calls of `stop` that have returned. -/
  stops : Nat := 0
  /-- How often `stop` has cleared the queue. -/
  clears : Nat := 0
  /-- `stops` at the last start. -/
  startedAfter : Nat := 0
  written : List (Nat × OutboundFrame Nat) := []

inductive PeriodAct
  /-- A call of `queueOutboundFrame`, or what the polling thread does. -/
  | traffic (a : Act Nat)
  | stopFlag
  | stopClear
  | stopReturn
  | startTransport (result : Except Bytes Unit)
  | startFlag

namespace Periods

/-- A call begins in the current period, and connections are accepted between flushes. -/
def enabled (s : Periods) : Act Nat → Bool
  | .check frame _ => frame.origin = s.stops
  | .push _ _ _ | .flush | .send _ _ _ | .disconnect => true
  | .connect => s.dispatcher.localQueue.isEmpty
  | .start _ | .stop | .stopRuntime => false

/-- A step of the dispatcher, with the frames that it wrote. -/
def onDispatcher (s : Periods) (dispatcher : SidecarDispatcher Nat) : Periods :=
  { s with
    dispatcher
    written := s.written ++
      (dispatcher.history.written.drop s.dispatcher.history.written.length).map (s.startedAfter, ·) }

def step (s : Periods) : PeriodAct → Option Periods
  | .traffic a => if s.enabled a then (s.dispatcher.step a).map s.onDispatcher else none
  | .stopFlag =>
    if s.control = .idle then
      some { s with control := .flagged, dispatcher := { s.dispatcher with started := false } }
    else none
  | .stopClear =>
    if s.control = .flagged then
      some { s with
        control := .cleared
        clears := s.clears + 1
        dispatcher := { s.dispatcher with
          sendQueue := []
          history.lost := s.dispatcher.history.lost ++ s.dispatcher.sendQueue.map Loss.cleared } }
    else none
  | .stopReturn =>
    if s.control = .cleared then
      some { s with
        control := .idle
        stops := s.stops + 1
        dispatcher := { s.dispatcher with runtime := s.dispatcher.runtime.stop } }
    else none
  | .startTransport result =>
    if s.control = .idle then
      let s := { s with dispatcher := { s.dispatcher with runtime := s.dispatcher.runtime.stop } }
      match result with
      | .ok () => some { s with control := .opened, startedAfter := s.stops }
      | .error _ => some s
    else none
  | .startFlag =>
    if s.control = .opened then
      some { s with control := .idle, dispatcher := { s.dispatcher with started := true } }
    else none

def machine : Lts.Machine Periods PeriodAct := ⟨step⟩

variable {s t : Periods}

/-- Without a step of another thread in between, that is the `stop` of the dispatcher. -/
theorem stop_run (h : s.control = .idle) :
    machine.run s [.stopFlag, .stopClear, .stopReturn] = some { s with
      dispatcher := s.dispatcher.stop, stops := s.stops + 1, clears := s.clears + 1 } := by
  simp [Lts.Machine.run_cons, machine, step, h, SidecarDispatcher.stop]

theorem start_run (h : s.control = .idle) :
    machine.run s [.startTransport (.ok ()), .startFlag] = some { s with
      dispatcher := s.dispatcher.start (.ok ()), startedAfter := s.stops } := by
  simp [Lts.Machine.run_cons, machine, step, h, SidecarDispatcher.start, Lifecycle.isOk]

/-! ## The barrier -/

/-- No call takes the queue lock after the queue was cleared that began before. -/
def Timely (s : Periods) : PeriodAct → Prop
  | .traffic (.push k _ _) => ∀ frame ∈ s.dispatcher.calls[k]?, s.clears ≤ frame.origin
  | _ => True

instance decidableTimely (s : Periods) : ∀ a, Decidable (s.Timely a)
  | .traffic (.push k _ _) =>
    inferInstanceAs (Decidable (∀ frame ∈ s.dispatcher.calls[k]?, s.clears ≤ frame.origin))
  | .traffic (.check _ _) | .traffic .flush | .traffic (.send _ _ _) | .traffic .connect
  | .traffic .disconnect | .traffic (.start _) | .traffic .stop | .traffic .stopRuntime
  | .stopFlag | .stopClear | .stopReturn | .startTransport _ | .startFlag => .isTrue trivial

/-- Frames of an earlier period are gone, or wait for a client that will not come. -/
structure Inv (s : Periods) : Prop where
  stops : s.stops ≤ s.clears
  cleared : s.control = .cleared → s.stops < s.clears
  startedAfter : s.startedAfter ≤ s.clears
  queue : ∀ f ∈ s.dispatcher.sendQueue, s.clears ≤ f.origin
  batch : s.dispatcher.runtime.client = true →
    ∀ f ∈ s.dispatcher.localQueue, s.startedAfter ≤ f.origin
  written : ∀ p ∈ s.written, p.1 ≤ p.2.origin

theorem Inv.init : Inv {} where
  stops := Nat.le_refl 0
  cleared := by decide
  startedAfter := Nat.le_refl 0
  queue := List.forall_mem_nil _
  batch _ := List.forall_mem_nil _
  written := List.forall_mem_nil _

end Periods

end Phi.Host

namespace Phi.Dispatcher.SidecarDispatcher

open Phi.V1 Phi.Wire Phi.Transport

variable {τ : Type}

/-- Nothing is written without a client. -/
theorem sendFront_no_client {s : SidecarDispatcher τ} (hc : s.runtime.client = false)
    (frame : OutboundFrame τ) (writeHeader writePayload : Except Bytes Unit) (tsMs : Int) :
    (s.sendFront frame writeHeader writePayload tsMs).history.written = s.history.written := by
  have hsend : s.runtime.send (frameHeader frame) frame.payload writeHeader writePayload =
      (s.runtime, .error (lit "no connected client")) := by
    unfold UdsEpollServer.send
    exact if_neg (Bool.eq_false_iff.1 hc)
  simp only [sendFront, hsend, hc, Bool.not_false, if_true]
  split
  · obtain ⟨d, ls, -, hr⟩ := reportSendFailure_cases
      { s with history.lost := s.history.lost ++ [Loss.failed frame] } frame
      (lit "no connected client") tsMs
    obtain ⟨ls', -, hd⟩ := dropRemaining_cases
      ({ s with history.lost := s.history.lost ++ [Loss.failed frame] }.reportSendFailure frame
        (lit "no connected client") tsMs) frame
    rw [hd, hr]
  · obtain ⟨ls, -, hd⟩ := dropRemaining_cases
      { s with
        history.lost := s.history.lost ++ [Loss.failed frame]
        onProtocolError := s.onProtocolError ++
          [lit "Failed to send outbound frame: " ++ lit "no connected client"] } frame
    rw [hd]

/-- A step that writes a frame has a client. -/
theorem sent_client {s t : SidecarDispatcher τ} {frame : OutboundFrame τ}
    {rest : List (OutboundFrame τ)} {writeHeader writePayload : Except Bytes Unit} {tsMs : Int}
    (hq : s.localQueue = frame :: rest)
    (h : s.step (.send writeHeader writePayload tsMs) = some t)
    (hwritten : t.history.written = s.history.written ++ [frame]) : s.runtime.client = true := by
  by_contra hc
  simp only [step, hq, Option.some.injEq] at h
  have hsame := sendFront_no_client (s := { s with localQueue := rest }) (Bool.eq_false_iff.2 hc) frame
    writeHeader writePayload tsMs
  rw [h, hwritten] at hsame
  simpa using congrArg List.length hsame

end Phi.Dispatcher.SidecarDispatcher

namespace Phi.Host.Periods

open Phi.V1 Phi.Wire Phi.Dispatcher

variable {s t : Periods}

/-- A step of the dispatcher that writes nothing. -/
theorem Inv.onDispatcher (hs : s.Inv) {d : SidecarDispatcher Nat}
    (hwritten : d.history.written = s.dispatcher.history.written)
    (hqueue : ∀ f ∈ d.sendQueue, s.clears ≤ f.origin)
    (hbatch : d.runtime.client = true → ∀ f ∈ d.localQueue, s.startedAfter ≤ f.origin) :
    (s.onDispatcher d).Inv where
  stops := hs.stops
  cleared := hs.cleared
  startedAfter := hs.startedAfter
  queue := hqueue
  batch := hbatch
  written := by
    rw [Periods.onDispatcher, hwritten, List.drop_length, List.map_nil, List.append_nil]
    exact hs.written

theorem Inv.traffic (hs : s.Inv) {a : Act Nat} (hok : Timely s (.traffic a)) (ha : s.enabled a = true)
    {d : SidecarDispatcher Nat} (h : s.dispatcher.step a = some d) : (s.onDispatcher d).Inv := by
  cases a with
  | connect =>
    cases h
    have hempty : s.dispatcher.localQueue = [] := List.isEmpty_iff.1 ha
    refine hs.onDispatcher rfl hs.queue fun _ => ?_
    rw [show _ = s.dispatcher.localQueue from rfl, hempty]
    exact List.forall_mem_nil _
  | disconnect =>
    cases h
    exact hs.onDispatcher rfl hs.queue nofun
  | start => cases ha
  | stop => cases ha
  | stopRuntime => cases ha
  | check frame tsMs =>
    cases SidecarDispatcher.step_cases h with
    | refused _ => exact hs.onDispatcher rfl hs.queue hs.batch
    | checked _ => exact hs.onDispatcher rfl hs.queue hs.batch
    | other ho => simp at ho
  | push k tsOverflow tsWarning =>
    have hnew {frame} (hk : s.dispatcher.calls[k]? = some frame) {queue : List (OutboundFrame Nat)}
        (hq : ∀ f ∈ queue, s.clears ≤ f.origin) : ∀ f ∈ queue ++ [frame], s.clears ≤ f.origin :=
      List.forall_mem_append.2 ⟨hq, List.forall_mem_singleton.2 (hok frame hk)⟩
    cases SidecarDispatcher.step_cases h with
    | pushed hk _ _ => exact hs.onDispatcher rfl (hnew hk hs.queue) hs.batch
    | shed hk _ _ _ =>
      exact hs.onDispatcher rfl (hnew hk fun f hf => hs.queue f (List.mem_of_mem_eraseIdx hf)) hs.batch
    | rejected _ _ _ _ _ => exact hs.onDispatcher rfl hs.queue hs.batch
    | other ho => simp at ho
  | flush =>
    cases SidecarDispatcher.step_cases h with
    | flushed _ =>
      exact hs.onDispatcher rfl (List.forall_mem_nil _)
        fun _ f hf => Nat.le_trans hs.startedAfter (hs.queue f hf)
    | other ho => simp at ho
  | send writeHeader writePayload tsMs =>
    have hstep := h
    cases SidecarDispatcher.step_cases h with
    | @sent _ _ _ frame rest hq =>
      -- what is written was in the batch of a client, so it is of the period of the last start
      have hclient := SidecarDispatcher.sent_client hq hstep rfl
      obtain ⟨hframe, hrest⟩ := List.forall_mem_cons.1 (hq ▸ hs.batch hclient)
      refine ⟨hs.stops, hs.cleared, hs.startedAfter, hs.queue, fun _ => hrest, ?_⟩
      rw [Periods.onDispatcher, List.drop_left]
      exact List.forall_mem_append.2 ⟨hs.written, List.forall_mem_singleton.2 hframe⟩
    | failed _ _ _ _ _ => exact hs.onDispatcher rfl hs.queue fun _ => List.forall_mem_nil _
    | other ho => simp at ho

theorem Inv.step (hs : s.Inv) {a : PeriodAct} (hok : Timely s a) (h : machine.step s a = some t) :
    t.Inv := by
  cases a with
  | traffic a =>
    simp only [machine, Periods.step] at h
    split at h
    · next ha =>
      obtain ⟨d, hd, rfl⟩ := Option.map_eq_some_iff.1 h
      exact hs.traffic hok ha hd
    · cases h
  | stopFlag =>
    simp only [machine, Periods.step] at h
    split at h
    · cases h
      exact { hs with cleared := nofun }
    · cases h
  | stopClear =>
    simp only [machine, Periods.step] at h
    split at h
    · cases h
      exact { hs with
        stops := Nat.le_succ_of_le hs.stops
        cleared := fun _ => Nat.lt_succ_of_le hs.stops
        startedAfter := Nat.le_succ_of_le hs.startedAfter
        queue := List.forall_mem_nil _ }
    · cases h
  | stopReturn =>
    simp only [machine, Periods.step] at h
    split at h
    · next hc =>
      cases h
      exact { hs with stops := hs.cleared hc, cleared := nofun, batch := nofun }
    · cases h
  | startTransport result =>
    simp only [machine, Periods.step] at h
    split at h
    · next hc =>
      cases result with
      | ok =>
        cases h
        exact { hs with cleared := nofun, startedAfter := hs.stops, batch := nofun }
      | error =>
        cases h
        exact { hs with batch := nofun }
    · cases h
  | startFlag =>
    simp only [machine, Periods.step] at h
    split at h
    · cases h
      exact { hs with cleared := nofun }
    · cases h

/-- **Stop is a barrier for the calls that do not straddle it.** -/
theorem run_barrier {as : List PeriodAct} (h : machine.run {} as = some s)
    (hok : machine.Along Timely {} as) : ∀ p ∈ s.written, p.1 ≤ p.2.origin := by
  have hinv : s.Inv := Lts.Machine.along_inv (fun _ _ _ hs hok h => hs.step hok h) .init hok h
  exact hinv.written

/-- The frame that a call of `sendJson` hands over in the period `origin`. -/
def event (origin : Nat) : OutboundFrame Nat := sendJson origin .Event 0 (lit "\x7b\x7d")

/-- What the polling thread does for a client that waits. -/
def served : List PeriodAct := [.traffic .connect, .traffic .flush, .traffic (.send (.ok ()) (.ok ()) 0)]

/-- A queued frame is cleared by `stop`; one of the next period is written. -/
def restartedRun : List PeriodAct :=
  [.startTransport (.ok ()), .startFlag, .traffic (.check (event 0) 0), .traffic (.push 0 0 0),
    .stopFlag, .stopClear, .stopReturn, .startTransport (.ok ()), .startFlag,
    .traffic (.check (event 1) 0), .traffic (.push 0 0 0)] ++ served

theorem run_barrier_restarted :
    ∃ s, machine.run {} restartedRun = some s ∧ s.written.map (fun p => (p.1, p.2.origin)) = [(1, 1)] ∧
      ∀ p ∈ s.written, p.1 ≤ p.2.origin := by
  have hrun : (machine.run {} restartedRun).map
      (fun s => s.written.map fun p => (p.1, p.2.origin)) = some [(1, 1)] := rfl
  obtain ⟨s, hs, hwritten⟩ := Option.map_eq_some_iff.1 hrun
  exact ⟨s, hs, hwritten, run_barrier hs (by decide +kernel)⟩

/-- The call passes the started check, and takes the lock when `stop` has returned. -/
def straddlingRun : List PeriodAct :=
  [.startTransport (.ok ()), .startFlag, .traffic (.check (event 0) 0),
    .stopFlag, .stopClear, .stopReturn, .traffic (.push 0 0 0),
    .startTransport (.ok ()), .startFlag] ++ served

/-- It is no barrier for a call that does: its frame is written in the next session. -/
theorem run_crosses :
    ¬ ∀ (as : List PeriodAct) (s : Periods), machine.run {} as = some s →
      ∀ p ∈ s.written, p.1 ≤ p.2.origin := by
  intro hall
  have hrun : (machine.run {} straddlingRun).map
      (fun s => s.written.map fun p => (p.1, p.2.origin)) = some [(1, 0)] := rfl
  obtain ⟨s, hs, hwritten⟩ := Option.map_eq_some_iff.1 hrun
  have hmem : (1, 0) ∈ s.written.map fun p => (p.1, p.2.origin) := by
    rw [hwritten]
    exact List.mem_singleton_self _
  obtain ⟨p, hp, he⟩ := List.mem_map.1 hmem
  have hle := hall straddlingRun s hs p hp
  simp only [Prod.mk.injEq] at he
  omega

end Phi.Host.Periods
