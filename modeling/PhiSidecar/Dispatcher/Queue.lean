import PhiSidecar.Dispatcher.Outbound
import PhiSidecar.Lib.Machine
import PhiSidecar.Transport.UdsEpollServer

/-!
# The outbound queue (`sidecar.cpp`: `queueOutboundFrame`, `flushSendQueue`, `start`, `stop`)

The threads meet at the critical section on the send queue, so a call of `queueOutboundFrame` is
two actions: `check` (the tests before the lock) and `push` (the critical section, with the
diagnostics that follow it, which touch rate limits and stderr only). Frames between the two are in
`calls`. A flush is `flush`, which swaps the queue out into the poll thread's `localQueue`, and one
`send` for each frame of it. The remaining actions are what else happens to a dispatcher.

`history` is ghost state: what became of every frame. A line on stderr remembers the frame it is
about.
-/

set_option autoImplicit false

namespace Phi.Dispatcher

open Phi.V1 Phi.Wire Phi.Transport

def kHostQueueWarnThreshold : Nat := 512
def kHostQueueMaxDepth : Nat := 4096
def kHostDiagRateLimitMs : Int := 5000

section
variable (τ : Type)

structure StderrLine where
  text : Bytes
  frame : Option (OutboundFrame τ) := none

/-- How an accepted frame was lost. -/
inductive Loss
  /-- Shed from the queue it was in. -/
  | shed (frame : OutboundFrame τ) (queue : List (OutboundFrame τ))
  | failed (frame : OutboundFrame τ)
  /-- Behind a frame whose send failed, in the same batch. -/
  | behind (frame failing : OutboundFrame τ)
  | cleared (frame : OutboundFrame τ)

structure History where
  /-- Frames whose call of `queueOutboundFrame` has returned. -/
  returned : List (OutboundFrame τ) := []
  accepted : List (OutboundFrame τ) := []
  rejected : List (OutboundFrame τ) := []
  written : List (OutboundFrame τ) := []
  lost : List (Loss τ) := []

/-- The rate limits and marks of the host diagnostics. -/
structure Diag where
  lastQueueWarningTsMs : Int := 0
  maxObservedQueueDepth : Nat := 0
  lastLogSendFailureTsMs : Int := 0
  suppressedLogSendFailures : Nat := 0
  lastQueueOverflowTsMs : Int := 0

structure SidecarDispatcher where
  runtime : UdsEpollServer := { client := false }
  started : Bool := false
  sendQueue : List (OutboundFrame τ) := []
  droppedOutboundFrames : Nat := 0
  diag : Diag := {}
  calls : List (OutboundFrame τ) := []
  localQueue : List (OutboundFrame τ) := []
  stderr : List (StderrLine τ) := []
  onProtocolError : List Bytes := []
  history : History τ := {}

end

namespace Loss
variable {τ : Type}

/-- The lost frame. -/
def frame : Loss τ → OutboundFrame τ
  | shed f _ | failed f | behind f _ | cleared f => f

/-- Losses that `droppedOutboundFrames` counts. -/
def Counted : Loss τ → Bool
  | shed _ _ | behind _ _ => true
  | failed _ | cleared _ => false

end Loss

namespace SidecarDispatcher

variable {τ : Type}

/-! ## Diagnostics -/

def hostStderrLine (s : SidecarDispatcher τ) (line : StderrLine τ) : SidecarDispatcher τ :=
  { s with stderr := s.stderr ++ [line] }

/-- The end of every line about a lost frame. -/
def messageSuffix (frame : OutboundFrame τ) : Bytes :=
  lit " message=" ++ jsonQuoted (shortened frame.message)

def incidentLine (frame : OutboundFrame τ) (reason : Bytes) : StderrLine τ where
  text := lit "[sidecar][incidentSendFailure][host] plugin=" ++ frame.plugin ++
    lit " externalId=" ++ frame.externalId ++ lit " reason=" ++ reason ++ messageSuffix frame
  frame := some frame

def logFailureLine (frame : OutboundFrame τ) (reason : Bytes) (suppressed : Nat) : StderrLine τ where
  text := lit "[sidecar][logSendFailure][host] plugin=" ++ frame.plugin ++
    lit " externalId=" ++ frame.externalId ++ lit " reason=" ++ reason ++
    lit " suppressed=" ++ toStringU suppressed ++ messageSuffix frame
  frame := some frame

def oversizeLine (frame : OutboundFrame τ) : StderrLine τ where
  text := lit "[sidecar][oversizeFrameRejected][host] plugin=" ++ frame.plugin ++
    lit " externalId=" ++ frame.externalId ++ lit " payloadBytes=" ++
    toStringU frame.payload.length ++ lit " limit=" ++ toStringU kMaxPayloadSize.toNat ++
    messageSuffix frame
  frame := some frame

/-- The fallback line for a log frame or incident that cannot be sent. -/
def reportSendFailure (s : SidecarDispatcher τ) (frame : OutboundFrame τ) (reason : Bytes) (tsMs : Int) :
    SidecarDispatcher τ :=
  if frame.isIncident then s.hostStderrLine (incidentLine frame reason)
  else if frame.isLogFrame then
    if kHostDiagRateLimitMs ≤ tsMs - s.diag.lastLogSendFailureTsMs then
      let suppressed := s.diag.suppressedLogSendFailures
      { s with diag.lastLogSendFailureTsMs := tsMs, diag.suppressedLogSendFailures := 0 }
        |>.hostStderrLine (logFailureLine frame reason suppressed)
    else
      { s with diag.suppressedLogSendFailures := s.diag.suppressedLogSendFailures + 1 }
  else s

/-! ## Enqueueing -/

/-- The tests of `queueOutboundFrame` before the lock: what is reported and returned, if one of
them fails. -/
def checkOutbound (s : SidecarDispatcher τ) (frame : OutboundFrame τ) (tsMs : Int) :
    Option (SidecarDispatcher τ × Bytes) :=
  if !s.started then
    some (s.reportSendFailure frame (lit "dispatcher not started") tsMs,
      lit "dispatcher not started")
  else if frame.payload = [] then
    some (s.reportSendFailure frame (lit "outbound payload must not be empty") tsMs,
      lit "outbound payload must not be empty")
  else if kMaxPayloadSize.toNat < frame.payload.length then
    some (s.hostStderrLine (oversizeLine frame),
      lit "outbound payload exceeds kMaxPayloadSize (" ++ toStringU frame.payload.length ++
        lit " > " ++ toStringU kMaxPayloadSize.toNat ++ lit " bytes)")
  else none

/-- The frame that is shed from a full queue: the oldest log frame, else the oldest event. -/
def shedIndex (queue : List (OutboundFrame τ)) : Option Nat :=
  match queue.findIdx? (·.isLogFrame) with
  | some i => some i
  | none => queue.findIdx? (·.type = .Event)

/-- What the critical section of `queueOutboundFrame` leaves in the local variables. -/
structure Enqueued where
  rejected : Bool := false
  queueDepth : Nat := 0
  maxObservedDepth : Nat := 0
  droppedTotal : Nat := 0

def pushBack (s : SidecarDispatcher τ) (frame : OutboundFrame τ) (droppedTotal : Nat) :
    SidecarDispatcher τ × Enqueued :=
  let queueDepth := s.sendQueue.length + 1
  let maxDepth := max queueDepth s.diag.maxObservedQueueDepth
  ({ s with sendQueue := s.sendQueue ++ [frame]
            diag.maxObservedQueueDepth := maxDepth
            history.accepted := s.history.accepted ++ [frame] },
    { queueDepth, maxObservedDepth := maxDepth, droppedTotal })

/-- The critical section of `queueOutboundFrame`. -/
def enqueue (s : SidecarDispatcher τ) (frame : OutboundFrame τ) : SidecarDispatcher τ × Enqueued :=
  if kHostQueueMaxDepth ≤ s.sendQueue.length then
    match shedIndex s.sendQueue with
    | some i =>
      pushBack
        { s with sendQueue := s.sendQueue.eraseIdx i
                 droppedOutboundFrames := s.droppedOutboundFrames + 1
                 history.lost := s.history.lost ++
                  s.sendQueue[i]?.toList.map (Loss.shed · s.sendQueue) }
        frame (s.droppedOutboundFrames + 1)
    | none =>
      if frame.type = .Event then
        ({ s with droppedOutboundFrames := s.droppedOutboundFrames + 1
                  history.rejected := s.history.rejected ++ [frame] },
          { rejected := true, maxObservedDepth := s.diag.maxObservedQueueDepth,
            droppedTotal := s.droppedOutboundFrames + 1 })
      else pushBack s frame 0
  else pushBack s frame 0

def queueOverflowLine (droppedTotal : Nat) : StderrLine τ where
  text := lit "[sidecar][queueOverflow][host] droppedTotal=" ++ toStringU droppedTotal ++
    lit " maxDepth=" ++ toStringU kHostQueueMaxDepth

def queueBackpressureLine (queueDepth maxObservedDepth droppedTotal : Nat) : StderrLine τ where
  text := lit "[sidecar][queueBackpressure][host] queueDepth=" ++ toStringU queueDepth ++
    lit " maxObservedDepth=" ++ toStringU maxObservedDepth ++ lit " droppedTotal=" ++
    toStringU droppedTotal

def reportOverflow (s : SidecarDispatcher τ) (r : Enqueued) (tsMs : Int) : SidecarDispatcher τ :=
  if 0 < r.droppedTotal ∧ kHostDiagRateLimitMs ≤ tsMs - s.diag.lastQueueOverflowTsMs then
    { s with diag.lastQueueOverflowTsMs := tsMs }.hostStderrLine (queueOverflowLine r.droppedTotal)
  else s

def reportBackpressure (s : SidecarDispatcher τ) (r : Enqueued) (tsMs : Int) : SidecarDispatcher τ :=
  if kHostQueueWarnThreshold ≤ r.queueDepth ∧
      kHostDiagRateLimitMs ≤ tsMs - s.diag.lastQueueWarningTsMs then
    { s with diag.lastQueueWarningTsMs := tsMs }.hostStderrLine
      (queueBackpressureLine r.queueDepth r.maxObservedDepth s.droppedOutboundFrames)
  else s

/-- `queueOutboundFrame` from the lock on. -/
def pushOutbound (s : SidecarDispatcher τ) (frame : OutboundFrame τ) (tsOverflow tsWarning : Int) :
    SidecarDispatcher τ × Except Bytes Unit :=
  let (s, r) := s.enqueue frame
  let s := s.reportOverflow r tsOverflow
  if r.rejected then (s, .error (lit "outbound send queue full"))
  else (s.reportBackpressure r tsWarning, .ok ())

/-! ## Flushing -/

/-- The lock of `flushSendQueue`. -/
def flushBegin (s : SidecarDispatcher τ) : SidecarDispatcher τ :=
  if s.sendQueue = [] then s else { s with localQueue := s.sendQueue, sendQueue := [] }

def sendQueueDroppedLine (remaining droppedTotal : Nat) : StderrLine τ where
  text := lit "[sidecar][sendQueueDropped][host] reason=disconnected dropped=" ++
    toStringU remaining ++ lit " droppedTotal=" ++ toStringU droppedTotal

/-- What `SidecarRuntime::send` puts into the header. -/
def frameHeader (frame : OutboundFrame τ) : FrameHeader :=
  { type := frame.type.raw, correlationId := frame.correlationId }

/-- The branch for a client that is gone: the rest of the batch is dropped with one summary. -/
def dropRemaining (s : SidecarDispatcher τ) (frame : OutboundFrame τ) : SidecarDispatcher τ :=
  let remaining := s.localQueue.length
  if 0 < remaining then
    { s with droppedOutboundFrames := s.droppedOutboundFrames + remaining
             localQueue := []
             history.lost := s.history.lost ++ s.localQueue.map (Loss.behind · frame) }
      |>.hostStderrLine (sendQueueDroppedLine remaining (s.droppedOutboundFrames + remaining))
  else s

/-- One round of the loop of `flushSendQueue`: `frame` is the front of the batch and `s.localQueue`
the rest of it. -/
def sendFront (s : SidecarDispatcher τ) (frame : OutboundFrame τ) (writeHeader writePayload : Except Bytes Unit)
    (tsMs : Int) : SidecarDispatcher τ :=
  match s.runtime.send (frameHeader frame) frame.payload writeHeader writePayload with
  | (runtime, .ok ()) =>
    { s with runtime, history.written := s.history.written ++ [frame] }
  | (runtime, .error sendError) =>
    let clientGone := !runtime.client
    let s := { s with runtime, history.lost := s.history.lost ++ [Loss.failed frame] }
    let s := if frame.isIncident || frame.isLogFrame then s.reportSendFailure frame sendError tsMs
      else { s with onProtocolError :=
        s.onProtocolError ++ [lit "Failed to send outbound frame: " ++ sendError] }
    if clientGone then s.dropRemaining frame else s

/-! ## The machine -/

end SidecarDispatcher

inductive Act (τ : Type)
  /-- A thread calls `queueOutboundFrame`. -/
  | check (frame : OutboundFrame τ) (tsMs : Int)
  /-- The call at a position of `calls` takes the queue lock. -/
  | push (k : Nat) (tsOverflow tsWarning : Int)
  /-- The poll thread swaps the queue out. -/
  | flush
  /-- The poll thread sends the front of its batch. -/
  | send (writeHeader writePayload : Except Bytes Unit) (tsMs : Int)
  | connect
  | disconnect
  | start (result : Except Bytes Unit)
  /-- The first half of `stop`: not started any more, queue cleared. -/
  | stop
  /-- The second half of `stop`, under the runtime mutex. -/
  | stopRuntime

namespace SidecarDispatcher

variable {τ : Type}

def step (s : SidecarDispatcher τ) : Act τ → Option (SidecarDispatcher τ)
  | .check frame tsMs =>
    match s.checkOutbound frame tsMs with
    | none => some { s with calls := s.calls ++ [frame] }
    | some (s, _) => some { s with history.returned := s.history.returned ++ [frame] }
  | .push k tsOverflow tsWarning =>
    s.calls[k]?.map fun frame =>
      ({ s with calls := s.calls.eraseIdx k
                history.returned := s.history.returned ++ [frame] }
        |>.pushOutbound frame tsOverflow tsWarning).1
  | .flush => if s.localQueue = [] then some s.flushBegin else none
  | .send writeHeader writePayload tsMs =>
    match s.localQueue with
    | [] => none
    | frame :: rest =>
      some ({ s with localQueue := rest }.sendFront frame writeHeader writePayload tsMs)
  | .connect => some { s with runtime := s.runtime.acceptClient }
  | .disconnect => some { s with runtime := s.runtime.closeClient }
  | .start result =>
    match result with
    | .ok () => some { s with runtime := s.runtime.stop, started := true }
    | .error _ => some { s with runtime := s.runtime.stop }
  | .stop =>
    some { s with started := false
                  sendQueue := []
                  history.lost := s.history.lost ++ s.sendQueue.map Loss.cleared }
  | .stopRuntime => some { s with runtime := s.runtime.stop }

/-- A dispatcher and the threads that use it. -/
def machine (τ : Type) : Lts.Machine (SidecarDispatcher τ) (Act τ) := ⟨step⟩

end SidecarDispatcher

end Phi.Dispatcher
