import PhiSidecar.Host.Queues

/-!
# Nested calls on the polling thread (`sidecar.cpp`: both `pollOnce` functions)

`PollingThread` is the thread that polls, with its stack: adapter code that a frame was dispatched to
may poll again, through the host or through the dispatcher, and the functions it calls may call hooks
in turn. The runtime mutex is not recursive; `deadlocked` records that the thread tried to lock it
while holding it.

* `run_no_deadlock`: **in every run in which each flush of a `SidecarHost::pollOnce` that is nested in
  frame dispatch finds the send queue empty, the thread never deadlocks**.
* `nested_flush_deadlocks`: any other such flush is a deadlock.
-/

set_option autoImplicit false

namespace Phi.Host

open Phi.V1 Phi.Wire Phi.Dispatcher

/-- What `SidecarHost::pollOnce` does next. -/
inductive HostPollPc
  | drain
  | flush
  | poll
  | drainAgain
  | flushAgain
  | done
  deriving DecidableEq

/-- What `SidecarDispatcher::pollOnce` does next, after it has set the slot. -/
inductive PollPc
  | flush
  | lock
  | unlock
  | flushAgain
  | done
  deriving DecidableEq

/-- A function on the stack, with its local queue. -/
inductive Activation
  /-- Adapter code, or the transport on its way to it. -/
  | hook
  | drain (rest : List DeferredResult)
  | flush (localQueue : List (OutboundFrame Origin))
  | hostPoll (pc : HostPollPc)
  | poll (pc : PollPc)

structure PollingThread where
  queues : HostQueues := {}
  /-- `m_pollingThread` is this thread. -/
  pollingThread : Bool := false
  /-- This thread holds `m_runtimeMutex`. -/
  runtimeMutex : Bool := false
  stack : List Activation := []
  deadlocked : Bool := false

/-- A call that adapter code makes. -/
inductive HookCall
  | hostPollOnce
  | pollOnce
  | send (caller : Caller) (call : Outbound) (now : Int64) (clock : Clock)
  | sendResult (caller : Caller) (result : CommandResult) (now : Int64)

/-- What the outside answers in one step: times, the writes of a send, and whether a protocol error
report runs a hook on this thread. -/
structure Answers where
  now : Int64 := 0
  clock : Clock := {}
  writeHeader : Except Utf8String Unit := .ok ()
  writePayload : Except Utf8String Unit := .ok ()
  tsMs : Int := 0
  inlineHook : Bool := true

inductive PollAct
  /-- Adapter code, or the main loop, calls a function. -/
  | call (c : HookCall)
  /-- The hook on top of the stack returns. -/
  | ret
  /-- The function on top of the stack goes on. -/
  | next (a : Answers)
  /-- Another thread queues a frame or a result. -/
  | otherSend (caller : Caller) (call : Outbound) (now : Int64) (clock : Clock)
  | otherResult (caller : Caller) (result : CommandResult) (now : Int64)
  /-- The connection changes. -/
  | connection (connected : Bool)

namespace PollingThread

def push (s : PollingThread) (a : Activation) : PollingThread := { s with stack := a :: s.stack }

/-- The lock of `flushSendQueue`: it returns if the queue is empty. -/
def flushSendQueue (s : PollingThread) : PollingThread :=
  if s.queues.dispatcher.sendQueue.isEmpty then s
  else { s with queues.dispatcher.sendQueue := [] }.push (.flush s.queues.dispatcher.sendQueue)

def drainDeferredResults (s : PollingThread) : PollingThread :=
  { s with queues.resultQueue := [] }.push (.drain s.queues.resultQueue)

/-- `SidecarDispatcher::pollOnce` up to its first flush. -/
def pollOnce (s : PollingThread) : PollingThread :=
  if !s.queues.dispatcher.started then s
  else if s.pollingThread then s
  else { s with pollingThread := true }.push (.poll .flush)

/-- A protocol error report: its hook runs on this thread if the factory runs inline. -/
def report (s : PollingThread) (inlineHook : Bool) : PollingThread :=
  if inlineHook then s.push .hook else s

def deadlock (s : PollingThread) : PollingThread := { s with deadlocked := true }

/-- One frame of `flushSendQueue`: lock, send, unlock; `rest` is what is left of the batch. -/
def sendFrame (s : PollingThread) (frame : OutboundFrame Origin) (rest : List (OutboundFrame Origin))
    (a : Answers) : PollingThread :=
  let d := { s.queues.dispatcher with localQueue := rest }.sendFront frame a.writeHeader
    a.writePayload a.tsMs
  let reported := d.onProtocolError.length != s.queues.dispatcher.onProtocolError.length
  let s := { s with queues.dispatcher := { d with localQueue := [] } }.push (.flush d.localQueue)
  if reported then s.report a.inlineHook else s

/-- One result of `drainDeferredResults`. -/
def drainResult (s : PollingThread) (d : DeferredResult) (rest : List DeferredResult) (a : Answers) :
    PollingThread :=
  let queues := s.queues.drainResult d a.now a.clock
  let reported := queues.reports.length != s.queues.reports.length
  let s := { s with queues }.push (.drain rest)
  if reported then s.report a.inlineHook else s

/-- The function on top of the stack goes on; `s.stack` is the stack below it. -/
def next (s : PollingThread) (a : Answers) : Activation → Option PollingThread
  | .hook => none
  | .hostPoll .drain => some (s.push (.hostPoll .flush)).drainDeferredResults
  | .hostPoll .flush => some (s.push (.hostPoll .poll)).flushSendQueue
  | .hostPoll .poll => some (s.push (.hostPoll .drainAgain)).pollOnce
  | .hostPoll .drainAgain => some (s.push (.hostPoll .flushAgain)).drainDeferredResults
  | .hostPoll .flushAgain => some (s.push (.hostPoll .done)).flushSendQueue
  | .hostPoll .done => some s
  | .poll .flush => some (s.push (.poll .lock)).flushSendQueue
  | .poll .lock =>
    if s.runtimeMutex then some (s.push (.poll .lock)).deadlock
    else some ({ s with runtimeMutex := true }.push (.poll .unlock) |>.push .hook)
  | .poll .unlock => some ({ s with runtimeMutex := false }.push (.poll .flushAgain))
  | .poll .flushAgain => some (s.push (.poll .done)).flushSendQueue
  | .poll .done => some { s with pollingThread := false }
  | .drain [] => some s
  | .drain (d :: rest) => some (s.drainResult d rest a)
  | .flush [] => some s
  | .flush (frame :: rest) =>
    if s.runtimeMutex then some (s.push (.flush (frame :: rest))).deadlock
    else some (s.sendFrame frame rest a)

def call (s : PollingThread) : HookCall → PollingThread
  | .hostPollOnce => s.push (.hostPoll .drain)
  | .pollOnce => s.pollOnce
  | .send caller call now clock => { s with queues := (s.queues.call caller call now clock).1 }
  | .sendResult caller result now =>
    { s with queues := s.queues.queueDeferredResult caller result now }

def step (s : PollingThread) : PollAct → Option PollingThread
  | .call c =>
    match s.stack with
    | [] | .hook :: _ => if s.deadlocked then none else some (s.call c)
    | _ => none
  | .ret =>
    match s.stack with
    | .hook :: below => some { s with stack := below }
    | _ => none
  | .next a =>
    match s.stack with
    | top :: below => if s.deadlocked then none else { s with stack := below }.next a top
    | [] => none
  | .otherSend caller call now clock =>
    some { s with queues := (s.queues.call caller call now clock).1 }
  | .otherResult caller result now =>
    some { s with queues := s.queues.queueDeferredResult caller result now }
  | .connection connected =>
    some { s with queues.dispatcher.runtime :=
      if connected then s.queues.dispatcher.runtime.acceptClient
      else s.queues.dispatcher.runtime.closeClient }

def machine : Lts.Machine PollingThread PollAct := ⟨step⟩

/-! ## The guard -/

def pollPc : Activation → Option PollPc
  | .poll pc => some pc
  | _ => none

/-- A flush that has frames to send. -/
def sends : Activation → Bool
  | .flush (_ :: _) => true
  | _ => false

/-- The polls of the dispatcher on the stack. -/
def polls (stack : List Activation) : List PollPc := stack.filterMap pollPc

/-- What was called since the last of them. -/
def above (stack : List Activation) : List Activation := stack.takeWhile fun a => (pollPc a).isNone

/-- The slot is taken exactly while a poll is on the stack, which is then the only one, and the mutex
is held exactly while that poll dispatches. -/
inductive Guard : List PollPc → Bool → Bool → Prop
  | free : Guard [] false false
  | polling (pc : PollPc) : Guard [pc] true (decide (pc = .unlock))

structure Inv (s : PollingThread) : Prop where
  guard : Guard (polls s.stack) s.pollingThread s.runtimeMutex
  /-- While frames are dispatched, no flush that was called from there has anything to send. -/
  batch : s.runtimeMutex = true → ∀ x ∈ above s.stack, sends x = false
  alive : s.deadlocked = false

/-- A flush of a `SidecarHost::pollOnce` that runs while frames are dispatched finds the send queue
empty. -/
def NestedFlushEmpty (s : PollingThread) : PollAct → Prop
  | .next _ => ∀ pc below, s.stack = .hostPoll pc :: below → pc = .flush ∨ pc = .flushAgain →
      s.runtimeMutex = true → s.queues.dispatcher.sendQueue = []
  | _ => True

variable {s t : PollingThread} {a : PollAct}

theorem Inv.push (h : s.Inv) {x : Activation} (hx : pollPc x = none) (hf : sends x = false) :
    (s.push x).Inv := by
  refine ⟨?_, fun hm y hmem => ?_, h.alive⟩
  · simp only [PollingThread.push, polls, List.filterMap_cons, hx]
    exact h.guard
  · simp only [PollingThread.push, above, List.takeWhile_cons, hx, Option.isNone_none, if_true,
      List.mem_cons] at hmem
    exact hmem.elim (fun he => he ▸ hf) (h.batch hm y)

theorem Inv.pop {top : Activation} {below : List Activation} (h : s.Inv)
    (hs : s.stack = top :: below) (hx : pollPc top = none) : { s with stack := below }.Inv := by
  obtain ⟨hg, hb, ha⟩ := h
  simp only [hs, polls, above, List.filterMap_cons, List.takeWhile_cons, hx, Option.isNone_none,
    if_true, List.mem_cons] at hg hb
  exact ⟨hg, fun hm y hmem => hb hm y (.inr hmem), ha⟩

theorem Inv.flushSendQueue (h : s.Inv)
    (hq : s.runtimeMutex = true → s.queues.dispatcher.sendQueue = []) : s.flushSendQueue.Inv := by
  unfold PollingThread.flushSendQueue
  split
  · exact h
  · next hne =>
    have hm : s.runtimeMutex = false := by
      by_contra hm
      exact hne (by rw [hq (by simpa using hm)]; rfl)
    refine ⟨h.guard, fun hm' => ?_, h.alive⟩
    simp only [PollingThread.push, hm] at hm'
    cases hm'

theorem Inv.drain (h : s.Inv) : s.drainDeferredResults.Inv :=
  (show Inv { s with queues.resultQueue := [] } from ⟨h.guard, h.batch, h.alive⟩).push rfl rfl

theorem Guard.of_free {ps : List PollPc} {slot mutex : Bool} (h : Guard ps slot mutex)
    (hs : slot = false) : ps = [] ∧ mutex = false := by
  cases h with
  | free => exact ⟨rfl, rfl⟩
  | polling pc => cases hs

theorem Guard.of_poll {pc : PollPc} {ps : List PollPc} {slot mutex : Bool}
    (h : Guard (pc :: ps) slot mutex) : ps = [] ∧ slot = true ∧ mutex = decide (pc = .unlock) := by
  cases h
  exact ⟨rfl, rfl, rfl⟩

/-- A poll on top of the stack. -/
theorem inv_poll (pc : PollPc) (hst : s.stack = [] ∨ polls s.stack = []) (ha : s.deadlocked = false)
    (hslot : s.pollingThread = true) (hm : s.runtimeMutex = decide (pc = .unlock)) :
    (s.push (.poll pc)).Inv := by
  have hps : polls s.stack = [] := hst.elim (fun h => by rw [h]; rfl) id
  refine ⟨?_, fun _ y hmem => ?_, ha⟩
  · simp only [PollingThread.push, polls, List.filterMap_cons, pollPc, hslot, hm] at hps ⊢
    rw [hps]
    exact .polling pc
  · simp [PollingThread.push, above, pollPc] at hmem

theorem Inv.pollOnce (h : s.Inv) : s.pollOnce.Inv := by
  unfold PollingThread.pollOnce
  split_ifs with hst hp
  · exact h
  · exact h
  · obtain ⟨hps, hm⟩ := h.guard.of_free (by simpa using hp)
    exact inv_poll (s := { s with pollingThread := true }) _ (.inr hps) h.alive rfl hm

theorem Inv.report (h : s.Inv) (inlineHook : Bool) : (s.report inlineHook).Inv := by
  unfold PollingThread.report
  split
  · exact h.push rfl rfl
  · exact h

theorem Inv.call (h : s.Inv) (c : HookCall) : (s.call c).Inv := by
  cases c with
  | hostPollOnce => exact h.push rfl rfl
  | pollOnce => exact h.pollOnce
  | send | sendResult => exact ⟨h.guard, h.batch, h.alive⟩

theorem Inv.sendFrame (h : s.Inv) (hm : s.runtimeMutex = false) (frame : OutboundFrame Origin)
    (rest : List (OutboundFrame Origin)) (a : Answers) : (s.sendFrame frame rest a).Inv := by
  have hpush : ∀ q l, ({ s with queues := q }.push (.flush l)).Inv := fun q l =>
    ⟨h.guard, fun hm' => by simp [PollingThread.push, hm] at hm', h.alive⟩
  unfold PollingThread.sendFrame
  simp only
  split
  · exact (hpush _ _).report _
  · exact hpush _ _

theorem Inv.drainResult (h : s.Inv) (d : DeferredResult) (rest : List DeferredResult) (a : Answers) :
    (s.drainResult d rest a).Inv := by
  have hq : ∀ q, { s with queues := q }.Inv := fun q => ⟨h.guard, h.batch, h.alive⟩
  unfold PollingThread.drainResult
  simp only
  split
  · exact ((hq _).push rfl rfl).report _
  · exact (hq _).push rfl rfl

/-- The polling thread goes on. -/
theorem Inv.next {top : Activation} {below : List Activation} {answers : Answers} (h : s.Inv)
    (hs : s.stack = top :: below) (hok : NestedFlushEmpty s (.next answers))
    (ht : { s with stack := below }.next answers top = some t) : t.Inv := by
  have hpop : pollPc top = none → { s with stack := below }.Inv := h.pop hs
  have hflush : ∀ pc, top = .hostPoll pc → pc = .flush ∨ pc = .flushAgain →
      s.runtimeMutex = true → s.queues.dispatcher.sendQueue = [] :=
    fun pc hpc => hok pc below (hpc ▸ hs)
  have hpoll : ∀ pc, top = .poll pc → polls below = [] ∧ s.pollingThread = true ∧
      s.runtimeMutex = decide (pc = .unlock) := fun pc hpc => by
    have hg := h.guard
    rw [hs, hpc] at hg
    exact hg.of_poll
  cases top with
  | hook => cases ht
  | hostPoll pc =>
    have hp := hpop rfl
    cases pc with
    | drain => cases ht; exact (hp.push rfl rfl).drain
    | flush => cases ht; exact (hp.push rfl rfl).flushSendQueue (hflush _ rfl (.inl rfl))
    | poll => cases ht; exact (hp.push rfl rfl).pollOnce
    | drainAgain => cases ht; exact (hp.push rfl rfl).drain
    | flushAgain => cases ht; exact (hp.push rfl rfl).flushSendQueue (hflush _ rfl (.inr rfl))
    | done => cases ht; exact hp
  | poll pc =>
    obtain ⟨hbelow, hslot, hm⟩ := hpoll pc rfl
    cases pc with
    | flush =>
      cases ht
      refine (inv_poll (s := { s with stack := below }) .lock (.inr hbelow) h.alive hslot
        hm).flushSendQueue fun hm' => ?_
      exact absurd (hm.symm.trans hm') (by decide)
    | lock =>
      simp only [PollingThread.next, hm] at ht
      cases ht
      exact (inv_poll (s := { s with stack := below, runtimeMutex := true }) .unlock
        (.inr hbelow) h.alive hslot rfl).push rfl rfl
    | unlock =>
      cases ht
      exact inv_poll (s := { s with stack := below, runtimeMutex := false }) .flushAgain
        (.inr hbelow) h.alive hslot rfl
    | flushAgain =>
      cases ht
      refine (inv_poll (s := { s with stack := below }) .done (.inr hbelow) h.alive hslot
        hm).flushSendQueue fun hm' => ?_
      exact absurd (hm.symm.trans hm') (by decide)
    | done =>
      cases ht
      refine ⟨?_, fun hm' => ?_, h.alive⟩
      · simp only [hbelow, hm]
        exact .free
      · exact absurd (hm.symm.trans hm') (by decide)
  | drain rest =>
    have hp := hpop rfl
    cases rest with
    | nil => cases ht; exact hp
    | cons d rest => cases ht; exact hp.drainResult d rest answers
  | flush l =>
    have hp := hpop rfl
    cases l with
    | nil => cases ht; exact hp
    | cons frame rest =>
      have hm : s.runtimeMutex = false := by
        by_contra hm
        have hmem : .flush (frame :: rest) ∈ above s.stack := by
          rw [hs, above, List.takeWhile_cons]
          exact .head _
        cases h.batch (by simpa using hm) _ hmem
      have ht' : some ({ s with stack := below }.sendFrame frame rest answers) = some t := by
        rw [← ht, PollingThread.next, if_neg (by simp [hm])]
      cases ht'
      exact hp.sendFrame hm frame rest answers

/-- **One step**. -/
theorem Inv.step (h : s.Inv) (hok : NestedFlushEmpty s a) (ht : s.step a = some t) : t.Inv := by
  have halive : ¬s.deadlocked = true := by simp [h.alive]
  cases a with
  | call c =>
    simp only [PollingThread.step] at ht
    split at ht
    · rw [if_neg halive] at ht; cases ht; exact h.call c
    · rw [if_neg halive] at ht; cases ht; exact h.call c
    · cases ht
  | ret =>
    simp only [PollingThread.step] at ht
    split at ht
    · next hs => cases ht; exact h.pop hs rfl
    · cases ht
  | next answers =>
    simp only [PollingThread.step] at ht
    split at ht
    · next hs => rw [if_neg halive] at ht; exact h.next hs hok ht
    · cases ht
  | otherSend | otherResult | connection => cases ht; exact ⟨h.guard, h.batch, h.alive⟩

theorem Inv.init (queues : HostQueues) : Inv { queues } := ⟨.free, fun _ _ h => (by cases h), rfl⟩

/-- **Re-entrancy does not deadlock** in a run in which each flush of a nested `SidecarHost::pollOnce`
finds the send queue empty, whatever the queues held at first. -/
theorem run_no_deadlock (queues : HostQueues) {as : List PollAct}
    (hok : machine.Along NestedFlushEmpty { queues } as)
    (h : machine.run { queues } as = some s) : s.deadlocked = false :=
  (Lts.Machine.along_inv (I := Inv) (fun _ _ _ hs hok h => hs.step hok h) (.init queues) hok h).alive

/-- The thread polls and dispatches a frame. -/
def dispatching : List PollAct :=
  [.call .hostPollOnce, .next {}, .next {}, .next {}, .next {}, .next {}, .next {}]

/-- A hook polls the dispatcher and the host, with nothing to send. -/
theorem run_no_deadlock_nested :
    let queues : HostQueues := { dispatcher := { started := true } }
    let as := dispatching ++ [.call .pollOnce, .call .hostPollOnce, .next {}, .next {}, .next {}]
    ∃ s, machine.Along NestedFlushEmpty { queues } as ∧ machine.run { queues } as = some s ∧
      s.deadlocked = false := by
  intro queues as
  obtain ⟨s, hs⟩ : ∃ s, machine.run { queues } as = some s := ⟨_, rfl⟩
  have hok : machine.Along NestedFlushEmpty { queues } as := by
    iterate 12
      refine ⟨by first | exact trivial | exact fun _ _ _ _ _ => rfl, fun t ht => ?_⟩
      cases ht
    trivial
  exact ⟨s, hok, hs, run_no_deadlock queues hok hs⟩

/-- A nested flush that finds frames to send deadlocks when it comes to the first one. -/
theorem nested_flush_deadlocks {pc : HostPollPc} {below : List Activation} (h : s.Inv)
    (hs : s.stack = .hostPoll pc :: below) (hpc : pc = .flush ∨ pc = .flushAgain)
    (hm : s.runtimeMutex = true) (hq : s.queues.dispatcher.sendQueue ≠ []) (a b : Answers) :
    ∃ t, machine.run s [.next a, .next b] = some t ∧ t.deadlocked = true := by
  obtain ⟨frame, rest, hfr⟩ := List.exists_cons_of_ne_nil hq
  have halive : ¬s.deadlocked = true := by simp [h.alive]
  obtain ⟨pc', hpc'⟩ : ∃ pc', { s with stack := below }.next a (.hostPoll pc) =
      some ({ s with stack := below }.push (.hostPoll pc')).flushSendQueue := by
    rcases hpc with rfl | rfl
    · exact ⟨_, rfl⟩
    · exact ⟨_, rfl⟩
  let u : PollingThread := { s with stack := .flush (frame :: rest) :: .hostPoll pc' :: below
                                    queues.dispatcher.sendQueue := [] }
  have hu : ({ s with stack := below }.push (.hostPoll pc')).flushSendQueue = u := by
    simp [PollingThread.flushSendQueue, PollingThread.push, hfr, u]
  have h1 : machine.step s (.next a) = some u := by
    simp only [machine, PollingThread.step, hs]
    rw [if_neg halive, hpc', hu]
  have h2 : machine.step u (.next b) =
      some (({ u with stack := .hostPoll pc' :: below }.push (.flush (frame :: rest))).deadlock) := by
    simp only [machine, PollingThread.step, u]
    rw [if_neg halive, PollingThread.next, if_pos hm]
  exact ⟨_, by rw [Lts.Machine.run_cons, h1, Option.bind_some, Lts.Machine.run_cons, h2]; rfl, rfl⟩

/-- A hook sends an event and polls the host: the flush of the nested poll locks the mutex that the
dispatch holds. -/
theorem run_deadlocks : ∃ s, machine.run { queues := { dispatcher := { started := true } } }
    (dispatching ++ [.call (.send .host (.connectionStateChanged [] true) 1 {}), .call .hostPollOnce,
      .next {}, .next {}, .next {}, .next {}]) = some s ∧ s.deadlocked = true := by
  have hrun : (machine.run { queues := { dispatcher := { started := true } } }
      (dispatching ++ [.call (.send .host (.connectionStateChanged [] true) 1 {}),
        .call .hostPollOnce, .next {}, .next {}, .next {}, .next {}])).map (·.deadlocked) =
      some true := rfl
  exact Option.map_eq_some_iff.1 hrun

end PollingThread

end Phi.Host
