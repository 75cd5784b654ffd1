import Mathlib.Data.List.Perm.Basic
import PhiSidecar.Dispatcher.Queue

/-!
# What one action of the outbound queue does

`Step s a t` lists the outcomes of an action, with the diagnostics reduced to what matters: which
lines on stderr name which frame. `step_cases` derives it from the code once; every invariant is a
case analysis on it.
-/

set_option autoImplicit false

namespace Phi.Dispatcher

open Phi.V1 Phi.Wire Phi.Transport

namespace SidecarDispatcher

variable {τ : Type}

/-- Lines that are about no frame. -/
def Quiet (ls : List (StderrLine τ)) : Prop := ∀ l ∈ ls, l.frame = none

/-- A line names the message of the frame it is about. -/
def StderrLine.Names (l : StderrLine τ) : Prop :=
  ∀ f, l.frame = some f → messageSuffix f <:+ l.text

/-- The lines written for a frame that cannot be sent: one for an incident, at most one for any
other frame. -/
structure Reported (frame : OutboundFrame τ) (ls : List (StderrLine τ)) : Prop where
  names : ∀ l ∈ ls, StderrLine.Names l
  incident : frame.isIncident = true → ls.filterMap (·.frame) = [frame]
  other : ∀ f ∈ ls.filterMap (·.frame), f = frame

theorem Reported.line {frame : OutboundFrame τ} {l : StderrLine τ} (hf : l.frame = some frame)
    (hl : messageSuffix frame <:+ l.text) : Reported frame [l] where
  names := by
    rintro l' (_ | ⟨_, h⟩)
    · intro f h; rw [hf] at h; cases h; exact hl
    · cases h
  incident _ := by simp [hf]
  other := by simp [hf]

theorem Reported.none {frame : OutboundFrame τ} (h : frame.isIncident = false) :
    Reported frame [] where
  names := by simp
  incident h' := by rw [h] at h'; cases h'
  other := by simp

theorem reportSendFailure_cases (s : SidecarDispatcher τ) (frame : OutboundFrame τ) (reason : Bytes)
    (tsMs : Int) : ∃ d ls, Reported frame ls ∧
      s.reportSendFailure frame reason tsMs = { s with diag := d, stderr := s.stderr ++ ls } := by
  unfold reportSendFailure
  split_ifs with hi hl ht
  · exact ⟨s.diag, _, .line rfl (List.suffix_append _ _), rfl⟩
  · exact ⟨_, _, .line rfl (List.suffix_append _ _), rfl⟩
  · exact ⟨{ s.diag with suppressedLogSendFailures := s.diag.suppressedLogSendFailures + 1 }, [],
      .none (by simpa using hi), by simp⟩
  · exact ⟨s.diag, [], .none (by simpa using hi), by simp⟩

theorem checkOutbound_cases {s t : SidecarDispatcher τ} {frame : OutboundFrame τ} {tsMs : Int}
    {e : Bytes} (h : s.checkOutbound frame tsMs = some (t, e)) : ∃ d ls, Reported frame ls ∧
      t = { s with diag := d, stderr := s.stderr ++ ls } := by
  unfold checkOutbound at h
  split_ifs at h
  · cases h; exact reportSendFailure_cases _ _ _ _
  · cases h; exact reportSendFailure_cases _ _ _ _
  · cases h; exact ⟨s.diag, _, .line rfl (List.suffix_append _ _), rfl⟩

theorem reportOverflow_cases (s : SidecarDispatcher τ) (r : Enqueued) (tsMs : Int) : ∃ d ls,
    Quiet ls ∧ s.reportOverflow r tsMs = { s with diag := d, stderr := s.stderr ++ ls } := by
  unfold reportOverflow
  split_ifs
  · exact ⟨_, [queueOverflowLine r.droppedTotal], by simp [Quiet, queueOverflowLine], rfl⟩
  · exact ⟨s.diag, [], by simp [Quiet], by simp⟩

theorem reportBackpressure_cases (s : SidecarDispatcher τ) (r : Enqueued) (tsMs : Int) : ∃ d ls,
    Quiet ls ∧ s.reportBackpressure r tsMs = { s with diag := d, stderr := s.stderr ++ ls } := by
  unfold reportBackpressure
  split_ifs
  · exact ⟨_, [queueBackpressureLine r.queueDepth r.maxObservedDepth s.droppedOutboundFrames],
      by simp [Quiet, queueBackpressureLine], rfl⟩
  · exact ⟨s.diag, [], by simp [Quiet], by simp⟩

/-! ## Shedding -/

/-- The frame to shed from `queue`. -/
structure Sheds (queue : List (OutboundFrame τ)) (i : Nat) (f : OutboundFrame τ) : Prop where
  get : queue[i]? = some f
  index : shedIndex queue = some i
  event : f.type = .Event
  /-- No log frame is spared for a frame that is none. -/
  oldest : f.isLogFrame = false → ∀ g ∈ queue, g.isLogFrame = false

theorem sheds_of_index {queue : List (OutboundFrame τ)} {i : Nat} (h : shedIndex queue = some i) :
    ∃ f, Sheds queue i f := by
  have h' := h
  unfold shedIndex at h
  split at h
  · next hj =>
    cases h
    obtain ⟨hi, hlog, -⟩ := List.findIdx?_eq_some_iff_getElem.1 hj
    exact ⟨queue[i], List.getElem?_eq_getElem hi, h', queue[i].log_event hlog,
      fun hf => by rw [hlog] at hf; cases hf⟩
  · next hnone =>
    obtain ⟨hi, hev, -⟩ := List.findIdx?_eq_some_iff_getElem.1 h
    exact ⟨queue[i], List.getElem?_eq_getElem hi, h', by simpa using hev,
      fun _ g hg => by simpa using List.findIdx?_eq_none_iff.1 hnone g hg⟩

/-! ## Steps -/

/-- The outcomes of an action. -/
inductive Step (s : SidecarDispatcher τ) : Act τ → SidecarDispatcher τ → Prop
  | refused {frame tsMs d ls} : Reported frame ls → Step s (.check frame tsMs)
      { s with diag := d, stderr := s.stderr ++ ls
               history.returned := s.history.returned ++ [frame] }
  | checked {frame tsMs} : s.started = true → Step s (.check frame tsMs)
      { s with calls := s.calls ++ [frame] }
  | pushed {k tsOverflow tsWarning frame d ls} : s.calls[k]? = some frame →
      (s.sendQueue.length < kHostQueueMaxDepth ∨
        shedIndex s.sendQueue = none ∧ frame.type ≠ .Event) → Quiet ls →
      Step s (.push k tsOverflow tsWarning)
        { s with calls := s.calls.eraseIdx k
                 sendQueue := s.sendQueue ++ [frame]
                 diag := d, stderr := s.stderr ++ ls
                 history.returned := s.history.returned ++ [frame]
                 history.accepted := s.history.accepted ++ [frame] }
  | shed {k tsOverflow tsWarning frame i f d ls} : s.calls[k]? = some frame →
      kHostQueueMaxDepth ≤ s.sendQueue.length → Sheds s.sendQueue i f → Quiet ls →
      Step s (.push k tsOverflow tsWarning)
        { s with calls := s.calls.eraseIdx k
                 sendQueue := s.sendQueue.eraseIdx i ++ [frame]
                 droppedOutboundFrames := s.droppedOutboundFrames + 1
                 diag := d, stderr := s.stderr ++ ls
                 history.returned := s.history.returned ++ [frame]
                 history.accepted := s.history.accepted ++ [frame]
                 history.lost := s.history.lost ++ [.shed f s.sendQueue] }
  | rejected {k tsOverflow tsWarning frame d ls} : s.calls[k]? = some frame →
      kHostQueueMaxDepth ≤ s.sendQueue.length → shedIndex s.sendQueue = none →
      frame.type = .Event → Quiet ls →
      Step s (.push k tsOverflow tsWarning)
        { s with calls := s.calls.eraseIdx k
                 droppedOutboundFrames := s.droppedOutboundFrames + 1
                 diag := d, stderr := s.stderr ++ ls
                 history.returned := s.history.returned ++ [frame]
                 history.rejected := s.history.rejected ++ [frame] }
  | flushed : s.localQueue = [] → Step s .flush
      { s with localQueue := s.sendQueue, sendQueue := [] }
  | sent {wh wp tsMs frame rest} : s.localQueue = frame :: rest →
      Step s (.send wh wp tsMs)
        { s with localQueue := rest
                 runtime.sent := s.runtime.sent ++
                  [UdsEpollServer.wireFrame (frameHeader frame) frame.payload]
                 history.written := s.history.written ++ [frame] }
  | failed {wh wp tsMs frame rest rt d ls es e} : s.localQueue = frame :: rest →
      (s.runtime.send (frameHeader frame) frame.payload wh wp).2 = .error e →
      rt.client = false → rt.sent = s.runtime.sent → Reported frame ls →
      Step s (.send wh wp tsMs)
        { s with localQueue := []
                 runtime := rt
                 droppedOutboundFrames := s.droppedOutboundFrames + rest.length
                 diag := d, stderr := s.stderr ++ ls, onProtocolError := es
                 history.lost := s.history.lost ++ .failed frame :: rest.map (Loss.behind · frame) }
  /-- The connection or `started` changes. -/
  | other {a rt started} : a = .connect ∨ a = .disconnect ∨ (∃ r, a = .start r) ∨ a = .stopRuntime →
      rt.sent = s.runtime.sent → Step s a { s with runtime := rt, started := started }
  | stopped : Step s .stop
      { s with started := false, sendQueue := []
               history.lost := s.history.lost ++ s.sendQueue.map .cleared }

theorem Quiet.append {ls ls' : List (StderrLine τ)} (h : Quiet ls) (h' : Quiet ls') :
    Quiet (ls ++ ls') := fun l hl => (List.mem_append.1 hl).elim (h l) (h' l)

/-- The critical section: the frame goes in, at the cost of another one if the queue is full, or it
is rejected. -/
theorem enqueue_cases (s : SidecarDispatcher τ) (frame : OutboundFrame τ) :
    (∃ d r, r.rejected = false ∧ (s.sendQueue.length < kHostQueueMaxDepth ∨
        shedIndex s.sendQueue = none ∧ frame.type ≠ .Event) ∧
      s.enqueue frame = ({ s with sendQueue := s.sendQueue ++ [frame], diag := d
                                  history.accepted := s.history.accepted ++ [frame] }, r)) ∨
    (∃ i f d r, r.rejected = false ∧ kHostQueueMaxDepth ≤ s.sendQueue.length ∧
      Sheds s.sendQueue i f ∧
      s.enqueue frame = ({ s with sendQueue := s.sendQueue.eraseIdx i ++ [frame], diag := d
                                  droppedOutboundFrames := s.droppedOutboundFrames + 1
                                  history.accepted := s.history.accepted ++ [frame]
                                  history.lost := s.history.lost ++ [.shed f s.sendQueue] }, r)) ∨
    ∃ r, r.rejected = true ∧ kHostQueueMaxDepth ≤ s.sendQueue.length ∧
      shedIndex s.sendQueue = none ∧ frame.type = .Event ∧
      s.enqueue frame = ({ s with droppedOutboundFrames := s.droppedOutboundFrames + 1
                                  history.rejected := s.history.rejected ++ [frame] }, r) := by
  unfold enqueue
  by_cases hfull : kHostQueueMaxDepth ≤ s.sendQueue.length
  · rw [if_pos hfull]
    cases hshed : shedIndex s.sendQueue with
    | some i =>
      obtain ⟨f, hf⟩ := sheds_of_index hshed
      simp only [hf.get, Option.toList_some, List.map_cons, List.map_nil]
      exact .inr (.inl ⟨i, f, _, _, rfl, hfull, hf, rfl⟩)
    | none =>
      by_cases hev : frame.type = .Event
      · exact .inr (.inr ⟨_, rfl, hfull, rfl, hev, if_pos hev⟩)
      · exact .inl ⟨_, _, rfl, .inr ⟨rfl, hev⟩, if_neg hev⟩
  · rw [if_neg hfull]
    exact .inl ⟨_, _, rfl, .inl (Nat.lt_of_not_le hfull), rfl⟩

/-- The diagnostics after the critical section. -/
theorem pushOutbound_cases {s t : SidecarDispatcher τ} {frame : OutboundFrame τ} {r : Enqueued}
    (he : s.enqueue frame = (t, r)) (tsOverflow tsWarning : Int) : ∃ d ls, Quiet ls ∧
      (s.pushOutbound frame tsOverflow tsWarning).1 =
        { t with diag := d, stderr := t.stderr ++ ls } := by
  unfold pushOutbound
  rw [he]
  obtain ⟨d, ls, hls, ho⟩ := reportOverflow_cases t r tsOverflow
  simp only
  split_ifs
  · exact ⟨d, ls, hls, ho⟩
  · obtain ⟨d', ls', hls', hb⟩ :=
      reportBackpressure_cases (t.reportOverflow r tsOverflow) r tsWarning
    exact ⟨d', ls ++ ls', hls.append hls', by rw [hb, ho]; simp⟩

/-- The call returns true exactly when the frame is accepted. -/
theorem pushOutbound_result (s : SidecarDispatcher τ) (frame : OutboundFrame τ)
    (tsOverflow tsWarning : Int) :
    let r := s.pushOutbound frame tsOverflow tsWarning
    r.2 = .ok () ∧ r.1.history.accepted = s.history.accepted ++ [frame] ∨
      r.2 = .error (lit "outbound send queue full") ∧
        r.1.history.accepted = s.history.accepted := by
  intro r
  have hres : ∀ t q, s.enqueue frame = (t, q) →
      r.2 = if q.rejected then .error (lit "outbound send queue full") else .ok () :=
    fun t q he => by
      simp only [r, pushOutbound, he]
      split_ifs <;> rfl
  rcases enqueue_cases s frame with ⟨d, q, hq, -, he⟩ | ⟨i, f, d, q, hq, -, -, he⟩ | ⟨q, hq, -, -, -, he⟩
  all_goals obtain ⟨_, _, _, hr⟩ := pushOutbound_cases he tsOverflow tsWarning
  · exact .inl ⟨by simp [hres _ _ he, hq], by simp only [r, hr]⟩
  · exact .inl ⟨by simp [hres _ _ he, hq], by simp only [r, hr]⟩
  · exact .inr ⟨by simp [hres _ _ he, hq], by simp only [r, hr]⟩

theorem pushOutbound_step {s : SidecarDispatcher τ} {k : Nat} {frame : OutboundFrame τ}
    (hk : s.calls[k]? = some frame) (tsOverflow tsWarning : Int) :
    Step s (.push k tsOverflow tsWarning)
      ({ s with calls := s.calls.eraseIdx k
                history.returned := s.history.returned ++ [frame] }
        |>.pushOutbound frame tsOverflow tsWarning).1 := by
  rcases enqueue_cases { s with calls := s.calls.eraseIdx k
                                history.returned := s.history.returned ++ [frame] } frame with
    ⟨d, r, -, hroom, he⟩ | ⟨i, f, d, r, -, hfull, hshed, he⟩ | ⟨r, -, hfull, hnone, hev, he⟩
  all_goals
    obtain ⟨d, ls, hls, hd⟩ := pushOutbound_cases he tsOverflow tsWarning
    rw [hd]
  · exact .pushed hk hroom hls
  · exact .shed hk hfull hshed hls
  · exact .rejected hk hfull hnone hev hls

theorem reported_suffix_quiet {frame : OutboundFrame τ} {ls ls' : List (StderrLine τ)}
    (h : Reported frame ls) (h' : Quiet ls') : Reported frame (ls ++ ls') := by
  have hq : ls'.filterMap (·.frame) = [] := List.filterMap_eq_nil_iff.2 fun l hl => h' l hl
  refine ⟨fun l hl => ?_, ?_, ?_⟩
  · rcases List.mem_append.1 hl with hl | hl
    · exact h.names l hl
    · intro f hf; rw [h' l hl] at hf; cases hf
  · rw [List.filterMap_append, hq, List.append_nil]; exact h.incident
  · rw [List.filterMap_append, hq, List.append_nil]; exact h.other

theorem dropRemaining_cases (s : SidecarDispatcher τ) (frame : OutboundFrame τ) : ∃ ls, Quiet ls ∧
    s.dropRemaining frame =
      { s with localQueue := []
               droppedOutboundFrames := s.droppedOutboundFrames + s.localQueue.length
               stderr := s.stderr ++ ls
               history.lost := s.history.lost ++ s.localQueue.map (Loss.behind · frame) } := by
  unfold dropRemaining
  simp only
  split_ifs with h
  · exact ⟨[_], by simp [Quiet, sendQueueDroppedLine], rfl⟩
  · have hq : s.localQueue = [] := List.length_eq_zero_iff.1 (by omega)
    refine ⟨[], by simp [Quiet], ?_⟩
    obtain ⟨_, _, _, _, _, _, q, _, _, _⟩ := s
    simp only at hq
    subst hq
    simp

theorem sendFront_step {s : SidecarDispatcher τ} {frame : OutboundFrame τ}
    {rest : List (OutboundFrame τ)} (hq : s.localQueue = frame :: rest) (wh wp : Except Bytes Unit)
    (tsMs : Int) :
    Step s (.send wh wp tsMs) ({ s with localQueue := rest }.sendFront frame wh wp tsMs) := by
  unfold sendFront
  rcases UdsEpollServer.send_cases s.runtime (frameHeader frame) frame.payload wh wp with
    he | ⟨rt, e, he, hcl, hsent⟩
  · simp only [he]
    exact .sent hq
  · simp only [he, hcl, Bool.not_false, if_true]
    have herr : (s.runtime.send (frameHeader frame) frame.payload wh wp).2 = .error e := by rw [he]
    split_ifs with hf
    · obtain ⟨d, ls, hls, hr⟩ := reportSendFailure_cases
        { s with localQueue := rest, runtime := rt
                 history.lost := s.history.lost ++ [Loss.failed frame] } frame e tsMs
      obtain ⟨ls', hls', hd⟩ := dropRemaining_cases
        ({ s with localQueue := rest, runtime := rt
                  history.lost := s.history.lost ++ [Loss.failed frame] }.reportSendFailure frame e tsMs)
        frame
      rw [hd, hr]
      simp only [List.append_assoc, List.singleton_append]
      exact .failed hq herr hcl hsent (reported_suffix_quiet hls hls')
    · simp only [Bool.or_eq_true, not_or, Bool.not_eq_true] at hf
      obtain ⟨ls', hls', hd⟩ := dropRemaining_cases
        { s with localQueue := rest, runtime := rt
                 history.lost := s.history.lost ++ [Loss.failed frame]
                 onProtocolError := s.onProtocolError ++
                  [lit "Failed to send outbound frame: " ++ e] } frame
      rw [hd]
      simp only [List.append_assoc, List.singleton_append]
      exact .failed hq herr hcl hsent
        (by simpa using reported_suffix_quiet (.none hf.1) hls')

/-- **One action has one of the listed outcomes.** -/
theorem step_cases {s t : SidecarDispatcher τ} {a : Act τ} (h : s.step a = some t) :
    Step s a t := by
  cases a with
  | check frame tsMs =>
    simp only [step] at h
    split at h
    · next hc =>
      cases h
      refine .checked ?_
      unfold checkOutbound at hc
      by_contra hs
      rw [if_pos (by simpa using hs)] at hc
      cases hc
    · next s' e hc =>
      cases h
      obtain ⟨d, ls, hls, rfl⟩ := checkOutbound_cases hc
      exact .refused hls
  | push k tsOverflow tsWarning =>
    obtain ⟨frame, hk, rfl⟩ := Option.map_eq_some_iff.1 h
    exact pushOutbound_step hk tsOverflow tsWarning
  | flush =>
    simp only [step] at h
    split_ifs at h with hq
    cases h
    have hf : s.flushBegin = { s with localQueue := s.sendQueue, sendQueue := [] } := by
      unfold flushBegin
      split_ifs with he
      · obtain ⟨_, _, q, _, _, _, l, _, _, _⟩ := s
        simp only at hq he
        rw [hq, he]
      · rfl
    rw [hf]
    exact .flushed hq
  | send wh wp tsMs =>
    simp only [step] at h
    split at h
    · cases h
    · next frame rest hq => cases h; exact sendFront_step hq wh wp tsMs
  | connect =>
    cases h
    refine .other (.inl rfl) ?_
    unfold UdsEpollServer.acceptClient
    cases s.runtime.client <;> rfl
  | disconnect => cases h; exact .other (.inr (.inl rfl)) rfl
  | start result =>
    cases result with
    | ok _ => cases h; exact .other (.inr (.inr (.inl ⟨_, rfl⟩))) rfl
    | error _ => cases h; exact .other (.inr (.inr (.inl ⟨_, rfl⟩))) rfl
  | stop => cases h; exact .stopped
  | stopRuntime => cases h; exact .other (.inr (.inr (.inr rfl))) rfl

end SidecarDispatcher

end Phi.Dispatcher
