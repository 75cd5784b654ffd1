import PhiSidecar.Host.Queues

/-!
# The order of one instance's frames

Every call gets a number (`Origin.seq`), so the frames of an instance are in call order when their
numbers increase. Events are enqueued by the call itself and results only when the host drains them,
so an event can overtake a result of the same instance (`run_overtaken`).

* `run_fifo`: **in every run in which no instance makes an outbound call while a result of its own
  still waits in the deferred queue, the frames of each instance are written in call order**.
-/

set_option autoImplicit false

namespace Phi.Host

open Phi.V1 Phi.Wire Phi.Dispatcher

namespace HostQueues

variable {s t : HostQueues} {a : QueueAct}

/-- The calls of one execution thread are in call order. -/
def InOrder (w : Nat) (l : List Origin) : Prop :=
  (l.filter (·.caller = .worker w)).Pairwise (·.seq < ·.seq)

/-- The results that wait to be enqueued; one with the id 0 never is. -/
def waiting (s : HostQueues) : List DeferredResult :=
  (s.draining ++ s.resultQueue).filter (·.id ≠ 0)

/-- Everything accepted for sending, and then what waits. -/
def line (s : HostQueues) : List Origin :=
  s.dispatcher.history.accepted.map (·.origin) ++ s.waiting.map (·.origin)

/-- An instance that makes an outbound call has no result of its own waiting. Nothing is asked of the
calls that the host makes itself. -/
def NoneWaiting (s : HostQueues) : QueueAct → Prop
  | .call (.worker w) _ _ _ => ∀ d ∈ s.waiting, d.caller ≠ .worker w
  | _ => True

/-- The line is in call order for each execution thread, and no call has a later number than the
next one. -/
structure Ordered (s : HostQueues) : Prop where
  order : ∀ w, InOrder w s.line
  bound : ∀ o ∈ s.line, o.seq < s.seq

theorem InOrder.sublist {w : Nat} {l l' : List Origin} (h : InOrder w l) (hl : l'.Sublist l) :
    InOrder w l' := List.Pairwise.sublist (hl.filter _) h

/-- A later call at the end. -/
theorem InOrder.concat {w : Nat} {l : List Origin} {o : Origin} (h : InOrder w l)
    (ho : ∀ p ∈ l, p.seq < o.seq) : InOrder w (l ++ [o]) := by
  rw [InOrder, List.filter_append, List.pairwise_append]
  refine ⟨h, List.Pairwise.sublist List.filter_sublist (List.pairwise_singleton _ _), ?_⟩
  intro p hp q hq
  rw [List.mem_singleton.1 (List.mem_filter.1 hq).1]
  exact ho p (List.mem_filter.1 hp).1

/-- A later call before those of other threads. -/
theorem InOrder.insert {w : Nat} {l r : List Origin} {o : Origin} (h : InOrder w (l ++ r))
    (ho : ∀ p ∈ l ++ r, p.seq < o.seq)
    (hr : o.caller = .worker w → ∀ p ∈ r, p.caller ≠ .worker w) :
    InOrder w (l ++ [o] ++ r) := by
  by_cases hw : o.caller = .worker w
  · have hnone : r.filter (·.caller = .worker w) = [] :=
      List.filter_eq_nil_iff.2 fun p hp => by simpa using hr hw p hp
    have hl : InOrder w (l ++ [o]) :=
      (h.sublist (List.sublist_append_left _ _)).concat fun p hp =>
        ho p (List.mem_append_left _ hp)
    rw [InOrder, List.filter_append, hnone, List.append_nil]
    exact hl
  · have hnone : [o].filter (·.caller = .worker w) = [] := by simp [hw]
    rw [InOrder, List.filter_append, List.filter_append, hnone, List.append_nil,
      ← List.filter_append]
    exact h

/-- Calls that drop out of the line keep it ordered. -/
theorem Ordered.sublist (h : s.Ordered) (hl : t.line.Sublist s.line) (hseq : t.seq = s.seq) :
    t.Ordered :=
  ⟨fun w => (h.order w).sublist hl, fun o ho => hseq ▸ h.bound o (hl.subset ho)⟩

theorem Ordered.of_eq (h : s.Ordered) (hl : t.line = s.line) (hseq : t.seq = s.seq) : t.Ordered :=
  h.sublist (hl ▸ .refl _) hseq

theorem queue_waiting (s : HostQueues) (caller : Caller) (result : CommandResult) (now : Int64) :
    ∃ d : DeferredResult, d.caller = caller ∧ d.seq = s.seq ∧
      ((s.queueDeferredResult caller result now).waiting = s.waiting ++ [d] ∨
        (s.queueDeferredResult caller result now).waiting = s.waiting) := by
  refine ⟨⟨normalizeResult now result, caller, s.seq⟩, rfl, rfl, ?_⟩
  by_cases hid : (normalizeResult now result).id = 0
  · exact .inr (by simp [waiting, queueDeferredResult, ← List.append_assoc, DeferredResult.id, hid])
  · exact .inl (by simp [waiting, queueDeferredResult, DeferredResult.id, hid])

/-- **One step keeps the line ordered**. -/
theorem Ordered.step (hs : s.Ordered) (hok : NoneWaiting s a) (h : s.step a = some t) :
    t.Ordered := by
  cases a with
  | sendResult caller result now =>
    cases h
    obtain ⟨d, -, hseq, hw | hw⟩ := s.queue_waiting caller result now
    · have hl : (s.queueDeferredResult caller result now).line = s.line ++ [d.origin] := by
        rw [line, hw, List.map_append, ← List.append_assoc]
        rfl
      have hlt : ∀ o ∈ s.line, o.seq < d.origin.seq := fun o ho =>
        (hs.bound o ho).trans_eq hseq.symm
      refine ⟨fun w => hl ▸ (hs.order w).concat hlt, fun o ho => ?_⟩
      rw [hl] at ho
      rcases List.mem_append.1 ho with ho | ho
      · exact Nat.lt_succ_of_lt (hs.bound o ho)
      · rw [List.mem_singleton.1 ho]
        exact Nat.lt_succ_of_le (Nat.le_of_eq hseq)
    · have hl : (s.queueDeferredResult caller result now).line = s.line := by
        rw [line, hw]
        rfl
      exact ⟨fun w => hl ▸ hs.order w, fun o ho => Nat.lt_succ_of_lt (hs.bound o (hl ▸ ho))⟩
  | call caller call now clock =>
    cases h
    let o : Origin := ⟨caller, s.seq, call⟩
    rcases s.dispatcher.queueOutboundFrame_accepted (call.frame o now) clock with ⟨-, ha⟩ | ⟨-, ha⟩
    · have hl : (s.call caller call now clock).1.line =
          s.dispatcher.history.accepted.map (·.origin) ++ [o] ++ s.waiting.map (·.origin) := by
        show List.map _ (SidecarDispatcher.queueOutboundFrame _ _ _).1.history.accepted ++ _ = _
        rw [ha, List.map_append, List.map_singleton, Outbound.frame_origin]
        rfl
      have hother : ∀ w, o.caller = .worker w →
          ∀ p ∈ s.waiting.map (·.origin), p.caller ≠ .worker w := by
        intro w hw
        obtain rfl : caller = .worker w := hw
        simp only [List.forall_mem_map]
        exact hok
      refine ⟨fun w => hl ▸ (hs.order w).insert hs.bound (hother w), fun p hp => ?_⟩
      rw [hl, List.append_assoc, List.mem_append, List.mem_append, List.mem_singleton] at hp
      rcases hp with hp | rfl | hp
      · exact Nat.lt_succ_of_lt (hs.bound p (List.mem_append_left _ hp))
      · exact Nat.lt_succ_self _
      · exact Nat.lt_succ_of_lt (hs.bound p (List.mem_append_right _ hp))
    · have hl : (s.call caller call now clock).1.line = s.line := by
        show List.map _ (SidecarDispatcher.queueOutboundFrame _ _ _).1.history.accepted ++ _ = _
        rw [ha]
        rfl
      exact ⟨fun w => hl ▸ hs.order w, fun p hp => Nat.lt_succ_of_lt (hs.bound p (hl ▸ hp))⟩
  | drainBegin =>
    obtain ⟨hd, h⟩ := Option.ite_none_right_eq_some.1 h
    cases h
    refine hs.of_eq ?_ rfl
    simp [line, waiting, HostQueues.drainBegin, List.isEmpty_iff.1 hd]
  | drainNext now clock =>
    simp only [HostQueues.step] at h
    split at h
    · cases h
    · next d rest hd =>
      cases h
      rcases drainResult_cases { s with draining := rest } d now clock with ⟨hid, he⟩ | ⟨hid, _, he⟩
      · rw [he]
        refine hs.of_eq ?_ rfl
        simp [line, waiting, hd, hid, reportProtocolError]
      · rw [he]
        have hw : s.waiting = d :: (rest ++ s.resultQueue).filter (·.id ≠ 0) := by
          simp [waiting, hd, hid]
        refine hs.sublist ?_ rfl
        rw [line, line, hw]
        rcases s.dispatcher.queueOutboundFrame_accepted (d.result.frame d.origin now) clock with
          ⟨-, ha⟩ | ⟨-, ha⟩
        · simp only [ha, waiting, List.map_append, List.map_cons, List.map_nil,
            CommandResult.frame_origin, List.append_assoc, List.cons_append, List.nil_append,
            List.Sublist.refl]
        · simp only [ha, waiting, List.map_cons]
          exact (List.Sublist.refl _).append (List.sublist_cons_self _ _)
  | net a =>
    obtain ⟨d, hd, rfl⟩ := Option.map_eq_some_iff.1 h
    refine hs.of_eq ?_ rfl
    simp only [line, waiting, net_accepted hd]

theorem Ordered.init : Ordered {} := ⟨fun _ => List.Pairwise.nil, by simp [line, waiting]⟩

/-- Whatever a run of the host's queues writes is an order-preserving part of what it accepts, and is
what went over the wire. -/
theorem run_written {as : List QueueAct} (h : machine.run {} as = some s) :
    s.dispatcher.history.written.Sublist s.dispatcher.history.accepted ∧
      s.dispatcher.runtime.sent = s.dispatcher.history.written.map fun f =>
        Transport.UdsEpollServer.wireFrame (SidecarDispatcher.frameHeader f) f.payload := by
  obtain ⟨bs, d, hd, rfl⟩ := dispatches.run rfl h
  obtain ⟨cs, c, hc, rfl⟩ := Lts.Sim.run SidecarDispatcher.conveys rfl hd
  have ht := Conveyor.run_tracked hc
  exact ⟨(List.sublist_append_left _ _).trans ht.order, (SidecarDispatcher.run_kept hd).sent⟩

/-- **Per-instance outbound order is FIFO** in a run in which no instance makes an outbound call while
a result of its own waits: what is written of each instance is in the order of its calls. -/
theorem run_fifo {as : List QueueAct} (hok : machine.Along NoneWaiting {} as)
    (h : machine.run {} as = some s) (w : Nat) :
    InOrder w (s.dispatcher.history.written.map (·.origin)) ∧
      s.dispatcher.runtime.sent = s.dispatcher.history.written.map fun f =>
        Transport.UdsEpollServer.wireFrame (SidecarDispatcher.frameHeader f) f.payload := by
  have hs : s.Ordered := Lts.Machine.along_inv (fun _ _ _ hs hok h => hs.step hok h) .init hok h
  obtain ⟨hsub, hsent⟩ := run_written h
  exact ⟨(hs.order w).sublist ((hsub.map _).trans (List.sublist_append_left _ _)), hsent⟩

/-- An instance reports an event and then a result; both are sent. -/
theorem run_fifo_event_result :
    let as := [.net (.start (.ok ())), .net .connect,
      .call (.worker 0) (.connectionStateChanged [] true) 1 {},
      .sendResult (.worker 0) (.cmd { id := 1 }) 1, .drainBegin, .drainNext 1 {}, .net .flush,
      .net (.send (.ok ()) (.ok ()) 0), .net (.send (.ok ()) (.ok ()) 0)]
    ∃ s, machine.Along NoneWaiting {} as ∧ machine.run {} as = some s ∧
      InOrder 0 (s.dispatcher.history.written.map (·.origin)) ∧
      s.dispatcher.runtime.sent = s.dispatcher.history.written.map fun f =>
        Transport.UdsEpollServer.wireFrame (SidecarDispatcher.frameHeader f) f.payload := by
  intro as
  have hrun : (machine.run {} as).isSome = true := by decide +kernel
  obtain ⟨s, hs⟩ := Option.isSome_iff_exists.1 hrun
  have hok : machine.Along NoneWaiting {} as := by
    refine ⟨trivial, fun t ht => ?_⟩; cases ht
    refine ⟨trivial, fun t ht => ?_⟩; cases ht
    refine ⟨by simp [NoneWaiting, waiting], fun t _ => Lts.Machine.along_of_forall ?_ t⟩
    simp [NoneWaiting]
  exact ⟨s, hok, hs, run_fifo hok hs 0⟩

/-- An event overtakes the result that its instance reported before. -/
theorem run_overtaken :
    let as := [.net (.start (.ok ())), .net .connect, .sendResult (.worker 0) (.cmd { id := 1 }) 1,
      .call (.worker 0) (.connectionStateChanged [] true) 1 {}, .drainBegin, .drainNext 1 {},
      .net .flush, .net (.send (.ok ()) (.ok ()) 0), .net (.send (.ok ()) (.ok ()) 0)]
    ∃ s, machine.run {} as = some s ∧
      (s.dispatcher.history.written.map fun f => (f.origin.caller, f.origin.seq)) =
        [(.worker 0, 1), (.worker 0, 0)] ∧
      ¬InOrder 0 (s.dispatcher.history.written.map (·.origin)) := by
  intro as
  have hrun : (machine.run {} as).map
      (fun s => s.dispatcher.history.written.map fun f => (f.origin.caller, f.origin.seq)) =
        some [(.worker 0, 1), (.worker 0, 0)] := by decide +kernel
  obtain ⟨s, hs, hw⟩ := Option.map_eq_some_iff.1 hrun
  refine ⟨s, hs, hw, fun ho => ?_⟩
  obtain ⟨f, l, hl, hf, hl'⟩ := List.map_eq_cons_iff.1 hw
  obtain ⟨g, l', rfl, hg, -⟩ := List.map_eq_cons_iff.1 hl'
  simp only [Prod.mk.injEq] at hf hg
  simp [InOrder, hl, hf.1, hg.1, hf.2, hg.2] at ho

end HostQueues

end Phi.Host
