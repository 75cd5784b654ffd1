import PhiSidecar.Dispatcher.QueueStep
import PhiSidecar.Lib.Conveyor

/-!
# Outbound queue delivery

The queue and the batch of a flush are one conveyor (`conveys`): pushing a frame accepts it, shedding
loses one, a send delivers the front, a failed send loses the batch. So whatever the interleaving,
the written frames are an order-preserving part of the accepted ones and every accepted frame is
accounted for (`Conveyor.run_tracked`). What may be lost and what is counted is an invariant of the
dispatcher (`Kept`).

* `run_delivery`: **the delivery guarantee of a started dispatcher**.
-/

set_option autoImplicit false

namespace Phi.Dispatcher

open Phi.V1 Phi.Transport

namespace SidecarDispatcher

variable {τ : Type} {s t : SidecarDispatcher τ} {a : Act τ}

/-! ## The queue as a conveyor -/

/-- The conveyor a dispatcher implements. -/
def conveyor (s : SidecarDispatcher τ) : Conveyor (OutboundFrame τ) where
  accepted := s.history.accepted
  pending := s.localQueue ++ s.sendQueue
  delivered := s.history.written
  lost := s.history.lost.map Loss.frame

theorem conveyor_shed {f : OutboundFrame τ} {i : Nat} (h : Sheds s.sendQueue i f) :
    (s.localQueue ++ s.sendQueue)[s.localQueue.length + i]? = some f ∧
      (s.localQueue ++ s.sendQueue).eraseIdx (s.localQueue.length + i) =
        s.localQueue ++ s.sendQueue.eraseIdx i := by
  constructor
  · rw [List.getElem?_append_right (Nat.le_add_right _ _), Nat.add_sub_cancel_left, h.get]
  · rw [List.eraseIdx_append_of_length_le (Nat.le_add_right _ _), Nat.add_sub_cancel_left]

theorem conveyor_step (h : Step s a t) : ∃ as,
    (Conveyor.machine (OutboundFrame τ)).run s.conveyor as = some t.conveyor := by
  cases h with
  | refused _ | checked | rejected | other => exact ⟨[], rfl⟩
  | @pushed _ _ _ frame =>
    refine ⟨[.accept frame], ?_⟩
    simp [Lts.Machine.run_cons, Conveyor.machine, Conveyor.step, conveyor]
  | @shed _ _ _ frame i f _ _ _ _ hs =>
    refine ⟨[.lose (s.localQueue.length + i), .accept frame], ?_⟩
    obtain ⟨hget, herase⟩ := conveyor_shed hs
    simp only [Lts.Machine.run_cons, Conveyor.machine, Conveyor.step, conveyor, hget, herase,
      Option.map_some, Option.bind_some, Lts.Machine.run_nil]
    simp [Loss.frame]
  | flushed hq => exact ⟨[], by simp [conveyor, hq]⟩
  | sent hq =>
    refine ⟨[.deliver], ?_⟩
    simp [Lts.Machine.run_cons, Conveyor.machine, Conveyor.step, conveyor, hq]
  | failed hq =>
    refine ⟨_, (Conveyor.run_lose_front s.conveyor rfl).trans ?_⟩
    simp [conveyor, hq, Loss.frame, Function.comp_def]
  | stopped =>
    refine ⟨_, (Conveyor.run_lose_from s.conveyor rfl).trans ?_⟩
    simp [conveyor, Loss.frame, Function.comp_def]

/-- **The outbound queue is a conveyor.** -/
theorem conveys : Lts.Sim (machine τ) (Conveyor.machine (OutboundFrame τ))
    fun s c => s.conveyor = c := by
  rintro s a s' _ rfl h
  obtain ⟨as, ht⟩ := conveyor_step (step_cases h)
  exact ⟨as, _, ht, rfl⟩

/-! ## What may be lost -/

/-- A shed frame is an event from a full queue, and a log frame if there was one. -/
def Loss.Justified (lost : List (Loss τ)) : Loss τ → Prop
  | .shed f queue => f.type = .Event ∧ f ∈ queue ∧ kHostQueueMaxDepth ≤ queue.length ∧
      (f.isLogFrame = false → ∀ g ∈ queue, g.isLogFrame = false)
  | .failed _ => True
  | .behind _ failing => .failed failing ∈ lost
  | .cleared _ => True

/-- What every reachable dispatcher keeps. -/
structure Kept (s : SidecarDispatcher τ) : Prop where
  lost : ∀ l ∈ s.history.lost, Loss.Justified s.history.lost l
  rejected : ∀ f ∈ s.history.rejected, f.type = .Event
  dropped : s.droppedOutboundFrames =
    s.history.lost.countP Loss.Counted + s.history.rejected.length
  sent : s.runtime.sent = s.history.written.map
    fun f => UdsEpollServer.wireFrame (frameHeader f) f.payload

theorem Loss.Justified.mono {lost lost' : List (Loss τ)} {l : Loss τ}
    (h : Loss.Justified lost l) : Loss.Justified (lost ++ lost') l := by
  cases l with
  | shed => exact h
  | failed => trivial
  | behind => exact List.mem_append_left _ h
  | cleared => trivial

theorem justified_append {lost lost' : List (Loss τ)} (h : ∀ l ∈ lost, Loss.Justified lost l)
    (h' : ∀ l ∈ lost', Loss.Justified (lost ++ lost') l) :
    ∀ l ∈ lost ++ lost', Loss.Justified (lost ++ lost') l := fun l hl =>
  (List.mem_append.1 hl).elim (fun hl => (h l hl).mono) (h' l)

theorem Kept.init : Kept ({} : SidecarDispatcher τ) where
  lost := by simp
  rejected := by simp
  dropped := rfl
  sent := rfl

theorem Kept.step (hs : Kept s) (h : Step s a t) : Kept t := by
  obtain ⟨hlost, hrej, hdrop, hsent⟩ := hs
  cases h with
  | refused _ | checked | pushed | flushed => exact ⟨hlost, hrej, hdrop, hsent⟩
  | shed _ hfull hs =>
    refine ⟨justified_append hlost ?_, hrej, ?_, hsent⟩
    · rintro l (_ | ⟨_, hl⟩)
      · exact ⟨hs.event, List.mem_of_getElem? hs.get, hfull, hs.oldest⟩
      · cases hl
    · simp only [hdrop, List.countP_append, List.countP_singleton, Loss.Counted, if_true]
      omega
  | rejected _ _ _ hev =>
    refine ⟨hlost, fun f hf => ?_, ?_, hsent⟩
    · rcases List.mem_append.1 hf with hf | hf
      · exact hrej f hf
      · rw [List.mem_singleton.1 hf]; exact hev
    · simp only [hdrop, List.length_append, List.length_singleton]
      omega
  | sent _ => exact ⟨hlost, hrej, hdrop, by simp [hsent]⟩
  | @failed _ _ _ frame rest _ _ _ _ _ _ _ _ hrt =>
    refine ⟨justified_append hlost ?_, hrej, ?_, hrt.trans hsent⟩
    · intro l hl
      rcases List.mem_cons.1 hl with rfl | hl
      · trivial
      · obtain ⟨f, -, rfl⟩ := List.mem_map.1 hl
        exact List.mem_append_right _ (.head _)
    · have hb : (rest.map (Loss.behind · frame)).countP Loss.Counted = rest.length := by
        rw [List.countP_map]
        exact List.countP_eq_length.2 fun f _ => rfl
      simp only [hdrop, List.countP_append, List.countP_cons, hb, Loss.Counted]
      simp
      omega
  | other _ hrt => exact ⟨hlost, hrej, hdrop, hrt.trans hsent⟩
  | stopped =>
    refine ⟨justified_append hlost ?_, hrej, ?_, hsent⟩
    · intro l hl
      obtain ⟨f, -, rfl⟩ := List.mem_map.1 hl
      trivial
    · have hc : (s.sendQueue.map Loss.cleared).countP Loss.Counted = 0 := by
        rw [List.countP_map, List.countP_eq_zero.2]
        intro f _
        simp [Loss.Counted]
      simp only [hdrop, List.countP_append, hc]
      omega

theorem run_kept {as : List (Act τ)} (h : (machine τ).run {} as = some s) : s.Kept :=
  Lts.Machine.run_inv (fun _ _ _ hs h => hs.step (step_cases h)) .init h

/-- Only `stop` clears the queue. -/
def NotCleared (l : Loss τ) : Prop := ∀ f, l ≠ .cleared f

theorem run_not_cleared {as : List (Act τ)} (h : (machine τ).run {} as = some s)
    (hstop : ∀ a ∈ as, a ≠ .stop) : ∀ l ∈ s.history.lost, NotCleared l := by
  refine Lts.Machine.along_inv (I := fun s => ∀ l ∈ s.history.lost, NotCleared l)
    (fun s a t hs ha h => ?_) (by simp)
    (Lts.Machine.along_of_forall (fun a ha _ => hstop a ha) _) h
  cases step_cases h with
  | refused _ | checked | pushed | flushed | rejected | sent | other => exact hs
  | shed =>
    intro l hl
    rcases List.mem_append.1 hl with hl | hl
    · exact hs l hl
    · rw [List.mem_singleton.1 hl]; exact fun f hf => by cases hf
  | failed =>
    intro l hl
    rcases List.mem_append.1 hl with hl | hl
    · exact hs l hl
    · rcases List.mem_cons.1 hl with rfl | hl
      · exact fun f hf => by cases hf
      · obtain ⟨g, -, rfl⟩ := List.mem_map.1 hl
        exact fun f hf => by cases hf
  | stopped => exact absurd rfl ha

/-! ## Delivery -/

/-- How an accepted frame of a dispatcher that is not stopped may be lost: shed as an event from a
full queue, and while a log frame was queued only as one; or with a failed send. -/
def Loss.Allowed (lost : List (Loss τ)) (l : Loss τ) : Prop :=
  (∃ f queue, l = .shed f queue ∧ f.type = .Event ∧ f ∈ queue ∧
    kHostQueueMaxDepth ≤ queue.length ∧
    (f.isLogFrame = false → ∀ g ∈ queue, g.isLogFrame = false)) ∨
  (∃ f, l = .failed f) ∨ ∃ f failing, l = .behind f failing ∧ .failed failing ∈ lost

/-- **Outbound queue delivery**: in every run without `stop`, what went over the wire is the written
frames; they are an order-preserving part of the accepted frames; every accepted frame is written,
pending or lost in an allowed way, exactly once; and the drop counter counts the shed and rejected
frames and those behind a failed send. -/
theorem run_delivery {as : List (Act τ)} (h : (machine τ).run {} as = some s)
    (hstop : ∀ a ∈ as, a ≠ .stop) :
    s.runtime.sent = s.history.written.map
        (fun f => UdsEpollServer.wireFrame (frameHeader f) f.payload) ∧
      s.history.written.Sublist s.history.accepted ∧
      s.history.accepted.Perm (s.history.written ++ (s.localQueue ++ s.sendQueue) ++
        s.history.lost.map Loss.frame) ∧
      (∀ l ∈ s.history.lost, Loss.Allowed s.history.lost l) ∧
      (∀ f ∈ s.history.rejected, f.type = .Event) ∧
      s.droppedOutboundFrames = s.history.lost.countP Loss.Counted + s.history.rejected.length := by
  obtain ⟨as', c, hc, rfl⟩ := Lts.Sim.run conveys rfl h
  have ht : s.conveyor.Tracked := Conveyor.run_tracked hc
  have hk := run_kept h
  have hn := run_not_cleared h hstop
  refine ⟨hk.sent, (List.sublist_append_left _ _).trans ht.order, ht.account, fun l hl => ?_,
    hk.rejected, hk.dropped⟩
  have hj := hk.lost l hl
  cases l with
  | shed f queue => exact .inl ⟨f, queue, rfl, hj⟩
  | failed f => exact .inr (.inl ⟨f, rfl⟩)
  | behind f failing => exact .inr (.inr ⟨f, failing, rfl, hj⟩)
  | cleared f => exact absurd rfl (hn _ hl f)

/-- Two frames accepted while one client is connected; the second send fails. -/
theorem run_delivery_failed_send :
    let state : OutboundFrame Unit := { payload := [0x7B], origin := () }
    let log : OutboundFrame Unit := { isLogFrame := true, payload := [0x7B], origin := () }
    let as := [.start (.ok ()), .connect, .check state 0, .check log 0, .push 1 0 0, .push 0 0 0,
      .flush, .send (.ok ()) (.ok ()) 0, .send (.error (lit "write")) (.ok ()) 0]
    ∃ s, (machine Unit).run {} as = some s ∧
      s.runtime.sent = s.history.written.map
        (fun f => UdsEpollServer.wireFrame (frameHeader f) f.payload) ∧
      s.history.written.Sublist s.history.accepted ∧
      s.history.accepted.Perm (s.history.written ++ (s.localQueue ++ s.sendQueue) ++
        s.history.lost.map Loss.frame) ∧
      (∀ l ∈ s.history.lost, Loss.Allowed s.history.lost l) ∧
      (∀ f ∈ s.history.rejected, f.type = .Event) ∧
      s.droppedOutboundFrames = s.history.lost.countP Loss.Counted + s.history.rejected.length := by
  intro state log as
  obtain ⟨s, hs⟩ : ∃ s, (machine Unit).run {} as = some s := ⟨_, rfl⟩
  exact ⟨s, hs, run_delivery hs (by simp [as])⟩

end SidecarDispatcher

end Phi.Dispatcher
