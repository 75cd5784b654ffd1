import PhiSidecar.Dispatcher.OutboundProof
import PhiSidecar.Dispatcher.QueueStep

/-!
# The outbound queue is bounded except for responses

A full queue sheds one frame before it takes one, or rejects the frame, unless it holds responses
only and takes another response. So it grows beyond `kHostQueueMaxDepth` only while it holds nothing
else, and then it takes no event.

* `run_capacity`: **in every reachable state the queue is within its depth or holds responses only**,
  and a started dispatcher refuses a frame of admissible size only if it is an event and the queue
  holds responses only.
-/

set_option autoImplicit false

namespace Phi.Dispatcher

open Phi.V1

variable {τ : Type}

/-- The two classes of frames that an adapter sends. -/
def OutboundFrame.Outgoing (frame : OutboundFrame τ) : Prop :=
  frame.type = .Response ∨ frame.type = .Event

instance (frame : OutboundFrame τ) : Decidable frame.Outgoing := inferInstanceAs (Decidable (_ ∨ _))

/-- Every outbound function sends a response or an event. -/
theorem Outbound.frame_outgoing (call : Outbound) (origin : τ) (now : Int64) :
    (call.frame origin now).Outgoing := by
  cases call <;> simp only [Outbound.frame] <;> first | exact .inl rfl | exact .inr rfl

/-- The frame of a call is a response or an event. -/
def Act.Outgoing : Act τ → Prop
  | .check frame _ => frame.Outgoing
  | _ => True

namespace SidecarDispatcher

variable {s t : SidecarDispatcher τ} {a : Act τ}

/-- The call at a position of `calls` from the lock on, with what it returns. -/
def pushCall (s : SidecarDispatcher τ) (k : Nat) (frame : OutboundFrame τ)
    (tsOverflow tsWarning : Int) : SidecarDispatcher τ × Except Bytes Unit :=
  { s with calls := s.calls.eraseIdx k
           history.returned := s.history.returned ++ [frame] }.pushOutbound frame tsOverflow tsWarning

theorem step_push (s : SidecarDispatcher τ) (k : Nat) (tsOverflow tsWarning : Int) :
    s.step (.push k tsOverflow tsWarning) =
      s.calls[k]?.map fun frame => (s.pushCall k frame tsOverflow tsWarning).1 := rfl

/-- The frames of a list are responses. -/
def Responses (l : List (OutboundFrame τ)) : Prop := ∀ f ∈ l, f.type = .Response

/-- What every reachable dispatcher keeps. -/
structure Capped (s : SidecarDispatcher τ) : Prop where
  calls : ∀ f ∈ s.calls, f.Outgoing
  queued : ∀ f ∈ s.sendQueue, f.Outgoing
  depth : s.sendQueue.length ≤ kHostQueueMaxDepth ∨ Responses s.sendQueue

/-- With nothing to shed the queue holds responses only. -/
theorem responses_of_shedIndex {queue : List (OutboundFrame τ)} (hq : ∀ f ∈ queue, f.Outgoing)
    (h : shedIndex queue = none) : Responses queue := by
  intro f hf
  unfold shedIndex at h
  split at h
  · cases h
  · have hev := List.findIdx?_eq_none_iff.1 h f hf
    exact (hq f hf).resolve_right (by simpa using hev)

/-- A frame can be shed from a queue only if it does not hold responses only. -/
theorem Sheds.not_responses {queue : List (OutboundFrame τ)} {i : Nat} {f : OutboundFrame τ}
    (h : Sheds queue i f) : ¬ Responses queue := by
  intro hr
  have hf := hr f (List.mem_of_getElem? h.get)
  rw [h.event] at hf
  cases hf

theorem Capped.init : Capped ({} : SidecarDispatcher τ) where
  calls := List.forall_mem_nil _
  queued := List.forall_mem_nil _
  depth := .inl (Nat.zero_le _)

theorem Capped.step (hs : Capped s) (ha : a.Outgoing) (h : Step s a t) : Capped t := by
  obtain ⟨hcalls, hqueued, hdepth⟩ := hs
  have herase : ∀ k, ∀ f ∈ s.calls.eraseIdx k, f.Outgoing :=
    fun k f hf => hcalls f (List.mem_of_mem_eraseIdx hf)
  have happend : ∀ {k : Nat} {f} {q : List (OutboundFrame τ)}, s.calls[k]? = some f →
      (∀ g ∈ q, g.Outgoing) → ∀ g ∈ q ++ [f], g.Outgoing := by
    intro k f q hk hq g hg
    obtain hg | hg := List.mem_append.1 hg
    · exact hq g hg
    · rw [List.mem_singleton.1 hg]
      exact hcalls f (List.mem_of_getElem? hk)
  cases h with
  | refused _ => exact ⟨hcalls, hqueued, hdepth⟩
  | checked _ =>
    refine ⟨fun f hf => ?_, hqueued, hdepth⟩
    obtain hf | hf := List.mem_append.1 hf
    · exact hcalls f hf
    · rw [List.mem_singleton.1 hf]
      exact ha
  | @pushed k _ _ frame _ _ hk hroom _ =>
    refine ⟨herase k, happend hk hqueued, ?_⟩
    obtain hlt | ⟨hnone, hne⟩ := hroom
    · left
      rw [List.length_append]
      exact hlt
    · right
      have hresp := responses_of_shedIndex hqueued hnone
      intro f hf
      obtain hf | hf := List.mem_append.1 hf
      · exact hresp f hf
      · rw [List.mem_singleton.1 hf]
        exact (hcalls frame (List.mem_of_getElem? hk)).resolve_right hne
  | @shed k _ _ frame i f _ _ hk hfull hsheds _ =>
    refine ⟨herase k, happend hk fun f hf => hqueued f (List.mem_of_mem_eraseIdx hf), .inl ?_⟩
    -- the queue was at its depth, as it held the frame that is shed
    have hle := hdepth.resolve_right hsheds.not_responses
    have hlen := List.length_eraseIdx_add_one (List.getElem?_eq_some_iff.1 hsheds.get).1
    rw [List.length_append, List.length_singleton]
    omega
  | @rejected k => exact ⟨herase k, hqueued, hdepth⟩
  | flushed _ => exact ⟨hcalls, List.forall_mem_nil _, .inl (Nat.zero_le _)⟩
  | sent _ => exact ⟨hcalls, hqueued, hdepth⟩
  | failed _ => exact ⟨hcalls, hqueued, hdepth⟩
  | other _ => exact ⟨hcalls, hqueued, hdepth⟩
  | stopped => exact ⟨hcalls, List.forall_mem_nil _, .inl (Nat.zero_le _)⟩

theorem run_capped {acts : List (Act τ)} (h : (machine τ).run {} acts = some s)
    (hacts : ∀ a ∈ acts, a.Outgoing) : Capped s := by
  have halong : (machine τ).Along (fun _ a => a.Outgoing) {} acts :=
    Lts.Machine.along_of_forall (fun a ha _ => hacts a ha) _
  exact Lts.Machine.along_inv (fun _ _ _ hs ha ht => hs.step ha (step_cases ht)) .init halong h

/-- The tests before the lock let a frame of admissible size pass. -/
theorem checkOutbound_none {frame : OutboundFrame τ} (hs : s.started = true)
    (hne : frame.payload ≠ []) (hsize : frame.payload.length ≤ kMaxPayloadSize.toNat) (tsMs : Int) :
    s.checkOutbound frame tsMs = none := by
  unfold checkOutbound
  rw [if_neg (by simp [hs]), if_neg hne, if_neg (Nat.not_lt.2 hsize)]

/-- Behind the lock only an event is refused, when the queue holds nothing to shed. -/
theorem pushOutbound_refused {frame : OutboundFrame τ} {tsOverflow tsWarning : Int}
    (h : (s.pushOutbound frame tsOverflow tsWarning).2 ≠ .ok ()) :
    frame.type = .Event ∧ shedIndex s.sendQueue = none := by
  have hok : ∀ {t r}, s.enqueue frame = (t, r) → r.rejected = false →
      (s.pushOutbound frame tsOverflow tsWarning).2 = .ok () := by
    intro t r he hr
    unfold pushOutbound
    rw [he]
    simp only [hr, Bool.false_eq_true, if_false]
  obtain ⟨_, _, hr, -, he⟩ | ⟨_, _, _, _, hr, -, -, he⟩ | ⟨_, -, -, hnone, hev, -⟩ :=
    enqueue_cases s frame
  · exact absurd (hok he hr) h
  · exact absurd (hok he hr) h
  · exact ⟨hev, hnone⟩

/-- Responses only, or no more than the depth: then there are no more events than that. -/
theorem Capped.events_le (h : Capped s) :
    s.sendQueue.countP (fun f => f.type = .Event) ≤ kHostQueueMaxDepth := by
  obtain hlen | hresp := h.depth
  · exact Nat.le_trans List.countP_le_length hlen
  · have hzero : s.sendQueue.countP (fun f => f.type = .Event) = 0 := by
      rw [List.countP_eq_zero]
      intro f hf
      rw [hresp f hf]
      decide
    rw [hzero]
    exact Nat.zero_le _

/-- **The send queue is bounded except for responses**, and no frame of admissible size is refused
but an event by a queue that holds responses only. -/
theorem run_capacity {acts : List (Act τ)} (h : (machine τ).run {} acts = some s)
    (hacts : ∀ a ∈ acts, a.Outgoing) :
    (s.sendQueue.length ≤ kHostQueueMaxDepth ∨ Responses s.sendQueue) ∧
      s.sendQueue.countP (fun f => f.type = .Event) ≤ kHostQueueMaxDepth ∧
      (s.started = true → ∀ frame tsMs, frame.payload ≠ [] →
        frame.payload.length ≤ kMaxPayloadSize.toNat → s.checkOutbound frame tsMs = none) ∧
      ∀ k frame tsOverflow tsWarning, s.calls[k]? = some frame →
        (s.pushCall k frame tsOverflow tsWarning).2 ≠ .ok () →
          frame.type = .Event ∧ Responses s.sendQueue := by
  have hs := run_capped h hacts
  refine ⟨hs.depth, hs.events_le, ?_, ?_⟩
  · intro hstarted frame tsMs hne hsize
    exact checkOutbound_none hstarted hne hsize tsMs
  · intro k frame tsOverflow tsWarning _ hr
    obtain ⟨hev, hnone⟩ := pushOutbound_refused hr
    exact ⟨hev, responses_of_shedIndex hs.queued hnone⟩

/-- A log frame that is queued by a started dispatcher. -/
theorem run_capacity_log :
    let frame := sendLog () (lit "hue-1") (lit "hue") { message := lit "hello" } 1
    let acts : List (Act Unit) := [.start (.ok ()), .check frame 0, .push 0 0 0, .check frame 0]
    ∃ s, (machine Unit).run {} acts = some s ∧
      (s.sendQueue.length ≤ kHostQueueMaxDepth ∨ Responses s.sendQueue) ∧
      s.sendQueue.countP (fun f => f.type = .Event) ≤ kHostQueueMaxDepth ∧
      (s.started = true → ∀ frame tsMs, frame.payload ≠ [] →
        frame.payload.length ≤ kMaxPayloadSize.toNat → s.checkOutbound frame tsMs = none) ∧
      ∀ k frame tsOverflow tsWarning, s.calls[k]? = some frame →
        (s.pushCall k frame tsOverflow tsWarning).2 ≠ .ok () →
          frame.type = .Event ∧ Responses s.sendQueue := by
  intro frame acts
  obtain ⟨s, hs⟩ : ∃ s, (machine Unit).run {} acts = some s :=
    Option.isSome_iff_exists.1 (by decide +kernel)
  refine ⟨s, hs, run_capacity hs ?_⟩
  simp only [acts, List.forall_mem_cons]
  exact ⟨trivial, .inr rfl, trivial, .inr rfl, List.forall_mem_nil _⟩

end SidecarDispatcher

end Phi.Dispatcher
