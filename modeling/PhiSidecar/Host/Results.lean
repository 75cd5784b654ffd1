import PhiSidecar.Host.SidecarHost

/-!
# What the dispatcher does with results

While the dispatcher is started it enqueues every result that fits into a frame, and drops every
other one (`Books.queueOutboundFrame`).
-/

set_option autoImplicit false

namespace Phi.Dispatcher.SidecarDispatcher

open Phi.V1 Phi.Wire

variable {τ : Type}

theorem queueOutboundFrame_returned (s : SidecarDispatcher τ) (frame : OutboundFrame τ) (clock : Clock) :
    (s.queueOutboundFrame frame clock).1.started = s.started ∧
      (s.queueOutboundFrame frame clock).1.history.returned = s.history.returned ++ [frame] := by
  unfold queueOutboundFrame
  cases hc : s.checkOutbound frame clock.check with
  | some r =>
    obtain ⟨d, ls, -, ht⟩ := checkOutbound_cases (t := r.1) (e := r.2) hc
    simp only [ht, and_self]
  | none =>
    rcases enqueue_cases { s with history.returned := s.history.returned ++ [frame] } frame with
      ⟨d, r, -, -, he⟩ | ⟨i, f, d, r, -, -, -, he⟩ | ⟨r, -, -, -, -, he⟩
    all_goals
      obtain ⟨d, ls, -, hd⟩ := pushOutbound_cases he clock.overflow clock.warning
      simp only [hd, and_self]

/-- A started dispatcher enqueues any response that fits into a frame, however long the queue. -/
theorem queueOutboundFrame_response {s : SidecarDispatcher τ} {frame : OutboundFrame τ} (clock : Clock)
    (hs : s.started = true) (hp : frame.payload ≠ []) (ht : frame.type ≠ .Event) :
    (s.queueOutboundFrame frame clock).1.history.accepted = s.history.accepted ++
      if frame.payload.length ≤ kMaxPayloadSize.toNat then [frame] else [] := by
  unfold queueOutboundFrame
  by_cases hfit : frame.payload.length ≤ kMaxPayloadSize.toNat
  · have hc : s.checkOutbound frame clock.check = none := by
      simp [checkOutbound, hs, hp, Nat.not_lt.2 hfit]
    rw [hc, if_pos hfit]
    rcases enqueue_cases { s with history.returned := s.history.returned ++ [frame] } frame with
      ⟨d, r, -, -, he⟩ | ⟨i, f, d, r, -, -, -, he⟩ | ⟨r, -, -, -, hev, -⟩
    · obtain ⟨d, ls, -, hd⟩ := pushOutbound_cases he clock.overflow clock.warning
      simp only [hd]
    · obtain ⟨d, ls, -, hd⟩ := pushOutbound_cases he clock.overflow clock.warning
      simp only [hd]
    · exact absurd hev ht
  · have hc : s.checkOutbound frame clock.check ≠ none := by
      simp [checkOutbound, hs, hp, Nat.not_le.1 hfit]
    obtain ⟨r, hr⟩ := Option.ne_none_iff_exists'.1 hc
    obtain ⟨d, ls, -, hd⟩ := checkOutbound_cases (t := r.1) (e := r.2) hr
    rw [hr, if_neg hfit, List.append_nil]
    simp only [hd]

end Phi.Dispatcher.SidecarDispatcher

namespace Phi.Host

open Phi.V1 Phi.Wire Phi.Dispatcher

/-! ## The frames of results -/

/-- The frame is what its call makes of its arguments. -/
def Made (f : OutboundFrame Origin) : Prop := ∃ now, f = f.origin.call.frame f.origin now

/-- The frames of results among some. -/
def results (l : List (OutboundFrame Origin)) : List (OutboundFrame Origin) :=
  l.filter (isResult ·.origin.call)

theorem CommandResult.frame_eq {τ : Type} (result : CommandResult) (origin : τ) (now : Int64) :
    result.frame origin now = result.outbound.frame origin now := by
  cases result <;> rfl

@[simp] theorem isResult_outbound (result : CommandResult) : isResult result.outbound = true := by
  cases result <;> rfl

/-- The frame of a result: its correlation id is the id of the result. -/
theorem Made.result {f : OutboundFrame Origin} (h : Made f) (hr : isResult f.origin.call = true) :
    ∃ (result : CommandResult) (now : Int64), f = result.frame f.origin now := by
  obtain ⟨now, hf⟩ := h
  revert hf
  cases hc : f.origin.call with
  | cmdResult response => exact fun hf => ⟨.cmd response, now, hf⟩
  | actionResult response => exact fun hf => ⟨.action response, now, hf⟩
  | _ => simp [hc, isResult] at hr

theorem closeEnvelope_ne_nil (o : Out) : closeEnvelope o ≠ [] := by
  simp [closeEnvelope, lit]

theorem frame_response {τ : Type} (result : CommandResult) (origin : τ) (now : Int64) :
    (result.frame origin now).payload ≠ [] ∧ (result.frame origin now).type ≠ .Event ∧
      (result.frame origin now).correlationId = result.id := by
  have ht : MessageType.Response ≠ .Event := by decide
  cases result with
  | cmd response => exact ⟨closeEnvelope_ne_nil _, ht, rfl⟩
  | action response => exact ⟨closeEnvelope_ne_nil _, ht, rfl⟩

/-- The frame is a result with the id: in its header, and in the envelope of its payload. -/
def Carries (id : CmdId) (f : OutboundFrame Origin) : Prop :=
  f.type = .Response ∧ f.correlationId = id ∧
    ∃ command, (command = .ResultCmd ∨ command = .ResultAction) ∧
      (openEnvelopeWithCmdId command id).out <+: f.payload

theorem field_prefix {p : Bytes} {o : Out} (h : p <+: o.out) (key : String) (value : Bytes) :
    p <+: (o.field key value).out :=
  h.trans (((List.prefix_append _ _).trans (List.prefix_append _ _)))

theorem fieldIf_prefix {p : Bytes} {o : Out} (h : p <+: o.out) (c : Bool) (key : String)
    (value : Bytes) : p <+: (o.fieldIf c key value).out := by
  unfold Out.fieldIf
  split
  · exact field_prefix h key value
  · exact h

theorem cmdResultJson_prefix (response : CmdResponse) (now : Int64) :
    (openEnvelopeWithCmdId .ResultCmd response.id).out <+: cmdResultJson response now := by
  refine List.IsPrefix.trans ?_ (List.prefix_append _ _)
  iterate 6 refine field_prefix ?_ _ _
  exact List.prefix_refl _

theorem actionResultJson_prefix (response : ActionResponse) (now : Int64) :
    (openEnvelopeWithCmdId .ResultAction response.id).out <+: actionResultJson response now := by
  refine List.IsPrefix.trans ?_ (List.prefix_append _ _)
  refine field_prefix ?_ _ _
  iterate 3 refine fieldIf_prefix ?_ _ _ _
  iterate 6 refine field_prefix ?_ _ _
  exact List.prefix_refl _

theorem frame_carries (result : CommandResult) (origin : Origin) (now : Int64) :
    Carries result.id (result.frame origin now) := by
  cases result with
  | cmd response => exact ⟨rfl, rfl, .ResultCmd, .inl rfl, cmdResultJson_prefix response now⟩
  | action response => exact ⟨rfl, rfl, .ResultAction, .inr rfl, actionResultJson_prefix response now⟩

/-- The dispatcher is started, and of the results it was given those are enqueued that fit into a
frame. -/
structure Books (d : SidecarDispatcher Origin) : Prop where
  started : d.started = true
  made : ∀ f ∈ d.history.returned, Made f
  enqueued : results d.history.accepted =
    (results d.history.returned).filter (·.payload.length ≤ kMaxPayloadSize.toNat)

theorem Books.init : Books { started := true } := ⟨rfl, by simp, rfl⟩

theorem Books.queueOutboundFrame {d : SidecarDispatcher Origin} (h : Books d) {f : OutboundFrame Origin}
    (hf : Made f) (clock : Clock) : Books (d.queueOutboundFrame f clock).1 := by
  obtain ⟨hs, hret⟩ := d.queueOutboundFrame_returned f clock
  refine ⟨hs.trans h.started, ?_, ?_⟩
  · rw [hret]
    exact List.forall_mem_append.2 ⟨h.made, by simpa using hf⟩
  · by_cases hr : isResult f.origin.call = true
    · obtain ⟨result, now, he⟩ := hf.result hr
      obtain ⟨hp, ht, -⟩ := frame_response result f.origin now
      rw [← he] at hp ht
      rw [SidecarDispatcher.queueOutboundFrame_response _ h.started hp ht, hret]
      have := h.enqueued
      unfold results at this ⊢
      by_cases hfit : f.payload.length ≤ kMaxPayloadSize.toNat
      · simp [this, hr, hfit]
      · simp [this, hr, hfit]
    · have hnone : results [f] = [] := by simp [results, hr]
      have happ : ∀ l, results (l ++ [f]) = results l := fun l => by
        rw [results, List.filter_append]
        exact (congrArg _ hnone).trans (List.append_nil _)
      rw [hret, happ]
      rcases d.queueOutboundFrame_accepted f clock with ⟨-, ha⟩ | ⟨-, ha⟩
      · rw [ha, happ]
        exact h.enqueued
      · rw [ha]
        exact h.enqueued

/-- Traffic changes nothing about results. -/
theorem traffic_cases {d e : SidecarDispatcher Origin} {a : Net} (ha : a.isTraffic = true)
    (h : d.step a.act = some e) : e.started = d.started ∧ e.history.returned = d.history.returned ∧
      e.history.accepted = d.history.accepted := by
  cases a with
  | flush => cases SidecarDispatcher.step_cases h with
    | flushed _ => exact ⟨rfl, rfl, rfl⟩
    | other ho => simp [Net.act] at ho
  | send wh wp tsMs => cases SidecarDispatcher.step_cases h with
    | sent _ => exact ⟨rfl, rfl, rfl⟩
    | failed _ _ _ _ _ => exact ⟨rfl, rfl, rfl⟩
    | other ho => simp [Net.act] at ho
  | connect => cases h; exact ⟨rfl, rfl, rfl⟩
  | disconnect => cases h; exact ⟨rfl, rfl, rfl⟩
  | start _ | stop | stopRuntime => cases ha

theorem Books.traffic {d e : SidecarDispatcher Origin} (hd : Books d) {a : Net}
    (ha : a.isTraffic = true) (h : d.step a.act = some e) : Books e := by
  obtain ⟨hs, hr, hacc⟩ := traffic_cases ha h
  exact ⟨hs.trans hd.started, hr ▸ hd.made, hr ▸ hacc ▸ hd.enqueued⟩

end Phi.Host
