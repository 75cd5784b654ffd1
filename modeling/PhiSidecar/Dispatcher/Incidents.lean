import Mathlib.Algebra.Order.Group.Multiset
import Mathlib.Tactic.Abel
import PhiSidecar.Dispatcher.QueueStep

/-!
# Primary incidents are not lost silently

`Told s`: every incident whose `sendError` call has returned is written, queued, or has its own line
on stderr that names its message, counted with multiplicity. A run keeps it as long as no step loses
an incident on one of the paths without a fallback line (`KeepsIncidents`): shedding it, rejecting it
on a full queue, dropping it behind a failed send, clearing it with `stop`.

* `run_told`: **in every run whose steps keep incidents, no incident is lost silently**.
* `run_not_told`: an incident rejected on a queue full of responses has no line.
-/

set_option autoImplicit false

namespace Phi.Dispatcher

open Phi.V1 Phi.Transport

namespace SidecarDispatcher

variable {τ : Type} {s t : SidecarDispatcher τ} {a : Act τ}

/-- The incidents among some frames. -/
def incidents (l : List (OutboundFrame τ)) : Multiset (OutboundFrame τ) :=
  (l.filter (·.isIncident) : List (OutboundFrame τ))

@[simp] theorem incidents_nil : incidents ([] : List (OutboundFrame τ)) = 0 := rfl

@[simp] theorem incidents_append (l l' : List (OutboundFrame τ)) :
    incidents (l ++ l') = incidents l + incidents l' := by
  simp [incidents, List.filter_append, ← Multiset.coe_add]

theorem incidents_cons (f : OutboundFrame τ) (l : List (OutboundFrame τ)) :
    incidents (f :: l) = incidents [f] + incidents l := by
  rw [← incidents_append, List.singleton_append]

theorem incidents_eq_zero {l : List (OutboundFrame τ)} (h : ∀ f ∈ l, f.isIncident = false) :
    incidents l = 0 := by
  rw [incidents, List.filter_eq_nil_iff.2 fun f hf => by simp [h f hf]]
  rfl

theorem incidents_eraseIdx {l : List (OutboundFrame τ)} {i : Nat} {f : OutboundFrame τ}
    (h : l[i]? = some f) : incidents l = incidents [f] + incidents (l.eraseIdx i) := by
  obtain ⟨hi, rfl⟩ := List.getElem?_eq_some_iff.1 h
  rw [← incidents_cons]
  exact Multiset.coe_eq_coe.2 ((List.getElem_cons_eraseIdx_perm hi).symm.filter _)

/-- The frames that lines on stderr are about. -/
def told (ls : List (StderrLine τ)) : List (OutboundFrame τ) := ls.filterMap (·.frame)

theorem told_append (ls ls' : List (StderrLine τ)) : told (ls ++ ls') = told ls ++ told ls' :=
  List.filterMap_append

theorem Quiet.told {ls : List (StderrLine τ)} (h : Quiet ls) : told ls = [] :=
  List.filterMap_eq_nil_iff.2 fun l hl => h l hl

theorem Quiet.names {ls : List (StderrLine τ)} (h : Quiet ls) : ∀ l ∈ ls, StderrLine.Names l :=
  fun l hl f hf => by rw [h l hl] at hf; cases hf

theorem Reported.incidents {frame : OutboundFrame τ} {ls : List (StderrLine τ)}
    (h : Reported frame ls) :
    SidecarDispatcher.incidents (SidecarDispatcher.told ls) = SidecarDispatcher.incidents [frame] := by
  cases hi : frame.isIncident with
  | true => rw [told, h.incident hi]
  | false =>
    rw [incidents_eq_zero fun f hf => by rw [h.other f hf, hi], incidents_eq_zero fun f hf => by
      rw [List.mem_singleton.1 hf, hi]]

/-- Every incident whose call has returned is written, queued (in the queue or in the batch of a
flush) or has a line of its own on stderr, and every line about a frame names its message. -/
structure Told (s : SidecarDispatcher τ) : Prop where
  account : incidents s.history.returned =
    incidents (s.history.written ++ (s.localQueue ++ s.sendQueue)) + incidents (told s.stderr)
  names : ∀ l ∈ s.stderr, StderrLine.Names l

/-- Sending the frame fails: there is no client, or a write fails. -/
def SendFails (s : SidecarDispatcher τ) (frame : OutboundFrame τ)
    (writeHeader writePayload : Except Bytes Unit) : Prop :=
  s.runtime.client = false ∨ writeHeader ≠ .ok () ∨ frame.payload ≠ [] ∧ writePayload ≠ .ok ()

/-- The step loses no incident on a path that writes no line for it. -/
def KeepsIncidents (s : SidecarDispatcher τ) : Act τ → Prop
  | .push k _ _ => kHostQueueMaxDepth ≤ s.sendQueue.length →
      (∀ i f, Sheds s.sendQueue i f → f.isIncident = false) ∧
      (shedIndex s.sendQueue = none → ∀ f, s.calls[k]? = some f → f.isIncident = false)
  | .send writeHeader writePayload _ => ∀ frame rest, s.localQueue = frame :: rest →
      SendFails s frame writeHeader writePayload → ∀ f ∈ rest, f.isIncident = false
  | .stop => ∀ f ∈ s.sendQueue, f.isIncident = false
  | _ => True

theorem names_append {ls ls' : List (StderrLine τ)} (h : ∀ l ∈ ls, StderrLine.Names l)
    (h' : ∀ l ∈ ls', StderrLine.Names l) : ∀ l ∈ ls ++ ls', StderrLine.Names l :=
  fun l hl => (List.mem_append.1 hl).elim (h l) (h' l)

theorem send_fails {frame : OutboundFrame τ} {wh wp : Except Bytes Unit} {e : Bytes}
    (h : (s.runtime.send (frameHeader frame) frame.payload wh wp).2 = .error e) :
    SendFails s frame wh wp := by
  by_contra hc
  simp only [SendFails, ne_eq, not_or, not_and, not_not, Bool.not_eq_false] at hc
  obtain ⟨hcl, rfl, hwp⟩ := hc
  have hp : (if frame.payload = [] then Except.ok () else wp) = .ok () := by
    split_ifs with hp
    · rfl
    · exact hwp hp
  simp [UdsEpollServer.send, hcl, hp] at h

/-- One step. -/
theorem Told.step (hs : Told s) (hok : KeepsIncidents s a) (h : Step s a t) : Told t := by
  obtain ⟨hacc, hnames⟩ := hs
  cases h with
  | refused hr =>
    refine ⟨?_, names_append hnames hr.names⟩
    simp only [told_append, incidents_append, hr.incidents, hacc]
    abel
  | checked | other => exact ⟨hacc, hnames⟩
  | pushed _ _ hq =>
    refine ⟨?_, names_append hnames hq.names⟩
    simp only [told_append, hq.told, List.append_nil, incidents_append, hacc]
    abel
  | shed _ hfull hsh hq =>
    refine ⟨?_, names_append hnames hq.names⟩
    have h0 := incidents_eq_zero (List.forall_mem_singleton.2 ((hok hfull).1 _ _ hsh))
    simp only [told_append, hq.told, List.append_nil, incidents_append, hacc,
      incidents_eraseIdx hsh.get, h0]
    abel
  | rejected hk hfull hnone _ hq =>
    refine ⟨?_, names_append hnames hq.names⟩
    have h0 := incidents_eq_zero (List.forall_mem_singleton.2 ((hok hfull).2 hnone _ hk))
    simp only [told_append, hq.told, List.append_nil, incidents_append, hacc, h0, add_zero]
  | flushed hq =>
    refine ⟨?_, hnames⟩
    simp only [hacc, hq, incidents_append, incidents_nil]
    abel
  | sent hq =>
    refine ⟨?_, hnames⟩
    simp only [hacc, hq, List.append_assoc, List.cons_append, List.nil_append]
  | @failed _ _ _ frame rest _ _ _ _ _ hq herr _ _ hr =>
    refine ⟨?_, names_append hnames hr.names⟩
    have h0 : incidents rest = 0 := incidents_eq_zero (hok _ _ hq (send_fails herr))
    simp only [told_append, incidents_append, hr.incidents, hacc, hq, incidents_cons frame rest, h0,
      incidents_nil]
    abel
  | stopped =>
    refine ⟨?_, hnames⟩
    simp only [hacc, incidents_append, incidents_eq_zero hok, incidents_nil]

/-- **No primary incident is lost silently** in a run whose steps all keep incidents. -/
theorem run_told {as : List (Act τ)} (hok : (machine τ).Along KeepsIncidents {} as)
    (h : (machine τ).run {} as = some s) : s.Told :=
  Lts.Machine.along_inv (fun _ _ _ hs hok h => hs.step hok (step_cases h)) ⟨rfl, by simp⟩ hok h

/-- A run that loses nothing silently: one incident is sent, another one comes after `stop`. -/
theorem run_told_stopped :
    let incident : OutboundFrame Unit :=
      { isLogFrame := true, isIncident := true, payload := [0x7B], origin := () }
    let as := [.start (.ok ()), .connect, .check incident 0, .push 0 0 0, .flush,
      .send (.ok ()) (.ok ()) 0, .stop, .check incident 0]
    ∃ s, (machine Unit).Along KeepsIncidents {} as ∧ (machine Unit).run {} as = some s ∧ s.Told := by
  intro incident as
  obtain ⟨s, hs⟩ : ∃ s, (machine Unit).run {} as = some s := ⟨_, rfl⟩
  have hok : (machine Unit).Along KeepsIncidents {} as := by
    refine ⟨trivial, fun _ h => ?_⟩; cases h
    refine ⟨trivial, fun _ h => ?_⟩; cases h
    refine ⟨trivial, fun _ h => ?_⟩; cases h
    refine ⟨fun h => absurd h (by decide), fun _ h => ?_⟩; cases h
    refine ⟨trivial, fun _ h => ?_⟩; cases h
    refine ⟨?_, fun _ h => ?_⟩
    · intro frame rest h _ f hf
      cases h
      cases hf
    cases h
    refine ⟨?_, fun _ h => ?_⟩
    · intro f hf
      cases hf
    cases h
    exact ⟨trivial, fun _ _ => trivial⟩
  exact ⟨s, hok, hs, run_told hok hs⟩

/-! ## A queue full of responses -/

theorem resp_log : false = true → false = true := id

theorem resp_event : false = true → MessageType.Response = .Event := nofun

theorem incident_log : true = true → true = true := id

theorem incident_event : true = true → MessageType.Event = .Event := fun _ => rfl

/-- A response. -/
def resp : OutboundFrame Unit :=
  { type := .Response, payload := [0x7B], origin := (), incident_log := resp_log
    log_event := resp_event }

/-- A primary incident. -/
def incident : OutboundFrame Unit :=
  { isLogFrame := true, isIncident := true, payload := [0x7B], message := lit "boom", origin := ()
    incident_log := incident_log, log_event := incident_event }

/-- `n` responses queued and nothing else done. -/
structure Filled (n : Nat) (s : SidecarDispatcher Unit) : Prop where
  started : s.started = true
  queue : s.sendQueue = List.replicate n resp
  calls : s.calls = []
  batch : s.localQueue = []
  written : s.history.written = []
  quiet : Quiet s.stderr

theorem Filled.shedIndex {n : Nat} {s : SidecarDispatcher Unit} (hs : Filled n s) :
    shedIndex s.sendQueue = none := by
  have h : ∀ {p : OutboundFrame Unit → Bool}, p resp = false →
      (List.replicate n resp).findIdx? p = none := fun h =>
    List.findIdx?_eq_none_iff.2 fun g hg => by rw [List.eq_of_mem_replicate hg, h]
  rw [SidecarDispatcher.shedIndex, hs.queue, h rfl, h rfl]

theorem check_started {s : SidecarDispatcher τ} {frame : OutboundFrame τ} (hs : s.started = true)
    (hp : frame.payload = [0x7B]) (ts : Int) :
    (machine τ).step s (.check frame ts) = some { s with calls := s.calls ++ [frame] } := by
  have hc : s.checkOutbound frame ts = none := by
    simp [checkOutbound, hs, hp, kMaxPayloadSize]
  simp only [machine, SidecarDispatcher.step, hc]

theorem push_some {s : SidecarDispatcher τ} {frame : OutboundFrame τ} (h : s.calls[0]? = some frame)
    (ts : Int) : ∃ t, (machine τ).step s (.push 0 ts ts) = some t ∧ Step s (.push 0 ts ts) t :=
  ⟨_, by simp only [machine, SidecarDispatcher.step, h, Option.map_some],
    pushOutbound_step h ts ts⟩

/-- One more response. -/
theorem Filled.next {n : Nat} {s : SidecarDispatcher Unit} (hs : Filled n s)
    (hn : n < kHostQueueMaxDepth) (ts : Int) :
    ∃ t, (machine Unit).run s [.check resp ts, .push 0 ts ts] = some t ∧ Filled (n + 1) t := by
  have hcall : { s with calls := s.calls ++ [resp] }.calls[0]? = some resp := by simp [hs.calls]
  obtain ⟨t, ht, hstep⟩ := push_some hcall ts
  refine ⟨t, ?_, ?_⟩
  · rw [Lts.Machine.run_cons, check_started hs.started rfl, Option.bind_some,
      Lts.Machine.run_cons, ht]
    rfl
  · have hlen : s.sendQueue.length < kHostQueueMaxDepth := by simpa [hs.queue] using hn
    cases hstep with
    | pushed hk _ hq =>
      simp only [hs.calls, List.nil_append, List.getElem?_cons_zero, Option.some.injEq] at hk
      subst hk
      exact ⟨hs.started, by simp [hs.queue, List.replicate_succ'], by simp [hs.calls], hs.batch,
        hs.written, hs.quiet.append hq⟩
    | shed _ hfull => exact absurd hlen (Nat.not_lt.2 hfull)
    | rejected _ hfull => exact absurd hlen (Nat.not_lt.2 hfull)
    | other h => simp at h

theorem run_filled (ts : Int) : ∀ n ≤ kHostQueueMaxDepth,
    ∃ as s, (machine Unit).run {} as = some s ∧ Filled n s
  | 0, _ => ⟨[.start (.ok ())], _, rfl, ⟨rfl, rfl, rfl, rfl, rfl, by simp [Quiet]⟩⟩
  | n + 1, h => by
    obtain ⟨as, s, hs, hf⟩ := run_filled ts n (by omega)
    obtain ⟨t, ht, hf⟩ := hf.next (by omega) ts
    exact ⟨as ++ _, t, (Lts.Machine.run_append hs).trans ht, hf⟩

/-- An incident on a queue full of responses is rejected: it is not written, not queued, and no line
is about it. -/
theorem run_not_told : ∃ as s, (machine Unit).run {} as = some s ∧ incident ∈ s.history.returned ∧
    incident ∉ s.history.written ++ (s.localQueue ++ s.sendQueue) ∧
    (∀ l ∈ s.stderr, l.frame = none) ∧ ¬s.Told := by
  let ts : Int := 1700000000000
  obtain ⟨as, s, hs, hf⟩ := run_filled ts kHostQueueMaxDepth (Nat.le_refl _)
  have hcall : { s with calls := s.calls ++ [incident] }.calls[0]? = some incident := by
    simp [hf.calls]
  obtain ⟨t, ht, hstep⟩ := push_some hcall ts
  have hrun : (machine Unit).run {} (as ++ [.check incident ts, .push 0 ts ts]) = some t := by
    rw [Lts.Machine.run_append hs, Lts.Machine.run_cons, check_started hf.started rfl,
      Option.bind_some, Lts.Machine.run_cons, ht]
    rfl
  have hne : incident ≠ resp := fun h => absurd (congrArg (·.isIncident) h) (by decide)
  have hlost : incident ∉ s.history.written ++ (s.localQueue ++ s.sendQueue) := by
    simp [hf.written, hf.batch, hf.queue, hne]
  have hquiet : Quiet t.stderr ∧ t.history.returned = s.history.returned ++ [incident] ∧
      t.history.written ++ (t.localQueue ++ t.sendQueue) =
        s.history.written ++ (s.localQueue ++ s.sendQueue) := by
    cases hstep with
    | pushed hk hroom =>
      simp only [hf.calls, List.nil_append, List.getElem?_cons_zero, Option.some.injEq] at hk
      subst hk
      rcases hroom with hlt | ⟨-, hev⟩
      · simp [hf.queue] at hlt
      · exact absurd rfl hev
    | shed _ _ hsh => exact absurd (hsh.index.symm.trans hf.shedIndex) (by simp)
    | rejected hk _ _ _ hq =>
      simp only [hf.calls, List.nil_append, List.getElem?_cons_zero, Option.some.injEq] at hk
      subst hk
      exact ⟨hf.quiet.append hq, rfl, rfl⟩
    | other h => simp at h
  obtain ⟨hq, hret, hsame⟩ := hquiet
  refine ⟨_, t, hrun, by simp [hret], hsame ▸ hlost, hq, fun htold => ?_⟩
  have hmem : incident ∈ incidents t.history.returned := by
    simp [incidents, hret, incident]
  rw [htold.account, hq.told, hsame, incidents_nil, add_zero] at hmem
  exact hlost (List.mem_filter.1 (Multiset.mem_coe.1 hmem)).1

end SidecarDispatcher

end Phi.Dispatcher
