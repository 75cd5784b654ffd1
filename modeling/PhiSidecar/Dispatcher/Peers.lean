import PhiSidecar.Dispatcher.Delivery
import PhiSidecar.Dispatcher.OutboundProof
import PhiSidecar.Transport.Agreement

/-!
# From the calls of an adapter to the documents at its peer

A `WiredDispatcher` is the dispatcher of `Queue` with the connections its poll thread has accepted,
down to the bytes on them. `::send` is given call by call (`kernel`); a schedule may end inside a
send, which then holds the runtime mutex, so only what needs no mutex goes on.

* `sendKernel_writeFrame`: the transport writes what `writeFrame` says.
* `step_inv`, `run_inv`: every connection carries the frames written while it was there, whole and in
  order, and after them at most one truncated frame.
* `run_documents`: **what the peers decode, whatever they have received so far, are the frames of calls
  with their documents, in the order in which the queue accepted them**.
-/

set_option autoImplicit false

namespace Phi.Dispatcher

open Phi.V1 Phi.Wire Phi.Transport Stream

/-- What the two `writeAll` calls of a send put onto the connection and return; the second one is
made only after the first, and only for a payload. -/
def writeFrame (header : FrameHeader) (payload : Bytes) (kernel : List WriteResult) :
    Bytes × Option (Except Bytes Unit × Except Bytes Unit) :=
  let h := writeAll (headerBytes (UdsEpollServer.wireFrame header payload).1) kernel
  match h.result with
  | none => (h.put, none)
  | some (.error e) => (h.put, some (.error e, .ok ()))
  | some (.ok ()) =>
    if payload = [] then (h.put, some (.ok (), .ok ()))
    else
      let p := writeAll payload h.rest
      (h.put ++ p.put, p.result.map fun r => (.ok (), r))

theorem sendKernel_writeFrame {s : UdsEpollServer} (hs : s.client = true) (header : FrameHeader)
    (payload : Bytes) (kernel : List WriteResult) :
    s.sendKernel header payload kernel =
      ((writeFrame header payload kernel).1,
        (writeFrame header payload kernel).2.map fun r => s.send header payload r.1 r.2) := by
  rw [UdsEpollServer.sendKernel, if_pos hs, writeFrame]
  rcases hr : (writeAll (headerBytes (UdsEpollServer.wireFrame header payload).1) kernel).result
    with _ | e | _
  · simp only [hr]
    rfl
  · simp only [hr]
    rfl
  · simp only [hr]
    split
    · rfl
    · rw [Option.map_map]
      rfl

section
variable (τ : Type)

structure WiredDispatcher where
  dispatcher : SidecarDispatcher τ := {}
  /-- The bytes put onto each accepted connection, the latest connection first. -/
  wires : List Bytes := []
  /-- A send has not returned. -/
  sending : Bool := false

inductive WiredAct
  /-- What writes nothing. -/
  | plain (a : Act τ)
  /-- The poll thread sends the front of its batch. -/
  | send (kernel : List WriteResult) (tsMs : Int)

end

variable {τ : Type}

/-- Whether an action waits for a send to return: it takes the runtime mutex, or is the poll
thread's. -/
def Act.waits : Act τ → Bool
  | .check _ _ | .push _ _ _ | .stop => false
  | .flush | .send _ _ _ | .connect | .disconnect | .start _ | .stopRuntime => true

namespace WiredDispatcher

open SidecarDispatcher (frameHeader)

def step (s : WiredDispatcher τ) : WiredAct τ → Option (WiredDispatcher τ)
  | .plain (.send _ _ _) => none
  | .plain a =>
    if s.sending && a.waits then none
    else
      (s.dispatcher.step a).map fun dispatcher =>
        { s with dispatcher, wires := match a with | .connect => [] :: s.wires | _ => s.wires }
  | .send kernel tsMs =>
    if s.sending then none
    else
      match s.dispatcher.localQueue with
      | [] => none
      | frame :: _ =>
        let (put, returned) :=
          if s.dispatcher.runtime.client then writeFrame (frameHeader frame) frame.payload kernel
          else ([], some (.ok (), .ok ()))
        let wires := s.wires.modifyHead (· ++ put)
        match returned with
        | none => some { s with wires, sending := true }
        | some (writeHeader, writePayload) =>
          (s.dispatcher.step (.send writeHeader writePayload tsMs)).map fun dispatcher =>
            { s with dispatcher, wires }

def machine (τ : Type) : Lts.Machine (WiredDispatcher τ) (WiredAct τ) := ⟨step⟩

/-! ## The frames in the dispatcher -/

end WiredDispatcher

namespace SidecarDispatcher

/-- Every frame on its way, and every accepted one, meets `P`. -/
structure Holds (P : OutboundFrame τ → Prop) (s : SidecarDispatcher τ) : Prop where
  calls : ∀ f ∈ s.calls, P f
  queued : ∀ f ∈ s.sendQueue, P f
  batch : ∀ f ∈ s.localQueue, P f
  accepted : ∀ f ∈ s.history.accepted, P f

theorem Holds.init (P : OutboundFrame τ → Prop) : Holds P {} where
  calls := by simp
  queued := by simp
  batch := by simp
  accepted := by simp

/-- A call passes the tests before the lock, with a payload of admissible size, or it returns. -/
theorem step_check {s t : SidecarDispatcher τ} {frame : OutboundFrame τ} {tsMs : Int}
    (h : s.step (.check frame tsMs) = some t) :
    Transport.Fits frame.payload ∧ t = { s with calls := s.calls ++ [frame] } ∨
      ∃ d ls, t = { s with diag := d, stderr := ls, history.returned := s.history.returned ++ [frame] } := by
  simp only [step] at h
  split at h
  · next hc =>
    cases h
    refine .inl ⟨?_, rfl⟩
    unfold checkOutbound at hc
    split_ifs at hc with _ hempty hlong
    exact ⟨hempty, Nat.le_of_not_lt hlong⟩
  · next hc =>
    cases h
    obtain ⟨d, ls, -, rfl⟩ := checkOutbound_cases hc
    exact .inr ⟨d, _, rfl⟩

theorem Holds.step {P : OutboundFrame τ → Prop} {s t : SidecarDispatcher τ} {a : Act τ}
    (hs : Holds P s) (ha : ∀ f tsMs, a = .check f tsMs → Transport.Fits f.payload → P f)
    (h : s.step a = some t) : Holds P t := by
  obtain ⟨hcalls, hqueued, hbatch, haccepted⟩ := hs
  have hsnoc : ∀ {l : List (OutboundFrame τ)} {f}, (∀ g ∈ l, P g) → P f → ∀ g ∈ l ++ [f], P g := by
    intro l f hl hf g hg
    obtain hg | hg := List.mem_append.1 hg
    · exact hl g hg
    · exact List.mem_singleton.1 hg ▸ hf
  cases step_cases h with
  | @refused frame tsMs | @checked frame tsMs =>
    obtain ⟨hfits, he⟩ | ⟨d, ls, he⟩ := step_check h
    · rw [he]
      exact ⟨hsnoc hcalls (ha _ _ rfl hfits), hqueued, hbatch, haccepted⟩
    · rw [he]
      exact ⟨hcalls, hqueued, hbatch, haccepted⟩
  | pushed hk =>
    have hf := hcalls _ (List.mem_of_getElem? hk)
    exact ⟨fun g hg => hcalls g (List.mem_of_mem_eraseIdx hg), hsnoc hqueued hf, hbatch,
      hsnoc haccepted hf⟩
  | shed hk =>
    have hf := hcalls _ (List.mem_of_getElem? hk)
    exact ⟨fun g hg => hcalls g (List.mem_of_mem_eraseIdx hg),
      hsnoc (fun g hg => hqueued g (List.mem_of_mem_eraseIdx hg)) hf, hbatch, hsnoc haccepted hf⟩
  | rejected =>
    exact ⟨fun g hg => hcalls g (List.mem_of_mem_eraseIdx hg), hqueued, hbatch, haccepted⟩
  | flushed => exact ⟨hcalls, by simp, hqueued, haccepted⟩
  | sent hq =>
    exact ⟨hcalls, hqueued, fun g hg => hbatch g (by rw [hq]; exact .tail _ hg), haccepted⟩
  | failed => exact ⟨hcalls, hqueued, by simp, haccepted⟩
  | other => exact ⟨hcalls, hqueued, hbatch, haccepted⟩
  | stopped => exact ⟨hcalls, by simp, hbatch, haccepted⟩

/-- What a send of the poll thread changes. -/
theorem step_send {s t : SidecarDispatcher τ} {frame : OutboundFrame τ}
    {rest : List (OutboundFrame τ)} (hq : s.localQueue = frame :: rest) {wh wp : Except Bytes Unit}
    {tsMs : Int} (h : s.step (.send wh wp tsMs) = some t) :
    let r := s.runtime.send (frameHeader frame) frame.payload wh wp
    r.2 = .ok () ∧ t.history.written = s.history.written ++ [frame] ∨
      (∃ e, r.2 = .error e) ∧ t.history.written = s.history.written ∧ t.runtime.client = false := by
  intro r
  simp only [step, hq, Option.some.injEq] at h
  rw [← h, sendFront]
  obtain he | ⟨rt, e, he, hcl, -⟩ :=
    UdsEpollServer.send_cases s.runtime (frameHeader frame) frame.payload wh wp
  · rw [show r = _ from he, he]
    exact .inl ⟨rfl, rfl⟩
  · rw [show r = _ from he]
    simp only [he, hcl, Bool.not_false, if_true]
    refine .inr ⟨⟨e, rfl⟩, ?_⟩
    split
    · obtain ⟨d, ls, -, hr⟩ := reportSendFailure_cases
        { s with localQueue := rest, runtime := rt
                 history.lost := s.history.lost ++ [Loss.failed frame] } frame e tsMs
      obtain ⟨ls', -, hd⟩ := dropRemaining_cases
        ({ s with localQueue := rest, runtime := rt
                  history.lost := s.history.lost ++ [Loss.failed frame] }.reportSendFailure frame e tsMs)
        frame
      rw [hd, hr]
      exact ⟨rfl, hcl⟩
    · obtain ⟨ls', -, hd⟩ := dropRemaining_cases
        { s with localQueue := rest, runtime := rt
                 history.lost := s.history.lost ++ [Loss.failed frame]
                 onProtocolError := s.onProtocolError ++
                  [lit "Failed to send outbound frame: " ++ e] } frame
      rw [hd]
      exact ⟨rfl, hcl⟩

/-- Everything but a send leaves the written frames alone, and only `connect` opens a connection. -/
theorem step_plain {s t : SidecarDispatcher τ} {a : Act τ} (ha : ∀ wh wp tsMs, a ≠ .send wh wp tsMs)
    (h : s.step a = some t) : t.history.written = s.history.written ∧
      (a ≠ .connect → t.runtime.client = true → s.runtime.client = true) := by
  cases step_cases h with
  | refused | checked | pushed | shed | rejected | flushed | stopped => exact ⟨rfl, fun _ h => h⟩
  | sent => exact absurd rfl (ha _ _ _)
  | failed => exact absurd rfl (ha _ _ _)
  | other hother =>
    refine ⟨rfl, fun hne hcl => ?_⟩
    obtain rfl | rfl | ⟨r, rfl⟩ | rfl := hother
    · exact absurd rfl hne
    · cases h; cases hcl
    · cases r <;> cases h <;> cases hcl
    · cases h; cases hcl

end SidecarDispatcher

/-! ## What an action does -/

namespace WiredDispatcher

open SidecarDispatcher (frameHeader)

/-- The outcomes of an action. -/
inductive Step (s : WiredDispatcher τ) : WiredAct τ → WiredDispatcher τ → Prop
  | plain {a d} : (∀ wh wp tsMs, a ≠ .send wh wp tsMs) → a ≠ .connect →
      s.dispatcher.step a = some d → Step s (.plain a) { s with dispatcher := d }
  | connect {d} : s.sending = false → s.dispatcher.step .connect = some d →
      Step s (.plain .connect) { s with dispatcher := d, wires := [] :: s.wires }
  /-- The schedule ends inside the send. -/
  | stuck {kernel tsMs frame rest put} : s.sending = false → s.dispatcher.localQueue = frame :: rest →
      s.dispatcher.runtime.client = true →
      writeFrame (frameHeader frame) frame.payload kernel = (put, none) →
      Step s (.send kernel tsMs) { s with wires := s.wires.modifyHead (· ++ put), sending := true }
  | sent {kernel tsMs frame rest put wh wp d} : s.sending = false →
      s.dispatcher.localQueue = frame :: rest → s.dispatcher.runtime.client = true →
      writeFrame (frameHeader frame) frame.payload kernel = (put, some (wh, wp)) →
      s.dispatcher.step (.send wh wp tsMs) = some d →
      Step s (.send kernel tsMs) { s with dispatcher := d, wires := s.wires.modifyHead (· ++ put) }
  /-- There is no connection to write to. -/
  | offline {kernel tsMs frame rest d} : s.dispatcher.localQueue = frame :: rest →
      s.dispatcher.runtime.client = false →
      s.dispatcher.step (.send (.ok ()) (.ok ()) tsMs) = some d →
      Step s (.send kernel tsMs) { s with dispatcher := d }

theorem step_cases {s t : WiredDispatcher τ} {act : WiredAct τ} (h : s.step act = some t) :
    Step s act t := by
  cases act with
  | plain a =>
    cases a with
    | send wh wp tsMs => cases h
    | connect =>
      simp only [step, Act.waits, Bool.and_true] at h
      split_ifs at h with hsending
      obtain ⟨d, hd, rfl⟩ := Option.map_eq_some_iff.1 h
      exact .connect (by simpa using hsending) hd
    | check | push | flush | disconnect | start | stop | stopRuntime =>
      simp only [step] at h
      split_ifs at h
      obtain ⟨d, hd, rfl⟩ := Option.map_eq_some_iff.1 h
      exact .plain (by simp) (by simp) hd
  | send kernel tsMs =>
    simp only [step] at h
    split_ifs at h with hsending hclient
    · split at h
      · cases h
      · next frame rest hq =>
        generalize hw : writeFrame (frameHeader frame) frame.payload kernel = w at h
        obtain ⟨put, _ | ⟨wh, wp⟩⟩ := w
        · cases h
          exact .stuck (by simpa using hsending) hq hclient hw
        · obtain ⟨d, hd, rfl⟩ := Option.map_eq_some_iff.1 h
          exact .sent (by simpa using hsending) hq hclient hw hd
    · split at h
      · cases h
      · next frame rest hq =>
        obtain ⟨d, hd, rfl⟩ := Option.map_eq_some_iff.1 h
        have hsame : s.wires.modifyHead (· ++ []) = s.wires := by
          cases s.wires <;> simp
        rw [hsame]
        exact .offline hq (by simpa using hclient) hd

/-- **The bytes below change nothing above**: a run is a run of the dispatcher. -/
theorem dispatches : Lts.Sim (machine τ) (SidecarDispatcher.machine τ)
    fun s d => s.dispatcher = d := by
  rintro s a s' _ rfl h
  have hone : ∀ {a d}, s.dispatcher.step a = some d → ∃ bs d',
      (SidecarDispatcher.machine τ).run s.dispatcher bs = some d' ∧ d = d' := by
    intro a d hd
    refine ⟨[a], d, ?_, rfl⟩
    rw [Lts.Machine.run_cons, show (SidecarDispatcher.machine τ).step s.dispatcher a = some d from hd]
    rfl
  cases step_cases h with
  | plain _ _ hd => exact hone hd
  | connect _ hd => exact hone hd
  | stuck => exact ⟨[], s.dispatcher, rfl, rfl⟩
  | sent _ _ _ _ hd => exact hone hd
  | offline _ _ hd => exact hone hd

/-! ## What is on the connections -/

/-- The frame as a call of `SidecarRuntime::send`. -/
def call (frame : OutboundFrame τ) : Call where
  type := frame.type
  correlationId := frame.correlationId
  payload := frame.payload
  put := []
  result := none

/-- The bytes of whole frames. -/
def whole (sent : List (OutboundFrame τ)) : Bytes :=
  (sent.map call).flatMap fun k => frameBytes k.frame

/-- A connection with the frames sent on it, whole, and too little for another one after them. -/
def Carries (sent : List (OutboundFrame τ)) (bytes : Bytes) : Prop :=
  ∃ tail, bytes = whole sent ++ tail ∧ frames.next tail = .more

/-- `sent` are the frames of each connection, the latest connection first. -/
structure Inv (s : WiredDispatcher τ) (sent : List (List (OutboundFrame τ))) : Prop where
  carries : List.Forall₂ Carries sent s.wires
  written : s.dispatcher.history.written = sent.reverse.flatten
  /-- Nothing truncated is on a connection that is open. -/
  complete : s.dispatcher.runtime.client = true → s.sending = false →
    ∃ fs earlier wires, sent = fs :: earlier ∧ s.wires = whole fs :: wires

theorem whole_snoc (fs : List (OutboundFrame τ)) (f : OutboundFrame τ) :
    whole (fs ++ [f]) = whole fs ++ frameBytes (call f).frame := by
  simp [whole]

theorem Inv.init : Inv ({} : WiredDispatcher τ) [] where
  carries := .nil
  written := rfl
  complete h := by cases h

/-- What a send puts onto an open connection. -/
theorem put_writeFrame {s : UdsEpollServer} (hs : s.client = true) (frame : OutboundFrame τ)
    (kernel : List WriteResult) :
    Put (writeFrame (frameHeader frame) frame.payload kernel).1 (frameBytes (call frame).frame)
      ((writeFrame (frameHeader frame) frame.payload kernel).2.map fun r =>
        (s.send (frameHeader frame) frame.payload r.1 r.2).2) := by
  have h := (UdsEpollServer.sendKernel_open hs (frameHeader frame) frame.payload kernel).1
  rw [sendKernel_writeFrame hs, Option.map_map] at h
  exact h

theorem carries_truncated {fs : List (OutboundFrame τ)} {f : OutboundFrame τ} {put : Bytes}
    (hf : Transport.Fits f.payload) (h : Truncated put (frameBytes (call f).frame)) :
    Carries fs (whole fs ++ put) :=
  ⟨put, rfl, Connection.nextFrame_truncated hf h⟩

theorem step_inv {s t : WiredDispatcher τ} {act : WiredAct τ} {sent : List (List (OutboundFrame τ))}
    (hi : s.Inv sent) (hbatch : ∀ f ∈ s.dispatcher.localQueue, Transport.Fits f.payload)
    (h : s.step act = some t) : ∃ sent, t.Inv sent := by
  cases step_cases h with
  | plain ha hne hd =>
    obtain ⟨hwritten, hopen⟩ := SidecarDispatcher.step_plain ha hd
    exact ⟨sent, hi.carries, hwritten.trans hi.written,
      fun hcl hsending => hi.complete (hopen hne hcl) hsending⟩
  | connect _ hd =>
    obtain ⟨hwritten, -⟩ := SidecarDispatcher.step_plain (by simp) hd
    refine ⟨[] :: sent, .cons ⟨[], rfl, rfl⟩ hi.carries, ?_, fun _ _ => ⟨_, _, _, rfl, rfl⟩⟩
    rw [hwritten, hi.written]
    simp
  | @stuck kernel _ frame _ put hsending hq hcl hw =>
    obtain ⟨fs, earlier, wires, rfl, hwires⟩ := hi.complete hcl hsending
    have hput := put_writeFrame hcl frame kernel
    rw [hw, Option.map_none, Put, if_neg (by simp)] at hput
    refine ⟨fs :: earlier, ?_, hi.written, fun _ h => by cases h⟩
    have hcarries := hi.carries
    rw [hwires] at hcarries ⊢
    cases hcarries with
    | cons _ htail => exact .cons (carries_truncated (hbatch frame (by simp [hq])) hput) htail
  | @sent kernel _ frame _ put wh wp _ hsending hq hcl hw hd =>
    obtain ⟨fs, earlier, wires, rfl, hwires⟩ := hi.complete hcl hsending
    have hput := put_writeFrame hcl frame kernel
    have hcarries := hi.carries
    rw [hw, Option.map_some] at hput
    rw [hwires] at hcarries ⊢
    cases hcarries with
    | cons _ htail =>
      obtain ⟨hok, hwritten⟩ | ⟨⟨e, he⟩, hwritten, hclosed⟩ := SidecarDispatcher.step_send hq hd
      · -- The frame is on the connection.
        rw [hok, Put, if_pos rfl] at hput
        have hfull : whole fs ++ put = whole (fs ++ [frame]) := by rw [whole_snoc, ← hput]
        refine ⟨(fs ++ [frame]) :: earlier, ?_, ?_, fun _ _ => ⟨_, earlier, wires, rfl, ?_⟩⟩
        · exact .cons ⟨[], by rw [List.append_nil]; exact hfull, rfl⟩ htail
        · rw [hwritten, hi.written]
          simp
        · exact congrArg (· :: wires) hfull
      · -- The send has failed, and closed the connection.
        rw [he, Put, if_neg (by simp)] at hput
        exact ⟨fs :: earlier, .cons (carries_truncated (hbatch frame (by simp [hq])) hput) htail,
          hwritten.trans hi.written, fun hopen => by rw [hclosed] at hopen; cases hopen⟩
  | offline hq hcl hd =>
    obtain ⟨hok, -⟩ | ⟨-, hwritten, hclosed⟩ := SidecarDispatcher.step_send hq hd
    · rw [UdsEpollServer.send, hcl] at hok
      cases hok
    · exact ⟨sent, hi.carries, hwritten.trans hi.written,
        fun hopen _ => by rw [hclosed] at hopen; cases hopen⟩

/-- Every frame handed in meets `P` if it passes the size tests. -/
def Queues (P : OutboundFrame τ → Prop) : WiredAct τ → Prop
  | .plain (.check frame _) => P frame
  | _ => True

theorem step_holds {P : OutboundFrame τ → Prop} {s t : WiredDispatcher τ} {act : WiredAct τ}
    (hs : s.dispatcher.Holds fun f => Transport.Fits f.payload ∧ P f) (ha : Queues P act)
    (h : s.step act = some t) : t.dispatcher.Holds fun f => Transport.Fits f.payload ∧ P f := by
  cases step_cases h with
  | plain _ _ hd =>
    refine hs.step (fun f tsMs he hfits => ⟨hfits, ?_⟩) hd
    rw [he] at ha
    exact ha
  | connect _ hd => exact hs.step (by simp) hd
  | stuck => exact hs
  | sent _ _ _ _ hd => exact hs.step (by simp) hd
  | offline _ _ hd => exact hs.step (by simp) hd

theorem run_inv {P : OutboundFrame τ → Prop} {as : List (WiredAct τ)} (ha : ∀ a ∈ as, Queues P a)
    {s : WiredDispatcher τ} (h : (machine τ).run {} as = some s) :
    (∃ sent, s.Inv sent) ∧ s.dispatcher.Holds fun f => Transport.Fits f.payload ∧ P f := by
  have hstep : ∀ (s : WiredDispatcher τ) a t, ((∃ sent, s.Inv sent) ∧
      s.dispatcher.Holds fun f => Transport.Fits f.payload ∧ P f) → Queues P a →
      (machine τ).step s a = some t → (∃ sent, t.Inv sent) ∧
        t.dispatcher.Holds fun f => Transport.Fits f.payload ∧ P f := by
    rintro s a t ⟨⟨sent, hi⟩, hh⟩ ha ht
    exact ⟨step_inv hi (fun f hf => (hh.batch f hf).1) ht, step_holds hh ha ht⟩
  have hqueues : (machine τ).Along (fun _ a => Queues P a) {} as :=
    Lts.Machine.along_of_forall (fun a h _ => ha a h) _
  exact Lts.Machine.along_inv hstep ⟨⟨[], .init⟩, .init _⟩ hqueues h

/-! ## What the peers decode -/

/-- Of what is put onto a connection a peer decodes the first of the frames sent on it. -/
theorem Carries.decode {sent : List (OutboundFrame τ)} {bytes received : Bytes}
    (h : Carries sent bytes) (hfits : ∀ f ∈ sent, Transport.Fits f.payload)
    (hr : received <+: bytes) : (frames.parse received).bad = false ∧
      (frames.parse received).items <+: sent.map (fun f => (call f).frame) ∧
      (received = bytes → (frames.parse received).items = sent.map fun f => (call f).frame) := by
  obtain ⟨tail, rfl, htail⟩ := h
  have hall : frames.parse (whole sent ++ tail) = ⟨sent.map fun f => (call f).frame, false, tail⟩ := by
    have hk : ∀ k ∈ sent.map call, Transport.Fits k.payload := by
      intro k hk
      obtain ⟨f, hf, rfl⟩ := List.mem_map.1 hk
      exact hfits f hf
    rw [whole, Connection.frames_parse_calls hk htail, List.map_map]
    rfl
  obtain ⟨hbad, hitems⟩ := Splitter.parse_isPrefix (D := frames) hr (by rw [hall])
  rw [hall] at hitems
  exact ⟨hbad, hitems, fun he => by rw [he, hall]⟩

/-- A frame of an outbound function, which the frame remembers with the time of the call. -/
def FromCall (f : OutboundFrame (Outbound × Int64)) : Prop :=
  f = f.origin.1.frame f.origin f.origin.2

/-- What a decoded frame shows of a call: its message type, its id and its payload, which is one JSON text
that reads as the document of the call unless that was made with a raw JSON argument that is no JSON. -/
structure Shows (sent : Outbound × Int64) (frame : Frame) : Prop where
  type : messageType frame.1 = (sent.1.frame sent sent.2).type
  correlationId : frame.1.correlationId = (sent.1.frame sent sent.2).correlationId
  payload : frame.2 = (sent.1.frame sent sent.2).payload
  document : sent.1.RawArgs → Rfc8259.Value frame.2 ∧ (sent.1.doc sent.2).Reads frame.2

theorem FromCall.shows {f : OutboundFrame (Outbound × Int64)} (h : FromCall f) :
    Shows f.origin (call f).frame := by
  have hpayload : (call f).frame.2 = f.payload := rfl
  refine ⟨?_, ?_, ?_, fun hraw => ?_⟩
  · rw [← h]
    rfl
  · rw [← h]
    rfl
  · rw [← h]
    rfl
  · have he := Outbound.frame_exact f.origin.2 f.origin f.origin.1 hraw
    rw [← h] at he
    rw [hpayload]
    exact ⟨he.value, he.reads⟩

/-- The calls a peer reads off what it has received of a connection. -/
def Decodes (calls : List (Outbound × Int64)) (received : Bytes) : Prop :=
  (frames.parse received).bad = false ∧ List.Forall₂ Shows calls (frames.parse received).items

theorem Carries.decodes {sent : List (OutboundFrame (Outbound × Int64))} {bytes received : Bytes}
    (h : Carries sent bytes) (hsent : ∀ f ∈ sent, Transport.Fits f.payload ∧ FromCall f)
    (hr : received <+: bytes) : ∃ got, got <+: sent ∧ Decodes (got.map (·.origin)) received ∧
      (received = bytes → got = sent) := by
  obtain ⟨hbad, hitems, hall⟩ := h.decode (fun f hf => (hsent f hf).1) hr
  obtain ⟨got, hgot, he⟩ := List.prefix_map_iff.1 hitems
  refine ⟨got, hgot, ⟨hbad, ?_⟩, fun hrec => ?_⟩
  · rw [he, List.forall₂_map_left_iff, List.forall₂_map_right_iff, List.forall₂_same]
    exact fun f hf => (hsent f (hgot.subset hf)).2.shows
  · have hlen := congrArg List.length (he.symm.trans (hall hrec))
    rw [List.length_map, List.length_map] at hlen
    exact hgot.eq_of_length hlen

/-- All peers together. -/
theorem decodes_all {sent : List (List (OutboundFrame (Outbound × Int64)))}
    {wires received : List Bytes} (hc : List.Forall₂ Carries sent wires)
    (hsent : ∀ f ∈ sent.flatten, Transport.Fits f.payload ∧ FromCall f)
    (hr : List.Forall₂ (· <+: ·) received wires) :
    ∃ got : List (List (OutboundFrame (Outbound × Int64))),
      List.Forall₂ Decodes (got.map (List.map (·.origin))) received ∧
      got.flatten.Sublist sent.flatten ∧ (received = wires → got = sent) := by
  induction hc generalizing received with
  | nil =>
    cases hr
    exact ⟨[], .nil, .refl _, fun _ => rfl⟩
  | @cons fs bytes sent wires hfs _ ih =>
    cases hr with
    | @cons first _ received _ hfirst hrest =>
      rw [List.flatten_cons, List.forall_mem_append] at hsent
      obtain ⟨got, hgot, hdecodes, hgoteq⟩ := hfs.decodes hsent.1 hfirst
      obtain ⟨gots, hall, hsub, heq⟩ := ih hsent.2 hrest
      refine ⟨got :: gots, .cons hdecodes hall, hgot.sublist.append hsub, fun he => ?_⟩
      obtain ⟨he, hes⟩ := List.cons.inj he
      rw [hgoteq he, heq hes]

/-- **From the calls to the documents.** Whatever the threads, the kernel and the clients do, and
whatever part of a connection its peer has received: no peer finds a broken frame, and what the peers
decode, connection by connection, are the frames of calls of the adapter, each at most once and in the order
in which the queue accepted them, and with everything received they are the written ones; the payload of each
is the document of its call if the raw JSON arguments of that call are blank or JSON text. -/
theorem run_documents {as : List (WiredAct (Outbound × Int64))} (ha : ∀ a ∈ as, Queues FromCall a)
    {s : WiredDispatcher (Outbound × Int64)} (h : (machine (Outbound × Int64)).run {} as = some s)
    {received : List Bytes} (hr : List.Forall₂ (· <+: ·) received s.wires.reverse) :
    ∃ decoded : List (List (Outbound × Int64)), List.Forall₂ Decodes decoded received ∧
      decoded.flatten.Sublist (s.dispatcher.history.accepted.map (·.origin)) ∧
      (received = s.wires.reverse →
        decoded.flatten = s.dispatcher.history.written.map (·.origin)) := by
  obtain ⟨⟨sent, hi⟩, hholds⟩ := run_inv ha h
  obtain ⟨bs, d, hd, rfl⟩ := Lts.Sim.run dispatches rfl h
  obtain ⟨cs, c, hc, rfl⟩ := Lts.Sim.run SidecarDispatcher.conveys rfl hd
  have hwritten : s.dispatcher.history.written.Sublist s.dispatcher.history.accepted :=
    (List.sublist_append_left _ _).trans (Conveyor.run_tracked hc).order
  have hsent : ∀ f ∈ sent.reverse.flatten, Transport.Fits f.payload ∧ FromCall f := by
    rw [← hi.written]
    exact fun f hf => hholds.accepted f (hwritten.subset hf)
  obtain ⟨got, hall, hsub, heq⟩ := decodes_all (List.rel_reverse hi.carries) hsent hr
  rw [← hi.written] at hsub
  refine ⟨got.map (List.map (·.origin)), hall, ?_, fun hrec => ?_⟩
  · rw [← List.map_flatten]
    exact (hsub.trans hwritten).map _
  · rw [← List.map_flatten, heq hrec, hi.written]

/-- A frame that its peer gets half of, a second one cut off by a peer that stops reading, and a third
one for the next peer. -/
theorem run_documents_reconnect :
    let up : Outbound := .connectionStateChanged (lit "x") true
    let gone : Outbound := .deviceRemoved (lit "x") (lit "d")
    let as : List (WiredAct (Outbound × Int64)) :=
      [.plain (.start (.ok ())), .plain .connect, .plain (.check (up.frame (up, 5) 5) 0),
        .plain (.push 0 0 0), .plain (.check (gone.frame (gone, 6) 6) 0), .plain (.push 0 0 0),
        .plain .flush, .send [.count 20 [], .intr, .count 500 []] 0,
        .send [.count 20 [], .again true .timeout] 0, .plain .connect,
        .plain (.check (up.frame (up, 7) 7) 0), .plain (.push 0 0 0), .plain .flush,
        .send [.count 20 [], .count 500 []] 0]
    ∃ s, (machine (Outbound × Int64)).run {} as = some s ∧
      ∃ decoded : List (List (Outbound × Int64)),
        List.Forall₂ Decodes decoded (s.wires.reverse.map (List.take 60)) ∧
        decoded.flatten.Sublist (s.dispatcher.history.accepted.map (·.origin)) ∧
        (s.wires.reverse.map (List.take 60) = s.wires.reverse →
          decoded.flatten = s.dispatcher.history.written.map (·.origin)) := by
  intro up gone as
  have hup : ∀ now, FromCall (up.frame (up, now) now) := fun _ => rfl
  have hgone : ∀ now, FromCall (gone.frame (gone, now) now) := fun _ => rfl
  have ha : ∀ a ∈ as, Queues FromCall a := by
    simp [as, Queues, hup, hgone]
  obtain ⟨s, hs⟩ : ∃ s, (machine (Outbound × Int64)).run {} as = some s := ⟨_, rfl⟩
  refine ⟨s, hs, run_documents ha hs ?_⟩
  rw [List.forall₂_map_left_iff, List.forall₂_same]
  exact fun bytes _ => List.take_prefix _ _

end WiredDispatcher

end Phi.Dispatcher
