import PhiSidecar.Lib.Machine
import PhiSidecar.Transport.Reassembly
import PhiSidecar.Transport.WriteAll

/-!
# Sender and receiver agree on the wire

A `Connection` is the sending side of one accepted connection: the calls of `SidecarRuntime::send`
made on it, with what each has put onto it. Between two calls the poll thread may lose the client.
The schedule of the kernel may end inside a call, which is then the last one.

* `step_inv`, `run_inv`: the calls that succeeded come first, and only the call after them may have
  left a truncated frame.
* `frames_parse_calls`: the reference splitter finds the frames of those calls in the bytes.
* `send_receive`: **the receiver dispatches exactly the frames whose call succeeded**.
-/

set_option autoImplicit false

namespace Phi.Transport

open Phi.V1 Stream UdsEpollServer

/-- The sizes that `queueOutboundFrame` lets through. -/
def Fits (payload : Bytes) : Prop := payload ≠ [] ∧ payload.length ≤ kMaxPayloadSize.toNat

/-- A call of `SidecarRuntime::send`; the result is `none` while it has not returned. -/
structure Call where
  type : MessageType
  correlationId : CorrelationId
  payload : Bytes
  put : Bytes
  result : Option (Except Bytes Unit)

namespace Call

/-- What the receiver's frame handler is to be called with. -/
def frame (k : Call) : Frame := wireFrame (SidecarRuntime.header k.type k.correlationId) k.payload

def Succeeded (k : Call) : Prop := k.result = some (.ok ())

end Call

structure Connection where
  server : UdsEpollServer := {}
  calls : List Call := []
  /-- The last call has not returned. -/
  sending : Bool := false

namespace Connection

/-- The bytes put onto the connection. -/
def wire (c : Connection) : Bytes := c.calls.flatMap Call.put

inductive Act
  | send (type : MessageType) (correlationId : CorrelationId) (payload : Bytes)
      (kernel : List WriteResult)
  /-- The poll thread closes the connection. -/
  | lost

/-- The payload passes the size checks. -/
def Act.Fits : Act → Prop
  | .send _ _ payload _ => Transport.Fits payload
  | .lost => True

def step (c : Connection) : Act → Option Connection
  | .send type correlationId payload kernel =>
    if c.sending then none
    else
      let r := SidecarRuntime.send c.server type correlationId payload kernel
      let call := { type, correlationId, payload, put := r.1, result := r.2.map Prod.snd }
      match r.2 with
      | none => some { c with calls := c.calls ++ [call], sending := true }
      | some (server, _) => some { c with server, calls := c.calls ++ [call] }
  | .lost => if c.sending then none else some { c with server := c.server.closeClient }

def machine : Lts.Machine Connection Act := ⟨step⟩

/-! ## What the calls leave on the connection -/

/-- The calls from the first unsuccessful one on. -/
inductive Tail : List Call → Prop
  | none : Tail []
  | first {k : Call} {later : List Call} : ¬ k.Succeeded → Truncated k.put (frameBytes k.frame) →
      (∀ l ∈ later, ¬ l.Succeeded ∧ l.put = []) → Tail (k :: later)

structure Inv (c : Connection) (oks rest : List Call) : Prop where
  calls : c.calls = oks ++ rest
  fits : ∀ k ∈ c.calls, Fits k.payload
  done : ∀ k ∈ oks, k.Succeeded ∧ k.put = frameBytes k.frame
  tail : Tail rest
  /-- As long as the connection is open, every call has succeeded. -/
  usable : c.server.client = true → c.sending = false → rest = []

theorem frameBytes_ne_nil (k : Call) : frameBytes k.frame ≠ [] := by
  have h : (frameBytes k.frame).length ≠ 0 := by
    rw [frameBytes, List.length_append, @length_headerBytes k.frame.1 rfl]
    exact Nat.ne_of_gt (Nat.add_pos_left (by decide) _)
  exact fun e => h (by rw [e]; rfl)

/-- Another call that fails without writing anything. -/
theorem Tail.snoc {tail : List Call} (h : Tail tail) {k : Call} (hk : ¬ k.Succeeded)
    (hp : k.put = []) : Tail (tail ++ [k]) := by
  cases h with
  | none => exact .first hk (hp ▸ Truncated.nil (frameBytes_ne_nil k)) (by simp)
  | first h1 h2 h3 =>
    refine .first h1 h2 fun l hl => ?_
    obtain hl | hl := List.mem_append.1 hl
    · exact h3 l hl
    · rw [List.mem_singleton] at hl
      rw [hl]
      exact ⟨hk, hp⟩

/-- What a call adds. -/
theorem step_send {c c' : Connection} {type : MessageType} {correlationId : CorrelationId}
    {payload : Bytes} {kernel : List WriteResult}
    (h : c.step (.send type correlationId payload kernel) = some c') :
    let r := SidecarRuntime.send c.server type correlationId payload kernel
    c.sending = false ∧
      c'.calls = c.calls ++ [⟨type, correlationId, payload, r.1, r.2.map Prod.snd⟩] ∧
      (r.2 = none ∧ c'.sending = true ∨ ∃ q, r.2 = some q ∧ c'.server = q.1) := by
  intro r
  simp only [step] at h
  split at h
  · cases h
  · next hs =>
    refine ⟨by simpa using hs, ?_⟩
    split at h
    · next hr =>
      cases h
      exact ⟨rfl, .inl ⟨hr, rfl⟩⟩
    · next server result hr =>
      cases h
      exact ⟨rfl, .inr ⟨_, hr, rfl⟩⟩

theorem step_inv {c c' : Connection} {a : Act} {oks rest : List Call} (hi : c.Inv oks rest)
    (ha : a.Fits) (h : c.step a = some c') : ∃ oks rest, c'.Inv oks rest := by
  cases a with
  | lost =>
    simp only [step] at h
    split at h
    · cases h
    · cases h
      exact ⟨oks, rest, hi.calls, hi.fits, hi.done, hi.tail, fun hc => by cases hc⟩
  | send type correlationId payload kernel =>
    obtain ⟨hs, hcalls, hr⟩ := step_send h
    obtain ⟨r, hr'⟩ : ∃ r, r = SidecarRuntime.send c.server type correlationId payload kernel :=
      ⟨_, rfl⟩
    rw [← hr'] at hcalls hr
    obtain ⟨k, hk⟩ : ∃ k : Call, k = ⟨type, correlationId, payload, r.1, r.2.map Prod.snd⟩ :=
      ⟨_, rfl⟩
    rw [← hk] at hcalls
    have hfits : ∀ k ∈ c'.calls, Fits k.payload := by
      intro l hl
      rw [hcalls, List.mem_append, List.mem_singleton] at hl
      obtain hl | rfl := hl
      · exact hi.fits l hl
      · rw [hk]
        exact ha
    cases hc : c.server.client with
    | true =>
      obtain ⟨hput, hsent⟩ := UdsEpollServer.sendKernel_open hc
        (SidecarRuntime.header type correlationId) payload kernel
      have hrest : rest = [] := hi.usable hc hs
      rw [hrest] at hi
      have hoks : c.calls = oks := by rw [hi.calls, List.append_nil]
      have hput : Put k.put (frameBytes k.frame) k.result := by rw [hk, hr']; exact hput
      by_cases hok : k.result = some (.ok ())
      · -- The frame is on the connection.
        rw [Put, if_pos hok] at hput
        refine ⟨oks ++ [k], [], by rw [hcalls, hoks, List.append_nil], hfits, ?_, .none,
          fun _ _ => rfl⟩
        intro l hl
        obtain hl | hl := List.mem_append.1 hl
        · exact hi.done l hl
        · rw [List.mem_singleton] at hl
          rw [hl]
          exact ⟨hok, hput⟩
      · -- The call has failed and closed the connection, or it is still writing.
        rw [Put, if_neg hok] at hput
        refine ⟨oks, [k], by rw [hcalls, hoks], hfits, hi.done, .first hok hput (by simp), ?_⟩
        intro hopen hsending
        obtain ⟨-, hs'⟩ | ⟨q, hq, hserver⟩ := hr
        · rw [hs'] at hsending; cases hsending
        · obtain ⟨-, hq'⟩ | ⟨hclosed, -⟩ := hsent q (by
            rw [hr'] at hq
            exact hq)
          · refine absurd ?_ hok
            rw [hk]
            show Option.map _ _ = _
            rw [hq, ← hq']
            rfl
          · rw [hserver, hclosed] at hopen; cases hopen
    | false =>
      have hclosed := UdsEpollServer.sendKernel_closed hc
        (SidecarRuntime.header type correlationId) payload kernel
      have hr' : r = _ := hr'.trans hclosed
      rw [hr'] at hk hr
      refine ⟨oks, rest ++ [k], by rw [hcalls, hi.calls, List.append_assoc], hfits, hi.done,
        hi.tail.snoc ?_ ?_, ?_⟩
      · rw [hk]; rintro ⟨⟩
      · rw [hk]
      · intro hopen
        obtain ⟨h', -⟩ | ⟨q, hq, hserver⟩ := hr
        · cases h'
        · cases hq
          rw [hserver, hc] at hopen; cases hopen

theorem run_inv {as : List Act} (ha : ∀ a ∈ as, a.Fits) {c : Connection}
    (h : machine.run {} as = some c) : ∃ oks rest, c.Inv oks rest := by
  have hstep : ∀ (s : Connection) (a : Act) t, (∃ oks rest, s.Inv oks rest) → a.Fits →
      machine.step s a = some t → ∃ oks rest, t.Inv oks rest := by
    rintro s a t ⟨oks, rest, hi⟩ ha ht
    exact step_inv hi ha ht
  have hfits : machine.Along (fun _ a => a.Fits) {} as :=
    Lts.Machine.along_of_forall (fun a h _ => ha a h) _
  exact Lts.Machine.along_inv hstep ⟨[], [], rfl, by simp, by simp, .none, fun _ _ => rfl⟩ hfits h

/-! ## What the receiver makes of it -/

theorem isValidFrameHeader_frame {k : Call} (h : Fits k.payload) :
    isValidFrameHeader k.frame.1 = true ∧ k.frame.1.payloadSize.toNat = k.payload.length := by
  have hmax : kMaxPayloadSize.toNat = 2097152 := rfl
  have hlen := h.2
  have hsize : (UInt32.ofNat k.payload.length).toNat = k.payload.length := by
    rw [UInt32.toNat_ofNat', Nat.mod_eq_of_lt (by omega)]
  refine ⟨?_, hsize⟩
  have hle : UInt32.ofNat k.payload.length ≤ kMaxPayloadSize := by
    rw [UInt32.le_iff_toNat_le, hsize]
    exact hlen
  simp [isValidFrameHeader, Call.frame, wireFrame, SidecarRuntime.header, hle]

/-- A complete frame at the front of the stream. -/
theorem nextFrame_frame {k : Call} (h : Fits k.payload) (t : Bytes) :
    frames.next (frameBytes k.frame ++ t) = .item k.frame (frameBytes k.frame).length := by
  obtain ⟨hv, hsize⟩ := isValidFrameHeader_frame h
  have hh : (headerBytes k.frame.1).length = kFrameHeaderSize :=
    @length_headerBytes k.frame.1 rfl
  have hr : readHeader (frameBytes k.frame ++ t) = k.frame.1 := by
    rw [frameBytes, List.append_assoc]
    exact readHeader_headerBytes rfl _
  have hlen : (frameBytes k.frame).length = kFrameHeaderSize + k.payload.length := by
    rw [frameBytes, List.length_append, hh]
    rfl
  have hp : ((frameBytes k.frame ++ t).drop kFrameHeaderSize).take k.payload.length = k.payload := by
    rw [frameBytes, List.append_assoc, ← hh, List.drop_left]
    exact List.take_left
  show nextFrame (frameBytes k.frame ++ t) = .item k.frame (frameBytes k.frame).length
  simp only [nextFrame, hr, hv, hsize, hp, List.length_append, hlen, if_true]
  rw [if_neg (by omega), if_neg (by omega)]
  rfl

/-- A truncated frame is never more than too little to tell. -/
theorem nextFrame_truncated {k : Call} (h : Fits k.payload) {t : Bytes}
    (ht : Truncated t (frameBytes k.frame)) : frames.next t = .more := by
  obtain ⟨hv, hsize⟩ := isValidFrameHeader_frame h
  have hlt := ht.length_lt
  rw [frameBytes, List.length_append, @length_headerBytes k.frame.1 rfl] at hlt
  show nextFrame t = _
  unfold nextFrame
  by_cases hshort : t.length < kFrameHeaderSize
  · rw [if_pos hshort]
  · obtain ⟨u, hu⟩ := ht.1
    have hr : readHeader t = k.frame.1 := by
      rw [← readHeader_append (by omega) u, hu]
      exact readHeader_headerBytes rfl _
    rw [if_neg hshort, hr, if_pos hv, hsize]
    exact if_pos hlt

/-- Complete frames, with too little for another one after them. -/
theorem frames_parse_calls {oks : List Call} (h : ∀ k ∈ oks, Fits k.payload) {t : Bytes}
    (ht : frames.next t = .more) :
    frames.parse (oks.flatMap (frameBytes ·.frame) ++ t) = ⟨oks.map Call.frame, false, t⟩ := by
  induction oks with
  | nil => exact Splitter.parse_more ht
  | cons k ks ih =>
    have hk := nextFrame_frame (h k (.head _)) (ks.flatMap (frameBytes ·.frame) ++ t)
    rw [List.flatMap_cons, List.append_assoc, Splitter.parse_item hk, List.drop_left,
      ih fun l hl => h l (.tail _ hl)]
    rfl

/-- The bytes of the unsuccessful calls. -/
theorem Tail.next_more {rest : List Call} (h : Tail rest) (hf : ∀ k ∈ rest, Fits k.payload) :
    frames.next (rest.flatMap Call.put) = .more := by
  cases h with
  | none => rfl
  | @first k later hk ht hlater =>
    have hnil : later.flatMap Call.put = [] := by
      rw [List.flatMap_eq_nil_iff]
      exact fun l hl => (hlater l hl).2
    rw [List.flatMap_cons, hnil, List.append_nil]
    exact nextFrame_truncated (hf k (.head _)) ht

/-- **Sender and receiver agree on the wire.** Whatever the kernel does, the calls that succeed come
first and put their complete frames onto the connection; the first other call puts at most a
truncated frame onto it and every later one nothing. However these bytes are cut on their way, the
receiver dispatches the frames of the successful calls and finds no invalid header. -/
theorem send_receive {as : List Act} (ha : ∀ a ∈ as, a.Fits) {c : Connection}
    (h : machine.run {} as = some c) :
    ∃ oks rest, c.calls = oks ++ rest ∧
      (∀ k ∈ oks, k.Succeeded ∧ k.put = frameBytes k.frame) ∧ Tail rest ∧
      ∀ batches : List (List ReadResult), (∀ reads ∈ batches, ∀ r ∈ reads, r.Open) →
        (batches.map received).flatten = c.wire →
        (pollBatches (fun _ => false) batches).onFrame = oks.map Call.frame ∧
          (pollBatches (fun _ => false) batches).client = true := by
  obtain ⟨oks, rest, hi⟩ := run_inv ha h
  refine ⟨oks, rest, hi.calls, hi.done, hi.tail, fun batches hopen hwire => ?_⟩
  have hfits := hi.fits
  rw [hi.calls] at hfits
  have hoks : oks.flatMap Call.put = oks.flatMap (frameBytes ·.frame) :=
    List.flatMap_congr fun k hk => (hi.done k hk).2
  have hparse := frames_parse_calls (fun k hk => hfits k (List.mem_append_left _ hk))
    (hi.tail.next_more fun k hk => hfits k (List.mem_append_right _ hk))
  rw [← hoks, ← List.flatMap_append, ← hi.calls, ← wire, ← hwire] at hparse
  have hbatch := @pollBatches_feed (fun _ => false) (fun _ => rfl) batches hopen
  have hfeed := Splitter.feed_eq_parse (D := frames) rfl (batches.map received)
  rw [hparse] at hfeed
  exact ⟨hbatch.onFrame.trans hfeed.items, by rw [hbatch.client, hfeed.bad]; rfl⟩

/-- A frame written in three pieces, a second one whose peer stops reading, and a call after it. -/
theorem send_receive_timeout :
    let as : List Act :=
      [.send .Response 7 (lit "ok") [.count 19 [], .again false .timeout, .count 9 [], .count 2 []],
        .send .Event 8 (lit "no") [.count 30 [], .intr, .count 1 [], .again true .timeout],
        .send .Event 9 (lit "late") []]
    ∃ c, machine.run {} as = some c ∧ ∃ oks rest, c.calls = oks ++ rest ∧
      (∀ k ∈ oks, k.Succeeded ∧ k.put = frameBytes k.frame) ∧ Tail rest ∧
      ∀ batches : List (List ReadResult), (∀ reads ∈ batches, ∀ r ∈ reads, r.Open) →
        (batches.map received).flatten = c.wire →
        (pollBatches (fun _ => false) batches).onFrame = oks.map Call.frame ∧
          (pollBatches (fun _ => false) batches).client = true := by
  intro as
  have hfits : ∀ a ∈ as, a.Fits := by
    intro a ha
    simp only [as, List.mem_cons, List.not_mem_nil, or_false] at ha
    obtain rfl | rfl | rfl := ha
    · exact ⟨by decide, by decide⟩
    · exact ⟨by decide, by decide⟩
    · exact ⟨by decide, by decide⟩
  have hrun : ((machine.run {} as).map fun c => c.calls.length) = some 3 := rfl
  obtain ⟨c, hc, -⟩ := Option.map_eq_some_iff.1 hrun
  exact ⟨c, hc, send_receive hfits hc⟩

end Connection

end Phi.Transport
