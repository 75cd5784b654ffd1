import PhiSidecar.Transport.UdsEpollServer

/-!
# Writing a frame (`uds_epoll_transport.cpp`: `writeAll`, `send`; `runtime.cpp`: `send`)

What `::send` and `::poll` return, and whether the deadline has passed when it is asked, is given
call by call. A schedule may end while `writeAll` is still in its loop: the call has not returned,
and the result is `none`. `put` is what has gone onto the connection.

* `writeAll_put`: a call puts all of its data onto the connection when it succeeds, and a proper
  prefix of it otherwise.
* `sendKernel_cases`: so does `send`, about the bytes of the frame.
-/

set_option autoImplicit false

namespace Phi.Transport

open Phi.V1

/-- One return of `::poll`; `ready` tells whether `revents` has an error bit. -/
inductive PollResult
  | intr
  | error (errno : Bytes)
  | timeout
  | ready (broken : Bool)

/-- One return of `::send`: a count (the kernel takes no more than it is offered), or a failure.
The text of `errno` is read for the count `0` too. -/
inductive WriteResult
  | count (n : Nat) (errno : Bytes)
  | intr
  | again (expired : Bool) (poll : PollResult)
  | error (errno : Bytes)

/-- Where a call of `writeAll` is when the schedule ends. -/
structure Written where
  put : Bytes
  result : Option (Except Bytes Unit)
  /-- What the schedule has left for the next call. -/
  rest : List WriteResult

/-- `writeAll`; `data` is what is still to be written. -/
def writeAll : Bytes → List WriteResult → Written
  | [], kernel => ⟨[], some (.ok ()), kernel⟩
  | _ :: _, [] => ⟨[], none, []⟩
  | data, .count n errno :: kernel =>
    if 0 < n then
      let w := writeAll (data.drop n) kernel
      { w with put := data.take n ++ w.put }
    else ⟨[], some (.error (lit "write: " ++ errno)), kernel⟩
  | data, .intr :: kernel => writeAll data kernel
  | data, .again expired poll :: kernel =>
    if expired then
      ⟨[], some (.error (lit "write timed out; peer is not draining the socket")), kernel⟩
    else
      match poll with
      | .intr => writeAll data kernel
      | .error errno => ⟨[], some (.error (lit "poll: " ++ errno)), kernel⟩
      | .timeout => writeAll data kernel
      | .ready broken =>
        if broken then ⟨[], some (.error (lit "socket not writable")), kernel⟩
        else writeAll data kernel
  | _, .error errno :: kernel => ⟨[], some (.error (lit "write: " ++ errno)), kernel⟩

/-- A proper prefix. -/
def Truncated (put whole : Bytes) : Prop := put <+: whole ∧ put ≠ whole

theorem Truncated.nil {whole : Bytes} (h : whole ≠ []) : Truncated [] whole :=
  ⟨List.nil_prefix, h.symm⟩

theorem Truncated.append {put whole : Bytes} (h : Truncated put whole) (front : Bytes) :
    Truncated (front ++ put) (front ++ whole) :=
  ⟨(List.prefix_append_right_inj front).2 h.1, fun e => h.2 (List.append_cancel_left e)⟩

theorem Truncated.append_right {put whole : Bytes} (h : Truncated put whole) (back : Bytes) :
    Truncated put (whole ++ back) := by
  refine ⟨h.1.trans (List.prefix_append _ _), fun e => h.2 ?_⟩
  exact h.1.eq_of_length_le (by rw [e, List.length_append]; omega)

theorem Truncated.length_lt {put whole : Bytes} (h : Truncated put whole) :
    put.length < whole.length :=
  Nat.lt_of_le_of_ne h.1.length_le fun e => h.2 (h.1.eq_of_length e)

/-- All of the data is on the connection when the call succeeded, a proper prefix otherwise. -/
def Put (put whole : Bytes) (result : Option (Except Bytes Unit)) : Prop :=
  if result = some (.ok ()) then put = whole else Truncated put whole

theorem Put.failed {whole : Bytes} (h : whole ≠ []) {result : Option (Except Bytes Unit)}
    (hr : result ≠ some (.ok ())) : Put [] whole result := by
  rw [Put, if_neg hr]
  exact Truncated.nil h

theorem Put.append {put whole : Bytes} {result : Option (Except Bytes Unit)}
    (h : Put put whole result) (front : Bytes) : Put (front ++ put) (front ++ whole) result := by
  unfold Put at h ⊢
  split
  · next hr => rw [if_pos hr] at h; rw [h]
  · next hr => rw [if_neg hr] at h; exact h.append front

/-- **What `writeAll` puts onto the connection**, whatever the kernel does. -/
theorem writeAll_put (data : Bytes) (kernel : List WriteResult) :
    Put (writeAll data kernel).put data (writeAll data kernel).result := by
  fun_induction writeAll data kernel with
  | case1 kernel => rw [Put, if_pos rfl]
  | case2 b bs => exact Put.failed (by simp) (by simp)
  | case3 data n errno kernel hd hn w ih =>
    have h := ih.append (data.take n)
    rwa [List.take_append_drop] at h
  | case4 data n errno kernel hd hn => exact Put.failed hd (by simp)
  | case5 data kernel hd ih => exact ih
  | case6 data poll kernel hd => exact Put.failed hd (by simp)
  | case7 data expired kernel hd he ih => exact ih
  | case8 data expired kernel hd he errno => exact Put.failed hd (by simp)
  | case9 data expired kernel hd he ih => exact ih
  | case10 data expired kernel hd he => exact Put.failed hd (by simp)
  | case11 data expired kernel hd he broken hb ih => exact ih
  | case12 data errno kernel hd => exact Put.failed hd (by simp)

/-! ## Sending a frame -/

/-- The bytes of a frame. -/
def frameBytes (frame : Frame) : Bytes := headerBytes frame.1 ++ frame.2

namespace UdsEpollServer

/-- `send` down to the returns of `::send`: what it puts onto the connection and, once it has
returned, the server and the result. -/
def sendKernel (s : UdsEpollServer) (header : FrameHeader) (payload : Bytes)
    (kernel : List WriteResult) : Bytes × Option (UdsEpollServer × Except Bytes Unit) :=
  if s.client then
    let h := writeAll (headerBytes (wireFrame header payload).1) kernel
    match h.result with
    | none => (h.put, none)
    | some (.error e) => (h.put, some (s.send header payload (.error e) (.ok ())))
    | some (.ok ()) =>
      if payload = [] then (h.put, some (s.send header payload (.ok ()) (.ok ())))
      else
        let p := writeAll payload h.rest
        (h.put ++ p.put, p.result.map (s.send header payload (.ok ())))
  else ([], some (s.send header payload (.ok ()) (.ok ())))

end UdsEpollServer

namespace SidecarRuntime

/-- The header that `send` fills in. -/
def header (type : MessageType) (correlationId : CorrelationId) : FrameHeader :=
  { type := type.raw, correlationId }

def send (transport : UdsEpollServer) (type : MessageType) (correlationId : CorrelationId)
    (payload : Bytes) (kernel : List WriteResult) :
    Bytes × Option (UdsEpollServer × Except Bytes Unit) :=
  transport.sendKernel (header type correlationId) payload kernel

end SidecarRuntime

namespace UdsEpollServer

/-- What a call of `send` leaves when it returns: the connection stays open when it succeeded. -/
def Sent (s : UdsEpollServer) (frame : Frame) (r : UdsEpollServer × Except Bytes Unit) : Prop :=
  r.1 = { s with sent := s.sent ++ [frame] } ∧ r.2 = .ok () ∨
    r.1.client = false ∧ ∃ e, r.2 = .error e

theorem send_sent (s : UdsEpollServer) (header : FrameHeader) (payload : Bytes)
    (wh wp : Except Bytes Unit) :
    s.Sent (wireFrame header payload) (s.send header payload wh wp) := by
  obtain h | ⟨s', e, h, hc, -⟩ := s.send_cases header payload wh wp
  · rw [h]
    exact .inl ⟨rfl, rfl⟩
  · rw [h]
    exact .inr ⟨hc, e, rfl⟩

theorem send_ok {s : UdsEpollServer} (hs : s.client = true) (header : FrameHeader)
    (payload : Bytes) {wp : Except Bytes Unit} :
    (s.send header payload (.ok ()) wp).2 = if payload = [] then .ok () else wp := by
  unfold send
  rw [if_pos hs]
  simp only
  split <;> simp_all

/-- **What a call of `send` does to an open connection**: all bytes of the frame are on it when the
call has returned successfully, a proper prefix of them otherwise. -/
theorem sendKernel_open {s : UdsEpollServer} (hs : s.client = true) (header : FrameHeader)
    (payload : Bytes) (kernel : List WriteResult) :
    let r := s.sendKernel header payload kernel
    Put r.1 (frameBytes (wireFrame header payload)) (r.2.map Prod.snd) ∧
      ∀ q, r.2 = some q → s.Sent (wireFrame header payload) q := by
  intro r
  have hw := writeAll_put (headerBytes (wireFrame header payload).1) kernel
  obtain ⟨h, hh⟩ : ∃ h, h = writeAll (headerBytes (wireFrame header payload).1) kernel := ⟨_, rfl⟩
  rw [← hh] at hw
  unfold Put at hw
  have hr : r = s.sendKernel header payload kernel := rfl
  rw [sendKernel, if_pos hs, ← hh] at hr
  simp only at hr
  split at hr
  · next hres =>
    rw [hres, if_neg (by simp)] at hw
    rw [hr]
    refine ⟨?_, fun q hq => by cases hq⟩
    rw [Put, if_neg (by simp)]
    exact hw.append_right _
  · next e hres =>
    rw [hres, if_neg (by simp)] at hw
    rw [hr]
    refine ⟨?_, fun q hq => ?_⟩
    · have he : (s.send header payload (.error e) (.ok ())).2 = .error e := by simp [send, hs]
      rw [Option.map_some, he, Put, if_neg (by simp)]
      exact hw.append_right _
    · cases hq
      exact s.send_sent header payload _ _
  · next hres =>
    rw [hres, if_pos rfl] at hw
    rw [hw] at hr
    by_cases hp : payload = []
    · rw [if_pos hp] at hr
      rw [hr]
      refine ⟨?_, fun q hq => ?_⟩
      · rw [Option.map_some, send_ok hs, if_pos hp, Put, if_pos rfl, frameBytes]
        simp [wireFrame, hp]
      · cases hq
        exact s.send_sent header payload _ _
    · rw [if_neg hp] at hr
      rw [hr]
      refine ⟨?_, fun q hq => ?_⟩
      · have hmap : (Option.map (s.send header payload (.ok ())) (writeAll payload h.rest).result).map
            Prod.snd = (writeAll payload h.rest).result := by
          cases (writeAll payload h.rest).result with
          | none => rfl
          | some w => simp only [Option.map_some, send_ok hs, if_neg hp]
        rw [hmap]
        exact (writeAll_put payload h.rest).append _
      · obtain ⟨w, -, rfl⟩ := Option.map_eq_some_iff.1 hq
        exact s.send_sent header payload _ _

/-- A call without a connection fails and writes nothing. -/
theorem sendKernel_closed {s : UdsEpollServer} (hs : s.client = false) (header : FrameHeader)
    (payload : Bytes) (kernel : List WriteResult) :
    s.sendKernel header payload kernel = ([], some (s, .error (lit "no connected client"))) := by
  simp [sendKernel, send, hs]

end UdsEpollServer

end Phi.Transport
