import PhiSidecar.Lib.Stream
import PhiSidecar.V1.Frame

/-!
# One connection (`uds_epoll_transport.cpp`: `acceptClient`, `readClient`, `send`, `closeClient`)

The state is the client descriptor (`client`: it is open), the receive buffer and the read cursor
into it, with what the environment has seen so far: every `onFrame` call, the number of
`onDisconnected` calls and the frames written. `closes` is the frame handler: whether it closes the
connection in the last of these calls (through a failed `send`). What `::read` and `writeAll` return
is given call by call.
-/

set_option autoImplicit false

namespace Phi.Transport

open Phi.V1

/-- The arguments of an `onFrame` call. -/
abbrev Frame := FrameHeader × Bytes

/-- One return of `::read`; `error` carries the text of `errno`. -/
inductive ReadResult
  | data (bytes : Bytes)
  | eof
  | again
  | intr
  | error (errno : Bytes)

structure UdsEpollServer where
  client : Bool := true
  notifyDisconnect : Bool := false
  rxBuffer : Bytes := []
  rxOffset : Nat := 0
  onFrame : List Frame := []
  onDisconnected : Nat := 0
  sent : List Frame := []

namespace UdsEpollServer

def closeClient (s : UdsEpollServer) : UdsEpollServer :=
  { s with client := false, notifyDisconnect := false, rxBuffer := [], rxOffset := 0,
           onDisconnected := s.onDisconnected + 1 }

def closeClientDeferred (s : UdsEpollServer) : UdsEpollServer :=
  { s with client := false, notifyDisconnect := s.client || s.notifyDisconnect, rxBuffer := [],
           rxOffset := 0 }

/-- The first loop of `readClient`: read until the socket is empty. The result is `none` when the
connection is still open. -/
def readSocket (s : UdsEpollServer) :
    List ReadResult → UdsEpollServer × Option (Except Bytes Unit)
  | [] => (s, none)
  | .data bytes :: rs => readSocket { s with rxBuffer := s.rxBuffer ++ bytes } rs
  | .eof :: _ => (s.closeClient, some (.ok ()))
  | .again :: _ => (s, none)
  | .intr :: rs => readSocket s rs
  | .error errno :: _ => (s.closeClient, some (.error (lit "read: " ++ errno)))

/-- The second loop of `readClient`: dispatch the complete frames. -/
def dispatchFrames (closes : List Frame → Bool) (s : UdsEpollServer) :
    UdsEpollServer × Option (Except Bytes Unit) :=
  let available := s.rxBuffer.length - s.rxOffset
  if _h : available < kFrameHeaderSize then (s, none)
  else
    let frameStart := s.rxBuffer.drop s.rxOffset
    let header := readHeader frameStart
    if isValidFrameHeader header then
      let frameSize := kFrameHeaderSize + header.payloadSize.toNat
      if available < frameSize then (s, none)
      else
        let payload := (frameStart.drop kFrameHeaderSize).take header.payloadSize.toNat
        let s' := { s with rxOffset := s.rxOffset + frameSize,
                           onFrame := s.onFrame ++ [(header, payload)] }
        if closes s'.onFrame then (s'.closeClientDeferred, some (.ok ()))
        else dispatchFrames closes s'
    else (s.closeClient, some (.error (lit "invalid frame header")))
termination_by s.rxBuffer.length - s.rxOffset
decreasing_by
  have : 0 < kFrameHeaderSize := by decide
  omega

/-- The compaction at the end of `readClient`. -/
def compact (s : UdsEpollServer) : UdsEpollServer :=
  if 0 < s.rxOffset then
    if s.rxBuffer.length ≤ s.rxOffset then { s with rxBuffer := [], rxOffset := 0 }
    else { s with rxBuffer := s.rxBuffer.drop s.rxOffset, rxOffset := 0 }
  else s

def readClient (closes : List Frame → Bool) (s : UdsEpollServer) (reads : List ReadResult) :
    UdsEpollServer × Except Bytes Unit :=
  match s.readSocket reads with
  | (s, some result) => (s, result)
  | (s, none) =>
    match s.dispatchFrames closes with
    | (s, some result) => (s, result)
    | (s, none) => (s.compact, .ok ())

/-- The `EPOLLIN` branch of `pollOnce`, which is for the descriptor of the connected client. -/
def pollInput (closes : List Frame → Bool) (s : UdsEpollServer) (reads : List ReadResult) :
    UdsEpollServer :=
  if s.client then (s.readClient closes reads).1 else s

/-! ## Accepting, sending and stopping -/

/-- `acceptClient`, when a connection is there. -/
def acceptClient (s : UdsEpollServer) : UdsEpollServer :=
  let s := if s.client then s.closeClient else s
  { s with client := true, rxBuffer := [], rxOffset := 0 }

/-- The header as it goes over the wire. -/
def wireFrame (header : FrameHeader) (payload : Bytes) : Frame :=
  ({ header with payloadSize := UInt32.ofNat payload.length }, payload)

/-- `send`, with the results of the two `writeAll` calls. -/
def send (s : UdsEpollServer) (header : FrameHeader) (payload : Bytes)
    (writeHeader writePayload : Except Bytes Unit) : UdsEpollServer × Except Bytes Unit :=
  if s.client then
    match writeHeader with
    | .error e => (s.closeClientDeferred, .error e)
    | .ok () =>
      match if payload = [] then .ok () else writePayload with
      | .error e => (s.closeClientDeferred, .error e)
      | .ok () => ({ s with sent := s.sent ++ [wireFrame header payload] }, .ok ())
  else (s, .error (lit "no connected client"))

def stop (s : UdsEpollServer) : UdsEpollServer :=
  { s with client := false, notifyDisconnect := false, rxBuffer := [], rxOffset := 0 }

/-- A send writes the frame, or fails and leaves no client connected. -/
theorem send_cases (s : UdsEpollServer) (header : FrameHeader) (payload : Bytes)
    (wh wp : Except Bytes Unit) :
    s.send header payload wh wp = ({ s with sent := s.sent ++ [wireFrame header payload] }, .ok ()) ∨
      ∃ s' e, s.send header payload wh wp = (s', .error e) ∧ s'.client = false ∧
        s'.sent = s.sent := by
  unfold send
  cases hc : s.client with
  | false => exact .inr ⟨s, _, rfl, hc, rfl⟩
  | true =>
    rw [if_pos rfl]
    cases wh with
    | error e => exact .inr ⟨_, e, rfl, rfl, rfl⟩
    | ok _ =>
      cases hp : if payload = [] then Except.ok () else wp with
      | error e => exact .inr ⟨_, e, rfl, rfl, rfl⟩
      | ok _ => exact .inl rfl

end UdsEpollServer

end Phi.Transport
