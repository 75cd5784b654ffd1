import PhiSidecar.Lib.Ledger
import PhiSidecar.Transport.Sessions
import PhiSidecar.Transport.WriteAll

/-!
# The descriptors of the transport (`uds_epoll_transport.cpp`, all of `UdsEpollServer`)

`FdServer` is the server with its four descriptors, down to the system calls it makes on them: `calls` is
the ledger of every descriptor the kernel returned and every call that was given one. What the system
calls return is given call by call. The three callbacks may call the server again (`HookCall`), in any
way but for another `pollOnce`.

* `writeAll_rule`: `writeAll` makes its calls on the client's descriptor only.
* `callback_kept`: a callback leaves the client and its buffer alone, or there is no client afterwards;
  `dispatchFrames` ends for that reason.
-/

set_option autoImplicit false

namespace Phi.Transport

open Phi.V1 Ledger

/-- What the calls of `start` return; `drained` reads of the wake descriptor find something. -/
structure StartReturns extends StartCalls where
  drained : Nat := 0

/-- What the calls of `acceptClient` return, the two of `fcntl` apart. -/
structure AcceptReturns where
  accept4 : AcceptReturn
  getFlags : Except Bytes Unit := .ok ()
  setFlags : Except Bytes Unit := .ok ()
  epollAdd : Except Bytes Unit := .ok ()

/-- A call of the server by a callback; the lists are what `::send` and `::poll` return to the two calls
of `writeAll`. -/
inductive HookCall
  | send (header : FrameHeader) (payload : Bytes) (writeHeader writePayload : List WriteResult)
  | wakeup
  | stop
  | start (calls : StartReturns)

/-- One entry of `events`, with what the calls made for it return and what the callbacks do. -/
structure FdEvent where
  fd : Nat
  hangup : Bool := false
  input : Bool := false
  drained : Nat := 0
  accept : AcceptReturns := ⟨.again, .ok (), .ok (), .ok ()⟩
  reads : List ReadResult := []
  onFrame : List Frame → List HookCall := fun _ => []
  onConnected : List HookCall := []
  onDisconnected : List HookCall := []

/-- The outcome of `::epoll_wait`. -/
inductive FdWait
  | events (events : List FdEvent)
  | intr
  | error (errno : Bytes)

structure FdServer where
  clientFd : Option Nat := none
  serverFd : Option Nat := none
  epollFd : Option Nat := none
  wakeFd : Option Nat := none
  notifyDisconnect : Bool := false
  rxBuffer : Bytes := []
  rxOffset : Nat := 0
  onFrame : List Frame := []
  hooks : List Hook := []
  calls : List (Op Nat) := []

namespace FdServer

/-! ## System calls -/

/-- The kernel returns a descriptor. -/
def opened (s : FdServer) (fd : Nat) : FdServer := { s with calls := s.calls ++ [.acquire fd] }

/-- A system call on a descriptor. -/
def use (s : FdServer) (fd : Option Nat) : FdServer := { s with calls := s.calls ++ [.use fd] }

def close (s : FdServer) (fd : Option Nat) : FdServer := { s with calls := s.calls ++ [.release fd] }

/-! ## Starting and stopping -/

def closeClientFd (s : FdServer) : FdServer :=
  if s.clientFd.isSome then { s.close s.clientFd with clientFd := none } else s

def closeEpollFd (s : FdServer) : FdServer :=
  if s.epollFd.isSome then { s.close s.epollFd with epollFd := none } else s

def closeServerFd (s : FdServer) : FdServer :=
  if s.serverFd.isSome then { s.close s.serverFd with serverFd := none } else s

def stop (s : FdServer) : FdServer :=
  let s := s.closeClientFd.closeEpollFd.closeServerFd
  { s with notifyDisconnect := false, rxBuffer := [], rxOffset := 0 }

/-- The reads that find something, and the one that does not. -/
def drain (s : FdServer) : Nat → FdServer
  | 0 => s.use s.wakeFd
  | reads + 1 => (s.use s.wakeFd).drain reads

def drainWakeFd (s : FdServer) (reads : Nat) : FdServer :=
  if s.wakeFd.isSome then s.drain reads else s

/-- The wake descriptor is created once. -/
def createWakeFd (s : FdServer) (calls : StartReturns) : FdServer × Except Bytes Unit :=
  if s.wakeFd.isSome then (s, .ok ())
  else
    match errnoString "eventfd" calls.eventfd with
    | .error e => (s, .error e)
    | .ok fd => ({ s.opened fd with wakeFd := some fd }, .ok ())

/-- The calls of `start` from `epoll_create1` on. -/
def openEpoll (s : FdServer) (calls : StartReturns) : FdServer × Except Bytes Unit :=
  match errnoString "epoll_create1" calls.epollCreate with
  | .error e => (s, .error e)
  | .ok fd =>
    let s := { s.opened fd with epollFd := some fd }
    let s := (s.use s.epollFd).use s.serverFd
    match errnoString "epoll_ctl add server" calls.addServer with
    | .error e => (s, .error e)
    | .ok () =>
      match s.createWakeFd calls with
      | (s, .error e) => (s, .error e)
      | (s, .ok ()) =>
        let s := s.drainWakeFd calls.drained
        let s := (s.use s.epollFd).use s.wakeFd
        (s, errnoString "epoll_ctl add wakeup" calls.addWakeup)

/-- The calls of `start` on the new socket, and all that follow. -/
def listenSocket (s : FdServer) (calls : StartReturns) : FdServer × Except Bytes Unit :=
  if calls.pathFits then
    let s := s.use s.serverFd
    match errnoString "bind" calls.bind with
    | .error e => (s, .error e)
    | .ok () =>
      match errnoString "chmod" calls.chmod with
      | .error e => (s, .error e)
      | .ok () =>
        let s := s.use s.serverFd
        match errnoString "listen" calls.listen with
        | .error e => (s, .error e)
        | .ok () => s.openEpoll calls
  else (s, .error (lit "socket path too long"))

def start (s : FdServer) (calls : StartReturns) : FdServer × Except Bytes Unit :=
  let s := s.stop
  match errnoString "socket" calls.socket with
  | .error e => (s, .error e)
  | .ok fd =>
    match ({ s.opened fd with serverFd := some fd } : FdServer).listenSocket calls with
    | (s, .error e) => (s.stop, .error e)
    | (s, .ok ()) => ({ s with notifyDisconnect := false, rxBuffer := [], rxOffset := 0 }, .ok ())

def wakeup (s : FdServer) : FdServer := if s.wakeFd.isSome then s.use s.wakeFd else s

def closeWakeFd (s : FdServer) : FdServer :=
  if s.wakeFd.isSome then { s.close s.wakeFd with wakeFd := none } else s

/-- `~UdsEpollServer`. -/
def destroy (s : FdServer) : FdServer := s.stop.closeWakeFd

/-! ## Sending -/

/-- `epoll_ctl` with `EPOLL_CTL_DEL`, and the `close`. -/
def dropClient (s : FdServer) : FdServer :=
  if s.clientFd.isSome then ((s.use s.epollFd).use s.clientFd).closeClientFd else s

def closeClientDeferred (s : FdServer) : FdServer :=
  { s.dropClient with
    notifyDisconnect := s.clientFd.isSome || s.notifyDisconnect, rxBuffer := [], rxOffset := 0 }

/-- The text of a `writeAll` that ran out of time. -/
def timedOut : Bytes := lit "write timed out; peer is not draining the socket"

/-- `writeAll`. After the last return that is given the socket stays full until the deadline. -/
def writeAll (s : FdServer) : Bytes → List WriteResult → FdServer × Except Bytes Unit
  | [], _ => (s, .ok ())
  | _ :: _, [] => (s.use s.clientFd, .error timedOut)
  | data, .intr :: kernel => (s.use s.clientFd).writeAll data kernel
  | data, .count n errno :: kernel =>
    let s := s.use s.clientFd
    if 0 < n then s.writeAll (data.drop n) kernel
    else (s, .error (lit "write: " ++ errno))
  | data, .again expired poll :: kernel =>
    let s := s.use s.clientFd
    if expired then (s, .error timedOut)
    else
      let s := s.use s.clientFd
      match poll with
      | .intr => s.writeAll data kernel
      | .error errno => (s, .error (lit "poll: " ++ errno))
      | .timeout => s.writeAll data kernel
      | .ready broken =>
        if broken then (s, .error (lit "socket not writable")) else s.writeAll data kernel
  | _, .error errno :: _ => (s.use s.clientFd, .error (lit "write: " ++ errno))

def send (s : FdServer) (header : FrameHeader) (payload : Bytes)
    (writeHeader writePayload : List WriteResult) : FdServer × Except Bytes Unit :=
  if s.clientFd.isSome then
    match s.writeAll (headerBytes (UdsEpollServer.wireFrame header payload).1) writeHeader with
    | (s, .error e) => (s.closeClientDeferred, .error e)
    | (s, .ok ()) =>
      match s.writeAll payload writePayload with
      | (s, .error e) => (s.closeClientDeferred, .error e)
      | (s, .ok ()) => (s, .ok ())
  else (s, .error (lit "no connected client"))

/-! ## The callbacks -/

def invoke (s : FdServer) : HookCall → FdServer
  | .send header payload writeHeader writePayload => (s.send header payload writeHeader writePayload).1
  | .wakeup => s.wakeup
  | .stop => s.stop
  | .start calls => (s.start calls).1

/-- A callback makes its calls. -/
def callback (s : FdServer) (calls : List HookCall) : FdServer := calls.foldl invoke s

def closeClient (s : FdServer) (onDisconnected : List HookCall) : FdServer :=
  ({ s.dropClient with
    notifyDisconnect := false, rxBuffer := [], rxOffset := 0
    hooks := s.hooks ++ [.onDisconnected] } : FdServer).callback onDisconnected

/-- A replaced connection is a finished session. -/
def replaceClient (s : FdServer) (onDisconnected : List HookCall) : FdServer :=
  if s.clientFd.isSome then s.closeClient onDisconnected else s

/-- `acceptClient` from the end of `setNonBlocking` on. -/
def adoptClient (s : FdServer) (fd : Nat) (epollAdd : Except Bytes Unit) (onDisconnected : List HookCall) :
    FdServer × Except Bytes Bool :=
  let s := { s.replaceClient onDisconnected with clientFd := some fd }
  let s := (s.use s.epollFd).use s.clientFd
  match errnoString "epoll_ctl add client" epollAdd with
  | .error e => ({ s.close s.clientFd with clientFd := none }, .error e)
  | .ok () => ({ s with rxBuffer := [], rxOffset := 0 }, .ok true)

def acceptClient (s : FdServer) (calls : AcceptReturns) (onDisconnected : List HookCall) :
    FdServer × Except Bytes Bool :=
  let s := s.use s.serverFd
  match calls.accept4 with
  | .again => (s, .ok false)
  | .error errno => (s, errnoString "accept4" (.error errno))
  | .fd fd =>
    let s := (s.opened fd).use (some fd)
    match errnoString "fcntl nonblock" calls.getFlags with
    | .error e => (s.close (some fd), .error e)
    | .ok () =>
      let s := s.use (some fd)
      match errnoString "fcntl nonblock" calls.setFlags with
      | .error e => (s.close (some fd), .error e)
      | .ok () => s.adoptClient fd calls.epollAdd onDisconnected

/-! ## A callback leaves the client alone, or there is none afterwards -/

/-- There is no client any more, or it and the buffer are as they were. -/
def ClientKept (s t : FdServer) : Prop :=
  t.clientFd = none ∨ t.clientFd = s.clientFd ∧ t.rxBuffer = s.rxBuffer ∧ t.rxOffset = s.rxOffset

section
variable {s t u : FdServer}

theorem ClientKept.refl (s : FdServer) : s.ClientKept s := .inr ⟨rfl, rfl, rfl⟩

theorem ClientKept.trans (h : s.ClientKept t) (h' : t.ClientKept u) : s.ClientKept u := by
  obtain h' | ⟨hc', hb', ho'⟩ := h'
  · exact .inl h'
  · obtain h | ⟨hc, hb, ho⟩ := h
    · exact .inl (hc'.trans h)
    · exact .inr ⟨hc'.trans hc, hb'.trans hb, ho'.trans ho⟩

@[simp] theorem closeClientFd_clientFd (s : FdServer) : s.closeClientFd.clientFd = none := by
  unfold closeClientFd
  split_ifs with h
  · rfl
  · exact Option.not_isSome_iff_eq_none.1 h

@[simp] theorem closeEpollFd_clientFd (s : FdServer) : s.closeEpollFd.clientFd = s.clientFd := by
  unfold closeEpollFd
  split_ifs <;> rfl

@[simp] theorem closeServerFd_clientFd (s : FdServer) : s.closeServerFd.clientFd = s.clientFd := by
  unfold closeServerFd
  split_ifs <;> rfl

@[simp] theorem stop_clientFd (s : FdServer) : s.stop.clientFd = none := by
  simp [stop]

@[simp] theorem dropClient_clientFd (s : FdServer) : s.dropClient.clientFd = none := by
  unfold dropClient
  split_ifs with h
  · exact closeClientFd_clientFd _
  · exact Option.not_isSome_iff_eq_none.1 h

theorem drainWakeFd_clientFd (s : FdServer) (reads : Nat) : (s.drainWakeFd reads).clientFd = s.clientFd := by
  unfold drainWakeFd
  split_ifs
  · induction reads generalizing s with
    | zero => rfl
    | succ reads ih => exact ih (s.use s.wakeFd) ‹_›
  · rfl

theorem createWakeFd_clientFd (s : FdServer) (calls : StartReturns) :
    (s.createWakeFd calls).1.clientFd = s.clientFd := by
  unfold createWakeFd
  split_ifs
  · rfl
  · split <;> rfl

theorem openEpoll_clientFd (s : FdServer) (calls : StartReturns) :
    (s.openEpoll calls).1.clientFd = s.clientFd := by
  unfold openEpoll
  split
  · rfl
  · next fd _ =>
    have hwake := createWakeFd_clientFd ((({ s.opened fd with epollFd := some fd } : FdServer).use
      (some fd)).use s.serverFd) calls
    dsimp only
    split
    · rfl
    · split
      · next t e he => exact (congrArg (fun r => r.1.clientFd) he).symm.trans hwake
      · next t he =>
        have ht : t.clientFd = s.clientFd := (congrArg (fun r => r.1.clientFd) he).symm.trans hwake
        exact (t.drainWakeFd_clientFd calls.drained).trans ht

theorem listenSocket_clientFd (s : FdServer) (calls : StartReturns) :
    (s.listenSocket calls).1.clientFd = s.clientFd := by
  unfold listenSocket
  split_ifs
  · dsimp only
    split
    · rfl
    · split
      · rfl
      · split
        · rfl
        · exact openEpoll_clientFd _ calls
  · rfl

theorem start_clientFd (s : FdServer) (calls : StartReturns) : (s.start calls).1.clientFd = none := by
  unfold start
  dsimp only
  split
  · exact s.stop_clientFd
  · next fd _ =>
    have hlisten := listenSocket_clientFd ({ s.stop.opened fd with serverFd := some fd } : FdServer) calls
    split
    · next t e _ => exact t.stop_clientFd
    · next t he =>
      have ht : t.clientFd = s.stop.clientFd := (congrArg (fun r => r.1.clientFd) he).symm.trans hlisten
      exact ht.trans s.stop_clientFd

/-- `writeAll` makes calls on the client's descriptor only. -/
theorem writeAll_rule {R : FdServer → FdServer → Prop} (hrefl : ∀ s, R s s)
    (htrans : ∀ {s t u}, R s t → R t u → R s u) (huse : ∀ s : FdServer, R s (s.use s.clientFd)) (s : FdServer)
    (data : Bytes) (kernel : List WriteResult) : R s (s.writeAll data kernel).1 := by
  fun_induction writeAll s data kernel with
  | case1 => exact hrefl _
  | case2 s => exact huse s
  | case3 s data kernel hd ih => exact htrans (huse s) ih
  | case4 s data n errno kernel hd t hn ih => exact htrans (huse s) ih
  | case5 s => exact huse s
  | case6 s => exact huse s
  | case7 s data expired kernel hd t he u ih => exact htrans (htrans (huse s) (huse t)) ih
  | case8 s data expired kernel hd t he u errno => exact htrans (huse s) (huse t)
  | case9 s data expired kernel hd t he u ih => exact htrans (htrans (huse s) (huse t)) ih
  | case10 s data expired kernel hd t he u => exact htrans (huse s) (huse t)
  | case11 s data expired kernel hd t he u broken hb ih => exact htrans (htrans (huse s) (huse t)) ih
  | case12 s => exact huse s

theorem writeAll_kept (s : FdServer) (data : Bytes) (kernel : List WriteResult) :
    s.ClientKept (s.writeAll data kernel).1 :=
  writeAll_rule .refl (fun h h' => h.trans h') (fun s => .refl s) s data kernel

theorem send_kept (s : FdServer) (header : FrameHeader) (payload : Bytes) (wh wp : List WriteResult) :
    s.ClientKept (s.send header payload wh wp).1 := by
  unfold send
  split_ifs with hclient
  · split
    · next t e _ => exact .inl t.dropClient_clientFd
    · next t he =>
      have ht := s.writeAll_kept (headerBytes (UdsEpollServer.wireFrame header payload).1) wh
      rw [he] at ht
      split
      · next u e _ => exact .inl u.dropClient_clientFd
      · next u he' =>
        have hu := t.writeAll_kept payload wp
        rw [he'] at hu
        exact ht.trans hu
  · exact .refl s

theorem invoke_kept (s : FdServer) (call : HookCall) : s.ClientKept (s.invoke call) := by
  cases call with
  | send header payload writeHeader writePayload => exact s.send_kept ..
  | wakeup =>
    unfold invoke wakeup
    dsimp only
    split_ifs <;> exact .refl _
  | stop => exact .inl s.stop_clientFd
  | start calls => exact .inl (s.start_clientFd calls)

theorem callback_kept (s : FdServer) (calls : List HookCall) : s.ClientKept (s.callback calls) := by
  induction calls generalizing s with
  | nil => exact .refl s
  | cons call calls ih => exact (s.invoke_kept call).trans (ih _)

end

/-! ## Reading and the event loop -/

/-- The first loop of `readClient`. After the last return that is given the socket is empty. -/
def readSocket (onDisconnected : List HookCall) (s : FdServer) :
    List ReadResult → FdServer × Option (Except Bytes Unit)
  | [] => (s.use s.clientFd, none)
  | .data bytes :: rs =>
    readSocket onDisconnected { s.use s.clientFd with rxBuffer := s.rxBuffer ++ bytes } rs
  | .eof :: _ => ((s.use s.clientFd).closeClient onDisconnected, some (.ok ()))
  | .again :: _ => (s.use s.clientFd, none)
  | .intr :: rs => readSocket onDisconnected (s.use s.clientFd) rs
  | .error errno :: _ =>
    ((s.use s.clientFd).closeClient onDisconnected, some (.error (lit "read: " ++ errno)))

/-- The cursor has passed the first frame, and the handler is called with it. -/
def takeFrame (s : FdServer) (header : FrameHeader) : FdServer :=
  let payload := ((s.rxBuffer.drop s.rxOffset).drop kFrameHeaderSize).take header.payloadSize.toNat
  { s with
    rxOffset := s.rxOffset + (kFrameHeaderSize + header.payloadSize.toNat)
    onFrame := s.onFrame ++ [(header, payload)] }

/-- The second loop of `readClient`. -/
def dispatchFrames (handler : List Frame → List HookCall) (onDisconnected : List HookCall) (s : FdServer) :
    FdServer × Option (Except Bytes Unit) :=
  let available := s.rxBuffer.length - s.rxOffset
  if _h : available < kFrameHeaderSize then (s, none)
  else
    let header := readHeader (s.rxBuffer.drop s.rxOffset)
    if isValidFrameHeader header then
      if available < kFrameHeaderSize + header.payloadSize.toNat then (s, none)
      else
        let s' := s.takeFrame header
        let t := s'.callback (handler s'.onFrame)
        if _hc : t.clientFd = none then (t, some (.ok ()))
        else dispatchFrames handler onDisconnected t
    else (s.closeClient onDisconnected, some (.error (lit "invalid frame header")))
termination_by s.rxBuffer.length - s.rxOffset
decreasing_by
  obtain h | ⟨-, hb, ho⟩ := callback_kept (s.takeFrame header) (handler (s.takeFrame header).onFrame)
  · exact absurd h _hc
  · rw [hb, ho]
    have : 0 < kFrameHeaderSize := by decide
    change s.rxBuffer.length - (s.rxOffset + (kFrameHeaderSize + header.payloadSize.toNat)) <
      s.rxBuffer.length - s.rxOffset
    omega

/-- The compaction at the end of `readClient`. -/
def compact (s : FdServer) : FdServer :=
  if 0 < s.rxOffset then
    if s.rxBuffer.length ≤ s.rxOffset then { s with rxBuffer := [], rxOffset := 0 }
    else { s with rxBuffer := s.rxBuffer.drop s.rxOffset, rxOffset := 0 }
  else s

def readClient (handler : List Frame → List HookCall) (onDisconnected : List HookCall) (s : FdServer)
    (reads : List ReadResult) : FdServer × Except Bytes Unit :=
  match s.readSocket onDisconnected reads with
  | (s, some result) => (s, result)
  | (s, none) =>
    match s.dispatchFrames handler onDisconnected with
    | (s, some result) => (s, result)
    | (s, none) => (s.compact, .ok ())

/-- One turn of the loop of `pollOnce`. -/
def handleEvent (s : FdServer) (event : FdEvent) : FdServer × Except Bytes Unit :=
  if s.wakeFd = some event.fd then (s.drainWakeFd event.drained, .ok ())
  else if s.serverFd = some event.fd then
    match s.acceptClient event.accept event.onDisconnected with
    | (s, .error e) => (s, .error e)
    | (s, .ok true) =>
      (({ s with hooks := s.hooks ++ [.onConnected] } : FdServer).callback event.onConnected, .ok ())
    | (s, .ok false) => (s, .ok ())
  else if s.clientFd = some event.fd then
    if event.hangup then (s.closeClient event.onDisconnected, .ok ())
    else if event.input then s.readClient event.onFrame event.onDisconnected event.reads
    else (s, .ok ())
  else (s, .ok ())

/-- The loop of `pollOnce`. -/
def handleEvents (s : FdServer) : List FdEvent → FdServer × Except Bytes Unit
  | [] => (s, .ok ())
  | event :: events =>
    match s.handleEvent event with
    | (s, .error e) => (s, .error e)
    | (s, .ok ()) => handleEvents s events

/-- The notification that `closeClientDeferred` left. -/
def notify (s : FdServer) (onDisconnected : List HookCall) : FdServer :=
  if s.notifyDisconnect then
    ({ s with notifyDisconnect := false, hooks := s.hooks ++ [.onDisconnected] } : FdServer).callback
      onDisconnected
  else s

/-- `pollOnce` up to the return of `::epoll_wait`; `onDisconnected` is what the callback does when it is
called for that notification. -/
def waiting (s : FdServer) (onDisconnected : List HookCall) : FdServer :=
  let s := s.notify onDisconnected
  s.use s.epollFd

def pollOnce (s : FdServer) (onDisconnected : List HookCall) (wait : FdWait) :
    FdServer × Except Bytes Unit :=
  if s.epollFd.isSome then
    let s := s.waiting onDisconnected
    match wait with
    | .intr => (s, .ok ())
    | .error errno => (s, errnoString "epoll_wait" (.error errno))
    | .events events => s.handleEvents events
  else (s, .error (lit "transport not started"))

end FdServer

/-- The calls of a run. -/
inductive FdCall
  | start (calls : StartReturns)
  | stop
  | wakeup
  | send (header : FrameHeader) (payload : Bytes) (writeHeader writePayload : List WriteResult)
  | pollOnce (onDisconnected : List HookCall) (wait : FdWait)
  | destroy

def FdServer.perform (s : FdServer) : FdCall → FdServer
  | .start calls => (s.start calls).1
  | .stop => s.stop
  | .wakeup => s.wakeup
  | .send header payload writeHeader writePayload => (s.send header payload writeHeader writePayload).1
  | .pollOnce onDisconnected wait => (s.pollOnce onDisconnected wait).1
  | .destroy => s.destroy

/-- A server and its lifetime. -/
structure FdObject extends FdServer where
  destroyed : Bool := false

namespace FdObject

def step (s : FdObject) (call : FdCall) : Option FdObject :=
  if s.destroyed then none
  else some ⟨s.perform call, match call with | .destroy => true | _ => false⟩

def machine : Lts.Machine FdObject FdCall := ⟨step⟩

end FdObject

end Phi.Transport
