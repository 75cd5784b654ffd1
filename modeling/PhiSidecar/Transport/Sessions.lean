import PhiSidecar.Lib.Machine
import PhiSidecar.Transport.UdsEpollServer
import Mathlib.Data.List.Count

/-!
# Sessions of the transport (`uds_epoll_transport.cpp`: `start`, `pollOnce`, `acceptClient`)

`PollServer` is the server with its descriptors and the log of the calls of `onConnected` and
`onDisconnected`. Descriptors are natural numbers; `none` is the `-1` of the source, and `client`
of `UdsEpollServer` says whether `m_clientFd` is one. What the system calls return, and the events
of a batch with their order, are given call by call.

The purpose of the two hooks is the machine `sessions`: a session begins and ends, one at a time.
`run_alternate`: from a start on, the log is a run of it, and what is left open at the end is a
connected client or a notification that the next `pollOnce` delivers.
-/

set_option autoImplicit false

namespace Phi.Transport

open Phi.V1

inductive Hook
  | onConnected
  | onDisconnected
  deriving DecidableEq, Repr

structure PollServer extends UdsEpollServer where
  client := false
  clientFd : Nat := 0
  serverFd : Option Nat := none
  epollFd : Option Nat := none
  wakeFd : Option Nat := none
  hooks : List Hook := []

/-- The outcome of `::accept4`; `error` carries the text of `errno`. -/
inductive AcceptReturn
  | fd (fd : Nat)
  | again
  | error (errno : Bytes)

/-- What the calls of `acceptClient` return. -/
structure AcceptCalls where
  accept4 : AcceptReturn
  setNonBlocking : Except Bytes Unit := .ok ()
  epollAdd : Except Bytes Unit := .ok ()

/-- One entry of `events`: the descriptor, `EPOLLRDHUP | EPOLLHUP`, `EPOLLIN`, and what the calls
made for it return. `closes` says whether a `send` of the frame handler fails. -/
structure Event where
  fd : Nat
  hangup : Bool := false
  input : Bool := false
  accept : AcceptCalls := ⟨.again, .ok (), .ok ()⟩
  reads : List ReadResult := []
  closes : List Frame → Bool := fun _ => false

/-- The outcome of `::epoll_wait`. -/
inductive WaitResult
  | events (events : List Event)
  | intr
  | error (errno : Bytes)

/-- What the calls of `start` return. -/
structure StartCalls where
  socket : Except Bytes Nat
  pathFits : Bool := true
  bind : Except Bytes Unit := .ok ()
  chmod : Except Bytes Unit := .ok ()
  listen : Except Bytes Unit := .ok ()
  epollCreate : Except Bytes Nat
  addServer : Except Bytes Unit := .ok ()
  eventfd : Except Bytes Nat
  addWakeup : Except Bytes Unit := .ok ()

/-- `errnoString` on the error of a call. -/
def errnoString {α : Type} (call : String) : Except Bytes α → Except Bytes α
  | .error errno => .error (lit call ++ lit ": " ++ errno)
  | .ok a => .ok a

namespace PollServer

/-- The state after a step on the connection, with the `onDisconnected` calls it made. -/
def observe (s : PollServer) (u : UdsEpollServer) : PollServer :=
  { s with
    toUdsEpollServer := u
    hooks := s.hooks ++ List.replicate (u.onDisconnected - s.onDisconnected) .onDisconnected }

def stop (s : PollServer) : PollServer :=
  { s with toUdsEpollServer := s.toUdsEpollServer.stop, epollFd := none, serverFd := none }

/-- `start` up to the registration of the server descriptor. -/
def openServer (calls : StartCalls) : Except Bytes (Nat × Nat) := do
  let serverFd ← errnoString "socket" calls.socket
  if !calls.pathFits then throw (lit "socket path too long")
  errnoString "bind" calls.bind
  errnoString "chmod" calls.chmod
  errnoString "listen" calls.listen
  let epollFd ← errnoString "epoll_create1" calls.epollCreate
  errnoString "epoll_ctl add server" calls.addServer
  return (serverFd, epollFd)

/-- The wake descriptor, which is created once. -/
def wakeDescriptor (s : PollServer) (calls : StartCalls) : Except Bytes Nat :=
  match s.wakeFd with
  | some fd => .ok fd
  | none => errnoString "eventfd" calls.eventfd

def start (s : PollServer) (calls : StartCalls) : PollServer × Except Bytes Unit :=
  let s := s.stop
  match openServer calls with
  | .error e => (s, .error e)
  | .ok (serverFd, epollFd) =>
    match s.wakeDescriptor calls with
    | .error e => (s, .error e)
    | .ok wakeFd =>
      match errnoString "epoll_ctl add wakeup" calls.addWakeup with
      | .error e => ({ s with wakeFd := some wakeFd }, .error e)
      | .ok () =>
        ({ s with
          wakeFd := some wakeFd, serverFd := some serverFd, epollFd := some epollFd
          notifyDisconnect := false, rxBuffer := [], rxOffset := 0 }, .ok ())

/-- `acceptClient`; the value is `*newClientOut`. -/
def acceptClient (s : PollServer) (calls : AcceptCalls) : PollServer × Except Bytes Bool :=
  match calls.accept4 with
  | .again => (s, .ok false)
  | .error errno => (s, errnoString "accept4" (.error errno))
  | .fd fd =>
    match errnoString "fcntl nonblock" calls.setNonBlocking with
    | .error e => (s, .error e)
    | .ok () =>
      let s := if s.client then s.observe s.closeClient else s
      match errnoString "epoll_ctl add client" calls.epollAdd with
      | .error e => ({ s with client := false }, .error e)
      | .ok () => ({ s with client := true, clientFd := fd, rxBuffer := [], rxOffset := 0 }, .ok true)

/-- One turn of the loop of `pollOnce`. -/
def handleEvent (s : PollServer) (event : Event) : PollServer × Except Bytes Unit :=
  if s.wakeFd = some event.fd then (s, .ok ())
  else if s.serverFd = some event.fd then
    match s.acceptClient event.accept with
    | (s, .error e) => (s, .error e)
    | (s, .ok true) => ({ s with hooks := s.hooks ++ [.onConnected] }, .ok ())
    | (s, .ok false) => (s, .ok ())
  else if s.client ∧ s.clientFd = event.fd then
    if event.hangup then (s.observe s.closeClient, .ok ())
    else if event.input then
      let r := s.readClient event.closes event.reads
      (s.observe r.1, r.2)
    else (s, .ok ())
  else (s, .ok ())

/-- The loop of `pollOnce`: the first failing event ends it. -/
def handleEvents (s : PollServer) : List Event → PollServer × Except Bytes Unit
  | [] => (s, .ok ())
  | event :: events =>
    match s.handleEvent event with
    | (s, .error e) => (s, .error e)
    | (s, .ok ()) => handleEvents s events

/-- The notification that `closeClientDeferred` left. -/
def notify (s : PollServer) : PollServer :=
  if s.notifyDisconnect then
    { s with
      notifyDisconnect := false, onDisconnected := s.onDisconnected + 1
      hooks := s.hooks ++ [.onDisconnected] }
  else s

def pollOnce (s : PollServer) (wait : WaitResult) : PollServer × Except Bytes Unit :=
  match s.epollFd with
  | none => (s, .error (lit "transport not started"))
  | some _ =>
    let s := s.notify
    match wait with
    | .intr => (s, .ok ())
    | .error errno => (s, errnoString "epoll_wait" (.error errno))
    | .events events => s.handleEvents events

def send (s : PollServer) (header : FrameHeader) (payload : Bytes)
    (writeHeader writePayload : Except Bytes Unit) : PollServer × Except Bytes Unit :=
  let r := s.toUdsEpollServer.send header payload writeHeader writePayload
  ({ s with toUdsEpollServer := r.1 }, r.2)

end PollServer

/-- The calls of a run. -/
inductive PollCall
  | pollOnce (wait : WaitResult)
  | send (header : FrameHeader) (payload : Bytes) (writeHeader writePayload : Except Bytes Unit)

/-- No hook of the call sends. -/
def PollCall.NoSendInHook : PollCall → Prop
  | .pollOnce (.events events) => ∀ event ∈ events, ∀ frames, event.closes frames = false
  | _ => True

namespace PollServer

def step (s : PollServer) : PollCall → Option PollServer
  | .pollOnce wait => some (s.pollOnce wait).1
  | .send header payload writeHeader writePayload =>
    some (s.send header payload writeHeader writePayload).1

def machine : Lts.Machine PollServer PollCall := ⟨step⟩

end PollServer

/-! ## The purpose of the hooks -/

/-- One session at a time: the state is whether one has begun. -/
def sessions : Lts.Machine Bool Hook where
  step
    | false, .onConnected => some true
    | true, .onDisconnected => some false
    | _, _ => none

/-- The hooks alternate, beginning with `onConnected`. -/
def Alternate (hooks : List Hook) : Prop :=
  ∀ i hook, hooks[i]? = some hook → (hook = .onConnected ↔ i % 2 = 0)

/-- A hook between sessions begins one, a hook within a session ends it. -/
theorem sessions_step {up up' : Bool} {hook : Hook} (h : sessions.step up hook = some up') :
    up' = !up ∧ (hook = .onConnected ↔ up = false) := by
  cases up <;> cases hook <;> cases h <;> simp

/-- The hook at an even place of a run that begins between sessions is `onConnected`, and the other
way round within a session. -/
theorem sessions_get {up up' : Bool} {hooks : List Hook} (h : sessions.run up hooks = some up')
    (i : Nat) (hook : Hook) (hi : hooks[i]? = some hook) :
    hook = .onConnected ↔ i % 2 = up.toNat := by
  induction hooks generalizing up i with
  | nil => cases hi
  | cons first rest ih =>
    obtain ⟨mid, hmid, h⟩ := Lts.Machine.run_cons_some h
    obtain ⟨rfl, hfirst⟩ := sessions_step hmid
    cases i with
    | zero =>
      cases hi
      rw [hfirst]
      cases up <;> simp
    | succ i =>
      rw [ih h i hi]
      cases up <;> simp <;> omega

/-- The connects of a run less its disconnects: the session that is left, less the one that was there. -/
theorem sessions_count {up up' : Bool} {hooks : List Hook} (h : sessions.run up hooks = some up') :
    hooks.count .onConnected + up.toNat = hooks.count .onDisconnected + up'.toNat := by
  induction hooks generalizing up with
  | nil =>
    cases h
    rfl
  | cons first rest ih =>
    obtain ⟨mid, hmid, h⟩ := Lts.Machine.run_cons_some h
    have hrest := ih h
    cases up <;> cases first <;> cases hmid <;> simp at hrest ⊢ <;> omega

/-! ## One connection -/

namespace UdsEpollServer

variable {s t u : UdsEpollServer}

/-- The same descriptor state, with no hook called. -/
structure SameSession (s t : UdsEpollServer) : Prop where
  client : t.client = s.client
  notify : t.notifyDisconnect = s.notifyDisconnect
  disconnects : t.onDisconnected = s.onDisconnected

theorem SameSession.refl (s : UdsEpollServer) : s.SameSession s := ⟨rfl, rfl, rfl⟩

theorem SameSession.trans (h : s.SameSession t) (h' : t.SameSession u) : s.SameSession u :=
  ⟨h'.client.trans h.client, h'.notify.trans h.notify, h'.disconnects.trans h.disconnects⟩

/-- The connection closes, from a state of the same session. -/
def Closes (s t : UdsEpollServer) : Prop := ∃ u, s.SameSession u ∧ t = u.closeClient

theorem readSocket_session (s : UdsEpollServer) (reads : List ReadResult) :
    (s.SameSession (s.readSocket reads).1 ∧ (s.readSocket reads).2 = none) ∨
      s.Closes (s.readSocket reads).1 ∧ (s.readSocket reads).2 ≠ none := by
  fun_induction readSocket s reads with
  | case1 s => exact .inl ⟨.refl s, rfl⟩
  | case2 s bytes reads ih =>
    have hread : s.SameSession { s with rxBuffer := s.rxBuffer ++ bytes } := ⟨rfl, rfl, rfl⟩
    rcases ih with ⟨h, hn⟩ | ⟨⟨u, h, he⟩, hn⟩
    · exact .inl ⟨hread.trans h, hn⟩
    · exact .inr ⟨⟨u, hread.trans h, he⟩, hn⟩
  | case3 s reads => exact .inr ⟨⟨s, .refl s, rfl⟩, nofun⟩
  | case4 s reads => exact .inl ⟨.refl s, rfl⟩
  | case5 s reads ih => exact ih
  | case6 s errno reads => exact .inr ⟨⟨s, .refl s, rfl⟩, nofun⟩

theorem dispatchFrames_session {closes : List Frame → Bool} (hcloses : ∀ fs, closes fs = false)
    (s : UdsEpollServer) :
    (s.SameSession (s.dispatchFrames closes).1 ∧ (s.dispatchFrames closes).2 = none) ∨
      s.Closes (s.dispatchFrames closes).1 ∧ (s.dispatchFrames closes).2 ≠ none := by
  fun_induction dispatchFrames closes s with
  | case1 s => exact .inl ⟨.refl s, rfl⟩
  | case2 s => exact .inl ⟨.refl s, rfl⟩
  | case3 s _ _ _ _ _ _ _ _ s' hc => exact absurd hc (by rw [hcloses]; nofun)
  | case4 s _ _ _ _ _ _ _ _ s' _ ih =>
    have hframe : s.SameSession s' := ⟨rfl, rfl, rfl⟩
    rcases ih with ⟨h, hn⟩ | ⟨⟨u, h, he⟩, hn⟩
    · exact .inl ⟨hframe.trans h, hn⟩
    · exact .inr ⟨⟨u, hframe.trans h, he⟩, hn⟩
  | case5 s => exact .inr ⟨⟨s, .refl s, rfl⟩, nofun⟩

theorem compact_session (s : UdsEpollServer) : s.SameSession s.compact := by
  unfold compact
  split_ifs <;> exact ⟨rfl, rfl, rfl⟩

/-- `readClient` leaves the session as it is or closes it. -/
theorem readClient_session {closes : List Frame → Bool} (hcloses : ∀ fs, closes fs = false)
    (s : UdsEpollServer) (reads : List ReadResult) :
    s.SameSession (s.readClient closes reads).1 ∨ s.Closes (s.readClient closes reads).1 := by
  have hread := s.readSocket_session reads
  unfold readClient
  split
  · next t result he =>
    rw [he] at hread
    exact .inr (hread.resolve_left fun h => nomatch h.2).1
  · next t he =>
    rw [he] at hread
    have hsame : s.SameSession t := (hread.resolve_right fun h => h.2 rfl).1
    have hdispatch := t.dispatchFrames_session hcloses
    split
    · next t' result he' =>
      rw [he'] at hdispatch
      obtain ⟨u, h, hu⟩ := (hdispatch.resolve_left fun h => nomatch h.2).1
      exact .inr ⟨u, hsame.trans h, hu⟩
    · next t' he' =>
      rw [he'] at hdispatch
      have h : t.SameSession t' := (hdispatch.resolve_right fun h => h.2 rfl).1
      exact .inl (hsame.trans (h.trans t'.compact_session))

/-- A send leaves the session as it is, or its end is to be notified later. -/
theorem send_session (s : UdsEpollServer) (header : FrameHeader) (payload : Bytes)
    (writeHeader writePayload : Except Bytes Unit) :
    s.SameSession (s.send header payload writeHeader writePayload).1 ∨
      (s.send header payload writeHeader writePayload).1 = s.closeClientDeferred := by
  unfold send
  split
  · split
    · exact .inr rfl
    · split
      · exact .inr rfl
      · exact .inl ⟨rfl, rfl, rfl⟩
  · exact .inl (.refl s)

end UdsEpollServer

/-! ## The server -/

namespace PollServer

variable {s t u : PollServer}

/-- `onConnected` has been called, and the `onDisconnected` that belongs to it has not. -/
def up (s : PollServer) : Bool := s.client || s.notifyDisconnect

/-- The hooks called from `s` to `t` begin and end sessions one at a time. -/
def Advances (s t : PollServer) : Prop :=
  ∃ hooks, t.hooks = s.hooks ++ hooks ∧ sessions.run s.up hooks = some t.up

theorem Advances.refl (s : PollServer) : s.Advances s := ⟨[], (List.append_nil _).symm, rfl⟩

theorem Advances.trans (h : s.Advances t) (h' : t.Advances u) : s.Advances u := by
  obtain ⟨hooks, he, hrun⟩ := h
  obtain ⟨hooks', he', hrun'⟩ := h'
  refine ⟨hooks ++ hooks', ?_, ?_⟩
  · rw [he', he, List.append_assoc]
  · rw [Lts.Machine.run_append hrun]
    exact hrun'

/-- A step that calls no hook and neither opens nor ends a session. -/
theorem Advances.silent (hh : t.hooks = s.hooks) (hup : t.up = s.up) : s.Advances t := by
  refine ⟨[], ?_, ?_⟩
  · rw [hh, List.append_nil]
  · rw [hup]
    rfl

/-- A step that calls one hook. -/
theorem Advances.hook (hook : Hook) (hh : t.hooks = s.hooks ++ [hook])
    (hup : sessions.step s.up hook = some t.up) : s.Advances t := by
  refine ⟨[hook], hh, ?_⟩
  rw [Lts.Machine.run_cons, hup]
  rfl

/-- What a part of `pollOnce` does while no notification is pending. -/
structure Serves (s t : PollServer) : Prop where
  advances : s.Advances t
  settled : t.notifyDisconnect = false

theorem Serves.refl (hn : s.notifyDisconnect = false) : s.Serves s := ⟨.refl s, hn⟩

theorem Serves.trans (h : s.Serves t) (h' : t.Serves u) : s.Serves u :=
  ⟨h.advances.trans h'.advances, h'.settled⟩

theorem observe_same {u : UdsEpollServer} (hn : s.notifyDisconnect = false)
    (h : s.toUdsEpollServer.SameSession u) : s.Serves (s.observe u) := by
  refine ⟨Advances.silent ?_ ?_, h.notify.trans hn⟩
  · simp [observe, h.disconnects]
  · simp only [up, observe, h.client, h.notify]

theorem observe_closes {u : UdsEpollServer} (hn : s.notifyDisconnect = false)
    (hc : s.client = true) (h : s.toUdsEpollServer.Closes u) : s.Serves (s.observe u) := by
  obtain ⟨v, hv, rfl⟩ := h
  refine ⟨Advances.hook .onDisconnected ?_ ?_, rfl⟩
  · simp [observe, UdsEpollServer.closeClient, hv.disconnects]
  · simp [up, hc, hn, observe, UdsEpollServer.closeClient, sessions]

/-- A replaced connection is a finished session: nothing is open when the new descriptor is taken. -/
theorem replace (hn : s.notifyDisconnect = false) :
    s.Serves (if s.client then s.observe s.closeClient else s) ∧
      (if s.client then s.observe s.closeClient else s).client = false := by
  cases hc : s.client with
  | true => exact ⟨observe_closes hn hc ⟨_, .refl _, rfl⟩, rfl⟩
  | false => exact ⟨.refl hn, hc⟩

/-- `acceptClient` and the `onConnected` call for a new client. -/
theorem acceptClient_serves (hn : s.notifyDisconnect = false) (calls : AcceptCalls) :
    (∀ t, s.acceptClient calls = (t, .ok true) →
        s.Serves { t with hooks := t.hooks ++ [.onConnected] }) ∧
      ∀ t r, s.acceptClient calls = (t, r) → r ≠ .ok true → s.Serves t := by
  unfold acceptClient
  split
  · refine ⟨fun t h => ?_, fun t r h _ => ?_⟩
    · cases h
    · cases h
      exact .refl hn
  · refine ⟨fun t h => ?_, fun t r h _ => ?_⟩
    · cases h
    · cases h
      exact .refl hn
  · split
    · refine ⟨fun t h => ?_, fun t r h _ => ?_⟩
      · cases h
      · cases h
        exact .refl hn
    · obtain ⟨hserves, hclosed⟩ := replace hn
      dsimp only
      split
      · refine ⟨fun t h => ?_, fun t r h _ => ?_⟩
        · cases h
        · cases h
          -- the new descriptor is closed before `onConnected` was called for it
          refine hserves.trans ⟨Advances.silent rfl ?_, hserves.settled⟩
          simp only [up, hclosed]
      · refine ⟨fun t h => ?_, fun t r h hr => ?_⟩
        · cases h
          refine hserves.trans ⟨Advances.hook _ rfl ?_, hserves.settled⟩
          simp [up, hclosed, hserves.settled, sessions]
        · cases h
          exact absurd rfl hr

/-- A new client is one for the connection. -/
theorem acceptClient_connection {calls : AcceptCalls} (h : s.acceptClient calls = (t, .ok true)) :
    t.toUdsEpollServer = s.toUdsEpollServer.acceptClient := by
  unfold acceptClient at h
  split at h
  · cases h
  · cases h
  · split at h
    · cases h
    · dsimp only at h
      split at h
      · cases h
      · cases h
        unfold UdsEpollServer.acceptClient
        cases hc : s.client <;> rfl

theorem handleEvent_serves (hn : s.notifyDisconnect = false) {event : Event}
    (hcloses : ∀ frames, event.closes frames = false) : s.Serves (s.handleEvent event).1 := by
  unfold handleEvent
  split_ifs with hwake hserver hclient hhangup hinput
  · exact .refl hn
  · obtain ⟨hnew, hold⟩ := acceptClient_serves hn event.accept
    split
    · next t e he => exact hold t _ he nofun
    · next t he => exact hnew t he
    · next t he => exact hold t _ he nofun
  · exact observe_closes hn hclient.1 ⟨_, .refl _, rfl⟩
  · rcases s.toUdsEpollServer.readClient_session hcloses event.reads with h | h
    · exact observe_same hn h
    · exact observe_closes hn hclient.1 h
  · exact .refl hn
  · exact .refl hn

theorem handleEvents_serves (hn : s.notifyDisconnect = false) {events : List Event}
    (hcloses : ∀ event ∈ events, ∀ frames, event.closes frames = false) :
    s.Serves (s.handleEvents events).1 := by
  induction events generalizing s with
  | nil => exact .refl hn
  | cons event events ih =>
    have hevent := handleEvent_serves hn (hcloses event (.head _))
    unfold handleEvents
    split
    · next t e he =>
      rw [he] at hevent
      exact hevent
    · next t he =>
      rw [he] at hevent
      exact hevent.trans (ih hevent.settled fun e h => hcloses e (.tail _ h))

/-- A notification is pending only while no client is connected. -/
def Settled (s : PollServer) : Prop := s.client = true → s.notifyDisconnect = false

theorem notify_serves (hs : s.Settled) : s.Serves s.notify := by
  unfold notify
  split_ifs with hn
  · refine ⟨Advances.hook _ rfl ?_, rfl⟩
    have hc : s.client = false := by
      by_contra hc
      rw [hs (Bool.not_eq_false _ ▸ hc)] at hn
      cases hn
    simp [up, hn, hc, sessions]
  · exact .refl (Bool.not_eq_true _ ▸ hn)

theorem pollOnce_advances (hs : s.Settled) {wait : WaitResult}
    (hhook : (PollCall.pollOnce wait).NoSendInHook) :
    s.Advances (s.pollOnce wait).1 ∧ (s.pollOnce wait).1.Settled := by
  unfold pollOnce
  split
  · exact ⟨.refl s, hs⟩
  · have hnotify := notify_serves hs
    dsimp only
    split
    · exact ⟨hnotify.advances, fun _ => hnotify.settled⟩
    · exact ⟨hnotify.advances, fun _ => hnotify.settled⟩
    · have hevents := hnotify.trans (handleEvents_serves hnotify.settled hhook)
      exact ⟨hevents.advances, fun _ => hevents.settled⟩

/-- A failed `send` ends the session later: `up` stays. -/
theorem send_advances (hs : s.Settled) (header : FrameHeader) (payload : Bytes)
    (writeHeader writePayload : Except Bytes Unit) :
    s.Advances (s.send header payload writeHeader writePayload).1 ∧
      (s.send header payload writeHeader writePayload).1.Settled := by
  rcases s.toUdsEpollServer.send_session header payload writeHeader writePayload with h | h
  · refine ⟨Advances.silent rfl ?_, fun hc => ?_⟩
    · simp only [up, send, h.client, h.notify]
    · exact h.notify.trans (hs (h.client.symm.trans hc))
  · refine ⟨Advances.silent rfl ?_, fun hc => ?_⟩
    · simp [up, send, h, UdsEpollServer.closeClientDeferred]
    · simp [send, h, UdsEpollServer.closeClientDeferred] at hc

/-- **One call**: the hooks it makes go on with the sessions. -/
theorem step_advances (hs : s.Settled) {call : PollCall} (hhook : call.NoSendInHook)
    (h : s.step call = some t) : s.Advances t ∧ t.Settled := by
  cases call with
  | pollOnce wait =>
    cases h
    exact pollOnce_advances hs hhook
  | send header payload writeHeader writePayload =>
    cases h
    exact send_advances hs header payload writeHeader writePayload

/-- **Every run of calls**. -/
theorem run_advances (hs : s.Settled) {calls : List PollCall}
    (hhook : ∀ call ∈ calls, call.NoSendInHook) (h : machine.run s calls = some t) :
    s.Advances t ∧ t.Settled := by
  induction calls generalizing s with
  | nil =>
    cases h
    exact ⟨.refl _, hs⟩
  | cons call calls ih =>
    obtain ⟨mid, hmid, h⟩ := Lts.Machine.run_cons_some h
    obtain ⟨hstep, hmids⟩ := step_advances hs (hhook call (.head _)) hmid
    obtain ⟨hrest, ht⟩ := ih hmids (fun c hc => hhook c (.tail _ hc)) h
    exact ⟨hstep.trans hrest, ht⟩

/-- A server that has just been started has no client and nothing to notify. -/
theorem start_up {s t : PollServer} {calls : StartCalls} (h : s.start calls = (t, .ok ())) :
    t.up = false ∧ t.Settled := by
  unfold start at h
  dsimp only at h
  split at h
  · cases h
  · split at h
    · cases h
    · split at h
      · cases h
      · cases h
        exact ⟨rfl, nofun⟩

/-- **Connect and disconnect hooks alternate** in every run of `pollOnce` and `send` calls after a
start, and what is left of the sessions is a connected client or a pending notification. -/
theorem run_alternate {calls : StartCalls} (hstart : s.start calls = (t, .ok ()))
    {run : List PollCall} (hhook : ∀ call ∈ run, call.NoSendInHook)
    (h : machine.run t run = some u) :
    ∃ hooks, u.hooks = t.hooks ++ hooks ∧ Alternate hooks ∧
      (hooks.count .onConnected : Int) - hooks.count .onDisconnected =
        if u.client ∨ u.notifyDisconnect then 1 else 0 := by
  obtain ⟨hup, hs⟩ := start_up hstart
  obtain ⟨⟨hooks, he, hrun⟩, -⟩ := run_advances hs hhook h
  rw [hup] at hrun
  refine ⟨hooks, he, ?_, ?_⟩
  · intro i hook hi
    exact sessions_get hrun i hook hi
  · have hcount := sessions_count hrun
    simp only [up] at hcount
    cases hc : u.client <;> cases hn : u.notifyDisconnect <;> simp [hc, hn] at hcount ⊢ <;> omega

/-- The descriptors 3, 4 and 5 of a server. -/
def opened : StartCalls := { socket := .ok 3, epollCreate := .ok 4, eventfd := .ok 5 }

/-- The second client arrives with the hangup of the first in one batch, and goes away while a frame
is written; a third is refused by `epoll_ctl` after the notification. -/
def replacedRun : List PollCall :=
  [.pollOnce (.events [{ fd := 3, accept := ⟨.fd 6, .ok (), .ok ()⟩ }]),
    .pollOnce (.events
      [{ fd := 3, accept := ⟨.fd 7, .ok (), .ok ()⟩ }, { fd := 6, hangup := true }]),
    .send {} [] (.error (lit "write: Broken pipe")) (.ok ()),
    .pollOnce (.events
      [{ fd := 5 }, { fd := 3, accept := ⟨.fd 6, .ok (), .error (lit "No space left on device")⟩ }])]

theorem run_alternate_replaced :
    ∃ t u, start {} opened = (t, .ok ()) ∧ machine.run t replacedRun = some u ∧
      u.hooks = [.onConnected, .onDisconnected, .onConnected, .onDisconnected] ∧
      ∃ hooks, u.hooks = t.hooks ++ hooks ∧ Alternate hooks ∧
        (hooks.count .onConnected : Int) - hooks.count .onDisconnected =
          if u.client ∨ u.notifyDisconnect then 1 else 0 := by
  have hrun : (machine.run (start {} opened).1 replacedRun).map (·.hooks) =
      some [.onConnected, .onDisconnected, .onConnected, .onDisconnected] := rfl
  obtain ⟨u, hu, hooks⟩ := Option.map_eq_some_iff.1 hrun
  have hstart : start {} opened = ((start {} opened).1, .ok ()) := rfl
  refine ⟨_, u, hstart, hu, hooks, run_alternate hstart ?_ hu⟩
  intro call hcall
  simp only [replacedRun, List.mem_cons, List.not_mem_nil, or_false] at hcall
  rcases hcall with rfl | rfl | rfl | rfl <;> simp [PollCall.NoSendInHook]

end PollServer

end Phi.Transport
