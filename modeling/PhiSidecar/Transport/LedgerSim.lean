import PhiSidecar.Transport.Descriptors

/-!
# The two models of the transport agree

`FdServer` is `PollServer` with the system calls on its descriptors. Where the callbacks make no calls but
`wakeup`, and the frame handler none but `wakeup` and `send`, each function of the one does what the
function of the same name of the other does (`start_shows`, `stop_shows`, `send_shows`, `pollOnce_shows`),
and returns the same. A `send` of the frame handler that fails is what `Event.closes` stands for, and the
results of `writeAll` are those of the model that goes down to the bytes (`writeAll_result`).

* `run_sessions`: so the hooks of an `FdServer` alternate too.
-/

set_option autoImplicit false

namespace Phi.Transport

open Phi.V1 Ledger

/-- The cursor has passed the first frame. -/
def UdsEpollServer.takeFrame (c : UdsEpollServer) (header : FrameHeader) : UdsEpollServer :=
  let payload := ((c.rxBuffer.drop c.rxOffset).drop kFrameHeaderSize).take header.payloadSize.toNat
  { c with
    rxOffset := c.rxOffset + (kFrameHeaderSize + header.payloadSize.toNat)
    onFrame := c.onFrame ++ [(header, payload)] }

theorem UdsEpollServer.dispatchFrames_frame {closes : List Frame → Bool} (c : UdsEpollServer)
    {h : FrameHeader} (hheader : readHeader (c.rxBuffer.drop c.rxOffset) = h)
    (hlen : ¬c.rxBuffer.length - c.rxOffset < kFrameHeaderSize) (hvalid : isValidFrameHeader h = true)
    (hsize : ¬c.rxBuffer.length - c.rxOffset < kFrameHeaderSize + h.payloadSize.toNat) :
    c.dispatchFrames closes =
      if closes (c.takeFrame h).onFrame then ((c.takeFrame h).closeClientDeferred, some (.ok ()))
      else (c.takeFrame h).dispatchFrames closes := by
  subst hheader
  rw [dispatchFrames]
  simp only
  rw [dif_neg hlen, if_pos hvalid, if_neg hsize]
  rfl

namespace FdServer

variable {s t u s₀ : FdServer} {p : PollServer} {c : UdsEpollServer}

/-! ## What the functions leave, up to the ledger -/

/-- The result of a `writeAll` that ends with its deadline. -/
def writeResult (data : Bytes) (kernel : List WriteResult) : Except Bytes Unit :=
  ((Transport.writeAll data (kernel ++ [.again true .timeout])).result).getD (.ok ())

/-- The same server, but for its ledger. -/
def Silent (s t : FdServer) : Prop := ∃ calls, t = { s with calls := calls }

theorem Silent.refl (s : FdServer) : s.Silent s := ⟨s.calls, rfl⟩

theorem Silent.trans (h : s.Silent t) (h' : t.Silent u) : s.Silent u := by
  obtain ⟨calls, rfl⟩ := h
  obtain ⟨calls', rfl⟩ := h'
  exact ⟨calls', rfl⟩

theorem use_silent (s : FdServer) (fd : Option Nat) : s.Silent (s.use fd) := ⟨_, rfl⟩

/-- `writeAll` changes the ledger only. -/
theorem writeAll_silent (s : FdServer) (data : Bytes) (kernel : List WriteResult) :
    s.Silent (s.writeAll data kernel).1 :=
  writeAll_rule .refl (fun h h' => h.trans h') (fun s => s.use_silent _) s data kernel

/-- The result of `writeAll` is the one of the model that goes down to the bytes. -/
theorem writeAll_result (s : FdServer) (data : Bytes) (kernel : List WriteResult) :
    (s.writeAll data kernel).2 = writeResult data kernel := by
  unfold writeResult
  fun_induction writeAll s data kernel with
  | case6 s data poll kernel hd t =>
    obtain ⟨b, bs, rfl⟩ := List.exists_cons_of_ne_nil hd
    rfl
  | _ => simp_all [Transport.writeAll, timedOut]

/-- The result of a `send` to a client. -/
def sendResult (header : FrameHeader) (payload : Bytes) (writeHeader writePayload : List WriteResult) :
    Except Bytes Unit :=
  match writeResult (headerBytes (UdsEpollServer.wireFrame header payload).1) writeHeader with
  | .error e => .error e
  | .ok () => writeResult payload writePayload

/-- A `send` that does not write the whole frame. -/
def fails : HookCall → Bool
  | .send header payload writeHeader writePayload =>
    !(sendResult header payload writeHeader writePayload).toBool
  | _ => false

/-- The client is dropped, with a notification. -/
def Dropped (s t : FdServer) : Prop :=
  ∃ calls, t = { s with
    clientFd := none, notifyDisconnect := true, rxBuffer := [], rxOffset := 0, calls := calls }

theorem Silent.dropped (h : s.Silent t) (h' : t.Dropped u) : s.Dropped u := by
  obtain ⟨calls, rfl⟩ := h
  obtain ⟨calls', rfl⟩ := h'
  exact ⟨calls', rfl⟩

theorem Dropped.silent (h : s.Dropped t) (h' : t.Silent u) : s.Dropped u := by
  obtain ⟨calls, rfl⟩ := h
  obtain ⟨calls', rfl⟩ := h'
  exact ⟨calls', rfl⟩

theorem dropClient_state (s : FdServer) : ∃ calls, s.dropClient = { s with clientFd := none, calls := calls } := by
  unfold dropClient closeClientFd
  split_ifs with h
  · exact ⟨_, rfl⟩
  · exact absurd h ‹_›
  · refine ⟨s.calls, ?_⟩
    rw [Option.not_isSome_iff_eq_none] at h
    rw [← h]

theorem closeClientDeferred_dropped (h : s.clientFd.isSome) : s.Dropped s.closeClientDeferred := by
  obtain ⟨calls, hdrop⟩ := s.dropClient_state
  refine ⟨calls, ?_⟩
  rw [closeClientDeferred, hdrop, h]
  rfl

/-- A `send` to a client. -/
theorem send_state (h : s.clientFd.isSome) (header : FrameHeader) (payload : Bytes)
    (wh wp : List WriteResult) :
    (s.send header payload wh wp).2 = sendResult header payload wh wp ∧
      if (sendResult header payload wh wp).toBool then s.Silent (s.send header payload wh wp).1
      else s.Dropped (s.send header payload wh wp).1 := by
  have hresult := s.writeAll_result (headerBytes (UdsEpollServer.wireFrame header payload).1) wh
  obtain ⟨calls, hsilent⟩ := s.writeAll_silent (headerBytes (UdsEpollServer.wireFrame header payload).1) wh
  unfold send sendResult
  rw [if_pos h]
  split
  · next t e he =>
    rw [he] at hresult hsilent
    rw [← hresult]
    exact ⟨rfl, Silent.dropped ⟨calls, hsilent⟩ (closeClientDeferred_dropped (hsilent ▸ h))⟩
  · next t he =>
    rw [he] at hresult hsilent
    rw [← hresult]
    have hresult' := t.writeAll_result payload wp
    obtain ⟨calls', hsilent'⟩ := t.writeAll_silent payload wp
    dsimp only at hsilent ⊢
    split
    · next u e he' =>
      rw [he'] at hresult' hsilent'
      rw [← hresult']
      have hboth : s.Silent u := Silent.trans ⟨calls, hsilent⟩ ⟨calls', hsilent'⟩
      obtain ⟨calls, rfl⟩ := hboth
      exact ⟨rfl, Silent.dropped ⟨calls, rfl⟩ (closeClientDeferred_dropped h)⟩
    · next u he' =>
      rw [he'] at hresult' hsilent'
      rw [← hresult']
      exact ⟨rfl, Silent.trans ⟨calls, hsilent⟩ ⟨calls', hsilent'⟩⟩

theorem send_none (h : s.clientFd = none) (header : FrameHeader) (payload : Bytes)
    (wh wp : List WriteResult) : s.send header payload wh wp = (s, .error (lit "no connected client")) := by
  rw [send, h]
  rfl

/-! ## Callbacks -/

/-- A callback that only wakes up. -/
def OnlyWakes (calls : List HookCall) : Prop := ∀ call ∈ calls, call = .wakeup

/-- A callback that only sends and wakes up. -/
def OnlySends (calls : List HookCall) : Prop :=
  ∀ call ∈ calls, call = .wakeup ∨ ∃ header payload wh wp, call = .send header payload wh wp

theorem wakeup_silent (s : FdServer) : s.Silent s.wakeup := by
  unfold wakeup
  split_ifs
  · exact s.use_silent _
  · exact .refl s

theorem callback_wakes {calls : List HookCall} (h : OnlyWakes calls) (s : FdServer) :
    s.Silent (s.callback calls) := by
  induction calls generalizing s with
  | nil => exact .refl s
  | cons call calls ih =>
    obtain rfl := h call (.head _)
    exact s.wakeup_silent.trans (ih (fun c hc => h c (.tail _ hc)) _)

/-- Without a client the calls come to nothing. -/
theorem callback_none {calls : List HookCall} (h : OnlySends calls) (hs : s.clientFd = none) :
    s.Silent (s.callback calls) := by
  induction calls generalizing s with
  | nil => exact .refl s
  | cons call calls ih =>
    have ih := fun {t : FdServer} => ih (s := t) fun c hc => h c (.tail _ hc)
    obtain rfl | ⟨header, payload, wh, wp, rfl⟩ := h call (.head _)
    · obtain ⟨ledger, hwake⟩ := s.wakeup_silent
      have hrest := ih (t := s.wakeup) (by rw [hwake]; exact hs)
      exact s.wakeup_silent.trans hrest
    · have hsend : s.invoke (.send header payload wh wp) = s := congrArg Prod.fst (send_none hs ..)
      change s.Silent ((s.invoke (.send header payload wh wp)).callback calls)
      rw [hsend]
      exact ih hs

/-- A callback that sends drops the client if one of its sends fails, and changes nothing otherwise. -/
theorem callback_sends {calls : List HookCall} (h : OnlySends calls) (hs : s.clientFd.isSome) :
    if calls.any fails then s.Dropped (s.callback calls) else s.Silent (s.callback calls) := by
  induction calls generalizing s with
  | nil => exact .refl s
  | cons call calls ih =>
    have hrest : OnlySends calls := fun c hc => h c (.tail _ hc)
    rw [List.any_cons]
    obtain rfl | ⟨header, payload, wh, wp, rfl⟩ := h call (.head _)
    · obtain ⟨ledger, hwake⟩ := s.wakeup_silent
      have ih := ih (s := s.wakeup) hrest (by rw [hwake]; exact hs)
      change if calls.any fails then s.Dropped (s.wakeup.callback calls) else s.Silent (s.wakeup.callback calls)
      split_ifs at ih ⊢
      · exact s.wakeup_silent.dropped ih
      · exact s.wakeup_silent.trans ih
    · have hsend := (send_state hs header payload wh wp).2
      change if !(sendResult header payload wh wp).toBool || calls.any fails then
        s.Dropped ((s.send header payload wh wp).1.callback calls)
        else s.Silent ((s.send header payload wh wp).1.callback calls)
      cases hb : (sendResult header payload wh wp).toBool with
      | true =>
        rw [hb, if_pos rfl] at hsend
        obtain ⟨ledger, heq⟩ := id hsend
        have ih := ih (s := (s.send header payload wh wp).1) hrest (by rw [heq]; exact hs)
        rw [Bool.not_true, Bool.false_or]
        split_ifs at ih ⊢
        · exact hsend.dropped ih
        · exact hsend.trans ih
      | false =>
        rw [hb, if_neg Bool.false_ne_true] at hsend
        obtain ⟨ledger, heq⟩ := id hsend
        rw [Bool.not_false, Bool.true_or, if_pos rfl]
        exact hsend.silent (callback_none hrest (by rw [heq]))

theorem closeClient_state {onDisconnected : List HookCall} (h : OnlyWakes onDisconnected) (s : FdServer) :
    ∃ calls, s.closeClient onDisconnected = { s with
      clientFd := none, notifyDisconnect := false, rxBuffer := [], rxOffset := 0
      hooks := s.hooks ++ [.onDisconnected], calls := calls } := by
  obtain ⟨calls, hdrop⟩ := s.dropClient_state
  obtain ⟨calls', hcallback⟩ := callback_wakes h ({ s.dropClient with
    notifyDisconnect := false, rxBuffer := [], rxOffset := 0, hooks := s.hooks ++ [.onDisconnected] } : FdServer)
  refine ⟨calls', ?_⟩
  rw [hdrop] at hcallback
  rw [closeClient, hdrop]
  exact hcallback

/-! ## A connection -/

/-- The connection of the abstract server, since the server was `s₀`. -/
structure ShowsConn (s₀ s : FdServer) (c : UdsEpollServer) : Prop where
  client : c.client = s.clientFd.isSome
  same : s.clientFd = none ∨ s.clientFd = s₀.clientFd
  serverFd : s.serverFd = s₀.serverFd
  epollFd : s.epollFd = s₀.epollFd
  wakeFd : s.wakeFd = s₀.wakeFd
  notify : c.notifyDisconnect = s.notifyDisconnect
  rxBuffer : c.rxBuffer = s.rxBuffer
  rxOffset : c.rxOffset = s.rxOffset
  onFrame : c.onFrame = s.onFrame
  hooks : ∃ n, s.hooks = s₀.hooks ++ List.replicate n .onDisconnected ∧
    c.onDisconnected = s₀.hooks.count .onDisconnected + n

theorem ShowsConn.silent (h : ShowsConn s₀ s c) (hst : s.Silent t) : ShowsConn s₀ t c := by
  obtain ⟨calls, rfl⟩ := hst
  exact ⟨h.client, h.same, h.serverFd, h.epollFd, h.wakeFd, h.notify, h.rxBuffer, h.rxOffset, h.onFrame,
    h.hooks⟩

theorem ShowsConn.closeClient (h : ShowsConn s₀ s c) {onDisconnected : List HookCall}
    (hwakes : OnlyWakes onDisconnected) : ShowsConn s₀ (s.closeClient onDisconnected) c.closeClient := by
  obtain ⟨calls, hclose⟩ := closeClient_state hwakes s
  obtain ⟨n, hhooks, hcount⟩ := h.hooks
  rw [hclose]
  refine ⟨rfl, .inl rfl, h.serverFd, h.epollFd, h.wakeFd, rfl, rfl, rfl, h.onFrame, n + 1, ?_, ?_⟩
  · change s.hooks ++ [.onDisconnected] = _
    rw [hhooks, List.append_assoc, ← List.replicate_succ']
  · change c.onDisconnected + 1 = _
    rw [hcount, Nat.add_assoc]

theorem readSocket_shows (h : ShowsConn s₀ s c) {onDisconnected : List HookCall}
    (hwakes : OnlyWakes onDisconnected) (reads : List ReadResult) :
    ShowsConn s₀ (s.readSocket onDisconnected reads).1 (c.readSocket reads).1 ∧
      (s.readSocket onDisconnected reads).2 = (c.readSocket reads).2 := by
  induction reads generalizing s c with
  | nil => exact ⟨h.silent (s.use_silent _), rfl⟩
  | cons r reads ih =>
    have huse := h.silent (s.use_silent s.clientFd)
    cases r with
    | data bytes =>
      refine ih ⟨huse.client, huse.same, huse.serverFd, huse.epollFd, huse.wakeFd, huse.notify, ?_,
        huse.rxOffset, huse.onFrame, huse.hooks⟩
      exact congrArg (· ++ bytes) h.rxBuffer
    | eof => exact ⟨huse.closeClient hwakes, rfl⟩
    | again => exact ⟨huse, rfl⟩
    | intr => exact ih huse
    | error errno => exact ⟨huse.closeClient hwakes, rfl⟩

/-- The frame handler fails to send. -/
def closes (handler : List Frame → List HookCall) (frames : List Frame) : Bool := (handler frames).any fails

theorem ShowsConn.takeFrame (h : ShowsConn s₀ s c) (header : FrameHeader) :
    ShowsConn s₀ (s.takeFrame header) (c.takeFrame header) := by
  refine ⟨h.client, h.same, h.serverFd, h.epollFd, h.wakeFd, h.notify, h.rxBuffer, ?_, ?_, h.hooks⟩
  · exact congrArg (· + _) h.rxOffset
  · unfold FdServer.takeFrame UdsEpollServer.takeFrame
    rw [h.onFrame, h.rxBuffer, h.rxOffset]

/-- A failed send of the handler is a `closeClientDeferred`. -/
theorem ShowsConn.dropped (h : ShowsConn s₀ s c) (hclient : s.clientFd.isSome) (hst : s.Dropped t) :
    ShowsConn s₀ t c.closeClientDeferred := by
  obtain ⟨calls, rfl⟩ := hst
  refine ⟨rfl, .inl rfl, h.serverFd, h.epollFd, h.wakeFd, ?_, rfl, rfl, h.onFrame, h.hooks⟩
  change (c.client || c.notifyDisconnect) = true
  rw [h.client, hclient, Bool.true_or]

/-- The call of the handler, and what is left of the loop. -/
theorem handler_shows {handler : List Frame → List HookCall} (hsends : ∀ frames, OnlySends (handler frames))
    (h : ShowsConn s₀ s c) (hclient : s.clientFd.isSome) :
    if closes handler s.onFrame then
      ShowsConn s₀ (s.callback (handler s.onFrame)) c.closeClientDeferred ∧
        (s.callback (handler s.onFrame)).clientFd = none
    else
      ShowsConn s₀ (s.callback (handler s.onFrame)) c ∧ (s.callback (handler s.onFrame)).clientFd.isSome := by
  have hcallback := callback_sends (hsends s.onFrame) hclient
  unfold closes
  split_ifs at hcallback ⊢
  · refine ⟨h.dropped hclient hcallback, ?_⟩
    obtain ⟨calls, heq⟩ := hcallback
    rw [heq]
  · refine ⟨h.silent hcallback, ?_⟩
    obtain ⟨calls, heq⟩ := hcallback
    rw [heq]
    exact hclient

theorem dispatchFrames_shows {handler : List Frame → List HookCall} (hsends : ∀ frames, OnlySends (handler frames))
    {onDisconnected : List HookCall} (hwakes : OnlyWakes onDisconnected) (s : FdServer) :
    ∀ c, ShowsConn s₀ s c → s.clientFd.isSome →
      ShowsConn s₀ (s.dispatchFrames handler onDisconnected).1 (c.dispatchFrames (closes handler)).1 ∧
        (s.dispatchFrames handler onDisconnected).2 = (c.dispatchFrames (closes handler)).2 := by
  fun_induction dispatchFrames handler onDisconnected s with
  | case1 s available hlen =>
    intro c h hclient
    rw [UdsEpollServer.dispatchFrames]
    simp only [h.rxBuffer, h.rxOffset]
    rw [dif_pos hlen]
    exact ⟨h, rfl⟩
  | case2 s available hlen header hvalid hsize =>
    intro c h hclient
    rw [UdsEpollServer.dispatchFrames]
    simp only [h.rxBuffer, h.rxOffset]
    rw [dif_neg hlen, if_pos hvalid, if_pos hsize]
    exact ⟨h, rfl⟩
  | case3 s available hlen header hvalid hsize s' t hc =>
    intro c h hclient
    have htake := h.takeFrame header
    have hcall := handler_shows hsends htake hclient
    rw [c.dispatchFrames_frame (h := header) (by rw [h.rxBuffer, h.rxOffset]) (by rwa [h.rxBuffer, h.rxOffset])
      hvalid (by rwa [h.rxBuffer, h.rxOffset]), htake.onFrame]
    split_ifs at hcall with hcloses
    · rw [if_pos hcloses]
      exact ⟨hcall.1, rfl⟩
    · rw [hc] at hcall
      cases hcall.2
  | case4 s available hlen header hvalid hsize s' t hc ih =>
    intro c h hclient
    have htake := h.takeFrame header
    have hcall := handler_shows hsends htake hclient
    rw [c.dispatchFrames_frame (h := header) (by rw [h.rxBuffer, h.rxOffset]) (by rwa [h.rxBuffer, h.rxOffset])
      hvalid (by rwa [h.rxBuffer, h.rxOffset]), htake.onFrame]
    split_ifs at hcall with hcloses
    · exact absurd hcall.2 hc
    · rw [if_neg hcloses]
      exact ih _ hcall.1 hcall.2
  | case5 s available hlen header hvalid =>
    intro c h hclient
    rw [UdsEpollServer.dispatchFrames]
    simp only [h.rxBuffer, h.rxOffset]
    rw [dif_neg hlen, if_neg hvalid]
    exact ⟨h.closeClient hwakes, rfl⟩

theorem ShowsConn.compact (h : ShowsConn s₀ s c) : ShowsConn s₀ s.compact c.compact := by
  unfold FdServer.compact UdsEpollServer.compact
  rw [h.rxOffset, h.rxBuffer]
  split_ifs
  · exact ⟨h.client, h.same, h.serverFd, h.epollFd, h.wakeFd, h.notify, rfl, rfl, h.onFrame, h.hooks⟩
  · exact ⟨h.client, h.same, h.serverFd, h.epollFd, h.wakeFd, h.notify, rfl, rfl, h.onFrame, h.hooks⟩
  · exact h

/-- The first loop leaves the client when it goes on to the second. -/
theorem readSocket_client (s : FdServer) (onDisconnected : List HookCall) (reads : List ReadResult)
    (h : s.clientFd.isSome) (hnone : (s.readSocket onDisconnected reads).2 = none) :
    (s.readSocket onDisconnected reads).1.clientFd.isSome := by
  induction reads generalizing s with
  | nil => exact h
  | cons r reads ih =>
    cases r with
    | data bytes => exact ih _ h hnone
    | eof => cases hnone
    | again => exact h
    | intr => exact ih _ h hnone
    | error errno => cases hnone

theorem readClient_shows {handler : List Frame → List HookCall} (hsends : ∀ frames, OnlySends (handler frames))
    {onDisconnected : List HookCall} (hwakes : OnlyWakes onDisconnected) (h : ShowsConn s₀ s c)
    (hclient : s.clientFd.isSome) (reads : List ReadResult) :
    ShowsConn s₀ (s.readClient handler onDisconnected reads).1 (c.readClient (closes handler) reads).1 ∧
      (s.readClient handler onDisconnected reads).2 = (c.readClient (closes handler) reads).2 := by
  obtain ⟨hread, hresult⟩ := readSocket_shows h hwakes reads
  have hopen := s.readSocket_client onDisconnected reads hclient
  unfold readClient UdsEpollServer.readClient
  generalize s.readSocket onDisconnected reads = rs at hread hresult hopen ⊢
  generalize c.readSocket reads = rc at hread hresult ⊢
  obtain ⟨t, r⟩ := rs
  obtain ⟨d, r'⟩ := rc
  obtain rfl : r = r' := hresult
  cases r with
  | some result => exact ⟨hread, rfl⟩
  | none =>
    obtain ⟨hdispatch, hresult⟩ := dispatchFrames_shows hsends hwakes t d hread (hopen rfl)
    dsimp only
    generalize t.dispatchFrames handler onDisconnected = rs at hdispatch hresult ⊢
    generalize d.dispatchFrames (closes handler) = rc at hdispatch hresult ⊢
    obtain ⟨u, r⟩ := rs
    obtain ⟨e, r'⟩ := rc
    obtain rfl : r = r' := hresult
    cases r with
    | some result => exact ⟨hdispatch, rfl⟩
    | none => exact ⟨hdispatch.compact, rfl⟩

/-! ## The server -/

/-- The abstract server shows what the server does. -/
structure Shows (s : FdServer) (p : PollServer) : Prop where
  client : p.client = s.clientFd.isSome
  clientFd : ∀ fd ∈ s.clientFd, p.clientFd = fd
  serverFd : p.serverFd = s.serverFd
  epollFd : p.epollFd = s.epollFd
  wakeFd : p.wakeFd = s.wakeFd
  notify : p.notifyDisconnect = s.notifyDisconnect
  rxBuffer : p.rxBuffer = s.rxBuffer
  rxOffset : p.rxOffset = s.rxOffset
  onFrame : p.onFrame = s.onFrame
  hooks : p.hooks = s.hooks
  disconnects : p.onDisconnected = s.hooks.count .onDisconnected

theorem Shows.silent (h : s.Shows p) (hst : s.Silent t) : t.Shows p := by
  obtain ⟨calls, rfl⟩ := hst
  exact ⟨h.client, h.clientFd, h.serverFd, h.epollFd, h.wakeFd, h.notify, h.rxBuffer, h.rxOffset, h.onFrame,
    h.hooks, h.disconnects⟩

theorem Shows.conn (h : s.Shows p) : ShowsConn s s p.toUdsEpollServer :=
  ⟨h.client, .inr rfl, rfl, rfl, rfl, h.notify, h.rxBuffer, h.rxOffset, h.onFrame, 0,
    (List.append_nil _).symm, h.disconnects⟩

/-- What happened on the connection. -/
theorem Shows.observe (h : s₀.Shows p) (hc : ShowsConn s₀ s c) : s.Shows (p.observe c) := by
  obtain ⟨n, hhooks, hcount⟩ := hc.hooks
  refine ⟨hc.client, fun fd hfd => ?_, h.serverFd.trans hc.serverFd.symm, h.epollFd.trans hc.epollFd.symm,
    h.wakeFd.trans hc.wakeFd.symm, hc.notify, hc.rxBuffer, hc.rxOffset, hc.onFrame, ?_, ?_⟩
  · obtain hnone | hsame := hc.same
    · rw [hnone] at hfd
      cases hfd
    · exact h.clientFd fd (hsame ▸ hfd)
  · change p.hooks ++ List.replicate (c.onDisconnected - p.onDisconnected) .onDisconnected = s.hooks
    rw [h.hooks, hhooks, hcount, h.disconnects, Nat.add_sub_cancel_left]
  · change c.onDisconnected = _
    rw [hcount, hhooks, List.count_append, List.count_replicate_self]

end FdServer

/-- The callbacks that `PollServer` knows: the frame handler sends, and any of them wakes up. -/
structure FdEvent.Plain (event : FdEvent) : Prop where
  onFrame : ∀ frames, FdServer.OnlySends (event.onFrame frames)
  onConnected : FdServer.OnlyWakes event.onConnected
  onDisconnected : FdServer.OnlyWakes event.onDisconnected

/-- The callbacks of a batch are plain. -/
def FdWait.Plain : FdWait → Prop
  | .events batch => ∀ event ∈ batch, event.Plain
  | _ => True

/-- `setNonBlocking` as a whole. -/
def AcceptReturns.shown (calls : AcceptReturns) : AcceptCalls where
  accept4 := calls.accept4
  setNonBlocking := do calls.getFlags; calls.setFlags
  epollAdd := calls.epollAdd

def FdEvent.shown (event : FdEvent) : Event where
  fd := event.fd
  hangup := event.hangup
  input := event.input
  accept := event.accept.shown
  reads := event.reads
  closes := FdServer.closes event.onFrame

def FdWait.shown : FdWait → WaitResult
  | .events batch => .events (batch.map FdEvent.shown)
  | .intr => .intr
  | .error errno => .error errno

namespace FdServer

variable {s t u : FdServer} {p : PollServer} {c : UdsEpollServer}

theorem replaceClient_shows (h : s.Shows p) {onDisconnected : List HookCall} (hwakes : OnlyWakes onDisconnected) :
    (s.replaceClient onDisconnected).Shows (if p.client then p.observe p.closeClient else p) := by
  unfold replaceClient
  rw [h.client]
  split_ifs
  · exact h.observe (h.conn.closeClient hwakes)
  · exact h

theorem adoptClient_shows (h : s.Shows p) (fd : Nat) (epollAdd : Except Bytes Unit)
    {onDisconnected : List HookCall} (hwakes : OnlyWakes onDisconnected) :
    let r := s.adoptClient fd epollAdd onDisconnected
    let q := if p.client then p.observe p.closeClient else p
    match errnoString "epoll_ctl add client" epollAdd with
    | .error e => r.1.Shows { q with client := false } ∧ r.2 = .error e
    | .ok () =>
      r.1.Shows { q with client := true, clientFd := fd, rxBuffer := [], rxOffset := 0 } ∧ r.2 = .ok true := by
  have hq := replaceClient_shows h hwakes
  cases epollAdd with
  | error e =>
    exact ⟨⟨rfl, fun _ hfd => (nomatch hfd), hq.serverFd, hq.epollFd, hq.wakeFd, hq.notify, hq.rxBuffer,
      hq.rxOffset, hq.onFrame, hq.hooks, hq.disconnects⟩, rfl⟩
  | ok _ =>
    exact ⟨⟨rfl, fun _ hfd => Option.some.inj hfd, hq.serverFd, hq.epollFd, hq.wakeFd, hq.notify, rfl, rfl,
      hq.onFrame, hq.hooks, hq.disconnects⟩, rfl⟩

theorem acceptClient_shows (h : s.Shows p) (calls : AcceptReturns) {onDisconnected : List HookCall}
    (hwakes : OnlyWakes onDisconnected) :
    (s.acceptClient calls onDisconnected).1.Shows (p.acceptClient calls.shown).1 ∧
      (s.acceptClient calls onDisconnected).2 = (p.acceptClient calls.shown).2 := by
  obtain ⟨accept4, getFlags, setFlags, epollAdd⟩ := calls
  have huse := h.silent (s.use_silent s.serverFd)
  unfold acceptClient PollServer.acceptClient AcceptReturns.shown
  cases accept4 with
  | again => exact ⟨huse, rfl⟩
  | error errno => exact ⟨huse, rfl⟩
  | fd fd =>
    cases getFlags with
    | error e => exact ⟨huse.silent ⟨_, rfl⟩, rfl⟩
    | ok _ =>
      cases setFlags with
      | error e => exact ⟨huse.silent ⟨_, rfl⟩, rfl⟩
      | ok _ =>
        have hset : ((((s.use s.serverFd).opened fd).use (some fd)).use (some fd)).Shows p :=
          huse.silent ⟨_, rfl⟩
        cases epollAdd with
        | error e => exact adoptClient_shows hset fd (.error e) hwakes
        | ok _ => exact adoptClient_shows hset fd (.ok ()) hwakes

theorem Shows.onConnected (h : s.Shows p) {onConnected : List HookCall} (hwakes : OnlyWakes onConnected) :
    (({ s with hooks := s.hooks ++ [.onConnected] } : FdServer).callback onConnected).Shows
      { p with hooks := p.hooks ++ [.onConnected] } := by
  have hcalled : ({ s with hooks := s.hooks ++ [.onConnected] } : FdServer).Shows
      { p with hooks := p.hooks ++ [.onConnected] } := by
    refine ⟨h.client, h.clientFd, h.serverFd, h.epollFd, h.wakeFd, h.notify, h.rxBuffer, h.rxOffset, h.onFrame,
      congrArg (· ++ _) h.hooks, ?_⟩
    rw [List.count_append]
    exact h.disconnects
  exact hcalled.silent (callback_wakes hwakes _)

theorem drainWakeFd_silent (s : FdServer) (reads : Nat) : s.Silent (s.drainWakeFd reads) := by
  unfold drainWakeFd
  split_ifs
  · induction reads generalizing s with
    | zero => exact s.use_silent _
    | succ reads ih => exact (s.use_silent _).trans (ih (s.use s.wakeFd) ‹_›)
  · exact .refl s

/-- **A turn of the event loop** is the one of the abstract server. -/
theorem handleEvent_shows (h : s.Shows p) {event : FdEvent} (hplain : event.Plain) :
    (s.handleEvent event).1.Shows (p.handleEvent event.shown).1 ∧
      (s.handleEvent event).2 = (p.handleEvent event.shown).2 := by
  have hclient : s.clientFd = some event.fd ↔ p.client = true ∧ p.clientFd = event.fd := by
    rw [h.client]
    cases hc : s.clientFd with
    | none => simp
    | some fd => simp [h.clientFd fd hc]
  have hfd : event.shown.fd = event.fd := rfl
  unfold handleEvent PollServer.handleEvent
  rw [h.wakeFd, h.serverFd, hfd]
  by_cases hwake : s.wakeFd = some event.fd
  · rw [if_pos hwake, if_pos hwake]
    exact ⟨h.silent (s.drainWakeFd_silent event.drained), rfl⟩
  rw [if_neg hwake, if_neg hwake]
  by_cases hserver : s.serverFd = some event.fd
  · rw [if_pos hserver, if_pos hserver]
    obtain ⟨haccept, hresult⟩ := acceptClient_shows h event.accept hplain.onDisconnected
    change _ ∧ _
    have haccept' : event.shown.accept = event.accept.shown := rfl
    rw [haccept']
    generalize s.acceptClient event.accept event.onDisconnected = rs at haccept hresult ⊢
    generalize p.acceptClient event.accept.shown = rp at haccept hresult ⊢
    obtain ⟨t, r⟩ := rs
    obtain ⟨q, r'⟩ := rp
    obtain rfl : r = r' := hresult
    match r with
    | .error e => exact ⟨haccept, rfl⟩
    | .ok true => exact ⟨haccept.onConnected hplain.onConnected, rfl⟩
    | .ok false => exact ⟨haccept, rfl⟩
  rw [if_neg hserver, if_neg hserver]
  by_cases hc : s.clientFd = some event.fd
  · rw [if_pos hc, if_pos (hclient.1 hc)]
    have hhangup : event.shown.hangup = event.hangup := rfl
    have hinput : event.shown.input = event.input := rfl
    rw [hhangup, hinput]
    split_ifs
    · exact ⟨h.observe (h.conn.closeClient hplain.onDisconnected), rfl⟩
    · obtain ⟨hread, hresult⟩ := readClient_shows hplain.onFrame hplain.onDisconnected h.conn
        (by rw [hc]; rfl) event.reads
      exact ⟨h.observe hread, hresult⟩
    · exact ⟨h, rfl⟩
  · rw [if_neg hc, if_neg fun hp => hc (hclient.2 hp)]
    exact ⟨h, rfl⟩

theorem handleEvents_shows (h : s.Shows p) {events : List FdEvent} (hplain : ∀ event ∈ events, event.Plain) :
    (s.handleEvents events).1.Shows (p.handleEvents (events.map FdEvent.shown)).1 ∧
      (s.handleEvents events).2 = (p.handleEvents (events.map FdEvent.shown)).2 := by
  induction events generalizing s p with
  | nil => exact ⟨h, rfl⟩
  | cons event events ih =>
    obtain ⟨hevent, hresult⟩ := handleEvent_shows h (hplain event (.head _))
    rw [List.map_cons, handleEvents, PollServer.handleEvents]
    generalize s.handleEvent event = rs at hevent hresult ⊢
    generalize p.handleEvent event.shown = rp at hevent hresult ⊢
    obtain ⟨t, r⟩ := rs
    obtain ⟨q, r'⟩ := rp
    obtain rfl : r = r' := hresult
    cases r with
    | error e => exact ⟨hevent, rfl⟩
    | ok _ => exact ih hevent fun e he => hplain e (.tail _ he)

theorem waiting_shows (h : s.Shows p) {onDisconnected : List HookCall} (hwakes : OnlyWakes onDisconnected) :
    (s.waiting onDisconnected).Shows p.notify := by
  refine Shows.silent ?_ (use_silent _ _)
  unfold notify PollServer.notify
  rw [h.notify]
  split_ifs
  · have hnotified : ({ s with notifyDisconnect := false, hooks := s.hooks ++ [.onDisconnected] } :
        FdServer).Shows { p with
          notifyDisconnect := false, onDisconnected := p.onDisconnected + 1
          hooks := p.hooks ++ [.onDisconnected] } := by
      refine ⟨h.client, h.clientFd, h.serverFd, h.epollFd, h.wakeFd, rfl, h.rxBuffer, h.rxOffset, h.onFrame,
        congrArg (· ++ _) h.hooks, ?_⟩
      rw [List.count_append]
      exact congrArg (· + 1) h.disconnects
    exact hnotified.silent (callback_wakes hwakes _)
  · exact h

/-- **A call of `pollOnce`** is the one of the abstract server. -/
theorem pollOnce_shows (h : s.Shows p) {onDisconnected : List HookCall} (hwakes : OnlyWakes onDisconnected)
    {wait : FdWait} (hplain : wait.Plain) :
    (s.pollOnce onDisconnected wait).1.Shows (p.pollOnce wait.shown).1 ∧
      (s.pollOnce onDisconnected wait).2 = (p.pollOnce wait.shown).2 := by
  have hwait := waiting_shows h hwakes
  unfold pollOnce PollServer.pollOnce
  rw [h.epollFd]
  cases s.epollFd with
  | none => exact ⟨h, rfl⟩
  | some _ =>
    cases wait with
    | intr => exact ⟨hwait, rfl⟩
    | error errno => exact ⟨hwait, rfl⟩
    | events batch => exact handleEvents_shows hwait hplain

theorem writeResult_nil (kernel : List WriteResult) : writeResult [] kernel = .ok () := by
  simp [writeResult, Transport.writeAll]

/-- The connection after a `send` of the client. -/
theorem send_conn (hc : c.client = true) (header : FrameHeader) (payload : Bytes) (wh wp : List WriteResult) :
    c.send header payload (writeResult (headerBytes (UdsEpollServer.wireFrame header payload).1) wh)
        (writeResult payload wp) =
      (if (sendResult header payload wh wp).toBool then
          { c with sent := c.sent ++ [UdsEpollServer.wireFrame header payload] }
        else c.closeClientDeferred, sendResult header payload wh wp) := by
  unfold UdsEpollServer.send sendResult
  rw [if_pos hc]
  cases writeResult (headerBytes (UdsEpollServer.wireFrame header payload).1) wh with
  | error e => rfl
  | ok _ =>
    have hpayload : (if payload = [] then .ok () else writeResult payload wp) = writeResult payload wp := by
      split_ifs with hnil
      · rw [hnil, writeResult_nil]
      · rfl
    dsimp only
    rw [hpayload]
    cases writeResult payload wp <;> rfl

/-- A call of `send`, with the results of the two calls of `writeAll`. -/
theorem send_shows (h : s.Shows p) (header : FrameHeader) (payload : Bytes) (wh wp : List WriteResult) :
    let q := p.send header payload
      (writeResult (headerBytes (UdsEpollServer.wireFrame header payload).1) wh) (writeResult payload wp)
    (s.send header payload wh wp).1.Shows q.1 ∧ (s.send header payload wh wp).2 = q.2 := by
  unfold PollServer.send
  dsimp only
  cases hc : s.clientFd with
  | none =>
    have hp : ¬p.client = true := by
      rw [h.client, hc]
      exact Bool.false_ne_true
    unfold UdsEpollServer.send
    rw [send_none hc, if_neg hp]
    exact ⟨h, rfl⟩
  | some fd =>
    have hopen : s.clientFd.isSome := by
      rw [hc]
      rfl
    obtain ⟨hresult, hstate⟩ := send_state hopen header payload wh wp
    rw [send_conn (h.client.trans hopen)]
    refine ⟨?_, hresult⟩
    split_ifs at hstate ⊢
    · have hsent : s.Shows { p with sent := p.sent ++ [UdsEpollServer.wireFrame header payload] } :=
        ⟨h.client, h.clientFd, h.serverFd, h.epollFd, h.wakeFd, h.notify, h.rxBuffer, h.rxOffset, h.onFrame,
          h.hooks, h.disconnects⟩
      exact hsent.silent hstate
    · obtain ⟨calls, heq⟩ := hstate
      rw [heq]
      refine ⟨rfl, fun _ hfd => (nomatch hfd), h.serverFd, h.epollFd, h.wakeFd, ?_, rfl, rfl, h.onFrame, h.hooks,
        h.disconnects⟩
      change (p.client || p.notifyDisconnect) = true
      rw [h.client, hopen, Bool.true_or]

theorem stop_state (s : FdServer) : ∃ calls, s.stop = { s with
    clientFd := none, epollFd := none, serverFd := none, notifyDisconnect := false, rxBuffer := []
    rxOffset := 0, calls := calls } := by
  unfold stop closeClientFd closeEpollFd closeServerFd
  cases hc : s.clientFd <;> cases he : s.epollFd <;> cases hs : s.serverFd <;> simp [close, *]

/-- A stop of a server with these hooks and this wake descriptor. -/
theorem stopped_shows (h : s.Shows p) (hf : t.onFrame = s.onFrame) (hh : t.hooks = s.hooks) :
    t.stop.Shows { p.stop with wakeFd := t.wakeFd } := by
  obtain ⟨calls, heq⟩ := t.stop_state
  rw [heq]
  exact ⟨rfl, fun _ hfd => (nomatch hfd), rfl, rfl, rfl, rfl, rfl, rfl, h.onFrame.trans hf.symm,
    h.hooks.trans hh.symm, h.disconnects.trans (by rw [← hh])⟩

theorem stop_shows (h : s.Shows p) : s.stop.Shows p.stop := by
  have hstop := stopped_shows h rfl rfl
  rwa [← h.wakeFd] at hstop

/-- The last part of `start`: the wake descriptor is there, is drained and is not registered. -/
theorem unregistered_shows (h : s.Shows p) (t : FdServer) {w : Nat} (hst : u.Silent t)
    (hwake : u.wakeFd = some w) (hf : u.onFrame = s.onFrame) (hh : u.hooks = s.hooks) :
    t.stop.Shows { p.stop with wakeFd := some w } := by
  obtain ⟨calls, rfl⟩ := hst
  exact hwake ▸ stopped_shows (t := { u with calls := calls }) h hf hh

/-- The server is open. -/
theorem registered_shows (h : s.Shows p) (t : FdServer) {w serverFd epollFd : Nat} (hst : u.Silent t)
    (hwake : u.wakeFd = some w) (hf : u.onFrame = s.onFrame) (hh : u.hooks = s.hooks)
    (hserver : u.serverFd = some serverFd) (hepoll : u.epollFd = some epollFd) (hclient : u.clientFd = none) :
    ({ t with notifyDisconnect := false, rxBuffer := [], rxOffset := 0 } : FdServer).Shows { p.stop with
      wakeFd := some w, serverFd := some serverFd, epollFd := some epollFd
      notifyDisconnect := false, rxBuffer := [], rxOffset := 0 } := by
  obtain ⟨calls, rfl⟩ := hst
  refine ⟨?_, fun fd hfd => ?_, hserver.symm, hepoll.symm, hwake.symm, rfl, rfl, rfl, h.onFrame.trans hf.symm,
    h.hooks.trans hh.symm, h.disconnects.trans (congrArg _ hh.symm)⟩
  · change false = u.clientFd.isSome
    rw [hclient]
    rfl
  · change fd ∈ u.clientFd at hfd
    rw [hclient] at hfd
    cases hfd

theorem start_shows (h : s.Shows p) (calls : StartReturns) :
    (s.start calls).1.Shows (p.start calls.toStartCalls).1 ∧
      (s.start calls).2 = (p.start calls.toStartCalls).2 := by
  obtain ⟨⟨socket, pathFits, bind, chmod, listen, epollCreate, addServer, eventfd, addWakeup⟩, drained⟩ := calls
  have hstop := stop_shows h
  have hfailed : ∀ t : FdServer, t.onFrame = s.onFrame → t.hooks = s.hooks → t.wakeFd = s.wakeFd →
      t.stop.Shows p.stop := fun t hf hh hw => by
    have := stopped_shows (t := t) h hf hh
    rwa [hw, ← h.wakeFd] at this
  obtain ⟨ledger, heq⟩ := s.stop_state
  have hwake := h.wakeFd
  unfold start PollServer.start
  rw [heq] at hstop ⊢
  cases socket with
  | error e => exact ⟨hstop, rfl⟩
  | ok serverFd =>
  cases pathFits with
  | false => exact ⟨hfailed _ rfl rfl rfl, rfl⟩
  | true =>
  cases bind with
  | error e => exact ⟨hfailed _ rfl rfl rfl, rfl⟩
  | ok _ =>
  cases chmod with
  | error e => exact ⟨hfailed _ rfl rfl rfl, rfl⟩
  | ok _ =>
  cases listen with
  | error e => exact ⟨hfailed _ rfl rfl rfl, rfl⟩
  | ok _ =>
  cases epollCreate with
  | error e => exact ⟨hfailed _ rfl rfl rfl, rfl⟩
  | ok epollFd =>
  cases addServer with
  | error e => exact ⟨hfailed _ rfl rfl rfl, rfl⟩
  | ok _ =>
  obtain ⟨⟨client, notifyDisconnect, rxBuffer, rxOffset, onFrame, onDisconnected, sent⟩, clientFd, serverFd', epollFd',
    wakeFd, hooks⟩ := p
  obtain rfl : wakeFd = s.wakeFd := hwake
  generalize hw : s.wakeFd = wake at *
  cases wake with
  | some w =>
    cases addWakeup with
    | error e =>
      exact ⟨unregistered_shows h _ (((drainWakeFd_silent _ _).trans (use_silent _ _)).trans (use_silent _ _))
        rfl rfl rfl, rfl⟩
    | ok _ =>
      exact ⟨registered_shows h _ (((drainWakeFd_silent _ _).trans (use_silent _ _)).trans (use_silent _ _))
        rfl rfl rfl rfl rfl rfl, rfl⟩
  | none =>
    cases eventfd with
    | error e => exact ⟨hfailed _ rfl rfl rfl, rfl⟩
    | ok w =>
      cases addWakeup with
      | error e =>
        exact ⟨unregistered_shows h _ (((drainWakeFd_silent _ _).trans (use_silent _ _)).trans (use_silent _ _))
          rfl rfl rfl, rfl⟩
      | ok _ =>
        exact ⟨registered_shows h _ (((drainWakeFd_silent _ _).trans (use_silent _ _)).trans (use_silent _ _))
          rfl rfl rfl rfl rfl rfl, rfl⟩

end FdServer

/-! ## Runs -/

theorem PollServer.start_hooks (s : PollServer) (calls : StartCalls) : (s.start calls).1.hooks = s.hooks := by
  unfold start
  dsimp only
  repeat' split
  all_goals rfl

/-- A call between a start and a stop whose callbacks are plain; no send of the frame handler fails. -/
def FdCall.Serving : FdCall → Prop
  | .wakeup | .send .. => True
  | .pollOnce onDisconnected wait =>
    FdServer.OnlyWakes onDisconnected ∧ wait.Plain ∧ (PollCall.pollOnce wait.shown).NoSendInHook
  | .start _ | .stop | .destroy => False

namespace FdObject

variable {s t u : FdObject} {p : PollServer}

/-- A call is matched by a call of the abstract server, a `wakeup` by none. -/
theorem step_shows {call : FdCall} (h : s.Shows p) (hserving : call.Serving) (ht : s.step call = some t) :
    ∃ abstract q, (∀ c ∈ abstract, PollCall.NoSendInHook c) ∧ PollServer.machine.run p abstract = some q ∧
      t.Shows q := by
  unfold step at ht
  split_ifs at ht
  obtain rfl := Option.some.inj ht
  cases call with
  | wakeup => exact ⟨[], p, List.forall_mem_nil _, rfl, h.silent s.wakeup_silent⟩
  | send header payload writeHeader writePayload =>
    exact ⟨[.send header payload _ _], _, List.forall_mem_singleton.2 trivial, rfl,
      (FdServer.send_shows h header payload writeHeader writePayload).1⟩
  | pollOnce onDisconnected wait =>
    exact ⟨[.pollOnce wait.shown], _, List.forall_mem_singleton.2 hserving.2.2, rfl,
      (FdServer.pollOnce_shows h hserving.1 hserving.2.1).1⟩
  | start calls => exact hserving.elim
  | stop => exact hserving.elim
  | destroy => exact hserving.elim

theorem run_shows {calls : List FdCall} (h : s.Shows p) (hserving : ∀ call ∈ calls, call.Serving)
    (hrun : machine.run s calls = some u) :
    ∃ abstract q, (∀ c ∈ abstract, PollCall.NoSendInHook c) ∧ PollServer.machine.run p abstract = some q ∧
      u.Shows q := by
  induction calls generalizing s p with
  | nil =>
    cases hrun
    exact ⟨[], p, List.forall_mem_nil _, rfl, h⟩
  | cons call calls ih =>
    obtain ⟨t, ht, hrest⟩ := Lts.Machine.run_cons_some hrun
    obtain ⟨first, q, hfirst, hq, hshows⟩ := step_shows h (hserving call (.head _)) ht
    obtain ⟨rest, r, hlast, hr, hshows'⟩ := ih hshows (fun c hc => hserving c (.tail _ hc)) hrest
    refine ⟨first ++ rest, r, fun c hc => ?_, by rw [Lts.Machine.run_append hq, hr], hshows'⟩
    exact (List.mem_append.1 hc).elim (hfirst c) (hlast c)

/-- **The hooks of a started server** begin and end sessions one at a time. -/
theorem run_sessions {returns : StartReturns} {calls : List FdCall} {first : FdServer}
    (hstart : ({} : FdServer).start returns = (first, .ok ())) (hserving : ∀ call ∈ calls, call.Serving)
    (hrun : machine.run { toFdServer := first } calls = some u) :
    sessions.run false u.hooks = some (u.clientFd.isSome || u.notifyDisconnect) := by
  have hnew : ({} : FdServer).Shows {} := ⟨rfl, fun _ h => (nomatch h), rfl, rfl, rfl, rfl, rfl, rfl, rfl, rfl, rfl⟩
  obtain ⟨hshows, hresult⟩ := FdServer.start_shows hnew returns
  rw [hstart] at hshows hresult
  obtain ⟨abstract, q, hhooks, hq, hu⟩ := run_shows (s := { toFdServer := first }) hshows hserving hrun
  have hstart' : ({} : PollServer).start returns.toStartCalls =
      ((({} : PollServer).start returns.toStartCalls).1, .ok ()) := Prod.ext rfl hresult.symm
  obtain ⟨hup, hsettled⟩ := PollServer.start_up hstart'
  obtain ⟨⟨hooks, heq, hsessions⟩, -⟩ := PollServer.run_advances hsettled hhooks hq
  rw [PollServer.start_hooks, List.nil_append] at heq
  rw [hup, PollServer.up, hu.client, hu.notify] at hsessions
  rw [← hu.hooks, heq]
  exact hsessions

end FdObject

end Phi.Transport
