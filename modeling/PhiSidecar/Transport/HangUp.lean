import PhiSidecar.Transport.Reassembly
import PhiSidecar.Transport.Sessions

/-!
# The end of a connection (`uds_epoll_transport.cpp`: `pollOnce`, `readClient`, `closeClient`)

The peer sends valid frames and closes its end. The event loop learns of it in one of three ways: by
`EPOLLIN` alone, with the end of file behind the data of a batch, or by `EPOLLRDHUP` or `EPOLLHUP`, with
`EPOLLIN` or without. In each of them it closes the connection before it looks at what that event has
brought.

* `handleEvent_client`: on the client's descriptor the event loop does what `pollEvent` does.
* `closing_frames_iff`: **every frame is passed on if and only if the batches before the closing event
  have read to the end of the last frame**.
* `closing_loses`: a frame and the end of file in one batch, and a frame behind a hang-up.
-/

set_option autoImplicit false

namespace Phi.Transport

open Phi.V1 Stream

/-! ## Events of the client -/

namespace UdsEpollServer

/-- The branch of `pollOnce` for an event of the client's descriptor. -/
def pollEvent (s : UdsEpollServer) (event : Event) : UdsEpollServer :=
  if s.client then
    if event.hangup then s.closeClient
    else if event.input then (s.readClient event.closes event.reads).1
    else s
  else s

end UdsEpollServer

/-- The event loop on an event of the client's descriptor. -/
theorem PollServer.handleEvent_client {s : PollServer} {event : Event} (hfd : event.fd = s.clientFd)
    (hwake : s.wakeFd ≠ some event.fd) (hserver : s.serverFd ≠ some event.fd) :
    (s.handleEvent event).1.toUdsEpollServer = s.toUdsEpollServer.pollEvent event := by
  unfold PollServer.handleEvent UdsEpollServer.pollEvent
  rw [if_neg hwake, if_neg hserver]
  cases s.client with
  | false => simp
  | true =>
    rw [if_pos ⟨rfl, hfd.symm⟩, if_pos rfl]
    split_ifs <;> rfl

/-- How the kernel reports that the peer has closed its end. -/
inductive Closing
  /-- `EPOLLRDHUP` or `EPOLLHUP`, with or without `EPOLLIN`. -/
  | hangup (input : Bool) (reads : List ReadResult)
  /-- `EPOLLIN` alone: `::read` returns what is left and then 0. -/
  | eof (reads : List ReadResult)

/-- The events of a connection: batches that end with `EAGAIN`, and the closing one. The frame handler
does not close the connection, since the dispatcher queues what it sends. -/
structure ClosingConnection where
  batches : List (List ReadResult)
  closing : Closing

namespace ClosingConnection

def batchEvent (fd : Nat) (reads : List ReadResult) : Event :=
  { fd, input := true, reads := reads ++ [.again] }

def closingEvent (fd : Nat) : Closing → Event
  | .hangup input reads => { fd, hangup := true, input, reads }
  | .eof reads => { fd, input := true, reads := reads ++ [.eof] }

def events (c : ClosingConnection) (fd : Nat) : List Event :=
  c.batches.map (batchEvent fd) ++ [closingEvent fd c.closing]

/-- What was read in batches that ended with `EAGAIN`. -/
def readBefore (c : ClosingConnection) : Bytes := (c.batches.map UdsEpollServer.received).flatten

/-- What the kernel promises about a connection on which the peer has sent `sent`: the bytes come in
order, and the end of file after all of them. A hang-up may be reported with bytes unread. -/
structure Reports (c : ClosingConnection) (sent : Bytes) : Prop where
  batches : ∀ reads ∈ c.batches, ∀ r ∈ reads, r.Open
  closing : match c.closing with
    | .hangup _ _ => c.readBefore <+: sent
    | .eof reads => (∀ r ∈ reads, r.Open) ∧ c.readBefore ++ UdsEpollServer.received reads = sent

/-- The server after the events, on a client that was just accepted. -/
def run (c : ClosingConnection) (fd : Nat) : UdsEpollServer :=
  (c.events fd).foldl UdsEpollServer.pollEvent {}

end ClosingConnection

/-! ## Where frames end -/

/-- A frame can be told as soon as its last byte is there. -/
theorem frames_local {r t : Bytes} {b : Frame} {n : Nat} (h : frames.next (r ++ t) = .item b n)
    (hn : n ≤ r.length) : frames.next r ≠ .more := by
  change nextFrame (r ++ t) = _ at h
  change nextFrame r ≠ _
  unfold nextFrame at h ⊢
  dsimp only at h ⊢
  split_ifs at h with hshort hvalid
  cases h
  have hheader : kFrameHeaderSize ≤ r.length := by omega
  rw [readHeader_append hheader] at hn hvalid
  rw [if_neg (Nat.not_lt.2 hheader), if_pos hvalid, if_neg (Nat.not_lt.2 hn)]
  nofun

/-- Where the last complete frame ends. -/
def framesEnd (sent : Bytes) : Nat := sent.length - (frames.parse sent).rest.length

/-- Some of the bytes have all the frames if they reach to the end of the last one. -/
theorem frames_prefix_iff {before sent : Bytes} (hpre : before <+: sent)
    (hvalid : (frames.parse sent).bad = false) :
    (frames.parse before).bad = false ∧
      ((frames.parse before).items = (frames.parse sent).items ↔ framesEnd sent ≤ before.length) := by
  obtain ⟨t, rfl⟩ := hpre
  have hbad : (frames.parse before).bad = false := by
    by_contra hbad
    rw [(Splitter.parse_append_bad (Bool.not_eq_false _ ▸ hbad) t).2] at hvalid
    cases hvalid
  refine ⟨hbad, ?_⟩
  rw [eq_comm]
  exact Splitter.parse_items_append_iff frames_local hbad t

/-! ## The closing event -/

namespace UdsEpollServer

theorem pollEvent_batch (s : UdsEpollServer) (fd : Nat) (reads : List ReadResult) :
    s.pollEvent (ClosingConnection.batchEvent fd reads) =
      s.pollInput (fun _ => false) (reads ++ [.again]) := by
  unfold pollEvent pollInput
  cases s.client <;> rfl

theorem foldl_batches (fd : Nat) (batches : List (List ReadResult)) :
    (batches.map (ClosingConnection.batchEvent fd)).foldl pollEvent {} =
      pollBatches (fun _ => false) batches := by
  rw [List.foldl_map, pollBatches]
  simp only [pollEvent_batch]

/-- A batch that ends with the end of file passes on nothing. -/
theorem readSocket_eof {reads : List ReadResult} (h : ∀ r ∈ reads, r.Open) (s : UdsEpollServer) :
    ∃ rx, s.readSocket (reads ++ [.eof]) = (closeClient { s with rxBuffer := rx }, some (.ok ())) := by
  induction reads generalizing s with
  | nil => exact ⟨s.rxBuffer, rfl⟩
  | cons r rs ih =>
    obtain ⟨hr, hrs⟩ := List.forall_mem_cons.1 h
    cases r with
    | data bytes =>
      obtain ⟨rx, hrx⟩ := ih hrs { s with rxBuffer := s.rxBuffer ++ bytes }
      exact ⟨rx, hrx⟩
    | intr =>
      obtain ⟨rx, hrx⟩ := ih hrs s
      exact ⟨rx, hrx⟩
    | eof => exact hr.elim
    | again => exact hr.elim
    | error _ => exact hr.elim

/-- The closing event closes the connection and passes on nothing. -/
theorem pollEvent_closing {s : UdsEpollServer} (hs : s.client = true) (fd : Nat) {closing : Closing}
    (h : ∀ reads, closing = .eof reads → ∀ r ∈ reads, r.Open) :
    (s.pollEvent (ClosingConnection.closingEvent fd closing)).onFrame = s.onFrame ∧
      (s.pollEvent (ClosingConnection.closingEvent fd closing)).client = false ∧
      (s.pollEvent (ClosingConnection.closingEvent fd closing)).onDisconnected = s.onDisconnected + 1 := by
  unfold pollEvent
  rw [if_pos hs]
  cases closing with
  | hangup input reads => exact ⟨rfl, rfl, rfl⟩
  | eof reads =>
    obtain ⟨rx, hrx⟩ := readSocket_eof (h reads rfl) s
    change ((s.readClient (fun _ => false) (reads ++ [.eof])).1.onFrame = _) ∧
      (s.readClient (fun _ => false) (reads ++ [.eof])).1.client = _ ∧
      (s.readClient (fun _ => false) (reads ++ [.eof])).1.onDisconnected = _
    unfold readClient
    rw [hrx]
    exact ⟨rfl, rfl, rfl⟩

end UdsEpollServer

namespace ClosingConnection

open UdsEpollServer

variable {c : ClosingConnection} {sent : Bytes}

theorem Reports.readBefore_prefix (h : c.Reports sent) : c.readBefore <+: sent := by
  have hclosing := h.closing
  split at hclosing
  · exact hclosing
  · exact ⟨_, hclosing.2⟩

/-- **Frames before a close**: the disconnect is reported, and by then every frame of the peer has been
passed on if and only if the batches before the closing event have read to the end of the last one. -/
theorem closing_frames_iff (hvalid : (frames.parse sent).bad = false) (h : c.Reports sent) (fd : Nat) :
    (c.run fd).client = false ∧ 0 < (c.run fd).onDisconnected ∧
      ((c.run fd).onFrame = (frames.parse sent).items ↔ framesEnd sent ≤ c.readBefore.length) := by
  obtain ⟨hgood, hiff⟩ := frames_prefix_iff h.readBefore_prefix hvalid
  obtain ⟨hframes, hclient, -, -⟩ := @pollBatches_frames (fun _ => false) (fun _ => rfl) c.batches h.batches
  have hopen : (pollBatches (fun _ => false) c.batches).client = true := by
    by_contra hclosed
    have hbad := (frames_bad_iff c.readBefore).2 (hclient.1 (Bool.not_eq_true _ ▸ hclosed))
    rw [hgood] at hbad
    cases hbad
  have hrun : c.run fd = (pollBatches (fun _ => false) c.batches).pollEvent (closingEvent fd c.closing) := by
    rw [run, events, List.foldl_append, foldl_batches]
    rfl
  have hreads : ∀ reads, c.closing = .eof reads → ∀ r ∈ reads, r.Open := by
    intro reads hc
    have hclosing := h.closing
    rw [hc] at hclosing
    exact hclosing.1
  obtain ⟨honFrame, hclosed, hcount⟩ := pollEvent_closing hopen fd hreads
  rw [hrun]
  refine ⟨hclosed, hcount ▸ Nat.succ_pos _, ?_⟩
  rw [honFrame, hframes]
  exact hiff

/-- A frame without a payload. -/
def shortFrame : Bytes := lit "PHIA" ++ [1, 0, 5] ++ List.replicate 13 0

theorem shortFrame_parse : frames.parse shortFrame = ⟨[({}, [])], false, []⟩ := by
  have hnext : frames.next shortFrame = .item ({}, []) 20 := rfl
  have hrest : frames.next (shortFrame.drop 20) = .more := rfl
  rw [Splitter.parse_item hnext, Splitter.parse_more hrest]
  rfl

/-- The frame in a batch of its own, cut in the middle, and the end of file in the next. -/
def patient : ClosingConnection where
  batches := [[.data (shortFrame.take 7), .intr, .data (shortFrame.drop 7)]]
  closing := .eof []

theorem closing_frames_patient : (patient.run 5).onFrame = [({}, [])] := by
  have hparse := shortFrame_parse
  have hreports : patient.Reports shortFrame := by
    refine ⟨?_, nofun, rfl⟩
    simp [patient, ReadResult.Open]
  have hiff := (closing_frames_iff (by rw [hparse]) hreports 5).2.2
  rw [framesEnd, hparse] at hiff
  exact hiff.2 (by decide)

/-- The frame and the end of file in one batch. -/
def oneBatch : ClosingConnection where
  batches := []
  closing := .eof [.data shortFrame]

/-- The frame reported with a hang-up. -/
def hungUp : ClosingConnection where
  batches := []
  closing := .hangup true [.data shortFrame, .again]

/-- The frame is lost with the end of file in its batch, and with a hang-up. -/
theorem closing_loses :
    (¬∀ (c : ClosingConnection) (sent : Bytes) (fd : Nat), (frames.parse sent).bad = false →
      c.Reports sent → (∃ reads, c.closing = .eof reads) →
      (c.run fd).onFrame = (frames.parse sent).items) ∧
    ¬∀ (c : ClosingConnection) (sent : Bytes) (fd : Nat), (frames.parse sent).bad = false →
      c.Reports sent → (∃ input reads, c.closing = .hangup input reads) →
      (c.run fd).onFrame = (frames.parse sent).items := by
  have hparse := shortFrame_parse
  have hgood : (frames.parse shortFrame).bad = false := by rw [hparse]
  constructor
  · intro hall
    have hreports : oneBatch.Reports shortFrame := by
      refine ⟨List.forall_mem_nil _, ?_, rfl⟩
      simp [ReadResult.Open]
    have hlost := hall oneBatch shortFrame 5 hgood hreports ⟨_, rfl⟩
    rw [hparse] at hlost
    cases hlost
  · intro hall
    have hreports : hungUp.Reports shortFrame := ⟨List.forall_mem_nil _, List.nil_prefix⟩
    have hlost := hall hungUp shortFrame 5 hgood hreports ⟨_, _, rfl⟩
    rw [hparse] at hlost
    cases hlost

end ClosingConnection

end Phi.Transport
