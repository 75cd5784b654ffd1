import PhiSidecar.Transport.UdsEpollServer

/-!
# Frame reassembly does not depend on how the stream is cut

`frames` is the reference splitter of a byte stream: a header of `kFrameHeaderSize` bytes, a
violation if it is invalid, otherwise its payload. A batch of reads does to the server what one
`feedStep` does to the incremental parser (`pollInput_feedStep`); `Stream.Splitter.feed_eq_parse`
then gives the result for every way of cutting a stream (`pollInput_frames`).
-/

set_option autoImplicit false

namespace Phi.Transport

open Phi.V1 Stream

/-- The front of a byte stream: a frame, an invalid header, or too little to tell. -/
def nextFrame (s : Bytes) : Next Frame :=
  if s.length < kFrameHeaderSize then .more
  else if isValidFrameHeader (readHeader s) then
    let n := kFrameHeaderSize + (readHeader s).payloadSize.toNat
    if s.length < n then .more
    else .item (readHeader s, (s.drop kFrameHeaderSize).take (readHeader s).payloadSize.toNat) n
  else .bad

/-- The frames of a byte stream. -/
def frames : Splitter UInt8 Frame where
  next := nextFrame
  pos {s b n} h := by
    have : 0 < kFrameHeaderSize := by decide
    simp only [nextFrame] at h
    split_ifs at h
    cases h
    omega
  mono {s} t h := by
    unfold nextFrame at h ⊢
    by_cases h1 : s.length < kFrameHeaderSize
    · rw [if_pos h1] at h; exact absurd rfl h
    rw [if_neg h1] at h ⊢
    rw [if_neg (by rw [List.length_append]; omega), readHeader_append (by omega)]
    by_cases h2 : isValidFrameHeader (readHeader s) = true
    · rw [if_pos h2] at h ⊢
      by_cases h3 : s.length < kFrameHeaderSize + (readHeader s).payloadSize.toNat
      · simp only [h3, if_true] at h; exact absurd rfl h
      · simp only [h3, h2, if_true, if_false]
        rw [if_neg (by rw [List.length_append]; omega), List.drop_append_of_le_length (by omega),
          List.take_append_of_le_length (by rw [List.length_drop]; omega)]
    · rw [if_neg h2, if_neg h2]

theorem nextFrame_bad_iff (s : Bytes) : nextFrame s = .bad ↔
    kFrameHeaderSize ≤ s.length ∧ isValidFrameHeader (readHeader s) = false := by
  unfold nextFrame
  by_cases h1 : s.length < kFrameHeaderSize
  · simp [h1, Nat.not_le_of_lt h1]
  rw [if_neg h1]
  cases h2 : isValidFrameHeader (readHeader s) with
  | true =>
    rw [if_pos rfl]
    simp only [Bool.true_eq_false, and_false, iff_false]
    split_ifs <;> simp
  | false => simp [Nat.le_of_not_lt h1]

/-- The reference parser stops with a violation exactly when the full header of an invalid frame
follows the frames it has consumed. -/
theorem frames_bad_iff (s : Bytes) : (frames.parse s).bad = true ↔
    kFrameHeaderSize ≤ (frames.parse s).rest.length ∧
      isValidFrameHeader (readHeader (frames.parse s).rest) = false := by
  rw [← nextFrame_bad_iff, show nextFrame (frames.parse s).rest = _ from
    Splitter.parse_stop (D := frames) s]
  cases (frames.parse s).bad <;> simp

/-- What a read result adds to the stream. -/
def ReadResult.bytes : ReadResult → Bytes
  | .data bytes => bytes
  | _ => []

/-- The peer keeps the connection open and the read does not fail. -/
def ReadResult.Open : ReadResult → Prop
  | .data _ | .intr => True
  | .eof | .again | .error _ => False

namespace UdsEpollServer

theorem readSocket_open {reads : List ReadResult} (h : ∀ r ∈ reads, r.Open) (s : UdsEpollServer) :
    s.readSocket (reads ++ [.again]) =
      ({ s with rxBuffer := s.rxBuffer ++ (reads.map ReadResult.bytes).flatten }, none) := by
  induction reads generalizing s with
  | nil => simp [readSocket]
  | cons r rs ih =>
    have hrs := fun s => ih (fun r hr => h r (.tail _ hr)) s
    have hr := h r (.head _)
    cases r with
    | data bytes =>
      rw [List.cons_append, readSocket, hrs]
      simp [ReadResult.bytes]
    | intr =>
      rw [List.cons_append, readSocket, hrs]
      simp [ReadResult.bytes]
    | eof => exact hr.elim
    | again => exact hr.elim
    | error _ => exact hr.elim

/-- The state after the dispatch loop, as a parse of what the cursor had not passed. -/
def Dispatched (s : UdsEpollServer) (p : Parse UInt8 Frame)
    (r : UdsEpollServer × Option (Except Bytes Unit)) : Prop :=
  if p.bad then
    r = (closeClient { s with onFrame := s.onFrame ++ p.items },
      some (.error (lit "invalid frame header")))
  else
    ∃ off, off ≤ s.rxBuffer.length ∧ s.rxBuffer.drop off = p.rest ∧
      r = ({ s with rxOffset := off, onFrame := s.onFrame ++ p.items }, none)

theorem dispatchFrames_parse {closes : List Frame → Bool} (hc : ∀ fs, closes fs = false)
    {s : UdsEpollServer} (hs : s.rxOffset ≤ s.rxBuffer.length) :
    s.Dispatched (frames.parse (s.rxBuffer.drop s.rxOffset)) (s.dispatchFrames closes) := by
  fun_induction dispatchFrames closes s with
  | case1 s available h =>
    have hm : frames.next (s.rxBuffer.drop s.rxOffset) = .more :=
      if_pos (by rw [List.length_drop]; exact h)
    rw [Splitter.parse_more hm]
    exact ⟨s.rxOffset, hs, rfl, by simp⟩
  | case2 s available h frameStart header hv frameSize hlt =>
    have hm : frames.next (s.rxBuffer.drop s.rxOffset) = .more := by
      show nextFrame _ = _
      rw [nextFrame, if_neg (by rw [List.length_drop]; exact h), if_pos hv]
      exact if_pos (by rw [List.length_drop]; exact hlt)
    rw [Splitter.parse_more hm]
    exact ⟨s.rxOffset, hs, rfl, by simp⟩
  | case3 s available h frameStart header hv frameSize hlt payload s' hcl =>
    rw [hc] at hcl; cases hcl
  | case4 s available h frameStart header hv frameSize hlt payload s' hcl ih =>
    have hi : frames.next (s.rxBuffer.drop s.rxOffset) = .item (header, payload) frameSize := by
      show nextFrame _ = _
      rw [nextFrame, if_neg (by rw [List.length_drop]; exact h), if_pos hv]
      exact if_neg (by rw [List.length_drop]; exact hlt)
    have ih := ih (by simp only [s']; omega)
    rw [Splitter.parse_item hi, List.drop_drop]
    simpa [Dispatched, s', closeClient] using ih
  | case5 s available h frameStart header hv =>
    have hb : frames.next (s.rxBuffer.drop s.rxOffset) = .bad := by
      show nextFrame _ = _
      rw [nextFrame, if_neg (by rw [List.length_drop]; exact h), if_neg hv]
    rw [Splitter.parse_bad hb]
    simp [Dispatched]

/-- A server between two batches, and what the incremental parser has kept. -/
structure Between (s : UdsEpollServer) (p : Parse UInt8 Frame) : Prop where
  onFrame : s.onFrame = p.items
  client : s.client = !p.bad
  rxBuffer : p.bad = false → s.rxBuffer = p.rest
  rxOffset : s.rxOffset = 0

theorem compact_eq {s : UdsEpollServer} : s.compact =
    { s with rxBuffer := s.rxBuffer.drop s.rxOffset, rxOffset := 0 } := by
  unfold compact
  split_ifs with h0 hl
  · rw [List.drop_eq_nil_of_le hl]
  · rfl
  · obtain ⟨_, _, _, off, _, _⟩ := s
    obtain rfl : off = 0 := by simp only at h0; omega
    rfl

/-- One batch is one step of the incremental parser. -/
theorem pollInput_feedStep {closes : List Frame → Bool} (hc : ∀ fs, closes fs = false)
    {s : UdsEpollServer} {p : Parse UInt8 Frame} (hs : s.Between p) {reads : List ReadResult}
    (hr : ∀ r ∈ reads, r.Open) :
    (s.pollInput closes (reads ++ [.again])).Between
      (frames.feedStep p (reads.map ReadResult.bytes).flatten) := by
  unfold pollInput Splitter.feedStep
  cases hb : p.bad with
  | true => simpa [hs.client, hb] using hs
  | false =>
    rw [if_pos (by rw [hs.client, hb]; rfl), if_neg (by decide)]
    unfold readClient
    rw [readSocket_open hr]
    obtain ⟨s', hs'⟩ : ∃ s', s' =
      { s with rxBuffer := s.rxBuffer ++ (reads.map ReadResult.bytes).flatten } := ⟨_, rfl⟩
    have hoff : s'.rxOffset = 0 := by rw [hs', hs.rxOffset]
    have hbuf : s'.rxBuffer = p.rest ++ (reads.map ReadResult.bytes).flatten := by
      rw [hs', hs.rxBuffer hb]
    have hframe : s'.onFrame = p.items := by rw [hs', hs.onFrame]
    have hclient : s'.client = true := by rw [hs', hs.client, hb]; rfl
    have hd := dispatchFrames_parse hc (s := s') (by rw [hoff]; exact Nat.zero_le _)
    rw [← hs']
    simp only [hoff, List.drop_zero, hbuf, Dispatched] at hd
    split at hd
    · next hbad =>
      simp only [hd]
      exact ⟨by simp [closeClient, hframe], by simp [closeClient, hbad],
        fun h => absurd h (by simp [hbad]), rfl⟩
    · next hbad =>
      obtain ⟨off, -, hrest, hd⟩ := hd
      simp only [hd, compact_eq]
      exact ⟨by simp [hframe], by simp [hclient, hbad], fun _ => hrest, rfl⟩

/-- The batches of one connection, from a freshly accepted client on. -/
def pollBatches (closes : List Frame → Bool) (batches : List (List ReadResult)) : UdsEpollServer :=
  batches.foldl (fun s reads => s.pollInput closes (reads ++ [.again])) {}

/-- The bytes a batch delivers. -/
def received (reads : List ReadResult) : Bytes := (reads.map ReadResult.bytes).flatten

theorem pollBatches_feed {closes : List Frame → Bool} (hc : ∀ fs, closes fs = false)
    {batches : List (List ReadResult)} (hr : ∀ reads ∈ batches, ∀ r ∈ reads, r.Open) :
    (pollBatches closes batches).Between (frames.feed (batches.map received)) := by
  suffices h : ∀ (s : UdsEpollServer) p, s.Between p →
      (batches.foldl (fun s reads => s.pollInput closes (reads ++ [.again])) s).Between
        ((batches.map received).foldl frames.feedStep p) from
    h _ _ ⟨rfl, rfl, fun _ => rfl, rfl⟩
  induction batches with
  | nil => exact fun s p hs => hs
  | cons b bs ih =>
    intro s p hs
    exact ih (fun reads h => hr reads (.tail _ h)) _ _
      (pollInput_feedStep hc hs (hr b (.head _)))

/-- **Reassembly is independent of chunking**: whatever the batches, the frames passed on are those
of the whole stream, the connection is closed exactly when the stream received so far has the full
header of an invalid frame after them, and until then the buffer holds what no frame has
consumed. -/
theorem pollBatches_frames {closes : List Frame → Bool} (hc : ∀ fs, closes fs = false)
    {batches : List (List ReadResult)} (hr : ∀ reads ∈ batches, ∀ r ∈ reads, r.Open) :
    let s := pollBatches closes batches
    let p := frames.parse (batches.map received).flatten
    s.onFrame = p.items ∧
      (s.client = false ↔
        kFrameHeaderSize ≤ p.rest.length ∧ isValidFrameHeader (readHeader p.rest) = false) ∧
      (s.client = true → s.rxBuffer = p.rest) ∧ s.rxOffset ≤ s.rxBuffer.length := by
  intro s p
  have hs := pollBatches_feed hc hr
  have hp := Splitter.feed_eq_parse (D := frames) rfl (batches.map received)
  have hcl : s.client = !p.bad := by rw [← hp.bad]; exact hs.client
  refine ⟨hs.onFrame.trans hp.items, ?_, fun h => ?_, by simp [s, hs.rxOffset]⟩
  · rw [← frames_bad_iff, hcl]
    simp [p]
  have hb : p.bad = false := by simpa [hcl] using h
  rw [← hp.rest hb]
  exact hs.rxBuffer (hp.bad.trans hb)

/-- A frame of one payload byte, cut inside the header and before the payload, and an invalid header
behind it. -/
theorem pollBatches_frames_cut :
    let batches : List (List ReadResult) :=
      [[.data (lit "PHIA"), .data [1, 0, 5]],
        [.intr, .data [0, 1, 0, 0, 0, 7, 0, 0, 0, 0, 0, 0, 0]],
        [.data (0x7B :: lit "PHIB"), .data (List.replicate 16 0)]]
    let s := pollBatches (fun _ => false) batches
    let p := frames.parse (batches.map received).flatten
    s.onFrame = p.items ∧
      (s.client = false ↔
        kFrameHeaderSize ≤ p.rest.length ∧ isValidFrameHeader (readHeader p.rest) = false) ∧
      (s.client = true → s.rxBuffer = p.rest) ∧ s.rxOffset ≤ s.rxBuffer.length :=
  pollBatches_frames (fun _ => rfl) (by
    simp only [List.mem_cons, List.not_mem_nil, or_false, forall_eq_or_imp, forall_eq,
      ReadResult.Open, and_self])

end UdsEpollServer

end Phi.Transport
