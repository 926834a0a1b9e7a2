import Athena.Spec.FrameRoundTrip

/-!
# What is received does not depend on the segmentation

A `Reading` is a receiver in front of a byte stream, any bytes whatever.  While
bytes remain, a read takes some of them off the stream, no more than the buffer
`uv_alloc_cb` offers.  Seen from the channel, a receive ring of `cap` bytes turns
`cut` into `within cut cap`: a ring that is full of an incomplete frame closes the
channel at the next read.  So the packets are what `within cut cap` drains from the
whole stream, and the channel ends closed exactly if the stream drains to an illegal
front, wherever the reads were cut.

## Key results

- `Reading.inv_step`, `Reading.inv_run`: the packets so far are drained from the bytes
  so far
- `Reading.segmentation_independent`: two segmentations of one stream agree
-/

namespace Athena

open Channel RingByteBuf Framing

namespace Channel

/-- A read into a channel that `uv_alloc_cb` leaves closed is thrown away. -/
theorem readEvent_closed (realloc : Nat → Bool) (bytes : List UInt8) {ch : Channel}
    (maxLen : Nat) (h : ch.uv_alloc_cb.2.closed_ = true) :
    (readEvent realloc (fun _ => false) bytes ch maxLen).packets = [] ∧
      (readEvent realloc (fun _ => false) bytes ch maxLen).chan.closed_ = true := by
  obtain ⟨filled, hfilled⟩ : ∃ c, c = ch.uv_alloc_cb.2.fill ch.uv_alloc_cb.1 bytes := ⟨_, rfl⟩
  have hclosed : filled.closed_ = true := by
    rw [hfilled]
    cases ch.uv_alloc_cb.1 <;> exact h
  -- `onRead` does not touch a closed channel
  have honRead : filled.onRead bytes.length = filled := by
    by_cases hpos : (bytes.length : Int) > 0
    · rw [onRead, if_pos hpos, if_pos hclosed]
    · rw [onRead, if_neg hpos, if_neg (by omega)]
  have hread : readEvent realloc (fun _ => false) bytes ch maxLen =
      { chan := filled, maxPackBodyLen := maxLen, packets := [] } := by
    simp only [readEvent, uv_read_cb, ← hfilled, honRead]
    exact if_pos (.inr hclosed)
  rw [hread]
  exact ⟨rfl, hclosed⟩

/-- `uv_alloc_cb` closes a channel whose ring is full. -/
theorem uv_alloc_cb_full {ch : Channel}
    (h : ch.recv_buffer.readableBytes = ch.recv_buffer.capacity) :
    ch.uv_alloc_cb.2.closed_ = true := by
  have hfull : ch.recv_buffer.linearWritablePtr.2 = 0 := by
    apply linearWritablePtr_eq_zero.mpr
    rw [writableBytes_eq]
    omega
  rw [uv_alloc_cb, if_pos hfull]
  rfl

/-- A closed channel stays closed. -/
theorem uv_alloc_cb_closed {ch : Channel} (h : ch.closed_ = true) :
    ch.uv_alloc_cb.2.closed_ = true := by
  rw [uv_alloc_cb]
  split
  · rfl
  · exact h

/-- The buffer offered is inside the free part of the ring. -/
theorem uv_alloc_cb_len_le {ch : Channel}
    (h : ch.recv_buffer.readableBytes < ch.recv_buffer.capacity) :
    ch.uv_alloc_cb.1.len ≤ ch.recv_buffer.capacity - ch.recv_buffer.readableBytes := by
  have hle := linearWritablePtr_le ch.recv_buffer
  rw [writableBytes_eq] at hle
  rw [uv_alloc_cb]
  split
  · show 1 ≤ _
    omega
  · exact hle

end Channel

/-- A receiver, and the bytes of the stream that have not been read. -/
structure Reading where
  recv : Receiver
  rest : List UInt8

/-- A read: how many bytes the kernel delivers, and the length of the loop's scratch
    buffer at that moment. -/
structure Segment where
  len : Nat
  maxPackBodyLen : Nat

namespace Reading

/-- A receiver before the first byte. -/
def init (ch : Channel) (stream : List UInt8) : Reading :=
  { recv := .init ch, rest := stream }

/-- A read is attempted while bytes remain. -/
def step (realloc : Nat → Bool) (s : Reading) (seg : Segment) : Option Reading :=
  if s.rest ≠ [] ∧ seg.len ≤ s.rest.length then
    (s.recv.step realloc { bytes := s.rest.take seg.len, maxPackBodyLen := seg.maxPackBodyLen }).map
      fun recv => { recv := recv, rest := s.rest.drop seg.len }
  else none

/-- No further read: the stream is used up, or the channel has been closed. -/
def Finished (s : Reading) : Prop :=
  s.rest = [] ∨ s.recv.chan.closed_ = true

/-- What an open receiver and what a closed one has made of `stream`. -/
inductive Inv (mode : ProtoMode) (cap : Nat) (stream : List UInt8) (s : Reading) : Prop where
  /-- it waits behind the bytes `got` for the rest of a frame -/
  | opened (got : List UInt8) (hopen : s.recv.chan.closed_ = false)
      (hmode : s.recv.chan.proto_mode = mode)
      (hcap : s.recv.chan.recv_buffer.capacity = cap) (hstream : got ++ s.rest = stream)
      (hdrains : Drains (within (cut mode) cap) got s.recv.packets
        s.recv.chan.recv_buffer.contents)
      (hwaits : cut mode s.recv.chan.recv_buffer.contents = .incomplete)
  /-- the stream holds an illegal front behind the packets -/
  | closed (r : List UInt8) (hclosed : s.recv.chan.closed_ = true)
      (hdrains : Drains (within (cut mode) cap) stream s.recv.packets r)
      (hillegal : within (cut mode) cap r = .illegal)

/-- It holds before the first byte. -/
theorem inv_init {ch : Channel} (hnew : ch.recv_buffer.contents = []) (hopen : ch.closed_ = false)
    (stream : List UInt8) :
    Inv ch.proto_mode ch.recv_buffer.capacity stream (init ch stream) := by
  have hwaits : cut ch.proto_mode ch.recv_buffer.contents = .incomplete := by
    rw [hnew]; exact cut_nil _
  have hdrains : Drains (within (cut ch.proto_mode) ch.recv_buffer.capacity) [] []
      ch.recv_buffer.contents := by
    rw [hnew]
    apply Drains.stop
    intro n
    rw [within_of_le (Nat.zero_le _), cut_nil]
    exact nofun
  exact .opened [] hopen rfl rfl rfl hdrains hwaits

/-- What a step is: a read within the offered buffer, of the next bytes. -/
theorem step_cases {realloc : Nat → Bool} {s s' : Reading} {seg : Segment}
    (h : step realloc s seg = some s') :
    s.rest ≠ [] ∧ (s.rest.take seg.len).length ≤ s.recv.chan.uv_alloc_cb.1.len ∧
    ∃ out, out = readEvent realloc (fun _ => false) (s.rest.take seg.len) s.recv.chan
        seg.maxPackBodyLen ∧
      s' = { recv := { chan := out.chan, packets := s.recv.packets ++ out.packets }
             rest := s.rest.drop seg.len } := by
  simp only [step] at h
  split at h
  · rename_i hrest
    obtain ⟨recv, hrecv, rfl⟩ := Option.map_eq_some_iff.mp h
    obtain ⟨hwin, rfl⟩ := Receiver.step_eq hrecv
    exact ⟨hrest.1, hwin, _, rfl, rfl⟩
  · exact nomatch h

/-- One read keeps the invariant.  An open receiver with room drains the bytes behind
    what it holds; a full one is closed by `uv_alloc_cb`, in front of at least one more
    byte; a closed one throws the bytes away. -/
theorem inv_step {mode : ProtoMode} {cap : Nat} {stream : List UInt8} {realloc : Nat → Bool}
    (hgrow : ∀ n ≤ MAX_PACKET_SIZE, realloc n = true) {s s' : Reading} {seg : Segment}
    (h : Inv mode cap stream s) (hstep : step realloc s seg = some s') :
    Inv mode cap stream s' := by
  obtain ⟨hmore, hwin, out, hout, rfl⟩ := step_cases hstep
  have hstable := (stable_cut mode).within cap
  cases h with
  | closed r hclosed hdrains hillegal =>
    obtain ⟨hnone, hstill⟩ := readEvent_closed realloc (s.rest.take seg.len) seg.maxPackBodyLen
      (uv_alloc_cb_closed hclosed)
    rw [← hout] at hnone hstill
    have hsame : Drains (within (cut mode) cap) stream (s.recv.packets ++ out.packets) r := by
      rw [hnone, List.append_nil]
      exact hdrains
    exact .closed r hstill hsame hillegal
  | opened got hopen hmode hcap hstream hdrains hwaits =>
    have hle := s.recv.chan.recv_buffer.readableBytes_le
    by_cases hfull : s.recv.chan.recv_buffer.readableBytes = cap
    · -- the ring is full of an incomplete frame
      obtain ⟨hnone, hclosed⟩ := readEvent_closed realloc (s.rest.take seg.len)
        seg.maxPackBodyLen (uv_alloc_cb_full (hfull.trans hcap.symm))
      rw [← hout] at hnone hclosed
      have hillegal : within (cut mode) cap (s.recv.chan.recv_buffer.contents ++ s.rest) =
          .illegal := within_of_full hwaits (by rw [length_contents, hfull]) hmore
      have hsame : Drains (within (cut mode) cap) stream (s.recv.packets ++ out.packets)
          (s.recv.chan.recv_buffer.contents ++ s.rest) := by
        rw [hnone, ← hstream]
        exact hdrains.append hstable (.stop fun n hn => by rw [hillegal] at hn; exact nomatch hn)
      exact .closed _ hclosed hsame hillegal
    · -- the bytes fit, so the bounded view of them is the plain one
      have hroom : s.recv.chan.recv_buffer.readableBytes < s.recv.chan.recv_buffer.capacity := by
        omega
      obtain ⟨hread, hmode', hcap', hclosed⟩ := readEvent_drains seg.maxPackBodyLen hgrow hwin
        hopen hroom (by rw [hmode]; exact hwaits) hout
      rw [hmode] at hread hclosed
      have hfit : (s.recv.chan.recv_buffer.contents ++ s.rest.take seg.len).length ≤ cap := by
        have := uv_alloc_cb_len_le hroom
        rw [List.length_append, length_contents]
        omega
      have hall := hdrains.append hstable (hread.within hfit)
      have hgot : got ++ s.rest.take seg.len ++ s.rest.drop seg.len = stream := by
        rw [List.append_assoc, List.take_append_drop]
        exact hstream
      have hrest : out.chan.recv_buffer.contents.length ≤ cap := by
        rw [length_contents, ← hcap, ← hcap']
        exact out.chan.recv_buffer.readableBytes_le
      cases hcl : out.chan.closed_ with
      | true =>
        have hbad : within (cut mode) cap out.chan.recv_buffer.contents = .illegal :=
          (within_of_le hrest).trans (hclosed.mp hcl)
        -- the bytes still to come stand behind an illegal front
        have hend := hall.append_illegal hstable hbad (s.rest.drop seg.len)
        rw [hgot] at hend
        exact .closed _ hcl hend (hstable.illegal_append _ hbad)
      | false =>
        refine .opened _ hcl (hmode'.trans hmode) (hcap'.trans hcap) hgot hall ?_
        show cut mode out.chan.recv_buffer.contents = .incomplete
        cases hc : cut mode out.chan.recv_buffer.contents with
        | incomplete => rfl
        | illegal => rw [hclosed.mpr hc] at hcl; exact nomatch hcl
        | frame n => exact absurd hc (hread.rest_ne_frame n)

/-- Any number of reads keeps the invariant. -/
theorem inv_run {ch : Channel} {stream : List UInt8} {realloc : Nat → Bool}
    (hgrow : ∀ n ≤ MAX_PACKET_SIZE, realloc n = true)
    (hnew : ch.recv_buffer.contents = []) (hopen : ch.closed_ = false) {segs : List Segment}
    {s : Reading} (hrun : Run.run (step realloc) (init ch stream) segs = some s) :
    Inv ch.proto_mode ch.recv_buffer.capacity stream s :=
  Run.invariant (fun _ _ _ h hs => inv_step hgrow h hs) (inv_init hnew hopen stream) hrun

/-- When there is no further read, the packets are those of the whole stream, and the
    channel is closed exactly if the stream goes on with an illegal front. -/
theorem drains_of_finished {mode : ProtoMode} {cap : Nat} {stream : List UInt8} {s : Reading}
    (h : Inv mode cap stream s) (hend : s.Finished) :
    ∃ r, Drains (within (cut mode) cap) stream s.recv.packets r ∧
      (s.recv.chan.closed_ = true ↔ within (cut mode) cap r = .illegal) := by
  cases h with
  | closed r hclosed hdrains hillegal => exact ⟨r, hdrains, by simp [hclosed, hillegal]⟩
  | opened got hopen hmode hcap hstream hdrains hwaits =>
    have hdone : s.rest = [] := by
      cases hend with
      | inl hdone => exact hdone
      | inr hclosed => rw [hopen] at hclosed; exact nomatch hclosed
    rw [hdone, List.append_nil] at hstream
    have hrest : s.recv.chan.recv_buffer.contents.length ≤ cap := by
      rw [length_contents, ← hcap]
      exact s.recv.chan.recv_buffer.readableBytes_le
    refine ⟨_, hstream ▸ hdrains, ?_⟩
    rw [within_of_le hrest, hwaits, hopen]
    simp

/-- Segmentation independence.  Two open channels of one link mode and one ring
    capacity, with nothing in their rings, get the same stream, any bytes.  However it
    is cut into reads, each within the buffer `uv_alloc_cb` offers, a read being
    attempted as long as bytes remain and the channel is open: the same packets are
    handed to `on_read`, and the channels end closed both or neither. -/
theorem segmentation_independent (ch ch' : Channel) (stream : List UInt8)
    (hmode : ch'.proto_mode = ch.proto_mode)
    (hcap : ch'.recv_buffer.capacity = ch.recv_buffer.capacity)
    (hnew : ch.recv_buffer.contents = [] ∧ ch'.recv_buffer.contents = [])
    (hopen : ch.closed_ = false ∧ ch'.closed_ = false)
    {realloc : Nat → Bool} (hgrow : ∀ n ≤ MAX_PACKET_SIZE, realloc n = true)
    {segs segs' : List Segment} {s s' : Reading}
    (hrun : Run.run (step realloc) (init ch stream) segs = some s)
    (hrun' : Run.run (step realloc) (init ch' stream) segs' = some s')
    (hend : s.Finished) (hend' : s'.Finished) :
    s.recv.packets = s'.recv.packets ∧ s.recv.chan.closed_ = s'.recv.chan.closed_ := by
  have hinv := inv_run hgrow hnew.1 hopen.1 hrun
  have hinv' := inv_run hgrow hnew.2 hopen.2 hrun'
  rw [hmode, hcap] at hinv'
  obtain ⟨r, hdrains, hclosed⟩ := drains_of_finished hinv hend
  obtain ⟨r', hdrains', hclosed'⟩ := drains_of_finished hinv' hend'
  obtain ⟨hpackets, rfl⟩ := hdrains.unique hdrains'
  exact ⟨hpackets, Bool.eq_iff_iff.mpr (hclosed.trans hclosed'.symm)⟩

/-- A message, and behind it the start of a frame of 204 bytes that rings of 31 bytes
    cannot hold, in two segmentations.  Both channels hand over the message and end
    closed. -/
theorem segmentation_independent_oversized :
    let ch := Channel.new zeroed 1 24 24 .CLIENT
    let stream := OutMsg.frame .CLIENT ⟨7, [1, 2, 3], 0⟩ ++
      [0, 0, 0, 200, 0, 0, 0, 1, 65, 84, 72, 65] ++ List.replicate 20 9
    ∃ s s', Run.run (step fun _ => true) (init ch stream) [⟨31, 0⟩, ⟨1, 0⟩, ⟨14, 0⟩, ⟨1, 0⟩] =
        some s ∧
      Run.run (step fun _ => true) (init ch stream)
        [⟨5, 0⟩, ⟨20, 0⟩, ⟨7, 0⟩, ⟨14, 0⟩, ⟨1, 0⟩] = some s' ∧
      s.recv.packets = s'.recv.packets ∧ s.recv.chan.closed_ = s'.recv.chan.closed_ := by
  intro ch stream
  have hended : (Run.run (step fun _ => true) (init ch stream)
        [⟨31, 0⟩, ⟨1, 0⟩, ⟨14, 0⟩, ⟨1, 0⟩]).map Reading.rest = some [] ∧
      (Run.run (step fun _ => true) (init ch stream)
        [⟨5, 0⟩, ⟨20, 0⟩, ⟨7, 0⟩, ⟨14, 0⟩, ⟨1, 0⟩]).map Reading.rest = some [] := by
    decide
  obtain ⟨s, hrun, hrest⟩ := Option.map_eq_some_iff.mp hended.1
  obtain ⟨s', hrun', hrest'⟩ := Option.map_eq_some_iff.mp hended.2
  have hnew : ch.recv_buffer.contents = [] := new_contents (newBuffer_eq zeroed 24)
  have hopen : ch.closed_ = false := rfl
  exact ⟨s, s', hrun, hrun', segmentation_independent ch ch stream rfl rfl
    ⟨hnew, hnew⟩ ⟨hopen, hopen⟩ (fun _ _ => rfl) hrun hrun' (.inl hrest) (.inl hrest')⟩

end Reading

end Athena
