import Athena.Spec.HeaderCheck
import Athena.Spec.SendPath

/-!
# From one channel's send ring to the other's `on_read`

The bytes of a `Sender`, in whatever pieces they arrive at a channel of the same
link mode, come out of its parse loop as the packets of the messages sent, and
`parseHeader` gives the messages back.

## Key results

- `parseHeader_frame`: decoding a frame gives the message
- `Receiver.frames_run`: a receiver that gets part of a stream of frames stays open
  and hands over a prefix of them
- `Receiver.frame_round_trip`: the messages of a sender arrive
-/

namespace Athena

open Channel RingByteBuf Framing Endian ByteUtils

/-! ## Decoding a frame -/

/-- What `parseHeader` makes of the message's packet. -/
def OutMsg.decoded (mode : ProtoMode) (m : OutMsg) : DecodedMsg where
  msgId := m.msgId
  body := some m.body
  bodyLen := m.body.length
  playerId := match mode with
    | .INNER => m.playerId
    | .CLIENT => 0

/-- An `int64` in the range of `int32` survives the four-byte field. -/
theorem toInt64_toInt32 {x : Int64} (h : -2 ^ 31 ≤ x.toInt ∧ x.toInt < 2 ^ 31) :
    x.toInt32.toInt64 = x := by
  apply Int64.toInt_inj.mp
  rw [Int32.toInt_toInt64, Int64.toInt_toInt32]
  exact Int.bmod_eq_of_le (by omega) (by omega)

/-- `parseHeader` of a frame gives the message. -/
theorem parseHeader_frame {mode : ProtoMode} {m : OutMsg}
    (h : -2 ^ 31 ≤ m.playerId.toInt ∧ m.playerId.toInt < 2 ^ 31) :
    Decoder.parseHeader mode (some (m.frame mode)) {} = m.decoded mode := by
  rw [OutMsg.frame, parseHeader_frame_eq, toInt64_toInt32 h]
  rfl

/-! ## A receiving channel -/

/-- One read: the bytes, and the length of the loop's scratch buffer at that moment
    (the channels of a loop share it). -/
structure Read where
  bytes : List UInt8
  maxPackBodyLen : Nat

/-- A receiving channel and the packets it has handed to `on_read`. -/
structure Receiver where
  chan : Channel
  packets : List (List UInt8)

namespace Receiver

/-- A receiver with a new channel. -/
def init (ch : Channel) : Receiver :=
  { chan := ch, packets := [] }

/-- One read, no longer than the buffer `uv_alloc_cb` offers for it. -/
def step (realloc : Nat → Bool) (r : Receiver) (rd : Read) : Option Receiver :=
  if rd.bytes.length ≤ r.chan.uv_alloc_cb.1.len then
    let out := readEvent realloc (fun _ => false) rd.bytes r.chan rd.maxPackBodyLen
    some { chan := out.chan, packets := r.packets ++ out.packets }
  else none

/-- What a read that fits does. -/
theorem step_eq {realloc : Nat → Bool} {r r' : Receiver} {rd : Read}
    (h : step realloc r rd = some r') : rd.bytes.length ≤ r.chan.uv_alloc_cb.1.len ∧
      r' = { chan := (readEvent realloc (fun _ => false) rd.bytes r.chan rd.maxPackBodyLen).chan
             packets := r.packets ++
               (readEvent realloc (fun _ => false) rd.bytes r.chan rd.maxPackBodyLen).packets } := by
  rw [step] at h
  split at h
  · rename_i hfit
    exact ⟨hfit, (Option.some.inj h).symm⟩
  · exact nomatch h

/-- The state of an open receiver that got the bytes `got`. -/
structure Inv (mode : ProtoMode) (cap : Nat) (got : List UInt8) (r : Receiver) : Prop where
  mode_eq : r.chan.proto_mode = mode
  capacity_eq : r.chan.recv_buffer.capacity = cap
  opened : r.chan.closed_ = false
  drains : Drains (cut mode) got r.packets r.chan.recv_buffer.contents

/-- One read of the next bytes of a stream of frames, each of which the ring can
    hold. -/
theorem inv_step {mode : ProtoMode} {cap : Nat} {got rest : List UInt8} {r r' : Receiver}
    {rd : Read} {fs : List (List UInt8)} {realloc : Nat → Bool}
    (hgrow : ∀ n ≤ MAX_PACKET_SIZE, realloc n = true)
    (hfs : ∀ f ∈ fs, ∀ s, cut mode (f ++ s) = .frame f.length) (hcap : ∀ f ∈ fs, f.length ≤ cap)
    (hstream : got ++ (rd.bytes ++ rest) = fs.flatten) (h : Inv mode cap got r)
    (hstep : step realloc r rd = some r') : Inv mode cap (got ++ rd.bytes) r' := by
  obtain ⟨hwin, rfl⟩ := step_eq hstep
  -- what is left in the ring is part of the next frame
  obtain ⟨qs, hqs, hleft⟩ := drains_rest (stable_cut mode) (cut_nil mode) hfs hstream h.drains
  have hqfs : ∀ q ∈ qs, ∀ s, cut mode (q ++ s) = .frame q.length := fun q hq =>
    hfs q (hqs ▸ List.mem_append_right _ hq)
  have hrest : cut r.chan.proto_mode r.chan.recv_buffer.contents = .incomplete := by
    rw [h.mode_eq]
    cases hc : cut mode r.chan.recv_buffer.contents with
    | incomplete => rfl
    | illegal => exact absurd hc (ne_illegal (stable_cut mode) (cut_nil mode) hqfs hleft)
    | frame n => exact absurd hc (h.drains.rest_ne_frame n)
  have hroom : r.chan.recv_buffer.readableBytes < r.chan.recv_buffer.capacity := by
    rw [← length_contents]
    rcases length_lt_of_incomplete hqfs h.drains.rest_ne_frame hleft with hnil | ⟨q, hq, hlt⟩
    · rw [hnil]; exact capacity_pos _
    · have := hcap q (hqs ▸ List.mem_append_right _ hq)
      rw [h.capacity_eq]; omega
  obtain ⟨hdrain, hmode, hcap', hclosed⟩ :=
    readEvent_drains rd.maxPackBodyLen hgrow hwin h.opened hroom hrest rfl
  rw [h.mode_eq] at hdrain hclosed hmode
  have hall := h.drains.append (stable_cut mode) hdrain
  refine ⟨hmode, hcap'.trans h.capacity_eq, ?_, hall⟩
  -- the stream has no illegal header
  obtain ⟨qs', hqs', hleft'⟩ := drains_rest (stable_cut mode) (cut_nil mode) hfs
    (by rw [List.append_assoc]; exact hstream) hall
  have hlegal := ne_illegal (stable_cut mode) (cut_nil mode)
    (fun q hq => hfs q (hqs' ▸ List.mem_append_right _ hq)) hleft'
  simpa using fun hcl => hlegal (hclosed.mp hcl)

/-- Reading part of a stream of frames keeps the receiver open and hands over a
    prefix of the frames; reading all of it hands over all of them. -/
theorem frames_run {ch : Channel} {fs : List (List UInt8)} {realloc : Nat → Bool}
    (hgrow : ∀ n ≤ MAX_PACKET_SIZE, realloc n = true)
    (hnew : ch.recv_buffer.contents = []) (hopen : ch.closed_ = false)
    (hfs : ∀ f ∈ fs, ∀ s, cut ch.proto_mode (f ++ s) = .frame f.length)
    (hcap : ∀ f ∈ fs, f.length ≤ ch.recv_buffer.capacity) {reads : List Read}
    {rest : List UInt8} (hstream : (reads.map Read.bytes).flatten ++ rest = fs.flatten)
    {r : Receiver} (hrun : Run.run (step realloc) (init ch) reads = some r) :
    r.chan.closed_ = false ∧ r.packets <+: fs ∧ (rest = [] → r.packets = fs) := by
  suffices hinv : Inv ch.proto_mode ch.recv_buffer.capacity (reads.map Read.bytes).flatten r by
    obtain ⟨qs, hqs, -⟩ := drains_rest (stable_cut _) (cut_nil _) hfs hstream hinv.drains
    refine ⟨hinv.opened, ⟨qs, hqs.symm⟩, ?_⟩
    rintro rfl
    rw [List.append_nil] at hstream
    have hall := Drains.flatten (cut_nil ch.proto_mode) hfs
    rw [← hstream] at hall
    exact (hinv.drains.unique hall).1
  -- induction on the reads, with the bytes read before them
  have hstart : Inv ch.proto_mode ch.recv_buffer.capacity [] (init ch) :=
    ⟨rfl, rfl, hopen, by rw [init, hnew]; exact .stop (by simp [cut_nil])⟩
  have key : ∀ (reads : List Read) (got : List UInt8) (r₀ : Receiver),
      Inv ch.proto_mode ch.recv_buffer.capacity got r₀ →
      got ++ ((reads.map Read.bytes).flatten ++ rest) = fs.flatten →
      Run.run (step realloc) r₀ reads = some r →
      Inv ch.proto_mode ch.recv_buffer.capacity (got ++ (reads.map Read.bytes).flatten) r := by
    intro reads
    induction reads with
    | nil =>
      intro got r₀ h₀ _ hr
      obtain rfl := Option.some.inj hr
      simpa using h₀
    | cons rd reads ih =>
      intro got r₀ h₀ hs hr
      obtain ⟨m, hm, hr⟩ := Run.run_cons hr
      simp only [List.map_cons, List.flatten_cons, List.append_assoc] at hs ⊢
      have hm' := inv_step hgrow hfs hcap hs h₀ hm
      rw [← List.append_assoc]
      exact ih _ _ hm' (by simpa [List.append_assoc] using hs) hr
  simpa using key reads [] _ hstart (by simpa using hstream) hrun

/-- Frame protocol round trip.  `s` is any sender, `s.frames` the messages it put into
    its send ring and `s.written` followed by the ring's contents their bytes; the
    receiver is a new channel of the same link mode whose ring can hold each frame.
    However the bytes are cut into reads, the receiver is never closed, what it has
    handed over at any moment is a prefix of the messages, and when all bytes have been
    read it is the messages. -/
theorem frame_round_trip (malloc malloc' : Malloc) (id id' : UInt32)
    (recvSize sendSize recvSize' sendSize' : UInt64) (mode : ProtoMode)
    (acts : List SendAct) (s : Sender)
    (hsend : Run.run Sender.step (Sender.init (Channel.new malloc id recvSize sendSize mode)) acts =
      some s)
    (hpid : ∀ m ∈ s.frames, -2 ^ 31 ≤ m.playerId.toInt ∧ m.playerId.toInt < 2 ^ 31)
    (hcap : ∀ m ∈ s.frames, (m.frame mode).length ≤
      (Channel.new malloc' id' recvSize' sendSize' mode).recv_buffer.capacity)
    (realloc : Nat → Bool) (hgrow : ∀ n ≤ MAX_PACKET_SIZE, realloc n = true)
    (reads : List Read) (rest : List UInt8)
    (hstream : (reads.map Read.bytes).flatten ++ rest = s.written ++ s.chan.send_buff.contents)
    (r : Receiver)
    (hrecv : Run.run (step realloc) (init (Channel.new malloc' id' recvSize' sendSize' mode)) reads =
      some r) :
    r.chan.closed_ = false ∧
    (r.packets.map fun p => Decoder.parseHeader mode (some p) {}) <+:
      s.frames.map (OutMsg.decoded mode) ∧
    (rest = [] →
      (r.packets.map fun p => Decoder.parseHeader mode (some p) {}) =
        s.frames.map (OutMsg.decoded mode)) := by
  -- what is sent is the frames in order, written or still in the buffer
  have hsound := (Sender.inv_run (new_contents (newBuffer_eq malloc sendSize)) hsend).sound
  obtain ⟨hmode, hmax⟩ := Sender.frames_run hsend
  have hbytes := hsound.stream
  rw [show s.chan.proto_mode = mode from hmode] at hbytes
  -- each frame is cut where it ends, and its header is what was sent
  have hframe : ∀ f ∈ s.frames.map (OutMsg.frame mode), ∀ t,
      cut mode (f ++ t) = .frame f.length := by
    simp only [List.forall_mem_map]
    exact fun m hm t => cut_frame m.msgId m.playerId (hmax m hm) t
  have hdecode : (s.frames.map (OutMsg.frame mode)).map
      (fun p => Decoder.parseHeader mode (some p) {}) = s.frames.map (OutMsg.decoded mode) := by
    rw [List.map_map]
    exact List.map_congr_left fun m hm => parseHeader_frame (hpid m hm)
  -- so the receiver cuts these frames, however the bytes are split
  obtain ⟨hopen, hprefix, hall⟩ := frames_run hgrow (new_contents (newBuffer_eq malloc' recvSize'))
    rfl hframe (by simpa only [List.forall_mem_map] using hcap) (hstream.trans hbytes) hrecv
  rw [← hdecode]
  exact ⟨hopen, hprefix.map _, fun hr => by rw [hall hr]⟩

/-- Two messages through rings of 31 bytes, the second frame wrapping in both, read in
    four pieces that cut the first header and the second body. -/
theorem frame_round_trip_wrapped :
    let msgs : List OutMsg := [⟨-7, [1, 2, 3], 5⟩, ⟨300, [4, 5, 6, 7, 8], -9⟩]
    let bytes := (msgs.map (OutMsg.frame .INNER)).flatten
    let reads : List Read := [⟨bytes.take 3, 8192⟩, ⟨(bytes.drop 3).take 25, 8192⟩,
      ⟨(bytes.drop 28).take 4, 8192⟩, ⟨bytes.drop 32, 8192⟩]
    ∃ r, Run.run (step fun _ => true) (init (Channel.new zeroed 2 24 24 .INNER)) reads = some r ∧
      r.chan.closed_ = false ∧
      (r.packets.map fun p => Decoder.parseHeader .INNER (some p) {}) =
        msgs.map (OutMsg.decoded .INNER) := by
  intro msgs bytes reads
  have hsent : (Run.run Sender.step (Sender.init (Channel.new zeroed 1 24 24 .INNER))
      [.rawWrite false 0 ⟨-7, [1, 2, 3], 5⟩, .writeDone 0 0 0,
        .rawWrite false 0 ⟨300, [4, 5, 6, 7, 8], -9⟩]).map
      (fun s => (s.frames, s.written ++ s.chan.send_buff.contents)) = some (msgs, bytes) := by
    decide
  obtain ⟨s, hsend, hs⟩ := Option.map_eq_some_iff.mp hsent
  obtain ⟨hframes, hbytes⟩ := Prod.mk.inj hs
  obtain ⟨r, hrecv⟩ := Option.isSome_iff_exists.mp (show (Run.run (step fun _ => true)
    (init (Channel.new zeroed 2 24 24 .INNER)) reads).isSome from by decide)
  have h := frame_round_trip zeroed zeroed 1 2 24 24 24 24 .INNER _ s hsend
    (by rw [hframes]; decide) (by rw [hframes]; decide +kernel) (fun _ => true)
    (fun _ _ => rfl) reads [] (by rw [hbytes]; decide) r hrecv
  rw [hframes] at h
  exact ⟨r, hrecv, h.1, h.2.2 rfl⟩

end Receiver

end Athena
