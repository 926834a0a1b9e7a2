import Athena.ForStd.Framing
import Athena.Native.Decoder
import Athena.Spec.Frame

/-!
# The parse loop cuts the receive ring into frames

`Channel.cut` states what `peekNextPackLen` decides, on the bytes in the ring
instead of the ring.  The loop of `uv_read_cb` then drains the ring's contents
(`parseLoop_drains`), and one read appends its bytes and drains
(`readEvent_drains`).

## Key results

- `stable_cut`: later bytes do not change what `cut` answers
- `parseLoop_fuel`: the loop has turns left when it stops
- `readEvent_drains`: what one read hands to `on_read` and leaves in the ring
- `cut_frame`: a frame is recognised, whatever follows it
-/

namespace Athena.Channel

open Endian ByteUtils RingByteBuf Framing

/-- What stands at the front of a byte stream on a link of the given mode. -/
def cut (mode : ProtoMode) (s : List UInt8) : Cut :=
  if s.length < headerLen mode then .incomplete
  else if (readInt32 s).toNat > MAX_PACKET_SIZE - 4 then .illegal
  else if readInt32 (s.drop (magicOff mode)) ≠ MAGIC_NUM then .illegal
  else if (readInt32 s).toNat > s.length - 4 then .incomplete
  else .frame ((readInt32 s).toNat + 4)

/-- The magic number ends the header. -/
theorem headerLen_eq (mode : ProtoMode) : headerLen mode = magicOff mode + 4 := by
  cases mode <;> rfl

/-! ## `cut` and later bytes -/

/-- A field inside the first bytes does not depend on what follows. -/
theorem readInt32_drop_append {s : List UInt8} {i : Nat} (h : i + 4 ≤ s.length)
    (t : List UInt8) : readInt32 ((s ++ t).drop i) = readInt32 (s.drop i) := by
  have hfour := readInt32_take (Nat.le_refl 4)
  rw [← hfour, ← hfour (s.drop i), List.drop_append_of_le_length (by omega),
    List.take_append_of_le_length (by rw [List.length_drop]; omega)]

/-- Later bytes do not change what is read. -/
theorem readInt32_append {s : List UInt8} (h : 4 ≤ s.length) (t : List UInt8) :
    readInt32 (s ++ t) = readInt32 s :=
  readInt32_drop_append (i := 0) (by omega) t

/-- A whole header decides about illegality, and together with the whole frame about
    the frame. -/
theorem stable_cut (mode : ProtoMode) : Stable (cut mode) where
  frame_pos {s n} h := by
    -- each refusal contradicts that a frame was cut
    simp only [cut] at h
    split at h; · exact nomatch h
    split at h; · exact nomatch h
    split at h; · exact nomatch h
    split at h; · exact nomatch h
    have := Cut.frame.inj h
    omega
  frame_le {s n} h := by
    simp only [cut] at h
    split at h; · exact nomatch h
    rename_i hlen
    split at h; · exact nomatch h
    split at h; · exact nomatch h
    split at h; · exact nomatch h
    have := Cut.frame.inj h
    have := headerLen_eq mode
    omega
  frame_append {s n} t h := by
    simp only [cut] at h ⊢
    -- the header is inside `s`, so what follows changes none of the four tests
    split at h; · exact nomatch h
    rename_i hlen
    have hhdr := headerLen_eq mode
    rw [readInt32_append (by omega), readInt32_drop_append (by omega)]
    split at h; · exact nomatch h
    split at h; · exact nomatch h
    split at h; · exact nomatch h
    rw [if_neg (by rw [List.length_append]; omega), if_neg (by assumption),
      if_neg (by assumption), if_neg (by rw [List.length_append]; omega)]
    exact h
  illegal_append {s} t h := by
    simp only [cut] at h ⊢
    split at h; · exact nomatch h
    rename_i hlen
    -- as above: the header decides
    have hhdr := headerLen_eq mode
    rw [readInt32_append (by omega), readInt32_drop_append (by omega),
      if_neg (by rw [List.length_append]; omega)]
    split at h
    · rename_i hmax; rw [if_pos hmax]
    · rename_i hmax
      rw [if_neg hmax]
      split at h
      · rename_i hmagic; rw [if_pos hmagic]
      · split at h <;> exact nomatch h

/-- Nothing is cut from no bytes. -/
theorem cut_nil (mode : ProtoMode) : cut mode [] = .incomplete := by
  have := headerLen_eq mode
  rw [cut, if_pos (by simp; omega)]

/-- The magic number and the body of a frame. -/
theorem drop_frame_magicOff (mode : ProtoMode) (msgId : Int32) (body : List UInt8)
    (playerId : Int64) :
    (frame mode msgId body playerId).drop (magicOff mode) = bigEndian MAGIC_NUM ++ body := by
  cases mode <;> rfl

/-- A frame within the size limit is recognised, whatever follows it. -/
theorem cut_frame {mode : ProtoMode} (msgId : Int32) {body : List UInt8} (playerId : Int64)
    (hmax : body.length + headerLen mode ≤ MAX_PACKET_SIZE) (s : List UInt8) :
    cut mode (frame mode msgId body playerId ++ s) =
      .frame (frame mode msgId body playerId).length := by
  have hover : lenOverhead mode + 4 = headerLen mode := by cases mode <;> rfl
  have hlen : (UInt32.ofNat (body.length + lenOverhead mode)).toNat =
      body.length + lenOverhead mode := by
    simp only [MAX_PACKET_SIZE] at hmax
    rw [UInt32.toNat_ofNat']; omega
  have htot := length_frame mode msgId body playerId
  have hhdr := headerLen_eq mode
  have hfield : readInt32 (frame mode msgId body playerId ++ s) =
      UInt32.ofNat (body.length + lenOverhead mode) := by
    rw [frame, List.append_assoc, readInt32_bigEndian]
  have hmagic : readInt32 ((frame mode msgId body playerId ++ s).drop (magicOff mode)) =
      MAGIC_NUM := by
    rw [readInt32_drop_append (by omega), drop_frame_magicOff, readInt32_bigEndian]
  rw [cut, if_neg (by rw [List.length_append]; omega), hfield, hmagic, hlen,
    if_neg (by omega), if_neg (by simp), if_neg (by rw [List.length_append]; omega), htot]
  congr 1
  omega

/-- No recognised frame is longer than the limit. -/
theorem cut_frame_le {mode : ProtoMode} {s : List UInt8} {n : Nat} (h : cut mode s = .frame n) :
    n ≤ MAX_PACKET_SIZE := by
  simp only [cut] at h
  split at h; · exact nomatch h
  split at h; · exact nomatch h
  split at h; · exact nomatch h
  split at h; · exact nomatch h
  have := Cut.frame.inj h
  simp only [MAX_PACKET_SIZE] at *
  omega

/-! ## `peekNextPackLen` and `getPack` -/

/-- `peekNextPackLen` computes `cut` of the ring's contents. -/
theorem peekNextPackLen_eq (ch : Channel) :
    ch.peekNextPackLen = match cut ch.proto_mode ch.recv_buffer.contents with
      | .incomplete => -1
      | .illegal => -2
      | .frame n => n := by
  have hrd : ch.recv_buffer.readableBytes < 2 ^ 31 :=
    Nat.lt_of_le_of_lt ch.recv_buffer.readableBytes_le ch.recv_capacity_lt
  have hhdr := headerLen_eq ch.proto_mode
  simp only [peekNextPackLen, cut, toCInt_eq hrd, peek_eq, length_contents]
  by_cases hlen : ch.recv_buffer.readableBytes < headerLen ch.proto_mode
  · rw [if_pos (by omega), if_pos hlen]
  · rw [if_neg (by omega), if_neg hlen, readInt32_take (by omega), List.drop_take,
      readInt32_take (by omega)]
    have hsub : ((ch.recv_buffer.readableBytes : Int) - 4).toNat =
        ch.recv_buffer.readableBytes - 4 := by omega
    rw [hsub]
    split
    · rfl
    · split
      · rfl
      · split
        · rfl
        · simp

/-- `getPack` takes the front of the ring's contents. -/
theorem getPack_spec (ch : Channel) (n : Nat) :
    (ch.getPack n).1 = ch.recv_buffer.contents.take n ∧
      (ch.getPack n).2.recv_buffer.contents = ch.recv_buffer.contents.drop n ∧
      (ch.getPack n).2.recv_buffer.capacity = ch.recv_buffer.capacity :=
  ⟨read_eq _ n, read_contents _ n, capacity_read _ n⟩

/-! ## The loop -/

/-- One turn, in terms of `cut`: `c` is the channel at the test of `isClosed()`. -/
theorem parseTurn_eq (realloc : Nat → Bool) {closes : Bool} {ch c : Channel} (maxLen : Nat)
    (hc : c = if closes then ch.close else ch) :
    parseTurn realloc closes ch maxLen =
      if c.closed_ then .leave c
      else
        match cut c.proto_mode c.recv_buffer.contents with
        | .incomplete => .leave c
        | .illegal => .leave c.close
        | .frame n =>
          match getPacketBuff realloc maxLen n with
          | none => .leave c.close
          | some maxLen => .packet (c.getPack n).1 (c.getPack n).2 maxLen := by
  have hpeek := peekNextPackLen_eq c
  simp only [parseTurn, ← hc]
  generalize c.peekNextPackLen = len at hpeek ⊢
  cases hcut : cut c.proto_mode c.recv_buffer.contents with
  | incomplete => rw [hcut] at hpeek; subst hpeek; rfl
  | illegal => rw [hcut] at hpeek; subst hpeek; rfl
  | frame n =>
    rw [hcut] at hpeek
    subst hpeek
    have hneg : ¬(n : Int) < 0 := by omega
    cases hbuff : getPacketBuff realloc maxLen n <;>
      simp only [if_neg hneg, Int.toNat_natCast, hbuff]

/-- A turn that takes a packet takes a recognised frame. -/
theorem parseTurn_packet {realloc : Nat → Bool} {closes : Bool} {ch ch' : Channel}
    {maxLen maxLen' : Nat} {packBuf : List UInt8}
    (h : parseTurn realloc closes ch maxLen = .packet packBuf ch' maxLen') :
    ∃ n, cut ch.proto_mode ch.recv_buffer.contents = .frame n ∧
      packBuf = ch.recv_buffer.contents.take n ∧
      ch'.recv_buffer.contents = ch.recv_buffer.contents.drop n := by
  obtain ⟨c, hc⟩ : ∃ c, c = if closes then ch.close else ch := ⟨_, rfl⟩
  have hring : c.recv_buffer = ch.recv_buffer := by rw [hc]; split <;> rfl
  have hmode : c.proto_mode = ch.proto_mode := by rw [hc]; split <;> rfl
  rw [parseTurn_eq realloc maxLen hc, hring, hmode] at h
  split at h; · exact nomatch h
  cases hcut : cut ch.proto_mode ch.recv_buffer.contents with
  | incomplete => rw [hcut] at h; exact nomatch h
  | illegal => rw [hcut] at h; exact nomatch h
  | frame n =>
    rw [hcut] at h
    simp only at h
    split at h; · exact nomatch h
    obtain ⟨rfl, rfl, -⟩ := Turn.packet.inj h
    obtain ⟨hpack, hrest, -⟩ := getPack_spec c n
    exact ⟨n, rfl, by rw [hpack, hring], by rw [hrest, hring]⟩

/-- A packet leaves fewer readable bytes behind. -/
theorem parseTurn_readable_lt {realloc : Nat → Bool} {closes : Bool} {ch ch' : Channel}
    {maxLen maxLen' : Nat} {packBuf : List UInt8}
    (h : parseTurn realloc closes ch maxLen = .packet packBuf ch' maxLen') :
    ch'.recv_buffer.readableBytes < ch.recv_buffer.readableBytes := by
  obtain ⟨n, hcut, -, hrest⟩ := parseTurn_packet h
  have hpos := (stable_cut _).frame_pos hcut
  have hle := (stable_cut _).frame_le hcut
  rw [← length_contents, ← length_contents, hrest, List.length_drop]
  omega

/-- With more turns than readable bytes the loop leaves by itself: further turns are
    not used. -/
theorem parseLoop_fuel (realloc closing : Nat → Bool) {fuel k : Nat} {ch : Channel} {maxLen : Nat}
    (hfuel : ch.recv_buffer.readableBytes < fuel) (extra : Nat) :
    parseLoop realloc closing (fuel + extra) k ch maxLen =
      parseLoop realloc closing fuel k ch maxLen := by
  induction fuel generalizing k ch maxLen with
  | zero => exact absurd hfuel (Nat.not_lt_zero _)
  | succ fuel ih =>
    rw [show fuel + 1 + extra = (fuel + extra) + 1 by omega, parseLoop, parseLoop]
    cases hturn : parseTurn realloc (closing k) ch maxLen with
    | leave ch' => rfl
    | packet packBuf ch' maxLen' =>
      have hlt := parseTurn_readable_lt hturn
      simp only [ih (show ch'.recv_buffer.readableBytes < fuel by omega)]

/-- With room for every packet and nobody closing the channel, the loop drains the
    ring, and closes the channel exactly when it stops in front of an illegal header. -/
theorem parseLoop_drains {realloc : Nat → Bool} (hgrow : ∀ n ≤ MAX_PACKET_SIZE, realloc n = true)
    {fuel k : Nat} {ch : Channel} {maxLen : Nat} {out : ReadOut}
    (hfuel : ch.recv_buffer.readableBytes < fuel) (hopen : ch.closed_ = false)
    (hout : out = parseLoop realloc (fun _ => false) fuel k ch maxLen) :
    Drains (cut ch.proto_mode) ch.recv_buffer.contents out.packets out.chan.recv_buffer.contents ∧
      out.chan.proto_mode = ch.proto_mode ∧
      out.chan.recv_buffer.capacity = ch.recv_buffer.capacity ∧
      (out.chan.closed_ = true ↔ cut ch.proto_mode out.chan.recv_buffer.contents = .illegal) := by
  induction fuel generalizing k ch maxLen out with
  | zero => exact absurd hfuel (Nat.not_lt_zero _)
  | succ fuel ih =>
    -- what one turn does is what `cut` says of the contents
    have hturn := parseTurn_eq realloc maxLen (show ch = if false then ch.close else ch from rfl)
    simp only [Bool.false_eq_true, if_false, hopen] at hturn
    rw [parseLoop] at hout
    cases hcut : cut ch.proto_mode ch.recv_buffer.contents with
    | incomplete =>
      rw [hcut] at hturn
      rw [hturn] at hout
      subst hout
      exact ⟨.stop (by simp [hcut]), rfl, rfl, by simp [hcut, hopen]⟩
    | illegal =>
      rw [hcut] at hturn
      rw [hturn] at hout
      subst hout
      exact ⟨.stop (by simp [hcut]), rfl, rfl, by simp [Channel.close, hcut]⟩
    | frame n =>
      -- a frame is at most as long as the buffer may grow
      have hbuff : ∃ maxLen', getPacketBuff realloc maxLen n = some maxLen' := by
        rw [getPacketBuff, hgrow n (cut_frame_le hcut)]
        split <;> exact ⟨_, rfl⟩
      obtain ⟨maxLen', hbuff⟩ := hbuff
      simp only [hcut, hbuff] at hturn
      rw [hturn] at hout
      -- the frame leaves, and the rest is shorter
      obtain ⟨hpack, hrest, hcap⟩ := getPack_spec ch n
      have hlt := parseTurn_readable_lt hturn
      obtain ⟨hdrain, hmode, hcap', hclosed⟩ :=
        ih (show (ch.getPack n).2.recv_buffer.readableBytes < fuel by omega) hopen rfl
      subst hout
      rw [hrest] at hdrain
      simp only [hpack]
      exact ⟨.frame hcut hdrain, hmode, hcap'.trans hcap, hclosed⟩

/-! ## One read -/

/-- One read within the offered window, into an open channel whose ring is not full
    and holds no whole frame: the bytes go behind the ring's contents, and the loop
    drains them. -/
theorem readEvent_drains {realloc : Nat → Bool} (maxLen : Nat)
    (hgrow : ∀ n ≤ MAX_PACKET_SIZE, realloc n = true)
    {bytes : List UInt8} {ch : Channel} {out : ReadOut}
    (hwin : bytes.length ≤ ch.uv_alloc_cb.1.len) (hopen : ch.closed_ = false)
    (hroom : ch.recv_buffer.readableBytes < ch.recv_buffer.capacity)
    (hrest : cut ch.proto_mode ch.recv_buffer.contents = .incomplete)
    (hout : out = readEvent realloc (fun _ => false) bytes ch maxLen) :
    Drains (cut ch.proto_mode) (ch.recv_buffer.contents ++ bytes) out.packets
        out.chan.recv_buffer.contents ∧
      out.chan.proto_mode = ch.proto_mode ∧
      out.chan.recv_buffer.capacity = ch.recv_buffer.capacity ∧
      (out.chan.closed_ = true ↔ cut ch.proto_mode out.chan.recv_buffer.contents = .illegal) := by
  have hne : ch.recv_buffer.linearWritablePtr.2 ≠ 0 := by
    intro h0
    have := linearWritablePtr_eq_zero.mp h0
    rw [writableBytes_eq] at this
    omega
  have halloc : ch.uv_alloc_cb = (.ring ch.recv_buffer.linearWritablePtr.2, ch) := by
    rw [uv_alloc_cb, if_neg hne]
  rw [halloc] at hwin
  obtain ⟨hok, hcontents⟩ := fillWritable_spec hwin
  -- the channel after `uv_alloc_cb` and the kernel's copy
  obtain ⟨filled, hfilled⟩ : ∃ c, c = ch.fill (.ring ch.recv_buffer.linearWritablePtr.2) bytes :=
    ⟨_, rfl⟩
  have hring : filled.recv_buffer = ch.recv_buffer.fillWritable bytes := by rw [hfilled]; rfl
  have hopen' : filled.closed_ = false := by rw [hfilled]; exact hopen
  simp only [readEvent, halloc, uv_read_cb, ← hfilled] at hout
  by_cases h0 : bytes = []
  · -- nothing was read: `onRead` and the loop have nothing to do
    subst h0
    have hsame : filled.recv_buffer.contents = ch.recv_buffer.contents := by
      rw [hring]
      simpa [advanceWriteIndex] using hcontents
    have hcap : filled.recv_buffer.capacity = ch.recv_buffer.capacity := by
      rw [hring]; exact capacity_fillWritable _ _
    simp only [onRead, List.length_nil, Int.natCast_zero, gt_iff_lt, Int.lt_irrefl, if_false,
      Int.le_refl, true_or, if_true] at hout
    subst hout
    rw [List.append_nil, hsame]
    exact ⟨.stop (by simp [hrest]), by rw [hfilled]; rfl, hcap, by simp [hrest, hopen']⟩
  · have hpos : 0 < bytes.length := List.length_pos_iff.mpr h0
    -- the channel the loop starts on
    let ch' : Channel := filled.setRecv (filled.recv_buffer.advanceWriteIndex bytes.length).2
      (capacity_advanceWriteIndex _ _)
    have honRead : filled.onRead bytes.length = ch' := by
      rw [onRead, if_pos (by omega), if_neg (by simp [hopen'])]
      simp only [Int.toNat_natCast]
      exact if_pos (by rw [hring]; exact hok)
    have hcont' : ch'.recv_buffer.contents = ch.recv_buffer.contents ++ bytes := by
      rw [← hcontents, ← hring]; rfl
    have hcap : ch'.recv_buffer.capacity = ch.recv_buffer.capacity := by
      rw [← capacity_fillWritable ch.recv_buffer bytes, ← hring]
      exact capacity_advanceWriteIndex _ _
    have hmode : ch'.proto_mode = ch.proto_mode := by simp only [ch', hfilled]; rfl
    rw [honRead, if_neg (by simp only [ch', setRecv, hopen']; simp; omega)] at hout
    have hloop := parseLoop_drains hgrow (Nat.lt_succ_self _)
      (show ch'.closed_ = false from hopen') hout
    rw [hcont', hcap, hmode] at hloop
    exact hloop

end Athena.Channel
