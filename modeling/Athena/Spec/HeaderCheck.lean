import Athena.Spec.Parse

/-!
# The framing check and the header parser

`peekNextPackLen` decides where a packet ends, and `parseHeader` takes the packet apart.
Both look at the header by themselves.  `FramingAgrees` says that they agree on the bytes
in a channel's receive ring.  They do unless the length field is so short that the frame
ends inside its own header: `peekNextPackLen` has an upper bound for the field and no
lower one.

## Key results

- `accepts_iff`: what `parseHeader` accepts
- `framing_agrees_iff`: the two agree exactly when no such header is in front
- `parseHeader_frame_eq`: what `parseHeader` makes of a frame of the send functions
-/

namespace Athena.Channel

open ByteUtils RingByteBuf Decoder

/-- `parseHeader` accepts the packet as a frame of `n` bytes, whatever `*out` was. -/
def Accepts (mode : ProtoMode) (n : Nat) (packet : List UInt8) : Prop :=
  ∀ out : DecodedMsg, (parseHeader mode (some packet) out).body ≠ none ∧
    (parseHeader mode (some packet) out).bodyLen = (n : Int) - headerLen mode

/-- The length of the frame that a length field announces. -/
def announced (s : List UInt8) : Nat := (readInt32 s).toNat + 4

/-- The framing check and the header parser agree on the receive ring. -/
structure FramingAgrees (ch : Channel) : Prop where
  accepted : ∀ n : Nat, ch.peekNextPackLen = n →
    headerLen ch.proto_mode ≤ n ∧ (ch.getPack n).1.length = n ∧
      Accepts ch.proto_mode n (ch.getPack n).1
  answered : ¬(announced ch.recv_buffer.contents ≤ ch.recv_buffer.contents.length ∧
      Accepts ch.proto_mode (announced ch.recv_buffer.contents)
        (ch.recv_buffer.contents.take (announced ch.recv_buffer.contents))) →
    ch.peekNextPackLen = -1 ∨ ch.peekNextPackLen = -2

/-- A header with the right magic number whose length field ends the frame inside the
    header. -/
def ShortLength (mode : ProtoMode) (s : List UInt8) : Prop :=
  headerLen mode ≤ s.length ∧ readInt32 (s.drop (magicOff mode)) = MAGIC_NUM ∧
    announced s < headerLen mode

/-- `parseHeader` accepts a packet that has a whole header with the right magic number. -/
theorem accepts_iff {mode : ProtoMode} {packet : List UInt8} :
    Accepts mode packet.length packet ↔
      headerLen mode ≤ packet.length ∧ readInt32 (packet.drop (magicOff mode)) = MAGIC_NUM := by
  constructor
  · intro h
    have hbody := (h {}).1
    simp only [parseHeader] at hbody
    split at hbody
    · exact absurd rfl hbody
    · split at hbody
      · exact absurd rfl hbody
      · rename_i hlen hmagic
        exact ⟨Nat.not_lt.mp hlen, not_not.mp hmagic⟩
  · rintro ⟨hlen, hmagic⟩ out
    have hshort : ¬packet.length < headerLen mode := Nat.not_lt.mpr hlen
    simp only [parseHeader, if_neg hshort, hmagic, ne_eq, not_true, if_false]
    exact ⟨Option.some_ne_none _, trivial⟩

/-- Taking whole frames off the front keeps the magic number in sight. -/
theorem magic_take {mode : ProtoMode} {s : List UInt8} {n : Nat} (hn : headerLen mode ≤ n) :
    readInt32 ((s.take n).drop (magicOff mode)) = readInt32 (s.drop (magicOff mode)) := by
  have hhdr := headerLen_eq mode
  rw [List.drop_take]
  exact readInt32_take (by omega) _

/-- A recognised frame is whole, has the right magic number, and is the announced one. -/
theorem cut_eq_frame_iff {mode : ProtoMode} {s : List UInt8} {n : Nat} :
    cut mode s = .frame n ↔ headerLen mode ≤ s.length ∧ n ≤ MAX_PACKET_SIZE ∧
      readInt32 (s.drop (magicOff mode)) = MAGIC_NUM ∧ n ≤ s.length ∧ n = announced s := by
  have hhdr := headerLen_eq mode
  have hmax : MAX_PACKET_SIZE = 4194304 := rfl
  simp only [cut, announced]
  constructor
  · intro h
    split at h; · simp at h
    split at h; · simp at h
    split at h; · simp at h
    split at h; · simp at h
    rename_i hmagic _
    have hn := Framing.Cut.frame.inj h
    exact ⟨by omega, by omega, not_not.mp hmagic, by omega, hn.symm⟩
  · rintro ⟨hlen, hle, hmagic, hfit, rfl⟩
    rw [if_neg (by omega), if_neg (by omega), if_neg (not_not.mpr hmagic), if_neg (by omega)]

/-- A packet at least as long as its header is taken whole, and accepted. -/
theorem getPack_accepted {ch : Channel} {n : Nat} (hpeek : ch.peekNextPackLen = n)
    (hn : headerLen ch.proto_mode ≤ n) :
    (ch.getPack n).1.length = n ∧ n ≤ MAX_PACKET_SIZE ∧
      Accepts ch.proto_mode n (ch.getPack n).1 := by
  have hcut := peekNextPackLen_eq ch
  rw [hpeek] at hcut
  cases hc : cut ch.proto_mode ch.recv_buffer.contents with
  | incomplete => rw [hc] at hcut; simp only at hcut; omega
  | illegal => rw [hc] at hcut; simp only at hcut; omega
  | frame m =>
    rw [hc] at hcut
    obtain rfl : n = m := Int.ofNat_inj.mp hcut
    obtain ⟨-, hmax, hmagic, hfit, -⟩ := cut_eq_frame_iff.mp hc
    have htake : (ch.recv_buffer.contents.take n).length = n := by
      rw [List.length_take]; omega
    have hok : Accepts ch.proto_mode (ch.recv_buffer.contents.take n).length
        (ch.recv_buffer.contents.take n) := by
      apply accepts_iff.mpr
      rw [htake, magic_take hn]
      exact ⟨hn, hmagic⟩
    rw [htake] at hok
    rw [(getPack_spec ch n).1]
    exact ⟨htake, hmax, hok⟩

/-- The framing check and the header parser agree on the bytes in the receive ring, unless
    the length field ends the frame inside its header. -/
theorem framing_agrees_iff (ch : Channel) :
    FramingAgrees ch ↔ ¬ShortLength ch.proto_mode ch.recv_buffer.contents := by
  have hpeek := peekNextPackLen_eq ch
  constructor
  · rintro ⟨haccepted, -⟩ ⟨hlen, hmagic, hshort⟩
    -- the short frame passes the check
    have hcut : cut ch.proto_mode ch.recv_buffer.contents =
        .frame (announced ch.recv_buffer.contents) := by
      have hmax : MAX_PACKET_SIZE = 4194304 := rfl
      have hsmall : headerLen ch.proto_mode ≤ 16 := by cases ch.proto_mode <;> decide
      exact cut_eq_frame_iff.mpr ⟨hlen, by omega, hmagic, by omega, rfl⟩
    rw [hcut] at hpeek
    have := (haccepted _ hpeek).1
    omega
  · intro hshort
    cases hcut : cut ch.proto_mode ch.recv_buffer.contents with
    | incomplete =>
      rw [hcut] at hpeek
      refine ⟨fun n hn => ?_, fun _ => .inl hpeek⟩
      rw [hpeek] at hn
      simp only at hn
      omega
    | illegal =>
      rw [hcut] at hpeek
      refine ⟨fun n hn => ?_, fun _ => .inr hpeek⟩
      rw [hpeek] at hn
      simp only at hn
      omega
    | frame m =>
      obtain ⟨hlen, -, hmagic, hfit, hm⟩ := cut_eq_frame_iff.mp hcut
      rw [hcut] at hpeek
      -- the frame is at least as long as its header
      have hlong : headerLen ch.proto_mode ≤ m := by
        apply Nat.not_lt.mp
        intro hlt
        exact hshort ⟨hlen, hmagic, hm ▸ hlt⟩
      obtain ⟨hpack, -, hok⟩ := getPack_accepted hpeek hlong
      refine ⟨fun n hn => ?_, fun hno => ?_⟩
      · rw [hpeek] at hn
        obtain rfl : m = n := Int.ofNat_inj.mp hn
        exact ⟨hlong, hpack, hok⟩
      · rw [← hm, ← (getPack_spec ch m).1] at hno
        exact absurd ⟨hfit, hok⟩ hno

/-- A client's header with a zero length field: four bytes are taken as a packet. -/
theorem framing_disagrees :
    ¬FramingAgrees (((Channel.new zeroed 1 24 24 .CLIENT).fill (.ring 31)
      [0, 0, 0, 0, 0, 0, 0, 5, 0x41, 0x54, 0x48, 0x41]).onRead 12) := by
  intro h
  have hlen := (h.accepted 4 (by decide)).1
  exact absurd hlen (by decide)

/-! ## Decoding a frame -/

/-- What `parseHeader` makes of a frame.  The player id is the sign-extended four-byte
    field. -/
theorem parseHeader_frame_eq (mode : ProtoMode) (msgId : Int32) (body : List UInt8)
    (playerId : Int64) :
    parseHeader mode (some (frame mode msgId body playerId)) {} =
      { msgId := msgId
        body := some body
        bodyLen := body.length
        playerId := match mode with
          | .INNER => playerId.toInt32.toInt64
          | .CLIENT => 0 } := by
  have hlen : (frame mode msgId body playerId).length = body.length + headerLen mode :=
    length_frame mode msgId body playerId
  have hmagic : readInt32 ((frame mode msgId body playerId).drop (magicOff mode)) = MAGIC_NUM := by
    rw [drop_frame_magicOff, readInt32_bigEndian]
  have hid : readInt32 ((frame mode msgId body playerId).drop 4) = msgId.toUInt32 :=
    readInt32_bigEndian msgId.toUInt32 _
  have hbody : (frame mode msgId body playerId).drop (headerLen mode) = body := by
    cases mode <;> rfl
  have hlong : ¬body.length + headerLen mode < headerLen mode := by omega
  have hbodyLen : ((body.length + headerLen mode : Nat) : Int) - headerLen mode =
      body.length := by omega
  simp only [parseHeader, hlen, if_neg hlong, hmagic, ne_eq, not_true, if_false, hid,
    Int32.toInt32_toUInt32, hbody]
  cases mode with
  | INNER =>
    have hpid : readInt32 ((frame .INNER msgId body playerId).drop 8) =
        playerId.toInt32.toUInt32 :=
      readInt32_bigEndian playerId.toInt32.toUInt32 _
    simp only [if_true, hpid, Int32.toInt32_toUInt32, hbodyLen]
  | CLIENT => simp only [reduceCtorEq, if_false, hbodyLen]

end Athena.Channel
