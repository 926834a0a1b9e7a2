import Athena.Native.Channel
import Athena.Spec.RingContents

/-!
# The frame format, and what the send functions append

`frame` states the wire format as a byte string; `writeFrame_contents` shows that
the sequence of ring writes in `eventLoopWrite` / `eventLoopRawWrite` appends
exactly that string.
-/

namespace Athena.Channel

open Endian RingByteBuf

/-- The wire format of one message:
    `| 4B msgLen | 4B msgId | 4B playerId (INNER only) | 4B magicNum | body |`, where
    `msgLen` counts everything after itself. -/
def frame (mode : ProtoMode) (msgId : Int32) (body : List UInt8) (playerId : Int64) :
    List UInt8 :=
  bigEndian (UInt32.ofNat (body.length + lenOverhead mode)) ++
    (bigEndian msgId.toUInt32 ++
      ((if mode = .INNER then bigEndian playerId.toInt32.toUInt32 else []) ++
        (bigEndian MAGIC_NUM ++ body)))

/-- A frame is its body and the header. -/
theorem length_frame (mode : ProtoMode) (msgId : Int32) (body : List UInt8) (playerId : Int64) :
    (frame mode msgId body playerId).length = body.length + headerLen mode := by
  cases mode <;> simp [frame, headerLen, INNER_HEADER_LEN, CLIENT_HEADER_LEN] <;> omega

/-- No frame is empty. -/
theorem frame_ne_nil (mode : ProtoMode) (msgId : Int32) (body : List UInt8) (playerId : Int64) :
    frame mode msgId body playerId ≠ [] := by
  simp [frame, bigEndian]

/-- The length field as the code computes it, in 32-bit arithmetic. -/
private theorem lenField_eq (mode : ProtoMode) (n : Nat) :
    (Int32.ofNat n + Int32.ofNat (lenOverhead mode)).toUInt32 =
      UInt32.ofNat (n + lenOverhead mode) := by
  apply UInt32.eq_of_toBitVec_eq
  exact (BitVec.ofNat_add n (lenOverhead mode)).symm

/-- `r` is `ring` after appending `pre`: same read index, same capacity. -/
private def Extends (ring r : RingByteBuf) (pre : List UInt8) : Prop :=
  r.contents = ring.contents ++ pre ∧ r.head_ = ring.head_ ∧ r.capacity = ring.capacity

/-- One more write that fits. -/
private theorem Extends.tryWrite {ring r : RingByteBuf} {pre : List UInt8} (src : List UInt8)
    (h : Extends ring r pre) (hroom : pre.length + src.length ≤ ring.writableBytes) :
    Extends ring (r.tryWrite src).2 (pre ++ src) := by
  obtain ⟨hc, hh, hcap⟩ := h
  have hw : src.length ≤ r.writableBytes := by
    rw [writableBytes_eq] at hroom ⊢
    rw [hcap, ← r.length_contents, hc, List.length_append, length_contents]
    omega
  obtain ⟨-, hc', hh'⟩ := tryWrite_spec hw
  exact ⟨by rw [hc', hc, List.append_assoc], hh'.trans hh, (capacity_tryWrite r src).trans hcap⟩

/-- One more number is appended. -/
private theorem Extends.writeInt32 {ring r : RingByteBuf} {pre : List UInt8} (v : UInt32)
    (h : Extends ring r pre) (hroom : pre.length + 4 ≤ ring.writableBytes) :
    Extends ring (r.writeInt32 v) (pre ++ bigEndian v) := by
  rw [RingByteBuf.writeInt32, store_toNetwork32]
  exact h.tryWrite (bigEndian v) hroom

/-- Writing a frame that fits appends its bytes and leaves the read index. -/
theorem writeFrame_spec {ring : RingByteBuf} {mode : ProtoMode} (msgId : Int32)
    {body : List UInt8} (playerId : Int64) (h : body.length + headerLen mode ≤ ring.writableBytes) :
    (writeFrame ring mode msgId body playerId).contents =
        ring.contents ++ frame mode msgId body playerId ∧
      (writeFrame ring mode msgId body playerId).head_ = ring.head_ := by
  have hstart : Extends ring ring [] := ⟨by simp, rfl, rfl⟩
  cases mode with
  | INNER =>
    simp only [headerLen, INNER_HEADER_LEN, if_pos] at h
    have hall := ((((hstart.writeInt32
      (Int32.ofNat body.length + Int32.ofNat (lenOverhead .INNER)).toUInt32 (by simp; omega)).writeInt32
      msgId.toUInt32 (by simp; omega)).writeInt32 playerId.toInt32.toUInt32 (by simp; omega)).writeInt32
      MAGIC_NUM (by simp; omega)).tryWrite body (by simp; omega)
    rw [lenField_eq, List.nil_append] at hall
    simp only [writeFrame, writeBytes, ↓reduceIte, lenField_eq, frame]
    exact ⟨hall.1.trans (by simp only [List.append_assoc]), hall.2.1⟩
  | CLIENT =>
    simp only [headerLen, CLIENT_HEADER_LEN, reduceCtorEq, if_false] at h
    have hall := (((hstart.writeInt32
      (Int32.ofNat body.length + Int32.ofNat (lenOverhead .CLIENT)).toUInt32 (by simp; omega)).writeInt32
      msgId.toUInt32 (by simp; omega)).writeInt32
      MAGIC_NUM (by simp; omega)).tryWrite body (by simp; omega)
    rw [lenField_eq, List.nil_append] at hall
    simp only [writeFrame, writeBytes, reduceCtorEq, ↓reduceIte, lenField_eq, frame]
    exact ⟨hall.1.trans (by simp only [List.append_assoc, List.nil_append]), hall.2.1⟩

end Athena.Channel
