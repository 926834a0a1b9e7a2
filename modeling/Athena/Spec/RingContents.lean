import Athena.Native.RingByteBuf
import Mathlib.Data.Nat.ModEq

/-!
# `RingByteBuf` as a byte queue

`contents` is the queue a ring stands for: the cells from the read index on, as
many as are readable.  Each operation is described by what it does to `contents`,
so that no later proof looks at indices, masks or the two-part copies.

## Key results

- `tryWrite_contents`: an accepted write appends its bytes; `tryWrite_eq_false`: a
  write that does not fit changes nothing
- `peek_eq`, `read_eq`, `read_contents`: `peek` and `read` return the front of the
  queue, and `read` removes it
- `slice_linearReadablePtr`: the readable window is the front of the queue
- `advanceWriteIndex_contents`: filling part of the writable window and advancing
  appends those bytes
-/

namespace Athena.RingByteBuf

open Cyclic

/-- The queue the ring stands for. -/
def contents (r : RingByteBuf) : List UInt8 :=
  window r.buf_ r.head_.toNat r.readableBytes

/-! ## Index arithmetic -/

/-- The vector has one cell more than the ring can hold. -/
theorem length_buf (r : RingByteBuf) : r.buf_.length = r.capacity + 1 := by
  have := r.cap_pos
  rw [capacity_eq, r.buf_length]; omega

/-- A ring can hold something. -/
theorem capacity_pos (r : RingByteBuf) : 0 < r.capacity := by
  have := r.cap_pos
  rw [capacity_eq]; omega

/-- Masking an index takes it modulo the number of cells. -/
theorem toNat_masked (r : RingByteBuf) (x : UInt64) :
    (x &&& r.mask_).toNat = x.toNat % r.cap_.toNat := by
  rw [r.mask_eq, toNat_and_mask r.cap_pow]

/-- The capacity divides the word size, so a wrapped difference of indices is
    right modulo the capacity. -/
theorem cap_dvd (r : RingByteBuf) : r.cap_.toNat ∣ 2 ^ 64 := by
  obtain ⟨k, _, hk⟩ := r.cap_pow
  have hlt : r.cap_.toNat < 2 ^ 64 := r.cap_.toNat_lt
  rw [hk] at hlt ⊢
  exact Nat.pow_dvd_pow 2 (Nat.le_of_lt ((Nat.pow_lt_pow_iff_right (by omega)).mp hlt))

/-- The masked difference of two indices is the distance of the positions they stand
    for, when these are less than a lap apart. -/
theorem toNat_sub_masked (r : RingByteBuf) {h t : UInt64} {c p : Nat}
    (hh : h.toNat = c % r.cap_.toNat) (ht : t.toNat = p % r.cap_.toNat) (hle : c ≤ p)
    (hlt : p < c + r.cap_.toNat) : ((t - h) &&& r.mask_).toNat = p - c := by
  have hh64 : h.toNat < 2 ^ 64 := h.toNat_lt
  rw [r.toNat_masked, UInt64.toNat_sub, Nat.mod_mod_of_dvd _ r.cap_dvd]
  -- adding `h` to both sides gives `t`, up to full laps
  have hmod : 2 ^ 64 - h.toNat + t.toNat ≡ p - c [MOD r.cap_.toNat] := by
    apply Nat.ModEq.add_right_cancel' h.toNat
    calc 2 ^ 64 - h.toNat + t.toNat + h.toNat
        = 2 ^ 64 + t.toNat := by omega
      _ ≡ 0 + p [MOD r.cap_.toNat] := by
          apply Nat.ModEq.add (Nat.modEq_zero_iff_dvd.mpr r.cap_dvd)
          rw [ht]; exact Nat.mod_modEq p _
      _ = (p - c) + c := by omega
      _ ≡ p - c + h.toNat [MOD r.cap_.toNat] := by
          rw [hh]; exact (Nat.mod_modEq c _).symm.add_left _
  rw [show _ % _ = _ % _ from hmod, Nat.mod_eq_of_lt (by omega)]

/-- The readable bytes are those between the two indices. -/
theorem readableBytes_eq (r : RingByteBuf) :
    r.readableBytes = if r.head_.toNat ≤ r.tail_.toNat then r.tail_.toNat - r.head_.toNat
      else r.tail_.toNat + r.cap_.toNat - r.head_.toNat := by
  have hh := r.head_lt
  have ht := r.tail_lt
  have hhead := (Nat.mod_eq_of_lt hh).symm
  split
  · exact r.toNat_sub_masked hhead (Nat.mod_eq_of_lt ht).symm (by omega) (by omega)
  · -- the write index is one lap ahead
    apply r.toNat_sub_masked hhead _ (by omega) (by omega)
    rw [Nat.add_mod_right, Nat.mod_eq_of_lt ht]

/-- There is never more to read than the ring can hold. -/
theorem readableBytes_le (r : RingByteBuf) : r.readableBytes ≤ r.capacity := by
  have hh := r.head_lt
  have ht := r.tail_lt
  rw [readableBytes_eq, capacity_eq]
  split <;> omega

/-- What can be written is what is missing to the capacity. -/
theorem writableBytes_eq (r : RingByteBuf) :
    r.writableBytes = r.capacity - r.readableBytes := by
  rw [writableBytes, capacity]
  split <;> simp

/-- The readable bytes leave a cell free. -/
theorem readable_lt_length (r : RingByteBuf) : r.readableBytes < r.buf_.length := by
  have := r.readableBytes_le
  have := r.cap_pos
  rw [capacity_eq] at *
  rw [r.buf_length]; omega

/-- The read index is in the vector. -/
theorem head_lt_length (r : RingByteBuf) : r.head_.toNat < r.buf_.length := by
  rw [r.buf_length]; exact r.head_lt

/-- The queue is as long as the ring says. -/
@[simp] theorem length_contents (r : RingByteBuf) : r.contents.length = r.readableBytes :=
  length_window (Nat.le_of_lt r.readable_lt_length)

/-- The write index is `readableBytes` cells after the read index. -/
theorem tail_eq (r : RingByteBuf) :
    r.tail_.toNat = (r.head_.toNat + r.readableBytes) % r.buf_.length := by
  have ht := r.tail_lt
  rw [walk_mod r.head_lt_length (Nat.le_of_lt r.readable_lt_length), readableBytes_eq,
    r.buf_length]
  have hh := r.head_lt
  split <;> split <;> omega

/-- Distance from an index to the end of the array. -/
theorem toNat_cap_sub (r : RingByteBuf) {i : UInt64} (h : i.toNat < r.cap_.toNat) :
    (r.cap_ - i).toNat = r.buf_.length - i.toNat := by
  rw [UInt64.toNat_sub_of_le _ _ (UInt64.le_iff_toNat_le.mpr (by omega)), r.buf_length]

/-- Adding a length to an index and masking moves the index around the array. -/
theorem toNat_advance (r : RingByteBuf) (i : UInt64) {n : Nat}
    (hn : n < r.cap_.toNat) :
    ((i + UInt64.ofNat n) &&& r.mask_).toNat = (i.toNat + n) % r.cap_.toNat := by
  have hcap : r.cap_.toNat < 2 ^ 64 := r.cap_.toNat_lt
  rw [r.toNat_masked, UInt64.toNat_add, UInt64.toNat_ofNat', Nat.mod_mod_of_dvd _ r.cap_dvd,
    Nat.mod_eq_of_lt (a := n) (by omega)]

/-! ## Moving the indices -/

/-- A ring's queue in terms of its cells and indices, once the number of readable
    bytes is known. -/
theorem contents_of_readable {r : RingByteBuf} {n : Nat} (h : r.readableBytes = n) :
    r.contents = window r.buf_ r.head_.toNat n := by
  rw [contents, h]

/-- Moving the read index on takes that many bytes away. -/
theorem readable_setHead {r : RingByteBuf} {n : Nat} (hn : n ≤ r.readableBytes) :
    (r.setHead (r.head_ + UInt64.ofNat n)).readableBytes = r.readableBytes - n := by
  have hrd := r.readable_lt_length
  rw [r.buf_length] at hrd
  have hadv := r.toNat_advance r.head_ (show n < r.cap_.toNat by omega)
  rw [walk_mod r.head_lt (by omega)] at hadv
  have hR := r.readableBytes_eq
  rw [readableBytes_eq]
  simp only [setHead, hadv]
  have hh := r.head_lt
  have ht := r.tail_lt
  split at hR <;> split <;> split <;> omega

/-- Moving the read index on drops the front of the queue. -/
theorem contents_setHead {r : RingByteBuf} {n : Nat} (hn : n ≤ r.readableBytes) :
    (r.setHead (r.head_ + UInt64.ofNat n)).contents = r.contents.drop n := by
  have hrd := r.readable_lt_length
  rw [contents_of_readable (readable_setHead hn), contents,
    window_drop r.head_lt_length (Nat.le_of_lt hrd) hn, r.buf_length]
  simp only [setHead]
  rw [r.toNat_advance r.head_ (by rw [r.buf_length] at hrd; omega)]

/-- Moving the write index on adds that many bytes. -/
theorem readable_setTail {r : RingByteBuf} {n : Nat} (hn : n ≤ r.writableBytes) :
    (r.setTail (r.tail_ + UInt64.ofNat n)).readableBytes = r.readableBytes + n := by
  rw [writableBytes_eq, capacity_eq] at hn
  have hpos := r.cap_pos
  have hrd := r.readable_lt_length
  rw [r.buf_length] at hrd
  have hadv := r.toNat_advance r.tail_ (show n < r.cap_.toNat by omega)
  rw [walk_mod r.tail_lt (by omega)] at hadv
  have hR := r.readableBytes_eq
  rw [readableBytes_eq]
  simp only [setTail, hadv]
  have hh := r.head_lt
  have ht := r.tail_lt
  split at hR <;> split <;> split <;> omega

/-- A copy moves no index. -/
theorem memcpy_eq {r : RingByteBuf} {off : Nat} {src : List UInt8}
    (h : off + src.length ≤ r.buf_.length) :
    (r.memcpy off src).buf_ = overwrite r.buf_ off src ∧
      (r.memcpy off src).head_ = r.head_ ∧ (r.memcpy off src).tail_ = r.tail_ ∧
      (r.memcpy off src).cap_ = r.cap_ ∧ (r.memcpy off src).mask_ = r.mask_ := by
  simp only [memcpy, dif_pos h, and_self]

/-- A copy into the vector leaves the read index. -/
@[simp] theorem head_memcpy (r : RingByteBuf) (off : Nat) (src : List UInt8) :
    (r.memcpy off src).head_ = r.head_ := by
  simp only [memcpy]; split <;> rfl

/-- A copy into the vector leaves the write index. -/
@[simp] theorem tail_memcpy (r : RingByteBuf) (off : Nat) (src : List UInt8) :
    (r.memcpy off src).tail_ = r.tail_ := by
  simp only [memcpy]; split <;> rfl

/-- A copy into the vector keeps its length. -/
@[simp] theorem length_buf_memcpy (r : RingByteBuf) (off : Nat) (src : List UInt8) :
    (r.memcpy off src).buf_.length = r.buf_.length := by
  rw [length_buf, capacity_memcpy, length_buf]

/-- Copying nothing changes nothing. -/
@[simp] theorem memcpy_nil (r : RingByteBuf) (off : Nat) : r.memcpy off [] = r := by
  simp [memcpy]

/-! ## Construction -/

/-- The indices of a new ring. -/
theorem new_indices {malloc : Malloc} {c : UInt64} {r : RingByteBuf}
    (h : new malloc c = some r) : r.head_ = 0 ∧ r.tail_ = 0 := by
  simp only [new] at h
  split at h
  · obtain rfl := Option.some.inj h
    exact ⟨rfl, rfl⟩
  · simp at h

/-- A new ring is empty. -/
theorem new_contents {malloc : Malloc} {c : UInt64} {r : RingByteBuf}
    (h : new malloc c = some r) : r.contents = [] := by
  obtain ⟨hh, ht⟩ := new_indices h
  simp [contents, readableBytes, hh, ht]

/-! ## `tryWrite` -/

/-- A write that does not fit is refused and changes nothing. -/
theorem tryWrite_eq_false {r : RingByteBuf} {src : List UInt8}
    (h : r.writableBytes < src.length) : r.tryWrite src = (false, r) := by
  rw [tryWrite, if_neg (by omega), if_pos h]

/-- The ring after an accepted write, with both copies performed. -/
theorem tryWrite_eq {r : RingByteBuf} {src : List UInt8} (h0 : src ≠ [])
    (h : src.length ≤ r.writableBytes) :
    r.tryWrite src = (true,
      (((r.memcpy r.tail_.toNat (src.take (r.buf_.length - r.tail_.toNat))).memcpy 0
        (src.drop (r.buf_.length - r.tail_.toNat))).setTail
          (r.tail_ + UInt64.ofNat src.length))) := by
  have hlen : src.length ≠ 0 := fun h' => h0 (List.length_eq_zero_iff.mp h')
  have htl := r.tail_lt
  rw [← r.buf_length] at htl
  simp only [tryWrite, if_neg hlen, if_neg (Nat.not_lt.mpr h), r.toNat_cap_sub r.tail_lt]
  by_cases hw : src.length ≤ r.buf_.length - r.tail_.toNat
  · -- one piece: the second copy is empty
    rw [Nat.min_eq_left hw, if_neg (by omega), List.take_of_length_le (Nat.le_refl _),
      List.take_of_length_le hw, List.drop_of_length_le hw]
    rw [memcpy_nil]
  · rw [Nat.min_eq_right (by omega), if_pos (by omega)]

/-- What an accepted write leaves: its bytes at the end of the queue, and neither
    the read index nor the array moved. -/
theorem tryWrite_spec {r : RingByteBuf} {src : List UInt8} (h : src.length ≤ r.writableBytes) :
    (r.tryWrite src).1 = true ∧ (r.tryWrite src).2.contents = r.contents ++ src ∧
      (r.tryWrite src).2.head_ = r.head_ := by
  by_cases h0 : src = []
  · subst h0; simp [tryWrite]
  have hroom := h
  rw [writableBytes_eq, capacity_eq, ← r.buf_length] at hroom
  have hpos : 0 < r.buf_.length := by have := r.head_lt_length; omega
  have htl : r.tail_.toNat < r.buf_.length := by rw [r.buf_length]; exact r.tail_lt
  have hfit₁ : r.tail_.toNat + (src.take (r.buf_.length - r.tail_.toNat)).length ≤
      r.buf_.length := by rw [List.length_take]; omega
  obtain ⟨hb₁, hh₁, ht₁, hc₁, hm₁⟩ := memcpy_eq hfit₁
  have hlen₁ := length_overwrite hfit₁
  have hrd := r.readable_lt_length
  have hfit₂ : 0 + (src.drop (r.buf_.length - r.tail_.toNat)).length ≤
      (r.memcpy r.tail_.toNat (src.take (r.buf_.length - r.tail_.toNat))).buf_.length := by
    rw [hb₁, hlen₁, List.length_drop]; omega
  obtain ⟨hb₂, hh₂, ht₂, hc₂, hm₂⟩ := memcpy_eq hfit₂
  rw [tryWrite_eq h0 h]
  refine ⟨rfl, ?_, ?_⟩
  · -- the tail of the ring after the copies advances as the tail of `r` does
    have hread : (((r.memcpy r.tail_.toNat (src.take (r.buf_.length - r.tail_.toNat))).memcpy 0
        (src.drop (r.buf_.length - r.tail_.toNat))).setTail
          (r.tail_ + UInt64.ofNat src.length)).readableBytes = r.readableBytes + src.length := by
      rw [← readable_setTail h]
      simp only [readableBytes, setTail, hh₂, hh₁, hm₂, hm₁]
    rw [contents_of_readable hread]
    simp only [setTail, hb₂, hb₁, hh₂, hh₁]
    exact window_overwrite_two r.head_lt_length (by omega) r.tail_eq
  · simp only [setTail, hh₂, hh₁]

/-- An accepted write appends its bytes to the queue. -/
theorem tryWrite_contents {r : RingByteBuf} {src : List UInt8}
    (h : src.length ≤ r.writableBytes) : (r.tryWrite src).2.contents = r.contents ++ src :=
  (tryWrite_spec h).2.1

/-! ## `read` and `peek` -/

/-- The two copies out of the ring give the front of the queue. -/
private theorem copyOut_eq {r : RingByteBuf} {n : Nat} (hn : n ≤ r.readableBytes) :
    r.copyOut n = r.contents.take n := by
  have hrd := r.readable_lt_length
  rw [contents, window_take hn, window_eq_slices r.head_lt_length (by omega), copyOut,
    r.toNat_cap_sub r.head_lt]
  congr 1
  split
  · rfl
  · rename_i hgt
    rw [show n - min n (r.buf_.length - r.head_.toNat) = 0 by omega]
    simp [slice]

/-- `peek` returns the front of the queue. -/
theorem peek_eq (r : RingByteBuf) (len : Nat) : r.peek len = r.contents.take len := by
  simp only [peek]
  split
  · rename_i h; rw [h, List.take_zero]
  · split
    · rename_i h
      rw [List.length_eq_zero_iff.mp (r.length_contents.trans h), List.take_nil]
    · rw [copyOut_eq (Nat.min_le_right _ _), ← r.length_contents, ← List.take_eq_take_min]

/-- `read` returns the front of the queue. -/
theorem read_eq (r : RingByteBuf) (len : Nat) : (r.read len).1 = r.contents.take len := by
  rw [← peek_eq]
  simp only [read, peek]
  split
  · rfl
  · split <;> rfl

/-- `read` removes the bytes it returns. -/
theorem read_contents (r : RingByteBuf) (len : Nat) :
    (r.read len).2.contents = r.contents.drop len := by
  simp only [read]
  split
  · rename_i h; rw [h, List.drop_zero]
  · split
    · rename_i h
      rw [List.length_eq_zero_iff.mp (r.length_contents.trans h), List.drop_nil]
    · rw [contents_setHead (Nat.min_le_right _ _)]
      by_cases hle : len ≤ r.readableBytes
      · rw [Nat.min_eq_left hle]
      · rw [Nat.min_eq_right (by omega), List.drop_of_length_le (by simp),
          List.drop_of_length_le (by simp; omega)]

/-! ## The readable window -/

/-- The readable window is empty only when the queue is. -/
theorem linearReadablePtr_pos {r : RingByteBuf} (h : r.contents ≠ []) :
    0 < r.linearReadablePtr.2 := by
  have hrd : r.readableBytes ≠ 0 := by
    rw [← r.length_contents]; exact fun h' => h (List.length_eq_zero_iff.mp h')
  have hh := r.head_lt_length
  rw [linearReadablePtr, if_neg hrd, r.toNat_cap_sub r.head_lt]
  simp only
  omega

/-- An empty ring has no readable window. -/
theorem linearReadablePtr_of_nil {r : RingByteBuf} (h : r.contents = []) :
    r.linearReadablePtr = (none, 0) := by
  have hrd : r.readableBytes = 0 := by rw [← r.length_contents, h]; rfl
  rw [linearReadablePtr, if_pos hrd]

/-- The readable window has no more than is readable. -/
theorem linearReadablePtr_le (r : RingByteBuf) : r.linearReadablePtr.2 ≤ r.readableBytes := by
  rw [linearReadablePtr]
  split
  · exact Nat.zero_le _
  · exact Nat.min_le_left _ _

/-- The readable window starts at the read index and lies inside the array. -/
theorem linearReadablePtr_base {r : RingByteBuf} {base : Nat}
    (h : r.linearReadablePtr.1 = some base) :
    base = r.head_.toNat ∧ base + r.linearReadablePtr.2 ≤ r.buf_.length := by
  have hh := r.head_lt_length
  rw [linearReadablePtr] at h ⊢
  split at h
  · exact nomatch h
  · rename_i hrd
    obtain rfl := Option.some.inj h
    rw [if_neg hrd, r.toNat_cap_sub r.head_lt]
    exact ⟨rfl, by simp only; omega⟩

/-- A non-empty readable window has a base pointer. -/
theorem linearReadablePtr_isSome {r : RingByteBuf} (h : r.linearReadablePtr.2 ≠ 0) :
    r.linearReadablePtr.1 = some r.head_.toNat := by
  rw [linearReadablePtr] at h ⊢
  split
  · rename_i hrd; rw [if_pos hrd] at h; exact absurd rfl h
  · rfl

/-- Cells from the read index on, as far as they are readable and before the end
    of the array, hold the front of the queue. -/
theorem slice_head {r : RingByteBuf} {n : Nat} (hn : n ≤ r.readableBytes)
    (hfit : r.head_.toNat + n ≤ r.buf_.length) :
    slice r.buf_ r.head_.toNat n = r.contents.take n :=
  slice_eq_take_window hn hfit

/-- Advancing the read index drops the front of the queue. -/
theorem advanceReadIndex_spec {r : RingByteBuf} {n : Nat} (hn : n ≤ r.readableBytes) :
    (r.advanceReadIndex n).1 = true ∧ (r.advanceReadIndex n).2.contents = r.contents.drop n := by
  rw [advanceReadIndex]
  split
  · rename_i h; subst h; simp
  · rw [if_neg (by omega)]
    exact ⟨rfl, contents_setHead hn⟩

/-! ## The writable window -/

/-- The number of bytes the writable window offers. -/
theorem linearWritablePtr_le (r : RingByteBuf) : r.linearWritablePtr.2 ≤ r.writableBytes := by
  rw [linearWritablePtr]
  split
  · exact Nat.zero_le _
  · exact Nat.min_le_left _ _

/-- The writable window is empty exactly when the ring is full. -/
theorem linearWritablePtr_eq_zero {r : RingByteBuf} :
    r.linearWritablePtr.2 = 0 ↔ r.writableBytes = 0 := by
  have ht := r.tail_lt
  rw [linearWritablePtr]
  split
  · rename_i h; simp [h]
  · rename_i h
    rw [r.toNat_cap_sub r.tail_lt, r.buf_length]
    simp only
    omega

/-- Reading `bytes` into the writable window and advancing the write index appends
    them to the queue. -/
theorem fillWritable_spec {r : RingByteBuf} {bytes : List UInt8}
    (hlen : bytes.length ≤ r.linearWritablePtr.2) :
    ((r.fillWritable bytes).advanceWriteIndex bytes.length).1 = true ∧
      ((r.fillWritable bytes).advanceWriteIndex bytes.length).2.contents = r.contents ++ bytes := by
  by_cases h0 : bytes = []
  · subst h0
    have hid : r.fillWritable [] = r := by
      simp only [fillWritable]; split <;> simp [memcpy]
    simp [hid, advanceWriteIndex]
  have hpos : 0 < bytes.length := List.length_pos_iff.mpr h0
  have hw : bytes.length ≤ r.writableBytes := Nat.le_trans hlen r.linearWritablePtr_le
  have hwne : r.writableBytes ≠ 0 := by omega
  have htail : r.linearWritablePtr = (some r.tail_.toNat,
      min r.writableBytes (r.cap_ - r.tail_).toNat) := by rw [linearWritablePtr, if_neg hwne]
  have hend : bytes.length ≤ r.buf_.length - r.tail_.toNat := by
    rw [htail, r.toNat_cap_sub r.tail_lt] at hlen
    simp only at hlen
    omega
  have htl : r.tail_.toNat < r.buf_.length := by rw [r.buf_length]; exact r.tail_lt
  -- filling the window and advancing is the same as an accepted one-piece `tryWrite`
  have hsame : (r.fillWritable bytes).advanceWriteIndex bytes.length = r.tryWrite bytes := by
    have hfit : r.tail_.toNat + bytes.length ≤ r.buf_.length := by omega
    obtain ⟨_, hh, ht, hc, hm⟩ := memcpy_eq hfit
    have hread : (r.memcpy r.tail_.toNat bytes).readableBytes = r.readableBytes := by
      simp only [readableBytes, hh, ht, hm]
    have hwr : (r.memcpy r.tail_.toNat bytes).writableBytes = r.writableBytes := by
      rw [writableBytes_eq, writableBytes_eq, capacity_memcpy, hread]
    rw [tryWrite_eq h0 hw, List.take_of_length_le hend, List.drop_of_length_le hend, memcpy_nil]
    simp only [fillWritable, htail, advanceWriteIndex, if_neg (Nat.ne_of_gt hpos), hwr,
      if_neg (Nat.not_lt.mpr hw), ht]
  rw [hsame]
  have hspec := tryWrite_spec hw
  exact ⟨hspec.1, hspec.2.1⟩

end Athena.RingByteBuf
