import Athena.ForStd.Cyclic
import Athena.ForStd.Smear
import Athena.Native.ByteConverter

/-!
# The byte ring (`core/common/RingByteBuf.h`, `.cpp`) and `core::ByteBuffer`

`RingByteBuf` keeps a byte queue in `cap_` cells, `cap_` a power of two, with one
cell always free to tell full from empty.  Indices are 64-bit `size_t` words and
wrap by `& mask_`.  Lengths are natural numbers here: every length the code
computes is bounded by `cap_`.

The structure carries what the constructor establishes and every operation keeps:
`cap_` is a power of two above one, `mask_ = cap_ - 1`, there are `cap_` cells and
both indices point at a cell.  A moved-from ring (`cap_ = 0`) is not a value of
the type: `ByteBuffer` deletes its moves and no code of the repository moves a
ring.
-/

namespace Athena

open Cyclic

/-- `RingByteBuf::ceilToPowerOfTwo` (64-bit build). -/
def ceilToPowerOfTwo (n : UInt64) : UInt64 :=
  if n ≤ 2 then
    if n < 1 then 2 else n
  else
    let n := n - 1
    let n := n ||| (n >>> 1)
    let n := n ||| (n >>> 2)
    let n := n ||| (n >>> 4)
    let n := n ||| (n >>> 8)
    let n := n ||| (n >>> 16)
    let n := n ||| (n >>> 32)
    n + 1

/-- Above two, the smearing steps round `n` up to the power of two whose exponent
    is one more than the logarithm of `n - 1`. -/
theorem ceilToPowerOfTwo_toNat {n : UInt64} (h2 : 2 < n.toNat) (hn : n.toNat ≤ 2 ^ 63) :
    (ceilToPowerOfTwo n).toNat = 2 ^ ((n.toNat - 1).log2 + 1) := by
  have hsub : (n - 1).toNat = n.toNat - 1 := by
    rw [UInt64.toNat_sub_of_le _ _ (UInt64.le_iff_toNat_le.mpr (by simp; omega))]; rfl
  have hlog : (n.toNat - 1).log2 < 63 := (Nat.log2_lt (by omega)).mpr (by omega)
  have hpow : 2 ^ ((n.toNat - 1).log2 + 1) ≤ 2 ^ 63 :=
    Nat.pow_le_pow_right (by omega) (by omega)
  have hsm := (((((Smeared.refl (n - 1).toNat).step).step).step).step).step.step
  have hall := hsm.eq_two_pow (by omega) (by rw [hsub]; omega)
  rw [hsub] at hall
  have hle : ¬ n ≤ 2 := by rw [UInt64.le_iff_toNat_le]; simp; omega
  simp only [ceilToPowerOfTwo, if_neg hle, UInt64.toNat_add, UInt64.toNat_or,
    UInt64.toNat_shiftRight, hsub, UInt64.reduceToNat, Nat.reduceMod]
  rw [hall, Nat.mod_eq_of_lt (by omega)]

/-- `ceilToPowerOfTwo` gives a power of two above one that is at least `n` and less
    than twice as large. -/
theorem ceilToPowerOfTwo_spec {n : UInt64} (h2 : 2 ≤ n.toNat) (hn : n.toNat ≤ 2 ^ 63) :
    ∃ k, 1 ≤ k ∧ (ceilToPowerOfTwo n).toNat = 2 ^ k ∧ n.toNat ≤ 2 ^ k ∧
      2 ^ k ≤ 2 * (n.toNat - 1) := by
  rcases Nat.eq_or_lt_of_le h2 with h | h
  · obtain rfl : n = 2 := UInt64.toNat_inj.mp (by simp; omega)
    exact ⟨1, by decide⟩
  · refine ⟨(n.toNat - 1).log2 + 1, by omega, ceilToPowerOfTwo_toNat h hn, ?_, ?_⟩
    · have := Nat.lt_log2_self (n := n.toNat - 1)
      omega
    · have := Nat.log2_self_le (n := n.toNat - 1) (by omega)
      rw [Nat.pow_succ]; omega

/-- `core::RingByteBuf`. -/
structure RingByteBuf where
  buf_ : List UInt8
  cap_ : UInt64
  mask_ : UInt64
  head_ : UInt64
  tail_ : UInt64
  cap_pow : ∃ k, 1 ≤ k ∧ cap_.toNat = 2 ^ k
  mask_eq : mask_ = cap_ - 1
  buf_length : buf_.length = cap_.toNat
  head_lt : head_.toNat < cap_.toNat
  tail_lt : tail_.toNat < cap_.toNat

/-- `malloc`: `n` cells of unknown content. -/
abbrev Malloc := (n : Nat) → { cells : List UInt8 // cells.length = n }

/-- A `malloc` whose cells happen to be zero. -/
def zeroed : Malloc := fun n => ⟨List.replicate n 0, List.length_replicate⟩

namespace RingByteBuf

/-- Masking is the remainder by the capacity. -/
theorem toNat_and_mask {cap : UInt64} (h : ∃ k, 1 ≤ k ∧ cap.toNat = 2 ^ k) (x : UInt64) :
    (x &&& (cap - 1)).toNat = x.toNat % cap.toNat := by
  obtain ⟨k, hk, hcap⟩ := h
  have hpos : 1 < 2 ^ k := Nat.one_lt_two_pow (by omega)
  have hsub : (cap - 1).toNat = 2 ^ k - 1 := by
    rw [UInt64.toNat_sub_of_le _ _ (UInt64.le_iff_toNat_le.mpr (by simp; omega)), hcap]; rfl
  rw [UInt64.toNat_and, hsub, hcap, Nat.and_two_pow_sub_one_eq_mod]

/-- A ring has at least two cells, one of them for elements. -/
theorem cap_pos (r : RingByteBuf) : 1 < r.cap_.toNat := by
  obtain ⟨k, hk, hcap⟩ := r.cap_pow
  rw [hcap]
  exact Nat.one_lt_two_pow (by omega)

/-- An index is stored as `i & mask_`, so it points at a cell. -/
theorem masked_lt (r : RingByteBuf) (i : UInt64) : (i &&& r.mask_).toNat < r.cap_.toNat := by
  rw [r.mask_eq, toNat_and_mask r.cap_pow]
  exact Nat.mod_lt _ (by have := r.cap_pos; omega)

/-- The constructor.  `none` is the exception for a capacity outside
    `(0, SIZE_MAX / 2]`. -/
def new (malloc : Malloc) (capacity : UInt64) : Option RingByteBuf :=
  if h : 0 < capacity.toNat ∧ capacity.toNat ≤ 2 ^ 63 - 1 then
    have hspec := ceilToPowerOfTwo_spec (n := capacity + 1)
      (by rw [UInt64.toNat_add]; simp; omega) (by rw [UInt64.toNat_add]; simp; omega)
    have hpos : 0 < (ceilToPowerOfTwo (capacity + 1)).toNat := by
      obtain ⟨k, -, hk, -⟩ := hspec
      rw [hk]; exact Nat.two_pow_pos k
    some
      { buf_ := malloc (ceilToPowerOfTwo (capacity + 1)).toNat
        cap_ := ceilToPowerOfTwo (capacity + 1)
        mask_ := ceilToPowerOfTwo (capacity + 1) - 1
        head_ := 0
        tail_ := 0
        cap_pow := hspec.imp fun _ hk => ⟨hk.1, hk.2.1⟩
        mask_eq := rfl
        buf_length := (malloc _).2
        head_lt := hpos
        tail_lt := hpos }
  else none

/-- `readableBytes`. -/
def readableBytes (r : RingByteBuf) : Nat :=
  ((r.tail_ - r.head_) &&& r.mask_).toNat

/-- `writableBytes`. -/
def writableBytes (r : RingByteBuf) : Nat :=
  if r.cap_ == 0 then 0 else (r.cap_ - 1).toNat - r.readableBytes

/-- `capacity`: the number of bytes the ring can hold. -/
def capacity (r : RingByteBuf) : Nat :=
  if r.cap_ == 0 then 0 else (r.cap_ - 1).toNat

/-- Store the read index: `head_.store(i & mask_)`. -/
def setHead (r : RingByteBuf) (i : UInt64) : RingByteBuf :=
  { r with head_ := i &&& r.mask_, head_lt := r.masked_lt i }

/-- Store the write index: `tail_.store(i & mask_)`. -/
def setTail (r : RingByteBuf) (i : UInt64) : RingByteBuf :=
  { r with tail_ := i &&& r.mask_, tail_lt := r.masked_lt i }

/-- `memcpy(buf_ + off, src, src.length)`; a copy past the array is not performed. -/
def memcpy (r : RingByteBuf) (off : Nat) (src : List UInt8) : RingByteBuf :=
  if h : off + src.length ≤ r.buf_.length then
    { r with
      buf_ := overwrite r.buf_ off src
      buf_length := (length_overwrite h).trans r.buf_length }
  else r

/-- `tryWrite`. -/
def tryWrite (r : RingByteBuf) (src : List UInt8) : Bool × RingByteBuf :=
  if src.length = 0 then (true, r)
  -- all or nothing
  else if src.length > r.writableBytes then (false, r)
  else
    let t := r.tail_
    -- up to the end of the array, the rest from its start
    let first := min src.length (r.cap_ - t).toNat
    let r := r.memcpy t.toNat (src.take first)
    let r := if src.length > first then r.memcpy 0 (src.drop first) else r
    (true, r.setTail (t + UInt64.ofNat src.length))

/-- The bytes copied out by `read` and `peek`: up to `toread` from the read index,
    in two pieces when they pass the end of the array. -/
def copyOut (r : RingByteBuf) (toread : Nat) : List UInt8 :=
  let h := r.head_
  let first := min toread (r.cap_ - h).toNat
  slice r.buf_ h.toNat first ++ (if toread > first then slice r.buf_ 0 (toread - first) else [])

/-- `read`: the bytes copied to `dst` (their number is the return value) and the ring. -/
def read (r : RingByteBuf) (len : Nat) : List UInt8 × RingByteBuf :=
  if len = 0 then ([], r)
  else if r.readableBytes = 0 then ([], r)
  else
    -- a short read takes what there is
    let toread := min len r.readableBytes
    (r.copyOut toread, r.setHead (r.head_ + UInt64.ofNat toread))

/-- `peek`: as `read`, leaving the read index. -/
def peek (r : RingByteBuf) (len : Nat) : List UInt8 :=
  if len = 0 then []
  else if r.readableBytes = 0 then []
  else r.copyOut (min len r.readableBytes)

/-- `linearReadablePtr`: the offset of the returned pointer in `buf_` (`none` is
    `nullptr`) and `*outLen`. -/
def linearReadablePtr (r : RingByteBuf) : Option Nat × Nat :=
  if r.readableBytes = 0 then (none, 0)
  else (some r.head_.toNat, min r.readableBytes (r.cap_ - r.head_).toNat)

/-- `linearWritablePtr`: the offset of the returned pointer in `buf_` (`none` is
    `nullptr`) and `*outLen`. -/
def linearWritablePtr (r : RingByteBuf) : Option Nat × Nat :=
  if r.writableBytes = 0 then (none, 0)
  else (some r.tail_.toNat, min r.writableBytes (r.cap_ - r.tail_).toNat)

/-- What filling the window that `linearWritablePtr` returned with `bytes` leaves (the
    kernel's `read` does this between `uv_alloc_cb` and `uv_read_cb`). -/
def fillWritable (r : RingByteBuf) (bytes : List UInt8) : RingByteBuf :=
  match r.linearWritablePtr.1 with
  | some base => r.memcpy base bytes
  | none => r

/-- `advanceReadIndex`. -/
def advanceReadIndex (r : RingByteBuf) (n : Nat) : Bool × RingByteBuf :=
  if n = 0 then (true, r)
  else if n > r.readableBytes then (false, r)
  else (true, r.setHead (r.head_ + UInt64.ofNat n))

/-- `advanceWriteIndex`. -/
def advanceWriteIndex (r : RingByteBuf) (n : Nat) : Bool × RingByteBuf :=
  if n = 0 then (true, r)
  else if n > r.writableBytes then (false, r)
  else (true, r.setTail (r.tail_ + UInt64.ofNat n))

/-- `clear`. -/
def clear (r : RingByteBuf) : RingByteBuf :=
  { r with
    head_ := 0
    tail_ := 0
    head_lt := Nat.lt_of_succ_lt r.cap_pos
    tail_lt := Nat.lt_of_succ_lt r.cap_pos }

/-- `ByteBuffer::writeInt32`: the result of `tryWrite` is not looked at. -/
def writeInt32 (r : RingByteBuf) (value : UInt32) : RingByteBuf :=
  (r.tryWrite (Endian.store Endian.hostOrder (Endian.toNetwork32 Endian.hostOrder value))).2

/-- `ByteBuffer::writeBytes`. -/
def writeBytes (r : RingByteBuf) (body : List UInt8) : Bool × RingByteBuf :=
  r.tryWrite body

/-! ## The capacity: what the constructor makes it, and that no operation changes it -/

/-- Moving the read index keeps the capacity. -/
@[simp] theorem capacity_setHead (r : RingByteBuf) (i : UInt64) :
    (r.setHead i).capacity = r.capacity := rfl

/-- Moving the write index keeps the capacity. -/
@[simp] theorem capacity_setTail (r : RingByteBuf) (i : UInt64) :
    (r.setTail i).capacity = r.capacity := rfl

/-- `clear` keeps the array. -/
@[simp] theorem capacity_clear (r : RingByteBuf) : r.clear.capacity = r.capacity := rfl

/-- All cells but one can be filled. -/
theorem capacity_eq (r : RingByteBuf) : r.capacity = r.cap_.toNat - 1 := by
  have := r.cap_pos
  have hne : (r.cap_ == 0) = false := by
    rw [beq_eq_false_iff_ne]
    intro h
    rw [h] at this
    simp at this
  rw [capacity, hne, if_neg (by decide),
    UInt64.toNat_sub_of_le _ _ (UInt64.le_iff_toNat_le.mpr (by simp; omega))]
  rfl

/-- A new ring holds at least the requested number of bytes, and less than twice
    as many. -/
theorem new_capacity {malloc : Malloc} {c : UInt64} {r : RingByteBuf}
    (h : new malloc c = some r) : c.toNat ≤ r.capacity ∧ r.capacity < 2 * c.toNat := by
  simp only [new] at h
  split at h
  · rename_i hc
    have hadd : (c + 1).toNat = c.toNat + 1 := by rw [UInt64.toNat_add]; simp; omega
    obtain ⟨k, -, hk, hle, hlt⟩ := ceilToPowerOfTwo_spec (n := c + 1)
      (by rw [hadd]; omega) (by rw [hadd]; omega)
    obtain rfl := Option.some.inj h
    rw [capacity_eq]
    simp only [hk]
    omega
  · exact nomatch h

/-- The constructor accepts every capacity in `(0, SIZE_MAX / 2]`. -/
theorem new_isSome (malloc : Malloc) {c : UInt64} (h0 : 0 < c.toNat) (h1 : c.toNat ≤ 2 ^ 63 - 1) :
    (new malloc c).isSome := by
  rw [new, dif_pos ⟨h0, h1⟩]
  rfl

/-- A copy into the cells keeps the capacity. -/
@[simp] theorem capacity_memcpy (r : RingByteBuf) (off : Nat) (src : List UInt8) :
    (r.memcpy off src).capacity = r.capacity := by
  simp only [memcpy]; split <;> rfl

/-- What the kernel reads into the window keeps the capacity. -/
@[simp] theorem capacity_fillWritable (r : RingByteBuf) (bytes : List UInt8) :
    (r.fillWritable bytes).capacity = r.capacity := by
  simp only [fillWritable]; split <;> simp only [capacity_memcpy]

/-- `tryWrite` keeps the capacity, whether the bytes fit or not. -/
@[simp] theorem capacity_tryWrite (r : RingByteBuf) (src : List UInt8) :
    (r.tryWrite src).2.capacity = r.capacity := by
  simp only [tryWrite]
  split
  · rfl
  · split
    · rfl
    · rw [capacity_setTail]
      split <;> simp only [capacity_memcpy]

/-- `writeInt32` keeps the capacity. -/
@[simp] theorem capacity_writeInt32 (r : RingByteBuf) (value : UInt32) :
    (r.writeInt32 value).capacity = r.capacity :=
  capacity_tryWrite r _

/-- `writeBytes` keeps the capacity. -/
@[simp] theorem capacity_writeBytes (r : RingByteBuf) (body : List UInt8) :
    (r.writeBytes body).2.capacity = r.capacity :=
  capacity_tryWrite r _

/-- `read` keeps the capacity. -/
@[simp] theorem capacity_read (r : RingByteBuf) (len : Nat) :
    (r.read len).2.capacity = r.capacity := by
  simp only [read]
  split
  · rfl
  · split <;> rfl

/-- `advanceReadIndex` keeps the capacity. -/
@[simp] theorem capacity_advanceReadIndex (r : RingByteBuf) (n : Nat) :
    (r.advanceReadIndex n).2.capacity = r.capacity := by
  simp only [advanceReadIndex]
  split
  · rfl
  · split <;> rfl

/-- `advanceWriteIndex` keeps the capacity. -/
@[simp] theorem capacity_advanceWriteIndex (r : RingByteBuf) (n : Nat) :
    (r.advanceWriteIndex n).2.capacity = r.capacity := by
  simp only [advanceWriteIndex]
  split
  · rfl
  · split <;> rfl

end RingByteBuf

end Athena
