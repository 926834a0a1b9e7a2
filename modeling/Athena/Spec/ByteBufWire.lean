import Athena.Native.ByteBuf
import Athena.Native.ByteConverter

/-!
# What the configuration bytes say

A number is written as a first byte and up to eight more, most significant first; the first
byte says by its leading ones how many follow (`packed`).  Each `write` appends the bytes of
its value (`writeUint_eq`, `writeUlong_eq`), each `read` takes exactly them and gives the
value back (`Reads`), and it refuses a buffer that ends inside them (`Refuses`).
-/

namespace Athena.Luban

open Cyclic Reader

/-! ## The bytes of a number -/

/-- `k` bytes of a number, most significant first. -/
def bigEndian : Nat → Nat → List UInt8
  | 0, _ => []
  | k + 1, n => (n / 256 ^ k).toUInt8 :: bigEndian k n

/-- A first byte and `k` more: the first has the top bits of the number above `mark`. -/
def packed (mark k n : Nat) : List UInt8 := (mark + n / 256 ^ k).toUInt8 :: bigEndian k n

/-- What `writeUint` appends. -/
def uintBytes (x : UInt32) : List UInt8 :=
  if x.toNat < 0x80 then packed 0 0 x.toNat
  else if x.toNat < 0x4000 then packed 0x80 1 x.toNat
  else if x.toNat < 0x200000 then packed 0xc0 2 x.toNat
  else if x.toNat < 0x10000000 then packed 0xe0 3 x.toNat
  else packed 0xf0 4 x.toNat

/-- What `writeShort` appends. -/
def shortBytes (x : Int16) : List UInt8 :=
  if x.toUInt16.toNat < 0x80 then packed 0 0 x.toUInt16.toNat
  else if x.toUInt16.toNat < 0x4000 then packed 0x80 1 x.toUInt16.toNat
  else packed 0xff 2 x.toUInt16.toNat

/-- What `writeBool` appends. -/
def boolBytes (b : Bool) : List UInt8 := [if b then 1 else 0]

/-- What `writeUlong` appends. -/
def ulongBytes (x : UInt64) : List UInt8 :=
  if x.toNat < 0x80 then packed 0 0 x.toNat
  else if x.toNat < 0x4000 then packed 0x80 1 x.toNat
  else if x.toNat < 0x200000 then packed 0xc0 2 x.toNat
  else if x.toNat < 0x10000000 then packed 0xe0 3 x.toNat
  else if x.toNat < 0x800000000 then packed 0xf0 4 x.toNat
  else if x.toNat < 0x40000000000 then packed 0xf8 5 x.toNat
  else if x.toNat < 0x200000000000 then packed 0xfc 6 x.toNat
  else if x.toNat < 0x100000000000000 then packed 0xfe 7 x.toNat
  else packed 0xff 8 x.toNat

/-- A number is as long as it says. -/
@[simp] theorem length_bigEndian (k n : Nat) : (bigEndian k n).length = k := by
  induction k with
  | zero => rfl
  | succ k ih => simp [bigEndian, ih]

/-- A number behind a first byte. -/
@[simp] theorem length_packed (mark k n : Nat) : (packed mark k n).length = k + 1 := by
  simp [packed]

/-- The five forms of a number. -/
theorem uintBytes_cases {P : List UInt8 → Prop} (x : UInt32)
    (h₀ : x.toNat < 0x80 → P (packed 0 0 x.toNat))
    (h₁ : 0x80 ≤ x.toNat → x.toNat < 0x4000 → P (packed 0x80 1 x.toNat))
    (h₂ : 0x4000 ≤ x.toNat → x.toNat < 0x200000 → P (packed 0xc0 2 x.toNat))
    (h₃ : 0x200000 ≤ x.toNat → x.toNat < 0x10000000 → P (packed 0xe0 3 x.toNat))
    (h₄ : 0x10000000 ≤ x.toNat → x.toNat < 2 ^ 32 → P (packed 0xf0 4 x.toNat)) :
    P (uintBytes x) := by
  unfold uintBytes
  by_cases hx₀ : x.toNat < 0x80
  · rw [if_pos hx₀]
    exact h₀ hx₀
  rw [if_neg hx₀]
  by_cases hx₁ : x.toNat < 0x4000
  · rw [if_pos hx₁]
    exact h₁ (by omega) hx₁
  rw [if_neg hx₁]
  by_cases hx₂ : x.toNat < 0x200000
  · rw [if_pos hx₂]
    exact h₂ (by omega) hx₂
  rw [if_neg hx₂]
  by_cases hx₃ : x.toNat < 0x10000000
  · rw [if_pos hx₃]
    exact h₃ (by omega) hx₃
  rw [if_neg hx₃]
  exact h₄ (by omega) x.toNat_lt

/-- The nine forms of a number. -/
theorem ulongBytes_cases {P : List UInt8 → Prop} (x : UInt64)
    (h₀ : x.toNat < 0x80 → P (packed 0 0 x.toNat))
    (h₁ : 0x80 ≤ x.toNat → x.toNat < 0x4000 → P (packed 0x80 1 x.toNat))
    (h₂ : 0x4000 ≤ x.toNat → x.toNat < 0x200000 → P (packed 0xc0 2 x.toNat))
    (h₃ : 0x200000 ≤ x.toNat → x.toNat < 0x10000000 → P (packed 0xe0 3 x.toNat))
    (h₄ : 0x10000000 ≤ x.toNat → x.toNat < 0x800000000 → P (packed 0xf0 4 x.toNat))
    (h₅ : 0x800000000 ≤ x.toNat → x.toNat < 0x40000000000 → P (packed 0xf8 5 x.toNat))
    (h₆ : 0x40000000000 ≤ x.toNat → x.toNat < 0x200000000000 → P (packed 0xfc 6 x.toNat))
    (h₇ : 0x200000000000 ≤ x.toNat → x.toNat < 0x100000000000000 → P (packed 0xfe 7 x.toNat))
    (h₈ : 0x100000000000000 ≤ x.toNat → x.toNat < 2 ^ 64 → P (packed 0xff 8 x.toNat)) :
    P (ulongBytes x) := by
  unfold ulongBytes
  by_cases hx₀ : x.toNat < 0x80
  · rw [if_pos hx₀]
    exact h₀ hx₀
  rw [if_neg hx₀]
  by_cases hx₁ : x.toNat < 0x4000
  · rw [if_pos hx₁]
    exact h₁ (Nat.le_of_not_lt hx₀) hx₁
  rw [if_neg hx₁]
  by_cases hx₂ : x.toNat < 0x200000
  · rw [if_pos hx₂]
    exact h₂ (Nat.le_of_not_lt hx₁) hx₂
  rw [if_neg hx₂]
  by_cases hx₃ : x.toNat < 0x10000000
  · rw [if_pos hx₃]
    exact h₃ (Nat.le_of_not_lt hx₂) hx₃
  rw [if_neg hx₃]
  by_cases hx₄ : x.toNat < 0x800000000
  · rw [if_pos hx₄]
    exact h₄ (Nat.le_of_not_lt hx₃) hx₄
  rw [if_neg hx₄]
  by_cases hx₅ : x.toNat < 0x40000000000
  · rw [if_pos hx₅]
    exact h₅ (Nat.le_of_not_lt hx₄) hx₅
  rw [if_neg hx₅]
  by_cases hx₆ : x.toNat < 0x200000000000
  · rw [if_pos hx₆]
    exact h₆ (Nat.le_of_not_lt hx₅) hx₆
  rw [if_neg hx₆]
  by_cases hx₇ : x.toNat < 0x100000000000000
  · rw [if_pos hx₇]
    exact h₇ (Nat.le_of_not_lt hx₆) hx₇
  rw [if_neg hx₇]
  exact h₈ (Nat.le_of_not_lt hx₇) x.toNat_lt

/-- A number takes at least one byte. -/
theorem uintBytes_pos (x : UInt32) : 0 < (uintBytes x).length := by
  refine uintBytes_cases (P := fun bs => 0 < bs.length) x ?_ ?_ ?_ ?_ ?_ <;> simp

/-- So does a long one. -/
theorem ulongBytes_pos (x : UInt64) : 0 < (ulongBytes x).length := by
  refine ulongBytes_cases (P := fun bs => 0 < bs.length) x ?_ ?_ ?_ ?_ ?_ ?_ ?_ ?_ ?_ <;> simp

/-! ## The words of a first byte and its followers -/

/-- A byte as a word of the source. -/
theorem toNat_byte (n : Nat) : n.toUInt8.toUInt32.toNat = n % 256 := by simp

/-- The low bits of a byte, which a mask leaves. -/
theorem toNat_byte_and (n k : Nat) (mask : UInt32) (h : mask.toNat = 2 ^ k - 1) :
    (n.toUInt8.toUInt32 &&& mask).toNat = n % 256 % 2 ^ k := by
  rw [UInt32.toNat_and, toNat_byte, h, Nat.and_two_pow_sub_one_eq_mod]

/-- A byte is below 256, -/
theorem toNat_byte_lt (n : Nat) : n.toUInt8.toUInt32.toNat < 256 := by
  rw [toNat_byte]
  omega

/-- also behind a mask, -/
theorem toNat_byte_and_lt (n : Nat) (mask : UInt32) :
    (n.toUInt8.toUInt32 &&& mask).toNat < 256 := by
  rw [UInt32.toNat_and]
  exact Nat.lt_of_le_of_lt Nat.and_le_left (toNat_byte_lt n)

/-- and so is the byte that is missing. -/
theorem toNat_zero_lt : (0 : UInt32).toNat < 256 := by decide

/-- A word put together from four bytes. -/
theorem toNat_word {a b c d : UInt32} (ha : a.toNat < 256) (hb : b.toNat < 256)
    (hc : c.toNat < 256) (hd : d.toNat < 256) : (ByteBuf.word a b c d).toNat =
      a.toNat * 2 ^ 24 + b.toNat * 2 ^ 16 + c.toNat * 2 ^ 8 + d.toNat :=
  Endian.toNat_word ha hb hc hd

/-- A long word put together from two words. -/
theorem toNat_long (xh xl : UInt32) :
    (ByteBuf.long xh xl).toNat = xh.toNat * 2 ^ 32 + xl.toNat := by
  have hh := xh.toNat_lt
  have hl := xl.toNat_lt
  show xh.toNat <<< 32 % 2 ^ 64 ||| xl.toNat = _
  rw [Nat.shiftLeft_eq, Nat.mod_eq_of_lt (by omega), ← Nat.shiftLeft_eq,
    ← Nat.shiftLeft_add_eq_or_of_lt hl, Nat.shiftLeft_eq]

/-- The low four bytes of a number. -/
theorem four_bytes (n : Nat) : n / 256 ^ 3 % 256 * 2 ^ 24 + n / 256 ^ 2 % 256 * 2 ^ 16 +
    n / 256 ^ 1 % 256 * 2 ^ 8 + n / 256 ^ 0 % 256 = n % 2 ^ 32 := by
  omega

/-- A comparison of a first byte. -/
theorem byte_lt {n : Nat} (hn : n < 256) (c : UInt32) :
    n.toUInt8.toUInt32 < c ↔ n < c.toNat := by
  rw [UInt32.lt_iff_toNat_lt, toNat_byte, Nat.mod_eq_of_lt hn]

/-- The branch of a number whose first byte is below `c`. -/
theorem if_byte_lt {α : Type} {n : Nat} {c : UInt32} {a b : α} (hn : n < 256)
    (h : n < c.toNat) : (if n.toUInt8.toUInt32 < c then a else b) = a :=
  if_pos ((byte_lt hn c).mpr h)

/-- The branch of a number whose first byte is `c` or above it. -/
theorem if_byte_le {α : Type} {n : Nat} {c : UInt32} {a b : α} (hn : n < 256)
    (h : c.toNat ≤ n) : (if n.toUInt8.toUInt32 < c then a else b) = b :=
  if_neg fun hlt => Nat.not_lt.mpr h ((byte_lt hn c).mp hlt)

/-! ## Memory images -/

/-- An image is as long as its type. -/
@[simp] theorem length_image (k n : Nat) : (image k n).length = k := by
  induction k generalizing n with
  | zero => rfl
  | succ k ih => simp [image, ih]

/-- An image gives back the number, as far as its type goes. -/
theorem ofImage_image (k n : Nat) : ofImage (image k n) = n % 256 ^ k := by
  induction k generalizing n with
  | zero => simp [image, ofImage, Nat.mod_one]
  | succ k ih =>
    have hb : n.toUInt8.toNat = n % 256 := UInt8.toNat_ofNat'
    rw [image, ofImage, ih, hb, Nat.pow_succ, Nat.mul_comm (256 ^ k), Nat.mod_mul]

/-! ## Signs -/

/-- The shift of a number by all but one of its bits spreads its sign. -/
theorem sshiftRight_sign {w : Nat} (x : BitVec w) :
    x.sshiftRight (w - 1) = if x.msb then BitVec.allOnes w else 0#w := by
  ext i hi
  have hmsb : x.msb = x.getLsbD (w - 1) := BitVec.msb_eq_getLsbD_last x
  rw [BitVec.getElem_sshiftRight]
  split
  · have hi0 : w - 1 + i = w - 1 := by omega
    rw [← BitVec.getLsbD_eq_getElem, hi0, ← hmsb]
    cases x.msb <;> simp
  · cases x.msb <;> simp

/-- What `writeSint` does to a number, `readSint` undoes: the sign goes to the lowest bit. -/
theorem zigzag {w : Nat} (x : BitVec w) (hw : 1 < w) :
    ((((x <<< 1) ^^^ x.sshiftRight (w - 1)) >>> 1) ^^^
      -(((x <<< 1) ^^^ x.sshiftRight (w - 1)) &&& 1#w)) = x := by
  have hmsb : x.msb = x.getLsbD (w - 1) := BitVec.msb_eq_getLsbD_last x
  rw [sshiftRight_sign]
  cases hm : x.msb with
  | false =>
    have hlow : x <<< 1 &&& 1#w = 0#w := by
      ext i hi
      by_cases h0 : i = 0 <;> simp [h0, BitVec.getElem_one]
    simp only [Bool.false_eq_true, if_false, BitVec.xor_zero, hlow, BitVec.neg_zero]
    ext i hi
    by_cases hl : 1 + i < w
    · -- a bit that the shift keeps
      simp [hl]
    · obtain rfl : i = w - 1 := by omega
      simp_all
  | true =>
    -- a negative number has all bits turned, and the last bit says so
    have hlow : (x <<< 1 ^^^ BitVec.allOnes w) &&& 1#w = 1#w := by
      ext i hi
      by_cases h0 : i = 0 <;> simp [h0, BitVec.getElem_one]
    simp only [if_true, hlow, BitVec.neg_one_eq_allOnes]
    ext i hi
    by_cases hl : 1 + i < w
    · simp [hl]
    · obtain rfl : i = w - 1 := by omega
      simp_all

/-- The first byte is compared as a number. -/
theorem byte_eq {n : Nat} (hn : n < 256) (c : UInt32) :
    n.toUInt8.toUInt32 = c ↔ n = c.toNat := by
  rw [← UInt32.toNat_inj, toNat_byte, Nat.mod_eq_of_lt hn]

namespace ByteBuf

/-! ## Steps of a reader -/

/-- What has been read is no longer there to read. -/
theorem contents_skip (n : Nat) (buf : ByteBuf) :
    (buf.skip n).contents = buf.contents.drop n := by
  have := buf.begin_le
  have := buf.end_le
  simp only [contents, skip, size, slice, List.drop_take, List.drop_drop]
  by_cases h : buf._beginPos + n ≤ buf._endPos
  · rw [Nat.min_eq_left h, Nat.sub_add_eq]
  · rw [Nat.min_eq_right (by omega), Nat.sub_self, List.take_zero,
      Nat.sub_eq_zero_of_le (by omega), List.take_zero]

/-- Nothing is skipped. -/
theorem skip_zero (buf : ByteBuf) : buf.skip 0 = buf := by
  simp only [skip, Nat.add_zero, Nat.min_eq_left buf.begin_le]

/-- Bytes are skipped one after another. -/
theorem skip_skip (m n : Nat) (buf : ByteBuf) : (buf.skip m).skip n = buf.skip (m + n) := by
  simp only [skip]
  congr 1
  omega

/-- The read position moves over what is skipped. -/
theorem begin_skip {m : Nat} {buf : ByteBuf} (h : m ≤ buf.contents.length) :
    (buf.skip m)._beginPos = buf._beginPos + m := by
  have hb := buf.begin_le
  rw [length_contents, size] at h
  simp only [skip]
  omega

/-- The bytes between the positions are the stream; the read position counts up to a
    gigabyte, where no sum of the source leaves `int`. -/
def view : View ByteBuf UInt8 where
  rest := contents
  skip := skip
  room n buf := buf._beginPos + n ≤ 2 ^ 30
  rest_skip := contents_skip
  skip_zero := skip_zero
  skip_skip := skip_skip
  room_mono h hroom := Nat.le_trans (Nat.add_le_add_left h _) hroom
  room_skip h hroom := by rwa [begin_skip h, Nat.add_assoc]

/-- The bytes that are needed are there. -/
theorem need_done {buf : ByteBuf} {n : Int} (h : n ≤ buf.size) : need n buf = .done () buf := by
  have hb := buf.begin_le
  have he := buf.end_le
  have hc := buf.capacity_lt
  simp only [size] at h
  simp only [need, ensureRead, bind_apply]
  rw [if_neg (by omega)]
  simp only [branch_apply, decide_eq_true_eq]
  rw [if_pos (by omega), pure_apply]

/-- They are not there, and the comparison does not overflow. -/
theorem need_refused {buf : ByteBuf} {n : Int} (h : buf.size < n)
    (hroom : buf._beginPos + n < 2 ^ 31) : need n buf = .refused buf := by
  have hb := buf.begin_le
  simp only [size] at h
  simp only [need, ensureRead, bind_apply]
  rw [if_neg (by omega)]
  simp only [branch_apply, decide_eq_true_eq]
  rw [if_neg (by omega)]
  rfl

/-- A byte that has not been read yet. -/
theorem byteAt_done {buf : ByteBuf} {i : Nat} (h : i < buf.size) :
    byteAt i buf = .done (buf.contents.getD i 0) buf := by
  have hget : buf._data[buf._beginPos + i]? = some (buf.contents.getD i 0) := by
    rw [List.getD_eq_getElem?_getD, contents, getElem?_slice, if_pos h, List.getElem?_eq_getElem]
    · rfl
    · have := buf.end_le
      simp only [size] at h
      omega
  simp only [byteAt, hget]

/-- The same byte as a word. -/
theorem wordAt_done {buf : ByteBuf} {i : Nat} (h : i < buf.size) :
    wordAt i buf = .done (buf.contents.getD i 0).toUInt32 buf := by
  simp only [wordAt, bind_apply, byteAt_done h, pure_apply]

/-- The read position moves over bytes that are there. -/
theorem advance_done {buf : ByteBuf} {n : Nat} (h : n ≤ buf.size) :
    advance n buf = .done () (buf.skip n) := by
  have := buf.begin_le
  simp only [size] at h
  rw [advance, if_pos (by omega)]

/-- The next bytes, without moving the read position. -/
theorem peek_done {buf : ByteBuf} {n : Nat} (h : n ≤ buf.size) :
    peek n buf = .done (buf.contents.take n) buf := by
  have := buf.begin_le
  have := buf.end_le
  have hn := h
  simp only [size] at hn
  rw [peek, if_pos (by omega), contents, slice, slice, List.take_take, Nat.min_eq_left h]

/-- A buffer that ends inside `b :: bs` is empty, or has `b` at the front. -/
theorem inside_cons {b : UInt8} {bs : List UInt8} {buf : ByteBuf}
    (h : Inside view (b :: bs) buf) : buf.size ≤ bs.length ∧
      buf._beginPos + (bs.length + 1) ≤ 2 ^ 30 ∧ (0 < buf.size → buf.contents.getD 0 0 = b) := by
  have hlt : buf.contents.length < (b :: bs).length := h.lt
  rw [length_contents, List.length_cons] at hlt
  refine ⟨by omega, h.room, fun hpos => ?_⟩
  obtain ⟨t, ht⟩ : buf.contents <+: b :: bs := h.isPrefix
  cases hc : buf.contents with
  | nil => rw [← length_contents, hc] at hpos; exact absurd hpos (Nat.lt_irrefl 0)
  | cons c cs =>
    rw [hc, List.cons_append] at ht
    exact (List.cons.inj ht).1

/-! ## Reading behind a first byte -/

/-- With all bytes there, the value is taken and the read position moves over them. -/
theorem taking_done {α : Type} {buf : ByteBuf} {n : Nat} {f : Reader ByteBuf α} {x : α}
    (h : n ≤ buf.size) (hf : f buf = .done x buf) : taking n f buf = .done x (buf.skip n) := by
  simp only [taking, bind_apply, need_done (Int.ofNat_le.mpr h), hf, advance_done h, pure_apply]

/-- With too few bytes, nothing is taken. -/
theorem taking_refused {α : Type} {buf : ByteBuf} {n : Nat} {f : Reader ByteBuf α}
    (h : buf.size < n) (hroom : buf._beginPos + n < 2 ^ 31) :
    taking n f buf = .refused buf := by
  simp only [taking, bind_apply, need_refused (Int.ofNat_lt.mpr h) (by omega)]

/-- `of` goes by the first byte. -/
theorem first_done {α : Type} {buf : ByteBuf} {of : UInt32 → Reader ByteBuf α} {b : UInt8}
    {bs : List UInt8} (h : buf.contents = b :: bs) :
    (do need 1; of (← wordAt 0)) buf = of b.toUInt32 buf := by
  have hsize : buf.size = bs.length + 1 := by rw [← length_contents, h, List.length_cons]
  rw [bind_done (need_done (by omega)), bind_done (wordAt_done (by omega)), h,
    List.getD_cons_zero]

/-- A reader that goes by the first byte `b` refuses a buffer that ends inside `b :: bs`. -/
theorem first_refused {α : Type} {of : UInt32 → Reader ByteBuf α} {b : UInt8} {bs : List UInt8}
    (hof : bs ≠ [] → ∃ f, of b.toUInt32 = taking (bs.length + 1) f) :
    Refuses view (do need 1; of (← wordAt 0)) (b :: bs) := by
  intro buf h
  obtain ⟨hsize, hroom, hfirst⟩ := inside_cons h
  refine ⟨buf, ?_⟩
  by_cases hz : buf.size = 0
  · exact bind_refused (need_refused (by omega) (by omega))
  · obtain ⟨f, hf⟩ := hof (List.ne_nil_of_length_pos (by omega))
    rw [bind_done (need_done (by omega)), bind_done (wordAt_done (by omega)),
      hfirst (by omega), hf]
    exact taking_refused (by omega) (by omega)

/-! ## Numbers of one to nine bytes -/

/-- The first byte of `bs` chooses a branch of `of` that makes `a` of all of `bs`. -/
inductive Chosen {α : Type} (of : UInt32 → Reader ByteBuf α) (a : α) : List UInt8 → Prop where
  | alone {b : UInt8} (h : of b.toUInt32 = do advance 1; return a) : Chosen of a [b]
  | followed {b : UInt8} {bs : List UInt8} {f : Reader ByteBuf α}
      (h : of b.toUInt32 = taking (bs.length + 1) f)
      (hf : ∀ buf t, bs.length < buf.size → buf.contents = b :: (bs ++ t) →
        f buf = .done a buf) : Chosen of a (b :: bs)

section Chosen

variable {α : Type} {of : UInt32 → Reader ByteBuf α} {a : α} {bs : List UInt8}

/-- A number is refused where the buffer ends inside its bytes. -/
theorem Chosen.refuses (h : Chosen of a bs) : Refuses view (do need 1; of (← wordAt 0)) bs := by
  cases h with
  | alone h => exact first_refused fun hne => absurd rfl hne
  | followed h hf => exact first_refused fun _ => ⟨_, h⟩

/-- A number is read wherever its bytes stand. -/
theorem Chosen.reads (h : Chosen of a bs) : Reads view (do need 1; of (← wordAt 0)) bs a := by
  intro buf t _ hrest
  replace hrest : buf.contents = bs ++ t := hrest
  have hsize : buf.size = bs.length + t.length := by
    rw [← length_contents, hrest, List.length_append]
  show (do need 1; of (← wordAt 0)) buf = .done a (buf.skip bs.length)
  cases h with
  | alone h =>
    rw [first_done hrest, h, bind_done (advance_done (by rw [hsize]; exact Nat.le_add_right _ _))]
    rfl
  | followed h hf =>
    rw [List.length_cons] at hsize
    rw [first_done hrest, h]
    exact taking_done (by omega) (hf buf t (by omega) hrest)

end Chosen

/-- `readUint` chooses the branch that `writeUint` took. -/
theorem uintOf_bytes (x : UInt32) : Chosen uintOf x (uintBytes x) := by
  refine uintBytes_cases x (fun hx => .alone ?_) ?_ ?_ ?_ ?_
  · -- one byte, which is the number
    rw [uintOf, if_byte_lt (by omega) (by simp only [UInt32.reduceToNat]; omega)]
    refine congrArg (fun a => do advance 1; return a) (UInt32.toNat_inj.mp ?_)
    rw [toNat_byte]
    omega
  -- the mark sends the read to the branch of the same length; its bytes make the number again
  all_goals
    intro hle hlt
    refine .followed (by
      rw [uintOf]
      simp (disch := first | omega | (simp only [UInt32.reduceToNat]; omega)) only
        [↓if_byte_lt, ↓if_byte_le, length_bigEndian]
      rfl) fun buf t hsize h => ?_
    simp only [bigEndian, List.length_cons, List.length_nil, List.cons_append] at h hsize
    simp (disch := omega) only [bind_apply, wordAt_done, h, List.getD_cons_zero,
      List.getD_cons_succ, pure_apply]
    refine congrArg (Reader.Outcome.done · _) (UInt32.toNat_inj.mp ?_)
    simp (disch := simp only [toNat_byte_lt, toNat_byte_and_lt, toNat_zero_lt]) only
      [toNat_word, toNat_byte, toNat_byte_and _ 6 0x3f rfl, toNat_byte_and _ 5 0x1f rfl,
        toNat_byte_and _ 4 0xf rfl, UInt32.reduceToNat]
    clear hsize h
    omega

/-- `readUlong` chooses the branch that `writeUlong` took. -/
theorem ulongOf_bytes (x : UInt64) : Chosen ulongOf x (ulongBytes x) := by
  refine ulongBytes_cases x (fun hx => .alone ?_) ?_ ?_ ?_ ?_ ?_ ?_ ?_ ?_
  · -- one byte, which is the number
    rw [ulongOf, if_byte_lt (by omega) (by simp only [UInt32.reduceToNat]; omega)]
    refine congrArg (fun a => do advance 1; return a) (UInt64.toNat_inj.mp ?_)
    rw [UInt32.toNat_toUInt64, toNat_byte]
    omega
  -- the mark sends the read to the branch of the same length; its bytes make the number again
  all_goals
    intro hle hlt
    refine .followed (by
      rw [ulongOf]
      simp (disch := first | omega | (simp only [UInt32.reduceToNat]; omega)) only
        [↓if_byte_lt, ↓if_byte_le, length_bigEndian]
      rfl) fun buf t hsize h => ?_
    simp only [bigEndian, List.length_cons, List.length_nil, List.cons_append] at h hsize
    simp (disch := omega) only [bind_apply, wordAt_done, h, List.getD_cons_zero,
      List.getD_cons_succ, pure_apply]
    refine congrArg (Reader.Outcome.done · _) (UInt64.toNat_inj.mp ?_)
    simp (disch := simp only [toNat_byte_lt, toNat_byte_and_lt, toNat_zero_lt]) only
      [toNat_long, UInt32.toNat_toUInt64, toNat_word, toNat_byte, toNat_byte_and _ 6 0x3f rfl,
        toNat_byte_and _ 5 0x1f rfl, toNat_byte_and _ 4 0xf rfl, toNat_byte_and _ 3 7 rfl,
        toNat_byte_and _ 2 3 rfl, toNat_byte_and _ 1 1 rfl, UInt32.reduceToNat, four_bytes]
    clear hsize h
    omega

/-- `readShort` chooses the branch that `writeShort` took. -/
theorem shortOf_bytes (x : Int16) : Chosen shortOf x (shortBytes x) := by
  have hx := x.toUInt16.toNat_lt
  -- the bits of the word are those of the number, whatever its sign
  have hval : ∀ w : UInt32, w.toNat % 2 ^ 16 = x.toUInt16.toNat → w.toUInt16.toInt16 = x := by
    intro w hw
    have hu : w.toUInt16 = x.toUInt16 := UInt16.toNat_inj.mp hw
    rw [hu, Int16.toInt16_toUInt16]
  unfold shortBytes
  split
  · next h0 =>
    refine .alone ?_
    simp (disch := omega) only [shortOf, byte_lt, UInt32.reduceToNat, if_pos]
    refine congrArg (fun a => do advance 1; return a) (hval _ ?_)
    rw [toNat_byte]
    omega
  split
  -- two or three bytes behind a mark
  all_goals
    refine .followed (by
      simp (disch := omega) only [shortOf, byte_lt, byte_eq, UInt32.reduceToNat, if_pos, if_neg,
        length_bigEndian]
      rfl) fun buf t hsize h => ?_
    simp only [bigEndian, List.length_cons, List.length_nil, List.cons_append] at h hsize
    simp (disch := omega) only [bind_apply, wordAt_done, h, List.getD_cons_zero,
      List.getD_cons_succ, pure_apply]
    refine congrArg (Reader.Outcome.done · _) (hval _ ?_)
    simp (disch := simp only [toNat_byte_lt, toNat_byte_and_lt, toNat_zero_lt]) only
      [toNat_word, toNat_byte, toNat_byte_and _ 6 0x3f rfl, UInt32.reduceToNat]
    omega

/-- An unsigned number is refused where its bytes are cut. -/
theorem refuses_readUint (x : UInt32) : Refuses view readUint (uintBytes x) :=
  (uintOf_bytes x).refuses

/-- An unsigned number comes back. -/
theorem reads_readUint (x : UInt32) : Reads view readUint (uintBytes x) x :=
  (uintOf_bytes x).reads

/-- A long unsigned number is refused where its bytes are cut. -/
theorem refuses_readUlong (x : UInt64) : Refuses view readUlong (ulongBytes x) :=
  (ulongOf_bytes x).refuses

/-- A long unsigned number comes back. -/
theorem reads_readUlong (x : UInt64) : Reads view readUlong (ulongBytes x) x :=
  (ulongOf_bytes x).reads

/-- A short number comes back. -/
theorem reads_readShort (x : Int16) : Reads view readShort (shortBytes x) x :=
  (shortOf_bytes x).reads

/-! ## Values of a fixed size -/

/-- A value of a fixed size is refused where it does not end. -/
theorem refuses_taking {α : Type} {f : Reader ByteBuf α} {n : Nat} {bs : List UInt8}
    (h : bs.length = n) : Refuses view (taking n f) bs := by
  intro buf hin
  have hlt : buf.contents.length < bs.length := hin.lt
  have hroom : buf._beginPos + bs.length ≤ 2 ^ 30 := hin.room
  rw [length_contents] at hlt
  exact ⟨buf, taking_refused (by omega) (by omega)⟩

/-- What the bytes at the front give is taken with them. -/
theorem reads_taking {α : Type} {f : Reader ByteBuf α} {n : Nat} {bs : List UInt8} {a : α}
    (hn : bs.length = n)
    (h : ∀ buf t, n ≤ buf.size → buf.contents = bs ++ t → f buf = .done a buf) :
    Reads view (taking n f) bs a := by
  intro buf t _ hrest
  replace hrest : buf.contents = bs ++ t := hrest
  have hsize : n ≤ buf.size := by
    rw [← length_contents, hrest, List.length_append]
    omega
  rw [hn]
  exact taking_done hsize (h buf t hsize hrest)

/-- A byte comes back. -/
theorem reads_readByte (b : UInt8) : Reads view readByte [b] b :=
  reads_taking rfl fun buf t hsize hrest => by
    rw [byteAt_done hsize, hrest]
    rfl

/-- A truth value comes back. -/
theorem reads_readBool (b : Bool) : Reads view readBool (boolBytes b) b :=
  reads_taking rfl fun buf t hsize hrest => by
    rw [bind_done (byteAt_done hsize), hrest]
    cases b <;> rfl

/-- A number that is stored as its memory image. -/
theorem reads_taking_image {α : Type} {f : Nat → α} {k n : Nat} (hn : n < 256 ^ k) :
    Reads view (taking k do return f (ofImage (← peek k))) (image k n) (f n) := by
  refine reads_taking (length_image k n) fun buf t hsize hrest => ?_
  have htake : (image k n ++ t).take k = image k n := by
    rw [List.take_append_of_le_length (by rw [length_image]), List.take_of_length_le]
    rw [length_image]
  rw [bind_done (peek_done hsize), hrest, htake, ofImage_image, Nat.mod_eq_of_lt hn, pure_apply]

/-- A short of fixed size comes back. -/
theorem reads_readFshort (x : Int16) : Reads view readFshort (image 2 x.toUInt16.toNat) x := by
  have h := reads_taking_image (f := fun n => n.toUInt16.toInt16) (k := 2) x.toUInt16.toNat_lt
  rwa [Nat.toUInt16, UInt16.ofNat_toNat, Int16.toInt16_toUInt16] at h

/-- An int of fixed size comes back. -/
theorem reads_readFint (x : Int32) : Reads view readFint (image 4 x.toUInt32.toNat) x := by
  have h := reads_taking_image (f := fun n => n.toUInt32.toInt32) (k := 4) x.toUInt32.toNat_lt
  rwa [Nat.toUInt32, UInt32.ofNat_toNat, Int32.toInt32_toUInt32] at h

/-- A long of fixed size comes back. -/
theorem reads_readFlong (x : Int64) : Reads view readFlong (image 8 x.toUInt64.toNat) x := by
  have h := reads_taking_image (f := fun n => n.toUInt64.toInt64) (k := 8) x.toUInt64.toNat_lt
  rwa [Nat.toUInt64, UInt64.ofNat_toNat, Int64.toInt64_toUInt64] at h

/-- The bits of a float come back. -/
theorem reads_readFloat (x : UInt32) : Reads view readFloat (image 4 x.toNat) x := by
  have h := reads_taking_image (f := Nat.toUInt32) (k := 4) x.toNat_lt
  rwa [Nat.toUInt32, UInt32.ofNat_toNat] at h

/-- The bits of a double come back. -/
theorem reads_readDouble (x : UInt64) : Reads view readDouble (image 8 x.toNat) x := by
  have h := reads_taking_image (f := Nat.toUInt64) (k := 8) x.toNat_lt
  rwa [Nat.toUInt64, UInt64.ofNat_toNat] at h

/-! ## Signed numbers -/

/-- A signed number comes back: it is written as the unsigned number of its bits. -/
theorem reads_readInt (x : Int32) : Reads view readInt (uintBytes x.toUInt32) x := by
  have h := (reads_readUint x.toUInt32).map (f := UInt32.toInt32)
  rwa [Int32.toInt32_toUInt32] at h

/-- A long signed number comes back. -/
theorem reads_readLong (x : Int64) : Reads view readLong (ulongBytes x.toUInt64) x := by
  have h := (reads_readUlong x.toUInt64).map (f := UInt64.toInt64)
  rwa [Int64.toInt64_toUInt64] at h

/-- The number that `writeSint` writes for `x`. -/
def sintOf (x : Int32) : UInt32 := ((x <<< 1) ^^^ (x >>> 31)).toUInt32

/-- The number that `writeSlong` writes for `x`. -/
def slongOf (x : Int64) : UInt64 := ((x <<< 1) ^^^ (x >>> 63)).toUInt64

/-- A signed number that is written with its sign last comes back. -/
theorem reads_readSint (x : Int32) : Reads view readSint (uintBytes (sintOf x)) x := by
  have h := (reads_readUint (sintOf x)).map (f := fun x : UInt32 => (x >>> 1).toInt32 ^^^ -(x.toInt32 &&& 1))
  have hx : ((sintOf x) >>> 1).toInt32 ^^^ -((sintOf x).toInt32 &&& 1) = x := by
    apply Int32.toBitVec_inj.mp
    simpa [sintOf] using zigzag x.toBitVec (by decide)
  rwa [hx] at h

/-- So does a long one. -/
theorem reads_readSlong (x : Int64) : Reads view readSlong (ulongBytes (slongOf x)) x := by
  have h := (reads_readUlong (slongOf x)).map
    (f := fun x : UInt64 => (x >>> 1).toInt64 ^^^ -(x.toInt64 &&& 1))
  have hx : ((slongOf x) >>> 1).toInt64 ^^^ -((slongOf x).toInt64 &&& 1) = x := by
    apply Int64.toBitVec_inj.mp
    simpa [slongOf] using zigzag x.toBitVec (by decide)
  rwa [hx] at h

/-! ## Sizes and strings -/

/-- What `writeSize` appends. -/
def sizeBytes (n : Nat) : List UInt8 := uintBytes (Int32.ofNat n).toUInt32

/-- What `writeString` appends. -/
def stringBytes (x : List UInt8) : List UInt8 := sizeBytes x.length ++ x

/-- A size takes at least one byte, -/
theorem sizeBytes_pos (n : Nat) : 0 < (sizeBytes n).length := uintBytes_pos _

/-- and so does a string. -/
theorem stringBytes_pos (x : List UInt8) : 0 < (stringBytes x).length := by
  have := sizeBytes_pos x.length
  rw [stringBytes, List.length_append]
  omega

/-- A size comes back. -/
theorem reads_readSize (n : Nat) : Reads view readSize (sizeBytes n) (Int32.ofNat n) := by
  have h := (reads_readUint (Int32.ofNat n).toUInt32).map (f := UInt32.toInt32)
  rwa [Int32.toInt32_toUInt32] at h

/-- A size is refused where its bytes are cut. -/
theorem refuses_readSize (n : Nat) : Refuses view readSize (sizeBytes n) :=
  (refuses_readUint (Int32.ofNat n).toUInt32).map

/-- What stands in a buffer is shorter than any `int`. -/
theorem length_lt_of_contents {buf : ByteBuf} {bs t : List UInt8} (h : buf.contents = bs ++ t) :
    bs.length < 2 ^ 31 := by
  have hc := buf.capacity_lt
  have hs := buf.size_le
  rw [← length_contents, h, List.length_append] at hs
  omega

/-- The bytes of a string come back. -/
theorem reads_stringOf (x : List UInt8) : Reads view (stringOf (Int32.ofNat x.length)) x x := by
  intro buf t _ h
  replace h : buf.contents = x ++ t := h
  have hlt := length_lt_of_contents h
  have hsize : x.length ≤ buf.size := by
    rw [← length_contents, h, List.length_append]
    omega
  have hneed := need_done (Int.ofNat_le.mpr hsize)
  have hnonneg : ¬ Int32.ofNat x.length < 0 := by
    rw [Int32.lt_iff_toInt_lt, Int32.toInt_ofNat_of_lt hlt]
    simp
  rw [stringOf, Int32.toInt_ofNat_of_lt hlt, Int32.toNatClampNeg_ofNat_of_lt hlt,
    bind_done hneed]
  simp only [bind_apply, resize, if_neg hnonneg, peek_done hsize, advance_done hsize, pure_apply]
  rw [h, List.take_left]
  rfl

/-- They are refused where they are cut. -/
theorem refuses_stringOf (x : List UInt8) :
    Refuses view (stringOf (Int32.ofNat x.length)) x := by
  intro buf hin
  have hlt : buf.contents.length < x.length := hin.lt
  have hroom : buf._beginPos + x.length ≤ 2 ^ 30 := hin.room
  rw [length_contents] at hlt
  refine ⟨buf, ?_⟩
  rw [stringOf, Int32.toInt_ofNat_of_lt (by omega)]
  exact bind_refused (need_refused (by omega) (by omega))

/-- A string comes back. -/
theorem reads_readString (x : List UInt8) : Reads view readString (stringBytes x) x :=
  (reads_readSize x.length).bind (reads_stringOf x)

/-- A string is refused where it is cut, in its size or behind it. -/
theorem refuses_readString (x : List UInt8) : Refuses view readString (stringBytes x) :=
  Refuses.bind_refuses (reads_readSize x.length) (refuses_readSize x.length) (refuses_stringOf x)

end ByteBuf

end Athena.Luban
