import Mathlib.Algebra.Ring.Nat

/-!
# Byte order conversion (`core/common/ByteConverter.h`, `transport/ByteUtils.cpp`)

A `uint32` goes on the wire as the memory image of its network-order value.  The
header has one branch per host byte order; both give the same four bytes, most
significant first (`store_toNetwork32`), so the frame layout does not depend on
the host.
-/

namespace Athena.Endian

/-- Which branch of `SYSTEM_BIG_ENDIAN` is compiled. -/
inductive HostOrder where
  | little
  | big
  deriving DecidableEq, Repr

/-- `core::Endian::swap32`. -/
def swap32 (v : UInt32) : UInt32 :=
  ((v &&& 0x000000FF) <<< 24) ||| ((v &&& 0x0000FF00) <<< 8) |||
    ((v &&& 0x00FF0000) >>> 8) ||| ((v &&& 0xFF000000) >>> 24)

/-- `core::Endian::toNetwork32`. -/
def toNetwork32 (o : HostOrder) (v : UInt32) : UInt32 :=
  match o with
  | .big => v
  | .little => swap32 v

/-- `core::Endian::fromNetwork32`. -/
def fromNetwork32 (o : HostOrder) (v : UInt32) : UInt32 :=
  match o with
  | .big => v
  | .little => swap32 v

/-- The bytes of `v`, most significant first. -/
def bigEndian (v : UInt32) : List UInt8 :=
  [(v >>> 24).toUInt8, (v >>> 16).toUInt8, (v >>> 8).toUInt8, v.toUInt8]

/-- The memory image of a `uint32` variable: what `memcpy(dst, &v, 4)` writes. -/
def store (o : HostOrder) (v : UInt32) : List UInt8 :=
  match o with
  | .big => bigEndian v
  | .little => [v.toUInt8, (v >>> 8).toUInt8, (v >>> 16).toUInt8, (v >>> 24).toUInt8]

/-- The `uint32` variable after `memcpy(&v, body, 4)`. -/
def load (o : HostOrder) (body : List UInt8) : UInt32 :=
  let b (i : Nat) : UInt32 := (body.getD i 0).toUInt32
  match o with
  | .big => (b 0 <<< 24) ||| (b 1 <<< 16) ||| (b 2 <<< 8) ||| b 3
  | .little => b 0 ||| (b 1 <<< 8) ||| (b 2 <<< 16) ||| (b 3 <<< 24)

/-- The byte order of the host the model is compiled for.  No proof depends on
    the choice. -/
def hostOrder : HostOrder := .little

/-- A word has four bytes. -/
@[simp] theorem length_bigEndian (v : UInt32) : (bigEndian v).length = 4 := rfl

/-! ## Words and their bytes -/

/-- Four bytes do not overlap in a word. -/
theorem or_bytes {a b c d : Nat} (hb : b < 256) (hc : c < 256) (hd : d < 256) :
    a <<< 24 ||| b <<< 16 ||| c <<< 8 ||| d = a * 16777216 + b * 65536 + c * 256 + d := by
  -- a shift frees as many bits as the next part has, so that or is addition
  have hcd : c <<< 8 ||| d = c * 2 ^ 8 + d := by
    rw [← Nat.shiftLeft_add_eq_or_of_lt hd, Nat.shiftLeft_eq]
  have hbcd : b <<< 16 ||| (c * 2 ^ 8 + d) = b * 2 ^ 16 + (c * 2 ^ 8 + d) := by
    rw [← Nat.shiftLeft_add_eq_or_of_lt (by omega), Nat.shiftLeft_eq]
  have habcd : a <<< 24 ||| (b * 2 ^ 16 + (c * 2 ^ 8 + d)) =
      a * 2 ^ 24 + (b * 2 ^ 16 + (c * 2 ^ 8 + d)) := by
    rw [← Nat.shiftLeft_add_eq_or_of_lt (by omega), Nat.shiftLeft_eq]
  rw [Nat.or_assoc, Nat.or_assoc, hcd, hbcd, habcd]
  omega

/-- A shift that stays in the word loses no bits. -/
theorem shiftLeft_word {n k : Nat} (h : n * 2 ^ k < 2 ^ 32) : n <<< k % 2 ^ 32 = n <<< k := by
  rw [Nat.shiftLeft_eq, Nat.mod_eq_of_lt h]

/-- A word put together from four bytes. -/
theorem toNat_word {a b c d : UInt32} (ha : a.toNat < 256) (hb : b.toNat < 256)
    (hc : c.toNat < 256) (hd : d.toNat < 256) :
    ((a <<< 24) ||| (b <<< 16) ||| (c <<< 8) ||| d).toNat =
      a.toNat * 16777216 + b.toNat * 65536 + c.toNat * 256 + d.toNat := by
  show a.toNat <<< 24 % 2 ^ 32 ||| b.toNat <<< 16 % 2 ^ 32 ||| c.toNat <<< 8 % 2 ^ 32 |||
    d.toNat = _
  rw [shiftLeft_word (by omega), shiftLeft_word (by omega), shiftLeft_word (by omega),
    or_bytes hb hc hd]

/-- A mask takes one byte of a number. -/
theorem and_byte (n k : Nat) : n &&& 0xff <<< k = (n / 2 ^ k % 256) <<< k := by
  apply Nat.eq_of_testBit_eq
  intro i
  rw [show (256 : Nat) = 2 ^ 8 from rfl, ← Nat.and_two_pow_sub_one_eq_mod,
    ← Nat.shiftRight_eq_div_pow]
  simp only [Nat.testBit_and, Nat.testBit_shiftLeft, Nat.testBit_shiftRight]
  by_cases hi : k ≤ i
  · simp [hi, Nat.add_sub_cancel' hi]
  · simp [hi]

/-- `swap32` turns the bytes of a word around. -/
theorem toNat_swap32 (v : UInt32) : (swap32 v).toNat =
    v.toNat % 256 * 16777216 + v.toNat / 256 % 256 * 65536 + v.toNat / 65536 % 256 * 256 +
      v.toNat / 16777216 % 256 := by
  have hback : ∀ n, n <<< 16 >>> 8 = n <<< 8 := by
    intro n
    simp only [Nat.shiftLeft_eq, Nat.shiftRight_eq_div_pow]
    omega
  show (v.toNat &&& 0xff <<< 0) <<< 24 % 2 ^ 32 ||| (v.toNat &&& 0xff <<< 8) <<< 8 % 2 ^ 32 |||
    (v.toNat &&& 0xff <<< 16) >>> 8 ||| (v.toNat &&& 0xff <<< 24) >>> 24 = _
  rw [and_byte, and_byte, and_byte, and_byte, Nat.pow_zero, Nat.div_one, Nat.shiftLeft_zero,
    ← Nat.shiftLeft_add, Nat.shiftLeft_shiftRight, hback, shiftLeft_word (by omega),
    shiftLeft_word (by omega)]
  exact or_bytes (by omega) (by omega) (by omega)

/-- The bytes of a word that is put together from bytes. -/
theorem word_bytes {a b c d : Nat} (ha : a < 256) (hb : b < 256) (hc : c < 256) (hd : d < 256) :
    (a * 16777216 + b * 65536 + c * 256 + d) % 256 = d ∧
      (a * 16777216 + b * 65536 + c * 256 + d) / 256 % 256 = c ∧
      (a * 16777216 + b * 65536 + c * 256 + d) / 65536 % 256 = b ∧
      (a * 16777216 + b * 65536 + c * 256 + d) / 16777216 % 256 = a := by
  omega

/-- The shifts that bring the upper bytes of a word down. -/
theorem toNat_shiftRights (w : UInt32) : (w >>> 8).toNat = w.toNat / 256 ∧
    (w >>> 16).toNat = w.toNat / 65536 ∧ (w >>> 24).toNat = w.toNat / 16777216 :=
  ⟨Nat.shiftRight_eq_div_pow .., Nat.shiftRight_eq_div_pow .., Nat.shiftRight_eq_div_pow ..⟩

/-! ## Both hosts -/

/-- On either host the stored network-order value is `v`, most significant byte first. -/
theorem store_toNetwork32 (o : HostOrder) (v : UInt32) :
    store o (toNetwork32 o v) = bigEndian v := by
  cases o with
  | big => rfl
  | little =>
    have hbyte : ∀ w : UInt32, w.toUInt8.toNat = w.toNat % 256 := fun _ => rfl
    have hmod : ∀ n, n % 256 < 256 := fun n => Nat.mod_lt n (by decide)
    obtain ⟨h0, h1, h2, h3⟩ := word_bytes (hmod v.toNat) (hmod (v.toNat / 256))
      (hmod (v.toNat / 65536)) (hmod (v.toNat / 16777216))
    simp only [store, toNetwork32, bigEndian, ← UInt8.toNat_inj, List.cons.injEq, and_true,
      hbyte, toNat_shiftRights, toNat_swap32]
    exact ⟨h0, h1, h2, h3⟩

/-- The bytes of a stored word on the big-endian side of `load`. -/
theorem load_big (v : UInt32) (rest : List UInt8) : load .big (bigEndian v ++ rest) = v := by
  have hv := v.toNat_lt
  have hbyte : ∀ w : UInt32, w.toUInt8.toUInt32.toNat = w.toNat % 256 := fun _ => rfl
  have hlt : ∀ w : UInt32, w.toUInt8.toUInt32.toNat < 256 := fun w => by rw [hbyte]; omega
  apply UInt32.toNat_inj.mp
  refine (toNat_word (hlt _) (hlt _) (hlt _) (hlt _)).trans ?_
  simp only [hbyte, toNat_shiftRights]
  omega

/-- The two hosts load the same bytes in opposite orders. -/
theorem swap32_load (body : List UInt8) : swap32 (load .little body) = load .big body := by
  have hlt : ∀ b : UInt8, b.toUInt32.toNat < 256 := fun b => b.toNat_lt
  apply UInt32.toNat_inj.mp
  have hlittle : load .little body = ((body.getD 3 0).toUInt32 <<< 24) |||
      ((body.getD 2 0).toUInt32 <<< 16) ||| ((body.getD 1 0).toUInt32 <<< 8) |||
        (body.getD 0 0).toUInt32 := by
    simp only [load, UInt32.or_comm, UInt32.or_assoc]
  have h0 := hlt (body.getD 0 0)
  have h1 := hlt (body.getD 1 0)
  have h2 := hlt (body.getD 2 0)
  have h3 := hlt (body.getD 3 0)
  rw [toNat_swap32, hlittle, toNat_word h3 h2 h1 h0, load, toNat_word h0 h1 h2 h3]
  omega

/-- Loading big-endian bytes on either host and converting from network order
    gives the value back. -/
theorem fromNetwork32_load (o : HostOrder) (v : UInt32) (rest : List UInt8) :
    fromNetwork32 o (load o (bigEndian v ++ rest)) = v := by
  cases o with
  | big => exact load_big v rest
  | little => exact (swap32_load _).trans (load_big v rest)

end Athena.Endian

namespace Athena.ByteUtils

open Athena.Endian

/-- `ByteUtils::readInt32`: the big-endian value at the start of `body`. -/
def readInt32 (body : List UInt8) : UInt32 :=
  fromNetwork32 hostOrder (load hostOrder body)

/-- Reading back a big-endian field. -/
@[simp] theorem readInt32_bigEndian (v : UInt32) (rest : List UInt8) :
    readInt32 (bigEndian v ++ rest) = v :=
  fromNetwork32_load hostOrder v rest

/-- `readInt32` looks at four bytes only. -/
theorem readInt32_take {n : Nat} (hn : 4 ≤ n) (body : List UInt8) :
    readInt32 (body.take n) = readInt32 body := by
  have hget : ∀ i < 4, (body.take n).getD i 0 = body.getD i 0 := by
    intro i hi
    rw [List.getD_eq_getElem?_getD, List.getD_eq_getElem?_getD,
      List.getElem?_take_of_lt (by omega)]
  simp only [readInt32, load, hget 0 (by omega), hget 1 (by omega), hget 2 (by omega),
    hget 3 (by omega)]

end Athena.ByteUtils
