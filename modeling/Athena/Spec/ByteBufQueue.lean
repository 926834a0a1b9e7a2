import Athena.ForStd.Run
import Athena.Spec.ByteBufWire

/-!
# A queue of values in a growing array

Each `write` appends the bytes of its value (`writeUint_eq`), whether or not the array has to
be compacted or replaced by a larger one first (`put_spec`).  With what the readers take
(`Item.reads`) this makes a `ByteBuf` that starts empty a queue of values, for any order of
writes and reads (`values_in_order`).
-/

namespace Athena.Luban

open Cyclic Reader

/-! ## The bytes that are written -/

/-- A shift by bytes divides by a power of 256. -/
theorem shiftRight_bytes (n k : Nat) : n >>> (8 * k) = n / 256 ^ k := by
  rw [Nat.shiftRight_eq_div_pow, Nat.pow_mul]

/-- Top bits below a mark. -/
theorem marked_bytes {n k j : Nat} (a : Nat) (hn : n / 256 ^ k < 2 ^ j) :
    2 ^ j * a + n / 256 ^ k = n >>> (8 * k) ||| 2 ^ j * a := by
  rw [shiftRight_bytes, Nat.or_comm, Nat.two_pow_add_eq_or_of_lt hn]

/-- A byte from its number. -/
theorem byte_of_toNat {b : UInt8} {n : Nat} (h : b.toNat = n % 256) : b = n.toUInt8 := by
  apply UInt8.toNat_inj.mp
  rw [h, Nat.toUInt8, UInt8.toNat_ofNat']

/-- A byte of a number, shifted down. -/
theorem shifted_byte {b : UInt8} {n : Nat} (k : Nat) (hb : b.toNat = n >>> (8 * k) % 256) :
    b = (n / 256 ^ k).toUInt8 :=
  byte_of_toNat (by rw [hb, shiftRight_bytes])

/-- The first byte, with the bits that say how long the number is. -/
theorem marked_byte {b : UInt8} {n k : Nat} (j a : Nat) (hn : n / 256 ^ k < 2 ^ j)
    (hb : b.toNat = (n >>> (8 * k) ||| 2 ^ j * a) % 256) :
    b = (2 ^ j * a + n / 256 ^ k).toUInt8 :=
  byte_of_toNat (by rw [hb, marked_bytes a hn])

namespace ByteBuf

/-- `writeUint` appends the bytes of its number. -/
theorem writeUint_eq (buf : ByteBuf) (x : UInt32) : buf.writeUint x = buf.put (uintBytes x) := by
  have hx := x.toNat_lt
  have h0 : x.toUInt8 = (x.toNat / 256 ^ 0).toUInt8 := shifted_byte 0 rfl
  have h1 : (x >>> 8).toUInt8 = (x.toNat / 256 ^ 1).toUInt8 := shifted_byte 1 rfl
  have h2 : (x >>> 16).toUInt8 = (x.toNat / 256 ^ 2).toUInt8 := shifted_byte 2 rfl
  have h3 : (x >>> 24).toUInt8 = (x.toNat / 256 ^ 3).toUInt8 := shifted_byte 3 rfl
  simp only [writeUint, uintBytes, UInt32.lt_iff_toNat_lt, UInt32.reduceToNat]
  -- one to five bytes, as the comparisons say
  split_ifs <;> simp only [packed, bigEndian, h1, h2, h3, h0]
  · rw [Nat.zero_add]
  · rw [show (x >>> 8 ||| 0x80).toUInt8 = (0x80 + x.toNat / 256 ^ 1).toUInt8 from
      marked_byte 7 1 (by omega) rfl]
  · rw [show (x >>> 16 ||| 0xc0).toUInt8 = (0xc0 + x.toNat / 256 ^ 2).toUInt8 from
      marked_byte 6 3 (by omega) rfl]
  · rw [show (x >>> 24 ||| 0xe0).toUInt8 = (0xe0 + x.toNat / 256 ^ 3).toUInt8 from
      marked_byte 5 7 (by omega) rfl]
  · rw [show x.toNat / 256 ^ 4 = 0 by omega]
    rfl

/-- `writeUlong` appends the bytes of its number. -/
theorem writeUlong_eq (buf : ByteBuf) (x : UInt64) :
    buf.writeUlong x = buf.put (ulongBytes x) := by
  have hx := x.toNat_lt
  have h0 : x.toUInt8 = (x.toNat / 256 ^ 0).toUInt8 := shifted_byte 0 rfl
  have h1 : (x >>> 8).toUInt8 = (x.toNat / 256 ^ 1).toUInt8 := shifted_byte 1 rfl
  have h2 : (x >>> 16).toUInt8 = (x.toNat / 256 ^ 2).toUInt8 := shifted_byte 2 rfl
  have h3 : (x >>> 24).toUInt8 = (x.toNat / 256 ^ 3).toUInt8 := shifted_byte 3 rfl
  have h4 : (x >>> 32).toUInt8 = (x.toNat / 256 ^ 4).toUInt8 := shifted_byte 4 rfl
  have h5 : (x >>> 40).toUInt8 = (x.toNat / 256 ^ 5).toUInt8 := shifted_byte 5 rfl
  have h6 : (x >>> 48).toUInt8 = (x.toNat / 256 ^ 6).toUInt8 := shifted_byte 6 rfl
  have h7 : (x >>> 56).toUInt8 = (x.toNat / 256 ^ 7).toUInt8 := shifted_byte 7 rfl
  -- both sides go through the same tests
  simp only [writeUlong, ulongBytes, UInt64.lt_iff_toNat_lt, UInt64.reduceToNat,
    apply_ite buf.put, packed, bigEndian, h0, h1, h2, h3, h4, h5, h6, h7]
  refine ite_congr rfl (fun _ => ?_) fun _ => ite_congr rfl (fun _ => ?_) fun _ =>
    ite_congr rfl (fun _ => ?_) fun _ => ite_congr rfl (fun _ => ?_) fun _ =>
    ite_congr rfl (fun _ => ?_) fun _ => ite_congr rfl (fun _ => ?_) fun _ =>
    ite_congr rfl (fun _ => ?_) fun _ => ite_congr rfl (fun _ => ?_) fun _ => ?_
  · rw [Nat.zero_add]
  · rw [show (x >>> 8 ||| 0x80).toUInt8 = (0x80 + x.toNat / 256 ^ 1).toUInt8 from
      marked_byte 7 1 (by omega) rfl]
  · rw [show (x >>> 16 ||| 0xc0).toUInt8 = (0xc0 + x.toNat / 256 ^ 2).toUInt8 from
      marked_byte 6 3 (by omega) rfl]
  · rw [show (x >>> 24 ||| 0xe0).toUInt8 = (0xe0 + x.toNat / 256 ^ 3).toUInt8 from
      marked_byte 5 7 (by omega) rfl]
  · rw [show (x >>> 32 ||| 0xf0).toUInt8 = (0xf0 + x.toNat / 256 ^ 4).toUInt8 from
      marked_byte 4 15 (by omega) rfl]
  · rw [show (x >>> 40 ||| 0xf8).toUInt8 = (0xf8 + x.toNat / 256 ^ 5).toUInt8 from
      marked_byte 3 31 (by omega) rfl]
  · rw [show (x >>> 48 ||| 0xfc).toUInt8 = (0xfc + x.toNat / 256 ^ 6).toUInt8 from
      marked_byte 2 63 (by omega) rfl]
  · rw [show x.toNat / 256 ^ 7 = 0 by omega]
    rfl
  · rw [show x.toNat / 256 ^ 8 = 0 by omega]
    rfl

/-- `writeShort` appends the bytes of its number. -/
theorem writeShort_eq (buf : ByteBuf) (x : Int16) :
    buf.writeShort x = buf.put (shortBytes x) := by
  have hx := x.toUInt16.toNat_lt
  have h0 : x.toUInt16.toUInt8 = (x.toUInt16.toNat / 256 ^ 0).toUInt8 := shifted_byte 0 rfl
  have h1 : (x.toUInt16 >>> 8).toUInt8 = (x.toUInt16.toNat / 256 ^ 1).toUInt8 :=
    shifted_byte 1 rfl
  -- a bound on a number that is not negative is one on its bits
  have hint : x.toInt = if 2 * x.toUInt16.toNat < 2 ^ 16 then (x.toUInt16.toNat : Int)
      else x.toUInt16.toNat - (2 ^ 16 : Nat) := BitVec.toInt_eq_toNat_cond x.toBitVec
  have h128 : 0 ≤ x ∧ x < 0x80 ↔ x.toUInt16.toNat < 0x80 := by
    rw [Int16.le_iff_toInt_le, Int16.lt_iff_toInt_lt, hint]
    simp only [Int16.reduceToInt]
    omega
  have h16384 : 0 ≤ x ∧ x < 0x4000 ↔ x.toUInt16.toNat < 0x4000 := by
    rw [Int16.le_iff_toInt_le, Int16.lt_iff_toInt_lt, hint]
    simp only [Int16.reduceToInt]
    omega
  simp only [writeShort, shortBytes, h128, h16384]
  split_ifs <;> simp only [packed, bigEndian, h0, h1]
  · rw [Nat.zero_add]
  · rw [show (x.toUInt16 >>> 8 ||| 0x80).toUInt8 = (0x80 + x.toUInt16.toNat / 256 ^ 1).toUInt8 from
      marked_byte 7 1 (by omega) rfl]
  · rw [show x.toUInt16.toNat / 256 ^ 2 = 0 by omega]
    rfl

/-! ## Making room -/

/-- The capacities of a buffer that started without one: none, or a power of two that a
    doubling keeps in `int`. -/
def Grown (n : Nat) : Prop := n = 0 ∨ ∃ k, 4 ≤ k ∧ k ≤ 30 ∧ n = 2 ^ k

/-- A buffer that grows stays within a gigabyte. -/
theorem Grown.le {n : Nat} (h : Grown n) : n ≤ 2 ^ 30 := by
  obtain rfl | ⟨k, -, hk, rfl⟩ := h
  · decide
  · exact Nat.pow_le_pow_right (by decide) hk

/-- Moving the contents to the front of an array keeps them. -/
theorem contents_moved (buf : ByteBuf) (data : List UInt8) (hle : buf.size ≤ data.length)
    (hlt : data.length < 2 ^ 31) : (buf.moved data hle hlt).contents = buf.contents := by
  have hlen := length_contents buf
  show slice (overwrite data 0 buf.contents) 0 (buf.size - 0) = _
  rw [overwrite_zero, slice, List.drop_zero, Nat.sub_zero, ← hlen, List.take_left]

/-- The buffer is then as long as the array. -/
theorem length_moved (buf : ByteBuf) (data : List UInt8) (hle : buf.size ≤ data.length)
    (hlt : data.length < 2 ^ 31) : (buf.moved data hle hlt)._data.length = data.length :=
  length_overwrite (by rw [length_contents]; omega)

/-- Doubling reaches what is needed before it leaves `int`. -/
theorem calcNewCapacityFrom_spec {fuel k need : Nat} (hk : 4 ≤ k) (hk' : k ≤ 30)
    (hneed : need ≤ 2 ^ 30) (hfuel : 30 < fuel + k) :
    ∃ j, 4 ≤ j ∧ j ≤ 30 ∧ need ≤ 2 ^ j ∧
      calcNewCapacityFrom fuel (2 ^ k) need = some (2 ^ j) := by
  induction fuel generalizing k with
  | zero => omega
  | succ fuel ih =>
    rw [calcNewCapacityFrom]
    by_cases hle : need ≤ 2 ^ k
    · exact ⟨k, hk, hk', hle, if_pos hle⟩
    · -- the bound on `need` is the last power of two
      have hlt : k < 30 := by
        by_contra hge
        obtain rfl : k = 30 := by omega
        exact hle hneed
      have hdouble : 2 * 2 ^ k = 2 ^ (k + 1) := by rw [Nat.pow_succ, Nat.mul_comm]
      have hint : 2 ^ (k + 1) ≤ 2 ^ 30 := Nat.pow_le_pow_right (by decide) hlt
      rw [if_neg hle, hdouble, if_neg (by omega)]
      exact ih (by omega) hlt (by omega)

/-- The new capacity is enough, and a power of two. -/
theorem calcNewCapacity_spec {init need : Nat} (hinit : Grown init) (hlt : init < need)
    (hneed : need ≤ 2 ^ 30) :
    ∃ n, Grown n ∧ need ≤ n ∧ calcNewCapacity init need = some n := by
  have hmax : ∃ k, 4 ≤ k ∧ k ≤ 30 ∧ max (init * 2) INIT_CAPACITY = 2 ^ k := by
    obtain rfl | ⟨k, hk, -, rfl⟩ := hinit
    · exact ⟨4, Nat.le_refl 4, by decide, rfl⟩
    · have hk' : k < 30 := (Nat.pow_lt_pow_iff_right (by decide)).mp (Nat.lt_of_lt_of_le hlt hneed)
      have hmin : 2 ^ 5 ≤ 2 ^ (k + 1) := Nat.pow_le_pow_right (by decide) (by omega)
      refine ⟨k + 1, by omega, hk', ?_⟩
      rw [← Nat.pow_succ]
      exact Nat.max_eq_left (by simp only [INIT_CAPACITY]; omega)
  obtain ⟨k, hk, hk', hmax⟩ := hmax
  have hfuel : 30 < 32 + k := by omega
  obtain ⟨j, hj, hj', hle, hcalc⟩ := calcNewCapacityFrom_spec hk hk' hneed hfuel
  refine ⟨2 ^ j, .inr ⟨j, hj, hj', rfl⟩, hle, ?_⟩
  rw [calcNewCapacity, if_neg (by omega), hmax, hcalc]

/-- Afterwards there is room for the bytes, and the contents are the same. -/
theorem reserveWrite_spec {buf : ByteBuf} {n : Nat} (hg : Grown buf._data.length)
    (h : buf.size + n < 2 ^ 30) :
    ∃ buf', buf.reserveWrite n = some buf' ∧ buf'.contents = buf.contents ∧
      Grown buf'._data.length ∧ buf'._endPos + n ≤ buf'._data.length := by
  have hle := hg.le
  have hend := buf.end_le
  simp only [reserveWrite]
  rw [if_neg (by omega)]
  by_cases hroom : buf._data.length < buf._endPos + n
  · rw [if_pos hroom, compactOrResize]
    -- the contents are moved to the front, or to a larger array
    by_cases hfit : buf.size + n ≤ buf._data.length
    · rw [if_pos hfit]
      refine ⟨_, rfl, contents_moved _ _ _ _, ?_, ?_⟩ <;> rw [length_moved]
      · exact hg
      · exact hfit
    · obtain ⟨m, hm, hnm, hcalc⟩ := calcNewCapacity_spec hg (Nat.lt_of_not_le hfit) (by omega)
      have hmle := hm.le
      rw [if_neg hfit]
      simp only [hcalc]
      have hlen : (List.replicate m (0 : UInt8)).length = m := List.length_replicate
      rw [dif_pos (by omega)]
      refine ⟨_, rfl, contents_moved _ _ _ _, ?_, ?_⟩ <;> rw [length_moved]
      · rwa [hlen]
      · exact hnm.trans (Nat.le_of_eq hlen.symm)
  · rw [if_neg hroom]
    exact ⟨buf, rfl, rfl, hg, Nat.le_of_not_lt hroom⟩

/-- Appending is what a write does, as long as the buffer stays below a gigabyte. -/
theorem put_spec {buf : ByteBuf} {bytes : List UInt8} (hg : Grown buf._data.length)
    (h : buf.size + bytes.length < 2 ^ 30) :
    ∃ buf', buf.put bytes = some buf' ∧ buf'.contents = buf.contents ++ bytes ∧
      Grown buf'._data.length := by
  -- the bytes go behind the contents, in the room that was made
  obtain ⟨mid, hmid, hcontents, hgrown, hfit⟩ := reserveWrite_spec hg h
  simp only [put, hmid]
  rw [dif_pos hfit]
  refine ⟨_, rfl, ?_, ?_⟩
  · have hb := mid.begin_le
    have htake : (mid._data.take mid._endPos).length = mid._endPos :=
      List.length_take_of_le mid.end_le
    rw [← hcontents]
    simp only [contents, size, slice, overwrite]
    rw [List.append_assoc, List.drop_append_of_le_length (by omega), ← List.append_assoc,
      List.take_append_of_le_length, List.take_of_length_le, List.drop_take]
    · rw [List.length_append, List.length_drop, htake]
      omega
    · rw [List.length_append, List.length_drop, htake]
      omega
  · rw [length_overwrite hfit]
    exact hgrown

end ByteBuf

/-! ## Values -/

/-- A value with the member function that writes it. -/
inductive Item where
  | bool (b : Bool)
  | byte (x : UInt8)
  | short (x : Int16)
  | fshort (x : Int16)
  | int (x : Int32)
  | fint (x : Int32)
  | sint (x : Int32)
  | uint (x : UInt32)
  | long (x : Int64)
  | flong (x : Int64)
  | slong (x : Int64)
  | ulong (x : UInt64)
  | float (x : UInt32)
  | double (x : UInt64)
  | string (x : List UInt8)
  deriving DecidableEq, Repr

/-- The member function that reads a value. -/
inductive Kind where
  | bool | byte | short | fshort | int | fint | sint | uint | long | flong | slong | ulong
  | float | double | string
  deriving DecidableEq, Repr

namespace Item

/-- The kind of a value. -/
def kind : Item → Kind
  | bool _ => .bool
  | byte _ => .byte
  | short _ => .short
  | fshort _ => .fshort
  | int _ => .int
  | fint _ => .fint
  | sint _ => .sint
  | uint _ => .uint
  | long _ => .long
  | flong _ => .flong
  | slong _ => .slong
  | ulong _ => .ulong
  | float _ => .float
  | double _ => .double
  | string _ => .string

/-- A value is written by its own member function. -/
def write (buf : ByteBuf) : Item → Option ByteBuf
  | bool b => buf.writeBool b
  | byte x => buf.writeByte x
  | short x => buf.writeShort x
  | fshort x => buf.writeFshort x
  | int x => buf.writeInt x
  | fint x => buf.writeFint x
  | sint x => buf.writeSint x
  | uint x => buf.writeUint x
  | long x => buf.writeLong x
  | flong x => buf.writeFlong x
  | slong x => buf.writeSlong x
  | ulong x => buf.writeUlong x
  | float x => buf.writeFloat x
  | double x => buf.writeDouble x
  | string x => buf.writeString x

/-- The bytes of a value. -/
def bytes : Item → List UInt8
  | bool b => boolBytes b
  | byte x => [x]
  | short x => shortBytes x
  | fshort x => image 2 x.toUInt16.toNat
  | int x => uintBytes x.toUInt32
  | fint x => image 4 x.toUInt32.toNat
  | sint x => uintBytes (ByteBuf.sintOf x)
  | uint x => uintBytes x
  | long x => ulongBytes x.toUInt64
  | flong x => image 8 x.toUInt64.toNat
  | slong x => ulongBytes (ByteBuf.slongOf x)
  | ulong x => ulongBytes x
  | float x => image 4 x.toNat
  | double x => image 8 x.toNat
  | string x => ByteBuf.stringBytes x

end Item

open ByteBuf in
/-- A value of the kind is read by its own member function. -/
def Kind.read : Kind → Reader ByteBuf Item
  | bool => do return .bool (← readBool)
  | byte => do return .byte (← readByte)
  | short => do return .short (← readShort)
  | fshort => do return .fshort (← readFshort)
  | int => do return .int (← readInt)
  | fint => do return .fint (← readFint)
  | sint => do return .sint (← readSint)
  | uint => do return .uint (← readUint)
  | long => do return .long (← readLong)
  | flong => do return .flong (← readFlong)
  | slong => do return .slong (← readSlong)
  | ulong => do return .ulong (← readUlong)
  | float => do return .float (← readFloat)
  | double => do return .double (← readDouble)
  | string => do return .string (← readString)

namespace Item

open ByteBuf

/-- A value is read back from its bytes. -/
theorem reads (x : Item) : Reads view x.kind.read x.bytes x := by
  cases x with
  | bool b => exact (reads_readBool b).map
  | byte x => exact (reads_readByte x).map
  | short x => exact (reads_readShort x).map
  | fshort x => exact (reads_readFshort x).map
  | int x => exact (reads_readInt x).map
  | fint x => exact (reads_readFint x).map
  | sint x => exact (reads_readSint x).map
  | uint x => exact (reads_readUint x).map
  | long x => exact (reads_readLong x).map
  | flong x => exact (reads_readFlong x).map
  | slong x => exact (reads_readSlong x).map
  | ulong x => exact (reads_readUlong x).map
  | float x => exact (reads_readFloat x).map
  | double x => exact (reads_readDouble x).map
  | string x => exact (reads_readString x).map

/-- A string is appended in two parts. -/
theorem writeString_spec {buf : ByteBuf} {x : List UInt8} (hg : Grown buf._data.length)
    (h : buf.size + (stringBytes x).length < 2 ^ 30) :
    ∃ buf', buf.writeString x = some buf' ∧ buf'.contents = buf.contents ++ stringBytes x ∧
      Grown buf'._data.length := by
  have hx : x.length < 2 ^ 31 := by
    simp only [stringBytes, List.length_append] at h
    omega
  -- the length goes before the bytes, which are skipped where there are none
  rw [stringBytes, List.length_append] at h
  have hfront : buf.size + (sizeBytes x.length).length < 2 ^ 30 := by omega
  obtain ⟨mid, hmid, hcontents, hgrown⟩ := put_spec hg hfront
  rw [sizeBytes, ← writeUint_eq] at hmid
  simp only [writeString, writeSize, hmid]
  have hpos : 0 < Int32.ofNat x.length ↔ 0 < x.length := by
    rw [Int32.lt_iff_toInt_lt, Int32.toInt_ofNat_of_lt hx]
    simp
  by_cases hnil : 0 < x.length
  · have hsize : mid.size = buf.size + (sizeBytes x.length).length := by
      rw [← length_contents, hcontents, List.length_append, length_contents]
    have hback : mid.size + x.length < 2 ^ 30 := by omega
    obtain ⟨buf', hput, hcontents', hgrown'⟩ := put_spec hgrown hback
    refine ⟨buf', ?_, ?_, hgrown'⟩
    · rw [if_pos (hpos.mpr hnil), Int32.toNatClampNeg_ofNat_of_lt hx, List.take_length, hput]
    · rw [hcontents', hcontents, List.append_assoc, stringBytes]
  · obtain rfl : x = [] := List.length_eq_zero_iff.mp (by omega)
    refine ⟨mid, if_neg (fun h => hnil (hpos.mp h)), ?_, hgrown⟩
    rw [hcontents, stringBytes, List.append_nil]

/-- Writing a value appends its bytes. -/
theorem write_spec {buf : ByteBuf} {x : Item} (hg : Grown buf._data.length)
    (h : buf.size + x.bytes.length < 2 ^ 30) :
    ∃ buf', x.write buf = some buf' ∧ buf'.contents = buf.contents ++ x.bytes ∧
      Grown buf'._data.length := by
  have hput := put_spec hg h
  cases x with
  | short x => rwa [write, writeShort_eq]
  | int x => rwa [write, writeInt, writeUint_eq]
  | sint x => rwa [write, writeSint, writeUint_eq]
  | uint x => rwa [write, writeUint_eq]
  | long x => rwa [write, writeLong, writeUlong_eq]
  | slong x => rwa [write, writeSlong, writeUlong_eq]
  | ulong x => rwa [write, writeUlong_eq]
  | string x => exact writeString_spec hg h
  | bool _ | byte _ | fshort _ | fint _ | flong _ | float _ | double _ => exact hput

end Item

open ByteBuf in
/-- No value is read from an empty buffer, and the buffer stays as it is. -/
theorem Kind.read_empty (k : Kind) {buf : ByteBuf} (hg : Grown buf._data.length)
    (h : buf.size = 0) : k.read buf = .refused buf := by
  have hle := hg.le
  have hb := buf.begin_le
  have he := buf.end_le
  -- every reader looks at a first byte, or asks for its bytes
  have hone : need 1 buf = .refused buf := need_refused (by omega) (by omega)
  have htaking : ∀ {α : Type} {n : Nat} {f : Reader ByteBuf α}, 0 < n → n < 9 →
      taking n f buf = .refused buf := fun h0 h9 => taking_refused (by omega) (by omega)
  have huint : readUint buf = .refused buf := bind_refused hone
  have hulong : readUlong buf = .refused buf := bind_refused hone
  have hsize : readSize buf = .refused buf := bind_refused huint
  cases k with
  | bool | byte | fshort | fint | flong | float | double =>
    exact bind_refused (htaking (by decide) (by decide))
  | short => exact bind_refused (bind_refused hone)
  | uint => exact bind_refused huint
  | int | sint => exact bind_refused (bind_refused huint)
  | ulong => exact bind_refused hulong
  | long | slong => exact bind_refused (bind_refused hulong)
  | string => exact bind_refused (bind_refused hsize)

/-! ## Writes and reads in any order -/

/-- A value is written, or the next one is read, or the contents are moved to the front. -/
inductive BufAct where
  | write (x : Item)
  | read (k : Kind)
  /-- `compactBuffer` -/
  | compact
  deriving DecidableEq, Repr

/-- The values that the actions write. -/
def BufAct.written : BufAct → Option Item
  | write x => some x
  | read _ => none
  | compact => none

/-- A buffer, and the values that have been read from it. -/
def bufStep (s : ByteBuf × List Item) : BufAct → Option (ByteBuf × List Item)
  | .write x => (x.write s.1).map fun buf => (buf, s.2)
  | .read k =>
    match k.read s.1 with
    | .done x buf => some (buf, s.2 ++ [x])
    | .refused buf => some (buf, s.2)
    | .undefined => none
  | .compact => some (s.1.compactBuffer, s.2)

/-- A queue of values, and those that have been taken from it. -/
def queueStep (q : List Item × List Item) : BufAct → Option (List Item × List Item)
  | .write x => some (q.1 ++ [x], q.2)
  | .read _ =>
    match q.1 with
    | [] => some q
    | x :: xs => some (xs, q.2 ++ [x])
  | .compact => some q

/-- The reader asks for the kind of value that comes next, and the values in the buffer stay
    below a gigabyte. -/
def InTurn (q : List Item × List Item) : BufAct → Prop
  | .write x => (q.1.flatMap Item.bytes).length + x.bytes.length < 2 ^ 30
  | .read k => ∀ x ∈ q.1.head?, x.kind = k
  | .compact => True

instance (q : List Item × List Item) : (a : BufAct) → Decidable (InTurn q a)
  | .write x => inferInstanceAs (Decidable ((q.1.flatMap Item.bytes).length + x.bytes.length < _))
  | .read k => inferInstanceAs (Decidable (∀ x ∈ q.1.head?, x.kind = k))
  | .compact => .isTrue trivial

/-- The buffer holds the bytes of the queue, and the same values have been read. -/
structure Queues (s : ByteBuf × List Item) (q : List Item × List Item) :
    Prop where
  grown : ByteBuf.Grown s.1._data.length
  contents : s.1.contents = q.1.flatMap Item.bytes
  got : s.2 = q.2

open ByteBuf in
/-- A step of the buffer is one of the queue. -/
theorem bufStep_queues {s : ByteBuf × List Item} {q : List Item × List Item} {a : BufAct}
    (h : Queues s q) (ha : InTurn q a) :
    ∃ s' q', bufStep s a = some s' ∧ queueStep q a = some q' ∧ Queues s' q' := by
  obtain ⟨buf, got⟩ := s
  obtain ⟨xs, got'⟩ := q
  obtain ⟨hg, hc, rfl⟩ := h
  have hsize : buf.size = (xs.flatMap Item.bytes).length := by rw [← length_contents, hc]
  cases a with
  | write x =>
    obtain ⟨buf', hwrite, hcontents, hgrown⟩ := Item.write_spec (x := x) hg (by rw [hsize]; exact ha)
    refine ⟨(buf', got), (xs ++ [x], got), by simp only [bufStep, hwrite, Option.map_some], rfl,
      hgrown, ?_, rfl⟩
    rw [hcontents, hc, List.flatMap_append, List.flatMap_singleton]
  | read k =>
    cases xs with
    | nil =>
      refine ⟨(buf, got), ([], got), ?_, rfl, hg, hc, rfl⟩
      simp only [bufStep, Kind.read_empty k hg hsize]
    | cons x xs =>
      obtain rfl : x.kind = k := ha x rfl
      rw [List.flatMap_cons] at hc
      refine ⟨(buf.skip x.bytes.length, got ++ [x]), (xs, got ++ [x]), ?_, rfl, hg, ?_, rfl⟩
      · have hroom : view.room x.bytes.length buf := by
          have hle : buf._data.length ≤ 2 ^ 30 := hg.le
          have he := buf.end_le
          have hb := buf.begin_le
          rw [List.flatMap_cons, List.length_append, size] at hsize
          show buf._beginPos + x.bytes.length ≤ 2 ^ 30
          omega
        simp only [bufStep, x.reads buf _ hroom hc]
        rfl
      · have hrest := view.rest_skip x.bytes.length buf
        exact hrest.trans (by rw [show view.rest buf = _ from hc, List.drop_left])
  | compact =>
    refine ⟨(buf.compactBuffer, got), (xs, got), rfl, rfl, ?_, ?_, rfl⟩
    · have hlength := length_moved buf buf._data buf.size_le buf.capacity_lt
      exact hlength.symm ▸ hg
    · exact (contents_moved buf buf._data buf.size_le buf.capacity_lt).trans hc

/-- What has been taken and what is left of the queue is what has been written. -/
theorem queueStep_order {q q' : List Item × List Item} {a : BufAct} (h : queueStep q a = some q') :
    q'.2 ++ q'.1 = q.2 ++ q.1 ++ a.written.toList := by
  obtain ⟨xs, got⟩ := q
  cases a with
  | write x =>
    obtain rfl := Option.some.inj h
    rw [List.append_assoc]
    rfl
  | read k =>
    cases xs with
    | nil =>
      obtain rfl := Option.some.inj h
      rw [List.append_nil]
      exact (List.append_nil _).symm
    | cons x xs =>
      obtain rfl := Option.some.inj h
      simp [BufAct.written]
  | compact =>
    obtain rfl := Option.some.inj h
    exact (List.append_nil _).symm

/-- The same of a run. -/
theorem queue_order {q q' : List Item × List Item} {as : List BufAct}
    (h : Run.run queueStep q as = some q') :
    q'.2 ++ q'.1 = q.2 ++ q.1 ++ as.filterMap BufAct.written := by
  induction as generalizing q with
  | nil =>
    obtain rfl := Option.some.inj h
    rw [List.filterMap_nil, List.append_nil]
  | cons a as ih =>
    obtain ⟨m, hm, hrest⟩ := Run.run_cons h
    rw [ih hrest, queueStep_order hm, List.append_assoc]
    cases ha : a.written with
    | none => rw [List.filterMap_cons_none ha]; rfl
    | some x => rw [List.filterMap_cons_some ha]; rfl

/-- A new buffer is a queue of values.  Writes, reads and calls of `compactBuffer` may follow one
    another in any order, and the array may be compacted and replaced by the writes: where each read asks for the kind
    of value that comes next, and less than a gigabyte is in the buffer, no write and no read
    is undefined, a read finds nothing exactly when the queue is empty, and the values come
    out as they went in, in the order in which they did. -/
theorem values_in_order {as : List BufAct} (h : Run.Meets queueStep InTurn ([], []) as) :
    ∃ buf left got,
      Run.run bufStep (.new, []) as = some (buf, got) ∧
      Run.run queueStep ([], []) as = some (left, got) ∧
      buf.contents = left.flatMap Item.bytes ∧ got ++ left = as.filterMap BufAct.written := by
  have hnew : Queues (.new, []) ([], []) := ⟨.inl rfl, rfl, rfl⟩
  obtain ⟨⟨buf, got⟩, ⟨left, got'⟩, hrun, hqueue, hq⟩ :=
    Run.simulates (fun _ _ _ => bufStep_queues) hnew h
  obtain rfl : got = got' := hq.got
  refine ⟨buf, left, got, hrun, hqueue, hq.contents, ?_⟩
  simpa using queue_order hqueue

/-- A number and a string that does not fit behind it; the array is compacted, and replaced
    twice. -/
theorem values_in_order_mixed :
    let as : List BufAct := [.write (.long (-3)), .write (.sint (-3)), .read .long,
      .compact, .write (.string (List.replicate 40 7)), .read .sint, .read .string, .read .bool]
    ∃ buf left got,
      Run.run bufStep (.new, []) as = some (buf, got) ∧
      Run.run queueStep ([], []) as = some (left, got) ∧
      buf.contents = left.flatMap Item.bytes ∧ got ++ left = as.filterMap BufAct.written :=
  values_in_order (by decide +kernel)

end Athena.Luban
