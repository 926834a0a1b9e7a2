import Athena.ForStd.Cyclic
import Athena.ForStd.Reader

/-!
# Configuration bytes (`code-gen/luban/ByteBuf.h`)

A growing array with a read and a write position.  Values are appended behind the write
position and taken from the read position.  Integers take one to nine bytes: the leading
ones of the first byte say how many follow.

Positions are `int`s of the source.  A sum that leaves `int` has no result, and neither has
a capacity that is doubled past it.  A `false` return is `refused`; an exception or an
overflow while reading is `undefined`.
-/

namespace Athena.Luban

open Cyclic Reader

/-- `[_beginPos, _endPos)` is the part of `_data` that holds bytes; the length of `_data` is
    `_capacity`. -/
structure ByteBuf where
  _data : List UInt8
  _beginPos : Nat
  _endPos : Nat
  begin_le : _beginPos ≤ _endPos
  end_le : _endPos ≤ _data.length
  capacity_lt : _data.length < 2 ^ 31

def INIT_CAPACITY : Nat := 16

/-- The memory image of a `k` byte number on a little-endian host. -/
def image : Nat → Nat → List UInt8
  | 0, _ => []
  | k + 1, n => n.toUInt8 :: image k (n / 256)

/-- The number that has the memory image. -/
def ofImage : List UInt8 → Nat
  | [] => 0
  | b :: bs => b.toNat + 256 * ofImage bs

namespace ByteBuf

/-- The default constructor: `EMPTY_BYTES` counts as no capacity. -/
def new : ByteBuf := ⟨[], 0, 0, Nat.le_refl 0, Nat.le_refl 0, by decide⟩

def size (buf : ByteBuf) : Nat := buf._endPos - buf._beginPos

/-- The bytes between the positions. -/
def contents (buf : ByteBuf) : List UInt8 := slice buf._data buf._beginPos buf.size

def clear (buf : ByteBuf) : ByteBuf :=
  { buf with
    _beginPos := 0
    _endPos := 0
    begin_le := Nat.le_refl 0
    end_le := Nat.zero_le _ }

/-! ## Making room -/

/-- The loop of `calcNewCapacity`: `i <<= 1` until `i >= needSize`. -/
def calcNewCapacityFrom : Nat → Nat → Nat → Option Nat
  | 0, _, _ => none
  | fuel + 1, i, needSize =>
    if needSize ≤ i then some i
    else if 2 ^ 31 ≤ 2 * i then none
    else calcNewCapacityFrom fuel (2 * i) needSize

/-- After 32 rounds the loop has left `int`. -/
def calcNewCapacity (initSize needSize : Nat) : Option Nat :=
  if 2 ^ 31 ≤ initSize * 2 then none
  else calcNewCapacityFrom 32 (max (initSize * 2) INIT_CAPACITY) needSize

/-- `size()` is the number of bytes that are left to read. -/
theorem length_contents (buf : ByteBuf) : buf.contents.length = buf.size := by
  have := buf.begin_le
  have := buf.end_le
  rw [contents, length_slice, size]
  omega

/-- The remaining bytes at the start of the array `data`: the array itself for a `memmove`, a new
    one for a `memcpy`.  What `new byte[n]` holds behind them is never read. -/
def moved (buf : ByteBuf) (data : List UInt8) (hle : buf.size ≤ data.length)
    (hlt : data.length < 2 ^ 31) : ByteBuf where
  _data := overwrite data 0 buf.contents
  _beginPos := 0
  _endPos := buf.size
  begin_le := Nat.zero_le _
  end_le := by
    rw [length_overwrite (by rw [length_contents]; omega)]
    exact hle
  capacity_lt := by
    rw [length_overwrite (by rw [length_contents]; omega)]
    exact hlt

/-- No more bytes can be read than the array has. -/
theorem size_le (buf : ByteBuf) : buf.size ≤ buf._data.length := by
  have := buf.end_le
  rw [size]
  omega

def compactBuffer (buf : ByteBuf) : ByteBuf := buf.moved buf._data buf.size_le buf.capacity_lt

def compactOrResize (buf : ByteBuf) (size : Nat) : Option ByteBuf :=
  if buf.size + size ≤ buf._data.length then
    some (buf.moved buf._data buf.size_le buf.capacity_lt)
  else
    match calcNewCapacity buf._data.length (buf.size + size) with
    | none => none
    | some n =>
      if h : buf.size ≤ (List.replicate n (0 : UInt8)).length ∧
          (List.replicate n (0 : UInt8)).length < 2 ^ 31 then
        some (buf.moved (List.replicate n 0) h.1 h.2)
      else none

def reserveWrite (buf : ByteBuf) (size : Nat) : Option ByteBuf :=
  if 2 ^ 31 ≤ buf._endPos + size then none
  else if buf._data.length < buf._endPos + size then buf.compactOrResize size
  else some buf

/-! ## Writing -/

/-- `reserveWrite`, the bytes at the write position, and the position behind them. -/
def put (buf : ByteBuf) (bytes : List UInt8) : Option ByteBuf :=
  match buf.reserveWrite bytes.length with
  | none => none
  | some buf =>
    if h : buf._endPos + bytes.length ≤ buf._data.length then
      some
        { _data := overwrite buf._data buf._endPos bytes
          _beginPos := buf._beginPos
          _endPos := buf._endPos + bytes.length
          begin_le := Nat.le_trans buf.begin_le (Nat.le_add_right _ _)
          end_le := by rw [length_overwrite h]; exact h
          capacity_lt := by rw [length_overwrite h]; exact buf.capacity_lt }
    else none

def writeBool (buf : ByteBuf) (b : Bool) : Option ByteBuf := buf.put [if b then 1 else 0]

def writeByte (buf : ByteBuf) (x : UInt8) : Option ByteBuf := buf.put [x]

def writeShort (buf : ByteBuf) (x : Int16) : Option ByteBuf :=
  let u := x.toUInt16
  if 0 ≤ x ∧ x < 0x80 then buf.put [u.toUInt8]
  else if 0 ≤ x ∧ x < 0x4000 then buf.put [((u >>> 8) ||| 0x80).toUInt8, u.toUInt8]
  else buf.put [0xff, (u >>> 8).toUInt8, u.toUInt8]

def writeFshort (buf : ByteBuf) (x : Int16) : Option ByteBuf :=
  buf.put (image 2 x.toUInt16.toNat)

def writeFint (buf : ByteBuf) (x : Int32) : Option ByteBuf := buf.put (image 4 x.toUInt32.toNat)

def writeFlong (buf : ByteBuf) (x : Int64) : Option ByteBuf := buf.put (image 8 x.toUInt64.toNat)

def writeUint (buf : ByteBuf) (x : UInt32) : Option ByteBuf :=
  if x < 0x80 then buf.put [x.toUInt8]
  else if x < 0x4000 then buf.put [((x >>> 8) ||| 0x80).toUInt8, x.toUInt8]
  else if x < 0x200000 then
    buf.put [((x >>> 16) ||| 0xc0).toUInt8, (x >>> 8).toUInt8, x.toUInt8]
  else if x < 0x10000000 then
    buf.put [((x >>> 24) ||| 0xe0).toUInt8, (x >>> 16).toUInt8, (x >>> 8).toUInt8, x.toUInt8]
  else
    buf.put
      [0xf0, (x >>> 24).toUInt8, (x >>> 16).toUInt8, (x >>> 8).toUInt8, x.toUInt8]

def writeInt (buf : ByteBuf) (x : Int32) : Option ByteBuf := buf.writeUint x.toUInt32

/-- `n -> (n << 1) ^ (n >> 31)` -/
def writeSint (buf : ByteBuf) (x : Int32) : Option ByteBuf :=
  buf.writeUint ((x <<< 1) ^^^ (x >>> 31)).toUInt32

def writeUlong (buf : ByteBuf) (x : UInt64) : Option ByteBuf :=
  if x < 0x80 then buf.put [x.toUInt8]
  else if x < 0x4000 then buf.put [((x >>> 8) ||| 0x80).toUInt8, x.toUInt8]
  else if x < 0x200000 then
    buf.put [((x >>> 16) ||| 0xc0).toUInt8, (x >>> 8).toUInt8, x.toUInt8]
  else if x < 0x10000000 then
    buf.put [((x >>> 24) ||| 0xe0).toUInt8, (x >>> 16).toUInt8, (x >>> 8).toUInt8, x.toUInt8]
  else if x < 0x800000000 then
    buf.put [((x >>> 32) ||| 0xf0).toUInt8, (x >>> 24).toUInt8, (x >>> 16).toUInt8,
      (x >>> 8).toUInt8, x.toUInt8]
  else if x < 0x40000000000 then
    buf.put [((x >>> 40) ||| 0xf8).toUInt8, (x >>> 32).toUInt8, (x >>> 24).toUInt8,
      (x >>> 16).toUInt8, (x >>> 8).toUInt8, x.toUInt8]
  -- seven bytes could carry 49 bits; the source stops using them at 45
  else if x < 0x200000000000 then
    buf.put [((x >>> 48) ||| 0xfc).toUInt8, (x >>> 40).toUInt8, (x >>> 32).toUInt8,
      (x >>> 24).toUInt8, (x >>> 16).toUInt8, (x >>> 8).toUInt8, x.toUInt8]
  else if x < 0x100000000000000 then
    buf.put [0xfe, (x >>> 48).toUInt8, (x >>> 40).toUInt8, (x >>> 32).toUInt8,
      (x >>> 24).toUInt8, (x >>> 16).toUInt8, (x >>> 8).toUInt8, x.toUInt8]
  else
    buf.put [0xff, (x >>> 56).toUInt8, (x >>> 48).toUInt8, (x >>> 40).toUInt8,
      (x >>> 32).toUInt8, (x >>> 24).toUInt8, (x >>> 16).toUInt8, (x >>> 8).toUInt8,
      x.toUInt8]

def writeLong (buf : ByteBuf) (x : Int64) : Option ByteBuf := buf.writeUlong x.toUInt64

/-- `n -> (n << 1) ^ (n >> 63)` -/
def writeSlong (buf : ByteBuf) (x : Int64) : Option ByteBuf :=
  buf.writeUlong ((x <<< 1) ^^^ (x >>> 63)).toUInt64

/-- A `float` by its bits. -/
def writeFloat (buf : ByteBuf) (x : UInt32) : Option ByteBuf := buf.put (image 4 x.toNat)

/-- A `double` by its bits. -/
def writeDouble (buf : ByteBuf) (x : UInt64) : Option ByteBuf := buf.put (image 8 x.toNat)

def writeSize (buf : ByteBuf) (n : Int32) : Option ByteBuf := buf.writeUint n.toUInt32

def writeString (buf : ByteBuf) (x : List UInt8) : Option ByteBuf :=
  let n := Int32.ofNat x.length
  match buf.writeSize n with
  | none => none
  | some buf => if 0 < n then buf.put (x.take n.toNatClampNeg) else some buf

/-- `appendBuffer` with the length of the bytes that it is given. -/
def appendBuffer (buf : ByteBuf) (bytes : List UInt8) : Option ByteBuf := buf.put bytes

/-! ## Reading -/

/-- `_data[_beginPos + i]`. -/
def byteAt (i : Nat) : Reader ByteBuf UInt8 := fun buf =>
  match buf._data[buf._beginPos + i]? with
  | some b => .done b buf
  | none => .undefined

/-- `ensureRead`: the sum must be an `int`. -/
def ensureRead (size : Int) : Reader ByteBuf Bool := fun buf =>
  if 2 ^ 31 ≤ buf._beginPos + size then .undefined
  else .done (decide (buf._beginPos + size ≤ buf._endPos)) buf

/-- `if (!ensureRead(size)) return false;` -/
def need (size : Int) : Reader ByteBuf Unit := do
  if ← ensureRead size then return () else refuse

/-- The buffer with the read position `n` further on, as far as there are bytes. -/
def skip (n : Nat) (buf : ByteBuf) : ByteBuf :=
  { buf with
    _beginPos := min (buf._beginPos + n) buf._endPos
    begin_le := Nat.min_le_right _ _ }

/-- `_beginPos += n`, which every reader does behind an `ensureRead`. -/
def advance (n : Nat) : Reader ByteBuf Unit := fun buf =>
  if buf._beginPos + n ≤ buf._endPos then .done () (buf.skip n) else .undefined

/-- `memcpy(dst, _data + _beginPos, n)`. -/
def peek (n : Nat) : Reader ByteBuf (List UInt8) := fun buf =>
  if buf._beginPos + n ≤ buf._data.length then .done (slice buf._data buf._beginPos n) buf
  else .undefined

/-- `(a << 24) | (b << 16) | (c << 8) | d` -/
def word (a b c d : UInt32) : UInt32 := (a <<< 24) ||| (b <<< 16) ||| (c <<< 8) ||| d

/-- Byte `i` as the operand of a shift. -/
def wordAt (i : Nat) : Reader ByteBuf UInt32 := do
  let b ← byteAt i
  return b.toUInt32

/-- `if (!ensureRead(n)) return false; out = f; _beginPos += n;` -/
def taking {α : Type} (n : Nat) (f : Reader ByteBuf α) : Reader ByteBuf α := do
  need n
  let x ← f
  advance n
  return x

def readBool : Reader ByteBuf Bool := taking 1 do return (← byteAt 0) != 0

def readByte : Reader ByteBuf UInt8 := taking 1 (byteAt 0)

/-- `readShort` behind the first byte. -/
def shortOf (h : UInt32) : Reader ByteBuf Int16 :=
  if h < 0x80 then do
    advance 1
    return h.toUInt16.toInt16
  else if h < 0xc0 then
    taking 2 do return (word 0 0 (h &&& 0x3f) (← wordAt 1)).toUInt16.toInt16
  else if h = 0xff then
    taking 3 do return (word 0 0 (← wordAt 1) (← wordAt 2)).toUInt16.toInt16
  else refuse

def readShort : Reader ByteBuf Int16 := do
  need 1
  shortOf (← wordAt 0)

def readFshort : Reader ByteBuf Int16 :=
  taking 2 do return (ofImage (← peek 2)).toUInt16.toInt16

def readFint : Reader ByteBuf Int32 :=
  taking 4 do return (ofImage (← peek 4)).toUInt32.toInt32

def readFlong : Reader ByteBuf Int64 :=
  taking 8 do return (ofImage (← peek 8)).toUInt64.toInt64

/-- `readUint` behind the first byte. -/
def uintOf (h : UInt32) : Reader ByteBuf UInt32 :=
  if h < 0x80 then do
    advance 1
    return h
  else if h < 0xc0 then taking 2 do return word 0 0 (h &&& 0x3f) (← wordAt 1)
  else if h < 0xe0 then taking 3 do return word 0 (h &&& 0x1f) (← wordAt 1) (← wordAt 2)
  else if h < 0xf0 then
    taking 4 do return word (h &&& 0x0f) (← wordAt 1) (← wordAt 2) (← wordAt 3)
  else taking 5 do return word (← wordAt 1) (← wordAt 2) (← wordAt 3) (← wordAt 4)

def readUint : Reader ByteBuf UInt32 := do
  need 1
  uintOf (← wordAt 0)

def readInt : Reader ByteBuf Int32 := do
  let x ← readUint
  return x.toInt32

/-- `(x >>> 1) ^ -(n & 1)` -/
def readSint : Reader ByteBuf Int32 := do
  let x ← readUint
  return (x >>> 1).toInt32 ^^^ -(x.toInt32 &&& 1)

/-- `((uint64_t)xh << 32) | xl` -/
def long (xh xl : UInt32) : UInt64 := (xh.toUInt64 <<< 32) ||| xl.toUInt64

/-- `readUlong` behind the first byte. -/
def ulongOf (h : UInt32) : Reader ByteBuf UInt64 :=
  if h < 0x80 then do
    advance 1
    return h.toUInt64
  else if h < 0xc0 then taking 2 do return (word 0 0 (h &&& 0x3f) (← wordAt 1)).toUInt64
  else if h < 0xe0 then
    taking 3 do return (word 0 (h &&& 0x1f) (← wordAt 1) (← wordAt 2)).toUInt64
  else if h < 0xf0 then
    taking 4 do return (word (h &&& 0x0f) (← wordAt 1) (← wordAt 2) (← wordAt 3)).toUInt64
  else if h < 0xf8 then
    taking 5 do
      let xl := word (← wordAt 1) (← wordAt 2) (← wordAt 3) (← wordAt 4)
      return long (h &&& 0x07) xl
  else if h < 0xfc then
    taking 6 do
      let xl := word (← wordAt 2) (← wordAt 3) (← wordAt 4) (← wordAt 5)
      return long (word 0 0 (h &&& 0x03) (← wordAt 1)) xl
  else if h < 0xfe then
    taking 7 do
      let xl := word (← wordAt 3) (← wordAt 4) (← wordAt 5) (← wordAt 6)
      return long (word 0 (h &&& 0x01) (← wordAt 1) (← wordAt 2)) xl
  else if h < 0xff then
    taking 8 do
      let xl := word (← wordAt 4) (← wordAt 5) (← wordAt 6) (← wordAt 7)
      return long (word 0 (← wordAt 1) (← wordAt 2) (← wordAt 3)) xl
  else
    taking 9 do
      let xl := word (← wordAt 5) (← wordAt 6) (← wordAt 7) (← wordAt 8)
      return long (word (← wordAt 1) (← wordAt 2) (← wordAt 3) (← wordAt 4)) xl

def readUlong : Reader ByteBuf UInt64 := do
  need 1
  ulongOf (← wordAt 0)

def readLong : Reader ByteBuf Int64 := do
  let x ← readUlong
  return x.toInt64

/-- `(x >>> 1) ^ -(n & 1L)` -/
def readSlong : Reader ByteBuf Int64 := do
  let x ← readUlong
  return (x >>> 1).toInt64 ^^^ -(x.toInt64 &&& 1)

def readFloat : Reader ByteBuf UInt32 := taking 4 do return (ofImage (← peek 4)).toUInt32

def readDouble : Reader ByteBuf UInt64 := taking 8 do return (ofImage (← peek 8)).toUInt64

def readSize : Reader ByteBuf Int32 := do
  let re ← readUint
  return re.toInt32

/-- `x.resize(n)` throws on a negative size. -/
def resize (n : Int32) : Reader ByteBuf Unit := fun buf =>
  if n < 0 then .undefined else .done () buf

/-- `readString` behind the size. -/
def stringOf (n : Int32) : Reader ByteBuf (List UInt8) := do
  need n.toInt
  resize n
  let x ← peek n.toNatClampNeg
  advance n.toNatClampNeg
  return x

def readString : Reader ByteBuf (List UInt8) := do stringOf (← readSize)

end ByteBuf

end Athena.Luban
