import Athena.ForStd.Block

/-!
# Prepared statements (`dal/db/SqlPrepare.cpp`)

The parameters of a statement are an array of `MYSQL_BIND`, one for each `?` of the text.
A push fills the next one, `clear` starts again with the first and keeps the buffers.  A
buffer is the block that `new char[]` allocated, and a push whose copy goes past the end
of a block, or that has no slot, is `none`.
-/

namespace Athena

/-- `enum_field_types` of the client library, as far as the code names its members. -/
inductive EnumFieldTypes where
  | decimal
  | tiny
  | short
  | long
  | float
  | double
  | null
  | longlong
  | int24
  | date
  | time
  | datetime
  | timestamp
  | year
  | bit
  | newdecimal
  | tinyBlob
  | blob
  | mediumBlob
  | longBlob
  | string
  | varString
  /-- The others, by their number. -/
  | other (code : Nat)
  deriving DecidableEq, Repr

/-- `MYSQL_BIND` of a parameter; `length` is the entry of `m_paramLengths` that it points to,
which is not initialised. -/
structure ParamBind where
  bufferType : EnumFieldTypes
  buffer : Option (List UInt8)
  bufferLength : Nat
  length : Option Nat
  isNullValue : Bool
  isUnsigned : Bool
  deriving DecidableEq, Repr

structure SqlPrepare where
  sql : List Char
  count : Int
  paramBind : List ParamBind
  widx : Nat
  deriving DecidableEq, Repr

/-- The object representation of a value of `w` bytes, the low byte first. -/
def objectBytes (w : Nat) (value : BitVec (8 * w)) : List UInt8 :=
  List.ofFn fun i : Fin w => UInt8.ofBitVec (value.extractLsb' (8 * i) 8)

/-- A value of `w` bytes is copied as `w` bytes. -/
@[simp] theorem length_objectBytes (w : Nat) (value : BitVec (8 * w)) :
    (objectBytes w value).length = w := by
  rw [objectBytes, List.length_ofFn]

/-- `Tools::charCount`; `nCount` is an `int`. -/
def charCount (str : List Char) (c : Char) : Int :=
  Int.bmod ((str.takeWhile (· != Char.ofNat 0)).count c) (2 ^ 32)

namespace ParamBind

/-- A slot after `memset`. -/
def zero : ParamBind :=
  { bufferType := .decimal, buffer := none, bufferLength := 0, length := none,
    isNullValue := false, isUnsigned := false }

/-- `SetParameterValue`: the old buffer is deleted, and the new one has the size of the value. -/
def setParameterValue (param : ParamBind) (type : EnumFieldTypes) (value : List UInt8)
    (isUnsigned : Bool) : ParamBind :=
  { param with
    bufferType := type
    buffer := some value
    bufferLength := value.length
    length := some value.length
    isNullValue := false
    isUnsigned := isUnsigned }

/-- The copy of `pushString` and of `write`: the buffer that is there is written over. -/
def copyValue (param : ParamBind) (type : EnumFieldTypes) (data : List UInt8) (len : Int) :
    Option ParamBind :=
  -- `new` refuses a negative size, and to `memcpy` it is a huge one
  if len < 0 then none
  else
    match Block.read data len.toNat with
    | none => none
    | some src =>
      let filled (buffer : List UInt8) : ParamBind :=
        { param with
          bufferType := type
          buffer := some buffer
          bufferLength := len.toNat
          length := some len.toNat
          isUnsigned := false }
      match param.buffer with
      | none => some (filled src)
      | some block => (Block.write block src).map filled

end ParamBind

namespace SqlPrepare

/-- The constructor. -/
def new (sqlstr : List Char) : SqlPrepare :=
  let count := charCount sqlstr '?'
  { sql := sqlstr, count := count, paramBind := List.replicate count.toNat .zero, widx := 0 }

def clear (s : SqlPrepare) : SqlPrepare := { s with widx := 0 }

/-- `&m_paramBind[m_widx++]`, and what is done with the slot. -/
def push (s : SqlPrepare) (fill : ParamBind → Option ParamBind) : Option SqlPrepare :=
  match s.paramBind[s.widx]? with
  | none => none
  | some bind =>
    (fill bind).map fun bind' =>
      { s with paramBind := s.paramBind.set s.widx bind', widx := s.widx + 1 }

/-- The push of a scalar. -/
def pushScalar (type : EnumFieldTypes) (isUnsigned : Bool) (value : List UInt8) (s : SqlPrepare) :
    Option SqlPrepare :=
  s.push fun bind => some (bind.setParameterValue type value isUnsigned)

def pushInt8 (value : BitVec 8) : SqlPrepare → Option SqlPrepare :=
  pushScalar .tiny false (objectBytes 1 value)

def pushUint8 (value : BitVec 8) : SqlPrepare → Option SqlPrepare :=
  pushScalar .tiny true (objectBytes 1 value)

def pushInt16 (value : BitVec 16) : SqlPrepare → Option SqlPrepare :=
  pushScalar .short false (objectBytes 2 value)

def pushUint16 (value : BitVec 16) : SqlPrepare → Option SqlPrepare :=
  pushScalar .short true (objectBytes 2 value)

def pushInt32 (value : BitVec 32) : SqlPrepare → Option SqlPrepare :=
  pushScalar .long false (objectBytes 4 value)

def pushUint32 (value : BitVec 32) : SqlPrepare → Option SqlPrepare :=
  pushScalar .long true (objectBytes 4 value)

def pushInt64 (value : BitVec 64) : SqlPrepare → Option SqlPrepare :=
  pushScalar .longlong false (objectBytes 8 value)

def pushUint64 (value : BitVec 64) : SqlPrepare → Option SqlPrepare :=
  pushScalar .longlong true (objectBytes 8 value)

/-- `value` is the bits of the float, which is positive up to those of infinity. -/
def pushFloat (value : BitVec 32) : SqlPrepare → Option SqlPrepare :=
  pushScalar .float (0 < value && value ≤ 0x7F800000#32) (objectBytes 4 value)

def pushDouble (value : BitVec 64) : SqlPrepare → Option SqlPrepare :=
  pushScalar .double (0 < value && value ≤ 0x7FF0000000000000#64) (objectBytes 8 value)

def pushString (value : List UInt8) (s : SqlPrepare) : Option SqlPrepare :=
  s.push fun bind => bind.copyValue .string value (Block.intLength value.length)

/-- `pData` is the memory that the pointer is into, from where it points. -/
def write (pData : List UInt8) (len : Int) (s : SqlPrepare) : Option SqlPrepare :=
  s.push fun bind => bind.copyValue .blob pData len

def pushData (sv : List UInt8) : SqlPrepare → Option SqlPrepare :=
  write sv (Block.intLength sv.length)

end SqlPrepare

end Athena
