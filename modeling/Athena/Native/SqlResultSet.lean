import Athena.Native.SqlPrepare

/-!
# Result sets (`dal/db/SqlResultSet.h`, `.cpp`)

`setResult` binds one buffer to each column, lets the client library fetch row after row
into the buffers, and copies what it finds there into the fields of a table.  The getters
walk over the table.  A copy or a read that goes past the end of its block, or past the end
of the table, is `none`.

What the client library answers is a `StmtResult`: `mysql_stmt_fetch` writes at most
`buffer_length` bytes of a value and reports its full length.
-/

namespace Athena

structure MysqlField where
  type : EnumFieldTypes
  flags : UInt32
  length : Nat
  maxLength : Nat
  deriving DecidableEq, Repr

/-- The result of a statement, as the client library hands it out. -/
structure StmtResult where
  /-- What `mysql_fetch_field` gives, as many as `mysql_stmt_field_count` says. -/
  fields : List MysqlField
  /-- `mysql_stmt_num_rows`. -/
  rowCount : Nat
  /-- The rows that are fetched before `MYSQL_NO_DATA` or an error; NULL is `none`. -/
  rows : List (List (Option (List UInt8)))
  /-- `mysql_stmt_bind_result` answers with an error. -/
  bindFails : Bool
  /-- `sizeof(MYSQL_TIME)`. -/
  timeSize : Nat
  fields_lt : fields.length < 2 ^ 31
  rows_le : rows.length ≤ rowCount
  row_length : ∀ row ∈ rows, row.length = fields.length

/-- `MYSQL_BIND` of a column; no buffer is the empty block. -/
structure ResultBind where
  bufferType : EnumFieldTypes
  isUnsigned : Bool
  bufferLength : Nat
  buffer : List UInt8
  length : Nat
  isNull : Bool
  deriving DecidableEq, Repr

structure SqlField where
  buff : Option (List UInt8)
  len : Int
  deriving DecidableEq, Repr

namespace SqlField

def new : SqlField := { buff := none, len := 0 }

/-- `make`: `new` refuses a negative size. -/
def make (pdata : List UInt8) (len : Int) : Option SqlField :=
  if len < 0 then none
  else (Block.read pdata len.toNat).map fun bytes => { buff := some bytes, len := len }

def isEmpty (f : SqlField) : Bool := f.buff.isNone

/-- `getValue<T>` for a type of `size` bytes. -/
def getValue (f : SqlField) (size : Nat) : Option (List UInt8) := Block.read (f.buff.getD []) size

/-- `std::string val(field->data(), field->length())`. -/
def getString (f : SqlField) : Option (List UInt8) :=
  if f.len < 0 then none else Block.read (f.buff.getD []) f.len.toNat

end SqlField

namespace ResultBind

/-- A column after `memset`. -/
def zero : ResultBind :=
  { bufferType := .decimal, isUnsigned := false, bufferLength := 0, buffer := [], length := 0,
    isNull := false }

def UNSIGNED_FLAG : UInt32 := 32

/-- The size that `allocateResultBuffer` allocates for a column, if it knows the type. -/
def bufferSize (timeSize : Nat) (field : MysqlField) : Option Nat :=
  match field.type with
  | .tiny => some 1
  | .year => some 2
  | .short => some 2
  | .int24 => some 4
  | .long => some 4
  | .longlong => some 8
  | .float => some 4
  | .double => some 8
  | .newdecimal => some 67
  | .time => some timeSize
  | .date => some timeSize
  | .datetime => some timeSize
  | .timestamp => some timeSize
  | .string => some field.length
  | .varString => some field.length
  | .tinyBlob => some field.maxLength
  | .blob => some field.maxLength
  | .mediumBlob => some field.maxLength
  | .longBlob => some field.maxLength
  | .bit => some 1
  | _ => none

def allocateResultBuffer (timeSize : Nat) (field : MysqlField) : ResultBind :=
  let bind : ResultBind :=
    { zero with bufferType := field.type, isUnsigned := field.flags &&& UNSIGNED_FLAG != 0 }
  match bufferSize timeSize field with
  | some size => { bind with bufferLength := size, buffer := List.replicate size 0 }
  | none => bind

/-- What `mysql_stmt_fetch` does to a column. -/
def fetch (bind : ResultBind) : Option (List UInt8) → ResultBind
  | none => { bind with isNull := true }
  | some value =>
    let written := value.take bind.bufferLength
    { bind with
      buffer := written ++ bind.buffer.drop written.length
      length := value.length
      isNull := false }

/-- The field that the row loop makes of a column. -/
def makeField (bind : ResultBind) : Option SqlField :=
  if bind.isNull then SqlField.make [] 0
  else SqlField.make bind.buffer (Block.intLength bind.length)

end ResultBind

structure SqlResultSet where
  fields : List SqlField
  currRowIdx : Int
  currColIdx : Nat
  rowCount : Int
  fieldCount : Int
  deriving DecidableEq, Repr

namespace SqlResultSet

/-- The columns of a row, into the table from `rowIndex * pFieldCount` on; the index is
computed in 32 bits. -/
def copyRow (table : List SqlField) (index : Nat) : List ResultBind → Option (List SqlField)
  | [] => some table
  | bind :: binds =>
    if index % 2 ^ 32 < table.length then
      match bind.makeField with
      | none => none
      | some field => copyRow (table.set (index % 2 ^ 32) field) (index + 1) binds
    else none

/-- `while (_fetch(stmt))`. -/
def copyRows (table : List SqlField) (binds : List ResultBind) (rowIndex : Nat) :
    List (List (Option (List UInt8))) → Option (List SqlField)
  | [] => some table
  | row :: rows =>
    let binds := binds.zipWith ResultBind.fetch row
    match copyRow table (rowIndex * binds.length) binds with
    | none => none
    | some table => copyRows table binds (rowIndex + 1) rows

/-- `setResult` of a new object. -/
def setResult (stmt : StmtResult) : Option SqlResultSet :=
  let made (table : List SqlField) : SqlResultSet :=
    { fields := table, currRowIdx := -1, currColIdx := 0, rowCount := stmt.rowCount,
      fieldCount := stmt.fields.length }
  if stmt.rowCount = 0 then some (made [])
  else if stmt.bindFails then some (made [])
  else
    -- `uint32(pRowCount) * pFieldCount`
    let size := stmt.rowCount % 2 ^ 32 * stmt.fields.length % 2 ^ 32
    (copyRows (List.replicate size .new)
      (stmt.fields.map (ResultBind.allocateResultBuffer stmt.timeSize)) 0 stmt.rows).map made

def fetch (s : SqlResultSet) : Bool × SqlResultSet :=
  if s.currRowIdx + 1 ≥ s.rowCount then (false, s)
  else (true, { s with currRowIdx := s.currRowIdx + 1, currColIdx := 0 })

/-- No field is NULL. -/
def getField (s : SqlResultSet) (idx : Nat) : Option (Option SqlField) :=
  if s.currRowIdx < 0 ∨ s.currRowIdx ≥ s.rowCount ∨ idx ≥ s.fieldCount then some none
  else
    (s.fields[(s.currRowIdx * s.fieldCount + idx).toNat]?).map fun field =>
      if field.isEmpty then none else some field

/-- `getField(m_currColIdx++)`, where the `int` does not overflow. -/
def nextField (s : SqlResultSet) : Option (Option SqlField × SqlResultSet) :=
  if s.currColIdx + 1 < 2 ^ 31 then
    (s.getField s.currColIdx).map fun field => (field, { s with currColIdx := s.currColIdx + 1 })
  else none

/-- The getter of a scalar of `size` bytes, whose default is zero. -/
def getScalar (size : Nat) (s : SqlResultSet) : Option (List UInt8 × SqlResultSet) :=
  match s.nextField with
  | none => none
  | some (none, s) => some (List.replicate size 0, s)
  | some (some field, s) => (field.getValue size).map fun bytes => (bytes, s)

def getInt8 : SqlResultSet → Option (List UInt8 × SqlResultSet) := getScalar 1

def getUint8 : SqlResultSet → Option (List UInt8 × SqlResultSet) := getScalar 1

def getInt16 : SqlResultSet → Option (List UInt8 × SqlResultSet) := getScalar 2

def getUint16 : SqlResultSet → Option (List UInt8 × SqlResultSet) := getScalar 2

def getInt32 : SqlResultSet → Option (List UInt8 × SqlResultSet) := getScalar 4

def getUint32 : SqlResultSet → Option (List UInt8 × SqlResultSet) := getScalar 4

def getInt64 : SqlResultSet → Option (List UInt8 × SqlResultSet) := getScalar 8

def getUint64 : SqlResultSet → Option (List UInt8 × SqlResultSet) := getScalar 8

def getFloat : SqlResultSet → Option (List UInt8 × SqlResultSet) := getScalar 4

def getDouble : SqlResultSet → Option (List UInt8 × SqlResultSet) := getScalar 8

def getString (s : SqlResultSet) : Option (List UInt8 × SqlResultSet) :=
  match s.nextField with
  | none => none
  | some (none, s) => some ([], s)
  | some (some field, s) => field.getString.map fun bytes => (bytes, s)

/-- The view has the bytes that `getString` copies. -/
def getStrview : SqlResultSet → Option (List UInt8 × SqlResultSet) := getString

end SqlResultSet

end Athena
