import Athena.ForStd.Block

/-!
# Redis replies (`dal/redis/RedisResult.h`, `.cpp`)

A reply is the tree that hiredis builds: `str` is set in the kinds that carry a text, where
it has `len` bytes and a terminating NUL, and `element` in an array.  What is not set is
NULL, and `len` is then 0.  `RedisResult` walks over a reply with a cursor.  A call that
dereferences NULL, or reads behind the end of a text, is `none`.
-/

namespace Athena

/-- `redisReply`. -/
inductive RedisReply where
  | nil
  | status (str : List UInt8)
  | error (str : List UInt8)
  | integer (value : Int64)
  | string (str : List UInt8)
  | array (element : List RedisReply)

namespace RedisReply

def str : RedisReply → Option (List UInt8)
  | status str => some str
  | error str => some str
  | string str => some str
  | _ => none

def len (r : RedisReply) : Nat := (r.str.getD []).length

def element : RedisReply → List RedisReply
  | array element => element
  | _ => []

/-- `size_t elements`. -/
def elements (r : RedisReply) : Nat := r.element.length

end RedisReply

structure RedisResult where
  reply : Option RedisReply
  pos : UInt32

/-- What a call gives back. -/
inductive RedisAnswer where
  | flag (b : Bool)
  /-- The pointer of `getData`, and `len` where it is asked for. -/
  | data (str : Option (List UInt8)) (len : Option Int)
  /-- The bytes of a `string_view`. -/
  | view (bytes : List UInt8)
  /-- The bytes that are copied into the value. -/
  | value (bytes : List UInt8)
  /-- The word that is extracted; the value is left alone when there is none. -/
  | word (bytes : Option (List UInt8))
  /-- `redis row count upper limit`. -/
  | limit
  deriving DecidableEq, Repr

/-- `isspace` of the C locale. -/
def isSpace (c : UInt8) : Bool := (9 ≤ c && c ≤ 13) || c == 32

/-- `ins >> value` of a stream with these bytes. -/
def extractWord (bytes : List UInt8) : Option (List UInt8) :=
  match bytes.dropWhile isSpace with
  | [] => none
  | rest => some (rest.takeWhile (!isSpace ·))

namespace RedisResult

/-- `setResult` of a new object. -/
def new (reply : Option RedisReply) : RedisResult := { reply := reply, pos := 0 }

def isEmpty (s : RedisResult) : Bool :=
  match s.reply with
  | none => true
  | some r => !(r.str.isSome || 0 < r.elements)

def getRowCount (s : RedisResult) : Option UInt32 :=
  s.reply.map fun r => if r.str.isSome then 1 else UInt32.ofNat r.elements

def getFieldsCount (s : RedisResult) : Option UInt32 := s.getRowCount

def fetch (s : RedisResult) : Option Bool :=
  s.getRowCount.map fun count => if s.pos ≥ count then false else true

/-- What the cursor is at: the reply itself if it has a text, and otherwise `element[pos]`. -/
def current (s : RedisResult) : Option RedisReply :=
  match s.reply with
  | none => none
  | some r => if r.str.isSome then some r else r.element[s.pos.toNat]?

def next (s : RedisResult) : RedisResult := { s with pos := s.pos + 1 }

/-- `getData(int& len)`. -/
def getDataLen (s : RedisResult) : Option ((Option (List UInt8) × Int) × RedisResult) :=
  s.current.map fun r => ((r.str, Block.intLength r.len), s.next)

def getData (s : RedisResult) : Option (Option (List UInt8) × RedisResult) :=
  s.current.map fun r => (r.str, s.next)

/-- The view has `(size_t) len` bytes. -/
def getStream (s : RedisResult) : Option (List UInt8 × RedisResult) :=
  match s.getDataLen with
  | none => none
  | some ((str, len), s) =>
    if len < 0 then none else (Block.read (str.getD []) len.toNat).map fun bytes => (bytes, s)

/-- `operator>>` of a value of `size` bytes; no bytes are the report. -/
def readValue (s : RedisResult) (size : Nat) : Option (Option (List UInt8) × RedisResult) :=
  match s.getFieldsCount with
  | none => none
  | some count =>
    if s.pos ≥ count then some (none, s)
    else
      match s.current.bind RedisReply.str with
      | none => none
      | some p => (Block.read p size).map fun bytes => (some bytes, s.next)

/-- `operator>>` of a string, which reads up to the first NUL. -/
def readString (s : RedisResult) : Option (Option (Option (List UInt8)) × RedisResult) :=
  match s.getFieldsCount with
  | none => none
  | some count =>
    if s.pos ≥ count then some (none, s)
    else
      match s.current.bind RedisReply.str with
      | none => none
      | some p => some (some (extractWord (p.takeWhile (· != 0))), s.next)

end RedisResult

end Athena
