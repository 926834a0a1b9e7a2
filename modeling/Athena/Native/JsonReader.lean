import Athena.Native.Json

/-!
# The JSON reader (`core/utils/JsonReader.cpp`)

The cursor of a `JsonBuff` is the text from it up to the terminating NUL, and `past`
remembers a move beyond that.  The other fields are the heap: how many nodes were
allocated, which ones were deleted, and which ones a repeated key has taken the last
pointer from.  The functions that call each other have a bound on the depth of the calls.
-/

namespace Athena

namespace Json

/-- A text that a NUL ends. -/
structure Text where
  bytes : List Char
  no_nul : '\x00' ∉ bytes

structure JsonBuff where
  /-- the bytes from `p` on, without the NUL -/
  rest : List Char
  past : Bool
  allocated : Nat
  deleted : List Nat
  leaked : List Nat
  deriving DecidableEq, Repr

namespace JsonBuff

def new (str : Text) : JsonBuff :=
  { rest := str.bytes, past := false, allocated := 0, deleted := [], leaked := [] }

/-- `*curr()`. -/
def curr (buff : JsonBuff) : Char := buff.rest.headD '\x00'

def go (buff : JsonBuff) (len : Nat) : JsonBuff :=
  { buff with rest := buff.rest.drop len, past := buff.past || buff.rest.length < len }

/-- The loop `while (keep(*p)) p = go()`, for a `keep` that is false of the NUL. -/
def goWhile (buff : JsonBuff) (keep : Char → Bool) : JsonBuff :=
  { buff with rest := buff.rest.dropWhile keep }

def isBlank (c : Char) : Bool := c ≠ '\x00' && c.toNat ≤ 32

def skip (buff : JsonBuff) : JsonBuff := buff.goWhile isBlank

end JsonBuff

variable {F : Type}

namespace JsonBuff

/-- `new`: the number of the node, and the heap with it. -/
def alloc (buff : JsonBuff) : Nat × JsonBuff :=
  (buff.allocated, { buff with allocated := buff.allocated + 1 })

/-- `delete` of nodes that no others own. -/
def delete (buff : JsonBuff) (ids : List Nat) : JsonBuff :=
  { buff with deleted := buff.deleted ++ ids }

/-- The node that `objs[key]` pointed to before a store, if any. -/
def leak (buff : JsonBuff) : Option (JBaseObj F) → JsonBuff
  | none => buff
  | some old => { buff with leaked := buff.leaked ++ old.ids }

end JsonBuff

/-- How a function of the reader ends: with a node, with `nullptr` or with an exception. -/
inductive Res (F : Type) where
  | node (obj : JBaseObj F) (buff : JsonBuff)
  | null (buff : JsonBuff)
  | thrown (buff : JsonBuff)
  | timeout

/-! ## Scalars -/

/-- `readStr`: the string if there is one, and where the cursor is then. -/
def readStr (buff : JsonBuff) : Option (List Char) × JsonBuff :=
  if buff.curr = '"' then
    let ps := buff.go 1
    let p := ps.goWhile (· ≠ '"')
    let outstr := ps.rest.takeWhile (· ≠ '"')
    -- an empty string is refused, and the cursor stays behind what was looked at
    if outstr ≠ [] && p.curr = '"' then (some outstr, p.go 1) else (none, p)
  else (none, buff)

def isDigit (c : Char) : Bool := '0' ≤ c && c ≤ '9'

/-- The loop over the digits and the dot: whether there is a dot and how many digits
there are, unless there is a second dot, and the text after them. -/
def scanNumber (isfloat : Bool) (numpos : Nat) : List Char → Option (Bool × Nat) × List Char
  | [] => (some (isfloat, numpos), [])
  | c :: str =>
    -- the second dot
    if c = '.' then if isfloat then (none, c :: str) else scanNumber true numpos str
    else if isDigit c then scanNumber isfloat (numpos + 1) str
    else (some (isfloat, numpos), c :: str)

/-- `std::stoi`, which throws where there is no digit and where the value does not fit. -/
def stoi (str : List Char) : Option Int32 :=
  let negative := str.head? = some '-'
  let digits := (if negative then str.tail else str).takeWhile isDigit
  let magnitude : Int := Nat.ofDigitChars 10 digits 0
  let value := if negative then -magnitude else magnitude
  if digits = [] then none
  else if -2147483648 ≤ value ∧ value < 2147483648 then some (Int32.ofInt value)
  else none

/-- `new JValue` with its contents. -/
def newValue (buff : JsonBuff) (v : JValue F) : Res F :=
  let (id, buff) := buff.alloc
  .node (.value id v) buff

variable (float : FloatText F)

/-- The contents of a number at `pnum`, unless a conversion throws. -/
def number (isfloat : Bool) (pnum : List Char) : Option (JValue F) :=
  if isfloat then (float.stof pnum).map .eJ_FLOAT else (stoi pnum).map .eJ_INT

/-- The end of `readBase`: a string, without a number before it. -/
def readBaseStr (buff : JsonBuff) : Res F :=
  match readStr buff with
  | (some s, buff) => newValue buff (.eJ_STRING s)
  | (none, buff) => .null buff

/-- The part of `readBase` from the number on. -/
def readBaseNumber (buff : JsonBuff) : Res F :=
  let pnum := buff.rest
  let buff := if buff.curr = '-' then buff.go 1 else buff
  match scanNumber false 0 buff.rest with
  | (none, rest) => .null { buff with rest := rest }
  | (some (isfloat, numpos), rest) =>
    let buff := { buff with rest := rest }
    if numpos ≠ 0 then
      match number float isfloat pnum with
      | some v => newValue buff v
      -- the new node stays behind
      | none => .thrown buff.alloc.2
    else readBaseStr buff

def readBase (buff : JsonBuff) : Res F :=
  if "null".toList.isPrefixOf buff.rest then newValue (buff.go 4) .eJ_NULL
  else if "false".toList.isPrefixOf buff.rest then newValue (buff.go 5) (.eJ_BOOL false)
  else if "true".toList.isPrefixOf buff.rest then newValue (buff.go 4) (.eJ_BOOL true)
  else readBaseNumber float buff

/-! ## Arrays and objects -/

/-- `readArray` after its loop. -/
def endArray (objs : List (JBaseObj F)) (buff : JsonBuff) : Res F :=
  if buff.curr = ']' then
    let (id, buff) := (buff.go 1).alloc
    .node (.array id objs) buff
  -- what the loop has made is deleted with the array
  else .null (buff.delete (itemIds objs))

/-- `readObj` after its loop. -/
def endObj (objs : List (List Char × JBaseObj F)) (buff : JsonBuff) : Res F :=
  if buff.curr = '}' then
    let (id, buff) := (buff.go 1).alloc
    .node (.object id objs) buff
  else .null (buff.delete (memberIds objs))

/-- The key of a member and its `:`. -/
def readKey (buff : JsonBuff) : Option (List Char) × JsonBuff :=
  let buff := buff.skip
  if buff.curr = '"' then
    match readStr buff with
    | (some s, buff) => if buff.curr = ':' then (some s, buff.go 1) else (none, buff)
    | (none, buff) => (none, buff)
  else (none, buff)

mutual

def reader : Nat → JsonBuff → Res F
  | 0, _ => .timeout
  | fuel + 1, buff =>
    let buff := buff.skip
    if buff.curr = '[' then
      let buff := buff.go 1
      if buff.curr ≠ ']' && buff.curr ≠ '\x00' then readItem fuel [] buff
      else endArray [] buff
    else if buff.curr = '{' then
      let buff := buff.go 1
      if buff.curr ≠ '}' && buff.curr ≠ '\x00' then readMember fuel [] buff
      else endObj [] buff
    else readBase float buff

/-- `readArray` from `parser_pos` on. -/
def readItem : Nat → List (JBaseObj F) → JsonBuff → Res F
  | 0, _, _ => .timeout
  | fuel + 1, objs, buff =>
    match reader fuel buff with
    | .node obj buff =>
      let objs := objs ++ [obj]
      let buff := buff.skip
      if buff.curr = ',' then readItem fuel objs (buff.go 1)
      else if buff.curr ≠ ']' && buff.curr ≠ '\x00' then readItem fuel objs buff
      else endArray objs buff
    | .null buff => .null (buff.delete (itemIds objs))
    | .thrown buff => .thrown buff
    | .timeout => .timeout

/-- `readObj` from `parser_pos` on. -/
def readMember : Nat → List (List Char × JBaseObj F) → JsonBuff → Res F
  | 0, _, _ => .timeout
  | fuel + 1, objs, buff =>
    match readKey buff with
    | (none, buff) => .null (buff.delete (memberIds objs))
    | (some s, buff) =>
      match reader fuel buff with
      | .node obj buff =>
        let buff := (buff.leak (SortedMap.find s objs)).skip
        let objs := SortedMap.store s obj objs
        if buff.curr = ',' then readMember fuel objs (buff.go 1)
        else if buff.curr ≠ '}' && buff.curr ≠ '\x00' then readMember fuel objs buff
        else endObj objs buff
      | .null buff => .null (buff.delete (memberIds objs))
      | .thrown buff => .thrown buff
      | .timeout => .timeout

end

/-- The depth of the calls is enough for any text of that length. -/
def depth (str : List Char) : Nat := 2 * str.length + 1

/-- `JsonReader::parser`. -/
def parser (str : Text) : Res F :=
  let buff := JsonBuff.new str
  match reader float (depth str.bytes) buff with
  | .node obj buff =>
    let buff := buff.skip
    if buff.curr ≠ '\x00' then .null (buff.delete obj.ids) else .node obj buff
  | .null buff => .null buff.skip
  | .thrown buff => .thrown buff
  | .timeout => .timeout

end Json

end Athena
