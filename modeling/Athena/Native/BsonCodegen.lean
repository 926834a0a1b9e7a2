import Mathlib.Logic.Function.Basic
import Mathlib.Tactic.Ring

/-!
# The persistence codecs of the data objects (`tools/bson_codegen`)

`codegen_bson.py` writes `toBson` and `fromBson` of each class that `codegen_common.py` finds in
the headers, and `codegen_json.py` writes `toString` and `fromString`.  All four go through the
fields of the class and decide by the text of the field's type which statement they emit; for a
type that they do not know it is a comment.

The first part has the generators: an emitted statement is a constructor of a type of
statements, for the C++ text that its comment shows.  The second part says what the statements
do.  A document is the list of its elements, and a lookup finds the first with a name.  The
`bsoncxx` and `rapidjson` libraries keep each scalar that they are given, and the document that
is parsed is the one that was written.  What the code of other classes gives (a base class, the
class of a member) is a parameter; it changes no member of the class, and returns.  A document
that `toBson` returns lives until the end of the statement, so that the view of one is read in
the same statement or not at all.
-/

namespace Athena.Codegen

/-! ## The generators -/

/-- A field of a class, with its annotations. -/
structure Field where
  type : String
  name : String
  bsonName : String
  flatten : Bool
  skip : Bool
  deriving DecidableEq, Repr

structure TypeDef where
  name : String
  base : Option String
  fields : List Field
  ignoreBase : Bool
  deriving DecidableEq, Repr

/-- `t.replace(" ", "")` -/
def normalizeType (t : String) : String := String.ofList (t.toList.filter (· ≠ ' '))

/-- The getters of an element. -/
inductive BsonGet where
  | getString
  | getInt32
  | getInt64
  | getBool
  | getDouble
  deriving DecidableEq, Repr

def bsonGetExpr (cxxType : String) : Option BsonGet :=
  let t := normalizeType cxxType
  if t ∈ ["std::string", "string"] then some .getString
  else if t ∈ ["int32_t", "int"] then some .getInt32
  else if t ∈ ["int64_t", "long", "longlong"] then some .getInt64
  else if t = "bool" then some .getBool
  else if t ∈ ["double", "float"] then some .getDouble
  else none

def bsonScalarSupported (cxxType : String) : Bool := (bsonGetExpr cxxType).isSome

/-- The statements of `toBson`. -/
inductive ToBsonStmt where
  /-- `auto __view = expr.view();` and the loop of `gen_merge` over the view -/
  | merge (expr : String)
  /-- `doc << "bsonName" << expr.view();` -/
  | document (bsonName expr : String)
  /-- `doc << "bsonName" << name;` -/
  | element (bsonName name : String)
  /-- `// unsupported field type: type name` -/
  | unsupported (type name : String)
  deriving DecidableEq, Repr

/-- What is merged of the base class. -/
def mergedBase (t : TypeDef) : Option String :=
  if t.ignoreBase then none else t.base

def genToBson (t : TypeDef) (allTypes : List TypeDef) : List ToBsonStmt :=
  ((mergedBase t).map fun base => ToBsonStmt.merge (base ++ "::toBson()")).toList ++
    t.fields.filterMap fun f =>
      if f.skip then none
      else if f.flatten then some (ToBsonStmt.merge (f.name ++ ".toBson()"))
      else if f.type ∈ allTypes.map TypeDef.name then
        some (.document f.bsonName (f.name ++ ".toBson()"))
      else if bsonScalarSupported f.type then some (.element f.bsonName f.name)
      else some (.unsupported f.type f.name)

/-- The statements of `fromBson`. -/
inductive FromBsonStmt where
  /-- `base::fromBson(v);` -/
  | base (base : String)
  /-- `name.fromBson(v);` -/
  | flatten (name : String)
  /-- `if (auto e = v["bsonName"]; e && e.type() == bsoncxx::type::k_document)`
      `name.fromBson(e.get_document().view());` -/
  | document (bsonName name : String)
  /-- `if (auto e = v["bsonName"]) name = expr;` -/
  | get (bsonName name : String) (expr : BsonGet)
  /-- `// unsupported field type: type name` -/
  | unsupported (type name : String)
  deriving DecidableEq, Repr

def genFromBson (t : TypeDef) (allTypes : List TypeDef) : List FromBsonStmt :=
  ((mergedBase t).map FromBsonStmt.base).toList ++
    t.fields.filterMap fun f =>
      if f.skip then none
      else if f.flatten then some (FromBsonStmt.flatten f.name)
      else if f.type ∈ allTypes.map TypeDef.name then some (.document f.bsonName f.name)
      else
        match bsonGetExpr f.type with
        | some expr => some (.get f.bsonName f.name expr)
        | none => some (.unsupported f.type f.name)

/-- The writer's calls for a member. -/
inductive JsonSet where
  | string
  | int
  | int64
  | bool
  | double
  /-- `StartArray`, `Int64` of each element, `EndArray` -/
  | array
  deriving DecidableEq, Repr

def jsonSetStmts (cxxType : String) : Option JsonSet :=
  let t := normalizeType cxxType
  if t ∈ ["std::string", "string"] then some .string
  else if t ∈ ["int32_t", "int"] then some .int
  else if t ∈ ["int64_t", "long", "longlong"] then some .int64
  else if t = "bool" then some .bool
  else if t ∈ ["double", "float"] then some .double
  else if t = "std::vector<int64_t>" then some .array
  else none

/-- The test of the value that was found, and the assignment behind it. -/
inductive JsonGet where
  | string
  | int
  | int64
  | bool
  | double
  /-- `static_cast<float>` of `GetDouble` -/
  | float
  /-- `push_back` of each element that is an `Int64` -/
  | array
  deriving DecidableEq, Repr

def jsonGetStmts (cxxType : String) : Option JsonGet :=
  let t := normalizeType cxxType
  if t ∈ ["std::string", "string"] then some .string
  else if t ∈ ["int32_t", "int"] then some .int
  else if t ∈ ["int64_t", "long", "longlong"] then some .int64
  else if t = "bool" then some .bool
  else if t = "double" then some .double
  else if t = "float" then some .float
  else if t = "std::vector<int64_t>" then some .array
  else none

/-- The statements of `toString`. -/
inductive ToJsonStmt where
  /-- `__w.Key("bsonName");` and the calls -/
  | member (bsonName name : String) (set : JsonSet)
  /-- `// nested/complex field not serialised: type name` -/
  | notSerialised (type name : String)
  deriving DecidableEq, Repr

def genToJson (t : TypeDef) : List ToJsonStmt :=
  t.fields.filterMap fun f =>
    if f.skip then none
    else
      match jsonSetStmts f.type with
      | some set => some (.member f.bsonName f.name set)
      | none => some (.notSerialised f.type f.name)

/-- The statements of `fromString`. -/
inductive FromJsonStmt where
  /-- `__it = __obj.FindMember("bsonName");` and the test -/
  | find (bsonName name : String) (get : JsonGet)
  /-- `// nested/complex field not deserialised: type name` -/
  | notDeserialised (type name : String)
  deriving DecidableEq, Repr

def genFromJson (t : TypeDef) : List FromJsonStmt :=
  t.fields.filterMap fun f =>
    if f.skip then none
    else
      match jsonGetStmts f.type with
      | some get => some (.find f.bsonName f.name get)
      | none => some (.notDeserialised f.type f.name)

/-! ## The generated code -/

/-- The types `double` and `float`. -/
structure Floating where
  Double : Type
  Float : Type
  widen : Float → Double
  narrow : Double → Float
  narrow_widen : ∀ x, narrow (widen x) = x
  zero : Float
  one : Float
  zero_ne_one : zero ≠ one

/-- The text of a string.  The length of a BSON string is an `int32` and counts the final zero. -/
structure Text where
  bytes : List UInt8
  fits : bytes.length + 1 < 2 ^ 31
  deriving DecidableEq

/-- A member of an object, with its C++ type. -/
inductive Member (fl : Floating) where
  | string (s : Text)
  | int32 (n : Int32)
  | int64 (n : Int64)
  | bool (b : Bool)
  | double (d : fl.Double)
  | float (x : fl.Float)
  | vector (xs : List Int64)

/-- The members of an object by their names. -/
abbrev Members (fl : Floating) := String → Member fl

/-- The values of BSON. -/
inductive BsonValue (fl : Floating) where
  | string (s : Text)
  | int32 (n : Int32)
  | int64 (n : Int64)
  | bool (b : Bool)
  | double (d : fl.Double)
  | document (elements : List (String × BsonValue fl))

abbrev BsonDoc (fl : Floating) := List (String × BsonValue fl)

variable {fl : Floating}

/-- `<<` of a member; there is none for a vector. -/
def Member.append : Member fl → Option (BsonValue fl)
  | .string s => some (.string s)
  | .int32 n => some (.int32 n)
  | .int64 n => some (.int64 n)
  | .bool b => some (.bool b)
  | .double d => some (.double d)
  | .float x => some (.double (fl.widen x))
  | .vector _ => none

/-- Get the value of an element and assign it to the member, which has the value `old`.  A getter
    throws if the element has another type. -/
def BsonGet.assign (expr : BsonGet) (e : BsonValue fl) (old : Member fl) : Option (Member fl) :=
  match expr, e with
  | .getString, .string s => some (.string s)
  | .getInt32, .int32 n => some (.int32 n)
  | .getInt64, .int64 n => some (.int64 n)
  | .getBool, .bool b => some (.bool b)
  | .getDouble, .double d =>
    match old with
    | .float _ => some (.float (fl.narrow d))
    | _ => some (.double d)
  | _, _ => none

/-- `none`: the view that is merged is one of a temporary document, which is gone when the loop
    reads it. -/
def ToBsonStmt.exec (others : String → BsonDoc fl) (o : Members fl) : ToBsonStmt → Option (BsonDoc fl)
  | .merge _ => none
  | .document bsonName expr => some [(bsonName, .document (others expr))]
  | .element bsonName name => some ((o name).append.map (bsonName, ·)).toList
  | .unsupported _ _ => some []

/-- `none`: a getter throws. -/
def FromBsonStmt.exec (v : BsonDoc fl) (o : Members fl) : FromBsonStmt → Option (Members fl)
  | .base _ => some o
  | .flatten _ => some o
  | .document _ _ => some o
  | .get bsonName name expr =>
    match v.lookup bsonName with
    | none => some o
    | some e => (expr.assign e (o name)).map (Function.update o name)
  | .unsupported _ _ => some o

/-- `toBson` of a class. -/
def toBson (others : String → BsonDoc fl) (allTypes : List TypeDef) (t : TypeDef)
    (o : Members fl) : Option (BsonDoc fl) :=
  ((genToBson t allTypes).mapM (ToBsonStmt.exec others o)).map List.flatten

/-- `fromBson` of a class. -/
def fromBson (allTypes : List TypeDef) (t : TypeDef) (v : BsonDoc fl) (o : Members fl) :
    Option (Members fl) :=
  (genFromBson t allTypes).foldlM (fun o stmt => stmt.exec v o) o

/-- The values of a JSON document.  A text has no mark of `Int` or `Int64` on an integer. -/
inductive JsonValue (fl : Floating) where
  | string (s : Text)
  | integer (n : Int)
  | bool (b : Bool)
  | double (d : fl.Double)
  | array (elements : List (JsonValue fl))

abbrev JsonDoc (fl : Floating) := List (String × JsonValue fl)

/-- The bytes that `String` writes: as many as the size cast to `rapidjson::SizeType`. -/
def Text.sized (s : Text) : Text where
  bytes := s.bytes.take (s.bytes.length % 2 ^ 32)
  fits := by
    have hfits := s.fits
    rw [List.length_take]
    omega

/-- The calls on the writer; none if they do not compile. -/
def JsonSet.write (set : JsonSet) (m : Member fl) : Option (JsonValue fl) :=
  match set, m with
  | .string, .string s => some (.string s.sized)
  | .int, .int32 n => some (.integer n.toInt)
  | .int64, .int64 n => some (.integer n.toInt)
  | .bool, .bool b => some (.bool b)
  | .double, .double d => some (.double d)
  | .double, .float x => some (.double (fl.widen x))
  | .array, .vector xs => some (.array (xs.map fun x => .integer x.toInt))
  | _, _ => none

/-- `IsInt` and `GetInt`. -/
def JsonValue.getInt : JsonValue fl → Option Int32
  | .integer n => if -2 ^ 31 ≤ n ∧ n < 2 ^ 31 then some (Int32.ofInt n) else none
  | _ => none

/-- `IsInt64` and `GetInt64`. -/
def JsonValue.getInt64 : JsonValue fl → Option Int64
  | .integer n => if -2 ^ 63 ≤ n ∧ n < 2 ^ 63 then some (Int64.ofInt n) else none
  | _ => none

/-- Test the value that was found, and assign it to the member, which has the value `old`. -/
def JsonGet.assign (get : JsonGet) (value : JsonValue fl) (old : Member fl) : Member fl :=
  match get, value with
  | .string, .string s => .string s
  | .int, value => (value.getInt.map Member.int32).getD old
  | .int64, value => (value.getInt64.map Member.int64).getD old
  | .bool, .bool b => .bool b
  | .double, .double d => .double d
  | .float, .double d => .float (fl.narrow d)
  | .array, .array elements =>
    match old with
    | .vector xs => .vector (xs ++ elements.filterMap JsonValue.getInt64)
    | old => old
  | _, _ => old

def ToJsonStmt.exec (o : Members fl) : ToJsonStmt → JsonDoc fl
  | .member bsonName name set => ((set.write (o name)).map (bsonName, ·)).toList
  | .notSerialised _ _ => []

def FromJsonStmt.exec (doc : JsonDoc fl) (o : Members fl) : FromJsonStmt → Members fl
  | .find bsonName name get =>
    match doc.lookup bsonName with
    | none => o
    | some value => Function.update o name (get.assign value (o name))
  | .notDeserialised _ _ => o

/-- `toString` of a class, up to the text. -/
def toString (t : TypeDef) (o : Members fl) : JsonDoc fl :=
  (genToJson t).flatMap (·.exec o)

/-- `fromString` of a class, behind the parser. -/
def fromString (t : TypeDef) (doc : JsonDoc fl) (o : Members fl) : Members fl :=
  (genFromJson t).foldl (fun o stmt => stmt.exec doc o) o

/-! ## Objects -/

/-- The C++ types of the members. -/
inductive CxxType where
  | string
  | int32
  | int64
  | bool
  | double
  | float
  | vector
  deriving DecidableEq, Repr

/-- The type that a text names, spaces apart. -/
def cxxType (type : String) : Option CxxType :=
  let t := normalizeType type
  if t ∈ ["std::string", "string"] then some .string
  else if t ∈ ["int32_t", "int"] then some .int32
  else if t ∈ ["int64_t", "long", "longlong"] then some .int64
  else if t = "bool" then some .bool
  else if t = "double" then some .double
  else if t = "float" then some .float
  else if t = "std::vector<int64_t>" then some .vector
  else none

def Member.type : Member fl → CxxType
  | .string _ => .string
  | .int32 _ => .int32
  | .int64 _ => .int64
  | .bool _ => .bool
  | .double _ => .double
  | .float _ => .float
  | .vector _ => .vector

/-- An object of a class: each member that is not ignored has the type of its field. -/
structure DataObject (fl : Floating) (t : TypeDef) where
  members : Members fl
  typed : ∀ f ∈ t.fields, f.skip = false → cxxType f.type = some (members f.name).type

/-- A default object: a member without an initialiser that is a vector is empty. -/
structure DefaultObject (fl : Floating) (t : TypeDef) extends DataObject fl t where
  empty : ∀ f ∈ t.fields, f.skip = false → ∀ xs, members f.name = .vector xs → xs = []

end Athena.Codegen
