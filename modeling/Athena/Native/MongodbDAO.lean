import Mathlib.Logic.Function.Basic

/-!
# Data objects in Mongo (`dal/mongodb/MongodbDAO.hpp`, `dos/RoleDO.hpp`)

A collection maps the `_id` of a document to the document.  What the server and the
network make of a request is an argument:

- `FindReply` is how `find_one` of the driver ends.  The server can answer, come back
  empty although it has the document, or the driver throws
- `UpdateReply` is how `replace_one` ends.  A write that is not acknowledged, and one
  whose call throws, may have been applied all the same

`Document` has the value types that the data objects read; all others are `other`.
-/

namespace Athena

/-- A value in a document. -/
inductive BsonValue where
  | int64 (value : Int64)
  | string (value : List UInt8)
  | other
  deriving DecidableEq, Repr

/-- `bsoncxx::document`: the elements, in order. -/
abbrev Document := List (String × BsonValue)

/-- `view[key]`: the first element of that name. -/
def Document.get (v : Document) (key : String) : Option BsonValue :=
  (v.find? fun e => e.1 == key).map Prod.snd

/-- The interface `BsonSerializable` with the `_id` the DAO uses as the key.
    `fromBson` is `none` when one of its typed getters throws. -/
class BsonSerializable (DO_T : Type) where
  _id : DO_T → Int64
  toBson : DO_T → Document
  fromBson : DO_T → Document → Option DO_T
  get_toBson : ∀ o, (toBson o).get "_id" = some (.int64 (_id o))

/-- A Mongo collection.  A document is stored under its `_id`, which need not have the
    type `int64`. -/
structure Collection where
  docs : Int64 → Option Document
  get_id : ∀ id doc, docs id = some doc →
    doc.get "_id" = some (.int64 id) ∨ doc.get "_id" = some .other

/-- How the driver's `find_one` ends. -/
inductive FindReply where
  /-- the server returns the document, if there is one -/
  | answer
  /-- the server has no such document (it lags behind) -/
  | empty
  /-- the driver throws -/
  | exception
  deriving DecidableEq, Repr

/-- How the driver's `replace_one` ends. -/
inductive UpdateReply where
  | acknowledged
  | unacknowledged (applied : Bool)
  | exception (applied : Bool)
  deriving DecidableEq, Repr

/-- The server has carried out the write. -/
def UpdateReply.applied : UpdateReply → Bool
  | .acknowledged => true
  | .unacknowledged applied => applied
  | .exception applied => applied

/-- `MongodbDAO::Status`. -/
inductive FindStatus where
  | OK
  | NOT_FOUND
  | DB_ERROR
  deriving DecidableEq, Repr

namespace MongodbDAO

variable {DO_T : Type} [Inhabited DO_T] [BsonSerializable DO_T]

/-- `find_oneImp`: the status, and what it leaves in `out`. -/
def find_oneImp (reply : FindReply) (coll : Collection) (id : Int64) :
    FindStatus × Option DO_T :=
  match reply with
  | .exception => (.DB_ERROR, none)
  | .empty => (.NOT_FOUND, none)
  | .answer =>
    match coll.docs id with
    | none => (.NOT_FOUND, none)
    | some doc =>
      match BsonSerializable.fromBson (default : DO_T) doc with
      | some doObj => (.OK, some doObj)
      -- `fromBson` threw
      | none => (.DB_ERROR, none)

/-- The `find_one` that only says whether there is an object. -/
def find_one (reply : FindReply) (coll : Collection) (id : Int64) : Option DO_T :=
  (find_oneImp reply coll id).2

/-- `replace_one` with `upsert`, when the server carries it out. -/
def replace_one (coll : Collection) (obj : DO_T) : Collection where
  docs := Function.update coll.docs (BsonSerializable._id obj) (some (BsonSerializable.toBson obj))
  get_id id doc h := by
    by_cases hid : id = BsonSerializable._id obj
    · subst hid
      rw [Function.update_self] at h
      obtain rfl := Option.some.inj h
      exact .inl (BsonSerializable.get_toBson obj)
    · rw [Function.update_of_ne hid] at h
      exact coll.get_id id doc h

/-- `update`. -/
def update (reply : UpdateReply) (coll : Collection) (obj : DO_T) : Bool × Collection :=
  (reply = .acknowledged, if reply.applied then replace_one coll obj else coll)

/-- `find_one` gives an object exactly when the server returns a document that
    decodes. -/
theorem find_one_eq_some {reply : FindReply} {coll : Collection} {id : Int64} {o : DO_T} :
    find_one reply coll id = some o ↔
      reply = .answer ∧ ∃ doc, coll.docs id = some doc ∧
        BsonSerializable.fromBson default doc = some o := by
  cases reply with
  | answer =>
    cases hdoc : coll.docs id with
    | none => simp [find_one, find_oneImp, hdoc]
    | some doc =>
      cases hobj : (BsonSerializable.fromBson default doc : Option DO_T) <;>
        simp [find_one, find_oneImp, hdoc, hobj]
  | empty => simp [find_one, find_oneImp]
  | exception => simp [find_one, find_oneImp]

end MongodbDAO

/-- `RoleDO`. -/
structure RoleDO where
  _id : Int64
  name : List UInt8
  deriving DecidableEq, Repr, Inhabited

namespace RoleDO

def toBson (o : RoleDO) : Document :=
  [("_id", .int64 o._id), ("name", .string o.name)]

/-- An element that is missing leaves the field alone. -/
def fromBson (o : RoleDO) (v : Document) : Option RoleDO := do
  let o ← match v.get "_id" with
    | none => some o
    | some (.int64 x) => some { o with _id := x }
    | some _ => none
  match v.get "name" with
  | none => some o
  | some (.string x) => some { o with name := x }
  | some _ => none

instance : BsonSerializable RoleDO where
  _id := RoleDO._id
  toBson := toBson
  fromBson := fromBson
  get_toBson _ := rfl

/-- Decoding what was encoded gives the object back. -/
theorem fromBson_toBson (o o' : RoleDO) : fromBson o' o.toBson = some o := rfl

/-- A document that decodes has an `_id` of the type `int64`, the one it is stored
    under. -/
theorem fromBson_id {coll : Collection} {id : Int64} {doc : Document} {o o' : RoleDO}
    (hdoc : coll.docs id = some doc) (h : fromBson o doc = some o') : o'._id = id := by
  cases coll.get_id id doc hdoc with
  | inl hid =>
    simp only [fromBson, hid, Option.bind_eq_bind, Option.bind_some] at h
    cases hname : doc.get "name" with
    | none =>
      rw [hname] at h
      obtain rfl := Option.some.inj h
      rfl
    | some value =>
      rw [hname] at h
      cases value with
      | string x => obtain rfl := Option.some.inj h; rfl
      | int64 x => exact nomatch h
      | other => exact nomatch h
  | inr hother =>
    simp only [fromBson, hother, Option.bind_eq_bind, Option.bind_none] at h
    exact nomatch h

end RoleDO

end Athena
