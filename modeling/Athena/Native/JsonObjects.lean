import Athena.Native.Json

/-!
# JSON containers (`core/utils/Json.cpp`)

A pointer comes with the object it points to, and each object has its `type` field beside
its class.  A call on a pointer that no object of the right class is behind is a `Fault`.
A container is called by where it is: one that no pointer of another container leads to
is a root.
-/

namespace Athena

namespace JsonTree

open Json (FloatText newline indent comma to_string)

inductive eJOSN_TYPE where
  | eJ_INT
  | eJ_FLOAT
  | eJ_NULL
  | eJ_STRING
  | eJ_BOOL
  | eJ_ARRAY
  | eJ_OBJ
  deriving DecidableEq, Repr

/-- Why the behaviour of a call is undefined. -/
inductive Fault where
  /-- a null pointer is followed -/
  | nullDeref
  /-- `static_cast<JValue *>` of a pointer to a `JArray` or a `JSonObj` -/
  | badCast
  /-- a member of the union is written out that is not the last one stored -/
  | badUnion
  deriving DecidableEq, Repr

/-! ## Values -/

/-- The union of a `JValue`: the member that was stored last. -/
inductive Num (F : Type) where
  | unset
  | iv (v : Int32)
  | fv (v : F)
  | bv (v : Bool)
  deriving DecidableEq, Repr

structure JValue (F : Type) where
  type : eJOSN_TYPE
  num : Num F
  sv : List Char
  deriving DecidableEq, Repr

variable {F : Type}

namespace JValue

/-- `new JValue`. -/
def new : JValue F := { type := .eJ_NULL, num := .unset, sv := [] }

def setInt (v : Int32) (self : JValue F) : JValue F := { self with type := .eJ_INT, num := .iv v }
def setFloat (v : F) (self : JValue F) : JValue F := { self with type := .eJ_FLOAT, num := .fv v }
def setStr (v : List Char) (self : JValue F) : JValue F := { self with type := .eJ_STRING, sv := v }
def setBool (v : Bool) (self : JValue F) : JValue F := { self with type := .eJ_BOOL, num := .bv v }
def setNull (self : JValue F) : JValue F := { self with type := .eJ_NULL }

/-- The `iv` of the union, where it is the member that was stored last. -/
def iv (self : JValue F) : Option Int32 :=
  match self.num with
  | .iv v => some v
  | _ => none

def fv (self : JValue F) : Option F :=
  match self.num with
  | .fv v => some v
  | _ => none

def bv (self : JValue F) : Option Bool :=
  match self.num with
  | .bv v => some v
  | _ => none

def write (float : FloatText F) (self : JValue F) : Except Fault (List Char) :=
  match self.type, self.num with
  | .eJ_INT, .iv v => .ok (to_string v)
  | .eJ_FLOAT, .fv v => .ok (float.to_string v)
  | .eJ_BOOL, .bv v => .ok (if v then "true".toList else "false".toList)
  | .eJ_INT, _ | .eJ_FLOAT, _ | .eJ_BOOL, _ => .error .badUnion
  | .eJ_NULL, _ => .ok "null".toList
  | .eJ_STRING, _ => .ok ('"' :: (self.sv ++ ['"']))
  | .eJ_ARRAY, _ | .eJ_OBJ, _ => .ok []

end JValue

/-! ## Pointers -/

/-- A `JBaseObj *`, with the object that it points to. -/
inductive JBaseObj (F : Type) where
  | nullptr
  | value (v : JValue F)
  | array (type : eJOSN_TYPE) (items : List (JBaseObj F))
  | object (type : eJOSN_TYPE) (maps : List (List Char × JBaseObj F))

namespace JBaseObj

def isNullptr : JBaseObj F → Bool
  | nullptr => true
  | _ => false

/-- The object is a `JValue`. -/
def isValue : JBaseObj F → Bool
  | value _ => true
  | _ => false

/-- `obj->type`. -/
def type : JBaseObj F → Except Fault eJOSN_TYPE
  | nullptr => .error .nullDeref
  | value v => .ok v.type
  | array type _ => .ok type
  | object type _ => .ok type

/-- The `JValue` that `static_cast<JValue *>(obj)` points to. -/
def asValue : JBaseObj F → Except Fault (JValue F)
  | nullptr => .error .nullDeref
  | value v => .ok v
  | array _ _ | object _ _ => .error .badCast

/-- `type == eJ_ARRAY || type == eJ_OBJ`. -/
def isContainerType (type : eJOSN_TYPE) : Bool := type = .eJ_ARRAY || type = .eJ_OBJ

end JBaseObj

mutual

def JBaseObj.write (float : FloatText F) (layout : Bool) (depth : Nat) :
    JBaseObj F → Except Fault (List Char)
  | .nullptr => .error .nullDeref
  | .value v => v.write float
  | .array _ items =>
    match writeItems float layout depth items with
    | .ok text => .ok ('[' :: (newline layout ++ text ++ indent layout depth ++ [']']))
    | .error fault => .error fault
  | .object _ maps =>
    match writeMembers float layout depth maps with
    | .ok text => .ok ('{' :: (newline layout ++ text ++ indent layout depth ++ ['}']))
    | .error fault => .error fault

/-- The loop of `JArray::write`. -/
def writeItems (float : FloatText F) (layout : Bool) (depth : Nat) :
    List (JBaseObj F) → Except Fault (List Char)
  | [] => .ok []
  | obj :: items =>
    match obj.write float layout (depth + 1), writeItems float layout depth items with
    | .ok text, .ok rest =>
      .ok (indent layout (depth + 1) ++ text ++ comma items.isEmpty ++ newline layout ++ rest)
    | .error fault, _ => .error fault
    | _, .error fault => .error fault

/-- The loop of `JSonObj::write`. -/
def writeMembers (float : FloatText F) (layout : Bool) (depth : Nat) :
    List (List Char × JBaseObj F) → Except Fault (List Char)
  | [] => .ok []
  | (key, obj) :: maps =>
    match obj.write float layout (depth + 1), writeMembers float layout depth maps with
    | .ok text, .ok rest =>
      .ok (indent layout (depth + 1) ++ ('"' :: (key ++ ['"', ':'])) ++ text ++
        comma maps.isEmpty ++ newline layout ++ rest)
    | .error fault, _ => .error fault
    | _, .error fault => .error fault

end

/-! ## Arrays -/

namespace JArray

abbrev Items (F : Type) := List (JBaseObj F)

/-- `new JArray`. -/
def new : JBaseObj F := .array .eJ_ARRAY []

end JArray

namespace JSonObj

abbrev Maps (F : Type) := List (List Char × JBaseObj F)

/-- `new JSonObj`. -/
def new : JBaseObj F := .object .eJ_OBJ []

end JSonObj

namespace JArray

/-- `item->set(v); items.push_back(item)`. -/
def push (set : JValue F → JValue F) (items : Items F) : Items F :=
  items ++ [JBaseObj.value (set .new)]

def pushInt (items : Items F) (v : Int32) : Items F := push (.setInt v) items
def pushFloat (items : Items F) (v : F) : Items F := push (.setFloat v) items
def pushStr (items : Items F) (v : List Char) : Items F := push (.setStr v) items
def pushBool (items : Items F) (v : Bool) : Items F := push (.setBool v) items
def pushNull (items : Items F) : Items F := push .setNull items

/-- `static_cast<JValue *>(items[idx])->…`. -/
def getValue {α : Type} (get : JValue F → α) (items : Items F) (idx : Fin items.length) :
    Except Fault α :=
  (items.get idx).asValue.map get

def getInt (items : Items F) (idx : Fin items.length) := getValue JValue.iv items idx
def getFloat (items : Items F) (idx : Fin items.length) := getValue JValue.fv items idx
def getBool (items : Items F) (idx : Fin items.length) := getValue JValue.bv items idx
def getStr (items : Items F) (idx : Fin items.length) := getValue JValue.sv items idx

def isNull (items : Items F) (idx : Fin items.length) : Except Fault Bool :=
  (items.get idx).type.map (· = .eJ_NULL)

/-- `static_cast<JValue *>(items[idx])->set(v)`. -/
def setValue (set : JValue F → JValue F) (items : Items F) (idx : Fin items.length) :
    Except Fault (Items F) :=
  (items.get idx).asValue.map fun v => items.set idx (.value (set v))

def setInt (items : Items F) (idx : Fin items.length) (v : Int32) := setValue (.setInt v) items idx
def setFloat (items : Items F) (idx : Fin items.length) (v : F) := setValue (.setFloat v) items idx
def setStr (items : Items F) (idx : Fin items.length) (v : List Char) :=
  setValue (.setStr v) items idx
def setBool (items : Items F) (idx : Fin items.length) (v : Bool) := setValue (.setBool v) items idx

def setNull (items : Items F) (idx : Fin items.length) : Except Fault (Items F) :=
  match (items.get idx).type with
  | .error fault => .error fault
  | .ok type =>
    -- a container is deleted with all that is below it
    let item := if JBaseObj.isContainerType type then .value .new else items.get idx
    item.asValue.map fun v => items.set idx (.value v.setNull)

def remove (items : Items F) (idx : Nat) : Items F :=
  if idx ≠ items.length then items.eraseIdx idx else items

def createArray (items : Items F) : Items F := items ++ [new]
def createObj (items : Items F) : Items F := items ++ [JSonObj.new]

def getJsonObj (items : Items F) (idx : Fin items.length) : JBaseObj F := items.get idx

end JArray

/-! ## Objects -/

namespace JSonObj

/-- `maps[key]`, which stores a null pointer where the key is new. -/
def index (maps : Maps F) (key : List Char) : JBaseObj F × Maps F :=
  match SortedMap.find key maps with
  | some obj => (obj, maps)
  | none => (.nullptr, SortedMap.store key .nullptr maps)

/-- `static_cast<JValue *>(maps[key])->…`. -/
def getValue {α : Type} (get : JValue F → α) (maps : Maps F) (key : List Char) :
    Except Fault (α × Maps F) :=
  let (obj, maps) := index maps key
  obj.asValue.map fun v => (get v, maps)

def getInt (maps : Maps F) (key : List Char) := getValue JValue.iv maps key
def getFloat (maps : Maps F) (key : List Char) := getValue JValue.fv maps key
def getBool (maps : Maps F) (key : List Char) := getValue JValue.bv maps key
def getStr (maps : Maps F) (key : List Char) := getValue JValue.sv maps key

def isNull (maps : Maps F) (key : List Char) : Except Fault (Bool × Maps F) :=
  let (obj, maps) := index maps key
  obj.type.map fun type => (type = .eJ_NULL, maps)

/-- `if (!maps[key]) maps[key] = new JValue; static_cast<JValue *>(maps[key])->set(v)`. -/
def setValue (set : JValue F → JValue F) (maps : Maps F) (key : List Char) :
    Except Fault (Maps F) :=
  let (obj, maps) := index maps key
  let obj := if obj.isNullptr then .value .new else obj
  obj.asValue.map fun v => SortedMap.store key (.value (set v)) maps

def setInt (maps : Maps F) (key : List Char) (v : Int32) := setValue (.setInt v) maps key
def setFloat (maps : Maps F) (key : List Char) (v : F) := setValue (.setFloat v) maps key
def setStr (maps : Maps F) (key : List Char) (v : List Char) := setValue (.setStr v) maps key
def setBool (maps : Maps F) (key : List Char) (v : Bool) := setValue (.setBool v) maps key

def setNull (maps : Maps F) (key : List Char) : Except Fault (Maps F) :=
  let (obj, maps) := index maps key
  if obj.isNullptr then .ok (SortedMap.store key (.value (JValue.setNull .new)) maps)
  else
    match obj.type with
    | .error fault => .error fault
    | .ok type =>
      -- a container is deleted with all that is below it
      let obj := if JBaseObj.isContainerType type then .value .new else obj
      obj.asValue.map fun v => SortedMap.store key (.value v.setNull) maps

def remove (maps : Maps F) (key : List Char) : Maps F := SortedMap.erase key maps

/-- `maps[key] = p`, and the pointer that was there. -/
def create (p : JBaseObj F) (maps : Maps F) (key : List Char) : Maps F × Option (JBaseObj F) :=
  (SortedMap.store key p maps, SortedMap.find key maps)

def createArray (maps : Maps F) (key : List Char) := create JArray.new maps key
def createObj (maps : Maps F) (key : List Char) := create new maps key

def getJsonObj (maps : Maps F) (key : List Char) : JBaseObj F × Maps F := index maps key

end JSonObj

/-! ## Calls -/

inductive ArrayCall (F : Type) where
  | pushInt (v : Int32)
  | pushFloat (v : F)
  | pushStr (v : List Char)
  | pushBool (v : Bool)
  | pushNull
  | getInt (idx : Nat)
  | getFloat (idx : Nat)
  | getBool (idx : Nat)
  | getStr (idx : Nat)
  | isNull (idx : Nat)
  | setInt (idx : Nat) (v : Int32)
  | setFloat (idx : Nat) (v : F)
  | setStr (idx : Nat) (v : List Char)
  | setBool (idx : Nat) (v : Bool)
  | setNull (idx : Nat)
  | remove (idx : Nat)
  | size
  | createArray
  | createObj
  | getJsonObj (idx : Nat)

inductive ObjCall (F : Type) where
  | getInt (key : List Char)
  | getFloat (key : List Char)
  | getBool (key : List Char)
  | getStr (key : List Char)
  | isNull (key : List Char)
  | setInt (key : List Char) (v : Int32)
  | setFloat (key : List Char) (v : F)
  | setStr (key : List Char) (v : List Char)
  | setBool (key : List Char) (v : Bool)
  | setNull (key : List Char)
  | remove (key : List Char)
  | createArray (key : List Char)
  | createObj (key : List Char)
  | getJsonObj (key : List Char)

inductive Call (F : Type) where
  | array (call : ArrayCall F)
  | object (call : ObjCall F)
  | write (layout : Bool) (depth : Nat)

/-- A call with an index that is in range. -/
def ranged {α : Type} (items : JArray.Items F) (idx : Nat) (f : Fin items.length → α) : Option α :=
  if h : idx < items.length then some (f ⟨idx, h⟩) else none

/-- The items after a call, unless its index is out of range. -/
def ArrayCall.items (items : JArray.Items F) : ArrayCall F → Option (Except Fault (JArray.Items F))
  | pushInt v => some (.ok (JArray.pushInt items v))
  | pushFloat v => some (.ok (JArray.pushFloat items v))
  | pushStr v => some (.ok (JArray.pushStr items v))
  | pushBool v => some (.ok (JArray.pushBool items v))
  | pushNull => some (.ok (JArray.pushNull items))
  | getInt idx => ranged items idx fun idx => (JArray.getInt items idx).map fun _ => items
  | getFloat idx => ranged items idx fun idx => (JArray.getFloat items idx).map fun _ => items
  | getBool idx => ranged items idx fun idx => (JArray.getBool items idx).map fun _ => items
  | getStr idx => ranged items idx fun idx => (JArray.getStr items idx).map fun _ => items
  | isNull idx => ranged items idx fun idx => (JArray.isNull items idx).map fun _ => items
  | setInt idx v => ranged items idx fun idx => JArray.setInt items idx v
  | setFloat idx v => ranged items idx fun idx => JArray.setFloat items idx v
  | setStr idx v => ranged items idx fun idx => JArray.setStr items idx v
  | setBool idx v => ranged items idx fun idx => JArray.setBool items idx v
  | setNull idx => ranged items idx fun idx => JArray.setNull items idx
  | remove idx => if idx ≤ items.length then some (.ok (JArray.remove items idx)) else none
  | size => some (.ok items)
  | createArray => some (.ok (JArray.createArray items))
  | createObj => some (.ok (JArray.createObj items))
  | getJsonObj idx => ranged items idx fun _ => .ok items

/-- The map after a call, and the pointer that the call has overwritten. -/
def ObjCall.maps (maps : JSonObj.Maps F) :
    ObjCall F → Except Fault (JSonObj.Maps F × Option (JBaseObj F))
  | getInt key => (JSonObj.getInt maps key).map fun r => (r.2, none)
  | getFloat key => (JSonObj.getFloat maps key).map fun r => (r.2, none)
  | getBool key => (JSonObj.getBool maps key).map fun r => (r.2, none)
  | getStr key => (JSonObj.getStr maps key).map fun r => (r.2, none)
  | isNull key => (JSonObj.isNull maps key).map fun r => (r.2, none)
  | setInt key v => (JSonObj.setInt maps key v).map fun maps => (maps, none)
  | setFloat key v => (JSonObj.setFloat maps key v).map fun maps => (maps, none)
  | setStr key v => (JSonObj.setStr maps key v).map fun maps => (maps, none)
  | setBool key v => (JSonObj.setBool maps key v).map fun maps => (maps, none)
  | setNull key => (JSonObj.setNull maps key).map fun maps => (maps, none)
  | remove key => .ok (JSonObj.remove maps key, none)
  | createArray key => .ok (JSonObj.createArray maps key)
  | createObj key => .ok (JSonObj.createObj maps key)
  | getJsonObj key => .ok ((JSonObj.getJsonObj maps key).2, none)

/-- A call on an object of its class: the object after it, and the pointer overwritten. -/
def JBaseObj.perform (float : FloatText F) (obj : JBaseObj F) (call : Call F) :
    Option (Except Fault (JBaseObj F × Option (JBaseObj F))) :=
  match obj, call with
  | .array type items, .array call =>
    (call.items items).map fun r => r.map fun items => (.array type items, none)
  | .object type maps, .object call =>
    some ((call.maps maps).map fun r => (.object type r.1, r.2))
  | .array _ _, .write layout depth | .object _ _, .write layout depth =>
    some ((obj.write float layout depth).map fun _ => (obj, none))
  | _, _ => none

/-! ## Runs -/

/-- Where in a container an entry is. -/
inductive Step where
  | idx (i : Nat)
  | key (k : List Char)
  deriving DecidableEq, Repr

namespace JBaseObj

def child : JBaseObj F → Step → Option (JBaseObj F)
  | array _ items, .idx i => items[i]?
  | object _ maps, .key k => SortedMap.find k maps
  | _, _ => none

def setChild (obj : JBaseObj F) (s : Step) (p : JBaseObj F) : JBaseObj F :=
  match obj, s with
  | array type items, .idx i => array type (items.set i p)
  | object type maps, .key k => object type (SortedMap.store k p maps)
  | _, _ => obj

/-- The entry that the path leads to. -/
def lookup (obj : JBaseObj F) : List Step → Option (JBaseObj F)
  | [] => some obj
  | s :: path =>
    match obj.child s with
    | some p => p.lookup path
    | none => none

/-- The object with the entry at the end of the path replaced. -/
def replace (obj : JBaseObj F) (path : List Step) (new : JBaseObj F) : JBaseObj F :=
  match path with
  | [] => new
  | s :: path =>
    match obj.child s with
    | some p => obj.setChild s (p.replace path new)
    | none => obj

end JBaseObj

/-- A call, on the object that the path leads to from a root. -/
structure Op (F : Type) where
  root : Nat
  path : List Step
  call : Call F

inductive State (F : Type) where
  | running (roots : List (JBaseObj F))
  | faulted (fault : Fault)

/-- The object of the call. -/
def Op.target (roots : List (JBaseObj F)) (op : Op F) : Option (JBaseObj F) :=
  match roots[op.root]? with
  | some root => root.lookup op.path
  | none => none

/-- The roots with the object of the call replaced. -/
def Op.update (roots : List (JBaseObj F)) (op : Op F) (obj : JBaseObj F) : List (JBaseObj F) :=
  match roots[op.root]? with
  | some root => roots.set op.root (root.replace op.path obj)
  | none => roots

/-- One call.  An object whose last pointer is overwritten is a root from then on. -/
def step (float : FloatText F) : State F → Op F → Option (State F)
  | .faulted _, _ => none
  | .running roots, op =>
    match op.target roots with
    | none => none
    | some obj =>
      match obj.perform float op.call with
      | none => none
      | some (.error fault) => some (.faulted fault)
      | some (.ok (obj, dropped)) => some (.running (op.update roots obj ++ dropped.toList))

/-- Containers without entries. -/
def start (arrays objects : Nat) : State F :=
  .running (List.replicate arrays JArray.new ++ List.replicate objects JSonObj.new)

end JsonTree

end Athena
