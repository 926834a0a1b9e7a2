import Athena.ForStd.Run
import Athena.Native.JsonObjects

/-!
# Integrity of JSON containers

`Intact` says that no entry below an object is null, that every `type` field fits the class
and that maps are in the order of their keys.  One lemma for each family of calls says when
the call keeps that; over runs, the containers stay intact exactly as long as every call is
one of those.

## Key results

- `Intact.write_eq`: what an intact object writes, as `Json.JBaseObj.write` has it
- `step_intact_iff`: when one call leaves everything intact
- `intact_iff_meets`: the runs in which everything stays intact
-/

namespace Athena

namespace JsonTree

open Json (FloatText)

variable {F : Type}

/-! ## Intact objects -/

/-- The tag is one of a value, and the member of the union that it names is the last one
stored. -/
def JValue.Tagged (v : JValue F) : Prop :=
  match v.type with
  | .eJ_INT => ∃ i, v.num = .iv i
  | .eJ_FLOAT => ∃ f, v.num = .fv f
  | .eJ_BOOL => ∃ b, v.num = .bv b
  | .eJ_NULL | .eJ_STRING => True
  | .eJ_ARRAY | .eJ_OBJ => False

/-- No entry below the object is null, and every `type` field fits the class. -/
inductive Intact : JBaseObj F → Prop where
  | value {v : JValue F} (htag : v.Tagged) : Intact (.value v)
  | array {items : JArray.Items F} (hitems : ∀ obj ∈ items, Intact obj) :
    Intact (.array .eJ_ARRAY items)
  | object {maps : JSonObj.Maps F} (hsorted : SortedMap.Sorted maps)
    (hmaps : ∀ p ∈ maps, Intact p.2) : Intact (.object .eJ_OBJ maps)

/-- All objects of an array are intact. -/
def JArray.Intact (items : JArray.Items F) : Prop := ∀ obj ∈ items, JsonTree.Intact obj

/-- All objects of a map are intact, and its keys are in order. -/
def JSonObj.Intact (maps : JSonObj.Maps F) : Prop :=
  SortedMap.Sorted maps ∧ ∀ p ∈ maps, JsonTree.Intact p.2

/-- Nothing has gone wrong, and all roots are intact. -/
def State.Intact : State F → Prop
  | .running roots => JArray.Intact roots
  | .faulted _ => False

/-- A new array is intact. -/
theorem JArray.new_intact : JsonTree.Intact (JArray.new (F := F)) :=
  .array (List.forall_mem_nil _)

/-- A new object is intact. -/
theorem JSonObj.new_intact : JsonTree.Intact (JSonObj.new (F := F)) :=
  .object .nil (List.forall_mem_nil _)

/-! ## Calls that keep objects intact -/

/-- The calls of `JArray` that keep it intact. -/
def ArrayCall.allowed (items : JArray.Items F) : ArrayCall F → Bool
  | getInt idx | getFloat idx | getBool idx | getStr idx
  | setInt idx _ | setFloat idx _ | setStr idx _ | setBool idx _ =>
    items[idx]?.all JBaseObj.isValue
  | _ => true

/-- The calls of `JSonObj` that keep it intact. -/
def ObjCall.allowed (maps : JSonObj.Maps F) : ObjCall F → Bool
  | getInt key | getFloat key | getBool key | getStr key =>
    (SortedMap.find key maps).any JBaseObj.isValue
  | isNull key | getJsonObj key => (SortedMap.find key maps).isSome
  | setInt key _ | setFloat key _ | setStr key _ | setBool key _ =>
    (SortedMap.find key maps).all JBaseObj.isValue
  | _ => true

def JBaseObj.allows : JBaseObj F → Call F → Bool
  | .array _ items, .array call => call.allowed items
  | .object _ maps, .object call => call.allowed maps
  | _, _ => true

/-- The call is one that its object stays intact under. -/
def Allowed : State F → Op F → Prop
  | .running roots, op => ∀ obj, op.target roots = some obj → obj.allows op.call = true
  | .faulted _, _ => True

/-- The call ends, and what it leaves has `P`. -/
def Leaves {α : Type} (P : α → Prop) : Except Fault α → Prop
  | .ok a => P a
  | .error _ => False

/-- A call that ends leaves what it leaves. -/
@[simp] theorem leaves_ok {α : Type} (P : α → Prop) (a : α) : Leaves P (.ok a) ↔ P a := Iff.rfl

/-- A call that faults leaves nothing intact. -/
@[simp] theorem leaves_error {α : Type} (P : α → Prop) (fault : Fault) :
    Leaves P (.error fault) ↔ False := Iff.rfl

/-- What is made of the result of a call. -/
theorem leaves_map {α β : Type} (P : β → Prop) (f : α → β) (r : Except Fault α) :
    Leaves P (r.map f) ↔ Leaves (fun a => P (f a)) r := by
  cases r <;> exact Iff.rfl

/-- Only what holds of the result counts. -/
theorem leaves_congr {α : Type} {P Q : α → Prop} (h : ∀ a, P a ↔ Q a) (r : Except Fault α) :
    Leaves P r ↔ Leaves Q r := by
  cases r with
  | ok a => exact h a
  | error fault => exact Iff.rfl

/-- A scalar operation ends where the object is a `JValue`. -/
theorem leaves_asValue (P : JValue F → Prop) (obj : JBaseObj F) :
    Leaves P obj.asValue ↔ ∃ v, obj = .value v ∧ P v := by
  cases obj <;> simp [JBaseObj.asValue]

/-- `isValue` is the class `JValue`. -/
theorem isValue_iff {obj : JBaseObj F} : obj.isValue = true ↔ ∃ v, obj = .value v := by
  cases obj <;> simp [JBaseObj.isValue]

/-! ## Values -/

namespace JValue

/-- Each setter sets the tag with the member that it names. -/
theorem setInt_tagged (i : Int32) (v : JValue F) : (v.setInt i).Tagged := ⟨i, rfl⟩

/-- The tag of a float. -/
theorem setFloat_tagged (f : F) (v : JValue F) : (v.setFloat f).Tagged := ⟨f, rfl⟩

/-- The tag of a string. -/
theorem setStr_tagged (s : List Char) (v : JValue F) : (v.setStr s).Tagged := trivial

/-- The tag of a truth value. -/
theorem setBool_tagged (b : Bool) (v : JValue F) : (v.setBool b).Tagged := ⟨b, rfl⟩

/-- The null tag names no member. -/
theorem setNull_tagged (v : JValue F) : v.setNull.Tagged := trivial

/-- The tag of a value is not one of a container. -/
theorem Tagged.not_container {v : JValue F} (h : v.Tagged) :
    JBaseObj.isContainerType v.type = false := by
  unfold Tagged at h
  split at h <;> simp_all [JBaseObj.isContainerType]

end JValue

/-- No intact object is a null pointer. -/
theorem Intact.isNullptr {obj : JBaseObj F} (h : Intact obj) : obj.isNullptr = false := by
  cases h <;> rfl

/-- An intact object is not null, so `getType` has a result. -/
theorem Intact.type {obj : JBaseObj F} (h : Intact obj) : ∃ type, obj.type = .ok type := by
  cases h <;> exact ⟨_, rfl⟩

/-- After the test of the tag in `setNull`, the pointer is one to a `JValue`. -/
theorem Intact.setNull_target {obj : JBaseObj F} (h : Intact obj) {type : eJOSN_TYPE}
    (htype : obj.type = .ok type) :
    ∃ v, (if JBaseObj.isContainerType type then .value .new else obj) = .value v := by
  cases h with
  | value htag =>
    obtain rfl := Except.ok.inj htype
    -- the tag of a value is not one of a container
    rw [if_neg (by simp [htag.not_container])]
    exact ⟨_, rfl⟩
  | array _ =>
    obtain rfl := Except.ok.inj htype
    exact ⟨.new, rfl⟩
  | object _ =>
    obtain rfl := Except.ok.inj htype
    exact ⟨.new, rfl⟩

/-- What a value holds, by its tag. -/
def JValue.contents (v : JValue F) : Option (Json.JValue F) :=
  match v.type, v.num with
  | .eJ_INT, .iv i => some (.eJ_INT i)
  | .eJ_FLOAT, .fv f => some (.eJ_FLOAT f)
  | .eJ_BOOL, .bv b => some (.eJ_BOOL b)
  | .eJ_NULL, _ => some .eJ_NULL
  | .eJ_STRING, _ => some (.eJ_STRING v.sv)
  | _, _ => none

/-! ## Arrays -/

namespace JArray

variable {items : Items F}

/-- An intact object may be added to an intact array. -/
theorem Intact.append (h : Intact items) {obj : JBaseObj F} (hobj : JsonTree.Intact obj) :
    Intact (items ++ [obj]) := by
  intro obj' hmem
  obtain hmem | hmem := List.mem_append.mp hmem
  · exact h obj' hmem
  · obtain rfl := List.mem_singleton.mp hmem
    exact hobj

/-- It may take the place of an item. -/
theorem Intact.set (h : Intact items) (idx : Nat) {obj : JBaseObj F}
    (hobj : JsonTree.Intact obj) : Intact (items.set idx obj) := by
  intro obj' hmem
  obtain hmem | rfl := List.mem_or_eq_of_mem_set hmem
  · exact h obj' hmem
  · exact hobj

/-- What is left after `remove` is intact. -/
theorem Intact.remove (h : Intact items) (idx : Nat) : Intact (remove items idx) := by
  unfold JArray.remove
  split
  · exact fun obj hmem => h obj (List.mem_of_mem_eraseIdx hmem)
  · exact h

/-- A pushed value is intact if its setter sets the tag. -/
theorem Intact.push (h : Intact items) {set : JValue F → JValue F}
    (hset : ∀ v, (set v).Tagged) : Intact (push set items) :=
  h.append (.value (hset _))

/-- A getter ends exactly if the item is a value; it changes nothing. -/
theorem leaves_getValue (h : Intact items) {α : Type} (get : JValue F → α)
    (idx : Fin items.length) :
    Leaves Intact ((getValue get items idx).map fun _ => items) ↔
      (items.get idx).isValue = true := by
  rw [leaves_map, getValue, leaves_map, leaves_asValue, isValue_iff]
  exact ⟨fun ⟨v, hv, _⟩ => ⟨v, hv⟩, fun ⟨v, hv⟩ => ⟨v, hv, h⟩⟩

/-- A setter leaves the array intact exactly if the item is a value. -/
theorem leaves_setValue (h : Intact items) {set : JValue F → JValue F}
    (hset : ∀ v, (set v).Tagged) (idx : Fin items.length) :
    Leaves Intact (setValue set items idx) ↔ (items.get idx).isValue = true := by
  rw [setValue, leaves_map, leaves_asValue, isValue_iff]
  exact ⟨fun ⟨v, hv, _⟩ => ⟨v, hv⟩, fun ⟨v, hv⟩ => ⟨v, hv, h.set idx (.value (hset v))⟩⟩

/-- `isNull` asks any item. -/
theorem leaves_isNull (h : Intact items) (idx : Fin items.length) :
    Leaves Intact ((isNull items idx).map fun _ => items) := by
  obtain ⟨type, htype⟩ := (h (items.get idx) (List.get_mem items idx)).type
  rw [leaves_map, isNull, leaves_map, htype]
  exact h

/-- `setNull` puts a null value in the place of any item. -/
theorem leaves_setNull (h : Intact items) (idx : Fin items.length) :
    Leaves Intact (setNull items idx) := by
  have hobj := h (items.get idx) (List.get_mem items idx)
  obtain ⟨type, htype⟩ := hobj.type
  obtain ⟨v, hv⟩ := hobj.setNull_target htype
  simp only [setNull, htype, hv]
  -- what the pointer leads to after the test is a `JValue`, new or old
  exact h.set idx (.value (JValue.setNull_tagged v))

end JArray

/-- A call with an index in range has the result of the function. -/
theorem ranged_eq_some {α : Type} {items : JArray.Items F} {idx : Nat}
    {f : Fin items.length → α} {r : α} (h : ranged items idx f = some r) :
    ∃ hidx : idx < items.length, r = f ⟨idx, hidx⟩ := by
  unfold ranged at h
  split at h
  · next hidx => exact ⟨hidx, (Option.some.inj h).symm⟩
  · exact nomatch h

/-- A scalar operation on an item keeps the array intact where the item is a `JValue`. -/
theorem ranged_leaves {items : JArray.Items F} {idx : Nat}
    {f : Fin items.length → Except Fault (JArray.Items F)} {r : Except Fault (JArray.Items F)}
    (hf : ∀ i, Leaves JArray.Intact (f i) ↔ (items.get i).isValue = true)
    (hr : ranged items idx f = some r) :
    Leaves JArray.Intact r ↔ items[idx]?.all JBaseObj.isValue = true := by
  obtain ⟨hidx, rfl⟩ := ranged_eq_some hr
  rw [hf, List.getElem?_eq_getElem hidx]
  exact Iff.rfl

/-- A call that keeps the array intact for every index. -/
theorem ranged_keeps {items : JArray.Items F} {idx : Nat}
    {f : Fin items.length → Except Fault (JArray.Items F)} {r : Except Fault (JArray.Items F)}
    (hf : ∀ i, Leaves JArray.Intact (f i)) (hr : ranged items idx f = some r) :
    Leaves JArray.Intact r := by
  obtain ⟨hidx, rfl⟩ := ranged_eq_some hr
  exact hf _

/-- A call of `JArray` leaves it intact exactly if it is allowed. -/
theorem ArrayCall.items_leaves {items : JArray.Items F} (h : JArray.Intact items)
    {call : ArrayCall F} {r : Except Fault (JArray.Items F)} (hr : call.items items = some r) :
    Leaves JArray.Intact r ↔ call.allowed items = true := by
  -- a push sets the tag of what it pushes
  cases call with
  | pushInt v =>
    obtain rfl := Option.some.inj hr
    exact iff_of_true (h.push (JValue.setInt_tagged v)) rfl
  | pushFloat v =>
    obtain rfl := Option.some.inj hr
    exact iff_of_true (h.push (JValue.setFloat_tagged v)) rfl
  | pushStr v =>
    obtain rfl := Option.some.inj hr
    exact iff_of_true (h.push (JValue.setStr_tagged v)) rfl
  | pushBool v =>
    obtain rfl := Option.some.inj hr
    exact iff_of_true (h.push (JValue.setBool_tagged v)) rfl
  | pushNull =>
    obtain rfl := Option.some.inj hr
    exact iff_of_true (h.push JValue.setNull_tagged) rfl
  -- a read is of the tag that was set
  | getInt idx => exact ranged_leaves (JArray.leaves_getValue h _) hr
  | getFloat idx => exact ranged_leaves (JArray.leaves_getValue h _) hr
  | getBool idx => exact ranged_leaves (JArray.leaves_getValue h _) hr
  | getStr idx => exact ranged_leaves (JArray.leaves_getValue h _) hr
  | isNull idx =>
    -- these end for every item
    exact iff_of_true (ranged_keeps (JArray.leaves_isNull h) hr) rfl
  | setInt idx v => exact ranged_leaves (JArray.leaves_setValue h (JValue.setInt_tagged v)) hr
  | setFloat idx v => exact ranged_leaves (JArray.leaves_setValue h (JValue.setFloat_tagged v)) hr
  | setStr idx v => exact ranged_leaves (JArray.leaves_setValue h (JValue.setStr_tagged v)) hr
  | setBool idx v => exact ranged_leaves (JArray.leaves_setValue h (JValue.setBool_tagged v)) hr
  | setNull idx =>
    exact iff_of_true (ranged_keeps (JArray.leaves_setNull h) hr) rfl
  -- `remove` runs where the index is one
  | remove idx =>
    simp only [ArrayCall.items] at hr
    split at hr
    · obtain rfl := Option.some.inj hr
      exact iff_of_true (h.remove idx) rfl
    · exact nomatch hr
  | size =>
    obtain rfl := Option.some.inj hr
    exact iff_of_true h rfl
  | createArray =>
    obtain rfl := Option.some.inj hr
    exact iff_of_true (h.append JArray.new_intact) rfl
  | createObj =>
    obtain rfl := Option.some.inj hr
    exact iff_of_true (h.append JSonObj.new_intact) rfl
  | getJsonObj idx =>
    exact iff_of_true (ranged_keeps (fun _ => (leaves_ok _ _).mpr h) hr) rfl

/-! ## Objects -/

namespace JSonObj

variable {maps : Maps F} {key : List Char}

/-- An intact object may be stored in an intact map. -/
theorem Intact.store (h : Intact maps) (key : List Char) {obj : JBaseObj F}
    (hobj : JsonTree.Intact obj) : Intact (SortedMap.store key obj maps) := by
  refine ⟨h.1.store key obj, fun p hmem => ?_⟩
  obtain rfl | hmem := SortedMap.mem_store hmem
  · exact hobj
  · exact h.2 p hmem

/-- What is left after `remove` is intact. -/
theorem Intact.remove (h : Intact maps) (key : List Char) : Intact (remove maps key) :=
  ⟨h.1.erase key, fun p hmem => h.2 p (SortedMap.mem_of_mem_erase hmem)⟩

/-- What is found in an intact map is intact. -/
theorem Intact.find (h : Intact maps) {obj : JBaseObj F}
    (hfind : SortedMap.find key maps = some obj) : JsonTree.Intact obj :=
  h.2 _ (SortedMap.mem_of_find hfind)

/-- `maps[key]` of a new key leaves a null pointer in the map. -/
theorem Intact.not_index (hfind : SortedMap.find key maps = none) :
    ¬ Intact (index maps key).2 := by
  intro h
  have hself := SortedMap.find_store_self key (JBaseObj.nullptr (F := F)) maps
  simp only [index, hfind] at h
  exact nomatch h.find hself

/-- `operator[]` of a key that is there. -/
theorem index_of_some {obj : JBaseObj F} (hfind : SortedMap.find key maps = some obj) :
    index maps key = (obj, maps) := by
  simp only [index, hfind]

/-- `operator[]` of a missing key puts a null pointer under it. -/
theorem index_of_none (hfind : SortedMap.find key maps = none) :
    index maps key = (.nullptr, SortedMap.store key .nullptr maps) := by
  simp only [index, hfind]

/-- A getter leaves the map intact exactly if the key has a value. -/
theorem leaves_getValue (h : Intact maps) {α : Type} (get : JValue F → α) (key : List Char) :
    Leaves (fun r => Intact r.2) (getValue get maps key) ↔
      (SortedMap.find key maps).any JBaseObj.isValue = true := by
  cases hfind : SortedMap.find key maps with
  | none =>
    simp only [getValue, index_of_none hfind, leaves_map, leaves_asValue]
    simp
  | some obj =>
    simp only [getValue, index_of_some hfind, leaves_map, leaves_asValue]
    rw [Option.any_some, isValue_iff]
    exact ⟨fun ⟨v, hv, _⟩ => ⟨v, hv⟩, fun ⟨v, hv⟩ => ⟨v, hv, h⟩⟩

/-- `isNull` leaves the map intact exactly if the key is there: otherwise it adds a null pointer. -/
theorem leaves_isNull (h : Intact maps) (key : List Char) :
    Leaves (fun r => Intact r.2) (isNull maps key) ↔
      (SortedMap.find key maps).isSome = true := by
  cases hfind : SortedMap.find key maps with
  | none => simp [isNull, index_of_none hfind, leaves_map, JBaseObj.type]
  | some obj =>
    obtain ⟨type, htype⟩ := (h.find hfind).type
    simp only [isNull, index_of_some hfind, leaves_map, htype]
    exact iff_of_true h rfl

/-- So does `getJsonObj`. -/
theorem intact_getJsonObj (h : Intact maps) (key : List Char) :
    Intact (getJsonObj maps key).2 ↔ (SortedMap.find key maps).isSome = true := by
  cases hfind : SortedMap.find key maps with
  | none => exact iff_of_false (Intact.not_index hfind) (by simp)
  -- the lookup has stored a null pointer
  | some obj =>
    rw [getJsonObj, index_of_some hfind]
    exact iff_of_true h rfl

/-- A setter leaves the map intact unless the key has an array or an object. -/
theorem leaves_setValue (h : Intact maps) {set : JValue F → JValue F}
    (hset : ∀ v, (set v).Tagged) (key : List Char) :
    Leaves Intact (setValue set maps key) ↔
      (SortedMap.find key maps).all JBaseObj.isValue = true := by
  cases hfind : SortedMap.find key maps with
  | none =>
    -- the null pointer that the test of `maps[key]` stored is overwritten
    have hstore := h.store key (.value (hset .new))
    simp only [setValue, index_of_none hfind, JBaseObj.isNullptr, if_true, leaves_map,
      leaves_asValue, SortedMap.store_store]
    exact iff_of_true ⟨.new, rfl, hstore⟩ rfl
  | some obj =>
    have hnull := (h.find hfind).isNullptr
    simp only [setValue, index_of_some hfind, hnull, leaves_map, leaves_asValue]
    rw [Option.all_some, isValue_iff]
    exact ⟨fun ⟨v, hv, _⟩ => ⟨v, hv⟩, fun ⟨v, hv⟩ => ⟨v, hv, h.store key (.value (hset v))⟩⟩

/-- `setNull` leaves any map intact. -/
theorem leaves_setNull (h : Intact maps) (key : List Char) :
    Leaves Intact (setNull maps key) := by
  cases hfind : SortedMap.find key maps with
  | none =>
    have hstore := h.store key (.value (JValue.setNull_tagged .new))
    simp only [setNull, index_of_none hfind, JBaseObj.isNullptr, if_true, leaves_ok,
      SortedMap.store_store]
    exact hstore
  | some obj =>
    have hobj := h.find hfind
    have hnull := hobj.isNullptr
    obtain ⟨type, htype⟩ := hobj.type
    obtain ⟨v, hv⟩ := hobj.setNull_target htype
    simp only [setNull, index_of_some hfind, hnull, htype, hv]
    exact h.store key (.value (JValue.setNull_tagged v))

/-- `createArray` and `createObj` leave the map intact, and so is the object that they overwrite. -/
theorem intact_create (h : Intact maps) (key : List Char) {p : JBaseObj F}
    (hp : JsonTree.Intact p) :
    Intact (create p maps key).1 ∧ ∀ old ∈ (create p maps key).2, JsonTree.Intact old :=
  ⟨h.store key hp, fun _ hold => h.find hold⟩

end JSonObj

/-- What a call of `JSonObj` leaves is intact: the map, and the pointer overwritten. -/
def JSonObj.IntactAfter (r : JSonObj.Maps F × Option (JBaseObj F)) : Prop :=
  JSonObj.Intact r.1 ∧ ∀ old ∈ r.2, JsonTree.Intact old

/-- Without an overwritten pointer, the map counts. -/
theorem JSonObj.intactAfter_none {maps : JSonObj.Maps F} :
    JSonObj.IntactAfter (maps, none) ↔ JSonObj.Intact maps :=
  ⟨fun h => h.1, fun h => ⟨h, fun _ hold => nomatch hold⟩⟩

/-- A call that overwrites no pointer. -/
theorem JSonObj.leaves_map_none {α : Type} (f : α → JSonObj.Maps F) (r : Except Fault α) :
    Leaves JSonObj.IntactAfter (r.map fun a => (f a, none)) ↔
      Leaves (fun a => JSonObj.Intact (f a)) r := by
  rw [leaves_map]
  simp only [JSonObj.intactAfter_none]

/-- A call of `JSonObj` leaves it intact exactly if it is allowed. -/
theorem ObjCall.maps_leaves {maps : JSonObj.Maps F} (h : JSonObj.Intact maps)
    (call : ObjCall F) :
    Leaves JSonObj.IntactAfter (call.maps maps) ↔ call.allowed maps = true := by
  -- reads and `isNull` insert a missing key; a setter casts what is there
  cases call with
  | getInt key => exact (JSonObj.leaves_map_none _ _).trans (JSonObj.leaves_getValue h _ key)
  | getFloat key => exact (JSonObj.leaves_map_none _ _).trans (JSonObj.leaves_getValue h _ key)
  | getBool key => exact (JSonObj.leaves_map_none _ _).trans (JSonObj.leaves_getValue h _ key)
  | getStr key => exact (JSonObj.leaves_map_none _ _).trans (JSonObj.leaves_getValue h _ key)
  | isNull key => exact (JSonObj.leaves_map_none _ _).trans (JSonObj.leaves_isNull h key)
  | setInt key v =>
    exact (JSonObj.leaves_map_none _ _).trans
      (JSonObj.leaves_setValue h (JValue.setInt_tagged v) key)
  | setFloat key v =>
    exact (JSonObj.leaves_map_none _ _).trans
      (JSonObj.leaves_setValue h (JValue.setFloat_tagged v) key)
  | setStr key v =>
    exact (JSonObj.leaves_map_none _ _).trans
      (JSonObj.leaves_setValue h (JValue.setStr_tagged v) key)
  | setBool key v =>
    exact (JSonObj.leaves_map_none _ _).trans
      (JSonObj.leaves_setValue h (JValue.setBool_tagged v) key)
  | setNull key =>
    exact iff_of_true ((JSonObj.leaves_map_none _ _).mpr (JSonObj.leaves_setNull h key)) rfl
  | remove key => exact iff_of_true (JSonObj.intactAfter_none.mpr (h.remove key)) rfl
  | createArray key =>
    exact iff_of_true (JSonObj.intact_create h key JArray.new_intact) rfl
  | createObj key =>
    exact iff_of_true (JSonObj.intact_create h key JSonObj.new_intact) rfl
  | getJsonObj key => exact JSonObj.intactAfter_none.trans (JSonObj.intact_getJsonObj h key)

/-! ## Writing -/

mutual

/-- The tree of an object, unless there is a null pointer or a wrong tag in it. -/
def JBaseObj.tree : JBaseObj F → Option (Json.JBaseObj F)
  | .nullptr => none
  | .value v => (v.contents).map (.value 0)
  | .array _ items => (itemTrees items).map (.array 0)
  | .object _ maps => (memberTrees maps).map (.object 0)

def itemTrees : List (JBaseObj F) → Option (List (Json.JBaseObj F))
  | [] => some []
  | obj :: items =>
    match obj.tree, itemTrees items with
    | some t, some ts => some (t :: ts)
    | _, _ => none

def memberTrees : List (List Char × JBaseObj F) → Option (List (List Char × Json.JBaseObj F))
  | [] => some []
  | (key, obj) :: maps =>
    match obj.tree, memberTrees maps with
    | some t, some ts => some ((key, t) :: ts)
    | _, _ => none

end

/-- A value with the right tag is written as what it holds. -/
theorem JValue.write_of_contents (float : FloatText F) {v : JValue F} {c : Json.JValue F}
    (h : v.contents = some c) : v.write float = .ok (c.write float) := by
  unfold JValue.contents at h
  split at h <;> cases h <;> simp [JValue.write, Json.JValue.write, *]

/-- A value with the right tag holds something. -/
theorem JValue.Tagged.contents {v : JValue F} (h : v.Tagged) : ∃ c, v.contents = some c := by
  unfold JValue.Tagged at h
  split at h
  · next htype =>
    obtain ⟨i, hnum⟩ := h
    exact ⟨.eJ_INT i, by simp [JValue.contents, htype, hnum]⟩
  · next htype =>
    obtain ⟨f, hnum⟩ := h
    exact ⟨.eJ_FLOAT f, by simp [JValue.contents, htype, hnum]⟩
  · next htype =>
    obtain ⟨b, hnum⟩ := h
    exact ⟨.eJ_BOOL b, by simp [JValue.contents, htype, hnum]⟩
  · next htype => exact ⟨.eJ_NULL, by simp [JValue.contents, htype]⟩
  · next htype => exact ⟨.eJ_STRING v.sv, by simp [JValue.contents, htype]⟩
  · exact h.elim
  · exact h.elim

/-- The trees of an array begin with that of its first item. -/
theorem itemTrees_cons {obj : JBaseObj F} {items : List (JBaseObj F)}
    {ts : List (Json.JBaseObj F)} (h : itemTrees (obj :: items) = some ts) :
    ∃ t ts', obj.tree = some t ∧ itemTrees items = some ts' ∧ ts = t :: ts' := by
  rw [itemTrees] at h
  split at h
  · next t ts' ht hts => exact ⟨t, ts', ht, hts, (Option.some.inj h).symm⟩
  · exact nomatch h

/-- The trees of a map begin with that of its first member. -/
theorem memberTrees_cons {key : List Char} {obj : JBaseObj F}
    {maps : List (List Char × JBaseObj F)} {ts : List (List Char × Json.JBaseObj F)}
    (h : memberTrees ((key, obj) :: maps) = some ts) :
    ∃ t ts', obj.tree = some t ∧ memberTrees maps = some ts' ∧ ts = (key, t) :: ts' := by
  rw [memberTrees] at h
  split at h
  · next t ts' ht hts => exact ⟨t, ts', ht, hts, (Option.some.inj h).symm⟩
  · exact nomatch h

/-- The comma after an item is there in the tree as well. -/
theorem isEmpty_of_itemTrees {items : List (JBaseObj F)} {ts : List (Json.JBaseObj F)}
    (h : itemTrees items = some ts) : items.isEmpty = ts.isEmpty := by
  cases items with
  | nil =>
    obtain rfl := Option.some.inj h
    rfl
  | cons obj items =>
    obtain ⟨t, ts', -, -, rfl⟩ := itemTrees_cons h
    rfl

/-- An empty map is an empty tree. -/
theorem isEmpty_of_memberTrees {maps : List (List Char × JBaseObj F)}
    {ts : List (List Char × Json.JBaseObj F)} (h : memberTrees maps = some ts) :
    maps.isEmpty = ts.isEmpty := by
  cases maps with
  | nil =>
    obtain rfl := Option.some.inj h
    rfl
  | cons p maps =>
    obtain ⟨t, ts', -, -, rfl⟩ := memberTrees_cons h
    rfl

mutual

/-- An object with a tree writes what the tree does. -/
theorem JBaseObj.write_of_tree (float : FloatText F) (layout : Bool) (depth : Nat)
    (obj : JBaseObj F) {t : Json.JBaseObj F} (h : obj.tree = some t) :
    obj.write float layout depth = .ok (t.write float layout depth) := by
  cases obj with
  | nullptr => exact nomatch h
  | value v =>
    rw [JBaseObj.tree] at h
    obtain ⟨c, hc, rfl⟩ := Option.map_eq_some_iff.mp h
    exact JValue.write_of_contents float hc
  | array type items =>
    rw [JBaseObj.tree] at h
    obtain ⟨ts, hts, rfl⟩ := Option.map_eq_some_iff.mp h
    simp only [JBaseObj.write, writeItems_of_trees float layout depth items hts,
      Json.JBaseObj.write]
  | object type maps =>
    rw [JBaseObj.tree] at h
    obtain ⟨ts, hts, rfl⟩ := Option.map_eq_some_iff.mp h
    simp only [JBaseObj.write, writeMembers_of_trees float layout depth maps hts,
      Json.JBaseObj.write]

/-- The items are written as their trees. -/
theorem writeItems_of_trees (float : FloatText F) (layout : Bool) (depth : Nat)
    (items : List (JBaseObj F)) {ts : List (Json.JBaseObj F)} (h : itemTrees items = some ts) :
    writeItems float layout depth items = .ok (Json.writeItems float layout depth ts) := by
  cases items with
  | nil =>
    obtain rfl := Option.some.inj h
    rfl
  | cons obj items =>
    obtain ⟨t, ts', ht, hts, rfl⟩ := itemTrees_cons h
    simp only [writeItems, JBaseObj.write_of_tree float layout (depth + 1) obj ht,
      writeItems_of_trees float layout depth items hts, Json.writeItems,
      isEmpty_of_itemTrees hts]

/-- The members are written as their trees. -/
theorem writeMembers_of_trees (float : FloatText F) (layout : Bool) (depth : Nat)
    (maps : List (List Char × JBaseObj F)) {ts : List (List Char × Json.JBaseObj F)}
    (h : memberTrees maps = some ts) :
    writeMembers float layout depth maps = .ok (Json.writeMembers float layout depth ts) := by
  cases maps with
  | nil =>
    obtain rfl := Option.some.inj h
    rfl
  | cons p maps =>
    obtain ⟨key, obj⟩ := p
    obtain ⟨t, ts', ht, hts, rfl⟩ := memberTrees_cons h
    simp only [writeMembers, JBaseObj.write_of_tree float layout (depth + 1) obj ht,
      writeMembers_of_trees float layout depth maps hts, Json.writeMembers,
      isEmpty_of_memberTrees hts]

end

/-- An array has a tree if all items have one. -/
theorem itemTrees_of_forall {items : List (JBaseObj F)}
    (h : ∀ obj ∈ items, ∃ t, obj.tree = some t) : ∃ ts, itemTrees items = some ts := by
  induction items with
  | nil => exact ⟨[], rfl⟩
  | cons obj items ih =>
    obtain ⟨t, ht⟩ := h obj List.mem_cons_self
    obtain ⟨ts, hts⟩ := ih fun obj hmem => h obj (List.mem_cons_of_mem _ hmem)
    exact ⟨t :: ts, by simp only [itemTrees, ht, hts]⟩

/-- A map has a tree if all members have one. -/
theorem memberTrees_of_forall {maps : List (List Char × JBaseObj F)}
    (h : ∀ p ∈ maps, ∃ t, p.2.tree = some t) : ∃ ts, memberTrees maps = some ts := by
  induction maps with
  | nil => exact ⟨[], rfl⟩
  | cons p maps ih =>
    obtain ⟨t, ht⟩ := h p List.mem_cons_self
    obtain ⟨ts, hts⟩ := ih fun p hmem => h p (List.mem_cons_of_mem _ hmem)
    exact ⟨(p.1, t) :: ts, by simp only [memberTrees, ht, hts]⟩

/-- Intact objects have a tree. -/
theorem Intact.tree {obj : JBaseObj F} (h : Intact obj) : ∃ t, obj.tree = some t := by
  induction h with
  | value htag =>
    obtain ⟨c, hc⟩ := htag.contents
    exact ⟨.value 0 c, by rw [JBaseObj.tree, hc, Option.map_some]⟩
  | array _ ih =>
    obtain ⟨ts, hts⟩ := itemTrees_of_forall ih
    -- there is no null pointer among the items
    exact ⟨.array 0 ts, by rw [JBaseObj.tree, hts, Option.map_some]⟩
  | object _ _ ih =>
    obtain ⟨ts, hts⟩ := memberTrees_of_forall ih
    exact ⟨.object 0 ts, by rw [JBaseObj.tree, hts, Option.map_some]⟩

/-- An intact object is written to the end, with the text of its tree. -/
theorem Intact.write_eq {obj : JBaseObj F} (h : Intact obj) (float : FloatText F) (layout : Bool)
    (depth : Nat) :
    ∃ t, obj.tree = some t ∧ obj.write float layout depth = .ok (t.write float layout depth) := by
  obtain ⟨t, ht⟩ := h.tree
  exact ⟨t, ht, obj.write_of_tree float layout depth ht⟩

/-! ## One call -/

/-- What a call leaves is intact: the object, and the one whose pointer was overwritten. -/
def IntactAfter (r : JBaseObj F × Option (JBaseObj F)) : Prop :=
  Intact r.1 ∧ ∀ old ∈ r.2, Intact old

/-- An array is intact if its items are. -/
theorem intact_array_iff {items : JArray.Items F} :
    Intact (.array .eJ_ARRAY items) ↔ JArray.Intact items := by
  refine ⟨fun h => ?_, .array⟩
  cases h with
  | array hitems => exact hitems

/-- An object is intact if its map is. -/
theorem intact_object_iff {maps : JSonObj.Maps F} :
    Intact (.object .eJ_OBJ maps) ↔ JSonObj.Intact maps := by
  refine ⟨fun h => ?_, fun h => .object h.1 h.2⟩
  cases h with
  | object hsorted hmaps => exact ⟨hsorted, hmaps⟩

/-- A call leaves an intact object intact exactly if it is allowed. -/
theorem Intact.perform_leaves (float : FloatText F) {obj : JBaseObj F} (h : Intact obj)
    {call : Call F} {r : Except Fault (JBaseObj F × Option (JBaseObj F))}
    (hr : obj.perform float call = some r) : Leaves IntactAfter r ↔ obj.allows call = true := by
  -- a tree that is intact is written without a fault
  have hwrite : ∀ layout depth,
      Leaves IntactAfter ((obj.write float layout depth).map fun _ => (obj, none)) := by
    intro layout depth
    obtain ⟨t, -, htext⟩ := h.write_eq float layout depth
    rw [htext]
    exact ⟨h, fun _ hold => nomatch hold⟩
  cases h with
  -- a value has no calls
  | value _ => cases call <;> exact nomatch hr
  | @array items hitems =>
    cases call with
    | array call =>
      obtain ⟨r', hr', rfl⟩ := Option.map_eq_some_iff.mp hr
      rw [leaves_map, JBaseObj.allows, ← ArrayCall.items_leaves hitems hr']
      refine leaves_congr (fun items => ?_) r'
      exact ⟨fun h => intact_array_iff.mp h.1,
        fun h => ⟨.array h, fun _ hold => nomatch hold⟩⟩
    | object call => exact nomatch hr
    | write layout depth =>
      obtain rfl := Option.some.inj hr
      exact iff_of_true (hwrite layout depth) rfl
  | @object maps hsorted hmaps =>
    cases call with
    | array call => exact nomatch hr
    | object call =>
      obtain rfl := Option.some.inj hr
      rw [leaves_map, JBaseObj.allows, ← call.maps_leaves ⟨hsorted, hmaps⟩]
      exact leaves_congr (fun p => and_congr_left' intact_object_iff) _
    | write layout depth =>
      obtain rfl := Option.some.inj hr
      exact iff_of_true (hwrite layout depth) rfl

/-! ## Paths -/

/-- The children of an intact object are intact. -/
theorem Intact.child {obj p : JBaseObj F} {s : Step} (h : Intact obj)
    (hchild : obj.child s = some p) : Intact p := by
  cases h with
  | value _ => exact nomatch hchild
  | array hitems =>
    cases s with
    | idx i => exact hitems p (List.mem_of_getElem? hchild)
    | key k => exact nomatch hchild
  | object hsorted hmaps =>
    cases s with
    | idx i => exact nomatch hchild
    | key k => exact hmaps _ (SortedMap.mem_of_find hchild)

/-- An intact object may take the place of a child. -/
theorem Intact.setChild {obj p : JBaseObj F} (h : Intact obj) (s : Step) (hp : Intact p) :
    Intact (obj.setChild s p) := by
  cases h with
  | value htag => exact .value htag
  | array hitems =>
    cases s with
    | idx i => exact .array (JArray.Intact.set hitems i hp)
    | key k => exact .array hitems
  | object hsorted hmaps =>
    cases s with
    | idx i => exact .object hsorted hmaps
    | key k => exact intact_object_iff.mpr (JSonObj.Intact.store ⟨hsorted, hmaps⟩ k hp)

/-- The entry that was stored is the one found. -/
theorem child_setChild {obj q : JBaseObj F} {s : Step} (h : obj.child s = some q)
    (p : JBaseObj F) : (obj.setChild s p).child s = some p := by
  cases obj with
  | nullptr => exact nomatch h
  | value v => exact nomatch h
  | array type items =>
    cases s with
    | idx i =>
      obtain ⟨hi, -⟩ := List.getElem?_eq_some_iff.mp h
      exact List.getElem?_set_self hi
    | key k => exact nomatch h
  | object type maps =>
    cases s with
    | idx i => exact nomatch h
    | key k => exact SortedMap.find_store_self k p maps

/-- What a path leads to is intact. -/
theorem Intact.lookup {obj p : JBaseObj F} {path : List Step} (h : Intact obj)
    (hp : obj.lookup path = some p) : Intact p := by
  induction path generalizing obj with
  | nil =>
    obtain rfl := Option.some.inj hp
    exact h
  | cons s path ih =>
    rw [JBaseObj.lookup] at hp
    split at hp
    · next q hq => exact ih (h.child hq) hp
    · exact nomatch hp

/-- An intact object may take the place of what a path leads to. -/
theorem Intact.replace {obj new : JBaseObj F} (h : Intact obj) (path : List Step)
    (hnew : Intact new) : Intact (obj.replace path new) := by
  induction path generalizing obj with
  | nil => exact hnew
  | cons s path ih =>
    rw [JBaseObj.replace]
    split
    · next q hq => exact h.setChild s (ih (h.child hq))
    · exact h

/-- The path then leads to the new object. -/
theorem lookup_replace {obj p : JBaseObj F} {path : List Step} (h : obj.lookup path = some p)
    (new : JBaseObj F) : (obj.replace path new).lookup path = some new := by
  induction path generalizing obj with
  | nil => rfl
  | cons s path ih =>
    rw [JBaseObj.lookup] at h
    split at h
    · next q hq =>
      simp only [JBaseObj.replace, hq, JBaseObj.lookup, child_setChild hq]
      exact ih h
    · exact nomatch h

/-- A call is on an intact object if all roots are intact. -/
theorem Op.target_intact {roots : List (JBaseObj F)} {op : Op F} {obj : JBaseObj F}
    (h : JArray.Intact roots) (hobj : op.target roots = some obj) : Intact obj := by
  rw [Op.target] at hobj
  split at hobj
  · next root hroot => exact (h root (List.mem_of_getElem? hroot)).lookup hobj
  · exact nomatch hobj

/-- The roots after a call are intact exactly if the object of the call is. -/
theorem Op.update_intact_iff {roots : List (JBaseObj F)} {op : Op F} {obj : JBaseObj F}
    (h : JArray.Intact roots) (hobj : op.target roots = some obj) (new : JBaseObj F) :
    JArray.Intact (op.update roots new) ↔ Intact new := by
  rw [Op.target] at hobj
  split at hobj
  · next root hroot =>
    rw [Op.update, hroot]
    have hlt : op.root < roots.length := (List.getElem?_eq_some_iff.mp hroot).1
    constructor
    · intro hupdate
      have hmem : root.replace op.path new ∈ roots.set op.root (root.replace op.path new) :=
        -- the new object is found again at the end of the path
        List.mem_set hlt _
      exact (hupdate _ hmem).lookup (lookup_replace hobj new)
    · exact fun hnew => h.set op.root ((h root (List.mem_of_getElem? hroot)).replace op.path hnew)
  · exact nomatch hobj

/-- Two arrays one behind the other. -/
theorem JArray.intact_append_iff {items items' : JArray.Items F} :
    JArray.Intact (items ++ items') ↔ JArray.Intact items ∧ JArray.Intact items' :=
  List.forall_mem_append

/-! ## Runs -/

/-- One call leaves everything intact exactly if it is allowed. -/
theorem step_intact_iff (float : FloatText F) {s s' : State F} {op : Op F} (h : s.Intact)
    (hstep : step float s op = some s') : s'.Intact ↔ Allowed s op := by
  cases s with
  | faulted fault => exact h.elim
  | running roots =>
    rw [step] at hstep
    split at hstep
    · exact nomatch hstep
    · next obj hobj =>
      -- what the path leads to is asked
      have hallowed : Allowed (.running roots) op ↔ obj.allows op.call = true := by
        -- the path leads to one object only
        refine ⟨fun hall => hall obj hobj, fun hallow obj' hobj' => ?_⟩
        obtain rfl := Option.some.inj (hobj.symm.trans hobj')
        exact hallow
      have hintact := Op.target_intact h hobj
      rw [hallowed]
      split at hstep
      · exact nomatch hstep
      · next fault hfault =>
        obtain rfl := Option.some.inj hstep
        exact hintact.perform_leaves float hfault
      · next obj' dropped hafter =>
        obtain rfl := Option.some.inj hstep
        refine Iff.trans ?_ (hintact.perform_leaves float hafter)
        rw [State.Intact, JArray.intact_append_iff, Op.update_intact_iff h hobj]
        exact and_congr_right' (by simp [JArray.Intact])

/-- A call with an index out of range is not made, and counts as allowed. -/
theorem ArrayCall.allowed_of_items_none {items : JArray.Items F} {call : ArrayCall F}
    (h : call.items items = none) : call.allowed items = true := by
  have hrange : ∀ {idx : Nat} {f : Fin items.length → Except Fault (JArray.Items F)},
      ranged items idx f = none → items[idx]?.all JBaseObj.isValue = true := by
    intro idx f hnone
    unfold ranged at hnone
    split at hnone
    · exact nomatch hnone
    · next hlt => rw [List.getElem?_eq_none (by omega), Option.all_none]
  cases call with
  | getInt idx | getFloat idx | getBool idx | getStr idx =>
    rw [ArrayCall.items] at h
    -- only calls with an index can be out of range
    exact hrange h
  | setInt idx v | setFloat idx v | setStr idx v | setBool idx v => exact hrange h
  | _ => rfl

/-- A call that its object does not have is not one that breaks it. -/
theorem JBaseObj.allows_of_perform_none {float : FloatText F} {obj : JBaseObj F} {call : Call F}
    (h : obj.perform float call = none) : obj.allows call = true := by
  cases obj <;> cases call
  case array.array type items call =>
    exact ArrayCall.allowed_of_items_none (Option.map_eq_none_iff.mp h)
  case object.object => exact nomatch h
  all_goals rfl

/-- A call that is not made is an allowed one. -/
theorem allowed_of_step_none (float : FloatText F) {s : State F} {op : Op F}
    (hstep : step float s op = none) : Allowed s op := by
  cases s with
  | faulted fault => exact trivial
  | running roots =>
    intro obj hobj
    simp only [step, hobj] at hstep
    split at hstep
    · next hnone => exact JBaseObj.allows_of_perform_none hnone
    · exact nomatch hstep
    · exact nomatch hstep

/-- New arrays and objects are intact. -/
theorem start_intact (arrays objects : Nat) : (start arrays objects : State F).Intact := by
  refine JArray.intact_append_iff.mpr ⟨fun obj hmem => ?_, fun obj hmem => ?_⟩
  · obtain rfl := List.eq_of_mem_replicate hmem
    exact JArray.new_intact
  · obtain rfl := List.eq_of_mem_replicate hmem
    exact JSonObj.new_intact

/-- From empty containers, every state that the calls lead to is intact exactly if each call
is allowed where it is made. -/
theorem intact_iff_meets (float : FloatText F) (arrays objects : Nat) (ops : List (Op F)) :
    (∀ done s, done <+: ops → Run.run (step float) (start arrays objects) done = some s →
      s.Intact) ↔
      Run.Meets (step float) Allowed (start arrays objects) ops :=
  Run.forall_reached_iff_meets (fun _ _ _ h hstep => step_intact_iff float h hstep)
    (fun _ _ _ hstep => allowed_of_step_none float hstep) (start_intact arrays objects) ops

/-- A call on the first root. -/
def onRoot (call : Call Empty) : Op Empty := { root := 0, path := [], call := call }

/-- `getJsonObj` of a new key stores a null pointer, which `write` follows, and `setInt` of a
key with an array writes to the array as to a `JValue`. -/
theorem getJsonObj_stores_null :
    let float : FloatText Empty := ⟨Empty.elim, fun _ => none⟩
    let getMissing := onRoot (.object (.getJsonObj ['a']))
    let stored : State Empty := .running [.object .eJ_OBJ [(['a'], .nullptr)]]
    Run.run (step float) (start 0 1) [getMissing] = some stored ∧ ¬ stored.Intact ∧
      Run.run (step float) (start 0 1) [getMissing, onRoot (.write true 0)] =
        some (.faulted .nullDeref) ∧
      Run.run (step float) (start 0 1)
        [onRoot (.object (.createArray ['a'])), onRoot (.object (.setInt ['a'] 1))] =
        some (.faulted .badCast) := by
  refine ⟨rfl, fun h => ?_, rfl, rfl⟩
  exact nomatch (intact_object_iff.mp (h _ List.mem_cons_self)).2 _ List.mem_cons_self

end JsonTree

end Athena
