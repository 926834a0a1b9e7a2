import Athena.ForStd.NamedFields
import Athena.Native.BsonCodegen

/-!
# The two codecs of a data object

The generated functions write and read the fields that are not ignored, in their order.  JSON has
an element for each of them, and BSON for each that is not a vector.  A record that is saved in
both comes back equal if and only if no base class is merged, every bson name finds the same
field in both documents, and that field is not a vector.

## Key results

- `toBson_eq`, `fromBson_eq`, `toString_eq`, `fromString_eq`: the generated functions write and
  read named fields
- `keepsRestored_iff`: when BSON keeps what JSON keeps
-/

namespace Athena.Codegen

variable {fl : Floating}

/-! ## The types that the generators know -/

/-- The getter for a type. -/
def CxxType.bsonGet : CxxType → Option BsonGet
  | .string => some .getString
  | .int32 => some .getInt32
  | .int64 => some .getInt64
  | .bool => some .getBool
  | .double => some .getDouble
  | .float => some .getDouble
  | .vector => none

/-- The JSON setter for a type. -/
def CxxType.jsonSet : CxxType → JsonSet
  | .string => .string
  | .int32 => .int
  | .int64 => .int64
  | .bool => .bool
  | .double => .double
  | .float => .double
  | .vector => .array

/-- The JSON getter for a type. -/
def CxxType.jsonGet : CxxType → JsonGet
  | .string => .string
  | .int32 => .int
  | .int64 => .int64
  | .bool => .bool
  | .double => .double
  | .float => .float
  | .vector => .array

/-- The generator finds a getter where the member has a type that BSON can read back. -/
theorem bsonGetExpr_eq (type : String) :
    bsonGetExpr type = (cxxType type).bind CxxType.bsonGet := by
  unfold bsonGetExpr cxxType
  generalize normalizeType type = t
  simp only
  split_ifs <;> simp_all [CxxType.bsonGet]

/-- The JSON setter goes by the type of the member. -/
theorem jsonSetStmts_eq (type : String) :
    jsonSetStmts type = (cxxType type).map CxxType.jsonSet := by
  unfold jsonSetStmts cxxType
  generalize normalizeType type = t
  simp only
  split_ifs <;> simp_all [CxxType.jsonSet]

/-- The JSON getter goes by the type of the member. -/
theorem jsonGetStmts_eq (type : String) :
    jsonGetStmts type = (cxxType type).map CxxType.jsonGet := by
  unfold jsonGetStmts cxxType
  generalize normalizeType type = t
  simp only
  split_ifs <;> rfl

/-- The type of the element for a member: there is no `float` in BSON. -/
def CxxType.element : CxxType → CxxType
  | .float => .double
  | ty => ty

/-- Types have one getter if their elements have one type. -/
theorem bsonGet_eq_iff {ty ty' : CxxType} (h : ty ≠ .vector) (h' : ty' ≠ .vector) :
    ty.bsonGet = ty'.bsonGet ↔ ty.element = ty'.element := by
  cases ty <;> cases ty' <;> simp_all [CxxType.bsonGet, CxxType.element]

/-! ## Members in documents -/

/-- Texts are short enough for their length to be passed as an `unsigned`. -/
theorem sized_eq (s : Text) : s.sized = s := by
  have hlt : s.bytes.length < 2 ^ 32 := by
    have hfits := s.fits
    omega
  have hbytes : s.bytes.take (s.bytes.length % 2 ^ 32) = s.bytes := by
    rw [Nat.mod_eq_of_lt hlt, List.take_length]
  cases s
  simpa only [Text.sized, Text.mk.injEq] using hbytes

/-- The JSON value of a member. -/
def Member.json : Member fl → JsonValue fl
  | .string s => .string s
  | .int32 n => .integer n.toInt
  | .int64 n => .integer n.toInt
  | .bool b => .bool b
  | .double d => .double d
  | .float x => .double (fl.widen x)
  | .vector xs => .array (xs.map fun x => .integer x.toInt)

/-- The setter for a member's own type writes its value. -/
theorem write_eq (m : Member fl) : m.type.jsonSet.write m = some m.json := by
  cases m with
  | string s => exact congrArg (fun s => some (JsonValue.string s)) (sized_eq s)
  | _ => rfl

/-- An `int` comes back from its JSON number. -/
theorem getInt_integer (n : Int32) : (JsonValue.integer n.toInt : JsonValue fl).getInt = some n := by
  have hle := n.le_toInt
  have hlt := n.toInt_lt
  rw [JsonValue.getInt, if_pos ⟨hle, hlt⟩, Int32.ofInt_toInt]

/-- An `int64` comes back from its JSON number. -/
theorem getInt64_integer (n : Int64) :
    (JsonValue.integer n.toInt : JsonValue fl).getInt64 = some n := by
  have hle := n.le_toInt
  have hlt := n.toInt_lt
  rw [JsonValue.getInt64, if_pos ⟨hle, hlt⟩, Int64.ofInt_toInt]

/-- All elements of a vector come back. -/
theorem filterMap_getInt64 (xs : List Int64) :
    (xs.map fun x => (JsonValue.integer x.toInt : JsonValue fl)).filterMap JsonValue.getInt64 =
      xs := by
  induction xs with
  | nil => rfl
  | cons x xs ih =>
    rw [List.map_cons, List.filterMap_cons, getInt64_integer]
    exact congrArg (x :: ·) ih

/-- JSON restores a member of a default object from its own value. -/
theorem jsonGet_assign_json (m old : Member fl) (htype : old.type = m.type)
    (hempty : ∀ xs, old = .vector xs → xs = []) :
    m.type.jsonGet.assign m.json old = m := by
  cases m with
  | string s => rfl
  | int32 n =>
    show ((JsonValue.integer n.toInt : JsonValue fl).getInt.map Member.int32).getD old = .int32 n
    rw [getInt_integer, Option.map_some, Option.getD_some]
  | int64 n =>
    show ((JsonValue.integer n.toInt : JsonValue fl).getInt64.map Member.int64).getD old = .int64 n
    rw [getInt64_integer, Option.map_some, Option.getD_some]
  | bool b => rfl
  | double d => rfl
  | float x => exact congrArg Member.float (fl.narrow_widen x)
  | vector xs =>
    cases old with
    | vector ys =>
      rw [hempty ys rfl]
      exact congrArg Member.vector (filterMap_getInt64 xs)
    | _ => exact nomatch htype

/-- Where the element has the type that the getter expects, BSON gives what JSON gives. -/
theorem bsonGet_assign_append {m old : Member fl} {expr : BsonGet}
    (hexpr : old.type.bsonGet = some expr) (hm : m.type.bsonGet = some expr) :
    ∃ e, m.append = some e ∧ expr.assign e old = some (old.type.jsonGet.assign m.json old) := by
  cases expr with
  | getString =>
    cases m <;> cases hm
    cases old <;> cases hexpr
    exact ⟨_, rfl, rfl⟩
  | getInt32 =>
    cases m <;> cases hm
    cases old <;> cases hexpr
    rename_i n n'
    refine ⟨_, rfl, ?_⟩
    show some (Member.int32 n) = some
      (((JsonValue.integer n.toInt : JsonValue fl).getInt.map Member.int32).getD (.int32 n'))
    rw [getInt_integer, Option.map_some, Option.getD_some]
  | getInt64 =>
    cases m <;> cases hm
    cases old <;> cases hexpr
    rename_i n n'
    refine ⟨_, rfl, ?_⟩
    show some (Member.int64 n) = some
      (((JsonValue.integer n.toInt : JsonValue fl).getInt64.map Member.int64).getD (.int64 n'))
    rw [getInt64_integer, Option.map_some, Option.getD_some]
  | getBool =>
    cases m <;> cases hm
    cases old <;> cases hexpr
    exact ⟨_, rfl, rfl⟩
  | getDouble =>
    -- a `float` and a `double` may share an element
    cases m <;> cases hm <;> cases old <;> cases hexpr <;> exact ⟨_, rfl, rfl⟩

/-- A getter throws on an element of another type. -/
theorem bsonGet_assign_other {m : Member fl} {expr : BsonGet} {e : BsonValue fl}
    (happend : m.append = some e) (hm : m.type.bsonGet ≠ some expr) (old : Member fl) :
    expr.assign e old = none := by
  cases m <;> cases happend <;> cases expr <;> first | rfl | exact absurd rfl hm

/-- A member that is not a vector has an element. -/
theorem append_isSome {m : Member fl} (hm : m.type ≠ .vector) : ∃ e, m.append = some e := by
  cases m <;> first | exact ⟨_, rfl⟩ | exact absurd rfl hm

/-- The value of a member that is not a vector is no array. -/
theorem array_assign_json {m : Member fl} (hm : m.type ≠ .vector) (old : Member fl) :
    CxxType.vector.jsonGet.assign m.json old = old := by
  cases m <;> first | rfl | exact absurd rfl hm

/-! ## Classes -/

/-- The fields that are not ignored. -/
def TypeDef.stored (t : TypeDef) : List Field := t.fields.filter (!·.skip)

/-- The stored fields are the class's own fields without those skipped. -/
theorem TypeDef.mem_stored {t : TypeDef} {f : Field} :
    f ∈ t.stored ↔ f ∈ t.fields ∧ f.skip = false := by
  rw [stored, List.mem_filter, Bool.not_eq_true']

/-- A class of members of the types that the JSON generator supports: they are not the names of
    parsed classes, and nothing is flattened. -/
structure IsDataClass (allTypes : List TypeDef) (t : TypeDef) : Prop where
  names : (t.fields.map Field.name).Nodup
  plain : ∀ f ∈ t.stored, f.flatten = false
  scalar : ∀ f ∈ t.stored, f.type ∉ allTypes.map TypeDef.name
  supported : ∀ f ∈ t.stored, (jsonSetStmts f.type).isSome = true

section DataClass

variable {allTypes : List TypeDef} {t : TypeDef}

/-- A stored field has one of the types that the generators know. -/
theorem IsDataClass.exists_type (h : IsDataClass allTypes t) {f : Field} (hf : f ∈ t.stored) :
    ∃ ty, cxxType f.type = some ty := by
  have hsome := h.supported f hf
  -- a type without a setter is refused by the JSON generator
  rw [jsonSetStmts_eq, Option.isSome_map] at hsome
  exact Option.isSome_iff_exists.mp hsome

/-- No two stored fields have one name. -/
theorem IsDataClass.nodup_stored (h : IsDataClass allTypes t) :
    (t.stored.map Field.name).Nodup :=
  h.names.sublist (List.filter_sublist.map Field.name)

/-- What the generators find at a stored field. -/
theorem IsDataClass.cases (h : IsDataClass allTypes t) {f : Field} (hf : f ∈ t.fields)
    (hskip : f.skip = false) :
    f.flatten = false ∧ f.type ∉ allTypes.map TypeDef.name ∧ ∃ ty, cxxType f.type = some ty := by
  have hstored := TypeDef.mem_stored.mpr ⟨hf, hskip⟩
  exact ⟨h.plain f hstored, h.scalar f hstored, h.exists_type hstored⟩

/-- A class whose base is merged has no `toBson` that can be run. -/
theorem toBson_of_merged (others : String → BsonDoc fl) (hbase : mergedBase t ≠ none)
    (o : Members fl) : toBson others allTypes t o = none := by
  obtain ⟨base, hbase⟩ := Option.ne_none_iff_exists'.mp hbase
  rw [toBson, genToBson, hbase, Option.map_some, Option.toList_some, List.singleton_append,
    List.mapM_cons]
  rfl

/-- The document of the members that are no vectors. -/
def bsonDoc (t : TypeDef) (o : Members fl) : BsonDoc fl :=
  NamedFields.write Field.bsonName (fun f => (o f.name).append) t.stored

/-- `toBson` writes the members that are no vectors, unless a base class is merged. -/
theorem toBson_eq (others : String → BsonDoc fl) (h : IsDataClass allTypes t)
    (hbase : mergedBase t = none) (o : DataObject fl t) :
    toBson others allTypes t o.members = some (bsonDoc t o.members) := by
  rw [toBson, genToBson, hbase, Option.map_none, Option.toList_none, List.nil_append]
  refine NamedFields.write_of_executed fun f hf => ?_
  cases hskip : f.skip with
  -- a vector has a statement as well, which appends nothing
  | true => rfl
  | false =>
    obtain ⟨hflatten, hscalar, ty, hty⟩ := h.cases hf hskip
    have htyped := o.typed f hf hskip
    simp only [hflatten, hscalar, bsonScalarSupported, bsonGetExpr_eq, htyped, Option.bind_some,
      Bool.false_eq_true, if_false, Bool.not_false, if_true]
    cases hm : o.members f.name <;>
      simp [Member.type, CxxType.bsonGet, ToBsonStmt.exec, hm, Member.append]

/-- What `fromBson` gives a member. -/
def bsonValue (v : BsonDoc fl) (f : Field) (old : Member fl) : Option (Member fl) :=
  match bsonGetExpr f.type, v.lookup f.bsonName with
  | some expr, some e => expr.assign e old
  | _, _ => some old

/-- The element that is found is assigned through the getter. -/
theorem bsonValue_of_get {v : BsonDoc fl} {f : Field} {ty : CxxType} {expr : BsonGet}
    {e : BsonValue fl} (hty : cxxType f.type = some ty) (hexpr : ty.bsonGet = some expr)
    (hlookup : v.lookup f.bsonName = some e) (old : Member fl) :
    bsonValue v f old = expr.assign e old := by
  rw [bsonValue, bsonGetExpr_eq, hty, Option.bind_some, hexpr, hlookup]

/-- `fromBson` reads the stored members from the document. -/
theorem fromBson_eq (h : IsDataClass allTypes t) (v : BsonDoc fl) (o : Members fl) :
    fromBson allTypes t v o = NamedFields.read Field.name (bsonValue v) t.stored o := by
  -- the base reads its own members only
  have hbase : ((mergedBase t).map FromBsonStmt.base).toList.foldlM
      (fun o stmt => stmt.exec v o) o = some o := by
    cases mergedBase t <;> rfl
  rw [fromBson, genFromBson, List.foldlM_append, hbase]
  refine NamedFields.read_of_emitted (fun f hf o => ?_) o
  cases hskip : f.skip with
  | true => rfl
  | false =>
    obtain ⟨hflatten, hscalar, ty, hty⟩ := h.cases hf hskip
    simp only [hflatten, hscalar, Bool.false_eq_true, if_false, Bool.not_false, if_true, bsonValue]
    cases hexpr : bsonGetExpr f.type with
    -- no getter: the member is left as it is
    | none => simp [FromBsonStmt.exec]
    | some expr => cases hlookup : v.lookup f.bsonName <;> simp [FromBsonStmt.exec, hlookup]

/-- `toString` writes all members. -/
theorem toString_eq (o : DataObject fl t) :
    toString t o.members =
      NamedFields.write Field.bsonName (fun f => some (o.members f.name).json) t.stored := by
  refine NamedFields.write_of_emitted fun f hf => ?_
  cases hskip : f.skip with
  | true => rfl
  | false =>
    have htyped := o.typed f hf hskip
    simp [jsonSetStmts_eq, htyped, ToJsonStmt.exec, write_eq]

/-- What `fromString` gives a member. -/
def jsonValue (doc : JsonDoc fl) (f : Field) (old : Member fl) : Member fl :=
  match jsonGetStmts f.type, doc.lookup f.bsonName with
  | some get, some value => get.assign value old
  | _, _ => old

/-- `fromString` reads the stored members from the document, and never throws. -/
theorem fromString_eq (doc : JsonDoc fl) (o : Members fl) :
    NamedFields.read Field.name (fun f old => some (jsonValue doc f old)) t.stored o =
      some (fromString t doc o) := by
  have hfold : (genFromJson t).foldlM (fun o stmt => some (stmt.exec doc o)) o =
      some (fromString t doc o) := List.foldlM_pure
  rw [← hfold]
  refine (NamedFields.read_of_emitted (fun f _ o => ?_) o).symm
  cases hskip : f.skip with
  | true => rfl
  | false =>
    simp only [Bool.false_eq_true, if_false, Bool.not_false, if_true, jsonValue]
    cases hget : jsonGetStmts f.type with
    | none => simp [FromJsonStmt.exec]
    | some get => cases hlookup : doc.lookup f.bsonName <;> simp [FromJsonStmt.exec, hlookup]

/-! ## What comes back -/

/-- The field that a bson name finds. -/
def TypeDef.first (t : TypeDef) (bsonName : String) : Option Field :=
  t.stored.find? (·.bsonName = bsonName)

/-- Every bson name of the class finds a field. -/
theorem TypeDef.exists_first {f : Field} (hf : f ∈ t.stored) :
    ∃ g ∈ t.stored, g.bsonName = f.bsonName ∧ t.first f.bsonName = some g := by
  cases hfind : t.first f.bsonName with
  | none => exact absurd (decide_eq_true rfl) (List.find?_eq_none.mp hfind f hf)
  | some g =>
    have hname := List.find?_some (p := fun g : Field => decide (g.bsonName = f.bsonName)) hfind
    exact ⟨g, List.mem_of_find?_eq_some hfind, of_decide_eq_true hname, rfl⟩

/-- The types of two codecs agree: no base class is merged, and a bson name finds no vector, and
    elements of one type, if it is not for a vector. -/
structure SameData (t : TypeDef) : Prop where
  base : mergedBase t = none
  first : ∀ f ∈ t.stored, ∀ g, t.first f.bsonName = some g →
    cxxType g.type ≠ some .vector ∧ (cxxType f.type ≠ some .vector →
      (cxxType f.type).map CxxType.element = (cxxType g.type).map CxxType.element)

/-- A record that is saved with `toBson` and loaded into an object with `fromBson`. -/
def throughBson (others : String → BsonDoc fl) (allTypes : List TypeDef) (t : TypeDef)
    (o d : Members fl) : Option (Members fl) :=
  (toBson others allTypes t o).bind fun doc => fromBson allTypes t doc d

/-- A record comes back from BSON, with all that JSON restores. -/
def KeepsRestored (others : String → BsonDoc fl) (allTypes : List TypeDef) (t : TypeDef) : Prop :=
  ∀ (o : DataObject fl t) (d : DefaultObject fl t),
    ∃ b, throughBson others allTypes t o.members d.members = some b ∧
      ∀ f ∈ t.stored,
        fromString t (toString t o.members) d.members f.name = o.members f.name →
          b f.name = o.members f.name

/-- A record comes back from BSON, and equal to the one from JSON. -/
def ComeBackEqual (others : String → BsonDoc fl) (allTypes : List TypeDef) (t : TypeDef) : Prop :=
  ∀ (o : DataObject fl t) (d : DefaultObject fl t),
    ∃ b, throughBson others allTypes t o.members d.members = some b ∧
      ∀ f ∈ t.stored, b f.name = fromString t (toString t o.members) d.members f.name

/-- A stored member has the type that its field says. -/
theorem DataObject.type_eq (o : DataObject fl t) {f : Field} (hf : f ∈ t.stored) {ty : CxxType}
    (hty : cxxType f.type = some ty) : (o.members f.name).type = ty := by
  obtain ⟨hmem, hskip⟩ := TypeDef.mem_stored.mp hf
  exact Option.some.inj ((o.typed f hmem hskip).symm.trans hty)

/-- JSON gives a field the value of the first field with its name. -/
theorem fromString_member (h : IsDataClass allTypes t) (o : DataObject fl t) (d : Members fl)
    {f g : Field} (hf : f ∈ t.stored) (hg : t.first f.bsonName = some g) {ty : CxxType}
    (hty : cxxType f.type = some ty) :
    fromString t (toString t o.members) d f.name =
      ty.jsonGet.assign (o.members g.name).json (d f.name) := by
  have hlookup : (toString t o.members).lookup f.bsonName = some (o.members g.name).json := by
    rw [toString_eq]
    exact NamedFields.lookup_write_of_find hg rfl
  have hread := NamedFields.read_of_mem h.nodup_stored
    (fromString_eq (toString t o.members) d) hf
  rw [← Option.some.inj hread, jsonValue, jsonGetStmts_eq, hty, hlookup]
  rfl

/-- The element that a bson name finds. -/
theorem lookup_bsonDoc {o : Members fl} {bsonName : String} {g : Field} {e : BsonValue fl}
    (hg : t.first bsonName = some g) (happend : (o g.name).append = some e) :
    (bsonDoc t o).lookup bsonName = some e :=
  NamedFields.lookup_write_of_find hg happend

/-- Without a merged base the fields are read from the document. -/
theorem throughBson_eq (others : String → BsonDoc fl) (h : IsDataClass allTypes t)
    (hbase : mergedBase t = none) (o : DataObject fl t) (d : Members fl) :
    throughBson others allTypes t o.members d =
      NamedFields.read Field.name (bsonValue (bsonDoc t o.members)) t.stored d := by
  rw [throughBson, toBson_eq others h hbase, Option.bind_some, fromBson_eq h]

/-- Where the data are the same, BSON reads for each field what JSON reads. -/
theorem SameData.bsonValue_eq (hsame : SameData t) (h : IsDataClass allTypes t)
    (o : DataObject fl t) (d : DefaultObject fl t) {f : Field} (hf : f ∈ t.stored) :
    bsonValue (bsonDoc t o.members) f (d.members f.name) =
      some (fromString t (toString t o.members) d.members f.name) := by
  obtain ⟨g, hgmem, _, hg⟩ := TypeDef.exists_first hf
  obtain ⟨ty, hty⟩ := h.exists_type hf
  obtain ⟨ty', hty'⟩ := h.exists_type hgmem
  obtain ⟨hscalar, helement⟩ := hsame.first f hf g hg
  have htype : (o.members g.name).type = ty' := o.type_eq hgmem hty'
  have hne' : ty' ≠ .vector := fun hvector => hscalar (hvector ▸ hty')
  rw [fromString_member h o d.members hf hg hty]
  by_cases hvector : ty = .vector
  · -- both codecs leave the vector alone
    subst hvector
    rw [array_assign_json (htype.symm ▸ hne'), bsonValue, bsonGetExpr_eq, hty]
    rfl
  · have hfne : cxxType f.type ≠ some .vector :=
      fun heq => hvector (Option.some.inj (hty.symm.trans heq))
    have hsome := helement hfne
    rw [hty, hty', Option.map_some, Option.map_some] at hsome
    have hget := (bsonGet_eq_iff hvector hne').mpr (Option.some.inj hsome)
    obtain ⟨expr, hexpr⟩ : ∃ expr, ty.bsonGet = some expr := by
      cases ty <;> first | exact ⟨_, rfl⟩ | exact absurd rfl hvector
    have hold : (d.members f.name).type = ty := d.type_eq hf hty
    have hf' : (d.members f.name).type.bsonGet = some expr := by rw [hold, hexpr]
    have hg' : (o.members g.name).type.bsonGet = some expr := by rw [htype, ← hget, hexpr]
    obtain ⟨e, happend, hassign⟩ := bsonGet_assign_append hf' hg'
    rw [bsonValue_of_get hty hexpr (lookup_bsonDoc hg happend), hassign, hold]

/-- Where the data are the same, all members come back equal. -/
theorem SameData.comeBackEqual (hsame : SameData t) (h : IsDataClass allTypes t)
    (others : String → BsonDoc fl) : ComeBackEqual others allTypes t := by
  intro o d
  -- member for member BSON reads what JSON reads, so that no getter throws
  have hvalue : ∀ g ∈ t.stored,
      bsonValue (bsonDoc t o.members) g (d.members g.name) =
        some (fromString t (toString t o.members) d.members g.name) :=
    fun g hg => hsame.bsonValue_eq h o d hg
  obtain ⟨b, hread⟩ := NamedFields.exists_read h.nodup_stored fun g hg => ⟨_, hvalue g hg⟩
  refine ⟨b, (throughBson_eq others h hsame.base o d.members).trans hread, fun f hf => ?_⟩
  have hmember := NamedFields.read_of_mem h.nodup_stored hread hf
  exact Option.some.inj (hmember.symm.trans (hvalue f hf))

/-- Codecs that agree restore the same members. -/
theorem ComeBackEqual.keepsRestored {others : String → BsonDoc fl}
    (hequal : ComeBackEqual others allTypes t) : KeepsRestored others allTypes t := by
  intro o d
  obtain ⟨b, hb, hmembers⟩ := hequal o d
  exact ⟨b, hb, fun f hf hrestored => (hmembers f hf).trans hrestored⟩

/-! ## Objects that tell the codecs apart -/

/-- Two values of each type. -/
def CxxType.zero : CxxType → Member fl
  | .string => .string ⟨[], by decide⟩
  | .int32 => .int32 0
  | .int64 => .int64 0
  | .bool => .bool false
  | .double => .double (fl.widen fl.zero)
  | .float => .float fl.zero
  | .vector => .vector []

/-- Another value of each type. -/
def CxxType.one : CxxType → Member fl
  | .string => .string ⟨[97], by decide⟩
  | .int32 => .int32 1
  | .int64 => .int64 1
  | .bool => .bool true
  | .double => .double (fl.widen fl.one)
  | .float => .float fl.one
  | .vector => .vector [1]

/-- The zero of a type has this type. -/
@[simp] theorem CxxType.type_zero (ty : CxxType) : (ty.zero : Member fl).type = ty := by
  cases ty <;> rfl

/-- The one of a type has this type. -/
@[simp] theorem CxxType.type_one (ty : CxxType) : (ty.one : Member fl).type = ty := by
  cases ty <;> rfl

/-- The two values of a type differ. -/
theorem CxxType.zero_ne_one (ty : CxxType) : (ty.zero : Member fl) ≠ ty.one := by
  intro h
  cases ty with
  | double =>
    -- a `double` may have more values, but those of two `float`s differ
    have hwiden := congrArg fl.narrow (Member.double.inj h)
    rw [fl.narrow_widen, fl.narrow_widen] at hwiden
    exact fl.zero_ne_one hwiden
  | float => exact fl.zero_ne_one (Member.float.inj h)
  | int32 => exact absurd (Member.int32.inj h) (by decide)
  | int64 => exact absurd (Member.int64.inj h) (by decide)
  | _ => cases h

/-- An object of zeros. -/
def DefaultObject.zero (h : IsDataClass allTypes t) : DefaultObject fl t where
  members name :=
    ((t.fields.find? (·.name = name)).bind (cxxType ·.type)).elim (.bool false) CxxType.zero
  typed f hf hskip := by
    obtain ⟨_, _, ty, hty⟩ := h.cases hf hskip
    rw [NamedFields.find_name h.names hf, Option.bind_some, hty, Option.elim_some,
      CxxType.type_zero]
  empty f hf hskip xs hxs := by
    obtain ⟨_, _, ty, hty⟩ := h.cases hf hskip
    rw [NamedFields.find_name h.names hf, Option.bind_some, hty, Option.elim_some] at hxs
    cases ty <;> cases hxs
    -- the only vector here is the empty one
    rfl

/-- An object with another value of a member. -/
def DataObject.update (o : DataObject fl t) (h : IsDataClass allTypes t) {g : Field}
    (hg : g ∈ t.stored) {m : Member fl} (hm : cxxType g.type = some m.type) :
    DataObject fl t where
  members := Function.update o.members g.name m
  typed f hf hskip := by
    by_cases hname : f.name = g.name
    · rw [hname, Function.update_self, List.inj_on_of_nodup_map h.names hf
        (TypeDef.mem_stored.mp hg).1 hname]
      exact hm
    · rw [Function.update_of_ne hname]
      exact o.typed f hf hskip

/-- A first field is its own first field. -/
theorem TypeDef.first_self {f g : Field} (hf : f ∈ t.stored) (hg : t.first f.bsonName = some g) :
    g ∈ t.stored ∧ g.bsonName = f.bsonName ∧ t.first g.bsonName = some g := by
  obtain ⟨g', hmem, hname, hg'⟩ := TypeDef.exists_first hf
  obtain rfl := Option.some.inj (hg.symm.trans hg')
  exact ⟨hmem, hname, hname.symm ▸ hg⟩

/-- JSON restores the first field with a name. -/
theorem fromString_first (h : IsDataClass allTypes t) {g : Field} (hg : g ∈ t.stored)
    (hfirst : t.first g.bsonName = some g) (o : DataObject fl t) (d : DefaultObject fl t) :
    fromString t (toString t o.members) d.members g.name = o.members g.name := by
  obtain ⟨ty, hty⟩ := h.exists_type hg
  obtain ⟨hmem, hskip⟩ := TypeDef.mem_stored.mp hg
  have hjson := fromString_member h o d.members hg hfirst hty
  have htype := o.type_eq hg hty
  rwa [← htype, jsonGet_assign_json _ _ ((d.type_eq hg hty).trans htype.symm)
    (d.empty g hmem hskip)] at hjson

/-- A class whose base is merged has no document. -/
theorem KeepsRestored.mergedBase_eq {others : String → BsonDoc fl}
    (hkeeps : KeepsRestored others allTypes t) (h : IsDataClass allTypes t) :
    mergedBase t = none := by
  by_contra hbase
  let d : DefaultObject fl t := .zero h
  obtain ⟨b, hb, -⟩ := hkeeps d.toDataObject d
  rw [throughBson, toBson_of_merged others hbase] at hb
  exact nomatch hb

/-- JSON restores the first field with a name, so that BSON has to. -/
theorem KeepsRestored.restores_first {others : String → BsonDoc fl}
    (hkeeps : KeepsRestored others allTypes t) (h : IsDataClass allTypes t) {g : Field}
    (hg : g ∈ t.stored) (hfirst : t.first g.bsonName = some g) (o : DataObject fl t)
    (d : DefaultObject fl t) :
    ∃ b, NamedFields.read Field.name (bsonValue (bsonDoc t o.members)) t.stored d.members =
        some b ∧
      bsonValue (bsonDoc t o.members) g (d.members g.name) = some (o.members g.name) := by
  obtain ⟨b, hb, hmembers⟩ := hkeeps o d
  rw [throughBson_eq others h (hkeeps.mergedBase_eq h)] at hb
  refine ⟨b, hb, ?_⟩
  rw [← hmembers g hg (fromString_first h hg hfirst o d)]
  exact NamedFields.read_of_mem h.nodup_stored hb hg

/-- No first field is a vector. -/
theorem KeepsRestored.first_scalar {others : String → BsonDoc fl}
    (hkeeps : KeepsRestored others allTypes t) (h : IsDataClass allTypes t) {g : Field}
    (hg : g ∈ t.stored) (hfirst : t.first g.bsonName = some g) :
    cxxType g.type ≠ some .vector := by
  intro hvector
  have hm : cxxType g.type = some (CxxType.one .vector : Member fl).type := hvector
  let d : DefaultObject fl t := .zero h
  obtain ⟨_, _, hvalue⟩ := hkeeps.restores_first h hg hfirst (d.update h hg hm) d
  -- BSON leaves the vector empty
  have hupdate : (d.update h hg hm).members g.name = CxxType.one .vector :=
    Function.update_self _ _ _
  have hzero : d.members g.name = CxxType.zero .vector := by
    show ((t.fields.find? (·.name = g.name)).bind (cxxType ·.type)).elim _ _ = _
    rw [NamedFields.find_name h.names (TypeDef.mem_stored.mp hg).1, Option.bind_some, hvector]
    rfl
  rw [bsonValue, bsonGetExpr_eq, hvector, hupdate, hzero] at hvalue
  exact CxxType.zero_ne_one .vector (Option.some.inj hvalue)

/-- A class for which BSON keeps what JSON restores has the same data in both. -/
theorem KeepsRestored.sameData {others : String → BsonDoc fl}
    (hkeeps : KeepsRestored others allTypes t) (h : IsDataClass allTypes t) : SameData t := by
  refine { base := hkeeps.mergedBase_eq h, first := fun f hf g hg => ?_ }
  obtain ⟨hmem, hname, hself⟩ := TypeDef.first_self hf hg
  have hscalar := hkeeps.first_scalar h hmem hself
  refine ⟨hscalar, fun hne => ?_⟩
  obtain ⟨ty, hty⟩ := h.exists_type hf
  obtain ⟨ty', hty'⟩ := h.exists_type hmem
  rw [hty] at hne ⊢
  rw [hty'] at hscalar ⊢
  have hvector : ty ≠ .vector := fun heq => hne (congrArg some heq)
  have hvector' : ty' ≠ .vector := fun heq => hscalar (congrArg some heq)
  rw [Option.map_some, Option.map_some]
  refine congrArg some ((bsonGet_eq_iff hvector hvector').mp ?_)
  -- otherwise the getter of the second field throws
  let d : DefaultObject fl t := .zero h
  have htype := d.type_eq hmem hty'
  obtain ⟨e, happend⟩ := append_isSome (m := d.members g.name) (htype.symm ▸ hvector')
  obtain ⟨b, hb, _⟩ := hkeeps.restores_first h hmem hself d.toDataObject d
  have hread := NamedFields.read_of_mem h.nodup_stored hb hf
  have hlookup : (bsonDoc t d.members).lookup f.bsonName = some e := lookup_bsonDoc hg happend
  by_contra hget
  obtain ⟨expr, hexpr⟩ : ∃ expr, ty.bsonGet = some expr := by
    cases ty <;> first | exact ⟨_, rfl⟩ | exact absurd rfl hvector
  rw [hexpr] at hget
  have hother : (d.members g.name).type.bsonGet ≠ some expr :=
    fun heq => hget (by rw [← heq, htype])
  rw [bsonValue_of_get hty hexpr hlookup, bsonGet_assign_other happend hother] at hread
  exact nomatch hread

/-- BSON restores what JSON restores, and the two give equal records, if and only if no base
    class is merged and each bson name of the class finds one field in both documents. -/
theorem keepsRestored_iff (others : String → BsonDoc fl) (h : IsDataClass allTypes t) :
    (KeepsRestored others allTypes t ↔ SameData t) ∧
      (ComeBackEqual others allTypes t ↔ SameData t) := by
  have hsame : KeepsRestored others allTypes t → SameData t :=
    fun hkeeps => hkeeps.sameData h
  have hequal : SameData t → ComeBackEqual others allTypes t :=
    fun hsame => hsame.comeBackEqual h others
  exact ⟨⟨hsame, fun hsame => (hequal hsame).keepsRestored⟩,
    ⟨fun hequal => hsame hequal.keepsRestored, hequal⟩⟩

end DataClass

/-- Floating point numbers that are whole. -/
def Floating.whole : Floating where
  Double := Int
  Float := Int
  widen := id
  narrow := id
  narrow_widen _ := rfl
  zero := 0
  one := 1
  zero_ne_one := by decide

/-- A field without annotations. -/
def Field.plain (type name : String) : Field :=
  { type, name, bsonName := name, flatten := false, skip := false }

/-- `game/src/dos/RoleDO.hpp` -/
def roleDO : TypeDef :=
  { name := "RoleDO", base := some "dal::BsonSerializable"
    fields := [.plain "int64_t" "_id", .plain "std::string" "name"], ignoreBase := false }

/-- `game/src/dos/QuestDO.hpp` -/
def questDO : TypeDef :=
  { name := "QuestDO", base := some "dal::BsonSerializable"
    fields := [.plain "int64_t" "_id", .plain "std::vector<int64_t>" "questIdsFinished",
      .plain "std::vector<int64_t>" "curQuestIds"]
    ignoreBase := false }

/-- A class under `@bson(ignore_base)`. -/
def TypeDef.withoutBase (t : TypeDef) : TypeDef := { t with ignoreBase := true }

/-- No document of another class. -/
def noOthers (_ : String) : BsonDoc .whole := []

/-- Without its base the record of a role comes back from both codecs. -/
theorem keepsRestored_iff_roleDO :
    KeepsRestored noOthers [questDO, roleDO.withoutBase] roleDO.withoutBase ∧
      ComeBackEqual noOthers [questDO, roleDO.withoutBase] roleDO.withoutBase := by
  have hclass : IsDataClass [questDO, roleDO.withoutBase] roleDO.withoutBase :=
    { names := by decide, plain := by decide, scalar := by decide, supported := by decide +kernel }
  have hsame : SameData roleDO.withoutBase :=
    { base := rfl, first := by decide +kernel }
  obtain ⟨hkeeps, hequal⟩ := keepsRestored_iff noOthers hclass
  exact ⟨hkeeps.mpr hsame, hequal.mpr hsame⟩

/-- A record with a finished quest. -/
def finished : DataObject .whole questDO.withoutBase where
  members name := if name = "questIdsFinished" then .vector [7] else
    if name = "_id" then .int64 1 else .vector []
  typed := by decide +kernel

/-- A new record. -/
def newQuests : DefaultObject .whole questDO.withoutBase where
  members name := if name = "_id" then .int64 0 else .vector []
  typed := by decide +kernel
  empty f _ _ xs hxs := by
    by_cases hid : f.name = "_id"
    · rw [if_pos hid] at hxs
      exact nomatch hxs
    · rw [if_neg hid] at hxs
      exact (Member.vector.inj hxs).symm

/-- The finished quests come back from JSON, and do not from BSON; with the base class there is
    not even a document. -/
theorem quests_lost :
    IsDataClass [questDO.withoutBase, roleDO] questDO.withoutBase ∧
      (∃ f ∈ questDO.withoutBase.stored, f.name = "questIdsFinished") ∧
      finished.members "questIdsFinished" = .vector [7] ∧
      fromString questDO.withoutBase (toString questDO.withoutBase finished.members)
        newQuests.members "questIdsFinished" = .vector [7] ∧
      (∃ b, throughBson noOthers [questDO.withoutBase, roleDO] questDO.withoutBase
          finished.members newQuests.members = some b ∧
        b "_id" = .int64 1 ∧ b "questIdsFinished" = .vector []) ∧
      throughBson noOthers [questDO, roleDO] questDO finished.members newQuests.members = none := by
  refine ⟨⟨by decide, by decide, by decide, by decide +kernel⟩, by decide, rfl, ?_, ?_, ?_⟩
  · rfl
  · exact ⟨_, rfl, rfl, rfl⟩
  · rfl

end Athena.Codegen
