import Mathlib.Data.List.Nodup
import Athena.Native.CxxMethods

/-!
# What the IDL parser knows of a type is what C++ knows

The parser decides by `TypeInfo::value` what is generated for a variable, and writes the
type by its name.  When the header is accepted (`TypesFit`), the name means in C++ what the
value says, through any chain of typedefs, and a list only has declared variables.

## Key results

- `WellTyped`: a `TypeInfo` and the types of the header agree
- `Parser.bodies_vars`: the variables of a body are in `gVars`
- `Parser.accepts_sound`, `memberType_of_vars`: so it is for the structs of an accepted file
-/

namespace Athena.Idl

/-! ## Association lists -/

/-- What is found is in the list. -/
theorem mem_of_lookup {β : Type} {l : List (String × β)} {k : String} {b : β}
    (h : l.lookup k = some b) : (k, b) ∈ l := by
  obtain ⟨l₁, l₂, rfl, -⟩ := List.lookup_eq_some_iff.mp h
  exact List.mem_append_right l₁ List.mem_cons_self

/-- Without repeated keys, what is in the list is found. -/
theorem lookup_of_mem {β : Type} {l : List (String × β)} {k : String} {b : β}
    (hnodup : (l.map Prod.fst).Nodup) (h : (k, b) ∈ l) : l.lookup k = some b := by
  induction l with
  | nil => exact absurd h List.not_mem_nil
  | cons p l ih =>
    rw [List.map_cons, List.nodup_cons] at hnodup
    rcases List.mem_cons.mp h with rfl | hmem
    · simp
    · have hne : k ≠ p.1 := by
        rintro rfl
        exact hnodup.1 (List.mem_map.mpr ⟨_, hmem, rfl⟩)
      rw [List.lookup_cons, beq_eq_false_iff_ne.mpr hne]
      exact ih hnodup.2 hmem

/-! ## The types of the header -/

/-- A value of the parser and a type of C++. -/
inductive Matches : TypeValue → CxxType → Prop where
  | base (t : BaseType) : Matches (.base t) (.base t)
  | string : Matches .STRING .string
  | struct (S : String) : Matches .STRUCT (.struct S)

/-- The names that the generator writes mean what the parser has found; `t` is the type of
    a value, or of the elements of a vector. -/
structure WellTyped (decls : List Decl) (tinfo : TypeInfo) (t : CxxType) : Prop where
  name : typeNamed decls tinfo.name = some t
  value : Matches tinfo.value t
  vec_name : tinfo.vec_name ≠ "" →
    tinfo.vector = true ∧ typeNamed decls tinfo.vec_name = some (.vector t)

/-- The type of a variable whose values or elements have the type `t`. -/
def TypeInfo.cxxType (tinfo : TypeInfo) (t : CxxType) : CxxType :=
  if tinfo.vector then .vector t else t

variable {decls : List Decl} {d : Decl} {tinfo : TypeInfo} {t : CxxType} {name : String}

/-- The declarations before the last one fit as well. -/
theorem TypesFit.tail (h : TypesFit (d :: decls)) : TypesFit decls := h.2

/-- A declaration leaves all other names alone. -/
theorem typeNamed_of_ne (h : name ≠ d.name) : typeNamed (d :: decls) name = typeNamed decls name := by
  cases d <;> exact if_neg h

/-- A declaration that fits leaves the meaning of the names, if structs have their names. -/
theorem typeNamed_of_fits (hd : d.Fits decls)
    (hstructs : ∀ place S items, .struct place S items ∈ decls → typeNamed decls S = some (.struct S))
    (h : typeNamed decls name = some t) : typeNamed (d :: decls) name = some t := by
  by_cases hne : name = d.name
  · subst hne
    -- a name that is declared again has to mean the same
    have hagain := hd.2.resolve_left (by simp [h])
    cases d with
    | typedef tinfo name' =>
      have hsame : declaredType (typeNamed decls) tinfo = typeNamed decls name' := hagain
      rw [typeNamed, Decl.name, if_pos rfl, hsame]
      exact h
    | struct place S items =>
      have hname : typeNamed decls S = some t := h
      rw [hstructs place S items hagain] at hname
      rw [typeNamed, Decl.name, if_pos rfl]
      exact hname
  · rw [typeNamed_of_ne hne, h]

/-- The name of a struct is its type. -/
theorem typeNamed_struct (hd : TypesFit decls) {place : String × Nat} {items : List Item}
    (h : .struct place name items ∈ decls) : typeNamed decls name = some (.struct name) := by
  induction decls generalizing place name items with
  | nil => cases h
  | cons d decls ih =>
    rcases List.mem_cons.mp h with rfl | hmem
    · exact if_pos rfl
    · exact typeNamed_of_fits hd.1 (fun _ _ _ hold => ih hd.2 hold) (ih hd.2 hmem)

/-- What a name means stays when another declaration fits. -/
theorem typeNamed_cons (hd : TypesFit (d :: decls)) (h : typeNamed decls name = some t) :
    typeNamed (d :: decls) name = some t :=
  typeNamed_of_fits hd.1 (fun _ _ _ hold => typeNamed_struct hd.2 hold) h

/-- The built-in names keep their meaning. -/
theorem typeNamed_builtin (hd : TypesFit decls) (h : builtinTypes.lookup name = some t) :
    typeNamed decls name = some t := by
  induction decls with
  | nil => exact h
  | cons d decls ih => exact typeNamed_cons hd (ih hd.tail)

/-- A `TypeInfo` that agrees with the header agrees with it after another declaration. -/
theorem WellTyped.cons (h : WellTyped decls tinfo t) (hd : TypesFit (d :: decls)) :
    WellTyped (d :: decls) tinfo t where
  name := typeNamed_cons hd h.name
  value := h.value
  vec_name hne := ⟨(h.vec_name hne).1, typeNamed_cons hd (h.vec_name hne).2⟩

/-- The declaration in the header has this type. -/
theorem WellTyped.declared (h : WellTyped decls tinfo t) :
    declaredType (typeNamed decls) tinfo = some (tinfo.cxxType t) := by
  rw [declaredType, TypeInfo.cxxType]
  split
  · split
    · next hne => exact (h.vec_name hne).2
    · rw [h.name, Option.map_some]
  · exact h.name

/-! ## The tables of the parser -/

/-- The tables agree with the header. -/
structure TablesSound (st : ParserState) (decls : List Decl) : Prop where
  typedefs : ∀ name tinfo, st.getTypeInfo name = some tinfo →
    ∃ t, WellTyped decls tinfo t ∧ typeNamed decls name = some (tinfo.cxxType t)
  structs : ∀ name, st.isStruct name = true → typeNamed decls name = some (.struct name)

/-- The tables agree with the header after another declaration. -/
theorem TablesSound.cons {st : ParserState} (h : TablesSound st decls)
    (hd : TypesFit (d :: decls)) : TablesSound st (d :: decls) where
  typedefs name tinfo hinfo := by
    obtain ⟨t, hwell, hname⟩ := h.typedefs name tinfo hinfo
    exact ⟨t, hwell.cons hd, typeNamed_cons hd hname⟩
  structs name hstruct := typeNamed_cons hd (h.structs name hstruct)

namespace Parser

variable {st : ParserState} {tok : Tok} {toks toks' : List Tok}

/-- The type that a token names is well typed. -/
theorem baseType_sound (h : TablesSound st decls) (hd : TypesFit decls)
    (hbase : baseType st tok = some tinfo) : ∃ t, WellTyped decls tinfo t := by
  -- only a base type, `string` and a name give a type
  cases tok <;> simp only [baseType, Option.some.injEq, reduceCtorEq] at hbase
  case BASE t =>
    subst hbase
    refine ⟨.base t, ⟨typeNamed_builtin hd ?_, .base t, fun hne => absurd rfl hne⟩⟩
    cases t <;> rfl
  case STRING =>
    subst hbase
    exact ⟨.string, ⟨typeNamed_builtin hd rfl, .string, fun hne => absurd rfl hne⟩⟩
  case VAR name =>
    -- a name is looked up among the typedefs first, then among the structs
    cases hinfo : st.getTypeInfo name with
    | some info =>
      obtain ⟨t, hwell, hname⟩ := h.typedefs name info hinfo
      simp only [hinfo] at hbase
      rw [TypeInfo.cxxType] at hname
      split at hbase
      · next hvec =>
        obtain rfl := Option.some.inj hbase
        rw [if_pos hvec] at hname
        exact ⟨t, hwell.name, hwell.value, fun _ => ⟨hvec, hname⟩⟩
      · next hvec =>
        obtain rfl := Option.some.inj hbase
        rw [if_neg hvec] at hname
        exact ⟨t, hname, hwell.value, fun hne => absurd rfl hne⟩
    | none =>
      simp only [hinfo, Option.ite_none_right_eq_some, Option.some.injEq] at hbase
      obtain ⟨hstruct, rfl⟩ := hbase
      exact ⟨.struct name, h.structs name hstruct, .struct name, fun hne => absurd rfl hne⟩

/-- A data type of the grammar is well typed, as itself or as the elements of a vector. -/
theorem dataType_sound (h : TablesSound st decls) (hd : TypesFit decls)
    (hdata : dataType st toks = some (tinfo, toks')) : ∃ t, WellTyped decls tinfo t := by
  rw [dataType.eq_def] at hdata
  split at hdata
  · next tok rest =>
    cases hbase : baseType st tok with
    | none => simp [hbase] at hdata
    | some info =>
      obtain ⟨t, hwell⟩ := baseType_sound h hd hbase
      simp only [hbase, Option.ite_none_left_eq_some, Option.some.injEq, Prod.mk.injEq] at hdata
      obtain ⟨hvec, rfl, -⟩ := hdata
      -- a type that is no vector has no vector's name
      refine ⟨t, hwell.name, hwell.value, fun hne => ?_⟩
      exact absurd (hwell.vec_name hne).1 hvec
  · rw [Option.map_eq_some_iff] at hdata
    obtain ⟨info, hbase, heq⟩ := hdata
    obtain ⟨rfl, -⟩ := Prod.mk.inj heq
    exact baseType_sound h hd hbase
  · cases hdata

end Parser

/-! ## The variables of a body -/

mutual

/-- The variables that a body reads or writes. -/
def Block.vars : Block → List (TypeInfo × String)
  | .done => []
  | .readWriteVar tinfo varName next => (tinfo, varName) :: next.vars
  | .value _ _ next => next.vars
  | .ifs _ body rest next => body.vars ++ rest.vars ++ next.vars

/-- The variables that the branches read or write. -/
def Branches.vars : Branches → List (TypeInfo × String)
  | .done => []
  | .elseIf _ body rest => body.vars ++ rest.vars
  | .els body rest => body.vars ++ rest.vars

end

/-- A list of reads or writes adds its variables in front. -/
theorem Block.vars_foldr (vars : List (TypeInfo × String)) (next : Block) :
    (vars.foldr (fun v next => Block.readWriteVar v.1 v.2 next) next).vars = vars ++ next.vars := by
  induction vars with
  | nil => rfl
  | cons v vars ih => rw [List.foldr_cons, Block.vars, ih, List.cons_append]

/-- The variables are declared, with their types. -/
def InVars (gVars : Vars) (vars : List (TypeInfo × String)) : Prop :=
  ∀ v ∈ vars, gVars.lookup v.2 = some v.1

/-- Variables of two parts of a body. -/
theorem InVars.append {gVars : Vars} {vars vars' : List (TypeInfo × String)}
    (h : InVars gVars vars) (h' : InVars gVars vars') : InVars gVars (vars ++ vars') := by
  intro v hv
  rcases List.mem_append.mp hv with hv | hv
  · exact h v hv
  · exact h' v hv

/-- An empty body has no variables. -/
theorem InVars.nil {gVars : Vars} : InVars gVars [] := fun _ h => absurd h List.not_mem_nil

namespace Parser

variable {gVars : Vars} {toks toks' : List Tok}

/-- The variables of a list are looked up as they are read. -/
theorem rwList_vars {vars : List (TypeInfo × String)} (h : rwList gVars toks = some (vars, toks')) :
    InVars gVars vars := by
  -- a variable, then a comma or the end of the list
  induction toks using rwList.induct generalizing vars toks' with
  | case1 varname toks ih =>
    simp only [rwList, Option.bind_eq_bind, Option.bind_eq_some_iff] at h
    obtain ⟨tinfo, hlookup, h⟩ := h
    have hhead : InVars gVars [(tinfo, varname)] := by
      intro v hv
      obtain rfl := List.mem_singleton.mp hv
      exact hlookup
    split at h
    · simp only [Option.some.injEq, Prod.mk.injEq] at h
      exact h.1 ▸ hhead
    · simp only [Option.bind_eq_some_iff] at h
      obtain ⟨⟨vars', toks''⟩, hrest, heq⟩ := h
      simp only [Option.some.injEq, Prod.mk.injEq] at heq
      rw [← heq.1]
      exact hhead.append (ih hrest)
    · cases h
  | case2 toks hne =>
    rw [rwList] at h
    · cases h
    · exact hne

/-- The bodies that are read from some fuel have declared variables. -/
theorem bodies_vars (gVars : Vars) (fuel : Nat) :
    (∀ toks body toks', function gVars fuel toks = some (body, toks') → InVars gVars body.vars) ∧
    (∀ toks body toks', area gVars fuel toks = some (body, toks') → InVars gVars body.vars) ∧
    ∀ toks rest toks', branches gVars fuel toks = some (rest, toks') → InVars gVars rest.vars := by
  induction fuel with
  | zero =>
    refine ⟨?_, ?_, ?_⟩ <;> intro toks b toks' h
    · simp [function] at h
    · simp [area] at h
    · simp [branches] at h
  | succ fuel ih =>
    obtain ⟨ihFunction, ihArea, ihBranches⟩ := ih
    refine ⟨?_, ?_, ?_⟩
    -- `__function`, by its next token
    · intro toks body toks' h
      unfold function at h
      split at h
      · exact ihFunction _ _ _ h
      · simp only [Option.bind_eq_bind, Option.bind_eq_some_iff, Option.some.injEq] at h
        obtain ⟨⟨vars, rest⟩, hvars, ⟨next, rest'⟩, hnext, heq⟩ := h
        obtain ⟨rfl, -⟩ := Prod.mk.inj heq
        rw [Block.vars_foldr]
        exact (rwList_vars hvars).append (ihFunction _ _ _ hnext)
      · simp only [Option.bind_eq_bind, Option.bind_eq_some_iff, Option.some.injEq] at h
        obtain ⟨-, -, rest, -, ⟨exp, rest'⟩, -, ⟨next, rest''⟩, hnext, heq⟩ := h
        obtain ⟨rfl, -⟩ := Prod.mk.inj heq
        rw [Block.vars]
        exact ihFunction _ _ _ hnext
      · simp only [Option.bind_eq_bind, Option.bind_eq_some_iff, Option.some.injEq] at h
        obtain ⟨⟨cond, _⟩, -, ⟨body, _⟩, hbody, ⟨rest, _⟩, hrest, ⟨next, _⟩, hnext, heq⟩ := h
        obtain ⟨rfl, -⟩ := Prod.mk.inj heq
        rw [Block.vars]
        exact ((ihArea _ _ _ hbody).append (ihBranches _ _ _ hrest)).append (ihFunction _ _ _ hnext)
      · simp only [Option.some.injEq, Prod.mk.injEq] at h
        rw [← h.1, Block.vars]
        exact .nil
    -- the braces of a branch
    · intro toks body toks' h
      simp only [area, Option.bind_eq_bind, Option.bind_eq_some_iff, Option.some.injEq] at h
      obtain ⟨rest, -, ⟨body, _⟩, hbody, _, -, heq⟩ := h
      obtain ⟨rfl, -⟩ := Prod.mk.inj heq
      exact ihFunction _ _ _ hbody
    -- what follows a branch
    · intro toks rest toks' h
      unfold branches at h
      split at h
      · simp only [Option.bind_eq_bind, Option.bind_eq_some_iff, Option.some.injEq] at h
        obtain ⟨⟨cond, _⟩, -, ⟨body, _⟩, hbody, ⟨rest, _⟩, hrest, heq⟩ := h
        obtain ⟨rfl, -⟩ := Prod.mk.inj heq
        rw [Branches.vars]
        exact (ihArea _ _ _ hbody).append (ihBranches _ _ _ hrest)
      · simp only [Option.bind_eq_bind, Option.bind_eq_some_iff, Option.some.injEq] at h
        obtain ⟨⟨body, _⟩, hbody, ⟨rest, _⟩, hrest, heq⟩ := h
        obtain ⟨rfl, -⟩ := Prod.mk.inj heq
        rw [Branches.vars]
        exact (ihArea _ _ _ hbody).append (ihBranches _ _ _ hrest)
      · simp only [Option.some.injEq, Prod.mk.injEq] at h
        rw [← h.1, Branches.vars]
        exact .nil

end Parser

/-! ## Accepted files -/

/-- The items of a struct after the variables `gVars`. -/
def ItemsSound (decls : List Decl) : Vars → List Item → Prop
  | _, [] => True
  | gVars, .var tinfo varName _ :: items =>
    (∃ t, WellTyped decls tinfo t) ∧ ItemsSound decls ((varName, tinfo) :: gVars) items
  | gVars, .read body :: items => InVars gVars body.vars ∧ ItemsSound decls gVars items
  | gVars, .write body :: items => InVars gVars body.vars ∧ ItemsSound decls gVars items

/-- The items stay well typed after another declaration. -/
theorem ItemsSound.cons {gVars : Vars} {items : List Item} (h : ItemsSound decls gVars items)
    (hd : TypesFit (d :: decls)) : ItemsSound (d :: decls) gVars items := by
  induction items generalizing gVars with
  | nil => exact h
  | cons item items ih =>
    cases item with
    | var tinfo varName exp =>
      obtain ⟨⟨t, hwell⟩, hrest⟩ := h
      exact ⟨⟨t, hwell.cons hd⟩, ih hrest⟩
    | read body => exact ⟨h.1, ih h.2⟩
    | write body => exact ⟨h.1, ih h.2⟩

/-- The tables and the structs agree with the header, if it declares every name once. -/
def StateSound (st : ParserState) : Prop :=
  TypesFit st.decls → TablesSound st st.decls ∧
    ∀ place name items, .struct place name items ∈ st.decls → ItemsSound st.decls [] items

namespace Parser

variable {st st' : ParserState} {gVars : Vars} {toks toks' : List Tok}

/-- The items of a struct are well typed, the variables of its methods declared before them. -/
theorem structItems_sound (h : TablesSound st decls) (hd : TypesFit decls) {fuel : Nat}
    {items : List Item} (hitems : structItems st fuel gVars toks = some (items, toks')) :
    ItemsSound decls gVars items := by
  induction fuel generalizing gVars toks toks' items with
  | zero => simp [structItems] at hitems
  | succ fuel ih =>
    unfold structItems at hitems
    split at hitems
    -- a semicolon, the end, the two methods, then a variable
    · exact ih hitems
    · simp only [Option.some.injEq, Prod.mk.injEq] at hitems
      rw [← hitems.1]
      trivial
    · simp only [Option.bind_eq_bind, Option.bind_eq_some_iff, Option.some.injEq] at hitems
      obtain ⟨⟨body, _⟩, hbody, ⟨items, _⟩, hrest, heq⟩ := hitems
      obtain ⟨rfl, -⟩ := Prod.mk.inj heq
      exact ⟨(bodies_vars gVars fuel).2.1 _ _ _ hbody, ih hrest⟩
    · simp only [Option.bind_eq_bind, Option.bind_eq_some_iff, Option.some.injEq] at hitems
      obtain ⟨⟨body, _⟩, hbody, ⟨items, _⟩, hrest, heq⟩ := hitems
      obtain ⟨rfl, -⟩ := Prod.mk.inj heq
      exact ⟨(bodies_vars gVars fuel).2.1 _ _ _ hbody, ih hrest⟩
    · simp only [Option.bind_eq_bind, Option.bind_eq_some_iff] at hitems
      obtain ⟨⟨tinfo, rest⟩, hdata, hitems⟩ := hitems
      have hwell := dataType_sound h hd hdata
      split at hitems
      · simp only [Option.bind_eq_some_iff, Option.some.injEq] at hitems
        obtain ⟨_, -, ⟨items, _⟩, hrest, heq⟩ := hitems
        obtain ⟨rfl, -⟩ := Prod.mk.inj heq
        exact ⟨hwell, ih hrest⟩
      · simp only [Option.bind_eq_some_iff, Option.some.injEq] at hitems
        obtain ⟨⟨items, _⟩, hrest, heq⟩ := hitems
        obtain ⟨rfl, -⟩ := Prod.mk.inj heq
        exact ⟨hwell, ih hrest⟩
      · cases hitems

/-- A struct; its name is known in its own body. -/
theorem struct_sound (h : StateSound st) {file : String} {fuel : Nat}
    (hstruct : struct file st fuel toks = some (st', toks')) : StateSound st' := by
  unfold struct at hstruct
  split at hstruct
  · next name rest =>
    simp only [Option.bind_eq_bind, Option.bind_eq_some_iff, Option.some.injEq] at hstruct
    obtain ⟨⟨items, _⟩, hitems, heq⟩ := hstruct
    obtain ⟨rfl, -⟩ := Prod.mk.inj heq
    intro hd
    obtain ⟨htables, hstructs⟩ := h hd.tail
    have htables' : TablesSound (st.addStruct name)
        (.struct (file, rest.length) name items :: st.decls) := by
      refine ⟨(htables.cons hd).typedefs, fun name' hname' => ?_⟩
      rw [ParserState.isStruct, ParserState.addStruct, List.contains_cons, Bool.or_eq_true] at hname'
      rcases hname' with heq | hold
      · obtain rfl := eq_of_beq heq
        exact if_pos rfl
      · exact (htables.cons hd).structs name' hold
    refine ⟨⟨htables'.typedefs, htables'.structs⟩, fun place' name' items' hmem => ?_⟩
    rcases List.mem_cons.mp hmem with heq | hold
    · obtain ⟨-, -, rfl⟩ := Decl.struct.inj heq
      exact structItems_sound htables' hd hitems
    · exact (hstructs place' name' items' hold).cons hd
  · cases hstruct

/-- A typedef; its name is known after it. -/
theorem typedef_sound (h : StateSound st) (htypedef : typedef st toks = some (st', toks')) :
    StateSound st' := by
  simp only [typedef, Option.bind_eq_bind, Option.bind_eq_some_iff] at htypedef
  obtain ⟨⟨tinfo, rest⟩, hdata, htypedef⟩ := htypedef
  split at htypedef
  · next name _ _ =>
    simp only [Option.some.injEq, Prod.mk.injEq] at htypedef
    obtain ⟨rfl, -⟩ := htypedef
    intro hd
    obtain ⟨htables, hstructs⟩ := h hd.tail
    obtain ⟨t, hwell⟩ := dataType_sound htables hd.tail hdata
    refine ⟨⟨fun name' info hinfo => ?_, (htables.cons hd).structs⟩, fun place' name' items' hmem => ?_⟩
    · rw [ParserState.getTypeInfo, ParserState.addTypeInfo, List.lookup_cons] at hinfo
      by_cases heq : name' = name
      · rw [heq, beq_self_eq_true] at hinfo
        obtain rfl := Option.some.inj hinfo
        refine ⟨t, hwell.cons hd, ?_⟩
        rw [heq]
        exact (if_pos rfl).trans hwell.declared
      · rw [beq_eq_false_iff_ne.mpr heq] at hinfo
        exact (htables.cons hd).typedefs name' info hinfo
    · -- the structs are those from before
      rcases List.mem_cons.mp hmem with heq | hold
      · cases heq
      · exact (hstructs place' name' items' hold).cons hd
  · cases htypedef

/-- A file and all files that it imports. -/
theorem start_sound {files : String → Option (List Tok)} {fuel : Nat} {file : String}
    (h : StateSound st) (hstart : start files fuel file st toks = some st') : StateSound st' := by
  induction fuel generalizing file st st' toks with
  | zero => simp [start] at hstart
  | succ fuel ih =>
    unfold start at hstart
    -- by the next declaration: the end, a semicolon, a typedef, a struct, an import
    split at hstart
    · exact Option.some.inj hstart ▸ h
    · exact ih h hstart
    · simp only [Option.bind_eq_bind, Option.bind_eq_some_iff] at hstart
      obtain ⟨⟨st₁, rest⟩, htypedef, hstart⟩ := hstart
      exact ih (typedef_sound h htypedef) hstart
    · simp only [Option.bind_eq_bind, Option.bind_eq_some_iff] at hstart
      obtain ⟨⟨st₁, rest⟩, hstruct, hstart⟩ := hstart
      exact ih (struct_sound h hstruct) hstart
    · simp only [Option.bind_eq_bind, Option.bind_eq_some_iff] at hstart
      obtain ⟨imported, -, st₁, himported, hstart⟩ := hstart
      exact ih (ih h himported) hstart
    · cases hstart

/-- The structs of an accepted file, when the header declares every name once. -/
theorem accepts_sound {files : String → Option (List Tok)} {file : String}
    (haccepts : Accepts files file decls) (hd : TypesFit decls) {place : String × Nat}
    {name : String} {items : List Item} (hstruct : .struct place name items ∈ decls) :
    ItemsSound decls [] items := by
  obtain ⟨fuel, toks, st, -, hstart, rfl⟩ := haccepts
  have hinit : StateSound .init := by
    refine fun _ => ⟨⟨fun name tinfo h => ?_, fun name h => ?_⟩, fun place name items h => ?_⟩
    · cases h
    · cases h
    · cases h
  exact (start_sound hinit hstart hd).2 place name items hstruct

end Parser

/-! ## Members -/

/-- The items of a struct are those of its declaration. -/
theorem mem_of_itemsOf {items : List Item} (h : itemsOf decls name = some items) :
    ∃ place, .struct place name items ∈ decls := by
  induction decls with
  | nil => cases h
  | cons d decls ih =>
    have hold (hrest : itemsOf decls name = some items) :
        ∃ place, .struct place name items ∈ d :: decls := by
      obtain ⟨place, hmem⟩ := ih hrest
      exact ⟨place, List.mem_cons_of_mem _ hmem⟩
    cases d with
    | typedef tinfo name' => exact hold h
    | struct place name' items' =>
      rw [itemsOf] at h
      split at h
      · next heq =>
        obtain rfl := Option.some.inj h
        rw [heq]
        exact ⟨place, List.mem_cons_self⟩
      · exact hold h

/-- The variables of a body are declared before it, with types that the header has. -/
theorem ItemsSound.vars {gVars : Vars} {items : List Item} (h : ItemsSound decls gVars items)
    (hvars : ∀ p ∈ gVars, ∃ t, WellTyped decls p.2 t) {isRead : Bool} {body : Block}
    (hbody : body ∈ items.filterMap (Item.body isRead)) {v : TypeInfo × String}
    (hv : v ∈ body.vars) :
    (v.2, v.1) ∈ gVars ++ items.filterMap Item.member ∧ ∃ t, WellTyped decls v.1 t := by
  induction items generalizing gVars with
  | nil => cases hbody
  | cons item items ih =>
    -- a body names variables that were declared before it
    have hfrom : InVars gVars body.vars →
        (v.2, v.1) ∈ gVars ++ (item :: items).filterMap Item.member ∧
          ∃ t, WellTyped decls v.1 t := by
      intro hin
      have hmem := mem_of_lookup (hin v hv)
      exact ⟨List.mem_append_left _ hmem, hvars _ hmem⟩
    cases item with
    | var tinfo x exp =>
      have hvars' : ∀ p ∈ (x, tinfo) :: gVars, ∃ t, WellTyped decls p.2 t := by
        intro p hp
        rcases List.mem_cons.mp hp with rfl | hp
        · exact h.1
        · exact hvars p hp
      obtain ⟨hmem, hwell⟩ := ih h.2 hvars' hbody
      -- the variable goes from what is to come to what is declared
      refine ⟨?_, hwell⟩
      have hcons : (Item.var tinfo x exp :: items).filterMap Item.member =
          (x, tinfo) :: items.filterMap Item.member := rfl
      rw [hcons]
      simp only [List.cons_append, List.mem_cons, List.mem_append] at hmem ⊢
      tauto
    | read b =>
      cases isRead with
      | true =>
        rcases List.mem_cons.mp hbody with rfl | hbody
        · exact hfrom h.1
        · exact ih h.2 hvars hbody
      | false => exact ih h.2 hvars hbody
    | write b =>
      cases isRead with
      | true => exact ih h.2 hvars hbody
      | false =>
        rcases List.mem_cons.mp hbody with rfl | hbody
        · exact hfrom h.1
        · exact ih h.2 hvars hbody

/-- A variable of a body is a member, and its type is what the parser takes it for. -/
theorem memberType_of_vars {files : String → Option (List Tok)} {file : String}
    (haccepts : Parser.Accepts files file decls) (hd : TypesFit decls) {S : String}
    (hm : ((members decls S).map Prod.fst).Nodup) {isRead : Bool} {body : Block}
    (hbody : body ∈ bodies decls S isRead) {v : TypeInfo × String} (hv : v ∈ body.vars) :
    (v.2, v.1) ∈ members decls S ∧
      ∃ t, WellTyped decls v.1 t ∧ memberType decls S v.2 = some (v.1.cxxType t) := by
  rw [bodies] at hbody
  cases hitems : itemsOf decls S with
  | none => simp [hitems] at hbody
  | some items =>
    rw [hitems] at hbody
    obtain ⟨place, hstruct⟩ := mem_of_itemsOf hitems
    have hsound := Parser.accepts_sound haccepts hd hstruct
    obtain ⟨hmem, t, hwell⟩ := hsound.vars (fun p hp => absurd hp List.not_mem_nil) hbody hv
    have hmember : (v.2, v.1) ∈ members decls S := by
      rw [members, hitems]
      exact hmem
    refine ⟨hmember, t, hwell, ?_⟩
    rw [memberType, lookup_of_mem hm hmember]
    exact hwell.declared

end Athena.Idl
