import Athena.Native.IdlEvents
import Athena.Spec.IdlTypes

/-!
# Chains of typedefs

A source is read as it is written (`Parser.trace`): its typedefs, structs and variables with
their type expressions, and what the parser knows of a variable.  A type expression means what
the typedef in force says at its own place (`named`, `TypeExpr.meaning`), and the parser knows
the same of all variables (`Agrees`).
-/

namespace Athena.Idl

/-! ## What types mean -/

/-- A type as it is written, without `vector`. -/
inductive TypeName where
  | base (t : BaseType)
  | string
  | name (x : String)
  deriving DecidableEq, Repr

/-- `vector<type>`, or the type. -/
structure TypeExpr where
  vector : Bool
  type : TypeName
  deriving DecidableEq, Repr

/-- What a type is. -/
inductive Ty where
  | base (t : BaseType)
  | string
  | struct (name : String)
  | vector (t : Ty)
  deriving DecidableEq, Repr

/-- What a source says, the last first; the parser passes `tinfo` on. -/
inductive Rec where
  | typedef (type : TypeExpr) (name : String)
  | struct (name : String)
  | var (type : TypeExpr) (name : String) (tinfo : TypeInfo)
  | readWrite (name : String) (tinfo : TypeInfo)

/-- What a type name means, where names mean `named`. -/
def TypeName.meaning (named : String → Option Ty) : TypeName → Option Ty
  | base t => some (.base t)
  | string => some .string
  | name x => named x

/-- What a type expression means, where names mean `named`. -/
def TypeExpr.meaning (named : String → Option Ty) (e : TypeExpr) : Option Ty :=
  if e.vector then (e.type.meaning named).map .vector else e.type.meaning named

/-- The last typedef of the name is in force, and means what it meant where it stands; a struct
has its name if there is no typedef. -/
def named : List Rec → String → Option Ty
  | [], _ => none
  | .typedef type x :: older, name =>
    if x = name then type.meaning (named older) else named older name
  | .struct x :: older, name =>
    if x = name then (named older name).or (some (.struct x)) else named older name
  | .var _ _ _ :: older, name => named older name
  | .readWrite _ _ :: older, name => named older name

/-- The value of a type that is no vector. -/
def Ty.value : Ty → Option TypeValue
  | base t => some (.base t)
  | string => some .STRING
  | struct _ => some .STRUCT
  | vector _ => none

/-- The parser knows what the type is: `type` is 1 for a vector, and `value` is that of the type
or of its elements, which are no vectors. -/
def Agrees (tinfo : TypeInfo) : Ty → Prop
  | .vector t => tinfo.vector = true ∧ t.value = some tinfo.value
  | t => tinfo.vector = false ∧ t.value = some tinfo.value

/-- No vector of vectors. -/
def Ty.Flat : Ty → Prop
  | vector (vector _) => False
  | _ => True

/-- The declaration of a variable of the struct, and what stands before it. -/
def lastVar : List Rec → String → Option (TypeExpr × List Rec)
  | [], _ => none
  | .typedef _ _ :: older, name => lastVar older name
  | .struct _ :: _, _ => none
  | .var type x _ :: older, name => if x = name then some (type, older) else lastVar older name
  | .readWrite _ _ :: older, name => lastVar older name

/-- What the parser knows is what the source says. -/
def Rec.Resolved (older : List Rec) : Rec → Prop
  | .typedef type _ => ∃ t, type.meaning (named older) = some t ∧ t.Flat
  | .struct _ => True
  | .var type _ tinfo => ∃ t, type.meaning (named older) = some t ∧ t.Flat ∧ Agrees tinfo t
  | .readWrite name tinfo => ∃ type before t, lastVar older name = some (type, before) ∧
      type.meaning (named before) = some t ∧ Agrees tinfo t

/-- The parser knows what the source says, for all that it says. -/
def AllResolved : List Rec → Prop
  | [] => True
  | r :: older => r.Resolved older ∧ AllResolved older

/-- What the source says in one place is known there. -/
theorem AllResolved.at {newer older : List Rec} {r : Rec} (h : AllResolved (newer ++ r :: older)) :
    r.Resolved older := by
  induction newer with
  | nil => exact h.1
  | cons r' newer ih => exact ih h.2

/-! ## Reading a source -/

/-- The call that passes a `TypeInfo` on. -/
def Event.typed : Event → Option (TypeInfo × String)
  | .onVariable tinfo varName _ => some (tinfo, varName)
  | .onReadWriteVar tinfo varName => some (tinfo, varName)
  | _ => none

/-- What is passed on for a variable. -/
def Rec.typed : Rec → Option (TypeInfo × String)
  | .var _ name tinfo => some (tinfo, name)
  | .readWrite name tinfo => some (tinfo, name)
  | _ => none

namespace Parser

/-- The type that a token writes. -/
def readName : Tok → Option TypeName
  | .BASE t => some (.base t)
  | .STRING => some .string
  | .VAR x => some (.name x)
  | _ => none

/-- A type expression, and what follows it. -/
def readType : List Tok → Option (TypeExpr × List Tok)
  | .VECTOR :: .sym '<' :: tok :: .sym '>' :: toks => (readName tok).map fun x => (⟨true, x⟩, toks)
  | tok :: toks => (readName tok).map fun x => (⟨false, x⟩, toks)
  | [] => none

/-- A body reads or writes its variables, one after the other. -/
def used : List (TypeInfo × String) → List Rec → List Rec
  | [], recs => recs
  | v :: vars, recs => used vars (.readWrite v.2 v.1 :: recs)

/-- `structItems`, with what is read. -/
def traceItems (st : ParserState) : Nat → Vars → List Rec → List Tok → Option (List Rec × List Tok)
  | 0, _, _, _ => none
  | fuel + 1, gVars, recs, toks =>
    match toks with
    | .sym ';' :: toks => traceItems st fuel gVars recs toks
    | .sym '}' :: toks => some (recs, toks)
    | .READ :: toks => do
      let (body, toks) ← area gVars fuel toks
      traceItems st fuel gVars (used body.vars recs) toks
    | .WRITE :: toks => do
      let (body, toks) ← area gVars fuel toks
      traceItems st fuel gVars (used body.vars recs) toks
    | toks => do
      let (type, _) ← readType toks
      let (tinfo, toks) ← dataType st toks
      match toks with
      | .VAR varname :: .sym '=' :: toks => do
        let (_, toks) ← expre ((varname, tinfo) :: gVars) toks
        traceItems st fuel ((varname, tinfo) :: gVars) (.var type varname tinfo :: recs) toks
      | .VAR varname :: toks =>
        traceItems st fuel ((varname, tinfo) :: gVars) (.var type varname tinfo :: recs) toks
      | _ => none

/-- `start`, with what is read. -/
def trace (files : String → Option (List Tok)) :
    Nat → String → ParserState → List Rec → List Tok → Option (ParserState × List Rec)
  | 0, _, _, _, _ => none
  | fuel + 1, file, st, recs, toks =>
    match toks with
    | [] => some (st, recs)
    | .sym ';' :: toks => trace files fuel file st recs toks
    | .TYPEDEF :: toks =>
      match readType toks with
      | some (type, .VAR name :: _) => do
        let (st, toks) ← typedef st toks
        trace files fuel file st (.typedef type name :: recs) toks
      | _ => none
    | .STRUCT :: .VAR name :: .sym '{' :: body => do
      let (recs, _) ← traceItems (st.addStruct name) fuel [] (.struct name :: recs) body
      let (st, toks) ← struct file st fuel (.VAR name :: .sym '{' :: body)
      trace files fuel file st recs toks
    | .IMPORT :: toks => do
      let filename := getFileDir file ++ (importName toks).1
      let imported ← files filename
      let (st, recs) ← trace files fuel filename st recs imported
      trace files fuel file st recs (importName toks).2
    | _ => none

/-- What the source of a file says, with that of the files it imports in their places. -/
def Traces (files : String → Option (List Tok)) (file : String) (recs : List Rec) : Prop :=
  ∃ fuel toks st, files file = some toks ∧ trace files fuel file .init [] toks = some (st, recs)

end Parser

/-! ## The tables -/

/-- The tables of the parser hold what the names mean. -/
def TablesMean (st : ParserState) (recs : List Rec) : Prop :=
  ∀ name, match st.getTypeInfo name with
    | some info => ∃ t, named recs name = some t ∧ Agrees info t
    | none => named recs name = if st.isStruct name then some (.struct name) else none

/-- `gVars` holds the variables of the struct. -/
def VarsMean (gVars : Vars) (recs : List Rec) : Prop :=
  ∀ name info, gVars.lookup name = some info → (Rec.readWrite name info).Resolved recs

variable {st : ParserState} {recs : List Rec} {toks rest : List Tok} {tinfo info : TypeInfo}

/-- A type that is no vector has the value that the parser knows. -/
theorem Agrees.scalar {t : Ty} (h : Agrees info t) (hvector : info.vector = false) :
    t.value = some info.value := by
  cases t with
  | vector t => rw [h.1] at hvector; exact nomatch hvector
  | _ => exact h.2

/-- The parser knows no vector of vectors. -/
theorem Agrees.flat {t : Ty} (h : Agrees info t) : t.Flat := by
  cases t with
  | vector t =>
    cases t with
    | vector t => exact nomatch h.2
    | _ => trivial
  | _ => trivial

/-- A type that is no vector is known by its value. -/
theorem agrees_of_value {t : Ty} (hvector : info.vector = false) (h : t.value = some info.value) :
    Agrees info t := by
  cases t with
  | vector t => exact nomatch h
  | _ => exact ⟨hvector, h⟩

/-- A typedef: its name means its type from here on. -/
theorem TablesMean.typedef (h : TablesMean st recs) {type : TypeExpr} {t : Ty} (name : String)
    (ht : type.meaning (named recs) = some t) (hagrees : Agrees info t) :
    TablesMean (st.addTypeInfo name info) (.typedef type name :: recs) := by
  intro name'
  have hname := h name'
  rw [named]
  by_cases heq : name = name'
  · subst heq
    have hinfo : (st.addTypeInfo name info).getTypeInfo name = some info := List.lookup_cons_self
    rw [hinfo, if_pos rfl]
    exact ⟨t, ht, hagrees⟩
  · have hinfo : (st.addTypeInfo name info).getTypeInfo name' = st.getTypeInfo name' := by
      rw [ParserState.getTypeInfo, ParserState.addTypeInfo, List.lookup_cons,
        beq_eq_false_iff_ne.mpr (Ne.symm heq)]
      rfl
    rw [hinfo, if_neg heq]
    exact hname

/-- A struct: its name means itself, if no typedef has taken it. -/
theorem TablesMean.struct (h : TablesMean st recs) (name : String) :
    TablesMean (st.addStruct name) (.struct name :: recs) := by
  intro name'
  have hname := h name'
  have hinfo : (st.addStruct name).getTypeInfo name' = st.getTypeInfo name' := rfl
  have hstruct : (st.addStruct name).isStruct name' = (name' == name || st.isStruct name') :=
    List.contains_cons
  rw [named, hinfo, hstruct]
  by_cases heq : name = name'
  · subst heq
    rw [if_pos rfl, beq_self_eq_true, Bool.true_or, if_pos rfl]
    cases hlookup : st.getTypeInfo name with
    | some info =>
      -- the typedef stays in force
      rw [hlookup] at hname
      obtain ⟨t, ht, hagrees⟩ := hname
      exact ⟨t, by rw [ht, Option.some_or], hagrees⟩
    | none =>
      rw [hlookup] at hname
      rw [hname]
      cases st.isStruct name <;> rfl
  · rw [if_neg heq, beq_eq_false_iff_ne.mpr (Ne.symm heq), Bool.false_or]
    exact hname

namespace Parser

/-- The parser knows of a type name what it means. -/
theorem baseType_meaning (h : TablesMean st recs) {tok : Tok} (hbase : baseType st tok = some info) :
    ∃ x t, readName tok = some x ∧ x.meaning (named recs) = some t ∧ Agrees info t := by
  unfold baseType at hbase
  split at hbase
  · -- a base type, `string`, then a name
    rename_i t
    exact ⟨.base t, .base t, rfl, rfl, Option.some.inj hbase ▸ ⟨rfl, rfl⟩⟩
  · exact ⟨.string, .string, rfl, rfl, Option.some.inj hbase ▸ ⟨rfl, rfl⟩⟩
  · rename_i name
    have hname := h name
    split at hbase
    · rename_i info' hinfo
      rw [hinfo] at hname
      obtain ⟨t, ht, hagrees⟩ := hname
      refine ⟨.name name, t, rfl, ht, ?_⟩
      split at hbase
      · -- a vector under another name
        rw [← Option.some.inj hbase]
        cases t <;> exact hagrees
      · rename_i hvector
        have hvector := Bool.eq_false_iff.mpr hvector
        rw [← Option.some.inj hbase]
        exact agrees_of_value rfl (hagrees.scalar hvector)
    · rename_i hinfo
      rw [hinfo] at hname
      split at hbase
      · rename_i hstruct
        rw [if_pos hstruct] at hname
        exact ⟨.name name, .struct name, rfl, hname, Option.some.inj hbase ▸ ⟨rfl, rfl⟩⟩
      · exact nomatch hbase
  · exact nomatch hbase

/-- The parser knows of a type expression what it means. -/
theorem dataType_meaning (h : TablesMean st recs) (hdata : dataType st toks = some (info, rest)) :
    ∃ type t, readType toks = some (type, rest) ∧ type.meaning (named recs) = some t ∧
      Agrees info t := by
  unfold dataType at hdata
  -- `vector<x>`, where `x` must be no vector
  split at hdata
  · rename_i tok toks
    split at hdata
    next info' hbase =>
      obtain ⟨x, t, hread, hmeaning, hagrees⟩ := baseType_meaning h hbase
      split at hdata
      · exact nomatch hdata
      · rename_i hvector
        obtain ⟨rfl, rfl⟩ := Prod.mk.inj (Option.some.inj hdata)
        have hvalue := hagrees.scalar (Bool.eq_false_iff.mpr hvector)
        refine ⟨⟨true, x⟩, .vector t, ?_, ?_, rfl, hvalue⟩
        · rw [readType, hread]
          rfl
        · rw [TypeExpr.meaning, if_pos rfl, hmeaning]
          rfl
    next => exact nomatch hdata
  -- a type that stands alone
  · rename_i tok toks hnot
    obtain ⟨info', hbase, heq⟩ := Option.map_eq_some_iff.mp hdata
    obtain ⟨rfl, rfl⟩ := Prod.mk.inj heq
    obtain ⟨x, t, hread, hmeaning, hagrees⟩ := baseType_meaning h hbase
    refine ⟨⟨false, x⟩, t, ?_, ?_, hagrees⟩
    · rw [readType, hread]
      · rfl
      · exact hnot
    · exact hmeaning
  · exact nomatch hdata

/-- Variables that are used leave what the names mean. -/
theorem named_used (vars : List (TypeInfo × String)) (recs : List Rec) :
    named (used vars recs) = named recs := by
  induction vars generalizing recs with
  | nil => rfl
  | cons v vars ih => rw [used, ih]; rfl

/-- Variables that are used are no declarations. -/
theorem lastVar_used (vars : List (TypeInfo × String)) (recs : List Rec) :
    lastVar (used vars recs) = lastVar recs := by
  induction vars generalizing recs with
  | nil => rfl
  | cons v vars ih => rw [used, ih]; rfl

/-- Variables that are used leave those that are known. -/
theorem varsMean_used {gVars : Vars} {vars : List (TypeInfo × String)}
    (hg : VarsMean gVars recs) : VarsMean gVars (used vars recs) := by
  intro name info hlookup
  rw [Rec.Resolved, lastVar_used]
  exact hg name info hlookup

/-- A body uses variables that are known. -/
theorem used_resolved {gVars : Vars} {vars : List (TypeInfo × String)} (hvars : InVars gVars vars)
    (hg : VarsMean gVars recs) (h : AllResolved recs) : AllResolved (used vars recs) := by
  induction vars generalizing recs with
  | nil => exact h
  | cons v vars ih =>
    have hv : (Rec.readWrite v.2 v.1).Resolved recs :=
      hg v.2 v.1 (hvars v List.mem_cons_self)
    exact ih (fun w hw => hvars w (List.mem_cons_of_mem v hw))
      (@varsMean_used recs _ [v] hg) ⟨hv, h⟩

/-- What a body uses comes behind what the source has said. -/
theorem used_eq_append (vars : List (TypeInfo × String)) (recs : List Rec) :
    ∃ new, used vars recs = new ++ recs ∧ new.reverse.filterMap Rec.typed = vars := by
  induction vars generalizing recs with
  | nil => exact ⟨[], rfl, rfl⟩
  | cons v vars ih =>
    obtain ⟨new, hnew, htyped⟩ := ih (.readWrite v.2 v.1 :: recs)
    refine ⟨new ++ [Rec.readWrite v.2 v.1], ?_, ?_⟩
    · rw [used, hnew, List.append_assoc, List.singleton_append]
    · rw [List.reverse_append, List.reverse_singleton, List.singleton_append, List.filterMap_cons,
        htyped]
      rfl

/-- A variable is declared. -/
theorem varsMean_var {gVars : Vars} (hg : VarsMean gVars recs) {type : TypeExpr} {t : Ty}
    (name : String) (ht : type.meaning (named recs) = some t) (hagrees : Agrees info t) :
    VarsMean ((name, info) :: gVars) (.var type name info :: recs) := by
  intro name' info' hlookup
  by_cases heq : name = name'
  · subst heq
    obtain rfl := Option.some.inj (List.lookup_cons_self.symm.trans hlookup)
    exact ⟨type, recs, t, if_pos rfl, ht, hagrees⟩
  · rw [List.lookup_cons, beq_eq_false_iff_ne.mpr (Ne.symm heq)] at hlookup
    obtain ⟨type', before, t', hlast, ht', hagrees'⟩ := hg name' info' hlookup
    exact ⟨type', before, t', (if_neg heq).trans hlast, ht', hagrees'⟩

end Parser

/-! ## Accepted files -/

section

variable {text : Expr → String}

mutual

/-- The calls of a body are for its variables. -/
theorem Block.typed_events (b : Block) : (b.events text).filterMap Event.typed = b.vars := by
  cases b with
  | done => rfl
  | readWriteVar tinfo varName next => exact congrArg _ next.typed_events
  | value varName exp next => exact next.typed_events
  | ifs cond body rest next =>
    simp [Block.events, Block.vars, List.filterMap_cons, Event.typed, body.typed_events,
      rest.typed_events, next.typed_events]

/-- The calls for the branches pass their variables on. -/
theorem Branches.typed_events (r : Branches) : (r.events text).filterMap Event.typed = r.vars := by
  cases r with
  | done => rfl
  | elseIf cond body rest =>
    simp [Branches.events, Branches.vars, List.filterMap_cons, Event.typed, body.typed_events,
      rest.typed_events]
  | els body rest =>
    simp [Branches.events, Branches.vars, List.filterMap_cons, Event.typed, body.typed_events,
      rest.typed_events]

end

end

namespace Parser

variable {text : Expr → String}

/-- What follows a place in a struct: `new` is what it says, and `vars` are the variables of its
calls. -/
structure ReadsItems (st : ParserState) (recs : List Rec) (result : Option (List Rec × List Tok))
    (rest : List Tok) (vars : List (TypeInfo × String)) (new : List Rec) : Prop where
  trace : result = some (new ++ recs, rest)
  tables : TablesMean st (new ++ recs)
  resolved : AllResolved (new ++ recs)
  typed : new.reverse.filterMap Rec.typed = vars

/-- The variables of the calls for some items. -/
def itemsTyped (text : Expr → String) (items : List Item) : List (TypeInfo × String) :=
  (items.flatMap (Item.events text)).filterMap Event.typed

/-- The calls for a read method, then those of the rest. -/
theorem itemsTyped_read (text : Expr → String) (body : Block) (items : List Item) :
    itemsTyped text (.read body :: items) = body.vars ++ itemsTyped text items := by
  simp [itemsTyped, Item.events, List.filterMap_cons, Event.typed, body.typed_events]

/-- The calls for a write method, then those of the rest. -/
theorem itemsTyped_write (text : Expr → String) (body : Block) (items : List Item) :
    itemsTyped text (.write body :: items) = body.vars ++ itemsTyped text items := by
  simp [itemsTyped, Item.events, List.filterMap_cons, Event.typed, body.typed_events]

/-- From some fuel, members that are accepted are read. -/
def ItemsRead (text : Expr → String) (st : ParserState) (fuel : Nat) : Prop :=
  ∀ {gVars recs toks rest items}, structItems st fuel gVars toks = some (items, rest) →
    TablesMean st recs → VarsMean gVars recs → AllResolved recs →
      ∃ new, ReadsItems st recs (traceItems st fuel gVars recs toks) rest (itemsTyped text items) new

/-- The body of a method, and what follows it. -/
theorem ItemsRead.area {fuel : Nat} (ih : ItemsRead text st fuel) {gVars : Vars} {body : Block}
    {items : List Item} {toks' : List Tok} (harea : area gVars fuel toks = some (body, toks'))
    (hitems : structItems st fuel gVars toks' = some (items, rest)) (hst : TablesMean st recs)
    (hg : VarsMean gVars recs) (hrecs : AllResolved recs) :
    ∃ new, ReadsItems st recs
      ((Parser.area gVars fuel toks).bind fun p => traceItems st fuel gVars (used p.1.vars recs) p.2)
      rest (body.vars ++ itemsTyped text items) new := by
  have hvars : InVars gVars body.vars := (bodies_vars gVars fuel).2.1 _ _ _ harea
  have htables : TablesMean st (used body.vars recs) := by
    intro name
    rw [named_used]
    exact hst name
  obtain ⟨new, h⟩ := ih hitems htables (varsMean_used hg) (used_resolved hvars hg hrecs)
  obtain ⟨new', hnew', htyped'⟩ := used_eq_append body.vars recs
  refine ⟨new ++ new', ?_, ?_, ?_, ?_⟩
  · rw [harea, Option.bind_some, h.trace, hnew', List.append_assoc]
  · rw [List.append_assoc, ← hnew']
    exact h.tables
  · rw [List.append_assoc, ← hnew']
    exact h.resolved
  · rw [List.reverse_append, List.filterMap_append, h.typed, htyped']

/-- A variable, and what follows it. -/
theorem ItemsRead.var {fuel : Nat} (ih : ItemsRead text st fuel) {gVars : Vars} {items : List Item}
    {type : TypeExpr} {t : Ty} {name : String} (ht : type.meaning (named recs) = some t)
    (hagrees : Agrees info t)
    (hitems : structItems st fuel ((name, info) :: gVars) toks = some (items, rest))
    (hst : TablesMean st recs) (hg : VarsMean gVars recs) (hrecs : AllResolved recs) :
    ∃ new, ReadsItems st recs
      (traceItems st fuel ((name, info) :: gVars) (.var type name info :: recs) toks) rest
      ((info, name) :: itemsTyped text items) new := by
  obtain ⟨new, h⟩ := @ih _ (.var type name info :: recs) _ _ _ hitems hst
    (varsMean_var hg name ht hagrees) ⟨⟨t, ht, hagrees.flat, hagrees⟩, hrecs⟩
  refine ⟨new ++ [Rec.var type name info], ?_, ?_, ?_, ?_⟩
  · rw [h.trace, List.append_assoc, List.singleton_append]
  · rw [List.append_assoc, List.singleton_append]
    exact h.tables
  · rw [List.append_assoc, List.singleton_append]
    exact h.resolved
  · rw [List.reverse_append, List.reverse_singleton, List.singleton_append, List.filterMap_cons,
      h.typed]
    rfl

/-- Members that are accepted are read, whatever the fuel is. -/
theorem items_read (text : Expr → String) (st : ParserState) (fuel : Nat) :
    ItemsRead text st fuel := by
  induction fuel with
  | zero =>
    intro gVars recs toks rest items h
    cases h
  | succ fuel ih =>
    intro gVars recs toks rest items h hst hg hrecs
    unfold structItems at h
    -- a semicolon, the end, the two methods, then a variable
    split at h
    · exact ih h hst hg hrecs
    -- by then all has been said
    · obtain ⟨rfl, rfl⟩ := Prod.mk.inj (Option.some.inj h)
      exact ⟨[], rfl, hst, hrecs, rfl⟩
    · simp only [Option.bind_eq_bind, Option.bind_eq_some_iff, Option.some.injEq] at h
      obtain ⟨⟨body, toks'⟩, harea, ⟨items', rest'⟩, hitems, heq⟩ := h
      obtain ⟨rfl, rfl⟩ := Prod.mk.inj heq
      rw [itemsTyped_read]
      exact ih.area harea hitems hst hg hrecs
    · simp only [Option.bind_eq_bind, Option.bind_eq_some_iff, Option.some.injEq] at h
      obtain ⟨⟨body, toks'⟩, harea, ⟨items', rest'⟩, hitems, heq⟩ := h
      obtain ⟨rfl, rfl⟩ := Prod.mk.inj heq
      rw [itemsTyped_write]
      exact ih.area harea hitems hst hg hrecs
    · obtain ⟨⟨info, toks'⟩, hdata, h⟩ := Option.bind_eq_some_iff.mp h
      obtain ⟨type, t, htype, ht, hagrees⟩ := dataType_meaning hst hdata
      rw [traceItems]
      · rw [htype, hdata]
        dsimp only at h
        -- a variable is read by its type, with its value or without
        split at h
        · rename_i varname toks
          simp only [Option.bind_eq_bind, Option.bind_eq_some_iff, Option.some.injEq] at h
          obtain ⟨⟨exp, toks'⟩, hexpre, ⟨items', rest'⟩, hitems, heq⟩ := h
          obtain ⟨rfl, rfl⟩ := Prod.mk.inj heq
          have hvar := ih.var ht hagrees hitems hst hg hrecs
          simp only [Option.bind_eq_bind, Option.bind_some, hexpre]
          exact hvar
        · rename_i varname toks hassign
          simp only [Option.bind_eq_bind, Option.bind_eq_some_iff, Option.some.injEq] at h
          obtain ⟨⟨items', rest'⟩, hitems, heq⟩ := h
          obtain ⟨rfl, rfl⟩ := Prod.mk.inj heq
          have hvar := ih.var ht hagrees hitems hst hg hrecs
          simp only [Option.bind_eq_bind, Option.bind_some]
          exact hvar
        · cases h
      all_goals assumption

/-- What a source says from here: `new`, with the calls of the parser among it. -/
structure ReadsFile (text : Expr → String) (st : ParserState) (recs : List Rec)
    (result : Option (ParserState × List Rec)) (evs : Option (List Event)) (new : List Rec) :
    Prop where
  trace : result = some (st, new ++ recs)
  tables : TablesMean st (new ++ recs)
  resolved : AllResolved (new ++ recs)
  calls : ∀ evs' ∈ evs, (evs'.filterMap Event.typed).Sublist (new.reverse.filterMap Rec.typed)

/-- A typedef that is accepted is read. -/
theorem typedef_read {st' : ParserState} (h : typedef st toks = some (st', rest))
    (hst : TablesMean st recs) (hrecs : AllResolved recs) :
    ∃ type name toks' info, readType toks = some (type, .VAR name :: toks') ∧
      st' = st.addTypeInfo name info ∧ TablesMean st' (.typedef type name :: recs) ∧
      AllResolved (.typedef type name :: recs) := by
  obtain ⟨⟨info, toks'⟩, hdata, h⟩ := Option.bind_eq_some_iff.mp h
  obtain ⟨type, t, htype, ht, hagrees⟩ := dataType_meaning hst hdata
  dsimp only at h
  split at h
  · rename_i name toks
    obtain ⟨rfl, rfl⟩ := Prod.mk.inj (Option.some.inj h)
    exact ⟨type, name, toks, info, htype, rfl, hst.typedef name ht hagrees,
      ⟨t, ht, hagrees.flat⟩, hrecs⟩
  · exact nomatch h

/-- A struct that is accepted has a name, a brace and members. -/
theorem struct_eq_some {file : String} {fuel : Nat} {st' : ParserState}
    (h : struct file st fuel toks = some (st', rest)) :
    ∃ name body items, toks = .VAR name :: .sym '{' :: body ∧
      structItems (st.addStruct name) fuel [] body = some (items, rest) ∧
      st' = { st.addStruct name with
        decls := .struct (file, body.length) name items :: (st.addStruct name).decls } := by
  unfold struct at h
  split at h
  · rename_i name body
    obtain ⟨⟨items, toks'⟩, hitems, heq⟩ := Option.bind_eq_some_iff.mp h
    obtain ⟨rfl, rfl⟩ := Prod.mk.inj (Option.some.inj heq)
    exact ⟨name, body, items, rfl, hitems, rfl⟩
  · exact nomatch h

/-- A source that the parser accepts. -/
theorem file_read (text : Expr → String) {files : String → Option (List Tok)} {fuel : Nat}
    {file : String} {st' : ParserState} (h : start files fuel file st toks = some st')
    (hst : TablesMean st recs) (hrecs : AllResolved recs) :
    ∃ new, ReadsFile text st' recs (trace files fuel file st recs toks)
      (events text files fuel file st toks) new := by
  induction fuel generalizing file st st' recs toks with
  | zero => cases h
  | succ fuel ih =>
    unfold start at h
    -- the end, a semicolon, then the three declarations
    split at h
    · obtain rfl := Option.some.inj h
      refine ⟨[], rfl, hst, hrecs, fun evs hevs => ?_⟩
      obtain rfl := Option.some.inj hevs
      exact .refl []
    · exact ih h hst hrecs
    -- what the rest adds comes behind the typedef
    · rename_i toks
      obtain ⟨⟨st₁, toks₁⟩, htypedef, h⟩ := Option.bind_eq_some_iff.mp h
      obtain ⟨type, name, toks', info, htype, hst₁, htables, hresolved⟩ :=
        typedef_read htypedef hst hrecs
      obtain ⟨new, hnew⟩ := ih h htables hresolved
      refine ⟨new ++ [Rec.typedef type name], ?_, ?_, ?_, fun evs hevs => ?_⟩
      · rw [trace, htype, htypedef]
        exact hnew.trace.trans (by rw [List.append_assoc, List.singleton_append])
      · rw [List.append_assoc, List.singleton_append]
        exact hnew.tables
      · rw [List.append_assoc, List.singleton_append]
        exact hnew.resolved
      · rw [events, htypedef] at hevs
        simp only [Option.bind_eq_bind, Option.bind_some] at hevs
        obtain ⟨evs', hevs', heq⟩ := Option.bind_eq_some_iff.mp hevs
        rw [hst₁] at heq
        rw [← Option.some.inj heq, List.reverse_append]
        exact hnew.calls evs' hevs'
    -- the items of the struct come between its name and the rest
    · rename_i toks
      obtain ⟨⟨st₁, toks₁⟩, hstruct, hnext⟩ := Option.bind_eq_some_iff.mp h
      obtain ⟨name, body, items, rfl, hitems, hst₁⟩ := struct_eq_some hstruct
      have hvars : VarsMean [] (.struct name :: recs) := by
        intro name info hlookup
        cases hlookup
      obtain ⟨new₁, h₁⟩ := items_read text _ fuel hitems (hst.struct name) hvars ⟨trivial, hrecs⟩
      have htables : TablesMean st₁ (new₁ ++ .struct name :: recs) := hst₁ ▸ h₁.tables
      obtain ⟨new, hnew⟩ := ih hnext htables h₁.resolved
      have hassoc : new ++ (new₁ ++ [Rec.struct name]) ++ recs =
          new ++ (new₁ ++ Rec.struct name :: recs) := by
        simp
      refine ⟨new ++ (new₁ ++ [Rec.struct name]), ?_, ?_, ?_, fun evs hevs => ?_⟩
      · rw [trace, h₁.trace, hassoc]
        simp only [Option.bind_eq_bind, Option.bind_some, hstruct]
        exact hnew.trace
      · rw [hassoc]
        exact hnew.tables
      · rw [hassoc]
        exact hnew.resolved
      · rw [events, hstruct] at hevs
        simp only [Option.bind_eq_bind, Option.bind_some] at hevs
        obtain ⟨evs', hevs', heq⟩ := Option.bind_eq_some_iff.mp hevs
        have hstructEvents : st₁.decls.head?.elim [] (Decl.events text) =
            .onEnterStruct name :: (items.flatMap (Item.events text) ++ [Event.onExitStruct]) := by
          rw [hst₁]
          rfl
        have htyped : (st₁.decls.head?.elim [] (Decl.events text)).filterMap Event.typed =
            itemsTyped text items := by
          rw [hstructEvents]
          simp [itemsTyped, List.filterMap_cons, Event.typed]
        rw [← Option.some.inj heq, List.filterMap_append, htyped, ← h₁.typed, List.reverse_append,
          List.filterMap_append, List.reverse_append]
        exact List.Sublist.append_left (hnew.calls evs' hevs') _
    -- an imported file is read first, but without events
    · rename_i toks
      obtain ⟨imported, hfiles, h⟩ := Option.bind_eq_some_iff.mp h
      obtain ⟨st₁, himported, h⟩ := Option.bind_eq_some_iff.mp h
      obtain ⟨new₁, h₁⟩ := ih himported hst hrecs
      obtain ⟨new, hnew⟩ := ih h h₁.tables h₁.resolved
      refine ⟨new ++ new₁, ?_, ?_, ?_, fun evs hevs => ?_⟩
      · rw [trace, hfiles, List.append_assoc]
        simp only [Option.bind_eq_bind, Option.bind_some, h₁.trace]
        exact hnew.trace
      · rw [List.append_assoc]
        exact hnew.tables
      · rw [List.append_assoc]
        exact hnew.resolved
      · rw [events, hfiles] at hevs
        simp only [Option.bind_eq_bind, Option.bind_some, himported] at hevs
        obtain ⟨evs', hevs', heq⟩ := Option.bind_eq_some_iff.mp hevs
        rw [← Option.some.inj heq, List.reverse_append, List.filterMap_append]
        exact (hnew.calls evs' hevs').trans (List.sublist_append_right _ _)
    · cases h

end Parser

/-- What the parser passes on is what the typedefs in force say, and no declaration is a vector of
vectors. -/
theorem typedef_resolution (text : Expr → String) (files : String → Option (List Tok))
    (file : String) (evs : List Event) (h : Parser.Sends text files file evs) :
    ∃ recs, Parser.Traces files file recs ∧
      (evs.filterMap Event.typed).Sublist (recs.reverse.filterMap Rec.typed) ∧
      ∀ newer (r : Rec) older, recs = newer ++ r :: older → r.Resolved older := by
  obtain ⟨fuel, toks, htoks, hevents⟩ := h
  have hstart := Parser.events_isSome text files fuel file .init toks
  rw [hevents] at hstart
  obtain ⟨st, hstart⟩ := Option.isSome_iff_exists.mp hstart.symm
  have hst : TablesMean .init [] := fun name => rfl
  obtain ⟨recs, hread⟩ := Parser.file_read text hstart hst trivial
  have hcalls := hread.calls evs hevents
  have hresolved := hread.resolved
  have htrace := hread.trace
  rw [List.append_nil] at hresolved htrace
  refine ⟨recs, ⟨fuel, toks, st, htoks, htrace⟩, hcalls, fun newer r older heq => ?_⟩
  rw [heq] at hresolved
  exact hresolved.at

/-- `typedef int32 a  typedef vector<a> v  typedef v w  struct s { w x  read { [x] } }`. -/
theorem typedef_resolution_chain : ∃ recs, Parser.Traces (fun _ => some [.TYPEDEF, .BASE .INT32,
      .VAR "a", .TYPEDEF, .VECTOR, .sym '<', .VAR "a", .sym '>', .VAR "v", .TYPEDEF, .VAR "v",
      .VAR "w", .STRUCT, .VAR "s", .sym '{', .VAR "w", .VAR "x", .READ, .sym '{', .sym '[',
      .VAR "x", .sym ']', .sym '}', .sym '}']) "s.idl" recs ∧
    List.Sublist [(⟨true, .base .INT32, "a", "w"⟩, "x"), (⟨true, .base .INT32, "a", "w"⟩, "x")]
      (recs.reverse.filterMap Rec.typed) ∧
    ∀ newer (r : Rec) older, recs = newer ++ r :: older → r.Resolved older := by
  let w : TypeInfo := ⟨true, .base .INT32, "a", "w"⟩
  exact typedef_resolution Expr.cppText _ "s.idl"
    [.onTypedef ⟨false, .base .INT32, "int32", ""⟩ "a",
      .onTypedef ⟨true, .base .INT32, "a", ""⟩ "v", .onTypedef ⟨true, .base .INT32, "a", "v"⟩ "w",
      .onEnterStruct "s", .onVariable w "x" "", .onEnterRead, .onReadWriteVar w "x", .onExitRead,
      .onExitStruct] ⟨12, _, rfl, rfl⟩

end Athena.Idl
