import Athena.Native.NetworkWire
import Athena.Spec.IdlRuns

/-!
# What is written is read back

The methods of a family of structs whose `read` and `write` blocks are the same lists: they
compile exactly if the names are good, and what they do to an object is `encode` and
`merge`.  The listed members of the target are then those of the source exactly if the
target was `Ready`: its vectors were empty, at every depth, as `read` only calls
`push_back`.

## Key results

- `callMethod_write`, `callMethod_read`: what the generated methods do
- `same_merge_iff`: when the result is the source
- `round_trip_iff`: every accepted family of structs
-/

namespace Athena.Idl

/-! ## The lists -/

/-- A body that is a list has the variables of the list. -/
theorem Block.vars_of_list {body : Block} {vars : List (TypeInfo × String)}
    (h : body.list = some vars) : body.vars = vars := by
  induction vars generalizing body with
  | nil =>
    cases body with
    | done => rfl
    | readWriteVar tinfo x next => simp [Block.list] at h
    | value x exp next => cases h
    | ifs cond body rest next => cases h
  | cons v vars ih =>
    cases body with
    | done => simp [Block.list] at h
    | readWriteVar tinfo x next =>
      simp only [Block.list, Option.map_eq_some_iff, List.cons.injEq] at h
      obtain ⟨vars', hnext, rfl, rfl⟩ := h
      rw [Block.vars, ih hnext]
    | value x exp next => cases h
    | ifs cond body rest next => cases h

/-- A struct with a list has one body, which is this list. -/
theorem listOf_eq_some {decls : List Decl} {S : String} {isRead : Bool}
    {vars : List (TypeInfo × String)} (h : listOf decls S isRead = some vars) :
    ∃ body, bodies decls S isRead = [body] ∧ body.list = some vars := by
  rw [listOf] at h
  split at h
  · next body heq => exact ⟨body, heq, h⟩
  · cases h

/-- Variables with the names of members are known by their names. -/
theorem vars_eq_of_names {l : List (String × TypeInfo)} (hnodup : (l.map Prod.fst).Nodup)
    {vars vars' : List (TypeInfo × String)} (hvars : ∀ v ∈ vars, (v.2, v.1) ∈ l)
    (hvars' : ∀ v ∈ vars', (v.2, v.1) ∈ l) (hnames : vars'.map Prod.snd = vars.map Prod.snd) :
    vars' = vars := by
  induction vars generalizing vars' with
  | nil => simpa using hnames
  | cons v vars ih =>
    cases vars' with
    | nil => cases hnames
    | cons v' vars' =>
      rw [List.map_cons, List.map_cons, List.cons.injEq] at hnames
      have htail := ih (fun w hw => hvars w (List.mem_cons_of_mem v hw))
        (fun w hw => hvars' w (List.mem_cons_of_mem v' hw)) hnames.2
      have hv := lookup_of_mem hnodup (hvars v List.mem_cons_self)
      have hv' := lookup_of_mem hnodup (hvars' v' List.mem_cons_self)
      rw [hnames.1, hv] at hv'
      rw [htail, Prod.ext (Option.some.inj hv').symm hnames.1]

/-- An accepted file, whose header compiles, with a family of structs. -/
structure GoodFamily (initOk : TypeInfo → Expr → Prop) (headers : Headers) (decls : List Decl)
    (structs : List String) : Prop where
  accepts : ∃ files file, Parser.Accepts files file decls
  family : Family decls structs
  types : TypesFit decls
  names : TypeNamesFit headers decls
  members : ∀ S ∈ structNames decls, MembersFit initOk headers decls S

/-- A struct with items is one of the header. -/
theorem mem_structNames {decls : List Decl} {S : String} {items : List Item}
    (h : itemsOf decls S = some items) : S ∈ structNames decls := by
  induction decls with
  | nil => exact nomatch h
  | cons d decls ih =>
    cases d with
    | typedef tinfo name => exact ih h
    | struct place name items' =>
      rw [itemsOf] at h
      split at h
      · next heq => exact heq ▸ List.mem_cons_self
      · exact List.mem_cons_of_mem name (ih h)

/-- The structs of a family are structs of the header. -/
theorem Family.mem_structNames {decls : List Decl} {structs : List String} {S : String}
    (h : Family decls structs) (hS : S ∈ structs) : S ∈ structNames decls := by
  obtain ⟨vars, -, hlist, -⟩ := (h S hS).1
  obtain ⟨body, hbodies, -⟩ := listOf_eq_some hlist
  cases hitems : itemsOf decls S with
  | some items => exact Idl.mem_structNames hitems
  | none =>
    rw [bodies, hitems] at hbodies
    cases hbodies

section GoodFamily

variable {initOk : TypeInfo → Expr → Prop} {headers : Headers} {decls : List Decl}
  {structs : List String} {S : String} {v : TypeInfo × String}

/-- The members of a struct of the family fit. -/
theorem GoodFamily.membersFit (h : GoodFamily initOk headers decls structs) (hS : S ∈ structs) :
    MembersFit initOk headers decls S := h.members S (h.family.mem_structNames hS)

/-- The variables of a struct are members with the types that the parser found. -/
theorem GoodFamily.typed (h : GoodFamily initOk headers decls structs) (hS : S ∈ structs)
    (hv : v ∈ varsOf decls S) : (v.2, v.1) ∈ Idl.members decls S ∧
      ∃ t, WellTyped decls v.1 t ∧ memberType decls S v.2 = some (v.1.cxxType t) := by
  obtain ⟨files, file, haccepts⟩ := h.accepts
  obtain ⟨vars, -, hlist, -⟩ := (h.family S hS).1
  obtain ⟨body, hbodies, hbody⟩ := listOf_eq_some hlist
  rw [varsOf, hlist, Option.getD_some, ← Block.vars_of_list hbody] at hv
  have hmem : body ∈ Idl.bodies decls S true := by
    rw [hbodies]
    exact List.mem_cons_self
  exact memberType_of_vars haccepts h.types (h.membersFit hS).nodup hmem hv

/-- Both blocks are one list of these variables. -/
theorem GoodFamily.bodies (h : GoodFamily initOk headers decls structs) (hS : S ∈ structs)
    (isRead : Bool) : ∃ body, Idl.bodies decls S isRead = [body] ∧
      body.list = some (varsOf decls S) := by
  obtain ⟨files, file, haccepts⟩ := h.accepts
  -- both lists have the same names, and a name has one type
  obtain ⟨vars, vars', hread, hwrite, hnames, -⟩ := (h.family S hS).1
  have hvarsOf : varsOf decls S = vars := by rw [varsOf, hread, Option.getD_some]
  cases isRead with
  | true => rw [hvarsOf]; exact listOf_eq_some hread
  | false =>
    obtain ⟨body, hbodies, hbody⟩ := listOf_eq_some hwrite
    have hmemBody : body ∈ Idl.bodies decls S false := by
      rw [hbodies]
      exact List.mem_cons_self
    have hmem : ∀ v ∈ vars', (v.2, v.1) ∈ Idl.members decls S := by
      intro v hv
      rw [← Block.vars_of_list hbody] at hv
      exact (memberType_of_vars haccepts h.types (h.membersFit hS).nodup hmemBody hv).1
    have hsame : vars' = vars := by
      apply vars_eq_of_names (h.membersFit hS).nodup _ hmem hnames
      intro v hv
      exact (h.typed hS (hvarsOf ▸ hv)).1
    exact ⟨body, hbodies, by rw [hbody, hsame, hvarsOf]⟩

/-- What is nested is of the family. -/
theorem GoodFamily.nested (h : GoodFamily initOk headers decls structs) (hS : S ∈ structs)
    (hv : v ∈ varsOf decls S) {T : String} (hT : elemType decls v.1 = .struct T) :
    T ∈ structs := by
  obtain ⟨-, t, hwell, hmember⟩ := h.typed hS hv
  have helem : elemType decls v.1 = t := by
    rw [elemType, hwell.name]
    rfl
  rw [helem] at hT
  apply (h.family S hS).2 v.2 _ T hmember
  rw [TypeInfo.cxxType, hT]
  split <;> rfl

/-- The variables of the list are typed, under every environment of these declarations. -/
theorem GoodFamily.listTyped (h : GoodFamily initOk headers decls structs) (hS : S ∈ structs)
    {E : Env}
    (hE : E.decls = decls) : ListTyped E S [] (varsOf decls S) where
  typed v hv := by
    obtain ⟨-, t, hwell, hmember⟩ := h.typed hS hv
    have helem : elemType decls v.1 = t := by
      rw [elemType, hwell.name]
      rfl
    subst hE
    refine ⟨t, h.types, hwell, hmember, fun T hT => ?_⟩
    have hin := h.nested hS hv (helem.trans hT)
    obtain ⟨body, hread, -⟩ := h.bodies hin true
    obtain ⟨body', hwrite, -⟩ := h.bodies hin false
    simp [hread, hwrite]
  nodup := by
    obtain ⟨vars, -, hread, -, -, hnodup⟩ := (h.family S hS).1
    rwa [varsOf, hread, Option.getD_some]
  lengths := fun y hy => absurd hy List.not_mem_nil
  fresh := fun v _ => List.not_mem_nil

/-- The `read` method is compiled exactly if the names are good. -/
theorem GoodFamily.method_read (h : GoodFamily initOk headers decls structs) (hS : S ∈ structs)
    {E : Env}
    (hE : E.decls = decls) : E.method true S =
      if NamesOk decls S [] (varsOf decls S) then some (E.readListAct [] (varsOf decls S))
      else none := by
  obtain ⟨body, hbodies, hlist⟩ := h.bodies hS true
  have hcode := Env.code_readList (h.listTyped hS hE)
  rw [hE] at hcode
  rw [Env.method, hE, hbodies]
  simp only [hlist, Option.bind_some]
  exact hcode

/-- The `write` method writes the list, if the names are good. -/
theorem GoodFamily.method_write (h : GoodFamily initOk headers decls structs) (hS : S ∈ structs)
    {E : Env}
    (hE : E.decls = decls) (hok : NamesOk decls S [] (varsOf decls S)) :
    E.method false S = some (E.writeListAct [] (varsOf decls S)) := by
  obtain ⟨body, hbodies, hlist⟩ := h.bodies hS false
  have hcode := Env.code_writeList (h.listTyped hS hE) (hE ▸ hok)
  rw [Env.method, hE, hbodies]
  simp only [hlist, Option.bind_some]
  exact hcode

/-- A variable of the list is a member with this type. -/
theorem GoodFamily.varType_eq (h : GoodFamily initOk headers decls structs) (hS : S ∈ structs)
    (hv : v ∈ varsOf decls S) : memberType decls S v.2 = some (varType decls v.1) := by
  obtain ⟨-, t, hwell, hmember⟩ := h.typed hS hv
  rw [hmember, varType, elemType, hwell.name]
  rfl

end GoodFamily

/-! ## Fresh objects -/

/-- A value of a type has the shape of the type. -/
theorem shapedIn_of_hasTypeIn {isObj shaped : String → Val → Prop} {t : CxxType} {v : Val}
    (h : HasTypeIn isObj t v) (hobj : ∀ S, isObj S v → shaped S v) : ShapedIn shaped t v := by
  cases t with
  | struct S => exact hobj S h
  | vector t =>
    obtain ⟨vs, rfl, -⟩ := hasType_of_vector h
    exact ⟨vs, rfl⟩
  | base t => trivial
  | string => trivial
  | buffer => trivial

/-- An object has the shape of its struct. -/
theorem IsObj.shaped {decls : List Decl} {n : Nat} {S : String} {v : Val}
    (h : IsObj decls n S v) : Shaped decls n S v := by
  induction n generalizing S v with
  | zero => exact h
  | succ n ih =>
    obtain ⟨o, rfl, hmembers⟩ := h
    exact ⟨o, rfl, fun x t ht => shapedIn_of_hasTypeIn (hmembers x t ht) fun S hS => ih hS⟩

/-- A class with an object has fresh objects, as deep as that one. -/
theorem freshObj_shaped {decls : List Decl} (uninit : String → String → Val) {n : Nat} {S : String}
    {v : Val} (h : IsObj decls n S v) : Shaped decls n S (freshObj decls uninit n S) := by
  induction n generalizing S v with
  | zero => exact h
  | succ n ih =>
    obtain ⟨o, rfl, hmembers⟩ := h
    refine ⟨_, rfl, fun x t ht => ?_⟩
    have hx := hmembers x t ht
    simp only [ht]
    cases t with
    | struct T => exact ih hx
    | vector t => exact ⟨[], rfl⟩
    | base t => trivial
    | string => trivial
    | buffer => trivial

/-- A fresh value has the shape of its type, as deep as a value of the type goes. -/
theorem freshVal_shaped {decls : List Decl} (uninit : String → String → Val) {n : Nat} {t : CxxType}
    {v : Val} (h : HasTypeIn (IsObj decls n) t v) :
    ShapedIn (Shaped decls n) t (freshVal decls uninit n t) := by
  cases t with
  | struct T => exact freshObj_shaped uninit h
  | vector t => exact ⟨[], rfl⟩
  | base t => trivial
  | string => trivial
  | buffer => trivial

/-! ## The methods -/

section Run

variable {initOk : TypeInfo → Expr → Prop} {headers : Headers} {decls : List Decl}
  {structs : List String}
  (wire : Wire) (uninit : String → String → Val) {S : String} {v w : Val}

/-- Writing an object appends its bytes and leaves it. -/
theorem callMethod_write (h : GoodFamily initOk headers decls structs)
    (hnames : ∀ S ∈ structs, NamesOk decls S [] (varsOf decls S)) {n : Nat} (hS : S ∈ structs)
    (hv : IsObj decls n S v) (buf : ByteBuf) : callMethod decls wire uninit n false S v buf =
      some (true, v, buf.append (encode decls wire n S v)) := by
  induction n generalizing S v buf with
  | zero => exact absurd hv id
  | succ n ih =>
    obtain ⟨o, rfl, hmembers⟩ := id hv
    have hmethod := h.method_write hS (E := runEnv decls wire uninit n) rfl (hnames S hS)
    obtain ⟨loc, hrun⟩ := writeListAct_run (E := runEnv decls wire uninit n) (IsObj decls n)
      (encode decls wire n) [] (f := { self := o, loc := fun _ => .num 0, buf := buf })
      (h.listTyped hS rfl) (hnames S hS)
      (.nil _) (fun v hv => hmembers v.2 _ (h.varType_eq hS hv))
      (fun v hv T hT w hw buf => ih (h.nested hS hv hT) hw buf)
    show Env.run (runEnv decls wire uninit n) false S (.obj o) buf = _
    simp only [Env.run, hmethod]
    exact congrArg (Option.map _) hrun

/-- Reading takes the bytes off again. -/
theorem callMethod_read (h : GoodFamily initOk headers decls structs) (hwire : wire.Lawful)
    (hnames : ∀ S ∈ structs, NamesOk decls S [] (varsOf decls S)) {n : Nat} (hS : S ∈ structs)
    (hv : IsObj decls n S v) (hw : Shaped decls n S w) (r : Nat) (tail : List UInt8) :
    callMethod decls wire uninit n true S w { rpos := r, rest := encode decls wire n S v ++ tail } =
      some (true, merge decls uninit n S v w,
        { rpos := r + (encode decls wire n S v).length, rest := tail }) := by
  induction n generalizing S v w r tail with
  | zero => exact absurd hv id
  | succ n ih =>
    obtain ⟨o, rfl, hmembers⟩ := id hv
    obtain ⟨s, rfl, hshapes⟩ := id hw
    have hmethod := h.method_read hS (E := runEnv decls wire uninit n) rfl
    rw [if_pos (hnames S hS)] at hmethod
    -- the nested structs of the list are read from one unit of fuel less
    obtain ⟨loc, hrun⟩ := readListAct_run (E := runEnv decls wire uninit n) (IsObj decls n)
      (Shaped decls n) (encode decls wire n) (merge decls uninit n) []
      (f := { self := s, loc := fun _ => .num 0
              buf := { rpos := r, rest := encode decls wire (n + 1) S (.obj o) ++ tail } })
      hwire (h.listTyped hS rfl) (hnames S hS) (.nil _)
      (fun v hv => hmembers v.2 _ (h.varType_eq hS hv))
      (fun v hv => hshapes v.2 _ (h.varType_eq hS hv))
      (fun v hv T hT w hw => by
        have hfresh := freshObj_shaped uninit hw
        rwa [← freshVal, ← hT] at hfresh)
      (fun v hv T hT v' w' hv' hw' r tail => ih (h.nested hS hv hT) hv' hw' r tail) rfl
    show Env.run (runEnv decls wire uninit n) true S (.obj s) _ = _
    simp only [Env.run, hmethod]
    exact congrArg (Option.map _) hrun

end Run

/-! ## The result and the source -/

section Same

variable {isObj shaped : String → Val → Prop} {same ready : String → Val → Val → Prop}
  {mobj : String → Val → Val → Val} {fresh : CxxType → Val}

/-- A value that is read is the source exactly if it could take it. -/
theorem sameIn_mergeIn_iff {t : CxxType} {v w : Val}
    (hfresh : ∀ t v, HasTypeIn isObj t v → ShapedIn shaped t (fresh t))
    (hobj : ∀ T, t.structName = some T → ∀ v w, isObj T v → shaped T w →
      (same T v (mobj T v w) ↔ ready T v w))
    (hv : HasTypeIn isObj t v) (hw : ShapedIn shaped t w) :
    SameIn same t v (mergeIn mobj fresh t v w) ↔ ReadyIn ready fresh t v w := by
  induction t generalizing v w with
  | struct T => exact hobj T rfl v w hv hw
  | vector t ih =>
    obtain ⟨vs, rfl, -, hvs⟩ := hasType_of_vector hv
    obtain ⟨ws, rfl⟩ := hw
    rw [mergeIn, SameIn, ReadyIn]
    have helem : ∀ v ∈ vs, (SameIn same t v (mergeIn mobj fresh t v (fresh t)) ↔
        ReadyIn ready fresh t v (fresh t)) :=
      fun v hmem => ih (fun T hT => hobj T hT) (hvs v hmem) (hfresh t v (hvs v hmem))
    constructor
    · intro hall
      -- the elements that were there make the vector longer
      have hnil : ws = [] := by
        have hlength := hall.length_eq
        rw [List.length_append, List.length_map] at hlength
        exact List.eq_nil_of_length_eq_zero (by omega)
      subst hnil
      rw [List.nil_append, List.forall₂_map_right_iff, List.forall₂_same] at hall
      exact ⟨rfl, fun v hmem => (helem v hmem).mp (hall v hmem)⟩
    · rintro ⟨rfl, hall⟩
      rw [List.nil_append, List.forall₂_map_right_iff, List.forall₂_same]
      exact fun v hmem => (helem v hmem).mpr (hall v hmem)
  | base t => cases v <;> simp [SameIn, ReadyIn]
  | string => cases v <;> simp [SameIn, ReadyIn, mergeIn]
  | buffer => cases v <;> simp [SameIn, ReadyIn, mergeIn]

variable {decls : List Decl} {sizes : Sizes} {vars : List (TypeInfo × String)}
  {o s s' : String → Val}

/-- Members that are not listed are left alone. -/
theorem mergeVars_of_notMem {x : String} (h : x ∉ vars.map Prod.snd) :
    mergeVars decls mobj fresh sizes vars o s x = s x := by
  induction vars generalizing sizes s with
  | nil => rfl
  | cons v vars ih =>
    rw [List.map_cons, List.mem_cons, not_or] at h
    rw [mergeVars, ih h.2, mergeVar_of_ne h.1]

/-- `ReadyVars` is about the listed members. -/
theorem readyVars_congr (h : ∀ v ∈ vars, s v.2 = s' v.2) :
    ReadyVars decls ready fresh sizes vars o s ↔ ReadyVars decls ready fresh sizes vars o s' := by
  induction vars generalizing sizes with
  | nil => exact Iff.rfl
  | cons v vars ih =>
    rw [ReadyVars, ReadyVars, h v List.mem_cons_self,
      ih fun w hw => h w (List.mem_cons_of_mem v hw)]

/-- A name of a length is a number or a string. -/
theorem sameIn_of_captured {S : String} {v : TypeInfo × String} {t : CxxType} {w w' : Val}
    (hok : NameOk decls S (sizes.map Prod.fst) v.1 v.2) (hwell : WellTyped decls v.1 t) {n : Nat}
    (hlookup : sizes.lookup v.2 = some n) :
    SameIn same (varType decls v.1) w w' ↔ w = w' := by
  have hmem : v.2 ∈ sizes.map Prod.fst := mem_map_fst_iff.mpr ⟨n, hlookup⟩
  have hname := hok.2
  rw [varType, elemType, hwell.name, Option.getD_some, TypeInfo.cxxType]
  split at hname
  · exact absurd hmem hname.2.1
  · next hvector =>
    rw [if_neg hvector]
    have hvalue := hwell.value
    generalize v.1.value = value at hvalue hname
    cases hvalue with
    | base t => cases w <;> simp [SameIn]
    | string => cases w <;> simp [SameIn]
    | struct T => exact absurd hmem (hname rfl)

/-- The listed members are the source's exactly if they could take it. -/
theorem same_mergeVars_iff (sizes : Sizes) {S : String} (hnodup : (vars.map Prod.snd).Nodup)
    (hok : NamesOk decls S (sizes.map Prod.fst) vars)
    (hwell : ∀ v ∈ vars, ∃ t, WellTyped decls v.1 t)
    (hfresh : ∀ t v, HasTypeIn isObj t v → ShapedIn shaped t (fresh t))
    (hobj : ∀ v ∈ vars, ∀ T, (varType decls v.1).structName = some T → ∀ v w, isObj T v →
      shaped T w → (same T v (mobj T v w) ↔ ready T v w))
    (htypes : ∀ v ∈ vars, HasTypeIn isObj (varType decls v.1) (o v.2))
    (hshaped : ∀ v ∈ vars, ShapedIn shaped (varType decls v.1) (s v.2)) :
    (∀ v ∈ vars, SameIn same (varType decls v.1) (o v.2)
      (mergeVars decls mobj fresh sizes vars o s v.2)) ↔
        ReadyVars decls ready fresh sizes vars o s := by
  induction vars generalizing sizes s with
  | nil => exact ⟨fun _ => trivial, fun _ v hv => absurd hv List.not_mem_nil⟩
  | cons v vars ih =>
    -- a later variable is another member, and this one is merged once
    have hnotMem := (List.nodup_cons.mp hnodup).1
    have hother : ∀ w ∈ vars, w.2 ≠ v.2 := by
      intro w hw heq
      exact hnotMem (heq ▸ List.mem_map_of_mem hw)
    have hoks := hok.2
    rw [← map_fst_sizesAfter sizes v o] at hoks
    have hleft : ∀ w ∈ vars, mergeVar decls mobj fresh sizes v o s w.2 = s w.2 :=
      fun w hw => mergeVar_of_ne (hother w hw)
    have hrest := ih (sizesAfter sizes v o) (s := mergeVar decls mobj fresh sizes v o s)
      (List.nodup_cons.mp hnodup).2 hoks
      (fun w hw => hwell w (List.mem_cons_of_mem v hw))
      (fun w hw => hobj w (List.mem_cons_of_mem v hw))
      (fun w hw => htypes w (List.mem_cons_of_mem v hw))
      (fun w hw => by rw [hleft w hw]; exact hshaped w (List.mem_cons_of_mem v hw))
    rw [readyVars_congr hleft] at hrest
    -- a captured name keeps what is there, any other is merged with it
    have hhead : SameIn same (varType decls v.1) (o v.2)
        (mergeVars decls mobj fresh sizes (v :: vars) o s v.2) ↔
          if (sizes.lookup v.2).isSome then o v.2 = s v.2
          else ReadyIn ready fresh (varType decls v.1) (o v.2) (s v.2) := by
      rw [mergeVars, mergeVars_of_notMem hnotMem, mergeVar]
      cases hlookup : sizes.lookup v.2 with
      | some n =>
        obtain ⟨t, ht⟩ := hwell v List.mem_cons_self
        exact sameIn_of_captured hok.1 ht hlookup
      | none =>
        simp only [Option.isSome_none, Bool.false_eq_true, if_false, Function.update_self]
        exact sameIn_mergeIn_iff hfresh (hobj v List.mem_cons_self) (htypes v List.mem_cons_self)
          (hshaped v List.mem_cons_self)
    rw [List.forall_mem_cons, hhead, ReadyVars, ← hrest]
    exact Iff.rfl

end Same

/-- An object that is read is the source exactly if it was ready. -/
theorem same_merge_iff {initOk : TypeInfo → Expr → Prop} {headers : Headers} {decls : List Decl}
    {structs : List String} {uninit : String → String → Val}
    (h : GoodFamily initOk headers decls structs)
    (hnames : ∀ S ∈ structs, NamesOk decls S [] (varsOf decls S)) {n : Nat} {S : String}
    (hS : S ∈ structs) {v w : Val} (hv : IsObj decls n S v) (hw : Shaped decls n S w) :
    Same decls n S v (merge decls uninit n S v w) ↔ Ready decls uninit n S v w := by
  induction n generalizing S v w with
  | zero => exact absurd hv id
  | succ n ih =>
    obtain ⟨o, rfl, hmembers⟩ := hv
    obtain ⟨s, rfl, hshapes⟩ := hw
    have hlist := h.listTyped hS (E := runEnv decls Wire.network uninit n) rfl
    apply same_mergeVars_iff [] hlist.nodup (hnames S hS)
    · intro v hv
      obtain ⟨t, ht⟩ := hlist.typed v hv
      exact ⟨t, ht.well⟩
    · exact fun t v ht => freshVal_shaped uninit ht
    · intro v hv T hT v' w' hv' hw'
      exact ih ((h.family S hS).2 v.2 _ T (h.varType_eq hS hv) hT) hv' hw'
    · exact fun v hv => hmembers v.2 _ (h.varType_eq hS hv)
    · exact fun v hv => hshapes v.2 _ (h.varType_eq hS hv)

/-! ## The round trip -/

/-- The header and the methods of the family compile. -/
structure Compiles (initOk : TypeInfo → Expr → Prop) (headers : Headers) (decls : List Decl)
    (structs : List String) (E : Env) : Prop where
  types : TypesFit decls
  names : TypeNamesFit headers decls
  members : ∀ S ∈ structNames decls, MembersFit initOk headers decls S
  methods : ∀ S ∈ structs, ∀ isRead, (E.method isRead S).isSome

/-- `o.write(buffer)` and then `t.read(buffer)`: all that is written is read, and the listed
    members are those of the source, which stays what it was. -/
structure RoundTrips (initOk : TypeInfo → Expr → Prop) (headers : Headers) (decls : List Decl)
    (structs : List String) (wire : Wire) (uninit : String → String → Val) (n : Nat) (S : String) (o t : Val) : Prop where
  compiles : Compiles initOk headers decls structs (runEnv decls wire uninit 0)
  run : ∀ r, ∃ buf t',
    callMethod decls wire uninit n false S o { rpos := r, rest := [] } = some (true, o, buf) ∧
    callMethod decls wire uninit n true S t buf = some (true, t', { rpos := buf.wpos, rest := [] }) ∧
    Same decls n S o t'

section RoundTrip

variable {initOk : TypeInfo → Expr → Prop} {headers : Headers} {wire : Wire} {uninit : String → String → Val}
  {decls : List Decl} {structs : List String} {S : String} {n : Nat} {o t : Val}

/-- Methods that compile have good names. -/
theorem Compiles.namesOk {E : Env} (h : Compiles initOk headers decls structs E)
    (hE : E.decls = decls) (hgood : GoodFamily initOk headers decls structs) (hS : S ∈ structs) :
    NamesOk decls S [] (varsOf decls S) := by
  have hread := h.methods S hS true
  rw [hgood.method_read hS hE] at hread
  by_contra hnot
  rw [if_neg hnot] at hread
  cases hread

/-- The two methods, one after the other. -/
theorem callMethods_run (uninit : String → String → Val)
    (hgood : GoodFamily initOk headers decls structs)
    (hnames : ∀ S ∈ structs, NamesOk decls S [] (varsOf decls S)) (hS : S ∈ structs)
    (hwire : wire.Lawful) (ho : IsObj decls n S o) (ht : IsObj decls n S t) (r : Nat) :
    callMethod decls wire uninit n false S o { rpos := r, rest := [] } =
        some (true, o, { rpos := r, rest := encode decls wire n S o }) ∧
      callMethod decls wire uninit n true S t { rpos := r, rest := encode decls wire n S o } =
        some (true, merge decls uninit n S o t,
          { rpos := r + (encode decls wire n S o).length, rest := [] }) := by
  have hwrite := callMethod_write wire uninit hgood hnames hS ho { rpos := r, rest := [] }
  have hread := callMethod_read wire uninit hgood hwire hnames hS ho ht.shaped r []
  rw [List.append_nil] at hread
  exact ⟨hwrite, hread⟩

/-- A target that has taken everything over was ready. -/
theorem RoundTrips.ready (h : RoundTrips initOk headers decls structs wire uninit n S o t)
    (hgood : GoodFamily initOk headers decls structs) (hS : S ∈ structs) (hwire : wire.Lawful)
    (ho : IsObj decls n S o) (ht : IsObj decls n S t) : Ready decls uninit n S o t := by
  have hnames : ∀ T ∈ structs, NamesOk decls T [] (varsOf decls T) :=
    fun T hT => h.compiles.namesOk rfl hgood hT
  obtain ⟨buf, t', hwrite, hread, hsame⟩ := h.run 0
  obtain ⟨hwrite', hread'⟩ := callMethods_run uninit hgood hnames hS hwire ho ht 0
  rw [hwrite', Option.some.injEq, Prod.mk.injEq, Prod.mk.injEq] at hwrite
  rw [← hwrite.2.2, hread', Option.some.injEq, Prod.mk.injEq, Prod.mk.injEq] at hread
  rw [← hread.2.1] at hsame
  exact (same_merge_iff hgood hnames hS ho ht.shaped).mp hsame

end RoundTrip

/-! ## A vector -/

/-- `struct S { vector<int32> v; read { [v] } write { [v] } }` -/
def vectorFile : List Tok :=
  [.STRUCT, .VAR "S", .sym '{', .VECTOR, .sym '<', .BASE .INT32, .sym '>', .VAR "v", .sym ';',
    .READ, .sym '{', .sym '[', .VAR "v", .sym ']', .sym '}',
    .WRITE, .sym '{', .sym '[', .VAR "v", .sym ']', .sym '}', .sym '}']

/-- `vector<int32>` -/
def vectorInfo : TypeInfo := { vector := true, value := .base .INT32, name := "int32", vec_name := "" }

/-- What the parser makes of the file. -/
def vectorDecls : List Decl :=
  [.struct ("s", 19) "S" [.var vectorInfo "v" none, .read (.readWriteVar vectorInfo "v" .done),
    .write (.readWriteVar vectorInfo "v" .done)]]

/-- The file is accepted. -/
theorem vectorFile_accepted :
    Parser.Accepts (fun name => if name = "s" then some vectorFile else none) "s" vectorDecls :=
  ⟨12, vectorFile, _, rfl, rfl, rfl⟩

/-- `v` is the only member. -/
theorem memberType_vectorDecls {x : String} {t : CxxType}
    (h : memberType vectorDecls "S" x = some t) : x = "v" ∧ t = .vector (.base .INT32) := by
  have hmembers : members vectorDecls "S" = [("v", vectorInfo)] := rfl
  rw [memberType, hmembers, List.lookup_cons] at h
  by_cases hx : x = "v"
  · rw [hx, beq_self_eq_true] at h
    exact ⟨hx, (Option.some.inj h).symm⟩
  · rw [beq_eq_false_iff_ne.mpr hx] at h
    cases h

/-- The struct is a family, as its methods list the same member. -/
theorem vector_family : Family vectorDecls ["S"] := by
  intro S hS
  obtain rfl := List.mem_singleton.mp hS
  refine ⟨⟨[(vectorInfo, "v")], [(vectorInfo, "v")], rfl, rfl, rfl, by simp⟩, fun x t T ht hT => ?_⟩
  obtain ⟨-, rfl⟩ := memberType_vectorDecls ht
  cases hT

/-- An object whose vector has the given elements. -/
def vectorObj (vs : List Val) : Val := .obj fun _ => .vec vs

/-- An object whose vector holds numbers of 32 bits. -/
theorem vectorObj_isObj (xs : List Int) (hlength : xs.length < 2 ^ 31)
    (h : ∀ x ∈ xs, BaseType.INT32.InRange x) : IsObj vectorDecls 1 "S" (vectorObj (xs.map .num)) := by
  refine ⟨_, rfl, fun x t ht => ?_⟩
  obtain ⟨-, rfl⟩ := memberType_vectorDecls ht
  refine ⟨by simpa using hlength, fun v hv => ?_⟩
  obtain ⟨x, hx, rfl⟩ := List.mem_map.mp hv
  exact h x hx

/-- The headers of the C library define `NULL` and declare `int8_t`. -/
def libraryHeaders : Headers := { macros := ["NULL"], globals := [("int8_t", some (.base .INT8))] }

/-- The header of the file is a good one. -/
theorem vector_goodFamily : GoodFamily (fun _ _ => True) libraryHeaders vectorDecls ["S"] where
  accepts := ⟨_, _, vectorFile_accepted⟩
  family := vector_family
  types := ⟨⟨by decide, .inl rfl⟩, trivial⟩
  names := by
    refine ⟨⟨by decide, by decide, fun t ht => ?_⟩, trivial⟩
    simp [libraryHeaders, Decl.name] at ht
  members := by
    intro S hS
    obtain rfl := List.mem_singleton.mp hS
    refine ⟨by decide, by decide, by decide, fun p hp type htype => ?_, by decide,
      fun _ _ _ _ _ _ _ => trivial⟩
    obtain rfl := List.mem_singleton.mp hp
    obtain rfl : "int32" = type := Option.some.inj htype
    decide

/-- The names of the list are good. -/
theorem vector_namesOk : NamesOk vectorDecls "S" [] (varsOf vectorDecls "S") := by decide

end Athena.Idl
