import Mathlib.Data.Set.Basic
import Athena.Spec.IdlRuns
import Athena.Spec.LuaMethods

/-!
# A C++ object and a Lua object

When the members of the two have equal values, and which steps of the C++ method the Lua method
follows (`backends`).  A Lua method makes a new object where the C++ method reads into the one that
is there; until a member has been read its value may be another one (`stale`).
-/

namespace Athena.Idl

/-! ## Equal values -/

/-- A C++ value of a type and a Lua value are equal: objects by their members. -/
inductive Equal (decls : List Decl) : CxxType → Val → LuaVal → Prop where
  | base (t : BaseType) (v : Val) : Equal decls (.base t) v (.scalar v)
  | string (v : Val) : Equal decls .string v (.scalar v)
  | vec {t : CxxType} {vs : List Val} {ws : List LuaVal} (hlength : vs.length = ws.length)
    (helems : ∀ (k : Nat) v w, vs[k]? = some v → ws[k]? = some w → Equal decls t v w) :
    Equal decls (.vector t) (.vec vs) (.arr ws)
  | obj {S : String} {o : String → Val} {l : String → LuaVal}
    (hmembers : ∀ x t, memberType decls S x = some t → Equal decls t (o x) (l x))
    (hothers : ∀ x, x ∉ (members decls S).map Prod.fst → l x = .nil) :
    Equal decls (.struct S) (.obj o) (.obj S l)

/-- The members of two objects are equal, but for those of a set; the Lua object has no other
    fields. -/
structure EqualBut (decls : List Decl) (except : Set String) (S : String) (o : String → Val)
    (l : String → LuaVal) : Prop where
  members : ∀ x t, memberType decls S x = some t → x ∉ except → Equal decls t (o x) (l x)
  others : ∀ x, x ∉ (Idl.members decls S).map Prod.fst → l x = .nil

variable {decls : List Decl} {D : Set String} {S x : String} {t : CxxType} {o : String → Val}
  {l : String → LuaVal} {v : Val} {w : LuaVal} {vs : List Val} {ws : List LuaVal}

/-- Two objects are equal when all their members are. -/
theorem equal_obj : Equal decls (.struct S) (.obj o) (.obj S l) ↔ EqualBut decls ∅ S o l := by
  constructor
  · intro h
    cases h with
    | obj hmembers hothers => exact ⟨fun x t ht _ => hmembers x t ht, hothers⟩
  · intro h
    exact .obj (fun x t ht => h.members x t ht (Set.notMem_empty x)) h.others

/-- An element is added to both. -/
theorem Equal.append (h : Equal decls (.vector t) (.vec vs) (.arr ws)) (hv : Equal decls t v w) :
    Equal decls (.vector t) (.vec (vs ++ [v])) (.arr (ws ++ [w])) := by
  cases h with
  | vec hlength helems =>
    refine .vec (by simp [hlength]) fun k v' w' hv' hw' => ?_
    rcases lt_trichotomy k vs.length with hlt | rfl | hgt
    · rw [List.getElem?_append_left hlt] at hv'
      rw [List.getElem?_append_left (hlength ▸ hlt)] at hw'
      exact helems k v' w' hv' hw'
    · rw [List.getElem?_concat_length, Option.some.injEq] at hv'
      rw [hlength, List.getElem?_concat_length, Option.some.injEq] at hw'
      exact hv' ▸ hw' ▸ hv
    · rw [List.getElem?_eq_none (by simp; omega)] at hv'
      cases hv'

/-- An element is replaced in both. -/
theorem Equal.set (h : Equal decls (.vector t) (.vec vs) (.arr ws)) (hv : Equal decls t v w)
    (k : Nat) : Equal decls (.vector t) (.vec (vs.set k v)) (.arr (ws.set k w)) := by
  cases h with
  | vec hlength helems =>
    refine .vec (by simp [hlength]) fun k' v' w' hv' hw' => ?_
    rw [List.getElem?_set] at hv' hw'
    rw [← hlength] at hw'
    -- the element that is set, and the others
    by_cases heq : k = k'
    · rw [if_pos heq] at hv' hw'
      by_cases hlt : k < vs.length
      · rw [if_pos hlt, Option.some.injEq] at hv' hw'
        exact hv' ▸ hw' ▸ hv
      · rw [if_neg hlt] at hv'
        cases hv'
    · rw [if_neg heq] at hv' hw'
      exact helems k' v' w' hv' hw'

/-- More members may differ. -/
theorem EqualBut.mono {D' : Set String} (h : EqualBut decls D S o l) (hsub : D ⊆ D') :
    EqualBut decls D' S o l :=
  ⟨fun x t ht hx => h.members x t ht fun hmem => hx (hsub hmem), h.others⟩

/-- A member is set to equal values. -/
theorem EqualBut.update (h : EqualBut decls D S o l) (ht : memberType decls S x = some t)
    (hv : Equal decls t v w) :
    EqualBut decls (D \ {x}) S (Function.update o x v) (Function.update l x w) where
  members y t' hy hmem := by
    by_cases heq : y = x
    · subst heq
      rw [ht, Option.some.injEq] at hy
      rwa [← hy, Function.update_self, Function.update_self]
    · rw [Function.update_of_ne heq, Function.update_of_ne heq]
      exact h.members y t' hy fun hD => hmem ⟨hD, heq⟩
  others y hy := by
    have hne : y ≠ x := by
      rintro rfl
      rw [memberType, lookup_eq_none_of_notMem hy] at ht
      cases ht
    rw [Function.update_of_ne hne]
    exact h.others y hy

/-! ## A new object -/

/-- `new` sets the fields of its items only. -/
theorem foldl_setField_of_notMem {init : Expr → LuaVal} {items : List Item}
    {fields : String → LuaVal} (h : x ∉ (items.filterMap Item.member).map Prod.fst) :
    items.foldl (setField init) fields x = fields x := by
  induction items generalizing fields with
  | nil => rfl
  | cons item items ih =>
    cases item with
    | var tinfo y exp =>
      have hcons : (Item.var tinfo y exp :: items).filterMap Item.member =
          (y, tinfo) :: items.filterMap Item.member := rfl
      rw [hcons, List.map_cons, List.mem_cons, not_or] at h
      rw [List.foldl_cons, ih h.2, setField, Function.update_of_ne h.1]
    | read body => exact ih h
    | write body => exact ih h

/-- The members of an object that `new` does not set to their values. -/
def staleIn (decls : List Decl) (init : String → Expr → LuaVal) (S : String) (v : Val) :
    Set String :=
  {x | ∃ o t, v = .obj o ∧ memberType decls S x = some t ∧
    ¬Equal decls t (o x) (newFields decls init S x)}

/-- A new Lua object has equal members but for those that `new` does not set. -/
theorem equalBut_new (init : String → Expr → LuaVal) :
    EqualBut decls (staleIn decls init S (.obj o)) S o (newFields decls init S) where
  members x t ht hx := by
    by_contra hne
    exact hx ⟨o, t, rfl, ht, hne⟩
  others x hx := foldl_setField_of_notMem hx

/-! ## The steps that Lua follows -/

/-- No Lua local around the statement has the name of the struct. -/
def TypeFree (sc : Scope) (tinfo : TypeInfo) (x : String) : Prop :=
  tinfo.name ≠ "self" ∧ tinfo.name ∉ sc.vars.map Prod.fst ∧
    (∀ v, "len_" ++ v ∈ sc.vars.map Prod.fst → tinfo.name ≠ "temp_" ++ v) ∧
    (tinfo.vector = true → tinfo.name ≠ "i" ∧ tinfo.name ≠ "len_" ++ x ∧ tinfo.name ≠ "temp_" ++ x)

/-- The names of a list mean the same: the member, and the class of what is read. -/
def NameFree (sc : Scope) (isRead : Bool) (tinfo : TypeInfo) (x : String) : Prop :=
  x ∉ sc.vars.map Prod.fst ∧ (isRead = true → tinfo.value = .STRUCT → TypeFree sc tinfo x)

/-- The condition is about the same variable, and is true: in Lua a number is. -/
def SameTest (sc : Scope) (D : Set String) (x : Operand) (holds : Bool) : Prop :=
  match x with
  | .var name member =>
    if name = "true" ∨ name = "false" then member = false
    else holds = true ∧
      if member then name ∉ sc.vars.map Prod.fst ∧ name ∉ D else name ∈ sc.vars.map Prod.fst
  | _ => holds = true

/-- What is known are the members of `self` whose values may differ, those of a caller behind
    them. -/
def backends (decls : List Decl) (init : String → Expr → LuaVal) :
    Monitor (List (Set String)) CxxEvent BufOp where
  ok known := fun
    | .listed sc isRead tinfo x => NameFree sc isRead tinfo x
    | .size n => n < 2 ^ 31
    -- Lua sets the element of this turn
    | .push (.mem x) n turn => turn = .num n ∧ x ∉ known.headD ∅
    | .test sc x holds => SameTest sc (known.headD ∅) x holds
    -- in Lua a global is assigned
    | .assign _ => False
    | .leave => known.headD ∅ = ∅
    | _ => True
  next known := fun
    | .got (.mem x) => (known.headD ∅ \ {x}) :: known.tail
    | .enter isRead S v => (if isRead then staleIn decls init S v else ∅) :: known
    | .leave => known.tail
    | _ => known
  seen := CxxEvent.ops

/-! ## The locals -/

/-- The locals of Lua between two statements: of a vector its length, and where it is read the
    last element. -/
def LuaLocals (isRead : Bool) : List String → (Nat → Val) → List (String × LuaVal) → Prop
  | [], _, ls => ls = [("buffer", .buffer), ("self", .self)]
  | y :: seen, loc, ls => ∃ x w ls', y = "len_" ++ x ∧ LuaLocals isRead seen loc ls' ∧
    ls = (if isRead then [("temp_" ++ x, w)] else []) ++
      (y, .scalar (loc (seen.length + 1))) :: ls'

variable {isRead : Bool} {seen : List String} {loc loc' : Nat → Val} {ls : List (String × LuaVal)}
  {y : String}

/-- The lengths and the elements have different names. -/
theorem len_ne_temp (x y : String) : "len_" ++ x ≠ "temp_" ++ y := by
  intro h
  have hlist := congrArg String.toList h
  simp [String.toList_append] at hlist

/-- The names of the parameters. -/
def IsParam (y : String) : Prop := y = "buffer" ∨ y = "self"

/-- No parameter is a length. -/
theorem IsParam.ne_len (hy : IsParam y) (x : String) : y ≠ "len_" ++ x := by
  rintro rfl
  rcases hy with hlist | hlist
  all_goals
    have hlist := congrArg String.toList hlist
    simp [String.toList_append] at hlist

/-- No parameter is an element. -/
theorem IsParam.ne_temp (hy : IsParam y) (x : String) : y ≠ "temp_" ++ x := by
  rintro rfl
  rcases hy with hlist | hlist
  all_goals
    have hlist := congrArg String.toList hlist
    simp [String.toList_append] at hlist

/-- The parameters stay visible behind the locals. -/
theorem LuaLocals.lookup_param (h : LuaLocals isRead seen loc ls) (hy : IsParam y) :
    ls.lookup y = if y = "buffer" then some .buffer else some .self := by
  induction seen generalizing ls with
  | nil =>
    rw [LuaLocals] at h
    subst h
    rcases hy with rfl | rfl <;> rfl
  | cons z seen ih =>
    obtain ⟨x, w, ls', rfl, hrest, rfl⟩ := h
    have hlen := beq_eq_false_iff_ne.mpr (hy.ne_len x)
    have htemp := beq_eq_false_iff_ne.mpr (hy.ne_temp x)
    cases isRead <;> simp [List.lookup_cons, hlen, htemp, ih hrest]

/-- The locals are those of the slots in use. -/
theorem LuaLocals.congr (h : LuaLocals isRead seen loc ls)
    (hloc : ∀ slot, slot ≤ seen.length → loc' slot = loc slot) : LuaLocals isRead seen loc' ls := by
  induction seen generalizing ls with
  | nil => exact h
  | cons z seen ih =>
    obtain ⟨x, w, ls', rfl, hrest, rfl⟩ := h
    refine ⟨x, w, ls', rfl, ih hrest fun slot hslot => ?_, ?_⟩
    · exact hloc slot (by simp; omega)
    · rw [hloc (seen.length + 1) (by simp)]

/-- How many locals there are. -/
def luaWidth (isRead : Bool) (seen : List String) : Nat :=
  2 + seen.length * if isRead then 2 else 1

/-- The number of the locals. -/
theorem LuaLocals.length (h : LuaLocals isRead seen loc ls) : ls.length = luaWidth isRead seen := by
  induction seen generalizing ls with
  | nil =>
    rw [LuaLocals] at h
    subst h
    simp [luaWidth]
  | cons z seen ih =>
    obtain ⟨x, w, ls', rfl, hrest, rfl⟩ := h
    have hlength := ih hrest
    cases isRead <;> simp [luaWidth] at hlength ⊢ <;> omega

/-- The locals behind those of a block. -/
theorem LuaLocals.drop {more : List String} (h : LuaLocals isRead (more ++ seen) loc ls) :
    LuaLocals isRead seen loc (ls.drop (ls.length - luaWidth isRead seen)) := by
  induction more generalizing ls with
  | nil =>
    have hlength := h.length
    rw [List.nil_append] at h hlength
    rwa [hlength, Nat.sub_self, List.drop_zero]
  | cons z more ih =>
    obtain ⟨x, w, ls', rfl, hrest, rfl⟩ := h
    have hlength := hrest.length
    have hle : luaWidth isRead seen ≤ ls'.length := by
      have hmul :=
        Nat.mul_le_mul_right (if isRead then 2 else 1) (Nat.le_add_left seen.length more.length)
      rw [hlength, luaWidth, luaWidth]
      simp only [List.append_eq, List.length_append]
      omega
    -- what the last vector has declared goes first
    have hdrop (front : List (String × LuaVal)) :
        (front ++ ls').drop ((front ++ ls').length - luaWidth isRead seen) =
          ls'.drop (ls'.length - luaWidth isRead seen) := by
      rw [List.length_append, Nat.add_sub_assoc hle, List.drop_length_add_append]
    have hlast := hdrop ((if isRead then [("temp_" ++ x, w)] else []) ++
      [("len_" ++ x, LuaVal.scalar (loc ((more ++ seen).length + 1)))])
    rw [List.append_assoc] at hlast
    exact hlast ▸ ih hrest

/-- The C++ locals between two statements are lengths. -/
theorem LuaLocals.areLengths (h : LuaLocals isRead seen loc ls) : AreLengths seen := by
  induction seen generalizing ls with
  | nil => exact fun y hy => absurd hy List.not_mem_nil
  | cons z seen ih =>
    obtain ⟨x, w, ls', rfl, hrest, rfl⟩ := h
    intro y hy
    rcases List.mem_cons.mp hy with rfl | hy
    · exact ⟨x, rfl⟩
    · exact ih hrest y hy

/-- A name that is not the one of the last element. -/
theorem lookup_temp {p : String × LuaVal} (hy : y ≠ "temp_" ++ x) :
    ((if isRead then [("temp_" ++ x, w)] else []) ++ p :: ls).lookup y = (p :: ls).lookup y := by
  cases isRead with
  | true => simp [List.lookup_cons, beq_eq_false_iff_ne.mpr hy]
  | false => rfl

/-- A length has the value of its slot. -/
theorem LuaLocals.lookup_len (h : LuaLocals isRead seen loc ls) (hy : y ∈ seen) :
    ls.lookup y = some (.scalar (loc (slotOf seen y))) := by
  have hlengths := h.areLengths
  induction seen generalizing ls with
  | nil => cases hy
  | cons z seen ih =>
    obtain ⟨v, rfl⟩ := hlengths y hy
    obtain ⟨x, w, ls', rfl, hrest, rfl⟩ := h
    rw [lookup_temp (len_ne_temp v x), List.lookup_cons, slotOf]
    by_cases heq : "len_" ++ v = "len_" ++ x
    · rw [if_pos heq, beq_iff_eq.mpr heq]
    · rw [if_neg heq, beq_eq_false_iff_ne.mpr heq]
      exact ih hrest ((List.mem_cons.mp hy).resolve_left heq) hrest.areLengths

/-- The other names are globals. -/
theorem LuaLocals.lookup_none (h : LuaLocals isRead seen loc ls) (hparam : ¬IsParam y)
    (hlen : y ∉ seen) (htemp : ∀ v, "len_" ++ v ∈ seen → y ≠ "temp_" ++ v) :
    ls.lookup y = none := by
  induction seen generalizing ls with
  | nil =>
    rw [LuaLocals] at h
    subst h
    rw [IsParam, not_or] at hparam
    simp [List.lookup_cons, beq_eq_false_iff_ne.mpr hparam.1, beq_eq_false_iff_ne.mpr hparam.2]
  | cons z seen ih =>
    obtain ⟨x, w, ls', rfl, hrest, rfl⟩ := h
    rw [List.mem_cons, not_or] at hlen
    rw [lookup_temp (htemp x List.mem_cons_self), List.lookup_cons, beq_eq_false_iff_ne.mpr hlen.1]
    exact ih hrest hlen.2 fun v hv => htemp v (List.mem_cons_of_mem _ hv)

/-! ## The states -/

/-- Where a method has returned; `D₀` are the members whose values may have been different when it
    began. -/
structure Ended (decls : List Decl) (D₀ : Set String) (known : List (Set String)) (S : String)
    (c : List (Set String)) (f : Frame) (l : LuaFrame) : Prop where
  stale : ∃ D, c = D :: known ∧ EqualBut decls D S f.self l.self ∧ D ⊆ D₀
  globals : l.globals = luaGlobals decls
  buf : l.buf = f.buf

/-- Between two statements. -/
structure Between (decls : List Decl) (isRead : Bool) (D₀ : Set String) (known : List (Set String))
    (S : String) (seen : List String) (c : List (Set String)) (f : Frame) (l : LuaFrame) : Prop
    extends Ended decls D₀ known S c f l where
  locals : LuaLocals isRead seen f.loc l.locals

section States

variable {D₀ : Set String} {known : List (Set String)} {c : List (Set String)} {f : Frame}
  {lf : LuaFrame}

/-- A local is found before any global. -/
theorem lookup_eq {g : LuaFrame} (h : g.locals.lookup x = some w) : g.lookup x = w := by
  rw [LuaFrame.lookup, h, Option.getD_some]

/-- `buffer` is the parameter. -/
theorem LuaLocals.lookup_buffer (h : LuaLocals isRead seen loc ls) :
    ls.lookup "buffer" = some .buffer := h.lookup_param (.inl rfl)

/-- `self` is the parameter. -/
theorem LuaLocals.lookup_self (h : LuaLocals isRead seen loc ls) :
    ls.lookup "self" = some .self := h.lookup_param (.inr rfl)

/-- A member of `self` is set. -/
theorem Between.update (h : Between decls isRead D₀ known S seen c f lf)
    (ht : memberType decls S x = some t) (hv : Equal decls t v w) (init : String → Expr → LuaVal)
    (buf : ByteBuf) :
    Between decls isRead D₀ known S seen ((backends decls init).next c (.got (.mem x)))
      { f.set (.mem x) v with buf := buf }
      { lf with self := Function.update lf.self x w, buf := buf } := by
  obtain ⟨D, rfl, hequal, hsub⟩ := h.stale
  exact
    { stale := ⟨D \ {x}, rfl, hequal.update ht hv, Set.sdiff_subset.trans hsub⟩
      globals := h.globals
      buf := rfl
      locals := h.locals }

/-- Setting a member sets the field of `self`. -/
theorem Between.set_member (h : Between decls isRead D₀ known S seen c f lf) (x : String)
    (w : LuaVal) (buf : ByteBuf) : (LuaVar.member x).set { lf with buf := buf } w =
      some { lf with self := Function.update lf.self x w, buf := buf } := by
  have hself : LuaFrame.lookup { lf with buf := buf } "self" = .self := lookup_eq h.locals.lookup_self
  simp only [LuaVar.set, hself]

/-- A member is the field of `self`. -/
theorem Between.get_member (h : Between decls isRead D₀ known S seen c f lf) (x : String) :
    (LuaVar.member x).get lf = some (lf.self x) := by
  simp only [LuaVar.get, lookup_eq h.locals.lookup_self]

end States

/-! ## Classes -/

/-- The classes and their methods are found in Lua. -/
structure LuaFits (decls : List Decl) : Prop where
  classes : ∀ name T, typeNamed decls name = some (.struct T) →
    classNamed decls name = some T ∧ classNamed decls T = some T
  library : classNamed decls "setmetatable" = none
  methods : ∀ T isRead, LuaEnv.methodName isRead ∉ (members decls T).map Prod.fst

/-- A class is found under its name, and makes a new object. -/
theorem LuaFits.new (hfits : LuaFits decls) (E : LuaEnv) (hE : E.decls = decls) {name T : String}
    {f : LuaFrame} (hlookup : f.locals.lookup name = none) (hglobals : f.globals = luaGlobals decls)
    (htype : typeNamed decls name = some (.struct T)) :
    E.new f name = some (.obj T (newFields decls E.init T)) := by
  obtain ⟨hname, hself⟩ := hfits.classes name T htype
  have hclass : f.lookup name = .cls T := by
    rw [LuaFrame.lookup, hlookup, hglobals, Option.getD_none, luaGlobals, hname]
  have hset : f.globals "setmetatable" = .fn "setmetatable" := by
    rw [hglobals, luaGlobals, hfits.library]
    rfl
  have hown : f.globals T = .cls T := by rw [hglobals, luaGlobals, hself]
  simp only [LuaEnv.new, hclass, hset, hown, if_true, hE]

/-- No field has the name of a method. -/
theorem LuaFits.noField (hfits : LuaFits decls) (h : EqualBut decls D S o l) (isRead : Bool) :
    l (LuaEnv.methodName isRead) = .nil :=
  h.others _ (hfits.methods S isRead)

end Athena.Idl
