import Athena.Spec.IdlTypes

/-!
# Which generated methods compile

The generator surrounds the members' names with its own: the parameter `buffer`, and for a
vector `x` the locals `len_x`, `i` and `temp_x`, of which `len_x` stays in scope.  So a
name means the member only if no local before it has it, and the type of `temp_x` must not
be hidden.  `NamesOk` says this of the names alone; it is what a compiler asks of the
`read` method, and the `write` method asks for less.

A member with the name of an earlier length still compiles if it is a number or a string:
it then means the local.

## Key results

- `code_readCode`, `code_writeCode`: one variable, and what its code does
- `code_readList`, `code_writeList`: a list is compiled if its names are good
-/

namespace Athena.Idl

/-! ## The locals -/

/-- The local variables of an outermost block: the lengths so far, and the parameter. -/
def lenVars (seen : List String) : List (String × CxxType) :=
  seen.map (fun y => (y, CxxType.base .INT32)) ++ [("buffer", CxxType.buffer)]

/-- Between two variables of a list. -/
def Scope.between (struct : String) (seen : List String) : Scope :=
  { struct := struct, vars := lenVars seen, outer := 0 }

/-- The lengths after a variable. -/
def seenAfter (seen : List String) (tinfo : TypeInfo) (x : String) : List String :=
  if tinfo.vector then ("len_" ++ x) :: seen else seen

/-- The slot of a length. -/
def slotOf : List String → String → Nat
  | [], _ => 0
  | y :: seen, x => if x = y then seen.length + 1 else slotOf seen x

/-- The locals are lengths of vectors. -/
def AreLengths (seen : List String) : Prop := ∀ y ∈ seen, ∃ v, y = "len_" ++ v

variable {seen : List String} {x y v S : String} {decls : List Decl}

/-- A variable of a list declares no local but a length. -/
theorem AreLengths.after (h : AreLengths seen) (tinfo : TypeInfo) (x : String) :
    AreLengths (seenAfter seen tinfo x) := by
  rw [seenAfter]
  split
  · intro y hy
    rcases List.mem_cons.mp hy with rfl | hy
    · exact ⟨x, rfl⟩
    · exact h y hy
  · exact h

/-- No name is that of its own length, -/
theorem len_ne_self (x : String) : "len_" ++ x ≠ x := by
  intro h
  have hlen := congrArg String.length h
  rw [String.length_append] at hlen
  have hpos : "len_".length = 4 := rfl
  omega

/-- nor that of its element. -/
theorem temp_ne_self (x : String) : "temp_" ++ x ≠ x := by
  intro h
  have hlen := congrArg String.length h
  rw [String.length_append] at hlen
  have hpos : "temp_".length = 5 := rfl
  omega

/-- No element is named as the counter, -/
theorem temp_ne_i (x : String) : "temp_" ++ x ≠ "i" := by
  intro h
  have hlist := congrArg String.toList h
  simp [String.toList_append] at hlist

/-- and no length as the parameter. -/
theorem len_ne_buffer (x : String) : "len_" ++ x ≠ "buffer" := by
  intro h
  have hlist := congrArg String.toList h
  simp [String.toList_append] at hlist

/-- Two names with one length are one. -/
theorem len_injective (h : "len_" ++ x = "len_" ++ y) : x = y := by
  have hlist := congrArg String.toList h
  simp only [String.toList_append] at hlist
  exact String.toList_inj.mp (List.append_cancel_left hlist)

/-- The parameter is no length. -/
theorem AreLengths.buffer_notMem (h : AreLengths seen) : "buffer" ∉ seen := by
  intro hb
  obtain ⟨v, hv⟩ := h _ hb
  exact len_ne_buffer v hv.symm

/-! ## Lookup -/

/-- A local is found if it is a length or the parameter. -/
theorem findLocal_lenVars (seen : List String) (x : String) :
    Scope.findLocal (lenVars seen) x =
      if x ∈ seen then some (.loc (slotOf seen x), .base .INT32)
      else if x = "buffer" then some (.loc 0, .buffer) else none := by
  induction seen with
  | nil => simp [lenVars, Scope.findLocal]
  | cons y seen ih =>
    have hlen : (lenVars seen).length = seen.length + 1 := by simp [lenVars]
    show Scope.findLocal ((y, .base .INT32) :: lenVars seen) x = _
    rw [Scope.findLocal, ih, slotOf, hlen]
    by_cases heq : x = y
    · simp [heq]
    · simp [heq]

/-- A name of a length means the length. -/
theorem resolve_of_mem (h : x ∈ seen) :
    (Scope.between S seen).resolve decls x = some (.loc (slotOf seen x), .base .INT32) := by
  rw [Scope.resolve, Scope.between, findLocal_lenVars, if_pos h]

/-- The parameter hides a member. -/
theorem resolve_buffer (h : AreLengths seen) :
    (Scope.between S seen).resolve decls "buffer" = some (.loc 0, .buffer) := by
  rw [Scope.resolve, Scope.between, findLocal_lenVars, if_neg h.buffer_notMem, if_pos rfl]

/-- A name that no local has is the member's. -/
theorem resolve_member (h : x ∉ seen) (hbuffer : x ≠ "buffer") :
    (Scope.between S seen).resolve decls x =
      (memberType decls S x).map fun t => (.mem x, t) := by
  rw [Scope.resolve, Scope.between, findLocal_lenVars, if_neg h, if_neg hbuffer]

/-! ## Values -/

/-- The types for which the code of a value is compiled. -/
inductive Compat : TypeValue → CxxType → Prop where
  | base (t t' : BaseType) : Compat (.base t) (.base t')
  | base_string (t : BaseType) : Compat .STRING (.base t)
  | string : Compat .STRING .string
  | struct (S : String) : Compat .STRUCT (.struct S)

/-- The code for a value is compiled for its own type. -/
theorem Matches.compat {value : TypeValue} {t : CxxType} (h : Matches value t) :
    Compat value t := by
  cases h with
  | base t => exact .base t t
  | string => exact .string
  | struct S => exact .struct S

/-- No code for a value is compiled for the parameter. -/
theorem not_compat_buffer {value : TypeValue} : ¬Compat value .buffer := by
  rintro ⟨⟩

namespace Env

variable (E : Env)

/-- What reading a value does. -/
def readAct (value : TypeValue) (p : Place) (t : CxxType) : Action :=
  match value, t with
  | .base _, .base t => (Action.checkSize t).andThen (E.get p (.base t))
  | .STRUCT, .struct S => E.callOn true p S
  | _, t => E.get p t

/-- What writing a value does. -/
def writeAct (value : TypeValue) (p : Place) (t : CxxType) : Action :=
  match value, t with
  | .STRUCT, .struct S => E.callOn false p S
  | _, t => E.put p t

/-- A struct that is nested has both methods. -/
def HasMethods (t : CxxType) : Prop :=
  ∀ S, t = .struct S → bodies E.decls S true ≠ [] ∧ bodies E.decls S false ≠ []

variable {E} {sc : Scope} {value : TypeValue} {p : Place} {t : CxxType}

/-- The read of a value compiles to what it does. -/
theorem simples_readValue (hres : sc.resolve E.decls x = some (p, t)) (hcompat : Compat value t)
    (hmethods : E.HasMethods t) :
    E.simples sc (readValue value x) = some (sc, E.readAct value p t) := by
  cases hcompat with
  | base t t' => simp [readValue, simples, simple, hres, CxxType.isScalar, readAct]
  | base_string t => simp [readValue, simples, simple, hres, CxxType.isScalar, readAct]
  | string => simp [readValue, simples, simple, hres, CxxType.isScalar, readAct]
  | struct T => simp [readValue, simples, simple, hres, readAct, (hmethods T rfl).1]

/-- The code of a value is refused for another type. -/
theorem simples_readValue_none (hres : sc.resolve E.decls x = some (p, t))
    (hcompat : ¬Compat value t) : E.simples sc (readValue value x) = none := by
  cases value with
  | base t' =>
    cases t <;> simp [readValue, simples, simple, hres]
    exact absurd (.base t' _) hcompat
  | STRING =>
    cases t <;> simp [readValue, simples, simple, hres, CxxType.isScalar]
    · exact hcompat (.base_string _)
    · exact hcompat .string
  | STRUCT =>
    cases t <;> simp [readValue, simples, simple, hres]
    exact absurd (.struct _) hcompat

/-- The write of a value compiles to what it does. -/
theorem simple_writeValue {x : CxxLVal} (hres : E.resolveLVal sc x = some (p, t))
    (hcompat : Compat value t) (hmethods : E.HasMethods t) :
    E.simple sc (writeValue value x) = some (sc, E.writeAct value p t) := by
  cases hcompat with
  | base t t' => simp [writeValue, simple, hres, CxxType.isScalar, writeAct]
  | base_string t => simp [writeValue, simple, hres, CxxType.isScalar, writeAct]
  | string => simp [writeValue, simple, hres, CxxType.isScalar, writeAct]
  | struct T => simp [writeValue, simple, hres, writeAct, (hmethods T rfl).2]

/-- Statements are compiled one after another. -/
theorem simples_append (sc : Scope) (a b : List CxxSimple) :
    E.simples sc (a ++ b) =
      (E.simples sc a).bind fun r => (E.simples r.1 b).map fun r' => (r'.1, r.2.andThen r'.2) := by
  induction a generalizing sc with
  | nil => simp [simples]
  | cons s a ih =>
    rw [List.cons_append, simples, simples]
    cases E.simple sc s with
    | none => rfl
    | some r => simp [ih, Option.map_bind, Option.bind_map, Function.comp_def, Action.andThen_assoc]

/-- Code is compiled one piece after another. -/
theorem code_append (sc : Scope) (a b : List CxxStmt) :
    E.code sc (a ++ b) =
      (E.code sc a).bind fun r => (E.code r.1 b).map fun r' => (r'.1, r.2.andThen r'.2) := by
  induction a generalizing sc with
  | nil => simp [code]
  | cons s a ih =>
    rw [List.cons_append, code, code]
    cases E.stmt sc s with
    | none => rfl
    | some r => simp [ih, Option.map_bind, Option.bind_map, Function.comp_def, Action.andThen_assoc]

/-- Statements without loops are compiled the same as code and as a loop's body. -/
theorem code_simples (sc : Scope) (body : List CxxSimple) :
    E.code sc (body.map .simple) = E.simples sc body := by
  induction body generalizing sc with
  | nil => rfl
  | cons s body ih =>
    rw [List.map_cons, code, simples, stmt]
    cases E.simple sc s with
    | none => rfl
    | some r => simp only [ih]

end Env

/-! ## Vectors -/

/-- In the loop over a vector `x`. -/
def Scope.inLoop (struct : String) (seen : List String) (x : String) : Scope :=
  { struct := struct, vars := ("i", .base .INT32) :: lenVars (("len_" ++ x) :: seen)
    outer := seen.length + 2 }

/-- The same after the declaration of `temp_x`. -/
def Scope.inTemp (struct : String) (seen : List String) (x : String) (t : CxxType) : Scope :=
  { Scope.inLoop struct seen x with
    vars := ("temp_" ++ x, t) :: (Scope.inLoop struct seen x).vars }

/-- The locals are the lengths and the parameter. -/
theorem length_lenVars (seen : List String) : (lenVars seen).length = seen.length + 1 := by
  simp [lenVars]

/-- In the loop `temp_x` is the local that has just been declared. -/
theorem resolve_temp {t : CxxType} :
    (Scope.inTemp S seen x t).resolve decls ("temp_" ++ x) = some (.loc (seen.length + 3), t) := by
  simp [Scope.resolve, Scope.inTemp, Scope.inLoop, Scope.findLocal, length_lenVars]

/-- Other names are seen as before the declaration. -/
theorem resolve_inTemp {t : CxxType} (h : y ≠ "temp_" ++ x) :
    (Scope.inTemp S seen x t).resolve decls y = (Scope.inLoop S seen x).resolve decls y := by
  simp only [Scope.resolve, Scope.inTemp, Scope.findLocal, if_neg h]

/-- The loop hides `i`. -/
theorem resolve_i : (Scope.inLoop S seen x).resolve decls "i" =
    some (.loc (seen.length + 2), .base .INT32) := by
  simp [Scope.resolve, Scope.inLoop, Scope.findLocal, length_lenVars]

/-- The vector itself is seen as before the loop. -/
theorem resolve_inLoop (hi : x ≠ "i") :
    (Scope.inLoop S seen x).resolve decls x = (Scope.between S seen).resolve decls x := by
  have hlen : Scope.findLocal (lenVars (("len_" ++ x) :: seen)) x =
      Scope.findLocal (lenVars seen) x :=
    if_neg (Ne.symm (len_ne_self x))
  simp only [Scope.resolve, Scope.inLoop, Scope.between, Scope.findLocal, if_neg hi, hlen]

/-- The type of the elements can be named in the loop. -/
def TypeVisible (decls : List Decl) (struct : String) (seen : List String) (tinfo : TypeInfo)
    (x : String) : Prop :=
  getStdName tinfo.name = "std::string" ∨
    tinfo.name ∉ "i" :: ("len_" ++ x) :: (seen ++ ["buffer"]) ∧
      tinfo.name ∉ (members decls struct).map Prod.fst

instance (tinfo : TypeInfo) : Decidable (TypeVisible decls S seen tinfo x) :=
  inferInstanceAs (Decidable (_ ∨ _))

/-- Only `string` has another name in C++. -/
theorem getStdName_eq {name : String} (h : getStdName name ≠ "std::string") :
    getStdName name = name := by
  rw [getStdName] at h ⊢
  split
  · next heq => rw [if_pos heq] at h; exact absurd rfl h
  · rfl

/-- `std::string` is what its name says. -/
theorem type_of_getStdName (hd : TypesFit decls) {name : String} {t : CxxType}
    (ht : typeNamed decls name = some t) (h : getStdName name = "std::string") : t = .string := by
  have hname : name = "string" ∨ name = "std::string" := by
    rw [getStdName] at h
    split at h
    · next heq => exact .inl heq
    · exact .inr h
  have hbuiltin : typeNamed decls name = some .string := by
    rcases hname with rfl | rfl
    · exact typeNamed_builtin hd rfl
    · exact typeNamed_builtin hd rfl
  rw [ht] at hbuiltin
  exact Option.some.inj hbuiltin

/-- A name is found in a list of members exactly if it is one of them. -/
theorem any_fst_iff {β : Type} (l : List (String × β)) (name : String) :
    l.any (·.1 == name) = true ↔ name ∈ l.map Prod.fst := by
  rw [List.any_eq_true, List.mem_map]
  constructor
  · rintro ⟨p, hp, heq⟩
    exact ⟨p, hp, eq_of_beq heq⟩
  · rintro ⟨p, hp, rfl⟩
    exact ⟨p, hp, beq_self_eq_true _⟩

/-- In the loop the type of the elements is found unless a local or a member hides it. -/
theorem resolveType_inLoop (hd : TypesFit decls) {tinfo : TypeInfo} {t : CxxType}
    (ht : typeNamed decls tinfo.name = some t) :
    (Scope.inLoop S seen x).resolveType decls (getStdName tinfo.name) =
      if TypeVisible decls S seen tinfo x then some t else none := by
  rw [Scope.resolveType]
  by_cases hstd : getStdName tinfo.name = "std::string"
  · have hvisible : TypeVisible decls S seen tinfo x := .inl hstd
    rw [if_pos hstd, if_pos hvisible, type_of_getStdName hd ht hstd]
  · rw [if_neg hstd, getStdName_eq hstd]
    -- the locals in the loop: the counter, this length, the earlier ones and the parameter
    have hvars : (Scope.inLoop S seen x).vars.map Prod.fst =
        "i" :: ("len_" ++ x) :: (seen ++ ["buffer"]) := by
      simp [Scope.inLoop, lenVars, Function.comp_def]
    -- a local or a member of that name hides the type
    have hiff : (((Scope.inLoop S seen x).vars.any (·.1 == tinfo.name) ||
        (members decls (Scope.inLoop S seen x).struct).any (·.1 == tinfo.name)) = true) ↔
        ¬TypeVisible decls S seen tinfo x := by
      rw [Bool.or_eq_true, any_fst_iff, any_fst_iff, hvars, TypeVisible, not_or, not_and_or,
        not_not, not_not]
      exact ⟨fun h => ⟨hstd, h⟩, fun h => h.2⟩
    by_cases hvisible : TypeVisible decls S seen tinfo x
    · rw [if_neg (fun h => hiff.mp h hvisible), if_pos hvisible, ht]
    · rw [if_pos (hiff.mpr hvisible), if_neg hvisible]

/-! ## Variables -/

/-- The name of a variable does not get in the way of the generated names. -/
def NameOk (decls : List Decl) (struct : String) (seen : List String) (tinfo : TypeInfo)
    (x : String) : Prop :=
  x ≠ "buffer" ∧
    if tinfo.vector then x ≠ "i" ∧ x ∉ seen ∧ TypeVisible decls struct seen tinfo x
    else tinfo.value = .STRUCT → x ∉ seen

instance (tinfo : TypeInfo) : Decidable (NameOk decls S seen tinfo x) :=
  inferInstanceAs (Decidable (_ ∧ ite _ _ _))

/-- A variable with its types, in the parser and in C++. -/
structure VarTyped (E : Env) (struct : String) (tinfo : TypeInfo) (x : String) (t : CxxType) :
    Prop where
  distinct : TypesFit E.decls
  well : WellTyped E.decls tinfo t
  member : memberType E.decls struct x = some (tinfo.cxxType t)
  methods : E.HasMethods t

/-- Where the name of a member leads. -/
def placeOf (seen : List String) (x : String) : Place :=
  if x ∈ seen then .loc (slotOf seen x) else .mem x

/-- The type found there. -/
def typeOf (seen : List String) (x : String) (t : CxxType) : CxxType :=
  if x ∈ seen then .base .INT32 else t

namespace Env

variable {E : Env} {tinfo : TypeInfo} {t : CxxType}

/-- What reading a variable does. -/
def readVarAct (E : Env) (seen : List String) (tinfo : TypeInfo) (x : String) (t : CxxType) :
    Action :=
  if tinfo.vector then
    (E.readAct (.base .INT32) (.loc (seen.length + 1)) (.base .INT32)).andThen
      (.loop (.loc (seen.length + 1)) (seen.length + 2)
        ((E.decl (seen.length + 3) t).andThen
          ((E.readAct tinfo.value (.loc (seen.length + 3)) t).andThen
            (.pushBack (.mem x) (.loc (seen.length + 3))))))
  else E.readAct tinfo.value (placeOf seen x) (typeOf seen x t)

/-- What writing a variable does. -/
def writeVarAct (E : Env) (seen : List String) (tinfo : TypeInfo) (x : String) (t : CxxType) :
    Action :=
  if tinfo.vector then
    (Action.declSize (seen.length + 1) (.mem x)).andThen
      ((E.put (.loc (seen.length + 1)) (.base .INT32)).andThen
        (.loop (.loc (seen.length + 1)) (seen.length + 2)
          (E.writeAct tinfo.value (.elem (.mem x) (seen.length + 2)) t)))
  else E.writeAct tinfo.value (placeOf seen x) (typeOf seen x t)

/-- What a name of a list resolves to. -/
theorem resolve_var (seen : List String) (h : VarTyped E S tinfo x t) (hbuffer : x ≠ "buffer") :
    (Scope.between S seen).resolve E.decls x =
      some (placeOf seen x, typeOf seen x (tinfo.cxxType t)) := by
  rw [placeOf, typeOf]
  by_cases hx : x ∈ seen
  · rw [if_pos hx, if_pos hx, resolve_of_mem hx]
  · rw [if_neg hx, if_neg hx, resolve_member hx hbuffer, h.member]
    rfl

/-- What a name leads to is of a type that the code is compiled for. -/
theorem compat_typeOf (h : Matches tinfo.value t) (hstruct : tinfo.value = .STRUCT → x ∉ seen) :
    Compat tinfo.value (typeOf seen x t) := by
  rw [typeOf]
  by_cases hx : x ∈ seen
  · rw [if_pos hx]
    cases hvalue : tinfo.value with
    | base t' => exact .base t' .INT32
    | STRING => exact .base_string .INT32
    | STRUCT => exact absurd hx (hstruct hvalue)
  · rw [if_neg hx]
    exact h.compat

/-- A length is no struct, so it needs no methods. -/
theorem hasMethods_typeOf (h : E.HasMethods t) : E.HasMethods (typeOf seen x t) := by
  intro T hT
  rw [typeOf] at hT
  split at hT
  · cases hT
  · exact h T hT

/-- A declaration of the generator is new. -/
theorem declare_len (hnew : "len_" ++ x ∉ seen) :
    (Scope.between S seen).declare ("len_" ++ x) (.base .INT32) =
      some (Scope.between S (("len_" ++ x) :: seen)) := by
  have hany : ¬((lenVars seen).any (·.1 == "len_" ++ x)) = true := by
    rw [any_fst_iff]
    simp [lenVars, Function.comp_def, hnew, len_ne_buffer]
  rw [Scope.declare, Scope.between, Nat.sub_zero, List.take_length, if_neg hany]
  rfl

/-- `temp_x` may be declared in the loop. -/
theorem declare_temp :
    (Scope.inLoop S seen x).declare ("temp_" ++ x) t = some (Scope.inTemp S seen x t) := by
  have htake : (Scope.inLoop S seen x).vars.take
      ((Scope.inLoop S seen x).vars.length - (Scope.inLoop S seen x).outer) =
        [("i", .base .INT32)] := by
    simp [Scope.inLoop, length_lenVars]
  rw [Scope.declare, htake, if_neg (by simpa using (temp_ne_i x).symm)]
  rfl

/-- The loop declares its counter. -/
theorem enter_loop :
    (Scope.between S (("len_" ++ x) :: seen)).enter.declare "i" (.base .INT32) =
      some (Scope.inLoop S seen x) := by
  simp [Scope.declare, Scope.enter, Scope.between, Scope.inLoop, length_lenVars]

/-- A value that is no vector. -/
theorem code_readScalar (h : VarTyped E S tinfo x t) (hseen : AreLengths seen)
    (hvector : tinfo.vector = false) :
    E.code (.between S seen) (readCode tinfo x) =
      if NameOk E.decls S seen tinfo x then
        some (.between S (seenAfter seen tinfo x), E.readVarAct seen tinfo x t)
      else none := by
  have hafter : seenAfter seen tinfo x = seen := by simp [seenAfter, hvector]
  have hact : E.readVarAct seen tinfo x t =
      E.readAct tinfo.value (placeOf seen x) (typeOf seen x t) := by simp [readVarAct, hvector]
  rw [readCode, if_neg (by simp [hvector]), code_simples, hafter, hact]
  by_cases hbuffer : x = "buffer"
  · -- the parameter is no value
    have hnot : ¬NameOk E.decls S seen tinfo x := fun hok => hok.1 hbuffer
    rw [if_neg hnot, hbuffer]
    exact simples_readValue_none (resolve_buffer hseen) not_compat_buffer
  · have hres := resolve_var seen h hbuffer
    rw [TypeInfo.cxxType, if_neg (by simp [hvector])] at hres
    by_cases hstruct : tinfo.value = .STRUCT → x ∉ seen
    · have hok : NameOk E.decls S seen tinfo x := ⟨hbuffer, by simpa [hvector] using hstruct⟩
      rw [if_pos hok]
      exact simples_readValue hres (compat_typeOf h.well.value hstruct) (hasMethods_typeOf h.methods)
    · have hnot : ¬NameOk E.decls S seen tinfo x := fun hok =>
        hstruct (by simpa [hvector] using hok.2)
      rw [if_neg hnot]
      -- a length where a struct is meant
      obtain ⟨hvalue, hx⟩ : tinfo.value = .STRUCT ∧ x ∈ seen := by
        simpa using hstruct
      apply simples_readValue_none hres
      rw [typeOf, if_pos hx, hvalue]
      rintro ⟨⟩

/-- The vector must be found behind the locals. -/
theorem simple_pushBack (h : VarTyped E S tinfo x t) (hvector : tinfo.vector = true)
    (hseen : AreLengths seen) :
    E.simple (.inTemp S seen x t) (.pushBack x ("temp_" ++ x)) =
      if x ≠ "buffer" ∧ x ≠ "i" ∧ x ∉ seen then
        some (.inTemp S seen x t, .pushBack (.mem x) (.loc (seen.length + 3)))
      else none := by
  rw [simple, resolve_temp, resolve_inTemp (Ne.symm (temp_ne_self x))]
  by_cases hi : x = "i"
  · have hloop : (Scope.inLoop S seen x).resolve E.decls "i" = _ := resolve_i
    rw [← hi] at hloop
    rw [hloop, if_neg fun hok => hok.2.1 hi]
  rw [resolve_inLoop hi]
  by_cases hbuffer : x = "buffer"
  · rw [if_neg fun hok => hok.1 hbuffer, hbuffer, resolve_buffer hseen]
  rw [resolve_var seen h hbuffer, placeOf, typeOf, TypeInfo.cxxType, if_pos hvector]
  by_cases hx : x ∈ seen
  · rw [if_pos hx, if_pos hx, if_neg fun hok => hok.2.2 hx]
  · rw [if_neg hx, if_neg hx, if_pos ⟨hbuffer, hi, hx⟩]
    exact if_pos rfl

/-- The body of the loop that reads a vector. -/
theorem simples_readLoop (h : VarTyped E S tinfo x t) (hvector : tinfo.vector = true)
    (hseen : AreLengths seen) :
    E.simples (.inLoop S seen x) (.decl (getStdName tinfo.name) ("temp_" ++ x) ::
        readValue tinfo.value ("temp_" ++ x) ++ [CxxSimple.pushBack x ("temp_" ++ x)]) =
      if NameOk E.decls S seen tinfo x then
        some (.inTemp S seen x t, (E.decl (seen.length + 3) t).andThen
          ((E.readAct tinfo.value (.loc (seen.length + 3)) t).andThen
            (.pushBack (.mem x) (.loc (seen.length + 3)))))
      else none := by
  have hlength : (Scope.inLoop S seen x).vars.length = seen.length + 3 := by
    simp [Scope.inLoop, length_lenVars]
  -- the element is declared where no variable hides its type
  have htype : (Scope.inLoop S seen x).resolveType E.decls (getStdName tinfo.name) =
      if TypeVisible E.decls S seen tinfo x then some t else none :=
    resolveType_inLoop h.distinct h.well.name
  by_cases hvisible : TypeVisible E.decls S seen tinfo x
  · rw [if_pos hvisible] at htype
    have hdecl : E.simple (.inLoop S seen x) (.decl (getStdName tinfo.name) ("temp_" ++ x)) =
        some (.inTemp S seen x t, E.decl (seen.length + 3) t) := by
      simp only [simple, htype, Option.bind_some, declare_temp, hlength]
    have hread : E.simples (.inTemp S seen x t) (readValue tinfo.value ("temp_" ++ x)) =
        some (.inTemp S seen x t, E.readAct tinfo.value (.loc (seen.length + 3)) t) :=
      simples_readValue resolve_temp h.well.value.compat h.methods
    -- a declaration, the read into it, and `push_back` of it
    rw [List.cons_append, simples, hdecl]
    simp only [simples_append, hread, Option.bind_some, simples, simple_pushBack h hvector hseen]
    have hiff : NameOk E.decls S seen tinfo x ↔ x ≠ "buffer" ∧ x ≠ "i" ∧ x ∉ seen := by
      rw [NameOk, if_pos hvector]
      tauto
    by_cases hok : x ≠ "buffer" ∧ x ≠ "i" ∧ x ∉ seen
    · simp only [if_pos hok, if_pos (hiff.mpr hok), Option.map_some, Action.andThen_skip]
    · rw [if_neg hok, if_neg (hok ∘ hiff.mp)]
      rfl
  -- a hidden type is refused in the declaration
  · have hnot : ¬NameOk E.decls S seen tinfo x := by
      intro hok
      have := hok.2
      rw [if_pos hvector] at this
      exact hvisible this.2.2
    rw [if_neg hvisible] at htype
    rw [if_neg hnot, List.cons_append, simples, simple, htype]

/-- Reading a variable is compiled if its name is good. -/
theorem code_readCode (h : VarTyped E S tinfo x t) (hseen : AreLengths seen)
    (hnew : "len_" ++ x ∉ seen) :
    E.code (.between S seen) (readCode tinfo x) =
      if NameOk E.decls S seen tinfo x then
        some (.between S (seenAfter seen tinfo x), E.readVarAct seen tinfo x t)
      else none := by
  cases hvector : tinfo.vector with
  | false => exact code_readScalar h hseen hvector
  | true =>
    -- the length is declared last, so it is found first
    have hlen : (Scope.between S (("len_" ++ x) :: seen)).resolve E.decls ("len_" ++ x) =
        some (.loc (seen.length + 1), .base .INT32) := by
      rw [resolve_of_mem List.mem_cons_self, slotOf, if_pos rfl]
    have hdecl : E.simple (.between S seen) (.declInt ("len_" ++ x)) =
        some (.between S (("len_" ++ x) :: seen), .skip) := by
      rw [simple, declare_len hnew]
      rfl
    have hread : E.simples (.between S (("len_" ++ x) :: seen))
        (readValue (.base .INT32) ("len_" ++ x)) = some (.between S (("len_" ++ x) :: seen),
          E.readAct (.base .INT32) (.loc (seen.length + 1)) (.base .INT32)) :=
      simples_readValue hlen (.base _ _) fun _ hS => by cases hS
    have hslot : (Scope.between S (("len_" ++ x) :: seen)).vars.length = seen.length + 2 :=
      length_lenVars _
    -- the length is read, then the loop runs over it
    rw [readCode, if_pos hvector, List.cons_append, code, stmt, hdecl]
    simp only [code_append, code_simples, hread, Option.bind_some, code, stmt, hlen, enter_loop,
      simples_readLoop h hvector hseen, hslot]
    by_cases hok : NameOk E.decls S seen tinfo x
    · simp only [if_pos hok, Option.map_some, Action.andThen_skip, Action.skip_andThen, seenAfter,
        readVarAct, if_pos hvector]
    · rw [if_neg hok, if_neg hok]
      rfl

/-- Writing a variable with a good name is compiled. -/
theorem code_writeCode (h : VarTyped E S tinfo x t) (hnew : "len_" ++ x ∉ seen)
    (hok : NameOk E.decls S seen tinfo x) :
    E.code (.between S seen) (writeCode tinfo x) =
      some (.between S (seenAfter seen tinfo x), E.writeVarAct seen tinfo x t) := by
  have hres := resolve_var seen h hok.1
  cases hvector : tinfo.vector with
  -- a name that is a length is written from there
  | false =>
    rw [TypeInfo.cxxType, if_neg (by simp [hvector])] at hres
    have hstruct : tinfo.value = .STRUCT → x ∉ seen := by
      have := hok.2
      rwa [if_neg (by simp [hvector])] at this
    have hwrite : E.simple (.between S seen) (writeValue tinfo.value (.var x)) =
        some (.between S seen, E.writeAct tinfo.value (placeOf seen x) (typeOf seen x t)) :=
      simple_writeValue hres (compat_typeOf h.well.value hstruct) (hasMethods_typeOf h.methods)
    simp only [writeCode, hvector, Bool.false_eq_true, if_false, code, stmt, hwrite, Option.map_some,
      Action.andThen_skip, seenAfter, writeVarAct]
  | true =>
    -- a vector is found as the member only
    have hname := hok.2
    rw [if_pos hvector] at hname
    obtain ⟨hi, hx, -⟩ := hname
    rw [placeOf, typeOf, if_neg hx, if_neg hx, TypeInfo.cxxType, if_pos hvector] at hres
    have hlen : (Scope.between S (("len_" ++ x) :: seen)).resolve E.decls ("len_" ++ x) =
        some (.loc (seen.length + 1), .base .INT32) := by
      rw [resolve_of_mem List.mem_cons_self, slotOf, if_pos rfl]
    have hslot : (Scope.between S (("len_" ++ x) :: seen)).vars.length = seen.length + 2 :=
      length_lenVars _
    have hslot' : (Scope.between S seen).vars.length = seen.length + 1 := length_lenVars _
    have hdecl : E.simple (.between S seen) (.declSize ("len_" ++ x) x) =
        some (.between S (("len_" ++ x) :: seen), .declSize (seen.length + 1) (.mem x)) := by
      simp only [simple, hres, declare_len hnew, hslot']
    have hput : E.simple (.between S (("len_" ++ x) :: seen))
        (writeValue (.base .INT32) (.var ("len_" ++ x))) =
          some (.between S (("len_" ++ x) :: seen),
            E.put (.loc (seen.length + 1)) (.base .INT32)) :=
      simple_writeValue (x := .var ("len_" ++ x)) hlen (.base _ _) fun _ hS => by cases hS
    -- in the loop the element is that of the member at `i`
    have hat : E.resolveLVal (.inLoop S seen x) (.at x) =
        some (.elem (.mem x) (seen.length + 2), t) := by
      simp only [resolveLVal, resolve_inLoop hi, hres, resolve_i]
    have hwrite : E.simple (.inLoop S seen x) (writeValue tinfo.value (.at x)) =
        some (.inLoop S seen x,
          E.writeAct tinfo.value (.elem (.mem x) (seen.length + 2)) t) :=
      simple_writeValue hat h.well.value.compat h.methods
    simp only [writeCode, hvector, if_true, code, stmt, hdecl, hput, hlen, enter_loop, simples,
      hwrite, hslot, Option.map_some, Action.andThen_skip, seenAfter, writeVarAct]

end Env

/-! ## Lists -/

/-- The type of the values of a variable. -/
def elemType (decls : List Decl) (tinfo : TypeInfo) : CxxType :=
  (typeNamed decls tinfo.name).getD .buffer

/-- All names of a list are good. -/
def NamesOk (decls : List Decl) (struct : String) : List String → List (TypeInfo × String) → Prop
  | _, [] => True
  | seen, v :: vars =>
    NameOk decls struct seen v.1 v.2 ∧ NamesOk decls struct (seenAfter seen v.1 v.2) vars

instance NamesOk.decidable : ∀ (seen : List String) (vars : List (TypeInfo × String)),
    Decidable (NamesOk decls S seen vars)
  | _, [] => .isTrue trivial
  | seen, v :: vars =>
    haveI := NamesOk.decidable (seenAfter seen v.1 v.2) vars
    inferInstanceAs (Decidable (_ ∧ _))

/-- The variables of a list, each once, none of whose lengths is declared. -/
structure ListTyped (E : Env) (struct : String) (seen : List String)
    (vars : List (TypeInfo × String)) : Prop where
  typed : ∀ v ∈ vars, ∃ t, VarTyped E struct v.1 v.2 t
  nodup : (vars.map Prod.snd).Nodup
  lengths : AreLengths seen
  fresh : ∀ v ∈ vars, "len_" ++ v.2 ∉ seen

/-- The rest of a list is one, behind the length of the first variable. -/
theorem ListTyped.tail {E : Env} {v : TypeInfo × String} {vars : List (TypeInfo × String)}
    (h : ListTyped E S seen (v :: vars)) : ListTyped E S (seenAfter seen v.1 v.2) vars where
  typed w hw := h.typed w (List.mem_cons_of_mem v hw)
  nodup := (List.nodup_cons.mp h.nodup).2
  lengths := h.lengths.after v.1 v.2
  fresh := by
    intro w hw hmem
    have hold := h.fresh w (List.mem_cons_of_mem v hw)
    rw [seenAfter] at hmem
    split at hmem
    · rcases List.mem_cons.mp hmem with heq | hmem
      · -- another variable has another length
        have hname := len_injective heq
        have hnot := (List.nodup_cons.mp h.nodup).1
        exact hnot (List.mem_map.mpr ⟨w, hw, hname⟩)
      · exact hold hmem
    · exact hold hmem

namespace Env

variable {E : Env}

/-- The type of the values is that of the variable's type in C++. -/
theorem elemType_eq {tinfo : TypeInfo} {t : CxxType} (h : VarTyped E S tinfo x t) :
    elemType E.decls tinfo = t := by
  rw [elemType, h.well.name]
  rfl

/-- What a list does in a `read`. -/
def readListAct (E : Env) : List String → List (TypeInfo × String) → Action
  | _, [] => .skip
  | seen, v :: vars =>
    (E.readVarAct seen v.1 v.2 (elemType E.decls v.1)).andThen
      (readListAct E (seenAfter seen v.1 v.2) vars)

/-- What a list does in a `write`. -/
def writeListAct (E : Env) : List String → List (TypeInfo × String) → Action
  | _, [] => .skip
  | seen, v :: vars =>
    (E.writeVarAct seen v.1 v.2 (elemType E.decls v.1)).andThen
      (writeListAct E (seenAfter seen v.1 v.2) vars)

/-- The code of a list is that of its variables. -/
theorem listCode_cons (isRead : Bool) (v : TypeInfo × String) (vars : List (TypeInfo × String)) :
    listCode isRead (v :: vars) =
      (if isRead then readCode v.1 v.2 else writeCode v.1 v.2) ++ listCode isRead vars :=
  List.flatMap_cons

/-- The `read` of a list is compiled exactly if its names are good, and does what it should. -/
theorem code_readList {vars : List (TypeInfo × String)} (h : ListTyped E S seen vars) :
    (E.code (.between S seen) (listCode true vars)).map (·.2) =
      if NamesOk E.decls S seen vars then some (E.readListAct seen vars) else none := by
  induction vars generalizing seen with
  | nil => exact (if_pos trivial).symm
  | cons v vars ih =>
    obtain ⟨t, ht⟩ := h.typed v List.mem_cons_self
    have hcode := code_readCode ht h.lengths (h.fresh v List.mem_cons_self)
    have hrest := ih h.tail
    rw [listCode_cons, if_pos rfl, code_append, hcode, readListAct, elemType_eq ht]
    -- a list is compiled if its first variable is, and the others behind its length
    by_cases hok : NameOk E.decls S seen v.1 v.2
    · by_cases hoks : NamesOk E.decls S (seenAfter seen v.1 v.2) vars
      · rw [if_pos hoks, Option.map_eq_some_iff] at hrest
        obtain ⟨r, hr, hact⟩ := hrest
        rw [if_pos hok, if_pos ⟨hok, hoks⟩, Option.bind_some, hr]
        simp only [Option.map_some, hact]
      · rw [if_neg hoks, Option.map_eq_none_iff] at hrest
        rw [if_pos hok, if_neg fun hall => hoks hall.2, Option.bind_some, hrest]
        rfl
    · rw [if_neg hok, if_neg fun hall => hok hall.1]
      rfl

/-- The `write` of a list is compiled if its names are good. -/
theorem code_writeList {vars : List (TypeInfo × String)} (h : ListTyped E S seen vars)
    (hok : NamesOk E.decls S seen vars) :
    (E.code (.between S seen) (listCode false vars)).map (·.2) =
      some (E.writeListAct seen vars) := by
  induction vars generalizing seen with
  | nil => rfl
  | cons v vars ih =>
    obtain ⟨t, ht⟩ := h.typed v List.mem_cons_self
    have hcode := code_writeCode ht (h.fresh v List.mem_cons_self) hok.1
    have hrest := ih h.tail hok.2
    rw [Option.map_eq_some_iff] at hrest
    obtain ⟨r, hr, hact⟩ := hrest
    rw [listCode_cons, if_neg Bool.false_ne_true, code_append, hcode, writeListAct, elemType_eq ht,
      Option.bind_some, hr]
    simp only [Option.map_some, hact]

end Env

end Athena.Idl
