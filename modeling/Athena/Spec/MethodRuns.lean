import Athena.Native.NetworkWire
import Athena.Spec.MethodAgreement

/-!
# Runs of the two methods

A method that calls others, at any depth, by induction on the depth (`callsAgree_run`).  What Lua
finds under the name of a type is the class that C++ means (`classNamed_of_typeNamed`), by the
typedefs of an accepted file.

## Key results

- `methods_agree`: the Lua method runs as the C++ method, when each step is one that Lua follows
-/

namespace Athena.Idl

/-! ## Calls of any depth -/

section Runs

variable {E : CxxEnv} {init : String → Expr → LuaVal} {literal : String → Val}
  {call : Bool → String → LuaProgram} {isRead : Bool} {D : Set String} {known : List (Set String)}
  {T : String}

/-- The variables of every method have the types that the parser found. -/
def MethodsTyped (decls : List Decl) : Prop :=
  ∀ T isRead, ∀ body ∈ bodies decls T isRead, VarsTyped decls T body.vars

/-- A method that runs in C++ has one body. -/
theorem CxxEnv.run_eq {v : Val} {buf : ByteBuf} (h : (E.run isRead T v buf).ending ≠ .stuck) :
    ∃ body a o, bodies E.decls T isRead = [body] ∧ E.block isRead (.inBlock T [] 0) body = some a ∧
      v = .obj o ∧ E.run isRead T v buf =
        { ending := (a { self := o, loc := fun _ => .num 0, buf := buf }).ending
          state := (.obj (a { self := o, loc := fun _ => .num 0, buf := buf }).state.self,
            (a { self := o, loc := fun _ => .num 0, buf := buf }).state.buf)
          trace := (a { self := o, loc := fun _ => .num 0, buf := buf }).trace } := by
  unfold CxxEnv.run at h ⊢
  cases hmethod : E.method isRead T with
  | none => exact absurd (by rw [hmethod]; rfl) h
  | some a =>
    cases v with
    | obj o =>
      have hblock := hmethod
      unfold CxxEnv.method at hblock
      split at hblock
      · next body hbody => exact ⟨body, a, o, hbody, hblock, rfl, rfl⟩
      · cases hblock
    | num x => exact absurd (by rw [hmethod]; rfl) h
    | str s => exact absurd (by rw [hmethod]; rfl) h
    | vec vs => exact absurd (by rw [hmethod]; rfl) h

/-- One method, when Lua follows those that it calls. -/
theorem CxxEnv.run_followed (hd : TypesFit E.decls) (hfits : LuaFits E.decls)
    (hloads : E.decls.all Decl.loads = true) (htyped : MethodsTyped E.decls)
    (hcalls : CallsAgree E init call) {v : Val} {buf : ByteBuf}
    (hstuck : (E.run isRead T v buf).ending ≠ .stuck) :
    ∃ o o', v = .obj o ∧ (E.run isRead T v buf).state.1 = .obj o' ∧
      ∀ known D l, EqualBut E.decls D T o l.self → (isRead = false → D = ∅) →
        l.globals = luaGlobals E.decls → l.buf = buf →
        (backends E.decls init).Allows (D :: known) (E.run isRead T v buf).trace →
        Followed E.decls init D known T (E.run isRead T v buf).trace (E.run isRead T v buf).ending
          o' (E.run isRead T v buf).state.2 ((E.luaEnv init literal call).run isRead T l) := by
  obtain ⟨body, a, o, hbodies, hblock, rfl, hrun⟩ := CxxEnv.run_eq hstuck
  rw [hrun] at hstuck ⊢
  refine ⟨o, _, rfl, rfl, fun known D l hequal hwrite hglobals hbuf hallows => ?_⟩
  have hvars := htyped T isRead body (by rw [hbodies]; exact List.mem_cons_self)
  have hbody : (backends E.decls init).Simulates (Between E.decls isRead D known T [])
      (BetweenMore E.decls isRead D known T []) (Ended E.decls D known T) a
      ((E.luaEnv init literal call).block isRead body) :=
    body.simulates hd hfits hcalls hwrite [] 0 hvars hblock
  have hstart : Between E.decls isRead D known T [] (D :: known)
      { self := o, loc := fun _ => .num 0, buf := buf }
      { l with locals := [("buffer", .buffer), ("self", .self)] } :=
    { stale := ⟨D, rfl, hequal, subset_rfl⟩
      globals := hglobals
      buf := hbuf
      locals := rfl }
  have hagrees := hbody _ _ _ hstart hstuck hallows
  have hlua : (E.luaEnv init literal call).run isRead T l =
      (E.luaEnv init literal call).block isRead body
        { l with locals := [("buffer", .buffer), ("self", .self)] } := by
    have hlast : (bodies E.decls T isRead).getLast? = some body := by rw [hbodies]; rfl
    simp only [LuaEnv.run, CxxEnv.luaEnv, hloads, hlast]
  -- the method goes to its end, or returns before
  have hended : Ended E.decls D known T ((backends E.decls init).after (D :: known)
      (a { self := o, loc := fun _ => .num 0, buf := buf }).trace)
      (a { self := o, loc := fun _ => .num 0, buf := buf }).state
      ((E.luaEnv init literal call).run isRead T l).state := by
    rw [hlua]
    cases hend : (a { self := o, loc := fun _ => .num 0, buf := buf }).ending with
    | next =>
      obtain ⟨more, hbetween⟩ := hagrees.next hend
      exact hbetween.toEnded
    | returned => exact hagrees.returned hend
    | stuck => exact absurd hend hstuck
  exact
    { ending := hlua ▸ hagrees.ending
      trace := hlua ▸ hagrees.trace
      globals := hended.globals
      buf := hended.buf
      stale := hended.stale }

end Runs

/-- Lua for the same declarations and the same buffer. -/
def Compiler.lua (C : Compiler) (init : String → Expr → LuaVal) (literal : String → Val) :
    Interpreter :=
  { decls := C.decls, wire := C.wire, init := init, literal := literal }

/-- Lua follows the methods of every depth. -/
theorem callsAgree_run (C : Compiler) (init : String → Expr → LuaVal) (literal : String → Val)
    (hd : TypesFit C.decls) (hfits : LuaFits C.decls) (hloads : C.decls.all Decl.loads = true)
    (htyped : MethodsTyped C.decls) (fuel : Nat) :
    CallsAgree (C.env fuel (C.run fuel)) init ((C.lua init literal).run fuel) := by
  induction fuel with
  | zero =>
    intro isRead T v buf ok v' buf' hcall
    cases hcall
  | succ fuel ih =>
    intro isRead T v buf ok v' buf' hcall
    have hresult : ((C.env fuel (C.run fuel)).run isRead T v buf).result = some (ok, v', buf') :=
      hcall
    have hend : ((C.env fuel (C.run fuel)).run isRead T v buf).ending =
          (if ok then .next else .returned) ∧
        ((C.env fuel (C.run fuel)).run isRead T v buf).state = (v', buf') := by
      rw [Outcome.result] at hresult
      split at hresult
      · next hend =>
        obtain ⟨rfl, hstate⟩ := Prod.mk.inj (Option.some.inj hresult)
        exact ⟨hend, hstate⟩
      · next hend =>
        obtain ⟨rfl, hstate⟩ := Prod.mk.inj (Option.some.inj hresult)
        exact ⟨hend, hstate⟩
      · cases hresult
    have hstuck : ((C.env fuel (C.run fuel)).run isRead T v buf).ending ≠ .stuck := by
      rw [hend.1]
      cases ok <;> decide
    obtain ⟨o, o', rfl, ho', hfollowed⟩ := CxxEnv.run_followed hd hfits hloads htyped ih hstuck
    refine ⟨o, o', rfl, ?_, fun known D l hequal hwrite hglobals hbuf hallows => ?_⟩
    · rw [hend.2] at ho'
      exact ho'
    · have hlua := hfollowed known D l hequal hwrite hglobals hbuf hallows
      rw [hend.1, hend.2] at hlua
      exact hlua

/-! ## What Lua finds -/

/-- The typedefs say what is known where they stand. -/
def TypedefsTyped : List Decl → Prop
  | [] => True
  | .typedef tinfo _ :: decls => (∃ t, WellTyped decls tinfo t) ∧ TypedefsTyped decls
  | .struct _ _ _ :: decls => TypedefsTyped decls

namespace Parser

variable {st st' : ParserState} {toks : List Tok}

/-- The typedefs of a file say what is known where they stand. -/
theorem start_typedefs {files : String → Option (List Tok)} {fuel : Nat} {file : String}
    (h : StateSound st) (htypedefs : TypesFit st.decls → TypedefsTyped st.decls)
    (hstart : start files fuel file st toks = some st') :
    TypesFit st'.decls → TypedefsTyped st'.decls := by
  induction fuel generalizing file st st' toks with
  | zero => simp [start] at hstart
  | succ fuel ih =>
    unfold start at hstart
    split at hstart
    · exact Option.some.inj hstart ▸ htypedefs
    · exact ih h htypedefs hstart
    · simp only [Option.bind_eq_bind, Option.bind_eq_some_iff] at hstart
      -- the typedef, and those before it
      obtain ⟨⟨st₁, rest⟩, htypedef, hstart⟩ := hstart
      refine ih (typedef_sound h htypedef) (fun hd => ?_) hstart
      simp only [typedef, Option.bind_eq_bind, Option.bind_eq_some_iff] at htypedef
      obtain ⟨⟨tinfo, rest'⟩, hdata, htypedef⟩ := htypedef
      split at htypedef
      · simp only [Option.some.injEq, Prod.mk.injEq] at htypedef
        obtain ⟨rfl, -⟩ := htypedef
        exact ⟨dataType_sound (h hd.tail).1 hd.tail hdata, htypedefs hd.tail⟩
      · cases htypedef
    · simp only [Option.bind_eq_bind, Option.bind_eq_some_iff] at hstart
      obtain ⟨⟨st₁, rest⟩, hstruct, hstart⟩ := hstart
      refine ih (struct_sound h hstruct) (fun hd => ?_) hstart
      unfold struct at hstruct
      split at hstruct
      · simp only [Option.bind_eq_bind, Option.bind_eq_some_iff, Option.some.injEq] at hstruct
        obtain ⟨⟨items, _⟩, -, heq⟩ := hstruct
        obtain ⟨rfl, -⟩ := Prod.mk.inj heq
        exact htypedefs hd.tail
      · cases hstruct
    · simp only [Option.bind_eq_bind, Option.bind_eq_some_iff] at hstart
      obtain ⟨imported, -, st₁, himported, hstart⟩ := hstart
      exact ih (start_sound h himported) (ih h htypedefs himported) hstart
    · cases hstart

/-- The typedefs of an accepted file say what is known where they stand. -/
theorem accepts_typedefs {files : String → Option (List Tok)} {file : String} {decls : List Decl}
    (haccepts : Accepts files file decls) (hd : TypesFit decls) : TypedefsTyped decls := by
  obtain ⟨fuel, toks, st, -, hstart, rfl⟩ := haccepts
  have hinit : StateSound .init := by
    refine fun _ => ⟨⟨fun name tinfo h => ?_, fun name h => ?_⟩, fun place name items h => ?_⟩
    · cases h
    · cases h
    · cases h
  exact start_typedefs hinit (fun _ => trivial) hstart hd

end Parser

/-- The name of a struct in C++ is the one of its class. -/
theorem classNamed_of_typeNamed {decls : List Decl} (hd : TypesFit decls)
    (htypedefs : TypedefsTyped decls) {name T : String}
    (h : typeNamed decls name = some (.struct T)) : classNamed decls name = some T := by
  induction decls generalizing name with
  | nil =>
    have hmem := mem_of_lookup (h : builtinTypes.lookup name = some (.struct T))
    simp [builtinTypes] at hmem
  | cons d decls ih =>
    cases d with
    | typedef tinfo name' =>
      obtain ⟨⟨t, hwell⟩, hrest⟩ := htypedefs
      rw [typeNamed] at h
      rw [classNamed]
      -- the class that a typedef names is that of the type it stands for
      split at h
      · next heq =>
        rw [hwell.declared, TypeInfo.cxxType] at h
        split at h
        · cases h
        · obtain rfl := Option.some.inj h
          rw [if_pos ⟨heq, hwell.value.value_struct⟩]
          exact ih hd.tail hrest hwell.name
      · next hne =>
        rw [if_neg fun hand => hne hand.1]
        exact ih hd.tail hrest h
    | struct place name' items =>
      rw [typeNamed] at h
      rw [classNamed]
      split at h
      · next heq =>
        cases h
        exact if_pos heq
      · next hne =>
        rw [if_neg hne]
        exact ih hd.tail htypedefs h

/-- A class has its own name. -/
theorem typeNamed_of_struct {decls : List Decl} (hd : TypesFit decls)
    (htypedefs : TypedefsTyped decls) {name T : String}
    (h : typeNamed decls name = some (.struct T)) : typeNamed decls T = some (.struct T) := by
  induction decls generalizing name with
  | nil =>
    have hmem := mem_of_lookup (h : builtinTypes.lookup name = some (.struct T))
    simp [builtinTypes] at hmem
  | cons d decls ih =>
    cases d with
    | typedef tinfo name' =>
      obtain ⟨⟨t, hwell⟩, hrest⟩ := htypedefs
      rw [typeNamed] at h
      split at h
      · rw [hwell.declared, TypeInfo.cxxType] at h
        split at h
        · cases h
        · obtain rfl := Option.some.inj h
          exact typeNamed_cons hd (ih hd.tail hrest hwell.name)
      · exact typeNamed_cons hd (ih hd.tail hrest h)
    | struct place name' items =>
      rw [typeNamed] at h
      split at h
      · cases h
        next heq => exact if_pos heq
      · exact typeNamed_cons hd (ih hd.tail htypedefs h)

/-- The header compiles, and Lua finds what the methods call. -/
structure BothLoad (decls : List Decl) : Prop where
  types : TypesFit decls
  nodup : ∀ S, ((members decls S).map Prod.fst).Nodup
  loads : decls.all Decl.loads = true
  library : classNamed decls "setmetatable" = none
  methods : ∀ S isRead, LuaEnv.methodName isRead ∉ (members decls S).map Prod.fst

section Loaded

variable {files : String → Option (List Tok)} {file : String} {decls : List Decl}

/-- Lua finds the classes that C++ means. -/
theorem BothLoad.luaFits (h : BothLoad decls) (haccepts : Parser.Accepts files file decls) :
    LuaFits decls where
  classes name T hname := by
    have htypedefs := Parser.accepts_typedefs haccepts h.types
    exact ⟨classNamed_of_typeNamed h.types htypedefs hname,
      classNamed_of_typeNamed h.types htypedefs (typeNamed_of_struct h.types htypedefs hname)⟩
  library := h.library
  methods := h.methods

/-- The variables of the methods are typed. -/
theorem BothLoad.methodsTyped (h : BothLoad decls) (haccepts : Parser.Accepts files file decls) :
    MethodsTyped decls := by
  intro T isRead body hbody v hv
  exact (memberType_of_vars haccepts h.types (h.nodup T) hbody hv).2

end Loaded

/-! ## Agreement -/

/-- The two runs do the same with the buffer, end the same and leave equal members. -/
structure SameRun (decls : List Decl) (S : String) (cxx : Outcome (Val × ByteBuf) CxxEvent)
    (lua : Outcome LuaFrame BufOp) : Prop where
  ending : lua.ending = cxx.ending
  ops : lua.trace = cxx.trace.flatMap CxxEvent.ops
  buf : lua.state.buf = cxx.state.2
  members : Equal decls (.struct S) cxx.state.1 (.obj S lua.state.self)

/-- The Lua method runs as the C++ method, when each step of it is one that Lua follows. -/
theorem methods_agree (C : Compiler) (init : String → Expr → LuaVal) (literal : String → Val)
    {files : String → Option (List Tok)} {file : String}
    (haccepts : Parser.Accepts files file C.decls) (hload : BothLoad C.decls) (fuel : Nat)
    (isRead : Bool) {S : String} {v : Val} {fields : String → LuaVal} (buf : ByteBuf)
    (hequal : Equal C.decls (.struct S) v (.obj S fields))
    (hstuck : (C.run fuel isRead S v buf).ending ≠ .stuck)
    (hallows : (backends C.decls init).Allows [∅] (C.run fuel isRead S v buf).trace) :
    SameRun C.decls S (C.run fuel isRead S v buf)
      ((C.lua init literal).run fuel isRead S (.start C.decls fields buf)) := by
  cases fuel with
  | zero => exact absurd rfl hstuck
  | succ fuel =>
    have hfits := hload.luaFits haccepts
    have htyped := hload.methodsTyped haccepts
    have hcalls := callsAgree_run C init literal hload.types hfits hload.loads htyped fuel
    obtain ⟨o, o', rfl, ho', hfollowed⟩ :=
      CxxEnv.run_followed (E := C.env fuel (C.run fuel)) hload.types hfits hload.loads htyped hcalls
        hstuck
    have hlua := hfollowed [] ∅ (.start C.decls fields buf) (equal_obj.mp hequal) (fun _ => rfl) rfl
      rfl hallows
    obtain ⟨D, -, hmembers, hsub⟩ := hlua.stale
    obtain rfl := Set.subset_empty_iff.mp hsub
    exact
      { ending := hlua.ending
        ops := hlua.trace
        buf := hlua.buf
        members := by
          have hcxx : (C.run (fuel + 1) isRead S (.obj o) buf).state.1 = .obj o' := ho'
          rw [hcxx]
          exact equal_obj.mpr hmembers }

/-- `struct S { int32 n; read { [n] if(n) { [n] } } write { [n] } }` -/
def twiceFile : List Tok :=
  [.STRUCT, .VAR "S", .sym '{', .BASE .INT32, .VAR "n", .sym ';',
    .READ, .sym '{', .sym '[', .VAR "n", .sym ']', .IF, .sym '(', .VAR "n", .sym ')', .sym '{',
      .sym '[', .VAR "n", .sym ']', .sym '}', .sym '}',
    .WRITE, .sym '{', .sym '[', .VAR "n", .sym ']', .sym '}', .sym '}']

/-- `int32` -/
def numInfo : TypeInfo := { vector := false, value := .base .INT32, name := "int32", vec_name := "" }

/-- What the parser makes of the file. -/
def twiceDecls : List Decl :=
  [.struct ("s", 25) "S" [.var numInfo "n" none,
    .read (.readWriteVar numInfo "n"
      (.ifs { neg := false, first := .var "n" true, rest := [] }
        (.readWriteVar numInfo "n" .done) .done .done)),
    .write (.readWriteVar numInfo "n" .done)]]

/-- The file, compiled. -/
def twiceCompiler : Compiler where
  decls := twiceDecls
  wire := .network
  uninit := fun _ _ => .num 0
  literal := fun _ => (.base .INT32, .num 0)
  convert := fun _ _ v => v

/-- The file is accepted. -/
theorem twiceFile_accepted :
    Parser.Accepts (fun name => if name = "s" then some twiceFile else none) "s" twiceDecls :=
  ⟨12, twiceFile, _, rfl, rfl, rfl⟩

/-- `n` is the only member. -/
theorem members_twiceDecls (S : String) :
    members twiceDecls S = if S = "S" then [("n", numInfo)] else [] := by
  rw [members, twiceDecls, itemsOf]
  split <;> rfl

/-- Both languages load the file. -/
theorem twiceDecls_load : BothLoad twiceDecls where
  types := ⟨⟨by decide, .inl rfl⟩, trivial⟩
  nodup S := by rw [members_twiceDecls]; split <;> simp
  loads := by decide
  library := by decide
  methods S isRead := by rw [members_twiceDecls]; split <;> cases isRead <;> decide

/-- The number 7, and then 9. -/
def twiceBuf : ByteBuf := { rpos := 0, rest := [0, 0, 0, 7, 0, 0, 0, 9] }

/-- No step of this run is one that Lua does not follow. -/
theorem twice_allowed : (backends twiceDecls fun _ _ => .nil).Allows [∅]
    (twiceCompiler.run 1 true "S" (.obj fun _ => .num 0) twiceBuf).trace := by
  refine ⟨⟨by decide, fun _ h => by cases h⟩, trivial, trivial, ?_,
    ⟨by decide, fun _ h => by cases h⟩, trivial, trivial, trivial⟩
  refine ⟨rfl, ?_⟩
  show "n" ∉ ["buffer"] ∧ "n" ∉ (∅ \ {"n"} : Set String)
  exact ⟨by decide, fun h => Set.notMem_empty _ h.1⟩

/-- The objects of the two, with the member 0. -/
theorem twice_equal : Equal twiceDecls (.struct "S") (.obj fun _ => .num 0)
    (.obj "S" fun x => if x = "n" then .scalar (.num 0) else .nil) := by
  apply Equal.obj
  · intro x t ht
    rw [memberType, members_twiceDecls, if_pos rfl, List.lookup_cons] at ht
    by_cases hx : x = "n"
    · rw [hx, beq_self_eq_true] at ht
      obtain rfl : CxxType.base .INT32 = t := Option.some.inj ht
      rw [if_pos hx]
      exact .base _ _
    · rw [beq_eq_false_iff_ne.mpr hx] at ht
      cases ht
  · intro x hx
    rw [members_twiceDecls, if_pos rfl, List.map_singleton, List.mem_singleton] at hx
    rw [if_neg hx]

/-- Both methods read two numbers. -/
theorem methods_agree_twice : SameRun twiceDecls "S"
    (twiceCompiler.run 1 true "S" (.obj fun _ => .num 0) twiceBuf)
    ((twiceCompiler.lua (fun _ _ => .nil) fun _ => .num 0).run 1 true "S"
      (.start twiceDecls (fun x => if x = "n" then .scalar (.num 0) else .nil) twiceBuf)) :=
  methods_agree twiceCompiler _ _ twiceFile_accepted twiceDecls_load 1 true twiceBuf twice_equal
    (by decide) twice_allowed

end Athena.Idl
