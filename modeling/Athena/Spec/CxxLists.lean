import Athena.Spec.MethodLoops

/-!
# What a list is compiled to

The program of a variable of a list, where its name means the member.  Only a list that compiles
has a program.
-/

namespace Athena.Idl

namespace CxxEnv

variable {E : CxxEnv} {S x : String} {seen : List String} {outer : Nat} {t : CxxType}
  {value : TypeValue} {tinfo : TypeInfo} {sc : Scope} {p : Place} {r : Scope × CxxProgram}

/-! ## Values -/

/-- A check of the size is a step of its own. -/
theorem simple_checkSize {t : BaseType} (hres : sc.resolve E.decls x = some (p, .base t)) :
    E.simple sc (.checkSize x) = some (sc, (Action.checkSize t).shown fun _ => []) := by
  have hevents : E.simpleEvents sc (.checkSize x) = fun _ => [] := by
    funext f
    rfl
  simp only [simple, Env.simple, hres, Option.map_some, hevents]

/-- A read of a value that is no struct. -/
theorem simple_get (hres : sc.resolve E.decls x = some (p, t)) (hscalar : t.isScalar = true) :
    E.simple sc (.get x) = some (sc, E.getShown p t) := by
  have hevents : E.simpleEvents sc (.get x) =
      fun f => [.op (.read t (E.wire.get t f.buf.rest).1), .got p] := by
    funext f
    simp only [simpleEvents, hres]
  simp only [simple, Env.simple, hres, hscalar, if_true, Option.map_some, hevents, getShown]

/-- A struct is read by its own method. -/
theorem simple_callRead {T : String} (hres : sc.resolve E.decls x = some (p, .struct T))
    (h : E.simple sc (.callRead x) = some r) : r = (sc, E.callShown true p T) := by
  have hevents : E.simpleEvents sc (.callRead x) =
      fun f => E.callEvents true p T f ++ [CxxEvent.got p] := by
    funext f
    simp only [simpleEvents, hres]
  simp only [simple, Env.simple, hres, hevents] at h
  split at h
  · cases h
  · exact (Option.some.inj h).symm

/-- The statements that read a value are a read of its type. -/
theorem simples_readValue (hres : sc.resolve E.decls x = some (p, t)) (hm : Matches value t)
    (h : E.simples sc (readValue value x) = some r) : r = (sc, E.readShown p t) := by
  -- a size check comes before a base type only
  cases hm with
  | base t =>
    simp only [readValue, simples, simple_checkSize hres, simple_get hres rfl, Option.map_some,
      Traced.andThen_skip] at h
    exact (Option.some.inj h).symm
  | string =>
    simp only [readValue, simples, simple_get hres rfl, Option.map_some, Traced.andThen_skip] at h
    exact (Option.some.inj h).symm
  | struct T =>
    simp only [readValue, simples] at h
    cases hcall : E.simple sc (.callRead x) with
    | none => rw [hcall] at h; cases h
    | some r' =>
      obtain rfl := simple_callRead hres hcall
      simp only [hcall, Option.map_some, Traced.andThen_skip] at h
      exact (Option.some.inj h).symm

/-- A write of a value that is no struct. -/
theorem simple_put {x : CxxLVal} (hres : E.resolveLVal sc x = some (p, t))
    (hscalar : t.isScalar = true) : E.simple sc (.put x) = some (sc, E.putShown p t) := by
  have hevents : E.simpleEvents sc (.put x) =
      fun f => (f.get p).toList.map fun v => .op (.write t v) := by
    funext f
    simp only [simpleEvents, hres]
  simp only [simple, Env.simple, hres, hscalar, if_true, Option.map_some, hevents, putShown]

/-- The statement that writes a value is a write of its type. -/
theorem simple_writeValue {x : CxxLVal} (hres : E.resolveLVal sc x = some (p, t))
    (hm : Matches value t) (h : E.simple sc (writeValue value x) = some r) :
    r = (sc, E.writeShown p t) := by
  cases hm with
  | base t => exact (Option.some.inj ((simple_put hres rfl).symm.trans h)).symm
  | string => exact (Option.some.inj ((simple_put hres rfl).symm.trans h)).symm
  | struct T =>
    have hevents : E.simpleEvents sc (.callWrite x) = fun f => E.callEvents false p T f ++ [] := by
      funext f
      simp only [simpleEvents, hres, List.append_nil]
    simp only [writeValue, simple, Env.simple, hres, hevents] at h
    split at h
    · cases h
    · exact (Option.some.inj h).symm

/-- A value whose name means nothing is not written. -/
theorem simple_writeValue_none {x : CxxLVal} (hres : E.resolveLVal sc x = none) :
    E.simple sc (writeValue value x) = none := by
  cases value <;> simp only [writeValue, simple, Env.simple, hres, Option.map_none]

/-! ## Lists of statements -/

/-- Two lists of simple statements, one after the other. -/
theorem simples_append (sc : Scope) (a b : List CxxSimple) :
    E.simples sc (a ++ b) =
      (E.simples sc a).bind fun r => (E.simples r.1 b).map fun r' => (r'.1, r.2.andThen r'.2) := by
  induction a generalizing sc with
  | nil => simp [simples]
  | cons s a ih =>
    rw [List.cons_append, simples, simples]
    cases E.simple sc s with
    | none => rfl
    | some r => simp [ih, Option.map_bind, Option.bind_map, Function.comp_def, Traced.andThen_assoc]

/-- Two lists of statements, one after the other. -/
theorem code_append (sc : Scope) (a b : List CxxStmt) :
    E.code sc (a ++ b) =
      (E.code sc a).bind fun r => (E.code r.1 b).map fun r' => (r'.1, r.2.andThen r'.2) := by
  induction a generalizing sc with
  | nil => simp [code]
  | cons s a ih =>
    rw [List.cons_append, code, code]
    cases E.stmt sc s with
    | none => rfl
    | some r => simp [ih, Option.map_bind, Option.bind_map, Function.comp_def, Traced.andThen_assoc]

/-- A list of simple statements, as statements. -/
theorem code_simples (sc : Scope) (body : List CxxSimple) :
    E.code sc (body.map .simple) = E.simples sc body := by
  induction body generalizing sc with
  | nil => rfl
  | cons s body ih =>
    rw [List.map_cons, code, simples, stmt]
    cases E.simple sc s with
    | none => rfl
    | some r => simp only [ih]

/-! ## Members -/

/-- A name that no local has. -/
theorem resolve_inBlock (ht : memberType E.decls S x = some t) (hx : x ∉ seen)
    (hbuffer : x ≠ "buffer") : (Scope.inBlock S seen outer).resolve E.decls x = some (.mem x, t) := by
  have hres : (Scope.between S seen).resolve E.decls x = _ := resolve_member hx hbuffer
  rw [ht] at hres
  exact hres

/-- A length is declared behind those that are there. -/
theorem declare_inBlock {y : String} {sc' : Scope}
    (h : (Scope.inBlock S seen outer).declare y (.base .INT32) = some sc') :
    sc' = Scope.inBlock S (y :: seen) outer := by
  rw [Scope.declare] at h
  split at h
  · cases h
  · exact (Option.some.inj h).symm

/-- A member that is no vector is read as its type. -/
theorem code_readMember (hres : sc.resolve E.decls x = some (.mem x, t)) (hm : Matches tinfo.value t)
    (hvector : tinfo.vector = false) (h : E.code sc (readCode tinfo x) = some r) :
    r = (sc, E.readShown (.mem x) t) := by
  rw [readCode, if_neg (by simp [hvector]), code_simples] at h
  exact simples_readValue hres hm h

/-- A member that is no vector is written as its type. -/
theorem code_writeMember (hres : sc.resolve E.decls x = some (.mem x, t)) (hm : Matches tinfo.value t)
    (hvector : tinfo.vector = false) (h : E.code sc (writeCode tinfo x) = some r) :
    r = (sc, E.writeShown (.mem x) t) := by
  rw [writeCode, if_neg (by simp [hvector]), code, stmt] at h
  cases hwrite : E.simple sc (writeValue tinfo.value (.var x)) with
  | none => rw [hwrite] at h; cases h
  | some r' =>
    obtain rfl := simple_writeValue (x := .var x) hres hm hwrite
    simp only [hwrite, code, Option.map_some, Traced.andThen_skip] at h
    exact (Option.some.inj h).symm

/-! ## Vectors -/

/-- In the loop the name of the vector means the member, unless it is `i`. -/
theorem resolve_loop (ht : memberType E.decls S x = some (.vector t)) (hx : x ∉ seen)
    (hbuffer : x ≠ "buffer") (hi : x ≠ "i") :
    (Scope.inLoop S seen x).resolve E.decls x = some (.mem x, .vector t) := by
  rw [resolve_inLoop hi, resolve_member hx hbuffer, ht]
  rfl

/-- The element is pushed to the member. -/
theorem simple_pushBack (ht : memberType E.decls S x = some (.vector t)) (hx : x ∉ seen)
    (hbuffer : x ≠ "buffer")
    (h : E.simple (.inTemp S seen x t) (.pushBack x ("temp_" ++ x)) = some r) :
    r = (.inTemp S seen x t, pushShown x (seen.length + 3) (seen.length + 2)) := by
  have hvector : (Scope.inTemp S seen x t).resolve E.decls x =
      (Scope.inLoop S seen x).resolve E.decls x :=
    resolve_inTemp (Ne.symm (temp_ne_self x))
  have hturn : (Scope.inTemp S seen x t).resolve E.decls "i" =
      some (.loc (seen.length + 2), .base .INT32) :=
    (resolve_inTemp (Ne.symm (temp_ne_i x))).trans resolve_i
  by_cases hi : x = "i"
  · -- `i` has no `push_back`
    have hloop : (Scope.inLoop S seen x).resolve E.decls "i" = _ := resolve_i
    rw [← hi] at hloop
    rw [simple, Env.simple, hvector, hloop] at h
    cases h
  · rw [resolve_loop ht hx hbuffer hi] at hvector
    have hevents : E.simpleEvents (.inTemp S seen x t) (.pushBack x ("temp_" ++ x)) =
        fun f => [.push (.mem x) (f.size (.mem x)) (f.loc (seen.length + 2))] := by
      funext f
      simp only [simpleEvents, hvector, hturn]
    simp only [simple, Env.simple, hvector, resolve_temp, hevents, if_true, Option.map_some] at h
    exact (Option.some.inj h).symm

/-- The element is declared with the type that its name means. -/
theorem simple_decl (hd : TypesFit E.decls) (hname : typeNamed E.decls tinfo.name = some t)
    (h : E.simple (.inLoop S seen x) (.decl (getStdName tinfo.name) ("temp_" ++ x)) = some r) :
    r = (.inTemp S seen x t, (E.toEnv.decl (seen.length + 3) t).shown fun _ => []) := by
  have htype : (Scope.inLoop S seen x).resolveType E.decls (getStdName tinfo.name) =
      if TypeVisible E.decls S seen tinfo x then some t else none :=
    resolveType_inLoop hd hname
  have hlength : (Scope.inLoop S seen x).vars.length = seen.length + 3 := by
    simp [Scope.inLoop, length_lenVars]
  have hevents : E.simpleEvents (.inLoop S seen x) (.decl (getStdName tinfo.name) ("temp_" ++ x)) =
      fun _ => [] := by
    funext f
    rfl
  -- a length may hide the name of the type
  by_cases hvisible : TypeVisible E.decls S seen tinfo x
  · rw [if_pos hvisible] at htype
    simp only [simple, Env.simple, htype, Option.bind_some, Env.declare_temp, hlength, Option.map_some,
      hevents] at h
    exact (Option.some.inj h).symm
  · rw [if_neg hvisible] at htype
    simp only [simple, Env.simple, htype] at h
    cases h

/-- The program of the turns that read a vector. -/
def readTurn (E : CxxEnv) (seen : List String) (x : String) (t : CxxType) : CxxProgram :=
  ((E.toEnv.decl (seen.length + 3) t).shown fun _ => []).andThen
    ((E.readShown (.loc (seen.length + 3)) t).andThen
      (pushShown x (seen.length + 3) (seen.length + 2)))

/-- A turn declares an element, reads it and pushes it. -/
theorem simples_readTurn (hd : TypesFit E.decls) (hname : typeNamed E.decls tinfo.name = some t)
    (hm : Matches tinfo.value t) (ht : memberType E.decls S x = some (.vector t)) (hx : x ∉ seen)
    (hbuffer : x ≠ "buffer")
    (h : E.simples (.inLoop S seen x) (.decl (getStdName tinfo.name) ("temp_" ++ x) ::
      readValue tinfo.value ("temp_" ++ x) ++ [CxxSimple.pushBack x ("temp_" ++ x)]) = some r) :
    r.2 = E.readTurn seen x t := by
  rw [List.cons_append, simples] at h
  cases hdecl : E.simple (.inLoop S seen x) (.decl (getStdName tinfo.name) ("temp_" ++ x)) with
  -- a list without a program does not compile
  | none => rw [hdecl] at h; cases h
  | some r₁ =>
    obtain rfl := simple_decl hd hname hdecl
    simp only [hdecl, simples_append] at h
    cases hread : E.simples (.inTemp S seen x t) (readValue tinfo.value ("temp_" ++ x)) with
    | none => rw [hread] at h; cases h
    | some r₂ =>
      obtain rfl := simples_readValue resolve_temp hm hread
      simp only [hread, Option.bind_some, simples] at h
      cases hpush : E.simple (.inTemp S seen x t) (.pushBack x ("temp_" ++ x)) with
      | none => rw [hpush] at h; cases h
      | some r₃ =>
        obtain rfl := simple_pushBack ht hx hbuffer hpush
        simp only [hpush, Option.map_some, Traced.andThen_skip] at h
        rw [← Option.some.inj h, readTurn]

/-- In the outermost scope of the block. -/
theorem enter_inBlock :
    (Scope.inBlock S (("len_" ++ x) :: seen) outer).enter.declare "i" (.base .INT32) =
    some (Scope.inLoop S seen x) := Env.enter_loop

/-- The program that reads a vector. -/
def readVector (E : CxxEnv) (seen : List String) (x : String) (t : CxxType) : CxxProgram :=
  ((Action.skip.shown fun _ => []).andThen
    (E.readShown (.loc (seen.length + 1)) (.base .INT32))).andThen
    (loop (.loc (seen.length + 1)) (seen.length + 2) (E.readTurn seen x t))

/-- A vector is read as its length and its elements. -/
theorem code_readVector (hd : TypesFit E.decls) (hname : typeNamed E.decls tinfo.name = some t)
    (hm : Matches tinfo.value t) (ht : memberType E.decls S x = some (.vector t)) (hx : x ∉ seen)
    (hbuffer : x ≠ "buffer") (hvector : tinfo.vector = true)
    (h : E.code (.inBlock S seen outer) (readCode tinfo x) = some r) :
    r = (.inBlock S (("len_" ++ x) :: seen) outer, E.readVector seen x t) := by
  have hlen : (Scope.inBlock S (("len_" ++ x) :: seen) outer).resolve E.decls ("len_" ++ x) =
      some (.loc (seen.length + 1), .base .INT32) := by
    have hres : (Scope.between S (("len_" ++ x) :: seen)).resolve E.decls ("len_" ++ x) = _ :=
      resolve_of_mem List.mem_cons_self
    rw [slotOf, if_pos rfl] at hres
    exact hres
  have hslot : (Scope.inBlock S (("len_" ++ x) :: seen) outer).vars.length = seen.length + 2 :=
    length_lenVars _
  rw [readCode, if_pos hvector, List.cons_append, code, stmt] at h
  -- the length is declared and read, and bounds the loop
  cases hdecl : (Scope.inBlock S seen outer).declare ("len_" ++ x) (.base .INT32) with
  | none =>
    simp only [simple, Env.simple, hdecl, Option.map_none] at h
    cases h
  | some sc' =>
    obtain rfl := declare_inBlock hdecl
    have hevents : E.simpleEvents (.inBlock S seen outer) (.declInt ("len_" ++ x)) = fun _ => [] := by
      funext f
      rfl
    simp only [simple, Env.simple, hdecl, Option.map_some, hevents, code_append, code_simples] at h
    cases hread : E.simples (.inBlock S (("len_" ++ x) :: seen) outer)
        (readValue (.base .INT32) ("len_" ++ x)) with
    | none => rw [hread] at h; cases h
    | some r₁ =>
      obtain rfl := simples_readValue hlen (.base .INT32) hread
      simp only [hread, Option.bind_some, code, stmt, hlen, enter_inBlock, hslot] at h
      cases hbody : E.simples (.inLoop S seen x) (.decl (getStdName tinfo.name) ("temp_" ++ x) ::
          readValue tinfo.value ("temp_" ++ x) ++ [CxxSimple.pushBack x ("temp_" ++ x)]) with
      | none => rw [hbody] at h; cases h
      | some r₂ =>
        have hturn := simples_readTurn hd hname hm ht hx hbuffer hbody
        simp only [hbody, hturn, Option.map_some, Traced.andThen_skip] at h
        rw [← Option.some.inj h, readVector, Traced.andThen_assoc]

/-- The program that writes a vector. -/
def writeVector (E : CxxEnv) (seen : List String) (x : String) (t : CxxType) : CxxProgram :=
  (sizeShown (seen.length + 1) x).andThen
    ((E.writeShown (.loc (seen.length + 1)) (.base .INT32)).andThen
      (loop (.loc (seen.length + 1)) (seen.length + 2)
        (E.writeShown (.elem (.mem x) (seen.length + 2)) t)))

/-- A vector is written as its length and its elements. -/
theorem code_writeVector (hm : Matches tinfo.value t)
    (ht : memberType E.decls S x = some (.vector t)) (hx : x ∉ seen) (hbuffer : x ≠ "buffer")
    (hvector : tinfo.vector = true)
    (h : E.code (.inBlock S seen outer) (writeCode tinfo x) = some r) :
    r = (.inBlock S (("len_" ++ x) :: seen) outer, E.writeVector seen x t) := by
  have hlen : (Scope.inBlock S (("len_" ++ x) :: seen) outer).resolve E.decls ("len_" ++ x) =
      some (.loc (seen.length + 1), .base .INT32) := by
    have hres : (Scope.between S (("len_" ++ x) :: seen)).resolve E.decls ("len_" ++ x) = _ :=
      resolve_of_mem List.mem_cons_self
    rw [slotOf, if_pos rfl] at hres
    exact hres
  have hslot : (Scope.inBlock S (("len_" ++ x) :: seen) outer).vars.length = seen.length + 2 :=
    length_lenVars _
  have hslot' : (Scope.inBlock S seen outer).vars.length = seen.length + 1 := length_lenVars _
  have hres : (Scope.inBlock S seen outer).resolve E.decls x = _ := resolve_inBlock ht hx hbuffer
  rw [writeCode, if_pos hvector, code, stmt] at h
  cases hdecl : (Scope.inBlock S seen outer).declare ("len_" ++ x) (.base .INT32) with
  | none =>
    simp only [simple, Env.simple, hdecl, hres, Option.map_none] at h
    cases h
  | some sc' =>
    obtain rfl := declare_inBlock hdecl
    have hevents : E.simpleEvents (.inBlock S seen outer) (.declSize ("len_" ++ x) x) =
        fun f => [.size (f.size (.mem x))] := by
      funext f
      simp only [simpleEvents, hres]
    have hput : E.simple (.inBlock S (("len_" ++ x) :: seen) outer)
        (writeValue (.base .INT32) (.var ("len_" ++ x))) =
          some (.inBlock S (("len_" ++ x) :: seen) outer,
            E.writeShown (.loc (seen.length + 1)) (.base .INT32)) :=
      simple_put (x := .var ("len_" ++ x)) hlen rfl
    simp only [simple, Env.simple, hdecl, hres, hslot', Option.map_some, hevents] at h
    simp only [code, stmt, hput, hlen, enter_inBlock, hslot, simples] at h
    cases hwrite : E.simple (.inLoop S seen x) (writeValue tinfo.value (.at x)) with
    | none => rw [hwrite] at h; cases h
    | some r₁ =>
      -- `i` hides a vector with its name
      by_cases hi : x = "i"
      · have hno : E.resolveLVal (.inLoop S seen x) (.at x) = none := by
          have hloop : (Scope.inLoop S seen x).resolve E.decls "i" = _ := resolve_i
          rw [← hi] at hloop
          simp only [Env.resolveLVal, hloop]
        rw [simple_writeValue_none hno] at hwrite
        cases hwrite
      · have hat : E.resolveLVal (.inLoop S seen x) (.at x) =
            some (.elem (.mem x) (seen.length + 2), t) := by
          simp only [Env.resolveLVal, resolve_loop ht hx hbuffer hi, resolve_i]
        obtain rfl := simple_writeValue hat hm hwrite
        simp only [hwrite, Option.map_some, Traced.andThen_skip] at h
        exact (Option.some.inj h).symm

end CxxEnv

end Athena.Idl
