import Athena.Spec.CxxLists

/-!
# The bodies of the two methods

A body is followed statement by statement (`Block.simulates`).  A branch is a block of its own in
both; the tests give the same where `backends` allows them (`condition_eq`).

## Key results

- `simulates_readVector`, `simulates_writeVector`, `simulates_var`: a variable of a list
- `Block.simulates`, `Branches.simulates`: any nesting of statements
-/

namespace Athena.Idl

/-- Two lists of statements, one after the other. -/
theorem LuaEnv.code_append (E : LuaEnv) (a b : List LuaStmt) :
    E.code (a ++ b) = (E.code a).andThen (E.code b) := by
  induction a with
  | nil => rfl
  | cons s a ih => rw [List.cons_append, code, code, ih, Traced.andThen_assoc]

/-- A list of simple statements, as statements. -/
theorem LuaEnv.code_simples (E : LuaEnv) (body : List LuaSimple) :
    E.code (body.map .simple) = E.simples body := by
  induction body with
  | nil => rfl
  | cons s body ih => rw [List.map_cons, code, simples, stmt, ih]

/-- Lua reads the length, and then the elements. -/
theorem LuaEnv.code_readVector (E : LuaEnv) {tinfo : TypeInfo} {x : String}
    (hvector : tinfo.vector = true) : E.code (luaReadCode tinfo x) =
      ((E.simple (.localZero ("len_" ++ x))).andThen ((E.simple (.localNil ("temp_" ++ x))).andThen
        (E.simples (luaReadValue (.base .INT32) (.name ("len_" ++ x)))))).andThen
          (loop ("len_" ++ x) (E.simples (luaNew tinfo (.name ("temp_" ++ x)) ++
            luaReadValue tinfo.value (.name ("temp_" ++ x)) ++
              [LuaSimple.assign (.elem x) (.name ("temp_" ++ x))]))) := by
  rw [luaReadCode, if_pos hvector, List.cons_append, List.cons_append, code, code, code_append,
    code_simples, code, code, Traced.andThen_skip, Traced.andThen_assoc, Traced.andThen_assoc]
  rfl

section Lists

variable {E : CxxEnv} {init : String → Expr → LuaVal} {literal : String → Val}
  {call : Bool → String → LuaProgram} {isRead : Bool} {D₀ : Set String}
  {known : List (Set String)} {S x : String} {seen : List String} {t : CxxType} {tinfo : TypeInfo}
  {outer : Nat}

/-- The names in a block: the lengths, and the parameter. -/
theorem names_inBlock : (Scope.inBlock S seen outer).vars.map Prod.fst = seen ++ ["buffer"] := by
  show (lenVars seen).map Prod.fst = _
  simp [lenVars, Function.comp_def]

/-- The name of a struct is the one of a global. -/
theorem TypeFree.lookup (h : TypeFree (Scope.inBlock S seen outer) tinfo x) {loc : Nat → Val}
    {ls : List (String × LuaVal)} (hls : LuaLocals isRead seen loc ls) :
    ls.lookup tinfo.name = none := by
  obtain ⟨hself, hnames, htemp, -⟩ := h
  rw [names_inBlock, List.mem_append, List.mem_singleton, not_or] at hnames
  refine hls.lookup_none (fun hparam => ?_) hnames.1 fun v hv => htemp v ?_
  · rcases hparam with hbuffer | hself'
    · exact hnames.2 hbuffer
    · exact hself hself'
  · rw [names_inBlock]
    exact List.mem_append_left _ hv

/-- In the loop no local hides the class. -/
theorem TypeFree.lookup_loop (h : TypeFree (Scope.inBlock S seen outer) tinfo x)
    (hvector : tinfo.vector = true) {loc : Nat → Val} {ls : List (String × LuaVal)}
    (hls : LuaLocals isRead (("len_" ++ x) :: seen) loc ls) : ls.lookup tinfo.name = none := by
  obtain ⟨-, hlen, htemp⟩ := h.2.2.2 hvector
  obtain ⟨x', w, ls', hx, hrest, rfl⟩ := hls
  obtain rfl := len_injective hx
  rw [lookup_temp htemp, List.lookup_cons, beq_eq_false_iff_ne.mpr hlen]
  exact h.lookup hrest

/-- A vector is read alike in both. -/
theorem simulates_readVector (hw : WellTyped E.decls tinfo t) (hfits : LuaFits E.decls)
    (hcalls : CallsAgree E init call) (ht : memberType E.decls S x = some (.vector t))
    (hvector : tinfo.vector = true)
    (hfree : tinfo.value = .STRUCT → TypeFree (Scope.inBlock S seen outer) tinfo x) :
    (backends E.decls init).Simulates (Between E.decls true D₀ known S seen)
      (Between E.decls true D₀ known S (("len_" ++ x) :: seen)) (Ended E.decls D₀ known S)
      (E.readVector seen x t) ((E.luaEnv init literal call).code (luaReadCode tinfo x)) := by
  have hturn (k : Nat) : (backends E.decls init).Simulates
      (InLoop E.decls true D₀ known S (("len_" ++ x) :: seen) k)
      (InLoop E.decls true D₀ known S (("len_" ++ x) :: seen) k) (Ended E.decls D₀ known S)
      (E.readTurn seen x t)
      ((E.luaEnv init literal call).simples (luaNew tinfo (.name ("temp_" ++ x)) ++
        luaReadValue tinfo.value (.name ("temp_" ++ x)) ++
          [LuaSimple.assign (.elem x) (.name ("temp_" ++ x))])) := by
    rw [LuaEnv.simples_append, CxxEnv.readTurn, ← Traced.andThen_assoc]
    refine (simulates_readTemp hw.value hfits hcalls hw.name (fun hstruct => ?_) k).andThen ?_
    · exact ⟨((hfree hstruct).2.2.2 hvector).1, fun loc ls => (hfree hstruct).lookup_loop hvector⟩
    · show (backends E.decls init).Simulates _ _ _ _ ((LuaEnv.simple _ _).andThen .skip)
      rw [Traced.andThen_skip]
      exact simulates_push ht k
  have hloop := simulates_loop (y := "len_" ++ x) List.mem_cons_self hturn
  rw [slotOf, if_pos rfl] at hloop
  rw [LuaEnv.code_readVector _ hvector, CxxEnv.readVector]
  exact (simulates_readLen literal hcalls).andThen hloop

/-- A vector is written alike in both. -/
theorem simulates_writeVector (hw : WellTyped E.decls tinfo t) (hfits : LuaFits E.decls)
    (hcalls : CallsAgree E init call) (ht : memberType E.decls S x = some (.vector t))
    (hvector : tinfo.vector = true) :
    (backends E.decls init).Simulates (Between E.decls false ∅ known S seen)
      (Between E.decls false ∅ known S (("len_" ++ x) :: seen)) (Ended E.decls ∅ known S)
      (E.writeVector seen x t) ((E.luaEnv init literal call).code (luaWriteCode tinfo x)) := by
  -- the length, then the turns of the loop
  have hput : (backends E.decls init).Simulates
      (Between E.decls false ∅ known S (("len_" ++ x) :: seen))
      (Between E.decls false ∅ known S (("len_" ++ x) :: seen)) (Ended E.decls ∅ known S)
      (E.writeShown (.loc (seen.length + 1)) (.base .INT32))
      ((E.luaEnv init literal call).simple
        (luaWriteValue (.base .INT32) (.name ("len_" ++ x)))) := by
    apply simulates_put
    intro c f l h
    refine ⟨lookup_eq h.locals.lookup_buffer, h.buf, fun v hv => ?_, fun buf => ?_⟩
    · have hlen := lookup_eq (h.locals.lookup_len List.mem_cons_self)
      rw [slotOf, if_pos rfl] at hlen
      cases hv
      exact congrArg some hlen
    · exact ⟨⟨h.stale, h.globals, rfl⟩, h.locals⟩
  have hturn (k : Nat) : (backends E.decls init).Simulates
      (InLoop E.decls false ∅ known S (("len_" ++ x) :: seen) k)
      (InLoop E.decls false ∅ known S (("len_" ++ x) :: seen) k) (Ended E.decls ∅ known S)
      (E.writeShown (.elem (.mem x) (seen.length + 2)) t)
      ((E.luaEnv init literal call).simples [luaWriteValue tinfo.value (.elem x)]) := by
    show (backends E.decls init).Simulates _ _ _ _ ((LuaEnv.simple _ _).andThen .skip)
    rw [Traced.andThen_skip]
    exact simulates_writeElem hw.value hfits hcalls ht k
  have hloop := simulates_loop (y := "len_" ++ x) List.mem_cons_self hturn
  rw [slotOf, if_pos rfl] at hloop
  rw [luaWriteCode, if_pos hvector, CxxEnv.writeVector]
  show (backends E.decls init).Simulates _ _ _ _
    (Traced.andThen _ (Traced.andThen _ (Traced.andThen _ Traced.skip)))
  rw [Traced.andThen_skip]
  exact (simulates_size init literal call ht).andThen (hput.andThen hloop)

/-- A variable of a list. -/
theorem simulates_var (hd : TypesFit E.decls) (hw : WellTyped E.decls tinfo t)
    (ht : memberType E.decls S x = some (tinfo.cxxType t)) (hfits : LuaFits E.decls)
    (hcalls : CallsAgree E init call) (hwrite : isRead = false → D₀ = ∅)
    (hfree : NameFree (Scope.inBlock S seen outer) isRead tinfo x) {r : Scope × CxxProgram}
    (h : E.code (.inBlock S seen outer) (listCode isRead [(tinfo, x)]) = some r) :
    r.1 = .inBlock S (seenAfter seen tinfo x) outer ∧
      (backends E.decls init).Simulates (Between E.decls isRead D₀ known S seen)
        (Between E.decls isRead D₀ known S (seenAfter seen tinfo x)) (Ended E.decls D₀ known S)
        r.2 ((E.luaEnv init literal call).code (LuaEnv.listCode isRead tinfo x)) := by
  obtain ⟨hx, htype⟩ := hfree
  rw [names_inBlock, List.mem_append, List.mem_singleton, not_or] at hx
  rw [listCode, List.flatMap_singleton] at h
  rw [LuaEnv.listCode, seenAfter]
  -- a vector declares its length, and a member that is none declares nothing
  cases hvector : tinfo.vector with
  | true =>
    rw [TypeInfo.cxxType, if_pos hvector] at ht
    rw [if_pos rfl]
    cases isRead with
    | true =>
      obtain rfl := CxxEnv.code_readVector hd hw.name hw.value ht hx.1 hx.2 hvector h
      exact ⟨rfl, simulates_readVector hw hfits hcalls ht hvector (htype rfl)⟩
    | false =>
      obtain rfl := hwrite rfl
      obtain rfl := CxxEnv.code_writeVector hw.value ht hx.1 hx.2 hvector h
      exact ⟨rfl, simulates_writeVector hw hfits hcalls ht hvector⟩
  | false =>
    rw [TypeInfo.cxxType, if_neg (by simp [hvector])] at ht
    rw [if_neg (by simp)]
    have hres : (Scope.inBlock S seen outer).resolve E.decls x = _ :=
      CxxEnv.resolve_inBlock ht hx.1 hx.2
    cases isRead with
    | true =>
      obtain rfl := CxxEnv.code_readMember hres hw.value hvector h
      refine ⟨rfl, ?_⟩
      rw [if_pos rfl, luaReadCode, if_neg (by simp [hvector]), LuaEnv.code_simples]
      exact simulates_readMember hw.value hfits hcalls ht hw.name
        fun hstruct loc ls hls => (htype rfl hstruct).lookup hls
    | false =>
      obtain rfl := hwrite rfl
      obtain rfl := CxxEnv.code_writeMember hres hw.value hvector h
      refine ⟨rfl, ?_⟩
      rw [if_neg (by simp), luaWriteCode, if_neg (by simp [hvector])]
      show (backends E.decls init).Simulates _ _ _ _ ((LuaEnv.simple _ _).andThen .skip)
      rw [Traced.andThen_skip]
      exact simulates_writeMember hw.value hfits hcalls ht

end Lists

/-! ## Bodies -/

section Bodies

variable {E : CxxEnv} {init : String → Expr → LuaVal} {literal : String → Val}
  {call : Bool → String → LuaProgram} {isRead : Bool} {D₀ : Set String}
  {known : List (Set String)} {S : String} {seen : List String} {outer : Nat}

/-- No length is named `nil`. -/
theorem AreLengths.ne_nil (h : AreLengths seen) : "nil" ∉ seen := by
  intro hmem
  obtain ⟨v, hv⟩ := h _ hmem
  have hlist := congrArg String.toList hv
  simp [String.toList_append] at hlist

/-- A condition that Lua follows is the same there. -/
theorem condition_eq {x : Operand} {test : Frame → Option Bool} {holds : Bool}
    (htest : E.condition (.inBlock S seen outer) x = some test) {c : List (Set String)} {f : Frame}
    {l : LuaFrame} (h : Between E.decls isRead D₀ known S seen c f l) (hholds : test f = some holds)
    (hsame : SameTest (.inBlock S seen outer) (c.headD ∅) x holds) :
    (E.luaEnv init literal call).condition x l = some holds := by
  cases x with
  | num text =>
    have htrue : holds = true := hsame
    rw [htrue]
    rfl
  | decimals text =>
    have htrue : holds = true := hsame
    rw [htrue]
    rfl
  | var name member =>
    rw [SameTest] at hsame
    by_cases hlit : name = "true" ∨ name = "false"
    · rw [if_pos hlit] at hsame
      subst hsame
      rcases hlit with rfl | rfl
      · obtain rfl := Option.some.inj htest
        exact hholds
      · obtain rfl := Option.some.inj htest
        exact hholds
    · rw [if_neg hlit] at hsame
      obtain ⟨rfl, hname⟩ := hsame
      rw [not_or] at hlit
      cases member with
      | true =>
        rw [if_pos rfl, names_inBlock, List.mem_append, List.mem_singleton, not_or] at hname
        obtain ⟨⟨hseen, hbuffer⟩, hfresh⟩ := hname
        have hres : (Scope.inBlock S seen outer).resolve E.decls name =
            (memberType E.decls S name).map fun t => (.mem name, t) := resolve_member hseen hbuffer
        obtain ⟨D, rfl, hequal, -⟩ := h.stale
        cases ht : memberType E.decls S name with
        | none =>
          simp only [CxxEnv.condition, CxxEnv.operand, if_neg hlit.1, if_neg hlit.2, hres, ht,
            Option.map_none] at htest
          cases htest
        | some t =>
          -- a number is true in Lua
          have hvalue := hequal.members name t ht hfresh
          have hcond : t.isCondition = true := by
            simp only [CxxEnv.condition, CxxEnv.operand, if_neg hlit.1, if_neg hlit.2, hres, ht,
              Option.map_some] at htest
            split at htest
            · assumption
            · cases htest
          have hscalar : ∃ v, l.self name = .scalar v := by
            cases t with
            | base t => cases hw : l.self name <;> rw [hw] at hvalue <;> cases hvalue; exact ⟨_, rfl⟩
            | buffer => cases hvalue
            | string => cases hcond
            | struct T => cases hcond
            | vector t => cases hcond
          obtain ⟨v, hv⟩ := hscalar
          simp only [LuaEnv.condition, LuaEnv.operand, h.get_member name, hv, Option.map_some,
            LuaVal.truth]
      | false =>
        rw [if_neg (by simp), names_inBlock, List.mem_append, List.mem_singleton] at hname
        have hnil : name ≠ "nil" := by
          rintro rfl
          rcases hname with hseen | hbuffer
          · exact h.locals.areLengths.ne_nil hseen
          · exact absurd hbuffer (by decide)
        simp only [LuaEnv.condition, LuaEnv.operand, if_neg hlit.1, if_neg hlit.2, if_neg hnil,
          Option.map_some]
        rcases hname with hseen | rfl
        · rw [lookup_eq (h.locals.lookup_len hseen)]
          rfl
        · rw [lookup_eq h.locals.lookup_buffer]
          rfl

/-- Behind a block that may have declared more. -/
def BetweenMore (decls : List Decl) (isRead : Bool) (D₀ : Set String) (known : List (Set String))
    (S : String) (seen : List String) : Relation := fun c f l =>
  ∃ more, Between decls isRead D₀ known S (more ++ seen) c f l

/-- What a branch declares is gone behind it. -/
theorem simulates_branchBody {a : CxxProgram} {b : LuaProgram}
    (h : (backends E.decls init).Simulates (Between E.decls isRead D₀ known S seen)
      (BetweenMore E.decls isRead D₀ known S seen) (Ended E.decls D₀ known S) a b) :
    (backends E.decls init).Simulates (Between E.decls isRead D₀ known S seen)
      (Between E.decls isRead D₀ known S seen) (Ended E.decls D₀ known S) a
      (LuaEnv.inBlock [] b) := by
  refine simulates_inBlock (fun c f l h => h.locals.length) (fun c f l h => h) (fun c f l h => ?_)
    (fun c f l h => h.of_locals _) h
  obtain ⟨more, h⟩ := h
  exact ⟨h.toEnded.of_locals _, h.locals.drop⟩

/-- A branch is taken in both or in neither. -/
theorem simulates_ifElse {x : Operand} {test : Frame → Option Bool} {a b : CxxProgram}
    {a' b' : LuaProgram} (htest : E.condition (.inBlock S seen outer) x = some test)
    (ha : (backends E.decls init).Simulates (Between E.decls isRead D₀ known S seen)
      (Between E.decls isRead D₀ known S seen) (Ended E.decls D₀ known S) a a')
    (hb : (backends E.decls init).Simulates (Between E.decls isRead D₀ known S seen)
      (Between E.decls isRead D₀ known S seen) (Ended E.decls D₀ known S) b b') :
    (backends E.decls init).Simulates (Between E.decls isRead D₀ known S seen)
      (Between E.decls isRead D₀ known S seen) (Ended E.decls D₀ known S)
      (CxxEnv.ifElse (.inBlock S seen outer) x test a b)
      (Traced.branch ((E.luaEnv init literal call).condition x) a' b') := by
  refine Monitor.Simulates.branch (e := fun holds => .test (.inBlock S seen outer) x holds)
    (fun holds => rfl) (fun c f l holds h hholds hok => ?_) ha hb
  exact ⟨condition_eq htest h hholds hok, h⟩

/-- The variables are members with the types that the parser found. -/
def VarsTyped (decls : List Decl) (S : String) (vars : List (TypeInfo × String)) : Prop :=
  ∀ v ∈ vars, ∃ t, WellTyped decls v.1 t ∧ memberType decls S v.2 = some (v.1.cxxType t)

/-- The variables of a first part. -/
theorem VarsTyped.left {decls : List Decl} {vars vars' : List (TypeInfo × String)}
    (h : VarsTyped decls S (vars ++ vars')) : VarsTyped decls S vars :=
  fun v hv => h v (List.mem_append_left _ hv)

/-- The variables of a second part. -/
theorem VarsTyped.right {decls : List Decl} {vars vars' : List (TypeInfo × String)}
    (h : VarsTyped decls S (vars ++ vars')) : VarsTyped decls S vars' :=
  fun v hv => h v (List.mem_append_right _ hv)

/-- A step that Lua does not follow. -/
theorem simulates_of_not_ok {P Q R : Relation} {e : CxxEvent} {a : CxxProgram} {b : LuaProgram}
    (h : ∀ c, ¬(backends E.decls init).ok c e) :
    (backends E.decls init).Simulates P Q R ((Traced.emit e).andThen a) b :=
  fun c _ _ _ _ hallows => absurd hallows.1 (h c)

/-- Lua assigns a global instead. -/
theorem simulates_assign {P Q R : Relation} {sc : Scope} {x : String} {y : Operand}
    {a b : CxxProgram} {b' : LuaProgram} (ha : E.assign sc x y = some a) :
    (backends E.decls init).Simulates P Q R (a.andThen b) b' := by
  intro c f l _ hstuck hallows
  rw [CxxEnv.assign] at ha
  split at ha
  · split at ha
    · rename_i p t t' value _ _ _
      obtain rfl := Option.some.inj ha
      cases hv : value f with
      | none =>
        refine absurd ?_ hstuck
        rw [Traced.andThen_of_ne]
        · simp only [Action.shown, hv, Option.map_none]
        · simp only [Action.shown, hv, Option.map_none]
          exact fun h => by cases h
      | some v =>
        rw [Traced.andThen_next (by simp only [Action.shown, hv, Option.map_some])] at hallows
        simp only [Action.shown, hv, Option.map_some, List.cons_append, Monitor.Allows] at hallows
        exact absurd hallows.1 id
    · cases ha
  · cases ha

/-- A length more is no matter behind a block. -/
theorem BetweenMore.after {decls : List Decl} {tinfo : TypeInfo} {x : String}
    {c : List (Set String)} {f : Frame} {l : LuaFrame}
    (h : BetweenMore decls isRead D₀ known S (seenAfter seen tinfo x) c f l) :
    BetweenMore decls isRead D₀ known S seen c f l := by
  obtain ⟨more, h⟩ := h
  rw [seenAfter] at h
  split at h
  · rw [List.append_cons] at h
    exact ⟨_, h⟩
  · exact ⟨more, h⟩

mutual

/-- Whatever compiles in C++ is followed by Lua, for any body. -/
theorem Block.simulates (hd : TypesFit E.decls) (hfits : LuaFits E.decls)
    (hcalls : CallsAgree E init call) (hwrite : isRead = false → D₀ = ∅) (b : Block)
    (seen : List String) (outer : Nat)
    (hvars : VarsTyped E.decls S b.vars) {a : CxxProgram}
    (h : E.block isRead (.inBlock S seen outer) b = some a) :
    (backends E.decls init).Simulates (Between E.decls isRead D₀ known S seen)
      (BetweenMore E.decls isRead D₀ known S seen) (Ended E.decls D₀ known S) a
      ((E.luaEnv init literal call).block isRead b) := by
  cases b with
  | done =>
    obtain rfl := Option.some.inj h
    exact Monitor.simulates_skip fun c f l h => ⟨[], h⟩
  | readWriteVar tinfo x next =>
    rw [CxxEnv.block] at h
    cases hcode : E.code (.inBlock S seen outer) (listCode isRead [(tinfo, x)]) with
    | none => rw [hcode] at h; cases h
    | some r =>
      simp only [hcode, Option.map_eq_some_iff] at h
      obtain ⟨b, hnext, rfl⟩ := h
      obtain ⟨t, hw, ht⟩ := hvars (tinfo, x) List.mem_cons_self
      by_cases hfree : NameFree (.inBlock S seen outer) isRead tinfo x
      · obtain ⟨hscope, hvar⟩ : r.1 = _ ∧
            (backends E.decls init).Simulates (Between E.decls isRead D₀ known S seen)
              (Between E.decls isRead D₀ known S (seenAfter seen tinfo x)) (Ended E.decls D₀ known S)
              r.2 ((E.luaEnv init literal call).code (LuaEnv.listCode isRead tinfo x)) :=
          simulates_var hd hw ht hfits hcalls hwrite hfree hcode
        rw [hscope] at hnext
        have hrest := next.simulates hd hfits hcalls hwrite (seenAfter seen tinfo x) outer
          (fun v hv => hvars v (List.mem_cons_of_mem _ hv)) hnext
        have hlisted : (backends E.decls init).Simulates (Between E.decls isRead D₀ known S seen)
            (Between E.decls isRead D₀ known S seen) (Ended E.decls D₀ known S)
            (Traced.emit (.listed (.inBlock S seen outer) isRead tinfo x)) Traced.skip :=
          Monitor.simulates_emit rfl fun c f l h _ => h
        exact (hlisted.andThen (hvar.andThen hrest)).mono (fun _ _ _ h => h) (fun _ _ _ h => h.after)
          fun _ _ _ h => h
      · exact simulates_of_not_ok fun c hok => hfree hok
  | value x exp next =>
    rw [CxxEnv.block] at h
    split at h
    · rename_i a b ha _
      obtain rfl := Option.some.inj h
      -- an assignment is no step that Lua follows
      obtain ⟨y, -, hassign⟩ := Option.bind_eq_some_iff.mp ha
      exact simulates_assign hassign
    · cases h
  | ifs cond body rest next =>
    rw [CxxEnv.block] at h
    split at h
    · rename_i x test a b c hx htest ha hb hc
      obtain rfl := Option.some.inj h
      rw [hx] at htest
      have hbody := simulates_branchBody
        (body.simulates hd hfits hcalls hwrite seen _ hvars.left.left ha)
      have hrest := rest.simulates hd hfits hcalls hwrite seen outer hvars.left.right hb
      have hnext := next.simulates hd hfits hcalls hwrite seen outer hvars.right hc
      rw [LuaEnv.block, hx]
      exact (simulates_ifElse htest hbody hrest).andThen hnext
    · cases h

/-- Whatever compiles in C++ is followed by Lua, for any branches. -/
theorem Branches.simulates (hd : TypesFit E.decls) (hfits : LuaFits E.decls)
    (hcalls : CallsAgree E init call) (hwrite : isRead = false → D₀ = ∅) (r : Branches)
    (seen : List String) (outer : Nat)
    (hvars : VarsTyped E.decls S r.vars) {a : CxxProgram}
    (h : E.branches isRead (.inBlock S seen outer) r = some a) :
    (backends E.decls init).Simulates (Between E.decls isRead D₀ known S seen)
      (Between E.decls isRead D₀ known S seen) (Ended E.decls D₀ known S) a
      ((E.luaEnv init literal call).branches isRead r) := by
  cases r with
  | done =>
    obtain rfl := Option.some.inj h
    exact Monitor.simulates_skip fun c f l h => h
  | elseIf cond body rest =>
    rw [CxxEnv.branches] at h
    split at h
    · rename_i x test a b hx htest ha hb
      obtain rfl := Option.some.inj h
      rw [hx] at htest
      have hbody := simulates_branchBody (body.simulates hd hfits hcalls hwrite seen _ hvars.left ha)
      have hrest := rest.simulates hd hfits hcalls hwrite seen outer hvars.right hb
      rw [LuaEnv.branches, hx]
      exact simulates_ifElse htest hbody hrest
    · cases h
  | els body rest =>
    cases rest with
    | done => exact simulates_branchBody (body.simulates hd hfits hcalls hwrite seen _ hvars.left h)
    | elseIf cond body' rest => rw [CxxEnv.branches] at h <;> cases h
    | els body' rest => rw [CxxEnv.branches] at h <;> cases h

end

end Bodies

end Athena.Idl
