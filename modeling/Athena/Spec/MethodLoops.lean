import Athena.Spec.MethodSteps

/-!
# The loops over a vector

The two loops take their turns together.  Where a vector is read, C++ adds an element behind
those that are there and Lua sets the element of the turn; where it is written, both take the
element of the turn.
-/

namespace Athena.Idl

/-- In the turn `k` of a loop. -/
structure InLoop (decls : List Decl) (isRead : Bool) (D₀ : Set String) (known : List (Set String))
    (S : String) (seen : List String) (k : Nat) (c : List (Set String)) (f : Frame) (l : LuaFrame) :
    Prop
    extends Ended decls D₀ known S c f l where
  turn : f.loc (seen.length + 1) = .num k
  locals : ∃ ls, l.locals = ("i", .scalar (.num (k + 1))) :: ls ∧ LuaLocals isRead seen f.loc ls

section Loops

variable {E : CxxEnv} {init : String → Expr → LuaVal} {literal : String → Val}
  {call : Bool → String → LuaProgram} {isRead : Bool} {D₀ : Set String}
  {known : List (Set String)} {S x y : String} {seen : List String} {t : CxxType} {value : TypeValue}
  {tinfo : TypeInfo}

/-- A block with variables of its own, which it loses in the end. -/
theorem simulates_inBlock {P Q R P' Q' R' : Relation} {a : CxxProgram} {b : LuaProgram} {n : Nat}
    {vars : List (String × LuaVal)} (hlength : ∀ c f l, P c f l → l.locals.length = n)
    (hP : ∀ c f l, P c f l → P' c f { l with locals := vars ++ l.locals })
    (hQ : ∀ c f l, Q' c f l → Q c f { l with locals := l.locals.drop (l.locals.length - n) })
    (hR : ∀ c f l, R' c f l → R c f { l with locals := l.locals.drop (l.locals.length - n) })
    (h : (backends E.decls init).Simulates P' Q' R' a b) :
    (backends E.decls init).Simulates P Q R a (LuaEnv.inBlock vars b) := by
  intro c f l hPl hstuck hallows
  have hagrees := h c f _ (hP c f l hPl) hstuck hallows
  have hn := hlength c f l hPl
  subst hn
  exact
    { ending := hagrees.ending
      trace := hagrees.trace
      next := fun hend => hQ _ _ _ (hagrees.next hend)
      returned := fun hend => hR _ _ _ (hagrees.returned hend) }

/-- The locals are no matter at the end. -/
theorem Ended.of_locals {decls : List Decl} {c : List (Set String)} {f : Frame} {l : LuaFrame}
    (h : Ended decls D₀ known S c f l) (ls : List (String × LuaVal)) :
    Ended decls D₀ known S c f { l with locals := ls } :=
  ⟨h.stale, h.globals, h.buf⟩

/-- Between two statements, with more locals in Lua. -/
def Declared (decls : List Decl) (isRead : Bool) (D₀ : Set String) (known : List (Set String))
    (S : String) (seen : List String) (vars : List (String × LuaVal)) : Relation := fun c f l =>
  Ended decls D₀ known S c f l ∧ ∃ ls, l.locals = vars ++ ls ∧ LuaLocals isRead seen f.loc ls

section

variable {decls : List Decl} {c : List (Set String)} {f : Frame} {l : LuaFrame}

/-- No local has been declared yet. -/
theorem Between.declared (h : Between decls isRead D₀ known S seen c f l) :
    Declared decls isRead D₀ known S seen [] c f l :=
  ⟨h.toEnded, l.locals, rfl, h.locals⟩

/-- One more local is declared. -/
theorem Declared.declare {vars : List (String × LuaVal)}
    (h : Declared decls isRead D₀ known S seen vars c f l) (x : String) (w : LuaVal) :
    Declared decls isRead D₀ known S seen ((x, w) :: vars) c f (l.declare x w) := by
  obtain ⟨hended, ls, hls, hlocals⟩ := h
  exact ⟨hended.of_locals _, ls, congrArg _ hls, hlocals⟩

end

/-- The loops of the two methods, turn by turn. -/
theorem simulates_loop {body : CxxProgram} {body' : LuaProgram} (hy : y ∈ seen)
    (hbody : ∀ k, (backends E.decls init).Simulates (InLoop E.decls isRead D₀ known S seen k)
      (InLoop E.decls isRead D₀ known S seen k) (Ended E.decls D₀ known S) body body') :
    (backends E.decls init).Simulates (Between E.decls isRead D₀ known S seen)
      (Between E.decls isRead D₀ known S seen) (Ended E.decls D₀ known S)
      (CxxEnv.loop (.loc (slotOf seen y)) (seen.length + 1) body) (LuaEnv.loop y body') := by
  -- one turn, in which `i` is set and the body runs
  have hturn (k : Nat) : (backends E.decls init).Simulates (Between E.decls isRead D₀ known S seen)
      (Between E.decls isRead D₀ known S seen) (Ended E.decls D₀ known S)
      ((CxxEnv.setTurn (seen.length + 1) k).andThen body)
      (LuaEnv.inBlock [("i", .scalar (.num (k + 1)))] body') := by
    have hset : (backends E.decls init).Simulates
        (Declared E.decls isRead D₀ known S seen [("i", .scalar (.num (k + 1)))])
        (InLoop E.decls isRead D₀ known S seen k) (Ended E.decls D₀ known S)
        (CxxEnv.setTurn (seen.length + 1) k) Traced.skip := by
      rintro c f l ⟨hended, ls, hls, hlocals⟩ - -
      exact
        { ending := rfl
          trace := rfl
          next := fun _ =>
            { stale := hended.stale
              globals := hended.globals
              buf := hended.buf
              turn := Function.update_self _ _ _
              locals := ⟨ls, hls, hlocals.congr fun slot hslot =>
                Function.update_of_ne (by omega) _ _⟩ }
          returned := fun hend => by cases hend }
    refine simulates_inBlock (fun c f l h => h.locals.length) (fun c f l h => ?_)
      (fun c f l h => ?_) (fun c f l h => h.of_locals _) (hset.andThen (hbody k))
    · exact h.declared.declare _ _
    · obtain ⟨ls, hls, hlocals⟩ := h.locals
      have hdrop : l.locals.drop (l.locals.length - luaWidth isRead seen) = ls := by
        rw [hls, List.length_cons, hlocals.length, Nat.add_sub_cancel_left, List.drop_one,
          List.tail_cons]
      exact ⟨⟨h.stale, h.globals, h.buf⟩, hdrop ▸ hlocals⟩
  intro c f l h hstuck hallows
  have hbound : l.lookup y = .scalar (f.loc (slotOf seen y)) := lookup_eq (h.locals.lookup_len hy)
  cases hn : f.loc (slotOf seen y) with
  | num n =>
    have hcxx : CxxEnv.loop (.loc (slotOf seen y)) (seen.length + 1) body f =
        Traced.turns (fun k => (CxxEnv.setTurn (seen.length + 1) k).andThen body) n.toNat 0 f := by
      simp only [CxxEnv.loop, Frame.get, hn]
    have hlua : LuaEnv.loop y body' l = Traced.turns
        (fun k => LuaEnv.inBlock [("i", .scalar (.num (k + 1)))] body') n.toNat 0 l := by
      simp only [LuaEnv.loop, hbound, hn]
    rw [hcxx] at hstuck hallows ⊢
    rw [hlua]
    exact Monitor.Simulates.turns hturn n.toNat 0 c f l h hstuck hallows
  | str s => exact absurd (by simp only [CxxEnv.loop, Frame.get, hn]; rfl) hstuck
  | vec vs => exact absurd (by simp only [CxxEnv.loop, Frame.get, hn]; rfl) hstuck
  | obj o => exact absurd (by simp only [CxxEnv.loop, Frame.get, hn]; rfl) hstuck

/-! ## In a turn -/

/-- The parameters and the index are visible in a turn. -/
theorem InLoop.lookup_locals {decls : List Decl} {k : Nat} {c : List (Set String)} {f : Frame}
    {l : LuaFrame} (h : InLoop decls isRead D₀ known S seen k c f l) :
    l.lookup "buffer" = .buffer ∧ l.lookup "self" = .self ∧ l.lookup "i" = .scalar (.num (k + 1)) := by
  obtain ⟨ls, hls, hlocals⟩ := h.locals
  refine ⟨lookup_eq ?_, lookup_eq ?_, lookup_eq ?_⟩
  · rw [hls]
    exact hlocals.lookup_buffer
  · rw [hls]
    exact hlocals.lookup_self
  · rw [hls]
    rfl

/-- The last element is set, in both. -/
theorem InLoop.set_temp {decls : List Decl} {k : Nat} {c : List (Set String)} {f : Frame}
    {l : LuaFrame} (h : InLoop decls true D₀ known S (("len_" ++ x) :: seen) k c f l) (v : Val)
    (w : LuaVal) (buf : ByteBuf) :
    InLoop decls true D₀ known S (("len_" ++ x) :: seen) k c
        { f.set (.loc (seen.length + 3)) v with buf := buf }
        (LuaFrame.assign { l with buf := buf } ("temp_" ++ x) w) ∧
      (LuaFrame.assign { l with buf := buf } ("temp_" ++ x) w).lookup ("temp_" ++ x) = w := by
  obtain ⟨ls, hls, x', w₀, ls', hx, hlocals, rfl⟩ := h.locals
  obtain rfl := len_injective hx
  have htemp : ("temp_" ++ x == "i") = false := beq_eq_false_iff_ne.mpr (temp_ne_i x)
  -- the local is the second
  have hassign : LuaFrame.assign { l with buf := buf } ("temp_" ++ x) w =
      { l with buf := buf, locals := ("i", .scalar (.num (k + 1))) :: ("temp_" ++ x, w) ::
        ("len_" ++ x, .scalar (f.loc (seen.length + 1))) :: ls' } := by
    simp [LuaFrame.assign, hls, List.lookup_cons, htemp, LuaFrame.setLocal, temp_ne_i]
  rw [hassign]
  refine ⟨⟨⟨h.stale, h.globals, rfl⟩, ?_, _, rfl, x, w, ls', rfl, ?_, ?_⟩, ?_⟩
  · exact (Function.update_of_ne (by simp) _ _).trans h.turn
  · exact hlocals.congr fun slot hslot => Function.update_of_ne (by omega) _ _
  · show _ = [_] ++ (_, LuaVal.scalar
      (Function.update f.loc (seen.length + 3) v (seen.length + 1))) :: ls'
    rw [Function.update_of_ne (by omega)]
    rfl
  · simp [LuaFrame.lookup, List.lookup_cons, htemp]

/-- In the turn `k`, with equal last elements. -/
def WithTemp (decls : List Decl) (D₀ : Set String) (known : List (Set String)) (S x : String)
    (seen : List String) (t : CxxType) (k : Nat) : Relation := fun c f l =>
  InLoop decls true D₀ known S (("len_" ++ x) :: seen) k c f l ∧
    Equal decls t (f.loc (seen.length + 3)) (l.lookup ("temp_" ++ x))

/-- A slot behind the index may be set. -/
theorem InLoop.set_loc {decls : List Decl} {k slot : Nat} {c : List (Set String)} {f : Frame}
    {l : LuaFrame} (h : InLoop decls isRead D₀ known S seen k c f l) (hslot : seen.length + 1 < slot)
    (v : Val) : InLoop decls isRead D₀ known S seen k c (f.set (.loc slot) v) l := by
  obtain ⟨ls, hls, hlocals⟩ := h.locals
  refine ⟨⟨h.stale, h.globals, h.buf⟩, ?_, ls, hls, ?_⟩
  · exact (Function.update_of_ne (by omega) _ _).trans h.turn
  · exact hlocals.congr fun slot' hslot' => Function.update_of_ne (by omega) _ _

/-- An element is read: C++ declares it in the turn, and Lua makes a new object for it. -/
theorem simulates_readTemp (hm : Matches tinfo.value t) (hfits : LuaFits E.decls)
    (hcalls : CallsAgree E init call) (hname : typeNamed E.decls tinfo.name = some t)
    (hfree : tinfo.value = .STRUCT → tinfo.name ≠ "i" ∧
      ∀ loc ls, LuaLocals true (("len_" ++ x) :: seen) loc ls → ls.lookup tinfo.name = none) (k : Nat) :
    (backends E.decls init).Simulates (InLoop E.decls true D₀ known S (("len_" ++ x) :: seen) k)
      (WithTemp E.decls D₀ known S x seen t k) (Ended E.decls D₀ known S)
      (((E.toEnv.decl (seen.length + 3) t).shown fun _ => []).andThen
        (E.readShown (.loc (seen.length + 3)) t))
      ((E.luaEnv init literal call).simples (luaNew tinfo (.name ("temp_" ++ x)) ++
        luaReadValue tinfo.value (.name ("temp_" ++ x)))) := by
  have hdecl : (backends E.decls init).Simulates
      (InLoop E.decls true D₀ known S (("len_" ++ x) :: seen) k)
      (InLoop E.decls true D₀ known S (("len_" ++ x) :: seen) k) (Ended E.decls D₀ known S)
      ((E.toEnv.decl (seen.length + 3) t).shown fun _ => []) Traced.skip :=
    simulates_cxx fun c f l h => ⟨_, rfl, h.set_loc (by simp) _⟩
  have hnew : (backends E.decls init).Simulates
      (InLoop E.decls true D₀ known S (("len_" ++ x) :: seen) k)
      (fun c f l => InLoop E.decls true D₀ known S (("len_" ++ x) :: seen) k c f l ∧
        ∀ T, t = .struct T → l.lookup ("temp_" ++ x) = .obj T (newFields E.decls init T))
      (Ended E.decls D₀ known S) Traced.skip
      ((E.luaEnv init literal call).simples (luaNew tinfo (.name ("temp_" ++ x)))) := by
    rw [luaNew]
    by_cases hstruct : tinfo.value = .STRUCT
    · rw [if_pos hstruct]
      rw [hstruct] at hm
      obtain ⟨T, rfl⟩ : ∃ T, t = .struct T := by cases hm; exact ⟨_, rfl⟩
      show (backends E.decls init).Simulates _ _ _ _ ((LuaEnv.step _).andThen .skip)
      rw [Traced.andThen_skip]
      apply simulates_lua
      intro c f l h
      obtain ⟨ls, hls, hlocals⟩ := h.locals
      have hlookup : l.locals.lookup tinfo.name = none := by
        rw [hls, List.lookup_cons, beq_eq_false_iff_ne.mpr (hfree hstruct).1]
        exact (hfree hstruct).2 _ _ hlocals
      have hobj := hfits.new (E.luaEnv init literal call) rfl hlookup h.globals hname
      obtain ⟨hloop, htemp⟩ :=
        h.set_temp (f.loc (seen.length + 3)) (.obj T (newFields E.decls init T)) l.buf
      rw [hobj, Option.bind_some]
      refine ⟨_, rfl, ?_, fun T' hT => ?_⟩
      · have hf : { f.set (.loc (seen.length + 3)) (f.loc (seen.length + 3)) with
            buf := l.buf } = f := by
          rw [h.buf, Frame.set, Function.update_eq_self]
        rwa [hf] at hloop
      · cases hT
        exact htemp
    · rw [if_neg hstruct]
      apply Monitor.simulates_skip
      intro c f l h
      refine ⟨h, fun T hT => ?_⟩
      subst hT
      exact absurd hm.value_struct hstruct
  have hread : (backends E.decls init).Simulates
      (fun c f l => InLoop E.decls true D₀ known S (("len_" ++ x) :: seen) k c f l ∧
        ∀ T, t = .struct T → l.lookup ("temp_" ++ x) = .obj T (newFields E.decls init T))
      (WithTemp E.decls D₀ known S x seen t k) (Ended E.decls D₀ known S)
      (E.readShown (.loc (seen.length + 3)) t)
      ((E.luaEnv init literal call).simples (luaReadValue tinfo.value (.name ("temp_" ++ x)))) := by
    have hset (c : List (Set String)) (f : Frame) (l : LuaFrame) (v : Val) (w : LuaVal) (buf : ByteBuf)
        (h : InLoop E.decls true D₀ known S (("len_" ++ x) :: seen) k c f l)
        (hv : Equal E.decls t v w) :
        WithTemp E.decls D₀ known S x seen t k c { f.set (.loc (seen.length + 3)) v with buf := buf }
          (LuaFrame.assign { l with buf := buf } ("temp_" ++ x) w) := by
      obtain ⟨hloop, htemp⟩ := h.set_temp v w buf
      refine ⟨hloop, ?_⟩
      rw [htemp]
      show Equal E.decls t (Function.update f.loc (seen.length + 3) v (seen.length + 3)) w
      rwa [Function.update_self]
    apply simulates_readValue hm hcalls
    · exact fun c f l h => ⟨h.1.lookup_locals.1, h.1.buf, h.1.globals⟩
    · exact fun _ c f l h => h.1.toEnded
    · exact fun c f l h => h.1.toEnded
    · exact fun c f l v buf h hv => ⟨_, rfl, hset c f l v _ buf h.1 hv⟩
    · intro T hT c f l o h ho
      subst hT
      have hequal : EqualBut E.decls (staleIn E.decls init T (.obj o)) T o
          (newFields E.decls init T) := equalBut_new init
      exact ⟨_, congrArg some (h.2 T rfl), hfits.noField hequal true, hequal,
        fun o' fields' buf hfields => ⟨_, rfl, hset c f l _ _ buf h.1 (equal_obj.mpr hfields)⟩⟩
  rw [LuaEnv.simples_append]
  exact hdecl.andThen (hnew.andThen hread)

/-- `v.push_back(x);`. -/
def pushShown (v : String) (x i : Nat) : CxxProgram :=
  (Action.pushBack (.mem v) (.loc x)).shown fun f => [.push (.mem v) (f.size (.mem v)) (f.loc i)]

/-- The element of the turn is the one behind the last. -/
theorem simulates_push (ht : memberType E.decls S x = some (.vector t)) (k : Nat) :
    (backends E.decls init).Simulates (WithTemp E.decls D₀ known S x seen t k)
      (InLoop E.decls true D₀ known S (("len_" ++ x) :: seen) k) (Ended E.decls D₀ known S)
      (pushShown x (seen.length + 3) (seen.length + 2))
      ((E.luaEnv init literal call).simple (.assign (.elem x) (.name ("temp_" ++ x)))) := by
  rintro c f l ⟨h, htemp⟩ hstuck hallows
  obtain ⟨D, rfl, hequal, hsub⟩ := h.stale
  cases hv : f.self x with
  | vec vs =>
    have hcxx : pushShown x (seen.length + 3) (seen.length + 2) f =
        { ending := .next, state := f.set (.mem x) (.vec (vs ++ [f.loc (seen.length + 3)]))
          trace := [.push (.mem x) (f.size (.mem x)) (f.loc (seen.length + 2))] } := by
      simp only [pushShown, Action.shown, Action.pushBack, Frame.get, hv]
    rw [hcxx] at hallows ⊢
    obtain ⟨⟨hturn, hx⟩, -⟩ := hallows
    have hx : x ∉ D := hx
    have hvec := hequal.members x _ ht hx
    rw [hv] at hvec
    cases hws : l.self x with
    | arr ws =>
      rw [hws] at hvec
      have hlength : vs.length = ws.length := by
        cases hvec with
        | vec hlength _ => exact hlength
      have hk : k = ws.length := by
        have hsize : f.size (.mem x) = vs.length := by simp only [Frame.size, Frame.get, hv]
        have heq : Val.num k = Val.num vs.length := by
          rw [← hsize, ← hturn]
          exact h.turn.symm
        have hcast := Val.num.inj heq
        omega
      have hset : LuaVal.setAt ws (k + 1) (l.lookup ("temp_" ++ x)) =
          some (ws ++ [l.lookup ("temp_" ++ x)]) := by
        rw [LuaVal.setAt, if_pos (by omega), hk]
        simp
      have hlua : (E.luaEnv init literal call).simple (.assign (.elem x) (.name ("temp_" ++ x))) l =
          { ending := .next
            state := { l with
              self := Function.update l.self x (.arr (ws ++ [l.lookup ("temp_" ++ x)])) }
            trace := [] } := by
        obtain ⟨-, hself, hi⟩ := h.lookup_locals
        simp only [LuaEnv.simple, LuaEnv.step, LuaVar.get, LuaVar.set, hself, hi, hws, hset,
          Option.bind_some, Option.map_some]
      rw [hlua]
      have hupdate := hequal.update ht (hvec.append htemp)
      rw [Set.sdiff_singleton_eq_self hx] at hupdate
      exact
        { ending := rfl
          trace := rfl
          next := fun _ =>
            { stale := ⟨D, rfl, hupdate, hsub⟩
              globals := h.globals
              buf := h.buf
              turn := h.turn
              locals := h.locals }
          returned := fun hend => by cases hend }
    | _ => rw [hws] at hvec; cases hvec
  | num n =>
    exact absurd (by simp only [pushShown, Action.shown, Action.pushBack, Frame.get, hv]) hstuck
  | str s =>
    exact absurd (by simp only [pushShown, Action.shown, Action.pushBack, Frame.get, hv]) hstuck
  | obj o =>
    exact absurd (by simp only [pushShown, Action.shown, Action.pushBack, Frame.get, hv]) hstuck

/-- Both write the element of the turn. -/
theorem simulates_writeElem (hm : Matches value t) (hfits : LuaFits E.decls)
    (hcalls : CallsAgree E init call) (ht : memberType E.decls S x = some (.vector t)) (k : Nat) :
    (backends E.decls init).Simulates (InLoop E.decls false ∅ known S seen k)
      (InLoop E.decls false ∅ known S seen k) (Ended E.decls ∅ known S)
      (E.writeShown (.elem (.mem x) (seen.length + 1)) t)
      ((E.luaEnv init literal call).simple (luaWriteValue value (.elem x))) := by
  -- the vectors are equal, and have an element for the turn
  have helem (c : List (Set String)) (f : Frame) (l : LuaFrame) (v : Val)
      (h : InLoop E.decls false ∅ known S seen k c f l)
      (hv : f.get (.elem (.mem x) (seen.length + 1)) = some v) :
      ∃ vs ws w, f.self x = .vec vs ∧ l.self x = .arr ws ∧ vs[k]? = some v ∧ ws[k]? = some w ∧
        Equal E.decls t v w ∧ Equal E.decls (.vector t) (.vec vs) (.arr ws) := by
    obtain ⟨D, -, hequal, hsub⟩ := h.stale
    have hvec := hequal.members x _ ht fun hx => Set.notMem_empty x (hsub hx)
    cases hvs : f.self x with
    | vec vs =>
      simp only [Frame.get, hvs, h.turn, Int.natCast_nonneg, if_true, Int.toNat_natCast] at hv
      rw [hvs] at hvec
      cases hws : l.self x with
      | arr ws =>
        rw [hws] at hvec
        have hvec' := hvec
        cases hvec' with
        | vec hlength helems =>
          have hlt : k < ws.length := by
            rw [← hlength]
            exact (List.getElem?_eq_some_iff.mp hv).1
          exact ⟨vs, ws, ws[k], rfl, rfl, hv, List.getElem?_eq_getElem hlt,
            helems k v _ hv (List.getElem?_eq_getElem hlt), hvec⟩
      | _ => rw [hws] at hvec; cases hvec
    | _ => simp only [Frame.get, hvs] at hv; cases hv
  apply simulates_writeValue hm hfits hcalls
  · exact fun c f l h => ⟨h.lookup_locals.1, h.buf, h.globals⟩
  · exact fun c f l h => h.toEnded
  · intro c f l v h hv
    obtain ⟨vs, ws, w, hvs, hws, -, hw, hequal, -⟩ := helem c f l v h hv
    refine ⟨w, ?_, hequal⟩
    obtain ⟨-, hself, hi⟩ := h.lookup_locals
    have hindex : LuaVal.index ws (k + 1) = w := by
      rw [LuaVal.index, if_pos (by omega), Int.add_sub_cancel, Int.toNat_natCast, hw, Option.getD_some]
    simp only [LuaVar.get, hself, hws, hi, hindex]
  · exact fun c f l buf h => ⟨⟨h.stale, h.globals, rfl⟩, h.turn, h.locals⟩
  · intro c f l v v' w' buf h hv hequal'
    obtain ⟨vs, ws, w, hvs, hws, hvk, hwk, -, hvec⟩ := helem c f l v h hv
    obtain ⟨-, hself, hi⟩ := h.lookup_locals
    have hlt : k < ws.length := (List.getElem?_eq_some_iff.mp hwk).1
    have hsetAt : LuaVal.setAt ws (k + 1) w' = some (ws.set k w') := by
      rw [LuaVal.setAt, if_pos (by omega), Int.add_sub_cancel, Int.toNat_natCast,
        List.set_eq_take_append_cons_drop, if_pos hlt]
      rfl
    obtain ⟨D, rfl, hequal, hsub⟩ := h.stale
    have hupdate := (hequal.update ht (hvec.set hequal' k)).mono Set.sdiff_subset
    refine ⟨{ l with self := Function.update l.self x (.arr (ws.set k w')), buf := buf }, ?_, ?_⟩
    · have hself' : LuaFrame.lookup { l with buf := buf } "self" = .self := hself
      have hi' : LuaFrame.lookup { l with buf := buf } "i" = .scalar (.num (k + 1)) := hi
      simp only [LuaVar.set, hself', hws, hi', hsetAt, Option.map_some]
    · have hset : f.set (.elem (.mem x) (seen.length + 1)) v' =
          f.set (.mem x) (.vec (vs.set k v')) := by
        simp only [Frame.set, Frame.get, hvs, h.turn, Int.toNat_natCast]
      rw [hset]
      exact
        { stale := ⟨D, rfl, hupdate, hsub⟩
          globals := h.globals
          buf := rfl
          turn := h.turn
          locals := h.locals }

/-! ## The lengths -/

/-- `int len_x = x.size();`. -/
def sizeShown (slot : Nat) (x : String) : CxxProgram :=
  (Action.declSize slot (.mem x)).shown fun f => [.size (f.size (.mem x))]

variable (init literal call) in
/-- The size of a vector that is not too long. -/
theorem simulates_size (ht : memberType E.decls S x = some (.vector t)) :
    (backends E.decls init).Simulates (Between E.decls false ∅ known S seen)
      (Between E.decls false ∅ known S (("len_" ++ x) :: seen)) (Ended E.decls ∅ known S)
      (sizeShown (seen.length + 1) x)
      ((E.luaEnv init literal call).simple (.localSize ("len_" ++ x) x)) := by
  intro c f l h hstuck hallows
  obtain ⟨D, rfl, hequal, hsub⟩ := h.stale
  have hvec := hequal.members x _ ht fun hx => Set.notMem_empty x (hsub hx)
  cases hv : f.self x with
  | vec vs =>
    have hcxx : sizeShown (seen.length + 1) x f =
        { ending := .next, state := f.set (.loc (seen.length + 1)) (.num (Int.bmod vs.length (2 ^ 32)))
          trace := [.size (f.size (.mem x))] } := by
      simp only [sizeShown, Action.shown, Action.declSize, Frame.get, hv]
    rw [hcxx] at hallows ⊢
    have hsize : f.size (.mem x) = vs.length := by simp only [Frame.size, Frame.get, hv]
    obtain ⟨hlt, -⟩ := hallows
    have hlt : f.size (.mem x) < 2 ^ 31 := hlt
    rw [hv] at hvec
    cases hws : l.self x with
    | arr ws =>
      rw [hws] at hvec
      have hlength : vs.length = ws.length := by
        cases hvec with
        | vec hlength _ => exact hlength
      have hlua : (E.luaEnv init literal call).simple (.localSize ("len_" ++ x) x) l =
          { ending := .next, state := l.declare ("len_" ++ x) (.scalar (.num ws.length))
            trace := [] } := by
        simp only [LuaEnv.simple, LuaEnv.step, h.get_member x, hws]
      have hbmod : Int.bmod vs.length (2 ^ 32) = vs.length := by
        apply Int.bmod_eq_of_le <;> omega
      rw [hlua, hbmod]
      exact
        { ending := rfl
          trace := rfl
          next := fun _ =>
            { stale := ⟨D, rfl, hequal, hsub⟩
              globals := h.globals
              buf := h.buf
              locals := by
                refine ⟨x, .nil, l.locals, rfl, h.locals.congr fun slot hslot =>
                  Function.update_of_ne (by omega) _ _, ?_⟩
                show _ = [] ++ (_, LuaVal.scalar (Function.update f.loc (seen.length + 1)
                  (.num vs.length) (seen.length + 1))) :: _
                rw [Function.update_self, hlength]
                rfl }
          returned := fun hend => by cases hend }
    | _ => rw [hws] at hvec; cases hvec
  | num n =>
    exact absurd (by simp only [sizeShown, Action.shown, Action.declSize, Frame.get, hv]) hstuck
  | str s =>
    exact absurd (by simp only [sizeShown, Action.shown, Action.declSize, Frame.get, hv]) hstuck
  | obj o =>
    exact absurd (by simp only [sizeShown, Action.shown, Action.declSize, Frame.get, hv]) hstuck

variable (literal) in
/-- The length of a vector is read, into locals that both declare. -/
theorem simulates_readLen (hcalls : CallsAgree E init call) :
    (backends E.decls init).Simulates (Between E.decls true D₀ known S seen)
      (Between E.decls true D₀ known S (("len_" ++ x) :: seen)) (Ended E.decls D₀ known S)
      ((Action.skip.shown fun _ => []).andThen (E.readShown (.loc (seen.length + 1)) (.base .INT32)))
      (((E.luaEnv init literal call).simple (.localZero ("len_" ++ x))).andThen
        (((E.luaEnv init literal call).simple (.localNil ("temp_" ++ x))).andThen
          ((E.luaEnv init literal call).simples
            (luaReadValue (.base .INT32) (.name ("len_" ++ x)))))) := by
  have hdecl : (backends E.decls init).Simulates (Between E.decls true D₀ known S seen)
      (Declared E.decls true D₀ known S seen
        [("temp_" ++ x, .nil), ("len_" ++ x, .scalar (.num 0))])
      (Ended E.decls D₀ known S) (Action.skip.shown fun _ => [])
      (((E.luaEnv init literal call).simple (.localZero ("len_" ++ x))).andThen
        ((E.luaEnv init literal call).simple (.localNil ("temp_" ++ x)))) := by
    have hzero : (backends E.decls init).Simulates (Between E.decls true D₀ known S seen)
        (Declared E.decls true D₀ known S seen [("len_" ++ x, .scalar (.num 0))])
        (Ended E.decls D₀ known S) Traced.skip
        ((E.luaEnv init literal call).simple (.localZero ("len_" ++ x))) :=
      simulates_lua fun c f l h => ⟨_, rfl, h.declared.declare _ _⟩
    have hnil : (backends E.decls init).Simulates
        (Declared E.decls true D₀ known S seen [("len_" ++ x, .scalar (.num 0))])
        (Declared E.decls true D₀ known S seen
          [("temp_" ++ x, .nil), ("len_" ++ x, .scalar (.num 0))])
        (Ended E.decls D₀ known S) Traced.skip
        ((E.luaEnv init literal call).simple (.localNil ("temp_" ++ x))) :=
      simulates_lua fun c f l h => ⟨_, rfl, h.declare _ _⟩
    have hskip : (Action.skip.shown fun _ => []) = (Traced.skip : CxxProgram) := rfl
    rw [hskip]
    exact hzero.andThen hnil
  have hread : (backends E.decls init).Simulates
      (Declared E.decls true D₀ known S seen
        [("temp_" ++ x, .nil), ("len_" ++ x, .scalar (.num 0))])
      (Between E.decls true D₀ known S (("len_" ++ x) :: seen)) (Ended E.decls D₀ known S)
      (E.readShown (.loc (seen.length + 1)) (.base .INT32))
      ((E.luaEnv init literal call).simples (luaReadValue (.base .INT32) (.name ("len_" ++ x)))) := by
    apply simulates_readValue (.base .INT32) hcalls
    · rintro c f l ⟨hended, ls, hls, hlocals⟩
      refine ⟨lookup_eq ?_, hended.buf, hended.globals⟩
      have hlen := beq_eq_false_iff_ne.mpr (IsParam.ne_len (.inl rfl) x)
      have htemp := beq_eq_false_iff_ne.mpr (IsParam.ne_temp (.inl rfl) x)
      rw [hls, List.cons_append, List.lookup_cons, htemp, List.cons_append, List.lookup_cons, hlen]
      exact hlocals.lookup_buffer
    · exact fun _ c f l h => h.1
    · exact fun c f l h => h.toEnded
    · rintro c f l v buf ⟨hended, ls, hls, hlocals⟩ -
      have htemp : ("len_" ++ x == "temp_" ++ x) = false := beq_eq_false_iff_ne.mpr (len_ne_temp x x)
      have hassign : LuaFrame.assign { l with buf := buf } ("len_" ++ x) (.scalar v) =
          { l with buf := buf, locals := ("temp_" ++ x, .nil) :: ("len_" ++ x, .scalar v) :: ls } := by
        simp [LuaFrame.assign, hls, List.lookup_cons, htemp, LuaFrame.setLocal]
      refine ⟨_, congrArg some hassign, ⟨⟨hended.stale, hended.globals, rfl⟩, x, .nil, ls, rfl, ?_, ?_⟩⟩
      · exact hlocals.congr fun slot hslot => Function.update_of_ne (by omega) _ _
      · show _ = [_] ++ (_, LuaVal.scalar
          (Function.update f.loc (seen.length + 1) v (seen.length + 1))) :: ls
        rw [Function.update_self]
        rfl
    · intro T hT
      cases hT
  rw [← Traced.andThen_assoc]
  exact hdecl.andThen hread

end Loops

end Athena.Idl
