import Athena.Spec.TwoBackends

/-!
# The statements of the two methods

A step of the C++ method beside the statements that Lua has for it: the checks of the size, the
operators of the buffer, the calls (`CallsAgree`), and a member that is read or written.

## Key results

- `simulates_call`: a call, when Lua follows the method that is called
- `simulates_readMember`, `simulates_writeMember`: a member that is no vector
-/

namespace Athena.Idl

/-- Lua for the same declarations and the same buffer. -/
def CxxEnv.luaEnv (E : CxxEnv) (init : String → Expr → LuaVal) (literal : String → Val)
    (call : Bool → String → LuaProgram) : LuaEnv :=
  { decls := E.decls, wire := E.wire, init := init, literal := literal, call := call }

/-- States of the two methods, with what is known of them. -/
abbrev Relation := List (Set String) → Frame → LuaFrame → Prop

section Steps

variable {E : CxxEnv} {init : String → Expr → LuaVal} {literal : String → Val}
  {call : Bool → String → LuaProgram} {P Q R : Relation} {p : Place} {x : LuaVar} {t : CxxType}

/-- Both methods return where there are not enough bytes. -/
theorem simulates_checkSize (t : BaseType)
    (hP : ∀ c f l, P c f l → l.lookup "buffer" = .buffer ∧ l.buf = f.buf)
    (hR : ∀ c f l, P c f l → R c f l) :
    (backends E.decls init).Simulates P P R ((Action.checkSize t).shown fun _ => [])
      (LuaEnv.checkSize t.size) := by
  intro c f l h _ _
  obtain ⟨hbuffer, hbuf⟩ := hP c f l h
  simp only [LuaEnv.checkSize, hbuffer, hbuf, Action.shown, Action.checkSize]
  by_cases hsize : t.size + f.buf.rpos ≤ f.buf.wpos
  · rw [decide_eq_true hsize, if_pos hsize]
    exact { ending := rfl, trace := rfl, next := fun _ => h, returned := fun hend => by cases hend }
  · rw [decide_eq_false hsize, if_neg hsize]
    exact
      { ending := rfl
        trace := rfl
        next := fun hend => by cases hend
        returned := fun _ => hR c f l h }

/-- `*buffer >> x;`. -/
def CxxEnv.getShown (E : CxxEnv) (p : Place) (t : CxxType) : CxxProgram :=
  (E.toEnv.get p t).shown fun f => [.op (.read t (E.wire.get t f.buf.rest).1), .got p]

/-- Both take the same bytes. -/
theorem simulates_get (hP : ∀ c f l, P c f l → l.lookup "buffer" = .buffer ∧ l.buf = f.buf ∧
      ∀ v buf, ∃ l', x.set { l with buf := buf } (.scalar v) = some l' ∧
        Q ((backends E.decls init).next c (.got p)) { f.set p v with buf := buf } l') :
    (backends E.decls init).Simulates P Q R (E.getShown p t)
      ((E.luaEnv init literal call).get x t) := by
  intro c f l h _ _
  obtain ⟨hbuffer, hbuf, hset⟩ := hP c f l h
  obtain ⟨l', hl', hQ⟩ := hset (E.wire.get t f.buf.rest).1 (f.buf.take (E.wire.get t f.buf.rest).2)
  have hlua : (E.luaEnv init literal call).get x t l =
      { ending := .next, state := l', trace := [.read t (E.wire.get t f.buf.rest).1] } := by
    simp only [LuaEnv.get, CxxEnv.luaEnv, hbuffer, hbuf, hl']
  rw [hlua]
  exact { ending := rfl, trace := rfl, next := fun _ => hQ, returned := fun hend => by cases hend }

/-- `*buffer << x;`. -/
def CxxEnv.putShown (E : CxxEnv) (p : Place) (t : CxxType) : CxxProgram :=
  (E.toEnv.put p t).shown fun f => (f.get p).toList.map fun v => .op (.write t v)

/-- Both append the same bytes. -/
theorem simulates_put (hP : ∀ c f l, P c f l → l.lookup "buffer" = .buffer ∧ l.buf = f.buf ∧
      (∀ v, f.get p = some v → x.get l = some (.scalar v)) ∧
      ∀ buf, Q c { f with buf := buf } { l with buf := buf }) :
    (backends E.decls init).Simulates P Q R (E.putShown p t)
      ((E.luaEnv init literal call).put x t) := by
  intro c f l h hstuck _
  obtain ⟨hbuffer, hbuf, hget, hQ⟩ := hP c f l h
  cases hv : f.get p with
  | none =>
    exact absurd (by simp only [CxxEnv.putShown, Action.shown, Env.put, hv, Option.map_none]) hstuck
  | some v =>
    have hlua : (E.luaEnv init literal call).put x t l =
        { ending := .next, state := { l with buf := l.buf.append (E.wire.put t v) }
          trace := [.write t v] } := by
      simp only [LuaEnv.put, CxxEnv.luaEnv, hbuffer, hget v hv]
    have hcxx : E.putShown p t f =
        { ending := .next, state := { f with buf := f.buf.append (E.wire.put t v) }
          trace := [.op (.write t v)] } := by
      simp only [CxxEnv.putShown, Action.shown, Env.put, hv, Option.map_some, Option.toList_some,
        List.map_cons, List.map_nil]
    rw [hlua, hcxx, hbuf]
    exact { ending := rfl, trace := rfl, next := fun _ => hQ _, returned := fun hend => by cases hend }

/-- A step of Lua alone. -/
theorem simulates_lua {next : LuaFrame → Option LuaFrame}
    (h : ∀ c f l, P c f l → ∃ l', next l = some l' ∧ Q c f l') :
    (backends E.decls init).Simulates P Q R Traced.skip (LuaEnv.step next) := by
  intro c f l hP _ _
  obtain ⟨l', hl', hQ⟩ := h c f l hP
  have hlua : LuaEnv.step next l = { ending := .next, state := l', trace := [] } := by
    simp only [LuaEnv.step, hl']
  rw [hlua]
  exact { ending := rfl, trace := rfl, next := fun _ => hQ, returned := fun hend => by cases hend }

/-- A step of C++ alone. -/
theorem simulates_cxx {a : Action} (h : ∀ c f l, P c f l → ∃ f', a f = some (true, f') ∧ Q c f' l) :
    (backends E.decls init).Simulates P Q R (a.shown fun _ => []) Traced.skip := by
  intro c f l hP _ _
  obtain ⟨f', hf', hQ⟩ := h c f l hP
  have hcxx : a.shown (fun _ => []) f = { ending := .next, state := f', trace := [] } := by
    simp only [Action.shown, hf']
  rw [hcxx]
  exact { ending := rfl, trace := rfl, next := fun _ => hQ, returned := fun hend => by cases hend }

end Steps

/-! ## Calls -/

/-- The method of a class has been run in Lua as in C++, where `events` are its steps; `D` are the
    members whose values may have been different before. -/
structure Followed (decls : List Decl) (init : String → Expr → LuaVal) (D : Set String)
    (known : List (Set String)) (T : String) (events : List CxxEvent) (ending : Ending)
    (o : String → Val) (buf : ByteBuf) (r : Outcome LuaFrame BufOp) : Prop where
  ending : r.ending = ending
  trace : r.trace = events.flatMap (backends decls init).seen
  globals : r.state.globals = luaGlobals decls
  buf : r.state.buf = buf
  stale : ∃ D', (backends decls init).after (D :: known) events = D' :: known ∧
    EqualBut decls D' T o r.state.self ∧ D' ⊆ D

/-- Lua follows the methods that are called. -/
def CallsAgree (E : CxxEnv) (init : String → Expr → LuaVal) (call : Bool → String → LuaProgram) :
    Prop :=
  ∀ isRead T v buf ok v' buf', E.call isRead T v buf = some (ok, v', buf') →
    ∃ o o', v = .obj o ∧ v' = .obj o' ∧
      ∀ known D l, EqualBut E.decls D T o l.self → (isRead = false → D = ∅) →
        l.globals = luaGlobals E.decls → l.buf = buf →
        (backends E.decls init).Allows (D :: known) (E.events isRead T v buf) →
        Followed E.decls init D known T (E.events isRead T v buf)
          (if ok then .next else .returned) o' buf' (call isRead T l)

section Calls

variable {E : CxxEnv} {init : String → Expr → LuaVal} {literal : String → Val}
  {call : Bool → String → LuaProgram} {P Q R : Relation} {p : Place} {x : LuaVar} {T : String}
  {isRead : Bool}

/-- `x.read(buffer)` or `x.write(buffer)`. -/
def CxxEnv.callShown (E : CxxEnv) (isRead : Bool) (p : Place) (T : String) : CxxProgram :=
  (E.toEnv.callOn isRead p T).shown fun f =>
    E.callEvents isRead p T f ++ if isRead then [CxxEvent.got p] else []

/-- What is seen of a call is what is seen of the method. -/
theorem seen_call {o : String → Val} (evs : List CxxEvent) :
    (CxxEvent.enter isRead T (.obj o) :: (evs ++ [CxxEvent.leave]) ++
      if isRead then [CxxEvent.got p] else []).flatMap (backends E.decls init).seen =
        evs.flatMap (backends E.decls init).seen := by
  cases isRead <;> simp [backends, CxxEvent.ops]

/-- The object that Lua calls has the class, and equal members, but where it is a new one. -/
theorem simulates_call (hcalls : CallsAgree E init call)
    (hP : ∀ c f l, P c f l → l.lookup "buffer" = .buffer ∧ l.buf = f.buf ∧
      l.globals = luaGlobals E.decls ∧ ∀ o, f.get p = some (.obj o) →
        ∃ fields, x.get l = some (.obj T fields) ∧ fields (LuaEnv.methodName isRead) = .nil ∧
          EqualBut E.decls (if isRead then staleIn E.decls init T (.obj o) else ∅) T o fields ∧
          ∀ o' fields' buf, EqualBut E.decls ∅ T o' fields' →
            ∃ l', x.set { l with buf := buf } (.obj T fields') = some l' ∧
              Q (if isRead then (backends E.decls init).next c (.got p) else c)
                { f.set p (.obj o') with buf := buf } l')
    (hR : ∀ c f l, Q c f l → R c f l) :
    (backends E.decls init).Simulates P Q R (E.callShown isRead p T)
      ((E.luaEnv init literal call).callOn isRead x) := by
  intro c f l h hstuck hallows
  obtain ⟨hbuffer, hbuf, hglobals, hobj⟩ := hP c f l h
  cases hv : f.get p with
  | none => exact absurd (by simp only [CxxEnv.callShown, Action.shown, Env.callOn, hv]) hstuck
  | some v =>
    cases hcall : E.call isRead T v f.buf with
    | none =>
      exact absurd (by simp only [CxxEnv.callShown, Action.shown, Env.callOn, hv, hcall]) hstuck
    | some r =>
      obtain ⟨ok, v', buf'⟩ := r
      obtain ⟨o, o', rfl, rfl, hagrees⟩ := hcalls isRead T v f.buf ok v' buf' hcall
      obtain ⟨fields, hget, hname, hequal, hset⟩ := hobj o hv
      have hcxx : E.callShown isRead p T f =
          { ending := if ok then .next else .returned
            state := { f.set p (.obj o') with buf := buf' }
            trace := CxxEvent.enter isRead T (.obj o) ::
                (E.events isRead T (.obj o) f.buf ++ [CxxEvent.leave]) ++
              if isRead then [CxxEvent.got p] else [] } := by
        cases ok <;> simp [CxxEnv.callShown, Action.shown, Env.callOn, hv, hcall, CxxEnv.callEvents]
      rw [hcxx] at hallows ⊢
      -- between its entry and its end are the steps of the method
      obtain ⟨hcalled, hgot⟩ := ((backends E.decls init).allows_append _ _ _).mp hallows
      obtain ⟨-, hinside⟩ := hcalled
      obtain ⟨hevents, hleave, -⟩ := ((backends E.decls init).allows_append _ _ _).mp hinside
      have hfollowed :=
        hagrees c _ { self := fields, locals := [], globals := l.globals, buf := l.buf } hequal
          (fun hwrite => by rw [hwrite]; rfl) hglobals hbuf hevents
      obtain ⟨D', hafter, hequal', -⟩ := hfollowed.stale
      have hD' : D' = ∅ := by
        have hleave' : ((backends E.decls init).after
          ((if isRead then staleIn E.decls init T (.obj o) else ∅) :: c)
            (E.events isRead T (.obj o) f.buf)).headD ∅ = ∅ := hleave
        rwa [hafter] at hleave'
      subst hD'
      obtain ⟨l', hl', hQ⟩ := hset o' _ buf' hequal'
      have hlua : (E.luaEnv init literal call).callOn isRead x l =
          { ending := if ok then .next else .returned, state := l'
            trace := (E.events isRead T (.obj o) f.buf).flatMap (backends E.decls init).seen } := by
        have hl'' : x.set { l with globals := luaGlobals E.decls, buf := buf' } (.obj T
            (call isRead T
              { self := fields, locals := [], globals := l.globals, buf := l.buf }).state.self) =
              some l' := by
          rw [← hglobals]
          exact hl'
        simp only [LuaEnv.callOn, hget, hbuffer, hname, CxxEnv.luaEnv, hfollowed.globals,
          hfollowed.buf, hl'', hfollowed.ending, hfollowed.trace]
      have hall : (backends E.decls init).after c
          (CxxEvent.enter isRead T (.obj o) ::
            (E.events isRead T (.obj o) f.buf ++ [CxxEvent.leave])) = c := by
        show (backends E.decls init).after (_ :: c) _ = c
        rw [Monitor.after_append, hafter]
        rfl
      have hend : (backends E.decls init).after c
          (CxxEvent.enter isRead T (.obj o) ::
              (E.events isRead T (.obj o) f.buf ++ [CxxEvent.leave]) ++
            if isRead then [CxxEvent.got p] else []) =
              if isRead then (backends E.decls init).next c (.got p) else c := by
        rw [Monitor.after_append, hall]
        cases isRead <;> rfl
      rw [hlua]
      exact
        { ending := rfl
          trace := (seen_call _).symm
          next := fun _ => by rw [hend]; exact hQ
          returned := fun _ => by rw [hend]; exact hR _ _ _ hQ }

end Calls

/-! ## Members -/

/-- A block inside a method. -/
def Scope.inBlock (struct : String) (seen : List String) (outer : Nat) : Scope :=
  { Scope.between struct seen with outer := outer }

section Members

variable {E : CxxEnv} {init : String → Expr → LuaVal} {literal : String → Val}
  {call : Bool → String → LuaProgram} {isRead : Bool} {D₀ : Set String}
  {known : List (Set String)} {S y : String} {seen : List String} {t : CxxType} {value : TypeValue}
  {tinfo : TypeInfo} {outer : Nat}

/-- What reading a value does, and shows. -/
def CxxEnv.readShown (E : CxxEnv) (p : Place) : CxxType → CxxProgram
  | .base t => ((Action.checkSize t).shown fun _ => []).andThen (E.getShown p (.base t))
  | .struct T => E.callShown true p T
  | t => E.getShown p t

/-- What writing a value does, and shows. -/
def CxxEnv.writeShown (E : CxxEnv) (p : Place) : CxxType → CxxProgram
  | .struct T => E.callShown false p T
  | t => E.putShown p t

/-- A value is read where the states are as between two statements; `P` says more for an object. -/
theorem simulates_readValue {P Q R : Relation} {p : Place} {x : LuaVar} (hm : Matches value t)
    (hcalls : CallsAgree E init call)
    (hP : ∀ c f l, P c f l → l.lookup "buffer" = .buffer ∧ l.buf = f.buf ∧
      l.globals = luaGlobals E.decls)
    (hPR : (∀ T, t ≠ .struct T) → ∀ c f l, P c f l → R c f l) (hQR : ∀ c f l, Q c f l → R c f l)
    (hscalar : ∀ c f l v buf, P c f l → Equal E.decls t v (.scalar v) →
      ∃ l', x.set { l with buf := buf } (.scalar v) = some l' ∧
        Q ((backends E.decls init).next c (.got p)) { f.set p v with buf := buf } l')
    (hstruct : ∀ T, t = .struct T → ∀ c f l o, P c f l → f.get p = some (.obj o) →
      ∃ fields, x.get l = some (.obj T fields) ∧ fields "read" = .nil ∧
        EqualBut E.decls (staleIn E.decls init T (.obj o)) T o fields ∧
        ∀ o' fields' buf, EqualBut E.decls ∅ T o' fields' →
          ∃ l', x.set { l with buf := buf } (.obj T fields') = some l' ∧
            Q ((backends E.decls init).next c (.got p)) { f.set p (.obj o') with buf := buf } l') :
    (backends E.decls init).Simulates P Q R (E.readShown p t)
      ((E.luaEnv init literal call).simples (luaReadValue value x)) := by
  have hget (t' : CxxType) (ht' : ∀ v, Equal E.decls t v (.scalar v)) :
      (backends E.decls init).Simulates P Q R (E.getShown p t')
        ((E.luaEnv init literal call).get x t') :=
    simulates_get fun c f l h =>
      ⟨(hP c f l h).1, (hP c f l h).2.1, fun v buf => hscalar c f l v buf h (ht' v)⟩
  cases hm with
  | base t =>
    show (backends E.decls init).Simulates P Q R _
      ((LuaEnv.checkSize t.size).andThen (((E.luaEnv init literal call).get x (.base t)).andThen .skip))
    rw [Traced.andThen_skip]
    exact (simulates_checkSize t (fun c f l h => ⟨(hP c f l h).1, (hP c f l h).2.1⟩)
      (hPR fun T hT => by cases hT)).andThen
      (hget _ fun v => .base t v)
  | string =>
    show (backends E.decls init).Simulates P Q R _
      (((E.luaEnv init literal call).get x .string).andThen .skip)
    rw [Traced.andThen_skip]
    exact hget _ .string
  | struct T =>
    show (backends E.decls init).Simulates P Q R _
      (((E.luaEnv init literal call).callOn true x).andThen .skip)
    rw [Traced.andThen_skip]
    exact simulates_call hcalls (fun c f l h =>
      ⟨(hP c f l h).1, (hP c f l h).2.1, (hP c f l h).2.2, fun o ho => hstruct T rfl c f l o h ho⟩) hQR

/-- The parser knows that a struct is one. -/
theorem Matches.value_struct {T : String} (h : Matches value (.struct T)) : value = .STRUCT := by
  cases h
  rfl

/-- After `self.y = type:new()`. -/
def Renewed (P : Relation) (y : String) (w : LuaVal) : Relation := fun c f l =>
  ∃ l₀, P c f l₀ ∧ l = { l₀ with self := Function.update l₀.self y w }

/-- Two lists of simple statements, one after the other. -/
theorem LuaEnv.simples_append (E : LuaEnv) (a b : List LuaSimple) :
    E.simples (a ++ b) = (E.simples a).andThen (E.simples b) := by
  induction a with
  | nil => rfl
  | cons s a ih => rw [List.cons_append, simples, simples, ih, Traced.andThen_assoc]

/-- A member is read. -/
theorem simulates_readMember (hm : Matches tinfo.value t) (hfits : LuaFits E.decls)
    (hcalls : CallsAgree E init call) (ht : memberType E.decls S y = some t)
    (hname : typeNamed E.decls tinfo.name = some t)
    (hfree : tinfo.value = .STRUCT → ∀ loc ls, LuaLocals isRead seen loc ls →
      ls.lookup tinfo.name = none) :
    (backends E.decls init).Simulates (Between E.decls isRead D₀ known S seen)
      (Between E.decls isRead D₀ known S seen) (Ended E.decls D₀ known S)
      (E.readShown (.mem y) t)
      ((E.luaEnv init literal call).simples
        (luaNew tinfo (.member y) ++ luaReadValue tinfo.value (.member y))) := by
  by_cases hstruct : tinfo.value = .STRUCT
  · rw [hstruct] at hm
    obtain ⟨T, rfl⟩ : ∃ T, t = .struct T := by cases hm; exact ⟨_, rfl⟩
    -- the new object takes the place of the member, and is read into
    have hnew : (backends E.decls init).Simulates (Between E.decls isRead D₀ known S seen)
        (Renewed (Between E.decls isRead D₀ known S seen) y (.obj T (newFields E.decls init T)))
        (Ended E.decls D₀ known S) Traced.skip
        ((E.luaEnv init literal call).simples (luaNew tinfo (.member y))) := by
      rw [luaNew, if_pos hstruct]
      show (backends E.decls init).Simulates _ _ _ _ ((LuaEnv.step _).andThen .skip)
      rw [Traced.andThen_skip]
      apply simulates_lua
      intro c f l h
      have hobj :=
        hfits.new (E.luaEnv init literal call) rfl (hfree hstruct _ _ h.locals) h.globals hname
      rw [hobj, Option.bind_some]
      exact ⟨_, h.set_member y _ l.buf, l, h, rfl⟩
    have hread : (backends E.decls init).Simulates
        (Renewed (Between E.decls isRead D₀ known S seen) y (.obj T (newFields E.decls init T)))
        (Between E.decls isRead D₀ known S seen) (Ended E.decls D₀ known S)
        (E.readShown (.mem y) (.struct T))
        ((E.luaEnv init literal call).simples (luaReadValue .STRUCT (.member y))) := by
      apply simulates_readValue hm hcalls
      · rintro c f l ⟨l₀, h, rfl⟩
        exact ⟨lookup_eq h.locals.lookup_buffer, h.buf, h.globals⟩
      · exact fun hno => absurd rfl (hno T)
      · exact fun c f l h => h.toEnded
      · intro c f l v buf h hv
        cases hv
      · rintro T' hT c f l o ⟨l₀, h, rfl⟩ ho
        cases hT
        have hequal : EqualBut E.decls (staleIn E.decls init T (.obj o)) T o
            (newFields E.decls init T) := equalBut_new init
        refine ⟨newFields E.decls init T, ?_, hfits.noField hequal true, hequal, ?_⟩
        · simp only [LuaVar.get, LuaFrame.lookup, h.locals.lookup_self, Option.getD_some,
            Function.update_self]
        · intro o' fields' buf hfields
          refine ⟨_, ?_, h.update ht (equal_obj.mpr hfields) init buf⟩
          simp only [LuaVar.set, LuaFrame.lookup, h.locals.lookup_self, Option.getD_some,
            Function.update_idem]
    rw [LuaEnv.simples_append, hstruct]
    exact hnew.andThen hread
  · rw [luaNew, if_neg hstruct, List.nil_append]
    apply simulates_readValue hm hcalls
    · exact fun c f l h => ⟨lookup_eq h.locals.lookup_buffer, h.buf, h.globals⟩
    · exact fun _ c f l h => h.toEnded
    · exact fun c f l h => h.toEnded
    · exact fun c f l v buf h hv => ⟨_, h.set_member y _ buf, h.update ht hv init buf⟩
    · rintro T rfl
      exact absurd hm.value_struct hstruct

/-- A value is written. -/
theorem simulates_writeValue {P R : Relation} {p : Place} {x : LuaVar} (hm : Matches value t)
    (hfits : LuaFits E.decls) (hcalls : CallsAgree E init call)
    (hP : ∀ c f l, P c f l → l.lookup "buffer" = .buffer ∧ l.buf = f.buf ∧
      l.globals = luaGlobals E.decls)
    (hPR : ∀ c f l, P c f l → R c f l)
    (hequal : ∀ c f l v, P c f l → f.get p = some v → ∃ w, x.get l = some w ∧ Equal E.decls t v w)
    (hbuf : ∀ c f l buf, P c f l → P c { f with buf := buf } { l with buf := buf })
    (hset : ∀ c f l v v' w' buf, P c f l → f.get p = some v → Equal E.decls t v' w' →
      ∃ l', x.set { l with buf := buf } w' = some l' ∧ P c { f.set p v' with buf := buf } l') :
    (backends E.decls init).Simulates P P R (E.writeShown p t)
      ((E.luaEnv init literal call).simple (luaWriteValue value x)) := by
  have hput (t' : CxxType) (hscalar : ∀ v w, Equal E.decls t v w → w = .scalar v) :
      (backends E.decls init).Simulates P P R (E.putShown p t')
        ((E.luaEnv init literal call).put x t') := by
    apply simulates_put
    intro c f l h
    refine ⟨(hP c f l h).1, (hP c f l h).2.1, fun v hv => ?_, fun buf => hbuf c f l buf h⟩
    obtain ⟨w, hw, heq⟩ := hequal c f l v h hv
    rw [hw, hscalar v w heq]
  cases hm with
  | base t =>
    apply hput
    intro v w h
    cases h
    rfl
  | string =>
    apply hput
    intro v w h
    cases h
    rfl
  | struct T =>
    apply simulates_call hcalls _ hPR
    intro c f l h
    refine ⟨(hP c f l h).1, (hP c f l h).2.1, (hP c f l h).2.2, fun o ho => ?_⟩
    obtain ⟨w, hw, heq⟩ := hequal c f l _ h ho
    cases heq with
    | obj hmembers hothers =>
      have hfields := equal_obj.mp (.obj hmembers hothers)
      exact ⟨_, hw, hfits.noField hfields false, hfields, fun o' fields' buf hequal' =>
        hset c f l _ _ _ buf h ho (equal_obj.mpr hequal')⟩

/-- A member is written. -/
theorem simulates_writeMember (hm : Matches value t) (hfits : LuaFits E.decls)
    (hcalls : CallsAgree E init call) (ht : memberType E.decls S y = some t) :
    (backends E.decls init).Simulates (Between E.decls false ∅ known S seen)
      (Between E.decls false ∅ known S seen) (Ended E.decls ∅ known S)
      (E.writeShown (.mem y) t)
      ((E.luaEnv init literal call).simple (luaWriteValue value (.member y))) := by
  have hmember : ∀ c f l, Between E.decls false ∅ known S seen c f l →
      Equal E.decls t (f.self y) (l.self y) := by
    intro c f l h
    obtain ⟨D, -, hequal, hsub⟩ := h.stale
    exact hequal.members y t ht fun hy => Set.notMem_empty y (hsub hy)
  apply simulates_writeValue hm hfits hcalls
  · exact fun c f l h => ⟨lookup_eq h.locals.lookup_buffer, h.buf, h.globals⟩
  · exact fun c f l h => h.toEnded
  · intro c f l v h hv
    cases hv
    exact ⟨_, h.get_member y, hmember c f l h⟩
  · exact fun c f l buf h => ⟨⟨h.stale, h.globals, rfl⟩, h.locals⟩
  · intro c f l v v' w' buf h hv hequal'
    refine ⟨_, h.set_member y w' buf, ?_⟩
    have hupdate := h.update ht hequal' init buf
    obtain ⟨D, rfl, -, hsub⟩ := h.stale
    obtain rfl := Set.subset_empty_iff.mp hsub
    have hnext : (backends E.decls init).next (∅ :: known) (.got (.mem y)) = ∅ :: known := by
      show (∅ \ {y}) :: known = _
      rw [Set.empty_sdiff]
    rwa [hnext] at hupdate

end Members

end Athena.Idl
