import Athena.Spec.IdlObjects

/-!
# What the code of a list does

The actions of `readListAct` and `writeListAct` on an object: the bytes of `encodeVars` are
appended, and taken off again into `mergeVars`.  What is nested is read and written by
others (`ReadsIn`, `WritesIn`).

Between two variables the lengths so far are in their slots (`LengthsOk`), as a member with
the name of a length is written and read there.

## Key results

- `writeListAct_run`, `readListAct_run`
-/

namespace Athena.Idl

/-! ## Frames and buffers -/

namespace ByteBuf

/-- Nothing is appended. -/
@[simp] theorem append_nil (buf : ByteBuf) : buf.append [] = buf := by
  simp [append]

/-- Two appends are one. -/
theorem append_append (buf : ByteBuf) (a b : List UInt8) :
    (buf.append a).append b = buf.append (a ++ b) := by
  simp [append]

/-- Bytes at the front are taken off. -/
theorem take_append (r : Nat) (bytes tail : List UInt8) :
    ByteBuf.take { rpos := r, rest := bytes ++ tail } tail =
      { rpos := r + bytes.length, rest := tail } := by
  simp [take]

end ByteBuf

/-- Writing what is there. -/
theorem Frame.set_get {f : Frame} {p : Place} {v : Val} (h : f.get p = some v) : f.set p v = f := by
  induction p generalizing v with
  | loc slot =>
    obtain rfl := Option.some.inj h
    rw [Frame.set, Function.update_eq_self]
  | mem x =>
    obtain rfl := Option.some.inj h
    rw [Frame.set, Function.update_eq_self]
  | elem q slot ih =>
    rw [Frame.get] at h
    rw [Frame.set]
    split at h
    · next vs k hvec hk =>
      split at h
      · obtain ⟨hlt, hv⟩ := List.getElem?_eq_some_iff.mp h
        have hset : vs.set k.toNat v = vs := by
          rw [← hv]
          exact List.set_getElem_self hlt
        simp only [hset]
        exact ih hvec
      · cases h
    · cases h

/-! ## Writing -/

section Write

variable {E : Env} {value : TypeValue} {t : CxxType}

/-- A value. -/
theorem writeAct_run (obj : String → Val → List UInt8) {f : Frame} {p : Place} {v : Val}
    (hv : f.get p = some v) (hcompat : Compat value t) (hcall : ∀ S, t = .struct S → ∀ buf : ByteBuf,
      E.call false S v buf = some (true, v, buf.append (obj S v))) :
    E.writeAct value p t f =
      some (true, { f with buf := f.buf.append (encodeIn E.wire obj t v) }) := by
  cases hcompat with
  | base t t' => simp [Env.writeAct, Env.put, hv, encodeIn]
  | base_string t => simp [Env.writeAct, Env.put, hv, encodeIn]
  | string => simp [Env.writeAct, Env.put, hv, encodeIn]
  | struct S => simp [Env.writeAct, Env.callOn, hv, hcall S rfl, Frame.set_get hv, encodeIn]

/-- The loop over a vector, from the element `k` on. -/
theorem writeLoop_run (obj : String → Val → List UInt8) {x : String} {vs : List Val} (i : Nat)
    (hcompat : Compat value t)
    (hcall : ∀ v ∈ vs, ∀ S, t = .struct S → ∀ buf : ByteBuf,
      E.call false S v buf = some (true, v, buf.append (obj S v)))
    (n k : Nat) (f : Frame) (hx : f.self x = .vec vs) (hk : k + n = vs.length) :
    ∃ loc, (E.writeAct value (.elem (.mem x) i) t).loopFrom i n k f =
      some (true, { f with
        loc := loc, buf := f.buf.append ((vs.drop k).flatMap (encodeIn E.wire obj t)) }) ∧
      ∀ slot, slot ≠ i → loc slot = f.loc slot := by
  induction n generalizing k f with
  | zero =>
    have hdrop : vs.drop k = [] := List.drop_eq_nil_of_le (by omega)
    refine ⟨f.loc, ?_, fun _ _ => rfl⟩
    rw [hdrop, List.flatMap_nil, ByteBuf.append_nil]
    rfl
  | succ n ih =>
    have hlt : k < vs.length := by omega
    have hget : (f.set (.loc i) (.num k)).get (.elem (.mem x) i) = some vs[k] := by
      simp [Frame.get, Frame.set, hx, hlt]
    have hwrite := writeAct_run obj hget hcompat (hcall vs[k] (List.getElem_mem hlt))
    obtain ⟨loc, hrest, hloc⟩ := ih (k + 1) { f.set (.loc i) (.num k) with
      buf := f.buf.append (encodeIn E.wire obj t vs[k]) } hx (by omega)
    refine ⟨loc, ?_, fun slot hne => ?_⟩
    · rw [List.drop_eq_getElem_cons hlt, List.flatMap_cons, ← ByteBuf.append_append]
      exact (Action.andThen_run hwrite _).trans hrest
    · rw [hloc slot hne]
      exact Function.update_of_ne hne _ _

end Write

/-! ## The lengths -/

/-- The lengths in scope are in their slots. -/
def LengthsOk (sizes : Sizes) (loc : Nat → Val) : Prop :=
  ∀ x n, sizes.lookup x = some n → n < 2 ^ 31 ∧ loc (slotOf (sizes.map Prod.fst) x) = .num n

/-- The slots are those of the lengths. -/
theorem slotOf_le (seen : List String) (x : String) : slotOf seen x ≤ seen.length := by
  induction seen with
  | nil => exact Nat.le_refl 0
  | cons y seen ih =>
    rw [slotOf, List.length_cons]
    split
    · omega
    · omega

/-- A name is listed if it is found. -/
theorem mem_map_fst_iff {β : Type} {l : List (String × β)} {x : String} :
    x ∈ l.map Prod.fst ↔ ∃ b, l.lookup x = some b := by
  induction l with
  | nil => simp
  | cons p l ih =>
    rw [List.map_cons, List.mem_cons, ih, List.lookup_cons]
    by_cases heq : x = p.1
    · simp [heq]
    · simp [heq, beq_eq_false_iff_ne.mpr heq]

/-- What is not listed is not found. -/
theorem lookup_eq_none_of_notMem {β : Type} {l : List (String × β)} {x : String}
    (h : x ∉ l.map Prod.fst) : l.lookup x = none := by
  cases hlookup : l.lookup x with
  | none => rfl
  | some b => exact absurd (mem_map_fst_iff.mpr ⟨b, hlookup⟩) h

/-- No length is in scope at first. -/
theorem LengthsOk.nil (loc : Nat → Val) : LengthsOk [] loc := fun _ _ h => by cases h

/-- What is in other slots does not matter. -/
theorem LengthsOk.frame {sizes : Sizes} {loc loc' : Nat → Val} (h : LengthsOk sizes loc)
    (hloc : ∀ slot ≤ sizes.length, loc' slot = loc slot) : LengthsOk sizes loc' := by
  intro x n hx
  have hslot := slotOf_le (sizes.map Prod.fst) x
  rw [List.length_map] at hslot
  rw [hloc _ hslot]
  exact h x n hx

/-- Another length. -/
theorem LengthsOk.cons {sizes : Sizes} {loc : Nat → Val} {y : String} {n : Nat}
    (h : LengthsOk sizes loc) (hn : n < 2 ^ 31) (hloc : loc (sizes.length + 1) = .num n) :
    LengthsOk ((y, n) :: sizes) loc := by
  intro x m hx
  rw [List.map_cons, slotOf, List.length_map]
  rw [List.lookup_cons] at hx
  by_cases heq : x = y
  · rw [heq, beq_self_eq_true] at hx
    obtain rfl := Option.some.inj hx
    rw [if_pos heq]
    exact ⟨hn, hloc⟩
  · rw [beq_eq_false_iff_ne.mpr heq] at hx
    rw [if_neg heq]
    exact h x m hx

/-- The names of the lengths after a variable. -/
theorem map_fst_sizesAfter (sizes : Sizes) (v : TypeInfo × String) (o : String → Val) :
    (sizesAfter sizes v o).map Prod.fst = seenAfter (sizes.map Prod.fst) v.1 v.2 := by
  rw [sizesAfter, seenAfter]
  split <;> rfl

section Write

variable {E : Env} {obj : String → Val → List UInt8} {isObj : String → Val → Prop} {S : String}
  {v : TypeInfo × String} {t : CxxType} {sizes : Sizes}

/-- What writes and reads a nested object. -/
def WritesIn (E : Env) (isObj : String → Val → Prop) (obj : String → Val → List UInt8)
    (t : CxxType) : Prop :=
  ∀ T, t = .struct T → ∀ w, isObj T w → ∀ buf : ByteBuf,
    E.call false T w buf = some (true, w, buf.append (obj T w))

/-- A value of a vector type is a vector. -/
theorem hasType_of_vector {vs : Val} (h : HasTypeIn isObj (.vector t) vs) :
    ∃ ws, vs = .vec ws ∧ ws.length < 2 ^ 31 ∧ ∀ w ∈ ws, HasTypeIn isObj t w := by
  cases vs with
  | vec ws => exact ⟨ws, rfl, h⟩
  | num x => exact absurd h (by simp [HasTypeIn])
  | str s => exact absurd h (by simp [HasTypeIn])
  | obj o => exact absurd h (by simp [HasTypeIn])

/-- A variable. -/
theorem writeVarAct_run {f : Frame} (hv : VarTyped E S v.1 v.2 t)
    (hok : NameOk E.decls S (sizes.map Prod.fst) v.1 v.2) (hsizes : LengthsOk sizes f.loc)
    (htype : HasTypeIn isObj (v.1.cxxType t) (f.self v.2)) (hcall : WritesIn E isObj obj t) :
    ∃ loc, E.writeVarAct (sizes.map Prod.fst) v.1 v.2 t f =
        some (true, { f with
          loc := loc, buf := f.buf.append (encodeVar E.decls E.wire obj sizes v f.self) }) ∧
      LengthsOk (sizesAfter sizes v f.self) loc := by
  have hvar : varType E.decls v.1 = v.1.cxxType t := by rw [varType, Env.elemType_eq hv]
  rw [encodeVar, hvar]
  cases hvector : v.1.vector with
  | false =>
    have hcxx : v.1.cxxType t = t := by simp [TypeInfo.cxxType, hvector]
    have hstruct : v.1.value = .STRUCT → v.2 ∉ sizes.map Prod.fst := by
      have := hok.2
      rwa [if_neg (by simp [hvector])] at this
    have hcompat := Env.compat_typeOf hv.well.value hstruct
    rw [hcxx] at htype ⊢
    refine ⟨f.loc, ?_, by simpa [sizesAfter, hvector] using hsizes⟩
    rw [Env.writeVarAct, if_neg (by simp [hvector])]
    cases hlookup : sizes.lookup v.2 with
    | some n =>
      have hmem : v.2 ∈ sizes.map Prod.fst := mem_map_fst_iff.mpr ⟨n, hlookup⟩
      have hget : f.get (placeOf (sizes.map Prod.fst) v.2) = some (.num n) := by
        rw [placeOf, if_pos hmem, Frame.get, (hsizes _ _ hlookup).2]
      rw [typeOf, if_pos hmem] at hcompat ⊢
      exact writeAct_run obj hget hcompat fun _ hT => by cases hT
    | none =>
      have hmem : v.2 ∉ sizes.map Prod.fst := by
        rw [mem_map_fst_iff, hlookup]
        simp
      have hget : f.get (placeOf (sizes.map Prod.fst) v.2) = some (f.self v.2) := by
        rw [placeOf, if_neg hmem, Frame.get]
      rw [typeOf, if_neg hmem] at hcompat ⊢
      apply writeAct_run obj hget hcompat
      rintro T rfl buf
      exact hcall T rfl _ htype buf
  | true =>
    have hcxx : v.1.cxxType t = .vector t := by simp [TypeInfo.cxxType, hvector]
    rw [hcxx] at htype ⊢
    obtain ⟨vs, hvs, hlength, hall⟩ := hasType_of_vector htype
    have hname := hok.2
    rw [if_pos hvector] at hname
    have hlookup : sizes.lookup v.2 = none := lookup_eq_none_of_notMem hname.2.1
    have hmod : Int.bmod vs.length (2 ^ 32) = vs.length := Int.bmod_eq_of_le (by omega) (by omega)
    -- the length is declared, and written
    have hdecl : Action.declSize (sizes.length + 1) (.mem v.2) f =
        some (true, f.set (.loc (sizes.length + 1)) (.num vs.length)) := by
      simp only [Action.declSize, Frame.get, hvs, hmod]
    have hbound : (f.set (.loc (sizes.length + 1)) (.num vs.length)).loc (sizes.length + 1) =
        .num vs.length := Function.update_self _ _ _
    have hput : E.writeAct (.base .INT32) (.loc (sizes.length + 1)) (.base .INT32)
        (f.set (.loc (sizes.length + 1)) (.num vs.length)) = _ :=
      writeAct_run obj (congrArg some hbound) (.base _ _) fun _ hT => by cases hT
    -- the elements are written
    obtain ⟨loc, hloop, hloc⟩ := writeLoop_run obj (sizes.length + 2)
      hv.well.value.compat
      (fun w hw T hT buf => hcall T hT w (by have := hall w hw; rwa [hT] at this) buf)
      vs.length 0 { f.set (.loc (sizes.length + 1)) (.num vs.length) with
        buf := f.buf.append (encodeIn E.wire obj (.base .INT32) (.num vs.length)) } hvs (by omega)
    have hslots : ∀ slot, slot ≠ sizes.length + 1 → slot ≠ sizes.length + 2 →
        loc slot = f.loc slot := by
      intro slot hne hne'
      rw [hloc slot hne']
      exact Function.update_of_ne hne _ _
    refine ⟨loc, ?_, ?_⟩
    · rw [Env.writeVarAct, if_pos hvector, List.length_map, Action.andThen_run hdecl,
        hlookup]
      refine (Action.andThen_run hput _).trans ?_
      rw [Action.loop]
      simp only [Frame.get, hbound, Int.toNat_natCast]
      refine hloop.trans ?_
      rw [hvs, List.drop_zero, encodeIn, ByteBuf.append_append]
      rfl
    · rw [sizesAfter, if_pos hvector, hvs]
      apply LengthsOk.cons
      · apply hsizes.frame
        intro slot hle
        exact hslots slot (by omega) (by omega)
      · exact hlength
      · rw [hloc _ (by omega)]
        exact hbound

/-- A list. -/
theorem writeListAct_run (isObj : String → Val → Prop) (obj : String → Val → List UInt8)
    (sizes : Sizes) {vars : List (TypeInfo × String)} {f : Frame}
    (h : ListTyped E S (sizes.map Prod.fst) vars)
    (hok : NamesOk E.decls S (sizes.map Prod.fst) vars) (hsizes : LengthsOk sizes f.loc)
    (htypes : ∀ v ∈ vars, HasTypeIn isObj (varType E.decls v.1) (f.self v.2))
    (hcalls : ∀ v ∈ vars, WritesIn E isObj obj (elemType E.decls v.1)) :
    ∃ loc, E.writeListAct (sizes.map Prod.fst) vars f =
      some (true, { f with
        loc := loc, buf := f.buf.append (encodeVars E.decls E.wire obj sizes vars f.self) }) := by
  induction vars generalizing sizes f with
  | nil => exact ⟨f.loc, by rw [encodeVars, ByteBuf.append_nil]; rfl⟩
  | cons v vars ih =>
    -- the first variable appends its bytes, and no member changes
    obtain ⟨t, hv⟩ := h.typed v List.mem_cons_self
    have helem := Env.elemType_eq hv
    have htype := htypes v List.mem_cons_self
    have hcall := hcalls v List.mem_cons_self
    rw [varType, helem] at htype
    rw [helem] at hcall
    obtain ⟨loc, hact, hsizes'⟩ := writeVarAct_run hv hok.1 hsizes htype hcall
    have htail := h.tail
    have hoks := hok.2
    rw [← map_fst_sizesAfter sizes v f.self] at htail hoks
    obtain ⟨loc', hrest⟩ := ih (sizesAfter sizes v _)
      (f := { f with
        loc := loc, buf := f.buf.append (encodeVar E.decls E.wire obj sizes v f.self) })
      htail hoks hsizes' (fun w hw => htypes w (List.mem_cons_of_mem v hw))
      (fun w hw => hcalls w (List.mem_cons_of_mem v hw))
    refine ⟨loc', ?_⟩
    rw [Env.writeListAct, helem, Action.andThen_run hact, ← map_fst_sizesAfter sizes v f.self,
      encodeVars, ← ByteBuf.append_append]
    exact hrest

end Write

/-! ## Reading -/

section Read

variable {E : Env} {obj : String → Val → List UInt8} {mobj : String → Val → Val → Val}
  {isObj shaped : String → Val → Prop} {S : String} {v : TypeInfo × String} {t : CxxType}
  {sizes : Sizes} {value : TypeValue}

/-- What reads a nested object. -/
def ReadsIn (E : Env) (isObj shaped : String → Val → Prop) (obj : String → Val → List UInt8)
    (mobj : String → Val → Val → Val) (t : CxxType) : Prop :=
  ∀ T, t = .struct T → ∀ v w, isObj T v → shaped T w → ∀ r tail,
    E.call true T w { rpos := r, rest := obj T v ++ tail } =
      some (true, mobj T v w, { rpos := r + (obj T v).length, rest := tail })

/-- A value. -/
theorem readAct_run (hwire : E.wire.Lawful) {f : Frame} {p : Place} {v w : Val}
    (hw : f.get p = some w) (hcompat : Compat value t) (hv : HasTypeIn isObj t v)
    (hshaped : ShapedIn shaped t w) (hcall : ReadsIn E isObj shaped obj mobj t) {r : Nat}
    {tail : List UInt8} (hbuf : f.buf = { rpos := r, rest := encodeIn E.wire obj t v ++ tail }) :
    E.readAct value p t f = some (true, { f.set p (mergeIn mobj E.fresh t v w) with
      buf := { rpos := r + (encodeIn E.wire obj t v).length, rest := tail } }) := by
  -- the bytes are there, so the check passes and what was put is read back
  cases hcompat with
  | base t t' =>
    have hscalar : Scalar (.base t') v := hv
    have hsize : t'.size + f.buf.rpos ≤ f.buf.wpos := by
      have := hwire.size t' v hscalar
      rw [hbuf, ByteBuf.wpos, encodeIn_base, List.length_append, this]
      omega
    have hget := hwire.get_put (.base t') v tail hscalar
    have hcheck : Action.checkSize t' f = some (true, f) := by
      rw [Action.checkSize, decide_eq_true hsize]
    rw [Env.readAct, Action.andThen_run hcheck, Env.get, hbuf, encodeIn_base, hget,
      ByteBuf.take_append]
    rfl
  | base_string t' =>
    have hget := hwire.get_put (.base t') v tail hv
    simp only [Env.readAct, Env.get, hbuf, encodeIn_base, hget, ByteBuf.take_append]
    rfl
  | string =>
    have hget := hwire.get_put .string v tail hv
    simp only [Env.readAct, Env.get, hbuf, encodeIn_string, hget, ByteBuf.take_append]
    rfl
  -- the method of the object is the call
  | struct T =>
    have hcalled := hcall T rfl v w hv hshaped r tail
    rw [Env.readAct, Env.callOn, hw, hbuf]
    simp only [encodeIn, hcalled, mergeIn]

/-- The body of the loop over a vector: a new object is read and pushed. -/
theorem readBody_run (hwire : E.wire.Lawful) (temp : Nat) {f : Frame} {x : String} {w : Val}
    {ws : List Val} (hx : f.self x = .vec ws) (hcompat : Compat value t)
    (hw : HasTypeIn isObj t w) (hfresh : ShapedIn shaped t (E.fresh t))
    (hcall : ReadsIn E isObj shaped obj mobj t) {r : Nat} {tail : List UInt8}
    (hbuf : f.buf = { rpos := r, rest := encodeIn E.wire obj t w ++ tail }) :
    (E.decl temp t).andThen ((E.readAct value (.loc temp) t).andThen
        (.pushBack (.mem x) (.loc temp))) f =
      some (true,
        { self := Function.update f.self x (.vec (ws ++ [mergeIn mobj E.fresh t w (E.fresh t)]))
          loc := Function.update f.loc temp (mergeIn mobj E.fresh t w (E.fresh t))
          buf := { rpos := r + (encodeIn E.wire obj t w).length, rest := tail } }) := by
  have hdecl : E.decl temp t f = some (true, f.set (.loc temp) (E.fresh t)) := rfl
  have htemp : (f.set (.loc temp) (E.fresh t)).get (.loc temp) = some (E.fresh t) :=
    congrArg some (Function.update_self temp _ _)
  have hread := readAct_run hwire htemp hcompat hw hfresh hcall hbuf
  rw [Action.andThen_run hdecl, Action.andThen_run hread]
  simp [Action.pushBack, Frame.get, Frame.set, hx, Function.update_idem]

/-- The loop over a vector, from the element `k` on. -/
theorem readLoop_run (i temp : Nat) (hwire : E.wire.Lawful) {x : String} {vs : List Val}
    (hcompat : Compat value t) (hvs : ∀ v ∈ vs, HasTypeIn isObj t v)
    (hfresh : ∀ v ∈ vs, ShapedIn shaped t (E.fresh t)) (hcall : ReadsIn E isObj shaped obj mobj t)
    (n k : Nat) (f : Frame) {ws : List Val} {r : Nat} {tail : List UInt8}
    (hx : f.self x = .vec ws) (hk : k + n = vs.length)
    (hbuf : f.buf = { rpos := r, rest := (vs.drop k).flatMap (encodeIn E.wire obj t) ++ tail }) :
    ∃ loc, ((E.decl temp t).andThen ((E.readAct value (.loc temp) t).andThen
        (.pushBack (.mem x) (.loc temp)))).loopFrom i n k f =
      some (true,
        { self := Function.update f.self x
            (.vec (ws ++ (vs.drop k).map fun v => mergeIn mobj E.fresh t v (E.fresh t)))
          loc := loc
          buf := { rpos := r + ((vs.drop k).flatMap (encodeIn E.wire obj t)).length
                   rest := tail } }) ∧
      ∀ slot, slot ≠ i → slot ≠ temp → loc slot = f.loc slot := by
  induction n generalizing k f ws r with
  | zero =>
    have hdrop : vs.drop k = [] := List.drop_eq_nil_of_le (by omega)
    refine ⟨f.loc, ?_, fun _ _ _ => rfl⟩
    rw [hdrop, List.flatMap_nil, List.nil_append] at hbuf
    rw [hdrop, List.map_nil, List.append_nil, ← hx, Function.update_eq_self, List.flatMap_nil,
      List.length_nil, Nat.add_zero, ← hbuf]
    rfl
  | succ n ih =>
    -- one element is read into `temp` and pushed, the rest is one shorter
    have hlt : k < vs.length := by omega
    have hmem : vs[k] ∈ vs := List.getElem_mem hlt
    rw [List.drop_eq_getElem_cons hlt, List.flatMap_cons, List.append_assoc] at hbuf
    have hbody := readBody_run (f := f.set (.loc i) (.num k)) hwire temp hx hcompat
      (hvs _ hmem) (hfresh _ hmem) hcall hbuf
    obtain ⟨loc, hrest, hloc⟩ := ih (k + 1)
      { self := Function.update f.self x (.vec (ws ++ [mergeIn mobj E.fresh t vs[k] (E.fresh t)]))
        loc := Function.update (Function.update f.loc i (.num k)) temp
          (mergeIn mobj E.fresh t vs[k] (E.fresh t))
        buf := { rpos := r + (encodeIn E.wire obj t vs[k]).length
                 rest := (vs.drop (k + 1)).flatMap (encodeIn E.wire obj t) ++ tail } }
      (Function.update_self x _ f.self) (by omega) rfl
    refine ⟨loc, ?_, fun slot hne hne' => ?_⟩
    · rw [Action.loopFrom]
      refine (Action.andThen_run hbody _).trans ?_
      refine hrest.trans ?_
      rw [List.drop_eq_getElem_cons hlt]
      simp only [Function.update_idem, List.map_cons, List.flatMap_cons, List.append_assoc,
        List.singleton_append, List.length_append, Nat.add_assoc]
    · rw [hloc slot hne hne']
      exact (Function.update_of_ne hne' _ _).trans (Function.update_of_ne hne _ _)

/-- A fresh object can be read into. -/
def FreshIn (E : Env) (isObj shaped : String → Val → Prop) (t : CxxType) : Prop :=
  ∀ T, t = .struct T → ∀ w, isObj T w → shaped T (E.fresh t)

/-- A fresh value has the shape of its type. -/
theorem FreshIn.shapedIn (h : FreshIn E isObj shaped t) (hvalue : Matches value t) {w : Val}
    (hw : HasTypeIn isObj t w) : ShapedIn shaped t (E.fresh t) := by
  cases hvalue with
  | base t => simp [ShapedIn]
  | string => simp [ShapedIn]
  | struct T => exact h T rfl w hw

/-- A variable. -/
theorem readVarAct_run (hwire : E.wire.Lawful) {f : Frame} (hv : VarTyped E S v.1 v.2 t)
    (hok : NameOk E.decls S (sizes.map Prod.fst) v.1 v.2) (hsizes : LengthsOk sizes f.loc)
    {o : String → Val} (htype : HasTypeIn isObj (v.1.cxxType t) (o v.2))
    (hshaped : ShapedIn shaped (v.1.cxxType t) (f.self v.2))
    (hfresh : FreshIn E isObj shaped t) (hcall : ReadsIn E isObj shaped obj mobj t) {r : Nat}
    {tail : List UInt8}
    (hbuf : f.buf = { rpos := r, rest := encodeVar E.decls E.wire obj sizes v o ++ tail }) :
    ∃ loc, E.readVarAct (sizes.map Prod.fst) v.1 v.2 t f =
        some (true,
          { self := mergeVar E.decls mobj E.fresh sizes v o f.self
            loc := loc
            buf := { rpos := r + (encodeVar E.decls E.wire obj sizes v o).length, rest := tail } }) ∧
      LengthsOk (sizesAfter sizes v o) loc := by
  have hvar : varType E.decls v.1 = v.1.cxxType t := by rw [varType, Env.elemType_eq hv]
  rw [encodeVar, hvar] at hbuf ⊢
  rw [mergeVar, hvar]
  cases hvector : v.1.vector with
  | false =>
    have hcxx : v.1.cxxType t = t := by simp [TypeInfo.cxxType, hvector]
    have hstruct : v.1.value = .STRUCT → v.2 ∉ sizes.map Prod.fst := by
      have := hok.2
      rwa [if_neg (by simp [hvector])] at this
    have hcompat := Env.compat_typeOf hv.well.value hstruct
    have hafter : sizesAfter sizes v o = sizes := by simp [sizesAfter, hvector]
    rw [hcxx] at htype hshaped hbuf ⊢
    refine ⟨f.loc, ?_, by rwa [hafter]⟩
    rw [Env.readVarAct, if_neg (by simp [hvector])]
    cases hlookup : sizes.lookup v.2 with
    | some n =>
      have hmem : v.2 ∈ sizes.map Prod.fst := mem_map_fst_iff.mpr ⟨n, hlookup⟩
      obtain ⟨hn, hloc⟩ := hsizes _ _ hlookup
      have hget : f.get (placeOf (sizes.map Prod.fst) v.2) = some (.num n) := by
        rw [placeOf, if_pos hmem, Frame.get, hloc]
      have hrange : HasTypeIn isObj (.base .INT32) (.num n) := by
        show -2 ^ 31 ≤ (n : Int) ∧ (n : Int) < 2 ^ 31
        omega
      have hno : ReadsIn E isObj shaped obj mobj (.base .INT32) := fun _ hT => by cases hT
      rw [typeOf, if_pos hmem] at hcompat ⊢
      rw [hlookup] at hbuf
      -- the length is read into itself
      rw [readAct_run hwire hget hcompat hrange trivial hno (hbuf.trans (by rw [encodeIn_base])),
        mergeIn_base, Frame.set_get hget, encodeIn_base]
      rfl
    | none =>
      have hmem : v.2 ∉ sizes.map Prod.fst := by
        rw [mem_map_fst_iff, hlookup]
        simp
      have hget : f.get (placeOf (sizes.map Prod.fst) v.2) = some (f.self v.2) := by
        rw [placeOf, if_neg hmem, Frame.get]
      rw [typeOf, if_neg hmem] at hcompat ⊢
      rw [hlookup] at hbuf
      rw [readAct_run hwire hget hcompat htype hshaped hcall hbuf, placeOf, if_neg hmem]
      rfl
  | true =>
    have hcxx : v.1.cxxType t = .vector t := by simp [TypeInfo.cxxType, hvector]
    rw [hcxx] at htype hshaped hbuf ⊢
    obtain ⟨vs, hvs, hlength, hall⟩ := hasType_of_vector htype
    obtain ⟨ws, hws⟩ := hshaped
    have hname := hok.2
    rw [if_pos hvector] at hname
    have hlookup : sizes.lookup v.2 = none := lookup_eq_none_of_notMem hname.2.1
    rw [hlookup] at hbuf ⊢
    rw [hvs, encodeIn, List.append_assoc] at hbuf
    -- the length is read
    have hrange : HasTypeIn isObj (.base .INT32) (.num vs.length) := by
      show -2 ^ 31 ≤ (vs.length : Int) ∧ (vs.length : Int) < 2 ^ 31
      omega
    have hno : ReadsIn E isObj shaped obj mobj (.base .INT32) := fun _ hT => by cases hT
    have hread := readAct_run (f := f) (p := .loc (sizes.length + 1)) hwire rfl (.base .INT32 .INT32)
      hrange trivial hno (hbuf.trans (by rw [encodeIn_base]))
    rw [mergeIn_base, encodeIn_base] at hread
    -- the elements are pushed
    obtain ⟨loc, hloop, hloc⟩ := readLoop_run (sizes.length + 2) (sizes.length + 3) hwire
      hv.well.value.compat hall (fun w hw => hfresh.shapedIn hv.well.value (hall w hw)) hcall
      vs.length 0 { f.set (.loc (sizes.length + 1)) (.num vs.length) with
        buf := { rpos := r + (E.wire.put (.base .INT32) (.num vs.length)).length
                 rest := vs.flatMap (encodeIn E.wire obj t) ++ tail } } hws (by omega) rfl
    refine ⟨loc, ?_, ?_⟩
    · rw [Env.readVarAct, if_pos hvector, List.length_map, Action.andThen_run hread, Action.loop]
      simp only [Frame.get, Frame.set, Function.update_self, Int.toNat_natCast]
      refine hloop.trans ?_
      simp [hvs, hws, mergeIn, encodeIn, Nat.add_assoc, Frame.set]
    · rw [sizesAfter, if_pos hvector, hvs]
      apply LengthsOk.cons
      · apply hsizes.frame
        intro slot hle
        rw [hloc slot (by omega) (by omega)]
        exact Function.update_of_ne (by omega) _ _
      · exact hlength
      · rw [hloc _ (by omega) (by omega)]
        exact Function.update_self _ _ _

/-- Other members are left alone. -/
theorem mergeVar_of_ne {decls : List Decl} {fresh : CxxType → Val} {o s : String → Val} {x : String}
    (h : x ≠ v.2) : mergeVar decls mobj fresh sizes v o s x = s x := by
  rw [mergeVar]
  split
  · rfl
  · exact Function.update_of_ne h _ _

/-- A list. -/
theorem readListAct_run (isObj shaped : String → Val → Prop) (obj : String → Val → List UInt8)
    (mobj : String → Val → Val → Val) (sizes : Sizes) (hwire : E.wire.Lawful)
    {vars : List (TypeInfo × String)} {f : Frame}
    (h : ListTyped E S (sizes.map Prod.fst) vars)
    (hok : NamesOk E.decls S (sizes.map Prod.fst) vars) (hsizes : LengthsOk sizes f.loc)
    {o : String → Val} (htypes : ∀ v ∈ vars, HasTypeIn isObj (varType E.decls v.1) (o v.2))
    (hshaped : ∀ v ∈ vars, ShapedIn shaped (varType E.decls v.1) (f.self v.2))
    (hfresh : ∀ v ∈ vars, FreshIn E isObj shaped (elemType E.decls v.1))
    (hcalls : ∀ v ∈ vars, ReadsIn E isObj shaped obj mobj (elemType E.decls v.1)) {r : Nat}
    {tail : List UInt8}
    (hbuf : f.buf = { rpos := r, rest := encodeVars E.decls E.wire obj sizes vars o ++ tail }) :
    ∃ loc, E.readListAct (sizes.map Prod.fst) vars f =
      some (true,
        { self := mergeVars E.decls mobj E.fresh sizes vars o f.self
          loc := loc
          buf := { rpos := r + (encodeVars E.decls E.wire obj sizes vars o).length
                   rest := tail } }) := by
  induction vars generalizing sizes f r with
  | nil =>
    refine ⟨f.loc, ?_⟩
    rw [encodeVars, List.nil_append] at hbuf
    rw [encodeVars, mergeVars, List.length_nil, Nat.add_zero, ← hbuf]
    rfl
  | cons v vars ih =>
    obtain ⟨t, hv⟩ := h.typed v List.mem_cons_self
    have helem := Env.elemType_eq hv
    have htype := htypes v List.mem_cons_self
    have hshape := hshaped v List.mem_cons_self
    have hnew := hfresh v List.mem_cons_self
    have hcall := hcalls v List.mem_cons_self
    rw [varType, helem] at htype hshape
    rw [helem] at hnew hcall
    rw [encodeVars, List.append_assoc] at hbuf
    obtain ⟨loc, hact, hsizes'⟩ :=
      readVarAct_run hwire hv hok.1 hsizes htype hshape hnew hcall hbuf
    have htail := h.tail
    have hoks := hok.2
    rw [← map_fst_sizesAfter sizes v o] at htail hoks
    -- what follows are other members
    have hother : ∀ w ∈ vars, w.2 ≠ v.2 := by
      intro w hw heq
      exact (List.nodup_cons.mp h.nodup).1 (heq ▸ List.mem_map_of_mem hw)
    obtain ⟨loc', hrest⟩ := ih (sizesAfter sizes v _)
      (f := { self := mergeVar E.decls mobj E.fresh sizes v o f.self
              loc := loc
              buf := { rpos := r + (encodeVar E.decls E.wire obj sizes v o).length
                       rest := encodeVars E.decls E.wire obj (sizesAfter sizes v o) vars o ++
                         tail } })
      htail hoks hsizes' (fun w hw => htypes w (List.mem_cons_of_mem v hw))
      (fun w hw => by
        show ShapedIn shaped _ (mergeVar E.decls mobj E.fresh sizes v o f.self w.2)
        rw [mergeVar_of_ne (hother w hw)]
        exact hshaped w (List.mem_cons_of_mem v hw))
      (fun w hw => hfresh w (List.mem_cons_of_mem v hw))
      (fun w hw => hcalls w (List.mem_cons_of_mem v hw)) rfl
    refine ⟨loc', ?_⟩
    rw [Env.readListAct, helem, Action.andThen_run hact, ← map_fst_sizesAfter sizes v o,
      encodeVars, mergeVars, List.length_append, ← Nat.add_assoc]
    exact hrest

end Read

end Athena.Idl
