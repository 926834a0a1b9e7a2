import Athena.ForStd.Run
import Athena.Native.SqlPrepare

/-!
# Parameters and their buffers

What a push leaves in its slot: a buffer with the value at its beginning, and the two
lengths.  A scalar always gets a buffer of its own size.  A string or a blob is copied over
the buffer that an earlier push left in the slot, whatever its size.
-/

namespace Athena

/-- The slot holds `value`. -/
def ParamBind.Filled (bind : ParamBind) (value : List UInt8) : Prop :=
  (∃ buffer, bind.buffer = some buffer ∧ Block.read buffer value.length = some value) ∧
    bind.bufferLength = value.length ∧ bind.length = some value.length

namespace ParamBind

/-- A buffer that is set holds its value. -/
theorem setParameterValue_filled (bind : ParamBind) (type : EnumFieldTypes) (value : List UInt8)
    (isUnsigned : Bool) : (bind.setParameterValue type value isUnsigned).Filled value := by
  exact ⟨⟨value, rfl, Block.read_length value⟩, rfl, rfl⟩

/-- The copy leaves `value` in the slot if it is what `data` has in its first `len` bytes, and
the buffer that is there, if any, has room for it. -/
theorem copyValue_filled {bind : ParamBind} {type : EnumFieldTypes} {data value : List UInt8}
    {len : Int} :
    (∃ bind', bind.copyValue type data len = some bind' ∧ bind'.Filled value) ↔
      0 ≤ len ∧ Block.read data len.toNat = some value ∧
        ∀ block, bind.buffer = some block → value.length ≤ block.length := by
  rw [copyValue]
  split
  · next hneg => exact ⟨fun ⟨_, h, _⟩ => (nomatch h), fun h => absurd h.1 (by omega)⟩
  · next hpos =>
    cases hsrc : Block.read data len.toNat with
    | none => exact ⟨fun ⟨_, h, _⟩ => (nomatch h), fun h => (nomatch h.2.1)⟩
    | some src =>
      -- the bytes are inside the value
      have hlen : src.length = len.toNat := by
        obtain ⟨hle, rfl⟩ := Block.read_eq_some.mp hsrc
        rw [List.length_take]
        omega
      cases hbuffer : bind.buffer with
      -- a new block is as large as the value
      | none =>
        constructor
        · intro ⟨bind', h, ⟨buffer, hnew, hread⟩, hlength, _⟩
          obtain rfl := Option.some.inj h
          obtain rfl := Option.some.inj hnew
          dsimp only at hlength
          rw [← hlength, ← hlen, Block.read_length] at hread
          exact ⟨by omega, hread, fun block h => (nomatch h)⟩
        · intro ⟨_, h, _⟩
          obtain rfl := Option.some.inj h
          exact ⟨_, rfl, ⟨src, rfl, Block.read_length src⟩, hlen.symm, congrArg some hlen.symm⟩
      -- a block that is there has the room that it has
      | some block =>
        constructor
        · intro ⟨bind', h, ⟨buffer, hnew, hread⟩, hlength, _⟩
          obtain ⟨cells, hwrite, rfl⟩ := Option.map_eq_some_iff.mp h
          obtain rfl := Option.some.inj hnew
          dsimp only at hlength
          rw [← hlength, ← hlen, (Block.write_spec hwrite).2] at hread
          obtain rfl := Option.some.inj hread
          refine ⟨by omega, rfl, fun block' h => ?_⟩
          obtain rfl := Option.some.inj h
          exact (Block.write_eq_some.mp hwrite).1
        · intro ⟨_, h, hroom⟩
          obtain rfl := Option.some.inj h
          have hwrite := Block.write_eq_some.mpr ⟨hroom block rfl, rfl⟩
          exact ⟨_, Option.map_eq_some_iff.mpr ⟨_, hwrite, rfl⟩,
            ⟨_, rfl, (Block.write_spec hwrite).2⟩, hlen.symm, congrArg some hlen.symm⟩

end ParamBind

namespace SqlPrepare

/-! ## Calls -/

/-- The calls of a statement. -/
inductive Call where
  | clear
  | pushInt8 (value : BitVec 8)
  | pushUint8 (value : BitVec 8)
  | pushInt16 (value : BitVec 16)
  | pushUint16 (value : BitVec 16)
  | pushInt32 (value : BitVec 32)
  | pushUint32 (value : BitVec 32)
  | pushInt64 (value : BitVec 64)
  | pushUint64 (value : BitVec 64)
  | pushFloat (value : BitVec 32)
  | pushDouble (value : BitVec 64)
  | pushString (value : List UInt8)
  | pushData (sv : List UInt8)
  | write (pData : List UInt8) (len : Int)
  deriving DecidableEq, Repr

/-- What a call leaves, if it is allowed. -/
def step (s : SqlPrepare) : Call → Option SqlPrepare
  | .clear => some s.clear
  | .pushInt8 value => s.pushInt8 value
  | .pushUint8 value => s.pushUint8 value
  | .pushInt16 value => s.pushInt16 value
  | .pushUint16 value => s.pushUint16 value
  | .pushInt32 value => s.pushInt32 value
  | .pushUint32 value => s.pushUint32 value
  | .pushInt64 value => s.pushInt64 value
  | .pushUint64 value => s.pushUint64 value
  | .pushFloat value => s.pushFloat value
  | .pushDouble value => s.pushDouble value
  | .pushString value => s.pushString value
  | .pushData sv => s.pushData sv
  | .write pData len => s.write pData len

/-- The bytes of the pushed value. -/
def Call.value : Call → Option (List UInt8)
  | clear => none
  | pushInt8 value => some (objectBytes 1 value)
  | pushUint8 value => some (objectBytes 1 value)
  | pushInt16 value => some (objectBytes 2 value)
  | pushUint16 value => some (objectBytes 2 value)
  | pushInt32 value => some (objectBytes 4 value)
  | pushUint32 value => some (objectBytes 4 value)
  | pushInt64 value => some (objectBytes 8 value)
  | pushUint64 value => some (objectBytes 8 value)
  | pushFloat value => some (objectBytes 4 value)
  | pushDouble value => some (objectBytes 8 value)
  | pushString value => some value
  | pushData sv => some sv
  | write pData len => some (pData.take len.toNat)

/-- The number of placeholders of a text. -/
def placeholders (sql : List Char) : Nat := (sql.takeWhile (· != Char.ofNat 0)).count '?'

/-- At most `m` pushes between two calls of `clear`, and `room` before the first. -/
def Spaced (m : Nat) : Nat → List Call → Prop
  | _, [] => True
  | room, c :: cs =>
    if c.value.isSome then 0 < room ∧ Spaced m (room - 1) cs else Spaced m m cs

instance Spaced.decidable (m room : Nat) (cs : List Call) : Decidable (Spaced m room cs) :=
  match cs with
  | [] => .isTrue trivial
  | c :: cs =>
    haveI := Spaced.decidable m (room - 1) cs
    haveI := Spaced.decidable m m cs
    inferInstanceAs
      (Decidable (if c.value.isSome then 0 < room ∧ Spaced m (room - 1) cs else Spaced m m cs))

/-- A push is performed, and its slot holds the value. -/
def Pushed (s : SqlPrepare) (c : Call) : Prop :=
  ∀ value, c.value = some value →
    ∃ s' bind, s.step c = some s' ∧ s'.paramBind[s.widx]? = some bind ∧ bind.Filled value

/-- The buffer of the next slot, if it has one, takes `n` bytes. -/
def Room (s : SqlPrepare) (n : Nat) : Prop :=
  ∀ bind block, s.paramBind[s.widx]? = some bind → bind.buffer = some block → n ≤ block.length

/-- A text with so many placeholders that an `int` cannot count them has a slot, the length of
a string is an `int`, and the next slot has room for it. -/
def Fits (s : SqlPrepare) (c : Call) : Prop :=
  (c.value.isSome → 2 ^ 31 ≤ placeholders s.sql → s.widx < s.paramBind.length) ∧
    match c with
    | .pushString value => value.length < 2 ^ 31 ∧ s.Room value.length
    | .pushData sv => sv.length < 2 ^ 31 ∧ s.Room sv.length
    | .write pData len => 0 ≤ len ∧ len.toNat ≤ pData.length ∧ s.Room len.toNat
    | _ => True

/-! ## One call -/

/-- A push gives a slot exactly if there is one and it can be filled. -/
theorem push_filled {s : SqlPrepare} {fill : ParamBind → Option ParamBind} {value : List UInt8} :
    (∃ s' bind, s.push fill = some s' ∧ s'.paramBind[s.widx]? = some bind ∧ bind.Filled value) ↔
      ∃ bind, s.paramBind[s.widx]? = some bind ∧
        ∃ bind', fill bind = some bind' ∧ bind'.Filled value := by
  rw [push]
  cases hslot : s.paramBind[s.widx]? with
  | none => exact ⟨fun ⟨_, _, h, _⟩ => (nomatch h), fun ⟨_, h, _⟩ => (nomatch h)⟩
  | some bind =>
    obtain ⟨hlt, -⟩ := List.getElem?_eq_some_iff.mp hslot
    constructor
    · intro ⟨s', bind₁, h, hslot', hfilled⟩
      obtain ⟨bind', hfill, rfl⟩ := Option.map_eq_some_iff.mp h
      dsimp only at hslot'
      rw [List.getElem?_set_self hlt] at hslot'
      obtain rfl := Option.some.inj hslot'
      exact ⟨bind, rfl, bind', hfill, hfilled⟩
    · intro ⟨bind₁, h, bind', hfill, hfilled⟩
      obtain rfl := Option.some.inj h
      exact ⟨_, bind', Option.map_eq_some_iff.mpr ⟨bind', hfill, rfl⟩,
        List.getElem?_set_self hlt, hfilled⟩

/-- A scalar needs a slot and no more. -/
theorem pushScalar_filled {s : SqlPrepare} (type : EnumFieldTypes) (isUnsigned : Bool)
    (value : List UInt8) :
    (∃ s' bind, pushScalar type isUnsigned value s = some s' ∧
      s'.paramBind[s.widx]? = some bind ∧ bind.Filled value) ↔ s.widx < s.paramBind.length := by
  rw [pushScalar, push_filled]
  constructor
  · intro ⟨bind, hslot, _⟩
    exact (List.getElem?_eq_some_iff.mp hslot).1
  · intro hlt
    exact ⟨_, List.getElem?_eq_getElem hlt, _, rfl, ParamBind.setParameterValue_filled _ _ _ _⟩

/-- A copy needs a slot with room, and the first `len` bytes of its data. -/
theorem pushCopy_filled {s : SqlPrepare} (type : EnumFieldTypes) {data value : List UInt8}
    {len : Int} :
    (∃ s' bind, (s.push fun bind => bind.copyValue type data len) = some s' ∧
      s'.paramBind[s.widx]? = some bind ∧ bind.Filled value) ↔
      s.widx < s.paramBind.length ∧ 0 ≤ len ∧ Block.read data len.toNat = some value ∧
        s.Room value.length := by
  simp only [push_filled, ParamBind.copyValue_filled, Room]
  constructor
  · intro ⟨bind, hslot, hpos, hread, hroom⟩
    refine ⟨(List.getElem?_eq_some_iff.mp hslot).1, hpos, hread, fun bind' block hslot' hbuffer => ?_⟩
    rw [hslot] at hslot'
    obtain rfl := Option.some.inj hslot'
    exact hroom block hbuffer
  · intro ⟨hlt, hpos, hread, hroom⟩
    have hslot := List.getElem?_eq_getElem hlt
    exact ⟨_, hslot, hpos, hread, fun block hbuffer => hroom _ block hslot hbuffer⟩

/-- The length of a string comes through the cast to `int` if it is one. -/
theorem read_cast {value : List UInt8} :
    (0 ≤ Block.intLength value.length ∧
      Block.read value (Block.intLength value.length).toNat = some value) ↔
        value.length < 2 ^ 31 := by
  rw [← Block.intLength_eq_iff]
  constructor
  · intro ⟨hpos, hread⟩
    obtain ⟨hle, htake⟩ := Block.read_eq_some.mp hread
    have hlen := congrArg List.length htake
    rw [List.length_take] at hlen
    omega
  · intro hcast
    rw [hcast, Int.toNat_natCast]
    exact ⟨by omega, Block.read_length value⟩

/-- What a push needs, for a text whose placeholders have their slots. -/
theorem pushed_iff {s : SqlPrepare} {c : Call}
    (hslot : c.value.isSome → placeholders s.sql < 2 ^ 31 → s.widx < s.paramBind.length) :
    s.Pushed c ↔ s.Fits c := by
  -- the guard of the count is vacuous below the wrap
  have hslot' : c.value.isSome →
      (s.widx < s.paramBind.length ↔
        (2 ^ 31 ≤ placeholders s.sql → s.widx < s.paramBind.length)) := by
    intro hvalue
    have := hslot hvalue
    omega
  simp only [Pushed, Fits]
  cases c with
  | clear => exact ⟨fun _ => ⟨nofun, trivial⟩, fun _ _ h => (nomatch h)⟩
  | pushString value =>
    simp only [Call.value, Option.isSome_some, Option.some.injEq, forall_eq', forall_const, step,
      pushString, pushCopy_filled] at hslot' ⊢
    rw [← and_assoc (a := 0 ≤ _), read_cast, ← hslot']
  | pushData sv =>
    simp only [Call.value, Option.isSome_some, Option.some.injEq, forall_eq', forall_const, step,
      pushData, write, pushCopy_filled] at hslot' ⊢
    rw [← and_assoc (a := 0 ≤ _), read_cast, ← hslot']
  -- here the length is an argument: `take` gives what can be read
  | write pData len =>
    simp only [Call.value, Option.isSome_some, Option.some.injEq, forall_eq', forall_const, step,
      write, pushCopy_filled] at hslot' ⊢
    rw [← hslot', Block.read_eq_some, and_iff_left rfl]
    refine and_congr_right fun _ => and_congr_right fun _ => and_congr_right fun hle => ?_
    rw [List.length_take, Nat.min_eq_left hle]
  -- the numbers push their own bytes
  | _ =>
    simp only [Call.value, Option.isSome_some, Option.some.injEq, forall_eq', forall_const, step,
      pushInt8, pushUint8, pushInt16, pushUint16, pushInt32, pushUint32, pushInt64, pushUint64,
      pushFloat, pushDouble, pushScalar_filled, and_true] at hslot' ⊢
    exact hslot'

/-! ## Runs -/

/-- The slots of a statement, and the room left in them. -/
structure Slots (s : SqlPrepare) (m room : Nat) : Prop where
  placeholders_eq : placeholders s.sql = m
  length_eq : m < 2 ^ 31 → s.paramBind.length = m
  widx_eq : s.widx + room = m

/-- A new statement has a buffer for each placeholder. -/
theorem new_slots (sql : List Char) : (new sql).Slots (placeholders sql) (placeholders sql) where
  placeholders_eq := rfl
  length_eq h := by
    have hcount : charCount sql '?' = placeholders sql := by
      show Int.bmod (placeholders sql) (2 ^ 32) = placeholders sql
      exact Int.bmod_eq_of_le (by omega) (by omega)
    simp only [new, List.length_replicate, hcount, Int.toNat_natCast]
  widx_eq := Nat.zero_add _

/-- After `clear` all buffers are free again. -/
theorem Slots.clear {s : SqlPrepare} {m room : Nat} (h : s.Slots m room) : s.clear.Slots m m where
  placeholders_eq := h.placeholders_eq
  length_eq := h.length_eq
  widx_eq := Nat.zero_add m

/-- A push fills the next buffer. -/
theorem Slots.push {s s' : SqlPrepare} {m room : Nat} {fill : ParamBind → Option ParamBind}
    (h : s.Slots m room) (hroom : 0 < room) (hpush : s.push fill = some s') :
    s'.Slots m (room - 1) := by
  rw [SqlPrepare.push] at hpush
  split at hpush
  · exact nomatch hpush
  · obtain ⟨bind', -, rfl⟩ := Option.map_eq_some_iff.mp hpush
    have hwidx := h.widx_eq
    refine ⟨h.placeholders_eq, fun hlt => ?_, ?_⟩
    · rw [List.length_set, h.length_eq hlt]
    · show s.widx + 1 + (room - 1) = m
      omega

/-- Every call that is not `clear` is a push. -/
theorem step_eq_push (s : SqlPrepare) {c : Call} (h : c.value.isSome) :
    ∃ fill, s.step c = s.push fill := by
  cases c with
  | clear => exact nomatch h
  | _ => exact ⟨_, rfl⟩

/-- What one push needs, a whole run needs at each of its pushes. -/
theorem Slots.meets_iff {s : SqlPrepare} {m room : Nat} (h : s.Slots m room) {cs : List Call}
    (hspaced : Spaced m room cs) :
    Run.Meets step Pushed s cs ↔ Run.Meets step Fits s cs := by
  induction cs generalizing s room with
  | nil => exact Iff.rfl
  | cons c cs ih =>
    simp only [Run.Meets, Spaced] at hspaced ⊢
    have hhead : s.Pushed c ↔ s.Fits c := by
      refine pushed_iff fun hvalue hlt => ?_
      rw [if_pos hvalue] at hspaced
      rw [h.placeholders_eq] at hlt
      have := h.length_eq hlt
      have := h.widx_eq
      omega
    rw [hhead]
    refine and_congr_right fun _ => ?_
    split
    · next s' hstep =>
      by_cases hvalue : c.value.isSome
      · rw [if_pos hvalue] at hspaced
        obtain ⟨fill, hfill⟩ := step_eq_push s hvalue
        exact ih (h.push hspaced.1 (hfill.symm.trans hstep)) hspaced.2
      · rw [if_neg hvalue] at hspaced
        cases c with
        | clear =>
          obtain rfl := Option.some.inj hstep
          exact ih h.clear hspaced
        | _ => exact absurd rfl hvalue
    · exact Iff.rfl

/-- In a run with at most `m` pushes between two calls of `clear`, every push leaves its value
in its slot exactly if every push fits. -/
theorem pushes_fit (sql : List Char) (cs : List Call)
    (hspaced : Spaced (placeholders sql) (placeholders sql) cs) :
    Run.Meets step Pushed (new sql) cs ↔ Run.Meets step Fits (new sql) cs := by
  exact (new_slots sql).meets_iff hspaced

/-- One slot, with a number and then a string of four bytes. -/
theorem pushes_fit_reused :
    Run.Meets step Pushed (new ['?']) [.pushInt32 7, .clear, .pushString [97, 98, 99, 100]] ↔
      Run.Meets step Fits (new ['?']) [.pushInt32 7, .clear, .pushString [97, 98, 99, 100]] :=
  pushes_fit ['?'] [.pushInt32 7, .clear, .pushString [97, 98, 99, 100]] (by decide)

/-- A string that is longer than the one before it in its slot. -/
theorem push_longer :
    ¬ ∀ (sql : List Char) (cs : List Call), Spaced (placeholders sql) (placeholders sql) cs →
      Run.Meets step Pushed (new sql) cs := by
  intro h
  have hmeets := h ['?'] [.pushString [97], .clear, .pushString [97, 98]] (by decide)
  obtain ⟨-, -, hpush, -⟩ := hmeets
  obtain ⟨s', bind, hstep, -⟩ := hpush [97, 98] rfl
  exact nomatch hstep

end SqlPrepare

end Athena
