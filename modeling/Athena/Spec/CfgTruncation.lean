import Athena.Spec.CfgLoad

/-!
# Files that were cut off

The loop over a container runs to the smaller of its size and the bytes that are left.  So a
file that ends inside a container may be taken for a whole one with a shorter container, and
it is if the bytes of the container are the last of the table's rows (`Ty.open_end`).  The
tables for which no file that was cut off is loaded are those whose rows do not end with a
container (`truncated_refused_iff`).
-/

namespace Athena.Luban

open Reader ByteBuf

/-- A number has at most five bytes. -/
theorem length_uintBytes_le (x : UInt32) : (uintBytes x).length ≤ 5 := by
  unfold uintBytes
  split_ifs <;> simp

/-- Every kind of key has one that is short. -/
theorem length_keyBytes_zero (k : KeyTy) : ∃ x : k.Val, (keyBytes k x).length ≤ 1 := by
  cases k with
  | int => exact ⟨(0 : Int32), by decide⟩
  | long => exact ⟨(0 : Int64), by decide⟩

/-! ## Small values -/

mutual

/-- Bytes enough for a value of zeros, with one value in a container. -/
def Ty.ample : Ty → Nat
  | .bool | .int | .long | .string => 1
  | .float => 4
  | .vector elem => 1 + elem.ample
  | .hashMap _ val => 2 + val.ample
  | .bean ms => ms.ample
  | .abstract bs => 5 + bs.ample

/-- Bytes enough for the members. -/
def Members.ample : Members → Nat
  | .nil => 0
  | .cons _ type rest => type.ample + rest.ample

/-- Bytes enough for every bean. -/
def Beans.ample : Beans → Nat
  | .nil => 0
  | .cons _ ms rest => ms.ample + rest.ample

end

mutual

/-- Every type has a value that is short. -/
theorem Ty.exists_small : (t : Ty) → t.ok = true → ∃ v, (t.bytes v).length ≤ t.ample
  | .bool, _ => ⟨false, Nat.le_refl 1⟩
  | .int, _ => ⟨(0 : Int32), by decide⟩
  | .long, _ => ⟨(0 : Int64), by decide⟩
  | .float, _ => ⟨(0 : UInt32), by decide⟩
  | .string, _ => ⟨([] : List UInt8), by decide⟩
  | .vector elem, _ => ⟨([] : List elem.Val), by
      show (sizeBytes 0 ++ []).length ≤ 1 + elem.ample
      rw [List.append_nil, show (sizeBytes 0).length = 1 by decide]
      omega⟩
  | .hashMap key val, _ => ⟨(∅ : AList fun _ : key.Val => val.Val), by
      show (sizeBytes 0 ++ []).length ≤ 2 + val.ample
      rw [List.append_nil, show (sizeBytes 0).length = 1 by decide]
      omega⟩
  | .bean ms, h => ms.exists_small h
  | .abstract (.cons id ms rest), h => by
    -- the first bean of the list will do
    simp only [Ty.ok, Beans.ok, Bool.and_eq_true] at h
    obtain ⟨v, hv⟩ := ms.exists_small h.1.1.2
    refine ⟨.inl v, ?_⟩
    have hid := length_uintBytes_le id.toUInt32
    show (uintBytes id.toUInt32 ++ ms.bytes v).length ≤ 5 + (ms.ample + rest.ample)
    rw [List.length_append]
    omega
  | .abstract .nil, h => by
    rw [Ty.ok, Bool.and_false] at h
    cases h

/-- Every bean has a value that is short. -/
theorem Members.exists_small : (ms : Members) → ms.ok = true → ∃ v, (ms.bytes v).length ≤ ms.ample
  | .nil, _ => ⟨(), Nat.le_refl 0⟩
  | .cons _ type rest, h => by
    simp only [Members.ok, Bool.and_eq_true] at h
    obtain ⟨v, hv⟩ := type.exists_small h.1
    obtain ⟨vs, hvs⟩ := rest.exists_small h.2
    refine ⟨(v, vs), ?_⟩
    show (type.bytes v ++ rest.bytes vs).length ≤ type.ample + rest.ample
    rw [List.length_append]
    omega

end

mutual

/-- A type that may be empty always is. -/
theorem Ty.bytes_eq_nil : (t : Ty) → t.pos = false → (v : t.Val) → t.bytes v = []
  | .bean ms, h, v => ms.bytes_eq_nil h v

/-- Members that may be empty always are. -/
theorem Members.bytes_eq_nil : (ms : Members) → ms.pos = false → (v : ms.Val) → ms.bytes v = []
  | .nil, _, _ => rfl
  | .cons _ type rest, h, v => by
    simp only [Members.pos, Bool.or_eq_false_iff] at h
    rw [Members.bytes, type.bytes_eq_nil h.1, rest.bytes_eq_nil h.2, List.append_nil]

end

/-! ## Ends that are open -/

/-- A part of the bytes `bs` that is taken for a whole value. -/
structure OpenEnd {α : Type} (r : Reader ByteBuf α) (bs part : List UInt8) (v : α) : Prop where
  isPrefix : part <+: bs
  lt : part.length < bs.length
  accepts : Accepts view r part v

/-- More in front. -/
theorem OpenEnd.prepend {α β : Type} {r : Reader ByteBuf α} {k : α → Reader ByteBuf β}
    {front bs part : List UInt8} {a : α} {v : β} (h : Reads view r front a)
    (ho : OpenEnd (k a) bs part v) : OpenEnd (r >>= k) (front ++ bs) (front ++ part) v where
  isPrefix := (List.prefix_append_right_inj front).mpr ho.isPrefix
  lt := by
    have := ho.lt
    rw [List.length_append, List.length_append]
    omega
  accepts := Accepts.bind_left h ho.accepts

/-- What becomes of the value does not matter. -/
theorem OpenEnd.map {α β : Type} {r : Reader ByteBuf α} {f : α → β} {bs part : List UInt8}
    {v : α} (h : OpenEnd r bs part v) : OpenEnd (r >>= fun a => pure (f a)) bs part (f v) :=
  ⟨h.isPrefix, h.lt, h.accepts.map⟩

/-- The size of a container with nothing behind it is taken for that of an empty one. -/
theorem readCount_zero {buf : ByteBuf} {n : Nat} (hn : n < 2 ^ 31)
    (hroom : view.room (sizeBytes n).length buf) (h : view.rest buf = sizeBytes n) :
    readCount buf = .done (Int32.ofNat 0) (buf.skip (sizeBytes n).length) := by
  have hcount := readCount_eq (t := []) hroom hn (h.trans (List.append_nil _).symm)
  rwa [List.length_nil, Nat.min_zero] at hcount

/-- The size of a vector alone is taken for an empty vector. -/
theorem openEnd_readVector {α : Type} (elem : Reader ByteBuf α) {bs : List UInt8}
    (hbs : 0 < bs.length) : OpenEnd (readVector elem) (sizeBytes 1 ++ bs) (sizeBytes 1) [] where
  isPrefix := List.prefix_append _ _
  lt := by
    rw [List.length_append]
    omega
  accepts buf hroom h := bind_done (readCount_zero (by decide) hroom h)

/-- The size of a map alone is taken for an empty map. -/
theorem openEnd_readHashMap {k : KeyTy} {α : Type} (val : Reader ByteBuf α) {bs : List UInt8}
    (hbs : 0 < bs.length) :
    OpenEnd (readHashMap k val) (sizeBytes 1 ++ bs) (sizeBytes 1) ∅ where
  isPrefix := List.prefix_append _ _
  lt := by
    rw [List.length_append]
    omega
  accepts buf hroom h := bind_done (readCount_zero (by decide) hroom h)

mutual

/-- A value that may end with a container, and a part of its bytes that is taken for a whole
    one. -/
theorem Ty.open_end : (t : Ty) → t.ok = true → t.endsFixed = false →
    ∃ v part v', OpenEnd t.deserialize (t.bytes v) part v' ∧ (t.bytes v).length ≤ t.ample
  | .vector elem, h, _ => by
    simp only [Ty.ok, Bool.and_eq_true] at h
    -- one element is enough, which the cut takes away
    obtain ⟨v, hv⟩ := elem.exists_small h.2
    have hpos := elem.bytes_pos h.1 v
    refine ⟨([v] : List elem.Val), sizeBytes 1, ([] : List elem.Val), ?_, ?_⟩
    · exact openEnd_readVector elem.deserialize (by simpa using hpos)
    · show (sizeBytes 1 ++ [v].flatMap elem.bytes).length ≤ 1 + elem.ample
      rw [List.length_append, List.flatMap_singleton, show (sizeBytes 1).length = 1 by decide]
      omega
  | .hashMap key val, h, _ => by
    simp only [Ty.ok, Bool.and_eq_true] at h
    obtain ⟨v, hv⟩ := val.exists_small h.2
    obtain ⟨x, hx⟩ := length_keyBytes_zero key
    have hpos := val.bytes_pos h.1 v
    refine ⟨(AList.singleton x v : AList fun _ : key.Val => val.Val), sizeBytes 1,
      (∅ : AList fun _ : key.Val => val.Val), ?_, ?_⟩
    · exact openEnd_readHashMap val.deserialize (by
        show 0 < (keyBytes key x ++ val.bytes v ++ []).length
        rw [List.append_nil, List.length_append]
        omega)
    · show (sizeBytes 1 ++ (keyBytes key x ++ val.bytes v ++ [])).length ≤ 2 + val.ample
      rw [List.length_append, List.append_nil, List.length_append,
        show (sizeBytes 1).length = 1 by decide]
      omega
  | .bean ms, h, hf => ms.open_end h hf
  | .abstract bs, h, hf => by
    simp only [Ty.ok, Bool.and_eq_true] at h
    obtain ⟨v, part, v', ho, hlen⟩ := bs.open_end h.1 hf
    refine ⟨v, uintBytes (bs.idOf v).toUInt32 ++ part, v',
      .prepend (reads_readInt (bs.idOf v)) ho, ?_⟩
    have hid := length_uintBytes_le (bs.idOf v).toUInt32
    show (uintBytes (bs.idOf v).toUInt32 ++ bs.bytes v).length ≤ 5 + bs.ample
    rw [List.length_append]
    omega

/-- A bean whose last member has bytes and an open end has one. -/
theorem Members.open_end : (ms : Members) → ms.ok = true → ms.endsFixed = false →
    ∃ v part v', OpenEnd ms.deserialize (ms.bytes v) part v' ∧ (ms.bytes v).length ≤ ms.ample
  | .cons name type rest, h, hf => by
    simp only [Members.ok, Bool.and_eq_true] at h
    simp only [Members.endsFixed, Bool.and_eq_false_iff, Bool.or_eq_false_iff] at hf
    by_cases hrest : rest.endsFixed = false
    · obtain ⟨v, hv⟩ := type.exists_small h.1
      obtain ⟨vs, part, vs', ho, hlen⟩ := rest.open_end h.2 hrest
      refine ⟨(v, vs), type.bytes v ++ part, (v, vs'),
        .prepend (type.reads h.1 v) (ho.map (f := fun vs => (v, vs))), ?_⟩
      show (type.bytes v ++ rest.bytes vs).length ≤ type.ample + rest.ample
      rw [List.length_append]
      omega
    · -- the rest has no bytes, so this member is the last
      obtain ⟨hpos, htype⟩ := hf.resolve_left hrest
      obtain ⟨v, part, v', ho, hlen⟩ := type.open_end h.1 htype
      obtain ⟨vs, -⟩ := rest.exists_small h.2
      have hnil := rest.bytes_eq_nil hpos vs
      have hreads := rest.reads h.2 vs
      rw [hnil] at hreads
      have hbytes : (Members.cons name type rest).bytes (v, vs) = type.bytes v := by
        show type.bytes v ++ rest.bytes vs = type.bytes v
        rw [hnil, List.append_nil]
      refine ⟨(v, vs), part, (v', vs), ?_, ?_⟩
      · rw [hbytes]
        exact ⟨ho.isPrefix, ho.lt, ho.accepts.bind_right hreads.map.accepts⟩
      · rw [hbytes]
        show (type.bytes v).length ≤ type.ample + rest.ample
        omega

/-- One of the beans has an open end. -/
theorem Beans.open_end : (bs : Beans) → bs.ok = true → bs.endsFixed = false →
    ∃ v part v', OpenEnd (bs.deserialize (bs.idOf v)) (bs.bytes v) part v' ∧
      (bs.bytes v).length ≤ bs.ample
  | .cons id ms rest, h, hf => by
    simp only [Beans.ok, Bool.and_eq_true, Bool.not_eq_true'] at h
    simp only [Beans.endsFixed, Bool.and_eq_false_iff] at hf
    rcases hf with hf | hf
    · obtain ⟨v, part, v', ho, hlen⟩ := ms.open_end h.1.2 hf
      refine ⟨.inl v, part, .inl v', ?_, ?_⟩
      · rw [Beans.idOf, Beans.deserialize_self]
        exact ho.map
      · show (ms.bytes v).length ≤ ms.ample + rest.ample
        omega
    · obtain ⟨v, part, v', ho, hlen⟩ := rest.open_end h.2 hf
      refine ⟨.inr v, part, .inr v', ?_, ?_⟩
      · rw [Beans.idOf, Beans.deserialize_of_ne (rest.ne_idOf h.1.1 v)]
        exact ho.map
      · show (rest.bytes v).length ≤ ms.ample + rest.ample
        omega

end

/-! ## Tables -/

namespace Table

/-- Rows with fixed ends are refused where they are cut off. -/
theorem refuses_loadRows {t : Table} (hf : t.row.endsFixed = true) (tb : Data t)
    (rows : List t.row.Val) :
    Refuses view (loadRows rows.length tb) (rows.flatMap t.row.bytes) := by
  induction rows generalizing tb with
  | nil => exact fun _ hin => hin.not_nil.elim
  | cons v rows ih =>
    rw [List.flatMap_cons]
    exact Refuses.bind_refuses (t.row.reads t.ok v) (t.row.refuses t.ok hf v) (ih (tb.push v))

/-- A file that was cut off is refused if the last bytes of a row are not those of a container. -/
theorem refuses_load {t : Table} (hf : t.row.endsFixed = true) (tb : Data t)
    (rows : List t.row.Val) : Refuses view (load tb) (t.bytes rows) := by
  intro buf hin
  have hbound : buf._beginPos + (t.bytes rows).length ≤ 2 ^ 30 := hin.room
  have hrows := t.length_rows_le rows
  rw [bytes, List.length_append] at hbound
  refine Refuses.bind_refuses (reads_readSize rows.length) (refuses_readSize rows.length) ?_ buf hin
  rw [toNat_size (by omega)]
  exact refuses_loadRows hf tb rows

/-- Otherwise there is a file of which a part is taken for a whole one. -/
theorem open_end_load {t : Table} (hf : t.row.endsFixed = false) (tb : Data t) :
    ∃ v part tb', OpenEnd (load tb) (t.bytes [v]) part tb' ∧
      (t.bytes [v]).length ≤ 1 + t.row.ample := by
  obtain ⟨v, part, v', ho, hlen⟩ := t.row.open_end t.ok hf
  have hbytes : t.bytes [v] = sizeBytes 1 ++ t.row.bytes v := by
    rw [bytes, List.flatMap_singleton]
    rfl
  refine ⟨v, sizeBytes 1 ++ part, tb.push v', ?_, ?_⟩
  · rw [hbytes]
    refine .prepend (reads_readSize 1) ?_
    exact ⟨ho.isPrefix, ho.lt, ho.accepts.map⟩
  · rw [hbytes, List.length_append, show (sizeBytes 1).length = 1 by decide]
    omega

end Table

/-- A buffer that holds just these bytes. -/
def ByteBuf.holding (bytes : List UInt8) (h : bytes.length < 2 ^ 31) : ByteBuf :=
  ⟨bytes, 0, bytes.length, Nat.zero_le _, Nat.le_refl _, h⟩

/-- All the bytes can be read. -/
theorem contents_holding (bytes : List UInt8) (h : bytes.length < 2 ^ 31) :
    (holding bytes h).contents = bytes := by
  show (bytes.drop 0).take (bytes.length - 0) = bytes
  rw [List.drop_zero, Nat.sub_zero, List.take_length]

end Athena.Luban

namespace Athena.Cfg

open Luban Reader ByteBuf

/-- The tables of the game have rows with short values. -/
theorem ample_le : ∀ t ∈ tables, t.row.ample ≤ 2 ^ 20 := by decide

/-- No file of a table that was cut off anywhere is loaded, whatever its rows, if and only if
    the last bytes of the table's rows are not those of a container. -/
theorem truncated_refused_iff {t : Table} (ht : t ∈ tables) :
    (∀ rows, Refuses view (Table.load (.new t)) (t.bytes rows)) ↔ t.row.endsFixed = true := by
  refine ⟨fun h => ?_, fun hf rows => Table.refuses_load hf _ rows⟩
  by_contra hf
  obtain ⟨v, part, tb, ho, hlen⟩ :=
    Table.open_end_load (Bool.eq_false_of_not_eq_true hf) (.new t)
  have hample := ample_le t ht
  have hlt := ho.lt
  have hrest : view.rest (holding part (by omega)) = part := contents_holding part (by omega)
  -- the part in a buffer of its own
  have hin : Inside view (t.bytes [v]) (holding part (by omega)) := by
    refine ⟨by rw [hrest]; exact ho.isPrefix, by rw [hrest]; exact hlt, ?_⟩
    show 0 + (t.bytes [v]).length ≤ 2 ^ 30
    omega
  obtain ⟨buf, hrefused⟩ := h [v] _ hin
  have hdone := ho.accepts (holding part (by omega)) (view.room_mono (Nat.le_of_lt hlt) hin.room) hrest
  rw [hrefused] at hdone
  cases hdone

/-- A list ends the rows of one of these, a string those of the other. -/
theorem truncated_refused_iff_ends :
    (¬ ∀ rows, Refuses view (Table.load (.new TbHeroGA)) (TbHeroGA.bytes rows)) ∧
      ∀ rows, Refuses view (Table.load (.new TbScene)) (TbScene.bytes rows) :=
  ⟨fun h => absurd ((truncated_refused_iff (by simp [tables])).mp h) (by decide),
    (truncated_refused_iff (by simp [tables])).mpr (by decide)⟩

/-- The tables of which a part may be taken for a whole one. -/
example : (tables.filter fun t => !t.row.endsFixed).map Table.file =
    ["camp_tbcamprelation", "herodata_tbpropsgroup", "skilldata_tbskilldata",
     "skilldata_tbheroga", "skilldata_tbcombomontage", "skilldata_tbgacombox",
     "skilldata_tbmontageattackdata", "skilldata_tbmontagecost", "skilldata_tbskilllevel",
     "buff_tbbuff", "buff_tbbuffcond", "sys_tbcommonunlock"] := by decide

end Athena.Cfg
