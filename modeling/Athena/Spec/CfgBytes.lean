import Athena.Native.CfgTables
import Athena.Spec.ByteBufWire

/-!
# What the bytes of a bean say

`Ty.bytes` are the bytes of a value, written with the formats of `ByteBuf`.  Reading takes
exactly them and gives the value back (`Ty.reads`).  Where the bytes end too early, reading
ends short (`Ty.cut`), and it is refused if the last bytes of a value are not those of a
container (`Ty.refuses`): the loop over a container is shortened to the bytes that are left.
-/

namespace Athena.Luban

open Reader ByteBuf

/-! ## Bytes -/

/-- The bytes of a key. -/
def keyBytes : (k : KeyTy) → k.Val → List UInt8
  | .int, x => uintBytes x.toUInt32
  | .long, x => ulongBytes x.toUInt64

/-- The entries of a map in the order in which they were assigned. -/
def entriesOf {k : KeyTy} {α : Type} (m : AList fun _ : k.Val => α) : List (k.Val × α) :=
  m.entries.reverse.map fun e => (e.1, e.2)

/-- The id of the bean that an object is of. -/
def Beans.idOf : (bs : Beans) → bs.Val → Int32
  | .cons id _ _, .inl _ => id
  | .cons _ _ rest, .inr v => rest.idOf v

mutual

/-- The bytes of a value. -/
def Ty.bytes : (t : Ty) → t.Val → List UInt8
  | .bool, b => boolBytes b
  | .int, x => uintBytes x.toUInt32
  | .long, x => ulongBytes x.toUInt64
  | .float, x => image 4 x.toNat
  | .string, x => stringBytes x
  | .vector elem, vs => sizeBytes vs.length ++ vs.flatMap elem.bytes
  | .hashMap key val, m => sizeBytes (entriesOf m).length ++
      (entriesOf m).flatMap fun e => keyBytes key e.1 ++ val.bytes e.2
  | .bean ms, v => ms.bytes v
  | .abstract bs, v => uintBytes (bs.idOf v).toUInt32 ++ bs.bytes v

/-- The bytes of the members, in their order. -/
def Members.bytes : (ms : Members) → ms.Val → List UInt8
  | .nil, _ => []
  | .cons _ type rest, v => type.bytes v.1 ++ rest.bytes v.2

/-- The members of an object of a derived bean. -/
def Beans.bytes : (bs : Beans) → bs.Val → List UInt8
  | .cons _ ms _, .inl v => ms.bytes v
  | .cons _ _ rest, .inr v => rest.bytes v

end

/-- A key takes at least one byte. -/
theorem keyBytes_pos (k : KeyTy) (x : k.Val) : 0 < (keyBytes k x).length := by
  cases k with
  | int => exact uintBytes_pos _
  | long => exact ulongBytes_pos _

mutual

/-- A value of a type that takes bytes takes at least one. -/
theorem Ty.bytes_pos : (t : Ty) → t.pos = true → (v : t.Val) → 0 < (t.bytes v).length
  | .bool, _, _ => Nat.one_pos
  | .int, _, x => uintBytes_pos _
  | .long, _, x => ulongBytes_pos _
  | .float, _, x => by simp [Ty.bytes]
  | .string, _, x => stringBytes_pos x
  -- a container begins with its size, an object of an abstract bean with its id
  | .vector elem, _, vs => by
    have := sizeBytes_pos vs.length
    simp only [Ty.bytes, List.length_append]
    omega
  | .hashMap key val, _, m => by
    have := sizeBytes_pos (entriesOf m).length
    simp only [Ty.bytes, List.length_append]
    omega
  | .bean ms, h, v => ms.bytes_pos h v
  | .abstract bs, _, v => by
    have := uintBytes_pos (bs.idOf v).toUInt32
    simp only [Ty.bytes, List.length_append]
    omega

/-- A bean takes bytes if one of its members does. -/
theorem Members.bytes_pos : (ms : Members) → ms.pos = true → (v : ms.Val) →
    0 < (ms.bytes v).length
  | .cons _ type rest, h, v => by
    simp only [Members.pos, Bool.or_eq_true] at h
    simp only [Members.bytes, List.length_append]
    rcases h with h | h
    · have := type.bytes_pos h v.1
      omega
    · have := rest.bytes_pos h v.2
      omega

end

/-! ## Reading a value -/

/-- The size in front of a container, cut down to the bytes behind it. -/
theorem readCount_eq {buf : ByteBuf} {n : Nat} {t : List UInt8}
    (hroom : view.room (sizeBytes n).length buf) (hn : n < 2 ^ 31)
    (h : buf.contents = sizeBytes n ++ t) :
    readCount buf = .done (Int32.ofNat (min n t.length)) (buf.skip (sizeBytes n).length) := by
  -- the buffer is shorter than 2^31 bytes, and so is what is left of it
  have hlt : t.length < 2 ^ 31 := by
    have hs := buf.size_le
    have hc := buf.capacity_lt
    rw [← length_contents, h, List.length_append] at hs
    omega
  have hsize : (buf.skip (sizeBytes n).length).size = t.length := by
    have hrest : (buf.skip (sizeBytes n).length).contents = buf.contents.drop _ :=
      view.rest_skip (sizeBytes n).length buf
    rw [← length_contents, hrest, h, List.drop_left]
  -- `std::min` of two `int`s that are not negative
  have hmin : min (Int32.ofNat n) (Int32.ofNat t.length) = Int32.ofNat (min n t.length) := by
    have hle : Int32.ofNat n ≤ Int32.ofNat t.length ↔ n ≤ t.length := by
      rw [Int32.le_iff_toInt_le, Int32.toInt_ofNat_of_lt hn, Int32.toInt_ofNat_of_lt hlt,
        Int.ofNat_le]
    show (if Int32.ofNat n ≤ Int32.ofNat t.length then _ else _) = _
    by_cases h : n ≤ t.length
    · rw [if_pos (hle.mpr h), Nat.min_eq_left h]
    · rw [if_neg (fun hn => h (hle.mp hn)), Nat.min_eq_right (by omega)]
  rw [readCount, bind_done (reads_readSize n buf t hroom h)]
  show Reader.Outcome.done (min (Int32.ofNat n) (Int32.ofNat (buf.skip _).size)) (buf.skip _) = _
  rw [hsize, hmin]

/-- A count below 2^31 is not negative as an `int`. -/
theorem ofNat_nonneg {n : Nat} (h : n < 2 ^ 31) : ¬ Int32.ofNat n < 0 := by
  rw [Int32.lt_iff_toInt_lt, Int32.toInt_ofNat_of_lt h]
  simp

/-- A container that is read in a loop over at most as many values as there are bytes left. -/
def Loops {α γ : Type} (r : Reader ByteBuf γ) (val : Reader ByteBuf α) (f : List α → γ)
    (bs : List UInt8) (n : Nat) : Prop :=
  ∀ buf t, view.room (sizeBytes n ++ bs).length buf → buf.contents = sizeBytes n ++ t →
    r buf = (many val (min n t.length) >>= fun as => pure (f as)) (buf.skip (sizeBytes n).length)

/-- Every value takes a byte, so the loop over a whole container is not shortened. -/
theorem Loops.reads {α γ : Type} {r : Reader ByteBuf γ} {val : Reader ByteBuf α}
    {f : List α → γ} {enc : α → List UInt8} {as : List α}
    (hloops : Loops r val f (as.flatMap enc) as.length)
    (h : ∀ a ∈ as, Reads view val (enc a) a) (hpos : as.length ≤ (as.flatMap enc).length) :
    Reads view r (sizeBytes as.length ++ as.flatMap enc) (f as) := by
  intro buf t hroom hs
  rw [List.append_assoc] at hs
  rw [hloops buf _ hroom hs, List.length_append, Nat.min_eq_left (by omega)]
  rw [List.length_append] at hroom
  have hrest : (buf.skip (sizeBytes as.length).length).contents = as.flatMap enc ++ t := by
    have hdrop := view.rest_skip (sizeBytes as.length).length buf
    exact hdrop.trans (by rw [hs, List.drop_left])
  have hroom' := view.room_skip (by rw [hs, List.length_append]; omega) hroom
  refine ((Reads.many h).map (f := f) _ t hroom' hrest).trans ?_
  rw [view.skip_skip, List.length_append]

/-- A loop over a stream that ends too early ends short: the count was made no larger than what
    is left. -/
theorem Loops.cut {α γ : Type} {r : Reader ByteBuf γ} {val : Reader ByteBuf α}
    {f : List α → γ} {enc : α → List UInt8} {as : List α}
    (hloops : Loops r val f (as.flatMap enc) as.length)
    (hsize : ∀ {buf}, (∃ s, readSize buf = .refused s) → ∃ s, r buf = .refused s)
    (h : ∀ a ∈ as, Reads view val (enc a) a) (hcut : ∀ a ∈ as, Cut view val (enc a))
    (hshort : Short view val) (hpos : ∀ a ∈ as, 0 < (enc a).length) :
    Cut view r (sizeBytes as.length ++ as.flatMap enc) := by
  intro buf hin
  rcases hin.append with hsizeIn | ⟨t, -, ht, hbody⟩
  · exact .inl (hsize (refuses_readSize as.length buf hsizeIn))
  · rw [hloops buf t hin.room ht]
    have hrest : (view.rest (view.skip (sizeBytes as.length).length buf)) = t := by
      rw [view.rest_skip, ht, List.drop_left]
    refine (many_endsShort h hcut hshort hpos hbody ?_).bind fun as => Short.pure (f as)
    rw [hrest]
    omega

/-- Values of at least `m` bytes take at least `m` bytes each. -/
theorem length_le_flatMap {α : Type} {enc : α → List UInt8} {as : List α} {m : Nat}
    (hpos : ∀ a ∈ as, m ≤ (enc a).length) : m * as.length ≤ (as.flatMap enc).length := by
  induction as with
  | nil => simp
  | cons a as ih =>
    have ha := hpos a List.mem_cons_self
    have has := ih fun b hb => hpos b (List.mem_cons_of_mem a hb)
    rw [List.flatMap_cons, List.length_append, List.length_cons, Nat.mul_add]
    omega

/-- A vector is a loop over its elements. -/
theorem loops_readVector {α : Type} {elem : Reader ByteBuf α} {enc : α → List UInt8}
    {as : List α} (hpos : ∀ a ∈ as, 0 < (enc a).length) :
    Loops (readVector elem) elem (fun as => as) (as.flatMap enc) as.length := by
  intro buf t hroom hs
  have hlen := length_le_flatMap (m := 1) hpos
  have hbound : buf._beginPos + (sizeBytes as.length ++ as.flatMap enc).length ≤ 2 ^ 30 := hroom
  rw [List.length_append] at hbound
  have hmin : min as.length t.length < 2 ^ 31 := by omega
  rw [readVector, bind_done (readCount_eq (view.room_mono (by simp) hroom) (by omega) hs),
    bind_done (show resize _ _ = .done () _ from if_neg (ofNat_nonneg hmin)),
    Int32.toNatClampNeg_ofNat_of_lt hmin, bind_pure_apply]

/-- Every entry has a key and a value, so the product in `reserve` stays an `int`. -/
theorem loops_readHashMap {α : Type} {k : KeyTy} {val : Reader ByteBuf α}
    {enc : k.Val × α → List UInt8} {as : List (k.Val × α)} (hpos : ∀ a ∈ as, 2 ≤ (enc a).length) :
    Loops (readHashMap k val) (readEntry k val)
      (fun as => as.foldl (fun m e => m.insert e.1 e.2) ∅) (as.flatMap enc) as.length := by
  intro buf t hroom hs
  have hlen := length_le_flatMap hpos
  have hbound : buf._beginPos + (sizeBytes as.length ++ as.flatMap enc).length ≤ 2 ^ 30 := hroom
  rw [List.length_append] at hbound
  -- the count and the reserved buckets stay in `int`
  have hmin : min as.length t.length < 2 ^ 31 := by omega
  have hreserve : ¬ (Int32.ofNat (min as.length t.length) < 0 ∨
      2 ^ 31 ≤ 3 * (Int32.ofNat (min as.length t.length)).toInt) := by
    rw [Int32.toInt_ofNat_of_lt hmin]
    rintro (h | h)
    · exact ofNat_nonneg hmin h
    · omega
  rw [readHashMap, bind_done (readCount_eq (view.room_mono (by simp) hroom) (by omega) hs),
    bind_done (show reserveMap _ _ = .done () _ from if_neg hreserve),
    Int32.toNatClampNeg_ofNat_of_lt hmin]

/-- The id of an object is one of the abstract bean's. -/
theorem Beans.has_idOf : (bs : Beans) → (v : bs.Val) → bs.has (bs.idOf v) = true
  | .cons id _ _, .inl _ => by simp [Beans.has, Beans.idOf]
  | .cons _ _ rest, .inr v => by
    simp only [Beans.has, Beans.idOf, Bool.or_eq_true]
    exact .inr (rest.has_idOf v)

/-- An id that no bean has is not an object's. -/
theorem Beans.ne_idOf (bs : Beans) {id : Int32} (h : bs.has id = false) (v : bs.Val) :
    id ≠ bs.idOf v := by
  intro heq
  have hhas := bs.has_idOf v
  rw [← heq, h] at hhas
  cases hhas

/-- The id of the first bean reads its members. -/
theorem Beans.deserialize_self (id : Int32) (ms : Members) (rest : Beans) :
    (Beans.cons id ms rest).deserialize id = do return .inl (← ms.deserialize) :=
  if_pos rfl

/-- Another id is one of the other beans. -/
theorem Beans.deserialize_of_ne {id i : Int32} (h : id ≠ i) {ms : Members} {rest : Beans} :
    (Beans.cons id ms rest).deserialize i = do return .inr (← rest.deserialize i) :=
  if_neg h

/-- Assigning the entries of a map one after another gives the map. -/
theorem foldl_entriesOf {k : KeyTy} {α : Type} (m : AList fun _ : k.Val => α) :
    (entriesOf m).foldl (fun m e => m.insert e.1 e.2) ∅ = m := by
  obtain ⟨entries, hnodup⟩ := m
  induction entries with
  | nil => rfl
  | cons e es ih =>
    obtain ⟨hnew, hes⟩ := List.nodupKeys_cons.mp hnodup
    have hlast : entriesOf ⟨e :: es, hnodup⟩ = entriesOf ⟨es, hes⟩ ++ [(e.1, e.2)] := by
      simp [entriesOf]
    rw [hlast, List.foldl_append, ih hes]
    exact AList.ext (AList.entries_insert_of_notMem hnew)

/-- A key comes back. -/
theorem reads_readKey (k : KeyTy) (x : k.Val) : Reads view (readKey k) (keyBytes k x) x := by
  cases k with
  | int => exact reads_readInt x
  | long => exact reads_readLong x

/-- A vector comes back. -/
theorem reads_readVector {α : Type} {elem : Reader ByteBuf α} {enc : α → List UInt8}
    (hpos : ∀ a, 0 < (enc a).length) (h : ∀ a, Reads view elem (enc a) a) (as : List α) :
    Reads view (readVector elem) (sizeBytes as.length ++ as.flatMap enc) as := by
  have hlen := length_le_flatMap (m := 1) fun a (_ : a ∈ as) => hpos a
  exact (loops_readVector fun a _ => hpos a).reads (fun a _ => h a) (by omega)

/-- An entry of a map takes at least two bytes. -/
theorem entry_two_le {k : KeyTy} {α : Type} {enc : α → List UInt8}
    (hpos : ∀ a, 0 < (enc a).length) (e : k.Val × α) :
    2 ≤ (keyBytes k e.1 ++ enc e.2).length := by
  have hk := keyBytes_pos k e.1
  have ha := hpos e.2
  rw [List.length_append]
  omega

/-- An entry of a map comes back. -/
theorem reads_readEntry {k : KeyTy} {α : Type} {val : Reader ByteBuf α} {enc : α → List UInt8}
    (h : ∀ a, Reads view val (enc a) a) (e : k.Val × α) :
    Reads view (readEntry k val) (keyBytes k e.1 ++ enc e.2) e :=
  (reads_readKey k e.1).bind (h e.2).map

/-- A map comes back. -/
theorem reads_readHashMap {k : KeyTy} {α : Type} {val : Reader ByteBuf α} {enc : α → List UInt8}
    (hpos : ∀ a, 0 < (enc a).length) (h : ∀ a, Reads view val (enc a) a)
    (m : AList fun _ : k.Val => α) :
    Reads view (readHashMap k val) (sizeBytes (entriesOf m).length ++
      (entriesOf m).flatMap fun e => keyBytes k e.1 ++ enc e.2) m := by
  have htwo := fun e (_ : e ∈ entriesOf m) => entry_two_le (k := k) hpos e
  have hlen := length_le_flatMap htwo
  have hreads := (loops_readHashMap htwo).reads (fun e _ => reads_readEntry h e)
    (by omega)
  rwa [foldl_entriesOf] at hreads

mutual

/-- Deserializing takes the bytes of a value and gives the value back. -/
theorem Ty.reads : (t : Ty) → t.ok = true → (v : t.Val) → Reads view t.deserialize (t.bytes v) v
  | .bool, _, b => reads_readBool b
  | .int, _, x => reads_readInt x
  | .long, _, x => reads_readLong x
  | .float, _, x => reads_readFloat x
  | .string, _, x => reads_readString x
  -- the elements of a container take bytes, so its count is not made smaller
  | .vector elem, h, vs => by
    simp only [Ty.ok, Bool.and_eq_true] at h
    exact reads_readVector (elem.bytes_pos h.1) (elem.reads h.2) vs
  | .hashMap key val, h, m => by
    simp only [Ty.ok, Bool.and_eq_true] at h
    exact reads_readHashMap (val.bytes_pos h.1) (val.reads h.2) m
  | .bean ms, h, v => ms.reads h v
  -- the id chooses the bean whose members follow
  | .abstract bs, h, v => by
    simp only [Ty.ok, Bool.and_eq_true] at h
    exact (reads_readInt _).bind (bs.reads h.1 v)

/-- The members come back, one behind the other. -/
theorem Members.reads : (ms : Members) → ms.ok = true → (v : ms.Val) →
    Reads view ms.deserialize (ms.bytes v) v
  | .nil, _, () => Reads.pure ()
  | .cons _ type rest, h, (v, vs) => by
    simp only [Members.ok, Bool.and_eq_true] at h
    exact (type.reads h.1 v).bind ((rest.reads h.2 vs).map)

/-- The `__ID__` of an object leads to the branch for its members. -/
theorem Beans.reads : (bs : Beans) → bs.ok = true → (v : bs.Val) →
    Reads view (bs.deserialize (bs.idOf v)) (bs.bytes v) v
  | .cons id ms rest, h, .inl v => by
    simp only [Beans.ok, Bool.and_eq_true] at h
    rw [Beans.idOf, Beans.deserialize_self]
    exact (ms.reads h.1.2 v).map
  | .cons id ms rest, h, .inr v => by
    simp only [Beans.ok, Bool.and_eq_true, Bool.not_eq_true'] at h
    rw [Beans.idOf, Beans.deserialize_of_ne (rest.ne_idOf h.1.1 v)]
    exact (rest.reads h.2 v).map

end

/-! ## Bytes that end too early -/

/-- A read that needs a byte is refused at the end of the buffer. -/
theorem needs_need {α : Type} (k : Unit → Reader ByteBuf α) : Needs view (need 1 >>= k) := by
  intro buf hend
  have hsize : buf.size = 0 := by rw [← length_contents, show buf.contents = [] from hend.nil]; rfl
  have hroom : buf._beginPos + 1 ≤ 2 ^ 30 := hend.room
  exact ⟨buf, bind_refused (need_refused (by omega) (by omega))⟩

/-- So is one that takes bytes. -/
theorem needs_taking {α : Type} {n : Nat} {f : Reader ByteBuf α} (h0 : 0 < n) (h : n < 9) :
    Needs view (taking n f) := by
  intro buf hend
  have hsize : buf.size = 0 := by rw [← length_contents, show buf.contents = [] from hend.nil]; rfl
  have hroom : buf._beginPos + 1 ≤ 2 ^ 30 := hend.room
  exact ⟨buf, taking_refused (by omega) (by omega)⟩

/-- An unsigned number needs a byte, -/
theorem needs_readUint : Needs view readUint := needs_need _

/-- a signed one, -/
theorem needs_readInt : Needs view readInt := needs_readUint.bind_left

/-- a long one, -/
theorem needs_readLong : Needs view readLong := Needs.bind_left (needs_need _)

/-- a size, -/
theorem needs_readSize : Needs view readSize := needs_readUint.bind_left

/-- a vector, which begins with a size, -/
theorem needs_readVector {α : Type} (elem : Reader ByteBuf α) : Needs view (readVector elem) :=
  Needs.bind_left (Needs.bind_left needs_readSize)

/-- and a map. -/
theorem needs_readHashMap {k : KeyTy} {α : Type} (val : Reader ByteBuf α) :
    Needs view (readHashMap k val) :=
  Needs.bind_left (Needs.bind_left needs_readSize)

mutual

/-- At the end of the bytes a value is refused or has none. -/
theorem Ty.short : (t : Ty) → Short view t.deserialize
  | .bool => (needs_taking (by decide) (by decide)).short
  | .int => needs_readInt.short
  | .long => needs_readLong.short
  | .float => (needs_taking (by decide) (by decide)).short
  | .string => (Needs.bind_left needs_readSize).short
  | .vector elem => (needs_readVector elem.deserialize).short
  | .hashMap _ val => (needs_readHashMap val.deserialize).short
  | .bean ms => ms.short
  | .abstract _ => (Needs.bind_left needs_readInt).short

/-- At the end of the buffer members end short. -/
theorem Members.short : (ms : Members) → Short view ms.deserialize
  | .nil => Short.pure ()
  | .cons _ type rest => type.short.bind fun _ => rest.short.bind fun _ => Short.pure _

/-- So do the members of an object of a derived bean. -/
theorem Beans.short : (bs : Beans) → (i : Int32) → Short view (bs.deserialize i)
  | .nil, _ => fun buf _ => .inl ⟨buf, rfl⟩
  | .cons id ms rest, i => by
    by_cases h : id = i
    · rw [← h, Beans.deserialize_self]
      exact ms.short.bind fun _ => Short.pure _
    · rw [Beans.deserialize_of_ne h]
      exact (rest.short i).bind fun _ => Short.pure _

end

mutual

/-- A value that has bytes is refused at the end of the bytes. -/
theorem Ty.needs : (t : Ty) → t.pos = true → Needs view t.deserialize
  | .bool, _ => needs_taking (by decide) (by decide)
  | .int, _ => needs_readInt
  | .long, _ => needs_readLong
  | .float, _ => needs_taking (by decide) (by decide)
  | .string, _ => Needs.bind_left needs_readSize
  | .vector elem, _ => needs_readVector elem.deserialize
  | .hashMap _ val, _ => needs_readHashMap val.deserialize
  | .bean ms, h => ms.needs h
  | .abstract _, _ => Needs.bind_left needs_readInt

/-- Members that take bytes need one. -/
theorem Members.needs : (ms : Members) → ms.pos = true → Needs view ms.deserialize
  | .cons _ type rest, h => by
    simp only [Members.pos, Bool.or_eq_true] at h
    rcases h with h | h
    · exact (type.needs h).bind_left
    · exact Needs.bind_right type.short fun _ => (rest.needs h).bind_left

end

/-- A key is refused where its bytes are cut. -/
theorem refuses_readKey (k : KeyTy) (x : k.Val) : Refuses view (readKey k) (keyBytes k x) := by
  cases k with
  | int => exact (refuses_readUint _).map
  | long => exact (refuses_readUlong _).map

/-- An entry ends short where its bytes are cut. -/
theorem cut_readEntry {k : KeyTy} {α : Type} {val : Reader ByteBuf α} {enc : α → List UInt8}
    (hcut : ∀ a, Cut view val (enc a)) (hshort : Short view val) (e : k.Val × α) :
    Cut view (readEntry k val) (keyBytes k e.1 ++ enc e.2) :=
  Cut.bind (reads_readKey k e.1) (refuses_readKey k e.1).cut
    (fun _ => hshort.bind fun _ => Short.pure _) (hcut e.2).map

/-- An entry needs a byte for its key. -/
theorem needs_readEntry {k : KeyTy} {α : Type} (val : Reader ByteBuf α) :
    Needs view (readEntry k val) := by
  cases k with
  | int => exact Needs.bind_left needs_readInt
  | long => exact Needs.bind_left needs_readLong

/-- A vector ends short where its bytes are cut. -/
theorem cut_readVector {α : Type} {elem : Reader ByteBuf α} {enc : α → List UInt8}
    (hpos : ∀ a, 0 < (enc a).length) (h : ∀ a, Reads view elem (enc a) a)
    (hcut : ∀ a, Cut view elem (enc a)) (hshort : Short view elem) (as : List α) :
    Cut view (readVector elem) (sizeBytes as.length ++ as.flatMap enc) :=
  (loops_readVector fun a _ => hpos a).cut (fun ⟨s, hs⟩ => ⟨s, bind_refused (bind_refused hs)⟩)
    (fun a _ => h a) (fun a _ => hcut a) hshort fun a _ => hpos a

/-- A map ends short where its bytes are cut. -/
theorem cut_readHashMap {k : KeyTy} {α : Type} {val : Reader ByteBuf α} {enc : α → List UInt8}
    (hpos : ∀ a, 0 < (enc a).length) (h : ∀ a, Reads view val (enc a) a)
    (hcut : ∀ a, Cut view val (enc a)) (hshort : Short view val)
    (m : AList fun _ : k.Val => α) :
    Cut view (readHashMap k val) (sizeBytes (entriesOf m).length ++
      (entriesOf m).flatMap fun e => keyBytes k e.1 ++ enc e.2) := by
  have htwo := fun e (_ : e ∈ entriesOf m) => entry_two_le (k := k) hpos e
  exact (loops_readHashMap htwo).cut (fun ⟨s, hs⟩ => ⟨s, bind_refused (bind_refused hs)⟩)
    (fun e _ => reads_readEntry h e) (fun e _ => cut_readEntry hcut hshort e)
    (needs_readEntry val).short fun e he => Nat.lt_of_succ_le (Nat.le_of_succ_le (htwo e he))

mutual

/-- Where the bytes end inside a value, it is refused or they are used up. -/
theorem Ty.cut : (t : Ty) → t.ok = true → (v : t.Val) → Cut view t.deserialize (t.bytes v)
  | .bool, _, b => (refuses_taking rfl).cut
  | .int, _, x => (refuses_readUint _).map.cut
  | .long, _, x => (refuses_readUlong _).map.cut
  | .float, _, x => (refuses_taking (length_image 4 _)).cut
  | .string, _, x => (refuses_readString x).cut
  -- a container that is cut may still end with fewer elements
  | .vector elem, h, vs => by
    simp only [Ty.ok, Bool.and_eq_true] at h
    exact cut_readVector (elem.bytes_pos h.1) (elem.reads h.2) (elem.cut h.2) elem.short vs
  | .hashMap key val, h, m => by
    simp only [Ty.ok, Bool.and_eq_true] at h
    exact cut_readHashMap (val.bytes_pos h.1) (val.reads h.2) (val.cut h.2) val.short m
  | .bean ms, h, v => ms.cut h v
  | .abstract bs, h, v => by
    simp only [Ty.ok, Bool.and_eq_true] at h
    exact Cut.bind (reads_readInt _) (refuses_readUint _).map.cut bs.short (bs.cut h.1 v)

/-- Members end short where their bytes are cut. -/
theorem Members.cut : (ms : Members) → ms.ok = true → (v : ms.Val) →
    Cut view ms.deserialize (ms.bytes v)
  | .nil, _, () => Cut.pure ()
  | .cons _ type rest, h, (v, vs) => by
    simp only [Members.ok, Bool.and_eq_true] at h
    exact Cut.bind (type.reads h.1 v) (type.cut h.1 v)
      (fun _ => rest.short.bind fun _ => Short.pure _) (rest.cut h.2 vs).map

/-- So do the members of an object of a derived bean. -/
theorem Beans.cut : (bs : Beans) → bs.ok = true → (v : bs.Val) →
    Cut view (bs.deserialize (bs.idOf v)) (bs.bytes v)
  | .cons id ms rest, h, .inl v => by
    simp only [Beans.ok, Bool.and_eq_true] at h
    rw [Beans.idOf, Beans.deserialize_self]
    exact (ms.cut h.1.2 v).map
  | .cons id ms rest, h, .inr v => by
    simp only [Beans.ok, Bool.and_eq_true, Bool.not_eq_true'] at h
    rw [Beans.idOf, Beans.deserialize_of_ne (rest.ne_idOf h.1.1 v)]
    exact (rest.cut h.2 v).map

end

/-! ## Values whose last bytes are not those of a container -/

mutual

/-- The last bytes of a value are not those of a container. -/
def Ty.endsFixed : Ty → Bool
  | .bool | .int | .long | .float | .string => true
  | .vector _ | .hashMap _ _ => false
  | .bean ms => ms.endsFixed
  | .abstract bs => bs.endsFixed

/-- The last member that has bytes decides. -/
def Members.endsFixed : Members → Bool
  | .nil => true
  | .cons _ type rest => rest.endsFixed && (rest.pos || type.endsFixed)

/-- So do all beans of an abstract one. -/
def Beans.endsFixed : Beans → Bool
  | .nil => true
  | .cons _ ms rest => ms.endsFixed && rest.endsFixed

end

mutual

/-- Where the bytes end inside such a value, it is refused. -/
theorem Ty.refuses : (t : Ty) → t.ok = true → t.endsFixed = true → (v : t.Val) →
    Refuses view t.deserialize (t.bytes v)
  | .bool, _, _, b => refuses_taking rfl
  | .int, _, _, x => (refuses_readUint _).map
  | .long, _, _, x => (refuses_readUlong _).map
  | .float, _, _, x => refuses_taking (length_image 4 _)
  | .string, _, _, x => refuses_readString x
  | .bean ms, h, hf, v => ms.refuses h hf v
  | .abstract bs, h, hf, v => by
    simp only [Ty.ok, Bool.and_eq_true] at h
    exact Refuses.bind_refuses (reads_readInt _) (refuses_readUint _).map (bs.refuses h.1 hf v)

/-- Members that end in no container are refused where their bytes are cut. -/
theorem Members.refuses : (ms : Members) → ms.ok = true → ms.endsFixed = true → (v : ms.Val) →
    Refuses view ms.deserialize (ms.bytes v)
  | .nil, _, _, () => fun _ hin => hin.not_nil.elim
  | .cons _ type rest, h, hf, (v, vs) => by
    simp only [Members.ok, Members.endsFixed, Bool.and_eq_true, Bool.or_eq_true] at h hf
    have hrest := (rest.refuses h.2 hf.1 vs).map (f := fun vs => (v, vs))
    rcases hf.2 with hpos | hfix
    · -- the rest has bytes, so it is refused where this member has used up what is there
      exact Refuses.bind (type.reads h.1 v) (type.cut h.1 v)
        (fun _ => (rest.needs hpos).bind_left) hrest
    · exact Refuses.bind_refuses (type.reads h.1 v) (type.refuses h.1 hfix v) hrest

/-- So are those of an object of a derived bean. -/
theorem Beans.refuses : (bs : Beans) → bs.ok = true → bs.endsFixed = true → (v : bs.Val) →
    Refuses view (bs.deserialize (bs.idOf v)) (bs.bytes v)
  | .cons id ms rest, h, hf, .inl v => by
    simp only [Beans.ok, Beans.endsFixed, Bool.and_eq_true] at h hf
    rw [Beans.idOf, Beans.deserialize_self]
    exact (ms.refuses h.1.2 hf.1 v).map
  | .cons id ms rest, h, hf, .inr v => by
    simp only [Beans.ok, Beans.endsFixed, Bool.and_eq_true, Bool.not_eq_true'] at h hf
    rw [Beans.idOf, Beans.deserialize_of_ne (rest.ne_idOf h.1.1 v)]
    exact (rest.refuses h.2 hf.2 v).map

end

end Athena.Luban
