import Athena.Spec.JsonAccepts

/-!
# The nodes of the JSON reader

Each node that was allocated is deleted, or has lost its last pointer to a repeated key, or
is still in the hands of a function that runs: of these exactly one, and exactly once.  An
`Account` is such a statement about the heap and the nodes that are held; the induction over
the calls is done once for all of them.

## Key results

- `Account.reader`: what every move of the reader keeps, the reader keeps
- `reader_balanced`: every node is accounted for
- `reader_keeps`: a function that returns a node has deleted none
- `reader_leaks`: a leaked node stays leaked
-/

namespace Athena

namespace Json

open JsonBuff

variable {F : Type}

/-! ## Accounts -/

/-- Every allocated node is deleted, leaked or one of the live ones. -/
def Balanced (b : JsonBuff) (live : List Nat) : Prop :=
  ∀ id, b.deleted.count id + b.leaked.count id + live.count id = if id < b.allocated then 1 else 0

/-- The account when a function returns, for what its callers hold. -/
def Res.Balanced (live : List Nat) : Res F → Prop
  | .node obj b => Json.Balanced b (live ++ obj.ids)
  | .null b => Json.Balanced b live
  | .thrown _ => True
  | .timeout => True

/-- A new buffer has no nodes. -/
theorem Balanced.new (str : Text) : Balanced (.new str) [] := fun _ => rfl

variable {b b' : JsonBuff} {live live' : List Nat}

/-- A new node is live. -/
theorem Balanced.alloc (h : Balanced b live) : Balanced b.alloc.2 (live ++ [b.alloc.1]) := by
  intro id
  have hid := h id
  show b.deleted.count id + b.leaked.count id + (live ++ [b.allocated]).count id =
    if id < b.allocated + 1 then 1 else 0
  rw [List.count_append, List.count_singleton]
  -- the node that was just allocated
  by_cases heq : b.allocated = id
  · subst heq
    simp only [Nat.lt_irrefl, if_false] at hid
    simp only [beq_self_eq_true, if_true, Nat.lt_succ_self]
    omega
  · have hne : (b.allocated == id) = false := by simpa using heq
    have hlt : id < b.allocated + 1 ↔ id < b.allocated := by omega
    simp only [hne, hlt]
    simpa using hid

/-- Deleting live nodes moves them from one side of the account to the other. -/
theorem Balanced.delete {ids : List Nat} (h : Balanced b (live ++ ids)) :
    Balanced (b.delete ids) live := by
  intro id
  have hid := h id
  rw [List.count_append] at hid
  show (b.deleted ++ ids).count id + b.leaked.count id + live.count id =
    if id < b.allocated then 1 else 0
  rw [List.count_append, ← hid]
  omega

/-- What is live is the same nodes in another order. -/
theorem Balanced.of_count (h : Balanced b live) (hcount : ∀ id, live'.count id = live.count id) :
    Balanced b live' := by
  intro id
  rw [hcount id]
  exact h id

/-- The heap of another position. -/
theorem Balanced.of_rest (h : Balanced b live) (rest : List Char) (past : Bool) :
    Balanced { b with rest := rest, past := past } live := h

/-! ## Nodes in containers -/

/-- The nodes of an array's items, in order. -/
theorem itemIds_append (objs objs' : List (JBaseObj F)) :
    itemIds (objs ++ objs') = itemIds objs ++ itemIds objs' := by
  induction objs with
  | nil => rfl
  | cons obj objs ih => rw [List.cons_append, itemIds, itemIds, ih, List.append_assoc]

/-- The nodes of an object are those of its values. -/
theorem memberIds_eq (maps : List (List Char × JBaseObj F)) :
    memberIds maps = maps.flatMap fun p => p.2.ids := by
  induction maps with
  | nil => rfl
  | cons p maps ih =>
    obtain ⟨key, obj⟩ := p
    rw [memberIds, ih, List.flatMap_cons]

/-- The order of the keys does not change how often a node occurs. -/
theorem memberIds_perm {maps maps' : List (List Char × JBaseObj F)} (h : maps.Perm maps')
    (id : Nat) : (memberIds maps).count id = (memberIds maps').count id := by
  rw [memberIds_eq, memberIds_eq]
  exact (h.flatMap_right _).count_eq id

/-- The nodes of the value that a key had. -/
def oldIds : Option (JBaseObj F) → List Nat
  | none => []
  | some old => old.ids

/-- What a repeated key loses is leaked. -/
theorem leaked_leak (b : JsonBuff) (old : Option (JBaseObj F)) :
    (b.leak old).leaked = b.leaked ++ oldIds old := by
  cases old with
  | none => exact (List.append_nil _).symm
  | some old => rfl

/-- Storing exchanges the nodes of the key's old value for those of the new one. -/
theorem count_memberIds_store (cs : List Char) (obj : JBaseObj F)
    (objs : List (List Char × JBaseObj F)) (id : Nat) :
    (oldIds (SortedMap.find cs objs)).count id +
        (memberIds (SortedMap.store cs obj objs)).count id =
      obj.ids.count id + (memberIds objs).count id := by
  cases hfind : SortedMap.find cs objs with
  | none =>
    have hperm := memberIds_perm (SortedMap.store_perm_of_none hfind obj) id
    rw [hperm, memberIds, List.count_append, oldIds, List.count_nil]
    omega
  | some old =>
    have hperm := memberIds_perm (SortedMap.store_perm_of_some hfind obj) id
    rw [memberIds, memberIds, List.count_append, List.count_append] at hperm
    exact hperm

/-- A store gives up the value that the key had. -/
theorem Balanced.store {cs : List Char} {obj : JBaseObj F} {objs : List (List Char × JBaseObj F)}
    (h : Balanced b (live ++ memberIds objs ++ obj.ids)) :
    Balanced (b.leak (SortedMap.find cs objs))
      (live ++ memberIds (SortedMap.store cs obj objs)) := by
  intro id
  have hid := h id
  have hstore := count_memberIds_store cs obj objs id
  have hdeleted : (b.leak (SortedMap.find cs objs)).deleted = b.deleted := by
    cases SortedMap.find cs objs <;> rfl
  have hallocated : (b.leak (SortedMap.find cs objs)).allocated = b.allocated := by
    cases SortedMap.find cs objs <;> rfl
  rw [List.count_append, List.count_append] at hid
  rw [leaked_leak, hdeleted, hallocated, List.count_append, List.count_append]
  omega

/-! ## The functions -/

/-- Reading a string moves the text only. -/
theorem readStr_heap {s : Option (List Char)} (h : readStr b = (s, b')) :
    ∃ rest past, b' = { b with rest := rest, past := past } := by
  rw [readStr] at h
  split at h
  · dsimp only at h
    split at h
    · obtain ⟨-, rfl⟩ := Prod.mk.inj h
      exact ⟨_, _, rfl⟩
    · obtain ⟨-, rfl⟩ := Prod.mk.inj h
      exact ⟨_, _, rfl⟩
  · obtain ⟨-, rfl⟩ := Prod.mk.inj h
    exact ⟨_, _, rfl⟩

/-- Reading a key moves the text only. -/
theorem readKey_heap {s : Option (List Char)} (h : readKey b = (s, b')) :
    ∃ rest past, b' = { b with rest := rest, past := past } := by
  rw [readKey] at h
  -- only a quote starts a key, and the colon after it is skipped when it is there
  split at h
  · split at h
    · next cs b'' hstr =>
      obtain ⟨rest, past, rfl⟩ := readStr_heap hstr
      split at h
      · obtain ⟨-, rfl⟩ := Prod.mk.inj h
        exact ⟨_, _, rfl⟩
      · obtain ⟨-, rfl⟩ := Prod.mk.inj h
        exact ⟨_, _, rfl⟩
    · next b'' hstr =>
      obtain ⟨rest, past, rfl⟩ := readStr_heap hstr
      obtain ⟨-, rfl⟩ := Prod.mk.inj h
      exact ⟨_, _, rfl⟩
  · obtain ⟨-, rfl⟩ := Prod.mk.inj h
    exact ⟨_, _, rfl⟩

variable (float : FloatText F)

/-- A bare value is read or null is returned, and only the text has moved. -/
theorem readBaseStr_cases (b : JsonBuff) :
    ∃ rest past,
      (∃ v, readBaseStr (F := F) b = newValue { b with rest := rest, past := past } v) ∨
      readBaseStr (F := F) b = .null { b with rest := rest, past := past } := by
  rw [readBaseStr]
  split
  · next s b' hstr =>
    obtain ⟨rest, past, rfl⟩ := readStr_heap hstr
    exact ⟨_, _, .inl ⟨_, rfl⟩⟩
  · next b' hstr =>
    obtain ⟨rest, past, rfl⟩ := readStr_heap hstr
    exact ⟨_, _, .inr rfl⟩

/-- A scalar is one new node, or none. -/
theorem readBase_cases (b : JsonBuff) :
    ∃ rest past, (∃ v, readBase float b = newValue { b with rest := rest, past := past } v) ∨
      readBase float b = .null { b with rest := rest, past := past } ∨
      readBase float b = .thrown ({ b with rest := rest, past := past } : JsonBuff).alloc.2 := by
  cases readBase_spec float b with
  | word hw hs hv hres => exact ⟨_, b.past, .inl ⟨_, hres⟩⟩
  | number hlit hends hs hv hres => exact ⟨_, b.past, .inl ⟨_, hres⟩⟩
  | thrown hlit hends hs hv hres => exact ⟨_, b.past, .inr (.inr hres)⟩
  | @string mark r hmark hs hres =>
    obtain ⟨rest, past, ⟨v, hread⟩ | hread⟩ := readBaseStr_cases { b with rest := r }
    · exact ⟨rest, past, .inl ⟨v, hres.trans hread⟩⟩
    · exact ⟨rest, past, .inr (.inl (hres.trans hread))⟩
  | null r hres => exact ⟨r, b.past, .inr (.inl hres)⟩

/-! ## The rule of accounts -/

/-- A statement about the heap and the nodes held that every move of the reader keeps. -/
structure Account (F : Type) where
  Holds : JsonBuff → List Nat → Prop
  /-- what is left of it where no node is returned -/
  Ends : JsonBuff → List Nat → Prop
  of_rest : ∀ {b live} rest past, Holds b live → Holds { b with rest := rest, past := past } live
  of_count : ∀ {b live live'}, Holds b live → (∀ id, live'.count id = live.count id) →
    Holds b live'
  alloc : ∀ {b live}, Holds b live → Holds b.alloc.2 (live ++ [b.alloc.1])
  ends : ∀ {b live}, Holds b live → Ends b live
  delete : ∀ {b live ids}, Ends b (live ++ ids) → Ends (b.delete ids) live
  store : ∀ {b live cs} {obj : JBaseObj F} {objs : List (List Char × JBaseObj F)},
    Holds b (live ++ memberIds objs ++ obj.ids) →
    Holds (b.leak (SortedMap.find cs objs)) (live ++ memberIds (SortedMap.store cs obj objs))

namespace Account

/-- The statement when a function returns, for what its callers hold. -/
def After (A : Account F) (live : List Nat) : Res F → Prop
  | .node obj b => A.Holds b (live ++ obj.ids)
  | .null b => A.Ends b live
  | .thrown _ => True
  | .timeout => True

variable {A : Account F}

/-- Stepping over characters keeps a statement of accounts. -/
theorem go (h : A.Holds b live) (len : Nat) : A.Holds (b.go len) live := A.of_rest _ _ h

/-- Skipping the blanks keeps a statement of accounts. -/
theorem skip (h : A.Holds b live) : A.Holds b.skip live := A.of_rest _ b.past h

/-- A bare value returns one new node. -/
theorem readBase (h : A.Holds b live) : A.After live (readBase float b) := by
  obtain ⟨rest, past, ⟨v, hread⟩ | hread | hread⟩ := readBase_cases float b
  · rw [hread]
    exact A.alloc (A.of_rest rest past h)
  · rw [hread]
    exact A.ends (A.of_rest rest past h)
  · rw [hread]
    trivial

/-- At the bracket the array takes the nodes of its items. -/
theorem endArray {objs : List (JBaseObj F)} (h : A.Holds b (live ++ itemIds objs)) :
    A.After live (endArray objs b) := by
  rw [Json.endArray]
  split
  · refine A.of_count (A.alloc (go h 1)) fun id => ?_
    simp only [JsonBuff.alloc, JBaseObj.ids, List.count_append, List.count_cons, List.count_nil]
    omega
  · exact A.delete (A.ends h)

/-- At the brace the object takes the nodes of its values. -/
theorem endObj {objs : List (List Char × JBaseObj F)}
    (h : A.Holds b (live ++ memberIds objs)) : A.After live (endObj objs b) := by
  rw [Json.endObj]
  split
  · refine A.of_count (A.alloc (go h 1)) fun id => ?_
    simp only [JsonBuff.alloc, JBaseObj.ids, List.count_append, List.count_cons, List.count_nil]
    omega
  · exact A.delete (A.ends h)

/-- What every move keeps, every function of the reader keeps. -/
theorem reader (A : Account F) (fuel : Nat) :
    (∀ (b : JsonBuff) (live : List Nat), A.Holds b live →
      A.After live (reader float fuel b)) ∧
      (∀ (objs : List (JBaseObj F)) (b : JsonBuff) (live : List Nat),
        A.Holds b (live ++ itemIds objs) → A.After live (readItem float fuel objs b)) ∧
      ∀ (objs : List (List Char × JBaseObj F)) (b : JsonBuff) (live : List Nat),
        A.Holds b (live ++ memberIds objs) → A.After live (readMember float fuel objs b) := by
  induction fuel with
  | zero =>
    refine ⟨fun b live h => ?_, fun objs b live h => ?_, fun objs b live h => ?_⟩
    · rw [Json.reader]; trivial
    · rw [readItem]; trivial
    · rw [readMember]; trivial
  | succ fuel ih =>
    obtain ⟨ihReader, ihItem, ihMember⟩ := ih
    refine ⟨fun b live h => ?_, fun objs b live h => ?_, fun objs b live h => ?_⟩
    · have hnone : A.Holds (b.skip.go 1) (live ++ []) := by
        rw [List.append_nil]
        exact go (skip h) 1
      rw [Json.reader]
      dsimp only
      split
      · split
        · exact ihItem [] _ live hnone
        · exact endArray (show A.Holds _ (live ++ itemIds []) from hnone)
      · split
        · split
          · exact ihMember [] _ live hnone
          · exact endObj (show A.Holds _ (live ++ memberIds []) from hnone)
        · exact readBase float (skip h)
    · have hread := ihReader b _ h
      rw [readItem]
      split
      · next obj b' hnode =>
        rw [hnode] at hread
        -- the new item is held with those before it
        have hitems : A.Holds b' (live ++ itemIds (objs ++ [obj])) := by
          rw [itemIds_append, itemIds, itemIds, List.append_nil, ← List.append_assoc]
          exact hread
        dsimp only
        split
        · exact ihItem _ _ live (go (skip hitems) 1)
        · split
          · exact ihItem _ _ live (skip hitems)
          · exact endArray (skip hitems)
      · next b' hnull =>
        rw [hnull] at hread
        exact A.delete hread
      · trivial
      · trivial
    · rw [readMember]
      split
      · next b' hkey =>
        obtain ⟨rest, past, rfl⟩ := readKey_heap hkey
        exact A.delete (A.ends (A.of_rest rest past h))
      · next cs b' hkey =>
        obtain ⟨rest, past, rfl⟩ := readKey_heap hkey
        have hread := ihReader _ _ (A.of_rest rest past h)
        split
        · next obj b'' hnode =>
          rw [hnode] at hread
          have hmembers : A.Holds (b''.leak (SortedMap.find cs objs))
              (live ++ memberIds (SortedMap.store cs obj objs)) := A.store hread
          dsimp only
          split
          · exact ihMember _ _ live (go (skip hmembers) 1)
          · split
            · exact ihMember _ _ live (skip hmembers)
            · exact endObj (skip hmembers)
        · next b'' hnull =>
          rw [hnull] at hread
          exact A.delete hread
        · trivial
        · trivial

end Account

/-! ## What the functions keep -/

/-- Every node is accounted for. -/
def Account.balanced : Account F where
  Holds := Balanced
  Ends := Balanced
  of_rest rest past h := h.of_rest rest past
  of_count h hcount := h.of_count hcount
  alloc h := h.alloc
  ends h := h
  delete h := h.delete
  store h := h.store

/-- A node comes with nothing deleted. -/
def Res.Keeps (b : JsonBuff) : Res F → Prop
  | .node _ b' => b'.deleted = b.deleted
  | _ => True

/-- The leaked nodes are those from before and maybe others. -/
def Res.Leaks (n : Nat) : Res F → Prop
  | .node _ b' => n ≤ b'.leaked.length
  | .null b' => n ≤ b'.leaked.length
  | _ => True

/-- A leak deletes nothing. -/
theorem deleted_leak (b : JsonBuff) (old : Option (JBaseObj F)) :
    (b.leak old).deleted = b.deleted := by
  cases old <;> rfl

/-- A leak only adds to the leaked nodes. -/
theorem leaks_leak {n : Nat} (h : n ≤ b.leaked.length) (old : Option (JBaseObj F)) :
    n ≤ (b.leak old).leaked.length := by
  rw [leaked_leak, List.length_append]
  omega

/-- Nothing is deleted, as long as a node may be returned. -/
def Account.kept (deleted : List Nat) : Account F where
  Holds b _ := b.deleted = deleted
  Ends _ _ := True
  of_rest _ _ h := h
  of_count h _ := h
  alloc h := h
  ends _ := trivial
  delete _ := trivial
  store h := (deleted_leak _ _).trans h

/-- There are some leaked nodes. -/
def Account.leaked (n : Nat) : Account F where
  Holds b _ := n ≤ b.leaked.length
  Ends b _ := n ≤ b.leaked.length
  of_rest _ _ h := h
  of_count h _ := h
  alloc h := h
  ends h := h
  delete h := h
  store h := leaks_leak h _

/-- The account of all nodes, as a statement about the result. -/
theorem Account.balanced_after {res : Res F} (h : Account.balanced.After live res) :
    res.Balanced live := by
  cases res <;> exact h

/-- The account of the deleted nodes, as a statement about the result. -/
theorem Account.kept_after {res : Res F} (h : (Account.kept b.deleted).After live res) :
    res.Keeps b := by
  cases res <;> exact h

/-- The account of the leaked nodes, as a statement about the result. -/
theorem Account.leaked_after {n : Nat} {res : Res F} (h : (Account.leaked n).After live res) :
    res.Leaks n := by
  cases res <;> exact h

/-- Every node that a function allocates is accounted for when it returns. -/
theorem reader_balanced (fuel : Nat) (h : Balanced b live) :
    (reader float fuel b).Balanced live :=
  Account.balanced_after ((Account.reader float .balanced fuel).1 b live h)

/-- A function that returns a node has deleted none. -/
theorem reader_keeps (fuel : Nat) (b : JsonBuff) : (reader float fuel b).Keeps b :=
  Account.kept_after ((Account.reader float (.kept b.deleted) fuel).1 b [] rfl)

/-- The end of an array takes no leak back. -/
theorem endArray_leaks {n : Nat} (h : n ≤ b.leaked.length) (objs : List (JBaseObj F)) :
    (endArray objs b).Leaks n := by
  have hafter : (Account.leaked n).After [] (endArray objs b) := Account.endArray h
  exact Account.leaked_after hafter

/-- The end of an object takes no leak back. -/
theorem endObj_leaks {n : Nat} (h : n ≤ b.leaked.length) (objs : List (List Char × JBaseObj F)) :
    (endObj objs b).Leaks n := by
  have hafter : (Account.leaked n).After [] (endObj objs b) := Account.endObj h
  exact Account.leaked_after hafter

/-- A node that is leaked before a call is leaked after it. -/
theorem reader_leaks (fuel : Nat) :
    (∀ (b : JsonBuff) (n : Nat), n ≤ b.leaked.length → (reader float fuel b).Leaks n) ∧
      (∀ (objs : List (JBaseObj F)) (b : JsonBuff) (n : Nat), n ≤ b.leaked.length →
        (readItem float fuel objs b).Leaks n) ∧
      ∀ (objs : List (List Char × JBaseObj F)) (b : JsonBuff) (n : Nat), n ≤ b.leaked.length →
        (readMember float fuel objs b).Leaks n :=
  ⟨fun b n h => Account.leaked_after ((Account.reader float (.leaked n) fuel).1 b [] h),
    fun objs b n h => Account.leaked_after ((Account.reader float (.leaked n) fuel).2.1 objs b [] h),
    fun objs b n h => Account.leaked_after ((Account.reader float (.leaked n) fuel).2.2 objs b [] h)⟩

end Json

end Athena
