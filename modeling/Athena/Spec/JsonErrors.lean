import Athena.Spec.JsonNodes

/-!
# The errors of the JSON reader

Two things go wrong in the reader: the conversion of a literal that is out of range throws,
with no one to catch it, and a key that an object has already takes the last pointer from
the value it had.  `Meets` says that the reader comes to one of them in a text.  Without
them every node is deleted or returned, and with them never.

## Key results

- `meets_spoils`: what the reader meets it does not recover from
- `reader_clean`: otherwise it neither throws nor leaks
- `parser_clean_iff`: the same for the parser
- `reader_int_exact`: an integer is the one its literal denotes
-/

namespace Athena

namespace Json

open JsonBuff

variable {F : Type} (float : FloatText F)

/-! ## What the reader may meet -/

/-- What is read: a value, items, or members after those with some keys. -/
inductive Reading where
  | value
  | items
  | members (keys : List (List Char))

/-- The reader comes to a literal whose conversion throws, or stores a value under a key
that its object has already. -/
inductive Meets : Reading → List Char → Prop
  | literal {s sign run r : List Char} (hs : skipBlanks s = sign ++ (run ++ r))
    (hlit : Literal sign run) (hends : Ends r)
    (hnone : number float ('.' ∈ run) (skipBlanks s) = none) : Meets .value s
  | array {s t : List Char} (hs : skipBlanks s = '[' :: t) (ht : Meets .items t) : Meets .value s
  | object {s t : List Char} (hs : skipBlanks s = '{' :: t) (ht : Meets (.members []) t) :
    Meets .value s
  | item {s : List Char} (hs : Meets .value s) : Meets .items s
  | nextItem {s t t' : List Char} (hs : Reads (codeRules float) .value s t)
    (hsep : Separates (codeRules float) t t') (ht : Meets .items t') : Meets .items s
  | memberValue {keys : List (List Char)} {cs s t : List Char}
    (hkey : Key (codeRules float) cs s t) (ht : Meets .value t) : Meets (.members keys) s
  | repeated {keys : List (List Char)} {cs s t t' : List Char}
    (hkey : Key (codeRules float) cs s t) (ht : Reads (codeRules float) .value t t')
    (hmem : cs ∈ keys) : Meets (.members keys) s
  | nextMember {keys : List (List Char)} {cs s t t' t'' : List Char}
    (hkey : Key (codeRules float) cs s t) (ht : Reads (codeRules float) .value t t')
    (hsep : Separates (codeRules float) t' t'') (ht' : Meets (.members (cs :: keys)) t'') :
    Meets (.members keys) s

variable {float}

/-- A value with an error begins like a value. -/
theorem Meets.value_head {s : List Char} (h : Meets float .value s) :
    ∃ c t, skipBlanks s = c :: t ∧ (isStart c = true ∨ c = '[' ∨ c = '{') := by
  cases h with
  | literal hs hlit hends hnone =>
    obtain ⟨c, t, hhead, hc⟩ := hlit.start hs
    exact ⟨c, t, hhead, .inl hc⟩
  | array hs ht => exact ⟨'[', _, hs, .inr (.inl rfl)⟩
  | object hs ht => exact ⟨'{', _, hs, .inr (.inr rfl)⟩

/-- Items with an error begin like a value. -/
theorem Meets.items_head {s : List Char} (h : Meets float .items s) :
    ∃ c t, skipBlanks s = c :: t ∧ (isStart c = true ∨ c = '[' ∨ c = '{') := by
  cases h with
  | item hs => exact hs.value_head
  | nextItem hs hsep ht => exact hs.value_head

/-- Members with an error begin with a key. -/
theorem Meets.members_head {keys : List (List Char)} {s : List Char}
    (h : Meets float (.members keys) s) : ∃ t, skipBlanks s = '"' :: t := by
  cases h with
  | memberValue hkey ht => exact hkey.skip
  | repeated hkey ht hmem => exact hkey.skip
  | nextMember hkey ht hsep ht' => exact hkey.skip

/-! ## What it does not recover from -/

/-- An exception, or more leaked nodes than before. -/
def Res.Spoiled (n : Nat) : Res F → Prop
  | .node _ b => n < b.leaked.length
  | .null b => n < b.leaked.length
  | .thrown _ => True
  | .timeout => False

/-- One leaked node more is enough. -/
theorem Res.spoiled_of_leaks {n : Nat} {res : Res F} (h : res.Leaks (n + 1))
    (htimeout : res ≠ .timeout) : res.Spoiled n := by
  cases res with
  | node obj b => exact h
  | null b => exact h
  | thrown b => trivial
  | timeout => exact absurd rfl htimeout

/-- It is the worse for having begun with more. -/
theorem Res.Spoiled.mono {n m : Nat} (hle : n ≤ m) {res : Res F} (h : res.Spoiled m) :
    res.Spoiled n := by
  cases res with
  | node obj b => exact Nat.lt_of_le_of_lt hle h
  | null b => exact Nat.lt_of_le_of_lt hle h
  | thrown b => trivial
  | timeout => exact h

/-- Every value has a node. -/
theorem ids_pos (obj : JBaseObj F) : 0 < obj.ids.length := by
  cases obj <;> simp [JBaseObj.ids]

/-- A call that meets an error ends badly, whatever is around it. -/
def Spoils (float : FloatText F) (fuel : Nat) (b : JsonBuff) : Reading → Prop
  | .value => (reader float fuel b).Spoiled b.leaked.length
  | .items => ∀ objs, (readItem float fuel objs b).Spoiled b.leaked.length
  | .members keys => ∀ objs : List (List Char × JBaseObj F),
    (∀ cs ∈ keys, SortedMap.find cs objs ≠ none) →
      (readMember float fuel objs b).Spoiled b.leaked.length

/-- The function that reads it. -/
def Reading.kind : Reading → Kind
  | .value => .value
  | .items => .items
  | .members _ => .members

/-- An item that ends badly spoils the items. -/
theorem readItem_spoiled {fuel : Nat} {b : JsonBuff} {n : Nat}
    (h : (reader float fuel b).Spoiled n) (objs : List (JBaseObj F))
    (hfuel : 2 * b.rest.length + 2 ≤ fuel + 1) : (readItem float (fuel + 1) objs b).Spoiled n := by
  have hfinish := (reader_finishes float (fuel + 1)).2.1 objs b hfuel
  rw [readItem] at hfinish ⊢
  cases hres : reader float fuel b with
  | node obj b' =>
    rw [hres] at h hfinish
    dsimp only at hfinish ⊢
    have hskip : n + 1 ≤ b'.skip.leaked.length := h
    refine Res.spoiled_of_leaks ?_ hfinish
    split
    · exact (reader_leaks float fuel).2.1 _ _ _ hskip
    · split
      · exact (reader_leaks float fuel).2.1 _ _ _ hskip
      · exact endArray_leaks hskip _
  | null b' =>
    rw [hres] at h
    exact h
  | thrown b' => trivial
  | timeout =>
    rw [hres] at h
    exact h

/-- The rest of an object does not undo what its value or its store has leaked. -/
theorem readMember_spoiled {fuel : Nat} {b b₁ : JsonBuff} {cs : List Char} {n : Nat}
    {objs : List (List Char × JBaseObj F)} (hkey : readKey b = (some cs, b₁))
    (h : match reader float fuel b₁ with
      | .node _ b₂ => n < (b₂.leak (SortedMap.find cs objs)).leaked.length
      | res => res.Spoiled n)
    (hfuel : 2 * b.rest.length + 2 ≤ fuel + 1) :
    (readMember float (fuel + 1) objs b).Spoiled n := by
  have hfinish := (reader_finishes float (fuel + 1)).2.2 objs b hfuel
  rw [readMember, hkey] at hfinish ⊢
  dsimp only at hfinish ⊢
  cases hres : reader float fuel b₁ with
  | node obj b₂ =>
    rw [hres] at h hfinish
    -- what follows the member takes no leak back
    dsimp only at h hfinish ⊢
    have hskip : n + 1 ≤ (b₂.leak (SortedMap.find cs objs)).skip.leaked.length := h
    refine Res.spoiled_of_leaks ?_ hfinish
    split
    · exact (reader_leaks float fuel).2.2 _ _ _ hskip
    · split
      · exact (reader_leaks float fuel).2.2 _ _ _ hskip
      · exact endObj_leaks hskip _
  | null b₂ =>
    rw [hres] at h
    exact h
  | thrown b₂ => trivial
  | timeout =>
    rw [hres] at h
    exact h

/-- What the reader meets it does not recover from. -/
theorem meets_spoils {p : Reading} {s : List Char} (h : Meets float p s) :
    ∀ (fuel : Nat) (b : JsonBuff), b.rest = s → Enough fuel s p.kind → Spoils float fuel b p := by
  induction h with
  -- on how the reader comes to the error; what it has read before that goes well
  | @literal s sign run r hs hlit hends hnone =>
    rintro (_ | fuel) b rfl hfuel
    · exact absurd hfuel (Nat.not_succ_le_zero _)
    · obtain ⟨c, t, hhead, hc⟩ := hlit.start hs
      have hread := readBase_literal float (b := b.skip) hlit hends hs
      have hnone' : number float ('.' ∈ run) b.skip.rest = none := hnone
      rw [hnone'] at hread
      rw [Spoils, reader_start float hhead hc, hread]
      trivial
  | array hs ht ih =>
    rintro (_ | fuel) b rfl hfuel
    · exact absurd hfuel (Nat.not_succ_le_zero _)
    · have hlt := length_of_skip hs
      have hitems := ih fuel { b with rest := _ } rfl
        (by simp only [Enough, Reading.kind] at hfuel ⊢; omega) []
      rw [Spoils, reader_array float hs ht.items_head]
      exact hitems
  | object hs ht ih =>
    rintro (_ | fuel) b rfl hfuel
    · exact absurd hfuel (Nat.not_succ_le_zero _)
    · have hlt := length_of_skip hs
      have hmembers := ih fuel { b with rest := _ } rfl
        (by simp only [Enough, Reading.kind] at hfuel ⊢; omega) [] (List.forall_mem_nil _)
      rw [Spoils, reader_object float hs ht.members_head]
      exact hmembers
  | item hs ih =>
    rintro (_ | fuel) b rfl hfuel objs
    · exact absurd hfuel (Nat.not_succ_le_zero _)
    · have hvalue := ih fuel b rfl (by simp only [Enough, Reading.kind] at hfuel ⊢; omega)
      exact readItem_spoiled hvalue objs hfuel
  | nextItem hs hsep ht ih =>
    rintro (_ | fuel) b rfl hfuel objs
    · exact absurd hfuel (Nat.not_succ_le_zero _)
    · have hlt := hs.shorter
      have hle := hsep.length_le
      obtain ⟨obj, b₁, hnode, rfl⟩ := reader_complete float hs fuel b rfl
        (by simp only [Enough, Reading.kind] at hfuel ⊢; omega)
      have hleaks := (reader_leaks float fuel).1 b _ (Nat.le_refl _)
      rw [hnode] at hleaks
      have hitems := ih fuel { b₁ with rest := _ } rfl
        (by simp only [Enough, Reading.kind] at hfuel ⊢; omega) (objs ++ [obj])
      rw [readItem_next float hnode hsep ht.items_head]
      exact hitems.mono hleaks
  | memberValue hkey ht ih =>
    rintro (_ | fuel) b rfl hfuel objs hkeys
    · exact absurd hfuel (Nat.not_succ_le_zero _)
    · have hlt := hkey.shorter
      have hvalue := ih fuel { b with rest := _ } rfl
        (by simp only [Enough, Reading.kind] at hfuel ⊢; omega)
      refine readMember_spoiled (readKey_complete float hkey) ?_ hfuel
      rw [Spoils] at hvalue
      split
      · next obj b₂ hnode =>
        rw [hnode] at hvalue
        exact Nat.lt_of_lt_of_le hvalue (leaks_leak (Nat.le_refl _) _)
      · exact hvalue
  | @repeated keys cs s t t' hkey ht hmem =>
    rintro (_ | fuel) b rfl hfuel objs hkeys
    · exact absurd hfuel (Nat.not_succ_le_zero _)
    · have hlt := hkey.shorter
      obtain ⟨obj, b₂, hnode, rfl⟩ := reader_complete float ht fuel { b with rest := _ } rfl
        (by simp only [Enough, Reading.kind] at hfuel ⊢; omega)
      have hleaks := (reader_leaks float fuel).1 { b with rest := t } _ (Nat.le_refl _)
      rw [hnode] at hleaks
      have hleaks : b.leaked.length ≤ b₂.leaked.length := hleaks
      refine readMember_spoiled (readKey_complete float hkey) ?_ hfuel
      rw [hnode]
      dsimp only
      -- the store takes the last pointer from the old value
      obtain ⟨old, hold⟩ := Option.ne_none_iff_exists'.mp (hkeys _ hmem)
      have hpos := ids_pos old
      rw [hold, leaked_leak, List.length_append, oldIds]
      omega
  | @nextMember keys cs s t t' t'' hkey ht hsep ht' ih =>
    rintro (_ | fuel) b rfl hfuel objs hkeys
    · exact absurd hfuel (Nat.not_succ_le_zero _)
    · have hltKey := hkey.shorter
      have hlt := ht.shorter
      have hle := hsep.length_le
      obtain ⟨obj, b₂, hnode, rfl⟩ := reader_complete float ht fuel { b with rest := _ } rfl
        (by simp only [Enough, Reading.kind] at hfuel ⊢; omega)
      have hleaks := (reader_leaks float fuel).1 { b with rest := t } _ (Nat.le_refl _)
      rw [hnode] at hleaks
      have hkeys' : ∀ cs' ∈ cs :: keys, SortedMap.find cs' (SortedMap.store cs obj objs) ≠ none := by
        -- a key stays in the map once it is there
        intro cs' hcs'
        by_cases heq : cs' = cs
        · rw [heq, SortedMap.find_store_self]
          exact Option.some_ne_none obj
        · rw [SortedMap.find_store_ne heq]
          exact hkeys cs' ((List.mem_cons.mp hcs').resolve_left heq)
      have hmembers := ih fuel { stored b₂ objs cs with rest := t'' } rfl
        (by simp only [Enough, Reading.kind] at hfuel ⊢; omega) _ hkeys'
      rw [readMember_next float (readKey_complete float hkey) hnode hsep ht'.members_head]
      exact hmembers.mono (leaks_leak hleaks _)

/-! ## What goes well -/

/-- No exception, and no more leaked nodes. -/
def Res.Clean (leaked : List Nat) : Res F → Prop
  | .node _ b => b.leaked = leaked
  | .null b => b.leaked = leaked
  | .thrown _ => False
  | .timeout => True

variable (float)

/-- An exception comes from a literal that does not convert. -/
theorem readBase_clean {s : List Char} {b : JsonBuff} (hs : skipBlanks s = b.rest)
    (h : ¬Meets float .value s) : (readBase float b).Clean b.leaked := by
  cases readBase_spec float b with
  | word hw hrest hv hres =>
    rw [hres]
    rfl
  | number hlit hends hrest hv hres =>
    rw [hres]
    rfl
  | thrown hlit hends hrest hv hres =>
    rw [← hs] at hv
    exact absurd (.literal (hs.trans hrest) hlit hends hv) h
  | @string mark r hmark hrest hres =>
    obtain ⟨rest, past, ⟨v, hread⟩ | hread⟩ := readBaseStr_cases { b with rest := r }
    · rw [hres, hread]
      rfl
    · rw [hres, hread]
      rfl
  | null r hres =>
    rw [hres]
    rfl

/-- The end of an array leaks nothing. -/
theorem endArray_clean (objs : List (JBaseObj F)) (b : JsonBuff) :
    (endArray objs b).Clean b.leaked := by
  rw [endArray]
  split <;> rfl

/-- The end of an object leaks nothing. -/
theorem endObj_clean (objs : List (List Char × JBaseObj F)) (b : JsonBuff) :
    (endObj objs b).Clean b.leaked := by
  rw [endObj]
  split <;> rfl

/-- A reader that meets no error neither throws nor leaks. -/
theorem reader_clean (fuel : Nat) :
    (∀ b : JsonBuff, ¬Meets float .value b.rest → (reader float fuel b).Clean b.leaked) ∧
      (∀ (objs : List (JBaseObj F)) (b : JsonBuff), ¬Meets float .items b.rest →
        (readItem float fuel objs b).Clean b.leaked) ∧
      ∀ (objs : List (List Char × JBaseObj F)) (keys : List (List Char)) (b : JsonBuff),
        (∀ cs, SortedMap.find cs objs ≠ none → cs ∈ keys) →
        ¬Meets float (.members keys) b.rest → (readMember float fuel objs b).Clean b.leaked := by
  induction fuel with
  | zero =>
    refine ⟨fun b h => ?_, fun objs b h => ?_, fun objs keys b hkeys h => ?_⟩
    · rw [reader]; trivial
    · rw [readItem]; trivial
    · rw [readMember]; trivial
  | succ fuel ih =>
    obtain ⟨ihReader, ihItem, ihMember⟩ := ih
    refine ⟨fun b h => ?_, fun objs b h => ?_, fun objs keys b hkeys h => ?_⟩
    · rw [reader]
      dsimp only
      split
      · next hopen =>
        obtain ⟨t, ht⟩ := rest_of_curr_eq hopen (by decide)
        rw [go_one ht]
        split
        · exact ihItem [] { b.skip with rest := t } fun hitems => h (.array ht hitems)
        · exact endArray_clean _ _
      · split
        · next hopen =>
          obtain ⟨t, ht⟩ := rest_of_curr_eq hopen (by decide)
          rw [go_one ht]
          split
          · exact ihMember [] [] { b.skip with rest := t } (fun cs hcs => absurd rfl hcs)
              fun hmembers => h (.object ht hmembers)
          · exact endObj_clean _ _
        · exact readBase_clean float (b := b.skip) rfl h
    · have hread := ihReader b fun hvalue => h (.item hvalue)
      rw [readItem]
      split
      · next obj b' hnode =>
        rw [hnode] at hread
        have hvalue := (reader_sound float fuel).1 _ _ _ hnode
        have hread : b'.leaked = b.leaked := hread
        rw [← hread]
        dsimp only
        split
        · next hcomma =>
          exact ihItem _ (b'.skip.go 1) fun hitems =>
            h (.nextItem hvalue (separates_comma hcomma _) hitems)
        · split
          · refine ihItem _ b'.skip fun hitems => h ?_
            -- the loop goes on without a comma
            obtain ⟨c, t, hs, hc⟩ := hitems.items_head
            exact .nextItem hvalue (separates_start rfl hs hc) hitems
          · exact endArray_clean _ b'.skip
      · next b' hnull =>
        rw [hnull] at hread
        exact hread
      · next b' hthrown =>
        rw [hthrown] at hread
        exact hread
      · trivial
    · rw [readMember]
      split
      · next b' hkey =>
        obtain ⟨rest, past, rfl⟩ := readKey_heap hkey
        rfl
      · next cs b' hkey =>
        have hkey' := readKey_sound float hkey
        obtain ⟨rest, past, rfl⟩ := readKey_heap hkey
        have hread := ihReader { b with rest := rest, past := past } fun hvalue =>
          h (.memberValue hkey' hvalue)
        split
        · next obj b'' hnode =>
          rw [hnode] at hread
          have hvalue := (reader_sound float fuel).1 _ _ _ hnode
          have hread : b''.leaked = b.leaked := hread
          -- the key is a new one
          have hnew : SortedMap.find cs objs = none := by
            by_contra hold
            exact h (.repeated hkey' hvalue (hkeys cs hold))
          have hkeys' : ∀ cs', SortedMap.find cs' (SortedMap.store cs obj objs) ≠ none →
              -- the map has the keys that were read and no others
              cs' ∈ cs :: keys := by
            intro cs' hfind
            by_cases heq : cs' = cs
            · rw [heq]
              exact List.mem_cons_self
            · rw [SortedMap.find_store_ne heq] at hfind
              exact List.mem_cons_of_mem _ (hkeys cs' hfind)
          rw [hnew, ← hread]
          dsimp only
          split
          · next hcomma =>
            exact ihMember _ (cs :: keys) (b''.skip.go 1) hkeys' fun hmembers =>
              h (.nextMember hkey' hvalue (separates_comma hcomma _) hmembers)
          · split
            · refine ihMember _ (cs :: keys) b''.skip hkeys' fun hmembers => h ?_
              obtain ⟨t, hs⟩ := hmembers.members_head
              exact .nextMember hkey' hvalue (separates_start rfl hs (.inl (by decide))) hmembers
            · exact endObj_clean _ b''.skip
        · next b'' hnull =>
          rw [hnull] at hread
          exact hread
        · next b'' hthrown =>
          rw [hthrown] at hread
          exact hread
        · trivial

/-! ## Integers -/

/-- An integer node is the integer of its literal. -/
theorem readBase_int_exact {b b' : JsonBuff} {id : Nat} {v : Int32}
    (h : readBase float b = .node (.value id (.eJ_INT v)) b') :
    ∃ sign run, b.rest = sign ++ (run ++ b'.rest) ∧ Literal sign run ∧ Ends b'.rest ∧
      '.' ∉ run ∧ v.toInt = denotes sign run := by
  cases readBase_spec float b with
  | word hw hs hv hres =>
    obtain ⟨hobj, -⟩ := Res.node.inj (hres.symm.trans h)
    obtain rfl | ⟨bv, rfl⟩ := hv <;> cases hobj
  | @number sign run r v' hlit hends hs hv hres =>
    obtain ⟨hobj, rfl⟩ := Res.node.inj (hres.symm.trans h)
    obtain ⟨-, rfl⟩ := JBaseObj.value.inj hobj
    -- a literal with a dot is no integer
    have hdot : '.' ∉ run := by
      intro hmem
      rw [number, if_pos (decide_eq_true hmem), Option.map_eq_some_iff] at hv
      obtain ⟨_, _, hfloat⟩ := hv
      cases hfloat
    rw [number, if_neg (by simpa using hdot), Option.map_eq_some_iff] at hv
    obtain ⟨v', hstoi, hint⟩ := hv
    obtain rfl := JValue.eJ_INT.inj hint
    rw [hs, stoi_literal hlit hdot hends] at hstoi
    split at hstoi
    · next hrange =>
      obtain rfl := Option.some.inj hstoi
      exact ⟨sign, run, hs, hlit, hends, hdot, Int32.toInt_ofInt_of_le hrange.1 hrange.2⟩
    · cases hstoi
  | thrown hlit hends hs hv hres => cases hres.symm.trans h
  | @string mark r hmark hs hres =>
    rw [hres, readBaseStr] at h
    split at h <;> cases h
  | null r hres => cases hres.symm.trans h

/-! ## The parser -/

/-- What is left of a text when its tree, or no tree, is given to the caller. -/
structure Handled (float : FloatText F) (str : Text) : Prop where
  /-- no exception leaves the parser -/
  caught : ∀ b, parser float str ≠ .thrown b
  /-- an integer is the one its literal denotes -/
  exact : ∀ b b' id v, readBase float b = .node (.value id (.eJ_INT v)) b' →
    ∃ sign run, b.rest = sign ++ (run ++ b'.rest) ∧ Literal sign run ∧ Ends b'.rest ∧
      '.' ∉ run ∧ v.toInt = denotes sign run
  /-- without a tree every node is deleted, once -/
  deleted : ∀ b, parser float str = .null b → ∀ id < b.allocated, b.deleted.count id = 1
  /-- every node is in the tree -/
  reachable : ∀ obj b, parser float str = .node obj b → ∀ id < b.allocated, id ∈ obj.ids

/-- Without errors the text is handled as it should be. -/
theorem handled_of_clean {str : Text} (h : ¬Meets float .value str.bytes) :
    Handled float str := by
  have hclean := (reader_clean float (depth str.bytes)).1 (.new str) h
  have hbalanced := reader_balanced float (depth str.bytes) (.new str)
  have hkeeps := reader_keeps float (depth str.bytes) (.new str)
  refine ⟨fun b hthrown => ?_, fun b b' id v => readBase_int_exact float, fun b hnull id hid => ?_,
    fun obj b hnode id hid => ?_⟩
  -- nothing is thrown past `parser`
  · rw [parser] at hthrown
    dsimp only at hthrown
    split at hthrown
    · split at hthrown <;> cases hthrown
    · cases hthrown
    · next b' hread =>
      rw [hread] at hclean
      exact hclean
    · cases hthrown
  -- `nullptr`: each object was deleted, and once
  · rw [parser] at hnull
    dsimp only at hnull
    split at hnull
    · next obj b' hread =>
      rw [hread] at hclean hbalanced
      have hleaked : b'.leaked = [] := hclean
      split at hnull
      · obtain rfl := Res.null.inj hnull
        -- the tree that was read is deleted as text was left
        have hid : id < b'.allocated := hid
        have hdelete := Balanced.delete hbalanced id
        have hcount : (b'.skip.delete obj.ids).deleted.count id + b'.leaked.count id +
            ([] : List Nat).count id = if id < b'.allocated then 1 else 0 := hdelete
        rw [hleaked, List.count_nil, if_pos hid] at hcount
        omega
      · cases hnull
    · next b' hread =>
      rw [hread] at hclean hbalanced
      have hleaked : b'.leaked = [] := hclean
      obtain rfl := Res.null.inj hnull
      have hid : id < b'.allocated := hid
      have hcount : b'.deleted.count id + b'.leaked.count id + ([] : List Nat).count id =
          if id < b'.allocated then 1 else 0 := hbalanced id
      rw [hleaked, List.count_nil, if_pos hid] at hcount
      exact hcount
    · cases hnull
    · cases hnull
  -- a tree: nothing was deleted, so each object is in it
  · rw [parser] at hnode
    dsimp only at hnode
    split at hnode
    · next obj' b' hread =>
      rw [hread] at hclean hbalanced hkeeps
      have hleaked : b'.leaked = [] := hclean
      have hdeleted : b'.deleted = [] := hkeeps
      split at hnode
      · cases hnode
      · obtain ⟨rfl, rfl⟩ := Res.node.inj hnode
        have hid : id < b'.allocated := hid
        have hcount : b'.deleted.count id + b'.leaked.count id + obj'.ids.count id =
          if id < b'.allocated then 1 else 0 := hbalanced id
        rw [hleaked, hdeleted, List.count_nil, if_pos hid] at hcount
        exact List.count_pos_iff.mp (by omega)
    · cases hnode
    · cases hnode
    · cases hnode

/-- A leaked node is neither deleted nor in a tree. -/
theorem Balanced.leaked_lost {b : JsonBuff} {live : List Nat} (h : Balanced b live)
    (hleaked : 0 < b.leaked.length) :
    ∃ id < b.allocated, b.deleted.count id = 0 ∧ live.count id = 0 := by
  obtain ⟨id, hid⟩ := List.exists_mem_of_length_pos hleaked
  have hpos := List.count_pos_iff.mpr hid
  have hcount := h id
  split at hcount
  · next hlt => exact ⟨id, hlt, by omega, by omega⟩
  · omega

/-- With an error it is not. -/
theorem not_handled_of_meets {str : Text} (h : Meets float .value str.bytes) :
    ¬Handled float str := by
  intro hhandled
  have hspoils : (reader float (depth str.bytes) (.new str)).Spoiled 0 :=
    meets_spoils h (depth str.bytes) (.new str) rfl (Nat.le_refl _)
  have hbalanced := reader_balanced float (depth str.bytes) (.new str)
  -- one object is lost: it is neither deleted nor in the tree
  cases hread : reader float (depth str.bytes) (.new str) with
  | node obj b =>
    rw [hread] at hspoils hbalanced
    obtain ⟨id, hlt, hdeleted, hlive⟩ := hbalanced.leaked_lost hspoils
    -- the tree goes with the text that is left, but not the lost object
    by_cases hend : b.skip.curr ≠ '\x00'
    · have hnull : parser float str = .null (b.skip.delete obj.ids) := by
        rw [parser]
        dsimp only
        rw [hread]
        exact if_pos hend
      have hone := hhandled.deleted _ hnull id hlt
      have hzero : (b.skip.delete obj.ids).deleted.count id = 0 := by
        show (b.deleted ++ obj.ids).count id = 0
        rw [List.count_append, hdeleted, Nat.zero_add]
        exact hlive
      omega
    -- it is not in the tree that is returned
    · have hnode : parser float str = .node obj b.skip := by
        rw [parser]
        dsimp only
        rw [hread]
        exact if_neg hend
      have hmem := hhandled.reachable _ _ hnode id hlt
      exact List.count_eq_zero.mp hlive hmem
  | null b =>
    rw [hread] at hspoils hbalanced
    obtain ⟨id, hlt, hdeleted, -⟩ := Balanced.leaked_lost hbalanced hspoils
    have hnull : parser float str = .null b.skip := by
      rw [parser]
      dsimp only
      rw [hread]
    have hone := hhandled.deleted _ hnull id hlt
    have hzero : b.skip.deleted.count id = 0 := hdeleted
    omega
  | thrown b =>
    have hthrown : parser float str = .thrown b := by
      rw [parser]
      dsimp only
      rw [hread]
    exact hhandled.caught b hthrown
  | timeout =>
    rw [hread] at hspoils
    exact hspoils

/-- The parser neither throws nor loses a node just when the reader comes to no literal
that does not convert and to no key that its object has already. -/
theorem parser_clean_iff (float : FloatText F) (str : Text) :
    Handled float str ↔ ¬Meets float .value str.bytes :=
  ⟨fun hhandled hmeets => not_handled_of_meets float hmeets hhandled, handled_of_clean float⟩

/-- The integer `99999999999`. -/
def bigNumber : Text := ⟨"99999999999".toList, by decide⟩

/-- An integer that does not fit throws, and no one catches it. -/
theorem bigNumber_throws : ¬Handled (F := Empty) ⟨Empty.elim, fun _ => none⟩ bigNumber := by
  intro h
  exact h.caught _ rfl

end Json

end Athena
