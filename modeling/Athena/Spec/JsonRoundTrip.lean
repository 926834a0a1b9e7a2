import Athena.Spec.JsonAccepts

/-!
# JSON trees written and read

What `write` makes of a tree the reader reads back, as long as no string and no key is empty
or has a quote inside, and no container is empty where there is a layout: `write` puts a
line break into it, and the reader does not look past it for the bracket.

## Key results

- `reader_write`: a plain tree comes back
- `plain_of_reads`: a tree that is written and read is plain
- `parser_write_iff`: the trees that come back
-/

namespace Athena

namespace Json

open JsonBuff

variable {F : Type}

/-! ## Trees -/

mutual

/-- A property of every node of a tree. -/
def Everywhere (P : JBaseObj F → Prop) : JBaseObj F → Prop
  | .value id v => P (.value id v)
  | .array id items => P (.array id items) ∧ EveryItem P items
  | .object id maps => P (.object id maps) ∧ EveryMember P maps

/-- The property, at every node of the items. -/
def EveryItem (P : JBaseObj F → Prop) : List (JBaseObj F) → Prop
  | [] => True
  | obj :: items => Everywhere P obj ∧ EveryItem P items

/-- The property, at every node of the members. -/
def EveryMember (P : JBaseObj F → Prop) : List (List Char × JBaseObj F) → Prop
  | [] => True
  | (_, obj) :: maps => Everywhere P obj ∧ EveryMember P maps

end

/-- A node that the functions of `JValue`, `JArray` and `JSonObj` make, without `float`. -/
def Built : JBaseObj F → Prop
  | .value _ (.eJ_FLOAT _) => False
  | .value _ (.eJ_STRING sv) => '\x00' ∉ sv
  | .value _ _ => True
  | .array _ _ => True
  | .object _ maps => SortedMap.Sorted maps ∧ ∀ p ∈ maps, '\x00' ∉ p.1

/-- A string or a key that can be read back. -/
def Readable (cs : List Char) : Prop := cs ≠ [] ∧ '"' ∉ cs

/-- All strings and keys of a node can be read back. -/
def PlainStrings : JBaseObj F → Prop
  | .value _ (.eJ_STRING sv) => Readable sv
  | .value _ _ => True
  | .array _ _ => True
  | .object _ maps => ∀ p ∈ maps, Readable p.1

/-- No container is empty. -/
def NonEmpty : JBaseObj F → Prop
  | .value _ _ => True
  | .array _ items => items ≠ []
  | .object _ maps => maps ≠ []

/-- A tree that was built. -/
structure Tree (F : Type) where
  obj : JBaseObj F
  built : Everywhere Built obj

/-! ## Blanks -/

/-- Blanks in front of a text are skipped. -/
theorem skipBlanks_append {l : List Char} (hl : ∀ c ∈ l, isBlank c = true) (t : List Char) :
    skipBlanks (l ++ t) = skipBlanks t :=
  List.dropWhile_append_of_pos hl

/-- The line break of a layout is skipped. -/
theorem skipBlanks_newline (layout : Bool) (t : List Char) :
    skipBlanks (newline layout ++ t) = skipBlanks t := by
  refine skipBlanks_append (fun c hc => ?_) t
  cases layout with
  | false => exact nomatch hc
  | true =>
    obtain rfl := List.mem_singleton.mp hc
    rfl

/-- The indentation of a layout is skipped. -/
theorem skipBlanks_indent (layout : Bool) (depth : Nat) (t : List Char) :
    skipBlanks (indent layout depth ++ t) = skipBlanks t := by
  refine skipBlanks_append (fun c hc => ?_) t
  cases layout with
  | false => cases hc
  | true =>
    obtain rfl := List.eq_of_mem_replicate hc
    decide

/-- The text before the bracket that closes a container. -/
theorem skipBlanks_closing (layout : Bool) (depth : Nat) (close : Char)
    (hclose : isBlank close = false) (r : List Char) :
    skipBlanks (newline layout ++ (indent layout depth ++ close :: r)) = close :: r := by
  rw [skipBlanks_newline, skipBlanks_indent, skipBlanks_cons hclose]

/-- A number ends before a character that no number has. -/
theorem ends_cons {c : Char} (hc : isNumeric c = false) (t : List Char) : Ends (c :: t) := by
  intro c' hc'
  obtain rfl := Option.some.inj hc'
  exact hc

/-- A number ends before a line break, a tab or what follows them. -/
theorem ends_closing (layout : Bool) (depth : Nat) {close : Char}
    (hclose : isNumeric close = false) (r : List Char) :
    Ends (newline layout ++ (indent layout depth ++ close :: r)) := by
  cases layout with
  | false => exact ends_cons hclose r
  | true => exact ends_cons (by decide) _

/-! ## Scalars -/

/-- A text that a value begins. -/
def Starts (s : List Char) : Prop := ∃ c t, s = c :: t ∧ (isStart c = true ∨ c = '[' ∨ c = '{')

/-- A text that a value begins has no blank in front. -/
theorem Starts.skipBlanks_eq {s : List Char} (h : Starts s) : skipBlanks s = s := by
  obtain ⟨c, t, rfl, hc⟩ := h
  refine skipBlanks_cons ?_ t
  have hstart : isStart c = true → isBlank c = false := by
    intro hstart
    rw [isStart, Bool.or_eq_true] at hstart
    obtain hmem | hdigit := hstart
    · have hmem : c ∈ ['n', 'f', 't', '"', '-', '.'] := of_decide_eq_true hmem
      simp only [List.mem_cons, List.not_mem_nil, or_false] at hmem
      obtain rfl | rfl | rfl | rfl | rfl | rfl := hmem <;> decide
    · have hle : '0'.toNat ≤ c.toNat := of_decide_eq_true (Bool.and_eq_true_iff.mp hdigit).1
      have hgt : ¬c.toNat ≤ 32 := fun hle' => absurd (Nat.le_trans hle hle') (by decide)
      simp [isBlank, hgt]
  obtain hc | rfl | rfl := hc
  · exact hstart hc
  · decide
  · decide

/-- The digits of a number are digits for the reader. -/
theorem isDigit_of_mem_toDigits {c : Char} {n : Nat} (h : c ∈ Nat.toDigits 10 n) :
    isDigit c = true := by
  have hdigit := Nat.isDigit_of_mem_toDigits (by decide) (by decide) h
  rw [Char.isDigit, Bool.and_eq_true, decide_eq_true_eq, decide_eq_true_eq] at hdigit
  rw [isDigit, Bool.and_eq_true, decide_eq_true_eq, decide_eq_true_eq]
  exact hdigit

/-- `std::to_string` writes a sign where there is one, and the digits. -/
theorem to_string_eq (v : Int32) :
    ∃ sign, (sign = [] ∨ sign = ['-']) ∧
      to_string v = sign ++ Nat.toDigits 10 v.toInt.natAbs ∧
      denotes sign (Nat.toDigits 10 v.toInt.natAbs) = v.toInt := by
  rw [to_string]
  by_cases hneg : v.toInt < 0
  · refine ⟨['-'], .inr rfl, by rw [if_pos hneg]; rfl, ?_⟩
    rw [denotes, if_neg (by decide), Nat.ofDigitChars_ten_toDigits]
    omega
  · refine ⟨[], .inl rfl, by rw [if_neg hneg]; rfl, ?_⟩
    rw [denotes, if_pos rfl, Nat.ofDigitChars_ten_toDigits]
    omega

/-- What it writes is a literal without a point. -/
theorem literal_toDigits {sign : List Char} (hsign : sign = [] ∨ sign = ['-']) (n : Nat) :
    Literal sign (Nat.toDigits 10 n) ∧ '.' ∉ Nat.toDigits 10 n := by
  have hdigit : ∀ c ∈ Nat.toDigits 10 n, isDigit c = true := fun c => isDigit_of_mem_toDigits
  have hdot : '.' ∉ Nat.toDigits 10 n := fun hmem => Bool.noConfusion (hdigit '.' hmem)
  refine ⟨⟨hsign, fun c hc => ?_, ?_, ?_⟩, hdot⟩
  · rw [isNumeric, hdigit c hc, Bool.or_true]
  · rw [List.count_eq_zero.mpr hdot]
    omega
  · obtain ⟨c, hc⟩ := List.exists_mem_of_ne_nil _ (Nat.toDigits_ne_nil (n := n) (b := 10))
    exact ⟨c, hc, hdigit c hc⟩

variable (float : FloatText F)

/-- A scalar is read back. -/
theorem readBase_write {b : JsonBuff} {id : Nat} {v : JValue F} {r : List Char}
    (hbuilt : Built (.value id v)) (hplain : PlainStrings (.value id v))
    (hs : b.rest = v.write float ++ r) (hends : Ends r) :
    ∃ b', readBase float b = newValue b' v ∧ b'.rest = r := by
  cases v with
  | eJ_INT iv =>
    obtain ⟨sign, hsign, hwrite, hdenotes⟩ := to_string_eq iv
    obtain ⟨hlit, hdot⟩ := literal_toDigits hsign iv.toInt.natAbs
    have hrest : b.rest = sign ++ (Nat.toDigits 10 iv.toInt.natAbs ++ r) := by
      rw [hs, JValue.write, hwrite, List.append_assoc]
    have hlow := iv.le_toInt
    -- the text of an `int` is always in range
    have hhigh := iv.toInt_lt
    have hstoi := stoi_literal hlit hdot hends
    rw [hdenotes, if_pos (by omega), Int32.ofInt_toInt, ← hrest] at hstoi
    have hread := readBase_literal float hlit hends hrest
    rw [number, if_neg (by simpa using hdot), hstoi] at hread
    exact ⟨_, hread, rfl⟩
  | eJ_FLOAT fv => exact hbuilt.elim
  -- words are compared as a whole
  | eJ_NULL =>
    refine ⟨b.go 4, ?_, ?_⟩
    · rw [readBase, hs]
      simp [JValue.write]
    · show b.rest.drop 4 = r
      rw [hs]
      rfl
  | eJ_STRING sv =>
    obtain ⟨hne, hquote⟩ := hplain
    have hrest : b.rest = [] ++ '"' :: (sv ++ '"' :: r) := by
      -- no mark stands before the quotes that are written
      rw [hs, JValue.write, List.cons_append, List.append_assoc]
      rfl
    exact ⟨_, readBase_string float (by decide) hquote hne hrest, rfl⟩
  | eJ_BOOL bv =>
    cases bv with
    | true =>
      refine ⟨b.go 4, ?_, ?_⟩
      · rw [readBase, hs]
        simp [JValue.write]
      · show b.rest.drop 4 = r
        rw [hs]
        rfl
    | false =>
      refine ⟨b.go 5, ?_, ?_⟩
      · rw [readBase, hs]
        simp [JValue.write]
      · show b.rest.drop 5 = r
        rw [hs]
        rfl

/-- The text of a value begins with a character that sends the reader to values. -/
theorem value_start {id : Nat} {v : JValue F} (hbuilt : Built (.value id v)) (r : List Char) :
    ∃ c t, v.write float ++ r = c :: t ∧ isStart c = true := by
  cases v with
  | eJ_INT iv =>
    obtain ⟨sign, hsign, hwrite, -⟩ := to_string_eq iv
    obtain ⟨hlit, -⟩ := literal_toDigits hsign iv.toInt.natAbs
    refine hlit.start (r := r) ?_
    rw [JValue.write, hwrite, List.append_assoc]
  | eJ_FLOAT fv => exact hbuilt.elim
  | eJ_NULL => exact ⟨'n', _, rfl, by decide⟩
  | eJ_STRING sv => exact ⟨'"', _, rfl, by decide⟩
  | eJ_BOOL bv =>
    cases bv with
    | true => exact ⟨'t', _, rfl, by decide⟩
    | false => exact ⟨'f', _, rfl, by decide⟩

/-- What is written for a tree begins with its first byte. -/
theorem write_starts {obj : JBaseObj F} (hbuilt : Everywhere Built obj) (layout : Bool)
    (depth : Nat) (r : List Char) : Starts (obj.write float layout depth ++ r) := by
  cases obj with
  | value id v =>
    rw [Everywhere] at hbuilt
    obtain ⟨c, t, heq, hc⟩ := value_start float hbuilt r
    rw [JBaseObj.write]
    exact ⟨c, t, heq, .inl hc⟩
  | array id items =>
    rw [JBaseObj.write]
    exact ⟨'[', _, rfl, .inr (.inl rfl)⟩
  | object id maps =>
    rw [JBaseObj.write]
    exact ⟨'{', _, rfl, .inr (.inr rfl)⟩

/-! ## The texts of containers -/

/-- The text of an array, from its bracket on. -/
theorem write_array (layout : Bool) (depth id : Nat) (items : List (JBaseObj F)) (r : List Char) :
    (JBaseObj.array id items).write float layout depth ++ r =
      '[' :: (newline layout ++ (writeItems float layout depth items ++
        (indent layout depth ++ ']' :: r))) := by
  rw [JBaseObj.write]
  simp

/-- The text of an object, from its brace on. -/
theorem write_object (layout : Bool) (depth id : Nat)
    (maps : List (List Char × JBaseObj F)) (r : List Char) :
    (JBaseObj.object id maps).write float layout depth ++ r =
      '{' :: (newline layout ++ (writeMembers float layout depth maps ++
        (indent layout depth ++ '}' :: r))) := by
  rw [JBaseObj.write]
  simp

/-- What follows an item: the closing text after the last one, else a comma. -/
def afterItem (layout : Bool) (last : Bool) (t : List Char) : List Char :=
  comma last ++ (newline layout ++ t)

/-- A number as an item ends at what follows the item. -/
theorem ends_afterItem (layout : Bool) (depth : Nat) (close : Char)
    (hclose : isNumeric close = false) (last : Bool) (t r : List Char)
    (ht : last = true → t = indent layout depth ++ close :: r) : Ends (afterItem layout last t) := by
  cases last with
  | true =>
    rw [ht rfl]
    exact ends_closing layout depth hclose r
  | false => exact ends_cons (by decide) _

/-- The text of an array's items, from the first item on. -/
theorem writeItems_cons (layout : Bool) (depth : Nat) (obj : JBaseObj F)
    (items : List (JBaseObj F)) (t : List Char) :
    writeItems float layout depth (obj :: items) ++ t =
      indent layout (depth + 1) ++ (obj.write float layout (depth + 1) ++
        afterItem layout items.isEmpty (writeItems float layout depth items ++ t)) := by
  rw [writeItems, afterItem]
  simp

/-- The text of an object's members, from the first member on. -/
theorem writeMembers_cons (layout : Bool) (depth : Nat) (key : List Char) (obj : JBaseObj F)
    (maps : List (List Char × JBaseObj F)) (t : List Char) :
    writeMembers float layout depth ((key, obj) :: maps) ++ t =
      indent layout (depth + 1) ++ '"' :: (key ++ '"' :: ':' ::
        (obj.write float layout (depth + 1) ++
          afterItem layout maps.isEmpty (writeMembers float layout depth maps ++ t))) := by
  rw [writeMembers, afterItem]
  simp

/-- The first item, after the blanks before it. -/
theorem skipBlanks_writeItems {obj : JBaseObj F} (hbuilt : Everywhere Built obj) (layout : Bool)
    (depth : Nat) (items : List (JBaseObj F)) (t : List Char) :
    skipBlanks (writeItems float layout depth (obj :: items) ++ t) =
      obj.write float layout (depth + 1) ++
        afterItem layout items.isEmpty (writeItems float layout depth items ++ t) := by
  rw [writeItems_cons, skipBlanks_indent, (write_starts float hbuilt _ _ _).skipBlanks_eq]

/-- Behind blanks, members begin with the quote of the first key. -/
theorem skipBlanks_writeMembers (layout : Bool) (depth : Nat) (key : List Char)
    (obj : JBaseObj F) (maps : List (List Char × JBaseObj F)) (t : List Char) :
    skipBlanks (writeMembers float layout depth ((key, obj) :: maps) ++ t) =
      '"' :: (key ++ '"' :: ':' :: (obj.write float layout (depth + 1) ++
        afterItem layout maps.isEmpty (writeMembers float layout depth maps ++ t))) := by
  rw [writeMembers_cons, skipBlanks_indent, skipBlanks_cons (by decide)]

/-- Behind blanks, items begin with a value. -/
theorem writeItems_starts {items : List (JBaseObj F)} (hne : items ≠ [])
    (hbuilt : EveryItem Built items) (layout : Bool) (depth : Nat) (t : List Char) :
    Starts (skipBlanks (writeItems float layout depth items ++ t)) := by
  cases items with
  | nil => exact absurd rfl hne
  | cons obj items =>
    rw [skipBlanks_writeItems float hbuilt.1]
    exact write_starts float hbuilt.1 _ _ _

/-- Behind blanks, members begin with a quote. -/
theorem writeMembers_starts {maps : List (List Char × JBaseObj F)} (hne : maps ≠ [])
    (layout : Bool) (depth : Nat) (t : List Char) :
    ∃ t', skipBlanks (writeMembers float layout depth maps ++ t) = '"' :: t' := by
  cases maps with
  | nil => exact absurd rfl hne
  | cons p maps => exact ⟨_, skipBlanks_writeMembers float layout depth p.1 p.2 maps t⟩

/-- The key of a written member. -/
theorem key_writeMembers {key : List Char} (hkey : Readable key) {s t : List Char}
    (hs : skipBlanks s = '"' :: (key ++ '"' :: ':' :: t)) : Key (codeRules float) key s t :=
  ⟨hkey.2, fun hnil => absurd hnil hkey.1, ':' :: t, hs, .inl rfl⟩

/-! ## Reading what was written -/

/-- What makes a tree come back. -/
def Plain (layout : Bool) (obj : JBaseObj F) : Prop :=
  PlainStrings obj ∧ (layout = true → NonEmpty obj)

/-- Between two items the reader finds the comma. -/
theorem skipBlanks_comma (layout : Bool) (t : List Char) :
    skipBlanks (afterItem layout false t) = ',' :: (newline layout ++ t) :=
  skipBlanks_cons (by decide) _

mutual

/-- A plain tree is read back. -/
theorem reader_write (layout : Bool) : ∀ (obj : JBaseObj F) (depth fuel : Nat) (b : JsonBuff)
    (r : List Char), Everywhere Built obj → Everywhere (Plain layout) obj →
    skipBlanks b.rest = obj.write float layout depth ++ r → Ends r →
    2 * b.rest.length + 1 ≤ fuel →
    ∃ node b', reader float fuel b = .node node b' ∧ node.tree = obj.tree ∧ b'.rest = r
  | obj, depth, 0, b, r, hbuilt, hplain, hs, hends, hfuel => absurd hfuel (by omega)
  | .value id v, depth, fuel + 1, b, r, hbuilt, hplain, hs, hends, hfuel => by
    rw [Everywhere] at hbuilt hplain
    rw [JBaseObj.write] at hs
    obtain ⟨c, t, hstart, hc⟩ := value_start float hbuilt r
    obtain ⟨b', hread, hr⟩ := readBase_write float (b := b.skip) hbuilt hplain.1 hs hends
    rw [reader_start float (hs.trans hstart) hc, hread]
    exact ⟨_, _, rfl, rfl, hr⟩
  | .array id items, depth, fuel + 1, b, r, hbuilt, hplain, hs, hends, hfuel => by
    rw [Everywhere] at hbuilt hplain
    obtain ⟨⟨-, hnonempty⟩, hitemsPlain⟩ := hplain
    rw [write_array] at hs
    have hlt := length_of_skip hs
    by_cases hne : items = []
    · -- only without a layout
      obtain rfl : layout = false := by
        cases layout with
        | false => rfl
        | true => exact absurd hne (hnonempty rfl)
      rw [hne] at hs
      obtain ⟨id', b', hend, hr⟩ := endArray_closes ([] : List (JBaseObj F))
        (b := { b with rest := ']' :: r }) rfl
      rw [reader_emptyArray float hs, hne]
      exact ⟨_, _, hend, rfl, hr⟩
    · obtain ⟨c, t, hstart, hc⟩ := writeItems_starts float hne hbuilt.2 layout depth
        (indent layout depth ++ ']' :: r)
      -- the first item comes after the line break, so the loop is entered
      obtain ⟨id', items', b', hread, htrees, hr⟩ := readItem_write layout items depth fuel []
        { b with rest := newline layout ++ (writeItems float layout depth items ++
          (indent layout depth ++ ']' :: r)) } r hne hbuilt.2 hitemsPlain
        (skipBlanks_newline _ _) (by dsimp only; omega)
      rw [reader_array float hs ⟨c, t, (skipBlanks_newline _ _).trans hstart, hc⟩, hread]
      refine ⟨_, _, rfl, ?_, hr⟩
      rw [JBaseObj.tree, JBaseObj.tree, List.nil_append, htrees]
  | .object id maps, depth, fuel + 1, b, r, hbuilt, hplain, hs, hends, hfuel => by
    rw [Everywhere] at hbuilt hplain
    obtain ⟨⟨hsorted, -⟩, hbuilt⟩ := hbuilt
    obtain ⟨⟨hkeys, hnonempty⟩, hmapsPlain⟩ := hplain
    rw [write_object] at hs
    have hlt := length_of_skip hs
    -- an empty object is written without a layout
    by_cases hne : maps = []
    · obtain rfl : layout = false := by
        cases layout with
        | false => rfl
        | true => exact absurd hne (hnonempty rfl)
      rw [hne] at hs
      obtain ⟨id', b', hend, hr⟩ := endObj_closes ([] : List (List Char × JBaseObj F))
        (b := { b with rest := '}' :: r }) rfl
      rw [reader_emptyObject float hs, hne]
      exact ⟨_, _, hend, rfl, hr⟩
    · obtain ⟨t, hstart⟩ := writeMembers_starts float hne layout depth
        (indent layout depth ++ '}' :: r)
      obtain ⟨id', maps', b', hread, htrees, hr⟩ := readMember_write layout maps depth fuel []
        { b with rest := newline layout ++ (writeMembers float layout depth maps ++
          (indent layout depth ++ '}' :: r)) } r hne hkeys hsorted (fun p hp => nomatch hp) hbuilt
        hmapsPlain (skipBlanks_newline _ _) (by dsimp only; omega)
      rw [reader_object float hs ⟨t, (skipBlanks_newline _ _).trans hstart⟩, hread]
      refine ⟨_, _, rfl, ?_, hr⟩
      rw [JBaseObj.tree, JBaseObj.tree, List.nil_append, htrees]

/-- The loop over items reads what `writeItems` wrote, up to the bracket. -/
theorem readItem_write (layout : Bool) : ∀ (items : List (JBaseObj F)) (depth fuel : Nat)
    (objs : List (JBaseObj F)) (b : JsonBuff) (r : List Char), items ≠ [] →
    EveryItem Built items → EveryItem (Plain layout) items →
    skipBlanks b.rest = skipBlanks (writeItems float layout depth items ++
      (indent layout depth ++ ']' :: r)) →
    2 * b.rest.length + 2 ≤ fuel →
    ∃ id items' b', readItem float fuel objs b = .node (.array id (objs ++ items')) b' ∧
      itemTrees items' = itemTrees items ∧ b'.rest = r
  | [], depth, fuel, objs, b, r, hne, hbuilt, hplain, hs, hfuel => absurd rfl hne
  | obj :: items, depth, 0, objs, b, r, hne, hbuilt, hplain, hs, hfuel => absurd hfuel (by omega)
  | obj :: items, depth, fuel + 1, objs, b, r, hne, hbuilt, hplain, hs, hfuel => by
    rw [EveryItem] at hbuilt hplain
    rw [skipBlanks_writeItems float hbuilt.1] at hs
    have hends : Ends (afterItem layout items.isEmpty (writeItems float layout depth items ++
        -- a number ends at the comma, the line break or the bracket
        (indent layout depth ++ ']' :: r))) := by
      -- a number ends at the comma, the line break or the bracket
      refine ends_afterItem layout depth ']' (by decide) _ _ r fun hlast => ?_
      rw [List.isEmpty_iff.mp hlast]
      rfl
    obtain ⟨node, b₁, hnode, htree, hrest⟩ := reader_write layout obj (depth + 1) fuel b _
      hbuilt.1 hplain.1 hs hends (by omega)
    have hshorter := reader_shorter float hnode
    -- the last item is followed by the bracket
    by_cases hlast : items = []
    · have hclose : skipBlanks b₁.rest = ']' :: r := by
        rw [hrest, hlast]
        exact skipBlanks_closing layout depth _ (by decide) r
      obtain ⟨id, b', hend, hr⟩ := endArray_closes (objs ++ [node]) (b := b₁.skip) hclose
      refine ⟨id, [node], b', (readItem_last float hnode hclose).trans hend, ?_, hr⟩
      rw [hlast, itemTrees, itemTrees, htree]
      rfl
    -- another one is followed by the comma
    · have hcomma : skipBlanks b₁.rest = ',' :: (newline layout ++
          (writeItems float layout depth items ++ (indent layout depth ++ ']' :: r))) := by
        rw [hrest, List.isEmpty_eq_false_iff.mpr hlast]
        exact skipBlanks_comma layout _
      have hlt := length_of_skip hcomma
      obtain ⟨c, t, hstart, hc⟩ := writeItems_starts float hlast hbuilt.2 layout depth
        (indent layout depth ++ ']' :: r)
      obtain ⟨id, items', b', hread, htrees, hr⟩ := readItem_write layout items depth fuel
        (objs ++ [node]) { b₁ with rest := _ } r hlast hbuilt.2 hplain.2 (skipBlanks_newline layout _)
        (by dsimp only; omega)
      refine ⟨id, node :: items', b', ?_, ?_, hr⟩
      · rw [readItem_next float hnode (.inl hcomma)
          ⟨c, t, (skipBlanks_newline _ _).trans hstart, hc⟩, hread, List.append_assoc]
        rfl
      · rw [itemTrees, itemTrees, htree, htrees]

/-- The loop over members reads what `writeMembers` wrote, up to the brace. -/
theorem readMember_write (layout : Bool) : ∀ (maps : List (List Char × JBaseObj F))
    (depth fuel : Nat) (objs : List (List Char × JBaseObj F)) (b : JsonBuff) (r : List Char),
    maps ≠ [] → (∀ p ∈ maps, Readable p.1) → SortedMap.Sorted maps →
    (∀ p ∈ objs, ∀ q ∈ maps, p.1 < q.1) →
    EveryMember Built maps → EveryMember (Plain layout) maps →
    skipBlanks b.rest = skipBlanks (writeMembers float layout depth maps ++
      (indent layout depth ++ '}' :: r)) →
    2 * b.rest.length + 2 ≤ fuel →
    ∃ id maps' b', readMember float fuel objs b = .node (.object id (objs ++ maps')) b' ∧
      memberTrees maps' = memberTrees maps ∧ b'.rest = r
  | [], depth, fuel, objs, b, r, hne, hkeys, hsorted, hlt, hbuilt, hplain, hs, hfuel =>
    absurd rfl hne
  | (key, obj) :: maps, depth, 0, objs, b, r, hne, hkeys, hsorted, hlt, hbuilt, hplain, hs,
      hfuel => absurd hfuel (by omega)
  | (key, obj) :: maps, depth, fuel + 1, objs, b, r, hne, hkeys, hsorted, hlt, hbuilt, hplain, hs,
      hfuel => by
    rw [EveryMember] at hbuilt hplain
    rw [skipBlanks_writeMembers] at hs
    obtain ⟨hkey, hkeys⟩ := List.forall_mem_cons.mp hkeys
    obtain ⟨hfirst, hsorted⟩ := List.pairwise_cons.mp hsorted
    have hread := key_writeMembers float hkey hs
    have hshorterKey := hread.shorter
    -- a number ends at the comma, the line break or the brace
    have hends : Ends (afterItem layout maps.isEmpty (writeMembers float layout depth maps ++
        (indent layout depth ++ '}' :: r))) := by
      refine ends_afterItem layout depth '}' (by decide) _ _ r fun hlast => ?_
      rw [List.isEmpty_iff.mp hlast]
      rfl
    obtain ⟨node, b₂, hnode, htree, hrest⟩ := reader_write layout obj (depth + 1) fuel
      { b with rest := _ } _ hbuilt.1 hplain.1
      (write_starts float hbuilt.1 layout (depth + 1) _).skipBlanks_eq hends
      (by dsimp only; omega)
    have hshorter := reader_shorter float hnode
    -- the keys come in order, so the new one goes to the end
    have hstore : SortedMap.store key node objs = objs ++ [(key, node)] :=
      SortedMap.store_of_forall_lt (fun p hp => hlt p hp _ List.mem_cons_self) node
    -- the last member is followed by the brace
    by_cases hlast : maps = []
    · have hclose : skipBlanks b₂.rest = '}' :: r := by
        rw [hrest, hlast]
        exact skipBlanks_closing layout depth _ (by decide) r
      have hstored : (stored b₂ objs key).skip.rest = '}' :: r := by
        rw [rest_skip, stored, rest_leak, hclose]
      obtain ⟨id, b', hend, hr⟩ := endObj_closes (objs ++ [(key, node)]) hstored
      refine ⟨id, [(key, node)], b', ?_, ?_, hr⟩
      -- the closed object is the members that were stored
      · rw [readMember_last float (readKey_complete float hread) hnode hclose, hstore, hend]
      · rw [hlast, memberTrees, memberTrees, htree]
        rfl
    · have hcomma : skipBlanks b₂.rest = ',' :: (newline layout ++
          (writeMembers float layout depth maps ++ (indent layout depth ++ '}' :: r))) := by
        rw [hrest, List.isEmpty_eq_false_iff.mpr hlast]
        exact skipBlanks_comma layout _
      have hlen := length_of_skip hcomma
      obtain ⟨t, hstart⟩ := writeMembers_starts float hlast layout depth
        (indent layout depth ++ '}' :: r)
      have hlt' : ∀ p ∈ objs ++ [(key, node)], ∀ q ∈ maps, p.1 < q.1 := by
        -- what was read so far stays before what is to come
        intro p hp q hq
        obtain hp | hp := List.mem_append.mp hp
        · exact hlt p hp q (List.mem_cons_of_mem _ hq)
        · obtain rfl := List.mem_singleton.mp hp
          exact hfirst q hq
      obtain ⟨id, maps', b', hread', htrees, hr⟩ := readMember_write layout maps depth fuel
        (objs ++ [(key, node)]) { stored b₂ objs key with rest := _ } r hlast hkeys hsorted hlt'
        hbuilt.2 hplain.2 (skipBlanks_newline layout _) (by dsimp only at hshorter ⊢; omega)
      refine ⟨id, (key, node) :: maps', b', ?_, ?_, hr⟩
      · rw [readMember_next float (readKey_complete float hread) hnode (.inl hcomma)
          ⟨t, (skipBlanks_newline _ _).trans hstart⟩, hstore, hread', List.append_assoc]
        rfl
      · rw [memberTrees, memberTrees, htree, htrees]

end

/-- So a plain tree is in the grammar of the reader. -/
theorem reads_write {obj : JBaseObj F} {layout : Bool} {depth : Nat} {s r : List Char}
    (hbuilt : Everywhere Built obj) (hplain : Everywhere (Plain layout) obj)
    (hs : skipBlanks s = obj.write float layout depth ++ r) (hends : Ends r) :
    Reads (codeRules float) .value s r := by
  let b : JsonBuff := { rest := s, past := false, allocated := 0, deleted := [], leaked := [] }
  obtain ⟨node, b', hnode, -, rfl⟩ := reader_write float layout obj depth (2 * s.length + 1) b r
    hbuilt hplain hs hends (Nat.le_refl _)
  exact (reader_sound float _).1 _ _ _ hnode

/-! ## Nodes of a tree -/

/-- A property of all items. -/
theorem everyItem_iff {P : JBaseObj F → Prop} {items : List (JBaseObj F)} :
    EveryItem P items ↔ ∀ obj ∈ items, Everywhere P obj := by
  induction items with
  | nil => exact ⟨fun _ obj hobj => (nomatch hobj), fun _ => trivial⟩
  | cons obj items ih => rw [EveryItem, ih, List.forall_mem_cons]

/-- A property of all members. -/
theorem everyMember_iff {P : JBaseObj F → Prop} {maps : List (List Char × JBaseObj F)} :
    EveryMember P maps ↔ ∀ p ∈ maps, Everywhere P p.2 := by
  induction maps with
  | nil => exact ⟨fun _ p hp => (nomatch hp), fun _ => trivial⟩
  | cons p maps ih => rw [EveryMember, ih, List.forall_mem_cons]

mutual

/-- Two properties of every node are one. -/
theorem Everywhere.and {P Q : JBaseObj F → Prop} : ∀ {obj : JBaseObj F}, Everywhere P obj →
    Everywhere Q obj → Everywhere (fun obj => P obj ∧ Q obj) obj
  | .value _ _, h, h' => ⟨h, h'⟩
  | .array _ _, h, h' => ⟨⟨h.1, h'.1⟩, EveryItem.and h.2 h'.2⟩
  | .object _ _, h, h' => ⟨⟨h.1, h'.1⟩, EveryMember.and h.2 h'.2⟩

/-- So they are for items, -/
theorem EveryItem.and {P Q : JBaseObj F → Prop} : ∀ {items : List (JBaseObj F)},
    EveryItem P items → EveryItem Q items → EveryItem (fun obj => P obj ∧ Q obj) items
  | [], _, _ => trivial
  | _ :: _, h, h' => ⟨Everywhere.and h.1 h'.1, EveryItem.and h.2 h'.2⟩

/-- and for members. -/
theorem EveryMember.and {P Q : JBaseObj F → Prop} : ∀ {maps : List (List Char × JBaseObj F)},
    EveryMember P maps → EveryMember Q maps → EveryMember (fun obj => P obj ∧ Q obj) maps
  | [], _, _ => trivial
  | _ :: _, h, h' => ⟨Everywhere.and h.1 h'.1, EveryMember.and h.2 h'.2⟩

end

mutual

/-- What follows from a property at a node follows at every node. -/
theorem Everywhere.imp {P Q : JBaseObj F → Prop} (himp : ∀ obj, P obj → Q obj) :
    ∀ {obj : JBaseObj F}, Everywhere P obj → Everywhere Q obj
  | .value _ _, h => himp _ h
  | .array _ _, h => ⟨himp _ h.1, EveryItem.imp himp h.2⟩
  | .object _ _, h => ⟨himp _ h.1, EveryMember.imp himp h.2⟩

/-- So it does for items, -/
theorem EveryItem.imp {P Q : JBaseObj F → Prop} (himp : ∀ obj, P obj → Q obj) :
    ∀ {items : List (JBaseObj F)}, EveryItem P items → EveryItem Q items
  | [], _ => trivial
  | _ :: _, h => ⟨Everywhere.imp himp h.1, EveryItem.imp himp h.2⟩

/-- and for members. -/
theorem EveryMember.imp {P Q : JBaseObj F → Prop} (himp : ∀ obj, P obj → Q obj) :
    ∀ {maps : List (List Char × JBaseObj F)}, EveryMember P maps → EveryMember Q maps
  | [], _ => trivial
  | _ :: _, h => ⟨Everywhere.imp himp h.1, EveryMember.imp himp h.2⟩

end

mutual

/-- What does not depend on where the nodes are holds of a tree or of no copy of it. -/
theorem everywhere_tree {P : JBaseObj F → Prop} (hP : ∀ obj : JBaseObj F, P obj.tree ↔ P obj) :
    ∀ obj : JBaseObj F, Everywhere P obj.tree ↔ Everywhere P obj
  | .value id v => hP (.value id v)
  | .array id items => and_congr (hP (.array id items)) (everyItem_trees hP items)
  | .object id maps => and_congr (hP (.object id maps)) (everyMember_trees hP maps)

/-- A property that does not depend on the numbers of the nodes holds of the items' trees, -/
theorem everyItem_trees {P : JBaseObj F → Prop} (hP : ∀ obj : JBaseObj F, P obj.tree ↔ P obj) :
    ∀ items : List (JBaseObj F), EveryItem P (itemTrees items) ↔ EveryItem P items
  | [] => Iff.rfl
  | obj :: items => and_congr (everywhere_tree hP obj) (everyItem_trees hP items)

/-- and of the members'. -/
theorem everyMember_trees {P : JBaseObj F → Prop} (hP : ∀ obj : JBaseObj F, P obj.tree ↔ P obj) :
    ∀ maps : List (List Char × JBaseObj F), EveryMember P (memberTrees maps) ↔ EveryMember P maps
  | [] => Iff.rfl
  | (_, obj) :: maps => and_congr (everywhere_tree hP obj) (everyMember_trees hP maps)

end

/-- The keys of a tree are those of the object. -/
theorem mem_memberTrees {maps : List (List Char × JBaseObj F)} {key : List Char} :
    (∃ obj, (key, obj) ∈ memberTrees maps) ↔ ∃ obj, (key, obj) ∈ maps := by
  induction maps with
  | nil => exact Iff.rfl
  | cons p maps ih =>
    obtain ⟨key', obj'⟩ := p
    simp only [memberTrees, List.mem_cons, Prod.mk.injEq, exists_or, ih]
    simp

/-- Whether strings can be read back does not depend on the numbers of the nodes. -/
theorem plainStrings_tree (obj : JBaseObj F) : PlainStrings obj.tree ↔ PlainStrings obj := by
  cases obj with
  | value id v => cases v <;> exact Iff.rfl
  | array id items => exact Iff.rfl
  | object id maps =>
    rw [JBaseObj.tree, PlainStrings, PlainStrings]
    constructor
    · intro h p hp
      obtain ⟨obj, hobj⟩ := mem_memberTrees.mpr ⟨p.2, hp⟩
      exact h (p.1, obj) hobj
    · intro h p hp
      obtain ⟨obj, hobj⟩ := mem_memberTrees.mp ⟨p.2, hp⟩
      exact h (p.1, obj) hobj

/-! ## What comes back is plain -/

/-- A value that was read has a plain string. -/
theorem readBase_plainStrings {b b' : JsonBuff} {obj : JBaseObj F}
    (h : readBase float b = .node obj b') : Everywhere PlainStrings obj := by
  cases readBase_spec float b with
  | word hw hs hv hres =>
    obtain ⟨rfl, -⟩ := Res.node.inj (hres.symm.trans h)
    obtain rfl | ⟨bv, rfl⟩ := hv <;> trivial
  | number hlit hends hs hv hres =>
    obtain ⟨rfl, -⟩ := Res.node.inj (hres.symm.trans h)
    rw [number] at hv
    split at hv
    · obtain ⟨fv, -, rfl⟩ := Option.map_eq_some_iff.mp hv
      trivial
    · obtain ⟨iv, -, rfl⟩ := Option.map_eq_some_iff.mp hv
      trivial
  | thrown hlit hends hs hv hres => cases hres.symm.trans h
  | string hmark hs hres =>
    rw [hres, readBaseStr] at h
    split at h
    · next s b'' hstr =>
      obtain ⟨rfl, -⟩ := Res.node.inj h
      obtain ⟨-, hquote, hne⟩ := readStr_sound hstr
      exact ⟨hne, hquote⟩
    · cases h
  | null r hres => cases hres.symm.trans h

/-- An array that is closed has plain strings if its items have. -/
theorem endArray_plainStrings {objs : List (JBaseObj F)} (hobjs : EveryItem PlainStrings objs)
    {b b' : JsonBuff} {obj : JBaseObj F} (h : endArray objs b = .node obj b') :
    Everywhere PlainStrings obj := by
  rw [endArray] at h
  split at h
  · obtain ⟨rfl, -⟩ := Res.node.inj h
    exact ⟨trivial, hobjs⟩
  · cases h

/-- An object that is closed has plain strings if its members have. -/
theorem endObj_plainStrings {objs : List (List Char × JBaseObj F)}
    (hkeys : ∀ p ∈ objs, Readable p.1) (hobjs : EveryMember PlainStrings objs)
    {b b' : JsonBuff} {obj : JBaseObj F} (h : endObj objs b = .node obj b') :
    Everywhere PlainStrings obj := by
  rw [endObj] at h
  split at h
  · obtain ⟨rfl, -⟩ := Res.node.inj h
    exact ⟨hkeys, hobjs⟩
  · cases h

/-- The reader makes no empty string and none with a quote inside. -/
theorem reader_plainStrings (fuel : Nat) :
    (∀ (b b' : JsonBuff) (obj : JBaseObj F), reader float fuel b = .node obj b' →
      Everywhere PlainStrings obj) ∧
      (∀ (objs : List (JBaseObj F)) (b b' : JsonBuff) (obj : JBaseObj F),
        EveryItem PlainStrings objs → readItem float fuel objs b = .node obj b' →
        Everywhere PlainStrings obj) ∧
      ∀ (objs : List (List Char × JBaseObj F)) (b b' : JsonBuff) (obj : JBaseObj F),
        (∀ p ∈ objs, Readable p.1) → EveryMember PlainStrings objs →
        readMember float fuel objs b = .node obj b' → Everywhere PlainStrings obj := by
  -- by induction on the fuel, for the three functions at once
  induction fuel with
  | zero =>
    refine ⟨fun b b' obj h => ?_, fun objs b b' obj _ h => ?_, fun objs b b' obj _ _ h => ?_⟩
    · rw [reader] at h; cases h
    · rw [readItem] at h; cases h
    · rw [readMember] at h; cases h
  | succ fuel ih =>
    obtain ⟨ihReader, ihItem, ihMember⟩ := ih
    refine ⟨fun b b' obj h => ?_, fun objs b b' obj hobjs h => ?_,
      fun objs b b' obj hkeys hobjs h => ?_⟩
    · have hnone : ∀ p ∈ ([] : List (List Char × JBaseObj F)), Readable p.1 := List.forall_mem_nil _
      rw [reader] at h
      dsimp only at h
      -- an array, an object or a value begins here
      split at h
      · split at h
        · exact ihItem [] _ _ _ trivial h
        · exact endArray_plainStrings (show EveryItem PlainStrings [] from trivial) h
      · split at h
        · split at h
          · exact ihMember [] _ _ _ hnone trivial h
          · exact endObj_plainStrings hnone trivial h
        · exact readBase_plainStrings float h
    · rw [readItem] at h
      split at h
      · next item b₁ hnode =>
        have hitems : EveryItem PlainStrings (objs ++ [item]) := by
          rw [everyItem_iff, List.forall_mem_append, ← everyItem_iff]
          exact ⟨hobjs, by simpa using ihReader _ _ _ hnode⟩
        dsimp only at h
        -- with a comma or without one, the next item is read, or the bracket closes the array
        split at h
        · exact ihItem _ _ _ _ hitems h
        · split at h
          · exact ihItem _ _ _ _ hitems h
          · exact endArray_plainStrings hitems h
      · cases h
      · cases h
      · cases h
    · rw [readMember] at h
      split at h
      · cases h
      · next cs b₁ hkey =>
        obtain ⟨hquote, hempty, -⟩ := readKey_sound float hkey
        have hcs : Readable cs := ⟨fun hnil => Bool.noConfusion (hempty hnil), hquote⟩
        split at h
        · next item b₂ hnode =>
          have hkeys' : ∀ p ∈ SortedMap.store cs item objs, Readable p.1 := by
            -- `readStr` takes no other keys
            intro p hp
            obtain rfl | hp := SortedMap.mem_store hp
            · exact hcs
            · exact hkeys p hp
          have hmembers : EveryMember PlainStrings (SortedMap.store cs item objs) := by
            rw [everyMember_iff] at hobjs ⊢
            intro p hp
            obtain rfl | hp := SortedMap.mem_store hp
            · exact ihReader _ _ _ hnode
            · exact hobjs p hp
          dsimp only at h
          split at h
          · exact ihMember _ _ _ _ hkeys' hmembers h
          · split at h
            · exact ihMember _ _ _ _ hkeys' hmembers h
            · exact endObj_plainStrings hkeys' hmembers h
        · cases h
        · cases h
        · cases h

/-- A comma is there, and the reader goes on after it. -/
theorem Separates.comma_eq {o : Rules} {s t r : List Char} (h : Separates o s r)
    (hs : skipBlanks s = ',' :: t) : r = t := by
  obtain hcomma | ⟨-, rfl, hhead⟩ := h
  · exact (List.cons.inj (hcomma.symm.trans hs)).2
  · rw [hs] at hhead
    exact absurd rfl (hhead ',' rfl).1

mutual

/-- With a layout, a tree that the reader takes has no empty container. -/
theorem nonEmpty_of_reads : ∀ (obj : JBaseObj F) (depth : Nat) (s r r' : List Char),
    Everywhere Built obj → Everywhere PlainStrings obj →
    skipBlanks s = obj.write float true depth ++ r → Reads (codeRules float) .value s r' →
    Everywhere NonEmpty obj
  | .value id v, depth, s, r, r', hbuilt, hplain, hs, hreads => trivial
  | .array id items, depth, s, r, r', hbuilt, hplain, hs, hreads => by
    rw [Everywhere] at hbuilt hplain
    rw [write_array] at hs
    -- after the bracket there is a line break
    have hitems : Reads (codeRules float) .items (newline true ++ (writeItems float true depth
        items ++ (indent true depth ++ ']' :: r))) r' := by
      cases hreads with
      | scalar hscalar => exact (hscalar.not_open hs (.inl rfl)).elim
      | emptyArray hs' hcloses =>
        obtain rfl := (List.cons.inj (hs.symm.trans hs')).2
        cases hcloses.resolve_right fun hblank => Bool.noConfusion hblank.1
      | array hs' hitems =>
        obtain rfl := (List.cons.inj (hs.symm.trans hs')).2
        exact hitems
      | emptyObject hs' _ => cases hs.symm.trans hs'
      | object hs' _ => cases hs.symm.trans hs'
    have hne : items ≠ [] := by
      rintro rfl
      -- else the closing bracket would have to begin an item
      obtain ⟨c, t, hhead, hc⟩ := hitems.items_head
      have hclose := skipBlanks_closing true depth ']' (by decide) r
      obtain ⟨rfl, -⟩ := List.cons.inj (hclose.symm.trans hhead)
      revert hc
      decide
    exact ⟨hne, nonEmpty_of_readItems items depth _ r r' hne hbuilt.2 hplain.2
      (skipBlanks_newline true _) hitems⟩
  | .object id maps, depth, s, r, r', hbuilt, hplain, hs, hreads => by
    rw [Everywhere] at hbuilt hplain
    rw [write_object] at hs
    have hmembers : Reads (codeRules float) .members (newline true ++ (writeMembers float true depth
        maps ++ (indent true depth ++ '}' :: r))) r' := by
      cases hreads with
      | scalar hscalar => exact (hscalar.not_open hs (.inr rfl)).elim
      | emptyArray hs' _ => cases hs.symm.trans hs'
      | array hs' _ => cases hs.symm.trans hs'
      | emptyObject hs' hcloses =>
        obtain rfl := (List.cons.inj (hs.symm.trans hs')).2
        cases hcloses.resolve_right fun hblank => Bool.noConfusion hblank.1
      | object hs' hmembers =>
        obtain rfl := (List.cons.inj (hs.symm.trans hs')).2
        exact hmembers
    -- else the closing brace would have to begin a key
    have hne : maps ≠ [] := by
      rintro rfl
      obtain ⟨t, hhead⟩ := hmembers.members_head
      have hclose := skipBlanks_closing true depth '}' (by decide) r
      cases hclose.symm.trans hhead
    exact ⟨hne, nonEmpty_of_readMembers maps depth _ r r' hne hplain.1 hbuilt.2 hplain.2
      (skipBlanks_newline true _) hmembers⟩

/-- Where the text of items is read, no container below them is empty. -/
theorem nonEmpty_of_readItems : ∀ (items : List (JBaseObj F)) (depth : Nat) (s r r' : List Char),
    items ≠ [] → EveryItem Built items → EveryItem PlainStrings items →
    skipBlanks s = skipBlanks (writeItems float true depth items ++
      (indent true depth ++ ']' :: r)) →
    Reads (codeRules float) .items s r' → EveryItem NonEmpty items
  | [], depth, s, r, r', hne, hbuilt, hplain, hs, hreads => absurd rfl hne
  | obj :: items, depth, s, r, r', hne, hbuilt, hplain, hs, hreads => by
    rw [EveryItem] at hbuilt hplain
    rw [skipBlanks_writeItems float hbuilt.1] at hs
    have hends : Ends (afterItem true items.isEmpty (writeItems float true depth items ++
        (indent true depth ++ ']' :: r))) := by
      refine ends_afterItem true depth ']' (by decide) _ _ r fun hlast => ?_
      rw [List.isEmpty_iff.mp hlast]
      rfl
    obtain ⟨t, hvalue⟩ : ∃ t, Reads (codeRules float) .value s t := by
      cases hreads with
      | lastItem hvalue _ => exact ⟨_, hvalue⟩
      | item hvalue _ _ => exact ⟨_, hvalue⟩
    have hobj := nonEmpty_of_reads obj (depth + 1) s _ t hbuilt.1 hplain.1 hs hvalue
    refine ⟨hobj, ?_⟩
    -- a single item is all there is
    by_cases hlast : items = []
    · rw [hlast]
      trivial
    · -- the first item ends where it was written to
      have hread := reads_write float hbuilt.1
        ((hplain.1.and hobj).imp fun _ h => ⟨h.1, fun _ => h.2⟩) hs hends
      have hcomma : skipBlanks (afterItem true items.isEmpty (writeItems float true depth items ++
          (indent true depth ++ ']' :: r))) = ',' :: (newline true ++
            (writeItems float true depth items ++ (indent true depth ++ ']' :: r))) := by
        rw [List.isEmpty_eq_false_iff.mpr hlast]
        exact skipBlanks_comma true _
      -- the text says that an item follows, so this is not the last one
      cases hreads with
      | lastItem hvalue hclose =>
        obtain ⟨rfl, -⟩ := hread.meet hvalue
        cases hcomma.symm.trans hclose
      | item hvalue hsep hitems =>
        obtain ⟨rfl, -⟩ := hread.meet hvalue
        obtain rfl := hsep.comma_eq hcomma
        exact nonEmpty_of_readItems items depth _ r r' hlast hbuilt.2 hplain.2
          (skipBlanks_newline true _) hitems

/-- Where the text of members is read, no container below them is empty. -/
theorem nonEmpty_of_readMembers : ∀ (maps : List (List Char × JBaseObj F)) (depth : Nat)
    (s r r' : List Char), maps ≠ [] → (∀ p ∈ maps, Readable p.1) →
    EveryMember Built maps → EveryMember PlainStrings maps →
    skipBlanks s = skipBlanks (writeMembers float true depth maps ++
      (indent true depth ++ '}' :: r)) →
    Reads (codeRules float) .members s r' → EveryMember NonEmpty maps
  | [], depth, s, r, r', hne, hkeys, hbuilt, hplain, hs, hreads => absurd rfl hne
  | (key, obj) :: maps, depth, s, r, r', hne, hkeys, hbuilt, hplain, hs, hreads => by
    rw [EveryMember] at hbuilt hplain
    rw [skipBlanks_writeMembers] at hs
    obtain ⟨hkey, hkeys⟩ := List.forall_mem_cons.mp hkeys
    have hreadKey := key_writeMembers float hkey hs
    have hstarts := (write_starts float hbuilt.1 true (depth + 1) (afterItem true maps.isEmpty
      (writeMembers float true depth maps ++ (indent true depth ++ '}' :: r)))).skipBlanks_eq
    have hends : Ends (afterItem true maps.isEmpty (writeMembers float true depth maps ++
        (indent true depth ++ '}' :: r))) := by
      refine ends_afterItem true depth '}' (by decide) _ _ r fun hlast => ?_
      rw [List.isEmpty_iff.mp hlast]
      rfl
    obtain ⟨t, hvalue⟩ : ∃ t, Reads (codeRules float) .value (obj.write float true (depth + 1) ++
        afterItem true maps.isEmpty (writeMembers float true depth maps ++
          (indent true depth ++ '}' :: r))) t := by
      cases hreads with
      | lastMember hkey' hvalue _ =>
        obtain ⟨-, rfl, -⟩ := hreadKey.meet hkey'
        exact ⟨_, hvalue⟩
      | member hkey' hvalue _ _ =>
        obtain ⟨-, rfl, -⟩ := hreadKey.meet hkey'
        exact ⟨_, hvalue⟩
    have hobj := nonEmpty_of_reads obj (depth + 1) _ _ t hbuilt.1 hplain.1 hstarts hvalue
    refine ⟨hobj, ?_⟩
    by_cases hlast : maps = []
    · rw [hlast]
      trivial
    · have hread := reads_write float hbuilt.1
        ((hplain.1.and hobj).imp fun _ h => ⟨h.1, fun _ => h.2⟩) hstarts hends
      -- the value ends where it was written to, so the comma is the separator
      have hcomma : skipBlanks (afterItem true maps.isEmpty (writeMembers float true depth maps ++
          (indent true depth ++ '}' :: r))) = ',' :: (newline true ++
            (writeMembers float true depth maps ++ (indent true depth ++ '}' :: r))) := by
        rw [List.isEmpty_eq_false_iff.mpr hlast]
        exact skipBlanks_comma true _
      -- the text says that a member follows, so this is not the last one
      cases hreads with
      | lastMember hkey' hvalue hclose =>
        obtain ⟨-, rfl, -⟩ := hreadKey.meet hkey'
        obtain ⟨rfl, -⟩ := hread.meet hvalue
        cases hcomma.symm.trans hclose
      | member hkey' hvalue hsep hmembers =>
        obtain ⟨-, rfl, -⟩ := hreadKey.meet hkey'
        obtain ⟨rfl, -⟩ := hread.meet hvalue
        obtain rfl := hsep.comma_eq hcomma
        exact nonEmpty_of_readMembers maps depth _ r r' hlast hkeys hbuilt.2 hplain.2
          (skipBlanks_newline true _) hmembers

end

/-! ## The round trip -/

/-- The text of a value has no NUL. -/
theorem value_no_nul {id : Nat} {v : JValue F} (hbuilt : Built (.value id v)) :
    '\x00' ∉ v.write float := by
  cases v with
  | eJ_INT iv =>
    obtain ⟨sign, hsign, hwrite, -⟩ := to_string_eq iv
    rw [JValue.write, hwrite, List.mem_append]
    rintro (hmem | hmem)
    · obtain rfl | rfl := hsign <;> revert hmem <;> decide
    · exact Bool.noConfusion (isDigit_of_mem_toDigits hmem)
  | eJ_FLOAT fv => exact hbuilt.elim
  | eJ_NULL => simp [JValue.write]
  | eJ_STRING sv =>
    have hsv : '\x00' ∉ sv := hbuilt
    simp [JValue.write, hsv]
  | eJ_BOOL bv => cases bv <;> simp [JValue.write]

/-- No part of a layout has a NUL. -/
theorem layout_no_nul (layout : Bool) (depth : Nat) (last : Bool) :
    '\x00' ∉ newline layout ∧ '\x00' ∉ indent layout depth ∧ '\x00' ∉ comma last := by
  refine ⟨by cases layout <;> decide, ?_, by cases last <;> decide⟩
  cases layout with
  | false => exact List.not_mem_nil
  | true =>
    intro hmem
    cases List.eq_of_mem_replicate hmem

mutual

/-- The text of a tree has no NUL, -/
theorem write_no_nul (layout : Bool) : ∀ (obj : JBaseObj F) (depth : Nat),
    Everywhere Built obj → '\x00' ∉ obj.write float layout depth
  | .value id v, depth, hbuilt => by
    rw [Everywhere] at hbuilt
    rw [JBaseObj.write]
    exact value_no_nul float hbuilt
  | .array id items, depth, hbuilt => by
    have hitems := writeItems_no_nul layout items depth hbuilt.2
    obtain ⟨hnewline, hindent, -⟩ := layout_no_nul layout depth true
    rw [JBaseObj.write]
    simp [hitems, hnewline, hindent]
  | .object id maps, depth, hbuilt => by
    have hmaps := writeMembers_no_nul layout maps depth hbuilt.1.2 hbuilt.2
    obtain ⟨hnewline, hindent, -⟩ := layout_no_nul layout depth true
    rw [JBaseObj.write]
    simp [hmaps, hnewline, hindent]

/-- nor has that of its items, -/
theorem writeItems_no_nul (layout : Bool) : ∀ (items : List (JBaseObj F)) (depth : Nat),
    EveryItem Built items → '\x00' ∉ writeItems float layout depth items
  | [], depth, hbuilt => List.not_mem_nil
  | obj :: items, depth, hbuilt => by
    have hobj := write_no_nul layout obj (depth + 1) hbuilt.1
    have hitems := writeItems_no_nul layout items depth hbuilt.2
    obtain ⟨hnewline, hindent, hcomma⟩ := layout_no_nul layout (depth + 1) items.isEmpty
    rw [writeItems]
    simp [hobj, hitems, hnewline, hindent, hcomma]

/-- nor that of its members. -/
theorem writeMembers_no_nul (layout : Bool) : ∀ (maps : List (List Char × JBaseObj F))
    (depth : Nat), (∀ p ∈ maps, '\x00' ∉ p.1) → EveryMember Built maps →
    '\x00' ∉ writeMembers float layout depth maps
  | [], depth, hkeys, hbuilt => List.not_mem_nil
  | (key, obj) :: maps, depth, hkeys, hbuilt => by
    obtain ⟨hkey, hkeys⟩ := List.forall_mem_cons.mp hkeys
    have hobj := write_no_nul layout obj (depth + 1) hbuilt.1
    have hmaps := writeMembers_no_nul layout maps depth hkeys hbuilt.2
    obtain ⟨hnewline, hindent, hcomma⟩ := layout_no_nul layout (depth + 1) maps.isEmpty
    rw [writeMembers]
    simp [hkey, hobj, hmaps, hnewline, hindent, hcomma]

end

/-- The text of a tree. -/
def written (t : Tree F) (layout : Bool) : Text :=
  ⟨write float t.obj layout, write_no_nul float layout t.obj 0 t.built⟩

/-- A tree that the parser gives is one that the reader gave. -/
theorem parser_eq_of_node {str : Text} {obj : JBaseObj F} {b : JsonBuff}
    (h : parser float str = .node obj b) :
    ∃ b', reader float (depth str.bytes) (.new str) = .node obj b' := by
  rw [parser] at h
  dsimp only at h
  split at h
  · next obj' b' hnode =>
    split at h
    · cases h
    · obtain ⟨rfl, -⟩ := Res.node.inj h
      exact ⟨b', hnode⟩
  · cases h
  · cases h
  · cases h

/-- A tree comes back from its text just when it is plain. -/
theorem parser_write_iff (float : FloatText F) (t : Tree F) (layout : Bool) :
    (∃ obj b, parser float (written float t layout) = .node obj b ∧ obj.tree = t.obj.tree) ↔
      Everywhere (Plain layout) t.obj := by
  have hs : skipBlanks (written float t layout).bytes =
      t.obj.write float layout 0 ++ ([] : List Char) := by
    have hstarts := (write_starts float t.built layout 0 []).skipBlanks_eq
    rw [List.append_nil] at hstarts ⊢
    exact hstarts
  have hends : Ends [] := fun c hc => by cases hc
  -- nothing follows the tree in its text
  constructor
  · rintro ⟨obj, b, hnode, htree⟩
    obtain ⟨b', hread⟩ := parser_eq_of_node float hnode
    have hstrings : Everywhere PlainStrings t.obj := by
      -- the reader makes plain strings only, and the tree has the same
      rw [← everywhere_tree plainStrings_tree, ← htree, everywhere_tree plainStrings_tree]
      exact (reader_plainStrings float _).1 _ _ _ hread
    cases layout with
    | false => exact hstrings.imp fun _ h => ⟨h, nofun⟩
    | true =>
      -- with a layout, an empty container could not have been read
      have hreads := (reader_sound float _).1 _ _ _ hread
      have hnonempty := nonEmpty_of_reads float t.obj 0 _ _ _ t.built hstrings hs hreads
      exact (hstrings.and hnonempty).imp fun _ h => ⟨h.1, fun _ => h.2⟩
  · intro hplain
    obtain ⟨obj, b, hnode, htree, hr⟩ := reader_write float layout t.obj 0
      (depth (written float t layout).bytes) (.new (written float t layout)) [] t.built hplain hs
      hends (Nat.le_refl _)
    -- nothing is left of the text, so the parser does not complain
    have hend : ¬b.skip.curr ≠ '\x00' := by
      have hrest : b.skip.rest = [] := by
        rw [rest_skip, hr]
        rfl
      rw [curr, hrest]
      decide
    refine ⟨obj, b.skip, ?_, htree⟩
    rw [parser]
    dsimp only
    rw [hnode]
    exact if_neg hend

/-- An empty array. -/
def emptyArray : Tree Empty := ⟨.array 0 [], trivial, trivial⟩

/-- An empty array that is written with a layout does not come back. -/
theorem emptyArray_lost :
    ¬∃ obj b, parser ⟨Empty.elim, fun _ => none⟩
      (written ⟨Empty.elim, fun _ => none⟩ emptyArray true) = .node obj b ∧
        obj.tree = emptyArray.obj.tree := by
  rintro ⟨obj, b, hnode, -⟩
  cases hnode

end Json

end Athena
