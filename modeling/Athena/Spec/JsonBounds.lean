import Mathlib.Data.List.Basic
import Athena.Native.JsonReader

/-!
# The JSON reader stays inside its text

The cursor only moves over bytes that were looked at: one of them, a word that was compared,
or those of a loop.  So it never passes the NUL, and what is left is always an end of the
text.  A node takes at least one byte, which is why the calls end.

## Key results

- `readBase_inside`, `reader_inside`: the functions stay inside the text
- `reader_finishes`: two calls for each byte are enough
- `parser_inside`: the whole parser
-/

namespace Athena

namespace Json

variable {F : Type}

namespace JsonBuff

/-! ## The cursor -/

/-- A cursor that does not show the NUL has a character under it. -/
theorem rest_of_curr {b : JsonBuff} (h : b.curr ≠ '\x00') : ∃ s, b.rest = b.curr :: s := by
  cases hrest : b.rest with
  | nil =>
    rw [curr, hrest] at h
    exact absurd rfl h
  | cons c s =>
    rw [curr, hrest]
    exact ⟨s, rfl⟩

/-- The character that it shows is the next one. -/
theorem rest_of_curr_eq {b : JsonBuff} {c : Char} (h : b.curr = c) (hc : c ≠ '\x00') :
    ∃ s, b.rest = c :: s := by
  obtain ⟨s, hs⟩ := rest_of_curr (h ▸ hc : b.curr ≠ '\x00')
  rw [h] at hs
  exact ⟨s, hs⟩

/-- The next character is the one that it shows. -/
theorem curr_of_rest {b : JsonBuff} {c : Char} {s : List Char} (h : b.rest = c :: s) :
    b.curr = c := by
  rw [curr, h]
  rfl

/-- What is left of a text after some moves inside it. -/
structure Within (b b' : JsonBuff) : Prop where
  suffix : b'.rest <:+ b.rest
  past : b'.past = b.past

/-- A cursor that is not moved. -/
theorem Within.refl (b : JsonBuff) : Within b b := ⟨List.suffix_refl _, rfl⟩

/-- Two moves, one after the other. -/
theorem Within.trans {b b' b'' : JsonBuff} (h : Within b b') (h' : Within b' b'') :
    Within b b'' :=
  ⟨h'.suffix.trans h.suffix, h'.past.trans h.past⟩

/-- A move inside the text leaves no more of it. -/
theorem Within.length_le {b b' : JsonBuff} (h : Within b b') : b'.rest.length ≤ b.rest.length :=
  h.suffix.length_le

/-- A loop over characters stays inside the text. -/
theorem within_goWhile (b : JsonBuff) (keep : Char → Bool) : Within b (b.goWhile keep) :=
  ⟨List.dropWhile_suffix keep, rfl⟩

/-- So does the loop over blanks. -/
theorem within_skip (b : JsonBuff) : Within b b.skip := within_goWhile b isBlank

/-- A move over bytes that are there. -/
theorem within_go {b : JsonBuff} {len : Nat} (h : len ≤ b.rest.length) : Within b (b.go len) := by
  refine ⟨List.drop_suffix len b.rest, ?_⟩
  have hlt : decide (b.rest.length < len) = false := decide_eq_false (by omega)
  rw [go, hlt, Bool.or_false]

/-- A move by some characters leaves so many less. -/
theorem length_go (b : JsonBuff) (len : Nat) : (b.go len).rest.length = b.rest.length - len :=
  List.length_drop

/-- A cursor that does not show the NUL can be moved by one. -/
theorem length_pos_of_curr {b : JsonBuff} (h : b.curr ≠ '\x00') : 1 ≤ b.rest.length := by
  obtain ⟨s, hs⟩ := rest_of_curr h
  rw [hs, List.length_cons]
  omega

/-- So can one that shows some other character. -/
theorem length_pos_of_curr_eq {b : JsonBuff} {c : Char} (h : b.curr = c) (hc : c ≠ '\x00') :
    1 ≤ b.rest.length :=
  length_pos_of_curr (h ▸ hc)

/-- Changes to the heap do not move the cursor. -/
theorem within_alloc (b : JsonBuff) : Within b b.alloc.2 := ⟨List.suffix_refl _, rfl⟩

/-- Deleting objects does not move the cursor. -/
theorem within_delete (b : JsonBuff) (ids : List Nat) : Within b (b.delete ids) :=
  ⟨List.suffix_refl _, rfl⟩

/-- Nor does an object that is lost. -/
theorem rest_leak (b : JsonBuff) (old : Option (JBaseObj F)) : (b.leak old).rest = b.rest := by
  cases old <;> rfl

/-- A lost object leaves the cursor where it is. -/
theorem within_leak (b : JsonBuff) (old : Option (JBaseObj F)) : Within b (b.leak old) := by
  cases old with
  | none => exact .refl b
  | some old => exact ⟨List.suffix_refl _, rfl⟩

end JsonBuff

open JsonBuff

/-- The cursor is inside the text, and a node has taken some of it. -/
def Res.Inside (b : JsonBuff) : Res F → Prop
  | .node _ b' => Within b b' ∧ b'.rest.length < b.rest.length
  | .null b' => Within b b'
  | .thrown b' => Within b b'
  | .timeout => True

/-- What stays inside a rest of the text stays inside the text. -/
theorem Res.Inside.of_within {b b' : JsonBuff} (hb : Within b b') {res : Res F}
    (h : res.Inside b') : res.Inside b := by
  cases res with
  | node obj b'' => exact ⟨hb.trans h.1, Nat.lt_of_lt_of_le h.2 hb.length_le⟩
  | null b'' => exact hb.trans h
  | thrown b'' => exact hb.trans h
  | timeout => exact h

/-! ## Scalars -/

/-- A new value behind a move that took something. -/
theorem newValue_inside {b b' : JsonBuff} (hb : Within b b') (hlt : b'.rest.length < b.rest.length)
    (v : JValue F) : (newValue b' v).Inside b :=
  ⟨hb.trans (within_alloc b'), hlt⟩

/-- A string that is read takes at least its quotes. -/
theorem readStr_inside {b b' : JsonBuff} {s : Option (List Char)} (h : readStr b = (s, b')) :
    Within b b' ∧ (s ≠ none → b'.rest.length < b.rest.length) := by
  rw [readStr] at h
  split at h
  · next hquote =>
    -- the quote is looked at before it is passed
    have hlen := length_pos_of_curr_eq hquote (by decide)
    have hps := (within_go hlen).trans (within_goWhile (b.go 1) (· ≠ '"'))
    dsimp only at h
    split at h
    -- so is the closing one
    · next hend =>
      obtain ⟨rfl, rfl⟩ := Prod.mk.inj h
      have hend' := length_pos_of_curr_eq (of_decide_eq_true (Bool.and_eq_true_iff.mp hend).2)
        (by decide)
      have hle := hps.length_le
      exact ⟨hps.trans (within_go hend'), fun _ => by rw [length_go]; omega⟩
    · obtain ⟨rfl, rfl⟩ := Prod.mk.inj h
      exact ⟨hps, fun hs => absurd rfl hs⟩
  · obtain ⟨rfl, rfl⟩ := Prod.mk.inj h
    exact ⟨.refl b, fun hs => absurd rfl hs⟩

/-- The loop over a number leaves an end of the text, and a digit is one byte. -/
theorem scanNumber_suffix (isfloat : Bool) (numpos : Nat) (str : List Char) :
    (scanNumber isfloat numpos str).2 <:+ str ∧
      ∀ isfloat' numpos', (scanNumber isfloat numpos str).1 = some (isfloat', numpos') →
        (scanNumber isfloat numpos str).2.length + numpos' ≤ str.length + numpos := by
  -- by induction on the scan: it goes over what it looks at, and counts the digits
  fun_induction scanNumber isfloat numpos str with
  | case1 isfloat numpos =>
    refine ⟨List.suffix_refl _, fun isfloat' numpos' h => ?_⟩
    obtain ⟨-, rfl⟩ := Prod.mk.inj (Option.some.inj h)
    exact Nat.le_refl _
  | case2 numpos str => exact ⟨List.suffix_refl _, fun isfloat' numpos' h => by cases h⟩
  | case3 isfloat numpos str hfloat ih =>
    refine ⟨ih.1.trans (List.suffix_cons _ _), fun isfloat' numpos' h => ?_⟩
    have hlen := ih.2 isfloat' numpos' h
    rw [List.length_cons]
    omega
  | case4 isfloat numpos c str hdot hdigit ih =>
    refine ⟨ih.1.trans (List.suffix_cons _ _), fun isfloat' numpos' h => ?_⟩
    have hlen := ih.2 isfloat' numpos' h
    rw [List.length_cons]
    omega
  | case5 isfloat numpos c str hdot hdigit =>
    refine ⟨List.suffix_refl _, fun isfloat' numpos' h => ?_⟩
    obtain ⟨-, rfl⟩ := Prod.mk.inj (Option.some.inj h)
    exact Nat.le_refl _

/-- A string value stays inside the text. -/
theorem readBaseStr_inside (b : JsonBuff) : (readBaseStr b : Res F).Inside b := by
  rw [readBaseStr]
  split
  · next s b' hstr =>
    obtain ⟨hwithin, hlt⟩ := readStr_inside hstr
    exact newValue_inside hwithin (hlt (by simp)) _
  · next b' hstr => exact (readStr_inside hstr).1

/-- The sign of a number. -/
theorem within_sign (b : JsonBuff) : Within b (if b.curr = '-' then b.go 1 else b) := by
  split
  · next hsign => exact within_go (length_pos_of_curr_eq hsign (by decide))
  · exact .refl b

variable (float : FloatText F)

/-- A number stays inside the text, and so does what is taken for a string. -/
theorem readBaseNumber_inside (b : JsonBuff) : (readBaseNumber float b).Inside b := by
  rw [readBaseNumber]
  have hsign := within_sign b
  dsimp only
  generalize hb' : (if b.curr = '-' then b.go 1 else b) = b' at hsign ⊢
  obtain ⟨hsuffix, hdigits⟩ := scanNumber_suffix false 0 b'.rest
  split
  · next rest hscan =>
    rw [hscan] at hsuffix
    exact hsign.trans ⟨hsuffix, rfl⟩
  · next isfloat numpos rest hscan =>
    rw [hscan] at hsuffix hdigits
    have hrest : Within b' { b' with rest := rest } := ⟨hsuffix, rfl⟩
    split
    -- digits have been taken
    · next hpos =>
      have hlen : rest.length + numpos ≤ b'.rest.length + 0 := hdigits isfloat numpos rfl
      have hle := hsign.length_le
      split
      · exact newValue_inside (hsign.trans hrest) (by dsimp only; omega) _
      · exact (hsign.trans hrest).trans (within_alloc _)
    -- no digit: what follows may be a string
    · exact (readBaseStr_inside _).of_within (hsign.trans hrest)

/-- A word that was compared is there. -/
theorem length_of_isPrefixOf {w s : List Char} (h : w.isPrefixOf s = true) : w.length ≤ s.length :=
  (List.isPrefixOf_iff_prefix.mp h).length_le

/-- A value behind such a word. -/
theorem newValue_go_inside {b : JsonBuff} {len : Nat} (hpos : 0 < len) (h : len ≤ b.rest.length)
    (v : JValue F) : (newValue (b.go len) v).Inside b := by
  refine newValue_inside (within_go h) ?_ v
  rw [length_go]
  omega

/-- A scalar stays inside the text. -/
theorem readBase_inside (b : JsonBuff) : (readBase float b).Inside b := by
  rw [readBase]
  split
  · next hnull => exact newValue_go_inside (by decide) (length_of_isPrefixOf hnull) _
  · split
    · next hfalse => exact newValue_go_inside (by decide) (length_of_isPrefixOf hfalse) _
    · split
      · next htrue => exact newValue_go_inside (by decide) (length_of_isPrefixOf htrue) _
      · exact readBaseNumber_inside float b

/-! ## Arrays and objects -/

/-- The end of an array stays inside the text, -/
theorem endArray_inside (objs : List (JBaseObj F)) (b : JsonBuff) : (endArray objs b).Inside b := by
  rw [endArray]
  split
  · next hend =>
    have hlen := length_pos_of_curr_eq hend (by decide)
    refine ⟨(within_go hlen).trans (within_alloc _), ?_⟩
    have hgo := length_go b 1
    exact Nat.lt_of_le_of_lt (Nat.le_of_eq hgo) (by omega)
  · exact within_delete b _

/-- and so does that of an object. -/
theorem endObj_inside (objs : List (List Char × JBaseObj F)) (b : JsonBuff) :
    (endObj objs b).Inside b := by
  rw [endObj]
  split
  · next hend =>
    have hlen := length_pos_of_curr_eq hend (by decide)
    refine ⟨(within_go hlen).trans (within_alloc _), ?_⟩
    have hgo := length_go b 1
    exact Nat.lt_of_le_of_lt (Nat.le_of_eq hgo) (by omega)
  · exact within_delete b _

/-- A key that is read takes something. -/
theorem readKey_inside {b b' : JsonBuff} {s : Option (List Char)} (h : readKey b = (s, b')) :
    Within b b' ∧ (s ≠ none → b'.rest.length < b.rest.length) := by
  have hskip := within_skip b
  have hle := hskip.length_le
  rw [readKey] at h
  split at h
  · split at h
    · next s' b'' hstr =>
      obtain ⟨hwithin, hlt⟩ := readStr_inside hstr
      have hlt := hlt (by simp)
      split at h
      -- the colon is looked at before it is passed
      · next hcolon =>
        obtain ⟨rfl, rfl⟩ := Prod.mk.inj h
        have hlen := length_pos_of_curr_eq hcolon (by decide)
        exact ⟨(hskip.trans hwithin).trans (within_go hlen), fun _ => by rw [length_go]; omega⟩
      · obtain ⟨rfl, rfl⟩ := Prod.mk.inj h
        exact ⟨hskip.trans hwithin, fun hs => absurd rfl hs⟩
    · next b'' hstr =>
      obtain ⟨rfl, rfl⟩ := Prod.mk.inj h
      exact ⟨hskip.trans (readStr_inside hstr).1, fun hs => absurd rfl hs⟩
  · obtain ⟨rfl, rfl⟩ := Prod.mk.inj h
    exact ⟨hskip, fun hs => absurd rfl hs⟩

/-- The three functions that call each other stay inside the text. -/
theorem reader_inside (fuel : Nat) :
    (∀ b : JsonBuff, (reader float fuel b).Inside b) ∧
      (∀ (objs : List (JBaseObj F)) (b : JsonBuff), (readItem float fuel objs b).Inside b) ∧
      ∀ (objs : List (List Char × JBaseObj F)) (b : JsonBuff),
        (readMember float fuel objs b).Inside b := by
  induction fuel with
  | zero =>
    refine ⟨fun b => ?_, fun objs b => ?_, fun objs b => ?_⟩
    · rw [reader]; trivial
    · rw [readItem]; trivial
    · rw [readMember]; trivial
  | succ fuel ih =>
    obtain ⟨ihReader, ihItem, ihMember⟩ := ih
    refine ⟨fun b => ?_, fun objs b => ?_, fun objs b => ?_⟩
    -- a container starts with its bracket, which is consumed
    · rw [reader]
      apply Res.Inside.of_within (within_skip b)
      dsimp only
      split
      · next hopen =>
        apply Res.Inside.of_within (within_go (length_pos_of_curr_eq hopen (by decide)))
        split
        · exact ihItem _ _
        · exact endArray_inside _ _
      · split
        · next hopen =>
          apply Res.Inside.of_within (within_go (length_pos_of_curr_eq hopen (by decide)))
          split
          · exact ihMember _ _
          · exact endObj_inside _ _
        · exact readBase_inside float _
    -- an item, then a comma or the end
    · rw [readItem]
      have hreader := ihReader b
      split
      · next obj b' hnode =>
        rw [hnode] at hreader
        apply Res.Inside.of_within (hreader.1.trans (within_skip b'))
        dsimp only
        split
        · next hcomma =>
          exact (ihItem _ _).of_within (within_go (length_pos_of_curr_eq hcomma (by decide)))
        · split
          · exact ihItem _ _
          · exact endArray_inside _ _
      · next b' hnull =>
        rw [hnull] at hreader
        exact hreader.trans (within_delete b' _)
      -- what is thrown or runs out passes through
      · next b' hthrown =>
        rw [hthrown] at hreader
        exact hreader
      · trivial
    -- a key, then an item, then a comma or the end
    · rw [readMember]
      split
      · next b' hkey => exact (readKey_inside hkey).1.trans (within_delete b' _)
      · next s b' hkey =>
        have hwithin := (readKey_inside hkey).1
        have hreader := (ihReader b').of_within hwithin
        split
        · next obj b'' hnode =>
          rw [hnode] at hreader
          apply Res.Inside.of_within
            ((hreader.1.trans (within_leak b'' (SortedMap.find s objs))).trans (within_skip _))
          dsimp only
          split
          · next hcomma =>
            exact (ihMember _ _).of_within (within_go (length_pos_of_curr_eq hcomma (by decide)))
          · split
            · exact ihMember _ _
            · exact endObj_inside _ _
        · next b'' hnull =>
          rw [hnull] at hreader
          exact hreader.trans (within_delete b'' _)
        · next b'' hthrown =>
          rw [hthrown] at hreader
          exact hreader
        · trivial

/-- A node takes at least one byte. -/
theorem reader_shorter {fuel : Nat} {b b' : JsonBuff} {obj : JBaseObj F}
    (h : reader float fuel b = .node obj b') : b'.rest.length < b.rest.length := by
  have hinside := (reader_inside float fuel).1 b
  rw [h] at hinside
  exact hinside.2

/-! ## The end of the calls -/

/-- A new value does not run out of calls, -/
theorem newValue_ne_timeout (b : JsonBuff) (v : JValue F) : newValue b v ≠ .timeout := nofun

/-- nor does the end of an array, -/
theorem endArray_ne_timeout (objs : List (JBaseObj F)) (b : JsonBuff) :
    endArray objs b ≠ .timeout := by
  rw [endArray]
  split <;> exact nofun

/-- nor that of an object, -/
theorem endObj_ne_timeout (objs : List (List Char × JBaseObj F)) (b : JsonBuff) :
    endObj objs b ≠ .timeout := by
  rw [endObj]
  split <;> exact nofun

/-- nor a scalar. -/
theorem readBase_ne_timeout (b : JsonBuff) : readBase float b ≠ .timeout := by
  rw [readBase]
  split
  · exact newValue_ne_timeout _ _
  · split
    · exact newValue_ne_timeout _ _
    · split
      · exact newValue_ne_timeout _ _
      · rw [readBaseNumber]
        dsimp only
        split
        · exact nofun
        · split
          · split
            · exact newValue_ne_timeout _ _
            · exact nofun
          · rw [readBaseStr]
            split
            · exact newValue_ne_timeout _ _
            · exact nofun

/-- Each byte needs at most two more calls: one that reads a value, and the loop around it. -/
theorem reader_finishes (fuel : Nat) :
    (∀ b : JsonBuff, 2 * b.rest.length + 1 ≤ fuel → reader float fuel b ≠ .timeout) ∧
      (∀ (objs : List (JBaseObj F)) (b : JsonBuff), 2 * b.rest.length + 2 ≤ fuel →
        readItem float fuel objs b ≠ .timeout) ∧
      ∀ (objs : List (List Char × JBaseObj F)) (b : JsonBuff), 2 * b.rest.length + 2 ≤ fuel →
        readMember float fuel objs b ≠ .timeout := by
  induction fuel with
  | zero =>
    refine ⟨fun b hfuel => ?_, fun objs b hfuel => ?_, fun objs b hfuel => ?_⟩
    · omega
    · omega
    · omega
  | succ fuel ih =>
    obtain ⟨ihReader, ihItem, ihMember⟩ := ih
    refine ⟨fun b hfuel => ?_, fun objs b hfuel => ?_, fun objs b hfuel => ?_⟩
    · have hskip := (within_skip b).length_le
      rw [reader]
      dsimp only
      split
      · next hopen =>
        -- the bracket is one byte
        have hlen := length_pos_of_curr_eq hopen (by decide)
        have hgo := length_go b.skip 1
        split
        · exact ihItem _ _ (by omega)
        · exact endArray_ne_timeout _ _
      · split
        · next hopen =>
          have hlen := length_pos_of_curr_eq hopen (by decide)
          have hgo := length_go b.skip 1
          split
          · exact ihMember _ _ (by omega)
          · exact endObj_ne_timeout _ _
        · exact readBase_ne_timeout float _
    · have hreader := ihReader b (by omega)
      rw [readItem]
      split
      · next obj b' hnode =>
        -- so is the value
        have hshorter := reader_shorter float hnode
        have hskip := (within_skip b').length_le
        have hgo := length_go b'.skip 1
        dsimp only
        split
        · exact ihItem _ _ (by omega)
        · split
          · exact ihItem _ _ (by omega)
          · exact endArray_ne_timeout _ _
      · exact nofun
      · exact nofun
      · next htimeout => exact absurd htimeout hreader
    · rw [readMember]
      split
      · exact nofun
      · next s b' hkey =>
        obtain ⟨hwithin, hlt⟩ := readKey_inside hkey
        have hlt := hlt (by simp)
        have hreader := ihReader b' (by omega)
        split
        · next obj b'' hnode =>
          have hshorter := reader_shorter float hnode
          have hskip := (within_skip (b''.leak (SortedMap.find s objs))).length_le
          have hgo := length_go (b''.leak (SortedMap.find s objs)).skip 1
          rw [rest_leak] at hskip
          dsimp only
          split
          · exact ihMember _ _ (by omega)
          · split
            · exact ihMember _ _ (by omega)
            · exact endObj_ne_timeout _ _
        · exact nofun
        · exact nofun
        · next htimeout => exact absurd htimeout hreader

/-- The reader does not run out of two calls for each byte. -/
theorem reader_ne_timeout (b : JsonBuff) : reader float (depth b.rest) b ≠ .timeout :=
  (reader_finishes float (depth b.rest)).1 b (Nat.le_refl _)

/-! ## The parser -/

/-- The parser ends, its cursor stays between the first byte and the NUL, and so does that
of each call of `reader`, which takes at least one byte for a node. -/
theorem parser_inside (float : FloatText F) (str : Text) :
    parser float str ≠ .timeout ∧ (parser float str).Inside (.new str) ∧
      ∀ (fuel : Nat) (b : JsonBuff), (reader float fuel b).Inside b := by
  have hfinish := reader_ne_timeout float (.new str)
  have hinside := (reader_inside float (depth str.bytes)).1 (.new str)
  refine ⟨?_, ?_, fun fuel b => (reader_inside float fuel).1 b⟩
  -- enough fuel: `parser` only adds the test of what is left
  · rw [parser]
    dsimp only
    split
    · split <;> exact nofun
    · exact nofun
    · exact nofun
    · next htimeout => exact absurd htimeout hfinish
  · rw [parser]
    dsimp only
    split
    · next obj b hnode =>
      rw [hnode] at hinside
      obtain ⟨hwithin, hlt⟩ := hinside
      have hskip := within_skip b
      -- text is left: the tree is deleted, else it is the result
      split
      · exact (hwithin.trans hskip).trans (within_delete _ _)
      · exact ⟨hwithin.trans hskip, Nat.lt_of_le_of_lt hskip.length_le hlt⟩
    · next b hnull =>
      rw [hnull] at hinside
      exact hinside.trans (within_skip b)
    · next b hthrown =>
      rw [hthrown] at hinside
      exact hinside
    · trivial

end Json

end Athena
