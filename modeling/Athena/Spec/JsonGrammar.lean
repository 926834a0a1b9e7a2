import Mathlib.Data.List.DropRight
import Athena.Native.JsonReader

/-!
# Grammars of JSON texts

`Reads o k s r` says that a text `s` begins with a value, with the items of an array or with
the members of an object, and that `r` is the text after it.  The rules `o` say where a text
may be more than plain JSON, and which literals are numbers.  A text is read in one way only,
under whatever rules, so a text that two sets of rules read keeps to what both of them allow.

## Key results

- `Reads.meet`: the reading is unique, and under the rules that both have
- `Reads.shorter`: a reading takes at least one byte
-/

namespace Athena

namespace Json

open JsonBuff

/-! ## Tokens -/

/-- The text after its blanks. -/
def skipBlanks (s : List Char) : List Char := s.dropWhile isBlank

/-- What the cursor skips are the blanks. -/
theorem rest_skip (b : JsonBuff) : b.skip.rest = skipBlanks b.rest := rfl

/-- Blanks are skipped once. -/
theorem skipBlanks_skipBlanks (s : List Char) : skipBlanks (skipBlanks s) = skipBlanks s :=
  List.dropWhile_idempotent isBlank s

/-- Another character is not skipped. -/
theorem skipBlanks_cons {c : Char} (hc : isBlank c = false) (s : List Char) :
    skipBlanks (c :: s) = c :: s := by
  rw [skipBlanks, List.dropWhile_cons_of_neg (by rw [hc]; decide)]

/-- Skipping blanks makes a text no longer. -/
theorem length_skipBlanks_le (s : List Char) : (skipBlanks s).length ≤ s.length :=
  (List.dropWhile_suffix _).length_le

/-- A character of a number, after its sign. -/
def isNumeric (c : Char) : Bool := c = '.' || isDigit c

/-- A sign, digits and at most one dot, with a digit. -/
structure Literal (sign run : List Char) : Prop where
  sign_eq : sign = [] ∨ sign = ['-']
  numeric : ∀ c ∈ run, isNumeric c = true
  dots : run.count '.' ≤ 1
  digit : ∃ c ∈ run, isDigit c = true

/-- No digit and no dot follows. -/
def Ends (r : List Char) : Prop := ∀ c ∈ r.head?, isNumeric c = false

/-- The words of a value. -/
def words : List (List Char) := ["null".toList, "false".toList, "true".toList]

/-- What the reader takes before a string. -/
def marks : List (List Char) := [[], ['-'], ['.'], ['-', '.']]

/-! ## Rules -/

/-- Where a text may be more than plain JSON, and which literals are numbers. -/
structure Rules where
  /-- strings and keys may be empty -/
  emptyString : Bool
  /-- there may be blanks in an empty container -/
  blankEmpty : Bool
  /-- there may be blanks before a `:` -/
  blankColon : Bool
  /-- commas may be left out -/
  noComma : Bool
  /-- there may be a sign or a dot before a string -/
  markedString : Bool
  /-- a literal that is a number, by the part after its sign and the text that it begins -/
  number : List Char → List Char → Prop

/-- What two sets of rules both allow. -/
def Rules.meet (o o' : Rules) : Rules where
  emptyString := o.emptyString && o'.emptyString
  blankEmpty := o.blankEmpty && o'.blankEmpty
  blankColon := o.blankColon && o'.blankColon
  noComma := o.noComma && o'.noComma
  markedString := o.markedString && o'.markedString
  number run pnum := o.number run pnum ∧ o'.number run pnum

/-- A word, a number or a string. -/
inductive Scalar (o : Rules) (s r : List Char) : Prop
  | word {w : List Char} (hw : w ∈ words) (heq : s = w ++ r)
  | number {sign run : List Char} (hlit : Literal sign run) (hends : Ends r)
    (hnumber : o.number run s) (heq : s = sign ++ (run ++ r))
  | string {mark cs : List Char} (hmark : mark ∈ marks)
    (hmarked : mark ≠ [] → o.markedString = true) (hcs : '"' ∉ cs)
    (hempty : cs = [] → o.emptyString = true) (heq : s = mark ++ '"' :: (cs ++ '"' :: r))

/-- The key of a member with its `:`. -/
def Key (o : Rules) (cs s r : List Char) : Prop :=
  '"' ∉ cs ∧ (cs = [] → o.emptyString = true) ∧
    ∃ t, skipBlanks s = '"' :: (cs ++ '"' :: t) ∧
      (t = ':' :: r ∨ o.blankColon = true ∧ skipBlanks t = ':' :: r)

/-- The end of an empty container. -/
def Closes (o : Rules) (close : Char) (s r : List Char) : Prop :=
  s = close :: r ∨ o.blankEmpty = true ∧ skipBlanks s = close :: r

/-- A comma, or nothing before something that is none of the other tokens. -/
def Separates (o : Rules) (s r : List Char) : Prop :=
  skipBlanks s = ',' :: r ∨
    o.noComma = true ∧ skipBlanks s = r ∧ ∀ c ∈ r.head?, c ≠ ',' ∧ c ≠ ']' ∧ c ≠ '}'

/-- What a text is read as. -/
inductive Kind where
  | value
  | items
  | members
  deriving DecidableEq, Repr

/-- A text begins with a value, items or members, and goes on with `r`. -/
inductive Reads (o : Rules) : Kind → List Char → List Char → Prop
  | scalar {s r : List Char} : Scalar o (skipBlanks s) r → Reads o .value s r
  | emptyArray {s t r : List Char} : skipBlanks s = '[' :: t → Closes o ']' t r →
    Reads o .value s r
  | array {s t r : List Char} : skipBlanks s = '[' :: t → Reads o .items t r → Reads o .value s r
  | emptyObject {s t r : List Char} : skipBlanks s = '{' :: t → Closes o '}' t r →
    Reads o .value s r
  | object {s t r : List Char} : skipBlanks s = '{' :: t → Reads o .members t r →
    Reads o .value s r
  | lastItem {s t r : List Char} : Reads o .value s t → skipBlanks t = ']' :: r →
    Reads o .items s r
  | item {s t t' r : List Char} : Reads o .value s t → Separates o t t' → Reads o .items t' r →
    Reads o .items s r
  | lastMember {cs s t t' r : List Char} : Key o cs s t → Reads o .value t t' →
    skipBlanks t' = '}' :: r → Reads o .members s r
  | member {cs s t t' t'' r : List Char} : Key o cs s t → Reads o .value t t' →
    Separates o t' t'' → Reads o .members t'' r → Reads o .members s r

/-- A text that is a value, with blanks around it. -/
def IsJson (o : Rules) (s : List Char) : Prop := ∃ r, Reads o .value s r ∧ skipBlanks r = []

/-! ## Scalars -/

/-- The text after a sign. -/
def afterSign (s : List Char) : List Char := if s.head? = some '-' then s.tail else s

/-- A loop over a text stops where its condition first fails. -/
theorem span_append {p : Char → Bool} {l r : List Char} (hl : ∀ c ∈ l, p c = true)
    (hr : ∀ c ∈ r.head?, p c = false) :
    (l ++ r).takeWhile p = l ∧ (l ++ r).dropWhile p = r := by
  rw [List.takeWhile_append_of_pos hl, List.dropWhile_append_of_pos hl]
  cases r with
  | nil => exact ⟨List.append_nil l, rfl⟩
  | cons c r =>
    have hc : ¬p c = true := by
      rw [hr c rfl]
      decide
    rw [List.takeWhile_cons_of_neg hc, List.dropWhile_cons_of_neg hc]
    exact ⟨List.append_nil l, rfl⟩

/-- No number goes over a quote. -/
theorem ends_quote (t : List Char) : Ends ('"' :: t) := by
  intro c hc
  obtain rfl := Option.some.inj hc
  decide

variable {o o' : Rules} {sign run r : List Char}

/-- A literal has a digit, so it is not empty. -/
theorem Literal.run_ne_nil (h : Literal sign run) : run ≠ [] := by
  rintro rfl
  obtain ⟨c, hc, -⟩ := h.digit
  cases hc

/-- Behind its sign stand its digits. -/
theorem Literal.afterSign_eq (h : Literal sign run) (r : List Char) :
    afterSign (sign ++ (run ++ r)) = run ++ r := by
  obtain rfl | rfl := h.sign_eq
  · cases run with
    | nil => exact absurd rfl h.run_ne_nil
    | cons c run =>
      have hc := h.numeric c List.mem_cons_self
      have hne : ¬some c = some '-' := by
        rintro heq
        rw [Option.some.inj heq] at hc
        cases hc
      exact if_neg hne
  · rfl

/-- The part of a mark after its sign. -/
theorem afterSign_mark {mark : List Char} (h : mark ∈ marks) (t : List Char) :
    ∃ dot : List Char, afterSign (mark ++ '"' :: t) = dot ++ '"' :: t ∧
      (dot = [] ∨ dot = ['.']) := by
  simp only [marks, List.mem_cons, List.not_mem_nil, or_false] at h
  obtain rfl | rfl | rfl | rfl := h
  · exact ⟨[], rfl, .inl rfl⟩
  · exact ⟨[], rfl, .inl rfl⟩
  · exact ⟨['.'], rfl, .inr rfl⟩
  · exact ⟨['.'], rfl, .inr rfl⟩

/-- The digits and the dots before a string have no digit. -/
theorem mark_numeric {dot : List Char} (h : dot = [] ∨ dot = ['.']) (t : List Char) :
    (dot ++ '"' :: t).takeWhile isNumeric = dot ∧
      (dot ++ '"' :: t).dropWhile isNumeric = '"' :: t ∧ ¬∃ c ∈ dot, isDigit c = true := by
  have hdot : ∀ c ∈ dot, c = '.' := by
    intro c hc
    obtain rfl | rfl := h
    · exact nomatch hc
    · exact List.mem_singleton.mp hc
  obtain ⟨htake, hdrop⟩ := span_append (fun c hc => by rw [hdot c hc]; rfl) (ends_quote t)
  refine ⟨htake, hdrop, fun ⟨c, hc, hdigit⟩ => ?_⟩
  rw [hdot c hc] at hdigit
  exact nomatch hdigit

/-- The first byte tells a word from the other scalars. -/
theorem word_head {w : List Char} (h : w ∈ words) (r : List Char) :
    ∃ c t, w ++ r = c :: t ∧ c ∈ ['n', 'f', 't'] := by
  simp only [words, List.mem_cons, List.not_mem_nil, or_false] at h
  obtain rfl | rfl | rfl := h
  · exact ⟨'n', _, rfl, by decide⟩
  · exact ⟨'f', _, rfl, by decide⟩
  · exact ⟨'t', _, rfl, by decide⟩

/-- A literal begins with its sign, a digit or a dot. -/
theorem literal_head (h : Literal sign run) (r : List Char) :
    ∃ c t, sign ++ (run ++ r) = c :: t ∧ (c = '-' ∨ isNumeric c = true) := by
  obtain rfl | rfl := h.sign_eq
  · cases run with
    | nil => exact absurd rfl h.run_ne_nil
    | cons c run => exact ⟨c, _, rfl, .inr (h.numeric c List.mem_cons_self)⟩
  · exact ⟨'-', _, rfl, .inl rfl⟩

/-- A string begins with its quote, a sign or a dot. -/
theorem mark_head {mark : List Char} (h : mark ∈ marks) (t : List Char) :
    ∃ c t', mark ++ '"' :: t = c :: t' ∧ c ∈ ['"', '-', '.'] := by
  simp only [marks, List.mem_cons, List.not_mem_nil, or_false] at h
  obtain rfl | rfl | rfl | rfl := h
  · exact ⟨'"', _, rfl, by decide⟩
  · exact ⟨'-', _, rfl, by decide⟩
  · exact ⟨'.', _, rfl, by decide⟩
  · exact ⟨'-', _, rfl, by decide⟩

/-- The bytes that a value begins with. -/
def isStart (c : Char) : Bool :=
  c ∈ ['n', 'f', 't', '"', '-', '.'] || isDigit c

/-- The first character of a literal is one that a value begins with. -/
theorem Literal.start {s : List Char} (hlit : Literal sign run)
    (hs : s = sign ++ (run ++ r)) : ∃ c t, s = c :: t ∧ isStart c = true := by
  obtain ⟨c, t, hhead, hc⟩ := literal_head hlit r
  refine ⟨c, t, hs.trans hhead, ?_⟩
  obtain rfl | hc := hc
  · decide
  · rw [isNumeric, Bool.or_eq_true, decide_eq_true_eq] at hc
    obtain rfl | hc := hc
    · decide
    · rw [isStart, hc, Bool.or_true]

/-- The first character of a scalar is one that a value begins with. -/
theorem Scalar.head {s : List Char} (h : Scalar o s r) : ∃ c t, s = c :: t ∧ isStart c = true := by
  cases h with
  | word hw heq =>
    obtain ⟨c, t, hhead, hc⟩ := word_head hw r
    refine ⟨c, t, heq.trans hhead, ?_⟩
    simp only [List.mem_cons, List.not_mem_nil, or_false] at hc
    obtain rfl | rfl | rfl := hc <;> decide
  | number hlit hends hnumber heq => exact hlit.start heq
  | string hmark hmarked hcs hempty heq =>
    obtain ⟨c, t, hhead, hc⟩ := mark_head hmark _
    refine ⟨c, t, heq.trans hhead, ?_⟩
    simp only [List.mem_cons, List.not_mem_nil, or_false] at hc
    obtain rfl | rfl | rfl := hc <;> decide

/-! ## One way to read -/

/-- A word is no number and no string. -/
theorem word_ne_of_head {w : List Char} (hw : w ∈ words) {s : List Char} {c : Char}
    {t : List Char} (heq : s = w ++ r) (hs : s = c :: t)
    (hc : c = '-' ∨ isNumeric c = true ∨ c = '"') : False := by
  obtain ⟨c', t', hhead, hc'⟩ := word_head hw r
  obtain ⟨rfl, -⟩ := List.cons.inj (hs.symm.trans (heq.trans hhead))
  simp only [List.mem_cons, List.not_mem_nil, or_false] at hc'
  obtain rfl | rfl | rfl := hc' <;> revert hc <;> decide

/-- No word is the beginning of another. -/
theorem words_inj {w w' r' s : List Char} (hw : w ∈ words) (hw' : w' ∈ words)
    (heq : s = w ++ r) (heq' : s = w' ++ r') : r = r' := by
  simp only [words, List.mem_cons, List.not_mem_nil, or_false] at hw hw'
  obtain rfl | rfl | rfl := hw <;> obtain rfl | rfl | rfl := hw' <;>
    simp [heq] at heq' <;> exact heq'

/-- A string after a mark is no number. -/
theorem literal_ne_mark (hlit : Literal sign run) (hends : Ends r) {mark t s : List Char}
    (hmark : mark ∈ marks) (heq : s = sign ++ (run ++ r)) (heq' : s = mark ++ '"' :: t) : False := by
  obtain ⟨dot, hafter, hdot⟩ := afterSign_mark hmark t
  obtain ⟨htake, -, hnone⟩ := mark_numeric hdot t
  have hrun : (run ++ r).takeWhile isNumeric = run := (span_append hlit.numeric hends).1
  rw [← hafter, ← heq', heq, hlit.afterSign_eq, hrun] at htake
  exact hnone (htake ▸ hlit.digit)

/-- A literal ends where its digits and dots end. -/
theorem literal_inj {sign' run' r' s : List Char} (hlit : Literal sign run) (hends : Ends r)
    (hlit' : Literal sign' run') (hends' : Ends r') (heq : s = sign ++ (run ++ r))
    (heq' : s = sign' ++ (run' ++ r')) : run = run' ∧ r = r' := by
  have hafter : run ++ r = run' ++ r' := by
    rw [← hlit.afterSign_eq r, ← heq, heq', hlit'.afterSign_eq r']
  obtain ⟨htake, hdrop⟩ := span_append hlit.numeric hends
  obtain ⟨htake', hdrop'⟩ := span_append hlit'.numeric hends'
  rw [hafter, htake'] at htake
  rw [hafter, hdrop'] at hdrop
  exact ⟨htake.symm, hdrop.symm⟩

/-- The contents of a string end at the first quote. -/
theorem quoted_inj {cs cs' t t' : List Char} (hcs : '"' ∉ cs) (hcs' : '"' ∉ cs')
    (heq : cs ++ '"' :: t = cs' ++ '"' :: t') : cs = cs' ∧ t = t' := by
  have hspan : ∀ {cs t : List Char}, '"' ∉ cs →
      (cs ++ '"' :: t).takeWhile (· ≠ '"') = cs ∧
        (cs ++ '"' :: t).dropWhile (· ≠ '"') = '"' :: t := by
    intro cs t hcs
    refine span_append (fun c hc => ?_) fun c hc => ?_
    · exact decide_eq_true fun hquote => hcs (hquote ▸ hc)
    · obtain rfl := Option.some.inj hc
      rfl
  obtain ⟨htake, hdrop⟩ := hspan (t := t) hcs
  -- the contents are what comes before the first quote, in both texts
  obtain ⟨htake', hdrop'⟩ := hspan (t := t') hcs'
  rw [heq, htake'] at htake
  rw [heq, hdrop'] at hdrop
  exact ⟨htake.symm, (List.cons.inj hdrop).2.symm⟩

/-- The marks before a quote are what stands before the first quote. -/
theorem marks_inj {mark mark' t t' : List Char} (hmark : mark ∈ marks) (hmark' : mark' ∈ marks)
    (heq : mark ++ '"' :: t = mark' ++ '"' :: t') : mark = mark' ∧ t = t' := by
  simp only [marks, List.mem_cons, List.not_mem_nil, or_false] at hmark hmark'
  obtain rfl | rfl | rfl | rfl := hmark <;> obtain rfl | rfl | rfl | rfl := hmark' <;>
    simp at heq <;> exact ⟨rfl, heq⟩

/-- A scalar is read in one way, by the rules that both have. -/
theorem Scalar.meet {s r' : List Char} (h : Scalar o s r) (h' : Scalar o' s r') :
    r = r' ∧ Scalar (o.meet o') s r := by
  cases h with
  | word hw heq =>
    cases h' with
    | word hw' heq' => exact ⟨words_inj hw hw' heq heq', .word hw heq⟩
    | number hlit hends hnumber heq' =>
      obtain ⟨c, t, hhead, hc⟩ := literal_head hlit r'
      refine absurd (heq'.trans hhead) fun hs => word_ne_of_head hw heq hs ?_
      obtain hc | hc := hc
      -- a word begins with none of these bytes
      · exact .inl hc
      · exact .inr (.inl hc)
    | string hmark hmarked hcs hempty heq' =>
      obtain ⟨c, t, hhead, hc⟩ := mark_head hmark _
      refine absurd (heq'.trans hhead) fun hs => word_ne_of_head hw heq hs ?_
      simp only [List.mem_cons, List.not_mem_nil, or_false] at hc
      obtain rfl | rfl | rfl := hc <;> decide
  | number hlit hends hnumber heq =>
    cases h' with
    | word hw heq' =>
      obtain ⟨c, t, hhead, hc⟩ := literal_head hlit r
      refine absurd (heq.trans hhead) fun hs => word_ne_of_head hw heq' hs ?_
      obtain hc | hc := hc
      · exact .inl hc
      · exact .inr (.inl hc)
    | number hlit' hends' hnumber' heq' =>
      obtain ⟨hrun, hr⟩ := literal_inj hlit hends hlit' hends' heq heq'
      subst hrun
      exact ⟨hr, .number hlit hends ⟨hnumber, hnumber'⟩ heq⟩
    | string hmark hmarked hcs hempty heq' => exact (literal_ne_mark hlit hends hmark heq heq').elim
  | string hmark hmarked hcs hempty heq =>
    cases h' with
    | word hw heq' =>
      obtain ⟨c, t, hhead, hc⟩ := mark_head hmark _
      refine absurd (heq.trans hhead) fun hs => word_ne_of_head hw heq' hs ?_
      simp only [List.mem_cons, List.not_mem_nil, or_false] at hc
      obtain rfl | rfl | rfl := hc <;> decide
    | number hlit hends hnumber heq' => exact (literal_ne_mark hlit hends hmark heq' heq).elim
    | string hmark' hmarked' hcs' hempty' heq' =>
      obtain ⟨rfl, htail⟩ := marks_inj hmark hmark' (heq.symm.trans heq')
      obtain ⟨rfl, rfl⟩ := quoted_inj hcs hcs' htail
      refine ⟨rfl, .string hmark (fun hne => ?_) hcs (fun hnil => ?_) heq⟩
      · exact Bool.and_eq_true_iff.mpr ⟨hmarked hne, hmarked' hne⟩
      · exact Bool.and_eq_true_iff.mpr ⟨hempty hnil, hempty' hnil⟩

/-- The end of a container stands behind blanks at most. -/
theorem Closes.skip {close : Char} {s : List Char} (h : Closes o close s r)
    (hclose : isBlank close = false) : skipBlanks s = close :: r := by
  obtain rfl | ⟨-, h⟩ := h
  · exact skipBlanks_cons hclose r
  · exact h

/-- An empty container ends in one place. -/
theorem Closes.meet {close : Char} {s r' : List Char} (h : Closes o close s r)
    (h' : Closes o' close s r') (hclose : isBlank close = false) :
    r = r' ∧ Closes (o.meet o') close s r := by
  have hskip := (h.skip hclose).symm.trans (h'.skip hclose)
  -- with blanks or without, the next byte that is none is the bracket
  obtain rfl := (List.cons.inj hskip).2
  refine ⟨rfl, ?_⟩
  obtain heq | ⟨hblank, heq⟩ := h
  · exact .inl heq
  · obtain heq' | ⟨hblank', -⟩ := h'
    · exact .inl heq'
    · exact .inr ⟨Bool.and_eq_true_iff.mpr ⟨hblank, hblank'⟩, heq⟩

/-- What ends a container separates nothing. -/
theorem Separates.not_close {s t : List Char} {c : Char} (h : Separates o s r)
    (hs : skipBlanks s = c :: t) (hc : c = ']' ∨ c = '}') : False := by
  obtain hcomma | ⟨-, heq, hhead⟩ := h
  · obtain ⟨rfl, -⟩ := List.cons.inj (hs.symm.trans hcomma)
    revert hc
    decide
  · have hne := hhead c (by rw [← heq, hs]; rfl)
    obtain rfl | rfl := hc
    · exact hne.2.1 rfl
    · exact hne.2.2 rfl

/-- Items are separated in one way. -/
theorem Separates.meet {s r' : List Char} (h : Separates o s r) (h' : Separates o' s r') :
    r = r' ∧ Separates (o.meet o') s r := by
  obtain hcomma | ⟨hnone, heq, hhead⟩ := h
  · obtain hcomma' | ⟨-, heq', hnext⟩ := h'
    · exact ⟨(List.cons.inj (hcomma.symm.trans hcomma')).2, .inl hcomma⟩
    · exact absurd rfl (hnext ',' (by rw [← heq', hcomma]; rfl)).1
  -- where no comma separates, the next byte is not one
  · obtain hcomma' | ⟨hnone', heq', hhead'⟩ := h'
    · exact absurd rfl (hhead ',' (by rw [← heq, hcomma']; rfl)).1
    · exact ⟨heq.symm.trans heq', .inr ⟨Bool.and_eq_true_iff.mpr ⟨hnone, hnone'⟩, heq, hhead⟩⟩

/-- A key is read in one way. -/
theorem Key.meet {cs cs' s r' : List Char} (h : Key o cs s r) (h' : Key o' cs' s r') :
    cs = cs' ∧ r = r' ∧ Key (o.meet o') cs s r := by
  obtain ⟨hcs, hempty, t, hskip, hcolon⟩ := h
  obtain ⟨hcs', hempty', t', hskip', hcolon'⟩ := h'
  obtain ⟨rfl, rfl⟩ := quoted_inj hcs hcs' (List.cons.inj (hskip.symm.trans hskip')).2
  have hboth : ∀ {b : Bool} {r : List Char}, (t = ':' :: r ∨ b = true ∧ skipBlanks t = ':' :: r) →
      -- with blanks or without, the ':' is the next byte that is none
      skipBlanks t = ':' :: r := by
    rintro b r (rfl | ⟨-, h⟩)
    · exact skipBlanks_cons (by decide) r
    · exact h
  obtain rfl := (List.cons.inj ((hboth hcolon).symm.trans (hboth hcolon'))).2
  refine ⟨rfl, rfl, hcs, fun hnil => ?_, t, hskip, ?_⟩
  · exact Bool.and_eq_true_iff.mpr ⟨hempty hnil, hempty' hnil⟩
  · obtain heq | ⟨hblank, heq⟩ := hcolon
    · exact .inl heq
    · obtain heq' | ⟨hblank', -⟩ := hcolon'
      · exact .inl heq'
      · exact .inr ⟨Bool.and_eq_true_iff.mpr ⟨hblank, hblank'⟩, heq⟩

/-- A value begins with a scalar's character or a bracket. -/
theorem Reads.value_head {s : List Char} (h : Reads o .value s r) :
    ∃ c t, skipBlanks s = c :: t ∧ (isStart c = true ∨ c = '[' ∨ c = '{') := by
  cases h with
  | scalar hscalar =>
    obtain ⟨c, t, hs, hc⟩ := hscalar.head
    exact ⟨c, t, hs, .inl hc⟩
  | emptyArray hs hcloses => exact ⟨'[', _, hs, .inr (.inl rfl)⟩
  | array hs hitems => exact ⟨'[', _, hs, .inr (.inl rfl)⟩
  | emptyObject hs hcloses => exact ⟨'{', _, hs, .inr (.inr rfl)⟩
  | object hs hmembers => exact ⟨'{', _, hs, .inr (.inr rfl)⟩

/-- So do the items of an array. -/
theorem Reads.items_head {s : List Char} (h : Reads o .items s r) :
    ∃ c t, skipBlanks s = c :: t ∧ (isStart c = true ∨ c = '[' ∨ c = '{') := by
  cases h with
  | lastItem hvalue hclose => exact hvalue.value_head
  | item hvalue hsep hitems => exact hvalue.value_head

/-- A key begins with a quote. -/
theorem Key.skip {cs s : List Char} (h : Key o cs s r) : ∃ t, skipBlanks s = '"' :: t := by
  obtain ⟨-, -, t, hskip, -⟩ := h
  exact ⟨_, hskip⟩

/-- So do the members of an object. -/
theorem Reads.members_head {s : List Char} (h : Reads o .members s r) :
    ∃ t, skipBlanks s = '"' :: t := by
  cases h with
  | lastMember hkey hvalue hclose => exact hkey.skip
  | member hkey hvalue hsep hmembers => exact hkey.skip

/-- An empty array has no items. -/
theorem Closes.not_items {s r' : List Char} (h : Closes o ']' s r) (h' : Reads o' .items s r') :
    False := by
  obtain ⟨c, t, hs, hc⟩ := h'.items_head
  obtain ⟨rfl, -⟩ := List.cons.inj (hs.symm.trans (h.skip (by decide)))
  revert hc
  decide

/-- An empty object has no members. -/
theorem Closes.not_members {s r' : List Char} (h : Closes o '}' s r)
    (h' : Reads o' .members s r') : False := by
  obtain ⟨t, hs⟩ := h'.members_head
  cases hs.symm.trans (h.skip (by decide))

/-- The first byte of a container is none of a scalar. -/
theorem Scalar.not_open {s t : List Char} {c : Char} (h : Scalar o (skipBlanks s) r)
    (hs : skipBlanks s = c :: t) (hc : c = '[' ∨ c = '{') : False := by
  obtain ⟨c', t', hs', hstart⟩ := h.head
  obtain ⟨rfl, -⟩ := List.cons.inj (hs.symm.trans hs')
  obtain rfl | rfl := hc <;> revert hstart <;> decide

/-- Two readings of a text are one, under the rules that both have. -/
theorem Reads.meet {k : Kind} {s r' : List Char} (h : Reads o k s r) (h' : Reads o' k s r') :
    r = r' ∧ Reads (o.meet o') k s r := by
  induction h generalizing r' with
  -- on the first reading; what comes next in the text says by which rule the second one is
  | scalar hscalar =>
    cases h' with
    | scalar hscalar' =>
      obtain ⟨hr, hmeet⟩ := hscalar.meet hscalar'
      exact ⟨hr, .scalar hmeet⟩
    | emptyArray hs _ => exact (hscalar.not_open hs (.inl rfl)).elim
    | array hs _ => exact (hscalar.not_open hs (.inl rfl)).elim
    | emptyObject hs _ => exact (hscalar.not_open hs (.inr rfl)).elim
    | object hs _ => exact (hscalar.not_open hs (.inr rfl)).elim
  | emptyArray hs hcloses =>
    cases h' with
    | scalar hscalar => exact (hscalar.not_open hs (.inl rfl)).elim
    | emptyArray hs' hcloses' =>
      obtain rfl := (List.cons.inj (hs.symm.trans hs')).2
      obtain ⟨hr, hmeet⟩ := hcloses.meet hcloses' (by decide)
      exact ⟨hr, .emptyArray hs hmeet⟩
    | array hs' hitems =>
      obtain rfl := (List.cons.inj (hs.symm.trans hs')).2
      exact (hcloses.not_items hitems).elim
    | emptyObject hs' _ => cases hs.symm.trans hs'
    | object hs' _ => cases hs.symm.trans hs'
  | array hs hitems ih =>
    cases h' with
    | scalar hscalar => exact (hscalar.not_open hs (.inl rfl)).elim
    | emptyArray hs' hcloses =>
      obtain rfl := (List.cons.inj (hs.symm.trans hs')).2
      exact (hcloses.not_items hitems).elim
    | array hs' hitems' =>
      obtain rfl := (List.cons.inj (hs.symm.trans hs')).2
      obtain ⟨hr, hmeet⟩ := ih hitems'
      exact ⟨hr, .array hs hmeet⟩
    | emptyObject hs' _ => cases hs.symm.trans hs'
    | object hs' _ => cases hs.symm.trans hs'
  | emptyObject hs hcloses =>
    cases h' with
    | scalar hscalar => exact (hscalar.not_open hs (.inr rfl)).elim
    | emptyArray hs' _ => cases hs.symm.trans hs'
    | array hs' _ => cases hs.symm.trans hs'
    | emptyObject hs' hcloses' =>
      obtain rfl := (List.cons.inj (hs.symm.trans hs')).2
      obtain ⟨hr, hmeet⟩ := hcloses.meet hcloses' (by decide)
      exact ⟨hr, .emptyObject hs hmeet⟩
    | object hs' hmembers =>
      obtain rfl := (List.cons.inj (hs.symm.trans hs')).2
      exact (hcloses.not_members hmembers).elim
  | object hs hmembers ih =>
    cases h' with
    | scalar hscalar => exact (hscalar.not_open hs (.inr rfl)).elim
    | emptyArray hs' _ => cases hs.symm.trans hs'
    | array hs' _ => cases hs.symm.trans hs'
    | emptyObject hs' hcloses =>
      obtain rfl := (List.cons.inj (hs.symm.trans hs')).2
      exact (hcloses.not_members hmembers).elim
    | object hs' hmembers' =>
      obtain rfl := (List.cons.inj (hs.symm.trans hs')).2
      obtain ⟨hr, hmeet⟩ := ih hmembers'
      exact ⟨hr, .object hs hmeet⟩
  | lastItem hvalue hclose ih =>
    cases h' with
    | lastItem hvalue' hclose' =>
      obtain ⟨rfl, hmeet⟩ := ih hvalue'
      exact ⟨(List.cons.inj (hclose.symm.trans hclose')).2, .lastItem hmeet hclose⟩
    | item hvalue' hsep _ =>
      obtain ⟨rfl, -⟩ := ih hvalue'
      exact (hsep.not_close hclose (.inl rfl)).elim
  -- the bracket is no separator
  | item hvalue hsep hitems ih ihItems =>
    cases h' with
    | lastItem hvalue' hclose =>
      obtain ⟨rfl, -⟩ := ih hvalue'
      exact (hsep.not_close hclose (.inl rfl)).elim
    | item hvalue' hsep' hitems' =>
      obtain ⟨rfl, hmeet⟩ := ih hvalue'
      obtain ⟨rfl, hmeetSep⟩ := hsep.meet hsep'
      obtain ⟨rfl, hmeetItems⟩ := ihItems hitems'
      exact ⟨rfl, .item hmeet hmeetSep hmeetItems⟩
  | lastMember hkey hvalue hclose ih =>
    cases h' with
    | lastMember hkey' hvalue' hclose' =>
      obtain ⟨rfl, rfl, hmeetKey⟩ := hkey.meet hkey'
      obtain ⟨rfl, hmeet⟩ := ih hvalue'
      exact ⟨(List.cons.inj (hclose.symm.trans hclose')).2, .lastMember hmeetKey hmeet hclose⟩
    | member hkey' hvalue' hsep _ =>
      obtain ⟨-, rfl, -⟩ := hkey.meet hkey'
      obtain ⟨rfl, -⟩ := ih hvalue'
      exact (hsep.not_close hclose (.inr rfl)).elim
  | member hkey hvalue hsep hmembers ih ihMembers =>
    cases h' with
    | lastMember hkey' hvalue' hclose =>
      obtain ⟨-, rfl, -⟩ := hkey.meet hkey'
      obtain ⟨rfl, -⟩ := ih hvalue'
      exact (hsep.not_close hclose (.inr rfl)).elim
    | member hkey' hvalue' hsep' hmembers' =>
      obtain ⟨rfl, rfl, hmeetKey⟩ := hkey.meet hkey'
      obtain ⟨rfl, hmeet⟩ := ih hvalue'
      obtain ⟨rfl, hmeetSep⟩ := hsep.meet hsep'
      obtain ⟨rfl, hmeetMembers⟩ := ihMembers hmembers'
      exact ⟨rfl, .member hmeetKey hmeet hmeetSep hmeetMembers⟩

/-! ## Fewer rules -/

/-- Whatever `o` allows, `o'` allows too. -/
structure Rules.Le (o o' : Rules) : Prop where
  emptyString : o.emptyString = true → o'.emptyString = true
  blankEmpty : o.blankEmpty = true → o'.blankEmpty = true
  blankColon : o.blankColon = true → o'.blankColon = true
  noComma : o.noComma = true → o'.noComma = true
  markedString : o.markedString = true → o'.markedString = true
  number : ∀ run pnum, o.number run pnum → o'.number run pnum

/-- A scalar stays one when more is allowed. -/
theorem Scalar.mono (hle : o.Le o') {s : List Char} (h : Scalar o s r) : Scalar o' s r := by
  cases h with
  | word hw heq => exact .word hw heq
  | number hlit hends hnumber heq => exact .number hlit hends (hle.number _ _ hnumber) heq
  | string hmark hmarked hcs hempty heq =>
    exact .string hmark (hle.markedString ∘ hmarked) hcs (hle.emptyString ∘ hempty) heq

/-- So does the end of an empty container, -/
theorem Closes.mono (hle : o.Le o') {close : Char} {s : List Char} (h : Closes o close s r) :
    Closes o' close s r :=
  h.imp_right (.imp_left hle.blankEmpty)

/-- what separates two items, -/
theorem Separates.mono (hle : o.Le o') {s : List Char} (h : Separates o s r) :
    Separates o' s r :=
  h.imp_right (.imp_left hle.noComma)

/-- a key, -/
theorem Key.mono (hle : o.Le o') {cs s : List Char} (h : Key o cs s r) : Key o' cs s r := by
  obtain ⟨hcs, hempty, t, hskip, hcolon⟩ := h
  exact ⟨hcs, hle.emptyString ∘ hempty, t, hskip, hcolon.imp_right (.imp_left hle.blankColon)⟩

/-- a text, -/
theorem Reads.mono (hle : o.Le o') {k : Kind} {s : List Char} (h : Reads o k s r) :
    Reads o' k s r := by
  induction h with
  | scalar hscalar => exact .scalar (hscalar.mono hle)
  | emptyArray hs hcloses => exact .emptyArray hs (hcloses.mono hle)
  | array hs _ ih => exact .array hs ih
  | emptyObject hs hcloses => exact .emptyObject hs (hcloses.mono hle)
  | object hs _ ih => exact .object hs ih
  | lastItem _ hclose ih => exact .lastItem ih hclose
  | item _ hsep _ ih ihItems => exact .item ih (hsep.mono hle) ihItems
  | lastMember hkey _ hclose ih => exact .lastMember (hkey.mono hle) ih hclose
  | member hkey _ hsep _ ih ihMembers => exact .member (hkey.mono hle) ih (hsep.mono hle) ihMembers

/-- and a whole one. -/
theorem IsJson.mono (hle : o.Le o') {s : List Char} (h : IsJson o s) : IsJson o' s := by
  obtain ⟨r, hreads, hr⟩ := h
  exact ⟨r, hreads.mono hle, hr⟩

/-! ## Lengths -/

/-- A scalar takes at least one character. -/
theorem Scalar.shorter {s : List Char} (h : Scalar o s r) : r.length < s.length := by
  cases h with
  | word hw heq =>
    obtain ⟨c, t, hhead, -⟩ := word_head hw []
    rw [List.append_nil] at hhead
    rw [heq, hhead, List.length_append, List.length_cons]
    omega
  | number hlit hends hnumber heq =>
    have hpos := List.length_pos_iff.mpr hlit.run_ne_nil
    rw [heq, List.length_append, List.length_append]
    omega
  | string hmark hmarked hcs hempty heq =>
    rw [heq, List.length_append, List.length_cons, List.length_append, List.length_cons]
    omega

/-- A character behind blanks is taken with them. -/
theorem length_of_skip {s t : List Char} {c : Char} (h : skipBlanks s = c :: t) :
    t.length < s.length := by
  have hle := length_skipBlanks_le s
  rw [h, List.length_cons] at hle
  omega

/-- What separates two items may be nothing. -/
theorem Separates.length_le {s : List Char} (h : Separates o s r) : r.length ≤ s.length := by
  obtain hcomma | ⟨-, rfl, -⟩ := h
  · exact Nat.le_of_lt (length_of_skip hcomma)
  · exact length_skipBlanks_le s

/-- A key takes its quotes and its colon. -/
theorem Key.shorter {cs s : List Char} (h : Key o cs s r) : r.length < s.length := by
  obtain ⟨-, -, t, hskip, hcolon⟩ := h
  have hlt := length_of_skip hskip
  rw [List.length_append, List.length_cons] at hlt
  have hr : r.length < t.length := by
    obtain rfl | ⟨-, hcolon⟩ := hcolon
    · exact Nat.lt_succ_self _
    · exact length_of_skip hcolon
  omega

/-- A reading takes at least one byte. -/
theorem Reads.shorter {k : Kind} {s : List Char} (h : Reads o k s r) : r.length < s.length := by
  induction h with
  -- by induction on the reading: each part of it leaves a shorter text
  | @scalar s r hscalar => exact Nat.lt_of_lt_of_le hscalar.shorter (length_skipBlanks_le s)
  | emptyArray hs hcloses =>
    exact Nat.lt_trans (length_of_skip (hcloses.skip (by decide))) (length_of_skip hs)
  | array hs _ ih => exact Nat.lt_trans ih (length_of_skip hs)
  | emptyObject hs hcloses =>
    exact Nat.lt_trans (length_of_skip (hcloses.skip (by decide))) (length_of_skip hs)
  | object hs _ ih => exact Nat.lt_trans ih (length_of_skip hs)
  | lastItem _ hclose ih => exact Nat.lt_trans (length_of_skip hclose) ih
  | item _ hsep _ ih ihItems => exact Nat.lt_trans ihItems (Nat.lt_of_le_of_lt hsep.length_le ih)
  | lastMember hkey _ hclose ih =>
    exact Nat.lt_trans (Nat.lt_trans (length_of_skip hclose) ih) hkey.shorter
  | member hkey _ hsep _ ih ihMembers =>
    exact Nat.lt_trans ihMembers (Nat.lt_trans (Nat.lt_of_le_of_lt hsep.length_le ih) hkey.shorter)

end Json

end Athena
