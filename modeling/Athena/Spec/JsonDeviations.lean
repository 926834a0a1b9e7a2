import Athena.Spec.JsonAccepts

/-!
# Where the JSON reader leaves its grammar

The grammar of the texts that the reader is for is `jsonRules`.  The reader differs from it
in five ways: it lacks three things that `jsonRules` have, and has two that they lack.  On
the texts that need none of the five, and on those that are wrong even with them, the two
agree, and on no others.

## Key results

- `Reads.fit`: with numbers in range, a literal is a number
- `parser_accepts_iff`: where the reader and the grammar agree
-/

namespace Athena

namespace Json

open JsonBuff

/-! ## The rules -/

/-- JSON, without escapes and exponents. -/
def jsonRules : Rules where
  emptyString := true
  blankEmpty := true
  blankColon := true
  noComma := false
  markedString := false
  number _ _ := True

/-- The rules of the reader, with every literal a number. -/
def looseRules : Rules where
  emptyString := false
  blankEmpty := false
  blankColon := false
  noComma := true
  markedString := true
  number _ _ := True

/-- JSON without empty strings and keys, and with blanks neither in empty containers nor
before a `:`. -/
def plainRules : Rules where
  emptyString := false
  blankEmpty := false
  blankColon := false
  noComma := false
  markedString := false
  number _ _ := True

/-- What needs none of the five is JSON. -/
theorem plainRules_le_json : plainRules.Le jsonRules :=
  ⟨nofun, nofun, nofun, nofun, nofun, fun _ _ => id⟩

/-- What needs none of the five is read, if its numbers are in range. -/
theorem plainRules_le_loose : plainRules.Le looseRules :=
  ⟨nofun, nofun, nofun, nofun, nofun, fun _ _ => id⟩

/-- What both have needs none of the five. -/
theorem meet_le_plainRules : (looseRules.meet jsonRules).Le plainRules :=
  ⟨nofun, nofun, nofun, nofun, nofun, fun _ _ _ => trivial⟩

/-- A text of both needs none of the five. -/
theorem IsJson.plain {s : List Char} (h : IsJson looseRules s) (h' : IsJson jsonRules s) :
    IsJson plainRules s := by
  obtain ⟨r, hreads, hr⟩ := h
  obtain ⟨r', hreads', -⟩ := h'
  obtain ⟨rfl, hmeet⟩ := hreads.meet hreads'
  exact ⟨r, hmeet.mono meet_le_plainRules, hr⟩

/-! ## Numbers in range -/

variable {F : Type} (float : FloatText F)

/-- The literal that a text begins with, if it is one, is in range. -/
def literalFits (pnum : List Char) : Bool :=
  let run := (afterSign pnum).takeWhile isNumeric
  if run.count '.' ≤ 1 ∧ run.any isDigit then (number float ('.' ∈ run) pnum).isSome else true

/-- Where a walk over a text is. -/
inductive Place where
  | text
  | string
  | number
  deriving DecidableEq, Repr

/-- The numeric literals of a text, which are those outside its strings, are in range. -/
def numbersFit : Place → List Char → Bool
  | _, [] => true
  | .string, c :: s => if c = '"' then numbersFit .text s else numbersFit .string s
  | .text, c :: s =>
    if c = '"' then numbersFit .string s
    else if c = '-' || isNumeric c then literalFits float (c :: s) && numbersFit .number s
    else numbersFit .text s
  | .number, c :: s =>
    if c = '"' then numbersFit .string s
    else if c = '-' then literalFits float (c :: s) && numbersFit .number s
    else if isNumeric c then numbersFit .number s
    else numbersFit .text s

/-- A literal in range is a number for the reader. -/
theorem Literal.fits {sign run r : List Char} (hlit : Literal sign run) (hends : Ends r)
    (h : literalFits float (sign ++ (run ++ r)) = true) :
    (number float ('.' ∈ run) (sign ++ (run ++ r))).isSome = true := by
  have hany : run.any isDigit = true := by
    obtain ⟨c, hc, hdigit⟩ := hlit.digit
    exact List.any_eq_true.mpr ⟨c, hc, hdigit⟩
  rw [literalFits, hlit.afterSign_eq, (span_append hlit.numeric hends).1] at h
  rwa [if_pos ⟨hlit.dots, hany⟩] at h

/-- After the last byte of a number the walk is in the text again. -/
theorem numbersFit_ends {r : List Char} (hends : Ends r) :
    numbersFit float .number r = numbersFit float .text r := by
  cases r with
  | nil => rfl
  | cons c r =>
    have hc : isNumeric c = false := hends c rfl
    rw [numbersFit, numbersFit, hc]
    simp

/-- The rest of a literal is stepped over. -/
theorem numbersFit_run {run : List Char} (hrun : ∀ c ∈ run, isNumeric c = true) (r : List Char) :
    numbersFit float .number (run ++ r) = numbersFit float .number r := by
  induction run with
  | nil => rfl
  | cons c run ih =>
    have hc := hrun c List.mem_cons_self
    have hquote : c ≠ '"' := by rintro rfl; cases hc
    have hminus : c ≠ '-' := by rintro rfl; cases hc
    rw [List.cons_append, numbersFit, if_neg hquote, if_neg hminus, if_pos hc,
      ih fun c' hc' => hrun c' (List.mem_cons_of_mem _ hc')]

/-- A byte that is in no token of the walk. -/
theorem numbersFit_text_cons {c : Char} (hquote : c ≠ '"') (hminus : c ≠ '-')
    (hnum : isNumeric c = false) (s : List Char) :
    numbersFit float .text (c :: s) = numbersFit float .text s := by
  rw [numbersFit, if_neg hquote, hnum]
  simp [hminus]

/-- A byte that a number begins with. -/
theorem numbersFit_start {c : Char} (hquote : c ≠ '"') (hc : c = '-' ∨ isNumeric c = true)
    {s : List Char} (h : numbersFit float .text (c :: s) = true) :
    literalFits float (c :: s) = true ∧ numbersFit float .number s = true := by
  rw [numbersFit, if_neg hquote, if_pos (by simpa using hc)] at h
  exact Bool.and_eq_true_iff.mp h

/-- A blank begins neither a string nor a literal. -/
theorem isBlank_not_token {c : Char} (h : isBlank c = true) :
    c ≠ '"' ∧ c ≠ '-' ∧ isNumeric c = false := by
  have hle : c.toNat ≤ 32 := of_decide_eq_true (Bool.and_eq_true_iff.mp h).2
  refine ⟨by rintro rfl; revert hle; decide, by rintro rfl; revert hle; decide, ?_⟩
  rw [isNumeric, isDigit]
  have hdot : c ≠ '.' := by rintro rfl; revert hle; decide
  have hdigit : ¬ '0' ≤ c := by
    intro hge
    have hge' : '0'.toNat ≤ c.toNat := hge
    exact absurd (Nat.le_trans hge' hle) (by decide)
  simp [hdot, hdigit]

/-- Blanks hold no literals. -/
theorem numbersFit_skipBlanks (s : List Char) :
    numbersFit float .text (skipBlanks s) = numbersFit float .text s := by
  induction s with
  | nil => rfl
  | cons c s ih =>
    by_cases hc : isBlank c = true
    · obtain ⟨hquote, hminus, hnum⟩ := isBlank_not_token hc
      rw [numbersFit_text_cons float hquote hminus hnum, ← ih, skipBlanks,
        List.dropWhile_cons_of_pos hc]
      rfl
    · rw [skipBlanks_cons (by simpa using hc)]

/-- A string holds no literals. -/
theorem numbersFit_string {cs : List Char} (hcs : '"' ∉ cs) (r : List Char) :
    numbersFit float .string (cs ++ '"' :: r) = numbersFit float .text r := by
  induction cs with
  | nil => rfl
  | cons c cs ih =>
    rw [List.mem_cons, not_or] at hcs
    rw [List.cons_append, numbersFit, if_neg (Ne.symm hcs.1), ih hcs.2]

/-- A punctuation mark of JSON. -/
theorem numbersFit_punctuation {s t : List Char} {c : Char} (hs : skipBlanks s = c :: t)
    (hc : c ∈ ['[', ']', '{', '}', ',', ':']) (h : numbersFit float .text s = true) :
    numbersFit float .text t = true := by
  have htoken : c ≠ '"' ∧ c ≠ '-' ∧ isNumeric c = false := by
    simp only [List.mem_cons, List.not_mem_nil, or_false] at hc
    obtain rfl | rfl | rfl | rfl | rfl | rfl := hc <;> decide
  obtain ⟨hquote, hminus, hnum⟩ := htoken
  rwa [← numbersFit_skipBlanks, hs, numbersFit_text_cons float hquote hminus hnum] at h

/-- The words hold no literals. -/
theorem numbersFit_word {w : List Char} (hw : w ∈ words) (r : List Char) :
    numbersFit float .text (w ++ r) = numbersFit float .text r := by
  simp only [words, List.mem_cons, List.not_mem_nil, or_false] at hw
  obtain rfl | rfl | rfl := hw <;> rfl

/-- The rules with the numbers of the reader. -/
def readable (o : Rules) : Rules :=
  { o with number := fun run pnum => (number float ('.' ∈ run) pnum).isSome = true }

variable {o : Rules}

/-- A scalar whose literal is in range, and what follows it. -/
theorem Scalar.fit {s r : List Char} (h : Scalar o s r) (hfit : numbersFit float .text s = true) :
    Scalar (readable float o) s r ∧ numbersFit float .text r = true := by
  cases h with
  | word hw heq =>
    rw [heq, numbersFit_word float hw] at hfit
    exact ⟨.word hw heq, hfit⟩
  | @number sign run hlit hends hnumber heq =>
    subst heq
    obtain ⟨c, t, hhead, hc⟩ := literal_head hlit r
    have hquote : c ≠ '"' := by rintro rfl; revert hc; decide
    have hfits : literalFits float (sign ++ (run ++ r)) = true ∧
        numbersFit float .number t = true := by
      rw [hhead] at hfit ⊢
      exact numbersFit_start float hquote hc hfit
    refine ⟨.number hlit hends (hlit.fits float hends hfits.1) rfl, ?_⟩
    -- the walk goes on after the first byte of the literal
    have hrest : numbersFit float .number t = numbersFit float .text r := by
      obtain hsign | hsign := hlit.sign_eq
      · cases hrun : run with
        | nil => exact absurd hrun hlit.run_ne_nil
        | cons d run' =>
          rw [hsign, hrun] at hhead
          have ht : run' ++ r = t := (List.cons.inj hhead).2
          have hnum : ∀ c ∈ run', isNumeric c = true := fun c' hc' =>
            hlit.numeric c' (hrun ▸ List.mem_cons_of_mem _ hc')
          rw [← ht, numbersFit_run float hnum, numbersFit_ends float hends]
      · rw [hsign] at hhead
        have ht : run ++ r = t := (List.cons.inj hhead).2
        rw [← ht, numbersFit_run float hlit.numeric, numbersFit_ends float hends]
    rw [← hrest]
    exact hfits.2
  | @string mark cs hmark hmarked hcs hempty heq =>
    refine ⟨.string hmark hmarked hcs hempty heq, ?_⟩
    have hquoted : numbersFit float .string (cs ++ '"' :: r) = true := by
      rw [heq] at hfit
      simp only [marks, List.mem_cons, List.not_mem_nil, or_false] at hmark
      obtain rfl | rfl | rfl | rfl := hmark
      · exact hfit
      · exact (numbersFit_start float (by decide) (by decide) hfit).2
      · exact (numbersFit_start float (by decide) (by decide) hfit).2
      · exact (numbersFit_start float (by decide) (by decide) hfit).2
    rwa [numbersFit_string float hcs] at hquoted

/-- Behind a closing bracket the numbers are in range as before. -/
theorem Closes.fit {close : Char} (hclose : close ∈ [']', '}']) {s r : List Char}
    (h : Closes o close s r) (hfit : numbersFit float .text s = true) :
    numbersFit float .text r = true := by
  simp only [List.mem_cons, List.not_mem_nil, or_false] at hclose
  have hskip := h.skip (by obtain rfl | rfl := hclose <;> decide)
  exact numbersFit_punctuation float hskip (by obtain rfl | rfl := hclose <;> decide) hfit

/-- Behind a comma the numbers are in range as before. -/
theorem Separates.fit {s r : List Char} (h : Separates o s r)
    (hfit : numbersFit float .text s = true) : numbersFit float .text r = true := by
  obtain hcomma | ⟨-, rfl, -⟩ := h
  · exact numbersFit_punctuation float hcomma (by decide) hfit
  · rwa [numbersFit_skipBlanks]

/-- Behind a key the numbers are in range as before. -/
theorem Key.fit {cs s r : List Char} (h : Key o cs s r) (hfit : numbersFit float .text s = true) :
    numbersFit float .text r = true := by
  obtain ⟨hcs, -, t, hskip, hcolon⟩ := h
  rw [← numbersFit_skipBlanks, hskip] at hfit
  have hquoted : numbersFit float .string (cs ++ '"' :: t) = true := hfit
  rw [numbersFit_string float hcs] at hquoted
  obtain rfl | ⟨-, hcolon⟩ := hcolon
  · exact hquoted
  · exact numbersFit_punctuation float hcolon (by decide) hquoted

/-- Where the numbers are in range, the literals are the numbers of the reader. -/
theorem Reads.fit {k : Kind} {s r : List Char} (h : Reads o k s r)
    (hfit : numbersFit float .text s = true) :
    Reads (readable float o) k s r ∧ numbersFit float .text r = true := by
  induction h with
  | scalar hscalar =>
    obtain ⟨hscalar', hr⟩ := hscalar.fit float (by rwa [numbersFit_skipBlanks])
    exact ⟨.scalar hscalar', hr⟩
  -- each bracket, comma and colon is passed over, and what is behind it fits too
  | emptyArray hs hcloses =>
    have ht := numbersFit_punctuation float hs (by decide) hfit
    exact ⟨.emptyArray hs hcloses, hcloses.fit float (by decide) ht⟩
  | array hs _ ih =>
    obtain ⟨hitems, hr⟩ := ih (numbersFit_punctuation float hs (by decide) hfit)
    exact ⟨.array hs hitems, hr⟩
  | emptyObject hs hcloses =>
    have ht := numbersFit_punctuation float hs (by decide) hfit
    exact ⟨.emptyObject hs hcloses, hcloses.fit float (by decide) ht⟩
  | object hs _ ih =>
    obtain ⟨hmembers, hr⟩ := ih (numbersFit_punctuation float hs (by decide) hfit)
    exact ⟨.object hs hmembers, hr⟩
  | lastItem _ hclose ih =>
    obtain ⟨hvalue, ht⟩ := ih hfit
    exact ⟨.lastItem hvalue hclose, numbersFit_punctuation float hclose (by decide) ht⟩
  | item _ hsep _ ih ihItems =>
    obtain ⟨hvalue, ht⟩ := ih hfit
    obtain ⟨hitems, hr⟩ := ihItems (hsep.fit float ht)
    exact ⟨.item hvalue hsep hitems, hr⟩
  | lastMember hkey _ hclose ih =>
    obtain ⟨hvalue, ht⟩ := ih (hkey.fit float hfit)
    exact ⟨.lastMember hkey hvalue hclose, numbersFit_punctuation float hclose (by decide) ht⟩
  | member hkey _ hsep _ ih ihMembers =>
    obtain ⟨hvalue, ht⟩ := ih (hkey.fit float hfit)
    obtain ⟨hmembers, hr⟩ := ihMembers (hsep.fit float ht)
    exact ⟨.member hkey hvalue hsep hmembers, hr⟩

/-! ## Agreement -/

/-- The reader takes no more than with every literal a number. -/
theorem codeRules_le_loose : (codeRules float).Le looseRules :=
  ⟨id, id, id, id, id, fun _ _ _ => trivial⟩

/-- With numbers in range, the reader takes every literal. -/
theorem isJson_codeRules_iff {s : List Char} (hfit : numbersFit float .text s = true) :
    IsJson (codeRules float) s ↔ IsJson looseRules s := by
  refine ⟨IsJson.mono (codeRules_le_loose float), fun h => ?_⟩
  obtain ⟨r, hreads, hr⟩ := h
  exact ⟨r, (hreads.fit float hfit).1, hr⟩

/-- The reader takes exactly the JSON texts just where a text is JSON without empty strings,
blanks in empty containers and blanks before a `:`, or is no JSON even with commas left out
and marks before strings. -/
theorem parser_accepts_iff (float : FloatText F) (str : Text)
    (hfit : numbersFit float .text str.bytes = true) :
    ((∃ obj b, parser float str = .node obj b) ↔ IsJson jsonRules str.bytes) ↔
      IsJson plainRules str.bytes ∨ ¬IsJson jsonRules str.bytes ∧ ¬IsJson looseRules str.bytes := by
  rw [parser_node_iff, isJson_codeRules_iff float hfit]
  constructor
  · intro h
    by_cases hjson : IsJson jsonRules str.bytes
    · exact .inl ((h.mpr hjson).plain hjson)
    · exact .inr ⟨hjson, fun hloose => hjson (h.mp hloose)⟩
  · rintro (hplain | ⟨hjson, hloose⟩)
    · exact iff_of_true (hplain.mono plainRules_le_loose) (hplain.mono plainRules_le_json)
    · exact iff_of_false hloose hjson

/-- A `float` without values. -/
def noFloats : FloatText Empty := { to_string := Empty.elim, stof := fun _ => none }

/-- The array `[1]`. -/
def oneItem : Text := ⟨"[1]".toList, by decide⟩

/-- Reader and grammar agree on an array of one number. -/
theorem accepts_oneItem :
    ((∃ obj b, parser noFloats oneItem = .node obj b) ↔ IsJson jsonRules oneItem.bytes) ↔
      IsJson plainRules oneItem.bytes ∨
        ¬IsJson jsonRules oneItem.bytes ∧ ¬IsJson looseRules oneItem.bytes :=
  parser_accepts_iff noFloats oneItem (by decide)

/-- The empty string. -/
def emptyQuotes : Text := ⟨"\"\"".toList, by decide⟩

/-- The empty string is JSON, and the reader does not take it. -/
theorem rejects_emptyQuotes :
    numbersFit noFloats .text emptyQuotes.bytes = true ∧
      ¬((∃ obj b, parser noFloats emptyQuotes = .node obj b) ↔
        IsJson jsonRules emptyQuotes.bytes) := by
  refine ⟨by decide, fun h => ?_⟩
  have hjson : IsJson jsonRules emptyQuotes.bytes :=
    ⟨[], .scalar (.string (show [] ∈ marks by decide) nofun (show '"' ∉ [] by decide)
      (fun _ => rfl) rfl), rfl⟩
  obtain ⟨obj, b, hnode⟩ := h.mpr hjson
  cases hnode

end Json

end Athena
