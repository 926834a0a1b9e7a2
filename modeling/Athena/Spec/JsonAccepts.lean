import Athena.Spec.JsonBounds
import Athena.Spec.JsonGrammar

/-!
# What the JSON reader accepts

The reader is the grammar with the rules `codeRules`: it takes no empty string, and blanks
neither in an empty container nor before a `:`, but it does without commas, and takes a sign
or a dot before a string.

## Key results

- `readBase_sound`, `readBase_complete`: scalars
- `reader_sound`, `reader_complete`: values, items and members
- `parser_node_iff`: the texts that the parser gives a tree for
-/

namespace Athena

namespace Json

open JsonBuff

variable {F : Type} (float : FloatText F)

/-- The rules of the reader: a number is a literal whose conversion does not throw. -/
def codeRules : Rules where
  emptyString := false
  blankEmpty := false
  blankColon := false
  noComma := true
  markedString := true
  number run pnum := (number float ('.' ∈ run) pnum).isSome = true

/-! ## The cursor -/

/-- Moving the cursor by one drops the character under it. -/
theorem go_one {b : JsonBuff} {c : Char} {s : List Char} (h : b.rest = c :: s) :
    b.go 1 = { b with rest := s } := by
  have hlt : decide (b.rest.length < 1) = false := by
    rw [h, List.length_cons]
    exact decide_eq_false (by omega)
  rw [go, hlt, Bool.or_false, h]
  rfl

/-- A byte that is no blank is still there after `skip`. -/
theorem curr_ne_of_skip {b : JsonBuff} {c c' : Char} {t : List Char}
    (hs : skipBlanks b.rest = c :: t) (hne : c ≠ c') (hc' : isBlank c' = false) :
    b.curr ≠ c' := by
  intro hcurr
  cases hrest : b.rest with
  | nil =>
    rw [hrest] at hs
    cases hs
  | cons d s =>
    rw [curr_of_rest hrest] at hcurr
    rw [hrest, hcurr, skipBlanks_cons hc'] at hs
    exact hne (List.cons.inj hs).1.symm

/-- The bytes that a value begins with are none of the other tokens. -/
theorem start_ne {c : Char} (h : isStart c = true ∨ c = '[' ∨ c = '{') :
    c ≠ ',' ∧ c ≠ ']' ∧ c ≠ '}' ∧ c ≠ '\x00' := by
  refine ⟨?_, ?_, ?_, ?_⟩ <;> rintro rfl <;> revert h <;> decide

/-! ## Strings -/

/-- A string that is read stands between quotes and is not empty. -/
theorem readStr_sound {b b' : JsonBuff} {cs : List Char} (h : readStr b = (some cs, b')) :
    b.rest = '"' :: (cs ++ '"' :: b'.rest) ∧ '"' ∉ cs ∧ cs ≠ [] := by
  rw [readStr] at h
  split at h
  · -- the opening quote is there; the string goes up to the next quote
    next hquote =>
    obtain ⟨s, hs⟩ := rest_of_curr_eq hquote (by decide)
    rw [go_one hs] at h
    dsimp only at h
    split at h
    · next hend =>
      obtain ⟨hcs, rfl⟩ := Prod.mk.inj h
      obtain rfl := Option.some.inj hcs
      obtain ⟨hne, hcurr⟩ := Bool.and_eq_true_iff.mp hend
      obtain ⟨t, ht⟩ := rest_of_curr_eq (of_decide_eq_true hcurr) (by decide)
      rw [go_one ht]
      have hdrop : s.dropWhile (· ≠ '"') = '"' :: t := ht
      refine ⟨?_, fun hmem => ?_, of_decide_eq_true hne⟩
      · rw [hs, ← hdrop, List.takeWhile_append_dropWhile]
      · -- a quote inside would have ended the string
        have hquote := List.mem_takeWhile_imp hmem
        simp at hquote
    · cases (Prod.mk.inj h).1
  · cases (Prod.mk.inj h).1

/-- A string between quotes that is not empty is read. -/
theorem readStr_complete {b : JsonBuff} {cs r : List Char}
    (h : b.rest = '"' :: (cs ++ '"' :: r)) (hcs : '"' ∉ cs) (hne : cs ≠ []) :
    readStr b = (some cs, { b with rest := r }) := by
  have hspan : (cs ++ '"' :: r).takeWhile (· ≠ '"') = cs ∧
      (cs ++ '"' :: r).dropWhile (· ≠ '"') = '"' :: r := by
    refine span_append (fun c hc => ?_) fun c hc => ?_
    · exact decide_eq_true fun hquote => hcs (hquote ▸ hc)
    · obtain rfl := Option.some.inj hc
      rfl
  -- the cursor stops at the closing quote
  have hgo : (b.go 1).goWhile (· ≠ '"') = { b with rest := '"' :: r } := by
    rw [go_one h, goWhile]
    dsimp only
    rw [hspan.2]
  have hstr : (b.go 1).rest.takeWhile (· ≠ '"') = cs := by
    rw [go_one h]
    exact hspan.1
  have hcurr : (({ b with rest := '"' :: r } : JsonBuff)).curr = '"' := rfl
  rw [readStr, if_pos (curr_of_rest h)]
  dsimp only
  rw [hgo, hstr, hcurr, go_one (b := { b with rest := '"' :: r }) rfl]
  simp [hne]

/-! ## Numbers -/

/-- The loop of `readBase` over the digits and the dots: one dot at most. -/
theorem scanNumber_some (isfloat : Bool) (numpos : Nat) (str : List Char)
    (h : isfloat.toNat + (str.takeWhile isNumeric).count '.' ≤ 1) :
    scanNumber isfloat numpos str =
      (some (isfloat || decide ('.' ∈ str.takeWhile isNumeric),
        numpos + (str.takeWhile isNumeric).countP isDigit), str.dropWhile isNumeric) := by
  fun_induction scanNumber isfloat numpos str with
  | case1 isfloat numpos => simp
  -- a second point is one too many
  | case2 numpos str =>
    rw [List.takeWhile_cons_of_pos (by decide), List.count_cons_self, Bool.toNat_true] at h
    omega
  | case3 isfloat numpos str hfloat ih =>
    have hnot : isfloat = false := by simpa using hfloat
    rw [List.takeWhile_cons_of_pos (by decide), List.count_cons_self] at h
    rw [ih (by simp only [Bool.toNat_true]; omega),
      List.takeWhile_cons_of_pos (by decide), List.dropWhile_cons_of_pos (by decide),
      List.countP_cons_of_neg (by decide)]
    simp [hnot]
  -- a digit is counted and does not change the rest
  | case4 isfloat numpos c str hdot hdigit ih =>
    have hnum : isNumeric c = true := by rw [isNumeric, hdigit, Bool.or_true]
    rw [List.takeWhile_cons_of_pos hnum, List.count_cons_of_ne (Ne.symm hdot ∘ Eq.symm)] at h
    rw [ih h, List.takeWhile_cons_of_pos hnum, List.dropWhile_cons_of_pos hnum,
      List.countP_cons_of_pos hdigit]
    have hmem : ('.' ∈ c :: str.takeWhile isNumeric) ↔ '.' ∈ str.takeWhile isNumeric := by
      simp [List.mem_cons, Ne.symm hdot]
    simp only [hmem]
    congr 3
    omega
  -- the number ends here
  | case5 isfloat numpos c str hdot hdigit =>
    have hnum : ¬isNumeric c = true := by simp [isNumeric, hdot, hdigit]
    rw [List.takeWhile_cons_of_neg hnum, List.dropWhile_cons_of_neg hnum]
    simp

/-- The scan gives up at the second dot. -/
theorem scanNumber_none (isfloat : Bool) (numpos : Nat) (str : List Char)
    (h : 1 < isfloat.toNat + (str.takeWhile isNumeric).count '.') :
    (scanNumber isfloat numpos str).1 = none := by
  -- by induction on the scan: a dot that is not the first makes it fail
  fun_induction scanNumber isfloat numpos str with
  | case1 isfloat numpos =>
    have hle := Bool.toNat_le isfloat
    simp at h
    omega
  | case2 numpos str => rfl
  | case3 isfloat numpos str hfloat ih =>
    have hnot : isfloat = false := by simpa using hfloat
    rw [List.takeWhile_cons_of_pos (by decide), List.count_cons_self, hnot] at h
    exact ih (by simp only [Bool.toNat_true, Bool.toNat_false] at h ⊢; omega)
  | case4 isfloat numpos c str hdot hdigit ih =>
    have hnum : isNumeric c = true := by rw [isNumeric, hdigit, Bool.or_true]
    rw [List.takeWhile_cons_of_pos hnum, List.count_cons_of_ne (Ne.symm hdot ∘ Eq.symm)] at h
    exact ih h
  | case5 isfloat numpos c str hdot hdigit =>
    have hnum : ¬isNumeric c = true := by simp [isNumeric, hdot, hdigit]
    have hle := Bool.toNat_le isfloat
    rw [List.takeWhile_cons_of_neg hnum, List.count_nil] at h
    omega

/-- A minus in front of a number is passed over. -/
theorem sign_eq (b : JsonBuff) :
    (if b.curr = '-' then b.go 1 else b) = { b with rest := afterSign b.rest } := by
  cases hrest : b.rest with
  | nil =>
    have hcurr : b.curr ≠ '-' := by
      rw [curr, hrest]
      decide
    rw [if_neg hcurr, afterSign, if_neg (by simp), ← hrest]
  | cons c s =>
    rw [curr_of_rest hrest, afterSign]
    by_cases hc : c = '-'
    · rw [if_pos hc, if_pos (by rw [hc]; rfl), go_one hrest]
      rfl
    · rw [if_neg hc, if_neg (by simpa using hc), ← hrest]

/-- The part of `readBase` for numbers, by the digits and dots after the sign. -/
theorem readBaseNumber_eq {b : JsonBuff} {run r : List Char}
    (hrun : (afterSign b.rest).takeWhile isNumeric = run)
    (hr : (afterSign b.rest).dropWhile isNumeric = r) (hdots : run.count '.' ≤ 1) :
    readBaseNumber float b =
      if run.countP isDigit ≠ 0 then
        match number float ('.' ∈ run) b.rest with
        | some v => newValue { b with rest := r } v
        | none => .thrown ({ b with rest := r } : JsonBuff).alloc.2
      else readBaseStr { b with rest := r } := by
  have hscan := scanNumber_some false 0 (afterSign b.rest) (by rw [hrun]; simpa using hdots)
  rw [hrun, hr, Bool.false_or, Nat.zero_add] at hscan
  cases hnum : number float ('.' ∈ run) b.rest with
  | some v => simp only [readBaseNumber, sign_eq, hscan, hnum]
  | none => simp only [readBaseNumber, sign_eq, hscan, hnum]

/-- With two dots the number is no value. -/
theorem readBaseNumber_dots {b : JsonBuff}
    (hdots : 1 < ((afterSign b.rest).takeWhile isNumeric).count '.') :
    ∃ rest, readBaseNumber float b = .null { b with rest := rest } := by
  have hscan := scanNumber_none false 0 (afterSign b.rest) (by simpa using hdots)
  rw [readBaseNumber, sign_eq]
  dsimp only
  cases hpair : scanNumber false 0 (afterSign b.rest) with
  | mk fst rest =>
    rw [hpair] at hscan
    obtain rfl : fst = none := hscan
    exact ⟨rest, rfl⟩

/-! ## Scalars -/

/-- A text is its sign, the digits and dots, and the rest. -/
theorem split_number (s : List Char) :
    ∃ sign, (sign = [] ∨ sign = ['-']) ∧
      s = sign ++ ((afterSign s).takeWhile isNumeric ++ (afterSign s).dropWhile isNumeric) := by
  rw [List.takeWhile_append_dropWhile, afterSign]
  cases s with
  | nil => exact ⟨[], .inl rfl, rfl⟩
  | cons c s =>
    by_cases hc : c = '-'
    · rw [hc]
      exact ⟨['-'], .inr rfl, rfl⟩
    · exact ⟨[], .inl rfl, by rw [if_neg (by simpa using hc)]; rfl⟩

/-- A run of digits and dots ends where it ends. -/
theorem ends_dropWhile (s : List Char) : Ends (s.dropWhile isNumeric) := by
  intro c hc
  have hnot := List.head?_dropWhile_not isNumeric s
  rw [hc] at hnot
  simpa using hnot

/-- It has nothing but digits and dots. -/
theorem numeric_takeWhile (s : List Char) : ∀ c ∈ s.takeWhile isNumeric, isNumeric c = true :=
  fun _ hc => List.mem_takeWhile_imp hc

/-- Without a digit there is one dot at most. -/
theorem run_of_no_digit {run : List Char} (hnum : ∀ c ∈ run, isNumeric c = true)
    (hdots : run.count '.' ≤ 1) (hnone : run.countP isDigit = 0) : run = [] ∨ run = ['.'] := by
  have hdot : ∀ c ∈ run, c = '.' := by
    intro c hc
    have hdigit := List.countP_eq_zero.mp hnone c hc
    have hc' := hnum c hc
    -- a numeric character that is no digit is a dot
    rw [isNumeric, Bool.or_eq_true, decide_eq_true_eq] at hc'
    exact hc'.resolve_right hdigit
  have hrep := List.eq_replicate_of_mem hdot
  rw [hrep, List.count_replicate_self] at hdots
  cases run with
  | nil => exact .inl rfl
  | cons c run =>
    cases run with
    | nil => exact .inr (by rw [hdot c List.mem_cons_self])
    | cons c' run => simp at hdots

/-- A sign, a dot or both may stand before a string. -/
theorem mark_mem {sign run : List Char} (hsign : sign = [] ∨ sign = ['-'])
    (hrun : run = [] ∨ run = ['.']) : sign ++ run ∈ marks := by
  obtain rfl | rfl := hsign <;> obtain rfl | rfl := hrun <;> decide

/-- A string value that is read stands between quotes. -/
theorem readBaseStr_sound {b b' : JsonBuff} {obj : JBaseObj F}
    (h : readBaseStr b = .node obj b') :
    ∃ cs, b.rest = '"' :: (cs ++ '"' :: b'.rest) ∧ '"' ∉ cs ∧ cs ≠ [] := by
  rw [readBaseStr] at h
  split at h
  · next cs b'' hstr =>
    have hsound := readStr_sound hstr
    obtain ⟨-, rfl⟩ := Res.node.inj h
    exact ⟨cs, hsound⟩
  · cases h

/-- What `readBase` may find at the cursor, and what it gives then. -/
inductive BaseCase (float : FloatText F) (b : JsonBuff) (res : Res F) : Prop
  | word {w r : List Char} {v : JValue F} (hw : w ∈ words) (hs : b.rest = w ++ r)
    (hv : v = .eJ_NULL ∨ ∃ bv, v = .eJ_BOOL bv) (hres : res = newValue { b with rest := r } v)
  | number {sign run r : List Char} {v : JValue F} (hlit : Literal sign run) (hends : Ends r)
    (hs : b.rest = sign ++ (run ++ r)) (hv : Json.number float ('.' ∈ run) b.rest = some v)
    (hres : res = newValue { b with rest := r } v)
  | thrown {sign run r : List Char} (hlit : Literal sign run) (hends : Ends r)
    (hs : b.rest = sign ++ (run ++ r)) (hv : Json.number float ('.' ∈ run) b.rest = none)
    (hres : res = .thrown ({ b with rest := r } : JsonBuff).alloc.2)
  | string {mark r : List Char} (hmark : mark ∈ marks) (hs : b.rest = mark ++ r)
    (hres : res = readBaseStr { b with rest := r })
  | null (r : List Char) (hres : res = .null { b with rest := r })

/-- What `readBaseNumber` finds: a number, one that throws, a string behind marks, or nothing. -/
theorem readBaseNumber_spec (b : JsonBuff) : BaseCase float b (readBaseNumber float b) := by
  obtain ⟨sign, hsign, hsplit⟩ := split_number b.rest
  have hnum := numeric_takeWhile (afterSign b.rest)
  have hends := ends_dropWhile (afterSign b.rest)
  generalize hrun : (afterSign b.rest).takeWhile isNumeric = run at hsplit hnum
  generalize hr : (afterSign b.rest).dropWhile isNumeric = r at hsplit hends
  by_cases hdots : run.count '.' ≤ 1
  · rw [readBaseNumber_eq float hrun hr hdots]
    split
    · next hdigits =>
      obtain ⟨c, hc, hdigit⟩ := List.countP_pos_iff.mp (Nat.pos_of_ne_zero hdigits)
      have hlit : Literal sign run := ⟨hsign, hnum, hdots, c, hc, hdigit⟩
      split
      · next v hv => exact .number hlit hends hsplit hv rfl
      · next hv => exact .thrown hlit hends hsplit hv rfl
    · next hdigits =>
      -- what is before the string is a mark
      have hmark := mark_mem hsign (run_of_no_digit hnum hdots (by simpa using hdigits))
      exact .string hmark (by rw [List.append_assoc, ← hsplit]) rfl
  · obtain ⟨rest, hnull⟩ := readBaseNumber_dots float (b := b) (by rw [hrun]; omega)
    exact .null rest hnull

/-- The cursor goes over a word that stands there. -/
theorem go_isPrefixOf {b : JsonBuff} {w : List Char} (h : w.isPrefixOf b.rest = true) :
    ∃ r, b.rest = w ++ r ∧ b.go w.length = { b with rest := r } := by
  obtain ⟨r, hr⟩ := List.isPrefixOf_iff_prefix.mp h
  refine ⟨r, hr.symm, ?_⟩
  rw [go, ← hr, List.drop_left, List.length_append, decide_eq_false (by omega), Bool.or_false]

/-- What `readBase` finds: one of the three words, or what `readBaseNumber` finds. -/
theorem readBase_spec (b : JsonBuff) : BaseCase float b (readBase float b) := by
  rw [readBase]
  split
  -- the words are tried before a number is
  · next hnull =>
    obtain ⟨r, hr, hgo⟩ := go_isPrefixOf hnull
    exact .word (by decide) hr (.inl rfl) (congrArg (newValue · _) hgo)
  · split
    · next hfalse =>
      obtain ⟨r, hr, hgo⟩ := go_isPrefixOf hfalse
      exact .word (by decide) hr (.inr ⟨false, rfl⟩) (congrArg (newValue · _) hgo)
    · split
      · next htrue =>
        obtain ⟨r, hr, hgo⟩ := go_isPrefixOf htrue
        exact .word (by decide) hr (.inr ⟨true, rfl⟩) (congrArg (newValue · _) hgo)
      · exact readBaseNumber_spec float b

/-- A scalar that is read is one of the grammar. -/
theorem readBase_sound {b b' : JsonBuff} {obj : JBaseObj F}
    (h : readBase float b = .node obj b') : Scalar (codeRules float) b.rest b'.rest := by
  cases readBase_spec float b with
  | word hw hs hv hres =>
    obtain ⟨-, rfl⟩ := Res.node.inj (hres.symm.trans h)
    exact .word hw hs
  | number hlit hends hs hv hres =>
    obtain ⟨-, rfl⟩ := Res.node.inj (hres.symm.trans h)
    refine .number hlit hends ?_ hs
    -- the conversion of the text has a value
    show (number float _ b.rest).isSome = true
    rw [hv]
    rfl
  | thrown hlit hends hs hv hres => cases hres.symm.trans h
  | string hmark hs hres =>
    obtain ⟨cs, hrest, hcs, hne⟩ := readBaseStr_sound (hres.symm.trans h)
    exact .string hmark (fun _ => rfl) hcs (fun hnil => absurd hnil hne) (by rw [hs, ← hrest])
  | null r hres => cases hres.symm.trans h

/-- What begins with none of the words is a number or a string. -/
theorem readBase_eq_number {b : JsonBuff} {c : Char} {t : List Char} (hs : b.rest = c :: t)
    (hc : c ∉ ['n', 'f', 't']) : readBase float b = readBaseNumber float b := by
  simp only [List.mem_cons, List.not_mem_nil, or_false, not_or] at hc
  obtain ⟨hn, hf, ht⟩ := hc
  rw [readBase, hs]
  simp [Ne.symm hn, Ne.symm hf, Ne.symm ht]

/-- The words are read. -/
theorem readBase_word {b : JsonBuff} {w r : List Char} (hw : w ∈ words) (hs : b.rest = w ++ r) :
    ∃ v, readBase float b = newValue (b.go w.length) v := by
  simp only [words, List.mem_cons, List.not_mem_nil, or_false] at hw
  rw [readBase, hs]
  obtain rfl | rfl | rfl := hw
  · exact ⟨.eJ_NULL, by simp⟩
  · exact ⟨.eJ_BOOL false, by simp⟩
  · exact ⟨.eJ_BOOL true, by simp⟩

/-- A literal is read as its number, or its conversion throws. -/
theorem readBase_literal {b : JsonBuff} {sign run r : List Char} (hlit : Literal sign run)
    (hends : Ends r) (hs : b.rest = sign ++ (run ++ r)) :
    readBase float b =
      match number float ('.' ∈ run) b.rest with
      | some v => newValue { b with rest := r } v
      | none => .thrown ({ b with rest := r } : JsonBuff).alloc.2 := by
  obtain ⟨c, t, hhead, hc⟩ := literal_head hlit r
  -- none of the three words begins like a number
  have hword : c ∉ ['n', 'f', 't'] := by
    intro hmem
    simp only [List.mem_cons, List.not_mem_nil, or_false] at hmem
    obtain rfl | rfl | rfl := hmem <;> revert hc <;> decide
  obtain ⟨htake, hdrop⟩ := span_append hlit.numeric hends
  obtain ⟨d, hd, hdigit⟩ := hlit.digit
  have hpos := List.countP_pos_iff.mpr ⟨d, hd, hdigit⟩
  rw [readBase_eq_number float (hs.trans hhead) hword,
    readBaseNumber_eq float (by rw [hs, hlit.afterSign_eq, htake])
      (by rw [hs, hlit.afterSign_eq, hdrop]) hlit.dots, if_pos (Nat.ne_of_gt hpos)]

/-- A string is read, with or without a mark. -/
theorem readBase_string {b : JsonBuff} {mark cs r : List Char} (hmark : mark ∈ marks)
    (hcs : '"' ∉ cs) (hne : cs ≠ []) (hs : b.rest = mark ++ '"' :: (cs ++ '"' :: r)) :
    readBase float b = newValue { b with rest := r } (.eJ_STRING cs) := by
  obtain ⟨c, t, hhead, hc⟩ := mark_head hmark (cs ++ '"' :: r)
  have hword : c ∉ ['n', 'f', 't'] := by
    intro hmem
    simp only [List.mem_cons, List.not_mem_nil, or_false] at hmem
    obtain rfl | rfl | rfl := hmem <;> revert hc <;> decide
  obtain ⟨dot, hafter, hdot⟩ := afterSign_mark hmark (cs ++ '"' :: r)
  obtain ⟨htake, hdrop, hnone⟩ := mark_numeric hdot (cs ++ '"' :: r)
  have hdots : dot.count '.' ≤ 1 := by obtain rfl | rfl := hdot <;> decide
  -- without a digit the code goes on to the string
  have hzero : ¬dot.countP isDigit ≠ 0 := by obtain rfl | rfl := hdot <;> decide
  have hstr := readStr_complete (b := { b with rest := '"' :: (cs ++ '"' :: r) }) rfl hcs hne
  rw [readBase_eq_number float (hs.trans hhead) hword,
    readBaseNumber_eq float (by rw [hs, hafter, htake]) (by rw [hs, hafter, hdrop]) hdots,
    if_neg hzero, readBaseStr, hstr]

/-- Every scalar of the grammar is read. -/
theorem readBase_complete {b : JsonBuff} {r : List Char} (h : Scalar (codeRules float) b.rest r) :
    ∃ obj b', readBase float b = .node obj b' ∧ b'.rest = r := by
  cases h with
  | word hw heq =>
    obtain ⟨v, hv⟩ := readBase_word float hw heq
    refine ⟨_, _, hv, ?_⟩
    show b.rest.drop _ = r
    rw [heq, List.drop_left]
  | number hlit hends hnumber heq =>
    -- the conversion does not throw, so it gives a value
    obtain ⟨v, hv⟩ := Option.isSome_iff_exists.mp hnumber
    have hread := readBase_literal float hlit hends heq
    rw [hv] at hread
    exact ⟨_, _, hread, rfl⟩
  | string hmark hmarked hcs hempty heq =>
    exact ⟨_, _, readBase_string float hmark hcs (fun hnil => Bool.noConfusion (hempty hnil)) heq, rfl⟩

/-! ## Integers -/

/-- The integer that a literal without a dot denotes. -/
def denotes (sign run : List Char) : Int :=
  if sign = [] then (Nat.ofDigitChars 10 run 0 : Nat) else -(Nat.ofDigitChars 10 run 0 : Nat)

/-- A literal without a dot has digits only. -/
theorem digits_of_no_dot {run : List Char} (hnum : ∀ c ∈ run, isNumeric c = true)
    (hdot : '.' ∉ run) : ∀ c ∈ run, isDigit c = true := by
  intro c hc
  have hc' := hnum c hc
  rw [isNumeric, Bool.or_eq_true, decide_eq_true_eq] at hc'
  exact hc'.resolve_left fun heq => hdot (heq ▸ hc)

/-- `std::stoi` of a literal without a dot: the number it denotes, if that is an `int`. -/
theorem stoi_literal {sign run r : List Char} (hlit : Literal sign run) (hdot : '.' ∉ run)
    (hends : Ends r) :
    stoi (sign ++ (run ++ r)) =
      if -2147483648 ≤ denotes sign run ∧ denotes sign run < 2147483648 then
        some (Int32.ofInt (denotes sign run))
      else none := by
  have hdigits := digits_of_no_dot hlit.numeric hdot
  have hr : ∀ c ∈ r.head?, isDigit c = false := by
    intro c hc
    have hc' := hends c hc
    rw [isNumeric, Bool.or_eq_false_iff] at hc'
    exact hc'.2
  have htake := (span_append hdigits hr).1
  have hafter := hlit.afterSign_eq r
  have hnegative : ((sign ++ (run ++ r)).head? = some '-') ↔ sign ≠ [] := by
    -- a literal that begins with a digit has no sign
    obtain rfl | rfl := hlit.sign_eq
    · cases run with
      | nil => exact absurd rfl hlit.run_ne_nil
      | cons c run =>
        have hc := hlit.numeric c List.mem_cons_self
        refine iff_of_false (fun heq => ?_) fun hne => hne rfl
        obtain rfl := Option.some.inj heq
        cases hc
    · exact iff_of_true rfl (by decide)
  rw [afterSign] at hafter
  rw [stoi, hafter, htake, if_neg hlit.run_ne_nil]
  by_cases hsign : sign = []
  · rw [denotes, if_pos hsign, if_neg (fun h => hnegative.mp h hsign)]
  · rw [denotes, if_neg hsign, if_pos (hnegative.mpr hsign)]

/-! ## Keys and separators -/

/-- A key that is read is one of the grammar. -/
theorem readKey_sound {b b' : JsonBuff} {cs : List Char} (h : readKey b = (some cs, b')) :
    Key (codeRules float) cs b.rest b'.rest := by
  rw [readKey] at h
  split at h
  · split at h
    · next cs' b'' hstr =>
      obtain ⟨hrest, hcs, hne⟩ := readStr_sound hstr
      split at h
      · -- the colon has to follow at once
        next hcolon =>
        obtain ⟨hsome, rfl⟩ := Prod.mk.inj h
        obtain rfl := Option.some.inj hsome
        obtain ⟨t, ht⟩ := rest_of_curr_eq hcolon (by decide)
        refine ⟨hcs, fun hnil => absurd hnil hne, b''.rest, hrest, .inl ?_⟩
        rw [go_one ht, ht]
      · cases (Prod.mk.inj h).1
    · cases (Prod.mk.inj h).1
  · cases (Prod.mk.inj h).1

/-- Every key of the grammar is read. -/
theorem readKey_complete {b : JsonBuff} {cs r : List Char}
    (h : Key (codeRules float) cs b.rest r) : readKey b = (some cs, { b with rest := r }) := by
  obtain ⟨hcs, hempty, t, hskip, hcolon⟩ := h
  have hne : cs ≠ [] := fun hnil => Bool.noConfusion (hempty hnil)
  obtain rfl : t = ':' :: r := hcolon.resolve_right fun hblank => Bool.noConfusion hblank.1
  -- the code looks for the ':' at once
  have hrest : b.skip.rest = '"' :: (cs ++ '"' :: ':' :: r) := hskip
  rw [readKey, if_pos (curr_of_rest hrest), readStr_complete hrest hcs hne]
  dsimp only
  rw [if_pos (curr_of_rest rfl), go_one rfl]
  rfl

/-- A comma separates by any rules. -/
theorem separates_comma {b : JsonBuff} (h : b.skip.curr = ',') (o : Rules) :
    Separates o b.rest (b.skip.go 1).rest := by
  obtain ⟨t, ht⟩ := rest_of_curr_eq h (by decide)
  rw [go_one ht]
  exact .inl ht

/-- Where another value begins at once there is no separator. -/
theorem separates_start {o : Rules} (hnone : o.noComma = true) {s t : List Char} {c : Char}
    (hs : skipBlanks (skipBlanks s) = c :: t) (hc : isStart c = true ∨ c = '[' ∨ c = '{') :
    Separates o s (skipBlanks s) := by
  rw [skipBlanks_skipBlanks] at hs
  refine .inr ⟨hnone, rfl, fun c' hc' => ?_⟩
  rw [hs] at hc'
  obtain rfl := Option.some.inj hc'
  obtain ⟨hcomma, hclose, hbrace, -⟩ := start_ne hc
  exact ⟨hcomma, hclose, hbrace⟩

/-! ## Arrays and objects -/

/-- An array ends at its bracket. -/
theorem endArray_sound {objs : List (JBaseObj F)} {b b' : JsonBuff} {obj : JBaseObj F}
    (h : endArray objs b = .node obj b') : b.rest = ']' :: b'.rest := by
  rw [endArray] at h
  split at h
  · next hclose =>
    obtain ⟨t, ht⟩ := rest_of_curr_eq hclose (by decide)
    rw [go_one ht] at h
    obtain ⟨-, rfl⟩ := Res.node.inj h
    exact ht
  · cases h

/-- An object ends at its brace. -/
theorem endObj_sound {objs : List (List Char × JBaseObj F)} {b b' : JsonBuff} {obj : JBaseObj F}
    (h : endObj objs b = .node obj b') : b.rest = '}' :: b'.rest := by
  rw [endObj] at h
  split at h
  · next hclose =>
    obtain ⟨t, ht⟩ := rest_of_curr_eq hclose (by decide)
    rw [go_one ht] at h
    obtain ⟨-, rfl⟩ := Res.node.inj h
    exact ht
  · cases h

/-- Whatever the reader takes is in its grammar. -/
theorem reader_sound (fuel : Nat) :
    (∀ (b b' : JsonBuff) (obj : JBaseObj F), reader float fuel b = .node obj b' →
      Reads (codeRules float) .value b.rest b'.rest) ∧
      (∀ (objs : List (JBaseObj F)) (b b' : JsonBuff) (obj : JBaseObj F),
        readItem float fuel objs b = .node obj b' →
        Reads (codeRules float) .items b.rest b'.rest) ∧
      ∀ (objs : List (List Char × JBaseObj F)) (b b' : JsonBuff) (obj : JBaseObj F),
        readMember float fuel objs b = .node obj b' →
        Reads (codeRules float) .members b.rest b'.rest := by
  induction fuel with
  -- on the depth of the calls; each way through the code is one rule of the grammar
  | zero =>
    refine ⟨fun b b' obj h => ?_, fun objs b b' obj h => ?_, fun objs b b' obj h => ?_⟩
    · rw [reader] at h; cases h
    · rw [readItem] at h; cases h
    · rw [readMember] at h; cases h
  | succ fuel ih =>
    obtain ⟨ihReader, ihItem, ihMember⟩ := ih
    refine ⟨fun b b' obj h => ?_, fun objs b b' obj h => ?_, fun objs b b' obj h => ?_⟩
    · rw [reader] at h
      dsimp only at h
      split at h
      · next hopen =>
        obtain ⟨t, ht⟩ := rest_of_curr_eq hopen (by decide)
        rw [go_one ht] at h
        split at h
        · exact .array ht (ihItem _ _ _ _ h)
        · exact .emptyArray ht (.inl (endArray_sound h))
      · split at h
        · next hopen =>
          obtain ⟨t, ht⟩ := rest_of_curr_eq hopen (by decide)
          rw [go_one ht] at h
          split at h
          · exact .object ht (ihMember _ _ _ _ h)
          · exact .emptyObject ht (.inl (endObj_sound h))
        · exact .scalar (readBase_sound float h)
    · rw [readItem] at h
      split at h
      · next item b₁ hnode =>
        have hvalue := ihReader _ _ _ hnode
        dsimp only at h
        split at h
        · next hcomma => exact .item hvalue (separates_comma hcomma _) (ihItem _ _ _ _ h)
        · split at h
          · have hitems := ihItem _ _ _ _ h
            -- without a comma the loop goes on, and the next item has to begin here
            obtain ⟨c, t, hs, hc⟩ := hitems.items_head
            exact .item hvalue (separates_start rfl hs hc) hitems
          · exact .lastItem hvalue (endArray_sound h)
      · cases h
      · cases h
      · cases h
    · rw [readMember] at h
      split at h
      · cases h
      · next cs b₁ hkey =>
        have hkey := readKey_sound float hkey
        split at h
        · next item b₂ hnode =>
          have hvalue := ihReader _ _ _ hnode
          rw [← rest_leak b₂ (SortedMap.find cs objs)] at hvalue
          dsimp only at h
          split at h
          · next hcomma =>
            exact .member hkey hvalue (separates_comma hcomma _) (ihMember _ _ _ _ h)
          · split at h
            · have hmembers := ihMember _ _ _ _ h
              obtain ⟨t, hs⟩ := hmembers.members_head
              exact .member hkey hvalue (separates_start rfl hs (.inl (by decide))) hmembers
            · exact .lastMember hkey hvalue (endObj_sound h)
        · cases h
        · cases h
        · cases h

/-- A function of the reader takes a text up to its rest. -/
def Yields (fuel : Nat) (b : JsonBuff) (r : List Char) : Kind → Prop
  | .value => ∃ obj b', reader float fuel b = .node obj b' ∧ b'.rest = r
  | .items => ∀ objs, ∃ obj b', readItem float fuel objs b = .node obj b' ∧ b'.rest = r
  | .members => ∀ objs, ∃ obj b', readMember float fuel objs b = .node obj b' ∧ b'.rest = r

/-- The depth of calls that is enough for a text. -/
def Enough (fuel : Nat) (s : List Char) : Kind → Prop
  | .value => 2 * s.length + 1 ≤ fuel
  | _ => 2 * s.length + 2 ≤ fuel

/-- At the bracket the array is made. -/
theorem endArray_closes (objs : List (JBaseObj F)) {b : JsonBuff} {r : List Char}
    (h : b.rest = ']' :: r) :
    ∃ id b', endArray objs b = .node (.array id objs) b' ∧ b'.rest = r := by
  rw [endArray, if_pos (curr_of_rest h), go_one h]
  exact ⟨_, _, rfl, rfl⟩

/-- At the brace the object is made. -/
theorem endObj_closes (objs : List (List Char × JBaseObj F)) {b : JsonBuff} {r : List Char}
    (h : b.rest = '}' :: r) :
    ∃ id b', endObj objs b = .node (.object id objs) b' ∧ b'.rest = r := by
  rw [endObj, if_pos (curr_of_rest h), go_one h]
  exact ⟨_, _, rfl, rfl⟩

/-- The test of a loop goes on before a value. -/
theorem goes_on {b : JsonBuff} {c close : Char} {t : List Char}
    (hs : skipBlanks b.rest = c :: t) (hclose : c ≠ close) (hblank : isBlank close = false)
    (hnul : c ≠ '\x00') : (b.curr ≠ close && b.curr ≠ '\x00') = true := by
  have hne := curr_ne_of_skip hs hclose hblank
  have hne' := curr_ne_of_skip hs hnul (by decide)
  simp [hne, hne']

/-! ## One step of a loop -/

/-- A value that another one follows. -/
theorem readItem_next {fuel : Nat} {objs : List (JBaseObj F)} {b b₁ : JsonBuff}
    {obj : JBaseObj F} {t : List Char} (hnode : reader float fuel b = .node obj b₁)
    (hsep : Separates (codeRules float) b₁.rest t)
    (hstart : ∃ c t', skipBlanks t = c :: t' ∧ (isStart c = true ∨ c = '[' ∨ c = '{')) :
    readItem float (fuel + 1) objs b = readItem float fuel (objs ++ [obj]) { b₁ with rest := t } := by
  rw [readItem, hnode]
  dsimp only
  obtain hcomma | ⟨-, rfl, -⟩ := hsep
  · -- a comma is passed over
    have hrest : b₁.skip.rest = ',' :: t := hcomma
    rw [if_pos (curr_of_rest hrest), go_one hrest]
    rfl
  · -- without one, the loop goes on because the next item has begun
    obtain ⟨c, t', hs, hc⟩ := hstart
    obtain ⟨hcomma, hclose, -, hnul⟩ := start_ne hc
    have hskip : skipBlanks b₁.skip.rest = c :: t' := hs
    rw [if_neg (curr_ne_of_skip hskip hcomma (by decide)),
      if_pos (goes_on hskip hclose (by decide) hnul)]
    rfl

/-- Behind the last item the array is closed. -/
theorem readItem_last {fuel : Nat} {objs : List (JBaseObj F)} {b b₁ : JsonBuff}
    {obj : JBaseObj F} {r : List Char} (hnode : reader float fuel b = .node obj b₁)
    (hclose : skipBlanks b₁.rest = ']' :: r) :
    readItem float (fuel + 1) objs b = endArray (objs ++ [obj]) b₁.skip := by
  have hrest : b₁.skip.rest = ']' :: r := hclose
  rw [readItem, hnode]
  dsimp only
  rw [curr_of_rest hrest, if_neg (by decide), if_neg (by decide)]

/-- What `readMember` leaves before it looks for the next member. -/
def stored (b : JsonBuff) (objs : List (List Char × JBaseObj F)) (cs : List Char) : JsonBuff :=
  b.leak (SortedMap.find cs objs)

/-- Behind a member and what separates it the next one is read. -/
theorem readMember_next {fuel : Nat} {objs : List (List Char × JBaseObj F)} {b b₁ b₂ : JsonBuff}
    {obj : JBaseObj F} {cs t : List Char} (hkey : readKey b = (some cs, b₁))
    (hnode : reader float fuel b₁ = .node obj b₂)
    (hsep : Separates (codeRules float) b₂.rest t)
    (hstart : ∃ t', skipBlanks t = '"' :: t') :
    readMember float (fuel + 1) objs b =
      readMember float fuel (SortedMap.store cs obj objs) { stored b₂ objs cs with rest := t } := by
  rw [readMember, hkey]
  dsimp only
  rw [hnode]
  dsimp only
  rw [← rest_leak b₂ (SortedMap.find cs objs)] at hsep
  obtain hcomma | ⟨-, rfl, -⟩ := hsep
  · -- a comma is passed over
    have hrest : (b₂.leak (SortedMap.find cs objs)).skip.rest = ',' :: t := hcomma
    rw [if_pos (curr_of_rest hrest), go_one hrest]
    rfl
  · -- without one, the loop goes on because the next key has begun
    obtain ⟨t', hs⟩ := hstart
    have hskip : skipBlanks (b₂.leak (SortedMap.find cs objs)).skip.rest = '"' :: t' := hs
    rw [if_neg (curr_ne_of_skip hskip (by decide) (by decide)),
      if_pos (goes_on hskip (by decide) (by decide) (by decide))]
    rfl

/-- Behind the last member the object is closed. -/
theorem readMember_last {fuel : Nat} {objs : List (List Char × JBaseObj F)} {b b₁ b₂ : JsonBuff}
    {obj : JBaseObj F} {cs r : List Char} (hkey : readKey b = (some cs, b₁))
    (hnode : reader float fuel b₁ = .node obj b₂) (hclose : skipBlanks b₂.rest = '}' :: r) :
    readMember float (fuel + 1) objs b =
      endObj (SortedMap.store cs obj objs) (stored b₂ objs cs).skip := by
  rw [← rest_leak b₂ (SortedMap.find cs objs)] at hclose
  have hrest : (b₂.leak (SortedMap.find cs objs)).skip.rest = '}' :: r := hclose
  rw [readMember, hkey]
  dsimp only
  rw [hnode]
  dsimp only
  rw [curr_of_rest hrest, if_neg (by decide), if_neg (by decide)]
  rfl

/-- A value that is no container is read by `readBase`. -/
theorem reader_start {fuel : Nat} {b : JsonBuff} {c : Char} {t : List Char}
    (hs : skipBlanks b.rest = c :: t) (hc : isStart c = true) :
    reader float (fuel + 1) b = readBase float b.skip := by
  have hrest : b.skip.rest = c :: t := hs
  have hopen : c ≠ '[' := by rintro rfl; revert hc; decide
  have hbrace : c ≠ '{' := by rintro rfl; revert hc; decide
  rw [reader]
  dsimp only
  rw [curr_of_rest hrest, if_neg hopen, if_neg hbrace]

/-- A bracket with an item behind it begins the loop over items. -/
theorem reader_array {fuel : Nat} {b : JsonBuff} {t : List Char}
    (hs : skipBlanks b.rest = '[' :: t)
    (hstart : ∃ c t', skipBlanks t = c :: t' ∧ (isStart c = true ∨ c = '[' ∨ c = '{')) :
    reader float (fuel + 1) b = readItem float fuel [] { b with rest := t } := by
  have hrest : b.skip.rest = '[' :: t := hs
  obtain ⟨c, t', hs', hc⟩ := hstart
  obtain ⟨-, hclose, -, hnul⟩ := start_ne hc
  have hgo := goes_on (b := { b with rest := t }) hs' hclose (by decide) hnul
  rw [reader]
  dsimp only
  rw [if_pos (curr_of_rest hrest), go_one hrest]
  exact if_pos hgo

/-- A bracket with its end right behind it is an empty array. -/
theorem reader_emptyArray {fuel : Nat} {b : JsonBuff} {r : List Char}
    (hs : skipBlanks b.rest = '[' :: ']' :: r) :
    reader float (fuel + 1) b = endArray [] { b with rest := ']' :: r } := by
  have hrest : b.skip.rest = '[' :: ']' :: r := hs
  rw [reader]
  dsimp only
  rw [if_pos (curr_of_rest hrest), go_one hrest]
  rfl

/-- A brace with a key behind it begins the loop over members. -/
theorem reader_object {fuel : Nat} {b : JsonBuff} {t : List Char}
    (hs : skipBlanks b.rest = '{' :: t) (hstart : ∃ t', skipBlanks t = '"' :: t') :
    reader float (fuel + 1) b = readMember float fuel [] { b with rest := t } := by
  have hrest : b.skip.rest = '{' :: t := hs
  obtain ⟨t', hs'⟩ := hstart
  have hgo := goes_on (b := { b with rest := t }) hs' (show '"' ≠ '}' by decide) (by decide)
    (by decide)
  rw [reader]
  dsimp only
  rw [curr_of_rest hrest, if_neg (by decide), if_pos rfl, go_one hrest]
  exact if_pos hgo

/-- A brace with its end right behind it is an empty object. -/
theorem reader_emptyObject {fuel : Nat} {b : JsonBuff} {r : List Char}
    (hs : skipBlanks b.rest = '{' :: '}' :: r) :
    reader float (fuel + 1) b = endObj [] { b with rest := '}' :: r } := by
  have hrest : b.skip.rest = '{' :: '}' :: r := hs
  rw [reader]
  dsimp only
  rw [curr_of_rest hrest, if_neg (by decide), if_pos rfl, go_one hrest]
  rfl

/-- Whatever is in the grammar the reader takes. -/
theorem reader_complete {k : Kind} {s r : List Char} (h : Reads (codeRules float) k s r) :
    ∀ (fuel : Nat) (b : JsonBuff), b.rest = s → Enough fuel s k → Yields float fuel b r k := by
  induction h with
  -- on the derivation; the rest of a text is shorter, so the depth is enough for it
  | scalar hscalar =>
    rintro (_ | fuel) b rfl hfuel
    · exact absurd hfuel (Nat.not_succ_le_zero _)
    · obtain ⟨c, t, hs, hc⟩ := hscalar.head
      obtain ⟨obj, b', hread, hr⟩ := readBase_complete float (b := b.skip) hscalar
      exact ⟨obj, b', (reader_start float hs hc).trans hread, hr⟩
  | @emptyArray s t r hs hcloses =>
    rintro (_ | fuel) b rfl hfuel
    · exact absurd hfuel (Nat.not_succ_le_zero _)
    · obtain rfl := hcloses.resolve_right fun hblank => Bool.noConfusion hblank.1
      rw [Yields, reader_emptyArray float hs]
      obtain ⟨id, b', hend, hr⟩ := endArray_closes ([] : List (JBaseObj F))
        (b := { b with rest := ']' :: r }) rfl
      exact ⟨_, b', hend, hr⟩
  | array hs hitems ih =>
    rintro (_ | fuel) b rfl hfuel
    · exact absurd hfuel (Nat.not_succ_le_zero _)
    · have hlt := length_of_skip hs
      obtain ⟨obj, b', hread, hr⟩ := ih fuel { b with rest := _ } rfl
        (by simp only [Enough] at hfuel ⊢; omega) []
      exact ⟨obj, b', (reader_array float hs hitems.items_head).trans hread, hr⟩
  | @emptyObject s t r hs hcloses =>
    rintro (_ | fuel) b rfl hfuel
    · exact absurd hfuel (Nat.not_succ_le_zero _)
    · obtain rfl := hcloses.resolve_right fun hblank => Bool.noConfusion hblank.1
      rw [Yields, reader_emptyObject float hs]
      obtain ⟨id, b', hend, hr⟩ := endObj_closes ([] : List (List Char × JBaseObj F))
        (b := { b with rest := '}' :: r }) rfl
      exact ⟨_, b', hend, hr⟩
  | object hs hmembers ih =>
    rintro (_ | fuel) b rfl hfuel
    · exact absurd hfuel (Nat.not_succ_le_zero _)
    · have hlt := length_of_skip hs
      obtain ⟨obj, b', hread, hr⟩ := ih fuel { b with rest := _ } rfl
        (by simp only [Enough] at hfuel ⊢; omega) []
      exact ⟨obj, b', (reader_object float hs hmembers.members_head).trans hread, hr⟩
  | lastItem hvalue hclose ih =>
    rintro (_ | fuel) b rfl hfuel objs
    · exact absurd hfuel (Nat.not_succ_le_zero _)
    · obtain ⟨obj, b₁, hnode, rfl⟩ := ih fuel b rfl (by simp only [Enough] at hfuel ⊢; omega)
      rw [readItem_last float hnode hclose]
      obtain ⟨id, b', hend, hr⟩ := endArray_closes (objs ++ [obj]) (b := b₁.skip) hclose
      exact ⟨_, b', hend, hr⟩
  | item hvalue hsep hitems ih ihItems =>
    rintro (_ | fuel) b rfl hfuel objs
    · exact absurd hfuel (Nat.not_succ_le_zero _)
    · have hlt := hvalue.shorter
      have hle := hsep.length_le
      obtain ⟨obj, b₁, hnode, rfl⟩ := ih fuel b rfl (by simp only [Enough] at hfuel ⊢; omega)
      rw [readItem_next float hnode hsep hitems.items_head]
      exact ihItems fuel { b₁ with rest := _ } rfl (by simp only [Enough] at hfuel ⊢; omega) _
  | lastMember hkey hvalue hclose ih =>
    rintro (_ | fuel) b rfl hfuel objs
    · exact absurd hfuel (Nat.not_succ_le_zero _)
    · have hlt := hkey.shorter
      obtain ⟨obj, b₂, hnode, rfl⟩ := ih fuel { b with rest := _ } rfl
        (by simp only [Enough] at hfuel ⊢; omega)
      rw [readMember_last float (readKey_complete float hkey) hnode hclose]
      rw [← rest_leak b₂ (SortedMap.find _ objs)] at hclose
      obtain ⟨id, b', hend, hr⟩ := endObj_closes (SortedMap.store _ obj objs)
        (b := (stored b₂ objs _).skip) hclose
      exact ⟨_, b', hend, hr⟩
  | member hkey hvalue hsep hmembers ih ihMembers =>
    rintro (_ | fuel) b rfl hfuel objs
    · exact absurd hfuel (Nat.not_succ_le_zero _)
    · have hltKey := hkey.shorter
      have hlt := hvalue.shorter
      have hle := hsep.length_le
      obtain ⟨obj, b₂, hnode, rfl⟩ := ih fuel { b with rest := _ } rfl
        (by simp only [Enough] at hfuel ⊢; omega)
      rw [readMember_next float (readKey_complete float hkey) hnode hsep hmembers.members_head]
      exact ihMembers fuel { stored b₂ objs _ with rest := _ } rfl
        (by simp only [Enough] at hfuel ⊢; omega) _

/-! ## The parser -/

/-- A text has no NUL of its own, so the cursor shows one only at its end. -/
theorem curr_eq_nul_iff {str : Text} {b : JsonBuff} (h : b.rest <:+ str.bytes) :
    b.curr = '\x00' ↔ b.rest = [] := by
  constructor
  · intro hcurr
    cases hrest : b.rest with
    | nil => rfl
    | cons c s =>
      rw [curr_of_rest hrest] at hcurr
      rw [hrest, hcurr] at h
      exact absurd (h.subset List.mem_cons_self) str.no_nul
  · intro hrest
    rw [curr, hrest]
    rfl

/-- The parser gives a tree for the texts of its grammar. -/
theorem parser_node_iff (str : Text) :
    (∃ obj b, parser float str = .node obj b) ↔ IsJson (codeRules float) str.bytes := by
  constructor
  · rintro ⟨obj, b, h⟩
    rw [parser] at h
    dsimp only at h
    split at h
    · next obj' b' hnode =>
      have hreads := (reader_sound float _).1 _ _ _ hnode
      have hinside := (reader_inside float (depth str.bytes)).1 (.new str)
      rw [hnode] at hinside
      have hskip := hinside.1.trans (within_skip b')
      split at h
      · cases h
      · next hend =>
        exact ⟨b'.rest, hreads, (curr_eq_nul_iff hskip.suffix).mp (not_not.mp hend)⟩
    · cases h
    · cases h
    · cases h
  · rintro ⟨r, hreads, hr⟩
    obtain ⟨obj, b, hnode, rfl⟩ := reader_complete float hreads (depth str.bytes) (.new str) rfl
      (Nat.le_refl _)
    have hend : b.skip.curr = '\x00' := by
      have hrest : b.skip.rest = [] := hr
      -- nothing but blanks is left before the NUL
      rw [curr, hrest]
      rfl
    rw [parser]
    dsimp only
    rw [hnode]
    dsimp only
    rw [if_neg (not_not.mpr hend)]
    exact ⟨obj, b.skip, rfl⟩

end Json

end Athena
