import Athena.Native.IdlParser

/-!
# The scanner (`core/serialization/Token.cpp`, `Keyword.cpp`, `Fio.cpp`)

A text is what is left of a file at the pointer of its `FBuffer`.  Behind its last byte stands
the NUL that `load` appends, which is all that `current` shows there.  A byte is a `Char`.

An unterminated comment stops the program (`assertion`), and one that ends in a star makes
`next` go past the NUL (`outside`).
-/

namespace Athena.Idl

/-- Where the scanner does not come back with a token. -/
inductive ScanError where
  | assertion
  | outside
  deriving DecidableEq, Repr

namespace FBuffer

/-- `currIsNewline`. -/
def isNewline (c : Char) : Bool := c == '\n' || c == '\r'

/-- `nextline`: two different line ends are one. -/
def nextline : List Char → List Char
  | [] => []
  | [_] => []
  | c :: c' :: src => if isNewline c' && c' != c then src else c' :: src

/-- `nextline` skips newline characters only. -/
theorem nextline_eq_append (c : Char) (src : List Char) :
    ∃ skipped, c :: src = c :: skipped ++ nextline (c :: src) ∧ skipped.all isNewline := by
  cases src with
  | nil => exact ⟨[], rfl, rfl⟩
  | cons c' src =>
    rw [nextline]
    split
    · next hpair =>
      refine ⟨[c'], rfl, ?_⟩
      rw [Bool.and_eq_true] at hpair
      rw [List.all_cons, hpair.1]
      rfl
    · exact ⟨[], rfl, rfl⟩

/-- `nextline` skips at least one character. -/
theorem length_nextline (c : Char) (src : List Char) :
    (nextline (c :: src)).length < (c :: src).length := by
  obtain ⟨skipped, heq, -⟩ := nextline_eq_append c src
  have hlength := congrArg List.length heq
  simp only [List.length_cons, List.length_append] at hlength ⊢
  omega

end FBuffer

open FBuffer

/-! ## Characters -/

/-- A digit. -/
def isNum (c : Char) : Bool := decide ('0' ≤ c) && decide (c ≤ '9')

/-- A letter. -/
def isLetter (c : Char) : Bool :=
  decide ('a' ≤ c) && decide (c ≤ 'z') || decide ('A' ≤ c) && decide (c ≤ 'Z')

/-- A character of a name. -/
def isVarChar (c : Char) : Bool := isLetter c || isNum c || c == '_'

/-- The blanks other than line ends. -/
def isBlank (c : Char) : Bool := c == ' ' || c == '\x0c' || c == '\t' || c == '\x0b'

/-- `eKw_EOF` as a character. -/
def nul : Char := '\x00'

/-! ## Tokens -/

namespace Token

/-- `Keyword::getKeyword`. -/
def getKeyword : String → Option Tok
  | "if" => some .IF
  | "else" => some .ELSE
  | "struct" => some .STRUCT
  | "typedef" => some .TYPEDEF
  | "vector" => some .VECTOR
  | "read" => some .READ
  | "write" => some .WRITE
  | "import" => some .IMPORT
  | "int8" => some (.BASE .INT8)
  | "uint8" => some (.BASE .UINT8)
  | "int16" => some (.BASE .INT16)
  | "uint16" => some (.BASE .UINT16)
  | "int32" => some (.BASE .INT32)
  | "uint32" => some (.BASE .UINT32)
  | "int64" => some (.BASE .INT64)
  | "uint64" => some (.BASE .UINT64)
  | "float" => some (.BASE .FLOAT)
  | "double" => some (.BASE .DOUBLE)
  | "string" => some .STRING
  | _ => none

/-- `read_var`. -/
def readVar (src : List Char) : Tok × List Char :=
  let name := String.ofList (src.takeWhile isVarChar)
  ((getKeyword name).getD (.VAR name), src.dropWhile isVarChar)

/-- The characters of a number. -/
def isNumChar (c : Char) : Bool := isNum c || c == '.'

/-- `read_num`. -/
def readNum (src : List Char) : Tok × List Char :=
  let digits := src.takeWhile isNumChar
  (if digits.contains '.' then .DECIMALS (.ofList digits) else .NUM (.ofList digits),
    src.dropWhile isNumChar)

/-- `return c`. -/
def oneChar (c : Char) (src : List Char) : Tok × List Char := (.sym c, src)

/-- `if (check_next(c)) return tok`, and else go on with `other`. -/
def checkNext (c : Char) (tok : Tok) (other : List Char → Tok × List Char) :
    List Char → Tok × List Char
  | [] => other []
  | c' :: src => if c' = c then (tok, src) else other (c' :: src)

/-- A token that starts with `c`. -/
def readToken (c : Char) (src : List Char) : Tok × List Char :=
  match c with
  | '=' => checkNext '=' .EQ (oneChar '=') src
  | '!' => checkNext '=' .NE (oneChar '!') src
  | '&' => checkNext '&' .AND (oneChar '&') src
  | '|' => checkNext '|' .OR (oneChar '|') src
  | '<' => checkNext '=' .LE (checkNext '<' .SHL (oneChar '<')) src
  | '>' => checkNext '=' .GE (checkNext '>' .SHR (oneChar '>')) src
  | c =>
    if isNum c then readNum (c :: src)
    else if isLetter c then readVar (c :: src)
    else oneChar c src

/-! ## Comments -/

/-- Until the end of the line or of the file. -/
def skipLine (src : List Char) : List Char :=
  src.dropWhile fun c => !isNewline c && c != nul

/-- `read_long_string`. -/
def readLongString : List Char → Except ScanError (List Char)
  | [] => .error .assertion
  | c :: src =>
    if c = nul then .error .assertion
    else if isNewline c then readLongString (nextline (c :: src))
    else if c = '*' then
      match src with
      | [] => .error .outside
      -- the character behind a star is skipped, whatever it is
      | c' :: src => if c' = '/' then .ok src else readLongString src
    else readLongString src
termination_by src => src.length
decreasing_by
  · exact length_nextline c src
  · simp only [List.length_cons]
    omega
  · exact Nat.lt_succ_self _

/-- The end of a comment is a `*/`. -/
theorem readLongString_eq_append {src rest : List Char} (h : readLongString src = .ok rest) :
    ∃ body, src = body ++ '*' :: '/' :: rest := by
  fun_induction readLongString src with
  | case1 => exact nomatch h
  | case2 src => exact nomatch h
  | case3 c src hnul hline ih =>
    obtain ⟨skipped, heq, -⟩ := nextline_eq_append c src
    obtain ⟨body, hbody⟩ := ih h
    refine ⟨c :: skipped ++ body, ?_⟩
    rw [heq, hbody, List.append_assoc]
  | case4 => exact nomatch h
  | case5 src => exact ⟨[], by rw [Except.ok.inj h, List.nil_append]⟩
  | case6 c src hslash hnul hline ih =>
    obtain ⟨body, hbody⟩ := ih h
    exact ⟨'*' :: c :: body, by rw [hbody]; rfl⟩
  | case7 c src hnul hline hstar ih =>
    obtain ⟨body, hbody⟩ := ih h
    exact ⟨c :: body, by rw [hbody]; rfl⟩

/-- A long comment takes characters. -/
theorem length_readLongString {src rest : List Char} (h : readLongString src = .ok rest) :
    rest.length < src.length := by
  obtain ⟨body, hbody⟩ := readLongString_eq_append h
  have hlength := congrArg List.length hbody
  simp only [List.length_append, List.length_cons] at hlength
  omega

/-- A line comment gives no characters back. -/
theorem length_skipLine (src : List Char) : (skipLine src).length ≤ src.length :=
  (List.dropWhile_suffix _).length_le

/-! ## Tokens of a text -/

/-- `symbol`: the next token and what is left, or `none` at the end. -/
def symbol : List Char → Except ScanError (Option (Tok × List Char))
  | [] => .ok none
  | c :: src =>
    if c = nul then .ok none
    else if isNewline c then symbol (nextline (c :: src))
    else if isBlank c then symbol src
    else if c = '/' then
      match src with
      | [] => .ok (some (.sym '/', []))
      | c' :: src =>
        if c' = '/' then symbol (skipLine src)
        else if c' = '*' then
          match _h : readLongString src with
          | .error e => .error e
          | .ok rest => symbol rest
        else .ok (some (.sym '/', c' :: src))
    else .ok (some (readToken c src))
termination_by src => src.length
decreasing_by
  · exact length_nextline c src
  · exact Nat.lt_succ_self _
  · have := length_skipLine src
    simp only [List.length_cons]
    omega
  · have := length_readLongString ‹_›
    simp only [List.length_cons]
    omega

/-- A token that looks at the next character leaves a rest of the text. -/
theorem checkNext_suffix {c : Char} {tok : Tok} {other : List Char → Tok × List Char}
    (hother : ∀ src, (other src).2 <:+ src) (src : List Char) :
    (checkNext c tok other src).2 <:+ src := by
  cases src with
  | nil => exact hother []
  | cons c' src =>
    rw [checkNext]
    split
    · exact List.suffix_cons c' src
    · exact hother (c' :: src)

/-- A run of characters that the first one begins takes the first one. -/
theorem dropWhile_cons_suffix {p : Char → Bool} {c : Char} (hc : p c = true) (src : List Char) :
    (c :: src).dropWhile p <:+ src := by
  rw [List.dropWhile_cons_of_pos hc]
  exact List.dropWhile_suffix p

/-- A token has at least one character. -/
theorem readToken_suffix (c : Char) (src : List Char) : (readToken c src).2 <:+ src := by
  have hnum (hc : isNum c = true) : (readNum (c :: src)).2 <:+ src :=
    dropWhile_cons_suffix (by rw [isNumChar, hc, Bool.true_or]) src
  have hvar (hc : isLetter c = true) : (readVar (c :: src)).2 <:+ src :=
    dropWhile_cons_suffix (by rw [isVarChar, hc, Bool.true_or, Bool.true_or]) src
  have hone (c : Char) (src : List Char) : (oneChar c src).2 <:+ src := List.suffix_rfl
  fun_cases readToken c src with
  | case1 => exact checkNext_suffix (hone '=') src
  | case2 => exact checkNext_suffix (hone '!') src
  | case3 => exact checkNext_suffix (hone '&') src
  | case4 => exact checkNext_suffix (hone '|') src
  | case5 => exact checkNext_suffix (checkNext_suffix (hone '<')) src
  | case6 => exact checkNext_suffix (checkNext_suffix (hone '>')) src
  | case7 => exact hnum ‹_›
  | case8 => exact hvar ‹_›
  | case9 => exact hone c src

/-- A token shortens the text, and so does what is skipped before it. -/
theorem length_symbol {src rest : List Char} {tok : Tok}
    (h : symbol src = .ok (some (tok, rest))) : rest.length < src.length := by
  fun_induction symbol src with
  | case1 => exact nomatch h
  | case2 => exact nomatch h
  | case3 c src hnul hline ih => exact Nat.lt_trans (ih h) (length_nextline c src)
  | case4 c src hnul hline hblank ih => exact Nat.lt_trans (ih h) (Nat.lt_succ_self _)
  | case5 =>
    obtain ⟨-, rfl⟩ := Prod.mk.inj (Option.some.inj (Except.ok.inj h))
    exact Nat.lt_succ_self _
  | case6 src hnul hline hblank ih =>
    have hskip := length_skipLine src
    have hrest := ih h
    simp only [List.length_cons]
    omega
  | case7 => exact nomatch h
  | case8 src rest' hcomment hnul hline hblank hslash ih =>
    have hskip := length_readLongString hcomment
    have hrest := ih h
    simp only [List.length_cons]
    omega
  | case9 =>
    obtain ⟨-, rfl⟩ := Prod.mk.inj (Option.some.inj (Except.ok.inj h))
    exact Nat.lt_succ_self _
  | case10 c src =>
    have hlength := (readToken_suffix c src).length_le
    rw [Option.some.inj (Except.ok.inj h)] at hlength
    exact Nat.lt_succ_of_le hlength

/-- What `nextToken` returns, call by call, until the end, and why it ends. -/
def tokens (src : List Char) : List Tok × Option ScanError :=
  match _h : symbol src with
  | .error e => ([], some e)
  | .ok none => ([], none)
  | .ok (some (tok, rest)) => (tok :: (tokens rest).1, (tokens rest).2)
termination_by src.length
decreasing_by
  all_goals exact length_symbol ‹_›

end Token

end Athena.Idl
