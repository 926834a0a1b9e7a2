import Athena.Native.Token

/-!
# The tokens that the scanner makes

A name is a letter and name characters, and is no keyword; a number is digits, with points in
it if it is a decimal.  A name stands in the text as it is.
-/

namespace Athena.Idl

open FBuffer Token

namespace Tok

/-- A token with the text that `Token` gives it. -/
def Scanned : Tok → Prop
  | .VAR name => (∃ c cs, name.toList = c :: cs ∧ isLetter c) ∧ name.toList.all isVarChar ∧
      getKeyword name = none
  | .NUM text => text.toList ≠ [] ∧ text.toList.all isNum
  | .DECIMALS text => (∃ c cs, text.toList = c :: cs ∧ isNum c) ∧ text.toList.all isNumChar ∧
      '.' ∈ text.toList
  | _ => True

end Tok

/-- A keyword has no text to speak of. -/
theorem getKeyword_scanned {name : String} {tok : Tok} (h : getKeyword name = some tok) :
    tok.Scanned := by
  unfold getKeyword at h
  split at h
  case h_20 => exact nomatch h
  all_goals
    rw [← Option.some.inj h]
    exact trivial

/-- A letter begins a name or a keyword. -/
theorem readVar_scanned {c : Char} (src : List Char) (hc : isLetter c = true) :
    (readVar (c :: src)).1.Scanned := by
  have hvar : isVarChar c = true := by rw [isVarChar, hc, Bool.true_or, Bool.true_or]
  rw [readVar]
  dsimp only
  cases hkey : getKeyword (.ofList ((c :: src).takeWhile isVarChar)) with
  | some tok => exact getKeyword_scanned hkey
  | none =>
    refine ⟨⟨c, src.takeWhile isVarChar, ?_, hc⟩, ?_, hkey⟩
    · rw [String.toList_ofList, List.takeWhile_cons_of_pos hvar]
    · rw [String.toList_ofList]
      exact List.all_takeWhile

/-- A digit begins a number. -/
theorem readNum_scanned {c : Char} (src : List Char) (hc : isNum c = true) :
    (readNum (c :: src)).1.Scanned := by
  have hnum : isNumChar c = true := by rw [isNumChar, hc, Bool.true_or]
  have hdigits : (c :: src).takeWhile isNumChar = c :: src.takeWhile isNumChar :=
    List.takeWhile_cons_of_pos hnum
  have hall : ((c :: src).takeWhile isNumChar).all isNumChar = true := List.all_takeWhile
  rw [readNum]
  dsimp only
  -- a decimal if there is a point
  by_cases hpoint : ((c :: src).takeWhile isNumChar).contains '.' = true
  · rw [if_pos hpoint]
    refine ⟨⟨c, src.takeWhile isNumChar, ?_, hc⟩, ?_, ?_⟩
    · rw [String.toList_ofList, hdigits]
    · rwa [String.toList_ofList]
    · rw [String.toList_ofList]
      exact List.contains_iff_mem.mp hpoint
  · rw [if_neg hpoint]
    refine ⟨?_, ?_⟩
    · rw [String.toList_ofList, hdigits]
      exact List.cons_ne_nil _ _
    · rw [String.toList_ofList, List.all_eq_true]
      intro d hd
      have hd' := List.all_eq_true.mp hall d hd
      have hne : d ≠ '.' := fun heq => hpoint (List.contains_iff_mem.mpr (heq ▸ hd))
      rwa [isNumChar, beq_eq_false_iff_ne.mpr hne, Bool.or_false] at hd'

/-- An operator of one sign or two. -/
theorem checkNext_scanned {c : Char} (tok : Tok) {other : List Char → Tok × List Char}
    (htok : tok.Scanned) (hother : ∀ src, (other src).1.Scanned) (src : List Char) :
    (checkNext c tok other src).1.Scanned := by
  cases src with
  | nil => exact hother []
  | cons c' src =>
    rw [checkNext]
    split
    · exact htok
    · exact hother (c' :: src)

/-- Whatever a token begins with, its text is right. -/
theorem readToken_scanned (c : Char) (src : List Char) : (readToken c src).1.Scanned := by
  have hone (c : Char) (src : List Char) : (oneChar c src).1.Scanned := trivial
  fun_cases readToken c src with
  | case1 => exact checkNext_scanned .EQ trivial (hone '=') src
  | case2 => exact checkNext_scanned .NE trivial (hone '!') src
  | case3 => exact checkNext_scanned .AND trivial (hone '&') src
  | case4 => exact checkNext_scanned .OR trivial (hone '|') src
  | case5 => exact checkNext_scanned .LE trivial (checkNext_scanned .SHL trivial (hone '<')) src
  | case6 => exact checkNext_scanned .GE trivial (checkNext_scanned .SHR trivial (hone '>')) src
  | case7 => exact readNum_scanned src ‹_›
  | case8 => exact readVar_scanned src ‹_›
  | case9 => exact hone c src

/-- What the scanner returns has the text it should have. -/
theorem symbol_scanned {src rest : List Char} {tok : Tok}
    (h : symbol src = .ok (some (tok, rest))) : tok.Scanned := by
  fun_induction symbol src with
  | case1 => cases h
  | case2 => cases h
  | case3 c src hnul hline ih => exact ih h
  | case4 c src hnul hline hblank ih => exact ih h
  | case5 =>
    rw [← (Prod.mk.inj (Option.some.inj (Except.ok.inj h))).1]
    exact trivial
  | case6 src hnul hline hblank ih => exact ih h
  | case7 => cases h
  | case8 src rest' hcomment hnul hline hblank hslash ih => exact ih h
  | case9 =>
    rw [← (Prod.mk.inj (Option.some.inj (Except.ok.inj h))).1]
    exact trivial
  | case10 c src =>
    have hscanned := readToken_scanned c src
    rwa [Option.some.inj (Except.ok.inj h)] at hscanned

/-- All tokens of a text. -/
theorem tokens_scanned (src : List Char) : ∀ tok ∈ (tokens src).1, tok.Scanned := by
  fun_induction tokens src with
  | case1 => exact fun tok htok => (nomatch htok)
  | case2 => exact fun tok htok => (nomatch htok)
  | case3 src tok rest hsymbol ih =>
    exact List.forall_mem_cons.mpr ⟨symbol_scanned hsymbol, ih⟩

/-! ## Names stand in the text -/

/-- What is left of a line is left of the text. -/
theorem skipLine_suffix (src : List Char) : skipLine src <:+ src :=
  List.dropWhile_suffix _

/-- What is left behind a line is left of the text. -/
theorem nextline_suffix (c : Char) (src : List Char) : nextline (c :: src) <:+ src := by
  obtain ⟨skipped, heq, -⟩ := nextline_eq_append c src
  rw [List.cons_append] at heq
  exact ⟨skipped, (List.cons.inj heq).2.symm⟩

/-- What is left behind a comment is left of the text. -/
theorem readLongString_suffix {src rest : List Char} (h : readLongString src = .ok rest) :
    rest <:+ src := by
  obtain ⟨body, hbody⟩ := readLongString_eq_append h
  exact ⟨body ++ ['*', '/'], by rw [hbody, List.append_assoc]; rfl⟩

/-- What `symbol` reads is behind a part of the text. -/
theorem symbol_readToken {src rest : List Char} {tok : Tok}
    (h : symbol src = .ok (some (tok, rest))) :
    ∃ c after, c :: after <:+ src ∧ rest <:+ after ∧
      (tok = .sym '/' ∨ (tok, rest) = readToken c after) := by
  fun_induction symbol src with
  | case1 => cases h
  | case2 => cases h
  -- a line end and a blank are passed over
  | case3 c src hnul hline ih =>
    obtain ⟨d, after, hafter, hrest⟩ := ih h
    exact ⟨d, after, (hafter.trans (nextline_suffix c src)).trans (List.suffix_cons c src), hrest⟩
  | case4 c src hnul hline hblank ih =>
    obtain ⟨d, after, hafter, hrest⟩ := ih h
    exact ⟨d, after, hafter.trans (List.suffix_cons c src), hrest⟩
  | case5 =>
    obtain ⟨rfl, rfl⟩ := Prod.mk.inj (Option.some.inj (Except.ok.inj h))
    exact ⟨'/', [], List.suffix_rfl, List.suffix_rfl, .inl rfl⟩
  -- so are the two kinds of comment
  | case6 src hnul hline hblank ih =>
    obtain ⟨d, after, hafter, hrest⟩ := ih h
    refine ⟨d, after, ((hafter.trans (skipLine_suffix src)).trans ?_), hrest⟩
    exact (List.suffix_cons _ src).trans (List.suffix_cons _ _)
  | case7 => cases h
  | case8 src rest' hcomment hnul hline hblank hslash ih =>
    obtain ⟨d, after, hafter, hrest⟩ := ih h
    refine ⟨d, after, ((hafter.trans (readLongString_suffix hcomment)).trans ?_), hrest⟩
    exact (List.suffix_cons _ src).trans (List.suffix_cons _ _)
  | case9 c' src =>
    obtain ⟨rfl, rfl⟩ := Prod.mk.inj (Option.some.inj (Except.ok.inj h))
    exact ⟨'/', c' :: src, List.suffix_rfl, List.suffix_rfl, .inl rfl⟩
  -- any other character starts a token
  | case10 c src =>
    have htok := Option.some.inj (Except.ok.inj h)
    refine ⟨c, src, List.suffix_rfl, ?_, .inr htok.symm⟩
    have hsuffix := readToken_suffix c src
    rwa [htok] at hsuffix

/-- What is left behind a token is left of the text. -/
theorem symbol_suffix {src rest : List Char} {tok : Tok}
    (h : symbol src = .ok (some (tok, rest))) : rest <:+ src := by
  obtain ⟨c, after, hafter, hrest, -⟩ := symbol_readToken h
  exact (hrest.trans (List.suffix_cons c after)).trans hafter

/-- An operator is no name. -/
theorem checkNext_not_var {c : Char} {tok : Tok} {other : List Char → Tok × List Char}
    {name : String} (htok : tok ≠ .VAR name) (hother : ∀ src, (other src).1 ≠ .VAR name)
    (src : List Char) : (checkNext c tok other src).1 ≠ .VAR name := by
  cases src with
  | nil => exact hother []
  | cons c' src =>
    rw [checkNext]
    split
    · exact htok
    · exact hother (c' :: src)

/-- A keyword is no name. -/
theorem getKeyword_not_var (key name : String) : getKeyword key ≠ some (.VAR name) := by
  intro h
  unfold getKeyword at h
  split at h <;> exact nomatch h

/-- A name stands where it was read. -/
theorem readToken_var {c : Char} {src : List Char} {name : String}
    (h : (readToken c src).1 = .VAR name) : name.toList <:+: c :: src := by
  -- only a word is a name
  have hone (c : Char) (src : List Char) : (oneChar c src).1 ≠ .VAR name := by rintro ⟨⟩
  revert h
  fun_cases readToken c src with
  | case1 => exact fun h => absurd h (checkNext_not_var (by rintro ⟨⟩) (hone '=') src)
  | case2 => exact fun h => absurd h (checkNext_not_var (by rintro ⟨⟩) (hone '!') src)
  | case3 => exact fun h => absurd h (checkNext_not_var (by rintro ⟨⟩) (hone '&') src)
  | case4 => exact fun h => absurd h (checkNext_not_var (by rintro ⟨⟩) (hone '|') src)
  | case5 =>
    have hshift : ∀ src, (checkNext '<' .SHL (oneChar '<') src).1 ≠ .VAR name :=
      checkNext_not_var (by rintro ⟨⟩) (hone '<')
    exact fun h => absurd h (checkNext_not_var (by rintro ⟨⟩) hshift src)
  | case6 =>
    have hshift : ∀ src, (checkNext '>' .SHR (oneChar '>') src).1 ≠ .VAR name :=
      checkNext_not_var (by rintro ⟨⟩) (hone '>')
    exact fun h => absurd h (checkNext_not_var (by rintro ⟨⟩) hshift src)
  | case7 =>
    intro h
    rw [readNum] at h
    dsimp only at h
    split at h <;> cases h
  -- a word that is no keyword is the name, as it stands
  | case8 =>
    intro h
    rw [readVar] at h
    dsimp only at h
    cases hkey : getKeyword (.ofList ((c :: src).takeWhile isVarChar)) with
    | some tok =>
      rw [hkey] at h
      exact absurd (hkey.trans (congrArg some h)) (getKeyword_not_var _ name)
    | none =>
      rw [hkey] at h
      rw [← Tok.VAR.inj h, String.toList_ofList]
      exact (List.takeWhile_prefix _).isInfix
  | case9 => exact fun h => absurd h (hone c src)

/-- A name is a part of the text. -/
theorem symbol_var {src rest : List Char} {name : String}
    (h : symbol src = .ok (some (.VAR name, rest))) : name.toList <:+: src := by
  obtain ⟨c, after, hafter, -, htok | htok⟩ := symbol_readToken h
  · exact nomatch htok
  · exact (readToken_var (congrArg Prod.fst htok.symm)).trans hafter.isInfix

end Athena.Idl
