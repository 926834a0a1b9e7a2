import Athena.ForStd.Precedence
import Athena.Native.CxxMethods
import Athena.Native.ExprText
import Athena.Spec.ScannedTokens

/-!
# Expressions in C++ and in Lua

The text of an expression has no parentheses, so that C++ and Lua each make a tree of it with
their own precedences (`cpp`, `lua`).  The two trees are the same if the languages agree on all
operators that see each other; comparisons, the bit operators and `^` stand in other places in
the table of Lua.
-/

namespace Athena.Idl

open Precedence Token

/-! ## Lexemes -/

/-- Words, blanks and signs. -/
inductive CharClass where
  | word
  | blank
  | symbol
  deriving DecidableEq, Repr

/-- The class of a character. -/
def charClass (c : Char) : CharClass :=
  if isVarChar c || c == '.' then .word else if c == ' ' then .blank else .symbol

/-- The longest runs of characters of one class. -/
def charRuns : List Char → List (List Char)
  | [] => []
  | c :: src =>
    match charRuns src with
    | (d :: run) :: runs =>
      if charClass c = charClass d then (c :: d :: run) :: runs else [c] :: (d :: run) :: runs
    | runs => [c] :: runs

/-- Names, numbers and operators. -/
def words (src : List Char) : List (List Char) :=
  (charRuns src).filter fun run => run.head?.map charClass != some .blank

/-- A language of expressions. -/
structure Language where
  table : Table Oper
  /-- the operator that is written so -/
  oper : List Char → Option Oper
  /-- whether it can be an operand -/
  operand : List Char → Bool

namespace Language

/-- What a word is. -/
def lexeme (L : Language) (word : List Char) : Option (Lexeme String Oper) :=
  if L.operand word then some (.operand (.ofList word)) else (L.oper word).map .op

/-- The expression that a text is. -/
def tree (L : Language) (text : String) : Option (Tree String Oper) :=
  ((words text.toList).mapM L.lexeme).bind L.table.parse

end Language

/-! ## C++ -/

/-- From `||` up to `*`; all are left-associative. -/
def cppLevel : Oper → Nat
  | .OR => 1
  | .AND => 2
  | .Bor => 3
  | .Pow => 4
  | .Band => 5
  | .EQ => 6
  | .NE => 6
  | .LT => 7
  | .GT => 7
  | .LE => 7
  | .GE => 7
  | .SHL => 8
  | .SHR => 8
  | .Add => 9
  | .Sub => 9
  | .Mul => 10
  | .Div => 10
  | .Mod => 10

/-- The operators of C++. -/
def cppTable : Table Oper := { left := cppLevel, right := cppLevel, minus := .Sub, pre := 11 }

/-- The operator that a word is in C++. -/
def cppOper : List Char → Option Oper
  | ['+'] => some .Add
  | ['-'] => some .Sub
  | ['*'] => some .Mul
  | ['%'] => some .Mod
  | ['^'] => some .Pow
  | ['/'] => some .Div
  | ['&'] => some .Band
  | ['|'] => some .Bor
  | ['<'] => some .LT
  | ['>'] => some .GT
  | ['=', '='] => some .EQ
  | ['!', '='] => some .NE
  | ['&', '&'] => some .AND
  | ['|', '|'] => some .OR
  | ['<', '='] => some .LE
  | ['>', '='] => some .GE
  | ['<', '<'] => some .SHL
  | ['>', '>'] => some .SHR
  | _ => none

/-- A number with at most one point, where one that starts with 0 and has none is octal, or a
name. -/
def cppOperand : List Char → Bool
  | [] => false
  | c :: word =>
    if isNum c then
      if (c :: word).contains '.' then (c :: word).count '.' == 1
      else c != '0' || word.all fun d => decide (d ≤ '7')
    else (c :: word).all isVarChar && !cppReserved.contains (.ofList (c :: word))

/-- The expressions of C++. -/
def cpp : Language := { table := cppTable, oper := cppOper, operand := cppOperand }

/-! ## Lua 5.3 -/

/-- How strongly an operator binds on its left. -/
def luaLeft : Oper → Nat
  | .OR => 1
  | .AND => 2
  | .EQ => 3
  | .NE => 3
  | .LT => 3
  | .GT => 3
  | .LE => 3
  | .GE => 3
  | .Bor => 4
  | .Band => 6
  | .SHL => 7
  | .SHR => 7
  | .Add => 10
  | .Sub => 10
  | .Mul => 11
  | .Div => 11
  | .Mod => 11
  | .Pow => 14

/-- `^` is right-associative. -/
def luaRight : Oper → Nat
  | .Pow => 13
  | op => luaLeft op

/-- The operators of Lua. -/
def luaTable : Table Oper := { left := luaLeft, right := luaRight, minus := .Sub, pre := 12 }

/-- The operator that a word is in Lua. -/
def luaOper : List Char → Option Oper
  | ['~', '='] => some .NE
  | ['a', 'n', 'd'] => some .AND
  | ['o', 'r'] => some .OR
  | ['!', '='] => none
  | ['&', '&'] => none
  | ['|', '|'] => none
  | word => cppOper word

/-- The keywords of Lua. -/
def luaReserved : List String :=
  ["and", "break", "do", "else", "elseif", "end", "false", "for", "function", "goto", "if", "in",
    "local", "nil", "not", "or", "repeat", "return", "then", "true", "until", "while"]

/-- The reserved words that are operands. -/
def luaLiterals : List String := ["false", "nil", "true"]

/-- A name that is no reserved word. -/
def luaName (word : List Char) : Bool :=
  word.all isVarChar && !luaReserved.contains (.ofList word)

/-- A number with at most one point, a field of `self` or a name. -/
def luaOperand : List Char → Bool
  | [] => false
  | c :: word =>
    if isNum c then decide ((c :: word).count '.' ≤ 1)
    else if "self.".toList.isPrefixOf (c :: word) then luaName ((c :: word).drop 5)
    else luaName (c :: word) || luaLiterals.contains (.ofList (c :: word))

/-- The expressions of Lua. -/
def lua : Language := { table := luaTable, oper := luaOper, operand := luaOperand }

/-! ## Words of a text -/

/-- A character begins a run. -/
theorem charRuns_cons (d : Char) (src : List Char) :
    ∃ run runs, charRuns (d :: src) = (d :: run) :: runs := by
  rw [charRuns]
  split
  · split
    · exact ⟨_, _, rfl⟩
    · exact ⟨_, _, rfl⟩
  · exact ⟨_, _, rfl⟩

/-- A run ends where the class changes. -/
theorem charRuns_append {k : CharClass} {run rest : List Char} (hne : run ≠ [])
    (hrun : ∀ c ∈ run, charClass c = k) (hrest : ∀ d ∈ rest.head?, charClass d ≠ k) :
    charRuns (run ++ rest) = run :: charRuns rest := by
  induction run with
  | nil => exact absurd rfl hne
  | cons c run ih =>
    have hc : charClass c = k := hrun c List.mem_cons_self
    rw [List.cons_append, charRuns]
    cases run with
    | nil =>
      cases rest with
      | nil => rfl
      | cons d rest =>
        obtain ⟨run', runs, hruns⟩ := charRuns_cons d rest
        rw [List.nil_append, hruns]
        exact if_neg fun heq => hrest d rfl (heq.symm.trans hc)
    | cons c' run =>
      rw [ih (List.cons_ne_nil c' run) fun x hx => hrun x (List.mem_cons_of_mem c hx)]
      exact if_pos (hc.trans (hrun c' (by simp)).symm)

/-- A run that is no blank is a word. -/
theorem words_append {k : CharClass} {run rest : List Char} (hne : run ≠ [])
    (hrun : ∀ c ∈ run, charClass c = k) (hk : k ≠ .blank)
    (hrest : ∀ d ∈ rest.head?, charClass d ≠ k) : words (run ++ rest) = run :: words rest := by
  rw [words, charRuns_append hne hrun hrest, List.filter_cons_of_pos]
  · rfl
  · cases run with
    | nil => exact absurd rfl hne
    | cons c run =>
      rw [List.head?_cons, Option.map_some, hrun c List.mem_cons_self, bne_iff_ne]
      exact fun heq => hk (Option.some.inj heq)

/-- Blanks are no words. -/
theorem words_blank (rest : List Char) : words (' ' :: rest) = words rest := by
  rw [words, charRuns]
  cases rest with
  | nil => rfl
  | cons d rest =>
    obtain ⟨run, runs, hruns⟩ := charRuns_cons d rest
    rw [words, hruns]
    dsimp only
    by_cases hd : charClass ' ' = charClass d
    · -- the run of blanks is left out, with one blank more or less
      rw [if_pos hd, List.filter_cons_of_neg, List.filter_cons_of_neg]
      · rw [List.head?_cons, Option.map_some, ← hd]
        decide
      · rw [List.head?_cons, Option.map_some]
        decide
    · rw [if_neg hd, List.filter_cons_of_neg]
      rw [List.head?_cons, Option.map_some]
      decide

/-! ## The words of an expression -/

namespace Expr

/-- The operands. -/
def operands (e : Expr) : List Operand := e.first :: e.rest.map Prod.snd

/-- The operators; the leading minus is `none`. -/
def ops (e : Expr) : List (Option Oper) :=
  (if e.neg then [none] else []) ++ e.rest.map fun p => some p.1

/-- The operands and operators, in order. -/
def lexemes (e : Expr) : List (Lexeme Operand Oper) :=
  (if e.neg then [Lexeme.op .Sub] else []) ++ Lexeme.operand e.first :: Table.chain e.rest

end Expr

/-- A text that is one word. -/
def IsWord (text : List Char) : Prop := text ≠ [] ∧ ∀ c ∈ text, charClass c = .word

/-- The class of the characters of a text by evaluation. -/
theorem charClass_of_all {text : List Char} {k : CharClass}
    (h : (text.all fun c => charClass c == k) = true) : ∀ c ∈ text, charClass c = k :=
  fun c hc => beq_iff_eq.mp (List.all_eq_true.mp h c hc)

/-- An operator as it stands in a text: alone, or a name between blanks. -/
def Spelled (text word : List Char) : Prop :=
  (text = word ∧ word ≠ [] ∧ ∀ c ∈ word, charClass c = .symbol) ∨
    (text = ' ' :: (word ++ [' ']) ∧ IsWord word)

/-- What a word must not follow directly. -/
def Apart (rest : List Char) : Prop := ∀ c ∈ rest.head?, charClass c ≠ .word

/-- What is spelled keeps apart from a word before it. -/
theorem Spelled.apart {text word : List Char} (h : Spelled text word) (rest : List Char) :
    Apart (text ++ rest) := by
  intro c hc
  obtain ⟨rfl, hne, hsymbol⟩ | ⟨rfl, -⟩ := h
  · cases text with
    | nil => exact absurd rfl hne
    | cons d text =>
      rw [← Option.some.inj hc, hsymbol d List.mem_cons_self]
      decide
  · rw [← Option.some.inj hc]
    decide

/-- A word, and what is apart from it. -/
theorem IsWord.words {word rest : List Char} (h : IsWord word) (hrest : Apart rest) :
    words (word ++ rest) = word :: words rest := words_append h.1 h.2 (by decide) hrest

/-- A spelled word, and the word behind it. -/
theorem Spelled.words {text word : List Char} (h : Spelled text word) {x rest : List Char}
    (hx : IsWord x) : words (text ++ (x ++ rest)) = word :: words (x ++ rest) := by
  obtain ⟨rfl, hne, hsymbol⟩ | ⟨rfl, hword⟩ := h
  · refine words_append hne hsymbol (by decide) fun d hd => ?_
    cases x with
    | nil => exact absurd rfl hx.1
    | cons c x =>
      rw [← Option.some.inj hd, hx.2 c List.mem_cons_self]
      decide
  · rw [List.cons_append, words_blank, List.append_assoc, hword.words, List.singleton_append,
      words_blank]
    intro c hc
    rw [← Option.some.inj hc]
    decide

end Athena.Idl
