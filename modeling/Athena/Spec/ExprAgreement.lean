import Athena.Spec.ExprTrees

/-!
# Where the two texts of an expression agree

`Parser` and `ParserLua` write the same operators and operands (`Writes`), so that C++ and Lua
read the same lexemes if all operands are operands there.  The trees are the same exactly if no
operators that see each other differ in the two tables (`Differ`): the bit operators beside a
comparison, an equality before another comparison, and `^` beside nearly everything.
-/

namespace Athena.Idl

open Precedence Token

/-! ## Operands -/

namespace Operand

/-- An operand is a token of a text. -/
def Scanned : Operand → Prop
  | var name _ => (Tok.VAR name).Scanned
  | num text => (Tok.NUM text).Scanned
  | decimals text => (Tok.DECIMALS text).Scanned

/-- The characters of names and numbers belong to words. -/
theorem charClass_word {c : Char} (h : (isVarChar c || c == '.') = true) : charClass c = .word :=
  if_pos h

/-- A scanned operand is one word, -/
theorem Scanned.isWord {x : Operand} (h : x.Scanned) : IsWord x.name.toList := by
  cases x with
  | var name member =>
    obtain ⟨⟨c, cs, hname, -⟩, hall, -⟩ := h
    refine ⟨fun heq => (nomatch hname.symm.trans heq), fun d hd => charClass_word ?_⟩
    rw [List.all_eq_true.mp hall d hd]
    rfl
  | num text =>
    refine ⟨h.1, fun d hd => charClass_word ?_⟩
    rw [isVarChar, List.all_eq_true.mp h.2 d hd]
    simp
  | decimals text =>
    obtain ⟨⟨c, cs, htext, -⟩, hall, -⟩ := h
    refine ⟨fun heq => (nomatch htext.symm.trans heq), fun d hd => charClass_word ?_⟩
    -- digits, and the point between them
    have hnum := List.all_eq_true.mp hall d hd
    rw [isNumChar, Bool.or_eq_true] at hnum
    cases hnum with
    | inl hnum => rw [isVarChar, hnum]; simp
    | inr hpoint => rw [hpoint, Bool.or_true]

/-- also with the `self.` that Lua writes before a member. -/
theorem Scanned.isWord_self {x : Operand} (h : x.Scanned) :
    IsWord (ParserLua.getExpreVar x).toList := by
  have hword := h.isWord
  have hself : ∀ c ∈ "self.".toList, charClass c = .word := charClass_of_all (by decide)
  fun_cases ParserLua.getExpreVar x with
  | case1 name =>
    rw [String.toList_append]
    refine ⟨fun heq => (nomatch (List.append_eq_nil_iff.mp heq).1), fun c hc => ?_⟩
    exact (List.mem_append.mp hc).elim (hself c) (hword.2 c)
  | case2 x => exact hword

end Operand

/-- An operand is a token that was scanned. -/
theorem operand_scanned {gVars : Vars} {tok : Tok} {x : Operand} (htok : tok.Scanned)
    (h : Parser.operand gVars tok = some x) : x.Scanned := by
  unfold Parser.operand at h
  split at h
  case h_4 => exact nomatch h
  all_goals
    rw [← Option.some.inj h]
    exact htok

/-- So are the operands behind an operator, -/
theorem expreRest_scanned {gVars : Vars} {toks rest : List Tok} {ps : List (Oper × Operand)}
    (htoks : ∀ tok ∈ toks, tok.Scanned) (h : Parser.expreRest gVars toks = some (ps, rest)) :
    ∀ p ∈ ps, p.2.Scanned := by
  fun_induction Parser.expreRest gVars toks generalizing ps rest with
  | case1 =>
    rw [← (Prod.mk.inj (Option.some.inj h)).1]
    exact fun p hp => (nomatch hp)
  | case2 =>
    rw [← (Prod.mk.inj (Option.some.inj h)).1]
    exact fun p hp => (nomatch hp)
  | case3 => exact nomatch h
  | case4 =>
    rw [← (Prod.mk.inj (Option.some.inj h)).1]
    exact fun p hp => (nomatch hp)
  -- an operator and an operand, with the rest behind them
  | case5 tok tok' toks op hop ih =>
    obtain ⟨x, hx, h⟩ := Option.bind_eq_some_iff.mp h
    obtain ⟨⟨ps', rest'⟩, hrest, h⟩ := Option.bind_eq_some_iff.mp h
    have htok' : tok'.Scanned := htoks tok' (by simp)
    rw [← (Prod.mk.inj (Option.some.inj h)).1]
    refine List.forall_mem_cons.mpr ⟨operand_scanned htok' hx, ih (fun t ht => ?_) hrest⟩
    exact htoks t (List.mem_cons_of_mem _ (List.mem_cons_of_mem _ ht))

/-- and all operands of an expression. -/
theorem expre_scanned {gVars : Vars} {toks rest : List Tok} {e : Expr}
    (htoks : ∀ tok ∈ toks, tok.Scanned) (h : Parser.expre gVars toks = some (e, rest)) :
    ∀ x ∈ e.operands, x.Scanned := by
  unfold Parser.expre at h
  split at h
  rename_i neg toks' hneg
  -- a leading minus is no operand
  have htoks' : ∀ tok ∈ toks', tok.Scanned := by
    split at hneg
    · obtain ⟨-, rfl⟩ := Prod.mk.inj hneg
      exact fun tok htok => htoks tok (List.mem_cons_of_mem _ htok)
    · obtain ⟨-, rfl⟩ := Prod.mk.inj hneg
      exact htoks
  obtain ⟨tok, htok, h⟩ := Option.bind_eq_some_iff.mp h
  obtain ⟨first, hfirst, h⟩ := Option.bind_eq_some_iff.mp h
  obtain ⟨⟨ps, rest'⟩, hrest, h⟩ := Option.bind_eq_some_iff.mp h
  rw [← (Prod.mk.inj (Option.some.inj h)).1]
  refine List.forall_mem_cons.mpr
    ⟨operand_scanned (htoks' tok (List.mem_of_head? htok)) hfirst, fun x hx => ?_⟩
  obtain ⟨p, hp, rfl⟩ := List.mem_map.mp hx
  exact expreRest_scanned (fun t ht => htoks' t (List.mem_of_mem_tail ht)) hrest p hp

/-! ## Lexemes of a text -/

/-- `getOperStr` and `getExpreVar` write what `L` reads. -/
structure Writes (L : Language) (getOperStr : Oper → String) (getExpreVar : Operand → String)
    (operWord : Oper → List Char) : Prop where
  minus : L.table.minus = .Sub
  spelled : ∀ op, Spelled (getOperStr op).toList (operWord op)
  oper : ∀ op, L.lexeme (operWord op) = some (.op op)
  /-- only the sign is an operator that can stand before an operand -/
  sign : ∀ word, L.oper word = some .Sub → word = ['-']
  sign_oper : L.lexeme ['-'] = some (.op .Sub)
  isWord : ∀ x : Operand, x.Scanned → IsWord (getExpreVar x).toList

section

variable {L : Language} {getOperStr : Oper → String} {getExpreVar : Operand → String}
  {operWord : Oper → List Char}

/-- The words that the loop of `expre` appends. -/
def restWords (operWord : Oper → List Char) (getExpreVar : Operand → String) :
    List (Oper × Operand) → List (List Char)
  | [] => []
  | (op, x) :: rest =>
    operWord op :: (getExpreVar x).toList :: restWords operWord getExpreVar rest

/-- The words of an expression. -/
def Expr.words (operWord : Oper → List Char) (getExpreVar : Operand → String) (e : Expr) :
    List (List Char) :=
  (if e.neg then [['-']] else []) ++
    (getExpreVar e.first).toList :: restWords operWord getExpreVar e.rest

/-- The first operand ends where the operators behind it begin. -/
theorem Writes.apart_rest (hL : Writes L getOperStr getExpreVar operWord)
    (rest : List (Oper × Operand)) : Apart (restText getOperStr getExpreVar rest).toList := by
  cases rest with
  | nil => exact fun c hc => (nomatch hc)
  | cons p rest =>
    obtain ⟨op, x⟩ := p
    rw [restText, String.toList_append]
    exact (hL.spelled op).apart _

/-- The words of an operand and of what follows it. -/
theorem Writes.words_rest (hL : Writes L getOperStr getExpreVar operWord) {x : Operand}
    {rest : List (Oper × Operand)} (hx : x.Scanned) (hrest : ∀ p ∈ rest, p.2.Scanned) :
    words ((getExpreVar x).toList ++ (restText getOperStr getExpreVar rest).toList) =
      (getExpreVar x).toList :: restWords operWord getExpreVar rest := by
  induction rest generalizing x with
  | nil => exact (hL.isWord x hx).words (hL.apart_rest [])
  | cons p rest ih =>
    obtain ⟨op, y⟩ := p
    have hy : y.Scanned := hrest (op, y) List.mem_cons_self
    rw [(hL.isWord x hx).words (hL.apart_rest _), restText, String.toList_append,
      String.toList_append, (hL.spelled op).words (hL.isWord y hy),
      ih hy fun p hp => hrest p (List.mem_cons_of_mem _ hp)]
    rfl

/-- The words of the text are those of the expression. -/
theorem Writes.words_text (hL : Writes L getOperStr getExpreVar operWord) {e : Expr}
    (he : ∀ x ∈ e.operands, x.Scanned) :
    words (e.text getOperStr getExpreVar).toList = e.words operWord getExpreVar := by
  have hfirst : e.first.Scanned := he _ List.mem_cons_self
  have hrest : ∀ p ∈ e.rest, p.2.Scanned := fun p hp =>
    he p.2 (List.mem_cons_of_mem _ (List.mem_map_of_mem hp))
  have hwords := hL.words_rest hfirst hrest
  rw [Expr.text, Expr.words, String.toList_append, String.toList_append]
  cases e.neg with
  | false => exact hwords
  | true =>
    have hminus : Spelled "-".toList ['-'] :=
      .inl ⟨rfl, by decide, charClass_of_all (by decide)⟩
    have hsign := @Spelled.words _ _ hminus _ (restText getOperStr getExpreVar e.rest).toList
      (hL.isWord _ hfirst)
    exact hsign.trans (congrArg _ hwords)

/-- The lexemes of some words begin with that of the first one. -/
theorem mapM_cons_eq_some {α β : Type} {f : α → Option β} {x : α} {xs : List α} {ys : List β} :
    (x :: xs).mapM f = some ys ↔ ∃ y zs, f x = some y ∧ xs.mapM f = some zs ∧ y :: zs = ys := by
  simp [List.mapM_cons, Option.bind_eq_some_iff]

/-- A word that is an operand is read as one, -/
theorem Language.lexeme_of_operand {word : List Char} (h : L.operand word = true) :
    L.lexeme word = some (.operand (.ofList word)) := if_pos h

/-- and any other as an operator. -/
theorem Language.lexeme_of_not {word : List Char} (h : L.operand word = false) :
    L.lexeme word = (L.oper word).map .op := if_neg (Bool.eq_false_iff.mp h)

/-- If all operands are operands in the language, the words are the lexemes. -/
theorem Writes.mapM_rest (hL : Writes L getOperStr getExpreVar operWord)
    {rest : List (Oper × Operand)}
    (hrest : ∀ p ∈ rest, L.operand (getExpreVar p.2).toList = true) :
    (restWords operWord getExpreVar rest).mapM L.lexeme =
      some ((Table.chain rest).map (Lexeme.map getExpreVar)) := by
  induction rest with
  | nil => rfl
  | cons p rest ih =>
    obtain ⟨op, x⟩ := p
    have hx := Language.lexeme_of_operand (hrest (op, x) List.mem_cons_self)
    rw [String.ofList_toList] at hx
    exact mapM_cons_eq_some.mpr ⟨_, _, hL.oper op, mapM_cons_eq_some.mpr ⟨_, _, hx,
      ih fun p hp => hrest p (List.mem_cons_of_mem _ hp), rfl⟩, rfl⟩

/-- Nothing but an operand can stand where an operand belongs. -/
theorem Writes.operand_of_run_cons (hL : Writes L getOperStr getExpreVar operWord)
    {fs : List (Table.Frame String Oper)} {x : Operand} {l : Lexeme String Oper}
    {ls : List (Lexeme String Oper)} {t : Tree String Oper} (hx : x.Scanned)
    (hl : L.lexeme (getExpreVar x).toList = some l) (hrun : L.table.run fs none (l :: ls) = some t) :
    L.operand (getExpreVar x).toList = true := by
  cases hop : L.operand (getExpreVar x).toList with
  | true => rfl
  | false =>
    rw [Language.lexeme_of_not hop] at hl
    obtain ⟨op, hop, rfl⟩ := Option.map_eq_some_iff.mp hl
    rw [Table.run] at hrun
    by_cases hminus : op = L.table.minus
    · -- the sign is no name or number
      rw [hminus, hL.minus] at hop
      have hclass := (hL.isWord x hx).2 '-' (hL.sign _ hop ▸ List.mem_singleton_self '-')
      exact absurd hclass (by decide)
    · rw [if_neg hminus] at hrun
      cases hrun

/-- An expression has operands in all the places where they belong. -/
theorem Writes.operand_of_run (hL : Writes L getOperStr getExpreVar operWord)
    {fs : List (Table.Frame String Oper)} {x : Operand} {rest : List (Oper × Operand)}
    {ls : List (Lexeme String Oper)} {t : Tree String Oper} (hx : x.Scanned)
    (hrest : ∀ p ∈ rest, p.2.Scanned)
    (hls : ((getExpreVar x).toList :: restWords operWord getExpreVar rest).mapM L.lexeme = some ls)
    (hrun : L.table.run fs none ls = some t) :
    ∀ y ∈ x :: rest.map Prod.snd, L.operand (getExpreVar y).toList = true := by
  -- by induction on the operands that follow
  induction rest generalizing fs x ls with
  | nil =>
    obtain ⟨l, ls, hl, -, rfl⟩ := mapM_cons_eq_some.mp hls
    exact List.forall_mem_singleton.mpr (hL.operand_of_run_cons hx hl hrun)
  | cons p rest ih =>
    obtain ⟨op, y⟩ := p
    obtain ⟨l, lrest, hl, hlrest, rfl⟩ := mapM_cons_eq_some.mp hls
    have hxop := hL.operand_of_run_cons hx hl hrun
    refine List.forall_mem_cons.mpr ⟨hxop, ?_⟩
    obtain rfl := Option.some.inj ((Language.lexeme_of_operand hxop).symm.trans hl)
    obtain ⟨lop, ls, hlop, htail, rfl⟩ := mapM_cons_eq_some.mp hlrest
    obtain rfl := Option.some.inj ((hL.oper op).symm.trans hlop)
    -- the parser has read the operand and its operator
    rw [Table.run, Table.run] at hrun
    exact ih (hrest (op, y) List.mem_cons_self) (fun p hp => hrest p (List.mem_cons_of_mem _ hp))
      htail hrun

/-- What a text means: the table decides if all operands are operands in the language, and
nothing otherwise. -/
theorem Writes.tree_text (hL : Writes L getOperStr getExpreVar operWord) {e : Expr}
    (he : ∀ x ∈ e.operands, x.Scanned) (t : Tree String Oper) :
    L.tree (e.text getOperStr getExpreVar) = some t ↔
      (∀ x ∈ e.operands, L.operand (getExpreVar x).toList = true) ∧
      L.table.parse (e.lexemes.map (Lexeme.map getExpreVar)) = some t := by
  have hfirst : e.first.Scanned := he _ List.mem_cons_self
  have hrest : ∀ p ∈ e.rest, p.2.Scanned := fun p hp =>
    he p.2 (List.mem_cons_of_mem _ (List.mem_map_of_mem hp))
  -- where the operands are legal, the words are the lexemes in the names of the language
  have hvalid (hop : ∀ x ∈ e.operands, L.operand (getExpreVar x).toList = true) :
      ((getExpreVar e.first).toList :: restWords operWord getExpreVar e.rest).mapM L.lexeme =
        some ((.operand e.first :: Table.chain e.rest).map (Lexeme.map getExpreVar)) := by
    have hx := Language.lexeme_of_operand (hop _ List.mem_cons_self)
    rw [String.ofList_toList] at hx
    exact mapM_cons_eq_some.mpr ⟨_, _, hx, hL.mapM_rest fun p hp =>
      hop p.2 (List.mem_cons_of_mem _ (List.mem_map_of_mem hp)), rfl⟩
  rw [Language.tree, hL.words_text he, Option.bind_eq_some_iff, Expr.words, Expr.lexemes]
  cases e.neg with
  | false =>
    constructor
    · intro h
      obtain ⟨ls, hls, hparse⟩ := h
      have hop := hL.operand_of_run hfirst hrest hls hparse
      refine ⟨hop, ?_⟩
      obtain rfl := Option.some.inj ((hvalid hop).symm.trans hls)
      exact hparse
    · intro h
      obtain ⟨hop, hparse⟩ := h
      exact ⟨_, hvalid hop, hparse⟩
  -- the sign is the first word
  | true =>
    constructor
    · intro h
      obtain ⟨ls, hls, hparse⟩ := h
      obtain ⟨l, ls, hl, hrest', rfl⟩ := mapM_cons_eq_some.mp hls
      obtain rfl := Option.some.inj (hL.sign_oper.symm.trans hl)
      have hrun := hparse
      rw [Table.parse, Table.run, if_pos hL.minus.symm] at hrun
      have hop := hL.operand_of_run hfirst hrest hrest' hrun
      refine ⟨hop, ?_⟩
      obtain rfl := Option.some.inj ((hvalid hop).symm.trans hrest')
      exact hparse
    · intro h
      obtain ⟨hop, hparse⟩ := h
      exact ⟨_, mapM_cons_eq_some.mpr ⟨_, _, hL.sign_oper, hvalid hop, rfl⟩, hparse⟩

end

/-! ## The two writers -/

/-- How ParserLua's operators read. -/
def luaWord : Oper → List Char
  | .AND => "and".toList
  | .OR => "or".toList
  | op => (ParserLua.getOperStr op).toList

/-- C++ reads only the minus as one. -/
theorem cppOper_sub {word : List Char} (h : cppOper word = some .Sub) : word = ['-'] := by
  unfold cppOper at h
  split at h
  case h_2 => rfl
  all_goals exact nomatch h

/-- So does Lua. -/
theorem luaOper_sub {word : List Char} (h : luaOper word = some .Sub) : word = ['-'] := by
  unfold luaOper at h
  split at h
  case h_7 => exact cppOper_sub h
  all_goals exact nomatch h

/-- `Parser` writes what C++ reads. -/
theorem cpp_writes : Writes cpp Parser.getOperStr Parser.getExpreVar
    fun op => (Parser.getOperStr op).toList where
  minus := rfl
  spelled op := by
    refine .inl ⟨rfl, ?_, charClass_of_all ?_⟩
    · cases op <;> decide
    · cases op <;> decide
  oper op := by cases op <;> rfl
  sign _ := cppOper_sub
  sign_oper := rfl
  isWord _ hx := hx.isWord

/-- `ParserLua` writes what Lua reads. -/
theorem lua_writes : Writes lua ParserLua.getOperStr ParserLua.getExpreVar luaWord where
  minus := rfl
  spelled op := by
    cases op with
    | AND => exact .inr ⟨rfl, by decide, charClass_of_all (by decide)⟩
    | OR => exact .inr ⟨rfl, by decide, charClass_of_all (by decide)⟩
    | _ => exact .inl ⟨rfl, by decide, charClass_of_all (by decide)⟩
  oper op := by cases op <;> rfl
  sign _ := luaOper_sub
  sign_oper := rfl
  isWord _ hx := hx.isWord_self

/-! ## The two trees -/

/-- There is one tree that C++ reads and Lua reads, but for the names of its operators and
members. -/
def SameTree (e : Expr) : Prop :=
  ∃ t : Tree Operand Oper, cpp.tree e.cppText = some (t.map Parser.getExpreVar) ∧
    lua.tree e.luaText = some (t.map ParserLua.getExpreVar)

/-- The operand is one in both languages. -/
def Operand.Valid (x : Operand) : Prop :=
  cppOperand (Parser.getExpreVar x).toList = true ∧ luaOperand (ParserLua.getExpreVar x).toList = true

/-- Operators that ask for equality. -/
def Oper.isEquality (op : Oper) : Bool := [.EQ, .NE].contains op

/-- Operators that ask for an order. -/
def Oper.isOrder (op : Oper) : Bool := [.LT, .GT, .LE, .GE].contains op

/-- The two operators stand in another order in the other table; the earlier one is `none` if it
is the leading minus. -/
def Differ : Option Oper → Oper → Bool
  | none, b => b == .Pow
  | some .Pow, b => !([.Bor, .AND, .OR].contains b)
  | some a, .Pow => !([.Bor, .AND, .OR].contains a)
  | some a, b =>
    ((a.isEquality || a.isOrder) && [.Band, .Bor].contains b) ||
      ([.Band, .Bor].contains a && (b.isEquality || b.isOrder)) || (a.isEquality && b.isOrder)

/-- `Differ` finds the operators that stand in another order in the other table. -/
theorem differ_iff (a : Option Oper) (b : Oper) : Differ a b = false ↔
    (cppTable.power a < cppTable.left b ↔ luaTable.power a < luaTable.left b) := by
  cases a with
  | none => cases b <;> decide
  | some a => cases a <;> cases b <;> decide

/-- All operators of C++ are left-associative here. -/
theorem cpp_leftAssoc : cppTable.LeftAssoc where
  right_eq _ := rfl
  pre_lt op := by cases op <;> decide

/-- The operators of a text do not depend on its operands. -/
theorem operators_map {α β : Type} (f : α → β) (operand : Bool) (ls : List (Lexeme α Oper)) :
    Table.operators operand (ls.map (Lexeme.map f)) = Table.operators operand ls := by
  induction ls generalizing operand with
  | nil => rfl
  | cons l ls ih =>
    cases l with
    | operand x => cases operand <;> exact ih false
    | op o => cases operand <;> exact congrArg _ (ih true)

/-- The operators of a chain, in their order. -/
theorem operators_chain (rest : List (Oper × Operand)) :
    Table.operators false (Table.chain rest) = rest.map fun p => some p.1 := by
  induction rest with
  | nil => rfl
  | cons p rest ih => exact congrArg _ ih

/-- The operators of an expression, with its sign. -/
theorem Expr.operators_lexemes (e : Expr) : Table.operators true e.lexemes = e.ops := by
  rw [Expr.lexemes, Expr.ops]
  cases e.neg with
  | false => exact operators_chain e.rest
  | true => exact congrArg _ (operators_chain e.rest)

/-- The operators of a tree that a table makes of the expression. -/
theorem Expr.ops_of_lexemes {P : Table Oper} {e : Expr} {f : Operand → String}
    {t : Tree Operand Oper} (h : P.lexemes (t.map f) = e.lexemes.map (Lexeme.map f)) :
    t.ops = e.ops := by
  rw [Table.lexemes_map] at h
  rw [Table.ops_eq_operators (P := P), ← operators_map f, h, operators_map, e.operators_lexemes]

/-- Every expression has a tree in C++. -/
theorem Expr.exists_tree (e : Expr) : ∃ t : Tree Operand Oper,
    cppTable.WellFormed t ∧ cppTable.lexemes t = e.lexemes := by
  have hparse : ∃ t, cppTable.parse e.lexemes = some t := by
    rw [Expr.lexemes]
    cases e.neg with
    | false => exact Table.parse_chain e.first e.rest
    | true => exact Table.parse_neg_chain e.first e.rest
  obtain ⟨t, ht⟩ := hparse
  exact ⟨t, (Table.parse_eq_some_iff _ t).mp ht⟩

/-- The lexemes of a tree do not depend on the binding powers. -/
theorem lexemes_lua (t : Tree Operand Oper) : luaTable.lexemes t = cppTable.lexemes t := by
  induction t with
  | leaf x => rfl
  | neg t ih => exact congrArg _ ih
  | bin l o r ihl ihr => rw [Table.lexemes, ihl, ihr, Table.lexemes]

/-- The operands are operands in both languages, and operators that see each other stand in the
same order in both tables. -/
structure Portable (e : Expr) : Prop where
  operands : ∀ x ∈ e.operands, x.Valid
  ops : ∀ i j a b, cppTable.Sees e.ops i j a b → Differ a b = false

/-- Both languages read one tree exactly if the operands and the operators agree in both. -/
theorem sameTree_iff {e : Expr} (he : ∀ x ∈ e.operands, x.Scanned) :
    SameTree e ↔ Portable e := by
  have hcpp := cpp_writes.tree_text he
  have hlua := lua_writes.tree_text he
  constructor
  · intro ⟨t, htcpp, htlua⟩
    obtain ⟨hopcpp, hparse⟩ := (hcpp _).mp htcpp
    obtain ⟨hoplua, hparse'⟩ := (hlua _).mp htlua
    obtain ⟨hwf, hlexemes⟩ := (Table.parse_eq_some_iff _ _).mp hparse
    obtain ⟨hwf', -⟩ := (Table.parse_eq_some_iff _ _).mp hparse'
    rw [Table.wellFormed_map] at hwf hwf'
    -- one tree under both tables: no two operators that see each other differ
    have hagree := (cpp_leftAssoc.wellFormed_iff hwf).mp hwf'
    rw [Expr.ops_of_lexemes hlexemes] at hagree
    exact ⟨fun x hx => ⟨hopcpp x hx, hoplua x hx⟩, fun i j a b hsees =>
      (differ_iff a b).mpr (hagree i j a b hsees)⟩
  · intro h
    -- the tree of C++ is that of Lua too
    obtain ⟨t, hwf, hlexemes⟩ := e.exists_tree
    have hops : t.ops = e.ops := by
      rw [Table.ops_eq_operators (P := cppTable), hlexemes, e.operators_lexemes]
    have hwf' : luaTable.WellFormed t := by
      refine (cpp_leftAssoc.wellFormed_iff hwf).mpr fun i j a b hsees => ?_
      rw [hops] at hsees
      exact (differ_iff a b).mp (h.ops i j a b hsees)
    refine ⟨t, (hcpp _).mpr ⟨fun x hx => (h.operands x hx).1, ?_⟩,
      (hlua _).mpr ⟨fun x hx => (h.operands x hx).2, ?_⟩⟩
    · refine (Table.parse_eq_some_iff _ _).mpr ⟨(Table.wellFormed_map _ t).mpr hwf, ?_⟩
      rw [Table.lexemes_map]
      exact congrArg _ hlexemes
    · refine (Table.parse_eq_some_iff _ _).mpr ⟨(Table.wellFormed_map _ t).mpr hwf', ?_⟩
      rw [Table.lexemes_map]
      exact congrArg _ ((lexemes_lua t).trans hlexemes)

/-- The two texts of an expression that stands in a source have the same tree exactly if it is
portable. -/
theorem same_tree_iff_portable (gVars : Vars) (src : List Char) (toks rest : List Tok) (e : Expr)
    (htoks : toks <:+ (tokens src).1) (hexpre : Parser.expre gVars toks = some (e, rest)) :
    SameTree e ↔ Portable e :=
  sameTree_iff (expre_scanned (fun tok htok => tokens_scanned src tok (htoks.subset htok)) hexpre)

/-- `-a && b` with a member `a`. -/
theorem same_tree_and : SameTree ⟨true, .var "a" true, [(.AND, .var "b" false)]⟩ := by
  let int32 : TypeInfo := { vector := false, value := .base .INT32, name := "int32", vec_name := "" }
  have htoks : [.sym '-', .VAR "a", .AND, .VAR "b"] <:+ (tokens "-a && b".toList).1 := by
    decide +kernel
  have ha : (Operand.var "a" true).Valid := ⟨rfl, rfl⟩
  have hb : (Operand.var "b" false).Valid := ⟨rfl, rfl⟩
  refine (same_tree_iff_portable [("a", int32)] "-a && b".toList _ [] _ htoks rfl).mpr
    ⟨?_, fun i j a b hsees => ?_⟩
  · exact List.forall_mem_cons.mpr ⟨ha, List.forall_mem_singleton.mpr hb⟩
  · -- the minus is the first operator, and `&&` the other
    obtain ⟨hij, ha, hb, -⟩ := hsees
    match i, j with
    | 0, 1 =>
      obtain rfl := Option.some.inj ha
      obtain rfl := Option.some.inj (Option.some.inj hb)
      rfl
    | i, 0 => omega
    | i + 1, 1 => omega
    | i, j + 2 => exact nomatch hb

/-- C++ reads `a & 1 == 0` as `a & (1 == 0)`, and Lua as `(a & 1) == 0`. -/
theorem bit_test : ¬ ∀ (gVars : Vars) (src : List Char) (toks rest : List Tok) (e : Expr),
    toks <:+ (tokens src).1 → Parser.expre gVars toks = some (e, rest) → SameTree e := by
  intro h
  let src := "struct s { int32 a int32 b = a & 1 == 0 }".toList
  have htoks : [.VAR "a", .sym '&', .NUM "1", .EQ, .NUM "0", .sym '}'] <:+ (tokens src).1 := by
    decide +kernel
  let int32 : TypeInfo := { vector := false, value := .base .INT32, name := "int32", vec_name := "" }
  have hexpre : Parser.expre [("b", int32), ("a", int32)]
      [.VAR "a", .sym '&', .NUM "1", .EQ, .NUM "0", .sym '}'] =
        some (⟨false, .var "a" true, [(.Band, .num "1"), (.EQ, .num "0")]⟩, [.sym '}']) := rfl
  have hscanned := expre_scanned
    (fun tok htok => tokens_scanned src tok (htoks.subset htok)) hexpre
  have hportable := (sameTree_iff hscanned).mp (h _ src _ _ _ htoks hexpre)
  -- nothing stands between the two operators
  have hsees : cppTable.Sees [some .Band, some .EQ] 0 1 (some .Band) .EQ :=
    ⟨Nat.one_pos, rfl, rfl, fun k m hk hk' _ => absurd hk' (by omega)⟩
  exact nomatch hportable.ops 0 1 _ _ hsees

end Athena.Idl
