import Athena.Native.ParserRun
import Athena.Spec.ScannedTokens
import Mathlib.Data.Set.Finite.Basic
import Mathlib.Data.Finite.Prod
import Mathlib.Data.Fintype.Pi

/-!
# The states of the IDL parser

In every run the names in the tables stand in the files, so that there are only finitely many
tables and ways to begin a parser; and a parser that has met the end of its file stays there.
-/

namespace Athena.Idl.ParserRun

open Token Calls

section

variable (files : List (String × List Char))

/-- The names that stand in the files. -/
def Names : Set String := {name | ∃ file ∈ files, name.toList <:+: file.2}

/-- The tables that are made of these names. -/
def TablesOf : Set Tables :=
  {tables | (∀ name, tables.typedef_ name ≠ none → name ∈ Names files) ∧
    ∀ name, tables.custom_type name = true → name ∈ Names files}

/-- The parsers at the beginning of a file. -/
def Openings : Set Parsing :=
  {p | ∃ file text, files.lookup file = some text ∧ p = .opened file text}

/-- A parser in the middle of a file. -/
structure Parsing.Inv (p : Parsing) : Prop where
  src : ∃ file ∈ files, p.src <:+ file.2
  cur : ∀ name, p.cur = some (.VAR name) → name ∈ Names files
  atEnd : p.cur = none → p.code = [.begin] ∨ symbol p.src = .ok none

end

variable {files : List (String × List Char)}

/-! ## There are finitely many tables -/

/-- There are finitely many names in the files. -/
theorem finite_names : (Names files).Finite := by
  refine ((files.flatMap fun file => file.2.sublists.map String.ofList).finite_toSet).subset ?_
  intro name ⟨file, hfile, hinfix⟩
  refine List.mem_flatMap.mpr ⟨file, hfile, List.mem_map.mpr ⟨name.toList, ?_, ?_⟩⟩
  · exact List.mem_sublists.mpr hinfix.sublist
  · exact String.ofList_toList

/-- There are finitely many tables of these names. -/
theorem finite_tablesOf : (TablesOf files).Finite := by
  have : Finite (Names files) := finite_names
  refine Set.Finite.of_injOn (t := Set.univ)
    (f := fun tables => (fun name : Names files => tables.typedef_ name,
      fun name : Names files => tables.custom_type name)) (fun _ _ => trivial) ?_ Set.finite_univ
  intro t ht t' ht' heq
  obtain ⟨htypedef, hcustom⟩ := Prod.mk.inj heq
  obtain ⟨typedef_, custom_type⟩ := t
  obtain ⟨typedef_', custom_type'⟩ := t'
  have htypes : typedef_ = typedef_' := by
    funext name
    by_cases hname : name ∈ Names files
    · exact congrFun htypedef ⟨name, hname⟩
    · have hnone := not_imp_comm.mp (ht.1 name) hname
      have hnone' := not_imp_comm.mp (ht'.1 name) hname
      exact hnone.trans hnone'.symm
  have hstructs : custom_type = custom_type' := by
    funext name
    by_cases hname : name ∈ Names files
    · exact congrFun hcustom ⟨name, hname⟩
    · have hfalse := Bool.eq_false_iff.mpr (mt (ht.2 name) hname)
      have hfalse' := Bool.eq_false_iff.mpr (mt (ht'.2 name) hname)
      exact hfalse.trans hfalse'.symm
  rw [htypes, hstructs]

/-- A file that is found is one of the files. -/
theorem mem_files {file : String} {text : List Char} (h : files.lookup file = some text) :
    (file, text) ∈ files := by
  obtain ⟨before, after, rfl, -⟩ := List.lookup_eq_some_iff.mp h
  exact List.mem_append_cons_self

/-- There are as many openings as files. -/
theorem finite_openings : (Openings files).Finite := by
  refine ((files.map fun file => Parsing.opened file.1 file.2).finite_toSet).subset ?_
  intro p ⟨file, text, hlookup, hp⟩
  exact List.mem_map.mpr ⟨(file, text), mem_files hlookup, hp.symm⟩

/-! ## The invariant -/

/-- The tables begin without names. -/
theorem init_mem_tablesOf : Tables.init ∈ TablesOf files :=
  ⟨fun _ h => absurd rfl h, fun _ h => (nomatch h)⟩

/-- A typedef enters a name of the files. -/
theorem addTypeInfo_mem_tablesOf {tables : Tables} (h : tables ∈ TablesOf files) {name : String}
    (hname : name ∈ Names files) (vector : Bool) :
    tables.addTypeInfo name vector ∈ TablesOf files := by
  refine ⟨fun key hkey => ?_, h.2⟩
  by_cases heq : key = name
  · exact heq ▸ hname
  · rw [Tables.addTypeInfo] at hkey
    exact h.1 key fun hnone => hkey ((if_neg heq).trans hnone)

/-- A struct enters a name of the files. -/
theorem addStruct_mem_tablesOf {tables : Tables} (h : tables ∈ TablesOf files) {name : String}
    (hname : name ∈ Names files) : tables.addStruct name ∈ TablesOf files := by
  refine ⟨h.1, fun key hkey => ?_⟩
  obtain heq | hstruct := (Bool.or_eq_true_iff).mp hkey
  · exact eq_of_beq heq ▸ hname
  · exact h.2 key hstruct

/-- Only a name that is the token comes into the tables. -/
theorem move_tables {tables : Tables} (h : tables ∈ TablesOf files) (gVars : List String)
    {cur : Option Tok} (hcur : ∀ name, cur = some (.VAR name) → name ∈ Names files)
    (instr : Instr) : (instr.move tables gVars cur).tables ∈ TablesOf files := by
  fun_cases Instr.move tables gVars cur instr
  all_goals first
    | exact h
    | exact addTypeInfo_mem_tablesOf h (hcur _ rfl) _
    | exact addStruct_mem_tablesOf h (hcur _ rfl)

/-- What a step leaves: tables of the files, new parsers at their beginning, and parsers with
the invariant. -/
abbrev Kept (files : List (String × List Char)) : Act Parsing Tables Stop → Prop :=
  Act.All (· ∈ TablesOf files) (· ∈ Openings files) (Parsing.Inv files)

/-- A parser at the beginning of a file has read no name. -/
theorem inv_opened {p : Parsing} (h : p ∈ Openings files) : p.Inv files := by
  obtain ⟨file, text, hlookup, rfl⟩ := h
  exact {
    src := ⟨(file, text), mem_files hlookup, List.suffix_rfl⟩
    cur := nofun
    atEnd := fun _ => .inl rfl }

/-- The next token is read from what is left of the file. -/
theorem nextToken_kept (build : Build) {p : Parsing} {tables : Tables}
    {stay : Act Parsing Tables Stop} (hsrc : ∃ file ∈ files, p.src <:+ file.2)
    (htables : tables ∈ TablesOf files) (hstay : Kept files stay) :
    Kept files (nextToken build p tables stay) := by
  fun_cases nextToken build p tables stay with
  | case1 =>
    rename_i hnone
    exact ⟨htables, hsrc, nofun, fun _ => .inr hnone⟩
  | case2 =>
    rename_i tok src hsome
    obtain ⟨file, hfile, hsuffix⟩ := hsrc
    have hcur : ∀ name, some tok = some (.VAR name) → name ∈ Names files := by
      intro name hname
      rw [Option.some.inj hname] at hsome
      exact ⟨file, hfile, (symbol_var hsome).trans hsuffix.isInfix⟩
    exact ⟨htables, ⟨file, hfile, (symbol_suffix hsome).trans hsuffix⟩, hcur, nofun⟩
  | case3 => trivial
  | case4 => exact hstay
  | case5 => trivial

/-- A parser that has begun and has no token is at the end of its file. -/
theorem Parsing.Inv.symbol_eq {p : Parsing} (hp : p.Inv files) {instr : Instr} {code : List Instr}
    (hcode : p.code = instr :: code) (hinstr : instr ≠ .begin) (hcur : p.cur = none) :
    symbol p.src = .ok none := by
  obtain hbegin | hsymbol := hp.atEnd hcur
  · exact absurd (List.cons.inj (hcode.symm.trans hbegin)).1 hinstr
  · exact hsymbol

/-- The invariant is kept by every step. -/
theorem act_kept (build : Build) (tables : Tables) (p : Parsing) (htables : tables ∈ TablesOf files)
    (hp : p.Inv files) : Kept files (act build files tables p) := by
  fun_cases act build files tables p with
  | case1 => exact htables
  | case2 =>
    rename_i instr code hcode part hloads filename text hlookup
    have hinstr : instr ≠ .begin := by
      rintro rfl
      exact nomatch hloads
    exact ⟨htables, ⟨filename, text, hlookup, rfl⟩, hp.src, hp.cur,
      fun hcur => .inr (hp.symbol_eq hcode hinstr hcur)⟩
  | case3 => trivial
  | case4 => trivial
  | case5 => trivial
  | case6 =>
    rename_i instr code hcode hloads m p' hnext herror
    exact nextToken_kept build hp.src (move_tables htables p.gVars hp.cur instr) ⟨htables, hp⟩
  | case7 =>
    rename_i instr code hcode hloads m p' hnext herror
    have hinstr : instr ≠ .begin := by
      rintro rfl
      exact hnext rfl
    exact ⟨move_tables htables p.gVars hp.cur instr, hp.src, hp.cur,
      fun hcur => .inr (hp.symbol_eq hcode hinstr hcur)⟩

/-- The invariant of a run. -/
def Config.Inv (files : List (String × List Char)) : Config → Prop :=
  Calls.Config.All (· ∈ TablesOf files) (· ∈ Openings files) (Parsing.Inv files)

/-- It holds when the first file is opened. -/
theorem initial_inv {file : String} {text : List Char} (h : files.lookup file = some text) :
    (initial file text).Inv files := by
  have hopening : Parsing.opened file text ∈ Openings files := ⟨file, text, h, rfl⟩
  refine ⟨init_mem_tablesOf, List.forall_mem_singleton.mpr ?_⟩
  exact ⟨hopening, init_mem_tablesOf, inv_opened hopening⟩

/-- It holds in every state that is reached. -/
theorem reaches_inv {build : Build} {file : String} {text : List Char}
    (h : files.lookup file = some text) {m : Config}
    (hreach : StateTransition.Reaches (step build files) (initial file text) m) : m.Inv files :=
  all_reaches (fun _ => inv_opened) (act_kept build) (initial_inv h) hreach

end Athena.Idl.ParserRun
