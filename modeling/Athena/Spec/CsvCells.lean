import Athena.Native.CsvParser
import Mathlib.Data.List.TakeWhile

/-!
# The cells of a table

The lines of a table are those of the file that are not blank, from `startline` on; the cells
of a line are what stands between its separators.  `std::getline` gives no cell behind a
separator at the end of the line, so a line may have fewer cells for the code than it has.

## Key results

- `CsvParser.splitOn_eq`: the cells that `getline` gives, and the one that it may not give
- `CsvParser.new_eq`: the header and the rows are the lines of the table
- `CsvParser.getValue_reads_iff`: when a value is read from its cell
-/

namespace Athena

/-- What a string is to be: the text itself. -/
def Extract.text : Extract (List Char) where
  read text value := if text = [] then value else text
  read_nil _ := rfl

namespace CsvParser

/-! ## What a lookup means -/

/-- The lines of the table: the header, and the rows. -/
def tableLines (file : List Char) (startline : Int) : List (List Char) :=
  if startline < 0 then []
  else ((file.splitOn '\n').filter (· ≠ [])).drop (startline - 1).toNat

/-- The value in a column of a line: of its cell, or the default. -/
def cellValue {T : Type} (extract : Extract T) (sep : Char) (line : List Char) (col : Nat)
    (defvalue : T) : T :=
  match (line.splitOn sep)[col]? with
  | none => defvalue
  | some cell => if cell = [] then defvalue else extract.read cell defvalue

/-- A text with a default has another value than a default that is left out. -/
theorem cellValue_text_ne_nil {sep : Char} {line : List Char} {col : Nat} {defvalue : List Char}
    (h : defvalue ≠ []) : cellValue .text sep line col defvalue ≠ [] := by
  rw [cellValue]
  split
  · exact h
  · split
    · exact h
    · next hne =>
      show (if _ = [] then defvalue else _) ≠ []
      rwa [if_neg hne]

/-- The line has a cell in the column, which is not an empty one at its end. -/
def HasCell (sep : Char) (line : List Char) (col : Nat) : Prop :=
  ∃ cell, (line.splitOn sep)[col]? = some cell ∧
    ¬ (cell = [] ∧ (line.splitOn sep).length = col + 1)

/-! ## The cells of a line -/

/-- An empty line has no cells. -/
theorem getlines_nil (sep : Char) : getlines sep [] = [] := by
  rw [getlines, getline]
  rfl

/-- The last item, which no separator ends. -/
theorem getlines_of_not_mem {sep : Char} {src : List Char} (hne : src ≠ []) (h : sep ∉ src) :
    getlines sep src = [src] := by
  have hall : ∀ c ∈ src, (c != sep) = true := by
    intro c hc
    exact bne_iff_ne.mpr fun heq => h (heq ▸ hc)
  have htake : src.takeWhile (· != sep) = src := List.takeWhile_eq_self_iff.mpr hall
  have hdrop : src.dropWhile (· != sep) = [] := List.dropWhile_eq_nil_iff.mpr hall
  rw [getlines, getline, if_neg hne, htake, hdrop]
  exact congrArg (List.cons src) (getlines_nil sep)

/-- An item and its separator. -/
theorem getlines_append_cons {sep : Char} {item : List Char} (h : sep ∉ item) (rest : List Char) :
    getlines sep (item ++ sep :: rest) = item :: getlines sep rest := by
  have hall : ∀ c ∈ item, (c != sep) = true := by
    intro c hc
    exact bne_iff_ne.mpr fun heq => h (heq ▸ hc)
  have hstop : ¬ (sep != sep) = true := by rw [bne_self_eq_false]; exact Bool.false_ne_true
  have htake : (item ++ sep :: rest).takeWhile (· != sep) = item := by
    rw [List.takeWhile_append_of_pos hall, List.takeWhile_cons_of_neg (p := (· != sep)) hstop,
      List.append_nil]
  have hdrop : (item ++ sep :: rest).dropWhile (· != sep) = sep :: rest := by
    rw [List.dropWhile_append_of_pos hall, List.dropWhile_cons_of_neg (p := (· != sep)) hstop]
  have hne : item ++ sep :: rest ≠ [] :=
    List.append_ne_nil_of_right_ne_nil _ (List.cons_ne_nil _ _)
  rw [getlines, getline, if_neg hne, htake, hdrop]
  rfl

/-- The cells that `getline` gives are all, with the last not empty, or all but an empty one at
    the end. -/
theorem splitOn_eq (sep : Char) (src : List Char) :
    (src.splitOn sep = getlines sep src ∧ (getlines sep src).getLast? ≠ some []) ∨
      src.splitOn sep = getlines sep src ++ [[]] := by
  -- on the length, from one separator to the next
  generalize hn : src.length = n
  induction n using Nat.strongRecOn generalizing src with
  | _ n ih =>
    by_cases hmem : sep ∈ src
    · obtain ⟨item, rest, rfl, hitem⟩ := List.eq_append_cons_of_mem hmem
      rw [List.splitOn_append_cons_self_of_not_mem hitem, getlines_append_cons hitem]
      have hlt : rest.length < n := by
        rw [← hn, List.length_append, List.length_cons]
        omega
      obtain ⟨hall, hlast⟩ | hempty := ih rest.length hlt rest rfl
      · refine .inl ⟨by rw [hall], ?_⟩
        have hne : getlines sep rest ≠ [] := hall ▸ List.splitOn_ne_nil sep rest
        rwa [List.getLast?_cons_of_ne_nil hne]
      · exact .inr (by rw [hempty, List.cons_append])
    · rw [List.splitOn_eq_singleton hmem]
      by_cases hne : src = []
      · subst hne
        exact .inr (by rw [getlines_nil, List.nil_append])
      · rw [getlines_of_not_mem hne hmem]
        exact .inl ⟨rfl, fun h => hne (Option.some.inj h)⟩

/-- The cells of a line that the code has. -/
theorem lt_length_getlines_iff {sep : Char} {line : List Char} {col : Nat} :
    col < (getlines sep line).length ↔ HasCell sep line col := by
  obtain ⟨hall, hlast⟩ | hempty := splitOn_eq sep line
  · rw [HasCell, hall]
    constructor
    · intro h
      refine ⟨_, List.getElem?_eq_getElem h, fun ⟨hnil, hlength⟩ => hlast ?_⟩
      rw [List.getLast?_eq_getElem?, hlength, Nat.add_sub_cancel, List.getElem?_eq_getElem h, hnil]
    · intro ⟨cell, hcell, _⟩
      exact (List.getElem?_eq_some_iff.mp hcell).1
  · rw [HasCell, hempty, List.length_append, List.length_singleton]
    constructor
    · intro h
      refine ⟨_, (List.getElem?_append_left h).trans (List.getElem?_eq_getElem h), fun hnil => ?_⟩
      omega
    · intro ⟨cell, hcell, hnot⟩
      by_contra hge
      obtain ⟨hlt, hcell⟩ := List.getElem?_eq_some_iff.mp hcell
      rw [List.length_append, List.length_singleton] at hlt
      have hcol : col = (getlines sep line).length := by omega
      subst hcol
      rw [List.getElem_concat_length rfl] at hcell
      exact hnot ⟨hcell.symm, rfl⟩

/-- A cell that `getline` gives is the line's. -/
theorem getlines_getElem? {sep : Char} {line : List Char} {col : Nat}
    (h : col < (getlines sep line).length) :
    (getlines sep line)[col]? = (line.splitOn sep)[col]? := by
  obtain ⟨hall, -⟩ | hempty := splitOn_eq sep line
  · rw [hall]
  · rw [hempty, List.getElem?_append_left h]

/-! ## The lines of a table -/

/-- The table that the constructor makes of the lines. -/
def ofLines (sep : Char) : List (List Char) → CsvParser
  | [] => { sep, header := [], content := [] }
  | line :: lines => { sep, header := getlines sep line, content := lines.map (getlines sep) }

/-- Behind the header every line that is not blank is a row. -/
theorem foldl_readLine_rows (lines : List (List Char)) (n : Nat) (p : CsvParser) :
    (lines.foldl readLine { startline := 0, row := n + 1, parser := p }).parser =
      { p with content := p.content ++ (lines.filter (· ≠ [])).map (getlines p.sep) } := by
  induction lines generalizing n p with
  | nil =>
    rw [List.filter_nil, List.map_nil, List.append_nil]
    rfl
  | cons line lines ih =>
    rw [List.foldl_cons]
    by_cases hblank : line = []
    · rw [List.filter_cons_of_neg (by simpa using hblank), readLine, if_pos hblank]
      exact ih n p
    · rw [List.filter_cons_of_pos (by simpa using hblank), readLine, if_neg hblank,
        if_neg fun h => h.1 rfl, if_neg (by show n + 1 + 1 ≠ 1; omega)]
      refine (ih (n + 1) (p.parseContent line)).trans ?_
      rw [parseContent, List.append_assoc, List.map_cons, List.singleton_append]

/-- Lines are skipped until `startline` has come down to one. -/
theorem foldl_readLine {startline : Int} (h : 0 ≤ startline) (sep : Char)
    (lines : List (List Char)) :
    (lines.foldl readLine { startline, row := 0, parser := ofLines sep [] }).parser =
      ofLines sep ((lines.filter (· ≠ [])).drop (startline - 1).toNat) := by
  induction lines generalizing startline with
  | nil =>
    rw [List.filter_nil, List.drop_nil]
    rfl
  | cons line lines ih =>
    rw [List.foldl_cons]
    by_cases hblank : line = []
    · rw [List.filter_cons_of_neg (by simpa using hblank), readLine, if_pos hblank]
      exact ih h
    · rw [List.filter_cons_of_pos (by simpa using hblank), readLine, if_neg hblank]
      by_cases hskip : startline ≠ 0 ∧ startline - 1 ≠ 0
      · rw [if_pos hskip]
        have hdrop : (startline - 1).toNat = (startline - 1 - 1).toNat + 1 := by omega
        rw [hdrop, List.drop_succ_cons]
        exact ih (show 0 ≤ startline - 1 by omega)
      · have hdrop : (startline - 1).toNat = 0 := by omega
        rw [if_neg hskip, if_pos rfl, hdrop, List.drop_zero]
        exact foldl_readLine_rows lines 0 _

/-- Before the first line nothing is read. -/
theorem foldl_readLine_of_neg {startline : Int} (h : startline < 0) (p : CsvParser)
    (lines : List (List Char)) :
    (lines.foldl readLine { startline, row := 0, parser := p }).parser = p := by
  induction lines generalizing startline with
  | nil => rfl
  | cons line lines ih =>
    rw [List.foldl_cons]
    by_cases hblank : line = []
    · rw [readLine, if_pos hblank]
      exact ih h
    · have hskip : startline ≠ 0 ∧ startline - 1 ≠ 0 := by omega
      rw [readLine, if_neg hblank, if_pos hskip]
      exact ih (show startline - 1 < 0 by omega)

/-- The constructor reads the lines of the table. -/
theorem new_eq (file : List Char) (startline : Int) (sep : Char) :
    new file startline sep = ofLines sep (tableLines file startline) := by
  rw [new, tableLines]
  split
  · next hneg => exact foldl_readLine_of_neg hneg (ofLines sep []) _
  · next hpos => exact foldl_readLine (by omega) sep _

/-! ## Lookups -/

/-- A name in front is found in front. -/
theorem idxOf?_take_of_lt {l : List (List Char)} {a : List Char} {i k : Nat}
    (h : l.idxOf? a = some i) (hk : i < k) : (l.take k).idxOf? a = some i := by
  obtain ⟨hi, hget, hfirst⟩ := List.idxOf?_eq_some_iff.mp h
  refine List.idxOf?_eq_some_iff.mpr ⟨by rw [List.length_take]; omega, ?_, ?_⟩
  · rw [List.getElem_take, hget]
  · intro j hj
    rw [List.getElem_take]
    exact hfirst j hj

/-- A name that is cut off is not found. -/
theorem idxOf?_take_of_le {l : List (List Char)} {a : List Char} {i k : Nat}
    (h : l.idxOf? a = some i) (hk : k ≤ i) : (l.take k).idxOf? a = none := by
  obtain ⟨hi, hget, hfirst⟩ := List.idxOf?_eq_some_iff.mp h
  refine List.idxOf?_eq_none_iff.mpr fun hmem => ?_
  obtain ⟨j, hj, heq⟩ := List.mem_iff_getElem.mp hmem
  rw [List.length_take] at hj
  rw [List.getElem_take] at heq
  exact hfirst j (by omega) heq

/-- `getline` gives the cells but for those at the end. -/
theorem getlines_eq_take (sep : Char) (line : List Char) :
    getlines sep line = (line.splitOn sep).take (getlines sep line).length := by
  obtain ⟨hall, -⟩ | hempty := splitOn_eq sep line
  · rw [hall, List.take_length]
  · rw [hempty, List.take_left]

section

variable {sep : Char} {header line name : List Char} {lines : List (List Char)} {r : Int}
  {col : Nat} {T : Type} (extract : Extract T) (zero defvalue : T)

/-- The value of a row in the column where the code finds the name. -/
theorem getValue_of_found (hr : 1 ≤ r) (hline : lines[(r - 1).toNat]? = some line)
    (hname : (header.splitOn sep).idxOf? name = some col)
    (hheader : col < (getlines sep header).length) (hcol : col < 2 ^ 32) :
    getValue extract zero (ofLines sep (header :: lines)) r name defvalue =
      csvRowGetValue extract (getlines sep line) (Block.intLength col) defvalue := by
  have hfound : ((getlines sep header).take (2 ^ 32)).idxOf? name = some col := by
    rw [getlines_eq_take, List.take_take]
    exact idxOf?_take_of_lt hname (by omega)
  have hrow : (lines.map (getlines sep))[(r - 1).toNat]? = some (getlines sep line) := by
    rw [List.getElem?_map, hline]
    rfl
  rw [getValue, ofLines]
  dsimp only
  rw [hfound]
  dsimp only
  rw [if_pos (by omega), hrow]

/-- Where the code does not find the name. -/
theorem getValue_of_not_found (hname : (header.splitOn sep).idxOf? name = some col)
    (hcol : (getlines sep header).length ≤ col ∨ 2 ^ 32 ≤ col) :
    getValue extract zero (ofLines sep (header :: lines)) r name defvalue =
      if (getlines sep header).length < 2 ^ 32 then some zero else none := by
  have hnone : ((getlines sep header).take (2 ^ 32)).idxOf? name = none := by
    rw [getlines_eq_take, List.take_take]
    exact idxOf?_take_of_le hname (by omega)
  rw [getValue, ofLines]
  dsimp only
  rw [hnone]

/-- A cell of a line is read in its column. -/
theorem csvRowGetValue_eq (hcol : col < 2 ^ 31) (h : HasCell sep line col) :
    csvRowGetValue extract (getlines sep line) (Block.intLength col) defvalue =
      some (cellValue extract sep line col defvalue) := by
  have hlt := lt_length_getlines_iff.mpr h
  obtain ⟨cell, hcell, -⟩ := h
  rw [csvRowGetValue, Block.intLength_eq hcol, if_pos (by omega), Int.toNat_natCast,
    getlines_getElem? hlt, cellValue, hcell]
  dsimp only
  split
  · next hempty => rw [hempty, Option.map_some, extract.read_nil]
  · rfl

/-- The row is accessed outside. -/
theorem csvRowGetValue_eq_none (hcol : col < 2 ^ 32)
    (h : ¬ (HasCell sep line col ∧ col < 2 ^ 31)) :
    csvRowGetValue extract (getlines sep line) (Block.intLength col) defvalue = none := by
  rw [csvRowGetValue]
  by_cases hlarge : 2 ^ 31 ≤ col
  · have hneg : ¬ 0 ≤ Block.intLength col := mt Block.intLength_nonneg.mp (by omega)
    rw [if_neg hneg]
  · have hcell : ¬ HasCell sep line col := fun hcell => h ⟨hcell, by omega⟩
    rw [Block.intLength_eq (by omega), if_pos (by omega), Int.toNat_natCast, List.getElem?_eq_none]
    · rfl
    · exact Nat.le_of_not_lt (mt lt_length_getlines_iff.mp hcell)

/-- Where a value is read from the row, the header and the row have the cell. -/
theorem hasCell_of_reads (hr : 1 ≤ r) (hline : lines[(r - 1).toNat]? = some line)
    (hname : (header.splitOn sep).idxOf? name = some col) {f : T → T} {d : T} (hd : f d ≠ zero)
    (h : ∀ defvalue, getValue extract zero (ofLines sep (header :: lines)) r name defvalue =
      some (f defvalue)) : HasCell sep header col ∧ HasCell sep line col ∧ col < 2 ^ 31 := by
  have hvalue := h d
  have hheader : HasCell sep header col := by
    by_contra hno
    have hle := Nat.le_of_not_lt (mt lt_length_getlines_iff.mp hno)
    rw [getValue_of_not_found _ zero d hname (.inl hle)] at hvalue
    split at hvalue
    · exact hd (Option.some.inj hvalue).symm
    · exact nomatch hvalue
  have hlength := lt_length_getlines_iff.mpr hheader
  refine ⟨hheader, ?_⟩
  by_contra hno
  by_cases hcol : col < 2 ^ 32
  · rw [getValue_of_found _ zero d hr hline hname hlength hcol,
      csvRowGetValue_eq_none _ d hcol hno] at hvalue
    exact nomatch hvalue
  · rw [getValue_of_not_found _ zero d hname (.inr (by omega)), if_neg (by omega)] at hvalue
    exact nomatch hvalue

/-- Where they have it, the value is read from it. -/
theorem getValue_of_hasCell (hr : 1 ≤ r) (hline : lines[(r - 1).toNat]? = some line)
    (hname : (header.splitOn sep).idxOf? name = some col) (hheader : HasCell sep header col)
    (hcell : HasCell sep line col) (hcol : col < 2 ^ 31) :
    getValue extract zero (ofLines sep (header :: lines)) r name defvalue =
      some (cellValue extract sep line col defvalue) := by
  rw [getValue_of_found extract zero defvalue hr hline hname
    (lt_length_getlines_iff.mpr hheader) (by omega)]
  exact csvRowGetValue_eq extract defvalue hcol hcell

end

/-! ## Strings -/

/-- `operator>>` of `std::string` gives a text as it is if there is no blank in it. -/
theorem string_read_eq_iff {cell : List Char} (hne : cell ≠ []) :
    Extract.string.read cell [] = cell ↔ ∀ c ∈ cell, Extract.isSpace c = false := by
  constructor
  · intro h c hc
    rw [← h] at hc
    simp only [Extract.string] at hc
    split at hc
    · exact absurd hc List.not_mem_nil
    · simpa using List.mem_takeWhile_imp hc
  · intro h
    have hdrop : cell.dropWhile Extract.isSpace = cell := by
      cases cell with
      | nil => rfl
      | cons c cs =>
        refine List.dropWhile_cons_of_neg ?_
        rw [h c List.mem_cons_self]
        exact Bool.false_ne_true
    have htake : cell.takeWhile (!Extract.isSpace ·) = cell := by
      refine List.takeWhile_eq_self_iff.mpr fun c hc => ?_
      rw [h c hc]
      rfl
    simp only [Extract.string, hdrop]
    cases cell with
    | nil => exact absurd rfl hne
    | cons c cs => exact htake

/-- The string in a cell is its text if there is no blank in it. -/
theorem cellValue_string_iff {sep : Char} {line : List Char} {col : Nat} :
    (∀ defvalue, cellValue .string sep line col defvalue = cellValue .text sep line col defvalue) ↔
      ∀ cell, (line.splitOn sep)[col]? = some cell → ∀ c ∈ cell, Extract.isSpace c = false := by
  simp only [cellValue]
  cases hcell : (line.splitOn sep)[col]? with
  | none => exact ⟨fun _ _ h => (nomatch h), fun _ _ => rfl⟩
  | some cell =>
    dsimp only
    by_cases hne : cell = []
    · subst hne
      simp
    · have htext : ∀ defvalue, Extract.text.read cell defvalue = cell := fun _ => if_neg hne
      simp only [if_neg hne, htext, Option.some.injEq, forall_eq']
      constructor
      · intro h
        exact (string_read_eq_iff hne).mp (h [])
      · intro h defvalue
        refine Eq.trans ?_ ((string_read_eq_iff hne).mpr h)
        -- there is something to read, so the default does not matter
        cases hdrop : cell.dropWhile Extract.isSpace with
        | nil =>
          obtain ⟨c, cs, rfl⟩ := List.exists_cons_of_ne_nil hne
          have hall := List.dropWhile_eq_nil_iff.mp hdrop c List.mem_cons_self
          rw [h c List.mem_cons_self] at hall
          exact nomatch hall
        | cons c cs => simp only [Extract.string, hdrop]

/-- Every row is a line of the table.  A name of the header is looked up in its first column,
    for every type of value, if and only if the header and the line have a cell there that is
    not an empty one at the end, and the column is an `int`.  A string is then the text of the
    cell if and only if there is no blank in the text. -/
theorem getValue_reads_iff (file : List Char) (startline : Int) (sep : Char) {r : Int}
    (hr : 1 ≤ r) (hrow : r ≤ (new file startline sep).row) :
    ∃ header line, (tableLines file startline)[0]? = some header ∧
      (tableLines file startline)[r.toNat]? = some line ∧
        ∀ name col, (header.splitOn sep).idxOf? name = some col →
          ((∀ (T : Type) (extract : Extract T) (zero defvalue : T),
              getValue extract zero (new file startline sep) r name defvalue =
                some (cellValue extract sep line col defvalue)) ↔
            HasCell sep header col ∧ HasCell sep line col ∧ col < 2 ^ 31) ∧
          ((∀ defvalue, getValue .string [] (new file startline sep) r name defvalue =
              some (cellValue .text sep line col defvalue)) ↔
            (HasCell sep header col ∧ HasCell sep line col ∧ col < 2 ^ 31) ∧
              ∀ cell, (line.splitOn sep)[col]? = some cell →
                ∀ c ∈ cell, Extract.isSpace c = false) := by
  rw [new_eq] at hrow ⊢
  cases hlines : tableLines file startline with
  | nil =>
    rw [hlines] at hrow
    have hzero : (ofLines sep []).row = 0 := Block.intLength_eq (n := 0) (by decide)
    omega
  | cons header lines =>
    rw [hlines] at hrow
    have hle := Block.intLength_le (lines.map (getlines sep)).length
    rw [List.length_map] at hle
    have hrow' : r ≤ Block.intLength (lines.map (getlines sep)).length := hrow
    rw [List.length_map] at hrow'
    have hlt : (r - 1).toNat < lines.length := by omega
    obtain ⟨line, hline⟩ : ∃ line, lines[(r - 1).toNat]? = some line :=
      ⟨_, List.getElem?_eq_getElem hlt⟩
    have hindex : r.toNat = (r - 1).toNat + 1 := by omega
    refine ⟨header, line, rfl, by rw [hindex, List.getElem?_cons_succ, hline], ?_⟩
    intro name col hname
    have hreads : HasCell sep header col ∧ HasCell sep line col ∧ col < 2 ^ 31 →
        ∀ {T : Type} (extract : Extract T) (zero defvalue : T),
          getValue extract zero (ofLines sep (header :: lines)) r name defvalue =
            some (cellValue extract sep line col defvalue) :=
      fun ⟨hheader, hcell, hcol⟩ _ extract zero defvalue =>
        getValue_of_hasCell extract zero defvalue hr hline hname hheader hcell hcol
    refine ⟨⟨fun hall => ?_, fun hcells _ => hreads hcells⟩, fun hall => ?_,
      fun ⟨hcells, hplain⟩ defvalue => ?_⟩
    · -- a type whose `T()` is not the default
      let keep : Extract Bool := ⟨fun _ value => value, fun _ => rfl⟩
      refine hasCell_of_reads keep true hr hline hname (f := cellValue keep sep line col)
        (d := false) ?_ (hall Bool keep true)
      simp only [cellValue, keep]
      split
      · exact Bool.false_ne_true
      · split <;> exact Bool.false_ne_true
    · have hcells := hasCell_of_reads .string [] hr hline hname (f := cellValue .text sep line col)
        (d := ['x']) (cellValue_text_ne_nil (List.cons_ne_nil _ _)) hall
      refine ⟨hcells, cellValue_string_iff.mp fun defvalue => ?_⟩
      exact Option.some.inj ((hreads hcells .string [] defvalue).symm.trans (hall defvalue))
    · rw [hreads hcells, cellValue_string_iff.mpr hplain]

/-- A table with one row. -/
theorem getValue_reads_iff_example :
    ∃ header line, (tableLines "id\tname\n1\tx".toList 1)[0]? = some header ∧
      (tableLines "id\tname\n1\tx".toList 1)[1]? = some line ∧
        ∀ name col, (header.splitOn '\t').idxOf? name = some col →
          ((∀ (T : Type) (extract : Extract T) (zero defvalue : T),
              getValue extract zero (new "id\tname\n1\tx".toList 1 '\t') 1 name defvalue =
                some (cellValue extract '\t' line col defvalue)) ↔
            HasCell '\t' header col ∧ HasCell '\t' line col ∧ col < 2 ^ 31) ∧
          ((∀ defvalue, getValue .string [] (new "id\tname\n1\tx".toList 1 '\t') 1 name defvalue =
              some (cellValue .text '\t' line col defvalue)) ↔
            (HasCell '\t' header col ∧ HasCell '\t' line col ∧ col < 2 ^ 31) ∧
              ∀ cell, (line.splitOn '\t')[col]? = some cell →
                ∀ c ∈ cell, Extract.isSpace c = false) :=
  getValue_reads_iff "id\tname\n1\tx".toList 1 '\t' (r := 1) (by decide) (by decide +kernel)

/-- A row that ends before the column. -/
theorem short_row :
    ¬ ∀ (file : List Char) (startline : Int) (sep : Char) (r : Int), 1 ≤ r →
      r ≤ (new file startline sep).row → ∀ header line : List Char,
        (tableLines file startline)[0]? = some header →
        (tableLines file startline)[r.toNat]? = some line → ∀ name col,
          (header.splitOn sep).idxOf? name = some col → ∀ defvalue : List Char,
            getValue .string [] (new file startline sep) r name defvalue =
              some (cellValue .text sep line col defvalue) := by
  intro h
  have hvalue := h "id\tname\n1".toList 1 '\t' 1 (by decide) (by decide +kernel) "id\tname".toList
    "1".toList (by decide +kernel) (by decide +kernel) "name".toList 1 (by decide +kernel) []
  have houtside : getValue .string [] (new "id\tname\n1".toList 1 '\t') 1 "name".toList [] = none := by
    decide +kernel
  rw [houtside] at hvalue
  exact nomatch hvalue

-- Of a cell of two words the first one is read.
example : getValue .string [] (new "id\tname\n1\thello world".toList 1 '\t') 1 "name".toList [] =
    some "hello".toList := by decide +kernel

end CsvParser

end Athena
