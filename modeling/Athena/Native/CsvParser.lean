import Athena.ForStd.Block

/-!
# Tables of text (`core/common/CsvParser.h`, `CsvParser.cpp`)

A string is the list of its characters.  A value is read from a cell by `operator>>` of its
type, which leaves the value alone when there is nothing to read; it is a parameter.  An access
outside a vector, and a loop that does not end, is `none`.
-/

namespace Athena

/-- `std::getline` on a stream: the characters before the separator, and what is behind it.  It
    fails where nothing is left. -/
def getline (sep : Char) (src : List Char) : Option (List Char × List Char) :=
  if src = [] then none
  else some (src.takeWhile (· != sep), (src.dropWhile (· != sep)).drop 1)

/-- `getline` takes at least one character. -/
theorem length_getline {sep : Char} {src item rest : List Char}
    (h : getline sep src = some (item, rest)) : rest.length < src.length := by
  rw [getline] at h
  split at h
  · exact nomatch h
  · next hne =>
    obtain ⟨-, rfl⟩ := Prod.mk.inj (Option.some.inj h)
    have hdrop := (List.dropWhile_suffix (l := src) (· != sep)).length_le
    have hpos := List.length_pos_iff.mpr hne
    rw [List.length_drop]
    omega

/-- The items of `while (std::getline(ss, item, sep))`. -/
def getlines (sep : Char) (src : List Char) : List (List Char) :=
  match _h : getline sep src with
  | none => []
  | some (item, rest) => item :: getlines sep rest
termination_by src.length
decreasing_by exact length_getline ‹_›

/-- `operator>>` from a stream with this text into a value. -/
structure Extract (T : Type) where
  read : List Char → T → T
  read_nil : ∀ value, read [] value = value

namespace Extract

/-- `std::isspace`. -/
def isSpace (c : Char) : Bool :=
  c == ' ' || c == '\t' || c == '\n' || c == '\x0b' || c == '\x0c' || c == '\r'

/-- `operator>>` of `std::string`: the first word. -/
def string : Extract (List Char) where
  read text value :=
    match text.dropWhile isSpace with
    | [] => value
    | c :: cs => (c :: cs).takeWhile (!isSpace ·)
  read_nil _ := rfl

end Extract

/-- `CsvRow::getValue`: the index is not checked. -/
def csvRowGetValue {T : Type} (extract : Extract T) (values : List (List Char)) (idx : Int)
    (defvalue : T) : Option T :=
  if 0 ≤ idx then (values[idx.toNat]?).map fun value => extract.read value defvalue else none

structure CsvParser where
  sep : Char
  header : List (List Char)
  content : List (List (List Char))

namespace CsvParser

/-- The variables of the loop of the constructor. -/
structure Reading where
  startline : Int
  row : Nat
  parser : CsvParser

def parseHeader (p : CsvParser) (line : List Char) : CsvParser :=
  { p with header := p.header ++ getlines p.sep line }

def parseContent (p : CsvParser) (line : List Char) : CsvParser :=
  { p with content := p.content ++ [getlines p.sep line] }

/-- One round of the loop. -/
def readLine (st : Reading) (line : List Char) : Reading :=
  if line = [] then st
  -- `startline && --startline`
  else if st.startline ≠ 0 ∧ st.startline - 1 ≠ 0 then { st with startline := st.startline - 1 }
  else if st.row + 1 = 1 then
    { startline := 0, row := st.row + 1, parser := st.parser.parseHeader line }
  else { startline := 0, row := st.row + 1, parser := st.parser.parseContent line }

/-- The constructor, on the text of a file.  Where the file ends with a line end, a last round
    reads an empty line. -/
def new (file : List Char) (startline : Int) (sep : Char) : CsvParser :=
  ((file.splitOn '\n').foldl readLine
    { startline, row := 0, parser := { sep, header := [], content := [] } }).parser

/-- `row`. -/
def row (p : CsvParser) : Int := Block.intLength p.content.length

/-- `getValue`; `zero` is `T()`. -/
def getValue {T : Type} (extract : Extract T) (zero : T) (p : CsvParser) (row : Int)
    (name : List Char) (defvalue : T) : Option T :=
  -- `i` is an `unsigned int`
  match (p.header.take (2 ^ 32)).idxOf? name with
  | some i =>
    if 0 ≤ row - 1 then
      match p.content[(row - 1).toNat]? with
      | some csvrow => csvRowGetValue extract csvrow (Block.intLength i) defvalue
      | none => none
    else none
  | none => if p.header.length < 2 ^ 32 then some zero else none

end CsvParser

end Athena
