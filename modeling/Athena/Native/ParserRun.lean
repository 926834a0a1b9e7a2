import Athena.ForStd.Calls
import Athena.Native.Token

/-!
# The IDL parser step by step (`core/serialization/Parser.cpp`, `Common.cpp`)

The parser with its error branches: in a debug build `Common::error` stops at its `assert`, in a
release build (`NDEBUG`) it only prints, and the parser goes on.  A parser is what its functions
have still to do, as a list of the places where they look at a token; between two calls of
`nextToken` it makes at most one step.  An import is a call of another parser, on the same
tables.

`Typedef` keeps of a type only whether it is a vector, which is all of it that a decision of
the parser depends on.  `gVars` is cleared by each struct before it is looked at, so here each
parser has its own.
-/

namespace Athena.Idl.ParserRun

open Token

/-- Whether `NDEBUG` is defined. -/
inductive Build where
  | debug
  | release
  deriving DecidableEq, Repr

/-- Why the program ends before the parser returns. -/
inductive Stop where
  /-- the assert of `Common::error` -/
  | syntaxError
  /-- the assert of `__import` -/
  | loadError
  /-- the assert of `read_long_string` -/
  | comment
  /-- memory outside the buffer of a file, or of a file that is not loaded -/
  | undefined
  deriving DecidableEq, Repr

/-- The tables of `Typedef`: what is a vector, and the structs. -/
structure Tables where
  typedef_ : String → Option Bool
  custom_type : String → Bool

namespace Tables

def init : Tables := { typedef_ := fun _ => none, custom_type := fun _ => false }

/-- `Typedef::addTypeInfo`. -/
def addTypeInfo (tables : Tables) (name : String) (vector : Bool) : Tables :=
  { tables with typedef_ := fun key => if key = name then some vector else tables.typedef_ key }

/-- `Typedef::addStruct`. -/
def addStruct (tables : Tables) (name : String) : Tables :=
  { tables with custom_type := fun key => key == name || tables.custom_type key }

/-- `__baseType`: `type`, unless it is an error. -/
def baseType (tables : Tables) : Option Tok → Option Bool
  | some (.BASE _) => some false
  | some .STRING => some false
  | some (.VAR name) =>
    match tables.typedef_ name with
    | some vector => some vector
    | none => if tables.custom_type name then some false else none
  | _ => none

end Tables

/-- Who calls `__dataType`. -/
inductive TypeUse where
  | typedef
  | member
  deriving DecidableEq, Repr

/-- A place in the functions of the parser. -/
inductive Instr where
  /-- the `NEXT_TOKEN` of `start`, and its loop -/
  | begin
  | start
  /-- the loop of `__import`, with `filename` -/
  | importName (filename : String)
  /-- `__dataType`, the element of a vector, and what follows the type -/
  | dataType (use : TypeUse)
  | elemType (use : TypeUse)
  | afterType (use : TypeUse) (vector : Bool)
  /-- `__struct`, its loop, and the initialiser of a member -/
  | struct
  | items
  | init
  /-- `expre`, its loop, and the operator -/
  | expre
  | operand
  | oper
  /-- the loop of `__function`, and an if statement behind a branch and behind `else` -/
  | function
  | afterIf
  | afterElse
  /-- the loop of `__rwList`, and what follows a name -/
  | rwList
  | afterVar
  /-- `NEXT_TOKEN` -/
  | next
  /-- `MATCH_TOKEN` -/
  | matching (tok : Tok)
  deriving DecidableEq, Repr

/-- What a parser does at a place: an error, then a call of `nextToken`, then `code`. -/
structure Move where
  error : Bool := false
  next : Bool := false
  code : List Instr := []
  tables : Tables
  gVars : List String

namespace Instr

/-- From `if_area` on. -/
def ifArea : List Instr := [matching (.sym '{'), function, matching (.sym '}'), afterIf]

/-- Behind the `NEXT_TOKEN` at `if_tiaojian`. -/
def ifCond : List Instr := [matching (.sym '('), expre, matching (.sym ')')] ++ ifArea

/-- The `eKw_READ` and `eKw_WRITE` cases. -/
def method : List Instr := [matching (.sym '{'), function, matching (.sym '}'), items]

/-- Whether the parser goes on with the name of a file, and how. -/
def fileChar : Option Tok → Option String
  | some (.VAR name) => some name
  | some (.sym '.') => some "."
  | some (.sym '/') => some "/"
  | _ => none

def isOperand : Option Tok → Bool
  | some (.VAR _) => true
  | some (.NUM _) => true
  | some (.DECIMALS _) => true
  | _ => false

/-- The move at a place with the token `cur` (`none` is `eKw_EOF`). -/
def move (tables : Tables) (gVars : List String) (cur : Option Tok) : Instr → Move
  | begin => { next := true, code := [start], tables, gVars }
  | start =>
    match cur with
    | some (.sym ';') => { next := true, code := [start], tables, gVars }
    | none => { tables, gVars }
    | some .TYPEDEF => { next := true, code := [dataType .typedef, start], tables, gVars }
    | some .STRUCT => { next := true, code := [struct, start], tables, gVars }
    | some .IMPORT => { next := true, code := [importName "", start], tables, gVars }
    | _ => { error := true, code := [start], tables, gVars }
  | importName filename =>
    match fileChar cur with
    | some part => { next := true, code := [importName (filename ++ part)], tables, gVars }
    -- here the file is loaded
    | none => { tables, gVars }
  | dataType use =>
    match cur with
    | some .VECTOR =>
      { next := true, code := [matching (.sym '<'), elemType use], tables, gVars }
    | _ =>
      { error := (tables.baseType cur).isNone, next := true,
        code := [afterType use ((tables.baseType cur).getD false)], tables, gVars }
  | elemType use =>
    { error := tables.baseType cur != some false, next := true,
      code := [matching (.sym '>'), afterType use true], tables, gVars }
  | afterType .typedef vector =>
    match cur with
    | some (.VAR name) => { next := true, tables := tables.addTypeInfo name vector, gVars }
    | _ => { error := true, next := true, tables, gVars }
  | afterType .member _ =>
    match cur with
    | some (.VAR name) => { next := true, code := [init, items], tables, gVars := name :: gVars }
    | _ => { error := true, code := [items], tables, gVars }
  | struct =>
    match cur with
    | some (.VAR name) =>
      { next := true, code := [matching (.sym '{'), items], tables := tables.addStruct name,
        gVars := [] }
    | _ => { error := true, next := true, code := [matching (.sym '{'), items], tables, gVars := [] }
  | items =>
    match cur with
    | some (.sym ';') => { next := true, code := [items], tables, gVars }
    | some (.sym '}') => { next := true, tables, gVars }
    | some .READ => { next := true, code := method, tables, gVars }
    | some .WRITE => { next := true, code := method, tables, gVars }
    | _ => { code := [dataType .member], tables, gVars }
  | init =>
    match cur with
    | some (.sym '=') => { next := true, code := [expre], tables, gVars }
    | _ => { tables, gVars }
  | expre =>
    match cur with
    | some (.sym '-') => { next := true, code := [operand], tables, gVars }
    | _ => { code := [operand], tables, gVars }
  | operand => { error := !isOperand cur, next := true, code := [oper], tables, gVars }
  | oper =>
    match cur.bind Parser.getOper with
    | some _ => { next := true, code := [operand], tables, gVars }
    | none => { tables, gVars }
  | function =>
    match cur with
    | some (.sym ';') => { next := true, code := [function], tables, gVars }
    | some (.sym '[') => { next := true, code := [rwList, Instr.next, function], tables, gVars }
    | some (.VAR name) =>
      { error := !gVars.contains name, next := true,
        code := [matching (.sym '='), expre, function], tables, gVars }
    | some .IF => { next := true, code := ifCond ++ [function], tables, gVars }
    | _ => { tables, gVars }
  | afterIf =>
    match cur with
    | some .ELSE => { next := true, code := [afterElse], tables, gVars }
    | _ => { tables, gVars }
  | afterElse =>
    match cur with
    | some .IF => { next := true, code := ifCond, tables, gVars }
    | _ => { code := ifArea, tables, gVars }
  | rwList =>
    match cur with
    | some (.VAR name) =>
      { error := !gVars.contains name, next := true, code := [afterVar], tables, gVars }
    | _ => { error := true, code := [afterVar], tables, gVars }
  | afterVar =>
    match cur with
    | some (.sym ']') => { tables, gVars }
    | some (.sym ',') => { next := true, code := [rwList], tables, gVars }
    | _ => { error := true, code := [rwList], tables, gVars }
  | next => { next := true, tables, gVars }
  | matching tok =>
    if cur = some tok then { next := true, tables, gVars } else { error := true, tables, gVars }

/-- The file that is loaded at a place. -/
def loads (cur : Option Tok) : Instr → Option String
  | importName filename => if (fileChar cur).isNone then some filename else none
  | _ => none

end Instr

/-- A `Parser` with its `Token` and `FBuffer`. -/
structure Parsing where
  file : String
  /-- the token -/
  cur : Option Tok
  /-- what is left of the file -/
  src : List Char
  code : List Instr
  gVars : List String

/-- A parser at the beginning of a file. -/
def Parsing.opened (file : String) (text : List Char) : Parsing :=
  { file, cur := none, src := text, code := [.begin], gVars := [] }

/-- `nextToken`. -/
def nextToken (build : Build) (p : Parsing) (tables : Tables) (stay : Calls.Act Parsing Tables Stop) :
    Calls.Act Parsing Tables Stop :=
  match symbol p.src with
  | .ok none => .go { p with cur := none } tables
  | .ok (some (tok, src)) => .go { p with cur := some tok, src } tables
  | .error .assertion =>
    match build with
    | .debug => .stop .comment
    -- the loop of `read_long_string` goes round at the end of the file
    | .release => stay
  | .error .outside => .stop .undefined

/-- A step of a parser; `files` are the files that can be loaded. -/
def act (build : Build) (files : List (String × List Char)) (tables : Tables) (p : Parsing) :
    Calls.Act Parsing Tables Stop :=
  match p.code with
  | [] => .ret tables
  | instr :: code =>
    match instr.loads p.cur with
    | some name =>
      let filename := Parser.getFileDir p.file ++ name
      match files.lookup filename with
      | some text => .call (.opened filename text) { p with code } tables
      | none =>
        match build with
        | .debug => .stop .loadError
        | .release => .stop .undefined
    | none =>
      let m := instr.move tables p.gVars p.cur
      if m.error = true ∧ build = .debug then .stop .syntaxError
      else
        let p' := { p with code := m.code ++ code, gVars := m.gVars }
        if m.next then nextToken build p' m.tables (.go p tables) else .go p' m.tables

/-- A run of the parsers of a file and of what it imports. -/
abbrev Config := Calls.Config Parsing Tables Stop

/-- `Parser::start` on a file that `main` has loaded. -/
def initial (file : String) (text : List Char) : Config :=
  .run [Calls.enter (.opened file text) .init] .init

abbrev step (build : Build) (files : List (String × List Char)) : Config → Option Config :=
  Calls.step (act build files)

end Athena.Idl.ParserRun
