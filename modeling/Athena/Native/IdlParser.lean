/-!
# The IDL parser (`core/serialization/Parser.cpp`)

A file is the list of its tokens, as `Token::nextToken` gives them; where the list ends the
token is `eKw_EOF`.  `Common::error` stops the program (its `assert`), so an error is no
result at all.  What the parser tells its `Event` is kept as data: the declarations of a
file and of the files it imports, and the body of a method as a `Block`.

`fuel` bounds the loops; `Parser.Accepts` says that some fuel is enough.
-/

namespace Athena.Idl

/-- `Keyword::isBaseType`. -/
inductive BaseType where
  | INT8 | UINT8 | INT16 | UINT16 | INT32 | UINT32 | INT64 | UINT64 | FLOAT | DOUBLE
  deriving DecidableEq, Repr

namespace BaseType

/-- The keyword. -/
def name : BaseType → String
  | INT8 => "int8"
  | UINT8 => "uint8"
  | INT16 => "int16"
  | UINT16 => "uint16"
  | INT32 => "int32"
  | UINT32 => "uint32"
  | INT64 => "int64"
  | UINT64 => "uint64"
  | FLOAT => "float"
  | DOUBLE => "double"

/-- `sizeof`. -/
def size : BaseType → Nat
  | INT8 => 1
  | UINT8 => 1
  | INT16 => 2
  | UINT16 => 2
  | INT32 => 4
  | UINT32 => 4
  | INT64 => 8
  | UINT64 => 8
  | FLOAT => 4
  | DOUBLE => 8

end BaseType

/-- The binary operators. -/
inductive Oper where
  | Add | Sub | Mul | Mod | Pow | Div | Band | Bor | LT | GT
  | EQ | NE | AND | OR | LE | GE | SHL | SHR
  deriving DecidableEq, Repr

/-- A token with its name. -/
inductive Tok where
  | VAR (name : String)
  | NUM (text : String)
  | DECIMALS (text : String)
  | BASE (t : BaseType)
  | STRING | READ | WRITE | STRUCT | TYPEDEF | IF | ELSE | VECTOR | IMPORT
  | EQ | NE | AND | OR | LE | GE | SHL | SHR
  | sym (c : Char)
  deriving DecidableEq, Repr

/-- `TypeInfo::value`. -/
inductive TypeValue where
  | base (t : BaseType)
  | STRING
  | STRUCT
  deriving DecidableEq, Repr

/-- `TypeInfo`; `vector` says that `type` is 1. -/
structure TypeInfo where
  vector : Bool
  value : TypeValue
  name : String
  /-- the typedef that a vector was declared with, or empty -/
  vec_name : String
  deriving DecidableEq, Repr

/-- An operand; `member` says that it was in `gVars`. -/
inductive Operand where
  | var (name : String) (member : Bool)
  | num (text : String)
  | decimals (text : String)
  deriving DecidableEq, Repr

/-- What `expre` has read. -/
structure Expr where
  neg : Bool
  first : Operand
  rest : List (Oper × Operand)
  deriving DecidableEq, Repr

mutual

/-- The events of a function body. -/
inductive Block where
  | done
  | readWriteVar (tinfo : TypeInfo) (varName : String) (next : Block)
  | value (varName : String) (exp : Expr) (next : Block)
  | ifs (cond : Expr) (body : Block) (rest : Branches) (next : Block)

/-- The events between the first branch of an if statement and `onExitIf`. -/
inductive Branches where
  | done
  | elseIf (cond : Expr) (body : Block) (rest : Branches)
  | els (body : Block) (rest : Branches)

end

/-- The events of a struct. -/
inductive Item where
  | var (tinfo : TypeInfo) (varName : String) (exp : Option Expr)
  | read (body : Block)
  | write (body : Block)

/-- A struct stands in a file, with so many tokens after its name. -/
inductive Decl where
  | typedef (tinfo : TypeInfo) (name : String)
  | struct (place : String × Nat) (name : String) (items : List Item)

/-- The tables of `Typedef`, and what has been declared, the last first. -/
structure ParserState where
  typedef_ : List (String × TypeInfo)
  custom_type : List String
  decls : List Decl

namespace ParserState

def init : ParserState := { typedef_ := [], custom_type := [], decls := [] }

/-- `Typedef::getTypeInfo`. -/
def getTypeInfo (st : ParserState) (name : String) : Option TypeInfo := st.typedef_.lookup name

/-- `Typedef::isStruct`. -/
def isStruct (st : ParserState) (name : String) : Bool := st.custom_type.contains name

/-- `Typedef::addTypeInfo` and `onTypedef`. -/
def addTypeInfo (st : ParserState) (name : String) (info : TypeInfo) : ParserState :=
  { st with typedef_ := (name, info) :: st.typedef_, decls := .typedef info name :: st.decls }

/-- `Typedef::addStruct`. -/
def addStruct (st : ParserState) (key : String) : ParserState :=
  { st with custom_type := key :: st.custom_type }

end ParserState

/-- `gVars`, the last declared first. -/
abbrev Vars := List (String × TypeInfo)

namespace Parser

/-! ## Types -/

/-- `__baseType`; the token is not consumed. -/
def baseType (st : ParserState) : Tok → Option TypeInfo
  | .BASE t => some { vector := false, value := .base t, name := t.name, vec_name := "" }
  | .STRING => some { vector := false, value := .STRING, name := "string", vec_name := "" }
  | .VAR name =>
    match st.getTypeInfo name with
    | some info =>
      -- a vector keeps the typedef's name beside its element's
      if info.vector then some { info with vec_name := name }
      else some { vector := false, value := info.value, name := name, vec_name := "" }
    | none =>
      if st.isStruct name then
        some { vector := false, value := .STRUCT, name := name, vec_name := "" }
      else none
  | _ => none

/-- `__dataType`. -/
def dataType (st : ParserState) : List Tok → Option (TypeInfo × List Tok)
  | .VECTOR :: .sym '<' :: tok :: .sym '>' :: toks =>
    match baseType st tok with
    -- no vector directly in a vector
    | some tinfo => if tinfo.vector then none else some ({ tinfo with vector := true }, toks)
    | none => none
  | tok :: toks => (baseType st tok).map fun tinfo => (tinfo, toks)
  | [] => none

/-! ## Expressions -/

/-- `getOper`. -/
def getOper : Tok → Option Oper
  | .sym '+' => some .Add
  | .sym '-' => some .Sub
  | .sym '*' => some .Mul
  | .sym '%' => some .Mod
  | .sym '^' => some .Pow
  | .sym '/' => some .Div
  | .sym '&' => some .Band
  | .sym '|' => some .Bor
  | .sym '<' => some .LT
  | .sym '>' => some .GT
  | .EQ => some .EQ
  | .NE => some .NE
  | .AND => some .AND
  | .OR => some .OR
  | .LE => some .LE
  | .GE => some .GE
  | .SHL => some .SHL
  | .SHR => some .SHR
  | _ => none

def operand (gVars : Vars) : Tok → Option Operand
  | .VAR name => some (.var name (gVars.lookup name).isSome)
  | .NUM text => some (.num text)
  | .DECIMALS text => some (.decimals text)
  | _ => none

/-- The loop of `expre`, after an operand. -/
def expreRest (gVars : Vars) : List Tok → Option (List (Oper × Operand) × List Tok)
  | [] => some ([], [])
  | [tok] =>
    match getOper tok with
    | none => some ([], [tok])
    -- an operator without an operand after it
    | some _ => none
  | tok :: tok' :: toks =>
    match getOper tok with
    | none => some ([], tok :: tok' :: toks)
    | some op => do
      let x ← operand gVars tok'
      let (rest, toks) ← expreRest gVars toks
      some ((op, x) :: rest, toks)

/-- `expre`. -/
def expre (gVars : Vars) (toks : List Tok) : Option (Expr × List Tok) := do
  let (neg, toks) := match toks with
    | .sym '-' :: toks => (true, toks)
    | _ => (false, toks)
  let tok ← toks.head?
  let first ← operand gVars tok
  let (rest, toks) ← expreRest gVars toks.tail
  some ({ neg := neg, first := first, rest := rest }, toks)

/-! ## Function bodies -/

/-- `MATCH_TOKEN`. -/
def matchTok (tok : Tok) (toks : List Tok) : Option (List Tok) :=
  if toks.head? = some tok then some toks.tail else none

/-- `__rwList`; the `]` is still there. -/
def rwList (gVars : Vars) : List Tok → Option (List (TypeInfo × String) × List Tok)
  | .VAR varname :: toks => do
    let tinfo ← gVars.lookup varname
    match toks with
    | .sym ']' :: _ => some ([(tinfo, varname)], toks)
    | .sym ',' :: toks => do
      let (vars, toks) ← rwList gVars toks
      some ((tinfo, varname) :: vars, toks)
    | _ => none
  | _ => none

/-- The condition of an if statement. -/
def condition (gVars : Vars) (toks : List Tok) : Option (Expr × List Tok) := do
  let toks ← matchTok (.sym '(') toks
  let (cond, toks) ← expre gVars toks
  let toks ← matchTok (.sym ')') toks
  some (cond, toks)

mutual

/-- `__function`. -/
def function (gVars : Vars) : Nat → List Tok → Option (Block × List Tok)
  | 0, _ => none
  | fuel + 1, toks =>
    match toks with
    -- empty statements are skipped
    | .sym ';' :: toks => function gVars fuel toks
    | .sym '[' :: toks => do
      let (vars, toks) ← rwList gVars toks
      let (next, toks) ← function gVars fuel toks.tail
      some (vars.foldr (fun v next => .readWriteVar v.1 v.2 next) next, toks)
    | .VAR varname :: toks => do
      let _ ← gVars.lookup varname
      let toks ← matchTok (.sym '=') toks
      let (exp, toks) ← expre gVars toks
      let (next, toks) ← function gVars fuel toks
      some (.value varname exp next, toks)
    | .IF :: toks => do
      let (cond, toks) ← condition gVars toks
      let (body, toks) ← area gVars fuel toks
      let (rest, toks) ← branches gVars fuel toks
      let (next, toks) ← function gVars fuel toks
      some (.ifs cond body rest next, toks)
    -- whoever called looks at the token that ends the body
    | toks => some (.done, toks)

/-- The braces of a branch. -/
def area (gVars : Vars) : Nat → List Tok → Option (Block × List Tok)
  | 0, _ => none
  | fuel + 1, toks => do
    let toks ← matchTok (.sym '{') toks
    let (body, toks) ← function gVars fuel toks
    let toks ← matchTok (.sym '}') toks
    some (body, toks)

/-- The jumps back to `if_tiaojian` and `if_area`. -/
def branches (gVars : Vars) : Nat → List Tok → Option (Branches × List Tok)
  | 0, _ => none
  | fuel + 1, toks =>
    match toks with
    | .ELSE :: .IF :: toks => do
      let (cond, toks) ← condition gVars toks
      let (body, toks) ← area gVars fuel toks
      let (rest, toks) ← branches gVars fuel toks
      some (.elseIf cond body rest, toks)
    | .ELSE :: toks => do
      let (body, toks) ← area gVars fuel toks
      let (rest, toks) ← branches gVars fuel toks
      some (.els body rest, toks)
    | toks => some (.done, toks)

end

/-! ## Declarations -/

/-- The loop of `__struct`. -/
def structItems (st : ParserState) : Nat → Vars → List Tok → Option (List Item × List Tok)
  | 0, _, _ => none
  | fuel + 1, gVars, toks =>
    match toks with
    | .sym ';' :: toks => structItems st fuel gVars toks
    | .sym '}' :: toks => some ([], toks)
    | .READ :: toks => do
      let (body, toks) ← area gVars fuel toks
      let (items, toks) ← structItems st fuel gVars toks
      some (.read body :: items, toks)
    | .WRITE :: toks => do
      let (body, toks) ← area gVars fuel toks
      let (items, toks) ← structItems st fuel gVars toks
      some (.write body :: items, toks)
    | toks => do
      let (tinfo, toks) ← dataType st toks
      match toks with
      | .VAR varname :: .sym '=' :: toks => do
        let (exp, toks) ← expre ((varname, tinfo) :: gVars) toks
        let (items, toks) ← structItems st fuel ((varname, tinfo) :: gVars) toks
        some (.var tinfo varname (some exp) :: items, toks)
      | .VAR varname :: toks => do
        let (items, toks) ← structItems st fuel ((varname, tinfo) :: gVars) toks
        some (.var tinfo varname none :: items, toks)
      | _ => none

/-- `__struct`. -/
def struct (file : String) (st : ParserState) (fuel : Nat) :
    List Tok → Option (ParserState × List Tok)
  | .VAR name :: .sym '{' :: body => do
    let (items, toks) ← structItems (st.addStruct name) fuel [] body
    let st := st.addStruct name
    some ({ st with decls := .struct (file, body.length) name items :: st.decls }, toks)
  | _ => none

/-- `__typedef`. -/
def typedef (st : ParserState) (toks : List Tok) : Option (ParserState × List Tok) := do
  let (tinfo, toks) ← dataType st toks
  match toks with
  | .VAR name :: toks => some (st.addTypeInfo name tinfo, toks)
  | _ => none

/-- The file name after `import`. -/
def importName : List Tok → String × List Tok
  | .VAR name :: toks => ((name ++ (importName toks).1), (importName toks).2)
  | .sym '.' :: toks => (("." ++ (importName toks).1), (importName toks).2)
  | .sym '/' :: toks => (("/" ++ (importName toks).1), (importName toks).2)
  | toks => ("", toks)

/-- `getFileDir`. -/
def getFileDir (filepath : String) : String :=
  let upTo (c : Char) := (filepath.toList.reverse.dropWhile (· != c)).reverse
  if filepath.toList.contains '\\' then .ofList (upTo '\\') else .ofList (upTo '/')

/-- `start`; `files` are the files that can be loaded. -/
def start (files : String → Option (List Tok)) :
    Nat → String → ParserState → List Tok → Option ParserState
  | 0, _, _, _ => none
  | fuel + 1, file, st, toks =>
    match toks with
    | [] => some st
    | .sym ';' :: toks => start files fuel file st toks
    | .TYPEDEF :: toks => do
      let (st, toks) ← typedef st toks
      start files fuel file st toks
    | .STRUCT :: toks => do
      let (st, toks) ← struct file st fuel toks
      start files fuel file st toks
    | .IMPORT :: toks => do
      let filename := getFileDir file ++ (importName toks).1
      let imported ← files filename
      let st ← start files fuel filename st imported
      start files fuel file st (importName toks).2
    | _ => none

/-- The parser accepts the file, with the declarations `decls`. -/
def Accepts (files : String → Option (List Tok)) (file : String) (decls : List Decl) : Prop :=
  ∃ fuel toks st, files file = some toks ∧ start files fuel file .init toks = some st ∧
    st.decls = decls

end Parser

end Athena.Idl
