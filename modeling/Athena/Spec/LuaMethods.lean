import Athena.Native.CxxBlocks
import Athena.Native.GenerateLua
import Athena.Spec.ExprTrees

/-!
# The generated methods as Lua

What Lua makes of the text of `GenerateLua`.  A list is kept as data (`luaReadCode`,
`luaWriteCode`), and `genRead_eq`, `genWrite_eq` say that the text is this data, printed.  A name
is a local if there is one around it, and else a global, also where it is assigned; the classes are
globals.

`init` is what `new` makes of an initialiser, and `literal` what a number means.  A table is a
value: no two members share one, as the methods make every table by `new`.
-/

namespace Athena.Idl

/-! ## Statements -/

/-- What is read or assigned. -/
inductive LuaVar where
  | name (x : String)
  /-- `self.x` -/
  | member (x : String)
  /-- `self.v[i]` -/
  | elem (v : String)

/-- The statements that the generator writes for a value. -/
inductive LuaSimple where
  /-- `if n + buffer:rpos() > buffer:wpos() then return false end` -/
  | checkSize (n : Nat)
  /-- `x = buffer:getInt32();` -/
  | get (x : LuaVar) (value : TypeValue)
  /-- `if x:read(buffer) == false then return false end;` -/
  | callRead (x : LuaVar)
  /-- `local x = 0` -/
  | localZero (x : String)
  /-- `local x = nil` -/
  | localNil (x : String)
  /-- `x = type:new()` -/
  | new (x : LuaVar) (type : String)
  /-- `x = y` -/
  | assign (x y : LuaVar)
  /-- `local x = #self.v` -/
  | localSize (x v : String)
  /-- `buffer:pushInt32(x);` -/
  | put (value : TypeValue) (x : LuaVar)
  /-- `x:write(buffer);` -/
  | callWrite (x : LuaVar)

/-- A statement, or a loop over such. -/
inductive LuaStmt where
  | simple (s : LuaSimple)
  /-- `for i = 1, bound, 1 do body end` -/
  | loop (bound : String) (body : List LuaSimple)

/-- As it is printed. -/
def LuaVar.text : LuaVar → String
  | name x => x
  | member x => "self." ++ x
  | elem v => "self." ++ v ++ "[i]"

open GenerateLua (readFuncName writeFuncName)

/-- As it is printed. -/
def LuaSimple.text : LuaSimple → String
  | checkSize n =>
    "if " ++ toString n ++ " + buffer:rpos() > buffer:wpos() then return false end\n"
  | get x value => x.text ++ " = buffer:" ++ readFuncName value ++ "();\n"
  | callRead x => "if " ++ x.text ++ ":read(buffer) == false then return false end;\n"
  | localZero x => "local " ++ x ++ " = 0\n"
  | localNil x => "local " ++ x ++ " = nil\n"
  | new x type => x.text ++ " = " ++ type ++ ":new()\n"
  | assign x y => x.text ++ " = " ++ y.text ++ "\n"
  | localSize x v => "local " ++ x ++ " = #" ++ ("self." ++ v) ++ "\n"
  | put value x => "buffer:" ++ writeFuncName value ++ "(" ++ x.text ++ ");\n"
  | callWrite x => x.text ++ ":write(buffer);\n"

namespace LuaStmt

/-- A statement a line, indented. -/
def printBody (depth : Nat) : List LuaSimple → String
  | [] => ""
  | s :: body => tabs depth ++ s.text ++ printBody depth body

/-- A statement a line, indented; `eol` ends the line of a `for`. -/
def print (eol : String) (depth : Nat) : List LuaStmt → String
  | [] => ""
  | .simple s :: code => tabs depth ++ s.text ++ print eol depth code
  | .loop bound body :: code =>
    tabs depth ++ ("for i = 1, " ++ bound ++ eol) ++ printBody (depth + 1) body ++
      tabs depth ++ "end\n" ++ print eol depth code

end LuaStmt

/-- `genRead` of a value. -/
def luaReadValue (value : TypeValue) (x : LuaVar) : List LuaSimple :=
  match value with
  | .base t => [.checkSize t.size, .get x value]
  | .STRING => [.get x value]
  | .STRUCT => [.callRead x]

/-- The line that makes an object before it is read. -/
def luaNew (tinfo : TypeInfo) (x : LuaVar) : List LuaSimple :=
  if tinfo.value = .STRUCT then [.new x tinfo.name] else []

/-- `genRead` of a member. -/
def luaReadCode (tinfo : TypeInfo) (x : String) : List LuaStmt :=
  if tinfo.vector then
    LuaStmt.simple (.localZero ("len_" ++ x)) :: .simple (.localNil ("temp_" ++ x)) ::
      (luaReadValue (.base .INT32) (.name ("len_" ++ x))).map .simple ++
      [LuaStmt.loop ("len_" ++ x) (luaNew tinfo (.name ("temp_" ++ x)) ++
        luaReadValue tinfo.value (.name ("temp_" ++ x)) ++
          [LuaSimple.assign (.elem x) (.name ("temp_" ++ x))])]
  else (luaNew tinfo (.member x) ++ luaReadValue tinfo.value (.member x)).map .simple

/-- `genWrite` of a value. -/
def luaWriteValue (value : TypeValue) (x : LuaVar) : LuaSimple :=
  match value with
  | .base _ => .put value x
  | .STRING => .put value x
  | .STRUCT => .callWrite x

/-- `genWrite` of a member. -/
def luaWriteCode (tinfo : TypeInfo) (x : String) : List LuaStmt :=
  if tinfo.vector then
    [.simple (.localSize ("len_" ++ x) x),
      .simple (luaWriteValue (.base .INT32) (.name ("len_" ++ x))),
      .loop ("len_" ++ x) [luaWriteValue tinfo.value (.elem x)]]
  else [.simple (luaWriteValue tinfo.value (.member x))]

/-! ## The text is the code -/

namespace LuaStmt

/-- Two bodies, printed one after the other. -/
theorem printBody_append (depth : Nat) (a b : List LuaSimple) :
    printBody depth (a ++ b) = printBody depth a ++ printBody depth b := by
  induction a with
  | nil => simp [printBody]
  | cons s a ih => simp [printBody, ih, String.append_assoc]

/-- Two pieces of code, printed one after the other. -/
theorem print_append (eol : String) (depth : Nat) (a b : List LuaStmt) :
    print eol depth (a ++ b) = print eol depth a ++ print eol depth b := by
  induction a with
  | nil => simp [print]
  | cons s a ih => cases s <;> simp [print, ih, String.append_assoc]

/-- Code without loops is printed as a body. -/
theorem print_simple (eol : String) (depth : Nat) (body : List LuaSimple) :
    print eol depth (body.map .simple) = printBody depth body := by
  induction body with
  | nil => rfl
  | cons s body ih => rw [List.map_cons, print, printBody, ih]

end LuaStmt

open LuaStmt

/-- What `genRead` prints for a value. -/
theorem luaReadValue_text (depth : Nat) (value : TypeValue) (x : LuaVar) (dep : Nat) :
    tabs (depth + dep) ++ GenerateLua.genReadValue depth value x.text dep =
      printBody (depth + dep) (luaReadValue value x) := by
  cases value <;>
    simp [GenerateLua.genReadValue, luaReadValue, printBody, LuaSimple.text, String.append_assoc]

/-- What `genWrite` prints for a value. -/
theorem luaWriteValue_text (depth : Nat) (value : TypeValue) (x : LuaVar) :
    tabs depth ++ GenerateLua.genWriteValue value x.text =
      printBody depth [luaWriteValue value x] := by
  cases value <;>
    simp [GenerateLua.genWriteValue, luaWriteValue, printBody, LuaSimple.text, String.append_assoc]

/-- What is printed before an object is read. -/
theorem luaNew_text (depth : Nat) (tinfo : TypeInfo) (x : LuaVar) :
    (if tinfo.value = .STRUCT then
      tabs depth ++ (x.text ++ " = " ++ tinfo.name ++ ":new()\n") else "") =
      printBody depth (luaNew tinfo x) := by
  rw [luaNew]
  split
  · simp [printBody, LuaSimple.text, String.append_assoc]
  · rfl

/-- What `genRead` prints is the code, printed. -/
theorem genRead_eq (depth : Nat) (tinfo : TypeInfo) (x : String) :
    GenerateLua.genRead depth tinfo x = print ", 1 do\n" depth (luaReadCode tinfo x) := by
  rw [GenerateLua.genRead, luaReadCode]
  split
  · have hlen := luaReadValue_text depth (.base .INT32) (.name ("len_" ++ x)) 0
    have htemp := luaReadValue_text depth tinfo.value (.name ("temp_" ++ x)) 1
    have hnew := luaNew_text (depth + 1) tinfo (.name ("temp_" ++ x))
    have hassign : printBody (depth + 1) [.assign (.elem x) (.name ("temp_" ++ x))] =
        tabs (depth + 1) ++ ("self." ++ x ++ "[i] = " ++ ("temp_" ++ x) ++ "\n") := by
      simp [printBody, LuaSimple.text, LuaVar.text, String.append_assoc]
    simp only [LuaVar.text, Nat.add_zero] at hlen htemp hnew
    simp only [List.cons_append, print, print_append, print_simple, printBody_append, ← hlen,
      ← htemp, ← hnew, hassign, LuaSimple.text, String.append_assoc, String.append_empty]
  · have hvalue := luaReadValue_text depth tinfo.value (.member x) 0
    have hnew := luaNew_text depth tinfo (.member x)
    simp only [LuaVar.text, Nat.add_zero] at hvalue hnew
    rw [print_simple, printBody_append, ← hvalue, ← hnew, String.append_assoc]

/-- What `genWrite` prints is the code, printed. -/
theorem genWrite_eq (depth : Nat) (tinfo : TypeInfo) (x : String) :
    GenerateLua.genWrite depth tinfo x = print ", 1 do \n" depth (luaWriteCode tinfo x) := by
  rw [GenerateLua.genWrite, luaWriteCode]
  split
  · have hlen := luaWriteValue_text depth (.base .INT32) (.name ("len_" ++ x))
    have helem := luaWriteValue_text (depth + 1) tinfo.value (.elem x)
    have hsize : (LuaSimple.localSize ("len_" ++ x) x).text =
        "local " ++ ("len_" ++ x) ++ " = #" ++ ("self." ++ x) ++ "\n" := rfl
    rw [printBody, printBody, String.append_empty] at hlen
    simp only [LuaVar.text] at hlen helem
    simp only [print, ← hlen, ← helem, hsize, String.append_assoc, String.append_empty]
  · have hvalue := luaWriteValue_text depth tinfo.value (.member x)
    rw [printBody, printBody, String.append_empty] at hvalue
    rw [print, print, ← hvalue, String.append_empty]
    rfl

/-! ## Values -/

/-- The values of Lua; a table is an array or an object of a class. -/
inductive LuaVal where
  | nil
  | bool (b : Bool)
  /-- a number or a string, as C++ has it -/
  | scalar (v : Val)
  /-- a table that is a sequence -/
  | arr (vs : List LuaVal)
  /-- an object of a class -/
  | obj (struct : String) (fields : String → LuaVal)
  /-- the table of a class -/
  | cls (struct : String)
  /-- the parameters -/
  | self
  | buffer
  /-- a function of the library -/
  | fn (name : String)

namespace LuaVal

/-- What a condition makes of it. -/
def truth : LuaVal → Bool
  | nil => false
  | bool b => b
  | _ => true

/-- `vs[k]`. -/
def index (vs : List LuaVal) (k : Int) : LuaVal :=
  if 1 ≤ k then (vs[(k - 1).toNat]?).getD nil else nil

/-- `vs[k] = v`, where the table is a sequence after it. -/
def setAt (vs : List LuaVal) (k : Int) (v : LuaVal) : Option (List LuaVal) :=
  if 1 ≤ k ∧ k ≤ vs.length + 1 then some (vs.take (k - 1).toNat ++ v :: vs.drop k.toNat) else none

end LuaVal

/-- The fields of `self`, the locals, the last first, the globals and the buffer. -/
structure LuaFrame where
  self : String → LuaVal
  locals : List (String × LuaVal)
  globals : String → LuaVal
  buf : ByteBuf

namespace LuaFrame

/-- A local, or a global if there is none. -/
def lookup (f : LuaFrame) (x : String) : LuaVal := (f.locals.lookup x).getD (f.globals x)

/-- `local x = v`. -/
def declare (f : LuaFrame) (x : String) (v : LuaVal) : LuaFrame :=
  { f with locals := (x, v) :: f.locals }

/-- The last local of the name is assigned. -/
def setLocal (x : String) (v : LuaVal) : List (String × LuaVal) → List (String × LuaVal)
  | [] => []
  | p :: locals => if x = p.1 then (x, v) :: locals else p :: setLocal x v locals

/-- `x = v`. -/
def assign (f : LuaFrame) (x : String) (v : LuaVal) : LuaFrame :=
  if (f.locals.lookup x).isSome then { f with locals := setLocal x v f.locals }
  else { f with globals := Function.update f.globals x v }

end LuaFrame

namespace LuaVar

/-- The value, if it can be read. -/
def get (f : LuaFrame) : LuaVar → Option LuaVal
  | name x => some (f.lookup x)
  | member x =>
    match f.lookup "self" with
    | .self => some (f.self x)
    | _ => none
  | elem v =>
    match f.lookup "self", f.self v, f.lookup "i" with
    | .self, .arr vs, .scalar (.num k) => some (.index vs k)
    | _, _, _ => none

/-- The frame after an assignment, if it can be made. -/
def set (f : LuaFrame) (w : LuaVal) : LuaVar → Option LuaFrame
  | name x => some (f.assign x w)
  | member x =>
    match f.lookup "self" with
    | .self => some { f with self := Function.update f.self x w }
    | _ => none
  | elem v =>
    match f.lookup "self", f.self v, f.lookup "i" with
    | .self, .arr vs, .scalar (.num k) =>
      (LuaVal.setAt vs k w).map fun vs => { f with self := Function.update f.self v (.arr vs) }
    | _, _, _ => none

end LuaVar

/-! ## Classes -/

/-- The class that a global is, after the statements for the declarations, the last first. -/
def classNamed : List Decl → String → Option String
  | [], _ => none
  | .typedef tinfo name' :: decls, name =>
    if name = name' ∧ tinfo.value = .STRUCT then classNamed decls tinfo.name
    else classNamed decls name
  | .struct _ name' _ :: decls, name => if name = name' then some name else classNamed decls name

/-- The functions and tables that Lua has by itself. -/
def luaLibrary : List String :=
  ["_G", "_VERSION", "assert", "collectgarbage", "coroutine", "debug", "dofile", "error",
    "getmetatable", "io", "ipairs", "load", "loadfile", "math", "next", "os", "package", "pairs",
    "pcall", "print", "rawequal", "rawget", "rawlen", "rawset", "require", "select", "setmetatable",
    "string", "table", "tonumber", "tostring", "type", "utf8", "xpcall"]

/-- The globals when the files have been loaded. -/
def luaGlobals (decls : List Decl) (name : String) : LuaVal :=
  match classNamed decls name with
  | some S => .cls S
  | none => if luaLibrary.contains name then .fn name else .nil

/-- An object when its method is called, and the globals when nothing has been assigned. -/
def LuaFrame.start (decls : List Decl) (fields : String → LuaVal) (buf : ByteBuf) : LuaFrame :=
  { self := fields, locals := [], globals := luaGlobals decls, buf := buf }

/-- What `new` sets a member to. -/
def luaInit (init : Expr → LuaVal) (tinfo : TypeInfo) (exp : Option Expr) : LuaVal :=
  if tinfo.vector then .arr []
  else
    match exp, tinfo.value with
    | some e, _ => init e
    | none, .base _ => .scalar (.num 0)
    | none, .STRING => .scalar (.str [])
    | none, .STRUCT => .arr []

/-- A line of `new`. -/
def setField (init : Expr → LuaVal) (fields : String → LuaVal) : Item → String → LuaVal
  | .var tinfo x exp => Function.update fields x (luaInit init tinfo exp)
  | _ => fields

/-- The fields of a new object. -/
def luaFields (init : Expr → LuaVal) (items : List Item) : String → LuaVal :=
  items.foldl (setField init) fun _ => .nil

/-- The fields of a new object of a class. -/
def newFields (decls : List Decl) (init : String → Expr → LuaVal) (struct : String) :
    String → LuaVal :=
  luaFields (init struct) ((itemsOf decls struct).getD [])

/-! ## What Lua loads -/

/-- The expression is one of Lua. -/
def Expr.loads (e : Expr) : Bool := (lua.tree e.luaText).isSome

mutual

/-- The body is one of Lua. -/
def Block.loads : Block → Bool
  | .done => true
  | .readWriteVar _ x next => luaName x.toList && next.loads
  | .value x exp next => luaName x.toList && (exp.loads && next.loads)
  | .ifs cond body rest next => cond.loads && (body.loads && (rest.loads && next.loads))

/-- The branches are those of Lua. -/
def Branches.loads : Branches → Bool
  | .done => true
  | .elseIf cond body rest => cond.loads && (body.loads && rest.loads)
  -- an `else` has no `else`
  | .els body .done => body.loads
  | .els _ _ => false

end

/-- The item is one of Lua. -/
def Item.loads : Item → Bool
  | .var _ x exp => luaName x.toList && exp.all Expr.loads
  | .read body => body.loads
  | .write body => body.loads

/-- The declaration is one of Lua. -/
def Decl.loads : Decl → Bool
  | .typedef tinfo name =>
    tinfo.value != .STRUCT || (luaName name.toList && luaName tinfo.name.toList)
  | .struct _ name items => luaName name.toList && items.all Item.loads

/-! ## Programs -/

/-- A program, which shows what it does with the buffer. -/
abbrev LuaProgram := Traced LuaFrame BufOp

/-- What a method runs with; `call` runs the method of a class on the fields of an object. -/
structure LuaEnv where
  decls : List Decl
  wire : Wire
  init : String → Expr → LuaVal
  literal : String → Val
  call : Bool → String → LuaProgram

/-- The type whose `>>` and `<<` are the functions `readFuncName` and `writeFuncName`. -/
def TypeValue.scalarType : TypeValue → Option CxxType
  | base t => some (.base t)
  | STRING => some .string
  | STRUCT => none

namespace LuaEnv

/-- A step without the buffer. -/
def step (next : LuaFrame → Option LuaFrame) : LuaProgram := fun f =>
  match next f with
  | some f' => { ending := .next, state := f', trace := [] }
  | none => Traced.stuck f

/-- A method returns where there are not enough bytes. -/
def checkSize (n : Nat) : LuaProgram := fun f =>
  match f.lookup "buffer" with
  | .buffer =>
    { ending := if n + f.buf.rpos ≤ f.buf.wpos then .next else .returned, state := f, trace := [] }
  | _ => Traced.stuck f

/-- The name of the method. -/
def methodName (isRead : Bool) : String := if isRead then "read" else "write"

variable (E : LuaEnv)

/-- `x = buffer:getX()`. -/
def get (x : LuaVar) (t : CxxType) : LuaProgram := fun f =>
  match f.lookup "buffer",
    x.set { f with buf := f.buf.take (E.wire.get t f.buf.rest).2 }
      (.scalar (E.wire.get t f.buf.rest).1) with
  | .buffer, some f' =>
    { ending := .next, state := f', trace := [.read t (E.wire.get t f.buf.rest).1] }
  | _, _ => Traced.stuck f

/-- `buffer:pushX(x)`. -/
def put (x : LuaVar) (t : CxxType) : LuaProgram := fun f =>
  match f.lookup "buffer", x.get f with
  | .buffer, some (.scalar v) =>
    { ending := .next, state := { f with buf := f.buf.append (E.wire.put t v) }
      trace := [.write t v] }
  | _, _ => Traced.stuck f

/-- `type:new()`. -/
def new (f : LuaFrame) (type : String) : Option LuaVal :=
  match f.lookup type with
  | .cls S =>
    match f.globals "setmetatable", f.globals S with
    | .fn name, .cls S' =>
      if name = "setmetatable" then some (.obj S' (newFields E.decls E.init S)) else none
    | _, _ => none
  | _ => none

/-- `x:read(buffer)` or `x:write(buffer)`; a field with the name would hide the method. -/
def callOn (isRead : Bool) (x : LuaVar) : LuaProgram := fun f =>
  match x.get f, f.lookup "buffer" with
  | some (.obj S fields), .buffer =>
    match fields (methodName isRead) with
    | .nil =>
      let o := E.call isRead S { self := fields, locals := [], globals := f.globals, buf := f.buf }
      match x.set { f with globals := o.state.globals, buf := o.state.buf } (.obj S o.state.self) with
      | some f' => { ending := o.ending, state := f', trace := o.trace }
      | none => Traced.stuck f
    | _ => Traced.stuck f
  | _, _ => Traced.stuck f

/-- A statement. -/
def simple : LuaSimple → LuaProgram
  | .checkSize n => checkSize n
  | .get x value =>
    match value.scalarType with
    | some t => E.get x t
    | none => Traced.stuck
  | .callRead x => E.callOn true x
  | .localZero x => step fun f => some (f.declare x (.scalar (.num 0)))
  | .localNil x => step fun f => some (f.declare x .nil)
  | .new x type => step fun f => (E.new f type).bind fun v => x.set f v
  | .assign x y => step fun f => (y.get f).bind fun v => x.set f v
  | .localSize x v => step fun f =>
    match (LuaVar.member v).get f with
    | some (.arr vs) => some (f.declare x (.scalar (.num vs.length)))
    | _ => none
  | .put value x =>
    match value.scalarType with
    | some t => E.put x t
    | none => Traced.stuck
  | .callWrite x => E.callOn false x

/-- Statements, one after the other. -/
def simples : List LuaSimple → LuaProgram
  | [] => .skip
  | s :: body => (E.simple s).andThen (simples body)

/-- A block with these variables; its locals end with it. -/
def inBlock (vars : List (String × LuaVal)) (body : LuaProgram) : LuaProgram := fun f =>
  let o := body { f with locals := vars ++ f.locals }
  { ending := o.ending
    state := { o.state with locals := o.state.locals.drop (o.state.locals.length - f.locals.length) }
    trace := o.trace }

/-- `for i = 1, bound, 1 do`. -/
def loop (bound : String) (body : LuaProgram) : LuaProgram := fun f =>
  match f.lookup bound with
  | .scalar (.num n) =>
    Traced.turns (fun k => inBlock [("i", .scalar (.num (k + 1)))] body) n.toNat 0 f
  | _ => Traced.stuck f

/-- A statement or a loop. -/
def stmt : LuaStmt → LuaProgram
  | .simple s => E.simple s
  | .loop bound body => loop bound (E.simples body)

/-- Code, one statement after the other. -/
def code : List LuaStmt → LuaProgram
  | [] => .skip
  | s :: rest => (E.stmt s).andThen (code rest)

/-! ## Bodies -/

/-- The value in a condition. -/
def operand (f : LuaFrame) : Operand → Option LuaVal
  | .var name true => (LuaVar.member name).get f
  | .var name false =>
    some (if name = "true" then .bool true else if name = "false" then .bool false
      else if name = "nil" then .nil else f.lookup name)
  | .num text => some (.scalar (E.literal text))
  | .decimals text => some (.scalar (E.literal text))

/-- Whether the condition holds. -/
def condition (x : Operand) (f : LuaFrame) : Option Bool := (E.operand f x).map LuaVal.truth

/-- What a list says in a `read` or in a `write`. -/
def listCode (isRead : Bool) (tinfo : TypeInfo) (x : String) : List LuaStmt :=
  if isRead then luaReadCode tinfo x else luaWriteCode tinfo x

mutual

/-- The body of a method. -/
def block (isRead : Bool) : Block → LuaProgram
  | .done => .skip
  | .readWriteVar tinfo x next => (E.code (listCode isRead tinfo x)).andThen (block isRead next)
  | .value x exp next =>
    match exp.single with
    | some y =>
      (step fun f => (E.operand f y).bind fun v => (LuaVar.name x).set f v).andThen
        (block isRead next)
    | none => Traced.stuck
  | .ifs cond body rest next =>
    match cond.single with
    | some x =>
      (Traced.branch (E.condition x) (inBlock [] (block isRead body)) (branches isRead rest)).andThen
        (block isRead next)
    | none => Traced.stuck

/-- The branches of an `if`. -/
def branches (isRead : Bool) : Branches → LuaProgram
  | .done => .skip
  | .elseIf cond body rest =>
    match cond.single with
    | some x => Traced.branch (E.condition x) (inBlock [] (block isRead body)) (branches isRead rest)
    | none => Traced.stuck
  | .els body _ => inBlock [] (block isRead body)

end

/-- The method of a class; a later one replaces it. -/
def run (isRead : Bool) (struct : String) : LuaProgram :=
  match E.decls.all Decl.loads, (bodies E.decls struct isRead).getLast? with
  | true, some body => fun f =>
    E.block isRead body { f with locals := [("buffer", .buffer), ("self", .self)] }
  | _, _ => Traced.stuck

end LuaEnv

/-- What the text is run with. -/
structure Interpreter where
  decls : List Decl
  wire : Wire
  init : String → Expr → LuaVal
  literal : String → Val

/-- Run a method, which calls others at most `fuel` deep. -/
def Interpreter.run (L : Interpreter) : Nat → Bool → String → LuaProgram
  | 0 => fun _ _ => Traced.stuck
  | fuel + 1 => LuaEnv.run
      { decls := L.decls, wire := L.wire, init := L.init, literal := L.literal, call := L.run fuel }

end Athena.Idl
