import Athena.Native.Generate

/-!
# The Lua generator (`core/serialization/GenerateLua.cpp`)

`GenerateLua` appends text to one file.  What reads and writes a variable depends on the
indentation only, and is given as the text that is appended.
-/

namespace Athena.Idl

structure GenerateLua where
  file : String
  /-- the members of the struct, as `new` sets them -/
  vecVar : List String
  structName : String
  isRead : Bool
  depth : Nat

namespace GenerateLua

def readFuncName : TypeValue → String
  | .base .INT8 => "getInt8"
  | .base .UINT8 => "getUint8"
  | .base .INT16 => "getInt16"
  | .base .UINT16 => "getUint16"
  | .base .INT32 => "getInt32"
  | .base .UINT32 => "getUint32"
  | .base .INT64 => "getInt64"
  | .base .UINT64 => "getUint64"
  | .base .FLOAT => "getFloat"
  | .base .DOUBLE => "getDouble"
  | .STRING => "getString"
  | .STRUCT => ""

def writeFuncName : TypeValue → String
  | .base .INT8 => "pushInt8"
  | .base .UINT8 => "pushUint8"
  | .base .INT16 => "pushInt16"
  | .base .UINT16 => "pushUint16"
  | .base .INT32 => "pushInt32"
  | .base .UINT32 => "pushUint32"
  | .base .INT64 => "pushInt64"
  | .base .UINT64 => "pushUint64"
  | .base .FLOAT => "pushFloat"
  | .base .DOUBLE => "pushDouble"
  | .STRING => "pushString"
  | .STRUCT => ""

def getInitStr (tinfo : TypeInfo) : String :=
  match tinfo.value with
  | .base _ => "0"
  | .STRING => "\"\""
  | .STRUCT => "\x7b\x7d"

/-- What `genRead(int value, std::string & varName, int depth)` appends. -/
def genReadValue (depth : Nat) (value : TypeValue) (varName : String) (dep : Nat) : String :=
  (match value with
    | .base t =>
      "if " ++ toString t.size ++ " + buffer:rpos() > buffer:wpos() then return false end\n" ++
        tabs (depth + dep) ++ (varName ++ " = buffer:" ++ readFuncName value ++ "()")
    | .STRING => varName ++ " = buffer:" ++ readFuncName value ++ "()"
    | .STRUCT => "if " ++ varName ++ ":read(buffer) == false then return false end") ++ ";\n"

/-- What `genWrite(int value, std::string & varName)` appends. -/
def genWriteValue (value : TypeValue) (varName : String) : String :=
  (match value with
    | .base _ => "buffer:" ++ writeFuncName value ++ "(" ++ varName ++ ")"
    | .STRING => "buffer:" ++ writeFuncName value ++ "(" ++ varName ++ ")"
    | .STRUCT => varName ++ ":write(buffer)") ++ ";\n"

/-- What `genRead(TypeInfo * tinfo, std::string & varName)` appends. -/
def genRead (depth : Nat) (tinfo : TypeInfo) (varName : String) : String :=
  let self_var := "self." ++ varName
  if tinfo.vector then
    let len_var := "len_" ++ varName
    let r_var := "temp_" ++ varName
    tabs depth ++ ("local " ++ len_var ++ " = 0\n") ++
      tabs depth ++ ("local " ++ r_var ++ " = nil\n") ++
      tabs depth ++ genReadValue depth (.base .INT32) len_var 0 ++
      tabs depth ++ ("for i = 1, " ++ len_var ++ ", 1 do\n") ++
      (if tinfo.value = .STRUCT then
        tabs (depth + 1) ++ (r_var ++ " = " ++ tinfo.name ++ ":new()\n") else "") ++
      tabs (depth + 1) ++ genReadValue depth tinfo.value r_var 1 ++
      tabs (depth + 1) ++ (self_var ++ "[i] = " ++ r_var ++ "\n") ++
      tabs depth ++ "end\n"
  else
    (if tinfo.value = .STRUCT then
      tabs depth ++ (self_var ++ " = " ++ tinfo.name ++ ":new()\n") else "") ++
      tabs depth ++ genReadValue depth tinfo.value self_var 0

/-- What `genWrite(TypeInfo * tinfo, std::string & varName)` appends. -/
def genWrite (depth : Nat) (tinfo : TypeInfo) (varName : String) : String :=
  let self_var := "self." ++ varName
  if tinfo.vector then
    let len_var := "len_" ++ varName
    let w_var := self_var ++ "[i]"
    tabs depth ++ ("local " ++ len_var ++ " = #" ++ self_var ++ "\n") ++
      tabs depth ++ genWriteValue (.base .INT32) len_var ++
      tabs depth ++ ("for i = 1, " ++ len_var ++ ", 1 do \n") ++
      tabs (depth + 1) ++ genWriteValue tinfo.value w_var ++
      tabs depth ++ "end\n"
  else tabs depth ++ genWriteValue tinfo.value self_var

def append (gen : GenerateLua) (text : String) : GenerateLua := { gen with file := gen.file ++ text }

/-- `setDepth(dep)`. -/
def setDepth (gen : GenerateLua) (dep : Nat) : GenerateLua := gen.append (tabs (gen.depth + dep))

def onTypedef (gen : GenerateLua) (tinfo : TypeInfo) (name : String) : GenerateLua :=
  if tinfo.value = .STRUCT then (((gen.append name).append " = ").append tinfo.name).append "\n"
  else gen

def onEnterStruct (gen : GenerateLua) (name : String) : GenerateLua :=
  let gen := { gen with structName := name, depth := 0 }
  ((gen.append name).append " = \x7b\x7d\n").append
    (gen.structName ++ ".__index = " ++ gen.structName ++ "\n")

def onExitStruct (gen : GenerateLua) : GenerateLua :=
  let gen := gen.append ("function " ++ gen.structName ++ ":new()\n")
  let gen := (gen.setDepth 1).append "local o = \x7b\x7d\n"
  let gen := (gen.setDepth 1).append ("setmetatable(o, " ++ gen.structName ++ ")\n")
  let gen := gen.vecVar.foldl (fun gen var => (gen.setDepth 1).append ("o." ++ var ++ "\n")) gen
  let gen := { gen with vecVar := [] }
  let gen := (gen.setDepth 1).append "return o\n"
  (gen.append "end").append "\n\n"

def onVariable (gen : GenerateLua) (tinfo : TypeInfo) (varName exp : String) : GenerateLua :=
  let tempstr :=
    if tinfo.vector then varName ++ " = \x7b\x7d"
    else if exp ≠ "" then varName ++ " = " ++ exp
    else varName ++ " = " ++ getInitStr tinfo
  { gen with vecVar := gen.vecVar ++ [tempstr] }

def onEnterRead (gen : GenerateLua) : GenerateLua :=
  let gen := { gen.setDepth 0 with isRead := true }
  let gen := gen.append ("function " ++ gen.structName ++ ":read(buffer)\n")
  { gen with depth := gen.depth + 1 }

def onExitRead (gen : GenerateLua) : GenerateLua :=
  let gen := ((gen.setDepth 0).append "return true;\n").append "end\n"
  { gen with depth := gen.depth - 1 }

def onEnterWrite (gen : GenerateLua) : GenerateLua :=
  let gen := { gen.setDepth 0 with isRead := false }
  let gen := gen.append ("function " ++ gen.structName ++ ":write(buffer)\n")
  { gen with depth := gen.depth + 1 }

def onExitWrite (gen : GenerateLua) : GenerateLua :=
  let gen := gen.append "end\n"
  { gen with depth := gen.depth - 1 }

def onValue (gen : GenerateLua) (varName exp : String) : GenerateLua :=
  ((((gen.setDepth 0).append varName).append " = ").append exp).append "\n"

def onReadWriteVar (gen : GenerateLua) (tinfo : TypeInfo) (varName : String) : GenerateLua :=
  if gen.isRead then gen.append (genRead gen.depth tinfo varName)
  else gen.append (genWrite gen.depth tinfo varName)

def onEnterIf (gen : GenerateLua) : GenerateLua := (gen.setDepth 0).append "if"

def onElseIf (gen : GenerateLua) : GenerateLua :=
  let gen := { gen with depth := gen.depth - 1 }
  (gen.setDepth 0).append "elseif"

def onIfCond (gen : GenerateLua) (condition : String) : GenerateLua :=
  let gen := ((gen.append " ").append condition).append " then\n"
  { gen with depth := gen.depth + 1 }

def onElse (gen : GenerateLua) : GenerateLua :=
  let gen := { gen with depth := gen.depth - 1 }.append "\n"
  let gen := (gen.setDepth 0).append "else\n"
  { gen with depth := gen.depth + 1 }

def onExitIf (gen : GenerateLua) : GenerateLua :=
  let gen := { gen with depth := gen.depth - 1 }.append "\n"
  (gen.setDepth 0).append "end\n"

def onImport (gen : GenerateLua) (filename : String) : GenerateLua :=
  (((gen.append "require").append "(\"").append filename).append "\")\n"

def init : GenerateLua :=
  { file := "", vecVar := [], structName := "", isRead := false, depth := 0 }

def on (gen : GenerateLua) : Event → GenerateLua
  | .onTypedef tinfo name => gen.onTypedef tinfo name
  | .onEnterStruct name => gen.onEnterStruct name
  | .onExitStruct => gen.onExitStruct
  | .onVariable tinfo varName exp => gen.onVariable tinfo varName exp
  | .onEnterRead => gen.onEnterRead
  | .onExitRead => gen.onExitRead
  | .onEnterWrite => gen.onEnterWrite
  | .onExitWrite => gen.onExitWrite
  | .onValue varName exp => gen.onValue varName exp
  | .onReadWriteVar tinfo varName => gen.onReadWriteVar tinfo varName
  | .onEnterIf => gen.onEnterIf
  | .onElseIf => gen.onElseIf
  | .onIfCond condition => gen.onIfCond condition
  | .onElse => gen.onElse
  | .onExitIf => gen.onExitIf
  | .onImport filename => gen.onImport filename

def run (gen : GenerateLua) (evs : List Event) : GenerateLua := evs.foldl on gen

end GenerateLua

end Athena.Idl
