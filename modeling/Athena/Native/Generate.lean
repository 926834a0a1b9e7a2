import Athena.Native.IdlEvents

/-!
# The C++ generator (`core/serialization/Generate.cpp`)

`Generate` appends text to a header and to a source file.  What a read or write list says
in C++ is kept beside it as data (`readCode`, `writeCode`), and `onReadWriteVar_cpp` says
that the text is this data, printed: the statements that run are those that are written.
-/

namespace Athena.Idl

/-! ## Statements -/

/-- What is written: a variable or an element of a vector. -/
inductive CxxLVal where
  | var (x : String)
  /-- `v[i]` -/
  | at (v : String)
  deriving DecidableEq, Repr

/-- The statements that the generator writes for a value. -/
inductive CxxSimple where
  /-- `if(sizeof(x) + buffer->rpos() > buffer->wpos()) return false;` -/
  | checkSize (x : String)
  /-- `*buffer >> x;` -/
  | get (x : String)
  /-- `if(x.read(buffer) == false) return false;` -/
  | callRead (x : String)
  /-- `int x;` -/
  | declInt (x : String)
  /-- `type x;` -/
  | decl (type x : String)
  /-- `int x = v.size();` -/
  | declSize (x v : String)
  /-- `v.push_back(x);` -/
  | pushBack (v x : String)
  /-- `*buffer << x;` -/
  | put (x : CxxLVal)
  /-- `x.write(buffer);` -/
  | callWrite (x : CxxLVal)
  deriving DecidableEq, Repr

inductive CxxStmt where
  | simple (s : CxxSimple)
  /-- `for( int i = 0; i< bound; ++i) { body }` -/
  | loop (bound : String) (body : List CxxSimple)
  deriving DecidableEq, Repr

def CxxLVal.text : CxxLVal → String
  | var x => x
  | .at v => v ++ "[i]"

def CxxSimple.text : CxxSimple → String
  | checkSize x => "if(sizeof(" ++ x ++ ") + buffer->rpos() > buffer->wpos()) return false;\n"
  | get x => "*buffer >> " ++ x ++ ";\n"
  | callRead x => "if(" ++ x ++ ".read(buffer) == false) return false;\n"
  | declInt x => "int " ++ x ++ ";\n"
  | decl type x => type ++ " " ++ x ++ ";\n"
  | declSize x v => "int " ++ x ++ " = " ++ v ++ ".size();\n"
  | pushBack v x => v ++ ".push_back(" ++ x ++ ");\n"
  | put x => "*buffer << " ++ x.text ++ ";\n"
  | callWrite x => x.text ++ ".write(buffer);\n"

/-- `setDepth`. -/
def tabs : Nat → String
  | 0 => ""
  | n + 1 => "\t" ++ tabs n

def printSimple (depth : Nat) : List CxxSimple → String
  | [] => ""
  | s :: body => tabs depth ++ s.text ++ printSimple depth body

/-- A statement a line, indented. -/
def printCode (depth : Nat) : List CxxStmt → String
  | [] => ""
  | .simple s :: code => tabs depth ++ s.text ++ printCode depth code
  | .loop bound body :: code =>
    tabs depth ++ ("for( int i = 0; i< " ++ bound ++ "; ++i) \x7b \n") ++
      printSimple (depth + 1) body ++ tabs depth ++ "\x7d\n" ++ printCode depth code

/-- `getStdName`. -/
def getStdName (name : String) : String := if name = "string" then "std::string" else name

/-- `genRead` of a value. -/
def readValue (value : TypeValue) (x : String) : List CxxSimple :=
  match value with
  | .base _ => [.checkSize x, .get x]
  | .STRING => [.get x]
  | .STRUCT => [.callRead x]

/-- `genRead` of a member. -/
def readCode (tinfo : TypeInfo) (x : String) : List CxxStmt :=
  if tinfo.vector then
    CxxStmt.simple (.declInt ("len_" ++ x)) ::
      (readValue (.base .INT32) ("len_" ++ x)).map .simple ++
      [CxxStmt.loop ("len_" ++ x) (CxxSimple.decl (getStdName tinfo.name) ("temp_" ++ x) ::
        readValue tinfo.value ("temp_" ++ x) ++ [CxxSimple.pushBack x ("temp_" ++ x)])]
  else (readValue tinfo.value x).map .simple

/-- `genWrite` of a value. -/
def writeValue (value : TypeValue) (x : CxxLVal) : CxxSimple :=
  match value with
  | .base _ => .put x
  | .STRING => .put x
  | .STRUCT => .callWrite x

/-- `genWrite` of a member. -/
def writeCode (tinfo : TypeInfo) (x : String) : List CxxStmt :=
  if tinfo.vector then
    [.simple (.declSize ("len_" ++ x) x), .simple (writeValue (.base .INT32) (.var ("len_" ++ x))),
      .loop ("len_" ++ x) [writeValue tinfo.value (.at x)]]
  else [.simple (writeValue tinfo.value (.var x))]

/-- What a list says in a `read` or in a `write`. -/
def listCode (isRead : Bool) (vars : List (TypeInfo × String)) : List CxxStmt :=
  vars.flatMap fun v => if isRead then readCode v.1 v.2 else writeCode v.1 v.2

/-! ## The text -/

/-- `Generate`: the header, the source file and where the generator is. -/
structure Generate where
  h : String
  cpp : String
  structName : String
  isRead : Bool
  depth : Nat

namespace Generate

def appendCpp (gen : Generate) (text : String) : Generate := { gen with cpp := gen.cpp ++ text }

def appendH (gen : Generate) (text : String) : Generate := { gen with h := gen.h ++ text }

/-- `setDepth(dep)`. -/
def setDepth (gen : Generate) (dep : Nat) : Generate := gen.appendCpp (tabs (gen.depth + dep))

def onTypedef (gen : Generate) (tinfo : TypeInfo) (name : String) : Generate :=
  if tinfo.vector then
    if tinfo.vec_name ≠ "" then gen.appendH ("typedef " ++ tinfo.vec_name ++ " " ++ name ++ ";\n")
    else gen.appendH ("typedef std::vector<" ++ getStdName tinfo.name ++ "> " ++ name ++ ";\n")
  else gen.appendH ("typedef " ++ getStdName tinfo.name ++ " " ++ name ++ ";\n")

def onEnterStruct (gen : Generate) (name : String) : Generate :=
  ({ gen with structName := name }.appendH ("struct " ++ name ++ "\n\x7b\n")).appendH "public:\n"

def onExitStruct (gen : Generate) : Generate := gen.appendH "\x7d; \n"

def onVariable (gen : Generate) (tinfo : TypeInfo) (varName exp : String) : Generate :=
  let gen := gen.appendH "\t"
  let gen :=
    if tinfo.vector then
      if tinfo.vec_name ≠ "" then gen.appendH (tinfo.vec_name ++ " " ++ varName)
      else gen.appendH ("std::vector<" ++ getStdName tinfo.name ++ "> " ++ varName)
    else
      let gen := gen.appendH (getStdName tinfo.name ++ " " ++ varName)
      if exp ≠ "" then (gen.appendH " = ").appendH exp else gen
  gen.appendH "; \n"

def onEnterRead (gen : Generate) : Generate :=
  let gen := ({ gen with isRead := true }.appendH "\t").appendH "bool read(ByteBuffer * buffer);\n"
  let gen := gen.appendCpp ("bool " ++ gen.structName ++ "::read(ByteBuffer * buffer)\n\x7b\n")
  { gen with depth := gen.depth + 1 }

def onExitRead (gen : Generate) : Generate :=
  let gen := ((gen.setDepth 0).appendCpp "return true;\n").appendCpp "\x7d\n"
  { gen with depth := gen.depth - 1 }

def onEnterWrite (gen : Generate) : Generate :=
  let gen := ({ gen with isRead := false }.appendH "\t").appendH "void write(ByteBuffer * buffer);\n"
  let gen := gen.appendCpp ("void " ++ gen.structName ++ "::write(ByteBuffer * buffer)\n\x7b\n")
  { gen with depth := gen.depth + 1 }

def onExitWrite (gen : Generate) : Generate :=
  let gen := gen.appendCpp "\x7d\n"
  { gen with depth := gen.depth - 1 }

/-- `genRead(int value, std::string & varName, int depth)`. -/
def genReadValue (gen : Generate) (value : TypeValue) (varName : String) (depth : Nat) : Generate :=
  let gen :=
    match value with
    | .base _ =>
      let gen := gen.appendCpp
        ("if(sizeof(" ++ varName ++ ") + buffer->rpos() > buffer->wpos()) return false;\n")
      (gen.setDepth depth).appendCpp ("*buffer >> " ++ varName)
    | .STRING => gen.appendCpp ("*buffer >> " ++ varName)
    | .STRUCT => gen.appendCpp ("if(" ++ varName ++ ".read(buffer) == false) return false")
  gen.appendCpp ";\n"

/-- `genRead(TypeInfo * tinfo, std::string & varName)`. -/
def genRead (gen : Generate) (tinfo : TypeInfo) (varName : String) : Generate :=
  if tinfo.vector then
    let len_var := "len_" ++ varName
    let r_var := "temp_" ++ varName
    let gen := (gen.setDepth 0).appendCpp ("int " ++ len_var ++ ";\n")
    let gen := (gen.setDepth 0).genReadValue (.base .INT32) len_var 0
    let gen := (gen.setDepth 0).appendCpp ("for( int i = 0; i< " ++ len_var ++ "; ++i) \x7b \n")
    let gen := (gen.setDepth 1).appendCpp (getStdName tinfo.name ++ " " ++ r_var ++ ";\n")
    let gen := (gen.setDepth 1).genReadValue tinfo.value r_var 1
    let gen := (gen.setDepth 1).appendCpp (varName ++ ".push_back(" ++ r_var ++ ");\n")
    (gen.setDepth 0).appendCpp "\x7d\n"
  else (gen.setDepth 0).genReadValue tinfo.value varName 0

/-- `genWrite(int value, std::string & varName)`. -/
def genWriteValue (gen : Generate) (value : TypeValue) (varName : String) : Generate :=
  let gen :=
    match value with
    | .base _ => gen.appendCpp ("*buffer << " ++ varName)
    | .STRING => gen.appendCpp ("*buffer << " ++ varName)
    | .STRUCT => gen.appendCpp (varName ++ ".write(buffer)")
  gen.appendCpp ";\n"

/-- `genWrite(TypeInfo * tinfo, std::string & varName)`. -/
def genWrite (gen : Generate) (tinfo : TypeInfo) (varName : String) : Generate :=
  if tinfo.vector then
    let len_var := "len_" ++ varName
    let gen := (gen.setDepth 0).appendCpp ("int " ++ len_var ++ " = " ++ varName ++ ".size();\n")
    let gen := (gen.setDepth 0).genWriteValue (.base .INT32) len_var
    let gen := (gen.setDepth 0).appendCpp ("for( int i = 0; i< " ++ len_var ++ "; ++i) \x7b \n")
    let w_var := varName ++ "[i]"
    let gen := (gen.setDepth 1).genWriteValue tinfo.value w_var
    (gen.setDepth 0).appendCpp "\x7d\n"
  else (gen.setDepth 0).genWriteValue tinfo.value varName

def onReadWriteVar (gen : Generate) (tinfo : TypeInfo) (varName : String) : Generate :=
  if gen.isRead then gen.genRead tinfo varName else gen.genWrite tinfo varName

def onValue (gen : Generate) (varName exp : String) : Generate :=
  ((((gen.setDepth 0).appendCpp varName).appendCpp " = ").appendCpp exp).appendCpp "; \n"

def onEnterIf (gen : Generate) : Generate := (gen.setDepth 0).appendCpp "if"

def onElseIf (gen : Generate) : Generate :=
  let gen := { gen with depth := gen.depth - 1 }
  (gen.setDepth 0).appendCpp "\x7d else if"

def onIfCond (gen : Generate) (condition : String) : Generate :=
  let gen := ((gen.appendCpp "(").appendCpp condition).appendCpp ")\n"
  let gen := (gen.setDepth 0).appendCpp "\x7b\n"
  { gen with depth := gen.depth + 1 }

def onElse (gen : Generate) : Generate :=
  let gen := { gen with depth := gen.depth - 1 }.appendCpp "\n"
  let gen := (gen.setDepth 0).appendCpp "\x7delse\x7b\n"
  { gen with depth := gen.depth + 1 }

def onExitIf (gen : Generate) : Generate :=
  let gen := { gen with depth := gen.depth - 1 }.appendCpp "\n"
  (gen.setDepth 0).appendCpp "\x7d\n"

def onImport (gen : Generate) (filename : String) : Generate :=
  ((gen.appendH "#include \"").appendH filename).appendH ".h\"\n"

/-- The generator after its constructor and `init`. -/
def init (filename : String) : Generate where
  h := "#pragma once \n" ++ "\n" ++ "#include \"BaseType.h\" \n" ++ "#include <vector> \n" ++
    "class ByteBuffer;\n\n"
  cpp := "#include \"" ++ filename ++ ".h\" \n" ++ "#include \"ByteBuffer.h\" \n"
  structName := ""
  isRead := false
  depth := 0

def on (gen : Generate) : Event → Generate
  | .onTypedef tinfo name => gen.onTypedef tinfo name
  | .onEnterStruct name => gen.onEnterStruct name
  | .onExitStruct => gen.onExitStruct
  | .onVariable tinfo varName exp => gen.onVariable tinfo varName exp
  | .onEnterRead => gen.onEnterRead
  | .onExitRead => gen.onExitRead
  | .onEnterWrite => gen.onEnterWrite
  | .onExitWrite => gen.onExitWrite
  | .onValue varName exp => gen.onValue varName exp
  | .onReadWriteVar tinfo varName => gen.onReadWriteVar tinfo varName
  | .onEnterIf => gen.onEnterIf
  | .onElseIf => gen.onElseIf
  | .onIfCond condition => gen.onIfCond condition
  | .onElse => gen.onElse
  | .onExitIf => gen.onExitIf
  | .onImport filename => gen.onImport filename

def run (gen : Generate) (evs : List Event) : Generate := evs.foldl on gen

/-! ## The text is the code -/

/-- Text is appended to the source file. -/
@[simp] theorem appendCpp_cpp (gen : Generate) (text : String) :
    (gen.appendCpp text).cpp = gen.cpp ++ text := rfl

/-- Appending does not change the indentation, -/
@[simp] theorem appendCpp_depth (gen : Generate) (text : String) :
    (gen.appendCpp text).depth = gen.depth := rfl

/-- nor whether a `read` is written. -/
@[simp] theorem appendCpp_isRead (gen : Generate) (text : String) :
    (gen.appendCpp text).isRead = gen.isRead := rfl

/-- The indentation is written as tabs. -/
@[simp] theorem setDepth_cpp (gen : Generate) (dep : Nat) :
    (gen.setDepth dep).cpp = gen.cpp ++ tabs (gen.depth + dep) := rfl

/-- Writing the indentation does not change it, -/
@[simp] theorem setDepth_depth (gen : Generate) (dep : Nat) :
    (gen.setDepth dep).depth = gen.depth := rfl

/-- nor whether a `read` is written. -/
@[simp] theorem setDepth_isRead (gen : Generate) (dep : Nat) :
    (gen.setDepth dep).isRead = gen.isRead := rfl

/-- The read of a value does not change the indentation, -/
@[simp] theorem genReadValue_depth (gen : Generate) (value : TypeValue) (x : String) (depth : Nat) :
    (gen.genReadValue value x depth).depth = gen.depth := by
  cases value <;> rfl

/-- nor whether a `read` is written. -/
@[simp] theorem genReadValue_isRead (gen : Generate) (value : TypeValue) (x : String)
    (depth : Nat) : (gen.genReadValue value x depth).isRead = gen.isRead := by
  cases value <;> rfl

/-- The write of a value changes neither, -/
@[simp] theorem genWriteValue_isRead (gen : Generate) (value : TypeValue) (x : String) :
    (gen.genWriteValue value x).isRead = gen.isRead := by
  cases value <;> rfl

/-- so that the next statement is indented as it was. -/
@[simp] theorem genWriteValue_depth (gen : Generate) (value : TypeValue) (x : String) :
    (gen.genWriteValue value x).depth = gen.depth := by
  cases value <;> rfl

/-- A value that is read, after the indentation of its first line. -/
theorem genReadValue_cpp (gen : Generate) (value : TypeValue) (x : String) (depth : Nat) :
    ((gen.setDepth depth).genReadValue value x depth).cpp =
      gen.cpp ++ printSimple (gen.depth + depth) (readValue value x) := by
  cases value <;>
    simp [genReadValue, readValue, printSimple, CxxSimple.text, String.append_assoc]

/-- The text for the write of a value is its statement, printed. -/
theorem genWriteValue_cpp (gen : Generate) (value : TypeValue) (x : CxxLVal) (depth : Nat) :
    ((gen.setDepth depth).genWriteValue value x.text).cpp =
      gen.cpp ++ printSimple (gen.depth + depth) [writeValue value x] := by
  cases value <;>
    simp [genWriteValue, writeValue, printSimple, CxxSimple.text, String.append_assoc]

/-- Statements without loops are printed the same as code and as a loop's body. -/
theorem printCode_simple (depth : Nat) (body : List CxxSimple) :
    printCode depth (body.map .simple) = printSimple depth body := by
  induction body with
  | nil => rfl
  | cons s body ih => rw [List.map_cons, printCode, printSimple, ih]

/-- Statements are printed one after another. -/
theorem printSimple_append (depth : Nat) (a b : List CxxSimple) :
    printSimple depth (a ++ b) = printSimple depth a ++ printSimple depth b := by
  induction a with
  | nil => simp [printSimple]
  | cons s a ih => simp [printSimple, ih, String.append_assoc]

/-- Code is printed one piece after another. -/
theorem printCode_append (depth : Nat) (a b : List CxxStmt) :
    printCode depth (a ++ b) = printCode depth a ++ printCode depth b := by
  induction a with
  | nil => simp [printCode]
  | cons s a ih => cases s <;> simp [printCode, ih, String.append_assoc]

/-- The text for the read of a member is its code, printed. -/
theorem genRead_cpp (gen : Generate) (tinfo : TypeInfo) (x : String) :
    (gen.genRead tinfo x).cpp = gen.cpp ++ printCode gen.depth (readCode tinfo x) := by
  rw [genRead, readCode]
  split
  · simp only [appendCpp_cpp, setDepth_cpp, genReadValue_cpp, appendCpp_depth, setDepth_depth,
      genReadValue_depth, List.cons_append, printCode, printCode_append, printCode_simple,
      printSimple, printSimple_append, CxxSimple.text, String.append_assoc, Nat.add_zero,
      String.append_empty]
  · rw [genReadValue_cpp, printCode_simple, Nat.add_zero]

/-- The text for the write of a member is its code, printed. -/
theorem genWrite_cpp (gen : Generate) (tinfo : TypeInfo) (x : String) :
    (gen.genWrite tinfo x).cpp = gen.cpp ++ printCode gen.depth (writeCode tinfo x) := by
  have hlen := fun gen => genWriteValue_cpp gen (.base .INT32) (.var ("len_" ++ x)) 0
  have hvar := fun gen => genWriteValue_cpp gen tinfo.value (.var x) 0
  have hat := fun gen => genWriteValue_cpp gen tinfo.value (.at x) 1
  simp only [CxxLVal.text] at hlen hvar hat
  rw [genWrite, writeCode]
  split
  · simp only [appendCpp_cpp, setDepth_cpp, hlen, hat, appendCpp_depth, setDepth_depth,
      genWriteValue_depth, printCode, printSimple, CxxSimple.text, String.append_assoc,
      Nat.add_zero, String.append_empty]
  · rw [hvar, Nat.add_zero]
    rfl

/-- An event of a list appends the code of its member. -/
theorem onReadWriteVar_cpp (gen : Generate) (tinfo : TypeInfo) (x : String) :
    (gen.onReadWriteVar tinfo x).cpp =
      gen.cpp ++ printCode gen.depth (listCode gen.isRead [(tinfo, x)]) := by
  rw [onReadWriteVar, listCode, List.flatMap_singleton]
  cases gen.isRead with
  | true => exact gen.genRead_cpp tinfo x
  | false => exact gen.genWrite_cpp tinfo x

/-- The events of a list. -/
def onList (gen : Generate) (vars : List (TypeInfo × String)) : Generate :=
  vars.foldl (fun gen v => gen.onReadWriteVar v.1 v.2) gen

/-- An event of a list does not change the indentation, -/
@[simp] theorem onReadWriteVar_depth (gen : Generate) (tinfo : TypeInfo) (x : String) :
    (gen.onReadWriteVar tinfo x).depth = gen.depth := by
  rw [onReadWriteVar, genRead, genWrite]
  repeat' split
  all_goals simp

/-- nor whether a `read` is written. -/
@[simp] theorem onReadWriteVar_isRead (gen : Generate) (tinfo : TypeInfo) (x : String) :
    (gen.onReadWriteVar tinfo x).isRead = gen.isRead := by
  rw [onReadWriteVar, genRead, genWrite]
  repeat' split
  all_goals simp

/-- The events of a list append the code of the list. -/
theorem onList_cpp (gen : Generate) (vars : List (TypeInfo × String)) :
    (gen.onList vars).cpp = gen.cpp ++ printCode gen.depth (listCode gen.isRead vars) := by
  induction vars generalizing gen with
  | nil => simp [onList, listCode, printCode]
  | cons v vars ih =>
    have hnext := ih (gen.onReadWriteVar v.1 v.2)
    rw [onReadWriteVar_depth, onReadWriteVar_isRead, onReadWriteVar_cpp, String.append_assoc,
      ← printCode_append, listCode, listCode, ← List.flatMap_append] at hnext
    exact hnext

end Generate

end Athena.Idl
