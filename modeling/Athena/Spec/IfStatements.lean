import Athena.Native.GenerateLua

/-!
# If statements of a file

A file as it should be has if statements with at most one `else`, the last branch (`Stmts`,
`Chain`).  Its events are those that the parser makes, and its texts those that the generators
write: `Generate` one `else` at most, `GenerateLua` one `end`.

`elseOnce` finds an `else` behind an `else` among any events.
-/

namespace Athena.Idl

/-! ## Programs -/

mutual

/-- The statements of a function. -/
inductive Stmts where
  | done
  | readWriteVar (tinfo : TypeInfo) (varName : String) (next : Stmts)
  | value (varName exp : String) (next : Stmts)
  | ifs (cond : String) (body : Stmts) (rest : Chain) (next : Stmts)

/-- What follows the first branch of an if statement. -/
inductive Chain where
  | done
  | elseIf (cond : String) (body : Stmts) (rest : Chain)
  /-- nothing follows the branch of `else` -/
  | els (body : Stmts)

end

/-- A member of a struct. -/
inductive Member where
  | var (tinfo : TypeInfo) (varName exp : String)
  | read (body : Stmts)
  | write (body : Stmts)

/-- What stands at the top of a file. -/
inductive Toplevel where
  | typedef (tinfo : TypeInfo) (name : String)
  | struct (name : String) (members : List Member)
  | imported (filename : String)

/-! ## Their events -/

mutual

/-- The events of statements, in their order. -/
def Stmts.events : Stmts → List Event
  | .done => []
  | .readWriteVar tinfo varName next => .onReadWriteVar tinfo varName :: next.events
  | .value varName exp next => .onValue varName exp :: next.events
  | .ifs cond body rest next =>
    .onEnterIf :: .onIfCond cond :: (body.events ++ (rest.events ++ .onExitIf :: next.events))

/-- The events of the branches behind the first. -/
def Chain.events : Chain → List Event
  | .done => []
  | .elseIf cond body rest => .onElseIf :: .onIfCond cond :: (body.events ++ rest.events)
  | .els body => .onElse :: body.events

end

/-- The events of a member: methods are entered and left. -/
def Member.events : Member → List Event
  | .var tinfo varName exp => [.onVariable tinfo varName exp]
  | .read body => .onEnterRead :: (body.events ++ [Event.onExitRead])
  | .write body => .onEnterWrite :: (body.events ++ [Event.onExitWrite])

/-- The events of a declaration. -/
def Toplevel.events : Toplevel → List Event
  | .typedef tinfo name => [.onTypedef tinfo name]
  | .struct name members =>
    .onEnterStruct name :: (members.flatMap Member.events ++ [Event.onExitStruct])
  | .imported filename => [.onImport filename]

/-! ## Their C++ -/

mutual

/-- The C++ text of statements, indented. -/
def Stmts.cxxText (isRead : Bool) (depth : Nat) : Stmts → String
  | .done => ""
  | .readWriteVar tinfo varName next =>
    printCode depth (listCode isRead [(tinfo, varName)]) ++ next.cxxText isRead depth
  | .value varName exp next =>
    tabs depth ++ (varName ++ " = " ++ exp ++ "; \n") ++ next.cxxText isRead depth
  | .ifs cond body rest next =>
    tabs depth ++ ("if(" ++ cond ++ ")\n") ++ tabs depth ++ "\x7b\n" ++
      body.cxxText isRead (depth + 1) ++ rest.cxxText isRead depth ++ "\n" ++ tabs depth ++
      "\x7d\n" ++ next.cxxText isRead depth

/-- The C++ text of the branches behind the first. -/
def Chain.cxxText (isRead : Bool) (depth : Nat) : Chain → String
  | .done => ""
  | .elseIf cond body rest =>
    tabs depth ++ ("\x7d else if(" ++ cond ++ ")\n") ++ tabs depth ++ "\x7b\n" ++
      body.cxxText isRead (depth + 1) ++ rest.cxxText isRead depth
  | .els body => "\n" ++ tabs depth ++ "\x7delse\x7b\n" ++ body.cxxText isRead (depth + 1)

end

/-- The C++ text of a method; variables are in the header only. -/
def Member.cxxText (structName : String) : Member → String
  | .var _ _ _ => ""
  | .read body =>
    "bool " ++ structName ++ "::read(ByteBuffer * buffer)\n\x7b\n" ++ body.cxxText true 1 ++
      tabs 1 ++ "return true;\n" ++ "\x7d\n"
  | .write body =>
    "void " ++ structName ++ "::write(ByteBuffer * buffer)\n\x7b\n" ++ body.cxxText false 1 ++
      "\x7d\n"

/-- The text in the source file. -/
def Toplevel.cxxText : Toplevel → String
  | .typedef _ _ => ""
  | .struct name members => .join (members.map (Member.cxxText name))
  | .imported _ => ""

/-! ## Their Lua -/

mutual

/-- The Lua text of statements, indented. -/
def Stmts.luaText (isRead : Bool) (depth : Nat) : Stmts → String
  | .done => ""
  | .readWriteVar tinfo varName next =>
    (if isRead then GenerateLua.genRead depth tinfo varName
      else GenerateLua.genWrite depth tinfo varName) ++ next.luaText isRead depth
  | .value varName exp next =>
    tabs depth ++ (varName ++ " = " ++ exp ++ "\n") ++ next.luaText isRead depth
  | .ifs cond body rest next =>
    tabs depth ++ ("if " ++ cond ++ " then\n") ++ body.luaText isRead (depth + 1) ++
      rest.luaText isRead depth ++ "\n" ++ tabs depth ++ "end\n" ++ next.luaText isRead depth

/-- The Lua text of the branches behind the first. -/
def Chain.luaText (isRead : Bool) (depth : Nat) : Chain → String
  | .done => ""
  | .elseIf cond body rest =>
    tabs depth ++ ("elseif " ++ cond ++ " then\n") ++ body.luaText isRead (depth + 1) ++
      rest.luaText isRead depth
  | .els body => "\n" ++ tabs depth ++ "else\n" ++ body.luaText isRead (depth + 1)

end

/-- The Lua text of a method; variables are set in `new`. -/
def Member.luaText (structName : String) : Member → String
  | .var _ _ _ => ""
  | .read body =>
    "function " ++ structName ++ ":read(buffer)\n" ++ body.luaText true 1 ++ tabs 1 ++
      "return true;\n" ++ "end\n"
  | .write body =>
    "function " ++ structName ++ ":write(buffer)\n" ++ body.luaText false 1 ++ "end\n"

/-- How `new` sets a member. -/
def Member.luaVar : Member → List String
  | .var tinfo varName exp =>
    [if tinfo.vector then varName ++ " = \x7b\x7d"
      else if exp ≠ "" then varName ++ " = " ++ exp
      else varName ++ " = " ++ GenerateLua.getInitStr tinfo]
  | _ => []

/-- The Lua text of a declaration: `new` comes behind the methods. -/
def Toplevel.luaText : Toplevel → String
  | .typedef tinfo name =>
    if tinfo.value = .STRUCT then name ++ " = " ++ tinfo.name ++ "\n" else ""
  | .struct name members =>
    name ++ " = \x7b\x7d\n" ++ (name ++ ".__index = " ++ name ++ "\n") ++
      .join (members.map (Member.luaText name)) ++ ("function " ++ name ++ ":new()\n") ++
      tabs 1 ++ "local o = \x7b\x7d\n" ++ tabs 1 ++ ("setmetatable(o, " ++ name ++ ")\n") ++
      .join ((members.flatMap Member.luaVar).map fun var => tabs 1 ++ ("o." ++ var ++ "\n")) ++
      tabs 1 ++ "return o\n" ++ "end" ++ "\n\n"
  | .imported filename => "require(\"" ++ filename ++ "\")\n"

/-! ## The generators write these texts -/

namespace Generate

/-- No event, no text. -/
@[simp] theorem run_nil (gen : Generate) : gen.run [] = gen := rfl

/-- The first event is handled before the others. -/
@[simp] theorem run_cons (gen : Generate) (ev : Event) (evs : List Event) :
    gen.run (ev :: evs) = (gen.on ev).run evs := rfl

/-- Events are handled one list after another. -/
@[simp] theorem run_append (gen : Generate) (evs evs' : List Event) :
    gen.run (evs ++ evs') = (gen.run evs).run evs' := List.foldl_append

/-- Two pieces of text are one. -/
@[simp] theorem appendCpp_appendCpp (gen : Generate) (a b : String) :
    (gen.appendCpp a).appendCpp b = gen.appendCpp (a ++ b) := by
  rw [appendCpp, appendCpp, appendCpp, String.append_assoc]

/-- The generator in a branch. -/
def deeper (gen : Generate) : Generate := { gen with depth := gen.depth + 1 }

/-- A branch is indented once more, -/
@[simp] theorem deeper_depth (gen : Generate) : gen.deeper.depth = gen.depth + 1 := rfl

/-- and belongs to the same method. -/
@[simp] theorem deeper_isRead (gen : Generate) : gen.deeper.isRead = gen.isRead := rfl

/-- Text may be appended before the branch is entered. -/
theorem deeper_appendCpp (gen : Generate) (text : String) :
    gen.deeper.appendCpp text = (gen.appendCpp text).deeper := rfl

/-- A condition is written behind what begins the branch, and enters it. -/
theorem onIfCond_eq (gen : Generate) (cond : String) : gen.onIfCond cond =
    (gen.appendCpp ("(" ++ cond ++ ")\n" ++ tabs gen.depth ++ "\x7b\n")).deeper := by
  simp only [onIfCond, deeper, setDepth, appendCpp_appendCpp, appendCpp_depth, Nat.add_zero]

/-- `else if` leaves the branch before it. -/
theorem onElseIf_deeper (gen : Generate) : gen.deeper.onElseIf =
    gen.appendCpp (tabs gen.depth ++ "\x7d else if") := by
  simp only [onElseIf, deeper, setDepth, appendCpp_appendCpp, Nat.add_sub_cancel, Nat.add_zero]

/-- `else` leaves the branch before it and enters its own. -/
theorem onElse_deeper (gen : Generate) : gen.deeper.onElse =
    (gen.appendCpp ("\n" ++ tabs gen.depth ++ "\x7delse\x7b\n")).deeper := by
  simp only [onElse, deeper, setDepth, appendCpp_appendCpp, appendCpp_depth, Nat.add_sub_cancel,
    Nat.add_zero]

/-- The end of an if statement leaves its last branch. -/
theorem onExitIf_deeper (gen : Generate) : gen.deeper.onExitIf =
    gen.appendCpp ("\n" ++ tabs gen.depth ++ "\x7d\n") := by
  simp only [onExitIf, deeper, setDepth, appendCpp_appendCpp, appendCpp_depth, Nat.add_sub_cancel,
    Nat.add_zero]

/-- No text. -/
theorem appendCpp_empty (gen : Generate) : gen.appendCpp "" = gen := by
  rw [appendCpp, String.append_empty]

/-- The source file's text is not in the header. -/
@[simp] theorem appendCpp_h (gen : Generate) (text : String) : (gen.appendCpp text).h = gen.h := rfl

/-- The text does not change the struct that is written. -/
@[simp] theorem appendCpp_structName (gen : Generate) (text : String) :
    (gen.appendCpp text).structName = gen.structName := rfl

/-- What the generator writes for a value stands in the source file. -/
theorem genReadValue_h (gen : Generate) (value : TypeValue) (x : String) (depth : Nat) :
    (gen.genReadValue value x depth).h = gen.h ∧
      (gen.genReadValue value x depth).structName = gen.structName := by
  cases value <;> exact ⟨rfl, rfl⟩

/-- The write of a value leaves the header and the struct's name alone. -/
theorem genWriteValue_h (gen : Generate) (value : TypeValue) (x : String) :
    (gen.genWriteValue value x).h = gen.h ∧
      (gen.genWriteValue value x).structName = gen.structName := by
  cases value <;> exact ⟨rfl, rfl⟩

/-- So does an event of a list. -/
theorem onReadWriteVar_h (gen : Generate) (tinfo : TypeInfo) (x : String) :
    (gen.onReadWriteVar tinfo x).h = gen.h ∧
      (gen.onReadWriteVar tinfo x).structName = gen.structName := by
  rw [onReadWriteVar, genRead, genWrite]
  repeat' split
  all_goals simp [setDepth, genReadValue_h, genWriteValue_h]

/-- An event of a list is the text of its code. -/
theorem onReadWriteVar_eq (gen : Generate) (tinfo : TypeInfo) (x : String) :
    gen.onReadWriteVar tinfo x =
      gen.appendCpp (printCode gen.depth (listCode gen.isRead [(tinfo, x)])) := by
  have hcpp := onReadWriteVar_cpp gen tinfo x
  have hdepth := onReadWriteVar_depth gen tinfo x
  have hisRead := onReadWriteVar_isRead gen tinfo x
  obtain ⟨hh, hname⟩ := onReadWriteVar_h gen tinfo x
  generalize gen.onReadWriteVar tinfo x = gen' at *
  obtain ⟨h, cpp, structName, isRead, depth⟩ := gen'
  subst hcpp hdepth hisRead hh hname
  rfl

end Generate

mutual

/-- For the events of statements `Generate` writes their text. -/
theorem Stmts.run_cxx (s : Stmts) (gen : Generate) :
    gen.run s.events = gen.appendCpp (s.cxxText gen.isRead gen.depth) := by
  cases s with
  | done => exact gen.appendCpp_empty.symm
  | readWriteVar tinfo varName next =>
    rw [Stmts.events, Generate.run_cons, Generate.on, Generate.onReadWriteVar_eq, next.run_cxx,
      Generate.appendCpp_appendCpp]
    rfl
  | value varName exp next =>
    rw [Stmts.events, Generate.run_cons, next.run_cxx]
    simp only [Generate.on, Generate.onValue, Generate.setDepth, Generate.appendCpp_appendCpp,
      Generate.appendCpp_depth, Generate.appendCpp_isRead, Stmts.cxxText, String.append_assoc,
      Nat.add_zero]
  | ifs cond body rest next =>
    have henter (gen : Generate) : gen.on .onEnterIf = gen.appendCpp (tabs gen.depth ++ "if") :=
      Generate.appendCpp_appendCpp gen _ _
    have hcond (gen : Generate) : gen.on (.onIfCond cond) = gen.onIfCond cond := rfl
    have hexit (gen : Generate) : gen.on .onExitIf = gen.onExitIf := rfl
    -- the branches stand between the event that enters the statement and the one that leaves it
    rw [Stmts.events, Generate.run_cons, henter, Generate.run_cons, hcond, Generate.onIfCond_eq,
      Generate.run_append, body.run_cxx, Generate.deeper_appendCpp, Generate.run_append,
      rest.run_cxx, Generate.run_cons, hexit, Generate.onExitIf_deeper, next.run_cxx]
    simp only [Generate.appendCpp_appendCpp, Generate.appendCpp_depth, Generate.appendCpp_isRead,
      Generate.deeper_depth, Generate.deeper_isRead, Stmts.cxxText, String.append_assoc,
      show "if(" = "if" ++ "(" from rfl]

/-- For the events of the branches behind the first it writes theirs. -/
theorem Chain.run_cxx (c : Chain) (gen : Generate) :
    gen.deeper.run c.events = (gen.appendCpp (c.cxxText gen.isRead gen.depth)).deeper := by
  cases c with
  | done => rw [Chain.cxxText, Generate.appendCpp_empty]; rfl
  | elseIf cond body rest =>
    have helse (gen : Generate) : gen.on .onElseIf = gen.onElseIf := rfl
    have hcond (gen : Generate) : gen.on (.onIfCond cond) = gen.onIfCond cond := rfl
    rw [Chain.events, Generate.run_cons, helse, Generate.onElseIf_deeper, Generate.run_cons, hcond,
      Generate.onIfCond_eq, Generate.run_append, body.run_cxx, Generate.deeper_appendCpp,
      rest.run_cxx]
    simp only [Generate.appendCpp_appendCpp, Generate.appendCpp_depth, Generate.appendCpp_isRead,
      Generate.deeper_depth, Generate.deeper_isRead, Chain.cxxText, String.append_assoc,
      show "\x7d else if(" = "\x7d else if" ++ "(" from rfl]
  | els body =>
    have helse (gen : Generate) : gen.on .onElse = gen.onElse := rfl
    rw [Chain.events, Generate.run_cons, helse, Generate.onElse_deeper, body.run_cxx,
      Generate.deeper_appendCpp]
    simp only [Generate.appendCpp_appendCpp, Generate.appendCpp_depth, Generate.appendCpp_isRead,
      Generate.deeper_depth, Generate.deeper_isRead, Chain.cxxText, String.append_assoc]

end

/-- For the events of a member `Generate` writes its text, and ends where it began. -/
theorem Member.run_cxx (m : Member) (gen : Generate) (hdepth : gen.depth = 0) :
    (gen.run m.events).cpp = gen.cpp ++ m.cxxText gen.structName ∧ (gen.run m.events).depth = 0 ∧
      (gen.run m.events).structName = gen.structName := by
  cases m with
  | var tinfo varName exp =>
    -- the variable is written to the header only
    have hvar : (gen.onVariable tinfo varName exp).cpp = gen.cpp ∧
        (gen.onVariable tinfo varName exp).depth = gen.depth ∧
        (gen.onVariable tinfo varName exp).structName = gen.structName := by
      rw [Generate.onVariable]
      dsimp only
      repeat' split
      all_goals exact ⟨rfl, rfl, rfl⟩
    rw [Member.cxxText, String.append_empty, ← hdepth]
    exact hvar
  | read body =>
    rw [Member.events, Generate.run_cons, Generate.run_append, body.run_cxx, Member.cxxText]
    refine ⟨?_, ?_, rfl⟩
    -- the body is indented once
    · show gen.cpp ++ ("bool " ++ gen.structName ++ "::read(ByteBuffer * buffer)\n\x7b\n") ++
        body.cxxText true (gen.depth + 1) ++ tabs (gen.depth + 1) ++ "return true;\n" ++ "\x7d\n" = _
      simp only [hdepth, String.append_assoc]
    · show gen.depth + 1 - 1 = 0
      omega
  | write body =>
    rw [Member.events, Generate.run_cons, Generate.run_append, body.run_cxx, Member.cxxText]
    refine ⟨?_, ?_, rfl⟩
    · show gen.cpp ++ ("void " ++ gen.structName ++ "::write(ByteBuffer * buffer)\n\x7b\n") ++
        body.cxxText false (gen.depth + 1) ++ "\x7d\n" = _
      simp only [hdepth, String.append_assoc]
    · show gen.depth + 1 - 1 = 0
      omega

/-- So it does for all members of a struct. -/
theorem Member.run_cxx_all (ms : List Member) (gen : Generate) (hdepth : gen.depth = 0) :
    (gen.run (ms.flatMap Member.events)).cpp =
        gen.cpp ++ .join (ms.map (Member.cxxText gen.structName)) ∧
      (gen.run (ms.flatMap Member.events)).depth = 0 := by
  induction ms generalizing gen with
  | nil => exact ⟨String.append_empty.symm, hdepth⟩
  | cons m ms ih =>
    obtain ⟨hcpp, hdepth', hname⟩ := m.run_cxx gen hdepth
    obtain ⟨hcpp', hdepth''⟩ := ih (gen.run m.events) hdepth'
    rw [List.flatMap_cons, Generate.run_append]
    refine ⟨?_, hdepth''⟩
    rw [hcpp', hcpp, hname, List.map_cons, String.join_cons, String.append_assoc]

/-- For the events of a declaration `Generate` writes its text. -/
theorem Toplevel.run_cxx (t : Toplevel) (gen : Generate) (hdepth : gen.depth = 0) :
    (gen.run t.events).cpp = gen.cpp ++ t.cxxText ∧ (gen.run t.events).depth = 0 := by
  cases t with
  | typedef tinfo name =>
    have htypedef : (gen.onTypedef tinfo name).cpp = gen.cpp ∧
        (gen.onTypedef tinfo name).depth = gen.depth := by
      rw [Generate.onTypedef]
      repeat' split
      all_goals exact ⟨rfl, rfl⟩
    rw [Toplevel.cxxText, String.append_empty, ← hdepth]
    exact htypedef
  | struct name members =>
    obtain ⟨hcpp, hdepth'⟩ := Member.run_cxx_all members (gen.onEnterStruct name) hdepth
    rw [Toplevel.events, Generate.run_cons, Generate.run_append]
    exact ⟨hcpp, hdepth'⟩
  | imported filename => exact ⟨String.append_empty.symm, hdepth⟩

/-- What `Generate` writes into the source file. -/
theorem run_cxx_all (ts : List Toplevel) (gen : Generate) (hdepth : gen.depth = 0) :
    (gen.run (ts.flatMap Toplevel.events)).cpp = gen.cpp ++ .join (ts.map Toplevel.cxxText) := by
  induction ts generalizing gen with
  | nil => exact String.append_empty.symm
  | cons t ts ih =>
    obtain ⟨hcpp, hdepth'⟩ := t.run_cxx gen hdepth
    rw [List.flatMap_cons, Generate.run_append, ih _ hdepth', hcpp, List.map_cons, String.join_cons,
      String.append_assoc]

namespace GenerateLua

/-- No event, no text. -/
@[simp] theorem run_nil (gen : GenerateLua) : gen.run [] = gen := rfl

/-- The first event is handled before the others. -/
@[simp] theorem run_cons (gen : GenerateLua) (ev : Event) (evs : List Event) :
    gen.run (ev :: evs) = (gen.on ev).run evs := rfl

/-- Events are handled one list after another. -/
@[simp] theorem run_append (gen : GenerateLua) (evs evs' : List Event) :
    gen.run (evs ++ evs') = (gen.run evs).run evs' := List.foldl_append

/-- Two pieces of text are one. -/
@[simp] theorem append_append (gen : GenerateLua) (a b : String) :
    (gen.append a).append b = gen.append (a ++ b) := by
  rw [append, append, append, String.append_assoc]

/-- Text does not change the indentation, -/
@[simp] theorem append_depth (gen : GenerateLua) (text : String) :
    (gen.append text).depth = gen.depth := rfl

/-- nor whether a `read` is written. -/
@[simp] theorem append_isRead (gen : GenerateLua) (text : String) :
    (gen.append text).isRead = gen.isRead := rfl

/-- No text. -/
theorem append_empty (gen : GenerateLua) : gen.append "" = gen := by
  rw [append, String.append_empty]

/-- The generator in a branch. -/
def deeper (gen : GenerateLua) : GenerateLua := { gen with depth := gen.depth + 1 }

/-- A branch is indented once more, -/
@[simp] theorem deeper_depth (gen : GenerateLua) : gen.deeper.depth = gen.depth + 1 := rfl

/-- and belongs to the same method. -/
@[simp] theorem deeper_isRead (gen : GenerateLua) : gen.deeper.isRead = gen.isRead := rfl

/-- Text may be appended before the branch is entered. -/
theorem deeper_append (gen : GenerateLua) (text : String) :
    gen.deeper.append text = (gen.append text).deeper := rfl

/-- A condition is written behind what begins the branch, and enters it. -/
theorem onIfCond_eq (gen : GenerateLua) (cond : String) :
    gen.onIfCond cond = (gen.append (" " ++ cond ++ " then\n")).deeper := by
  simp only [onIfCond, deeper, append_append]

/-- `elseif` leaves the branch before it. -/
theorem onElseIf_deeper (gen : GenerateLua) :
    gen.deeper.onElseIf = gen.append (tabs gen.depth ++ "elseif") := by
  simp only [onElseIf, deeper, setDepth, append_append, Nat.add_sub_cancel, Nat.add_zero]

/-- `else` leaves the branch before it and enters its own. -/
theorem onElse_deeper (gen : GenerateLua) :
    gen.deeper.onElse = (gen.append ("\n" ++ tabs gen.depth ++ "else\n")).deeper := by
  simp only [onElse, deeper, setDepth, append_append, append_depth, Nat.add_sub_cancel,
    Nat.add_zero]

/-- The `end` of an if statement leaves its last branch. -/
theorem onExitIf_deeper (gen : GenerateLua) :
    gen.deeper.onExitIf = gen.append ("\n" ++ tabs gen.depth ++ "end\n") := by
  simp only [onExitIf, deeper, setDepth, append_append, append_depth, Nat.add_sub_cancel,
    Nat.add_zero]

end GenerateLua

mutual

/-- For the events of statements `GenerateLua` writes their text. -/
theorem Stmts.run_lua (s : Stmts) (gen : GenerateLua) :
    gen.run s.events = gen.append (s.luaText gen.isRead gen.depth) := by
  cases s with
  | done => exact gen.append_empty.symm
  | readWriteVar tinfo varName next =>
    have hvar (gen : GenerateLua) : gen.on (.onReadWriteVar tinfo varName) =
        gen.append (if gen.isRead then GenerateLua.genRead gen.depth tinfo varName
          else GenerateLua.genWrite gen.depth tinfo varName) := by
      rw [GenerateLua.on, GenerateLua.onReadWriteVar]
      split <;> rfl
    rw [Stmts.events, GenerateLua.run_cons, hvar, next.run_lua, GenerateLua.append_append]
    rfl
  | value varName exp next =>
    rw [Stmts.events, GenerateLua.run_cons, next.run_lua]
    simp only [GenerateLua.on, GenerateLua.onValue, GenerateLua.setDepth,
      GenerateLua.append_append, GenerateLua.append_depth, GenerateLua.append_isRead,
      Stmts.luaText, String.append_assoc, Nat.add_zero]
  | ifs cond body rest next =>
    have henter (gen : GenerateLua) : gen.on .onEnterIf = gen.append (tabs gen.depth ++ "if") :=
      GenerateLua.append_append gen _ _
    have hcond (gen : GenerateLua) : gen.on (.onIfCond cond) = gen.onIfCond cond := rfl
    have hexit (gen : GenerateLua) : gen.on .onExitIf = gen.onExitIf := rfl
    -- the branches stand between the event that enters the statement and the one that leaves it
    rw [Stmts.events, GenerateLua.run_cons, henter, GenerateLua.run_cons, hcond,
      GenerateLua.onIfCond_eq, GenerateLua.run_append, body.run_lua, GenerateLua.deeper_append,
      GenerateLua.run_append, rest.run_lua, GenerateLua.run_cons, hexit,
      GenerateLua.onExitIf_deeper, next.run_lua]
    simp only [GenerateLua.append_append, GenerateLua.append_depth, GenerateLua.append_isRead,
      GenerateLua.deeper_depth, GenerateLua.deeper_isRead, Stmts.luaText, String.append_assoc,
      show "if " = "if" ++ " " from rfl]

/-- For the events of the branches behind the first it writes theirs. -/
theorem Chain.run_lua (c : Chain) (gen : GenerateLua) :
    gen.deeper.run c.events = (gen.append (c.luaText gen.isRead gen.depth)).deeper := by
  cases c with
  | done => rw [Chain.luaText, GenerateLua.append_empty]; rfl
  | elseIf cond body rest =>
    have helse (gen : GenerateLua) : gen.on .onElseIf = gen.onElseIf := rfl
    have hcond (gen : GenerateLua) : gen.on (.onIfCond cond) = gen.onIfCond cond := rfl
    rw [Chain.events, GenerateLua.run_cons, helse, GenerateLua.onElseIf_deeper,
      GenerateLua.run_cons, hcond, GenerateLua.onIfCond_eq, GenerateLua.run_append, body.run_lua,
      GenerateLua.deeper_append, rest.run_lua]
    simp only [GenerateLua.append_append, GenerateLua.append_depth, GenerateLua.append_isRead,
      GenerateLua.deeper_depth, GenerateLua.deeper_isRead, Chain.luaText, String.append_assoc,
      show "elseif " = "elseif" ++ " " from rfl]
  | els body =>
    have helse (gen : GenerateLua) : gen.on .onElse = gen.onElse := rfl
    rw [Chain.events, GenerateLua.run_cons, helse, GenerateLua.onElse_deeper, body.run_lua,
      GenerateLua.deeper_append]
    simp only [GenerateLua.append_append, GenerateLua.append_depth, GenerateLua.append_isRead,
      GenerateLua.deeper_depth, GenerateLua.deeper_isRead, Chain.luaText, String.append_assoc]

end

/-- For the events of a member `GenerateLua` writes its method, or keeps the variable for `new`. -/
theorem Member.run_lua (m : Member) (gen : GenerateLua) (hdepth : gen.depth = 0) :
    (gen.run m.events).file = gen.file ++ m.luaText gen.structName ∧
      (gen.run m.events).vecVar = gen.vecVar ++ m.luaVar ∧ (gen.run m.events).depth = 0 ∧
      (gen.run m.events).structName = gen.structName := by
  cases m with
  | var tinfo varName exp => exact ⟨String.append_empty.symm, rfl, hdepth, rfl⟩
  | read body =>
    rw [Member.events, GenerateLua.run_cons, GenerateLua.run_append, body.run_lua, Member.luaText]
    refine ⟨?_, (List.append_nil _).symm, ?_, rfl⟩
    · show gen.file ++ tabs (gen.depth + 0) ++ ("function " ++ gen.structName ++ ":read(buffer)\n") ++
        body.luaText true (gen.depth + 1) ++ tabs (gen.depth + 1) ++ "return true;\n" ++ "end\n" = _
      simp only [hdepth, String.append_assoc, tabs, String.empty_append]
    · show gen.depth + 1 - 1 = 0
      omega
  | write body =>
    rw [Member.events, GenerateLua.run_cons, GenerateLua.run_append, body.run_lua, Member.luaText]
    refine ⟨?_, (List.append_nil _).symm, ?_, rfl⟩
    · show gen.file ++ tabs (gen.depth + 0) ++ ("function " ++ gen.structName ++ ":write(buffer)\n") ++
        body.luaText false (gen.depth + 1) ++ "end\n" = _
      simp only [hdepth, String.append_assoc, tabs, String.empty_append]
    · show gen.depth + 1 - 1 = 0
      omega

/-- So it does for all members of a struct. -/
theorem Member.run_lua_all (ms : List Member) (gen : GenerateLua) (hdepth : gen.depth = 0) :
    (gen.run (ms.flatMap Member.events)).file =
        gen.file ++ .join (ms.map (Member.luaText gen.structName)) ∧
      (gen.run (ms.flatMap Member.events)).vecVar = gen.vecVar ++ ms.flatMap Member.luaVar ∧
      (gen.run (ms.flatMap Member.events)).depth = 0 ∧
      (gen.run (ms.flatMap Member.events)).structName = gen.structName := by
  induction ms generalizing gen with
  | nil => exact ⟨String.append_empty.symm, (List.append_nil _).symm, hdepth, rfl⟩
  | cons m ms ih =>
    obtain ⟨hfile, hvars, hdepth', hname⟩ := m.run_lua gen hdepth
    obtain ⟨hfile', hvars', hdepth'', hname'⟩ := ih (gen.run m.events) hdepth'
    rw [List.flatMap_cons, GenerateLua.run_append]
    refine ⟨?_, ?_, hdepth'', hname'.trans hname⟩
    · rw [hfile', hfile, hname, List.map_cons, String.join_cons, String.append_assoc]
    · rw [hvars', hvars, List.flatMap_cons, List.append_assoc]

/-- `new` sets all members. -/
theorem GenerateLua.new_vars (vars : List String) (gen : GenerateLua) :
    vars.foldl (fun gen var => (gen.setDepth 1).append ("o." ++ var ++ "\n")) gen =
      gen.append (.join (vars.map fun var => tabs (gen.depth + 1) ++ ("o." ++ var ++ "\n"))) := by
  induction vars generalizing gen with
  | nil => exact gen.append_empty.symm
  | cons var vars ih =>
    rw [List.foldl_cons, ih, List.map_cons, String.join_cons, setDepth]
    simp only [append_append, append_depth, String.append_assoc]

/-- The end of a struct writes `new`, which sets the variables that were kept. -/
theorem GenerateLua.onExitStruct_eq (gen : GenerateLua) : gen.onExitStruct =
    { gen.append ("function " ++ gen.structName ++ ":new()\n" ++
        tabs (gen.depth + 1) ++ "local o = \x7b\x7d\n" ++
        tabs (gen.depth + 1) ++ ("setmetatable(o, " ++ gen.structName ++ ")\n") ++
        .join (gen.vecVar.map fun var => tabs (gen.depth + 1) ++ ("o." ++ var ++ "\n")) ++
        tabs (gen.depth + 1) ++ "return o\n" ++ "end" ++ "\n\n") with vecVar := [] } := by
  rw [onExitStruct, new_vars]
  simp only [setDepth, append, String.append_assoc]

/-- For the events of a declaration `GenerateLua` writes its text, and has kept no variable. -/
theorem Toplevel.run_lua (t : Toplevel) (gen : GenerateLua) (hdepth : gen.depth = 0)
    (hvars : gen.vecVar = []) : (gen.run t.events).file = gen.file ++ t.luaText ∧
      (gen.run t.events).depth = 0 ∧ (gen.run t.events).vecVar = [] := by
  cases t with
  | typedef tinfo name =>
    rw [Toplevel.events, GenerateLua.run_cons, GenerateLua.run_nil, GenerateLua.on,
      GenerateLua.onTypedef, Toplevel.luaText]
    -- only the name of a struct is a typedef in Lua
    split
    · simp only [GenerateLua.append_append, String.append_assoc]
      exact ⟨rfl, hdepth, hvars⟩
    · exact ⟨String.append_empty.symm, hdepth, hvars⟩
  | struct name members =>
    obtain ⟨hfile, hvars', hdepth', hname⟩ := Member.run_lua_all members (gen.onEnterStruct name) rfl
    have henter : gen.on (.onEnterStruct name) = gen.onEnterStruct name := rfl
    have hexit (gen : GenerateLua) : gen.on .onExitStruct = gen.onExitStruct := rfl
    rw [Toplevel.events, GenerateLua.run_cons, GenerateLua.run_append, henter,
      GenerateLua.run_cons, GenerateLua.run_nil, hexit, Toplevel.luaText]
    -- `new` comes behind the methods, with the variables that have been kept
    rw [GenerateLua.onExitStruct_eq, hname, hvars', hdepth']
    refine ⟨?_, hdepth', rfl⟩
    have hnew : (gen.onEnterStruct name).vecVar = [] := hvars
    have hfile' : (gen.onEnterStruct name).file = gen.file ++ name ++ " = \x7b\x7d\n" ++
        (name ++ ".__index = " ++ name ++ "\n") := rfl
    rw [hnew, List.nil_append]
    show ((gen.onEnterStruct name).run (members.flatMap Member.events)).file ++ _ = _
    rw [hfile, hfile', show (gen.onEnterStruct name).structName = name from rfl]
    simp only [String.append_assoc, Nat.zero_add]
  | imported filename =>
    rw [Toplevel.events, GenerateLua.run_cons, GenerateLua.run_nil, GenerateLua.on,
      GenerateLua.onImport, Toplevel.luaText]
    simp only [GenerateLua.append_append, String.append_assoc]
    exact ⟨rfl, hdepth, hvars⟩

/-- What `GenerateLua` writes. -/
theorem run_lua_all (ts : List Toplevel) (gen : GenerateLua) (hdepth : gen.depth = 0)
    (hvars : gen.vecVar = []) :
    (gen.run (ts.flatMap Toplevel.events)).file = gen.file ++ .join (ts.map Toplevel.luaText) := by
  induction ts generalizing gen with
  | nil => exact String.append_empty.symm
  | cons t ts ih =>
    obtain ⟨hfile, hdepth', hvars'⟩ := t.run_lua gen hdepth hvars
    rw [List.flatMap_cons, GenerateLua.run_append, ih _ hdepth' hvars', hfile, List.map_cons,
      String.join_cons, String.append_assoc]

end Athena.Idl
