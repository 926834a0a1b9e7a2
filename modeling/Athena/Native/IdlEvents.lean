import Athena.Native.ExprText

/-!
# The events of the IDL parser (`core/serialization/Event.h`)

What the parser of a file tells its `Event`, in order.  Imported files are parsed without an
event.
-/

namespace Athena.Idl

/-- The calls of `Event`. -/
inductive Event where
  | onTypedef (tinfo : TypeInfo) (name : String)
  | onEnterStruct (name : String)
  | onExitStruct
  | onVariable (tinfo : TypeInfo) (varName exp : String)
  | onEnterRead
  | onExitRead
  | onEnterWrite
  | onExitWrite
  | onValue (varName exp : String)
  | onReadWriteVar (tinfo : TypeInfo) (varName : String)
  | onEnterIf
  | onElseIf
  | onIfCond (condition : String)
  | onElse
  | onExitIf
  | onImport (filename : String)
  deriving DecidableEq, Repr

section

/-! `text` is how the parser writes an expression. -/

variable (text : Expr → String)

mutual

def Block.events : Block → List Event
  | .done => []
  | .readWriteVar tinfo varName next => .onReadWriteVar tinfo varName :: next.events
  | .value varName exp next => .onValue varName (text exp) :: next.events
  | .ifs cond body rest next =>
    .onEnterIf :: .onIfCond (text cond) :: (body.events ++ (rest.events ++ .onExitIf :: next.events))

def Branches.events : Branches → List Event
  | .done => []
  | .elseIf cond body rest => .onElseIf :: .onIfCond (text cond) :: (body.events ++ rest.events)
  | .els body rest => .onElse :: (body.events ++ rest.events)

end

def Item.events : Item → List Event
  | .var tinfo varName exp => [.onVariable tinfo varName (exp.elim "" text)]
  | .read body => .onEnterRead :: (body.events text ++ [Event.onExitRead])
  | .write body => .onEnterWrite :: (body.events text ++ [Event.onExitWrite])

def Decl.events : Decl → List Event
  | .typedef tinfo name => [.onTypedef tinfo name]
  | .struct _ name items =>
    .onEnterStruct name :: (items.flatMap (Item.events text) ++ [Event.onExitStruct])

end

/-- `getFileNameByFilePath`. -/
def getFileNameByFilePath (filepath : String) : String :=
  let separator := if filepath.toList.contains '\\' then '\\' else '/'
  let name := (filepath.toList.reverse.takeWhile (· != separator)).reverse
  if name.contains '.' then .ofList ((name.reverse.dropWhile (· != '.')).drop 1).reverse
  else .ofList name

namespace Parser

/-- `start` with an event; `typedef` and `struct` put what they declare first. -/
def events (text : Expr → String) (files : String → Option (List Tok)) :
    Nat → String → ParserState → List Tok → Option (List Event)
  | 0, _, _, _ => none
  | fuel + 1, file, st, toks =>
    match toks with
    | [] => some []
    | .sym ';' :: toks => events text files fuel file st toks
    | .TYPEDEF :: toks => do
      let (st, toks) ← typedef st toks
      let rest ← events text files fuel file st toks
      some (st.decls.head?.elim [] (Decl.events text) ++ rest)
    | .STRUCT :: toks => do
      let (st, toks) ← struct file st fuel toks
      let rest ← events text files fuel file st toks
      some (st.decls.head?.elim [] (Decl.events text) ++ rest)
    | .IMPORT :: toks => do
      let filename := getFileDir file ++ (importName toks).1
      let imported ← files filename
      let st ← start files fuel filename st imported
      let rest ← events text files fuel file st (importName toks).2
      some (.onImport (getFileNameByFilePath filename) :: rest)
    | _ => none

/-- The parser accepts the file and makes these calls. -/
def Sends (text : Expr → String) (files : String → Option (List Tok)) (file : String)
    (evs : List Event) : Prop :=
  ∃ fuel toks, files file = some toks ∧ events text files fuel file .init toks = some evs

/-- Adding events does not make a parse fail. -/
theorem isSome_bind_some {α β : Type} (x : Option α) (f : α → β) :
    (x.bind fun a => some (f a)).isSome = x.isSome := by
  cases x <;> rfl

/-- A parser with an event accepts what one without accepts. -/
theorem events_isSome (text : Expr → String) (files : String → Option (List Tok)) (fuel : Nat)
    (file : String) (st : ParserState) (toks : List Tok) :
    (events text files fuel file st toks).isSome = (start files fuel file st toks).isSome := by
  induction fuel generalizing file st toks with
  | zero => rfl
  | succ fuel ih =>
    cases toks with
    | nil => rfl
    | cons tok toks =>
      cases tok with
      | TYPEDEF =>
        simp only [start, events]
        cases typedef st toks with
        | none => rfl
        | some p => exact (isSome_bind_some _ _).trans (ih file p.1 p.2)
      | STRUCT =>
        simp only [start, events]
        cases struct file st fuel toks with
        | none => rfl
        | some p => exact (isSome_bind_some _ _).trans (ih file p.1 p.2)
      | IMPORT =>
        simp only [start, events, Option.bind_eq_bind]
        cases files (getFileDir file ++ (importName toks).1) with
        | none => rfl
        | some imported =>
          simp only [Option.bind_some]
          cases start files fuel (getFileDir file ++ (importName toks).1) st imported with
          | none => rfl
          | some st' => exact (isSome_bind_some _ _).trans (ih file st' _)
      | sym c =>
        by_cases hsemicolon : c = ';'
        · subst hsemicolon
          exact ih file st toks
        · simp [start, events, hsemicolon]
      -- no other token is a declaration
      | _ => rfl

end Parser

end Athena.Idl
