import Athena.ForStd.Traced
import Athena.Native.CxxMethods

/-!
# Whole bodies as C++

The body of a method with its assignments and if statements.  A statement of a list is compiled
as in `CxxMethods`; the program also shows what it does (`CxxEvent`).  An expression is a single
variable or literal.

`literal` is the type and the value of a number, and `convert` how a value is converted to another
type.
-/

namespace Athena.Idl

/-! ## What a program shows -/

/-- A read or a write of the buffer. -/
inductive BufOp where
  | read (t : CxxType) (v : Val)
  | write (t : CxxType) (v : Val)

inductive CxxEvent where
  | op (op : BufOp)
  /-- a list comes to a variable -/
  | listed (sc : Scope) (isRead : Bool) (tinfo : TypeInfo) (x : String)
  /-- a place has been read into -/
  | got (p : Place)
  /-- a vector of `n` elements is asked for its size -/
  | size (n : Nat)
  /-- an element is added to a vector of `n`, in the loop where `i` is `turn` -/
  | push (p : Place) (n : Nat) (turn : Val)
  /-- a condition is evaluated -/
  | test (sc : Scope) (x : Operand) (holds : Bool)
  | assign (x : String)
  /-- a method of an object is called -/
  | enter (isRead : Bool) (struct : String) (v : Val)
  | leave

/-- What it does with the buffer. -/
def CxxEvent.ops : CxxEvent → List BufOp
  | .op b => [b]
  | _ => []

abbrev CxxProgram := Traced Frame CxxEvent

/-- An action that shows what it does. -/
def Action.shown (a : Action) (events : Frame → List CxxEvent) : CxxProgram := fun f =>
  match a f with
  | none => { ending := .stuck, state := f, trace := [] }
  | some (true, f') => { ending := .next, state := f', trace := events f }
  | some (false, f') => { ending := .returned, state := f', trace := events f }

/-- The size of a vector. -/
def Frame.size (f : Frame) (p : Place) : Nat :=
  match f.get p with
  | some (.vec vs) => vs.length
  | _ => 0

/-- What bodies are compiled and run with; `events` is what a method shows that is called. -/
structure CxxEnv extends Env where
  literal : String → CxxType × Val
  convert : CxxType → CxxType → Val → Val
  events : Bool → String → Val → ByteBuf → List CxxEvent

/-- The only operand of an expression. -/
def Expr.single (e : Expr) : Option Operand :=
  if e.neg = false ∧ e.rest = [] then some e.first else none

/-- The types of conditions. -/
def CxxType.isCondition : CxxType → Bool
  | base _ => true
  | buffer => true
  | _ => false

/-- Whether a value is true; the zeros of the floating point types have a sign. -/
def CxxType.truth : CxxType → Val → Option Bool
  | base .FLOAT, .num x => some (decide (x ≠ 0 ∧ x ≠ 2 ^ 31))
  | base .DOUBLE, .num x => some (decide (x ≠ 0 ∧ x ≠ 2 ^ 63))
  | base _, .num x => some (decide (x ≠ 0))
  | buffer, _ => some true
  | _, _ => none

/-- Whether a value of the second type can be assigned to a variable of the first. -/
def CxxType.takes : CxxType → CxxType → Bool
  | base _, base _ => true
  | string, base _ => true
  | t, t' => t == t'

namespace CxxEnv

variable (E : CxxEnv)

/-! ## Statements -/

/-- What a call shows. -/
def callEvents (isRead : Bool) (p : Place) (struct : String) (f : Frame) : List CxxEvent :=
  match f.get p with
  | some v => .enter isRead struct v :: (E.events isRead struct v f.buf ++ [CxxEvent.leave])
  | none => []

/-- What a statement shows. -/
def simpleEvents (sc : Scope) (s : CxxSimple) (f : Frame) : List CxxEvent :=
  match s with
  | .get x =>
    match sc.resolve E.decls x with
    | some (p, t) => [.op (.read t (E.wire.get t f.buf.rest).1), .got p]
    | none => []
  | .callRead x =>
    match sc.resolve E.decls x with
    | some (p, .struct S) => E.callEvents true p S f ++ [CxxEvent.got p]
    | _ => []
  | .declSize _ v =>
    match sc.resolve E.decls v with
    | some (p, _) => [.size (f.size p)]
    | none => []
  | .pushBack v _ =>
    match sc.resolve E.decls v, sc.resolve E.decls "i" with
    | some (p, _), some (.loc i, _) => [.push p (f.size p) (f.loc i)]
    | _, _ => []
  | .put x =>
    match E.resolveLVal sc x with
    | some (p, t) => (f.get p).toList.map fun v => .op (.write t v)
    | none => []
  | .callWrite x =>
    match E.resolveLVal sc x with
    | some (p, .struct S) => E.callEvents false p S f
    | _ => []
  | _ => []

def simple (sc : Scope) (s : CxxSimple) : Option (Scope × CxxProgram) :=
  (E.toEnv.simple sc s).map fun r => (r.1, r.2.shown (E.simpleEvents sc s))

def simples : Scope → List CxxSimple → Option (Scope × CxxProgram)
  | sc, [] => some (sc, .skip)
  | sc, s :: body =>
    match E.simple sc s with
    | none => none
    | some (sc', a) => (simples sc' body).map fun r => (r.1, a.andThen r.2)

/-- `i` is set to the number of the turn. -/
def setTurn (i k : Nat) : CxxProgram := fun f =>
  { ending := .next, state := f.set (.loc i) (.num k), trace := [] }

/-- `for( int i = 0; i< bound; ++i)`. -/
def loop (bound : Place) (i : Nat) (body : CxxProgram) : CxxProgram := fun f =>
  match f.get bound with
  | some (.num n) => Traced.turns (fun k => (setTurn i k).andThen body) n.toNat 0 f
  | _ => Traced.stuck f

def stmt (sc : Scope) : CxxStmt → Option (Scope × CxxProgram)
  | .simple s => E.simple sc s
  | .loop bound body =>
    match sc.resolve E.decls bound, sc.enter.declare "i" (.base .INT32) with
    | some (p, .base .INT32), some inner =>
      (E.simples inner body).map fun r => (sc, loop p sc.vars.length r.2)
    | _, _ => none

def code : Scope → List CxxStmt → Option (Scope × CxxProgram)
  | sc, [] => some (sc, .skip)
  | sc, s :: rest =>
    match E.stmt sc s with
    | none => none
    | some (sc', a) => (code sc' rest).map fun r => (r.1, a.andThen r.2)

/-! ## Expressions -/

/-- The type of an operand, and its value. -/
def operand (sc : Scope) : Operand → Option (CxxType × (Frame → Option Val))
  | .var name _ =>
    if name = "true" then some (.base .UINT8, fun _ => some (.num 1))
    else if name = "false" then some (.base .UINT8, fun _ => some (.num 0))
    else (sc.resolve E.decls name).map fun r => (r.2, fun f => f.get r.1)
  | .num text => some ((E.literal text).1, fun _ => some (E.literal text).2)
  | .decimals text => some ((E.literal text).1, fun _ => some (E.literal text).2)

/-- A condition. -/
def condition (sc : Scope) (x : Operand) : Option (Frame → Option Bool) :=
  match E.operand sc x with
  | some (t, value) => if t.isCondition then some fun f => (value f).bind t.truth else none
  | none => none

/-- `x = exp;`. -/
def assign (sc : Scope) (x : String) (exp : Operand) : Option CxxProgram :=
  match sc.resolve E.decls x, E.operand sc exp with
  | some (p, t), some (t', value) =>
    if t.takes t' then
      some (Action.shown (fun f => (value f).map fun v => (true, f.set p (E.convert t t' v)))
        fun _ => [.assign x])
    else none
  | _, _ => none

/-! ## Bodies -/

/-- `if(x) { a } else { b }`. -/
def ifElse (sc : Scope) (x : Operand) (test : Frame → Option Bool) (a b : CxxProgram) :
    CxxProgram :=
  .branch test ((Traced.emit (.test sc x true)).andThen a)
    ((Traced.emit (.test sc x false)).andThen b)

mutual

def block (isRead : Bool) (sc : Scope) : Block → Option CxxProgram
  | .done => some .skip
  | .readWriteVar tinfo x next =>
    match E.code sc (listCode isRead [(tinfo, x)]) with
    | some (sc', a) =>
      (block isRead sc' next).map fun b =>
        (Traced.emit (.listed sc isRead tinfo x)).andThen (a.andThen b)
    | none => none
  | .value x exp next =>
    match exp.single.bind (E.assign sc x), block isRead sc next with
    | some a, some b => some (a.andThen b)
    | _, _ => none
  | .ifs cond body rest next =>
    match cond.single, cond.single.bind (E.condition sc), block isRead sc.enter body,
      branches isRead sc rest, block isRead sc next with
    | some x, some test, some a, some b, some c => some ((ifElse sc x test a b).andThen c)
    | _, _, _, _, _ => none

def branches (isRead : Bool) (sc : Scope) : Branches → Option CxxProgram
  | .done => some .skip
  | .elseIf cond body rest =>
    match cond.single, cond.single.bind (E.condition sc), block isRead sc.enter body,
      branches isRead sc rest with
    | some x, some test, some a, some b => some (ifElse sc x test a b)
    | _, _, _, _ => none
  -- an `else` has no `else`
  | .els body .done => block isRead sc.enter body
  | .els _ _ => none

end

/-- The `read` or `write` method of a struct. -/
def method (isRead : Bool) (struct : String) : Option CxxProgram :=
  match bodies E.decls struct isRead with
  | [body] => E.block isRead (.method struct) body
  | _ => none

/-- Call a method of an object. -/
def run (isRead : Bool) (struct : String) (v : Val) (buf : ByteBuf) :
    Outcome (Val × ByteBuf) CxxEvent :=
  match E.method isRead struct, v with
  | some a, .obj self =>
    let o := a { self := self, loc := fun _ => .num 0, buf := buf }
    { ending := o.ending, state := (.obj o.state.self, o.state.buf), trace := o.trace }
  | _, _ => Traced.stuck (v, buf)

end CxxEnv

/-! ## Calls -/

/-- What the text is compiled with. -/
structure Compiler where
  decls : List Decl
  wire : Wire
  uninit : String → String → Val
  literal : String → CxxType × Val
  convert : CxxType → CxxType → Val → Val

/-- What a method runs with, which calls others by `call`, at most `fuel` deep. -/
def Compiler.env (C : Compiler) (fuel : Nat)
    (call : Bool → String → Val → ByteBuf → Outcome (Val × ByteBuf) CxxEvent) : CxxEnv where
  decls := C.decls
  wire := C.wire
  fresh := freshVal C.decls C.uninit fuel
  call := fun isRead S v buf => (call isRead S v buf).result
  literal := C.literal
  convert := C.convert
  events := fun isRead S v buf => (call isRead S v buf).trace

/-- Run a method, which calls others at most `fuel` deep. -/
def Compiler.run (C : Compiler) :
    Nat → Bool → String → Val → ByteBuf → Outcome (Val × ByteBuf) CxxEvent
  | 0 => fun _ _ v buf => Traced.stuck (v, buf)
  | fuel + 1 => (C.env fuel (C.run fuel)).run

end Athena.Idl
