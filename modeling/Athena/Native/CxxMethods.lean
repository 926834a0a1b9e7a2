import Mathlib.Tactic.Ring
import Athena.Native.Generate

/-!
# The generated methods as C++

What a C++ compiler makes of the generated code: the header declares types and members,
names are looked up in the blocks around them and then in the class, and what does not
resolve or has the wrong type is not compiled.  A statement compiles to the action it has
on the object, the locals and the buffer.  `i` and the lengths are `int`, which is `int32`.

`ByteBuffer` is a parameter (`Wire`), and so are the names that the included headers take
(`Headers`).  A method that calls others does so with less `fuel`;
`uninit` is what a member holds that its class does not initialise, or its initialiser.
-/

namespace Athena.Idl

/-! ## The header -/

/-- The types of the generated code; `buffer` is `ByteBuffer *`. -/
inductive CxxType where
  | base (t : BaseType)
  | string
  | struct (name : String)
  | vector (elem : CxxType)
  | buffer
  deriving DecidableEq, Repr

/-- The types that `BaseType.h` and the standard library declare. -/
def builtinTypes : List (String × CxxType) :=
  ("string", .string) :: ("std::string", .string) ::
    [.INT8, .UINT8, .INT16, .UINT16, .INT32, .UINT32, .INT64, .UINT64, .FLOAT, .DOUBLE].map
      fun t => (t.name, CxxType.base t)

/-- The type that a declaration of the header writes. -/
def declaredType (typeNamed : String → Option CxxType) (tinfo : TypeInfo) : Option CxxType :=
  if tinfo.vector then
    if tinfo.vec_name ≠ "" then typeNamed tinfo.vec_name
    else (typeNamed tinfo.name).map .vector
  else typeNamed tinfo.name

/-- The type with a name, the last declaration first. -/
def typeNamed : List Decl → String → Option CxxType
  | [], name => builtinTypes.lookup name
  | .typedef tinfo name' :: decls, name =>
    if name = name' then declaredType (typeNamed decls) tinfo else typeNamed decls name
  | .struct _ name' _ :: decls, name =>
    if name = name' then some (.struct name) else typeNamed decls name

/-- The items of a struct. -/
def itemsOf : List Decl → String → Option (List Item)
  | [], _ => none
  | .typedef _ _ :: decls, name => itemsOf decls name
  | .struct _ name' items :: decls, name =>
    if name = name' then some items else itemsOf decls name

/-- The members that a struct declares. -/
def Item.member : Item → Option (String × TypeInfo)
  | .var tinfo varName _ => some (varName, tinfo)
  | _ => none

/-- The bodies of its `read` or of its `write` methods. -/
def Item.body (isRead : Bool) : Item → Option Block
  | .read body => if isRead then some body else none
  | .write body => if isRead then none else some body
  | _ => none

def members (decls : List Decl) (struct : String) : List (String × TypeInfo) :=
  ((itemsOf decls struct).getD []).filterMap Item.member

def bodies (decls : List Decl) (struct : String) (isRead : Bool) : List Block :=
  ((itemsOf decls struct).getD []).filterMap (Item.body isRead)

/-- The type of a member. -/
def memberType (decls : List Decl) (struct x : String) : Option CxxType :=
  ((members decls struct).lookup x).bind (declaredType (typeNamed decls))

def Decl.name : Decl → String
  | .typedef _ name => name
  | .struct _ name _ => name

/-- The other names in the headers that a generated header includes. -/
def includedNames : List String := ["ByteBuffer", "my_bool", "VOID_FUN"]

/-- A declaration is accepted after others if its name is new, if a `typedef` says what is
    known, or if the struct is from a header that is included again. -/
def Decl.Fits (decls : List Decl) (d : Decl) : Prop :=
  d.name ∉ includedNames ∧
    (typeNamed decls d.name = none ∨
      match d with
      | .typedef tinfo name => declaredType (typeNamed decls) tinfo = typeNamed decls name
      | .struct .. => d ∈ decls)

/-- No type is declared in two ways, nor one that the other headers have. -/
def TypesFit : List Decl → Prop
  | [] => True
  | d :: decls => d.Fits decls ∧ TypesFit decls

/-- The keywords that are no operands. -/
def cppReserved : List String :=
  ["alignas", "alignof", "and", "and_eq", "asm", "auto", "bitand", "bitor", "bool", "break",
    "case", "catch", "char", "char8_t", "char16_t", "char32_t", "class", "compl", "concept",
    "const", "consteval", "constexpr", "constinit", "const_cast", "continue", "co_await",
    "co_return", "co_yield", "decltype", "default", "delete", "do", "double", "dynamic_cast",
    "else", "enum", "explicit", "export", "extern", "float", "for", "friend", "goto", "if",
    "inline", "int", "long", "mutable", "namespace", "new", "noexcept", "not", "not_eq",
    "operator", "or", "or_eq", "private", "protected", "public", "register",
    "reinterpret_cast", "requires", "return", "short", "signed", "sizeof", "static",
    "static_assert", "static_cast", "struct", "switch", "template", "thread_local", "throw",
    "try", "typedef", "typeid", "typename", "union", "unsigned", "using", "virtual", "void",
    "volatile", "wchar_t", "while", "xor", "xor_eq"]

/-- The keywords, none of which can be declared. -/
def cppKeywords : List String := ["false", "nullptr", "this", "true"] ++ cppReserved

/-- What the included headers take: the macros that they define, and the names that they
    declare outside a namespace, with the type where that is a `typedef`. -/
structure Headers where
  macros : List String
  globals : List (String × Option CxxType)

/-- A name that can be declared. -/
def Headers.Free (headers : Headers) (x : String) : Prop :=
  x ∉ cppKeywords ∧ x ∉ headers.macros

instance (headers : Headers) (x : String) : Decidable (headers.Free x) :=
  inferInstanceAs (Decidable (_ ∧ _))

/-- The name of a type is not that of the namespace `std` or of something in the headers; a
    `typedef` may say what theirs says. -/
def Headers.Admits (headers : Headers) (decls : List Decl) (d : Decl) : Prop :=
  headers.Free d.name ∧ d.name ≠ "std" ∧ ∀ t, (d.name, t) ∈ headers.globals →
    match d with
    | .typedef tinfo _ => t.isSome ∧ t = declaredType (typeNamed decls) tinfo
    | .struct .. => False

/-- The types have names that are left to them. -/
def TypeNamesFit (headers : Headers) : List Decl → Prop
  | [] => True
  | d :: decls => headers.Admits decls d ∧ TypeNamesFit headers decls

/-- The structs of the header. -/
def structNames (decls : List Decl) : List String :=
  decls.filterMap fun
    | .struct _ name _ => some name
    | .typedef .. => none

/-- The type that a declaration of a member writes, if it is not `std::string`. -/
def TypeInfo.written (tinfo : TypeInfo) : Option String :=
  if tinfo.vector = true ∧ tinfo.vec_name ≠ "" then some tinfo.vec_name
  else if tinfo.name = "string" then none
  else some tinfo.name

/-- The members of a class have distinct names that can be declared and do not hide the types
    that the class writes, there is one method of each kind, and the compiler takes the
    initialisers; a vector has none.  A member may be called `std`, which hides no namespace. -/
structure MembersFit (initOk : TypeInfo → Expr → Prop) (headers : Headers) (decls : List Decl)
    (struct : String) : Prop where
  nodup : ((members decls struct).map Prod.fst).Nodup
  free : ∀ x ∈ (members decls struct).map Prod.fst, headers.Free x
  buffer : "ByteBuffer" ∉ (members decls struct).map Prod.fst
  types : ∀ p ∈ members decls struct, ∀ type, p.2.written = some type →
    type ∉ (members decls struct).map Prod.fst
  once : ∀ isRead, (bodies decls struct isRead).length ≤ 1
  inits : ∀ items, itemsOf decls struct = some items → ∀ tinfo x exp,
    .var tinfo x (some exp) ∈ items → tinfo.vector = false → initOk tinfo exp

/-! ## Values -/

inductive Val where
  | num (x : Int)
  | str (s : List UInt8)
  | vec (vs : List Val)
  | obj (members : String → Val)

instance : Inhabited Val := ⟨.num 0⟩

/-- The values of a base type; those of the floating point types are bit patterns. -/
def BaseType.InRange : BaseType → Int → Prop
  | INT8, x => -2 ^ 7 ≤ x ∧ x < 2 ^ 7
  | UINT8, x => 0 ≤ x ∧ x < 2 ^ 8
  | INT16, x => -2 ^ 15 ≤ x ∧ x < 2 ^ 15
  | UINT16, x => 0 ≤ x ∧ x < 2 ^ 16
  | INT32, x => -2 ^ 31 ≤ x ∧ x < 2 ^ 31
  | UINT32, x => 0 ≤ x ∧ x < 2 ^ 32
  | INT64, x => -2 ^ 63 ≤ x ∧ x < 2 ^ 63
  | UINT64, x => 0 ≤ x ∧ x < 2 ^ 64
  | FLOAT, x => 0 ≤ x ∧ x < 2 ^ 32
  | DOUBLE, x => 0 ≤ x ∧ x < 2 ^ 64

instance (t : BaseType) (x : Int) : Decidable (t.InRange x) := by
  cases t <;> exact inferInstanceAs (Decidable (_ ∧ _))

/-- The types that `<<` and `>>` are for. -/
def CxxType.isScalar : CxxType → Bool
  | base _ => true
  | string => true
  | _ => false

/-- The values of these types; a string has no NUL. -/
def Scalar : CxxType → Val → Prop
  | .base t, .num x => t.InRange x
  | .string, .str s => 0 ∉ s
  | _, _ => False

/-- `ByteBuffer`: what `<<` appends, and what `>>` takes off what is unread. -/
structure Wire where
  put : CxxType → Val → List UInt8
  get : CxxType → List UInt8 → Val × List UInt8

/-- `>>` undoes `<<`, and a value of a base type takes its size. -/
structure Wire.Lawful (wire : Wire) : Prop where
  get_put : ∀ t v rest, Scalar t v → wire.get t (wire.put t v ++ rest) = (v, rest)
  size : ∀ t v, Scalar (.base t) v → (wire.put (.base t) v).length = t.size

/-- The read position, and what is unread. -/
structure ByteBuf where
  rpos : Nat
  rest : List UInt8
  deriving DecidableEq

namespace ByteBuf

def wpos (buf : ByteBuf) : Nat := buf.rpos + buf.rest.length

/-- `<<`. -/
def append (buf : ByteBuf) (bytes : List UInt8) : ByteBuf := { buf with rest := buf.rest ++ bytes }

/-- What `>>` leaves. -/
def take (buf : ByteBuf) (rest : List UInt8) : ByteBuf :=
  { rpos := buf.rpos + (buf.rest.length - rest.length), rest := rest }

end ByteBuf

/-! ## Places -/

/-- Where a value is: a local, a member, or an element of a vector, whose number is a local. -/
inductive Place where
  | loc (slot : Nat)
  | mem (x : String)
  | elem (v : Place) (slot : Nat)
  deriving DecidableEq, Repr

/-- The object, the locals and the buffer. -/
structure Frame where
  self : String → Val
  loc : Nat → Val
  buf : ByteBuf

namespace Frame

def get (f : Frame) : Place → Option Val
  | .loc slot => some (f.loc slot)
  | .mem x => some (f.self x)
  | .elem v slot =>
    match f.get v, f.loc slot with
    | some (.vec vs), .num k => if 0 ≤ k then vs[k.toNat]? else none
    | _, _ => none

def set (f : Frame) : Place → Val → Frame
  | .loc slot, v => { f with loc := Function.update f.loc slot v }
  | .mem x, v => { f with self := Function.update f.self x v }
  | .elem p slot, v =>
    match f.get p, f.loc slot with
    | some (.vec vs), .num k => f.set p (.vec (vs.set k.toNat v))
    | _, _ => f

end Frame

/-- What a statement does; `false` is `return false`. -/
abbrev Action := Frame → Option (Bool × Frame)

namespace Action

def skip : Action := fun f => some (true, f)

/-- One and then the other, unless the first returns. -/
def andThen (a b : Action) : Action := fun f =>
  match a f with
  | some (true, f') => b f'
  | r => r

/-- The second part runs after the first. -/
theorem andThen_run {a : Action} {f f' : Frame} (h : a f = some (true, f')) (b : Action) :
    a.andThen b f = b f' := by
  simp only [andThen, h]

/-- Nothing behind an action. -/
@[simp] theorem andThen_skip (a : Action) : a.andThen skip = a := by
  funext f
  rw [andThen]
  cases a f with
  | none => rfl
  | some r =>
    obtain ⟨ok, f'⟩ := r
    cases ok <;> rfl

/-- Nothing before an action. -/
@[simp] theorem skip_andThen (a : Action) : skip.andThen a = a := rfl

/-- Actions one after another need no brackets. -/
theorem andThen_assoc (a b c : Action) :
    (a.andThen b).andThen c = a.andThen (b.andThen c) := by
  funext f
  simp only [andThen]
  cases a f with
  | none => rfl
  | some r =>
    obtain ⟨ok, f'⟩ := r
    cases ok <;> rfl

/-- The rest of a loop over `i`, from `k` on. -/
def loopFrom (body : Action) (i : Nat) : Nat → Nat → Action
  | 0, _ => skip
  | n + 1, k => fun f =>
    body.andThen (loopFrom body i n (k + 1)) (f.set (.loc i) (.num k))

/-- `for( int i = 0; i< bound; ++i)`; the body does not write to the bound. -/
def loop (bound : Place) (i : Nat) (body : Action) : Action := fun f =>
  match f.get bound with
  | some (.num n) => body.loopFrom i n.toNat 0 f
  | _ => none

/-- The check before a base type is read. -/
def checkSize (t : BaseType) : Action := fun f =>
  some (decide (t.size + f.buf.rpos ≤ f.buf.wpos), f)

/-- `int x = v.size();`. -/
def declSize (slot : Nat) (v : Place) : Action := fun f =>
  match f.get v with
  | some (.vec vs) => some (true, f.set (.loc slot) (.num (Int.bmod vs.length (2 ^ 32))))
  | _ => none

/-- `v.push_back(x);`. -/
def pushBack (v x : Place) : Action := fun f =>
  match f.get v, f.get x with
  | some (.vec vs), some w => some (true, f.set v (.vec (vs ++ [w])))
  | _, _ => none

end Action

/-! ## Names -/

/-- Where a statement stands: the class, the variables around it, the last first, and how
    many of them are of enclosing blocks. -/
structure Scope where
  struct : String
  vars : List (String × CxxType)
  outer : Nat

namespace Scope

/-- The parameters and the outermost block. -/
def method (struct : String) : Scope := { struct := struct, vars := [("buffer", .buffer)], outer := 0 }

def findLocal : List (String × CxxType) → String → Option (Place × CxxType)
  | [], _ => none
  | (y, t) :: vars, x => if x = y then some (.loc vars.length, t) else findLocal vars x

/-- The variable that a name means. -/
def resolve (decls : List Decl) (sc : Scope) (x : String) : Option (Place × CxxType) :=
  match findLocal sc.vars x with
  | some p => some p
  | none => (memberType decls sc.struct x).map fun t => (.mem x, t)

/-- The type that a name means; a variable or a member hides it, but not `std::string`. -/
def resolveType (decls : List Decl) (sc : Scope) (type : String) : Option CxxType :=
  if type = "std::string" then some .string
  else if sc.vars.any (·.1 == type) || (members decls sc.struct).any (·.1 == type) then none
  else typeNamed decls type

/-- A declaration; a block declares a name once. -/
def declare (sc : Scope) (x : String) (t : CxxType) : Option Scope :=
  if (sc.vars.take (sc.vars.length - sc.outer)).any (·.1 == x) then none
  else some { sc with vars := (x, t) :: sc.vars }

/-- A block in the scope. -/
def enter (sc : Scope) : Scope := { sc with outer := sc.vars.length }

end Scope

/-! ## Statements -/

/-- What the code is compiled and run with; `call` runs the `read` or `write` method of a
    struct. -/
structure Env where
  decls : List Decl
  wire : Wire
  fresh : CxxType → Val
  call : Bool → String → Val → ByteBuf → Option (Bool × Val × ByteBuf)

namespace Env

variable (E : Env)

/-- The place and type of what is written. -/
def resolveLVal (sc : Scope) : CxxLVal → Option (Place × CxxType)
  | .var x => sc.resolve E.decls x
  | .at v =>
    match sc.resolve E.decls v, sc.resolve E.decls "i" with
    | some (p, .vector t), some (.loc i, .base .INT32) => some (.elem p i, t)
    | _, _ => none

/-- `*buffer >> x`. -/
def get (p : Place) (t : CxxType) : Action := fun f =>
  some (true, { f.set p (E.wire.get t f.buf.rest).1 with
    buf := f.buf.take (E.wire.get t f.buf.rest).2 })

/-- `*buffer << x`. -/
def put (p : Place) (t : CxxType) : Action := fun f =>
  (f.get p).map fun v => (true, { f with buf := f.buf.append (E.wire.put t v) })

/-- `type x;`. -/
def decl (slot : Nat) (t : CxxType) : Action := fun f =>
  some (true, f.set (.loc slot) (E.fresh t))

/-- `x.read(buffer)` or `x.write(buffer)`. -/
def callOn (isRead : Bool) (p : Place) (struct : String) : Action := fun f =>
  match f.get p with
  | none => none
  | some v =>
    match E.call isRead struct v f.buf with
    | none => none
    | some (ok, v', buf) => some (ok, { f.set p v' with buf := buf })

/-- A statement in its scope: the scope after it, and what it does. -/
def simple (sc : Scope) : CxxSimple → Option (Scope × Action)
  | .checkSize x =>
    match sc.resolve E.decls x with
    | some (_, .base t) => some (sc, .checkSize t)
    -- anything else is refused by the line that follows
    | _ => none
  | .get x =>
    match sc.resolve E.decls x with
    | some (p, t) => if t.isScalar then some (sc, E.get p t) else none
    | none => none
  | .callRead x =>
    match sc.resolve E.decls x with
    | some (p, .struct S) =>
      if (bodies E.decls S true).isEmpty then none else some (sc, E.callOn true p S)
    | _ => none
  | .declInt x => (sc.declare x (.base .INT32)).map fun sc' => (sc', .skip)
  | .decl type x =>
    match sc.resolveType E.decls type, (sc.resolveType E.decls type).bind (sc.declare x) with
    | some t, some sc' => some (sc', E.decl sc.vars.length t)
    | _, _ => none
  | .declSize x v =>
    match sc.resolve E.decls v, sc.declare x (.base .INT32) with
    | some (p, .vector _), some sc' => some (sc', .declSize sc.vars.length p)
    | _, _ => none
  | .pushBack v x =>
    match sc.resolve E.decls v, sc.resolve E.decls x with
    | some (p, .vector t), some (q, t') => if t = t' then some (sc, .pushBack p q) else none
    | _, _ => none
  | .put x =>
    match E.resolveLVal sc x with
    | some (p, t) => if t.isScalar then some (sc, E.put p t) else none
    | none => none
  | .callWrite x =>
    match E.resolveLVal sc x with
    | some (p, .struct S) =>
      if (bodies E.decls S false).isEmpty then none else some (sc, E.callOn false p S)
    | _ => none

def simples : Scope → List CxxSimple → Option (Scope × Action)
  | sc, [] => some (sc, .skip)
  | sc, s :: body =>
    match E.simple sc s with
    | none => none
    | some (sc', a) => (simples sc' body).map fun r => (r.1, a.andThen r.2)

def stmt (sc : Scope) : CxxStmt → Option (Scope × Action)
  | .simple s => E.simple sc s
  | .loop bound body =>
    match sc.resolve E.decls bound, sc.enter.declare "i" (.base .INT32) with
    | some (p, .base .INT32), some inner =>
      (E.simples inner body).map fun r => (sc, .loop p sc.vars.length r.2)
    | _, _ => none

def code : Scope → List CxxStmt → Option (Scope × Action)
  | sc, [] => some (sc, .skip)
  | sc, s :: rest =>
    match E.stmt sc s with
    | none => none
    | some (sc', a) => (code sc' rest).map fun r => (r.1, a.andThen r.2)

end Env

/-! ## Methods -/

/-- The members of a body that is one list. -/
def Block.list : Block → Option (List (TypeInfo × String))
  | .done => some []
  | .readWriteVar tinfo varName next => next.list.map ((tinfo, varName) :: ·)
  | .value .. => none
  | .ifs .. => none

/-- The `read` or `write` method of a struct, whose body is one list. -/
def Env.method (E : Env) (isRead : Bool) (struct : String) : Option Action :=
  match bodies E.decls struct isRead with
  | [body] => body.list.bind fun vars =>
    (E.code (.method struct) (listCode isRead vars)).map (·.2)
  | _ => none

/-- An object of a class that nobody has written to. -/
def freshObj (decls : List Decl) (uninit : String → String → Val) : Nat → String → Val
  | 0, _ => .obj fun _ => .num 0
  | n + 1, S => .obj fun x =>
    match memberType decls S x with
    | some (.vector _) => .vec []
    | some (.struct T) => freshObj decls uninit n T
    | _ => uninit S x

/-- A local that nobody has written to. -/
def freshVal (decls : List Decl) (uninit : String → String → Val) (fuel : Nat) : CxxType → Val
  | .struct S => freshObj decls uninit fuel S
  | .vector _ => .vec []
  | .string => .str []
  | _ => .num 0

/-- Call a method of an object. -/
def Env.run (E : Env) (isRead : Bool) (struct : String) (v : Val) (buf : ByteBuf) :
    Option (Bool × Val × ByteBuf) :=
  match E.method isRead struct, v with
  | some a, .obj self =>
    (a { self := self, loc := fun _ => .num 0, buf := buf }).map fun r =>
      (r.1, .obj r.2.self, r.2.buf)
  | _, _ => none

/-- Run a method, which calls others at most `fuel` deep. -/
def callMethod (decls : List Decl) (wire : Wire) (uninit : String → String → Val) :
    Nat → Bool → String → Val → ByteBuf → Option (Bool × Val × ByteBuf)
  | 0 => fun _ _ _ _ => none
  | fuel + 1 =>
    Env.run { decls := decls, wire := wire, fresh := freshVal decls uninit fuel
              call := callMethod decls wire uninit fuel }

/-- What a method runs with. -/
def runEnv (decls : List Decl) (wire : Wire) (uninit : String → String → Val) (fuel : Nat) : Env :=
  { decls := decls, wire := wire, fresh := freshVal decls uninit fuel
    call := callMethod decls wire uninit fuel }

end Athena.Idl
