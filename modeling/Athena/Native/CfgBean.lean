import Athena.Native.ByteBuf
import Mathlib.Data.List.AList

/-!
# Configuration beans (`code-gen/luban/CfgBean.h`, `code-gen/cfg-gen/schema_0.cpp`)

The `deserialize` functions that the generator writes follow the types of a bean's members,
one read for each.  `Ty` are those types and `Ty.deserialize` is the read that is generated
for a type; a derived bean is the members of its base followed by its own.
-/

namespace Athena.Luban

open Reader ByteBuf

/-- The types of the keys of a `HashMap`. -/
inductive KeyTy where
  | int
  | long
  deriving DecidableEq, Repr

mutual

/-- The types of members.  An enumeration is read as an `int` and cast. -/
inductive Ty where
  | bool
  | int
  | long
  | float
  | string
  /-- `luban::Vector` -/
  | vector (elem : Ty)
  /-- `luban::HashMap` -/
  | hashMap (key : KeyTy) (val : Ty)
  | bean (ms : Members)
  /-- a pointer to one of the beans that derive from an abstract one -/
  | abstract (bs : Beans)

inductive Members where
  | nil
  | cons (name : String) (type : Ty) (rest : Members)

/-- Beans with their `__ID__`. -/
inductive Beans where
  | nil
  | cons (id : Int32) (ms : Members) (rest : Beans)

end

/-- The members of a bean in the order in which they are read. -/
abbrev Bean : Type := List (String × Ty)

def Members.ofList : Bean → Members
  | [] => .nil
  | (name, type) :: ms => .cons name type (ofList ms)

def Beans.ofList : List (Int32 × Bean) → Beans
  | [] => .nil
  | (id, ms) :: bs => .cons id (.ofList ms) (ofList bs)

/-! ## Values -/

def KeyTy.Val : KeyTy → Type
  | int => Int32
  | long => Int64

instance : (k : KeyTy) → DecidableEq k.Val
  | .int => inferInstanceAs (DecidableEq Int32)
  | .long => inferInstanceAs (DecidableEq Int64)

mutual

/-- The values of a type: a `float` by its bits, an object of a derived bean by its members. -/
def Ty.Val : Ty → Type
  | .bool => Bool
  | .int => Int32
  | .long => Int64
  | .float => UInt32
  | .string => List UInt8
  | .vector elem => List elem.Val
  | .hashMap key val => AList fun _ : key.Val => val.Val
  | .bean ms => ms.Val
  | .abstract bs => bs.Val

def Members.Val : Members → Type
  | .nil => Unit
  | .cons _ type rest => type.Val × rest.Val

def Beans.Val : Beans → Type
  | .nil => Empty
  | .cons _ ms rest => ms.Val ⊕ rest.Val

end

/-! ## Reading -/

/-- `int32(_buf.size())` -/
def remaining : Reader ByteBuf Int32 := fun buf => .done (Int32.ofNat buf.size) buf

/-- The size in front of the values of a container: no more than there are bytes. -/
def readCount : Reader ByteBuf Int32 := do
  let n ← readSize
  return min n (← remaining)

/-- `reserve(n * 3 / 2)`: a negative size throws, a product must be an `int`. -/
def reserveMap (n : Int32) : Reader ByteBuf Unit := fun buf =>
  if n < 0 ∨ 2 ^ 31 ≤ 3 * n.toInt then .undefined else .done () buf

/-- The loop of a `Vector` member: every value is pushed back. -/
def readVector {α : Type} (elem : Reader ByteBuf α) : Reader ByteBuf (List α) := do
  let n ← readCount
  resize n
  many elem n.toNatClampNeg

def readKey : (k : KeyTy) → Reader ByteBuf k.Val
  | .int => readInt
  | .long => readLong

/-- A key and its value. -/
def readEntry {α : Type} (k : KeyTy) (val : Reader ByteBuf α) : Reader ByteBuf (k.Val × α) := do
  let key ← readKey k
  return (key, ← val)

/-- The loop of a `HashMap` member: `m[key] = val` for every entry. -/
def readHashMap {α : Type} (k : KeyTy) (val : Reader ByteBuf α) :
    Reader ByteBuf (AList fun _ : k.Val => α) := do
  let n ← readCount
  reserveMap n
  let entries ← many (readEntry k val) n.toNatClampNeg
  return entries.foldl (fun m e => m.insert e.1 e.2) ∅

mutual

def Ty.deserialize : (t : Ty) → Reader ByteBuf t.Val
  | .bool => readBool
  | .int => readInt
  | .long => readLong
  | .float => readFloat
  | .string => readString
  | .vector elem => readVector elem.deserialize
  | .hashMap key val => readHashMap key val.deserialize
  | .bean ms => ms.deserialize
  | .abstract bs => do bs.deserialize (← readInt)

/-- `deserialize` of a bean, member by member. -/
def Members.deserialize : (ms : Members) → Reader ByteBuf ms.Val
  | .nil => pure ()
  | .cons _ type rest => do
    let v ← type.deserialize
    return (v, ← rest.deserialize)

/-- The `switch` over the `__ID__`s; its default returns false. -/
def Beans.deserialize : (bs : Beans) → Int32 → Reader ByteBuf bs.Val
  | .nil, _ => refuse
  | .cons id ms rest, i =>
    if id = i then do return .inl (← ms.deserialize)
    else do return .inr (← rest.deserialize i)

end

end Athena.Luban
