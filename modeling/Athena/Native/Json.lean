import Mathlib.Data.Char
import Mathlib.Data.List.Lex
import Athena.ForStd.SortedMap

/-!
# JSON trees (`core/utils/Json.cpp`)

A tree of `JValue`, `JArray` and `JSonObj` nodes, each with the number of its allocation.
The bytes of a `std::string` are characters here, and a `std::map` is in the order of its
keys.  `float` is a parameter, with its two conversions.
-/

namespace Athena

namespace Json

/-- `std::to_string` and `std::stof` of `float`; `stof` reads at the start of a text, and
has no value where it throws. -/
structure FloatText (F : Type) where
  to_string : F → List Char
  stof : List Char → Option F

/-- The contents of a `JValue`, by its `type`. -/
inductive JValue (F : Type) where
  | eJ_INT (iv : Int32)
  | eJ_FLOAT (fv : F)
  | eJ_NULL
  | eJ_STRING (sv : List Char)
  | eJ_BOOL (bv : Bool)
  deriving DecidableEq, Repr

inductive JBaseObj (F : Type) where
  | value (id : Nat) (v : JValue F)
  | array (id : Nat) (items : List (JBaseObj F))
  | object (id : Nat) (maps : List (List Char × JBaseObj F))

variable {F : Type}

/-! ## Writing -/

/-- `std::to_string` of an `int`. -/
def to_string (v : Int32) : List Char :=
  if v.toInt < 0 then '-' :: Nat.toDigits 10 v.toInt.natAbs else Nat.toDigits 10 v.toInt.natAbs

def writeDepth (depth : Nat) : List Char := List.replicate depth '\t'

def JValue.write (float : FloatText F) : JValue F → List Char
  | .eJ_INT iv => to_string iv
  | .eJ_FLOAT fv => float.to_string fv
  | .eJ_BOOL bv => if bv then "true".toList else "false".toList
  | .eJ_NULL => "null".toList
  | .eJ_STRING sv => '"' :: (sv ++ ['"'])

/-- `if (layout) str.append("\n")`. -/
def newline (layout : Bool) : List Char := if layout then ['\n'] else []

/-- `if (layout) writeDepth(str, depth)`. -/
def indent (layout : Bool) (depth : Nat) : List Char := if layout then writeDepth depth else []

/-- `if (++count < maxcount) str.append(",")`. -/
def comma (last : Bool) : List Char := if last then [] else [',']

mutual

def JBaseObj.write (float : FloatText F) (layout : Bool) (depth : Nat) : JBaseObj F → List Char
  | .value _ v => v.write float
  | .array _ items =>
    '[' :: (newline layout ++ writeItems float layout depth items ++ indent layout depth ++ [']'])
  | .object _ maps =>
    '{' :: (newline layout ++ writeMembers float layout depth maps ++ indent layout depth ++ ['}'])

/-- The loop of `JArray::write`. -/
def writeItems (float : FloatText F) (layout : Bool) (depth : Nat) :
    List (JBaseObj F) → List Char
  | [] => []
  | obj :: items =>
    indent layout (depth + 1) ++ obj.write float layout (depth + 1) ++ comma items.isEmpty ++
      newline layout ++ writeItems float layout depth items

/-- The loop of `JSonObj::write`. -/
def writeMembers (float : FloatText F) (layout : Bool) (depth : Nat) :
    List (List Char × JBaseObj F) → List Char
  | [] => []
  | (key, obj) :: maps =>
    indent layout (depth + 1) ++ ('"' :: (key ++ ['"', ':'])) ++
      obj.write float layout (depth + 1) ++ comma maps.isEmpty ++ newline layout ++
      writeMembers float layout depth maps

end

/-- `JsonReader::write`. -/
def write (float : FloatText F) (obj : JBaseObj F) (layout : Bool) : List Char :=
  obj.write float layout 0

/-! ## Nodes -/

mutual

/-- The nodes that `delete` frees. -/
def JBaseObj.ids : JBaseObj F → List Nat
  | .value id _ => [id]
  | .array id items => id :: itemIds items
  | .object id maps => id :: memberIds maps

def itemIds : List (JBaseObj F) → List Nat
  | [] => []
  | obj :: items => obj.ids ++ itemIds items

def memberIds : List (List Char × JBaseObj F) → List Nat
  | [] => []
  | (_, obj) :: maps => obj.ids ++ memberIds maps

end

mutual

/-- The tree alone: where its nodes were allocated does not matter. -/
def JBaseObj.tree : JBaseObj F → JBaseObj F
  | .value _ v => .value 0 v
  | .array _ items => .array 0 (itemTrees items)
  | .object _ maps => .object 0 (memberTrees maps)

def itemTrees : List (JBaseObj F) → List (JBaseObj F)
  | [] => []
  | obj :: items => obj.tree :: itemTrees items

def memberTrees : List (List Char × JBaseObj F) → List (List Char × JBaseObj F)
  | [] => []
  | (key, obj) :: maps => (key, obj.tree) :: memberTrees maps

end

end Json

end Athena
