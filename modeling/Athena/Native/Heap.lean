/-!
# The heap of the timers (`core/common/Heap.h`, `.cpp`)

A binary heap of nodes that point to their children and to their parent.  Nodes are
addresses into `node`, the memory; `heap_node**` is a `Place` that holds a pointer.  The
comparison may dereference NULL, and so may the functions here: they are `none` then, and
also when one of their loops does not end.
-/

namespace Athena

/-- `heap_node*` that is not NULL. -/
abbrev HeapRef := Nat

structure HeapNode where
  left : Option HeapRef
  right : Option HeapRef
  parent : Option HeapRef
  deriving DecidableEq, Repr

structure Heap where
  min : Option HeapRef
  nelts : Nat
  node : HeapRef → HeapNode

/-- Return non-zero if a < b. -/
abbrev HeapCompareFn := HeapRef → HeapRef → Option Bool

namespace Heap

/-! ## Memory -/

def setNode (h : Heap) (x : HeapRef) (n : HeapNode) : Heap :=
  { h with node := fun y => if y = x then n else h.node y }

def setLeft (h : Heap) (x : HeapRef) (p : Option HeapRef) : Heap :=
  h.setNode x { h.node x with left := p }

def setRight (h : Heap) (x : HeapRef) (p : Option HeapRef) : Heap :=
  h.setNode x { h.node x with right := p }

def setParent (h : Heap) (x : HeapRef) (p : Option HeapRef) : Heap :=
  h.setNode x { h.node x with parent := p }

/-- `if (x != NULL) x->parent = p`. -/
def setParentOf (h : Heap) (x : Option HeapRef) (p : HeapRef) : Heap :=
  match x with
  | none => h
  | some x => h.setParent x (some p)

/-- What a `heap_node**` points to. -/
inductive Place where
  | min
  | left (x : HeapRef)
  | right (x : HeapRef)
  deriving DecidableEq, Repr

def load (h : Heap) : Place → Option HeapRef
  | .min => h.min
  | .left x => (h.node x).left
  | .right x => (h.node x).right

def store (h : Heap) (place : Place) (p : Option HeapRef) : Heap :=
  match place with
  | .min => { h with min := p }
  | .left x => h.setLeft x p
  | .right x => h.setRight x p

/-! ## Operations -/

/-- `heap_init`. -/
def heapInit (node : HeapRef → HeapNode) : Heap := { min := none, nelts := 0, node := node }

def heapMin (h : Heap) : Option HeapRef := h.min

/-- Where `parent` has `old` as a child, or the root is `old`, it has `new`. -/
def replaceChild (h : Heap) (parent : Option HeapRef) (old new : HeapRef) : Heap :=
  match parent with
  | none => { h with min := some new }
  | some p =>
    if (h.node p).left = some old then h.setLeft p (some new) else h.setRight p (some new)

/-- The swap of the two records, with `parent->parent = child`. -/
def swapNodes (h : Heap) (parent child : HeapRef) : Heap :=
  ((h.setNode parent (h.node child)).setNode child (h.node parent)).setParent parent (some child)

/-- The pointers below the two nodes. -/
def linkSwapped (h : Heap) (parent child : HeapRef) : Heap :=
  let isLeft := (h.node child).left = some child
  let sibling := if isLeft then (h.node child).right else (h.node child).left
  let h := if isLeft then h.setLeft child (some parent) else h.setRight child (some parent)
  let h := h.setParentOf sibling child
  let h := h.setParentOf (h.node parent).left parent
  h.setParentOf (h.node parent).right parent

/-- Swap parent with child.  Child moves closer to the root, parent moves away. -/
def heapNodeSwap (h : Heap) (parent child : HeapRef) : Heap :=
  let h := (h.swapNodes parent child).linkSwapped parent child
  h.replaceChild (h.node child).parent parent child

/-- The path from the root to the node with number `n`, and its length: the digits of `n` that
follow the first, the one for the root in the lowest bit. -/
def heapPath : Nat → Nat → Nat → Nat → Nat × Nat
  | 0, _, k, path => (k, path)
  | fuel + 1, n, k, path =>
    if n ≥ 2 then heapPath fuel (n / 2) (k + 1) (path * 2 + n % 2) else (k, path)

/-- Traverse the heap using the path; both places are returned. -/
def follow (h : Heap) : Nat → Nat → Place → Place → Option (Place × Place)
  | 0, _, parent, child => some (parent, child)
  | k + 1, path, _, child =>
    match h.load child with
    | none => none
    | some x => follow h k (path / 2) child (if path % 2 = 1 then .right x else .left x)

/-- Walk up the tree and check at each node if the heap property holds. -/
def siftUp (lessThan : HeapCompareFn) (x : HeapRef) : Nat → Heap → Option Heap
  | 0, _ => none
  | fuel + 1, h =>
    match (h.node x).parent with
    | none => some h
    | some p =>
      match lessThan x p with
      | none => none
      | some true => siftUp lessThan x fuel (h.heapNodeSwap p x)
      | some false => some h

/-- `if (c != NULL && less_than(c, smallest)) smallest = c`. -/
def smaller (lessThan : HeapCompareFn) (c : Option HeapRef) (smallest : HeapRef) :
    Option HeapRef :=
  match c with
  | none => some smallest
  | some c => (lessThan c smallest).map fun less => if less then c else smallest

/-- Walk down the subtree and check at each node if the heap property holds. -/
def siftDown (lessThan : HeapCompareFn) (x : HeapRef) : Nat → Heap → Option Heap
  | 0, _ => none
  | fuel + 1, h =>
    match smaller lessThan (h.node x).left x with
    | none => none
    | some smallest =>
      match smaller lessThan (h.node x).right smallest with
      | none => none
      | some smallest =>
        if smallest = x then some h else siftDown lessThan x fuel (h.heapNodeSwap x smallest)

def heapInsert (h : Heap) (newnode : HeapRef) (lessThan : HeapCompareFn) : Option Heap :=
  let h := h.setNode newnode { left := none, right := none, parent := none }
  -- always insert at the left-most free node of the bottom row
  let n := 1 + h.nelts
  let (k, path) := heapPath n n 0 0
  match h.follow k path .min .min with
  | none => none
  | some (parent, child) =>
    let h := h.setParent newnode (h.load parent)
    let h := h.store child (some newnode)
    let h := { h with nelts := h.nelts + 1 }
    siftUp lessThan newnode (h.nelts + 1) h

/-- Replace the to be deleted node with the max node. -/
def replaceNode (h : Heap) (node child : HeapRef) : Heap :=
  let h := h.setNode child (h.node node)
  let h := h.setParentOf (h.node child).left child
  let h := h.setParentOf (h.node child).right child
  h.replaceChild (h.node node).parent node child

def heapRemove (h : Heap) (node : HeapRef) (lessThan : HeapCompareFn) : Option Heap :=
  if h.nelts = 0 then some h
  else
    let n := h.nelts
    let (k, path) := heapPath n n 0 0
    match h.follow k path .min .min with
    | none => none
    | some (_, max) =>
      let h := { h with nelts := h.nelts - 1 }
      match h.load max with
      | none => none
      | some child =>
        let h := h.store max none
        if child = node then
          -- removing either the max or the last node in the tree
          some (if some child = h.min then { h with min := none } else h)
        else
          let h := h.replaceNode node child
          match siftDown lessThan child (h.nelts + 1) h with
          | none => none
          | some h => siftUp lessThan child (h.nelts + 1) h

end Heap

end Athena
