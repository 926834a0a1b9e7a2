import Athena.ForStd.Chain
import Athena.ForStd.Slots

/-!
# The object pool under its threads (`core/common/ObjectPool.hpp`)

Here a step is what a thread does between two accesses to shared data.  The sections under
`_mutex` are single steps; making an object or a node, `destroy_at` and the placement new
are steps outside it.  Both free lists are kept as the source keeps them, in the `next`
fields of the nodes.

A holder is a variable of the program: a `PoolObjRef`, or a pointer that `acquirePtr`
gave.  `release` is called by the holder of an object, which forgets it by that; the
destructor of a `PoolObjRef` and its `release` are the same call, and a move hands the
object on.  A pointer to an object is the number of its storage block.

`inst` is the instance that was last constructed in a block, and `alive` whether its
lifetime goes on; instances are numbered.  `destroyed` is an account that the code does
not keep.  Constructors do not throw, memory runs out for the nodes of `release` only, and
the counters that only the statistics read are left out.
-/

namespace Athena

/-- `ObjectPool::Node`. -/
structure PoolNode where
  obj : Nat
  next : Option Nat
  deriving DecidableEq, Repr

/-- Where a thread is in the pool's functions. -/
inductive PoolPc where
  | idle
  /-- the loop of `reserve` with `left` turns to go -/
  | reserve (left : Nat)
  /-- `reserve` has made an object and a node -/
  | reserveLock (left obj node : Nat)
  /-- `acquireImpl` for a holder -/
  | acquire (holder : Nat)
  /-- the object comes from the free list -/
  | hit (holder obj : Nat)
  /-- `destroy_at` has ended the old instance -/
  | ended (holder obj : Nat)
  /-- the free list was empty -/
  | miss (holder : Nat)
  /-- `make_unique` has made the object -/
  | made (holder obj : Nat)
  /-- `release`, and the move assignment it is part of -/
  | release (obj : Nat) (assign : Option (Nat × Nat))
  /-- the rest of a move assignment -/
  | assign (holder other : Nat)
  deriving DecidableEq, Repr

/-- The calls of a thread. -/
inductive PoolCall where
  | reserve (n : Nat)
  /-- `acquire`, `acquirePtr` or `acquireUniquePtr`, for a new holder -/
  | acquire (holder : Nat)
  /-- `release` of a holder's object -/
  | release (holder : Nat)
  /-- `PoolObjRef(PoolObjRef &&)` -/
  | move (holder other : Nat)
  /-- `PoolObjRef::operator=(PoolObjRef &&)` -/
  | assign (holder other : Nat)
  deriving DecidableEq, Repr

/-- How many threads and holders there are, and `_maxSize`. -/
structure PoolThreadsConfig where
  threads : Nat
  holders : Nat
  maxSize : Nat

structure PoolThreads where
  node : Nat → PoolNode
  /-- nodes below this number have been made -/
  nodes : Nat
  head : Option Nat
  nodePool : Option Nat
  freeCount : Nat
  ownedObjects : List Nat
  debug : Bool
  /-- blocks below this number have been made -/
  blocks : Nat
  inst : Nat → Nat
  alive : Nat → Bool
  /-- instances below this number have been constructed -/
  constructed : Nat
  destroyed : List Nat
  pc : Nat → PoolPc
  slots : Nat → Option Nat
  /-- the pool has been destroyed -/
  gone : Bool

inductive PoolThreadsAct where
  | call (thread : Nat) (call : PoolCall)
  /-- the next step of a thread; `alloc` says that `new (std::nothrow) Node` succeeds -/
  | step (thread : Nat) (alloc : Bool)
  | setDebug (enabled : Bool)
  /-- `~ObjectPool` -/
  | destroy
  deriving DecidableEq, Repr

namespace PoolThreads

/-- An empty pool. -/
def init : PoolThreads :=
  { node := fun _ => { obj := 0, next := none }, nodes := 0, head := none, nodePool := none
    freeCount := 0, ownedObjects := [], debug := false, blocks := 0, inst := fun _ => 0
    alive := fun _ => false, constructed := 0, destroyed := [], pc := fun _ => .idle
    slots := fun _ => none, gone := false }

/-- The `next` field of the nodes. -/
def next (s : PoolThreads) (n : Nat) : Option Nat := (s.node n).next

def goto (s : PoolThreads) (thread : Nat) (pc : PoolPc) : PoolThreads :=
  { s with pc := Function.update s.pc thread pc }

/-- The holder gets the object, or null. -/
def setHolder (s : PoolThreads) (holder : Nat) (obj : Option Nat) : PoolThreads :=
  { s with slots := Function.update s.slots holder obj }

/-- The constructor of `T` runs in a block. -/
def construct (s : PoolThreads) (obj : Nat) : PoolThreads :=
  { s with
    inst := Function.update s.inst obj s.constructed
    alive := Function.update s.alive obj true
    constructed := s.constructed + 1 }

/-- `std::destroy_at`. -/
def destroyAt (s : PoolThreads) (obj : Nat) : PoolThreads :=
  { s with
    alive := Function.update s.alive obj false
    destroyed := s.destroyed ++ [s.inst obj] }

/-- `std::make_unique<T>`: the object stands in the block `s.blocks`. -/
def makeObj (s : PoolThreads) : PoolThreads :=
  { s with blocks := s.blocks + 1 }.construct s.blocks

/-- `node->obj = obj; node->next = _head; _head = node;` and the count. -/
def pushNode (s : PoolThreads) (node obj : Nat) : PoolThreads :=
  { s with
    node := Function.update s.node node { obj := obj, next := s.head }
    head := some node
    freeCount := s.freeCount + 1 }

/-- The section of `acquireImpl` that takes the first free object. -/
def popNode (s : PoolThreads) : Option (Nat × PoolThreads) :=
  match s.head with
  | none => none
  | some n =>
    some ((s.node n).obj,
      { s with
        head := s.next n
        node := Function.update s.node n { s.node n with next := s.nodePool }
        nodePool := some n
        freeCount := s.freeCount - 1 })

/-- The section of `release`. -/
def releaseSection (cfg : PoolThreadsConfig) (s : PoolThreads) (obj : Nat) (alloc : Bool) :
    PoolThreads :=
  -- the debug mode looks for the object on the free list
  if s.debug && (walk s.next s.nodes s.head).any fun n => (s.node n).obj == obj then s
  -- the pool is full: the object is not put back
  else if 0 < cfg.maxSize ∧ cfg.maxSize ≤ s.freeCount then s
  else
    match s.nodePool with
    | some n => { s with nodePool := s.next n }.pushNode n obj
    -- no spare node; without memory for one the object is not put back
    | none => if alloc then { s with nodes := s.nodes + 1 }.pushNode s.nodes obj else s

/-- A call up to its first access to shared data. -/
def call (s : PoolThreads) (thread : Nat) : PoolCall → PoolThreads
  | .reserve n => s.goto thread (.reserve n)
  | .acquire holder => s.goto thread (.acquire holder)
  | .release holder =>
    match s.slots holder with
    | none => s
    | some obj => (s.setHolder holder none).goto thread (.release obj none)
  | .move holder other => (s.setHolder holder (s.slots other)).setHolder other none
  | .assign holder other =>
    if holder = other then s
    else
      match s.slots holder with
      -- an empty holder has nothing to give back first
      | none => s.goto thread (.assign holder other)
      | some obj =>
        (s.setHolder holder none).goto thread (.release obj (some (holder, other)))

/-- The holders that a call is about exist, and one that is made is new. -/
def valid (cfg : PoolThreadsConfig) (s : PoolThreads) : PoolCall → Bool
  | .reserve _ => true
  | .acquire holder => holder < cfg.holders && (s.slots holder).isNone
  | .release holder => holder < cfg.holders
  | .move holder other =>
    holder < cfg.holders && other < cfg.holders && holder != other && (s.slots holder).isNone
  | .assign holder other => holder < cfg.holders && other < cfg.holders

/-- The next step of a thread. -/
def threadStep (cfg : PoolThreadsConfig) (s : PoolThreads) (thread : Nat) (alloc : Bool) :
    Option PoolThreads :=
  match s.pc thread with
  | .idle => none
  | .reserve 0 => some (s.goto thread .idle)
  | .reserve (left + 1) =>
    some ({ s.makeObj with nodes := s.nodes + 1 }.goto thread
      (.reserveLock left s.blocks s.nodes))
  | .reserveLock left obj node =>
    some (({ s with ownedObjects := s.ownedObjects ++ [obj] }.pushNode node obj).goto thread
      (.reserve left))
  | .acquire holder =>
    match s.popNode with
    | none => some (s.goto thread (.miss holder))
    | some (obj, s) => some (s.goto thread (.hit holder obj))
  | .hit holder obj => some ((s.destroyAt obj).goto thread (.ended holder obj))
  | .ended holder obj => some (((s.construct obj).setHolder holder (some obj)).goto thread .idle)
  | .miss holder => some (s.makeObj.goto thread (.made holder s.blocks))
  | .made holder obj =>
    some (({ s with ownedObjects := s.ownedObjects ++ [obj] }.setHolder holder (some obj)).goto
      thread .idle)
  | .release obj none => some ((s.releaseSection cfg obj alloc).goto thread .idle)
  | .release obj (some (holder, other)) =>
    some ((s.releaseSection cfg obj alloc).goto thread (.assign holder other))
  | .assign holder other =>
    some (((s.setHolder holder (s.slots other)).setHolder other none).goto thread .idle)

/-- One step.  The pool is destroyed when no thread is in it. -/
def step (cfg : PoolThreadsConfig) (s : PoolThreads) (act : PoolThreadsAct) : Option PoolThreads :=
  if s.gone then none
  else
    match act with
    | .call thread c =>
      if thread < cfg.threads ∧ s.pc thread = .idle ∧ s.valid cfg c = true then
        some (s.call thread c)
      else none
    | .step thread alloc => if thread < cfg.threads then s.threadStep cfg thread alloc else none
    | .setDebug enabled => some { s with debug := enabled }
    | .destroy =>
      if (List.range cfg.threads).all fun thread => s.pc thread = .idle then
        some { s with
          destroyed := s.destroyed ++ s.ownedObjects.map s.inst
          alive := fun _ => false
          gone := true }
      else none

end PoolThreads

end Athena
