import Mathlib.Data.List.Nodup
import Athena.ForStd.Run
import Athena.Native.ObjectPool
import Athena.Native.PoolThreads

/-!
# The object pool is sound under its threads

Every block is on the free list, with a holder, in the hands of a thread, or lost to the
pool's limit, and in one of these places only; every node is on one of the two lists or
with the thread that made it; and every instance that was constructed has been destroyed
or stands in a block.  `Sound` says so with the shares of the threads as parameters: a step
takes something out of a thread's share and puts it somewhere else.

## Key results

- `Sound.pushNode`, `Sound.popNode`, `Sound.destroyAt`, ...: what each piece of the pool's
  functions does to the account
- `releaseSection_refines`, `hit_refines`, `miss_refines`: without interleaving, the
  sections do what `release` and `acquireImpl` do on the list of the free objects
- `inv_step`: one step of any thread
- `pool_invariants`: every run
-/

namespace Athena

/-! ## What a thread has -/

namespace PoolPc

/-- The object a thread has in its hands. -/
def objs : PoolPc → List Nat
  | .reserveLock _ obj _ => [obj]
  | .hit _ obj => [obj]
  | .made _ obj => [obj]
  | .release obj _ => [obj]
  | _ => []

/-- The block without an instance. -/
def hollow : PoolPc → List Nat
  | .ended _ obj => [obj]
  | _ => []

/-- The object that `_ownedObjects` does not have yet. -/
def fresh : PoolPc → List Nat
  | .reserveLock _ obj _ => [obj]
  | .made _ obj => [obj]
  | _ => []

/-- The node that is on no list yet. -/
def nodes : PoolPc → List Nat
  | .reserveLock _ _ node => [node]
  | _ => []

/-- The holders that a thread will still write to. -/
def holders : PoolPc → List Nat
  | .acquire holder => [holder]
  | .hit holder _ => [holder]
  | .ended holder _ => [holder]
  | .miss holder => [holder]
  | .made holder _ => [holder]
  | .release _ (some (holder, other)) => [holder, other]
  | .assign holder other => [holder, other]
  | _ => []

end PoolPc

namespace PoolThreads

variable {cfg : PoolThreadsConfig} {s s' : PoolThreads}

/-- What the threads have. -/
def inPc (cfg : PoolThreadsConfig) (s : PoolThreads) (f : PoolPc → List Nat) : List Nat :=
  Slots.all cfg.threads fun thread => f (s.pc thread)

/-- What the holders have. -/
def held (cfg : PoolThreadsConfig) (s : PoolThreads) : List Nat :=
  Slots.all cfg.holders fun holder => (s.slots holder).toList

/-- The instance that lives in a block. -/
def livingAt (s : PoolThreads) (b : Nat) : List Nat := if s.alive b then [s.inst b] else []

/-- The instances that live in the blocks. -/
def living (s : PoolThreads) : List Nat := Slots.all s.blocks s.livingAt

/-- The object of a node. -/
def objOf (s : PoolThreads) (n : Nat) : Nat := (s.node n).obj

/-- A thing below a bound is somewhere once. -/
def once (bound n : Nat) : Nat := if n < bound then 1 else 0

/-- With one thing more, this one is somewhere too. -/
theorem once_succ (k n : Nat) : once (k + 1) n = once k n + [k].count n := by
  simp only [once, List.count_singleton, beq_iff_eq]
  split <;> split <;> split <;> omega

/-- Nothing is in two places. -/
theorem once_le (k n : Nat) : once k n ≤ 1 := by
  rw [once]
  split <;> omega

/-- What is somewhere has been made. -/
theorem lt_of_once {k n : Nat} (h : 1 ≤ once k n) : n < k := by
  by_contra hle
  rw [once, if_neg hle] at h
  omega

/-- The pool, with `free` and `spare` on its lists, and the shares of the threads: nodes,
    objects, objects that are not owned yet, and blocks without an instance. -/
structure Sound (cfg : PoolThreadsConfig) (s : PoolThreads) (N O F H : Nat → Nat)
    (free spare : List Nat) : Prop where
  chain_free : Chain s.next s.head free
  chain_spare : Chain s.next s.nodePool spare
  freeCount : s.freeCount = free.length
  nodes : ∀ n, free.count n + spare.count n + N n ≤ once s.nodes n
  objs : ∀ b, (free.map s.objOf).count b + (s.held cfg).count b + O b + H b ≤ once s.blocks b
  owned : ∀ b, s.ownedObjects.count b + F b = once s.blocks b
  insts : ∀ i, s.destroyed.count i + s.living.count i = once s.constructed i
  hollow : s.gone = false → ∀ b, H b = if b < s.blocks ∧ s.alive b = false then 1 else 0
  holders : ∀ holder, cfg.holders ≤ holder → s.slots holder = none

namespace Sound

variable {N O F H N' O' F' H' : Nat → Nat} {free spare : List Nat}

/-- What a thread lets go of is lost. -/
theorem mono (h : Sound cfg s N O F H free spare) (hN : ∀ n, N' n ≤ N n) (hO : ∀ b, O' b ≤ O b)
    (hF : ∀ b, F' b = F b) (hH : ∀ b, H' b = H b) : Sound cfg s N' O' F' H' free spare :=
  { h with
    nodes := fun n => by
      have := h.nodes n
      have := hN n
      omega
    objs := fun b => by
      have := h.objs b
      have := hO b
      have := hH b
      omega
    owned := fun b => by rw [hF]; exact h.owned b
    hollow := fun hgone b => by rw [hH]; exact h.hollow hgone b }

/-- Where a thread is does not matter to the pool. -/
theorem goto (h : Sound cfg s N O F H free spare) (thread : Nat) (pc : PoolPc) :
    Sound cfg (s.goto thread pc) N O F H free spare :=
  { h with }

/-- The debug flag is no part of the account. -/
theorem setDebug (h : Sound cfg s N O F H free spare) (enabled : Bool) :
    Sound cfg { s with debug := enabled } N O F H free spare :=
  { h with }

/-! ### Blocks and instances -/

/-- `make_unique<T>`: a new block with a new instance. -/
theorem makeObj (h : Sound cfg s N O F H free spare)
    (hO : ∀ b, O' b = O b + [s.blocks].count b) (hF : ∀ b, F' b = F b + [s.blocks].count b) :
    Sound cfg s.makeObj N O' F' H free spare :=
  -- one more block, with one more living object that somebody holds
  { h with
    objs := fun b => by
      have hb := h.objs b
      have hsucc : once s.makeObj.blocks b = _ := once_succ s.blocks b
      rw [hsucc, hO]
      show (free.map s.objOf).count b + (s.held cfg).count b + _ + _ ≤ _
      omega
    owned := fun b => by
      have hb := h.owned b
      have hsucc : once s.makeObj.blocks b = _ := once_succ s.blocks b
      rw [hsucc, hF]
      show s.ownedObjects.count b + _ = _
      omega
    -- the object is constructed in the block that is new
    insts := fun i => by
      have hi := h.insts i
      have hliving : s.makeObj.living = s.living ++ [s.constructed] := by
        show Slots.all (s.blocks + 1) s.makeObj.livingAt = _
        rw [Slots.all_succ]
        congr 1
        · apply Slots.all_congr
          intro b hb
          simp [livingAt, PoolThreads.makeObj, construct, Function.update_of_ne (Nat.ne_of_lt hb)]
        · simp [livingAt, PoolThreads.makeObj, construct]
      have hsucc : once s.makeObj.constructed i = _ := once_succ s.constructed i
      rw [hliving, hsucc, List.count_append]
      show s.destroyed.count i + _ = _
      omega
    hollow := fun hgone b => by
      have hb := h.hollow hgone b
      rw [hb]
      by_cases heq : b = s.blocks
      · simp [heq, PoolThreads.makeObj, construct]
      · have hlt : b < s.blocks + 1 ↔ b < s.blocks := by omega
        simp [PoolThreads.makeObj, construct, Function.update_of_ne heq, hlt] }

/-- `std::destroy_at`, by a thread that has the object. -/
theorem destroyAt (h : Sound cfg s N O F H free spare) (hgone : s.gone = false) {obj : Nat}
    (hO : ∀ b, O b = O' b + [obj].count b) (hH : ∀ b, H' b = H b + [obj].count b) :
    Sound cfg (s.destroyAt obj) N O' F H' free spare := by
  -- the instance lives
  have hobj := h.objs obj
  have hown : O obj = O' obj + 1 := by rw [hO, List.count_singleton_self]
  have hone := once_le s.blocks obj
  have hlt : obj < s.blocks := lt_of_once (by omega)
  have halive : s.alive obj = true := by
    have hz := h.hollow hgone obj
    by_contra hdead
    rw [if_pos ⟨hlt, by simpa using hdead⟩] at hz
    omega
  exact
    { h with
      objs := fun b => by
        have hb := h.objs b
        have := hO b
        have := hH b
        show (free.map s.objOf).count b + (s.held cfg).count b + _ + _ ≤ once s.blocks b
        omega
      insts := fun i => by
        have hi := h.insts i
        have hat : (s.destroyAt obj).livingAt = Function.update s.livingAt obj [] := by
          funext b
          by_cases heq : b = obj
          · simp [heq, livingAt, PoolThreads.destroyAt]
          · simp [livingAt, PoolThreads.destroyAt, Function.update_of_ne heq]
        have hcount := Slots.count_all_update s.livingAt [] hlt i
        have hold : s.livingAt obj = [s.inst obj] := by rw [livingAt, if_pos halive]
        rw [hold] at hcount
        show (s.destroyed ++ [s.inst obj]).count i + (s.destroyAt obj).living.count i =
          once s.constructed i
        have hblocks : (s.destroyAt obj).blocks = s.blocks := rfl
        rw [living, hat, hblocks, List.count_append]
        simp only [living, List.count_nil] at hcount hi
        omega
      hollow := fun _ b => by
        rw [hH, h.hollow hgone b]
        by_cases heq : b = obj
        · simp [heq, halive, hlt, PoolThreads.destroyAt]
        · simp [PoolThreads.destroyAt, Function.update_of_ne heq, Ne.symm heq] }

/-- The placement new, by the thread that has destroyed the old instance. -/
theorem construct (h : Sound cfg s N O F H free spare) (hgone : s.gone = false) {obj : Nat}
    (hH : ∀ b, H b = H' b + [obj].count b) (hO : ∀ b, O' b = O b + [obj].count b) :
    Sound cfg (s.construct obj) N O' F H' free spare := by
  -- there is no instance
  have hz := h.hollow hgone obj
  have hpos : H obj = H' obj + 1 := by rw [hH, List.count_singleton_self]
  have hdead : obj < s.blocks ∧ s.alive obj = false := by
    by_contra hno
    rw [if_neg hno] at hz
    omega
  rw [if_pos hdead] at hz
  exact
    { h with
      objs := fun b => by
        have hb := h.objs b
        have := hO b
        have := hH b
        show (free.map s.objOf).count b + (s.held cfg).count b + _ + _ ≤ once s.blocks b
        omega
      insts := fun i => by
        have hi := h.insts i
        have hat : (s.construct obj).livingAt = Function.update s.livingAt obj [s.constructed] := by
          funext b
          by_cases heq : b = obj
          · simp [heq, livingAt, PoolThreads.construct]
          · simp [livingAt, PoolThreads.construct, Function.update_of_ne heq]
        have hcount := Slots.count_all_update s.livingAt [s.constructed] hdead.1 i
        have hold : s.livingAt obj = [] := by rw [livingAt, hdead.2, if_neg Bool.false_ne_true]
        rw [hold] at hcount
        show s.destroyed.count i + (s.construct obj).living.count i = once (s.constructed + 1) i
        have hblocks : (s.construct obj).blocks = s.blocks := rfl
        rw [living, hat, hblocks, once_succ]
        simp only [living, List.count_nil] at hcount hi
        omega
      hollow := fun _ b => by
        have hb := h.hollow hgone b
        have := hH b
        by_cases heq : b = obj
        · rw [heq]
          simp only [PoolThreads.construct, Function.update_self]
          simp
          omega
        · rw [List.count_singleton, if_neg (by simpa using Ne.symm heq)] at this
          simp only [PoolThreads.construct, Function.update_of_ne heq]
          omega }

/-- `_ownedObjects.push_back`. -/
theorem own (h : Sound cfg s N O F H free spare) {obj : Nat}
    (hF : ∀ b, F b = F' b + [obj].count b) :
    Sound cfg { s with ownedObjects := s.ownedObjects ++ [obj] } N O F' H free spare :=
  { h with
    owned := fun b => by
      have hb := h.owned b
      have := hF b
      rw [List.count_append]
      show _ = once s.blocks b
      omega }

/-! ### Nodes -/

/-- `make_unique<Node>`, or `new (std::nothrow) Node`. -/
theorem newNode (h : Sound cfg s N O F H free spare) (hN : ∀ n, N' n = N n + [s.nodes].count n) :
    Sound cfg { s with nodes := s.nodes + 1 } N' O F H free spare :=
  { h with
    nodes := fun n => by
      have hn := h.nodes n
      have hsucc := once_succ s.nodes n
      rw [hN]
      show _ ≤ once (s.nodes + 1) n
      omega }

/-- A node of the spare list is taken off it. -/
theorem takeSpare (h : Sound cfg s N O F H free spare) {n : Nat} (hpool : s.nodePool = some n)
    (hN : ∀ m, N' m = N m + [n].count m) :
    ∃ spare', Sound cfg { s with nodePool := s.next n } N' O F H free spare' := by
  obtain ⟨rest, rfl, hrest⟩ := (hpool ▸ h.chain_spare).exists_cons
  refine ⟨rest, { h with chain_spare := hrest, nodes := fun m => ?_ }⟩
  have hm := h.nodes m
  rw [List.count_cons] at hm
  rw [hN, List.count_singleton]
  show _ ≤ once s.nodes m
  omega

/-- Writing a node sets its object. -/
theorem objOf_update (s : PoolThreads) (n : Nat) (x : PoolNode) :
    (fun m => (Function.update s.node n x m).obj) = Function.update s.objOf n x.obj :=
  Function.comp_update PoolNode.obj s.node n x

/-- Writing a node sets its successor. -/
theorem next_update (s : PoolThreads) (n : Nat) (x : PoolNode) :
    (fun m => (Function.update s.node n x m).next) = Function.update s.next n x.next :=
  Function.comp_update PoolNode.next s.node n x

/-- The objects of the free list, when a node is put on it. -/
theorem map_objOf_pushNode (s : PoolThreads) {n : Nat} (obj : Nat) (hn : n ∉ free) :
    (n :: free).map (s.pushNode n obj).objOf = obj :: free.map s.objOf := by
  have hobjOf : (s.pushNode n obj).objOf = Function.update s.objOf n obj := objOf_update s n _
  rw [List.map_cons, hobjOf, Function.update_self]
  congr 1
  apply List.map_congr_left
  intro m hm
  have hne : m ≠ n := by
    rintro rfl
    exact hn hm
  exact Function.update_of_ne hne _ _

/-- A node with an object is put on the free list, by a thread that has both. -/
theorem pushNode (h : Sound cfg s N O F H free spare) {n obj : Nat}
    (hN : ∀ m, N m = N' m + [n].count m) (hO : ∀ b, O b = O' b + [obj].count b) :
    Sound cfg (s.pushNode n obj) N' O' F H (n :: free) spare := by
  -- the node is on no list
  have hn := h.nodes n
  have hown : N n = N' n + 1 := by rw [hN, List.count_singleton_self]
  have hone := once_le s.nodes n
  have hfree : n ∉ free := List.count_eq_zero.mp (by omega)
  have hspare : n ∉ spare := List.count_eq_zero.mp (by omega)
  have hnext : (s.pushNode n obj).next = Function.update s.next n s.head := next_update s n _
  exact
    { h with
      chain_free := by
        rw [hnext]
        exact h.chain_free.push hfree
      chain_spare := by
        rw [hnext]
        exact h.chain_spare.update hspare _
      freeCount := by
        show s.freeCount + 1 = _
        rw [h.freeCount, List.length_cons]
      nodes := fun m => by
        have hm := h.nodes m
        have := hN m
        rw [List.count_cons]
        rw [List.count_singleton] at this
        show _ ≤ once s.nodes m
        omega
      objs := fun b => by
        have hb := h.objs b
        have := hO b
        rw [map_objOf_pushNode s obj hfree, List.count_cons]
        rw [List.count_singleton] at this
        show _ + (s.held cfg).count b + _ + _ ≤ once s.blocks b
        omega }

/-- The first free object is taken, and its node goes to the spare list. -/
theorem popNode (h : Sound cfg s N O F H free spare) {obj : Nat} (hpop : s.popNode = some (obj, s'))
    (hO : ∀ b, O' b = O b + [obj].count b) :
    ∃ rest spare', free.map s.objOf = obj :: rest.map s'.objOf ∧
      Sound cfg s' N O' F H rest spare' := by
  rw [PoolThreads.popNode] at hpop
  -- an empty free list gives nothing
  cases hhead : s.head with
  | none => rw [hhead] at hpop; exact absurd hpop (by simp)
  | some n =>
    rw [hhead] at hpop
    obtain ⟨rfl, rfl⟩ := Prod.mk.inj (Option.some.inj hpop)
    obtain ⟨rest, rfl, hrest⟩ := (hhead ▸ h.chain_free).exists_cons
    -- the node is in one list, once
    have hn := h.nodes n
    have hone := once_le s.nodes n
    rw [List.count_cons_self] at hn
    have hfree : n ∉ rest := List.count_eq_zero.mp (by omega)
    have hspare : n ∉ spare := List.count_eq_zero.mp (by omega)
    have hobjOf : (fun m => (Function.update s.node n { s.node n with next := s.nodePool } m).obj) =
        s.objOf := by
      rw [objOf_update]
      exact Function.update_eq_self n s.objOf
    refine ⟨rest, n :: spare, ?_,
      { h with
        chain_free := ?_, chain_spare := ?_, freeCount := ?_, nodes := fun m => ?_
        objs := fun b => ?_ }⟩
    -- it goes from the free list to the spare nodes, with its `next` as the only change
    · show (s.node n).obj :: rest.map s.objOf =
        _ :: rest.map fun m => (Function.update s.node n _ m).obj
      rw [hobjOf]
    · show Chain (fun m => (Function.update s.node n _ m).next) (s.next n) rest
      rw [next_update]
      exact hrest.update hfree _
    · show Chain (fun m => (Function.update s.node n _ m).next) (some n) (n :: spare)
      rw [next_update]
      exact h.chain_spare.push hspare
    · show s.freeCount - 1 = _
      rw [h.freeCount, List.length_cons]
      omega
    · have hm := h.nodes m
      rw [List.count_cons] at hm ⊢
      show _ ≤ once s.nodes m
      omega
    · have hb := h.objs b
      have hcons : ((n :: rest).map s.objOf).count b =
          (rest.map s.objOf).count b + [(s.node n).obj].count b := by
        rw [List.map_cons, List.count_cons, List.count_singleton]
        rfl
      rw [hO]
      show (rest.map fun m => (Function.update s.node n _ m).obj).count b +
        (s.held cfg).count b + _ + _ ≤ once s.blocks b
      rw [hobjOf]
      omega

/-! ### Holders -/

/-- A holder changes. -/
theorem count_held_setHolder (s : PoolThreads) {holder : Nat} (h : holder < cfg.holders)
    (obj : Option Nat) (b : Nat) :
    ((s.setHolder holder obj).held cfg).count b + (s.slots holder).toList.count b =
      (s.held cfg).count b + obj.toList.count b :=
  Slots.count_all_map_update Option.toList s.slots obj h b

/-- There are no holders but those of the configuration. -/
theorem holders_setHolder (h : Sound cfg s N O F H free spare) {holder : Nat}
    (hlt : holder < cfg.holders) (obj : Option Nat) :
    ∀ i, cfg.holders ≤ i → (s.setHolder holder obj).slots i = none := by
  intro i hi
  have hne : i ≠ holder := by omega
  exact (Function.update_of_ne hne _ _).trans (h.holders i hi)

/-- A thread gives its object to a holder. -/
theorem give (h : Sound cfg s N O F H free spare) {holder obj : Nat} (hlt : holder < cfg.holders)
    (hO : ∀ b, O b = O' b + [obj].count b) :
    Sound cfg (s.setHolder holder (some obj)) N O' F H free spare :=
  { h with
    objs := fun b => by
      have hb := h.objs b
      have hheld := count_held_setHolder s hlt (some obj) b
      rw [Option.toList_some] at hheld
      have := hO b
      show (free.map s.objOf).count b + _ + _ + _ ≤ once s.blocks b
      omega
    holders := h.holders_setHolder hlt _ }

/-- A thread takes the object of a holder. -/
theorem take (h : Sound cfg s N O F H free spare) {holder : Nat} (hlt : holder < cfg.holders)
    (hO : ∀ b, O' b = O b + (s.slots holder).toList.count b) :
    Sound cfg (s.setHolder holder none) N O' F H free spare :=
  { h with
    objs := fun b => by
      have hb := h.objs b
      have hheld := count_held_setHolder s hlt none b
      rw [Option.toList_none, List.count_nil] at hheld
      rw [hO]
      show (free.map s.objOf).count b + _ + _ + _ ≤ once s.blocks b
      omega
    holders := h.holders_setHolder hlt _ }

/-- The object goes from one holder to another, with which the first parts. -/
theorem move (h : Sound cfg s N O F H free spare) {holder other : Nat} (hlt : holder < cfg.holders)
    (hother : other < cfg.holders) :
    Sound cfg ((s.setHolder holder (s.slots other)).setHolder other none) N O F H free spare :=
  { h with
    objs := fun b => by
      have hb := h.objs b
      have hget := count_held_setHolder s hlt (s.slots other) b
      have hpart := count_held_setHolder (s.setHolder holder (s.slots other)) hother none b
      -- the other holder still has the object, also if it is the same holder
      have hslot : (s.setHolder holder (s.slots other)).slots other = s.slots other := by
        by_cases heq : other = holder
        · rw [heq]
          exact Function.update_self holder _ s.slots
        · exact Function.update_of_ne heq _ s.slots
      rw [hslot, Option.toList_none, List.count_nil] at hpart
      show (free.map s.objOf).count b + _ + _ + _ ≤ once s.blocks b
      omega
    holders := by
      intro i hi
      have hne : i ≠ other := by omega
      exact (Function.update_of_ne hne _ _).trans (h.holders_setHolder hlt _ i hi) }

/-- The section of `release`: the object goes to the free list, or is dropped. -/
theorem releaseSection (h : Sound cfg s N O F H free spare) {obj : Nat} (alloc : Bool)
    (hO : ∀ b, O b = O' b + [obj].count b) :
    ∃ free' spare', Sound cfg (s.releaseSection cfg obj alloc) N O' F H free' spare' := by
  have hdrop : ∃ free' spare', Sound cfg s N O' F H free' spare' := by
    refine ⟨free, spare, h.mono (fun _ => le_rfl) (fun b => ?_) (fun _ => rfl) fun _ => rfl⟩
    rw [hO]
    omega
  rw [PoolThreads.releaseSection]
  split
  · exact hdrop
  split
  · exact hdrop
  split
  · next n hpool =>
    obtain ⟨spare', hspare⟩ := h.takeSpare hpool (fun _ => rfl)
    exact ⟨_, spare', hspare.pushNode (fun _ => rfl) hO⟩
  · split
    · exact ⟨_, spare, (h.newNode fun _ => rfl).pushNode (fun _ => rfl) hO⟩
    · exact hdrop

/-! ### The lists as lists -/

/-- No node is on the two lists, or on one of them twice. -/
theorem nodup_lists (h : Sound cfg s N O F H free spare) : (free ++ spare).Nodup := by
  rw [List.nodup_iff_count_le_one]
  intro n
  have hn := h.nodes n
  have hone := once_le s.nodes n
  rw [List.count_append]
  omega

/-- Two holders never have the same object. -/
theorem one_holder (h : Sound cfg s N O F H free spare) {holder other obj : Nat}
    (hholder : s.slots holder = some obj) (hother : s.slots other = some obj) :
    holder = other := by
  have hlt : ∀ {i}, s.slots i = some obj → i < cfg.holders := by
    intro i hi
    by_contra hle
    rw [h.holders i (Nat.le_of_not_lt hle)] at hi
    cases hi
  by_contra hne
  -- without the one holder there would still be the other
  have hwithout := count_held_setHolder s (hlt hholder) none obj
  have hleft : 0 < ((s.setHolder holder none).held cfg).count obj := by
    apply List.count_pos_iff.mpr
    apply Slots.mem_all.mpr
    have hslot : (s.setHolder holder none).slots other = some obj :=
      (Function.update_of_ne (Ne.symm hne) _ _).trans hother
    exact ⟨other, hlt hother, by simp [hslot]⟩
  have hobj := h.objs obj
  have hone := once_le s.blocks obj
  rw [hholder, Option.toList_some, List.count_singleton_self, Option.toList_none,
    List.count_nil] at hwithout
  omega

/-- A free object has no holder. -/
theorem free_not_held (h : Sound cfg s N O F H free spare) {n holder : Nat} (hn : n ∈ free) :
    s.slots holder ≠ some (s.objOf n) := by
  intro hslot
  have hlt : holder < cfg.holders := by
    by_contra hle
    rw [h.holders holder (Nat.le_of_not_lt hle)] at hslot
    cases hslot
  have hheld : 0 < (s.held cfg).count (s.objOf n) := by
    apply List.count_pos_iff.mpr
    apply Slots.mem_all.mpr
    exact ⟨holder, hlt, by simp [hslot]⟩
  have hfree : 0 < (free.map s.objOf).count (s.objOf n) :=
    List.count_pos_iff.mpr (List.mem_map_of_mem hn)
  have hobj := h.objs (s.objOf n)
  have hone := once_le s.blocks (s.objOf n)
  omega

/-- The debug mode's walk sees the whole free list. -/
theorem walk_head (h : Sound cfg s N O F H free spare) : walk s.next s.nodes s.head = free := by
  apply walk_eq h.chain_free
  have hsub : free ⊆ List.range s.nodes := by
    intro n hmem
    have hn := h.nodes n
    have hpos : 0 < free.count n := List.count_pos_iff.mpr hmem
    exact List.mem_range.mpr (lt_of_once (by omega))
  simpa using h.chain_free.nodup.length_le_of_subset hsub

end Sound

/-- The pool as the list of its free objects. -/
def toPool (cfg : PoolThreadsConfig) (s : PoolThreads) : ObjectPool Nat :=
  { objs := s.inst, allocCountObj := s.blocks, free := (walk s.next s.nodes s.head).map s.objOf
    maxSize := cfg.maxSize, debug := s.debug }

namespace Sound

variable {N O F H N' O' : Nat → Nat} {free spare : List Nat}

/-- The section of `release` is `release` on the list of the free objects. -/
theorem releaseSection_refines (h : Sound cfg s N O F H free spare) {obj : Nat}
    (hO : ∀ b, O b = O' b + [obj].count b) :
    (s.releaseSection cfg obj true).toPool cfg = (s.toPool cfg).release obj := by
  have hdebug : (s.debug && (walk s.next s.nodes s.head).any fun n => (s.node n).obj == obj) = true
      ↔ s.debug = true ∧ obj ∈ (walk s.next s.nodes s.head).map s.objOf := by
    simp [objOf]
  have hlen : ((walk s.next s.nodes s.head).map s.objOf).length = s.freeCount := by
    rw [h.walk_head, List.length_map, h.freeCount]
  -- a node that is new or spare is not on the free list
  have hpush : ∀ {t : PoolThreads} {n : Nat} {N' spare'}, Sound cfg t N' O F H free spare' →
      (∀ m, N' m = N m + [n].count m) → t.objOf = s.objOf → t.inst = s.inst →
      t.blocks = s.blocks → t.debug = s.debug →
      (t.pushNode n obj).toPool cfg = { s.toPool cfg with free := obj :: (s.toPool cfg).free } := by
    intro t n N' spare' ht hN hobjOf hinst hblocks hdebug
    have hn := ht.nodes n
    have hown : N' n = N n + 1 := by rw [hN, List.count_singleton_self]
    have hone := once_le t.nodes n
    have hfree : n ∉ free := List.count_eq_zero.mp (by omega)
    have hpushed := ht.pushNode hN hO
    rw [toPool, hpushed.walk_head, map_objOf_pushNode t obj hfree, hobjOf, toPool, h.walk_head]
    simp only [PoolThreads.pushNode, hinst, hblocks, hdebug]
  rw [ObjectPool.release, PoolThreads.releaseSection]
  simp only [hdebug]
  show _ = if s.debug = true ∧ obj ∈ (walk s.next s.nodes s.head).map s.objOf then _ else
    if 0 < cfg.maxSize ∧ cfg.maxSize ≤ ((walk s.next s.nodes s.head).map s.objOf).length then _
    else _
  rw [hlen]
  split
  · rfl
  split
  · rfl
  split
  · next n hpool =>
    obtain ⟨spare', hspare⟩ := h.takeSpare hpool (fun _ => rfl)
    exact hpush hspare (fun _ => rfl) rfl rfl rfl rfl
  · exact hpush (h.newNode fun _ => rfl) (fun _ => rfl) rfl rfl rfl rfl

/-- A hit, when no other thread comes between, is `acquireImpl` on that list. -/
theorem hit_refines (h : Sound cfg s N O F H free spare) {obj : Nat}
    (hpop : s.popNode = some (obj, s')) :
    (obj, ((s'.destroyAt obj).construct obj).toPool cfg) =
      (s.toPool cfg).acquireImpl s.constructed := by
  obtain ⟨rest, spare', hfree, hs'⟩ := h.popNode hpop fun _ => rfl
  have htaken : (s.toPool cfg).free = obj :: rest.map s'.objOf := by
    rw [← hfree, ← h.walk_head]
    rfl
  have hrest : ((s'.destroyAt obj).construct obj |>.toPool cfg).free = rest.map s'.objOf := by
    rw [← hs'.walk_head]
    rfl
  rw [ObjectPool.acquireImpl, htaken]
  rw [PoolThreads.popNode] at hpop
  cases hhead : s.head with
  | none => rw [hhead] at hpop; exact absurd hpop (by simp)
  | some n =>
    rw [hhead] at hpop
    obtain ⟨rfl, rfl⟩ := Prod.mk.inj (Option.some.inj hpop)
    simp only
    rw [← hrest]
    rfl

/-- So is a miss. -/
theorem miss_refines (s : PoolThreads) (hpop : s.popNode = none) :
    (s.blocks, s.makeObj.toPool cfg) = (s.toPool cfg).acquireImpl s.constructed := by
  have hhead : s.head = none := by
    cases hhead : s.head with
    | none => rfl
    | some n => simp [PoolThreads.popNode, hhead] at hpop
  have hfree : (s.toPool cfg).free = [] := by
    cases hnodes : s.nodes <;> simp [toPool, hhead, hnodes, walk]
  rw [ObjectPool.acquireImpl, hfree]
  simp only
  rw [← hfree]
  rfl

end Sound

/-! ## The invariant -/

/-- How often the threads have a thing. -/
def share (cfg : PoolThreadsConfig) (s : PoolThreads) (f : PoolPc → List Nat) (b : Nat) : Nat :=
  (s.inPc cfg f).count b

/-- The threads without the thread `thread`. -/
def others (cfg : PoolThreadsConfig) (s : PoolThreads) (thread : Nat) (f : PoolPc → List Nat)
    (b : Nat) : Nat :=
  share cfg s f b - (f (s.pc thread)).count b

/-- The sound pool between two steps. -/
structure Inv (cfg : PoolThreadsConfig) (s : PoolThreads) : Prop where
  sound : ∃ free spare, Sound cfg s (share cfg s PoolPc.nodes) (share cfg s PoolPc.objs)
    (share cfg s PoolPc.fresh) (share cfg s PoolPc.hollow) free spare
  holders : ∀ thread, ∀ holder ∈ (s.pc thread).holders, holder < cfg.holders

/-- A thread's own part of the share. -/
theorem le_share (s : PoolThreads) {thread : Nat} (h : thread < cfg.threads)
    (f : PoolPc → List Nat) (b : Nat) : (f (s.pc thread)).count b ≤ share cfg s f b := by
  have hwithout := Slots.count_all_update (fun i => f (s.pc i)) [] h b
  rw [List.count_nil] at hwithout
  show _ ≤ (Slots.all cfg.threads fun i => f (s.pc i)).count b
  omega

/-- The share of all is that of the others and that of the thread. -/
theorem share_eq (s : PoolThreads) {thread : Nat} (h : thread < cfg.threads)
    (f : PoolPc → List Nat) (b : Nat) :
    share cfg s f b = others cfg s thread f b + (f (s.pc thread)).count b := by
  have hle := le_share s h f b
  rw [others]
  omega

/-- A thread goes on: the share of all is that of the others and its own. -/
theorem share_goto (s : PoolThreads) {thread : Nat} (h : thread < cfg.threads) (pc : PoolPc)
    (f : PoolPc → List Nat) (b : Nat) :
    share cfg (s.goto thread pc) f b = others cfg s thread f b + (f pc).count b := by
  have hgoto : share cfg (s.goto thread pc) f b + (f (s.pc thread)).count b =
      share cfg s f b + (f pc).count b := Slots.count_all_map_update f s.pc pc h b
  have hle := le_share s h f b
  rw [others]
  omega

/-- The sound pool with a thread at a place, and the shares of the others. -/
def SoundAt (cfg : PoolThreadsConfig) (s : PoolThreads) (N O F H : Nat → Nat) (pc : PoolPc) :
    Prop :=
  ∃ free spare, Sound cfg s (fun n => N n + pc.nodes.count n) (fun b => O b + pc.objs.count b)
    (fun b => F b + pc.fresh.count b) (fun b => H b + pc.hollow.count b) free spare

/-- Taking a node off the list moves no thread. -/
theorem popNode_pc {obj : Nat} (h : s.popNode = some (obj, s')) : s'.pc = s.pc := by
  rw [popNode] at h
  cases hhead : s.head <;> simp only [hhead, Option.some.injEq, Prod.mk.injEq] at h
  · exact absurd h (by simp)
  · exact h.2 ▸ rfl

/-- The section of `release` moves no thread. -/
theorem releaseSection_pc (s : PoolThreads) (obj : Nat) (alloc : Bool) :
    (s.releaseSection cfg obj alloc).pc = s.pc := by
  rw [releaseSection]
  repeat' split
  all_goals rfl

/-- A thread changes only what it has. -/
theorem Inv.goto (h : Inv cfg s) {thread : Nat} (ht : thread < cfg.threads) {before pc : PoolPc}
    (hbefore : s.pc thread = before) (hpc : s'.pc = s.pc)
    (hholders : ∀ holder ∈ pc.holders, holder < cfg.holders)
    (hsound : ∀ N O F H free spare,
      Sound cfg s (fun n => N n + before.nodes.count n) (fun b => O b + before.objs.count b)
        (fun b => F b + before.fresh.count b) (fun b => H b + before.hollow.count b) free spare →
      SoundAt cfg s' N O F H pc) :
    Inv cfg (s'.goto thread pc) := by
  subst hbefore
  -- the shares of the others stay, and the thread's own is that of its new place
  have hshare : ∀ f, share cfg (s'.goto thread pc) f = fun b =>
      others cfg s thread f b + (f pc).count b := by
    intro f
    funext b
    have hgoto : s'.goto thread pc = { s' with pc := (s.goto thread pc).pc } := by
      rw [PoolThreads.goto, hpc]
      rfl
    rw [← share_goto s ht pc f b, hgoto]
    rfl
  obtain ⟨free, spare, hs⟩ := h.sound
  obtain ⟨free', spare', hs'⟩ := hsound (others cfg s thread PoolPc.nodes)
    (others cfg s thread PoolPc.objs) (others cfg s thread PoolPc.fresh)
    (others cfg s thread PoolPc.hollow) free spare (by simpa only [← share_eq s ht] using hs)
  constructor
  · refine ⟨free', spare', ?_⟩
    rw [hshare, hshare, hshare, hshare]
    exact hs'.goto thread pc
  · intro i holder hmem
    by_cases heq : i = thread
    · rw [heq] at hmem
      exact hholders holder (by simpa [PoolThreads.goto] using hmem)
    · apply h.holders i holder
      simpa [PoolThreads.goto, Function.update_of_ne heq, hpc] using hmem

/-- The next step of a thread. -/
theorem inv_threadStep (h : Inv cfg s) (hgone : s.gone = false) {thread : Nat}
    (ht : thread < cfg.threads) {alloc : Bool} (hstep : s.threadStep cfg thread alloc = some s') :
    Inv cfg s' := by
  -- what the thread holds at each place is known: only this part changes
  have hholders := h.holders thread
  rw [threadStep] at hstep
  cases hpc : s.pc thread with
  | idle => simp [hpc] at hstep
  | reserve left =>
    cases left with
    | zero =>
      simp only [hpc, Option.some.injEq] at hstep
      subst hstep
      apply h.goto ht hpc
      · rfl
      · simp [PoolPc.holders]
      · intro N O F H free spare hs
        exact ⟨free, spare, hs⟩
    | succ left =>
      simp only [hpc, Option.some.injEq] at hstep
      subst hstep
      apply h.goto ht hpc
      · rfl
      · simp [PoolPc.holders]
      -- `reserve` makes an object and a node outside the lock
      · intro N O F H free spare hs
        exact ⟨free, spare, (hs.makeObj (fun _ => rfl) fun _ => rfl).newNode fun _ => rfl⟩
  | reserveLock left obj node =>
    simp only [hpc, Option.some.injEq] at hstep
    subst hstep
    apply h.goto ht hpc
    · rfl
    · simp [PoolPc.holders]
    · intro N O F H free spare hs
      -- and pushes both in it
      exact ⟨_, spare, (hs.own fun _ => rfl).pushNode (fun _ => rfl) fun _ => rfl⟩
  | acquire holder =>
    simp only [hpc] at hstep
    rw [hpc] at hholders
    cases hpop : s.popNode with
    | none =>
      simp only [hpop, Option.some.injEq] at hstep
      subst hstep
      apply h.goto ht hpc
      · rfl
      · exact hholders
      · intro N O F H free spare hs
        exact ⟨free, spare, hs⟩
    -- a hit takes the front of the free list
    | some popped =>
      simp only [hpop, Option.some.injEq] at hstep
      subst hstep
      apply h.goto ht hpc
      · exact popNode_pc hpop
      · exact hholders
      · intro N O F H free spare hs
        obtain ⟨rest, spare', -, hs'⟩ := hs.popNode hpop (fun _ => rfl)
        exact ⟨rest, spare', hs'⟩
  | hit holder obj =>
    simp only [hpc, Option.some.injEq] at hstep
    rw [hpc] at hholders
    subst hstep
    apply h.goto ht hpc
    · rfl
    · exact hholders
    -- the old object is destroyed, then one is constructed in its place
    · intro N O F H free spare hs
      exact ⟨free, spare, hs.destroyAt hgone (fun _ => rfl) fun _ => rfl⟩
  | ended holder obj =>
    simp only [hpc, Option.some.injEq] at hstep
    rw [hpc] at hholders
    subst hstep
    apply h.goto ht hpc
    · rfl
    · simp [PoolPc.holders]
    · intro N O F H free spare hs
      have hlt : holder < cfg.holders := hholders holder (by simp [PoolPc.holders])
      exact ⟨free, spare, (hs.construct hgone (fun _ => rfl) fun _ => rfl).give hlt fun _ => rfl⟩
  | miss holder =>
    simp only [hpc, Option.some.injEq] at hstep
    rw [hpc] at hholders
    subst hstep
    apply h.goto ht hpc
    · rfl
    · exact hholders
    -- a miss makes an object
    · intro N O F H free spare hs
      exact ⟨free, spare, hs.makeObj (fun _ => rfl) fun _ => rfl⟩
  | made holder obj =>
    simp only [hpc, Option.some.injEq] at hstep
    rw [hpc] at hholders
    subst hstep
    apply h.goto ht hpc
    · rfl
    · simp [PoolPc.holders]
    · intro N O F H free spare hs
      have hlt : holder < cfg.holders := hholders holder (by simp [PoolPc.holders])
      exact ⟨free, spare, (hs.own fun _ => rfl).give hlt fun _ => rfl⟩
  -- `release` pushes the object, or leaves it out of the list
  | release obj assign =>
    cases assign with
    | none =>
      simp only [hpc, Option.some.injEq] at hstep
      subst hstep
      apply h.goto ht hpc
      · exact releaseSection_pc s obj alloc
      · simp [PoolPc.holders]
      · intro N O F H free spare hs
        exact hs.releaseSection alloc fun _ => rfl
    | some pair =>
      simp only [hpc, Option.some.injEq] at hstep
      rw [hpc] at hholders
      subst hstep
      apply h.goto ht hpc
      · exact releaseSection_pc s obj alloc
      · exact hholders
      · intro N O F H free spare hs
        exact hs.releaseSection alloc fun _ => rfl
  | assign holder other =>
    simp only [hpc, Option.some.injEq] at hstep
    rw [hpc] at hholders
    subst hstep
    apply h.goto ht hpc
    · rfl
    · simp [PoolPc.holders]
    · intro N O F H free spare hs
      have hlt : holder < cfg.holders := hholders holder (by simp [PoolPc.holders])
      have hother : other < cfg.holders := hholders other (by simp [PoolPc.holders])
      exact ⟨free, spare, hs.move hlt hother⟩

/-- A call. -/
theorem inv_call (h : Inv cfg s) {thread : Nat} (ht : thread < cfg.threads)
    (hidle : s.pc thread = .idle) {c : PoolCall} (hvalid : s.valid cfg c = true) :
    Inv cfg (s.call thread c) := by
  obtain ⟨free, spare, hs⟩ := h.sound
  -- each call enters its first place; what it takes leaves its slot
  cases c with
  | reserve n =>
    apply h.goto ht hidle
    · rfl
    · simp [PoolPc.holders]
    · intro N O F H free spare hs
      exact ⟨free, spare, hs⟩
  | acquire holder =>
    simp only [valid, Bool.and_eq_true, decide_eq_true_eq] at hvalid
    apply h.goto ht hidle
    · rfl
    · simpa [PoolPc.holders] using hvalid.1
    · intro N O F H free spare hs
      exact ⟨free, spare, hs⟩
  | release holder =>
    have hlt : holder < cfg.holders := of_decide_eq_true hvalid
    rw [call]
    cases hslot : s.slots holder with
    | none => exact h
    | some obj =>
      apply h.goto ht hidle
      · rfl
      · simp [PoolPc.holders]
      -- the slot is emptied before the lock is taken
      · intro N O F H free spare hs
        refine ⟨free, spare, hs.take hlt fun b => ?_⟩
        rw [hslot]
        rfl
  | move holder other =>
    simp only [valid, Bool.and_eq_true, decide_eq_true_eq] at hvalid
    exact ⟨⟨free, spare, hs.move hvalid.1.1.1 hvalid.1.1.2⟩, h.holders⟩
  | assign holder other =>
    simp only [valid, Bool.and_eq_true, decide_eq_true_eq] at hvalid
    have hboth : ∀ i ∈ [holder, other], i < cfg.holders := by simpa using hvalid
    rw [call]
    -- an assignment to itself does nothing
    split
    · exact h
    cases hslot : s.slots holder with
    | none =>
      apply h.goto ht hidle
      · rfl
      · exact hboth
      · intro N O F H free spare hs
        exact ⟨free, spare, hs⟩
    | some obj =>
      apply h.goto ht hidle
      · rfl
      · exact hboth
      · intro N O F H free spare hs
        refine ⟨free, spare, hs.take hvalid.1 fun b => ?_⟩
        rw [hslot]
        rfl

/-- When every thread is outside, the threads have nothing. -/
theorem share_idle (h : ∀ thread < cfg.threads, s.pc thread = .idle) {f : PoolPc → List Nat}
    (hf : f .idle = []) (b : Nat) : share cfg s f b = 0 := by
  rw [share, List.count_eq_zero]
  intro hmem
  obtain ⟨thread, ht, hin⟩ := Slots.mem_all.mp hmem
  rw [h thread ht, hf] at hin
  exact absurd hin List.not_mem_nil

/-- Then the pool owns each block, and an instance lives in each. -/
theorem Sound.perm_living {N O F H : Nat → Nat} {free spare : List Nat}
    (h : Sound cfg s N O F H free spare) (hgone : s.gone = false) (hF : ∀ b, F b = 0)
    (hH : ∀ b, H b = 0) : (s.ownedObjects.map s.inst).Perm s.living := by
  have hblocks : s.ownedObjects.Perm (List.range s.blocks) := by
    rw [List.perm_iff_count]
    intro b
    have hb := h.owned b
    rw [hF] at hb
    rw [List.count_range]
    exact hb
  have hliving : s.living = (List.range s.blocks).map s.inst := by
    rw [living, Slots.all, List.map_eq_flatMap]
    apply List.flatMap_congr
    intro b hb
    have hz := h.hollow hgone b
    have hlt : b < s.blocks := List.mem_range.mp hb
    have halive : s.alive b = true := by
      by_contra hdead
      rw [hH, if_pos ⟨hlt, by simpa using hdead⟩] at hz
      omega
    rw [livingAt, if_pos halive]
  rw [hliving]
  exact hblocks.map _

/-- `~ObjectPool` destroys what lives. -/
theorem inv_destroy (h : Inv cfg s) (hgone : s.gone = false)
    (hidle : ∀ thread < cfg.threads, s.pc thread = .idle) :
    Inv cfg { s with
      destroyed := s.destroyed ++ s.ownedObjects.map s.inst
      alive := fun _ => false
      gone := true } := by
  obtain ⟨free, spare, hs⟩ := h.sound
  have hperm := hs.perm_living hgone (share_idle hidle rfl) (share_idle hidle rfl)
  refine ⟨⟨free, spare, { hs with insts := fun i => ?_, hollow := fun h => by cases h }⟩, h.holders⟩
  have hi := hs.insts i
  have hnone : Slots.all s.blocks (fun _ => ([] : List Nat)) = [] := Slots.all_nil fun _ => rfl
  show (s.destroyed ++ s.ownedObjects.map s.inst).count i + (Slots.all s.blocks fun _ => []).count i
    = once s.constructed i
  rw [hnone, List.count_append, hperm.count_eq, List.count_nil]
  exact hi

/-- Every step keeps the pool sound. -/
theorem inv_step (h : Inv cfg s) {act : PoolThreadsAct} (hstep : step cfg s act = some s') :
    Inv cfg s' := by
  unfold step at hstep
  by_cases hgone : s.gone = true
  · simp [hgone] at hstep
  rw [if_neg hgone] at hstep
  -- a pool that is gone does nothing
  have hgone' : s.gone = false := by simpa using hgone
  cases act with
  | call thread c =>
    simp only [Option.ite_none_right_eq_some, Option.some.injEq] at hstep
    obtain ⟨⟨ht, hidle, hvalid⟩, rfl⟩ := hstep
    exact inv_call h ht hidle hvalid
  | step thread alloc =>
    simp only [Option.ite_none_right_eq_some] at hstep
    exact inv_threadStep h hgone' hstep.1 hstep.2
  | setDebug enabled =>
    simp only [Option.some.injEq] at hstep
    subst hstep
    obtain ⟨free, spare, hs⟩ := h.sound
    exact ⟨⟨free, spare, hs.setDebug enabled⟩, h.holders⟩
  | destroy =>
    simp only [Option.ite_none_right_eq_some, Option.some.injEq] at hstep
    obtain ⟨hall, rfl⟩ := hstep
    apply inv_destroy h hgone'
    intro thread ht
    simpa using List.all_eq_true.mp hall thread (List.mem_range.mpr ht)

/-- Nothing lives in a pool that is gone. -/
theorem living_of_destroy (hstep : step cfg s .destroy = some s') : s'.living = [] := by
  unfold step at hstep
  split at hstep
  · cases hstep
  · simp only [Option.ite_none_right_eq_some, Option.some.injEq] at hstep
    obtain ⟨-, rfl⟩ := hstep
    exact Slots.all_nil fun _ => rfl

/-- A new pool has nothing anywhere. -/
theorem inv_init (cfg : PoolThreadsConfig) : Inv cfg init := by
  have hshare : ∀ f : PoolPc → List Nat, f .idle = [] → share cfg init f = fun _ => 0 :=
    fun f hf => funext (share_idle (fun _ _ => rfl) hf)
  have hheld : init.held cfg = [] := Slots.all_nil fun _ => rfl
  refine ⟨⟨[], [], ?_⟩, by simp [init, PoolPc.holders]⟩
  rw [hshare _ rfl, hshare _ rfl, hshare _ rfl, hshare _ rfl]
  exact
    { chain_free := .nil
      chain_spare := .nil
      freeCount := rfl
      nodes := fun n => by simp
      objs := fun b => by simp [hheld]
      owned := fun b => by simp [init, once]
      insts := fun i => by simp [init, living, once]
      hollow := fun _ b => by simp [init]
      holders := fun _ _ => rfl }

/-- In every run the account is right. -/
theorem inv_run {acts : List PoolThreadsAct} (hrun : Run.run (step cfg) init acts = some s) :
    Inv cfg s :=
  Run.invariant (fun _ _ _ h hstep => inv_step h hstep) (inv_init cfg) hrun

/-! ## Every run -/

/-- No object has two holders, and none that is free has one; the free list and the spare
    list end, are disjoint and visit no node twice, and `_freeCount` counts the free list;
    and every instance that was constructed lives in one block or has been destroyed once,
    and has been destroyed once when the pool is. -/
theorem pool_invariants {acts : List PoolThreadsAct}
    (hrun : Run.run (step cfg) init acts = some s) :
    (∀ holder other obj, s.slots holder = some obj → s.slots other = some obj →
      holder = other) ∧
    (∃ free spare, Chain s.next s.head free ∧ Chain s.next s.nodePool spare ∧
      (free ++ spare).Nodup ∧ s.freeCount = free.length ∧
      ∀ n ∈ free, ∀ holder, s.slots holder ≠ some (s.objOf n)) ∧
    (∀ i < s.constructed, s.destroyed.count i + s.living.count i = 1) ∧
    ∀ t, step cfg s .destroy = some t → ∀ i < t.constructed, t.destroyed.count i = 1 := by
  have hinv := inv_run hrun
  obtain ⟨free, spare, hs⟩ := hinv.sound
  refine ⟨?_, ⟨free, spare, hs.chain_free, hs.chain_spare, hs.nodup_lists, hs.freeCount, ?_⟩, ?_, ?_⟩
  · intro holder other obj hholder hother
    exact hs.one_holder hholder hother
  · intro n hn holder hslot
    exact hs.free_not_held hn hslot
  · intro i hi
    rw [hs.insts, once, if_pos hi]
  · intro t hdestroy i hi
    obtain ⟨free, spare, ht⟩ := (inv_step hinv hdestroy).sound
    have hcount := ht.insts i
    rw [living_of_destroy hdestroy, once, if_pos hi] at hcount
    exact hcount

/-- Two threads, two holders, and a pool that keeps one free object. -/
def twoThreads : PoolThreadsConfig := { threads := 2, holders := 2, maxSize := 1 }

/-- A reserved object and a new one are taken at once and given back; the pool has no room
    for the new one. -/
def dropRun : List PoolThreadsAct :=
  [.call 0 (.reserve 1), .step 0 true, .step 0 true, .step 0 true,
    .call 0 (.acquire 0), .step 0 true, .call 1 (.acquire 1), .step 1 true, .step 1 true,
    .step 0 true, .step 1 true, .step 0 true,
    .call 0 (.release 0), .call 1 (.release 1), .step 0 true, .step 1 true]

/-- The dropped instance is destroyed with the pool. -/
theorem pool_invariants_drop :
    ∃ s t, Run.run (step twoThreads) init dropRun = some s ∧ s.freeCount = 1 ∧
      s.destroyed = [0] ∧ step twoThreads s .destroy = some t ∧ t.destroyed.count 1 = 1 := by
  have hend : (Run.run (step twoThreads) init dropRun).map
      (fun s => (s.freeCount, s.destroyed, (step twoThreads s .destroy).map (·.constructed))) =
        some (1, [0], some 3) := by decide
  obtain ⟨s, hrun, hs⟩ := Option.map_eq_some_iff.mp hend
  simp only [Prod.mk.injEq] at hs
  obtain ⟨hcount, hdestroyed, ht⟩ := hs
  obtain ⟨t, hstep, hconstructed⟩ := Option.map_eq_some_iff.mp ht
  exact ⟨s, t, hrun, hcount, hdestroyed, hstep,
    (pool_invariants hrun).2.2.2 t hstep 1 (by omega)⟩

end PoolThreads

end Athena
