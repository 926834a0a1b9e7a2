import Mathlib.Logic.Function.Basic

/-!
# The object pool (`core/common/ObjectPool.hpp`)

A pool owns the storage of its objects until the process ends: `release` puts an
object on the free chain without destroying it, and `acquireImpl` takes the last one
put there and constructs the new object in its storage.  A pointer to a pooled object
is the number of its storage block; `objs p` is what stands there, also after the
object was released.

The chain is the list of the objects from `_head` on (its nodes, and the spare nodes,
do not influence which object is handed out), `_freeCount` is its length, and memory
never runs out.
-/

namespace Athena

/-- `core::ObjectPool<T>`. -/
structure ObjectPool (T : Type) where
  /-- the object standing in each storage block -/
  objs : Nat → T
  /-- `_ownedObjects`: blocks below this number exist -/
  allocCountObj : Nat
  /-- the free chain from `_head` on -/
  free : List Nat
  maxSize : Nat
  debug : Bool

namespace ObjectPool

variable {T : Type}

/-- `GetPool`: an empty pool that keeps at most 4096 objects on its free chain. -/
def GetPool [Inhabited T] : ObjectPool T :=
  { objs := fun _ => default, allocCountObj := 0, free := [], maxSize := 4096, debug := false }

/-- `release`. -/
def release (pool : ObjectPool T) (obj : Nat) : ObjectPool T :=
  -- only the debug mode refuses an object that is on the chain already
  if pool.debug = true ∧ obj ∈ pool.free then pool
  else if 0 < pool.maxSize ∧ pool.maxSize ≤ pool.free.length then pool
  else { pool with free := obj :: pool.free }

/-- `acquireImpl`: the block, and the pool with the new object constructed in it. -/
def acquireImpl (pool : ObjectPool T) (x : T) : Nat × ObjectPool T :=
  match pool.free with
  | obj :: rest =>
    (obj, { pool with free := rest, objs := Function.update pool.objs obj x })
  | [] =>
    (pool.allocCountObj,
      { pool with
        allocCountObj := pool.allocCountObj + 1
        objs := Function.update pool.objs pool.allocCountObj x })

/-- The chain holds existing blocks, each once. -/
structure Wf (pool : ObjectPool T) : Prop where
  nodup : pool.free.Nodup
  lt_alloc : ∀ p ∈ pool.free, p < pool.allocCountObj

/-- A block that exists and is not on the chain. -/
def Live (pool : ObjectPool T) (p : Nat) : Prop :=
  p < pool.allocCountObj ∧ p ∉ pool.free

/-- A new pool has no free object. -/
theorem wf_getPool [Inhabited T] : (GetPool : ObjectPool T).Wf where
  nodup := List.nodup_nil
  lt_alloc := by simp [GetPool]

/-- A released object stays as it is until its storage is used again. -/
@[simp] theorem release_objs (pool : ObjectPool T) (obj : Nat) :
    (pool.release obj).objs = pool.objs := by
  unfold release; split
  · rfl
  · split <;> rfl

/-- Releasing a live object keeps the pool well formed. -/
theorem Wf.release {pool : ObjectPool T} {obj : Nat} (h : pool.Wf) (hobj : pool.Live obj) :
    (pool.release obj).Wf := by
  unfold ObjectPool.release
  split
  · exact h
  · split
    · exact h
    · exact { nodup := List.nodup_cons.mpr ⟨hobj.2, h.nodup⟩
              lt_alloc := by
                intro p hp
                rcases List.mem_cons.mp hp with rfl | hp
                · exact hobj.1
                · exact h.lt_alloc p hp }

/-- Other objects stay live. -/
theorem Live.release {pool : ObjectPool T} {p obj : Nat} (h : pool.Live p) (hne : p ≠ obj) :
    (pool.release obj).Live p := by
  unfold ObjectPool.release
  split
  · exact h
  · split
    · exact h
    · exact ⟨h.1, by simpa [hne] using h.2⟩

/-- Acquiring keeps the pool well formed. -/
theorem Wf.acquireImpl {pool : ObjectPool T} (h : pool.Wf) (x : T) :
    (pool.acquireImpl x).2.Wf := by
  unfold ObjectPool.acquireImpl
  split
  · rename_i obj rest hfree
    have hnodup := h.nodup
    rw [hfree] at hnodup
    exact { nodup := (List.nodup_cons.mp hnodup).2
            lt_alloc := fun p hp => h.lt_alloc p (by rw [hfree]; exact List.mem_cons_of_mem _ hp) }
  · rename_i hfree
    exact { nodup := h.nodup
            lt_alloc := fun p hp => Nat.lt_succ_of_lt (h.lt_alloc p hp) }

/-- The acquired object is live, and was not. -/
theorem acquireImpl_live {pool : ObjectPool T} (h : pool.Wf) (x : T) :
    (pool.acquireImpl x).2.Live (pool.acquireImpl x).1 ∧ ¬pool.Live (pool.acquireImpl x).1 := by
  unfold acquireImpl
  split
  · rename_i obj rest hfree
    have hnodup := h.nodup
    rw [hfree] at hnodup
    exact ⟨⟨h.lt_alloc obj (by simp [hfree]), (List.nodup_cons.mp hnodup).1⟩,
      fun hlive => hlive.2 (by simp [hfree])⟩
  · rename_i hfree
    exact ⟨⟨Nat.lt_succ_self _, by simp [hfree]⟩, fun hlive => Nat.lt_irrefl _ hlive.1⟩

/-- Nothing else becomes live. -/
theorem live_of_acquireImpl {pool : ObjectPool T} {x : T} {p : Nat}
    (h : (pool.acquireImpl x).2.Live p) : p = (pool.acquireImpl x).1 ∨ pool.Live p := by
  unfold acquireImpl at h ⊢
  split at h
  · rename_i obj rest hfree
    by_cases hp : p = obj
    · exact .inl hp
    · right
      refine ⟨h.1, ?_⟩
      rw [hfree, List.mem_cons, not_or]
      exact ⟨hp, h.2⟩
  · have hlt : p < pool.allocCountObj + 1 := h.1
    by_cases hp : p = pool.allocCountObj
    · exact .inl hp
    · exact .inr ⟨by omega, h.2⟩

/-- A live object is not touched: it stays live, and nothing is constructed in its
    block. -/
theorem Live.acquireImpl {pool : ObjectPool T} {p : Nat} (h : pool.Live p) (x : T) :
    (pool.acquireImpl x).2.Live p ∧ (pool.acquireImpl x).2.objs p = pool.objs p := by
  unfold ObjectPool.acquireImpl
  split
  · rename_i obj rest hfree
    have hmem := h.2
    rw [hfree, List.mem_cons, not_or] at hmem
    exact ⟨⟨h.1, hmem.2⟩, Function.update_of_ne hmem.1 _ _⟩
  · have hlt := h.1
    exact ⟨⟨Nat.lt_succ_of_lt hlt, h.2⟩, Function.update_of_ne (Nat.ne_of_lt hlt) _ _⟩

/-- The acquired object is the one that was constructed. -/
@[simp] theorem acquireImpl_objs_self (pool : ObjectPool T) (x : T) :
    (pool.acquireImpl x).2.objs (pool.acquireImpl x).1 = x := by
  unfold acquireImpl
  split <;> simp

/-- Construction happens in the acquired block only. -/
theorem acquireImpl_objs_of_ne {pool : ObjectPool T} {x : T} {p : Nat}
    (h : p ≠ (pool.acquireImpl x).1) : (pool.acquireImpl x).2.objs p = pool.objs p := by
  unfold acquireImpl at h ⊢
  split at h <;> exact Function.update_of_ne h _ _

end ObjectPool

end Athena
