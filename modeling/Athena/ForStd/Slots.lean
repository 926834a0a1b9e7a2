import Mathlib.Data.List.Count
import Mathlib.Data.List.Range
import Mathlib.Logic.Function.Basic

/-!
# Things in numbered slots

`Slots.all n f` are the things in the slots below `n`, of which slot `i` holds `f i`.
Changing one slot changes the account by what the slot held and by what it holds then.

## Key results

- `count_all_update`: the account after one slot changes
- `mem_all`: where a thing is
-/

namespace Athena.Slots

variable {α β : Type}

/-- The things in the slots below `n`. -/
def all (n : Nat) (f : Nat → List β) : List β := (List.range n).flatMap f

/-- No slot holds nothing. -/
@[simp] theorem all_zero (f : Nat → List β) : all 0 f = [] := rfl

/-- The slots below `n + 1` are those below `n` and slot `n`. -/
@[simp] theorem all_succ (n : Nat) (f : Nat → List β) : all (n + 1) f = all n f ++ f n := by
  simp [all, List.range_succ]

/-- A thing is in the account exactly if one of the slots holds it. -/
theorem mem_all {n : Nat} {f : Nat → List β} {b : β} : b ∈ all n f ↔ ∃ i < n, b ∈ f i := by
  simp [all]

/-- Empty slots hold nothing together. -/
theorem all_nil {n : Nat} {f : Nat → List β} (h : ∀ i, f i = []) : all n f = [] := by
  apply List.flatMap_eq_nil_iff.mpr
  exact fun i _ => h i

/-- Only the slots below `n` count. -/
theorem all_congr {n : Nat} {f g : Nat → List β} (h : ∀ i < n, f i = g i) : all n f = all n g := by
  induction n with
  | zero => rfl
  | succ n ih => rw [all_succ, all_succ, ih fun i hi => h i (by omega), h n (by omega)]

/-- A slot that is out of sight does not count. -/
theorem all_update_of_le {n j : Nat} (f : Nat → List β) (x : List β) (h : n ≤ j) :
    all n (Function.update f j x) = all n f :=
  all_congr fun _ hi => Function.update_of_ne (Nat.ne_of_lt (Nat.lt_of_lt_of_le hi h)) _ _

/-- One slot changes: what it held is gone, and what it holds is there. -/
theorem count_all_update [BEq β] {n j : Nat} (f : Nat → List β) (x : List β) (h : j < n) (b : β) :
    (all n (Function.update f j x)).count b + (f j).count b = (all n f).count b + x.count b := by
  induction n with
  | zero => omega
  | succ n ih =>
    rw [all_succ, all_succ, List.count_append, List.count_append]
    by_cases hj : j = n
    · -- the last slot; the others are as they were
      rw [all_update_of_le f x (by omega), hj, Function.update_self]
      omega
    · rw [Function.update_of_ne (fun heq => hj heq.symm)]
      have := ih (by omega)
      omega

/-- The same for slots whose contents are read off other things. -/
theorem count_all_map_update [BEq β] {n j : Nat} (g : α → List β) (f : Nat → α) (x : α)
    (h : j < n) (b : β) :
    (all n fun i => g (Function.update f j x i)).count b + (g (f j)).count b =
      (all n fun i => g (f i)).count b + (g x).count b := by
  have hcomp : (fun i => g (Function.update f j x i)) =
      Function.update (fun i => g (f i)) j (g x) := Function.comp_update g f j x
  rw [hcomp]
  exact count_all_update (fun i => g (f i)) (g x) h b

end Athena.Slots
