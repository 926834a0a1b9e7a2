import Mathlib.Data.List.Basic
import Mathlib.Logic.Function.Basic

/-!
# Intrusive singly linked lists

`Chain next p l` says that following `next` from the pointer `p` visits the nodes `l` and
then ends.  Such a list has no node twice (`Chain.nodup`), there is only one
(`Chain.unique`), and `walk` finds it (`walk_eq`).  Writing to a node that is not on the
chain leaves it alone.
-/

namespace Athena

variable {α : Type}

/-- The nodes from a pointer on. -/
inductive Chain (next : α → Option α) : Option α → List α → Prop where
  | nil : Chain next none []
  | cons {n : α} {l : List α} (h : Chain next (next n) l) : Chain next (some n) (n :: l)

namespace Chain

variable {next : α → Option α} {p : Option α} {l l' : List α} {n : α}

/-- The null pointer starts the empty chain. -/
theorem eq_nil (h : Chain next none l) : l = [] := by
  cases h
  rfl

/-- A node starts a chain of itself and the nodes from its link on. -/
theorem exists_cons (h : Chain next (some n) l) :
    ∃ rest, l = n :: rest ∧ Chain next (next n) rest := by
  cases h with
  | cons h => exact ⟨_, rfl, h⟩

/-- A pointer starts one chain. -/
theorem unique (h : Chain next p l) (h' : Chain next p l') : l = l' := by
  induction h generalizing l' with
  | nil => exact h'.eq_nil.symm
  | cons _ ih =>
    obtain ⟨rest, rfl, hrest⟩ := h'.exists_cons
    rw [ih hrest]

/-- The chain from a node on the chain. -/
theorem suffix {a b : List α} (h : Chain next p (a ++ n :: b)) : Chain next (some n) (n :: b) := by
  induction a generalizing p with
  | nil =>
    cases h with
    | cons h => exact .cons h
  | cons m a ih =>
    cases h with
    | cons h => exact ih h

/-- A chain that ends does not come back to a node. -/
theorem nodup (h : Chain next p l) : l.Nodup := by
  induction h with
  | nil => exact List.nodup_nil
  | @cons n l h ih =>
    refine List.nodup_cons.mpr ⟨fun hmem => ?_, ih⟩
    obtain ⟨a, b, rfl⟩ := List.append_of_mem hmem
    -- the chain from `n` would be shorter than itself
    have hsame := congrArg List.length (h.suffix.unique (.cons h))
    simp only [List.length_cons, List.length_append] at hsame
    omega

variable [DecidableEq α]

/-- Writing to a node that is not on the chain. -/
theorem update (h : Chain next p l) (hn : n ∉ l) (x : Option α) :
    Chain (Function.update next n x) p l := by
  induction h with
  | nil => exact .nil
  | @cons m l h ih =>
    rw [List.mem_cons, not_or] at hn
    apply Chain.cons
    rw [Function.update_of_ne (Ne.symm hn.1)]
    exact ih hn.2

/-- A node that is not on the chain is put in front. -/
theorem push (h : Chain next p l) (hn : n ∉ l) :
    Chain (Function.update next n p) (some n) (n :: l) := by
  apply Chain.cons
  rw [Function.update_self]
  exact h.update hn p

end Chain

/-- Follow a pointer for at most `fuel` nodes. -/
def walk (next : α → Option α) : Nat → Option α → List α
  | 0, _ => []
  | _ + 1, none => []
  | fuel + 1, some n => n :: walk next fuel (next n)

/-- The walk is the chain, if it may be long enough. -/
theorem walk_eq {next : α → Option α} {p : Option α} {l : List α} (h : Chain next p l)
    {fuel : Nat} (hfuel : l.length ≤ fuel) : walk next fuel p = l := by
  induction h generalizing fuel with
  | nil => cases fuel <;> rfl
  | cons _ ih =>
    cases fuel with
    | zero => simp at hfuel
    | succ fuel =>
      rw [List.length_cons] at hfuel
      rw [walk, ih (by omega)]

end Athena
