import Mathlib.Order.Lattice

/-!
# Complete binary heaps

A complete binary tree of `n` elements is the sequence of its elements at the positions
from 1 to `n`, row by row: position `k` has its parent at `k / 2` and its children at
`2 * k` and `2 * k + 1`.  The elements have keys, and no element is before its parent.

A heap is repaired by exchanging an element with its parent.  `UpTo` and `DownTo` say what
is known while one element, at position `i`, moves up or down.
-/

namespace Athena.BinaryHeap

variable {α κ : Type _}

/-! ## Positions -/

/-- Write `x` at position `i`. -/
def put (a : Nat → α) (i : Nat) (x : α) : Nat → α := fun k => if k = i then x else a k

/-- The position that comes to `k` when `i` and `j` are exchanged. -/
def swapped (i j k : Nat) : Nat := if k = i then j else if k = j then i else k

/-- Exchange the elements at positions `i` and `j`. -/
def exchange (a : Nat → α) (i j : Nat) : Nat → α := fun k => a (swapped i j k)

/-- The written element is at its position. -/
@[simp] theorem put_self (a : Nat → α) (i : Nat) (x : α) : put a i x i = x := if_pos rfl

/-- The other positions are not written. -/
theorem put_of_ne {a : Nat → α} {i k : Nat} (x : α) (h : k ≠ i) : put a i x k = a k := if_neg h

/-- The element at `j` comes to `i`. -/
@[simp] theorem exchange_left (a : Nat → α) (i j : Nat) : exchange a i j i = a j :=
  congrArg a (if_pos rfl)

/-- The element at `i` comes to `j`. -/
@[simp] theorem exchange_right (a : Nat → α) (i j : Nat) : exchange a i j j = a i := by
  rw [exchange, swapped]
  split
  · next h => rw [h]
  · rw [if_pos rfl]

/-- The other elements stay. -/
theorem exchange_of_ne {a : Nat → α} {i j k : Nat} (hi : k ≠ i) (hj : k ≠ j) :
    exchange a i j k = a k := by
  rw [exchange, swapped, if_neg hi, if_neg hj]

/-- Exchanging twice puts every position back. -/
theorem swapped_swapped (i j k : Nat) : swapped i j (swapped i j k) = k := by
  grind [swapped]

/-- Positions in the heap are exchanged with positions in the heap. -/
theorem swapped_range {n i j k : Nat} (hi : 1 ≤ i ∧ i ≤ n) (hj : 1 ≤ j ∧ j ≤ n)
    (hk : 1 ≤ k ∧ k ≤ n) : 1 ≤ swapped i j k ∧ swapped i j k ≤ n := by
  grind [swapped]

/-- The element is in the heap. -/
def Holds (a : Nat → α) (n : Nat) (x : α) : Prop := ∃ k, 1 ≤ k ∧ k ≤ n ∧ a k = x

/-- No element is in the heap twice. -/
def Distinct (a : Nat → α) (n : Nat) : Prop :=
  ∀ j k, 1 ≤ j → j ≤ n → 1 ≤ k → k ≤ n → a j = a k → j = k

/-- An exchange inside the heap drops no element. -/
theorem Holds.exchange {a : Nat → α} {n i j : Nat} {x : α} (hi : 1 ≤ i ∧ i ≤ n)
    (hj : 1 ≤ j ∧ j ≤ n) (h : Holds a n x) : Holds (exchange a i j) n x := by
  obtain ⟨k, hk, hkn, rfl⟩ := h
  have hrange := swapped_range hi hj ⟨hk, hkn⟩
  exact ⟨swapped i j k, hrange.1, hrange.2, congrArg a (swapped_swapped i j k)⟩

/-- An exchange inside the heap keeps its elements. -/
theorem holds_exchange {a : Nat → α} {n i j : Nat} (hi : 1 ≤ i ∧ i ≤ n) (hj : 1 ≤ j ∧ j ≤ n)
    (x : α) : Holds (exchange a i j) n x ↔ Holds a n x := by
  refine ⟨fun ⟨k, hk, hkn, heq⟩ => ?_, fun h => h.exchange hi hj⟩
  have hrange := swapped_range hi hj ⟨hk, hkn⟩
  exact ⟨swapped i j k, hrange.1, hrange.2, heq⟩

/-- An exchange inside the heap puts no element in twice. -/
theorem Distinct.exchange {a : Nat → α} {n i j : Nat} (hi : 1 ≤ i ∧ i ≤ n) (hj : 1 ≤ j ∧ j ≤ n)
    (h : Distinct a n) : Distinct (exchange a i j) n := by
  intro p q hp hpn hq hqn heq
  have hp' := swapped_range hi hj ⟨hp, hpn⟩
  have hq' := swapped_range hi hj ⟨hq, hqn⟩
  have hsame := h _ _ hp'.1 hp'.2 hq'.1 hq'.2 heq
  rw [← swapped_swapped i j p, hsame, swapped_swapped]

/-- An element written behind the last one is added to the heap. -/
theorem holds_put_succ {a : Nat → α} {n : Nat} {x y : α} :
    Holds (put a (n + 1) x) (n + 1) y ↔ Holds a n y ∨ y = x := by
  constructor
  · intro ⟨k, hk, hkn, heq⟩
    by_cases hlast : k = n + 1
    · rw [hlast, put_self] at heq
      exact .inr heq.symm
    · rw [put_of_ne x hlast] at heq
      exact .inl ⟨k, hk, by omega, heq⟩
  · intro h
    cases h with
    | inl h =>
      obtain ⟨k, hk, hkn, heq⟩ := h
      exact ⟨k, hk, by omega, by rw [put_of_ne x (by omega), heq]⟩
    | inr h => exact ⟨n + 1, by omega, by omega, by rw [put_self, h]⟩

/-- A new element is in the heap once. -/
theorem Distinct.put_succ {a : Nat → α} {n : Nat} {x : α} (h : Distinct a n)
    (hx : ¬ Holds a n x) : Distinct (put a (n + 1) x) (n + 1) := by
  intro p q hp hpn hq hqn heq
  by_cases hpl : p = n + 1
  · by_cases hql : q = n + 1
    · omega
    · rw [hpl, put_self, put_of_ne x hql] at heq
      exact absurd ⟨q, hq, by omega, heq.symm⟩ hx
  · rw [put_of_ne x hpl] at heq
    by_cases hql : q = n + 1
    · rw [hql, put_self] at heq
      exact absurd ⟨p, hp, by omega, heq⟩ hx
    · rw [put_of_ne x hql] at heq
      exact h p q hp (by omega) hq (by omega) heq

/-- The last element takes the place of another one. -/
theorem holds_put_last {a : Nat → α} {n i : Nat} (h : Distinct a (n + 1)) (hi : 1 ≤ i ∧ i ≤ n)
    (y : α) : Holds (put a i (a (n + 1))) n y ↔ Holds a (n + 1) y ∧ y ≠ a i := by
  constructor
  · intro ⟨k, hk, hkn, heq⟩
    by_cases hki : k = i
    · rw [hki, put_self] at heq
      refine ⟨⟨n + 1, by omega, by omega, heq⟩, fun hy => ?_⟩
      have := h (n + 1) i (by omega) (by omega) hi.1 (by omega) (heq.trans hy)
      omega
    · rw [put_of_ne _ hki] at heq
      refine ⟨⟨k, hk, by omega, heq⟩, fun hy => ?_⟩
      exact hki (h k i hk (by omega) hi.1 (by omega) (heq.trans hy))
  · intro ⟨⟨k, hk, hkn, heq⟩, hne⟩
    by_cases hlast : k = n + 1
    · exact ⟨i, hi.1, hi.2, by rw [put_self, ← hlast, heq]⟩
    · have hki : k ≠ i := by
        intro hki
        exact hne (by rw [← heq, hki])
      exact ⟨k, hk, by omega, by rw [put_of_ne _ hki, heq]⟩

/-- The last element may take the place of another one. -/
theorem Distinct.put_last {a : Nat → α} {n i : Nat} (h : Distinct a (n + 1)) :
    Distinct (put a i (a (n + 1))) n := by
  intro p q hp hpn hq hqn heq
  by_cases hpi : p = i <;> by_cases hqi : q = i
  · omega
  · rw [hpi, put_self, put_of_ne _ hqi] at heq
    have := h (n + 1) q (by omega) (by omega) hq (by omega) heq
    omega
  · rw [hqi, put_self, put_of_ne _ hpi] at heq
    have := h p (n + 1) hp (by omega) (by omega) (by omega) heq
    omega
  · rw [put_of_ne _ hpi, put_of_ne _ hqi] at heq
    exact h p q hp (by omega) hq (by omega) heq

/-- The first elements of a heap without repetition are without repetition. -/
theorem Distinct.mono {a : Nat → α} {m n : Nat} (h : Distinct a n) (hle : m ≤ n) :
    Distinct a m := by
  intro p q hp hpm hq hqm heq
  exact h p q hp (by omega) hq (by omega) heq

/-- A heap that has the elements of another one is not smaller. -/
theorem Distinct.le_of_holds {a b : Nat → α} {m n : Nat} (ha : Distinct a n) (hb : Distinct b m)
    (h : ∀ x, Holds a n x → Holds b m x) : n ≤ m := by
  -- by induction on the number of elements: the last one is taken from both heaps
  induction n generalizing b m with
  | zero => omega
  | succ n ih =>
    obtain ⟨i, hi, him, heq⟩ := h (a (n + 1)) ⟨n + 1, by omega, by omega, rfl⟩
    obtain ⟨m, rfl⟩ : ∃ k, m = k + 1 := ⟨m - 1, by omega⟩
    have hrest : ∀ x, Holds a n x → Holds b (m + 1) x ∧ x ≠ b i := by
      intro x ⟨k, hk, hkn, hx⟩
      refine ⟨h x ⟨k, hk, by omega, hx⟩, fun hxi => ?_⟩
      have := ha k (n + 1) hk (by omega) (by omega) (by omega) (by rw [hx, hxi, heq])
      omega
    -- without that element the other heap has one position less
    by_cases hlast : i = m + 1
    · have hle : n ≤ m := ih (ha.mono (by omega)) (hb.mono (by omega)) fun x hx => by
        obtain ⟨⟨k, hk, hkm, hxk⟩, hne⟩ := hrest x hx
        have hkne : k ≠ m + 1 := fun hkl => hne (by rw [← hxk, hkl, hlast])
        exact ⟨k, hk, by omega, hxk⟩
      -- the element was the last of the other heap as well
      omega
    -- the last element of the other heap fills the gap
    · have hle : n ≤ m := ih (ha.mono (by omega)) hb.put_last fun x hx =>
        (holds_put_last hb ⟨hi, by omega⟩ x).mpr (hrest x hx)
      omega

/-- It is larger if it has one more. -/
theorem Distinct.lt_of_holds {a b : Nat → α} {m n : Nat} {x : α} (ha : Distinct a n)
    (hb : Distinct b m) (h : ∀ y, Holds a n y → Holds b m y) (hx : Holds b m x)
    (hxa : ¬ Holds a n x) : n < m := by
  refine (ha.put_succ hxa).le_of_holds hb fun y hy => ?_
  cases holds_put_succ.mp hy with
  | inl hy => exact h y hy
  | inr hy => rwa [hy]

/-! ## Order -/

variable [LinearOrder κ] (key : α → κ)

/-- No element is before its parent. -/
def Ordered (a : Nat → α) (n : Nat) : Prop :=
  ∀ k, 2 ≤ k → k ≤ n → key (a (k / 2)) ≤ key (a k)

/-- All is in order but the element at `i` against its parent. -/
structure UpTo (a : Nat → α) (n i : Nat) : Prop where
  others : ∀ k, 2 ≤ k → k ≤ n → k ≠ i → key (a (k / 2)) ≤ key (a k)
  grand : ∀ k, k ≤ n → k / 2 = i → 2 ≤ i → key (a (i / 2)) ≤ key (a k)

/-- All is in order but the element at `i`, against its parent and its children. -/
structure DownTo (a : Nat → α) (n i : Nat) : Prop where
  others : ∀ k, 2 ≤ k → k ≤ n → k ≠ i → k / 2 ≠ i → key (a (k / 2)) ≤ key (a k)
  grand : ∀ k, k ≤ n → k / 2 = i → 2 ≤ i → key (a (i / 2)) ≤ key (a k)

variable {key} {a : Nat → α} {n i : Nat}

/-- The root is before all others. -/
theorem Ordered.root_le (h : Ordered key a n) {k : Nat} (hk : 1 ≤ k) (hkn : k ≤ n) :
    key (a 1) ≤ key (a k) := by
  induction k using Nat.strongRecOn with
  | ind k ih =>
    by_cases hone : k = 1
    · rw [hone]
    · exact le_trans (ih (k / 2) (by omega) (by omega) (by omega)) (h k (by omega) hkn)

/-- A heap that is cut off behind an element is in order. -/
theorem Ordered.mono {m : Nat} (h : Ordered key a n) (hle : m ≤ n) : Ordered key a m := by
  intro k hk hkm
  exact h k hk (by omega)

/-- The order depends on the keys of the elements only. -/
theorem Ordered.congr {key' : α → κ} (h : Ordered key a n)
    (hkey : ∀ k, 1 ≤ k → k ≤ n → key' (a k) = key (a k)) : Ordered key' a n := by
  intro k hk hkn
  rw [hkey k (by omega) hkn, hkey (k / 2) (by omega) (by omega)]
  exact h k hk hkn

/-- An element is added behind the last one. -/
theorem Ordered.upTo_put_succ (h : Ordered key a n) (x : α) :
    UpTo key (put a (n + 1) x) (n + 1) (n + 1) where
  others k hk hkn hne := by
    rw [put_of_ne x hne, put_of_ne x (by omega)]
    exact h k hk (by omega)
  grand k hkn hki := by omega

/-- An element takes the place of another one. -/
theorem Ordered.downTo_put (h : Ordered key a n) (x : α) : DownTo key (put a i x) n i where
  others k hk hkn hne hparent := by
    rw [put_of_ne x hne, put_of_ne x hparent]
    exact h k hk hkn
  grand k hkn hki hi := by
    subst hki
    rw [put_of_ne x (by omega), put_of_ne x (by omega)]
    exact le_trans (h (k / 2) hi (by omega)) (h k (by omega) hkn)

/-- The element is exchanged with its parent. -/
theorem UpTo.exchange (h : UpTo key a n i) (hi : 2 ≤ i) (hin : i ≤ n)
    (hlt : key (a i) < key (a (i / 2))) : UpTo key (exchange a (i / 2) i) n (i / 2) where
  others k hk hkn hne := by
    -- by where `k` is: at `i` itself, below the old parent, below `i`, or elsewhere
    by_cases hki : k = i
    · subst hki
      rw [exchange_left, exchange_right]
      exact le_of_lt hlt
    · rw [exchange_of_ne hne hki]
      by_cases hparent : k / 2 = i / 2
      · -- the other child of the parent
        rw [hparent, exchange_left]
        have hsib := h.others k hk hkn hki
        rw [hparent] at hsib
        exact le_trans (le_of_lt hlt) hsib
      · by_cases hchild : k / 2 = i
        · rw [hchild, exchange_right]
          exact h.grand k hkn hchild hi
        · rw [exchange_of_ne hparent hchild]
          exact h.others k hk hkn hki
  grand k hkn hparent hi' := by
    -- the old parent comes to `i`, and its own parent was before it
    have hup := h.others (i / 2) hi' (by omega) (by omega)
    rw [exchange_of_ne (show i / 2 / 2 ≠ i / 2 by omega) (by omega)]
    by_cases hki : k = i
    · subst hki
      rw [exchange_right]
      exact hup
    · rw [exchange_of_ne (by omega) hki]
      have hsib := h.others k (by omega) hkn hki
      rw [hparent] at hsib
      exact le_trans hup hsib

/-- The element has come to rest. -/
theorem UpTo.ordered (h : UpTo key a n i)
    (hrest : 2 ≤ i → i ≤ n → key (a (i / 2)) ≤ key (a i)) : Ordered key a n := by
  intro k hk hkn
  by_cases hki : k = i
  · subst hki
    exact hrest hk hkn
  · exact h.others k hk hkn hki

/-- The element is exchanged with its first child. -/
theorem DownTo.exchange {c : Nat} (h : DownTo key a n i) (hi : 1 ≤ i) (hc : c / 2 = i)
    (hcn : c ≤ n) (hfirst : ∀ k, k ≤ n → k / 2 = i → key (a c) ≤ key (a k))
    (hlt : key (a c) < key (a i)) : DownTo key (exchange a i c) n c where
  others k hk hkn hne hparent := by
    by_cases hki : k = i
    · subst hki
      rw [exchange_left, exchange_of_ne (by omega) hparent]
      exact h.grand c hcn hc hk
    · rw [exchange_of_ne hki hne]
      by_cases hsib : k / 2 = i
      · rw [hsib, exchange_left]
        exact hfirst k hkn hsib
      · rw [exchange_of_ne hsib hparent]
        exact h.others k hk hkn hki hsib
  grand k hkn hparent hc' := by
    rw [hc, exchange_left, exchange_of_ne (by omega) (by omega)]
    have hchild := h.others k (by omega) hkn (by omega) (by omega)
    rwa [hparent] at hchild

/-- The element is before its children. -/
theorem DownTo.upTo (h : DownTo key a n i)
    (hrest : ∀ k, k ≤ n → k / 2 = i → key (a i) ≤ key (a k)) : UpTo key a n i where
  others k hk hkn hne := by
    by_cases hparent : k / 2 = i
    · rw [hparent]
      exact hrest k hkn hparent
    · exact h.others k hk hkn hne hparent
  grand := h.grand

end Athena.BinaryHeap
