import Athena.ForStd.BinaryHeap
import Athena.Native.Heap

/-!
# The shape of the heap of timers

`Shape h a n` says that the pointers of `h` are those of the complete binary tree with the
nodes `a 1`, …, `a n`.  The operations of the heap are those of `BinaryHeap` on the
positions: a swap exchanges a node with its parent, the path to a number leads to that
position, and the removed node is replaced by the last one.
-/

namespace Athena.Heap

open BinaryHeap

/-! ## Memory -/

section Memory

variable (h : Heap) (x y : HeapRef) (p : Option HeapRef) (n : HeapNode)

/-- A store to one node is not seen at another, -/
theorem node_setNode : (h.setNode x n).node y = if y = x then n else h.node y := rfl

/-- nor at the root, -/
@[simp] theorem min_setNode : (h.setNode x n).min = h.min := rfl

/-- nor in the count. -/
@[simp] theorem nelts_setNode : (h.setNode x n).nelts = h.nelts := rfl

/-- The left pointer of a node is written, -/
theorem left_setLeft : ((h.setLeft x p).node y).left = if y = x then p else (h.node y).left := by
  rw [setLeft, node_setNode]
  split <;> rfl

/-- its right pointer, -/
theorem right_setRight :
    ((h.setRight x p).node y).right = if y = x then p else (h.node y).right := by
  rw [setRight, node_setNode]
  split <;> rfl

/-- or the pointer to its parent; -/
theorem parent_setParent :
    ((h.setParent x p).node y).parent = if y = x then p else (h.node y).parent := by
  rw [setParent, node_setNode]
  split <;> rfl

/-- the other pointers stay. -/
@[simp] theorem right_setLeft : ((h.setLeft x p).node y).right = (h.node y).right := by
  rw [setLeft, node_setNode]
  split
  · next heq => rw [heq]
  · rfl

/-- A left pointer is no parent's. -/
@[simp] theorem parent_setLeft : ((h.setLeft x p).node y).parent = (h.node y).parent := by
  rw [setLeft, node_setNode]
  split
  · next heq => rw [heq]
  · rfl

/-- A right pointer is no left one, -/
@[simp] theorem left_setRight : ((h.setRight x p).node y).left = (h.node y).left := by
  rw [setRight, node_setNode]
  split
  · next heq => rw [heq]
  · rfl

/-- and no parent's. -/
@[simp] theorem parent_setRight : ((h.setRight x p).node y).parent = (h.node y).parent := by
  rw [setRight, node_setNode]
  split
  · next heq => rw [heq]
  · rfl

/-- A parent's pointer is no left one, -/
@[simp] theorem left_setParent : ((h.setParent x p).node y).left = (h.node y).left := by
  rw [setParent, node_setNode]
  split
  · next heq => rw [heq]
  · rfl

/-- and no right one. -/
@[simp] theorem right_setParent : ((h.setParent x p).node y).right = (h.node y).right := by
  rw [setParent, node_setNode]
  split
  · next heq => rw [heq]
  · rfl

/-- The parent of a child that may be missing: no left pointer changes, -/
@[simp] theorem left_setParentOf : ((h.setParentOf p x).node y).left = (h.node y).left := by
  cases p <;> simp [setParentOf]

/-- and no right one, -/
@[simp] theorem right_setParentOf : ((h.setParentOf p x).node y).right = (h.node y).right := by
  cases p <;> simp [setParentOf]

/-- and the child's parent is written if there is a child. -/
theorem parent_setParentOf :
    ((h.setParentOf p x).node y).parent = if p = some y then some x else (h.node y).parent := by
  cases p with
  | none => rfl
  | some q =>
    rw [setParentOf, parent_setParent]
    simp only [Option.some.injEq, eq_comm]

/-- The root stays, -/
@[simp] theorem min_setParentOf : (h.setParentOf p x).min = h.min := by
  cases p <;> rfl

/-- and so does the count. -/
@[simp] theorem nelts_setParentOf : (h.setParentOf p x).nelts = h.nelts := by
  cases p <;> rfl

/-- A child is replaced without counting. -/
@[simp] theorem nelts_replaceChild (old new : HeapRef) :
    (h.replaceChild p old new).nelts = h.nelts := by
  cases p with
  | none => rfl
  | some q =>
    rw [replaceChild]
    split <;> rfl

/-- A swap keeps the count. -/
@[simp] theorem nelts_heapNodeSwap : (h.heapNodeSwap x y).nelts = h.nelts := by
  rw [heapNodeSwap, nelts_replaceChild, linkSwapped]
  simp only [nelts_setParentOf]
  split <;> rfl

end Memory

/-- Nodes only change their places. -/
theorem nelts_siftUp {lessThan : HeapCompareFn} {x : HeapRef} {fuel : Nat} {h h' : Heap}
    (hrun : siftUp lessThan x fuel h = some h') : h'.nelts = h.nelts := by
  -- by induction on the way up: each turn swaps or stops
  induction fuel generalizing h with
  | zero => exact nomatch hrun
  | succ fuel ih =>
    rw [siftUp] at hrun
    cases hparent : (h.node x).parent with
    | none =>
      rw [hparent] at hrun
      rw [← Option.some.inj hrun]
    | some p =>
      rw [hparent] at hrun
      dsimp only at hrun
      cases hless : lessThan x p with
      | none =>
        rw [hless] at hrun
        exact nomatch hrun
      | some less =>
        rw [hless] at hrun
        cases less with
        | true => rw [ih hrun, nelts_heapNodeSwap]
        | false => rw [← Option.some.inj hrun]

/-! ## Shape -/

/-- The pointer to position `k`. -/
def slot (a : Nat → HeapRef) (n k : Nat) : Option HeapRef :=
  if 1 ≤ k ∧ k ≤ n then some (a k) else none

/-- The pointers are those of the complete tree of `a 1`, …, `a n`. -/
structure Shape (h : Heap) (a : Nat → HeapRef) (n : Nat) : Prop where
  nelts_eq : h.nelts = n
  min_eq : h.min = slot a n 1
  left_eq : ∀ k, 1 ≤ k → k ≤ n → (h.node (a k)).left = slot a n (2 * k)
  right_eq : ∀ k, 1 ≤ k → k ≤ n → (h.node (a k)).right = slot a n (2 * k + 1)
  parent_eq : ∀ k, 1 ≤ k → k ≤ n → (h.node (a k)).parent = slot a n (k / 2)
  distinct : Distinct a n

variable {h : Heap} {a : Nat → HeapRef} {n : Nat}

/-- A position of the tree has its node. -/
theorem slot_eq (a : Nat → HeapRef) {n k : Nat} (hk : 1 ≤ k) (hkn : k ≤ n) :
    slot a n k = some (a k) := if_pos ⟨hk, hkn⟩

/-- Outside the tree there is no node. -/
theorem slot_eq_none (a : Nat → HeapRef) {n k : Nat} (hk : k = 0 ∨ n < k) :
    slot a n k = none := if_neg (by omega)

/-- A pointer to a node of the tree is the pointer to its position. -/
theorem slot_eq_some (hd : Distinct a n) {j k : Nat} (hj : 1 ≤ j) (hjn : j ≤ n) :
    slot a n k = some (a j) ↔ k = j := by
  rw [slot]
  split
  · next hk =>
    rw [Option.some.injEq]
    exact ⟨fun heq => hd k j hk.1 hk.2 hj hjn heq, fun heq => by rw [heq]⟩
  · next hk => exact ⟨nofun, fun heq => absurd (by omega) hk⟩

/-- After an exchange a pointer to a position leads to the other node. -/
theorem slot_exchange {i j : Nat} (hi : 1 ≤ i ∧ i ≤ n) (hj : 1 ≤ j ∧ j ≤ n) (k : Nat) :
    slot (exchange a i j) n k = slot a n (swapped i j k) := by
  grind [slot, exchange, swapped]

/-! ## The swap -/

section Swap

variable {p c : Nat}

/-- The records after they have been swapped. -/
theorem Shape.swapNodes (hs : Shape h a n) (hp : 1 ≤ p ∧ p ≤ n) (hc : 1 ≤ c ∧ c ≤ n)
    (hpc : p ≠ c) {j : Nat} (hj : 1 ≤ j) (hjn : j ≤ n) :
    ((h.swapNodes (a p) (a c)).node (a j)).left = slot a n (2 * swapped p c j) ∧
      ((h.swapNodes (a p) (a c)).node (a j)).right = slot a n (2 * swapped p c j + 1) ∧
      ((h.swapNodes (a p) (a c)).node (a j)).parent =
        slot a n (if j = p then c else swapped p c j / 2) := by
  have hne {i k : Nat} (hi : 1 ≤ i ∧ i ≤ n) (hk : 1 ≤ k ∧ k ≤ n) : a i = a k ↔ i = k :=
    ⟨fun heq => hs.distinct i k hi.1 hi.2 hk.1 hk.2 heq, fun heq => by rw [heq]⟩
  simp only [Heap.swapNodes, left_setParent, right_setParent, parent_setParent, node_setNode,
    hne ⟨hj, hjn⟩ hp, hne ⟨hj, hjn⟩ hc]
  -- the child gets the parent's pointers, the parent the child's, and the other nodes keep theirs
  by_cases hjc : j = c
  · subst hjc
    have hsw : swapped p j j = p := by grind [swapped]
    rw [if_pos rfl, if_neg (Ne.symm hpc), if_neg (Ne.symm hpc), hsw]
    exact ⟨hs.left_eq p hp.1 hp.2, hs.right_eq p hp.1 hp.2, hs.parent_eq p hp.1 hp.2⟩
  · rw [if_neg hjc]
    by_cases hjp : j = p
    · subst hjp
      have hsw : swapped j c j = c := by grind [swapped]
      rw [if_pos rfl, if_pos rfl, if_pos rfl, hsw, slot_eq a hc.1 hc.2]
      exact ⟨hs.left_eq c hc.1 hc.2, hs.right_eq c hc.1 hc.2, rfl⟩
    · have hsw : swapped p c j = j := by grind [swapped]
      rw [if_neg hjp, if_neg hjp, if_neg hjp, hsw]
      exact ⟨hs.left_eq j hj hjn, hs.right_eq j hj hjn, hs.parent_eq j hj hjn⟩

/-- What `replaceChild` does to a tree whose other pointers are right: only the pointer to the
child that comes to position `p` is still to be set. -/
theorem replaceChild_slot (new : HeapRef) {h' : Heap} {left right : Nat → Nat}
    (hd : Distinct a n) (hp : 1 ≤ p ∧ p ≤ n)
    (hleft : ∀ j, 1 ≤ j → j ≤ n → (h'.node (a j)).left = slot a n (left j))
    (hright : ∀ j, 1 ≤ j → j ≤ n → (h'.node (a j)).right = slot a n (right j))
    (hnode : p / 2 ≠ 0 → left (p / 2) = 2 * (p / 2)) {j : Nat} (hj : 1 ≤ j)
    (hjn : j ≤ n) :
    let h := h'.replaceChild (slot a n (p / 2)) (a p) new
    (h.node (a j)).left =
        (if j = p / 2 ∧ p = 2 * j then some new else slot a n (left j)) ∧
      (h.node (a j)).right =
        (if j = p / 2 ∧ p ≠ 2 * j then some new else slot a n (right j)) ∧
      (h.node (a j)).parent = (h'.node (a j)).parent ∧
      h.min = (if p = 1 then some new else h'.min) ∧ h.nelts = h'.nelts := by
  -- the root hangs from `min`, any other node from its parent
  by_cases hroot : p / 2 = 0
  · rw [slot_eq_none a (.inl hroot)]
    have hone : p = 1 := by omega
    refine ⟨?_, ?_, rfl, (if_pos hone).symm, rfl⟩
    · rw [if_neg (by omega)]
      exact hleft j hj hjn
    · rw [if_neg (by omega)]
      exact hright j hj hjn
  · have hg : 1 ≤ p / 2 ∧ p / 2 ≤ n := by omega
    have hone : ¬ p = 1 := by omega
    have hjg : a j = a (p / 2) ↔ j = p / 2 :=
      ⟨fun heq => hd j (p / 2) hj hjn hg.1 hg.2 heq, fun heq => by rw [heq]⟩
    -- the test of `replaceChild` is whether the child is the left one
    have hcond : (h'.node (a (p / 2))).left = some (a p) ↔ 2 * (p / 2) = p := by
      rw [hleft (p / 2) hg.1 hg.2, hnode hroot, slot_eq_some hd hp.1 hp.2]
    rw [slot_eq a hg.1 hg.2]
    simp only [replaceChild, hcond]
    -- the store is to one side, and the other slots are as they were
    by_cases hside : 2 * (p / 2) = p
    · rw [if_pos hside]
      simp only [left_setLeft, right_setLeft, parent_setLeft, hjg, hleft j hj hjn,
        hright j hj hjn, hone, if_false]
      refine ⟨?_, ?_, trivial, rfl, rfl⟩
      · by_cases hjp : j = p / 2
        · rw [if_pos hjp, if_pos (by omega)]
        · rw [if_neg hjp, if_neg (by omega)]
      · rw [if_neg (by omega)]
    · rw [if_neg hside]
      simp only [right_setRight, left_setRight, parent_setRight, hjg, hleft j hj hjn,
        hright j hj hjn, hone, if_false]
      refine ⟨?_, ?_, trivial, rfl, rfl⟩
      · rw [if_neg (by omega)]
      · by_cases hjp : j = p / 2
        · rw [if_pos hjp, if_pos (by omega)]
        · rw [if_neg hjp, if_neg (by omega)]

/-- The pointers after the swap below the two nodes. -/
theorem Shape.linkSwapped (hs : Shape h a n) (hp : p = c / 2) (hc : 2 ≤ c) (hcn : c ≤ n) {j : Nat}
    (hj : 1 ≤ j) (hjn : j ≤ n) :
    let h' := (h.swapNodes (a p) (a c)).linkSwapped (a p) (a c)
    (h'.node (a j)).left = slot a n (if j = c ∧ c = 2 * p then p else 2 * swapped p c j) ∧
      (h'.node (a j)).right =
        slot a n (if j = c ∧ c ≠ 2 * p then p else 2 * swapped p c j + 1) ∧
      (h'.node (a j)).parent =
        slot a n (if j / 2 = c then p else if j / 2 = p ∧ j ≠ c then c else if j = p then c
          else swapped p c j / 2) := by
  have hpn : 1 ≤ p ∧ p ≤ n := by omega
  have hcn' : 1 ≤ c ∧ c ≤ n := by omega
  have hne {i k : Nat} (hi : 1 ≤ i ∧ i ≤ n) (hk : 1 ≤ k ∧ k ≤ n) : a i = a k ↔ i = k :=
    ⟨fun heq => hs.distinct i k hi.1 hi.2 hk.1 hk.2 heq, fun heq => by rw [heq]⟩
  have hswapped {j : Nat} (hj : 1 ≤ j) (hjn : j ≤ n) :=
    hs.swapNodes hpn hcn' (by omega) hj hjn
  generalize h.swapNodes (a p) (a c) = h₁ at hswapped
  have hswc : swapped p c c = p := by grind [swapped]
  have hswp : swapped p c p = c := by grind [swapped]
  have hisLeft : (h₁.node (a c)).left = some (a c) ↔ c = 2 * p := by
    rw [(hswapped hcn'.1 hcn).1, slot_eq_some hs.distinct hcn'.1 hcn, hswc, eq_comm]
  simp only [Heap.linkSwapped, hisLeft]
  -- the pointer from the child to its old parent, and the other child of that parent
  obtain ⟨h₂, hh₂⟩ : ∃ h₂, h₂ = if c = 2 * p then h₁.setLeft (a c) (some (a p))
      else h₁.setRight (a c) (some (a p)) := ⟨_, rfl⟩
  have hlinked {j : Nat} (hj : 1 ≤ j) (hjn : j ≤ n) :
      (h₂.node (a j)).left = slot a n (if j = c ∧ c = 2 * p then p else 2 * swapped p c j) ∧
        (h₂.node (a j)).right =
          slot a n (if j = c ∧ c ≠ 2 * p then p else 2 * swapped p c j + 1) ∧
        (h₂.node (a j)).parent = slot a n (if j = p then c else swapped p c j / 2) := by
    obtain ⟨hleft, hright, hparent⟩ := hswapped hj hjn
    have hjc := hne ⟨hj, hjn⟩ hcn'
    have hslot := slot_eq a hpn.1 hpn.2
    rw [hh₂]
    by_cases hside : c = 2 * p
    · rw [if_pos hside]
      simp only [left_setLeft, right_setLeft, parent_setLeft, hleft, hright, hparent, hjc, ← hside,
        and_true, ne_eq, not_true, and_false, if_false, and_self]
      by_cases hj : j = c
      · rw [if_pos hj, if_pos hj, hslot]
      · rw [if_neg hj, if_neg hj]
    · rw [if_neg hside]
      simp only [left_setRight, right_setRight, parent_setRight, hleft, hright, hparent, hjc, hside,
        and_true, ne_eq, not_false_iff, and_false, if_false, true_and]
      by_cases hj : j = c
      · rw [if_pos hj, if_pos hj, hslot]
      · rw [if_neg hj, if_neg hj]
  have hsibling : (if c = 2 * p then (h₁.node (a c)).right else (h₁.node (a c)).left) =
      slot a n (if c = 2 * p then 2 * p + 1 else 2 * p) := by
    rw [(hswapped hcn'.1 hcn).1, (hswapped hcn'.1 hcn).2.1, hswc]
    split <;> rfl
  rw [hsibling, ← hh₂]
  obtain ⟨hleft, hright, hparent⟩ := hlinked hj hjn
  obtain ⟨hleftp, hrightp, -⟩ := hlinked hpn.1 hpn.2
  rw [hswp, if_neg (by omega)] at hleftp hrightp
  simp only [left_setParentOf, right_setParentOf, parent_setParentOf, hleft, hright, hparent,
    hleftp, hrightp, slot_eq_some hs.distinct hj hjn, true_and]
  rw [← slot_eq a hpn.1 hpn.2, ← slot_eq a hcn'.1 hcn, ← apply_ite (slot a n),
    ← apply_ite (slot a n), ← apply_ite (slot a n)]
  congr 1
  clear hswapped hlinked hsibling hisLeft hh₂ hleft hright hparent hleftp hrightp
  grind

/-- A node is exchanged with its parent. -/
theorem Shape.heapNodeSwap (hs : Shape h a n) (hc : 2 ≤ c) (hcn : c ≤ n) :
    Shape (h.heapNodeSwap (a (c / 2)) (a c)) (exchange a (c / 2) c) n := by
  obtain ⟨p, hp⟩ : ∃ p, p = c / 2 := ⟨_, rfl⟩
  rw [← hp]
  have hpn : 1 ≤ p ∧ p ≤ n := by omega
  have hcn' : 1 ≤ c ∧ c ≤ n := by omega
  -- the two nodes first exchange their links, then the parent of both is relinked
  have hlinked {j : Nat} (hj : 1 ≤ j) (hjn : j ≤ n) := hs.linkSwapped hp hc hcn hj hjn
  have hmin : ((h.swapNodes (a p) (a c)).linkSwapped (a p) (a c)).min = h.min := by
    simp only [Heap.linkSwapped, min_setParentOf]
    split <;> rfl
  have hnelts : ((h.swapNodes (a p) (a c)).linkSwapped (a p) (a c)).nelts = h.nelts := by
    simp only [Heap.linkSwapped, nelts_setParentOf]
    split <;> rfl
  rw [Heap.heapNodeSwap]
  dsimp only at hlinked ⊢
  generalize (h.swapNodes (a p) (a c)).linkSwapped (a p) (a c) = h₁ at hlinked hmin hnelts
  -- `c` now stands where `p` was
  have hparent : (h₁.node (a c)).parent = slot a n (p / 2) := by
    rw [(hlinked hcn'.1 hcn).2.2]
    congr 1
    grind [swapped]
  rw [hparent]
  have hplaced {j : Nat} (hj : 1 ≤ j) (hjn : j ≤ n) :=
    replaceChild_slot (a c) hs.distinct hpn
      (fun j hj hjn => (hlinked hj hjn).1) (fun j hj hjn => (hlinked hj hjn).2.1)
      (fun h0 => by grind [swapped]) hj hjn
  rw [← slot_eq a hcn'.1 hcn] at hplaced
  dsimp only at hplaced
  have hrange {k : Nat} (hk : 1 ≤ k) (hkn : k ≤ n) := swapped_range hpn hcn' ⟨hk, hkn⟩
  -- each slot is that of the exchanged position
  constructor
  · rw [(hplaced (Nat.le_refl 1) (by omega)).2.2.2.2, hnelts, hs.nelts_eq]
  · rw [(hplaced (Nat.le_refl 1) (by omega)).2.2.2.1, hmin, hs.min_eq, slot_exchange hpn hcn',
      ← apply_ite (slot a n)]
    congr 1
    grind [swapped]
  · intro k hk hkn
    have hk' := hrange hk hkn
    rw [slot_exchange hpn hcn', exchange, (hplaced hk'.1 hk'.2).1, swapped_swapped,
      ← apply_ite (slot a n)]
    congr 1
    clear hplaced hlinked
    grind [swapped]
  · intro k hk hkn
    have hk' := hrange hk hkn
    rw [slot_exchange hpn hcn', exchange, (hplaced hk'.1 hk'.2).2.1, swapped_swapped,
      ← apply_ite (slot a n)]
    congr 1
    clear hplaced hlinked
    grind [swapped]
  · intro k hk hkn
    have hk' := hrange hk hkn
    rw [slot_exchange hpn hcn', exchange, (hplaced hk'.1 hk'.2).2.2.1,
      (hlinked hk'.1 hk'.2).2.2, swapped_swapped]
    congr 1
    clear hplaced hlinked
    grind [swapped]
  · exact hs.distinct.exchange hpn hcn'

end Swap

/-! ## The path -/

/-- The place of the pointer to position `k`. -/
def placeOf (a : Nat → HeapRef) (k : Nat) : Place :=
  if k ≤ 1 then .min else if k % 2 = 1 then .right (a (k / 2)) else .left (a (k / 2))

/-- The place of the pointer to a position holds that pointer. -/
theorem Shape.load_placeOf (hs : Shape h a n) {k : Nat} (hk : 1 ≤ k) (hparent : k / 2 ≤ n) :
    h.load (placeOf a k) = slot a n k := by
  rw [placeOf]
  split
  · rw [load, hs.min_eq]
    congr 1
    omega
  · split
    · rw [load, hs.right_eq (k / 2) (by omega) hparent]
      congr 1
      omega
    · rw [load, hs.left_eq (k / 2) (by omega) hparent]
      congr 1
      omega

/-- The digits lead from the root to the number that they were taken from. -/
theorem Shape.follow_from (hs : Shape h a n) {fuel m : Nat} (hm : 1 ≤ m) (hfuel : m ≤ fuel)
    (hmn : m ≤ n + 1) (k path : Nat) :
    h.follow (heapPath fuel m k path).1 (heapPath fuel m k path).2 .min .min =
      h.follow k path (placeOf a (m / 2)) (placeOf a m) := by
  -- by induction on the steps that are left: each looks at the last digit of the path
  induction fuel generalizing m k path with
  | zero => omega
  | succ fuel ih =>
    rw [heapPath]
    split
    · next hge =>
      rw [ih (by omega) (by omega) (by omega), follow,
        hs.load_placeOf (by omega) (by omega), slot_eq a (by omega) (by omega)]
      have hrest : (path * 2 + m % 2) / 2 = path := by omega
      have hdigit : (path * 2 + m % 2) % 2 = m % 2 := by omega
      have hplace : placeOf a m = if m % 2 = 1 then .right (a (m / 2)) else .left (a (m / 2)) :=
        if_neg (by omega)
      dsimp only
      rw [hrest, hdigit, hplace]
    · have hone : m = 1 := by omega
      subst hone
      rfl

/-- The path to a number leads to its position. -/
theorem Shape.follow_heapPath (hs : Shape h a n) {m : Nat} (hm : 1 ≤ m) (hmn : m ≤ n + 1) :
    h.follow (heapPath m m 0 0).1 (heapPath m m 0 0).2 .min .min =
      some (placeOf a (m / 2), placeOf a m) := by
  rw [hs.follow_from hm (Nat.le_refl m) hmn]
  rfl

/-- The first of the two places is that of the parent. -/
theorem Shape.load_placeOf_half (hs : Shape h a n) :
    h.load (placeOf a ((n + 1) / 2)) = slot a n ((n + 1) / 2) := by
  by_cases h0 : n = 0
  · subst h0
    rw [slot_eq_none a (.inl rfl), placeOf, if_pos (by omega), load, hs.min_eq,
      slot_eq_none a (.inr (by omega))]
  · exact hs.load_placeOf (by omega) (by omega)

/-! ## Sifting -/

section Sift

variable {κ : Type _} [LinearOrder κ] {key : HeapRef → κ} {lessThan : HeapCompareFn}

/-- The comparison is that of the keys, for the nodes of the tree. -/
def Compares (lessThan : HeapCompareFn) (key : HeapRef → κ) (a : Nat → HeapRef) (n : Nat) : Prop :=
  ∀ x y, Holds a n x → Holds a n y → lessThan x y = some (decide (key x < key y))

/-- The comparison is that of the keys for fewer nodes, too. -/
theorem Compares.congr {a' : Nat → HeapRef} {n' : Nat} (h : Compares lessThan key a n)
    (hsub : ∀ x, Holds a' n' x → Holds a n x) : Compares lessThan key a' n' := by
  intro x y hx hy
  exact h x y (hsub x hx) (hsub y hy)

/-- A node on its way up comes to rest in an ordered tree. -/
theorem siftUp_spec {fuel i : Nat} (hs : Shape h a n) (hcmp : Compares lessThan key a n)
    (hup : UpTo key a n i) (hi : 1 ≤ i) (hin : i ≤ n) (hfuel : i ≤ fuel) :
    ∃ h' a', siftUp lessThan (a i) fuel h = some h' ∧ Shape h' a' n ∧ Ordered key a' n ∧
      ∀ x, Holds a' n x ↔ Holds a n x := by
  -- by induction on the way to the root; `UpTo` says that only this node may be before its parent
  induction fuel generalizing h a i with
  | zero => omega
  | succ fuel ih =>
    rw [siftUp, hs.parent_eq i hi hin]
    -- at the root the heap is in order
    by_cases hroot : i = 1
    · subst hroot
      rw [slot_eq_none a (.inl rfl)]
      exact ⟨h, a, rfl, hs, hup.ordered fun h => absurd h (by omega), fun _ => Iff.rfl⟩
    · rw [slot_eq a (by omega) (by omega)]
      dsimp only
      rw [hcmp (a i) (a (i / 2)) ⟨i, hi, hin, rfl⟩ ⟨i / 2, by omega, by omega, rfl⟩]
      -- a node before its parent changes places with it, and goes on from there
      by_cases hlt : key (a i) < key (a (i / 2))
      · rw [decide_eq_true hlt]
        dsimp only
        have hp : 1 ≤ i / 2 ∧ i / 2 ≤ n := by omega
        have hholds := holds_exchange (a := a) hp ⟨hi, hin⟩
        obtain ⟨h', a', hrun, hs', hord, hsame⟩ :=
          ih (hs.heapNodeSwap (by omega) hin) (hcmp.congr fun x => (hholds x).mp)
            (hup.exchange (by omega) hin hlt) (by omega) (by omega) (by omega)
        rw [exchange_left] at hrun
        exact ⟨h', a', hrun, hs', hord, fun x => (hsame x).trans (hholds x)⟩
      · rw [decide_eq_false hlt]
        exact ⟨h, a, rfl, hs, hup.ordered fun _ _ => not_lt.mp hlt, fun _ => Iff.rfl⟩

/-- The choice between a node and one that may be there. -/
theorem smaller_spec (hcmp : Compares lessThan key a n) {i k : Nat} (hi : 1 ≤ i) (hin : i ≤ n)
    (hk : 1 ≤ k) :
    ∃ m, smaller lessThan (slot a n k) (a i) = some (a m) ∧ 1 ≤ m ∧ m ≤ n ∧ (m = i ∨ m = k) ∧
      key (a m) ≤ key (a i) ∧ (k ≤ n → key (a m) ≤ key (a k)) ∧
      (m ≠ i → key (a m) < key (a i)) := by
  by_cases hkn : k ≤ n
  · rw [slot_eq a hk hkn, smaller, hcmp (a k) (a i) ⟨k, hk, hkn, rfl⟩ ⟨i, hi, hin, rfl⟩]
    by_cases hlt : key (a k) < key (a i)
    · exact ⟨k, by rw [decide_eq_true hlt]; rfl, hk, hkn, .inr rfl, le_of_lt hlt,
        fun _ => le_refl _, fun _ => hlt⟩
    · exact ⟨i, by rw [decide_eq_false hlt]; rfl, hi, hin, .inl rfl, le_refl _,
        fun _ => not_lt.mp hlt, fun h => absurd rfl h⟩
  · rw [slot_eq_none a (.inr (by omega))]
    exact ⟨i, rfl, hi, hin, .inl rfl, le_refl _, fun h => absurd h hkn, fun h => absurd rfl h⟩

/-- A node on its way down comes to a place from where it can only go up. -/
theorem siftDown_spec {fuel i : Nat} (hs : Shape h a n) (hcmp : Compares lessThan key a n)
    (hdown : DownTo key a n i) (hi : 1 ≤ i) (hin : i ≤ n) (hfuel : n < fuel + i) :
    ∃ h' a' j, siftDown lessThan (a i) fuel h = some h' ∧ Shape h' a' n ∧ UpTo key a' n j ∧
      1 ≤ j ∧ j ≤ n ∧ a' j = a i ∧ ∀ x, Holds a' n x ↔ Holds a n x := by
  induction fuel generalizing h a i with
  | zero => omega
  | succ fuel ih =>
    -- the node, then the smaller of it and its left child, then of that and the right one
    obtain ⟨l, hl, hl1, hln, hlc, hli, hlleft, hllt⟩ :=
      smaller_spec hcmp hi hin (k := 2 * i) (by omega)
    obtain ⟨m, hm, hm1, hmn, hmc, hml, hmright, hmlt⟩ :=
      smaller_spec hcmp hl1 hln (k := 2 * i + 1) (by omega)
    rw [siftDown, hs.left_eq i hi hin, hl]
    dsimp only
    rw [hs.right_eq i hi hin, hm]
    dsimp only
    -- what is moved up is below none of the children
    have hfirst : ∀ k, k ≤ n → k / 2 = i → key (a m) ≤ key (a k) := by
      intro k hkn hki
      have hk : k = 2 * i ∨ k = 2 * i + 1 := by omega
      cases hk with
      | inl hk =>
        rw [hk] at hkn ⊢
        exact le_trans hml (hlleft hkn)
      | inr hk =>
        rw [hk] at hkn ⊢
        exact hmright hkn
    by_cases hrest : m = i
    -- the node is the smallest: the order holds below it
    · rw [hrest] at hfirst ⊢
      rw [if_pos rfl]
      exact ⟨h, a, i, rfl, hs, hdown.upTo hfirst, hi, hin, rfl, fun _ => Iff.rfl⟩
    · rw [if_neg fun heq => hrest (hs.distinct m i hm1 hmn hi hin heq)]
      have hparent : m / 2 = i := by omega
      have hlt : key (a m) < key (a i) := by
        by_cases hml' : m = l
        · rw [hml']
          exact hllt (by omega)
        · exact lt_of_lt_of_le (hmlt hml') hli
      -- else it goes one level down, and the rest is the induction
      have hswap := hs.heapNodeSwap (c := m) (by omega) hmn
      rw [hparent] at hswap
      have hholds := holds_exchange (a := a) ⟨hi, hin⟩ ⟨hm1, hmn⟩
      obtain ⟨h', a', j, hrun, hs', hup, hj, hjn, hx, hsame⟩ :=
        ih hswap (hcmp.congr fun x => (hholds x).mp)
          (hdown.exchange hi hparent hmn hfirst hlt) hm1 hmn (by omega)
      rw [exchange_right] at hrun hx
      exact ⟨h', a', j, hrun, hs', hup, hj, hjn, hx, fun x => (hsame x).trans (hholds x)⟩

end Sift

/-! ## Insertion and removal -/

/-- Nothing that is not a node of the tree matters. -/
theorem Shape.setNode (hs : Shape h a n) {x : HeapRef} (hx : ¬ Holds a n x) (r : HeapNode) :
    Shape (h.setNode x r) a n := by
  have hne {k : Nat} (hk : 1 ≤ k) (hkn : k ≤ n) : (h.setNode x r).node (a k) = h.node (a k) := by
    rw [node_setNode, if_neg fun heq => hx ⟨k, hk, hkn, heq⟩]
  refine ⟨hs.nelts_eq, hs.min_eq, fun k hk hkn => ?_, fun k hk hkn => ?_, fun k hk hkn => ?_,
    hs.distinct⟩
  · rw [hne hk hkn, hs.left_eq k hk hkn]
  · rw [hne hk hkn, hs.right_eq k hk hkn]
  · rw [hne hk hkn, hs.parent_eq k hk hkn]

section Store

/-- A store to a place writes a left pointer if the place is one, -/
theorem left_store (h : Heap) (place : Place) (p : Option HeapRef) (y : HeapRef) :
    ((h.store place p).node y).left = if place = .left y then p else (h.node y).left := by
  cases place with
  | min => rfl
  | left x => simp only [store, left_setLeft, Place.left.injEq, eq_comm]
  | right x => simp only [store, left_setRight, reduceCtorEq, if_false]

/-- a right pointer if it is one, -/
theorem right_store (h : Heap) (place : Place) (p : Option HeapRef) (y : HeapRef) :
    ((h.store place p).node y).right = if place = .right y then p else (h.node y).right := by
  cases place with
  | min => rfl
  | left x => simp only [store, right_setLeft, reduceCtorEq, if_false]
  | right x => simp only [store, right_setRight, Place.right.injEq, eq_comm]

/-- never a parent's, -/
@[simp] theorem parent_store (h : Heap) (place : Place) (p : Option HeapRef) (y : HeapRef) :
    ((h.store place p).node y).parent = (h.node y).parent := by
  cases place with
  | min => rfl
  | left x => simp only [store, parent_setLeft]
  | right x => simp only [store, parent_setRight]

/-- and the root if it is that, -/
theorem min_store (h : Heap) (place : Place) (p : Option HeapRef) :
    (h.store place p).min = if place = .min then p else h.min := by
  cases place <;> rfl

/-- without counting. -/
@[simp] theorem nelts_store (h : Heap) (place : Place) (p : Option HeapRef) :
    (h.store place p).nelts = h.nelts := by
  cases place <;> rfl

/-- An insertion that comes back has counted the node. -/
theorem nelts_heapInsert {lessThan : HeapCompareFn} {x : HeapRef} {h h' : Heap}
    (hrun : h.heapInsert x lessThan = some h') : h'.nelts = h.nelts + 1 := by
  rw [heapInsert] at hrun
  dsimp only at hrun
  split at hrun
  · exact nomatch hrun
  · rw [nelts_siftUp hrun, nelts_store]
    rfl

/-- The pointer to a position is the left one of its parent, the right one, or that to the
root. -/
theorem placeOf_eq_left (hd : Distinct a n) {j k : Nat} (hj : 1 ≤ j) (hjn : j ≤ n)
    (hk : k / 2 ≤ n) : placeOf a k = .left (a j) ↔ k = 2 * j := by
  rw [placeOf]
  split
  · exact ⟨nofun, fun h => by omega⟩
  · split
    · exact ⟨nofun, fun h => by omega⟩
    · rw [Place.left.injEq]
      refine ⟨fun heq => ?_, fun heq => by rw [heq]; congr 1; omega⟩
      have := hd (k / 2) j (by omega) hk hj hjn heq
      omega

/-- The place of an odd position is its parent's right pointer. -/
theorem placeOf_eq_right (hd : Distinct a n) {j k : Nat} (hj : 1 ≤ j) (hjn : j ≤ n)
    (hk : k / 2 ≤ n) : placeOf a k = .right (a j) ↔ k = 2 * j + 1 := by
  rw [placeOf]
  split
  · exact ⟨nofun, fun h => by omega⟩
  · split
    · rw [Place.right.injEq]
      refine ⟨fun heq => ?_, fun heq => by rw [heq]; congr 1; omega⟩
      have := hd (k / 2) j (by omega) hk hj hjn heq
      omega
    · exact ⟨nofun, fun h => by omega⟩

/-- The root's place is that of the first position. -/
theorem placeOf_eq_min {k : Nat} : placeOf a k = .min ↔ k ≤ 1 := by
  rw [placeOf]
  split
  · next h => exact ⟨fun _ => h, fun _ => rfl⟩
  · next h =>
    refine ⟨fun heq => ?_, fun hle => absurd hle h⟩
    split at heq <;> exact nomatch heq

end Store

/-- A new node at the first free place. -/
theorem Shape.append (hs : Shape h a n) {x : HeapRef} (hx : ¬ Holds a n x)
    (hleaf : (h.node x).left = none ∧ (h.node x).right = none) {h' : Heap}
    (hh' : h' = (h.setParent x (slot a n ((n + 1) / 2))).store (placeOf a (n + 1)) (some x)) :
    Shape { h' with nelts := h'.nelts + 1 } (put a (n + 1) x) (n + 1) := by
  have hne {k : Nat} (hk : 1 ≤ k) (hkn : k ≤ n) : a k ≠ x := fun heq => hx ⟨k, hk, hkn, heq⟩
  have hlast : slot (put a (n + 1) x) (n + 1) (n + 1) = some x := by
    rw [slot_eq _ (by omega) (Nat.le_refl _), put_self]
  -- only the new position has another slot
  have hslot {k : Nat} (hk : k ≠ n + 1) : slot (put a (n + 1) x) (n + 1) k = slot a n k := by
    rw [slot, slot, put_of_ne x hk]
    congr 1
    exact propext (by omega)
  -- the place that is stored to is in the parent of the last position
  have hplace : placeOf a (n + 1) ≠ .left x ∧ placeOf a (n + 1) ≠ .right x := by
    rw [placeOf]
    split
    · exact ⟨nofun, nofun⟩
    · next h1 =>
      have hparent := hne (k := (n + 1) / 2) (by omega) (by omega)
      split
      · exact ⟨nofun, fun heq => hparent (Place.right.inj heq)⟩
      · exact ⟨fun heq => hparent (Place.left.inj heq), nofun⟩
  subst hh'
  refine ⟨?_, ?_, fun k hk hkn => ?_, fun k hk hkn => ?_, fun k hk hkn => ?_, ?_⟩
  · show ((h.setParent x _).store _ _).nelts + 1 = n + 1
    rw [nelts_store]
    exact congrArg (· + 1) hs.nelts_eq
  · show ((h.setParent x _).store _ _).min = _
    rw [min_store]
    -- the first node becomes the minimum
    by_cases h0 : n = 0
    · subst h0
      rw [hlast]
      exact if_pos (placeOf_eq_min.mpr (Nat.le_refl 1))
    · rw [if_neg (by rw [placeOf_eq_min]; omega), hslot (by omega)]
      exact hs.min_eq
  · show (((h.setParent x _).store _ _).node _).left = _
    rw [left_store, left_setParent]
    by_cases hkl : k = n + 1
    · rw [hkl, put_self, if_neg hplace.1, hleaf.1, slot_eq_none _ (.inr (by omega))]
    · rw [put_of_ne x hkl, hs.left_eq k hk (by omega)]
      -- the parent of the new position gets its child here
      by_cases hchild : n + 1 = 2 * k
      · rw [if_pos ((placeOf_eq_left hs.distinct hk (by omega) (by omega)).mpr hchild), ← hchild,
          hlast]
      · rw [if_neg fun heq => hchild
          ((placeOf_eq_left hs.distinct hk (by omega) (by omega)).mp heq), hslot (by omega)]
  · show (((h.setParent x _).store _ _).node _).right = _
    rw [right_store, right_setParent]
    by_cases hkl : k = n + 1
    · rw [hkl, put_self, if_neg hplace.2, hleaf.2, slot_eq_none _ (.inr (by omega))]
    · rw [put_of_ne x hkl, hs.right_eq k hk (by omega)]
      by_cases hchild : n + 1 = 2 * k + 1
      · rw [if_pos ((placeOf_eq_right hs.distinct hk (by omega) (by omega)).mpr hchild), ← hchild,
          hlast]
      · rw [if_neg fun heq => hchild
          ((placeOf_eq_right hs.distinct hk (by omega) (by omega)).mp heq), hslot (by omega)]
  · show (((h.setParent x _).store _ _).node _).parent = _
    rw [parent_store, parent_setParent, hslot (by omega)]
    by_cases hkl : k = n + 1
    · rw [hkl, put_self, if_pos rfl]
    · rw [put_of_ne x hkl, if_neg (hne hk (by omega)), hs.parent_eq k hk (by omega)]
  · exact hs.distinct.put_succ hx

/-- The last node is unlinked. -/
theorem Shape.unlink (hs : Shape h a (n + 1)) :
    Shape (({ h with nelts := n } : Heap).store (placeOf a (n + 1)) none) a n := by
  -- only the last position is cut off, and `placeOf` is where it hung
  have hslot {k : Nat} (hk : k ≠ n + 1) : slot a n k = slot a (n + 1) k := by
    rw [slot, slot]
    congr 1
    exact propext (by omega)
  have hlast : slot a n (n + 1) = none := slot_eq_none a (.inr (by omega))
  refine ⟨?_, ?_, fun k hk hkn => ?_, fun k hk hkn => ?_, fun k hk hkn => ?_,
    hs.distinct.mono (by omega)⟩
  · rw [nelts_store]
  · rw [min_store]
    -- the last node was the minimum
    by_cases h0 : n = 0
    · subst h0
      rw [hlast]
      exact if_pos (placeOf_eq_min.mpr (Nat.le_refl 1))
    · rw [if_neg (by rw [placeOf_eq_min]; omega), hslot (by omega)]
      exact hs.min_eq
  · rw [left_store]
    by_cases hchild : n + 1 = 2 * k
    · rw [if_pos ((placeOf_eq_left hs.distinct hk (by omega) (by omega)).mpr hchild), ← hchild,
        hlast]
    · rw [if_neg fun heq => hchild
        ((placeOf_eq_left hs.distinct hk (by omega) (by omega)).mp heq), hslot (by omega)]
      exact hs.left_eq k hk (by omega)
  · rw [right_store]
    by_cases hchild : n + 1 = 2 * k + 1
    · rw [if_pos ((placeOf_eq_right hs.distinct hk (by omega) (by omega)).mpr hchild), ← hchild,
        hlast]
    · rw [if_neg fun heq => hchild
        ((placeOf_eq_right hs.distinct hk (by omega) (by omega)).mp heq), hslot (by omega)]
      exact hs.right_eq k hk (by omega)
  · rw [parent_store, hslot (by omega)]
    exact hs.parent_eq k hk (by omega)

/-- Only the parent of the replaced node is written. -/
theorem replaceChild_node_of_ne {parent : Option HeapRef} {old new y : HeapRef}
    (hy : parent ≠ some y) : (h.replaceChild parent old new).node y = h.node y := by
  cases parent with
  | none => rfl
  | some p =>
    have hne : y ≠ p := fun heq => hy (congrArg some heq.symm)
    rw [replaceChild]
    split
    · exact if_neg hne
    · exact if_neg hne

/-- Another node takes the place of a node. -/
theorem Shape.replaceNode (hs : Shape h a n) {i : Nat} (hi : 1 ≤ i) (hin : i ≤ n) {y : HeapRef}
    (hy : ¬ Holds a n y) (hd : Distinct (put a i y) n) :
    Shape (h.replaceNode (a i) y) (put a i y) n := by
  have hne {k : Nat} (hk : 1 ≤ k) (hkn : k ≤ n) : a k ≠ y := fun heq => hy ⟨k, hk, hkn, heq⟩
  have hslot {k : Nat} (hk : k ≠ i) : slot (put a i y) n k = slot a n k := by
    rw [slot, slot, put_of_ne y hk]
  have hsloti : slot (put a i y) n i = some y := by rw [slot_eq _ hi hin, put_self]
  -- the record of `y`, and the parents of its children
  obtain ⟨h₁, hh₁⟩ : ∃ h₁, h₁ = h.setNode y (h.node (a i)) := ⟨_, rfl⟩
  have hrecord : h₁.node y = h.node (a i) := by rw [hh₁, node_setNode, if_pos rfl]
  have hkeep {k : Nat} (hk : 1 ≤ k) (hkn : k ≤ n) : h₁.node (a k) = h.node (a k) := by
    rw [hh₁, node_setNode, if_neg (hne hk hkn)]
  obtain ⟨h₂, hh₂⟩ : ∃ h₂, h₂ = (h₁.setParentOf (slot a n (2 * i)) y).setParentOf
      (slot a n (2 * i + 1)) y := ⟨_, rfl⟩
  have hchildren {k : Nat} (hk : 1 ≤ k) (hkn : k ≤ n) :
      (h₂.node (a k)).left = slot a n (2 * k) ∧ (h₂.node (a k)).right = slot a n (2 * k + 1) ∧
        (h₂.node (a k)).parent = if k / 2 = i then some y else slot a n (k / 2) := by
    simp only [hh₂, left_setParentOf, right_setParentOf, parent_setParentOf, hkeep hk hkn,
      slot_eq_some hs.distinct hk hkn, hs.left_eq k hk hkn, hs.right_eq k hk hkn,
      hs.parent_eq k hk hkn, true_and]
    grind
  have hnew : (h₂.node y).left = slot a n (2 * i) ∧ (h₂.node y).right = slot a n (2 * i + 1) ∧
      (h₂.node y).parent = slot a n (i / 2) := by
    have hslot_ne (k : Nat) : slot a n k ≠ some y := by
      rw [slot]
      split
      · next hk => exact fun heq => hne hk.1 hk.2 (Option.some.inj heq)
      · exact nofun
    simp only [hh₂, left_setParentOf, right_setParentOf, parent_setParentOf, hrecord, hslot_ne,
      if_false, hs.left_eq i hi hin, hs.right_eq i hi hin, hs.parent_eq i hi hin, and_self]
  have hplaced : h.replaceNode (a i) y = h₂.replaceChild (slot a n (i / 2)) (a i) y := by
    have hparent := (hchildren hi hin).2.2
    rw [if_neg (by omega)] at hparent
    rw [← hparent, hh₂]
    simp only [Heap.replaceNode, ← hh₁, right_setParentOf, hrecord, hs.left_eq i hi hin,
      hs.right_eq i hi hin]
  have hrest {j : Nat} (hj : 1 ≤ j) (hjn : j ≤ n) :=
    replaceChild_slot y hs.distinct ⟨hi, hin⟩ (fun j hj hjn => (hchildren hj hjn).1)
      (fun j hj hjn => (hchildren hj hjn).2.1) (fun _ => rfl) hj hjn
  have hself : ((h₂.replaceChild (slot a n (i / 2)) (a i) y).node y) = h₂.node y := by
    refine replaceChild_node_of_ne fun hparent => ?_
    rw [slot] at hparent
    split at hparent
    · next hk => exact hne hk.1 hk.2 (Option.some.inj hparent)
    · exact nomatch hparent
  have hmin : h₂.min = h.min := by
    rw [hh₂, min_setParentOf, min_setParentOf, hh₁, min_setNode]
  have hnelts : h₂.nelts = h.nelts := by
    rw [hh₂, nelts_setParentOf, nelts_setParentOf, hh₁, nelts_setNode]
  dsimp only at hrest
  rw [hplaced]
  refine ⟨?_, ?_, fun k hk hkn => ?_, fun k hk hkn => ?_, fun k hk hkn => ?_, hd⟩
  · rw [(hrest hi hin).2.2.2.2, hnelts, hs.nelts_eq]
  · rw [(hrest hi hin).2.2.2.1, hmin, hs.min_eq]
    split
    · next hone => rw [← hone, hsloti]
    · next hone => rw [hslot (Ne.symm hone)]
  · by_cases hki : k = i
    · rw [hki, put_self, hself, hnew.1, hslot (by omega)]
    · rw [put_of_ne y hki, (hrest hk hkn).1]
      split
      · next hside => rw [← hside.2, hsloti]
      · next hside => rw [hslot (by omega)]
  · by_cases hki : k = i
    · rw [hki, put_self, hself, hnew.2.1, hslot (by omega)]
    · rw [put_of_ne y hki, (hrest hk hkn).2.1]
      split
      · next hside =>
        have hik : i = 2 * k + 1 := by omega
        rw [← hik, hsloti]
      · next hside => rw [hslot (by omega)]
  · by_cases hki : k = i
    · rw [hki, put_self, hself, hnew.2.2, hslot (by omega)]
    · rw [put_of_ne y hki, (hrest hk hkn).2.2.1, (hchildren hk hkn).2.2]
      split
      · next hparent => rw [hparent, hsloti]
      · next hparent => rw [hslot hparent]

section Spec

variable {κ : Type _} [LinearOrder κ] {key : HeapRef → κ} {lessThan : HeapCompareFn}

/-- Inserting a node gives an ordered tree with that node more. -/
theorem heapInsert_spec (hs : Shape h a n) (hord : Ordered key a n) {x : HeapRef}
    (hx : ¬ Holds a n x)
    (hcmp : ∀ y z, Holds a n y ∨ y = x → Holds a n z ∨ z = x →
      lessThan y z = some (decide (key y < key z))) :
    ∃ h' a', h.heapInsert x lessThan = some h' ∧ Shape h' a' (n + 1) ∧
      Ordered key a' (n + 1) ∧ ∀ y, Holds a' (n + 1) y ↔ Holds a n y ∨ y = x := by
  have hs₁ := hs.setNode hx { left := none, right := none, parent := none }
  rw [heapInsert]
  dsimp only
  -- the node goes to the first position that is free, and `follow` finds its place
  have hcount : 1 + (h.setNode x { left := none, right := none, parent := none }).nelts = n + 1 := by
    rw [hs₁.nelts_eq, Nat.add_comm]
  rw [hcount, hs₁.follow_heapPath (by omega) (Nat.le_refl _)]
  dsimp only
  rw [hs₁.load_placeOf_half]
  have happend := hs₁.append hx ⟨by rw [node_setNode, if_pos rfl], by rw [node_setNode, if_pos rfl]⟩
    rfl
  have hholds (y : HeapRef) : Holds (put a (n + 1) x) (n + 1) y ↔ Holds a n y ∨ y = x :=
    holds_put_succ
  -- among the nodes and the new one the comparison is that of the keys
  have hcmp' : Compares lessThan key (put a (n + 1) x) (n + 1) := by
    intro y z hy hz
    exact hcmp y z ((hholds y).mp hy) ((hholds z).mp hz)
  have hnelts := happend.nelts_eq
  dsimp only at hnelts
  rw [hnelts]
  rw [hnelts] at happend
  -- then it moves up as far as it is smaller
  obtain ⟨h', a', hrun, hs', hord', hsame⟩ :=
    siftUp_spec happend hcmp' (hord.upTo_put_succ x) (by omega) (Nat.le_refl _)
      (show n + 1 ≤ n + 1 + 1 by omega)
  rw [put_self] at hrun
  exact ⟨h', a', hrun, hs', hord', fun y => (hsame y).trans (hholds y)⟩

/-- Removing a node leaves an ordered tree of the others; the key of that node is not looked
at. -/
theorem heapRemove_spec (hs : Shape h a (n + 1)) (hord : Ordered key a (n + 1)) {x : HeapRef}
    (hx : Holds a (n + 1) x)
    (hcmp : ∀ y z, Holds a (n + 1) y → y ≠ x → Holds a (n + 1) z → z ≠ x →
      lessThan y z = some (decide (key y < key z))) :
    ∃ h' a', h.heapRemove x lessThan = some h' ∧ Shape h' a' n ∧ Ordered key a' n ∧
      ∀ y, Holds a' n y ↔ Holds a (n + 1) y ∧ y ≠ x := by
  have hlast : slot a (n + 1) (n + 1) = some (a (n + 1)) := slot_eq a (by omega) (Nat.le_refl _)
  have hunlink := hs.unlink
  rw [heapRemove, if_neg (by rw [hs.nelts_eq]; omega)]
  dsimp only
  rw [hs.nelts_eq, hs.follow_heapPath (by omega) (by omega), Nat.add_sub_cancel]
  dsimp only
  have hload : ({ h with nelts := n } : Heap).load (placeOf a (n + 1)) = some (a (n + 1)) := by
    rw [← hlast, ← hs.load_placeOf (by omega) (by omega)]
    cases placeOf a (n + 1) <;> rfl
  rw [hload]
  dsimp only
  have hnot : ¬ Holds a n (a (n + 1)) := by
    intro ⟨k, hk, hkn, heq⟩
    have := hs.distinct k (n + 1) hk (by omega) (by omega) (Nat.le_refl _) heq
    omega
  by_cases hnode : a (n + 1) = x
  · -- the last node itself
    rw [if_pos hnode]
    have hmin : ¬ some (a (n + 1)) =
        (({ h with nelts := n } : Heap).store (placeOf a (n + 1)) none).min := by
      rw [hunlink.min_eq, slot]
      split
      · next h1 => exact fun heq => hnot ⟨1, h1.1, h1.2, (Option.some.inj heq).symm⟩
      · exact nofun
    rw [if_neg hmin]
    refine ⟨_, a, rfl, hunlink, hord.mono (by omega), fun y => ⟨fun ⟨k, hk, hkn, hy⟩ => ?_, ?_⟩⟩
    · refine ⟨⟨k, hk, by omega, hy⟩, fun hyx => hnot ⟨k, hk, hkn, ?_⟩⟩
      rw [hy, hyx, hnode]
    · intro ⟨⟨k, hk, hkn, hy⟩, hne⟩
      have hkl : k ≠ n + 1 := fun hkl => hne (by rw [← hy, hkl, hnode])
      exact ⟨k, hk, by omega, hy⟩
  · rw [if_neg hnode]
    obtain ⟨i, hi, hin, hix⟩ := hx
    have hin' : i ≤ n := by
      have hne : i ≠ n + 1 := fun heq => hnode (by rw [← heq, hix])
      omega
    have hreplace := hunlink.replaceNode hi hin' hnot hs.distinct.put_last
    have hholds := holds_put_last hs.distinct ⟨hi, hin'⟩
    rw [hix] at hreplace hholds
    have hcmp' : Compares lessThan key (put a i (a (n + 1))) n := by
      intro y z hy hz
      have hy' := (hholds y).mp hy
      have hz' := (hholds z).mp hz
      exact hcmp y z hy'.1 hy'.2 hz'.1 hz'.2
    rw [hreplace.nelts_eq]
    obtain ⟨h₁, a₁, j, hdown, hs₁, hup, hj, hjn, haj, hsame₁⟩ :=
      siftDown_spec hreplace hcmp' ((hord.mono (Nat.le_succ n)).downTo_put (a (n + 1))) hi hin'
        (show n < n + 1 + i by omega)
    rw [put_self] at hdown haj
    rw [hdown]
    dsimp only
    rw [hs₁.nelts_eq]
    obtain ⟨h₂, a₂, hrun, hs₂, hord₂, hsame₂⟩ :=
      siftUp_spec hs₁ (hcmp'.congr fun y => (hsame₁ y).mp) hup hj hjn
        (show j ≤ n + 1 by omega)
    rw [haj] at hrun
    exact ⟨h₂, a₂, hrun, hs₂, hord₂, fun y => ((hsame₂ y).trans (hsame₁ y)).trans (hholds y)⟩

end Spec

end Athena.Heap
