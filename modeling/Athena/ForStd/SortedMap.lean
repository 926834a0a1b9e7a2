import Mathlib.Order.Lattice

/-!
# Maps in the order of their keys

A map is the list of its entries, in the order of the keys: what a walk over an ordered
tree gives.  The operations search as the tree does, and stop at the first key that is
not smaller.

## Key results

- `store_perm_of_none`, `store_perm_of_some`: what `store` changes, as entries
- `Sorted.store`, `Sorted.erase`: the keys stay in order
- `store_of_forall_lt`: a key after all others goes to the end
-/

namespace Athena

namespace SortedMap

variable {K V : Type} [LinearOrder K]

/-- `m.find(key)`. -/
def find (key : K) : List (K × V) → Option V
  | [] => none
  | (k, v) :: m => if key = k then some v else if key < k then none else find key m

/-- `m[key] = value`. -/
def store (key : K) (value : V) : List (K × V) → List (K × V)
  | [] => [(key, value)]
  | (k, v) :: m =>
    if key = k then (key, value) :: m
    else if key < k then (key, value) :: (k, v) :: m
    else (k, v) :: store key value m

/-- `m.erase(key)`. -/
def erase (key : K) : List (K × V) → List (K × V)
  | [] => []
  | (k, v) :: m => if key = k then m else if key < k then (k, v) :: m else (k, v) :: erase key m

/-- The keys are in order, and none is twice in the list. -/
def Sorted (m : List (K × V)) : Prop := m.Pairwise fun p q => p.1 < q.1

/-! ## Entries -/

/-- A new key is one more entry. -/
theorem store_perm_of_none {key : K} {m : List (K × V)} (h : find key m = none) (value : V) :
    (store key value m).Perm ((key, value) :: m) := by
  induction m with
  | nil => exact .refl _
  | cons p m ih =>
    obtain ⟨k, v⟩ := p
    rw [find] at h
    rw [store]
    by_cases heq : key = k
    · rw [if_pos heq] at h
      cases h
    · rw [if_neg heq] at h ⊢
      by_cases hlt : key < k
      · rw [if_pos hlt]
      · rw [if_neg hlt] at h ⊢
        exact ((ih h).cons (k, v)).trans (.swap _ _ _)

/-- A key that is there has its value replaced. -/
theorem store_perm_of_some {key : K} {old : V} {m : List (K × V)}
    (h : find key m = some old) (value : V) :
    ((key, old) :: store key value m).Perm ((key, value) :: m) := by
  induction m with
  | nil => cases h
  | cons p m ih =>
    obtain ⟨k, v⟩ := p
    rw [find] at h
    rw [store]
    by_cases heq : key = k
    · rw [if_pos heq] at h ⊢
      obtain rfl := Option.some.inj h
      rw [heq]
      exact .swap _ _ _
    · rw [if_neg heq] at h ⊢
      by_cases hlt : key < k
      · rw [if_pos hlt] at h
        cases h
      · rw [if_neg hlt] at h ⊢
        exact (List.Perm.swap _ _ _).trans (((ih h).cons (k, v)).trans (.swap _ _ _))

/-- The stored value is found under its key. -/
theorem find_store_self (key : K) (value : V) (m : List (K × V)) :
    find key (store key value m) = some value := by
  induction m with
  | nil => simp [store, find]
  | cons p m ih =>
    obtain ⟨k, v⟩ := p
    rw [store]
    by_cases heq : key = k
    · rw [if_pos heq, find, if_pos rfl]
    · rw [if_neg heq]
      by_cases hlt : key < k
      · rw [if_pos hlt, find, if_pos rfl]
      · rw [if_neg hlt, find, if_neg heq, if_neg hlt, ih]

/-- A store is not seen under another key. -/
theorem find_store_ne {key key' : K} (hne : key' ≠ key) (value : V) (m : List (K × V)) :
    find key' (store key value m) = find key' m := by
  induction m with
  | nil => simp [store, find, hne]
  | cons p m ih =>
    obtain ⟨k, v⟩ := p
    rw [store]
    by_cases heq : key = k
    · rw [if_pos heq, find, find, heq]
      rw [heq] at hne
      simp [hne]
    · rw [if_neg heq]
      by_cases hlt : key < k
      · rw [if_pos hlt, find, if_neg hne]
        by_cases hlt' : key' < key
        · rw [if_pos hlt', find, if_neg (ne_of_lt (lt_trans hlt' hlt)), if_pos (lt_trans hlt' hlt)]
        · rw [if_neg hlt']
      · rw [if_neg hlt, find, find, ih]

/-- Of two stores of one key, the second counts. -/
theorem store_store (key : K) (value value' : V) (m : List (K × V)) :
    store key value' (store key value m) = store key value' m := by
  induction m with
  | nil => simp [store]
  | cons p m ih =>
    obtain ⟨k, v⟩ := p
    by_cases heq : key = k
    · simp [store, heq]
    · by_cases hlt : key < k
      · simp [store, heq, hlt]
      · simp [store, heq, hlt, ih]

/-- What is found is an entry. -/
theorem mem_of_find {key : K} {value : V} {m : List (K × V)} (h : find key m = some value) :
    (key, value) ∈ m := by
  induction m with
  | nil => cases h
  | cons p m ih =>
    obtain ⟨k, v⟩ := p
    rw [find] at h
    split at h
    · next heq =>
      obtain rfl := Option.some.inj h
      rw [heq]
      exact List.mem_cons_self
    · split at h
      · cases h
      · exact List.mem_cons_of_mem _ (ih h)

/-- An entry after `store` is the new one or an old one. -/
theorem mem_store {key : K} {value : V} {m : List (K × V)} {p : K × V}
    (h : p ∈ store key value m) : p = (key, value) ∨ p ∈ m := by
  cases hfind : find key m with
  | none => exact List.mem_cons.mp ((store_perm_of_none hfind value).mem_iff.mp h)
  | some old =>
    have hmem := (store_perm_of_some hfind value).mem_iff.mp (List.mem_cons_of_mem _ h)
    exact List.mem_cons.mp hmem

/-- What is left after an erase was there before. -/
theorem mem_of_mem_erase {key : K} {m : List (K × V)} {p : K × V} (h : p ∈ erase key m) :
    p ∈ m := by
  induction m with
  | nil => cases h
  | cons q m ih =>
    obtain ⟨k, v⟩ := q
    rw [erase] at h
    split at h
    · exact List.mem_cons_of_mem _ h
    · split at h
      · exact h
      · obtain rfl | h := List.mem_cons.mp h
        · exact List.mem_cons_self
        · exact List.mem_cons_of_mem _ (ih h)

/-! ## Order -/

/-- The empty map is in order. -/
theorem Sorted.nil : Sorted ([] : List (K × V)) := List.Pairwise.nil

/-- A store keeps the keys in order. -/
theorem Sorted.store {m : List (K × V)} (h : Sorted m) (key : K) (value : V) :
    Sorted (store key value m) := by
  induction m with
  | nil => exact List.pairwise_singleton _ _
  | cons p m ih =>
    obtain ⟨k, v⟩ := p
    obtain ⟨hhead, htail⟩ := List.pairwise_cons.mp h
    rw [SortedMap.store]
    -- by where the search stops: at the key itself, at a larger key, or behind this one
    split
    · next heq =>
      rw [heq]
      exact List.pairwise_cons.mpr ⟨hhead, htail⟩
    · next hne =>
      split
      · next hlt =>
        refine List.pairwise_cons.mpr ⟨fun q hq => ?_, h⟩
        obtain rfl | hq := List.mem_cons.mp hq
        · exact hlt
        · exact lt_trans hlt (hhead q hq)
      · next hlt =>
        refine List.pairwise_cons.mpr ⟨fun q hq => ?_, ih htail⟩
        obtain rfl | hq := mem_store hq
        · exact lt_of_le_of_ne (not_lt.mp hlt) (Ne.symm hne)
        · exact hhead q hq

/-- An erase keeps the keys in order. -/
theorem Sorted.erase {m : List (K × V)} (h : Sorted m) (key : K) : Sorted (erase key m) := by
  induction m with
  | nil => exact .nil
  | cons p m ih =>
    obtain ⟨k, v⟩ := p
    obtain ⟨hhead, htail⟩ := List.pairwise_cons.mp h
    rw [SortedMap.erase]
    split
    · exact htail
    · split
      · exact h
      · exact List.pairwise_cons.mpr ⟨fun q hq => hhead q (mem_of_mem_erase hq), ih htail⟩

/-- A key after all others is stored at the end. -/
theorem store_of_forall_lt {key : K} {m : List (K × V)} (h : ∀ p ∈ m, p.1 < key) (value : V) :
    store key value m = m ++ [(key, value)] := by
  induction m with
  | nil => rfl
  | cons p m ih =>
    obtain ⟨k, v⟩ := p
    have hlt : k < key := h (k, v) List.mem_cons_self
    rw [store, if_neg (ne_of_gt hlt), if_neg (lt_asymm hlt),
      ih fun q hq => h q (List.mem_cons_of_mem _ hq), List.cons_append]

end SortedMap

end Athena
