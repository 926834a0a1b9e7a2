import Mathlib.Data.List.Basic
import Mathlib.Data.Nat.ModEq
import Mathlib.Tactic.Ring

/-!
# Cyclic reads and writes on a list of cells

A circular buffer keeps a queue in `N` cells: the queue's elements are the cells
met when walking from a start index and starting over at the end.  This file has
the two memory operations such a buffer uses, `overwrite` (copy into the cells)
and `slice` (copy out of them), and `window`, the cells of such a walk.

The lemmas say what the operations do to a window:

- `window_eq_slices`: a window is read with two straight copies
- `window_overwrite_two`: two straight copies behind a window extend it
- `window_overwrite_disjoint`: a copy outside a window leaves it alone
- `window_take` / `window_drop`: the parts of a window are windows

`Holds l seq lo hi` is the same queue seen from outside: the elements at the positions
from `lo` up to `hi` of a sequence stand in the cells that their positions name modulo
`l.length`.  It has no start index, so it says nothing of who moves one:

- `Holds.overwrite`: a copy at position `hi` appends to what is held
- `Holds.overwrite_free`: a copy behind `hi` leaves alone what is held
- `Holds.window`: a window from position `lo` is the next part of the sequence
-/

namespace Athena.Cyclic

variable {α : Type _}

/-- Copy `src` over the cells from index `off` on. -/
def overwrite (l : List α) (off : Nat) (src : List α) : List α :=
  l.take off ++ src ++ l.drop (off + src.length)

/-- Copy out the `n` cells from index `off` on. -/
def slice (l : List α) (off n : Nat) : List α :=
  (l.drop off).take n

/-- The `n` cells met when walking from index `h`, starting over at the end. -/
def window (l : List α) (h n : Nat) : List α :=
  (l.drop h ++ l.take h).take n

/-! ## Straight copies -/

/-- A copy inside the cells changes no number of cells. -/
theorem length_overwrite {l : List α} {off : Nat} {src : List α}
    (h : off + src.length ≤ l.length) : (overwrite l off src).length = l.length := by
  simp only [overwrite, List.length_append, List.length_take, List.length_drop]
  omega

/-- Copying nothing changes nothing. -/
@[simp] theorem overwrite_nil (l : List α) (off : Nat) : overwrite l off [] = l := by
  simp [overwrite]

/-- A cell inside the copy holds what was copied, every other cell what it held. -/
theorem getElem?_overwrite {l : List α} {off : Nat} {src : List α}
    (h : off + src.length ≤ l.length) (i : Nat) :
    (overwrite l off src)[i]? =
      if off ≤ i ∧ i < off + src.length then src[i - off]? else l[i]? := by
  have htake : (l.take off).length = off := by
    rw [List.length_take]; omega
  simp only [overwrite, List.append_assoc]
  by_cases hlo : i < off
  · rw [List.getElem?_append_left (by omega), List.getElem?_take_of_lt hlo, if_neg (by omega)]
  · rw [List.getElem?_append_right (by omega), htake]
    by_cases hhi : i < off + src.length
    · rw [List.getElem?_append_left (by omega), if_pos (by omega)]
    · rw [List.getElem?_append_right (by omega), List.getElem?_drop, if_neg (by omega)]
      congr 1; omega

/-- Two copies side by side are one copy. -/
theorem overwrite_append {l s₁ s₂ : List α} {o : Nat}
    (h : o + s₁.length + s₂.length ≤ l.length) :
    overwrite (overwrite l o s₁) (o + s₁.length) s₂ = overwrite l o (s₁ ++ s₂) := by
  have h₁ : o + s₁.length ≤ l.length := by omega
  have hlen := length_overwrite h₁
  apply List.ext_getElem?
  intro i
  rw [getElem?_overwrite (by omega), getElem?_overwrite h₁,
    getElem?_overwrite (by rw [List.length_append]; omega), List.length_append]
  by_cases h2 : o + s₁.length ≤ i ∧ i < o + s₁.length + s₂.length
  · rw [if_pos h2, if_pos (by omega), List.getElem?_append_right (by omega)]
    congr 1; omega
  · by_cases h1 : o ≤ i ∧ i < o + s₁.length
    · rw [if_neg h2, if_pos h1, if_pos (by omega), List.getElem?_append_left (by omega)]
    · rw [if_neg h2, if_neg h1, if_neg (by omega)]

/-- What a copy to the front leaves: the copied elements, then the old ones. -/
theorem overwrite_zero (l src : List α) : overwrite l 0 src = src ++ l.drop src.length := by
  simp [overwrite]

/-- A slice is cut off where the cells end. -/
theorem length_slice (l : List α) (off n : Nat) :
    (slice l off n).length = min n (l.length - off) := by
  simp only [slice, List.length_take, List.length_drop]

/-- The cells of a slice, counted from its start. -/
theorem getElem?_slice (l : List α) (off n i : Nat) :
    (slice l off n)[i]? = if i < n then l[off + i]? else none := by
  simp only [slice]
  by_cases hi : i < n
  · rw [List.getElem?_take_of_lt hi, List.getElem?_drop, if_pos hi]
  · rw [List.getElem?_take_eq_none (by omega), if_neg hi]

/-! ## Windows -/

/-- Where the walk stands after `i` steps: it starts over at most once. -/
theorem walk_mod {N h i : Nat} (hh : h < N) (hi : i ≤ N) :
    (h + i) % N = if h + i < N then h + i else h + i - N := by
  split
  · exact Nat.mod_eq_of_lt ‹_›
  · rw [Nat.mod_eq_sub_mod (by omega), Nat.mod_eq_of_lt (by omega)]

/-- A window of no more than all cells is as long as it says. -/
theorem length_window {l : List α} {h n : Nat} (hn : n ≤ l.length) :
    (window l h n).length = n := by
  simp only [window, List.length_take, List.length_append, List.length_drop]
  omega

/-- The `i`-th cell of a window is the cell `i` steps from its start. -/
theorem getElem?_window {l : List α} {h n : Nat} (hh : h < l.length) (hn : n ≤ l.length)
    (i : Nat) : (window l h n)[i]? = if i < n then l[(h + i) % l.length]? else none := by
  simp only [window]
  by_cases hi : i < n
  · rw [List.getElem?_take_of_lt hi, if_pos hi]
    rw [walk_mod hh (by omega)]
    by_cases hw : h + i < l.length
    · rw [List.getElem?_append_left (by simp only [List.length_drop]; omega),
        List.getElem?_drop, if_pos hw]
    · -- the walk has passed the end of the cells
      rw [List.getElem?_append_right (by simp only [List.length_drop]; omega),
        List.length_drop, List.getElem?_take_of_lt (by omega), if_neg hw]
      congr 1; omega
  · rw [List.getElem?_take_eq_none (by omega), if_neg hi]

/-- The empty window. -/
@[simp] theorem window_zero (l : List α) (h : Nat) : window l h 0 = [] := by
  simp [window]

/-- A window is what two straight copies read: up to the end of the cells, and
    the rest from the first cell on. -/
theorem window_eq_slices {l : List α} {h n : Nat} (hh : h < l.length) (hn : n ≤ l.length) :
    window l h n =
      slice l h (min n (l.length - h)) ++ slice l 0 (n - min n (l.length - h)) := by
  apply List.ext_getElem?
  intro i
  have hlen : (slice l h (min n (l.length - h))).length = min n (l.length - h) := by
    rw [length_slice]; omega
  rw [getElem?_window hh hn]
  by_cases hi : i < min n (l.length - h)
  · rw [List.getElem?_append_left (by omega), getElem?_slice, if_pos (by omega), if_pos hi,
      Nat.mod_eq_of_lt (by omega)]
  · rw [List.getElem?_append_right (by omega), hlen, getElem?_slice]
    by_cases hin : i < n
    · rw [if_pos hin, if_pos (by omega), Nat.mod_eq_sub_mod (by omega),
        Nat.mod_eq_of_lt (by omega)]
      congr 1; omega
    · rw [if_neg hin, if_neg (by omega)]

/-- The front of a window is a window. -/
theorem window_take {l : List α} {h n k : Nat} (hk : k ≤ n) :
    (window l h n).take k = window l h k := by
  simp only [window, List.take_take, Nat.min_eq_left hk]

/-- A straight run of cells from the start of a window is its first part. -/
theorem slice_eq_take_window {l : List α} {h n k : Nat} (hkn : k ≤ n) (hkl : h + k ≤ l.length) :
    slice l h k = (window l h n).take k := by
  rw [window_take hkn, window, slice, List.take_append_of_le_length]
  rw [List.length_drop]; omega

/-- Dropping the first `k` cells of a window moves its start by `k`. -/
theorem window_drop {l : List α} {h n k : Nat} (hh : h < l.length) (hn : n ≤ l.length)
    (hk : k ≤ n) : (window l h n).drop k = window l ((h + k) % l.length) (n - k) := by
  apply List.ext_getElem?
  intro i
  rw [List.getElem?_drop, getElem?_window hh hn,
    getElem?_window (Nat.mod_lt _ (by omega)) (by omega)]
  by_cases hi : i < n - k
  · rw [if_pos (by omega), if_pos hi, Nat.mod_add_mod]
    congr 2; omega
  · rw [if_neg (by omega), if_neg hi]

/-- A copy that meets no cell of a window leaves the window alone. -/
theorem window_overwrite_disjoint {l src : List α} {off h n : Nat}
    (hh : h < l.length) (hn : n ≤ l.length) (hfit : off + src.length ≤ l.length)
    (hd : ∀ i < n, ¬(off ≤ (h + i) % l.length ∧ (h + i) % l.length < off + src.length)) :
    window (overwrite l off src) h n = window l h n := by
  have hlen := length_overwrite hfit
  apply List.ext_getElem?
  intro i
  rw [getElem?_window (by omega) (by omega), getElem?_window hh hn, hlen]
  split
  · rename_i hi
    rw [getElem?_overwrite hfit, if_neg (hd i hi)]
  · rfl

/-- A window goes on where its first part ends. -/
theorem window_add {l : List α} {h n m : Nat} (hh : h < l.length) (hle : n + m ≤ l.length) :
    window l h (n + m) = window l h n ++ window l ((h + n) % l.length) m := by
  have hdrop := window_drop hh hle (Nat.le_add_right n m)
  rw [Nat.add_sub_cancel_left] at hdrop
  rw [← hdrop, ← window_take (Nat.le_add_right n m), List.take_append_drop]

/-- A copy inside a window is a copy into what the window shows. -/
theorem window_overwrite {l src : List α} {h n o : Nat} (hh : h < l.length) (hn : n ≤ l.length)
    (ho : o + src.length ≤ n) (hfit : (h + o) % l.length + src.length ≤ l.length) :
    window (overwrite l ((h + o) % l.length) src) h n = overwrite (window l h n) o src := by
  have hlen := length_overwrite hfit
  have hwin : (window l h n).length = n := length_window hn
  apply List.ext_getElem?
  intro i
  rw [getElem?_window (by omega) (by omega), hlen, getElem?_overwrite hfit,
    getElem?_overwrite (by omega), getElem?_window hh hn]
  by_cases hi : i < n
  · rw [if_pos hi, if_pos hi]
    have hcell := walk_mod hh (show i ≤ l.length by omega)
    have hstart := walk_mod hh (show o ≤ l.length by omega)
    by_cases hio : o ≤ i ∧ i < o + src.length
    · rw [if_pos hio, if_pos (by split at hcell <;> split at hstart <;> omega)]
      congr 1
      split at hcell <;> split at hstart <;> omega
    · rw [if_neg hio, if_neg (by split at hcell <;> split at hstart <;> omega)]
  · rw [if_neg hi, if_neg hi, if_neg (by omega)]

/-- Copying `src` behind a window with two straight copies (up to the end of the
    cells, and the rest from the first cell on) extends the window by `src`. -/
theorem window_overwrite_two {l src : List α} {h n t : Nat}
    (hh : h < l.length) (hfit : n + src.length ≤ l.length) (ht : t = (h + n) % l.length) :
    window (overwrite (overwrite l t (src.take (l.length - t))) 0 (src.drop (l.length - t)))
      h (n + src.length) = window l h n ++ src := by
  have hN : 0 < l.length := by omega
  have htN : t < l.length := ht ▸ Nat.mod_lt _ hN
  have hlen₁ : (overwrite l t (src.take (l.length - t))).length = l.length :=
    length_overwrite (by rw [List.length_take]; omega)
  have hlen₂ : (overwrite (overwrite l t (src.take (l.length - t))) 0
      (src.drop (l.length - t))).length = l.length := by
    rw [length_overwrite (by rw [List.length_drop, hlen₁]; omega), hlen₁]
  apply List.ext_getElem?
  intro i
  rw [getElem?_window (by omega) (by omega), hlen₂,
    getElem?_overwrite (by rw [List.length_drop, hlen₁]; omega),
    getElem?_overwrite (by rw [List.length_take]; omega)]
  simp only [List.length_take, List.length_drop]
  by_cases hin : i < n
  · -- a cell of the old window: neither copy reaches it
    rw [if_pos (by omega), List.getElem?_append_left (by rw [length_window (by omega)]; exact hin),
      getElem?_window hh (by omega), if_pos hin]
    have hcell := walk_mod hh (show i ≤ l.length by omega)
    have htail := walk_mod hh (show n ≤ l.length by omega)
    rw [if_neg (by split at hcell <;> split at htail <;> omega),
      if_neg (by split at hcell <;> split at htail <;> omega)]
  · by_cases his : i < n + src.length
    · rw [if_pos his, List.getElem?_append_right (by rw [length_window (by omega)]; omega),
        length_window (by omega)]
      obtain ⟨k, rfl⟩ : ∃ k, i = n + k := ⟨i - n, by omega⟩
      -- the walk goes on from cell `t`
      rw [show (h + (n + k)) % l.length = (t + k) % l.length by
        rw [ht, Nat.mod_add_mod, Nat.add_assoc], walk_mod htN (by omega)]
      by_cases hw : t + k < l.length
      · rw [if_pos hw, if_neg (by omega), if_pos (by omega), List.getElem?_take_of_lt (by omega)]
        congr 1; omega
      · -- the second copy, from the first cell on
        rw [if_neg hw, if_pos (by omega), List.getElem?_drop]
        congr 1; omega
    · rw [if_neg his, List.getElem?_append_right (by rw [length_window (by omega)]; omega),
        length_window (by omega), List.getElem?_eq_none (by omega)]

/-! ## Cells that hold part of a sequence -/

/-- The cells hold the elements of `seq` at the positions from `lo` up to `hi`, each in
    the cell that its position is modulo the number of cells. -/
def Holds (l seq : List α) (lo hi : Nat) : Prop :=
  ∀ k, lo ≤ k → k < hi → l[k % l.length]? = seq[k]?

/-- A copy that starts in the cell of position `a`, seen at a position up to a lap on. -/
theorem getElem?_overwrite_mod {l src : List α} {a k : Nat}
    (hfit : a % l.length + src.length ≤ l.length) (hlo : a ≤ k) (hhi : k < a + l.length) :
    (overwrite l (a % l.length) src)[k % l.length]? =
      if k < a + src.length then src[k - a]? else l[k % l.length]? := by
  have hN : 0 < l.length := by omega
  have ha := Nat.mod_lt a hN
  obtain ⟨i, rfl⟩ := Nat.exists_eq_add_of_le hlo
  -- the walk from cell `a % N` starts over at most once
  have hk : (a + i) % l.length = (a % l.length + i) % l.length := by rw [Nat.mod_add_mod]
  have hw := walk_mod ha (show i ≤ l.length by omega)
  rw [getElem?_overwrite hfit, hk, hw]
  by_cases hi : i < src.length
  · rw [if_pos (show a % l.length + i < l.length by omega), if_pos (by omega), if_pos (by omega)]
    congr 1; omega
  · rw [if_neg (show ¬ a + i < a + src.length by omega)]
    split
    · rw [if_neg (by omega)]
    · rw [if_neg (by omega)]

/-- A copy behind a position, and less than a lap behind it, does not meet its cell. -/
theorem cells_disjoint {N a k off n : Nat} (hoff : off = a % N) (hk : k < a)
    (hlap : a + n ≤ k + N) : ¬(off ≤ k % N ∧ k % N < off + n) := by
  rintro ⟨hle, hlt⟩
  obtain ⟨i, hi⟩ := Nat.exists_eq_add_of_le hle
  -- the position of the copy in that cell
  have hcell : (a + i) % N = k % N := by
    rw [← Nat.mod_add_mod, ← hoff, ← hi, Nat.mod_mod]
  have hdvd : N ∣ a + i - k := (Nat.modEq_iff_dvd' (by omega)).mp hcell.symm
  have := Nat.le_of_dvd (by omega) hdvd
  omega

/-- Cells that hold part of a sequence hold each part of that. -/
theorem Holds.mono {l seq : List α} {lo hi lo' hi' : Nat} (h : Holds l seq lo hi)
    (hlo : lo ≤ lo') (hhi : hi' ≤ hi) : Holds l seq lo' hi' :=
  fun k h₁ h₂ => h k (by omega) (by omega)

/-- Positions that the sequence has are not moved by what is appended to it. -/
theorem Holds.append {l seq : List α} {lo : Nat} (h : Holds l seq lo seq.length)
    (more : List α) : Holds l (seq ++ more) lo seq.length :=
  fun k h₁ h₂ => by rw [List.getElem?_append_left h₂]; exact h k h₁ h₂

/-- Copying behind what is held appends to it. -/
theorem Holds.overwrite {l seq : List α} {lo : Nat} (h : Holds l seq lo seq.length)
    (src : List α)
    (hfit : seq.length % l.length + src.length ≤ l.length)
    (hroom : seq.length + src.length ≤ lo + l.length) :
    Holds (overwrite l (seq.length % l.length) src) (seq ++ src) lo
      (seq.length + src.length) := by
  intro k hlo hhi
  rw [length_overwrite hfit]
  by_cases hk : k < seq.length
  · -- held before the copy, which reaches its cell only after a lap
    have hlap := getElem?_overwrite_mod (k := k + l.length) hfit (by omega) (by omega)
    rw [Nat.add_mod_right, if_neg (by omega)] at hlap
    rw [hlap, List.getElem?_append_left hk]
    exact h k hlo hk
  · rw [getElem?_overwrite_mod hfit (by omega) (by omega), if_pos hhi,
      List.getElem?_append_right (by omega)]

/-- Copying into cells that hold nothing leaves alone what is held. -/
theorem Holds.overwrite_free {l seq src : List α} {lo hi a : Nat} (h : Holds l seq lo hi)
    (hfit : a % l.length + src.length ≤ l.length) (ha : hi ≤ a)
    (hroom : a + src.length ≤ lo + l.length) :
    Holds (Cyclic.overwrite l (a % l.length) src) seq lo hi := by
  intro k hlo hhi
  rw [length_overwrite hfit]
  have hlap := getElem?_overwrite_mod (k := k + l.length) hfit (by omega) (by omega)
  rw [Nat.add_mod_right, if_neg (by omega)] at hlap
  rw [hlap]
  exact h k hlo hhi

/-- A window from a held position on is the next part of the sequence. -/
theorem Holds.window {l seq : List α} {lo hi n : Nat} (h : Holds l seq lo hi)
    (hN : 0 < l.length) (hn : n ≤ l.length) (hle : lo + n ≤ hi) :
    window l (lo % l.length) n = (seq.drop lo).take n := by
  apply List.ext_getElem?
  intro i
  rw [getElem?_window (Nat.mod_lt _ hN) hn]
  split
  · rename_i hi'
    rw [Nat.mod_add_mod, List.getElem?_take_of_lt hi', List.getElem?_drop]
    exact h _ (by omega) (by omega)
  · rw [List.getElem?_take_eq_none (by omega)]

/-- A straight run of cells from a held position on is the next part of the sequence. -/
theorem Holds.slice {l seq : List α} {lo hi n : Nat} (h : Holds l seq lo hi)
    (hN : 0 < l.length) (hfit : lo % l.length + n ≤ l.length) (hle : lo + n ≤ hi) :
    slice l (lo % l.length) n = (seq.drop lo).take n := by
  rw [slice_eq_take_window (Nat.le_refl n) hfit, h.window hN (by omega) hle, List.take_take,
    Nat.min_self]

/-- The cells behind what is held hold whatever they hold. -/
theorem Holds.append_window {l seq : List α} {lo n : Nat} (h : Holds l seq lo seq.length)
    (hN : 0 < l.length) (hn : n ≤ l.length) :
    Holds l (seq ++ Cyclic.window l (seq.length % l.length) n) lo (seq.length + n) := by
  intro k hlo hhi
  by_cases hk : k < seq.length
  · exact h.append _ k hlo hk
  · obtain ⟨i, rfl⟩ := Nat.exists_eq_add_of_le (Nat.not_lt.mp hk)
    rw [List.getElem?_append_right (by omega), getElem?_window (Nat.mod_lt _ hN) hn,
      if_pos (by omega), Nat.mod_add_mod]
    congr 2; omega

end Athena.Cyclic
