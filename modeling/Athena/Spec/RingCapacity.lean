import Mathlib.Order.Bounds.Basic
import Athena.Native.RingByteBuf

/-!
# The capacity of a byte ring

`ceilToPowerOfTwo` rounds up to the least power of two, also at `2 ^ 63`, the largest one that
a 64-bit word holds.  The constructor adds one to the capacity before it rounds, and what it
refuses is what would go beyond `2 ^ 63`.

## Key results

- `ceilToPowerOfTwo_isLeast`: the least power of two that is at least `n`
- `RingByteBuf.cap_of_new`: the ring of a capacity is larger than it, at most twice as large
- `RingByteBuf.and_mask_eq_mod`: masking a word is its remainder
-/

namespace Athena

/-- The powers of two that are at least `n`. -/
def PowersFrom (n : Nat) : Set Nat :=
  {m | (∃ k, m = 2 ^ k) ∧ n ≤ m}

/-- Between a power of two and its double there is no other. -/
theorem isLeast_powersFrom {n k : Nat} (hle : n ≤ 2 ^ (k + 1)) (hlt : 2 ^ k < n) :
    IsLeast (PowersFrom n) (2 ^ (k + 1)) := by
  refine ⟨⟨⟨k + 1, rfl⟩, hle⟩, ?_⟩
  intro m ⟨⟨j, hj⟩, hm⟩
  subst hj
  have hkj : k < j := (Nat.pow_lt_pow_iff_right Nat.one_lt_two).mp (by omega)
  exact Nat.pow_le_pow_right (by omega) hkj

/-- The capacity is the least power of two that is enough. -/
theorem ceilToPowerOfTwo_isLeast {n : UInt64} (h1 : 1 ≤ n.toNat) (hn : n.toNat ≤ 2 ^ 63) :
    IsLeast (PowersFrom n.toNat) (ceilToPowerOfTwo n).toNat := by
  by_cases h2 : 2 < n.toNat
  · rw [ceilToPowerOfTwo_toNat h2 hn]
    have hne : n.toNat - 1 ≠ 0 := by omega
    have hlow := Nat.log2_self_le hne
    have hhigh := Nat.lt_log2_self (n := n.toNat - 1)
    exact isLeast_powersFrom (by omega) (by omega)
  · -- one and two are powers of two themselves
    obtain hone | htwo : n.toNat = 1 ∨ n.toNat = 2 := by omega
    · obtain rfl : n = 1 := UInt64.toNat_inj.mp hone
      exact ⟨⟨⟨0, by decide⟩, by decide⟩, fun m hm => hm.2⟩
    · obtain rfl : n = 2 := UInt64.toNat_inj.mp htwo
      exact ⟨⟨⟨1, by decide⟩, by decide⟩, fun m hm => hm.2⟩

namespace RingByteBuf

/-- What the constructor accepts, and the capacity of the ring. -/
theorem cap_of_new {malloc : Malloc} {capacity : UInt64} {r : RingByteBuf}
    (h : new malloc capacity = some r) :
    capacity.toNat < r.cap_.toNat ∧ r.cap_.toNat ≤ 2 * capacity.toNat := by
  rw [new] at h
  split at h
  · next hcapacity =>
    have hadd : (capacity + 1).toNat = capacity.toNat + 1 := by
      rw [UInt64.toNat_add]
      exact Nat.mod_eq_of_lt (by show capacity.toNat + 1 < 2 ^ 64; omega)
    obtain ⟨k, -, hk, hle, hlt⟩ := ceilToPowerOfTwo_spec (n := capacity + 1)
      (by omega) (by omega)
    obtain rfl := Option.some.inj h
    show capacity.toNat < (ceilToPowerOfTwo (capacity + 1)).toNat ∧
      (ceilToPowerOfTwo (capacity + 1)).toNat ≤ 2 * capacity.toNat
    omega
  · cases h

/-- A word masked is its remainder. -/
theorem and_mask_eq_mod (r : RingByteBuf) (x : UInt64) : x &&& r.mask_ = x % r.cap_ := by
  apply UInt64.toNat_inj.mp
  rw [r.mask_eq, toNat_and_mask r.cap_pow, UInt64.toNat_mod]

/-- Rounding is exact for every word up to `2 ^ 63`, so the ring of every capacity that the
    constructor accepts is a power of two that masks like a remainder. -/
theorem capacity_rounding :
    (∀ n : UInt64, 1 ≤ n.toNat → n.toNat ≤ 2 ^ 63 →
      IsLeast (PowersFrom n.toNat) (ceilToPowerOfTwo n).toNat) ∧
    ∀ (malloc : Malloc) (capacity : UInt64) (r : RingByteBuf), new malloc capacity = some r →
      (∃ k, r.cap_.toNat = 2 ^ k) ∧ capacity.toNat < r.cap_.toNat ∧
        r.cap_.toNat ≤ 2 * capacity.toNat ∧ r.mask_ = r.cap_ - 1 ∧
          ∀ x : UInt64, x &&& r.mask_ = x % r.cap_ := by
  refine ⟨fun n h1 hn => ceilToPowerOfTwo_isLeast h1 hn, ?_⟩
  intro malloc capacity r hnew
  obtain ⟨hlt, hle⟩ := cap_of_new hnew
  obtain ⟨k, -, hk⟩ := r.cap_pow
  exact ⟨⟨k, hk⟩, hlt, hle, r.mask_eq, r.and_mask_eq_mod⟩

/-- At the end of its range. -/
theorem capacity_rounding_largest :
    IsLeast (PowersFrom (UInt64.toNat 0x8000000000000000))
        (ceilToPowerOfTwo 0x8000000000000000).toNat ∧
      ∀ r, new zeroed 1000 = some r → r.cap_.toNat ≤ 2000 :=
  ⟨capacity_rounding.1 0x8000000000000000 (by decide) (by decide),
    fun r hr => (capacity_rounding.2 zeroed 1000 r hr).2.2.1⟩

end RingByteBuf

end Athena
