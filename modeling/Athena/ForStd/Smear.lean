import Mathlib.Data.Nat.Bitwise

/-!
# Smearing the highest bit downwards

`n |= n >> 1; n |= n >> 2; n |= n >> 4; ...` sets every bit below the highest set
bit of a word, which is how code rounds up to a power of two without a loop.
`Smeared m n w` is what holds between the word `m` and its image `n` after the
steps have covered `w` bits; each step doubles `w`.
-/

namespace Athena

/-- Bit `i` of `n` is set when one of the `w` bits of `m` from `i` on is. -/
def Smeared (m n w : Nat) : Prop :=
  ∀ i, n.testBit i = true ↔ ∃ j < w, m.testBit (i + j) = true

/-- A word is its own image over one bit. -/
theorem Smeared.refl (m : Nat) : Smeared m m 1 := by
  intro i
  constructor
  · intro h; exact ⟨0, by omega, h⟩
  · rintro ⟨j, hj, h⟩
    obtain rfl : j = 0 := by omega
    exact h

/-- One step `n |= n >> w` doubles the number of bits covered. -/
theorem Smeared.step {m n w : Nat} (h : Smeared m n w) : Smeared m (n ||| n >>> w) (2 * w) := by
  intro i
  rw [Nat.testBit_or, Nat.testBit_shiftRight, Bool.or_eq_true, h i, h (w + i)]
  constructor
  · rintro (⟨j, hj, hm⟩ | ⟨j, hj, hm⟩)
    · exact ⟨j, by omega, hm⟩
    · exact ⟨w + j, by omega, by rwa [show i + (w + j) = w + i + j by omega]⟩
  · rintro ⟨j, hj, hm⟩
    by_cases hjw : j < w
    · exact .inl ⟨j, hjw, hm⟩
    · exact .inr ⟨j - w, by omega, by rwa [show w + i + (j - w) = i + j by omega]⟩

/-- Once all bits are covered the word is one below the next power of two. -/
theorem Smeared.eq_two_pow {m n w : Nat} (h : Smeared m n w) (hm : m ≠ 0) (hw : m < 2 ^ w) :
    n + 1 = 2 ^ (m.log2 + 1) := by
  have hlog : m.log2 < w := (Nat.log2_lt hm).mpr hw
  have hn : n = 2 ^ (m.log2 + 1) - 1 := by
    apply Nat.eq_of_testBit_eq
    intro i
    rw [Nat.testBit_two_pow_sub_one, Bool.eq_iff_iff, h i, decide_eq_true_iff]
    constructor
    · rintro ⟨j, _, hj⟩
      have hle : i + j ≤ m.log2 := (Nat.le_log2 hm).mpr (Nat.ge_two_pow_of_testBit hj)
      omega
    · intro hi
      exact ⟨m.log2 - i, by omega,
        by rw [show i + (m.log2 - i) = m.log2 by omega]; exact Nat.testBit_log2 hm⟩
  have hpos : 0 < 2 ^ (m.log2 + 1) := Nat.two_pow_pos _
  omega

end Athena
