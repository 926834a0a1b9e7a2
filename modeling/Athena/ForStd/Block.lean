import Mathlib.Tactic.Ring

/-!
# Blocks of memory

An allocated block is the list of its cells.  Reading from its beginning and writing over
its beginning have a result only inside the block: a copy that would go past the end is
`none`.
-/

namespace Athena.Block

variable {α : Type _}

/-- The first `n` cells of a block. -/
def read (block : List α) (n : Nat) : Option (List α) :=
  if n ≤ block.length then some (block.take n) else none

/-- Write `src` over the beginning of a block. -/
def write (block src : List α) : Option (List α) :=
  if src.length ≤ block.length then some (src ++ block.drop src.length) else none

/-- A length as an `int` of 32 bits. -/
def intLength (n : Nat) : Int := Int.bmod n (2 ^ 32)

/-- Below 2^31 the `int` is the length. -/
theorem intLength_eq {n : Nat} (h : n < 2 ^ 31) : intLength n = n := by
  exact Int.bmod_eq_of_le (by omega) (by omega)

/-- The signed residue of a number is at most the number. -/
theorem bmod_le (n m : Nat) : Int.bmod n m ≤ n := by
  have hmod : (n : Int) % (m : Int) ≤ n := Int.ofNat_le.mpr (Nat.mod_le n m)
  rw [Int.bmod_def]
  split <;> omega

/-- The signed residue is not negative exactly in the lower half of the residues. -/
theorem bmod_nonneg {n m : Nat} (hm : 0 < m) : 0 ≤ Int.bmod n m ↔ n % m < (m + 1) / 2 := by
  have hlt := Nat.mod_lt n hm
  have hcast : (n : Int) % (m : Int) = (n % m : Nat) := rfl
  rw [Int.bmod_def, hcast]
  split <;> omega

/-- The `int` never exceeds the length. -/
theorem intLength_le (n : Nat) : intLength n ≤ n := bmod_le n (2 ^ 32)

/-- The cast is exact for the lengths below `2 ^ 31`, and only for them. -/
theorem intLength_eq_iff {n : Nat} : intLength n = n ↔ n < 2 ^ 31 := by
  refine ⟨fun h => ?_, intLength_eq⟩
  have hlt : intLength n < (2 ^ 32 + 1) / 2 := Int.bmod_lt (by decide)
  omega

/-- The cast is not negative where the low half of the word is not. -/
theorem intLength_nonneg {n : Nat} : 0 ≤ intLength n ↔ n % 2 ^ 32 < 2 ^ 31 :=
  bmod_nonneg (by decide)

/-- Nothing is read of any block. -/
@[simp] theorem read_zero (block : List α) : read block 0 = some [] := by
  simp only [read, Nat.zero_le, if_true, List.take_zero]

/-- The whole block is read. -/
@[simp] theorem read_length (block : List α) : read block block.length = some block := by
  simp only [read, Nat.le_refl, if_true, List.take_length]

/-- A read has the cells that it asks for, of a block that has so many. -/
theorem read_eq_some {block cells : List α} {n : Nat} :
    read block n = some cells ↔ n ≤ block.length ∧ block.take n = cells := by
  rw [read]
  split
  · next h => rw [Option.some.injEq, and_iff_right h]
  · next h => exact ⟨nofun, fun hread => absurd hread.1 h⟩

/-- A read has a result exactly inside the block. -/
theorem read_isSome {block : List α} {n : Nat} : (read block n).isSome ↔ n ≤ block.length := by
  rw [read]
  split
  · next h => exact ⟨fun _ => h, fun _ => rfl⟩
  · next h => exact ⟨nofun, fun hle => absurd hle h⟩

/-- A write replaces the first cells of a block that has enough of them. -/
theorem write_eq_some {block src cells : List α} :
    write block src = some cells ↔
      src.length ≤ block.length ∧ src ++ block.drop src.length = cells := by
  rw [write]
  split
  · next h => rw [Option.some.injEq, and_iff_right h]
  · next h => exact ⟨nofun, fun hwrite => absurd hwrite.1 h⟩

/-- A write keeps the size of the block, and what is written is read back. -/
theorem write_spec {block src cells : List α} (h : write block src = some cells) :
    cells.length = block.length ∧ read cells src.length = some src := by
  obtain ⟨hle, rfl⟩ := write_eq_some.mp h
  constructor
  · rw [List.length_append, List.length_drop]
    omega
  · refine read_eq_some.mpr ⟨?_, List.take_left⟩
    rw [List.length_append]
    omega

end Athena.Block
