import Mathlib.Tactic.NormNum
import Athena.Native.CxxMethods

/-!
# A wire format

The operators of `ByteBuffer` with numbers in network order, as its other methods write
them, and strings that end with a NUL.  This is one `Wire` that is lawful.
-/

namespace Athena.Idl

/-! ## Network order -/

/-- The last `k` bytes of a number, the first byte first. -/
def toNetwork : Nat → Nat → List UInt8
  | 0, _ => []
  | k + 1, n => toNetwork k (n / 256) ++ [UInt8.ofNat (n % 256)]

/-- A number of these bytes, the highest first. -/
def fromNetwork (bytes : List UInt8) : Nat := bytes.foldl (fun n b => n * 256 + b.toNat) 0

/-- A number of `k` bytes. -/
@[simp] theorem length_toNetwork (k n : Nat) : (toNetwork k n).length = k := by
  induction k generalizing n with
  | zero => rfl
  | succ k ih => rw [toNetwork, List.length_append, ih, List.length_singleton]

/-- The bytes of a number give its residue back. -/
theorem fromNetwork_toNetwork (k n : Nat) : fromNetwork (toNetwork k n) = n % 256 ^ k := by
  induction k generalizing n with
  | zero => rw [Nat.pow_zero, Nat.mod_one]; rfl
  | succ k ih =>
    have hbyte : (UInt8.ofNat (n % 256)).toNat = n % 256 := by
      rw [UInt8.toNat_ofNat']
      exact Nat.mod_eq_of_lt (Nat.mod_lt n (by omega))
    have hprefix := ih (n / 256)
    rw [fromNetwork] at hprefix
    rw [toNetwork, fromNetwork, List.foldl_append, List.foldl_cons, List.foldl_nil, hprefix, hbyte,
      Nat.pow_succ', Nat.mod_mul]
    ring

/-! ## Numbers -/

/-- Whether the type has negative numbers. -/
def BaseType.signed : BaseType → Bool
  | INT8 => true
  | INT16 => true
  | INT32 => true
  | INT64 => true
  | _ => false

/-- The number whose bytes are read. -/
def BaseType.ofWord (t : BaseType) (n : Nat) : Int :=
  if t.signed then Int.bmod n (256 ^ t.size) else n

/-- The range of a type, in bytes. -/
theorem BaseType.InRange.bounds {t : BaseType} {x : Int} (h : t.InRange x) :
    if t.signed then -(256 ^ t.size : Nat) ≤ 2 * x ∧ 2 * x < (256 ^ t.size : Nat)
    else 0 ≤ x ∧ x < (256 ^ t.size : Nat) := by
  cases t <;> simp only [InRange] at h <;> simp only [signed, size] <;> norm_num <;> omega

/-- The word of a number is its residue. -/
theorem cast_word {m : Nat} (hm : 0 < m) (x : Int) :
    (((x % m).toNat % m : Nat) : Int) = x % m := by
  rw [Int.natCast_mod, Int.toNat_of_nonneg (Int.emod_nonneg x (by omega)), Int.emod_emod]

/-- The bytes of a number are those of the number that is read. -/
theorem BaseType.ofWord_emod {t : BaseType} {x : Int} (h : t.InRange x) :
    t.ofWord ((x % (256 ^ t.size : Nat)).toNat % 256 ^ t.size) = x := by
  have hbounds := h.bounds
  rw [ofWord, cast_word (Nat.pow_pos (by omega))]
  split at hbounds
  · next hsigned =>
    rw [if_pos hsigned, Int.emod_bmod]
    exact Int.bmod_eq_of_le (by omega) (by omega)
  · next hsigned =>
    rw [if_neg hsigned]
    exact Int.emod_eq_of_lt hbounds.1 hbounds.2

/-! ## The wire -/

namespace Wire

/-- Numbers in network order, and strings that end with a NUL. -/
def network : Wire where
  put
    | .base t, .num x => toNetwork t.size (x % (256 ^ t.size : Nat)).toNat
    | .string, .str s => s ++ [0]
    | _, _ => []
  get
    | .base t, bytes => (.num (t.ofWord (fromNetwork (bytes.take t.size))), bytes.drop t.size)
    | .string, bytes => (.str (bytes.takeWhile (· != 0)), (bytes.dropWhile (· != 0)).tail)
    | _, bytes => (.num 0, bytes)

/-- A string ends at its NUL. -/
theorem takeWhile_string {s : List UInt8} (h : 0 ∉ s) (rest : List UInt8) :
    (s ++ 0 :: rest).takeWhile (· != 0) = s ∧ (s ++ 0 :: rest).dropWhile (· != 0) = 0 :: rest := by
  have hall : ∀ b ∈ s, (b != 0) = true := by
    intro b hb
    rw [bne_iff_ne]
    rintro rfl
    exact h hb
  constructor
  · rw [List.takeWhile_append_of_pos hall, List.takeWhile_cons_of_neg (by simp), List.append_nil]
  · rw [List.dropWhile_append_of_pos hall, List.dropWhile_cons_of_neg (by simp)]

/-- What is put into the buffer is got back. -/
theorem network_lawful : network.Lawful where
  get_put t v rest h := by
    cases t with
    | base t =>
      cases v with
      | num x =>
        -- reading the word back gives the number, as it is in the range of its type
        have hread := BaseType.ofWord_emod h
        rw [← fromNetwork_toNetwork] at hread
        simp only [network, List.take_left', List.drop_left', length_toNetwork, hread]
      | _ => exact absurd h (by simp [Scalar])
    | string =>
      cases v with
      | str s =>
        obtain ⟨htake, hdrop⟩ := takeWhile_string h rest
        simp [network, htake, hdrop]
      | _ => exact absurd h (by simp [Scalar])
    | _ => cases v <;> exact absurd h (by simp [Scalar])
  size t v h := by
    cases v with
    | num x => exact length_toNetwork _ _
    | _ => exact absurd h (by simp [Scalar])

end Wire

end Athena.Idl
