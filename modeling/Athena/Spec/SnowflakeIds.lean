import Mathlib.Data.List.Basic
import Mathlib.Tactic.Ring
import Athena.Native.Snowflake

/-!
# Snowflake ids are unique, ordered and decodable

A call issues its id for a later reading than the call before, with the sequence 0, or for
the same reading with the next sequence, which is at most 4095.  The bit layout of a
reading, a worker and a sequence in their ranges is a sum, so the ids increase with
the readings and the sequences, and each has its worker in the same place.

## Key results

- `nextIdImp_spec`: what one call does
- `layout_eq`: the layout as a number
- `nextIds_spec`: the ids of any number of calls
- `ids_unique`: ids increase, have their readings back, and differ between workers
-/

namespace Athena

namespace Snowflake

/-! ## The layout -/

/-- The readings that have an id. -/
def Usable (timestamp : Int64) : Prop :=
  EPOCH.toInt ≤ timestamp.toInt ∧ timestamp.toInt < EPOCH.toInt + 2 ^ 41

instance (timestamp : Int64) : Decidable (Usable timestamp) := inferInstanceAs (Decidable (_ ∧ _))

/-- The fields do not overlap. -/
theorem fields_add (a : Nat) {w q : Nat} (hw : w < 1024) (hq : q < 4096) :
    a <<< 22 ||| w <<< 12 ||| q = a * 4194304 + w * 4096 + q := by
  have hlow : w <<< 12 + q = w <<< 12 ||| q := Nat.shiftLeft_add_eq_or_of_lt hq w
  have hlt : w <<< 12 + q < 2 ^ 22 := by
    rw [Nat.shiftLeft_eq]
    omega
  rw [Nat.or_assoc, ← hlow, ← Nat.shiftLeft_add_eq_or_of_lt hlt, Nat.shiftLeft_eq, Nat.shiftLeft_eq]
  omega

/-- The shift of the milliseconds, on the bits. -/
theorem shiftLeft_timestamp (x : Int64) : (x <<< TIMESTAMP_SHIFT).toBitVec = x.toBitVec <<< 22 := rfl

/-- The shift of the worker, on the bits. -/
theorem shiftLeft_worker (x : Int64) : (x <<< WORKER_ID_SHIFT).toBitVec = x.toBitVec <<< 12 := rfl

/-- The shift back to the milliseconds, on the bits. -/
theorem shiftRight_timestamp (x : Int64) :
    (x >>> TIMESTAMP_SHIFT).toBitVec = x.toBitVec.sshiftRight 22 := rfl

/-- The three fields do not overlap, so that `|` adds them. -/
theorem or_fields {a w q : Nat} (ha : a < 2199023255552) (hw : w < 1024) (hq : q < 4096) :
    (Int64.ofNat a <<< TIMESTAMP_SHIFT ||| Int64.ofNat w <<< WORKER_ID_SHIFT ||| Int64.ofNat q) =
      Int64.ofNat (a * 4194304 + w * 4096 + q) := by
  apply Int64.toBitVec_inj.mp
  apply BitVec.eq_of_toNat_eq
  have ha' : a <<< 22 = a * 4194304 := Nat.shiftLeft_eq a 22
  have hw' : w <<< 12 = w * 4096 := Nat.shiftLeft_eq w 12
  rw [Int64.toBitVec_or, Int64.toBitVec_or, shiftLeft_timestamp, shiftLeft_worker]
  simp only [Int64.toBitVec_ofNat', BitVec.toNat_or, BitVec.toNat_ofNat, BitVec.toNat_shiftLeft]
  rw [Nat.mod_eq_of_lt (by omega : a < 2 ^ 64), Nat.mod_eq_of_lt (by omega : w < 2 ^ 64),
    Nat.mod_eq_of_lt (by omega : q < 2 ^ 64), Nat.mod_eq_of_lt (by omega : a <<< 22 < 2 ^ 64),
    Nat.mod_eq_of_lt (by omega : w <<< 12 < 2 ^ 64), Nat.mod_eq_of_lt (by omega : _ < 2 ^ 64),
    fields_add a hw hq]

/-- The shift back to the milliseconds drops worker and sequence. -/
theorem shiftRight_ofNat {n : Nat} (hn : n < 2 ^ 63) :
    Int64.ofNat n >>> TIMESTAMP_SHIFT = Int64.ofNat (n / 4194304) := by
  apply Int64.toInt_inj.mp
  rw [Int64.toInt_ofNat_of_lt (by omega), ← Int64.toInt_toBitVec, shiftRight_timestamp,
    BitVec.toInt_sshiftRight, Int64.toInt_toBitVec, Int64.toInt_ofNat_of_lt hn,
    Int.shiftRight_eq_div_pow]
  rfl

/-- The sequence counts up to 4095. -/
theorem next_sequence {q : Nat} (hq : q < 4096) :
    (Int64.ofNat q + 1) &&& SEQUENCE_MASK = Int64.ofNat ((q + 1) % 4096) := by
  apply Int64.toBitVec_inj.mp
  apply BitVec.eq_of_toNat_eq
  have hmask : (q + 1) &&& 4095 = (q + 1) % 4096 := Nat.and_two_pow_sub_one_eq_mod (q + 1) 12
  have hadd : (Int64.ofNat q + 1).toBitVec.toNat = q + 1 := by
    rw [Int64.toBitVec_add, BitVec.toNat_add, Int64.toBitVec_ofNat', BitVec.toNat_ofNat]
    show (q % 2 ^ 64 + 1) % 2 ^ 64 = q + 1
    omega
  rw [Int64.toBitVec_and, BitVec.toNat_and, hadd, Int64.toBitVec_ofNat', BitVec.toNat_ofNat]
  show (q + 1) &&& 4095 = _
  omega

/-- The milliseconds of a reading since `EPOCH`. -/
def millis (timestamp : Int64) : Nat := (timestamp.toInt - EPOCH.toInt).toNat

/-- The milliseconds of a usable reading fit in 41 bits. -/
theorem Usable.millis_lt {t : Int64} (h : Usable t) : millis t < 2199023255552 := by
  obtain ⟨hlow, hhigh⟩ := h
  rw [millis]
  omega

/-- A usable reading from its milliseconds. -/
theorem Usable.toInt_eq {t : Int64} (h : Usable t) : t.toInt = EPOCH.toInt + millis t := by
  obtain ⟨hlow, hhigh⟩ := h
  rw [millis]
  omega

/-- The subtraction of `EPOCH` does not wrap. -/
theorem Usable.sub_epoch {t : Int64} (h : Usable t) : t - EPOCH = Int64.ofNat (millis t) := by
  have hlt := h.millis_lt
  have hepoch : EPOCH.toInt = 1577836800000 := rfl
  have hsub : EPOCH.toInt + (millis t : Int) - EPOCH.toInt = millis t := by omega
  apply Int64.toInt_inj.mp
  rw [Int64.toInt_sub, h.toInt_eq, Int64.toInt_ofNat_of_lt (by omega), hsub]
  exact Int.bmod_eq_of_le (by omega) (by omega)

/-- The layout is a sum. -/
theorem layout_eq {t : Int64} (ht : Usable t) {w q : Nat} (hw : w < 1024) (hq : q < 4096) :
    layout t (Int64.ofNat w) (Int64.ofNat q) =
      Int64.ofNat (millis t * 4194304 + w * 4096 + q) := by
  rw [layout, ht.sub_epoch, or_fields ht.millis_lt hw hq]

/-- The layout as an integer. -/
theorem layout_toInt {t : Int64} (ht : Usable t) {w q : Nat} (hw : w < 1024) (hq : q < 4096) :
    (layout t (Int64.ofNat w) (Int64.ofNat q)).toInt = millis t * 4194304 + w * 4096 + q := by
  have hlt := ht.millis_lt
  rw [layout_eq ht hw hq, Int64.toInt_ofNat_of_lt (by omega)]
  omega

/-- The reading comes back out of its id. -/
theorem getTimestamp_layout {t : Int64} (ht : Usable t) {w q : Nat} (hw : w < 1024)
    (hq : q < 4096) : getTimestamp (layout t (Int64.ofNat w) (Int64.ofNat q)) = t := by
  have hlt := ht.millis_lt
  have hdiv : (millis t * 4194304 + w * 4096 + q) / 4194304 = millis t := by omega
  rw [getTimestamp, layout_eq ht hw hq, shiftRight_ofNat (by omega), hdiv, ← ht.sub_epoch,
    Int64.sub_add_cancel]

/-! ## One call -/

/-- The reading that is waited for is good. -/
theorem waitFor_good {good : Int64 → Bool} {clock clock' : List Int64} {t : Int64}
    (h : waitFor good clock = some (t, clock')) : good t = true := by
  induction clock with
  | nil => cases h
  | cons t' clock ih =>
    rw [waitFor] at h
    split at h
    · next hgood =>
      obtain ⟨rfl, -⟩ := Prod.mk.inj (Option.some.inj h)
      exact hgood
    · exact ih h

/-- A reading that has caught up is not before the last one. -/
theorem catchUp_le {s : Snowflake} {clock clock' : List Int64} {t : Int64}
    (h : s.catchUp clock = some (t, clock')) : s.lastTimestamp_ ≤ t := by
  cases clock with
  | nil => cases h
  | cons t' clock =>
    rw [catchUp] at h
    split at h
    · have hgood := waitFor_good h
      exact Int64.not_lt.mp (by simpa using hgood)
    · next hnot =>
      obtain ⟨rfl, -⟩ := Prod.mk.inj (Option.some.inj h)
      exact Int64.not_lt.mp hnot

/-- A call issues an id for a later reading, or the next one for the same reading. -/
theorem nextIdImp_spec {s s' : Snowflake} {clock rest : List Int64} {r : Issued}
    (h : s.nextIdImp clock = some ((r, s'), rest)) :
    s'.workerId_ = s.workerId_ ∧ s'.lastTimestamp_ = r.timestamp ∧
      r.id = layout r.timestamp s.workerId_ s'.sequence_ ∧
      (s.lastTimestamp_ < r.timestamp ∧ s'.sequence_ = 0 ∨
        r.timestamp = s.lastTimestamp_ ∧ s'.sequence_ = (s.sequence_ + 1) &&& SEQUENCE_MASK ∧
          s'.sequence_ ≠ 0) := by
  rw [nextIdImp] at h
  split at h
  · cases h
  · next t clock' hcatch =>
    have hle := catchUp_le hcatch
    split at h
    · next heq =>
      dsimp only at h
      split at h
      · next hzero =>
        -- the sequence has wrapped: the second wait is for a later reading
        split at h
        · cases h
        · next t' clock'' hwait =>
          have hlater := waitFor_good hwait
          obtain ⟨hissue, -⟩ := Prod.mk.inj (Option.some.inj h)
          obtain ⟨rfl, rfl⟩ := Prod.mk.inj hissue
          refine ⟨rfl, rfl, rfl, .inl ⟨?_, hzero⟩⟩
          exact Int64.not_le.mp (by simpa using hlater)
      · next hne =>
        obtain ⟨hissue, -⟩ := Prod.mk.inj (Option.some.inj h)
        obtain ⟨rfl, rfl⟩ := Prod.mk.inj hissue
        exact ⟨rfl, rfl, rfl, .inr ⟨heq, rfl, hne⟩⟩
    · next hne =>
      obtain ⟨hissue, -⟩ := Prod.mk.inj (Option.some.inj h)
      obtain ⟨rfl, rfl⟩ := Prod.mk.inj hissue
      refine ⟨rfl, rfl, rfl, .inl ⟨?_, rfl⟩⟩
      exact Int64.lt_of_le_of_ne hle (Ne.symm hne)

/-! ## Any number of calls -/

/-- The worker and the sequence are in their ranges. -/
structure Fits (s : Snowflake) (w q : Nat) : Prop where
  worker_lt : w < 1024
  sequence_lt : q < 4096
  worker_eq : s.workerId_ = Int64.ofNat w
  sequence_eq : s.sequence_ = Int64.ofNat q

/-- An id of worker `w`, issued for its reading. -/
structure IdOf (w : Nat) (r : Issued) (q : Nat) : Prop where
  sequence_lt : q < 4096
  id_eq : r.id = layout r.timestamp (Int64.ofNat w) (Int64.ofNat q)

/-- A later reading, or the same reading and a later sequence. -/
def Later (t : Int64) (q : Nat) (t' : Int64) (q' : Nat) : Prop :=
  t < t' ∨ t' = t ∧ q < q'

/-- Later than what is later. -/
theorem Later.trans {t t' t'' : Int64} {q q' q'' : Nat} (h : Later t q t' q')
    (h' : Later t' q' t'' q'') : Later t q t'' q'' := by
  obtain hlt | ⟨rfl, hq⟩ := h
  · obtain hlt' | ⟨rfl, -⟩ := h'
    · exact .inl (Int64.lt_trans hlt hlt')
    · exact .inl hlt
  · obtain hlt' | ⟨rfl, hq'⟩ := h'
    · exact .inl hlt'
    · exact .inr ⟨rfl, by omega⟩

/-- One call keeps the ranges, and its id comes after the last one. -/
theorem Fits.nextIdImp {s s' : Snowflake} {w q : Nat} {clock rest : List Int64} {r : Issued}
    (hfits : s.Fits w q) (h : s.nextIdImp clock = some ((r, s'), rest)) :
    ∃ q', s'.Fits w q' ∧ s'.lastTimestamp_ = r.timestamp ∧ IdOf w r q' ∧
      Later s.lastTimestamp_ q r.timestamp q' := by
  obtain ⟨hworker, hlast, hid, hseq⟩ := nextIdImp_spec h
  rw [hfits.worker_eq] at hworker hid
  obtain ⟨hlater, hzero⟩ | ⟨heq, hnext, hne⟩ := hseq
  · have hofNat : s'.sequence_ = Int64.ofNat 0 := hzero
    rw [hofNat] at hid
    exact ⟨0, ⟨hfits.worker_lt, by omega, hworker, hofNat⟩, hlast, ⟨by omega, hid⟩, .inl hlater⟩
  · rw [hfits.sequence_eq, next_sequence hfits.sequence_lt] at hnext
    have hlt : q + 1 < 4096 := by
      -- the sequence has not wrapped
      by_contra hwrap
      have hq : (q + 1) % 4096 = 0 := by
        have := hfits.sequence_lt
        omega
      rw [hq] at hnext
      exact hne hnext
    rw [Nat.mod_eq_of_lt hlt] at hnext
    rw [hnext] at hid
    exact ⟨q + 1, ⟨hfits.worker_lt, hlt, hworker, hnext⟩, hlast, ⟨hlt, hid⟩,
      .inr ⟨heq, by omega⟩⟩

/-- Ids of a worker, the first after a reading and a sequence, and each after the one
before it. -/
inductive Ids (w : Nat) : Int64 → Nat → List Issued → Prop
  | nil {t : Int64} {q : Nat} : Ids w t q []
  | cons {t : Int64} {q q' : Nat} {r : Issued} {out : List Issued} :
    IdOf w r q' → Later t q r.timestamp q' → Ids w r.timestamp q' out → Ids w t q (r :: out)

/-- The ids of any number of calls, each later than the one before. -/
theorem nextIds_spec (n : Nat) {s : Snowflake} {w q : Nat} {clock : List Int64}
    {out : List Issued} (hfits : s.Fits w q) (h : nextIds n s clock = some out) :
    Ids w s.lastTimestamp_ q out := by
  induction n generalizing s q clock out with
  | zero =>
    obtain rfl := Option.some.inj h
    exact .nil
  | succ n ih =>
    simp only [nextIds, Option.bind_eq_bind, Option.bind_eq_some_iff] at h
    obtain ⟨⟨⟨r, s'⟩, rest⟩, hcall, out', hrest, hout⟩ := h
    obtain rfl := Option.some.inj hout
    obtain ⟨q', hfits', hlast, hid, hlater⟩ := hfits.nextIdImp hcall
    have hids := ih hfits' hrest
    rw [hlast] at hids
    exact .cons hid hlater hids

/-- All the ids are later than the start. -/
theorem Ids.later {w q : Nat} {t : Int64} {out : List Issued} (h : Ids w t q out) :
    ∀ r ∈ out, ∃ q', IdOf w r q' ∧ Later t q r.timestamp q' := by
  induction h with
  | nil =>
    intro r hr
    cases hr
  | cons hid hlater hids ih =>
    intro r' hr'
    obtain rfl | hr' := List.mem_cons.mp hr'
    · exact ⟨_, hid, hlater⟩
    · obtain ⟨q'', hid', hlater'⟩ := ih r' hr'
      exact ⟨q'', hid', hlater.trans hlater'⟩

/-- An id as an integer. -/
theorem IdOf.toInt_eq {w q : Nat} {r : Issued} (h : IdOf w r q) (hw : w < 1024)
    (hr : Usable r.timestamp) : r.id.toInt = millis r.timestamp * 4194304 + w * 4096 + q := by
  rw [h.id_eq, layout_toInt hr hw h.sequence_lt]

/-- A later id is greater. -/
theorem IdOf.lt {w q q' : Nat} {r r' : Issued} (h : IdOf w r q) (h' : IdOf w r' q')
    (hw : w < 1024) (hr : Usable r.timestamp) (hr' : Usable r'.timestamp)
    (hlater : Later r.timestamp q r'.timestamp q') : r.id < r'.id := by
  have hq := h.sequence_lt
  apply Int64.lt_iff_toInt_lt.mpr
  rw [h.toInt_eq hw hr, h'.toInt_eq hw hr']
  obtain hlt | ⟨heq, hlt⟩ := hlater
  · have hmillis : millis r.timestamp < millis r'.timestamp := by
      have hint := Int64.lt_iff_toInt_lt.mp hlt
      rw [hr.toInt_eq, hr'.toInt_eq] at hint
      omega
    omega
  · rw [heq]
    omega

/-- The ids of a worker increase. -/
theorem Ids.increasing {w q : Nat} {t : Int64} {out : List Issued} (h : Ids w t q out)
    (hw : w < 1024) (husable : ∀ r ∈ out, Usable r.timestamp) :
    out.Pairwise fun r r' => r.id < r'.id := by
  induction h with
  | nil => exact .nil
  | cons hid hlater hids ih =>
    have hhead := husable _ List.mem_cons_self
    have htail := fun r hr => husable r (List.mem_cons_of_mem _ hr)
    apply List.pairwise_cons.mpr
    refine ⟨fun r' hr' => ?_, ih htail⟩
    obtain ⟨q'', hid', hlater'⟩ := hids.later r' hr'
    exact hid.lt hid' hw hhead (htail r' hr') hlater'

/-- Ids of two workers differ, whatever their readings are. -/
theorem IdOf.ne {w w' q q' : Nat} {r r' : Issued} (h : IdOf w r q) (h' : IdOf w' r' q')
    (hw : w < 1024) (hw' : w' < 1024) (hr : Usable r.timestamp) (hr' : Usable r'.timestamp)
    (hne : w ≠ w') : r.id ≠ r'.id := by
  intro heq
  have hq := h.sequence_lt
  have hq' := h'.sequence_lt
  have hint := h.toInt_eq hw hr
  rw [heq, h'.toInt_eq hw' hr'] at hint
  omega

/-- A worker in the range of the constructor. -/
theorem new_fits {workerId : Int64} (hworker : 0 ≤ workerId ∧ workerId ≤ MAX_WORKER_ID) :
    (new workerId).Fits workerId.toInt.toNat 0 := by
  obtain ⟨hlow, hhigh⟩ := hworker
  have hlow' : 0 ≤ workerId.toInt := Int64.le_iff_toInt_le.mp hlow
  have hhigh' : workerId.toInt ≤ 1023 := Int64.le_iff_toInt_le.mp hhigh
  refine ⟨by omega, by omega, ?_, rfl⟩
  apply Int64.toInt_inj.mp
  rw [Int64.toInt_ofNat_of_lt (by omega)]
  show workerId.toInt = _
  omega

/-- The ids of one worker are not negative, increase and have their readings back, and no
other worker has any of them. -/
theorem ids_unique (n n' : Nat) {workerId workerId' : Int64}
    (hworker : 0 ≤ workerId ∧ workerId ≤ MAX_WORKER_ID)
    (hworker' : 0 ≤ workerId' ∧ workerId' ≤ MAX_WORKER_ID)
    {clock clock' : List Int64} {out out' : List Issued}
    (h : nextIds n (new workerId) clock = some out)
    (h' : nextIds n' (new workerId') clock' = some out')
    (husable : ∀ r ∈ out, Usable r.timestamp) (husable' : ∀ r ∈ out', Usable r.timestamp) :
    (∀ r ∈ out, 0 ≤ r.id ∧ getTimestamp r.id = r.timestamp) ∧
      (out.Pairwise fun r r' => r.id < r'.id) ∧
      (workerId ≠ workerId' → ∀ r ∈ out, ∀ r' ∈ out', r.id ≠ r'.id) := by
  have hfits := new_fits hworker
  have hfits' := new_fits hworker'
  have hids := nextIds_spec n hfits h
  have hids' := nextIds_spec n' hfits' h'
  refine ⟨fun r hr => ?_, hids.increasing hfits.worker_lt husable, fun hne r hr r' hr' => ?_⟩
  · obtain ⟨q, hid, -⟩ := hids.later r hr
    have hint := hid.toInt_eq hfits.worker_lt (husable r hr)
    constructor
    · apply Int64.le_iff_toInt_le.mpr
      show 0 ≤ r.id.toInt
      omega
    · rw [hid.id_eq, getTimestamp_layout (husable r hr) hfits.worker_lt hid.sequence_lt]
  · obtain ⟨q, hid, -⟩ := hids.later r hr
    obtain ⟨q', hid', -⟩ := hids'.later r' hr'
    have hwne : workerId.toInt.toNat ≠ workerId'.toInt.toNat := by
      intro heq
      -- both are the numbers of the workers
      have hofNat := hfits.worker_eq
      rw [heq, ← hfits'.worker_eq] at hofNat
      exact hne hofNat
    exact hid.ne hid' hfits.worker_lt hfits'.worker_lt (husable r hr) (husable' r' hr') hwne

/-- Three ids of worker 1, with a clock that repeats a reading and then jumps back, and one
id of worker 2. -/
theorem ids_unique_back :
    let out : List Issued := [⟨4096, EPOCH⟩, ⟨4097, EPOCH⟩, ⟨4198400, EPOCH + 1⟩]
    let out' : List Issued := [⟨8192, EPOCH⟩]
    (∀ r ∈ out, 0 ≤ r.id ∧ getTimestamp r.id = r.timestamp) ∧
      (out.Pairwise fun r r' => r.id < r'.id) ∧
      ((1 : Int64) ≠ 2 → ∀ r ∈ out, ∀ r' ∈ out', r.id ≠ r'.id) :=
  ids_unique 3 1 (by decide) (by decide)
    (show nextIds 3 (new 1) [EPOCH, EPOCH, EPOCH - 5, EPOCH + 1] = some _ by decide)
    (show nextIds 1 (new 2) [EPOCH] = some _ by decide) (by decide) (by decide)

end Snowflake

end Athena
