import Athena.Native.RingSpsc
import Athena.Spec.RingContents
import Athena.ForStd.Run

/-!
# What the two threads of a byte ring see

Write `C` for the number of bytes taken and `P` for the number published.  The cells hold
the published bytes from position `C` up to `P` (`Cyclic.Holds`), `head_` is `C` and
`tail_` is `P` modulo the number of cells, and `P` is never a lap ahead of `C`.

A thread computes with what it loaded.  Its own index cannot have moved since; the other
index can only have moved on, so that the producer's `writableBytes` and the consumer's
`readableBytes` are at most what is there (`ProducerOk`, `ConsumerOk`).

## Key results

- `step_inv`: every step of either thread preserves the invariant
- `spsc_safety`: in every run, what was taken and what was copied is what was published,
  and no copy of the producer meets a cell whose byte is published and not taken
-/

namespace Athena

open Cyclic

namespace RingByteBuf

/-- `readableBytes` is the distance of the positions that the two loads saw. -/
theorem distance_eq (r : RingByteBuf) {h t : UInt64} {c p : Nat}
    (hh : h.toNat = c % r.buf_.length) (ht : t.toNat = p % r.buf_.length) (hle : c ≤ p)
    (hlt : p < c + r.buf_.length) : r.distance h t = p - c := by
  rw [r.buf_length] at hh ht hlt
  exact r.toNat_sub_masked hh ht hle hlt

/-- `writableBytes` is what is left of the lap. -/
theorem room_eq (r : RingByteBuf) {h t : UInt64} {c p : Nat}
    (hh : h.toNat = c % r.buf_.length) (ht : t.toNat = p % r.buf_.length) (hle : c ≤ p)
    (hlt : p < c + r.buf_.length) : p + r.room h t + 1 = c + r.buf_.length := by
  have hcap := r.capacity_eq
  have hpos := r.cap_pos
  have hroom : r.room h t = r.capacity - r.distance h t := by
    rw [room, capacity]; split <;> simp
  have hlen := r.buf_length
  rw [hroom, r.distance_eq hh ht hle hlt, hcap]
  omega

end RingByteBuf

namespace RingSpsc

/-- `h` was loaded from `head_` when no more bytes were taken than now. -/
def SnapHead (r : RingByteBuf) (published taken : Nat) (h : UInt64) : Prop :=
  ∃ c, c ≤ taken ∧ published < c + r.buf_.length ∧ h.toNat = c % r.buf_.length

/-- What the producer knows at each step: that there is room, and which part of its bytes
    stands behind the published ones. -/
def ProducerOk (r : RingByteBuf) (published : List UInt8) (taken : Nat) : ProducerPc → Prop
  | .writeTail _ h => SnapHead r published.length taken h
  | .writeIndex src => published.length + src.length < taken + r.buf_.length
  | .writeFirst src t =>
    published.length + src.length < taken + r.buf_.length ∧ t = r.tail_
  | .writeSecond src t =>
    published.length + src.length < taken + r.buf_.length ∧ t = r.tail_ ∧
      r.buf_.length - t.toNat < src.length ∧
      Holds r.buf_ (published ++ src.take (r.buf_.length - t.toNat)) taken
        (published.length + (r.buf_.length - t.toNat))
  | .writeStore src t =>
    published.length + src.length < taken + r.buf_.length ∧ t = r.tail_ ∧
      Holds r.buf_ (published ++ src) taken (published.length + src.length)
  | .ptrTail h => SnapHead r published.length taken h
  | .ptrIndex writable => published.length + writable < taken + r.buf_.length
  | .filling base len =>
    published.length + len < taken + r.buf_.length ∧ base = r.tail_.toNat ∧
      base + len ≤ r.buf_.length
  | .advanceTail _ h => SnapHead r published.length taken h
  | .advanceIndex n => published.length + n < taken + r.buf_.length
  | .advanceStore n t => published.length + n < taken + r.buf_.length ∧ t = r.tail_
  | _ => True

/-- What the consumer knows at each step: that the bytes are there, and which of them it
    has copied. -/
def ConsumerOk (r : RingByteBuf) (published : List UInt8) (taken : Nat) : ConsumerPc → Prop
  | .readTail _ _ h => h = r.head_
  | .readIndex _ toread => taken + toread ≤ published.length
  | .readFirst _ toread h => taken + toread ≤ published.length ∧ h = r.head_
  | .readSecond _ toread h dst =>
    taken + toread ≤ published.length ∧ h = r.head_ ∧ r.buf_.length - h.toNat < toread ∧
      dst = (published.drop taken).take (r.buf_.length - h.toNat)
  | .readStore toread h dst =>
    taken + toread ≤ published.length ∧ h = r.head_ ∧ dst = (published.drop taken).take toread
  | .ptrTail h => h = r.head_
  | .ptrIndex avail => taken + avail ≤ published.length
  | .looking base len =>
    taken + len ≤ published.length ∧ base = r.head_.toNat ∧ base + len ≤ r.buf_.length
  | .advanceTail _ h => h = r.head_
  | .advanceIndex n => taken + n ≤ published.length
  | .advanceStore n h => taken + n ≤ published.length ∧ h = r.head_
  | _ => True

/-! ## What a thread knows survives the other thread's steps -/

/-- A snapshot stays one while the consumer goes on. -/
theorem SnapHead.mono {r r' : RingByteBuf} {published taken taken' : Nat} {h : UInt64}
    (hs : SnapHead r published taken h) (hlen : r'.buf_.length = r.buf_.length)
    (hle : taken ≤ taken') : SnapHead r' published taken' h := by
  obtain ⟨c, hc, hlap, hh⟩ := hs
  rw [← hlen] at hlap hh
  exact ⟨c, Nat.le_trans hc hle, hlap, hh⟩

/-- The consumer only takes more: it writes no cell and leaves `tail_`. -/
theorem ProducerOk.mono {r r' : RingByteBuf} {published : List UInt8} {taken taken' : Nat}
    {pc : ProducerPc} (h : ProducerOk r published taken pc) (hbuf : r'.buf_ = r.buf_)
    (htail : r'.tail_ = r.tail_) (hle : taken ≤ taken') : ProducerOk r' published taken' pc := by
  have hlen : r'.buf_.length = r.buf_.length := by rw [hbuf]
  cases pc with
  | idle | writeHead | ptrHead | advanceHead => trivial
  | writeTail | ptrTail | advanceTail => exact SnapHead.mono h hlen hle
  | writeIndex | ptrIndex | advanceIndex | filling =>
    simp only [ProducerOk, hlen, htail] at h ⊢
    omega
  | writeFirst src t | advanceStore n t =>
    simp only [ProducerOk, hlen, htail] at h ⊢
    exact ⟨by omega, h.2⟩
  | writeSecond src t =>
    simp only [ProducerOk, hbuf, htail] at h ⊢
    exact ⟨by omega, h.2.1, h.2.2.1, h.2.2.2.mono hle (Nat.le_refl _)⟩
  | writeStore src t =>
    simp only [ProducerOk, hbuf, htail] at h ⊢
    exact ⟨by omega, h.2.1, h.2.2.mono hle (Nat.le_refl _)⟩

/-- The producer only publishes more, and leaves `head_`. -/
theorem ConsumerOk.mono {r r' : RingByteBuf} {published : List UInt8} {taken : Nat}
    {pc : ConsumerPc} (h : ConsumerOk r published taken pc)
    (hlen : r'.buf_.length = r.buf_.length) (hhead : r'.head_ = r.head_) (more : List UInt8) :
    ConsumerOk r' (published ++ more) taken pc := by
  -- what is not taken yet stays in front of what is published
  have happ : ∀ n, taken + n ≤ published.length →
      ((published ++ more).drop taken).take n = (published.drop taken).take n := by
    intro n hn
    rw [List.drop_append_of_le_length (by omega), List.take_append_of_le_length]
    rw [List.length_drop]; omega
  cases pc with
  | idle | readHead | ptrHead | advanceHead => trivial
  | readTail | ptrTail | advanceTail =>
    simp only [ConsumerOk, hhead] at h ⊢
    exact h
  -- places where the consumer has looked at the tail
  | readIndex | ptrIndex | advanceIndex | looking =>
    simp only [ConsumerOk, List.length_append, hlen, hhead] at h ⊢
    omega
  | readFirst keep toread h' | advanceStore n h' =>
    simp only [ConsumerOk, List.length_append, hhead] at h ⊢
    exact ⟨by omega, h.2⟩
  -- places with a copy of bytes, which the new ones do not change
  | readSecond keep toread h' dst =>
    simp only [ConsumerOk, List.length_append, hlen, hhead] at h ⊢
    refine ⟨by omega, h.2.1, h.2.2.1, ?_⟩
    rw [happ _ (by omega)]
    exact h.2.2.2
  | readStore toread h' dst =>
    simp only [ConsumerOk, List.length_append, hhead] at h ⊢
    refine ⟨by omega, h.2.1, ?_⟩
    rw [happ _ h.1]
    exact h.2.2

/-! ## The invariant and the moves that keep it -/

/-- The ring between any two steps of its two threads. -/
structure Inv (s : RingSpsc) : Prop where
  head : s.ring.head_.toNat = s.taken.length % s.ring.buf_.length
  tail : s.ring.tail_.toNat = s.published.length % s.ring.buf_.length
  taken : s.taken <+: s.published
  lap : s.published.length < s.taken.length + s.ring.buf_.length
  holds : Holds s.ring.buf_ s.published s.taken.length s.published.length
  copied : ∀ x ∈ s.copied, x.2 <+: s.published.drop x.1
  producer : ProducerOk s.ring s.published s.taken.length s.producer
  consumer : ConsumerOk s.ring s.published s.taken.length s.consumer

variable {s s' : RingSpsc}

/-- No more is taken than was published. -/
theorem Inv.length_le (h : Inv s) : s.taken.length ≤ s.published.length :=
  h.taken.length_le

/-- The ring has cells. -/
theorem Inv.length_pos (h : Inv s) : 0 < s.ring.buf_.length := by
  have := h.lap
  have := h.length_le
  omega

/-- It holds of a new ring. -/
theorem inv_init {malloc : Malloc} {capacity : UInt64} {r : RingByteBuf}
    (h : RingByteBuf.new malloc capacity = some r) : Inv (init r) where
  head := by rw [init, (RingByteBuf.new_indices h).1]; exact (Nat.zero_mod _).symm
  tail := by rw [init, (RingByteBuf.new_indices h).2]; exact (Nat.zero_mod _).symm
  taken := List.prefix_refl _
  lap := by
    show 0 < 0 + r.buf_.length
    rw [r.buf_length]
    have := r.cap_pos
    omega
  holds _ _ hk := absurd hk (Nat.not_lt_zero _)
  copied _ hx := nomatch hx
  producer := trivial
  consumer := trivial

/-- The producer goes on to its next step. -/
theorem Inv.setProducer (h : Inv s) {pc : ProducerPc}
    (hpc : ProducerOk s.ring s.published s.taken.length pc) : Inv { s with producer := pc } where
  head := h.head
  tail := h.tail
  taken := h.taken
  lap := h.lap
  holds := h.holds
  copied := h.copied
  producer := hpc
  consumer := h.consumer

/-- The consumer goes on to its next step. -/
theorem Inv.setConsumer (h : Inv s) {pc : ConsumerPc}
    (hpc : ConsumerOk s.ring s.published s.taken.length pc) : Inv { s with consumer := pc } where
  head := h.head
  tail := h.tail
  taken := h.taken
  lap := h.lap
  holds := h.holds
  copied := h.copied
  producer := h.producer
  consumer := hpc

/-- The producer copies into the cells from position `a` on. -/
theorem Inv.memcpy (h : Inv s) {off a : Nat} {src : List UInt8} {pc : ProducerPc}
    (hoff : off = a % s.ring.buf_.length) (ha : s.published.length ≤ a)
    (hroom : a + src.length ≤ s.taken.length + s.ring.buf_.length)
    (hfit : off + src.length ≤ s.ring.buf_.length)
    (hpc : ProducerOk (s.ring.memcpy off src) s.published s.taken.length pc) :
    Inv { s with ring := s.ring.memcpy off src, producer := pc } where
  head := by simpa using h.head
  tail := by simpa using h.tail
  taken := h.taken
  lap := by simpa using h.lap
  holds := by
    show Holds (s.ring.memcpy off src).buf_ _ _ _
    rw [(RingByteBuf.memcpy_eq hfit).1]
    subst hoff
    exact h.holds.overwrite_free hfit ha hroom
  copied := h.copied
  producer := hpc
  consumer := by
    have hmono : ConsumerOk (s.ring.memcpy off src) (s.published ++ []) _ _ :=
      h.consumer.mono (by simp) (by simp) []
    rwa [List.append_nil] at hmono

/-- The producer stores `tail_`: the bytes behind the published ones are published. -/
theorem Inv.publish (h : Inv s) {src : List UInt8} {n : Nat} (hn : src.length = n)
    (hroom : s.published.length + n < s.taken.length + s.ring.buf_.length)
    (hheld : Holds s.ring.buf_ (s.published ++ src) s.taken.length (s.published.length + n)) :
    Inv { s with
      ring := s.ring.setTail (s.ring.tail_ + UInt64.ofNat n)
      producer := .idle
      published := s.published ++ src } where
  head := h.head
  tail := by
    have hle := h.length_le
    have hlen := s.ring.buf_length
    -- the tail moves by what was written, modulo the length
    show ((s.ring.tail_ + UInt64.ofNat n) &&& s.ring.mask_).toNat = _ % s.ring.buf_.length
    rw [s.ring.toNat_advance s.ring.tail_ (by omega), h.tail, hlen, Nat.mod_add_mod,
      List.length_append, hn]
  taken := h.taken.trans (List.prefix_append _ _)
  lap := by
    show (s.published ++ src).length < _
    rw [List.length_append, hn]
    exact hroom
  holds := by
    show Holds s.ring.buf_ _ _ (s.published ++ src).length
    rw [List.length_append, hn]
    exact hheld
  copied x hx := by
    have hpre := h.copied x hx
    show x.2 <+: (s.published ++ src).drop x.1
    rw [List.drop_append]
    exact hpre.trans (List.prefix_append _ _)
  producer := trivial
  consumer := h.consumer.mono rfl rfl src

/-- The consumer stores `head_`: the next `n` bytes are taken. -/
theorem Inv.release (h : Inv s) {dst : List UInt8} {n : Nat}
    (hn : s.taken.length + n ≤ s.published.length)
    (hdst : dst = (s.published.drop s.taken.length).take n) :
    Inv { s with
      ring := s.ring.setHead (s.ring.head_ + UInt64.ofNat n)
      consumer := .idle
      taken := s.taken ++ dst } := by
  have hlen : (s.taken ++ dst).length = s.taken.length + n := by
    rw [hdst, List.length_append, List.length_take, List.length_drop]; omega
  have hcells := s.ring.buf_length
  have hlap := h.lap
  exact
    { head := by
        show ((s.ring.head_ + UInt64.ofNat n) &&& s.ring.mask_).toNat = _ % s.ring.buf_.length
        rw [s.ring.toNat_advance s.ring.head_ (by omega), h.head, hcells, Nat.mod_add_mod, hlen]
      tail := h.tail
      taken := by
        -- what was taken is the front of what was published
        have hfront := List.prefix_iff_eq_take.mp h.taken
        show s.taken ++ dst <+: s.published
        rw [hdst]
        nth_rewrite 1 [hfront]
        rw [← List.take_add]
        exact List.take_prefix _ _
      lap := by
        show s.published.length < (s.taken ++ dst).length + s.ring.buf_.length
        omega
      holds := by
        show Holds s.ring.buf_ s.published (s.taken ++ dst).length _
        exact h.holds.mono (by omega) (Nat.le_refl _)
      copied := h.copied
      producer := h.producer.mono rfl rfl (by rw [hlen]; omega)
      consumer := trivial }

/-- The consumer's copies are done. -/
theorem Inv.copy (h : Inv s) {x : Nat × List UInt8} {pc : ConsumerPc}
    (hx : x.2 <+: s.published.drop x.1)
    (hpc : ConsumerOk s.ring s.published s.taken.length pc) :
    Inv { s with consumer := pc, copied := s.copied ++ [x] } where
  head := h.head
  tail := h.tail
  taken := h.taken
  lap := h.lap
  holds := h.holds
  copied y hy := by
    cases List.mem_append.mp hy with
    | inl hold => exact h.copied y hold
    | inr hnew => exact List.mem_singleton.mp hnew ▸ hx
  producer := h.producer
  consumer := hpc

/-! ## The steps of the producer -/

/-- A value of `head_` loaded now. -/
theorem Inv.snapHead (h : Inv s) :
    SnapHead s.ring s.published.length s.taken.length s.ring.head_ :=
  ⟨s.taken.length, Nat.le_refl _, h.lap, h.head⟩

/-- What `writableBytes` computes from an old `head_` is at most the room there is. -/
theorem Inv.room_lt (h : Inv s) {i : UInt64}
    (hi : SnapHead s.ring s.published.length s.taken.length i) :
    s.published.length + s.ring.room i s.ring.tail_ < s.taken.length + s.ring.buf_.length := by
  obtain ⟨c, hc, hlap, hci⟩ := hi
  have hle := h.length_le
  have := s.ring.room_eq hci h.tail (by omega) hlap
  omega

/-- The write index is in the vector. -/
theorem Inv.tail_lt (h : Inv s) : s.ring.tail_.toNat < s.ring.buf_.length := by
  rw [h.tail]; exact Nat.mod_lt _ h.length_pos

/-- The position behind a copy up to the end of the cells is in the first cell. -/
theorem Inv.lap_start (h : Inv s) {first : Nat}
    (hfirst : first = s.ring.buf_.length - s.ring.tail_.toNat) :
    (s.published.length + first) % s.ring.buf_.length = 0 := by
  have htail := h.tail_lt
  rw [Nat.add_mod, ← h.tail, Nat.add_mod_mod, show s.ring.tail_.toNat + first =
    s.ring.buf_.length by omega, Nat.mod_self]

/-- The first `memcpy` of `tryWrite`, up to the end of the cells. -/
theorem Inv.writeFirst (h : Inv s) {src : List UInt8} {first : Nat}
    (hroom : s.published.length + src.length < s.taken.length + s.ring.buf_.length)
    (hfirst : first = min src.length (s.ring.buf_.length - s.ring.tail_.toNat)) :
    Inv { s with
      ring := s.ring.memcpy s.ring.tail_.toNat (src.take first)
      producer := if src.length > first then .writeSecond src s.ring.tail_
        else .writeStore src s.ring.tail_ } := by
  have htail := h.tail_lt
  have hlen : (src.take first).length = first := by rw [List.length_take]; omega
  have hfit : s.ring.tail_.toNat + (src.take first).length ≤ s.ring.buf_.length := by omega
  -- the copied bytes stand behind the published ones
  have hheld : Holds (s.ring.memcpy s.ring.tail_.toNat (src.take first)).buf_
      (s.published ++ src.take first) s.taken.length (s.published.length + first) := by
    have happ := h.holds.overwrite (src.take first) (by rw [← h.tail]; exact hfit)
      (by omega)
    rw [(RingByteBuf.memcpy_eq hfit).1, h.tail]
    rwa [hlen] at happ
  apply h.memcpy h.tail (Nat.le_refl _) (by omega) hfit
  split
  · have hf : first = s.ring.buf_.length - s.ring.tail_.toNat := by omega
    simp only [ProducerOk, RingByteBuf.length_buf_memcpy, RingByteBuf.tail_memcpy]
    rw [hf] at hheld ⊢
    exact ⟨hroom, trivial, by omega, hheld⟩
  · -- everything was copied
    rw [List.take_of_length_le (by omega), show first = src.length by omega] at hheld
    simp only [ProducerOk, RingByteBuf.length_buf_memcpy, RingByteBuf.tail_memcpy]
    rw [List.take_of_length_le (by omega)]
    exact ⟨hroom, trivial, hheld⟩

/-- The second `memcpy` of `tryWrite`, from the first cell on. -/
theorem Inv.writeSecond (h : Inv s) {src : List UInt8} {first : Nat}
    (hroom : s.published.length + src.length < s.taken.length + s.ring.buf_.length)
    (hfirst : first = s.ring.buf_.length - s.ring.tail_.toNat) (hlt : first < src.length)
    (hheld : Holds s.ring.buf_ (s.published ++ src.take first) s.taken.length
      (s.published.length + first)) :
    Inv { s with
      ring := s.ring.memcpy 0 (src.drop first)
      producer := .writeStore src s.ring.tail_ } := by
  have htail := h.tail_lt
  have hle := h.length_le
  have hlen : (src.drop first).length = src.length - first := List.length_drop
  have hfit : 0 + (src.drop first).length ≤ s.ring.buf_.length := by omega
  have hlap := h.lap_start hfirst
  apply h.memcpy hlap.symm (by omega) (by omega) hfit
  simp only [ProducerOk, RingByteBuf.length_buf_memcpy, RingByteBuf.tail_memcpy]
  refine ⟨hroom, trivial, ?_⟩
  have hpos : (s.published ++ src.take first).length = s.published.length + first := by
    rw [List.length_append, List.length_take]; omega
  rw [← hpos] at hheld hlap
  have happ := hheld.overwrite (src.drop first) (by rw [hlap]; exact hfit) (by omega)
  rw [hlap, List.append_assoc, List.take_append_drop] at happ
  rw [(RingByteBuf.memcpy_eq hfit).1]
  exact happ.mono (Nat.le_refl _) (by omega)

/-- Every step of the producer inside a call preserves the invariant. -/
theorem produce_inv (hi : Inv s) (h : s.produce = some s') : Inv s' := by
  have hp := hi.producer
  have hcap := s.ring.toNat_cap_sub s.ring.tail_lt
  cases hpc : s.producer with
  | idle => simp [produce, hpc] at h
  | filling base len => simp [produce, hpc] at h
  | writeHead src =>
    simp only [produce, hpc, Option.some.injEq] at h
    exact h ▸ hi.setProducer hi.snapHead
  | ptrHead =>
    simp only [produce, hpc, Option.some.injEq] at h
    exact h ▸ hi.setProducer hi.snapHead
  | advanceHead n =>
    simp only [produce, hpc, Option.some.injEq] at h
    exact h ▸ hi.setProducer hi.snapHead
  | writeTail src i =>
    rw [hpc] at hp
    have hroom := hi.room_lt hp
    simp only [produce, hpc] at h
    split at h
    · -- `tryWrite` returns `false`
      exact Option.some.inj h ▸ hi.setProducer trivial
    · obtain rfl := Option.some.inj h
      apply hi.setProducer
      show s.published.length + src.length < _
      omega
  | ptrTail i =>
    rw [hpc] at hp
    simp only [produce, hpc] at h
    split at h
    · exact Option.some.inj h ▸ hi.setProducer trivial
    · exact Option.some.inj h ▸ hi.setProducer (hi.room_lt hp)
  | advanceTail n i =>
    rw [hpc] at hp
    have hroom := hi.room_lt hp
    simp only [produce, hpc] at h
    split at h
    · exact Option.some.inj h ▸ hi.setProducer trivial
    · obtain rfl := Option.some.inj h
      apply hi.setProducer
      show s.published.length + n < _
      omega
  | writeIndex src =>
    rw [hpc] at hp
    simp only [produce, hpc, Option.some.injEq] at h
    exact h ▸ hi.setProducer ⟨hp, rfl⟩
  | ptrIndex writable =>
    rw [hpc] at hp
    have htail := hi.tail_lt
    simp only [produce, hpc, Option.some.injEq, hcap] at h
    subst h
    apply hi.setProducer
    have hmin : min writable (s.ring.buf_.length - s.ring.tail_.toNat) ≤ writable :=
      Nat.min_le_left _ _
    have hroom : s.published.length + writable < s.taken.length + s.ring.buf_.length := hp
    exact ⟨by omega, rfl, by omega⟩
  | advanceIndex n =>
    rw [hpc] at hp
    simp only [produce, hpc, Option.some.injEq] at h
    exact h ▸ hi.setProducer ⟨hp, rfl⟩
  | writeFirst src t =>
    rw [hpc] at hp
    obtain ⟨hroom, rfl⟩ := hp
    simp only [produce, hpc, Option.some.injEq, hcap] at h
    exact h ▸ hi.writeFirst hroom rfl
  | writeSecond src t =>
    rw [hpc] at hp
    obtain ⟨hroom, rfl, hlt, hheld⟩ := hp
    simp only [produce, hpc, Option.some.injEq, hcap, Nat.min_eq_right (Nat.le_of_lt hlt)] at h
    exact h ▸ hi.writeSecond hroom rfl hlt hheld
  | writeStore src t =>
    rw [hpc] at hp
    obtain ⟨hroom, rfl, hheld⟩ := hp
    simp only [produce, hpc, Option.some.injEq] at h
    exact h ▸ hi.publish rfl hroom hheld
  | advanceStore n t =>
    rw [hpc] at hp
    obtain ⟨hroom, rfl⟩ := hp
    have hle := hi.length_le
    simp only [produce, hpc, Option.some.injEq] at h
    have hheld := hi.holds.append_window hi.length_pos (n := n) (by omega)
    rw [← hi.tail] at hheld
    exact h ▸ hi.publish (length_window (by omega)) hroom hheld

/-! ## The steps of the consumer -/

/-- What `readableBytes` computes is the number of bytes published and not taken. -/
theorem Inv.distance_eq (h : Inv s) : s.taken.length +
    s.ring.distance s.ring.head_ s.ring.tail_ = s.published.length := by
  have hle := h.length_le
  rw [s.ring.distance_eq h.head h.tail hle h.lap]
  omega

/-- The read index is in the vector. -/
theorem Inv.head_lt (h : Inv s) : s.ring.head_.toNat < s.ring.buf_.length := by
  rw [h.head]; exact Nat.mod_lt _ h.length_pos

/-- A straight copy from the read index on gives the next bytes. -/
theorem Inv.slice_head (h : Inv s) {n : Nat} (hn : s.taken.length + n ≤ s.published.length)
    (hfit : s.ring.head_.toNat + n ≤ s.ring.buf_.length) :
    slice s.ring.buf_ s.ring.head_.toNat n = (s.published.drop s.taken.length).take n := by
  rw [h.head] at hfit ⊢
  exact h.holds.slice h.length_pos hfit hn

/-- The cells from the read index on hold what was published and not taken. -/
theorem Inv.window_head (h : Inv s) {n : Nat} (hn : s.taken.length + n ≤ s.published.length) :
    window s.ring.buf_ s.ring.head_.toNat n = (s.published.drop s.taken.length).take n := by
  have hlap := h.lap
  rw [h.head]
  exact h.holds.window h.length_pos (by omega) hn

/-- The copies of `read` and `peek` gave the next `toread` bytes. -/
theorem Inv.copyDone (h : Inv s) {keep : Bool} {toread : Nat} {dst : List UInt8}
    (hn : s.taken.length + toread ≤ s.published.length)
    (hdst : dst = (s.published.drop s.taken.length).take toread) :
    Inv (s.copyDone keep toread s.ring.head_ dst) := by
  rw [RingSpsc.copyDone]
  split
  · -- `peek`
    have hidle : ConsumerOk s.ring s.published s.taken.length .idle := trivial
    refine h.copy (x := (s.taken.length, dst)) ?_ hidle
    rw [hdst]
    exact List.take_prefix _ _
  · exact h.setConsumer ⟨hn, rfl, hdst⟩

/-- Every step of the consumer inside a call preserves the invariant. -/
theorem consume_inv (hi : Inv s) (h : s.consume = some s') : Inv s' := by
  have hp := hi.consumer
  have hcap := s.ring.toNat_cap_sub s.ring.head_lt
  have hdist := hi.distance_eq
  have hhead := hi.head_lt
  have hlap := hi.lap
  cases hpc : s.consumer with
  | idle => simp [consume, hpc] at h
  | looking base len => simp [consume, hpc] at h
  | readHead keep len =>
    simp only [consume, hpc, Option.some.injEq] at h
    exact h ▸ hi.setConsumer rfl
  | ptrHead =>
    simp only [consume, hpc, Option.some.injEq] at h
    exact h ▸ hi.setConsumer rfl
  | advanceHead n =>
    simp only [consume, hpc, Option.some.injEq] at h
    exact h ▸ hi.setConsumer rfl
  | readTail keep len i =>
    rw [hpc] at hp
    obtain rfl := hp
    simp only [consume, hpc] at h
    split at h
    · -- nothing to read
      exact Option.some.inj h ▸ hi.setConsumer trivial
    · obtain rfl := Option.some.inj h
      apply hi.setConsumer
      show s.taken.length + min len _ ≤ _
      omega
  | ptrTail i =>
    rw [hpc] at hp
    obtain rfl := hp
    simp only [consume, hpc] at h
    split at h
    · exact Option.some.inj h ▸ hi.setConsumer trivial
    · exact Option.some.inj h ▸ hi.setConsumer (Nat.le_of_eq hdist)
  | advanceTail n i =>
    rw [hpc] at hp
    obtain rfl := hp
    simp only [consume, hpc] at h
    split at h
    · exact Option.some.inj h ▸ hi.setConsumer trivial
    · obtain rfl := Option.some.inj h
      apply hi.setConsumer
      show s.taken.length + n ≤ _
      omega
  | readIndex keep toread =>
    rw [hpc] at hp
    simp only [consume, hpc, Option.some.injEq] at h
    exact h ▸ hi.setConsumer ⟨hp, rfl⟩
  | ptrIndex avail =>
    rw [hpc] at hp
    simp only [consume, hpc, Option.some.injEq, hcap] at h
    subst h
    apply hi.setConsumer
    have hmin : min avail (s.ring.buf_.length - s.ring.head_.toNat) ≤ avail :=
      Nat.min_le_left _ _
    have havail : s.taken.length + avail ≤ s.published.length := hp
    exact ⟨by omega, rfl, by omega⟩
  | advanceIndex n =>
    rw [hpc] at hp
    simp only [consume, hpc, Option.some.injEq] at h
    exact h ▸ hi.setConsumer ⟨hp, rfl⟩
  | readFirst keep toread i =>
    rw [hpc] at hp
    obtain ⟨hn, rfl⟩ := hp
    simp only [consume, hpc, hcap] at h
    split at h
    · -- the bytes go on at the first cell
      rename_i hgt
      rw [Nat.min_eq_right (by omega)] at h
      obtain rfl := Option.some.inj h
      apply hi.setConsumer
      exact ⟨hn, rfl, by omega, hi.slice_head (by omega) (by omega)⟩
    · rw [Nat.min_eq_left (by omega)] at h
      exact Option.some.inj h ▸ hi.copyDone hn (hi.slice_head hn (by omega))
  | readSecond keep toread i dst =>
    rw [hpc] at hp
    obtain ⟨hn, rfl, hlt, hdst⟩ := hp
    simp only [consume, hpc, Option.some.injEq, hcap, Nat.min_eq_right (Nat.le_of_lt hlt)] at h
    have htwo := window_eq_slices hhead (show toread ≤ s.ring.buf_.length by omega)
    rw [hi.window_head hn, Nat.min_eq_right (by omega),
      hi.slice_head (by omega) (by omega)] at htwo
    subst hdst
    exact h ▸ hi.copyDone hn htwo.symm
  | readStore toread i dst =>
    rw [hpc] at hp
    obtain ⟨hn, rfl, hdst⟩ := hp
    simp only [consume, hpc, Option.some.injEq] at h
    exact h ▸ hi.release hn hdst
  | advanceStore n i =>
    rw [hpc] at hp
    obtain ⟨hn, rfl⟩ := hp
    simp only [consume, hpc, Option.some.injEq] at h
    exact h ▸ hi.release hn (hi.window_head hn)

/-! ## Every step, every run -/

/-- The producer writes into its window. -/
theorem Inv.fill (h : Inv s) {base len off : Nat} {bytes : List UInt8}
    (hpc : s.producer = .filling base len) (hle : off + bytes.length ≤ len) :
    Inv { s with ring := s.ring.memcpy (base + off) bytes } := by
  have hp := h.producer
  rw [hpc] at hp
  obtain ⟨hroom, hbase, hfit⟩ := hp
  by_cases hnil : bytes = []
  · rw [hnil, RingByteBuf.memcpy_nil]; exact h
  · have hpos := List.length_pos_iff.mpr hnil
    -- the window does not pass the end of the cells
    have hmod : base + off = (s.published.length + off) % s.ring.buf_.length := by
      rw [Nat.add_mod, ← h.tail, ← hbase, Nat.add_mod_mod, Nat.mod_eq_of_lt (by omega)]
    have hok : ProducerOk (s.ring.memcpy (base + off) bytes) s.published s.taken.length
        s.producer := by
      rw [hpc]
      simp only [ProducerOk, RingByteBuf.length_buf_memcpy, RingByteBuf.tail_memcpy]
      exact ⟨hroom, hbase, hfit⟩
    exact h.memcpy hmod (by omega) (by omega) (by omega) hok

/-- The consumer copies out of its window. -/
theorem Inv.look (h : Inv s) {base len off n : Nat} (hpc : s.consumer = .looking base len)
    (hle : off + n ≤ len) :
    Inv { s with
      copied := s.copied ++ [(s.taken.length + off, slice s.ring.buf_ (base + off) n)] } := by
  have hp := h.consumer
  rw [hpc] at hp
  obtain ⟨hn, rfl, hfit⟩ := hp
  apply h.copy (x := (s.taken.length + off, slice s.ring.buf_ (s.ring.head_.toNat + off) n)) _
    h.consumer
  -- the copy is a part of the window
  have hsl := h.slice_head hn hfit
  have hpart : slice s.ring.buf_ (s.ring.head_.toNat + off) n =
      ((slice s.ring.buf_ s.ring.head_.toNat len).drop off).take n := by
    simp only [slice, List.drop_take, List.drop_drop, List.take_take]
    rw [Nat.min_eq_left (by omega)]
  show slice s.ring.buf_ (s.ring.head_.toNat + off) n <+:
    s.published.drop (s.taken.length + off)
  rw [hpart, hsl, List.drop_take, List.drop_drop, List.take_take]
  exact List.take_prefix _ _

/-- Every step of either thread preserves the invariant. -/
theorem step_inv (s : RingSpsc) (a : SpscAct) (s' : RingSpsc) (hi : Inv s)
    (h : step s a = some s') : Inv s' := by
  -- a call enters its first place, the threads step on
  cases a with
  | tryWrite src =>
    simp only [step] at h
    split at h
    · obtain rfl := Option.some.inj h
      apply hi.setProducer
      split <;> trivial
    · simp at h
  | advanceWriteIndex n =>
    simp only [step] at h
    split at h
    · obtain rfl := Option.some.inj h
      apply hi.setProducer
      split <;> trivial
    · simp at h
  | linearWritablePtr =>
    simp only [step] at h
    split at h
    · exact Option.some.inj h ▸ hi.setProducer trivial
    · simp at h
  | fill off bytes =>
    simp only [step] at h
    split at h
    · split at h
      · exact Option.some.inj h ▸ hi.fill ‹_› ‹_›
      · simp at h
    · simp at h
  | producer => exact produce_inv hi h
  | read len =>
    simp only [step] at h
    split at h
    · obtain rfl := Option.some.inj h
      apply hi.setConsumer
      split <;> trivial
    · simp at h
  | peek len =>
    simp only [step] at h
    split at h
    · obtain rfl := Option.some.inj h
      apply hi.setConsumer
      split <;> trivial
    · simp at h
  | advanceReadIndex n =>
    simp only [step] at h
    split at h
    · obtain rfl := Option.some.inj h
      apply hi.setConsumer
      split <;> trivial
    · simp at h
  | linearReadablePtr =>
    simp only [step] at h
    split at h
    · exact Option.some.inj h ▸ hi.setConsumer trivial
    · simp at h
  | look off n =>
    simp only [step] at h
    split at h
    · split at h
      · exact Option.some.inj h ▸ hi.look ‹_› ‹_›
      · simp at h
    · simp at h
  | consumer => exact consume_inv hi h

/-- The cells that the producer is about to write hold no byte that is published and not
    taken. -/
theorem Inv.writes_free (h : Inv s) {off n k : Nat}
    (hw : s.producer.writes s.ring = some (off, n)) (hlo : s.taken.length ≤ k)
    (hhi : k < s.published.length) :
    ¬(off ≤ k % s.ring.buf_.length ∧ k % s.ring.buf_.length < off + n) := by
  have hp := h.producer
  have hcap := s.ring.toNat_cap_sub s.ring.tail_lt
  have htail := h.tail_lt
  cases hpc : s.producer with
  | writeFirst src t =>
    rw [hpc] at hp hw
    obtain ⟨hroom, rfl⟩ := hp
    simp only [ProducerPc.writes, hcap, Option.some.injEq, Prod.mk.injEq] at hw
    obtain ⟨rfl, rfl⟩ := hw
    exact cells_disjoint h.tail hhi (by omega)
  | writeSecond src t =>
    rw [hpc] at hp hw
    obtain ⟨hroom, rfl, hlt, -⟩ := hp
    simp only [ProducerPc.writes, hcap, Option.some.injEq, Prod.mk.injEq] at hw
    obtain ⟨rfl, rfl⟩ := hw
    exact cells_disjoint (h.lap_start rfl).symm (by omega) (by omega)
  | filling base len =>
    rw [hpc] at hp hw
    obtain ⟨hroom, rfl, hfit⟩ := hp
    simp only [ProducerPc.writes, Option.some.injEq, Prod.mk.injEq] at hw
    obtain ⟨rfl, rfl⟩ := hw
    exact cells_disjoint h.tail hhi (by omega)
  | _ => simp [hpc, ProducerPc.writes] at hw

/-- In every run, the bytes that the consumer has taken are a prefix of the published
    ones, what it copied without taking stands at its place among them, the cells hold
    every byte that is published and not taken, and the next copy of the producer meets
    none of these cells. -/
theorem spsc_safety {malloc : Malloc} {capacity : UInt64} {r : RingByteBuf}
    (hr : RingByteBuf.new malloc capacity = some r) {acts : List SpscAct}
    (hrun : Run.run step (init r) acts = some s) :
    s.taken <+: s.published ∧ (∀ x ∈ s.copied, x.2 <+: s.published.drop x.1) ∧
      ∀ k, s.taken.length ≤ k → k < s.published.length →
        s.ring.buf_[k % s.ring.cap_.toNat]? = s.published[k]? ∧
        ∀ off n, s.producer.writes s.ring = some (off, n) →
          ¬(off ≤ k % s.ring.cap_.toNat ∧ k % s.ring.cap_.toNat < off + n) := by
  have hi : Inv s := Run.invariant step_inv (inv_init hr) hrun
  rw [← s.ring.buf_length]
  refine ⟨hi.taken, hi.copied, fun k hlo hhi => ⟨hi.holds k hlo hhi, fun off n hw => ?_⟩⟩
  exact hi.writes_free hw hlo hhi

/-- A write that passes the end of the cells, stopped in front of its second copy, and a
    `peek` between its steps. -/
theorem spsc_safety_wrapped :
    ∃ r s, RingByteBuf.new zeroed 3 = some r ∧
      Run.run step (init r)
        ([SpscAct.tryWrite [1, 2, 3]] ++ List.replicate 5 SpscAct.producer ++
          [SpscAct.read 2] ++ List.replicate 5 SpscAct.consumer ++
          [SpscAct.tryWrite [4, 5], .producer, .producer, .producer, .peek 2, .consumer, .consumer,
            .producer, .consumer, .consumer]) = some s ∧
      s.producer.writes s.ring = some (0, 1) ∧ [1, 2] <+: s.published ∧
      [3] <+: s.published.drop 2 ∧ s.ring.buf_[2 % s.ring.cap_.toNat]? = s.published[2]? := by
  obtain ⟨r, hr⟩ := Option.isSome_iff_exists.mp
    (RingByteBuf.new_isSome zeroed (c := 3) (by decide) (by decide))
  have hrun : ((RingByteBuf.new zeroed 3).bind fun r => Run.run step (init r)
        ([SpscAct.tryWrite [1, 2, 3]] ++ List.replicate 5 SpscAct.producer ++
          [SpscAct.read 2] ++ List.replicate 5 SpscAct.consumer ++
          [SpscAct.tryWrite [4, 5], .producer, .producer, .producer, .peek 2, .consumer, .consumer,
            .producer, .consumer, .consumer])).map
      (fun s => ((s.producer.writes s.ring, s.published), s.taken, s.copied)) =
        some ((some (0, 1), [1, 2, 3]), [1, 2], [(2, [3])]) := by
    decide
  rw [hr, Option.bind_some] at hrun
  obtain ⟨s, hrun, hs⟩ := Option.map_eq_some_iff.mp hrun
  simp only [Prod.mk.injEq] at hs
  obtain ⟨⟨hwrites, hpub⟩, htaken, hcopied⟩ := hs
  obtain ⟨hpre, hcopies, hcells⟩ := spsc_safety hr hrun
  rw [htaken] at hpre hcells
  exact ⟨r, s, hr, hrun, hwrites, hpre, hcopies (2, [3]) (by rw [hcopied]; decide),
    (hcells 2 (by decide) (by rw [hpub]; decide)).1⟩

end RingSpsc

end Athena
