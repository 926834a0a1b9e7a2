import Athena.ForStd.BoundedQueue
import Athena.Spec.RingContents

/-!
# `RingByteBuf` refines a bounded byte queue

A client makes any calls of the operations, one after the other, with any lengths.  The
writable window is filled by whoever asked for it, anywhere inside it, before the next call.

`toQueue` is the queue a ring stands for: its contents, and the writable cells from the
write index on as what stands behind the end.  `Accepts` says what a queue of at most `K`
bytes answers to a call and what becomes of it.

## Key results

- `exec_accepts`: each call on a ring is a call on its queue
- `ring_refines_queue`: so is every sequence of calls on a new ring
-/

namespace Athena

open Cyclic BoundedQueue

/-- A call. -/
inductive RingOp where
  | tryWrite (src : List UInt8)
  | read (len : Nat)
  | peek (len : Nat)
  | linearReadablePtr
  /-- and `bytes` are written into the window, `off` cells from its start -/
  | linearWritablePtr (off : Nat) (bytes : List UInt8)
  | advanceReadIndex (n : Nat)
  | advanceWriteIndex (n : Nat)
  | clear

/-- What a call returns. -/
inductive RingRet where
  | bool (b : Bool)
  /-- the bytes in `dst`; their number is the return value -/
  | bytes (dst : List UInt8)
  /-- `nullptr`, and `*outLen` is zero -/
  | null
  /-- a window to read from, `base` cells into the array, and what it shows -/
  | readable (base : Nat) (cells : List UInt8)
  /-- a window to write into, `base` cells into the array -/
  | writable (base len : Nat)
  | void
  deriving DecidableEq, Repr

namespace RingByteBuf

/-- Perform one call. -/
def exec (r : RingByteBuf) : RingOp → RingRet × RingByteBuf
  | .tryWrite src => (.bool (r.tryWrite src).1, (r.tryWrite src).2)
  | .read len => (.bytes (r.read len).1, (r.read len).2)
  | .peek len => (.bytes (r.peek len), r)
  | .linearReadablePtr =>
    match r.linearReadablePtr with
    | (some base, len) => (.readable base (slice r.buf_ base len), r)
    | (none, _) => (.null, r)
  | .linearWritablePtr off bytes =>
    match r.linearWritablePtr with
    | (some base, len) =>
      (.writable base len,
        if off + bytes.length ≤ len then r.memcpy (base + off) bytes else r)
    | (none, _) => (.null, r)
  | .advanceReadIndex n => (.bool (r.advanceReadIndex n).1, (r.advanceReadIndex n).2)
  | .advanceWriteIndex n => (.bool (r.advanceWriteIndex n).1, (r.advanceWriteIndex n).2)
  | .clear => (.void, r.clear)

/-- Perform the calls in order. -/
def execAll (r : RingByteBuf) : List RingOp → List RingRet × RingByteBuf
  | [] => ([], r)
  | op :: ops =>
    let rest := (r.exec op).2.execAll ops
    ((r.exec op).1 :: rest.1, rest.2)

end RingByteBuf

/-! ## What a bounded queue answers -/

/-- A queue of at most `K` bytes answers `ret` to the call `op` and becomes `q'`. -/
inductive Accepts {K : Nat} (q : BoundedQueue UInt8 K) :
    RingOp → RingRet → BoundedQueue UInt8 K → Prop where
  | tryWrite {src : List UInt8} {q' : BoundedQueue UInt8 K} (hfit : src.length ≤ q.room)
    (hq : q.Pushed src q') : Accepts q (.tryWrite src) (.bool true) q'
  | tryWrite_full {src : List UInt8} (hfull : q.room < src.length) :
    Accepts q (.tryWrite src) (.bool false) q
  | read {len : Nat} {q' : BoundedQueue UInt8 K} (hq : q.Popped (min len q.elems.length) q') :
    Accepts q (.read len) (.bytes (q.elems.take len)) q'
  | peek {len : Nat} : Accepts q (.peek len) (.bytes (q.elems.take len)) q
  | readable_null (hnil : q.elems = []) : Accepts q .linearReadablePtr .null q
  | readable {base len : Nat} (hpos : 0 < len) (hle : len ≤ q.elems.length)
    (harray : base + len ≤ K + 1) :
    Accepts q .linearReadablePtr (.readable base (q.elems.take len)) q
  | writable_null {off : Nat} {bytes : List UInt8} (hfull : q.room = 0) :
    Accepts q (.linearWritablePtr off bytes) .null q
  | writable {off base len : Nat} {bytes : List UInt8} {q' : BoundedQueue UInt8 K}
    (hpos : 0 < len) (hle : len ≤ q.room) (harray : base + len ≤ K + 1)
    (hq : if off + bytes.length ≤ len then q.Filled off bytes q' else q' = q) :
    Accepts q (.linearWritablePtr off bytes) (.writable base len) q'
  | advanceRead {n : Nat} {q' : BoundedQueue UInt8 K} (hle : n ≤ q.elems.length)
    (hq : q.Popped n q') : Accepts q (.advanceReadIndex n) (.bool true) q'
  | advanceRead_refused {n : Nat} (hlt : q.elems.length < n) :
    Accepts q (.advanceReadIndex n) (.bool false) q
  | advanceWrite {n : Nat} {q' : BoundedQueue UInt8 K} (hle : n ≤ q.room)
    (hq : q.Pushed (q.ahead.take n) q') : Accepts q (.advanceWriteIndex n) (.bool true) q'
  | advanceWrite_refused {n : Nat} (hlt : q.room < n) :
    Accepts q (.advanceWriteIndex n) (.bool false) q
  | clear {q' : BoundedQueue UInt8 K} (hnil : q'.elems = []) : Accepts q .clear .void q'

/-- A queue answers `rets` to the calls `ops`, in order, and becomes `q'`. -/
inductive AcceptsAll {K : Nat} : BoundedQueue UInt8 K → List RingOp → List RingRet →
    BoundedQueue UInt8 K → Prop where
  | nil {q : BoundedQueue UInt8 K} : AcceptsAll q [] [] q
  | cons {q m q' : BoundedQueue UInt8 K} {op : RingOp} {ops : List RingOp} {ret : RingRet}
    {rets : List RingRet} (h : Accepts q op ret m) (hrest : AcceptsAll m ops rets q') :
    AcceptsAll q (op :: ops) (ret :: rets) q'

namespace RingByteBuf

/-! ## The queue of a ring -/

/-- What is readable and what is writable make up the capacity. -/
theorem readable_add_writable (r : RingByteBuf) :
    r.readableBytes + r.writableBytes = r.capacity := by
  have := r.readableBytes_le
  rw [writableBytes_eq]
  omega

/-- The writable cells, from the write index on. -/
def ahead (r : RingByteBuf) : List UInt8 :=
  window r.buf_ r.tail_.toNat r.writableBytes

/-- The writable bytes leave a cell free. -/
theorem writable_lt_length (r : RingByteBuf) : r.writableBytes < r.buf_.length := by
  have := r.readable_add_writable
  rw [length_buf]
  omega

/-- There are as many cells ahead as the ring says. -/
@[simp] theorem length_ahead (r : RingByteBuf) : r.ahead.length = r.writableBytes :=
  length_window (Nat.le_of_lt r.writable_lt_length)

/-- The queue that a ring of capacity `K` stands for. -/
def toQueue {K : Nat} (r : RingByteBuf) (h : r.capacity = K) : BoundedQueue UInt8 K where
  elems := r.contents
  ahead := r.ahead
  length_eq := by rw [length_contents, length_ahead, readable_add_writable, h]

/-- No call changes the capacity. -/
@[simp] theorem capacity_exec (r : RingByteBuf) (op : RingOp) :
    (r.exec op).2.capacity = r.capacity := by
  cases op with
  | tryWrite src => exact capacity_tryWrite r src
  | read len => exact capacity_read r len
  | peek len => rfl
  | linearReadablePtr => simp only [exec]; split <;> rfl
  | linearWritablePtr off bytes =>
    simp only [exec]
    split
    · show (if _ then _ else _ : RingByteBuf).capacity = _
      split
      · exact capacity_memcpy r _ _
      · rfl
    · rfl
  | advanceReadIndex n => exact capacity_advanceReadIndex r n
  | advanceWriteIndex n => exact capacity_advanceWriteIndex r n
  | clear => exact capacity_clear r

/-! ## Moving the indices -/

/-- Moving the read index on makes that much room. -/
theorem writable_setHead {r : RingByteBuf} {n : Nat} (hn : n ≤ r.readableBytes) :
    (r.setHead (r.head_ + UInt64.ofNat n)).writableBytes = r.writableBytes + n := by
  have hnew := (r.setHead (r.head_ + UInt64.ofNat n)).readable_add_writable
  have hold := r.readable_add_writable
  rw [readable_setHead hn, capacity_setHead] at hnew
  omega

/-- Moving the read index takes out the front of the queue. -/
theorem popped_setHead {K : Nat} {r r' : RingByteBuf} {n : Nat} (hn : n ≤ r.readableBytes)
    (hr' : r' = r.setHead (r.head_ + UInt64.ofNat n)) (h : r.capacity = K)
    (h' : r'.capacity = K) : (r.toQueue h).Popped n (r'.toQueue h') where
  elems := by subst hr'; exact contents_setHead hn
  ahead := by
    subst hr'
    show r.ahead <+: (r.setHead _).ahead
    rw [ahead, ahead, writable_setHead hn]
    show _ <+: window r.buf_ r.tail_.toNat (r.writableBytes + n)
    rw [← window_take (Nat.le_add_right r.writableBytes n)]
    exact List.take_prefix _ _

/-- Moving the write index on takes that much room. -/
theorem writable_setTail {r : RingByteBuf} {n : Nat} (hn : n ≤ r.writableBytes) :
    (r.setTail (r.tail_ + UInt64.ofNat n)).writableBytes = r.writableBytes - n := by
  have hnew := (r.setTail (r.tail_ + UInt64.ofNat n)).readable_add_writable
  have hold := r.readable_add_writable
  rw [readable_setTail hn, capacity_setTail] at hnew
  omega

/-- The write index is in the vector. -/
theorem tail_lt_length (r : RingByteBuf) : r.tail_.toNat < r.buf_.length := by
  rw [r.buf_length]; exact r.tail_lt

/-- The write index after a move. -/
theorem tail_setTail {r : RingByteBuf} {n : Nat} (hn : n ≤ r.writableBytes) :
    (r.setTail (r.tail_ + UInt64.ofNat n)).tail_.toNat = (r.tail_.toNat + n) % r.buf_.length := by
  have hw := r.writable_lt_length
  show ((r.tail_ + UInt64.ofNat n) &&& r.mask_).toNat = _
  rw [r.toNat_advance r.tail_ (by rw [r.buf_length] at hw; omega), r.buf_length]

/-- Moving the write index puts in what stands behind the end of the queue. -/
theorem pushed_setTail {K : Nat} {r r' : RingByteBuf} {n : Nat} (hn : n ≤ r.writableBytes)
    (hr' : r' = r.setTail (r.tail_ + UInt64.ofNat n)) (h : r.capacity = K)
    (h' : r'.capacity = K) :
    (r.toQueue h).Pushed ((r.toQueue h).ahead.take n) (r'.toQueue h') := by
  subst hr'
  have hw := r.writable_lt_length
  have hsum := r.readable_add_writable
  have hlen := r.length_buf
  have htake : r.ahead.take n = window r.buf_ r.tail_.toNat n := window_take hn
  refine { elems := ?_, ahead := ?_ }
  · show (r.setTail _).contents = r.contents ++ r.ahead.take n
    rw [contents_of_readable (readable_setTail hn), htake]
    show window r.buf_ r.head_.toNat (r.readableBytes + n) = _
    rw [window_add r.head_lt_length (by omega), ← r.tail_eq]
    rfl
  · show (r.setTail _).ahead = r.ahead.drop (r.ahead.take n).length
    rw [List.length_take, length_ahead, Nat.min_eq_left hn, ahead, writable_setTail hn,
      tail_setTail hn]
    exact (window_drop r.tail_lt_length (Nat.le_of_lt hw) hn).symm

/-! ## Writing behind the end -/

/-- A copy into the writable cells fills in behind the end of the queue. -/
theorem filled_memcpy {K : Nat} {r r' : RingByteBuf} {off o : Nat} {src : List UInt8}
    (hr' : r' = r.memcpy off src) (hoff : off = (r.tail_.toNat + o) % r.buf_.length)
    (ho : o + src.length ≤ r.writableBytes) (hfit : off + src.length ≤ r.buf_.length)
    (h : r.capacity = K) (h' : r'.capacity = K) :
    (r.toQueue h).Filled o src (r'.toQueue h') := by
  subst hr'
  have hw := r.writable_lt_length
  have hsum := r.readable_add_writable
  have hlen := r.length_buf
  have hbuf := (memcpy_eq hfit).1
  have hread : (r.memcpy off src).readableBytes = r.readableBytes := by
    simp only [readableBytes, head_memcpy, tail_memcpy, (memcpy_eq hfit).2.2.2.2]
  have hwrite : (r.memcpy off src).writableBytes = r.writableBytes := by
    rw [writableBytes_eq, writableBytes_eq, capacity_memcpy, hread]
  refine { elems := ?_, ahead := ?_ }
  · show (r.memcpy off src).contents = r.contents
    rw [contents, contents, hread, head_memcpy, hbuf]
    apply window_overwrite_disjoint r.head_lt_length (by omega) hfit
    intro i hi
    -- the copy is behind the queue, and less than a lap from its front
    apply cells_disjoint (a := r.head_.toNat + (r.readableBytes + o)) _ (by omega) (by omega)
    rw [hoff, r.tail_eq, Nat.mod_add_mod, Nat.add_assoc]
  · show (r.memcpy off src).ahead = overwrite r.ahead o src
    rw [ahead, ahead, hwrite, tail_memcpy, hbuf, hoff]
    exact window_overwrite r.tail_lt_length (Nat.le_of_lt hw) ho (hoff ▸ hfit)

/-- The two copies of an accepted `tryWrite` fill in its bytes behind the end. -/
theorem filled_two {K : Nat} {r r₁ r₂ : RingByteBuf} {src : List UInt8}
    (h₁ : r₁ = r.memcpy r.tail_.toNat (src.take (r.buf_.length - r.tail_.toNat)))
    (h₂ : r₂ = r₁.memcpy 0 (src.drop (r.buf_.length - r.tail_.toNat)))
    (hle : src.length ≤ r.writableBytes) (h : r.capacity = K) (h' : r₂.capacity = K) :
    (r.toQueue h).Filled 0 src (r₂.toQueue h') := by
  have hw := r.writable_lt_length
  have ht := r.tail_lt_length
  have hcap₁ : r₁.capacity = K := by rw [h₁, capacity_memcpy, h]
  have hlen : (src.take (r.buf_.length - r.tail_.toNat)).length =
      min (r.buf_.length - r.tail_.toNat) src.length := List.length_take
  have hfirst : (r.toQueue h).Filled 0 (src.take (r.buf_.length - r.tail_.toNat))
      (r₁.toQueue hcap₁) :=
    filled_memcpy h₁ (by rw [Nat.add_zero, Nat.mod_eq_of_lt ht]) (by omega) (by omega) h hcap₁
  by_cases hs : src.length ≤ r.buf_.length - r.tail_.toNat
  · -- the second copy is empty
    rw [List.drop_of_length_le hs, memcpy_nil] at h₂
    rw [List.take_of_length_le hs] at hfirst
    subst h₂
    exact hfirst
  · have hsecond : (r₁.toQueue hcap₁).Filled (r.buf_.length - r.tail_.toNat)
        (src.drop (r.buf_.length - r.tail_.toNat)) (r₂.toQueue h') := by
      have hbuf₁ : r₁.buf_.length = r.buf_.length := by rw [h₁, length_buf_memcpy]
      have htail₁ : r₁.tail_ = r.tail_ := by rw [h₁, tail_memcpy]
      have hwr₁ : r₁.writableBytes = r.writableBytes := by
        rw [← length_ahead, ← length_ahead]
        show (r₁.toQueue hcap₁).ahead.length = _
        rw [hfirst.ahead, length_overwrite]
        · rfl
        · show 0 + _ ≤ r.ahead.length
          rw [length_ahead]; omega
      have hdrop : (src.drop (r.buf_.length - r.tail_.toNat)).length =
          src.length - (r.buf_.length - r.tail_.toNat) := List.length_drop
      refine filled_memcpy h₂ ?_ (by omega) (by omega) hcap₁ h'
      rw [htail₁, hbuf₁, Nat.add_sub_cancel' (Nat.le_of_lt ht), Nat.mod_self]
    rw [← List.take_append_drop (r.buf_.length - r.tail_.toNat) src]
    apply hfirst.append
    · rw [Nat.zero_add, hlen, Nat.min_eq_left (by omega)]
      exact hsecond
    · show _ ≤ r.ahead.length
      rw [length_ahead, hlen, List.length_drop]
      omega

/-- An accepted `tryWrite` puts its bytes in. -/
theorem pushed_tryWrite {K : Nat} {r : RingByteBuf} {src : List UInt8}
    (hle : src.length ≤ r.writableBytes) (h : r.capacity = K)
    (h' : (r.tryWrite src).2.capacity = K) :
    (r.toQueue h).Pushed src ((r.tryWrite src).2.toQueue h') := by
  by_cases h0 : src = []
  · subst h0
    exact { elems := by simp [toQueue, tryWrite], ahead := by simp [toQueue, tryWrite] }
  obtain ⟨r₁, hr₁⟩ : ∃ r₁, r₁ = r.memcpy r.tail_.toNat
    (src.take (r.buf_.length - r.tail_.toNat)) := ⟨_, rfl⟩
  obtain ⟨r₂, hr₂⟩ : ∃ r₂, r₂ = r₁.memcpy 0
    (src.drop (r.buf_.length - r.tail_.toNat)) := ⟨_, rfl⟩
  have hcap₂ : r₂.capacity = K := by rw [hr₂, capacity_memcpy, hr₁, capacity_memcpy, h]
  have hfilled := filled_two hr₁ hr₂ hle h hcap₂
  have hwrite : src.length ≤ r₂.writableBytes := by
    rw [← length_ahead]
    show _ ≤ (r₂.toQueue hcap₂).ahead.length
    rw [hfilled.ahead, overwrite_zero, List.length_append]
    omega
  have hset : (r.tryWrite src).2 = r₂.setTail (r₂.tail_ + UInt64.ofNat src.length) := by
    rw [tryWrite_eq h0 hle, hr₂, hr₁]
    simp only [tail_memcpy]
  exact hfilled.pushed (pushed_setTail hwrite hset hcap₂ h')

/-! ## Every call is a call on the queue -/

variable {K : Nat} {r r' : RingByteBuf} {ret : RingRet}

/-- `tryWrite` pushes its bytes, or refuses them all. -/
theorem tryWrite_accepts {src : List UInt8} (he : r.exec (.tryWrite src) = (ret, r'))
    (h : r.capacity = K) (h' : r'.capacity = K) :
    Accepts (r.toQueue h) (.tryWrite src) ret (r'.toQueue h') := by
  obtain ⟨rfl, rfl⟩ := Prod.mk.inj he
  by_cases hle : src.length ≤ r.writableBytes
  · rw [(tryWrite_spec hle).1]
    exact .tryWrite (by rw [BoundedQueue.room, toQueue, length_ahead]; exact hle)
      (pushed_tryWrite hle h h')
  · have hfull : r.tryWrite src = (false, r) := tryWrite_eq_false (by omega)
    simp only [hfull] at h' ⊢
    exact .tryWrite_full (by rw [BoundedQueue.room, toQueue, length_ahead]; omega)

/-- `read` takes the front of the queue. -/
theorem read_accepts {len : Nat} (he : r.exec (.read len) = (ret, r')) (h : r.capacity = K)
    (h' : r'.capacity = K) : Accepts (r.toQueue h) (.read len) ret (r'.toQueue h') := by
  obtain ⟨rfl, rfl⟩ := Prod.mk.inj he
  rw [read_eq]
  apply Accepts.read
  show (r.toQueue h).Popped (min len r.contents.length) _
  rw [length_contents]
  by_cases h0 : len = 0
  · subst h0
    rw [Nat.zero_min]
    have hsame : r.read 0 = ([], r) := by simp [RingByteBuf.read]
    simp only [hsame] at h' ⊢
    exact Popped.zero _
  · by_cases hrd : r.readableBytes = 0
    · rw [hrd, Nat.min_zero]
      have hsame : r.read len = ([], r) := by simp [RingByteBuf.read, h0, hrd]
      simp only [hsame] at h' ⊢
      exact Popped.zero _
    · apply popped_setHead (Nat.min_le_right _ _) _ h h'
      rw [RingByteBuf.read, if_neg h0, if_neg hrd]

/-- The readable window shows the front of the queue. -/
theorem linearReadablePtr_accepts (he : r.exec .linearReadablePtr = (ret, r'))
    (h : r.capacity = K) (h' : r'.capacity = K) :
    Accepts (r.toQueue h) .linearReadablePtr ret (r'.toQueue h') := by
  by_cases hnil : r.contents = []
  · simp only [exec, linearReadablePtr_of_nil hnil] at he
    obtain ⟨rfl, rfl⟩ := Prod.mk.inj he
    exact .readable_null hnil
  · have hpos := linearReadablePtr_pos hnil
    have hbase := linearReadablePtr_isSome (Nat.ne_of_gt hpos)
    have hle := r.linearReadablePtr_le
    have harr := (linearReadablePtr_base hbase).2
    have hptr : r.linearReadablePtr = (some r.head_.toNat, r.linearReadablePtr.2) :=
      Prod.ext hbase rfl
    rw [exec, hptr] at he
    obtain ⟨rfl, rfl⟩ := Prod.mk.inj he
    rw [slice_head hle harr]
    rw [length_buf, h] at harr
    exact .readable hpos (by rw [toQueue, length_contents]; exact hle) harr

/-- The writable window lies behind the end, and what is written there stays there. -/
theorem linearWritablePtr_accepts {off : Nat} {bytes : List UInt8}
    (he : r.exec (.linearWritablePtr off bytes) = (ret, r')) (h : r.capacity = K)
    (h' : r'.capacity = K) :
    Accepts (r.toQueue h) (.linearWritablePtr off bytes) ret (r'.toQueue h') := by
  by_cases hfull : r.writableBytes = 0
  · have hptr : r.linearWritablePtr = (none, 0) := by rw [linearWritablePtr, if_pos hfull]
    rw [exec, hptr] at he
    obtain ⟨rfl, rfl⟩ := Prod.mk.inj he
    exact .writable_null (by rw [BoundedQueue.room, toQueue, length_ahead]; exact hfull)
  · have htail := r.tail_lt_length
    have hlen : r.linearWritablePtr = (some r.tail_.toNat,
        min r.writableBytes (r.buf_.length - r.tail_.toNat)) := by
      rw [linearWritablePtr, if_neg hfull, r.toNat_cap_sub r.tail_lt]
    have harr := r.length_buf
    rw [h] at harr
    rw [exec, hlen] at he
    obtain ⟨rfl, rfl⟩ := Prod.mk.inj he
    refine .writable (by omega) (by rw [BoundedQueue.room, toQueue, length_ahead]; omega) (by omega) ?_
    -- bytes that leave the window are not written
    by_cases hfit : off + bytes.length ≤ min r.writableBytes (r.buf_.length - r.tail_.toNat)
    · simp only [if_pos hfit] at h' ⊢
      by_cases h0 : bytes = []
      · subst h0
        simp only [memcpy_nil]
        exact Filled.nil _ off
      · have hpos := List.length_pos_iff.mpr h0
        exact filled_memcpy rfl (Nat.mod_eq_of_lt (by omega)).symm (by omega) (by omega) h h'
    · simp only [if_neg hfit] at h' ⊢

/-- `advanceReadIndex` drops the front of the queue. -/
theorem advanceReadIndex_accepts {n : Nat} (he : r.exec (.advanceReadIndex n) = (ret, r'))
    (h : r.capacity = K) (h' : r'.capacity = K) :
    Accepts (r.toQueue h) (.advanceReadIndex n) ret (r'.toQueue h') := by
  have hsize : (r.toQueue h).elems.length = r.readableBytes := length_contents r
  rw [exec, advanceReadIndex] at he
  split at he
  · rename_i h0
    obtain ⟨rfl, rfl⟩ := Prod.mk.inj he
    subst h0
    exact .advanceRead (Nat.zero_le _) (Popped.zero _)
  · split at he
    · obtain ⟨rfl, rfl⟩ := Prod.mk.inj he
      exact .advanceRead_refused (by omega)
    · obtain ⟨rfl, rfl⟩ := Prod.mk.inj he
      exact .advanceRead (by omega) (popped_setHead (by omega) rfl h h')

/-- `advanceWriteIndex` pushes what stands behind the end. -/
theorem advanceWriteIndex_accepts {n : Nat} (he : r.exec (.advanceWriteIndex n) = (ret, r'))
    (h : r.capacity = K) (h' : r'.capacity = K) :
    Accepts (r.toQueue h) (.advanceWriteIndex n) ret (r'.toQueue h') := by
  have hroom : (r.toQueue h).room = r.writableBytes := length_ahead r
  rw [exec, advanceWriteIndex] at he
  split at he
  · rename_i h0
    obtain ⟨rfl, rfl⟩ := Prod.mk.inj he
    subst h0
    exact .advanceWrite (Nat.zero_le _) (Pushed.nil _)
  · split at he
    · obtain ⟨rfl, rfl⟩ := Prod.mk.inj he
      exact .advanceWrite_refused (by omega)
    · obtain ⟨rfl, rfl⟩ := Prod.mk.inj he
      exact .advanceWrite (by omega) (pushed_setTail (by omega) rfl h h')

/-- A cleared ring is empty. -/
theorem clear_contents (r : RingByteBuf) : r.clear.contents = [] := by
  simp [contents, readableBytes, clear]

/-- Each call on a ring is a call on its queue. -/
theorem exec_accepts {op : RingOp} (he : r.exec op = (ret, r')) (h : r.capacity = K)
    (h' : r'.capacity = K) : Accepts (r.toQueue h) op ret (r'.toQueue h') := by
  cases op with
  | tryWrite src => exact tryWrite_accepts he h h'
  | read len => exact read_accepts he h h'
  | peek len =>
    obtain ⟨rfl, rfl⟩ := Prod.mk.inj he
    rw [peek_eq]
    exact .peek
  | linearReadablePtr => exact linearReadablePtr_accepts he h h'
  | linearWritablePtr off bytes => exact linearWritablePtr_accepts he h h'
  | advanceReadIndex n => exact advanceReadIndex_accepts he h h'
  | advanceWriteIndex n => exact advanceWriteIndex_accepts he h h'
  | clear =>
    obtain ⟨rfl, rfl⟩ := Prod.mk.inj he
    exact .clear r.clear_contents

/-- Any calls on a ring are calls on its queue. -/
theorem execAll_accepts {ops : List RingOp} {rets : List RingRet}
    (he : r.execAll ops = (rets, r')) (h : r.capacity = K) :
    ∃ h' : r'.capacity = K, AcceptsAll (r.toQueue h) ops rets (r'.toQueue h') := by
  induction ops generalizing r rets with
  | nil =>
    obtain ⟨rfl, rfl⟩ := Prod.mk.inj he
    exact ⟨h, .nil⟩
  | cons op ops ih =>
    obtain ⟨rfl, hr'⟩ := Prod.mk.inj he
    have hm : (r.exec op).2.capacity = K := by rw [capacity_exec, h]
    obtain ⟨h', hrest⟩ := ih (Prod.ext rfl hr') hm
    exact ⟨h', .cons (exec_accepts rfl h hm) hrest⟩

/-- Every sequence of calls on a new ring is one on an empty queue of at most `capacity`
    bytes, which is at least what was asked for. -/
theorem ring_refines_queue (malloc : Malloc) (c : UInt64) (h0 : 0 < c.toNat)
    (h1 : c.toNat ≤ 2 ^ 63 - 1) :
    ∃ r, new malloc c = some r ∧ c.toNat ≤ r.capacity ∧
      ∃ q : BoundedQueue UInt8 r.capacity, q.elems = [] ∧
        ∀ ops rets r', r.execAll ops = (rets, r') →
          ∃ q' : BoundedQueue UInt8 r.capacity, AcceptsAll q ops rets q' ∧
            r'.readableBytes = q'.elems.length ∧
            r'.readableBytes + r'.writableBytes = r.capacity ∧
            r'.capacity = r.capacity := by
  obtain ⟨r, hr⟩ := Option.isSome_iff_exists.mp (new_isSome malloc h0 h1)
  refine ⟨r, hr, (new_capacity hr).1, r.toQueue rfl, new_contents hr, ?_⟩
  intro ops rets r' he
  obtain ⟨h', hall⟩ := execAll_accepts he rfl
  exact ⟨r'.toQueue h', hall, r'.length_contents.symm, h' ▸ r'.readable_add_writable, h'⟩

/-- A ring of three bytes: filled, refused, read, and shown across its end. -/
theorem ring_refines_queue_small :
    ∃ r, new zeroed 2 = some r ∧ ∃ q q' : BoundedQueue UInt8 r.capacity, q.elems = [] ∧
      AcceptsAll q
        [.tryWrite [1, 2, 3], .tryWrite [4], .read 2, .linearWritablePtr 0 [5],
          .advanceWriteIndex 1, .linearReadablePtr, .peek 9]
        [.bool true, .bool false, .bytes [1, 2], .writable 3 1, .bool true,
          .readable 2 [3, 5], .bytes [3, 5]] q' := by
  obtain ⟨r, hr, -, q, hq, hall⟩ := ring_refines_queue zeroed 2 (by decide) (by decide)
  have hrets : (new zeroed 2).map (fun r => (r.execAll
      [.tryWrite [1, 2, 3], .tryWrite [4], .read 2, .linearWritablePtr 0 [5],
        .advanceWriteIndex 1, .linearReadablePtr, .peek 9]).1) =
      some [.bool true, .bool false, .bytes [1, 2], .writable 3 1, .bool true,
        .readable 2 [3, 5], .bytes [3, 5]] := by decide
  rw [hr] at hrets
  obtain ⟨q', hacc, -⟩ := hall _ _ _ (Prod.ext (Option.some.inj hrets) rfl)
  exact ⟨r, hr, q, q', hq, hacc⟩

end RingByteBuf

end Athena
