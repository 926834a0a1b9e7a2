import Athena.Native.RingByteBuf

/-!
# The byte ring with a producer and a consumer (`core/common/RingByteBuf.h`, `.cpp`)

The functions of `RingByteBuf` as two threads run them: every load of an index, every
store of one and every `memcpy` is a step of its own, in a sequentially consistent
memory.  The producer calls `tryWrite`, `linearWritablePtr` and `advanceWriteIndex`, and
writes into the window it was given; the consumer calls `read`, `peek`,
`linearReadablePtr` and `advanceReadIndex`, and copies out of its window.

`published`, `taken` and `copied` are accounts that the code does not keep.
-/

namespace Athena

open Cyclic

namespace RingByteBuf

/-- `readableBytes`, from what the two loads gave. -/
def distance (r : RingByteBuf) (h t : UInt64) : Nat :=
  ((t - h) &&& r.mask_).toNat

/-- `writableBytes`, from what the two loads gave. -/
def room (r : RingByteBuf) (h t : UInt64) : Nat :=
  if r.cap_ == 0 then 0 else (r.cap_ - 1).toNat - r.distance h t

end RingByteBuf

/-- The step that the producer takes next. -/
inductive ProducerPc where
  | idle
  /-- `tryWrite`: `head_.load` in `writableBytes` -/
  | writeHead (src : List UInt8)
  /-- `tail_.load` in `writableBytes`, and the test -/
  | writeTail (src : List UInt8) (h : UInt64)
  /-- `t = tail_.load` -/
  | writeIndex (src : List UInt8)
  /-- the first `memcpy` -/
  | writeFirst (src : List UInt8) (t : UInt64)
  /-- the second `memcpy` -/
  | writeSecond (src : List UInt8) (t : UInt64)
  /-- `tail_.store` -/
  | writeStore (src : List UInt8) (t : UInt64)
  /-- `linearWritablePtr` -/
  | ptrHead
  | ptrTail (h : UInt64)
  | ptrIndex (writable : Nat)
  /-- `linearWritablePtr` has returned the window -/
  | filling (base len : Nat)
  /-- `advanceWriteIndex` -/
  | advanceHead (n : Nat)
  | advanceTail (n : Nat) (h : UInt64)
  | advanceIndex (n : Nat)
  | advanceStore (n : Nat) (t : UInt64)
  deriving DecidableEq, Repr

/-- The step that the consumer takes next. -/
inductive ConsumerPc where
  | idle
  /-- `read`, or `peek` when `keep`: `head_.load` in `readableBytes` -/
  | readHead (keep : Bool) (len : Nat)
  /-- `tail_.load` in `readableBytes` -/
  | readTail (keep : Bool) (len : Nat) (h : UInt64)
  /-- `h = head_.load` -/
  | readIndex (keep : Bool) (toread : Nat)
  /-- the first `memcpy` -/
  | readFirst (keep : Bool) (toread : Nat) (h : UInt64)
  /-- the second `memcpy` -/
  | readSecond (keep : Bool) (toread : Nat) (h : UInt64) (dst : List UInt8)
  /-- `head_.store` of `read` -/
  | readStore (toread : Nat) (h : UInt64) (dst : List UInt8)
  /-- `linearReadablePtr` -/
  | ptrHead
  | ptrTail (h : UInt64)
  | ptrIndex (avail : Nat)
  /-- `linearReadablePtr` has returned the window -/
  | looking (base len : Nat)
  /-- `advanceReadIndex` -/
  | advanceHead (n : Nat)
  | advanceTail (n : Nat) (h : UInt64)
  | advanceIndex (n : Nat)
  | advanceStore (n : Nat) (h : UInt64)
  deriving DecidableEq, Repr

/-- A ring and its two threads. -/
structure RingSpsc where
  ring : RingByteBuf
  producer : ProducerPc
  consumer : ConsumerPc
  /-- the bytes behind the stores of `tail_` -/
  published : List UInt8
  /-- the bytes in front of the stores of `head_`: what `read` returned, and what stood in
      the cells that `advanceReadIndex` gave back -/
  taken : List UInt8
  /-- what `peek` and the copies out of the window gave, with the number of bytes in front -/
  copied : List (Nat × List UInt8)

inductive SpscAct where
  | tryWrite (src : List UInt8)
  | linearWritablePtr
  /-- the producer writes into its window -/
  | fill (off : Nat) (bytes : List UInt8)
  | advanceWriteIndex (n : Nat)
  /-- the next step of the producer -/
  | producer
  | read (len : Nat)
  | peek (len : Nat)
  | linearReadablePtr
  /-- the consumer copies out of its window -/
  | look (off n : Nat)
  | advanceReadIndex (n : Nat)
  /-- the next step of the consumer -/
  | consumer
  deriving DecidableEq, Repr

/-- The producer is in no call. -/
def ProducerPc.free : ProducerPc → Bool
  | .idle => true
  | .filling _ _ => true
  | _ => false

/-- The consumer is in no call. -/
def ConsumerPc.free : ConsumerPc → Bool
  | .idle => true
  | .looking _ _ => true
  | _ => false

/-- The cells that the next `memcpy` of the producer may write: their start and number. -/
def ProducerPc.writes (r : RingByteBuf) : ProducerPc → Option (Nat × Nat)
  | .writeFirst src t => some (t.toNat, min src.length (r.cap_ - t).toNat)
  | .writeSecond src t => some (0, src.length - min src.length (r.cap_ - t).toNat)
  | .filling base len => some (base, len)
  | _ => none

namespace RingSpsc

def init (r : RingByteBuf) : RingSpsc :=
  { ring := r, producer := .idle, consumer := .idle, published := [], taken := [], copied := [] }

/-- The next step of the producer. -/
def produce (s : RingSpsc) : Option RingSpsc :=
  let r := s.ring
  match s.producer with
  | .idle => none
  -- `tryWrite`: the room is worked out from two loads, one after the other
  | .writeHead src => some { s with producer := .writeTail src r.head_ }
  | .writeTail src h =>
    if src.length > r.room h r.tail_ then some { s with producer := .idle }
    else some { s with producer := .writeIndex src }
  | .writeIndex src => some { s with producer := .writeFirst src r.tail_ }
  | .writeFirst src t =>
    -- only the producer stores `tail_`, so `t` is what it last stored
    let first := min src.length (r.cap_ - t).toNat
    some { s with
      ring := r.memcpy t.toNat (src.take first)
      producer := if src.length > first then .writeSecond src t else .writeStore src t }
  | .writeSecond src t =>
    let first := min src.length (r.cap_ - t).toNat
    some { s with ring := r.memcpy 0 (src.drop first), producer := .writeStore src t }
  | .writeStore src t =>
    some { s with
      ring := r.setTail (t + UInt64.ofNat src.length)
      producer := .idle
      published := s.published ++ src }
  -- `linearWritablePtr`
  | .ptrHead => some { s with producer := .ptrTail r.head_ }
  | .ptrTail h =>
    if r.room h r.tail_ = 0 then some { s with producer := .idle }
    else some { s with producer := .ptrIndex (r.room h r.tail_) }
  | .ptrIndex writable =>
    let len := min writable (r.cap_ - r.tail_).toNat
    some { s with producer := .filling r.tail_.toNat len }
  -- the kernel fills the window; the call has returned
  | .filling _ _ => none
  -- `advanceWriteIndex`
  | .advanceHead n => some { s with producer := .advanceTail n r.head_ }
  | .advanceTail n h =>
    if n > r.room h r.tail_ then some { s with producer := .idle }
    else some { s with producer := .advanceIndex n }
  | .advanceIndex n => some { s with producer := .advanceStore n r.tail_ }
  | .advanceStore n t =>
    some { s with
      ring := r.setTail (t + UInt64.ofNat n)
      producer := .idle
      published := s.published ++ window r.buf_ t.toNat n }

/-- The copies of `read` and `peek` are done. -/
def copyDone (s : RingSpsc) (keep : Bool) (toread : Nat) (h : UInt64) (dst : List UInt8) :
    RingSpsc :=
  if keep then
    { s with consumer := .idle, copied := s.copied ++ [(s.taken.length, dst)] }
  else { s with consumer := .readStore toread h dst }

/-- The next step of the consumer. -/
def consume (s : RingSpsc) : Option RingSpsc :=
  let r := s.ring
  match s.consumer with
  | .idle => none
  -- `read` and `peek`
  | .readHead keep len => some { s with consumer := .readTail keep len r.head_ }
  | .readTail keep len h =>
    let avail := r.distance h r.tail_
    if avail = 0 then some { s with consumer := .idle }
    else some { s with consumer := .readIndex keep (min len avail) }
  | .readIndex keep toread => some { s with consumer := .readFirst keep toread r.head_ }
  | .readFirst keep toread h =>
    let first := min toread (r.cap_ - h).toNat
    let dst := slice r.buf_ h.toNat first
    if toread > first then some { s with consumer := .readSecond keep toread h dst }
    else some (s.copyDone keep toread h dst)
  | .readSecond keep toread h dst =>
    let first := min toread (r.cap_ - h).toNat
    some (s.copyDone keep toread h (dst ++ slice r.buf_ 0 (toread - first)))
  | .readStore toread h dst =>
    some { s with
      ring := r.setHead (h + UInt64.ofNat toread)
      consumer := .idle
      taken := s.taken ++ dst }
  -- `linearReadablePtr`
  | .ptrHead => some { s with consumer := .ptrTail r.head_ }
  | .ptrTail h =>
    if r.distance h r.tail_ = 0 then some { s with consumer := .idle }
    else some { s with consumer := .ptrIndex (r.distance h r.tail_) }
  | .ptrIndex avail =>
    let len := min avail (r.cap_ - r.head_).toNat
    some { s with consumer := .looking r.head_.toNat len }
  -- the caller reads the window; the call has returned
  | .looking _ _ => none
  -- `advanceReadIndex`
  | .advanceHead n => some { s with consumer := .advanceTail n r.head_ }
  | .advanceTail n h =>
    if n > r.distance h r.tail_ then some { s with consumer := .idle }
    else some { s with consumer := .advanceIndex n }
  | .advanceIndex n => some { s with consumer := .advanceStore n r.head_ }
  | .advanceStore n h =>
    some { s with
      ring := r.setHead (h + UInt64.ofNat n)
      consumer := .idle
      taken := s.taken ++ window r.buf_ h.toNat n }

def step (s : RingSpsc) : SpscAct → Option RingSpsc
  | .tryWrite src =>
    if s.producer.free then
      some { s with producer := if src.length = 0 then .idle else .writeHead src }
    else none
  | .linearWritablePtr =>
    if s.producer.free then some { s with producer := .ptrHead } else none
  | .fill off bytes =>
    match s.producer with
    | .filling base len =>
      if off + bytes.length ≤ len then some { s with ring := s.ring.memcpy (base + off) bytes }
      else none
    | _ => none
  | .advanceWriteIndex n =>
    if s.producer.free then
      some { s with producer := if n = 0 then .idle else .advanceHead n }
    else none
  | .producer => s.produce
  | .read len =>
    if s.consumer.free then
      some { s with consumer := if len = 0 then .idle else .readHead false len }
    else none
  | .peek len =>
    if s.consumer.free then
      some { s with consumer := if len = 0 then .idle else .readHead true len }
    else none
  | .linearReadablePtr =>
    if s.consumer.free then some { s with consumer := .ptrHead } else none
  | .look off n =>
    match s.consumer with
    | .looking base len =>
      if off + n ≤ len then
        some { s with
          copied := s.copied ++ [(s.taken.length + off, slice s.ring.buf_ (base + off) n)] }
      else none
    | _ => none
  | .advanceReadIndex n =>
    if s.consumer.free then
      some { s with consumer := if n = 0 then .idle else .advanceHead n }
    else none
  | .consumer => s.consume

end RingSpsc

end Athena
