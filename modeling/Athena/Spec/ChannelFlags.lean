import Athena.Spec.Parse

/-!
# What the functions of a channel leave alone

Sending and receiving never clear `closed_`, never touch the two flags of the close
callbacks, and issue a `uv_write` only on a channel that is not closed.

## Key results

- `eventLoopWrite_keeps`, `eventLoopRawWrite_keeps`, `onWriteDone_keeps`,
  `uv_read_cb_keeps`, `readEvent_keeps`
- `eventLoopWrite_issued`, `eventLoopRawWrite_issued`, `onWriteDone_issued`
-/

namespace Athena.Channel

/-- `ch'` is `ch` after some of its own functions, as far as its life is concerned. -/
structure Keeps (ch ch' : Channel) : Prop where
  id_eq : ch'.id = ch.id
  tcp_closed_eq : ch'.tcp_closed_ = ch.tcp_closed_
  timer_closed_eq : ch'.timer_closed_ = ch.timer_closed_
  closed_mono : ch.closed_ = true → ch'.closed_ = true

variable {ch ch' ch'' : Channel}

/-- A channel left as it is. -/
theorem Keeps.refl (ch : Channel) : Keeps ch ch := ⟨rfl, rfl, rfl, fun hc => hc⟩

/-- Of two functions, one after the other. -/
theorem Keeps.trans (h : Keeps ch ch') (h' : Keeps ch' ch'') : Keeps ch ch'' where
  id_eq := h'.id_eq.trans h.id_eq
  tcp_closed_eq := h'.tcp_closed_eq.trans h.tcp_closed_eq
  timer_closed_eq := h'.timer_closed_eq.trans h.timer_closed_eq
  closed_mono hc := h'.closed_mono (h.closed_mono hc)

/-- `close` sets `closed_` and nothing else. -/
theorem close_keeps (ch : Channel) : Keeps ch ch.close := ⟨rfl, rfl, rfl, fun _ => rfl⟩

/-- The send ring is no part of a channel's life. -/
theorem setSend_keeps (r : RingByteBuf) (h : r.capacity = ch.send_buff.capacity) :
    Keeps ch (ch.setSend r h) := ⟨rfl, rfl, rfl, fun hc => hc⟩

/-- The receive ring is no part of a channel's life. -/
theorem setRecv_keeps (r : RingByteBuf) (h : r.capacity = ch.recv_buffer.capacity) :
    Keeps ch (ch.setRecv r h) := ⟨rfl, rfl, rfl, fun hc => hc⟩

/-! ## Sending -/

/-- `doUvSend` keeps it, also where libuv refuses the write. -/
theorem doUvSend_keeps (ret : Int) (ch : Channel) : Keeps ch (doUvSend ret ch).1 := by
  unfold doUvSend
  split
  · exact Keeps.refl ch
  · simp only
    split
    · exact Keeps.refl ch
    · split
      · exact close_keeps ch
      · exact Keeps.refl ch

/-- A closed channel writes nothing. -/
theorem doUvSend_issued {ret : Int} {w : UvWrite} (h : (doUvSend ret ch).2 = some w) :
    ch.closed_ = false := by
  cases hc : ch.closed_ with
  | false => rfl
  | true => simp [doUvSend, hc] at h

/-- A finished write keeps it. -/
theorem onWriteDone_keeps (status ret : Int) (w : UvWrite) (ch : Channel) :
    Keeps ch (onWriteDone status ret w ch).1 := by
  unfold onWriteDone
  split
  · -- the write has failed
    split
    · exact close_keeps ch
    · exact Keeps.refl ch
  · simp only
    split
    · exact (setSend_keeps _ _).trans (doUvSend_keeps _ _)
    · exact (setSend_keeps _ _).trans (close_keeps _)

/-- A finished write issues the next one on an open channel only. -/
theorem onWriteDone_issued {status ret : Int} {w w' : UvWrite}
    (h : (onWriteDone status ret w ch).2 = some w') : ch.closed_ = false := by
  unfold onWriteDone at h
  split at h
  · simp at h
  · simp only at h
    split at h
    · have hopen := doUvSend_issued h
      exact hopen
    · simp at h

/-- A frame that is appended and sent keeps it. -/
theorem appendAndSend_keeps (raced : Bool) (ret : Int) (ch : Channel) (needCallSend : Bool)
    (msgId : Int32) (body : List UInt8) (playerId : Int64) :
    Keeps ch (appendAndSend raced ret ch needCallSend msgId body playerId).chan := by
  -- another thread may close the channel between the append and the send
  have happend : Keeps ch
      { ch.setSend (writeFrame ch.send_buff ch.proto_mode msgId body playerId)
          (capacity_writeFrame _ _ _ _ _) with closed_ := ch.closed_ || raced } :=
    ⟨rfl, rfl, rfl, fun hc => by simp [hc]⟩
  unfold appendAndSend
  simp only
  split
  · exact happend.trans (doUvSend_keeps _ _)
  · exact happend

/-- `eventLoopRawWrite` keeps it, on each of its returns. -/
theorem eventLoopRawWrite_keeps (raced : Bool) (ret : Int) (ch : Channel) (msgId : Int32)
    (body : List UInt8) (playerId : Int64) :
    Keeps ch (eventLoopRawWrite raced ret ch msgId body playerId).chan := by
  unfold eventLoopRawWrite
  split
  · exact Keeps.refl ch
  · simp only
    split
    · exact Keeps.refl ch
    · split
      · exact Keeps.refl ch
      · exact appendAndSend_keeps _ _ _ _ _ _ _

/-- `eventLoopWrite` keeps it, on each of its returns. -/
theorem eventLoopWrite_keeps (packBuf raced : Bool) (ret : Int) (ch : Channel) (msgId : Int32)
    (msg : Message) (playerId : Int64) :
    Keeps ch (eventLoopWrite packBuf raced ret ch msgId msg playerId).chan := by
  unfold eventLoopWrite
  split
  · exact Keeps.refl ch
  · simp only
    split
    · exact Keeps.refl ch
    · split
      · exact Keeps.refl ch
      · split
        · exact Keeps.refl ch
        · split
          · exact Keeps.refl ch
          · exact appendAndSend_keeps _ _ _ _ _ _ _

/-- `eventLoopRawWrite` writes on an open channel only. -/
theorem eventLoopRawWrite_issued {raced : Bool} {ret : Int} {msgId : Int32} {body : List UInt8}
    {playerId : Int64} {w : UvWrite}
    (h : (eventLoopRawWrite raced ret ch msgId body playerId).issued = some w) :
    ch.closed_ = false := by
  cases hc : ch.closed_ with
  | false => rfl
  | true => simp [eventLoopRawWrite, hc] at h

/-- `eventLoopWrite` writes on an open channel only. -/
theorem eventLoopWrite_issued {packBuf raced : Bool} {ret : Int} {msgId : Int32} {msg : Message}
    {playerId : Int64} {w : UvWrite}
    (h : (eventLoopWrite packBuf raced ret ch msgId msg playerId).issued = some w) :
    ch.closed_ = false := by
  cases hc : ch.closed_ with
  | false => rfl
  | true => simp [eventLoopWrite, hc] at h

/-! ## Receiving -/

/-- The allocation callback keeps it: a full ring closes the channel. -/
theorem uv_alloc_cb_keeps (ch : Channel) : Keeps ch ch.uv_alloc_cb.2 := by
  unfold uv_alloc_cb
  simp only
  split
  · exact close_keeps ch
  · exact Keeps.refl ch

/-- The bytes that libuv has read go into the receive ring, or nowhere. -/
theorem fill_keeps (buf : AllocBuf) (bytes : List UInt8) (ch : Channel) :
    Keeps ch (ch.fill buf bytes) := by
  cases buf with
  | ring len => exact setRecv_keeps _ (RingByteBuf.capacity_fillWritable _ _)
  | dummy => exact Keeps.refl ch

/-- The bookkeeping of a read keeps it. -/
theorem onRead_keeps (nread : Int) (ch : Channel) : Keeps ch (ch.onRead nread) := by
  unfold onRead
  split
  · split
    · exact Keeps.refl ch
    · simp only
      split
      · exact setRecv_keeps _ _
      · exact (setRecv_keeps _ _).trans (close_keeps _)
  · split
    · exact close_keeps ch
    · exact Keeps.refl ch

/-- The channel a turn of the parse loop goes on with. -/
def Turn.chan : Turn → Channel
  | .leave ch => ch
  | .packet _ ch _ => ch

/-- A turn of the parse loop keeps it, also when a handler closes the channel. -/
theorem parseTurn_keeps (realloc : Nat → Bool) (closes : Bool) (ch : Channel) (maxLen : Nat) :
    Keeps ch (parseTurn realloc closes ch maxLen).chan := by
  obtain ⟨c, hc⟩ : ∃ c, c = if closes then ch.close else ch := ⟨_, rfl⟩
  -- what has closed the channel since the last turn
  have hstart : Keeps ch c := by
    rw [hc]
    split
    · exact close_keeps ch
    · exact Keeps.refl ch
  rw [parseTurn_eq realloc maxLen hc]
  refine hstart.trans ?_
  split
  · exact Keeps.refl c
  · split
    · exact Keeps.refl c
    · exact close_keeps c
    · split
      · exact close_keeps c
      · exact setRecv_keeps _ (RingByteBuf.capacity_read _ _)

/-- The parse loop keeps it. -/
theorem parseLoop_keeps (realloc closing : Nat → Bool) (fuel k : Nat) (ch : Channel)
    (maxLen : Nat) : Keeps ch (parseLoop realloc closing fuel k ch maxLen).chan := by
  induction fuel generalizing k ch maxLen with
  | zero => exact Keeps.refl ch
  | succ fuel ih =>
    have hturn := parseTurn_keeps realloc (closing k) ch maxLen
    unfold parseLoop
    split
    · rename_i c hc
      rw [hc] at hturn
      exact hturn
    · rename_i packBuf c len hc
      rw [hc] at hturn
      exact hturn.trans (ih (k + 1) c len)

/-- The read callback keeps it. -/
theorem uv_read_cb_keeps (realloc closing : Nat → Bool) (nread : Int) (ch : Channel)
    (maxLen : Nat) : Keeps ch (uv_read_cb realloc closing nread ch maxLen).chan := by
  unfold uv_read_cb
  simp only
  split
  · exact onRead_keeps nread ch
  · exact (onRead_keeps nread ch).trans (parseLoop_keeps _ _ _ _ _ _)

/-- A read event keeps it, from the allocation to the last packet. -/
theorem readEvent_keeps (realloc closing : Nat → Bool) (bytes : List UInt8) (ch : Channel)
    (maxLen : Nat) : Keeps ch (readEvent realloc closing bytes ch maxLen).chan := by
  unfold readEvent
  exact (uv_alloc_cb_keeps ch).trans ((fill_keeps _ _ _).trans (uv_read_cb_keeps _ _ _ _ _))

end Athena.Channel
