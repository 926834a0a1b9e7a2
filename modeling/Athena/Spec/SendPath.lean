import Athena.ForStd.Run
import Athena.Spec.Frame

/-!
# The send path of one channel

`Sender` is a channel together with the `uv_write` requests libuv still has to
complete.  Its actions are the calls that reach the send ring (from the loop
thread), the completion callbacks, and `close()` from any thread.  `written` and
`frames` record the bytes of the completed writes and the messages whose frame
went into the ring; the code does not read them.

## Key results

- `Sender.inv_run`: every reachable state is `Sender.Sound` (at most one write, its
  buffer is the front of the ring, the byte stream is the concatenation of whole
  frames, and an open channel with unsent bytes has a write in flight)
- `Sender.step_keeps_write`: a step other than its completion leaves a write's bytes
  and the read index alone
- `Sender.frames_run`: the link mode never changes, and no appended frame is longer
  than `MAX_PACKET_SIZE`
- `Sender.send_path_integrity`: both together
-/

namespace Athena

open Channel RingByteBuf

/-- A message handed to a send function. -/
structure OutMsg where
  msgId : Int32
  body : List UInt8
  playerId : Int64
  deriving DecidableEq

/-- Its frame on a link of the given mode. -/
def OutMsg.frame (mode : ProtoMode) (m : OutMsg) : List UInt8 :=
  Channel.frame mode m.msgId m.body m.playerId

/-- What happens on the send path. -/
inductive SendAct where
  /-- `eventLoopWrite`; the arguments are those of the function. -/
  | write (packBuf raced : Bool) (ret : Int) (msgId : Int32) (msg : Message) (playerId : Int64)
  /-- `eventLoopRawWrite`. -/
  | rawWrite (raced : Bool) (ret : Int) (msg : OutMsg)
  /-- The callback of the `i`-th outstanding request; `ret` is for the next `uv_write`. -/
  | writeDone (i : Nat) (status ret : Int)
  /-- `close()`, from any thread. -/
  | close
  /-- `closeInLoop`: `uv_close` on the tcp handle. -/
  | closeInLoop

/-- One channel's send path. -/
structure Sender where
  chan : Channel
  /-- the requests libuv has accepted and not completed -/
  writes : List UvWrite
  /-- `uv_close` has been called on the tcp handle -/
  uvClosed : Bool
  /-- the bytes of the requests completed successfully -/
  written : List UInt8
  /-- the messages whose frame was appended -/
  frames : List OutMsg

namespace Sender

/-- A channel before its first message. -/
def init (ch : Channel) : Sender :=
  { chan := ch, writes := [], uvClosed := false, written := [], frames := [] }

/-- The bytes a request points to. -/
def bytesOf (s : Sender) (w : UvWrite) : List UInt8 :=
  Cyclic.slice s.chan.send_buff.buf_ w.base w.len

/-- Record what a send function did. -/
def sent (s : Sender) (out : SendOut) (msg : OutMsg) : Sender :=
  { s with
    chan := out.chan
    writes := s.writes ++ out.issued.toList
    frames := if out.appended then s.frames ++ [msg] else s.frames }

/-- One step.  libuv completes each accepted request once, with `UV_ECANCELED` only
    after `uv_close`; `closeInLoop` runs once, after `close()`. -/
def step (s : Sender) : SendAct → Option Sender
  | .write packBuf raced ret msgId msg playerId =>
    some (s.sent (eventLoopWrite packBuf raced ret s.chan msgId msg playerId)
      { msgId := msgId, body := msg.serialize.getD [], playerId := playerId })
  | .rawWrite raced ret msg =>
    some (s.sent (eventLoopRawWrite raced ret s.chan msg.msgId msg.body msg.playerId) msg)
  | .writeDone i status ret =>
    match s.writes[i]? with
    | none => none
    | some w =>
      if status = UV_ECANCELED ∧ s.uvClosed = false then none
      else
        let (ch, issued) := onWriteDone status ret w s.chan
        some
          { s with
            chan := ch
            writes := s.writes.eraseIdx i ++ issued.toList
            written := if status < 0 then s.written else s.written ++ s.bytesOf w }
  | .close => some { s with chan := s.chan.close }
  | .closeInLoop =>
    if s.chan.closed_ = true ∧ s.uvClosed = false then some { s with uvClosed := true } else none

/-- What holds in every state between two calls on the loop thread. -/
structure Sound (s : Sender) : Prop where
  /-- at most one `uv_write` is outstanding -/
  one_write : s.writes.length ≤ 1
  /-- its buffer is the first `sendSize` readable bytes of the ring -/
  front : ∀ w ∈ s.writes, w.base = s.chan.send_buff.head_.toNat ∧
    w.len = toSize w.pack.sendSize ∧ w.len ≤ s.chan.send_buff.readableBytes ∧
    s.bytesOf w = s.chan.send_buff.contents.take (toSize w.pack.sendSize)
  /-- the bytes written and those in the ring are whole frames -/
  stream : s.written ++ s.chan.send_buff.contents =
    (s.frames.map (OutMsg.frame s.chan.proto_mode)).flatten
  /-- an open channel with bytes to send is sending -/
  live : s.chan.closed_ = false → s.chan.send_buff.contents ≠ [] → s.writes ≠ []

end Sender

/-! ## What one call does -/

/-- The request points at the first `sendSize` readable bytes of the ring. -/
structure FrontWrite (r : RingByteBuf) (w : UvWrite) : Prop where
  base_eq : w.base = r.head_.toNat
  len_eq : w.len = toSize w.pack.sendSize
  len_pos : 0 < w.len
  len_le : w.len ≤ r.readableBytes
  inside : w.base + w.len ≤ r.capacity + 1

/-- Appending behind a request's bytes keeps it at the front. -/
theorem FrontWrite.mono {r r' : RingByteBuf} {w : UvWrite} (h : FrontWrite r w)
    (hhead : r'.head_ = r.head_) (hcap : r'.capacity = r.capacity)
    (hle : r.readableBytes ≤ r'.readableBytes) : FrontWrite r' w where
  base_eq := by rw [hhead]; exact h.base_eq
  len_eq := h.len_eq
  len_pos := h.len_pos
  len_le := Nat.le_trans h.len_le hle
  inside := by rw [hcap]; exact h.inside

/-- The bytes a front request points at. -/
theorem FrontWrite.bytes_eq {r : RingByteBuf} {w : UvWrite} (h : FrontWrite r w) :
    Cyclic.slice r.buf_ w.base w.len = r.contents.take w.len := by
  have hin := h.inside
  rw [h.base_eq] at hin ⊢
  exact slice_head h.len_le (by rw [length_buf]; exact hin)

namespace Channel

/-- `doUvSend` gives up on a closed channel, does nothing on an empty ring, closes
    when `uv_write` fails, and otherwise issues a write of the front of the ring. -/
theorem doUvSend_cases (ret : Int) (ch : Channel) :
    (doUvSend ret ch = (ch, none) ∧ (ch.closed_ = true ∨ ch.send_buff.contents = [])) ∨
    (doUvSend ret ch = (ch.close, none)) ∨
    (∃ w, doUvSend ret ch = (ch, some w) ∧ ch.closed_ = false ∧ FrontWrite ch.send_buff w) := by
  rw [doUvSend]
  -- closed, nothing to write, a refusal of libuv, or a write
  split
  · rename_i hcl
    exact .inl ⟨rfl, .inl hcl⟩
  · rename_i hcl
    simp only
    split
    · rename_i h0
      refine .inl ⟨rfl, .inr ?_⟩
      by_contra hne
      exact Nat.ne_of_gt (linearReadablePtr_pos hne) h0
    · rename_i hne
      split
      · exact .inr (.inl rfl)
      · refine .inr (.inr ⟨_, rfl, by simpa using hcl, ?_⟩)
        -- the pointer is inside the buffer, and the length is below the wrap
        have hbase := linearReadablePtr_isSome hne
        have hin := (linearReadablePtr_base hbase).2
        have hle := ch.send_buff.linearReadablePtr_le
        have hcap := ch.send_buff.readableBytes_le
        have hlt : ch.send_buff.linearReadablePtr.2 < 2 ^ 31 := by
          have := ch.send_capacity_lt
          omega
        have hlen : (UInt32.ofNat ch.send_buff.linearReadablePtr.2).toNat =
            ch.send_buff.linearReadablePtr.2 := by
          rw [UInt32.toNat_ofNat']; omega
        exact
          { base_eq := by simp only [hbase, Option.getD_some]
            len_eq := by simp only [hlen, toSize_ofNat hlt]
            len_pos := by simp only [hlen]; omega
            len_le := by simp only [hlen]; exact hle
            inside := by
              simp only [hlen, hbase, Option.getD_some]
              rw [length_buf] at hin
              exact hin }

/-- `doUvSend` never reopens a channel. -/
theorem doUvSend_closed (ret : Int) {ch : Channel} (h : ch.closed_ = true) :
    (doUvSend ret ch).1.closed_ = true := by
  rw [doUvSend, if_pos h]; exact h

/-- A completion callback never reopens a channel. -/
theorem onWriteDone_closed (status ret : Int) (req : UvWrite) {ch : Channel}
    (h : ch.closed_ = true) : (onWriteDone status ret req ch).1.closed_ = true := by
  simp only [onWriteDone]
  split
  · split
    · rfl
    · exact h
  · split
    · exact doUvSend_closed ret h
    · rfl

/-- A completion callback does not change the link mode. -/
theorem onWriteDone_proto_mode (status ret : Int) (req : UvWrite) (ch : Channel) :
    (onWriteDone status ret req ch).1.proto_mode = ch.proto_mode := by
  simp only [onWriteDone]
  split
  · split <;> rfl
  · split
    · rcases doUvSend_cases ret (ch.setSend (ch.send_buff.advanceReadIndex
        (toSize req.pack.sendSize)).2 (capacity_advanceReadIndex _ _)) with
        ⟨h, -⟩ | h | ⟨w, h, -⟩ <;> rw [h] <;> rfl
    · rfl

/-- What the end of a send function does when the frame fits: the frame is appended,
    and a write is issued exactly when it was asked for and the channel is not
    closed on the way. -/
theorem appendAndSend_spec {raced : Bool} {ret : Int} {ch : Channel} {needCallSend : Bool}
    {msgId : Int32} {body : List UInt8} {playerId : Int64} {out : SendOut}
    (hout : out = appendAndSend raced ret ch needCallSend msgId body playerId)
    (hfit : body.length + headerLen ch.proto_mode ≤ ch.send_buff.writableBytes) :
    out.appended = true ∧
    out.chan.send_buff.contents =
      ch.send_buff.contents ++ frame ch.proto_mode msgId body playerId ∧
    out.chan.send_buff.head_ = ch.send_buff.head_ ∧
    out.chan.send_buff.capacity = ch.send_buff.capacity ∧
    out.chan.proto_mode = ch.proto_mode ∧
    ((needCallSend = false ∧ out.issued = none ∧ (ch.closed_ = true → out.chan.closed_ = true)) ∨
     (needCallSend = true ∧
      ((out.issued = none ∧ out.chan.closed_ = true) ∨
       ∃ w, out.issued = some w ∧ FrontWrite out.chan.send_buff w))) := by
  obtain ⟨hc, hh⟩ := writeFrame_spec msgId playerId hfit
  have hcap := capacity_writeFrame ch.send_buff ch.proto_mode msgId body playerId
  cases needCallSend with
  | false =>
    subst hout
    refine ⟨rfl, hc, hh, hcap, rfl, .inl ⟨rfl, rfl, ?_⟩⟩
    intro hcl
    simp [appendAndSend, setSend, hcl]
  | true =>
    -- the channel `doUvSend` sees
    let ch' : Channel :=
      { ch.setSend (writeFrame ch.send_buff ch.proto_mode msgId body playerId) hcap with
        closed_ := ch.closed_ || raced }
    have hout' : out =
        { chan := (doUvSend ret ch').1, appended := true, issued := (doUvSend ret ch').2 } := hout
    have hne : ch'.send_buff.contents ≠ [] := by
      rw [show ch'.send_buff.contents = _ from hc]
      simp [frame_ne_nil]
    rcases doUvSend_cases ret ch' with ⟨h, hcl | hnil⟩ | h | ⟨w, h, -, hw⟩
    · rw [h] at hout'
      subst hout'
      exact ⟨rfl, hc, hh, hcap, rfl, .inr ⟨rfl, .inl ⟨rfl, hcl⟩⟩⟩
    · exact absurd hnil hne
    · rw [h] at hout'
      subst hout'
      exact ⟨rfl, hc, hh, hcap, rfl, .inr ⟨rfl, .inl ⟨rfl, rfl⟩⟩⟩
    · rw [h] at hout'
      subst hout'
      exact ⟨rfl, hc, hh, hcap, rfl, .inr ⟨rfl, .inr ⟨w, rfl, hw⟩⟩⟩

/-- A send function either drops the message and changes nothing, or appends its
    whole frame, which fits. -/
def Sends (raced : Bool) (ret : Int) (ch : Channel) (msgId : Int32) (body : List UInt8)
    (playerId : Int64) (out : SendOut) : Prop :=
  out = { chan := ch, appended := false, issued := none } ∨
  (ch.closed_ = false ∧ body.length + headerLen ch.proto_mode ≤ MAX_PACKET_SIZE ∧
    body.length + headerLen ch.proto_mode ≤ ch.send_buff.writableBytes ∧
    out = appendAndSend raced ret ch (ch.send_buff.readableBytes == 0) msgId body playerId)

/-- `eventLoopRawWrite` appends one frame, or leaves the channel as it is. -/
theorem eventLoopRawWrite_sends (raced : Bool) (ret : Int) (ch : Channel) (msgId : Int32)
    (body : List UInt8) (playerId : Int64) :
    Sends raced ret ch msgId body playerId
      (eventLoopRawWrite raced ret ch msgId body playerId) := by
  simp only [eventLoopRawWrite]
  split
  · exact .inl rfl
  · rename_i hcl
    split
    · exact .inl rfl
    · rename_i hmax
      split
      · exact .inl rfl
      · rename_i hfit
        exact .inr ⟨by simpa using hcl, by omega, by omega, rfl⟩

/-- `eventLoopWrite` appends one frame, or leaves the channel as it is. -/
theorem eventLoopWrite_sends (packBuf raced : Bool) (ret : Int) (ch : Channel) (msgId : Int32)
    (msg : Message) (playerId : Int64) :
    Sends raced ret ch msgId (msg.serialize.getD []) playerId
      (eventLoopWrite packBuf raced ret ch msgId msg playerId) := by
  simp only [eventLoopWrite]
  split
  · exact .inl rfl
  · rename_i hcl
    split
    · exact .inl rfl
    · rename_i hmax
      split
      · exact .inl rfl
      · rename_i hfit
        split
        · exact .inl rfl
        · cases hser : msg.serialize with
          | none => exact .inl rfl
          | some body =>
            have hlen := msg.length_serialize body hser
            exact .inr ⟨by simpa using hcl, by simp only [Option.getD_some]; omega,
              by simp only [Option.getD_some]; omega, rfl⟩

end Channel

/-! ## Steps and runs -/

namespace Sender

/-- The invariant: `Sound`, with the outstanding request described by `FrontWrite`. -/
structure Inv (s : Sender) : Prop where
  one_write : s.writes.length ≤ 1
  front : ∀ w ∈ s.writes, FrontWrite s.chan.send_buff w
  stream : s.written ++ s.chan.send_buff.contents =
    (s.frames.map (OutMsg.frame s.chan.proto_mode)).flatten
  live : s.chan.closed_ = false → s.chan.send_buff.contents ≠ [] → s.writes ≠ []
  closing : s.uvClosed = true → s.chan.closed_ = true

/-- What the invariant says about the bytes. -/
theorem Inv.sound {s : Sender} (h : Inv s) : Sound s where
  one_write := h.one_write
  front w hw := by
    have hf := h.front w hw
    refine ⟨hf.base_eq, hf.len_eq, hf.len_le, ?_⟩
    rw [bytesOf, hf.bytes_eq, hf.len_eq]
  stream := h.stream
  live := h.live

/-- It holds of a channel with an empty ring. -/
theorem inv_init {ch : Channel} (h : ch.send_buff.contents = []) : Inv (init ch) where
  one_write := Nat.zero_le 1
  front w hw := by simp [init] at hw
  stream := by simp [init, h]
  live _ hne := absurd h hne
  closing hu := by simp [init] at hu

/-- No request is outstanding while the ring is empty. -/
theorem Inv.writes_nil {s : Sender} (h : Inv s) (h0 : s.chan.send_buff.readableBytes = 0) :
    s.writes = [] := by
  rcases hw : s.writes with _ | ⟨w, ws⟩
  · rfl
  · have hf := h.front w (by rw [hw]; exact List.mem_cons_self)
    have := hf.len_pos
    have := hf.len_le
    omega

/-- A send function keeps the invariant. -/
theorem inv_sent {s : Sender} {raced : Bool} {ret : Int} {out : SendOut} {msg : OutMsg}
    (h : Inv s) (hout : Sends raced ret s.chan msg.msgId msg.body msg.playerId out) :
    Inv (s.sent out msg) := by
  rcases hout with rfl | ⟨hcl, -, hfit, hout⟩
  · -- dropped
    exact { one_write := by simpa [sent] using h.one_write
            front := fun w hw => h.front w (by simpa [sent] using hw)
            stream := by simpa [sent] using h.stream
            live := by simpa [sent] using h.live
            closing := by simpa [sent] using h.closing }
  have hopen : s.uvClosed = false := by
    by_contra hu
    simp [h.closing (by simpa using hu)] at hcl
  obtain ⟨happ, hc, hh, hcap, hmode, hsend⟩ := appendAndSend_spec hout hfit
  have hgrow : s.chan.send_buff.readableBytes ≤ out.chan.send_buff.readableBytes := by
    rw [← length_contents, ← length_contents, hc, List.length_append]
    omega
  have hstream : s.written ++ out.chan.send_buff.contents =
      ((s.frames ++ [msg]).map (OutMsg.frame out.chan.proto_mode)).flatten := by
    rw [hc, hmode, List.map_append, List.flatten_append, ← h.stream, List.append_assoc]
    simp [OutMsg.frame]
  rcases hsend with ⟨hneed, hiss, -⟩ | ⟨hneed, hiss⟩
  · -- bytes were waiting: the write in flight stays, and will be followed by another
    have hne : s.chan.send_buff.contents ≠ [] := by
      intro h'
      rw [beq_eq_false_iff_ne] at hneed
      exact hneed (by rw [← length_contents, h']; rfl)
    exact { one_write := by simpa [sent, hiss] using h.one_write
            front := fun w hw =>
              (h.front w (by simpa [sent, hiss] using hw)).mono hh hcap hgrow
            stream := by simpa [sent, happ] using hstream
            live := fun _ _ => by simpa [sent, hiss] using h.live hcl hne
            closing := fun hu => by simp [sent, hopen] at hu }
  · -- the ring was empty: nothing is in flight, and this call sends
    have hnil : s.writes = [] := h.writes_nil (by simpa using hneed)
    rcases hiss with ⟨hiss, hclosed⟩ | ⟨w, hiss, hw⟩
    · exact { one_write := by simp [sent, hiss, hnil]
              front := fun w hw => by simp [sent, hiss, hnil] at hw
              stream := by simpa [sent, happ] using hstream
              live := fun hcl' => by simp [sent, hclosed] at hcl'
              closing := fun hu => by simp [sent, hopen] at hu }
    · exact { one_write := by simp [sent, hiss, hnil]
              front := fun w' hw' => by
                obtain rfl : w' = w := by simpa [sent, hiss, hnil] using hw'
                exact hw
              stream := by simpa [sent, happ] using hstream
              live := fun _ _ => by simp [sent, hiss]
              closing := fun hu => by simp [sent, hopen] at hu }

/-- The only outstanding request is the one a callback can be for. -/
theorem Inv.writes_eq {s : Sender} (h : Inv s) {i : Nat} {w : UvWrite}
    (hw : s.writes[i]? = some w) : s.writes = [w] ∧ i = 0 := by
  obtain ⟨hi, hget⟩ := List.getElem?_eq_some_iff.mp hw
  have h1 := h.one_write
  obtain rfl : i = 0 := by omega
  rcases hws : s.writes with _ | ⟨w', _ | ⟨w'', ws⟩⟩
  · simp [hws] at hi
  · simp only [hws, List.getElem_cons_zero] at hget
    exact ⟨by rw [hget], rfl⟩
  · simp [hws] at h1

/-- A completion callback keeps the invariant. -/
theorem inv_writeDone {s s' : Sender} {i : Nat} {status ret : Int} (h : Inv s)
    (hstep : s.step (.writeDone i status ret) = some s') : Inv s' := by
  simp only [step] at hstep
  cases hw : s.writes[i]? with
  | none => simp only [hw] at hstep; exact nomatch hstep
  | some w =>
    obtain ⟨hws, rfl⟩ := h.writes_eq hw
    have hf := h.front w (by rw [hws]; exact List.mem_cons_self)
    simp only [hw] at hstep
    split at hstep
    · exact nomatch hstep
    · rename_i hstat
      obtain rfl := Option.some.inj hstep
      have hclosing : s.uvClosed = true →
          (onWriteDone status ret w s.chan).1.closed_ = true := fun hu =>
        onWriteDone_closed status ret w (h.closing hu)
      by_cases hneg : status < 0
      · -- a failed write: the channel is closed, now or before
        have hclosed : (onWriteDone status ret w s.chan).1.closed_ = true := by
          simp only [onWriteDone, if_pos hneg]
          split
          · rfl
          · rename_i hc
            apply h.closing
            by_contra hu
            exact hstat ⟨by simpa using hc, by simpa using hu⟩
        have hsame : (onWriteDone status ret w s.chan).1.send_buff = s.chan.send_buff ∧
            (onWriteDone status ret w s.chan).1.proto_mode = s.chan.proto_mode ∧
            (onWriteDone status ret w s.chan).2 = none := by
          simp only [onWriteDone, if_pos hneg]
          split <;> simp [Channel.close]
        exact { one_write := by simp [hws, hsame.2.2]
                front := fun w' hw' => by simp [hws, hsame.2.2] at hw'
                stream := by simpa [hneg, hsame.1, hsame.2.1] using h.stream
                live := fun hopen => by simp [hclosed] at hopen
                closing := hclosing }
      · -- a completed write: its bytes leave the ring and the next write starts
        have hadv := advanceReadIndex_spec (r := s.chan.send_buff) (n := w.len) hf.len_le
        have hstream : s.written ++ s.bytesOf w ++ s.chan.send_buff.contents.drop w.len =
            (s.frames.map (OutMsg.frame s.chan.proto_mode)).flatten := by
          rw [bytesOf, hf.bytes_eq, List.append_assoc, List.take_append_drop, h.stream]
        let ch' : Channel := s.chan.setSend (s.chan.send_buff.advanceReadIndex w.len).2
          (capacity_advanceReadIndex _ _)
        have hdone : onWriteDone status ret w s.chan = doUvSend ret ch' := by
          simp only [onWriteDone, if_neg hneg, ← hf.len_eq, hadv.1, if_true]
          rfl
        have hc' : ch'.send_buff.contents = s.chan.send_buff.contents.drop w.len := hadv.2
        have hmode : ch'.proto_mode = s.chan.proto_mode := rfl
        rcases doUvSend_cases ret ch' with ⟨hd, hend⟩ | hd | ⟨w', hd, -, hw'⟩
        · rw [hdone, hd] at hclosing ⊢
          exact { one_write := by simp [hws]
                  front := fun w' hw' => by simp [hws] at hw'
                  stream := by simpa [hneg, hc', hmode] using hstream
                  live := fun hopen hne => by
                    rcases hend with hcl | hnil
                    · simp [hcl] at hopen
                    · exact absurd hnil hne
                  closing := hclosing }
        · rw [hdone, hd] at hclosing ⊢
          exact { one_write := by simp [hws]
                  front := fun w' hw' => by simp [hws] at hw'
                  stream := by simpa [hneg, hc', hmode, Channel.close] using hstream
                  live := fun hopen => by simp [Channel.close] at hopen
                  closing := hclosing }
        · rw [hdone, hd] at hclosing ⊢
          exact { one_write := by simp [hws]
                  front := fun w'' hw'' => by
                    obtain rfl : w'' = w' := by simpa [hws] using hw''
                    exact hw'
                  stream := by simpa [hneg, hc', hmode] using hstream
                  live := fun _ _ => by simp
                  closing := hclosing }

/-- Every step keeps it. -/
theorem inv_step {s s' : Sender} (a : SendAct) (h : Inv s) (hstep : s.step a = some s') :
    Inv s' := by
  cases a with
  | write packBuf raced ret msgId msg playerId =>
    obtain rfl := Option.some.inj hstep
    exact inv_sent h (eventLoopWrite_sends packBuf raced ret s.chan msgId msg playerId)
  | rawWrite raced ret msg =>
    obtain rfl := Option.some.inj hstep
    exact inv_sent h (eventLoopRawWrite_sends raced ret s.chan msg.msgId msg.body msg.playerId)
  | writeDone i status ret => exact inv_writeDone h hstep
  | close =>
    obtain rfl := Option.some.inj hstep
    exact { one_write := h.one_write, front := h.front, stream := h.stream
            live := fun hopen => by simp [Channel.close] at hopen
            closing := fun _ => rfl }
  | closeInLoop =>
    simp only [step] at hstep
    split at hstep
    · rename_i hc
      obtain rfl := Option.some.inj hstep
      exact { one_write := h.one_write, front := h.front, stream := h.stream
              live := h.live, closing := fun _ => hc.1 }
    · exact nomatch hstep

/-- A run of the send path of one channel, from its construction on. -/
theorem inv_run {ch : Channel} {acts : List SendAct} {s : Sender}
    (h : ch.send_buff.contents = []) (hrun : Run.run step (init ch) acts = some s) : Inv s :=
  Run.invariant (fun _ a _ hs hstep => inv_step a hs hstep) (inv_init h) hrun

/-- A step that is not a completion leaves every outstanding request's bytes and the
    read index alone. -/
theorem step_keeps_write {s s' : Sender} {a : SendAct} (h : Inv s) (hstep : s.step a = some s')
    (ha : ∀ i status ret, a ≠ .writeDone i status ret) {w : UvWrite} (hw : w ∈ s.writes) :
    w ∈ s'.writes ∧ s'.bytesOf w = s.bytesOf w ∧
      s'.chan.send_buff.head_ = s.chan.send_buff.head_ := by
  have hsent : ∀ {raced ret out} {msg : OutMsg},
      Sends raced ret s.chan msg.msgId msg.body msg.playerId out →
      w ∈ (s.sent out msg).writes ∧ (s.sent out msg).bytesOf w = s.bytesOf w ∧
        (s.sent out msg).chan.send_buff.head_ = s.chan.send_buff.head_ := by
    intro raced ret out msg hout
    refine ⟨by simp [sent, hw], ?_⟩
    rcases hout with rfl | ⟨-, -, hfit, hout⟩
    · exact ⟨rfl, rfl⟩
    · -- the frame goes behind the request's bytes
      obtain ⟨-, hc, hh, hcap, -, -⟩ := appendAndSend_spec hout hfit
      have hgrow : s.chan.send_buff.readableBytes ≤ out.chan.send_buff.readableBytes := by
        rw [← length_contents, ← length_contents, hc, List.length_append]
        omega
      have hf := h.front w hw
      have hf' := hf.mono hh hcap hgrow
      refine ⟨?_, hh⟩
      rw [bytesOf, bytesOf, hf.bytes_eq, show (s.sent out msg).chan = out.chan from rfl,
        hf'.bytes_eq, hc, List.take_append_of_le_length]
      rw [length_contents]; exact hf.len_le
  cases a with
  | write packBuf raced ret msgId msg playerId =>
    obtain rfl := Option.some.inj hstep
    exact hsent (eventLoopWrite_sends packBuf raced ret s.chan msgId msg playerId)
  | rawWrite raced ret msg =>
    obtain rfl := Option.some.inj hstep
    exact hsent (eventLoopRawWrite_sends raced ret s.chan msg.msgId msg.body msg.playerId)
  | writeDone i status ret => exact absurd rfl (ha i status ret)
  | close =>
    obtain rfl := Option.some.inj hstep
    exact ⟨hw, rfl, rfl⟩
  | closeInLoop =>
    simp only [step] at hstep
    split at hstep
    · obtain rfl := Option.some.inj hstep
      exact ⟨hw, rfl, rfl⟩
    · exact nomatch hstep

/-! ## The frames -/

/-- A channel on a link of the given mode, and frames within the size limit. -/
def FramesOf (mode : ProtoMode) (s : Sender) : Prop :=
  s.chan.proto_mode = mode ∧
    ∀ m ∈ s.frames, m.body.length + headerLen mode ≤ MAX_PACKET_SIZE

/-- A message that is sent has a frame of its own. -/
theorem frames_sent {mode : ProtoMode} {s : Sender} {raced : Bool} {ret : Int} {out : SendOut}
    {msg : OutMsg} (h : FramesOf mode s)
    (hout : Sends raced ret s.chan msg.msgId msg.body msg.playerId out) :
    FramesOf mode (s.sent out msg) := by
  rcases hout with rfl | ⟨-, hmax, hfit, hout⟩
  · exact h
  · obtain ⟨happ, -, -, -, hmode, -⟩ := appendAndSend_spec hout hfit
    refine ⟨hmode.trans h.1, fun m hm => ?_⟩
    simp only [sent, happ, if_true, List.mem_append, List.mem_singleton] at hm
    rcases hm with hm | rfl
    · exact h.2 m hm
    · rw [← h.1]; exact hmax

/-- Every step keeps the frames. -/
theorem frames_step {mode : ProtoMode} {s s' : Sender} (a : SendAct) (h : FramesOf mode s)
    (hstep : s.step a = some s') : FramesOf mode s' := by
  cases a with
  | write packBuf raced ret msgId msg playerId =>
    obtain rfl := Option.some.inj hstep
    exact frames_sent h (eventLoopWrite_sends packBuf raced ret s.chan msgId msg playerId)
  | rawWrite raced ret msg =>
    obtain rfl := Option.some.inj hstep
    exact frames_sent h (eventLoopRawWrite_sends raced ret s.chan msg.msgId msg.body msg.playerId)
  | writeDone i status ret =>
    simp only [step] at hstep
    cases hw : s.writes[i]? with
    | none => simp only [hw] at hstep; exact nomatch hstep
    | some w =>
      simp only [hw] at hstep
      split at hstep
      · exact nomatch hstep
      · obtain rfl := Option.some.inj hstep
        exact ⟨(onWriteDone_proto_mode status ret w s.chan).trans h.1, h.2⟩
  | close =>
    obtain rfl := Option.some.inj hstep
    exact h
  | closeInLoop =>
    simp only [step] at hstep
    split at hstep
    · obtain rfl := Option.some.inj hstep
      exact h
    · exact nomatch hstep

/-- The frames a run appends are within the size limit. -/
theorem frames_run {ch : Channel} {acts : List SendAct} {s : Sender}
    (hrun : Run.run step (init ch) acts = some s) : FramesOf ch.proto_mode s :=
  Run.invariant (fun _ a _ hs hstep => frames_step a hs hstep) ⟨rfl, by simp [init]⟩ hrun

/-- Send-path integrity.  In every state a channel's send path reaches, at most one
    `uv_write` is outstanding, it covers the front of the ring, the bytes written
    and buffered are the frames of the messages that were not dropped, and an open
    channel with buffered bytes is writing; and until its completion no step touches
    a write's bytes or the read index. -/
theorem send_path_integrity (malloc : Malloc) (id : UInt32) (recvBuffSize sendBuffSize : UInt64)
    (mode : ProtoMode) (acts : List SendAct) (s : Sender)
    (hrun : Run.run step (init (Channel.new malloc id recvBuffSize sendBuffSize mode)) acts =
      some s) :
    Sound s ∧
    ∀ a s', s.step a = some s' → (∀ i status ret, a ≠ .writeDone i status ret) →
      ∀ w ∈ s.writes, w ∈ s'.writes ∧ s'.bytesOf w = s.bytesOf w ∧
        s'.chan.send_buff.head_ = s.chan.send_buff.head_ := by
  have hinv := inv_run (new_contents (newBuffer_eq malloc sendBuffSize)) hrun
  exact ⟨hinv.sound, fun a s' hstep ha w hw => step_keeps_write hinv hstep ha hw⟩

/-- The second frame wraps around the end of the ring: its first part is in flight
    when the channel is closed. -/
theorem send_path_integrity_wrapped :
    ∃ s, Run.run step (init (Channel.new zeroed 1 24 24 .INNER))
      [.rawWrite false 0 ⟨-7, [1, 2, 3], 5⟩, .writeDone 0 0 0,
        .rawWrite false 0 ⟨300, [4, 5, 6, 7, 8], -9⟩, .close] = some s ∧
      s.writes = [⟨19, 13, ⟨13⟩⟩] ∧ Sound s := by
  have hwrites : (Run.run step (init (Channel.new zeroed 1 24 24 .INNER))
      [.rawWrite false 0 ⟨-7, [1, 2, 3], 5⟩, .writeDone 0 0 0,
        .rawWrite false 0 ⟨300, [4, 5, 6, 7, 8], -9⟩, .close]).map writes =
      some [⟨19, 13, ⟨13⟩⟩] := by decide
  obtain ⟨s, hrun, hw⟩ := Option.map_eq_some_iff.mp hwrites
  exact ⟨s, hrun, hw, (send_path_integrity zeroed 1 24 24 .INNER _ s hrun).1⟩

end Sender

end Athena
