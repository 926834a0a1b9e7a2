import Mathlib.Logic.Function.Basic
import Athena.Spec.FrameRoundTrip

/-!
# A connection between two nodes

Both ends of a TCP connection hold a `Channel`, which sends and receives over the same
`closed_` flag.  `Connection` has the two ends and the bytes that the kernels have taken
from one of them and not yet given to the other.  The kernel takes the bytes of an
outstanding `uv_write` from the send ring's memory whenever it likes, a few at a time, and
`uv_read_cb` goes through its parse loop turn by turn, so that send functions, completion
callbacks and `close()` of either end can come in between.

`got` and `packets` record what an end has read and what it has handed to `on_read`; the
code does not look at them.

## Key results

- `Sender.recvSame_step`: no action on the send path touches the receive ring
- `Endpoint.turns_parseLoop`: the turns that nothing interrupts are the parse loop
-/

namespace Athena

open Channel RingByteBuf

/-- The two ends of a connection. -/
inductive Side where
  | near
  | far
  deriving DecidableEq, Repr

/-- The other end. -/
def Side.peer : Side → Side
  | .near => .far
  | .far => .near

/-- The other end of the other end. -/
@[simp] theorem Side.peer_peer (s : Side) : s.peer.peer = s := by
  cases s <;> rfl

/-- The ends are two. -/
theorem Side.peer_ne (s : Side) : s.peer ≠ s := by
  cases s <;> decide

/-- There are no more ends. -/
theorem Side.eq_or_eq_peer (s t : Side) : t = s ∨ t = s.peer := by
  cases s <;> cases t <;> decide

/-- What happens at one end. -/
inductive EndAct where
  /-- a call on the send path -/
  | call (a : SendAct)
  /-- the kernel takes `n` more bytes of the outstanding `uv_write` -/
  | transmit (n : Nat)
  /-- `n` bytes arrive: `uv_alloc_cb`, and `uv_read_cb` up to its loop -/
  | read (n : Nat)
  /-- `uv_read_cb` with an error or `UV_EOF` -/
  | readFail (nread : Int)
  /-- one turn of the loop of `uv_read_cb`; the arguments are those of `parseTurn` (the
      scratch buffer is shared by the channels of an event loop) -/
  | turn (realloc : Nat → Bool) (maxPackBodyLen : Nat)

/-- One end of a connection. -/
structure Endpoint where
  /-- the channel and the requests of its send path -/
  send : Sender
  /-- how many bytes behind those of the completed requests the kernel has taken -/
  taken : Nat
  /-- `uv_read_cb` is in its loop -/
  parsing : Bool
  /-- the bytes read -/
  got : List UInt8
  /-- the packets handed to `on_read` -/
  packets : List (List UInt8)

namespace Endpoint

/-- An end with a new channel. -/
def init (ch : Channel) : Endpoint :=
  { send := .init ch, taken := 0, parsing := false, got := [], packets := [] }

/-- The channel. -/
def chan (e : Endpoint) : Channel := e.send.chan

/-- The same end after a function on its channel. -/
def setChan (e : Endpoint) (ch : Channel) : Endpoint :=
  { e with send := { e.send with chan := ch } }

/-- The channel that was set. -/
@[simp] theorem chan_setChan (e : Endpoint) (ch : Channel) : (e.setChan ch).chan = ch := rfl

/-- The bytes that the kernel has taken so far. -/
def out (e : Endpoint) : List UInt8 :=
  e.send.written ++ e.chan.send_buff.contents.take e.taken

/-- A call on the send path.  A request is completed successfully when the kernel has
    taken all of its bytes. -/
def call (e : Endpoint) : SendAct → Option Endpoint
  | .writeDone i status ret =>
    match e.send.writes[i]? with
    | none => none
    | some w =>
      if 0 ≤ status ∧ e.taken < w.len then none
      else
        (e.send.step (.writeDone i status ret)).map fun send =>
          { e with send := send, taken := if status < 0 then e.taken else e.taken - w.len }
  | a => (e.send.step a).map fun send => { e with send := send }

/-- The kernel takes bytes of the outstanding request. -/
def transmit (e : Endpoint) (n : Nat) : Option (Endpoint × List UInt8) :=
  match e.send.writes with
  | [] => none
  | w :: _ =>
    if e.send.uvClosed = false ∧ e.taken + n ≤ w.len then
      some ({ e with taken := e.taken + n }, ((e.send.bytesOf w).drop e.taken).take n)
    else none

/-- The first `n` of the bytes that have come in are read into the window that
    `uv_alloc_cb` offers. -/
def read (e : Endpoint) (wire : List UInt8) (n : Nat) : Option Endpoint :=
  if e.parsing = false ∧ e.send.uvClosed = false ∧ n ≤ wire.length ∧
      n ≤ e.chan.uv_alloc_cb.1.len then
    let (buf, ch) := e.chan.uv_alloc_cb
    let ch := (ch.fill buf (wire.take n)).onRead n
    some { e.setChan ch with
           parsing := decide (0 < n) && !ch.closed_
           got := e.got ++ wire.take n }
  else none

/-- A failed read. -/
def readFail (e : Endpoint) (nread : Int) : Option Endpoint :=
  if e.parsing = false ∧ e.send.uvClosed = false ∧ nread < 0 then
    some (e.setChan (e.chan.onRead nread))
  else none

/-- A turn of the parse loop. -/
def turn (e : Endpoint) (realloc : Nat → Bool) (maxPackBodyLen : Nat) : Option Endpoint :=
  if e.parsing = true then
    match parseTurn realloc false e.chan maxPackBodyLen with
    | .leave ch => some { e.setChan ch with parsing := false }
    | .packet packBuf ch _ => some { e.setChan ch with packets := e.packets ++ [packBuf] }
  else none

end Endpoint

/-- Two ends, and for each the bytes that are on their way from it. -/
structure Connection where
  ends : Side → Endpoint
  wire : Side → List UInt8

namespace Connection

/-- A connection that has just been made. -/
def init (near far : Channel) : Connection where
  ends
    | .near => .init near
    | .far => .init far
  wire _ := []

/-- Replace one end. -/
def put (c : Connection) (s : Side) (e : Endpoint) : Connection :=
  { c with ends := Function.update c.ends s e }

/-- Something happens at the end `x.1`. -/
def step (c : Connection) (x : Side × EndAct) : Option Connection :=
  match x.2 with
  | .call a => ((c.ends x.1).call a).map (c.put x.1)
  | .transmit n =>
    ((c.ends x.1).transmit n).map fun (e, bytes) =>
      { c.put x.1 e with wire := Function.update c.wire x.1 (c.wire x.1 ++ bytes) }
  | .read n =>
    ((c.ends x.1).read (c.wire x.1.peer) n).map fun e =>
      { c.put x.1 e with
        wire := Function.update c.wire x.1.peer ((c.wire x.1.peer).drop n) }
  | .readFail nread => ((c.ends x.1).readFail nread).map (c.put x.1)
  | .turn realloc maxPackBodyLen =>
    ((c.ends x.1).turn realloc maxPackBodyLen).map (c.put x.1)

end Connection

/-! ## What a call changes -/

namespace Channel

/-- Two states of a channel with the same send ring, the second no less closed. -/
structure SendSame (ch ch' : Channel) : Prop where
  ring : ch'.send_buff = ch.send_buff
  mode : ch'.proto_mode = ch.proto_mode
  closed : ch.closed_ = true → ch'.closed_ = true

/-- Two states of a channel with the same receive ring, the second no less closed. -/
structure RecvSame (ch ch' : Channel) : Prop where
  ring : ch'.recv_buffer = ch.recv_buffer
  mode : ch'.proto_mode = ch.proto_mode
  closed : ch.closed_ = true → ch'.closed_ = true

/-- Nothing has changed. -/
theorem RecvSame.refl (ch : Channel) : RecvSame ch ch := ⟨rfl, rfl, fun h => h⟩

/-- Of two changes, one after the other. -/
theorem RecvSame.trans {ch ch' ch'' : Channel} (h : RecvSame ch ch') (h' : RecvSame ch' ch'') :
    RecvSame ch ch'' where
  ring := h'.ring.trans h.ring
  mode := h'.mode.trans h.mode
  closed hc := h'.closed (h.closed hc)

/-- `close` leaves the receive ring. -/
theorem RecvSame.close (ch : Channel) : RecvSame ch ch.close := ⟨rfl, rfl, fun _ => rfl⟩

/-- `close` leaves the send ring. -/
theorem SendSame.close (ch : Channel) : SendSame ch ch.close := ⟨rfl, rfl, fun _ => rfl⟩

/-- The send ring may be any. -/
theorem RecvSame.setSend (ch : Channel) (r : RingByteBuf)
    (h : r.capacity = ch.send_buff.capacity) : RecvSame ch (ch.setSend r h) :=
  ⟨rfl, rfl, fun hc => hc⟩

/-- `doUvSend` leaves the receive ring. -/
theorem recvSame_doUvSend (ret : Int) (ch : Channel) : RecvSame ch (doUvSend ret ch).1 := by
  rcases doUvSend_cases ret ch with ⟨h, -⟩ | h | ⟨w, h, -⟩
  · rw [h]; exact .refl ch
  · rw [h]; exact .close ch
  · rw [h]; exact .refl ch

/-- A finished write leaves the receive ring. -/
theorem recvSame_onWriteDone (status ret : Int) (req : UvWrite) (ch : Channel) :
    RecvSame ch (onWriteDone status ret req ch).1 := by
  -- it takes its bytes off the send ring, and issues the next one
  simp only [onWriteDone]
  split
  · split
    · exact .close ch
    · exact .refl ch
  · split
    · exact (RecvSame.setSend ch _ _).trans (recvSame_doUvSend ret _)
    · exact (RecvSame.setSend ch _ _).trans (.close _)

/-- A send function leaves the receive ring. -/
theorem recvSame_sends {raced : Bool} {ret : Int} {ch : Channel} {msgId : Int32}
    {body : List UInt8} {playerId : Int64} {out : SendOut}
    (h : Sends raced ret ch msgId body playerId out) : RecvSame ch out.chan := by
  rcases h with rfl | ⟨hopen, -, -, rfl⟩
  · exact .refl ch
  · -- the frame is appended to an open channel, and `doUvSend` may follow
    have hring : ∀ c : Channel, c.recv_buffer = ch.recv_buffer → c.proto_mode = ch.proto_mode →
        RecvSame ch c := fun c hr hm => ⟨hr, hm, fun hc => by rw [hopen] at hc; cases hc⟩
    simp only [appendAndSend]
    split
    · have hsend := recvSame_doUvSend ret
        { ch.setSend (writeFrame ch.send_buff ch.proto_mode msgId body playerId)
            (capacity_writeFrame _ _ _ _ _) with
          closed_ := ch.closed_ || raced }
      exact hring _ hsend.ring hsend.mode
    · exact hring _ rfl rfl

end Channel

/-- No action on the send path touches the receive ring. -/
theorem Sender.recvSame_step {s s' : Sender} {a : SendAct} (h : s.step a = some s') :
    RecvSame s.chan s'.chan := by
  cases a with
  | write packBuf raced ret msgId msg playerId =>
    obtain rfl := Option.some.inj h
    exact recvSame_sends (eventLoopWrite_sends packBuf raced ret s.chan msgId msg playerId)
  | rawWrite raced ret msg =>
    obtain rfl := Option.some.inj h
    exact recvSame_sends
      (eventLoopRawWrite_sends raced ret s.chan msg.msgId msg.body msg.playerId)
  | writeDone i status ret =>
    simp only [step] at h
    split at h
    · cases h
    · split at h
      · cases h
      · obtain rfl := Option.some.inj h
        exact recvSame_onWriteDone status ret _ s.chan
  | close =>
    obtain rfl := Option.some.inj h
    exact .close s.chan
  | closeInLoop =>
    simp only [step] at h
    split at h
    · obtain rfl := Option.some.inj h
      exact .refl s.chan
    · cases h

/-! ## Turns -/

namespace Endpoint

/-- The turns of a parse loop that nothing interrupts: they end, and what they leave and
    hand over is what `parseLoop` does. -/
theorem turns_parseLoop (realloc : Nat → Bool) {fuel k : Nat} {e : Endpoint} {maxLen : Nat}
    (hparsing : e.parsing = true) (hfuel : e.chan.recv_buffer.readableBytes < fuel) :
    ∃ lens e', Run.run (fun e len => e.turn realloc len) e lens = some e' ∧
      e'.parsing = false ∧
      e'.chan = (parseLoop realloc (fun _ => false) fuel k e.chan maxLen).chan ∧
      e'.packets = e.packets ++
        (parseLoop realloc (fun _ => false) fuel k e.chan maxLen).packets := by
  induction fuel generalizing k e maxLen with
  | zero => omega
  | succ fuel ih =>
    rw [parseLoop]
    cases hturn : parseTurn realloc false e.chan maxLen with
    | leave ch =>
      refine ⟨[maxLen], { e.setChan ch with parsing := false }, ?_, rfl, rfl, ?_⟩
      · simp only [Run.run, turn, hparsing, hturn, if_true]
      · simp only [setChan, List.append_nil]
    | packet packBuf ch maxLen' =>
      -- the packet leaves fewer bytes to the turns behind it
      have hlt := parseTurn_readable_lt hturn
      obtain ⟨lens, e', hrun, hdone, hchan, hpackets⟩ :=
        @ih (k + 1) { e.setChan ch with packets := e.packets ++ [packBuf] } maxLen' hparsing
          (show ch.recv_buffer.readableBytes < fuel by omega)
      refine ⟨maxLen :: lens, e', ?_, hdone, hchan, ?_⟩
      · simp only [Run.run, turn, hparsing, hturn, if_true]
        exact hrun
      · rw [hpackets, List.append_assoc]
        rfl

end Endpoint

end Athena
