import Athena.Native.RingByteBuf

/-!
# One connection (`transport/Channel.h`, `Channel.cpp`, and the read path of `EventLoop.cpp`)

A `Channel` has a receive ring, a send ring and the flags of its close sequence.
The functions here are the ones that run on the loop thread for one channel.
What they ask of libuv and of the C library is an argument:

- `ret` is what `uv_write` returns, should the call reach it
- `raced` says that another thread's `close()` sets `closed_` between the two
  times `eventLoopWrite` looks at it
- `realloc n` says that growing the scratch buffer to `n` bytes succeeds
- `closing k` says that `closed_` has been set by an `on_read` handler or by
  another thread when the parse loop of `uv_read_cb` looks at it for the `k`-th time

`close()` only sets the flag here; queueing `closeInLoop` belongs to the event loop.
Idle bookkeeping (`last_recv_time`, `last_send_time`), the address strings and the
pooling of `WritePack` do not influence any of these functions.
-/

namespace Athena

/-- `transport::Channel*`, for the models of the classes that hold one. -/
abbrev ChannelRef := Nat

/-- `Channel::ProtoMode`: links between servers, and links to clients. -/
inductive ProtoMode where
  | INNER
  | CLIENT
  deriving DecidableEq, Repr

/-- `(int)` of a `size_t`. -/
def toCInt (n : Nat) : Int := (n : Int).bmod (2 ^ 32)

/-- A length below 2^31 is itself as an `int`, -/
theorem toCInt_eq {n : Nat} (h : n < 2 ^ 31) : toCInt n = n := by
  exact Int.bmod_eq_of_le (by omega) (by omega)

/-- `size_t` of an `int32`. -/
def toSize (x : Int32) : Nat := x.toInt64.toUInt64.toNat

/-- and converting it back gives it again. -/
theorem toSize_ofNat {n : Nat} (h : n < 2 ^ 31) : toSize (Int32.ofNat n) = n := by
  have hpos : 0 ≤ (Int32.ofNat n).toInt64 := by
    rw [Int64.le_iff_toInt_le, Int32.toInt_toInt64, Int32.toInt_ofNat_of_lt h]
    exact Int.natCast_nonneg n
  rw [toSize, Int64.toNat_toUInt64_of_le hpos, Int32.toNatClampNeg_toInt64,
    Int32.toNatClampNeg_ofNat_of_lt h]

/-- What a queued write carries for its callback (`WritePack`, without the channel). -/
structure WritePack where
  sendSize : Int32
  deriving DecidableEq, Repr

/-- A `uv_write` request libuv has accepted: its `uv_buf_t` points `len` bytes into
    the send ring's array from offset `base` on. -/
structure UvWrite where
  base : Nat
  len : Nat
  pack : WritePack
  deriving DecidableEq, Repr

/-- A protobuf message as `eventLoopWrite` uses it: `ByteSizeLong`, and the bytes
    `SerializeToArray` writes (`none` when it fails). -/
structure Message where
  byteSizeLong : Nat
  serialize : Option (List UInt8)
  length_serialize : ∀ bytes, serialize = some bytes → bytes.length = byteSizeLong

/-- `transport::Channel`.  The constructor clamps both capacities, so neither ring
    holds `2 ^ 31` bytes. -/
structure Channel where
  id : UInt32
  proto_mode : ProtoMode
  recv_buffer : RingByteBuf
  send_buff : RingByteBuf
  closed_ : Bool
  tcp_closed_ : Bool
  timer_closed_ : Bool
  recv_capacity_lt : recv_buffer.capacity < 2 ^ 31
  send_capacity_lt : send_buff.capacity < 2 ^ 31

namespace Channel

def INNER_HEADER_LEN : Nat := 16
def INNER_LEN_OVERHEAD : Nat := INNER_HEADER_LEN - 4
def CLIENT_HEADER_LEN : Nat := 12
def CLIENT_LEN_OVERHEAD : Nat := CLIENT_HEADER_LEN - 4
def MAGIC_NUM : UInt32 := 0x41544841
def MAX_PACKET_SIZE : Nat := 4 * 1024 * 1024
def DEFAULT_BUFF_SIZE : UInt64 := 64 * 1024
def UV_ECANCELED : Int := -125

/-- `proto_mode == INNER ? INNER_HEADER_LEN : CLIENT_HEADER_LEN`. -/
def headerLen (mode : ProtoMode) : Nat :=
  if mode = .INNER then INNER_HEADER_LEN else CLIENT_HEADER_LEN

/-- `proto_mode == INNER ? INNER_LEN_OVERHEAD : CLIENT_LEN_OVERHEAD`. -/
def lenOverhead (mode : ProtoMode) : Nat :=
  if mode = .INNER then INNER_LEN_OVERHEAD else CLIENT_LEN_OVERHEAD

/-- `proto_mode == INNER ? 12 : 8`. -/
def magicOff (mode : ProtoMode) : Nat :=
  if mode = .INNER then 12 else 8

/-! ## Construction -/

/-- `clampBuffSize`. -/
def clampBuffSize (size : UInt64) : UInt64 :=
  if size == 0 then DEFAULT_BUFF_SIZE
  else
    let maxFrame := UInt64.ofNat (MAX_PACKET_SIZE + INNER_HEADER_LEN)
    if size > maxFrame then maxFrame else size

/-- A clamped capacity is positive and at most the largest frame. -/
theorem clampBuffSize_bounds (size : UInt64) :
    0 < (clampBuffSize size).toNat ∧
      (clampBuffSize size).toNat ≤ MAX_PACKET_SIZE + INNER_HEADER_LEN := by
  rw [clampBuffSize]
  split
  · decide
  · rename_i h0
    have hne : size.toNat ≠ 0 := by
      intro h; apply h0; rw [beq_iff_eq]; exact UInt64.toNat_inj.mp h
    simp only
    split
    · decide
    · rename_i hle
      rw [UInt64.not_lt, UInt64.le_iff_toNat_le] at hle
      exact ⟨by omega, hle⟩

/-- The ring made for a configured capacity.  Clamping keeps the ring's constructor
    from throwing. -/
def newBuffer (malloc : Malloc) (size : UInt64) : RingByteBuf :=
  (RingByteBuf.new malloc (clampBuffSize size)).get
    (RingByteBuf.new_isSome malloc (clampBuffSize_bounds size).1
      (Nat.le_trans (clampBuffSize_bounds size).2 (by decide)))

/-- A clamped size never makes the constructor throw. -/
theorem newBuffer_eq (malloc : Malloc) (size : UInt64) :
    RingByteBuf.new malloc (clampBuffSize size) = some (newBuffer malloc size) :=
  (Option.some_get _).symm

/-- The lengths of a channel's ring fit into an `int`. -/
theorem newBuffer_capacity_lt (malloc : Malloc) (size : UInt64) :
    (newBuffer malloc size).capacity < 2 ^ 31 := by
  have hcap := (RingByteBuf.new_capacity (newBuffer_eq malloc size)).2
  have hle := (clampBuffSize_bounds size).2
  simp only [MAX_PACKET_SIZE, INNER_HEADER_LEN] at hle
  omega

/-- The constructor; the id comes from `generateId`. -/
def new (malloc : Malloc) (id : UInt32) (recvBuffSize sendBuffSize : UInt64)
    (protoMode : ProtoMode) : Channel where
  id := id
  proto_mode := protoMode
  recv_buffer := newBuffer malloc recvBuffSize
  send_buff := newBuffer malloc sendBuffSize
  closed_ := false
  tcp_closed_ := false
  timer_closed_ := false
  recv_capacity_lt := newBuffer_capacity_lt malloc recvBuffSize
  send_capacity_lt := newBuffer_capacity_lt malloc sendBuffSize

/-- Replace the send ring by what an operation on it returned. -/
def setSend (ch : Channel) (r : RingByteBuf) (h : r.capacity = ch.send_buff.capacity) : Channel :=
  { ch with send_buff := r, send_capacity_lt := h ▸ ch.send_capacity_lt }

/-- Replace the receive ring by what an operation on it returned. -/
def setRecv (ch : Channel) (r : RingByteBuf) (h : r.capacity = ch.recv_buffer.capacity) :
    Channel :=
  { ch with recv_buffer := r, recv_capacity_lt := h ▸ ch.recv_capacity_lt }

/-- The flag half of `close()`: `closed_.exchange(true)`. -/
def close (ch : Channel) : Channel :=
  { ch with closed_ := true }

/-! ## Sending -/

/-- `doUvSend`: hand the readable window of the send ring to `uv_write`. -/
def doUvSend (ret : Int) (ch : Channel) : Channel × Option UvWrite :=
  if ch.closed_ then (ch, none)
  else
    let (sendPtr, needSendLen) := ch.send_buff.linearReadablePtr
    if needSendLen = 0 then (ch, none)
    else
      let write_pack : WritePack := { sendSize := Int32.ofNat needSendLen }
      let req : UvWrite :=
        { base := sendPtr.getD 0, len := (UInt32.ofNat needSendLen).toNat, pack := write_pack }
      -- a synchronous failure gets no callback
      if ret ≠ 0 then (ch.close, none) else (ch, some req)

/-- The callback of `uv_write` with `status`, for the request `req`. -/
def onWriteDone (status ret : Int) (req : UvWrite) (ch : Channel) : Channel × Option UvWrite :=
  -- a cancelled write belongs to a channel that is closed already
  if status < 0 then
    (if status ≠ UV_ECANCELED then ch.close else ch, none)
  else
    let adv := ch.send_buff.advanceReadIndex (toSize req.pack.sendSize)
    let ch := ch.setSend adv.2 (RingByteBuf.capacity_advanceReadIndex _ _)
    -- an advance that is refused would mean that the stream is out of step
    if adv.1 then doUvSend ret ch else (ch.close, none)

/-- The header fields and the body, in the order both write functions append them. -/
def writeFrame (ring : RingByteBuf) (mode : ProtoMode) (msgId : Int32) (body : List UInt8)
    (playerId : Int64) : RingByteBuf :=
  let len : Int32 := Int32.ofNat body.length
  let ring := ring.writeInt32 (len + Int32.ofNat (lenOverhead mode)).toUInt32
  let ring := ring.writeInt32 msgId.toUInt32
  let ring := if mode = .INNER then ring.writeInt32 playerId.toInt32.toUInt32 else ring
  let ring := ring.writeInt32 MAGIC_NUM
  (ring.writeBytes body).2

/-- Appending a frame keeps the capacity of the send ring. -/
@[simp] theorem capacity_writeFrame (ring : RingByteBuf) (mode : ProtoMode) (msgId : Int32)
    (body : List UInt8) (playerId : Int64) :
    (writeFrame ring mode msgId body playerId).capacity = ring.capacity := by
  simp only [writeFrame]
  split <;> simp only [RingByteBuf.capacity_writeBytes, RingByteBuf.capacity_writeInt32]

/-- What a send function did: the channel, whether the frame went into the send
    ring, and the `uv_write` it issued. -/
structure SendOut where
  chan : Channel
  appended : Bool
  issued : Option UvWrite

/-- The end of both send functions, from the first header field on. -/
def appendAndSend (raced : Bool) (ret : Int) (ch : Channel) (needCallSend : Bool)
    (msgId : Int32) (body : List UInt8) (playerId : Int64) : SendOut :=
  let ch := ch.setSend (writeFrame ch.send_buff ch.proto_mode msgId body playerId)
    (capacity_writeFrame _ _ _ _ _)
  -- `doUvSend` looks at `closed_` again
  let ch := { ch with closed_ := ch.closed_ || raced }
  if needCallSend then
    let (ch, issued) := doUvSend ret ch
    { chan := ch, appended := true, issued := issued }
  else { chan := ch, appended := true, issued := none }

/-- `eventLoopRawWrite`. -/
def eventLoopRawWrite (raced : Bool) (ret : Int) (ch : Channel) (msgId : Int32)
    (body : List UInt8) (playerId : Int64) : SendOut :=
  if ch.closed_ then { chan := ch, appended := false, issued := none }
  else
    -- bytes in the ring mean that a write is under way, whose callback sends the rest
    let needCallSend := ch.send_buff.readableBytes == 0
    let bodyLen := body.length
    let frameLen := bodyLen + headerLen ch.proto_mode
    if frameLen > MAX_PACKET_SIZE then { chan := ch, appended := false, issued := none }
    -- a frame that does not fit is dropped, never cut
    else if ch.send_buff.writableBytes < frameLen then
      { chan := ch, appended := false, issued := none }
    else appendAndSend raced ret ch needCallSend msgId body playerId

/-- `eventLoopWrite`.  `packBuf` says that `getEventPackBuff` returned a buffer. -/
def eventLoopWrite (packBuf raced : Bool) (ret : Int) (ch : Channel) (msgId : Int32)
    (msg : Message) (playerId : Int64) : SendOut :=
  if ch.closed_ then { chan := ch, appended := false, issued := none }
  else
    let needCallSend := ch.send_buff.readableBytes == 0
    let bodyLen := msg.byteSizeLong
    let frameLen := bodyLen + headerLen ch.proto_mode
    if frameLen > MAX_PACKET_SIZE then { chan := ch, appended := false, issued := none }
    else if ch.send_buff.writableBytes < frameLen then
      { chan := ch, appended := false, issued := none }
    else if !packBuf then { chan := ch, appended := false, issued := none }
    else
      match msg.serialize with
      | none => { chan := ch, appended := false, issued := none }
      | some body => appendAndSend raced ret ch needCallSend msgId body playerId

/-! ## Receiving -/

/-- The buffer `uv_alloc_cb` offers: a window of the receive ring, or the one dummy
    byte of a channel it just closed. -/
inductive AllocBuf where
  | ring (len : Nat)
  | dummy
  deriving DecidableEq, Repr

/-- `buf->len`. -/
def AllocBuf.len : AllocBuf → Nat
  | .ring len => len
  | .dummy => 1

/-- `EventLoop::uv_alloc_cb`. -/
def uv_alloc_cb (ch : Channel) : AllocBuf × Channel :=
  let lineWritAbleLen := ch.recv_buffer.linearWritablePtr.2
  if lineWritAbleLen = 0 then (.dummy, ch.close) else (.ring lineWritAbleLen, ch)

/-- The kernel puts `bytes` into the offered buffer. -/
def fill (buf : AllocBuf) (bytes : List UInt8) (ch : Channel) : Channel :=
  match buf with
  | .ring _ => ch.setRecv (ch.recv_buffer.fillWritable bytes) (RingByteBuf.capacity_fillWritable _ _)
  | .dummy => ch

/-- `Channel::onRead`. -/
def onRead (nread : Int) (ch : Channel) : Channel :=
  if nread > 0 then
    if ch.closed_ then ch
    else
      let adv := ch.recv_buffer.advanceWriteIndex nread.toNat
      let ch := ch.setRecv adv.2 (RingByteBuf.capacity_advanceWriteIndex _ _)
      if adv.1 then ch else ch.close
  else if nread < 0 then ch.close
  else ch

/-- `peekNextPackLen`: `-1` incomplete, `-2` illegal, else the length of the frame. -/
def peekNextPackLen (ch : Channel) : Int :=
  let headerLen := headerLen ch.proto_mode
  let readableBytes := toCInt ch.recv_buffer.readableBytes
  if readableBytes < headerLen then -1
  else
    let hdr := ch.recv_buffer.peek headerLen
    let msgLen := ByteUtils.readInt32 hdr
    if msgLen.toNat > MAX_PACKET_SIZE - 4 then -2
    else if ByteUtils.readInt32 (hdr.drop (magicOff ch.proto_mode)) ≠ MAGIC_NUM then -2
    else if msgLen.toNat > (readableBytes - 4).toNat then -1
    else msgLen.toNat + 4

/-- `getPack`: the packet's bytes and the channel without them. -/
def getPack (ch : Channel) (packLen : Nat) : List UInt8 × Channel :=
  ((ch.recv_buffer.read packLen).1,
    ch.setRecv (ch.recv_buffer.read packLen).2 (RingByteBuf.capacity_read _ _))

/-- `EventLoop::getPacketBuff`: `none` is `nullptr`, else the length of the scratch
    buffer after the call. -/
def getPacketBuff (realloc : Nat → Bool) (maxPackBodyLen needLen : Nat) : Option Nat :=
  if needLen > maxPackBodyLen then
    if realloc needLen then some needLen else none
  else some maxPackBodyLen

/-- What a read callback did: the channel, the scratch buffer's length, and the
    packets handed to `on_read`. -/
structure ReadOut where
  chan : Channel
  maxPackBodyLen : Nat
  packets : List (List UInt8)

/-- One turn of the parse loop of `uv_read_cb`: it leaves the loop, or takes a packet
    out of the receive ring. -/
inductive Turn where
  | leave (chan : Channel)
  | packet (packBuf : List UInt8) (chan : Channel) (maxPackBodyLen : Nat)

/-- The body of the loop, its test of `isClosed()` included.  `closes` says that
    `closed_` has been set since the last test. -/
def parseTurn (realloc : Nat → Bool) (closes : Bool) (ch : Channel) (maxPackBodyLen : Nat) :
    Turn :=
  let ch := if closes then ch.close else ch
  if ch.closed_ then .leave ch
  else
    let packageLen := ch.peekNextPackLen
    if packageLen < 0 then .leave (if packageLen = -2 then ch.close else ch)
    else
      match getPacketBuff realloc maxPackBodyLen packageLen.toNat with
      | none => .leave ch.close
      | some maxLen =>
        let pack := ch.getPack packageLen.toNat
        .packet pack.1 pack.2 maxLen

/-- The parse loop of `uv_read_cb`, from its `k`-th turn on.  Every turn that does not
    leave takes a packet out of the receive ring, so as many turns as there are
    readable bytes are enough (`parseLoop_fuel`). -/
def parseLoop (realloc : Nat → Bool) (closing : Nat → Bool) :
    Nat → Nat → Channel → Nat → ReadOut
  | 0, _, ch, maxLen => { chan := ch, maxPackBodyLen := maxLen, packets := [] }
  | fuel + 1, k, ch, maxLen =>
    match parseTurn realloc (closing k) ch maxLen with
    | .leave ch => { chan := ch, maxPackBodyLen := maxLen, packets := [] }
    | .packet packBuf ch maxLen =>
      let rest := parseLoop realloc closing fuel (k + 1) ch maxLen
      { rest with packets := packBuf :: rest.packets }

/-- `EventLoop::uv_read_cb`. -/
def uv_read_cb (realloc : Nat → Bool) (closing : Nat → Bool) (nread : Int) (ch : Channel)
    (maxPackBodyLen : Nat) : ReadOut :=
  let ch := ch.onRead nread
  if nread ≤ 0 ∨ ch.closed_ then
    { chan := ch, maxPackBodyLen := maxPackBodyLen, packets := [] }
  else parseLoop realloc closing (ch.recv_buffer.readableBytes + 1) 0 ch maxPackBodyLen

/-- One read of `bytes` from the socket: libuv asks for a buffer, the kernel fills
    it, and the read callback runs. -/
def readEvent (realloc : Nat → Bool) (closing : Nat → Bool) (bytes : List UInt8) (ch : Channel)
    (maxPackBodyLen : Nat) : ReadOut :=
  let (buf, ch) := ch.uv_alloc_cb
  uv_read_cb realloc closing bytes.length (ch.fill buf bytes) maxPackBodyLen

end Channel

end Athena
