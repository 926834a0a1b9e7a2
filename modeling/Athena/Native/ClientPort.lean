import Athena.Native.Decoder
import Athena.Native.LoginService
import Athena.Native.PeerConn

/-!
# The gateway's client port (`gateway/src/network/GatewayServerNetWorkHandler.cpp`)

What bytes from clients can do: they are read on channels in client mode, `onMsg`
decodes each packet, a packet with a registered id becomes a task of a logic actor,
and one without goes on to the game nodes.  The handlers are those of the
process-wide `Dispatcher` table, which `SystemMsgHandler` and `PlayerLoginHandler`
fill for both sides of the gateway.

A send function queues a task of the destination's loop (`posted`); `write` runs it.
A handler and an `onMsg` are one step each.  Which queued task of the actors or of the
loops runs next is left open.  `invoked`, `sent` and `received` record the ids of the
handlers that ran, the messages whose frame went into a send ring, and the packets
given to `onMsg`; the code does not read them.  Messages from the game nodes and the
closing of their links are not steps of this machine.
-/

namespace Athena

/-! ## Message ids -/

namespace InnerProtoCode

def INNER_SERVER_HAND_SHAKE_REQ : Int32 := -1
def INNER_SERVER_HAND_SHAKE_RES : Int32 := -2
def INNER_HEART_BEAT_REQ : Int32 := -3
def INNER_HEART_BEAT_RES : Int32 := -4
def INNER_PLAYER_DISCONNECT_REQ : Int32 := -6
def INNER_PLAYER_DISCONNECT_RES : Int32 := -7
def INNER_TO_GAME_LOGIN_REQ : Int32 := -10
def INNER_TO_GAME_LOGIN_RES : Int32 := -11
def INNER_ROUTE_TRANSFER : Int32 := -20

/-- The negative values of the enumeration. -/
def negatives : List Int32 :=
  [INNER_SERVER_HAND_SHAKE_REQ, INNER_SERVER_HAND_SHAKE_RES, INNER_HEART_BEAT_REQ,
    INNER_HEART_BEAT_RES, INNER_PLAYER_DISCONNECT_REQ, INNER_PLAYER_DISCONNECT_RES,
    INNER_TO_GAME_LOGIN_REQ, INNER_TO_GAME_LOGIN_RES, INNER_ROUTE_TRANSFER]

end InnerProtoCode

/-- A negative `InnerProtoCode` id. -/
def isInnerId (msgId : Int32) : Bool := InnerProtoCode.negatives.contains msgId

def HEART_BEAT_REQUEST : Int32 := 2
def HEART_BEAT_RESPONSE : Int32 := 3
def LOGIN_REQUEST : Int32 := 10
def LOGIN_RESPONSE : Int32 := 11

/-! ## Messages -/

/-- `InnerServerHandShakeReq`, the fields that are read. -/
structure InnerServerHandShakeReq where
  service_name : String
  service_id : String
  server_type : Int32
  deriving DecidableEq, Repr

/-- What `decodeMsg` makes of a body; the type says which handler takes it. -/
inductive PortMsg where
  | InnerServerHandShakeReq (req : InnerServerHandShakeReq)
  | InnerServerHandShakeRes (service_id : String)
  | InnerHeartBeatRequest
  | InnerHeartBeatResponse
  | InnerLoginResponse (res : SessionMsg)
  | LoginRequest (roleid : Int64)
  | HeartBeatRequest
  deriving DecidableEq, Repr

/-- A message the gateway itself makes. -/
inductive GatewayMsg where
  | InnerServerHandShakeRes (service_id service_name : String)
  | InnerHeartBeatRequest
  | InnerLoginRequest (req : SessionMsg)
  | InnerPlayerDisconnectRequest (req : SessionMsg)
  | LoginResponse (errorcode : Int32) (servertime roleid : Int64)
  | HeartBeatResponse (servertime : Int64)
  deriving DecidableEq, Repr

/-- The protobuf library: `ParseFromArray` of each type, and the serialization. -/
structure Protobuf where
  parseHandShakeReq : List UInt8 → Option InnerServerHandShakeReq
  parseHandShakeRes : List UInt8 → Option String
  parseInnerHeartBeatRequest : List UInt8 → Option Unit
  parseInnerHeartBeatResponse : List UInt8 → Option Unit
  parseInnerLoginResponse : List UInt8 → Option SessionMsg
  parseLoginRequest : List UInt8 → Option Int64
  parseHeartBeatRequest : List UInt8 → Option Unit
  serialize : GatewayMsg → Message

/-- What the gateway is started with. -/
structure PortConfig where
  proto : Protobuf
  realloc : Nat → Bool
  /-- `AthenaDiscovery::getMySelf()` -/
  mySelf : NodeInfo

/-! ## The table of handlers -/

section
open InnerProtoCode

/-- `SystemMsgHandler::registMsg`. -/
def SystemMsgHandler.registMsg (proto : Protobuf) : List (Int32 × MsgFunction PortMsg) :=
  [(INNER_SERVER_HAND_SHAKE_REQ,
      ⟨fun b => (proto.parseHandShakeReq b).map .InnerServerHandShakeReq⟩),
    (INNER_SERVER_HAND_SHAKE_RES,
      ⟨fun b => (proto.parseHandShakeRes b).map .InnerServerHandShakeRes⟩),
    (INNER_HEART_BEAT_REQ,
      ⟨fun b => (proto.parseInnerHeartBeatRequest b).map fun _ => .InnerHeartBeatRequest⟩),
    (INNER_HEART_BEAT_RES,
      ⟨fun b => (proto.parseInnerHeartBeatResponse b).map fun _ => .InnerHeartBeatResponse⟩)]

/-- `PlayerLoginHandler::registMsgHandler`. -/
def PlayerLoginHandler.registMsgHandler (proto : Protobuf) : List (Int32 × MsgFunction PortMsg) :=
  [(INNER_TO_GAME_LOGIN_RES,
      ⟨fun b => (proto.parseInnerLoginResponse b).map .InnerLoginResponse⟩),
    (LOGIN_REQUEST, ⟨fun b => (proto.parseLoginRequest b).map .LoginRequest⟩),
    (HEART_BEAT_REQUEST,
      ⟨fun b => (proto.parseHeartBeatRequest b).map fun _ => .HeartBeatRequest⟩)]

end

/-- `Dispatcher::findMsgFunction` after `initAllMsgRegister`. -/
def Dispatcher.findMsgFunction (proto : Protobuf) (msgId : Int32) :
    Option (MsgFunction PortMsg) :=
  (SystemMsgHandler.registMsg proto ++ PlayerLoginHandler.registMsgHandler proto).lookup msgId

/-! ## The machine -/

/-- A call of `msg_function->invoke` queued at a logic actor. -/
structure PortTask where
  channel : ChannelRef
  msgId : Int32
  msg : PortMsg
  deriving DecidableEq, Repr

/-- What a send function was given. -/
inductive Payload where
  | msg (msg : GatewayMsg)
  | body (body : List UInt8)
  deriving DecidableEq, Repr

/-- A send task of the loop of `channel`. -/
structure Post where
  channel : ChannelRef
  msgId : Int32
  payload : Payload
  playerId : Int64
  deriving DecidableEq, Repr

structure ClientPort where
  peers : PeerConn
  service : PlayerOnlineService
  channels : ChannelRef → Channel
  /-- the `uv_write` requests of a channel that are not completed -/
  writes : ChannelRef → List UvWrite
  /-- `channelPtr` finds the channel -/
  live : ChannelRef → Bool
  /-- `onClosed` has been called for the channel -/
  onClosed : ChannelRef → Bool
  tasks : List PortTask
  posted : List Post
  invoked : List Int32
  sent : List Post
  received : List (List UInt8)

/-- The steps.  `sid` and `now` are what `Snowflake::nextId` and `currentTimeMillis`
    return, should the handler ask; the other arguments are those of the channel's
    functions. -/
inductive PortAct where
  | read (channel : ChannelRef) (bytes : List UInt8) (closing : Nat → Bool) (maxPackBodyLen : Nat)
  | runTask (i : Nat) (sid now : Int64)
  | write (i : Nat) (packBuf raced : Bool) (ret : Int)
  | writeDone (channel : ChannelRef) (status ret : Int)
  | close (channel : ChannelRef)
  | closeInLoop (channel : ChannelRef)
  | onHandleClosed (channel : ChannelRef)

namespace ClientPort

open InnerProtoCode

/-- `isClosed()` of a channel. -/
def isClosed (s : ClientPort) (channel : ChannelRef) : Bool := (s.channels channel).closed_

/-! ## Sending -/

/-- `Channel::sendMsg` and the `std::string` form of `Channel::sendRawMsg`: both ask
    the same before they queue the write. -/
def post (s : ClientPort) (p : Post) : ClientPort :=
  if !s.live p.channel || s.isClosed p.channel then s
  else { s with posted := s.posted ++ [p] }

/-- `Channel::sendMsg`. -/
def sendMsg (s : ClientPort) (channel : ChannelRef) (msgId : Int32) (msg : GatewayMsg)
    (playerId : Int64) : ClientPort :=
  s.post { channel := channel, msgId := msgId, payload := .msg msg, playerId := playerId }

/-- `Channel::sendRawMsg`. -/
def sendRawMsg (s : ClientPort) (channel : ChannelRef) (msgId : Int32) (data : List UInt8)
    (playerId : Int64) : ClientPort :=
  if data.length ≤ 0 then s
  else s.post { channel := channel, msgId := msgId, payload := .body data, playerId := playerId }

/-- `PeerConn::sendMsg` for a server type. -/
def peerSendMsg (s : ClientPort) (serverType msgId : Int32) (msg : GatewayMsg)
    (playerId : Int64) : ClientPort :=
  match s.peers.sendMsgChannel serverType with
  | none => s
  | some channel => s.sendMsg channel msgId msg playerId

/-! ## The handlers -/

/-- `SystemMsgHandler::onShakHandReq`. -/
def onShakHandReq (cfg : PortConfig) (s : ClientPort) (channel : ChannelRef)
    (req : InnerServerHandShakeReq) : ClientPort :=
  let shNodeInfo : NodeInfo :=
    { type := req.server_type, service_name := req.service_name, service_id := req.service_id }
  let peers := (s.peers.saveNode shNodeInfo).saveNodeChannel (s.live channel) req.service_id channel
  { s with peers := peers }.sendMsg channel INNER_SERVER_HAND_SHAKE_RES
    (.InnerServerHandShakeRes cfg.mySelf.service_id cfg.mySelf.service_name) 0

/-- `SystemMsgHandler::onShakHandResponse`. -/
def onShakHandResponse (s : ClientPort) (channel : ChannelRef) (service_id : String) : ClientPort :=
  { s with peers := s.peers.saveNodeChannel (s.live channel) service_id channel }

/-- `SystemMsgHandler::onInnerHeartBeatReq`. -/
def onInnerHeartBeatReq (s : ClientPort) (channel : ChannelRef) : ClientPort :=
  s.sendMsg channel INNER_HEART_BEAT_RES .InnerHeartBeatRequest 0

/-- `PlayerLoginHandler::onInnerLoginRes`. -/
def onInnerLoginRes (s : ClientPort) (now : Int64) (res : SessionMsg) : ClientPort :=
  match s.service.findPlayer (toUid res.roleid) with
  -- the player has gone: the response is dropped
  | none => s
  | some existPlayer =>
    let s := { s with service := s.service.setValid existPlayer }
    s.sendMsg (s.service.deref existPlayer).channel LOGIN_RESPONSE
      (.LoginResponse 0 now res.roleid) 0

/-- `PlayerLoginHandler::onLoginReq` with `PlayerOnlineService::onPlayerLogin`. -/
def onLoginReq (s : ClientPort) (channel : ChannelRef) (sid roleid : Int64) : ClientPort :=
  let pid := toUid roleid
  { s with service := (s.service.createPlayer pid sid channel).2 }.peerSendMsg SRV_TYPE_GAME
    INNER_TO_GAME_LOGIN_REQ (.InnerLoginRequest { sid := sid, roleid := ofUid pid }) (ofUid pid)

/-- `PlayerLoginHandler::onHeartBeat`. -/
def onHeartBeat (s : ClientPort) (channel : ChannelRef) (now : Int64) : ClientPort :=
  match s.service.userData channel with
  -- a client that has not logged in gets no answer
  | none => s
  | some _ => s.sendMsg channel HEART_BEAT_RESPONSE (.HeartBeatResponse now) 0

/-- `msg_function->invoke`. -/
def invoke (cfg : PortConfig) (s : ClientPort) (channel : ChannelRef) (sid now : Int64) :
    PortMsg → ClientPort
  | .InnerServerHandShakeReq req => s.onShakHandReq cfg channel req
  | .InnerServerHandShakeRes service_id => s.onShakHandResponse channel service_id
  | .InnerHeartBeatRequest => s.onInnerHeartBeatReq channel
  -- that a packet came is all a heartbeat's response says
  | .InnerHeartBeatResponse => s
  | .InnerLoginResponse res => s.onInnerLoginRes now res
  | .LoginRequest roleid => s.onLoginReq channel sid roleid
  | .HeartBeatRequest => s.onHeartBeat channel now

/-- `PlayerOnlineService::onPlayerDisconnect`, from `onClosed`. -/
def onPlayerDisconnect (s : ClientPort) (channel : ChannelRef) : ClientPort :=
  let removed := s.service.removePlayerByChannel channel
  let s := { s with service := removed.2 }
  match removed.1 with
  | none => s
  | some (pid, sid) =>
    s.peerSendMsg SRV_TYPE_GAME INNER_PLAYER_DISCONNECT_REQ
      (.InnerPlayerDisconnectRequest { sid := sid, roleid := ofUid pid }) (ofUid pid)

/-! ## Receiving -/

/-- The message id in a packet. -/
def frameMsgId (frame : List UInt8) : Int32 := (ByteUtils.readInt32 (frame.drop 4)).toInt32

/-- `proxyMsgToGame`. -/
def proxyMsgToGame (s : ClientPort) (frame : List UInt8) : ClientPort :=
  (s.peers.getChannelsByType s.isClosed SRV_TYPE_GAME).foldl
    (fun s destChannel =>
      s.sendRawMsg destChannel (frameMsgId frame) (frame.drop Channel.CLIENT_HEADER_LEN) 0) s

/-- `GatewayServerNetWorkHandler::onMsg`. -/
def onMsg (cfg : PortConfig) (channel : ChannelRef) (s : ClientPort) (buff : List UInt8) :
    ClientPort :=
  let decoded := Decoder.parseHeader (s.channels channel).proto_mode (some buff) {}
  match Decoder.decodeMsg (Dispatcher.findMsgFunction cfg.proto) (s.live channel) decoded with
  -- the whole frame is handed on; every other failure drops the packet
  | (.NOT_REGISTERED, _) => s.proxyMsgToGame buff
  | (.OK, some msg) =>
    { s with tasks := s.tasks ++ [{ channel := channel, msgId := decoded.msgId, msg := msg }] }
  | _ => s

/-! ## Steps -/

/-- A read callback: the packets go to `onMsg` in order. -/
def read (cfg : PortConfig) (s : ClientPort) (channel : ChannelRef) (bytes : List UInt8)
    (closing : Nat → Bool) (maxPackBodyLen : Nat) : ClientPort :=
  let out := (s.channels channel).readEvent cfg.realloc closing bytes maxPackBodyLen
  out.packets.foldl (onMsg cfg channel)
    { s with
      channels := Function.update s.channels channel out.chan
      received := s.received ++ out.packets }

/-- The write function of a send task. -/
def runPost (cfg : PortConfig) (ch : Channel) (p : Post) (packBuf raced : Bool) (ret : Int) :
    Channel.SendOut :=
  match p.payload with
  | .msg msg => ch.eventLoopWrite packBuf raced ret p.msgId (cfg.proto.serialize msg) p.playerId
  | .body body => ch.eventLoopRawWrite raced ret p.msgId body p.playerId

/-- A send task runs on the loop thread. -/
def write (cfg : PortConfig) (s : ClientPort) (p : Post) (packBuf raced : Bool) (ret : Int) :
    ClientPort :=
  let out := runPost cfg (s.channels p.channel) p packBuf raced ret
  { s with
    channels := Function.update s.channels p.channel out.chan
    writes := Function.update s.writes p.channel (s.writes p.channel ++ out.issued.toList)
    sent := if out.appended then s.sent ++ [p] else s.sent }

/-- One step.  A channel is not read after `closeInLoop`, which runs once, and
    `onHandleClosed` releases it after that. -/
def step (cfg : PortConfig) (s : ClientPort) : PortAct → Option ClientPort
  | .read channel bytes closing maxPackBodyLen =>
    if (s.channels channel).proto_mode = .CLIENT ∧ s.onClosed channel = false ∧
        bytes.length ≤ (s.channels channel).uv_alloc_cb.1.len then
      some (s.read cfg channel bytes closing maxPackBodyLen)
    else none
  | .runTask i sid now =>
    match s.tasks[i]? with
    | none => none
    | some t =>
      some ({ s with tasks := s.tasks.eraseIdx i, invoked := s.invoked ++ [t.msgId] }.invoke cfg
        t.channel sid now t.msg)
  | .write i packBuf raced ret =>
    match s.posted[i]? with
    | none => none
    | some p => some ({ s with posted := s.posted.eraseIdx i }.write cfg p packBuf raced ret)
  | .writeDone channel status ret =>
    match s.writes channel with
    | [] => none
    | w :: rest =>
      let (ch, issued) := (s.channels channel).onWriteDone status ret w
      some
        { s with
          channels := Function.update s.channels channel ch
          writes := Function.update s.writes channel (rest ++ issued.toList) }
  | .close channel =>
    some { s with channels := Function.update s.channels channel (s.channels channel).close }
  | .closeInLoop channel =>
    if (s.channels channel).proto_mode = .CLIENT ∧ s.isClosed channel = true ∧
        s.onClosed channel = false then
      some ({ s with onClosed := Function.update s.onClosed channel true }.onPlayerDisconnect
        channel)
    else none
  | .onHandleClosed channel =>
    if s.onClosed channel then some { s with live := Function.update s.live channel false }
    else none

end ClientPort

end Athena
