import Athena.Native.Actor
import Athena.Native.Decoder

/-!
# From a server connection to the logic actors (`game/src/network/GameServerNetWorkHandler.cpp`,
`game_actor/GameActor.cpp`)

`onMsg` runs on the loop thread of the connection.  It decodes the frame and hands a
closure that invokes the message's handler to one of the logic actors, by the address
of the channel.  A loop thread is between two steps of `Actor::execute` while
`dispatching` names the actor and the closure.

`arrived`, `invoked` and `finished` are accounts that the code does not keep: the
frames that were decoded successfully, and the handlers that were invoked and that
ended, in order.
-/

namespace Athena

/-- The closure of `onMsg`: `msg_function` is the entry of `msgId`. -/
structure HandlerTask (M : Type) where
  playerId : Int64
  msgId : Int32
  channel : ChannelRef
  msg : M
  deriving DecidableEq, Repr

/-- What does not change while the game node runs: the loop and the address of every
    channel, the handlers, and how many logic actors were made. -/
structure GameServerConfig (M : Type) where
  loopOf : ChannelRef → Nat
  address : ChannelRef → UInt64
  protoMode : ChannelRef → ProtoMode
  findMsgFunction : Int32 → Option (MsgFunction M)
  logicActors : Nat

namespace GameActor

/-- `(int)((uintptr_t)channel)`. -/
def hashCode (address : UInt64) : Int32 :=
  address.toUInt32.toInt32

/-- `static_cast<size_t>(hashCode) % bucket.size()`. -/
def index (hashCode : Int32) (size : Nat) : Nat :=
  toSize hashCode % size

end GameActor

/-- The game node: the logic actors with their threads, and the loop threads. -/
structure GameServer (M : Type) where
  actors : Nat → Actor Nat (HandlerTask M)
  dispatching : Nat → Option (Nat × HandlerTask M)
  arrived : List (HandlerTask M)
  invoked : List (HandlerTask M)
  finished : List (HandlerTask M)

inductive GameServerAct where
  /-- a loop thread gets a frame of the channel; `channelLive` is the answer of
      `channelPtr` -/
  | onMsg (channel : ChannelRef) (channelLive : Bool) (buff : List UInt8)
  /-- a loop thread enqueues the closure it is dispatching -/
  | enqueue (loop : Nat)
  /-- one step of the thread of an actor; `i` is what `try_dequeue` takes -/
  | thread (actor : Nat) (i : Nat)
  deriving DecidableEq, Repr

namespace GameServer

variable {M : Type}

/-- The actors have been started and nothing has arrived. -/
def init : GameServer M :=
  { actors := fun _ => { isRun := true, mailbox := [], thread := .loop }
    dispatching := fun _ => none, arrived := [], invoked := [], finished := [] }

/-- The decoding of `onMsg`, with the closure made when the result is `OK`. -/
def decode (cfg : GameServerConfig M) (channel : ChannelRef) (channelLive : Bool)
    (buff : List UInt8) : Option (HandlerTask M) :=
  let decoded := Decoder.parseHeader (cfg.protoMode channel) (some buff) {}
  match Decoder.decodeMsg cfg.findMsgFunction channelLive decoded with
  | (.OK, some msg) =>
    some { playerId := decoded.playerId, msgId := decoded.msgId, channel := channel, msg := msg }
  | _ => none

/-- The actor that gets the messages of a channel. -/
def actorOf (cfg : GameServerConfig M) (channel : ChannelRef) : Nat :=
  GameActor.index (GameActor.hashCode (cfg.address channel)) cfg.logicActors

/-- `GameActor::execute` up to the test of `isRunning`: what is dropped has no further
    step. -/
def execute (cfg : GameServerConfig M) (s : GameServer M) (task : HandlerTask M) : GameServer M :=
  if cfg.logicActors = 0 then s
  else
    let actor := actorOf cfg task.channel
    if (s.actors actor).isRun then
      { s with
        dispatching := Function.update s.dispatching (cfg.loopOf task.channel) (some (actor, task)) }
    else s

def step (cfg : GameServerConfig M) (s : GameServer M) : GameServerAct → Option (GameServer M)
  | .onMsg channel channelLive buff =>
    match s.dispatching (cfg.loopOf channel) with
    | some _ => none
    | none =>
      match decode cfg channel channelLive buff with
      | none => some s
      | some task => some ({ s with arrived := s.arrived ++ [task] }.execute cfg task)
  | .enqueue loop =>
    match s.dispatching loop with
    | none => none
    | some (actor, task) =>
      some { s with
        actors := Function.update s.actors actor ((s.actors actor).enqueue loop task)
        dispatching := Function.update s.dispatching loop none }
  | .thread actor i =>
    if cfg.logicActors ≤ actor then none
    else
      match (s.actors actor).runThread i with
      | none => none
      | some (a, begun) =>
        some { s with
          actors := Function.update s.actors actor a
          invoked := s.invoked ++ (begun.map Prod.snd).toList
          finished := s.finished ++ ((s.actors actor).current.map Prod.snd).toList }

end GameServer

end Athena
