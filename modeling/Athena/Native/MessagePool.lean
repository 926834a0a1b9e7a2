import Athena.Native.GameActor
import Athena.Native.ObjectPool

/-!
# Pooled messages (`transport/Dispatcher.h`, `Decoder.cpp`, and `onMsg` of the servers)

`parseParam` takes an object from the pool of its message type and parses into it.  The
pointer goes through `DecodedMsg` into a closure, from there into the mailbox of a logic
actor, and `invoke` gives the object back to the pool behind the handler.  `onMsg` of the
gateway, the game and the router are alike; they differ in what they hash to choose the
actor.  The gateway's passing on of unregistered ids uses no pool.

A loop thread is between the two steps of `Actor::execute` while `dispatching` names the
actor and the closure.  A step of an actor's thread that ends a closure says whether the
handler threw.  The actors of the bucket have been started and are not started again;
their mailboxes hold closures of `onMsg` only, as no other holds a pooled message.  The
pool's functions are single steps.

`taken`, `released` and `dropped` are accounts that the code does not keep: the objects
that `parseParam` took, those that were given back, and those whose closure came to an
end without giving them back.
-/

namespace Athena

/-- An entry of the `Dispatcher` table: the pool of its message type, and the parser. -/
structure PoolFunction (M : Type) where
  pool : Nat
  ParseFromArray : List UInt8 → Option M

/-- A message object: its pool, its block there, and the call of `parseParam`, counted
    from 0, that took it. -/
structure Pooled where
  take : Nat
  pool : Nat
  obj : Nat
  deriving DecidableEq, Repr

/-- The closure of `onMsg`.  The pool of `msg` is that of `msg_function`. -/
structure PoolTask where
  playerId : Int64
  channel : ChannelRef
  msg : Pooled
  deriving DecidableEq, Repr

/-- What does not change while a server runs. -/
structure PoolConfig (M : Type) where
  findMsgFunction : Int32 → Option (PoolFunction M)
  protoMode : ChannelRef → ProtoMode
  /-- the hash code that `onMsg` gives to `execute` -/
  hashCode : ChannelRef → Int64 → Int32
  /-- the number of loop threads -/
  loops : Nat
  /-- the size of the bucket -/
  logicActors : Nat

/-- The pools of a server, its logic actors and its loop threads. -/
structure MessagePool (M : Type) where
  pools : Nat → ObjectPool M
  actors : Nat → Actor Nat PoolTask
  dispatching : Nat → Option (Nat × PoolTask)
  taken : List Pooled
  released : List Pooled
  dropped : List Pooled

inductive PoolAct where
  /-- a loop thread gets a frame; `channelLive` is the answer of `channelPtr` -/
  | onMsg (loop : Nat) (channel : ChannelRef) (channelLive : Bool) (buff : List UInt8)
  /-- a loop thread enqueues the closure it is dispatching -/
  | enqueue (loop : Nat)
  /-- one step of the thread of an actor; `i` is what `try_dequeue` takes, and `throws`
      says how the closure ends that the step ends -/
  | thread (actor : Nat) (i : Nat) (throws : Bool)
  /-- `stop` clears the flag of an actor -/
  | stop (actor : Nat)
  deriving DecidableEq, Repr

namespace MessagePool

variable {M : Type} [Inhabited M]

def init : MessagePool M :=
  { pools := fun _ => .GetPool
    actors := fun _ => { isRun := true, mailbox := [], thread := .loop }
    dispatching := fun _ => none, taken := [], released := [], dropped := [] }

/-- `AcquirePtr`. -/
def acquirePtr (s : MessagePool M) (pool : Nat) : Pooled × MessagePool M :=
  let acquired := (s.pools pool).acquireImpl default
  let msg : Pooled := { take := s.taken.length, pool := pool, obj := acquired.1 }
  (msg, { s with
    pools := Function.update s.pools pool acquired.2
    taken := s.taken ++ [msg] })

/-- `Release`. -/
def release (s : MessagePool M) (msg : Pooled) : MessagePool M :=
  { s with
    pools := Function.update s.pools msg.pool ((s.pools msg.pool).release msg.obj)
    released := s.released ++ [msg] }

/-- `ParseFromArray` has filled the object. -/
def fill (s : MessagePool M) (msg : Pooled) (x : M) : MessagePool M :=
  { s with
    pools := Function.update s.pools msg.pool
      { s.pools msg.pool with objs := Function.update (s.pools msg.pool).objs msg.obj x } }

/-- A closure comes to an end with its object still out. -/
def drop (s : MessagePool M) (msg : Pooled) : MessagePool M :=
  { s with dropped := s.dropped ++ [msg] }

/-- `parseParam`, with the object it returns. -/
def parseParam (s : MessagePool M) (f : PoolFunction M) (body : List UInt8) :
    Option Pooled × MessagePool M :=
  if body.length ≤ 0 then (none, s)
  else
    let acquired := s.acquirePtr f.pool
    match f.ParseFromArray body with
    | none => (none, acquired.2.release acquired.1)
    | some x => (some acquired.1, acquired.2.fill acquired.1 x)

/-- `Decoder::decodeMsg`, with the object of an `OK`. -/
def decodeMsg (cfg : PoolConfig M) (s : MessagePool M) (channelLive : Bool) (out : DecodedMsg) :
    DecodeResult × Option Pooled × MessagePool M :=
  match out.body with
  | none => (.BAD_HEADER, none, s)
  | some body =>
    match cfg.findMsgFunction out.msgId with
    | none => (.NOT_REGISTERED, none, s)
    | some msg_function =>
      if !channelLive then (.CHANNEL_GONE, none, s)
      else
        let parsed := s.parseParam msg_function body
        match parsed.1 with
        | none => (.PARSE_FAILED, none, parsed.2)
        | some msg => (.OK, some msg, parsed.2)

/-- The actor for a hash code. -/
def actorOf (cfg : PoolConfig M) (channel : ChannelRef) (playerId : Int64) : Nat :=
  GameActor.index (cfg.hashCode channel playerId) cfg.logicActors

/-- `XxxActor::execute` up to the test of `isRunning`. -/
def execute (cfg : PoolConfig M) (s : MessagePool M) (loop : Nat) (task : PoolTask) :
    MessagePool M :=
  if cfg.logicActors = 0 then s.drop task.msg
  else
    let actor := actorOf cfg task.channel task.playerId
    if (s.actors actor).isRun then
      { s with dispatching := Function.update s.dispatching loop (some (actor, task)) }
    else s.drop task.msg

/-- `onMsg`. -/
def onMsg (cfg : PoolConfig M) (s : MessagePool M) (loop : Nat) (channel : ChannelRef)
    (channelLive : Bool) (buff : List UInt8) : MessagePool M :=
  let decoded := Decoder.parseHeader (cfg.protoMode channel) (some buff) {}
  match s.decodeMsg cfg channelLive decoded with
  | (.OK, some msg, s) =>
    s.execute cfg loop { playerId := decoded.playerId, channel := channel, msg := msg }
  | (_, _, s) => s

/-- `invoke` behind the handler, or the `catch` of `Actor::run`. -/
def endTask (s : MessagePool M) (throws : Bool) (task : PoolTask) : MessagePool M :=
  if throws then s.drop task.msg else s.release task.msg

def step (cfg : PoolConfig M) (s : MessagePool M) : PoolAct → Option (MessagePool M)
  | .onMsg loop channel channelLive buff =>
    if loop < cfg.loops ∧ (s.dispatching loop).isNone then
      some (s.onMsg cfg loop channel channelLive buff)
    else none
  | .enqueue loop =>
    match s.dispatching loop with
    | none => none
    | some (actor, task) =>
      some { s with
        actors := Function.update s.actors actor ((s.actors actor).enqueue loop task)
        dispatching := Function.update s.dispatching loop none }
  | .thread actor i throws =>
    if cfg.logicActors ≤ actor then none
    else
      match (s.actors actor).runThread i with
      | none => none
      | some (a, _) =>
        let ended := (s.actors actor).current
        let s := { s with actors := Function.update s.actors actor a }
        match ended with
        | none => some s
        | some (_, task) => some (s.endTask throws task)
  | .stop actor =>
    some { s with
      actors := Function.update s.actors actor { s.actors actor with isRun := false } }

end MessagePool

end Athena
