import Athena.Native.Channel
import Athena.Native.LoginService

/-!
# Logins on the gateway: loop threads, logic actors, and the game behind them

The parties of a login (`GatewayServerNetWorkHandler`, `GateClientNetWorkHandler`,
`GateActor`, `PlayerLoginHandler`, `PlayerOnlineService`, and the game's
`LoginService`) with the steps they take:

- a client's loop thread turns a `LOGIN_REQUEST` frame into a task of a logic actor
  (`recvLogin`), or runs `closeInLoop` and with it `onClosed` (`closeInLoop`)
- a logic actor takes the next step of one of its tasks (`runTask`)
- whoever has changed the online table calls `PeerConn::sendMsg` afterwards, outside
  the lock (`send`)
- the game takes the next message off the link (`gameStep`), and the gateway's link
  loop turns the next `InnerLoginResponse` into a task (`recvLoginRes`)

`sending` lists the threads between their table update and their `sendMsg`, in the
order of the updates.  An actor runs one task at a time, and which of its queued
tasks it takes is left open (the queue keeps order for one producer only).  `sessions`
and `log` record which session a sid belongs to and what `onInnerLoginRes` did; the
code does not read them.
-/

namespace Athena

/-- `GateActor::execute`: the index of the actor for a hash code. -/
def GateActor.index (count : Nat) (hashCode : Int32) : Nat := toSize hashCode % count

/-- A message to the game, with the player id put into its header. -/
inductive GameMsg where
  /-- `INNER_TO_GAME_LOGIN_REQ` -/
  | login (req : SessionMsg) (playerId : Int64)
  /-- `INNER_PLAYER_DISCONNECT_REQ` -/
  | disconnect (req : SessionMsg) (playerId : Int64)
  deriving DecidableEq, Repr

/-- A thread that has changed the online table and has not sent its message yet. -/
inductive Sending where
  /-- an actor in `onPlayerLogin`, for a login on `channel` -/
  | login (actor : Nat) (channel : ChannelRef) (msg : GameMsg)
  /-- the loop thread of `channel` in `onPlayerDisconnect` -/
  | disconnect (channel : ChannelRef) (msg : GameMsg)
  deriving DecidableEq, Repr

def Sending.msg : Sending → GameMsg
  | .login _ _ msg => msg
  | .disconnect _ msg => msg

/-- A login on its way to `sendMsg` carries its message, -/
@[simp] theorem Sending.msg_login (actor : Nat) (channel : ChannelRef) (msg : GameMsg) :
    (Sending.login actor channel msg).msg = msg := rfl

/-- and so does a disconnect. -/
@[simp] theorem Sending.msg_disconnect (channel : ChannelRef) (msg : GameMsg) :
    (Sending.disconnect channel msg).msg = msg := rfl

/-- Where a task of a logic actor stands. -/
inductive TaskPc where
  /-- `onLoginReq`, queued -/
  | loginReq (channel : ChannelRef) (roleid : Int64)
  /-- `onInnerLoginRes`, queued -/
  | loginRes (res : SessionMsg)
  /-- `findPlayer` returned a player; `setValid` is next -/
  | setValid (res : SessionMsg) (existPlayer : PlayerRef)
  /-- `getChannel` is next -/
  | getChannel (res : SessionMsg) (existPlayer : PlayerRef)
  /-- `sendMsg` is next -/
  | sendRes (res : SessionMsg) (channel : ChannelRef)
  deriving DecidableEq, Repr

/-- The actor is inside the task. -/
def TaskPc.started : TaskPc → Bool
  | .loginReq _ _ => false
  | .loginRes _ => false
  | _ => true

structure Task where
  actor : Nat
  pc : TaskPc
  deriving DecidableEq, Repr

/-- What `onInnerLoginRes` did. -/
inductive LoginResEvent where
  /-- `setValid` on this `Player`, as it stood -/
  | setValid (res : SessionMsg) (player : Player)
  /-- `LOGIN_RESPONSE` for `res.roleid` on this channel -/
  | sendMsg (res : SessionMsg) (channel : ChannelRef)
  deriving DecidableEq, Repr

structure Gateway where
  service : PlayerOnlineService
  /-- the channels on which `onClosed` has been called -/
  onClosed : ChannelRef → Bool
  tasks : List Task
  sending : List Sending
  /-- the messages on their way to the game -/
  link : List GameMsg
  game : LoginService
  /-- the responses on their way back, with the player id of their header -/
  responses : List (SessionMsg × Int64)
  /-- the uid and the channel of the session a sid was given to -/
  sessions : Int64 → Option (UInt32 × ChannelRef)
  log : List LoginResEvent

/-- What the gateway is started with: the number of logic actors, the hash of a
    channel's address, and the game's end of the link. -/
structure GatewayConfig where
  logicActors : Nat
  address : ChannelRef → Int32
  gameChannel : ChannelRef

/-- The steps.  `sid` is what `Snowflake::nextId` returns, should the step ask for it. -/
inductive GatewayAct where
  | recvLogin (channel : ChannelRef) (roleid : Int64)
  | closeInLoop (channel : ChannelRef)
  | runTask (i : Nat) (sid : Int64)
  | send (i : Nat)
  | gameStep
  | recvLoginRes
  deriving DecidableEq, Repr

namespace Gateway

def init : Gateway :=
  { service := .init, onClosed := fun _ => false, tasks := [], sending := [], link := []
    game := .init, responses := [], sessions := fun _ => none, log := [] }

/-- The actor is inside a task. -/
def busy (s : Gateway) (actor : Nat) : Bool :=
  s.tasks.any (fun t => t.pc.started && t.actor == actor) ||
    s.sending.any fun p => match p with
      | .login a _ _ => a == actor
      | .disconnect _ _ => false

/-- `onLoginReq` up to the end of `createPlayer`. -/
def onLoginReq (s : Gateway) (actor : Nat) (channel : ChannelRef) (roleid : Int64)
    (sid : Int64) : Gateway :=
  let uid := toUid roleid
  let msg : GameMsg := .login { sid := sid, roleid := ofUid uid } (ofUid uid)
  { s with
    service := (s.service.createPlayer uid sid channel).2
    sending := s.sending ++ [Sending.login actor channel msg]
    sessions := Function.update s.sessions sid (some (uid, channel)) }

/-- One step of a task, which is the `i`-th.  Ids given out by `nextId` are new. -/
def runTask (s : Gateway) (i : Nat) (t : Task) (sid : Int64) : Option Gateway :=
  let finished := { s with tasks := s.tasks.eraseIdx i }
  let next (pc : TaskPc) : List Task := s.tasks.set i { t with pc := pc }
  match t.pc with
  | .loginReq channel roleid =>
    if s.busy t.actor || (s.sessions sid).isSome then none
    else some (finished.onLoginReq t.actor channel roleid sid)
  | .loginRes res =>
    if s.busy t.actor then none
    else
      match s.service.findPlayer (toUid res.roleid) with
      | none => some finished
      | some existPlayer => some { s with tasks := next (.setValid res existPlayer) }
  | .setValid res existPlayer =>
    some
      { s with
        service := s.service.setValid existPlayer
        tasks := next (.getChannel res existPlayer)
        log := s.log ++ [LoginResEvent.setValid res (s.service.deref existPlayer)] }
  | .getChannel res existPlayer =>
    some { s with tasks := next (.sendRes res (s.service.deref existPlayer).channel) }
  | .sendRes res channel =>
    some { finished with log := s.log ++ [LoginResEvent.sendMsg res channel] }

/-- The table part of `onPlayerDisconnect`, which `closeInLoop` calls on the loop thread. -/
def onPlayerDisconnect (s : Gateway) (channel : ChannelRef) : Gateway :=
  let removed := s.service.removePlayerByChannel channel
  let s := { s with
    service := removed.2, onClosed := Function.update s.onClosed channel true }
  match removed.1 with
  | none => s
  | some (pid, sid) =>
    { s with
      sending := s.sending ++
        [.disconnect channel (.disconnect { sid := sid, roleid := ofUid pid } (ofUid pid))] }

/-- The game handles a message. -/
def gameStep (cfg : GatewayConfig) (s : Gateway) : GameMsg → Gateway
  | .login req _ =>
    let out := s.game.onPlayerLogin cfg.gameChannel req
    { s with game := out.1, responses := s.responses ++ [out.2] }
  | .disconnect req playerId =>
    { s with game := s.game.onPlayerDisconnect (wirePlayerId playerId) req }

/-- One step.  No frame is read from a channel that `closeInLoop` has stopped reading,
    and `closeInLoop` runs once. -/
def step (cfg : GatewayConfig) (s : Gateway) : GatewayAct → Option Gateway
  | .recvLogin channel roleid =>
    if s.onClosed channel then none
    else
      let actor := GateActor.index cfg.logicActors (cfg.address channel)
      some { s with tasks := s.tasks ++ [{ actor := actor, pc := .loginReq channel roleid }] }
  | .closeInLoop channel =>
    if s.onClosed channel then none else some (s.onPlayerDisconnect channel)
  | .runTask i sid =>
    match s.tasks[i]? with
    | none => none
    | some t => s.runTask i t sid
  | .send i =>
    match s.sending[i]? with
    | none => none
    | some p => some { s with sending := s.sending.eraseIdx i, link := s.link ++ [p.msg] }
  | .gameStep =>
    match s.link with
    | [] => none
    | msg :: rest => some ({ s with link := rest }.gameStep cfg msg)
  | .recvLoginRes =>
    match s.responses with
    | [] => none
    | (res, playerId) :: rest =>
      let actor := GateActor.index cfg.logicActors (wirePlayerId playerId).toInt32
      some
        { s with
          responses := rest
          tasks := s.tasks ++ [{ actor := actor, pc := .loginRes res }] }

end Gateway

end Athena
