import Athena.ForStd.ProducerQueue
import Athena.Native.GamePlayer

/-!
# Logins on several actors (`game/src/network/GameServerNetWorkHandler.cpp`,
`service/LoginService.cpp`, `service/PlayerMgr.cpp`)

A login message is handled by the actor of the connection it came over, `actorOf`, not
by one of its player, and `players` has no lock.  Here the calls in
`LoginService::onPlayerLogin` are the steps of an actor, each of them atomic.  The
messages of a connection come out of a mailbox in the order they went in.

`creating`, `setter` and `processed` are accounts that the code does not keep.
-/

namespace Athena.Game

/-- A call of `onPlayerLogin`. -/
structure LoginCall where
  channel : ChannelRef
  req : SessionMsg
  deriving DecidableEq, Repr

/-- `(uint32)req->roleid()`. -/
def LoginCall.playerId (call : LoginCall) : UInt32 := toUid call.req.roleid

/-- The step of `onPlayerLogin` that an actor takes next.  `kept` is what `channelPtr`
    answered when the player was given the channel, `created` says that nobody was found. -/
inductive LoginPc where
  | idle
  | getPlayer (call : LoginCall)
  | setChannel (call : LoginCall) (existPlayer : PlayerPtr)
  | newPlayer (call : LoginCall)
  | loadDataFormDB (call : LoginCall) (kept : Bool) (existPlayer : PlayerPtr)
  | onLogin (call : LoginCall) (kept created : Bool) (existPlayer : PlayerPtr)
  | addPlayer (call : LoginCall) (kept created : Bool) (existPlayer : PlayerPtr)
  deriving DecidableEq, Repr

/-- The game node and its logic actors `A`. -/
structure LoginActors (A : Type) where
  node : GameNode
  mailbox : A → List (ChannelRef × SessionMsg)
  pc : A → LoginPc
  /-- the players whom a login has not found and not added yet, once for each login -/
  creating : List UInt32
  /-- the actor that gave the player a channel last, until its login is processed -/
  setter : UInt32 → Option A
  /-- the channel of the login processed last, and whether its loop still had it -/
  processed : UInt32 → Option (ChannelRef × Bool)

inductive LoginAct (A : Type) where
  /-- a login message arrives -/
  | onMsg (channel : ChannelRef) (req : SessionMsg)
  /-- an actor takes a message out of its mailbox -/
  | take (a : A) (i : Nat)
  /-- the next step of a login; `registered` is what `channelPtr` answers -/
  | advance (a : A) (registered : ChannelRef → Bool) (reply : FindReply)

namespace LoginActors

variable {A : Type} [DecidableEq A]

def init (roles : Collection) : LoginActors A :=
  { node := .init roles, mailbox := fun _ => [], pc := fun _ => .idle, creating := []
    setter := fun _ => none, processed := fun _ => none }

def goto (s : LoginActors A) (a : A) (pc : LoginPc) : LoginActors A :=
  { s with pc := Function.update s.pc a pc }

/-- The player has been given the channel of the login of `a`. -/
def channelSet (s : LoginActors A) (a : A) (call : LoginCall) (node : GameNode) : LoginActors A :=
  { s with node := node, setter := Function.update s.setter call.playerId (some a) }

/-- The login of `a` is processed. -/
def finish (s : LoginActors A) (a : A) (call : LoginCall) (kept created : Bool) (node : GameNode) :
    LoginActors A :=
  { s with
    node := node
    pc := Function.update s.pc a .idle
    creating := if created then s.creating.erase call.playerId else s.creating
    setter :=
      if s.setter call.playerId = some a then Function.update s.setter call.playerId none
      else s.setter
    processed := Function.update s.processed call.playerId (some (call.channel, kept)) }

/-- The next step of the login of `a`. -/
def advance (s : LoginActors A) (a : A) (registered : ChannelRef → Bool) (reply : FindReply) :
    Option (LoginActors A) :=
  match s.pc a with
  | .idle => none
  | .getPlayer call =>
    match s.node.getPlayer call.playerId with
    | some existPlayer => some (s.goto a (.setChannel call existPlayer))
    | none => some ({ s with creating := call.playerId :: s.creating }.goto a (.newPlayer call))
  | .setChannel call existPlayer =>
    let node := s.node.modify existPlayer (·.setChannel registered call.channel)
    some ((s.channelSet a call node).goto a
      (.onLogin call (registered call.channel) false existPlayer))
  | .newPlayer call =>
    let res := s.node.newPlayer registered call.playerId call.req.sid.toUInt64 call.channel
    let node := res.2.modify res.1 Player.initModules
    some ((s.channelSet a call node).goto a
      (.loadDataFormDB call (registered call.channel) res.1))
  | .loadDataFormDB call kept existPlayer =>
    let node := s.node.modify existPlayer (Player.loadDataFormDB reply s.node.roles)
    some ({ s with node := node }.goto a (.onLogin call kept true existPlayer))
  | .onLogin call kept created existPlayer =>
    let node := s.node.modify existPlayer Player.onLogin
    some ({ s with node := node }.goto a (.addPlayer call kept created existPlayer))
  | .addPlayer call kept created existPlayer =>
    some (s.finish a call kept created (s.node.addPlayer existPlayer))

def step (actorOf : ChannelRef → A) (s : LoginActors A) : LoginAct A → Option (LoginActors A)
  | .onMsg channel req =>
    let a := actorOf channel
    some { s with
      mailbox := Function.update s.mailbox a (ProducerQueue.enqueue channel req (s.mailbox a)) }
  | .take a i =>
    match s.pc a with
    | .idle =>
      match ProducerQueue.dequeue i (s.mailbox a) with
      | none => none
      | some ((channel, req), rest) =>
        some ({ s with mailbox := Function.update s.mailbox a rest }.goto a
          (.getPlayer { channel := channel, req := req }))
    | _ => none
  | .advance a registered reply => s.advance a registered reply

end LoginActors

end Athena.Game
