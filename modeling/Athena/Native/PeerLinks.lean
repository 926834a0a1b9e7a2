import Athena.Native.PeerConn

/-!
# Handshakes between servers (`SystemMsgHandler.cpp`, `GateClientNetWorkHandler.cpp`,
`GameServerNetWorkHandler.cpp`)

A handshake message that arrives on a link is queued on an actor, in a closure that
holds the channel.  The handlers register the peer node and the channel in `PeerConn`,
and `on_closed` takes the channel out again.

The steps of a handler are `saveNode`, the lookup of the channel in its loop's registry
(`channelPtr`, at the start of `saveNodeChannel`), and the rest of `saveNodeChannel`
under `mutex_`.  Between any two of them the other threads run.  A channel is read until
`closeInLoop`, which calls `on_closed` on the loop thread; it stays in the registry
until both close callbacks have run (`releaseChannel`).

Which actor a message goes to is left open: the gateway takes the frame's player id,
the game the channel.  Other handlers do not use the registry of peers.
-/

namespace Athena

/-- A handshake message. -/
inductive Handshake where
  /-- `onShakHandReq` -/
  | req (nodeInfo : NodeInfo)
  /-- `onShakHandResponse`, of the gateway -/
  | res (service_id : String)
  deriving DecidableEq, Repr

/-- What an actor that runs a handler does next. -/
inductive HandshakePc where
  | saveNode (nodeInfo : NodeInfo)
  /-- `channelPtr`, at the start of `saveNodeChannel` -/
  | channelPtr (service_id : String)
  /-- the rest of `saveNodeChannel`, holding the channel -/
  | addNodeChannel (service_id : String)
  deriving DecidableEq, Repr

/-- The first call of a handler. -/
def Handshake.start : Handshake → HandshakePc
  | .req nodeInfo => .saveNode nodeInfo
  | .res service_id => .channelPtr service_id

/-- The links of a server, its actors, and `PeerConn`. -/
structure PeerLinks where
  peers : PeerConn
  /-- the channel is in its loop's `channels_` -/
  registered : ChannelRef → Bool
  /-- `on_closed` has run for the channel -/
  closed : ChannelRef → Bool
  mailbox : Nat → List (Handshake × ChannelRef)
  running : Nat → Option (HandshakePc × ChannelRef)

inductive PeerAct where
  /-- a new link -/
  | connect (channel : ChannelRef)
  /-- a handshake message is read and queued on an actor -/
  | read (channel : ChannelRef) (actor : Nat) (msg : Handshake)
  /-- `closeInLoop` -/
  | onClosed (channel : ChannelRef)
  | releaseChannel (channel : ChannelRef)
  /-- the next step of an actor -/
  | actor (actor : Nat)
  deriving DecidableEq, Repr

/-- The actor that an action is about. -/
def PeerAct.addressee : PeerAct → Option Nat
  | .read _ index _ => some index
  | .actor index => some index
  | _ => none

namespace PeerLinks

def init : PeerLinks :=
  { peers := .init, registered := fun _ => false, closed := fun _ => false
    mailbox := fun _ => [], running := fun _ => none }

/-- The actor `actor` goes on with `pc`. -/
def goto (s : PeerLinks) (actor : Nat) (pc : Option (HandshakePc × ChannelRef)) : PeerLinks :=
  { s with running := Function.update s.running actor pc }

/-- The next step of an actor. -/
def runActor (s : PeerLinks) (actor : Nat) : Option PeerLinks :=
  match s.running actor with
  | none =>
    match s.mailbox actor with
    | [] => none
    | (msg, channel) :: rest =>
      some ({ s with mailbox := Function.update s.mailbox actor rest }.goto actor
        (some (msg.start, channel)))
  | some (.saveNode nodeInfo, channel) =>
    some ({ s with peers := s.peers.saveNode nodeInfo }.goto actor
      (some (.channelPtr nodeInfo.service_id, channel)))
  | some (.channelPtr service_id, channel) =>
    if service_id.isEmpty || !s.registered channel then some (s.goto actor none)
    else some (s.goto actor (some (.addNodeChannel service_id, channel)))
  | some (.addNodeChannel service_id, channel) =>
    some ({ s with peers := s.peers.addNodeChannel service_id channel }.goto actor none)

def step (s : PeerLinks) : PeerAct → Option PeerLinks
  | .connect channel =>
    if s.registered channel || s.closed channel then none
    else some { s with registered := Function.update s.registered channel true }
  | .read channel actor msg =>
    if s.registered channel && !s.closed channel then
      some { s with
        mailbox := Function.update s.mailbox actor (s.mailbox actor ++ [(msg, channel)]) }
    else none
  | .onClosed channel =>
    if s.registered channel && !s.closed channel then
      some { s with
        peers := s.peers.removeNodeChannel channel
        closed := Function.update s.closed channel true }
    else none
  | .releaseChannel channel =>
    if s.registered channel && s.closed channel then
      some { s with registered := Function.update s.registered channel false }
    else none
  | .actor actor => s.runActor actor

/-- A handshake task that holds the channel is queued or running. -/
def Holds (s : PeerLinks) (channel : ChannelRef) : Prop :=
  ∃ actor, (∃ msg, (msg, channel) ∈ s.mailbox actor) ∨ ∃ pc, s.running actor = some (pc, channel)

end PeerLinks

end Athena
