import Athena.Native.Channel
import Athena.Native.PeerConn

/-!
# The router's transfers (`router/src/route/RouteMgr.cpp`)

`INNER_ROUTE_TRANSFER` asks the router to pass a message on: to the node it names, else
to the node the route table has for the player, else to every game node.  `posted` are the
tasks that `sendRawMsg` has queued for the loops of the destinations; such a task is
`Channel.eventLoopRawWrite`.  `errors` counts the calls of `ERR_LOG`; of the logs of
lower levels there is no account.

A transfer is one step: no channel closes between its lookup and the send.  The route table
may be any: `bindPlayer` and `unbindPlayer` set and clear single entries of it.
-/

namespace Athena

/-- `InnerRouteTransfer`.  It was parsed from a buffer whose length is an `int`. -/
structure InnerRouteTransfer where
  player_id : Int64
  dest_service_id : String
  inner_msg_id : Int32
  body : List UInt8
  body_lt : body.length < 2 ^ 31

/-- A send task of the loop of `channel`. -/
structure RawPost where
  channel : ChannelRef
  msgId : Int32
  body : List UInt8
  playerId : Int64
  deriving DecidableEq, Repr

structure RouteMgr where
  peers : PeerConn
  player_routes_ : Int64 → Option String
  /-- `isClosed()` of a channel -/
  isClosed : ChannelRef → Bool
  /-- `channelPtr` finds the channel -/
  live : ChannelRef → Bool
  posted : List RawPost
  errors : Nat

namespace RouteMgr

def ERR_LOG (s : RouteMgr) : RouteMgr := { s with errors := s.errors + 1 }

/-- `findPlayerServiceId`. -/
def findPlayerServiceId (s : RouteMgr) (playerId : Int64) : String :=
  (s.player_routes_ playerId).getD ""

/-- `Channel::sendRawMsg` with a pointer and a length. -/
def sendRawMsg (s : RouteMgr) (channel : ChannelRef) (msgId : Int32) (data : List UInt8)
    (len : Int) (playerId : Int64) : RouteMgr :=
  if len ≤ 0 then s
  else if !s.live channel || s.isClosed channel then s
  else
    let body := data.take len.toNat
    { s with
      posted := s.posted ++
        [{ channel := channel, msgId := msgId, body := body, playerId := playerId }] }

/-- `forwardToService`. -/
def forwardToService (s : RouteMgr) (serviceId : String) (msg : InnerRouteTransfer) :
    Bool × RouteMgr :=
  match s.peers.getChannelByServiceId s.isClosed serviceId with
  | none => (false, s)
  | some channel =>
    (true, s.sendRawMsg channel msg.inner_msg_id msg.body (toCInt msg.body.length) msg.player_id)

/-- `onRouteTransfer`. -/
def onRouteTransfer (s : RouteMgr) (msg : InnerRouteTransfer) : RouteMgr :=
  if !msg.dest_service_id.isEmpty then
    let forwarded := s.forwardToService msg.dest_service_id msg
    if forwarded.1 then forwarded.2 else forwarded.2.ERR_LOG
  else
    let dest := s.findPlayerServiceId msg.player_id
    let forwarded := if !dest.isEmpty then s.forwardToService dest msg else (false, s)
    if forwarded.1 then forwarded.2
    else
      let s := forwarded.2
      let channels := s.peers.getChannelsByType s.isClosed SRV_TYPE_GAME
      if channels.isEmpty then s.ERR_LOG
      else
        channels.foldl
          (fun s destChannel =>
            s.sendRawMsg destChannel msg.inner_msg_id msg.body (toCInt msg.body.length)
              msg.player_id) s

end RouteMgr

end Athena
