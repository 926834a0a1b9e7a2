import Mathlib.Logic.Function.Basic
import Athena.Native.PlayerOnlineService

/-!
# The registry of peer nodes (`athena-discovery/discovery/PeerConn.cpp`)

`node_id_nodes` and `node_type_nodes` share one `NodeChannelInfo` per node, which is
why a node is a reference here and `nodes` is what the references point to.  All
functions take `mutex_`.  Of `core::NodeInfo` the fields that the registry and its
callers on the gateway use are kept.  A node that was removed stays in `nodes`, where
nothing refers to it.
-/

namespace Athena

/-- `core::SRV_TYPE_GAME`. -/
def SRV_TYPE_GAME : Int32 := 3

/-- `core::NodeInfo`. -/
structure NodeInfo where
  service_id : String
  service_name : String
  type : Int32
  deriving DecidableEq, Repr

/-- `NodeChannelInfo`. -/
structure NodeChannelInfo where
  nodeInfo : NodeInfo
  channels : List ChannelRef
  deriving DecidableEq, Repr

/-- `std::shared_ptr<NodeChannelInfo>`. -/
abbrev NodeRef := Nat

/-- `PeerConn`. -/
structure PeerConn where
  nodes : List NodeChannelInfo
  node_id_nodes : String → Option NodeRef
  node_type_nodes : Int32 → List NodeRef

namespace PeerConn

def init : PeerConn :=
  { nodes := [], node_id_nodes := fun _ => none, node_type_nodes := fun _ => [] }

/-- `saveNode`: a service id that is known keeps its node. -/
def saveNode (s : PeerConn) (nodeInfo : NodeInfo) : PeerConn :=
  match s.node_id_nodes nodeInfo.service_id with
  | some _ => s
  | none =>
    let uNode : NodeRef := s.nodes.length
    { nodes := s.nodes ++ [{ nodeInfo := nodeInfo, channels := [] }]
      node_id_nodes := Function.update s.node_id_nodes nodeInfo.service_id (some uNode)
      node_type_nodes := Function.update s.node_type_nodes nodeInfo.type
        (s.node_type_nodes nodeInfo.type ++ [uNode]) }

/-- `removeNode`: the node goes from the list of its type, and then from the ids. -/
def removeNode (s : PeerConn) (nodeKey : String) : PeerConn :=
  match s.node_id_nodes nodeKey with
  | none => s
  | some targetNode =>
    match s.nodes[targetNode]? with
    -- a null entry would be dereferenced
    | none => s
    | some node =>
      let nodeType := node.nodeInfo.type
      { s with
        node_type_nodes := Function.update s.node_type_nodes nodeType
          ((s.node_type_nodes nodeType).filter (· ≠ targetNode))
        node_id_nodes := Function.update s.node_id_nodes nodeKey none }

/-- The `channels` of a node. -/
def channelsOf (s : PeerConn) (node : NodeRef) : List ChannelRef :=
  (s.nodes[node]?.map NodeChannelInfo.channels).getD []

/-- `saveNodeChannel`.  `channelLive` says whether `channelPtr` finds the channel. -/
def saveNodeChannel (s : PeerConn) (channelLive : Bool) (serviceId : String)
    (channel : ChannelRef) : PeerConn :=
  if serviceId.isEmpty || !channelLive then s
  else
    match s.node_id_nodes serviceId with
    | none => s
    | some node =>
      if (s.channelsOf node).contains channel then s
      else
        { s with
          nodes := s.nodes.modify node fun n => { n with channels := n.channels ++ [channel] } }

/-- The part of `saveNodeChannel` that runs under `mutex_`, on the pointer that
    `channelPtr` gave. -/
def addNodeChannel (s : PeerConn) (serviceId : String) (channel : ChannelRef) : PeerConn :=
  match s.node_id_nodes serviceId with
  | none => s
  | some node =>
    if (s.channelsOf node).contains channel then s
    else
      { s with
        nodes := s.nodes.modify node fun n => { n with channels := n.channels ++ [channel] } }

/-- `saveNodeChannel` adds a live channel under the name of a service. -/
theorem saveNodeChannel_eq (s : PeerConn) (channelLive : Bool) (serviceId : String)
    (channel : ChannelRef) :
    s.saveNodeChannel channelLive serviceId channel =
      if serviceId.isEmpty || !channelLive then s else s.addNodeChannel serviceId channel :=
  rfl

/-- `removeNodeChannel`: the nodes that `node_id_nodes` lists lose the channel. -/
def removeNodeChannel (s : PeerConn) (channel : ChannelRef) : PeerConn :=
  { s with
    nodes := s.nodes.mapIdx fun node n =>
      if s.node_id_nodes n.nodeInfo.service_id = some node then
        { n with channels := n.channels.filter (· ≠ channel) }
      else n }

/-- `getChannelByServiceId`: the last open channel of the node. -/
def getChannelByServiceId (s : PeerConn) (isClosed : ChannelRef → Bool) (serviceId : String) :
    Option ChannelRef :=
  match s.node_id_nodes serviceId with
  | none => none
  | some node => (s.channelsOf node).reverse.find? fun channel => !isClosed channel

/-- `getChannelsByType`. -/
def getChannelsByType (s : PeerConn) (isClosed : ChannelRef → Bool) (serverType : Int32) :
    List ChannelRef :=
  (s.node_type_nodes serverType).flatMap fun node =>
    (s.channelsOf node).filter fun channel => !isClosed channel

/-- The channel `sendMsg` takes for a server type: the first one of the first node,
    closed or not. -/
def sendMsgChannel (s : PeerConn) (serverType : Int32) : Option ChannelRef :=
  match s.node_type_nodes serverType with
  | [] => none
  | node :: _ => (s.channelsOf node).head?

/-- `sendMsg` for a server type, with a message that is not null: what it returns, and
    the channel it hands the message to. -/
def sendMsg (s : PeerConn) (serverType : Int32) : Bool × Option ChannelRef :=
  match s.node_type_nodes serverType with
  | [] => (false, none)
  | node :: _ =>
    match s.channelsOf node with
    | [] => (false, none)
    | channel :: _ => (true, some channel)

/-! ## Sequences of calls -/

/-- A call of the registry; a null pointer is `none`. -/
inductive Call where
  | saveNode (nodeInfo : Option NodeInfo)
  | removeNode (nodeKey : String)
  /-- with what `channelPtr` finds for the channel, if there is one -/
  | saveNodeChannel (serviceId : String) (shared : Option ChannelRef)
  | removeNodeChannel (channel : Option ChannelRef)
  deriving DecidableEq, Repr

def call (s : PeerConn) : Call → PeerConn
  | .saveNode (some nodeInfo) => s.saveNode nodeInfo
  | .saveNode none => s
  | .removeNode nodeKey => s.removeNode nodeKey
  | .saveNodeChannel serviceId (some shared) => s.saveNodeChannel true serviceId shared
  | .saveNodeChannel _ none => s
  | .removeNodeChannel (some channel) => s.removeNodeChannel channel
  | .removeNodeChannel none => s

end PeerConn

end Athena
