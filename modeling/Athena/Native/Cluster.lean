import Athena.Native.PeerLinks

/-!
# Servers that shake hands (`gateway/src`, `game/src`, `router/src`)

Any number of servers, each with its links, its actors and its registry of peers.  A server
that connects to another sends it a request that says who it is (`onNewConnect`), and
`onShakHandReq` answers with the name of the server that was asked.

Messages are read in the order in which they were sent on their connection.  What a
server reads of other servers in etcd is what they have put there, or a value that is not a
node; `getServerNode` saves a node for such a value as well.
-/

namespace Athena

/-- The configuration of a server, with the first of `getLocalIPs`. -/
structure ServerConf where
  service_name : String
  type : Int32
  ip : String
  port : Int32
  /-- `onShakHandResponse` registers the channel: the gateway's and the router's do, and the
      game's does not. -/
  savesResponse : Bool
  /-- an IPv4 address as `inet_ntop` writes it -/
  ip_plain : '/' ∉ ip.toList

namespace ServerConf

def address (conf : ServerConf) : String := conf.ip ++ ":" ++ toString conf.port.toInt

/-- `setMySelfInfo` -/
def mySelf (conf : ServerConf) : NodeInfo :=
  { service_id := conf.service_name ++ "/" ++ conf.address
    service_name := conf.service_name
    type := conf.type }

end ServerConf

/-- An end of a connection: a server and its channel. -/
abbrev LinkEnd (ι : Type) : Type := ι × ChannelRef

/-- The servers `ι` and their connections. -/
structure Cluster (ι : Type) where
  links : ι → PeerLinks
  /-- the other end of the connection -/
  peer : LinkEnd ι → Option (LinkEnd ι)
  /-- the end that has connected to the other one -/
  dialed : LinkEnd ι → Bool
  /-- the messages on their way to an end -/
  wire : LinkEnd ι → List Handshake
  /-- the channel that the `onShakHandReq` on an actor has to answer -/
  answer : ι × Nat → Option ChannelRef

inductive ClusterAct (ι : Type) where
  /-- `saveNode` of a node that was read from etcd; none for a value that is not a node -/
  | discover (i : ι) (node : Option ι)
  /-- `channel` connects to a server, which accepts `accepted` -/
  | connect (i : ι) (channel : ChannelRef) (j : ι) (accepted : ChannelRef)
  /-- the next message is read and queued on an actor -/
  | read (i : ι) (channel : ChannelRef) (actor : Nat)
  /-- the next step of an actor -/
  | actor (i : ι) (actor : Nat)
  | onClosed (i : ι) (channel : ChannelRef)
  | releaseChannel (i : ι) (channel : ChannelRef)

namespace Cluster

variable {ι : Type}

def init : Cluster ι :=
  { links := fun _ => .init, peer := fun _ => none, dialed := fun _ => false
    wire := fun _ => [], answer := fun _ => none }

variable [DecidableEq ι] (conf : ι → ServerConf)

def setLinks (s : Cluster ι) (i : ι) (links : PeerLinks) : Cluster ι :=
  { s with links := Function.update s.links i links }

/-- `sendMsg`: a closed channel sends nothing.  There is room for the frame in the send ring:
    where there is none, `eventLoopWrite` drops it. -/
def sendMsg (s : Cluster ι) (e : LinkEnd ι) (msg : Handshake) : Cluster ι :=
  match s.peer e with
  | none => s
  | some f =>
    if (s.links e.1).closed e.2 then s
    else { s with wire := Function.update s.wire f (s.wire f ++ [msg]) }

/-- The node that a value in etcd gives. -/
def nodeOf : Option ι → NodeInfo
  | some j => (conf j).mySelf
  | none => ⟨"", "", 0⟩

/-- `onNewConnect` -/
def onNewConnect (s : Cluster ι) (e : LinkEnd ι) : Cluster ι :=
  s.sendMsg e (.req (conf e.1).mySelf)

def connect (s : Cluster ι) (e f : LinkEnd ι) : Option (Cluster ι) :=
  if s.peer e = none ∧ s.peer f = none ∧ e ≠ f then
    match (s.links e.1).step (.connect e.2) with
    | none => none
    | some dialing =>
      let s := s.setLinks e.1 dialing
      match (s.links f.1).step (.connect f.2) with
      | none => none
      | some accepting =>
        let s := s.setLinks f.1 accepting
        some (onNewConnect conf { s with
          peer := Function.update (Function.update s.peer e (some f)) f (some e)
          dialed := Function.update s.dialed e true } e)
  else none

/-- The handler of a response does nothing on a game server. -/
def ignores (i : ι) : Handshake → Bool
  | .req _ => false
  | .res _ => !(conf i).savesResponse

def read (s : Cluster ι) (e : LinkEnd ι) (actor : Nat) : Option (Cluster ι) :=
  match s.wire e with
  | [] => none
  | msg :: rest =>
    match (s.links e.1).step (.read e.2 actor msg) with
    | none => none
    | some links =>
      let s := { s with wire := Function.update s.wire e rest }
      some (if ignores conf e.1 msg then s else s.setLinks e.1 links)

/-- The channel that has to be answered once an actor has taken the next message. -/
def taken (s : Cluster ι) (i : ι) (actor : Nat) : Option ChannelRef :=
  match (s.links i).running actor, (s.links i).mailbox actor with
  | none, (.req _, channel) :: _ => some channel
  | _, _ => s.answer (i, actor)

/-- The next step of an actor: an `onShakHandReq` that has registered its channel answers. -/
def runActor (s : Cluster ι) (i : ι) (actor : Nat) : Option (Cluster ι) :=
  match (s.links i).running actor, s.answer (i, actor) with
  | none, some channel =>
    some { s.sendMsg (i, channel) (.res (conf i).mySelf.service_id) with
      answer := Function.update s.answer (i, actor) none }
  | _, _ =>
    match (s.links i).runActor actor with
    | none => none
    | some links =>
      some { s.setLinks i links with
        answer := Function.update s.answer (i, actor) (s.taken i actor) }

def step (s : Cluster ι) : ClusterAct ι → Option (Cluster ι)
  | .discover i node =>
    some (s.setLinks i { s.links i with peers := (s.links i).peers.saveNode (nodeOf conf node) })
  | .connect i channel j accepted => s.connect conf (i, channel) (j, accepted)
  | .read i channel actor => s.read conf (i, channel) actor
  | .actor i actor => s.runActor conf i actor
  | .onClosed i channel => ((s.links i).step (.onClosed channel)).map (s.setLinks i)
  | .releaseChannel i channel => ((s.links i).step (.releaseChannel channel)).map (s.setLinks i)

end Cluster

end Athena
