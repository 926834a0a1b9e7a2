import Mathlib.Logic.Function.Basic
import Athena.Native.PeerConn

/-!
# Discovery of the peers (`gateway/src/discovery/Discovery.cpp`)

`initWithConf` connects to the nodes that etcd has under the watched keys, and
`onWatchKeyChange` to a node that is put there later.  Both read a node from its value with
`DeserializeNodeInfo`.  A `std::string` is the sequence of its bytes, each a character.
rapidjson is a parameter: what its functions answer on a document.
-/

namespace Athena

/-- All of `core::NodeInfo`; `std::make_unique` makes it with the defaults. -/
structure NodeRecord extends NodeInfo where
  ip : String
  port : Int32
  net_port : Int32
  id : Int32
  group_id : Int32
  meta_data : String → Option String
  keep_alive_lease_id : Int64

namespace NodeRecord

def init : NodeRecord :=
  { service_id := "", service_name := "", type := 0, ip := "", port := 0, net_port := 0, id := 0,
    group_id := 0, meta_data := fun _ => none, keep_alive_lease_id := 0 }

end NodeRecord

/-- The part of rapidjson that `DeserializeNodeInfo` uses.  `Member` is the first member of
that name, and `Members` are the members of an object with their names. -/
structure RapidJson where
  Value : Type
  Parse : String → Option Value
  IsObject : Value → Bool
  Member : Value → String → Option Value
  IsString : Value → Bool
  GetString : Value → String
  IsInt : Value → Bool
  GetInt : Value → Int32
  IsInt64 : Value → Bool
  GetInt64 : Value → Int64
  Members : Value → List (String × Value)

namespace RapidJson

/-- `c_str`, as a function that stops at the first NUL reads it. -/
def cStr (s : String) : String := String.ofList (s.toList.takeWhile (· ≠ '\x00'))

variable (R : RapidJson)

/-- A member of a kind, and the value the field has without it. -/
def field {α : Type} (is : R.Value → Bool) (get : R.Value → α) (doc : R.Value) (name : String)
    (old : α) : α :=
  match R.Member doc name with
  | some value => if is value then get value else old
  | none => old

def stringField : R.Value → String → String → String := R.field R.IsString R.GetString

def intField : R.Value → String → Int32 → Int32 := R.field R.IsInt R.GetInt

def int64Field : R.Value → String → Int64 → Int64 := R.field R.IsInt64 R.GetInt64

/-- `node.meta_data[m.name.GetString()] = m.value.GetString()` for each member, after
`clear`. -/
def metaData (object : R.Value) : String → Option String :=
  (R.Members object).foldl (fun meta_data m => Function.update meta_data m.1 (some (R.GetString m.2)))
    fun _ => none

/-- `JsonUtils::DeserializeNodeInfo`: what it returns, and the node. -/
def DeserializeNodeInfo (jsonStr : String) (node : NodeRecord) : Bool × NodeRecord :=
  match R.Parse (cStr jsonStr) with
  | none => (false, node)
  | some doc =>
    if !R.IsObject doc then (false, node)
    else
      (true,
        { service_id := R.stringField doc "service_id" node.service_id
          service_name := R.stringField doc "service_name" node.service_name
          ip := R.stringField doc "ip" node.ip
          port := R.intField doc "port" node.port
          type := R.intField doc "type" node.type
          net_port := R.intField doc "net_port" node.net_port
          id := R.intField doc "id" node.id
          group_id := R.intField doc "group_id" node.group_id
          keep_alive_lease_id := R.int64Field doc "keep_alive_lease_id" node.keep_alive_lease_id
          meta_data := R.field R.IsObject R.metaData doc "meta_data" node.meta_data })

end RapidJson

/-- The keys and values of etcd, in the order of the keys, which is that of `std::map`. -/
structure Etcd where
  pairs : List (String × String)
  nodup : (pairs.map Prod.fst).Nodup

namespace Etcd

/-- `client->keys(prefix)`. -/
def keys (etcd : Etcd) (pre : String) : List String :=
  (etcd.pairs.map Prod.fst).filter fun key => pre.toList.isPrefixOf key.toList

/-- `client->get(key)`. -/
def get (etcd : Etcd) (key : String) : Option String := etcd.pairs.lookup key

/-- `AthenaEtcdClient::getKeysWithValues`, which `getPrefix` calls. -/
def getKeysWithValues (etcd : Etcd) (pre : String) : List (String × String) :=
  (etcd.keys pre).filterMap fun key =>
    -- directories are left out
    if key.toList.getLast? = some '/' then none
    else
      match etcd.get key with
      | some value => some (key, value)
      | none => none

end Etcd

/-- `etcd::Event::EventType`. -/
inductive EventType where
  | PUT
  | DELETE_
  | INVALID
  deriving DecidableEq, Repr

/-- The gateway: the connects of `ownTcpClient`, the nodes handed to `saveNode`, and the
registry. -/
structure Discovery where
  connects : List (String × Int32)
  saved : List NodeRecord
  peers : PeerConn

namespace Discovery

def init : Discovery := { connects := [], saved := [], peers := .init }

/-- `connect` and `saveNode`. -/
def addNode (s : Discovery) (node : NodeRecord) : Discovery :=
  { connects := s.connects ++ [(node.ip, node.port)]
    saved := s.saved ++ [node]
    peers := s.peers.saveNode node.toNodeInfo }

variable (R : RapidJson)

/-- `AthenaDiscovery::getServerNode`: what `DeserializeNodeInfo` returns is only logged. -/
def getServerNode (etcd : Etcd) (key : String) : List NodeRecord :=
  (etcd.getKeysWithValues key).map fun (_, value) => (R.DeserializeNodeInfo value .init).2

/-- The loop of `initWithConf` over `watch-servers`. -/
def initWithConf (s : Discovery) (etcd : Etcd) (watchKeys : List String) : Discovery :=
  watchKeys.foldl (fun s key => (getServerNode R etcd key).foldl addNode s) s

/-- The key up to its first `/`. -/
def keyPre (key : String) : String := String.ofList (key.toList.takeWhile (· ≠ '/'))

def onWatchKeyChange (s : Discovery) (watchedServer : List String) (eventType : EventType)
    (key value : String) : Discovery :=
  match eventType with
  | .PUT =>
    if keyPre key ∈ watchedServer then
      let (ret, nodeInfo) := R.DeserializeNodeInfo value .init
      if ret then s.addNode nodeInfo else s
    else s
  -- nothing is done for a deleted key
  | .DELETE_ => s
  | .INVALID => s

/-- The pairs, as events. -/
def putAll (s : Discovery) (watchedServer : List String) (pairs : List (String × String)) :
    Discovery :=
  pairs.foldl (fun s p => s.onWatchKeyChange R watchedServer .PUT p.1 p.2) s

end Discovery

end Athena
