import Athena.Native.LoginService
import Athena.Native.MongodbDAO

/-!
# Players of the game node and their data (`game/src/objs/Player.h`, `module/Module.h`,
`service/LoginService.cpp`, `service/PlayerMgr.cpp`)

`GameNode` is the game node with its player objects, `PlayerMgr` and the collection of
role records.  A `Player*` is a block of the player pool; the game never releases one.
The functions of `LoginService` are sequences of calls here, and the calls are the
functions of this module, so that a run may also interleave them.

A player's `ModuleContainer` holds the one module that `initModules` registers.
`registered ch` says whether `channelPtr` still finds the channel `ch` in its loop's
registry.
-/

namespace Athena

/-- `Module<DO>` with the `is_dirty` of its base. -/
structure Module (DO : Type) where
  dataDO_ : Option DO
  is_dirty : Bool
  deriving DecidableEq, Repr, Inhabited

namespace Module

variable {DO : Type} [Inhabited DO] [BsonSerializable DO]

def new : Module DO :=
  { dataDO_ := none, is_dirty := false }

def markDirty (m : Module DO) : Module DO :=
  { m with is_dirty := true }

/-- `loadDataFromDB` for the player `pid`; `fromDO` is the module's own. -/
def loadDataFromDB (fromDO : Module DO → Option DO → Module DO) (reply : FindReply)
    (coll : Collection) (pid : UInt32) (m : Module DO) : Module DO :=
  match (MongodbDAO.find_one reply coll (ofUid pid) : Option DO) with
  | none => fromDO m none
  | some ret =>
    let m := { m with dataDO_ := some ret }
    fromDO m m.dataDO_

/-- `saveDataToDB`.  What `update` returns is not looked at. -/
def saveDataToDB (reply : UpdateReply) (coll : Collection) (m : Module DO) : Collection :=
  match m.is_dirty, m.dataDO_ with
  | true, some dataDO => (MongodbDAO.update reply coll dataDO).2
  | _, _ => coll

end Module

namespace RoleModule

/-- `RoleModule::fromDO`: without an object a default one is made for the player. -/
def fromDO (pid : UInt32) (m : Module RoleDO) (dataObj : Option RoleDO) : Module RoleDO :=
  match dataObj with
  | none => { m with dataDO_ := some { (default : RoleDO) with _id := ofUid pid } }
  | some _ => m

def onLogin (m : Module RoleDO) : Module RoleDO :=
  m.markDirty

def onLogout (m : Module RoleDO) : Module RoleDO :=
  m

end RoleModule

namespace Game

/-- The game's `Player`.  `role` is what its `ModuleContainer` holds. -/
structure Player where
  pid : UInt32
  sid : UInt64
  channel : Option ChannelRef
  hashCode : UInt32
  role : Option (Module RoleDO)
  deriving Repr, Inhabited

namespace Player

/-- `setChannel`. -/
def setChannel (registered : ChannelRef → Bool) (p : Player) (ch : ChannelRef) : Player :=
  { p with channel := if registered ch then some ch else none }

/-- The constructor. -/
def new (registered : ChannelRef → Bool) (pid : UInt32) (sid : UInt64) (channel : ChannelRef) :
    Player :=
  { pid := pid, sid := sid, channel := none, hashCode := 0, role := none : Player }.setChannel
    registered channel

def initModules (p : Player) : Player :=
  { p with role := some .new }

/-- `loadDataFormDB`. -/
def loadDataFormDB (reply : FindReply) (coll : Collection) (p : Player) : Player :=
  { p with role := p.role.map (Module.loadDataFromDB (RoleModule.fromDO p.pid) reply coll p.pid) }

def onLogin (p : Player) : Player :=
  { p with hashCode := p.pid, role := p.role.map RoleModule.onLogin }

def onLogout (p : Player) : Player :=
  { p with role := p.role.map RoleModule.onLogout }

/-- `saveDataToDB`. -/
def saveDataToDB (reply : UpdateReply) (coll : Collection) (p : Player) : Collection :=
  match p.role with
  | none => coll
  | some role => role.saveDataToDB reply coll

end Player

/-- `Player*` on the game node. -/
abbrev PlayerPtr := Nat

/-- The player objects, `PlayerMgr::players`, and the role collection. -/
structure GameNode where
  pool : ObjectPool Player
  players : UInt32 → Option PlayerPtr
  roles : Collection

namespace GameNode

/-- Nobody has logged in; the collection is what earlier processes left. -/
def init (roles : Collection) : GameNode :=
  { pool := .GetPool, players := fun _ => none, roles := roles }

/-- `*player`. -/
def deref (s : GameNode) (player : PlayerPtr) : Player := s.pool.objs player

/-- Run a method of a player that touches only its object. -/
def modify (s : GameNode) (player : PlayerPtr) (f : Player → Player) : GameNode :=
  { s with pool := { s.pool with objs := Function.update s.pool.objs player (f (s.deref player)) } }

/-- A changed player is read as it was changed. -/
@[simp] theorem deref_modify_self (s : GameNode) (player : PlayerPtr) (f : Player → Player) :
    (s.modify player f).deref player = f (s.deref player) :=
  Function.update_self _ _ _

/-- A change to one player is not seen at another. -/
theorem deref_modify_of_ne {s : GameNode} {player p : PlayerPtr} (h : p ≠ player)
    (f : Player → Player) : (s.modify player f).deref p = s.deref p :=
  Function.update_of_ne h _ _

/-- What the method leaves alone is as it was, in all objects. -/
theorem apply_deref_modify {β : Type _} (π : Player → β) {f : Player → Player}
    (hf : ∀ p, π (f p) = π p) (s : GameNode) (player q : PlayerPtr) :
    π ((s.modify player f).deref q) = π (s.deref q) := by
  by_cases hq : q = player
  · rw [hq, deref_modify_self, hf]
  · rw [deref_modify_of_ne hq]

/-! ## `PlayerMgr` -/

def getPlayer (s : GameNode) (playerId : UInt32) : Option PlayerPtr :=
  s.players playerId

/-- `newPlayer`. -/
def newPlayer (registered : ChannelRef → Bool) (s : GameNode) (playerId : UInt32) (sid : UInt64)
    (channel : ChannelRef) : PlayerPtr × GameNode :=
  let res := s.pool.acquireImpl (.new registered playerId sid channel)
  (res.1, { s with pool := res.2 })

/-- `addPlayer`: `insert` leaves an entry that is there alone. -/
def addPlayer (s : GameNode) (player : PlayerPtr) : GameNode :=
  match s.players (s.deref player).pid with
  | some _ => s
  | none => { s with players := Function.update s.players (s.deref player).pid (some player) }

/-! ## `LoginService` -/

/-- The branch of `onPlayerLogin` for a player who is not known. -/
def createPlayer (registered : ChannelRef → Bool) (reply : FindReply) (s : GameNode)
    (playerId : UInt32) (sid : UInt64) (channel : ChannelRef) : PlayerPtr × GameNode :=
  let res := s.newPlayer registered playerId sid channel
  let s := res.2.modify res.1 Player.initModules
  (res.1, s.modify res.1 (Player.loadDataFormDB reply s.roles))

/-- `onPlayerLogin`.  The response goes to the channel and repeats the request. -/
def onPlayerLogin (registered : ChannelRef → Bool) (reply : FindReply) (s : GameNode)
    (channel : ChannelRef) (req : SessionMsg) : GameNode × SessionMsg × Int64 :=
  let playerId := toUid req.roleid
  let res : PlayerPtr × GameNode :=
    match s.getPlayer playerId with
    | some existPlayer => (existPlayer, s.modify existPlayer (·.setChannel registered channel))
    | none => s.createPlayer registered reply playerId req.sid.toUInt64 channel
  let s := res.2.modify res.1 Player.onLogin
  (s.addPlayer res.1, { sid := req.sid, roleid := req.roleid }, req.roleid)

/-- `saveDataToDB` of a player. -/
def saveDataToDB (reply : UpdateReply) (s : GameNode) (player : PlayerPtr) : GameNode :=
  { s with roles := (s.deref player).saveDataToDB reply s.roles }

/-- `onPlayerDisconnect`. -/
def onPlayerDisconnect (reply : UpdateReply) (s : GameNode) (playerId : Int64) : GameNode :=
  match s.getPlayer (toUid playerId) with
  | none => s
  | some existPlayer =>
    match (s.deref existPlayer).channel with
    | none => s
    | some _ => (s.modify existPlayer Player.onLogout).saveDataToDB reply existPlayer

end GameNode

end Game

end Athena
