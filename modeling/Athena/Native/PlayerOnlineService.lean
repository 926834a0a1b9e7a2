import Athena.Native.Channel
import Athena.Native.ObjectPool

/-!
# The gateway's table of online players (`gateway/src/objs/PlayerOnlineService.cpp`, `Player.h`)

Three places point at each other: `onlinePlayer` maps a uid to a pooled `Player`, the
`Player` names its channel, and the channel's `userData` points back at the `Player`.
Every function takes `mutex_` for its whole length, so it is one step; what the
callers do afterwards with the returned pointer is not under the lock.

A channel stands for its object, not for its address: two connections are two
channels.  `createPlayer` dereferences its argument, so a `Player`'s channel is never
null.
-/

namespace Athena

/-- `Player*`: a block of the `Player` pool. -/
abbrev PlayerRef := Nat

/-- The gateway's `Player`. -/
structure Player where
  pid : UInt32
  sid : Int64
  channel : ChannelRef
  valid : Bool
  deriving DecidableEq, Repr, Inhabited

/-- `PlayerOnlineService` with the pool of its players and the `userData` of every
    channel. -/
structure PlayerOnlineService where
  onlinePlayer : UInt32 → Option PlayerRef
  pool : ObjectPool Player
  userData : ChannelRef → Option PlayerRef

namespace PlayerOnlineService

/-- Nobody has logged in. -/
def init : PlayerOnlineService :=
  { onlinePlayer := fun _ => none, pool := .GetPool, userData := fun _ => none }

/-- `*player`. -/
def deref (s : PlayerOnlineService) (player : PlayerRef) : Player := s.pool.objs player

/-- `channel->setUserData(data)`. -/
def setUserData (s : PlayerOnlineService) (channel : ChannelRef) (data : Option PlayerRef) :
    PlayerOnlineService :=
  { s with userData := Function.update s.userData channel data }

/-- `onlinePlayer.erase(it)` for the entry of `uid`. -/
def erase (s : PlayerOnlineService) (uid : UInt32) : PlayerOnlineService :=
  { s with onlinePlayer := Function.update s.onlinePlayer uid none }

/-- `Player::recycle`. -/
def recycle (s : PlayerOnlineService) (player : PlayerRef) : PlayerOnlineService :=
  { s with pool := s.pool.release player }

/-- `Player::create`. -/
def create (s : PlayerOnlineService) (pid : UInt32) (sid : Int64) (channel : ChannelRef) :
    PlayerRef × PlayerOnlineService :=
  let acquired := s.pool.acquireImpl { pid := pid, sid := sid, channel := channel, valid := false }
  (acquired.1, { s with pool := acquired.2 })

/-- `findPlayer`. -/
def findPlayer (s : PlayerOnlineService) (id : UInt32) : Option PlayerRef :=
  s.onlinePlayer id

/-- The part of `createPlayer` that takes an old session of the uid out. -/
def kick (s : PlayerOnlineService) (uid : UInt32) : PlayerOnlineService :=
  match s.onlinePlayer uid with
  | none => s
  | some old =>
    -- the old connection must not keep pointing at an object that goes to the pool
    let s := s.setUserData (s.deref old).channel none
    (s.recycle old).erase uid

/-- `createPlayer`. -/
def createPlayer (s : PlayerOnlineService) (uid : UInt32) (sid : Int64) (channel : ChannelRef) :
    PlayerRef × PlayerOnlineService :=
  let created := (s.kick uid).create uid sid channel
  let s := created.2.setUserData channel (some created.1)
  (created.1, { s with onlinePlayer := Function.update s.onlinePlayer uid (some created.1) })

/-- `removePlayer`. -/
def removePlayer (s : PlayerOnlineService) (id : UInt32) :
    Option PlayerRef × PlayerOnlineService :=
  match s.onlinePlayer id with
  | none => (none, s)
  | some player => (some player, (s.erase id).recycle player)

/-- `removePlayerByChannel`: `*outPid` and `*outSid` when it returns a player. -/
def removePlayerByChannel (s : PlayerOnlineService) (channel : ChannelRef) :
    Option (UInt32 × Int64) × PlayerOnlineService :=
  match s.userData channel with
  | none => (none, s)
  | some player =>
    let pid := (s.deref player).pid
    -- an entry of another player means that this pointer is out of date
    if s.onlinePlayer pid ≠ some player then (none, s.setUserData channel none)
    else
      (some (pid, (s.deref player).sid), ((s.erase pid).setUserData channel none).recycle player)

/-- `Player::setValid`. -/
def setValid (s : PlayerOnlineService) (player : PlayerRef) : PlayerOnlineService :=
  { s with
    pool := { s.pool with
      objs := Function.update s.pool.objs player { s.deref player with valid := true } } }

/-! ## What the table operations leave alone -/

section
variable (s : PlayerOnlineService)

/-- `setUserData` writes to no player, -/
@[simp] theorem setUserData_deref (c : ChannelRef) (data : Option PlayerRef) (p : PlayerRef) :
    (s.setUserData c data).deref p = s.deref p := rfl

/-- and leaves the table alone. -/
@[simp] theorem setUserData_onlinePlayer (c : ChannelRef) (data : Option PlayerRef) :
    (s.setUserData c data).onlinePlayer = s.onlinePlayer := rfl

/-- Erasing an entry of the table writes to no player, -/
@[simp] theorem erase_deref (uid : UInt32) (p : PlayerRef) : (s.erase uid).deref p = s.deref p :=
  rfl

/-- and leaves the channels' `userData` alone. -/
@[simp] theorem erase_userData (uid : UInt32) : (s.erase uid).userData = s.userData := rfl

/-- A released player stays readable. -/
@[simp] theorem recycle_deref (q p : PlayerRef) : (s.recycle q).deref p = s.deref p := by
  simp [deref, recycle]

/-- A release takes no entry out of the table, -/
@[simp] theorem recycle_onlinePlayer (q : PlayerRef) :
    (s.recycle q).onlinePlayer = s.onlinePlayer := rfl

/-- and leaves the channels' `userData` alone. -/
@[simp] theorem recycle_userData (q : PlayerRef) : (s.recycle q).userData = s.userData := rfl

end

end PlayerOnlineService

end Athena
