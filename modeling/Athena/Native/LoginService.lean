import Athena.Native.PlayerOnlineService

/-!
# Login and logout on the game node (`game/src/service/LoginService.cpp`, `PlayerMgr.cpp`)

The game keeps one `Player` per uid from its first login on.  `lastAction` records
which of the modules' callbacks ran last for a uid; the code does not read it.
Loading and saving the player's data is not part of this model.
-/

namespace Athena

/-- `InnerLoginRequest`, `InnerLoginResponse` and `InnerPlayerDisconnectRequest`: the
    three have the same fields. -/
structure SessionMsg where
  sid : Int64
  roleid : Int64
  deriving DecidableEq, Repr

/-- `(uint32)` of an `int64`. -/
def toUid (x : Int64) : UInt32 := x.toUInt64.toUInt32

/-- A `uint32` widened to `int64`. -/
def ofUid (uid : UInt32) : Int64 := uid.toUInt64.toInt64

/-- The player id a receiver decodes from the four-byte header field. -/
def wirePlayerId (playerId : Int64) : Int64 := playerId.toInt32.toInt64

/-- Every uid survives the body. -/
@[simp] theorem toUid_ofUid (uid : UInt32) : toUid (ofUid uid) = uid := by
  simp [toUid, ofUid]

/-- Every uid survives the header, also those that come out negative. -/
@[simp] theorem toUid_wirePlayerId (uid : UInt32) : toUid (wirePlayerId (ofUid uid)) = uid := by
  apply UInt32.eq_of_toBitVec_eq
  ext i hi
  -- bit `i` of the widened uid, below the sign extensions
  simp only [toUid, wirePlayerId, ofUid, UInt64.toBitVec_toUInt32, Int64.toBitVec_toUInt64,
    Int32.toBitVec_toInt64, Int64.toBitVec_toInt32, UInt64.toBitVec_toInt64,
    UInt32.toBitVec_toUInt64, BitVec.getElem_setWidth]
  rw [BitVec.getLsbD_eq_getElem (by omega), BitVec.getElem_signExtend, dif_pos hi,
    BitVec.getElem_signExtend, dif_pos (by omega), BitVec.getElem_setWidth]
  exact BitVec.getLsbD_eq_getElem hi

/-- The callback that ran last for a player. -/
inductive LoginAction where
  | onLogin
  | onLogout
  deriving DecidableEq, Repr

/-- The game's `Player`. -/
structure GamePlayer where
  sid : Int64
  channel : Option ChannelRef
  deriving DecidableEq, Repr

/-- `LoginService` with its `PlayerMgr`. -/
structure LoginService where
  players : UInt32 → Option GamePlayer
  lastAction : UInt32 → Option LoginAction

namespace LoginService

def init : LoginService :=
  { players := fun _ => none, lastAction := fun _ => none }

/-- `onPlayerLogin`: the response, and the player id of its header.  A known player
    keeps the session id of his first login. -/
def onPlayerLogin (s : LoginService) (channel : ChannelRef) (req : SessionMsg) :
    LoginService × SessionMsg × Int64 :=
  let playerId := toUid req.roleid
  let existPlayer : GamePlayer :=
    match s.players playerId with
    | some player => { player with channel := some channel }
    | none => { sid := req.sid, channel := some channel }
  ({ players := Function.update s.players playerId (some existPlayer)
     lastAction := Function.update s.lastAction playerId (some .onLogin) },
    { sid := req.sid, roleid := req.roleid }, req.roleid)

/-- `onPlayerDisconnect`: the player is taken from the frame header, and the request
    is not looked at. -/
def onPlayerDisconnect (s : LoginService) (playerId : Int64) (_req : SessionMsg) : LoginService :=
  match s.players (toUid playerId) with
  | none => s
  | some existPlayer =>
    match existPlayer.channel with
    | none => s
    | some _ =>
      { s with lastAction := Function.update s.lastAction (toUid playerId) (some .onLogout) }

end LoginService

end Athena
