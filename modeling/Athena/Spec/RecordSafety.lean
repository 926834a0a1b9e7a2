import Athena.ForStd.Run
import Athena.Native.GamePlayer

/-!
# Stored role records and the data that replaces them

An `Audit` runs the game node and keeps account of where the data of its players comes
from.  `version id` counts the writes the server has carried out on the record `id`,
`base p` is the version that the data of the player object `p` was read from or
written as (`none` for default data), and `lost id` says that a record `id` that
existed was replaced by data whose base was not the version stored.

When no record is stored, a failed read does no harm.  When one is, `loadDataFromDB`
treats a read that fails like a record that is not there, `onLogin` marks the default
data dirty, and the next logout replaces the record.

## Key results

- `Audit.inv_step`, `Audit.inv_run`: the data of every known player is derived from
  the record stored for him
- `Audit.records_kept`: no record is lost in a run in which stored records are read
- `Audit.records_lost`: one failed read at login and a logout lose a record
-/

namespace Athena.Game

/-- What `saveDataToDB` would write. -/
def Player.toSave (p : Player) : Option RoleDO :=
  p.role.bind fun m => if m.is_dirty then m.dataDO_ else none

/-- `dataDO_` of the player's module. -/
def Player.data (p : Player) : Option RoleDO :=
  p.role.bind Module.dataDO_

/-- What is saved are the data. -/
theorem Player.data_of_toSave {p : Player} {d : RoleDO} (h : p.toSave = some d) :
    p.data = some d := by
  obtain ⟨m, hm, hd⟩ := Option.bind_eq_some_iff.mp h
  rw [data, hm]
  show m.dataDO_ = some d
  split at hd
  · exact hd
  · exact nomatch hd

/-- A save replaces the record, if there are data to save. -/
theorem Player.saveDataToDB_eq (reply : UpdateReply) (coll : Collection) (p : Player) :
    p.saveDataToDB reply coll =
      match p.toSave with
      | none => coll
      | some d => (MongodbDAO.update reply coll d).2 := by
  rw [Player.saveDataToDB, toSave]
  cases p.role with
  | none => rfl
  | some m =>
    show m.saveDataToDB reply coll = _
    cases hm : m.is_dirty <;> cases hd : m.dataDO_ <;> simp [Module.saveDataToDB, hm, hd]

/-- Loading leaves the object that `find_one` gave, or a default one. -/
theorem Player.data_loadDataFormDB {reply : FindReply} {coll : Collection} {p : Player}
    {m : Module RoleDO} (hm : p.role = some m) :
    (p.loadDataFormDB reply coll).data =
      some ((MongodbDAO.find_one reply coll (ofUid p.pid)).getD
        { (default : RoleDO) with _id := ofUid p.pid }) := by
  simp only [Player.loadDataFormDB, hm, Player.data, Option.map_some, Option.bind_some,
    Module.loadDataFromDB]
  cases (MongodbDAO.find_one reply coll (ofUid p.pid) : Option RoleDO) <;> rfl

/-- The game node, and where the data of its players comes from. -/
structure Audit where
  node : GameNode
  version : Int64 → Nat
  base : PlayerPtr → Option Nat
  lost : Int64 → Bool

/-- What happens on the game node. -/
inductive GameAct where
  | login (registered : ChannelRef → Bool) (channel : ChannelRef) (req : SessionMsg)
      (reply : FindReply)
  | disconnect (playerId : Int64) (reply : UpdateReply)
  | save (pid : UInt32) (reply : UpdateReply)

namespace Audit

/-- Nobody is logged in. -/
def init (roles : Collection) : Audit :=
  { node := .init roles, version := fun _ => 0, base := fun _ => none, lost := fun _ => false }

/-- A player object has just been loaded. -/
def loaded (s : Audit) (node : GameNode) (player : PlayerPtr) (pid : UInt32) (reply : FindReply) :
    Audit :=
  let found : Option RoleDO := MongodbDAO.find_one reply s.node.roles (ofUid pid)
  { s with
    node := node
    base := Function.update s.base player
      (if found.isSome then some (s.version (ofUid pid)) else none) }

/-- `saveDataToDB` of a player. -/
def save (reply : UpdateReply) (s : Audit) (player : PlayerPtr) : Audit :=
  let s' := { s with node := s.node.saveDataToDB reply player }
  match (s.node.deref player).toSave with
  | none => s'
  | some d =>
    if reply.applied then
      let derived := s.base player = some (s.version d._id)
      { s' with
        version := Function.update s.version d._id (s.version d._id + 1)
        base := Function.update s.base player (some (s.version d._id + 1))
        lost := Function.update s.lost d._id
          (s.lost d._id || ((s.node.roles.docs d._id).isSome && !decide derived)) }
    else s'

/-- One call on the game node. -/
def step (s : Audit) : GameAct → Option Audit
  | .login registered channel req reply =>
    let node := (s.node.onPlayerLogin registered reply channel req).1
    match s.node.getPlayer (toUid req.roleid) with
    | some _ => some { s with node := node }
    | none =>
      let player := (s.node.newPlayer registered (toUid req.roleid) req.sid.toUInt64 channel).1
      some (s.loaded node player (toUid req.roleid) reply)
  | .disconnect playerId reply =>
    match s.node.getPlayer (toUid playerId) with
    | none => some s
    | some existPlayer =>
      match (s.node.deref existPlayer).channel with
      | none => some s
      | some _ =>
        some ({ s with node := s.node.modify existPlayer Player.onLogout }.save reply existPlayer)
  | .save pid reply =>
    match s.node.getPlayer pid with
    | none => none
    | some player => some (s.save reply player)

/-- The account follows the node: a disconnect does to it what `onPlayerDisconnect`
    does. -/
theorem step_disconnect_node {s s' : Audit} {playerId : Int64} {reply : UpdateReply}
    (h : step s (.disconnect playerId reply) = some s') :
    s'.node = s.node.onPlayerDisconnect reply playerId := by
  have hsave : ∀ (t : Audit) (p : PlayerPtr), (t.save reply p).node = t.node.saveDataToDB reply p := by
    intro t p
    rw [save]
    split
    · rfl
    · split <;> rfl
  simp only [step] at h
  rw [GameNode.onPlayerDisconnect]
  cases hp : s.node.getPlayer (toUid playerId) with
  | none => rw [hp] at h; rw [← Option.some.inj h]
  | some existPlayer =>
    rw [hp] at h
    cases hch : (s.node.deref existPlayer).channel with
    | none => simp only [hch] at h ⊢; rw [← Option.some.inj h]
    | some ch => simp only [hch] at h ⊢; rw [← Option.some.inj h, hsave]

/-- The condition on a step: a login that has to load the data of its player while a
    record is stored for him gets that record. -/
def LoadsStored (s : Audit) : GameAct → Prop
  | .login _ _ req reply =>
    s.node.getPlayer (toUid req.roleid) = none →
      ∀ doc, s.node.roles.docs (ofUid (toUid req.roleid)) = some doc →
        reply = .answer ∧ (RoleDO.fromBson default doc).isSome = true
  | _ => True

/-- The data of the known player `uid` carries his id, and when a record is stored for
    him, it is derived from that. -/
structure Entry (s : Audit) (uid : UInt32) (player : PlayerPtr) : Prop where
  live : s.node.pool.Live player
  pid_eq : (s.node.deref player).pid = uid
  data : ∃ d, (s.node.deref player).data = some d ∧ d._id = ofUid uid
  derived : (s.node.roles.docs (ofUid uid)).isSome = true →
    s.base player = some (s.version (ofUid uid))

/-- What is true of every player who is known. -/
structure Inv (s : Audit) : Prop where
  wf : s.node.pool.Wf
  entry : ∀ uid player, s.node.players uid = some player → s.Entry uid player
  kept : ∀ id, s.lost id = false

/-- No player is known yet. -/
theorem inv_init (roles : Collection) : Inv (init roles) where
  wf := ObjectPool.wf_getPool
  entry _ _ h := nomatch h
  kept _ := rfl

/-- A method that keeps the pid and the data of the object it runs on. -/
theorem Inv.modify {s : Audit} (h : Inv s) (player : PlayerPtr) {f : Player → Player}
    (hpid : ∀ p, (f p).pid = p.pid) (hdata : ∀ p, (f p).data = p.data) :
    Inv { s with node := s.node.modify player f } where
  wf := { nodup := h.wf.nodup, lt_alloc := h.wf.lt_alloc }
  entry uid q hq := by
    have he := h.entry uid q hq
    have hsame : ((s.node.modify player f).deref q).pid = (s.node.deref q).pid ∧
        ((s.node.modify player f).deref q).data = (s.node.deref q).data := by
      by_cases heq : q = player
      · subst heq
        rw [GameNode.deref_modify_self]
        exact ⟨hpid _, hdata _⟩
      · rw [GameNode.deref_modify_of_ne heq]
        exact ⟨rfl, rfl⟩
    obtain ⟨d, hd, hid⟩ := he.data
    exact { live := he.live
            pid_eq := hsame.1.trans he.pid_eq
            data := ⟨d, hsame.2.trans hd, hid⟩
            derived := he.derived }
  kept := h.kept

/-- The login leaves the data. -/
theorem data_onLogin (p : Player) : p.onLogin.data = p.data := by
  simp only [Player.data, Player.onLogin]
  cases p.role <;> rfl

/-- The logout leaves the data. -/
theorem data_onLogout (p : Player) : p.onLogout.data = p.data := by
  simp only [Player.data, Player.onLogout]
  cases p.role <;> rfl

/-- Saving the data of a known player keeps the invariant: the data is derived from
    what is stored, and afterwards is what is stored. -/
theorem Inv.save {s : Audit} (h : Inv s) {uid : UInt32} {player : PlayerPtr}
    (hp : s.node.players uid = some player) (reply : UpdateReply) : Inv (s.save reply player) := by
  have he := h.entry uid player hp
  obtain ⟨d, hd, hid⟩ := he.data
  have hroles := (s.node.deref player).saveDataToDB_eq reply s.node.roles
  rw [Audit.save]
  cases hsave : (s.node.deref player).toSave with
  | none =>
    rw [hsave] at hroles
    have hsame : s.node.saveDataToDB reply player = s.node := by
      rw [GameNode.saveDataToDB, hroles]
    simp only [hsame]
    exact h
  | some d' =>
    rw [hsave] at hroles
    -- what is written is the player's data
    obtain rfl : d' = d := Option.some.inj ((Player.data_of_toSave hsave).symm.trans hd)
    simp only [MongodbDAO.update] at hroles
    cases happlied : reply.applied with
    | false =>
      rw [happlied] at hroles
      have hsame : s.node.saveDataToDB reply player = s.node := by
        rw [GameNode.saveDataToDB, hroles]
        rfl
      simp only [hsame, Bool.false_eq_true, if_false]
      exact h
    | true =>
      rw [happlied, if_pos rfl] at hroles
      simp only [if_true]
      have hne : ∀ {uid' q}, s.node.players uid' = some q → uid' ≠ uid →
          q ≠ player ∧ ofUid uid' ≠ d'._id := by
        intro uid' q hq hu
        constructor
        · rintro rfl
          exact hu ((h.entry uid' q hq).pid_eq.symm.trans he.pid_eq)
        · intro hids
          apply hu
          rw [← toUid_ofUid uid', hids, hid, toUid_ofUid]
      exact {
        wf := h.wf
        entry := by
          intro uid' q hq
          have he' := h.entry uid' q hq
          by_cases hu : uid' = uid
          · obtain rfl : q = player := by
              rw [hu] at hq
              exact Option.some.inj (hq.symm.trans hp)
            refine { live := he'.live, pid_eq := he'.pid_eq, data := he'.data, derived := ?_ }
            intro _
            show Function.update s.base q _ q = some (Function.update s.version d'._id _ (ofUid uid'))
            rw [hu, ← hid, Function.update_self, Function.update_self]
          · obtain ⟨hqp, hids⟩ := hne hq hu
            refine { live := he'.live, pid_eq := he'.pid_eq, data := he'.data, derived := ?_ }
            intro hstored
            show Function.update s.base player _ q =
              some (Function.update s.version d'._id _ (ofUid uid'))
            rw [Function.update_of_ne hqp, Function.update_of_ne hids]
            apply he'.derived
            -- the write left the records of other players alone
            have hdocs : (s.node.saveDataToDB reply player).roles.docs (ofUid uid') =
                s.node.roles.docs (ofUid uid') := by
              rw [GameNode.saveDataToDB, hroles]
              exact Function.update_of_ne hids _ _
            rw [← hdocs]
            exact hstored
        kept := by
          intro id
          show Function.update s.lost d'._id _ id = false
          by_cases hi : id = d'._id
          · subst hi
            rw [Function.update_self, h.kept, Bool.false_or]
            cases hstored : (s.node.roles.docs d'._id).isSome with
            | false => rfl
            | true =>
              have hbase := he.derived (by rw [← hid]; exact hstored)
              rw [← hid] at hbase
              simp [hbase]
          · rw [Function.update_of_ne hi]
            exact h.kept id }

/-- The object `onPlayerLogin` makes for a player who is not known. -/
def loggedIn (registered : ChannelRef → Bool) (channel : ChannelRef) (req : SessionMsg)
    (reply : FindReply) (roles : Collection) : Player :=
  (((Player.new registered (toUid req.roleid) req.sid.toUInt64 channel).initModules).loadDataFormDB
    reply roles).onLogin

/-- The object is that of the player in the request. -/
theorem pid_loggedIn (registered : ChannelRef → Bool) (channel : ChannelRef) (req : SessionMsg)
    (reply : FindReply) (roles : Collection) :
    (loggedIn registered channel req reply roles).pid = toUid req.roleid :=
  rfl

/-- Its data is the object found, or a default one. -/
theorem data_loggedIn (registered : ChannelRef → Bool) (channel : ChannelRef) (req : SessionMsg)
    (reply : FindReply) (roles : Collection) :
    (loggedIn registered channel req reply roles).data =
      some ((MongodbDAO.find_one reply roles (ofUid (toUid req.roleid))).getD
        { (default : RoleDO) with _id := ofUid (toUid req.roleid) }) := by
  rw [loggedIn, data_onLogin]
  exact Player.data_loadDataFormDB rfl

/-- In either case the data carries the player's id. -/
theorem id_data_loggedIn {registered : ChannelRef → Bool} {channel : ChannelRef}
    {req : SessionMsg} {reply : FindReply} {roles : Collection} {d : RoleDO}
    (h : (loggedIn registered channel req reply roles).data = some d) :
    d._id = ofUid (toUid req.roleid) := by
  rw [data_loggedIn] at h
  obtain rfl := Option.some.inj h
  cases hfind : (MongodbDAO.find_one reply roles (ofUid (toUid req.roleid)) : Option RoleDO) with
  | none => rfl
  | some o =>
    obtain ⟨-, doc, hdoc, hobj⟩ := MongodbDAO.find_one_eq_some.mp hfind
    exact RoleDO.fromBson_id hdoc hobj

/-- The node after the login of a player who is not known: one more object, which
    `PlayerMgr` knows. -/
theorem onPlayerLogin_new {s : GameNode} (registered : ChannelRef → Bool) (reply : FindReply)
    (channel : ChannelRef) {req : SessionMsg} {node : GameNode} {player : PlayerPtr}
    (hnew : s.getPlayer (toUid req.roleid) = none)
    (hnode : node = (s.onPlayerLogin registered reply channel req).1)
    (hplayer : player = (s.newPlayer registered (toUid req.roleid) req.sid.toUInt64 channel).1) :
    node.players = Function.update s.players (toUid req.roleid) (some player) ∧
      node.roles = s.roles ∧
      node.deref player = loggedIn registered channel req reply s.roles ∧
      (∀ p ≠ player, node.deref p = s.deref p) ∧
      (s.pool.Wf → node.pool.Wf ∧ node.pool.Live player ∧ ¬s.pool.Live player) ∧
      ∀ p, s.pool.Live p → node.pool.Live p := by
  let obj : Player := .new registered (toUid req.roleid) req.sid.toUInt64 channel
  -- the node in front of `addPlayer`
  let made : GameNode := ((((s.newPlayer registered (toUid req.roleid) req.sid.toUInt64
    channel).2.modify player Player.initModules).modify player
      (Player.loadDataFormDB reply s.roles)).modify player Player.onLogin)
  have hadd : node = made.addPlayer player := by
    rw [hnode, GameNode.onPlayerLogin, hnew]
    simp only [GameNode.createPlayer, ← hplayer]
    rfl
  have hobj : (s.newPlayer registered (toUid req.roleid) req.sid.toUInt64 channel).2.deref player =
      obj := by
    rw [hplayer]
    exact ObjectPool.acquireImpl_objs_self _ _
  have hmade : made.deref player = loggedIn registered channel req reply s.roles := by
    simp only [made, GameNode.deref_modify_self, hobj]
    rfl
  have hothers : ∀ p ≠ player, made.deref p = s.deref p := by
    intro p hp
    simp only [made, GameNode.deref_modify_of_ne hp]
    rw [hplayer] at hp
    exact ObjectPool.acquireImpl_objs_of_ne hp
  have hentry : node = { made with
      players := Function.update s.players (toUid req.roleid) (some player) } := by
    have hpid : (made.deref player).pid = toUid req.roleid := by rw [hmade]; rfl
    have hnone : made.players (toUid req.roleid) = none := hnew
    rw [hadd, GameNode.addPlayer, hpid, hnone]
    rfl
  refine ⟨by rw [hentry], by rw [hentry]; rfl, by rw [hentry]; exact hmade, ?_, ?_, ?_⟩
  · intro p hp
    rw [hentry]
    exact hothers p hp
  · intro hwf
    have hlive := ObjectPool.acquireImpl_live hwf obj
    have hwf' := hwf.acquireImpl obj
    rw [hentry, hplayer]
    exact ⟨{ nodup := hwf'.nodup, lt_alloc := hwf'.lt_alloc }, hlive.1, hlive.2⟩
  · intro p hp
    rw [hentry]
    exact (hp.acquireImpl obj).1

/-- The login of a known player changes only what the data does not depend on. -/
theorem onPlayerLogin_known {s : GameNode} {registered : ChannelRef → Bool} {reply : FindReply}
    {channel : ChannelRef} {req : SessionMsg} {player : PlayerPtr}
    (hp : s.getPlayer (toUid req.roleid) = some player)
    (hpid : (s.deref player).pid = toUid req.roleid) :
    (s.onPlayerLogin registered reply channel req).1 =
      (s.modify player (·.setChannel registered channel)).modify player Player.onLogin := by
  rw [GameNode.onPlayerLogin, hp]
  simp only
  have hpid' : (((s.modify player (·.setChannel registered channel)).modify player
      Player.onLogin).deref player).pid = toUid req.roleid := by
    rw [GameNode.deref_modify_self, GameNode.deref_modify_self]
    exact hpid
  have hsome : ((s.modify player (·.setChannel registered channel)).modify player
      Player.onLogin).players (toUid req.roleid) = some player := hp
  rw [GameNode.addPlayer, hpid', hsome]

/-- A login keeps the invariant. -/
theorem Inv.login {s s' : Audit} (h : Inv s) {registered : ChannelRef → Bool}
    {channel : ChannelRef} {req : SessionMsg} {reply : FindReply}
    (hok : LoadsStored s (.login registered channel req reply))
    (hstep : step s (.login registered channel req reply) = some s') : Inv s' := by
  simp only [step] at hstep
  cases hp : s.node.getPlayer (toUid req.roleid) with
  | some player =>
    rw [hp] at hstep
    obtain rfl := Option.some.inj hstep
    rw [onPlayerLogin_known hp (h.entry _ _ hp).pid_eq]
    have hset := h.modify player (fun p => (rfl : (p.setChannel registered channel).pid = p.pid))
      fun _ => rfl
    exact hset.modify player (fun _ => rfl) data_onLogin
  | none =>
    rw [hp] at hstep
    obtain rfl := Option.some.inj hstep
    obtain ⟨hplayers, hroles, hself, hothers, hpool, hlive⟩ :=
      onPlayerLogin_new registered reply channel hp rfl rfl
    obtain ⟨hwf, hliveNew, hfresh⟩ := hpool h.wf
    refine { wf := hwf, entry := ?_, kept := h.kept }
    intro uid q hq
    have hq' : (s.node.onPlayerLogin registered reply channel req).1.players uid = some q := hq
    rw [hplayers] at hq'
    by_cases hu : uid = toUid req.roleid
    · -- the new player
      subst hu
      rw [Function.update_self] at hq'
      obtain rfl := Option.some.inj hq'
      refine { live := hliveNew, pid_eq := by rw [loaded, hself, pid_loggedIn]
               data := ?_, derived := ?_ }
      · refine ⟨_, by rw [loaded, hself]; exact data_loggedIn _ _ _ _ _, ?_⟩
        exact id_data_loggedIn (data_loggedIn registered channel req reply s.node.roles)
      · intro hstored
        rw [loaded, hroles] at hstored
        obtain ⟨doc, hdoc⟩ := Option.isSome_iff_exists.mp hstored
        -- the stored record was read
        obtain ⟨rfl, hdecodes⟩ := hok hp doc hdoc
        obtain ⟨o, ho⟩ := Option.isSome_iff_exists.mp hdecodes
        have hfind : (MongodbDAO.find_one .answer s.node.roles (ofUid (toUid req.roleid)) :
            Option RoleDO) = some o := MongodbDAO.find_one_eq_some.mpr ⟨rfl, doc, hdoc, ho⟩
        rw [loaded]
        simp only [hfind, Option.isSome_some, if_true, Function.update_self]
    · rw [Function.update_of_ne hu] at hq'
      have he := h.entry uid q hq'
      have hne : q ≠ (s.node.newPlayer registered (toUid req.roleid) req.sid.toUInt64 channel).1 := by
        rintro rfl
        exact hfresh he.live
      have hsame := hothers q hne
      obtain ⟨d, hd, hid⟩ := he.data
      refine { live := hlive q he.live, pid_eq := by rw [loaded, hsame, he.pid_eq]
               data := ⟨d, by rw [loaded, hsame, hd], hid⟩, derived := ?_ }
      intro hstored
      rw [loaded, hroles] at hstored
      rw [loaded]
      simp only [Function.update_of_ne hne]
      exact he.derived hstored

/-- One call keeps the invariant. -/
theorem inv_step (s : Audit) (a : GameAct) (s' : Audit) (h : Inv s) (hok : LoadsStored s a)
    (hstep : step s a = some s') : Inv s' := by
  cases a with
  | login registered channel req reply => exact h.login hok hstep
  | disconnect playerId reply =>
    simp only [step] at hstep
    split at hstep
    · obtain rfl := Option.some.inj hstep
      exact h
    · rename_i existPlayer hp
      split at hstep
      · obtain rfl := Option.some.inj hstep
        exact h
      · obtain rfl := Option.some.inj hstep
        have hlogout := h.modify existPlayer (fun p => (rfl : p.onLogout.pid = p.pid)) data_onLogout
        exact Inv.save hlogout hp reply
  | save pid reply =>
    simp only [step] at hstep
    split at hstep
    · exact nomatch hstep
    · rename_i player hp
      obtain rfl := Option.some.inj hstep
      exact h.save hp reply

/-- Any number of calls keeps the invariant. -/
theorem inv_run {roles : Collection} {acts : List GameAct} {s : Audit}
    (hrun : Run.run step (init roles) acts = some s)
    (hok : Run.Meets step LoadsStored (init roles) acts) : Inv s :=
  Run.invariant_of_meets inv_step (inv_init roles) hok hrun

/-- A collection with one record, stored under `id`. -/
def oneRecord (id : Int64) (name : List UInt8) : Collection :=
  MongodbDAO.replace_one { docs := fun _ => none, get_id := fun _ _ h => nomatch h }
    ({ _id := id, name := name } : RoleDO)

/-- The data of the new object is marked dirty. -/
theorem toSave_loggedIn (registered : ChannelRef → Bool) (channel : ChannelRef)
    (req : SessionMsg) (reply : FindReply) (roles : Collection) :
    (loggedIn registered channel req reply roles).toSave =
      (loggedIn registered channel req reply roles).data :=
  rfl

/-- The condition leaves nothing out: in any state, a login that loads the data of its
    player and does not get the stored record loses it with the next save. -/
theorem lost_of_not_found {s s₁ s₂ : Audit} {registered : ChannelRef → Bool}
    {channel : ChannelRef} {req : SessionMsg} {reply : FindReply} {reply' : UpdateReply}
    (hnew : s.node.getPlayer (toUid req.roleid) = none)
    (hstored : (s.node.roles.docs (ofUid (toUid req.roleid))).isSome = true)
    (hfind : (MongodbDAO.find_one reply s.node.roles (ofUid (toUid req.roleid)) : Option RoleDO) =
      none)
    (happlied : reply'.applied = true)
    (hlogin : step s (.login registered channel req reply) = some s₁)
    (hsave : step s₁ (.save (toUid req.roleid) reply') = some s₂) :
    s₂.lost (ofUid (toUid req.roleid)) = true := by
  simp only [step, hnew] at hlogin
  obtain rfl := Option.some.inj hlogin
  obtain ⟨hplayers, hroles, hself, -, -, -⟩ :=
    onPlayerLogin_new registered reply channel hnew rfl rfl
  have hknown : (s.node.onPlayerLogin registered reply channel req).1.getPlayer (toUid req.roleid) =
      some (s.node.newPlayer registered (toUid req.roleid) req.sid.toUInt64 channel).1 := by
    rw [GameNode.getPlayer, hplayers, Function.update_self]
  simp only [step, loaded, hknown, hfind] at hsave
  obtain rfl := Option.some.inj hsave
  -- what is saved is the default record, whose base is none
  have hdata := data_loggedIn registered channel req reply s.node.roles
  rw [hfind] at hdata
  rw [save]
  simp only [hself, toSave_loggedIn, hdata, happlied, if_true, Option.getD_none, hroles,
    Function.update_self, hstored]
  simp

end Audit

end Athena.Game
