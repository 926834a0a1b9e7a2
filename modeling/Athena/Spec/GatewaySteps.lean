import Athena.Native.GatewaySession
import Athena.Spec.OnlineTable

/-!
# What a step of the gateway can do

`Stepped` lists the steps of the login machine with the state each leads to, so that
an invariant is proved by one case per step and no later proof unfolds `step`.  The
remaining lemmas are about `setValid`, the only thing the login machine does to the
online table besides the calls of `OnlineTable`.

## Key results

- `step_stepped`: every step is one of the list
- `Wf.setValid`, `Consistent.setValid`
-/

namespace Athena

namespace PlayerOnlineService

/-- `setValid` changes one flag. -/
theorem setValid_deref (s : PlayerOnlineService) (p q : PlayerRef) :
    (s.setValid p).deref q = { s.deref q with valid := (s.deref q).valid || p == q } := by
  unfold setValid deref
  by_cases h : q = p
  · simp [h]
  · have hbeq : (p == q) = false := beq_eq_false_iff_ne.mpr (Ne.symm h)
    simp [Function.update_of_ne h, hbeq]

/-- `setValid` leaves the id of every player. -/
@[simp] theorem setValid_pid (s : PlayerOnlineService) (p q : PlayerRef) :
    ((s.setValid p).deref q).pid = (s.deref q).pid := by rw [setValid_deref]

/-- `setValid` leaves the session of every player. -/
@[simp] theorem setValid_sid (s : PlayerOnlineService) (p q : PlayerRef) :
    ((s.setValid p).deref q).sid = (s.deref q).sid := by rw [setValid_deref]

/-- `setValid` leaves the channel of every player. -/
@[simp] theorem setValid_channel (s : PlayerOnlineService) (p q : PlayerRef) :
    ((s.setValid p).deref q).channel = (s.deref q).channel := by rw [setValid_deref]

/-- `setValid` leaves the table. -/
@[simp] theorem setValid_onlinePlayer (s : PlayerOnlineService) (p : PlayerRef) :
    (s.setValid p).onlinePlayer = s.onlinePlayer := rfl

/-- `setValid` leaves what the channels point to. -/
@[simp] theorem setValid_userData (s : PlayerOnlineService) (p : PlayerRef) :
    (s.setValid p).userData = s.userData := rfl

/-- `setValid` neither takes nor returns a player. -/
theorem Wf.setValid {s : PlayerOnlineService} (h : s.Wf) (p : PlayerRef) :
    (s.setValid p).Wf where
  pool := { nodup := h.pool.nodup, lt_alloc := h.pool.lt_alloc }
  live hu := h.live hu
  pid_eq hu := (setValid_pid s p _).trans (h.pid_eq hu)

/-- `setValid` keeps the table and the channels in agreement. -/
theorem Consistent.setValid {s : PlayerOnlineService} (h : s.Consistent) (p : PlayerRef) :
    (s.setValid p).Consistent where
  entry hu := by simpa using h.entry hu
  userData hc := by simpa using h.userData hc

/-- What `removePlayerByChannel` takes out of the table is what it returns. -/
theorem removePlayerByChannel_onlinePlayer (s : PlayerOnlineService) (c : ChannelRef) :
    (s.removePlayerByChannel c).2.onlinePlayer =
      match (s.removePlayerByChannel c).1 with
      | none => s.onlinePlayer
      | some (pid, _) => Function.update s.onlinePlayer pid none := by
  unfold removePlayerByChannel
  split
  · rfl
  · simp only
    split <;> rfl

/-- `removePlayerByChannel` changes no object. -/
@[simp] theorem removePlayerByChannel_deref (s : PlayerOnlineService) (c : ChannelRef)
    (p : PlayerRef) : (s.removePlayerByChannel c).2.deref p = s.deref p := by
  unfold removePlayerByChannel
  split
  · rfl
  · simp only
    split <;> simp

end PlayerOnlineService

namespace Gateway

/-- The login an action starts: its channel and the role id of the request. -/
def startsLogin (s : Gateway) : GatewayAct → Option (ChannelRef × Int64)
  | .runTask i _ =>
    match s.tasks[i]? with
    | some { pc := .loginReq channel roleid, .. } => some (channel, roleid)
    | _ => none
  | _ => none

/-- The steps of the login machine. -/
inductive Stepped (cfg : GatewayConfig) (s : Gateway) : GatewayAct → Gateway → Prop where
  | recvLogin {c r} (hopen : s.onClosed c = false) (actor : Nat) :
    Stepped cfg s (.recvLogin c r)
      { s with tasks := s.tasks ++ [{ actor := actor, pc := .loginReq c r }] }
  | closeInLoop {c} (hopen : s.onClosed c = false) :
    Stepped cfg s (.closeInLoop c) (s.onPlayerDisconnect c)
  | login {i sid actor c r} (ht : s.tasks[i]? = some { actor := actor, pc := .loginReq c r })
      (hsid : s.sessions sid = none) :
    Stepped cfg s (.runTask i sid)
      ({ s with tasks := s.tasks.eraseIdx i }.onLoginReq actor c r sid)
  | notFound {i sid actor res}
      (ht : s.tasks[i]? = some { actor := actor, pc := .loginRes res })
      (hfind : s.service.onlinePlayer (toUid res.roleid) = none) :
    Stepped cfg s (.runTask i sid) { s with tasks := s.tasks.eraseIdx i }
  | found {i sid actor res p}
      (ht : s.tasks[i]? = some { actor := actor, pc := .loginRes res })
      (hfind : s.service.onlinePlayer (toUid res.roleid) = some p) :
    Stepped cfg s (.runTask i sid)
      { s with tasks := s.tasks.set i { actor := actor, pc := .setValid res p } }
  | setValid {i sid actor res p}
      (ht : s.tasks[i]? = some { actor := actor, pc := .setValid res p }) :
    Stepped cfg s (.runTask i sid)
      { s with
        service := s.service.setValid p
        tasks := s.tasks.set i { actor := actor, pc := .getChannel res p }
        log := s.log ++ [LoginResEvent.setValid res (s.service.deref p)] }
  | getChannel {i sid actor res p}
      (ht : s.tasks[i]? = some { actor := actor, pc := .getChannel res p }) :
    Stepped cfg s (.runTask i sid)
      { s with
        tasks := s.tasks.set i
          { actor := actor, pc := .sendRes res (s.service.deref p).channel } }
  | sendRes {i sid actor res c}
      (ht : s.tasks[i]? = some { actor := actor, pc := .sendRes res c }) :
    Stepped cfg s (.runTask i sid)
      { s with tasks := s.tasks.eraseIdx i, log := s.log ++ [LoginResEvent.sendMsg res c] }
  | send {i p} (hp : s.sending[i]? = some p) :
    Stepped cfg s (.send i)
      { s with sending := s.sending.eraseIdx i, link := s.link ++ [p.msg] }
  | gameStep {msg rest} (hlink : s.link = msg :: rest) :
    Stepped cfg s .gameStep ({ s with link := rest }.gameStep cfg msg)
  | recvLoginRes {res playerId rest} (hres : s.responses = (res, playerId) :: rest)
      (actor : Nat) :
    Stepped cfg s .recvLoginRes
      { s with responses := rest, tasks := s.tasks ++ [{ actor := actor, pc := .loginRes res }] }

/-- Every step is one of the list. -/
theorem step_stepped {cfg : GatewayConfig} {s s' : Gateway} {a : GatewayAct}
    (h : s.step cfg a = some s') : Stepped cfg s a s' := by
  cases a with
  | recvLogin c r =>
    simp only [step] at h
    split at h
    · exact nomatch h
    · rename_i hopen
      obtain rfl := Option.some.inj h
      exact .recvLogin (by simpa using hopen) _
  | closeInLoop c =>
    simp only [step] at h
    split at h
    · exact nomatch h
    · rename_i hopen
      obtain rfl := Option.some.inj h
      exact .closeInLoop (by simpa using hopen)
  | runTask i sid =>
    simp only [step] at h
    split at h
    · exact nomatch h
    · rename_i t ht
      obtain ⟨actor, pc⟩ := t
      unfold runTask at h
      -- a task by its place, then by what it finds
      cases pc with
      | loginReq c r =>
        simp only at h
        split at h
        · exact nomatch h
        · rename_i hguard
          obtain rfl := Option.some.inj h
          simp only [Bool.or_eq_true, not_or, Bool.not_eq_true, Option.isSome_eq_false_iff,
            Option.isNone_iff_eq_none] at hguard
          exact .login ht hguard.2
      | loginRes res =>
        simp only at h
        split at h
        · exact nomatch h
        · split at h
          · rename_i hfind
            obtain rfl := Option.some.inj h
            exact .notFound ht hfind
          · rename_i p hfind
            obtain rfl := Option.some.inj h
            exact .found ht hfind
      | setValid res p =>
        obtain rfl := Option.some.inj h
        exact .setValid ht
      | getChannel res p =>
        obtain rfl := Option.some.inj h
        exact .getChannel ht
      | sendRes res c =>
        obtain rfl := Option.some.inj h
        exact .sendRes ht
  | send i =>
    simp only [step] at h
    split at h
    · exact nomatch h
    · rename_i p hp
      obtain rfl := Option.some.inj h
      exact .send hp
  | gameStep =>
    simp only [step] at h
    split at h
    · exact nomatch h
    · rename_i msg rest hlink
      obtain rfl := Option.some.inj h
      exact .gameStep hlink
  | recvLoginRes =>
    simp only [step] at h
    split at h
    · exact nomatch h
    · rename_i res playerId rest hres
      obtain rfl := Option.some.inj h
      exact .recvLoginRes hres _

/-- The table part of `onPlayerDisconnect`. -/
@[simp] theorem onPlayerDisconnect_service (s : Gateway) (c : ChannelRef) :
    (s.onPlayerDisconnect c).service = (s.service.removePlayerByChannel c).2 := by
  unfold onPlayerDisconnect
  simp only
  split <;> rfl

/-- A disconnect closes its own channel. -/
@[simp] theorem onPlayerDisconnect_onClosed (s : Gateway) (c : ChannelRef) :
    (s.onPlayerDisconnect c).onClosed = Function.update s.onClosed c true := by
  unfold onPlayerDisconnect
  simp only
  split <;> rfl

/-- A disconnect sends nothing yet. -/
@[simp] theorem onPlayerDisconnect_link (s : Gateway) (c : ChannelRef) :
    (s.onPlayerDisconnect c).link = s.link := by
  unfold onPlayerDisconnect
  simp only
  split <;> rfl

/-- A disconnect does nothing at the game server. -/
@[simp] theorem onPlayerDisconnect_game (s : Gateway) (c : ChannelRef) :
    (s.onPlayerDisconnect c).game = s.game := by
  unfold onPlayerDisconnect
  simp only
  split <;> rfl

/-- A disconnect queues a request if there is a player on the channel. -/
theorem onPlayerDisconnect_sending (s : Gateway) (c : ChannelRef) :
    (s.onPlayerDisconnect c).sending = s.sending ++
      match (s.service.removePlayerByChannel c).1 with
      | none => []
      | some (pid, sid) =>
        [.disconnect c (.disconnect { sid := sid, roleid := ofUid pid } (ofUid pid))] := by
  unfold onPlayerDisconnect
  rcases hr : (s.service.removePlayerByChannel c).1 with _ | ⟨pid, sid⟩
  · simp [hr]
  · simp [hr]

/-- A disconnect takes no response. -/
@[simp] theorem onPlayerDisconnect_responses (s : Gateway) (c : ChannelRef) :
    (s.onPlayerDisconnect c).responses = s.responses := by
  unfold onPlayerDisconnect
  simp only
  split <;> rfl

/-- A disconnect leaves the sessions. -/
@[simp] theorem onPlayerDisconnect_sessions (s : Gateway) (c : ChannelRef) :
    (s.onPlayerDisconnect c).sessions = s.sessions := by
  unfold onPlayerDisconnect
  simp only
  split <;> rfl

/-- A disconnect starts no login and sends no response. -/
@[simp] theorem onPlayerDisconnect_log (s : Gateway) (c : ChannelRef) :
    (s.onPlayerDisconnect c).log = s.log := by
  unfold onPlayerDisconnect
  simp only
  split <;> rfl

/-- A disconnect runs on its own loop, not on an actor. -/
@[simp] theorem onPlayerDisconnect_tasks (s : Gateway) (c : ChannelRef) :
    (s.onPlayerDisconnect c).tasks = s.tasks := by
  unfold onPlayerDisconnect
  simp only
  split <;> rfl

end Gateway

end Athena
