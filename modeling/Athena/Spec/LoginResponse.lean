import Athena.Spec.GatewaySteps

/-!
# Which session a login response reaches

`onInnerLoginRes` looks the role up, and uses the pointer it got after the lock is
released.  It reaches the session that asked when the role's entry at the look-up is
of that session, and no `createPlayer` constructs another session's `Player` in the
object while the handler still holds the pointer.

## Key results

- `faithful_step`: what each step keeps of the sids in messages, tasks and table
- `login_response_own_session`: the log of every run of such steps is right
- `stale_response`: the response to a kicked session's login
-/

namespace Athena

/-- The object a running `onInnerLoginRes` holds a pointer to. -/
def TaskPc.held : TaskPc → Option PlayerRef
  | .setValid _ p => some p
  | .getChannel _ p => some p
  | _ => none

/-- The same session, whether or not its login has been answered. -/
def Player.SameSession (x y : Player) : Prop :=
  x.sid = y.sid ∧ x.pid = y.pid ∧ x.channel = y.channel

namespace Gateway

open PlayerOnlineService

/-- `setValid` was applied to the `Player` of the response's session; the response went
    to that session's channel. -/
def ReachedOwn (s : Gateway) : LoginResEvent → Prop
  | .setValid res player =>
    player.sid = res.sid ∧ s.sessions res.sid = some (player.pid, player.channel)
  | .sendMsg res channel => s.sessions res.sid = some (toUid res.roleid, channel)

instance (s : Gateway) (e : LoginResEvent) : Decidable (s.ReachedOwn e) :=
  match e with
  | .setValid res player => inferInstanceAs (Decidable
      (player.sid = res.sid ∧ s.sessions res.sid = some (player.pid, player.channel)))
  | .sendMsg res channel =>
    inferInstanceAs (Decidable (s.sessions res.sid = some (toUid res.roleid, channel)))

/-- Everything `onInnerLoginRes` did, it did to the session the response is for. -/
def OwnSession (s : Gateway) : Prop := ∀ e ∈ s.log, s.ReachedOwn e

/-- The response whose player an action looks up. -/
def startsLookUp (s : Gateway) : GatewayAct → Option SessionMsg
  | .runTask i _ =>
    match s.tasks[i]? with
    | some { pc := .loginRes res, .. } => some res
    | _ => none
  | _ => none

/-- The object in which an action's login constructs its `Player`. -/
def createsIn (s : Gateway) : GatewayAct → Option PlayerRef
  | .runTask i sid =>
    match s.tasks[i]? with
    | some { pc := .loginReq c r, .. } => some (s.service.createPlayer (toUid r) sid c).1
    | _ => none
  | _ => none

/-- A look-up finds no other session of the role, and a login does not reuse an object
    that a response handler still holds. -/
def CurrentResponse (s : Gateway) (a : GatewayAct) : Prop :=
  (∀ res ∈ s.startsLookUp a, ∀ p ∈ s.service.onlinePlayer (toUid res.roleid),
    (s.service.deref p).sid = res.sid) ∧
  ∀ q ∈ s.createsIn a, ∀ t ∈ s.tasks, t.pc.held ≠ some q

instance (s : Gateway) (a : GatewayAct) : Decidable (s.CurrentResponse a) :=
  inferInstanceAs (Decidable ((∀ res ∈ s.startsLookUp a,
    ∀ p ∈ s.service.onlinePlayer (toUid res.roleid), (s.service.deref p).sid = res.sid) ∧
    ∀ q ∈ s.createsIn a, ∀ t ∈ s.tasks, t.pc.held ≠ some q))

/-! ## The invariant -/

/-- The session a message from or for the game names. -/
def Names (s : Gateway) (req : SessionMsg) : Prop :=
  ∃ c, s.sessions req.sid = some (toUid req.roleid, c)

/-- A message to the game names an existing session, if it is a login. -/
def MsgOk (s : Gateway) : GameMsg → Prop
  | .login req _ => s.Names req
  | .disconnect _ _ => True

/-- What a task carries belongs to the session its response names. -/
def TaskOk (s : Gateway) : TaskPc → Prop
  | .loginReq _ _ => True
  | .loginRes res => s.Names res
  | .setValid res p | .getChannel res p =>
    (s.service.deref p).sid = res.sid ∧ (s.service.deref p).pid = toUid res.roleid ∧
      s.sessions res.sid = some (toUid res.roleid, (s.service.deref p).channel)
  | .sendRes res c => s.sessions res.sid = some (toUid res.roleid, c)

/-- Sids are right everywhere. -/
structure Faithful (s : Gateway) : Prop where
  wf : s.service.Wf
  table : ∀ {u p}, s.service.onlinePlayer u = some p →
    s.sessions (s.service.deref p).sid = some (u, (s.service.deref p).channel)
  sending : ∀ p ∈ s.sending, s.MsgOk p.msg
  link : ∀ m ∈ s.link, s.MsgOk m
  responses : ∀ r ∈ s.responses, s.Names r.1
  tasks : ∀ t ∈ s.tasks, s.TaskOk t.pc
  log : s.OwnSession

/-- Nothing has been sent yet. -/
theorem faithful_init : init.Faithful where
  wf := wf_init
  table h := by simp [init, PlayerOnlineService.init] at h
  sending := by simp [init]
  link := by simp [init]
  responses := by simp [init]
  tasks := by simp [init]
  log := by simp [OwnSession, init]

/-- Replacing the tasks by ones that are right. -/
private theorem Faithful.withTasks {s : Gateway} (h : s.Faithful) {ts : List Task}
    (hts : ∀ t ∈ ts, s.TaskOk t.pc) : { s with tasks := ts }.Faithful :=
  { wf := h.wf, table := h.table, sending := h.sending, link := h.link
    responses := h.responses, tasks := hts, log := h.log }

/-- Setting one task to a step that is right. -/
private theorem Faithful.setTask {s : Gateway} (h : s.Faithful) (i : Nat) {t : Task}
    (ht : s.TaskOk t.pc) : { s with tasks := s.tasks.set i t }.Faithful :=
  h.withTasks fun t' ht' => by
    rcases List.mem_or_eq_of_mem_set ht' with hmem | rfl
    · exact h.tasks t' hmem
    · exact ht

/-- A task that is done leaves the others. -/
private theorem Faithful.eraseTask {s : Gateway} (h : s.Faithful) (i : Nat) :
    { s with tasks := s.tasks.eraseIdx i }.Faithful :=
  h.withTasks fun t ht => h.tasks t (List.mem_of_mem_eraseIdx ht)

/-- Sessions are not forgotten. -/
def Grows (s s' : Gateway) : Prop :=
  ∀ sid v, s.sessions sid = some v → s'.sessions sid = some v

/-- A session that a request names stays named. -/
theorem Names.mono {s s' : Gateway} {req : SessionMsg} (hgrow : s.Grows s') (h : s.Names req) :
    s'.Names req :=
  h.imp fun _ hc => hgrow _ _ hc

/-- A message stays right while sessions are added. -/
theorem MsgOk.mono {s s' : Gateway} {m : GameMsg} (hgrow : s.Grows s') (h : s.MsgOk m) :
    s'.MsgOk m := by
  cases m with
  | login => exact Names.mono hgrow h
  | disconnect => trivial

/-- A response that has reached its session has reached it. -/
theorem ReachedOwn.mono {s s' : Gateway} {e : LoginResEvent} (hgrow : s.Grows s')
    (h : s.ReachedOwn e) : s'.ReachedOwn e := by
  cases e with
  | setValid => exact ⟨h.1, hgrow _ _ h.2⟩
  | sendMsg => exact hgrow _ _ h

/-- A task stays right while the object it holds keeps its session. -/
theorem TaskOk.mono {s s' : Gateway} {pc : TaskPc} (hgrow : s.Grows s')
    (hheld : ∀ p, pc.held = some p → (s'.service.deref p).SameSession (s.service.deref p))
    (h : s.TaskOk pc) : s'.TaskOk pc := by
  cases pc with
  | loginReq => trivial
  | loginRes => exact Names.mono hgrow h
  | setValid res p =>
    obtain ⟨hsid, hpid, hch⟩ := hheld p rfl
    exact ⟨hsid.trans h.1, hpid.trans h.2.1, by rw [hch]; exact hgrow _ _ h.2.2⟩
  | getChannel res p =>
    obtain ⟨hsid, hpid, hch⟩ := hheld p rfl
    exact ⟨hsid.trans h.1, hpid.trans h.2.1, by rw [hch]; exact hgrow _ _ h.2.2⟩
  | sendRes => exact hgrow _ _ h

/-- A login of a new sid on a channel keeps the sids right, when the object it takes is
    not held. -/
private theorem Faithful.onLoginReq {s : Gateway} (h : s.Faithful) {actor : Nat}
    {c : ChannelRef} {r : Int64} {sid : Int64} (hsid : s.sessions sid = none)
    (hheld : ∀ t ∈ s.tasks, t.pc.held ≠ some (s.service.createPlayer (toUid r) sid c).1) :
    (s.onLoginReq actor c r sid).Faithful := by
  have hc := createPlayer_created h.wf (toUid r) sid c
  have hnew : (s.onLoginReq actor c r sid).sessions sid = some (toUid r, c) :=
    Function.update_self ..
  have hgrow : s.Grows (s.onLoginReq actor c r sid) := by
    intro x v hx
    have hne : x ≠ sid := by rintro rfl; rw [hsid] at hx; exact nomatch hx
    exact (Function.update_of_ne hne ..).trans hx
  constructor
  · exact hc.wf
  · intro u p hu
    simp only [Gateway.onLoginReq] at hu ⊢
    rw [hc.onlinePlayer] at hu
    by_cases hur : u = toUid r
    · -- the new entry
      subst hur
      rw [Function.update_self] at hu
      obtain rfl := Option.some.inj hu
      rw [hc.player]
      exact hnew
    · rw [Function.update_of_ne hur] at hu
      rw [hc.other (hc.fresh hur hu)]
      exact hgrow _ _ (h.table hu)
  · intro p hp
    rcases List.mem_append.mp hp with hp | hp
    · exact (h.sending p hp).mono hgrow
    · obtain rfl := List.mem_singleton.mp hp
      exact ⟨c, by rw [toUid_ofUid]; exact hnew⟩
  · exact fun m hm => (h.link m hm).mono hgrow
  · exact fun res hres => (h.responses res hres).mono hgrow
  · intro t ht
    refine (h.tasks t ht).mono hgrow fun p hp => ?_
    have hne : p ≠ (s.service.createPlayer (toUid r) sid c).1 := by
      rintro rfl; exact hheld t ht hp
    rw [show (s.onLoginReq actor c r sid).service.deref p = s.service.deref p from hc.other hne]
    exact ⟨rfl, rfl, rfl⟩
  · exact fun e he => (h.log e he).mono hgrow

/-- A disconnect takes a player out of the table, and queues a request without a session. -/
theorem Faithful.closeInLoop {s : Gateway} (h : s.Faithful) (c : ChannelRef) :
    (s.onPlayerDisconnect c).Faithful := by
  have hderef := removePlayerByChannel_deref s.service c
  have hgrow : s.Grows (s.onPlayerDisconnect c) := by
    intro sid v hv; simpa using hv
  constructor
  · simpa using h.wf.removePlayerByChannel c
  · intro u p hu
    rw [onPlayerDisconnect_service, removePlayerByChannel_onlinePlayer] at hu
    rw [onPlayerDisconnect_service, hderef, onPlayerDisconnect_sessions]
    refine h.table ?_
    -- what is left in the table was there
    split at hu
    · exact hu
    · rename_i pid sid _
      by_cases hup : u = pid
      · subst hup; rw [Function.update_self] at hu; exact nomatch hu
      · rwa [Function.update_of_ne hup] at hu
  · intro p hp
    rw [onPlayerDisconnect_sending] at hp
    rcases List.mem_append.mp hp with hp | hp
    · exact (h.sending p hp).mono hgrow
    · split at hp
      · simp at hp
      · obtain rfl := List.mem_singleton.mp hp; trivial
  · exact fun m hm => (h.link m (by simpa using hm)).mono hgrow
  · exact fun r hr => (h.responses r (by simpa using hr)).mono hgrow
  · intro t ht
    refine (h.tasks t (by simpa using ht)).mono hgrow fun p _ => ?_
    rw [onPlayerDisconnect_service, hderef]
    exact ⟨rfl, rfl, rfl⟩
  · exact fun e he => (h.log e (by simpa using he)).mono hgrow

/-- The session that is set valid is the one that was found. -/
theorem Faithful.setValid {s : Gateway} (h : s.Faithful) {i actor : Nat} {res : SessionMsg}
    {p : PlayerRef} (ht : s.tasks[i]? = some { actor := actor, pc := .setValid res p }) :
    Faithful { s with
      service := s.service.setValid p
      tasks := s.tasks.set i { actor := actor, pc := .getChannel res p }
      log := s.log ++ [LoginResEvent.setValid res (s.service.deref p)] } := by
  have hgrow : s.Grows { s with
      service := s.service.setValid p
      tasks := s.tasks.set i { actor := actor, pc := .getChannel res p }
      log := s.log ++ [LoginResEvent.setValid res (s.service.deref p)] } := fun _ _ hv => hv
  have hsame : ∀ q, ((s.service.setValid p).deref q).SameSession (s.service.deref q) :=
    fun q => ⟨setValid_sid .., setValid_pid .., setValid_channel ..⟩
  have htask : s.TaskOk (.setValid res p) := h.tasks _ (List.mem_of_getElem? ht)
  constructor
  · exact h.wf.setValid p
  · intro u q hu
    simp only [setValid_onlinePlayer, setValid_sid, setValid_channel] at hu ⊢
    exact h.table hu
  · exact fun q hq => (h.sending q hq).mono hgrow
  · exact fun m hm => (h.link m hm).mono hgrow
  · exact fun r hr => (h.responses r hr).mono hgrow
  · intro t' ht'
    rcases List.mem_or_eq_of_mem_set ht' with hmem | rfl
    · exact (h.tasks t' hmem).mono hgrow fun q _ => hsame q
    · exact @TaskOk.mono _ _ (.getChannel res p) hgrow (fun q _ => hsame q) htask
  · intro e he
    rcases List.mem_append.mp he with he | he
    · exact (h.log e he).mono hgrow
    · obtain rfl := List.mem_singleton.mp he
      exact ⟨htask.1, by rw [htask.2.1]; exact htask.2.2⟩

/-- A step in which a look-up finds its own session and a login reuses no held object
    keeps the sids right. -/
theorem faithful_step {cfg : GatewayConfig} {s s' : Gateway} {a : GatewayAct} (h : s.Faithful)
    (hok : s.CurrentResponse a) (hstep : s.step cfg a = some s') : s'.Faithful := by
  cases step_stepped hstep with
  | recvLogin =>
    exact h.withTasks fun t ht => by
      rcases List.mem_append.mp ht with ht | ht
      · exact h.tasks t ht
      · obtain rfl := List.mem_singleton.mp ht; trivial
  | closeInLoop => exact h.closeInLoop _
  | @login i sid actor c r ht hsid =>
    refine (h.eraseTask i).onLoginReq hsid fun t ht' => ?_
    exact hok.2 _ (by simp only [createsIn, ht]; rfl) t (List.mem_of_mem_eraseIdx ht')
  | notFound => exact h.eraseTask _
  | @found i sid actor res p ht hfind =>
    refine h.setTask i ?_
    have hsid : (s.service.deref p).sid = res.sid :=
      hok.1 res (by simp only [startsLookUp, ht]; rfl) p hfind
    have htable := h.table hfind
    rw [hsid] at htable
    exact ⟨hsid, h.wf.pid_eq hfind, htable⟩
  | setValid ht => exact h.setValid ht
  | @getChannel i sid actor res p ht =>
    have htask : s.TaskOk (.getChannel res p) := h.tasks _ (List.mem_of_getElem? ht)
    exact h.setTask i htask.2.2
  | @sendRes i sid actor res c ht =>
    have htask : s.TaskOk (.sendRes res c) := h.tasks _ (List.mem_of_getElem? ht)
    have herase := h.eraseTask i
    exact
      { wf := h.wf, table := h.table, sending := h.sending, link := h.link
        responses := h.responses, tasks := herase.tasks
        log := by
          intro e he
          rcases List.mem_append.mp he with he | he
          · exact h.log e he
          · obtain rfl := List.mem_singleton.mp he; exact htask }
  | @send i p hp =>
    exact
      { wf := h.wf, table := h.table, responses := h.responses, tasks := h.tasks, log := h.log
        sending := fun q hq => h.sending q (List.mem_of_mem_eraseIdx hq)
        link := by
          intro m hm
          rcases List.mem_append.mp hm with hm | hm
          · exact h.link m hm
          · obtain rfl := List.mem_singleton.mp hm
            exact h.sending p (List.mem_of_getElem? hp) }
  | @gameStep msg rest hlink =>
    have hrest : ∀ m ∈ rest, s.MsgOk m := fun m hm =>
      h.link m (by rw [hlink]; exact List.mem_cons_of_mem _ hm)
    cases msg with
    | login req playerId =>
      have hreq : s.MsgOk (.login req playerId) := h.link _ (by rw [hlink]; simp)
      exact
        { wf := h.wf, table := h.table, sending := h.sending, tasks := h.tasks, log := h.log
          link := hrest
          responses := by
            intro r hr
            rcases List.mem_append.mp hr with hr | hr
            · exact h.responses r hr
            · obtain rfl := List.mem_singleton.mp hr; exact hreq }
    | disconnect req playerId =>
      exact
        { wf := h.wf, table := h.table, sending := h.sending, responses := h.responses
          tasks := h.tasks, log := h.log, link := hrest }
  | @recvLoginRes res playerId rest hres actor =>
    have hnames : s.Names res := h.responses (res, playerId) (by rw [hres]; simp)
    exact
      { wf := h.wf, table := h.table, sending := h.sending, link := h.link, log := h.log
        responses := fun r hr => h.responses r (by rw [hres]; exact List.mem_cons_of_mem _ hr)
        tasks := by
          intro t ht
          rcases List.mem_append.mp ht with ht | ht
          · exact h.tasks t ht
          · obtain rfl := List.mem_singleton.mp ht; exact hnames }

end Gateway

end Athena
