import Athena.ForStd.Run
import Athena.Native.PlayerOnlineService

/-!
# The online table and the channels' `userData`

`Wf` is what every sequence of calls keeps: entries are live pool objects filed under
their own uid.  `Consistent` is what the comment in `removePlayerByChannel` promises
of the table and `userData` under the lock.  It is lost in two ways: `createPlayer`
on a channel that belongs to a player of another uid, and `removePlayer` of a player
who is online.

## Key results

- `Wf.createPlayer`, `Wf.removePlayer`, `Wf.removePlayerByChannel`
- `createPlayer_consistent_iff`, `removePlayer_consistent_iff`: when a call keeps the
  two sides consistent; `Consistent.removePlayerByChannel`: this one always does
- `consistent_iff_callable`: a sequence of calls is consistent throughout exactly when
  none of its calls is one of the two
-/

namespace Athena.PlayerOnlineService

/-- Entries are live objects of the pool and filed under their uid. -/
structure Wf (s : PlayerOnlineService) : Prop where
  pool : s.pool.Wf
  live : ∀ {u p}, s.onlinePlayer u = some p → s.pool.Live p
  pid_eq : ∀ {u p}, s.onlinePlayer u = some p → (s.deref p).pid = u

/-- The table and the channels' `userData` point at each other. -/
structure Consistent (s : PlayerOnlineService) : Prop where
  /-- every entry is filed under its uid and hangs on its channel -/
  entry : ∀ {u p}, s.onlinePlayer u = some p →
    s.onlinePlayer (s.deref p).pid = some p ∧ s.userData (s.deref p).channel = some p
  /-- every `userData` is the entry of its uid, and that player is on the channel -/
  userData : ∀ {c p}, s.userData c = some p →
    s.onlinePlayer (s.deref p).pid = some p ∧ (s.deref p).channel = c

/-- An empty table has no entries. -/
theorem wf_init : init.Wf where
  pool := ObjectPool.wf_getPool
  live h := by simp [init] at h
  pid_eq h := by simp [init] at h

/-- An empty table and no `userData` agree. -/
theorem consistent_init : init.Consistent where
  entry h := by simp [init] at h
  userData h := by simp [init] at h

/-- An object is the entry of one uid only. -/
theorem Wf.uid_unique {s : PlayerOnlineService} (h : s.Wf) {u v : UInt32} {p : PlayerRef}
    (hu : s.onlinePlayer u = some p) (hv : s.onlinePlayer v = some p) : u = v :=
  (h.pid_eq hu).symm.trans (h.pid_eq hv)

/-- Taking an entry out of the table and giving its object back. -/
private theorem Wf.recycle_erase {s : PlayerOnlineService} (h : s.Wf) {u : UInt32}
    {p : PlayerRef} (hu : s.onlinePlayer u = some p) (ud : ChannelRef → Option PlayerRef) :
    Wf { onlinePlayer := Function.update s.onlinePlayer u none
         pool := s.pool.release p
         userData := ud } where
  pool := h.pool.release (h.live hu)
  live {v q} hv := by
    by_cases hvu : v = u
    · simp [hvu] at hv
    · simp only [Function.update_of_ne hvu] at hv
      refine (h.live hv).release ?_
      rintro rfl
      exact hvu (h.uid_unique hv hu)
  pid_eq {v q} hv := by
    by_cases hvu : v = u
    · simp [hvu] at hv
    · simp only [Function.update_of_ne hvu] at hv
      simpa [deref] using h.pid_eq hv

/-! ## `createPlayer` -/

/-- The kicked session's channel is the only one whose `userData` changes. -/
theorem kick_userData (s : PlayerOnlineService) (uid : UInt32) (d : ChannelRef) :
    (s.kick uid).userData d =
      if ∃ old, s.onlinePlayer uid = some old ∧ (s.deref old).channel = d then none
      else s.userData d := by
  unfold kick
  cases hold : s.onlinePlayer uid with
  | none => simp
  | some old =>
    by_cases hd : (s.deref old).channel = d
    · simp [hd, erase, recycle, setUserData]
    · simp [hd, erase, recycle, setUserData, Function.update_of_ne (Ne.symm hd)]

/-- The entry of the uid is gone. -/
theorem kick_onlinePlayer (s : PlayerOnlineService) (uid : UInt32) :
    (s.kick uid).onlinePlayer = Function.update s.onlinePlayer uid none := by
  unfold kick
  split
  · rename_i hnone
    rw [← hnone, Function.update_eq_self]
  · rfl

/-- A kick writes to no player. -/
@[simp] theorem kick_deref (s : PlayerOnlineService) (uid : UInt32) (p : PlayerRef) :
    (s.kick uid).deref p = s.deref p := by
  unfold kick
  split
  · rfl
  · simp

/-- A kick takes the entry out before its object is released. -/
theorem Wf.kick {s : PlayerOnlineService} (h : s.Wf) (uid : UInt32) : (s.kick uid).Wf := by
  unfold PlayerOnlineService.kick
  cases hold : s.onlinePlayer uid with
  | none => exact h
  | some old => exact h.recycle_erase hold _

/-- What `createPlayer` leaves: the new entry in an object that was free, the kicked
    session's channel cleared, and every other entry's object untouched. -/
structure Created (s : PlayerOnlineService) (uid : UInt32) (sid : Int64) (c : ChannelRef)
    (p : PlayerRef) (s' : PlayerOnlineService) : Prop where
  onlinePlayer : s'.onlinePlayer = Function.update s.onlinePlayer uid (some p)
  userData_self : s'.userData c = some p
  userData_of_ne : ∀ {d}, d ≠ c → s'.userData d = (s.kick uid).userData d
  player : s'.deref p = { pid := uid, sid := sid, channel := c, valid := false }
  other : ∀ {q}, q ≠ p → s'.deref q = s.deref q
  fresh : ∀ {v q}, v ≠ uid → s.onlinePlayer v = some q → q ≠ p
  wf : s'.Wf

/-- The entry of the uid is the new player. -/
theorem createPlayer_onlinePlayer (s : PlayerOnlineService) (uid : UInt32) (sid : Int64)
    (c : ChannelRef) : (s.createPlayer uid sid c).2.onlinePlayer =
      Function.update s.onlinePlayer uid (some (s.createPlayer uid sid c).1) := by
  unfold createPlayer
  simp only [create, setUserData, kick_onlinePlayer, Function.update_idem]

/-- What `createPlayer` leaves. -/
theorem createPlayer_created {s : PlayerOnlineService} (h : s.Wf) (uid : UInt32) (sid : Int64)
    (c : ChannelRef) :
    s.Created uid sid c (s.createPlayer uid sid c).1 (s.createPlayer uid sid c).2 := by
  -- the old player of the uid is kicked, the new one comes from the pool
  have hk := h.kick uid
  let x : Player := { pid := uid, sid := sid, channel := c, valid := false }
  obtain ⟨hlive, hfree⟩ := ObjectPool.acquireImpl_live hk.pool x
  have honline := createPlayer_onlinePlayer s uid sid c
  -- the pool gives what no entry holds
  have hfresh : ∀ {v q}, v ≠ uid → s.onlinePlayer v = some q →
      q ≠ (s.createPlayer uid sid c).1 := by
    intro v q hv hq hqp
    apply hfree
    have : (s.kick uid).onlinePlayer v = some q := by
      rw [kick_onlinePlayer, Function.update_of_ne hv]; exact hq
    exact hqp ▸ hk.live this
  have hother : ∀ {q}, q ≠ (s.createPlayer uid sid c).1 →
      (s.createPlayer uid sid c).2.deref q = s.deref q := by
    intro q hq
    exact (ObjectPool.acquireImpl_objs_of_ne hq).trans (kick_deref s uid q)
  have hplayer : (s.createPlayer uid sid c).2.deref (s.createPlayer uid sid c).1 = x :=
    ObjectPool.acquireImpl_objs_self _ _
  exact
    { onlinePlayer := honline
      userData_self := by simp [createPlayer, create, setUserData]
      userData_of_ne := fun hd => by
        simp [createPlayer, create, setUserData, Function.update_of_ne hd]
      player := hplayer
      other := hother
      fresh := hfresh
      wf :=
        { pool := hk.pool.acquireImpl x
          live := fun {v q} hv => by
            -- the entry of the uid, or one that was there
            rw [honline] at hv
            by_cases hvu : v = uid
            · subst hvu
              rw [Function.update_self] at hv
              obtain rfl := Option.some.inj hv
              exact hlive
            · rw [Function.update_of_ne hvu] at hv
              have : (s.kick uid).onlinePlayer v = some q := by
                rw [kick_onlinePlayer, Function.update_of_ne hvu]; exact hv
              exact ((hk.live this).acquireImpl x).1
          pid_eq := fun {v q} hv => by
            rw [honline] at hv
            by_cases hvu : v = uid
            · subst hvu
              rw [Function.update_self] at hv
              obtain rfl := Option.some.inj hv
              rw [hplayer]
            · rw [Function.update_of_ne hvu] at hv
              rw [hother (hfresh hvu hv)]
              exact h.pid_eq hv } }

/-- A new entry is live and filed under its uid. -/
theorem Wf.createPlayer {s : PlayerOnlineService} (h : s.Wf) (uid : UInt32) (sid : Int64)
    (c : ChannelRef) : (s.createPlayer uid sid c).2.Wf :=
  (createPlayer_created h uid sid c).wf

/-- `createPlayer` keeps the table consistent exactly when the channel carries no
    player, or one of the same uid. -/
theorem createPlayer_consistent_iff {s : PlayerOnlineService} (hw : s.Wf) (h : s.Consistent)
    (uid : UInt32) (sid : Int64) (c : ChannelRef) :
    (s.createPlayer uid sid c).2.Consistent ↔
      ∀ q, s.userData c = some q → (s.deref q).pid = uid := by
  have hc := createPlayer_created hw uid sid c
  generalize (s.createPlayer uid sid c).1 = p at hc
  generalize (s.createPlayer uid sid c).2 = s' at hc ⊢
  constructor
  · -- the entry of another uid on `c` would still be there, but no longer on its channel
    intro h' q hq
    by_contra hne
    obtain ⟨hentry, hchan⟩ := h.userData hq
    have hqp := hc.fresh hne hentry
    have hentry' : s'.onlinePlayer (s.deref q).pid = some q := by
      rw [hc.onlinePlayer, Function.update_of_ne hne]; exact hentry
    have hud := (h'.entry hentry').2
    rw [hc.other hqp, hchan, hc.userData_self] at hud
    exact hqp (Option.some.inj hud).symm
  · intro hown
    constructor
    · intro u q hq
      rw [hc.onlinePlayer] at hq ⊢
      by_cases hu : u = uid
      · -- the new entry
        subst hu
        rw [Function.update_self] at hq
        obtain rfl := Option.some.inj hq
        rw [hc.player]
        exact ⟨Function.update_self .., hc.userData_self⟩
      · -- another entry is neither on `c` nor on the kicked session's channel
        rw [Function.update_of_ne hu] at hq
        have hpid := hw.pid_eq hq
        have hud := (h.entry hq).2
        rw [hc.other (hc.fresh hu hq), hpid, Function.update_of_ne hu]
        refine ⟨hq, ?_⟩
        have hne : (s.deref q).channel ≠ c := by
          intro hcc
          rw [hcc] at hud
          exact hu (hpid.symm.trans (hown q hud))
        rw [hc.userData_of_ne hne, kick_userData, if_neg ?_]
        · exact hud
        · rintro ⟨old, hold, hch⟩
          have hud' := (h.entry hold).2
          rw [hch, hud] at hud'
          exact hu (hw.uid_unique hq (Option.some.inj hud' ▸ hold))
    · intro d q hq
      by_cases hd : d = c
      · subst hd
        obtain rfl := Option.some.inj (hc.userData_self.symm.trans hq)
        rw [hc.player, hc.onlinePlayer]
        exact ⟨Function.update_self .., rfl⟩
      · rw [hc.userData_of_ne hd, kick_userData] at hq
        split at hq
        · exact nomatch hq
        · rename_i hkick
          obtain ⟨hentry, hchan⟩ := h.userData hq
          have hu : (s.deref q).pid ≠ uid := by
            intro hu
            exact hkick ⟨q, hu ▸ hentry, hchan⟩
          rw [hc.other (hc.fresh hu hentry), hc.onlinePlayer, Function.update_of_ne hu]
          exact ⟨hentry, hchan⟩

/-! ## `removePlayer` -/

/-- No entry is left for the object that is released. -/
theorem Wf.removePlayer {s : PlayerOnlineService} (h : s.Wf) (id : UInt32) :
    (s.removePlayer id).2.Wf := by
  unfold PlayerOnlineService.removePlayer
  split
  · exact h
  · rename_i player hid
    exact h.recycle_erase hid s.userData

/-- `removePlayer` keeps the table consistent exactly when it finds nobody: it leaves
    the removed player's channel pointing at the object. -/
theorem removePlayer_consistent_iff {s : PlayerOnlineService} (hw : s.Wf) (h : s.Consistent)
    (id : UInt32) : (s.removePlayer id).2.Consistent ↔ s.onlinePlayer id = none := by
  unfold removePlayer
  cases hid : s.onlinePlayer id with
  | none => simpa using h
  | some player =>
    simp only [reduceCtorEq, iff_false]
    intro h'
    have hud : ((s.erase id).recycle player).userData (s.deref player).channel = some player :=
      (h.entry hid).2
    have hentry := (h'.userData hud).1
    rw [recycle_deref, erase_deref, hw.pid_eq hid] at hentry
    simp [erase] at hentry

/-! ## `removePlayerByChannel` -/

/-- Taking a channel's player out leaves entries that are live. -/
theorem Wf.removePlayerByChannel {s : PlayerOnlineService} (h : s.Wf) (c : ChannelRef) :
    (s.removePlayerByChannel c).2.Wf := by
  unfold PlayerOnlineService.removePlayerByChannel
  split
  · exact h
  · rename_i player hud
    simp only
    split
    · exact { pool := h.pool, live := h.live, pid_eq := h.pid_eq }
    · rename_i hentry
      exact h.recycle_erase (by simpa using hentry) _

/-- What `removePlayerByChannel` does to a consistent table: the channel's player goes
    out, and with it the channel's `userData`. -/
theorem Consistent.removePlayerByChannel {s : PlayerOnlineService} (hw : s.Wf)
    (h : s.Consistent) (c : ChannelRef) :
    (s.removePlayerByChannel c).2.Consistent ∧
      (s.removePlayerByChannel c).2.userData = Function.update s.userData c none := by
  unfold PlayerOnlineService.removePlayerByChannel
  cases hud : s.userData c with
  | none =>
    refine ⟨h, ?_⟩
    simp only
    rw [← hud, Function.update_eq_self]
  | some player =>
    obtain ⟨hentry, hchan⟩ := h.userData hud
    simp only [hentry, ne_eq, not_true, if_false]
    refine ⟨⟨?_, ?_⟩, rfl⟩
    · intro u q hq
      simp only [recycle_deref, setUserData_deref, erase_deref, recycle_onlinePlayer,
        recycle_userData, setUserData_onlinePlayer] at hq ⊢
      simp only [erase, setUserData] at hq ⊢
      by_cases hu : u = (s.deref player).pid
      · rw [hu, Function.update_self] at hq; exact nomatch hq
      · -- another entry is on another channel
        rw [Function.update_of_ne hu] at hq
        have hud' := (h.entry hq).2
        rw [hw.pid_eq hq, Function.update_of_ne hu, Function.update_of_ne]
        · exact ⟨hq, hud'⟩
        · intro hcc
          rw [hcc, hud] at hud'
          obtain rfl := Option.some.inj hud'
          exact hu (hw.uid_unique hq hentry)
    · intro d q hq
      simp only [recycle_deref, setUserData_deref, erase_deref, recycle_onlinePlayer,
        recycle_userData, setUserData_onlinePlayer] at hq ⊢
      simp only [erase, setUserData] at hq ⊢
      by_cases hd : d = c
      · rw [hd, Function.update_self] at hq; exact nomatch hq
      · rw [Function.update_of_ne hd] at hq
        obtain ⟨hentry', hchan'⟩ := h.userData hq
        refine ⟨?_, hchan'⟩
        rw [Function.update_of_ne]
        · exact hentry'
        · intro hpid
          rw [hpid] at hentry'
          obtain rfl := Option.some.inj (hentry.symm.trans hentry')
          exact hd (hchan'.symm.trans hchan)

/-! ## Sequences of calls -/

/-- A call of the service. -/
inductive TableCall where
  | createPlayer (uid : UInt32) (sid : Int64) (channel : ChannelRef)
  | removePlayer (id : UInt32)
  | removePlayerByChannel (channel : ChannelRef)

/-- What a call leaves. -/
def call (s : PlayerOnlineService) : TableCall → PlayerOnlineService
  | .createPlayer uid sid channel => (s.createPlayer uid sid channel).2
  | .removePlayer id => (s.removePlayer id).2
  | .removePlayerByChannel channel => (s.removePlayerByChannel channel).2

/-- Every call can be made. -/
def step (s : PlayerOnlineService) (a : TableCall) : Option PlayerOnlineService :=
  some (s.call a)

/-- The calls the service is made for: a login comes on a channel without a player or
    with the player of that uid, and nobody who is online is removed by uid. -/
def Callable (s : PlayerOnlineService) : TableCall → Prop
  | .createPlayer uid _ channel => ∀ q, s.userData channel = some q → (s.deref q).pid = uid
  | .removePlayer id => s.onlinePlayer id = none
  | .removePlayerByChannel _ => True

/-- Every call keeps the entries live. -/
theorem Wf.call {s : PlayerOnlineService} (h : s.Wf) (a : TableCall) : (s.call a).Wf := by
  cases a with
  | createPlayer uid sid channel => exact h.createPlayer uid sid channel
  | removePlayer id => exact h.removePlayer id
  | removePlayerByChannel channel => exact h.removePlayerByChannel channel

/-- One call keeps the table consistent exactly when it is one the service is made for. -/
theorem call_consistent_iff {s : PlayerOnlineService} (hw : s.Wf) (h : s.Consistent)
    (a : TableCall) : (s.call a).Consistent ↔ s.Callable a := by
  cases a with
  | createPlayer uid sid channel => exact createPlayer_consistent_iff hw h uid sid channel
  | removePlayer id => exact removePlayer_consistent_iff hw h id
  | removePlayerByChannel channel =>
    exact ⟨fun _ => trivial, fun _ => (h.removePlayerByChannel hw channel).1⟩

/-- The sequences of calls that keep the table and `userData` consistent after every
    call are those in which every call is one the service is made for. -/
theorem consistent_iff_callable (calls : List TableCall) :
    (∀ done s, done <+: calls → Run.run step init done = some s → s.Consistent) ↔
      Run.Meets step Callable init calls := by
  suffices ∀ (s₀ : PlayerOnlineService), s₀.Wf → s₀.Consistent →
      ((∀ done s, done <+: calls → Run.run step s₀ done = some s → s.Consistent) ↔
        Run.Meets step Callable s₀ calls) from this init wf_init consistent_init
  induction calls with
  | nil =>
    intro s₀ _ h₀
    refine ⟨fun _ => trivial, fun _ done s hdone hrun => ?_⟩
    obtain rfl := List.prefix_nil.mp hdone
    obtain rfl := Option.some.inj hrun
    exact h₀
  | cons a calls ih =>
    intro s₀ hw₀ h₀
    constructor
    · intro hall
      -- the state after the first call is consistent, so the call was admissible
      have h₁ : (s₀.call a).Consistent := hall [a] _ (by simp) rfl
      refine ⟨(call_consistent_iff hw₀ h₀ a).mp h₁, ?_⟩
      refine (ih (s₀.call a) (hw₀.call a) h₁).mp fun done s hdone hrun => ?_
      exact hall (a :: done) s (by simpa using hdone) hrun
    · rintro ⟨hcall, hmeets⟩ done s hdone hrun
      have h₁ := (call_consistent_iff hw₀ h₀ a).mpr hcall
      cases done with
      | nil =>
        obtain rfl := Option.some.inj hrun
        exact h₀
      | cons b done =>
        obtain ⟨rfl, htail⟩ := List.cons_prefix_cons.mp hdone
        exact (ih (s₀.call b) (hw₀.call b) h₁).mpr hmeets done s htail hrun

/-- A second uid logs in on the channel of the first: the first stays in the table
    with a channel that no longer points at it. -/
theorem second_uid_inconsistent :
    ∃ s, Run.run step init [.createPlayer 1 10 0, .createPlayer 2 20 0] = some s ∧
      ¬s.Consistent := by
  refine ⟨_, rfl, fun h => ?_⟩
  have hentry := h.entry (u := 1) (p := 0) (by decide)
  exact absurd hentry.2 (by decide)

end Athena.PlayerOnlineService
