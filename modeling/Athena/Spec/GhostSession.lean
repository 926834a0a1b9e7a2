import Athena.Spec.GatewaySteps

/-!
# No entry of the online table on a channel whose close has been handled

The login of a channel runs on an actor, `onClosed` on the channel's loop thread, and
neither waits for the other.  When every login runs before its channel's `onClosed`
and on a channel without a player of another uid, the table is consistent and no
handled channel carries a player (`Quiet`), so no entry names such a channel.

## Key results

- `quiet_step`, `no_ghost_session`: no ghost in any run of timely logins
- `ghost_session`: a login that runs after `onClosed` leaves one
-/

namespace Athena.Gateway

open PlayerOnlineService

/-- No entry has a channel on which `onClosed` has run and for which no login task is
    queued or running. -/
def NoGhost (s : Gateway) : Prop :=
  ∀ c, s.onClosed c = true → (∀ t ∈ s.tasks, ∀ r, t.pc ≠ .loginReq c r) →
    (∀ actor msg, .login actor c msg ∉ s.sending) →
    ∀ u p, s.service.onlinePlayer u = some p → (s.service.deref p).channel ≠ c

/-- A login runs before the `onClosed` of its channel, and the channel carries no
    player of another uid. -/
def TimelyLogin (s : Gateway) (a : GatewayAct) : Prop :=
  ∀ l ∈ s.startsLogin a, s.onClosed l.1 = false ∧
    ∀ q ∈ s.service.userData l.1, (s.service.deref q).pid = toUid l.2

instance (s : Gateway) (a : GatewayAct) : Decidable (s.TimelyLogin a) :=
  inferInstanceAs (Decidable (∀ l ∈ s.startsLogin a, s.onClosed l.1 = false ∧
    ∀ q ∈ s.service.userData l.1, (s.service.deref q).pid = toUid l.2))

/-- The table is consistent, and a channel whose close has been handled carries no
    player. -/
structure Quiet (s : Gateway) : Prop where
  wf : s.service.Wf
  consistent : s.service.Consistent
  userData : ∀ c, s.onClosed c = true → s.service.userData c = none

/-- Nobody is logged in at first. -/
theorem quiet_init : init.Quiet where
  wf := wf_init
  consistent := consistent_init
  userData _ h := by simp [init] at h

/-- A quiet gateway has no ghosts. -/
theorem Quiet.noGhost {s : Gateway} (h : s.Quiet) : s.NoGhost := by
  intro c hc _ _ u p hu hch
  have hud := (h.consistent.entry hu).2
  rw [hch, h.userData c hc] at hud
  exact nomatch hud

/-- A step with a timely login, if any, keeps handled channels without a player. -/
theorem quiet_step {cfg : GatewayConfig} {s s' : Gateway} {a : GatewayAct} (h : s.Quiet)
    (hok : s.TimelyLogin a) (hstep : s.step cfg a = some s') : s'.Quiet := by
  cases step_stepped hstep with
  | recvLogin => exact ⟨h.wf, h.consistent, h.userData⟩
  | @closeInLoop c hopen =>
    obtain ⟨hcons, hud⟩ := h.consistent.removePlayerByChannel h.wf c
    constructor
    · simpa using h.wf.removePlayerByChannel c
    · simpa using hcons
    · intro d hd
      simp only [onPlayerDisconnect_service, onPlayerDisconnect_onClosed, hud] at hd ⊢
      by_cases hdc : d = c
      · subst hdc; exact Function.update_self ..
      · rw [Function.update_of_ne hdc] at hd ⊢
        exact h.userData d hd
  | @login i sid actor c r ht hsid =>
    have hstarts : s.startsLogin (.runTask i sid) = some (c, r) := by
      simp only [startsLogin, ht]
    obtain ⟨hopen, hown⟩ := hok (c, r) hstarts
    have hc := createPlayer_created h.wf (toUid r) sid c
    refine ⟨hc.wf, (createPlayer_consistent_iff h.wf h.consistent _ sid c).mpr hown, ?_⟩
    intro d hd
    -- `d` is closed and `c` is not
    have hdc : d ≠ c := by
      rintro rfl
      simp [onLoginReq, hopen] at hd
    refine (hc.userData_of_ne hdc).trans ?_
    rw [kick_userData]
    split
    · rfl
    · exact h.userData d hd
  | notFound => exact ⟨h.wf, h.consistent, h.userData⟩
  | found => exact ⟨h.wf, h.consistent, h.userData⟩
  | @setValid i sid actor res p =>
    exact ⟨h.wf.setValid p, h.consistent.setValid p, h.userData⟩
  | getChannel => exact ⟨h.wf, h.consistent, h.userData⟩
  | sendRes => exact ⟨h.wf, h.consistent, h.userData⟩
  | send => exact ⟨h.wf, h.consistent, h.userData⟩
  | @gameStep msg =>
    cases msg with
    | login => exact ⟨h.wf, h.consistent, h.userData⟩
    | disconnect => exact ⟨h.wf, h.consistent, h.userData⟩
  | recvLoginRes => exact ⟨h.wf, h.consistent, h.userData⟩

/-- In every run whose logins are timely, no reachable state has an entry on a channel
    whose close has been handled. -/
theorem no_ghost_session (cfg : GatewayConfig) (acts : List GatewayAct) (s : Gateway)
    (hok : Run.Meets (step cfg) TimelyLogin init acts)
    (hrun : Run.run (step cfg) init acts = some s) : s.NoGhost :=
  (Run.invariant_of_meets (fun _ _ _ h hok hstep => quiet_step h hok hstep) quiet_init hok
    hrun).noGhost

/-- One client logs in and goes; another logs in, is kicked by a third connection of the
    same uid, and goes. -/
theorem no_ghost_session_kicked :
    ∃ s, Run.run (step ⟨2, fun c => Int32.ofNat c, 9⟩) init
      [.recvLogin 0 1, .runTask 0 7, .send 0, .closeInLoop 0, .recvLogin 1 5, .runTask 0 8,
        .recvLogin 2 5, .send 0, .send 0, .runTask 0 9, .closeInLoop 1] = some s ∧ s.NoGhost := by
  obtain ⟨s, hrun⟩ := Option.isSome_iff_exists.mp (show (Run.run
    (step ⟨2, fun c => Int32.ofNat c, 9⟩) init
      [.recvLogin 0 1, .runTask 0 7, .send 0, .closeInLoop 0, .recvLogin 1 5, .runTask 0 8,
        .recvLogin 2 5, .send 0, .send 0, .runTask 0 9, .closeInLoop 1]).isSome
    from by decide)
  exact ⟨s, hrun, no_ghost_session _ _ s (by decide) hrun⟩

/-- A client sends its login and disconnects; the actor runs the login after
    `onClosed`.  The entry stays, with the closed channel. -/
theorem ghost_session :
    ∃ s, Run.run (step ⟨2, fun c => Int32.ofNat c, 9⟩) init
      [.recvLogin 0 1, .closeInLoop 0, .runTask 0 7, .send 0] = some s ∧ ¬s.NoGhost := by
  have hend : (Run.run (step ⟨2, fun c => Int32.ofNat c, 9⟩) init
      [.recvLogin 0 1, .closeInLoop 0, .runTask 0 7, .send 0]).map (fun s =>
        (s.onClosed 0, s.tasks, s.sending, s.service.onlinePlayer 1,
          (s.service.deref 0).channel)) = some (true, [], [], some 0, 0) := by decide
  obtain ⟨s, hrun, hs⟩ := Option.map_eq_some_iff.mp hend
  simp only [Prod.mk.injEq] at hs
  obtain ⟨hclosed, htasks, hsending, hentry, hchan⟩ := hs
  refine ⟨s, hrun, fun h => h 0 hclosed ?_ ?_ 1 0 hentry hchan⟩
  · simp [htasks]
  · simp [hsending]

end Athena.Gateway
