import Athena.Spec.GatewaySteps
import Mathlib.Data.List.InsertIdx

/-!
# The gateway's table and the game's view of who is logged in

Every change of the online table is followed by a message to the game.  `settled` is
what a sequence of messages makes of one uid, and the invariant `Agree` says that the
game's last action, the messages on the link and the messages still to be sent, in
the order of their table changes, settle to the table.  Sending keeps this when it
does not let a message overtake one of the other kind for the same uid.

## Key results

- `settled_overtake`: overtaking messages that agree changes nothing
- `agree_step`, `login_agreement`: agreement at the end of every run of orderly sends
- `login_overtakes`: a re-login whose message overtakes the old session's disconnect
-/

namespace Athena

namespace GameMsg

/-- The player the game applies the message to. -/
def uid : GameMsg → UInt32
  | .login req _ => toUid req.roleid
  | .disconnect _ playerId => toUid (wirePlayerId playerId)

/-- The message is a login. -/
def isLogin : GameMsg → Bool
  | .login _ _ => true
  | .disconnect _ _ => false

end GameMsg

/-! ## What a sequence of messages makes of one uid -/

/-- Whether `uid` is logged in after the messages, if it was `b` before. -/
def settled (uid : UInt32) (b : Bool) (ms : List GameMsg) : Bool :=
  ms.foldl (fun b m => if m.uid = uid then m.isLogin else b) b

/-- The later messages start from what the earlier ones have made. -/
theorem settled_append (uid : UInt32) (b : Bool) (ms ns : List GameMsg) :
    settled uid b (ms ++ ns) = settled uid (settled uid b ms) ns :=
  List.foldl_append

/-- Two messages may change places unless they say different things about one uid. -/
theorem settled_swap {m n : GameMsg} (h : n.uid = m.uid → n.isLogin = m.isLogin)
    (uid : UInt32) (b : Bool) (ms : List GameMsg) :
    settled uid b (m :: n :: ms) = settled uid b (n :: m :: ms) := by
  simp only [settled, List.foldl_cons]
  by_cases hm : m.uid = uid
  · by_cases hn : n.uid = uid
    · rw [if_pos hm, if_pos hn, if_pos hn, if_pos hm, h (hn.trans hm.symm)]
    · rw [if_pos hm, if_neg hn, if_neg hn, if_pos hm]
  · rw [if_neg hm, if_neg hm]

/-- A message may overtake those that say the same about its uid. -/
theorem settled_overtake (ms : List GameMsg) {i : Nat} {m : GameMsg} (hm : ms[i]? = some m)
    (h : ∀ n ∈ ms.take i, n.uid = m.uid → n.isLogin = m.isLogin) (uid : UInt32) (b : Bool) :
    settled uid b (m :: ms.eraseIdx i) = settled uid b ms := by
  induction ms generalizing i b with
  | nil => simp at hm
  | cons n ms ih =>
    cases i with
    | zero =>
      obtain rfl : n = m := by simpa using hm
      rfl
    | succ i =>
      simp only [List.getElem?_cons_succ, List.take_succ_cons, List.mem_cons,
        forall_eq_or_imp] at hm h
      rw [List.eraseIdx_cons_succ, settled_swap h.1]
      exact ih hm h.2 _

/-! ## The game -/

namespace LoginService

/-- Whether the uid's last action was `onLogin`. -/
def loggedIn (s : LoginService) (uid : UInt32) : Bool :=
  s.lastAction uid == some .onLogin

/-- A player for whom something has run is known, with a channel. -/
def Known (s : LoginService) : Prop :=
  ∀ uid, s.lastAction uid ≠ none → ∃ p, s.players uid = some p ∧ p.channel.isSome

/-- Nothing has run yet. -/
theorem known_init : init.Known := by
  intro uid h; simp [init] at h

/-- A disconnect of a player the game knows logs him out; of one it does not know, who
    has had no action, it changes nothing. -/
theorem onPlayerDisconnect_cases {s : LoginService} (h : s.Known) (playerId : Int64)
    (req : SessionMsg) :
    (s.lastAction (toUid playerId) = none ∧ s.onPlayerDisconnect playerId req = s) ∨
    (∃ p, s.players (toUid playerId) = some p ∧ p.channel.isSome ∧
      s.onPlayerDisconnect playerId req = { s with
        lastAction := Function.update s.lastAction (toUid playerId) (some .onLogout) }) := by
  unfold onPlayerDisconnect
  by_cases hnone : s.lastAction (toUid playerId) = none
  · cases hp : s.players (toUid playerId) with
    | none => exact .inl ⟨hnone, rfl⟩
    | some p =>
      cases hc : p.channel with
      | none => exact .inl ⟨hnone, by simp [hc]⟩
      | some c => exact .inr ⟨p, rfl, by simp [hc], by simp [hc]⟩
  · obtain ⟨p, hp, hsome⟩ := h _ hnone
    obtain ⟨c, hc⟩ := Option.isSome_iff_exists.mp hsome
    exact .inr ⟨p, hp, hsome, by simp [hp, hc]⟩

/-- A disconnect logs its player out, and nobody else. -/
theorem onPlayerDisconnect_loggedIn {s : LoginService} (h : s.Known) (playerId : Int64)
    (req : SessionMsg) (uid : UInt32) :
    (s.onPlayerDisconnect playerId req).loggedIn uid =
      if toUid playerId = uid then false else s.loggedIn uid := by
  unfold loggedIn
  rcases onPlayerDisconnect_cases h playerId req with ⟨hnone, hs⟩ | ⟨p, -, -, hs⟩
  · rw [hs]
    split
    · rename_i hu; rw [← hu, hnone]; rfl
    · rfl
  · rw [hs]
    split
    · rename_i hu; simp [hu]
    · rename_i hu; simp [Function.update_of_ne (Ne.symm hu)]

/-- A disconnect runs for a known player only. -/
theorem Known.onPlayerDisconnect {s : LoginService} (h : s.Known) (playerId : Int64)
    (req : SessionMsg) : (s.onPlayerDisconnect playerId req).Known := by
  rcases onPlayerDisconnect_cases h playerId req with ⟨-, hs⟩ | ⟨p, hp, hc, hs⟩
  · rw [hs]; exact h
  · rw [hs]
    intro uid hne
    by_cases hu : uid = toUid playerId
    · exact ⟨p, hu ▸ hp, hc⟩
    · exact h uid (by simpa [Function.update_of_ne hu] using hne)

/-- A login logs its player in, and nobody else. -/
theorem onPlayerLogin_loggedIn (s : LoginService) (channel : ChannelRef) (req : SessionMsg)
    (uid : UInt32) : (s.onPlayerLogin channel req).1.loggedIn uid =
      if toUid req.roleid = uid then true else s.loggedIn uid := by
  unfold onPlayerLogin loggedIn
  split
  · rename_i hu; subst hu; simp
  · rename_i hu; simp [Function.update_of_ne (Ne.symm hu)]

/-- A login makes its player known. -/
theorem Known.onPlayerLogin {s : LoginService} (h : s.Known) (channel : ChannelRef)
    (req : SessionMsg) : (s.onPlayerLogin channel req).1.Known := by
  unfold LoginService.onPlayerLogin
  intro uid hne
  by_cases hu : uid = toUid req.roleid
  · subst hu
    refine ⟨_, Function.update_self .., ?_⟩
    split <;> rfl
  · simp only [Function.update_of_ne hu] at hne ⊢
    exact h uid hne

end LoginService

namespace Gateway

/-- The game does what the next message says. -/
theorem gameStep_loggedIn {cfg : GatewayConfig} {s : Gateway} (h : s.game.Known)
    (m : GameMsg) (uid : UInt32) :
    (s.gameStep cfg m).game.loggedIn uid =
      if m.uid = uid then m.isLogin else s.game.loggedIn uid := by
  cases m with
  | login req _ => exact LoginService.onPlayerLogin_loggedIn s.game cfg.gameChannel req uid
  | disconnect req playerId =>
    exact LoginService.onPlayerDisconnect_loggedIn h (wirePlayerId playerId) req uid

/-- Every message leaves the players known. -/
theorem gameStep_known {cfg : GatewayConfig} {s : Gateway} (h : s.game.Known) (m : GameMsg) :
    (s.gameStep cfg m).game.Known := by
  cases m with
  | login req _ => exact h.onPlayerLogin cfg.gameChannel req
  | disconnect req playerId => exact h.onPlayerDisconnect (wirePlayerId playerId) req

/-! ## The invariant -/

/-- Once the link is empty and every thread has sent its message: the game's last
    action for a uid is `onLogin` exactly if the uid is in the online table. -/
def Agreed (s : Gateway) : Prop :=
  s.link = [] → s.sending = [] →
    ∀ uid, s.game.lastAction uid = some .onLogin ↔ (s.service.onlinePlayer uid).isSome

/-- No message is sent while one of the other kind for the same uid, whose table change
    came earlier, is still to be sent. -/
def OrderlySend (s : Gateway) : GatewayAct → Prop
  | .send i => ∀ p ∈ s.sending[i]?, ∀ q ∈ s.sending.take i,
      q.msg.uid = p.msg.uid → q.msg.isLogin = p.msg.isLogin
  | _ => True

instance (s : Gateway) (a : GatewayAct) : Decidable (s.OrderlySend a) :=
  match a with
  | .send i => inferInstanceAs (Decidable (∀ p ∈ s.sending[i]?, ∀ q ∈ s.sending.take i,
      q.msg.uid = p.msg.uid → q.msg.isLogin = p.msg.isLogin))
  | .recvLogin _ _ => .isTrue trivial
  | .closeInLoop _ => .isTrue trivial
  | .runTask _ _ => .isTrue trivial
  | .gameStep => .isTrue trivial
  | .recvLoginRes => .isTrue trivial

/-- The messages under way, in the order in which the game will see them if nobody
    overtakes. -/
def underWay (s : Gateway) : List GameMsg := s.link ++ s.sending.map Sending.msg

/-- What the game has seen and will see settles to the table. -/
structure Agree (s : Gateway) : Prop where
  known : s.game.Known
  settles : ∀ uid, settled uid (s.game.loggedIn uid) s.underWay =
    (s.service.onlinePlayer uid).isSome

/-- At first nobody is logged in on either side. -/
theorem agree_init : init.Agree where
  known := LoginService.known_init
  settles _ := rfl

/-- When nothing is under way, the two agree. -/
theorem Agree.agreed {s : Gateway} (h : s.Agree) : s.Agreed := by
  intro hlink hsending uid
  have hs := h.settles uid
  simp only [underWay, hlink, hsending, List.map_nil, List.append_nil, settled,
    List.foldl_nil, LoginService.loggedIn] at hs
  rw [← hs, beq_iff_eq]

/-- A change of the table and the message that will report it. -/
private theorem settles_change {s : Gateway} (h : s.Agree) {m : GameMsg} {p : Option PlayerRef}
    (hm : m.isLogin = p.isSome) (uid : UInt32) :
    settled uid (s.game.loggedIn uid) (s.underWay ++ [m]) =
      (Function.update s.service.onlinePlayer m.uid p uid).isSome := by
  rw [settled_append, h.settles uid]
  by_cases hu : m.uid = uid
  · subst hu; simp [settled, hm]
  · simp [settled, hu, Function.update_of_ne (Ne.symm hu)]

/-- An orderly step keeps the agreement. -/
theorem agree_step {cfg : GatewayConfig} {s s' : Gateway} {a : GatewayAct} (h : s.Agree)
    (hok : s.OrderlySend a) (hstep : s.step cfg a = some s') : s'.Agree := by
  cases step_stepped hstep with
  | recvLogin => exact ⟨h.known, h.settles⟩
  | @closeInLoop c =>
    refine ⟨by simpa using h.known, fun uid => ?_⟩
    have honline := PlayerOnlineService.removePlayerByChannel_onlinePlayer s.service c
    rw [onPlayerDisconnect_service, honline, underWay, onPlayerDisconnect_link,
      onPlayerDisconnect_game, onPlayerDisconnect_sending]
    rcases (s.service.removePlayerByChannel c).1 with _ | ⟨pid, sid⟩
    · simpa [underWay] using h.settles uid
    · -- the removed player's message goes behind the others
      have hset := settles_change h (p := none) (m := .disconnect
        { sid := sid, roleid := ofUid pid } (ofUid pid)) rfl uid
      simp only [GameMsg.uid, toUid_wirePlayerId] at hset
      simpa [underWay] using hset
  | @login i sid actor c r =>
    refine ⟨h.known, fun uid => ?_⟩
    have hset := settles_change h (p := some (s.service.createPlayer (toUid r) sid c).1)
      (m := .login { sid := sid, roleid := ofUid (toUid r) } (ofUid (toUid r))) rfl uid
    simp only [GameMsg.uid, toUid_ofUid] at hset
    rw [← PlayerOnlineService.createPlayer_onlinePlayer] at hset
    simpa [underWay, onLoginReq] using hset
  | notFound => exact ⟨h.known, h.settles⟩
  | found => exact ⟨h.known, h.settles⟩
  | setValid => exact ⟨h.known, h.settles⟩
  | getChannel => exact ⟨h.known, h.settles⟩
  | sendRes => exact ⟨h.known, h.settles⟩
  | @send i p hp =>
    refine ⟨h.known, fun uid => ?_⟩
    -- the message overtakes the earlier ones, which agree with it
    have hover := settled_overtake (s.sending.map Sending.msg) (m := p.msg) (i := i)
      (by rw [List.getElem?_map, hp]; rfl)
      (by rw [← List.map_take, List.forall_mem_map]; exact fun q hq => hok p hp q hq) uid
      (settled uid (s.game.loggedIn uid) s.link)
    have hs := h.settles uid
    rw [underWay, settled_append, ← hover, ← List.singleton_append, ← settled_append,
      ← List.append_assoc, List.eraseIdx_map] at hs
    exact hs
  | @gameStep msg rest hlink =>
    have hknown : { s with link := rest }.game.Known := h.known
    refine ⟨gameStep_known hknown msg, fun uid => ?_⟩
    -- the head of the link moves from the messages under way into the game
    have hs := h.settles uid
    rw [underWay, hlink, List.cons_append] at hs
    rw [gameStep_loggedIn hknown msg uid]
    cases msg with
    | login => exact hs
    | disconnect => exact hs
  | recvLoginRes => exact ⟨h.known, h.settles⟩

/-- In every run of orderly sends, the game and the table agree whenever all messages
    have been processed. -/
theorem login_agreement (cfg : GatewayConfig) (acts : List GatewayAct) (s : Gateway)
    (hok : Run.Meets (step cfg) OrderlySend init acts)
    (hrun : Run.run (step cfg) init acts = some s) : s.Agreed :=
  (Run.invariant_of_meets (fun _ _ _ h hok hstep => agree_step h hok hstep) agree_init hok
    hrun).agreed

/-- A login, its disconnect and a re-login, with the disconnect and the second login
    between their table changes and their sends at the same time. -/
theorem login_agreement_relogin :
    ∃ s, Run.run (step ⟨2, fun c => Int32.ofNat c, 9⟩) init
      [.recvLogin 0 1, .runTask 0 7, .recvLogin 1 1, .send 0, .closeInLoop 0, .runTask 0 8,
        .send 0, .send 0, .gameStep, .gameStep, .gameStep] = some s ∧ s.Agreed := by
  obtain ⟨s, hrun⟩ := Option.isSome_iff_exists.mp (show (Run.run
    (step ⟨2, fun c => Int32.ofNat c, 9⟩) init
      [.recvLogin 0 1, .runTask 0 7, .recvLogin 1 1, .send 0, .closeInLoop 0, .runTask 0 8,
        .send 0, .send 0, .gameStep, .gameStep, .gameStep]).isSome from by decide)
  exact ⟨s, hrun, login_agreement _ _ s (by decide) hrun⟩

/-- The same, but the second login is sent before the disconnect: the game logs out a
    player who is online. -/
theorem login_overtakes :
    ∃ s, Run.run (step ⟨2, fun c => Int32.ofNat c, 9⟩) init
      [.recvLogin 0 1, .runTask 0 7, .recvLogin 1 1, .send 0, .closeInLoop 0, .runTask 0 8,
        .send 1, .send 0, .gameStep, .gameStep, .gameStep] = some s ∧ ¬s.Agreed := by
  have hend : (Run.run (step ⟨2, fun c => Int32.ofNat c, 9⟩) init
      [.recvLogin 0 1, .runTask 0 7, .recvLogin 1 1, .send 0, .closeInLoop 0, .runTask 0 8,
        .send 1, .send 0, .gameStep, .gameStep, .gameStep]).map (fun s =>
        (s.link, s.sending, s.game.lastAction 1, (s.service.onlinePlayer 1).isSome)) =
      some ([], [], some .onLogout, true) := by decide
  obtain ⟨s, hrun, hs⟩ := Option.map_eq_some_iff.mp hend
  simp only [Prod.mk.injEq] at hs
  obtain ⟨hlink, hsending, hlast, honline⟩ := hs
  refine ⟨s, hrun, fun h => ?_⟩
  have hlogin := (h hlink hsending 1).mpr honline
  rw [hlast] at hlogin
  exact nomatch hlogin

end Gateway

end Athena
