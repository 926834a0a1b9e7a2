import Athena.ForStd.Run
import Athena.Spec.PlayerInv

/-!
# One player object for a uid

Two connections of the gateway are handled by two actors, so that two logins of one
player may both find nobody, and both make an object.  In a run in which nobody looks up
a player who is being made there is one object for a uid.

## Key results

- `LoginActors.advance_alone`: a login without interleaved steps is `onPlayerLogin`
- `LoginActors.one_player`: one object for a uid, with the channel of the last login
- `LoginActors.two_players`, `two_of_overlap`: a lookup at the wrong time makes two
-/

namespace Athena.Game.LoginActors

variable {A : Type} [DecidableEq A]

/-- `onPlayerLogin` on one actor without a step of another one in between. -/
theorem advance_alone (actorOf : ChannelRef → A) {s : LoginActors A} {a : A} {call : LoginCall}
    (hpc : s.pc a = .getPlayer call) (registered : ChannelRef → Bool) (reply : FindReply) :
    ∃ n s', Run.run (step actorOf) s (List.replicate n (.advance a registered reply)) = some s' ∧
      s'.pc a = .idle ∧
      s'.node = (s.node.onPlayerLogin registered reply call.channel call.req).1 := by
  have hgoto : ∀ (t : LoginActors A) (pc : LoginPc), (t.goto a pc).pc a = pc :=
    fun t pc => Function.update_self _ _ _
  have hnext : ∀ {t t' : LoginActors A}, t.advance a registered reply = some t' →
      ∀ n, Run.run (step actorOf) t (List.replicate (n + 1) (.advance a registered reply)) =
        Run.run (step actorOf) t' (List.replicate n (.advance a registered reply)) :=
    fun h n => Run.run_of_step h _
  cases hp : s.node.getPlayer (toUid call.req.roleid) with
  | some existPlayer =>
    refine ⟨4, ?_⟩
    rw [hnext (by rw [advance, hpc]; simp only [LoginCall.playerId, hp]; rfl),
      hnext (by rw [advance, hgoto]), hnext (by rw [advance, hgoto]),
      hnext (by rw [advance, hgoto])]
    refine ⟨_, rfl, Function.update_self _ _ _, ?_⟩
    rw [GameNode.onPlayerLogin, hp]
    rfl
  | none =>
    refine ⟨5, ?_⟩
    rw [hnext (by rw [advance, hpc]; simp only [LoginCall.playerId, hp]; rfl),
      hnext (by rw [advance, hgoto]), hnext (by rw [advance, hgoto]),
      hnext (by rw [advance, hgoto]), hnext (by rw [advance, hgoto])]
    refine ⟨_, rfl, Function.update_self _ _ _, ?_⟩
    rw [GameNode.onPlayerLogin, hp]
    rfl

/-- The condition on a step: nobody looks up a player whom another login has not found and
    not added yet, and no login is processed behind one that gave the player his channel
    after it. -/
def inOrder (s : LoginActors A) : LoginAct A → Bool
  | .advance a _ _ =>
    match s.pc a with
    | .getPlayer call => decide (call.playerId ∉ s.creating)
    | .addPlayer call _ _ _ => (s.setter call.playerId).isSome
    | _ => true
  | _ => true

/-- A step of a login keeps the invariant. -/
theorem inv_advance {s s' : LoginActors A} {a : A} {registered : ChannelRef → Bool}
    {reply : FindReply} (h : Inv s) (hok : s.inOrder (.advance a registered reply) = true)
    (hstep : s.advance a registered reply = some s') : Inv s' := by
  have hpcok := h.pc a
  cases hpc : s.pc a with
  | idle => rw [advance, hpc] at hstep; exact nomatch hstep
  -- the login looks its player up
  | getPlayer call =>
    simp only [inOrder, hpc, decide_eq_true_eq] at hok
    rw [advance, hpc] at hstep
    cases hp : s.node.getPlayer call.playerId with
    | some existPlayer =>
      simp only [hp] at hstep
      obtain rfl := Option.some.inj hstep
      apply h.of_same (a := a) rfl
      · exact hp
      · rw [hpc]; rfl
      · rw [hpc]; rfl
      · rw [hpc]; exact nofun
      · exact fun _ => Iff.rfl
      · exact h.wf
      · exact fun _ => rfl
      · exact fun _ => rfl
      · rfl
      · rfl
      · rfl
      · rfl
    -- this login is now the one that creates the player
    | none =>
      simp only [hp] at hstep
      obtain rfl := Option.some.inj hstep
      exact h.notFound hpc hp hok
  | setChannel call existPlayer =>
    rw [advance, hpc] at hstep
    obtain rfl := Option.some.inj hstep
    exact h.setChannel hpc registered
  | newPlayer call =>
    rw [advance, hpc] at hstep
    obtain rfl := Option.some.inj hstep
    exact h.newPlayer hpc registered rfl rfl
  -- the record and the module calls leave the tables alone
  | loadDataFormDB call kept existPlayer =>
    rw [hpc] at hpcok
    rw [advance, hpc] at hstep
    obtain rfl := Option.some.inj hstep
    apply h.modify
    · exact fun _ => rfl
    · exact fun _ => rfl
    · exact hpcok
    · rw [hpc]; rfl
    · rw [hpc]; rfl
    · rw [hpc]; exact fun _ hx => hx
  | onLogin call kept created existPlayer =>
    rw [hpc] at hpcok
    rw [advance, hpc] at hstep
    obtain rfl := Option.some.inj hstep
    apply h.modify
    · exact fun _ => rfl
    · exact fun _ => rfl
    · exact hpcok
    · rw [hpc]; rfl
    · rw [hpc]; rfl
    · rw [hpc]; exact fun _ hx => hx
  -- the login is the last that set the channel
  | addPlayer call kept created existPlayer =>
    simp only [inOrder, hpc] at hok
    rw [hpc] at hpcok
    rw [advance, hpc] at hstep
    obtain rfl := Option.some.inj hstep
    have hlast : s.setter call.playerId ≠ none := by
      intro hnone
      rw [hnone] at hok
      exact nomatch hok
    have hpid : (s.node.deref existPlayer).pid = call.playerId :=
      (h.given (by rw [hpc]; rfl)).2
    cases created with
    | true =>
      -- the creator inserts, and nobody was before it
      have hunknown : s.node.players call.playerId = none := Newborn.unknown hpcok
      have hadd : s.node.addPlayer existPlayer =
          { s.node with
            players := Function.update s.node.players call.playerId (some existPlayer) } := by
        rw [GameNode.addPlayer, hpid, hunknown]
      rw [hadd]
      exact .finish ⟨h, hpc, hlast, rfl, Function.update_self _ _ _,
        fun uid hu => Function.update_of_ne hu _ _⟩
    | false =>
      -- the player is there, so `emplace` does nothing
      have hknown : s.node.players call.playerId = some existPlayer := hpcok
      have hadd : s.node.addPlayer existPlayer = s.node := by
        rw [GameNode.addPlayer, hpid, hknown]
      rw [hadd]
      exact .finish ⟨h, hpc, hlast, rfl, hknown, fun _ _ => rfl⟩

/-- Every step in order keeps the invariant. -/
theorem inv_step (actorOf : ChannelRef → A) (s : LoginActors A) (act : LoginAct A)
    (s' : LoginActors A) (h : Inv s) (hok : s.inOrder act = true)
    (hstep : step actorOf s act = some s') : Inv s' := by
  cases act with
  | onMsg channel req =>
    obtain rfl := Option.some.inj hstep
    exact { wf := h.wf, entry := h.entry
            -- one more message is processed
            pc := fun a => (h.pc a).mono (fun _ _ hp => hp) (fun _ _ hu hc => ⟨hu, hc⟩)
              (fun _ hl => ⟨hl, rfl⟩)
            one := h.one, nodup := h.nodup, all := h.all, setter := h.setter, settled := h.settled
            known := h.known }
  | take a i =>
    simp only [step] at hstep
    split at hstep
    · rename_i hpc
      split at hstep
      · exact nomatch hstep
      · obtain rfl := Option.some.inj hstep
        -- the mailbox is shorter, the players are the same
        apply h.of_same (a := a) rfl
        · trivial
        · rw [hpc]; rfl
        · rw [hpc]; rfl
        · rw [hpc]; exact nofun
        · exact fun _ => Iff.rfl
        · exact h.wf
        · exact fun _ => rfl
        · exact fun _ => rfl
        · rfl
        · rfl
        · rfl
        · rfl
    · exact nomatch hstep
  | advance a registered reply => exact inv_advance h hok hstep

/-- One player object for a uid.  Any connections, any assignment of them to actors, any
    interleaving in which nobody looks up a player who is being made, and the logins of a
    player are processed no later than those that give him his channel after them: no two
    objects have one uid, and when no login of a player is on its way, `PlayerMgr` has the
    one object of every player who has logged in, with the channel of the login that was
    processed last (or none, if the loop of that channel did not have it any more). -/
theorem one_player {actorOf : ChannelRef → A} {roles : Collection} {acts : List (LoginAct A)}
    {s : LoginActors A} (hrun : Run.run (step actorOf) (init roles) acts = some s)
    (hok : Run.Meets (step actorOf) (fun s act => s.inOrder act = true) (init roles) acts) :
    (∀ p q, s.node.pool.Live p → s.node.pool.Live q →
      (s.node.deref p).pid = (s.node.deref q).pid → p = q) ∧
    ∀ uid, (∀ a, (s.pc a).uid ≠ some uid) →
      (∀ p, s.node.pool.Live p → (s.node.deref p).pid = uid → s.node.getPlayer uid = some p) ∧
      ∀ channel kept, s.processed uid = some (channel, kept) →
        ∃ p, s.node.pool.Live p ∧ (s.node.deref p).pid = uid ∧ s.node.getPlayer uid = some p ∧
          (s.node.deref p).channel = channelOf channel kept := by
  have h := Run.invariant_of_meets (inv_step actorOf) (inv_init roles) hok hrun
  constructor
  · intro p q hp hq hpid
    exact h.unique hp hq hpid
  · intro uid hquiet
    constructor
    · intro p hp hpid
      cases h.all p hp with
      | inl hknown => rw [hpid] at hknown; exact hknown
      | inr hborn =>
        -- the login that makes it would be on its way
        obtain ⟨a, ha⟩ := hborn
        obtain ⟨uid', hcreates, hnew⟩ := (h.pc a).newborn ha
        rw [hnew.pid] at hpid
        rw [hpid] at hcreates
        exact absurd (LoginPc.uid_of_creates hcreates) (hquiet a)
    · intro channel kept hproc
      cases hp : s.node.players uid with
      | none =>
        apply absurd hp
        apply h.known uid
        rw [hproc]
        exact nofun
      | some p =>
        obtain ⟨hl, hpid⟩ := h.entry uid p hp
        refine ⟨p, hl, hpid, hp, ?_⟩
        have hset : s.setter uid = none := by
          cases hs : s.setter uid with
          | none => rfl
          | some a =>
            obtain ⟨call, k, q, hg, hu, -⟩ := h.setter uid a hs
            apply absurd _ (hquiet a)
            rw [← hu]
            exact LoginPc.uid_of_given hg
        obtain ⟨channel', kept', hproc', hch⟩ := h.settled uid p hp hset
        rw [hproc] at hproc'
        obtain ⟨rfl, rfl⟩ := Prod.mk.inj (Option.some.inj hproc')
        exact hch

/-- A player who logs in over one connection and then over another one. -/
theorem one_player_relogin :
    ∃ s, Run.run (step fun channel => channel) (init { docs := fun _ => none, get_id := nofun })
        ([LoginAct.onMsg 0 ⟨5, 7⟩, .onMsg 1 ⟨6, 7⟩, .take 0 0, .take 1 0] ++
          List.replicate 5 (LoginAct.advance 0 (fun _ => true) .exception) ++
          List.replicate 4 (LoginAct.advance 1 (fun _ => true) .exception)) = some s ∧
      ∃ p, s.node.getPlayer 7 = some p ∧ (s.node.deref p).channel = some 1 := by
  have hend : (Run.run (step fun channel => channel)
      (init { docs := fun _ => none, get_id := nofun })
      ([LoginAct.onMsg 0 ⟨5, 7⟩, .onMsg 1 ⟨6, 7⟩, .take 0 0, .take 1 0] ++
        List.replicate 5 (LoginAct.advance 0 (fun _ => true) .exception) ++
        List.replicate 4 (LoginAct.advance 1 (fun _ => true) .exception))).map
      (fun s => s.processed 7) = some (some (1, true)) := by decide
  obtain ⟨s, hrun, hproc⟩ := Option.map_eq_some_iff.mp hend
  have hidle : ∀ a, s.pc a = .idle := by
    obtain rfl := Option.some.inj hrun
    intro a
    by_cases h0 : a = 0
    · subst h0; rfl
    · by_cases h1 : a = 1
      · subst h1; rfl
      · simp [finish, goto, channelSet, h0, h1, init]
  have hone := (one_player hrun (by decide)).2 7 (by intro a; rw [hidle a]; exact nofun)
  obtain ⟨p, -, -, hp, hch⟩ := hone.2 1 true hproc
  exact ⟨s, hrun, p, hp, hch⟩

/-- The same two logins on two actors: both find nobody, both make an object, and the
    object of the second one is not the one that is known. -/
theorem two_players :
    ¬∀ (acts : List (LoginAct Nat)) (s : LoginActors Nat),
      Run.run (step fun channel => channel) (init { docs := fun _ => none, get_id := nofun })
          acts = some s →
        ∀ p q, s.node.pool.Live p → s.node.pool.Live q →
          (s.node.deref p).pid = (s.node.deref q).pid → p = q := by
  intro hall
  have hend : (Run.run (step fun channel => channel)
      (init { docs := fun _ => none, get_id := nofun })
      ([LoginAct.onMsg 0 ⟨5, 7⟩, .onMsg 1 ⟨6, 7⟩, .take 0 0, .take 1 0,
        .advance 0 (fun _ => true) .exception, .advance 1 (fun _ => true) .exception] ++
        List.replicate 4 (LoginAct.advance 0 (fun _ => true) .exception) ++
        List.replicate 4 (LoginAct.advance 1 (fun _ => true) .exception))).map
      (fun s => (s.node.pool.allocCountObj, s.node.pool.free, (s.node.deref 0).pid,
        (s.node.deref 1).pid)) = some (2, [], 7, 7) := by decide
  obtain ⟨s, hrun, hs⟩ := Option.map_eq_some_iff.mp hend
  simp only [Prod.mk.injEq] at hs
  obtain ⟨hcount, hfree, h0, h1⟩ := hs
  have hlive : ∀ p < 2, s.node.pool.Live p := by
    intro p hp
    rw [ObjectPool.Live, hcount, hfree]
    exact ⟨hp, List.not_mem_nil⟩
  have heq := hall _ s hrun 0 1 (hlive 0 (by decide)) (hlive 1 (by decide)) (h0.trans h1.symm)
  exact nomatch heq

/-- The condition leaves nothing out: a lookup of a player whom another login is making
    leads to a second object. -/
theorem two_of_overlap {s : LoginActors A} {a b : A} {call : LoginCall} (h : Inv s)
    (hpc : s.pc a = .getPlayer call) (hba : b ≠ a)
    (hb : (s.pc b).creates = some call.playerId) (actorOf : ChannelRef → A)
    (registered : ChannelRef → Bool) (reply : FindReply) :
    ∃ acts s', Run.run (step actorOf) s acts = some s' ∧ ∃ p q, p ≠ q ∧
      s'.node.pool.Live p ∧ s'.node.pool.Live q ∧
      (s'.node.deref p).pid = call.playerId ∧ (s'.node.deref q).pid = call.playerId := by
  have hnone : s.node.getPlayer call.playerId = none := ((h.pc b).creates hb).1
  -- `a` finds nobody and makes the object `q`
  have hlookup : s.advance a registered reply =
      some ({ s with creating := call.playerId :: s.creating }.goto a (.newPlayer call)) := by
    rw [advance, hpc]
    simp only [hnone]
  have hmake : (({ s with creating := call.playerId :: s.creating }.goto a
      (.newPlayer call)).advance a registered reply).isSome = true := by
    rw [advance, show ∀ t : LoginActors A, (t.goto a (.newPlayer call)).pc a = .newPlayer call from
      fun t => Function.update_self _ _ _]
    rfl
  obtain ⟨s₂, hs₂⟩ := Option.isSome_iff_exists.mp hmake
  obtain ⟨q, hmade, hpcb⟩ : ∃ q, Made s.node s₂.node q (Player.new registered call.playerId
      call.req.sid.toUInt64 call.channel).initModules ∧ s₂.pc b = s.pc b := by
    rw [advance, show ∀ t : LoginActors A, (t.goto a (.newPlayer call)).pc a = .newPlayer call from
      fun t => Function.update_self _ _ _] at hs₂
    obtain rfl := Option.some.inj hs₂
    refine ⟨_, newPlayer_spec h.wf rfl rfl, ?_⟩
    show Function.update (Function.update s.pc a _) a _ b = s.pc b
    rw [Function.update_of_ne hba, Function.update_of_ne hba]
  have hrun : Run.run (step actorOf) s
      [.advance a registered reply, .advance a registered reply] = some s₂ := by
    rw [Run.run_of_step hlookup, Run.run_of_step hs₂]
    rfl
  have hqpid : (s₂.node.deref q).pid = call.playerId := by
    rw [hmade.self]
    rfl
  cases hborn : (s.pc b).newborn with
  | some p =>
    -- `b` has made its object already
    obtain ⟨uid, hcreates, hnew⟩ := (h.pc b).newborn hborn
    rw [hb] at hcreates
    obtain rfl := Option.some.inj hcreates
    obtain ⟨hlive, hderef⟩ := hmade.keep p hnew.live
    refine ⟨_, s₂, hrun, p, q, ?_, hlive, hmade.live, ?_, hqpid⟩
    · rintro rfl
      exact hmade.fresh hnew.live
    · rw [hderef]
      exact hnew.pid
  | none =>
    -- `b` is going to make its object
    obtain ⟨call', hcall', hpid⟩ : ∃ call', s.pc b = .newPlayer call' ∧
        call'.playerId = call.playerId := by
      cases hcase : s.pc b with
      | newPlayer c =>
        rw [hcase] at hb
        exact ⟨c, rfl, Option.some.inj hb⟩
      | loadDataFormDB c k r => rw [hcase] at hborn; exact nomatch hborn
      | onLogin c k created r =>
        rw [hcase] at hb hborn
        cases created with
        | true => exact nomatch hborn
        | false => exact nomatch hb
      | addPlayer c k created r =>
        rw [hcase] at hb hborn
        cases created with
        | true => exact nomatch hborn
        | false => exact nomatch hb
      | _ => rw [hcase] at hb; exact nomatch hb
    have hthird : (s₂.advance b registered reply).isSome = true := by
      rw [advance, hpcb, hcall']
      rfl
    obtain ⟨s₃, hs₃⟩ := Option.isSome_iff_exists.mp hthird
    obtain ⟨p, hmade'⟩ : ∃ p, Made s₂.node s₃.node p (Player.new registered call'.playerId
        call'.req.sid.toUInt64 call'.channel).initModules := by
      rw [advance, hpcb, hcall'] at hs₃
      obtain rfl := Option.some.inj hs₃
      exact ⟨_, newPlayer_spec hmade.wf rfl rfl⟩
    obtain ⟨hlive, hderef⟩ := hmade'.keep q hmade.live
    refine ⟨[.advance a registered reply, .advance a registered reply,
      .advance b registered reply], s₃, ?_, p, q, ?_, hmade'.live, hlive, ?_, ?_⟩
    · rw [Run.run_of_step hlookup, Run.run_of_step hs₂, Run.run_of_step hs₃]
      rfl
    · rintro rfl
      exact hmade'.fresh hmade.live
    · rw [hmade'.self]
      exact hpid
    · rw [hderef]
      exact hqpid

end Athena.Game.LoginActors
