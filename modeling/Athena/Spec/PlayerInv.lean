import Athena.Native.GameLogin

/-!
# Who has the object of a player

A login that finds nobody makes an object, and the object is known from its `addPlayer`
on.  If nobody looks the player up in the meantime, every object is known or in the hands
of the one login that makes it, and the known objects have the channel of the login that
gave one last.

## Key results

- `LoginActors.Inv.unique`: there is one object for a player
- `LoginActors.Inv.notFound`, `Inv.setChannel`, `Inv.newPlayer`, `Inv.finish`: the steps of
  a login keep the invariant
-/

namespace Athena.Game

namespace LoginPc

/-- The player whose login it is. -/
def uid : LoginPc → Option UInt32
  | .idle => none
  | .getPlayer call => some call.playerId
  | .setChannel call _ => some call.playerId
  | .newPlayer call => some call.playerId
  | .loadDataFormDB call _ _ => some call.playerId
  | .onLogin call _ _ _ => some call.playerId
  | .addPlayer call _ _ _ => some call.playerId

/-- The player whom the login has not found and not added yet. -/
def creates : LoginPc → Option UInt32
  | .newPlayer call => some call.playerId
  | .loadDataFormDB call _ _ => some call.playerId
  | .onLogin call _ created _ => if created then some call.playerId else none
  | .addPlayer call _ created _ => if created then some call.playerId else none
  | _ => none

/-- The object that the login has made and not added yet. -/
def newborn : LoginPc → Option PlayerPtr
  | .loadDataFormDB _ _ p => some p
  | .onLogin _ _ created p => if created then some p else none
  | .addPlayer _ _ created p => if created then some p else none
  | _ => none

/-- The login that has given its player a channel. -/
def given : LoginPc → Option (LoginCall × Bool × PlayerPtr)
  | .loadDataFormDB call kept p => some (call, kept, p)
  | .onLogin call kept _ p => some (call, kept, p)
  | .addPlayer call kept _ p => some (call, kept, p)
  | _ => none

/-- A login makes an object for its own player. -/
theorem uid_of_creates {pc : LoginPc} {u : UInt32} (h : pc.creates = some u) :
    pc.uid = some u := by
  cases pc with
  | newPlayer call => exact h
  | loadDataFormDB call kept p => exact h
  | onLogin call kept created p =>
    cases created with
    | true => exact h
    | false => exact nomatch h
  | addPlayer call kept created p =>
    cases created with
    | true => exact h
    | false => exact nomatch h
  | _ => exact nomatch h

/-- A login has given a channel to its own player. -/
theorem uid_of_given {pc : LoginPc} {call : LoginCall} {kept : Bool} {p : PlayerPtr}
    (h : pc.given = some (call, kept, p)) : pc.uid = some call.playerId := by
  cases pc with
  | loadDataFormDB c k q =>
    obtain ⟨rfl, -⟩ := Prod.mk.inj (Option.some.inj h)
    rfl
  | onLogin c k created q =>
    obtain ⟨rfl, -⟩ := Prod.mk.inj (Option.some.inj h)
    rfl
  | addPlayer c k created q =>
    obtain ⟨rfl, -⟩ := Prod.mk.inj (Option.some.inj h)
    rfl
  | _ => exact nomatch h

end LoginPc

/-- What `setChannel` leaves when the loop still has the channel, and when not. -/
def channelOf (channel : ChannelRef) (kept : Bool) : Option ChannelRef :=
  if kept then some channel else none

/-- `newPlayer` and `initModules`: one more object, in storage where no other one stands. -/
structure Made (s node : GameNode) (p : PlayerPtr) (player : Player) : Prop where
  wf : node.pool.Wf
  live : node.pool.Live p
  fresh : ¬s.pool.Live p
  self : node.deref p = player
  keep : ∀ q, s.pool.Live q → node.pool.Live q ∧ node.deref q = s.deref q
  only : ∀ q, node.pool.Live q → q = p ∨ s.pool.Live q
  players : node.players = s.players

/-- `newPlayer` takes storage where no object stands. -/
theorem newPlayer_spec {s node : GameNode} {p : PlayerPtr} {registered : ChannelRef → Bool}
    {uid : UInt32} {sid : UInt64} {channel : ChannelRef} (hwf : s.pool.Wf)
    (hp : p = (s.newPlayer registered uid sid channel).1)
    (hnode : node = (s.newPlayer registered uid sid channel).2.modify p Player.initModules) :
    Made s node p (Player.new registered uid sid channel).initModules := by
  -- the pool decides everything: the object is fresh, and the others keep theirs
  obtain ⟨obj, hobj⟩ : ∃ obj, obj = Player.new registered uid sid channel := ⟨_, rfl⟩
  have hacq : p = (s.pool.acquireImpl obj).1 := by rw [hp, hobj]; rfl
  have hacqwf := hwf.acquireImpl obj
  have hfresh := ObjectPool.acquireImpl_live hwf obj
  have hobjs := ObjectPool.acquireImpl_objs_self s.pool obj
  rw [← hacq] at hfresh hobjs
  rw [hnode, ← hobj]
  constructor
  · rw [hobj] at hacqwf
    exact { nodup := hacqwf.nodup, lt_alloc := hacqwf.lt_alloc }
  · rw [hobj] at hfresh
    exact hfresh.1
  · exact hfresh.2
  · rw [GameNode.deref_modify_self]
    rw [hobj] at hobjs ⊢
    exact congrArg Player.initModules hobjs
  -- `modify` is of the new player only
  · intro q hq
    have hne : q ≠ p := by
      rintro rfl
      exact hfresh.2 hq
    have hkeep := hq.acquireImpl obj
    rw [hobj] at hkeep
    rw [GameNode.deref_modify_of_ne hne]
    exact hkeep
  · intro q hq
    rw [hacq]
    apply ObjectPool.live_of_acquireImpl
    rw [hobj]
    exact hq
  · rfl

namespace LoginActors

variable {A : Type}

/-- The object `p` has been made for the player, who is not known. -/
structure Newborn (s : LoginActors A) (uid : UInt32) (p : PlayerPtr) : Prop where
  live : s.node.pool.Live p
  pid : (s.node.deref p).pid = uid
  unknown : s.node.players uid = none
  creating : uid ∈ s.creating

/-- What a login relies on. -/
def PcOk (s : LoginActors A) : LoginPc → Prop
  | .idle => True
  | .getPlayer _ => True
  | .setChannel call p => s.node.players call.playerId = some p
  | .newPlayer call => s.node.players call.playerId = none ∧ call.playerId ∈ s.creating
  | .loadDataFormDB call _ p => Newborn s call.playerId p
  | .onLogin call _ created p =>
    if created then Newborn s call.playerId p else s.node.players call.playerId = some p
  | .addPlayer call _ created p =>
    if created then Newborn s call.playerId p else s.node.players call.playerId = some p

/-- There is one object for a player, and the last login has given it its channel. -/
structure Inv (s : LoginActors A) : Prop where
  wf : s.node.pool.Wf
  entry : ∀ uid p, s.node.players uid = some p →
    s.node.pool.Live p ∧ (s.node.deref p).pid = uid
  pc : ∀ a, PcOk s (s.pc a)
  /-- one login makes the player -/
  one : ∀ a b uid, (s.pc a).creates = some uid → (s.pc b).creates = some uid → a = b
  nodup : s.creating.Nodup
  /-- every object is known, or in the hands of the login that makes it -/
  all : ∀ p, s.node.pool.Live p →
    s.node.players (s.node.deref p).pid = some p ∨ ∃ a, (s.pc a).newborn = some p
  /-- the login that gave the player his channel last -/
  setter : ∀ uid a, s.setter uid = some a → ∃ call kept p,
    (s.pc a).given = some (call, kept, p) ∧ call.playerId = uid ∧
      (s.node.deref p).channel = channelOf call.channel kept
  settled : ∀ uid p, s.node.players uid = some p → s.setter uid = none → ∃ channel kept,
    s.processed uid = some (channel, kept) ∧
      (s.node.deref p).channel = channelOf channel kept
  known : ∀ uid, s.processed uid ≠ none → s.node.players uid ≠ none

/-- There are no players yet. -/
theorem inv_init (roles : Collection) : Inv (init roles : LoginActors A) where
  wf := ObjectPool.wf_getPool
  entry _ _ h := nomatch h
  pc _ := trivial
  one _ _ _ h := nomatch h
  nodup := List.nodup_nil
  all p h := absurd h.1 (Nat.not_lt_zero p)
  setter _ _ h := nomatch h
  settled _ _ h := nomatch h
  known _ h := absurd rfl h

section Steps

variable {s s' : LoginActors A} {a : A} {pc : LoginPc}

/-- A player who is being made is not known. -/
theorem PcOk.creates {uid : UInt32} (h : PcOk s pc) (hc : pc.creates = some uid) :
    s.node.players uid = none ∧ uid ∈ s.creating := by
  cases pc with
  | idle => exact nomatch hc
  | getPlayer call => exact nomatch hc
  | setChannel call p => exact nomatch hc
  | newPlayer call =>
    obtain rfl := Option.some.inj hc
    exact h
  | loadDataFormDB call kept p =>
    obtain rfl := Option.some.inj hc
    exact ⟨h.unknown, h.creating⟩
  | onLogin call kept created p =>
    cases created with
    | false => exact nomatch hc
    | true =>
      obtain rfl := Option.some.inj hc
      exact ⟨Newborn.unknown h, Newborn.creating h⟩
  | addPlayer call kept created p =>
    cases created with
    | false => exact nomatch hc
    | true =>
      obtain rfl := Option.some.inj hc
      exact ⟨Newborn.unknown h, Newborn.creating h⟩

/-- An object that is being made is one of a player who is being made. -/
theorem PcOk.newborn {p : PlayerPtr} (h : PcOk s pc) (hn : pc.newborn = some p) :
    ∃ uid, pc.creates = some uid ∧ Newborn s uid p := by
  cases pc with
  | idle => exact nomatch hn
  | getPlayer call => exact nomatch hn
  | setChannel call p => exact nomatch hn
  | newPlayer call => exact nomatch hn
  | loadDataFormDB call kept q =>
    obtain rfl := Option.some.inj hn
    exact ⟨_, rfl, h⟩
  | onLogin call kept created q =>
    cases created with
    | false => exact nomatch hn
    | true =>
      obtain rfl := Option.some.inj hn
      exact ⟨_, rfl, h⟩
  | addPlayer call kept created q =>
    cases created with
    | false => exact nomatch hn
    | true =>
      obtain rfl := Option.some.inj hn
      exact ⟨_, rfl, h⟩

/-- The object that a login has given its channel is live, and the player's. -/
theorem Inv.given {call : LoginCall} {kept : Bool} {p : PlayerPtr} (h : Inv s)
    (hg : (s.pc a).given = some (call, kept, p)) :
    s.node.pool.Live p ∧ (s.node.deref p).pid = call.playerId := by
  have hpc := h.pc a
  cases hcase : s.pc a with
  | idle => rw [hcase] at hg; exact nomatch hg
  | getPlayer c => rw [hcase] at hg; exact nomatch hg
  | setChannel c q => rw [hcase] at hg; exact nomatch hg
  | newPlayer c => rw [hcase] at hg; exact nomatch hg
  | loadDataFormDB c k q =>
    rw [hcase] at hg hpc
    obtain ⟨rfl, rfl, rfl⟩ : c = call ∧ k = kept ∧ q = p := by simpa [LoginPc.given] using hg
    exact ⟨Newborn.live hpc, Newborn.pid hpc⟩
  | onLogin c k created q =>
    rw [hcase] at hg hpc
    obtain ⟨rfl, rfl, rfl⟩ : c = call ∧ k = kept ∧ q = p := by simpa [LoginPc.given] using hg
    cases created with
    | true => exact ⟨Newborn.live hpc, Newborn.pid hpc⟩
    | false => exact h.entry _ _ hpc
  | addPlayer c k created q =>
    rw [hcase] at hg hpc
    obtain ⟨rfl, rfl, rfl⟩ : c = call ∧ k = kept ∧ q = p := by simpa [LoginPc.given] using hg
    cases created with
    | true => exact ⟨Newborn.live hpc, Newborn.pid hpc⟩
    | false => exact h.entry _ _ hpc

/-- There is one object for a player. -/
theorem Inv.unique {p q : PlayerPtr} (h : Inv s) (hp : s.node.pool.Live p)
    (hq : s.node.pool.Live q) (hpid : (s.node.deref p).pid = (s.node.deref q).pid) : p = q := by
  cases h.all p hp with
  | inl hpk =>
    cases h.all q hq with
    | inl hqk =>
      rw [hpid, hqk] at hpk
      exact (Option.some.inj hpk).symm
    | inr hqn =>
      obtain ⟨b, hb⟩ := hqn
      obtain ⟨uid, -, hnew⟩ := (h.pc b).newborn hb
      rw [hpid, hnew.pid, hnew.unknown] at hpk
      exact nomatch hpk
  | inr hpn =>
    obtain ⟨a, ha⟩ := hpn
    obtain ⟨uid, hcreates, hnew⟩ := (h.pc a).newborn ha
    cases h.all q hq with
    | inl hqk =>
      rw [← hpid, hnew.pid, hnew.unknown] at hqk
      exact nomatch hqk
    | inr hqn =>
      -- both are in the hands of the one login that makes the player
      obtain ⟨b, hb⟩ := hqn
      obtain ⟨uid', hcreates', hnew'⟩ := (h.pc b).newborn hb
      have huid : uid = uid' := by rw [← hnew.pid, hpid, hnew'.pid]
      have hab := h.one a b uid hcreates (by rw [huid]; exact hcreates')
      rw [hab, hb] at ha
      exact (Option.some.inj ha).symm

/-- A login keeps what it relies on when the objects keep their players and the players
    it makes are left alone. -/
theorem PcOk.mono (h : PcOk s pc)
    (hplayers : ∀ uid p, s.node.players uid = some p → s'.node.players uid = some p)
    (hcreates : ∀ uid, pc.creates = some uid → s.node.players uid = none → uid ∈ s.creating →
      s'.node.players uid = none ∧ uid ∈ s'.creating)
    (hlive : ∀ p, s.node.pool.Live p →
      s'.node.pool.Live p ∧ (s'.node.deref p).pid = (s.node.deref p).pid) : PcOk s' pc := by
  have hborn : ∀ {uid p}, pc.creates = some uid → Newborn s uid p → Newborn s' uid p := by
    intro uid p hc hn
    obtain ⟨hunknown, hcreating⟩ := hcreates uid hc hn.unknown hn.creating
    obtain ⟨hl, hpid⟩ := hlive p hn.live
    exact ⟨hl, hpid.trans hn.pid, hunknown, hcreating⟩
  cases pc with
  | idle => trivial
  | getPlayer call => trivial
  | setChannel call p => exact hplayers _ p h
  | newPlayer call => exact hcreates _ rfl h.1 h.2
  | loadDataFormDB call kept p => exact hborn rfl h
  | onLogin call kept created p =>
    cases created with
    | true => exact hborn rfl h
    | false => exact hplayers _ p h
  | addPlayer call kept created p =>
    cases created with
    | true => exact hborn rfl h
    | false => exact hplayers _ p h

variable [DecidableEq A]

/-- A step that changes no player and no account. -/
theorem Inv.of_same (h : Inv s) (hpcs : s'.pc = Function.update s.pc a pc) (hpc : PcOk s pc)
    (hcreates : pc.creates = (s.pc a).creates) (hnewborn : pc.newborn = (s.pc a).newborn)
    (hgiven : ∀ x, (s.pc a).given = some x → pc.given = some x)
    (hlive : ∀ p, s'.node.pool.Live p ↔ s.node.pool.Live p) (hwf : s'.node.pool.Wf)
    (hpid : ∀ p, (s'.node.deref p).pid = (s.node.deref p).pid)
    (hchannel : ∀ p, (s'.node.deref p).channel = (s.node.deref p).channel)
    (hplayers : s'.node.players = s.node.players) (hcreating : s'.creating = s.creating)
    (hsetter : s'.setter = s.setter) (hprocessed : s'.processed = s.processed) : Inv s' := by
  -- what the places claim is of the tables, which are the same
  have hmono : ∀ {pc : LoginPc}, PcOk s pc → PcOk s' pc := by
    intro pc hok
    apply hok.mono
    · intro uid p hp; rwa [hplayers]
    · intro uid _ hu hc; rw [hplayers, hcreating]; exact ⟨hu, hc⟩
    · intro p hp; exact ⟨(hlive p).mpr hp, hpid p⟩
  -- neither the creator nor the newborn of any login changes
  have hcr : ∀ b, (s'.pc b).creates = (s.pc b).creates := by
    intro b
    rw [hpcs]
    by_cases hb : b = a
    · rw [hb, Function.update_self, hcreates]
    · rw [Function.update_of_ne hb]
  have hnb : ∀ b, (s'.pc b).newborn = (s.pc b).newborn := by
    intro b
    rw [hpcs]
    by_cases hb : b = a
    · rw [hb, Function.update_self, hnewborn]
    · rw [Function.update_of_ne hb]
  constructor
  · exact hwf
  · intro uid p hp
    rw [hplayers] at hp
    rw [hlive, hpid]
    exact h.entry uid p hp
  · intro b
    rw [hpcs]
    by_cases hb : b = a
    · rw [hb, Function.update_self]; exact hmono hpc
    · rw [Function.update_of_ne hb]; exact hmono (h.pc b)
  · intro b b' uid hb hb'
    rw [hcr] at hb hb'
    exact h.one b b' uid hb hb'
  · rw [hcreating]; exact h.nodup
  · intro p hp
    rw [hplayers, hpid]
    cases h.all p ((hlive p).mp hp) with
    | inl hknown => exact .inl hknown
    | inr hborn =>
      obtain ⟨b, hb⟩ := hborn
      exact .inr ⟨b, by rw [hnb]; exact hb⟩
  · intro uid b hb
    rw [hsetter] at hb
    obtain ⟨call, kept, p, hg, hu, hch⟩ := h.setter uid b hb
    refine ⟨call, kept, p, ?_, hu, (hchannel p).trans hch⟩
    rw [hpcs]
    by_cases hba : b = a
    · rw [hba] at hg ⊢; rw [Function.update_self]; exact hgiven _ hg
    · rw [Function.update_of_ne hba]; exact hg
  · intro uid p hp hs
    rw [hplayers] at hp
    rw [hsetter] at hs
    obtain ⟨channel, kept, hproc, hch⟩ := h.settled uid p hp hs
    exact ⟨channel, kept, by rw [hprocessed]; exact hproc, (hchannel p).trans hch⟩
  · intro uid hu
    rw [hplayers]
    rw [hprocessed] at hu
    exact h.known uid hu

/-- A method of a player that leaves his id and his channel alone. -/
theorem Inv.modify {f : Player → Player} {p : PlayerPtr} (h : Inv s)
    (hpid : ∀ x, (f x).pid = x.pid) (hchannel : ∀ x, (f x).channel = x.channel) (hpc : PcOk s pc)
    (hcreates : pc.creates = (s.pc a).creates) (hnewborn : pc.newborn = (s.pc a).newborn)
    (hgiven : ∀ x, (s.pc a).given = some x → pc.given = some x) :
    Inv ({ s with node := s.node.modify p f }.goto a pc) := by
  apply h.of_same (a := a) rfl hpc hcreates hnewborn hgiven
  · exact fun _ => Iff.rfl
  · exact { nodup := h.wf.nodup, lt_alloc := h.wf.lt_alloc }
  · exact fun q => GameNode.apply_deref_modify Player.pid hpid s.node p q
  · exact fun q => GameNode.apply_deref_modify Player.channel hchannel s.node p q
  · rfl
  · rfl
  · rfl
  · rfl

/-- A login finds nobody, and nobody else is making the player. -/
theorem Inv.notFound {call : LoginCall} (h : Inv s) (hpc : s.pc a = .getPlayer call)
    (hnone : s.node.players call.playerId = none) (hfirst : call.playerId ∉ s.creating) :
    Inv ({ s with creating := call.playerId :: s.creating }.goto a (.newPlayer call)) := by
  have hself : Function.update s.pc a (.newPlayer call) a = .newPlayer call :=
    Function.update_self _ _ _
  have hother : ∀ b ≠ a, Function.update s.pc a (.newPlayer call) b = s.pc b :=
    fun b hb => Function.update_of_ne hb _ _
  -- nobody makes an object for this player yet
  have hnobody : ∀ b, (s.pc b).creates ≠ some call.playerId := by
    intro b hb
    exact hfirst ((h.pc b).creates hb).2
  constructor
  · exact h.wf
  · exact h.entry
  · intro b
    show PcOk _ (Function.update s.pc a (.newPlayer call) b)
    by_cases hb : b = a
    · rw [hb, hself]; exact ⟨hnone, List.mem_cons_self⟩
    · rw [hother b hb]
      apply (h.pc b).mono
      · exact fun _ _ hp => hp
      · exact fun _ _ hu hc => ⟨hu, List.mem_cons_of_mem _ hc⟩
      · exact fun _ hl => ⟨hl, rfl⟩
  · intro b b' uid hb hb'
    have hb₁ : (Function.update s.pc a (.newPlayer call) b).creates = some uid := hb
    have hb₂ : (Function.update s.pc a (.newPlayer call) b').creates = some uid := hb'
    by_cases hba : b = a
    · by_cases hba' : b' = a
      · rw [hba, hba']
      · rw [hba, hself] at hb₁
        obtain rfl := Option.some.inj hb₁
        rw [hother b' hba'] at hb₂
        exact absurd hb₂ (hnobody b')
    · rw [hother b hba] at hb₁
      by_cases hba' : b' = a
      · rw [hba', hself] at hb₂
        obtain rfl := Option.some.inj hb₂
        exact absurd hb₁ (hnobody b)
      · rw [hother b' hba'] at hb₂
        exact h.one b b' uid hb₁ hb₂
  · exact List.nodup_cons.mpr ⟨hfirst, h.nodup⟩
  · intro p hp
    cases h.all p hp with
    | inl hknown => exact .inl hknown
    | inr hborn =>
      obtain ⟨b, hb⟩ := hborn
      refine .inr ⟨b, ?_⟩
      show (Function.update s.pc a (.newPlayer call) b).newborn = some p
      rw [hother b _]
      · exact hb
      · rintro rfl
        rw [hpc] at hb
        exact nomatch hb
  · intro uid b hb
    obtain ⟨c, kept, p, hg, hu, hch⟩ := h.setter uid b hb
    refine ⟨c, kept, p, ?_, hu, hch⟩
    show (Function.update s.pc a (.newPlayer call) b).given = _
    rw [hother b _]
    · exact hg
    · rintro rfl
      rw [hpc] at hg
      exact nomatch hg
  · exact h.settled
  · exact h.known

/-- The player who is known gets the channel of the login. -/
theorem Inv.setChannel {call : LoginCall} {p : PlayerPtr} (h : Inv s)
    (hpc : s.pc a = .setChannel call p) (registered : ChannelRef → Bool) :
    Inv ((s.channelSet a call (s.node.modify p (·.setChannel registered call.channel))).goto a
      (.onLogin call (registered call.channel) false p)) := by
  have hp : s.node.players call.playerId = some p := by
    have hok := h.pc a
    rwa [hpc] at hok
  have hppid : (s.node.deref p).pid = call.playerId := (h.entry _ _ hp).2
  obtain ⟨pc', hpc'⟩ : ∃ pc', pc' = LoginPc.onLogin call (registered call.channel) false p :=
    ⟨_, rfl⟩
  rw [← hpc']
  have hself : Function.update s.pc a pc' a = pc' := Function.update_self _ _ _
  have hother : ∀ b ≠ a, Function.update s.pc a pc' b = s.pc b :=
    fun b hb => Function.update_of_ne hb _ _
  have hpid : ∀ q, ((s.node.modify p (·.setChannel registered call.channel)).deref q).pid =
      (s.node.deref q).pid :=
    fun q => GameNode.apply_deref_modify Player.pid
      (fun x => (rfl : (x.setChannel registered call.channel).pid = x.pid)) s.node p q
  -- the objects of other players are not touched
  have hderef : ∀ q, (s.node.deref q).pid ≠ call.playerId →
      (s.node.modify p (·.setChannel registered call.channel)).deref q = s.node.deref q := by
    intro q hq
    apply GameNode.deref_modify_of_ne
    rintro rfl
    exact hq hppid
  have hcr : ∀ b, (Function.update s.pc a pc' b).creates = (s.pc b).creates := by
    intro b
    by_cases hb : b = a
    · rw [hb, hself, hpc, hpc']; rfl
    · rw [hother b hb]
  have hnb : ∀ b, (Function.update s.pc a pc' b).newborn = (s.pc b).newborn := by
    intro b
    by_cases hb : b = a
    · rw [hb, hself, hpc, hpc']; rfl
    · rw [hother b hb]
  constructor
  · exact { nodup := h.wf.nodup, lt_alloc := h.wf.lt_alloc }
  · intro uid q hq
    exact ⟨(h.entry uid q hq).1, (hpid q).trans (h.entry uid q hq).2⟩
  · intro b
    show PcOk _ (Function.update s.pc a pc' b)
    by_cases hb : b = a
    · rw [hb, hself, hpc']; exact hp
    · rw [hother b hb]
      apply (h.pc b).mono
      · exact fun _ _ hq => hq
      · exact fun _ _ hu hc => ⟨hu, hc⟩
      · exact fun q hl => ⟨hl, hpid q⟩
  · intro b b' uid hb hb'
    exact h.one b b' uid ((hcr b).symm.trans hb) ((hcr b').symm.trans hb')
  · exact h.nodup
  · intro q hq
    show s.node.players ((s.node.modify p _).deref q).pid = some q ∨ _
    rw [hpid]
    cases h.all q hq with
    | inl hknown => exact .inl hknown
    | inr hborn =>
      obtain ⟨b, hb⟩ := hborn
      exact .inr ⟨b, (hnb b).trans hb⟩
  · intro uid b hb
    have hb' : Function.update s.setter call.playerId (some a) uid = some b := hb
    by_cases hu : uid = call.playerId
    · rw [hu, Function.update_self] at hb'
      obtain rfl := Option.some.inj hb'
      refine ⟨call, registered call.channel, p, ?_, hu.symm, ?_⟩
      · show (Function.update s.pc a pc' a).given = _
        rw [hself, hpc']
        rfl
      · show ((s.node.modify p _).deref p).channel = _
        rw [GameNode.deref_modify_self]
        rfl
    · rw [Function.update_of_ne hu] at hb'
      obtain ⟨c, kept, q, hg, hcu, hch⟩ := h.setter uid b hb'
      have hba : b ≠ a := by
        rintro rfl
        rw [hpc] at hg
        exact nomatch hg
      refine ⟨c, kept, q, ?_, hcu, ?_⟩
      · show (Function.update s.pc a pc' b).given = _
        rw [hother b hba]
        exact hg
      · show ((s.node.modify p _).deref q).channel = _
        rw [hderef q (by rw [(h.given hg).2, hcu]; exact hu)]
        exact hch
  · intro uid q hq hs
    have hs' : Function.update s.setter call.playerId (some a) uid = none := hs
    have hu : uid ≠ call.playerId := by
      rintro rfl
      rw [Function.update_self] at hs'
      exact nomatch hs'
    rw [Function.update_of_ne hu] at hs'
    obtain ⟨channel, kept, hproc, hch⟩ := h.settled uid q hq hs'
    refine ⟨channel, kept, hproc, ?_⟩
    show ((s.node.modify p _).deref q).channel = _
    rw [hderef q (by rw [(h.entry uid q hq).2]; exact hu)]
    exact hch
  · exact h.known

/-- The login makes an object. -/
theorem Inv.newPlayer {call : LoginCall} {node : GameNode} {p : PlayerPtr} (h : Inv s)
    (hpc : s.pc a = .newPlayer call) (registered : ChannelRef → Bool)
    (hp : p = (s.node.newPlayer registered call.playerId call.req.sid.toUInt64 call.channel).1)
    (hnode : node =
      (s.node.newPlayer registered call.playerId call.req.sid.toUInt64 call.channel).2.modify p
        Player.initModules) :
    Inv ((s.channelSet a call node).goto a
      (.loadDataFormDB call (registered call.channel) p)) := by
  -- the uid is unknown, and this login is the one that creates it
  obtain ⟨hunknown, hcreating⟩ : s.node.players call.playerId = none ∧
      call.playerId ∈ s.creating := by
    have hok := h.pc a
    rwa [hpc] at hok
  obtain ⟨hwf, hlive, -, hself, hkeep, honly, hplayers⟩ := newPlayer_spec h.wf hp hnode
  obtain ⟨pc', hpc'⟩ : ∃ pc', pc' = LoginPc.loadDataFormDB call (registered call.channel) p :=
    ⟨_, rfl⟩
  rw [← hpc']
  have hselfpc : Function.update s.pc a pc' a = pc' := Function.update_self _ _ _
  have hother : ∀ b ≠ a, Function.update s.pc a pc' b = s.pc b :=
    fun b hb => Function.update_of_ne hb _ _
  have hcr : ∀ b, (Function.update s.pc a pc' b).creates = (s.pc b).creates := by
    intro b
    by_cases hb : b = a
    · rw [hb, hselfpc, hpc, hpc']; rfl
    · rw [hother b hb]
  constructor
  · exact hwf
  -- the players that are known are still live
  · intro uid q hq
    have hq' : node.players uid = some q := hq
    rw [hplayers] at hq'
    obtain ⟨hl, hpid⟩ := h.entry uid q hq'
    obtain ⟨hl', hd⟩ := hkeep q hl
    exact ⟨hl', by rw [← hpid]; exact congrArg Player.pid hd⟩
  · intro b
    show PcOk _ (Function.update s.pc a pc' b)
    by_cases hb : b = a
    -- the newborn waits at its own place
    · rw [hb, hselfpc, hpc']
      refine { live := hlive, pid := ?_, unknown := ?_, creating := hcreating }
      · show (node.deref p).pid = call.playerId
        rw [hself]
        rfl
      · show node.players call.playerId = none
        rw [hplayers]
        exact hunknown
    · rw [hother b hb]
      apply (h.pc b).mono
      · intro uid q hq
        show node.players uid = some q
        rwa [hplayers]
      · intro uid _ hu hc
        refine ⟨?_, hc⟩
        show node.players uid = none
        rwa [hplayers]
      · intro q hl
        exact ⟨(hkeep q hl).1, congrArg Player.pid (hkeep q hl).2⟩
  · intro b b' uid hb hb'
    exact h.one b b' uid ((hcr b).symm.trans hb) ((hcr b').symm.trans hb')
  · exact h.nodup
  -- a live player is the newborn, or it was there
  · intro q hq
    cases honly q hq with
    | inl hqp =>
      refine .inr ⟨a, ?_⟩
      show (Function.update s.pc a pc' a).newborn = _
      rw [hselfpc, hpc', hqp]
      rfl
    | inr hl =>
      have hd : node.deref q = s.node.deref q := (hkeep q hl).2
      cases h.all q hl with
      | inl hknown =>
        left
        show node.players (node.deref q).pid = some q
        rw [hd, hplayers]
        exact hknown
      | inr hborn =>
        obtain ⟨b, hb⟩ := hborn
        refine .inr ⟨b, ?_⟩
        show (Function.update s.pc a pc' b).newborn = _
        rw [hother b _]
        · exact hb
        · rintro rfl
          rw [hpc] at hb
          exact nomatch hb
  -- the last to set the channel of the uid is this login
  · intro uid b hb
    have hb' : Function.update s.setter call.playerId (some a) uid = some b := hb
    by_cases hu : uid = call.playerId
    · rw [hu, Function.update_self] at hb'
      obtain rfl := Option.some.inj hb'
      refine ⟨call, registered call.channel, p, ?_, hu.symm, ?_⟩
      · show (Function.update s.pc a pc' a).given = _
        rw [hselfpc, hpc']
        rfl
      · show (node.deref p).channel = _
        rw [hself]
        rfl
    · rw [Function.update_of_ne hu] at hb'
      obtain ⟨c, kept, q, hg, hcu, hch⟩ := h.setter uid b hb'
      have hba : b ≠ a := by
        rintro rfl
        rw [hpc] at hg
        exact nomatch hg
      refine ⟨c, kept, q, ?_, hcu, ?_⟩
      · show (Function.update s.pc a pc' b).given = _
        rw [hother b hba]
        exact hg
      · show (node.deref q).channel = _
        rw [(hkeep q (h.given hg).1).2]
        exact hch
  -- a uid that is settled is another one
  · intro uid q hq hs
    have hq' : node.players uid = some q := hq
    have hs' : Function.update s.setter call.playerId (some a) uid = none := hs
    rw [hplayers] at hq'
    have hu : uid ≠ call.playerId := by
      rintro rfl
      rw [Function.update_self] at hs'
      exact nomatch hs'
    rw [Function.update_of_ne hu] at hs'
    obtain ⟨channel, kept, hproc, hch⟩ := h.settled uid q hq' hs'
    refine ⟨channel, kept, hproc, ?_⟩
    show (node.deref q).channel = _
    rw [(hkeep q (h.entry uid q hq').1).2]
    exact hch
  · intro uid hu
    show node.players uid ≠ none
    rw [hplayers]
    exact h.known uid hu

end Steps

/-! ## The end of a login -/

section Ends

variable {s : LoginActors A} {a : A}

/-- The login of `a` is at its end: `node` has its object under its uid, and differs from the
    node of `s` in nothing else. -/
structure Ends (s : LoginActors A) (a : A) (call : LoginCall) (kept created : Bool)
    (node : GameNode) (p : PlayerPtr) : Prop where
  inv : Inv s
  pc : s.pc a = .addPlayer call kept created p
  /-- somebody has given the player a channel, and is not processed yet -/
  last : s.setter call.playerId ≠ none
  pool : node.pool = s.node.pool
  known : node.players call.playerId = some p
  others : ∀ uid ≠ call.playerId, node.players uid = s.node.players uid

namespace Ends

variable {call : LoginCall} {kept created : Bool} {node : GameNode} {p : PlayerPtr}

/-- The objects are those from before. -/
theorem deref (h : Ends s a call kept created node p) (q : PlayerPtr) :
    node.deref q = s.node.deref q := by
  rw [GameNode.deref, GameNode.deref, h.pool]

/-- The login has given the player its channel. -/
theorem given (h : Ends s a call kept created node p) :
    (s.pc a).given = some (call, kept, p) := by
  rw [h.pc]
  rfl

/-- Where the object of the login is: new, or known already. -/
theorem pcOk_self (h : Ends s a call kept created node p) :
    PcOk s (.addPlayer call kept created p) := by
  rw [← h.pc]
  exact h.inv.pc a

/-- Who was known stays known. -/
theorem players (h : Ends s a call kept created node p) {uid : UInt32} {q : PlayerPtr}
    (hq : s.node.players uid = some q) : node.players uid = some q := by
  by_cases hu : uid = call.playerId
  · rw [hu] at hq ⊢
    rw [h.known]
    have hok := h.pcOk_self
    cases created with
    | true =>
      rw [Newborn.unknown hok] at hq
      exact nomatch hq
    | false => exact (show s.node.players call.playerId = some p from hok).symm.trans hq
  · rw [h.others uid hu]
    exact hq

/-- Nobody else is making the player. -/
theorem nobody (h : Ends s a call kept created node p) {b : A} (hb : b ≠ a) {uid : UInt32}
    (hc : (s.pc b).creates = some uid) : uid ≠ call.playerId := by
  rintro rfl
  have hok := h.pcOk_self
  cases created with
  | true =>
    apply hb
    apply h.inv.one b a _ hc
    rw [h.pc]
    rfl
  | false =>
    have hn := ((h.inv.pc b).creates hc).1
    rw [show s.node.players call.playerId = some p from hok] at hn
    exact nomatch hn

/-- The entries are those from before and the player's own. -/
theorem entry (h : Ends s a call kept created node p) (uid : UInt32) (q : PlayerPtr)
    (hq : node.players uid = some q) : node.pool.Live q ∧ (node.deref q).pid = uid := by
  rw [h.pool, h.deref]
  by_cases hu : uid = call.playerId
  · rw [hu, h.known] at hq
    obtain rfl := Option.some.inj hq
    rw [hu]
    exact h.inv.given h.given
  · rw [h.others uid hu] at hq
    exact h.inv.entry uid q hq

variable [DecidableEq A]

/-- The other logins are where they were. -/
theorem pc_other {b : A} (hb : b ≠ a) :
    (s.finish a call kept created node).pc b = s.pc b := Function.update_of_ne hb _ _

/-- The login is over. -/
theorem pc_self : (s.finish a call kept created node).pc a = .idle := Function.update_self _ _ _

/-- What the others rely on is so: they are making other players. -/
theorem pcOk (h : Ends s a call kept created node p) (b : A) :
    PcOk (s.finish a call kept created node) ((s.finish a call kept created node).pc b) := by
  by_cases hb : b = a
  · rw [hb, pc_self]
    trivial
  rw [pc_other hb]
  apply (h.inv.pc b).mono
  · exact fun _ _ hq => h.players hq
  · intro uid hc hu hmem
    have hne := h.nobody hb hc
    constructor
    · show node.players uid = none
      rw [h.others uid hne]
      exact hu
    · show uid ∈ if created then s.creating.erase call.playerId else s.creating
      cases created with
      | true => exact (List.mem_erase_of_ne hne).mpr hmem
      | false => exact hmem
  · intro q hl
    show node.pool.Live q ∧ (node.deref q).pid = _
    rw [h.pool, h.deref]
    exact ⟨hl, rfl⟩

/-- Still one login makes a player, since the one that has ended makes none. -/
theorem one (h : Ends s a call kept created node p) (b b' : A) (uid : UInt32)
    (hb : ((s.finish a call kept created node).pc b).creates = some uid)
    (hb' : ((s.finish a call kept created node).pc b').creates = some uid) : b = b' := by
  have hne : ∀ {d}, ((s.finish a call kept created node).pc d).creates = some uid → d ≠ a := by
    rintro d hd rfl
    rw [pc_self] at hd
    exact nomatch hd
  rw [pc_other (hne hb)] at hb
  rw [pc_other (hne hb')] at hb'
  exact h.inv.one b b' uid hb hb'

/-- A live object is known, now also the one that is added, or it is still being made. -/
theorem all (h : Ends s a call kept created node p) (q : PlayerPtr) (hq : node.pool.Live q) :
    node.players (node.deref q).pid = some q ∨
      ∃ b, ((s.finish a call kept created node).pc b).newborn = some q := by
  rw [h.pool] at hq
  rw [h.deref]
  cases h.inv.all q hq with
  | inl hknown => exact .inl (h.players hknown)
  | inr hborn =>
    obtain ⟨b, hb⟩ := hborn
    by_cases hba : b = a
    · left
      rw [hba, h.pc] at hb
      have hqp : q = p := by
        cases created with
        | true => exact (Option.some.inj hb).symm
        | false => exact nomatch hb
      rw [hqp, (h.inv.given h.given).2, h.known]
    · refine .inr ⟨b, ?_⟩
      rw [pc_other hba]
      exact hb

/-- The login that ends is no longer the last to have given a channel; the other ones are. -/
theorem setter (h : Ends s a call kept created node p) (uid : UInt32) (b : A)
    (hb : (s.finish a call kept created node).setter uid = some b) :
    ∃ c k q, ((s.finish a call kept created node).pc b).given = some (c, k, q) ∧
      c.playerId = uid ∧ (node.deref q).channel = channelOf c.channel k := by
  have hb' : (if s.setter call.playerId = some a then
      Function.update s.setter call.playerId none else s.setter) uid = some b := hb
  have hold : s.setter uid = some b ∧ ¬(uid = call.playerId ∧ b = a) := by
    split at hb'
    · by_cases hu : uid = call.playerId
      · rw [hu, Function.update_self] at hb'
        exact nomatch hb'
      · rw [Function.update_of_ne hu] at hb'
        exact ⟨hb', fun hand => hu hand.1⟩
    · rename_i hset
      refine ⟨hb', ?_⟩
      rintro ⟨rfl, rfl⟩
      exact hset hb'
  obtain ⟨c, k, q, hg, hcu, hch⟩ := h.inv.setter uid b hold.1
  have hba : b ≠ a := by
    rintro rfl
    rw [h.given] at hg
    obtain ⟨rfl, -, -⟩ : call = c ∧ kept = k ∧ p = q := by simpa using hg
    exact hold.2 ⟨hcu.symm, rfl⟩
  refine ⟨c, k, q, ?_, hcu, ?_⟩
  · rw [pc_other hba]
    exact hg
  · rw [h.deref]
    exact hch

/-- Who is settled has the channel of the login processed last. -/
theorem settled (h : Ends s a call kept created node p) (uid : UInt32) (q : PlayerPtr)
    (hq : node.players uid = some q)
    (hs : (s.finish a call kept created node).setter uid = none) :
    ∃ channel k, (s.finish a call kept created node).processed uid = some (channel, k) ∧
      (node.deref q).channel = channelOf channel k := by
  have hs' : (if s.setter call.playerId = some a then
      Function.update s.setter call.playerId none else s.setter) uid = none := hs
  show ∃ channel k, Function.update s.processed call.playerId (some (call.channel, kept)) uid =
    some (channel, k) ∧ (node.deref q).channel = channelOf channel k
  rw [h.deref]
  by_cases hu : uid = call.playerId
  · subst hu
    rw [h.known] at hq
    obtain rfl := Option.some.inj hq
    refine ⟨call.channel, kept, Function.update_self _ _ _, ?_⟩
    -- the login of `a` gave the channel, as the other one would still be on its way
    have hset : s.setter call.playerId = some a := by
      by_contra hne
      rw [if_neg hne] at hs'
      exact h.last hs'
    obtain ⟨c, k, q, hg, -, hch⟩ := h.inv.setter _ a hset
    rw [h.given] at hg
    obtain ⟨rfl, rfl, rfl⟩ : call = c ∧ kept = k ∧ p = q := by simpa using hg
    exact hch
  · rw [h.others uid hu] at hq
    rw [Function.update_of_ne hu]
    apply h.inv.settled uid q hq
    split at hs'
    · rwa [Function.update_of_ne hu] at hs'
    · exact hs'

/-- Who has been processed is known. -/
theorem processed (h : Ends s a call kept created node p) (uid : UInt32)
    (hu : (s.finish a call kept created node).processed uid ≠ none) : node.players uid ≠ none := by
  by_cases hc : uid = call.playerId
  · rw [hc, h.known]
    exact nofun
  · rw [h.others uid hc]
    apply h.inv.known uid
    have hu' : Function.update s.processed call.playerId (some (call.channel, kept)) uid ≠ none :=
      hu
    rwa [Function.update_of_ne hc] at hu'

end Ends

/-- The login is processed: its object is the player's, and if it gave him his channel
    last, no login that did so before is processed after it. -/
theorem Inv.finish [DecidableEq A] {call : LoginCall} {kept created : Bool} {node : GameNode}
    {p : PlayerPtr} (h : Ends s a call kept created node p) :
    Inv (s.finish a call kept created node) where
  wf := by
    show node.pool.Wf
    rw [h.pool]
    exact h.inv.wf
  entry := h.entry
  pc := h.pcOk
  one := h.one
  nodup := by
    show (if created then s.creating.erase call.playerId else s.creating).Nodup
    cases created with
    | true => exact h.inv.nodup.erase _
    | false => exact h.inv.nodup
  all := h.all
  setter := h.setter
  settled := h.settled
  known := h.processed

end Ends

end LoginActors

end Athena.Game
