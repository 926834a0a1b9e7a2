import Athena.ForStd.Run
import Athena.Native.ActorSystem

/-!
# Shutting the actors down

Every actor has a role, which says who may touch it: the call that spawns it until it is
in the map, then whoever holds the lock, then the `stopAll` that has taken it out.  An
`execute` has the lock from the lookup to the enqueue, so that it never reaches an actor
in another role, and the mailbox of an actor that is being stopped gets no more closures.

## Key results

- `ActorSystem.stopAll_drains`: when a `stopAll` returns, the actors that it took have run
  all they accepted, and are deleted; none of them accepts a closure after it was taken,
  or runs one after it was deleted
- `ActorSystem.spawn_outlives_stopAll`: an actor spawned meanwhile is not stopped
-/

namespace Athena.ActorSystem

variable {P T : Type} [DecidableEq P]

/-- Who has an actor. -/
inductive Role (P : Type) where
  /-- there is no such actor yet -/
  | unborn
  /-- constructed by `c`, in `spawn` -/
  | made (c : Caller P)
  /-- `start` has set the flag -/
  | flagged (c : Caller P)
  /-- `start` has made the thread -/
  | started (c : Caller P)
  /-- in the map -/
  | registered
  /-- in `dead` of a `stopAll` of `c`, not stopped yet -/
  | taken (c : Caller P)
  /-- the flag is cleared -/
  | joining (c : Caller P)
  /-- the thread has been joined -/
  | joined (c : Caller P)
  /-- deleted -/
  | gone

namespace Role

/-- The call that has the actor for itself. -/
def holder : Role P → Option (Caller P)
  | made c => some c
  | flagged c => some c
  | started c => some c
  | taken c => some c
  | joining c => some c
  | joined c => some c
  | _ => none

/-- The actor has been taken out of the map, or is deleted. -/
def out : Role P → Bool
  | taken _ => true
  | joining _ => true
  | joined _ => true
  | gone => true
  | _ => false

end Role

/-- What an actor is in its role. -/
def RoleOk (r : Role P) (a : Actor (Caller P) T) (deleted : Bool) : Prop :=
  match r with
  | .unborn => a = .new ∧ deleted = false
  | .made _ => a = .new ∧ deleted = false
  | .flagged _ => a = { Actor.new with isRun := true } ∧ deleted = false
  | .started _ => a.isRun = true ∧ a.inLoop = true ∧ a.mailbox = [] ∧ deleted = false
  | .registered => a.isRun = true ∧ a.inLoop = true ∧ deleted = false
  | .taken _ => a.isRun = true ∧ a.inLoop = true ∧ deleted = false
  | .joining _ => (a.looks = false → a.mailbox = []) ∧ a.thread ≠ .none ∧ deleted = false
  | .joined _ => a.thread = .none ∧ a.mailbox = [] ∧ deleted = false
  | .gone => a.thread = .none ∧ a.mailbox = [] ∧ deleted = true

omit [DecidableEq P] in
/-- The thread of an actor stays within the actor's role. -/
theorem RoleOk.runThread [DecidableEq P] {r : Role P} {a a' : Actor (Caller P) T} {deleted : Bool}
    {i : Nat} {begun : Option (Caller P × T)} (h : RoleOk r a deleted)
    (hrun : a.runThread i = some (a', begun)) : RoleOk r a' deleted := by
  have hlooks := Actor.looks_of_runThread hrun
  have hflag := Actor.isRun_runThread hrun
  have hnone := Actor.thread_ne_none hlooks
  cases r with
  -- in these roles no thread runs
  | unborn => exact absurd (by rw [h.1]; rfl) hnone
  | made c => exact absurd (by rw [h.1]; rfl) hnone
  | flagged c => exact absurd (by rw [h.1]; rfl) hnone
  | joined c => exact absurd h.1 hnone
  | gone => exact absurd h.1 hnone
  | registered =>
    obtain ⟨hr, hl, hd⟩ := h
    exact ⟨hflag.trans hr, Actor.inLoop_runThread hr hl hrun, hd⟩
  | taken c =>
    obtain ⟨hr, hl, hd⟩ := h
    exact ⟨hflag.trans hr, Actor.inLoop_runThread hr hl hrun, hd⟩
  | started c =>
    obtain ⟨hr, hl, hbox, hd⟩ := h
    refine ⟨hflag.trans hr, Actor.inLoop_runThread hr hl hrun, ?_, hd⟩
    -- the mailbox is empty and nobody can send: the thread finds nothing
    cases Actor.threadStep hrun with
    | quiet _ hbox' => exact hbox'.trans hbox
    | begin task j _ hdeq =>
      rw [hbox] at hdeq
      exact nomatch hdeq
    | finish _ _ hbox' => exact hbox'
  | joining c =>
    obtain ⟨-, -, hd⟩ := h
    refine ⟨?_, ?_, hd⟩
    -- a thread that has left the loop saw the mailbox empty
    · intro hl
      cases Actor.threadStep hrun with
      | quiet _ _ hlook => exact absurd (hlook.symm.trans hl) (by simp)
      | begin task j _ _ hlook => exact absurd (hlook.symm.trans hl) (by simp)
      | finish _ _ hbox => exact hbox
    · exact Actor.thread_runThread hrun

/-- What the call of `c` relies on. -/
def PcOk (role : Nat → Role P) (c : Caller P) : SystemPc T → Prop
  | .execCheck target _ => role target = .registered
  | .execEnqueue target _ => role target = .registered
  | .spawnLock id => role id = .made c
  | .spawnStart id => role id = .made c
  | .spawnCreate id => role id = .flagged c
  | .spawnInsert id => role id = .started c
  | .stopNext dead rest =>
    rest.Nodup ∧ (∀ id ∈ rest, role id = .taken c) ∧ ∀ id ∈ dead, id ∈ rest ∨ role id = .gone
  | .stopJoin x dead rest =>
    role x = .joining c ∧ rest.Nodup ∧ (∀ id ∈ rest, role id = .taken c) ∧
      ∀ id ∈ dead, id = x ∨ id ∈ rest ∨ role id = .gone
  | .stopDelete x dead rest =>
    role x = .joined c ∧ rest.Nodup ∧ (∀ id ∈ rest, role id = .taken c) ∧
      ∀ id ∈ dead, id = x ∨ id ∈ rest ∨ role id = .gone
  | _ => True

/-- The actors are what their roles say, and the accounts hold. -/
structure Books (role : Nat → Role P) (s : ActorSystem P T) : Prop where
  actor : ∀ id, RoleOk (role id) (s.actors id) (s.deleted id)
  map : ∀ id, id ∈ s.registered ↔ role id = .registered
  nodup : s.registered.Nodup
  fresh : ∀ id, s.actorIdSeq ≤ id → role id = .unborn
  fifo : ∀ id p, ProducerQueue.of p (s.accepted id) =
    ProducerQueue.of p (s.begun id) ++ ProducerQueue.of p (s.actors id).mailbox

/-- The calls rely on what is so, and only the holder of the lock is in a section. -/
structure Calls (role : Nat → Role P) (s : ActorSystem P T) : Prop where
  pc : ∀ c, PcOk role c (s.pc c)
  lock : ∀ c, (s.pc c).critical = true → s.lock = some c

/-- The roles go forward, and with them the accounts of an actor end. -/
structure Later (role : Nat → Role P) (s : ActorSystem P T) (role' : Nat → Role P)
    (s' : ActorSystem P T) : Prop where
  out : ∀ id, (role id).out = true → (role' id).out = true ∧ s'.accepted id = s.accepted id
  gone : ∀ id, role id = .gone → role' id = .gone ∧ s'.begun id = s.begun id

section Steps

variable {role : Nat → Role P} {s : ActorSystem P T} {c : Caller P}

omit [DecidableEq P] in
/-- No actor changes its role. -/
theorem Later.refl (h : s'.accepted = s.accepted) (h' : s'.begun = s.begun) :
    Later role s role (s' : ActorSystem P T) where
  out id hout := ⟨hout, by rw [h]⟩
  gone id hgone := ⟨hgone, by rw [h']⟩

omit [DecidableEq P] in
/-- What another call relies on does not change with the role of an actor that it does
    not have, and that is not in the map. -/
theorem PcOk.of_agree {role' : Nat → Role P} {d : Caller P} {pc : SystemPc T}
    (h : PcOk role d pc) (hheld : ∀ id, (role id).holder = some d → role' id = role id)
    (hgone : ∀ id, role id = .gone → role' id = .gone)
    (hmap : pc.critical = true → ∀ id, role id = .registered → role' id = .registered) :
    PcOk role' d pc := by
  have hrest : ∀ {rest : List Nat}, (∀ id ∈ rest, role id = .taken d) →
      ∀ id ∈ rest, role' id = .taken d := by
    intro rest hr id hid
    rw [hheld id (by rw [hr id hid]; rfl), hr id hid]
  -- each place of a call speaks of actors that the caller holds, of the gone and, under
  -- the lock, of the registered
  cases pc with
  | idle => trivial
  | execLock target task => trivial
  | execFind target task => trivial
  | execCheck target task => exact hmap rfl target h
  | execEnqueue target task => exact hmap rfl target h
  | spawnLock id => exact (hheld id (by rw [show role id = .made d from h]; rfl)).trans h
  | spawnStart id => exact (hheld id (by rw [show role id = .made d from h]; rfl)).trans h
  | spawnCreate id => exact (hheld id (by rw [show role id = .flagged d from h]; rfl)).trans h
  | spawnInsert id => exact (hheld id (by rw [show role id = .started d from h]; rfl)).trans h
  | stopLock => trivial
  | stopTake => trivial
  | stopNext dead rest =>
    obtain ⟨hnd, hr, hd⟩ := h
    exact ⟨hnd, hrest hr, fun id hid => (hd id hid).imp_right (hgone id)⟩
  | stopJoin x dead rest =>
    obtain ⟨hx, hnd, hr, hd⟩ := h
    exact ⟨(hheld x (by rw [hx]; rfl)).trans hx, hnd, hrest hr,
      fun id hid => (hd id hid).imp_right (Or.imp_right (hgone id))⟩
  | stopDelete x dead rest =>
    obtain ⟨hx, hnd, hr, hd⟩ := h
    exact ⟨(hheld x (by rw [hx]; rfl)).trans hx, hnd, hrest hr,
      fun id hid => (hd id hid).imp_right (Or.imp_right (hgone id))⟩

/-- The call of `c` has gone on to `pc`; the other calls and the lock are as before. -/
theorem Calls.goto {role' : Nat → Role P} {s' : ActorSystem P T} {pc : SystemPc T}
    (h : Calls role s) (hpcs : s'.pc = Function.update s.pc c pc) (hlock : s'.lock = s.lock)
    (hothers : ∀ d ≠ c, PcOk role' d (s.pc d)) (hpc : PcOk role' c pc)
    (hcrit : pc.critical = true → (s.pc c).critical = true) : Calls role' s' where
  pc d := by
    rw [hpcs]
    by_cases hd : d = c
    · subst hd; rwa [Function.update_self]
    · rw [Function.update_of_ne hd]; exact hothers d hd
  lock d hd := by
    rw [hlock]
    rw [hpcs] at hd
    by_cases hc : d = c
    · subst hc
      rw [Function.update_self] at hd
      exact h.lock d (hcrit hd)
    · rw [Function.update_of_ne hc] at hd
      exact h.lock d hd

/-- The call of `c` has left its section. -/
theorem Calls.leave {role' : Nat → Role P} {s' : ActorSystem P T} {pc : SystemPc T}
    (h : Calls role s) (hin : (s.pc c).critical = true)
    (hpcs : s'.pc = Function.update s.pc c pc)
    (hothers : ∀ d ≠ c, PcOk role' d (s.pc d)) (hpc : PcOk role' c pc)
    (hcrit : pc.critical = false) : Calls role' s' where
  pc d := by
    rw [hpcs]
    by_cases hd : d = c
    · subst hd; rwa [Function.update_self]
    · rw [Function.update_of_ne hd]; exact hothers d hd
  lock d hd := by
    -- nobody else is in a section
    rw [hpcs] at hd
    by_cases hc : d = c
    · subst hc
      rw [Function.update_self, hcrit] at hd
      exact nomatch hd
    · rw [Function.update_of_ne hc] at hd
      have hheld := (h.lock d hd).symm.trans (h.lock c hin)
      exact absurd (Option.some.inj hheld) hc

/-- What a step leads to: the roles after it, and what they say. -/
def Next (role : Nat → Role P) (s s' : ActorSystem P T) : Prop :=
  ∃ role', Books role' s' ∧ Calls role' s' ∧ Later role s role' s'

/-- A step that changes no actor and no role. -/
theorem Next.of_calls {s' : ActorSystem P T} (h : Books role s) (hcalls : Calls role s')
    (hactors : s'.actors = s.actors) (hdeleted : s'.deleted = s.deleted)
    (hseq : s'.actorIdSeq = s.actorIdSeq) (hreg : s'.registered = s.registered)
    (hacc : s'.accepted = s.accepted) (hbegun : s'.begun = s.begun) : Next role s s' := by
  refine ⟨role, ?_, hcalls, .refl hacc hbegun⟩
  constructor
  · rw [hactors, hdeleted]; exact h.actor
  · rw [hreg]; exact h.map
  · rw [hreg]; exact h.nodup
  · rw [hseq]; exact h.fresh
  · rw [hacc, hbegun, hactors]; exact h.fifo

/-- A call goes on, and touches no actor. -/
theorem next_goto {pc : SystemPc T} (h : Books role s) (hcalls : Calls role s)
    (hpc : PcOk role c pc) (hcrit : pc.critical = true → (s.pc c).critical = true) :
    Next role s (s.goto c pc) :=
  .of_calls h (hcalls.goto rfl rfl (fun d _ => hcalls.pc d) hpc hcrit) rfl rfl rfl rfl rfl rfl

/-- A call gives the lock back. -/
theorem next_leave {pc : SystemPc T} (h : Books role s) (hcalls : Calls role s)
    (hin : (s.pc c).critical = true) (hpc : PcOk role c pc) (hcrit : pc.critical = false) :
    Next role s (s.leave c pc) :=
  .of_calls h (hcalls.leave hin rfl (fun d _ => hcalls.pc d) hpc hcrit) rfl rfl rfl rfl rfl rfl

/-- A call takes the lock, or waits for it. -/
theorem next_acquire {pc : SystemPc T} {s' : ActorSystem P T} (h : Books role s)
    (hcalls : Calls role s) (hpc : PcOk role c pc) (hacq : s.acquire c pc = some s') :
    Next role s s' := by
  rw [acquire] at hacq
  split at hacq
  · rename_i hfree
    obtain rfl := Option.some.inj hacq
    refine .of_calls h ?_ rfl rfl rfl rfl rfl rfl
    constructor
    · intro d
      show PcOk role d (Function.update s.pc c pc d)
      by_cases hd : d = c
      · subst hd; rwa [Function.update_self]
      · rw [Function.update_of_ne hd]; exact hcalls.pc d
    · -- nobody had the lock
      intro d hd
      show some c = some d
      have hd' : (Function.update s.pc c pc d).critical = true := hd
      by_cases hc : d = c
      · rw [hc]
      · rw [Function.update_of_ne hc] at hd'
        rw [hcalls.lock d hd'] at hfree
        exact nomatch hfree
  · exact nomatch hacq

omit [DecidableEq P] in
/-- The other calls do not rely on an actor that `c` has. -/
theorem PcOk.of_owned {x : Nat} {d : Caller P} {pc : SystemPc T} (h : PcOk role d pc)
    (r : Role P) (hd : d ≠ c) (hown : (role x).holder = some c) :
    PcOk (Function.update role x r) d pc := by
  apply h.of_agree
  · intro id hid
    apply Function.update_of_ne
    rintro rfl
    exact hd (Option.some.inj (hid.symm.trans hown))
  · intro id hid
    rw [Function.update_of_ne _ _ _, hid]
    rintro rfl
    rw [hid] at hown
    exact nomatch hown
  · intro _ id hid
    rw [Function.update_of_ne _ _ _, hid]
    rintro rfl
    rw [hid] at hown
    exact nomatch hown

/-- A step of the call that has the actor `x`. -/
theorem Next.of_owned {s' : ActorSystem P T} {x : Nat} {r : Role P} (h : Books role s)
    (hown : (role x).holder = some c) (hcalls : Calls (Function.update role x r) s')
    (hx : RoleOk r (s'.actors x) (s'.deleted x)) (hr : r ≠ .registered)
    (hout : (role x).out = true → r.out = true)
    (hbox : (s'.actors x).mailbox = (s.actors x).mailbox)
    (hactors : ∀ id ≠ x, s'.actors id = s.actors id)
    (hdeleted : ∀ id ≠ x, s'.deleted id = s.deleted id)
    (hseq : s'.actorIdSeq = s.actorIdSeq) (hreg : s'.registered = s.registered)
    (hacc : s'.accepted = s.accepted) (hbegun : s'.begun = s.begun) : Next role s s' := by
  refine ⟨_, ?_, hcalls, ?_⟩
  -- only the entry of `x` is another, in every part of the books
  · constructor
    · intro id
      by_cases hid : id = x
      · subst hid; rwa [Function.update_self]
      · rw [Function.update_of_ne hid, hactors id hid, hdeleted id hid]
        exact h.actor id
    · intro id
      rw [hreg, h.map id]
      by_cases hid : id = x
      · subst hid
        rw [Function.update_self]
        constructor
        · intro hregd; rw [hregd] at hown; exact nomatch hown
        · intro hregd; exact absurd hregd hr
      · rw [Function.update_of_ne hid]
    · rw [hreg]; exact h.nodup
    -- `x` is not one of the numbers that are still free, since someone holds it
    · intro id hid
      rw [hseq] at hid
      have hid' : id ≠ x := by
        rintro rfl
        rw [h.fresh id hid] at hown
        exact nomatch hown
      rw [Function.update_of_ne hid']
      exact h.fresh id hid
    · intro id p
      rw [hacc, hbegun]
      by_cases hid : id = x
      · subst hid; rw [hbox]; exact h.fifo id p
      · rw [hactors id hid]; exact h.fifo id p
  -- what was out stays out, and `x` was not gone
  · constructor
    · intro id hid
      rw [hacc]
      refine ⟨?_, rfl⟩
      by_cases hx' : id = x
      · subst hx'; rw [Function.update_self]; exact hout hid
      · rwa [Function.update_of_ne hx']
    · intro id hid
      rw [hbegun]
      refine ⟨?_, rfl⟩
      rw [Function.update_of_ne _ _ _, hid]
      rintro rfl
      rw [hid] at hown
      exact nomatch hown

/-- `spawn` has constructed an actor. -/
theorem next_spawn (h : Books role s) (hcalls : Calls role s) :
    Next role s
      ({ s with actorIdSeq := s.actorIdSeq + 1 }.goto c (.spawnLock s.actorIdSeq)) := by
  -- the number is fresh, so no other role changes
  have hborn : role s.actorIdSeq = .unborn := h.fresh _ (Nat.le_refl _)
  have hkeep : ∀ id, role id ≠ .unborn →
      Function.update role s.actorIdSeq (.made c) id = role id := by
    intro id hid
    apply Function.update_of_ne
    rintro rfl
    exact hid hborn
  refine ⟨Function.update role s.actorIdSeq (.made c), ?_, ?_, ?_⟩
  · constructor
    · intro id
      show RoleOk (Function.update role s.actorIdSeq (.made c) id) (s.actors id) (s.deleted id)
      by_cases hid : id = s.actorIdSeq
      · subst hid
        have hnew := h.actor s.actorIdSeq
        rw [hborn] at hnew
        rwa [Function.update_self]
      · rw [Function.update_of_ne hid]; exact h.actor id
    · intro id
      show id ∈ s.registered ↔ _
      rw [h.map id]
      by_cases hid : id = s.actorIdSeq
      · subst hid; rw [Function.update_self, hborn]; constructor <;> exact nofun
      · rw [Function.update_of_ne hid]
    · exact h.nodup
    · intro id hid
      have hid' : s.actorIdSeq + 1 ≤ id := hid
      rw [Function.update_of_ne (by omega)]
      exact h.fresh id (by omega)
    · exact h.fifo
  -- the other callers hold actors that were born before
  · refine hcalls.goto rfl rfl ?_ (Function.update_self _ _ _) (fun hcrit => nomatch hcrit)
    intro d _
    apply (hcalls.pc d).of_agree
    · intro id hid
      apply hkeep
      intro hun
      rw [hun] at hid
      exact nomatch hid
    · intro id hid
      rw [hkeep id (by rw [hid]; exact nofun), hid]
    · intro _ id hid
      rw [hkeep id (by rw [hid]; exact nofun), hid]
  · constructor
    · intro id hid
      have hne : role id ≠ .unborn := by
        intro hun
        rw [hun] at hid
        exact nomatch hid
      exact ⟨by rw [hkeep id hne]; exact hid, rfl⟩
    · intro id hid
      exact ⟨by rw [hkeep id (by rw [hid]; exact nofun)]; exact hid, rfl⟩

/-- The new actor is in the map. -/
theorem next_insert {x : Nat} (h : Books role s) (hcalls : Calls role s)
    (hpc : s.pc c = .spawnInsert x) :
    Next role s ({ s with registered := s.registered ++ [x] }.leave c .idle) := by
  have hx : role x = .started c := by
    have := hcalls.pc c
    rwa [hpc] at this
  have hnot : x ∉ s.registered := by
    rw [h.map x, hx]
    exact nofun
  -- an actor that is out was registered before, and `x` is not yet
  have hout : ∀ id, (role id).out = true → id ≠ x := by
    rintro id hid rfl
    rw [hx] at hid
    exact nomatch hid
  refine ⟨Function.update role x .registered, ?_, ?_, ?_⟩
  · constructor
    · intro id
      show RoleOk (Function.update role x .registered id) (s.actors id) (s.deleted id)
      by_cases hid : id = x
      · subst hid
        have hstarted := h.actor id
        rw [hx] at hstarted
        rw [Function.update_self]
        exact ⟨hstarted.1, hstarted.2.1, hstarted.2.2.2⟩
      · rw [Function.update_of_ne hid]; exact h.actor id
    · intro id
      show id ∈ s.registered ++ [x] ↔ _
      by_cases hid : id = x
      · subst hid; simp
      · rw [Function.update_of_ne hid, ← h.map id]; simp [hid]
    -- `emplace` adds a new key
    · show (s.registered ++ [x]).Nodup
      rw [List.nodup_append]
      refine ⟨h.nodup, List.nodup_cons.mpr ⟨List.not_mem_nil, List.nodup_nil⟩, ?_⟩
      intro id hid y hy
      rw [List.mem_singleton.mp hy]
      rintro rfl
      exact hnot hid
    · intro id hid
      have hborn := h.fresh id hid
      rw [Function.update_of_ne _ _ _, hborn]
      rintro rfl
      rw [hx] at hborn
      exact nomatch hborn
    · exact h.fifo
  · apply hcalls.leave (by rw [hpc]; rfl) rfl
    · intro d hd
      exact (hcalls.pc d).of_owned _ hd (by rw [hx]; rfl)
    · trivial
    · rfl
  · constructor
    · intro id hid
      rw [Function.update_of_ne (hout id hid)]
      exact ⟨hid, rfl⟩
    · intro id hid
      rw [Function.update_of_ne (hout id (by rw [hid]; rfl))]
      exact ⟨hid, rfl⟩

/-- `stopAll` has taken the actors out of the map. -/
theorem next_take (h : Books role s) (hcalls : Calls role s) (hpc : s.pc c = .stopTake) :
    Next role s
      ({ s with registered := [] }.leave c (.stopNext s.registered s.registered)) := by
  have hkeep : ∀ id, role id ≠ .registered →
      (if id ∈ s.registered then .taken c else role id) = role id := by
    intro id hid
    rw [if_neg]
    rwa [h.map id]
  have htaken : ∀ id ∈ s.registered,
      (if id ∈ s.registered then .taken c else role id) = .taken c :=
    fun id hid => if_pos hid
  refine ⟨fun id => if id ∈ s.registered then .taken c else role id, ?_, ?_, ?_⟩
  · constructor
    · intro id
      show RoleOk (if id ∈ s.registered then .taken c else role id) (s.actors id) (s.deleted id)
      by_cases hid : role id = .registered
      · have hactor := h.actor id
        rw [hid] at hactor
        rw [htaken id ((h.map id).mpr hid)]
        exact hactor
      · rw [hkeep id hid]; exact h.actor id
    · intro id
      show id ∈ [] ↔ (if id ∈ s.registered then .taken c else role id) = .registered
      constructor
      · exact nofun
      · intro hregd
        split at hregd
        · exact nomatch hregd
        · rename_i hnot
          exact absurd ((h.map id).mpr hregd) hnot
    · exact List.nodup_nil
    · intro id hid
      have hborn := h.fresh id hid
      rw [hkeep id (by rw [hborn]; exact nofun), hborn]
    · exact h.fifo
  · apply hcalls.leave (by rw [hpc]; rfl) rfl
    · intro d hd
      apply (hcalls.pc d).of_agree
      · intro id hid
        apply hkeep
        intro hregd
        rw [hregd] at hid
        exact nomatch hid
      · intro id hid
        rw [hkeep id (by rw [hid]; exact nofun), hid]
      · -- an `execute` in its section would have the lock
        intro hcrit
        have hheld := (hcalls.lock d hcrit).symm.trans (hcalls.lock c (by rw [hpc]; rfl))
        exact absurd (Option.some.inj hheld) hd
    · exact ⟨h.nodup, htaken, fun id hid => .inl hid⟩
    · rfl
  · constructor
    · intro id hid
      have hne : role id ≠ .registered := by
        intro hregd
        rw [hregd] at hid
        exact nomatch hid
      exact ⟨by rw [hkeep id hne]; exact hid, rfl⟩
    · intro id hid
      exact ⟨by rw [hkeep id (by rw [hid]; exact nofun)]; exact hid, rfl⟩

/-- A closure is enqueued, to an actor that is in the map. -/
theorem next_enqueue {x : Nat} {task : T} (h : Books role s) (hcalls : Calls role s)
    (hpc : s.pc c = .execEnqueue x task) :
    Next role s ((s.enqueue c x task).leave c .idle) := by
  -- under the lock the actor that was found is still registered
  have hx : role x = .registered := by
    have := hcalls.pc c
    rwa [hpc] at this
  refine ⟨role, ?_, ?_, ?_⟩
  · constructor
    · intro id
      show RoleOk (role id) (Function.update s.actors x ((s.actors x).enqueue c task) id)
        (s.deleted id)
      by_cases hid : id = x
      · subst hid
        have hactor := h.actor id
        rw [hx] at hactor ⊢
        rw [Function.update_self]
        exact hactor
      · rw [Function.update_of_ne hid]; exact h.actor id
    · exact h.map
    · exact h.nodup
    · exact h.fresh
    -- the task is the last of its producer, in the mailbox and among the accepted
    · intro id p
      show ProducerQueue.of p (Function.update s.accepted x
          (ProducerQueue.enqueue c task (s.accepted x)) id) =
        ProducerQueue.of p (s.begun id) ++ ProducerQueue.of p
          (Function.update s.actors x ((s.actors x).enqueue c task) id).mailbox
      by_cases hid : id = x
      · subst hid
        rw [Function.update_self, Function.update_self]
        exact ProducerQueue.of_enqueue_eq (h.fifo id p)
      · rw [Function.update_of_ne hid, Function.update_of_ne hid]
        exact h.fifo id p
  · exact hcalls.leave (by rw [hpc]; rfl) rfl (fun d _ => hcalls.pc d) trivial rfl
  · constructor
    -- an actor that is out is not registered, so nothing is sent to it
    · intro id hid
      refine ⟨hid, Function.update_of_ne ?_ _ _⟩
      rintro rfl
      rw [hx] at hid
      exact nomatch hid
    · exact fun id hid => ⟨hid, rfl⟩

/-- A step of an actor's thread. -/
theorem next_thread {x i : Nat} {s' : ActorSystem P T} (h : Books role s)
    (hcalls : Calls role s) (hrun : s.runThread x i = some s') : Next role s s' := by
  rw [runThread] at hrun
  cases hthread : (s.actors x).runThread i with
  | none => rw [hthread] at hrun; exact nomatch hrun
  | some res =>
    obtain ⟨a, begun⟩ := res
    rw [hthread] at hrun
    obtain rfl := Option.some.inj hrun
    refine ⟨role, ?_, ⟨hcalls.pc, hcalls.lock⟩, ?_⟩
    · constructor
      · intro id
        show RoleOk (role id) (Function.update s.actors x a id) (s.deleted id)
        by_cases hid : id = x
        · subst hid
          rw [Function.update_self]
          exact (h.actor id).runThread hthread
        · rw [Function.update_of_ne hid]; exact h.actor id
      · exact h.map
      · exact h.nodup
      · exact h.fresh
      · intro id p
        show ProducerQueue.of p (s.accepted id) =
          ProducerQueue.of p (Function.update s.begun x (s.begun x ++ begun.toList) id) ++
            ProducerQueue.of p (Function.update s.actors x a id).mailbox
        by_cases hid : id = x
        · subst hid
          rw [Function.update_self, Function.update_self, h.fifo id p]
          exact Actor.of_runThread hthread p
        · rw [Function.update_of_ne hid, Function.update_of_ne hid]
          exact h.fifo id p
    · constructor
      · exact fun id hid => ⟨hid, rfl⟩
      · -- an actor that is deleted has no thread
        intro id hid
        refine ⟨hid, Function.update_of_ne ?_ _ _⟩
        rintro rfl
        have hactor := h.actor id
        rw [hid] at hactor
        exact Actor.thread_ne_none (Actor.looks_of_runThread hthread) hactor.1

/-- The call of `c` changes an actor that it has, and goes on. -/
theorem next_setActor {x : Nat} {a : Actor (Caller P) T} {r : Role P} {pc : SystemPc T}
    (h : Books role s) (hcalls : Calls role s) (hown : (role x).holder = some c)
    (hx : RoleOk r a (s.deleted x)) (hr : r ≠ .registered)
    (hout : (role x).out = true → r.out = true) (hbox : a.mailbox = (s.actors x).mailbox)
    (hpc : PcOk (Function.update role x r) c pc)
    (hcrit : pc.critical = true → (s.pc c).critical = true) :
    Next role s ((s.setActor x a).goto c pc) := by
  have hself : Function.update s.actors x a x = a := Function.update_self _ _ _
  refine .of_owned (x := x) (r := r) h hown ?_ ?_ hr hout ?_
    (fun y hy => Function.update_of_ne hy _ _) (fun y _ => rfl) rfl rfl rfl rfl
  · exact hcalls.goto rfl rfl (fun d hd => (hcalls.pc d).of_owned _ hd hown) hpc hcrit
  · show RoleOk r (Function.update s.actors x a x) (s.deleted x)
    rwa [hself]
  · show (Function.update s.actors x a x).mailbox = _
    rwa [hself]

/-- `execute` looks for its target in the map. -/
theorem next_execFind {target choice : Nat} {task : T} {s' : ActorSystem P T} (h : Books role s)
    (hcalls : Calls role s) (hpc : s.pc c = .execFind target task)
    (hstep : s.advance c choice = some s') : Next role s s' := by
  simp only [advance, hpc] at hstep
  split at hstep
  · rename_i hmem
    obtain rfl := Option.some.inj hstep
    exact next_goto h hcalls ((h.map target).mp hmem) (fun _ => by rw [hpc]; rfl)
  · obtain rfl := Option.some.inj hstep
    exact next_leave h hcalls (by rw [hpc]; rfl) trivial rfl

/-- `execute` looks at the flag of its target. -/
theorem next_execCheck {target choice : Nat} {task : T} {s' : ActorSystem P T}
    (h : Books role s) (hcalls : Calls role s) (hpc : s.pc c = .execCheck target task)
    (hstep : s.advance c choice = some s') : Next role s s' := by
  have hpcok := hcalls.pc c
  rw [hpc] at hpcok
  simp only [advance, hpc] at hstep
  split at hstep
  · obtain rfl := Option.some.inj hstep
    exact next_goto h hcalls hpcok (fun _ => by rw [hpc]; rfl)
  · obtain rfl := Option.some.inj hstep
    exact next_leave h hcalls (by rw [hpc]; rfl) trivial rfl

/-- `start` sets the flag of the new actor. -/
theorem next_spawnStart {x choice : Nat} {s' : ActorSystem P T} (h : Books role s)
    (hcalls : Calls role s) (hpc : s.pc c = .spawnStart x)
    (hstep : s.advance c choice = some s') : Next role s s' := by
  have hx : role x = .made c := by
    have := hcalls.pc c
    rwa [hpc] at this
  obtain ⟨hnew, hdel⟩ : s.actors x = .new ∧ s.deleted x = false := by
    have hactor := h.actor x
    rwa [hx] at hactor
  simp only [advance, hpc, hnew] at hstep
  obtain rfl := Option.some.inj hstep
  refine next_setActor (r := .flagged c) h hcalls (by rw [hx]; rfl) ⟨rfl, hdel⟩ nofun
    (by rw [hx]; exact nofun) (by rw [hnew]) (Function.update_self _ _ _)
    (fun _ => by rw [hpc]; rfl)

/-- `start` makes the thread of the new actor, or fails and the actor is deleted again. -/
theorem next_spawnCreate {x choice : Nat} {s' : ActorSystem P T} (h : Books role s)
    (hcalls : Calls role s) (hpc : s.pc c = .spawnCreate x)
    (hstep : s.advance c choice = some s') : Next role s s' := by
  have hx : role x = .flagged c := by
    have := hcalls.pc c
    rwa [hpc] at this
  obtain ⟨hflag, hdel⟩ :
      s.actors x = { Actor.new with isRun := true } ∧ s.deleted x = false := by
    have hactor := h.actor x
    rwa [hx] at hactor
  simp only [advance, hpc, hflag] at hstep
  split at hstep
  · obtain rfl := Option.some.inj hstep
    exact next_setActor (r := .started c) h hcalls (by rw [hx]; rfl) ⟨rfl, rfl, rfl, hdel⟩ nofun
      (by rw [hx]; exact nofun) (by rw [hflag]) (Function.update_self _ _ _)
      (fun _ => by rw [hpc]; rfl)
  · -- no thread
    obtain rfl := Option.some.inj hstep
    refine .of_owned (x := x) (r := .gone) h (by rw [hx]; rfl) ?_ ?_ nofun
      (by rw [hx]; exact nofun) ?_ (fun y hy => Function.update_of_ne hy _ _)
      (fun y hy => Function.update_of_ne hy _ _) rfl rfl rfl rfl
    · exact hcalls.leave (by rw [hpc]; rfl) rfl
        (fun d hd => (hcalls.pc d).of_owned _ hd (by rw [hx]; rfl)) trivial rfl
    · show RoleOk _ (Function.update s.actors x { Actor.new with isRun := false } x)
        (Function.update s.deleted x true x)
      rw [Function.update_self, Function.update_self]
      exact ⟨rfl, rfl, rfl⟩
    · show (Function.update s.actors x { Actor.new with isRun := false } x).mailbox = _
      rw [Function.update_self, hflag]

/-- `stopAll` goes on to the next of its actors, and clears the flag. -/
theorem next_stopNext {choice : Nat} {dead rest : List Nat} {s' : ActorSystem P T}
    (h : Books role s) (hcalls : Calls role s) (hpc : s.pc c = .stopNext dead rest)
    (hstep : s.advance c choice = some s') : Next role s s' := by
  have hpcok := hcalls.pc c
  rw [hpc] at hpcok
  obtain ⟨hnd, hrest, hdead⟩ := hpcok
  simp only [advance, hpc] at hstep
  split at hstep
  · obtain rfl := Option.some.inj hstep
    exact next_goto h hcalls trivial (fun hcrit => nomatch hcrit)
  split at hstep
  · rename_i hmem
    have hx := hrest choice hmem
    obtain ⟨hrun, hloop, hdel⟩ : (s.actors choice).isRun = true ∧
        (s.actors choice).inLoop = true ∧ s.deleted choice = false := by
      have hactor := h.actor choice
      rwa [hx] at hactor
    rw [if_pos hrun] at hstep
    obtain rfl := Option.some.inj hstep
    -- its thread is in the loop, and will look into the mailbox again
    have hlook := Actor.looks_of_inLoop hloop
    refine next_setActor (r := .joining c) h hcalls (by rw [hx]; rfl)
      ⟨fun hl => ?_, Actor.thread_ne_none hlook, hdel⟩ nofun (fun _ => rfl) rfl
      ⟨Function.update_self _ _ _, hnd.erase _, fun y hy => ?_, fun y hy => ?_⟩
      (fun hcrit => nomatch hcrit)
    · have hl' : (s.actors choice).looks = false := hl
      rw [hlook] at hl'
      exact nomatch hl'
    · rw [Function.update_of_ne (by rintro rfl; exact hnd.not_mem_erase hy)]
      exact hrest y (List.mem_of_mem_erase hy)
    · by_cases hyc : y = choice
      · exact .inl hyc
      · rw [Function.update_of_ne hyc, List.mem_erase_of_ne hyc]
        exact .inr (hdead y hy)
  · exact nomatch hstep

/-- `stopAll` joins the thread of an actor, which has left its loop. -/
theorem next_stopJoin {x choice : Nat} {dead rest : List Nat} {s' : ActorSystem P T}
    (h : Books role s) (hcalls : Calls role s) (hpc : s.pc c = .stopJoin x dead rest)
    (hstep : s.advance c choice = some s') : Next role s s' := by
  have hpcok := hcalls.pc c
  rw [hpc] at hpcok
  obtain ⟨hx, hnd, hrest, hdead⟩ := hpcok
  obtain ⟨hempty, -, hdel⟩ : ((s.actors x).looks = false → (s.actors x).mailbox = []) ∧
      (s.actors x).thread ≠ .none ∧ s.deleted x = false := by
    have hactor := h.actor x
    rwa [hx] at hactor
  simp only [advance, hpc] at hstep
  split at hstep
  · obtain rfl := Option.some.inj hstep
    exact next_goto h hcalls trivial (fun hcrit => nomatch hcrit)
  split at hstep
  · exact nomatch hstep
  -- the thread has ended, and its mailbox is empty
  · rename_i hlook
    obtain rfl := Option.some.inj hstep
    refine next_setActor (r := .joined c) h hcalls (by rw [hx]; rfl)
      ⟨rfl, hempty (by simpa using hlook), hdel⟩ nofun (fun _ => rfl) rfl
      ⟨Function.update_self _ _ _, hnd, fun y hy => ?_, fun y hy => ?_⟩
      (fun hcrit => nomatch hcrit)
    · rw [Function.update_of_ne _ _ _, hrest y hy]
      rintro rfl
      exact nomatch hx.symm.trans (hrest y hy)
    · by_cases hyx : y = x
      · exact .inl hyx
      · rw [Function.update_of_ne hyx]
        exact hdead y hy

/-- `stopAll` deletes an actor that it has joined. -/
theorem next_stopDelete {x choice : Nat} {dead rest : List Nat} {s' : ActorSystem P T}
    (h : Books role s) (hcalls : Calls role s) (hpc : s.pc c = .stopDelete x dead rest)
    (hstep : s.advance c choice = some s') : Next role s s' := by
  have hpcok := hcalls.pc c
  rw [hpc] at hpcok
  obtain ⟨hx, hnd, hrest, hdead⟩ := hpcok
  obtain ⟨hnone, hempty, -⟩ : (s.actors x).thread = .none ∧ (s.actors x).mailbox = [] ∧
      s.deleted x = false := by
    have hactor := h.actor x
    rwa [hx] at hactor
  simp only [advance, hpc] at hstep
  obtain rfl := Option.some.inj hstep
  refine .of_owned (x := x) (r := .gone) h (by rw [hx]; rfl) ?_ ?_ nofun
    (fun _ => rfl) rfl (fun y _ => rfl) (fun y hy => Function.update_of_ne hy _ _)
    rfl rfl rfl rfl
  · refine hcalls.goto rfl rfl
      (fun d hd => (hcalls.pc d).of_owned _ hd (by rw [hx]; rfl))
      ⟨hnd, fun y hy => ?_, fun y hy => ?_⟩ (fun hcrit => nomatch hcrit)
    · rw [Function.update_of_ne _ _ _, hrest y hy]
      rintro rfl
      exact nomatch hx.symm.trans (hrest y hy)
    · by_cases hyx : y = x
      · exact .inr (by rw [hyx, Function.update_self])
      · rw [Function.update_of_ne hyx]
        exact (hdead y hy).resolve_left hyx
  · show RoleOk _ (s.actors x) (Function.update s.deleted x true x)
    rw [Function.update_self]
    exact ⟨hnone, hempty, rfl⟩

/-- The next step of a call, by the place where the call is. -/
theorem next_advance {choice : Nat} {s' : ActorSystem P T} (h : Books role s)
    (hcalls : Calls role s) (hstep : s.advance c choice = some s') : Next role s s' := by
  cases hpc : s.pc c with
  | idle =>
    simp only [advance, hpc] at hstep
    exact nomatch hstep
  | execLock target task =>
    simp only [advance, hpc] at hstep
    refine next_acquire h hcalls ?_ hstep
    trivial
  | execFind target task => exact next_execFind h hcalls hpc hstep
  | execCheck target task => exact next_execCheck h hcalls hpc hstep
  | execEnqueue target task =>
    simp only [advance, hpc] at hstep
    obtain rfl := Option.some.inj hstep
    exact next_enqueue h hcalls hpc
  | spawnLock x =>
    have hx : role x = .made c := by
      have := hcalls.pc c
      rwa [hpc] at this
    simp only [advance, hpc] at hstep
    refine next_acquire h hcalls ?_ hstep
    exact hx
  | spawnStart x => exact next_spawnStart h hcalls hpc hstep
  | spawnCreate x => exact next_spawnCreate h hcalls hpc hstep
  | spawnInsert x =>
    simp only [advance, hpc] at hstep
    obtain rfl := Option.some.inj hstep
    exact next_insert h hcalls hpc
  | stopLock =>
    simp only [advance, hpc] at hstep
    refine next_acquire h hcalls ?_ hstep
    trivial
  | stopTake =>
    simp only [advance, hpc] at hstep
    obtain rfl := Option.some.inj hstep
    exact next_take h hcalls hpc
  | stopNext dead rest => exact next_stopNext h hcalls hpc hstep
  | stopJoin x dead rest => exact next_stopJoin h hcalls hpc hstep
  | stopDelete x dead rest => exact next_stopDelete h hcalls hpc hstep

/-- Whatever a step does, the roles go forward. -/
theorem next_step {a : SystemAct P T} {s' : ActorSystem P T} (h : Books role s)
    (hcalls : Calls role s) (hstep : step s a = some s') : Next role s s' := by
  cases a with
  | call c what =>
    simp only [step] at hstep
    split at hstep
    · split at hstep
      · cases what with
        | execute target task =>
          obtain rfl := Option.some.inj hstep
          exact next_goto h hcalls trivial (fun hcrit => nomatch hcrit)
        | spawn =>
          obtain rfl := Option.some.inj hstep
          exact next_spawn h hcalls
        | stopAll =>
          obtain rfl := Option.some.inj hstep
          exact next_goto h hcalls trivial (fun hcrit => nomatch hcrit)
      · exact nomatch hstep
    · exact nomatch hstep
  | advance c choice => exact next_advance h hcalls hstep
  | thread id i =>
    simp only [step] at hstep
    split at hstep
    · exact next_thread h hcalls hstep
    · exact nomatch hstep

end Steps

/-- There are no actors yet. -/
theorem books_init : Books (fun _ => .unborn) (init : ActorSystem P T) where
  actor _ := ⟨rfl, rfl⟩
  map _ := ⟨nofun, nofun⟩
  nodup := List.nodup_nil
  fresh _ _ := rfl
  fifo _ _ := rfl

omit [DecidableEq P] in
/-- Nobody has called yet. -/
theorem calls_init : Calls (fun _ => .unborn) (init : ActorSystem P T) where
  pc _ := trivial
  lock _ h := nomatch h

omit [DecidableEq P] in
/-- Of two steps, one after the other. -/
theorem Later.trans {role role₁ role₂ : Nat → Role P} {s s₁ s₂ : ActorSystem P T}
    (h : Later role s role₁ s₁) (h' : Later role₁ s₁ role₂ s₂) : Later role s role₂ s₂ where
  out id hid := by
    obtain ⟨hout, hacc⟩ := h.out id hid
    obtain ⟨hout', hacc'⟩ := h'.out id hout
    exact ⟨hout', hacc'.trans hacc⟩
  gone id hid := by
    obtain ⟨hgone, hbegun⟩ := h.gone id hid
    obtain ⟨hgone', hbegun'⟩ := h'.gone id hgone
    exact ⟨hgone', hbegun'.trans hbegun⟩

/-- What a run leads to. -/
theorem next_run {role : Nat → Role P} {s s' : ActorSystem P T} {acts : List (SystemAct P T)}
    (h : Books role s) (hcalls : Calls role s) (hrun : Run.run step s acts = some s') :
    Next role s s' := by
  induction acts generalizing role s with
  | nil =>
    obtain rfl := Option.some.inj hrun
    exact ⟨role, h, hcalls, .refl rfl rfl⟩
  | cons a acts ih =>
    obtain ⟨m, hm, hrest⟩ := Run.run_cons hrun
    obtain ⟨role₁, h₁, hcalls₁, hlater⟩ := next_step h hcalls hm
    obtain ⟨role₂, h₂, hcalls₂, hlater'⟩ := ih h₁ hcalls₁ hrest
    exact ⟨role₂, h₂, hcalls₂, hlater.trans hlater'⟩

section Roles

variable {role : Nat → Role P} {s : ActorSystem P T}

/-- Nothing is left of an actor that is deleted. -/
theorem gone_drained {id : Nat} (h : Books role s) (hid : role id = .gone) :
    s.deleted id = true ∧ (s.actors id).current = none ∧
      ∀ p, ProducerQueue.of p (s.begun id) = ProducerQueue.of p (s.accepted id) := by
  obtain ⟨hnone, hempty, hdel⟩ : (s.actors id).thread = .none ∧ (s.actors id).mailbox = [] ∧
      s.deleted id = true := by
    have hactor := h.actor id
    rwa [hid] at hactor
  refine ⟨hdel, Actor.current_of_none hnone, ?_⟩
  intro p
  rw [h.fifo id p, hempty, ProducerQueue.of_nil, List.append_nil]

/-- A deleted actor is in its last role. -/
theorem gone_of_deleted {id : Nat} (h : Books role s) (hdel : s.deleted id = true) :
    role id = .gone := by
  have hactor := h.actor id
  cases hr : role id with
  | gone => rfl
  | unborn => rw [hr] at hactor; exact nomatch hdel.symm.trans hactor.2
  | made c => rw [hr] at hactor; exact nomatch hdel.symm.trans hactor.2
  | flagged c => rw [hr] at hactor; exact nomatch hdel.symm.trans hactor.2
  | started c => rw [hr] at hactor; exact nomatch hdel.symm.trans hactor.2.2.2
  | registered => rw [hr] at hactor; exact nomatch hdel.symm.trans hactor.2.2
  | taken c => rw [hr] at hactor; exact nomatch hdel.symm.trans hactor.2.2
  | joining c => rw [hr] at hactor; exact nomatch hdel.symm.trans hactor.2.2
  | joined c => rw [hr] at hactor; exact nomatch hdel.symm.trans hactor.2.2

omit [DecidableEq P] in
/-- The actors that a `stopAll` has taken are out of the map for good. -/
theorem out_of_dead {c : Caller P} {id : Nat} (hcalls : Calls role s)
    (hid : id ∈ (s.pc c).dead) : (role id).out = true := by
  have hpcok := hcalls.pc c
  cases hpc : s.pc c with
  | stopNext dead rest =>
    rw [hpc] at hid hpcok
    cases hpcok.2.2 id hid with
    | inl hrest => rw [hpcok.2.1 id hrest]; rfl
    | inr hgone => rw [hgone]; rfl
  | stopJoin x dead rest =>
    rw [hpc] at hid hpcok
    rcases hpcok.2.2.2 id hid with hx | hrest | hgone
    · rw [hx, hpcok.1]; rfl
    · rw [hpcok.2.2.1 id hrest]; rfl
    · rw [hgone]; rfl
  | stopDelete x dead rest =>
    rw [hpc] at hid hpcok
    rcases hpcok.2.2.2 id hid with hx | hrest | hgone
    · rw [hx, hpcok.1]; rfl
    · rw [hpcok.2.2.1 id hrest]; rfl
    · rw [hgone]; rfl
  | _ => rw [hpc] at hid; exact nomatch hid

end Roles

/-- Shutting down, in any interleaving of `spawn`, `execute` and `stopAll` from any
    threads: the closures of each caller begin in the order in which an actor accepted
    them, each at most once.  When a `stopAll` has gone through the actors that it took
    out of the map, these are deleted, and every closure that they accepted has run.  From
    the moment an actor is taken out no `execute` to it returns true, and from the moment
    it is deleted no closure of it begins to run. -/
theorem stopAll_drains {acts : List (SystemAct P T)} {s : ActorSystem P T}
    (hrun : Run.run step init acts = some s) :
    (∀ id p, ProducerQueue.of p (s.begun id) <+: ProducerQueue.of p (s.accepted id)) ∧
    (∀ c dead, s.pc c = .stopNext dead [] → ∀ id ∈ dead, s.deleted id = true ∧
      (s.actors id).current = none ∧
      ∀ p, ProducerQueue.of p (s.begun id) = ProducerQueue.of p (s.accepted id)) ∧
    ∀ more s', Run.run step s more = some s' →
      (∀ c, ∀ id ∈ (s.pc c).dead, s'.accepted id = s.accepted id ∧ id ∉ s'.registered) ∧
      ∀ id, s.deleted id = true → s'.deleted id = true ∧ s'.accepted id = s.accepted id ∧
        s'.begun id = s.begun id := by
  -- the books hold after the run, and what follows them holds after any more
  obtain ⟨role, h, hcalls, -⟩ := next_run books_init calls_init hrun
  refine ⟨?_, ?_, ?_⟩
  · intro id p
    exact ⟨_, (h.fifo id p).symm⟩
  · intro c dead hpc id hid
    have hpcok := hcalls.pc c
    rw [hpc] at hpcok
    exact gone_drained h ((hpcok.2.2 id hid).resolve_left List.not_mem_nil)
  · intro more s' hmore
    obtain ⟨role', h', -, hlater⟩ := next_run h hcalls hmore
    constructor
    -- what `stopAll` took is out of the map for good
    · intro c id hid
      obtain ⟨hout, hacc⟩ := hlater.out id (out_of_dead hcalls hid)
      refine ⟨hacc, ?_⟩
      rw [h'.map id]
      intro hregd
      rw [hregd] at hout
      exact nomatch hout
    -- a deleted actor is gone, and the gone neither accept nor begin
    · intro id hdel
      have hgone := gone_of_deleted h hdel
      obtain ⟨hgone', hbegun⟩ := hlater.gone id hgone
      exact ⟨(gone_drained h' hgone').1, (hlater.out id (by rw [hgone]; rfl)).2, hbegun⟩

/-- An actor with one closure, which in the final drain sends its actor another one. -/
theorem stopAll_drains_reentered :
    ∃ s, Run.run step (init : ActorSystem Nat Nat)
        [.call (.outside 0) .spawn, .advance (.outside 0) 0, .advance (.outside 0) 0,
          .advance (.outside 0) 1, .advance (.outside 0) 0, .call (.outside 0) (.execute 1 10),
          .advance (.outside 0) 0, .advance (.outside 0) 0, .advance (.outside 0) 0,
          .advance (.outside 0) 0, .call (.outside 0) .stopAll, .advance (.outside 0) 0,
          .advance (.outside 0) 0, .advance (.outside 0) 1, .thread 1 0, .thread 1 0,
          .call (.onActor 1) (.execute 1 20), .advance (.onActor 1) 0, .advance (.onActor 1) 0,
          .thread 1 0, .thread 1 0, .advance (.outside 0) 0, .advance (.outside 0) 0] = some s ∧
      s.deleted 1 = true ∧ ∀ p, ProducerQueue.of p (s.begun 1) =
        ProducerQueue.of p (s.accepted 1) := by
  have hend : (Run.run step (init : ActorSystem Nat Nat)
      [.call (.outside 0) .spawn, .advance (.outside 0) 0, .advance (.outside 0) 0,
        .advance (.outside 0) 1, .advance (.outside 0) 0, .call (.outside 0) (.execute 1 10),
        .advance (.outside 0) 0, .advance (.outside 0) 0, .advance (.outside 0) 0,
        .advance (.outside 0) 0, .call (.outside 0) .stopAll, .advance (.outside 0) 0,
        .advance (.outside 0) 0, .advance (.outside 0) 1, .thread 1 0, .thread 1 0,
        .call (.onActor 1) (.execute 1 20), .advance (.onActor 1) 0, .advance (.onActor 1) 0,
        .thread 1 0, .thread 1 0, .advance (.outside 0) 0, .advance (.outside 0) 0]).map
      (fun s => s.pc (.outside 0)) = some (.stopNext [1] []) := by decide
  obtain ⟨s, hrun, hpc⟩ := Option.map_eq_some_iff.mp hend
  obtain ⟨hdel, -, hall⟩ := (stopAll_drains hrun).2.1 _ _ hpc 1 List.mem_cons_self
  exact ⟨s, hrun, hdel, hall⟩

/-- An actor that is spawned after a `stopAll` has emptied the map accepts a closure and
    has not run it when that `stopAll` returns. -/
theorem spawn_outlives_stopAll :
    ¬∀ (acts : List (SystemAct Nat Nat)) (s : ActorSystem Nat Nat),
      Run.run step init acts = some s → ∀ c dead, s.pc c = .stopNext dead [] →
        ∀ id p, ProducerQueue.of p (s.begun id) = ProducerQueue.of p (s.accepted id) := by
  intro hall
  have hend : (Run.run step (init : ActorSystem Nat Nat)
      [.call (.outside 0) .stopAll, .advance (.outside 0) 0, .advance (.outside 0) 0,
        .call (.outside 1) .spawn, .advance (.outside 1) 0, .advance (.outside 1) 0,
        .advance (.outside 1) 1, .advance (.outside 1) 0, .call (.outside 1) (.execute 1 10),
        .advance (.outside 1) 0, .advance (.outside 1) 0, .advance (.outside 1) 0,
        .advance (.outside 1) 0]).map
      (fun s => (s.pc (.outside 0), s.begun 1, s.accepted 1)) =
        some (.stopNext [] [], [], [(.outside 1, 10)]) := by decide
  obtain ⟨s, hrun, hs⟩ := Option.map_eq_some_iff.mp hend
  simp only [Prod.mk.injEq] at hs
  obtain ⟨hpc, hbegun, haccepted⟩ := hs
  have hlost := hall _ s hrun _ _ hpc 1 (.outside 1)
  rw [hbegun, haccepted] at hlost
  exact nomatch hlost

end Athena.ActorSystem
