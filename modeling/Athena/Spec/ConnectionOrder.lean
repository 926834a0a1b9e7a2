import Athena.ForStd.Run
import Athena.Native.GameActor

/-!
# The messages of one connection are handled in order

A connection has one loop thread, which is one producer of every mailbox, and one actor
(`GameServer.actorOf` depends on the address of the channel only).  So the frames of a
connection are, in order: those whose handler was invoked, those queued in the mailbox
of its actor, and at most one that its loop thread is dispatching.

## Key results

- `GameServer.inv_step`, `GameServer.inv_run`: this holds in every state
- `GameServer.handled_in_order`: the handlers of a connection run one at a time, in the
  order of its frames, each once
-/

namespace Athena.GameServer

variable {M : Type}

/-- The tasks of one connection, in order. -/
def of (c : ChannelRef) (tasks : List (HandlerTask M)) : List (HandlerTask M) :=
  tasks.filter fun t => t.channel = c

/-- There is nothing of any connection. -/
@[simp] theorem of_nil (c : ChannelRef) : of c ([] : List (HandlerTask M)) = [] := rfl

/-- The parts of a list have their own tasks. -/
theorem of_append (c : ChannelRef) (xs ys : List (HandlerTask M)) :
    of c (xs ++ ys) = of c xs ++ of c ys :=
  List.filter_append _ _

/-- A task of the connection comes first. -/
theorem of_cons_self {c : ChannelRef} {t : HandlerTask M} (h : t.channel = c)
    (xs : List (HandlerTask M)) : of c (t :: xs) = t :: of c xs := by
  simp [of, h]

/-- A task of another connection is left out. -/
theorem of_cons_of_ne {c : ChannelRef} {t : HandlerTask M} (h : t.channel ≠ c)
    (xs : List (HandlerTask M)) : of c (t :: xs) = of c xs := by
  simp [of, h]

/-- What waits in the mailbox of the connection's actor. -/
def queued (cfg : GameServerConfig M) (s : GameServer M) (c : ChannelRef) : List (HandlerTask M) :=
  of c (ProducerQueue.of (cfg.loopOf c) (s.actors (actorOf cfg c)).mailbox)

/-- What the connection's loop thread is dispatching. -/
def inHand (cfg : GameServerConfig M) (s : GameServer M) (c : ChannelRef) : List (HandlerTask M) :=
  of c ((s.dispatching (cfg.loopOf c)).map Prod.snd).toList

/-- The handler of the connection that is running. -/
def running (cfg : GameServerConfig M) (s : GameServer M) (c : ChannelRef) :
    List (HandlerTask M) :=
  of c ((s.actors (actorOf cfg c)).current.map Prod.snd).toList

/-- A task of the loop thread `loop` for the actor `actor` is where it belongs. -/
def Belongs (cfg : GameServerConfig M) (actor loop : Nat) (t : HandlerTask M) : Prop :=
  loop = cfg.loopOf t.channel ∧ actor = actorOf cfg t.channel

/-- The frames of a connection are where they should be. -/
structure Inv (cfg : GameServerConfig M) (s : GameServer M) : Prop where
  isRun : ∀ actor, (s.actors actor).isRun = true
  inLoop : ∀ actor, (s.actors actor).inLoop = true
  /-- everything is where it belongs -/
  mailbox : ∀ actor x, x ∈ (s.actors actor).mailbox → Belongs cfg actor x.1 x.2
  current : ∀ actor x, (s.actors actor).current = some x → Belongs cfg actor x.1 x.2
  dispatching : ∀ loop actor t, s.dispatching loop = some (actor, t) → Belongs cfg actor loop t
  /-- the frames of a connection, in order -/
  frames : ∀ c, of c s.arrived = of c s.invoked ++ s.queued cfg c ++ s.inHand cfg c
  handlers : ∀ c, of c s.invoked = of c s.finished ++ s.running cfg c

/-- There are no frames yet. -/
theorem inv_init (cfg : GameServerConfig M) : Inv cfg init where
  isRun _ := rfl
  inLoop _ := rfl
  mailbox _ _ h := absurd h List.not_mem_nil
  current _ _ h := nomatch h
  dispatching _ _ _ h := nomatch h
  frames _ := rfl
  handlers _ := rfl

/-- A closure made by `decode` is for the channel the frame came from. -/
theorem channel_decode {cfg : GameServerConfig M} {channel : ChannelRef} {channelLive : Bool}
    {buff : List UInt8} {t : HandlerTask M} (h : decode cfg channel channelLive buff = some t) :
    t.channel = channel := by
  rw [decode] at h
  split at h
  · obtain rfl := Option.some.inj h
    rfl
  · exact nomatch h

/-- A frame arrives and its closure goes to the loop thread's hand. -/
theorem Inv.onMsg {cfg : GameServerConfig M} (hn : 1 ≤ cfg.logicActors) {s s' : GameServer M}
    (h : Inv cfg s) {channel : ChannelRef} {channelLive : Bool} {buff : List UInt8}
    (hstep : step cfg s (.onMsg channel channelLive buff) = some s') : Inv cfg s' := by
  simp only [step] at hstep
  cases hfree : s.dispatching (cfg.loopOf channel) with
  | some x => rw [hfree] at hstep; exact nomatch hstep
  | none =>
    rw [hfree] at hstep
    cases hdecode : decode cfg channel channelLive buff with
    | none =>
      rw [hdecode] at hstep
      obtain rfl := Option.some.inj hstep
      exact h
    | some t =>
      rw [hdecode] at hstep
      obtain rfl := channel_decode hdecode
      have hpos : cfg.logicActors ≠ 0 := by omega
      have hs' : s' = { s with
          arrived := s.arrived ++ [t]
          dispatching := Function.update s.dispatching (cfg.loopOf t.channel)
            (some (actorOf cfg t.channel, t)) } := by
        rw [← Option.some.inj hstep, execute, if_neg hpos]
        exact if_pos (h.isRun _)
      subst hs'
      refine { isRun := h.isRun, inLoop := h.inLoop, mailbox := h.mailbox, current := h.current
               dispatching := ?_, frames := ?_, handlers := h.handlers }
      · intro loop actor t' ht'
        by_cases hl : loop = cfg.loopOf t.channel
        · subst hl
          have heq := (Function.update_self _ _ _).symm.trans ht'
          obtain ⟨rfl, rfl⟩ := Prod.mk.inj (Option.some.inj heq)
          exact ⟨rfl, rfl⟩
        · exact h.dispatching loop actor t' ((Function.update_of_ne hl _ _).symm.trans ht')
      · intro c
        have hframes := h.frames c
        show of c (s.arrived ++ [t]) = of c s.invoked ++ s.queued cfg c ++
          of c ((Function.update s.dispatching _ _ (cfg.loopOf c)).map Prod.snd).toList
        rw [of_append, hframes, List.append_assoc (of c s.invoked ++ s.queued cfg c)]
        congr 1
        by_cases hl : cfg.loopOf c = cfg.loopOf t.channel
        · -- the loop thread had nothing in hand
          rw [inHand, hl, hfree, Function.update_self]
          rfl
        · have hc : t.channel ≠ c := fun heq => hl (by rw [heq])
          rw [Function.update_of_ne hl, of_cons_of_ne hc, of_nil, List.append_nil]
          rfl

/-- The loop thread enqueues what it has in hand. -/
theorem Inv.enqueue {cfg : GameServerConfig M} {s s' : GameServer M} (h : Inv cfg s) {loop : Nat}
    (hstep : step cfg s (.enqueue loop) = some s') : Inv cfg s' := by
  simp only [step] at hstep
  cases hhand : s.dispatching loop with
  | none => rw [hhand] at hstep; exact nomatch hstep
  | some x =>
    obtain ⟨actor, t⟩ := x
    rw [hhand] at hstep
    obtain rfl := Option.some.inj hstep
    obtain ⟨rfl, rfl⟩ := h.dispatching loop actor t hhand
    have hactor : ∀ k, Function.update s.actors (actorOf cfg t.channel)
        ((s.actors (actorOf cfg t.channel)).enqueue (cfg.loopOf t.channel) t) k =
        if k = actorOf cfg t.channel then
          (s.actors (actorOf cfg t.channel)).enqueue (cfg.loopOf t.channel) t
        else s.actors k := by
      intro k
      split
      · rename_i hk; rw [hk, Function.update_self]
      · rename_i hk; rw [Function.update_of_ne hk]
    refine { isRun := ?_, inLoop := ?_, mailbox := ?_, current := ?_, dispatching := ?_
             frames := ?_, handlers := ?_ }
    · intro k
      simp only [hactor]
      split
      · exact h.isRun (actorOf cfg t.channel)
      · exact h.isRun k
    · intro k
      simp only [hactor]
      split
      · exact h.inLoop (actorOf cfg t.channel)
      · exact h.inLoop k
    · intro k x hx
      simp only [hactor] at hx
      split at hx
      · rename_i hk
        subst hk
        cases List.mem_append.mp hx with
        | inl hold => exact h.mailbox _ x hold
        | inr hnew =>
          obtain rfl := List.mem_singleton.mp hnew
          exact ⟨rfl, rfl⟩
      · exact h.mailbox k x hx
    · intro k x hx
      simp only [hactor] at hx
      split at hx
      · rename_i hk
        exact hk ▸ h.current (actorOf cfg t.channel) x hx
      · exact h.current k x hx
    · intro l k t' ht'
      by_cases hl : l = cfg.loopOf t.channel
      · subst hl
        exact nomatch (Function.update_self _ _ _).symm.trans ht'
      · exact h.dispatching l k t' ((Function.update_of_ne hl _ _).symm.trans ht')
    · intro c
      rw [h.frames c]
      simp only [queued, inHand, hactor]
      by_cases hc : t.channel = c
      · -- what was in hand is at the end of the mailbox now
        subst hc
        rw [if_pos rfl, Function.update_self, hhand]
        show _ = of t.channel s.invoked ++
          of t.channel (ProducerQueue.of _ (ProducerQueue.enqueue _ t _)) ++ []
        rw [ProducerQueue.of_enqueue_self, of_append, List.append_nil, List.append_assoc]
        rfl
      · -- a task of another connection does not show
        have hmail : of c (ProducerQueue.of (cfg.loopOf c) (if actorOf cfg c = actorOf cfg t.channel
            then (s.actors (actorOf cfg t.channel)).enqueue (cfg.loopOf t.channel) t
            else s.actors (actorOf cfg c)).mailbox) =
            of c (ProducerQueue.of (cfg.loopOf c) (s.actors (actorOf cfg c)).mailbox) := by
          split
          · rename_i hk
            rw [hk]
            show of c (ProducerQueue.of _ (ProducerQueue.enqueue _ t _)) = _
            by_cases hl : cfg.loopOf t.channel = cfg.loopOf c
            · rw [hl, ProducerQueue.of_enqueue_self, of_append, of_cons_of_ne hc, of_nil,
                List.append_nil]
            · rw [ProducerQueue.of_enqueue_of_ne hl]
          · rfl
        have hhand' : of c ((Function.update s.dispatching (cfg.loopOf t.channel) none
            (cfg.loopOf c)).map Prod.snd).toList =
            of c ((s.dispatching (cfg.loopOf c)).map Prod.snd).toList := by
          by_cases hl : cfg.loopOf c = cfg.loopOf t.channel
          · rw [hl, Function.update_self, hhand]
            exact (of_cons_of_ne hc []).symm
          · rw [Function.update_of_ne hl]
        rw [hmail, hhand']
    · intro c
      have hhandlers := h.handlers c
      simp only [running, hactor] at hhandlers ⊢
      split
      · rename_i hk
        rw [hk] at hhandlers
        exact hhandlers
      · exact hhandlers

/-- A task of another actor than the connection's is of another connection. -/
theorem of_current {cfg : GameServerConfig M} {s : GameServer M} (h : Inv cfg s) {actor : Nat}
    {c : ChannelRef} (hne : actorOf cfg c ≠ actor) :
    of c ((s.actors actor).current.map Prod.snd).toList = [] := by
  cases hcur : (s.actors actor).current with
  | none => rfl
  | some x =>
    have hc : x.2.channel ≠ c := by
      rintro rfl
      exact hne (h.current actor x hcur).2.symm
    exact of_cons_of_ne hc []

/-- One step of an actor's thread. -/
theorem Inv.thread {cfg : GameServerConfig M} {s s' : GameServer M} (h : Inv cfg s)
    {actor i : Nat} (hstep : step cfg s (.thread actor i) = some s') : Inv cfg s' := by
  simp only [step] at hstep
  split at hstep
  · exact nomatch hstep
  cases hrun : (s.actors actor).runThread i with
  | none => rw [hrun] at hstep; exact nomatch hstep
  | some res =>
    obtain ⟨a, begun⟩ := res
    rw [hrun] at hstep
    obtain rfl := Option.some.inj hstep
    have hloop := Actor.inLoop_runThread (h.isRun actor) (h.inLoop actor) hrun
    have hother : ∀ k ≠ actor, Function.update s.actors actor a k = s.actors k :=
      fun k hk => Function.update_of_ne hk _ _
    have hself : Function.update s.actors actor a actor = a := Function.update_self _ _ _
    -- every statement about all actors is the old one, or about `a`
    have hall : ∀ {Q : Nat → Actor Nat (HandlerTask M) → Prop}, (∀ k, Q k (s.actors k)) →
        Q actor a → ∀ k, Q k (Function.update s.actors actor a k) := by
      intro Q hold hnew k
      by_cases hk : k = actor
      · subst hk; rw [hself]; exact hnew
      · rw [hother k hk]; exact hold k
    cases Actor.threadStep hrun with
    | finish hr hempty hbox hdrain hend =>
      -- the thread does not leave its loop
      exact absurd ((h.inLoop actor).symm.trans (Actor.inLoop_of_drain hdrain)) (by decide)
    | quiet hr hbox hlook hcur hactive =>
      refine { isRun := hall (Q := fun _ b => b.isRun = true) h.isRun (hr.trans (h.isRun actor))
               inLoop := hall (Q := fun _ b => b.inLoop = true) h.inLoop hloop, mailbox := ?_
               current := ?_, dispatching := h.dispatching
               frames := ?_, handlers := ?_ }
      · exact hall (Q := fun k b => ∀ x ∈ b.mailbox, Belongs cfg k x.1 x.2) h.mailbox
          (fun x hx => h.mailbox actor x (hbox ▸ hx))
      · exact hall (Q := fun k b => ∀ x, b.current = some x → Belongs cfg k x.1 x.2) h.current
          (fun x hx => by rw [hcur] at hx; exact nomatch hx)
      · intro c
        have hmail : (Function.update s.actors actor a (actorOf cfg c)).mailbox =
            (s.actors (actorOf cfg c)).mailbox := by
          by_cases hk : actorOf cfg c = actor
          · rw [hk, hself, hbox]
          · rw [hother _ hk]
        show of c s.arrived =
          of c (s.invoked ++ []) ++
            of c (ProducerQueue.of _ (Function.update s.actors actor a (actorOf cfg c)).mailbox) ++ _
        rw [hmail, List.append_nil]
        exact h.frames c
      · intro c
        show of c (s.invoked ++ []) = of c (s.finished ++ _) ++
          of c ((Function.update s.actors actor a (actorOf cfg c)).current.map Prod.snd).toList
        rw [List.append_nil, of_append, h.handlers c, running]
        by_cases hk : actorOf cfg c = actor
        · -- the handler that was running has ended
          rw [hk, hself, hcur]
          exact (List.append_nil _).symm
        · rw [hother _ hk, of_current h hk, List.append_nil]
    | begin task j hr hbox hlook hidle hcur hactive =>
      obtain ⟨loop, t⟩ := task
      obtain ⟨hmem, hsub⟩ := ProducerQueue.mem_of_dequeue hbox
      have hbelongs : Belongs cfg actor loop t := h.mailbox actor _ hmem
      refine { isRun := hall (Q := fun _ b => b.isRun = true) h.isRun (hr.trans (h.isRun actor))
               inLoop := hall (Q := fun _ b => b.inLoop = true) h.inLoop hloop, mailbox := ?_
               current := ?_, dispatching := h.dispatching
               frames := ?_, handlers := ?_ }
      · exact hall (Q := fun k b => ∀ x ∈ b.mailbox, Belongs cfg k x.1 x.2) h.mailbox
          (fun x hx => h.mailbox actor x (hsub x hx))
      · apply hall (Q := fun k b => ∀ x, b.current = some x → Belongs cfg k x.1 x.2) h.current
        intro x hx
        rw [hcur] at hx
        obtain rfl := Option.some.inj hx
        exact hbelongs
      · intro c
        show of c s.arrived = of c (s.invoked ++ [t]) ++
          of c (ProducerQueue.of _ (Function.update s.actors actor a (actorOf cfg c)).mailbox) ++ _
        rw [h.frames c, of_append]
        congr 1
        rw [List.append_assoc]
        congr 1
        by_cases hc : t.channel = c
        · -- the task was the first of its connection
          subst hc
          obtain ⟨rfl, rfl⟩ := hbelongs
          rw [hself, queued, ProducerQueue.of_dequeue_self hbox, of_cons_self rfl,
            of_cons_self rfl]
          rfl
        · rw [of_cons_of_ne hc, of_nil, List.nil_append, queued]
          by_cases hk : actorOf cfg c = actor
          · rw [hk, hself]
            by_cases hl : loop = cfg.loopOf c
            · subst hl
              rw [ProducerQueue.of_dequeue_self hbox, of_cons_of_ne hc]
            · rw [ProducerQueue.of_dequeue_of_ne hl hbox]
          · rw [hother _ hk]
      · intro c
        show of c (s.invoked ++ [t]) = of c (s.finished ++ _) ++
          of c ((Function.update s.actors actor a (actorOf cfg c)).current.map Prod.snd).toList
        rw [hidle, of_append, h.handlers c, running]
        show _ = of c (s.finished ++ []) ++ _
        rw [List.append_nil, List.append_assoc]
        congr 1
        by_cases hk : actorOf cfg c = actor
        · -- nothing was running
          rw [hk, hself, hidle, hcur]
          rfl
        · have hc : t.channel ≠ c := by
            rintro rfl
            exact hk hbelongs.2.symm
          rw [hother _ hk, of_cons_of_ne hc, of_nil, List.append_nil]

/-- Every step keeps the frames of each connection in order. -/
theorem inv_step {cfg : GameServerConfig M} (hn : 1 ≤ cfg.logicActors) (s : GameServer M)
    (a : GameServerAct) (s' : GameServer M) (h : Inv cfg s) (hstep : step cfg s a = some s') :
    Inv cfg s' := by
  cases a with
  | onMsg channel channelLive buff => exact h.onMsg hn hstep
  | enqueue loop => exact h.enqueue hstep
  | thread actor i => exact h.thread hstep

/-- In every run the frames of each connection are in order. -/
theorem inv_run {cfg : GameServerConfig M} (hn : 1 ≤ cfg.logicActors) {acts : List GameServerAct}
    {s : GameServer M} (hrun : Run.run (step cfg) init acts = some s) : Inv cfg s :=
  Run.invariant (inv_step hn) (inv_init cfg) hrun

/-- The frames of a connection are handled in order.  For any connections, any assignment
    of them to loops, any addresses, at least one logic actor, and any interleaving of
    the loop threads and the actors' threads:

    - the handlers invoked for a connection are those of its first frames, in order
    - all of them have ended but the last, which may be running
    - when nothing of the connection is queued or being dispatched, the handlers of all
      its frames have been invoked
    - the thread of every actor can go on -/
theorem handled_in_order (cfg : GameServerConfig M) (hn : 1 ≤ cfg.logicActors)
    {acts : List GameServerAct} {s : GameServer M}
    (hrun : Run.run (step cfg) init acts = some s) (c : ChannelRef) :
    of c s.invoked <+: of c s.arrived ∧
    (∃ last : Option (HandlerTask M), of c s.invoked = of c s.finished ++ last.toList) ∧
    (s.queued cfg c = [] → s.inHand cfg c = [] → of c s.invoked = of c s.arrived) ∧
    ∀ actor, ∃ i, ((s.actors actor).runThread i).isSome = true := by
  have h := inv_run hn hrun
  refine ⟨⟨s.queued cfg c ++ s.inHand cfg c, ?_⟩, ?_, ?_, ?_⟩
  · rw [h.frames c, List.append_assoc]
  · have hrunning : ∃ last : Option (HandlerTask M), s.running cfg c = last.toList := by
      rw [running]
      cases (s.actors (actorOf cfg c)).current with
      | none => exact ⟨none, rfl⟩
      | some x =>
        by_cases hc : x.2.channel = c
        · exact ⟨some x.2, of_cons_self hc []⟩
        · exact ⟨none, of_cons_of_ne hc []⟩
    obtain ⟨last, hlast⟩ := hrunning
    exact ⟨last, by rw [h.handlers c, hlast]⟩
  · intro hqueued hhand
    rw [h.frames c, hqueued, hhand, List.append_nil, List.append_nil]
  · intro actor
    exact Actor.runThread_isSome (Actor.looks_of_inLoop (h.inLoop actor))

/-- Two connections of two loops and two actors; the address of the first is negative as
    an `int`.  Every message id is known and every body is its own message. -/
def twoConnections : GameServerConfig (List UInt8) where
  loopOf := id
  address c := if c = 1 then 0x7fff80000008 else 0x7fff00000010
  protoMode _ := .INNER
  findMsgFunction _ := some { ParseFromArray := some }
  logicActors := 2

/-- The empty id and player fields of an INNER frame with the body `[b]`. -/
def oneByteFrame (b : UInt8) : List UInt8 :=
  [0, 0, 0, 13, 0, 0, 0, 1, 0, 0, 0, 0, 65, 84, 72, 65, b]

/-- The frames of the first connection, with one of the second in between. -/
theorem handled_in_order_twoConnections :
    ∃ s, Run.run (step twoConnections) init
        [.onMsg 1 true (oneByteFrame 5), .onMsg 2 true (oneByteFrame 6), .enqueue 1,
          .onMsg 1 true (oneByteFrame 7), .enqueue 2, .enqueue 1, .thread 0 0, .thread 0 1,
          .thread 0 0, .thread 0 0, .thread 0 0, .thread 0 0, .thread 0 0, .thread 0 0] = some s ∧
      (of 1 s.arrived).map HandlerTask.msg = [[5], [7]] ∧ of 1 s.invoked = of 1 s.arrived := by
  have hend : (Run.run (step twoConnections) init
      [.onMsg 1 true (oneByteFrame 5), .onMsg 2 true (oneByteFrame 6), .enqueue 1,
        .onMsg 1 true (oneByteFrame 7), .enqueue 2, .enqueue 1, .thread 0 0, .thread 0 1,
        .thread 0 0, .thread 0 0, .thread 0 0, .thread 0 0, .thread 0 0, .thread 0 0]).map
      (fun s => ((of 1 s.arrived).map HandlerTask.msg, s.queued twoConnections 1,
        s.inHand twoConnections 1)) = some ([[5], [7]], [], []) := by decide
  obtain ⟨s, hrun, hs⟩ := Option.map_eq_some_iff.mp hend
  simp only [Prod.mk.injEq] at hs
  obtain ⟨harrived, hqueued, hhand⟩ := hs
  exact ⟨s, hrun, harrived,
    (handled_in_order twoConnections (by decide) hrun 1).2.2.1 hqueued hhand⟩

end Athena.GameServer
