import Mathlib.Data.List.Nodup
import Athena.ForStd.Run
import Athena.ForStd.Slots
import Athena.Native.MessagePool

/-!
# Pooled messages are given back

Every object that `parseParam` takes is in the hands of a loop thread, in the mailbox or
the running closure of an actor, released, or dropped, and in one of these places only.
So no object is released twice.  One is dropped when there is no actor, or the actor is
not running, or the handler throws; and one is stuck in a mailbox when its actor has
finished between the test of `isRunning` and the enqueue.

## Key results

- `decodeMsg_refines`: the results of `decodeMsg` are those of the decoder without pools
- `accounted_run`: the account of the objects, in every run
- `released_at_most_once`: no object is released twice
- `pooled_returned_once`: without such a loss every object is released once
-/

namespace Athena

namespace MessagePool

variable {M : Type} {cfg : PoolConfig M} {s s' : MessagePool M}

/-! ## The account -/

/-- The objects in the hands of the loop threads. -/
def hand (cfg : PoolConfig M) (s : MessagePool M) : List Pooled :=
  Slots.all cfg.loops fun loop => (s.dispatching loop).toList.map fun x => x.2.msg

/-- The objects in the mailbox and the running closure of an actor. -/
def msgs (a : Actor Nat PoolTask) : List Pooled :=
  a.mailbox.map (fun x => x.2.msg) ++ a.current.toList.map fun x => x.2.msg

/-- The objects that the actors have. -/
def held (cfg : PoolConfig M) (s : MessagePool M) : List Pooled :=
  Slots.all cfg.logicActors fun actor => msgs (s.actors actor)

/-- Every object that was taken is in one place. -/
structure Accounted (cfg : PoolConfig M) (s : MessagePool M) : Prop where
  count : ∀ t, (s.hand cfg).count t + (s.held cfg).count t + s.released.count t +
    s.dropped.count t = s.taken.count t
  takes : s.taken.map Pooled.take = List.range s.taken.length
  /-- loop threads dispatch to actors of the bucket -/
  target : ∀ loop actor task, s.dispatching loop = some (actor, task) →
    loop < cfg.loops ∧ actor < cfg.logicActors

/-- An object that was taken was taken once. -/
theorem Accounted.count_taken (h : Accounted cfg s) {t : Pooled} (ht : t ∈ s.taken) :
    s.taken.count t = 1 := by
  apply List.count_eq_one_of_mem _ ht
  apply List.Nodup.of_map Pooled.take
  rw [h.takes]
  exact List.nodup_range

/-- The next object has the next number. -/
theorem takes_append (h : s.taken.map Pooled.take = List.range s.taken.length) {t : Pooled}
    (ht : t.take = s.taken.length) :
    (s.taken ++ [t]).map Pooled.take = List.range (s.taken ++ [t]).length := by
  rw [List.map_append, h, List.length_append, List.length_singleton, List.range_succ,
    List.map_singleton, ht]

/-- The closure that a loop thread dispatches changes. -/
theorem count_hand_update (s : MessagePool M) {loop : Nat} (h : loop < cfg.loops)
    (x : Option (Nat × PoolTask)) (t : Pooled) :
    (Slots.all cfg.loops fun l =>
        (Function.update s.dispatching loop x l).toList.map fun x => x.2.msg).count t +
      ((s.dispatching loop).toList.map fun x => x.2.msg).count t =
    (s.hand cfg).count t + (x.toList.map fun x => x.2.msg).count t :=
  Slots.count_all_map_update (fun x => x.toList.map fun x => x.2.msg) s.dispatching x h t

/-- An actor changes. -/
theorem count_held_update (s : MessagePool M) {actor : Nat} (h : actor < cfg.logicActors)
    (a : Actor Nat PoolTask) (t : Pooled) :
    (Slots.all cfg.logicActors fun i => msgs (Function.update s.actors actor a i)).count t +
      (msgs (s.actors actor)).count t =
    (s.held cfg).count t + (msgs a).count t :=
  Slots.count_all_map_update msgs s.actors a h t

/-- A closure goes into the mailbox. -/
theorem count_msgs_enqueue (a : Actor Nat PoolTask) (p : Nat) (task : PoolTask) (t : Pooled) :
    (msgs (a.enqueue p task)).count t = (msgs a).count t + [task.msg].count t := by
  have hcur : (a.enqueue p task).current = a.current := rfl
  rw [msgs, msgs, hcur, Actor.enqueue, ProducerQueue.enqueue]
  simp only [List.map_append, List.map_cons, List.map_nil, List.count_append]
  omega

/-- A step of the thread parts with the closure that ends, if there is one. -/
theorem count_msgs_runThread {i : Nat} {a a' : Actor Nat PoolTask} {begun : Option (Nat × PoolTask)}
    (h : a.runThread i = some (a', begun)) (t : Pooled) :
    (msgs a').count t + (a.current.toList.map fun x => x.2.msg).count t = (msgs a).count t := by
  rw [msgs, msgs, List.count_append, List.count_append]
  cases Actor.threadStep h with
  | quiet _ hbox _ hcur _ =>
    rw [hbox, hcur]
    simp
  | begin task j _ hbox _ hidle hcur _ =>
    -- the mailbox loses what begins to run
    have hdeq := ProducerQueue.count_dequeue hbox (fun x => x.2.msg) t
    rw [hidle, hcur]
    simp only [Option.toList_none, Option.toList_some, List.map_nil, List.map_cons, List.count_nil]
    omega
  | finish _ hempty hbox hdrain hend =>
    have hidle : a.current = none := by rw [Actor.current, hdrain]
    have hcur : a'.current = none := by rw [Actor.current, hend]
    rw [hempty, hbox, hidle, hcur]
    rfl

/-- Nothing has been left behind. -/
structure Served (s : MessagePool M) : Prop where
  dropped : s.dropped = []
  looks : ∀ actor, (s.actors actor).mailbox ≠ [] → (s.actors actor).looks = true

/-- A loop thread has the object, or it is with an actor whose thread will come to it. -/
def InFlight (cfg : PoolConfig M) (s : MessagePool M) (t : Pooled) : Prop :=
  t ∈ s.hand cfg ∨ ∃ actor < cfg.logicActors, (s.actors actor).looks = true ∧
    t ∈ msgs (s.actors actor)

/-- The object is on its way or has been released, exactly once. -/
def ReturnedOnce (cfg : PoolConfig M) (s : MessagePool M) (t : Pooled) : Prop :=
  s.released.count t = 1 ∧ ¬InFlight cfg s t ∨ s.released.count t = 0 ∧ InFlight cfg s t

/-- An actor with a message will come to it. -/
theorem Served.looks_of_msgs (h : Served s) {actor : Nat} {t : Pooled}
    (ht : t ∈ msgs (s.actors actor)) : (s.actors actor).looks = true := by
  cases List.mem_append.mp ht with
  | inl hbox =>
    apply h.looks
    intro hnil
    rw [hnil] at hbox
    exact absurd hbox List.not_mem_nil
  | inr hcur =>
    -- a closure runs in a thread
    cases hthread : (s.actors actor).thread <;> simp_all [Actor.current, Actor.looks]

/-- A message goes to one of the actors. -/
theorem actorOf_lt (h : cfg.logicActors ≠ 0) (channel : ChannelRef) (playerId : Int64) :
    actorOf cfg channel playerId < cfg.logicActors :=
  Nat.mod_lt _ (Nat.pos_of_ne_zero h)

/-! ## Decoding -/

variable [Inhabited M]

/-- The decoder's table, without the pools. -/
def parsers (cfg : PoolConfig M) (msgId : Int32) : Option (MsgFunction M) :=
  (cfg.findMsgFunction msgId).map fun f => { ParseFromArray := f.ParseFromArray }

/-- What `parseParam` did to the state: it leaves it alone, or takes an object and gives it
    back, or takes one and returns it. -/
inductive ParseStep (s s' : MessagePool M) : Option Pooled → Prop where
  | untouched (hs : s' = s) : ParseStep s s' none
  | failed (pools : Nat → ObjectPool M) (t : Pooled) (ht : t.take = s.taken.length)
      (hs : s' = { s with
        pools := pools, taken := s.taken ++ [t], released := s.released ++ [t] }) :
      ParseStep s s' none
  | parsed (pools : Nat → ObjectPool M) (t : Pooled) (ht : t.take = s.taken.length)
      (hs : s' = { s with pools := pools, taken := s.taken ++ [t] }) : ParseStep s s' (some t)

/-- What `parseParam` does to the objects. -/
theorem parseParam_step (s : MessagePool M) (f : PoolFunction M) (body : List UInt8) :
    ParseStep s (s.parseParam f body).2 (s.parseParam f body).1 := by
  rw [parseParam]
  split
  · exact .untouched rfl
  · simp only
    cases f.ParseFromArray body with
    | none => exact .failed _ _ rfl rfl
    | some x => exact .parsed _ _ rfl rfl

/-- The same for `decodeMsg`; an object is returned with `OK`, and only then. -/
theorem decodeMsg_step (cfg : PoolConfig M) (s : MessagePool M) (channelLive : Bool)
    (out : DecodedMsg) :
    ParseStep s (s.decodeMsg cfg channelLive out).2.2 (s.decodeMsg cfg channelLive out).2.1 ∧
      ((s.decodeMsg cfg channelLive out).1 = .OK ↔
        (s.decodeMsg cfg channelLive out).2.1.isSome = true) := by
  rw [decodeMsg]
  cases out.body with
  | none => exact ⟨.untouched rfl, by simp⟩
  | some body =>
    cases cfg.findMsgFunction out.msgId with
    | none => exact ⟨.untouched rfl, by simp⟩
    | some f =>
      simp only
      split
      · exact ⟨.untouched rfl, by simp⟩
      · have hstep := parseParam_step s f body
        cases hparsed : (s.parseParam f body).1 with
        | none =>
          rw [hparsed] at hstep
          exact ⟨hstep, by simp⟩
        | some t =>
          rw [hparsed] at hstep
          exact ⟨hstep, by simp⟩

/-- The result, and the contents of the object, are those of the decoder without pools. -/
theorem decodeMsg_refines (s : MessagePool M) (channelLive : Bool) (out : DecodedMsg) :
    (s.decodeMsg cfg channelLive out).1 =
        (Decoder.decodeMsg (parsers cfg) channelLive out).1 ∧
      (s.decodeMsg cfg channelLive out).2.1.map
          (fun t => ((s.decodeMsg cfg channelLive out).2.2.pools t.pool).objs t.obj) =
        (Decoder.decodeMsg (parsers cfg) channelLive out).2 := by
  rw [decodeMsg, Decoder.decodeMsg, parsers]
  cases out.body with
  | none => exact ⟨rfl, rfl⟩
  | some body =>
    cases cfg.findMsgFunction out.msgId with
    | none => exact ⟨rfl, rfl⟩
    | some f =>
      simp only [Option.map_some]
      cases channelLive with
      | false => simp
      | true =>
        simp only [Bool.not_true, Bool.false_eq_true, if_false, parseParam, MsgFunction.parseParam]
        by_cases hempty : body.length ≤ 0
        · simp [hempty]
        · simp only [if_neg hempty]
          cases f.ParseFromArray body with
          | none => simp
          | some x => simp [fill]

/-- Nothing has been taken yet. -/
theorem accounted_init : Accounted cfg (init : MessagePool M) where
  count t := by
    have hhand : (init : MessagePool M).hand cfg = [] := Slots.all_nil fun _ => rfl
    have hheld : (init : MessagePool M).held cfg = [] := Slots.all_nil fun _ => rfl
    rw [hhand, hheld]
    rfl
  takes := rfl
  target _ _ _ h := absurd h (by simp [init])

/-! ## Steps -/

/-- What `onMsg` can do. -/
inductive OnMsgStep (cfg : PoolConfig M) (loop : Nat) (s s' : MessagePool M) : Prop where
  | untouched (hs : s' = s)
  /-- the body does not parse -/
  | failed (pools : Nat → ObjectPool M) (t : Pooled) (ht : t.take = s.taken.length)
      (hs : s' = { s with
        pools := pools, taken := s.taken ++ [t], released := s.released ++ [t] })
  /-- there is no actor that runs -/
  | lost (pools : Nat → ObjectPool M) (t : Pooled) (ht : t.take = s.taken.length)
      (hs : s' = { s with
        pools := pools, taken := s.taken ++ [t], dropped := s.dropped ++ [t] })
  | dispatched (pools : Nat → ObjectPool M) (actor : Nat) (task : PoolTask)
      (ht : task.msg.take = s.taken.length) (hactor : actor < cfg.logicActors)
      (hs : s' = { s with
        pools := pools, taken := s.taken ++ [task.msg]
        dispatching := Function.update s.dispatching loop (some (actor, task)) })

/-- The closure that `onMsg` makes for an `OK` has nowhere to go. -/
def unserved (cfg : PoolConfig M) (s : MessagePool M) (channel : ChannelRef) (channelLive : Bool)
    (buff : List UInt8) : Bool :=
  let decoded := Decoder.parseHeader (cfg.protoMode channel) (some buff) {}
  (s.decodeMsg cfg channelLive decoded).2.1.isSome &&
    (cfg.logicActors == 0 || !(s.actors (actorOf cfg channel decoded.playerId)).isRun)

/-- `onMsg` goes on with the object, if there is one. -/
theorem onMsg_eq (s : MessagePool M) (loop : Nat) (channel : ChannelRef) (channelLive : Bool)
    (buff : List UInt8) :
    s.onMsg cfg loop channel channelLive buff =
      let decoded := Decoder.parseHeader (cfg.protoMode channel) (some buff) {}
      let result := s.decodeMsg cfg channelLive decoded
      match result.2.1 with
      | none => result.2.2
      | some msg => result.2.2.execute cfg loop
          { playerId := decoded.playerId, channel := channel, msg := msg } := by
  rw [onMsg]
  simp only
  have hok := (decodeMsg_step cfg s channelLive
    (Decoder.parseHeader (cfg.protoMode channel) (some buff) {})).2
  generalize s.decodeMsg cfg channelLive
    (Decoder.parseHeader (cfg.protoMode channel) (some buff) {}) = result at *
  obtain ⟨r, o, s₁⟩ := result
  cases o with
  | none => cases r <;> rfl
  | some t =>
    obtain rfl : r = .OK := hok.mpr rfl
    rfl

/-- What `onMsg` does to the objects, and that it drops none for which an actor runs. -/
theorem onMsg_step (cfg : PoolConfig M) (s : MessagePool M) (loop : Nat) (channel : ChannelRef)
    (channelLive : Bool) (buff : List UInt8) :
    OnMsgStep cfg loop s (s.onMsg cfg loop channel channelLive buff) ∧
      (s.unserved cfg channel channelLive buff = false →
        (s.onMsg cfg loop channel channelLive buff).dropped = s.dropped) := by
  have hstep := (decodeMsg_step cfg s channelLive
    (Decoder.parseHeader (cfg.protoMode channel) (some buff) {})).1
  rw [onMsg_eq, unserved]
  simp only
  generalize Decoder.parseHeader (cfg.protoMode channel) (some buff) {} = decoded at *
  generalize s.decodeMsg cfg channelLive decoded = result at *
  obtain ⟨r, o, s₁⟩ := result
  cases hstep with
  | untouched hs => exact ⟨.untouched hs, fun _ => by rw [hs]⟩
  | failed pools t ht hs => exact ⟨.failed pools t ht hs, fun _ => by rw [hs]⟩
  | parsed pools t ht hs =>
    simp only at hs ⊢
    rw [execute]
    by_cases hempty : cfg.logicActors = 0
    · -- the bucket is empty
      rw [if_pos hempty]
      exact ⟨.lost pools t ht (by rw [hs]; rfl), fun h => absurd h (by simp [hempty])⟩
    · rw [if_neg hempty]
      have hlt := actorOf_lt hempty channel decoded.playerId
      simp only [hs]
      by_cases hrun : (s.actors (actorOf cfg channel decoded.playerId)).isRun = true
      · rw [if_pos hrun]
        exact ⟨.dispatched pools _ _ ht hlt rfl, fun _ => rfl⟩
      · rw [if_neg hrun]
        exact ⟨.lost pools t ht rfl, fun h => absurd h (by simp [hrun])⟩

/-- Every step keeps the account. -/
theorem accounted_step (s : MessagePool M) (a : PoolAct) (s' : MessagePool M)
    (h : Accounted cfg s) (hstep : step cfg s a = some s') : Accounted cfg s' := by
  cases a with
  | onMsg loop channel channelLive buff =>
    simp only [step, Option.ite_none_right_eq_some, Option.some.injEq] at hstep
    obtain ⟨⟨hloop, hidle⟩, hstep⟩ := hstep
    cases hstep ▸ (onMsg_step cfg s loop channel channelLive buff).1 with
    | untouched hs => exact hs ▸ h
    | failed pools t ht hs =>
      subst hs
      refine ⟨fun t' => ?_, takes_append h.takes ht, h.target⟩
      have := h.count t'
      simp only [hand, held, List.count_append] at this ⊢
      omega
    | lost pools t ht hs =>
      subst hs
      refine ⟨fun t' => ?_, takes_append h.takes ht, h.target⟩
      have := h.count t'
      simp only [hand, held, List.count_append] at this ⊢
      omega
    | dispatched pools actor task ht hactor hs =>
      subst hs
      refine ⟨fun t' => ?_, takes_append h.takes ht, fun l b task' hl => ?_⟩
      · have hall := h.count t'
        have hhand := count_hand_update s hloop (some (actor, task)) t'
        rw [Option.isNone_iff_eq_none.mp hidle] at hhand
        simp only [hand, held, List.count_append, Option.toList_some, Option.toList_none,
          List.map_nil, List.map_cons, List.count_nil] at hall hhand ⊢
        omega
      · by_cases heq : l = loop
        · simp only [heq, Function.update_self, Option.some.injEq, Prod.mk.injEq] at hl
          exact ⟨heq ▸ hloop, hl.1 ▸ hactor⟩
        · simp only [Function.update_of_ne heq] at hl
          exact h.target l b task' hl
  | enqueue loop =>
    simp only [step] at hstep
    cases hdisp : s.dispatching loop with
    | none => rw [hdisp] at hstep; exact absurd hstep (by simp)
    | some x =>
      obtain ⟨actor, task⟩ := x
      rw [hdisp] at hstep
      obtain rfl := Option.some.inj hstep
      obtain ⟨hloop, hactor⟩ := h.target loop actor task hdisp
      refine ⟨fun t => ?_, h.takes, fun l b task' hl => ?_⟩
      · have hall := h.count t
        have hhand := count_hand_update s hloop none t
        have hheld := count_held_update s hactor ((s.actors actor).enqueue loop task) t
        have hmsgs := count_msgs_enqueue (s.actors actor) loop task t
        rw [hdisp] at hhand
        simp only [hand, held, Option.toList_some, Option.toList_none, List.map_nil, List.map_cons,
          List.count_nil] at hall hhand hheld ⊢
        omega
      · by_cases heq : l = loop
        · simp [heq] at hl
        · simp only [Function.update_of_ne heq] at hl
          exact h.target l b task' hl
  | thread actor i throws =>
    simp only [step] at hstep
    split at hstep
    · exact absurd hstep (by simp)
    · rename_i hactor
      cases hrun : (s.actors actor).runThread i with
      | none => rw [hrun] at hstep; exact absurd hstep (by simp)
      | some x =>
        obtain ⟨a, begun⟩ := x
        simp only [hrun] at hstep
        have hheld := count_held_update s (Nat.lt_of_not_le hactor) a
        have hmsgs := count_msgs_runThread hrun
        cases hended : (s.actors actor).current with
        | none =>
          simp only [hended, Option.some.injEq] at hstep
          subst hstep
          refine ⟨fun t => ?_, h.takes, h.target⟩
          have hall := h.count t
          have := hheld t
          have := hmsgs t
          simp only [hended, Option.toList_none, List.map_nil, List.count_nil] at this
          simp only [hand, held] at *
          omega
        | some x =>
          obtain ⟨p, task⟩ := x
          simp only [hended, Option.some.injEq] at hstep
          subst hstep
          rw [endTask]
          -- the object is released or dropped
          split <;>
          · refine ⟨fun t => ?_, h.takes, h.target⟩
            have hall := h.count t
            have := hheld t
            have hended' := hmsgs t
            simp only [hended, Option.toList_some, List.map_cons, List.map_nil] at hended'
            simp only [hand, held, release, drop, List.count_append] at *
            omega
  | stop actor =>
    obtain rfl := Option.some.inj hstep
    have hheld : (fun i => msgs (Function.update s.actors actor
        { s.actors actor with isRun := false } i)) = fun i => msgs (s.actors i) := by
      funext i
      by_cases heq : i = actor
      · rw [heq, Function.update_self]
        rfl
      · rw [Function.update_of_ne heq]
    refine ⟨fun t => ?_, h.takes, h.target⟩
    have hall := h.count t
    simp only [hand, held, hheld] at hall ⊢
    exact hall

/-- In every run, every object that was taken is in one place. -/
theorem accounted_run {acts : List PoolAct} (hrun : Run.run (step cfg) init acts = some s) :
    Accounted cfg s :=
  Run.invariant accounted_step accounted_init hrun

/-- No object is released twice, in any run. -/
theorem released_at_most_once {acts : List PoolAct}
    (hrun : Run.run (step cfg) init acts = some s) (t : Pooled) : s.released.count t ≤ 1 := by
  have h := accounted_run hrun
  have hcount := h.count t
  by_cases ht : t ∈ s.taken
  · rw [h.count_taken ht] at hcount
    omega
  · rw [List.count_eq_zero_of_not_mem ht] at hcount
    omega

/-! ## Without losses -/

/-- A step that leaves an object behind: a message for which no actor runs, an enqueue
    behind the final drain of the actor, or a handler that throws. -/
def loses (cfg : PoolConfig M) (s : MessagePool M) : PoolAct → Bool
  | .onMsg _ channel channelLive buff => s.unserved cfg channel channelLive buff
  | .enqueue loop =>
    match s.dispatching loop with
    | none => false
    | some (actor, _) => !(s.actors actor).looks
  | .thread actor _ throws => throws && (s.actors actor).current.isSome
  | .stop _ => false

/-- Nothing has been dropped yet. -/
theorem served_init : Served (init : MessagePool M) where
  dropped := rfl
  looks _ h := absurd rfl h

/-- A step that loses nothing keeps it so. -/
theorem served_step (s : MessagePool M) (a : PoolAct) (s' : MessagePool M) (h : Served s)
    (hok : s.loses cfg a = false) (hstep : step cfg s a = some s') : Served s' := by
  cases a with
  | onMsg loop channel channelLive buff =>
    simp only [step, Option.ite_none_right_eq_some, Option.some.injEq] at hstep
    obtain ⟨-, rfl⟩ := hstep
    obtain ⟨hcases, hdropped⟩ := onMsg_step cfg s loop channel channelLive buff
    have hactors : (s.onMsg cfg loop channel channelLive buff).actors = s.actors := by
      cases hcases with
      | untouched hs => rw [hs]
      | failed pools t _ hs => rw [hs]
      | lost pools t _ hs => rw [hs]
      | dispatched pools actor task _ _ hs => rw [hs]
    refine ⟨(hdropped hok).trans h.dropped, fun actor hne => ?_⟩
    rw [hactors] at hne ⊢
    exact h.looks actor hne
  | enqueue loop =>
    simp only [step] at hstep
    cases hdisp : s.dispatching loop with
    | none => rw [hdisp] at hstep; exact absurd hstep (by simp)
    | some x =>
      obtain ⟨actor, task⟩ := x
      rw [hdisp] at hstep
      obtain rfl := Option.some.inj hstep
      have hlooks : (s.actors actor).looks = true := by simpa [loses, hdisp] using hok
      refine ⟨h.dropped, fun b hne => ?_⟩
      by_cases heq : b = actor
      · simp only [heq, Function.update_self]
        exact hlooks
      · simp only [Function.update_of_ne heq] at hne ⊢
        exact h.looks b hne
  | thread actor i throws =>
    simp only [step] at hstep
    split at hstep
    · exact absurd hstep (by simp)
    · cases hrun : (s.actors actor).runThread i with
      | none => rw [hrun] at hstep; exact absurd hstep (by simp)
      | some x =>
        obtain ⟨a, begun⟩ := x
        simp only [hrun] at hstep
        -- the thread ends with an empty mailbox only
        have hlooks : ∀ b, (Function.update s.actors actor a b).mailbox ≠ [] →
            (Function.update s.actors actor a b).looks = true := by
          intro b hne
          by_cases heq : b = actor
          · rw [heq, Function.update_self] at hne ⊢
            cases Actor.threadStep hrun with
            | quiet _ _ hlook => exact hlook
            | begin task j _ _ hlook => exact hlook
            | finish _ _ hbox => exact absurd hbox hne
          · rw [Function.update_of_ne heq] at hne ⊢
            exact h.looks b hne
        cases hended : (s.actors actor).current with
        | none =>
          simp only [hended, Option.some.injEq] at hstep
          subst hstep
          exact ⟨h.dropped, hlooks⟩
        | some x =>
          simp only [hended, Option.some.injEq] at hstep
          subst hstep
          have hthrows : throws = false := by simpa [loses, hended] using hok
          rw [endTask, hthrows, if_neg Bool.false_ne_true]
          exact ⟨h.dropped, hlooks⟩
  | stop actor =>
    obtain rfl := Option.some.inj hstep
    refine ⟨h.dropped, fun b hne => ?_⟩
    by_cases heq : b = actor
    · simp only [heq, Function.update_self] at hne ⊢
      exact h.looks actor hne
    · simp only [Function.update_of_ne heq] at hne ⊢
      exact h.looks b hne

/-- In every run without losses, every object that was taken is released exactly once or on
    its way to that. -/
theorem pooled_returned_once {acts : List PoolAct}
    (hrun : Run.run (step cfg) init acts = some s)
    (hok : Run.Meets (step cfg) (fun s a => s.loses cfg a = false) init acts) (t : Pooled)
    (ht : t ∈ s.taken) : ReturnedOnce cfg s t := by
  have haccount := accounted_run hrun
  have hserved : Served s := Run.invariant_of_meets served_step served_init hok hrun
  have hcount := haccount.count t
  rw [haccount.count_taken ht, hserved.dropped, List.count_nil] at hcount
  have hflight : InFlight cfg s t ↔ 0 < (s.hand cfg).count t + (s.held cfg).count t := by
    rw [Nat.add_pos_iff_pos_or_pos, List.count_pos_iff, List.count_pos_iff]
    apply or_congr Iff.rfl
    rw [held, Slots.mem_all]
    constructor
    · rintro ⟨actor, hlt, -, hmem⟩
      exact ⟨actor, hlt, hmem⟩
    · rintro ⟨actor, hlt, hmem⟩
      exact ⟨actor, hlt, hserved.looks_of_msgs hmem, hmem⟩
  rw [ReturnedOnce, hflight]
  omega

/-! ## One message -/

/-- One loop thread, one actor and one message type, whose messages are their bytes. -/
def oneActor : PoolConfig (List UInt8) where
  findMsgFunction msgId := if msgId = 7 then some { pool := 0, ParseFromArray := some } else none
  protoMode _ := .INNER
  hashCode _ _ := 0
  loops := 1
  logicActors := 1

/-- A message is read, queued and handled. -/
def oneMessage (throws : Bool) : List PoolAct :=
  [.onMsg 0 1 true [0, 0, 0, 13, 0, 0, 0, 7, 0, 0, 0, 0, 0x41, 0x54, 0x48, 0x41, 5], .enqueue 0,
    .thread 0 0 false, .thread 0 0 false, .thread 0 0 throws]

/-- A message that is handled is returned once. -/
theorem pooled_returned_once_message :
    ∃ s, Run.run (step oneActor) init (oneMessage false) = some s ∧
      ∃ t ∈ s.taken, ReturnedOnce oneActor s t := by
  have hend : (Run.run (step oneActor) init (oneMessage false)).map (fun s => s.taken) =
      some [⟨0, 0, 0⟩] := by decide
  obtain ⟨s, hrun, hs⟩ := Option.map_eq_some_iff.mp hend
  have ht : (⟨0, 0, 0⟩ : Pooled) ∈ s.taken := hs ▸ List.mem_singleton_self _
  exact ⟨s, hrun, _, ht, pooled_returned_once hrun (by decide) _ ht⟩

/-- The handler throws, and the object is neither released nor anywhere. -/
theorem pooled_lost :
    ¬∀ (acts : List PoolAct) (s : MessagePool (List UInt8)),
      Run.run (step oneActor) init acts = some s → ∀ t ∈ s.taken, ReturnedOnce oneActor s t := by
  intro hall
  have hend : (Run.run (step oneActor) init (oneMessage true)).map
      (fun s => (s.taken, s.released, s.hand oneActor, s.held oneActor)) =
        some ([⟨0, 0, 0⟩], [], [], []) := by decide
  obtain ⟨s, hrun, hs⟩ := Option.map_eq_some_iff.mp hend
  simp only [Prod.mk.injEq] at hs
  obtain ⟨htaken, hreleased, hhand, hheld⟩ := hs
  have ht : (⟨0, 0, 0⟩ : Pooled) ∈ s.taken := htaken ▸ List.mem_singleton_self _
  rcases hall _ s hrun _ ht with ⟨hcount, -⟩ | ⟨-, hflight⟩
  · rw [hreleased] at hcount
    exact absurd hcount (by decide)
  · rcases hflight with hmem | ⟨actor, hlt, -, hmem⟩
    · rw [hhand] at hmem
      exact absurd hmem List.not_mem_nil
    · have hmem' : (⟨0, 0, 0⟩ : Pooled) ∈ s.held oneActor := Slots.mem_all.mpr ⟨actor, hlt, hmem⟩
      rw [hheld] at hmem'
      exact absurd hmem' List.not_mem_nil

end MessagePool

end Athena
