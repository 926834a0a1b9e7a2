import Athena.ForStd.Run
import Athena.Native.ActorLife

/-!
# Accepted closures are executed

What a producer has had accepted is, in order, what has begun to run and what is in the
mailbox.  The mailbox is empty when the final drain ends, so that nothing is left behind
if nobody enqueues after that.  A producer that tested `_isRun` before `stop` cleared it
may do so: `execute` then returns true for a closure that no thread looks at.

## Key results

- `ActorLife.begun_in_order`: closures of a producer run in order, each at most once
- `ActorLife.accepted_executed`: all have run when `stop` returns, if every enqueue comes
  before the end of the final drain
- `ActorLife.accepted_lost`: otherwise not
-/

namespace Athena.ActorLife

variable {P T : Type} [DecidableEq P]

/-- What begins to run was the first of its producer in the mailbox. -/
structure Accounts (s : ActorLife P T) : Prop where
  fifo : ∀ p, ProducerQueue.of p s.accepted =
    ProducerQueue.of p s.begun ++ ProducerQueue.of p s.actor.mailbox

/-- A new actor has nothing to do. -/
theorem accounts_init : Accounts (init : ActorLife P T) where
  fifo _ := rfl

/-- Every step keeps the account. -/
theorem accounts_step (s : ActorLife P T) (a : ActorAct P T) (s' : ActorLife P T)
    (h : Accounts s) (hstep : step s a = some s') : Accounts s' := by
  cases a with
  | check p task =>
    simp only [step] at hstep
    split at hstep
    · exact nomatch hstep
    · split at hstep <;> obtain rfl := Option.some.inj hstep <;> exact ⟨h.fifo⟩
  | enqueue p =>
    simp only [step] at hstep
    split at hstep
    · exact nomatch hstep
    · rename_i task _
      -- only the producer that enqueues gets a longer sequence
      obtain rfl := Option.some.inj hstep
      refine ⟨fun q => ?_⟩
      exact ProducerQueue.of_enqueue_eq (h.fifo q)
  | start =>
    simp only [step] at hstep
    split at hstep
    · split at hstep <;> obtain rfl := Option.some.inj hstep <;> exact ⟨h.fifo⟩
    · exact nomatch hstep
  | create ok =>
    simp only [step] at hstep
    split at hstep
    · split at hstep <;> obtain rfl := Option.some.inj hstep <;> exact ⟨h.fifo⟩
    · exact nomatch hstep
  | stop =>
    simp only [step] at hstep
    split at hstep
    · split at hstep <;> obtain rfl := Option.some.inj hstep <;> exact ⟨h.fifo⟩
    · exact nomatch hstep
  | join =>
    simp only [step] at hstep
    split at hstep
    · obtain rfl := Option.some.inj hstep
      exact ⟨h.fifo⟩
    · exact nomatch hstep
  | thread i =>
    simp only [step] at hstep
    cases hrun : s.actor.runThread i with
    | none => rw [hrun] at hstep; exact nomatch hstep
    | some res =>
      obtain ⟨a, begun⟩ := res
      rw [hrun] at hstep
      obtain rfl := Option.some.inj hstep
      refine ⟨fun q => ?_⟩
      -- what is begun comes off the front of the mailbox
      show ProducerQueue.of q s.accepted =
        ProducerQueue.of q (s.begun ++ begun.toList) ++ ProducerQueue.of q a.mailbox
      rw [h.fifo]
      exact Actor.of_runThread hrun q

/-- In every interleaving the closures of a producer run in the order in which they were
    accepted, and none runs twice. -/
theorem begun_in_order {acts : List (ActorAct P T)} {s : ActorLife P T}
    (hrun : Run.run step init acts = some s) (p : P) :
    ProducerQueue.of p s.begun <+: ProducerQueue.of p s.accepted :=
  ⟨_, ((Run.invariant accounts_step accounts_init hrun).fifo p).symm⟩

/-- The condition on a step: an enqueue comes while the actor's thread is going to look
    at the mailbox again, and making the thread does not fail with closures in it. -/
def inTime (s : ActorLife P T) : ActorAct P T → Bool
  | .enqueue _ => s.actor.looks || s.owner = .creating
  | .create ok => ok || s.actor.mailbox.isEmpty
  | _ => true

/-- Where the thread can be, and that it leaves nothing behind. -/
structure Inv (s : ActorLife P T) : Prop where
  accounts : Accounts s
  creating : s.owner = .creating → s.actor.thread = .none ∧ s.actor.isRun = true
  joining : s.owner = .joining → s.actor.isRun = false ∧ s.actor.thread ≠ .none
  stopped : s.Stopped → s.actor.thread = .none
  running : s.owner = .idle → s.actor.isRun = true → s.actor.looks = true
  ended : s.actor.isRun = true → s.actor.thread ≠ .none → s.actor.inLoop = true
  /-- nobody is left behind -/
  empty : s.actor.looks = false → s.owner ≠ .creating → s.actor.mailbox = []

/-- It holds of a new actor. -/
theorem inv_init : Inv (init : ActorLife P T) where
  accounts := accounts_init
  creating h := nomatch h
  joining h := nomatch h
  stopped _ := rfl
  running _ h := nomatch h
  ended h := nomatch h
  empty _ _ := rfl

/-- The thread is made, or `start` fails and leaves an actor without one. -/
theorem inv_create {s s' : ActorLife P T} {ok : Bool} (h : Inv s)
    (hok : s.inTime (.create ok) = true) (hstep : step s (.create ok) = some s') : Inv s' := by
  have haccounts := accounts_step s _ s' h.accounts hstep
  simp only [step] at hstep
  split at hstep
  · rename_i hcreating
    obtain ⟨hnone, hrun⟩ := h.creating hcreating
    split at hstep
    · obtain rfl := Option.some.inj hstep
      exact { accounts := haccounts
              creating := fun hc => nomatch hc
              joining := fun hj => nomatch hj
              stopped := fun hs => by rw [Stopped, hrun] at hs; exact nomatch hs.2
              running := fun _ _ => rfl
              ended := fun _ _ => rfl
              empty := fun hl => nomatch hl }
    · rename_i hfail
      obtain rfl := Option.some.inj hstep
      simp only [inTime, hfail, Bool.false_or, List.isEmpty_iff] at hok
      exact { accounts := haccounts
              creating := fun hc => nomatch hc
              joining := fun hj => nomatch hj
              stopped := fun _ => hnone
              running := fun _ hr => nomatch hr
              ended := fun hr => nomatch hr
              empty := fun _ _ => hok }
  · exact nomatch hstep

/-- The actor's thread goes on, and takes from the mailbox while there is something. -/
theorem inv_thread {s s' : ActorLife P T} {i : Nat} (h : Inv s)
    (hstep : step s (.thread i) = some s') : Inv s' := by
  have haccounts := accounts_step s _ s' h.accounts hstep
  simp only [step] at hstep
  cases hrun : s.actor.runThread i with
  | none => rw [hrun] at hstep; exact nomatch hstep
  | some res =>
    obtain ⟨a, begun⟩ := res
    rw [hrun] at hstep
    obtain rfl := Option.some.inj hstep
    have hlooks := Actor.looks_of_runThread hrun
    have hflag := Actor.isRun_runThread hrun
    have hthread := Actor.thread_ne_none hlooks
    have hloop : a.isRun = true → a.inLoop = true := by
      intro hr
      rw [hflag] at hr
      exact Actor.inLoop_runThread hr (h.ended hr hthread) hrun
    have hthread' := Actor.thread_runThread hrun
    exact { accounts := haccounts
            creating := fun hc => absurd (h.creating hc).1 hthread
            joining := fun hj => ⟨hflag.trans (h.joining hj).1, hthread'⟩
            stopped := fun hs => absurd (h.stopped ⟨hs.1, hflag.symm.trans hs.2⟩) hthread
            running := fun _ hr => Actor.looks_of_inLoop (hloop hr)
            ended := fun hr _ => hloop hr
            empty := by
              intro hl _
              cases Actor.threadStep hrun with
              | quiet _ _ hlook => exact absurd (hlook.symm.trans hl) (by simp)
              | begin task j _ _ hlook => exact absurd (hlook.symm.trans hl) (by simp)
              | finish _ _ hbox => exact hbox }

/-- One step in time keeps the invariant. -/
theorem inv_step (s : ActorLife P T) (a : ActorAct P T) (s' : ActorLife P T) (h : Inv s)
    (hok : s.inTime a = true) (hstep : step s a = some s') : Inv s' := by
  have haccounts := accounts_step s a s' h.accounts hstep
  cases a with
  | check p task =>
    simp only [step] at hstep
    split at hstep
    · exact nomatch hstep
    · split at hstep <;> obtain rfl := Option.some.inj hstep <;>
        exact { accounts := haccounts, creating := h.creating, joining := h.joining
                stopped := h.stopped, running := h.running, ended := h.ended, empty := h.empty }
  | enqueue p =>
    simp only [step] at hstep
    split at hstep
    · exact nomatch hstep
    · obtain rfl := Option.some.inj hstep
      refine { accounts := haccounts, creating := h.creating, joining := h.joining
               stopped := h.stopped, running := h.running, ended := h.ended, empty := ?_ }
      -- somebody is going to look
      intro hlook howner
      simp only [inTime, Bool.or_eq_true, decide_eq_true_eq] at hok
      cases hok with
      | inl hl => exact absurd (hl.symm.trans hlook) (by simp)
      | inr hc => exact absurd hc howner
  | start =>
    simp only [step] at hstep
    split at hstep
    · rename_i hidle
      split at hstep
      · obtain rfl := Option.some.inj hstep
        exact { accounts := haccounts, creating := h.creating, joining := h.joining
                stopped := h.stopped, running := h.running, ended := h.ended, empty := h.empty }
      · rename_i hrun
        obtain rfl := Option.some.inj hstep
        have hnone := h.stopped ⟨hidle, by simpa using hrun⟩
        exact { accounts := haccounts
                creating := fun _ => ⟨hnone, rfl⟩
                joining := fun hj => nomatch hj
                stopped := fun hs => nomatch hs.1
                running := fun hi => nomatch hi
                ended := fun _ hne => absurd hnone hne
                empty := fun _ hne => absurd rfl hne }
    · exact nomatch hstep
  | create ok => exact inv_create h hok hstep
  | stop =>
    simp only [step] at hstep
    split at hstep
    · rename_i hidle
      split at hstep
      · rename_i hrun
        obtain rfl := Option.some.inj hstep
        have hlook := h.running hidle hrun
        have hthread := Actor.thread_ne_none hlook
        exact { accounts := haccounts
                creating := fun hc => nomatch hc
                joining := fun _ => ⟨rfl, hthread⟩
                stopped := fun hs => nomatch hs.1
                running := fun hi => nomatch hi
                ended := fun hr => nomatch hr
                empty := fun hl _ => absurd (hlook.symm.trans hl) (by simp) }
      · obtain rfl := Option.some.inj hstep
        exact { accounts := haccounts, creating := h.creating, joining := h.joining
                stopped := h.stopped, running := h.running, ended := h.ended, empty := h.empty }
    · exact nomatch hstep
  | join =>
    simp only [step] at hstep
    split at hstep
    · rename_i hjoin
      obtain rfl := Option.some.inj hstep
      obtain ⟨hrun, -⟩ := h.joining hjoin.1
      have hne : s.owner ≠ .creating := by rw [hjoin.1]; exact nofun
      exact { accounts := haccounts
              creating := fun hc => nomatch hc
              joining := fun hj => nomatch hj
              stopped := fun _ => rfl
              running := fun _ hr => by rw [hrun] at hr; exact nomatch hr
              ended := fun hr => by rw [hrun] at hr; exact nomatch hr
              empty := fun _ _ => h.empty hjoin.2 hne }
    · exact nomatch hstep
  | thread i => exact inv_thread h hstep

/-- Accepted means executed.  Any number of producers, any number of starts and stops,
    in any interleaving in which no closure is enqueued after the final drain has found
    the mailbox empty (nor in front of a `start` that fails to make its thread): the
    closures of each producer run in the order in which they were accepted and at most
    once, and when `stop` returns all that were accepted have run and none is running. -/
theorem accepted_executed {acts : List (ActorAct P T)} {s : ActorLife P T}
    (hrun : Run.run step init acts = some s)
    (hok : Run.Meets step (fun s a => s.inTime a = true) init acts) (p : P) :
    ProducerQueue.of p s.begun <+: ProducerQueue.of p s.accepted ∧
    (s.Stopped → ProducerQueue.of p s.begun = ProducerQueue.of p s.accepted ∧
      s.actor.current = none) := by
  refine ⟨begun_in_order hrun p, ?_⟩
  intro hstopped
  have h := Run.invariant_of_meets inv_step inv_init hok hrun
  have hnone := h.stopped hstopped
  have hempty : s.actor.mailbox = [] := by
    apply h.empty
    · exact Actor.looks_of_none hnone
    · rw [hstopped.1]; exact nofun
  constructor
  · rw [h.accounts.fifo p, hempty, ProducerQueue.of_nil, List.append_nil]
  · exact Actor.current_of_none hnone

/-- Two closures of one producer, one of them enqueued while the thread drains. -/
theorem accepted_executed_drain :
    ∃ s, Run.run step (init : ActorLife Nat Nat)
        [.start, .create true, .check 0 10, .enqueue 0, .thread 0, .check 0 11, .stop, .thread 0,
          .thread 0, .thread 0, .enqueue 0, .thread 0, .thread 0, .thread 0, .join] = some s ∧
      ProducerQueue.of 0 s.begun = ProducerQueue.of 0 s.accepted := by
  have hend : (Run.run step (init : ActorLife Nat Nat)
      [.start, .create true, .check 0 10, .enqueue 0, .thread 0, .check 0 11, .stop, .thread 0,
        .thread 0, .thread 0, .enqueue 0, .thread 0, .thread 0, .thread 0, .join]).map
      (fun s => (s.owner, s.actor.isRun)) = some (.idle, false) := by decide
  obtain ⟨s, hrun, hs⟩ := Option.map_eq_some_iff.mp hend
  obtain ⟨howner, hflag⟩ := Prod.mk.inj hs
  exact ⟨s, hrun, ((accepted_executed hrun (by decide) 0).2 ⟨howner, hflag⟩).1⟩

/-- A producer finds the actor running, `stop` clears the flag, the thread drains an
    empty mailbox and is joined, and the producer enqueues: accepted, and not run. -/
theorem accepted_lost :
    ¬∀ (acts : List (ActorAct Nat Nat)) (s : ActorLife Nat Nat),
      Run.run step init acts = some s → ∀ p, s.Stopped →
        ProducerQueue.of p s.begun = ProducerQueue.of p s.accepted := by
  intro hall
  have hend : (Run.run step (init : ActorLife Nat Nat)
      [.start, .create true, .check 0 10, .stop, .thread 0, .thread 0, .join, .enqueue 0]).map
      (fun s => ((s.owner, s.actor.isRun), ProducerQueue.of 0 s.begun,
        ProducerQueue.of 0 s.accepted)) = some ((.idle, false), [], [10]) := by decide
  obtain ⟨s, hrun, hs⟩ := Option.map_eq_some_iff.mp hend
  simp only [Prod.mk.injEq] at hs
  obtain ⟨hstopped, hbegun, haccepted⟩ := hs
  have hlost := hall _ s hrun 0 hstopped
  rw [hbegun, haccepted] at hlost
  exact nomatch hlost

/-- The condition leaves nothing out: an enqueue that comes too late is accepted, and its
    closure has not run when `stop` returns. -/
theorem lost_of_late {s s' : ActorLife P T} {p : P} (h : Inv s)
    (hlate : s.inTime (.enqueue p) = false) (hstep : step s (.enqueue p) = some s') :
    ∃ acts s'', Run.run step s' acts = some s'' ∧ s''.Stopped ∧
      ProducerQueue.of p s''.begun ≠ ProducerQueue.of p s''.accepted := by
  have hfifo := (accounts_step s _ s' h.accounts hstep).fifo p
  simp only [inTime, Bool.or_eq_false_iff, decide_eq_false_iff_not] at hlate
  simp only [step] at hstep
  cases hchecked : s.checked p with
  | none => rw [hchecked] at hstep; exact nomatch hstep
  | some task =>
    rw [hchecked] at hstep
    obtain rfl := Option.some.inj hstep
    have hlost : ProducerQueue.of p s.begun ≠
        ProducerQueue.of p (ProducerQueue.enqueue p task s.accepted) := by
      intro heq
      have hfifo' : ProducerQueue.of p (ProducerQueue.enqueue p task s.accepted) =
          ProducerQueue.of p s.begun ++
            ProducerQueue.of p (ProducerQueue.enqueue p task s.actor.mailbox) := hfifo
      rw [← heq, ProducerQueue.of_enqueue_self] at hfifo'
      have hlen := congrArg List.length hfifo'
      simp at hlen
    have howner : s.owner = .idle ∨ s.owner = .joining := by
      cases hpc : s.owner with
      | idle => exact .inl rfl
      | creating => exact absurd hpc hlate.2
      | joining => exact .inr rfl
    cases howner with
    | inl hidle =>
      have hflag : s.actor.isRun = false := by
        by_contra hrun
        have hlook := h.running hidle (by simpa using hrun)
        rw [hlate.1] at hlook
        exact nomatch hlook
      exact ⟨[], _, rfl, ⟨hidle, hflag⟩, hlost⟩
    | inr hjoining =>
      -- `stop` returns without another step of the thread
      have hlook : (s.actor.enqueue p task).looks = false := hlate.1
      refine ⟨[.join], { s with
        actor := { s.actor.enqueue p task with thread := .none }
        owner := .idle
        checked := Function.update s.checked p none
        accepted := ProducerQueue.enqueue p task s.accepted }, ?_, ?_, hlost⟩
      · simp only [Run.run, step, hjoining, hlook, and_self, if_true]
      · exact ⟨rfl, (h.joining hjoining).1⟩

end Athena.ActorLife
