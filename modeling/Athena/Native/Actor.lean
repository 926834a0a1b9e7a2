import Athena.ForStd.ProducerQueue

/-!
# Actors (`core/actor/Actor.h`, `Actor.cpp`)

An actor is a flag, a mailbox and a thread.  The mailbox is a `moodycamel` queue: the
closures of one producer thread come out in the order they went in, those of different
producers in any order, and `try_dequeue` fails only when the queue is empty.

A step is what happens between two accesses to shared data.  `runThread` is one step of
the actor's thread; a closure runs from the step that takes it out of the mailbox to the
next step of the thread.  A closure that throws `std::exception` ends like one that
returns: the `catch` of `run` only logs.  `onStart` and `onStop` are empty, and the
pauses of an idle thread are not modelled.
-/

namespace Athena

/-- What the thread of an actor does next in `Actor::run`. -/
inductive ActorThread (P T : Type) where
  /-- there is no thread -/
  | none
  /-- the test of `_isRun` -/
  | loop
  /-- `try_dequeue` in the loop -/
  | poll
  /-- `onMessage` of a closure, in the loop or in the final drain -/
  | message (draining : Bool) (task : P × T)
  /-- `try_dequeue` behind the loop -/
  | drain
  /-- `run` has returned -/
  | ended
  deriving DecidableEq, Repr

/-- `core::actor::Actor`, with closures of type `T` from producers of type `P`. -/
structure Actor (P T : Type) where
  isRun : Bool
  mailbox : List (P × T)
  thread : ActorThread P T

namespace Actor

variable {P T : Type} [DecidableEq P]

/-- A new actor, not started. -/
def new : Actor P T :=
  { isRun := false, mailbox := [], thread := .none }

/-- The enqueue of `execute`, by the producer `p`. -/
def enqueue (p : P) (task : T) (a : Actor P T) : Actor P T :=
  { a with mailbox := ProducerQueue.enqueue p task a.mailbox }

/-- `try_dequeue` at the element `i`, and what the thread does next. -/
def tryDequeue (i : Nat) (draining : Bool) (empty : ActorThread P T) (a : Actor P T) :
    Option (Actor P T × Option (P × T)) :=
  if a.mailbox.isEmpty then some ({ a with thread := empty }, none)
  else
    match ProducerQueue.dequeue i a.mailbox with
    | none => none
    | some (task, rest) =>
      some ({ a with mailbox := rest, thread := .message draining task }, some task)

/-- One step of the actor's thread, with the closure that begins to run. -/
def runThread (i : Nat) (a : Actor P T) : Option (Actor P T × Option (P × T)) :=
  match a.thread with
  | .none => none
  | .loop => some ({ a with thread := if a.isRun then .poll else .drain }, none)
  | .poll => a.tryDequeue i false .loop
  | .message draining _ => some ({ a with thread := if draining then .drain else .loop }, none)
  | .drain => a.tryDequeue i true .ended
  | .ended => none

/-- The closure that is running. -/
def current (a : Actor P T) : Option (P × T) :=
  match a.thread with
  | .message _ task => some task
  | _ => none

/-- The thread is going to look at the mailbox again. -/
def looks (a : Actor P T) : Bool :=
  match a.thread with
  | .none => false
  | .ended => false
  | _ => true

/-- The thread is in the loop of `run`, not in the final drain. -/
def inLoop (a : Actor P T) : Bool :=
  match a.thread with
  | .loop => true
  | .poll => true
  | .message draining _ => !draining
  | _ => false

omit [DecidableEq P] in
/-- An actor without a thread looks at no mailbox, -/
theorem looks_of_none {a : Actor P T} (h : a.thread = .none) : a.looks = false := by
  rw [looks, h]

omit [DecidableEq P] in
/-- and runs no task. -/
theorem current_of_none {a : Actor P T} (h : a.thread = .none) : a.current = none := by
  rw [current, h]

omit [DecidableEq P] in
/-- A thread that drains has left the loop of `run`. -/
theorem inLoop_of_drain {a : Actor P T} (h : a.thread = .drain) : a.inLoop = false := by
  rw [inLoop, h]

omit [DecidableEq P] in
/-- Only a thread looks at the mailbox. -/
theorem thread_ne_none {a : Actor P T} (h : a.looks = true) : a.thread ≠ .none := by
  intro hnone
  rw [looks_of_none hnone] at h
  exact absurd h Bool.false_ne_true

/-- What a step of the thread can be. -/
inductive ThreadStep (a a' : Actor P T) : Option (P × T) → Prop where
  /-- it goes on, and leaves the mailbox alone -/
  | quiet (hrun : a'.isRun = a.isRun) (hbox : a'.mailbox = a.mailbox) (hlook : a'.looks = true)
      (hcur : a'.current = none) (hactive : a.looks = true) : ThreadStep a a' none
  /-- a closure is taken out of the mailbox and begins to run -/
  | begin (task : P × T) (i : Nat) (hrun : a'.isRun = a.isRun)
      (hbox : ProducerQueue.dequeue i a.mailbox = some (task, a'.mailbox))
      (hlook : a'.looks = true) (hidle : a.current = none) (hcur : a'.current = some task)
      (hactive : a.looks = true) : ThreadStep a a' (some task)
  /-- the final drain finds the mailbox empty -/
  | finish (hrun : a'.isRun = a.isRun) (hempty : a.mailbox = []) (hbox : a'.mailbox = [])
      (hdrain : a.thread = .drain) (hend : a'.thread = .ended) : ThreadStep a a' none

/-- `try_dequeue` finds the mailbox empty, or it begins a task. -/
theorem tryDequeue_cases {i : Nat} {draining : Bool} {empty : ActorThread P T}
    {a a' : Actor P T} {begun : Option (P × T)}
    (h : a.tryDequeue i draining empty = some (a', begun)) :
    (a.mailbox = [] ∧ a' = { a with thread := empty } ∧ begun = none) ∨
      ∃ task rest, ProducerQueue.dequeue i a.mailbox = some (task, rest) ∧
        a' = { a with mailbox := rest, thread := .message draining task } ∧ begun = some task := by
  rw [tryDequeue] at h
  split at h
  · rename_i hempty
    obtain ⟨rfl, rfl⟩ := Prod.mk.inj (Option.some.inj h)
    exact .inl ⟨List.isEmpty_iff.mp hempty, rfl, rfl⟩
  · cases hdeq : ProducerQueue.dequeue i a.mailbox with
    | none => rw [hdeq] at h; exact nomatch h
    | some x =>
      rw [hdeq] at h
      obtain ⟨rfl, rfl⟩ := Prod.mk.inj (Option.some.inj h)
      exact .inr ⟨x.1, x.2, rfl, rfl, rfl⟩

/-- Every step of the thread is one of these. -/
theorem threadStep {i : Nat} {a a' : Actor P T} {begun : Option (P × T)}
    (h : a.runThread i = some (a', begun)) : ThreadStep a a' begun := by
  rw [runThread] at h
  cases hpc : a.thread with
  | none => rw [hpc] at h; exact nomatch h
  | ended => rw [hpc] at h; exact nomatch h
  -- a read of the flag changes the place only
  | loop =>
    rw [hpc] at h
    obtain ⟨rfl, rfl⟩ := Prod.mk.inj (Option.some.inj h)
    refine .quiet rfl rfl ?_ ?_ ?_
    · cases hr : a.isRun <;> simp [looks]
    · cases hr : a.isRun <;> simp [current]
    · simp [looks, hpc]
  | message draining task =>
    rw [hpc] at h
    obtain ⟨rfl, rfl⟩ := Prod.mk.inj (Option.some.inj h)
    refine .quiet rfl rfl ?_ ?_ ?_
    · cases draining <;> rfl
    · cases draining <;> rfl
    · simp [looks, hpc]
  | poll =>
    rw [hpc] at h
    -- an empty queue sends the thread back, a task is begun
    cases tryDequeue_cases h with
    | inl hempty =>
      obtain ⟨-, rfl, rfl⟩ := hempty
      exact .quiet rfl rfl rfl rfl (by simp [looks, hpc])
    | inr htask =>
      obtain ⟨task, rest, hdeq, rfl, rfl⟩ := htask
      exact .begin task i rfl hdeq rfl (by simp [current, hpc]) rfl (by simp [looks, hpc])
  | drain =>
    rw [hpc] at h
    cases tryDequeue_cases h with
    | inl hempty =>
      obtain ⟨hbox, rfl, rfl⟩ := hempty
      exact .finish rfl hbox hbox hpc rfl
    | inr htask =>
      obtain ⟨task, rest, hdeq, rfl, rfl⟩ := htask
      exact .begin task i rfl hdeq rfl (by simp [current, hpc]) rfl (by simp [looks, hpc])

omit [DecidableEq P] in
/-- A thread in the loop of `run` will look at the mailbox again. -/
theorem looks_of_inLoop {a : Actor P T} (h : a.inLoop = true) : a.looks = true := by
  rw [inLoop] at h
  rw [looks]
  cases hpc : a.thread <;> simp_all

/-- Only a thread takes steps, and not after its end. -/
theorem looks_of_runThread {i : Nat} {a a' : Actor P T} {begun : Option (P × T)}
    (h : a.runThread i = some (a', begun)) : a.looks = true := by
  cases threadStep h with
  | quiet _ _ _ _ hactive => exact hactive
  | begin task j _ _ _ _ _ hactive => exact hactive
  | finish _ _ _ hdrain _ => simp [looks, hdrain]

/-- The actor's own thread does not set the flag. -/
theorem isRun_runThread {i : Nat} {a a' : Actor P T} {begun : Option (P × T)}
    (h : a.runThread i = some (a', begun)) : a'.isRun = a.isRun := by
  cases threadStep h with
  | quiet hrun => exact hrun
  | begin task j hrun => exact hrun
  | finish hrun => exact hrun

/-- The thread does not vanish. -/
theorem thread_runThread {i : Nat} {a a' : Actor P T} {begun : Option (P × T)}
    (h : a.runThread i = some (a', begun)) : a'.thread ≠ .none := by
  cases threadStep h with
  | quiet _ _ hlook => exact thread_ne_none hlook
  | begin task j _ _ hlook => exact thread_ne_none hlook
  | finish _ _ _ _ hend => rw [hend]; exact nofun

/-- What begins to run was the first of its producer in the mailbox. -/
theorem of_runThread {i : Nat} {a a' : Actor P T} {begun : Option (P × T)} {before : List (P × T)}
    (h : a.runThread i = some (a', begun)) (p : P) :
    ProducerQueue.of p before ++ ProducerQueue.of p a.mailbox =
      ProducerQueue.of p (before ++ begun.toList) ++ ProducerQueue.of p a'.mailbox := by
  rw [ProducerQueue.of_append, List.append_assoc]
  congr 1
  cases threadStep h with
  | quiet _ hbox => rw [hbox]; rfl
  | begin task j _ hbox => exact ProducerQueue.of_dequeue hbox p
  | finish _ hempty hbox => rw [hempty, hbox]; rfl

/-- While the flag is set the thread stays in its loop. -/
theorem inLoop_runThread {i : Nat} {a a' : Actor P T} {begun : Option (P × T)}
    (hrun : a.isRun = true) (hloop : a.inLoop = true) (h : a.runThread i = some (a', begun)) :
    a'.inLoop = true := by
  rw [runThread] at h
  cases hpc : a.thread with
  | none => rw [hpc] at h; exact nomatch h
  | ended => rw [hpc] at h; exact nomatch h
  | drain => simp [inLoop, hpc] at hloop
  | loop =>
    rw [hpc] at h
    obtain ⟨rfl, -⟩ := Prod.mk.inj (Option.some.inj h)
    simp [inLoop, hrun]
  | message draining task =>
    rw [hpc] at h
    obtain ⟨rfl, -⟩ := Prod.mk.inj (Option.some.inj h)
    simp only [inLoop, hpc, Bool.not_eq_true'] at hloop
    simp [inLoop, hloop]
  | poll =>
    rw [hpc] at h
    rcases tryDequeue_cases h with ⟨-, rfl, -⟩ | ⟨task, rest, -, rfl, -⟩ <;> rfl

/-- A thread that has not ended can take a step. -/
theorem runThread_isSome {a : Actor P T} (h : a.looks = true) :
    ∃ i, (a.runThread i).isSome = true := by
  refine ⟨0, ?_⟩
  have htry : ∀ draining empty, (a.tryDequeue 0 draining empty).isSome = true := by
    intro draining empty
    cases hbox : a.mailbox with
    | nil => simp [tryDequeue, hbox]
    | cons x rest => simp [tryDequeue, hbox, ProducerQueue.dequeue_zero]
  rw [runThread]
  cases hpc : a.thread with
  | none => simp [looks, hpc] at h
  | ended => simp [looks, hpc] at h
  | loop => rfl
  | message draining task => rfl
  | poll => exact htry _ _
  | drain => exact htry _ _

end Actor

end Athena
