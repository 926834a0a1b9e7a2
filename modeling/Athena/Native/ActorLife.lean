import Mathlib.Logic.Function.Basic
import Athena.Native.Actor

/-!
# Starting, stopping and using an actor (`core/actor/Actor.h`, `Actor.cpp`)

Producer threads call `execute`, which tests `_isRun` and then enqueues; these are two
steps.  One thread, the owner, calls `start` and `stop`, any number of times (both touch
the `std::thread` member without a lock).  `start` sets the flag and then makes the
thread, which may fail; `stop` clears the flag and then joins the thread.  A further
`stop` that finds the flag cleared returns at once and does nothing.

`accepted` and `begun` are accounts that the code does not keep: the closures for which
`execute` returned true, and those that have begun to run.
-/

namespace Athena

/-- Where the owner is. -/
inductive OwnerPc where
  | idle
  /-- in `start`, with the flag set and no thread yet -/
  | creating
  /-- in `stop`, with the flag cleared, waiting for the thread -/
  | joining
  deriving DecidableEq, Repr

/-- An actor with its owner and its producers. -/
structure ActorLife (P T : Type) where
  actor : Actor P T
  owner : OwnerPc
  /-- the producer has found the actor running and is going to enqueue -/
  checked : P → Option T
  accepted : List (P × T)
  begun : List (P × T)

inductive ActorAct (P T : Type) where
  /-- `execute`: the test of `isRunning` -/
  | check (p : P) (task : T)
  /-- `execute`: the enqueue, which returns true -/
  | enqueue (p : P)
  | start
  /-- `start`: the thread is made, or making it throws -/
  | create (ok : Bool)
  | stop
  | join
  /-- one step of the actor's thread -/
  | thread (i : Nat)
  deriving DecidableEq, Repr

namespace ActorLife

variable {P T : Type} [DecidableEq P]

def init : ActorLife P T :=
  { actor := .new, owner := .idle, checked := fun _ => none, accepted := [], begun := [] }

def step (s : ActorLife P T) : ActorAct P T → Option (ActorLife P T)
  | .check p task =>
    match s.checked p with
    | some _ => none
    | none =>
      if s.actor.isRun then some { s with checked := Function.update s.checked p (some task) }
      else some s
  | .enqueue p =>
    match s.checked p with
    | none => none
    | some task =>
      some { s with
        actor := s.actor.enqueue p task
        checked := Function.update s.checked p none
        accepted := ProducerQueue.enqueue p task s.accepted }
  | .start =>
    if s.owner = .idle then
      if s.actor.isRun then some s
      else some { s with actor := { s.actor with isRun := true }, owner := .creating }
    else none
  | .create ok =>
    if s.owner = .creating then
      if ok then some { s with actor := { s.actor with thread := .loop }, owner := .idle }
      else some { s with actor := { s.actor with isRun := false }, owner := .idle }
    else none
  | .stop =>
    if s.owner = .idle then
      if s.actor.isRun then some { s with actor := { s.actor with isRun := false }, owner := .joining }
      else some s
    else none
  | .join =>
    if s.owner = .joining ∧ s.actor.looks = false then
      some { s with actor := { s.actor with thread := .none }, owner := .idle }
    else none
  | .thread i =>
    match s.actor.runThread i with
    | none => none
    | some (a, begun) => some { s with actor := a, begun := s.begun ++ begun.toList }

/-- Neither running nor being stopped: `stop` has returned, or there was no `start`. -/
def Stopped (s : ActorLife P T) : Prop :=
  s.owner = .idle ∧ s.actor.isRun = false

end ActorLife

end Athena
