import Mathlib.Logic.Function.Basic
import Athena.Native.Actor

/-!
# The registry of actors (`core/actor/ActorSystem.h`, `ActorSystem.cpp`)

Threads call `spawn`, `execute` and `stopAll`, those of the actors too, from the closures
they run.  A step is what happens between two accesses to shared data; `_mutex` is held
from a `Lock` step to the end of the section, and leaving a section is part of its last
step.  An actor is its id: `s_actorIdSeq` gives every new actor another one.  `stopAll`
goes through its `dead` list in any order, as that of the `unordered_map` is not fixed.

`accepted` and `begun` are accounts that the code does not keep.
-/

namespace Athena

/-- A thread that calls the system. -/
inductive Caller (P : Type) where
  | outside (p : P)
  /-- the thread of an actor, in a closure -/
  | onActor (id : Nat)
  deriving DecidableEq, Repr

/-- Where a call of the system is. -/
inductive SystemPc (T : Type) where
  | idle
  | execLock (target : Nat) (task : T)
  /-- `_actors.find`, with the lock -/
  | execFind (target : Nat) (task : T)
  /-- the test of `isRunning`, with the lock -/
  | execCheck (target : Nat) (task : T)
  /-- the enqueue, with the lock -/
  | execEnqueue (target : Nat) (task : T)
  | spawnLock (id : Nat)
  /-- `start`: setting the flag, with the lock -/
  | spawnStart (id : Nat)
  /-- `start`: making the thread, with the lock -/
  | spawnCreate (id : Nat)
  /-- `_actors[a->id()] = a`, with the lock -/
  | spawnInsert (id : Nat)
  | stopLock
  /-- `dead` is filled and `_actors` cleared, with the lock -/
  | stopTake
  /-- the loop over `dead`, of which `rest` is left -/
  | stopNext (dead rest : List Nat)
  /-- `stop` of an actor: waiting for its thread -/
  | stopJoin (id : Nat) (dead rest : List Nat)
  /-- `delete` of an actor -/
  | stopDelete (id : Nat) (dead rest : List Nat)
  deriving DecidableEq, Repr

/-- The lock is held. -/
def SystemPc.critical {T : Type} : SystemPc T → Bool
  | .execFind _ _ => true
  | .execCheck _ _ => true
  | .execEnqueue _ _ => true
  | .spawnStart _ => true
  | .spawnCreate _ => true
  | .spawnInsert _ => true
  | .stopTake => true
  | _ => false

/-- The actors that a `stopAll` has taken out of the map. -/
def SystemPc.dead {T : Type} : SystemPc T → List Nat
  | .stopNext dead _ => dead
  | .stopJoin _ dead _ => dead
  | .stopDelete _ dead _ => dead
  | _ => []

/-- The calls. -/
inductive SystemCall (T : Type) where
  | execute (target : Nat) (task : T)
  | spawn
  | stopAll
  deriving DecidableEq, Repr

/-- `ActorSystem`, with all actors there have been, and the calls of the threads. -/
structure ActorSystem (P T : Type) where
  actors : Nat → Actor (Caller P) T
  /-- the actor has been deleted -/
  deleted : Nat → Bool
  actorIdSeq : Nat
  /-- the keys of `_actors` -/
  registered : List Nat
  /-- the holder of `_mutex` -/
  lock : Option (Caller P)
  pc : Caller P → SystemPc T
  accepted : Nat → List (Caller P × T)
  begun : Nat → List (Caller P × T)

inductive SystemAct (P T : Type) where
  | call (c : Caller P) (what : SystemCall T)
  /-- the next step of a call.  `choice` is the actor that `stopAll` stops next; 0 lets
      the making of a thread fail -/
  | advance (c : Caller P) (choice : Nat)
  /-- one step of an actor's thread -/
  | thread (id : Nat) (i : Nat)
  deriving DecidableEq, Repr

namespace ActorSystem

variable {P T : Type} [DecidableEq P]

def init : ActorSystem P T :=
  { actors := fun _ => .new, deleted := fun _ => false, actorIdSeq := 1, registered := []
    lock := none, pc := fun _ => .idle, accepted := fun _ => [], begun := fun _ => [] }

def goto (s : ActorSystem P T) (c : Caller P) (pc : SystemPc T) : ActorSystem P T :=
  { s with pc := Function.update s.pc c pc }

def setActor (s : ActorSystem P T) (id : Nat) (a : Actor (Caller P) T) : ActorSystem P T :=
  { s with actors := Function.update s.actors id a }

/-- Leave the section and go on. -/
def leave (s : ActorSystem P T) (c : Caller P) (pc : SystemPc T) : ActorSystem P T :=
  { s with lock := none, pc := Function.update s.pc c pc }

/-- Take the lock when it is free. -/
def acquire (s : ActorSystem P T) (c : Caller P) (pc : SystemPc T) : Option (ActorSystem P T) :=
  if s.lock.isNone then some { s with lock := some c, pc := Function.update s.pc c pc } else none

/-- `delete a`. -/
def delete (s : ActorSystem P T) (id : Nat) : ActorSystem P T :=
  { s with deleted := Function.update s.deleted id true }

/-- The enqueue of `Actor::execute`. -/
def enqueue (s : ActorSystem P T) (c : Caller P) (target : Nat) (task : T) : ActorSystem P T :=
  { s.setActor target ((s.actors target).enqueue c task) with
    accepted := Function.update s.accepted target
      (ProducerQueue.enqueue c task (s.accepted target)) }

/-- The next step of the call of `c`. -/
def advance (s : ActorSystem P T) (c : Caller P) (choice : Nat) : Option (ActorSystem P T) :=
  match s.pc c with
  | .idle => none
  | .execLock target task => s.acquire c (.execFind target task)
  | .execFind target task =>
    if target ∈ s.registered then some (s.goto c (.execCheck target task))
    else some (s.leave c .idle)
  | .execCheck target task =>
    if (s.actors target).isRun then some (s.goto c (.execEnqueue target task))
    else some (s.leave c .idle)
  | .execEnqueue target task => some ((s.enqueue c target task).leave c .idle)
  | .spawnLock id => s.acquire c (.spawnStart id)
  | .spawnStart id =>
    if (s.actors id).isRun then some (s.goto c (.spawnInsert id))
    else some ((s.setActor id { s.actors id with isRun := true }).goto c (.spawnCreate id))
  | .spawnCreate id =>
    if choice ≠ 0 then
      some ((s.setActor id { s.actors id with thread := .loop }).goto c (.spawnInsert id))
    else some (((s.setActor id { s.actors id with isRun := false }).delete id).leave c .idle)
  | .spawnInsert id => some ({ s with registered := s.registered ++ [id] }.leave c .idle)
  | .stopLock => s.acquire c .stopTake
  | .stopTake =>
    some ({ s with registered := [] }.leave c (.stopNext s.registered s.registered))
  | .stopNext dead rest =>
    if rest.isEmpty then some (s.goto c .idle)
    else if choice ∈ rest then
      if (s.actors choice).isRun then
        some ((s.setActor choice { s.actors choice with isRun := false }).goto c
          (.stopJoin choice dead (rest.erase choice)))
      else some (s.goto c (.stopDelete choice dead (rest.erase choice)))
    else none
  | .stopJoin id dead rest =>
    -- a thread that would join itself: `join` throws, out of `stopAll`
    if c = .onActor id then some (s.goto c .idle)
    else if (s.actors id).looks then none
    else
      some ((s.setActor id { s.actors id with thread := .none }).goto c (.stopDelete id dead rest))
  | .stopDelete id dead rest => some ((s.delete id).goto c (.stopNext dead rest))

/-- The thread can make a call: that of an actor while it runs a closure. -/
def mayCall (s : ActorSystem P T) : Caller P → Bool
  | .outside _ => true
  | .onActor id => (s.actors id).current.isSome

/-- The thread of the actor is not in a call. -/
def mayRun (s : ActorSystem P T) (id : Nat) : Bool :=
  match s.pc (.onActor id) with
  | .idle => true
  | _ => false

/-- The actor after a step of its thread. -/
def runThread (s : ActorSystem P T) (id : Nat) (i : Nat) : Option (ActorSystem P T) :=
  match (s.actors id).runThread i with
  | none => none
  | some (a, begun) =>
    some { s.setActor id a with
      begun := Function.update s.begun id (s.begun id ++ begun.toList) }

def step (s : ActorSystem P T) : SystemAct P T → Option (ActorSystem P T)
  | .call c what =>
    match s.pc c with
    | .idle =>
      if s.mayCall c then
        match what with
        | .execute target task => some (s.goto c (.execLock target task))
        | .spawn =>
          some ({ s with actorIdSeq := s.actorIdSeq + 1 }.goto c (.spawnLock s.actorIdSeq))
        | .stopAll => some (s.goto c .stopLock)
      else none
    | _ => none
  | .advance c choice => s.advance c choice
  | .thread id i => if s.mayRun id then s.runThread id i else none

end ActorSystem

end Athena
