import Mathlib.Logic.Function.Basic
import Athena.ForStd.ProducerQueue

/-!
# Waking the event loop (`transport/EventLoop.h`, `EventLoop.cpp`)

The same loop as in `Native/EventLoop`, seen as its queue, its two atomics and its async
handles: a call of `executeOnEventLoop` is four steps (the push, the load of `stopping_`,
the load of `asyncs_inited_`, `uv_async_send`), which come in between those of the loop
thread.  The loop thread makes such calls too, in its callbacks and tasks.

Of `uv_async_send` the code relies on this: the callback is called after it, and sends
that come before the callback coalesce.  `uv_async_accept` and `uv_async_connect` are
never sent.

`seq`, `skipped` and `drained` are accounts that the code does not keep.
-/

namespace Athena

/-- A thread that calls `executeOnEventLoop`. -/
inductive WakeCaller (P : Type) where
  | other (p : P)
  /-- the loop thread -/
  | loop
  deriving DecidableEq, Repr

/-- Where a call of `executeOnEventLoop` is; `n` is its number. -/
inductive WakePc where
  | idle
  | pushed (n : Nat)
  /-- `stopping_` was false -/
  | stopTested (n : Nat)
  /-- `asyncs_inited_` was true -/
  | initTested (n : Nat)
  deriving DecidableEq, Repr

/-- The call that is under way. -/
def WakePc.call : WakePc → Option Nat
  | .idle => none
  | .pushed n => some n
  | .stopTested n => some n
  | .initTested n => some n

/-- What comes after an `execute` of the loop thread. -/
inductive AfterExecute where
  /-- back to `uv_run` -/
  | poll
  /-- in `onStopTriggered`: closing the async handles -/
  | close
  /-- in `doRun` behind `uv_run` -/
  | finish
  deriving DecidableEq, Repr

/-- Where the loop thread is. -/
inductive ReactorPc where
  | created
  /-- in `initAsynEvent`, of whose calls to libuv `n` have succeeded -/
  | init (n : Nat)
  | failed
  /-- `asyncs_inited_` is set; `doRun` up to `uv_run` -/
  | inited
  /-- waiting in `uv_run` -/
  | poll
  /-- in a callback of `uv_run` that is not one of an async handle -/
  | callback
  /-- in the loop of `execute` -/
  | execute (next : AfterExecute)
  /-- in a task, or in `onStopTriggered` up to its `execute` -/
  | task (next : AfterExecute)
  /-- the async handles are closed -/
  | closed
  | ended
  deriving DecidableEq, Repr

/-- The loop thread is behind `initAsynEvent`. -/
def ReactorPc.started : ReactorPc → Bool
  | .created => false
  | .init _ => false
  | .failed => false
  | _ => true

/-- The loop thread is going to take tasks until there are none. -/
def ReactorPc.drains : ReactorPc → Bool
  | .execute _ => true
  | .task _ => true
  | _ => false

/-- The loop thread runs code that may call `executeOnEventLoop`. -/
def ReactorPc.calls : ReactorPc → Bool
  | .callback => true
  | .task _ => true
  | .closed => true
  | _ => false

/-- An event loop and the calls to it. -/
structure LoopWake (P T : Type) where
  /-- a task with its call and the number of the call -/
  waitTasks : List (WakeCaller P × (Nat × T))
  stopping_ : Bool
  asyncs_inited_ : Bool
  /-- `uv_async_write` has been sent and its callback not been called -/
  writeSent : Bool
  stopSent : Bool
  /-- a `stop` has set `stopping_` and not come to its send -/
  stopper : Bool
  loop : ReactorPc
  pc : WakeCaller P → WakePc
  seq : Nat
  /-- the calls that found `asyncs_inited_` false -/
  skipped : List Nat
  /-- a callback of `uv_async_write` has emptied the queue -/
  drained : Bool

inductive WakeAct (P T : Type) where
  /-- `executeOnEventLoop`: the push -/
  | push (c : WakeCaller P) (task : T)
  /-- the next step of the call -/
  | advance (c : WakeCaller P)
  /-- `stop`: the exchange of `stopping_` -/
  | stop
  /-- `stop`: the test of `asyncs_inited_` and the send -/
  | sendStop
  /-- `start`: the thread is made -/
  | start
  /-- the next step of `initAsynEvent` -/
  | initAsynEvent (ok : Bool)
  | uvRun
  /-- the callback of `uv_async_write` -/
  | asyncWrite
  /-- the callback of `uv_async_stop` -/
  | asyncStop
  /-- another callback -/
  | callback
  | callbackReturns
  /-- `pop` in `execute` -/
  | pop (i : Nat)
  | taskReturns
  | uvRunReturns
  deriving DecidableEq, Repr

namespace LoopWake

variable {P T : Type} [DecidableEq P]

def init : LoopWake P T :=
  { waitTasks := [], stopping_ := false, asyncs_inited_ := false, writeSent := false
    stopSent := false, stopper := false, loop := .created, pc := fun _ => .idle, seq := 0
    skipped := [], drained := false }

/-- The thread can call: the loop thread while it runs such code. -/
def mayCall (s : LoopWake P T) : WakeCaller P → Bool
  | .other _ => true
  | .loop => s.loop.calls

/-- The push of `executeOnEventLoop`. -/
def push (s : LoopWake P T) (c : WakeCaller P) (task : T) : LoopWake P T :=
  { s with
    waitTasks := ProducerQueue.enqueue c (s.seq, task) s.waitTasks
    pc := Function.update s.pc c (.pushed s.seq)
    seq := s.seq + 1 }

/-- `wakeAsync`, a step at a time. -/
def wakeAsync (s : LoopWake P T) (c : WakeCaller P) : Option (LoopWake P T) :=
  match s.pc c with
  | .idle => none
  | .pushed n =>
    -- a loop that stops empties the queue by itself
    if s.stopping_ then some { s with pc := Function.update s.pc c .idle }
    else some { s with pc := Function.update s.pc c (.stopTested n) }
  | .stopTested n =>
    if s.asyncs_inited_ then some { s with pc := Function.update s.pc c (.initTested n) }
    -- the async handle is not there yet: nothing is sent, the task stays queued
    else some { s with pc := Function.update s.pc c .idle, skipped := n :: s.skipped }
  | .initTested _ => some { s with pc := Function.update s.pc c .idle, writeSent := true }

/-- `execute` has found no task. -/
def executed (s : LoopWake P T) : AfterExecute → LoopWake P T
  | .poll => { s with loop := .poll, drained := true }
  | .close => { s with loop := .closed }
  | .finish => { s with loop := .ended }

/-- A step of the loop thread. -/
def loopStep (s : LoopWake P T) : WakeAct P T → Option (LoopWake P T)
  | .initAsynEvent ok =>
    match s.loop with
    | .init n =>
      -- `uv_loop_init` and four times `uv_async_init`
      if n < 5 then some { s with loop := if ok then .init (n + 1) else .failed }
      else some { s with loop := .inited, asyncs_inited_ := true }
    | _ => none
  | .uvRun => if s.loop = .inited then some { s with loop := .poll } else none
  | .asyncWrite =>
    if s.loop = .poll && s.writeSent then
      some { s with loop := .execute .poll, writeSent := false }
    else none
  | .asyncStop =>
    if s.loop = .poll && s.stopSent then some { s with loop := .task .close, stopSent := false }
    else none
  | .callback => if s.loop = .poll then some { s with loop := .callback } else none
  | .callbackReturns => if s.loop = .callback then some { s with loop := .poll } else none
  | .pop i =>
    match s.loop with
    | .execute next =>
      if s.waitTasks.isEmpty then some (s.executed next)
      else
        match ProducerQueue.dequeue i s.waitTasks with
        | none => none
        | some (_, rest) => some { s with waitTasks := rest, loop := .task next }
    | _ => none
  | .taskReturns =>
    match s.loop with
    | .task next => some { s with loop := .execute next }
    | _ => none
  | .uvRunReturns => if s.loop = .closed then some { s with loop := .execute .finish } else none
  | _ => none

def step (s : LoopWake P T) : WakeAct P T → Option (LoopWake P T)
  | .push c task => if s.pc c = .idle && s.mayCall c then some (s.push c task) else none
  | .advance c => s.wakeAsync c
  | .stop => some { s with stopping_ := true, stopper := s.stopper || !s.stopping_ }
  | .sendStop =>
    if s.stopper then
      some { s with stopper := false, stopSent := s.stopSent || s.asyncs_inited_ }
    else none
  | .start => if s.loop = .created then some { s with loop := .init 0 } else none
  | a => if s.pc .loop = .idle then s.loopStep a else none

/-- The loop thread waits in `uv_run`, no async handle has been sent and no stop has been
    requested. -/
def Quiet (s : LoopWake P T) : Prop :=
  s.loop = .poll ∧ s.writeSent = false ∧ s.stopSent = false ∧ s.stopping_ = false

instance (s : LoopWake P T) : Decidable s.Quiet :=
  inferInstanceAs (Decidable (_ ∧ _ ∧ _ ∧ _))

end LoopWake

end Athena
