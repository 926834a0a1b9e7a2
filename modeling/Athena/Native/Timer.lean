import Athena.Native.Heap

/-!
# Timers (`core/common/Timer.h`, `.cpp`)

All armed timers are in `gRootHeap`, which is ordered by `m_time`; a timer that is not armed
has `m_time` 0.  A timer is named by the address of its node, and `timers` has those that
have been constructed and not destroyed: the `user` of a node is NULL for the others.

`Timer::update` runs callbacks in the middle of its loop, and a callback may do everything
that other code may do, call `update` too.  The system takes one step for each call and for
each pass through the loop; `frames` are the calls of `update` that have not come back, the
innermost first.  What `XTime::iclock` reports is an argument of the step.
-/

namespace Athena

/-- The function object of a timer. -/
abbrev TimerCallback := Nat

structure Timer where
  m_time : UInt32
  m_repeat : UInt32
  m_cb : Option TimerCallback
  deriving DecidableEq, Repr

/-- A call of `Timer::update`: its `i`, and the timer whose callback it is in. -/
structure UpdateFrame where
  i : Nat
  running : Option HeapRef
  deriving DecidableEq, Repr

structure TimerSystem where
  gRootHeap : Heap
  timers : HeapRef → Option Timer
  frames : List UpdateFrame

inductive TimerAction where
  | construct (t : HeapRef)
  | destroy (t : HeapRef)
  | start (t : HeapRef) (cb : TimerCallback) (timeout repeat_ : UInt64) (iclock : UInt32)
  | stop (t : HeapRef)
  /-- `Timer::update` is called. -/
  | update
  /-- A pass through its loop; the clock is read again where a timer is armed again. -/
  | loop (iclock iclock' : UInt32)
  /-- A callback comes back. -/
  | ret
  deriving DecidableEq, Repr

namespace TimerSystem

def init (node : HeapRef → HeapNode) : TimerSystem :=
  { gRootHeap := .heapInit node, timers := fun _ => none, frames := [] }

def setTimer (timers : HeapRef → Option Timer) (t : HeapRef) (timer : Option Timer) :
    HeapRef → Option Timer :=
  fun u => if u = t then timer else timers u

/-- `Timer::compare_fn`. -/
def compareFn (timers : HeapRef → Option Timer) : HeapCompareFn := fun a b =>
  match timers a, timers b with
  | some timerA, some timerB => some (timerA.m_time < timerB.m_time)
  | _, _ => none

/-- `Timer::Timer`. -/
def construct (s : TimerSystem) (t : HeapRef) : Option TimerSystem :=
  some { s with timers := setTimer s.timers t (some { m_time := 0, m_repeat := 0, m_cb := none }) }

/-- `Timer::start`. -/
def start (s : TimerSystem) (t : HeapRef) (cb : TimerCallback) (timeout repeat_ : UInt64)
    (iclock : UInt32) : Option TimerSystem :=
  match s.timers t with
  | none => none
  | some _ =>
    let timers := setTimer s.timers t (some
      { m_time := (timeout + iclock.toUInt64).toUInt32, m_repeat := repeat_.toUInt32,
        m_cb := some cb })
    (s.gRootHeap.heapInsert t (compareFn timers)).map fun heap =>
      { s with gRootHeap := heap, timers := timers }

/-- `Timer::stop`. -/
def stop (s : TimerSystem) (t : HeapRef) : Option TimerSystem :=
  match s.timers t with
  | none => none
  | some timer =>
    if timer.m_time = 0 then some s
    else
      let timers := setTimer s.timers t (some { timer with m_time := 0 })
      (s.gRootHeap.heapRemove t (compareFn timers)).map fun heap =>
        { s with gRootHeap := heap, timers := timers }

/-- `Timer::~Timer`: `user` is NULL while the timer is stopped. -/
def destroy (s : TimerSystem) (t : HeapRef) : Option TimerSystem :=
  match s.timers t with
  | none => none
  | some timer =>
    let timers := setTimer s.timers t none
    if timer.m_time = 0 then some { s with timers := timers }
    else
      (s.gRootHeap.heapRemove t (compareFn timers)).map fun heap =>
        { s with gRootHeap := heap, timers := timers }

/-- The timer that is due is taken out, and armed again if it is a repeating one. -/
def expire (s : TimerSystem) (t : HeapRef) (timer : Timer) (iclock' : UInt32) :
    Option TimerSystem :=
  match s.gRootHeap.heapRemove t (compareFn s.timers) with
  | none => none
  | some heap =>
    if timer.m_repeat > 0 then
      let timers := setTimer s.timers t (some { timer with m_time := timer.m_repeat + iclock' })
      (heap.heapInsert t (compareFn timers)).map fun heap =>
        { s with gRootHeap := heap, timers := timers }
    else
      some { s with
        gRootHeap := heap
        timers := setTimer s.timers t (some { timer with m_time := 0 }) }

/-- One pass through the loop of `Timer::update`, up to the call of the callback. -/
def loop (s : TimerSystem) (frame : UpdateFrame) (frames : List UpdateFrame)
    (iclock iclock' : UInt32) : Option TimerSystem :=
  if frame.i < 10 then
    match s.gRootHeap.heapMin with
    | none => some { s with frames := frames }
    | some node =>
      match s.timers node with
      | none => none
      | some timer =>
        if iclock ≥ timer.m_time then
          (s.expire node timer iclock').map fun s =>
            { s with frames := { i := frame.i + 1, running := some node } :: frames }
        else some { s with frames := frames }
  else some { s with frames := frames }

def step (s : TimerSystem) : TimerAction → Option TimerSystem
  | .construct t => s.construct t
  | .destroy t => s.destroy t
  | .start t cb timeout repeat_ iclock => s.start t cb timeout repeat_ iclock
  | .stop t => s.stop t
  | .update => some { s with frames := { i := 0, running := none } :: s.frames }
  | .loop iclock iclock' =>
    match s.frames with
    | frame :: frames => s.loop frame frames iclock iclock'
    | [] => none
  | .ret =>
    match s.frames with
    | frame :: frames => some { s with frames := { frame with running := none } :: frames }
    | [] => none

end TimerSystem

end Athena
