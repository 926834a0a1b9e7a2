import Mathlib.Logic.Function.Basic
import Athena.ForStd.Block
import Athena.Native.Actor

/-!
# The DB thread pool (`dal/db/DBThreadPool.h`, `DBThreadPool.cpp`)

A DB thread is an actor with a connection.  `DBThreadPool::executeTask` chooses a thread by
the remainder of the hash code, which in C++ has the sign of the hash code, and sends it a
closure that injects the connection into the task and runs it.  `exit` stops the threads one
after the other; `executeTask` is not called any more when it is.  `onStart` has made the
connection before the thread looks at its mailbox, and `onStop` deletes it behind the drain.

`submitted` and `events` are accounts that the code does not keep: the calls of `executeTask`,
by the thread that made them, and what happens to each closure on its DB thread.  After an
access outside the vector of threads (`outside`) nothing more is said.
-/

namespace Athena

/-- What a task does with the database. -/
inductive DBDevice where
  | sql
  | redis
  deriving DecidableEq, Repr

/-- What the calls on a connection return while a task runs. -/
structure DBReply where
  prepare : Int
  execute : Int
  getErrno : Int
  getError : String
  deriving DecidableEq, Repr

/-- `DBSqlTask` and `DBRedisTask`.  A connection is that of a DB thread, and `backfunc` says
    whether there is one. -/
structure DBTask where
  device : DBDevice
  _dbi : Option Nat
  _ret : Int
  _errno : Int
  _error : String
  backfunc : Bool
  deriving DecidableEq, Repr

/-- A call of `backfunc`: the code, and the message if there is an error. -/
abbrev DBCallback := Int × Option String

/-- The methods of a task. -/
inductive DBTaskCall where
  | dbi
  | run
  | complete
  deriving DecidableEq, Repr

namespace DBTask

def dbi (task : DBTask) (thread : Nat) : DBTask := { task with _dbi := some thread }

/-- `run` of both kinds of tasks. -/
def run (task : DBTask) (reply : DBReply) : DBTask :=
  let ret := match task.device with
    | .sql => if 0 ≤ reply.prepare then reply.execute else reply.prepare
    | .redis => reply.execute
  if ret < 0 then { task with _ret := ret, _errno := reply.getErrno, _error := reply.getError }
  else { task with _ret := ret }

/-- `complete` of both kinds of tasks. -/
def complete (task : DBTask) : DBTask × List DBCallback :=
  let str := if task._ret < 0 then some task._error else none
  if task.backfunc then ({ task with backfunc := false }, [(task._errno, str)]) else (task, [])

/-- One of the calls, on a DB thread. -/
def call (task : DBTask) (thread : Nat) (reply : DBReply) : DBTaskCall → DBTask × List DBCallback
  | .dbi => (task.dbi thread, [])
  | .run => (task.run reply, [])
  | .complete => task.complete

end DBTask

/-- The closure of `DBThread::executeTask`. -/
def DBThread.executeTask : List DBTaskCall := [.dbi, .run]

/-- Where `exit` is. -/
inductive PoolExit where
  | running
  /-- before `stop` of a thread -/
  | stopping (i : Nat)
  /-- in `stop` of a thread, with the flag cleared -/
  | joining (i : Nat)
  | done
  deriving DecidableEq, Repr

/-- What happens to the closure of a task. -/
inductive DBEvent where
  | call (c : DBTaskCall)
  | returned
  deriving DecidableEq, Repr

/-- A call of `executeTask` by the caller `P`: the task, and the hash code. -/
abbrev Submission (P T : Type) := P × (T × Int32)

structure DBThreadPool (P T : Type) where
  /-- `_threads.size()` -/
  size : Nat
  threads : Nat → Actor P (T × Int32)
  tasks : T → DBTask
  exit : PoolExit
  outside : Bool
  submitted : List (Submission P T)
  events : Nat → List (Submission P T × DBEvent)
  callbacks : List (T × DBCallback)

inductive DBPoolAct (P T : Type) where
  /-- `executeTask`, with `nullptr` or a task -/
  | executeTask (caller : P) (task : Option T) (threadHashCode : Int32)
  /-- one step of a DB thread; `i` is what `try_dequeue` takes -/
  | thread (t i : Nat) (reply : DBReply)
  | exit
  | stop
  | join
  deriving Repr

namespace DBThreadPool

variable {P T : Type} [DecidableEq P] [DecidableEq T]

/-- `create` on a new pool: `started` says which of the threads start. -/
def create (tasks : T → DBTask) (count : Int32) (started : Nat → Bool) : DBThreadPool P T :=
  { size := ((List.range count.toInt.toNat).filter started).length
    threads := fun _ => { isRun := true, mailbox := [], thread := .loop }
    tasks, exit := .running, outside := false, submitted := [], events := fun _ => []
    callbacks := [] }

/-- `threadHashCode % (int)_threads.size()`. -/
def index (size : Nat) (threadHashCode : Int32) : Int :=
  threadHashCode.toInt.tmod (Block.intLength size)

/-- `Actor::execute`. -/
def execute (caller : P) (closure : T × Int32) (thread : Actor P (T × Int32)) :
    Actor P (T × Int32) :=
  if thread.isRun then thread.enqueue caller closure else thread

/-- The calls of a closure on its task. -/
def perform (s : DBThreadPool P T) (t : Nat) (reply : DBReply) (task : T) :
    List DBTaskCall → DBThreadPool P T
  | [] => s
  | c :: calls =>
    perform
      { s with
        tasks := Function.update s.tasks task ((s.tasks task).call t reply c).1
        callbacks := s.callbacks ++ ((s.tasks task).call t reply c).2.map (task, ·) }
      t reply task calls

/-- A closure begins to run. -/
def beginTask (s : DBThreadPool P T) (t : Nat) (reply : DBReply) :
    Option (Submission P T) → DBThreadPool P T
  | none => s
  | some x => s.perform t reply x.2.1 DBThread.executeTask

/-- What a step of a thread adds to the account of the thread. -/
def account (ends begins : Option (Submission P T)) : List (Submission P T × DBEvent) :=
  ends.toList.map (·, .returned) ++
    begins.toList.flatMap fun x => DBThread.executeTask.map fun c => (x, .call c)

def step (s : DBThreadPool P T) (a : DBPoolAct P T) : Option (DBThreadPool P T) :=
  if s.outside then none
  else
    match a with
    | .executeTask caller task threadHashCode =>
      if s.exit = .running then
        match task with
        | none => some s
        | some task =>
          if s.size = 0 then some s
          else
            let i := index s.size threadHashCode
            let s := { s with submitted := s.submitted ++ [(caller, task, threadHashCode)] }
            if 0 ≤ i ∧ i < s.size then
              some { s with
                threads := Function.update s.threads i.toNat
                  (execute caller (task, threadHashCode) (s.threads i.toNat)) }
            else some { s with outside := true }
      else none
    | .thread t i reply =>
      if t < s.size then
        match (s.threads t).runThread i with
        | none => none
        | some (thread, begins) =>
          some (({ s with
            threads := Function.update s.threads t thread
            events := Function.update s.events t
              (s.events t ++ account (s.threads t).current begins) }).beginTask t reply begins)
      else none
    | .exit => if s.exit = .running then some { s with exit := .stopping 0 } else none
    | .stop =>
      match s.exit with
      | .stopping i =>
        if i < s.size then
          some { s with
            threads := Function.update s.threads i { s.threads i with isRun := false }
            exit := .joining i }
        else some { s with exit := .done }
      | _ => none
    | .join =>
      match s.exit with
      | .joining i =>
        if (s.threads i).looks = false then some { s with exit := .stopping (i + 1) } else none
      | _ => none

end DBThreadPool

end Athena
