import Mathlib.Data.Nat.ModEq

/-!
# The boss loop (`transport/ServerEventLoop.cpp`)

The boss accepts the connections and hands each to a worker: `uv_write2` on the session
pipe of the worker takes the handle of the client along.  `next_worker_` goes round the
workers.  What libuv returns is an input; the boss's own copy of a handle that was handed
over is closed by `after_handoff_cb`.
-/

namespace Athena

/-- A handle of libuv. -/
abbrev HandleRef := Nat

/-- What the boss does with the handle of a client. -/
inductive HandoffEvent where
  /-- `uv_write2` to the session of the worker, and what it returns -/
  | uv_write2 (worker : Nat) (client : HandleRef) (ret : Int)
  | uv_close (client : HandleRef)
  deriving DecidableEq, Repr

/-- `ServerEventLoop`; `sessions_` has an entry for each of the `worker_num_` workers. -/
structure ServerEventLoop where
  sessions : List (Option HandleRef)
  next_worker : Nat
  next_worker_lt : next_worker < sessions.length

namespace ServerEventLoop

/-- `initIpcServers`, for one worker and more. -/
def init (worker_num : Nat) (h : 0 < worker_num) : ServerEventLoop :=
  { sessions := List.replicate worker_num none
    next_worker := 0
    next_worker_lt := by rwa [List.length_replicate] }

/-- `sessions_[next_worker_]`. -/
def session (self : ServerEventLoop) : Option HandleRef :=
  self.sessions.get ⟨self.next_worker, self.next_worker_lt⟩

/-- `next_worker_ = (next_worker_ + 1) % worker_num_`. -/
def advance (self : ServerEventLoop) : ServerEventLoop :=
  { self with
    next_worker := (self.next_worker + 1) % self.sessions.length
    next_worker_lt := Nat.mod_lt _ (Nat.zero_lt_of_lt self.next_worker_lt) }

/-- The loop of `handoffToWorker` with this many tries left; `uv_write2` is what the call
    returns for a worker. -/
def tryWorkers (uv_write2 : Nat → Int) (client : HandleRef) :
    Nat → ServerEventLoop → ServerEventLoop × List HandoffEvent
  | 0, self => (self, [.uv_close client])
  | tries + 1, self =>
    match self.session with
    | none => tryWorkers uv_write2 client tries self.advance
    | some _ =>
      let ret := uv_write2 self.next_worker
      if ret = 0 then (self.advance, [.uv_write2 self.next_worker client ret])
      -- `break`
      else (self.advance, [.uv_write2 self.next_worker client ret, .uv_close client])

def handoffToWorker (self : ServerEventLoop) (uv_write2 : Nat → Int) (client : HandleRef) :
    ServerEventLoop × List HandoffEvent :=
  self.tryWorkers uv_write2 client self.sessions.length

/-- `after_handoff_cb`, whatever the status is. -/
def after_handoff_cb (client : HandleRef) : List HandoffEvent := [.uv_close client]

/-- What libuv answers to an accept. -/
structure AcceptResults where
  status : Int
  uv_tcp_init : Int
  uv_accept : Int
  uv_write2 : Nat → Int

/-- `uv_on_new_connection`, with the new handle of the client. -/
def uv_on_new_connection (self : ServerEventLoop) (r : AcceptResults) (client : HandleRef) :
    ServerEventLoop × List HandoffEvent :=
  if r.status < 0 then (self, [])
  else if r.uv_tcp_init ≠ 0 then (self, [])
  else if r.uv_accept ≠ 0 then (self, [.uv_close client])
  else self.handoffToWorker r.uv_write2 client

/-- `uv_on_pipe_connection` on the pipe of a worker, with the new session. -/
def uv_on_pipe_connection (self : ServerEventLoop) (status uv_pipe_init uv_accept : Int)
    (idx : Nat) (session : HandleRef) : ServerEventLoop :=
  if status < 0 ∨ uv_pipe_init ≠ 0 ∨ uv_accept ≠ 0 then self
  else
    { self with
      sessions := self.sessions.set idx (some session)
      next_worker_lt := by rw [List.length_set]; exact self.next_worker_lt }

/-- A run of accepts: every connection with what libuv answers. -/
def accepts (self : ServerEventLoop) :
    List (AcceptResults × HandleRef) → ServerEventLoop × List HandoffEvent
  | [] => (self, [])
  | (r, client) :: rest =>
    let next := self.uv_on_new_connection r client
    ((next.1.accepts rest).1, next.2 ++ (next.1.accepts rest).2)

end ServerEventLoop

end Athena
