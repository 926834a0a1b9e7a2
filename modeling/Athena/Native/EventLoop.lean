import Athena.ForStd.UvLoop
import Athena.Native.Channel

/-!
# One reactor (`transport/EventLoop.cpp`, `ServerEventLoop.cpp`)

An `EventLoop` with its channels, its queue and its libuv handles, as a machine whose
steps are the callbacks of the loop thread and the calls of other threads.  A
`ServerEventLoop` is the same machine with `worker_num` pipe servers; an `EventLoop`
that is none has 0.

`close()` has two halves that other threads can get between: whoever sets `closed_`
stands in `closers` until it has looked the channel up and queued `closeInLoop`.  On
the loop thread the halves are one step.  What application handlers do (`on_read`,
`on_closed`, …) are calls like those of any thread, before the next step.  The queue
keeps the order of one producer only, so which task runs next is left open.

What is asked of libuv are the guards of `step`: a callback comes only for what was
started or requested on a handle that is not closed, a closing handle gets its close
callback after the callbacks of its requests, and `uv_run` returns when no handle is
active or closing.  Return values are arguments.  `AthenaTcpServer` calls `connectIpc`
and `startListen` once per loop, so there is no step that initialises their handles a
second time.  `uv_timer_start` of a new timer does not fail.

Not modelled are idle times, the addresses, `ready_workers_` and the condition
variables, and the wake-up handles (a queued task may run at any time while the loop
runs).  `log` records what happens to each channel; the code does not read it.
-/

namespace Athena

open Uv (Loop)

/-- The libuv handles of a reactor.  `session k` and `client k` are the `k`-th objects
    made with `new`, a `client` being a connection that does not become a channel of
    this loop. -/
inductive LoopHandle where
  | uv_async_write
  | uv_async_accept
  | uv_async_connect
  | uv_async_stop
  | ipc_pipe_
  | server_
  | pipe_servers_ (i : Nat)
  | session (k : Nat)
  | client (k : Nat)
  | tcp (c : ChannelRef)
  | heartbeat_timer (c : ChannelRef)
  deriving DecidableEq, Repr

/-- Requests under way on a handle. -/
inductive LoopReq where
  | connect
  | write (req : UvWrite)
  | handoff (client : Nat)
  deriving DecidableEq, Repr

/-- A queued closure. -/
inductive LoopTask where
  | closeInLoop (self : ChannelRef)
  | eventLoopWrite (self : ChannelRef) (msgId : Int32) (msg : Message) (playerId : Int64)
  | eventLoopRawWrite (self : ChannelRef) (msgId : Int32) (body : List UInt8) (playerId : Int64)
  | asyncConnect
  | connectIpc
  | startListen

/-- What libuv and the C library answer in a task, and whether another thread's
    `close()` comes in between (`raced`). -/
structure TaskEnv where
  addrRet : Int := 0
  initRet : Int := 0
  connectRet : Int := 0
  bindRet : Int := 0
  listenRet : Int := 0
  writeRet : Int := 0
  packBuf : Bool := true
  raced : Bool := false

/-- A callback that gets the channel out of its handle or request. -/
inductive ChannelCallback where
  | onConnect
  | onRead
  | onWrite
  | onTimer
  | onTcpClosed
  | onTimerClosed
  deriving DecidableEq, Repr

inductive ChannelEvent where
  | callback (cb : ChannelCallback)
  /-- `closeInLoop` starts -/
  | closeInLoop
  /-- `_netInterface->on_closed(channel)` -/
  | onClosed
  /-- `channels_` drops its `shared_ptr` -/
  | erase
  deriving DecidableEq, Repr

/-- How far the loop thread is. -/
inductive LoopPhase where
  /-- before `run()` -/
  | created
  /-- in `uv_run` -/
  | running
  /-- in `onStopTriggered`, closing the channels of the snapshot -/
  | closingChannels (snapshot : List ChannelRef)
  /-- in `onStopTriggered`, in `execute()` -/
  | draining
  /-- `onStopTriggered` has returned, in `uv_run` -/
  | stopped
  /-- `uv_run` has returned and `uv_walk` is done -/
  | walked
  /-- in the last `execute()` -/
  | lastTasks
  | ended
  /-- `initAsynEvent` failed and the thread is gone -/
  | failed
  deriving DecidableEq, Repr

/-- What is left to do of the task or callback the loop thread is in. -/
inductive LoopPc where
  | ready
  /-- `onNewConnection`, before its `startHeartbeatTimer` -/
  | newConnection (channel : ChannelRef)
  /-- a failed connect, before its `channel->close()` -/
  | connectFailed (channel : ChannelRef)
  deriving DecidableEq, Repr

/-- What a reactor is made with.  `eventTrigger` says that there is one. -/
structure LoopConfig where
  eventTrigger : Bool
  worker_num : Nat
  malloc : Malloc
  realloc : Nat → Bool
  recv_buff_size_ : UInt64
  send_buff_size_ : UInt64
  proto_mode_ : ProtoMode

structure EventLoop where
  uv : Loop LoopHandle LoopReq
  /-- the channels made so far are those below `created` -/
  chans : ChannelRef → Channel
  created : Nat
  /-- `Channel::next_id`, shared by all loops of the process -/
  next_id : UInt32
  channels_ : UInt32 → Option ChannelRef
  waitTasks : List LoopTask
  closers : List ChannelRef
  stopping_ : Bool
  asyncs_inited_ : Bool
  /-- `uv_async_send(&uv_async_stop)` has been called, and its callback not yet -/
  stopSent : Bool
  ipc_inited_ : Bool
  ipc_closing_ : Bool
  listening_ : Bool
  sessions_ : List (Option Nat)
  next_worker_ : Nat
  /-- the number of `session` and `client` objects made -/
  objects : Nat
  phase : LoopPhase
  pc : LoopPc
  log : ChannelRef → List ChannelEvent

/-- The steps. -/
inductive LoopAct where
  /-- another thread's `close()`, up to `closed_.exchange(true)` -/
  | close (c : ChannelRef)
  /-- its rest, for the `i`-th thread that is there -/
  | enqueueClose (i : Nat)
  | sendMsg (c : ChannelRef) (msgId : Int32) (msg : Message) (playerId : Int64)
  | sendRawMsg (c : ChannelRef) (msgId : Int32) (body : List UInt8) (playerId : Int64)
  | asyncConnect
  | connectIpc
  | startListen
  | stop
  /-- channels are made on other loops -/
  | generateId (n : UInt32)
  /-- the thread starts: which `uv_async_init` fails, which pipe server fails and
      whether after its `uv_pipe_init` -/
  | run (asyncFail : Option Nat) (ipcFail : Option (Nat × Bool))
  | runTask (i : Nat) (env : TaskEnv)
  /-- `channel->close()` after a failed connect -/
  | closeFailed
  /-- the end of `onNewConnection`, with what `uv_timer_init` returns -/
  | startHeartbeatTimer (ret : Int)
  | onConnect (c : ChannelRef) (i : Nat) (status : Int)
  /-- a read of bytes, or an error; `byOther` says that another thread is the one that
      set `closed_`, should it become set -/
  | onRead (c : ChannelRef) (input : Except Int (List UInt8)) (closing : Nat → Bool)
      (byOther : Bool) (maxPackBodyLen : Nat)
  | onWrite (c : ChannelRef) (i : Nat) (status ret : Int)
  /-- `closes` says that a handler of the idle event closes the channel -/
  | onTimer (c : ChannelRef) (closes : Bool)
  | ipcConnected (status : Int)
  | ipcError
  | ipcAccept (initRet acceptRet : Int)
  | acceptConnection (initRet acceptRet writeRet : Int)
  | acceptPipe (i : Nat) (initRet acceptRet : Int)
  | afterHandoff (k i : Nat)
  | handleClosed (h : LoopHandle)
  /-- the callback of `uv_async_stop` -/
  | stopTriggered
  | stopClose
  | stopDrained
  | uvRunReturns
  | lastTasks
  | endRun

namespace EventLoop

def init (cfg : LoopConfig) : EventLoop where
  uv := .empty
  chans _ := .new cfg.malloc 0 cfg.recv_buff_size_ cfg.send_buff_size_ cfg.proto_mode_
  created := 0
  next_id := 0
  channels_ _ := none
  waitTasks := []
  closers := []
  stopping_ := false
  asyncs_inited_ := false
  stopSent := false
  ipc_inited_ := false
  ipc_closing_ := false
  listening_ := false
  sessions_ := []
  next_worker_ := 0
  objects := 0
  phase := .created
  pc := .ready
  log _ := []

/-- Record what happens to a channel. -/
def emit (s : EventLoop) (c : ChannelRef) (e : ChannelEvent) : EventLoop :=
  { s with log := Function.update s.log c (s.log c ++ [e]) }

/-! ## The registry -/

/-- `channelPtr`. -/
def channelPtr (s : EventLoop) (c : ChannelRef) : Option ChannelRef :=
  s.channels_ (s.chans c).id

/-- `registerChannel`: an entry under the same id is overwritten. -/
def registerChannel (s : EventLoop) (c : ChannelRef) : EventLoop :=
  -- the `shared_ptr` that is overwritten goes
  let s := match s.channelPtr c with
    | some old => s.emit old .erase
    | none => s
  { s with channels_ := Function.update s.channels_ (s.chans c).id (some c) }

/-- `releaseChannel`. -/
def releaseChannel (s : EventLoop) (c : ChannelRef) : EventLoop :=
  match s.channelPtr c with
  | some found =>
    { s with channels_ := Function.update s.channels_ (s.chans c).id none }.emit found .erase
  | none => s

/-- `std::make_shared<Channel>` and `registerChannel`. -/
def newChannel (cfg : LoopConfig) (s : EventLoop) : EventLoop :=
  -- `generateId`, modulo 2³²
  let id := s.next_id + 1
  let ch := Channel.new cfg.malloc id cfg.recv_buff_size_ cfg.send_buff_size_ cfg.proto_mode_
  { s with
    chans := Function.update s.chans s.created ch
    created := s.created + 1
    next_id := id }.registerChannel s.created

/-! ## Closing a channel -/

/-- `executeOnEventLoop`. -/
def executeOnEventLoop (s : EventLoop) (t : LoopTask) : EventLoop :=
  { s with waitTasks := s.waitTasks ++ [t] }

/-- `Channel::close` after its `exchange`. -/
def enqueueClose (s : EventLoop) (c : ChannelRef) : EventLoop :=
  match s.channelPtr c with
  | none => s
  | some self => s.executeOnEventLoop (.closeInLoop self)

/-- Put back what a function of the channel returned.  If it has set `closed_`, the
    loop thread did, or another thread. -/
def setChannel (s : EventLoop) (c : ChannelRef) (ch : Channel) (byOther : Bool) : EventLoop :=
  let closes := ch.closed_ && !(s.chans c).closed_
  let s := { s with chans := Function.update s.chans c ch }
  if closes then
    -- `close` is called by the thread that sets the flag, and only then
    if byOther then { s with closers := s.closers ++ [c] } else s.enqueueClose c
  else s

/-- `Channel::close`, or its first half on another thread. -/
def close (s : EventLoop) (c : ChannelRef) (byOther : Bool) : EventLoop :=
  s.setChannel c (s.chans c).close byOther

/-- `Channel::closeInLoop`. -/
def closeInLoop (s : EventLoop) (c : ChannelRef) : EventLoop :=
  let s := s.emit c .closeInLoop
  -- `uv_read_stop`, then `uv_close` of both handles
  let s := { s with uv := ((s.uv.stop (.tcp c)).close (.tcp c)).close (.heartbeat_timer c) }
  -- libuv aborts for a timer that was never initialised
  if s.uv.aborted then s else s.emit c .onClosed

/-- The flag that `Channel::onHandleClosed` sets, for the tcp handle or the timer. -/
def setHandleClosed (ch : Channel) (isClient : Bool) : Channel :=
  if isClient then { ch with tcp_closed_ := true } else { ch with timer_closed_ := true }

/-- `Channel::onHandleClosed`. -/
def onHandleClosed (s : EventLoop) (c : ChannelRef) (isClient : Bool) : EventLoop :=
  let ch := setHandleClosed (s.chans c) isClient
  let s := { s with chans := Function.update s.chans c ch }
  if ch.tcp_closed_ && ch.timer_closed_ then s.releaseChannel c else s

/-! ## The tasks -/

/-- Put back what a send function did, and its `uv_write`. -/
def sent (s : EventLoop) (c : ChannelRef) (ch : Channel) (issued : Option UvWrite)
    (byOther : Bool) : EventLoop :=
  let s := s.setChannel c ch byOther
  match issued with
  | none => s
  | some w => { s with uv := s.uv.submit (.tcp c) (.write w) }

/-- The task of `asyncConnect`. -/
def connectTask (cfg : LoopConfig) (env : TaskEnv) (s : EventLoop) : EventLoop :=
  if env.addrRet ≠ 0 then s
  else if env.initRet ≠ 0 then s
  else
    -- the handle is initialised before `uv_tcp_connect` can fail
    let c := s.created
    let s := { s with uv := s.uv.init (.tcp c) }.newChannel cfg
    if env.connectRet ≠ 0 then { s with pc := .connectFailed c }
    else { s with uv := s.uv.submit (.tcp c) .connect }

/-- The task of `connectIpc`. -/
def ipcTask (env : TaskEnv) (s : EventLoop) : EventLoop :=
  if env.initRet ≠ 0 then s
  else
    { s with
      uv := (s.uv.init .ipc_pipe_).submit .ipc_pipe_ .connect
      ipc_inited_ := true }

/-- The task of `startListen`. -/
def listenTask (env : TaskEnv) (s : EventLoop) : EventLoop :=
  if env.initRet ≠ 0 then s
  else
    let s := { s with uv := s.uv.init .server_ }
    if env.addrRet ≠ 0 then s
    else if env.bindRet ≠ 0 then s
    else if env.listenRet ≠ 0 then s
    else { s with uv := s.uv.start .server_, listening_ := true }

/-- `task()`. -/
def perform (cfg : LoopConfig) (env : TaskEnv) (s : EventLoop) : LoopTask → EventLoop
  | .closeInLoop self => s.closeInLoop self
  | .eventLoopWrite self msgId msg playerId =>
    let out := (s.chans self).eventLoopWrite env.packBuf env.raced env.writeRet msgId msg playerId
    s.sent self out.chan out.issued env.raced
  | .eventLoopRawWrite self msgId body playerId =>
    let out := (s.chans self).eventLoopRawWrite env.raced env.writeRet msgId body playerId
    s.sent self out.chan out.issued env.raced
  | .asyncConnect => s.connectTask cfg env
  | .connectIpc => s.ipcTask env
  | .startListen => s.listenTask env

/-- The task initialises a handle that is initialised already. -/
def repeats (s : EventLoop) : LoopTask → Bool
  | .connectIpc => s.uv.handles .ipc_pipe_ != .uninit
  | .startListen => s.uv.handles .server_ != .uninit
  | _ => false

/-! ## Callbacks of a channel -/

/-- `uv_on_connect`, up to its handlers. -/
def uv_on_connect (s : EventLoop) (c : ChannelRef) (i : Nat) (status : Int) : EventLoop :=
  let s := { s with uv := s.uv.complete (.tcp c) i }.emit c (.callback .onConnect)
  -- the failed channel is closed when the callback goes on
  if status < 0 then { s with pc := .connectFailed c }
  else { s with uv := s.uv.start (.tcp c), pc := .newConnection c }

/-- `uv_alloc_cb` and `uv_read_cb`. -/
def uv_read_cb (cfg : LoopConfig) (s : EventLoop) (c : ChannelRef) (input : Except Int (List UInt8))
    (closing : Nat → Bool) (byOther : Bool) (maxPackBodyLen : Nat) : EventLoop :=
  let ch := s.chans c
  let out : Channel.ReadOut := match input with
    | .error nread => ch.uv_alloc_cb.2.uv_read_cb cfg.realloc closing nread maxPackBodyLen
    | .ok bytes => ch.readEvent cfg.realloc closing bytes maxPackBodyLen
  (s.emit c (.callback .onRead)).setChannel c out.chan byOther

/-- The callback of `uv_write`. -/
def uv_write_cb (s : EventLoop) (c : ChannelRef) (i : Nat) (w : UvWrite) (status ret : Int) :
    EventLoop :=
  let out := (s.chans c).onWriteDone status ret w
  ({ s with uv := s.uv.complete (.tcp c) i }.emit c (.callback .onWrite)).sent c out.1 out.2 false

/-- `uv_on_timer`. -/
def uv_on_timer (s : EventLoop) (c : ChannelRef) (closes : Bool) : EventLoop :=
  let s := s.emit c (.callback .onTimer)
  if (s.chans c).closed_ then s
  else if closes then s.close c false
  else s

/-- `startHeartbeatTimer`, which `onNewConnection` calls when there is a trigger. -/
def startHeartbeatTimer (cfg : LoopConfig) (s : EventLoop) (c : ChannelRef) (ret : Int) :
    EventLoop :=
  let s := { s with pc := .ready }
  -- a loop without a trigger has no heartbeats
  if !cfg.eventTrigger then s
  else if ret ≠ 0 then s
  else { s with uv := (s.uv.init (.heartbeat_timer c)).start (.heartbeat_timer c) }

/-- The close callback of a handle.  Those of `uv_walk` have none of their own. -/
def closeCallback (s : EventLoop) (h : LoopHandle) : EventLoop :=
  let s := { s with uv := s.uv.finish h }
  if s.phase = .walked then s
  else
    match h with
    | .tcp c => (s.emit c (.callback .onTcpClosed)).onHandleClosed c true
    | .heartbeat_timer c => (s.emit c (.callback .onTimerClosed)).onHandleClosed c false
    | _ => s

/-! ## Passing connections from the boss to the workers -/

/-- `closeIpcPipe`. -/
def closeIpcPipe (s : EventLoop) : EventLoop :=
  if !s.ipc_inited_ || s.ipc_closing_ then s
  else { s with ipc_closing_ := true, uv := s.uv.close .ipc_pipe_ }

/-- One turn of the loop in `uv_ipc_read_cb`, with `adoptConnection` up to its handlers. -/
def adopt (cfg : LoopConfig) (s : EventLoop) (initRet acceptRet : Int) : EventLoop :=
  if initRet ≠ 0 then s
  -- a client that cannot be accepted is closed at once
  else if acceptRet ≠ 0 then
    { s with
      uv := (s.uv.init (.client s.objects)).close (.client s.objects)
      objects := s.objects + 1 }
  else
    let c := s.created
    let s := { s with uv := s.uv.init (.tcp c) }.newChannel cfg
    { s with uv := s.uv.start (.tcp c), pc := .newConnection c }

/-- `handoffToWorker`, with `tried` turns of its loop to go. -/
def handoffToWorker (s : EventLoop) (writeRet : Int) (client : Nat) : Nat → EventLoop
  | 0 => { s with uv := s.uv.close (.client client) }
  | tried + 1 =>
    let session := (s.sessions_[s.next_worker_]?).join
    let s := { s with next_worker_ := (s.next_worker_ + 1) % s.sessions_.length }
    -- the first session that is there decides, whether its write starts or not
    match session with
    | none => handoffToWorker s writeRet client tried
    | some k =>
      if writeRet = 0 then { s with uv := s.uv.submit (.session k) (.handoff client) }
      else { s with uv := s.uv.close (.client client) }

/-- `uv_on_new_connection`. -/
def uv_on_new_connection (cfg : LoopConfig) (s : EventLoop) (initRet acceptRet writeRet : Int) :
    EventLoop :=
  if initRet ≠ 0 then s
  else
    let client := s.objects
    let s := { s with uv := s.uv.init (.client client), objects := s.objects + 1 }
    if acceptRet ≠ 0 then { s with uv := s.uv.close (.client client) }
    else s.handoffToWorker writeRet client cfg.worker_num

/-- `uv_on_pipe_connection` for the `i`-th pipe server. -/
def uv_on_pipe_connection (s : EventLoop) (i : Nat) (initRet acceptRet : Int) : EventLoop :=
  if initRet ≠ 0 then s
  else
    let session := s.objects
    let s := { s with uv := s.uv.init (.session session), objects := s.objects + 1 }
    if acceptRet ≠ 0 then { s with uv := s.uv.close (.session session) }
    else { s with sessions_ := s.sessions_.set i (some session) }

/-- `after_handoff_cb`. -/
def after_handoff_cb (s : EventLoop) (k i client : Nat) : EventLoop :=
  { s with uv := (s.uv.complete (.session k) i).close (.client client) }

/-! ## Starting and stopping -/

def asyncs : List LoopHandle :=
  [.uv_async_write, .uv_async_accept, .uv_async_connect, .uv_async_stop]

/-- `stop`. -/
def stop (s : EventLoop) : EventLoop :=
  if s.stopping_ then s
  -- without the asyncs there is nobody to signal
  else { s with stopping_ := true, stopSent := s.stopSent || s.asyncs_inited_ }

/-- `initIpcServers` for the workers in the list. -/
def initIpcServers (ipcFail : Option (Nat × Bool)) (uv : Loop LoopHandle LoopReq) :
    List Nat → Loop LoopHandle LoopReq × Bool
  | [] => (uv, true)
  | i :: rest =>
    -- the first failure leaves the rest uninitialised
    if ipcFail = some (i, false) then (uv, false)
    else if ipcFail = some (i, true) then (uv.init (.pipe_servers_ i), false)
    else initIpcServers ipcFail ((uv.init (.pipe_servers_ i)).start (.pipe_servers_ i)) rest

/-- `run`, up to its `uv_run`.  An async handle is active from its initialisation on. -/
def run (cfg : LoopConfig) (s : EventLoop) (asyncFail : Option Nat)
    (ipcFail : Option (Nat × Bool)) : EventLoop :=
  let inited := asyncs.take (asyncFail.getD asyncs.length)
  let s := { s with uv := inited.foldl (fun uv h => (uv.init h).start h) s.uv }
  -- `run` returns before the loop has begun
  if asyncFail.isSome then { s with phase := .failed }
  else
    let (uv, ok) := initIpcServers ipcFail s.uv (List.range cfg.worker_num)
    let s :=
      { s with
        uv := uv
        asyncs_inited_ := true
        sessions_ := List.replicate cfg.worker_num none
        phase := .running }
    -- the stop is handled once `uv_run` has begun
    if ok then s else s.stop

/-- `ServerEventLoop::onStopTriggered` before it calls `EventLoop::onStopTriggered`. -/
def closeServers (cfg : LoopConfig) (s : EventLoop) : Loop LoopHandle LoopReq :=
  let uv := if s.listening_ then Loop.closeUnlessClosing s.uv .server_ else s.uv
  let uv := ((List.range cfg.worker_num).map LoopHandle.pipe_servers_).foldl Loop.closeUnlessClosing uv
  (s.sessions_.filterMap (Option.map LoopHandle.session)).foldl Loop.closeUnlessClosing uv

/-- The channels in `channels_`. -/
def snapshot (s : EventLoop) : List ChannelRef :=
  (List.range s.created).filter fun c => s.channelPtr c = some c

/-- `onStopTriggered`, up to its snapshot of the channels. -/
def onStopTriggered (cfg : LoopConfig) (s : EventLoop) : EventLoop :=
  let s := { s with stopSent := false, uv := s.closeServers cfg }.closeIpcPipe
  { s with phase := .closingChannels s.snapshot }

/-! ## Steps -/

/-- The loop thread can call back. -/
def inUvRun (s : EventLoop) : Bool :=
  s.pc = .ready && (s.phase = .running || s.phase = .stopped)

/-- The loop thread can take a task. -/
def executing (s : EventLoop) : Bool :=
  s.pc = .ready && (s.phase = .running || s.phase = .draining || s.phase = .lastTasks)

/-- The handle is open and delivers what it was started for. -/
def delivers (s : EventLoop) (h : LoopHandle) : Bool :=
  s.inUvRun && s.uv.handles h = .opened && s.uv.started h

def step (cfg : LoopConfig) (s : EventLoop) (a : LoopAct) : Option EventLoop :=
  -- `uv_close` has aborted the process
  if s.uv.aborted then none
  else
    match a with
    | .close c => if c < s.created then some (s.close c true) else none
    | .enqueueClose i =>
      match s.closers[i]? with
      | none => none
      | some c => some ({ s with closers := s.closers.eraseIdx i }.enqueueClose c)
    | .sendMsg c msgId msg playerId =>
      match s.channelPtr c with
      | none => some s
      | some self =>
        if (s.chans c).closed_ then some s
        else some (s.executeOnEventLoop (.eventLoopWrite self msgId msg playerId))
    | .sendRawMsg c msgId body playerId =>
      match s.channelPtr c with
      | none => some s
      | some self =>
        if (s.chans c).closed_ then some s
        else some (s.executeOnEventLoop (.eventLoopRawWrite self msgId body playerId))
    | .asyncConnect => some (s.executeOnEventLoop .asyncConnect)
    | .connectIpc => some (s.executeOnEventLoop .connectIpc)
    | .startListen => some (s.executeOnEventLoop .startListen)
    | .stop => some s.stop
    | .generateId n => some { s with next_id := s.next_id + n }
    | .run asyncFail ipcFail =>
      if s.phase = .created then some (s.run cfg asyncFail ipcFail) else none
    | .runTask i env =>
      match s.waitTasks[i]? with
      | none => none
      | some t =>
        if s.executing && !s.repeats t then
          some ({ s with waitTasks := s.waitTasks.eraseIdx i }.perform cfg env t)
        else none
    | .closeFailed =>
      match s.pc with
      | .connectFailed c => some ({ s with pc := .ready }.close c false)
      | _ => none
    | .startHeartbeatTimer ret =>
      match s.pc with
      | .newConnection c => some (s.startHeartbeatTimer cfg c ret)
      | _ => none
    | .onConnect c i status =>
      -- a connect that is cut off by `uv_close` fails
      if s.inUvRun && (s.uv.reqs (.tcp c))[i]? = some .connect &&
          (s.uv.handles (.tcp c) = .opened || status < 0) then
        some (s.uv_on_connect c i status)
      else none
    | .onRead c input closing byOther maxPackBodyLen =>
      -- a handle that is closing is read no more
      if s.delivers (.tcp c) then
        some (s.uv_read_cb cfg c input closing byOther maxPackBodyLen)
      else none
    | .onWrite c i status ret =>
      match (s.uv.reqs (.tcp c))[i]? with
      | some (.write w) => if s.inUvRun then some (s.uv_write_cb c i w status ret) else none
      | _ => none
    | .onTimer c closes =>
      if s.delivers (.heartbeat_timer c) then some (s.uv_on_timer c closes) else none
    | .ipcConnected status =>
      -- as for `onConnect`
      if s.inUvRun && !(s.uv.reqs .ipc_pipe_).isEmpty &&
          (s.uv.handles .ipc_pipe_ = .opened || status < 0) then
        let s := { s with uv := s.uv.complete .ipc_pipe_ 0 }
        some (if status < 0 then s else { s with uv := s.uv.start .ipc_pipe_ })
      else none
    | .ipcError => if s.delivers .ipc_pipe_ then some s.closeIpcPipe else none
    | .ipcAccept initRet acceptRet =>
      if s.delivers .ipc_pipe_ then some (s.adopt cfg initRet acceptRet) else none
    | .acceptConnection initRet acceptRet writeRet =>
      if s.delivers .server_ then some (s.uv_on_new_connection cfg initRet acceptRet writeRet)
      else none
    | .acceptPipe i initRet acceptRet =>
      if s.delivers (.pipe_servers_ i) then some (s.uv_on_pipe_connection i initRet acceptRet)
      else none
    | .afterHandoff k i =>
      match (s.uv.reqs (.session k))[i]? with
      | some (.handoff client) =>
        if s.inUvRun then some (s.after_handoff_cb k i client) else none
      | _ => none
    | .handleClosed h =>
      -- a handle's requests are called back before its close
      if (s.inUvRun || (s.pc = .ready && s.phase = .walked)) && s.uv.handles h = .closing &&
          (s.uv.reqs h).isEmpty then
        some (s.closeCallback h)
      else none
    | .stopTriggered =>
      if s.pc = .ready && s.phase = .running && s.stopSent then some (s.onStopTriggered cfg)
      else none
    | .stopClose =>
      match s.phase with
      | .closingChannels [] => some { s with phase := .draining }
      | .closingChannels (c :: rest) =>
        some ({ s with phase := .closingChannels rest }.close c false)
      | _ => none
    | .stopDrained =>
      if s.pc = .ready && s.phase = .draining && s.waitTasks.isEmpty then
        some { s with uv := asyncs.foldl Loop.close s.uv, phase := .stopped }
      else none
    | .uvRunReturns =>
      -- then the handles that are left are closed by `uv_walk`
      if s.pc = .ready && s.phase = .stopped && !s.uv.alive then
        some { s with uv := s.uv.walkClose, phase := .walked }
      else none
    | .lastTasks => if s.phase = .walked then some { s with phase := .lastTasks } else none
    | .endRun =>
      if s.pc = .ready && s.phase = .lastTasks && s.waitTasks.isEmpty then
        some { s with phase := .ended }
      else none

end EventLoop

end Athena
