import Mathlib.Logic.Basic
import Athena.Native.ClientPort

/-!
# Idle channels (`transport/IdleStateHandler.h`, `IdleStateHandler.cpp`)

An `EventLoop` with an `IdleStateHandler` gives every channel a repeating libuv timer.
When it fires, `onTimer` compares the two time stamps of the channel with the limits and
calls the process's `onEventTrigger`, which closes the channel, sends a heartbeat, or only
writes to the log.  All times are `uv_now` of the loop that the channel belongs to, in
milliseconds.

The functions that set the stamps are in `Channel.lean`: `onRead` sets `last_recv_time`
for every read that it accepts, and both write functions set `last_send_time` when they
append a frame.
-/

namespace Athena

/-- `TriggerEventEnum`. -/
inductive TriggerEventEnum where
  | READ_IDLE
  | WRITE_IDLE
  | ALL_IDLE
  | TIMEOUT
  deriving DecidableEq, Repr

/-- `last_recv_time` and `last_send_time` of a channel. -/
structure PackTimes where
  last_recv_time : UInt64
  last_send_time : UInt64
  deriving DecidableEq, Repr

/-- `Channel::initPackTime`. -/
def PackTimes.initPackTime (now : UInt64) : PackTimes :=
  { last_recv_time := now, last_send_time := now }

structure IdleStateHandler where
  max_write_idle_time : UInt64
  max_read_idle_time : UInt64
  deriving DecidableEq, Repr

namespace IdleStateHandler

/-- `onTimer`: the stamps afterwards, and the events triggered. -/
def onTimer (h : IdleStateHandler) (channel : PackTimes) (now : UInt64) :
    PackTimes × List TriggerEventEnum :=
  let (channel, write) :=
    if h.max_write_idle_time > 0 then
      if channel.last_send_time + h.max_write_idle_time < now then
        ({ channel with last_send_time := now }, [TriggerEventEnum.WRITE_IDLE])
      else (channel, [])
    else (channel, [])
  let (channel, read) :=
    if h.max_read_idle_time > 0 then
      if channel.last_recv_time + h.max_read_idle_time < now then
        ({ channel with last_recv_time := now }, [TriggerEventEnum.READ_IDLE])
      else (channel, [])
    else (channel, [])
  (channel, write ++ read)

/-- `timerIntervalMs`. -/
def timerIntervalMs (h : IdleStateHandler) : UInt64 :=
  let interval := 2000
  let interval := if h.max_write_idle_time > 0 then min interval h.max_write_idle_time
    else interval
  if h.max_read_idle_time > 0 then min interval h.max_read_idle_time else interval

/-- The timer repeats: libuv fires a timer with the repeat value 0 once only. -/
theorem timerIntervalMs_pos (h : IdleStateHandler) : 0 < h.timerIntervalMs := by
  have hmin : ∀ {a b : UInt64}, 0 < a → 0 < b → 0 < min a b := by
    intro a b ha hb
    rcases Std.min_eq_or (a := a) (b := b) with hm | hm
    · rw [hm]; exact ha
    · rw [hm]; exact hb
  simp only [timerIntervalMs]
  split
  · split
    · exact hmin (hmin (by decide) ‹_›) ‹_›
    · exact hmin (by decide) ‹_›
  · split
    · exact hmin (by decide) ‹_›
    · decide

end IdleStateHandler

/-- `AthenaTcpServer::setChannelIdleTime`. -/
def AthenaTcpServer.setChannelIdleTime (idle_read_time idle_write_time : UInt64) :
    IdleStateHandler :=
  { max_write_idle_time := idle_write_time, max_read_idle_time := idle_read_time }

/-- `TcpClient::setChannelIdleTime`, with the arguments the other way round. -/
def TcpClient.setChannelIdleTime (idle_write_time idle_read_time : UInt64) : IdleStateHandler :=
  { max_write_idle_time := idle_write_time, max_read_idle_time := idle_read_time }

/-! ## What the processes do about it -/

/-- What an `onEventTrigger` does besides writing to the log. -/
inductive Reaction where
  | sendMsg (msgId : Int32)
  | close
  | log
  deriving DecidableEq, Repr

/-- The handlers of the connecting sides: `heartBeat` when nothing has been sent. -/
def heartBeatOnWriteIdle (heartBeat : Int32) (reason : TriggerEventEnum) : Reaction :=
  if reason = .WRITE_IDLE then .sendMsg heartBeat else .log

/-- The handlers of the accepting sides: close when nothing has been received. -/
def closeOnReadIdle (reason : TriggerEventEnum) : Reaction :=
  if reason = .READ_IDLE then .close else .log

def GateClientNetWorkHandler.onEventTrigger : TriggerEventEnum → Reaction :=
  heartBeatOnWriteIdle InnerProtoCode.INNER_HEART_BEAT_REQ

def GameClientNetWorkHandler.onEventTrigger : TriggerEventEnum → Reaction :=
  heartBeatOnWriteIdle InnerProtoCode.INNER_HEART_BEAT_REQ

def ClientNetWorkHandler.onEventTrigger : TriggerEventEnum → Reaction :=
  heartBeatOnWriteIdle HEART_BEAT_REQUEST

def GatewayServerNetWorkHandler.onEventTrigger : TriggerEventEnum → Reaction :=
  closeOnReadIdle

def RouterServerNetWorkHandler.onEventTrigger : TriggerEventEnum → Reaction :=
  closeOnReadIdle

/-- The game server only writes to the log. -/
def GameServerNetWorkHandler.onEventTrigger (_ : TriggerEventEnum) : Reaction :=
  .log

/-! ## In milliseconds since a loop was started -/

/-- `uv_now` at the time `t`, of a loop whose clock showed `clock` at time 0. -/
def uvNow (clock t : Nat) : UInt64 :=
  UInt64.ofNat (clock + t)

/-- Times of one loop are compared as the milliseconds since it was started. -/
theorem uvNow_add_lt {clock t n : Nat} {max : UInt64} (ht : clock + t + max.toNat < 2 ^ 64)
    (hn : clock + n < 2 ^ 64) : uvNow clock t + max < uvNow clock n ↔ t + max.toNat < n := by
  rw [UInt64.lt_iff_toNat_lt, UInt64.toNat_add, uvNow, uvNow, UInt64.toNat_ofNat',
    UInt64.toNat_ofNat', Nat.mod_eq_of_lt (show clock + t < 2 ^ 64 by omega),
    Nat.mod_eq_of_lt (show clock + n < 2 ^ 64 from hn), Nat.mod_eq_of_lt ht]
  omega

namespace IdleStateHandler

/-- The stamp behind an idle limit. -/
def passed (max : UInt64) (stamp now : Nat) : Prop :=
  0 < max.toNat ∧ stamp + max.toNat < now

instance (max : UInt64) (stamp now : Nat) : Decidable (passed max stamp now) :=
  inferInstanceAs (Decidable (_ ∧ _))

/-- `onTimer` on times that do not overflow: each stamp that is behind its limit is reported
    and set to now. -/
theorem onTimer_eq {h : IdleStateHandler} {clock r s n : Nat}
    (hr : clock + r + h.max_read_idle_time.toNat < 2 ^ 64)
    (hs : clock + s + h.max_write_idle_time.toNat < 2 ^ 64) (hn : clock + n < 2 ^ 64) :
    h.onTimer ⟨uvNow clock r, uvNow clock s⟩ (uvNow clock n) =
      (⟨uvNow clock (if passed h.max_read_idle_time r n then n else r),
        uvNow clock (if passed h.max_write_idle_time s n then n else s)⟩,
        (if passed h.max_write_idle_time s n then [TriggerEventEnum.WRITE_IDLE] else []) ++
          if passed h.max_read_idle_time r n then [TriggerEventEnum.READ_IDLE] else []) := by
  have hpos : ∀ {x : UInt64}, x > 0 ↔ 0 < x.toNat := fun {x} => UInt64.lt_iff_toNat_lt
  -- the two tests of a limit are one
  simp only [onTimer, hpos, uvNow_add_lt hs hn, ← ite_and]
  by_cases hw : 0 < h.max_write_idle_time.toNat ∧ s + h.max_write_idle_time.toNat < n
  · by_cases hr' : 0 < h.max_read_idle_time.toNat ∧ r + h.max_read_idle_time.toNat < n
    · simp [passed, hw, hr', uvNow_add_lt hr hn]
    · simp [passed, hw, hr', uvNow_add_lt hr hn]
  · by_cases hr' : 0 < h.max_read_idle_time.toNat ∧ r + h.max_read_idle_time.toNat < n
    · simp [passed, hw, hr', uvNow_add_lt hr hn]
    · simp [passed, hw, hr', uvNow_add_lt hr hn]

end IdleStateHandler

end Athena
