import Athena.Spec.LoopSteps

/-!
# The lifecycle of a channel

What a channel with a heartbeat timer goes through, in any run: its close is
delivered once, its two handles are closed, and then the registry lets go of it.
The registry knows channels by their ids, so this holds as long as no two of its
channels share one; ids wrap around after 2^32 channels.

## Key results

- `channel_lifecycle`
- `lifecycle_wraps`: a channel under a used id takes the place of one that lives
-/

namespace Athena.EventLoop

open Uv ChannelLife

/-- Both close callbacks have run. -/
def bothClosed (log : List ChannelEvent) : Bool :=
  log.contains (.callback .onTcpClosed) && log.contains (.callback .onTimerClosed)

/-- What the reactor has done to a channel so far. -/
structure Lifecycle (s : EventLoop) (c : ChannelRef) : Prop where
  closeInLoop_le : (s.log c).count .closeInLoop ≤ 1
  /-- a `close()` that took effect is inside `close()`, queued, or delivered -/
  delivered : s.closers.count c + s.waitTasks.countP (LoopTask.closes c) +
    (s.log c).count .onClosed = if (s.chans c).closed_ then 1 else 0
  erased : (s.log c).count .erase = if bothClosed (s.log c) then 1 else 0
  registered : s.channelPtr c = some c ↔ .erase ∉ s.log c
  /-- erased after both close callbacks, no callback after that -/
  ordered : Ordered (s.log c)
  /-- `uv_run` does not return before all this has happened -/
  finished : s.late = true → (s.log c).count .onClosed = 1 ∧ (s.log c).count .erase = 1

variable {s : EventLoop} {c : ChannelRef} {cfg : LoopConfig}

/-- The invariant says what the life of a channel with a timer is. -/
theorem Inv.lifecycle (h : Inv s) (htimer : s.uv.handles (.heartbeat_timer c) ≠ .uninit) :
    Lifecycle s c := by
  -- a channel with a timer has been created
  have hc : c < s.created := by
    by_contra hge
    exact htimer (h.blank c (Nat.not_lt.mp hge)).timer
  have hok := h.ok c hc (Or.inl htimer)
  have hscheduled : s.closers.count c + s.waitTasks.countP (LoopTask.closes c) +
      (s.log c).count .onClosed = if (s.chans c).closed_ then 1 else 0 := hok.scheduled
  have hle : (s.log c).count .onClosed ≤ 1 := by
    split at hscheduled <;> omega
  -- the log and the flags say the same about the two close callbacks
  have hboth : bothClosed (s.log c) = ((s.view c).tcpDone && (s.view c).timerDone) := by
    rw [Bool.eq_iff_iff, bothClosed, Bool.and_eq_true, Bool.and_eq_true, hok.tcpDone,
      hok.timerDone, hok.tcpCalled, hok.timerCalled, List.contains_iff_mem, List.contains_iff_mem]
    rfl
  have herased : (s.log c).count .erase = if bothClosed (s.log c) then 1 else 0 := by
    rw [hboth]
    exact hok.erased
  constructor
  · exact (show (s.log c).count .closeInLoop = _ from hok.delivered) ▸ hle
  · exact hscheduled
  · exact herased
  · constructor
    · intro hfound
      exact (h.found _ c hfound).2.2
    · exact h.registered c hc
  · exact hok.ordered
  -- when the loop is done nothing is pending, so the counts are full
  · intro hlate
    obtain ⟨htcp, htimer'⟩ := h.done hlate c htimer
    constructor
    · have hne : (s.log c).count .onClosed ≠ 0 := by
        intro hzero
        have := (hok.before hzero).1
        rw [htcp] at this
        simp at this
      omega
    · rw [herased, hboth, hok.tcpDone.mpr htcp, hok.timerDone.mpr htimer']
      rfl

/-- In every run whose new channels have ids that the registry does not hold, a
    channel with a timer is closed once, delivered once and erased once. -/
theorem channel_lifecycle {acts : List LoopAct}
    (hok : Run.Meets (step cfg) FreshId (init cfg) acts)
    (hrun : Run.run (step cfg) (init cfg) acts = some s)
    (htimer : s.uv.handles (.heartbeat_timer c) ≠ .uninit) : Lifecycle s c :=
  (inv_run hok hrun).lifecycle htimer

/-- A channel connects, and another thread closes it. -/
def connectAndClose : List LoopAct :=
  [.run none none, .asyncConnect, .runTask 0 {}, .onConnect 0 0 0, .startHeartbeatTimer 0,
    .close 0, .enqueueClose 0, .runTask 0 {}, .handleClosed (.tcp 0),
    .handleClosed (.heartbeat_timer 0)]

/-- All actions of this run are enabled. -/
theorem connectAndClose_isSome :
    (Run.run (step smallLoop) (init smallLoop) connectAndClose).isSome = true := by
  decide

/-- The state after `connectAndClose`. -/
def closedLoop : EventLoop := (Run.run _ _ connectAndClose).get connectAndClose_isSome

/-- A channel that connects and is closed goes through its whole life. -/
theorem channel_lifecycle_closed :
    closedLoop.log 0 = [.callback .onConnect, .closeInLoop, .onClosed, .callback .onTcpClosed,
      .callback .onTimerClosed, .erase] ∧ Lifecycle closedLoop 0 :=
  ⟨by decide,
    channel_lifecycle (by decide) (Option.some_get connectAndClose_isSome).symm
      (by decide)⟩

/-- A worker's channel lives while `2 ^ 32 - 1` others are made elsewhere, and the next
    one of this loop gets its id. -/
def wrapActs : List LoopAct :=
  [.run none none, .connectIpc, .runTask 0 {}, .ipcConnected 0, .ipcAccept 0 0,
    .startHeartbeatTimer 0, .generateId 0xffffffff, .ipcAccept 0 0, .startHeartbeatTimer 0,
    .onTimer 0 false]

/-- All actions of this run are enabled. -/
theorem wrapActs_isSome : (Run.run (step smallLoop) (init smallLoop) wrapActs).isSome = true := by
  decide

/-- With ids that wrap around, a channel can be erased before it is closed, and called
    back after that. -/
theorem lifecycle_wraps :
    ¬ ∀ (cfg : LoopConfig) (acts : List LoopAct) (s : EventLoop) (c : ChannelRef),
      Run.run (step cfg) (init cfg) acts = some s →
      s.uv.handles (.heartbeat_timer c) ≠ .uninit → Lifecycle s c := by
  intro hall
  obtain ⟨s, hs⟩ : ∃ s, s = (Run.run _ _ wrapActs).get wrapActs_isSome := ⟨_, rfl⟩
  have hrun : Run.run (step smallLoop) (init smallLoop) wrapActs = some s := by
    rw [hs, Option.some_get]
  have htimer : s.uv.handles (.heartbeat_timer 0) ≠ .uninit := by
    rw [hs]
    decide
  have hlog : s.log 0 = [] ++ .erase :: [.callback .onTimer] := by
    rw [hs]
    decide
  have hordered := (hall smallLoop wrapActs s 0 hrun htimer).ordered _ _ hlog
  exact List.not_mem_nil hordered.1

end Athena.EventLoop
