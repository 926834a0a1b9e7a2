import Athena.Spec.HandleSafety

/-!
# A stop closes everything

`onStopTriggered` closes the servers and pipes, then the channels that are in the
registry at that moment, and then runs the queue until it is empty.  What a task of
that last run opens is closed by nobody, and neither is a channel whose `close()` is
still between its two halves on another thread.  `StopOk` leaves these out, and a
server socket that was initialised but does not listen, which `onStopTriggered` skips.

## Key results

- `stop_closes_all`
- `connect_outlives_stop`: a connect that is queued when the loop is stopped
-/

namespace Athena.EventLoop

open Uv Uv.Loop Channel

/-- The task initialises a handle. -/
def opensHandle (env : TaskEnv) : LoopTask → Bool
  | .asyncConnect => env.addrRet = 0 && env.initRet = 0
  | .connectIpc => env.initRet = 0
  | .startListen => env.initRet = 0
  | _ => false

/-- The last run of the queue opens nothing, a server socket listens when the loop is
    stopped, and nobody is inside `close()` when `onStopTriggered` returns. -/
def closesAll (s : EventLoop) : LoopAct → Bool
  | .runTask i env => s.phase ≠ .draining || !(s.waitTasks[i]?).any (opensHandle env)
  | .stopTriggered => s.uv.handles .server_ = .uninit || s.listening_
  | .stopDrained => s.closers.isEmpty
  | _ => true

/-- The stop closes everything, and a new channel has a new id. -/
def StopOk (s : EventLoop) (a : LoopAct) : Prop := FreshId s a ∧ s.closesAll a = true

instance (s : EventLoop) (a : LoopAct) : Decidable (StopOk s a) := by
  unfold StopOk
  infer_instance

/-- From the snapshot of `onStopTriggered` until `uv_run` returns. -/
def halting (s : EventLoop) : Prop :=
  s.phase = .draining ∨ s.phase = .stopped ∨ ∃ rest, s.phase = .closingChannels rest

/-- What has been closed so far. -/
structure Stops (s : EventLoop) : Prop where
  rest : ∀ rest, s.phase = .closingChannels rest →
    ∀ c < s.created, (s.chans c).closed_ = false → c ∈ rest
  closed : s.phase = .draining ∨ s.phase = .stopped → ∀ c < s.created, (s.chans c).closed_ = true
  noNew : s.halting → ∀ c, s.pc ≠ .newConnection c
  servers : s.halting → s.uv.handles .server_ ≠ .opened ∧ s.uv.handles .ipc_pipe_ ≠ .opened ∧
    ∀ i, s.uv.handles (.pipe_servers_ i) ≠ .opened
  channels : s.phase = .stopped → ∀ c,
    s.uv.handles (.tcp c) ≠ .opened ∧ s.uv.handles (.heartbeat_timer c) ≠ .opened
  asyncs : s.phase = .stopped → ∀ h ∈ asyncs, s.uv.handles h ≠ .opened

variable {s s' : EventLoop} {c : ChannelRef} {cfg : LoopConfig}

/-- Nothing is asked of a loop that is not stopping. -/
theorem Stops.of_not_halting (h : ¬ s.halting) : Stops s where
  rest rest hr := absurd (Or.inr (Or.inr ⟨rest, hr⟩)) h
  closed hp := absurd (hp.imp_right Or.inl) h
  noNew hh := absurd hh h
  servers hh := absurd hh h
  channels hp := absurd (Or.inr (Or.inl hp)) h
  asyncs hp := absurd (Or.inr (Or.inl hp)) h

/-- A running loop is not stopping. -/
theorem not_halting_of_running (hphase : s.phase = .running) : ¬ s.halting := by
  simp [halting, hphase]

/-- A step that opens nothing and makes no channel. -/
theorem Stops.of_same (h : Stops s) (hphase : s'.phase = s.phase) (hcreated : s'.created = s.created)
    (hclosed : ∀ c, (s.chans c).closed_ = true → (s'.chans c).closed_ = true)
    (hpc : s.halting → ∀ c, s'.pc = .newConnection c → s.pc = .newConnection c)
    (hopened : ∀ g, s'.uv.handles g = .opened → s.uv.handles g = .opened) : Stops s' := by
  have hhalting : s'.halting → s.halting := by simp [halting, hphase]
  exact
    { rest := fun rest hr c hc hopen => by
        refine h.rest rest (hphase ▸ hr) c (hcreated ▸ hc) ?_
        by_contra hne
        rw [hclosed c (by simpa using hne)] at hopen
        simp at hopen
      closed := fun hp c hc => hclosed c (h.closed (hphase ▸ hp) c (hcreated ▸ hc))
      noNew := fun hh c hc => h.noNew (hhalting hh) c (hpc (hhalting hh) c hc)
      servers := fun hh => by
        obtain ⟨hs, hi, hp⟩ := h.servers (hhalting hh)
        exact ⟨fun ho => hs (hopened _ ho), fun ho => hi (hopened _ ho),
          fun i ho => hp i (hopened _ ho)⟩
      channels := fun hp c => by
        obtain ⟨ht, hm⟩ := h.channels (hphase ▸ hp) c
        exact ⟨fun ho => ht (hopened _ ho), fun ho => hm (hopened _ ho)⟩
      asyncs := fun hp g hg ho => h.asyncs (hphase ▸ hp) g hg (hopened g ho) }

/-! ## Steps that leave everything closed -/

/-- Other channels stay as they are. -/
theorem setChannel_chans (s : EventLoop) (c : ChannelRef) (ch : Channel) (byOther : Bool) :
    (s.setChannel c ch byOther).chans = Function.update s.chans c ch := by
  unfold EventLoop.setChannel
  simp only
  split
  · split
    · rfl
    · unfold EventLoop.enqueueClose
      split <;> rfl
  · rfl

/-- A channel that is closed stays closed. -/
theorem Stops.setChannel (h : Stops s) {ch : Channel} (hk : Keeps (s.chans c) ch)
    (byOther : Bool) : Stops (s.setChannel c ch byOther) := by
  refine h.of_same (setChannel_phase s c ch byOther) (setChannel_created s c ch byOther) ?_
    (fun _ d hd => by rwa [setChannel_pc] at hd) (fun g hg => by rwa [setChannel_uv] at hg)
  intro d hd
  rw [setChannel_chans]
  by_cases hdc : d = c
  · subst hdc
    rw [Function.update_self]
    exact hk.closed_mono hd
  · rwa [Function.update_of_ne hdc]

/-- A send opens nothing. -/
theorem Stops.sent (h : Stops s) {ch : Channel} (hk : Keeps (s.chans c) ch)
    (issued : Option UvWrite) (byOther : Bool) : Stops (s.sent c ch issued byOther) := by
  have hset := h.setChannel hk byOther
  unfold EventLoop.sent
  cases issued with
  | none => exact hset
  | some w =>
    exact hset.of_same rfl rfl (fun _ hd => hd) (fun _ _ hd => hd) fun g hg => by
      simpa using hg

/-- The task of a `close` opens nothing. -/
theorem Stops.enqueueClose (h : Stops s) : Stops (s.enqueueClose c) := by
  unfold EventLoop.enqueueClose
  split
  · exact h
  · exact h.of_same rfl rfl (fun _ hd => hd) (fun _ _ hd => hd) fun _ hg => hg

/-- A task of the last run that opens nothing. -/
theorem Stops.perform (h : Stops s) {env : TaskEnv} {t : LoopTask}
    (hopens : opensHandle env t = false) : Stops (s.perform cfg env t) := by
  cases t with
  | closeInLoop self =>
    -- the handles of a channel are closed, never opened
    have hclosing : Closing s.uv (closeBoth s.uv self) := by
      refine Closing.trans ?_ (closing_close _ _)
      refine Closing.trans ?_ (closing_close _ _)
      refine ⟨fun _ => Iff.rfl, fun _ ho => ho, fun g hg => ?_, rfl⟩
      by_cases hgs : g = .tcp self
      · rw [hgs] at hg
        simp [Loop.stop] at hg
      · simpa [Loop.stop, hgs] using hg
    show Stops (s.closeInLoop self)
    unfold EventLoop.closeInLoop
    simp only
    split
    · exact h.of_same rfl rfl (fun _ hd => hd) (fun _ _ hd => hd) fun g hg => hclosing.opened g hg
    · exact h.of_same rfl rfl (fun _ hd => hd) (fun _ _ hd => hd) fun g hg => hclosing.opened g hg
  | eventLoopWrite self msgId msg playerId =>
    exact h.sent (eventLoopWrite_keeps _ _ _ _ _ _ _) _ _
  | eventLoopRawWrite self msgId body playerId =>
    exact h.sent (eventLoopRawWrite_keeps _ _ _ _ _ _) _ _
  | asyncConnect =>
    -- a task that opens nothing had an address that does not parse, or no handle
    simp only [opensHandle, Bool.and_eq_false_iff, decide_eq_false_iff_not] at hopens
    show Stops (s.connectTask cfg env)
    unfold EventLoop.connectTask
    split
    · exact h
    · rename_i haddr
      rw [if_pos (hopens.resolve_left haddr)]
      exact h
  | connectIpc =>
    simp only [opensHandle, decide_eq_false_iff_not] at hopens
    show Stops (s.ipcTask env)
    rw [EventLoop.ipcTask, if_pos hopens]
    exact h
  | startListen =>
    simp only [opensHandle, decide_eq_false_iff_not] at hopens
    show Stops (s.listenTask env)
    rw [EventLoop.listenTask, if_pos hopens]
    exact h

/-- The close callback of a handle. -/
theorem Stops.closeCallback (h : Stops s) {g : LoopHandle} (hclosing : s.uv.handles g = .closing) :
    Stops (s.closeCallback g) := by
  have hopened : ∀ g', (s.uv.finish g).handles g' = .opened → s.uv.handles g' = .opened :=
    (closing_finish hclosing).opened
  have hfinish : Stops { s with uv := s.uv.finish g } :=
    -- the callback's own handle is gone, and `closed_` stays
    h.of_same rfl rfl (fun _ hd => hd) (fun _ _ hd => hd) hopened
  have hchannel : ∀ c cb isClient,
      Stops (EventLoop.onHandleClosed ({ s with uv := s.uv.finish g }.emit c (.callback cb)) c
        isClient) := by
    intro c cb isClient
    have hset : Stops { ({ s with uv := s.uv.finish g }.emit c (.callback cb)) with
        chans := Function.update s.chans c (setHandleClosed (s.chans c) isClient) } := by
      refine h.of_same rfl rfl (fun d hd => ?_) (fun _ _ hd => hd) hopened
      by_cases hdc : d = c
      · subst hdc
        show (Function.update s.chans d _ d).closed_ = true
        rw [Function.update_self, setHandleClosed_closed]
        exact hd
      · show (Function.update s.chans c _ d).closed_ = true
        rwa [Function.update_of_ne hdc]
    unfold EventLoop.onHandleClosed
    simp only
    split
    · unfold releaseChannel
      split
      · exact hset.of_same rfl rfl (fun _ hd => hd) (fun _ _ hd => hd) fun _ hg => hg
      · exact hset
    · exact hset
  unfold EventLoop.closeCallback
  simp only
  split
  · exact hfinish
  · cases g with
    | tcp c => exact hchannel c _ true
    | heartbeat_timer c => exact hchannel c _ false
    | _ => exact hfinish

/-! ## `onStopTriggered` -/

/-- After `closeServers` and `closeIpcPipe` no server or pipe is open. -/
theorem closeServers_not_opened (ho : Own cfg s)
    (hserver : s.uv.handles .server_ ≠ .uninit → s.listening_ = true) :
    (s.closeServers cfg).handles .server_ ≠ .opened ∧
      ∀ i, (s.closeServers cfg).handles (.pipe_servers_ i) ≠ .opened := by
  have hall := closing_closeServers cfg s
  unfold closeServers at hall ⊢
  have hsessions : ∀ l : Loop LoopHandle LoopReq, Closing l
      ((s.sessions_.filterMap (Option.map LoopHandle.session)).foldl closeUnlessClosing l) :=
    fun l => closing_foldl _ closing_closeUnlessClosing _
  constructor
  · intro hopen
    have hserver' := (closing_foldl _ closing_closeUnlessClosing _).opened _
      ((hsessions _).opened _ hopen)
    split at hserver'
    · exact closeUnlessClosing_not_opened _ _ hserver'
    · rename_i hl
      exact hl (hserver (by rw [hserver']; simp))
  · intro i hopen
    have hi : i < cfg.worker_num := ho.pipes i (by rw [hall.opened _ hopen]; simp)
    refine foldl_not_opened _ closing_closeUnlessClosing closeUnlessClosing_not_opened ?_
      ((hsessions _).opened _ hopen)
    exact List.mem_map.mpr ⟨i, List.mem_range.mpr hi, rfl⟩

/-- The pipe to the accepting process is closed. -/
theorem closeIpcPipe_not_opened (ho : Own cfg s) (hlate : s.late = false) :
    s.closeIpcPipe.uv.handles .ipc_pipe_ ≠ .opened := by
  unfold EventLoop.closeIpcPipe
  split
  · rename_i hguard
    intro hopen
    have hinited : s.ipc_inited_ = true := ho.ipc_inited.mp (by rw [hopen]; simp)
    have hclosing := (ho.ipc_opened hlate hinited).mp hopen
    simp [hinited, hclosing] at hguard
  · intro hopen
    rw [handles_close_self ((closing_close _ _).opened _ hopen)] at hopen
    simp at hopen

/-- Closing the pipe opens nothing. -/
theorem closing_closeIpcPipe (s : EventLoop) : Closing s.uv s.closeIpcPipe.uv := by
  unfold EventLoop.closeIpcPipe
  split
  · exact Closing.refl _
  · exact closing_close _ _

/-- Closing the pipe leaves the channels. -/
theorem closeIpcPipe_same (s : EventLoop) : s.closeIpcPipe.created = s.created ∧
    s.closeIpcPipe.chans = s.chans ∧ s.closeIpcPipe.channels_ = s.channels_ ∧
    s.closeIpcPipe.pc = s.pc := by
  unfold EventLoop.closeIpcPipe
  split <;> exact ⟨rfl, rfl, rfl, rfl⟩

/-- The stop closes the servers and pipes, and takes its snapshot. -/
theorem Stops.onStopTriggered (hi : Inv s) (ho : Own cfg s) (hpc : s.pc = .ready)
    (hphase : s.phase = .running)
    (hserver : s.uv.handles .server_ ≠ .uninit → s.listening_ = true) :
    Stops (s.onStopTriggered cfg) := by
  have hpipe := closing_closeIpcPipe { s with stopSent := false, uv := s.closeServers cfg }
  have hnot := closeServers_not_opened ho hserver
  have hipc := closeIpcPipe_not_opened ho.closeServers (by simp [late, hphase])
  obtain ⟨hcreated, hchans, hchannels, hpc'⟩ :=
    closeIpcPipe_same { s with stopSent := false, uv := s.closeServers cfg }
  unfold EventLoop.onStopTriggered
  simp only
  generalize { s with stopSent := false, uv := s.closeServers cfg }.closeIpcPipe = t at *
  exact
    -- the snapshot has every channel that is open, as these are all in the registry
    { rest := fun rest hr c hc hopen => by
        obtain rfl := LoopPhase.closingChannels.inj hr
        have hc' : c < s.created := hcreated ▸ hc
        have hfound := hi.channelPtr_eq hc' (Or.inl (by rw [← hopen, hchans]; rfl))
        simp only [snapshot, List.mem_filter, List.mem_range, decide_eq_true_eq, channelPtr, hchans,
          hchannels]
        exact ⟨hc, hfound⟩
      closed := fun hp => by simp at hp
      noNew := fun _ c hc => by
        have hready : t.pc = .ready := hpc'.trans hpc
        rw [hready] at hc
        simp at hc
      servers := fun _ => ⟨fun h => hnot.1 (hpipe.opened _ h), hipc,
        fun i h => hnot.2 i (hpipe.opened _ h)⟩
      channels := fun hp => by simp at hp
      asyncs := fun hp => by simp at hp }

/-- The queue is empty and nobody is inside `close()`: all channels have been closed. -/
theorem Stops.stopDrained (h : Stops s) (hi : Inv s) (hna : s.uv.aborted = false)
    (hphase : s.phase = .draining) (hempty : s.waitTasks = []) (hclosers : s.closers = []) :
    Stops { s with uv := EventLoop.asyncs.foldl Loop.close s.uv, phase := .stopped } := by
  have hclosing : Closing s.uv (EventLoop.asyncs.foldl Loop.close s.uv) :=
    closing_foldl _ closing_close _
  have hlate : s.late = false := by simp [late, hphase]
  -- each channel was closed, and nothing of it is pending: both its handles have closed
  have hchannels : ∀ c, s.uv.handles (.tcp c) ≠ .opened ∧
      s.uv.handles (.heartbeat_timer c) ≠ .opened := by
    intro c
    by_cases hc : c < s.created
    · have hok := hi.ok c hc (Or.inr ⟨hna, hlate⟩)
      have hclosed : (s.view c).closed = true := h.closed (Or.inl hphase) c hc
      have hpending : (s.view c).pending = 0 := by simp [view, hempty, hclosers]
      have hdelivered := hok.scheduled
      rw [hclosed, hpending, if_pos rfl] at hdelivered
      obtain ⟨htcp, htimer⟩ := hok.after (by omega)
      constructor
      · intro ho
        rw [show (s.view c).tcp = _ from ho] at htcp
        simp at htcp
      · intro ho
        rw [show (s.view c).timer = _ from ho] at htimer
        simp at htimer
    -- a channel that was never created has no handles
    · have hblank := hi.blank c (Nat.not_lt.mp hc)
      constructor
      · rw [show s.uv.handles (.tcp c) = _ from hblank.tcp]
        simp
      · rw [show s.uv.handles (.heartbeat_timer c) = _ from hblank.timer]
        simp
  have hhalting : s.halting := Or.inl hphase
  exact
    { rest := fun rest hr => by simp at hr
      closed := fun _ => h.closed (Or.inl hphase)
      noNew := fun _ => h.noNew hhalting
      servers := fun _ => by
        obtain ⟨hs, hp, hq⟩ := h.servers hhalting
        exact ⟨fun hopen => hs (hclosing.opened _ hopen), fun hopen => hp (hclosing.opened _ hopen),
          fun i hopen => hq i (hclosing.opened _ hopen)⟩
      channels := fun _ c => ⟨fun hopen => (hchannels c).1 (hclosing.opened _ hopen),
        fun hopen => (hchannels c).2 (hclosing.opened _ hopen)⟩
      -- the asyncs are closed last
      asyncs := fun _ g hg => by
        refine foldl_not_opened _ closing_close ?_ hg
        intro l g' hopen
        rw [handles_close_self ((closing_close l g').opened _ hopen)] at hopen
        simp at hopen }

/-- The next channel of the snapshot is closed. -/
theorem Stops.stopClose (h : Stops s) {rest : List ChannelRef}
    (hphase : s.phase = .closingChannels (c :: rest)) :
    Stops (EventLoop.close { s with phase := .closingChannels rest } c false) := by
  have hh : s.halting := Or.inr (Or.inr ⟨_, hphase⟩)
  have hp : (EventLoop.close { s with phase := .closingChannels rest } c false).phase =
      .closingChannels rest := setChannel_phase _ _ _ _
  have hnot : ¬ (LoopPhase.closingChannels rest = .draining ∨
      LoopPhase.closingChannels rest = .stopped) := by simp
  exact
    { rest := fun l hl d hd hopen => by
        rw [hp] at hl
        obtain rfl := LoopPhase.closingChannels.inj hl
        rw [EventLoop.close, setChannel_created] at hd
        rw [EventLoop.close, setChannel_chans] at hopen
        have hdc : d ≠ c := by
          rintro rfl
          rw [Function.update_self] at hopen
          simp [Channel.close] at hopen
        rw [Function.update_of_ne hdc] at hopen
        exact (List.mem_cons.mp (h.rest _ hphase d hd hopen)).resolve_left hdc
      closed := fun hd => absurd (hp ▸ hd) hnot
      noNew := fun _ d hd => by
        rw [EventLoop.close, setChannel_pc] at hd
        exact h.noNew hh d hd
      servers := fun _ => by
        rw [EventLoop.close, setChannel_uv]
        exact h.servers hh
      channels := fun hd => absurd (Or.inr (hp ▸ hd)) hnot
      asyncs := fun hd => absurd (Or.inr (hp ▸ hd)) hnot }

/-- Behind the snapshot no channel is open. -/
theorem Stops.stopCloseEnd (h : Stops s) (hphase : s.phase = .closingChannels []) :
    Stops { s with phase := .draining } := by
  have hh : s.halting := Or.inr (Or.inr ⟨_, hphase⟩)
  exact
    { rest := fun rest hr => by simp at hr
      closed := fun _ c hc => by
        by_contra hne
        have hmem := h.rest [] hphase c hc (by simpa using hne)
        simp at hmem
      noNew := fun _ => h.noNew hh
      servers := fun _ => h.servers hh
      channels := fun hp => by simp at hp
      asyncs := fun hp => by simp at hp }

/-! ## Every step -/

/-- The phases in which libuv calls back are not those of `onStopTriggered`. -/
theorem stopped_of_halting (hphase : s.phase = .running ∨ s.phase = .stopped) (hh : s.halting) :
    s.phase = .stopped := by
  rcases hphase with hphase | hphase
  · exact absurd hh (not_halting_of_running hphase)
  · exact hphase

/-- A step in another phase that stays in it. -/
theorem Stops.of_phase (h : ¬ s.halting) (hphase : s'.phase = s.phase) : Stops s' :=
  Stops.of_not_halting (by simpa only [halting, hphase] using h)

/-- A task starts and ends nothing. -/
theorem perform_phase (cfg : LoopConfig) (env : TaskEnv) (s : EventLoop) (t : LoopTask) :
    (s.perform cfg env t).phase = s.phase := by
  cases t with
  | closeInLoop self => exact (closeInLoop_own s self).phase
  | eventLoopWrite self msgId msg playerId => exact (sent_own s self _ _ _).phase
  | eventLoopRawWrite self msgId body playerId => exact (sent_own s self _ _ _).phase
  | asyncConnect => exact (connectTask_own cfg env s).phase
  | connectIpc =>
    simp only [perform, EventLoop.ipcTask]
    split <;> rfl
  | startListen =>
    simp only [perform, EventLoop.listenTask]
    split
    · rfl
    split
    · rfl
    split
    · rfl
    split <;> rfl

/-- A connect ends, on a loop that runs or has stopped. -/
theorem Stops.uv_on_connect (h : Stops s) {i : Nat} {status : Int}
    (hphase : s.phase = .running ∨ s.phase = .stopped)
    (hopen : s.uv.handles (.tcp c) = .opened ∨ status < 0) : Stops (s.uv_on_connect c i status) := by
  by_cases hh : s.halting
  · -- a connection that is closed cannot succeed
    have hstatus : status < 0 :=
      hopen.resolve_left (h.channels (stopped_of_halting hphase hh) c).1
    unfold EventLoop.uv_on_connect
    simp only [if_pos hstatus]
    exact h.of_same rfl rfl (fun _ hd => hd) (fun _ _ hd => by simp at hd) fun _ hg => hg
  · exact Stops.of_phase hh (uv_on_connect_own s c i status).phase

/-- Every step keeps this up. -/
theorem stops_step (h : Stops s) (hi : Inv s) (ho : Own cfg s) {a : LoopAct} (hok : StopOk s a)
    (hstep : step cfg s a = some s') : Stops s' := by
  have hna := aborted_of_step hstep
  cases step_cases hstep with
  | nothing => exact h
  | close hc => exact h.setChannel (close_keeps _) true
  | @enqueueClose i c hc =>
    have hpop : Stops { s with closers := s.closers.eraseIdx i } :=
      h.of_same rfl rfl (fun _ hd => hd) (fun _ _ hd => hd) fun _ hg => hg
    exact hpop.enqueueClose
  | queue hcloses htarget =>
    exact h.of_same rfl rfl (fun _ hd => hd) (fun _ _ hd => hd) fun _ hg => hg
  | stop =>
    unfold EventLoop.stop
    split
    · exact h
    · exact h.of_same rfl rfl (fun _ hd => hd) (fun _ _ hd => hd) fun _ hg => hg
  | generateId n => exact h.of_same rfl rfl (fun _ hd => hd) (fun _ _ hd => hd) fun _ hg => hg
  | run hphase =>
    refine Stops.of_not_halting ?_
    unfold EventLoop.run
    simp only
    split
    · simp [halting]
    · split
      · simp [halting]
      · rw [halting, (stop_own _).phase]
        simp
  | @runTask i env t hi' hpc hphase hrepeats =>
    have hpop : Stops { s with waitTasks := s.waitTasks.eraseIdx i } :=
      h.of_same rfl rfl (fun _ hd => hd) (fun _ _ hd => hd) fun _ hg => hg
    by_cases hdraining : s.phase = .draining
    · have hopens := hok.2
      simp only [closesAll, hdraining, hi', Option.any_some, ne_eq, not_true_eq_false, decide_false,
        Bool.false_or, Bool.not_eq_true'] at hopens
      exact hpop.perform hopens
    · refine Stops.of_phase (s := s) ?_ (perform_phase cfg env _ t)
      rcases hphase.imp_right (Or.resolve_left · hdraining) with hphase | hphase <;>
        simp [halting, hphase]
  | @closeFailed c hpc =>
    have hready : Stops { s with pc := .ready } :=
      h.of_same rfl rfl (fun _ hd => hd) (fun _ _ hd => by simp at hd) fun _ hg => hg
    exact hready.setChannel (close_keeps _) false
  | @startHeartbeatTimer c ret hpc =>
    -- no channel is being announced while the loop stops
    refine Stops.of_phase (s := s) (fun hh => h.noNew hh c hpc) ?_
    exact (startHeartbeatTimer_own cfg s c ret).phase
  | onConnect hpc hphase hi' hopen => exact h.uv_on_connect hphase hopen
  | onRead hpc hphase hopen =>
    refine Stops.of_phase (s := s) (fun hh => ?_) (uv_read_cb_own s _ _ _ _ _).phase
    exact (h.channels (stopped_of_halting hphase hh) _).1 hopen
  | @onWrite c i w status ret hpc hphase hi' =>
    have hdone : Stops ({ s with uv := s.uv.complete (.tcp c) i }.emit c (.callback .onWrite)) :=
      h.of_same rfl rfl (fun _ hd => hd) (fun _ _ hd => hd) fun _ hg => hg
    exact hdone.sent (onWriteDone_keeps status ret w (s.chans c)) _ _
  | onTimer hpc hphase hopen =>
    refine Stops.of_phase (s := s) (fun hh => ?_) (uv_on_timer_own s _ _).phase
    exact (h.channels (stopped_of_halting hphase hh) _).2 hopen
  | ipcFailed => exact h.of_same rfl rfl (fun _ hd => hd) (fun _ _ hd => hd) fun _ hg => hg
  | ipcConnected hopen => exact h.of_same rfl rfl (fun _ hd => hd) (fun _ _ hd => hd) fun _ hg => hg
  | ipcError hphase hopen =>
    obtain ⟨hcreated, hchans, -, hpc⟩ := closeIpcPipe_same s
    exact h.of_same (closeIpcPipe_phase s) hcreated (fun d hd => by rwa [hchans])
      (fun _ d hd => hpc ▸ hd) (closing_closeIpcPipe s).opened
  | ipcAccept hpc hphase hopen =>
    exact Stops.of_phase (fun hh => (h.servers hh).2.1 hopen) (adopt_frame s _ _).2
  | acceptConnection hphase hopen =>
    exact Stops.of_phase (fun hh => (h.servers hh).1 hopen) (uv_on_new_connection_frame s _ _ _).2
  | acceptPipe hphase hopen =>
    exact Stops.of_phase (fun hh => (h.servers hh).2.2 _ hopen) (uv_on_pipe_connection_frame s _ _ _).2
  | @afterHandoff k i client hphase hi' =>
    have hclosing := closing_close (s.uv.complete (.session k) i) (.client client)
    exact h.of_same rfl rfl (fun _ hd => hd) (fun _ _ hd => hd) fun g hg => hclosing.opened g hg
  | handleClosed hpc hphase hclosing hreqs => exact h.closeCallback hclosing
  | stopTriggered hpc hphase =>
    refine Stops.onStopTriggered hi ho hpc hphase fun hinit => ?_
    simpa [closesAll, hinit] using hok.2
  | stopCloseEnd hphase => exact h.stopCloseEnd hphase
  | stopClose hphase => exact h.stopClose hphase
  | stopDrained hpc hphase hempty =>
    exact h.stopDrained hi hna hphase hempty (List.isEmpty_iff.mp hok.2)
  | uvRunReturns hpc hphase halive => exact Stops.of_not_halting (by simp [halting])
  | lastTasks hphase => exact Stops.of_not_halting (by simp [halting])
  | endRun hphase => exact Stops.of_not_halting (by simp [halting])

/-- The state in which `onStopTriggered` leaves the loop. -/
structure AllClosed (s : EventLoop) : Prop where
  channels : ∀ id c, s.channels_ id = some c → (s.chans c).closed_ = true
  handles : ∀ c, s.uv.handles (.tcp c) ≠ .opened ∧ s.uv.handles (.heartbeat_timer c) ≠ .opened
  servers : s.uv.handles .server_ ≠ .opened ∧ s.uv.handles .ipc_pipe_ ≠ .opened ∧
    ∀ i, s.uv.handles (.pipe_servers_ i) ≠ .opened
  /-- what is still open, a connection on its way to a worker, waits for nothing but its
      own requests -/
  idle : ∀ h, s.uv.handles h = .opened → s.uv.started h = false

/-- In every run that meets `StopOk`, everything is closed from the end of
    `onStopTriggered` until `uv_run` returns. -/
theorem stop_closes_all {acts : List LoopAct}
    (hok : Run.Meets (step cfg) StopOk (init cfg) acts)
    (hrun : Run.run (step cfg) (init cfg) acts = some s) (hphase : s.phase = .stopped) :
    AllClosed s := by
  have hinit : Stops (init cfg) := Stops.of_not_halting (by simp [halting, init])
  have hsteps : ∀ s a s', Inv s ∧ Own cfg s ∧ Stops s → StopOk s a → step cfg s a = some s' →
      Inv s' ∧ Own cfg s' ∧ Stops s' := by
    rintro s a s' ⟨hi, ho, hs⟩ ha hstep
    exact ⟨inv_step hi ha.1 hstep, own_step ho hstep, stops_step hs hi ho ha hstep⟩
  obtain ⟨hi, ho, hs⟩ :=
    Run.invariant_of_meets hsteps ⟨inv_init cfg, own_init cfg, hinit⟩ hok hrun
  have hservers := hs.servers (Or.inr (Or.inl hphase))
  refine ⟨fun id c hc => hs.closed (Or.inr hphase) c (hi.found id c hc).1, hs.channels hphase,
    hservers, fun h hopen => ?_⟩
  have hasync := hs.asyncs hphase h
  cases h with
  | tcp c => exact absurd hopen (hs.channels hphase c).1
  | heartbeat_timer c => exact absurd hopen (hs.channels hphase c).2
  | server_ => exact absurd hopen hservers.1
  | ipc_pipe_ => exact absurd hopen hservers.2.1
  | pipe_servers_ i => exact absurd hopen (hservers.2.2 i)
  | session k => exact (ho.idle k).1
  | client k => exact (ho.idle k).2
  | _ => exact absurd hopen (hasync (by simp [EventLoop.asyncs]))

/-- A server that has stopped has closed everything. -/
theorem stop_closes_all_served :
    AllClosed ((Run.run _ _ serveAndStop).get serveAndStop_isSome) :=
  stop_closes_all (by decide) (Option.some_get serveAndStop_isSome).symm
    (by decide)

/-- A connect is queued when the loop is stopped. -/
def connectWhileStopping : List LoopAct :=
  [.run none none, .asyncConnect, .stop, .stopTriggered, .stopClose, .runTask 0 {}, .stopDrained]

/-- All actions of this run are enabled. -/
theorem connectWhileStopping_isSome :
    (Run.run (step smallLoop) (init smallLoop) connectWhileStopping).isSome = true := by
  decide

/-- The connect runs after the snapshot, and its channel stays open. -/
theorem connect_outlives_stop :
    ¬ ∀ (cfg : LoopConfig) (acts : List LoopAct) (s : EventLoop),
      Run.run (step cfg) (init cfg) acts = some s → s.phase = .stopped → AllClosed s := by
  intro hall
  obtain ⟨s, hs⟩ : ∃ s, s = (Run.run _ _ connectWhileStopping).get connectWhileStopping_isSome :=
    ⟨_, rfl⟩
  have hrun : Run.run (step smallLoop) (init smallLoop) connectWhileStopping = some s := by
    rw [hs, Option.some_get]
  have hphase : s.phase = .stopped := by
    rw [hs]
    decide
  have hopen : s.uv.handles (.tcp 0) = .opened := by
    rw [hs]
    decide
  exact ((hall smallLoop connectWhileStopping s hrun hphase).handles 0).1 hopen

end Athena.EventLoop
