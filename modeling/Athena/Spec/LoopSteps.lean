import Athena.Spec.LoopInv

/-!
# Every step keeps the channels of a reactor in order

One lemma for each kind of step of `EventLoop.step`, and from them `inv_run`: what
`EventLoop.Inv` says holds in every state of every run that meets `FreshId`.

## Key results

- `inv_step`, `inv_run`
-/

namespace Athena.EventLoop

open Uv Uv.Loop Channel ChannelLife

/-! ## What a step does -/

/-- The outcomes of a step, with what its guards say. -/
inductive Step (cfg : LoopConfig) (s : EventLoop) : LoopAct → EventLoop → Prop
  | nothing {a} : Step cfg s a s
  | close {c} (hc : c < s.created) : Step cfg s (.close c) (s.close c true)
  | enqueueClose {i c} (hi : s.closers[i]? = some c) :
    Step cfg s (.enqueueClose i) ({ s with closers := s.closers.eraseIdx i }.enqueueClose c)
  | queue {a t} (hcloses : ∀ c, LoopTask.closes c t = false)
      (htarget : ∀ c, t.target = some c → ∃ i, s.channels_ i = some c) :
    Step cfg s a (s.executeOnEventLoop t)
  | stop : Step cfg s .stop s.stop
  | generateId (n) : Step cfg s (.generateId n) { s with next_id := s.next_id + n }
  | run {asyncFail ipcFail} (hphase : s.phase = .created) :
    Step cfg s (.run asyncFail ipcFail) (s.run cfg asyncFail ipcFail)
  | runTask {i env t} (hi : s.waitTasks[i]? = some t) (hpc : s.pc = .ready)
      (hphase : s.phase = .running ∨ s.phase = .draining ∨ s.phase = .lastTasks)
      (hrepeats : s.repeats t = false) :
    Step cfg s (.runTask i env)
      ({ s with waitTasks := s.waitTasks.eraseIdx i }.perform cfg env t)
  | closeFailed {c} (hpc : s.pc = .connectFailed c) :
    Step cfg s .closeFailed ({ s with pc := .ready }.close c false)
  | startHeartbeatTimer {c ret} (hpc : s.pc = .newConnection c) :
    Step cfg s (.startHeartbeatTimer ret) (s.startHeartbeatTimer cfg c ret)
  | onConnect {c i status} (hpc : s.pc = .ready) (hphase : s.phase = .running ∨ s.phase = .stopped)
      (hi : (s.uv.reqs (.tcp c))[i]? = some .connect)
      (hopen : s.uv.handles (.tcp c) = .opened ∨ status < 0) :
    Step cfg s (.onConnect c i status) (s.uv_on_connect c i status)
  | onRead {c input closing byOther maxPackBodyLen} (hpc : s.pc = .ready)
      (hphase : s.phase = .running ∨ s.phase = .stopped) (hopen : s.uv.handles (.tcp c) = .opened) :
    Step cfg s (.onRead c input closing byOther maxPackBodyLen)
      (s.uv_read_cb cfg c input closing byOther maxPackBodyLen)
  | onWrite {c i w status ret} (hpc : s.pc = .ready)
      (hphase : s.phase = .running ∨ s.phase = .stopped)
      (hi : (s.uv.reqs (.tcp c))[i]? = some (.write w)) :
    Step cfg s (.onWrite c i status ret) (s.uv_write_cb c i w status ret)
  | onTimer {c closes} (hpc : s.pc = .ready) (hphase : s.phase = .running ∨ s.phase = .stopped)
      (hopen : s.uv.handles (.heartbeat_timer c) = .opened) :
    Step cfg s (.onTimer c closes) (s.uv_on_timer c closes)
  | ipcFailed {status} : Step cfg s (.ipcConnected status) { s with uv := s.uv.complete .ipc_pipe_ 0 }
  | ipcConnected {status} (hopen : s.uv.handles .ipc_pipe_ = .opened) :
    Step cfg s (.ipcConnected status)
      { s with uv := (s.uv.complete .ipc_pipe_ 0).start .ipc_pipe_ }
  | ipcError (hphase : s.phase = .running ∨ s.phase = .stopped)
      (hopen : s.uv.handles .ipc_pipe_ = .opened) : Step cfg s .ipcError s.closeIpcPipe
  | ipcAccept {initRet acceptRet} (hpc : s.pc = .ready)
      (hphase : s.phase = .running ∨ s.phase = .stopped)
      (hopen : s.uv.handles .ipc_pipe_ = .opened) :
    Step cfg s (.ipcAccept initRet acceptRet) (s.adopt cfg initRet acceptRet)
  | acceptConnection {initRet acceptRet writeRet} (hphase : s.phase = .running ∨ s.phase = .stopped)
      (hopen : s.uv.handles .server_ = .opened) :
    Step cfg s (.acceptConnection initRet acceptRet writeRet)
      (s.uv_on_new_connection cfg initRet acceptRet writeRet)
  | acceptPipe {i initRet acceptRet} (hphase : s.phase = .running ∨ s.phase = .stopped)
      (hopen : s.uv.handles (.pipe_servers_ i) = .opened) :
    Step cfg s (.acceptPipe i initRet acceptRet) (s.uv_on_pipe_connection i initRet acceptRet)
  | afterHandoff {k i client} (hphase : s.phase = .running ∨ s.phase = .stopped)
      (hi : (s.uv.reqs (.session k))[i]? = some (.handoff client)) :
    Step cfg s (.afterHandoff k i) (s.after_handoff_cb k i client)
  | handleClosed {g} (hpc : s.pc = .ready)
      (hphase : (s.phase = .running ∨ s.phase = .stopped) ∨ s.phase = .walked)
      (hclosing : s.uv.handles g = .closing) (hreqs : s.uv.reqs g = []) :
    Step cfg s (.handleClosed g) (s.closeCallback g)
  | stopTriggered (hpc : s.pc = .ready) (hphase : s.phase = .running) :
    Step cfg s .stopTriggered (s.onStopTriggered cfg)
  | stopCloseEnd (hphase : s.phase = .closingChannels []) :
    Step cfg s .stopClose { s with phase := .draining }
  | stopClose {c rest} (hphase : s.phase = .closingChannels (c :: rest)) :
    Step cfg s .stopClose ({ s with phase := .closingChannels rest }.close c false)
  | stopDrained (hpc : s.pc = .ready) (hphase : s.phase = .draining) (hempty : s.waitTasks = []) :
    Step cfg s .stopDrained { s with uv := asyncs.foldl Loop.close s.uv, phase := .stopped }
  | uvRunReturns (hpc : s.pc = .ready) (hphase : s.phase = .stopped) (halive : s.uv.alive = false) :
    Step cfg s .uvRunReturns { s with uv := s.uv.walkClose, phase := .walked }
  | lastTasks (hphase : s.phase = .walked) : Step cfg s .lastTasks { s with phase := .lastTasks }
  | endRun (hphase : s.phase = .lastTasks) : Step cfg s .endRun { s with phase := .ended }

variable {s s' : EventLoop} {c : ChannelRef} {cfg : LoopConfig}

/-- A process that has aborted takes no step. -/
theorem aborted_of_step {a : LoopAct} (hstep : step cfg s a = some s') : s.uv.aborted = false := by
  cases hab : s.uv.aborted with
  | false => rfl
  | true => simp [step, hab] at hstep

/-- Callbacks run inside `uv_run`, when nothing else is going on. -/
theorem of_inUvRun (hrun : s.inUvRun = true) :
    s.pc = .ready ∧ (s.phase = .running ∨ s.phase = .stopped) := by
  simpa [inUvRun] using hrun

/-- They are for open handles. -/
theorem of_delivers {g : LoopHandle} (hd : s.delivers g = true) :
    s.pc = .ready ∧ (s.phase = .running ∨ s.phase = .stopped) ∧ s.uv.handles g = .opened := by
  simp only [delivers, Bool.and_eq_true, decide_eq_true_eq] at hd
  obtain ⟨hpc, hphase⟩ := of_inUvRun hd.1.1
  exact ⟨hpc, hphase, hd.1.2⟩

/-- A message that is sent queues a task, or nothing happens. -/
theorem step_cases_send {a : LoopAct} {task : ChannelRef → LoopTask}
    (hcloses : ∀ self d, LoopTask.closes d (task self) = false)
    (htarget : ∀ self, (task self).target = some self)
    (h : (match s.channelPtr c with
      | none => some s
      | some self =>
        if (s.chans c).closed_ then some s else some (s.executeOnEventLoop (task self))) = some s') :
    Step cfg s a s' := by
  -- a channel that is not registered, or closed, is sent nothing
  split at h
  · obtain rfl := Option.some.inj h
    exact .nothing
  · rename_i self hself
    split at h
    · obtain rfl := Option.some.inj h
      exact .nothing
    · obtain rfl := Option.some.inj h
      refine .queue (hcloses self) fun d hd => ?_
      rw [htarget self] at hd
      exact ⟨_, Option.some.inj hd ▸ hself⟩

/-- libuv calls back for an open handle while it runs. -/
theorem of_delivered {g : LoopHandle} {next : EventLoop}
    (h : (if s.delivers g then some next else none) = some s') :
    s.pc = .ready ∧ (s.phase = .running ∨ s.phase = .stopped) ∧ s.uv.handles g = .opened ∧
      next = s' := by
  simp only [Option.ite_none_right_eq_some, Option.some.injEq] at h
  obtain ⟨hd, rfl⟩ := h
  obtain ⟨hpc, hphase, hopen⟩ := of_delivers hd
  exact ⟨hpc, hphase, hopen, rfl⟩

/-- After an abort there is no step. -/
theorem not_aborted_of_step {a : LoopAct} (hstep : step cfg s a = some s') :
    ¬s.uv.aborted = true := by
  rw [aborted_of_step hstep]
  exact Bool.false_ne_true

/-- A queued task is run, unless it is one that would repeat a connect of the pipe. -/
theorem step_cases_runTask {i : Nat} {env : TaskEnv}
    (hstep : step cfg s (.runTask i env) = some s') : Step cfg s (.runTask i env) s' := by
  have hna := not_aborted_of_step hstep
  rw [step, if_neg hna] at hstep
  split at hstep
  · exact nomatch hstep
  · rename_i t hi
    simp only [executing, Option.ite_none_right_eq_some, Option.some.injEq, Bool.and_eq_true,
      Bool.or_eq_true, Bool.not_eq_true', decide_eq_true_eq, or_assoc] at hstep
    obtain ⟨⟨⟨hpc, hphase⟩, hrepeats⟩, rfl⟩ := hstep
    exact .runTask hi hpc hphase hrepeats

/-- A connect that is under way calls back. -/
theorem step_cases_onConnect {i : Nat} {status : Int}
    (hstep : step cfg s (.onConnect c i status) = some s') :
    Step cfg s (.onConnect c i status) s' := by
  have hna := not_aborted_of_step hstep
  rw [step, if_neg hna] at hstep
  simp only [Option.ite_none_right_eq_some, Option.some.injEq, Bool.and_eq_true, Bool.or_eq_true,
    decide_eq_true_eq] at hstep
  obtain ⟨⟨⟨hrun, hi⟩, hopen⟩, rfl⟩ := hstep
  obtain ⟨hpc, hphase⟩ := of_inUvRun hrun
  exact .onConnect hpc hphase hi hopen

/-- A write that is under way calls back. -/
theorem step_cases_onWrite {i : Nat} {status ret : Int}
    (hstep : step cfg s (.onWrite c i status ret) = some s') :
    Step cfg s (.onWrite c i status ret) s' := by
  have hna := not_aborted_of_step hstep
  rw [step, if_neg hna] at hstep
  split at hstep
  · rename_i w hi
    simp only [Option.ite_none_right_eq_some, Option.some.injEq] at hstep
    obtain ⟨hrun, rfl⟩ := hstep
    obtain ⟨hpc, hphase⟩ := of_inUvRun hrun
    exact .onWrite hpc hphase hi
  · exact nomatch hstep

/-- The connect of the pipe calls back, and has failed or not. -/
theorem step_cases_ipcConnected {status : Int}
    (hstep : step cfg s (.ipcConnected status) = some s') :
    Step cfg s (.ipcConnected status) s' := by
  have hna := not_aborted_of_step hstep
  rw [step, if_neg hna] at hstep
  simp only [Option.ite_none_right_eq_some, Option.some.injEq, Bool.and_eq_true, Bool.or_eq_true,
    decide_eq_true_eq] at hstep
  obtain ⟨⟨-, hopen⟩, rfl⟩ := hstep
  split
  · exact .ipcFailed
  · rename_i hstatus
    exact .ipcConnected (hopen.resolve_right hstatus)

/-- The write of a connection to a worker calls back. -/
theorem step_cases_afterHandoff {k i : Nat}
    (hstep : step cfg s (.afterHandoff k i) = some s') : Step cfg s (.afterHandoff k i) s' := by
  have hna := not_aborted_of_step hstep
  rw [step, if_neg hna] at hstep
  split at hstep
  · rename_i client hi
    simp only [Option.ite_none_right_eq_some, Option.some.injEq] at hstep
    obtain ⟨hrun, rfl⟩ := hstep
    exact .afterHandoff (of_inUvRun hrun).2 hi
  · exact nomatch hstep

/-- The close callbacks run in `uv_run` and after the walk. -/
theorem step_cases_handleClosed {g : LoopHandle}
    (hstep : step cfg s (.handleClosed g) = some s') : Step cfg s (.handleClosed g) s' := by
  have hna := not_aborted_of_step hstep
  rw [step, if_neg hna] at hstep
  simp only [Option.ite_none_right_eq_some, Option.some.injEq, Bool.and_eq_true, Bool.or_eq_true,
    decide_eq_true_eq, List.isEmpty_iff] at hstep
  obtain ⟨⟨⟨hphase, hclosing⟩, hreqs⟩, rfl⟩ := hstep
  rcases hphase with hrun | ⟨hpc, hphase⟩
  · obtain ⟨hpc, hphase⟩ := of_inUvRun hrun
    exact .handleClosed hpc (Or.inl hphase) hclosing hreqs
  · exact .handleClosed hpc (Or.inr hphase) hclosing hreqs

/-- The stop callback goes from channel to channel. -/
theorem step_cases_stopClose (hstep : step cfg s .stopClose = some s') :
    Step cfg s .stopClose s' := by
  have hna := not_aborted_of_step hstep
  rw [step, if_neg hna] at hstep
  split at hstep
  · rename_i hphase
    obtain rfl := Option.some.inj hstep
    exact .stopCloseEnd hphase
  · rename_i c rest hphase
    obtain rfl := Option.some.inj hstep
    exact .stopClose hphase
  · exact nomatch hstep

/-- The phases of the stop that come one after the other. -/
theorem step_cases_phases {a : LoopAct}
    (ha : a = .stopTriggered ∨ a = .stopDrained ∨ a = .uvRunReturns ∨ a = .lastTasks ∨ a = .endRun)
    (hstep : step cfg s a = some s') : Step cfg s a s' := by
  have hna := not_aborted_of_step hstep
  unfold step at hstep
  rw [if_neg hna] at hstep
  -- each phase is left in one way
  rcases ha with rfl | rfl | rfl | rfl | rfl
  all_goals
    simp only [Option.ite_none_right_eq_some, Option.some.injEq, Bool.and_eq_true,
      Bool.not_eq_true', decide_eq_true_eq, List.isEmpty_iff] at hstep
  · obtain ⟨⟨⟨hpc, hphase⟩, -⟩, rfl⟩ := hstep
    exact .stopTriggered hpc hphase
  · obtain ⟨⟨⟨hpc, hphase⟩, hempty⟩, rfl⟩ := hstep
    exact .stopDrained hpc hphase hempty
  · obtain ⟨⟨⟨hpc, hphase⟩, halive⟩, rfl⟩ := hstep
    exact .uvRunReturns hpc hphase halive
  · obtain ⟨hphase, rfl⟩ := hstep
    exact .lastTasks hphase
  · obtain ⟨⟨⟨-, hphase⟩, -⟩, rfl⟩ := hstep
    exact .endRun hphase

/-- The calls that other threads make. -/
theorem step_cases_calls {a : LoopAct}
    (ha : (∃ c, a = .close c) ∨ (∃ i, a = .enqueueClose i) ∨ a = .asyncConnect ∨
      a = .connectIpc ∨ a = .startListen ∨ a = .stop ∨ ∃ n, a = .generateId n)
    (hstep : step cfg s a = some s') : Step cfg s a s' := by
  have hna := not_aborted_of_step hstep
  unfold step at hstep
  rw [if_neg hna] at hstep
  -- calls from outside are always enabled, but for a close that has to name a channel
  rcases ha with ⟨c, rfl⟩ | ⟨i, rfl⟩ | rfl | rfl | rfl | rfl | ⟨n, rfl⟩
  · simp only [Option.ite_none_right_eq_some, Option.some.injEq] at hstep
    obtain ⟨hc, rfl⟩ := hstep
    exact .close hc
  · simp only at hstep
    split at hstep
    · exact nomatch hstep
    · rename_i c hi
      obtain rfl := Option.some.inj hstep
      exact .enqueueClose hi
  · obtain rfl := Option.some.inj hstep
    exact .queue (fun _ => rfl) (by simp [LoopTask.target])
  · obtain rfl := Option.some.inj hstep
    exact .queue (fun _ => rfl) (by simp [LoopTask.target])
  · obtain rfl := Option.some.inj hstep
    exact .queue (fun _ => rfl) (by simp [LoopTask.target])
  · obtain rfl := Option.some.inj hstep
    exact .stop
  · obtain rfl := Option.some.inj hstep
    exact .generateId n

/-- A step is one of its outcomes. -/
theorem step_cases {a : LoopAct} (hstep : step cfg s a = some s') : Step cfg s a s' := by
  have hrest := hstep
  unfold step at hrest
  rw [if_neg (not_aborted_of_step hstep)] at hrest
  cases a with
  | close c => exact step_cases_calls (.inl ⟨c, rfl⟩) hstep
  | enqueueClose i => exact step_cases_calls (.inr (.inl ⟨i, rfl⟩)) hstep
  | asyncConnect => exact step_cases_calls (by simp) hstep
  | connectIpc => exact step_cases_calls (by simp) hstep
  | startListen => exact step_cases_calls (by simp) hstep
  | stop => exact step_cases_calls (by simp) hstep
  | generateId n => exact step_cases_calls (by simp) hstep
  -- the two sends differ in the task that they queue
  | sendMsg c msgId msg playerId =>
    exact step_cases_send (fun _ _ => rfl) (fun _ => rfl) hrest
  | sendRawMsg c msgId body playerId =>
    exact step_cases_send (fun _ _ => rfl) (fun _ => rfl) hrest
  | run asyncFail ipcFail =>
    simp only [Option.ite_none_right_eq_some, Option.some.injEq] at hrest
    obtain ⟨hphase, rfl⟩ := hrest
    exact .run hphase
  | runTask i env => exact step_cases_runTask hstep
  | closeFailed =>
    simp only at hrest
    split at hrest
    · rename_i c hpc
      obtain rfl := Option.some.inj hrest
      exact .closeFailed hpc
    · exact nomatch hrest
  | startHeartbeatTimer ret =>
    simp only at hrest
    split at hrest
    · rename_i c hpc
      obtain rfl := Option.some.inj hrest
      exact .startHeartbeatTimer hpc
    · exact nomatch hrest
  | onConnect c i status => exact step_cases_onConnect hstep
  | onRead c input closing byOther maxPackBodyLen =>
    obtain ⟨hpc, hphase, hopen, rfl⟩ := of_delivered hrest
    exact .onRead hpc hphase hopen
  | onWrite c i status ret => exact step_cases_onWrite hstep
  | onTimer c closes =>
    obtain ⟨hpc, hphase, hopen, rfl⟩ := of_delivered hrest
    exact .onTimer hpc hphase hopen
  | ipcConnected status => exact step_cases_ipcConnected hstep
  | ipcError =>
    obtain ⟨-, hphase, hopen, rfl⟩ := of_delivered hrest
    exact .ipcError hphase hopen
  | ipcAccept initRet acceptRet =>
    obtain ⟨hpc, hphase, hopen, rfl⟩ := of_delivered hrest
    exact .ipcAccept hpc hphase hopen
  | acceptConnection initRet acceptRet writeRet =>
    obtain ⟨-, hphase, hopen, rfl⟩ := of_delivered hrest
    exact .acceptConnection hphase hopen
  | acceptPipe i initRet acceptRet =>
    obtain ⟨-, hphase, hopen, rfl⟩ := of_delivered hrest
    exact .acceptPipe hphase hopen
  | afterHandoff k i => exact step_cases_afterHandoff hstep
  | handleClosed g => exact step_cases_handleClosed hstep
  | stopClose => exact step_cases_stopClose hstep
  | stopTriggered => exact step_cases_phases (by simp) hstep
  | stopDrained => exact step_cases_phases (by simp) hstep
  | uvRunReturns => exact step_cases_phases (by simp) hstep
  | lastTasks => exact step_cases_phases (by simp) hstep
  | endRun => exact step_cases_phases (by simp) hstep

/-! ## Ids -/

/-- The step makes a channel. -/
def makesChannel (s : EventLoop) : LoopAct → Bool
  | .runTask i env =>
    match s.waitTasks[i]? with
    | some .asyncConnect => env.addrRet = 0 && env.initRet = 0
    | _ => false
  | .ipcAccept initRet acceptRet => initRet = 0 && acceptRet = 0
  | _ => false

/-- The registry has no channel under the id of a channel that the step makes. -/
def FreshId (s : EventLoop) (a : LoopAct) : Prop :=
  s.makesChannel a = true → s.channels_ (s.next_id + 1) = none

instance (s : EventLoop) (a : LoopAct) : Decidable (FreshId s a) := by
  unfold FreshId
  infer_instance

/-! ## The queue -/

/-- Who holds a channel after a step that only changes the queue and the phase. -/
theorem Inv.mentions_of (h : Inv s) (htasks : ∀ t ∈ s'.waitTasks, t ∈ s.waitTasks)
    (hclosers : s'.closers = s.closers) (hpc : ∀ c, s'.pc = .connectFailed c → s.pc = .connectFailed c)
    (hphase : ∀ rest, s'.phase = .closingChannels rest → ∀ c ∈ rest, c < s.created) :
    ∀ c, s'.Mentions c → c < s.created := by
  intro c hc
  rcases hc with ⟨t, ht, htarget⟩ | hc | hc | ⟨rest, hrest, hc⟩
  · exact h.mentions c (Or.inl ⟨t, htasks t ht, htarget⟩)
  · exact h.mentions c (Or.inr (Or.inl (hclosers ▸ hc)))
  · exact h.mentions c (Or.inr (Or.inr (Or.inl (hpc c hc))))
  · exact hphase rest hrest c hc

/-- The phase changes to one without a snapshot. -/
theorem Inv.setPhase (h : Inv s) {phase : LoopPhase}
    (hlate : ({ s with phase := phase } : EventLoop).late = s.late)
    (hphase : ∀ rest, phase = .closingChannels rest → ∀ c ∈ rest, c < s.created) :
    Inv { s with phase := phase } :=
  h.same (Frame.refl _) rfl (h.mentions_of (fun _ ht => ht) rfl (fun _ hc => hc) hphase) hlate
    (fun _ => rfl) (fun _ => rfl)

/-- A task that is no `closeInLoop` is queued. -/
theorem Inv.execute (h : Inv s) {t : LoopTask} (hcloses : ∀ c, t.closes c = false)
    (htarget : ∀ c, t.target = some c → c < s.created) : Inv (s.executeOnEventLoop t) := by
  refine h.same (Frame.refl _) rfl ?_ rfl (fun _ => rfl) ?_
  · intro d hd
    rcases hd with ⟨u, hu, hut⟩ | hd
    · rcases List.mem_append.mp hu with hu | hu
      · exact h.mentions d (Or.inl ⟨u, hu, hut⟩)
      · rw [List.mem_singleton.mp hu] at hut
        exact htarget d hut
    · exact h.mentions d (Or.inr hd)
  · intro d
    simp [executeOnEventLoop, hcloses]

/-- A task that is no `closeInLoop` is taken from the queue. -/
theorem Inv.takeTask (h : Inv s) {i : Nat} {t : LoopTask} (hi : s.waitTasks[i]? = some t)
    (hcloses : ∀ c, t.closes c = false) : Inv { s with waitTasks := s.waitTasks.eraseIdx i } := by
  refine h.same (Frame.refl _) rfl ?_ rfl (fun _ => rfl) ?_
  · exact h.mentions_of (fun _ ht => List.mem_of_mem_eraseIdx ht) rfl (fun _ hc => hc)
      fun rest hrest d hd => h.mentions d (Or.inr (Or.inr (Or.inr ⟨rest, hrest, hd⟩)))
  · intro d
    have hcount := countP_eraseIdx (p := LoopTask.closes d) hi
    rw [hcloses d, Bool.toNat_false, Nat.add_zero] at hcount
    exact hcount

/-! ## Functions of a channel -/

section
variable (s) (c) (ch : Channel) (byOther : Bool)

/-- Queueing a close does nothing to the handles, -/
@[simp] theorem enqueueClose_uv : (s.enqueueClose c).uv = s.uv := by
  unfold enqueueClose
  split <;> rfl

/-- nor to where the loop is, -/
@[simp] theorem enqueueClose_pc : (s.enqueueClose c).pc = s.pc := by
  unfold enqueueClose
  split <;> rfl

/-- nor to its phase, -/
@[simp] theorem enqueueClose_phase : (s.enqueueClose c).phase = s.phase := by
  unfold enqueueClose
  split <;> rfl

/-- and creates no channel. -/
@[simp] theorem enqueueClose_created : (s.enqueueClose c).created = s.created := by
  unfold enqueueClose
  split <;> rfl

/-- A change of a channel does nothing to the handles, -/
@[simp] theorem setChannel_uv : (s.setChannel c ch byOther).uv = s.uv := by
  unfold setChannel
  simp only
  split
  · split
    · rfl
    · exact enqueueClose_uv _ c
  · rfl

/-- nor to where the loop is, -/
@[simp] theorem setChannel_pc : (s.setChannel c ch byOther).pc = s.pc := by
  unfold setChannel
  simp only
  split
  · split
    · rfl
    · exact enqueueClose_pc _ c
  · rfl

/-- nor to its phase, -/
@[simp] theorem setChannel_phase : (s.setChannel c ch byOther).phase = s.phase := by
  unfold setChannel
  simp only
  split
  · split
    · rfl
    · exact enqueueClose_phase _ c
  · rfl

/-- and creates no channel. -/
@[simp] theorem setChannel_created : (s.setChannel c ch byOther).created = s.created := by
  unfold setChannel
  simp only
  split
  · split
    · rfl
    · exact enqueueClose_created _ c
  · rfl

end

/-- A send function of the channel has run. -/
theorem Inv.sent (h : Inv s) (hc : c < s.created) {ch : Channel} {issued : Option UvWrite}
    (hk : Keeps (s.chans c) ch) (hissued : ∀ w, issued = some w → (s.chans c).closed_ = false)
    (byOther : Bool) : Inv (s.sent c ch issued byOther) := by
  have hset := h.setChannel hc hk byOther
  unfold EventLoop.sent
  cases issued with
  | none => exact hset
  | some w =>
    refine hset.withReqs (by rw [setChannel_created]; exact hc) (_ ++ [LoopReq.write w])
      (s.setChannel c ch byOther).pc ?_ ?_ (fun _ _ => rfl) ?_ hset.early
    · -- the channel was not closed, so its handle is open
      intro hg
      have hguard : s.Guarded c := by
        rcases hg with hg | ⟨hna, hl⟩
        · exact Or.inl (by simpa using hg)
        · refine Or.inr ⟨by simpa using hna, ?_⟩
          simpa [late] using hl
      have htcp := ((h.ok c hc hguard).opened (hissued w rfl)).2.1
      have hsame : (s.setChannel c ch byOther).view c = { (s.setChannel c ch byOther).view c with
          tcp := (s.view c).tcp } := by simp [view]
      rw [hsame, htcp]
      simp
    · simp [view]
    · intro d hd
      exact hset.mentions d (Or.inr (Or.inr (Or.inl hd)))

/-! ## Tasks -/

/-- A connect makes a channel, which is registered under a new id, or it fails. -/
theorem Inv.connectTask (h : Inv s) (hpc : s.pc = .ready) (env : TaskEnv)
    (hid : env.addrRet = 0 → env.initRet = 0 → s.channels_ (s.next_id + 1) = none) :
    Inv (s.connectTask cfg env) := by
  unfold EventLoop.connectTask
  split
  · exact h
  split
  · exact h
  rename_i haddr hinit
  rw [not_not] at haddr hinit
  have hfresh := hid haddr hinit
  have hreqs : s.uv.reqs (.tcp s.created) = [] :=
    List.length_eq_zero_iff.mp (h.blank s.created (Nat.le_refl _)).reqs
  have hannounces : ∀ d, s.pc.announces d = false := fun d => by simp [hpc]
  -- the branches differ in the requests and in what is left to do
  have hnew : ∀ (reqs : List LoopReq) pc, reqs.count LoopReq.connect ≤ 1 →
      (∀ d, LoopPc.announces d pc = false) → (∀ d, pc = .connectFailed d → d ≤ s.created) →
      Inv (({ s with uv := s.uv.init (.tcp s.created) }.newChannel cfg).withReqs s.created reqs pc) := by
    intro reqs pc hcount hnone hm
    refine h.newChannel cfg hfresh reqs pc ?_ ?_ hm (fun _ d => hnone d)
    · rw [hnone]; exact hcount
    · intro d _; rw [hnone, hannounces]
  have heq := newChannel_eq (s := { s with uv := s.uv.init (.tcp s.created) }) cfg hfresh
  simp only
  split
  · have hfailed := hnew [] (.connectFailed s.created) (by simp) (fun _ => rfl) (fun d hd => by
      rw [LoopPc.connectFailed.inj hd])
    rw [heq] at hfailed ⊢
    simpa only [EventLoop.withReqs, Loop.init, ← hreqs, Function.update_eq_self] using hfailed
  · have hconnect := hnew [.connect] s.pc (by simp) hannounces (fun d hd => by
      rw [hpc] at hd; simp at hd)
    rw [heq] at hconnect ⊢
    simpa only [EventLoop.withReqs, Loop.init, Loop.submit, hreqs, List.nil_append] using hconnect

/-- The pipe to the boss is no channel. -/
theorem Inv.ipcTask (h : Inv s) (env : TaskEnv) : Inv (s.ipcTask env) := by
  unfold EventLoop.ipcTask
  split
  · exact h
  · exact h.of_frame ((frame_init rfl).trans (frame_submit rfl _)) rfl rfl

/-- Nor is the server. -/
theorem Inv.listenTask (h : Inv s) (env : TaskEnv) : Inv (s.listenTask env) := by
  have hinit : Inv { s with uv := s.uv.init .server_ } := h.of_frame (frame_init rfl) rfl rfl
  unfold EventLoop.listenTask
  simp only
  split
  · exact h
  split
  · exact hinit
  split
  · exact hinit
  split
  · exact hinit
  · exact h.of_frame ((frame_init rfl).trans (frame_start rfl)) rfl rfl

/-- A task runs. -/
theorem Inv.runTask (h : Inv s) (hna : s.uv.aborted = false) {i : Nat} {t : LoopTask}
    (hi : s.waitTasks[i]? = some t) (hpc : s.pc = .ready) (env : TaskEnv)
    (hid : FreshId s (.runTask i env)) :
    Inv ({ s with waitTasks := s.waitTasks.eraseIdx i }.perform cfg env t) := by
  have htarget : ∀ c, t.target = some c → c < s.created := fun c hc =>
    h.mentions c (Or.inl ⟨t, List.mem_of_getElem? hi, hc⟩)
  -- a task for a channel was queued for one that exists
  cases t with
  | closeInLoop self => exact h.closeInLoop hna hi
  | eventLoopWrite self msgId msg playerId =>
    have htaken := h.takeTask hi (fun _ => rfl)
    exact htaken.sent (htarget self rfl) (eventLoopWrite_keeps _ _ _ _ _ _ _)
      (fun w hw => eventLoopWrite_issued hw) env.raced
  | eventLoopRawWrite self msgId body playerId =>
    have htaken := h.takeTask hi (fun _ => rfl)
    exact htaken.sent (htarget self rfl) (eventLoopRawWrite_keeps _ _ _ _ _ _)
      (fun w hw => eventLoopRawWrite_issued hw) env.raced
  | asyncConnect =>
    refine (h.takeTask hi (fun _ => rfl)).connectTask hpc env ?_
    intro haddr hinit
    refine hid ?_
    simp [makesChannel, hi, haddr, hinit]
  | connectIpc => exact (h.takeTask hi (fun _ => rfl)).ipcTask env
  | startListen => exact (h.takeTask hi (fun _ => rfl)).listenTask env

/-! ## Callbacks -/

/-- A handle of a channel that libuv knows. -/
theorem Inv.lt_of_tcp (h : Inv s) (hinit : s.uv.handles (.tcp c) ≠ .uninit) : c < s.created := by
  by_contra hge
  exact hinit (h.blank c (Nat.not_lt.mp hge)).tcp

/-- While callbacks run, a channel with a request is there. -/
theorem Inv.of_request (h : Inv s) (hna : s.uv.aborted = false) (hlate : s.late = false) {i : Nat}
    {r : LoopReq} (hi : (s.uv.reqs (.tcp c))[i]? = some r) :
    c < s.created ∧ (s.view c).tcp ≠ .closed ∧ .erase ∉ (s.view c).log := by
  have hreqs : (s.view c).reqs ≠ 0 := by
    obtain ⟨hlt, -⟩ := List.getElem?_eq_some_iff.mp hi
    simp only [view]
    omega
  have hc : c < s.created := by
    by_contra hge
    exact hreqs (h.blank c (Nat.not_lt.mp hge)).reqs
  have hok := h.ok c hc (Or.inr ⟨hna, hlate⟩)
  have hopen : (s.view c).tcp ≠ .closed := fun hclosed => hreqs (hok.noReqs hclosed)
  exact ⟨hc, hopen, hok.not_erased (Or.inl hopen)⟩

/-- A request of a channel is done. -/
theorem Inv.completeRequest (h : Inv s) (hna : s.uv.aborted = false) (hlate : s.late = false)
    {i : Nat} {r : LoopReq} (hi : (s.uv.reqs (.tcp c))[i]? = some r) (cb : ChannelCallback)
    (hcb : cb ≠ .onTcpClosed ∧ cb ≠ .onTimerClosed) (pc : LoopPc)
    (hk : ((s.uv.reqs (.tcp c)).eraseIdx i).count .connect + (pc.announces c).toNat ≤
      (s.view c).connects)
    (hpc : ∀ d ≠ c, pc.announces d = s.pc.announces d)
    (hm : ∀ d, pc = .connectFailed d → d < s.created) :
    Inv ((s.emit c (.callback cb)).withReqs c ((s.uv.reqs (.tcp c)).eraseIdx i) pc) := by
  obtain ⟨hc, hopen, hnot⟩ := h.of_request hna hlate hi
  refine (h.callback hc cb hnot hcb).withReqs hc _ pc (fun _ => hopen) hk hpc hm ?_
  intro hl
  rw [show (s.emit c (.callback cb)).late = s.late from rfl, hlate] at hl
  exact absurd hl (by decide)

/-- The callback of a connect takes its request and announces the channel, or closes it. -/
theorem Inv.uv_on_connect (h : Inv s) (hna : s.uv.aborted = false) (hlate : s.late = false)
    (hpc : s.pc = .ready) {i : Nat} (hi : (s.uv.reqs (.tcp c))[i]? = some .connect) (status : Int) :
    Inv (s.uv_on_connect c i status) := by
  obtain ⟨hc, -, -⟩ := h.of_request hna hlate hi
  have hcount := countP_eraseIdx (p := (· == LoopReq.connect)) hi
  simp only [beq_self_eq_true, Bool.toNat_true] at hcount
  have hconnects : (s.view c).connects = (s.uv.reqs (.tcp c)).count .connect := by
    simp [view, hpc]
  rw [List.count] at hconnects
  -- the request is taken out, whatever comes of it
  have hdone : ∀ pc : LoopPc, (∀ d ≠ c, pc.announces d = false) →
      (∀ d, pc = .connectFailed d → d < s.created) →
      Inv ((s.emit c (.callback .onConnect)).withReqs c ((s.uv.reqs (.tcp c)).eraseIdx i) pc) := by
    intro pc hothers hm
    refine h.completeRequest hna hlate hi _ (by simp) pc ?_ ?_ hm
    · rw [hconnects, ← hcount, List.count]
      have : (pc.announces c).toNat ≤ 1 := Bool.toNat_le _
      omega
    · intro d hd
      rw [hothers d hd, hpc]
      rfl
  unfold EventLoop.uv_on_connect
  simp only
  split
  · exact hdone (.connectFailed c) (fun _ _ => rfl) (fun d hd => by
      rw [← LoopPc.connectFailed.inj hd]; exact hc)
  · exact (hdone (.newConnection c) (fun d hd => by simp [Ne.symm hd]) (by simp)).startTcp c

/-- The callback of a write takes its request. -/
theorem Inv.uv_write_cb (h : Inv s) (hna : s.uv.aborted = false) (hlate : s.late = false)
    {i : Nat} {w : UvWrite} (hi : (s.uv.reqs (.tcp c))[i]? = some (.write w)) (status ret : Int) :
    Inv (s.uv_write_cb c i w status ret) := by
  obtain ⟨hc, -, -⟩ := h.of_request hna hlate hi
  have hcount := countP_eraseIdx (p := (· == LoopReq.connect)) hi
  have hdone := h.completeRequest hna hlate hi .onWrite (by simp) s.pc (by
    simp only [view, List.count]
    omega) (fun _ _ => rfl) (fun d hd => h.mentions d (Or.inr (Or.inr (Or.inl hd))))
  exact hdone.sent hc (onWriteDone_keeps status ret w (s.chans c))
    (fun w' hw' => onWriteDone_issued hw') false

/-- The callback of a read calls `onRead` of an open channel. -/
theorem Inv.uv_read_cb (h : Inv s) (hna : s.uv.aborted = false) (hlate : s.late = false)
    (hopen : s.uv.handles (.tcp c) = .opened) (input : Except Int (List UInt8))
    (closing : Nat → Bool) (byOther : Bool) (maxPackBodyLen : Nat) :
    Inv (s.uv_read_cb cfg c input closing byOther maxPackBodyLen) := by
  have hc := h.lt_of_tcp (c := c) (by simp [hopen])
  have hok := h.ok c hc (Or.inr ⟨hna, hlate⟩)
  have hnot := hok.not_erased (Or.inl (by rw [show (s.view c).tcp = _ from hopen]; simp))
  have hcalled := h.callback hc .onRead hnot (by simp)
  unfold EventLoop.uv_read_cb
  refine hcalled.setChannel hc ?_ byOther
  cases input with
  | error nread => exact (uv_alloc_cb_keeps _).trans (uv_read_cb_keeps _ _ _ _ _)
  | ok bytes => exact readEvent_keeps _ _ _ _ _

/-- The callback of a timer may close its channel. -/
theorem Inv.uv_on_timer (h : Inv s) (hna : s.uv.aborted = false) (hlate : s.late = false)
    (hopen : s.uv.handles (.heartbeat_timer c) = .opened) (closes : Bool) :
    Inv (s.uv_on_timer c closes) := by
  -- the timer of a channel that does not exist has not been initialised
  have hc : c < s.created := by
    by_contra hge
    have htimer : s.uv.handles _ = _ := (h.blank c (Nat.not_lt.mp hge)).timer
    rw [hopen] at htimer
    simp at htimer
  have hok := h.ok c hc (Or.inr ⟨hna, hlate⟩)
  have hnot := hok.not_erased (Or.inr (by rw [show (s.view c).timer = _ from hopen]; simp))
  have hcalled := h.callback hc .onTimer hnot (by simp)
  unfold EventLoop.uv_on_timer
  simp only
  split
  · exact hcalled
  split
  · exact hcalled.setChannel hc (close_keeps _) false
  · exact hcalled

/-- A connection that a worker adopts becomes a channel under a new id. -/
theorem Inv.adopt (h : Inv s) (hpc : s.pc = .ready) (hlate : s.late = false) (initRet acceptRet : Int)
    (hid : FreshId s (.ipcAccept initRet acceptRet)) : Inv (s.adopt cfg initRet acceptRet) := by
  unfold EventLoop.adopt
  split
  · exact h
  split
  · exact h.of_frame ((frame_init rfl).trans (frame_close rfl)) rfl rfl
  rename_i hinit haccept
  rw [not_not] at hinit haccept
  -- the new id is free
  have hfresh : s.channels_ (s.next_id + 1) = none := hid (by simp [makesChannel, hinit, haccept])
  have hreqs : s.uv.reqs (.tcp s.created) = [] :=
    List.length_eq_zero_iff.mp (h.blank s.created (Nat.le_refl _)).reqs
  have hnew := h.newChannel cfg hfresh [] (.newConnection s.created) (by simp)
    (fun d hd => by simp [hpc, Ne.symm hd]) (by simp) (fun hl => by rw [hlate] at hl; simp at hl)
  have heq := newChannel_eq (s := { s with uv := s.uv.init (.tcp s.created) }) cfg hfresh
  have hstarted := hnew.startTcp s.created
  simp only
  rw [heq] at hstarted ⊢
  simpa only [EventLoop.withReqs, Loop.init, ← hreqs, Function.update_eq_self] using hstarted

/-! ## Connections for other loops -/

/-- The pipe to the boss is no channel. -/
theorem Inv.closeIpcPipe (h : Inv s) : Inv s.closeIpcPipe := by
  unfold EventLoop.closeIpcPipe
  split
  · exact h
  · exact h.of_frame (frame_close rfl) rfl rfl

/-- Nor are the connections that are passed on, -/
theorem Inv.handoffToWorker (h : Inv s) (writeRet : Int) (client tried : Nat) :
    Inv (s.handoffToWorker writeRet client tried) := by
  induction tried generalizing s with
  | zero => exact h.of_frame (frame_close rfl) rfl rfl
  | succ tried ih =>
    unfold EventLoop.handoffToWorker
    simp only
    split
    · exact ih (h.of_frame (Frame.refl _) rfl rfl)
    · split
      · exact h.of_frame (frame_submit rfl _) rfl rfl
      · exact h.of_frame (frame_close rfl) rfl rfl

/-- those that are accepted, -/
theorem Inv.uv_on_new_connection (h : Inv s) (initRet acceptRet writeRet : Int) :
    Inv (s.uv_on_new_connection cfg initRet acceptRet writeRet) := by
  unfold EventLoop.uv_on_new_connection
  simp only
  split
  · exact h
  split
  · exact h.of_frame ((frame_init rfl).trans (frame_close rfl)) rfl rfl
  · have hinit : Inv { s with uv := s.uv.init (.client s.objects), objects := s.objects + 1 } :=
      h.of_frame (frame_init rfl) rfl rfl
    exact hinit.handoffToWorker _ _ _

/-- and the workers' connections to their pipe servers. -/
theorem Inv.uv_on_pipe_connection (h : Inv s) (i : Nat) (initRet acceptRet : Int) :
    Inv (s.uv_on_pipe_connection i initRet acceptRet) := by
  unfold EventLoop.uv_on_pipe_connection
  simp only
  split
  · exact h
  split
  · exact h.of_frame ((frame_init rfl).trans (frame_close rfl)) rfl rfl
  · exact h.of_frame (frame_init rfl) rfl rfl

/-! ## Starting and stopping -/

/-- The wake-up handles are no channel's. -/
theorem isChannel_asyncs {g : LoopHandle} (hg : g ∈ asyncs) : g.isChannel = false := by
  simp only [asyncs, List.mem_cons, List.not_mem_nil, or_false] at hg
  rcases hg with rfl | rfl | rfl | rfl <;> rfl

/-- `stop` only sends a signal. -/
theorem Inv.stop (h : Inv s) : Inv s.stop := by
  unfold EventLoop.stop
  split
  · exact h
  · exact h.of_frame (Frame.refl _) rfl rfl

/-- `run` initialises handles of no channel. -/
theorem Inv.run (h : Inv s) (hphase : s.phase = .created) (asyncFail : Option Nat)
    (ipcFail : Option (Nat × Bool)) : Inv (s.run cfg asyncFail ipcFail) := by
  have hlate : s.late = false := by simp [late, hphase]
  have hasyncs : SameHandles s.uv ((asyncs.take (asyncFail.getD asyncs.length)).foldl
      (fun uv h => (uv.init h).start h) s.uv) := by
    refine frame_foldl _ (fun l g hg => ?_) fun g hg => isChannel_asyncs (List.mem_of_mem_take hg)
    exact (frame_init hg).trans (frame_start hg)
  -- no channel is named that was not named before
  have hm : ∀ t : EventLoop, t.waitTasks = s.waitTasks → t.closers = s.closers → t.pc = s.pc →
      (∀ rest, t.phase ≠ .closingChannels rest) → ∀ c, t.Mentions c → c < s.created := by
    intro t htasks hclosers hpc hne
    exact h.mentions_of (fun u hu => htasks ▸ hu) hclosers (fun c hc => hpc ▸ hc)
      fun rest hrest => absurd hrest (hne rest)
  unfold EventLoop.run
  simp only
  split
  · exact h.same hasyncs rfl (hm _ rfl rfl rfl (by simp)) (by rw [hlate]; rfl) (fun _ => rfl)
      (fun _ => rfl)
  · have hrunning : ∀ uv, SameHandles s.uv uv →
        Inv { s with
          uv := uv, asyncs_inited_ := true, sessions_ := List.replicate cfg.worker_num none
          phase := .running } := fun uv huv =>
      h.same huv rfl (hm _ rfl rfl rfl (by simp)) (by rw [hlate]; rfl) (fun _ => rfl) (fun _ => rfl)
    have hinited := hrunning _
      (hasyncs.trans (@frame_initIpcServers _ _ ipcFail (List.range cfg.worker_num) fun _ _ => rfl))
    split
    · exact hinited
    · exact hinited.stop

/-- `onStopTriggered` goes on with the channels that are registered. -/
theorem Inv.onStopTriggered (h : Inv s) (hlate : s.late = false) : Inv (s.onStopTriggered cfg) := by
  have hservers : Inv { s with stopSent := false, uv := s.closeServers cfg } :=
    h.of_frame (frame_closeServers cfg s rfl (fun _ => rfl) fun _ => rfl) rfl rfl
  have hpipe := hservers.closeIpcPipe
  unfold EventLoop.onStopTriggered
  simp only
  refine hpipe.setPhase ?_ ?_
  · unfold EventLoop.closeIpcPipe
    split
    · exact hlate.symm
    · exact hlate.symm
  · -- the channels to be closed are the registered ones, which exist
    intro rest hrest d hd
    obtain rfl := LoopPhase.closingChannels.inj hrest
    simp only [snapshot, List.mem_filter, List.mem_range] at hd
    exact hd.1

/-- The wake-up handles are closed. -/
theorem Inv.stopDrained (h : Inv s) (hlate : s.late = false) :
    Inv { s with uv := asyncs.foldl Loop.close s.uv, phase := .stopped } := by
  refine h.same (frame_foldl _ (fun l g hg => frame_close hg) fun g => isChannel_asyncs) rfl
    ?_ (by rw [hlate]; rfl) (fun _ => rfl) (fun _ => rfl)
  exact h.mentions_of (fun _ ht => ht) rfl (fun _ hc => hc) fun rest hrest => by simp at hrest

/-! ## Every step -/

/-- In `uv_run` the loop is not past its end. -/
theorem late_of_phase (hphase : s.phase = .running ∨ s.phase = .stopped) : s.late = false := by
  rcases hphase with hphase | hphase <;> simp [late, hphase]

/-- Every step keeps the channels in order. -/
theorem inv_step (h : Inv s) {a : LoopAct} (hid : FreshId s a) (hstep : step cfg s a = some s') :
    Inv s' := by
  have hna := aborted_of_step hstep
  cases step_cases hstep with
  | nothing => exact h
  | close hc => exact h.setChannel hc (close_keeps _) true
  | enqueueClose hi => exact h.enqueueClose hi
  | queue hcloses htarget =>
    refine h.execute hcloses (fun d hd => ?_)
    obtain ⟨i, hi⟩ := htarget d hd
    exact (h.found i d hi).1
  | stop => exact h.stop
  | generateId n => exact h.of_frame (Frame.refl _) rfl rfl
  | run hphase => exact h.run hphase _ _
  | runTask hi hpc hphase hrepeats => exact h.runTask hna hi hpc _ hid
  | @closeFailed c hpc =>
    -- after the callback of a failed connect the channel is closed
    have hready : Inv { s with pc := .ready } := by
      refine h.same (Frame.refl _) rfl ?_ rfl (fun d => by simp [hpc]) (fun _ => rfl)
      exact h.mentions_of (fun _ ht => ht) rfl (fun d hd => by simp at hd)
        fun rest hrest d hd => h.mentions d (Or.inr (Or.inr (Or.inr ⟨rest, hrest, hd⟩)))
    exact hready.setChannel (h.mentions c (Or.inr (Or.inr (Or.inl hpc)))) (close_keeps _) false
  | startHeartbeatTimer hpc => exact h.startHeartbeatTimer hna cfg hpc _
  | onConnect hpc hphase hi hopen => exact h.uv_on_connect hna (late_of_phase hphase) hpc hi _
  | onRead hpc hphase hopen => exact h.uv_read_cb hna (late_of_phase hphase) hopen _ _ _ _
  | onWrite hpc hphase hi => exact h.uv_write_cb hna (late_of_phase hphase) hi _ _
  | onTimer hpc hphase hopen => exact h.uv_on_timer hna (late_of_phase hphase) hopen _
  | ipcFailed => exact h.of_frame (frame_complete rfl 0) rfl rfl
  | ipcConnected => exact h.of_frame ((frame_complete rfl 0).trans (frame_start rfl)) rfl rfl
  | ipcError => exact h.closeIpcPipe
  | ipcAccept hpc hphase => exact h.adopt hpc (late_of_phase hphase) _ _ hid
  | acceptConnection => exact h.uv_on_new_connection _ _ _
  | acceptPipe => exact h.uv_on_pipe_connection _ _ _
  | afterHandoff => exact h.of_frame ((frame_complete rfl _).trans (frame_close rfl)) rfl rfl
  | handleClosed hpc hphase hclosing hreqs =>
    refine h.closeCallback hna hclosing hreqs ?_
    rcases hphase with hphase | hphase
    · exact Or.inl (late_of_phase hphase)
    · exact Or.inr hphase
  | stopTriggered hpc hphase => exact h.onStopTriggered (by simp [late, hphase])
  | stopCloseEnd hphase => exact h.setPhase (by simp [late, hphase]) (by simp)
  | @stopClose c rest hphase =>
    -- the channels that are still to close have been created
    have hin : ∀ d ∈ c :: rest, d < s.created := fun d hd =>
      h.mentions d (Or.inr (Or.inr (Or.inr ⟨_, hphase, hd⟩)))
    have hrest : Inv { s with phase := .closingChannels rest } := by
      refine h.setPhase (by simp [late, hphase]) ?_
      intro l hl d hd
      obtain rfl := LoopPhase.closingChannels.inj hl
      exact hin d (List.mem_cons_of_mem c hd)
    exact hrest.setChannel (hin c List.mem_cons_self) (close_keeps _) false
  | stopDrained hpc hphase => exact h.stopDrained (by simp [late, hphase])
  | uvRunReturns hpc hphase halive => exact h.uvRunReturns hna hphase hpc halive
  | lastTasks hphase => exact h.setPhase (by simp [late, hphase]) (by simp)
  | endRun hphase => exact h.setPhase (by simp [late, hphase]) (by simp)

/-- The invariant holds throughout a run that takes fresh ids. -/
theorem inv_run {acts : List LoopAct} (hok : Run.Meets (step cfg) FreshId (init cfg) acts)
    (hrun : Run.run (step cfg) (init cfg) acts = some s) : Inv s :=
  Run.invariant_of_meets (fun _ _ _ h hid hstep => inv_step h hid hstep) (inv_init cfg) hok hrun

/-- A loop with small buffers. -/
def smallLoop : LoopConfig where
  eventTrigger := true
  worker_num := 0
  malloc := zeroed
  realloc _ := true
  recv_buff_size_ := 8
  send_buff_size_ := 8
  proto_mode_ := .INNER

end Athena.EventLoop
