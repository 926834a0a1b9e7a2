import Athena.Spec.LoopHandles

/-!
# Handles are closed once, and after they are initialised

`uv_close` aborts the process for a handle that is not initialised or already
closing.  A reactor gets there in two ways: `closeInLoop` closes the heartbeat timer
of a channel that has none yet (its connect failed or is under way, or the loop has
no event trigger), and `onStopTriggered` closes the pipe servers of all workers when
`initIpcServers` has failed before the last one.  `HandleOk` leaves these out; then
every `uv_close` is right.

## Key results

- `handle_safety`
- `failed_connect_aborts`: a connect that fails
-/

namespace Athena.EventLoop

open Uv Uv.Loop

/-- A new channel has a new id, `closeInLoop` is for a channel with a timer, and every
    pipe server is initialised. -/
def HandleOk (cfg : LoopConfig) (s : EventLoop) (a : LoopAct) : Prop :=
  FreshId s a ∧
    match a with
    | .runTask i _ =>
      match s.waitTasks[i]? with
      | some (.closeInLoop self) => s.uv.handles (.heartbeat_timer self) ≠ .uninit
      | _ => True
    | .run _ (some (i, inited)) => cfg.worker_num ≤ if inited then i + 1 else i
    | _ => True

instance (cfg : LoopConfig) (s : EventLoop) (a : LoopAct) : Decidable (HandleOk cfg s a) := by
  unfold HandleOk
  refine @instDecidableAnd _ _ _ ?_
  split
  · split <;> infer_instance
  · infer_instance
  · infer_instance

/-- Nothing has gone wrong with a handle. -/
structure Handled (cfg : LoopConfig) (s : EventLoop) : Prop where
  sound : Sound s.uv
  pipes : s.phase = .running → ∀ i < cfg.worker_num, s.uv.handles (.pipe_servers_ i) ≠ .uninit

/-- A loop that has not run has no handles. -/
theorem handled_init (cfg : LoopConfig) : Handled cfg (init cfg) where
  sound := Sound.empty
  pipes hphase := by simp [init] at hphase

variable {s s' : EventLoop} {c : ChannelRef} {cfg : LoopConfig}

/-- A step that keeps the handles sound and takes no pipe server away. -/
theorem Handled.of_sound (h : Handled cfg s) (hsound : Sound s'.uv)
    (hphase : s'.phase = .running → s.phase = .running ∧ ∀ i,
      s.uv.handles (.pipe_servers_ i) ≠ .uninit → s'.uv.handles (.pipe_servers_ i) ≠ .uninit) :
    Handled cfg s' where
  sound := hsound
  pipes hrunning i hi := by
    obtain ⟨hrun, hmono⟩ := hphase hrunning
    exact hmono i (h.pipes hrun i hi)

/-- A step that leaves alone what belongs to no channel. -/
theorem Handled.of_own (h : Handled cfg s) (hsame : SameOwn s s') (hsound : Sound s'.uv) :
    Handled cfg s' := by
  refine h.of_sound hsound fun hrunning => ⟨hsame.phase ▸ hrunning, fun i hi => ?_⟩
  rwa [hsame.uv.handles _ (by rfl)]

/-- A step that closes handles in the same phase, or in one that is not `running`. -/
theorem Handled.of_closing (h : Handled cfg s) (hclosing : Closing s.uv s'.uv)
    (hphase : s'.phase = .running → s.phase = .running) (hsound : Sound s'.uv) :
    Handled cfg s' := by
  refine h.of_sound hsound fun hrunning => ⟨hphase hrunning, fun i hi => ?_⟩
  rwa [ne_eq, hclosing.uninit]

/-! ## Channels -/

/-- A send touches no handle. -/
theorem sent_sound (hs : Sound s.uv) (c : ChannelRef) (ch : Channel) (issued : Option UvWrite)
    (byOther : Bool) : Sound (s.sent c ch issued byOther).uv := by
  have hset : Sound (s.setChannel c ch byOther).uv := by rwa [setChannel_uv]
  unfold EventLoop.sent
  cases issued with
  | none => exact hset
  | some w => exact hset.submit _ _

/-- Releasing a channel touches no handle. -/
theorem releaseChannel_uv (s : EventLoop) (c : ChannelRef) : (s.releaseChannel c).uv = s.uv := by
  unfold releaseChannel
  split <;> rfl

/-- The counting of close callbacks touches no handle. -/
theorem onHandleClosed_uv (s : EventLoop) (c : ChannelRef) (isClient : Bool) :
    (s.onHandleClosed c isClient).uv = s.uv := by
  unfold EventLoop.onHandleClosed
  simp only
  split
  · exact releaseChannel_uv _ c
  · rfl

/-- A close callback finishes its handle, whatever else it does. -/
theorem closeCallback_uv (s : EventLoop) (g : LoopHandle) :
    (s.closeCallback g).uv = s.uv.finish g := by
  unfold EventLoop.closeCallback
  simp only
  split
  · rfl
  · cases g with
    | tcp c => exact onHandleClosed_uv _ c true
    | heartbeat_timer c => exact onHandleClosed_uv _ c false
    | _ => rfl

/-- A close callback starts and ends nothing. -/
theorem closeCallback_phase (s : EventLoop) (g : LoopHandle) :
    (s.closeCallback g).phase = s.phase := by
  unfold EventLoop.closeCallback
  simp only
  split
  · rfl
  · cases g with
    | tcp c => exact (onHandleClosed_own _ c true).phase
    | heartbeat_timer c => exact (onHandleClosed_own _ c false).phase
    | _ => rfl

/-- `closeInLoop` closes the two handles of its channel. -/
theorem closeInLoop_uv (s : EventLoop) (c : ChannelRef) :
    (s.closeInLoop c).uv = closeBoth s.uv c := by
  unfold EventLoop.closeInLoop
  simp only
  split <;> rfl

/-- `closeInLoop` closes two open handles. -/
theorem closeBoth_sound {l : Loop LoopHandle LoopReq} (hs : Sound l)
    (htcp : l.handles (.tcp c) = .opened) (htimer : l.handles (.heartbeat_timer c) = .opened) :
    Sound (closeBoth l c) := by
  have hclosed := (hs.stop (.tcp c)).close htcp
  refine hclosed.close ?_
  rw [handles_close_of_ne (by simp)]
  exact htimer

/-- `closeInLoop` of a channel with a timer finds both handles open. -/
theorem Inv.opened_of_closes (h : Inv s) {i : Nat} (hi : s.waitTasks[i]? = some (.closeInLoop c))
    (hinit : s.uv.handles (.heartbeat_timer c) ≠ .uninit) :
    s.uv.handles (.tcp c) = .opened ∧ s.uv.handles (.heartbeat_timer c) = .opened := by
  have hmem := List.mem_of_getElem? hi
  have hc : c < s.created := h.mentions c (Or.inl ⟨_, hmem, rfl⟩)
  have hpos : 0 < s.waitTasks.countP (LoopTask.closes c) :=
    List.countP_pos_iff.mpr ⟨_, hmem, by simp [LoopTask.closes]⟩
  have hpending : (s.view c).pending ≠ 0 := by
    simp only [view]
    omega
  obtain ⟨-, -, -, htcp, htimer⟩ := (h.ok c hc (Or.inl hinit)).opened_of_pending hpending
  exact ⟨htcp, htimer.resolve_right hinit⟩

/-- A connect initialises the handle of a new channel only. -/
theorem connectTask_sound (h : Inv s) (hs : Sound s.uv) (env : TaskEnv) :
    Sound (s.connectTask cfg env).uv := by
  have hinit : Sound (s.uv.init (.tcp s.created)) :=
    hs.init (h.blank s.created (Nat.le_refl _)).tcp
  unfold EventLoop.connectTask
  split
  · exact hs
  split
  · exact hs
  simp only
  split
  · simp only [newChannel_uv]
    exact hinit
  · simp only [newChannel_uv]
    exact hinit.submit _ _

/-- The heartbeat timer is initialised once. -/
theorem startHeartbeatTimer_sound (h : Inv s) (hs : Sound s.uv) (hna : s.uv.aborted = false)
    (hpc : s.pc = .newConnection c) (ret : Int) : Sound (s.startHeartbeatTimer cfg c ret).uv := by
  -- the connect of a channel under way is announced once, and its timer not yet initialised
  have hannounces : s.pc.announces c = true := by simp [hpc]
  have hc : c < s.created := by
    by_contra hge
    have hconn := (h.blank c (Nat.not_lt.mp hge)).connects
    simp [view, hannounces] at hconn
  have hlate : s.late = false := by
    by_contra hl
    rw [h.early (by simpa using hl) c] at hannounces
    simp at hannounces
  have hone := (h.ok c hc (Or.inr ⟨hna, hlate⟩)).oneTimer
  have hun : s.uv.handles (.heartbeat_timer c) = .uninit := by
    by_contra hne
    have hinit : (s.view c).timer ≠ .uninit := hne
    rw [if_neg hinit] at hone
    simp [view, hannounces] at hone
  unfold EventLoop.startHeartbeatTimer
  simp only
  split
  · exact hs
  split
  · exact hs
  · exact (hs.init hun).start _

/-! ## Other handles -/

/-- A step that leaves the pipe servers alone. -/
theorem Handled.of_frame (h : Handled cfg s) (hframe : Frame isPipeServer s.uv s'.uv)
    (hphase : s'.phase = s.phase) (hsound : Sound s'.uv) : Handled cfg s' := by
  refine h.of_sound hsound fun hrunning => ⟨hphase ▸ hrunning, fun i hi => ?_⟩
  rwa [hframe.handles _ (by rfl)]

/-- The pipe to the accepting process is closed while it is open. -/
theorem closeIpcPipe_sound (h : Own cfg s) (hs : Sound s.uv) (hlate : s.late = false) :
    Sound s.closeIpcPipe.uv := by
  unfold EventLoop.closeIpcPipe
  split
  · exact hs
  · rename_i hguard
    simp only [Bool.or_eq_true, Bool.not_eq_true', not_or, Bool.not_eq_false, Bool.not_eq_true]
      at hguard
    exact hs.close ((h.ipc_opened hlate hguard.1).mpr hguard.2)

/-- The client that is handed over, or could not be, is closed here while it is open. -/
theorem handoffToWorker_sound (hs : Sound s.uv) {writeRet : Int} {client : Nat}
    (hopen : s.uv.handles (.client client) = .opened) (tried : Nat) :
    Sound (s.handoffToWorker writeRet client tried).uv := by
  induction tried generalizing s with
  | zero => exact hs.close hopen
  | succ tried ih =>
    unfold EventLoop.handoffToWorker
    simp only
    split
    · exact ih hs hopen
    split
    · exact hs.submit _ _
    · exact hs.close hopen

/-- An accepted client is new. -/
theorem uv_on_new_connection_sound (h : Own cfg s) (hs : Sound s.uv)
    (initRet acceptRet writeRet : Int) :
    Sound (s.uv_on_new_connection cfg initRet acceptRet writeRet).uv := by
  have hinit := hs.init (h.objects s.objects (Nat.le_refl _)).2
  have hopen : (s.uv.init (.client s.objects)).handles (.client s.objects) = .opened := by
    rw [handles_init, if_pos rfl]
  unfold EventLoop.uv_on_new_connection
  simp only
  split
  · exact hs
  split
  · exact hinit.close hopen
  · exact handoffToWorker_sound hinit hopen _

/-- A session is new. -/
theorem uv_on_pipe_connection_sound (h : Own cfg s) (hs : Sound s.uv) (i : Nat)
    (initRet acceptRet : Int) : Sound (s.uv_on_pipe_connection i initRet acceptRet).uv := by
  have hinit := hs.init (h.objects s.objects (Nat.le_refl _)).1
  unfold EventLoop.uv_on_pipe_connection
  simp only
  split
  · exact hs
  split
  · exact hinit.close (by rw [handles_init, if_pos rfl])
  · exact hinit

/-- A client that comes through the pipe becomes a new channel. -/
theorem adopt_sound (h : Inv s) (ho : Own cfg s) (hs : Sound s.uv) (initRet acceptRet : Int) :
    Sound (s.adopt cfg initRet acceptRet).uv := by
  have hclient := hs.init (ho.objects s.objects (Nat.le_refl _)).2
  have htcp : Sound (s.uv.init (.tcp s.created)) :=
    hs.init (h.blank s.created (Nat.le_refl _)).tcp
  unfold EventLoop.adopt
  split
  · exact hs
  split
  · exact hclient.close (by rw [handles_init, if_pos rfl])
  · simp only [newChannel_uv]
    exact htcp.start _

/-! ## Starting and stopping -/

/-- `initIpcServers` on handles that are not initialised. -/
theorem initIpcServers_sound {l : Loop LoopHandle LoopReq} {ipcFail : Option (Nat × Bool)}
    {is : List Nat} (hs : Sound l) (hnodup : is.Nodup)
    (hun : ∀ i ∈ is, l.handles (.pipe_servers_ i) = .uninit) :
    Sound (initIpcServers ipcFail l is).1 := by
  induction is generalizing l with
  | nil => exact hs
  | cons i is ih =>
    have hinit := hs.init (hun i List.mem_cons_self)
    rw [List.nodup_cons] at hnodup
    unfold initIpcServers
    split
    · exact hs
    split
    · exact hinit
    · refine ih (hinit.start _) hnodup.2 ?_
      -- the pipe servers of the other workers are not touched
      intro k hk
      rw [handles_start, handles_init, if_neg]
      · exact hun k (List.mem_cons_of_mem i hk)
      · intro heq
        exact hnodup.1 (LoopHandle.pipe_servers_.inj heq ▸ hk)

/-- The pipe servers before the one that fails are initialised. -/
theorem initIpcServers_inited {l : Loop LoopHandle LoopReq} {ipcFail : Option (Nat × Bool)}
    {is : List Nat} (hok : ∀ i ∈ is, ipcFail ≠ some (i, false) ∧
      (ipcFail = some (i, true) → ∀ k ∈ is, k ≤ i)) (hsorted : is.Pairwise (· < ·)) :
    ∀ i ∈ is, (initIpcServers ipcFail l is).1.handles (.pipe_servers_ i) ≠ .uninit := by
  induction is generalizing l with
  | nil => simp
  | cons i is ih =>
    rw [List.pairwise_cons] at hsorted
    obtain ⟨hfail, hlast⟩ := hok i List.mem_cons_self
    unfold initIpcServers
    rw [if_neg hfail]
    split
    · -- the last one fails after its `uv_pipe_init`
      rename_i hlastFail
      intro k hk
      have hki : k = i := by
        rcases List.mem_cons.mp hk with rfl | hk'
        · rfl
        · exact absurd (hsorted.1 k hk') (Nat.not_lt.mpr (hlast hlastFail k hk))
      rw [hki, handles_init, if_pos rfl]
      simp
    · intro k hk
      rcases List.mem_cons.mp hk with rfl | hk
      · rw [initIpcServers_uninit fun hmem => absurd (hsorted.1 k hmem) (Nat.lt_irrefl k),
          handles_start, handles_init, if_pos rfl]
        simp
      · refine ih (fun j hj => ?_) hsorted.2 k hk
        obtain ⟨hj1, hj2⟩ := hok j (List.mem_cons_of_mem i hj)
        exact ⟨hj1, fun hj3 n hn => hj2 hj3 n (List.mem_cons_of_mem i hn)⟩

/-- `stop` only queues a signal. -/
theorem stop_uv (s : EventLoop) : s.stop.uv = s.uv ∧ s.stop.phase = s.phase := by
  unfold EventLoop.stop
  split <;> exact ⟨rfl, rfl⟩

/-- After `run` the asyncs are initialised, and all pipe servers, or the loop does not run. -/
theorem Handled.run (h : Handled cfg s) (ho : Own cfg s) (hphase : s.phase = .created)
    {asyncFail : Option Nat} {ipcFail : Option (Nat × Bool)}
    (hok : HandleOk cfg s (.run asyncFail ipcFail)) : Handled cfg (s.run cfg asyncFail ipcFail) := by
  -- before `run` no handle of the loop is initialised
  obtain ⟨hasyncs, hpipes⟩ := ho.unborn hphase
  have hinited : ∀ n, Sound ((asyncs.take n).foldl (fun uv h => (uv.init h).start h) s.uv) := by
    intro n
    refine h.sound.foldl_init ((by decide : asyncs.Nodup).sublist (List.take_sublist _ _)) ?_
    exact fun g hg => hasyncs g (List.mem_of_mem_take hg)
  unfold EventLoop.run
  simp only
  split
  · exact h.of_sound (hinited _) (by simp)
  · rename_i hnone
    -- the asyncs are not the pipe servers
    have hframe : ∀ i, ((asyncs.take (asyncFail.getD asyncs.length)).foldl
        (fun uv h => (uv.init h).start h) s.uv).handles (.pipe_servers_ i) = .uninit := by
      intro i
      have hf : Frame (· == .pipe_servers_ i) s.uv ((asyncs.take (asyncFail.getD asyncs.length)).foldl
          (fun uv h => (uv.init h).start h) s.uv) := by
        refine frame_foldl _ (fun l g hg => (frame_init hg).trans (frame_start hg)) fun g hg => ?_
        have hmem := List.mem_of_mem_take hg
        simp only [asyncs, List.mem_cons, List.not_mem_nil, or_false] at hmem
        rcases hmem with rfl | rfl | rfl | rfl <;> rfl
      exact (hf.handles _ (beq_self_eq_true _)).trans (hpipes i)
    have hservers : Handled cfg { s with
        uv := (initIpcServers ipcFail ((asyncs.take (asyncFail.getD asyncs.length)).foldl
          (fun uv h => (uv.init h).start h) s.uv) (List.range cfg.worker_num)).1
        asyncs_inited_ := true, sessions_ := List.replicate cfg.worker_num none
        phase := .running } := by
      refine ⟨initIpcServers_sound (hinited _) List.nodup_range fun i _ => hframe i, ?_⟩
      intro _ i hi
      refine initIpcServers_inited ?_ List.pairwise_lt_range i (List.mem_range.mpr hi)
      intro k hk
      rw [List.mem_range] at hk
      -- a failure in the middle is the last that `initIpcServers` does
      have hlast := hok.2
      constructor
      · rintro rfl
        simp only [Bool.false_eq_true, if_false] at hlast
        omega
      · rintro rfl j hj
        rw [List.mem_range] at hj
        simp only [if_true] at hlast
        omega
    split
    · exact hservers
    -- without servers the loop stops, which closes nothing yet
    · refine hservers.of_sound ?_ ?_
      · rw [(stop_uv _).1]
        exact hservers.sound
      · rw [(stop_uv _).1, (stop_uv _).2]
        exact fun hp => ⟨hp, fun _ hi => hi⟩

/-- A stop closes what listens, all pipe servers and the sessions. -/
theorem closeServers_sound (h : Handled cfg s) (ho : Own cfg s) (hphase : s.phase = .running) :
    Sound (s.closeServers cfg) := by
  have hlisten : Sound (if s.listening_ then closeUnlessClosing s.uv .server_ else s.uv) ∧
      Closing s.uv (if s.listening_ then closeUnlessClosing s.uv .server_ else s.uv) := by
    split
    · rename_i hl
      exact ⟨h.sound.closeUnlessClosing (ho.server hl), closing_closeUnlessClosing _ _⟩
    · exact ⟨h.sound, Closing.refl _⟩
  obtain ⟨hsound, hclosing⟩ := hlisten
  -- closing one handle does not uninitialise another
  have hinited : ∀ g ∈ (List.range cfg.worker_num).map LoopHandle.pipe_servers_,
      (if s.listening_ then closeUnlessClosing s.uv .server_ else s.uv).handles g ≠ .uninit := by
    intro g hg
    obtain ⟨i, hi, rfl⟩ := List.mem_map.mp hg
    rw [ne_eq, hclosing.uninit]
    exact h.pipes hphase i (List.mem_range.mp hi)
  have hpipes := hsound.foldl_closeUnlessClosing hinited
  have hclosing' := hclosing.trans (closing_foldl _ closing_closeUnlessClosing
    ((List.range cfg.worker_num).map LoopHandle.pipe_servers_))
  unfold closeServers
  refine hpipes.foldl_closeUnlessClosing ?_
  intro g hg
  obtain ⟨o, hmem, ho'⟩ := List.mem_filterMap.mp hg
  obtain ⟨k, rfl, rfl⟩ := Option.map_eq_some_iff.mp ho'
  rw [ne_eq, hclosing'.uninit]
  exact ho.sessions k hmem

/-! ## Every step -/

/-- A connect to the accepting process initialises the pipe, which is not there yet. -/
theorem Handled.ipcTask (h : Handled cfg s) (hun : s.uv.handles .ipc_pipe_ = .uninit)
    (env : TaskEnv) : Handled cfg (EventLoop.ipcTask env s) := by
  unfold EventLoop.ipcTask
  split
  · exact h
  · refine h.of_sound ((h.sound.init hun).submit _ _) fun hp => ⟨hp, fun k hk => ?_⟩
    rwa [handles_submit, handles_init, if_neg (by simp)]

/-- A server socket is initialised once, and started at most then. -/
theorem Handled.listenTask (h : Handled cfg s) (hun : s.uv.handles .server_ = .uninit)
    (env : TaskEnv) : Handled cfg (EventLoop.listenTask env s) := by
  have hinit := h.sound.init hun
  have hmono : ∀ k, s.uv.handles (.pipe_servers_ k) ≠ .uninit →
      (s.uv.init .server_).handles (.pipe_servers_ k) ≠ .uninit := by
    intro k hk
    rwa [handles_init, if_neg (by simp)]
  have hopened : Handled cfg { s with uv := s.uv.init .server_ } :=
    h.of_sound hinit fun hp => ⟨hp, hmono⟩
  unfold EventLoop.listenTask
  simp only
  -- an error of `bind` or `listen` leaves the socket initialised
  split
  · exact h
  split
  · exact hopened
  split
  · exact hopened
  split
  · exact hopened
  · exact h.of_sound (hinit.start _) fun hp => ⟨hp, hmono⟩

/-- A task of the queue. -/
theorem Handled.runTask (h : Handled cfg s) (hi : Inv s) {i : Nat} {env : TaskEnv} {t : LoopTask}
    (hi' : s.waitTasks[i]? = some t) (hrepeats : s.repeats t = false)
    (hok : HandleOk cfg s (.runTask i env)) :
    Handled cfg ({ s with waitTasks := s.waitTasks.eraseIdx i }.perform cfg env t) := by
  have hs := h.sound
  have hpop : SameOwn s { s with waitTasks := s.waitTasks.eraseIdx i } :=
    ⟨Frame.refl _, rfl, rfl, rfl, rfl, rfl, rfl⟩
  have hpopped : Handled cfg { s with waitTasks := s.waitTasks.eraseIdx i } := h.of_own hpop hs
  cases t with
  | closeInLoop self =>
    -- `HandleOk` asks for a channel with a timer
    have hinit : s.uv.handles (.heartbeat_timer self) ≠ .uninit := by
      have := hok.2
      simpa only [hi'] using this
    obtain ⟨htcp, htimer⟩ := hi.opened_of_closes hi' hinit
    refine h.of_own (hpop.trans (closeInLoop_own _ self)) ?_
    show Sound (EventLoop.closeInLoop _ self).uv
    rw [closeInLoop_uv]
    exact closeBoth_sound hs htcp htimer
  | eventLoopWrite self msgId msg playerId =>
    have hsent := fun ch issued => sent_sound (s := { s with waitTasks := s.waitTasks.eraseIdx i })
      hs self ch issued env.raced
    exact h.of_own (hpop.trans (sent_own _ self _ _ _)) (hsent _ _)
  | eventLoopRawWrite self msgId body playerId =>
    have hsent := fun ch issued => sent_sound (s := { s with waitTasks := s.waitTasks.eraseIdx i })
      hs self ch issued env.raced
    exact h.of_own (hpop.trans (sent_own _ self _ _ _)) (hsent _ _)
  | asyncConnect =>
    have htaken := hi.takeTask hi' fun _ => rfl
    exact h.of_own (hpop.trans (connectTask_own cfg env _)) (connectTask_sound htaken hs env)
  | connectIpc =>
    have hun : s.uv.handles .ipc_pipe_ = .uninit := by simpa [repeats] using hrepeats
    exact hpopped.ipcTask hun env
  | startListen =>
    have hun : s.uv.handles .server_ = .uninit := by simpa [repeats] using hrepeats
    exact hpopped.listenTask hun env

/-- Every step keeps this up. -/
theorem handled_step (h : Handled cfg s) (hi : Inv s) (ho : Own cfg s) {a : LoopAct}
    (hok : HandleOk cfg s a) (hstep : step cfg s a = some s') : Handled cfg s' := by
  have hna := aborted_of_step hstep
  have hs := h.sound
  cases step_cases hstep with
  | nothing => exact h
  | close hc =>
    refine h.of_own (setChannel_own _ _ _ true) ?_
    rwa [EventLoop.close, setChannel_uv]
  | @enqueueClose i c hc =>
    have hpop : SameOwn s { s with closers := s.closers.eraseIdx i } :=
      ⟨Frame.refl _, rfl, rfl, rfl, rfl, rfl, rfl⟩
    refine h.of_own (hpop.trans (enqueueClose_own _ c)) ?_
    rwa [enqueueClose_uv]
  | queue hcloses htarget => exact h.of_closing (Closing.refl _) (fun hp => hp) hs
  | stop =>
    refine h.of_own (stop_own s) ?_
    rwa [(stop_uv s).1]
  | generateId n => exact h.of_closing (Closing.refl _) (fun hp => hp) hs
  | run hphase => exact h.run ho hphase hok
  | runTask hi' hpc hphase hrepeats => exact h.runTask hi hi' hrepeats hok
  | @closeFailed c hpc =>
    have hready : SameOwn s { s with pc := .ready } := ⟨Frame.refl _, rfl, rfl, rfl, rfl, rfl, rfl⟩
    refine h.of_own (hready.trans (setChannel_own _ c _ false)) ?_
    rwa [EventLoop.close, setChannel_uv]
  | startHeartbeatTimer hpc =>
    exact h.of_own (startHeartbeatTimer_own cfg s _ _) (startHeartbeatTimer_sound hi hs hna hpc _)
  | onConnect hpc hphase hi' hopen =>
    refine h.of_own (uv_on_connect_own s _ _ _) ?_
    unfold EventLoop.uv_on_connect
    simp only
    split
    · exact hs.complete _ _
    · exact (hs.complete _ _).start _
  | onRead hpc hphase hopen =>
    refine h.of_own (uv_read_cb_own s _ _ _ _ _) ?_
    unfold EventLoop.uv_read_cb
    rw [setChannel_uv]
    exact hs
  | onWrite hpc hphase hi' =>
    refine h.of_own (uv_write_cb_own s _ _ _ _ _) ?_
    unfold EventLoop.uv_write_cb
    exact sent_sound (hs.complete _ _) _ _ _ _
  | onTimer hpc hphase hopen =>
    refine h.of_own (uv_on_timer_own s _ _) ?_
    -- the timer closes the channel through a task, so its handles stay
    unfold EventLoop.uv_on_timer
    simp only
    split
    · exact hs
    split
    · rw [EventLoop.close, setChannel_uv]
      exact hs
    · exact hs
  | ipcFailed => exact h.of_sound (hs.complete _ _) fun hp => ⟨hp, fun _ hi => hi⟩
  | ipcConnected hopen =>
    exact h.of_sound ((hs.complete _ _).start _) fun hp => ⟨hp, fun _ hi => hi⟩
  | ipcError hphase hopen =>
    have hsound := closeIpcPipe_sound ho hs (late_of_phase hphase)
    refine h.of_sound hsound fun hp => ⟨closeIpcPipe_phase s ▸ hp, fun k hk => ?_⟩
    unfold EventLoop.closeIpcPipe
    split
    · exact hk
    · rwa [handles_close_of_ne (by simp)]
  | ipcAccept hpc hphase hopen =>
    obtain ⟨hframe, hp⟩ := adopt_frame s _ _
    exact h.of_frame hframe hp (adopt_sound hi ho hs _ _)
  | acceptConnection hphase hopen =>
    obtain ⟨hframe, hp⟩ := uv_on_new_connection_frame s _ _ _
    exact h.of_frame hframe hp (uv_on_new_connection_sound ho hs _ _ _)
  | acceptPipe hphase hopen =>
    obtain ⟨hframe, hp⟩ := uv_on_pipe_connection_frame s _ _ _
    exact h.of_frame hframe hp (uv_on_pipe_connection_sound ho hs _ _ _)
  | @afterHandoff k i client hphase hi' =>
    have hopen := ho.handoff (late_of_phase hphase) k client (List.mem_of_getElem? hi')
    exact h.of_frame ((frame_complete rfl i).trans (frame_close rfl)) rfl
      ((hs.complete _ _).close hopen)
  | handleClosed hpc hphase hclosing hreqs =>
    have hfinish := closing_finish hclosing
    refine h.of_closing ?_ ?_ ?_
    · rwa [closeCallback_uv]
    · rw [closeCallback_phase]
      exact fun hp => hp
    · rw [closeCallback_uv]
      exact hs.finish hclosing
  | stopTriggered hpc hphase =>
    have hsound := closeServers_sound h ho hphase
    have hpipe := closeIpcPipe_sound ho.closeServers hsound (by simp [late, hphase])
    exact h.of_sound hpipe fun hp => by simp [EventLoop.onStopTriggered] at hp
  | stopCloseEnd hphase => exact h.of_closing (Closing.refl _) (by simp) hs
  | stopClose hphase =>
    refine h.of_sound ?_ ?_
    · rw [EventLoop.close, setChannel_uv]
      exact hs
    · simp [EventLoop.close]
  | stopDrained hpc hphase hempty =>
    have hopen := ho.asyncs (Or.inr (Or.inl hphase))
    exact h.of_closing (closing_foldl _ closing_close _) (by simp)
      (hs.foldl_close (by decide) hopen)
  | uvRunReturns hpc hphase halive => exact h.of_closing (closing_walkClose _) (by simp) hs.walkClose
  | lastTasks hphase => exact h.of_closing (Closing.refl _) (by simp) hs
  | endRun hphase => exact h.of_closing (Closing.refl _) (by simp) hs

/-- In every run that meets `HandleOk`, every `uv_close` is for a handle that has been
    initialised and not been closed. -/
theorem handle_safety {acts : List LoopAct}
    (hok : Run.Meets (step cfg) (HandleOk cfg) (init cfg) acts)
    (hrun : Run.run (step cfg) (init cfg) acts = some s) : Safe s.uv.calls := by
  have hsteps : ∀ s a s', Inv s ∧ Own cfg s ∧ Handled cfg s → HandleOk cfg s a →
      step cfg s a = some s' → Inv s' ∧ Own cfg s' ∧ Handled cfg s' := by
    rintro s a s' ⟨hi, ho, hh⟩ ha hstep
    exact ⟨inv_step hi ha.1 hstep, own_step ho hstep, handled_step hh hi ho ha hstep⟩
  obtain ⟨-, -, hh⟩ :=
    Run.invariant_of_meets hsteps ⟨inv_init cfg, own_init cfg, handled_init cfg⟩ hok hrun
  exact hh.sound.safe

/-- A server loop with one worker: a channel connects and is closed, and the loop stops. -/
def serveAndStop : List LoopAct :=
  [.run none none, .startListen, .runTask 0 {}, .acceptPipe 0 0 0, .acceptConnection 0 0 0,
    .afterHandoff 0 0, .asyncConnect, .runTask 0 {}, .onConnect 0 0 0, .startHeartbeatTimer 0,
    .stop, .stopTriggered, .stopClose, .stopClose, .runTask 0 {}, .stopDrained]

/-- `smallLoop` with one worker. -/
def smallServer : LoopConfig := { smallLoop with worker_num := 1 }

/-- All actions of this run are enabled. -/
theorem serveAndStop_isSome :
    (Run.run (step smallServer) (init smallServer) serveAndStop).isSome = true := by
  decide

/-- A server that stops has closed what it initialised. -/
theorem handle_safety_stop :
    ((Run.run _ _ serveAndStop).get serveAndStop_isSome).uv.calls.length = 20 ∧
      Safe ((Run.run _ _ serveAndStop).get serveAndStop_isSome).uv.calls :=
  ⟨by decide,
    handle_safety (by decide) (Option.some_get serveAndStop_isSome).symm⟩

/-- A connect that fails. -/
def failedConnect : List LoopAct :=
  [.run none none, .asyncConnect, .runTask 0 {}, .onConnect 0 0 (-111), .closeFailed, .runTask 0 {}]

/-- All actions of this run are enabled. -/
theorem failedConnect_isSome :
    (Run.run (step smallLoop) (init smallLoop) failedConnect).isSome = true := by
  decide

/-- The close of a channel whose connect has failed closes a timer that was never
    initialised. -/
theorem failed_connect_aborts :
    ¬ ∀ (cfg : LoopConfig) (acts : List LoopAct) (s : EventLoop),
      Run.run (step cfg) (init cfg) acts = some s → Safe s.uv.calls := by
  intro hall
  obtain ⟨s, hs⟩ : ∃ s, s = (Run.run _ _ failedConnect).get failedConnect_isSome := ⟨_, rfl⟩
  have hrun : Run.run (step smallLoop) (init smallLoop) failedConnect = some s := by
    rw [hs, Option.some_get]
  have hcalls : s.uv.calls =
      (asyncs.map Call.init ++ [Call.init (.tcp 0), .close (.tcp 0)]) ++
        Call.close (.heartbeat_timer 0) :: [] := by
    rw [hs]
    decide
  have hsafe := (hall smallLoop failedConnect s hrun _ _ _ hcalls).1
  exact absurd hsafe (by decide)

end Athena.EventLoop
