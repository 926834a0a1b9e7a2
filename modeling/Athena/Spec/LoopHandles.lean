import Athena.Spec.LoopSteps

/-!
# The other handles of a reactor

`EventLoop.Own` says what state the handles are in that belong to no channel: the
wake-up handles, the pipes and servers, and the connections that are passed on to
workers.  It holds in every run, also in one that goes wrong.

## Key results

- `Own.of_closing`: closing handles keeps it
- `own_step`, `own_run`
-/

namespace Athena.EventLoop

open Uv Uv.Loop

/-- The loop thread is between the start and the end of `onStopTriggered`. -/
def awake (s : EventLoop) : Prop :=
  s.phase = .running ∨ s.phase = .draining ∨ ∃ rest, s.phase = .closingChannels rest

/-- The state of the handles that belong to no channel. -/
structure Own (cfg : LoopConfig) (s : EventLoop) : Prop where
  unborn : s.phase = .created →
    (∀ h ∈ asyncs, s.uv.handles h = .uninit) ∧ ∀ i, s.uv.handles (.pipe_servers_ i) = .uninit
  asyncs : s.awake → ∀ h ∈ asyncs, s.uv.handles h = .opened
  pipes : ∀ i, s.uv.handles (.pipe_servers_ i) ≠ .uninit → i < cfg.worker_num
  ipc_inited : s.uv.handles .ipc_pipe_ ≠ .uninit ↔ s.ipc_inited_ = true
  ipc_closing : s.ipc_closing_ = true → s.ipc_inited_ = true
  ipc_opened : s.late = false → s.ipc_inited_ = true →
    (s.uv.handles .ipc_pipe_ = .opened ↔ s.ipc_closing_ = false)
  server : s.listening_ = true → s.uv.handles .server_ ≠ .uninit
  sessions : ∀ k, some k ∈ s.sessions_ → s.uv.handles (.session k) ≠ .uninit
  objects : ∀ k, s.objects ≤ k →
    s.uv.handles (.session k) = .uninit ∧ s.uv.handles (.client k) = .uninit
  /-- a connection on its way to a worker is open -/
  handoff : s.late = false → ∀ k client, .handoff client ∈ s.uv.reqs (.session k) →
    s.uv.handles (.client client) = .opened
  once : ∀ k client, (s.uv.reqs (.session k)).count (.handoff client) ≤ 1
  oneSession : ∀ k k' client, .handoff client ∈ s.uv.reqs (.session k) →
    .handoff client ∈ s.uv.reqs (.session k') → k = k'
  idle : ∀ k, s.uv.started (.session k) = false ∧ s.uv.started (.client k) = false

/-- A new loop has initialised nothing. -/
theorem own_init (cfg : LoopConfig) : Own cfg (init cfg) where
  unborn _ := ⟨fun _ _ => rfl, fun _ => rfl⟩
  asyncs hawake := by simp [awake, init] at hawake
  pipes i hi := by simp [init, Loop.empty] at hi
  ipc_inited := by simp [init, Loop.empty]
  ipc_closing hc := by simp [init] at hc
  ipc_opened _ hi := by simp [init] at hi
  server hl := by simp [init] at hl
  sessions k hk := by simp [init] at hk
  objects _ _ := ⟨rfl, rfl⟩
  handoff _ k client hmem := by simp [init, Loop.empty] at hmem
  once k client := by simp [init, Loop.empty]
  oneSession k k' client hk := by simp [init, Loop.empty] at hk
  idle _ := ⟨rfl, rfl⟩

variable {s s' : EventLoop} {c : ChannelRef} {cfg : LoopConfig}

/-! ## Steps that close handles, and steps on other handles -/

/-- What is neither a handle nor a channel's. -/
def fixtures (s : EventLoop) := (s.ipc_inited_, s.listening_, s.sessions_, s.objects)

/-- Equal fixtures, one by one. -/
theorem fixtures_inj (h : s'.fixtures = s.fixtures) : s'.ipc_inited_ = s.ipc_inited_ ∧
    s'.listening_ = s.listening_ ∧ s'.sessions_ = s.sessions_ ∧ s'.objects = s.objects := by
  simpa only [fixtures, Prod.mk.injEq] using h

/-- Handles are closed, requests are done, and the loop thread may go on to another
    phase. -/
theorem Own.of_closing (h : Own cfg s)
    (huninit : ∀ g, g.isChannel = false → (s'.uv.handles g = .uninit ↔ s.uv.handles g = .uninit))
    (hstarted : ∀ k, (s'.uv.started (.session k) = true → s.uv.started (.session k) = true) ∧
      (s'.uv.started (.client k) = true → s.uv.started (.client k) = true))
    (hreqs : ∀ k, (s'.uv.reqs (.session k)).Sublist (s.uv.reqs (.session k)))
    (hcreated : s'.phase = .created → s.phase = .created)
    (hasyncs : s'.awake → s.awake ∧
      ∀ g ∈ EventLoop.asyncs, s'.uv.handles g = s.uv.handles g)
    (hipc : s'.late = false → s.late = false ∧
      (s.ipc_inited_ = true → (s'.uv.handles .ipc_pipe_ = .opened ↔ s'.ipc_closing_ = false)) ∧
      ∀ k client, .handoff client ∈ s'.uv.reqs (.session k) →
        s'.uv.handles (.client client) = s.uv.handles (.client client))
    (hclosing : s'.ipc_closing_ = true → s.ipc_inited_ = true)
    (hfix : s'.fixtures = s.fixtures) : Own cfg s' := by
  -- the handles that are not of channels are initialised as they were
  obtain ⟨hinited, hlistening, hsessions, hobjects⟩ := fixtures_inj hfix
  exact
    { unborn hc := by
        obtain ⟨ha, hp⟩ := h.unborn (hcreated hc)
        refine ⟨fun g hg => ?_, fun i => ?_⟩
        · exact (huninit g (isChannel_asyncs hg)).mpr (ha g hg)
        · exact (huninit _ rfl).mpr (hp i)
      asyncs ha g hg := by
        obtain ⟨hawake, hsame⟩ := hasyncs ha
        exact (hsame g hg).trans (h.asyncs hawake g hg)
      pipes i hi := h.pipes i fun hun => hi ((huninit _ rfl).mpr hun)
      ipc_inited := by rw [hinited, ne_eq, huninit _ rfl, ← h.ipc_inited]
      ipc_closing hc := by rw [hinited]; exact hclosing hc
      ipc_opened hl hi := by
        rw [hinited] at hi
        exact (hipc hl).2.1 hi
      server hl := by
        rw [ne_eq, huninit _ rfl]
        exact h.server (hlistening ▸ hl)
      sessions k hk := by
        rw [ne_eq, huninit _ rfl]
        exact h.sessions k (hsessions ▸ hk)
      objects k hk := by
        obtain ⟨hs, hc⟩ := h.objects k (hobjects ▸ hk)
        exact ⟨(huninit _ rfl).mpr hs, (huninit _ rfl).mpr hc⟩
      handoff hl k client hmem := by
        obtain ⟨hlate, -, hsame⟩ := hipc hl
        exact (hsame k client hmem).trans (h.handoff hlate k client ((hreqs k).subset hmem))
      once k client := ((hreqs k).count_le _).trans (h.once k client)
      oneSession k k' client hk hk' :=
        h.oneSession k k' client ((hreqs k).subset hk) ((hreqs k').subset hk')
      -- a session or a client that is started was started before
      idle k := by
        obtain ⟨hs, hc⟩ := h.idle k
        constructor
        · by_contra hne
          rw [(hstarted k).1 (by simpa using hne)] at hs
          simp at hs
        · by_contra hne
          rw [(hstarted k).2 (by simpa using hne)] at hc
          simp at hc }

/-- A handle of no channel. -/
def notChannel (h : LoopHandle) : Bool := !h.isChannel

/-- What does not belong to a channel is as it was. -/
structure SameOwn (s s' : EventLoop) : Prop where
  uv : Frame notChannel s.uv s'.uv
  phase : s'.phase = s.phase
  ipc_inited_ : s'.ipc_inited_ = s.ipc_inited_
  ipc_closing_ : s'.ipc_closing_ = s.ipc_closing_
  listening_ : s'.listening_ = s.listening_
  sessions_ : s'.sessions_ = s.sessions_
  objects : s'.objects = s.objects

/-- Nothing has been done. -/
theorem SameOwn.refl (s : EventLoop) : SameOwn s s := ⟨Frame.refl _, rfl, rfl, rfl, rfl, rfl, rfl⟩

/-- Two steps, one after the other. -/
theorem SameOwn.trans {m : EventLoop} (h₁ : SameOwn s m) (h₂ : SameOwn m s') : SameOwn s s' where
  uv := h₁.uv.trans h₂.uv
  phase := h₂.phase.trans h₁.phase
  ipc_inited_ := h₂.ipc_inited_.trans h₁.ipc_inited_
  ipc_closing_ := h₂.ipc_closing_.trans h₁.ipc_closing_
  listening_ := h₂.listening_.trans h₁.listening_
  sessions_ := h₂.sessions_.trans h₁.sessions_
  objects := h₂.objects.trans h₁.objects

/-- A step of which only the loop matters. -/
theorem SameOwn.of_uv {uv : Loop LoopHandle LoopReq} (huv : Frame notChannel s.uv uv) :
    SameOwn s { s with uv := uv } := ⟨huv, rfl, rfl, rfl, rfl, rfl, rfl⟩

/-- A step on channels keeps what holds of the other handles. -/
theorem Own.same (h : Own cfg s) (hsame : SameOwn s s') : Own cfg s' := by
  have hnc : ∀ g : LoopHandle, g.isChannel = false → notChannel g = true := fun g hg => by
    simp [notChannel, hg]
  have hphase := hsame.phase
  refine h.of_closing (fun g hg => by rw [hsame.uv.handles g (hnc g hg)]) (fun k => ?_) (fun k => ?_)
    (fun hc => hphase ▸ hc) (fun ha => ⟨?_, fun g hg => ?_⟩) (fun hl => ⟨?_, fun hi => ?_, ?_⟩)
    (fun hc => h.ipc_closing (hsame.ipc_closing_ ▸ hc)) (by
      simp only [fixtures, hsame.ipc_inited_, hsame.listening_, hsame.sessions_, hsame.objects])
  · rw [hsame.uv.started _ (hnc (.session k) rfl), hsame.uv.started _ (hnc (.client k) rfl)]
    exact ⟨fun hs => hs, fun hs => hs⟩
  · rw [hsame.uv.reqs _ (hnc (.session k) rfl)]
  · simpa only [awake, hphase] using ha
  · exact hsame.uv.handles g (hnc g (isChannel_asyncs hg))
  · simpa only [late, hphase] using hl
  · rw [hsame.uv.handles _ (hnc .ipc_pipe_ rfl), hsame.ipc_closing_]
    refine h.ipc_opened ?_ hi
    simpa only [late, hphase] using hl
  · intro k client _
    exact hsame.uv.handles _ (hnc (.client client) rfl)

/-! ## Steps on channels -/

/-- Queueing a close is a step on channels. -/
theorem enqueueClose_own (s : EventLoop) (c : ChannelRef) : SameOwn s (s.enqueueClose c) := by
  unfold enqueueClose
  split
  · exact SameOwn.refl s
  · exact ⟨Frame.refl _, rfl, rfl, rfl, rfl, rfl, rfl⟩

/-- So is a change of a channel, -/
theorem setChannel_own (s : EventLoop) (c : ChannelRef) (ch : Channel) (byOther : Bool) :
    SameOwn s (s.setChannel c ch byOther) := by
  have hset : SameOwn s { s with chans := Function.update s.chans c ch } :=
    ⟨Frame.refl _, rfl, rfl, rfl, rfl, rfl, rfl⟩
  unfold setChannel
  simp only
  split
  · split
    · exact ⟨Frame.refl _, rfl, rfl, rfl, rfl, rfl, rfl⟩
    · exact hset.trans (enqueueClose_own _ c)
  · exact hset

/-- a send, -/
theorem sent_own (s : EventLoop) (c : ChannelRef) (ch : Channel) (issued : Option UvWrite)
    (byOther : Bool) : SameOwn s (s.sent c ch issued byOther) := by
  have hset := setChannel_own s c ch byOther
  unfold EventLoop.sent
  cases issued with
  | none => exact hset
  | some w => exact hset.trans (SameOwn.of_uv (frame_submit rfl _))

/-- the close of a channel, -/
theorem closeInLoop_own (s : EventLoop) (c : ChannelRef) : SameOwn s (s.closeInLoop c) := by
  have huv : Frame notChannel s.uv (((s.uv.stop (.tcp c)).close (.tcp c)).close (.heartbeat_timer c)) :=
    ((frame_stop rfl).trans (frame_close rfl)).trans (frame_close rfl)
  unfold EventLoop.closeInLoop
  simp only
  split
  · exact ⟨huv, rfl, rfl, rfl, rfl, rfl, rfl⟩
  · exact ⟨huv, rfl, rfl, rfl, rfl, rfl, rfl⟩

/-- its construction, -/
theorem newChannel_own (cfg : LoopConfig) (s : EventLoop) : SameOwn s (s.newChannel cfg) := by
  unfold newChannel registerChannel
  simp only
  split
  · exact ⟨Frame.refl _, rfl, rfl, rfl, rfl, rfl, rfl⟩
  · exact ⟨Frame.refl _, rfl, rfl, rfl, rfl, rfl, rfl⟩

/-- a connect, -/
theorem connectTask_own (cfg : LoopConfig) (env : TaskEnv) (s : EventLoop) :
    SameOwn s (s.connectTask cfg env) := by
  have hinit : SameOwn s { s with uv := s.uv.init (.tcp s.created) } :=
    SameOwn.of_uv (frame_init rfl)
  have hnew := hinit.trans (newChannel_own cfg _)
  unfold EventLoop.connectTask
  split
  · exact SameOwn.refl s
  split
  · exact SameOwn.refl s
  simp only
  split
  · exact hnew.trans ⟨Frame.refl _, rfl, rfl, rfl, rfl, rfl, rfl⟩
  · exact hnew.trans (SameOwn.of_uv (frame_submit rfl _))

/-- the callback of a connect, -/
theorem uv_on_connect_own (s : EventLoop) (c : ChannelRef) (i : Nat) (status : Int) :
    SameOwn s (s.uv_on_connect c i status) := by
  unfold EventLoop.uv_on_connect
  simp only
  split
  · exact ⟨frame_complete rfl i, rfl, rfl, rfl, rfl, rfl, rfl⟩
  · exact ⟨(frame_complete rfl i).trans (frame_start rfl), rfl, rfl, rfl, rfl, rfl, rfl⟩

/-- the callback of a read, -/
theorem uv_read_cb_own (s : EventLoop) (c : ChannelRef) (input : Except Int (List UInt8))
    (closing : Nat → Bool) (byOther : Bool) (maxPackBodyLen : Nat) :
    SameOwn s (s.uv_read_cb cfg c input closing byOther maxPackBodyLen) := by
  have hcalled : SameOwn s (s.emit c (.callback .onRead)) :=
    ⟨Frame.refl _, rfl, rfl, rfl, rfl, rfl, rfl⟩
  unfold EventLoop.uv_read_cb
  exact hcalled.trans (setChannel_own _ c _ byOther)

/-- the callback of a write, -/
theorem uv_write_cb_own (s : EventLoop) (c : ChannelRef) (i : Nat) (w : UvWrite) (status ret : Int) :
    SameOwn s (s.uv_write_cb c i w status ret) := by
  have hdone : SameOwn s ({ s with uv := s.uv.complete (.tcp c) i }.emit c (.callback .onWrite)) :=
    ⟨frame_complete rfl i, rfl, rfl, rfl, rfl, rfl, rfl⟩
  unfold EventLoop.uv_write_cb
  exact hdone.trans (sent_own _ c _ _ false)

/-- the callback of a timer, -/
theorem uv_on_timer_own (s : EventLoop) (c : ChannelRef) (closes : Bool) :
    SameOwn s (s.uv_on_timer c closes) := by
  have hcalled : SameOwn s (s.emit c (.callback .onTimer)) :=
    ⟨Frame.refl _, rfl, rfl, rfl, rfl, rfl, rfl⟩
  unfold EventLoop.uv_on_timer
  simp only
  split
  · exact hcalled
  split
  · exact hcalled.trans (setChannel_own _ c _ false)
  · exact hcalled

/-- the start of a timer, -/
theorem startHeartbeatTimer_own (cfg : LoopConfig) (s : EventLoop) (c : ChannelRef) (ret : Int) :
    SameOwn s (s.startHeartbeatTimer cfg c ret) := by
  unfold EventLoop.startHeartbeatTimer
  simp only
  split
  · exact ⟨Frame.refl _, rfl, rfl, rfl, rfl, rfl, rfl⟩
  split
  · exact ⟨Frame.refl _, rfl, rfl, rfl, rfl, rfl, rfl⟩
  · exact ⟨(frame_init rfl).trans (frame_start rfl), rfl, rfl, rfl, rfl, rfl, rfl⟩

/-- the release of a channel, -/
theorem releaseChannel_own (s : EventLoop) (c : ChannelRef) : SameOwn s (s.releaseChannel c) := by
  unfold releaseChannel
  split
  · exact ⟨Frame.refl _, rfl, rfl, rfl, rfl, rfl, rfl⟩
  · exact SameOwn.refl s

/-- and the end of one of its handles. -/
theorem onHandleClosed_own (s : EventLoop) (c : ChannelRef) (isClient : Bool) :
    SameOwn s (s.onHandleClosed c isClient) := by
  have hset : SameOwn s
      { s with chans := Function.update s.chans c (setHandleClosed (s.chans c) isClient) } :=
    ⟨Frame.refl _, rfl, rfl, rfl, rfl, rfl, rfl⟩
  unfold EventLoop.onHandleClosed
  simp only
  split
  · exact hset.trans (releaseChannel_own _ c)
  · exact hset

/-- The close callback of a handle of a channel. -/
theorem closeCallback_own {g : LoopHandle} (hg : g.isChannel = true)
    (hclosing : s.uv.handles g = .closing) : SameOwn s (s.closeCallback g) := by
  have hfinish : Frame notChannel s.uv (s.uv.finish g) :=
    frame_finish (by simp [notChannel, hg]) hclosing
  have hcalled : ∀ c cb, SameOwn s ({ s with uv := s.uv.finish g }.emit c (.callback cb)) :=
    fun c cb => ⟨hfinish, rfl, rfl, rfl, rfl, rfl, rfl⟩
  unfold EventLoop.closeCallback
  simp only
  split
  · exact SameOwn.of_uv hfinish
  · cases g with
    | tcp c => exact (hcalled c _).trans (onHandleClosed_own _ c true)
    | heartbeat_timer c => exact (hcalled c _).trans (onHandleClosed_own _ c false)
    | _ => simp [LoopHandle.isChannel] at hg

/-! ## Connections for other loops -/

/-- A connection that is not on its way to a worker. -/
def Unsent (s : EventLoop) (client : Nat) : Prop :=
  ∀ k, .handoff client ∉ s.uv.reqs (.session k)

/-- A new object is not on its way to a worker. -/
theorem Own.unsent_objects (h : Own cfg s) (hlate : s.late = false) : s.Unsent s.objects := by
  intro k hmem
  have hopen := h.handoff hlate k _ hmem
  rw [(h.objects s.objects (Nat.le_refl _)).2] at hopen
  simp at hopen

/-- An object is made and its handle initialised. -/
theorem Own.newObject (h : Own cfg s) {g : LoopHandle}
    (hg : g = .session s.objects ∨ g = .client s.objects) :
    Own cfg { s with uv := s.uv.init g, objects := s.objects + 1 } := by
  -- only the two handles of the new object may change
  have hother : ∀ g', g' ≠ .session s.objects → g' ≠ .client s.objects →
      (s.uv.init g).handles g' = s.uv.handles g' := by
    intro g' hs hc
    rw [handles_init, if_neg]
    rcases hg with rfl | rfl
    · exact hs
    · exact hc
  have hasync : ∀ g' ∈ EventLoop.asyncs, (s.uv.init g).handles g' = s.uv.handles g' := by
    intro g' hg'
    simp only [EventLoop.asyncs, List.mem_cons, List.not_mem_nil, or_false] at hg'
    rcases hg' with rfl | rfl | rfl | rfl <;> exact hother _ (by simp) (by simp)
  exact
    { unborn := fun hc => ⟨fun g' hg' => (hasync g' hg').trans ((h.unborn hc).1 g' hg'),
        fun i => (hother _ (by simp) (by simp)).trans ((h.unborn hc).2 i)⟩
      asyncs := fun ha g' hg' => (hasync g' hg').trans (h.asyncs ha g' hg')
      pipes := fun i hi => h.pipes i (by rwa [hother _ (by simp) (by simp)] at hi)
      ipc_inited := by rw [hother _ (by simp) (by simp)]; exact h.ipc_inited
      ipc_closing := h.ipc_closing
      ipc_opened := fun hl hi => by rw [hother _ (by simp) (by simp)]; exact h.ipc_opened hl hi
      server := fun hl => by rw [hother _ (by simp) (by simp)]; exact h.server hl
      sessions := fun k hk => by
        rw [handles_init]
        split
        · simp
        · exact h.sessions k hk
      -- the objects from the next number on are blank as before
      objects := fun k hk => by
        have hlt : s.objects < k := hk
        have hne : k ≠ s.objects := Nat.ne_of_gt hlt
        obtain ⟨hs, hc⟩ := h.objects k (Nat.le_of_lt hlt)
        exact ⟨(hother _ (by simp [hne]) (by simp)).trans hs,
          (hother _ (by simp) (by simp [hne])).trans hc⟩
      handoff := fun hl k client hmem => by
        rw [handles_init]
        split
        · rfl
        · exact h.handoff hl k client hmem
      once := h.once
      oneSession := h.oneSession
      idle := h.idle }

/-- Closing one handle that is no wake-up handle, and no pipe to the boss. -/
theorem Own.closeObject (h : Own cfg s) {g : LoopHandle}
    (hg : (∃ k, g = .session k) ∨ ∃ client, g = .client client ∧ s.Unsent client) :
    Own cfg { s with uv := s.uv.close g } := by
  have hne : ∀ g', (∀ k, g' ≠ .session k) → (∀ client, g' = .client client → ¬ s.Unsent client) →
      (s.uv.close g).handles g' = s.uv.handles g' := by
    intro g' hs hc
    refine handles_close_of_ne ?_
    rintro rfl
    rcases hg with ⟨k, hk⟩ | ⟨client, hclient, hunsent⟩
    · exact hs k hk
    · exact hc client hclient hunsent
  have hclosing := closing_close s.uv g
  refine h.of_closing (fun g' _ => hclosing.uninit g')
    (fun k => ⟨hclosing.started _, hclosing.started _⟩) (fun k => by rw [hclosing.reqs])
    (fun hc => hc) (fun ha => ⟨ha, fun g' hg' => ?_⟩) (fun hl => ⟨hl, fun hi => ?_, ?_⟩)
    (fun hc => h.ipc_closing hc) rfl
  · simp only [EventLoop.asyncs, List.mem_cons, List.not_mem_nil, or_false] at hg'
    rcases hg' with rfl | rfl | rfl | rfl <;> exact hne _ (by simp) (by simp)
  · rw [hne _ (by simp) (by simp)]
    exact h.ipc_opened hl hi
  · intro k client hmem
    rw [hclosing.reqs] at hmem
    refine hne _ (by simp) ?_
    intro client' heq hunsent
    obtain rfl := LoopHandle.client.inj heq
    exact hunsent k hmem

/-- A connection is written to one worker, or its handle is closed. -/
theorem Own.handoffToWorker (h : Own cfg s) {writeRet : Int} {client : Nat}
    (hopen : s.uv.handles (.client client) = .opened) (hunsent : s.Unsent client) (tried : Nat) :
    Own cfg (s.handoffToWorker writeRet client tried) := by
  -- by induction on the sessions that are tried
  induction tried generalizing s with
  | zero => exact h.closeObject (Or.inr ⟨client, rfl, hunsent⟩)
  | succ tried ih =>
    have hturn : ∀ n, Own cfg { s with next_worker_ := n } := fun n =>
      h.same ⟨Frame.refl _, rfl, rfl, rfl, rfl, rfl, rfl⟩
    unfold EventLoop.handoffToWorker
    simp only
    -- an empty slot is passed over
    split
    · exact ih (hturn _) hopen hunsent
    rename_i k _
    split
    · -- the connection is written to the session `k`
      have hmem : ∀ j cl, .handoff cl ∈ (s.uv.submit (.session k) (.handoff client)).reqs (.session j) ↔
          .handoff cl ∈ s.uv.reqs (.session j) ∨ j = k ∧ cl = client := by
        intro j cl
        by_cases hj : j = k
        · subst hj
          simp [Loop.submit]
        · simp [Loop.submit, hj]
      exact
        { unborn := h.unborn, asyncs := h.asyncs, pipes := h.pipes, ipc_inited := h.ipc_inited
          ipc_closing := h.ipc_closing, ipc_opened := h.ipc_opened, server := h.server
          sessions := h.sessions, objects := h.objects, idle := h.idle
          handoff := fun hl j cl hj => by
            rcases (hmem j cl).mp hj with hj | ⟨-, rfl⟩
            · exact h.handoff hl j cl hj
            · exact hopen
          once := fun j cl => by
            by_cases hj : j = k
            · subst hj
              by_cases hcl : cl = client
              · subst hcl
                have hzero := List.count_eq_zero.mpr (hunsent j)
                simp [Loop.submit, hzero]
              · have hle := h.once j cl
                simpa [Loop.submit, List.count_singleton, Ne.symm hcl] using hle
            · simpa [Loop.submit, hj] using h.once j cl
          oneSession := fun j j' cl hj hj' => by
            rcases (hmem j cl).mp hj with hold | ⟨hjk, hcl⟩
            · rcases (hmem j' cl).mp hj' with hold' | ⟨-, hcl⟩
              · exact h.oneSession j j' cl hold hold'
              · exact absurd (hcl ▸ hold) (hunsent j)
            · rcases (hmem j' cl).mp hj' with hold' | ⟨hjk', -⟩
              · exact absurd (hcl ▸ hold') (hunsent j')
              · rw [hjk, hjk'] }
    -- the write has failed: the connection is closed
    · exact (hturn ((s.next_worker_ + 1) % s.sessions_.length)).closeObject
        (Or.inr ⟨client, rfl, hunsent⟩)

/-- A new connection keeps what holds of the handles. -/
theorem Own.uv_on_new_connection (h : Own cfg s) (hlate : s.late = false)
    (initRet acceptRet writeRet : Int) :
    Own cfg (s.uv_on_new_connection cfg initRet acceptRet writeRet) := by
  have hunsent := h.unsent_objects hlate
  have hnew := h.newObject (Or.inr rfl)
  unfold EventLoop.uv_on_new_connection
  simp only
  split
  · exact h
  split
  · exact hnew.closeObject (Or.inr ⟨_, rfl, hunsent⟩)
  · refine hnew.handoffToWorker ?_ hunsent _
    rw [handles_init, if_pos rfl]

/-- So does a worker's connection to its pipe server. -/
theorem Own.uv_on_pipe_connection (h : Own cfg s) (i : Nat) (initRet acceptRet : Int) :
    Own cfg (s.uv_on_pipe_connection i initRet acceptRet) := by
  have hnew := h.newObject (Or.inl rfl)
  unfold EventLoop.uv_on_pipe_connection
  simp only
  split
  · exact h
  split
  · exact hnew.closeObject (Or.inl ⟨_, rfl⟩)
  · refine { hnew with sessions := fun k hk => ?_ }
    rcases List.mem_or_eq_of_mem_set hk with hk | hk
    · exact hnew.sessions k hk
    · rw [Option.some.inj hk, handles_init, if_pos rfl]
      simp

/-- The boss closes its handle of a connection when it has been written. -/
theorem Own.after_handoff_cb (h : Own cfg s) {k i client : Nat}
    (hi : (s.uv.reqs (.session k))[i]? = some (.handoff client)) :
    Own cfg (s.after_handoff_cb k i client) := by
  have hcomplete : Own cfg { s with uv := s.uv.complete (.session k) i } := by
    refine h.of_closing (fun _ _ => Iff.rfl) (fun _ => ⟨fun hs => hs, fun hs => hs⟩) (fun j => ?_)
      (fun hc => hc) (fun ha => ⟨ha, fun _ _ => rfl⟩)
      (fun hl => ⟨hl, fun hi => h.ipc_opened hl hi, fun _ _ _ => rfl⟩) (fun hc => h.ipc_closing hc) rfl
    by_cases hj : j = k
    · subst hj
      simpa [Loop.complete] using List.eraseIdx_sublist _ _
    · simp [Loop.complete, hj]
  refine hcomplete.closeObject (Or.inr ⟨client, rfl, ?_⟩)
  -- the request was the only one for this connection
  intro j hmem
  by_cases hj : j = k
  · subst hj
    have hcount := countP_eraseIdx (p := (· == LoopReq.handoff client)) hi
    have hone := h.once j client
    rw [List.count] at hone
    simp only [beq_self_eq_true, Bool.toNat_true] at hcount
    have hzero : ((s.uv.reqs (.session j)).eraseIdx i).countP (· == LoopReq.handoff client) = 0 := by
      omega
    have hmem' : LoopReq.handoff client ∈ (s.uv.reqs (.session j)).eraseIdx i := by
      simpa [Loop.complete] using hmem
    exact List.count_eq_zero.mp hzero hmem'
  · have hmem' : LoopReq.handoff client ∈ s.uv.reqs (.session j) := by
      simpa [Loop.complete, hj] using hmem
    exact hj (h.oneSession j k client hmem' (List.mem_of_getElem? hi))

/-! ## Servers and the pipe to the boss -/

/-- A wake-up handle is no other handle. -/
theorem asyncs_ne {g h : LoopHandle} (hg : g ∈ EventLoop.asyncs) (hh : h ∉ EventLoop.asyncs) :
    g ≠ h := fun heq => hh (heq ▸ hg)

/-- A worker initialises its pipe to the boss once. -/
theorem Own.ipcTask (h : Own cfg s) (hun : s.uv.handles .ipc_pipe_ = .uninit) (env : TaskEnv) :
    Own cfg (s.ipcTask env) := by
  -- the pipe is not initialised, so it was neither opened nor closed
  have hinited : s.ipc_inited_ = false := by
    by_contra hne
    exact h.ipc_inited.mpr (by simpa using hne) hun
  have hopen : s.ipc_closing_ = false := by
    by_contra hne
    have := h.ipc_closing (by simpa using hne)
    rw [hinited] at this
    simp at this
  -- the connect changes this handle alone
  have hother : ∀ g, g ≠ .ipc_pipe_ →
      ((s.uv.init .ipc_pipe_).submit .ipc_pipe_ .connect).handles g = s.uv.handles g := by
    intro g hg
    rw [handles_submit, handles_init, if_neg hg]
  have hself : ((s.uv.init .ipc_pipe_).submit .ipc_pipe_ .connect).handles .ipc_pipe_ = .opened := by
    rw [handles_submit, handles_init, if_pos rfl]
  have hasync : ∀ g ∈ EventLoop.asyncs,
      ((s.uv.init .ipc_pipe_).submit .ipc_pipe_ .connect).handles g = s.uv.handles g :=
    fun g hg => hother g (asyncs_ne hg (by decide))
  have hreqs : ∀ k, ((s.uv.init .ipc_pipe_).submit .ipc_pipe_ .connect).reqs (.session k) =
      s.uv.reqs (.session k) := fun k => by simp [Loop.submit, Loop.init]
  unfold EventLoop.ipcTask
  -- a connect that fails at once changes nothing
  split
  · exact h
  exact
    { unborn := fun hc => ⟨fun g hg => (hasync g hg).trans ((h.unborn hc).1 g hg),
        fun i => (hother _ (by simp)).trans ((h.unborn hc).2 i)⟩
      asyncs := fun ha g hg => (hasync g hg).trans (h.asyncs ha g hg)
      pipes := fun i hi => h.pipes i (by rwa [hother _ (by simp)] at hi)
      ipc_inited := by simp [hself]
      ipc_closing := fun _ => rfl
      ipc_opened := fun _ _ => by simp [hself, hopen]
      server := fun hl => by rw [hother _ (by simp)]; exact h.server hl
      sessions := fun k hk => by rw [hother _ (by simp)]; exact h.sessions k hk
      objects := fun k hk => by
        rw [hother _ (by simp), hother _ (by simp)]
        exact h.objects k hk
      handoff := fun hl k client hmem => by
        rw [hother _ (by simp)]
        exact h.handoff hl k client (hreqs k ▸ hmem)
      once := fun k client => by rw [hreqs]; exact h.once k client
      oneSession := fun k k' client hk hk' =>
        h.oneSession k k' client (hreqs k ▸ hk) (hreqs k' ▸ hk')
      idle := h.idle }

/-- The server's handle is initialised, and may start to listen. -/
theorem Own.server_init (h : Own cfg s) {uv : Loop LoopHandle LoopReq} {listening : Bool}
    (huv : Frame (· != .server_) s.uv uv) (hopen : uv.handles .server_ ≠ .uninit) :
    Own cfg { s with uv := uv, listening_ := listening } := by
  -- every handle but that of the listener is as before
  have hother : ∀ g, g ≠ .server_ → uv.handles g = s.uv.handles g := fun g hg =>
    huv.handles g (by simpa using hg)
  have hasync : ∀ g ∈ EventLoop.asyncs, uv.handles g = s.uv.handles g :=
    fun g hg => hother g (asyncs_ne hg (by decide))
  have hreqs : ∀ k, uv.reqs (.session k) = s.uv.reqs (.session k) :=
    fun k => huv.reqs _ (by simp)
  exact
    { unborn := fun hc => ⟨fun g hg => (hasync g hg).trans ((h.unborn hc).1 g hg),
        fun i => (hother _ (by simp)).trans ((h.unborn hc).2 i)⟩
      asyncs := fun ha g hg => (hasync g hg).trans (h.asyncs ha g hg)
      pipes := fun i hi => h.pipes i (by rwa [hother _ (by simp)] at hi)
      ipc_inited := by rw [hother _ (by simp)]; exact h.ipc_inited
      ipc_closing := h.ipc_closing
      ipc_opened := fun hl hi => by rw [hother _ (by simp)]; exact h.ipc_opened hl hi
      server := fun _ => hopen
      sessions := fun k hk => by rw [hother _ (by simp)]; exact h.sessions k hk
      objects := fun k hk => by
        rw [hother _ (by simp), hother _ (by simp)]
        exact h.objects k hk
      handoff := fun hl k client hmem => by
        rw [hother _ (by simp)]
        exact h.handoff hl k client (hreqs k ▸ hmem)
      once := fun k client => by rw [hreqs]; exact h.once k client
      oneSession := fun k k' client hk hk' =>
        h.oneSession k k' client (hreqs k ▸ hk) (hreqs k' ▸ hk')
      idle := fun k => by
        rw [huv.started _ (by simp), huv.started _ (by simp)]
        exact h.idle k }

/-- Listening initialises the server's handle. -/
theorem Own.listenTask (h : Own cfg s) (env : TaskEnv) : Own cfg (s.listenTask env) := by
  have hopen : (s.uv.init .server_).handles .server_ ≠ .uninit := by
    rw [handles_init, if_pos rfl]
    simp
  have hinit : Own cfg { s with uv := s.uv.init .server_ } :=
    h.server_init (frame_init (by simp)) hopen
  unfold EventLoop.listenTask
  simp only
  split
  · exact h
  split
  · exact hinit
  split
  · exact hinit
  split
  · exact hinit
  · exact h.server_init ((frame_init (by simp)).trans (frame_start (by simp))) hopen

/-- The pipe to the boss is closed once. -/
theorem Own.closeIpcPipe (h : Own cfg s) : Own cfg s.closeIpcPipe := by
  have hclosing := closing_close s.uv .ipc_pipe_
  unfold EventLoop.closeIpcPipe
  split
  · exact h
  rename_i hguard
  have hinited : s.ipc_inited_ = true := by
    by_contra hne
    simp [hne] at hguard
  refine h.of_closing (fun g _ => hclosing.uninit g)
    (fun k => ⟨hclosing.started _, hclosing.started _⟩) (fun k => by rw [hclosing.reqs])
    (fun hc => hc) (fun ha => ⟨ha, fun g hg => ?_⟩) (fun hl => ⟨hl, fun hi => ?_, ?_⟩)
    (fun _ => hinited) rfl
  · exact handles_close_of_ne (asyncs_ne hg (by decide))
  · have hne : (s.uv.close .ipc_pipe_).handles .ipc_pipe_ ≠ .opened := by
      intro ho
      rw [handles_close_self (hclosing.opened _ ho)] at ho
      simp at ho
    simp [hne]
  · intro k client _
    exact handles_close_of_ne (by simp)

/-! ## Starting and stopping -/

/-- The close callback of a handle that is no channel's. -/
theorem Own.finish (h : Own cfg s) {g : LoopHandle} (hclosing : s.uv.handles g = .closing) :
    Own cfg { s with uv := s.uv.finish g } := by
  have hfinish := closing_finish hclosing
  have hopened : ∀ g', (s.uv.finish g).handles g' = .opened ↔ s.uv.handles g' = .opened := by
    intro g'
    refine ⟨hfinish.opened g', fun ho => ?_⟩
    rw [handles_finish, if_neg]
    · exact ho
    · rintro rfl
      rw [hclosing] at ho
      simp at ho
  refine h.of_closing (fun g' _ => hfinish.uninit g')
    (fun k => ⟨hfinish.started _, hfinish.started _⟩) (fun k => by rw [hfinish.reqs])
    (fun hc => hc) (fun ha => ⟨ha, fun g' hg' => ?_⟩) (fun hl => ⟨hl, fun hi => ?_, ?_⟩)
    (fun hc => h.ipc_closing hc) rfl
  · have ho := h.asyncs ha g' hg'
    rw [ho]
    exact (hopened g').mpr ho
  · rw [hopened]
    exact h.ipc_opened hl hi
  · intro k client hmem
    have ho := h.handoff hl k client hmem
    rw [ho]
    exact (hopened _).mpr ho

/-- The loop thread goes on to a phase that is not before `onStopTriggered` has
    returned, or the same. -/
theorem Own.setPhase (h : Own cfg s) {phase : LoopPhase} (hcreated : phase ≠ .created)
    (hawake : ({ s with phase := phase } : EventLoop).awake → s.awake)
    (hlate : ({ s with phase := phase } : EventLoop).late = false → s.late = false) :
    Own cfg { s with phase := phase } :=
  h.of_closing (fun _ _ => Iff.rfl) (fun _ => ⟨fun hs => hs, fun hs => hs⟩)
    (fun _ => List.Sublist.refl _) (fun hc => absurd hc hcreated)
    (fun ha => ⟨hawake ha, fun _ _ => rfl⟩)
    (fun hl => ⟨hlate hl, fun hi => h.ipc_opened (hlate hl) hi, fun _ _ _ => rfl⟩)
    (fun hc => h.ipc_closing hc) rfl

/-- Only the pipe servers of the list are initialised. -/
theorem initIpcServers_uninit {l : Loop LoopHandle LoopReq} {ipcFail : Option (Nat × Bool)}
    {is : List Nat} {i : Nat} (hi : i ∉ is) :
    (initIpcServers ipcFail l is).1.handles (.pipe_servers_ i) = l.handles (.pipe_servers_ i) := by
  have hframe : Frame (· == LoopHandle.pipe_servers_ i) l (initIpcServers ipcFail l is).1 := by
    refine frame_initIpcServers fun k hk => ?_
    have hne : k ≠ i := fun heq => hi (heq ▸ hk)
    simpa using hne
  exact hframe.handles _ (beq_self_eq_true _)

/-- The handles that `run` starts. -/
def startsWithRun : LoopHandle → Bool
  | .pipe_servers_ _ => true
  | h => h ∈ asyncs

/-- The handles of `run` are initialised. -/
theorem Own.started (h : Own cfg s) (huv : Frame (fun g => !startsWithRun g) s.uv s'.uv)
    (hpipes : ∀ i, s'.uv.handles (.pipe_servers_ i) ≠ .uninit → i < cfg.worker_num)
    (hcreated : s'.phase ≠ .created) (hlate : s.late = false)
    (hasyncs : s'.awake → ∀ g ∈ EventLoop.asyncs, s'.uv.handles g = .opened)
    (hsessions : ∀ k, some k ∈ s'.sessions_ → some k ∈ s.sessions_)
    (hflags : (s'.ipc_inited_, s'.ipc_closing_, s'.listening_, s'.objects) =
      (s.ipc_inited_, s.ipc_closing_, s.listening_, s.objects)) : Own cfg s' := by
  simp only [Prod.mk.injEq] at hflags
  obtain ⟨hinited, hclosing, hlistening, hobjects⟩ := hflags
  -- what `run` initialises has no requests
  have hreqs : ∀ k, s'.uv.reqs (.session k) = s.uv.reqs (.session k) :=
    fun k => huv.reqs _ (by rfl)
  exact
    { unborn := fun hc => absurd hc hcreated
      asyncs := hasyncs
      pipes := hpipes
      ipc_inited := by rw [huv.handles .ipc_pipe_ (by rfl), hinited]; exact h.ipc_inited
      ipc_closing := by rw [hclosing, hinited]; exact h.ipc_closing
      ipc_opened := fun _ hi => by
        rw [huv.handles .ipc_pipe_ (by rfl), hclosing]
        exact h.ipc_opened hlate (hinited ▸ hi)
      server := fun hl => by
        rw [huv.handles .server_ (by rfl)]
        exact h.server (hlistening ▸ hl)
      sessions := fun k hk => by
        rw [huv.handles (.session k) (by rfl)]
        exact h.sessions k (hsessions k hk)
      objects := fun k hk => by
        rw [huv.handles (.session k) (by rfl), huv.handles (.client k) (by rfl)]
        exact h.objects k (hobjects ▸ hk)
      handoff := fun _ k client hmem => by
        rw [huv.handles (.client client) (by rfl)]
        exact h.handoff hlate k client (hreqs k ▸ hmem)
      once := fun k client => by rw [hreqs]; exact h.once k client
      oneSession := fun k k' client hk hk' =>
        h.oneSession k k' client (hreqs k ▸ hk) (hreqs k' ▸ hk')
      idle := fun k => by
        rw [huv.started (.session k) (by rfl), huv.started (.client k) (by rfl)]
        exact h.idle k }

/-- `run` starts the wake-up handles. -/
theorem startsWithRun_asyncs {g : LoopHandle} (hg : g ∈ EventLoop.asyncs) :
    startsWithRun g = true := by
  simp only [EventLoop.asyncs, List.mem_cons, List.not_mem_nil, or_false] at hg
  rcases hg with rfl | rfl | rfl | rfl <;> rfl

/-- `stop` closes nothing by itself. -/
theorem stop_own (s : EventLoop) : SameOwn s s.stop := by
  unfold EventLoop.stop
  split
  · exact SameOwn.refl s
  · exact ⟨Frame.refl _, rfl, rfl, rfl, rfl, rfl, rfl⟩

/-- `run` starts the wake-up handles and the pipe servers, or it fails and leaves the rest alone. -/
theorem Own.run (h : Own cfg s) (hphase : s.phase = .created) (asyncFail : Option Nat)
    (ipcFail : Option (Nat × Bool)) : Own cfg (s.run cfg asyncFail ipcFail) := by
  have hlate : s.late = false := by simp [late, hphase]
  have huninit := (h.unborn hphase).2
  have hasync : ∀ hs : List LoopHandle, (∀ g ∈ hs, g ∈ EventLoop.asyncs) → ∀ p : LoopHandle → Bool,
      (∀ g ∈ EventLoop.asyncs, p g = false) →
      Frame p s.uv (hs.foldl (fun uv h => (uv.init h).start h) s.uv) := by
    intro hs hmem p hp
    refine frame_foldl _ (fun l g hg => (frame_init hg).trans (frame_start hg)) fun g hg => ?_
    exact hp g (hmem g hg)
  have hnotRun : ∀ g ∈ EventLoop.asyncs, (!startsWithRun g) = false := fun g hg => by
    rw [startsWithRun_asyncs hg]
    rfl
  unfold EventLoop.run
  -- `run` may fail at the wake-up handles or at the pipe servers
  simp only
  split
  · -- `initAsynEvent` has failed
    refine h.started (hasync _ (fun g hg => List.mem_of_mem_take hg) _ hnotRun) ?_ (by simp) hlate
      (by simp [awake]) (fun k hk => hk) rfl
    intro i hi
    have hframe := hasync (EventLoop.asyncs.take (asyncFail.getD EventLoop.asyncs.length))
      (fun g hg => List.mem_of_mem_take hg) (· == .pipe_servers_ i) (by simp [EventLoop.asyncs])
    rw [hframe.handles _ (beq_self_eq_true _)] at hi
    exact absurd (huninit i) hi
  · rename_i hnone
    have hfail : asyncFail = none := by simpa using hnone
    subst hfail
    rw [Option.getD_none, List.take_length]
    have hinited : ∀ p : LoopHandle → Bool, (∀ g ∈ EventLoop.asyncs, p g = false) →
        Frame p s.uv (EventLoop.asyncs.foldl (fun uv h => (uv.init h).start h) s.uv) :=
      hasync _ fun g hg => hg
    have hrun : ∀ stopping, Own cfg { s with
        uv := (initIpcServers ipcFail (EventLoop.asyncs.foldl (fun uv h => (uv.init h).start h) s.uv)
          (List.range cfg.worker_num)).1
        asyncs_inited_ := true, sessions_ := List.replicate cfg.worker_num none
        phase := .running, stopping_ := stopping } := by
      intro stopping
      refine h.started ((hinited _ hnotRun).trans (frame_initIpcServers fun _ _ => rfl)) ?_
        (by simp) hlate ?_ ?_ rfl
      · intro i hi
        by_contra hge
        rw [initIpcServers_uninit (by simpa using hge)] at hi
        have hframe := hinited (· == .pipe_servers_ i) (by simp [EventLoop.asyncs])
        rw [hframe.handles _ (beq_self_eq_true _)] at hi
        exact hi (huninit i)
      · -- the pipe servers are initialised after the wake-up handles
        intro _ g hg
        have hframe : Frame (· ∈ EventLoop.asyncs)
            (EventLoop.asyncs.foldl (fun uv h => (uv.init h).start h) s.uv)
            (initIpcServers ipcFail (EventLoop.asyncs.foldl (fun uv h => (uv.init h).start h) s.uv)
              (List.range cfg.worker_num)).1 :=
          frame_initIpcServers fun i _ => by simp [EventLoop.asyncs]
        refine (hframe.handles g (by simpa using hg)).trans ?_
        simp only [EventLoop.asyncs, List.mem_cons, List.not_mem_nil, or_false] at hg
        rcases hg with rfl | rfl | rfl | rfl <;>
          simp [EventLoop.asyncs, handles_init]
      · intro k hk
        simp [List.mem_replicate] at hk
    -- a failed pipe server stops the loop again
    split
    · exact hrun s.stopping_
    · exact (hrun s.stopping_).same (stop_own _)

/-- `ServerEventLoop::onStopTriggered` closes servers, pipe servers and sessions. -/
theorem closing_closeServers (cfg : LoopConfig) (s : EventLoop) :
    Closing s.uv (s.closeServers cfg) := by
  have hlisten : Closing s.uv
      (if s.listening_ then closeUnlessClosing s.uv .server_ else s.uv) := by
    split
    · exact closing_closeUnlessClosing _ _
    · exact Closing.refl _
  unfold closeServers
  exact (hlisten.trans (closing_foldl _ closing_closeUnlessClosing _)).trans
    (closing_foldl _ closing_closeUnlessClosing _)

/-- The loop after `ServerEventLoop::onStopTriggered`'s own part. -/
theorem Own.closeServers (h : Own cfg s) :
    Own cfg { s with stopSent := false, uv := s.closeServers cfg } := by
  have hclosing := closing_closeServers cfg s
  have hframe : ∀ g, g ≠ .server_ → (∀ i, g ≠ .pipe_servers_ i) → (∀ k, g ≠ .session k) →
      (s.closeServers cfg).handles g = s.uv.handles g := by
    intro g hs hp hk
    have hf : Frame (· == g) s.uv (s.closeServers cfg) :=
      frame_closeServers cfg s (by simpa using Ne.symm hs) (fun i => by simpa using Ne.symm (hp i))
        fun k => by simpa using Ne.symm (hk k)
    exact hf.handles g (beq_self_eq_true g)
  refine h.of_closing (fun g _ => hclosing.uninit g)
    (fun k => ⟨hclosing.started _, hclosing.started _⟩) (fun k => by rw [hclosing.reqs])
    (fun hc => hc) (fun ha => ⟨ha, fun g hg => ?_⟩) (fun hl => ⟨hl, fun hi => ?_, ?_⟩)
    (fun hc => h.ipc_closing hc) rfl
  · simp only [EventLoop.asyncs, List.mem_cons, List.not_mem_nil, or_false] at hg
    rcases hg with rfl | rfl | rfl | rfl <;> exact hframe _ (by simp) (by simp) (by simp)
  · rw [hframe _ (by simp) (by simp) (by simp)]
    exact h.ipc_opened hl hi
  · intro k client _
    exact hframe _ (by simp) (by simp) (by simp)

/-- Closing the pipe is not the end of the loop. -/
theorem closeIpcPipe_phase (s : EventLoop) : s.closeIpcPipe.phase = s.phase := by
  unfold EventLoop.closeIpcPipe
  split <;> rfl

/-- `onStopTriggered` closes handles only. -/
theorem Own.onStopTriggered (h : Own cfg s) (hphase : s.phase = .running) :
    Own cfg (s.onStopTriggered cfg) := by
  have hpipe := h.closeServers.closeIpcPipe
  have hrunning := (closeIpcPipe_phase
    { s with stopSent := false, uv := s.closeServers cfg }).trans hphase
  unfold EventLoop.onStopTriggered
  refine hpipe.setPhase (by simp) (fun _ => Or.inl hrunning) (fun _ => ?_)
  simp [late, hrunning]

/-- A step that closes the wake-up handles, or walks over all handles, and leaves
    `onStopTriggered`. -/
theorem Own.leave (h : Own cfg s) {uv : Loop LoopHandle LoopReq} {phase : LoopPhase}
    (hclosing : Closing s.uv uv) (hcreated : phase ≠ .created)
    (hawake : ¬ ({ s with uv := uv, phase := phase } : EventLoop).awake)
    (hlate : ({ s with uv := uv, phase := phase } : EventLoop).late = false → s.late = false ∧
      ∀ g, g ∉ EventLoop.asyncs → uv.handles g = s.uv.handles g) :
    Own cfg { s with uv := uv, phase := phase } := by
  refine h.of_closing (fun g _ => hclosing.uninit g)
    (fun k => ⟨hclosing.started _, hclosing.started _⟩) (fun k => by rw [hclosing.reqs])
    (fun hc => absurd hc hcreated) (fun ha => absurd ha hawake) (fun hl => ?_)
    (fun hc => h.ipc_closing hc) rfl
  obtain ⟨hl', hsame⟩ := hlate hl
  refine ⟨hl', fun hi => ?_, fun k client _ => hsame _ (by simp [EventLoop.asyncs])⟩
  rw [hsame _ (by decide)]
  exact h.ipc_opened hl' hi

/-! ## Pipe servers -/

/-- The pipe servers, which only `run` initialises. -/
def isPipeServer : LoopHandle → Bool
  | .pipe_servers_ _ => true
  | _ => false

/-- Making a channel does not touch the loop. -/
theorem newChannel_uv (cfg : LoopConfig) (s : EventLoop) : (s.newChannel cfg).uv = s.uv := by
  unfold newChannel registerChannel
  simp only
  split <;> rfl

/-- Passing on a connection leaves the pipe servers alone, -/
theorem handoffToWorker_frame (s : EventLoop) (writeRet : Int) (client tried : Nat) :
    Frame isPipeServer s.uv (s.handoffToWorker writeRet client tried).uv ∧
      (s.handoffToWorker writeRet client tried).phase = s.phase := by
  induction tried generalizing s with
  | zero => exact ⟨frame_close rfl, rfl⟩
  | succ tried ih =>
    unfold EventLoop.handoffToWorker
    simp only
    split
    · exact ih { s with next_worker_ := (s.next_worker_ + 1) % s.sessions_.length }
    split
    · exact ⟨frame_submit rfl _, rfl⟩
    · exact ⟨frame_close rfl, rfl⟩

/-- and so does a new connection. -/
theorem uv_on_new_connection_frame (s : EventLoop) (initRet acceptRet writeRet : Int) :
    Frame isPipeServer s.uv (s.uv_on_new_connection cfg initRet acceptRet writeRet).uv ∧
      (s.uv_on_new_connection cfg initRet acceptRet writeRet).phase = s.phase := by
  unfold EventLoop.uv_on_new_connection
  simp only
  split
  · exact ⟨Frame.refl _, rfl⟩
  split
  · exact ⟨(frame_init rfl).trans (frame_close rfl), rfl⟩
  · obtain ⟨hframe, hphase⟩ := handoffToWorker_frame
      { s with uv := s.uv.init (.client s.objects), objects := s.objects + 1 } writeRet s.objects
      cfg.worker_num
    exact ⟨(frame_init (by rfl)).trans hframe, hphase⟩

/-- So does a worker's connection. -/
theorem uv_on_pipe_connection_frame (s : EventLoop) (i : Nat) (initRet acceptRet : Int) :
    Frame isPipeServer s.uv (s.uv_on_pipe_connection i initRet acceptRet).uv ∧
      (s.uv_on_pipe_connection i initRet acceptRet).phase = s.phase := by
  unfold EventLoop.uv_on_pipe_connection
  simp only
  split
  · exact ⟨Frame.refl _, rfl⟩
  split
  · exact ⟨(frame_init rfl).trans (frame_close rfl), rfl⟩
  · exact ⟨frame_init rfl, rfl⟩

/-- A new channel is not the end of the loop. -/
theorem newChannel_phase (cfg : LoopConfig) (s : EventLoop) :
    (s.newChannel cfg).phase = s.phase := (newChannel_own cfg s).phase

/-- A connection that a worker adopts leaves the pipe servers alone. -/
theorem adopt_frame (s : EventLoop) (initRet acceptRet : Int) :
    Frame isPipeServer s.uv (s.adopt cfg initRet acceptRet).uv ∧
      (s.adopt cfg initRet acceptRet).phase = s.phase := by
  unfold EventLoop.adopt
  split
  · exact ⟨Frame.refl _, rfl⟩
  split
  · exact ⟨(frame_init rfl).trans (frame_close rfl), rfl⟩
  · simp only [newChannel_uv, newChannel_phase]
    exact ⟨(frame_init rfl).trans (frame_start rfl), trivial⟩

/-! ## Every step -/

/-- Every step keeps what holds of the handles that belong to no channel. -/
theorem own_step (h : Own cfg s) {a : LoopAct} (hstep : step cfg s a = some s') : Own cfg s' := by
  have hemit : ∀ c, SameOwn s { s with pc := c } := fun c =>
    ⟨Frame.refl _, rfl, rfl, rfl, rfl, rfl, rfl⟩
  -- a channel has its own handles; the other actions are those of the loop
  cases step_cases hstep with
  | nothing => exact h
  -- a flag, a queued task or an id is no handle
  | close hc => exact h.same (setChannel_own _ _ _ true)
  | @enqueueClose i c hi =>
    have hpop : SameOwn s { s with closers := s.closers.eraseIdx i } :=
      ⟨Frame.refl _, rfl, rfl, rfl, rfl, rfl, rfl⟩
    exact h.same (hpop.trans (enqueueClose_own _ c))
  | queue hcloses htarget => exact h.same ⟨Frame.refl _, rfl, rfl, rfl, rfl, rfl, rfl⟩
  | stop => exact h.same (stop_own s)
  | generateId n => exact h.same ⟨Frame.refl _, rfl, rfl, rfl, rfl, rfl, rfl⟩
  | run hphase => exact h.run hphase _ _
  | @runTask i env t hi hpc hphase hrepeats =>
    have hpop : SameOwn s { s with waitTasks := s.waitTasks.eraseIdx i } :=
      ⟨Frame.refl _, rfl, rfl, rfl, rfl, rfl, rfl⟩
    cases t with
    | closeInLoop self => exact h.same (hpop.trans (closeInLoop_own _ self))
    | eventLoopWrite self msgId msg playerId => exact h.same (hpop.trans (sent_own _ self _ _ _))
    | eventLoopRawWrite self msgId body playerId => exact h.same (hpop.trans (sent_own _ self _ _ _))
    | asyncConnect => exact h.same (hpop.trans (connectTask_own cfg env _))
    | connectIpc =>
      refine (h.same hpop).ipcTask ?_ env
      simpa [repeats] using hrepeats
    | startListen => exact (h.same hpop).listenTask env
  | closeFailed hpc => exact h.same ((hemit _).trans (setChannel_own _ _ _ false))
  | startHeartbeatTimer hpc => exact h.same (startHeartbeatTimer_own cfg s _ _)
  | onConnect hpc hphase hi hopen => exact h.same (uv_on_connect_own s _ _ _)
  | onRead hpc hphase hopen => exact h.same (uv_read_cb_own s _ _ _ _ _)
  | onWrite hpc hphase hi => exact h.same (uv_write_cb_own s _ _ _ _ _)
  | onTimer hpc hphase hopen => exact h.same (uv_on_timer_own s _ _)
  | ipcFailed =>
    refine h.of_closing (fun _ _ => Iff.rfl) (fun _ => ⟨fun hs => hs, fun hs => hs⟩)
      (fun k => by simp [Loop.complete]) (fun hc => hc) (fun ha => ⟨ha, fun _ _ => rfl⟩)
      (fun hl => ⟨hl, fun hi => h.ipc_opened hl hi, fun _ _ _ => rfl⟩) (fun hc => h.ipc_closing hc) rfl
  | ipcConnected hopen =>
    refine h.of_closing (fun _ _ => Iff.rfl) (fun k => ?_)
      (fun k => by simp [Loop.complete, Loop.start]) (fun hc => hc) (fun ha => ⟨ha, fun _ _ => rfl⟩)
      (fun hl => ⟨hl, fun hi => h.ipc_opened hl hi, fun _ _ _ => rfl⟩) (fun hc => h.ipc_closing hc) rfl
    simp [Loop.complete, Loop.start]
  | ipcError hphase hopen => exact h.closeIpcPipe
  | @ipcAccept initRet acceptRet hpc hphase hopen =>
    unfold EventLoop.adopt
    split
    -- a pipe that cannot accept is closed at once
    · exact h
    split
    · exact (h.newObject (Or.inr rfl)).closeObject
        (Or.inr ⟨_, rfl, h.unsent_objects (late_of_phase hphase)⟩)
    -- the descriptor becomes the channel that is created
    · have hinit : SameOwn s { s with uv := s.uv.init (.tcp s.created) } :=
        SameOwn.of_uv (frame_init rfl)
      refine h.same ((hinit.trans (newChannel_own cfg _)).trans ?_)
      exact ⟨frame_start rfl, rfl, rfl, rfl, rfl, rfl, rfl⟩
  | acceptConnection hphase hopen => exact h.uv_on_new_connection (late_of_phase hphase) _ _ _
  | acceptPipe hphase hopen => exact h.uv_on_pipe_connection _ _ _
  | afterHandoff hphase hi => exact h.after_handoff_cb hi
  | @handleClosed g hpc hphase hclosing hreqs =>
    -- a callback of a channel, or the end of a handle of the loop
    by_cases hg : g.isChannel = true
    · exact h.same (closeCallback_own hg hclosing)
    · by_cases hwalked : s.phase = .walked
      · rw [show s.closeCallback g = { s with uv := s.uv.finish g } from if_pos hwalked]
        exact h.finish hclosing
      · rw [closeCallback_other (by simpa using hg) hwalked]
        exact h.finish hclosing
  | stopTriggered hpc hphase => exact h.onStopTriggered hphase
  -- from here on the loop only closes
  | stopCloseEnd hphase =>
    exact h.setPhase (by simp) (fun _ => Or.inr (Or.inr ⟨_, hphase⟩)) (fun _ => by simp [late, hphase])
  | @stopClose c rest hphase =>
    have hnext : Own cfg { s with phase := .closingChannels rest } :=
      h.setPhase (by simp) (fun _ => Or.inr (Or.inr ⟨_, hphase⟩)) (fun _ => by simp [late, hphase])
    exact hnext.same (setChannel_own _ c _ false)
  | stopDrained hpc hphase hempty =>
    -- the asyncs are closed, and no other handle
    refine h.leave (closing_foldl _ closing_close _) (by simp) (by simp [awake]) fun _ => ?_
    refine ⟨by simp [late, hphase], fun g hg => ?_⟩
    have hframe : Frame (· == g) s.uv (EventLoop.asyncs.foldl Loop.close s.uv) :=
      frame_foldl _ (fun _ _ hh => frame_close hh) fun g' hg' => by
        simpa using asyncs_ne hg' hg
    exact hframe.handles g (beq_self_eq_true g)
  | uvRunReturns hpc hphase halive =>
    exact h.leave (closing_walkClose _) (by simp) (by simp [awake]) fun hl => by simp [late] at hl
  | lastTasks hphase =>
    exact h.setPhase (by simp) (by simp [awake]) (by simp [late])
  | endRun hphase =>
    exact h.setPhase (by simp) (by simp [awake]) (by simp [late])

/-- The other handles are in order throughout every run. -/
theorem own_run {acts : List LoopAct} (hrun : Run.run (step cfg) (init cfg) acts = some s) :
    Own cfg s :=
  Run.invariant (fun _ _ _ h hstep => own_step h hstep) (own_init cfg) hrun

end Athena.EventLoop
