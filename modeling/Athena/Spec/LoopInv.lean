import Mathlib.Data.List.Perm.Basic
import Athena.ForStd.Run
import Athena.Spec.ChannelFlags
import Athena.Spec.ChannelLife

/-!
# The channels of a reactor

`EventLoop.Inv` says that every channel of a reactor lives as `ChannelLife.Ok` says,
that the registry has the channels that are not erased, and that nobody holds a
channel that was never made.  It holds in every run that makes no channel under an id
which the registry still has (`FreshId`): with two channels under one id, `close()`
of the one would find the other.

After `uv_run` has returned, only channels with a timer are followed: their timers
kept `uv_run` going until they were closed.

## Key results

- `Inv.of_views`: the invariant is a matter of the channels' views
- `inv_step`, `inv_run`: every step keeps it
-/

namespace Athena

open Uv Uv.Loop Channel ChannelLife

/-- The task is `closeInLoop` of the channel. -/
def LoopTask.closes (c : ChannelRef) : LoopTask → Bool
  | .closeInLoop self => self == c
  | _ => false

/-- The channel a task holds. -/
def LoopTask.target : LoopTask → Option ChannelRef
  | .closeInLoop self => some self
  | .eventLoopWrite self _ _ _ => some self
  | .eventLoopRawWrite self _ _ _ => some self
  | _ => none

/-- `onNewConnection` of the channel is not through. -/
def LoopPc.announces (c : ChannelRef) : LoopPc → Bool
  | .newConnection channel => channel == c
  | _ => false

/-- A loop that is ready announces no channel, -/
@[simp] theorem LoopPc.announces_ready (c : ChannelRef) : LoopPc.announces c .ready = false := rfl

/-- nor does one whose connect has failed. -/
@[simp] theorem LoopPc.announces_connectFailed (c d : ChannelRef) :
    LoopPc.announces c (.connectFailed d) = false := rfl

/-- A loop announces the channel that `onNewConnection` is called for. -/
@[simp] theorem LoopPc.announces_newConnection (c d : ChannelRef) :
    LoopPc.announces c (.newConnection d) = (d == c) := rfl

/-- A handle of a channel. -/
def LoopHandle.isChannel : LoopHandle → Bool
  | .tcp _ => true
  | .heartbeat_timer _ => true
  | _ => false

namespace EventLoop

/-- `uv_run` has returned. -/
def late (s : EventLoop) : Bool :=
  s.phase = .walked || s.phase = .lastTasks || s.phase = .ended

/-- The channel `c` as the reactor sees it. -/
def view (s : EventLoop) (c : ChannelRef) : View where
  closed := (s.chans c).closed_
  tcpDone := (s.chans c).tcp_closed_
  timerDone := (s.chans c).timer_closed_
  tcp := s.uv.handles (.tcp c)
  timer := s.uv.handles (.heartbeat_timer c)
  timerRuns := s.uv.started (.heartbeat_timer c)
  reqs := (s.uv.reqs (.tcp c)).length
  connects := (s.uv.reqs (.tcp c)).count .connect + (s.pc.announces c).toNat
  pending := s.closers.count c + s.waitTasks.countP (LoopTask.closes c)
  log := s.log c

/-- Nothing is known of a channel that has not been made. -/
structure Blank (v : View) : Prop where
  tcp : v.tcp = .uninit
  timer : v.timer = .uninit
  reqs : v.reqs = 0
  connects : v.connects = 0
  pending : v.pending = 0
  log : v.log = []

/-- The channel is followed. -/
def Guarded (s : EventLoop) (c : ChannelRef) : Prop :=
  s.uv.handles (.heartbeat_timer c) ≠ .uninit ∨ s.uv.aborted = false ∧ s.late = false

/-- Somebody who is not a handle or the registry holds the channel. -/
def Mentions (s : EventLoop) (c : ChannelRef) : Prop :=
  (∃ t ∈ s.waitTasks, t.target = some c) ∨ c ∈ s.closers ∨ s.pc = .connectFailed c ∨
    ∃ rest, s.phase = .closingChannels rest ∧ c ∈ rest

/-- Every channel lives as it should, and nobody holds one that was never made. -/
structure Inv (s : EventLoop) : Prop where
  blank : ∀ c, s.created ≤ c → Blank (s.view c)
  ok : ∀ c < s.created, s.Guarded c → Ok (s.view c)
  /-- the timers have been closed when `uv_run` returns -/
  done : s.late = true → ∀ c, (s.view c).timer ≠ .uninit →
    (s.view c).tcp = .closed ∧ (s.view c).timer = .closed
  registered : ∀ c < s.created, .erase ∉ (s.view c).log → s.channelPtr c = some c
  found : ∀ i c, s.channels_ i = some c →
    c < s.created ∧ (s.chans c).id = i ∧ .erase ∉ (s.view c).log
  gone : ∀ c, .erase ∈ (s.view c).log → (s.view c).timer = .closed
  known : s.uv.Known
  mentions : ∀ c, s.Mentions c → c < s.created
  early : s.late = true → ∀ c, s.pc.announces c = false

/-- A new loop has no channels. -/
theorem inv_init (cfg : LoopConfig) : Inv (init cfg) where
  blank c _ := ⟨rfl, rfl, rfl, rfl, rfl, rfl⟩
  ok c hc := absurd hc (Nat.not_lt_zero c)
  done hlate := by simp [late, init] at hlate
  registered c hc := absurd hc (Nat.not_lt_zero c)
  found i c hi := by simp [init] at hi
  gone c he := by simp [view, init] at he
  known h := by simp [init, Loop.empty]
  mentions c hc := by simp [Mentions, init] at hc
  early _ _ := rfl

variable {s s' : EventLoop} {c : ChannelRef}

/-! ## Invariance by views -/

/-- How a step may change the view of one channel. -/
structure Changes (s s' : EventLoop) (c : ChannelRef) : Prop where
  lt : c < s.created
  ok : s'.Guarded c → Ok (s'.view c)
  erase : .erase ∈ (s'.view c).log ↔ .erase ∈ (s.view c).log
  timer : (s.view c).timer = .closed → (s'.view c).timer = .closed
  done : s.late = true → (s'.view c).timer = .uninit ∨
    (s'.view c).tcp = (s.view c).tcp ∧ (s'.view c).timer = (s.view c).timer

/-- A step that leaves the registry alone is a matter of the views it changes. -/
theorem Inv.of_views (h : Inv s) (hview : ∀ c, s'.view c = s.view c ∨ Changes s s' c)
    (hcreated : s'.created = s.created) (hchannels : s'.channels_ = s.channels_)
    (hid : ∀ c, (s'.chans c).id = (s.chans c).id) (hlate : s'.late = s.late)
    (hab : s'.uv.aborted = false → s.uv.aborted = false) (hknown : s'.uv.Known)
    (hm : ∀ c, s'.Mentions c → c < s.created)
    (hearly : s'.late = true → ∀ c, s'.pc.announces c = false) : Inv s' := by
  -- a channel that has not changed is guarded as it was
  have hguard : ∀ c, s'.view c = s.view c → s'.Guarded c → s.Guarded c := by
    intro c hv hg
    rcases hg with hg | ⟨hna, hl⟩
    · exact Or.inl (fun hun => hg ((congrArg View.timer hv).trans hun))
    · exact Or.inr ⟨hab hna, hlate ▸ hl⟩
  -- nothing is erased by a change, and what was erased stays so
  have herase : ∀ c, .erase ∈ (s'.view c).log ↔ .erase ∈ (s.view c).log := by
    intro c
    rcases hview c with hv | hv
    · rw [hv]
    · exact hv.erase
  constructor
  · intro c hc
    rw [hcreated] at hc
    rcases hview c with hv | hv
    · rw [hv]; exact h.blank c hc
    · exact absurd hv.lt (Nat.not_lt.mpr hc)
  · intro c hc hg
    rw [hcreated] at hc
    rcases hview c with hv | hv
    · rw [hv]; exact h.ok c hc (hguard c hv hg)
    · exact hv.ok hg
  -- when the loop is done the handles have been walked
  · intro hl c ht
    rw [hlate] at hl
    rcases hview c with hv | hv
    · rw [hv] at ht ⊢; exact h.done hl c ht
    · rcases hv.done hl with hun | ⟨htcp, htimer⟩
      · exact absurd hun ht
      · rw [htcp, htimer]
        exact h.done hl c (fun hun => ht (htimer.trans hun))
  · intro c hc he
    rw [hcreated] at hc
    show s'.channels_ (s'.chans c).id = some c
    rw [hchannels, hid]
    exact h.registered c hc (fun hold => he ((herase c).mpr hold))
  · intro i c hi
    rw [hchannels] at hi
    obtain ⟨hlt, hidc, hnot⟩ := h.found i c hi
    exact ⟨hcreated ▸ hlt, (hid c).trans hidc, fun he => hnot ((herase c).mp he)⟩
  · intro c he
    rcases hview c with hv | hv
    · rw [hv] at he ⊢; exact h.gone c he
    · exact hv.timer (h.gone c (hv.erase.mp he))
  · exact hknown
  · intro c hc
    rw [hcreated]
    exact hm c hc
  · exact hearly

/-! ## Steps that are not about channels -/

/-- The handles of the channels are as they were. -/
abbrev SameHandles (l l' : Loop LoopHandle LoopReq) : Prop := Frame LoopHandle.isChannel l l'

section
variable {l : Loop LoopHandle LoopReq} {p : LoopHandle → Bool}

/-- The pipe servers are initialised, and nothing else. -/
theorem frame_initIpcServers {ipcFail : Option (Nat × Bool)} {is : List Nat}
    (hp : ∀ i ∈ is, p (.pipe_servers_ i) = false) : Frame p l (initIpcServers ipcFail l is).1 := by
  induction is generalizing l with
  | nil => exact Frame.refl l
  | cons i is ih =>
    have hi := hp i List.mem_cons_self
    unfold initIpcServers
    split
    · exact Frame.refl l
    split
    · exact frame_init hi
    · exact ((frame_init hi).trans (frame_start hi)).trans
        (ih fun k hk => hp k (List.mem_cons_of_mem i hk))

/-- The servers, the pipes and the sessions are closed, and nothing else. -/
theorem frame_closeServers (cfg : LoopConfig) (s : EventLoop) (hserver : p .server_ = false)
    (hpipes : ∀ i, p (.pipe_servers_ i) = false) (hsessions : ∀ k, p (.session k) = false) :
    Frame p s.uv (s.closeServers cfg) := by
  unfold closeServers
  have hlisten : Frame p s.uv
      (if s.listening_ then closeUnlessClosing s.uv .server_ else s.uv) := by
    split
    · exact frame_closeUnlessClosing hserver
    · exact Frame.refl _
  refine (hlisten.trans (frame_foldl _ (fun _ _ => frame_closeUnlessClosing) ?_)).trans
    (frame_foldl _ (fun _ _ => frame_closeUnlessClosing) ?_)
  · intro h hh
    obtain ⟨i, -, rfl⟩ := List.mem_map.mp hh
    exact hpipes i
  · intro h hh
    obtain ⟨o, -, ho⟩ := List.mem_filterMap.mp hh
    obtain ⟨k, -, rfl⟩ := Option.map_eq_some_iff.mp ho
    exact hsessions k

end

/-- What belongs to the channels, apart from their handles and tasks. -/
def channelPart (s : EventLoop) := (s.chans, s.created, s.channels_, s.closers, s.log)

/-- A step that leaves the channels, their handles, tasks and logs alone. -/
theorem Inv.same (h : Inv s) (huv : SameHandles s.uv s'.uv) (hpart : s'.channelPart = s.channelPart)
    (hm : ∀ c, s'.Mentions c → c < s.created) (hlate : s'.late = s.late)
    (hpc : ∀ c, s'.pc.announces c = s.pc.announces c)
    (htasks : ∀ c, s'.waitTasks.countP (LoopTask.closes c) =
      s.waitTasks.countP (LoopTask.closes c)) : Inv s' := by
  simp only [channelPart, Prod.mk.injEq] at hpart
  obtain ⟨hchans, hcreated, hchannels, hclosers, hlog⟩ := hpart
  refine h.of_views (fun c => Or.inl ?_) hcreated hchannels (fun c => by rw [hchans]) hlate
    huv.aborted (huv.known h.known) hm (fun hl c => by rw [hpc]; exact h.early (hlate ▸ hl) c)
  have hpcc := hpc c
  simp only [view, hchans, huv.handles (.tcp c) rfl, huv.handles (.heartbeat_timer c) rfl,
    huv.started (.heartbeat_timer c) rfl, huv.reqs (.tcp c) rfl, hclosers, htasks, hlog, hpcc]

/-- Where the loop thread is, and its tasks. -/
def threadPart (s : EventLoop) := (s.waitTasks, s.phase, s.pc)

/-- A step on handles of no channel. -/
theorem Inv.of_frame (h : Inv s) (huv : SameHandles s.uv s'.uv)
    (hpart : s'.channelPart = s.channelPart) (hthread : s'.threadPart = s.threadPart) : Inv s' := by
  have hclosers : s'.closers = s.closers := by
    simp only [channelPart, Prod.mk.injEq] at hpart
    exact hpart.2.2.2.1
  simp only [threadPart, Prod.mk.injEq] at hthread
  obtain ⟨htasks, hphase, hpc⟩ := hthread
  refine h.same huv hpart (fun c hc => h.mentions c ?_) ?_ (fun c => by rw [hpc])
    (fun c => by rw [htasks])
  · simpa only [Mentions, htasks, hclosers, hpc, hphase] using hc
  · simp only [late, hphase]

/-! ## What happens to one channel -/

/-- A channel that is not closed, or whose close is under way, is in the registry. -/
theorem Inv.channelPtr_eq (h : Inv s) (hc : c < s.created)
    (hopen : (s.view c).closed = false ∨ (s.view c).pending ≠ 0) : s.channelPtr c = some c := by
  refine h.registered c hc ?_
  by_cases hg : s.Guarded c
  · have hok := h.ok c hc hg
    have htcp : (s.view c).tcp = .opened := by
      rcases hopen with ho | ho
      · exact (hok.opened ho).2.1
      · exact (hok.opened_of_pending ho).2.2.2.1
    exact hok.not_erased (Or.inl (by rw [htcp]; simp))
  · -- a channel that is not followed has no timer
    intro he
    have htimer := h.gone c he
    refine hg (Or.inl ?_)
    show (s.view c).timer ≠ _
    rw [htimer]
    simp

/-- A function of the channel has run. -/
theorem Inv.setChannel (h : Inv s) (hc : c < s.created) {ch : Channel}
    (hk : Keeps (s.chans c) ch) (byOther : Bool) : Inv (s.setChannel c ch byOther) := by
  have hid : ∀ d, (Function.update s.chans c ch d).id = (s.chans d).id := by
    intro d
    by_cases hd : d = c
    · rw [hd, Function.update_self]; exact hk.id_eq
    · rw [Function.update_of_ne hd]
  unfold EventLoop.setChannel
  cases hcloses : (ch.closed_ && !(s.chans c).closed_) with
  | false =>
    -- `closed_` is as it was
    have hclosed : ch.closed_ = (s.chans c).closed_ := by
      cases hold : (s.chans c).closed_ with
      | true => exact hk.closed_mono hold
      | false => rw [hold] at hcloses; simpa using hcloses
    refine h.of_views (fun d => Or.inl ?_) rfl rfl hid rfl (fun ha => ha) h.known h.mentions h.early
    by_cases hd : d = c
    · subst hd
      simp [view, hclosed, hk.tcp_closed_eq, hk.timer_closed_eq]
    · simp [view, Function.update_of_ne hd]
  | true =>
    simp only [Bool.and_eq_true, Bool.not_eq_true'] at hcloses
    have hfound := h.channelPtr_eq hc (Or.inl hcloses.2)
    have hfound' : ({ s with chans := Function.update s.chans c ch } : EventLoop).channelPtr c =
        some c := by
      show s.channels_ (Function.update s.chans c ch c).id = _
      rw [hid]
      exact hfound
    have hchanges : ∀ t : EventLoop, t.view c =
          { s.view c with closed := true, pending := (s.view c).pending + 1 } →
        t.uv = s.uv → t.late = s.late → Changes s t c := by
      intro t ht huv hl
      refine ⟨hc, fun hg => ?_, by rw [ht], by rw [ht]; exact fun hx => hx, by rw [ht]; simp⟩
      rw [ht]
      refine (h.ok c hc ?_).close hcloses.2
      simpa only [Guarded, huv, hl] using hg
    have hm : ∀ d, s.Mentions d → d < s.created := h.mentions
    cases byOther with
    | true =>
      refine h.of_views (fun d => ?_) rfl rfl hid rfl (fun ha => ha) h.known ?_ h.early
      · by_cases hd : d = c
        · subst hd
          refine Or.inr (hchanges _ ?_ rfl rfl)
          simp [view, hcloses.1, hk.tcp_closed_eq, hk.timer_closed_eq]
          omega
        · refine Or.inl ?_
          simp [view, Function.update_of_ne hd, Ne.symm hd]
      · intro d hd
        rcases hd with hd | hd | hd
        · exact hm d (Or.inl hd)
        · rcases List.mem_append.mp hd with hd | hd
          · exact hm d (Or.inr (Or.inl hd))
          · rw [List.mem_singleton.mp hd]; exact hc
        · exact hm d (Or.inr (Or.inr hd))
    | false =>
      simp only [Bool.false_eq_true, if_false, if_true, enqueueClose, hfound']
      refine h.of_views (fun d => ?_) rfl rfl hid rfl (fun ha => ha) h.known ?_ h.early
      · by_cases hd : d = c
        · subst hd
          refine Or.inr (hchanges _ ?_ rfl rfl)
          simp [view, executeOnEventLoop, LoopTask.closes, hcloses.1, hk.tcp_closed_eq,
            hk.timer_closed_eq]
          omega
        · refine Or.inl ?_
          simp [view, executeOnEventLoop, LoopTask.closes, Function.update_of_ne hd, Ne.symm hd]
      · intro d hd
        rcases hd with ⟨t, ht, htarget⟩ | hd
        · rcases List.mem_append.mp ht with ht | ht
          · exact hm d (Or.inl ⟨t, ht, htarget⟩)
          · rw [List.mem_singleton.mp ht] at htarget
            rw [← Option.some.inj htarget]
            exact hc
        · exact hm d (Or.inr hd)

/-- A callback comes to a channel that is not erased. -/
theorem Inv.callback (h : Inv s) (hc : c < s.created) (cb : ChannelCallback)
    (hnot : .erase ∉ (s.view c).log) (hne : cb ≠ .onTcpClosed ∧ cb ≠ .onTimerClosed) :
    Inv (s.emit c (.callback cb)) := by
  refine h.of_views (fun d => ?_) rfl rfl (fun _ => rfl) rfl (fun ha => ha) h.known h.mentions
    h.early
  by_cases hd : d = c
  · subst hd
    have hv : (s.emit d (.callback cb)).view d =
        { s.view d with log := (s.view d).log ++ [ChannelEvent.callback cb] } := by
      simp [view, emit]
    refine Or.inr ⟨hc, fun hg => ?_, ?_, ?_, ?_⟩
    · rw [hv]; exact (h.ok d hc hg).callback hnot hne
    · rw [hv]; simp
    · rw [hv]; exact fun hx => hx
    · rw [hv]; exact fun _ => Or.inr ⟨rfl, rfl⟩
  · exact Or.inl (by simp [view, emit, Function.update_of_ne hd])

/-- `s` with other requests on the tcp handle of a channel, and the loop thread
    elsewhere. -/
def withReqs (s : EventLoop) (c : ChannelRef) (reqs : List LoopReq) (pc : LoopPc) : EventLoop :=
  { s with uv := { s.uv with reqs := Function.update s.uv.reqs (.tcp c) reqs }, pc := pc }

/-- The view after `withReqs`. -/
theorem view_withReqs (s : EventLoop) (c : ChannelRef) (reqs : List LoopReq) (pc : LoopPc) :
    (s.withReqs c reqs pc).view c =
      { s.view c with
        reqs := reqs.length, connects := reqs.count .connect + (pc.announces c).toNat } := by
  simp [view, withReqs]

/-- Requests are made or done on a tcp handle that is not closed. -/
theorem Inv.withReqs (h : Inv s) (hc : c < s.created) (reqs : List LoopReq) (pc : LoopPc)
    (hopen : s.Guarded c → (s.view c).tcp ≠ .closed)
    (hk : reqs.count .connect + (pc.announces c).toNat ≤ (s.view c).connects)
    (hpc : ∀ d ≠ c, pc.announces d = s.pc.announces d)
    (hm : ∀ d, pc = .connectFailed d → d < s.created)
    (hearly : s.late = true → ∀ d, pc.announces d = false) : Inv (s.withReqs c reqs pc) := by
  refine h.of_views (fun d => ?_) rfl rfl (fun _ => rfl) rfl (fun ha => ha) h.known ?_ hearly
  -- the channel itself, whose requests have changed, or another one
  · by_cases hd : d = c
    · subst hd
      have hv := view_withReqs s d reqs pc
      refine Or.inr ⟨hc, fun hg => ?_, ?_, ?_, ?_⟩
      · rw [hv]; exact (h.ok d hc hg).request (hopen hg) hk
      · rw [hv]
      · rw [hv]; exact fun hx => hx
      · rw [hv]; exact fun _ => Or.inr ⟨rfl, rfl⟩
    · -- the requests of another channel are not looked at
      have htcp : LoopHandle.tcp d ≠ .tcp c := fun heq => hd (LoopHandle.tcp.inj heq)
      exact Or.inl (by simp [view, EventLoop.withReqs, Function.update_of_ne htcp, hpc d hd])
  · intro d hd
    rcases hd with hd | hd | hd | hd
    · exact h.mentions d (Or.inl hd)
    · exact h.mentions d (Or.inr (Or.inl hd))
    · exact hm d hd
    · exact h.mentions d (Or.inr (Or.inr (Or.inr hd)))

/-- `uv_read_start` is not part of the views. -/
theorem Inv.startTcp (h : Inv s) (c : ChannelRef) : Inv { s with uv := s.uv.start (.tcp c) } :=
  h.of_views (fun d => Or.inl (by simp [view, Loop.start])) rfl rfl (fun _ => rfl) rfl
    (fun ha => ha) h.known h.mentions h.early

/-- The end of `onNewConnection`, with or without a timer. -/
theorem Inv.startHeartbeatTimer (h : Inv s) (hna : s.uv.aborted = false) (cfg : LoopConfig)
    (hpc : s.pc = .newConnection c) (ret : Int) : Inv (s.startHeartbeatTimer cfg c ret) := by
  have hannounces : s.pc.announces c = true := by simp [hpc]
  have hconn : (s.view c).connects ≠ 0 := by simp [view, hannounces]
  have hc : c < s.created := by
    by_contra hge
    exact hconn (h.blank c (Nat.not_lt.mp hge)).connects
  have hlate : s.late = false := by
    cases hl : s.late with
    | false => rfl
    | true => rw [h.early hl c] at hannounces; exact absurd hannounces (by decide)
  have hok := h.ok c hc (Or.inr ⟨hna, hlate⟩)
  have huninit : (s.view c).timer = .uninit := by
    by_contra hne
    have hone := hok.oneTimer
    rw [if_neg hne] at hone
    omega
  have hothers : ∀ d, d ≠ c → s.pc.announces d = false := by
    intro d hd
    simp [hpc, Ne.symm hd]
  have hm : ∀ d, ({ s with pc := .ready } : EventLoop).Mentions d → d < s.created := by
    intro d hd
    rcases hd with hd | hd | hd | hd
    · exact h.mentions d (Or.inl hd)
    · exact h.mentions d (Or.inr (Or.inl hd))
    · simp at hd
    · exact h.mentions d (Or.inr (Or.inr (Or.inr hd)))
  -- without a timer
  have hready : Inv { s with pc := .ready } := by
    refine h.of_views (fun d => ?_) rfl rfl (fun _ => rfl) rfl (fun ha => ha) h.known hm
      (fun _ _ => rfl)
    by_cases hd : d = c
    · subst hd
      have hv : ({ s with pc := .ready } : EventLoop).view d =
          { s.view d with connects := (s.view d).connects - 1 } := by
        simp [view, hannounces]
      refine Or.inr ⟨hc, fun _ => ?_, ?_, ?_, ?_⟩
      · rw [hv]; exact hok.noTimer
      · rw [hv]
      · rw [hv]; exact fun hx => hx
      · rw [hv]; exact fun _ => Or.inr ⟨rfl, rfl⟩
    · exact Or.inl (by simp [view, hothers d hd])
  unfold EventLoop.startHeartbeatTimer
  simp only
  split
  · exact hready
  split
  · exact hready
  refine h.of_views (fun d => ?_) rfl rfl (fun _ => rfl) rfl (fun ha => ha) (h.known.init _) hm
    (fun _ _ => rfl)
  by_cases hd : d = c
  · subst hd
    have hv : ({ s with
          uv := (s.uv.init (.heartbeat_timer d)).start (.heartbeat_timer d)
          pc := .ready } : EventLoop).view d =
        { s.view d with
          connects := (s.view d).connects - 1, timer := .opened, timerRuns := true } := by
      simp [view, hannounces, Loop.start, Loop.init]
    refine Or.inr ⟨hc, fun _ => ?_, ?_, ?_, ?_⟩
    · rw [hv]; exact hok.startTimer hconn
    · rw [hv]
    · rw [huninit]; simp
    · rw [hlate]; simp
  · exact Or.inl (by simp [view, hothers d hd, Loop.start, Loop.init, hd])

/-- `newChannel` under an id that the registry does not have. -/
theorem newChannel_eq (cfg : LoopConfig) (hid : s.channels_ (s.next_id + 1) = none) :
    s.newChannel cfg =
      { s with
        chans := Function.update s.chans s.created
          (Channel.new cfg.malloc (s.next_id + 1) cfg.recv_buff_size_ cfg.send_buff_size_
            cfg.proto_mode_)
        created := s.created + 1
        next_id := s.next_id + 1
        channels_ := Function.update s.channels_ (s.next_id + 1) (some s.created) } := by
  simp [newChannel, registerChannel, channelPtr, Channel.new, hid]

/-- A channel enters the registry under a new id. -/
theorem Inv.made (h : Inv s) {id : UInt32} (hid : s.channels_ id = none)
    (hcreated : s'.created = s.created + 1)
    (hchannels : s'.channels_ = Function.update s.channels_ id (some s.created))
    (hnewId : (s'.chans s.created).id = id)
    (hids : ∀ d ≠ s.created, (s'.chans d).id = (s.chans d).id)
    (hothers : ∀ d ≠ s.created, s'.view d = s.view d) (hok : Ok (s'.view s.created))
    (htimer : (s'.view s.created).timer = .uninit) (hlog : (s'.view s.created).log = [])
    (hlate : s'.late = s.late) (hab : s'.uv.aborted = s.uv.aborted) (hknown : s'.uv.Known)
    (hm : ∀ d, s'.Mentions d → d ≤ s.created)
    (hearly : s'.late = true → ∀ c, s'.pc.announces c = false) : Inv s' where
  blank d hd := by
    rw [hcreated] at hd
    rw [hothers d (by omega)]
    exact h.blank d (by omega)
  ok d hd hg := by
    rw [hcreated] at hd
    by_cases hdc : d = s.created
    · rw [hdc]; exact hok
    · have hv := hothers d hdc
      rw [hv]
      refine h.ok d (by omega) ?_
      rcases hg with hg | hg
      · exact Or.inl fun hun => hg ((congrArg View.timer hv).trans hun)
      · exact Or.inr ⟨hab ▸ hg.1, hlate ▸ hg.2⟩
  done hl d ht := by
    by_cases hdc : d = s.created
    · rw [hdc] at ht; exact absurd htimer ht
    · rw [hothers d hdc] at ht ⊢
      exact h.done (hlate ▸ hl) d ht
  registered d hd he := by
    rw [hcreated] at hd
    show s'.channels_ (s'.chans d).id = some d
    rw [hchannels]
    by_cases hdc : d = s.created
    · rw [hdc, hnewId, Function.update_self]
    · rw [hothers d hdc] at he
      have hreg : s.channels_ (s.chans d).id = some d := h.registered d (by omega) he
      -- the new id is none of the registry's
      have hne : (s.chans d).id ≠ id := fun heq => by rw [heq, hid] at hreg; exact absurd hreg (by simp)
      rw [hids d hdc, Function.update_of_ne hne]
      exact hreg
  found i d hi := by
    rw [hchannels] at hi
    by_cases hii : i = id
    · rw [hii, Function.update_self] at hi
      obtain rfl := Option.some.inj hi
      exact ⟨hcreated ▸ Nat.lt_succ_self _, hnewId.trans hii.symm, by rw [hlog]; simp⟩
    · rw [Function.update_of_ne hii] at hi
      obtain ⟨hlt, hidd, hnot⟩ := h.found i d hi
      have hdc : d ≠ s.created := Nat.ne_of_lt hlt
      exact ⟨hcreated ▸ Nat.lt_succ_of_lt hlt, (hids d hdc).trans hidd,
        by rw [hothers d hdc]; exact hnot⟩
  gone d he := by
    by_cases hdc : d = s.created
    · rw [hdc, hlog] at he; simp at he
    · rw [hothers d hdc] at he ⊢
      exact h.gone d he
  known := hknown
  mentions d hd := by
    rw [hcreated]
    exact Nat.lt_succ_of_le (hm d hd)
  early := hearly

/-- A channel is made, with its first requests and the loop thread at `pc`. -/
theorem Inv.newChannel (h : Inv s) (cfg : LoopConfig) (hid : s.channels_ (s.next_id + 1) = none)
    (reqs : List LoopReq) (pc : LoopPc)
    (hk : reqs.count .connect + (pc.announces s.created).toNat ≤ 1)
    (hpc : ∀ d ≠ s.created, pc.announces d = s.pc.announces d)
    (hm : ∀ d, pc = .connectFailed d → d ≤ s.created)
    (hearly : s.late = true → ∀ d, pc.announces d = false) :
    Inv (({ s with uv := s.uv.init (.tcp s.created) }.newChannel cfg).withReqs s.created reqs pc) := by
  have hblank := h.blank s.created (Nat.le_refl _)
  rw [newChannel_eq (s := { s with uv := s.uv.init (.tcp s.created) }) cfg hid]
  -- a channel that was never made has no handle, no log and no task
  have hpending := hblank.pending
  have hlog := hblank.log
  have htimer := hblank.timer
  simp only [view] at hpending hlog htimer
  refine h.made hid rfl rfl ?_ ?_ ?_ ?_ htimer hlog rfl rfl (h.known.init _) ?_ hearly
  · simp [EventLoop.withReqs, Channel.new]
  · intro d hd
    simp [EventLoop.withReqs, hd]
  · intro d hd
    simp [view, EventLoop.withReqs, Loop.init, hd, hpc d hd]
  -- the new channel has its tcp handle and at most one connect
  · have hnew := Ok.new (n := reqs.length)
      (r := s.uv.started (.heartbeat_timer s.created)) hk
    simpa [view, EventLoop.withReqs, Loop.init, Channel.new, htimer, hlog, hpending] using hnew
  · intro d hd
    rcases hd with hd | hd | hd | hd
    · exact Nat.le_of_lt (h.mentions d (Or.inl hd))
    · exact Nat.le_of_lt (h.mentions d (Or.inr (Or.inl hd)))
    · exact hm d hd
    · exact Nat.le_of_lt (h.mentions d (Or.inr (Or.inr (Or.inr hd))))

/-! ## Closing -/

/-- Taking a task out of the queue. -/
theorem countP_eraseIdx {α : Type _} {p : α → Bool} {l : List α} {i : Nat} {a : α}
    (hi : l[i]? = some a) : (l.eraseIdx i).countP p + (p a).toNat = l.countP p := by
  obtain ⟨hlt, rfl⟩ := List.getElem?_eq_some_iff.mp hi
  have hperm := List.Perm.countP_eq p (List.getElem_cons_eraseIdx_perm hlt)
  rw [← hperm, List.countP_cons]
  cases p l[i] <;> rfl

/-- The two `uv_close` calls of `closeInLoop`. -/
def closeBoth (l : Loop LoopHandle LoopReq) (c : ChannelRef) : Loop LoopHandle LoopReq :=
  ((l.stop (.tcp c)).close (.tcp c)).close (.heartbeat_timer c)

section
variable {l : Loop LoopHandle LoopReq}

/-- `closeInLoop` closes the channel's two handles, -/
theorem closeBoth_handles {g : LoopHandle} (htcp : g ≠ .tcp c) (htimer : g ≠ .heartbeat_timer c) :
    (closeBoth l c).handles g = l.handles g := by
  rw [closeBoth, Loop.handles_close_of_ne htimer, Loop.handles_close_of_ne htcp, Loop.handles_stop]

/-- stops no other, -/
theorem closeBoth_started {g : LoopHandle} (htcp : g ≠ .tcp c) (htimer : g ≠ .heartbeat_timer c) :
    (closeBoth l c).started g = l.started g := by
  rw [closeBoth, started_close_of_ne htimer, started_close_of_ne htcp]
  exact Function.update_of_ne htcp _ _

/-- leaves the requests to their callbacks, -/
@[simp] theorem closeBoth_reqs : (closeBoth l c).reqs = l.reqs := by
  rw [closeBoth, Loop.reqs_close, Loop.reqs_close]
  rfl

/-- and keeps the loop's list right. -/
theorem closeBoth_known (hl : l.Known) : (closeBoth l c).Known :=
  Loop.Known.close (Loop.Known.close (l := l.stop (.tcp c)) hl _) _

/-- The timer is closed if there is one. -/
theorem closeBoth_timer : (closeBoth l c).handles (.heartbeat_timer c) =
    if l.handles (.heartbeat_timer c) = .opened then .closing
    else l.handles (.heartbeat_timer c) := by
  have hne : LoopHandle.heartbeat_timer c ≠ .tcp c := by simp
  have hsame : ((l.stop (.tcp c)).close (.tcp c)).handles (.heartbeat_timer c) =
      l.handles (.heartbeat_timer c) := Loop.handles_close_of_ne hne
  split
  · rename_i hopen
    exact Loop.handles_close_self (hsame.trans hopen)
  · rename_i hopen
    rw [closeBoth, Loop.close, if_neg (by rw [hsame]; exact hopen)]
    exact hsame

/-- The open tcp handle is closing. -/
theorem closeBoth_tcp (hopen : l.handles (.tcp c) = .opened) :
    (closeBoth l c).handles (.tcp c) = .closing := by
  rw [closeBoth, Loop.handles_close_of_ne (by simp), Loop.handles_close_self]
  exact hopen

/-- Both handles have to be open. -/
theorem closeBoth_aborted (hopen : l.handles (.tcp c) = .opened) :
    (closeBoth l c).aborted =
      if l.handles (.heartbeat_timer c) = .opened then l.aborted else true := by
  have hne : LoopHandle.heartbeat_timer c ≠ .tcp c := by simp
  have hsame : ((l.stop (.tcp c)).close (.tcp c)).handles (.heartbeat_timer c) =
      l.handles (.heartbeat_timer c) := Loop.handles_close_of_ne hne
  split
  · rename_i htimer
    rw [closeBoth, Loop.aborted_close (hsame.trans htimer), Loop.aborted_close]
    · rfl
    · exact hopen
  · rename_i htimer
    rw [closeBoth, Loop.close, if_neg (by rw [hsame]; exact htimer)]

end

/-- `s` after the two `uv_close` calls in the `i`-th task, with the channel's log. -/
def afterClose (s : EventLoop) (c : ChannelRef) (i : Nat) (log : List ChannelEvent) : EventLoop :=
  { s with
    waitTasks := s.waitTasks.eraseIdx i
    log := Function.update s.log c log
    uv := closeBoth s.uv c }

/-- `closeInLoop` of a registered channel whose handles are still open. -/
theorem closeInLoop_eq (s : EventLoop) (c : ChannelRef) (i : Nat) :
    { s with waitTasks := s.waitTasks.eraseIdx i }.closeInLoop c =
      if (closeBoth s.uv c).aborted then s.afterClose c i (s.log c ++ [ChannelEvent.closeInLoop])
      else s.afterClose c i (s.log c ++ [ChannelEvent.closeInLoop] ++ [ChannelEvent.onClosed]) := by
  unfold EventLoop.closeInLoop afterClose
  simp only [emit, Function.update_idem, Function.update_self]
  rfl

/-- `closeInLoop` runs for a channel it was queued for. -/
theorem Inv.closeInLoop (h : Inv s) (hna : s.uv.aborted = false) {i : Nat}
    (hi : s.waitTasks[i]? = some (.closeInLoop c)) :
    Inv ({ s with waitTasks := s.waitTasks.eraseIdx i }.closeInLoop c) := by
  have hc : c < s.created :=
    h.mentions c (Or.inl ⟨_, List.mem_of_getElem? hi, rfl⟩)
  have hcount : ∀ d, (s.waitTasks.eraseIdx i).countP (LoopTask.closes d) + (c == d).toNat =
      s.waitTasks.countP (LoopTask.closes d) := fun d => countP_eraseIdx hi
  have hself := hcount c
  rw [beq_self_eq_true, Bool.toNat_true] at hself
  have hpending : (s.view c).pending ≠ 0 := by
    simp only [view]
    omega
  have hm : ∀ log d, (s.afterClose c i log).Mentions d → d < s.created := by
    intro log d hd
    rcases hd with ⟨t, ht, htarget⟩ | hd
    · exact h.mentions d (Or.inl ⟨t, List.mem_of_mem_eraseIdx ht, htarget⟩)
    · exact h.mentions d (Or.inr hd)
  have hothers : ∀ log d, d ≠ c → (s.afterClose c i log).view d = s.view d := by
    intro log d hd
    have hcd := hcount d
    rw [beq_eq_false_iff_ne.mpr (Ne.symm hd), Bool.toNat_false, Nat.add_zero] at hcd
    simp [view, afterClose, hcd, closeBoth_handles, closeBoth_started, hd]
  rw [closeInLoop_eq]
  by_cases htimer : (s.view c).timer = .opened
  · have hinit : (s.view c).timer ≠ .uninit := by rw [htimer]; simp
    have hok := h.ok c hc (Or.inl hinit)
    obtain ⟨-, -, -, htcp, -⟩ := hok.opened_of_pending hpending
    have hopen : s.uv.handles (.heartbeat_timer c) = .opened := htimer
    rw [closeBoth_aborted htcp, if_pos hopen, hna]
    simp only [Bool.false_eq_true, if_false]
    refine h.of_views (fun d => ?_) rfl rfl (fun _ => rfl) rfl (fun _ => hna)
      (closeBoth_known h.known) (hm _) h.early
    by_cases hd : d = c
    · subst hd
      have hv : (s.afterClose d i
          (s.log d ++ [ChannelEvent.closeInLoop] ++ [ChannelEvent.onClosed])).view d =
          { s.view d with
            pending := (s.view d).pending - 1, tcp := .closing, timer := .closing
            timerRuns := (closeBoth s.uv d).started (.heartbeat_timer d)
            log := (s.view d).log ++ [ChannelEvent.closeInLoop] ++ [ChannelEvent.onClosed] } := by
        have hclosing := closeBoth_timer (l := s.uv) (c := d)
        rw [if_pos hopen] at hclosing
        simp [view, afterClose, closeBoth_tcp htcp, hclosing]
        omega
      refine Or.inr ⟨hc, fun _ => ?_, ?_, ?_, ?_⟩
      · rw [hv]; exact hok.closeInLoop hpending htimer _
      · rw [hv]; simp
      · rw [htimer]; simp
      · -- the timer was open, so `uv_run` has not returned
        intro hl
        have := (h.done hl d hinit).2
        rw [htimer] at this
        simp at this
    · exact Or.inl (hothers _ d hd)
  · -- without a timer `uv_close` aborts
    have huninit : (s.view c).timer = .uninit := by
      by_contra hinit
      have hok := h.ok c hc (Or.inl hinit)
      exact (hok.opened_of_pending hpending).2.2.2.2.elim htimer hinit
    have hab : (closeBoth s.uv c).aborted = true := by
      have hne : LoopHandle.heartbeat_timer c ≠ .tcp c := by simp
      rw [closeBoth, Loop.close, if_neg]
      rw [Loop.handles_close_of_ne hne]
      exact htimer
    have htimer' :
        ((s.afterClose c i (s.log c ++ [ChannelEvent.closeInLoop])).view c).timer = .uninit := by
      have hsame := closeBoth_timer (l := s.uv) (c := c)
      rw [if_neg (show s.uv.handles (.heartbeat_timer c) ≠ .opened from htimer)] at hsame
      exact hsame.trans huninit
    rw [hab]
    simp only [if_true]
    refine h.of_views (fun d => ?_) rfl rfl (fun _ => rfl) rfl (fun _ => hna)
      (closeBoth_known h.known) (hm _) h.early
    by_cases hd : d = c
    · subst hd
      refine Or.inr ⟨hc, fun hg => ?_, ?_, ?_, fun _ => Or.inl htimer'⟩
      · rcases hg with hg | ⟨hg, -⟩
        · exact absurd htimer' hg
        · rw [show (s.afterClose d i _).uv.aborted = _ from hab] at hg
          exact absurd hg (by decide)
      · simp [view, afterClose]
      · rw [huninit]; simp
    · exact Or.inl (hothers _ d hd)

/-- A thread gets through `close()`. -/
theorem Inv.enqueueClose (h : Inv s) {i : Nat} (hi : s.closers[i]? = some c) :
    Inv ({ s with closers := s.closers.eraseIdx i }.enqueueClose c) := by
  have hcount : ∀ d, (s.closers.eraseIdx i).count d + (c == d).toNat = s.closers.count d :=
    fun d => countP_eraseIdx hi
  have hself := hcount c
  rw [beq_self_eq_true, Bool.toNat_true] at hself
  have hc : c < s.created := h.mentions c (Or.inr (Or.inl (List.mem_of_getElem? hi)))
  have hpending : (s.view c).pending ≠ 0 := by
    simp only [view]
    omega
  have hfound := h.channelPtr_eq hc (Or.inr hpending)
  have hfound' : ({ s with closers := s.closers.eraseIdx i } : EventLoop).channelPtr c = some c :=
    hfound
  unfold EventLoop.enqueueClose
  rw [hfound']
  refine h.of_views (fun d => Or.inl ?_) rfl rfl (fun _ => rfl) rfl (fun ha => ha) h.known ?_ h.early
  · -- the thread's place is taken by its task
    have hcd := hcount d
    have hpend : (s.closers.eraseIdx i).count d +
        (s.waitTasks.countP (LoopTask.closes d) + (c == d).toNat) =
          s.closers.count d + s.waitTasks.countP (LoopTask.closes d) := by omega
    simp only [view, executeOnEventLoop, List.countP_append, List.countP_singleton]
    rw [← hpend]
    cases hcd : c == d <;> simp [LoopTask.closes, hcd]
  · intro d hd
    rcases hd with ⟨t, ht, htarget⟩ | hd | hd
    · rcases List.mem_append.mp ht with ht | ht
      · exact h.mentions d (Or.inl ⟨t, ht, htarget⟩)
      · rw [List.mem_singleton.mp ht] at htarget
        rw [← Option.some.inj htarget]
        exact hc
    · exact h.mentions d (Or.inr (Or.inl (List.mem_of_mem_eraseIdx hd)))
    · exact h.mentions d (Or.inr (Or.inr hd))

/-! ## The close callbacks -/

/-- A channel leaves the registry. -/
theorem Inv.released (h : Inv s) (hc : c < s.created) (hnot : .erase ∉ (s.view c).log)
    (hcreated : s'.created = s.created)
    (hchannels : s'.channels_ = Function.update s.channels_ (s.chans c).id none)
    (hids : ∀ d, (s'.chans d).id = (s.chans d).id) (hothers : ∀ d ≠ c, s'.view d = s.view d)
    (hok : Ok (s'.view c)) (htimer : (s'.view c).timer = .closed)
    (herase : .erase ∈ (s'.view c).log) (hearly : s.late = false) (hlate : s'.late = s.late)
    (hab : s'.uv.aborted = s.uv.aborted) (hknown : s'.uv.Known)
    (hm : ∀ d, s'.Mentions d → d < s.created) : Inv s' := by
  have hfound : s.channels_ (s.chans c).id = some c := h.registered c hc hnot
  have hlate' : s'.late = false := hlate.trans hearly
  constructor
  · intro d hd
    rw [hcreated] at hd
    have hdc : d ≠ c := by intro heq; rw [heq] at hd; exact absurd hc (Nat.not_lt.mpr hd)
    rw [hothers d hdc]
    exact h.blank d hd
  · intro d hd hg
    rw [hcreated] at hd
    by_cases hdc : d = c
    · rw [hdc]; exact hok
    · have hv := hothers d hdc
      rw [hv]
      refine h.ok d hd ?_
      rcases hg with hg | hg
      · exact Or.inl fun hun => hg ((congrArg View.timer hv).trans hun)
      · exact Or.inr ⟨hab ▸ hg.1, hearly⟩
  · intro hl
    rw [hlate'] at hl
    exact absurd hl (by decide)
  · intro d hd he
    rw [hcreated] at hd
    have hdc : d ≠ c := by intro heq; rw [heq] at he; exact he herase
    rw [hothers d hdc] at he
    have hreg : s.channels_ (s.chans d).id = some d := h.registered d hd he
    show s'.channels_ (s'.chans d).id = some d
    -- another channel is under another id
    have hne : (s.chans d).id ≠ (s.chans c).id := by
      intro heq
      rw [heq, hfound] at hreg
      exact hdc (Option.some.inj hreg).symm
    rw [hchannels, hids, Function.update_of_ne hne]
    exact hreg
  · intro i d hi
    rw [hchannels] at hi
    by_cases hii : i = (s.chans c).id
    · rw [hii, Function.update_self] at hi
      exact absurd hi (by simp)
    · rw [Function.update_of_ne hii] at hi
      obtain ⟨hlt, hid, hnoterase⟩ := h.found i d hi
      have hdc : d ≠ c := by intro heq; rw [heq] at hid; exact hii hid.symm
      exact ⟨hcreated ▸ hlt, (hids d).trans hid, by rw [hothers d hdc]; exact hnoterase⟩
  · intro d he
    by_cases hdc : d = c
    · rw [hdc]; exact htimer
    · rw [hothers d hdc] at he ⊢
      exact h.gone d he
  · exact hknown
  · intro d hd
    rw [hcreated]
    exact hm d hd
  · intro hl
    rw [hlate'] at hl
    exact absurd hl (by decide)

/-- `s` after the close callback of the handle `g` of `c`, before the registry. -/
def afterFinish (s : EventLoop) (c : ChannelRef) (g : LoopHandle) (ch : Channel)
    (log : List ChannelEvent) : EventLoop :=
  { s with
    uv := s.uv.finish g
    chans := Function.update s.chans c ch
    log := Function.update s.log c log }

/-- The end of a channel's close callback: the second one releases the channel. -/
def afterHandleClosed (s : EventLoop) (c : ChannelRef) (g : LoopHandle) (ch : Channel)
    (log : List ChannelEvent) : EventLoop :=
  if ch.tcp_closed_ && ch.timer_closed_ then
    { s.afterFinish c g ch (log ++ [ChannelEvent.erase]) with
      channels_ := Function.update s.channels_ (s.chans c).id none }
  else s.afterFinish c g ch log

/-- The end of a handle does not change the id of its channel, -/
theorem setHandleClosed_id (ch : Channel) (isClient : Bool) :
    (setHandleClosed ch isClient).id = ch.id := by cases isClient <;> rfl

/-- nor does it close the channel. -/
theorem setHandleClosed_closed (ch : Channel) (isClient : Bool) :
    (setHandleClosed ch isClient).closed_ = ch.closed_ := by cases isClient <;> rfl

/-- The close callback of a registered channel. -/
theorem onHandleClosed_eq (hfound : s.channelPtr c = some c) (g : LoopHandle)
    (cb : ChannelCallback) (isClient : Bool) :
    ({ s with uv := s.uv.finish g }.emit c (.callback cb)).onHandleClosed c isClient =
      s.afterHandleClosed c g (setHandleClosed (s.chans c) isClient)
        (s.log c ++ [ChannelEvent.callback cb]) := by
  have hfound' : s.channels_ (s.chans c).id = some c := hfound
  have hid := setHandleClosed_id (s.chans c) isClient
  have hunfold :
      ({ s with uv := s.uv.finish g }.emit c (.callback cb)).onHandleClosed c isClient =
        if (setHandleClosed (s.chans c) isClient).tcp_closed_ &&
            (setHandleClosed (s.chans c) isClient).timer_closed_ then
          (s.afterFinish c g (setHandleClosed (s.chans c) isClient)
            (s.log c ++ [ChannelEvent.callback cb])).releaseChannel c
        else
          s.afterFinish c g (setHandleClosed (s.chans c) isClient)
            (s.log c ++ [ChannelEvent.callback cb]) := rfl
  rw [hunfold]
  unfold afterHandleClosed
  generalize setHandleClosed (s.chans c) isClient = ch at hid ⊢
  split
  · -- with both handles closed the channel is found under its id and released
    unfold releaseChannel channelPtr
    simp only [afterFinish, Function.update_self, hid, hfound', emit, Function.update_idem]
  · rfl

/-- A close callback of a channel of the registry. -/
theorem Inv.handleDone (h : Inv s) (hna : s.uv.aborted = false) (hearly : s.late = false)
    (hc : c < s.created) (hnot : .erase ∉ (s.view c).log) {g : LoopHandle} {ch : Channel}
    {cb : ChannelCallback} (hg : g = .tcp c ∨ g = .heartbeat_timer c)
    (hclosing : s.uv.handles g = .closing) (hid : ch.id = (s.chans c).id)
    (hclosed : ch.closed_ = (s.chans c).closed_)
    (hok : Ok { s.view c with
      tcpDone := ch.tcp_closed_, timerDone := ch.timer_closed_
      tcp := (s.uv.finish g).handles (.tcp c)
      timer := (s.uv.finish g).handles (.heartbeat_timer c)
      log := (s.view c).log ++ [ChannelEvent.callback cb] ++
        if ch.tcp_closed_ && ch.timer_closed_ then [ChannelEvent.erase] else [] }) :
    Inv (s.afterHandleClosed c g ch (s.log c ++ [ChannelEvent.callback cb])) := by
  have hknown : (s.uv.finish g).Known := h.known.finish (by simp [hclosing])
  -- the flags of one channel change, its number does not
  have hids : ∀ d, (Function.update s.chans c ch d).id = (s.chans d).id := by
    intro d
    by_cases hd : d = c
    · rw [hd, Function.update_self]; exact hid
    · rw [Function.update_of_ne hd]
  -- any other channel looks the same
  have hothers : ∀ log d, d ≠ c → (s.afterFinish c g ch log).view d = s.view d := by
    intro log d hd
    have hgd : LoopHandle.tcp d ≠ g ∧ LoopHandle.heartbeat_timer d ≠ g := by
      rcases hg with rfl | rfl <;> simp [hd]
    simp [view, afterFinish, Loop.finish, Function.update_of_ne hgd.1,
      Function.update_of_ne hgd.2, hd]
  have hself : ∀ log, (s.afterFinish c g ch log).view c =
      { s.view c with
        tcpDone := ch.tcp_closed_, timerDone := ch.timer_closed_
        tcp := (s.uv.finish g).handles (.tcp c)
        timer := (s.uv.finish g).handles (.heartbeat_timer c)
        log := log } := by
    intro log
    simp [view, afterFinish, hclosed, Loop.finish]
  unfold afterHandleClosed
  split
  -- the second close callback releases the channel
  · rename_i hdone
    rw [if_pos hdone] at hok
    rw [Bool.and_eq_true] at hdone
    refine h.released hc hnot rfl rfl hids (hothers _) ?_ ?_ ?_ hearly rfl rfl hknown h.mentions
    · exact (hself _) ▸ hok
    · exact hok.timerDone.mp hdone.2
    · show ChannelEvent.erase ∈ Function.update s.log c _ c
      rw [Function.update_self]
      simp
  -- the first one only notes that it ran
  · rename_i hdone
    rw [if_neg hdone, List.append_nil] at hok
    refine h.of_views (fun d => ?_) rfl rfl hids rfl (fun _ => hna) hknown h.mentions h.early
    by_cases hd : d = c
    · subst hd
      refine Or.inr ⟨hc, fun _ => ?_, ?_, ?_, ?_⟩
      · rw [hself]; exact hok
      · rw [hself]
        show _ ∈ s.log d ++ [_] ↔ _ ∈ s.log d
        simp
      -- the timer is closed here, or it was not touched
      · rw [hself]
        intro hx
        show (s.uv.finish g).handles _ = _
        rw [Loop.handles_finish]
        split
        · rfl
        · exact hx
      · rw [hearly]; simp
    · exact Or.inl (hothers _ d hd)

/-- The close callback of a handle of no channel. -/
theorem closeCallback_other {g : LoopHandle} (hg : g.isChannel = false) (hwalked : s.phase ≠ .walked) :
    s.closeCallback g = { s with uv := s.uv.finish g } := by
  have hphase : ({ s with uv := s.uv.finish g } : EventLoop).phase ≠ .walked := hwalked
  unfold EventLoop.closeCallback
  simp only
  rw [if_neg hwalked]
  cases g with
  | tcp c => simp [LoopHandle.isChannel] at hg
  | heartbeat_timer c => simp [LoopHandle.isChannel] at hg
  | _ => rfl

/-- A close callback, while callbacks run or after the walk. -/
theorem Inv.closeCallback (h : Inv s) (hna : s.uv.aborted = false) {g : LoopHandle}
    (hclosing : s.uv.handles g = .closing) (hreqs : s.uv.reqs g = [])
    (hphase : s.late = false ∨ s.phase = .walked) : Inv (s.closeCallback g) := by
  have hknown : (s.uv.finish g).Known := h.known.finish (by simp [hclosing])
  have hgc : ∀ c, g = .tcp c ∨ g = .heartbeat_timer c → c < s.created := by
    intro c hg
    by_contra hge
    have hblank := h.blank c (Nat.not_lt.mp hge)
    have htcp : s.uv.handles (.tcp c) = .uninit := hblank.tcp
    have htimer : s.uv.handles (.heartbeat_timer c) = .uninit := hblank.timer
    rcases hg with rfl | rfl
    · rw [htcp] at hclosing; simp at hclosing
    · rw [htimer] at hclosing; simp at hclosing
  by_cases hwalked : s.phase = .walked
  · -- only a channel without a timer can have been closed by the walk
    have hlate : s.late = true := by simp [late, hwalked]
    have heq : s.closeCallback g = { s with uv := s.uv.finish g } := if_pos hwalked
    rw [heq]
    refine h.of_views (fun d => ?_) rfl rfl (fun _ => rfl) rfl (fun _ => hna) hknown h.mentions
      h.early
    by_cases hgd : g = .tcp d ∨ g = .heartbeat_timer d
    · have htimer : (s.view d).timer = .uninit := by
        by_contra hne
        obtain ⟨htcp, htimer⟩ := h.done hlate d hne
        have htcp' : s.uv.handles (.tcp d) = .closed := htcp
        have htimer' : s.uv.handles (.heartbeat_timer d) = .closed := htimer
        rcases hgd with rfl | rfl
        · rw [htcp'] at hclosing; simp at hclosing
        · rw [htimer'] at hclosing; simp at hclosing
      have hg : g = .tcp d := by
        rcases hgd with hg | rfl
        · exact hg
        · rw [show s.uv.handles _ = _ from htimer] at hclosing; simp at hclosing
      have htimer' : (({ s with uv := s.uv.finish g } : EventLoop).view d).timer = .uninit := by
        show (s.uv.finish g).handles _ = _
        rw [Loop.handles_finish, if_neg (by rw [hg]; simp)]
        exact htimer
      refine Or.inr ⟨hgc d (Or.inl hg), fun hguard => ?_, Iff.rfl, ?_, fun _ => Or.inl htimer'⟩
      · rcases hguard with hguard | ⟨-, hguard⟩
        · exact absurd htimer' hguard
        · have hnotlate : s.late = false := hguard
          rw [hlate] at hnotlate
          exact absurd hnotlate (by decide)
      · rw [htimer]; simp
    · rw [not_or] at hgd
      refine Or.inl ?_
      simp [view, Loop.finish, Function.update_of_ne (Ne.symm hgd.1),
        Function.update_of_ne (Ne.symm hgd.2)]
  · have hlate : s.late = false := hphase.resolve_right hwalked
    have hok : ∀ c, g = .tcp c ∨ g = .heartbeat_timer c → Ok (s.view c) :=
      fun c hg => h.ok c (hgc c hg) (Or.inr ⟨hna, hlate⟩)
    have hsame : g.isChannel = false → Inv { s with uv := s.uv.finish g } :=
      fun hg => h.of_frame (frame_finish hg hclosing) rfl rfl
    cases g with
    | tcp c =>
      have hokc := hok c (Or.inl rfl)
      have hc := hgc c (Or.inl rfl)
      have hnot := hokc.not_erased (Or.inl (by
        rw [show (s.view c).tcp = _ from hclosing]; simp))
      have hnew := hokc.tcpClosed hclosing (by simp [view, hreqs])
      have heq : s.closeCallback (.tcp c) = EventLoop.onHandleClosed
          ({ s with uv := s.uv.finish (.tcp c) }.emit c (.callback .onTcpClosed)) c true :=
        if_neg hwalked
      rw [heq, onHandleClosed_eq (h.registered c hc hnot)]
      refine h.handleDone hna hlate hc hnot (Or.inl rfl) hclosing rfl rfl ?_
      cases hdone : (s.chans c).timer_closed_ <;>
        simpa [Loop.finish, setHandleClosed, view, hdone] using hnew
    | heartbeat_timer c =>
      have hokc := hok c (Or.inr rfl)
      have hc := hgc c (Or.inr rfl)
      have hnot := hokc.not_erased (Or.inr (by
        rw [show (s.view c).timer = _ from hclosing]; simp))
      have hnew := hokc.timerClosed hclosing
      have heq : s.closeCallback (.heartbeat_timer c) = EventLoop.onHandleClosed
          ({ s with uv := s.uv.finish (.heartbeat_timer c) }.emit c (.callback .onTimerClosed)) c
            false := if_neg hwalked
      rw [heq, onHandleClosed_eq (h.registered c hc hnot)]
      refine h.handleDone hna hlate hc hnot (Or.inr rfl) hclosing rfl rfl ?_
      cases hdone : (s.chans c).tcp_closed_ <;>
        simpa [Loop.finish, setHandleClosed, view, hdone] using hnew
    | _ =>
      rw [closeCallback_other (by rfl) hwalked]
      exact hsame rfl

/-! ## The end of `uv_run` -/

/-- A channel with a timer is closed when `uv_run` returns. -/
theorem Inv.closed_of_not_alive (h : Inv s) (hna : s.uv.aborted = false) (hlate : s.late = false)
    (halive : s.uv.alive = false) (hinit : (s.view c).timer ≠ .uninit) :
    (s.view c).tcp = .closed ∧ (s.view c).timer = .closed := by
  have hc : c < s.created := by
    by_contra hge
    exact hinit (h.blank c (Nat.not_lt.mp hge)).timer
  have hok := h.ok c hc (Or.inr ⟨hna, hlate⟩)
  obtain ⟨htimer, hstopped⟩ := h.known.of_not_alive (h := .heartbeat_timer c) halive
  obtain ⟨htcp, -⟩ := h.known.of_not_alive (h := .tcp c) halive
  -- an open timer runs and would have kept the loop going
  have hnotopen : (s.view c).timer ≠ .opened := by
    intro hopen
    have hruns := hok.timerRuns hopen
    rw [show (s.view c).timerRuns = _ from (hstopped hopen).1] at hruns
    exact absurd hruns (by decide)
  -- so `onClosed` has run, which closes both handles
  have hran : (s.view c).log.count .onClosed ≠ 0 := by
    intro hzero
    exact (hok.before hzero).2.elim hnotopen hinit
  obtain ⟨htcp', htimer'⟩ := hok.after hran
  exact ⟨htcp'.resolve_left htcp, htimer'.resolve_left htimer⟩

/-- `uv_run` returns and the walk closes the rest. -/
theorem Inv.uvRunReturns (h : Inv s) (hna : s.uv.aborted = false) (hphase : s.phase = .stopped)
    (hpc : s.pc = .ready) (halive : s.uv.alive = false) :
    Inv { s with uv := s.uv.walkClose, phase := .walked } := by
  have hlate : s.late = false := by simp [late, hphase]
  have hclosed : ∀ c, (s.view c).timer ≠ .uninit →
      (s.view c).tcp = .closed ∧ (s.view c).timer = .closed := fun c hc =>
    h.closed_of_not_alive hna hlate halive hc
  have htimer : ∀ c, (s.view c).timer = .uninit ∨ (s.view c).timer = .closed := by
    intro c
    by_cases hc : (s.view c).timer = .uninit
    · exact Or.inl hc
    · exact Or.inr (hclosed c hc).2
  -- the walk does not touch the timers, nor the tcp handles of channels with one
  have hwalkTimer : ∀ c, s.uv.walkClose.handles (.heartbeat_timer c) = (s.view c).timer := by
    intro c
    refine Loop.walkClose_handles ?_
    rcases htimer c with hc | hc <;> rw [show s.uv.handles _ = _ from hc] <;> simp
  have hwalkTcp : ∀ c, (s.view c).tcp ≠ .opened →
      s.uv.walkClose.handles (.tcp c) = (s.view c).tcp := fun c hc =>
    Loop.walkClose_handles hc
  constructor
  · intro c hc
    have hblank := h.blank c hc
    have htcp := hwalkTcp c (by rw [hblank.tcp]; simp)
    refine ⟨htcp.trans hblank.tcp, (hwalkTimer c).trans hblank.timer, ?_, ?_, hblank.pending,
      hblank.log⟩
    · simpa [view, Loop.walkClose_reqs] using hblank.reqs
    · simpa [view, Loop.walkClose_reqs] using hblank.connects
  · intro c hc hg
    have hinit : (s.view c).timer ≠ .uninit := by
      rcases hg with hg | ⟨-, hg⟩
      · rw [← hwalkTimer c]; exact hg
      · simp [late] at hg
    obtain ⟨htcp, htimer'⟩ := hclosed c hinit
    have hv : ({ s with uv := s.uv.walkClose, phase := .walked } : EventLoop).view c =
        { s.view c with timerRuns := s.uv.walkClose.started (.heartbeat_timer c) } := by
      have htcp' := hwalkTcp c (by rw [htcp]; simp)
      have htimer'' := hwalkTimer c
      simp only [view] at htcp' htimer''
      simp [view, Loop.walkClose_reqs, htcp', htimer'']
    have hruns : (s.view c).timer = .opened →
        s.uv.walkClose.started (.heartbeat_timer c) = true := by
      intro hopen
      rw [htimer'] at hopen
      simp at hopen
    rw [hv]
    exact { h.ok c hc (Or.inr ⟨hna, hlate⟩) with timerRuns := hruns }
  · intro _ c hinit
    have hinit' : (s.view c).timer ≠ .uninit := fun hun => hinit ((hwalkTimer c).trans hun)
    obtain ⟨htcp, htimer'⟩ := hclosed c hinit'
    exact ⟨(hwalkTcp c (by rw [htcp]; simp)).trans htcp, (hwalkTimer c).trans htimer'⟩
  · exact h.registered
  · exact h.found
  · intro c he
    exact (hwalkTimer c).trans (h.gone c he)
  · exact h.known.walkClose
  · intro c hc
    refine h.mentions c ?_
    rcases hc with hc | hc | hc | ⟨rest, hrest, -⟩
    · exact Or.inl hc
    · exact Or.inr (Or.inl hc)
    · exact Or.inr (Or.inr (Or.inl hc))
    · simp at hrest
  · intro _ c
    simp [hpc]

end EventLoop

end Athena
