import Athena.Native.EventLoop

/-!
# The life of one channel

What a reactor does to one channel, seen without the others: `View` is the channel's
flags, its two handles, the requests and close tasks that still hold it, and its log.
`View.Ok` is the invariant of that life, and each lemma below is one event of it.

## Key results

- `Ok.close`, `Ok.closeInLoop`, `Ok.startTimer`, `Ok.callback`, `Ok.tcpClosed`,
  `Ok.timerClosed`: every event keeps the invariant
- `Ok.not_erased`: a channel with a handle that is not closed is still in the registry
-/

namespace Athena

open Uv

namespace ChannelLife

/-- The log of a channel that is erased after both close callbacks, and not called
    back after that. -/
def Ordered (log : List ChannelEvent) : Prop :=
  ∀ pre post, log = pre ++ .erase :: post →
    .callback .onTcpClosed ∈ pre ∧ .callback .onTimerClosed ∈ pre ∧
      ∀ cb, .callback cb ∉ post

/-- One event more, in its place. -/
theorem Ordered.append {log : List ChannelEvent} {e : ChannelEvent} (h : Ordered log)
    (hcb : ∀ cb, e = .callback cb → .erase ∉ log)
    (herase : e = .erase → .callback .onTcpClosed ∈ log ∧ .callback .onTimerClosed ∈ log) :
    Ordered (log ++ [e]) := by
  intro pre post heq
  -- the erase is the last event, or it is an earlier one
  rcases List.eq_nil_or_concat post with rfl | ⟨post', d, rfl⟩
  · obtain ⟨rfl, hlast⟩ := List.append_inj' heq rfl
    have he : e = .erase := List.singleton_inj.mp hlast
    exact ⟨(herase he).1, (herase he).2, fun cb => List.not_mem_nil⟩
  · rw [List.concat_eq_append, ← List.cons_append, ← List.append_assoc] at heq
    obtain ⟨hlog, hlast⟩ := List.append_inj' heq rfl
    obtain ⟨htcp, htimer, hpost⟩ := h pre post' hlog
    refine ⟨htcp, htimer, ?_⟩
    intro cb hmem
    rw [List.concat_eq_append, List.mem_append, List.mem_singleton] at hmem
    rcases hmem with hmem | rfl
    · exact hpost cb hmem
    · refine hcb cb (List.singleton_inj.mp hlast) ?_
      rw [hlog]
      exact List.mem_append_right _ List.mem_cons_self

/-- A channel as its reactor sees it. -/
structure View where
  closed : Bool
  tcpDone : Bool
  timerDone : Bool
  tcp : HandleState
  timer : HandleState
  timerRuns : Bool
  /-- requests under way on the tcp handle -/
  reqs : Nat
  /-- connects under way, and `onNewConnection` before its timer -/
  connects : Nat
  /-- threads inside `close()`, and queued `closeInLoop` tasks -/
  pending : Nat
  log : List ChannelEvent

/-- The invariant of a channel's life. -/
structure Ok (v : View) : Prop where
  /-- a `close()` that took effect is under way, queued, or done -/
  scheduled : v.pending + v.log.count .onClosed = if v.closed then 1 else 0
  delivered : v.log.count .closeInLoop = v.log.count .onClosed
  before : v.log.count .onClosed = 0 →
    v.tcp = .opened ∧ (v.timer = .opened ∨ v.timer = .uninit)
  after : v.log.count .onClosed ≠ 0 →
    (v.tcp = .closing ∨ v.tcp = .closed) ∧ (v.timer = .closing ∨ v.timer = .closed)
  tcpDone : v.tcpDone = true ↔ v.tcp = .closed
  timerDone : v.timerDone = true ↔ v.timer = .closed
  tcpCalled : v.tcp = .closed ↔ .callback .onTcpClosed ∈ v.log
  timerCalled : v.timer = .closed ↔ .callback .onTimerClosed ∈ v.log
  timerRuns : v.timer = .opened → v.timerRuns = true
  noReqs : v.tcp = .closed → v.reqs = 0
  /-- the timer is initialised at most once -/
  oneTimer : v.connects + (if v.timer = .uninit then 0 else 1) ≤ 1
  erased : v.log.count .erase = if v.tcpDone && v.timerDone then 1 else 0
  ordered : Ordered v.log

variable {v : View}

/-- A new channel, with or without a connect under way. -/
theorem Ok.new {n k : Nat} {r : Bool} (hc : k ≤ 1) :
    Ok { closed := false, tcpDone := false, timerDone := false, tcp := .opened, timer := .uninit
         timerRuns := r, reqs := n, connects := k, pending := 0, log := [] } where
  scheduled := rfl
  delivered := rfl
  before _ := ⟨rfl, Or.inr rfl⟩
  after h := absurd rfl h
  tcpDone := by simp
  timerDone := by simp
  tcpCalled := by simp
  timerCalled := by simp
  timerRuns h := by simp at h
  noReqs h := by simp at h
  oneTimer := by simpa using hc
  erased := rfl
  ordered pre post h := by simp at h

/-- Nothing has been erased while a handle is not closed. -/
theorem Ok.not_erased (h : Ok v) (hopen : v.tcp ≠ .closed ∨ v.timer ≠ .closed) :
    .erase ∉ v.log := by
  have hdone : (v.tcpDone && v.timerDone) = false := by
    rw [Bool.and_eq_false_iff, ← Bool.not_eq_true, ← Bool.not_eq_true, h.tcpDone, h.timerDone]
    exact hopen
  rw [← List.count_eq_zero, h.erased, hdone]
  rfl

/-- A channel that is not closed has its tcp handle open. -/
theorem Ok.opened (h : Ok v) (hc : v.closed = false) :
    v.pending = 0 ∧ v.tcp = .opened ∧ (v.timer = .opened ∨ v.timer = .uninit) := by
  have hs := h.scheduled
  rw [hc] at hs
  simp only [Bool.false_eq_true, if_false] at hs
  exact ⟨by omega, h.before (by omega)⟩

/-- A channel whose `closeInLoop` is to come has its tcp handle open. -/
theorem Ok.opened_of_pending (h : Ok v) (hp : v.pending ≠ 0) :
    v.pending = 1 ∧ v.closed = true ∧ v.log.count .onClosed = 0 ∧
      v.tcp = .opened ∧ (v.timer = .opened ∨ v.timer = .uninit) := by
  have hs := h.scheduled
  split at hs
  · rename_i hc
    have hzero : v.log.count .onClosed = 0 := by omega
    exact ⟨by omega, hc, hzero, h.before hzero⟩
  · omega

/-- `closed_` becomes set. -/
theorem Ok.close (h : Ok v) (hc : v.closed = false) :
    Ok { v with closed := true, pending := v.pending + 1 } where
  scheduled := by
    have hs := h.scheduled
    rw [hc] at hs
    simp only [Bool.false_eq_true, if_false] at hs
    simp only [if_true]
    omega
  delivered := h.delivered
  before := h.before
  after := h.after
  tcpDone := h.tcpDone
  timerDone := h.timerDone
  tcpCalled := h.tcpCalled
  timerCalled := h.timerCalled
  timerRuns := h.timerRuns
  noReqs := h.noReqs
  oneTimer := h.oneTimer
  erased := h.erased
  ordered := h.ordered

/-- `closeInLoop` of a channel with a timer. -/
theorem Ok.closeInLoop (h : Ok v) (hp : v.pending ≠ 0) (htimer : v.timer = .opened) (runs : Bool) :
    Ok { v with
      pending := v.pending - 1, tcp := .closing, timer := .closing, timerRuns := runs
      log := v.log ++ [ChannelEvent.closeInLoop] ++ [ChannelEvent.onClosed] } where
  scheduled := by
    obtain ⟨hone, hclosed, hzero, -⟩ := h.opened_of_pending hp
    simp [hone, hclosed, hzero]
  delivered := by simp [h.delivered]
  before hzero := by simp at hzero
  after _ := ⟨Or.inl rfl, Or.inl rfl⟩
  tcpDone := by
    obtain ⟨-, -, -, htcp, -⟩ := h.opened_of_pending hp
    simp [h.tcpDone, htcp]
  timerDone := by simp [h.timerDone, htimer]
  tcpCalled := by
    obtain ⟨-, -, -, htcp, -⟩ := h.opened_of_pending hp
    simp [← h.tcpCalled, htcp]
  timerCalled := by simp [← h.timerCalled, htimer]
  timerRuns hopen := by simp at hopen
  noReqs hclosed := by simp at hclosed
  oneTimer := by
    have := h.oneTimer
    simpa [htimer] using this
  erased := by simp [h.erased]
  ordered := (h.ordered.append (by simp) (by simp)).append (by simp) (by simp)

/-- The heartbeat timer is initialised and started. -/
theorem Ok.startTimer (h : Ok v) (hc : v.connects ≠ 0) :
    Ok { v with connects := v.connects - 1, timer := .opened, timerRuns := true } := by
  have hone := h.oneTimer
  have huninit : v.timer = .uninit := by
    by_contra hne
    rw [if_neg hne] at hone
    omega
  -- so `closeInLoop` has not run
  have hzero : v.log.count .onClosed = 0 := by
    by_contra hne
    have := (h.after hne).2
    rw [huninit] at this
    simp at this
  exact
    { scheduled := h.scheduled
      delivered := h.delivered
      before := fun _ => ⟨(h.before hzero).1, Or.inl rfl⟩
      after := fun hne => absurd hzero hne
      tcpDone := h.tcpDone
      timerDone := by simp [h.timerDone, huninit]
      tcpCalled := h.tcpCalled
      timerCalled := by simp [← h.timerCalled, huninit]
      timerRuns := fun _ => rfl
      noReqs := h.noReqs
      oneTimer := by
        rw [huninit] at hone
        simp only [if_true] at hone
        simp only [reduceCtorEq, if_false]
        omega
      erased := h.erased
      ordered := h.ordered }

/-- `onNewConnection` ends without a timer. -/
theorem Ok.noTimer (h : Ok v) : Ok { v with connects := v.connects - 1 } :=
  { h with oneTimer := by have := h.oneTimer; simp only; omega }

/-- A callback comes while the channel is in the registry. -/
theorem Ok.callback (h : Ok v) {cb : ChannelCallback} (hcb : .erase ∉ v.log)
    (hne : cb ≠ .onTcpClosed ∧ cb ≠ .onTimerClosed) :
    Ok { v with log := v.log ++ [ChannelEvent.callback cb] } where
  scheduled := by simpa using h.scheduled
  delivered := by simpa using h.delivered
  before := by simpa using h.before
  after := by simpa using h.after
  tcpDone := h.tcpDone
  timerDone := h.timerDone
  tcpCalled := by simp [h.tcpCalled, Ne.symm hne.1]
  timerCalled := by simp [h.timerCalled, Ne.symm hne.2]
  timerRuns := h.timerRuns
  noReqs := h.noReqs
  oneTimer := h.oneTimer
  erased := by simpa using h.erased
  ordered := h.ordered.append (fun _ _ => hcb) (by simp)

/-- A request is made or done on a handle that is not closed. -/
theorem Ok.request (h : Ok v) (hopen : v.tcp ≠ .closed) {n k : Nat} (hk : k ≤ v.connects) :
    Ok { v with reqs := n, connects := k } :=
  { h with
    noReqs := fun hclosed => absurd hclosed hopen
    oneTimer := by have := h.oneTimer; simp only; omega }

/-- The close callback of the tcp handle, before it looks at the timer's flag. -/
theorem Ok.tcpClosed (h : Ok v) (hclosing : v.tcp = .closing) (hreqs : v.reqs = 0) :
    Ok { v with
      tcp := .closed, tcpDone := true
      log := v.log ++ [ChannelEvent.callback .onTcpClosed] ++
        if v.timerDone then [ChannelEvent.erase] else [] } := by
  -- the close callback runs after `onClosed`, and nothing is erased before both closed
  have hne : v.log.count .onClosed ≠ 0 := by
    intro hzero
    have := (h.before hzero).1
    rw [hclosing] at this
    simp at this
  have hnot := h.not_erased (Or.inl (by rw [hclosing]; simp))
  have hcb := h.ordered.append (e := .callback .onTcpClosed) (fun _ _ => hnot) (by simp)
  have herased : v.log.count .erase = 0 := List.count_eq_zero.mpr hnot
  cases hdone : v.timerDone with
  | false =>
    exact
      { scheduled := by simpa using h.scheduled
        delivered := by simpa using h.delivered
        before := by simp [hne]
        after := by simpa [hne] using (h.after hne).2
        tcpDone := by simp
        timerDone := by simpa [hdone] using h.timerDone
        tcpCalled := by simp
        timerCalled := by simp [h.timerCalled]
        timerRuns := h.timerRuns
        noReqs := fun _ => hreqs
        oneTimer := h.oneTimer
        erased := by simp [herased]
        ordered := by simpa using hcb }
  -- the timer closed first: this callback erases
  | true =>
    have htimer := h.timerCalled.mp (h.timerDone.mp hdone)
    exact
      { scheduled := by simpa using h.scheduled
        delivered := by simpa using h.delivered
        before := by simp [hne]
        after := by simpa [hne] using (h.after hne).2
        tcpDone := by simp
        timerDone := by simpa [hdone] using h.timerDone
        tcpCalled := by simp
        timerCalled := by simp [h.timerCalled]
        timerRuns := h.timerRuns
        noReqs := fun _ => hreqs
        oneTimer := h.oneTimer
        erased := by simp [herased]
        ordered := hcb.append (by simp) fun _ => ⟨by simp, by simp [htimer]⟩ }

/-- The close callback of the timer, before it looks at the tcp handle's flag. -/
theorem Ok.timerClosed (h : Ok v) (hclosing : v.timer = .closing) :
    Ok { v with
      timer := .closed, timerDone := true
      log := v.log ++ [ChannelEvent.callback .onTimerClosed] ++
        if v.tcpDone then [ChannelEvent.erase] else [] } := by
  -- as for `tcp`, with the parts changed
  have hne : v.log.count .onClosed ≠ 0 := by
    intro hzero
    have := (h.before hzero).2
    rw [hclosing] at this
    simp at this
  have hnot := h.not_erased (Or.inr (by rw [hclosing]; simp))
  have hcb := h.ordered.append (e := .callback .onTimerClosed) (fun _ _ => hnot) (by simp)
  have herased : v.log.count .erase = 0 := List.count_eq_zero.mpr hnot
  have hone := h.oneTimer
  rw [hclosing] at hone
  cases hdone : v.tcpDone with
  | false =>
    exact
      { scheduled := by simpa using h.scheduled
        delivered := by simpa using h.delivered
        before := by simp [hne]
        after := by simpa [hne] using (h.after hne).1
        tcpDone := by simpa [hdone] using h.tcpDone
        timerDone := by simp
        tcpCalled := by simp [h.tcpCalled]
        timerCalled := by simp
        timerRuns := fun hopen => by simp at hopen
        noReqs := h.noReqs
        oneTimer := by simpa using hone
        erased := by simp [herased]
        ordered := by simpa using hcb }
  -- `tcp` closed first: this callback erases
  | true =>
    have htcp := h.tcpCalled.mp (h.tcpDone.mp hdone)
    exact
      { scheduled := by simpa using h.scheduled
        delivered := by simpa using h.delivered
        before := by simp [hne]
        after := by simpa [hne] using (h.after hne).1
        tcpDone := by simpa [hdone] using h.tcpDone
        timerDone := by simp
        tcpCalled := by simp [h.tcpCalled]
        timerCalled := by simp
        timerRuns := fun hopen => by simp at hopen
        noReqs := h.noReqs
        oneTimer := by simpa using hone
        erased := by simp [herased]
        ordered := hcb.append (by simp) fun _ => ⟨by simp [htcp], by simp⟩ }

end ChannelLife

end Athena
