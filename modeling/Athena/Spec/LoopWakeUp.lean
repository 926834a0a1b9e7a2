import Athena.ForStd.Run
import Athena.Native.LoopWake

/-!
# Tasks and wake-ups

A task in the queue of a running loop is one of four: its call is still on the way to its
`uv_async_send`, or its send has not been answered, or the loop thread is emptying the
queue, or its call found `asyncs_inited_` false and sent nothing.  Those of the last kind
wait for the wake-up of some other task.

## Key results

- `LoopWake.left_in_quiet`: what the queue holds while the loop waits
- `LoopWake.quiet_empty_iff`: when it holds nothing
- `LoopWake.skipped_left`: a task that is put in before `start` stays there
-/

namespace Athena.LoopWake

variable {P T : Type} [DecidableEq P]

/-- The call `n` of the thread `c` has not come to its `uv_async_send`. -/
def InCall (s : LoopWake P T) (c : WakeCaller P) (n : Nat) : Prop :=
  (s.pc c).call = some n

/-- Why a task may be in the queue. -/
inductive Covered (s : LoopWake P T) (c : WakeCaller P) (n : Nat) : Prop where
  | calling (h : s.InCall c n)
  /-- nothing was sent, and nothing has been answered since -/
  | skipped (h : n ∈ s.skipped) (hdrained : s.drained = false)
  | sent (h : s.writeSent = true)
  | draining (h : s.loop.drains = true)

omit [DecidableEq P] in
/-- A task stays covered if its caller goes on, or its signal stays. -/
theorem Covered.mono {s s' : LoopWake P T} {c : WakeCaller P} {n : Nat} (h : Covered s c n)
    (hcall : s.InCall c n → Covered s' c n) (hskip : ∀ m ∈ s.skipped, m ∈ s'.skipped)
    (hdrained : s'.drained = s.drained)
    (hsent : s.writeSent = true → s'.writeSent = true ∨ s'.loop.drains = true)
    (hdrains : s.loop.drains = true → s'.loop.drains = true) : Covered s' c n := by
  cases h with
  | calling h => exact hcall h
  | skipped h hd => exact .skipped (hskip n h) (hdrained.trans hd)
  | sent h =>
    cases hsent h with
    | inl hs => exact .sent hs
    | inr hd => exact .draining hd
  | draining h => exact .draining (hdrains h)

/-- Every task that waits will be found. -/
structure Inv (s : LoopWake P T) : Prop where
  covered : s.stopping_ = false → ∀ x ∈ s.waitTasks, Covered s x.1 x.2.1
  started : s.loop.started = true → s.asyncs_inited_ = true
  drained : s.drained = true → s.asyncs_inited_ = true

omit [DecidableEq P] in
/-- No task waits yet. -/
theorem inv_init : Inv (init : LoopWake P T) where
  covered _ _ hx := nomatch hx
  started h := nomatch h
  drained h := nomatch h

variable {s s' : LoopWake P T}

/-- A task is put in. -/
theorem inv_push {c : WakeCaller P} (task : T) (h : Inv s) (hidle : s.pc c = .idle) :
    Inv (s.push c task) where
  covered hstop x hx := by
    cases List.mem_append.mp hx with
    | inl hold =>
      refine (h.covered hstop x hold).mono ?_ (fun _ hm => hm) rfl .inl (fun hd => hd)
      intro hcall
      apply Covered.calling
      -- the caller had no other call
      have hne : x.1 ≠ c := by
        intro heq
        rw [InCall, heq, hidle] at hcall
        exact nomatch hcall
      show (Function.update s.pc c (.pushed s.seq) x.1).call = some x.2.1
      rw [Function.update_of_ne hne]
      exact hcall
    | inr hnew =>
      obtain rfl := List.mem_singleton.mp hnew
      apply Covered.calling
      show (Function.update s.pc c (.pushed s.seq) c).call = some s.seq
      rw [Function.update_self]
      rfl
  started := h.started
  drained := h.drained

/-- The calls of the other threads are where they were. -/
theorem covered_of_ne {c d : WakeCaller P} {n : Nat} {pc : WakePc}
    (hpc : s'.pc = Function.update s.pc c pc) (hd : d ≠ c) (hcall : s.InCall d n) :
    Covered s' d n := by
  apply Covered.calling
  rw [InCall, hpc, Function.update_of_ne hd]
  exact hcall

/-- A step of `wakeAsync`: the call goes on, or it has seen to its task. -/
theorem inv_wakeAsync {c : WakeCaller P} (h : Inv s) (hstep : s.wakeAsync c = some s') :
    Inv s' := by
  cases hpc : s.pc c with
  | idle => rw [wakeAsync, hpc] at hstep; exact nomatch hstep
  | pushed n =>
    simp only [wakeAsync, hpc] at hstep
    split at hstep
    · rename_i hstopping
      obtain rfl := Option.some.inj hstep
      refine ⟨?_, h.started, h.drained⟩
      intro hstop
      exact nomatch hstopping.symm.trans hstop
    · obtain rfl := Option.some.inj hstep
      refine ⟨?_, h.started, h.drained⟩
      intro hstop x hx
      refine (h.covered hstop x hx).mono ?_ (fun _ hm => hm) rfl .inl (fun hd => hd)
      intro hcall
      by_cases hc : x.1 = c
      · apply Covered.calling
        rw [InCall, hc, hpc] at hcall
        show (Function.update s.pc c (.stopTested n) x.1).call = some x.2.1
        rw [hc, Function.update_self]
        exact hcall
      · exact covered_of_ne rfl hc hcall
  | stopTested n =>
    simp only [wakeAsync, hpc] at hstep
    split at hstep
    · obtain rfl := Option.some.inj hstep
      refine ⟨?_, h.started, h.drained⟩
      intro hstop x hx
      refine (h.covered hstop x hx).mono ?_ (fun _ hm => hm) rfl .inl (fun hd => hd)
      intro hcall
      by_cases hc : x.1 = c
      · apply Covered.calling
        rw [InCall, hc, hpc] at hcall
        show (Function.update s.pc c (.initTested n) x.1).call = some x.2.1
        rw [hc, Function.update_self]
        exact hcall
      · exact covered_of_ne rfl hc hcall
    · -- nothing is sent; no callback has been called yet
      rename_i hinit
      obtain rfl := Option.some.inj hstep
      refine ⟨?_, h.started, h.drained⟩
      intro hstop x hx
      refine (h.covered hstop x hx).mono ?_ (fun _ hm => List.mem_cons_of_mem n hm) rfl .inl
        (fun hd => hd)
      intro hcall
      by_cases hc : x.1 = c
      · rw [InCall, hc, hpc] at hcall
        have hn : n = x.2.1 := Option.some.inj hcall
        refine .skipped (by rw [hn]; exact List.mem_cons_self) ?_
        by_contra hd
        exact hinit (h.drained (by simpa using hd))
      · exact covered_of_ne rfl hc hcall
  | initTested n =>
    simp only [wakeAsync, hpc] at hstep
    obtain rfl := Option.some.inj hstep
    exact ⟨fun _ _ _ => .sent rfl, h.started, h.drained⟩

omit [DecidableEq P] in
/-- The loop thread goes on, and takes no task. -/
theorem Inv.goto {pc : ReactorPc} (h : Inv s) (hstarted : pc.started = true → s.loop.started = true)
    (hdrains : s.loop.drains = true → pc.drains = true) : Inv { s with loop := pc } where
  covered hstop x hx :=
    (h.covered hstop x hx).mono (fun hcall => .calling hcall) (fun _ hm => hm) rfl .inl hdrains
  started hpc := h.started (hstarted hpc)
  drained := h.drained

/-- The steps of the loop thread, with what they need. -/
inductive ReactorStep (s : LoopWake P T) : LoopWake P T → Prop where
  | libuv (n : Nat) (ok : Bool) (hloop : s.loop = .init n) :
      ReactorStep s { s with loop := if ok then .init (n + 1) else .failed }
  | inited (n : Nat) (hloop : s.loop = .init n) :
      ReactorStep s { s with loop := .inited, asyncs_inited_ := true }
  | uvRun (hloop : s.loop = .inited) : ReactorStep s { s with loop := .poll }
  | asyncWrite (hloop : s.loop = .poll) (hsent : s.writeSent = true) :
      ReactorStep s { s with loop := .execute .poll, writeSent := false }
  | asyncStop (hloop : s.loop = .poll) (hsent : s.stopSent = true) :
      ReactorStep s { s with loop := .task .close, stopSent := false }
  | callback (hloop : s.loop = .poll) : ReactorStep s { s with loop := .callback }
  | callbackReturns (hloop : s.loop = .callback) : ReactorStep s { s with loop := .poll }
  | executed (next : AfterExecute) (hloop : s.loop = .execute next) (hempty : s.waitTasks = []) :
      ReactorStep s (s.executed next)
  | popped (next : AfterExecute) (rest : List (WakeCaller P × (Nat × T)))
      (hloop : s.loop = .execute next) : ReactorStep s { s with waitTasks := rest, loop := .task next }
  | taskReturns (next : AfterExecute) (hloop : s.loop = .task next) :
      ReactorStep s { s with loop := .execute next }
  | uvRunReturns (hloop : s.loop = .closed) : ReactorStep s { s with loop := .execute .finish }

/-- What the loop thread does is one of these. -/
theorem reactorStep {a : WakeAct P T} (hstep : s.loopStep a = some s') : ReactorStep s s' := by
  cases a with
  | push c task => exact nomatch hstep
  | advance c => exact nomatch hstep
  | stop => exact nomatch hstep
  | sendStop => exact nomatch hstep
  | start => exact nomatch hstep
  | initAsynEvent ok =>
    simp only [loopStep] at hstep
    split at hstep
    · rename_i n hloop
      split at hstep
      · obtain rfl := Option.some.inj hstep
        exact .libuv n ok hloop
      · obtain rfl := Option.some.inj hstep
        exact .inited n hloop
    · exact nomatch hstep
  | uvRun =>
    simp only [loopStep] at hstep
    split at hstep
    · rename_i hloop
      obtain rfl := Option.some.inj hstep
      exact .uvRun hloop
    · exact nomatch hstep
  | asyncWrite =>
    simp only [loopStep, Bool.and_eq_true, decide_eq_true_eq] at hstep
    split at hstep
    · rename_i hpoll
      obtain rfl := Option.some.inj hstep
      exact .asyncWrite hpoll.1 hpoll.2
    · exact nomatch hstep
  | asyncStop =>
    simp only [loopStep, Bool.and_eq_true, decide_eq_true_eq] at hstep
    split at hstep
    · rename_i hpoll
      obtain rfl := Option.some.inj hstep
      exact .asyncStop hpoll.1 hpoll.2
    · exact nomatch hstep
  | callback =>
    simp only [loopStep] at hstep
    split at hstep
    · rename_i hloop
      obtain rfl := Option.some.inj hstep
      exact .callback hloop
    · exact nomatch hstep
  | callbackReturns =>
    simp only [loopStep] at hstep
    split at hstep
    · rename_i hloop
      obtain rfl := Option.some.inj hstep
      exact .callbackReturns hloop
    · exact nomatch hstep
  | pop i =>
    simp only [loopStep] at hstep
    split at hstep
    · rename_i next hloop
      split at hstep
      · rename_i hempty
        obtain rfl := Option.some.inj hstep
        exact .executed next hloop (List.isEmpty_iff.mp hempty)
      · split at hstep
        · exact nomatch hstep
        · obtain rfl := Option.some.inj hstep
          exact .popped next _ hloop
    · exact nomatch hstep
  | taskReturns =>
    simp only [loopStep] at hstep
    split at hstep
    · rename_i next hloop
      obtain rfl := Option.some.inj hstep
      exact .taskReturns next hloop
    · exact nomatch hstep
  | uvRunReturns =>
    simp only [loopStep] at hstep
    split at hstep
    · rename_i hloop
      obtain rfl := Option.some.inj hstep
      exact .uvRunReturns hloop
    · exact nomatch hstep

omit [DecidableEq P] in
/-- Every step of the loop thread keeps the tasks covered. -/
theorem inv_reactorStep (h : Inv s) (hstep : ReactorStep s s') : Inv s' := by
  cases hstep with
  | libuv n ok hloop =>
    apply h.goto
    · cases ok <;> exact nofun
    · rw [hloop]; exact nofun
  | inited n hloop =>
    refine ⟨?_, fun _ => rfl, fun _ => rfl⟩
    intro hstop x hx
    refine (h.covered hstop x hx).mono (fun hcall => .calling hcall) (fun _ hm => hm) rfl .inl ?_
    rw [hloop]
    exact nofun
  | uvRun hloop =>
    apply h.goto
    · rw [hloop]; exact fun _ => rfl
    · rw [hloop]; exact nofun
  | asyncWrite hloop hsent =>
    refine ⟨fun _ _ _ => .draining rfl, fun _ => h.started ?_, h.drained⟩
    rw [hloop]
    rfl
  | asyncStop hloop hsent =>
    refine ⟨fun _ _ _ => .draining rfl, fun _ => h.started ?_, h.drained⟩
    rw [hloop]
    rfl
  | callback hloop =>
    apply h.goto
    · rw [hloop]; exact fun _ => rfl
    · rw [hloop]; exact nofun
  | callbackReturns hloop =>
    apply h.goto
    · rw [hloop]; exact fun _ => rfl
    · rw [hloop]; exact nofun
  | executed next hloop hempty =>
    have hinit : s.asyncs_inited_ = true := h.started (by rw [hloop]; rfl)
    have hnone : ∀ x, x ∉ s.waitTasks := by
      rw [hempty]
      exact fun x => List.not_mem_nil
    cases next with
    | poll => exact ⟨fun _ x hx => absurd hx (hnone x), fun _ => hinit, fun _ => hinit⟩
    | close => exact ⟨fun _ x hx => absurd hx (hnone x), fun _ => hinit, h.drained⟩
    | finish => exact ⟨fun _ x hx => absurd hx (hnone x), fun _ => hinit, h.drained⟩
  | popped next rest hloop =>
    have hinit : s.asyncs_inited_ = true := h.started (by rw [hloop]; rfl)
    exact ⟨fun _ _ _ => .draining rfl, fun _ => hinit, h.drained⟩
  | taskReturns next hloop =>
    apply h.goto
    · rw [hloop]; exact fun _ => rfl
    · exact fun _ => rfl
  | uvRunReturns hloop =>
    apply h.goto
    · rw [hloop]; exact fun _ => rfl
    · exact fun _ => rfl

/-- Every step keeps the tasks covered. -/
theorem inv_step (s : LoopWake P T) (a : WakeAct P T) (s' : LoopWake P T) (h : Inv s)
    (hstep : step s a = some s') : Inv s' := by
  cases a with
  | push c task =>
    simp only [step, Bool.and_eq_true, decide_eq_true_eq] at hstep
    split at hstep
    · rename_i hcall
      -- the caller is now to send the wake up
      obtain rfl := Option.some.inj hstep
      exact inv_push task h hcall.1
    · exact nomatch hstep
  | advance c => exact inv_wakeAsync h hstep
  | stop =>
    obtain rfl := Option.some.inj hstep
    exact ⟨fun hstop => (nomatch hstop), h.started, h.drained⟩
  | sendStop =>
    simp only [step] at hstep
    split at hstep
    · obtain rfl := Option.some.inj hstep
      refine ⟨?_, h.started, h.drained⟩
      -- a task is still covered by the call that it waits for
      intro hstop x hx
      exact (h.covered hstop x hx).mono (fun hcall => .calling hcall) (fun _ hm => hm) rfl .inl
        (fun hd => hd)
    · exact nomatch hstep
  | start =>
    simp only [step] at hstep
    split at hstep
    · rename_i hloop
      obtain rfl := Option.some.inj hstep
      apply h.goto
      · exact nofun
      · rw [hloop]; exact nofun
    · exact nomatch hstep
  -- the loop itself
  | _ =>
    simp only [step] at hstep
    split at hstep
    · exact inv_reactorStep h (reactorStep hstep)
    · exact nomatch hstep

/-- Whatever the threads and the loop do, and in whatever order: while the loop waits in
    `uv_run` with nothing sent and no stop requested, every task in the queue is one of a
    call that has not come to its `uv_async_send` yet, or one whose call found
    `asyncs_inited_` false, and then no wake-up has been answered so far. -/
theorem left_in_quiet {acts : List (WakeAct P T)} (hrun : Run.run step init acts = some s)
    (hquiet : s.Quiet) :
    ∀ x ∈ s.waitTasks, s.InCall x.1 x.2.1 ∨ (x.2.1 ∈ s.skipped ∧ s.drained = false) := by
  intro x hx
  obtain ⟨hloop, hsent, -, hstop⟩ := hquiet
  have h := Run.invariant inv_step inv_init hrun
  cases h.covered hstop x hx with
  | calling hcall => exact .inl hcall
  | skipped hskip hdrained => exact .inr ⟨hskip, hdrained⟩
  | sent hs => exact nomatch hs.symm.trans hsent
  | draining hd => rw [hloop] at hd; exact nomatch hd

/-! ## When nothing is left -/

/-- The loop thread has seen the stop. -/
def StopSeen : ReactorPc → Prop
  | .execute next => next ≠ .poll
  | .task next => next ≠ .poll
  | .closed => True
  | .ended => True
  | _ => False

/-- Tasks leave the queue by a wake-up only: what was put in before `initAsynEvent` has set
    `asyncs_inited_` is there until the first one is answered, or the loop is stopped. -/
structure Waiting (s : LoopWake P T) : Prop where
  calling : s.asyncs_inited_ = false → ∀ c n, s.InCall c n → s.waitTasks ≠ []
  skipped : s.drained = false → s.stopping_ = false → s.loop.drains = false →
    s.skipped ≠ [] → s.waitTasks ≠ []
  sent : s.stopSent = true ∨ s.stopper = true → s.stopping_ = true
  seen : StopSeen s.loop → s.stopping_ = true

omit [DecidableEq P] in
/-- Nobody has called yet. -/
theorem waiting_init : Waiting (init : LoopWake P T) where
  calling _ c n h := nomatch h
  skipped _ _ _ h := absurd rfl h
  sent h := by rcases h with h | h <;> exact nomatch h
  seen h := h.elim

/-- A step of `wakeAsync`: the queue is as before. -/
theorem waiting_wakeAsync {c : WakeCaller P} (h : Waiting s) (hstep : s.wakeAsync c = some s') :
    Waiting s' := by
  -- the other calls, and this one if it goes on
  have hcalling : ∀ {pc : WakePc}, (∀ n, pc.call = some n → s.InCall c n) →
      s.asyncs_inited_ = false → ∀ d n, (Function.update s.pc c pc d).call = some n →
      s.waitTasks ≠ [] := by
    intro pc hpc hinit d n hcall
    by_cases hd : d = c
    · subst hd
      rw [Function.update_self] at hcall
      exact h.calling hinit d n (hpc n hcall)
    · rw [Function.update_of_ne hd] at hcall
      exact h.calling hinit d n hcall
  rw [wakeAsync] at hstep
  split at hstep
  · exact nomatch hstep
  · rename_i n hpc
    split at hstep
    · obtain rfl := Option.some.inj hstep
      exact ⟨hcalling fun _ hn => (nomatch hn), h.skipped, h.sent, h.seen⟩
    · obtain rfl := Option.some.inj hstep
      refine ⟨hcalling fun m hm => ?_, h.skipped, h.sent, h.seen⟩
      rw [InCall, hpc]
      exact hm
  · rename_i n hpc
    split at hstep
    · obtain rfl := Option.some.inj hstep
      refine ⟨hcalling fun m hm => ?_, h.skipped, h.sent, h.seen⟩
      rw [InCall, hpc]
      exact hm
    · -- the call returns without a signal, and its task is there
      rename_i hinit
      obtain rfl := Option.some.inj hstep
      have htask : s.waitTasks ≠ [] :=
        h.calling (by simpa using hinit) c n (by rw [InCall, hpc]; rfl)
      exact ⟨hcalling fun _ hn => (nomatch hn), fun _ _ _ _ => htask, h.sent, h.seen⟩
  · obtain rfl := Option.some.inj hstep
    exact ⟨hcalling fun _ hn => (nomatch hn), h.skipped, h.sent, h.seen⟩

omit [DecidableEq P] in
/-- The loop thread goes on without taking a task. -/
theorem Waiting.goto {pc : ReactorPc} (h : Waiting s) (hdrains : s.loop.drains = false)
    (hseen : StopSeen pc → StopSeen s.loop) : Waiting { s with loop := pc } where
  calling := h.calling
  skipped hd hstop _ := h.skipped hd hstop hdrains
  sent := h.sent
  seen hpc := h.seen (hseen hpc)

omit [DecidableEq P] in
/-- What the loop thread does before its first wake-up leaves the queue. -/
theorem waiting_reactorStep (hinv : Inv s) (h : Waiting s) (hstep : ReactorStep s s') :
    Waiting s' := by
  -- a loop that takes tasks has set `asyncs_inited_`
  have hinit : ∀ {pc : ReactorPc}, s.loop = pc → pc.started = true → s.asyncs_inited_ ≠ false :=
    fun hloop hstarted hfalse => nomatch (hinv.started (hloop ▸ hstarted)).symm.trans hfalse
  cases hstep with
  | libuv n ok hloop =>
    apply h.goto
    · rw [hloop]; rfl
    · cases ok <;> exact False.elim
  | inited n hloop =>
    refine ⟨fun hfalse => (nomatch hfalse), fun hd hstop _ => h.skipped hd hstop ?_, h.sent,
      False.elim⟩
    rw [hloop]
    rfl
  | uvRun hloop =>
    apply h.goto
    · rw [hloop]; rfl
    · exact False.elim
  | asyncWrite hloop hsent =>
    exact ⟨h.calling, fun _ _ hdrains => (nomatch hdrains), h.sent, fun hseen => absurd rfl hseen⟩
  | asyncStop hloop hsent =>
    have hstopping : s.stopping_ = true := h.sent (.inl hsent)
    exact ⟨h.calling, fun _ _ hdrains => (nomatch hdrains), fun _ => hstopping, fun _ => hstopping⟩
  | callback hloop =>
    apply h.goto
    · rw [hloop]; rfl
    · exact False.elim
  | callbackReturns hloop =>
    apply h.goto
    · rw [hloop]; rfl
    · exact False.elim
  | executed next hloop hempty =>
    have hset : s.asyncs_inited_ ≠ false := hinit hloop rfl
    cases next with
    | poll => exact ⟨fun hfalse => absurd hfalse hset, fun hd => (nomatch hd), h.sent, False.elim⟩
    | close =>
      have hstopping : s.stopping_ = true := h.seen (by rw [hloop]; exact nofun)
      exact ⟨fun hfalse => absurd hfalse hset,
        fun _ hstop => (nomatch hstopping.symm.trans hstop), h.sent, fun _ => hstopping⟩
    | finish =>
      have hstopping : s.stopping_ = true := h.seen (by rw [hloop]; exact nofun)
      exact ⟨fun hfalse => absurd hfalse hset,
        fun _ hstop => (nomatch hstopping.symm.trans hstop), h.sent, fun _ => hstopping⟩
  | popped next rest hloop =>
    exact ⟨fun hfalse => absurd hfalse (hinit hloop rfl), fun _ _ hdrains => (nomatch hdrains),
      h.sent, fun hseen => h.seen (by rw [hloop]; exact hseen)⟩
  | taskReturns next hloop =>
    exact ⟨h.calling, fun _ _ hdrains => (nomatch hdrains), h.sent,
      fun hseen => h.seen (by rw [hloop]; exact hseen)⟩
  | uvRunReturns hloop =>
    exact ⟨h.calling, fun _ _ hdrains => (nomatch hdrains), h.sent,
      fun _ => h.seen (by rw [hloop]; trivial)⟩

/-- Every step keeps the unsignalled tasks waiting. -/
theorem waiting_step {a : WakeAct P T} (hinv : Inv s) (h : Waiting s)
    (hstep : step s a = some s') : Waiting s' := by
  cases a with
  | push c task =>
    simp only [step] at hstep
    split at hstep
    · obtain rfl := Option.some.inj hstep
      have hne : (s.push c task).waitTasks ≠ [] :=
        List.append_ne_nil_of_right_ne_nil _ (List.cons_ne_nil _ _)
      exact ⟨fun _ _ _ _ => hne, fun _ _ _ _ => hne, h.sent, h.seen⟩
    · exact nomatch hstep
  | advance c => exact waiting_wakeAsync h hstep
  | stop =>
    obtain rfl := Option.some.inj hstep
    exact ⟨h.calling, fun _ hstop => (nomatch hstop), fun _ => rfl, fun _ => rfl⟩
  | sendStop =>
    simp only [step] at hstep
    split at hstep
    · rename_i hstopper
      obtain rfl := Option.some.inj hstep
      exact ⟨h.calling, h.skipped, fun _ => h.sent (.inr hstopper), h.seen⟩
    · exact nomatch hstep
  | start =>
    simp only [step] at hstep
    split at hstep
    · rename_i hloop
      obtain rfl := Option.some.inj hstep
      apply h.goto
      · rw [hloop]; rfl
      · exact False.elim
    · exact nomatch hstep
  -- the loop itself
  | _ =>
    simp only [step] at hstep
    split at hstep
    · exact waiting_reactorStep hinv h (reactorStep hstep)
    · exact nomatch hstep

/-- Whatever the threads and the loop do, and in whatever order: while the loop waits in
    `uv_run` with nothing sent and no stop requested, and no call is between its push and its
    `uv_async_send`, the queue is empty if and only if every `wakeAsync` so far has found
    `asyncs_inited_` set or a wake-up has been answered. -/
theorem quiet_empty_iff {acts : List (WakeAct P T)} (hrun : Run.run step init acts = some s)
    (hquiet : s.Quiet) (hidle : ∀ c, s.pc c = .idle) :
    s.waitTasks = [] ↔ s.skipped = [] ∨ s.drained = true := by
  have hwaiting : Waiting s := (Run.invariant (P := fun s => Inv s ∧ Waiting s)
    (fun _ _ _ h hstep => ⟨inv_step _ _ _ h.1 hstep, waiting_step h.1 h.2 hstep⟩)
    ⟨inv_init, waiting_init⟩ hrun).2
  constructor
  · intro hempty
    by_contra hnot
    rw [not_or, Bool.not_eq_true] at hnot
    obtain ⟨hloop, -, -, hstop⟩ := hquiet
    exact hwaiting.skipped hnot.2 hstop (by rw [hloop]; rfl) hnot.1 hempty
  · intro hcond
    refine List.eq_nil_iff_forall_not_mem.mpr fun x hx => ?_
    rcases left_in_quiet hrun hquiet x hx with hcall | ⟨hskip, hdrained⟩
    · rw [InCall, hidle x.1] at hcall
      exact nomatch hcall
    · rcases hcond with hnone | hanswered
      · rw [hnone] at hskip
        exact absurd hskip List.not_mem_nil
      · exact nomatch hanswered.symm.trans hdrained

/-- A task that wakes the loop is run. -/
theorem quiet_empty_iff_woken :
    ∃ s, Run.run step (init : LoopWake Nat Nat)
        [.start, .initAsynEvent true, .initAsynEvent true, .initAsynEvent true,
          .initAsynEvent true, .initAsynEvent true, .initAsynEvent true, .uvRun,
          .push (.other 0) 7, .advance (.other 0), .advance (.other 0), .advance (.other 0),
          .asyncWrite, .pop 0, .taskReturns, .pop 0] = some s ∧ s.waitTasks = [] := by
  let acts : List (WakeAct Nat Nat) :=
    [.start, .initAsynEvent true, .initAsynEvent true, .initAsynEvent true,
      .initAsynEvent true, .initAsynEvent true, .initAsynEvent true, .uvRun,
      .push (.other 0) 7, .advance (.other 0), .advance (.other 0), .advance (.other 0),
      .asyncWrite, .pop 0, .taskReturns, .pop 0]
  have hend : (Run.run step init acts).map (fun s => (decide s.Quiet, s.drained)) =
      some (true, true) := by decide
  have hpc : ∀ c, (Run.run step init acts).map (fun s => s.pc c) = some .idle
    | .loop => rfl
    | .other 0 => rfl
    | .other (_ + 1) => rfl
  obtain ⟨s, hrun, hs⟩ := Option.map_eq_some_iff.mp hend
  simp only [Prod.mk.injEq, decide_eq_true_eq] at hs
  have hidle : ∀ c, s.pc c = .idle := by
    intro c
    have hc := hpc c
    rw [hrun] at hc
    exact Option.some.inj hc
  exact ⟨s, hrun, (quiet_empty_iff hrun hs.1 hidle).mpr (.inr hs.2)⟩

/-- A task that is put in before `start`: nothing is sent, and the loop, which does not
    look at its queue before its first wake-up, waits with the task in the queue. -/
theorem skipped_left :
    ¬∀ (acts : List (WakeAct Nat Nat)) (s : LoopWake Nat Nat),
      Run.run step init acts = some s → s.Quiet → s.waitTasks = [] := by
  intro hall
  have hend : (Run.run step (init : LoopWake Nat Nat)
      [.push (.other 0) 7, .advance (.other 0), .advance (.other 0), .start,
        .initAsynEvent true, .initAsynEvent true, .initAsynEvent true, .initAsynEvent true,
        .initAsynEvent true, .initAsynEvent true, .uvRun]).map
      (fun s => (decide s.Quiet, s.waitTasks)) =
        some (true, [(.other 0, (0, 7))]) := by decide
  obtain ⟨s, hrun, hs⟩ := Option.map_eq_some_iff.mp hend
  simp only [Prod.mk.injEq, decide_eq_true_eq] at hs
  obtain ⟨hquiet, htasks⟩ := hs
  have hempty := hall _ s hrun hquiet
  rw [htasks] at hempty
  exact nomatch hempty

-- Between its push and its send a call has a task in the queue and nothing to show for it.
example : (Run.run step (init : LoopWake Nat Nat)
    [.start, .initAsynEvent true, .initAsynEvent true, .initAsynEvent true,
      .initAsynEvent true, .initAsynEvent true, .initAsynEvent true, .uvRun,
      .push (.other 0) 7]).map
    (fun s => (decide s.Quiet, s.skipped, s.waitTasks)) =
      some (true, [], [(.other 0, (0, 7))]) := by decide

end Athena.LoopWake
