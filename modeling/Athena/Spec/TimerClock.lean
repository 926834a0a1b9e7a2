import Athena.Spec.TimerHeap

/-!
# No timer fires early

The real clock counts milliseconds without end, and `XTime::iclock` reports it modulo 2³².
Beside each deadline stands the real time that it is for.  A timer is called at that time or
later if the sum that made its `m_time` has not left the 32 bits.
-/

namespace Athena

open TimerSystem

/-- 2³², the length of the time in which `iclock` comes round. -/
def clockRange : Nat := 4294967296

/-- `XTime::iclock` at a time of the real clock. -/
def iclockAt (now : Nat) : UInt32 := UInt32.ofNat now

/-- A step of the timers, with the times at which it reads the clock. -/
inductive ClockAction where
  | construct (t : HeapRef)
  | destroy (t : HeapRef)
  | start (t : HeapRef) (cb : TimerCallback) (timeout repeat_ : UInt64) (now : Nat)
  | stop (t : HeapRef)
  | update
  | loop (now now' : Nat)
  | ret
  deriving DecidableEq, Repr

/-- The step of the timers. -/
def ClockAction.toAction : ClockAction → TimerAction
  | .construct t => .construct t
  | .destroy t => .destroy t
  | .start t cb timeout repeat_ now => .start t cb timeout repeat_ (iclockAt now)
  | .stop t => .stop t
  | .update => .update
  | .loop now now' => .loop (iclockAt now) (iclockAt now')
  | .ret => .ret

/-- The timers, with the real time for which each is armed, the interval with which it was to
be repeated, and the last reading of the clock. -/
structure TimerClock where
  watch : TimerWatch
  due : HeapRef → Option Nat
  interval : HeapRef → Nat
  clock : Nat

namespace TimerClock

/-- No timer is armed at the time 0. -/
def init (node : HeapRef → HeapNode) : TimerClock :=
  { watch := .init node, due := fun _ => none, interval := fun _ => 0, clock := 0 }

/-- The interval of one timer becomes `n`. -/
def setInterval (interval : HeapRef → Nat) (t : HeapRef) (n : Nat) : HeapRef → Nat :=
  fun u => if u = t then n else interval u

/-- What a step that led to `watch` does to the times. -/
def record (w : TimerClock) (watch : TimerWatch) : ClockAction → TimerClock
  | .construct t => { w with watch := watch, interval := setInterval w.interval t 0 }
  | .destroy t => { w with watch := watch, due := setDeadline w.due t none }
  | .start t _ timeout repeat_ now => { w with
      watch := watch
      due := setDeadline w.due t (some (now + timeout.toNat))
      interval := setInterval w.interval t repeat_.toNat
      clock := now }
  | .stop t => { w with watch := watch, due := setDeadline w.due t none }
  | .loop _ now' =>
    match TimerWatch.called w.watch.sys watch.sys with
    | none => { w with watch := watch, clock := now' }
    | some t => { w with
        watch := watch
        due := setDeadline w.due t
          (if w.interval t % clockRange = 0 then none else some (now' + w.interval t))
        clock := now' }
  | _ => { w with watch := watch }

/-- A step of the timers, with its times. -/
def step (w : TimerClock) (a : ClockAction) : Option TimerClock :=
  (w.watch.step a.toAction).map fun watch => w.record watch a

/-- What can happen next: the clock does not go back, and no armed timer is started. -/
def Enabled (w : TimerClock) (a : ClockAction) : Prop :=
  w.watch.Enabled a.toAction ∧
    match a with
    | .start t _ _ _ now => w.clock ≤ now ∧ w.due t = none
    | .loop now now' => w.clock ≤ now ∧ now ≤ now'
    | _ => True

/-- The sums that are made fit in 32 bits, and no timer is stopped that is armed for the time 0
of `iclock`. -/
def Ok (w : TimerClock) : ClockAction → Prop
  | .start _ _ timeout _ now => now % clockRange + timeout.toNat < clockRange
  | .loop now now' => ∀ frame t timer, w.watch.sys.frames.head? = some frame → frame.i < 10 →
      w.watch.sys.gRootHeap.heapMin = some t → w.watch.sys.timers t = some timer →
      timer.m_time ≤ iclockAt now → timer.m_repeat > 0 →
      now' % clockRange + w.interval t < clockRange
  | .stop t => w.watch.deadline t ≠ some 0
  | .destroy t => w.watch.deadline t ≠ some 0
  | _ => True

/-- The step is performed, the nodes of the heap are the armed timers (not one that has been
stopped), and the timer whose callback is called is armed for a time that has come. -/
def Good (w : TimerClock) (a : ClockAction) : Prop :=
  ∃ w', w.step a = some w' ∧
    HeapOf w'.watch.sys.gRootHeap w'.watch.sys.timers (fun t => (w'.due t).isSome) ∧
    ∀ now now' t, a = .loop now now' → TimerWatch.called w.watch.sys w'.watch.sys = some t →
      ∃ d, w.due t = some d ∧ d ≤ now

/-! ## Deadlines of the real clock -/

/-- `m` is an `m_time` at which a timer that is armed at `now` for the time `d` is not called
early, however the clock runs on. -/
def NeverEarly (now d : Nat) (m : UInt32) : Prop :=
  ∀ n, now ≤ n → m ≤ iclockAt n → d ≤ n

/-- `iclock` is the real time modulo 2³². -/
theorem toNat_iclockAt (now : Nat) : (iclockAt now).toNat = now % clockRange :=
  UInt32.toNat_ofNat'

/-- What is not early from a time on is not early later. -/
theorem NeverEarly.mono {now now' d : Nat} {m : UInt32} (h : NeverEarly now d m)
    (hle : now ≤ now') : NeverEarly now' d m :=
  fun n hn => h n (Nat.le_trans hle hn)

/-- The sum does not leave the 32 bits exactly if the timer is never called early. -/
theorem neverEarly_iff {now timeout : Nat} {m : UInt32}
    (hm : m.toNat = (now + timeout) % clockRange) :
    NeverEarly now (now + timeout) m ↔ now % clockRange + timeout < clockRange := by
  have htest : ∀ n, m ≤ iclockAt n ↔ (now + timeout) % clockRange ≤ n % clockRange := by
    intro n
    rw [UInt32.le_iff_toNat_le, toNat_iclockAt, hm]
  simp only [NeverEarly, htest, clockRange]
  constructor
  · intro h
    have hnow := h now (Nat.le_refl now)
    have hround := h (now + timeout % 4294967296) (by omega)
    omega
  · intro hfit n hn hle
    omega

/-! ## One step -/

/-- The sum that `start` makes is the real one modulo 2³². -/
theorem toNat_start (timeout : UInt64) (now : Nat) :
    (timeout + (iclockAt now).toUInt64).toUInt32.toNat = (now + timeout.toNat) % clockRange := by
  rw [UInt64.toNat_toUInt32, UInt64.toNat_add, UInt32.toNat_toUInt64, toNat_iclockAt]
  simp only [clockRange]
  omega

/-- The `m_repeat` of a timer is what 32 bits hold of its interval. -/
def Repeats (interval : HeapRef → Nat) (timers : HeapRef → Option Timer) : Prop :=
  ∀ t timer, timers t = some timer → timer.m_repeat.toNat = interval t % clockRange

section Repeats

variable {interval : HeapRef → Nat} {timers : HeapRef → Option Timer} {s s' : TimerSystem}
  {t : HeapRef}

/-- A timer is set together with its interval. -/
theorem Repeats.setTimer {timer : Option Timer} {n : Nat} (h : Repeats interval timers)
    (htimer : ∀ T, timer = some T → T.m_repeat.toNat = n % clockRange) :
    Repeats (setInterval interval t n) (setTimer timers t timer) := by
  intro u T hu
  rw [TimerSystem.setTimer] at hu
  rw [setInterval]
  by_cases hut : u = t
  · rw [if_pos hut] at hu ⊢
    exact htimer T hu
  · rw [if_neg hut] at hu ⊢
    exact h u T hu

/-- A timer that keeps its `m_repeat` keeps its interval. -/
theorem Repeats.keep {timer : Option Timer} (h : Repeats interval timers)
    (htimer : ∀ T, timer = some T → ∃ T', timers t = some T' ∧ T'.m_repeat = T.m_repeat) :
    Repeats interval (TimerSystem.setTimer timers t timer) := by
  intro u T hu
  rw [TimerSystem.setTimer] at hu
  by_cases hut : u = t
  · rw [if_pos hut] at hu
    obtain ⟨T', hT', hrepeat⟩ := htimer T hu
    rw [hut, ← hrepeat]
    exact h t T' hT'
  · rw [if_neg hut] at hu
    exact h u T hu

/-- `start` sets the interval. -/
theorem Repeats.start {cb : TimerCallback} {timeout repeat_ : UInt64} {iclock : UInt32}
    (h : Repeats interval s.timers) (hrun : s.start t cb timeout repeat_ iclock = some s') :
    Repeats (setInterval interval t repeat_.toNat) s'.timers := by
  rw [TimerSystem.start] at hrun
  split at hrun
  · cases hrun
  · obtain ⟨heap, -, rfl⟩ := Option.map_eq_some_iff.mp hrun
    refine h.setTimer fun T hT => ?_
    rw [← Option.some.inj hT]
    exact UInt64.toNat_toUInt32 repeat_

/-- `stop` leaves the intervals. -/
theorem Repeats.stop (h : Repeats interval s.timers) (hrun : s.stop t = some s') :
    Repeats interval s'.timers := by
  rw [TimerSystem.stop] at hrun
  split at hrun
  · cases hrun
  · next timer htimer =>
    split at hrun
    · rwa [← Option.some.inj hrun]
    · obtain ⟨heap, -, rfl⟩ := Option.map_eq_some_iff.mp hrun
      exact h.keep fun T hT => ⟨timer, htimer, by rw [← Option.some.inj hT]⟩

/-- A timer that is destroyed has none to keep. -/
theorem Repeats.destroy (h : Repeats interval s.timers) (hrun : s.destroy t = some s') :
    Repeats interval s'.timers := by
  rw [TimerSystem.destroy] at hrun
  split at hrun
  · cases hrun
  · dsimp only at hrun
    split at hrun
    · rw [← Option.some.inj hrun]
      refine h.keep fun T hT => ?_
      cases hT
    · obtain ⟨heap, -, rfl⟩ := Option.map_eq_some_iff.mp hrun
      refine h.keep fun T hT => ?_
      cases hT

/-- The repetition keeps the interval. -/
theorem Repeats.expire {timer : Timer} {iclock' : UInt32} (h : Repeats interval s.timers)
    (htimer : s.timers t = some timer) (hrun : s.expire t timer iclock' = some s') :
    Repeats interval s'.timers := by
  rw [TimerSystem.expire] at hrun
  split at hrun
  · cases hrun
  · split at hrun
    · obtain ⟨heap, -, rfl⟩ := Option.map_eq_some_iff.mp hrun
      exact h.keep fun T hT => ⟨timer, htimer, by rw [← Option.some.inj hT]⟩
    · rw [← Option.some.inj hrun]
      exact h.keep fun T hT => ⟨timer, htimer, by rw [← Option.some.inj hT]⟩

/-- A turn of `update` leaves the intervals. -/
theorem Repeats.loop {frame : UpdateFrame} {frames : List UpdateFrame} {iclock iclock' : UInt32}
    (h : Repeats interval s.timers) (hrun : s.loop frame frames iclock iclock' = some s') :
    Repeats interval s'.timers := by
  have hback : some { s with frames := frames } = some s' → Repeats interval s'.timers := by
    intro heq
    rw [← Option.some.inj heq]
    exact h
  rw [TimerSystem.loop] at hrun
  split at hrun
  · split at hrun
    · exact hback hrun
    · split at hrun
      · cases hrun
      · next timer htimer =>
        split at hrun
        · obtain ⟨s₁, hexpire, rfl⟩ := Option.map_eq_some_iff.mp hrun
          have h₁ : Repeats interval s₁.timers := h.expire htimer hexpire
          exact h₁
        · exact hback hrun
  · exact hback hrun

end Repeats

/-- What holds between two steps: a timer is armed for a real time exactly if it has a deadline,
and is never called before it. -/
structure Inv (w : TimerClock) : Prop where
  watch : w.watch.Inv
  late : ∀ t, Option.Rel (NeverEarly w.clock) (w.due t) (w.watch.deadline t)
  repeats : Repeats w.interval w.watch.sys.timers

/-- Two sides that are related are there together. -/
theorem rel_isSome {α β : Type} {r : α → β → Prop} {a : Option α} {b : Option β}
    (h : Option.Rel r a b) : a.isSome ↔ b.isSome := by
  cases h with
  | some _ => exact Iff.rfl
  | none => exact Iff.rfl

/-- Both sides are set. -/
theorem rel_setDeadline {r : Nat → UInt32 → Prop} {due : HeapRef → Option Nat}
    {deadline : HeapRef → Option UInt32} {d : Option Nat} {m : Option UInt32}
    (h : ∀ u, Option.Rel r (due u) (deadline u)) (t : HeapRef) (hd : Option.Rel r d m) (u : HeapRef) :
    Option.Rel r (setDeadline due t d u) (setDeadline deadline t m u) := by
  by_cases hut : u = t
  · rw [hut, setDeadline_self, setDeadline_self]
    exact hd
  · rw [setDeadline_of_ne d hut, setDeadline_of_ne m hut]
    exact h u

/-- The clock runs on. -/
theorem rel_later {clock now : Nat} {d : Option Nat} {m : Option UInt32}
    (h : Option.Rel (NeverEarly clock) d m) (hle : clock ≤ now) :
    Option.Rel (NeverEarly now) d m := by
  cases h with
  | some h => exact .some (h.mono hle)
  | none => exact .none

/-- The nodes of the heap are the timers that are armed for a real time. -/
theorem Inv.heap {w : TimerClock} (h : w.Inv) :
    HeapOf w.watch.sys.gRootHeap w.watch.sys.timers fun t => (w.due t).isSome :=
  h.watch.armed.heap.congr (fun t => (rel_isSome (h.late t)).symm) fun _ _ => rfl

/-- Recording the times leaves the timers. -/
@[simp] theorem watch_record (w : TimerClock) (watch : TimerWatch) (a : ClockAction) :
    (w.record watch a).watch = watch := by
  cases a with
  | loop now now' =>
    rw [record]
    split <;> rfl
  | _ => rfl

/-- What is armed again has the real time of the interval. -/
theorem rel_rearm {timer : Timer} {interval now' : Nat}
    (hrepeat : timer.m_repeat.toNat = interval % clockRange)
    (hfit : timer.m_repeat > 0 → now' % clockRange + interval < clockRange) :
    Option.Rel (NeverEarly now')
      (if interval % clockRange = 0 then none else some (now' + interval))
      (rearm timer (iclockAt now')) := by
  have hpos : timer.m_repeat > 0 ↔ ¬ interval % clockRange = 0 := by
    rw [← hrepeat, gt_iff_lt, UInt32.lt_iff_toNat_lt, UInt32.toNat_zero]
    omega
  rw [rearm]
  by_cases hzero : interval % clockRange = 0
  · rw [if_pos hzero, if_neg (by rwa [hpos, Classical.not_not])]
    exact .none
  · rw [if_neg hzero, if_pos (hpos.mpr hzero)]
    refine .some ((neverEarly_iff ?_).mpr (hfit (hpos.mpr hzero)))
    rw [UInt32.toNat_add, toNat_iclockAt, hrepeat]
    simp only [clockRange]
    omega

/-- A pass through the loop: the timer that is called was armed for a time that has come. -/
theorem Inv.loop {w : TimerClock} {now now' : Nat} {watch : TimerWatch} (h : w.Inv)
    (hen : w.Enabled (.loop now now')) (hok : w.Ok (.loop now now'))
    (hstep : w.watch.step (.loop (iclockAt now) (iclockAt now')) = some watch)
    (hinv : watch.Inv) :
    (w.record watch (.loop now now')).Inv ∧
      ∀ t, TimerWatch.called w.watch.sys watch.sys = some t → ∃ d, w.due t = some d ∧ d ≤ now := by
  obtain ⟨⟨frame, frames, hframes, -⟩, hclock, hclock'⟩ := hen
  obtain ⟨s', hrun, rfl⟩ := Option.map_eq_some_iff.mp hstep
  simp only [TimerSystem.step, hframes] at hrun
  -- real time only goes on
  have hlater : ∀ u, Option.Rel (NeverEarly now') (w.due u) (w.watch.deadline u) :=
    fun u => rel_later (h.late u) (Nat.le_trans hclock hclock')
  have hrepeats : Repeats w.interval s'.timers := h.repeats.loop hrun
  rw [TimerWatch.sys_record]
  cases h.watch.armed.loop frame frames (iclockAt now) (iclockAt now') with
  | inl hfires =>
    obtain ⟨t, d, timer, s₁, hi, hmin, hd, hdue, -, htimer, hrun', -, hframes'⟩ := hfires
    obtain rfl : s₁ = s' := Option.some.inj (hrun'.symm.trans hrun)
    have hcalled : TimerWatch.called w.watch.sys s₁ = some t :=
      TimerWatch.called_of_frames hframes hframes'
    obtain ⟨timer', htimer', hm⟩ := h.watch.armed.m_time_eq t d hd
    obtain rfl := Option.some.inj (htimer.symm.trans htimer')
    -- the root is due: its callback runs, and it is armed again from the real time
    refine ⟨⟨?_, ?_, ?_⟩, fun u hu => ?_⟩
    · simp only [record, TimerWatch.sys_record, hcalled]
      exact hinv
    · simp only [record, TimerWatch.sys_record, hcalled,
        TimerWatch.deadline_record_loop _ _ hcalled htimer]
      refine rel_setDeadline hlater t (rel_rearm (h.repeats t timer htimer) fun hrepeat => ?_)
      exact hok frame t timer (by rw [hframes]; rfl) hi hmin htimer (hm ▸ hdue) hrepeat
    · simp only [record, TimerWatch.sys_record, hcalled]
      exact hrepeats
    -- by `NeverEarly` the deadline of the root has really passed
    · obtain rfl := Option.some.inj (hcalled.symm.trans hu)
      have hlate := h.late t
      rw [hd] at hlate
      cases hdt : w.due t with
      | none =>
        rw [hdt] at hlate
        cases hlate
      | some real =>
        rw [hdt] at hlate
        cases hlate with
        | some hnever => exact ⟨real, rfl, hnever now hclock hdue⟩
  -- nothing is due
  | inr hback =>
    obtain ⟨-, hrun'⟩ := hback
    obtain rfl := Option.some.inj (hrun'.symm.trans hrun)
    have hcalled : TimerWatch.called w.watch.sys { w.watch.sys with frames := frames } = none :=
      TimerWatch.called_of_back hframes rfl
    refine ⟨⟨?_, ?_, ?_⟩, fun u hu => ?_⟩
    · simp only [record, TimerWatch.sys_record, hcalled]
      exact hinv
    · simp only [record, TimerWatch.record, hcalled]
      exact hlater
    · simp only [record, TimerWatch.sys_record, hcalled]
      exact hrepeats
    · rw [hcalled] at hu
      cases hu

/-- Every step that can happen and meets the condition is performed, and keeps the invariant. -/
theorem Inv.step {w : TimerClock} {a : ClockAction} (h : w.Inv) (hen : w.Enabled a)
    (hok : w.Ok a) : ∃ w', w.step a = some w' ∧ w'.Inv ∧
      ∀ now now' t, a = .loop now now' → TimerWatch.called w.watch.sys w'.watch.sys = some t →
        ∃ d, w.due t = some d ∧ d ≤ now := by
  -- a timer that is not due really is not armed in the heap
  have hok' : w.watch.Ok a.toAction := by
    cases a with
    | start t cb timeout repeat_ now =>
      have hrel := h.late t
      rw [hen.2.2] at hrel
      exact Option.not_isSome_iff_eq_none.mp fun hd => nomatch (rel_isSome hrel).mpr hd
    | stop t => exact hok
    | destroy t => exact hok
    | construct t => exact trivial
    | update => exact trivial
    | loop now now' => exact trivial
    | ret => exact trivial
  obtain ⟨watch, hstep, hinv, -⟩ := h.watch.step hen.1 hok'
  have hrecord : w.step a = some (w.record watch a) := by
    rw [TimerClock.step, hstep]
    rfl
  refine ⟨_, hrecord, ?_⟩
  obtain ⟨s', hrun, rfl⟩ := Option.map_eq_some_iff.mp hstep
  -- only `start` and `loop` set a deadline
  cases a with
  | construct t =>
    refine ⟨⟨hinv, h.late, ?_⟩, fun _ _ _ heq => (nomatch heq)⟩
    rw [← Option.some.inj hrun]
    exact h.repeats.setTimer fun T hT => by rw [← Option.some.inj hT]; rfl
  | destroy t =>
    refine ⟨⟨hinv, ?_, h.repeats.destroy hrun⟩, fun _ _ _ heq => (nomatch heq)⟩
    have hlate := rel_setDeadline h.late t .none
    rwa [← TimerWatch.deadline_cancel] at hlate
  | start t cb timeout repeat_ now =>
    refine ⟨⟨hinv, ?_, h.repeats.start hrun⟩, fun _ _ _ heq => (nomatch heq)⟩
    have hlate := (neverEarly_iff (toNat_start timeout now)).mpr hok
    exact rel_setDeadline (fun u => rel_later (h.late u) hen.2.1) t (.some hlate)
  | stop t =>
    refine ⟨⟨hinv, ?_, h.repeats.stop hrun⟩, fun _ _ _ heq => (nomatch heq)⟩
    have hlate := rel_setDeadline h.late t .none
    rwa [← TimerWatch.deadline_cancel] at hlate
  | update =>
    refine ⟨⟨hinv, h.late, ?_⟩, fun _ _ _ heq => (nomatch heq)⟩
    rw [← Option.some.inj hrun]
    exact h.repeats
  | ret =>
    obtain ⟨⟨frame, frames, hframes, -⟩, -⟩ := hen
    refine ⟨⟨hinv, h.late, ?_⟩, fun _ _ _ heq => (nomatch heq)⟩
    simp only [ClockAction.toAction, TimerSystem.step, hframes] at hrun
    rw [← Option.some.inj hrun]
    exact h.repeats
  | loop now now' =>
    obtain ⟨hinv', hearly⟩ := h.loop hen hok hstep hinv
    refine ⟨hinv', fun _ _ t heq hcalled => ?_⟩
    obtain ⟨rfl, rfl⟩ := ClockAction.loop.inj heq
    rw [watch_record] at hcalled
    exact hearly t hcalled

/-! ## Runs -/

/-- It holds before any timer is constructed. -/
theorem init_inv (node : HeapRef → HeapNode) : (init node).Inv :=
  ⟨TimerWatch.init_inv node, fun _ => .none, fun _ _ h => (nomatch h)⟩

/-- In a run in which every sum fits in 32 bits, and no timer armed for the time 0 is stopped,
no callback is called early, and none after its timer was stopped. -/
theorem never_early (node : HeapRef → HeapNode) (as : List ClockAction)
    (hrun : Run.Meets step (fun w a => w.Enabled a ∧ w.Ok a) (init node) as) :
    Run.Meets step Good (init node) as := by
  have hinv := init_inv node
  generalize init node = w at hrun hinv
  induction as generalizing w with
  | nil => exact trivial
  | cons a as ih =>
    obtain ⟨⟨hen, hok⟩, hrest⟩ := hrun
    obtain ⟨w', hstep, hinv', hearly⟩ := hinv.step hen hok
    rw [hstep] at hrest
    refine ⟨⟨w', hstep, hinv'.heap, hearly⟩, ?_⟩
    rw [hstep]
    exact ih w' hrest hinv'

/-- A timer for 10 ms is armed and fires 10 ms later. -/
theorem never_early_once :
    Run.Meets step Good (init TimerWatch.zeroed)
      [.construct 0, .start 0 7 10 0 100, .update, .loop 110 110, .ret] := by
  refine never_early TimerWatch.zeroed _ ⟨⟨⟨⟨nofun, rfl⟩, trivial⟩, trivial⟩,
    ⟨⟨⟨nofun, rfl⟩, Nat.zero_le _, rfl⟩, show 100 % clockRange + 10 < clockRange by decide⟩,
    ⟨⟨nofun, trivial⟩, trivial⟩,
    ⟨⟨⟨_, _, rfl, rfl⟩, Nat.le_add_right 100 10, Nat.le_refl _⟩,
      fun _ _ _ _ _ hmin htimer _ hrepeat => ?_⟩,
    ⟨⟨⟨_, _, rfl, rfl⟩, trivial⟩, trivial⟩, trivial⟩
  -- the timer is not repeated
  obtain rfl := Option.some.inj hmin
  obtain rfl := Option.some.inj htimer
  exact absurd hrepeat (by decide)

/-- A timer for 10 ms is armed 6 ms before `iclock` comes round, and fires at once. -/
theorem fires_early :
    ¬ ∀ as, Run.Meets step Enabled (init TimerWatch.zeroed) as →
      Run.Meets step Good (init TimerWatch.zeroed) as := by
  intro h
  have hgood := h [.construct 0, .start 0 7 10 0 4294967290, .update, .loop 4294967290 4294967290]
    ⟨⟨⟨nofun, rfl⟩, trivial⟩, ⟨⟨nofun, rfl⟩, Nat.zero_le _, rfl⟩, ⟨nofun, trivial⟩,
      ⟨⟨_, _, rfl, rfl⟩, Nat.le_refl _, Nat.le_refl _⟩, trivial⟩
  obtain ⟨w', hstep, -, hearly⟩ := hgood.2.2.2.1
  obtain rfl := Option.some.inj hstep
  obtain ⟨d, hd, hle⟩ := hearly _ _ 0 rfl rfl
  obtain rfl := Option.some.inj hd
  exact absurd hle (by decide)

end TimerClock

end Athena
