import Mathlib.Data.Nat.Basic
import Athena.ForStd.Run
import Athena.Native.Timer
import Athena.Spec.HeapShape

/-!
# The heap holds the armed timers

The deadlines that are pending are kept beside the system: a call of `start` makes one, and
`stop`, the destructor and the expiry of the timer end it.  As long as no armed timer is
started, and no timer with the deadline 0 is stopped or destroyed, the nodes of the heap are
the timers with a pending deadline, and each deadline that comes is the end of one of them.
-/

namespace Athena.TimerSystem

open BinaryHeap

/-! ## Operations of the heap -/

/-- `m_time` of a timer. -/
def keyOf (timers : HeapRef → Option Timer) (t : HeapRef) : Nat :=
  (timers t).elim 0 fun timer => timer.m_time.toNat

/-- The heap is a complete binary min-heap on `m_time` with these nodes, each once. -/
def HeapOf (heap : Heap) (timers : HeapRef → Option Timer) (pending : HeapRef → Prop) : Prop :=
  ∃ a n, heap.Shape a n ∧ Ordered (keyOf timers) a n ∧ ∀ t, Holds a n t ↔ pending t

/-- The comparison is that of the times, for timers that there are. -/
theorem compareFn_eq {timers : HeapRef → Option Timer} {a b : HeapRef} (ha : (timers a).isSome)
    (hb : (timers b).isSome) :
    compareFn timers a b = some (decide (keyOf timers a < keyOf timers b)) := by
  obtain ⟨timerA, hA⟩ := Option.isSome_iff_exists.mp ha
  obtain ⟨timerB, hB⟩ := Option.isSome_iff_exists.mp hb
  simp only [compareFn, keyOf, hA, hB, Option.elim_some, UInt32.lt_iff_toNat_lt]

variable {heap : Heap} {timers timers' : HeapRef → Option Timer} {pending : HeapRef → Prop}
  {t : HeapRef}

/-- A heap stays one when nothing in it changes. -/
theorem HeapOf.congr {pending' : HeapRef → Prop} (h : HeapOf heap timers pending)
    (hpending : ∀ u, pending u ↔ pending' u) (hsame : ∀ u, pending u → timers' u = timers u) :
    HeapOf heap timers' pending' := by
  obtain ⟨a, n, hshape, hord, hholds⟩ := h
  refine ⟨a, n, hshape, hord.congr fun k hk hkn => ?_, fun u => (hholds u).trans (hpending u)⟩
  rw [keyOf, keyOf, hsame _ ((hholds _).mp ⟨k, hk, hkn, rfl⟩)]

/-- A timer that is not in the heap is inserted. -/
theorem HeapOf.insert (timers' : HeapRef → Option Timer) (h : HeapOf heap timers pending)
    (ht : ¬ pending t)
    (hsame : ∀ u, u ≠ t → timers' u = timers u)
    (hlive : ∀ u, pending u ∨ u = t → (timers' u).isSome) :
    ∃ heap', heap.heapInsert t (compareFn timers') = some heap' ∧
      HeapOf heap' timers' fun u => pending u ∨ u = t := by
  have hne : ∀ u, pending u → u ≠ t := fun u hu heq => ht (heq ▸ hu)
  obtain ⟨a, n, hshape, hord, hholds⟩ := h.congr (fun _ => Iff.rfl) fun u hu => hsame u (hne u hu)
  have hcmp : ∀ y z, Holds a n y ∨ y = t → Holds a n z ∨ z = t →
      compareFn timers' y z = some (decide (keyOf timers' y < keyOf timers' z)) := by
    intro y z hy hz
    rw [hholds] at hy hz
    exact compareFn_eq (hlive y hy) (hlive z hz)
  obtain ⟨heap', a', hrun, hshape', hord', hholds'⟩ :=
    Heap.heapInsert_spec hshape hord (by rwa [hholds]) hcmp
  refine ⟨heap', hrun, a', n + 1, hshape', hord', fun u => ?_⟩
  rw [hholds', hholds]

/-- A timer is removed; what its `m_time` has become does not matter. -/
theorem HeapOf.remove (timers' : HeapRef → Option Timer) (h : HeapOf heap timers pending)
    (ht : pending t)
    (hsame : ∀ u, u ≠ t → timers' u = timers u)
    (hlive : ∀ u, pending u → u ≠ t → (timers' u).isSome) :
    ∃ heap', heap.heapRemove t (compareFn timers') = some heap' ∧
      HeapOf heap' timers' fun u => pending u ∧ u ≠ t := by
  obtain ⟨a, n, hshape, hord, hholds⟩ := h
  obtain ⟨n, rfl⟩ : ∃ m, n = m + 1 := by
    obtain ⟨k, hk, hkn, -⟩ := (hholds t).mpr ht
    exact ⟨n - 1, by omega⟩
  -- only the time of the timer that is removed may have changed
  have hkey : ∀ u, u ≠ t → keyOf timers' u = keyOf timers u := by
    intro u hu
    rw [keyOf, keyOf, hsame u hu]
  have hcmp : ∀ y z, Holds a (n + 1) y → y ≠ t → Holds a (n + 1) z → z ≠ t →
      compareFn timers' y z = some (decide (keyOf timers y < keyOf timers z)) := by
    intro y z hy hyt hz hzt
    rw [compareFn_eq (hlive y ((hholds y).mp hy) hyt) (hlive z ((hholds z).mp hz) hzt),
      hkey y hyt, hkey z hzt]
  obtain ⟨heap', a', hrun, hshape', hord', hholds'⟩ :=
    Heap.heapRemove_spec hshape hord ((hholds t).mpr ht) hcmp
  have hpending : ∀ u, Holds a' n u ↔ pending u ∧ u ≠ t := by
    intro u
    rw [hholds', hholds]
  refine ⟨heap', hrun, a', n, hshape', hord'.congr fun k hk hkn => ?_, hpending⟩
  exact hkey _ ((hpending _).mp ⟨k, hk, hkn, rfl⟩).2

/-- The root of the heap is one of the timers with the least `m_time`. -/
theorem HeapOf.heapMin (h : HeapOf heap timers pending) :
    (heap.heapMin = none ∧ ∀ u, ¬ pending u) ∨
      ∃ t, heap.heapMin = some t ∧ pending t ∧
        ∀ u, pending u → keyOf timers t ≤ keyOf timers u := by
  obtain ⟨a, n, hshape, hord, hholds⟩ := h
  by_cases hn : n = 0
  · refine .inl ⟨?_, fun u hu => ?_⟩
    · rw [Heap.heapMin, hshape.min_eq, Heap.slot_eq_none a (.inr (by omega))]
    · obtain ⟨k, hk, hkn, -⟩ := (hholds u).mpr hu
      omega
  · refine .inr ⟨a 1, ?_, (hholds _).mp ⟨1, by omega, by omega, rfl⟩, fun u hu => ?_⟩
    · rw [Heap.heapMin, hshape.min_eq, Heap.slot_eq a (by omega) (by omega)]
    · obtain ⟨k, hk, hkn, rfl⟩ := (hholds u).mpr hu
      exact hord.root_le hk hkn

/-- A heap of more timers has counted more nodes. -/
theorem HeapOf.nelts_le {heap' : Heap} {pending' : HeapRef → Prop} (h : HeapOf heap timers pending)
    (h' : HeapOf heap' timers' pending') (hle : ∀ u, pending u → pending' u) :
    heap.nelts ≤ heap'.nelts := by
  obtain ⟨a, n, hshape, -, hholds⟩ := h
  obtain ⟨a', n', hshape', -, hholds'⟩ := h'
  rw [hshape.nelts_eq, hshape'.nelts_eq]
  refine hshape.distinct.le_of_holds hshape'.distinct fun u hu => ?_
  exact (hholds' u).mpr (hle u ((hholds u).mp hu))

/-- A heap of more timers has a larger count. -/
theorem HeapOf.nelts_lt {heap' : Heap} {pending' : HeapRef → Prop} (h : HeapOf heap timers pending)
    (h' : HeapOf heap' timers' pending') (hle : ∀ u, pending u → pending' u)
    (ht' : pending' t) (ht : ¬ pending t) : heap.nelts < heap'.nelts := by
  obtain ⟨a, n, hshape, -, hholds⟩ := h
  obtain ⟨a', n', hshape', -, hholds'⟩ := h'
  rw [hshape.nelts_eq, hshape'.nelts_eq]
  refine hshape.distinct.lt_of_holds hshape'.distinct (fun u hu => ?_) ((hholds' t).mpr ht')
    (by rwa [hholds])
  exact (hholds' u).mpr (hle u ((hholds u).mp hu))

/-! ## Deadlines -/

/-- The timer that is written, -/
theorem setTimer_self (timers : HeapRef → Option Timer) (t : HeapRef) (timer : Option Timer) :
    setTimer timers t timer t = timer := if_pos rfl

/-- and the others, which stay. -/
theorem setTimer_of_ne {t u : HeapRef} (timer : Option Timer) (h : u ≠ t) :
    setTimer timers t timer u = timers u := if_neg h

/-- The deadline of `t` becomes `d`. -/
def setDeadline {δ : Type} (deadline : HeapRef → Option δ) (t : HeapRef) (d : Option δ) :
    HeapRef → Option δ :=
  fun u => if u = t then d else deadline u

/-- The deadline that is set, -/
theorem setDeadline_self {δ : Type} (deadline : HeapRef → Option δ) (t : HeapRef)
    (d : Option δ) : setDeadline deadline t d t = d := if_pos rfl

/-- and the others, which stay. -/
theorem setDeadline_of_ne {δ : Type} {deadline : HeapRef → Option δ} {t u : HeapRef}
    (d : Option δ) (h : u ≠ t) : setDeadline deadline t d u = deadline u := if_neg h

/-- The timers with a pending deadline are those in the heap and those with an `m_time`. -/
structure Armed (s : TimerSystem) (deadline : HeapRef → Option UInt32) : Prop where
  heap : HeapOf s.gRootHeap s.timers fun t => (deadline t).isSome
  m_time_eq : ∀ t d, deadline t = some d → ∃ timer, s.timers t = some timer ∧ timer.m_time = d
  idle : ∀ t timer, s.timers t = some timer → deadline t = none → timer.m_time = 0

/-- In a new system nothing is armed. -/
theorem init_armed (node : HeapRef → HeapNode) : Armed (init node) fun _ => none := by
  refine ⟨⟨fun _ => 0, 0, ⟨rfl, rfl, ?_, ?_, ?_, ?_⟩, ?_, ?_⟩, ?_, ?_⟩
  · intro k hk hk0
    omega
  · intro k hk hk0
    omega
  · intro k hk hk0
    omega
  · intro j k hj hj0
    omega
  · intro k hk hk0
    omega
  · intro t
    refine ⟨fun ⟨k, hk, hk0, _⟩ => ?_, nofun⟩
    omega
  · exact fun t d h => (nomatch h)
  · exact fun t timer h => (nomatch h)

variable {s : TimerSystem} {deadline : HeapRef → Option UInt32}

/-- A timer with a deadline exists. -/
theorem Armed.live (h : Armed s deadline) {u : HeapRef} (hu : (deadline u).isSome) :
    (s.timers u).isSome := by
  obtain ⟨d, hd⟩ := Option.isSome_iff_exists.mp hu
  obtain ⟨timer, htimer, -⟩ := h.m_time_eq u d hd
  exact Option.isSome_of_eq_some htimer

/-- If its deadline is not 0, a timer is armed exactly if its `m_time` is not 0. -/
theorem Armed.m_time_ne {timer : Timer} (h : Armed s deadline) (ht : s.timers t = some timer)
    (hzero : deadline t ≠ some 0) : timer.m_time ≠ 0 ↔ (deadline t).isSome := by
  cases hd : deadline t with
  | none => exact ⟨fun hne => absurd (h.idle t timer ht hd) hne, nofun⟩
  | some d =>
    obtain ⟨timer', ht', hm⟩ := h.m_time_eq t d hd
    obtain rfl := Option.some.inj (ht.symm.trans ht')
    refine ⟨fun _ => rfl, fun _ hm0 => hzero ?_⟩
    rw [hd, ← hm, hm0]

/-- A timer without a deadline has none to give up. -/
theorem setDeadline_none (hfree : deadline t = none) : setDeadline deadline t none = deadline := by
  funext u
  by_cases hut : u = t
  · rw [hut, setDeadline_self, hfree]
  · exact setDeadline_of_ne none hut

/-- One timer changes, with its place in the heap. -/
theorem Armed.update {d : Option UInt32} {timer : Option Timer} {heap' : Heap}
    (h : Armed s deadline)
    (hheap : HeapOf heap' (setTimer s.timers t timer) fun u => (setDeadline deadline t d u).isSome)
    (htimer : ∀ e, d = some e → ∃ T, timer = some T ∧ T.m_time = e)
    (hidle : ∀ T, timer = some T → d = none → T.m_time = 0) :
    Armed { s with gRootHeap := heap', timers := setTimer s.timers t timer }
      (setDeadline deadline t d) where
  heap := hheap
  m_time_eq u e hu := by
    -- the timer itself, or another one
    by_cases hut : u = t
    · rw [hut, setDeadline_self] at hu
      obtain ⟨T, hT, hm⟩ := htimer e hu
      exact ⟨T, by dsimp only; rw [hut, setTimer_self, hT], hm⟩
    · rw [setDeadline_of_ne d hut] at hu
      obtain ⟨T, hT, hm⟩ := h.m_time_eq u e hu
      exact ⟨T, by dsimp only; rw [setTimer_of_ne timer hut, hT], hm⟩
  idle u T hu hd := by
    dsimp only at hu
    by_cases hut : u = t
    · rw [hut, setTimer_self] at hu
      rw [hut, setDeadline_self] at hd
      exact hidle T hu hd
    · rw [setTimer_of_ne timer hut] at hu
      rw [setDeadline_of_ne d hut] at hd
      exact h.idle u T hu hd

/-- With the deadline of `t`, the timers are the others and `t`. -/
theorem isSome_setDeadline_some (e : UInt32) (u : HeapRef) :
    ((deadline u).isSome ∨ u = t) ↔ (setDeadline deadline t (some e) u).isSome := by
  by_cases hut : u = t
  · rw [hut, setDeadline_self]
    exact ⟨fun _ => rfl, fun _ => .inr rfl⟩
  · rw [setDeadline_of_ne _ hut]
    exact ⟨fun hu => hu.resolve_right hut, .inl⟩

/-- Without its deadline a timer is no longer one of those with a deadline. -/
theorem isSome_setDeadline_none (u : HeapRef) :
    ((deadline u).isSome ∧ u ≠ t) ↔ (setDeadline deadline t none u).isSome := by
  by_cases hut : u = t
  · rw [hut, setDeadline_self]
    exact ⟨fun hu => absurd rfl hu.2, nofun⟩
  · rw [setDeadline_of_ne _ hut]
    exact ⟨fun hu => hu.1, fun hu => ⟨hu, hut⟩⟩

/-- The node of `t` leaves the heap. -/
theorem Armed.remove (h : Armed s deadline) (ht : (deadline t).isSome) (timer : Option Timer) :
    ∃ heap', s.gRootHeap.heapRemove t (compareFn (setTimer s.timers t timer)) = some heap' ∧
      HeapOf heap' (setTimer s.timers t timer) fun u => (setDeadline deadline t none u).isSome := by
  obtain ⟨heap', hrun, hheap⟩ := h.heap.remove (setTimer s.timers t timer) ht
    (fun u hu => setTimer_of_ne timer hu)
    (fun u hu hut => by rw [setTimer_of_ne timer hut]; exact h.live hu)
  exact ⟨heap', hrun, hheap.congr isSome_setDeadline_none fun _ _ => rfl⟩

/-! ## Calls -/

/-- A new timer is not armed. -/
theorem Armed.construct (h : Armed s deadline) (ht : s.timers t = none) :
    ∃ s', s.construct t = some s' ∧ Armed s' deadline ∧ s'.frames = s.frames := by
  -- a deadline would belong to a timer that there is
  have hnone : deadline t = none := by
    cases hd : deadline t with
    | none => rfl
    | some d =>
      have hlive := h.live (u := t) (by rw [hd]; rfl)
      rw [ht] at hlive
      exact nomatch hlive
  have hsame := setDeadline_none hnone
  refine ⟨_, rfl, ?_, rfl⟩
  have hheap : HeapOf s.gRootHeap (setTimer s.timers t (some ⟨0, 0, none⟩)) fun u =>
      (setDeadline deadline t none u).isSome := by
    rw [hsame]
    refine h.heap.congr (fun _ => Iff.rfl) fun u hu => setTimer_of_ne _ fun hut => ?_
    rw [hut, hnone] at hu
    exact nomatch hu
  have hupdate := h.update hheap (fun e he => (nomatch he))
    fun T hT _ => by rw [← Option.some.inj hT]
  rwa [hsame] at hupdate

/-- A timer that is not armed gets its deadline. -/
theorem Armed.start (cb : TimerCallback) (repeat_ : UInt64) (h : Armed s deadline)
    (ht : (s.timers t).isSome) (hfree : deadline t = none) (timeout : UInt64) (iclock : UInt32) :
    ∃ s', s.start t cb timeout repeat_ iclock = some s' ∧
      Armed s' (setDeadline deadline t (some (timeout + iclock.toUInt64).toUInt32)) ∧
      s'.frames = s.frames := by
  obtain ⟨timer, htimer⟩ := Option.isSome_iff_exists.mp ht
  rw [TimerSystem.start, htimer]
  dsimp only
  generalize hT : some (Timer.mk (timeout + iclock.toUInt64).toUInt32 repeat_.toUInt32 (some cb)) = T
  obtain ⟨heap', hrun, hheap⟩ := h.heap.insert (t := t) (setTimer s.timers t T)
    (by rw [hfree]; exact nofun) (fun u hu => setTimer_of_ne T hu) (fun u hu => by
      by_cases hut : u = t
      · rw [hut, setTimer_self, ← hT]
        rfl
      · rw [setTimer_of_ne T hut]
        exact h.live (hu.resolve_right hut))
  rw [hrun]
  refine ⟨_, rfl, h.update (hheap.congr (isSome_setDeadline_some _) fun _ _ => rfl)
    (fun e he => ⟨_, hT.symm, Option.some.inj he⟩)
    fun _ _ hnone => (nomatch hnone), rfl⟩

/-- A stopped timer loses its deadline. -/
theorem Armed.stop (h : Armed s deadline) (ht : (s.timers t).isSome)
    (hne : deadline t ≠ some 0) :
    ∃ s', s.stop t = some s' ∧ Armed s' (setDeadline deadline t none) ∧ s'.frames = s.frames := by
  obtain ⟨timer, htimer⟩ := Option.isSome_iff_exists.mp ht
  rw [TimerSystem.stop, htimer]
  dsimp only
  by_cases hzero : timer.m_time = 0
  · rw [if_pos hzero]
    have hfree : deadline t = none := by
      cases hd : deadline t with
      | none => rfl
      | some d => exact absurd hzero ((h.m_time_ne htimer hne).mpr (by rw [hd]; rfl))
    rw [setDeadline_none hfree]
    exact ⟨s, rfl, h, rfl⟩
  · rw [if_neg hzero]
    obtain ⟨heap', hrun, hheap⟩ := h.remove ((h.m_time_ne htimer hne).mp hzero)
      (some { timer with m_time := 0 })
    rw [hrun]
    exact ⟨_, rfl, h.update hheap (fun e he => (nomatch he))
      (fun T hT _ => by rw [← Option.some.inj hT]), rfl⟩

/-- A timer that is destroyed loses its deadline. -/
theorem Armed.destroy (h : Armed s deadline) (ht : (s.timers t).isSome)
    (hne : deadline t ≠ some 0) :
    ∃ s', s.destroy t = some s' ∧ Armed s' (setDeadline deadline t none) ∧
      s'.frames = s.frames := by
  obtain ⟨timer, htimer⟩ := Option.isSome_iff_exists.mp ht
  rw [TimerSystem.destroy, htimer]
  dsimp only
  -- a timer without `m_time` is in no heap, and has no deadline to give up
  by_cases hzero : timer.m_time = 0
  · rw [if_pos hzero]
    have hfree : deadline t = none := by
      cases hd : deadline t with
      | none => rfl
      | some d => exact absurd hzero ((h.m_time_ne htimer hne).mpr (by rw [hd]; rfl))
    refine ⟨_, rfl, h.update ?_ (fun e he => (nomatch he)) (fun T hT => (nomatch hT)), rfl⟩
    rw [setDeadline_none hfree]
    refine h.heap.congr (fun _ => Iff.rfl) fun u hu => setTimer_of_ne _ fun hut => ?_
    rw [hut, hfree] at hu
    exact nomatch hu
  · rw [if_neg hzero]
    obtain ⟨heap', hrun, hheap⟩ := h.remove ((h.m_time_ne htimer hne).mp hzero) none
    rw [hrun]
    exact ⟨_, rfl, h.update hheap (fun e he => (nomatch he)) (fun T hT => (nomatch hT)), rfl⟩

/-- What a timer that expires is armed with again. -/
def rearm (timer : Timer) (iclock' : UInt32) : Option UInt32 :=
  if timer.m_repeat > 0 then some (timer.m_repeat + iclock') else none

/-- A timer that expires loses its deadline, and gets another if it repeats. -/
theorem Armed.expire (h : Armed s deadline) {timer : Timer} (ht : s.timers t = some timer)
    (hpending : (deadline t).isSome) (iclock' : UInt32) :
    ∃ s', s.expire t timer iclock' = some s' ∧
      Armed s' (setDeadline deadline t (rearm timer iclock')) ∧ s'.frames = s.frames := by
  -- the timer is stored as it is, so it can be put back
  have hsame : setTimer s.timers t (some timer) = s.timers := by
    funext u
    by_cases hut : u = t
    · rw [hut, setTimer_self, ht]
    · exact setTimer_of_ne _ hut
  obtain ⟨heap₁, hremove, hheap₁⟩ := h.remove hpending (some timer)
  rw [hsame] at hremove hheap₁
  rw [TimerSystem.expire, hremove]
  dsimp only
  -- a timer that repeats goes in again at its next time
  by_cases hrepeat : timer.m_repeat > 0
  · have hrearm : rearm timer iclock' = some (timer.m_repeat + iclock') := if_pos hrepeat
    rw [hrearm, if_pos hrepeat]
    generalize hT : some { timer with m_time := timer.m_repeat + iclock' } = T
    obtain ⟨heap₂, hinsert, hheap₂⟩ := hheap₁.insert (t := t) (setTimer s.timers t T)
      (by rw [setDeadline_self]; exact nofun) (fun u hu => setTimer_of_ne T hu) (fun u hu => by
        by_cases hut : u = t
        · rw [hut, setTimer_self, ← hT]
          rfl
        · rw [setTimer_of_ne T hut]
          have hu' := hu.resolve_right hut
          rw [setDeadline_of_ne none hut] at hu'
          exact h.live hu')
    rw [hinsert]
    -- the same timers are in the heap as before
    have hagain : ∀ u, ((setDeadline deadline t none u).isSome ∨ u = t) ↔
        (setDeadline deadline t (some (timer.m_repeat + iclock')) u).isSome := by
      intro u
      rw [← isSome_setDeadline_none, ← isSome_setDeadline_some]
      by_cases hut : u = t
      · exact ⟨fun _ => .inr hut, fun _ => .inr hut⟩
      · exact ⟨fun hu => .inl (hu.resolve_right hut).1, fun hu => .inl ⟨hu.resolve_right hut, hut⟩⟩
    exact ⟨_, rfl, h.update (hheap₂.congr hagain fun _ _ => rfl)
      (fun e he => ⟨_, hT.symm, Option.some.inj he⟩) fun _ _ hnone => (nomatch hnone), rfl⟩
  -- a timer that does not repeat stays out
  · have hrearm : rearm timer iclock' = none := if_neg hrepeat
    rw [if_neg hrepeat, hrearm]
    refine ⟨_, rfl, h.update (hheap₁.congr (fun _ => Iff.rfl) fun u hu => ?_)
      (fun e he => (nomatch he)) (fun T hT _ => by rw [← Option.some.inj hT]), rfl⟩
    refine setTimer_of_ne _ fun hut => ?_
    rw [hut, setDeadline_self] at hu
    exact nomatch hu

/-- A pass through the loop: the timer with the least deadline expires if that has come, and
otherwise `update` comes back. -/
theorem Armed.loop (h : Armed s deadline) (frame : UpdateFrame) (frames : List UpdateFrame)
    (iclock iclock' : UInt32) :
    (∃ t d timer s', frame.i < 10 ∧ s.gRootHeap.heapMin = some t ∧ deadline t = some d ∧
      d ≤ iclock ∧ (∀ u e, deadline u = some e → d ≤ e) ∧ s.timers t = some timer ∧
      s.loop frame frames iclock iclock' = some s' ∧
      Armed s' (setDeadline deadline t (rearm timer iclock')) ∧
      s'.frames = { i := frame.i + 1, running := some t } :: frames) ∨
    ((frame.i < 10 → ∀ u e, deadline u = some e → iclock < e) ∧
      s.loop frame frames iclock iclock' = some { s with frames := frames }) := by
  rw [TimerSystem.loop]
  -- ten at most in one `update`
  by_cases hi : frame.i < 10
  · rw [if_pos hi]
    cases h.heap.heapMin with
    | inl hempty =>
      rw [hempty.1]
      refine .inr ⟨fun _ u e hu => ?_, rfl⟩
      exact absurd (by rw [hu]; rfl) (hempty.2 u)
    | inr hroot =>
      obtain ⟨t, hmin, hpending, hleast⟩ := hroot
      obtain ⟨d, hd⟩ := Option.isSome_iff_exists.mp hpending
      obtain ⟨timer, htimer, hm⟩ := h.m_time_eq t d hd
      rw [hmin]
      dsimp only
      rw [htimer]
      dsimp only
      -- the root has the least deadline
      have hle : ∀ u e, deadline u = some e → d ≤ e := by
        intro u e hu
        obtain ⟨timer', htimer', hm'⟩ := h.m_time_eq u e hu
        have hkey := hleast u (by rw [hu]; rfl)
        rw [keyOf, keyOf, htimer, htimer', Option.elim_some, Option.elim_some, hm, hm'] at hkey
        exact UInt32.le_iff_toNat_le.mpr hkey
      by_cases hdue : iclock ≥ timer.m_time
      · rw [if_pos hdue]
        obtain ⟨s', hrun, harmed, hframes⟩ := h.expire htimer hpending iclock'
        rw [hrun]
        exact .inl ⟨t, d, timer, _, hi, rfl, hd, hm ▸ hdue, hle, htimer, rfl,
          ⟨harmed.heap, harmed.m_time_eq, harmed.idle⟩, rfl⟩
      -- the root is not due, so no timer is
      · rw [if_neg hdue]
        refine .inr ⟨fun _ u e hu => ?_, rfl⟩
        have hlt := UInt32.not_le.mp hdue
        rw [hm] at hlt
        exact UInt32.lt_of_lt_of_le hlt (hle u e hu)
  · rw [if_neg hi]
    exact .inr ⟨fun h => absurd h hi, rfl⟩

end Athena.TimerSystem

namespace Athena

open TimerSystem

/-! ## Runs -/

/-- The system with the deadlines that are pending, and how often each timer was armed, has
expired and was cancelled. -/
structure TimerWatch where
  sys : TimerSystem
  deadline : HeapRef → Option UInt32
  armed : HeapRef → Nat
  expired : HeapRef → Nat
  cancelled : HeapRef → Nat

namespace TimerWatch

/-- No timer has been armed. -/
def init (node : HeapRef → HeapNode) : TimerWatch :=
  { sys := .init node, deadline := fun _ => none, armed := fun _ => 0, expired := fun _ => 0,
    cancelled := fun _ => 0 }

/-- One more for `t`. -/
def bump (count : HeapRef → Nat) (t : HeapRef) : HeapRef → Nat :=
  fun u => if u = t then count u + 1 else count u

/-- `t` gets a deadline. -/
def arm (w : TimerWatch) (t : HeapRef) (d : UInt32) : TimerWatch :=
  { w with deadline := setDeadline w.deadline t (some d), armed := bump w.armed t }

/-- The deadline of `t`, if it has one, is given up. -/
def cancel (w : TimerWatch) (t : HeapRef) : TimerWatch :=
  if (w.deadline t).isSome then
    { w with deadline := setDeadline w.deadline t none, cancelled := bump w.cancelled t }
  else w

/-- The deadline of `t` has come, and its callback is run. -/
def expire (w : TimerWatch) (t : HeapRef) : TimerWatch :=
  { w with deadline := setDeadline w.deadline t none, expired := bump w.expired t }

/-- The timer whose callback a pass through the loop of `update` has called. -/
def called (s s' : TimerSystem) : Option HeapRef :=
  if s'.frames.length = s.frames.length then s'.frames.head?.bind UpdateFrame.running else none

/-- What a step that led to `s'` does to the deadlines. -/
def record (w : TimerWatch) (s' : TimerSystem) : TimerAction → TimerWatch
  | .start t _ timeout _ iclock =>
    { w.arm t (timeout + iclock.toUInt64).toUInt32 with sys := s' }
  | .stop t => { w.cancel t with sys := s' }
  | .destroy t => { w.cancel t with sys := s' }
  | .loop _ iclock' =>
    match called w.sys s' with
    | none => { w with sys := s' }
    | some t =>
      match (w.sys.timers t).bind fun timer => rearm timer iclock' with
      | none => { w.expire t with sys := s' }
      | some d => { (w.expire t).arm t d with sys := s' }
  | _ => { w with sys := s' }

/-- A step of the system, with what it does to the deadlines. -/
def step (w : TimerWatch) (a : TimerAction) : Option TimerWatch :=
  (w.sys.step a).map fun s' => w.record s' a

/-- Other code than that of `update` is running. -/
def Outside (s : TimerSystem) : Prop :=
  ∀ frame ∈ s.frames.head?, frame.running.isSome

/-- Without a call of `update` other code is running. -/
theorem outside_of_nil {s : TimerSystem} (h : s.frames = []) : Outside s := by
  intro frame hframe
  rw [h] at hframe
  cases hframe

/-- What can happen next: calls for timers that there are, and in `update` the next pass. -/
def Enabled (w : TimerWatch) : TimerAction → Prop
  | .construct t => Outside w.sys ∧ w.sys.timers t = none
  | .destroy t => Outside w.sys ∧ (w.sys.timers t).isSome
  | .start t _ _ _ _ => Outside w.sys ∧ (w.sys.timers t).isSome
  | .stop t => Outside w.sys ∧ (w.sys.timers t).isSome
  | .update => Outside w.sys
  | .loop _ _ => ∃ frame frames, w.sys.frames = frame :: frames ∧ frame.running = none
  | .ret => ∃ frame frames, w.sys.frames = frame :: frames ∧ frame.running.isSome

/-- No timer is started that is armed, and none is stopped or destroyed that is armed for the
time 0. -/
def Ok (w : TimerWatch) : TimerAction → Prop
  | .start t _ _ _ _ => w.deadline t = none
  | .stop t => w.deadline t ≠ some 0
  | .destroy t => w.deadline t ≠ some 0
  | _ => True

/-- The number of pending deadlines of a timer. -/
def pendingCount (d : Option UInt32) : Nat := d.elim 0 fun _ => 1

/-- Every deadline was cancelled, has expired or is pending. -/
def Balanced (w : TimerWatch) : Prop :=
  ∀ t, w.armed t = w.expired t + w.cancelled t + pendingCount (w.deadline t)

/-- The heap is a complete binary min-heap on `m_time`, its nodes are the timers with a pending
deadline, each once, and no deadline is lost or comes twice. -/
structure Intact (w : TimerWatch) : Prop where
  heap : HeapOf w.sys.gRootHeap w.sys.timers fun t => (w.deadline t).isSome
  m_time_eq : ∀ t d, w.deadline t = some d →
    ∃ timer, w.sys.timers t = some timer ∧ timer.m_time = d
  balanced : w.Balanced

/-- A pass through the loop calls the callback of a timer whose deadline has come and is the
least; it calls none, and comes back, only when none is due or ten have been called. -/
def Calls (w w' : TimerWatch) (iclock : UInt32) : Prop :=
  ∀ frame frames, w.sys.frames = frame :: frames →
    (∃ t d, w.deadline t = some d ∧ d ≤ iclock ∧ (∀ u e, w.deadline u = some e → d ≤ e) ∧
      w'.sys.frames = { i := frame.i + 1, running := some t } :: frames ∧
      w'.expired = bump w.expired t) ∨
    (w'.sys.frames = frames ∧ w'.expired = w.expired ∧
      (frame.i < 10 → ∀ u e, w.deadline u = some e → iclock < e))

/-- The step is performed, keeps the heap intact and calls what is due. -/
def Good (w : TimerWatch) (a : TimerAction) : Prop :=
  ∃ w', w.step a = some w' ∧ w'.Intact ∧
    ∀ iclock iclock', a = .loop iclock iclock' → Calls w w' iclock

/-- What holds between two steps. -/
structure Inv (w : TimerWatch) : Prop where
  armed : Armed w.sys w.deadline
  balanced : w.Balanced

/-- What holds between two steps is what is wanted of a state. -/
theorem Inv.intact {w : TimerWatch} (h : w.Inv) : w.Intact :=
  ⟨h.armed.heap, h.armed.m_time_eq, h.balanced⟩

/-! ## One step -/

/-- The count of `t` goes up by one, -/
theorem bump_self (count : HeapRef → Nat) (t : HeapRef) : bump count t t = count t + 1 := if_pos rfl

/-- and the others stay. -/
theorem bump_of_ne {count : HeapRef → Nat} {t u : HeapRef} (h : u ≠ t) :
    bump count t u = count u := if_neg h

/-- A deadline is made for a timer that has none. -/
theorem Balanced.arm {w : TimerWatch} {t : HeapRef} (h : w.Balanced) (hfree : w.deadline t = none)
    (d : UInt32) : (w.arm t d).Balanced := by
  intro u
  have hu := h u
  simp only [TimerWatch.arm]
  by_cases hut : u = t
  · rw [hut, bump_self, setDeadline_self]
    rw [hut, hfree] at hu
    exact congrArg (· + 1) hu
  · rw [bump_of_ne hut, setDeadline_of_ne _ hut]
    exact hu

/-- A deadline that expires is no longer pending. -/
theorem Balanced.expire {w : TimerWatch} {t : HeapRef} {d : UInt32} (h : w.Balanced)
    (hpending : w.deadline t = some d) : (w.expire t).Balanced := by
  intro u
  have hu := h u
  simp only [TimerWatch.expire]
  by_cases hut : u = t
  · rw [hut, bump_self, setDeadline_self]
    rw [hut, hpending] at hu
    simp only [pendingCount, Option.elim_some, Option.elim_none] at hu ⊢
    omega
  · rw [bump_of_ne hut, setDeadline_of_ne _ hut]
    exact hu

/-- A deadline that is cancelled is no longer pending. -/
theorem Balanced.cancel {w : TimerWatch} (h : w.Balanced) (t : HeapRef) :
    (w.cancel t).Balanced := by
  intro u
  have hu := h u
  rw [TimerWatch.cancel]
  split
  · next hpending =>
    obtain ⟨d, hd⟩ := Option.isSome_iff_exists.mp hpending
    dsimp only
    by_cases hut : u = t
    · rw [hut, bump_self, setDeadline_self]
      rw [hut, hd] at hu
      simp only [pendingCount, Option.elim_some, Option.elim_none] at hu ⊢
      omega
    · rw [bump_of_ne hut, setDeadline_of_ne _ hut]
      exact hu
  · exact hu

/-- After `cancel` a timer has no deadline. -/
theorem deadline_cancel (w : TimerWatch) (t : HeapRef) :
    (w.cancel t).deadline = setDeadline w.deadline t none := by
  rw [cancel]
  split
  · rfl
  · next hnone =>
    exact (setDeadline_none (Option.not_isSome_iff_eq_none.mp hnone)).symm

/-- The callback of `t` has been called, and `t` is armed again if it is a repeating timer. -/
theorem deadline_record_loop {w : TimerWatch} {s' : TimerSystem} {t : HeapRef} {timer : Timer}
    (iclock iclock' : UInt32) (hcalled : called w.sys s' = some t)
    (htimer : w.sys.timers t = some timer) :
    (w.record s' (.loop iclock iclock')).deadline =
      setDeadline w.deadline t (rearm timer iclock') := by
  simp only [record, hcalled, htimer, Option.bind_some]
  cases rearm timer iclock' with
  | none => rfl
  | some e =>
    funext u
    simp only [arm, expire]
    by_cases hut : u = t
    · rw [hut, setDeadline_self, setDeadline_self]
    · rw [setDeadline_of_ne _ hut, setDeadline_of_ne _ hut, setDeadline_of_ne _ hut]

/-- The record is of the system as it is after the step. -/
@[simp] theorem sys_record (w : TimerWatch) (s' : TimerSystem) (a : TimerAction) :
    (w.record s' a).sys = s' := by
  cases a with
  | loop iclock iclock' =>
    rw [record]
    split
    · rfl
    · split <;> rfl
  | _ => rfl

/-- A pass that goes on has called the timer of its frame. -/
theorem called_of_frames {s s' : TimerSystem} {frame frame' : UpdateFrame}
    {frames : List UpdateFrame} (hframes : s.frames = frame :: frames)
    (hframes' : s'.frames = frame' :: frames) : called s s' = frame'.running := by
  rw [called, hframes, hframes']
  exact if_pos rfl

/-- A pass that comes back has called none. -/
theorem called_of_back {s s' : TimerSystem} {frame : UpdateFrame} {frames : List UpdateFrame}
    (hframes : s.frames = frame :: frames) (hframes' : s'.frames = frames) :
    called s s' = none := by
  rw [called, hframes, hframes', List.length_cons]
  refine if_neg ?_
  omega

/-- A pass through the loop. -/
theorem Inv.loop {w : TimerWatch} {iclock iclock' : UInt32} (h : w.Inv)
    (hen : w.Enabled (.loop iclock iclock')) :
    ∃ w', w.step (.loop iclock iclock') = some w' ∧ w'.Inv ∧ Calls w w' iclock := by
  obtain ⟨frame, frames, hframes, -⟩ := hen
  have hstep : ∀ s', w.sys.loop frame frames iclock iclock' = some s' →
      w.step (.loop iclock iclock') = some (w.record s' (.loop iclock iclock')) := by
    intro s' hrun
    rw [TimerWatch.step, TimerSystem.step, hframes]
    dsimp only
    rw [hrun]
    rfl
  -- by what `loop` does: a callback, or the way back
  cases h.armed.loop frame frames iclock iclock' with
  | inl hfires =>
    obtain ⟨t, d, timer, s', hi, hmin, hd, hdue, hleast, htimer, hrun, harmed, hframes'⟩ := hfires
    have hcalled : called w.sys s' = some t := called_of_frames hframes hframes'
    rw [← deadline_record_loop iclock iclock' hcalled htimer] at harmed
    -- the deadline that is recorded is that of the heap
    refine ⟨_, hstep s' hrun, ?_, fun frame' frames' hframes'' => .inl ⟨t, d, hd, hdue, hleast, ?_⟩⟩
    · have hexpire := h.balanced.expire hd
      simp only [record, hcalled, htimer, Option.bind_some] at harmed ⊢
      cases hrearm : rearm timer iclock' with
      | none =>
        rw [hrearm] at harmed
        exact ⟨harmed, hexpire⟩
      | some e =>
        rw [hrearm] at harmed
        exact ⟨harmed, hexpire.arm (setDeadline_self _ t none) e⟩
    · obtain ⟨rfl, rfl⟩ := List.cons.inj (hframes.symm.trans hframes'')
      simp only [record, hcalled, htimer, Option.bind_some]
      cases rearm timer iclock' with
      | none => exact ⟨hframes', rfl⟩
      | some e => exact ⟨hframes', rfl⟩
  | inr hback =>
    obtain ⟨hnone, hrun⟩ := hback
    have hcalled : called w.sys { w.sys with frames := frames } = none := called_of_back hframes rfl
    refine ⟨_, hstep _ hrun, ?_, fun frame' frames' hframes'' => .inr ?_⟩
    · simp only [record, hcalled]
      exact ⟨⟨h.armed.heap, h.armed.m_time_eq, h.armed.idle⟩, h.balanced⟩
    · obtain ⟨rfl, rfl⟩ := List.cons.inj (hframes.symm.trans hframes'')
      simp only [record, hcalled]
      exact ⟨trivial, trivial, hnone⟩

/-- Every step that can happen and meets the condition is performed, and keeps the invariant. -/
theorem Inv.step {w : TimerWatch} {a : TimerAction} (h : w.Inv) (hen : w.Enabled a)
    (hok : w.Ok a) : ∃ w', w.step a = some w' ∧ w'.Inv ∧
      ∀ iclock iclock', a = .loop iclock iclock' → Calls w w' iclock := by
  -- the record follows each step that the system makes
  have hstep : ∀ s', w.sys.step a = some s' → w.step a = some (w.record s' a) := by
    intro s' hrun
    rw [TimerWatch.step, hrun]
    rfl
  cases a with
  | construct t =>
    obtain ⟨s', hrun, harmed, -⟩ := h.armed.construct hen.2
    exact ⟨_, hstep s' hrun, ⟨harmed, h.balanced⟩, fun _ _ heq => (nomatch heq)⟩
  | destroy t =>
    obtain ⟨s', hrun, harmed, -⟩ := h.armed.destroy hen.2 hok
    rw [← deadline_cancel] at harmed
    exact ⟨_, hstep s' hrun, ⟨harmed, h.balanced.cancel t⟩, fun _ _ heq => (nomatch heq)⟩
  | start t cb timeout repeat_ iclock =>
    obtain ⟨s', hrun, harmed, -⟩ := h.armed.start cb repeat_ hen.2 hok timeout iclock
    exact ⟨_, hstep s' hrun, ⟨harmed, h.balanced.arm hok _⟩, fun _ _ heq => (nomatch heq)⟩
  | stop t =>
    obtain ⟨s', hrun, harmed, -⟩ := h.armed.stop hen.2 hok
    rw [← deadline_cancel] at harmed
    exact ⟨_, hstep s' hrun, ⟨harmed, h.balanced.cancel t⟩, fun _ _ heq => (nomatch heq)⟩
  | update =>
    exact ⟨_, hstep _ rfl,
      ⟨⟨h.armed.heap, h.armed.m_time_eq, h.armed.idle⟩, h.balanced⟩,
      fun _ _ heq => (nomatch heq)⟩
  | ret =>
    obtain ⟨frame, frames, hframes, -⟩ := hen
    refine ⟨_, hstep _ (by rw [TimerSystem.step, hframes]), ?_, fun _ _ heq => (nomatch heq)⟩
    exact ⟨⟨h.armed.heap, h.armed.m_time_eq, h.armed.idle⟩, h.balanced⟩
  | loop iclock iclock' =>
    obtain ⟨w', hrun, hinv, hcalls⟩ := h.loop hen
    refine ⟨w', hrun, hinv, fun _ _ heq => ?_⟩
    obtain ⟨rfl, rfl⟩ := TimerAction.loop.inj heq
    exact hcalls

/-- A timer is not given up while its node is in the heap. -/
theorem not_heapOf_cancel {w : TimerWatch} {s' : TimerSystem} {t : HeapRef}
    (h : Armed w.sys w.deadline) (ht : (w.deadline t).isSome)
    (hheap : s'.gRootHeap = w.sys.gRootHeap) :
    ¬ HeapOf s'.gRootHeap s'.timers fun u => ((w.cancel t).deadline u).isSome := by
  intro h'
  rw [hheap, deadline_cancel] at h'
  have hlt := h'.nelts_lt h.heap (fun u hu => ((isSome_setDeadline_none u).mpr hu).1) ht (by
    rw [setDeadline_self]
    exact nofun)
  omega

/-- A step that can happen and breaks the condition is not good. -/
theorem Inv.not_good {w : TimerWatch} {a : TimerAction} (h : w.Inv) (hok : ¬ w.Ok a) :
    ¬ w.Good a := by
  intro ⟨w', hstep, hintact, _⟩
  obtain ⟨s', hrun, rfl⟩ := Option.map_eq_some_iff.mp hstep
  have hheap := hintact.heap
  cases a with
  | construct t => exact hok trivial
  | update => exact hok trivial
  | loop iclock iclock' => exact hok trivial
  | ret => exact hok trivial
  | start t cb timeout repeat_ iclock =>
    -- the node is counted a second time, and no timer is new
    obtain ⟨d, hd⟩ := Option.ne_none_iff_exists'.mp hok
    obtain ⟨timer, htimer, -⟩ := h.armed.m_time_eq t d hd
    rw [TimerSystem.step, TimerSystem.start, htimer] at hrun
    obtain ⟨heap', hinsert, rfl⟩ := Option.map_eq_some_iff.mp hrun
    have hle := hheap.nelts_le h.armed.heap fun u hu => by
      cases (isSome_setDeadline_some _ u).mpr hu with
      | inl hu => exact hu
      | inr hut => rw [hut, hd]; rfl
    have hnelts := Heap.nelts_heapInsert hinsert
    dsimp only [record] at hle
    omega
  | stop t =>
    have hzero : w.deadline t = some 0 := Classical.not_not.mp hok
    obtain ⟨timer, htimer, hm⟩ := h.armed.m_time_eq t 0 hzero
    rw [TimerSystem.step, TimerSystem.stop, htimer] at hrun
    dsimp only at hrun
    rw [if_pos hm] at hrun
    exact not_heapOf_cancel h.armed (by rw [hzero]; rfl)
      (by rw [← Option.some.inj hrun]; rfl) hheap
  | destroy t =>
    have hzero : w.deadline t = some 0 := Classical.not_not.mp hok
    obtain ⟨timer, htimer, hm⟩ := h.armed.m_time_eq t 0 hzero
    rw [TimerSystem.step, TimerSystem.destroy, htimer] at hrun
    dsimp only at hrun
    rw [if_pos hm] at hrun
    exact not_heapOf_cancel h.armed (by rw [hzero]; rfl)
      (by rw [← Option.some.inj hrun]; rfl) hheap

/-! ## Runs -/

/-- A new system is in order. -/
theorem init_inv (node : HeapRef → HeapNode) : (init node).Inv :=
  ⟨init_armed node, fun _ => rfl⟩

/-- In a run of steps that can happen, every step is good exactly if no armed timer is started
and none that is armed for the time 0 is stopped or destroyed. -/
theorem heap_intact (node : HeapRef → HeapNode) (as : List TimerAction)
    (hen : Run.Meets step Enabled (init node) as) :
    Run.Meets step Good (init node) as ↔ Run.Meets step Ok (init node) as := by
  have hinv := init_inv node
  generalize init node = w at hen hinv
  induction as generalizing w with
  | nil => exact Iff.rfl
  | cons a as ih =>
    by_cases hok : w.Ok a
    · obtain ⟨w', hstep, hinv', hcalls⟩ := hinv.step hen.1 hok
      have hrest := hen.2
      simp only [Run.Meets, hstep] at hrest ⊢
      have hgood : w.Good a := ⟨w', hstep, hinv'.intact, hcalls⟩
      exact ⟨fun h => ⟨hok, (ih w' hrest hinv').mp h.2⟩,
        fun h => ⟨hgood, (ih w' hrest hinv').mpr h.2⟩⟩
    · exact ⟨fun h => absurd h.1 (hinv.not_good hok), fun h => absurd h.1 hok⟩

/-- Nodes without links. -/
def zeroed (_ : HeapRef) : HeapNode := { left := none, right := none, parent := none }

/-- A timer is started, `update` calls its callback, which starts it again. -/
theorem heap_intact_restart :
    Run.Meets step Good (init zeroed) [.construct 0, .start 0 7 5 0 100, .update, .loop 105 105,
        .start 0 7 5 0 105, .ret, .loop 105 105] ↔
      Run.Meets step Ok (init zeroed) [.construct 0, .start 0 7 5 0 100, .update, .loop 105 105,
        .start 0 7 5 0 105, .ret, .loop 105 105] :=
  heap_intact zeroed _ ⟨⟨outside_of_nil rfl, rfl⟩, ⟨outside_of_nil rfl, rfl⟩,
    outside_of_nil rfl, ⟨_, _, rfl, rfl⟩, ⟨fun _ h => Option.some.inj h ▸ rfl, rfl⟩,
    ⟨_, _, rfl, rfl⟩, ⟨_, _, rfl, rfl⟩, trivial⟩

/-- A timer is started and started again: its node is the left child of itself. -/
theorem start_twice :
    ¬ ∀ as, Run.Meets step Enabled (init zeroed) as → Run.Meets step Good (init zeroed) as := by
  intro h
  obtain ⟨w₁, h₁, hinv₁, -⟩ :=
    (init_inv zeroed).step (a := .construct 0) ⟨outside_of_nil rfl, rfl⟩ trivial
  obtain rfl := Option.some.inj h₁
  obtain ⟨w₂, h₂, hinv₂, -⟩ := hinv₁.step (a := .start 0 7 5 0 100) ⟨outside_of_nil rfl, rfl⟩ rfl
  obtain rfl := Option.some.inj h₂
  have hgood := h [.construct 0, .start 0 7 5 0 100, .start 0 7 5 0 100]
    ⟨⟨outside_of_nil rfl, rfl⟩, ⟨outside_of_nil rfl, rfl⟩, ⟨outside_of_nil rfl, rfl⟩,
      by split <;> trivial⟩
  exact hinv₂.not_good (a := .start 0 7 5 0 100) (Option.some_ne_none _) hgood.2.2.1

end TimerWatch

end Athena
