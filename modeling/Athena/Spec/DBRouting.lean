import Athena.ForStd.Run
import Athena.Native.DBThreadPool

/-!
# What becomes of the tasks of a DB thread pool

The closures that a thread has run, the one it is running and its mailbox are what the callers
have sent to it, in the order of each caller.  The mailbox is empty behind the final drain, so
that when `exit` returns every task has run.  No closure calls `complete`.

## Key results

- `Account.runThread`: a step of a DB thread keeps its account
- `DBThreadPool.index_mem_iff`: when the remainder is the index of a thread
- `DBThreadPool.executes_iff`: which tasks run, and that none is completed
-/

namespace Athena

variable {P T : Type} [DecidableEq P] [DecidableEq T]

namespace DBThreadPool

/-- A closure begins: its calls. -/
def opening (x : Submission P T) : List (Submission P T × DBEvent) :=
  DBThread.executeTask.map fun c => (x, .call c)

/-- A closure from its beginning to its end. -/
def block (x : Submission P T) : List (Submission P T × DBEvent) :=
  opening x ++ [(x, DBEvent.returned)]

/-- The account of a thread: the closures that were sent to it, what has happened, and where
    it is. -/
structure Account (sent : List (Submission P T)) (events : List (Submission P T × DBEvent))
    (a : Actor P (T × Int32)) : Prop where
  order : ∃ order : List (Submission P T),
    events = order.flatMap block ++ a.current.toList.flatMap opening ∧
    ∀ p, ProducerQueue.of p sent =
      ProducerQueue.of p (order ++ a.current.toList) ++ ProducerQueue.of p a.mailbox
  loops : a.isRun = true → a.inLoop = true
  drained : a.looks = false → a.mailbox = [] ∧ a.current = none

omit [DecidableEq T] in
/-- Nothing has been sent to a new thread. -/
theorem Account.new : Account ([] : List (Submission P T)) []
    { isRun := true, mailbox := [], thread := .loop } where
  order := ⟨[], rfl, fun _ => rfl⟩
  loops _ := rfl
  drained h := nomatch h

omit [DecidableEq T] in
/-- A running thread gets a closure. -/
theorem Account.execute {sent : List (Submission P T)} {events : List (Submission P T × DBEvent)}
    {a : Actor P (T × Int32)} (h : Account sent events a) (hrun : a.isRun = true) (caller : P)
    (closure : T × Int32) :
    Account (sent ++ [(caller, closure)]) events (DBThreadPool.execute caller closure a) := by
  rw [DBThreadPool.execute, if_pos hrun]
  obtain ⟨order, hevents, hfifo⟩ := h.order
  refine { order := ⟨order, hevents, fun p => ?_⟩, loops := h.loops, drained := fun hlook => ?_ }
  · exact ProducerQueue.of_enqueue_eq (hfifo p)
  · have hlooks : a.looks = true := Actor.looks_of_inLoop (h.loops hrun)
    exact absurd (hlooks.symm.trans hlook) (by decide)

omit [DecidableEq T] in
/-- The closure that begins is the one that runs. -/
theorem current_runThread {a a' : Actor P (T × Int32)} {i : Nat} {begins : Option (Submission P T)}
    (h : a.runThread i = some (a', begins)) : a'.current = begins := by
  cases Actor.threadStep h with
  | quiet _ _ _ hcur => exact hcur
  | begin task j _ _ _ _ hcur => exact hcur
  | finish _ _ _ _ hend => rw [Actor.current, hend]

omit [DecidableEq T] in
/-- A step of the thread keeps the account. -/
theorem Account.runThread {sent : List (Submission P T)}
    {events : List (Submission P T × DBEvent)} {a a' : Actor P (T × Int32)} {i : Nat}
    {begins : Option (Submission P T)} (h : Account sent events a)
    (hstep : a.runThread i = some (a', begins)) :
    Account sent (events ++ account a.current begins) a' := by
  obtain ⟨order, hevents, hfifo⟩ := h.order
  have hcurrent := current_runThread hstep
  refine { order := ⟨order ++ a.current.toList, ?_, fun p => ?_⟩, loops := fun hrun => ?_
           drained := fun hlook => ?_ }
  · -- what was running has returned, and what begins is running
    rw [hevents, hcurrent, account, List.flatMap_append, ← List.append_assoc]
    congr 1
    cases a.current with
    | none => simp only [Option.toList_none, List.flatMap_nil, List.map_nil, List.append_nil]
    | some x =>
      rw [Option.toList_some, List.flatMap_singleton, List.flatMap_singleton, List.map_singleton,
        block, List.append_assoc]
  · rw [hfifo, hcurrent]
    exact Actor.of_runThread hstep p
  · rw [Actor.isRun_runThread hstep] at hrun
    exact Actor.inLoop_runThread hrun (h.loops hrun) hstep
  · cases Actor.threadStep hstep with
    | quiet _ _ hlooks => exact absurd (hlooks.symm.trans hlook) (by decide)
    | begin task j _ _ hlooks => exact absurd (hlooks.symm.trans hlook) (by decide)
    | finish _ _ hbox _ hend => exact ⟨hbox, hcurrent⟩

omit [DecidableEq T] in
/-- Where a thread is done, everything that was sent to it has run. -/
theorem Account.served {sent : List (Submission P T)}
    {events : List (Submission P T × DBEvent)} {a : Actor P (T × Int32)} (h : Account sent events a)
    (hlook : a.looks = false) :
    ∃ order : List (Submission P T), events = order.flatMap block ∧
      ∀ p, ProducerQueue.of p sent = ProducerQueue.of p order := by
  obtain ⟨order, hevents, hfifo⟩ := h.order
  obtain ⟨hbox, hcurrent⟩ := h.drained hlook
  refine ⟨order, ?_, fun p => ?_⟩
  · rw [hevents, hcurrent, Option.toList_none, List.flatMap_nil, List.append_nil]
  · rw [hfifo, hbox, hcurrent, Option.toList_none, List.append_nil, ProducerQueue.of_nil,
      List.append_nil]

/-! ## Routing -/

/-- The index of the thread of a submission. -/
def indexOf (s : DBThreadPool P T) (x : Submission P T) : Int := index s.size x.2.2

/-- What was sent to a thread. -/
def sentTo (s : DBThreadPool P T) (t : Nat) : List (Submission P T) :=
  s.submitted.filter fun x => s.indexOf x = t

/-- All tasks went to a thread of the pool. -/
def InRange (s : DBThreadPool P T) : Prop :=
  ∀ x ∈ s.submitted, 0 ≤ s.indexOf x ∧ s.indexOf x < s.size

/-- Nothing has happened on the thread but the closures of the tasks with its index, each once
    and one after the other, in the order in which each caller sent them. -/
def Serves (s : DBThreadPool P T) (t : Nat) : Prop :=
  ∃ order : List (Submission P T), s.events t = order.flatMap block ∧
    ∀ p, ProducerQueue.of p (s.sentTo t) = ProducerQueue.of p order

/-- `complete` was called once for each task. -/
def Completes (s : DBThreadPool P T) : Prop :=
  ∀ t < s.size, ∀ x, (s.events t).count (x, .call .complete) = (s.sentTo t).count x

/-- The remainder is an index if and only if the hash code is not negative, or is a multiple of
    the number of threads. -/
theorem index_mem_iff {size : Nat} (hpos : 0 < size) (hsize : size < 2 ^ 31) (hash : Int32) :
    (0 ≤ index size hash ∧ index size hash < size) ↔ 0 ≤ hash.toInt ∨ (size : Int) ∣ hash.toInt := by
  rw [index, Block.intLength_eq hsize]
  have hlt : hash.toInt.tmod size < size := Int.tmod_lt_of_pos _ (by omega)
  rw [Int.dvd_iff_tmod_eq_zero]
  constructor
  · intro ⟨hindex, _⟩
    by_cases hneg : 0 ≤ hash.toInt
    · exact .inl hneg
    · -- the remainder of a negative hash code is not positive
      have hopposite := Int.tmod_nonneg (a := -hash.toInt) size (by omega)
      rw [Int.neg_tmod] at hopposite
      exact .inr (by omega)
  · intro h
    obtain hnonneg | hzero := h
    · exact ⟨Int.tmod_nonneg size hnonneg, hlt⟩
    · exact ⟨by omega, hlt⟩

omit [DecidableEq P] [DecidableEq T] in
/-- The number of the threads is an `int`. -/
theorem size_create (tasks : T → DBTask) (count : Int32) (started : Nat → Bool) :
    (create tasks count started : DBThreadPool P T).size < 2 ^ 31 := by
  have hle := List.length_filter_le started (List.range count.toInt.toNat)
  rw [List.length_range] at hle
  have hcount := count.toInt_lt
  show ((List.range count.toInt.toNat).filter started).length < 2 ^ 31
  omega

/-! ## Runs -/

/-- The threads that have been joined. -/
def PoolExit.joined (size : Nat) : PoolExit → Nat
  | .running => 0
  | .stopping i => i
  | .joining i => i
  | .done => size

/-- The invariant of a pool. -/
structure Inv (s : DBThreadPool P T) : Prop where
  accounts : ∀ t < s.size, Account (s.sentTo t) (s.events t) (s.threads t)
  running : s.exit = .running → ∀ t < s.size, (s.threads t).isRun = true
  stopped : ∀ t < s.size, t < PoolExit.joined s.size s.exit → (s.threads t).looks = false
  inRange : s.outside = false ↔ s.InRange
  callbacks : s.callbacks = []
  small : s.size < 2 ^ 31
  empty : s.size = 0 → s.submitted = []

omit [DecidableEq T] in
/-- It holds of a new pool. -/
theorem inv_create (tasks : T → DBTask) (count : Int32) (started : Nat → Bool) :
    Inv (create tasks count started : DBThreadPool P T) where
  accounts _ _ := .new
  running _ _ _ := rfl
  stopped t _ ht := absurd ht (Nat.not_lt_zero t)
  inRange := ⟨fun _ _ hx => (nomatch hx), fun _ => rfl⟩
  callbacks := rfl
  small := size_create tasks count started
  empty _ := rfl

omit [DecidableEq P] in
/-- The calls of a closure change the task only. -/
theorem beginTask_eq (s : DBThreadPool P T) (t : Nat) (reply : DBReply)
    (begins : Option (Submission P T)) :
    ∃ tasks, s.beginTask t reply begins = { s with tasks } := by
  cases begins with
  | none => exact ⟨s.tasks, rfl⟩
  | some x =>
    simp only [beginTask, DBThread.executeTask, perform, DBTask.call, List.map_nil,
      List.append_nil]
    exact ⟨_, rfl⟩

omit [DecidableEq P] [DecidableEq T] in
/-- A submission goes to its own thread. -/
theorem sentTo_append (s : DBThreadPool P T) (x : Submission P T) (t : Nat) :
    ({ s with submitted := s.submitted ++ [x] } : DBThreadPool P T).sentTo t =
      s.sentTo t ++ if s.indexOf x = t then [x] else [] := by
  rw [sentTo, List.filter_append, sentTo]
  congr 1
  by_cases h : s.indexOf x = t
  · have hsent : decide (s.indexOf x = t) = true := decide_eq_true h
    rw [if_pos h]
    exact List.filter_cons_of_pos hsent
  · have hsent : ¬ decide (s.indexOf x = t) = true := fun hx => h (of_decide_eq_true hx)
    rw [if_neg h]
    exact List.filter_cons_of_neg hsent

omit [DecidableEq P] [DecidableEq T] in
/-- All submissions are in range if the new one is. -/
theorem inRange_append (s : DBThreadPool P T) (x : Submission P T) :
    ({ s with submitted := s.submitted ++ [x] } : DBThreadPool P T).InRange ↔
      s.InRange ∧ 0 ≤ s.indexOf x ∧ s.indexOf x < s.size := by
  constructor
  · intro h
    exact ⟨fun y hy => h y (List.mem_append_left _ hy), h x List.mem_concat_self⟩
  · intro ⟨hall, hx⟩ y hy
    obtain hy | hy := List.mem_append.mp hy
    · exact hall y hy
    · rw [List.mem_singleton.mp hy]
      exact hx

omit [DecidableEq T] in
/-- A task is sent to its thread, or the program goes outside the vector of threads. -/
theorem inv_executeTask {s s' : DBThreadPool P T} (h : Inv s)
    (hrunning : s.exit = .running) (hpos : s.size ≠ 0) (x : Submission P T)
    (hs' : s' = if 0 ≤ s.indexOf x ∧ s.indexOf x < s.size then
        { s with
          submitted := s.submitted ++ [x]
          threads := Function.update s.threads (s.indexOf x).toNat
            (execute x.1 x.2 (s.threads (s.indexOf x).toNat)) }
      else { s with submitted := s.submitted ++ [x], outside := true }) : Inv s' := by
  by_cases hindex : 0 ≤ s.indexOf x ∧ s.indexOf x < s.size
  · rw [if_pos hindex] at hs'
    subst hs'
    have hrun := h.running hrunning (s.indexOf x).toNat (by omega)
    have hcast : ((s.indexOf x).toNat : Int) = s.indexOf x := Int.toNat_of_nonneg hindex.1
    refine { accounts := fun t ht => ?_, running := fun _ t ht => ?_, stopped := fun t ht hj => ?_
             inRange := ?_, callbacks := h.callbacks, small := h.small
             empty := fun hzero => absurd hzero hpos }
    · show Account (sentTo { s with submitted := s.submitted ++ [x] } t) (s.events t)
        (Function.update s.threads _ _ t)
      rw [sentTo_append]
      by_cases heq : t = (s.indexOf x).toNat
      · subst heq
        rw [if_pos hcast.symm, Function.update_self]
        exact (h.accounts _ ht).execute hrun x.1 x.2
      · rw [if_neg fun hx => heq (by omega), Function.update_of_ne heq, List.append_nil]
        exact h.accounts t ht
    · show (Function.update s.threads _ _ t).isRun = true
      by_cases heq : t = (s.indexOf x).toNat
      · subst heq
        rw [Function.update_self, execute, if_pos hrun]
        exact hrun
      · rw [Function.update_of_ne heq]
        exact h.running hrunning t ht
    · have hj' : t < PoolExit.joined s.size s.exit := hj
      rw [hrunning] at hj'
      exact absurd hj' (Nat.not_lt_zero t)
    · exact h.inRange.trans ⟨fun hall => (inRange_append s x).mpr ⟨hall, hindex⟩,
        fun hall => ((inRange_append s x).mp hall).1⟩
  · rw [if_neg hindex] at hs'
    subst hs'
    refine { accounts := fun t ht => ?_, running := h.running, stopped := h.stopped
             inRange := ⟨fun hfalse => (nomatch hfalse), fun hall => ?_⟩, callbacks := h.callbacks
             small := h.small, empty := fun hzero => absurd hzero hpos }
    · -- the index is that of no thread
      show Account (sentTo { s with submitted := s.submitted ++ [x] } t) (s.events t) (s.threads t)
      have ht : t < s.size := ht
      rw [sentTo_append, if_neg fun hx => hindex (by omega), List.append_nil]
      exact h.accounts t ht
    · exact absurd ((inRange_append s x).mp hall).2 hindex

omit [DecidableEq T] in
/-- Where one thread changes, the others have their accounts still. -/
theorem accounts_update {s : DBThreadPool P T} {t : Nat} {a : Actor P (T × Int32)}
    {events : Nat → List (Submission P T × DBEvent)} (h : Inv s)
    (hother : ∀ u, u ≠ t → events u = s.events u) (hself : Account (s.sentTo t) (events t) a)
    (u : Nat) (hu : u < s.size) :
    Account (s.sentTo u) (events u) (Function.update s.threads t a u) := by
  by_cases heq : u = t
  · subst heq
    rw [Function.update_self]
    exact hself
  · rw [Function.update_of_ne heq, hother u heq]
    exact h.accounts u hu

omit [DecidableEq T] in
/-- A step of a DB thread. -/
theorem inv_thread {s s' : DBThreadPool P T} (h : Inv s) {t i : Nat} (ht : t < s.size)
    {a : Actor P (T × Int32)} {begins : Option (Submission P T)}
    (hthread : (s.threads t).runThread i = some (a, begins)) {tasks : T → DBTask}
    (hs' : s' = { s with
        threads := Function.update s.threads t a
        events := Function.update s.events t
          (s.events t ++ account (s.threads t).current begins)
        tasks }) : Inv s' := by
  subst hs'
  refine { accounts := fun u hu => ?_, running := fun hexit u hu => ?_
           stopped := fun u hu hj => ?_, inRange := h.inRange, callbacks := h.callbacks
           small := h.small, empty := h.empty }
  · refine accounts_update h (fun v hv => Function.update_of_ne hv _ _) ?_ u hu
    show Account (s.sentTo t) (Function.update s.events t _ t) a
    rw [Function.update_self]
    exact (h.accounts t ht).runThread hthread
  · show (Function.update s.threads t a u).isRun = true
    by_cases heq : u = t
    · subst heq
      rw [Function.update_self, Actor.isRun_runThread hthread]
      exact h.running hexit u hu
    · rw [Function.update_of_ne heq]
      exact h.running hexit u hu
  · show (Function.update s.threads t a u).looks = false
    have hlook := h.stopped u hu hj
    by_cases heq : u = t
    · -- a thread that has ended takes no step
      subst heq
      have hlooks := Actor.looks_of_runThread hthread
      exact absurd (hlooks.symm.trans hlook) (by decide)
    · rw [Function.update_of_ne heq]
      exact hlook

omit [DecidableEq T] in
/-- `stop` clears the flag of a thread. -/
theorem inv_stop {s : DBThreadPool P T} (h : Inv s) {i : Nat} (hexit : s.exit = .stopping i)
    (hi : i < s.size) :
    Inv { s with
      threads := Function.update s.threads i { s.threads i with isRun := false }
      exit := .joining i } := by
  have haccount := h.accounts i hi
  refine { accounts := fun u hu => ?_, running := fun hrunning => (nomatch hrunning)
           stopped := fun u hu hj => ?_, inRange := h.inRange, callbacks := h.callbacks
           small := h.small, empty := h.empty }
  · refine accounts_update h (fun _ _ => rfl) ?_ u hu
    exact { order := haccount.order, loops := fun hrun => absurd hrun Bool.false_ne_true
            drained := haccount.drained }
  · show (Function.update s.threads i _ u).looks = false
    have hlt : u < i := hj
    have hjoined : u < PoolExit.joined s.size s.exit := by rw [hexit]; exact hlt
    rw [Function.update_of_ne (by omega)]
    exact h.stopped u hu hjoined

/-- A step keeps the invariant. -/
theorem inv_step (s : DBThreadPool P T) (a : DBPoolAct P T) (s' : DBThreadPool P T) (h : Inv s)
    (hstep : step s a = some s') : Inv s' := by
  rw [step.eq_def] at hstep
  split at hstep
  · cases hstep
  · cases a with
    | executeTask caller task hash =>
      simp only at hstep
      -- before `exit`, a positive hash goes to its thread
      split at hstep
      · rename_i hrunning
        cases task with
        | none => exact Option.some.inj hstep ▸ h
        | some task =>
          simp only at hstep
          split at hstep
          · exact Option.some.inj hstep ▸ h
          · rename_i hpos
            rw [← apply_ite some] at hstep
            exact inv_executeTask h hrunning hpos (caller, task, hash) (Option.some.inj hstep).symm
      · cases hstep
    | thread t i reply =>
      simp only at hstep
      split at hstep
      · rename_i ht
        cases hthread : (s.threads t).runThread i with
        | none => rw [hthread] at hstep; cases hstep
        | some out =>
          -- the thread acts, and the task that it begins may push to others
          rw [hthread] at hstep
          obtain ⟨a, begins⟩ := out
          obtain ⟨tasks, htasks⟩ := beginTask_eq { s with
            threads := Function.update s.threads t a
            events := Function.update s.events t
              (s.events t ++ account (s.threads t).current begins) } t reply begins
          exact inv_thread h ht hthread ((Option.some.inj hstep).symm.trans htasks)
      · cases hstep
    | exit =>
      simp only at hstep
      split at hstep
      · cases hstep
        exact { h with running := fun hrunning => (nomatch hrunning)
                       stopped := fun t _ ht => absurd ht (Nat.not_lt_zero t) }
      · cases hstep
    | stop =>
      simp only at hstep
      cases hexit : s.exit with
      | running => rw [hexit] at hstep; cases hstep
      | joining i => rw [hexit] at hstep; cases hstep
      | done => rw [hexit] at hstep; cases hstep
      | stopping i =>
        rw [hexit] at hstep
        simp only at hstep
        -- `stop` in turn, then the joins from the first thread on
        split at hstep
        · rename_i hi
          cases hstep
          exact inv_stop h hexit hi
        · rename_i hi
          cases hstep
          refine { h with running := fun hrunning => (nomatch hrunning)
                          stopped := fun t ht _ => h.stopped t ht ?_ }
          show t < PoolExit.joined s.size s.exit
          rw [hexit]
          exact Nat.lt_of_lt_of_le ht (Nat.not_lt.mp hi)
    | join =>
      simp only at hstep
      cases hexit : s.exit with
      | running => rw [hexit] at hstep; cases hstep
      | stopping i => rw [hexit] at hstep; cases hstep
      | done => rw [hexit] at hstep; cases hstep
      | joining i =>
        rw [hexit] at hstep
        simp only at hstep
        split at hstep
        -- a thread is joined when it has ended
        · rename_i hlook
          cases hstep
          refine { h with running := fun hrunning => (nomatch hrunning)
                          stopped := fun t ht hj => ?_ }
          have hle : t ≤ i := Nat.le_of_lt_succ hj
          by_cases heq : t = i
          · subst heq
            exact hlook
          · refine h.stopped t ht ?_
            rw [hexit]
            exact Nat.lt_of_le_of_ne hle heq
        · cases hstep

/-- It holds in every run. -/
theorem inv_run {tasks : T → DBTask} {count : Int32} {started : Nat → Bool}
    {acts : List (DBPoolAct P T)} {s : DBThreadPool P T}
    (hrun : Run.run step (create tasks count started) acts = some s) : Inv s :=
  Run.invariant inv_step (inv_create tasks count started) hrun

/-! ## What `exit` leaves -/

omit [DecidableEq T] in
/-- Every thread has done its work when `exit` returns. -/
theorem Inv.serves {s : DBThreadPool P T} (h : Inv s) (hdone : s.exit = .done) (t : Nat)
    (ht : t < s.size) : s.Serves t := by
  have hlook : (s.threads t).looks = false := by
    refine h.stopped t ht ?_
    rw [hdone]
    exact ht
  exact (h.accounts t ht).served hlook

/-- The closures do not call `complete`. -/
theorem count_complete (order : List (Submission P T)) (x : Submission P T) :
    (order.flatMap block).count (x, .call .complete) = 0 := by
  rw [List.count_eq_zero]
  intro hmem
  obtain ⟨y, _, hy⟩ := List.mem_flatMap.mp hmem
  simp [block, opening, DBThread.executeTask] at hy

/-- A task that was sent to a thread is not completed there. -/
theorem Inv.not_completes {s : DBThreadPool P T} (h : Inv s) (hdone : s.exit = .done)
    (hrange : s.InRange) (hcompletes : s.Completes) : s.submitted = [] := by
  rw [List.eq_nil_iff_forall_not_mem]
  intro x hx
  obtain ⟨hlow, hhigh⟩ := hrange x hx
  have ht : (s.indexOf x).toNat < s.size := by omega
  have hsent : x ∈ s.sentTo (s.indexOf x).toNat :=
    List.mem_filter.mpr ⟨hx, decide_eq_true (Int.toNat_of_nonneg hlow).symm⟩
  obtain ⟨order, hevents, _⟩ := h.serves hdone _ ht
  have hcount := hcompletes _ ht x
  rw [hevents, count_complete] at hcount
  have hpos := List.count_pos_iff.mpr hsent
  omega

omit [DecidableEq T] in
/-- All remainders are indices if and only if each hash code is not negative or is a multiple of
    the number of threads. -/
theorem Inv.inRange_iff {s : DBThreadPool P T} (h : Inv s) :
    s.InRange ↔ ∀ x ∈ s.submitted, 0 ≤ x.2.2.toInt ∨ (s.size : Int) ∣ x.2.2.toInt := by
  have hindex : ∀ x ∈ s.submitted, (0 ≤ s.indexOf x ∧ s.indexOf x < s.size) ↔
      0 ≤ x.2.2.toInt ∨ (s.size : Int) ∣ x.2.2.toInt := by
    intro x hx
    have hpos : 0 < s.size := by
      refine Nat.pos_of_ne_zero fun hzero => ?_
      rw [h.empty hzero] at hx
      exact nomatch hx
    exact index_mem_iff hpos h.small x.2.2
  exact forall₂_congr hindex

/-- Whenever `exit` has returned, or the program has gone outside the vector of threads: every
    task has run once on the thread of its index, in the order of its caller, if and only if each
    hash code is not negative or is a multiple of the number of threads; no callback was called;
    and all that and one `complete` for each task is only so where there was no task. -/
theorem executes_iff {tasks : T → DBTask} {count : Int32} {started : Nat → Bool}
    {acts : List (DBPoolAct P T)} {s : DBThreadPool P T}
    (hrun : Run.run step (create tasks count started) acts = some s)
    (hend : s.exit = .done ∨ s.outside = true) :
    ((s.InRange ∧ ∀ t < s.size, s.Serves t) ↔
        ∀ x ∈ s.submitted, 0 ≤ x.2.2.toInt ∨ (s.size : Int) ∣ x.2.2.toInt) ∧
      s.callbacks = [] ∧
      (((s.InRange ∧ ∀ t < s.size, s.Serves t) ∧ s.Completes) ↔ s.submitted = []) := by
  have h := inv_run hrun
  -- where all indices are in the vector, `exit` has returned
  have hdone : s.InRange → s.exit = .done := by
    intro hrange
    refine hend.resolve_right fun houtside => ?_
    exact absurd ((h.inRange.mpr hrange).symm.trans houtside) (by decide)
  have hserves : s.InRange → ∀ t < s.size, s.Serves t :=
    fun hrange t ht => h.serves (hdone hrange) t ht
  refine ⟨⟨fun hall => h.inRange_iff.mp hall.1, fun hhash => ?_⟩, h.callbacks,
    fun hall => h.not_completes (hdone hall.1.1) hall.1.1 hall.2, fun hnone => ?_⟩
  · have hrange := h.inRange_iff.mpr hhash
    exact ⟨hrange, hserves hrange⟩
  · have hrange : s.InRange := by
      intro x hx
      rw [hnone] at hx
      exact nomatch hx
    refine ⟨⟨hrange, hserves hrange⟩, fun t ht x => ?_⟩
    obtain ⟨order, hevents, _⟩ := hserves hrange t ht
    rw [hevents, count_complete, sentTo, hnone]
    rfl

/-- A task with a callback, and the answer to it. -/
def select : DBTask :=
  { device := .sql, _dbi := none, _ret := 0, _errno := 0, _error := "", backfunc := true }

/-- An answer without errors. -/
def answer : DBReply := { prepare := 0, execute := 0, getErrno := 0, getError := "" }

/-- One task on one thread, and `exit`. -/
def oneTask : List (DBPoolAct Unit Unit) :=
  [.executeTask () (some ()) 0, .thread 0 0 answer, .thread 0 0 answer, .thread 0 0 answer, .exit,
    .stop, .thread 0 0 answer, .thread 0 0 answer, .join, .stop]

/-- The pool after that. -/
def afterOneTask : DBThreadPool Unit Unit :=
  (Run.run step (create (fun _ => select) 1 fun _ => true) oneTask).getD
    (create (fun _ => select) 1 fun _ => true)

/-- One task runs, and is not completed. -/
theorem executes_iff_oneTask :
    Run.run step (create (fun _ => select) 1 fun _ => true) oneTask = some afterOneTask ∧
      (((afterOneTask.InRange ∧ ∀ t < afterOneTask.size, afterOneTask.Serves t) ↔
          ∀ x ∈ afterOneTask.submitted,
            0 ≤ x.2.2.toInt ∨ (afterOneTask.size : Int) ∣ x.2.2.toInt) ∧
        afterOneTask.callbacks = [] ∧
        (((afterOneTask.InRange ∧ ∀ t < afterOneTask.size, afterOneTask.Serves t) ∧
            afterOneTask.Completes) ↔ afterOneTask.submitted = [])) :=
  have hrun : Run.run step (create (fun _ => select) 1 fun _ => true) oneTask =
      some afterOneTask := rfl
  ⟨hrun, executes_iff hrun (.inl rfl)⟩

/-- The task has run and is not completed; and a task with hash code −1 goes outside the vector
    of two threads. -/
theorem never_completed :
    (∃ acts s, Run.run step (create (fun _ => select) 1 fun _ => true : DBThreadPool Unit Unit)
        acts = some s ∧ s.exit = .done ∧ s.submitted = [((), (), 0)] ∧
      s.events 0 = [(((), (), 0), .call .dbi), (((), (), 0), .call .run), (((), (), 0), .returned)] ∧
      s.callbacks = [] ∧ ¬ s.Completes) ∧
    ∃ s, Run.run step (create (fun _ => select) 2 fun _ => true : DBThreadPool Unit Unit)
        [.executeTask () (some ()) (-1)] = some s ∧
      s.indexOf ((), (), -1) = -1 ∧ s.outside = true ∧ ¬ s.InRange := by
  refine ⟨⟨oneTask, afterOneTask, rfl, rfl, rfl, rfl, rfl, fun hcompletes => ?_⟩,
    ⟨_, rfl, rfl, rfl, fun hrange => ?_⟩⟩
  · have hcount := hcompletes 0 (by decide) ((), (), 0)
    exact absurd hcount (by decide)
  · have hindex := hrange ((), (), -1) List.mem_concat_self
    exact absurd hindex.1 (by decide)

end DBThreadPool

end Athena
