import Athena.Native.ServerEventLoop

/-!
# Which connections the boss drops

`handoffToWorker` goes round the sessions from `next_worker_` on.  The first session that
is there decides: if `uv_write2` fails on it, the loop is left and the client closed, even
if the next worker would have taken it.  So a connection is dropped without need exactly if
the first session fails and another one does not.

With all sessions up and working the connections go to the workers in turn.

## Key results

- `handoff_drops_iff`: when a drop means that every session has failed, and that the
  workers get the same number of connections
-/

namespace Athena

namespace ServerEventLoop

/-! ## The outcome -/

/-- The workers that were given the client. -/
def given (events : List HandoffEvent) : List Nat :=
  events.filterMap fun e =>
    match e with
    | .uv_write2 worker _ ret => if ret = 0 then some worker else none
    | .uv_close _ => none

/-- How often a handle is closed. -/
def closes (events : List HandoffEvent) (client : HandleRef) : Nat :=
  events.countP fun e => e = .uv_close client

/-- The callbacks of the writes that were started. -/
def callbacks (events : List HandoffEvent) : List HandoffEvent :=
  events.flatMap fun e =>
    match e with
    | .uv_write2 _ client ret => if ret = 0 then after_handoff_cb client else []
    | .uv_close _ => []

/-- The session of the worker is there. -/
def established (self : ServerEventLoop) (worker : Nat) : Bool :=
  (self.sessions[worker]?.getD none).isSome

/-- The next workers in turn. -/
def rotation : Nat → ServerEventLoop → List Nat
  | 0, _ => []
  | n + 1, self => self.next_worker :: rotation n self.advance

/-- The first worker in turn whose session is there. -/
def firstReady (self : ServerEventLoop) : Option Nat :=
  (rotation self.sessions.length self).find? self.established

variable {self : ServerEventLoop} {uv_write2 : Nat → Int} {client : HandleRef}

/-- Going on leaves the sessions. -/
@[simp] theorem advance_sessions (self : ServerEventLoop) : self.advance.sessions = self.sessions :=
  rfl

/-- The next worker in turn. -/
@[simp] theorem advance_next (self : ServerEventLoop) :
    self.advance.next_worker = (self.next_worker + 1) % self.sessions.length := rfl

/-- Going on leaves the sessions as they are. -/
@[simp] theorem established_advance (self : ServerEventLoop) :
    self.advance.established = self.established := rfl

/-- Whether the next worker has a session. -/
theorem established_next (self : ServerEventLoop) :
    self.established self.next_worker = self.session.isSome := by
  rw [established, session, List.getElem?_eq_getElem self.next_worker_lt]
  rfl

/-- The events, by the first worker that is tried. -/
theorem tryWorkers_events (tries : Nat) (self : ServerEventLoop) :
    (self.tryWorkers uv_write2 client tries).2 =
      match (rotation tries self).find? self.established with
      | none => [.uv_close client]
      | some w =>
        if uv_write2 w = 0 then [.uv_write2 w client (uv_write2 w)]
        else [.uv_write2 w client (uv_write2 w), .uv_close client] := by
  induction tries generalizing self with
  | zero => rfl
  | succ tries ih =>
    have hestablished := self.established_next
    rw [tryWorkers, rotation, List.find?_cons]
    cases hsession : self.session with
    | none =>
      rw [hsession, Option.isSome_none] at hestablished
      rw [hestablished]
      exact ih self.advance
    | some s =>
      rw [hsession, Option.isSome_some] at hestablished
      rw [hestablished]
      by_cases hret : uv_write2 self.next_worker = 0
      · simp only [if_pos hret]
      · simp only [if_neg hret]

/-- Every worker has its turn. -/
theorem mem_rotation {n w : Nat} (hw : w < self.sessions.length)
    (h : ∃ k < n, w = (self.next_worker + k) % self.sessions.length) : w ∈ rotation n self := by
  induction n generalizing self with
  | zero =>
    obtain ⟨k, hk, -⟩ := h
    omega
  | succ n ih =>
    obtain ⟨k, hk, heq⟩ := h
    cases k with
    | zero =>
      rw [Nat.add_zero, Nat.mod_eq_of_lt self.next_worker_lt] at heq
      exact heq ▸ List.mem_cons_self
    | succ k =>
      apply List.mem_cons_of_mem
      have hw' : w < self.advance.sessions.length := hw
      apply ih hw'
      refine ⟨k, by omega, ?_⟩
      rw [heq, advance_sessions, advance_next, Nat.mod_add_mod]
      congr 1
      omega

/-- Every worker has its turn. -/
theorem mem_rotation_all {w : Nat} (hw : w < self.sessions.length) :
    w ∈ rotation self.sessions.length self := by
  have hnext := self.next_worker_lt
  apply mem_rotation hw
  by_cases hle : self.next_worker ≤ w
  · refine ⟨w - self.next_worker, by omega, ?_⟩
    rw [Nat.add_sub_cancel' hle, Nat.mod_eq_of_lt hw]
  · refine ⟨w + self.sessions.length - self.next_worker, by omega, ?_⟩
    have hsum : self.next_worker + (w + self.sessions.length - self.next_worker) =
        w + self.sessions.length := by omega
    rw [hsum, Nat.add_mod_right, Nat.mod_eq_of_lt hw]

/-- A session belongs to a worker. -/
theorem lt_of_established {w : Nat} (h : self.established w = true) : w < self.sessions.length := by
  by_contra hge
  rw [established, List.getElem?_eq_none (by omega)] at h
  cases h

/-- No session is there. -/
theorem firstReady_eq_none (h : self.firstReady = none) {w : Nat} :
    self.established w = false := by
  cases hw : self.established w with
  | false => rfl
  | true =>
    have hmem := mem_rotation_all (lt_of_established hw)
    exact absurd hw (List.find?_eq_none.mp h w hmem)

/-- The first session that is there decides. -/
theorem handoff_events (self : ServerEventLoop) (uv_write2 : Nat → Int) (client : HandleRef) :
    (self.handoffToWorker uv_write2 client).2 =
      match self.firstReady with
      | none => [.uv_close client]
      | some w =>
        if uv_write2 w = 0 then [.uv_write2 w client (uv_write2 w)]
        else [.uv_write2 w client (uv_write2 w), .uv_close client] :=
  self.tryWorkers_events _

/-! ## The connections of a run -/

/-- All sessions are there. -/
def AllReady (self : ServerEventLoop) : Prop := ∀ w < self.sessions.length, self.established w = true

/-- How many turns come before that of the worker. -/
def turnsBefore (n next w : Nat) : Nat := if next ≤ w then w - next else w + n - next

/-- With all sessions up, the next worker gets the client. -/
theorem handoff_of_ready (client : HandleRef) (hready : self.AllReady) (hwrite : ∀ w, uv_write2 w = 0) :
    (self.handoffToWorker uv_write2 client).1 = self.advance ∧
      given (self.handoffToWorker uv_write2 client).2 = [self.next_worker] := by
  have hnext := hready _ self.next_worker_lt
  rw [established_next, Option.isSome_iff_exists] at hnext
  obtain ⟨s, hs⟩ := hnext
  obtain ⟨n, hn⟩ : ∃ n, self.sessions.length = n + 1 :=
    ⟨self.sessions.length - 1, by have := self.next_worker_lt; omega⟩
  rw [handoffToWorker, hn, tryWorkers, hs]
  simp [hwrite, given]

/-- One turn is over. -/
theorem turnsBefore_next {n next w : Nat} (hnext : next < n) (hw : w < n) (m : Nat) :
    (if next = w then 1 else 0) + (m + (n - 1 - turnsBefore n ((next + 1) % n) w)) / n =
      (m + 1 + (n - 1 - turnsBefore n next w)) / n := by
  have hmod : (next + 1) % n = if next + 1 = n then 0 else next + 1 := by
    split
    · next heq => rw [heq, Nat.mod_self]
    · exact Nat.mod_eq_of_lt (by omega)
  have hpos : 0 < n := by omega
  by_cases heq : next = w
  · subst heq
    have hbefore : turnsBefore n next next = 0 := by simp [turnsBefore]
    have hafter : turnsBefore n ((next + 1) % n) next = n - 1 := by
      rw [hmod, turnsBefore]
      split <;> split <;> omega
    have hsum : m + 1 + (n - 1 - 0) = m + n := by omega
    rw [if_pos rfl, hafter, hbefore, Nat.sub_self, Nat.add_zero, hsum, Nat.add_div_right m hpos,
      Nat.add_comm]
  · have hafter : turnsBefore n ((next + 1) % n) w + 1 = turnsBefore n next w := by
      rw [hmod]
      simp only [turnsBefore]
      split <;> split <;> split <;> omega
    have hlt : turnsBefore n next w < n := by
      rw [turnsBefore]
      split <;> omega
    rw [if_neg heq, Nat.zero_add]
    congr 1
    omega

/-- How many connections a worker gets in a run. -/
theorem count_given (hready : self.AllReady) {run : List (AcceptResults × HandleRef)}
    (hwrite : ∀ r ∈ run, ∀ w, r.1.uv_write2 w = 0) :
    ∃ m, ∀ w < self.sessions.length, (given (self.accepts run).2).count w =
      (m + (self.sessions.length - 1 - turnsBefore self.sessions.length self.next_worker w)) /
        self.sessions.length := by
  induction run generalizing self with
  | nil =>
    refine ⟨0, fun w hw => ?_⟩
    symm
    exact Nat.div_eq_of_lt (by omega)
  | cons r run ih =>
    obtain ⟨r, client⟩ := r
    have hrest := fun r' h' => hwrite r' (List.mem_cons_of_mem _ h')
    have hkept (h : self.uv_on_new_connection r client = (self, []) ∨
        self.uv_on_new_connection r client = (self, [.uv_close client])) :
        ∃ m, ∀ w < self.sessions.length, (given (self.accepts ((r, client) :: run)).2).count w =
          (m + (self.sessions.length - 1 -
            turnsBefore self.sessions.length self.next_worker w)) / self.sessions.length := by
      obtain ⟨m, hm⟩ := ih hready hrest
      refine ⟨m, fun w hw => ?_⟩
      rw [accepts, ← hm w hw]
      rcases h with h | h <;> simp only [h] <;> rfl
    rw [uv_on_new_connection] at hkept
    by_cases hstatus : r.status < 0
    · exact hkept (.inl (if_pos hstatus))
    by_cases hinit : r.uv_tcp_init ≠ 0
    · exact hkept (.inl (by rw [if_neg hstatus, if_pos hinit]))
    by_cases haccept : r.uv_accept ≠ 0
    · exact hkept (.inr (by rw [if_neg hstatus, if_neg hinit, if_pos haccept]))
    -- the connection is accepted, and the next worker gets it
    obtain ⟨hself, hgiven⟩ := handoff_of_ready client hready
      (hwrite (r, client) List.mem_cons_self)
    have hready' : self.advance.AllReady := hready
    obtain ⟨m, hm⟩ := ih hready' hrest
    refine ⟨m + 1, fun w hw => ?_⟩
    have hrun : given (self.accepts ((r, client) :: run)).2 =
        self.next_worker :: given (self.advance.accepts run).2 := by
      rw [accepts, uv_on_new_connection, if_neg hstatus, if_neg hinit, if_neg haccept, given,
        List.filterMap_append, hself, ← given, ← given, hgiven]
      rfl
    rw [hrun, List.count_cons, hm w hw, advance_sessions, advance_next,
      ← turnsBefore_next self.next_worker_lt hw m, Nat.add_comm]
    simp only [beq_iff_eq]

/-! ## The drops -/

/-- The client was given to one worker, or it was closed; the boss closes its copy of the
    handle once, at last in the callback. -/
def HandedOrClosed (client : HandleRef) (events : List HandoffEvent) : Prop :=
  (given events).length + closes events client = 1 ∧
    closes (events ++ callbacks events) client = 1

/-- The client is only closed if the writes to all sessions that are there fail. -/
def DroppedOnlyIfAllFail (self : ServerEventLoop) (uv_write2 : Nat → Int) (client : HandleRef) :
    Prop :=
  0 < closes (self.handoffToWorker uv_write2 client).2 client →
    ∀ w, self.established w = true → uv_write2 w ≠ 0

/-- The workers get the same number of connections, up to one. -/
def Balanced (self : ServerEventLoop) (events : List HandoffEvent) : Prop :=
  ∀ w < self.sessions.length, ∀ w' < self.sessions.length,
    (given events).count w ≤ (given events).count w' + 1

/-- A client is handed to one worker or closed, and never both. -/
theorem handedOrClosed (self : ServerEventLoop) (uv_write2 : Nat → Int) (client : HandleRef) :
    HandedOrClosed client (self.handoffToWorker uv_write2 client).2 := by
  rw [handoff_events]
  cases self.firstReady with
  | none => simp [HandedOrClosed, given, closes, callbacks]
  | some w =>
    by_cases hret : uv_write2 w = 0
    · simp [hret, HandedOrClosed, given, closes, callbacks, after_handoff_cb]
    · simp [hret, HandedOrClosed, given, closes, callbacks]

/-- With all sessions up and working, the workers take turns. -/
theorem balanced_of_ready (hready : self.AllReady) {run : List (AcceptResults × HandleRef)}
    (hwrite : ∀ r ∈ run, ∀ w, r.1.uv_write2 w = 0) : self.Balanced (self.accepts run).2 := by
  intro w hw w' hw'
  obtain ⟨m, hm⟩ := count_given hready hwrite
  have hpos : 0 < self.sessions.length := by omega
  rw [hm w hw, hm w' hw', ← Nat.add_div_right _ hpos]
  exact Nat.div_le_div_right (by omega)

/-- For every boss, whatever libuv answers. -/
theorem handoff_drops_iff (self : ServerEventLoop) (uv_write2 : Nat → Int) (client : HandleRef) :
    (HandedOrClosed client (self.handoffToWorker uv_write2 client).2 ∧
        self.DroppedOnlyIfAllFail uv_write2 client ∧
        ∀ run : List (AcceptResults × HandleRef), self.AllReady →
          (∀ r ∈ run, ∀ w, r.1.uv_write2 w = 0) → self.Balanced (self.accepts run).2) ↔
      ∀ w, self.firstReady = some w → uv_write2 w ≠ 0 →
        ∀ w', self.established w' = true → uv_write2 w' ≠ 0 := by
  have hdrop : self.DroppedOnlyIfAllFail uv_write2 client ↔
      ∀ w, self.firstReady = some w → uv_write2 w ≠ 0 →
        ∀ w', self.established w' = true → uv_write2 w' ≠ 0 := by
    rw [DroppedOnlyIfAllFail, handoff_events]
    cases hfirst : self.firstReady with
    | none =>
      -- no session is there, and none has failed
      constructor
      · intro _ w hw
        cases hw
      · intro _ _ w hw
        rw [firstReady_eq_none hfirst] at hw
        cases hw
    | some w =>
      by_cases hret : uv_write2 w = 0
      · simp [hret, closes]
      · simp [hret, closes]
  rw [hdrop]
  constructor
  · exact fun h => h.2.1
  · exact fun h => ⟨self.handedOrClosed uv_write2 client, h,
    fun run hready hwrite => balanced_of_ready hready hwrite⟩

/-- Two workers with sessions; the pipe of the first one is broken. -/
def brokenFirst : ServerEventLoop :=
  { sessions := [some 1, some 2], next_worker := 0, next_worker_lt := by decide }

/-- The second worker would have taken the client. -/
theorem handoff_drops : ¬brokenFirst.DroppedOnlyIfAllFail (fun w => if w = 0 then -32 else 0) 7 := by
  intro h
  exact h (by decide) 1 (by decide) (by decide)

end ServerEventLoop

end Athena
