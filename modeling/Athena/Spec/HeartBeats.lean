import Athena.Spec.KeepAlive

/-!
# Heartbeats keep a connection open

When the connecting side and the network keep their time limits, the accepting side never
goes without a frame for longer than the sum of these limits.  A heartbeat may be dropped,
because the send ring is full: then a frame is under way, and it arrives later than the
heartbeat was due.

`Beats` follows the next sign of life through its stages: the time stamp of the last send,
the queue of the loop, the frames under way.

## Key results

- `KeepAlive.beats_step`: each stage is in time when the one before it was
- `KeepAlive.heartbeat_keeps_alive`: such a connection is never closed for silence
-/

namespace Athena

open IdleStateHandler

namespace KeepAlive

/-- The connecting side's limit. -/
def maxWrite (cfg : KeepAliveCfg) : Nat := cfg.client.max_write_idle_time.toNat

/-- How long the connecting side leaves `last_send_time` as it is. -/
def gap (cfg : KeepAliveCfg) : Nat := maxWrite cfg + clientInterval cfg + cfg.lateness

/-- Where the next sign of life is. -/
structure Beats (cfg : KeepAliveCfg) (s : KeepAlive) : Prop where
  tick_le : s.clientTick ≤ s.now
  queued_le : ∀ q ∈ s.queued, q ≤ s.now ∧ s.now ≤ q + cfg.taskDelay
  flight_le : ∀ f ∈ s.flight, f ≤ s.now ∧ s.now ≤ f + cfg.delivery
  /-- before the connecting side has started its timer it sends nothing -/
  start : s.client = none → s.now ≤ cfg.connectDelay ∧ s.queued = [] ∧ s.flight = []
  /-- afterwards its time stamp `m` is never far behind its timer -/
  stamp : ∀ channel, s.client = some channel → ∃ r ≤ s.now, ∃ m ≤ s.now,
    channel = ⟨uvNow cfg.clientClock r, uvNow cfg.clientClock m⟩ ∧
    s.now ≤ s.clientTick + clientInterval cfg + cfg.lateness ∧
    s.clientTick ≤ m + maxWrite cfg ∧
    (s.queued = [] → s.flight = [] → m ≤ s.heard + cfg.connectDelay)
  /-- the first of the queue, when no frame is under way -/
  next_queued : ∀ q qs, s.queued = q :: qs → s.flight = [] →
    q ≤ s.heard + cfg.connectDelay + gap cfg
  /-- the first frame under way -/
  next_flight : ∀ f fs, s.flight = f :: fs →
    f ≤ s.heard + cfg.connectDelay + gap cfg + cfg.taskDelay

/-- It holds of a new connection. -/
theorem beats_init (cfg : KeepAliveCfg) : Beats cfg (init cfg) where
  tick_le := Nat.le_refl 0
  queued_le q hq := by cases hq
  flight_le f hf := by cases hf
  start _ := ⟨Nat.zero_le _, rfl, rfl⟩
  stamp channel h := by cases h
  next_queued q qs h := by cases h
  next_flight f fs h := by cases h

/-- With every sign of life in time the accepting side has heard of the connection. -/
theorem Beats.heard {cfg : KeepAliveCfg} {s : KeepAlive} (h : Beats cfg s) :
    s.now ≤ s.heard + cfg.connectDelay + gap cfg + cfg.taskDelay + cfg.delivery := by
  cases hflight : s.flight with
  | cons f fs =>
    have hnext := h.next_flight f fs hflight
    have hlate := (h.flight_le f (by rw [hflight]; exact List.mem_cons_self)).2
    omega
  | nil =>
    cases hqueued : s.queued with
    | cons q qs =>
      have hnext := h.next_queued q qs hqueued hflight
      have hlate := (h.queued_le q (by rw [hqueued]; exact List.mem_cons_self)).2
      omega
    | nil =>
      cases hclient : s.client with
      | none =>
        have := (h.start hclient).1
        omega
      | some channel =>
        obtain ⟨r, -, m, -, -, hlate, htick, hheard⟩ := h.stamp channel hclient
        have := hheard hqueued hflight
        simp only [gap]
        omega

/-- In a healthy connection there is still time for everything when time goes on. -/
theorem inTime_iff {cfg : KeepAliveCfg} {s : KeepAlive} :
    inTime cfg s = true ↔
      (s.client = none → s.now < cfg.connectDelay) ∧
      (s.client.isSome = true → s.now < s.clientTick + clientInterval cfg + cfg.lateness) ∧
      (∀ q ∈ s.queued, s.now < q + cfg.taskDelay) ∧
      ∀ f ∈ s.flight, s.now < f + cfg.delivery := by
  cases hclient : s.client with
  | none => simp [inTime, hclient, and_assoc]
  | some channel => simp [inTime, hclient, and_assoc]

/-- What the connecting side's timer does: if the time stamp is behind the limit, it is set
    to now and a heartbeat is queued. -/
theorem clientTimer_spec {cfg : KeepAliveCfg} {r m n : Nat} (hpos : 0 < maxWrite cfg)
    (hr : r ≤ n) (hm : m ≤ n) (hrange : InRange cfg n) :
    ∃ r' ≤ n,
      (cfg.client.onTimer ⟨uvNow cfg.clientClock r, uvNow cfg.clientClock m⟩
          (uvNow cfg.clientClock n)).1 =
        ⟨uvNow cfg.clientClock r', uvNow cfg.clientClock (if m + maxWrite cfg < n then n else m)⟩ ∧
      heartBeats cfg n
          (cfg.client.onTimer ⟨uvNow cfg.clientClock r, uvNow cfg.clientClock m⟩
            (uvNow cfg.clientClock n)).2 = if m + maxWrite cfg < n then [n] else [] := by
  have hread := hrange.client_read
  have hwrite := hrange.client_write
  rw [onTimer_eq (by omega) (by omega) (by omega)]
  have hpassed : passed cfg.client.max_write_idle_time m n ↔ m + maxWrite cfg < n :=
    and_iff_right hpos
  refine ⟨_, ?_, by simp only [hpassed]; rfl, ?_⟩
  · split
    · exact Nat.le_refl _
    · exact hr
  · simp only [hpassed]
    by_cases hlt : m + maxWrite cfg < n
    · by_cases hr' : passed cfg.client.max_read_idle_time r n
      · simp [heartBeats, hlt, hr', heartBeatOnWriteIdle]
      · simp [heartBeats, hlt, hr', heartBeatOnWriteIdle]
    · by_cases hr' : passed cfg.client.max_read_idle_time r n
      · simp [heartBeats, hlt, hr', heartBeatOnWriteIdle]
      · simp [heartBeats, hlt, hr']

/-! ## The stages -/

section Stages

variable {cfg : KeepAliveCfg} {s : KeepAlive}

/-- Time goes on, as long as nothing is late. -/
theorem Beats.elapse (h : Beats cfg s) (htime : inTime cfg s = true) :
    Beats cfg { s with now := s.now + 1 } := by
  obtain ⟨hnone, hsome, hq, hf⟩ := inTime_iff.mp htime
  exact { tick_le := Nat.le_succ_of_le h.tick_le
          queued_le := fun q hmem =>
            ⟨Nat.le_succ_of_le (h.queued_le q hmem).1, hq q hmem⟩
          flight_le := fun f hmem =>
            ⟨Nat.le_succ_of_le (h.flight_le f hmem).1, hf f hmem⟩
          start := fun hc => ⟨hnone hc, (h.start hc).2⟩
          stamp := fun channel hc => by
            obtain ⟨r, hr, m, hm, heq, -, htick, hlast⟩ := h.stamp channel hc
            have hlate := hsome (by rw [show s.client = some channel from hc]; rfl)
            exact ⟨r, Nat.le_succ_of_le hr, m, Nat.le_succ_of_le hm, heq, hlate, htick, hlast⟩
          next_queued := h.next_queued
          next_flight := h.next_flight }

/-- The connecting side starts its timer. -/
theorem Beats.connect (h : Beats cfg s) (hnone : s.client = none) :
    Beats cfg { s with
      client := some (.initPackTime (uvNow cfg.clientClock s.now))
      clientTick := s.now } where
  tick_le := Nat.le_refl _
  queued_le := h.queued_le
  flight_le := h.flight_le
  start hc := by cases hc
  stamp channel hc := by
    obtain rfl := Option.some.inj hc
    have hstart := (h.start hnone).1
    refine ⟨s.now, Nat.le_refl _, s.now, Nat.le_refl _, rfl, ?_, ?_, fun _ _ => ?_⟩
    · show s.now ≤ s.now + clientInterval cfg + cfg.lateness
      omega
    · show s.now ≤ s.now + maxWrite cfg
      omega
    · show s.now ≤ s.heard + cfg.connectDelay
      omega
  next_queued := h.next_queued
  next_flight := h.next_flight

/-- The first of the queue behind another entry: it is the old first one, or the new entry,
    which is one gap behind the last sign of life. -/
theorem Beats.next_of_append (h : Beats cfg s) {q : Nat} {qs : List Nat}
    (hq : s.queued ++ [s.now] = q :: qs) (hf : s.flight = [])
    (hnow : s.queued = [] → s.now ≤ s.heard + cfg.connectDelay + gap cfg) :
    q ≤ s.heard + cfg.connectDelay + gap cfg := by
  cases hold : s.queued with
  | cons q₀ qs₀ =>
    rw [hold] at hq
    obtain rfl := (List.cons.inj hq).1
    exact h.next_queued _ _ hold hf
  | nil =>
    rw [hold] at hq
    obtain rfl := (List.cons.inj hq).1
    exact hnow hold

/-- The connecting side's timer fires, and sends when the time stamp is behind the limit. -/
theorem Beats.clientTimer (h : Beats cfg s) (hpos : 0 < maxWrite cfg) (hrange : InRange cfg s.now)
    {channel : PackTimes} (hsome : s.client = some channel) :
    Beats cfg { s with
      client := some (cfg.client.onTimer channel (uvNow cfg.clientClock s.now)).1
      clientTick := s.now
      queued := s.queued ++ heartBeats cfg s.now
        (cfg.client.onTimer channel (uvNow cfg.clientClock s.now)).2 } := by
  obtain ⟨r, hr, m, hm, rfl, hlate, htick, hlast⟩ := h.stamp _ hsome
  obtain ⟨r', hr', hstamps, hqueue⟩ := clientTimer_spec hpos hr hm hrange
  rw [hstamps, hqueue]
  by_cases hlt : m + maxWrite cfg < s.now
  · -- a heartbeat is queued
    rw [if_pos hlt, if_pos hlt]
    exact { tick_le := Nat.le_refl _
            queued_le := fun q hmem => by
              rcases List.mem_append.mp hmem with hold | hbeat
              · exact h.queued_le q hold
              · obtain rfl := List.mem_singleton.mp hbeat
                exact ⟨Nat.le_refl _, Nat.le_add_right _ _⟩
            flight_le := h.flight_le
            start := fun hc => by cases hc
            stamp := fun channel hc => by
              obtain rfl := Option.some.inj hc
              refine ⟨r', hr', s.now, Nat.le_refl _, rfl, ?_, ?_, fun hq _ => by simp at hq⟩
              · show s.now ≤ s.now + clientInterval cfg + cfg.lateness
                omega
              · show s.now ≤ s.now + maxWrite cfg
                omega
            next_queued := fun q qs hq hf => h.next_of_append hq hf fun hold => by
              have := hlast hold hf
              simp only [gap]
              omega
            next_flight := h.next_flight }
  · -- the stamp is not behind the limit, and stays
    rw [if_neg hlt, if_neg hlt, List.append_nil]
    exact { tick_le := Nat.le_refl _
            queued_le := h.queued_le
            flight_le := h.flight_le
            start := fun hc => by cases hc
            stamp := fun channel hc => by
              obtain rfl := Option.some.inj hc
              refine ⟨r', hr', m, hm, rfl, ?_, ?_, hlast⟩
              · show s.now ≤ s.now + clientInterval cfg + cfg.lateness
                omega
              · show s.now ≤ m + maxWrite cfg
                omega
            next_queued := h.next_queued
            next_flight := h.next_flight }

/-- The connecting side sends something. -/
theorem Beats.queue (h : Beats cfg s) {channel : PackTimes} (hsome : s.client = some channel) :
    Beats cfg { s with queued := s.queued ++ [s.now] } := by
  obtain ⟨r, hr, m, hm, rfl, hlate, htick, hlast⟩ := h.stamp _ hsome
  exact { tick_le := h.tick_le
          queued_le := fun q hmem => by
            rcases List.mem_append.mp hmem with hold | hnew
            · exact h.queued_le q hold
            · obtain rfl := List.mem_singleton.mp hnew
              exact ⟨Nat.le_refl _, Nat.le_add_right _ _⟩
          flight_le := h.flight_le
          start := fun hc => by rw [show s.client = none from hc] at hsome; cases hsome
          stamp := fun channel hc => by
            obtain rfl := Option.some.inj (hsome.symm.trans hc)
            exact ⟨r, hr, m, hm, rfl, hlate, htick, fun hq _ => by simp at hq⟩
          next_queued := fun q qs hq hf => h.next_of_append hq hf fun hold => by
            have := hlast hold hf
            simp only [gap]
            omega
          next_flight := h.next_flight }

/-- A frame is dropped while another one is under way. -/
theorem Beats.drop (h : Beats cfg s) {channel : PackTimes} {q : Nat} {queued : List Nat}
    (hsome : s.client = some channel) (hqueued : s.queued = q :: queued)
    (hflight : s.flight ≠ []) : Beats cfg { s with queued := queued } where
  tick_le := h.tick_le
  queued_le q hmem := h.queued_le q (by rw [hqueued]; exact List.mem_cons_of_mem _ hmem)
  flight_le := h.flight_le
  start hc := by rw [show s.client = none from hc] at hsome; cases hsome
  stamp channel hc := by
    obtain ⟨r, hr, m, hm, heq, hlate, htick, -⟩ := h.stamp channel hc
    exact ⟨r, hr, m, hm, heq, hlate, htick, fun _ hf => absurd hf hflight⟩
  next_queued q qs _ hf := absurd hf hflight
  next_flight := h.next_flight

/-- The first of the queue goes on its way. -/
theorem Beats.append (h : Beats cfg s) {channel : PackTimes} {q : Nat} {queued : List Nat}
    (hsome : s.client = some channel) (hqueued : s.queued = q :: queued) :
    Beats cfg { s with
      client := some { channel with last_send_time := uvNow cfg.clientClock s.now }
      queued := queued
      flight := s.flight ++ [s.now] } := by
  obtain ⟨r, hr, m, hm, rfl, hlate, htick, -⟩ := h.stamp _ hsome
  have hq := h.queued_le q (by rw [hqueued]; exact List.mem_cons_self)
  exact { tick_le := h.tick_le
          queued_le := fun q' hmem =>
            h.queued_le q' (by rw [hqueued]; exact List.mem_cons_of_mem _ hmem)
          flight_le := fun f hmem => by
            rcases List.mem_append.mp hmem with hold | hnew
            · exact h.flight_le f hold
            · obtain rfl := List.mem_singleton.mp hnew
              exact ⟨Nat.le_refl _, Nat.le_add_right _ _⟩
          start := fun hc => by cases hc
          stamp := fun channel hc => by
            obtain rfl := Option.some.inj hc
            have hle := h.tick_le
            refine ⟨r, hr, s.now, Nat.le_refl _, rfl, hlate, ?_, fun _ hf => by simp at hf⟩
            show s.clientTick ≤ s.now + maxWrite cfg
            omega
          next_queued := fun q' qs _ hf => by simp at hf
          next_flight := fun f fs hf => by
            cases hold : s.flight with
            | cons f₀ fs₀ =>
              rw [hold] at hf
              obtain rfl := (List.cons.inj hf).1
              exact h.next_flight _ _ hold
            | nil =>
              -- it was the next sign of life in the queue
              rw [hold] at hf
              obtain rfl := (List.cons.inj hf).1
              have := h.next_queued q queued hqueued hold
              show s.now ≤ s.heard + cfg.connectDelay + gap cfg + cfg.taskDelay
              omega }

/-- A frame arrives at an open channel: a sign of life. -/
theorem Beats.arrive (h : Beats cfg s) {f₀ : Nat} {flight : List Nat}
    (hflight : s.flight = f₀ :: flight) :
    Beats cfg { s with
      flight := flight
      server := { s.server with last_recv_time := uvNow cfg.serverClock s.now }
      heard := s.now } where
  tick_le := h.tick_le
  queued_le := h.queued_le
  flight_le f hmem := h.flight_le f (by rw [hflight]; exact List.mem_cons_of_mem _ hmem)
  start hc := by
    have := (h.start hc).2.2
    rw [hflight] at this
    cases this
  stamp channel hc := by
    obtain ⟨r, hr, m, hm, heq, hlate, htick, -⟩ := h.stamp channel hc
    refine ⟨r, hr, m, hm, heq, hlate, htick, fun _ _ => ?_⟩
    show m ≤ s.now + cfg.connectDelay
    omega
  -- what is queued or under way is not in the future
  next_queued q qs hq _ := by
    have := (h.queued_le q (by
      rw [show s.queued = q :: qs from hq]; exact List.mem_cons_self)).1
    show q ≤ s.now + cfg.connectDelay + gap cfg
    omega
  next_flight f fs hf := by
    have hrest : flight = f :: fs := hf
    have hmem : f ∈ s.flight := by
      rw [hflight, hrest]
      exact List.mem_cons_of_mem f₀ List.mem_cons_self
    have := (h.flight_le f hmem).1
    show f ≤ s.now + cfg.connectDelay + gap cfg + cfg.taskDelay
    omega

end Stages

/-- Each stage is in time when the one before it was.  The channel stays open in `s`; a frame
    read by a closed channel would be no sign of life. -/
theorem beats_step {cfg : KeepAliveCfg} (hhealthy : cfg.healthy = true)
    (hpos : 0 < maxWrite cfg) {s s' : KeepAlive} (hrange : InRange cfg s.now)
    (hopen : s.closed = false) (h : Beats cfg s)
    (hstep : Step cfg s s') : Beats cfg s' := by
  cases hstep with
  | elapse hserver htime => exact h.elapse (htime hhealthy)
  | connect hnone => exact h.connect hnone
  | clientTimer hsome hdue => exact h.clientTimer hpos hrange hsome
  | queue hsome => exact h.queue hsome
  | drop hsome hqueued hflight => exact h.drop hsome hqueued hflight
  | append hsome hqueued => exact h.append hsome hqueued
  | lost hflight hclosed =>
    rw [hopen] at hclosed
    cases hclosed
  | arrive hflight hopen' => exact h.arrive hflight
  | serverTimer hopen' hdue => exact { h with }

/-- Heartbeats keep a connection open.  A healthy connection, on which sends, heartbeats and
    frames come in any order and some heartbeats are dropped, is never closed for silence, when
    the accepting side's limit is not below the sum of the delays: of the connecting side's
    start, its limit, its timer, its loop, and of the frame on its way. -/
theorem heartbeat_keeps_alive (cfg : KeepAliveCfg) (hhealthy : cfg.healthy = true)
    (hwrite : 0 < maxWrite cfg) (hread : 0 < maxRead cfg)
    (htiming : cfg.connectDelay + (maxWrite cfg + clientInterval cfg + cfg.lateness) +
      cfg.taskDelay + cfg.delivery ≤ maxRead cfg)
    (acts : List KeepAliveAct) (s : KeepAlive)
    (hrun : Run.run (KeepAlive.step cfg) (init cfg) acts = some s)
    (hrange : InRange cfg s.now) : s.closed = false := by
  suffices hinv : Watch cfg s ∧ Beats cfg s ∧ s.closed = false from hinv.2.2
  refine Run.invariant
    (P := fun s => InRange cfg s.now → Watch cfg s ∧ Beats cfg s ∧ s.closed = false) ?_
    (fun _ => ⟨watch_init cfg, beats_init cfg, rfl⟩) hrun hrange
  intro s a s' hs hstep hrange'
  have hcases := step_cases hstep
  have hr := hrange'.mono hcases.now_le
  obtain ⟨hwatch, hbeats, hopen⟩ := hs hr
  have hbeats' := beats_step hhealthy hwrite hr hopen hbeats hcases
  have hwatch' := hwatch.step hread hr hcases
  refine ⟨hwatch', hbeats', ?_⟩
  -- a closed channel would have been silent for longer than `Beats` allows
  by_contra hclosed
  have hsilent := hwatch'.silent (by simpa using hclosed)
  have hheard := hbeats'.heard
  simp only [gap] at hheard
  omega

/-- A limit of 8 is enough for a start that is 1 late, a limit of 2, timers that are 1 late, a
    task that waits for 1 and a frame that takes 1.  The second turn of the connecting side's
    timer sends a heartbeat. -/
theorem heartbeat_keeps_alive_tight :
    let cfg : KeepAliveCfg :=
      { client := TcpClient.setChannelIdleTime 2 0, server := AthenaTcpServer.setChannelIdleTime 8 0
        heartBeat := HEART_BEAT_REQUEST, clientClock := 1000, serverClock := 70, lateness := 1
        connectDelay := 1, taskDelay := 1, delivery := 1, healthy := true }
    ∃ s, Run.run (KeepAlive.step cfg) (init cfg)
        [.connect, .elapse, .elapse, .clientTimer, .elapse, .elapse, .clientTimer,
          .clientTask false, .elapse, .arrive, .elapse, .clientTimer, .elapse, .elapse,
          .serverTimer] = some s ∧
      s.now = 8 ∧ s.heard = 5 ∧ s.closed = false := by
  intro cfg
  have hlast : (Run.run (KeepAlive.step cfg) (init cfg)
      [.connect, .elapse, .elapse, .clientTimer, .elapse, .elapse, .clientTimer,
        .clientTask false, .elapse, .arrive, .elapse, .clientTimer, .elapse, .elapse,
        .serverTimer]).map (fun s => (s.now, s.heard)) = some (8, 5) := by decide +kernel
  obtain ⟨s, hrun, hs⟩ := Option.map_eq_some_iff.mp hlast
  obtain ⟨hnow, hheard⟩ := Prod.mk.inj hs
  have hrange : InRange cfg s.now := by
    rw [hnow]
    exact ⟨by decide, by decide, by decide, by decide⟩
  exact ⟨s, hrun, hnow, hheard, heartbeat_keeps_alive cfg rfl (by decide) (by decide) (by decide)
    _ s hrun hrange⟩

end KeepAlive

end Athena
