import Athena.ForStd.Run
import Athena.Native.IdleStateHandler

/-!
# Heartbeats and idle connections

A node that connects to another sends a heartbeat when it has sent nothing for a while; a
node that accepts connections closes those from which it has received nothing for a while.
`KeepAlive` is one such connection with a clock that both sides share, each side's `uv_now`
running at the same rate from a start of its own.

Nothing in the code bounds how late a timer fires, how long a task waits in its loop's queue
or how long a frame is under way.  These bounds are parameters.  Time does not go on past the
latest moment at which the accepting side's timer fires; that the connecting side and the
network keep their bounds as well is what `healthy` says.

## Key results

- `KeepAlive.Watch.step`: the accepting side's timer watches the last read
- `KeepAlive.silence_detected`: a connection is closed for silence within the limit and one
  turn of the timer, and for nothing else
-/

namespace Athena

open IdleStateHandler

/-- Two nodes, and how late things may happen between them. -/
structure KeepAliveCfg where
  /-- the idle handler of the node that connects -/
  client : IdleStateHandler
  /-- the idle handler of the node that accepts -/
  server : IdleStateHandler
  heartBeat : Int32
  clientClock : Nat
  serverClock : Nat
  /-- how late a timer fires -/
  lateness : Nat
  /-- how much later than the accepting side the connecting side starts its timer -/
  connectDelay : Nat
  /-- how long a task of the connecting side's loop waits -/
  taskDelay : Nat
  /-- how long a frame takes from the send ring to the other side's `on_read` -/
  delivery : Nat
  healthy : Bool

/-- What happens on the connection. -/
inductive KeepAliveAct where
  | elapse
  /-- the connecting side's `onNewConnection` -/
  | connect
  | clientTimer
  /-- `sendMsg` from any thread -/
  | clientSend
  /-- the next task of the connecting side's loop; `full`: its frame does not fit into the
      send ring and is dropped -/
  | clientTask (full : Bool)
  /-- the accepting side reads the next frame -/
  | arrive
  | serverTimer

/-- A connection, seen from the accepting side's `onNewConnection` on. -/
structure KeepAlive where
  now : Nat
  client : Option PackTimes
  /-- when the connecting side's timer was started or last fired -/
  clientTick : Nat
  /-- when the sends that wait in its loop were queued -/
  queued : List Nat
  /-- when the frames that have not been read were appended -/
  flight : List Nat
  server : PackTimes
  serverTick : Nat
  /-- the accepting side has closed the channel -/
  closed : Bool
  /-- when the accepting side last read something, or accepted -/
  heard : Nat

namespace KeepAlive

/-- A connection that has just been made. -/
def init (cfg : KeepAliveCfg) : KeepAlive where
  now := 0
  client := none
  clientTick := 0
  queued := []
  flight := []
  server := .initPackTime (uvNow cfg.serverClock 0)
  serverTick := 0
  closed := false
  heard := 0

/-- The timer of each side. -/
def clientInterval (cfg : KeepAliveCfg) : Nat := cfg.client.timerIntervalMs.toNat

/-- The interval of the accepting side's timer. -/
def serverInterval (cfg : KeepAliveCfg) : Nat := cfg.server.timerIntervalMs.toNat

/-- The heartbeats that the connecting side's handler sends. -/
def heartBeats (cfg : KeepAliveCfg) (now : Nat) (reasons : List TriggerEventEnum) : List Nat :=
  reasons.filterMap fun reason =>
    match heartBeatOnWriteIdle cfg.heartBeat reason with
    | .sendMsg _ => some now
    | _ => none

/-- The connecting side and the network still have time. -/
def inTime (cfg : KeepAliveCfg) (s : KeepAlive) : Bool :=
  (match s.client with
    | none => decide (s.now < cfg.connectDelay)
    | some _ => decide (s.now < s.clientTick + clientInterval cfg + cfg.lateness)) &&
  s.queued.all (fun q => decide (s.now < q + cfg.taskDelay)) &&
  s.flight.all (fun f => decide (s.now < f + cfg.delivery))

/-- A step of the two sides. -/
def step (cfg : KeepAliveCfg) (s : KeepAlive) : KeepAliveAct → Option KeepAlive
  | .elapse =>
    if (s.closed = true ∨ s.now < s.serverTick + serverInterval cfg + cfg.lateness) ∧
        (cfg.healthy = true → inTime cfg s = true) then
      some { s with now := s.now + 1 }
    else none
  | .connect =>
    match s.client with
    | none =>
      -- `startHeartbeatTimer`
      some { s with
        client := some (.initPackTime (uvNow cfg.clientClock s.now))
        clientTick := s.now }
    | some _ => none
  | .clientTimer =>
    match s.client with
    | none => none
    | some channel =>
      if s.clientTick + clientInterval cfg ≤ s.now then
        let (channel, reasons) := cfg.client.onTimer channel (uvNow cfg.clientClock s.now)
        some { s with
          client := some channel
          clientTick := s.now
          queued := s.queued ++ heartBeats cfg s.now reasons }
      else none
  | .clientSend =>
    if s.client.isSome then some { s with queued := s.queued ++ [s.now] } else none
  | .clientTask full =>
    match s.client, s.queued with
    | some channel, _ :: queued =>
      if full then
        -- the ring is full of frames that have not been read
        if s.flight = [] then none else some { s with queued := queued }
      else
        some { s with
          client := some { channel with last_send_time := uvNow cfg.clientClock s.now }
          queued := queued
          flight := s.flight ++ [s.now] }
    | _, _ => none
  | .arrive =>
    match s.flight with
    | [] => none
    | _ :: flight =>
      if s.closed then some { s with flight := flight }
      else
        some { s with
          flight := flight
          server := { s.server with last_recv_time := uvNow cfg.serverClock s.now }
          heard := s.now }
  | .serverTimer =>
    if s.closed = false ∧ s.serverTick + serverInterval cfg ≤ s.now then
      let (channel, reasons) := cfg.server.onTimer s.server (uvNow cfg.serverClock s.now)
      some { s with
        server := channel
        serverTick := s.now
        closed := reasons.any fun reason => closeOnReadIdle reason = .close }
    else none

/-- No clock has overflowed, and none does within the limits. -/
structure InRange (cfg : KeepAliveCfg) (now : Nat) : Prop where
  client_read : cfg.clientClock + now + cfg.client.max_read_idle_time.toNat < 2 ^ 64
  client_write : cfg.clientClock + now + cfg.client.max_write_idle_time.toNat < 2 ^ 64
  server_read : cfg.serverClock + now + cfg.server.max_read_idle_time.toNat < 2 ^ 64
  server_write : cfg.serverClock + now + cfg.server.max_write_idle_time.toNat < 2 ^ 64

/-- What is in range now was so before. -/
theorem InRange.mono {cfg : KeepAliveCfg} {n m : Nat} (h : InRange cfg m) (hle : n ≤ m) :
    InRange cfg n where
  client_read := by have := h.client_read; omega
  client_write := by have := h.client_write; omega
  server_read := by have := h.server_read; omega
  server_write := by have := h.server_write; omega

/-- What a step can do. -/
inductive Step (cfg : KeepAliveCfg) (s : KeepAlive) : KeepAlive → Prop where
  | elapse (hserver : s.closed = true ∨ s.now < s.serverTick + serverInterval cfg + cfg.lateness)
      (htime : cfg.healthy = true → inTime cfg s = true) : Step cfg s { s with now := s.now + 1 }
  | connect (hnone : s.client = none) :
      Step cfg s { s with
        client := some (.initPackTime (uvNow cfg.clientClock s.now))
        clientTick := s.now }
  | clientTimer {channel : PackTimes} (hsome : s.client = some channel)
      (hdue : s.clientTick + clientInterval cfg ≤ s.now) :
      Step cfg s { s with
        client := some (cfg.client.onTimer channel (uvNow cfg.clientClock s.now)).1
        clientTick := s.now
        queued := s.queued ++ heartBeats cfg s.now
          (cfg.client.onTimer channel (uvNow cfg.clientClock s.now)).2 }
  | queue {channel : PackTimes} (hsome : s.client = some channel) :
      Step cfg s { s with queued := s.queued ++ [s.now] }
  | drop {channel : PackTimes} {q : Nat} {queued : List Nat} (hsome : s.client = some channel)
      (hqueued : s.queued = q :: queued) (hflight : s.flight ≠ []) :
      Step cfg s { s with queued := queued }
  | append {channel : PackTimes} {q : Nat} {queued : List Nat}
      (hsome : s.client = some channel) (hqueued : s.queued = q :: queued) :
      Step cfg s { s with
        client := some { channel with last_send_time := uvNow cfg.clientClock s.now }
        queued := queued
        flight := s.flight ++ [s.now] }
  | lost {f : Nat} {flight : List Nat} (hflight : s.flight = f :: flight)
      (hclosed : s.closed = true) : Step cfg s { s with flight := flight }
  | arrive {f : Nat} {flight : List Nat} (hflight : s.flight = f :: flight)
      (hopen : s.closed = false) :
      Step cfg s { s with
        flight := flight
        server := { s.server with last_recv_time := uvNow cfg.serverClock s.now }
        heard := s.now }
  | serverTimer (hopen : s.closed = false) (hdue : s.serverTick + serverInterval cfg ≤ s.now) :
      Step cfg s { s with
        server := (cfg.server.onTimer s.server (uvNow cfg.serverClock s.now)).1
        serverTick := s.now
        closed := (cfg.server.onTimer s.server (uvNow cfg.serverClock s.now)).2.any fun reason =>
          closeOnReadIdle reason = .close }

/-- Every step is one of the list. -/
theorem step_cases {cfg : KeepAliveCfg} {s s' : KeepAlive} {a : KeepAliveAct}
    (h : step cfg s a = some s') : Step cfg s s' := by
  cases a with
  | elapse =>
    simp only [step] at h
    split at h
    · rename_i hok
      obtain rfl := Option.some.inj h
      exact .elapse hok.1 hok.2
    · cases h
  | connect =>
    simp only [step] at h
    split at h
    · rename_i hnone
      obtain rfl := Option.some.inj h
      exact .connect hnone
    · cases h
  | clientTimer =>
    simp only [step] at h
    split at h
    · cases h
    · rename_i channel hsome
      split at h
      · rename_i hdue
        obtain rfl := Option.some.inj h
        exact .clientTimer hsome hdue
      · cases h
  | clientSend =>
    simp only [step] at h
    split at h
    · rename_i hsome
      obtain ⟨channel, hchannel⟩ := Option.isSome_iff_exists.mp hsome
      obtain rfl := Option.some.inj h
      exact .queue hchannel
    · cases h
  | clientTask full =>
    simp only [step] at h
    split at h
    · rename_i channel q queued hsome hqueued
      split at h
      · split at h
        · cases h
        · rename_i hflight
          obtain rfl := Option.some.inj h
          exact .drop hsome hqueued hflight
      · obtain rfl := Option.some.inj h
        exact .append hsome hqueued
    · cases h
  | arrive =>
    simp only [step] at h
    split at h
    · cases h
    · rename_i f flight hflight
      split at h
      · rename_i hclosed
        obtain rfl := Option.some.inj h
        exact .lost hflight hclosed
      · rename_i hopen
        obtain rfl := Option.some.inj h
        exact .arrive hflight (by simpa using hopen)
  | serverTimer =>
    simp only [step] at h
    split at h
    · rename_i hok
      obtain rfl := Option.some.inj h
      exact .serverTimer hok.1 hok.2
    · cases h

/-- Time goes forward. -/
theorem Step.now_le {cfg : KeepAliveCfg} {s s' : KeepAlive} (h : Step cfg s s') :
    s.now ≤ s'.now := by
  cases h with
  | elapse => exact Nat.le_succ _
  | connect | clientTimer | queue | drop | append | lost | arrive | serverTimer =>
    exact Nat.le_refl _

/-! ## The accepting side -/

/-- The accepting side's limit. -/
def maxRead (cfg : KeepAliveCfg) : Nat := cfg.server.max_read_idle_time.toNat

/-- The timer of the accepting side watches `heard`. -/
structure Watch (cfg : KeepAliveCfg) (s : KeepAlive) : Prop where
  heard_le : s.heard ≤ s.now
  tick_le : s.serverTick ≤ s.now
  stamps : s.closed = false → ∃ w ≤ s.now,
    s.server = ⟨uvNow cfg.serverClock s.heard, uvNow cfg.serverClock w⟩
  /-- when it last fired the connection had not been silent for too long -/
  tick : s.closed = false → s.serverTick ≤ s.heard + maxRead cfg
  late : s.closed = false → s.now ≤ s.serverTick + serverInterval cfg + cfg.lateness
  silent : s.closed = true → s.heard + maxRead cfg < s.now

/-- It holds of a new connection. -/
theorem watch_init (cfg : KeepAliveCfg) : Watch cfg (init cfg) where
  heard_le := Nat.le_refl 0
  tick_le := Nat.le_refl 0
  stamps _ := ⟨0, Nat.le_refl 0, rfl⟩
  tick _ := Nat.zero_le _
  late _ := Nat.zero_le _
  silent h := by cases h

/-- What the accepting side's timer does: it closes the channel exactly if `heard` is behind
    the limit. -/
theorem Watch.onTimer {cfg : KeepAliveCfg} {s : KeepAlive} (h : Watch cfg s)
    (hpos : 0 < maxRead cfg) (hrange : InRange cfg s.now) (hopen : s.closed = false) :
    ∃ w ≤ s.now, (cfg.server.onTimer s.server (uvNow cfg.serverClock s.now)).1 =
        ⟨uvNow cfg.serverClock (if s.heard + maxRead cfg < s.now then s.now else s.heard),
          uvNow cfg.serverClock w⟩ ∧
      (((cfg.server.onTimer s.server (uvNow cfg.serverClock s.now)).2.any fun reason =>
        closeOnReadIdle reason = .close) = decide (s.heard + maxRead cfg < s.now)) := by
  obtain ⟨w, hw, hstamps⟩ := h.stamps hopen
  have hheard := h.heard_le
  have hread := hrange.server_read
  have hwrite := hrange.server_write
  rw [hstamps, onTimer_eq (by omega) (by omega) (by omega)]
  have hpassed : passed cfg.server.max_read_idle_time s.heard s.now ↔
      s.heard + maxRead cfg < s.now := and_iff_right hpos
  refine ⟨_, ?_, by simp only [hpassed]; rfl, ?_⟩
  · split
    · exact Nat.le_refl _
    · exact hw
  · simp only [hpassed]
    by_cases hlt : s.heard + maxRead cfg < s.now
    · simp [hlt, closeOnReadIdle]
    · by_cases hw' : passed cfg.server.max_write_idle_time w s.now
      · simp [hlt, hw', closeOnReadIdle]
      · simp [hlt, hw']

/-- Every step keeps the watch. -/
theorem Watch.step {cfg : KeepAliveCfg} {s s' : KeepAlive} (hpos : 0 < maxRead cfg)
    (hrange : InRange cfg s.now) (h : Watch cfg s) (hstep : Step cfg s s') : Watch cfg s' := by
  cases hstep with
  | elapse hserver htime =>
    exact { heard_le := Nat.le_succ_of_le h.heard_le
            tick_le := Nat.le_succ_of_le h.tick_le
            stamps := fun hopen => by
              obtain ⟨w, hw, hs⟩ := h.stamps hopen
              exact ⟨w, Nat.le_succ_of_le hw, hs⟩
            tick := h.tick
            late := fun hopen => by
              rcases hserver with hclosed | hlt
              · rw [show s.closed = false from hopen] at hclosed; cases hclosed
              · exact hlt
            silent := fun hclosed => Nat.lt_succ_of_lt (h.silent hclosed) }
  | connect hnone => exact { h with }
  | clientTimer hsome hdue => exact { h with }
  | queue hsome => exact { h with }
  | drop hsome hqueued hflight => exact { h with }
  | append hsome hqueued => exact { h with }
  | lost hflight hclosed => exact { h with }
  | arrive hflight hopen =>
    obtain ⟨w, hw, hs⟩ := h.stamps hopen
    have htick := h.tick_le
    exact { heard_le := Nat.le_refl _
            tick_le := h.tick_le
            stamps := fun _ => ⟨w, hw, by rw [hs]⟩
            tick := fun _ => by show s.serverTick ≤ s.now + maxRead cfg; omega
            late := h.late
            silent := fun hclosed => by
              rw [show s.closed = true from hclosed] at hopen; cases hopen }
  | serverTimer hopen hdue =>
    obtain ⟨w, hw, hstamps, hcloses⟩ := h.onTimer hpos hrange hopen
    rw [hstamps, hcloses]
    refine { heard_le := h.heard_le, tick_le := Nat.le_refl _, stamps := ?_, tick := ?_,
             late := ?_, silent := ?_ }
    · intro hstays
      have hge : ¬s.heard + maxRead cfg < s.now := of_decide_eq_false hstays
      exact ⟨w, hw, by rw [if_neg hge]⟩
    · intro hstays
      have hge : ¬s.heard + maxRead cfg < s.now := of_decide_eq_false hstays
      show s.now ≤ s.heard + maxRead cfg
      omega
    · intro _
      show s.now ≤ s.now + serverInterval cfg + cfg.lateness
      omega
    · exact fun hclosed => of_decide_eq_true hclosed

/-- While the clocks are in range the watch holds. -/
theorem watch_run {cfg : KeepAliveCfg} (hpos : 0 < maxRead cfg) {acts : List KeepAliveAct}
    {s : KeepAlive} (hrun : Run.run (KeepAlive.step cfg) (init cfg) acts = some s)
    (hrange : InRange cfg s.now) : Watch cfg s := by
  refine Run.invariant (P := fun s => InRange cfg s.now → Watch cfg s) ?_
    (fun _ => watch_init cfg) hrun hrange
  intro s a s' hs hstep hrange'
  have hcases := step_cases hstep
  have hr := hrange'.mono hcases.now_le
  exact (hs hr).step hpos hr hcases

/-- Silence is detected, and nothing else is.  A connection that the accepting side has closed
    has been silent for longer than its limit; one that it has not closed has been heard of
    within the limit, one period of the timer and the timer's lateness.  Whatever the connecting
    side and the network do: they may stop altogether. -/
theorem silence_detected (cfg : KeepAliveCfg) (hpos : 0 < maxRead cfg)
    (acts : List KeepAliveAct) (s : KeepAlive)
    (hrun : Run.run (KeepAlive.step cfg) (init cfg) acts = some s)
    (hrange : InRange cfg s.now) :
    (s.closed = true → s.heard + maxRead cfg < s.now) ∧
    (s.closed = false → s.now ≤ s.heard + maxRead cfg + serverInterval cfg + cfg.lateness) := by
  have hwatch := watch_run hpos hrun hrange
  refine ⟨hwatch.silent, fun hopen => ?_⟩
  have htick := hwatch.tick hopen
  have hlate := hwatch.late hopen
  omega

/-- The connecting side never starts: the second turn of the timer closes the channel. -/
theorem silence_detected_dead :
    let cfg : KeepAliveCfg :=
      { client := TcpClient.setChannelIdleTime 2 0, server := AthenaTcpServer.setChannelIdleTime 3 0
        heartBeat := HEART_BEAT_REQUEST, clientClock := 1000, serverClock := 70, lateness := 1
        connectDelay := 1, taskDelay := 1, delivery := 1, healthy := false }
    ∃ s, Run.run (KeepAlive.step cfg) (init cfg)
        [.elapse, .elapse, .elapse, .serverTimer, .elapse, .elapse, .elapse, .serverTimer] =
          some s ∧
      s.closed = true ∧ s.heard + maxRead cfg < s.now := by
  intro cfg
  have hlast : (Run.run (KeepAlive.step cfg) (init cfg)
      [.elapse, .elapse, .elapse, .serverTimer, .elapse, .elapse, .elapse, .serverTimer]).map
      (fun s => (s.now, s.closed)) = some (6, true) := by decide +kernel
  obtain ⟨s, hrun, hs⟩ := Option.map_eq_some_iff.mp hlast
  obtain ⟨hnow, hclosed⟩ := Prod.mk.inj hs
  have hrange : InRange cfg s.now := by
    rw [hnow]
    exact ⟨by decide, by decide, by decide, by decide⟩
  exact ⟨s, hrun, hclosed, (silence_detected cfg (by decide) _ s hrun hrange).1 hclosed⟩

end KeepAlive

end Athena
