import Athena.Spec.ConnectionDelivery

/-!
# A connection delivers everything

Nobody closes a calm connection: no `close()`, no failed write or read, memory for every
packet, and no frame that the other end's receive ring cannot hold.  Then the channels do
not close themselves either, and what has been sent gets through, in whatever order the
kernels and the two event loops go on.

`pending` counts the work that is left.  Every step that moves bytes on makes it smaller
(`Calm.moves`), and where no such step is possible nothing is on its way (`Calm.stuck`).

## Key results

- `Connection.calm_step`: a calm step keeps both ends open
- `Connection.delivery_finishes`: all messages arrive after at most `pending` steps
-/

namespace Athena

open Channel RingByteBuf Framing

/-- The message that an action on the send path sends. -/
def SendAct.outMsg : SendAct → Option OutMsg
  | .write _ _ _ msgId msg playerId => some ⟨msgId, msg.serialize.getD [], playerId⟩
  | .rawWrite _ _ msg => some msg
  | _ => none

/-- An action on the send path that closes nothing. -/
def SendAct.Calm : SendAct → Prop
  | .write _ raced ret _ _ _ => raced = false ∧ ret = 0
  | .rawWrite raced ret _ => raced = false ∧ ret = 0
  | .writeDone _ status ret => 0 ≤ status ∧ ret = 0
  | .close => False
  | .closeInLoop => False

/-! ## Calls -/

namespace Channel

/-- `doUvSend` leaves an open channel open when `uv_write` accepts the request. -/
theorem doUvSend_open {ch : Channel} (h : ch.closed_ = false) :
    (doUvSend 0 ch).1.closed_ = false := by
  simp only [doUvSend]
  split
  · exact h
  · split
    · exact h
    · simp only [ne_eq, not_true_eq_false, if_false]
      exact h

/-- A send that nothing goes wrong with leaves the channel open. -/
theorem sends_open {ch : Channel} {msgId : Int32} {body : List UInt8} {playerId : Int64}
    {out : SendOut} (h : ch.closed_ = false) (hs : Sends false 0 ch msgId body playerId out) :
    out.chan.closed_ = false := by
  rcases hs with rfl | ⟨-, -, -, rfl⟩
  · exact h
  · simp only [appendAndSend, Bool.or_false]
    split
    · apply doUvSend_open
      exact h
    · exact h

end Channel

namespace Sender

/-- A calm action keeps an open channel open, and records no message but its own. -/
theorem calm_step {s s' : Sender} {a : SendAct} (h : Inv s) (hopen : s.chan.closed_ = false)
    (ha : a.Calm) (hstep : s.step a = some s') :
    s'.chan.closed_ = false ∧ ∀ m ∈ s'.frames, m ∈ s.frames ∨ a.outMsg = some m := by
  have hsent : ∀ {out} {msg : OutMsg},
      Sends false 0 s.chan msg.msgId msg.body msg.playerId out →
      (s.sent out msg).chan.closed_ = false ∧
        ∀ m ∈ (s.sent out msg).frames, m ∈ s.frames ∨ m = msg := by
    intro out msg hout
    refine ⟨sends_open hopen hout, fun m hm => ?_⟩
    simp only [sent] at hm
    split at hm
    · simpa [List.mem_append] using hm
    · exact .inl hm
  cases a with
  | write packBuf raced ret msgId msg playerId =>
    obtain ⟨rfl, rfl⟩ := ha
    obtain rfl := Option.some.inj hstep
    obtain ⟨ho, hm⟩ := @hsent _ ⟨msgId, msg.serialize.getD [], playerId⟩
      (eventLoopWrite_sends packBuf false 0 s.chan msgId msg playerId)
    exact ⟨ho, fun m h' => (hm m h').imp (fun h => h) fun he => by rw [he]; rfl⟩
  | rawWrite raced ret msg =>
    obtain ⟨rfl, rfl⟩ := ha
    obtain rfl := Option.some.inj hstep
    obtain ⟨ho, hm⟩ := hsent
      (eventLoopRawWrite_sends false 0 s.chan msg.msgId msg.body msg.playerId)
    exact ⟨ho, fun m h' => (hm m h').imp (fun h => h) fun he => by rw [he]; rfl⟩
  | writeDone i status ret =>
    obtain ⟨hpos, rfl⟩ := ha
    obtain ⟨w, hws, rfl, hframes, -⟩ := writeDone_cases h hstep
    refine ⟨?_, fun m hm => .inl (by rwa [hframes] at hm)⟩
    have hf := h.front w (by rw [hws]; exact List.mem_cons_self)
    have hadv := advanceReadIndex_spec (r := s.chan.send_buff) (n := w.len) hf.len_le
    simp only [step, hws, List.getElem?_cons_zero] at hstep
    split at hstep
    · cases hstep
    · obtain rfl := Option.some.inj hstep
      -- the request's bytes are in the ring, so the read index moves
      simp only [onWriteDone, if_neg (Int.not_lt.mpr hpos), ← hf.len_eq, hadv.1, if_true]
      apply doUvSend_open
      exact hopen
  | close => exact ha.elim
  | closeInLoop => exact ha.elim

end Sender

/-! ## Calm connections -/

/-- A step at one end that moves bytes on. -/
def EndAct.Moves : EndAct → Prop
  | .call (.writeDone _ status ret) => 0 ≤ status ∧ ret = 0
  | .call _ => False
  | .transmit n => 0 < n
  | .read n => 0 < n
  | .readFail _ => False
  | .turn realloc _ => ∀ n ≤ MAX_PACKET_SIZE, realloc n = true

namespace Connection

open Endpoint

/-- A step that closes nothing and sends nothing that the other end cannot hold. -/
def CalmStep (mode : ProtoMode) (c : Connection) (x : Side × EndAct) : Prop :=
  match x.2 with
  | .call a => a.Calm ∧ ∀ m, a.outMsg = some m →
      (m.frame mode).length ≤ (c.ends x.1.peer).chan.recv_buffer.capacity
  | .transmit _ => True
  | .read _ => True
  | .readFail _ => False
  | .turn realloc _ => ∀ n ≤ MAX_PACKET_SIZE, realloc n = true

/-- A step that only moves bytes is a calm one. -/
theorem calmStep_of_moves {mode : ProtoMode} {c : Connection} {x : Side × EndAct}
    (h : x.2.Moves) : CalmStep mode c x := by
  obtain ⟨s, a⟩ := x
  cases a with
  | call a =>
    cases a with
    | writeDone i status ret => exact ⟨h, fun m hm => by cases hm⟩
    | write packBuf raced ret msgId msg playerId => exact h.elim
    | rawWrite raced ret msg => exact h.elim
    | close => exact h.elim
    | closeInLoop => exact h.elim
  | transmit n => trivial
  | read n => trivial
  | readFail nread => exact h.elim
  | turn realloc maxPackBodyLen => exact h

/-- The state of a calm connection. -/
structure Calm (mode : ProtoMode) (c : Connection) : Prop where
  inv : Inv mode c
  opened : ∀ s, (c.ends s).chan.closed_ = false
  fits : ∀ s, ∀ m ∈ (c.ends s).send.frames,
    (m.frame mode).length ≤ (c.ends s.peer).chan.recv_buffer.capacity

/-- The receive ring of an end holds a part of the frames that are still to come. -/
theorem Inv.ring_part {mode : ProtoMode} {c : Connection} (h : Inv mode c) {s : Side}
    (hopen : (c.ends s.peer).chan.closed_ = false) :
    ∃ (qs : List (List UInt8)) (t : List UInt8),
      (∀ q ∈ qs, q ∈ (c.ends s).send.frames.map (OutMsg.frame mode)) ∧
      (c.ends s.peer).chan.recv_buffer.contents ++ t = qs.flatten := by
  have hgot : (c.ends s.peer).got <+: ((c.ends s).send.frames.map (OutMsg.frame mode)).flatten := by
    refine List.IsPrefix.trans ?_ (h.sending s).sent_within
    rw [← h.flow s]
    exact List.prefix_append _ _
  obtain ⟨t, ht⟩ := hgot
  obtain ⟨qs, hqs, hrest⟩ :=
    ((h.receiving s.peer).whole hopen).rest (stable_cut mode) (cut_nil mode) (h.cut_frames s) ht
  exact ⟨qs, t, fun q hq => hqs ▸ List.mem_append_right _ hq, hrest⟩

/-- No illegal header stands in front of an open end. -/
theorem Calm.legal {mode : ProtoMode} {c : Connection} (h : Calm mode c) (s : Side) :
    cut mode (c.ends s.peer).chan.recv_buffer.contents ≠ .illegal := by
  obtain ⟨qs, t, hqs, hrest⟩ := h.inv.ring_part (h.opened s.peer)
  exact ne_illegal (stable_cut mode) (cut_nil mode)
    (fun q hq => h.inv.cut_frames s q (hqs q hq)) hrest

/-- Outside of its parse loop an end has room. -/
theorem Calm.room {mode : ProtoMode} {c : Connection} (h : Calm mode c) (s : Side)
    (hidle : (c.ends s.peer).parsing = false) :
    (c.ends s.peer).chan.recv_buffer.readableBytes <
      (c.ends s.peer).chan.recv_buffer.capacity := by
  obtain ⟨qs, t, hqs, hrest⟩ := h.inv.ring_part (h.opened s.peer)
  have hwaits := (h.inv.receiving s.peer).waits (h.opened s.peer) hidle
  rw [← length_contents]
  rcases length_lt_of_incomplete (fun q hq => h.inv.cut_frames s q (hqs q hq))
    (fun n hn => by rw [hwaits] at hn; cases hn) hrest with hnil | ⟨q, hq, hlt⟩
  · rw [hnil]; exact capacity_pos _
  · obtain ⟨m, hm, rfl⟩ := List.mem_map.mp (hqs q hq)
    exact Nat.lt_of_lt_of_le hlt (h.fits s m hm)

/-- A step at one end that leaves it open, keeps the size of its receive ring and records
    only messages that fit. -/
theorem Calm.put {mode : ProtoMode} {c c' : Connection} (h : Calm mode c) {s : Side}
    {e : Endpoint} (hinv : Inv mode c') (hends : c'.ends = (c.put s e).ends)
    (hopen : e.chan.closed_ = false)
    (hcap : e.chan.recv_buffer.capacity = (c.ends s).chan.recv_buffer.capacity)
    (hframes : ∀ m ∈ e.send.frames, (m.frame mode).length ≤
      (c.ends s.peer).chan.recv_buffer.capacity) : Calm mode c' := by
  have hself : c'.ends s = e := by
    simp only [hends, Connection.put, Function.update_self]
  have hpeer : c'.ends s.peer = c.ends s.peer := by
    simp only [hends, Connection.put, Function.update_of_ne s.peer_ne]
  refine { inv := hinv, opened := fun t => ?_, fits := fun t => ?_ }
  · obtain rfl | rfl := Side.eq_or_eq_peer s t
    · rw [hself]; exact hopen
    · rw [hpeer]; exact h.opened s.peer
  · obtain rfl | rfl := Side.eq_or_eq_peer s t
    · rw [hself, hpeer]; exact hframes
    · rw [Side.peer_peer, hself, hpeer, hcap]
      have := h.fits s.peer
      rwa [Side.peer_peer] at this

/-- A calm step keeps a connection calm. -/
theorem calm_step {mode : ProtoMode} {c c' : Connection} (x : Side × EndAct) (h : Calm mode c)
    (hx : CalmStep mode c x) (hstep : c.step x = some c') : Calm mode c' := by
  have hinv := inv_step x h.inv hstep
  obtain ⟨s, a⟩ := x
  cases a with
  | call a =>
    obtain ⟨e, hcall, rfl⟩ := Option.map_eq_some_iff.mp hstep
    obtain ⟨hsend, -⟩ := call_cases hcall
    obtain ⟨hopen, hframes⟩ := Sender.calm_step (h.inv.sending s).inv (h.opened s) hx.1 hsend
    refine h.put hinv rfl hopen ?_ fun m hm => ?_
    · exact congrArg RingByteBuf.capacity (Sender.recvSame_step hsend).ring
    · cases hframes m hm with
      | inl hold => exact h.fits s m hold
      | inr hnew => exact hx.2 m hnew
  | transmit n =>
    obtain ⟨⟨e, bytes⟩, htr, rfl⟩ := Option.map_eq_some_iff.mp hstep
    simp only [transmit] at htr
    split at htr
    · cases htr
    · split at htr
      · obtain ⟨rfl, rfl⟩ := Prod.mk.inj (Option.some.inj htr)
        exact h.put hinv rfl (h.opened s) rfl (h.fits s)
      · cases htr
  | read n =>
    obtain ⟨e, hread, rfl⟩ := Option.map_eq_some_iff.mp hstep
    obtain ⟨hidle, -, ch, hsame, hcap, -, hstays, rfl⟩ := read_cases hread
    have hroom := h.room s.peer
    rw [Side.peer_peer] at hroom
    exact h.put hinv rfl (hstays (h.opened s) (hroom hidle)) hcap (h.fits s)
  | readFail nread => exact hx.elim
  | turn realloc maxPackBodyLen =>
    obtain ⟨e, hturn, rfl⟩ := Option.map_eq_some_iff.mp hstep
    have hlegal := h.legal s.peer
    rw [Side.peer_peer] at hlegal
    obtain ⟨-, ⟨-, -, rfl⟩ | ⟨hbad, -⟩ | ⟨n, hopen, hcut, rfl⟩⟩ := turn_cases hturn
    · exact h.put hinv rfl (h.opened s) rfl (h.fits s)
    · -- none of the reasons to close is there
      rcases hbad with hcl | hill | ⟨n, hn, hre⟩
      · rw [h.opened s] at hcl; cases hcl
      · rw [(h.inv.receiving s).mode_eq] at hill; exact absurd hill hlegal
      · rw [hx n hn] at hre; cases hre
    · exact h.put hinv rfl hopen (getPack_spec _ n).2.2 (h.fits s)

/-! ## What is left to do -/

end Connection

namespace Endpoint

/-- The bytes that an end still has to send, and those it has read and not handed over. -/
def load (e : Endpoint) : Nat :=
  e.chan.send_buff.contents.length + 4 * (e.chan.send_buff.contents.length - e.taken) +
    e.chan.recv_buffer.contents.length + if e.parsing then 1 else 0

/-- A completed request leaves less to send. -/
theorem load_writeDone {mode : ProtoMode} {e e' : Endpoint} {i : Nat} {status ret : Int}
    (h : Outgoing mode e) (hpos : 0 ≤ status) (hcall : e.call (.writeDone i status ret) = some e') :
    e'.load < e.load ∧ e'.send.frames = e.send.frames := by
  obtain ⟨hstep, hparsing, -, -, htaken⟩ := call_cases hcall
  rcases htaken with ⟨hne, -⟩ | ⟨i, status, ret, w, ha, hw, hfull, htaken⟩
  · exact absurd rfl (hne i status ret)
  · obtain ⟨rfl, rfl, rfl⟩ := SendAct.writeDone.inj ha
    obtain ⟨w', hws, rfl, hframes, hdone⟩ := Sender.writeDone_cases h.inv hstep
    obtain rfl : w' = w := by simpa [hws] using hw
    have hmem : w' ∈ e.send.writes := by rw [hws]; exact List.mem_cons_self
    have hfront := h.inv.front w' hmem
    have hlen := hfront.len_le
    have hlen0 := hfront.len_pos
    have hle := h.taken_le w' hmem
    have hall := hfull hpos
    refine ⟨?_, hframes⟩
    rcases hdone with ⟨hneg, -⟩ | ⟨-, -, hrest⟩
    · omega
    · have hsend : e'.chan.send_buff.contents.length =
          e.chan.send_buff.contents.length - w'.len := by
        rw [chan, hrest, List.length_drop, chan]
      have hrecv : e'.chan.recv_buffer = e.chan.recv_buffer :=
        (Sender.recvSame_step hstep).ring
      have htaken0 : e'.taken = 0 := by rw [htaken, if_neg (by omega)]; omega
      have hread : e.chan.send_buff.contents.length = e.send.chan.send_buff.readableBytes :=
        length_contents _
      simp only [load, hsend, hrecv, hparsing, htaken0]
      omega

/-- Bytes that the kernel takes weigh more in the ring than on the wire. -/
theorem load_transmit {mode : ProtoMode} {e e' : Endpoint} {n : Nat} {bytes : List UInt8}
    (h : Outgoing mode e) (htr : e.transmit n = some (e', bytes)) :
    e'.load + 4 * n = e.load ∧ bytes.length ≤ n ∧ e'.send = e.send := by
  simp only [transmit] at htr
  split at htr
  · cases htr
  · rename_i w ws hws
    split at htr
    · rename_i hok
      obtain ⟨rfl, rfl⟩ := Prod.mk.inj (Option.some.inj htr)
      have hlen := (h.inv.front w (by rw [hws]; exact List.mem_cons_self)).len_le
      have hread : e.chan.send_buff.contents.length = e.send.chan.send_buff.readableBytes :=
        length_contents _
      refine ⟨?_, List.length_take_le _ _, rfl⟩
      show e.chan.send_buff.contents.length +
        4 * (e.chan.send_buff.contents.length - (e.taken + n)) +
        e.chan.recv_buffer.contents.length + (if e.parsing then 1 else 0) + 4 * n = e.load
      simp only [load]
      omega
    · cases htr

/-- Bytes that are read weigh less in the receive ring than on the wire. -/
theorem load_read {e e' : Endpoint} {wire : List UInt8} {n : Nat}
    (hread : e.read wire n = some e') (hopen : e'.chan.closed_ = false) (hpos : 0 < n) :
    e'.load = e.load + n + 1 ∧ n ≤ wire.length ∧ e'.send.frames = e.send.frames := by
  obtain ⟨hidle, hn, ch, hsame, -, hgot, -, rfl⟩ := read_cases hread
  have ho : ch.closed_ = false := hopen
  obtain ⟨-, hc⟩ := hgot ho
  refine ⟨?_, hn, rfl⟩
  show ch.send_buff.contents.length + 4 * (ch.send_buff.contents.length - e.taken) +
    ch.recv_buffer.contents.length + (if decide (0 < n) && !ch.closed_ then 1 else 0) = _
  simp only [load, hc, hsame.ring, List.length_append, List.length_take_of_le hn, hidle, ho, hpos]
  simp only [decide_true, Bool.not_false, Bool.and_self, if_true, Bool.false_eq_true, if_false]
  omega

/-- A turn ends the loop or takes a packet out of the receive ring. -/
theorem load_turn {e e' : Endpoint} {realloc : Nat → Bool} {maxPackBodyLen : Nat}
    (hturn : e.turn realloc maxPackBodyLen = some e') :
    e'.load < e.load ∧ e'.send.frames = e.send.frames := by
  obtain ⟨hparsing, ⟨-, -, rfl⟩ | ⟨-, rfl⟩ | ⟨n, -, hcut, rfl⟩⟩ := turn_cases hturn
  · refine ⟨?_, rfl⟩
    show _ + 0 < e.load
    simp only [load, hparsing, if_true]
    exact Nat.lt_succ_self _
  · refine ⟨?_, rfl⟩
    show e.chan.send_buff.contents.length +
      4 * (e.chan.send_buff.contents.length - e.taken) + e.chan.recv_buffer.contents.length + 0 <
      e.load
    simp only [load, hparsing, if_true]
    exact Nat.lt_succ_self _
  · refine ⟨?_, rfl⟩
    have hpos := (stable_cut _).frame_pos hcut
    have hle := (stable_cut _).frame_le hcut
    show e.chan.send_buff.contents.length + 4 * (e.chan.send_buff.contents.length - e.taken) +
      (e.chan.getPack n).2.recv_buffer.contents.length + (if e.parsing then 1 else 0) < e.load
    rw [(getPack_spec e.chan n).2.1, List.length_drop]
    simp only [load]
    omega

/-! ## What can still happen -/

/-- A parse loop that is under way has a turn left. -/
theorem turn_isSome {e : Endpoint} (h : e.parsing = true) (realloc : Nat → Bool)
    (maxPackBodyLen : Nat) : (e.turn realloc maxPackBodyLen).isSome := by
  rw [turn, if_pos h]
  cases parseTurn realloc false e.chan maxPackBodyLen <;> rfl

/-- A byte that has not been taken can be taken. -/
theorem transmit_isSome {e : Endpoint} {w : UvWrite} {ws : List UvWrite}
    (hws : e.send.writes = w :: ws) (huv : e.send.uvClosed = false) (h : e.taken < w.len) :
    (e.transmit 1).isSome := by
  simp only [transmit, hws]
  rw [if_pos ⟨huv, by omega⟩]
  rfl

/-- A request of which all bytes are taken can be completed. -/
theorem writeDone_isSome {e : Endpoint} {w : UvWrite} {ws : List UvWrite}
    (hws : e.send.writes = w :: ws) (h : w.len ≤ e.taken) :
    (e.call (.writeDone 0 0 0)).isSome := by
  simp only [call, Sender.step, hws, List.getElem?_cons_zero]
  have hcancel : ¬((0 : Int) = UV_ECANCELED ∧ e.send.uvClosed = false) :=
    fun hc => absurd hc.1 (by decide)
  rw [if_neg (by omega), if_neg hcancel]
  rfl

/-- `uv_alloc_cb` offers at least one byte. -/
theorem read_isSome {e : Endpoint} {wire : List UInt8} (hidle : e.parsing = false)
    (huv : e.send.uvClosed = false) (h : wire ≠ []) : (e.read wire 1).isSome := by
  have hwin : 1 ≤ e.chan.uv_alloc_cb.1.len := by
    rw [uv_alloc_cb]
    split
    · exact Nat.le_refl 1
    · exact Nat.one_le_iff_ne_zero.mpr ‹_›
  rw [read, if_pos ⟨hidle, huv, List.length_pos_iff.mpr h, hwin⟩]
  rfl

end Endpoint

namespace Connection

open Endpoint

/-- A bound for the steps that are left. -/
def pending (c : Connection) : Nat :=
  load (c.ends .near) + load (c.ends .far) + 3 * (c.wire .near).length +
    3 * (c.wire .far).length

/-- The bound, as seen from one of the ends. -/
theorem pending_eq (c : Connection) (s : Side) :
    pending c = load (c.ends s) + load (c.ends s.peer) + 3 * (c.wire s).length +
      3 * (c.wire s.peer).length := by
  cases s
  · simp only [pending, Side.peer]
  · simp only [pending, Side.peer]; omega

/-- What the work left is after a step at one end. -/
theorem pending_put (c : Connection) (s : Side) (e : Endpoint) (wire : Side → List UInt8) :
    pending { c.put s e with wire := wire } = load e + load (c.ends s.peer) +
      3 * (wire s).length + 3 * (wire s.peer).length := by
  rw [pending_eq _ s]
  simp only [Connection.put, Function.update_self, Function.update_of_ne s.peer_ne]

/-- A step that moves bytes on leaves less to do, and sends nothing new. -/
theorem Calm.moves {mode : ProtoMode} {c c' : Connection} (x : Side × EndAct)
    (h : Calm mode c) (hx : x.2.Moves) (hstep : c.step x = some c') :
    pending c' < pending c ∧ ∀ s, (c'.ends s).send.frames = (c.ends s).send.frames := by
  have hcalm := calm_step x h (calmStep_of_moves hx) hstep
  obtain ⟨s, a⟩ := x
  -- what the step does to the end, and to the bytes in between
  have hput : ∀ (e : Endpoint) (wire : Side → List UInt8),
      c' = { c.put s e with wire := wire } → e.send.frames = (c.ends s).send.frames →
      e.load + 3 * (wire s).length + 3 * (wire s.peer).length <
        (c.ends s).load + 3 * (c.wire s).length + 3 * (c.wire s.peer).length →
      pending c' < pending c ∧ ∀ t, (c'.ends t).send.frames = (c.ends t).send.frames := by
    intro e wire hc' hframes hlt
    subst hc'
    refine ⟨?_, fun t => ?_⟩
    · rw [pending_put, pending_eq c s]; omega
    · obtain rfl | rfl := Side.eq_or_eq_peer s t
      · simp only [Connection.put, Function.update_self]; exact hframes
      · simp only [Connection.put, Function.update_of_ne s.peer_ne]
  cases a with
  | call a =>
    obtain ⟨e, hcall, rfl⟩ := Option.map_eq_some_iff.mp hstep
    cases a with
    | writeDone i status ret =>
      obtain ⟨hlt, hframes⟩ := load_writeDone (h.inv.sending s) hx.1 hcall
      exact hput e c.wire rfl hframes (by omega)
    | write packBuf raced ret msgId msg playerId => exact hx.elim
    | rawWrite raced ret msg => exact hx.elim
    | close => exact hx.elim
    | closeInLoop => exact hx.elim
  | transmit n =>
    simp only [step] at hstep
    obtain ⟨⟨e, bytes⟩, htr, hc'⟩ := Option.map_eq_some_iff.mp hstep
    obtain ⟨hload, hlen, hsend⟩ := load_transmit (h.inv.sending s) htr
    have hpos : 0 < n := hx
    refine hput e (Function.update c.wire s (c.wire s ++ bytes)) hc'.symm (by rw [hsend]) ?_
    rw [Function.update_self, Function.update_of_ne s.peer_ne, List.length_append]
    omega
  | read n =>
    simp only [step] at hstep
    obtain ⟨e, hread, hc'⟩ := Option.map_eq_some_iff.mp hstep
    have hopen : e.chan.closed_ = false := by
      have := hcalm.opened s
      rw [← hc'] at this
      simpa only [Connection.put, Function.update_self] using this
    have hpos : 0 < n := hx
    obtain ⟨hload, hlen, hframes⟩ := load_read hread hopen hpos
    refine hput e _ hc'.symm hframes ?_
    rw [Function.update_self, Function.update_of_ne s.peer_ne.symm, List.length_drop]
    omega
  | readFail nread => exact hx.elim
  | turn realloc maxPackBodyLen =>
    simp only [step] at hstep
    obtain ⟨e, hturn, hc'⟩ := Option.map_eq_some_iff.mp hstep
    obtain ⟨hlt, hframes⟩ := load_turn hturn
    exact hput e c.wire hc'.symm hframes (by omega)

/-- When no step can move anything on, no parse loop is running and nothing is on its way. -/
theorem Calm.stuck {mode : ProtoMode} {c : Connection} (h : Calm mode c)
    (hstuck : ∀ x : Side × EndAct, x.2.Moves → c.step x = none) (s : Side) :
    (c.ends s).parsing = false ∧ (c.ends s).chan.send_buff.contents = [] ∧ c.wire s = [] := by
  have hidle : ∀ t, (c.ends t).parsing = false := by
    intro t
    by_contra hp
    have hnone := hstuck (t, .turn (fun _ => true) 0) fun _ _ => rfl
    have hsome := turn_isSome (by simpa using hp) (fun _ => true) 0
    rw [Option.map_eq_none_iff.mp hnone] at hsome
    cases hsome
  have huv : ∀ t, (c.ends t).send.uvClosed = false := by
    intro t
    by_contra hu
    have hclosed := (h.inv.sending t).inv.closing (by simpa using hu)
    rw [show (c.ends t).send.chan.closed_ = false from h.opened t] at hclosed
    cases hclosed
  refine ⟨hidle s, ?_, ?_⟩
  · by_contra hne
    -- a request is outstanding, so its bytes can be taken, or it can be completed
    obtain ⟨w, ws, hws⟩ := List.exists_cons_of_ne_nil
      ((h.inv.sending s).inv.live (h.opened s) hne)
    by_cases htaken : (c.ends s).taken < w.len
    · have hnone := hstuck (s, .transmit 1) Nat.one_pos
      have hsome := transmit_isSome hws (huv s) htaken
      rw [Option.map_eq_none_iff.mp hnone] at hsome
      cases hsome
    · have hnone := hstuck (s, .call (.writeDone 0 0 0)) ⟨Int.le_refl 0, rfl⟩
      have hsome := writeDone_isSome hws (by omega)
      rw [Option.map_eq_none_iff.mp hnone] at hsome
      cases hsome
  · by_contra hne
    have hnone := hstuck (s.peer, .read 1) Nat.one_pos
    have hsome := read_isSome (hidle s.peer) (huv s.peer) hne
    simp only [step, Side.peer_peer, Option.map_eq_none_iff] at hnone
    rw [hnone] at hsome
    cases hsome

/-- And then no step can move anything on. -/
theorem stuck_of_quiet {c : Connection}
    (h : ∀ s, (c.ends s).parsing = false ∧ (c.ends s).send.writes = [] ∧ c.wire s = [])
    (x : Side × EndAct) (hx : x.2.Moves) : c.step x = none := by
  obtain ⟨s, a⟩ := x
  obtain ⟨hidle, hwrites, -⟩ := h s
  obtain ⟨-, -, hwire⟩ := h s.peer
  cases a with
  | call a =>
    cases a with
    | writeDone i status ret => simp only [step, call, hwrites, List.getElem?_nil, Option.map_none]
    | write packBuf raced ret msgId msg playerId => exact hx.elim
    | rawWrite raced ret msg => exact hx.elim
    | close => exact hx.elim
    | closeInLoop => exact hx.elim
  | transmit n => simp only [step, transmit, hwrites, Option.map_none]
  | read n =>
    have hpos : 0 < n := hx
    simp only [step, Endpoint.read, hwire, List.length_nil]
    rw [if_neg fun hc => absurd hc.2.2.1 (by omega), Option.map_none]
  | readFail nread => exact hx.elim
  | turn realloc maxPackBodyLen =>
    simp only [step, turn, hidle, Bool.false_eq_true, if_false, Option.map_none]

/-- A new connection is calm. -/
theorem calm_init {mode : ProtoMode} {near far : Channel} (h : Inv mode (init near far))
    (hnear : near.closed_ = false) (hfar : far.closed_ = false) : Calm mode (init near far) where
  inv := h
  opened s := by cases s; exacts [hnear, hfar]
  fits s m hm := by cases s; all_goals cases hm

/-- Delivery.  A connection of two new channels has been calm up to the state `c`.  From
    there on bytes are taken and read in any pieces, requests are completed and parse loops
    run, in any order: this can go on for at most `pending c` steps and closes neither end.
    Once nothing more can be done, each end has decoded all the messages that the other had
    put into its send ring. -/
theorem delivery_finishes (malloc malloc' : Malloc) (id id' : UInt32)
    (recvSize sendSize recvSize' sendSize' : UInt64) (mode : ProtoMode)
    (acts : List (Side × EndAct)) (c : Connection)
    (hcalm : Run.Meets step (CalmStep mode) (init (Channel.new malloc id recvSize sendSize mode)
      (Channel.new malloc' id' recvSize' sendSize' mode)) acts)
    (hrun : Run.run step (init (Channel.new malloc id recvSize sendSize mode)
      (Channel.new malloc' id' recvSize' sendSize' mode)) acts = some c)
    (more : List (Side × EndAct)) (hmore : ∀ x ∈ more, x.2.Moves) (c' : Connection)
    (hrun' : Run.run step c more = some c') :
    more.length ≤ pending c ∧ (∀ s, (c'.ends s).chan.closed_ = false) ∧
    ((∀ x : Side × EndAct, x.2.Moves → c'.step x = none) →
      ∀ s, (c'.ends s.peer).received mode = (c.ends s).send.frames.map (OutMsg.onWire mode)) := by
  have hc : Calm mode c := Run.invariant_of_meets
    (fun _ x _ hd hx hstep => calm_step x hd hx hstep)
    (calm_init (inv_new malloc malloc' id id' recvSize sendSize recvSize' sendSize' mode) rfl rfl)
    hcalm hrun
  obtain ⟨⟨hc', hframes⟩, hlen⟩ := Run.length_le_measure
    (P := fun d => Calm mode d ∧ ∀ s, (d.ends s).send.frames = (c.ends s).send.frames)
    (μ := pending) (fun d x d' hd hx hstep => by
      obtain ⟨hlt, hsame⟩ := hd.1.moves x hx hstep
      exact ⟨⟨calm_step x hd.1 (calmStep_of_moves hx) hstep,
        fun s => (hsame s).trans (hd.2 s)⟩, hlt⟩) ⟨hc, fun _ => rfl⟩ hmore hrun'
  refine ⟨by omega, hc'.opened, fun hstuck s => ?_⟩
  obtain ⟨hidle, -, -⟩ := hc'.stuck hstuck s.peer
  obtain ⟨-, hring, hwire⟩ := hc'.stuck hstuck s
  rw [received, hc'.inv.packets_all (hc'.opened s.peer) hidle hwire hring, hframes, List.map_map]
  exact List.map_congr_left fun m _ => parseHeader_onWire mode m

/-- One message through a receive ring that its frame fills. -/
theorem delivery_finishes_full :
    let msg : OutMsg := ⟨-7, [1, 2, 3, 4, 5, 6, 7, 8, 9, 10, 11, 12, 13, 14, 15], 5⟩
    let start := init (Channel.new zeroed 1 31 31 .INNER) (Channel.new zeroed 2 31 31 .INNER)
    let more : List (Side × EndAct) :=
      [(.near, .transmit 30), (.far, .read 30), (.far, .turn (fun _ => true) 8192),
        (.near, .transmit 1), (.far, .read 1), (.near, .call (.writeDone 0 0 0)),
        (.far, .turn (fun _ => true) 8192), (.far, .turn (fun _ => true) 8192)]
    ∃ c c', Run.run step start [(.near, .call (.rawWrite false 0 msg))] = some c ∧
      Run.run step c more = some c' ∧ more.length ≤ pending c ∧
      (c'.ends .far).received .INNER = [msg.onWire .INNER] := by
  intro msg start more
  have hfirst : (Run.run step start [(.near, .call (.rawWrite false 0 msg))]).map
      (fun c => (c.ends .near).send.frames) = some [msg] := by decide +kernel
  obtain ⟨c, hrun, hframes⟩ := Option.map_eq_some_iff.mp hfirst
  have hlast : (Run.run step start ([(Side.near, EndAct.call (.rawWrite false 0 msg))] ++ more)).map
      (fun c => [Side.near, Side.far].map fun s =>
        ((c.ends s).parsing, (c.ends s).send.writes, c.wire s)) =
      some [(false, [], []), (false, [], [])] := by decide +kernel
  obtain ⟨c', hall, hquiet⟩ := Option.map_eq_some_iff.mp hlast
  obtain ⟨m, hm, hrun'⟩ := Run.run_append hall
  obtain rfl : c = m := Option.some.inj (hrun.symm.trans hm)
  have hcalm : Run.Meets step (CalmStep .INNER) start
      [(.near, .call (.rawWrite false 0 msg))] := by
    refine ⟨⟨⟨rfl, rfl⟩, fun m hm => ?_⟩, ?_⟩
    · obtain rfl := Option.some.inj hm
      decide +kernel
    · split <;> trivial
  have hmore : ∀ x ∈ more, x.2.Moves := by
    intro x hx
    simp only [more, List.mem_cons, List.not_mem_nil, or_false] at hx
    rcases hx with rfl | rfl | rfl | rfl | rfl | rfl | rfl | rfl
    all_goals simp [EndAct.Moves]
  have h := delivery_finishes zeroed zeroed 1 2 31 31 31 31 .INNER _ c hcalm hrun more hmore c'
    hrun'
  simp only [List.map_cons, List.map_nil, List.cons.injEq, Prod.mk.injEq, and_true] at hquiet
  obtain ⟨⟨hp, hw, hl⟩, hp', hw', hl'⟩ := hquiet
  have hstuck : ∀ x : Side × EndAct, x.2.Moves → c'.step x = none := by
    apply stuck_of_quiet
    intro s
    cases s
    · exact ⟨hp, hw, hl⟩
    · exact ⟨hp', hw', hl'⟩
  refine ⟨c, c', hrun, hrun', h.1, ?_⟩
  have hgot := h.2.2 hstuck .near
  rw [hframes] at hgot
  exact hgot

end Connection

end Athena
