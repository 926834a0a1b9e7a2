import Athena.Native.LoginService
import Athena.Spec.Connection

/-!
# What a connection delivers

Whatever the order in which messages are sent, bytes move, writes complete or fail, reads
fail and either end is closed: the packets that one end hands to `on_read` are the first
messages that the other end put into its send ring, each as it was, in their order.  While
the receiving end is open nothing is missing but what is still on its way.

`Outgoing` and `Incoming` are the two halves of the invariant of one end.  Between them
lies one equation: the bytes that were read and those in between are the bytes that the
kernel has taken (`Endpoint.out`).

## Key results

- `Endpoint.sending_call`, `Endpoint.sending_transmit`: what a step does to `out`
- `Endpoint.receiving_read`, `Endpoint.receiving_turn`: what a step does to the packets
- `Connection.inv_step`, `Connection.inv_run`: the invariant
- `Connection.delivered_in_order`: the packets are those messages
-/

namespace Athena

open Channel RingByteBuf Framing

/-- What the receiver's `parseHeader` makes of the message's packet: of the player id it
    gets four bytes, or none. -/
def OutMsg.onWire (mode : ProtoMode) (m : OutMsg) : DecodedMsg where
  msgId := m.msgId
  body := some m.body
  bodyLen := m.body.length
  playerId := match mode with
    | .INNER => wirePlayerId m.playerId
    | .CLIENT => 0

/-- The receiver decodes what the sender has put on the wire. -/
theorem parseHeader_onWire (mode : ProtoMode) (m : OutMsg) :
    Decoder.parseHeader mode (some (m.frame mode)) {} = m.onWire mode := by
  rw [OutMsg.frame, parseHeader_frame_eq]
  rfl

/-! ## The send path -/

namespace Sender

/-- An action that is not a completion may append to the ring, and issues a request only
    when the ring was empty. -/
theorem step_appends {s s' : Sender} {a : SendAct} (hstep : s.step a = some s')
    (ha : ∀ i status ret, a ≠ .writeDone i status ret) :
    s'.written = s.written ∧
    (∃ t, s'.chan.send_buff.contents = s.chan.send_buff.contents ++ t) ∧
    ∃ ws, s'.writes = s.writes ++ ws ∧ (ws ≠ [] → s.chan.send_buff.contents = []) := by
  have hsent : ∀ {raced ret out} {msg : OutMsg},
      Sends raced ret s.chan msg.msgId msg.body msg.playerId out →
      (∃ t, out.chan.send_buff.contents = s.chan.send_buff.contents ++ t) ∧
      (out.issued.toList ≠ [] → s.chan.send_buff.contents = []) := by
    intro raced ret out msg hout
    rcases hout with rfl | ⟨-, -, hfit, hout⟩
    · exact ⟨⟨[], (List.append_nil _).symm⟩, fun h => absurd rfl h⟩
    · obtain ⟨-, hc, -, -, -, hsend⟩ := appendAndSend_spec hout hfit
      refine ⟨⟨_, hc⟩, fun hiss => ?_⟩
      rcases hsend with ⟨-, hnone, -⟩ | ⟨hneed, -⟩
      · rw [hnone] at hiss; exact absurd rfl hiss
      · -- it was asked to send because nothing was readable
        rw [← List.length_eq_zero_iff, length_contents]
        simpa using hneed
  cases a with
  | write packBuf raced ret msgId msg playerId =>
    obtain rfl := Option.some.inj hstep
    obtain ⟨happ, hiss⟩ := @hsent _ _ _ ⟨msgId, msg.serialize.getD [], playerId⟩
      (eventLoopWrite_sends packBuf raced ret s.chan msgId msg playerId)
    exact ⟨rfl, happ, _, rfl, hiss⟩
  | rawWrite raced ret msg =>
    obtain rfl := Option.some.inj hstep
    obtain ⟨happ, hiss⟩ := hsent
      (eventLoopRawWrite_sends raced ret s.chan msg.msgId msg.body msg.playerId)
    exact ⟨rfl, happ, _, rfl, hiss⟩
  | writeDone i status ret => exact absurd rfl (ha i status ret)
  | close =>
    obtain rfl := Option.some.inj hstep
    exact ⟨rfl, ⟨[], (List.append_nil _).symm⟩, [], (List.append_nil _).symm,
      fun h => absurd rfl h⟩
  | closeInLoop =>
    simp only [step] at hstep
    split at hstep
    · obtain rfl := Option.some.inj hstep
      exact ⟨rfl, ⟨[], (List.append_nil _).symm⟩, [], (List.append_nil _).symm,
        fun h => absurd rfl h⟩
    · cases hstep

/-- A completion takes the bytes of its request out of the ring, or closes the channel. -/
theorem writeDone_cases {s s' : Sender} {i : Nat} {status ret : Int} (h : Inv s)
    (hstep : s.step (.writeDone i status ret) = some s') :
    ∃ w, s.writes = [w] ∧ i = 0 ∧ s'.frames = s.frames ∧
      ((status < 0 ∧ s'.writes = [] ∧ s'.written = s.written ∧
          s'.chan.send_buff = s.chan.send_buff ∧ s'.chan.closed_ = true) ∨
       (0 ≤ status ∧ s'.written = s.written ++ s.chan.send_buff.contents.take w.len ∧
          s'.chan.send_buff.contents = s.chan.send_buff.contents.drop w.len)) := by
  have hstep' := hstep
  simp only [step] at hstep
  cases hw : s.writes[i]? with
  | none => rw [hw] at hstep; cases hstep
  | some w =>
    obtain ⟨hws, rfl⟩ := h.writes_eq hw
    have hf := h.front w (by rw [hws]; exact List.mem_cons_self)
    simp only [hw] at hstep
    split at hstep
    · cases hstep
    · rename_i hstat
      obtain rfl := Option.some.inj hstep
      refine ⟨w, hws, rfl, rfl, ?_⟩
      by_cases hneg : status < 0
      · left
        refine ⟨hneg, ?_, if_pos hneg, ?_, ?_⟩
        · simp only [onWriteDone, if_pos hneg, hws]
          rfl
        · simp only [onWriteDone, if_pos hneg]
          split <;> rfl
        · simp only [onWriteDone, if_pos hneg]
          split
          · rfl
          · -- a cancelled request belongs to a closed handle
            rename_i hcancel
            apply h.closing
            by_contra hu
            exact hstat ⟨by simpa using hcancel, by simpa using hu⟩
      · right
        have hadv := advanceReadIndex_spec (r := s.chan.send_buff) (n := w.len) hf.len_le
        refine ⟨by omega, ?_, ?_⟩
        · simp only [if_neg hneg, bytesOf, hf.bytes_eq]
        · rw [← hadv.2]
          simp only [onWriteDone, if_neg hneg, ← hf.len_eq, hadv.1, if_true]
          rcases doUvSend_cases ret (s.chan.setSend (s.chan.send_buff.advanceReadIndex w.len).2
            (capacity_advanceReadIndex _ _)) with ⟨hd, -⟩ | hd | ⟨w', hd, -⟩ <;> rw [hd] <;> rfl

end Sender

/-! ## The two halves of an end -/

namespace Endpoint

/-- What holds of an end as a sender on a link of the given mode. -/
structure Outgoing (mode : ProtoMode) (e : Endpoint) : Prop where
  inv : e.send.Inv
  framesOf : e.send.FramesOf mode
  /-- the kernel takes bytes of the outstanding request -/
  taken_le : ∀ w ∈ e.send.writes, e.taken ≤ w.len
  taken_len : e.taken ≤ e.chan.send_buff.contents.length
  /-- between two requests it has taken none of the ring's -/
  idle : e.send.writes = [] → e.chan.closed_ = false → e.taken = 0

/-- What holds of an end as a receiver on a link of the given mode. -/
structure Incoming (mode : ProtoMode) (e : Endpoint) : Prop where
  mode_eq : e.chan.proto_mode = mode
  /-- the packets were taken off the first of the bytes read -/
  front : ∃ s r, s <+: e.got ∧ Takes (cut mode) s e.packets r
  /-- and an open channel has the rest in its ring -/
  whole : e.chan.closed_ = false →
    Takes (cut mode) e.got e.packets e.chan.recv_buffer.contents
  /-- outside of the parse loop an open channel has no whole frame -/
  waits : e.chan.closed_ = false → e.parsing = false →
    cut mode e.chan.recv_buffer.contents = .incomplete

/-- The bytes taken so far are the first of all that were appended. -/
theorem Outgoing.sent_within {mode : ProtoMode} {e : Endpoint} (h : Outgoing mode e) :
    e.out <+: (e.send.frames.map (OutMsg.frame mode)).flatten := by
  have hstream := h.inv.stream
  rw [h.framesOf.1] at hstream
  rw [← hstream, out, List.prefix_append_right_inj]
  exact List.take_prefix _ _

/-- Functions that leave the send ring alone do not disturb the sender. -/
theorem Outgoing.of_same {mode : ProtoMode} {e e' : Endpoint} (h : Outgoing mode e)
    (hsame : SendSame e.chan e'.chan) (hsend : e'.send = { e.send with chan := e'.chan })
    (htaken : e'.taken = e.taken) : Outgoing mode e' ∧ e'.out = e.out := by
  have hopen : e'.chan.closed_ = false → e.chan.closed_ = false := by
    intro h'
    by_contra hc
    rw [hsame.closed (by simpa using hc)] at h'
    cases h'
  have hinv : e'.send.Inv := by
    rw [hsend]
    exact { one_write := h.inv.one_write
            front := fun w hw => by
              show FrontWrite e'.chan.send_buff w
              rw [hsame.ring]
              exact h.inv.front w hw
            stream := by
              show e.send.written ++ e'.chan.send_buff.contents =
                (e.send.frames.map (OutMsg.frame e'.chan.proto_mode)).flatten
              rw [hsame.ring, hsame.mode]
              exact h.inv.stream
            live := fun ho hne => h.inv.live (hopen ho) (by
              show e.chan.send_buff.contents ≠ []
              rw [← hsame.ring]
              exact hne)
            closing := fun hu => hsame.closed (h.inv.closing hu) }
  have hwrites : e'.send.writes = e.send.writes := by rw [hsend]
  refine ⟨{ inv := hinv, framesOf := ?_, taken_le := ?_, taken_len := ?_, idle := ?_ }, ?_⟩
  · -- its requests and their frames are the same
    refine ⟨hsame.mode.trans h.framesOf.1, ?_⟩
    rw [hsend]
    exact h.framesOf.2
  · rw [hwrites, htaken]; exact h.taken_le
  · rw [hsame.ring, htaken]; exact h.taken_len
  · rw [hwrites, htaken]; exact fun hw ho => h.idle hw (hopen ho)
  · rw [out, out, hsame.ring, htaken, hsend]

/-- Functions that leave the receive ring alone do not disturb the receiver. -/
theorem Incoming.of_same {mode : ProtoMode} {e e' : Endpoint} (h : Incoming mode e)
    (hsame : RecvSame e.chan e'.chan) (hparsing : e'.parsing = e.parsing)
    (hgot : e'.got = e.got) (hpackets : e'.packets = e.packets) : Incoming mode e' := by
  have hopen : e'.chan.closed_ = false → e.chan.closed_ = false := by
    intro h'
    by_contra hc
    rw [hsame.closed (by simpa using hc)] at h'
    cases h'
  exact { mode_eq := hsame.mode.trans h.mode_eq
          front := by rw [hpackets, hgot]; exact h.front
          whole := fun ho => by rw [hpackets, hgot, hsame.ring]; exact h.whole (hopen ho)
          waits := fun ho hp => by
            rw [hsame.ring]
            exact h.waits (hopen ho) (hparsing ▸ hp) }

/-! ## Calls on the send path -/

/-- What a call on the send path is. -/
theorem call_cases {e e' : Endpoint} {a : SendAct} (h : e.call a = some e') :
    e.send.step a = some e'.send ∧ e'.parsing = e.parsing ∧ e'.got = e.got ∧
      e'.packets = e.packets ∧
      (((∀ i status ret, a ≠ .writeDone i status ret) ∧ e'.taken = e.taken) ∨
       ∃ i status ret w, a = .writeDone i status ret ∧ e.send.writes[i]? = some w ∧
        (0 ≤ status → w.len ≤ e.taken) ∧
        e'.taken = if status < 0 then e.taken else e.taken - w.len) := by
  have hplain : (∀ i status ret, a ≠ .writeDone i status ret) →
      (e.send.step a).map (fun send => { e with send := send }) = some e' →
      e.send.step a = some e'.send ∧ e'.parsing = e.parsing ∧ e'.got = e.got ∧
        e'.packets = e.packets ∧
      (((∀ i status ret, a ≠ .writeDone i status ret) ∧ e'.taken = e.taken) ∨
       ∃ i status ret w, a = .writeDone i status ret ∧ e.send.writes[i]? = some w ∧
        (0 ≤ status → w.len ≤ e.taken) ∧
        e'.taken = if status < 0 then e.taken else e.taken - w.len) := by
    intro ha hmap
    obtain ⟨send, hsend, rfl⟩ := Option.map_eq_some_iff.mp hmap
    exact ⟨hsend, rfl, rfl, rfl, .inl ⟨ha, rfl⟩⟩
  cases a with
  | writeDone i status ret =>
    simp only [call] at h
    split at h
    · cases h
    · rename_i w hw
      split at h
      · cases h
      · rename_i hnot
        obtain ⟨send, hsend, rfl⟩ := Option.map_eq_some_iff.mp h
        refine ⟨hsend, rfl, rfl, rfl, .inr ⟨i, status, ret, w, rfl, hw, ?_, rfl⟩⟩
        intro h0
        by_contra hlt
        exact hnot ⟨h0, by omega⟩
  | write packBuf raced ret msgId msg playerId => exact hplain (fun _ _ _ hc => by cases hc) h
  | rawWrite raced ret msg => exact hplain (fun _ _ _ hc => by cases hc) h
  | close => exact hplain (fun _ _ _ hc => by cases hc) h
  | closeInLoop => exact hplain (fun _ _ _ hc => by cases hc) h

/-- A call on the send path does not change which bytes the kernel has taken: appended
    bytes come behind them, and a completed request moves from the ring to `written`. -/
theorem sending_call {mode : ProtoMode} {e e' : Endpoint} {a : SendAct} (h : Outgoing mode e)
    (hcall : e.call a = some e') : Outgoing mode e' ∧ e'.out = e.out := by
  obtain ⟨hstep, -, -, -, htaken⟩ := call_cases hcall
  have hinv := Sender.inv_step a h.inv hstep
  have hframes := Sender.frames_step a h.framesOf hstep
  have hclosed := (Sender.recvSame_step hstep).closed
  rcases htaken with ⟨ha, htaken⟩ | ⟨i, status, ret, w, rfl, hw, hfull, htaken⟩
  · -- not a completion
    obtain ⟨hwritten, ⟨t, happ⟩, ws, hwrites, hnew⟩ := Sender.step_appends hstep ha
    refine ⟨{ inv := hinv, framesOf := hframes, taken_le := ?_, taken_len := ?_, idle := ?_ }, ?_⟩
    · intro w hw
      rw [hwrites, List.mem_append] at hw
      rw [htaken]
      rcases hw with hw | hw
      · exact h.taken_le w hw
      · -- the ring was empty
        have hnil := hnew (List.ne_nil_of_mem hw)
        have hlen := h.taken_len
        simp only [chan, hnil, List.length_nil] at hlen
        omega
    · have hlen := h.taken_len
      simp only [chan, happ, htaken, List.length_append] at hlen ⊢
      omega
    · intro hnil hopen
      rw [hwrites, List.append_eq_nil_iff] at hnil
      rw [htaken]
      apply h.idle hnil.1
      by_contra hc
      rw [chan, hclosed (by simpa [chan] using hc)] at hopen
      cases hopen
    · have hlen := h.taken_len
      simp only [chan] at hlen
      simp only [out, chan, hwritten, happ, htaken, List.take_append_of_le_length hlen]
  · obtain ⟨w', hws, rfl, -, hdone⟩ := Sender.writeDone_cases h.inv hstep
    obtain rfl : w' = w := by simpa [hws] using hw
    have hle := h.taken_le w' (by rw [hws]; exact List.mem_cons_self)
    rcases hdone with ⟨hneg, hnil, hwritten, hring, hclosed'⟩ | ⟨hpos, hwritten, hrest⟩
    · -- the request failed, and the channel is closed
      rw [if_pos hneg] at htaken
      refine ⟨{ inv := hinv, framesOf := hframes, taken_le := ?_, taken_len := ?_, idle := ?_ }, ?_⟩
      · rw [hnil]; intro w hw; cases hw
      · rw [htaken, chan, hring]; exact h.taken_len
      · intro _ hopen
        rw [chan, hclosed'] at hopen
        cases hopen
      · rw [out, out, chan, chan, hring, hwritten, htaken]
    · -- all of its bytes had been taken
      have hall := hfull hpos
      have h0 : e'.taken = 0 := by rw [htaken, if_neg (by omega)]; omega
      refine ⟨{ inv := hinv, framesOf := hframes, taken_le := ?_, taken_len := ?_, idle := ?_ }, ?_⟩
      · intro w _; omega
      · omega
      · intro _ _; exact h0
      · rw [out, out, h0, List.take_zero, List.append_nil, hwritten]
        rw [show e.taken = w'.len by omega, chan]

/-- A call on the send path receives nothing. -/
theorem receiving_call {mode : ProtoMode} {e e' : Endpoint} {a : SendAct}
    (h : Incoming mode e) (hcall : e.call a = some e') : Incoming mode e' := by
  obtain ⟨hstep, hparsing, hgot, hpackets, -⟩ := call_cases hcall
  exact h.of_same (Sender.recvSame_step hstep) hparsing hgot hpackets

/-! ## Bytes that leave -/

/-- The bytes that the kernel takes are the next of the ring, because the request it reads
    them from is at the front. -/
theorem sending_transmit {mode : ProtoMode} {e e' : Endpoint} {n : Nat} {bytes : List UInt8}
    (h : Outgoing mode e) (htr : e.transmit n = some (e', bytes)) :
    Outgoing mode e' ∧ e'.out = e.out ++ bytes := by
  simp only [transmit] at htr
  split at htr
  · cases htr
  · rename_i w ws hws
    split at htr
    · rename_i hok
      obtain ⟨rfl, rfl⟩ := Prod.mk.inj (Option.some.inj htr)
      -- there is one request, and it is for the front of the ring
      have hmem : w ∈ e.send.writes := by rw [hws]; exact List.mem_cons_self
      have hf := h.inv.front w hmem
      have hone := h.inv.one_write
      obtain rfl : ws = [] := by
        rw [hws, List.length_cons] at hone
        exact List.length_eq_zero_iff.mp (by omega)
      have hlen := hf.len_le
      rw [← length_contents] at hlen
      refine ⟨{ inv := h.inv, framesOf := h.framesOf, taken_le := ?_, taken_len := ?_,
                idle := ?_ }, ?_⟩
      · intro w' hw'
        obtain rfl : w' = w := by simpa [hws] using hw'
        exact hok.2
      · simp only [chan]
        omega
      · intro hnil
        rw [hws] at hnil
        cases hnil
      · rw [out, out, List.append_assoc, Sender.bytesOf, hf.bytes_eq, List.drop_take,
          List.take_take, Nat.min_eq_left (by omega)]
        simp only [chan]
        rw [List.take_add]
    · cases htr

/-- Bytes that leave change nothing of what was received. -/
theorem receiving_transmit {mode : ProtoMode} {e e' : Endpoint} {n : Nat} {bytes : List UInt8}
    (h : Incoming mode e) (htr : e.transmit n = some (e', bytes)) :
    Incoming mode e' ∧ e'.got = e.got := by
  simp only [transmit] at htr
  split at htr
  · cases htr
  · split at htr
    · obtain ⟨rfl, -⟩ := Prod.mk.inj (Option.some.inj htr)
      exact ⟨h.of_same (.refl _) rfl rfl rfl, rfl⟩
    · cases htr

/-! ## Bytes that arrive -/

/-- What one read does to a channel before the parse loop: it is closed, or the bytes are
    behind what was in the ring. -/
theorem onRead_fill {ch : Channel} {bytes : List UInt8}
    (hwin : bytes.length ≤ ch.uv_alloc_cb.1.len) {ch' : Channel}
    (h : ch' = (ch.uv_alloc_cb.2.fill ch.uv_alloc_cb.1 bytes).onRead bytes.length) :
    SendSame ch ch' ∧ ch'.recv_buffer.capacity = ch.recv_buffer.capacity ∧
      (ch'.closed_ = false →
        ch'.recv_buffer.contents = ch.recv_buffer.contents ++ bytes) ∧
      (ch.closed_ = false → ch.recv_buffer.readableBytes < ch.recv_buffer.capacity →
        ch'.closed_ = false) := by
  by_cases hfull : ch.recv_buffer.linearWritablePtr.2 = 0
  · -- a full ring: `uv_alloc_cb` closes the channel, and `onRead` leaves it alone
    have halloc : ch.uv_alloc_cb = (.dummy, ch.close) := by rw [uv_alloc_cb, if_pos hfull]
    have hsame : ch' = ch.close := by
      rw [h, halloc]
      simp only [fill, onRead]
      split
      · rfl
      · rw [if_neg (by omega)]
    have hroom : ¬ch.recv_buffer.readableBytes < ch.recv_buffer.capacity := by
      have := linearWritablePtr_eq_zero.mp hfull
      rw [writableBytes_eq] at this
      omega
    subst hsame
    exact ⟨.close ch, rfl, fun hc => (by cases hc), fun _ hr => absurd hr hroom⟩
  · have halloc : ch.uv_alloc_cb = (.ring ch.recv_buffer.linearWritablePtr.2, ch) := by
      rw [uv_alloc_cb, if_neg hfull]
    rw [halloc] at hwin h
    obtain ⟨hok, hcontents⟩ := fillWritable_spec hwin
    have hcap : (ch.recv_buffer.fillWritable bytes).capacity = ch.recv_buffer.capacity :=
      capacity_fillWritable _ _
    obtain ⟨filled, hfilled⟩ : ∃ c, c = ch.setRecv (ch.recv_buffer.fillWritable bytes) hcap :=
      ⟨_, rfl⟩
    have hring : filled.recv_buffer = ch.recv_buffer.fillWritable bytes := by rw [hfilled]; rfl
    have hclosed : filled.closed_ = ch.closed_ := by rw [hfilled]; rfl
    have hsame : SendSame ch filled := by rw [hfilled]; exact ⟨rfl, rfl, fun hc => hc⟩
    have h' : ch' = filled.onRead bytes.length := by rw [h, hfilled]; rfl
    rw [onRead] at h'
    split at h'
    · split at h'
      · rename_i hcl
        subst h'
        refine ⟨hsame, by rw [hring]; exact hcap, fun ho => ?_, fun ho => ?_⟩
        · rw [hcl] at ho; cases ho
        · rw [← hclosed, hcl] at ho; cases ho
      · -- the bytes fit into the window
        have hadv : (filled.recv_buffer.advanceWriteIndex bytes.length).1 = true := by
          rw [hring]; exact hok
        simp only [Int.toNat_natCast, hadv, if_true] at h'
        subst h'
        refine ⟨⟨hsame.ring, hsame.mode, hsame.closed⟩, ?_, fun _ => ?_, fun ho _ => ?_⟩
        · simp only [setRecv, capacity_advanceWriteIndex, hring, hcap]
        · rw [← hcontents, ← hring]; rfl
        · exact hclosed.trans ho
    · -- no bytes
      rename_i hpos
      obtain rfl : bytes = [] := List.length_eq_zero_iff.mp (by omega)
      simp only [List.length_nil, Int.natCast_zero, Int.lt_irrefl, if_false] at h'
      subst h'
      refine ⟨hsame, by rw [hring]; exact hcap, fun _ => ?_, fun ho _ => hclosed.trans ho⟩
      rw [hring, ← hcontents]
      simp [advanceWriteIndex]

/-- What a read is. -/
theorem read_cases {e e' : Endpoint} {wire : List UInt8} {n : Nat}
    (h : e.read wire n = some e') :
    e.parsing = false ∧ n ≤ wire.length ∧
    ∃ ch, SendSame e.chan ch ∧ ch.recv_buffer.capacity = e.chan.recv_buffer.capacity ∧
      (ch.closed_ = false → e.chan.closed_ = false ∧
        ch.recv_buffer.contents = e.chan.recv_buffer.contents ++ wire.take n) ∧
      (e.chan.closed_ = false → e.chan.recv_buffer.readableBytes < e.chan.recv_buffer.capacity →
        ch.closed_ = false) ∧
      e' = { e.setChan ch with
             parsing := decide (0 < n) && !ch.closed_
             got := e.got ++ wire.take n } := by
  simp only [read] at h
  split at h
  · rename_i hok
    have hlen : (wire.take n).length = n := List.length_take_of_le hok.2.2.1
    obtain ⟨hsame, hcap, hgot, hopen⟩ := onRead_fill
      (show (wire.take n).length ≤ e.chan.uv_alloc_cb.1.len by
        rw [hlen]; exact hok.2.2.2) rfl
    rw [hlen] at hsame hcap hgot hopen
    refine ⟨hok.1, hok.2.2.1, _, hsame, hcap, fun ho => ⟨?_, hgot ho⟩, hopen,
      (Option.some.inj h).symm⟩
    by_contra hc
    rw [hsame.closed (by simpa using hc)] at ho
    cases ho
  · cases h

/-- Bytes that arrive change nothing of what was sent. -/
theorem sending_read {mode : ProtoMode} {e e' : Endpoint} {wire : List UInt8} {n : Nat}
    (h : Outgoing mode e) (hread : e.read wire n = some e') :
    Outgoing mode e' ∧ e'.out = e.out := by
  obtain ⟨-, -, ch, hsame, -, -, -, rfl⟩ := read_cases hread
  exact h.of_same hsame rfl rfl

/-- The bytes read come behind those in the ring; those read after the channel was closed
    are lost. -/
theorem receiving_read {mode : ProtoMode} {e e' : Endpoint} {wire : List UInt8} {n : Nat}
    (h : Incoming mode e) (hread : e.read wire n = some e') :
    Incoming mode e' ∧ e'.got = e.got ++ wire.take n := by
  obtain ⟨hparsing, hn, ch, hsame, -, hopen, -, rfl⟩ := read_cases hread
  refine ⟨{ mode_eq := hsame.mode.trans h.mode_eq, front := ?_, whole := ?_, waits := ?_ }, rfl⟩
  · obtain ⟨s, r, hs, htakes⟩ := h.front
    exact ⟨s, r, hs.trans (List.prefix_append _ _), htakes⟩
  · intro ho
    obtain ⟨ho', hc⟩ := hopen ho
    show Takes (cut mode) (e.got ++ wire.take n) e.packets ch.recv_buffer.contents
    rw [hc]
    exact (h.whole ho').append (stable_cut mode) _
  · intro ho hp
    -- the loop is not entered when nothing was read
    obtain ⟨ho', hc⟩ := hopen ho
    have hch : ch.closed_ = false := ho
    simp only [hch, Bool.not_false, Bool.and_true, decide_eq_false_iff_not] at hp
    obtain rfl : n = 0 := by omega
    show cut mode ch.recv_buffer.contents = .incomplete
    rw [hc, List.take_zero, List.append_nil]
    exact h.waits ho' hparsing

/-- What a failed read is: the channel is closed. -/
theorem readFail_cases {e e' : Endpoint} {nread : Int} (h : e.readFail nread = some e') :
    e' = e.setChan e.chan.close := by
  simp only [readFail] at h
  split at h
  · rename_i hok
    rw [onRead, if_neg (by omega), if_pos hok.2.2] at h
    exact (Option.some.inj h).symm
  · cases h

/-! ## The parse loop -/

/-- What a turn is: an end of the loop, with nothing left to cut or with the channel closed,
    or a frame that moves from the ring to `on_read`. -/
theorem turn_cases {e e' : Endpoint} {realloc : Nat → Bool} {maxPackBodyLen : Nat}
    (h : e.turn realloc maxPackBodyLen = some e') :
    e.parsing = true ∧
    ((e.chan.closed_ = false ∧ cut e.chan.proto_mode e.chan.recv_buffer.contents = .incomplete ∧
        e' = { e with parsing := false }) ∨
     ((e.chan.closed_ = true ∨ cut e.chan.proto_mode e.chan.recv_buffer.contents = .illegal ∨
        ∃ n ≤ MAX_PACKET_SIZE, realloc n = false) ∧
        e' = { e.setChan e.chan.close with parsing := false }) ∨
     ∃ n, e.chan.closed_ = false ∧
      cut e.chan.proto_mode e.chan.recv_buffer.contents = .frame n ∧
      e' = { e.setChan (e.chan.getPack n).2 with
             packets := e.packets ++ [e.chan.recv_buffer.contents.take n] }) := by
  simp only [turn] at h
  split at h
  · rename_i hparsing
    refine ⟨hparsing, ?_⟩
    have hturn := parseTurn_eq realloc maxPackBodyLen
      (show e.chan = if false then e.chan.close else e.chan from rfl)
    by_cases hcl : e.chan.closed_ = true
    · -- closing a closed channel changes nothing
      have hsame : e.chan.close = e.chan := by
        cases hch : e.chan
        rw [hch] at hcl
        simp only [Channel.close, Channel.mk.injEq, true_and, and_true]
        exact hcl.symm
      rw [if_pos hcl] at hturn
      rw [hturn] at h
      rw [hsame]
      exact .inr (.inl ⟨.inl hcl, (Option.some.inj h).symm⟩)
    · rw [if_neg hcl] at hturn
      have hopen : e.chan.closed_ = false := by simpa using hcl
      cases hcut : cut e.chan.proto_mode e.chan.recv_buffer.contents with
      | incomplete =>
        rw [hcut] at hturn
        rw [hturn] at h
        exact .inl ⟨hopen, rfl, (Option.some.inj h).symm⟩
      | illegal =>
        rw [hcut] at hturn
        rw [hturn] at h
        exact .inr (.inl ⟨.inr (.inl rfl), (Option.some.inj h).symm⟩)
      | frame n =>
        rw [hcut] at hturn
        simp only at hturn
        cases hbuff : getPacketBuff realloc maxPackBodyLen n with
        | none =>
          rw [hbuff] at hturn
          rw [hturn] at h
          refine .inr (.inl ⟨.inr (.inr ⟨n, cut_frame_le hcut, ?_⟩), (Option.some.inj h).symm⟩)
          rw [getPacketBuff] at hbuff
          split at hbuff
          · split at hbuff
            · cases hbuff
            · rename_i hre; simpa using hre
          · cases hbuff
        | some maxLen =>
          rw [hbuff] at hturn
          rw [hturn] at h
          obtain ⟨hpack, -⟩ := getPack_spec e.chan n
          refine .inr (.inr ⟨n, hopen, rfl, ?_⟩)
          rw [← hpack]
          exact (Option.some.inj h).symm
  · cases h

/-- A turn of the parse loop sends nothing. -/
theorem sending_turn {mode : ProtoMode} {e e' : Endpoint} {realloc : Nat → Bool}
    {maxPackBodyLen : Nat} (h : Outgoing mode e)
    (hturn : e.turn realloc maxPackBodyLen = some e') : Outgoing mode e' ∧ e'.out = e.out := by
  obtain ⟨-, ⟨-, -, rfl⟩ | ⟨-, rfl⟩ | ⟨n, -, -, rfl⟩⟩ := turn_cases hturn
  · exact h.of_same ⟨rfl, rfl, fun hc => hc⟩ rfl rfl
  · exact h.of_same (.close _) rfl rfl
  · exact h.of_same ⟨rfl, rfl, fun hc => hc⟩ rfl rfl

/-- A turn takes a packet off the ring, or ends the loop. -/
theorem receiving_turn {mode : ProtoMode} {e e' : Endpoint} {realloc : Nat → Bool}
    {maxPackBodyLen : Nat} (h : Incoming mode e)
    (hturn : e.turn realloc maxPackBodyLen = some e') : Incoming mode e' ∧ e'.got = e.got := by
  obtain ⟨hparsing, ⟨hopen, hcut, rfl⟩ | ⟨-, rfl⟩ | ⟨n, hopen, hcut, rfl⟩⟩ := turn_cases hturn
  · rw [h.mode_eq] at hcut
    exact ⟨{ mode_eq := h.mode_eq, front := h.front, whole := h.whole,
             waits := fun _ _ => hcut }, rfl⟩
  · exact ⟨{ mode_eq := h.mode_eq, front := h.front, whole := fun hc => (by cases hc),
             waits := fun hc => (by cases hc) }, rfl⟩
  · rw [h.mode_eq] at hcut
    have hnext := (h.whole hopen).snoc hcut
    rw [← (getPack_spec e.chan n).2.1] at hnext
    exact ⟨{ mode_eq := h.mode_eq, front := ⟨_, _, List.prefix_refl _, hnext⟩,
             whole := fun _ => hnext
             waits := fun _ hp => by
               have hstill : e.parsing = false := hp
               rw [hparsing] at hstill
               cases hstill }, rfl⟩

/-- The packets handed over, as `parseHeader` decodes them. -/
def received (mode : ProtoMode) (e : Endpoint) : List DecodedMsg :=
  e.packets.map fun p => Decoder.parseHeader mode (some p) {}

end Endpoint

/-! ## The connection -/

namespace Connection

open Endpoint

/-- The invariant of a connection on a link of the given mode. -/
structure Inv (mode : ProtoMode) (c : Connection) : Prop where
  sending : ∀ s, Outgoing mode (c.ends s)
  receiving : ∀ s, Incoming mode (c.ends s)
  /-- what was taken from one end has been read at the other or is in between -/
  flow : ∀ s, (c.ends s.peer).got ++ c.wire s = (c.ends s).out

/-- A step at one end keeps the invariant when it keeps that end's two halves and the two
    equations it is part of. -/
theorem Inv.put {mode : ProtoMode} {c : Connection} (h : Inv mode c) {s : Side} {e : Endpoint}
    {wire : Side → List UInt8} (hsend : Outgoing mode e) (hrecv : Incoming mode e)
    (hout : (c.ends s.peer).got ++ wire s = e.out)
    (hin : e.got ++ wire s.peer = (c.ends s.peer).out) :
    Inv mode { c.put s e with wire := wire } := by
  have hself : (c.put s e).ends s = e := by
    simp only [Connection.put, Function.update_self]
  have hpeer : (c.put s e).ends s.peer = c.ends s.peer := by
    simp only [Connection.put, Function.update_of_ne s.peer_ne]
  refine { sending := fun t => ?_, receiving := fun t => ?_, flow := fun t => ?_ }
  · obtain rfl | rfl := Side.eq_or_eq_peer s t
    · show Outgoing mode ((c.put _ e).ends _)
      rw [hself]; exact hsend
    · show Outgoing mode ((c.put s e).ends s.peer)
      rw [hpeer]; exact h.sending s.peer
  · obtain rfl | rfl := Side.eq_or_eq_peer s t
    · show Incoming mode ((c.put _ e).ends _)
      rw [hself]; exact hrecv
    · show Incoming mode ((c.put s e).ends s.peer)
      rw [hpeer]; exact h.receiving s.peer
  · obtain rfl | rfl := Side.eq_or_eq_peer s t
    · show ((c.put _ e).ends _).got ++ wire _ = ((c.put _ e).ends _).out
      rw [hself, hpeer]; exact hout
    · show ((c.put s e).ends s.peer.peer).got ++ wire s.peer = ((c.put s e).ends s.peer).out
      rw [Side.peer_peer, hself, hpeer]; exact hin

/-- Every step keeps the invariant. -/
theorem inv_step {mode : ProtoMode} {c c' : Connection} (x : Side × EndAct) (h : Inv mode c)
    (hstep : c.step x = some c') : Inv mode c' := by
  obtain ⟨s, a⟩ := x
  have hflow := h.flow s
  have hflow' : (c.ends s).got ++ c.wire s.peer = (c.ends s.peer).out := by
    have := h.flow s.peer
    rwa [Side.peer_peer] at this
  -- each step is about one half of this end, or about both where it closes
  cases a with
  | call a =>
    obtain ⟨e, hcall, rfl⟩ := Option.map_eq_some_iff.mp hstep
    obtain ⟨hsend, hout⟩ := sending_call (h.sending s) hcall
    obtain ⟨-, -, hgot, -, -⟩ := call_cases hcall
    exact h.put hsend (receiving_call (h.receiving s) hcall) (hflow.trans hout.symm)
      (by rw [hgot]; exact hflow')
  | transmit n =>
    obtain ⟨⟨e, bytes⟩, htr, rfl⟩ := Option.map_eq_some_iff.mp hstep
    obtain ⟨hsend, hout⟩ := sending_transmit (h.sending s) htr
    obtain ⟨hrecv, hgot⟩ := receiving_transmit (h.receiving s) htr
    refine h.put hsend hrecv ?_ ?_
    · rw [Function.update_self, ← List.append_assoc, hflow, hout]
    · rw [Function.update_of_ne s.peer_ne, hgot]; exact hflow'
  | read n =>
    obtain ⟨e, hread, rfl⟩ := Option.map_eq_some_iff.mp hstep
    obtain ⟨hsend, hout⟩ := sending_read (h.sending s) hread
    obtain ⟨hrecv, hgot⟩ := receiving_read (h.receiving s) hread
    refine h.put hsend hrecv ?_ ?_
    · rw [Function.update_of_ne s.peer_ne.symm, hout]; exact hflow
    · rw [Function.update_self, hgot, List.append_assoc, List.take_append_drop]; exact hflow'
  | readFail nread =>
    obtain ⟨e, hfail, rfl⟩ := Option.map_eq_some_iff.mp hstep
    obtain rfl := readFail_cases hfail
    obtain ⟨hsend, hout⟩ :
        Outgoing mode ((c.ends s).setChan (c.ends s).chan.close) ∧
          ((c.ends s).setChan (c.ends s).chan.close).out = (c.ends s).out :=
      (h.sending s).of_same (.close _) rfl rfl
    exact h.put hsend ((h.receiving s).of_same (.close _) rfl rfl rfl) (hflow.trans hout.symm)
      hflow'
  | turn realloc maxPackBodyLen =>
    obtain ⟨e, hturn, rfl⟩ := Option.map_eq_some_iff.mp hstep
    obtain ⟨hsend, hout⟩ := sending_turn (h.sending s) hturn
    obtain ⟨hrecv, hgot⟩ := receiving_turn (h.receiving s) hturn
    exact h.put hsend hrecv (hflow.trans hout.symm) (by rw [hgot]; exact hflow')

/-- Two new channels of one mode, connected. -/
theorem inv_init {mode : ProtoMode} {near far : Channel}
    (hnear : near.proto_mode = mode ∧ near.send_buff.contents = [] ∧
      near.recv_buffer.contents = [])
    (hfar : far.proto_mode = mode ∧ far.send_buff.contents = [] ∧
      far.recv_buffer.contents = []) : Inv mode (init near far) := by
  have hend : ∀ ch : Channel, ch.proto_mode = mode ∧ ch.send_buff.contents = [] ∧
      ch.recv_buffer.contents = [] →
      Outgoing mode (.init ch) ∧ Incoming mode (.init ch) ∧ (Endpoint.init ch).out = [] := by
    intro ch ⟨hmode, hsend, hrecv⟩
    refine ⟨?_, ?_, by simp [Endpoint.out, Endpoint.init, chan, Sender.init]⟩
    · exact { inv := Sender.inv_init hsend
              framesOf := ⟨hmode, fun m hm => (by cases hm)⟩
              taken_le := fun w _ => Nat.zero_le _
              taken_len := Nat.zero_le _
              idle := fun _ _ => rfl }
    · have hnil : Takes (cut mode) [] [] ch.recv_buffer.contents := by rw [hrecv]; exact .nil _
      exact { mode_eq := hmode
              front := ⟨[], _, List.prefix_refl _, hnil⟩
              whole := fun _ => hnil
              waits := fun _ _ => by
                show cut mode ch.recv_buffer.contents = .incomplete
                rw [hrecv]; exact cut_nil mode }
  obtain ⟨hs, hr, ho⟩ := hend near hnear
  obtain ⟨hs', hr', ho'⟩ := hend far hfar
  exact { sending := fun s => by cases s; exacts [hs, hs']
          receiving := fun s => by cases s; exacts [hr, hr']
          flow := fun s => by cases s; exacts [ho.symm, ho'.symm] }

/-- It holds of a new connection. -/
theorem inv_new (malloc malloc' : Malloc) (id id' : UInt32)
    (recvSize sendSize recvSize' sendSize' : UInt64) (mode : ProtoMode) :
    Inv mode (init (Channel.new malloc id recvSize sendSize mode)
      (Channel.new malloc' id' recvSize' sendSize' mode)) :=
  inv_init ⟨rfl, new_contents (newBuffer_eq malloc sendSize),
      new_contents (newBuffer_eq malloc recvSize)⟩
    ⟨rfl, new_contents (newBuffer_eq malloc' sendSize'),
      new_contents (newBuffer_eq malloc' recvSize')⟩

/-- It holds in every run. -/
theorem inv_run {mode : ProtoMode} {c c' : Connection} {acts : List (Side × EndAct)}
    (h : Inv mode c) (hrun : Run.run step c acts = some c') : Inv mode c' :=
  Run.invariant (fun _ x _ hc hstep => inv_step x hc hstep) h hrun

/-- The frames of an end are recognised whatever follows them. -/
theorem Inv.cut_frames {mode : ProtoMode} {c : Connection} (h : Inv mode c) (s : Side) :
    ∀ f ∈ (c.ends s).send.frames.map (OutMsg.frame mode), ∀ t,
      cut mode (f ++ t) = .frame f.length := by
  simp only [List.forall_mem_map]
  exact fun m hm t => cut_frame m.msgId m.playerId ((h.sending s).framesOf.2 m hm) t

/-- The packets of an end are the first frames of the other. -/
theorem Inv.packets_prefix {mode : ProtoMode} {c : Connection} (h : Inv mode c) (s : Side) :
    (c.ends s.peer).packets <+: (c.ends s).send.frames.map (OutMsg.frame mode) := by
  obtain ⟨got, r, hgot, htakes⟩ := (h.receiving s.peer).front
  have hout : got <+: ((c.ends s).send.frames.map (OutMsg.frame mode)).flatten := by
    refine hgot.trans (List.IsPrefix.trans ?_ (h.sending s).sent_within)
    rw [← h.flow s]
    exact List.prefix_append _ _
  obtain ⟨t, ht⟩ := hout
  obtain ⟨qs, hqs, -⟩ := htakes.rest (stable_cut mode) (cut_nil mode) (h.cut_frames s) ht
  exact ⟨qs, hqs.symm⟩

/-- When nothing is on its way to an open end, its packets are all frames. -/
theorem Inv.packets_all {mode : ProtoMode} {c : Connection} (h : Inv mode c) {s : Side}
    (hopen : (c.ends s.peer).chan.closed_ = false) (hidle : (c.ends s.peer).parsing = false)
    (hwire : c.wire s = []) (hring : (c.ends s).chan.send_buff.contents = []) :
    (c.ends s.peer).packets = (c.ends s).send.frames.map (OutMsg.frame mode) := by
  have hall : (c.ends s.peer).got = ((c.ends s).send.frames.map (OutMsg.frame mode)).flatten := by
    have hstream := (h.sending s).inv.stream
    rw [(h.sending s).framesOf.1] at hstream
    have hflow := h.flow s
    rw [hwire, List.append_nil, out, hring, List.take_nil, List.append_nil] at hflow
    rw [hflow, ← hstream, show (c.ends s).send.chan.send_buff.contents = [] from hring,
      List.append_nil]
  have hwhole := (h.receiving s.peer).whole hopen
  rw [hall] at hwhole
  exact hwhole.all (stable_cut mode) (cut_nil mode) (h.cut_frames s) fun n hn => by
    rw [(h.receiving s.peer).waits hopen hidle] at hn
    cases hn

/-- Order and integrity of delivery.  Two new channels are connected, and anything happens at
    either end: messages are sent, bytes are taken and read in any pieces, writes and reads
    succeed or fail, buffers cannot grow, `close()` is called.  In every state that is
    reached, the messages that an end has decoded are the first messages that the other put
    into its send ring, in their order and each as it was (`onWire`).  They are all of them
    when the end is open, its parse loop has finished and nothing is on its way. -/
theorem delivered_in_order (malloc malloc' : Malloc) (id id' : UInt32)
    (recvSize sendSize recvSize' sendSize' : UInt64) (mode : ProtoMode)
    (acts : List (Side × EndAct)) (c : Connection)
    (hrun : Run.run step (init (Channel.new malloc id recvSize sendSize mode)
      (Channel.new malloc' id' recvSize' sendSize' mode)) acts = some c) (s : Side) :
    (c.ends s.peer).received mode <+: (c.ends s).send.frames.map (OutMsg.onWire mode) ∧
    ((c.ends s.peer).chan.closed_ = false → (c.ends s.peer).parsing = false → c.wire s = [] →
      (c.ends s).chan.send_buff.contents = [] →
      (c.ends s.peer).received mode = (c.ends s).send.frames.map (OutMsg.onWire mode)) := by
  have hinv := inv_run (inv_new malloc malloc' id id' recvSize sendSize recvSize' sendSize' mode)
    hrun
  have hdecode : ((c.ends s).send.frames.map (OutMsg.frame mode)).map
      (fun p => Decoder.parseHeader mode (some p) {}) =
      (c.ends s).send.frames.map (OutMsg.onWire mode) := by
    rw [List.map_map]
    exact List.map_congr_left fun m _ => parseHeader_onWire mode m
  rw [← hdecode]
  constructor
  · exact (hinv.packets_prefix s).map _
  · intro hopen hidle hwire hring
    rw [received, hinv.packets_all hopen hidle hwire hring]

/-- A frame of 19 bytes leaves in two pieces, with a frame of the other end in between. -/
theorem delivered_in_order_pieces :
    let msg : OutMsg := ⟨-7, [1, 2, 3], 5⟩
    let acts : List (Side × EndAct) :=
      [(.near, .call (.rawWrite false 0 msg)), (.near, .transmit 10), (.far, .read 10),
        (.far, .turn (fun _ => true) 8192), (.far, .call (.rawWrite false 0 ⟨9, [], 1⟩)),
        (.near, .transmit 9), (.near, .call (.writeDone 0 0 0)), (.far, .read 9),
        (.far, .turn (fun _ => true) 8192), (.far, .turn (fun _ => true) 8192)]
    ∃ c, Run.run step (init (Channel.new zeroed 1 24 24 .INNER)
        (Channel.new zeroed 2 24 24 .INNER)) acts = some c ∧
      (c.ends .far).received .INNER = [msg.onWire .INNER] := by
  intro msg acts
  have hquiet : (Run.run step (init (Channel.new zeroed 1 24 24 .INNER)
      (Channel.new zeroed 2 24 24 .INNER)) acts).map (fun c =>
        ((c.ends .far).chan.closed_, (c.ends .far).parsing, c.wire .near,
          (c.ends .near).chan.send_buff.contents, (c.ends .near).send.frames)) =
      some (false, false, [], [], [msg]) := by decide +kernel
  obtain ⟨c, hrun, hc⟩ := Option.map_eq_some_iff.mp hquiet
  simp only [Prod.mk.injEq] at hc
  obtain ⟨hopen, hidle, hwire, hring, hframes⟩ := hc
  have h := (delivered_in_order zeroed zeroed 1 2 24 24 24 24 .INNER acts c hrun .near).2 hopen
    hidle hwire hring
  rw [hframes] at h
  exact ⟨c, hrun, h⟩

end Connection

end Athena
