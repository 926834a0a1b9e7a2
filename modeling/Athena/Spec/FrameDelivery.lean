import Athena.Native.LoginService
import Athena.Spec.ClientIsolation
import Athena.Spec.ConnectionOrder
import Athena.Spec.HeaderCheck
import Athena.Spec.SendPath

/-!
# What becomes of a sent message at its receiver

A frame that a send function has put into its ring arrives as it is (`FrameRoundTrip`).
Here it meets the receiver's `parseHeader` and `decodeMsg`, and the actor that its
handler runs on.

## Key results

- `sendable_receivable_iff`: a sent message is decoded and its handler invoked exactly
  when its encoding is not empty
- `player_id_header`: of the player id the low 32 bits arrive, sign-extended
-/

namespace Athena

open Channel ByteUtils Decoder

namespace Channel

/-- What a send function that appended something appended. -/
theorem appended_frame {raced : Bool} {ret : Int} {ch : Channel} {msgId : Int32}
    {body : List UInt8} {playerId : Int64} {out : SendOut}
    (h : Sends raced ret ch msgId body playerId out) (hsent : out.appended = true) :
    out.chan.send_buff.contents =
      ch.send_buff.contents ++ frame ch.proto_mode msgId body playerId := by
  cases h with
  | inl hdrop => rw [hdrop] at hsent; exact absurd hsent Bool.false_ne_true
  | inr h =>
    obtain ⟨-, -, hfit, hout⟩ := h
    exact (appendAndSend_spec hout hfit).2.1

/-- `eventLoopWrite` appends only what could be serialized. -/
theorem serialize_of_appended {packBuf raced : Bool} {ret : Int} {ch : Channel} {msgId : Int32}
    {msg : Message} {playerId : Int64}
    (h : (ch.eventLoopWrite packBuf raced ret msgId msg playerId).appended = true) :
    ∃ body, msg.serialize = some body := by
  cases hser : msg.serialize with
  | some body => exact ⟨body, rfl⟩
  | none =>
    simp only [eventLoopWrite, hser] at h
    repeat' split at h
    all_goals exact absurd h Bool.false_ne_true

end Channel

/-! ## Sent messages are received -/

/-- Decoding a frame with a registered id, on a live channel. -/
theorem decodeMsg_frame {M : Type} {findMsgFunction : Int32 → Option (MsgFunction M)}
    {msgId : Int32} {f : MsgFunction M} (h : findMsgFunction msgId = some f) {mode : ProtoMode}
    {body : List UInt8} {playerId : Int64} :
    decodeMsg findMsgFunction true
        (parseHeader mode (some (frame mode msgId body playerId)) {}) =
      if body.length = 0 then (.PARSE_FAILED, none)
      else match f.ParseFromArray body with
        | none => (.PARSE_FAILED, none)
        | some msg => (.OK, some msg) := by
  simp only [parseHeader_frame_eq, decodeMsg, h, MsgFunction.parseParam, Nat.le_zero]
  by_cases h0 : body.length = 0
  · simp [h0]
  · simp only [if_neg h0]
    cases f.ParseFromArray body <;> rfl

/-- The channel `c` of a server gets the packet, which is the message `msg` with the id
    `msgId`: it is decoded, and in every run of the server its handler has been invoked
    once nothing of the channel is waiting. -/
def Received {M : Type} (cfg : GameServerConfig M) (c : ChannelRef) (msgId : Int32) (msg : M)
    (packet : List UInt8) : Prop :=
  decodeMsg cfg.findMsgFunction true (parseHeader (cfg.protoMode c) (some packet) {}) =
      (.OK, some msg) ∧
    ∀ (before after : List GameServerAct) (s : GameServer M),
      Run.run (GameServer.step cfg) GameServer.init (before ++ .onMsg c true packet :: after) =
        some s →
      s.queued cfg c = [] → s.inHand cfg c = [] →
      ∃ task ∈ s.invoked, task.channel = c ∧ task.msgId = msgId ∧ task.msg = msg

namespace GameServer

variable {M : Type} {cfg : GameServerConfig M}

/-- What has arrived stays arrived. -/
theorem arrived_mono {acts : List GameServerAct} {s s' : GameServer M}
    (hrun : Run.run (step cfg) s acts = some s') {task : HandlerTask M}
    (h : task ∈ s.arrived) : task ∈ s'.arrived := by
  refine Run.invariant (P := fun s => task ∈ s.arrived) ?_ h hrun
  intro s a s' hmem hstep
  cases a with
  -- only `execute` touches what has arrived, and it appends
  | onMsg channel channelLive buff =>
    simp only [step] at hstep
    split at hstep
    · simp at hstep
    · split at hstep
      · exact Option.some.inj hstep ▸ hmem
      · obtain rfl := Option.some.inj hstep
        rw [execute]
        split
        · exact List.mem_append_left _ hmem
        · dsimp only
          split <;> exact List.mem_append_left _ hmem
  | enqueue loop =>
    simp only [step] at hstep
    split at hstep
    · simp at hstep
    · exact Option.some.inj hstep ▸ hmem
  | thread actor i =>
    simp only [step] at hstep
    split at hstep
    · simp at hstep
    · split at hstep
      · simp at hstep
      · exact Option.some.inj hstep ▸ hmem

/-- A packet that decodes arrives. -/
theorem arrived_onMsg {s s' : GameServer M} {c : ChannelRef} {packet : List UInt8}
    {task : HandlerTask M} (hdecode : decode cfg c true packet = some task)
    (hstep : step cfg s (.onMsg c true packet) = some s') : task ∈ s'.arrived := by
  simp only [step, hdecode] at hstep
  split at hstep
  · simp at hstep
  · obtain rfl := Option.some.inj hstep
    have hmem : task ∈ s.arrived ++ [task] := List.mem_append_right _ (List.mem_singleton_self _)
    rw [execute]
    split
    · exact hmem
    · dsimp only
      split <;> exact hmem

/-- The handler of a packet that decodes is invoked once nothing of its channel waits. -/
theorem invoked_of_decode (hn : 1 ≤ cfg.logicActors) {c : ChannelRef} {packet : List UInt8}
    {task : HandlerTask M} (hdecode : decode cfg c true packet = some task)
    {before after : List GameServerAct} {s : GameServer M}
    (hrun : Run.run (step cfg) init (before ++ .onMsg c true packet :: after) = some s)
    (hqueued : s.queued cfg c = []) (hhand : s.inHand cfg c = []) : task ∈ s.invoked := by
  obtain ⟨m, -, hrest⟩ := Run.run_append hrun
  obtain ⟨m', hstep, hafter⟩ := Run.run_cons hrest
  have harrived := arrived_mono hafter (arrived_onMsg hdecode hstep)
  -- all of the channel's frames have been invoked
  have hall := (handled_in_order cfg hn hrun c).2.2.1 hqueued hhand
  have hmem : task ∈ of c s.arrived :=
    List.mem_filter.mpr ⟨harrived, by rw [channel_decode hdecode]; exact decide_eq_true rfl⟩
  rw [← hall] at hmem
  exact List.mem_of_mem_filter hmem

end GameServer

/-- A message of a registered type whose frame `eventLoopWrite` puts into the send ring is
    received, exactly when its encoding is not empty. -/
theorem sendable_receivable_iff {M : Type} (cfg : GameServerConfig M)
    (hn : 1 ≤ cfg.logicActors) (c : ChannelRef) (ch : Channel)
    (hmode : cfg.protoMode c = ch.proto_mode) (msgId : Int32) (f : MsgFunction M)
    (hregistered : cfg.findMsgFunction msgId = some f) (SerializeToArray : M → Message)
    (hinverse : ∀ msg bytes, (SerializeToArray msg).serialize = some bytes →
      f.ParseFromArray bytes = some msg)
    (msg : M) (packBuf raced : Bool) (ret : Int) (playerId : Int64)
    (hsent : (ch.eventLoopWrite packBuf raced ret msgId (SerializeToArray msg) playerId).appended =
      true) :
    ∃ packet, (ch.eventLoopWrite packBuf raced ret msgId (SerializeToArray msg)
        playerId).chan.send_buff.contents = ch.send_buff.contents ++ packet ∧
      (Received cfg c msgId msg packet ↔ (SerializeToArray msg).byteSizeLong ≠ 0) := by
  obtain ⟨body, hbody⟩ := serialize_of_appended hsent
  have happ := appended_frame (eventLoopWrite_sends packBuf raced ret ch msgId
    (SerializeToArray msg) playerId) hsent
  rw [hbody, Option.getD_some] at happ
  have hlen := (SerializeToArray msg).length_serialize body hbody
  refine ⟨_, happ, ?_⟩
  rw [← hmode]
  constructor
  · rintro ⟨hok, -⟩ hempty
    -- an empty body is not parsed
    rw [decodeMsg_frame hregistered, if_pos (by omega)] at hok
    exact absurd (congrArg Prod.fst hok) (by simp)
  · intro hne
    have hok : decodeMsg cfg.findMsgFunction true
        (parseHeader (cfg.protoMode c) (some (frame (cfg.protoMode c) msgId body playerId)) {}) =
          (.OK, some msg) := by
      rw [decodeMsg_frame hregistered, if_neg (by omega), hinverse msg body hbody]
    refine ⟨hok, fun before after s hrun hqueued hhand => ?_⟩
    have hdecode : GameServer.decode cfg c true (frame (cfg.protoMode c) msgId body playerId) =
        some { playerId := (parseHeader (cfg.protoMode c)
                (some (frame (cfg.protoMode c) msgId body playerId)) {}).playerId
               msgId := msgId
               channel := c
               msg := msg } := by
      simp only [GameServer.decode, hok, Option.some.injEq, HandlerTask.mk.injEq]
      rw [parseHeader_frame_eq]
      exact ⟨trivial, rfl, trivial, trivial⟩
    exact ⟨_, GameServer.invoked_of_decode hn hdecode hrun hqueued hhand, rfl, rfl, rfl⟩

/-- A one-byte message with the id 7 on a connection between two servers. -/
theorem sendable_receivable_byte :
    ∃ packet, ((Channel.new zeroed 1 24 24 .INNER).eventLoopWrite true false 0 7
        (ClientPort.messageOf [5]) 9).chan.send_buff.contents =
          (Channel.new zeroed 1 24 24 .INNER).send_buff.contents ++ packet ∧
      Received GameServer.twoConnections 1 7 [5] packet := by
  obtain ⟨packet, happ, hiff⟩ := sendable_receivable_iff GameServer.twoConnections (by decide) 1
    (Channel.new zeroed 1 24 24 .INNER) rfl 7 { ParseFromArray := some } rfl ClientPort.messageOf
    (fun _ _ h => h.symm) [5] true false 0 9 (by decide)
  exact ⟨packet, happ, hiff.mpr (by decide)⟩

/-- The answer to a heartbeat, which encodes to nothing, is sent and not received. -/
theorem heartbeat_not_received :
    ((Channel.new zeroed 1 24 24 .INNER).eventLoopWrite true false 0 (-4)
        (ClientPort.messageOf []) 0).appended = true ∧
      ¬Received GameServer.twoConnections 1 (-4) []
        ((Channel.new zeroed 1 24 24 .INNER).eventLoopWrite true false 0 (-4)
          (ClientPort.messageOf []) 0).chan.send_buff.contents := by
  refine ⟨by decide, ?_⟩
  rintro ⟨hok, -⟩
  exact absurd (congrArg Prod.fst hok) (by decide)

/-! ## The player id -/

/-- An `int64` id is what arrives exactly when it is in the range of `int32`. -/
theorem wirePlayerId_eq_iff (id : Int64) :
    wirePlayerId id = id ↔ -2 ^ 31 ≤ id.toInt ∧ id.toInt < 2 ^ 31 := by
  constructor
  · intro h
    rw [← h, wirePlayerId, Int32.toInt_toInt64]
    exact ⟨Int32.le_toInt _, Int32.toInt_lt _⟩
  · intro h
    apply Int64.toInt_inj.mp
    rw [wirePlayerId, Int32.toInt_toInt64, Int64.toInt_toInt32]
    exact Int.bmod_eq_of_le (by omega) (by omega)

/-- What `parseHeader` decodes from the bytes that a send function appended on a link
    between servers. -/
def HeaderCarries (ch : Channel) (playerId : Int64) (out : SendOut) : Prop :=
  ∃ packet, out.chan.send_buff.contents = ch.send_buff.contents ++ packet ∧
    (parseHeader .INNER (some packet) {}).playerId = wirePlayerId playerId ∧
    ((parseHeader .INNER (some packet) {}).playerId = playerId ↔
      -2 ^ 31 ≤ playerId.toInt ∧ playerId.toInt < 2 ^ 31) ∧
    ∀ uid, playerId = ofUid uid → toUid (parseHeader .INNER (some packet) {}).playerId = uid

/-- Both send functions, on a link between servers, for every id: the low 32 bits arrive,
    sign-extended.  That is the id if it is in the range of `int32`, and for every `uint32`
    uid it is the uid once narrowed to `uint32`. -/
theorem player_id_header (ch : Channel) (hmode : ch.proto_mode = .INNER) (raced : Bool)
    (ret : Int) (msgId : Int32) (playerId : Int64) :
    (∀ body, (ch.eventLoopRawWrite raced ret msgId body playerId).appended = true →
      HeaderCarries ch playerId (ch.eventLoopRawWrite raced ret msgId body playerId)) ∧
    ∀ packBuf msg, (ch.eventLoopWrite packBuf raced ret msgId msg playerId).appended = true →
      HeaderCarries ch playerId (ch.eventLoopWrite packBuf raced ret msgId msg playerId) := by
  have hcarries : ∀ body out, Sends raced ret ch msgId body playerId out →
      out.appended = true → HeaderCarries ch playerId out := by
    intro body out hsends hsent
    have happ := appended_frame hsends hsent
    have hpid : (parseHeader .INNER (some (frame .INNER msgId body playerId)) {}).playerId =
        wirePlayerId playerId := by
      rw [parseHeader_frame_eq]
      rfl
    rw [hmode] at happ
    refine ⟨_, happ, hpid, ?_, ?_⟩
    · rw [hpid]
      exact wirePlayerId_eq_iff playerId
    · rintro uid rfl
      rw [hpid]
      exact toUid_wirePlayerId uid
  exact ⟨fun body => hcarries body _ (eventLoopRawWrite_sends raced ret ch msgId body playerId),
    fun packBuf msg => hcarries _ _ (eventLoopWrite_sends packBuf raced ret ch msgId msg playerId)⟩

/-- The uid 7 on a link between servers. -/
theorem player_id_header_small :
    HeaderCarries (Channel.new zeroed 1 24 24 .INNER) (ofUid 7)
      ((Channel.new zeroed 1 24 24 .INNER).eventLoopRawWrite false 0 1 [5] (ofUid 7)) :=
  (player_id_header _ rfl false 0 1 (ofUid 7)).1 [5] (by decide)

/-- The uid 2147483648 arrives as the negative number with the same low bits. -/
theorem player_id_sign :
    ((Channel.new zeroed 1 24 24 .INNER).eventLoopRawWrite false 0 1 [5]
        (ofUid 2147483648)).appended = true ∧
      (parseHeader .INNER (some ((Channel.new zeroed 1 24 24 .INNER).eventLoopRawWrite false 0 1
        [5] (ofUid 2147483648)).chan.send_buff.contents) {}).playerId = -2147483648 ∧
      ofUid 2147483648 ≠ -2147483648 := by
  decide

end Athena
