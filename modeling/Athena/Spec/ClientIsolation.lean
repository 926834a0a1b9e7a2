import Athena.ForStd.Run
import Athena.Native.ClientPort

/-!
# Isolation of the client port

As long as no packet from a client carries a negative `InnerProtoCode` id, what
clients send does not reach the registry of peer nodes, runs no handler of such an
id, and puts no such id into a frame, except for the two requests the gateway makes
itself: a login for each `LOGIN_REQUEST`, and a disconnect for each player whose
channel closes.

## Key results

- `invoke_sends`, `onPlayerDisconnect_sends`, `proxyMsgToGame_sends`: what each
  function of the port may queue
- `step_isolated`: one step
- `client_port_isolation`: every run
- `login_reaches_game`: a login does put a negative id on the link to a game node
-/

namespace Athena

open InnerProtoCode

/-- The gateway's own login or disconnect request, with the uid in its header. -/
def Post.Own (p : Post) : Prop :=
  ∃ req : SessionMsg, p.playerId = req.roleid ∧
    (p.msgId = INNER_TO_GAME_LOGIN_REQ ∧ p.payload = .msg (.InnerLoginRequest req) ∨
      p.msgId = INNER_PLAYER_DISCONNECT_REQ ∧
        p.payload = .msg (.InnerPlayerDisconnectRequest req))

/-- A negative id is used for the gateway's own requests only. -/
def Post.Allowed (p : Post) : Prop := isInnerId p.msgId = true → p.Own

/-- A message type that clients may send. -/
def PortMsg.Outer : PortMsg → Prop
  | .LoginRequest _ => True
  | .HeartBeatRequest => True
  | _ => False

/-- A task for a client's message. -/
def PortTask.Outer (t : PortTask) : Prop := isInnerId t.msgId = false ∧ t.msg.Outer

/-- Any other id is allowed. -/
theorem Post.allowed_of_outer {p : Post} (h : isInnerId p.msgId = false) : p.Allowed :=
  fun hp => absurd hp (by rw [h]; decide)

namespace ClientPort

/-! ## Decoding -/

/-- A packet that `parseHeader` accepts has the id of its second field. -/
theorem parseHeader_msgId {mode : ProtoMode} {frame body : List UInt8}
    (h : (Decoder.parseHeader mode (some frame) {}).body = some body) :
    (Decoder.parseHeader mode (some frame) {}).msgId = frameMsgId frame := by
  unfold Decoder.parseHeader at h ⊢
  by_cases hlen : frame.length < Channel.headerLen mode
  · simp only [hlen, if_true] at h
    exact absurd h (by simp)
  by_cases hmagic : ByteUtils.readInt32 (frame.drop (Channel.magicOff mode)) = Channel.MAGIC_NUM
  · simp only [hlen, hmagic, ne_eq, not_true, if_false, frameMsgId]
  · simp only [hlen, hmagic, ne_eq, not_false_iff, if_false, if_true] at h
    exact absurd h (by simp)

/-- A decoded message comes from the parser registered for its id. -/
theorem decodeMsg_ok {find : Int32 → Option (MsgFunction PortMsg)} {live : Bool}
    {out : DecodedMsg} {msg : PortMsg} (h : Decoder.decodeMsg find live out = (.OK, some msg)) :
    ∃ body f, out.body = some body ∧ find out.msgId = some f ∧ f.ParseFromArray body = some msg := by
  unfold Decoder.decodeMsg at h
  -- a body, a function for the id, and a parse that succeeds: nothing else gives a message
  cases hbody : out.body with
  | none => rw [hbody] at h; simp at h
  | some body =>
    rw [hbody] at h
    cases hfind : find out.msgId with
    | none => rw [hfind] at h; simp at h
    | some f =>
      rw [hfind] at h
      cases live with
      | false => simp at h
      | true =>
        simp only [Bool.not_true, Bool.false_eq_true, if_false] at h
        cases hparse : f.parseParam body with
        | none => rw [hparse] at h; simp at h
        | some msg' =>
          rw [hparse] at h
          simp only [Prod.mk.injEq, Option.some.injEq, true_and] at h
          refine ⟨body, f, rfl, rfl, ?_⟩
          unfold MsgFunction.parseParam at hparse
          split at hparse
          · exact absurd hparse (by simp)
          · rw [hparse, h]

/-- Only the ids of `InnerProtoCode` have a parser for a message between servers. -/
theorem findMsgFunction_outer {proto : Protobuf} {msgId : Int32} {f : MsgFunction PortMsg}
    {body : List UInt8} {msg : PortMsg} (hid : isInnerId msgId = false)
    (hfind : Dispatcher.findMsgFunction proto msgId = some f)
    (hparse : f.ParseFromArray body = some msg) : msg.Outer := by
  have hne : ∀ id ∈ negatives, msgId ≠ id := by
    intro id hmem heq
    rw [heq, isInnerId, List.contains_iff_mem.mpr hmem] at hid
    exact absurd hid (by decide)
  simp only [negatives, List.mem_cons, List.not_mem_nil, or_false, forall_eq_or_imp,
    forall_eq] at hne
  -- of all functions, those for client messages are left
  obtain ⟨h1, h2, h3, h4, -, -, -, h11, -⟩ := hne
  simp only [Dispatcher.findMsgFunction, SystemMsgHandler.registMsg,
    PlayerLoginHandler.registMsgHandler, List.cons_append, List.nil_append, List.lookup_cons,
    List.lookup_nil, beq_eq_false_iff_ne.mpr h1, beq_eq_false_iff_ne.mpr h2, beq_eq_false_iff_ne.mpr h3,
    beq_eq_false_iff_ne.mpr h4, beq_eq_false_iff_ne.mpr h11] at hfind
  split at hfind
  · obtain rfl := Option.some.inj hfind
    obtain ⟨roleid, -, rfl⟩ := Option.map_eq_some_iff.mp hparse
    trivial
  · split at hfind
    · obtain rfl := Option.some.inj hfind
      obtain ⟨u, -, rfl⟩ := Option.map_eq_some_iff.mp hparse
      trivial
    · simp at hfind

/-! ## Sending -/

/-- `s'` differs from `s` by queued messages that meet `P`, and in the table of online
    players. -/
structure Sends (P : Post → Prop) (s s' : ClientPort) : Prop where
  peers : s'.peers = s.peers
  tasks : s'.tasks = s.tasks
  invoked : s'.invoked = s.invoked
  sent : s'.sent = s.sent
  posted : ∀ p ∈ s'.posted, p ∈ s.posted ∨ P p

variable {P : Post → Prop} {s s' s'' : ClientPort}

/-- Nothing is sent. -/
theorem Sends.refl (s : ClientPort) : Sends P s s :=
  { peers := rfl, tasks := rfl, invoked := rfl, sent := rfl, posted := fun _ => Or.inl }

/-- Of two functions, one after the other. -/
theorem Sends.trans (h : Sends P s s') (h' : Sends P s' s'') : Sends P s s'' where
  peers := h'.peers.trans h.peers
  tasks := h'.tasks.trans h.tasks
  invoked := h'.invoked.trans h.invoked
  sent := h'.sent.trans h.sent
  posted p hp := by
    rcases h'.posted p hp with hp | hp
    · exact h.posted p hp
    · exact Or.inr hp

/-- The online table is not part of what `Sends` is about. -/
theorem Sends.service (svc : PlayerOnlineService) : Sends P s { s with service := svc } :=
  { peers := rfl, tasks := rfl, invoked := rfl, sent := rfl, posted := fun _ => Or.inl }

/-- One message is sent. -/
theorem post_sends {p : Post} (h : P p) : Sends P s (s.post p) := by
  unfold post
  split
  · exact Sends.refl s
  · refine { peers := rfl, tasks := rfl, invoked := rfl, sent := rfl, posted := ?_ }
    intro q hq
    rcases List.mem_append.mp hq with hq | hq
    · exact Or.inl hq
    · rw [List.mem_singleton] at hq
      subst hq
      exact Or.inr h

/-- A raw message is sent, or none if its channel is closed. -/
theorem sendRawMsg_sends {channel : ChannelRef} {msgId : Int32} {data : List UInt8}
    {playerId : Int64} (h : P ⟨channel, msgId, .body data, playerId⟩) :
    Sends P s (s.sendRawMsg channel msgId data playerId) := by
  unfold sendRawMsg
  split
  · exact Sends.refl s
  · exact post_sends h

/-- A message is sent to a node, or to none. -/
theorem peerSendMsg_sends {serverType msgId : Int32} {msg : GatewayMsg} {playerId : Int64}
    (h : ∀ channel, P ⟨channel, msgId, .msg msg, playerId⟩) :
    Sends P s (s.peerSendMsg serverType msgId msg playerId) := by
  unfold peerSendMsg
  split
  · exact Sends.refl s
  · exact post_sends (h _)

/-- A handler of a client's message. -/
theorem invoke_sends (cfg : PortConfig) (channel : ChannelRef) (sid now : Int64) {msg : PortMsg}
    (h : msg.Outer) : Sends Post.Allowed s (s.invoke cfg channel sid now msg) := by
  cases msg with
  | LoginRequest roleid =>
    refine (Sends.service _).trans (peerSendMsg_sends fun c _ => ?_)
    exact ⟨_, rfl, Or.inl ⟨rfl, rfl⟩⟩
  | HeartBeatRequest =>
    show Sends _ s (s.onHeartBeat channel now)
    unfold onHeartBeat
    split
    · exact Sends.refl s
    · exact post_sends (Post.allowed_of_outer (show isInnerId HEART_BEAT_RESPONSE = false by decide))
  | InnerServerHandShakeReq => exact h.elim
  | InnerServerHandShakeRes => exact h.elim
  | InnerHeartBeatRequest => exact h.elim
  | InnerHeartBeatResponse => exact h.elim
  | InnerLoginResponse => exact h.elim

/-- `onClosed` may queue a disconnect request. -/
theorem onPlayerDisconnect_sends (channel : ChannelRef) :
    Sends Post.Allowed s (s.onPlayerDisconnect channel) := by
  unfold onPlayerDisconnect
  cases hremoved : (s.service.removePlayerByChannel channel).1 with
  | none => simp only [hremoved]; exact Sends.service _
  | some player =>
    simp only [hremoved]
    refine (Sends.service _).trans (peerSendMsg_sends fun c _ => ?_)
    exact ⟨_, rfl, Or.inr ⟨rfl, rfl⟩⟩

/-- A proxied packet keeps its id. -/
theorem proxyMsgToGame_sends {frame : List UInt8} (h : isInnerId (frameMsgId frame) = false) :
    Sends Post.Allowed s (s.proxyMsgToGame frame) := by
  unfold proxyMsgToGame
  -- each destination adds at most its copy of the packet
  generalize s.peers.getChannelsByType s.isClosed SRV_TYPE_GAME = channels
  induction channels generalizing s with
  | nil => exact Sends.refl s
  | cons c cs ih =>
    rw [List.foldl_cons]
    exact (sendRawMsg_sends (Post.allowed_of_outer h)).trans ih

/-! ## The invariant -/

/-- Nothing between servers has come from a client. -/
structure Isolated (peers : PeerConn) (s : ClientPort) : Prop where
  peers_eq : s.peers = peers
  tasks : ∀ t ∈ s.tasks, t.Outer
  invoked : ∀ id ∈ s.invoked, isInnerId id = false
  posted : ∀ p ∈ s.posted, p.Allowed
  sent : ∀ p ∈ s.sent, p.Allowed

variable {peers : PeerConn} {cfg : PortConfig}

/-- Sending what is allowed keeps the isolation. -/
theorem Isolated.sends (h : Isolated peers s) (hs : Sends Post.Allowed s s') :
    Isolated peers s' where
  peers_eq := hs.peers.trans h.peers_eq
  tasks := hs.tasks ▸ h.tasks
  invoked := hs.invoked ▸ h.invoked
  posted p hp := (hs.posted p hp).elim (h.posted p) id
  sent := hs.sent ▸ h.sent

/-- A packet without a negative id. -/
theorem Isolated.onMsg {channel : ChannelRef} {frame : List UInt8} (h : Isolated peers s)
    (hframe : isInnerId (frameMsgId frame) = false) :
    Isolated peers (s.onMsg cfg channel frame) := by
  unfold ClientPort.onMsg
  simp only
  split
  · exact h.sends (proxyMsgToGame_sends hframe)
  · rename_i msg hdec
    obtain ⟨body, f, hbody, hfind, hparse⟩ := decodeMsg_ok hdec
    have hid := parseHeader_msgId hbody
    refine { h with tasks := fun t ht => ?_ }
    rcases List.mem_append.mp ht with ht | ht
    · exact h.tasks t ht
    · rw [List.mem_singleton] at ht
      subst ht
      rw [hid] at hfind
      exact ⟨hid ▸ hframe, findMsgFunction_outer hframe hfind hparse⟩
  · exact h

/-- The packets of one read. -/
theorem Isolated.foldl_onMsg {channel : ChannelRef} (h : Isolated peers s)
    {packets : List (List UInt8)} (hps : ∀ p ∈ packets, isInnerId (frameMsgId p) = false) :
    Isolated peers (packets.foldl (ClientPort.onMsg cfg channel) s) := by
  induction packets generalizing s with
  | nil => exact h
  | cons p ps ih =>
    rw [List.foldl_cons]
    exact ih (h.onMsg (hps p List.mem_cons_self))
      fun q hq => hps q (List.mem_cons_of_mem p hq)

/-! ## The packets received -/

/-- Sending receives nothing. -/
@[simp] theorem post_received (p : Post) : (s.post p).received = s.received := by
  unfold post
  split <;> rfl

/-- Sending a raw message receives nothing. -/
@[simp] theorem sendRawMsg_received (channel : ChannelRef) (msgId : Int32) (data : List UInt8)
    (playerId : Int64) : (s.sendRawMsg channel msgId data playerId).received = s.received := by
  unfold sendRawMsg
  split
  · rfl
  · exact post_received _

/-- Sending to a node receives nothing. -/
@[simp] theorem peerSendMsg_received (serverType msgId : Int32) (msg : GatewayMsg)
    (playerId : Int64) : (s.peerSendMsg serverType msgId msg playerId).received = s.received := by
  unfold peerSendMsg
  split
  · rfl
  · exact post_received _

/-- `onMsg` keeps the packets that were received. -/
theorem onMsg_received (channel : ChannelRef) (frame : List UInt8) :
    (s.onMsg cfg channel frame).received = s.received := by
  unfold ClientPort.onMsg
  simp only
  split
  · unfold proxyMsgToGame
    generalize s.peers.getChannelsByType s.isClosed SRV_TYPE_GAME = channels
    clear * -
    induction channels generalizing s with
    | nil => rfl
    | cons c cs ih => rw [List.foldl_cons, ih, sendRawMsg_received]
  · rfl
  · rfl

/-- Handling packets adds none. -/
theorem foldl_onMsg_received (channel : ChannelRef) (packets : List (List UInt8)) :
    (packets.foldl (ClientPort.onMsg cfg channel) s).received = s.received := by
  induction packets generalizing s with
  | nil => rfl
  | cons p ps ih => rw [List.foldl_cons, ih, onMsg_received]

/-- No handler adds a packet, whatever its message. -/
theorem invoke_received (channel : ChannelRef) (sid now : Int64) (msg : PortMsg) :
    (s.invoke cfg channel sid now msg).received = s.received := by
  cases msg with
  | InnerServerHandShakeReq req => exact post_received _
  | InnerServerHandShakeRes service_id => rfl
  | InnerHeartBeatRequest => exact post_received _
  | InnerHeartBeatResponse => rfl
  | InnerLoginResponse res =>
    show (s.onInnerLoginRes now res).received = _
    unfold onInnerLoginRes
    split
    · rfl
    · exact post_received _
  | LoginRequest roleid => exact peerSendMsg_received _ _ _ _
  | HeartBeatRequest =>
    show (s.onHeartBeat channel now).received = _
    unfold onHeartBeat
    split
    · rfl
    · exact post_received _

/-- A disconnect receives nothing. -/
theorem onPlayerDisconnect_received (channel : ChannelRef) :
    (s.onPlayerDisconnect channel).received = s.received := by
  unfold onPlayerDisconnect
  simp only
  split
  · rfl
  · exact peerSendMsg_received _ _ _ _

/-- The packets a step hands to `onMsg`. -/
def packetsOf (cfg : PortConfig) (s : ClientPort) : PortAct → List (List UInt8)
  | .read channel bytes closing maxLen =>
    ((s.channels channel).readEvent cfg.realloc closing bytes maxLen).packets
  | _ => []

/-- A step adds its packets. -/
theorem step_received {a : PortAct} (h : step cfg s a = some s') :
    s'.received = s.received ++ s.packetsOf cfg a := by
  cases a with
  | read channel bytes closing maxLen =>
    -- only `read` receives, and what it receives are the frames that it cuts
    simp only [step, Option.ite_none_right_eq_some, Option.some.injEq] at h
    rw [← h.2]
    exact foldl_onMsg_received _ _
  | runTask i sid now =>
    simp only [step] at h
    split at h
    · exact absurd h (by simp)
    · rw [← Option.some.inj h]
      exact (invoke_received _ _ _ _).trans (List.append_nil _).symm
  | write i packBuf raced ret =>
    simp only [step] at h
    split at h
    · exact absurd h (by simp)
    · rw [← Option.some.inj h]
      exact (List.append_nil _).symm
  | writeDone channel status ret =>
    simp only [step] at h
    split at h
    · exact absurd h (by simp)
    · rw [← Option.some.inj h]
      exact (List.append_nil _).symm
  | close channel =>
    rw [← Option.some.inj h]
    exact (List.append_nil _).symm
  | closeInLoop channel =>
    simp only [step, Option.ite_none_right_eq_some, Option.some.injEq] at h
    rw [← h.2]
    exact (onPlayerDisconnect_received _).trans (List.append_nil _).symm
  | onHandleClosed channel =>
    simp only [step, Option.ite_none_right_eq_some, Option.some.injEq] at h
    rw [← h.2]
    exact (List.append_nil _).symm

/-! ## Steps and runs -/

/-- One step whose packets carry no negative id. -/
theorem step_isolated {a : PortAct} (h : Isolated peers s)
    (hps : ∀ p ∈ s.packetsOf cfg a, isInnerId (frameMsgId p) = false)
    (hstep : step cfg s a = some s') : Isolated peers s' := by
  cases a with
  | read channel bytes closing maxLen =>
    simp only [step, Option.ite_none_right_eq_some, Option.some.injEq] at hstep
    rw [← hstep.2]
    -- what is read goes into the buffer of the channel, and no list changes
    refine Isolated.foldl_onMsg ?_ hps
    exact ⟨h.peers_eq, h.tasks, h.invoked, h.posted, h.sent⟩
  | runTask i sid now =>
    simp only [step] at hstep
    split at hstep
    · exact absurd hstep (by simp)
    · rename_i t ht
      rw [← Option.some.inj hstep]
      -- the task was posted by an outer frame
      have houter := h.tasks t (List.mem_of_getElem? ht)
      refine Isolated.sends ?_ (invoke_sends cfg t.channel sid now houter.2)
      refine { h with tasks := fun u hu => h.tasks u (List.mem_of_mem_eraseIdx hu), invoked := ?_ }
      intro id hid
      rcases List.mem_append.mp hid with hid | hid
      · exact h.invoked id hid
      · rw [List.mem_singleton.mp hid]
        exact houter.1
  | write i packBuf raced ret =>
    simp only [step] at hstep
    split at hstep
    · exact absurd hstep (by simp)
    · rename_i p hp
      rw [← Option.some.inj hstep]
      refine { h with posted := fun q hq => h.posted q (List.mem_of_mem_eraseIdx hq), sent := ?_ }
      -- what is written was posted before
      intro q hq
      unfold ClientPort.write at hq
      simp only at hq
      split at hq
      · rcases List.mem_append.mp hq with hq | hq
        · exact h.sent q hq
        · rw [List.mem_singleton.mp hq]
          exact h.posted p (List.mem_of_getElem? hp)
      · exact h.sent q hq
  | writeDone channel status ret =>
    simp only [step] at hstep
    split at hstep
    · exact absurd hstep (by simp)
    · rw [← Option.some.inj hstep]
      exact ⟨h.peers_eq, h.tasks, h.invoked, h.posted, h.sent⟩
  | close channel =>
    rw [← Option.some.inj hstep]
    exact ⟨h.peers_eq, h.tasks, h.invoked, h.posted, h.sent⟩
  | closeInLoop channel =>
    simp only [step, Option.ite_none_right_eq_some, Option.some.injEq] at hstep
    rw [← hstep.2]
    refine Isolated.sends ?_ (onPlayerDisconnect_sends channel)
    exact ⟨h.peers_eq, h.tasks, h.invoked, h.posted, h.sent⟩
  | onHandleClosed channel =>
    simp only [step, Option.ite_none_right_eq_some, Option.some.injEq] at hstep
    rw [← hstep.2]
    exact ⟨h.peers_eq, h.tasks, h.invoked, h.posted, h.sent⟩

/-- Nothing has happened on the client port yet.  The registry, the channels and the
    table of players may be anything. -/
structure Fresh (s : ClientPort) : Prop where
  tasks : s.tasks = []
  posted : s.posted = []
  invoked : s.invoked = []
  sent : s.sent = []
  received : s.received = []

/-- It holds before anything has happened. -/
theorem Fresh.isolated (h : Fresh s) : Isolated s.peers s where
  peers_eq := rfl
  tasks := by simp [h.tasks]
  invoked := by simp [h.invoked]
  posted := by simp [h.posted]
  sent := by simp [h.sent]

/-- Without a negative `InnerProtoCode` id in a client's packet, the registry stays as
    it was, no handler of such an id runs, and the only messages with such an id are
    the gateway's own requests. -/
theorem client_port_isolation (cfg : PortConfig) (s s' : ClientPort) (acts : List PortAct)
    (hfresh : s.Fresh) (hrun : Run.run (step cfg) s acts = some s')
    (hids : ∀ p ∈ s'.received, isInnerId (frameMsgId p) = false) :
    s'.peers = s.peers ∧ (∀ id ∈ s'.invoked, isInnerId id = false) ∧
      ∀ p ∈ s'.sent, isInnerId p.msgId = true → p.Own := by
  -- what has been received so far carries no negative id either
  have hinv : (∀ p ∈ s'.received, isInnerId (frameMsgId p) = false) → Isolated s.peers s' := by
    refine Run.invariant (P := fun t => (∀ p ∈ t.received, isInnerId (frameMsgId p) = false) →
      Isolated s.peers t) ?_ (fun _ => hfresh.isolated) hrun
    intro t a t' ih hstep hrecv
    rw [step_received hstep] at hrecv
    exact step_isolated (ih fun p hp => hrecv p (List.mem_append_left _ hp))
      (fun p hp => hrecv p (List.mem_append_right _ hp)) hstep
  exact ⟨(hinv hids).peers_eq, (hinv hids).invoked, (hinv hids).sent⟩

/-! ## One client and one game node -/

/-- A message that serializes to the given bytes. -/
def messageOf (bytes : List UInt8) : Message where
  byteSizeLong := bytes.length
  serialize := some bytes
  length_serialize := by
    intro b hb
    rw [← Option.some.inj hb]

/-- Protobuf on `LoginRequest` with a small `roleId`, and on `InnerLoginRequest` with two
    small fields. -/
def smallProto : Protobuf where
  parseHandShakeReq _ := none
  parseHandShakeRes _ := none
  parseInnerHeartBeatRequest _ := none
  parseInnerHeartBeatResponse _ := none
  parseInnerLoginResponse _ := none
  parseLoginRequest
    | [0x10, roleid] => if roleid < 0x80 then some roleid.toUInt64.toInt64 else none
    | _ => none
  parseHeartBeatRequest _ := none
  serialize
    | .InnerLoginRequest req =>
      messageOf [0x08, req.sid.toUInt64.toUInt8, 0x10, req.roleid.toUInt64.toUInt8]
    | _ => messageOf []

/-- A gateway with this protobuf, whose buffers can always be grown. -/
def smallConfig : PortConfig where
  proto := smallProto
  realloc _ := true
  mySelf := { service_id := "gate-1", service_name := "gateway", type := 2 }

/-- Channel 0 is a client's; channel 1 links to the one game node. -/
def oneGame : ClientPort where
  peers := (PeerConn.init.saveNode
    { service_id := "game-1", service_name := "game", type := SRV_TYPE_GAME }).saveNodeChannel
      true "game-1" 1
  service := .init
  channels c := Channel.new zeroed (UInt32.ofNat c) 64 64 (if c = 0 then .CLIENT else .INNER)
  writes _ := []
  live _ := true
  onClosed _ := false
  tasks := []
  posted := []
  invoked := []
  sent := []
  received := []

/-- Nothing has happened there yet. -/
theorem oneGame_fresh : oneGame.Fresh :=
  { tasks := rfl, posted := rfl, invoked := rfl, sent := rfl, received := rfl }

/-- The client sends `LOGIN_REQUEST` for role 7. -/
def loginActs : List PortAct :=
  [.read 0 [0, 0, 0, 10, 0, 0, 0, 10, 0x41, 0x54, 0x48, 0x41, 0x10, 7] (fun _ => false) 8192,
    .runTask 0 100 0, .write 0 true false 0]

/-- What is sent and received on this run. -/
theorem loginActs_run : (Run.run (step smallConfig) oneGame loginActs).map
    (fun s => (s.sent, s.received)) =
      some ([⟨1, INNER_TO_GAME_LOGIN_REQ, .msg (.InnerLoginRequest ⟨100, 7⟩), 7⟩],
        [[0, 0, 0, 10, 0, 0, 0, 10, 0x41, 0x54, 0x48, 0x41, 0x10, 7]]) := by
  decide +kernel

/-- A login puts `INNER_TO_GAME_LOGIN_REQ` on the link to the game node. -/
theorem login_reaches_game :
    ∃ s, Run.run (step smallConfig) oneGame loginActs = some s ∧
      ∃ p ∈ s.sent, p.channel ∈ oneGame.peers.getChannelsByType (fun _ => false) SRV_TYPE_GAME ∧
        isInnerId p.msgId = true := by
  obtain ⟨s, hrun, hs⟩ := Option.map_eq_some_iff.mp loginActs_run
  refine ⟨s, hrun, ?_⟩
  rw [(Prod.mk.inj hs).1]
  exact ⟨_, List.mem_singleton_self _, by decide⟩

/-- The login leaves the registry alone, and its request is the gateway's own. -/
theorem client_port_isolation_login :
    ∃ s, Run.run (step smallConfig) oneGame loginActs = some s ∧ s.sent ≠ [] ∧
      s.peers = oneGame.peers ∧ (∀ id ∈ s.invoked, isInnerId id = false) ∧
        ∀ p ∈ s.sent, isInnerId p.msgId = true → p.Own := by
  obtain ⟨s, hrun, hs⟩ := Option.map_eq_some_iff.mp loginActs_run
  obtain ⟨hsent, hreceived⟩ := Prod.mk.inj hs
  refine ⟨s, hrun, by simp [hsent], ?_⟩
  exact client_port_isolation smallConfig oneGame s loginActs oneGame_fresh hrun
    (by rw [hreceived]; decide)

end ClientPort

end Athena
