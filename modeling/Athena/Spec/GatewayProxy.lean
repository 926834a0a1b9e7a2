import Mathlib.Data.List.Nodup
import Athena.Spec.ChannelFlags
import Athena.Spec.ClientIsolation
import Athena.Spec.HeaderCheck
import Athena.Spec.SendPath

/-!
# What the gateway passes on to the game nodes

A frame from a client whose id has no handler on the gateway is put into a frame for the
links between servers and queued for every open channel of the game nodes.  The header of
such a frame is four bytes longer than the client's, the send function for raw bytes drops
an empty body, and a channel that two nodes list is served twice.

## Key results

- `openLive_run`: an open channel is in the registry of its loop
- `proxyMsgToGame_posted`: the tasks that a frame leaves behind
- `proxy_faithful_iff`: each game channel is sent exactly one copy of the frame unless the
  body is empty or within four bytes of the limit, or the channel is listed twice
-/

namespace Athena.ClientPort

open Channel

/-! ## Open channels are registered -/

section Links

variable {s s' : ClientPort} {cfg : PortConfig}

/-- The part of the state that sending does not touch. -/
def links (s : ClientPort) : (ChannelRef → Channel) × (ChannelRef → Bool) × (ChannelRef → Bool) :=
  (s.channels, s.live, s.onClosed)

/-- Queueing a message touches no channel. -/
@[simp] theorem links_post (p : Post) : (s.post p).links = s.links := by
  unfold post
  split <;> rfl

/-- `sendRawMsg` touches no channel. -/
@[simp] theorem links_sendRawMsg (channel : ChannelRef) (msgId : Int32) (data : List UInt8)
    (playerId : Int64) : (s.sendRawMsg channel msgId data playerId).links = s.links := by
  unfold sendRawMsg
  split
  · rfl
  · exact links_post _

/-- Sending to a node touches no channel. -/
@[simp] theorem links_peerSendMsg (serverType msgId : Int32) (msg : GatewayMsg)
    (playerId : Int64) : (s.peerSendMsg serverType msgId msg playerId).links = s.links := by
  unfold peerSendMsg
  split
  · rfl
  · exact links_post _

/-- A packet touches no channel. -/
theorem links_onMsg (channel : ChannelRef) (frame : List UInt8) :
    (s.onMsg cfg channel frame).links = s.links := by
  unfold ClientPort.onMsg
  simp only
  split
  · unfold proxyMsgToGame
    generalize s.peers.getChannelsByType s.isClosed SRV_TYPE_GAME = channels
    clear * -
    induction channels generalizing s with
    | nil => rfl
    | cons c cs ih => rw [List.foldl_cons, ih, links_sendRawMsg]
  · rfl
  · rfl

/-- Any packets touch no channel. -/
theorem links_foldl_onMsg (channel : ChannelRef) (packets : List (List UInt8)) :
    (packets.foldl (ClientPort.onMsg cfg channel) s).links = s.links := by
  induction packets generalizing s with
  | nil => rfl
  | cons p ps ih => rw [List.foldl_cons, ih, links_onMsg]

/-- A handler touches no channel. -/
theorem links_invoke (channel : ChannelRef) (sid now : Int64) (msg : PortMsg) :
    (s.invoke cfg channel sid now msg).links = s.links := by
  cases msg with
  | InnerServerHandShakeReq req => exact links_post _
  | InnerServerHandShakeRes service_id => rfl
  | InnerHeartBeatRequest => exact links_post _
  | InnerHeartBeatResponse => rfl
  | InnerLoginResponse res =>
    show (s.onInnerLoginRes now res).links = _
    unfold onInnerLoginRes
    split
    · rfl
    · exact links_post _
  | LoginRequest roleid => exact links_peerSendMsg _ _ _ _
  | HeartBeatRequest =>
    show (s.onHeartBeat channel now).links = _
    unfold onHeartBeat
    split
    · rfl
    · exact links_post _

/-- A disconnect touches no channel. -/
theorem links_onPlayerDisconnect (channel : ChannelRef) :
    (s.onPlayerDisconnect channel).links = s.links := by
  unfold onPlayerDisconnect
  simp only
  split
  · rfl
  · exact links_peerSendMsg _ _ _ _

/-- A channel leaves its loop's registry only after it has been closed. -/
structure OpenLive (s : ClientPort) : Prop where
  live : ∀ c, s.isClosed c = false → s.live c = true
  closed : ∀ c, s.onClosed c = true → s.isClosed c = true

/-- With the same channels it stays true. -/
theorem OpenLive.of_links (h : s.OpenLive) (hlinks : s'.links = s.links) : s'.OpenLive := by
  simp only [links, Prod.mk.injEq] at hlinks
  obtain ⟨hch, hlive, hcl⟩ := hlinks
  constructor
  · intro c hc
    rw [isClosed, hch] at hc
    exact hlive ▸ h.live c hc
  · intro c hc
    rw [isClosed, hch]
    exact h.closed c (hcl ▸ hc)

/-- A function of one channel does not reopen it. -/
theorem OpenLive.update (h : s.OpenLive) {channel : ChannelRef} {ch : Channel}
    (hkeeps : Keeps (s.channels channel) ch)
    (hlinks : s'.links = (Function.update s.channels channel ch, s.live, s.onClosed)) :
    s'.OpenLive := by
  simp only [links, Prod.mk.injEq] at hlinks
  obtain ⟨hch, hlive, hcl⟩ := hlinks
  have hmono : ∀ c, s.isClosed c = true → s'.isClosed c = true := by
    intro c hc
    rw [isClosed, hch]
    by_cases heq : c = channel
    · rw [heq, Function.update_self]
      exact hkeeps.closed_mono (heq ▸ hc)
    · rw [Function.update_of_ne heq]
      exact hc
  constructor
  · intro c hc
    rw [hlive]
    apply h.live
    apply Bool.eq_false_iff.mpr
    intro hbad
    rw [hmono c hbad] at hc
    exact absurd hc (by simp)
  · intro c hc
    exact hmono c (h.closed c (hcl ▸ hc))

/-- Every step keeps this. -/
theorem openLive_step (s : ClientPort) (a : PortAct) (s' : ClientPort) (h : s.OpenLive)
    (hstep : step cfg s a = some s') : s'.OpenLive := by
  -- the channels keep what they are; only `closeInLoop` and the close callback end one
  cases a with
  | read channel bytes closing maxLen =>
    simp only [step, Option.ite_none_right_eq_some, Option.some.injEq] at hstep
    rw [← hstep.2]
    exact h.update (readEvent_keeps _ _ _ _ _) (links_foldl_onMsg _ _)
  | runTask i sid now =>
    simp only [step] at hstep
    split at hstep
    · exact absurd hstep (by simp)
    · rw [← Option.some.inj hstep]
      exact h.of_links (links_invoke _ _ _ _)
  | write i packBuf raced ret =>
    simp only [step] at hstep
    split at hstep
    · exact absurd hstep (by simp)
    · rename_i p _
      rw [← Option.some.inj hstep]
      have hkeeps : Keeps (s.channels p.channel)
          (runPost cfg (s.channels p.channel) p packBuf raced ret).chan := by
        rw [runPost]
        split
        · exact eventLoopWrite_keeps _ _ _ _ _ _ _
        · exact eventLoopRawWrite_keeps _ _ _ _ _ _
      exact h.update hkeeps rfl
  | writeDone channel status ret =>
    simp only [step] at hstep
    split at hstep
    · exact absurd hstep (by simp)
    · rw [← Option.some.inj hstep]
      exact h.update (onWriteDone_keeps _ _ _ _) rfl
  | close channel =>
    rw [← Option.some.inj hstep]
    exact h.update (close_keeps _) rfl
  | closeInLoop channel =>
    simp only [step, Option.ite_none_right_eq_some, Option.some.injEq] at hstep
    obtain ⟨⟨-, hclosed, -⟩, hstep⟩ := hstep
    rw [← hstep]
    apply OpenLive.of_links _ (links_onPlayerDisconnect _)
    refine ⟨h.live, fun c hc => ?_⟩
    by_cases heq : c = channel
    · exact heq ▸ hclosed
    · simp only [Function.update_of_ne heq] at hc
      exact h.closed c hc
  | onHandleClosed channel =>
    simp only [step, Option.ite_none_right_eq_some, Option.some.injEq] at hstep
    obtain ⟨hon, hstep⟩ := hstep
    rw [← hstep]
    refine ⟨fun c hc => ?_, h.closed⟩
    -- a channel is forgotten after it was closed
    have hopen : s.isClosed c = false := hc
    have hne : c ≠ channel := by
      rintro rfl
      rw [h.closed c hon] at hopen
      exact absurd hopen (by simp)
    show Function.update s.live channel false c = true
    rw [Function.update_of_ne hne]
    exact h.live c hopen

/-- In every run, an open channel is in its loop's registry. -/
theorem openLive_run {acts : List PortAct} (h : s.OpenLive)
    (hrun : Run.run (step cfg) s acts = some s') : s'.OpenLive :=
  Run.invariant openLive_step h hrun

end Links

/-! ## Forwarding -/

variable {s : ClientPort} {cfg : PortConfig}

/-- The open channels of the game nodes. -/
def gameChannels (s : ClientPort) : List ChannelRef :=
  s.peers.getChannelsByType s.isClosed SRV_TYPE_GAME

/-- The game channels are open. -/
theorem open_of_gameChannels {d : ChannelRef} (h : d ∈ s.gameChannels) : s.isClosed d = false := by
  simp only [gameChannels, PeerConn.getChannelsByType, List.mem_flatMap, List.mem_filter,
    Bool.not_eq_true'] at h
  obtain ⟨node, -, -, hopen⟩ := h
  exact hopen

/-- One task for each channel that is open and registered. -/
theorem posted_foldl_sendRawMsg {channels : List ChannelRef} {msgId : Int32} {data : List UInt8}
    {playerId : Int64} (hne : data ≠ [])
    (hch : ∀ d ∈ channels, s.live d = true ∧ s.isClosed d = false) :
    (channels.foldl (fun s d => s.sendRawMsg d msgId data playerId) s).posted =
      s.posted ++ channels.map fun d => ⟨d, msgId, .body data, playerId⟩ := by
  induction channels generalizing s with
  | nil => exact (List.append_nil _).symm
  | cons c cs ih =>
    obtain ⟨hlive, hopen⟩ := hch c List.mem_cons_self
    have hsend : s.sendRawMsg c msgId data playerId =
        { s with posted := s.posted ++ [⟨c, msgId, .body data, playerId⟩] } := by
      have hlen : ¬data.length ≤ 0 := fun hle => hne (List.length_eq_zero_iff.mp (by omega))
      simp [sendRawMsg, post, hlen, hlive, hopen]
    have htail := ih (s := s.sendRawMsg c msgId data playerId)
    rw [hsend] at htail
    rw [List.foldl_cons, hsend, htail fun d hd => hch d (List.mem_cons_of_mem c hd)]
    exact List.append_assoc _ _ _

/-- An empty body is not sent. -/
theorem foldl_sendRawMsg_nil (channels : List ChannelRef) (msgId : Int32) (playerId : Int64) :
    channels.foldl (fun s d => s.sendRawMsg d msgId [] playerId) s = s := by
  induction channels with
  | nil => rfl
  | cons c cs ih => exact ih

/-- The tasks that `proxyMsgToGame` leaves behind. -/
theorem proxyMsgToGame_posted (hs : s.OpenLive) (frame : List UInt8) :
    (s.proxyMsgToGame frame).posted = s.posted ++
      if frame.drop CLIENT_HEADER_LEN = [] then []
      else s.gameChannels.map fun d =>
        ⟨d, frameMsgId frame, .body (frame.drop CLIENT_HEADER_LEN), 0⟩ := by
  unfold proxyMsgToGame
  split
  · rename_i hnil
    rw [hnil, foldl_sendRawMsg_nil, List.append_nil]
  · rename_i hne
    apply posted_foldl_sendRawMsg hne
    intro d hd
    have hopen := open_of_gameChannels hd
    exact ⟨hs.live d hopen, hopen⟩

/-- A packet that is accepted and has no handler goes to `proxyMsgToGame`. -/
theorem onMsg_unregistered {channel : ChannelRef} {mode : ProtoMode} {packet : List UInt8} {n : Nat}
    (hmode : (s.channels channel).proto_mode = mode) (hok : Channel.Accepts mode n packet)
    (hfind : Dispatcher.findMsgFunction cfg.proto (frameMsgId packet) = none) :
    s.onMsg cfg channel packet = s.proxyMsgToGame packet := by
  obtain ⟨body, hbody⟩ := Option.ne_none_iff_exists'.mp (hok {}).1
  simp only [ClientPort.onMsg, hmode, Decoder.decodeMsg, hbody, parseHeader_msgId hbody, hfind]

/-! ## Exactly one frame -/

/-- The tasks for the loop of `d` that are queued between `s` and `s'`. -/
def queuedFor (s s' : ClientPort) (d : ChannelRef) : List Post :=
  (s'.posted.drop s.posted.length).filter fun p => p.channel = d

/-- Between `s` and `s'` the channel `d` is sent one frame, of a link between servers and
    with player id 0: one task is queued for it, and if the channel is open and has room
    when the task runs, the task puts that frame into the send ring. -/
def SentOnce (cfg : PortConfig) (s s' : ClientPort) (d : ChannelRef) (msgId : Int32)
    (body : List UInt8) : Prop :=
  ∃ p, s.queuedFor s' d = [p] ∧
    ∀ ch : Channel, ch.proto_mode = (s.channels d).proto_mode → ch.closed_ = false →
      body.length + INNER_HEADER_LEN ≤ ch.send_buff.writableBytes →
      ∀ packBuf raced ret, (runPost cfg ch p packBuf raced ret).chan.send_buff.contents =
        ch.send_buff.contents ++ frame .INNER msgId body 0

/-- What `eventLoopRawWrite` does on an open channel with room. -/
theorem eventLoopRawWrite_contents {ch : Channel} {body : List UInt8} (hopen : ch.closed_ = false)
    (hroom : body.length + INNER_HEADER_LEN ≤ ch.send_buff.writableBytes) (raced : Bool)
    (ret : Int) (msgId : Int32) (playerId : Int64) :
    (ch.eventLoopRawWrite raced ret msgId body playerId).chan.send_buff.contents =
      if body.length + headerLen ch.proto_mode ≤ MAX_PACKET_SIZE then
        ch.send_buff.contents ++ frame ch.proto_mode msgId body playerId
      else ch.send_buff.contents := by
  have hhdr : headerLen ch.proto_mode ≤ INNER_HEADER_LEN := by cases ch.proto_mode <;> decide
  simp only [eventLoopRawWrite, hopen, Bool.false_eq_true, if_false]
  by_cases hmax : body.length + headerLen ch.proto_mode ≤ MAX_PACKET_SIZE
  · rw [if_neg (by omega), if_neg (by omega), if_pos hmax]
    exact (appendAndSend_spec rfl (by omega)).2.1
  · rw [if_pos (by omega), if_neg hmax]

/-- The tasks for one channel among those of a broadcast. -/
theorem filter_map_channel (channels : List ChannelRef) (d : ChannelRef) (msgId : Int32)
    (payload : Payload) (playerId : Int64) :
    (channels.map fun c => (⟨c, msgId, payload, playerId⟩ : Post)).filter (fun p => p.channel = d) =
      List.replicate (channels.count d) ⟨d, msgId, payload, playerId⟩ := by
  induction channels with
  | nil => rfl
  | cons c cs ih =>
    rw [List.map_cons, List.filter_cons, ih]
    by_cases heq : c = d
    · simp [heq, List.replicate_succ]
    · simp [heq]

/-- A frame with a body is queued once for each time that its channel is listed. -/
theorem queuedFor_proxyMsgToGame (hs : s.OpenLive) (frame : List UInt8) (d : ChannelRef) :
    s.queuedFor (s.proxyMsgToGame frame) d =
      if frame.drop CLIENT_HEADER_LEN = [] then []
      else List.replicate (s.gameChannels.count d)
        ⟨d, frameMsgId frame, .body (frame.drop CLIENT_HEADER_LEN), 0⟩ := by
  rw [queuedFor, proxyMsgToGame_posted hs, List.drop_left]
  split
  · rfl
  · exact filter_map_channel _ _ _ _ _

/-- One game channel: it is sent exactly one copy if it is a link between servers that is
    listed once, and the frame has a body that fits into the longer frame. -/
theorem sentOnce_iff (hs : s.OpenLive) {frame : List UInt8} {d : ChannelRef}
    (hd : d ∈ s.gameChannels)
    (hroom : (frame.drop CLIENT_HEADER_LEN).length + INNER_HEADER_LEN ≤
      (s.channels d).send_buff.writableBytes) :
    SentOnce cfg s (s.proxyMsgToGame frame) d (frameMsgId frame) (frame.drop CLIENT_HEADER_LEN) ↔
      frame.drop CLIENT_HEADER_LEN ≠ [] ∧ s.gameChannels.count d = 1 ∧
        (frame.drop CLIENT_HEADER_LEN).length + INNER_HEADER_LEN ≤ MAX_PACKET_SIZE ∧
        (s.channels d).proto_mode = .INNER := by
  have hqueued := queuedFor_proxyMsgToGame hs frame d
  generalize frame.drop CLIENT_HEADER_LEN = body at *
  constructor
  · rintro ⟨p, hp, hruns⟩
    rw [hqueued] at hp
    split at hp
    · exact absurd hp (by simp)
    · rename_i hne
      have hcount : s.gameChannels.count d = 1 := by simpa using congrArg List.length hp
      rw [hcount] at hp
      obtain rfl := (List.cons.inj hp).1
      have hopen := open_of_gameChannels hd
      -- the task, run on the channel as it is
      have hrun := hruns (s.channels d) rfl hopen hroom true false 0
      rw [runPost, eventLoopRawWrite_contents hopen hroom] at hrun
      split at hrun
      · rename_i hmax
        have hframe := List.append_cancel_left hrun
        have hlen := congrArg List.length hframe
        rw [length_frame, length_frame] at hlen
        cases hmode : (s.channels d).proto_mode with
        | INNER => rw [hmode] at hmax; exact ⟨hne, hcount, hmax, rfl⟩
        | CLIENT =>
          rw [hmode] at hlen
          exact absurd (Nat.add_left_cancel hlen) (by decide)
      · have hnil := List.self_eq_append_right.mp hrun
        exact absurd hnil (frame_ne_nil _ _ _ _)
  · rintro ⟨hne, hcount, hmax, hmode⟩
    rw [if_neg hne, hcount] at hqueued
    refine ⟨_, hqueued, fun ch hch hopen hfits packBuf raced ret => ?_⟩
    rw [hmode] at hch
    rw [runPost, eventLoopRawWrite_contents hopen hfits, hch]
    exact if_pos hmax

/-- A frame of `n` bytes that the gateway takes from a client and has no handler for: every
    open channel of the game nodes that has room is sent exactly one copy, when the frame
    has a body, is four bytes shorter than the limit, and no game channel is listed twice
    or is a client's. -/
theorem proxy_faithful_iff (cfg : PortConfig) (s : ClientPort) (hs : s.OpenLive)
    (channel : ChannelRef) (hmode : (s.channels channel).proto_mode = .CLIENT)
    (rx : Channel) (hrx : rx.proto_mode = .CLIENT) (n : Nat) (hpeek : rx.peekNextPackLen = n)
    (hn : CLIENT_HEADER_LEN ≤ n)
    (hunregistered : Dispatcher.findMsgFunction cfg.proto (frameMsgId (rx.getPack n).1) = none)
    (hgame : s.gameChannels ≠ [])
    (hroom : ∀ d ∈ s.gameChannels,
      n - CLIENT_HEADER_LEN + INNER_HEADER_LEN ≤ (s.channels d).send_buff.writableBytes) :
    (∀ d ∈ s.gameChannels, SentOnce cfg s (s.onMsg cfg channel (rx.getPack n).1) d
        (frameMsgId (rx.getPack n).1) ((rx.getPack n).1.drop CLIENT_HEADER_LEN)) ↔
      CLIENT_HEADER_LEN < n ∧ n + 4 ≤ MAX_PACKET_SIZE ∧ s.gameChannels.Nodup ∧
        ∀ d ∈ s.gameChannels, (s.channels d).proto_mode = .INNER := by
  have hhdr : headerLen rx.proto_mode = CLIENT_HEADER_LEN := by rw [hrx]; rfl
  obtain ⟨hlen, -, hok⟩ := getPack_accepted hpeek (by omega)
  rw [onMsg_unregistered (hmode.trans hrx.symm) hok hunregistered]
  generalize (rx.getPack n).1 = packet at *
  have hbody : (packet.drop CLIENT_HEADER_LEN).length = n - CLIENT_HEADER_LEN := by
    rw [List.length_drop, hlen]
  have hne : packet.drop CLIENT_HEADER_LEN ≠ [] ↔ CLIENT_HEADER_LEN < n := by
    rw [← List.length_pos_iff, hbody]
    omega
  have hfits : n - CLIENT_HEADER_LEN + INNER_HEADER_LEN ≤ MAX_PACKET_SIZE ↔
      n + 4 ≤ MAX_PACKET_SIZE := by
    have h12 : CLIENT_HEADER_LEN = 12 := rfl
    have h16 : INNER_HEADER_LEN = 16 := rfl
    omega
  have heach : ∀ d ∈ s.gameChannels, SentOnce cfg s (s.proxyMsgToGame packet) d (frameMsgId packet)
      (packet.drop CLIENT_HEADER_LEN) ↔ CLIENT_HEADER_LEN < n ∧ s.gameChannels.count d = 1 ∧
        n + 4 ≤ MAX_PACKET_SIZE ∧ (s.channels d).proto_mode = .INNER := by
    intro d hd
    rw [sentOnce_iff hs hd (by rw [hbody]; exact hroom d hd), hne, hbody, hfits]
  constructor
  · intro hall
    obtain ⟨d, hd⟩ := List.exists_mem_of_ne_nil _ hgame
    obtain ⟨hlong, -, hmax, -⟩ := (heach d hd).mp (hall d hd)
    refine ⟨hlong, hmax, ?_, fun d hd => ((heach d hd).mp (hall d hd)).2.2.2⟩
    -- a channel that is listed is listed once
    apply List.nodup_iff_count_le_one.mpr
    intro c
    by_cases hc : c ∈ s.gameChannels
    · exact Nat.le_of_eq ((heach c hc).mp (hall c hc)).2.1
    · rw [List.count_eq_zero_of_not_mem hc]
      exact Nat.zero_le 1
  · rintro ⟨hlong, hmax, hnodup, hinner⟩ d hd
    exact (heach d hd).mpr
      ⟨hlong, List.count_eq_one_of_mem hnodup hd, hmax, hinner d hd⟩

/-- It holds of one client and one game node. -/
theorem oneGame_openLive : oneGame.OpenLive :=
  ⟨fun _ _ => rfl, fun _ h => absurd h Bool.false_ne_true⟩

/-- The client's channel after it has read the bytes. -/
def clientRead (bytes : List UInt8) : Channel :=
  ((Channel.new zeroed 0 24 24 .CLIENT).fill (.ring 31) bytes).onRead bytes.length

/-- A frame with the id 1000 and a body of one byte. -/
theorem proxy_faithful_byte :
    SentOnce smallConfig oneGame
      (oneGame.onMsg smallConfig 0
        ((clientRead [0, 0, 0, 9, 0, 0, 3, 232, 0x41, 0x54, 0x48, 0x41, 7]).getPack 13).1) 1 1000
      [7] :=
  (proxy_faithful_iff smallConfig oneGame oneGame_openLive 0 rfl
    (clientRead [0, 0, 0, 9, 0, 0, 3, 232, 0x41, 0x54, 0x48, 0x41, 7]) rfl 13 (by decide)
    (by decide) (by decide) (by decide) (by decide)).mpr (by decide) 1 (by decide)

/-- A frame with the id 1000 and no body is accepted, has no handler, and is sent to no
    game channel. -/
theorem proxy_empty_body :
    (clientRead [0, 0, 0, 8, 0, 0, 3, 232, 0x41, 0x54, 0x48, 0x41]).peekNextPackLen = 12 ∧
      Dispatcher.findMsgFunction smallConfig.proto 1000 = none ∧ 1 ∈ oneGame.gameChannels ∧
      ¬SentOnce smallConfig oneGame
        (oneGame.onMsg smallConfig 0
          ((clientRead [0, 0, 0, 8, 0, 0, 3, 232, 0x41, 0x54, 0x48, 0x41]).getPack 12).1) 1 1000
        [] := by
  refine ⟨by decide, rfl, by decide, ?_⟩
  rintro ⟨p, hqueued, -⟩
  have hnone : oneGame.queuedFor (oneGame.onMsg smallConfig 0
      ((clientRead [0, 0, 0, 8, 0, 0, 3, 232, 0x41, 0x54, 0x48, 0x41]).getPack 12).1) 1 = [] := by
    decide
  exact absurd (hnone.symm.trans hqueued) (by simp)

end Athena.ClientPort
