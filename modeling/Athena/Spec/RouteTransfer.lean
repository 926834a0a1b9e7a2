import Mathlib.Data.List.Nodup
import Athena.Native.RouteMgr
import Athena.Spec.PeerRegistry

/-!
# Where a transfer goes

`DeliveredOnce` says what a transfer should do: a frame for one open channel of the node
that is meant, or one for each game node, and an error in the log when nothing is sent.
It does so unless the body is empty, which `sendRawMsg` drops without a word, or a transfer
to all game nodes finds a node with several open channels or a channel of several nodes:
such a transfer goes out on every channel that is listed.

## Key results

- `PeerLinks.types_run`: the nodes of a type are listed once
- `PeerLinks.seenInv_run`: a channel that a node lists is registered or closed
- `onRouteTransfer_node`, `onRouteTransfer_games`: what each stage queues
- `route_transfer_iff`: when a transfer is delivered once
-/

namespace Athena

/-! ## Reachable registries -/

namespace PeerConn

/-- Every node of a type exists and is listed once. -/
structure Types (s : PeerConn) : Prop where
  lt : ∀ t, ∀ node ∈ s.node_type_nodes t, node < s.nodes.length
  nodup : ∀ t, (s.node_type_nodes t).Nodup

/-- There are no nodes yet. -/
theorem Types.init : Types .init where
  lt _ _ h := absurd h List.not_mem_nil
  nodup _ := List.nodup_nil

/-- A node is listed under its type when it is new. -/
theorem Types.saveNode {s : PeerConn} (h : s.Types) (nodeInfo : NodeInfo) :
    (s.saveNode nodeInfo).Types := by
  rw [PeerConn.saveNode]
  cases s.node_id_nodes nodeInfo.service_id with
  | some _ => exact h
  | none =>
    have hlt : ∀ t, ∀ node ∈ s.node_type_nodes t, node < s.nodes.length + 1 := by
      intro t node hmem
      exact Nat.lt_succ_of_lt (h.lt t node hmem)
    constructor
    · intro t node hmem
      simp only [List.length_append, List.length_singleton]
      by_cases ht : t = nodeInfo.type
      · subst ht
        simp only [Function.update_self, List.mem_append, List.mem_singleton] at hmem
        cases hmem with
        | inl hold => exact hlt _ node hold
        | inr hnew => exact hnew ▸ Nat.lt_succ_self _
      · simp only [Function.update_of_ne ht] at hmem
        exact hlt t node hmem
    · intro t
      by_cases ht : t = nodeInfo.type
      · -- the new reference is larger than all before
        subst ht
        simp only [Function.update_self]
        apply List.Nodup.append (h.nodup _) (List.nodup_singleton _)
        intro node hmem hnew
        rw [List.mem_singleton] at hnew
        exact absurd (h.lt _ node hmem) (hnew ▸ Nat.lt_irrefl _)
      · simp only [Function.update_of_ne ht]
        exact h.nodup t

/-- A registry with the same lists of nodes. -/
theorem Types.of_eq {s s' : PeerConn} (h : s.Types) (htypes : s'.node_type_nodes = s.node_type_nodes)
    (hlen : s'.nodes.length = s.nodes.length) : s'.Types where
  lt t node hmem := by
    rw [htypes] at hmem
    exact hlen ▸ h.lt t node hmem
  nodup t := htypes ▸ h.nodup t

/-- A channel changes no type. -/
theorem Types.addNodeChannel {s : PeerConn} (h : s.Types) (serviceId : String)
    (channel : ChannelRef) : (s.addNodeChannel serviceId channel).Types := by
  rw [PeerConn.addNodeChannel]
  cases s.node_id_nodes serviceId with
  | none => exact h
  | some node =>
    simp only
    split
    · exact h
    · exact h.of_eq rfl (List.length_modify _ _ _)

/-- Removing a channel adds none. -/
theorem mem_of_mem_removeNodeChannel {s : PeerConn} {channel c : ChannelRef} {node : NodeRef}
    (h : c ∈ (s.removeNodeChannel channel).channelsOf node) : c ∈ s.channelsOf node := by
  simp only [removeNodeChannel, channelsOf, List.getElem?_mapIdx] at h ⊢
  cases hn : s.nodes[node]? with
  | none => rw [hn] at h; exact h
  | some n =>
    rw [hn] at h
    simp only [Option.map_some, Option.getD_some] at h ⊢
    split at h
    · exact List.mem_of_mem_filter h
    · exact h

/-- Taking a channel out changes no type. -/
theorem Types.removeNodeChannel {s : PeerConn} (h : s.Types) (channel : ChannelRef) :
    (s.removeNodeChannel channel).Types :=
  h.of_eq rfl List.length_mapIdx

end PeerConn

namespace PeerLinks

/-- Every action keeps the nodes of the types. -/
theorem types_step (s : PeerLinks) (a : PeerAct) (s' : PeerLinks) (h : s.peers.Types)
    (hstep : step s a = some s') : s'.peers.Types := by
  cases peersStep hstep with
  | same hpeers => exact hpeers ▸ h
  | saved nodeInfo hpeers => exact hpeers ▸ h.saveNode nodeInfo
  | added actor service_id channel _ _ hpeers => exact hpeers ▸ h.addNodeChannel service_id channel
  | removed channel _ hpeers => exact hpeers ▸ h.removeNodeChannel channel

/-- In every run the nodes of a type are listed once. -/
theorem types_run {acts : List PeerAct} {s : PeerLinks} (hrun : Run.run step init acts = some s) :
    s.peers.Types :=
  Run.invariant types_step .init hrun

/-- The channel has been connected. -/
def Seen (s : PeerLinks) (c : ChannelRef) : Prop := s.registered c = true ∨ s.closed c = true

/-- An actor that goes on with `pc` holds what it held, or the channel of `pc`. -/
theorem holds_goto {s : PeerLinks} {actor : Nat} {pc : Option (HandshakePc × ChannelRef)}
    {c : ChannelRef} (h : (s.goto actor pc).Holds c) : s.Holds c ∨ ∃ p, pc = some (p, c) := by
  obtain ⟨b, hmail | ⟨p, hp⟩⟩ := h
  · exact .inl ⟨b, .inl hmail⟩
  · simp only [goto] at hp
    by_cases heq : b = actor
    · rw [heq, Function.update_self] at hp
      exact .inr ⟨p, hp⟩
    · rw [Function.update_of_ne heq] at hp
      exact .inl ⟨b, .inr ⟨p, hp⟩⟩

/-- A channel that is held was held before or has just been read from. -/
theorem holds_step {s s' : PeerLinks} {a : PeerAct} (hstep : step s a = some s') {c : ChannelRef}
    (hc : s'.Holds c) : s.Holds c ∨ s.registered c = true := by
  cases a with
  | connect channel =>
    simp only [step] at hstep
    split at hstep
    · exact absurd hstep (by simp)
    · obtain rfl := Option.some.inj hstep
      exact .inl hc
  | read channel actor msg =>
    simp only [step] at hstep
    split at hstep
    · rename_i hcond
      rw [Bool.and_eq_true] at hcond
      obtain rfl := Option.some.inj hstep
      obtain ⟨b, ⟨m, hm⟩ | hrunning⟩ := hc
      · by_cases heq : b = actor
        · subst heq
          simp only [Function.update_self, List.mem_append, List.mem_singleton] at hm
          cases hm with
          | inl hold => exact .inl ⟨b, .inl ⟨m, hold⟩⟩
          | inr hnew => exact .inr ((Prod.mk.inj hnew).2 ▸ hcond.1)
        · simp only [Function.update_of_ne heq] at hm
          exact .inl ⟨b, .inl ⟨m, hm⟩⟩
      · exact .inl ⟨b, .inr hrunning⟩
    · exact absurd hstep (by simp)
  | onClosed channel =>
    simp only [step] at hstep
    split at hstep
    · obtain rfl := Option.some.inj hstep
      exact .inl hc
    · exact absurd hstep (by simp)
  | releaseChannel channel =>
    simp only [step] at hstep
    split at hstep
    · obtain rfl := Option.some.inj hstep
      exact .inl hc
    · exact absurd hstep (by simp)
  | actor actor =>
    left
    simp only [step, runActor] at hstep
    split at hstep
    · split at hstep
      · exact absurd hstep (by simp)
      · -- the actor takes the first message of its mailbox
        rename_i msg channel rest hmail
        obtain rfl := Option.some.inj hstep
        cases holds_goto hc with
        | inl hold =>
          obtain ⟨b, ⟨m, hm⟩ | hrunning⟩ := hold
          · by_cases heq : b = actor
            · subst heq
              simp only [Function.update_self] at hm
              exact ⟨b, .inl ⟨m, hmail ▸ List.mem_cons_of_mem _ hm⟩⟩
            · simp only [Function.update_of_ne heq] at hm
              exact ⟨b, .inl ⟨m, hm⟩⟩
          · exact ⟨b, .inr hrunning⟩
        | inr hnew =>
          obtain ⟨p, hp⟩ := hnew
          obtain rfl := (Prod.mk.inj (Option.some.inj hp)).2
          exact ⟨actor, .inl ⟨msg, hmail ▸ List.mem_cons_self⟩⟩
    · rename_i nodeInfo channel hrunning
      obtain rfl := Option.some.inj hstep
      cases holds_goto hc with
      | inl hold => exact hold
      | inr hnew =>
        obtain ⟨p, hp⟩ := hnew
        exact ⟨actor, .inr ⟨_, (Prod.mk.inj (Option.some.inj hp)).2 ▸ hrunning⟩⟩
    · rename_i service_id channel hrunning
      split at hstep
      · obtain rfl := Option.some.inj hstep
        cases holds_goto hc with
        | inl hold => exact hold
        | inr hnew => exact absurd hnew (by simp)
      · obtain rfl := Option.some.inj hstep
        cases holds_goto hc with
        | inl hold => exact hold
        | inr hnew =>
          obtain ⟨p, hp⟩ := hnew
          exact ⟨actor, .inr ⟨_, (Prod.mk.inj (Option.some.inj hp)).2 ▸ hrunning⟩⟩
    · obtain rfl := Option.some.inj hstep
      cases holds_goto hc with
      | inl hold => exact hold
      | inr hnew => exact absurd hnew (by simp)

/-- A channel that has been connected stays so. -/
theorem Seen.step {s s' : PeerLinks} {a : PeerAct} {c : ChannelRef} (h : s.Seen c)
    (hstep : PeerLinks.step s a = some s') : s'.Seen c := by
  cases a with
  | connect channel =>
    simp only [PeerLinks.step] at hstep
    split at hstep
    · exact absurd hstep (by simp)
    · obtain rfl := Option.some.inj hstep
      refine h.imp (fun hreg => ?_) id
      by_cases heq : c = channel
      · subst heq
        exact Function.update_self _ _ _
      · exact (Function.update_of_ne heq _ _).trans hreg
  | read channel actor msg =>
    simp only [PeerLinks.step] at hstep
    split at hstep
    · exact Option.some.inj hstep ▸ h
    · exact absurd hstep (by simp)
  | onClosed channel =>
    simp only [PeerLinks.step] at hstep
    split at hstep
    · obtain rfl := Option.some.inj hstep
      refine h.imp id fun hcl => ?_
      by_cases heq : c = channel
      · subst heq
        exact Function.update_self _ _ _
      · exact (Function.update_of_ne heq _ _).trans hcl
    · exact absurd hstep (by simp)
  | releaseChannel channel =>
    simp only [PeerLinks.step] at hstep
    split at hstep
    · rename_i hcond
      rw [Bool.and_eq_true] at hcond
      obtain rfl := Option.some.inj hstep
      by_cases heq : c = channel
      · -- only a closed channel is released
        exact .inr (heq ▸ hcond.2)
      · exact h.imp (fun hreg => (Function.update_of_ne heq _ _).trans hreg) id
    · exact absurd hstep (by simp)
  | actor actor =>
    have hsame : s'.registered = s.registered ∧ s'.closed = s.closed := by
      simp only [PeerLinks.step, runActor] at hstep
      split at hstep
      · split at hstep
        · exact absurd hstep (by simp)
        · obtain rfl := Option.some.inj hstep
          exact ⟨rfl, rfl⟩
      · obtain rfl := Option.some.inj hstep
        exact ⟨rfl, rfl⟩
      · split at hstep <;>
        · obtain rfl := Option.some.inj hstep
          exact ⟨rfl, rfl⟩
      · obtain rfl := Option.some.inj hstep
        exact ⟨rfl, rfl⟩
    rw [Seen, hsame.1, hsame.2]
    exact h

/-- Nothing but connected channels is queued, handled or listed. -/
structure SeenInv (s : PeerLinks) : Prop where
  held : ∀ c, s.Holds c → s.Seen c
  listed : ∀ node, ∀ c ∈ s.peers.channelsOf node, s.Seen c

/-- Nothing is held or listed yet. -/
theorem seenInv_init : SeenInv init where
  held _ h := by
    obtain ⟨_, ⟨_, hmem⟩ | ⟨_, hrunning⟩⟩ := h
    · exact absurd hmem List.not_mem_nil
    · exact absurd hrunning (by simp [init])
  listed _ _ h := absurd h List.not_mem_nil

/-- Every action keeps this. -/
theorem seenInv_step (s : PeerLinks) (a : PeerAct) (s' : PeerLinks) (h : s.SeenInv)
    (hstep : step s a = some s') : s'.SeenInv := by
  refine ⟨fun c hc => ?_, fun node c hc => ?_⟩
  · cases holds_step hstep hc with
    | inl hold => exact (h.held c hold).step hstep
    | inr hreg => exact Seen.step (.inl hreg) hstep
  -- what is listed now was listed before, or a handler held it
  · have hold : c ∈ s.peers.channelsOf node ∨ s.Holds c := by
      cases peersStep hstep with
      | same hpeers => exact .inl (hpeers ▸ hc)
      | saved nodeInfo hpeers =>
        rw [hpeers, PeerConn.channelsOf_saveNode] at hc
        exact .inl hc
      | added actor service_id channel ha hrunning hpeers =>
        rw [hpeers] at hc
        refine (PeerConn.mem_addNodeChannel hc).imp id fun hnew => ?_
        exact ⟨actor, .inr ⟨_, hnew.1 ▸ hrunning⟩⟩
      | removed channel _ hpeers =>
        rw [hpeers] at hc
        exact .inl (PeerConn.mem_of_mem_removeNodeChannel hc)
    cases hold with
    | inl hmem => exact (h.listed node c hmem).step hstep
    | inr hheld => exact (h.held c hheld).step hstep

/-- In every run what is listed has been connected. -/
theorem seenInv_run {acts : List PeerAct} {s : PeerLinks} (hrun : Run.run step init acts = some s) :
    s.SeenInv :=
  Run.invariant seenInv_step seenInv_init hrun

end PeerLinks

/-! ## What is queued -/

/-- The task for one channel. -/
def InnerRouteTransfer.post (msg : InnerRouteTransfer) (channel : ChannelRef) : RawPost :=
  { channel := channel, msgId := msg.inner_msg_id, body := msg.body, playerId := msg.player_id }

namespace RouteMgr

/-- The open channels of a node. -/
def openChannels (s : RouteMgr) (node : NodeRef) : List ChannelRef :=
  (s.peers.channelsOf node).filter fun c => !s.isClosed c

/-- The node that is meant: the one the transfer names, else the one of the route table. -/
def destNode (s : RouteMgr) (msg : InnerRouteTransfer) : Option NodeRef :=
  let dest := if msg.dest_service_id = "" then s.findPlayerServiceId msg.player_id
    else msg.dest_service_id
  if dest = "" then none else s.peers.node_id_nodes dest

/-- The open channels of the node that is meant. -/
def destChannels (s : RouteMgr) (msg : InnerRouteTransfer) : List ChannelRef :=
  ((s.destNode msg).map s.openChannels).getD []

/-- The game nodes. -/
def games (s : RouteMgr) : List NodeRef := s.peers.node_type_nodes SRV_TYPE_GAME

/-- The open channels that are listed are in the registries of their loops. -/
def OpenLive (s : RouteMgr) : Prop := ∀ node, ∀ c ∈ s.openChannels node, s.live c = true

variable {s : RouteMgr} {msg : InnerRouteTransfer}

/-- An open channel of a node is listed there and not closed. -/
theorem mem_openChannels {node : NodeRef} {c : ChannelRef} :
    c ∈ s.openChannels node ↔ c ∈ s.peers.channelsOf node ∧ s.isClosed c = false := by
  rw [openChannels, List.mem_filter, Bool.not_eq_true']

/-- One copy for an open channel, unless the body is empty. -/
theorem sendRawMsg_open {c : ChannelRef} (hlive : s.live c = true) (hopen : s.isClosed c = false) :
    s.sendRawMsg c msg.inner_msg_id msg.body (toCInt msg.body.length) msg.player_id =
      if msg.body = [] then s else { s with posted := s.posted ++ [msg.post c] } := by
  rw [sendRawMsg, toCInt_eq msg.body_lt]
  by_cases hnil : msg.body = []
  · simp [hnil]
  · have hpos := List.length_pos_iff.mpr hnil
    rw [if_neg (by omega), if_neg hnil, if_neg (by simp [hlive, hopen])]
    simp [InnerRouteTransfer.post]

/-- A service without an open channel. -/
theorem forwardToService_nil {serviceId : String}
    (h : ((s.peers.node_id_nodes serviceId).map s.openChannels).getD [] = []) :
    s.forwardToService serviceId msg = (false, s) := by
  have hnone : s.peers.getChannelByServiceId s.isClosed serviceId = none := by
    rw [PeerConn.getChannelByServiceId]
    cases hnode : s.peers.node_id_nodes serviceId with
    | none => rfl
    | some node =>
      rw [hnode] at h
      simp only [List.find?_eq_none, List.mem_reverse]
      intro c hc hopen
      have hmem : c ∈ s.openChannels node := List.mem_filter.mpr ⟨hc, hopen⟩
      rw [show s.openChannels node = [] from h] at hmem
      exact absurd hmem List.not_mem_nil
  rw [forwardToService, hnone]

/-- A service with an open channel: one of them gets the copy. -/
theorem forwardToService_open (hs : s.OpenLive) (msg : InnerRouteTransfer) {serviceId : String}
    {node : NodeRef}
    (hnode : s.peers.node_id_nodes serviceId = some node) (hne : s.openChannels node ≠ []) :
    ∃ c ∈ s.openChannels node, s.forwardToService serviceId msg =
      (true, if msg.body = [] then s else { s with posted := s.posted ++ [msg.post c] }) := by
  obtain ⟨c', hc'⟩ := List.exists_mem_of_ne_nil _ hne
  have hsome : ∃ c, s.peers.getChannelByServiceId s.isClosed serviceId = some c := by
    rw [PeerConn.getChannelByServiceId, hnode]
    apply Option.isSome_iff_exists.mp
    rw [List.find?_isSome]
    exact ⟨c', List.mem_reverse.mpr (List.mem_of_mem_filter hc'), (List.mem_filter.mp hc').2⟩
  obtain ⟨c, hc⟩ := hsome
  have hmem : c ∈ s.openChannels node := by
    rw [PeerConn.getChannelByServiceId, hnode] at hc
    have hfound : (s.peers.channelsOf node).reverse.find? (fun c => !s.isClosed c) = some c := hc
    have hopen : (!s.isClosed c) = true := List.find?_some (p := fun c => !s.isClosed c) hfound
    exact List.mem_filter.mpr ⟨List.mem_reverse.mp (List.mem_of_find?_eq_some hfound), hopen⟩
  refine ⟨c, hmem, ?_⟩
  rw [forwardToService, hc]
  simp only [sendRawMsg_open (hs node c hmem) (mem_openChannels.mp hmem).2]

/-- A copy for each of several open channels. -/
theorem foldl_sendRawMsg {channels : List ChannelRef}
    (hch : ∀ c ∈ channels, s.live c = true ∧ s.isClosed c = false) :
    channels.foldl
        (fun s c => s.sendRawMsg c msg.inner_msg_id msg.body (toCInt msg.body.length)
          msg.player_id) s =
      if msg.body = [] then s else { s with posted := s.posted ++ channels.map msg.post } := by
  induction channels generalizing s with
  | nil => simp
  | cons c cs ih =>
    obtain ⟨hlive, hopen⟩ := hch c List.mem_cons_self
    rw [List.foldl_cons, sendRawMsg_open hlive hopen]
    by_cases hnil : msg.body = []
    · rw [if_pos hnil, ih fun d hd => hch d (List.mem_cons_of_mem c hd), if_pos hnil, if_pos hnil]
    · rw [if_neg hnil, if_neg hnil, ih, if_neg hnil]
      · simp
      · exact fun d hd => hch d (List.mem_cons_of_mem c hd)

/-- The node that is meant has an open channel. -/
theorem onRouteTransfer_node (hs : s.OpenLive) {node : NodeRef} (hnode : s.destNode msg = some node)
    (hne : s.openChannels node ≠ []) :
    ∃ c ∈ s.openChannels node, s.onRouteTransfer msg =
      if msg.body = [] then s else { s with posted := s.posted ++ [msg.post c] } := by
  by_cases hempty : msg.dest_service_id = ""
  · -- the node of the route table
    by_cases hdest : s.findPlayerServiceId msg.player_id = ""
    · simp [destNode, hempty, hdest] at hnode
    · simp only [destNode, hempty, if_true, if_neg hdest] at hnode
      obtain ⟨c, hc, hforward⟩ := forwardToService_open hs msg hnode hne
      exact ⟨c, hc, by simp [onRouteTransfer, hempty, hdest, hforward]⟩
  · simp only [destNode, if_neg hempty] at hnode
    obtain ⟨c, hc, hforward⟩ := forwardToService_open hs msg hnode hne
    exact ⟨c, hc, by simp [onRouteTransfer, hempty, hforward]⟩

/-- The transfer names a node, and it has no open channel. -/
theorem onRouteTransfer_named (hnamed : msg.dest_service_id ≠ "")
    (hnil : s.destChannels msg = []) : s.onRouteTransfer msg = s.ERR_LOG := by
  have hforward : s.forwardToService msg.dest_service_id msg = (false, s) := by
    apply forwardToService_nil
    simpa [destChannels, destNode, hnamed] using hnil
  simp [onRouteTransfer, hnamed, hforward]

/-- The transfer names no node, and the route table none with an open channel. -/
theorem onRouteTransfer_games (hs : s.OpenLive) (hempty : msg.dest_service_id = "")
    (hnil : s.destChannels msg = []) :
    s.onRouteTransfer msg =
      if s.games.flatMap s.openChannels = [] then s.ERR_LOG
      else if msg.body = [] then s
      else { s with posted := s.posted ++ (s.games.flatMap s.openChannels).map msg.post } := by
  have hroute : (if !(s.findPlayerServiceId msg.player_id).isEmpty then
      s.forwardToService (s.findPlayerServiceId msg.player_id) msg else (false, s)) = (false, s) := by
    by_cases hdest : s.findPlayerServiceId msg.player_id = ""
    · simp [hdest]
    · rw [if_pos (by simp [hdest])]
      apply forwardToService_nil
      simpa [destChannels, destNode, hempty, hdest] using hnil
  have hlist : s.peers.getChannelsByType s.isClosed SRV_TYPE_GAME =
      s.games.flatMap s.openChannels := rfl
  have hlive : ∀ c ∈ s.games.flatMap s.openChannels, s.live c = true ∧ s.isClosed c = false := by
    intro c hc
    obtain ⟨node, -, hmem⟩ := List.mem_flatMap.mp hc
    exact ⟨hs node c hmem, (mem_openChannels.mp hmem).2⟩
  have hstr : "".isEmpty = true := rfl
  rw [onRouteTransfer, hempty]
  simp only [hstr, Bool.not_true, Bool.false_eq_true, if_false, hroute, hlist,
    List.isEmpty_iff, foldl_sendRawMsg hlive]

/-! ## Exactly once -/

/-- The tasks queued between `s` and `s'`. -/
def queued (s s' : RouteMgr) : List RawPost := s'.posted.drop s.posted.length

/-- What becomes of a transfer between `s` and `s'`. -/
structure DeliveredOnce (s : RouteMgr) (msg : InnerRouteTransfer) (s' : RouteMgr) : Prop where
  /-- the node that is meant has an open channel: one of them gets the only copy -/
  node : ∀ node, s.destNode msg = some node → s.openChannels node ≠ [] →
    ∃ c ∈ s.openChannels node, s.queued s' = [msg.post c]
  /-- no node is named, and the one of the route table is gone: every game node with an
      open channel gets one copy on one of them -/
  games : msg.dest_service_id = "" → s.destChannels msg = [] →
    ∀ node ∈ s.games, s.openChannels node ≠ [] → ∃ c ∈ s.openChannels node,
      (s.queued s').filter (fun p => p.channel ∈ s.peers.channelsOf node) = [msg.post c]
  /-- nothing is sent without an error -/
  logged : s.queued s' = [] → s.errors < s'.errors

/-- What a transfer needs to be delivered once. -/
structure Deliverable (s : RouteMgr) (msg : InnerRouteTransfer) : Prop where
  /-- an empty body has nowhere to go -/
  body : msg.body = [] → s.destChannels msg = [] ∧
    (msg.dest_service_id = "" → ∀ node ∈ s.games, s.openChannels node = [])
  /-- if it goes to all game nodes, each of them has at most one open channel, which it
      does not share -/
  games : msg.dest_service_id = "" → s.destChannels msg = [] → ∀ node ∈ s.games,
    (s.openChannels node).length ≤ 1 ∧
      ∀ other ∈ s.games, other ≠ node → ∀ c ∈ s.openChannels other, c ∉ s.openChannels node

/-- Of the elements of the lists `f`, one belongs to the list of `n`, which is not empty. -/
theorem length_filter_flatMap {α β : Type} [DecidableEq α] [DecidableEq β] {f : α → List β}
    {ns : List α} (hnodup : ns.Nodup) {n : α} (hn : n ∈ ns) (hne : f n ≠ []) :
    ((ns.flatMap f).filter (· ∈ f n)).length = 1 ↔
      (f n).length ≤ 1 ∧ ∀ m ∈ ns, m ≠ n → ∀ c ∈ f m, c ∉ f n := by
  have hperm : (ns.flatMap f).Perm (f n ++ (ns.erase n).flatMap f) :=
    (List.perm_cons_erase hn).flatMap_right f
  have hown : (f n).filter (· ∈ f n) = f n := List.filter_eq_self.mpr fun c hc => decide_eq_true hc
  have hpos := List.length_pos_iff.mpr hne
  rw [(hperm.filter _).length_eq, List.filter_append, List.length_append, hown]
  have hrest : (((ns.erase n).flatMap f).filter (· ∈ f n)).length = 0 ↔
      ∀ m ∈ ns, m ≠ n → ∀ c ∈ f m, c ∉ f n := by
    rw [List.length_eq_zero_iff, List.filter_eq_nil_iff]
    constructor
    · intro hall m hm hmn c hc hin
      exact hall c (List.mem_flatMap.mpr ⟨m, hnodup.mem_erase_iff.mpr ⟨hmn, hm⟩, hc⟩)
        (decide_eq_true hin)
    · intro hall c hc hin
      obtain ⟨m, hm, hcm⟩ := List.mem_flatMap.mp hc
      obtain ⟨hmn, hm⟩ := hnodup.mem_erase_iff.mp hm
      exact hall m hm hmn c hcm (of_decide_eq_true hin)
  rw [← hrest]
  omega

/-- One game node: it gets one copy if it has one open channel that it does not share. -/
theorem games_iff (hnodup : s.games.Nodup) {node : NodeRef} (hnode : node ∈ s.games)
    (hne : s.openChannels node ≠ []) :
    (∃ c ∈ s.openChannels node, ((s.games.flatMap s.openChannels).map msg.post).filter
        (fun p => p.channel ∈ s.peers.channelsOf node) = [msg.post c]) ↔
      (s.openChannels node).length ≤ 1 ∧
        ∀ other ∈ s.games, other ≠ node → ∀ c ∈ s.openChannels other, c ∉ s.openChannels node := by
  -- the copies are for open channels only
  have hfilter : ((s.games.flatMap s.openChannels).map msg.post).filter
      (fun p => p.channel ∈ s.peers.channelsOf node) =
      ((s.games.flatMap s.openChannels).filter (· ∈ s.openChannels node)).map msg.post := by
    rw [List.filter_map]
    congr 1
    apply List.filter_congr
    intro c hc
    obtain ⟨m, -, hcm⟩ := List.mem_flatMap.mp hc
    have hopen := (mem_openChannels.mp hcm).2
    apply decide_eq_decide.mpr
    rw [mem_openChannels]
    exact ⟨fun h => ⟨h, hopen⟩, And.left⟩
  rw [hfilter, ← length_filter_flatMap hnodup hnode hne]
  constructor
  · rintro ⟨c, -, heq⟩
    simpa using congrArg List.length heq
  · intro hone
    obtain ⟨c, hc⟩ := List.length_eq_one_iff.mp hone
    have hmem : c ∈ (s.games.flatMap s.openChannels).filter (· ∈ s.openChannels node) := by
      rw [hc]
      exact List.mem_singleton_self c
    refine ⟨c, of_decide_eq_true (List.mem_filter.mp hmem).2, ?_⟩
    rw [hc]
    rfl

/-- What is queued comes behind what was queued. -/
theorem queued_append (ps : List RawPost) : s.queued { s with posted := s.posted ++ ps } = ps :=
  List.drop_left

/-- Nothing has been queued. -/
theorem queued_self : s.queued s = [] := List.drop_length

/-- One transfer, on any registry that lists the nodes of a type once. -/
theorem deliveredOnce_iff (hs : s.OpenLive) (hnodup : s.games.Nodup) :
    DeliveredOnce s msg (s.onRouteTransfer msg) ↔ Deliverable s msg := by
  by_cases hdest : s.destChannels msg = []
  · have hnode : ∀ node, s.destNode msg = some node → s.openChannels node = [] := by
      intro node hnode
      simpa [destChannels, hnode] using hdest
    by_cases hempty : msg.dest_service_id = ""
    · have hr := onRouteTransfer_games hs hempty hdest
      by_cases hgames : s.games.flatMap s.openChannels = []
      · -- there is nobody to send to
        rw [if_pos hgames] at hr
        have hnone : ∀ node ∈ s.games, s.openChannels node = [] := List.flatMap_eq_nil_iff.mp hgames
        constructor
        · intro _
          refine ⟨fun _ => ⟨hdest, fun _ => hnone⟩, fun _ _ node hmem => ?_⟩
          rw [hnone node hmem]
          exact ⟨Nat.zero_le 1, fun _ _ _ _ _ => List.not_mem_nil⟩
        · intro _
          rw [hr]
          exact
            { node := fun node hd hne => absurd (hnode node hd) hne
              games := fun _ _ node hmem hne => absurd (hnone node hmem) hne
              logged := fun _ => Nat.lt_succ_self _ }
      · rw [if_neg hgames] at hr
        by_cases hbody : msg.body = []
        · -- an empty body is dropped without an error
          rw [if_pos hbody] at hr
          rw [hr]
          constructor
          · intro h
            exact absurd (h.logged queued_self) (Nat.lt_irrefl _)
          · intro h
            exact absurd (List.flatMap_eq_nil_iff.mpr ((h.body hbody).2 hempty)) hgames
        · rw [if_neg hbody] at hr
          have hqueued : s.queued (s.onRouteTransfer msg) =
              (s.games.flatMap s.openChannels).map msg.post := by
            rw [hr, queued_append]
          constructor
          · intro h
            refine ⟨fun hnil => absurd hnil hbody, fun _ _ node hmem => ?_⟩
            by_cases hne : s.openChannels node = []
            · rw [hne]
              exact ⟨Nat.zero_le 1, fun _ _ _ _ _ => List.not_mem_nil⟩
            · have hone := h.games hempty hdest node hmem hne
              rw [hqueued] at hone
              exact (games_iff hnodup hmem hne).mp hone
          · intro h
            refine ⟨fun node hd hne => absurd (hnode node hd) hne, fun _ _ node hmem hne => ?_,
              fun hnil => ?_⟩
            · rw [hqueued]
              exact (games_iff hnodup hmem hne).mpr (h.games hempty hdest node hmem)
            · rw [hqueued] at hnil
              exact absurd (List.map_eq_nil_iff.mp hnil) hgames
    · -- the named node has no open channel
      rw [onRouteTransfer_named hempty hdest]
      constructor
      · intro _
        exact ⟨fun _ => ⟨hdest, fun h => absurd h hempty⟩, fun h => absurd h hempty⟩
      · intro _
        exact
          { node := fun node hd hne => absurd (hnode node hd) hne
            games := fun h => absurd h hempty
            logged := fun _ => Nat.lt_succ_self _ }
  · have hnode : ∃ node, s.destNode msg = some node ∧ s.openChannels node ≠ [] := by
      cases hd : s.destNode msg with
      | none => exact absurd (by rw [destChannels, hd]; rfl) hdest
      | some node => exact ⟨node, rfl, by simpa [destChannels, hd] using hdest⟩
    obtain ⟨node, hd, hne⟩ := hnode
    obtain ⟨c, hc, hr⟩ := onRouteTransfer_node hs hd hne
    by_cases hbody : msg.body = []
    · rw [if_pos hbody] at hr
      rw [hr]
      constructor
      · intro h
        exact absurd (h.logged queued_self) (Nat.lt_irrefl _)
      · intro h
        exact absurd (h.body hbody).1 hdest
    · rw [if_neg hbody] at hr
      have hqueued : s.queued (s.onRouteTransfer msg) = [msg.post c] := by
        rw [hr, queued_append]
      constructor
      · intro _
        exact ⟨fun hnil => absurd hnil hbody, fun _ hnil => absurd hnil hdest⟩
      · intro _
        refine ⟨fun node' hd' _ => ?_, fun _ hnil => absurd hnil hdest, fun hnil => ?_⟩
        · obtain rfl := Option.some.inj (hd.symm.trans hd')
          exact ⟨c, hc, hqueued⟩
        · rw [hqueued] at hnil
          exact absurd hnil (by simp)

/-- The router's state agrees with its links: `onClosed` comes after `close()`. -/
structure Of (links : PeerLinks) (s : RouteMgr) : Prop where
  peers : s.peers = links.peers
  live : s.live = links.registered
  closed : ∀ c, links.closed c = true → s.isClosed c = true

/-- For every registry that handshakes and closings lead to, every route table and every
    transfer: it is delivered once unless its body is empty while there is somebody to send
    it to, or it goes to all game nodes and one of them has several open channels or shares
    one with another. -/
theorem route_transfer_iff {acts : List PeerAct} {links : PeerLinks}
    (hrun : Run.run PeerLinks.step PeerLinks.init acts = some links) (s : RouteMgr)
    (hs : s.Of links) (msg : InnerRouteTransfer) :
    DeliveredOnce s msg (s.onRouteTransfer msg) ↔ Deliverable s msg := by
  apply deliveredOnce_iff
  · intro node c hc
    obtain ⟨hlisted, hopen⟩ := mem_openChannels.mp hc
    cases (PeerLinks.seenInv_run hrun).listed node c (hs.peers ▸ hlisted) with
    | inl hreg => exact hs.live ▸ hreg
    | inr hclosed =>
      rw [hs.closed c hclosed] at hopen
      exact absurd hopen (by simp)
  · rw [games, hs.peers]
    exact (PeerLinks.types_run hrun).nodup SRV_TYPE_GAME

/-! ## Two game nodes -/

/-- Two game nodes say hello, each on a link of its own. -/
def helloActs : List PeerAct :=
  [.connect 1, .read 1 0 (.req ⟨"game-1", "game", SRV_TYPE_GAME⟩), .actor 0, .actor 0, .actor 0,
    .actor 0, .connect 2, .read 2 0 (.req ⟨"game-2", "game", SRV_TYPE_GAME⟩), .actor 0, .actor 0,
    .actor 0, .actor 0]

/-- The links of a router after the two handshakes. -/
def helloLinks : PeerLinks := (Run.run PeerLinks.step .init helloActs).get (by decide)

/-- A router with an empty route table. -/
def ofLinks (links : PeerLinks) : RouteMgr where
  peers := links.peers
  player_routes_ _ := none
  isClosed := links.closed
  live := links.registered
  posted := []
  errors := 0

/-- Its state agrees with these links. -/
theorem ofLinks_of (links : PeerLinks) : (ofLinks links).Of links := ⟨rfl, rfl, fun _ h => h⟩

/-- A transfer without a destination reaches both nodes once. -/
theorem route_transfer_both :
    DeliveredOnce (ofLinks helloLinks) ⟨7, "", 1000, [5], by decide⟩
      ((ofLinks helloLinks).onRouteTransfer ⟨7, "", 1000, [5], by decide⟩) :=
  (route_transfer_iff (Option.some_get _).symm _ (ofLinks_of helloLinks) _).mpr
    { body := fun h => absurd h (by decide)
      games := fun _ _ => by decide }

/-- A transfer of an empty body to a node with an open channel is dropped without an error. -/
theorem route_transfer_silent :
    ¬∀ (acts : List PeerAct) (links : PeerLinks),
      Run.run PeerLinks.step PeerLinks.init acts = some links → ∀ s : RouteMgr, s.Of links →
        ∀ msg, DeliveredOnce s msg (s.onRouteTransfer msg) := by
  intro hall
  have h := hall helloActs helloLinks (Option.some_get _).symm _ (ofLinks_of helloLinks)
    ⟨7, "game-1", 1000, [], by decide⟩
  exact absurd (h.logged (by decide)) (by decide)

end RouteMgr

end Athena
