import Athena.ForStd.Run
import Athena.Native.PeerLinks

/-!
# What the registry of peers lists

`on_closed` takes a channel out of the registry of peers, but a handshake handler that
has looked the channel up before puts it in again when it comes to run: the loop's
registry answers for a closing channel until both close callbacks have run.  Nothing
takes the channel out a second time.

`PeerConn::sendMsg` looks at the first channel of the first node of a type only, while
`getChannelsByType` goes through all of them and leaves the closed ones out.

## Key results

- `PeerLinks.closed_not_listed`: no closed channel is listed in a run without such a
  late handler
- `PeerLinks.stale_run`: a closed channel that is listed is listed for ever
- `PeerConn.sendMsg_agrees_iff`: when the typed send agrees with the live channels
-/

namespace Athena

/-! ## The channels of a node, after each operation -/

namespace PeerConn

/-- `node_id_nodes` lists every node under its own service id. -/
def Listed (s : PeerConn) : Prop :=
  ∀ node n, s.nodes[node]? = some n → s.node_id_nodes n.nodeInfo.service_id = some node

/-- The channels of a node that exists. -/
theorem channelsOf_of_some {s : PeerConn} {node : NodeRef} {n : NodeChannelInfo}
    (h : s.nodes[node]? = some n) : s.channelsOf node = n.channels := by
  rw [channelsOf, h]
  rfl

/-- A node that does not exist has no channels. -/
theorem channelsOf_of_none {s : PeerConn} {node : NodeRef} (h : s.nodes[node]? = none) :
    s.channelsOf node = [] := by
  rw [channelsOf, h]
  rfl

/-- A new node has no channels. -/
theorem channelsOf_saveNode (s : PeerConn) (nodeInfo : NodeInfo) (node : NodeRef) :
    (s.saveNode nodeInfo).channelsOf node = s.channelsOf node := by
  rw [saveNode]
  cases s.node_id_nodes nodeInfo.service_id with
  | some _ => rfl
  | none =>
    simp only [channelsOf]
    by_cases hlt : node < s.nodes.length
    · rw [List.getElem?_append_left hlt]
    · have hnone : s.nodes[node]? = none := List.getElem?_eq_none (Nat.le_of_not_lt hlt)
      rw [List.getElem?_append_right (Nat.le_of_not_lt hlt), hnone]
      cases node - s.nodes.length <;> rfl

/-- A channel is added to the node of the service id, and to no other. -/
theorem mem_addNodeChannel {s : PeerConn} {serviceId : String} {channel c : ChannelRef}
    {node : NodeRef} (h : c ∈ (s.addNodeChannel serviceId channel).channelsOf node) :
    c ∈ s.channelsOf node ∨ c = channel ∧ s.node_id_nodes serviceId = some node := by
  rw [addNodeChannel] at h
  cases hnode : s.node_id_nodes serviceId with
  | none => rw [hnode] at h; exact .inl h
  | some target =>
    simp only [hnode] at h
    split at h
    · exact .inl h
    · cases hn : s.nodes[node]? with
      | none =>
        rw [channelsOf_of_none (by simp [List.getElem?_modify, hn])] at h
        exact absurd h List.not_mem_nil
      | some n =>
        rw [channelsOf_of_some hn]
        by_cases heq : target = node
        · rw [channelsOf_of_some (n := { n with channels := n.channels ++ [channel] })
            (by simp [hn, heq])] at h
          cases List.mem_append.mp h with
          | inl hold => exact .inl hold
          | inr hnew => exact .inr ⟨List.mem_singleton.mp hnew, by rw [heq]⟩
        · rw [channelsOf_of_some (n := n) (by simp [hn, heq])] at h
          exact .inl h

/-- Adding a channel takes none away. -/
theorem mem_addNodeChannel_of_mem {s : PeerConn} {serviceId : String} {channel c : ChannelRef}
    {node : NodeRef} (h : c ∈ s.channelsOf node) :
    c ∈ (s.addNodeChannel serviceId channel).channelsOf node := by
  rw [addNodeChannel]
  cases s.node_id_nodes serviceId with
  | none => exact h
  | some target =>
    simp only
    split
    · exact h
    · cases hn : s.nodes[node]? with
      | none => rw [channelsOf_of_none hn] at h; exact absurd h List.not_mem_nil
      | some n =>
        rw [channelsOf_of_some hn] at h
        simp only [channelsOf, List.getElem?_modify, hn]
        by_cases heq : target = node
        · simp [heq, h]
        · simp [heq, h]

/-- Taking a channel out leaves all others. -/
theorem mem_removeNodeChannel_iff {s : PeerConn} (hs : s.Listed) {channel c : ChannelRef}
    {node : NodeRef} :
    c ∈ (s.removeNodeChannel channel).channelsOf node ↔ c ∈ s.channelsOf node ∧ c ≠ channel := by
  simp only [removeNodeChannel, channelsOf, List.getElem?_mapIdx]
  cases hn : s.nodes[node]? with
  | none => simp
  | some n => simp [hs node n hn]

/-- There are no nodes yet. -/
theorem Listed.init : Listed .init := by
  intro node n hn
  exact nomatch hn

/-- A new node comes under its own id. -/
theorem Listed.saveNode {s : PeerConn} (h : s.Listed) (nodeInfo : NodeInfo) :
    (s.saveNode nodeInfo).Listed := by
  intro node n hn
  rw [PeerConn.saveNode] at hn ⊢
  cases hid : s.node_id_nodes nodeInfo.service_id with
  | some _ => rw [hid] at hn; exact h node n hn
  | none =>
    simp only [hid] at hn ⊢
    by_cases hlt : node < s.nodes.length
    · rw [List.getElem?_append_left hlt] at hn
      have hown := h node n hn
      have hne : n.nodeInfo.service_id ≠ nodeInfo.service_id := by
        intro heq
        rw [heq, hid] at hown
        exact nomatch hown
      rw [Function.update_of_ne hne]
      exact hown
    · -- the new node
      rw [List.getElem?_append_right (Nat.le_of_not_lt hlt)] at hn
      have hzero : node - s.nodes.length = 0 := by
        by_contra hpos
        obtain ⟨k, hk⟩ := Nat.exists_eq_succ_of_ne_zero hpos
        rw [hk] at hn
        exact nomatch hn
      rw [hzero] at hn
      obtain rfl := Option.some.inj hn
      have hnode : node = s.nodes.length :=
        Nat.le_antisymm (Nat.sub_eq_zero_iff_le.mp hzero) (Nat.le_of_not_lt hlt)
      rw [Function.update_self, hnode]

/-- A channel changes no ids. -/
theorem Listed.addNodeChannel {s : PeerConn} (h : s.Listed) (serviceId : String)
    (channel : ChannelRef) : (s.addNodeChannel serviceId channel).Listed := by
  intro node n hn
  rw [PeerConn.addNodeChannel] at hn ⊢
  cases hid : s.node_id_nodes serviceId with
  | none => rw [hid] at hn; exact h node n hn
  | some target =>
    simp only [hid] at hn ⊢
    split at hn
    · rename_i hmem
      rw [if_pos hmem]
      exact h node n hn
    · rename_i hmem
      rw [if_neg hmem]
      simp only [List.getElem?_modify] at hn
      obtain ⟨n', hn', rfl⟩ := Option.map_eq_some_iff.mp hn
      have hown := h node n' hn'
      show s.node_id_nodes _ = some node
      split <;> exact hown

/-- Taking a channel out changes no ids. -/
theorem Listed.removeNodeChannel {s : PeerConn} (h : s.Listed) (channel : ChannelRef) :
    (s.removeNodeChannel channel).Listed := by
  intro node n hn
  simp only [PeerConn.removeNodeChannel, List.getElem?_mapIdx] at hn
  obtain ⟨n', hn', rfl⟩ := Option.map_eq_some_iff.mp hn
  have hown := h node n' hn'
  show s.node_id_nodes _ = some node
  split <;> exact hown

end PeerConn

/-! ## Closed channels -/

namespace PeerLinks

/-- The condition on a step: a handler that is about to add a channel to a known node
    does not come after `on_closed` of the channel. -/
def late (s : PeerLinks) : PeerAct → Bool
  | .actor actor =>
    match s.running actor with
    | some (.addNodeChannel service_id, channel) =>
      s.closed channel && (s.peers.node_id_nodes service_id).isSome
    | _ => false
  | _ => false

/-- No closed channel is listed. -/
structure Inv (s : PeerLinks) : Prop where
  listed : s.peers.Listed
  clean : ∀ c, s.closed c = true → ∀ node, c ∉ s.peers.channelsOf node

/-- No channel is closed yet. -/
theorem inv_init : Inv init where
  listed := .init
  clean _ h := nomatch h

/-- What an action does to the registry of peers. -/
inductive PeersStep (s : PeerLinks) (a : PeerAct) (s' : PeerLinks) : Prop where
  | same (hpeers : s'.peers = s.peers) (hclosed : s'.closed = s.closed)
  | saved (nodeInfo : NodeInfo) (hpeers : s'.peers = s.peers.saveNode nodeInfo)
      (hclosed : s'.closed = s.closed)
  | added (actor : Nat) (service_id : String) (channel : ChannelRef) (ha : a = .actor actor)
      (hrunning : s.running actor = some (.addNodeChannel service_id, channel))
      (hpeers : s'.peers = s.peers.addNodeChannel service_id channel)
      (hclosed : s'.closed = s.closed)
  | removed (channel : ChannelRef) (hopen : s.closed channel = false)
      (hpeers : s'.peers = s.peers.removeNodeChannel channel)
      (hclosed : s'.closed = Function.update s.closed channel true)

/-- An action changes the registry in one of these ways. -/
theorem peersStep {s s' : PeerLinks} {a : PeerAct} (h : step s a = some s') :
    PeersStep s a s' := by
  cases a with
  | connect channel =>
    simp only [step] at h
    split at h
    · exact nomatch h
    · obtain rfl := Option.some.inj h
      exact .same rfl rfl
  | read channel actor msg =>
    simp only [step] at h
    split at h
    · obtain rfl := Option.some.inj h
      exact .same rfl rfl
    · exact nomatch h
  | onClosed channel =>
    simp only [step] at h
    split at h
    · rename_i hcond
      -- a channel that closes is removed from the table once
      rw [Bool.and_eq_true, Bool.not_eq_true'] at hcond
      obtain rfl := Option.some.inj h
      exact .removed channel hcond.2 rfl rfl
    · exact nomatch h
  | releaseChannel channel =>
    simp only [step] at h
    split at h
    · obtain rfl := Option.some.inj h
      exact .same rfl rfl
    · exact nomatch h
  | actor actor =>
    simp only [step, runActor] at h
    split at h
    · split at h
      · exact nomatch h
      · obtain rfl := Option.some.inj h
        exact .same rfl rfl
    -- a handshake is handled: saved, then added
    · obtain rfl := Option.some.inj h
      exact .saved _ rfl rfl
    · split at h
      · obtain rfl := Option.some.inj h
        exact .same rfl rfl
      · obtain rfl := Option.some.inj h
        exact .same rfl rfl
    · rename_i service_id channel hrunning
      obtain rfl := Option.some.inj h
      exact .added actor service_id channel rfl hrunning rfl rfl

/-- Every action keeps the ids. -/
theorem listed_step (s : PeerLinks) (a : PeerAct) (s' : PeerLinks) (h : s.peers.Listed)
    (hstep : step s a = some s') : s'.peers.Listed := by
  cases peersStep hstep with
  | same hpeers => exact hpeers ▸ h
  | saved nodeInfo hpeers => exact hpeers ▸ h.saveNode nodeInfo
  | added actor service_id channel _ _ hpeers => exact hpeers ▸ h.addNodeChannel service_id channel
  | removed channel _ hpeers => exact hpeers ▸ h.removeNodeChannel channel

/-- One step that is not late keeps the invariant. -/
theorem inv_step (s : PeerLinks) (a : PeerAct) (s' : PeerLinks) (h : Inv s)
    (hok : s.late a = false) (hstep : step s a = some s') : Inv s' := by
  refine ⟨listed_step s a s' h.listed hstep, ?_⟩
  intro c hc node hmem
  cases peersStep hstep with
  | same hpeers hclosed =>
    rw [hclosed] at hc
    rw [hpeers] at hmem
    exact h.clean c hc node hmem
  | saved nodeInfo hpeers hclosed =>
    rw [hclosed] at hc
    rw [hpeers, PeerConn.channelsOf_saveNode] at hmem
    exact h.clean c hc node hmem
  | added actor service_id channel ha hrunning hpeers hclosed =>
    rw [hclosed] at hc
    rw [hpeers] at hmem
    cases PeerConn.mem_addNodeChannel hmem with
    | inl hold => exact h.clean c hc node hold
    | inr hnew =>
      -- the handler would be late
      obtain ⟨rfl, hnode⟩ := hnew
      simp [late, ha, hrunning, hc, hnode] at hok
  | removed channel hopen hpeers hclosed =>
    rw [hpeers] at hmem
    obtain ⟨hmem, hne⟩ := (PeerConn.mem_removeNodeChannel_iff h.listed).mp hmem
    -- any other channel was closed before
    rw [hclosed, Function.update_of_ne hne] at hc
    exact h.clean c hc node hmem

/-- The registry names no closed channel.  Any number of links, actors and handshake
    messages run in any interleaving in which no handler adds a channel to a known node
    after `on_closed` of the channel: once `on_closed` has run for a channel, no node
    lists it, also while handshake tasks still hold it. -/
theorem closed_not_listed {acts : List PeerAct} {s : PeerLinks}
    (hrun : Run.run step init acts = some s)
    (hok : Run.Meets step (fun s a => s.late a = false) init acts) (c : ChannelRef)
    (hclosed : s.closed c = true) (node : NodeRef) : c ∉ s.peers.channelsOf node :=
  (Run.invariant_of_meets inv_step inv_init hok hrun).clean c hclosed node

/-- Two links of one node, of which the first is closed when its handshake is over. -/
def twoLinks : List PeerAct :=
  [.connect 1, .read 1 0 (.req ⟨"game-1", "game", SRV_TYPE_GAME⟩), .actor 0, .actor 0, .actor 0,
    .actor 0, .connect 2, .read 2 0 (.req ⟨"game-1", "game", SRV_TYPE_GAME⟩), .actor 0, .actor 0,
    .actor 0, .actor 0, .onClosed 1]

/-- The first link is taken out, and its node stays. -/
theorem closed_not_listed_twoLinks :
    ∃ s, Run.run step init twoLinks = some s ∧ 1 ∉ s.peers.channelsOf 0 := by
  have hclosed : (Run.run step init twoLinks).map (fun s => s.closed 1) = some true := by decide
  obtain ⟨s, hrun, hs⟩ := Option.map_eq_some_iff.mp hclosed
  exact ⟨s, hrun, closed_not_listed hrun (by decide) 1 hs 0⟩

/-! ## A late handler -/

/-- An actor that no action is about has nothing to do. -/
theorem idle_run {acts : List PeerAct} {s : PeerLinks} (hrun : Run.run step init acts = some s)
    {actor : Nat} (hacts : ∀ a ∈ acts, a.addressee ≠ some actor) :
    s.mailbox actor = [] ∧ s.running actor = none := by
  have hmeets : Run.Meets step (fun _ a => a.addressee ≠ some actor) init acts :=
    Run.meets_of_forall (fun a ha _ => hacts a ha) _
  refine Run.invariant_of_meets (P := fun s => s.mailbox actor = [] ∧ s.running actor = none)
    ?_ ⟨rfl, rfl⟩ hmeets hrun
  intro s a s' h hok hstep
  cases a with
  | connect channel =>
    simp only [step] at hstep
    split at hstep
    · exact nomatch hstep
    · obtain rfl := Option.some.inj hstep
      exact h
  -- the message goes to another actor
  | read channel other msg =>
    have hne : actor ≠ other := fun heq => hok (by rw [heq]; rfl)
    simp only [step] at hstep
    split at hstep
    · obtain rfl := Option.some.inj hstep
      exact ⟨(Function.update_of_ne hne _ _).trans h.1, h.2⟩
    · exact nomatch hstep
  | onClosed channel =>
    simp only [step] at hstep
    split at hstep
    · obtain rfl := Option.some.inj hstep
      exact h
    · exact nomatch hstep
  | releaseChannel channel =>
    simp only [step] at hstep
    split at hstep
    · obtain rfl := Option.some.inj hstep
      exact h
    · exact nomatch hstep
  | actor other =>
    -- the actor that runs is another one
    have hne : actor ≠ other := fun heq => hok (by rw [heq]; rfl)
    simp only [step, runActor] at hstep
    split at hstep
    · split at hstep
      · exact nomatch hstep
      · obtain rfl := Option.some.inj hstep
        exact ⟨(Function.update_of_ne hne _ _).trans h.1,
          (Function.update_of_ne hne _ _).trans h.2⟩
    · obtain rfl := Option.some.inj hstep
      exact ⟨h.1, (Function.update_of_ne hne _ _).trans h.2⟩
    · split at hstep <;>
      · obtain rfl := Option.some.inj hstep
        exact ⟨h.1, (Function.update_of_ne hne _ _).trans h.2⟩
    · obtain rfl := Option.some.inj hstep
      exact ⟨h.1, (Function.update_of_ne hne _ _).trans h.2⟩

/-- A request is queued, the link closes, and the request is handled before
    `releaseChannel`. -/
def lateHandshake : List PeerAct :=
  [.connect 1, .read 1 0 (.req ⟨"game-1", "game", SRV_TYPE_GAME⟩), .onClosed 1, .actor 0,
    .actor 0, .actor 0, .actor 0, .releaseChannel 1]

/-- The node lists the closed channel, and nothing holds it. -/
theorem closed_listed :
    ¬∀ (acts : List PeerAct) (s : PeerLinks), Run.run step init acts = some s →
      ∀ c, s.closed c = true → ¬s.Holds c → ∀ node, c ∉ s.peers.channelsOf node := by
  intro hall
  -- the channel closes while its handshake waits, and the actor adds it afterwards
  have hend : (Run.run step init lateHandshake).map
      (fun s => (s.closed 1, (s.mailbox 0).isEmpty, (s.running 0).isNone, s.peers.channelsOf 0)) =
        some (true, true, true, [1]) := by decide
  obtain ⟨s, hrun, hs⟩ := Option.map_eq_some_iff.mp hend
  simp only [Prod.mk.injEq] at hs
  obtain ⟨hclosed, hbox, hpc, hlisted⟩ := hs
  -- by then nobody has anything to do
  have hidle : ∀ actor, s.mailbox actor = [] ∧ s.running actor = none := by
    intro actor
    by_cases hzero : actor = 0
    · rw [hzero]
      exact ⟨List.isEmpty_iff.mp hbox, Option.isNone_iff_eq_none.mp hpc⟩
    · apply idle_run hrun
      have haddr : ∀ a ∈ lateHandshake, a.addressee = none ∨ a.addressee = some 0 := by decide
      intro a ha heq
      cases haddr a ha with
      | inl hnone => rw [hnone] at heq; exact nomatch heq
      | inr hsome => rw [hsome] at heq; exact hzero (Option.some.inj heq).symm
  have hfree : ¬s.Holds 1 := by
    rintro ⟨actor, ⟨msg, hmsg⟩ | ⟨pc, hpc'⟩⟩
    · rw [(hidle actor).1] at hmsg
      exact absurd hmsg List.not_mem_nil
    · rw [(hidle actor).2] at hpc'
      exact nomatch hpc'
  apply hall _ s hrun 1 hclosed hfree 0
  rw [hlisted]
  exact List.mem_singleton_self 1

/-- Nothing takes a channel out of the registry once `on_closed` has run for it. -/
theorem stale_step {c : ChannelRef} {node : NodeRef} (s : PeerLinks) (a : PeerAct) (s' : PeerLinks)
    (h : s.peers.Listed ∧ s.closed c = true ∧ c ∈ s.peers.channelsOf node)
    (hstep : step s a = some s') :
    s'.peers.Listed ∧ s'.closed c = true ∧ c ∈ s'.peers.channelsOf node := by
  obtain ⟨hlisted, hc, hmem⟩ := h
  refine ⟨listed_step s a s' hlisted hstep, ?_⟩
  cases peersStep hstep with
  | same hpeers hclosed => rw [hpeers, hclosed]; exact ⟨hc, hmem⟩
  | saved nodeInfo hpeers hclosed =>
    rw [hpeers, hclosed, PeerConn.channelsOf_saveNode]
    exact ⟨hc, hmem⟩
  | added actor service_id channel ha hrunning hpeers hclosed =>
    rw [hpeers, hclosed]
    exact ⟨hc, PeerConn.mem_addNodeChannel_of_mem hmem⟩
  | removed channel hopen hpeers hclosed =>
    -- `on_closed` runs once for a channel
    have hne : c ≠ channel := by
      rintro rfl
      rw [hc] at hopen
      exact nomatch hopen
    rw [hpeers, hclosed, Function.update_of_ne hne]
    exact ⟨hc, (PeerConn.mem_removeNodeChannel_iff hlisted).mpr ⟨hmem, hne⟩⟩

/-- A closed channel that a node lists is listed for ever. -/
theorem stale_run {acts acts' : List PeerAct} {s s' : PeerLinks} {c : ChannelRef} {node : NodeRef}
    (hrun : Run.run step init acts = some s) (hclosed : s.closed c = true)
    (hmem : c ∈ s.peers.channelsOf node) (hrun' : Run.run step s acts' = some s') :
    c ∈ s'.peers.channelsOf node :=
  (Run.invariant stale_step ⟨Run.invariant listed_step .init hrun, hclosed, hmem⟩ hrun').2.2

end PeerLinks

/-! ## The typed send -/

namespace PeerConn

/-- The message goes to one of the channels that `getChannelsByType` returns, if there
    is one. -/
def SendAgrees (s : PeerConn) (isClosed : ChannelRef → Bool) (serverType : Int32) : Prop :=
  ((s.sendMsg serverType).1 = true ↔ s.getChannelsByType isClosed serverType ≠ []) ∧
    ((s.sendMsg serverType).1 = true →
      ∃ c ∈ s.getChannelsByType isClosed serverType, (s.sendMsg serverType).2 = some c)

/-- The first node of the type has an open channel in front, or it has no channels and
    the others have no open ones. -/
def FirstServes (s : PeerConn) (isClosed : ChannelRef → Bool) (serverType : Int32) : Prop :=
  match s.node_type_nodes serverType with
  | [] => True
  | node :: rest =>
    match s.channelsOf node with
    | [] => ∀ other ∈ rest, ∀ c ∈ s.channelsOf other, isClosed c = true
    | c :: _ => isClosed c = false

/-- The channels of a type are the open ones of its nodes. -/
theorem mem_getChannelsByType {s : PeerConn} {isClosed : ChannelRef → Bool} {serverType : Int32}
    {c : ChannelRef} :
    c ∈ s.getChannelsByType isClosed serverType ↔
      ∃ node ∈ s.node_type_nodes serverType, c ∈ s.channelsOf node ∧ isClosed c = false := by
  simp [getChannelsByType]

/-- Without a node of the type nothing is sent. -/
theorem sendMsg_of_no_nodes {s : PeerConn} {serverType : Int32}
    (hnodes : s.node_type_nodes serverType = []) : s.sendMsg serverType = (false, none) := by
  rw [sendMsg, hnodes]

/-- A first node without channels gets nothing. -/
theorem sendMsg_of_nil {s : PeerConn} {serverType : Int32} {node : NodeRef} {rest : List NodeRef}
    (hnodes : s.node_type_nodes serverType = node :: rest) (hch : s.channelsOf node = []) :
    s.sendMsg serverType = (false, none) := by
  rw [sendMsg, hnodes]
  simp only [hch]

/-- The first channel of the first node is taken. -/
theorem sendMsg_of_cons {s : PeerConn} {serverType : Int32} {node : NodeRef} {rest : List NodeRef}
    {c : ChannelRef} {cs : List ChannelRef} (hnodes : s.node_type_nodes serverType = node :: rest)
    (hch : s.channelsOf node = c :: cs) : s.sendMsg serverType = (true, some c) := by
  rw [sendMsg, hnodes]
  simp only [hch]

/-- The typed send agrees with the live channels of the type exactly when the first
    channel of the first node stands for them. -/
theorem sendMsg_agrees_iff (s : PeerConn) (isClosed : ChannelRef → Bool) (serverType : Int32) :
    s.SendAgrees isClosed serverType ↔ s.FirstServes isClosed serverType := by
  rw [SendAgrees, FirstServes]
  cases hnodes : s.node_type_nodes serverType with
  | nil =>
    have hnone : s.getChannelsByType isClosed serverType = [] := by
      rw [getChannelsByType, hnodes, List.flatMap_nil]
    simp [sendMsg_of_no_nodes hnodes, hnone]
  | cons node rest =>
    simp only
    cases hch : s.channelsOf node with
    | nil =>
      -- nothing is sent, which is right if no other node has an open channel
      rw [sendMsg_of_nil hnodes hch]
      have hiff : s.getChannelsByType isClosed serverType = [] ↔
          ∀ other ∈ rest, ∀ c ∈ s.channelsOf other, isClosed c = true := by
        rw [List.eq_nil_iff_forall_not_mem]
        simp only [mem_getChannelsByType, hnodes, List.mem_cons]
        constructor
        · intro hnone other hother c hc
          by_contra hopen
          exact hnone c ⟨other, .inr hother, hc, by simpa using hopen⟩
        · rintro hclosed c ⟨other, rfl | hother, hc, hopen⟩
          · rw [hch] at hc
            exact absurd hc List.not_mem_nil
          · rw [hclosed other hother c hc] at hopen
            exact nomatch hopen
      simp [hiff]
    | cons c cs =>
      rw [sendMsg_of_cons hnodes hch]
      have hiff : c ∈ s.getChannelsByType isClosed serverType ↔ isClosed c = false := by
        rw [mem_getChannelsByType]
        constructor
        · rintro ⟨-, -, -, hopen⟩
          exact hopen
        · intro hopen
          exact ⟨node, by rw [hnodes]; exact List.mem_cons_self,
            by rw [hch]; exact List.mem_cons_self, hopen⟩
      simp only [true_iff, forall_const]
      constructor
      · rintro ⟨-, c', hc', heq⟩
        obtain rfl := Option.some.inj heq
        exact hiff.mp hc'
      · intro hopen
        exact ⟨List.ne_nil_of_mem (hiff.mpr hopen), c, hiff.mpr hopen, rfl⟩

end PeerConn

namespace PeerLinks

/-- Two nodes of one type.  The link of the first closes in good order, and the node
    stays. -/
def twoNodes : List PeerAct :=
  [.connect 1, .read 1 0 (.req ⟨"game-1", "game", SRV_TYPE_GAME⟩), .actor 0, .actor 0, .actor 0,
    .actor 0, .connect 2, .read 2 0 (.req ⟨"game-2", "game", SRV_TYPE_GAME⟩), .actor 0, .actor 0,
    .actor 0, .actor 0, .onClosed 1]

/-- The second node has an open channel, and the typed send finds none. -/
theorem sendMsg_disagrees :
    ¬∀ (acts : List PeerAct) (s : PeerLinks), Run.run step init acts = some s →
      ∀ serverType, s.peers.SendAgrees s.closed serverType := by
  intro hall
  have hend : (Run.run step init twoNodes).map
      (fun s => (s.peers.sendMsg SRV_TYPE_GAME, s.peers.getChannelsByType s.closed SRV_TYPE_GAME)) =
        some ((false, none), [2]) := by decide
  obtain ⟨s, hrun, hs⟩ := Option.map_eq_some_iff.mp hend
  obtain ⟨hsend, hchannels⟩ := Prod.mk.inj hs
  have hagree := (hall _ s hrun SRV_TYPE_GAME).1
  rw [hsend, hchannels] at hagree
  simp at hagree

end PeerLinks

end Athena
