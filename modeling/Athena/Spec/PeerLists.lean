import Athena.Spec.PeerIndex

/-!
# The registry of peers as a relation

`s.Lists id c`: the node that has the service id `id` has the channel `c`.  The lemmas say
what each operation does to this relation and to the infos of the nodes, and what
`getChannelsByType` has to do with it; the references behind the two indices are gone.
-/

namespace Athena

namespace PeerConn

/-- There is a node with this service id. -/
def Known (s : PeerConn) (id : String) : Prop := (s.node_id_nodes id).isSome

/-- The node with this service id has the channel. -/
def Lists (s : PeerConn) (id : String) (c : ChannelRef) : Prop :=
  ∃ node, s.node_id_nodes id = some node ∧ c ∈ s.channelsOf node

/-- The infos of the nodes. -/
def infos (s : PeerConn) : List NodeInfo := s.nodes.map NodeChannelInfo.nodeInfo

variable {s : PeerConn} {id : String} {c : ChannelRef}

/-- A node that has a channel is there. -/
theorem Lists.known (h : s.Lists id c) : s.Known id := by
  obtain ⟨node, hnode, -⟩ := h
  rw [Known, hnode]
  rfl

/-! ## `saveNode` -/

/-- A node that is there is not saved again. -/
theorem saveNode_of_known {nodeInfo : NodeInfo} (h : s.Known nodeInfo.service_id) :
    s.saveNode nodeInfo = s := by
  obtain ⟨node, hnode⟩ := Option.isSome_iff_exists.mp h
  rw [saveNode, hnode]

/-- The node is there afterwards. -/
theorem known_saveNode_self (s : PeerConn) (nodeInfo : NodeInfo) :
    (s.saveNode nodeInfo).Known nodeInfo.service_id := by
  rw [Known, saveNode]
  cases hid : s.node_id_nodes nodeInfo.service_id with
  | some node => simp only [hid, Option.isSome_some]
  | none => simp only [Function.update_self, Option.isSome_some]

/-- The nodes that were there keep their ids. -/
theorem node_id_nodes_saveNode {nodeInfo : NodeInfo} (h : s.Known id) :
    (s.saveNode nodeInfo).node_id_nodes id = s.node_id_nodes id := by
  rw [saveNode]
  cases hid : s.node_id_nodes nodeInfo.service_id with
  | some node => rfl
  | none =>
    have hne : id ≠ nodeInfo.service_id := by
      rintro rfl
      rw [Known, hid] at h
      cases h
    exact Function.update_of_ne hne _ _

/-- No node is lost. -/
theorem Known.saveNode (h : s.Known id) (nodeInfo : NodeInfo) :
    (s.saveNode nodeInfo).Known id := by
  rw [Known, node_id_nodes_saveNode h]
  exact h

/-- A node that is new has no channels. -/
theorem lists_saveNode (nodeInfo : NodeInfo) :
    (s.saveNode nodeInfo).Lists id c ↔ s.Lists id c := by
  constructor
  · rintro ⟨node, hnode, hc⟩
    rw [channelsOf_saveNode] at hc
    refine ⟨node, ?_, hc⟩
    rw [saveNode] at hnode
    cases hid : s.node_id_nodes nodeInfo.service_id with
    | some _ => rwa [hid] at hnode
    | none =>
      simp only [hid] at hnode
      by_cases heq : id = nodeInfo.service_id
      · rw [heq, Function.update_self] at hnode
        obtain rfl := Option.some.inj hnode
        rw [channelsOf_of_none (List.getElem?_eq_none (Nat.le_refl _))] at hc
        exact absurd hc List.not_mem_nil
      · rwa [Function.update_of_ne heq] at hnode
  · intro h
    obtain ⟨node, hnode, hc⟩ := h
    exact ⟨node, (node_id_nodes_saveNode (Lists.known ⟨node, hnode, hc⟩)).trans hnode,
      by rwa [channelsOf_saveNode]⟩

/-- The infos are those from before and the new one. -/
theorem mem_infos_saveNode {nodeInfo info : NodeInfo} (h : info ∈ (s.saveNode nodeInfo).infos) :
    info ∈ s.infos ∨ info = nodeInfo := by
  by_cases hknown : s.Known nodeInfo.service_id
  · rw [saveNode_of_known hknown] at h
    exact .inl h
  · have hnone : s.node_id_nodes nodeInfo.service_id = none := by
      simpa [Known] using hknown
    rw [infos, (saveNode_new hnone).1, List.map_append] at h
    simpa [infos] using h

/-! ## `saveNodeChannel` under `mutex_` -/

/-- A channel changes no ids. -/
theorem node_id_nodes_addNodeChannel (s : PeerConn) (serviceId : String) (channel : ChannelRef) :
    (s.addNodeChannel serviceId channel).node_id_nodes = s.node_id_nodes := by
  rw [addNodeChannel]
  cases s.node_id_nodes serviceId with
  | none => rfl
  | some node =>
    simp only
    split <;> rfl

/-- A node that is there has the channel afterwards. -/
theorem mem_addNodeChannel_self {node : NodeRef} (hs : s.Indexed) {serviceId : String}
    {channel : ChannelRef} (hnode : s.node_id_nodes serviceId = some node) :
    channel ∈ (s.addNodeChannel serviceId channel).channelsOf node := by
  obtain ⟨n, hn, -⟩ := hs.own serviceId node hnode
  rw [addNodeChannel, hnode]
  simp only
  split
  · rename_i hold
    exact List.contains_iff_mem.mp hold
  · rw [channelsOf_of_some (n := { n with channels := n.channels ++ [channel] }) (by simp [hn])]
    exact List.mem_append_right _ (List.mem_singleton_self channel)

/-- The channel is added to the node with the id, if there is one. -/
theorem lists_addNodeChannel (hs : s.Indexed) {serviceId : String} {channel : ChannelRef} :
    (s.addNodeChannel serviceId channel).Lists id c ↔
      s.Lists id c ∨ c = channel ∧ id = serviceId ∧ s.Known serviceId := by
  simp only [Lists, node_id_nodes_addNodeChannel]
  constructor
  · rintro ⟨node, hnode, hc⟩
    rcases mem_addNodeChannel hc with hold | ⟨rfl, hnew⟩
    · exact .inl ⟨node, hnode, hold⟩
    · exact .inr ⟨rfl, hs.injective hnode hnew, by rw [Known, hnew]; rfl⟩
  · rintro (⟨node, hnode, hc⟩ | ⟨rfl, rfl, hknown⟩)
    · exact ⟨node, hnode, mem_addNodeChannel_of_mem hc⟩
    · obtain ⟨node, hnode⟩ := Option.isSome_iff_exists.mp hknown
      exact ⟨node, hnode, mem_addNodeChannel_self hs hnode⟩

/-- A channel changes no infos. -/
theorem infos_addNodeChannel (s : PeerConn) (serviceId : String) (channel : ChannelRef) :
    (s.addNodeChannel serviceId channel).infos = s.infos := by
  rw [addNodeChannel]
  cases s.node_id_nodes serviceId with
  | none => rfl
  | some node =>
    simp only
    split
    · rfl
    · apply List.ext_getElem?
      intro k
      simp only [infos, List.getElem?_map, List.getElem?_modify]
      cases s.nodes[k]? with
      | none => rfl
      | some n => by_cases heq : node = k <;> simp [heq]

/-! ## `removeNodeChannel` -/

/-- The channel is taken from all nodes. -/
theorem lists_removeNodeChannel (hs : s.Listed) {channel : ChannelRef} :
    (s.removeNodeChannel channel).Lists id c ↔ s.Lists id c ∧ c ≠ channel := by
  constructor
  · rintro ⟨node, hnode, hc⟩
    obtain ⟨hc, hne⟩ := (mem_removeNodeChannel_iff hs).mp hc
    exact ⟨⟨node, hnode, hc⟩, hne⟩
  · rintro ⟨⟨node, hnode, hc⟩, hne⟩
    exact ⟨node, hnode, (mem_removeNodeChannel_iff hs).mpr ⟨hc, hne⟩⟩

/-- Taking a channel out changes no infos. -/
theorem infos_removeNodeChannel (s : PeerConn) (channel : ChannelRef) :
    (s.removeNodeChannel channel).infos = s.infos := by
  apply List.ext_getElem?
  intro k
  simp only [infos, removeNodeChannel, List.getElem?_map, List.getElem?_mapIdx]
  cases s.nodes[k]? with
  | none => rfl
  | some n =>
    simp only [Option.map_some]
    split <;> rfl

/-! ## Lookups -/

/-- The channels of a type are listed by nodes of that type. -/
theorem lists_of_mem_getChannelsByType (hs : s.Indexed) {isClosed : ChannelRef → Bool}
    {type : Int32} (h : c ∈ s.getChannelsByType isClosed type) :
    ∃ info ∈ s.infos, info.type = type ∧ s.Lists info.service_id c := by
  obtain ⟨node, hnode, hc⟩ := List.mem_flatMap.mp h
  obtain ⟨id, n, hid, hn, htype⟩ := hs.only type node hnode
  obtain ⟨n', hn', rfl⟩ := hs.own id node hid
  obtain rfl : n' = n := Option.some.inj (hn'.symm.trans hn)
  exact ⟨n'.nodeInfo, List.mem_map_of_mem (List.mem_of_getElem? hn), htype, node, hid,
    (List.mem_filter.mp hc).1⟩

/-- An open channel that a node lists is one of the node's type. -/
theorem mem_getChannelsByType_of_lists (hs : s.Indexed) {isClosed : ChannelRef → Bool}
    (h : s.Lists id c) (hopen : isClosed c = false) :
    ∃ info ∈ s.infos, info.service_id = id ∧ c ∈ s.getChannelsByType isClosed info.type := by
  obtain ⟨node, hid, hc⟩ := h
  obtain ⟨n, hn, rfl⟩ := hs.own id node hid
  refine ⟨n.nodeInfo, List.mem_map_of_mem (List.mem_of_getElem? hn), rfl, ?_⟩
  have honce := hs.once n.nodeInfo.service_id node n hid hn
  apply List.mem_flatMap.mpr
  refine ⟨node, List.one_le_count_iff.mp (Nat.le_of_eq honce.symm), ?_⟩
  rw [List.mem_filter, hopen]
  exact ⟨hc, rfl⟩

/-- The channel that `sendMsg` takes is listed by a node of the type. -/
theorem lists_of_sendMsg (hs : s.Indexed) {type : Int32} (h : (s.sendMsg type).2 = some c) :
    ∃ info ∈ s.infos, info.type = type ∧ s.Lists info.service_id c := by
  rw [sendMsg] at h
  split at h
  · cases h
  · rename_i node rest htypes
    split at h
    · cases h
    · rename_i channel channels hchannels
      obtain rfl := Option.some.inj h
      have hmem : channel ∈ s.getChannelsByType (fun _ => false) type := by
        apply List.mem_flatMap.mpr
        refine ⟨node, by rw [htypes]; exact List.mem_cons_self, ?_⟩
        rw [hchannels]
        simp
      exact lists_of_mem_getChannelsByType hs hmem

/-- A channel that is found is listed. -/
theorem lists_of_getChannelByServiceId {isClosed : ChannelRef → Bool}
    (h : s.getChannelByServiceId isClosed id = some c) : s.Lists id c := by
  rw [getChannelByServiceId] at h
  cases hid : s.node_id_nodes id with
  | none =>
    rw [hid] at h
    cases h
  | some node =>
    rw [hid] at h
    exact ⟨node, hid, List.mem_reverse.mp (List.mem_of_find?_eq_some h)⟩

end PeerConn

end Athena
