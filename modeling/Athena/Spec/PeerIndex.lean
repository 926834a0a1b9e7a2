import Mathlib.Data.List.Nodup
import Athena.Spec.PeerRegistry

/-!
# The two indices of the peers

`node_id_nodes` and `node_type_nodes` list the same nodes: `saveNode` puts a new node in
both, and `removeNode` takes it out of both, by the type that the node itself has.  The
nodes are never changed but for their channels, so a node stays in the list of its type.

## Key results

- `Indexed.call`: every call keeps the indices together
- `indexed_calls`: so they are after any sequence of calls
-/

namespace Athena

namespace PeerConn

/-! ## The invariant -/

/-- `node_id_nodes` has no null entry, each of its nodes is once in the list of its type
    and nothing else is in those lists, and no node has a channel twice. -/
structure Indexed (s : PeerConn) : Prop where
  own : ∀ id node, s.node_id_nodes id = some node →
    ∃ n, s.nodes[node]? = some n ∧ n.nodeInfo.service_id = id
  once : ∀ id node n, s.node_id_nodes id = some node → s.nodes[node]? = some n →
    (s.node_type_nodes n.nodeInfo.type).count node = 1
  only : ∀ type node, node ∈ s.node_type_nodes type →
    ∃ id n, s.node_id_nodes id = some node ∧ s.nodes[node]? = some n ∧ n.nodeInfo.type = type
  channels : ∀ id node, s.node_id_nodes id = some node → (s.channelsOf node).Nodup

/-- There are no nodes yet. -/
theorem Indexed.init : Indexed .init where
  own id node h := by cases h
  once id node n h := by cases h
  only type node h := absurd h List.not_mem_nil
  channels id node h := by cases h

variable {s : PeerConn}

/-- An id leads to a node. -/
theorem Indexed.lt (h : s.Indexed) {id : String} {node : NodeRef}
    (hid : s.node_id_nodes id = some node) : node < s.nodes.length := by
  obtain ⟨n, hn, -⟩ := h.own id node hid
  exact (List.getElem?_eq_some_iff.mp hn).1

/-- Two service ids have two nodes. -/
theorem Indexed.injective (h : s.Indexed) {id id' : String} {node : NodeRef}
    (hid : s.node_id_nodes id = some node) (hid' : s.node_id_nodes id' = some node) : id = id' := by
  obtain ⟨n, hn, rfl⟩ := h.own id node hid
  obtain ⟨n', hn', rfl⟩ := h.own id' node hid'
  rw [hn] at hn'
  rw [Option.some.inj hn']

/-! ## Nodes -/

/-- A new service id gets a new node. -/
theorem saveNode_new {nodeInfo : NodeInfo} (hid : s.node_id_nodes nodeInfo.service_id = none) :
    (s.saveNode nodeInfo).nodes = s.nodes ++ [{ nodeInfo := nodeInfo, channels := [] }] ∧
      (s.saveNode nodeInfo).node_id_nodes =
        Function.update s.node_id_nodes nodeInfo.service_id (some s.nodes.length) ∧
      (s.saveNode nodeInfo).node_type_nodes = Function.update s.node_type_nodes nodeInfo.type
        (s.node_type_nodes nodeInfo.type ++ [s.nodes.length]) := by
  simp [saveNode, hid]

/-- A new node is entered in both indices. -/
theorem Indexed.saveNode (h : s.Indexed) (nodeInfo : NodeInfo) : (s.saveNode nodeInfo).Indexed := by
  cases hid : s.node_id_nodes nodeInfo.service_id with
  | some _ =>
    rw [PeerConn.saveNode, hid]
    exact h
  | none =>
    have hchannels := channelsOf_saveNode s nodeInfo
    obtain ⟨hnodes, hids, htypes⟩ := saveNode_new hid
    have hnew : ∀ type, s.nodes.length ∉ s.node_type_nodes type := by
      intro type hmem
      obtain ⟨id, n, hlisted, -⟩ := h.only type _ hmem
      exact absurd (h.lt hlisted) (Nat.lt_irrefl _)
    have hold : ∀ {node : NodeRef}, node < s.nodes.length →
        (s.saveNode nodeInfo).nodes[node]? = s.nodes[node]? := by
      intro node hlt
      rw [hnodes, List.getElem?_append_left hlt]
    have hlast : (s.saveNode nodeInfo).nodes[s.nodes.length]? =
        some { nodeInfo := nodeInfo, channels := [] } := by
      rw [hnodes, List.getElem?_concat_length]
    -- a listed node is the new one or an old one
    have hlisted : ∀ {id node}, (s.saveNode nodeInfo).node_id_nodes id = some node →
        id = nodeInfo.service_id ∧ node = s.nodes.length ∨ s.node_id_nodes id = some node := by
      intro id node hnode
      rw [hids] at hnode
      by_cases heq : id = nodeInfo.service_id
      · rw [heq, Function.update_self] at hnode
        exact .inl ⟨heq, (Option.some.inj hnode).symm⟩
      · rw [Function.update_of_ne heq] at hnode
        exact .inr hnode
    refine ⟨fun id node hnode => ?_, fun id node n hnode hn => ?_, fun type node hmem => ?_,
      fun id node hnode => ?_⟩
    · rcases hlisted hnode with ⟨rfl, rfl⟩ | hnode
      · exact ⟨_, hlast, rfl⟩
      · rw [hold (h.lt hnode)]
        exact h.own id node hnode
    · rw [htypes]
      rcases hlisted hnode with ⟨rfl, rfl⟩ | hnode
      · rw [hlast] at hn
        obtain rfl := Option.some.inj hn
        rw [Function.update_self, List.count_append, List.count_eq_zero.mpr (hnew _),
          List.count_singleton_self]
      · have hlt := h.lt hnode
        rw [hold hlt] at hn
        have honce := h.once id node n hnode hn
        by_cases htype : n.nodeInfo.type = nodeInfo.type
        · rw [htype] at honce ⊢
          have hne : s.nodes.length ≠ node := Nat.ne_of_gt hlt
          rw [Function.update_self, List.count_append, honce,
            List.count_singleton, beq_eq_false_iff_ne.mpr hne]
          rfl
        · rw [Function.update_of_ne htype]
          exact honce
    · rw [htypes] at hmem
      have hcases : node ∈ s.node_type_nodes type ∨
          type = nodeInfo.type ∧ node = s.nodes.length := by
        by_cases htype : type = nodeInfo.type
        · subst htype
          rw [Function.update_self, List.mem_append, List.mem_singleton] at hmem
          exact hmem.imp_right fun heq => ⟨rfl, heq⟩
        · rw [Function.update_of_ne htype] at hmem
          exact .inl hmem
      rw [hids]
      rcases hcases with hmem | ⟨rfl, rfl⟩
      · obtain ⟨id, n, hnode, hn, htype⟩ := h.only type node hmem
        have hne : id ≠ nodeInfo.service_id := by
          rintro rfl
          rw [hid] at hnode
          cases hnode
        exact ⟨id, n, by rw [Function.update_of_ne hne, hnode], by rw [hold (h.lt hnode), hn], htype⟩
      · exact ⟨nodeInfo.service_id, _, Function.update_self _ _ _, hlast, rfl⟩
    · rw [hchannels]
      rcases hlisted hnode with ⟨rfl, rfl⟩ | hnode
      · rw [channelsOf_of_none (List.getElem?_eq_none (Nat.le_refl _))]
        exact List.nodup_nil
      · exact h.channels id node hnode

/-- A known node leaves both indices. -/
theorem removeNode_known {nodeKey : String} {target : NodeRef} {node : NodeChannelInfo}
    (hid : s.node_id_nodes nodeKey = some target) (hnode : s.nodes[target]? = some node) :
    (s.removeNode nodeKey).nodes = s.nodes ∧
      (s.removeNode nodeKey).node_id_nodes = Function.update s.node_id_nodes nodeKey none ∧
      (s.removeNode nodeKey).node_type_nodes = Function.update s.node_type_nodes node.nodeInfo.type
        ((s.node_type_nodes node.nodeInfo.type).filter (· ≠ target)) := by
  simp [removeNode, hid, hnode]

/-- A node is taken out of both indices. -/
theorem Indexed.removeNode (h : s.Indexed) (nodeKey : String) : (s.removeNode nodeKey).Indexed := by
  cases hid : s.node_id_nodes nodeKey with
  | none =>
    rw [PeerConn.removeNode, hid]
    exact h
  | some target =>
    obtain ⟨targetNode, htarget, -⟩ := h.own nodeKey target hid
    obtain ⟨hnodes, hids, htypes⟩ := removeNode_known hid htarget
    -- another id has another node
    have hlisted : ∀ {id node}, (s.removeNode nodeKey).node_id_nodes id = some node →
        s.node_id_nodes id = some node ∧ node ≠ target := by
      intro id node hnode
      rw [hids] at hnode
      by_cases heq : id = nodeKey
      · rw [heq, Function.update_self] at hnode
        cases hnode
      · rw [Function.update_of_ne heq] at hnode
        refine ⟨hnode, ?_⟩
        rintro rfl
        exact heq (h.injective hnode hid)
    refine ⟨fun id node hnode => ?_, fun id node n hnode hn => ?_, fun type node hmem => ?_,
      fun id node hnode => ?_⟩
    · rw [hnodes]
      exact h.own id node (hlisted hnode).1
    · rw [hnodes] at hn
      rw [htypes]
      obtain ⟨hnode, hne⟩ := hlisted hnode
      have honce := h.once id node n hnode hn
      by_cases htype : n.nodeInfo.type = targetNode.nodeInfo.type
      · rw [htype] at honce ⊢
        rw [Function.update_self, List.count_filter (by simpa using hne), honce]
      · rw [Function.update_of_ne htype]
        exact honce
    · rw [htypes] at hmem
      have hkept : node ∈ s.node_type_nodes type ∧ node ≠ target := by
        by_cases htype : type = targetNode.nodeInfo.type
        · subst htype
          rw [Function.update_self, List.mem_filter] at hmem
          exact ⟨hmem.1, by simpa using hmem.2⟩
        · rw [Function.update_of_ne htype] at hmem
          refine ⟨hmem, ?_⟩
          rintro rfl
          -- the node is only in the list of its type
          obtain ⟨_, n, -, hn, rfl⟩ := h.only type node hmem
          rw [htarget] at hn
          exact htype (by rw [Option.some.inj hn])
      obtain ⟨id, n, hnode, hn, htype⟩ := h.only type node hkept.1
      have hne : id ≠ nodeKey := by
        rintro rfl
        rw [hid] at hnode
        exact hkept.2 (Option.some.inj hnode).symm
      rw [hids, hnodes]
      exact ⟨id, n, by rw [Function.update_of_ne hne, hnode], hn, htype⟩
    · have hsame : (s.removeNode nodeKey).channelsOf node = s.channelsOf node := by
        rw [channelsOf, channelsOf, hnodes]
      rw [hsame]
      exact h.channels id node (hlisted hnode).1

/-! ## Channels -/

/-- The indices are about the nodes' infos; what only touches channels keeps them. -/
theorem Indexed.of_channels (h : s.Indexed) {s' : PeerConn}
    (hids : s'.node_id_nodes = s.node_id_nodes) (htypes : s'.node_type_nodes = s.node_type_nodes)
    (hinfos : ∀ node : NodeRef,
      s'.nodes[node]?.map NodeChannelInfo.nodeInfo = s.nodes[node]?.map NodeChannelInfo.nodeInfo)
    (hchannels : ∀ node, (s.channelsOf node).Nodup → (s'.channelsOf node).Nodup) : s'.Indexed := by
  -- the infos agree in both directions
  have hinfo : ∀ {node : NodeRef} {n}, s'.nodes[node]? = some n →
      ∃ n', s.nodes[node]? = some n' ∧ n'.nodeInfo = n.nodeInfo := by
    intro node n hn
    have hsame := hinfos node
    rw [hn, Option.map_some] at hsame
    exact Option.map_eq_some_iff.mp hsame.symm
  have hback : ∀ {node : NodeRef} {n'}, s.nodes[node]? = some n' →
      ∃ n, s'.nodes[node]? = some n ∧ n.nodeInfo = n'.nodeInfo := by
    intro node n' hn
    have hsame := hinfos node
    rw [hn, Option.map_some] at hsame
    exact Option.map_eq_some_iff.mp hsame
  refine ⟨fun id node hnode => ?_, fun id node n hnode hn => ?_, fun type node hmem => ?_,
    fun id node hnode => ?_⟩
  -- own, once, only and the lists of channels in turn
  · rw [hids] at hnode
    obtain ⟨n', hn', rfl⟩ := h.own id node hnode
    obtain ⟨n, hn, heq⟩ := hback hn'
    exact ⟨n, hn, by rw [heq]⟩
  · rw [hids] at hnode
    obtain ⟨n', hn', heq⟩ := hinfo hn
    rw [htypes, ← heq]
    exact h.once id node n' hnode hn'
  · rw [htypes] at hmem
    obtain ⟨id, n', hnode, hn', htype⟩ := h.only type node hmem
    obtain ⟨n, hn, heq⟩ := hback hn'
    exact ⟨id, n, by rw [hids, hnode], hn, by rw [heq, htype]⟩
  · rw [hids] at hnode
    exact hchannels node (h.channels id node hnode)

/-- A channel leaves the indices of the nodes. -/
theorem Indexed.addNodeChannel (h : s.Indexed) (serviceId : String) (channel : ChannelRef) :
    (s.addNodeChannel serviceId channel).Indexed := by
  rw [PeerConn.addNodeChannel]
  cases hid : s.node_id_nodes serviceId with
  | none => exact h
  | some node =>
    simp only
    split
    · exact h
    · next hnew =>
      apply h.of_channels
      · rfl
      · rfl
      · intro i
        rw [List.getElem?_modify, Option.map_eq_map, Option.map_map]
        congr 1
        funext n
        rw [Function.comp_apply]
        split <;> rfl
      · intro i hi
        simp only [channelsOf, List.getElem?_modify] at hi hnew ⊢
        cases hn : s.nodes[i]? with
        | none => exact List.nodup_nil
        | some n =>
          rw [hn] at hi
          by_cases heq : node = i
          · subst heq
            -- `std::find` has not found it
            simp only [hn, Option.map_some, Option.getD_some, List.contains_iff_mem, if_true] at hi hnew ⊢
            exact List.nodup_append.mpr ⟨hi, List.nodup_singleton channel, fun c hc d hd hcd => by
              rw [List.mem_singleton.mp hd] at hcd
              exact hnew (hcd ▸ hc)⟩
          · simpa [heq] using hi

/-- Taking a channel out leaves the indices of the nodes. -/
theorem Indexed.removeNodeChannel (h : s.Indexed) (channel : ChannelRef) :
    (s.removeNodeChannel channel).Indexed := by
  apply h.of_channels
  · rfl
  · rfl
  · intro i
    rw [PeerConn.removeNodeChannel, List.getElem?_mapIdx, Option.map_map]
    congr 1
    funext n
    rw [Function.comp_apply]
    split <;> rfl
  · intro i hi
    simp only [PeerConn.removeNodeChannel, channelsOf, List.getElem?_mapIdx] at hi ⊢
    cases hn : s.nodes[i]? with
    | none => exact List.nodup_nil
    | some n =>
      rw [hn, Option.map_some, Option.getD_some] at hi
      simp only [Option.map_some, Option.getD_some]
      split
      · exact hi.filter _
      · exact hi

/-- A listed node has lost the channel. -/
theorem Indexed.not_mem_channels (h : s.Indexed) (channel : ChannelRef) {id : String} {node : NodeRef}
    (hnode : (s.removeNodeChannel channel).node_id_nodes id = some node) :
    channel ∉ (s.removeNodeChannel channel).channelsOf node := by
  obtain ⟨n, hn, rfl⟩ := h.own id node hnode
  have hlisted : s.node_id_nodes n.nodeInfo.service_id = some node := hnode
  simp [PeerConn.removeNodeChannel, channelsOf, List.getElem?_mapIdx, hn, hlisted]

/-! ## Calls -/

/-- Every call keeps the indices. -/
theorem Indexed.call (h : s.Indexed) (c : Call) : (s.call c).Indexed := by
  cases c with
  | saveNode nodeInfo =>
    cases nodeInfo with
    | none => exact h
    | some nodeInfo => exact h.saveNode nodeInfo
  | removeNode nodeKey => exact h.removeNode nodeKey
  | saveNodeChannel serviceId shared =>
    cases shared with
    | none => exact h
    | some shared =>
      rw [PeerConn.call, saveNodeChannel_eq]
      split
      · exact h
      · exact h.addNodeChannel serviceId shared
  | removeNodeChannel channel =>
    cases channel with
    | none => exact h
    | some channel => exact h.removeNodeChannel channel

/-- After any sequence of calls the indices belong together, and a channel that is removed
    is listed by no node. -/
theorem indexed_calls (calls : List Call) :
    (calls.foldl call init).Indexed ∧
      ∀ channel id node, ((calls.foldl call init).removeNodeChannel channel).node_id_nodes id =
        some node → channel ∉ ((calls.foldl call init).removeNodeChannel channel).channelsOf node := by
  have hindexed : ∀ s : PeerConn, s.Indexed → (calls.foldl PeerConn.call s).Indexed := by
    induction calls with
    | nil => exact fun _ h => h
    | cons c calls ih => exact fun s h => ih (s.call c) (h.call c)
  exact ⟨hindexed init .init, fun channel id node => (hindexed init .init).not_mem_channels channel⟩

end PeerConn

end Athena
