import Athena.Spec.HandshakeSteps
import Athena.Native.Cluster

/-!
# Who is at the other end

Service ids tell servers apart: they end with the address (`address_of_service_id`).  In any
run of any number of servers a channel that a registry gives for a service id or for a type
leads to the server with that id, and to one of that type (`lookups_lead_to`).

The invariant is `Cluster.Honest`: messages say who their sender is, and each server is honest
about the other ends of its channels.
-/

namespace Athena

/-! ## Service ids -/

/-- A number has no slash, -/
theorem slash_not_mem_toString_nat (k : Nat) : '/' ∉ (toString k).toList := by
  intro h
  have hdigits : '/' ∈ Nat.toDigits 10 k := by simpa [toString, Nat.repr] using h
  exact absurd (Nat.isDigit_of_mem_toDigits (b := 10) (by decide) (by decide) hdigits) (by decide)

/-- with or without a sign. -/
theorem slash_not_mem_toString (n : Int) : '/' ∉ (toString n).toList := by
  cases n with
  | ofNat k => exact slash_not_mem_toString_nat k
  | negSucc k =>
    intro h
    have hneg : '/' ∈ ("-" ++ toString (k + 1)).toList := h
    rw [String.toList_append, List.mem_append] at hneg
    rcases hneg with hsign | hdigits
    · exact absurd hsign (by decide)
    · exact slash_not_mem_toString_nat (k + 1) hdigits

/-- What follows the last `x`. -/
theorem eq_of_append_cons_eq {α : Type} [DecidableEq α] {x : α} {as bs cs ds : List α}
    (hb : x ∉ bs) (hd : x ∉ ds) (h : as ++ x :: bs = cs ++ x :: ds) : bs = ds := by
  have hlast : ∀ {as bs : List α}, x ∉ bs →
      (as ++ x :: bs).reverse.takeWhile (· ≠ x) = bs.reverse := by
    intro as bs hb
    rw [List.reverse_append, List.reverse_cons, List.append_assoc,
      List.takeWhile_append_of_pos (by simpa using fun a ha => ne_of_mem_of_not_mem ha hb)]
    simp
  have hsame := congrArg (fun l => l.reverse.takeWhile (· ≠ x)) h
  exact List.reverse_injective ((hlast hb).symm.trans (hsame.trans (hlast hd)))

namespace ServerConf

/-- An address has no slash. -/
theorem slash_not_mem_address (conf : ServerConf) : '/' ∉ conf.address.toList := by
  rw [address, String.toList_append, String.toList_append]
  simp only [List.mem_append, not_or]
  exact ⟨⟨conf.ip_plain, by decide⟩, slash_not_mem_toString _⟩

/-- A service id is the name, a slash and the address. -/
theorem toList_service_id (conf : ServerConf) :
    conf.mySelf.service_id.toList = conf.service_name.toList ++ '/' :: conf.address.toList := by
  simp [mySelf]

/-- What follows the last slash of a service id is the address. -/
theorem address_of_service_id {a b : ServerConf}
    (h : a.mySelf.service_id = b.mySelf.service_id) : a.address = b.address := by
  have htext := congrArg String.toList h
  rw [toList_service_id, toList_service_id] at htext
  exact String.toList_injective (eq_of_append_cons_eq a.slash_not_mem_address
    b.slash_not_mem_address htext)

/-- A service id is not empty. -/
theorem service_id_ne_empty (conf : ServerConf) : conf.mySelf.service_id ≠ "" := by
  intro h
  have htext := conf.toList_service_id
  rw [h] at htext
  simp at htext

end ServerConf

namespace Cluster

variable {ι : Type} {conf : ι → ServerConf} {s s' : Cluster ι}

/-! ## Honest clusters -/

variable (conf) in
/-- The other end of a channel of the server `i`. -/
def far (s : Cluster ι) (i : ι) (c : ChannelRef) : Option FarEnd :=
  (s.peer (i, c)).map fun f => ⟨(conf f.1).mySelf, s.dialed (i, c)⟩

variable (conf) in
/-- A node that a server has saved for another one, or for a value that was not a node. -/
def Genuine (info : NodeInfo) : Prop := ∃ node, info = nodeOf conf node

variable (conf) in
/-- Messages say who their sender is, and servers are honest about the other ends. -/
structure Honest (s : Cluster ι) : Prop where
  links : ∀ i, (s.links i).Honest (Genuine conf) (s.far conf i)
  wire : ∀ e msg, msg ∈ s.wire e → ∃ f, s.far conf e.1 e.2 = some f ∧ msg.Of f
  answer : ∀ i a c, s.answer (i, a) = some c → ∃ f, s.far conf i c = some f ∧ f.dialed = false
  peer : ∀ e f, s.peer e = some f → s.peer f = some e ∧ s.dialed e = !s.dialed f
  fresh : ∀ e, s.peer e = none → s.dialed e = false

/-- Servers without channels are honest. -/
theorem honest_init : Honest conf init where
  links i := PeerLinks.honest_init _
  wire e msg h := absurd h List.not_mem_nil
  answer i a c h := by cases h
  peer e f h := by cases h
  fresh e h := rfl

/-- The other end of a channel is a server. -/
theorem genuine_far {i : ι} {c : ChannelRef} {f : FarEnd} (h : s.far conf i c = some f) :
    Genuine conf f.info := by
  obtain ⟨e, -, rfl⟩ := Option.map_eq_some_iff.mp h
  exact ⟨some e.1, rfl⟩

/-- A server that is listed under a service id is the one with that id. -/
theorem Honest.peer_of_lists (h : Honest conf s) {i : ι} {id : String} {c : ChannelRef}
    (hc : (s.links i).peers.Lists id c) :
    ∃ j d, s.peer (i, c) = some (j, d) ∧ (conf j).mySelf.service_id = id := by
  obtain ⟨f, hfar, hid⟩ := (h.links i).lists id c hc
  obtain ⟨⟨j, d⟩, hpeer, rfl⟩ := Option.map_eq_some_iff.mp hfar
  exact ⟨j, d, hpeer, hid⟩

/-- What is known of a listed server is what it says of itself. -/
theorem Honest.type_of_lists (h : Honest conf s)
    (haddr : ∀ i j, (conf i).address = (conf j).address → i = j) {i : ι} {info : NodeInfo}
    (hinfo : info ∈ (s.links i).peers.infos) {c : ChannelRef}
    (hc : (s.links i).peers.Lists info.service_id c) :
    ∃ j d, s.peer (i, c) = some (j, d) ∧ (conf j).type = info.type := by
  obtain ⟨j, d, hpeer, hid⟩ := h.peer_of_lists hc
  obtain ⟨node, rfl⟩ := (h.links i).infos info hinfo
  cases node with
  | none => exact absurd hid (conf j).service_id_ne_empty
  | some k =>
    obtain rfl := haddr j k (ServerConf.address_of_service_id hid)
    exact ⟨j, d, hpeer, rfl⟩

/-! ## What a step of a server changes -/

variable [DecidableEq ι]

/-- The links of the other servers stay. -/
theorem links_setLinks (s : Cluster ι) (i k : ι) (links : PeerLinks) :
    (s.setLinks i links).links k = if k = i then links else s.links k := by
  simp only [setLinks, Function.update_apply]

/-- A message on its way changes no registry, -/
@[simp] theorem links_sendMsg (s : Cluster ι) (e : LinkEnd ι) (msg : Handshake) :
    (s.sendMsg e msg).links = s.links := by
  rw [sendMsg]
  split
  · rfl
  · split <;> rfl

/-- no connection, -/
@[simp] theorem peer_sendMsg (s : Cluster ι) (e : LinkEnd ι) (msg : Handshake) :
    (s.sendMsg e msg).peer = s.peer := by
  rw [sendMsg]
  split
  · rfl
  · split <;> rfl

/-- not who dialed, -/
@[simp] theorem dialed_sendMsg (s : Cluster ι) (e : LinkEnd ι) (msg : Handshake) :
    (s.sendMsg e msg).dialed = s.dialed := by
  rw [sendMsg]
  split
  · rfl
  · split <;> rfl

/-- and no pending answer. -/
@[simp] theorem answer_sendMsg (s : Cluster ι) (e : LinkEnd ι) (msg : Handshake) :
    (s.sendMsg e msg).answer = s.answer := by
  rw [sendMsg]
  split
  · rfl
  · split <;> rfl

/-- The other ends stay where they are. -/
@[simp] theorem far_sendMsg (s : Cluster ι) (e : LinkEnd ι) (msg : Handshake) :
    (s.sendMsg e msg).far conf = s.far conf := by
  funext i c
  rw [far, far, peer_sendMsg, dialed_sendMsg]

/-- What is on the wire was there before or is the message. -/
theorem mem_wire_sendMsg {e g : LinkEnd ι} {msg m : Handshake}
    (h : m ∈ (s.sendMsg e msg).wire g) : m ∈ s.wire g ∨ m = msg ∧ s.peer e = some g := by
  rw [sendMsg] at h
  split at h
  · exact .inl h
  · rename_i f hpeer
    split at h
    · exact .inl h
    · by_cases heq : g = f
      · subst heq
        simp only [Function.update_self] at h
        rcases List.mem_append.mp h with hold | hnew
        · exact .inl hold
        · exact .inr ⟨List.mem_singleton.mp hnew, hpeer⟩
      · exact .inl (by simpa [heq] using h)

/-- Honest links of one server keep the cluster honest. -/
theorem Honest.setLinks (h : Honest conf s) {i : ι} {links : PeerLinks}
    (hlinks : links.Honest (Genuine conf) (s.far conf i)) : Honest conf (s.setLinks i links) :=
  { h with
    links := fun k => by
      rw [links_setLinks]
      split
      · rename_i heq
        exact heq ▸ hlinks
      · exact h.links k }

/-- A server takes a step of its own. -/
theorem Honest.linkStep (h : Honest conf s) {i : ι} {a : PeerAct} {links : PeerLinks}
    (hread : ∀ c actor msg, a = .read c actor msg → ∃ f, s.far conf i c = some f ∧ msg.Of f)
    (hstep : (s.links i).step a = some links) : Honest conf (s.setLinks i links) :=
  h.setLinks ((h.links i).step (fun _ _ => genuine_far) hread hstep)

/-- A message that says who has sent it. -/
theorem Honest.sendMsg (h : Honest conf s) {e : LinkEnd ι} {msg : Handshake}
    (hmsg : ∀ f, s.peer e = some f → msg.Of ⟨(conf e.1).mySelf, s.dialed f⟩) :
    Honest conf (s.sendMsg e msg) where
  links i := by
    rw [links_sendMsg, far_sendMsg]
    exact h.links i
  wire g m hm := by
    rw [far_sendMsg]
    -- the message was there before, or its sender has sent it
    rcases mem_wire_sendMsg hm with hold | ⟨rfl, hpeer⟩
    · exact h.wire g m hold
    · exact ⟨_, by rw [far, (h.peer e g hpeer).1]; rfl, hmsg g hpeer⟩
  answer i a c hc := by
    rw [answer_sendMsg] at hc
    rw [far_sendMsg]
    exact h.answer i a c hc
  peer e f hpeer := by
    rw [peer_sendMsg] at hpeer ⊢
    rw [dialed_sendMsg]
    exact h.peer e f hpeer
  fresh e hpeer := by
    rw [peer_sendMsg] at hpeer
    rw [dialed_sendMsg]
    exact h.fresh e hpeer

/-- A new channel is registered with its loop. -/
theorem registered_connect {links links' : PeerLinks} {c : ChannelRef}
    (h : links.step (.connect c) = some links') :
    links'.registered = Function.update links.registered c true := by
  cases PeerLinks.linkStep h with
  | connect _ hnew hopen => rfl

variable (s) in
/-- A connection between two new ends. -/
def joined (e f : LinkEnd ι) : Cluster ι :=
  { s with
    peer := Function.update (Function.update s.peer e (some f)) f (some e)
    dialed := Function.update s.dialed e true }

/-- The other ends of older channels stay where they are. -/
theorem far_joined {e f : LinkEnd ι} (he : s.peer e = none) (hf : s.peer f = none) {i : ι}
    {c : ChannelRef} {x : FarEnd} (h : s.far conf i c = some x) :
    (s.joined e f).far conf i c = some x := by
  have hne : ∀ {g : LinkEnd ι}, s.peer g = none → (i, c) ≠ g := by
    rintro g hg rfl
    rw [far, hg] at h
    cases h
  simpa [far, joined, hne he, hne hf] using h

/-- A connection between two new ends keeps the cluster honest. -/
theorem Honest.joined (h : Honest conf s) {e f : LinkEnd ι} (he : s.peer e = none)
    (hf : s.peer f = none) (hne : e ≠ f) (hreg : (s.links e.1).registered e.2 = true)
    (hreg' : (s.links f.1).registered f.2 = true) : Honest conf (s.joined e f) where
  links i := by
    refine (h.links i).extend (fun c x => far_joined he hf) fun c hc => ?_
    by_cases hef : (i, c) = e ∨ (i, c) = f
    · rcases hef with rfl | rfl
      · exact .inl hreg
      · exact .inl hreg'
    · rw [not_or] at hef
      exact (h.links i).there c (by simpa [far, Cluster.joined, hef.1, hef.2] using hc)
  wire g m hm := by
    obtain ⟨x, hx, hof⟩ := h.wire g m hm
    exact ⟨x, far_joined he hf hx, hof⟩
  answer i a c hc := by
    obtain ⟨x, hx, hd⟩ := h.answer i a c hc
    exact ⟨x, far_joined he hf hx, hd⟩
  peer g k hgk := by
    simp only [Cluster.joined] at hgk ⊢
    by_cases hgf : g = f
    · subst hgf
      rw [Function.update_self] at hgk
      obtain rfl := Option.some.inj hgk
      simp [hne, Ne.symm hne, h.fresh g hf]
    · rw [Function.update_of_ne hgf] at hgk
      by_cases hge : g = e
      · subst hge
        rw [Function.update_self] at hgk
        obtain rfl := Option.some.inj hgk
        simp [Ne.symm hne, h.fresh f hf]
      · -- an old connection
        rw [Function.update_of_ne hge] at hgk
        obtain ⟨hkg, hd⟩ := h.peer g k hgk
        have hke : k ≠ e := by
          rintro rfl
          rw [he] at hkg
          cases hkg
        have hkf : k ≠ f := by
          rintro rfl
          rw [hf] at hkg
          cases hkg
        simpa [hge, hke, hkf] using ⟨hkg, hd⟩
  fresh g hg := by
    simp only [Cluster.joined] at hg ⊢
    have hgf : g ≠ f := by
      rintro rfl
      simp at hg
    have hge : g ≠ e := by
      rintro rfl
      simp [hgf] at hg
    rw [Function.update_of_ne hge]
    exact h.fresh g (by simpa [hge, hgf] using hg)

/-- A connection is made between two ends that are new; the dialing server begins its handshake. -/
theorem connect_cases {e f : LinkEnd ι} (h : s.connect conf e f = some s') :
    ∃ dialing accepting, (s.links e.1).step (.connect e.2) = some dialing ∧
      ((s.setLinks e.1 dialing).links f.1).step (.connect f.2) = some accepting ∧
      s.peer e = none ∧ s.peer f = none ∧ e ≠ f ∧
      s' = (((s.setLinks e.1 dialing).setLinks f.1 accepting).joined e f).onNewConnect conf e := by
  rw [Cluster.connect] at h
  split at h
  · rename_i hnew
    split at h
    · cases h
    · rename_i dialing hdial
      simp only at h
      split at h
      · cases h
      · rename_i accepting haccept
        exact ⟨dialing, accepting, hdial, haccept, hnew.1, hnew.2.1, hnew.2.2,
          (Option.some.inj h).symm⟩
  · cases h

/-- A connection keeps the cluster honest, as its first message says who sends it. -/
theorem Honest.connect (h : Honest conf s) {e f : LinkEnd ι}
    (hstep : s.connect conf e f = some s') : Honest conf s' := by
  obtain ⟨dialing, accepting, hdial, haccept, he, hf, hne, rfl⟩ := connect_cases hstep
  have h1 := h.linkStep (fun _ _ _ hread => by cases hread) hdial
  have h2 := h1.linkStep (fun _ _ _ hread => by cases hread) haccept
  -- both ends are registered with their loops
  have hreg' : accepting.registered f.2 = true := by
    rw [registered_connect haccept, Function.update_self]
  have hreg : (((s.setLinks e.1 dialing).setLinks f.1 accepting).links e.1).registered e.2 =
      true := by
    have hd : dialing.registered e.2 = true := by
      rw [registered_connect hdial, Function.update_self]
    rw [links_setLinks]
    split
    · rename_i heq
      rw [registered_connect haccept, links_setLinks, if_pos heq.symm,
        Function.update_apply, hd, ite_self]
    · rw [links_setLinks, if_pos rfl, hd]
  have h3 := h2.joined he hf hne hreg (by rw [links_setLinks, if_pos rfl]; exact hreg')
  apply h3.sendMsg
  intro g hg
  -- the handshake goes to the end that was connected
  have hgf : g = f := by
    have hef : (((s.setLinks e.1 dialing).setLinks f.1 accepting).joined e f).peer e =
        some f := by simp [Cluster.joined, hne]
    exact Option.some.inj (hg.symm.trans hef)
  subst hgf
  refine ⟨rfl, ?_⟩
  show Function.update s.dialed e true g = false
  rw [Function.update_of_ne (Ne.symm hne), h.fresh g hf]

variable (conf) in
/-- How the next message of an end is read. -/
inductive ReadStep (s : Cluster ι) (e : LinkEnd ι) (actor : Nat) : Cluster ι → Prop where
  | ignored (msg : Handshake) (rest : List Handshake) (hwire : s.wire e = msg :: rest)
      (hignored : ignores conf e.1 msg = true) :
      ReadStep s e actor { s with wire := Function.update s.wire e rest }
  | queued (msg : Handshake) (rest : List Handshake) (links : PeerLinks)
      (hwire : s.wire e = msg :: rest) (hkept : ignores conf e.1 msg = false)
      (hlinks : (s.links e.1).step (.read e.2 actor msg) = some links) :
      ReadStep s e actor ({ s with wire := Function.update s.wire e rest }.setLinks e.1 links)

/-- A read takes the first message: it is ignored, or it is handed to an actor. -/
theorem readStep {e : LinkEnd ι} {actor : Nat} (h : s.read conf e actor = some s') :
    ReadStep conf s e actor s' := by
  rw [Cluster.read] at h
  split at h
  · cases h
  · rename_i msg rest hwire
    split at h
    · cases h
    · rename_i links hlinks
      obtain rfl := Option.some.inj h
      show ReadStep conf s e actor (if ignores conf e.1 msg then _ else _)
      split
      · rename_i hignored
        exact .ignored msg rest hwire hignored
      · rename_i hkept
        exact .queued msg rest links hwire (by simpa using hkept) hlinks

variable (conf) in
/-- An actor answers the request that it has handled, or goes on. -/
inductive ActorStep (s : Cluster ι) (i : ι) (actor : Nat) : Cluster ι → Prop where
  | answered (channel : ChannelRef) (hidle : (s.links i).running actor = none)
      (hanswer : s.answer (i, actor) = some channel) :
      ActorStep s i actor { s.sendMsg (i, channel) (.res (conf i).mySelf.service_id) with
        answer := Function.update s.answer (i, actor) none }
  | ran (links : PeerLinks)
      (hbusy : ∀ c, (s.links i).running actor = none → s.answer (i, actor) ≠ some c)
      (hlinks : (s.links i).runActor actor = some links) :
      ActorStep s i actor { s.setLinks i links with
        answer := Function.update s.answer (i, actor) (s.taken i actor) }

/-- An actor answers, or it takes a step. -/
theorem actorStep {i : ι} {actor : Nat} (h : s.runActor conf i actor = some s') :
    ActorStep conf s i actor s' := by
  rw [Cluster.runActor] at h
  split at h
  · rename_i channel hidle hanswer
    obtain rfl := Option.some.inj h
    exact .answered channel hidle hanswer
  · rename_i hbusy
    split at h
    · cases h
    · rename_i links hlinks
      obtain rfl := Option.some.inj h
      exact .ran links hbusy hlinks

/-- A read keeps the cluster honest: the message was honest on the wire. -/
theorem Honest.read (h : Honest conf s) {e : LinkEnd ι} {actor : Nat}
    (hstep : s.read conf e actor = some s') : Honest conf s' := by
  -- what is left on the wire was there before
  have htail : ∀ {msg rest}, s.wire e = msg :: rest →
      Honest conf { s with wire := Function.update s.wire e rest } := by
    intro msg rest hwire
    exact { h with
      wire := fun g m hm => by
        by_cases heq : g = e
        · subst heq
          exact h.wire g m (by rw [hwire]; exact List.mem_cons_of_mem _ (by simpa using hm))
        · exact h.wire g m (by simpa [heq] using hm) }
  cases readStep hstep with
  | ignored msg rest hwire hignored => exact htail hwire
  | queued msg rest links hwire hkept hlinks =>
    refine (htail hwire).linkStep (fun c a m hread => ?_) hlinks
    cases hread
    exact h.wire e msg (by rw [hwire]; exact List.mem_cons_self)

/-- An actor's step keeps the cluster honest. -/
theorem Honest.runActor (h : Honest conf s) {i : ι} {actor : Nat}
    (hstep : s.runActor conf i actor = some s') : Honest conf s' := by
  -- the pending answer of one actor is set
  have hdone : ∀ {s : Cluster ι} {x : Option ChannelRef}, Honest conf s →
      (∀ c, x = some c → ∃ f, s.far conf i c = some f ∧ f.dialed = false) →
      Honest conf { s with answer := Function.update s.answer (i, actor) x } := by
    intro s x h hx
    exact { h with
      answer := fun k a c hc => by
        by_cases heq : (k, a) = (i, actor)
        · obtain ⟨rfl, rfl⟩ := Prod.mk.inj heq
          exact hx c (by simpa using hc)
        · exact h.answer k a c (by simpa [heq] using hc) }
  cases actorStep hstep with
  | answered channel hidle hanswer =>
    obtain ⟨f, hfar, hd⟩ := h.answer i actor channel hanswer
    have hsent : Honest conf (s.sendMsg (i, channel) (.res (conf i).mySelf.service_id)) := by
      apply h.sendMsg
      intro g hg
      refine ⟨rfl, ?_⟩
      -- the other end dialed, so this one is what it is answered as
      obtain ⟨e, -, rfl⟩ := Option.map_eq_some_iff.mp hfar
      have hd' : s.dialed (i, channel) = false := hd
      have hflip := (h.peer (i, channel) g hg).2
      rw [hd'] at hflip
      simpa using hflip.symm
    have hlast := hdone hsent fun c (hc : none = some c) => by cases hc
    rwa [answer_sendMsg] at hlast
  | ran links hbusy hlinks =>
    have hnext := h.linkStep (a := .actor actor) (fun _ _ _ hread => by cases hread) hlinks
    refine hdone hnext fun c hc => ?_
    rw [taken] at hc
    split at hc
    -- the request that is taken names the channel that it came on
    · rename_i nodeInfo channel rest hidle hbox
      obtain rfl := Option.some.inj hc
      obtain ⟨f, hfar, hof⟩ :=
        (h.links i).queued actor (.req nodeInfo) channel (by rw [hbox]; exact List.mem_cons_self)
      exact ⟨f, hfar, hof.2⟩
    · exact h.answer i actor c hc

/-- Every step keeps the cluster honest. -/
theorem Honest.step (h : Honest conf s) {a : ClusterAct ι} (hstep : s.step conf a = some s') :
    Honest conf s' := by
  cases a with
  | discover i node =>
    obtain rfl := Option.some.inj hstep
    exact h.setLinks ((h.links i).saveNode ⟨node, rfl⟩)
  | connect i channel j accepted => exact h.connect hstep
  | read i channel actor => exact h.read hstep
  | actor i actor => exact h.runActor hstep
  | onClosed i channel =>
    obtain ⟨links, hlinks, rfl⟩ := Option.map_eq_some_iff.mp hstep
    exact h.linkStep (fun _ _ _ hread => by cases hread) hlinks
  | releaseChannel i channel =>
    obtain ⟨links, hlinks, rfl⟩ := Option.map_eq_some_iff.mp hstep
    exact h.linkStep (fun _ _ _ hread => by cases hread) hlinks

/-- A cluster is honest in every run. -/
theorem honest_run {acts : List (ClusterAct ι)} (hrun : Run.run (step conf) init acts = some s) :
    Honest conf s :=
  Run.invariant (P := Honest conf) (fun _ _ _ h => h.step) honest_init hrun

/-! ## Lookups -/

/-- Any number of servers, no two at one address, discover each other, connect, shake hands
    and close their connections, with the steps of all their loops and actors in any order.  A
    channel that a server looks up by a type, for one message or for all, leads to a server of
    that type; one that it looks up by a service id leads to the server that has it. -/
theorem lookups_lead_to (haddr : ∀ i j, (conf i).address = (conf j).address → i = j)
    {acts : List (ClusterAct ι)} (hrun : Run.run (step conf) init acts = some s) (i : ι)
    (isClosed : ChannelRef → Bool) (c : ChannelRef) :
    (∀ type, c ∈ (s.links i).peers.getChannelsByType isClosed type ∨
        ((s.links i).peers.sendMsg type).2 = some c →
      ∃ j d, s.peer (i, c) = some (j, d) ∧ (conf j).type = type) ∧
    ∀ id, (s.links i).peers.getChannelByServiceId isClosed id = some c →
      ∃ j d, s.peer (i, c) = some (j, d) ∧ (conf j).mySelf.service_id = id := by
  have h := honest_run hrun
  refine ⟨fun type hc => ?_, fun id hc => h.peer_of_lists (PeerConn.lists_of_getChannelByServiceId hc)⟩
  obtain ⟨info, hinfo, rfl, hlists⟩ := hc.elim
    (PeerConn.lists_of_mem_getChannelsByType (h.links i).indexed)
    (PeerConn.lists_of_sendMsg (h.links i).indexed)
  exact h.type_of_lists haddr hinfo hlists

/-- A gateway and a game server. -/
def twoServers : Bool → ServerConf
  | false => ⟨"gateway", 2, "10.0.0.1", 7000, true, by decide⟩
  | true => ⟨"game", SRV_TYPE_GAME, "10.0.0.2", 8000, false, by decide⟩

/-- The gateway connects to the game server, which answers. -/
def oneHandshake : List (ClusterAct Bool) :=
  [.connect false 1 true 2, .discover false (some true), .read true 2 0, .actor true 0,
    .actor true 0, .actor true 0, .actor true 0, .actor true 0, .read false 1 0, .actor false 0,
    .actor false 0, .actor false 0]

/-- The gateway of two servers finds the game server. -/
theorem lookups_lead_to_game :
    ∃ s, Run.run (step twoServers) init oneHandshake = some s ∧
      ∃ j d, s.peer (false, 1) = some (j, d) ∧ (twoServers j).type = SRV_TYPE_GAME := by
  have hend : (Run.run (step twoServers) init oneHandshake).map (fun s =>
      (s.links false).peers.getChannelsByType (fun _ => false) SRV_TYPE_GAME) = some [1] := by
    decide +kernel
  obtain ⟨s, hrun, hs⟩ := Option.map_eq_some_iff.mp hend
  refine ⟨s, hrun, (lookups_lead_to (by decide +kernel) hrun false (fun _ => false) 1).1 _ ?_⟩
  exact .inl (by rw [hs]; exact List.mem_singleton_self 1)

end Cluster

end Athena
