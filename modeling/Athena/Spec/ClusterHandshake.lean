import Athena.Spec.ClusterIdentity

/-!
# Handshakes that are over

Between two servers that stay connected a handshake is always on its way until both know each
other (`finishing_step`): the request, its handler, the answer, and the answer's handler.  So
where nothing of it is under way any more, the server that was asked lists the connection, and
the one that has asked does if its handler registers the answers (`handshakes_finish`).

A gateway connects before it saves the node that it has connected to.  An answer that is
handled in between is lost, which is what `prompt` excludes.
-/

namespace Athena

namespace Cluster

variable {ι : Type} {conf : ι → ServerConf} {s s' : Cluster ι}

/-- The condition on a step: the handler of a response finds the node, which `saveNode` has
    saved by then. -/
def prompt (s : Cluster ι) : ClusterAct ι → Bool
  | .actor i actor =>
    match (s.links i).running actor with
    | some (.addNodeChannel service_id, c) =>
      !s.dialed (i, c) || ((s.links i).peers.node_id_nodes service_id).isSome
    | _ => true
  | _ => true

/-! ## Where a handshake is -/

/-- The end has not seen its channel close. -/
def Open (s : Cluster ι) (e : LinkEnd ι) : Prop := (s.links e.1).closed e.2 = false

/-- A message for an end is on its way or handled. -/
def Coming (s : Cluster ι) (e : LinkEnd ι) : Prop := s.wire e ≠ [] ∨ (s.links e.1).Holds e.2

/-- A request that has come in at an end is not answered yet. -/
def Answers (s : Cluster ι) (e : LinkEnd ι) : Prop := ∃ a, s.answer (e.1, a) = some e.2

variable (conf) in
/-- An end is listed for the server at the other one. -/
def Knows (s : Cluster ι) (e f : LinkEnd ι) : Prop :=
  (s.links e.1).peers.Lists (conf f.1).mySelf.service_id e.2

variable (conf) in
/-- How far the handshake of an end that has connected to `f` has come. -/
def Finishing (s : Cluster ι) (e f : LinkEnd ι) : Prop :=
  s.Coming f ∨ s.Knows conf f e ∧
    (s.Answers f ∨ ((conf e.1).savesResponse = true → s.Coming e ∨ s.Knows conf e f))

variable (conf) in
/-- What is true of every handshake. -/
structure Shaking (s : Cluster ι) : Prop where
  honest : Honest conf s
  /-- the handler of a request has its channel to answer -/
  answers : ∀ i a pc c, (s.links i).running a = some (pc, c) → s.dialed (i, c) = false →
    s.answer (i, a) = some c
  finishing : ∀ e f, s.peer e = some f → s.dialed e = true → s.Open e → s.Open f →
    s.Finishing conf e f

variable (conf) in
/-- What a step does to the connections that there are. -/
structure Advances (s s' : Cluster ι) : Prop where
  /-- a new connection has its request under way -/
  peer : ∀ e f, s'.peer e = some f → s'.dialed e = true →
    s.peer e = some f ∧ s.dialed e = true ∨ s'.wire f ≠ []
  keeps : ∀ e f, s.peer e = some f →
    (s.links e.1).Keeps (conf f.1).mySelf.service_id e.2 (s'.links e.1)
  wire : ∀ e f, s.peer e = some f → (∀ msg ∈ s.wire e, ignores conf e.1 msg = false) →
    s.wire e ≠ [] → s'.Coming e
  answer : ∀ e f, s.peer e = some f → s'.Open e → ∀ a, s.answer (e.1, a) = some e.2 →
    s'.answer (e.1, a) = some e.2 ∨ s'.wire f ≠ []

/-- An end that is open now was open before. -/
theorem Advances.open_of_open (h : Advances conf s s') {e f : LinkEnd ι} (hpeer : s.peer e = some f)
    (hopen : s'.Open e) : s.Open e := by
  cases hc : (s.links e.1).closed e.2 with
  | false => exact hc
  | true =>
    have hclosed := (h.keeps e f hpeer).closed hc
    rw [Open, hclosed] at hopen
    cases hopen

/-- What comes to an end keeps coming until the end is listed. -/
theorem Advances.coming (h : Advances conf s s') {e f : LinkEnd ι} (hpeer : s.peer e = some f)
    (hkept : ∀ msg ∈ s.wire e, ignores conf e.1 msg = false) (hopen : s'.Open e)
    (hcoming : s.Coming e) :
    s'.Coming e ∨ s'.Knows conf e f ∧ ∃ a pc, (s.links e.1).running a = some (pc, e.2) := by
  rcases hcoming with hwire | hholds
  · exact .inl (h.wire e f hpeer hkept hwire)
  · exact ((h.keeps e f hpeer).holds hopen hholds).imp_left .inr

/-- Requests are handled by every server. -/
theorem Honest.kept_request (h : Honest conf s) {e : LinkEnd ι} (hd : s.dialed e = false) :
    ∀ msg ∈ s.wire e, ignores conf e.1 msg = false := by
  intro msg hmsg
  obtain ⟨x, hfar, hof⟩ := h.wire e msg hmsg
  obtain ⟨f, -, rfl⟩ := Option.map_eq_some_iff.mp hfar
  cases msg with
  | req nodeInfo => rfl
  | res service_id =>
    have hd' : s.dialed e = true := hof.2
    rw [hd] at hd'
    cases hd'

/-- A server that registers the answers ignores no message. -/
theorem kept_response {i : ι} (hsaves : (conf i).savesResponse = true) (msg : Handshake) :
    ignores conf i msg = false := by
  cases msg with
  | req nodeInfo => rfl
  | res service_id => simp [ignores, hsaves]

/-- The handshake of a connection that stays open goes on. -/
theorem Shaking.finishing_step (h : Shaking conf s) (hadv : Advances conf s s') {e f : LinkEnd ι}
    (hpeer : s'.peer e = some f) (hd : s'.dialed e = true) (he : s'.Open e) (hf : s'.Open f) :
    s'.Finishing conf e f := by
  rcases hadv.peer e f hpeer hd with ⟨hpeer, hd⟩ | hnew
  · obtain ⟨hback, hflip⟩ := h.honest.peer e f hpeer
    have hf' : s.dialed f = false := by simpa [hd] using hflip
    have hanswer : s.Answers f → s'.Answers f ∨ s'.wire e ≠ [] := by
      rintro ⟨a, ha⟩
      exact (hadv.answer f e hback hf a ha).imp_left fun ha' => ⟨a, ha'⟩
    rcases h.finishing e f hpeer hd (hadv.open_of_open hpeer he) (hadv.open_of_open hback hf) with
      hcoming | ⟨hknows, hrest⟩
    · rcases hadv.coming hback (h.honest.kept_request hf') hf hcoming with
        hcoming' | ⟨hknows, a, pc, hrun⟩
      · exact .inl hcoming'
      · -- the handler of the request has registered the channel, and answers
        refine .inr ⟨hknows, ?_⟩
        rcases hanswer ⟨a, h.answers f.1 a pc f.2 hrun hf'⟩ with hans | hwire
        · exact .inl hans
        · exact .inr fun _ => .inl (.inl hwire)
    · refine .inr ⟨(hadv.keeps f e hback).lists hf hknows, ?_⟩
      rcases hrest with hans | hsaves
      · rcases hanswer hans with hans' | hwire
        · exact .inl hans'
        · exact .inr fun _ => .inl (.inl hwire)
      · refine .inr fun hconf => ?_
        rcases hsaves hconf with hcoming | hknows'
        · exact (hadv.coming hpeer (fun msg _ => kept_response hconf msg) he hcoming).imp_right
            And.left
        · exact .inr ((hadv.keeps e f hpeer).lists he hknows')
  · exact .inl (.inl hnew)

/-- No server is connected yet. -/
theorem shaking_init : Shaking conf init where
  honest := honest_init
  answers i a pc c h := by cases h
  finishing e f h := by cases h

/-- A channel that is listed for the server at its other end is one of that server's type. -/
theorem Honest.mem_of_knows (h : Honest conf s)
    (haddr : ∀ i j, (conf i).address = (conf j).address → i = j) {e f : LinkEnd ι}
    (hknows : s.Knows conf e f) {isClosed : ChannelRef → Bool} (hopen : isClosed e.2 = false) :
    e.2 ∈ (s.links e.1).peers.getChannelsByType isClosed (conf f.1).type := by
  obtain ⟨info, hinfo, hid, hmem⟩ :=
    PeerConn.mem_getChannelsByType_of_lists (h.links e.1).indexed hknows hopen
  obtain ⟨node, rfl⟩ := (h.links e.1).infos info hinfo
  cases node with
  | none => exact absurd hid.symm (conf f.1).service_id_ne_empty
  | some k =>
    obtain rfl := haddr k f.1 (ServerConf.address_of_service_id hid)
    exact hmem

/-! ## The steps -/

/-- What an end may hear, from its peer. -/
theorem far_of_peer {e f : LinkEnd ι} (h : s.peer e = some f) :
    s.far conf e.1 e.2 = some ⟨(conf f.1).mySelf, s.dialed e⟩ := by
  rw [far, h]
  rfl

/-- What the handlers of an honest server look up is known. -/
theorem Honest.known_of_prompt (h : Honest conf s) {i : ι} {actor : Nat} {c : ChannelRef}
    {id : String} (hprompt : s.prompt (.actor i actor) = true)
    (hrun : (s.links i).running actor = some (.addNodeChannel id, c)) :
    (s.links i).peers.Known id := by
  simp only [prompt, hrun, Bool.or_eq_true, Bool.not_eq_true'] at hprompt
  rcases hprompt with hd | hknown
  · obtain ⟨x, hfar, rfl⟩ := (h.links i).running actor _ c hrun
    have hx : x.dialed = false := by
      obtain ⟨f, -, rfl⟩ := Option.map_eq_some_iff.mp hfar
      exact hd
    exact ((h.links i).known actor _ c x hrun hfar hx).resolve_left fun heq => by cases heq
  · exact hknown

variable [DecidableEq ι]

/-- A server changes on its own, and no other one does. -/
theorem Advances.setLinks {i : ι} {links : PeerLinks}
    (hkeeps : ∀ c f, s.peer (i, c) = some f →
      (s.links i).Keeps (conf f.1).mySelf.service_id c links) :
    Advances conf s (s.setLinks i links) where
  peer e f hpeer hd := .inl ⟨hpeer, hd⟩
  keeps e f hpeer := by
    rw [links_setLinks]
    split
    · rename_i heq
      obtain ⟨k, c⟩ := e
      obtain rfl : k = i := heq
      exact hkeeps c f hpeer
    · exact .of_eq rfl rfl rfl rfl
  wire e f hpeer hkept hwire := .inl hwire
  answer e f hpeer hopen a ha := .inl ha

/-- A message that is under way stays so when another is sent. -/
theorem wire_sendMsg_mono {e g : LinkEnd ι} {msg : Handshake} (h : s.wire g ≠ []) :
    (s.sendMsg e msg).wire g ≠ [] := by
  rw [sendMsg]
  split
  · exact h
  · rename_i f hpeer
    split
    · exact h
    · show Function.update s.wire f (s.wire f ++ [msg]) g ≠ []
      by_cases heq : g = f
      · subst heq
        rw [Function.update_self]
        simp
      · rwa [Function.update_of_ne heq]

/-- A message that is sent on an open end is under way to its peer. -/
theorem wire_sendMsg_peer {e f : LinkEnd ι} {msg : Handshake} (hpeer : s.peer e = some f)
    (hopen : s.Open e) : (s.sendMsg e msg).wire f ≠ [] := by
  have hclosed : (s.links e.1).closed e.2 = false := hopen
  simp [sendMsg, hpeer, hclosed]

/-- A connection leaves what the servers do. -/
theorem tasks_of_connect {e f : LinkEnd ι} {dialing accepting : PeerLinks}
    (hdial : (s.links e.1).step (.connect e.2) = some dialing)
    (haccept : ((s.setLinks e.1 dialing).links f.1).step (.connect f.2) = some accepting) (k : ι) :
    let links := ((s.setLinks e.1 dialing).setLinks f.1 accepting).links k
    links.peers = (s.links k).peers ∧ links.closed = (s.links k).closed ∧
      links.mailbox = (s.links k).mailbox ∧ links.running = (s.links k).running := by
  have hfirst : ∀ k, ((s.setLinks e.1 dialing).links k).peers = (s.links k).peers ∧
      ((s.setLinks e.1 dialing).links k).closed = (s.links k).closed ∧
      ((s.setLinks e.1 dialing).links k).mailbox = (s.links k).mailbox ∧
      ((s.setLinks e.1 dialing).links k).running = (s.links k).running := by
    intro k
    rw [links_setLinks]
    split
    · rename_i heq
      exact heq ▸ PeerLinks.connect_same hdial
    · exact ⟨rfl, rfl, rfl, rfl⟩
  intro links
  have hk := hfirst k
  -- the accepting server, then all others
  by_cases heq : k = f.1
  · subst heq
    obtain ⟨hp, hc, hm, hr⟩ := PeerLinks.connect_same haccept
    have hlinks : links = accepting := by
      show ((s.setLinks e.1 dialing).setLinks f.1 accepting).links f.1 = accepting
      rw [links_setLinks, if_pos rfl]
    rw [hlinks]
    exact ⟨hp.trans hk.1, hc.trans hk.2.1, hm.trans hk.2.2.1, hr.trans hk.2.2.2⟩
  · have hlinks : links = (s.setLinks e.1 dialing).links k := by
      show ((s.setLinks e.1 dialing).setLinks f.1 accepting).links k = _
      rw [links_setLinks, if_neg heq]
    rw [hlinks]
    exact hk

/-- A channel is open when it connects. -/
theorem closed_of_connect {links links' : PeerLinks} {c : ChannelRef}
    (h : links.step (.connect c) = some links') : links.closed c = false := by
  cases PeerLinks.linkStep h with
  | connect _ hnew hopen => exact hopen

/-- A new connection begins its own handshake. -/
theorem Honest.advances_connect (h : Honest conf s) {e f : LinkEnd ι}
    (hstep : s.connect conf e f = some s') : Advances conf s s' := by
  obtain ⟨dialing, accepting, hdial, haccept, he, hf, hne, rfl⟩ := connect_cases hstep
  have htasks := tasks_of_connect hdial haccept
  refine ⟨fun g k hpeer hd => ?_, fun g k hpeer => ?_, fun g k hpeer hkept hwire => ?_,
    fun g k hpeer hopen a ha => ?_⟩
  · rw [onNewConnect, peer_sendMsg] at hpeer
    rw [onNewConnect, dialed_sendMsg] at hd
    by_cases hge : g = e
    · -- the request of the new connection
      subst hge
      have hk : some k = some f := by
        rw [← hpeer]
        simp [Cluster.joined, hne]
      obtain rfl := Option.some.inj hk
      refine .inr (wire_sendMsg_peer hpeer ?_)
      show (((s.setLinks g.1 dialing).setLinks k.1 accepting).links g.1).closed g.2 = false
      rw [(htasks g.1).2.1]
      exact closed_of_connect hdial
    · have hd' : s.dialed g = true := by
        change Function.update s.dialed e true g = true at hd
        rwa [Function.update_of_ne hge] at hd
      by_cases hgf : g = f
      · rw [hgf, h.fresh f hf] at hd'
        cases hd'
      · change Function.update (Function.update s.peer e (some f)) f (some e) g = some k at hpeer
        rw [Function.update_of_ne hgf, Function.update_of_ne hge] at hpeer
        exact .inl ⟨hpeer, hd'⟩
  · rw [onNewConnect, links_sendMsg]
    obtain ⟨hp, hc, hm, hr⟩ := htasks g.1
    exact .of_eq hp hc hm hr
  · exact .inl (wire_sendMsg_mono hwire)
  · exact .inl (by rw [onNewConnect, answer_sendMsg]; exact ha)

/-- A message that is read is handled, unless the server ignores its kind. -/
theorem advances_read {e : LinkEnd ι} {actor : Nat} (hstep : s.read conf e actor = some s') :
    Advances conf s s' := by
  have hother : ∀ {g rest}, g ≠ e → s.wire g ≠ [] → Function.update s.wire e rest g ≠ [] := by
    intro g rest hge hwire
    rwa [Function.update_of_ne hge]
  cases readStep hstep with
  | ignored msg rest hwire hignored =>
    refine ⟨fun g k hpeer hd => .inl ⟨hpeer, hd⟩, fun g k hpeer => .of_eq rfl rfl rfl rfl,
      fun g k hpeer hkept hwire' => ?_, fun g k hpeer hopen a ha => .inl ha⟩
    -- what is read from `e` waits for other ends no less
    have hge : g ≠ e := by
      rintro rfl
      have hkept' := hkept msg (by rw [hwire]; exact List.mem_cons_self)
      rw [hignored] at hkept'
      cases hkept'
    exact .inl (hother hge hwire')
  | queued msg rest links hwire hkept hlinks =>
    refine ⟨fun g k hpeer hd => .inl ⟨hpeer, hd⟩, fun g k hpeer => ?_,
      fun g k hpeer hkept' hwire' => ?_, fun g k hpeer hopen a ha => .inl ha⟩
    · rw [links_setLinks]
      split
      · rename_i heq
        rw [heq]
        exact PeerLinks.keeps_read hlinks
      · exact .of_eq rfl rfl rfl rfl
    · by_cases hge : g = e
      · subst hge
        refine .inr ?_
        rw [links_setLinks, if_pos rfl]
        exact PeerLinks.holds_read hlinks
      · exact .inl (hother hge hwire')

/-- A handler goes on, and answers at its end. -/
theorem Honest.advances_runActor (h : Honest conf s) {i : ι} {actor : Nat}
    (hprompt : s.prompt (.actor i actor) = true) (hstep : s.runActor conf i actor = some s') :
    Advances conf s s' := by
  cases actorStep hstep with
  | answered channel hidle hanswer =>
    refine ⟨fun g k hpeer hd => ?_, fun g k hpeer => ?_, fun g k hpeer hkept hwire => ?_,
      fun g k hpeer hopen a ha => ?_⟩
    · exact .inl ⟨by simpa using hpeer, by simpa using hd⟩
    · simp only [links_sendMsg]
      exact .of_eq rfl rfl rfl rfl
    · exact .inl (wire_sendMsg_mono hwire)
    · by_cases heq : (g.1, a) = (i, actor)
      · -- the answer is sent
        obtain ⟨rfl, rfl⟩ := Prod.mk.inj heq
        obtain rfl : channel = g.2 := Option.some.inj (hanswer.symm.trans ha)
        refine .inr (wire_sendMsg_peer hpeer ?_)
        simpa only [Open, links_sendMsg] using hopen
      · refine .inl ?_
        show Function.update s.answer (i, actor) none (g.1, a) = some g.2
        rwa [Function.update_of_ne heq]
  | ran links hbusy hlinks =>
    have hkeeps : ∀ c f, s.peer (i, c) = some f →
        (s.links i).Keeps (conf f.1).mySelf.service_id c links := fun c f hpeer =>
      PeerLinks.keeps_runActor (h.links i) (far_of_peer hpeer) (conf f.1).service_id_ne_empty
        (fun _ hrun => h.known_of_prompt hprompt hrun) hlinks
    have hadv : Advances conf s (s.setLinks i links) := .setLinks hkeeps
    refine ⟨hadv.peer, hadv.keeps, hadv.wire, fun g k hpeer hopen a ha => .inl ?_⟩
    show Function.update s.answer (i, actor) (s.taken i actor) (g.1, a) = some g.2
    by_cases heq : (g.1, a) = (i, actor)
    · -- an actor that has to answer takes no other message
      rw [heq, Function.update_self, taken]
      rw [heq] at ha
      split
      · rename_i hidle _
        exact absurd ha (hbusy g.2 hidle)
      · exact ha
    · rwa [Function.update_of_ne heq]

/-- Every step brings the handshakes on. -/
theorem Honest.advances (h : Honest conf s) {a : ClusterAct ι} (hprompt : s.prompt a = true)
    (hstep : s.step conf a = some s') : Advances conf s s' := by
  cases a with
  | discover i node =>
    obtain rfl := Option.some.inj hstep
    exact .setLinks fun c f _ => PeerLinks.keeps_saveNode (s.links i) (nodeOf conf node)
  | connect i channel j accepted => exact h.advances_connect hstep
  | read i channel actor => exact advances_read hstep
  | actor i actor => exact h.advances_runActor hprompt hstep
  | onClosed i channel =>
    obtain ⟨links, hlinks, rfl⟩ := Option.map_eq_some_iff.mp hstep
    exact .setLinks fun c f _ => PeerLinks.keeps_onClosed (h.links i) hlinks
  | releaseChannel i channel =>
    obtain ⟨links, hlinks, rfl⟩ := Option.map_eq_some_iff.mp hstep
    exact .setLinks fun c f _ => PeerLinks.keeps_releaseChannel hlinks

/-- What an actor runs next it has just taken, or it runs on. -/
theorem running_of_runActor {links links' : PeerLinks} {actor a : Nat} {pc : HandshakePc}
    {c : ChannelRef} (h : links.runActor actor = some links')
    (hrun : links'.running a = some (pc, c)) :
    (∃ p, links.running a = some (p, c)) ∨
      a = actor ∧ links.running actor = none ∧
        ∃ msg rest, links.mailbox actor = (msg, c) :: rest := by
  by_cases heq : a = actor
  · subst heq
    cases PeerLinks.actorStep h with
    | take msg c' rest hidle hbox =>
      rw [PeerLinks.running_goto_self] at hrun
      obtain ⟨-, rfl⟩ := Prod.mk.inj (Option.some.inj hrun)
      exact .inr ⟨rfl, hidle, msg, rest, hbox⟩
    | saved nodeInfo c' hold =>
      rw [PeerLinks.running_goto_self] at hrun
      obtain ⟨-, rfl⟩ := Prod.mk.inj (Option.some.inj hrun)
      exact .inl ⟨_, hold⟩
    | found service_id c' hold =>
      rw [PeerLinks.running_goto_self] at hrun
      obtain ⟨-, rfl⟩ := Prod.mk.inj (Option.some.inj hrun)
      exact .inl ⟨_, hold⟩
    | gone service_id c' hold hgone =>
      rw [PeerLinks.running_goto_self] at hrun
      cases hrun
    | added service_id c' hold =>
      rw [PeerLinks.running_goto_self] at hrun
      cases hrun
  · -- the places of the other actors are the same
    refine .inl ⟨pc, ?_⟩
    cases PeerLinks.actorStep h <;> exact (PeerLinks.running_goto_of_ne heq _ _).symm.trans hrun

/-- The handler of a request keeps its channel to answer. -/
theorem Shaking.answers_step (h : Shaking conf s) {a : ClusterAct ι}
    (hstep : s.step conf a = some s') {i : ι} {b : Nat} {pc : HandshakePc} {c : ChannelRef}
    (hrun : (s'.links i).running b = some (pc, c)) (hd : s'.dialed (i, c) = false) :
    s'.answer (i, b) = some c := by
  -- no other step changes what an actor runs
  have hsame : ∀ {k : ι} {links : PeerLinks},
      ((s.setLinks k links).links i).running b = some (pc, c) →
      links.running = (s.links k).running → (s.links i).running b = some (pc, c) := by
    intro k links hrun hk
    rw [links_setLinks] at hrun
    split at hrun
    · rename_i heq
      rwa [heq, ← hk]
    · exact hrun
  cases a with
  | discover k node =>
    obtain rfl := Option.some.inj hstep
    exact h.answers i b pc c (hsame hrun rfl) hd
  | connect k channel j accepted =>
    obtain ⟨dialing, accepting, hdial, haccept, -, -, -, rfl⟩ := connect_cases hstep
    rw [onNewConnect, links_sendMsg] at hrun
    rw [onNewConnect, dialed_sendMsg] at hd
    rw [onNewConnect, answer_sendMsg]
    have hold := (tasks_of_connect hdial haccept i).2.2.2
    refine h.answers i b pc c ((congrFun hold b).symm.trans hrun) ?_
    change Function.update s.dialed (k, channel) true (i, c) = false at hd
    by_cases heq : (i, c) = (k, channel)
    · rw [heq, Function.update_self] at hd
      cases hd
    · rwa [Function.update_of_ne heq] at hd
  | read k channel actor =>
    cases readStep hstep with
    | ignored msg rest hwire hignored => exact h.answers i b pc c hrun hd
    | queued msg rest links hwire hkept hlinks =>
      have hrunning : links.running = (s.links k).running :=
        PeerLinks.running_step hlinks fun _ heq => by cases heq
      exact h.answers i b pc c (hsame hrun hrunning) hd
  | actor k actor =>
    cases actorStep hstep with
    | answered channel hidle hanswer =>
      simp only [links_sendMsg] at hrun
      simp only [dialed_sendMsg] at hd
      have hne : (i, b) ≠ (k, actor) := by
        rintro heq
        obtain ⟨rfl, rfl⟩ := Prod.mk.inj heq
        rw [hidle] at hrun
        cases hrun
      show Function.update s.answer (k, actor) none (i, b) = some c
      rw [Function.update_of_ne hne]
      exact h.answers i b pc c hrun hd
    | ran links hbusy hlinks =>
      show Function.update s.answer (k, actor) (s.taken k actor) (i, b) = some c
      have hd' : s.dialed (i, c) = false := hd
      change ((s.setLinks k links).links i).running b = some (pc, c) at hrun
      by_cases hk : i = k
      · subst hk
        rw [links_setLinks, if_pos rfl] at hrun
        rcases running_of_runActor hlinks hrun with ⟨p, hold⟩ | ⟨rfl, hidle, msg, rest, hbox⟩
        · have hans := h.answers i b p c hold hd'
          by_cases hb : b = actor
          · subst hb
            rw [Function.update_self, taken, hold]
            exact hans
          · rwa [Function.update_of_ne fun heq => hb (Prod.mk.inj heq).2]
        · -- a request, since this end was connected to
          obtain ⟨x, hfar, hof⟩ := (h.honest.links i).queued b msg c
            (by rw [hbox]; exact List.mem_cons_self)
          obtain ⟨f, -, rfl⟩ := Option.map_eq_some_iff.mp hfar
          rw [Function.update_self, taken, hidle, hbox]
          cases msg with
          | req nodeInfo => rfl
          | res service_id =>
            have hdialed : s.dialed (i, c) = true := hof.2
            rw [hd'] at hdialed
            cases hdialed
      · rw [links_setLinks, if_neg hk] at hrun
        rw [Function.update_of_ne fun heq => hk (Prod.mk.inj heq).1]
        exact h.answers i b pc c hrun hd'
  | onClosed k channel =>
    obtain ⟨links, hlinks, rfl⟩ := Option.map_eq_some_iff.mp hstep
    have hrunning : links.running = (s.links k).running :=
      PeerLinks.running_step hlinks fun _ heq => by cases heq
    exact h.answers i b pc c (hsame hrun hrunning) hd
  | releaseChannel k channel =>
    obtain ⟨links, hlinks, rfl⟩ := Option.map_eq_some_iff.mp hstep
    have hrunning : links.running = (s.links k).running :=
      PeerLinks.running_step hlinks fun _ heq => by cases heq
    exact h.answers i b pc c (hsame hrun hrunning) hd

/-! ## Runs -/

/-- Every step keeps what is true of the handshakes. -/
theorem Shaking.step (h : Shaking conf s) {a : ClusterAct ι} (hprompt : s.prompt a = true)
    (hstep : s.step conf a = some s') : Shaking conf s' where
  honest := h.honest.step hstep
  answers _ _ _ _ hrun hd := h.answers_step hstep hrun hd
  finishing _ _ hpeer hd he hf :=
    h.finishing_step (h.honest.advances hprompt hstep) hpeer hd he hf

/-- Nothing of the handshake between two ends is under way. -/
def Settled (s : Cluster ι) (e f : LinkEnd ι) : Prop :=
  ¬ s.Coming e ∧ ¬ s.Coming f ∧ ¬ s.Answers f

/-- In any run of any number of servers, no two at one address, in which no answer is handled
    before its node was saved, and whose send rings have room for the frames: where nothing of
    the handshake of an open connection is under way any more, the server that was connected to
    finds the connection under the type of the other one, and the server that has connected does
    too if its handler registers the answers. -/
theorem handshakes_finish (haddr : ∀ i j, (conf i).address = (conf j).address → i = j)
    {acts : List (ClusterAct ι)} (hrun : Run.run (step conf) init acts = some s)
    (hprompt : Run.Meets (step conf) (fun s a => s.prompt a = true) init acts)
    {e f : LinkEnd ι} (hpeer : s.peer e = some f) (hd : s.dialed e = true) (he : s.Open e)
    (hf : s.Open f) (hsettled : s.Settled e f) (isClosed : ChannelRef → Bool) :
    (isClosed f.2 = false →
      f.2 ∈ (s.links f.1).peers.getChannelsByType isClosed (conf e.1).type) ∧
    ((conf e.1).savesResponse = true → isClosed e.2 = false →
      e.2 ∈ (s.links e.1).peers.getChannelsByType isClosed (conf f.1).type) := by
  have h : Shaking conf s := Run.invariant_of_meets (P := Shaking conf)
    (fun _ _ _ h hp hs => h.step hp hs) shaking_init hprompt hrun
  obtain ⟨hcoming, hcoming', hanswers⟩ := hsettled
  obtain ⟨hknows, hrest⟩ := (h.finishing e f hpeer hd he hf).resolve_left hcoming'
  refine ⟨fun hopen => h.honest.mem_of_knows haddr hknows hopen, fun hsaves hopen => ?_⟩
  have hback := (hrest.resolve_left hanswers hsaves).resolve_left hcoming
  exact h.honest.mem_of_knows haddr hback hopen

/-- The two servers of `oneHandshake` find each other. -/
theorem handshakes_finish_twoServers :
    ∃ s, Run.run (step twoServers) init oneHandshake = some s ∧
      2 ∈ (s.links true).peers.getChannelsByType (fun _ => false) 2 ∧
      1 ∈ (s.links false).peers.getChannelsByType (fun _ => false) SRV_TYPE_GAME := by
  have hend : (Run.run (step twoServers) init oneHandshake).map (fun s =>
      (s.peer (false, 1), s.dialed (false, 1), (s.links false).closed 1, (s.links true).closed 2,
        s.wire (false, 1), s.wire (true, 2))) =
        some (some (true, 2), true, false, false, [], []) := by rfl
  -- no actor has anything left to do
  have hidle : ∀ a, (Run.run (step twoServers) init oneHandshake).map (fun s =>
      ((s.links false).mailbox a, (s.links false).running a, (s.links true).mailbox a,
        (s.links true).running a, s.answer (true, a))) = some ([], none, [], none, none)
    | 0 => rfl
    | _ + 1 => rfl
  obtain ⟨s, hrun, hs⟩ := Option.map_eq_some_iff.mp hend
  simp only [hrun, Option.map_some, Option.some.injEq, Prod.mk.injEq] at hs hidle
  obtain ⟨hpeer, hdialed, he, hf, hwire, hwire'⟩ := hs
  have hsettled : s.Settled (false, 1) (true, 2) := by
    refine ⟨?_, ?_, fun ⟨a, ha⟩ => ?_⟩
    · rintro (h | ⟨a, ⟨msg, h⟩ | ⟨pc, h⟩⟩)
      · exact h hwire
      · rw [(hidle a).1] at h
        exact List.not_mem_nil h
      · rw [(hidle a).2.1] at h
        cases h
    · rintro (h | ⟨a, ⟨msg, h⟩ | ⟨pc, h⟩⟩)
      · exact h hwire'
      · rw [(hidle a).2.2.1] at h
        exact List.not_mem_nil h
      · rw [(hidle a).2.2.2.1] at h
        cases h
    · rw [(hidle a).2.2.2.2] at ha
      cases ha
  have hfinish := handshakes_finish (by decide +kernel) hrun (by decide +kernel) hpeer hdialed he hf
    hsettled fun _ => false
  exact ⟨s, hrun, hfinish.1 rfl, hfinish.2 rfl rfl⟩

end Cluster

end Athena
