import Athena.Spec.PeerLists

/-!
# The handshakes of one server

`Honest far s`: on each channel `c` the server has heard only what `far c` says of the other
end, in messages that wait, in handlers that run and in what its registry lists.  Every step
keeps this if the messages that are read do (`Honest.step`).  A handshake that a server
`Holds` for an open channel stays held until the channel is listed (`Keeps`).
-/

namespace Athena

/-- The other end of a channel, and whether this end has connected to it. -/
structure FarEnd where
  info : NodeInfo
  dialed : Bool

/-- Requests come from the end that has connected, responses from the other one. -/
def Handshake.Of (f : FarEnd) : Handshake → Prop
  | .req nodeInfo => nodeInfo = f.info ∧ f.dialed = false
  | .res service_id => service_id = f.info.service_id ∧ f.dialed = true

/-- What a handler works with comes from the other end. -/
def HandshakePc.Of (f : FarEnd) : HandshakePc → Prop
  | .saveNode nodeInfo => nodeInfo = f.info
  | .channelPtr service_id | .addNodeChannel service_id => service_id = f.info.service_id

/-- A handler starts with what its message says. -/
theorem Handshake.Of.start {f : FarEnd} {msg : Handshake} (h : msg.Of f) : msg.start.Of f := by
  cases msg with
  | req nodeInfo => exact h.1
  | res service_id => exact h.1

namespace PeerLinks

variable {s s' : PeerLinks}

/-! ## What a step does -/

/-- The steps of an actor, with the handshake that they are about. -/
inductive ActorStep (s : PeerLinks) (actor : Nat) : PeerLinks → Prop where
  | take (msg : Handshake) (c : ChannelRef) (rest : List (Handshake × ChannelRef))
      (hidle : s.running actor = none) (hbox : s.mailbox actor = (msg, c) :: rest) :
      ActorStep s actor ({ s with mailbox := Function.update s.mailbox actor rest }.goto actor
        (some (msg.start, c)))
  | saved (nodeInfo : NodeInfo) (c : ChannelRef)
      (hrun : s.running actor = some (.saveNode nodeInfo, c)) :
      ActorStep s actor ({ s with peers := s.peers.saveNode nodeInfo }.goto actor
        (some (.channelPtr nodeInfo.service_id, c)))
  | gone (service_id : String) (c : ChannelRef)
      (hrun : s.running actor = some (.channelPtr service_id, c))
      (hgone : service_id.isEmpty = true ∨ s.registered c = false) :
      ActorStep s actor (s.goto actor none)
  | found (service_id : String) (c : ChannelRef)
      (hrun : s.running actor = some (.channelPtr service_id, c)) :
      ActorStep s actor (s.goto actor (some (.addNodeChannel service_id, c)))
  | added (service_id : String) (c : ChannelRef)
      (hrun : s.running actor = some (.addNodeChannel service_id, c)) :
      ActorStep s actor ({ s with peers := s.peers.addNodeChannel service_id c }.goto actor none)

/-- An actor takes a message, or goes on with its handler. -/
theorem actorStep {actor : Nat} (h : s.runActor actor = some s') : ActorStep s actor s' := by
  rw [runActor] at h
  split at h
  · rename_i hidle
    split at h
    · cases h
    · rename_i msg c rest hbox
      obtain rfl := Option.some.inj h
      exact .take msg c rest hidle hbox
  · rename_i nodeInfo c hrun
    obtain rfl := Option.some.inj h
    exact .saved nodeInfo c hrun
  · rename_i service_id c hrun
    split at h
    · rename_i hgone
      obtain rfl := Option.some.inj h
      exact .gone service_id c hrun (by simpa using hgone)
    · obtain rfl := Option.some.inj h
      exact .found service_id c hrun
  · rename_i service_id c hrun
    obtain rfl := Option.some.inj h
    exact .added service_id c hrun

/-- The steps of a server, with what they need. -/
inductive LinkStep (s : PeerLinks) : PeerAct → PeerLinks → Prop where
  | connect (c : ChannelRef) (hnew : s.registered c = false) (hopen : s.closed c = false) :
      LinkStep s (.connect c) { s with registered := Function.update s.registered c true }
  | read (c : ChannelRef) (actor : Nat) (msg : Handshake) (hreg : s.registered c = true)
      (hopen : s.closed c = false) :
      LinkStep s (.read c actor msg)
        { s with mailbox := Function.update s.mailbox actor (s.mailbox actor ++ [(msg, c)]) }
  | onClosed (c : ChannelRef) (hreg : s.registered c = true) (hopen : s.closed c = false) :
      LinkStep s (.onClosed c)
        { s with
          peers := s.peers.removeNodeChannel c
          closed := Function.update s.closed c true }
  | releaseChannel (c : ChannelRef) (hreg : s.registered c = true) (hclosed : s.closed c = true) :
      LinkStep s (.releaseChannel c)
        { s with registered := Function.update s.registered c false }
  | actor (actor : Nat) {s' : PeerLinks} (hrun : s.runActor actor = some s') :
      LinkStep s (.actor actor) s'

/-- Every step is one of the list. -/
theorem linkStep {a : PeerAct} (h : s.step a = some s') : LinkStep s a s' := by
  cases a with
  | connect c =>
    simp only [step] at h
    split at h
    · cases h
    · rename_i hcond
      obtain rfl := Option.some.inj h
      simp only [Bool.or_eq_true, not_or, Bool.not_eq_true] at hcond
      exact .connect c hcond.1 hcond.2
  | read c actor msg =>
    simp only [step] at h
    split at h
    · rename_i hcond
      obtain rfl := Option.some.inj h
      simp only [Bool.and_eq_true, Bool.not_eq_true'] at hcond
      exact .read c actor msg hcond.1 hcond.2
    · cases h
  | onClosed c =>
    simp only [step] at h
    split at h
    · rename_i hcond
      obtain rfl := Option.some.inj h
      simp only [Bool.and_eq_true, Bool.not_eq_true'] at hcond
      exact .onClosed c hcond.1 hcond.2
    · cases h
  | releaseChannel c =>
    simp only [step] at h
    split at h
    · rename_i hcond
      obtain rfl := Option.some.inj h
      simp only [Bool.and_eq_true] at hcond
      exact .releaseChannel c hcond.1 hcond.2
    · cases h
  | actor actor => exact .actor actor h

/-! ## What is true of the other end -/

/-- What the server has heard on a channel comes from its other end. -/
structure Honest (ok : NodeInfo → Prop) (far : ChannelRef → Option FarEnd) (s : PeerLinks) :
    Prop where
  queued : ∀ a msg c, (msg, c) ∈ s.mailbox a → ∃ f, far c = some f ∧ msg.Of f
  running : ∀ a pc c, s.running a = some (pc, c) → ∃ f, far c = some f ∧ pc.Of f
  /-- a request has its node saved first -/
  known : ∀ a pc c f, s.running a = some (pc, c) → far c = some f → f.dialed = false →
    pc = .saveNode f.info ∨ s.peers.Known f.info.service_id
  there : ∀ c, far c ≠ none → s.registered c = true ∨ s.closed c = true
  lists : ∀ id c, s.peers.Lists id c → ∃ f, far c = some f ∧ f.info.service_id = id
  infos : ∀ info ∈ s.peers.infos, ok info
  listed : s.peers.Listed
  indexed : s.peers.Indexed

variable {ok : NodeInfo → Prop} {far : ChannelRef → Option FarEnd}

/-- Nothing has been heard yet. -/
theorem honest_init (ok : NodeInfo → Prop) : Honest ok (fun _ => none) init where
  queued a msg c h := absurd h List.not_mem_nil
  running a pc c h := by cases h
  known a pc c f h := by cases h
  there c h := absurd rfl h
  lists id c h := by
    obtain ⟨node, hnode, -⟩ := h
    cases hnode
  infos info h := absurd h List.not_mem_nil
  listed := .init
  indexed := .init

/-- A node that is saved from elsewhere. -/
theorem Honest.saveNode (h : Honest ok far s) {nodeInfo : NodeInfo} (hok : ok nodeInfo) :
    Honest ok far { s with peers := s.peers.saveNode nodeInfo } where
  queued := h.queued
  running := h.running
  known a pc c f hrun hfar hd := (h.known a pc c f hrun hfar hd).imp_right (·.saveNode nodeInfo)
  there := h.there
  lists id c hc := h.lists id c ((PeerConn.lists_saveNode nodeInfo).mp hc)
  infos info hinfo := (PeerConn.mem_infos_saveNode hinfo).elim (h.infos info) (· ▸ hok)
  listed := h.listed.saveNode nodeInfo
  indexed := h.indexed.saveNode nodeInfo

/-- An actor goes on with a handshake of an honest channel, or with none. -/
theorem Honest.goto (h : Honest ok far s) {actor : Nat} {pc : Option (HandshakePc × ChannelRef)}
    (hpc : ∀ p c, pc = some (p, c) → ∃ f, far c = some f ∧ p.Of f ∧
      (f.dialed = false → p = .saveNode f.info ∨ s.peers.Known f.info.service_id)) :
    Honest ok far (s.goto actor pc) where
  queued := h.queued
  running a p c hrun := by
    by_cases heq : a = actor
    · subst heq
      obtain ⟨f, hfar, hof, -⟩ := hpc p c (by simpa [PeerLinks.goto] using hrun)
      exact ⟨f, hfar, hof⟩
    · exact h.running a p c (by simpa [PeerLinks.goto, heq] using hrun)
  known a p c f hrun hfar hd := by
    by_cases heq : a = actor
    · subst heq
      obtain ⟨g, hg, -, hknown⟩ := hpc p c (by simpa [PeerLinks.goto] using hrun)
      obtain rfl : f = g := Option.some.inj (hfar.symm.trans hg)
      exact hknown hd
    · exact h.known a p c f (by simpa [PeerLinks.goto, heq] using hrun) hfar hd
  there := h.there
  lists := h.lists
  infos := h.infos
  listed := h.listed
  indexed := h.indexed

/-- An actor passes on what it has heard. -/
theorem Honest.runActor (h : Honest ok far s) (hok : ∀ c f, far c = some f → ok f.info)
    {actor : Nat} (hstep : s.runActor actor = some s') : Honest ok far s' := by
  cases actorStep hstep with
  | take msg c rest hidle hbox =>
    have hrest : Honest ok far { s with mailbox := Function.update s.mailbox actor rest } :=
      { h with
        queued := fun a m c' hm => by
          -- the rest of the mailbox was there before
          by_cases heq : a = actor
          · subst heq
            exact h.queued a m c' (by rw [hbox]; exact List.mem_cons_of_mem _ (by simpa using hm))
          · exact h.queued a m c' (by simpa [heq] using hm) }
    apply hrest.goto
    intro p c' hp
    obtain ⟨f, hfar, hof⟩ := h.queued actor msg c (by rw [hbox]; exact List.mem_cons_self)
    obtain ⟨rfl, rfl⟩ := Prod.mk.inj (Option.some.inj hp)
    refine ⟨f, hfar, hof.start, fun hd => ?_⟩
    cases msg with
    | req nodeInfo => exact .inl (by rw [← hof.1]; rfl)
    | res service_id =>
      rw [hof.2] at hd
      cases hd
  | saved nodeInfo c hrun =>
    obtain ⟨f, hfar, rfl⟩ := h.running actor _ c hrun
    apply (h.saveNode (hok c f hfar)).goto
    intro p c' hp
    obtain ⟨rfl, rfl⟩ := Prod.mk.inj (Option.some.inj hp)
    exact ⟨f, hfar, rfl, fun _ => .inr (PeerConn.known_saveNode_self s.peers f.info)⟩
  | gone service_id c hrun hgone => exact h.goto fun p c' hp => by cases hp
  | found service_id c hrun =>
    obtain ⟨f, hfar, hof⟩ := h.running actor _ c hrun
    apply h.goto
    intro p c' hp
    obtain ⟨rfl, rfl⟩ := Prod.mk.inj (Option.some.inj hp)
    refine ⟨f, hfar, hof, fun hd => ?_⟩
    exact .inr ((h.known actor _ c f hrun hfar hd).resolve_left fun heq => by cases heq)
  | added service_id c hrun =>
    obtain ⟨f, hfar, rfl⟩ := h.running actor _ c hrun
    have hadd : Honest ok far { s with peers := s.peers.addNodeChannel f.info.service_id c } :=
      { h with
        known := fun a p c' g hp hg hd => (h.known a p c' g hp hg hd).imp_right fun hknown => by
          rwa [PeerConn.Known, PeerConn.node_id_nodes_addNodeChannel]
        lists := fun id c' hc => by
          -- a channel is listed as before, or has been added under the id it was found with
          rcases (PeerConn.lists_addNodeChannel h.indexed).mp hc with hold | ⟨rfl, rfl, -⟩
          · exact h.lists id c' hold
          · exact ⟨f, hfar, rfl⟩
        infos := fun info hinfo => h.infos info (by rwa [PeerConn.infos_addNodeChannel] at hinfo)
        listed := h.listed.addNodeChannel _ c
        indexed := h.indexed.addNodeChannel _ c }
    exact hadd.goto fun p c' hp => by cases hp

/-- Every step keeps a server honest if the messages that it reads are. -/
theorem Honest.step (h : Honest ok far s) (hok : ∀ c f, far c = some f → ok f.info) {a : PeerAct}
    (hread : ∀ c actor msg, a = .read c actor msg → ∃ f, far c = some f ∧ msg.Of f)
    (hstep : PeerLinks.step s a = some s') : Honest ok far s' := by
  cases linkStep hstep with
  | connect c hnew hopen =>
    exact { h with
      there := fun c' hc => (h.there c' hc).imp_left fun hreg => by
        by_cases heq : c' = c <;> simp [heq, hreg] }
  | read c actor msg hreg hopen =>
    exact { h with
      queued := fun a m c' hm => by
        by_cases heq : a = actor
        · subst heq
          simp only [Function.update_self] at hm
          -- the message is read from the channel, so its other end has sent it
          rcases List.mem_append.mp hm with hold | hnew
          · exact h.queued a m c' hold
          · obtain ⟨rfl, rfl⟩ := Prod.mk.inj (List.mem_singleton.mp hnew)
            exact hread c' a m rfl
        · exact h.queued a m c' (by simpa [heq] using hm) }
  | onClosed c hreg hopen =>
    exact { h with
      known := h.known
      there := fun c' hc => (h.there c' hc).imp_right fun hclosed => by
        by_cases heq : c' = c <;> simp [heq, hclosed]
      lists := fun id c' hc => h.lists id c' ((PeerConn.lists_removeNodeChannel h.listed).mp hc).1
      infos := fun info hinfo => h.infos info (by rwa [PeerConn.infos_removeNodeChannel] at hinfo)
      listed := h.listed.removeNodeChannel c
      indexed := h.indexed.removeNodeChannel c }
  | releaseChannel c hreg hclosed =>
    exact { h with
      there := fun c' hc => by
        by_cases heq : c' = c
        · subst heq
          exact .inr hclosed
        · exact (h.there c' hc).imp_left fun hreg' => by simpa [heq] using hreg' }
  | actor actor hrun => exact h.runActor hok hrun

/-- More connections. -/
theorem Honest.extend (h : Honest ok far s) {far' : ChannelRef → Option FarEnd}
    (hfar : ∀ c f, far c = some f → far' c = some f)
    (hthere : ∀ c, far' c ≠ none → s.registered c = true ∨ s.closed c = true) :
    Honest ok far' s where
  queued a msg c hm := by
    obtain ⟨f, hf, hof⟩ := h.queued a msg c hm
    exact ⟨f, hfar c f hf, hof⟩
  running a pc c hrun := by
    obtain ⟨f, hf, hof⟩ := h.running a pc c hrun
    exact ⟨f, hfar c f hf, hof⟩
  known a pc c f hrun hf hd := by
    obtain ⟨g, hg, -⟩ := h.running a pc c hrun
    obtain rfl : f = g := Option.some.inj (hf.symm.trans (hfar c g hg))
    exact h.known a pc c f hrun hg hd
  there := hthere
  lists id c hc := by
    obtain ⟨f, hf, hid⟩ := h.lists id c hc
    exact ⟨f, hfar c f hf, hid⟩
  infos := h.infos
  listed := h.listed
  indexed := h.indexed

/-! ## Handshakes that are held -/

/-- The actor's own place. -/
@[simp] theorem running_goto_self (s : PeerLinks) (actor : Nat)
    (pc : Option (HandshakePc × ChannelRef)) : (s.goto actor pc).running actor = pc :=
  Function.update_self ..

/-- Another actor stays where it is. -/
theorem running_goto_of_ne {a actor : Nat} (h : a ≠ actor) (s : PeerLinks)
    (pc : Option (HandshakePc × ChannelRef)) : (s.goto actor pc).running a = s.running a :=
  Function.update_of_ne h ..

/-- What becomes of a channel that stays open: it stays listed under `id`, and a handshake
    that is held for it stays held until it is listed. -/
structure Keeps (id : String) (c : ChannelRef) (s s' : PeerLinks) : Prop where
  closed : s.closed c = true → s'.closed c = true
  lists : s'.closed c = false → s.peers.Lists id c → s'.peers.Lists id c
  holds : s'.closed c = false → s.Holds c →
    s'.Holds c ∨ s'.peers.Lists id c ∧ ∃ a pc, s.running a = some (pc, c)

variable {id : String} {c : ChannelRef}

/-- A step that changes nothing of this. -/
theorem Keeps.of_eq (hpeers : s'.peers = s.peers) (hclosed : s'.closed = s.closed)
    (hmailbox : s'.mailbox = s.mailbox) (hrunning : s'.running = s.running) : Keeps id c s s' where
  closed h := by rwa [hclosed]
  lists _ h := by rwa [hpeers]
  holds _ h := .inl (by rwa [Holds, hmailbox, hrunning])

/-- Saving a node takes no channel out. -/
theorem keeps_saveNode (s : PeerLinks) (nodeInfo : NodeInfo) :
    Keeps id c s { s with peers := s.peers.saveNode nodeInfo } where
  closed h := h
  lists _ h := (PeerConn.lists_saveNode nodeInfo).mpr h
  holds _ h := .inl h

/-- What another actor does for a channel goes on. -/
theorem Holds.goto {t : PeerLinks} (hmailbox : t.mailbox = s.mailbox)
    (hrunning : t.running = s.running) {actor : Nat} (pc : Option (HandshakePc × ChannelRef))
    (h : s.Holds c) : (t.goto actor pc).Holds c ∨ ∃ p, s.running actor = some (p, c) := by
  obtain ⟨a, ⟨msg, hmsg⟩ | ⟨p, hp⟩⟩ := h
  · exact .inl ⟨a, .inl ⟨msg, by rwa [PeerLinks.goto, hmailbox]⟩⟩
  · by_cases heq : a = actor
    · subst heq
      exact .inr ⟨p, hp⟩
    · refine .inl ⟨a, .inr ⟨p, ?_⟩⟩
      rwa [running_goto_of_ne heq, hrunning]

/-- A handler that goes on holds its channel. -/
theorem holds_goto_self (s : PeerLinks) (actor : Nat) (p : HandshakePc) (c : ChannelRef) :
    (s.goto actor (some (p, c))).Holds c :=
  ⟨actor, .inr ⟨p, running_goto_self ..⟩⟩

/-- A handler lists its channel, or holds it further. -/
theorem keeps_runActor (h : Honest ok far s) {f : FarEnd} (hfar : far c = some f)
    (hid : f.info.service_id ≠ "") {actor : Nat}
    (hknown : ∀ id, s.running actor = some (.addNodeChannel id, c) → s.peers.Known id)
    (hstep : s.runActor actor = some s') : Keeps f.info.service_id c s s' := by
  cases actorStep hstep with
  | take msg c' rest hidle hbox =>
    refine ⟨fun hc => hc, fun _ hc => hc, fun _ hc => .inl ?_⟩
    obtain ⟨a, ⟨m, hm⟩ | ⟨p, hp⟩⟩ := hc
    · by_cases heq : a = actor
      · subst heq
        rw [hbox] at hm
        rcases List.mem_cons.mp hm with hhead | htail
        · obtain ⟨rfl, rfl⟩ := Prod.mk.inj hhead
          exact holds_goto_self _ a m.start c
        · refine ⟨a, .inl ⟨m, ?_⟩⟩
          show (m, c) ∈ Function.update s.mailbox a rest a
          rwa [Function.update_self]
      · refine ⟨a, .inl ⟨m, ?_⟩⟩
        show (m, c) ∈ Function.update s.mailbox actor rest a
        rwa [Function.update_of_ne heq]
    · have hne : a ≠ actor := by
        rintro rfl
        rw [hidle] at hp
        cases hp
      refine ⟨a, .inr ⟨p, ?_⟩⟩
      rwa [running_goto_of_ne hne]
  | saved nodeInfo c' hrun =>
    refine ⟨fun hc => hc, fun _ hc => (PeerConn.lists_saveNode nodeInfo).mpr hc,
      fun _ hc => .inl ?_⟩
    rcases Holds.goto (t := { s with peers := s.peers.saveNode nodeInfo }) rfl rfl
      (some (.channelPtr nodeInfo.service_id, c')) hc with hother | ⟨p, hp⟩
    · exact hother
    · obtain ⟨-, rfl⟩ := Prod.mk.inj (Option.some.inj (hrun.symm.trans hp))
      exact holds_goto_self _ actor _ c'
  | gone service_id c' hrun hgone =>
    refine ⟨fun hc => hc, fun _ hc => hc, fun hopen hc => .inl ?_⟩
    rcases Holds.goto (t := s) rfl rfl none hc with hother | ⟨p, hp⟩
    · exact hother
    · -- an open channel is found
      obtain ⟨-, rfl⟩ := Prod.mk.inj (Option.some.inj (hrun.symm.trans hp))
      obtain ⟨g, hg, rfl⟩ := h.running actor _ c' hrun
      obtain rfl : f = g := Option.some.inj (hfar.symm.trans hg)
      have hopen' : s.closed c' = false := hopen
      have hreg := h.there c' (by rw [hfar]; exact Option.some_ne_none f)
      rw [hopen'] at hreg
      rcases hgone with hempty | hgone
      · exact absurd (String.isEmpty_iff.mp hempty) hid
      · rw [hgone] at hreg
        simp at hreg
  | found service_id c' hrun =>
    refine ⟨fun hc => hc, fun _ hc => hc, fun _ hc => .inl ?_⟩
    rcases Holds.goto (t := s) rfl rfl (some (.addNodeChannel service_id, c')) hc with
      hother | ⟨p, hp⟩
    · exact hother
    · obtain ⟨-, rfl⟩ := Prod.mk.inj (Option.some.inj (hrun.symm.trans hp))
      exact holds_goto_self _ actor _ c'
  | added service_id c' hrun =>
    refine ⟨fun hc => hc, fun _ hc => (PeerConn.lists_addNodeChannel h.indexed).mpr (.inl hc),
      fun _ hc => ?_⟩
    rcases Holds.goto (t := { s with peers := s.peers.addNodeChannel service_id c' }) rfl rfl
      none hc with hother | ⟨p, hp⟩
    · exact .inl hother
    · obtain ⟨-, rfl⟩ := Prod.mk.inj (Option.some.inj (hrun.symm.trans hp))
      obtain ⟨g, hg, rfl⟩ := h.running actor _ c' hrun
      obtain rfl : f = g := Option.some.inj (hfar.symm.trans hg)
      exact .inr ⟨(PeerConn.lists_addNodeChannel h.indexed).mpr (.inr ⟨rfl, rfl, hknown _ hrun⟩),
        actor, p, hp⟩

/-- A new connection leaves the registry of peers, and what actors do. -/
theorem connect_same {c' : ChannelRef} (hstep : s.step (.connect c') = some s') :
    s'.peers = s.peers ∧ s'.closed = s.closed ∧ s'.mailbox = s.mailbox ∧
      s'.running = s.running := by
  cases linkStep hstep with
  | connect _ hnew hopen => exact ⟨rfl, rfl, rfl, rfl⟩

/-- A message comes behind the others. -/
theorem keeps_read {c' : ChannelRef} {actor : Nat} {msg : Handshake}
    (hstep : s.step (.read c' actor msg) = some s') : Keeps id c s s' := by
  cases linkStep hstep with
  | read _ _ _ hreg hopen =>
    have hmem : ∀ a m d, (m, d) ∈ s.mailbox a → (m, d) ∈ Function.update s.mailbox actor
        (s.mailbox actor ++ [(msg, c')]) a := by
      intro a m d hm
      by_cases heq : a = actor
      · subst heq
        rw [Function.update_self]
        exact List.mem_append_left _ hm
      · rwa [Function.update_of_ne heq]
    refine ⟨fun hc => hc, fun _ hc => hc, fun _ hc => .inl ?_⟩
    obtain ⟨a, ⟨m, hm⟩ | hp⟩ := hc
    · exact ⟨a, .inl ⟨m, hmem a m c hm⟩⟩
    · exact ⟨a, .inr hp⟩

/-- A handshake is held once it is read. -/
theorem holds_read {actor : Nat} {msg : Handshake}
    (hstep : s.step (.read c actor msg) = some s') : s'.Holds c := by
  cases linkStep hstep with
  | read _ _ _ hreg hopen =>
    refine ⟨actor, .inl ⟨msg, ?_⟩⟩
    show (msg, c) ∈ Function.update s.mailbox actor (s.mailbox actor ++ [(msg, c)]) actor
    rw [Function.update_self]
    exact List.mem_append_right _ (List.mem_singleton_self _)

/-- A channel that closes takes no other channel with it. -/
theorem keeps_onClosed (h : Honest ok far s) {c' : ChannelRef}
    (hstep : s.step (.onClosed c') = some s') : Keeps id c s s' := by
  cases linkStep hstep with
  | onClosed _ hreg hopen =>
    refine ⟨fun hc => ?_, fun hopen' hc => ?_, fun _ hc => .inl hc⟩
    · show Function.update s.closed c' true c = true
      rw [Function.update_apply, hc, ite_self]
    · have hne : c ≠ c' := by
        rintro rfl
        simp at hopen'
      exact (PeerConn.lists_removeNodeChannel h.listed).mpr ⟨hc, hne⟩

/-- A channel that is released has been closed. -/
theorem keeps_releaseChannel {c' : ChannelRef} (hstep : s.step (.releaseChannel c') = some s') :
    Keeps id c s s' := by
  cases linkStep hstep with
  | releaseChannel _ hreg hclosed => exact .of_eq rfl rfl rfl rfl

/-- Only an actor changes what it runs. -/
theorem running_step {a : PeerAct} (hstep : s.step a = some s')
    (hother : ∀ actor, a ≠ .actor actor) : s'.running = s.running := by
  cases linkStep hstep with
  | actor actor hrun => exact absurd rfl (hother actor)
  | connect c hnew hopen => rfl
  | read c actor msg hreg hopen => rfl
  | onClosed c hreg hopen => rfl
  | releaseChannel c hreg hclosed => rfl

end PeerLinks

end Athena
