import Mathlib.Computability.StateTransition
import Mathlib.Data.Set.Card
import Mathlib.Data.List.Nodup

/-!
# Machines that call

A call takes steps of its own, on a state that all calls share, and it may call again.  The
calls that have not returned are a stack.  A call is known by how it began: what it was given,
and the shared state it found.

A call that is made while the same call is still open never returns; and where no open call is
made again, and every call gets on by its own measure, the machine halts.
-/

namespace Calls

open Relation StateTransition

universe u v w

/-- What a call does in a step. -/
inductive Act (φ : Type u) (γ : Type v) (ρ : Type w) where
  | ret (g : γ)
  | go (p : φ) (g : γ)
  /-- calls `q`, and is `p` when that returns -/
  | call (q p : φ) (g : γ)
  | stop (r : ρ)

/-- A call that has not returned. -/
structure Open (φ : Type u) (γ : Type v) where
  entry : φ
  since : γ
  now : φ

/-- The open calls, the last one on top, and the shared state. -/
inductive Config (φ : Type u) (γ : Type v) (ρ : Type w) where
  | run (calls : List (Open φ γ)) (g : γ)
  | stopped (r : ρ)

variable {φ : Type u} {γ : Type v} {ρ : Type w}

/-- A call as it begins. -/
def enter (q : φ) (g : γ) : Open φ γ := { entry := q, since := g, now := q }

namespace Open

/-- How the call began. -/
def key (c : Open φ γ) : φ × γ := (c.entry, c.since)

/-- A new call is known by what it is entered with. -/
@[simp] theorem key_enter (q : φ) (g : γ) : (enter q g).key = (q, g) := rfl

/-- A call keeps its key while it goes on. -/
@[simp] theorem key_now (c : Open φ γ) (p : φ) : { c with now := p }.key = c.key := rfl

end Open

section

variable (act : γ → φ → Act φ γ ρ)

/-- The call on top takes a step. -/
def step : Config φ γ ρ → Option (Config φ γ ρ)
  | .run [] _ => none
  | .run (c :: cs) g =>
    match act g c.now with
    | .ret g => some (.run cs g)
    | .go p g => some (.run ({ c with now := p } :: cs) g)
    | .call q p g => some (.run (enter q g :: { c with now := p } :: cs) g)
    | .stop r => some (.stopped r)
  | .stopped _ => none

end

variable {act : γ → φ → Act φ γ ρ}

/-- The call on top goes on. -/
theorem step_go {c : Open φ γ} {g g' : γ} {p : φ} (h : act g c.now = .go p g')
    (cs : List (Open φ γ)) :
    step act (.run (c :: cs) g) = some (.run ({ c with now := p } :: cs) g') := by
  rw [step, h]

/-- The call on top calls another, which comes on top of it. -/
theorem step_call {c : Open φ γ} {g g' : γ} {q p : φ} (h : act g c.now = .call q p g')
    (cs : List (Open φ γ)) :
    step act (.run (c :: cs) g) = some (.run (enter q g' :: { c with now := p } :: cs) g') := by
  rw [step, h]

/-- A call stops the machine. -/
theorem step_stop {c : Open φ γ} {g : γ} {r : ρ} (h : act g c.now = .stop r)
    (cs : List (Open φ γ)) : step act (.run (c :: cs) g) = some (.stopped r) := by
  rw [step, h]

/-- The machine comes to rest only when no call is open. -/
theorem eq_nil_of_step {calls : List (Open φ γ)} {g : γ}
    (h : step act (.run calls g) = none) : calls = [] := by
  cases calls with
  | nil => rfl
  | cons c cs =>
    rw [step] at h
    cases hact : act g c.now <;> rw [hact] at h <;> exact nomatch h

/-- The machine stops where a call does. -/
theorem stop_of_step {m : Config φ γ ρ} {r : ρ} (h : step act m = some (.stopped r)) :
    ∃ c cs g, m = .run (c :: cs) g ∧ act g c.now = .stop r := by
  cases m with
  | stopped r' => exact nomatch h
  | run calls g =>
    cases calls with
    | nil => exact nomatch h
    | cons c cs =>
      rw [step] at h
      cases hact : act g c.now with
      | stop r' =>
        rw [hact] at h
        rw [← Config.stopped.inj (Option.some.inj h)]
        exact ⟨c, cs, g, rfl, hact⟩
      | _ =>
        rw [hact] at h
        exact nomatch Option.some.inj h

/-- A step, whatever stands below the call that makes it. -/
theorem step_run {c : Open φ γ} {cs calls : List (Open φ γ)} {g g' : γ}
    (h : step act (.run (c :: cs) g) = some (.run calls g')) :
    ∃ new, calls = new ++ cs ∧
      (∀ rest, step act (.run (c :: rest) g) = some (.run (new ++ rest) g')) ∧
      (new = [] ∨ (∃ p, new = [{ c with now := p }]) ∨
        ∃ q p, act g c.now = .call q p g' ∧ new = [enter q g', { c with now := p }]) := by
  -- by what the call on top does
  simp only [step] at h ⊢
  cases hact : act g c.now with
  | ret g₁ =>
    rw [hact] at h
    obtain ⟨rfl, rfl⟩ := Config.run.inj (Option.some.inj h)
    exact ⟨[], rfl, fun rest => rfl, .inl rfl⟩
  | go p g₁ =>
    rw [hact] at h
    obtain ⟨rfl, rfl⟩ := Config.run.inj (Option.some.inj h)
    exact ⟨[_], rfl, fun rest => rfl, .inr (.inl ⟨p, rfl⟩)⟩
  | call q p g₁ =>
    rw [hact] at h
    obtain ⟨rfl, rfl⟩ := Config.run.inj (Option.some.inj h)
    exact ⟨[_, _], rfl, fun rest => rfl, .inr (.inr ⟨q, p, rfl, rfl⟩)⟩
  | stop r =>
    rw [hact] at h
    exact nomatch Option.some.inj h

/-! ## Runs that never end -/

/-- A machine that comes from every state of `K` to one of `K` again does not halt. -/
theorem not_mem_eval_of_recurs {σ : Type*} {f : σ → Option σ} {K : σ → Prop}
    (hK : ∀ s, K s → ∃ s', K s' ∧ Reaches₁ f s s') {a s b : σ} (hreach : Reaches f a s)
    (hs : K s) : b ∉ eval f a := by
  intro hb
  rw [reaches_eval hreach] at hb
  refine evalInduction (C := fun s => ∀ k, K k → ¬ Reaches f s k) hb ?_ s hs .refl
  intro s _ ih k hk hsk
  obtain ⟨k', hk', hstep⟩ := hK k hk
  -- the step that leads on from `s` leads to `k'`
  obtain ⟨s', hs', hrest⟩ := TransGen.head'_iff.mp (TransGen.trans_right hsk hstep)
  exact ih s' hs' k' hk' hrest

/-- A run that comes back to a state it has been in has no end. -/
theorem not_mem_eval_of_loop {σ : Type*} {f : σ → Option σ} {a s b : σ}
    (hreach : Reaches f a s) (hloop : Reaches₁ f s s) : b ∉ eval f a :=
  not_mem_eval_of_recurs (K := (· = s)) (fun _ hs => ⟨s, rfl, hs ▸ hloop⟩) hreach rfl

/-- What a stack does, it does on any other stack. -/
theorem step_append {cs cs' : List (Open φ γ)} {g g' : γ}
    (h : step act (.run cs g) = some (.run cs' g')) (below : List (Open φ γ)) :
    step act (.run (cs ++ below) g) = some (.run (cs' ++ below) g') := by
  cases cs with
  | nil => exact nomatch h
  | cons c cs =>
    obtain ⟨new, rfl, hstep, -⟩ := step_run h
    rw [List.append_assoc]
    exact hstep (cs ++ below)

/-- What calls do does not depend on the calls below them. -/
theorem reaches₁_append {cs cs' : List (Open φ γ)} {g g' : γ}
    (h : Reaches₁ (step act) (.run cs g) (.run cs' g')) (below : List (Open φ γ)) :
    Reaches₁ (step act) (.run (cs ++ below) g) (.run (cs' ++ below) g') := by
  generalize hm : Config.run cs' g' = m at h
  induction h generalizing cs' g' with
  | single hstep =>
    subst hm
    exact .single (step_append hstep below)
  | @tail m₁ m₂ hfirst hstep ih =>
    subst hm
    cases m₁ with
    | run cs₁ g₁ => exact .tail (ih rfl) (step_append hstep below)
    | stopped r => exact nomatch hstep

/-- What is on top of an open call is what that call has come to, on a stack of its own. -/
def Config.Traced (act : γ → φ → Act φ γ ρ) : Config φ γ ρ → Prop
  | .run calls g => ∀ above c below, calls = above ++ c :: below →
      Reaches (step act) (.run [enter c.entry c.since] c.since) (.run (above ++ [c]) g)
  | .stopped _ => True

/-- A call that has just been entered has come to nothing yet. -/
theorem traced_enter (q : φ) (g : γ) : (Config.run [enter q g] g).Traced act := by
  intro above c below heq
  obtain ⟨rfl, hbelow⟩ := List.singleton_eq_append_iff.mp heq |>.resolve_right fun h => by
    exact absurd h.2 (List.cons_ne_nil _ _)
  obtain ⟨rfl, -⟩ := List.cons.inj hbelow
  exact .refl

/-- A step keeps what every open call has come to. -/
theorem traced_step {m m' : Config φ γ ρ} (h : m.Traced act)
    (hstep : step act m = some m') : m'.Traced act := by
  cases m with
  | stopped r => exact nomatch hstep
  | run calls g =>
    cases m' with
    | stopped r => trivial
    | run calls' g' =>
      cases calls with
      | nil => exact nomatch hstep
      | cons c cs =>
        obtain ⟨new, rfl, hany, hnew⟩ := step_run hstep
        -- the call on top has come to what it does now
        have hfirst : Reaches (step act) (.run [enter c.entry c.since] c.since)
            (.run (new ++ []) g') := (h [] c cs rfl).tail (hany [])
        intro above d below heq
        -- the call was there before
        have hbefore (above' : List (Open φ γ)) (hcs : cs = above' ++ d :: below) :
            Reaches (step act) (.run [enter d.entry d.since] d.since)
              (.run (new ++ (above' ++ [d])) g') :=
          (h (c :: above') d below (by rw [hcs, List.cons_append])).tail (hany (above' ++ [d]))
        obtain ⟨above', rfl, hcs⟩ | ⟨new', rfl, hd⟩ := List.append_eq_append_iff.mp heq
        · rw [List.append_assoc]
          exact hbefore above' hcs
        · cases new' with
          | nil =>
            rw [← List.append_nil above]
            exact hbefore [] hd.symm
          | cons d' new' =>
            obtain ⟨rfl, rfl⟩ := List.cons.inj hd
            -- the call on top went on, or it has called
            obtain hnil | ⟨p, hone⟩ | ⟨q, p, hcall, htwo⟩ := hnew
            · exact absurd hnil (List.append_ne_nil_of_right_ne_nil _ (List.cons_ne_nil _ _))
            · obtain ⟨rfl, rfl, rfl⟩ : above = [] ∧ d = { c with now := p } ∧ new' = [] := by
                simpa [List.append_eq_singleton_iff] using hone
              exact hfirst
            · cases above with
              | nil =>
                -- the call that has just begun
                obtain ⟨rfl, -⟩ := List.cons.inj htwo
                exact .refl
              | cons d₀ above =>
                obtain ⟨rfl, hone⟩ := List.cons.inj htwo
                obtain ⟨rfl, rfl, rfl⟩ : above = [] ∧ d = { c with now := p } ∧ new' = [] := by
                  simpa [List.append_eq_singleton_iff] using hone
                exact hfirst

/-- In every state that a call reaches, each open call has come to where it is by its own steps. -/
theorem traced_reaches {m m' : Config φ γ ρ} (h : m.Traced act) (hreach : Reaches (step act) m m') :
    m'.Traced act := by
  induction hreach with
  | refl => exact h
  | tail _ hstep ih => exact traced_step ih hstep

/-- A call that is made while it is open never returns. -/
theorem not_mem_eval_of_recall {q₀ q p : φ} {g₀ g g' : γ} {c : Open φ γ} {cs : List (Open φ γ)}
    (hreach : Reaches (step act) (.run [enter q₀ g₀] g₀) (.run (c :: cs) g))
    (hcall : act g c.now = .call q p g') (hopen : (q, g') ∈ (c :: cs).map Open.key)
    (b : Config φ γ ρ) : b ∉ eval (step act) (.run [enter q₀ g₀] g₀) := by
  obtain ⟨d, hd, hkey⟩ := List.mem_map.mp hopen
  obtain ⟨rfl, rfl⟩ := Prod.mk.inj hkey
  obtain ⟨above, below, heq⟩ := List.append_of_mem hd
  have htrace := traced_reaches (traced_enter q₀ g₀) hreach above d below heq
  -- the open call comes to the same call on top of itself
  obtain ⟨rest, hrest⟩ : ∃ rest, above ++ [d] = c :: rest := by
    cases above with
    | nil => exact ⟨[], by rw [(List.cons.inj heq).1, List.nil_append]⟩
    | cons c' above => exact ⟨above ++ [d], by rw [(List.cons.inj heq).1, List.cons_append]⟩
  rw [hrest] at htrace
  have hloop := TransGen.tail' htrace (step_call hcall rest)
  refine not_mem_eval_of_recurs
    (K := fun m => ∃ below, m = .run (enter d.entry d.since :: below) d.since) ?_
    (hreach.tail (step_call hcall cs)) ⟨_, rfl⟩
  intro m ⟨below, hm⟩
  subst hm
  exact ⟨_, ⟨_, rfl⟩, reaches₁_append hloop below⟩

/-! ## Machines that halt -/

/-- `I` holds of the shared state and `P` of every call, now and when it began. -/
def Config.All (I : γ → Prop) (E P : φ → Prop) : Config φ γ ρ → Prop
  | .run calls g => I g ∧ ∀ c ∈ calls, E c.entry ∧ I c.since ∧ P c.now
  | .stopped _ => True

/-- What a step leaves. -/
def Act.All (I : γ → Prop) (E P : φ → Prop) : Act φ γ ρ → Prop
  | .ret g => I g
  | .go p g => I g ∧ P p
  | .call q p g => I g ∧ E q ∧ P p
  | .stop _ => True

/-- A step keeps what holds of the shared state and of every call. -/
theorem all_step {I : γ → Prop} {E P : φ → Prop} (hEP : ∀ q, E q → P q)
    (hact : ∀ g p, I g → P p → (act g p).All I E P) {m m' : Config φ γ ρ} (h : m.All I E P)
    (hstep : step act m = some m') : m'.All I E P := by
  cases m with
  | stopped r => exact nomatch hstep
  | run calls g =>
    cases calls with
    | nil => exact nomatch hstep
    | cons c cs =>
      -- the caller on top acts; what is below it waits and keeps its promise
      obtain ⟨hg, hcalls⟩ := h
      obtain ⟨⟨hentry, hsince, hnow⟩, hcs⟩ := List.forall_mem_cons.mp hcalls
      have hall := hact g c.now hg hnow
      rw [step] at hstep
      cases hc : act g c.now with
      | ret g' =>
        rw [hc] at hstep hall
        obtain rfl := Option.some.inj hstep
        exact ⟨hall, hcs⟩
      | go p g' =>
        -- the same call goes on in another place
        rw [hc] at hstep hall
        obtain rfl := Option.some.inj hstep
        exact ⟨hall.1, List.forall_mem_cons.mpr ⟨⟨hentry, hsince, hall.2⟩, hcs⟩⟩
      | call q p g' =>
        -- the callee is entered, the caller waits where it will go on
        rw [hc] at hstep hall
        obtain rfl := Option.some.inj hstep
        obtain ⟨hg', hq, hp⟩ := hall
        exact ⟨hg', List.forall_mem_cons.mpr ⟨⟨hq, hg', hEP q hq⟩,
          List.forall_mem_cons.mpr ⟨⟨hentry, hsince, hp⟩, hcs⟩⟩⟩
      | stop r =>
        rw [hc] at hstep
        obtain rfl := Option.some.inj hstep
        trivial

/-- What every act keeps holds in all states that are reached. -/
theorem all_reaches {I : γ → Prop} {E P : φ → Prop} (hEP : ∀ q, E q → P q)
    (hact : ∀ g p, I g → P p → (act g p).All I E P) {m m' : Config φ γ ρ} (h : m.All I E P)
    (hreach : Reaches (step act) m m') : m'.All I E P := by
  induction hreach with
  | refl => exact h
  | tail _ hstep ih => exact all_step hEP hact ih hstep

/-- The call on top gets on by `R`, and makes no call that is open. -/
def Config.GetsOn (act : γ → φ → Act φ γ ρ) (R : φ → φ → Prop) : Config φ γ ρ → Prop
  | .run (c :: cs) g =>
    match act g c.now with
    | .ret _ => True
    | .go p _ => R p c.now
    | .call q p g' => R p c.now ∧ (q, g') ∉ (c :: cs).map Open.key
    | .stop _ => True
  | _ => True

/-- The call on top returns, or the machine halts above it. -/
def Settles (act : γ → φ → Act φ γ ρ) (c : Open φ γ) (cs : List (Open φ γ)) (g : γ) : Prop :=
  (∃ b, b ∈ eval (step act) (.run (c :: cs) g)) ∨
    ∃ g', Reaches (step act) (.run (c :: cs) g) (.run cs g')

/-- A call settles if what it comes to does. -/
theorem Settles.of_reaches {c c' : Open φ γ} {cs : List (Open φ γ)} {g g' : γ}
    (hreach : Reaches (step act) (.run (c :: cs) g) (.run (c' :: cs) g'))
    (h : Settles act c' cs g') : Settles act c cs g := by
  obtain ⟨b, hb⟩ | ⟨g₁, hg₁⟩ := h
  · exact .inl ⟨b, by rwa [reaches_eval hreach]⟩
  · exact .inr ⟨g₁, hreach.trans hg₁⟩

section

variable {m₀ : Config φ γ ρ} {R : φ → φ → Prop}
  (hgets : ∀ m, Reaches (step act) m₀ m → m.GetsOn act R)

include hgets

/-- No call is open twice. -/
theorem nodup_key {calls : List (Open φ γ)} {g g₀ : γ} {q₀ : φ}
    (hinit : m₀ = .run [enter q₀ g₀] g₀) (hreach : Reaches (step act) m₀ (.run calls g)) :
    (calls.map Open.key).Nodup := by
  generalize hm : Config.run calls g = m at hreach
  -- by induction on the run: only a call adds a key, and `GetsOn` says that it is not open
  induction hreach generalizing calls g with
  | refl =>
    rw [hinit] at hm
    obtain ⟨rfl, -⟩ := Config.run.inj hm
    exact List.nodup_singleton _
  | @tail m m' hfirst hstep ih =>
    subst hm
    have hnow := hgets m hfirst
    cases m with
    | stopped r => exact nomatch hstep
    | run calls' g' =>
      cases calls' with
      | nil => exact nomatch hstep
      | cons c cs =>
        have hbefore := ih rfl
        obtain ⟨new, rfl, -, rfl | ⟨p, rfl⟩ | ⟨q, p, hcall, rfl⟩⟩ := step_run hstep
        · exact (List.nodup_cons.mp hbefore).2
        · exact hbefore
        · rw [Config.GetsOn, hcall] at hnow
          exact List.nodup_cons.mpr ⟨hnow.2, hbefore⟩

variable {S : Set (φ × γ)} (hS : S.Finite) (hR : WellFounded R) {q₀ : φ} {g₀ : γ}
  (hinit : m₀ = .run [enter q₀ g₀] g₀)
  (hkeys : ∀ calls g, Reaches (step act) m₀ (.run calls g) → ∀ c ∈ calls, c.key ∈ S)

include hS hinit hkeys in
/-- There are only so many calls to be open. -/
theorem length_le_ncard {calls : List (Open φ γ)} {g : γ}
    (hreach : Reaches (step act) m₀ (.run calls g)) : calls.length ≤ S.ncard := by
  classical
  have hnodup := nodup_key hgets hinit hreach
  rw [← List.length_map (f := Open.key), ← List.toFinset_card_of_nodup hnodup,
    ← Set.ncard_coe_finset]
  refine Set.ncard_le_ncard ?_ hS
  intro key hkey
  obtain ⟨c, hc, rfl⟩ := List.mem_map.mp (List.mem_toFinset.mp (Finset.mem_coe.mp hkey))
  exact hkeys calls g hreach c hc

include hR in
/-- A call settles if all that it calls do: on its measure. -/
theorem settles_of_callees {cs : List (Open φ γ)}
    (hcallees : ∀ c c' g, Reaches (step act) m₀ (.run (c' :: c :: cs) g) →
      Settles act c' (c :: cs) g)
    (p : φ) (c : Open φ γ) (hp : c.now = p) (g : γ)
    (hreach : Reaches (step act) m₀ (.run (c :: cs) g)) : Settles act c cs g := by
  -- by induction on the measure of the call on top
  induction p using hR.induction generalizing c g with
  | _ p ih =>
    subst hp
    have hnow := hgets _ hreach
    rw [Config.GetsOn] at hnow
    cases hact : act g c.now with
    | ret g' => exact .inr ⟨g', .single (by rw [step, hact]; rfl)⟩
    | go p' g' =>
      rw [hact] at hnow
      have hstep := step_go hact cs
      exact .of_reaches (.single hstep) (ih p' hnow _ rfl g' (hreach.tail hstep))
    | call q p' g' =>
      rw [hact] at hnow
      have hstep : Reaches (step act) (.run (c :: cs) g)
          (.run (enter q g' :: { c with now := p' } :: cs) g') :=
        .single (step_call hact cs)
      -- the callee halts the machine, or it returns and the caller goes on
      obtain ⟨b, hb⟩ | ⟨g₁, hg₁⟩ := hcallees _ _ g' (hreach.trans hstep)
      · exact .inl ⟨b, by rwa [reaches_eval hstep]⟩
      · have hback := hstep.trans hg₁
        exact .of_reaches hback (ih p' hnow.1 _ rfl g₁ (hreach.trans hback))
    | stop r =>
      exact .inl ⟨.stopped r, mem_eval.mpr ⟨.single (step_stop hact cs), rfl⟩⟩

include hS hR hinit hkeys in
/-- With `n` keys left that are not open, the call on top settles: it can stack up no more than
    `n` calls. -/
theorem settles (n : Nat) (c : Open φ γ) (cs : List (Open φ γ)) (g : γ)
    (hreach : Reaches (step act) m₀ (.run (c :: cs) g)) (hn : S.ncard ≤ (c :: cs).length + n) :
    Settles act c cs g := by
  -- on the calls that can still be open above
  induction n generalizing c cs g with
  | zero =>
    refine settles_of_callees hgets hR (fun c c' g hcallee => ?_) c.now c rfl g hreach
    have hbound := length_le_ncard hgets hS hinit hkeys hcallee
    simp only [List.length_cons] at hn hbound
    omega
  | succ n ih =>
    refine settles_of_callees hgets hR (fun c c' g hcallee => ?_) c.now c rfl g hreach
    refine ih c' (c :: cs) g hcallee ?_
    simp only [List.length_cons] at hn ⊢
    omega

include hS hR hinit hkeys in
/-- The machine halts. -/
theorem exists_mem_eval : ∃ b, b ∈ eval (step act) m₀ := by
  have hinit' : Reaches (step act) m₀ (.run [enter q₀ g₀] g₀) := hinit ▸ .refl
  obtain ⟨b, hb⟩ | ⟨g, hg⟩ :=
    settles hgets hS hR hinit hkeys S.ncard (enter q₀ g₀) [] g₀ hinit' (by omega)
  · exact ⟨b, hinit ▸ hb⟩
  · exact ⟨.run [] g, hinit ▸ mem_eval.mpr ⟨hg, rfl⟩⟩

end

end Calls
