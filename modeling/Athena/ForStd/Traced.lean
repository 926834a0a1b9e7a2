/-!
# Programs that tell what they do

A program runs on a state; it goes on, has returned or is stuck, and its trace says what it has
done.  A monitor follows the trace of one program: it knows what is allowed next, and how much of
a step can be seen from outside.  `Simulates` says that another program does what can be seen, as
long as the monitor allows it.
-/

namespace Athena

/-- How a program ends. -/
inductive Ending where
  | next
  | returned
  | stuck
  deriving DecidableEq, Repr

/-- What a run leaves. -/
structure Outcome (σ ε : Type) where
  ending : Ending
  state : σ
  trace : List ε

/-- Whether the run went on, and its state. -/
def Outcome.result {σ ε : Type} (o : Outcome σ ε) : Option (Bool × σ) :=
  match o.ending with
  | .next => some (true, o.state)
  | .returned => some (false, o.state)
  | .stuck => none

/-- A program on states `σ`, with steps `ε`. -/
abbrev Traced (σ ε : Type) := σ → Outcome σ ε

namespace Traced

variable {σ ε : Type}

/-- A program that does nothing. -/
def skip : Traced σ ε := fun s => { ending := .next, state := s, trace := [] }

/-- A step that only shows. -/
def emit (e : ε) : Traced σ ε := fun s => { ending := .next, state := s, trace := [e] }

/-- A program that has no outcome. -/
def stuck : Traced σ ε := fun s => { ending := .stuck, state := s, trace := [] }

/-- One and then the other, unless the first does not go on. -/
def andThen (a b : Traced σ ε) : Traced σ ε := fun s =>
  match (a s).ending with
  | .next =>
    { ending := (b (a s).state).ending, state := (b (a s).state).state
      trace := (a s).trace ++ (b (a s).state).trace }
  | _ => a s

/-- One or the other. -/
def branch (test : σ → Option Bool) (a b : Traced σ ε) : Traced σ ε := fun s =>
  match test s with
  | some true => a s
  | some false => b s
  | none => stuck s

/-- So many turns of a loop, the first with the number `k`. -/
def turns (body : Nat → Traced σ ε) : Nat → Nat → Traced σ ε
  | 0, _ => skip
  | n + 1, k => (body k).andThen (turns body n (k + 1))

/-- Where the first program goes on, both leave the second's end and the two traces. -/
theorem andThen_next {a : Traced σ ε} {s : σ} (h : (a s).ending = .next) (b : Traced σ ε) :
    a.andThen b s =
      { ending := (b (a s).state).ending, state := (b (a s).state).state
        trace := (a s).trace ++ (b (a s).state).trace } := by
  rw [andThen, h]

/-- Where the first program does not go on, the second is not run. -/
theorem andThen_of_ne {a : Traced σ ε} {s : σ} (h : (a s).ending ≠ .next) (b : Traced σ ε) :
    a.andThen b s = a s := by
  rw [andThen]
  cases hend : (a s).ending with
  | next => exact absurd hend h
  | returned => rfl
  | stuck => rfl

/-- Nothing before a program. -/
@[simp] theorem skip_andThen (a : Traced σ ε) : skip.andThen a = a := rfl

/-- Nothing behind a program. -/
@[simp] theorem andThen_skip (a : Traced σ ε) : a.andThen skip = a := by
  funext s
  by_cases h : (a s).ending = .next
  · rw [andThen_next h]
    simp only [skip, List.append_nil, ← h]
  · rw [andThen_of_ne h]

/-- Programs one after another need no brackets. -/
theorem andThen_assoc (a b c : Traced σ ε) :
    (a.andThen b).andThen c = a.andThen (b.andThen c) := by
  funext s
  by_cases ha : (a s).ending = .next
  · by_cases hb : (b (a s).state).ending = .next
    · rw [andThen_next (by rw [andThen_next ha]; exact hb), andThen_next ha, andThen_next ha,
        andThen_next hb, List.append_assoc]
    · rw [andThen_of_ne (by rw [andThen_next ha]; exact hb), andThen_next ha, andThen_next ha,
        andThen_of_ne hb]
  · rw [andThen_of_ne (by rwa [andThen_of_ne ha]), andThen_of_ne ha, andThen_of_ne ha]

end Traced

/-- What is known of a run (`γ`), which steps are allowed then, and what can be seen of a step. -/
structure Monitor (γ ε ω : Type) where
  ok : γ → ε → Prop
  next : γ → ε → γ
  seen : ε → List ω

namespace Monitor

variable {γ ε ω σ σ' : Type} (M : Monitor γ ε ω)

/-- Each step is allowed when it is done. -/
def Allows : γ → List ε → Prop
  | _, [] => True
  | c, e :: l => M.ok c e ∧ Allows (M.next c e) l

/-- What is known after a trace. -/
def after (c : γ) (l : List ε) : γ := l.foldl M.next c

/-- What is known after two traces, one behind the other. -/
@[simp] theorem after_append (c : γ) (l l' : List ε) :
    M.after c (l ++ l') = M.after (M.after c l) l' := List.foldl_append

/-- Two traces are allowed if the second is allowed after the first. -/
theorem allows_append (c : γ) (l l' : List ε) :
    M.Allows c (l ++ l') ↔ M.Allows c l ∧ M.Allows (M.after c l) l' := by
  induction l generalizing c with
  | nil => exact ⟨fun h => ⟨trivial, h⟩, fun h => h.2⟩
  | cons e l ih => simp only [List.cons_append, Allows, ih, and_assoc, after, List.foldl_cons]

/-- The second run ends as the first, with what can be seen of it as its trace; the states are
    in `Q` where the runs go on, and in `R` where they have returned. -/
structure Agrees (c : γ) (Q R : γ → σ → σ' → Prop) (o : Outcome σ ε) (o' : Outcome σ' ω) :
    Prop where
  ending : o'.ending = o.ending
  trace : o'.trace = o.trace.flatMap M.seen
  next : o.ending = .next → Q (M.after c o.trace) o.state o'.state
  returned : o.ending = .returned → R (M.after c o.trace) o.state o'.state

/-- From states in `P` the second program does what can be seen of the first, which does not get
    stuck. -/
def Simulates (P Q R : γ → σ → σ' → Prop) (a : Traced σ ε) (b : Traced σ' ω) : Prop :=
  ∀ c s s', P c s s' → (a s).ending ≠ .stuck → M.Allows c (a s).trace →
    M.Agrees c Q R (a s) (b s')

variable {M} {P Q R Q' R' : γ → σ → σ' → Prop}

/-- Doing nothing agrees with doing nothing. -/
theorem simulates_skip (h : ∀ c s s', P c s s' → Q c s s') :
    M.Simulates P Q R Traced.skip Traced.skip := fun c s s' hP _ _ =>
  { ending := rfl, trace := rfl, next := fun _ => h c s s' hP
    returned := fun hend => by cases hend }

/-- A step that only shows, and is not seen from outside. -/
theorem simulates_emit {e : ε} (hseen : M.seen e = [])
    (h : ∀ c s s', P c s s' → M.ok c e → Q (M.next c e) s s') :
    M.Simulates P Q R (Traced.emit e) Traced.skip := fun c s s' hP _ hallows =>
  { ending := rfl
    trace := by rw [Traced.emit, List.flatMap_singleton, hseen]; rfl
    next := fun _ => h c s s' hP hallows.1
    returned := fun hend => by cases hend }

/-- A simulation holds from fewer states, and into more. -/
theorem Simulates.mono {P' : γ → σ → σ' → Prop} {a : Traced σ ε} {b : Traced σ' ω}
    (h : M.Simulates P Q R a b) (hP : ∀ c s s', P' c s s' → P c s s')
    (hQ : ∀ c s s', Q c s s' → Q' c s s') (hR : ∀ c s s', R c s s' → R' c s s') :
    M.Simulates P' Q' R' a b := fun c s s' hs hstuck hallows =>
  let hagrees := h c s s' (hP c s s' hs) hstuck hallows
  { ending := hagrees.ending, trace := hagrees.trace
    next := fun hend => hQ _ _ _ (hagrees.next hend)
    returned := fun hend => hR _ _ _ (hagrees.returned hend) }

/-- Two simulations, one after the other: the states between them are those that the first
    leaves. -/
theorem Simulates.andThen {a a' : Traced σ ε} {b b' : Traced σ' ω}
    (h : M.Simulates P Q R a b) (h' : M.Simulates Q Q' R a' b') :
    M.Simulates P Q' R (a.andThen a') (b.andThen b') := by
  intro c s s' hP hstuck hallows
  by_cases hend : (a s).ending = .next
  · -- the first program goes on: both traces are followed, one behind the other
    rw [Traced.andThen_next hend] at hstuck hallows ⊢
    obtain ⟨hfirst, hsecond⟩ := (M.allows_append _ _ _).mp hallows
    have hagrees := h c s s' hP (by rw [hend]; decide) hfirst
    have hagrees' := h' _ _ _ (hagrees.next hend) hstuck hsecond
    rw [Traced.andThen_next (hagrees.ending.trans hend)]
    exact
      { ending := hagrees'.ending
        trace := by
          show _ ++ _ = List.flatMap M.seen (_ ++ _)
          rw [List.flatMap_append, hagrees.trace, hagrees'.trace]
        next := fun hend' => by
          have hQ := hagrees'.next hend'
          rwa [← M.after_append] at hQ
        returned := fun hend' => by
          have hR := hagrees'.returned hend'
          rwa [← M.after_append] at hR }
  · -- it does not: nothing is left of the second in either run
    rw [Traced.andThen_of_ne hend] at hstuck hallows ⊢
    have hagrees := h c s s' hP hstuck hallows
    rw [Traced.andThen_of_ne (by rwa [hagrees.ending])]
    exact
      { ending := hagrees.ending, trace := hagrees.trace
        next := fun hnext => absurd hnext hend
        returned := hagrees.returned }

/-- The first program shows what its test gives. -/
theorem Simulates.branch {test : σ → Option Bool} {test' : σ' → Option Bool} {e : Bool → ε}
    {a b : Traced σ ε} {a' b' : Traced σ' ω} (hseen : ∀ holds, M.seen (e holds) = [])
    (htest : ∀ c s s' holds, P c s s' → test s = some holds → M.ok c (e holds) →
      test' s' = some holds ∧ P (M.next c (e holds)) s s')
    (ha : M.Simulates P Q R a a') (hb : M.Simulates P Q R b b') :
    M.Simulates P Q R
      (Traced.branch test ((Traced.emit (e true)).andThen a) ((Traced.emit (e false)).andThen b))
      (Traced.branch test' a' b') := by
  intro c s s' hP hstuck hallows
  -- what was asked is only shown, so it is a step of the first program that the second lacks
  have hshow (holds : Bool) (hholds : test s = some holds) :
      M.Simulates (fun c₁ s₁ s₁' => c₁ = c ∧ s₁ = s ∧ s₁' = s') (fun c₁ s₁ s₁' => P c₁ s₁ s₁') R
        (Traced.emit (e holds)) Traced.skip := by
    apply simulates_emit (hseen holds)
    rintro _ _ _ ⟨rfl, rfl, rfl⟩ hok
    exact (htest _ _ _ holds hP hholds hok).2
  cases hs : test s with
  | none => exact absurd (by rw [Traced.branch, hs]; rfl) hstuck
  | some holds =>
    cases holds with
    | true =>
      rw [Traced.branch, hs] at hstuck hallows ⊢
      have hrun := (hshow true hs).andThen ha c s s' ⟨rfl, rfl, rfl⟩ hstuck hallows
      rwa [Traced.branch, (htest c s s' true hP hs hallows.1).1]
    | false =>
      rw [Traced.branch, hs] at hstuck hallows ⊢
      have hrun := (hshow false hs).andThen hb c s s' ⟨rfl, rfl, rfl⟩ hstuck hallows
      rwa [Traced.branch, (htest c s s' false hP hs hallows.1).1]

/-- The turns of two loops, with an invariant for each turn. -/
theorem Simulates.turns {I : Nat → γ → σ → σ' → Prop} {body : Nat → Traced σ ε}
    {body' : Nat → Traced σ' ω}
    (h : ∀ k, M.Simulates (I k) (I (k + 1)) R (body k) (body' k)) (n k : Nat) :
    M.Simulates (I k) (I (k + n)) R (Traced.turns body n k) (Traced.turns body' n k) := by
  induction n generalizing k with
  | zero => exact simulates_skip fun _ _ _ hI => hI
  | succ n ih =>
    have hrest := ih (k + 1)
    rw [Nat.add_assoc, Nat.add_comm 1 n] at hrest
    exact (h k).andThen hrest

end Monitor

end Athena
