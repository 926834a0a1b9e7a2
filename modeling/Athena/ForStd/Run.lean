/-!
# Runs of a step function

A system is a step function `σ → α → Option σ`: `none` means that the action is not
enabled.  `run` performs a list of actions, `Meets ok` says that every step of a
run is taken in a state where `ok` holds of the action, and the invariant rules
turn what one step preserves into what a whole run preserves.
-/

namespace Athena.Run

variable {σ α : Type _}

/-- Perform the actions in order. -/
def run (step : σ → α → Option σ) (s : σ) : List α → Option σ
  | [] => some s
  | a :: as =>
    match step s a with
    | some s' => run step s' as
    | none => none

/-- Every step of the run from `s` meets the condition `ok`. -/
def Meets (step : σ → α → Option σ) (ok : σ → α → Prop) (s : σ) : List α → Prop
  | [] => True
  | a :: as =>
    ok s a ∧ match step s a with
      | some s' => Meets step ok s' as
      | none => True

instance Meets.decidable (step : σ → α → Option σ) (ok : σ → α → Prop)
    [∀ s a, Decidable (ok s a)] (s : σ) (as : List α) : Decidable (Meets step ok s as) :=
  match as with
  | [] => .isTrue trivial
  | a :: as =>
    match h : step s a with
    | some s' =>
      haveI := Meets.decidable step ok s' as
      decidable_of_iff (ok s a ∧ Meets step ok s' as) (by simp only [Meets, h])
    | none => decidable_of_iff (ok s a) (by simp only [Meets, h, and_true])

variable {step : σ → α → Option σ} {ok : σ → α → Prop} {P : σ → Prop}

/-- A run of one action and more goes through the state after that action. -/
theorem run_cons {s s' : σ} {a : α} {as : List α} (h : run step s (a :: as) = some s') :
    ∃ m, step s a = some m ∧ run step m as = some s' := by
  simp only [run] at h
  cases hstep : step s a with
  | none => simp only [hstep] at h; exact nomatch h
  | some m => simp only [hstep] at h; exact ⟨m, rfl, h⟩

/-- A run goes through the state after its first part. -/
theorem run_append {s s' : σ} {as bs : List α} (h : run step s (as ++ bs) = some s') :
    ∃ m, run step s as = some m ∧ run step m bs = some s' := by
  induction as generalizing s with
  | nil => exact ⟨s, rfl, h⟩
  | cons a as ih =>
    obtain ⟨m, hm, hrest⟩ := run_cons h
    obtain ⟨m', hm', hrest'⟩ := ih hrest
    exact ⟨m', by simp only [run, hm, hm'], hrest'⟩

/-- One action and then the others. -/
theorem run_of_step {s m : σ} {a : α} (h : step s a = some m) (as : List α) :
    run step s (a :: as) = run step m as := by
  simp only [run, h]

/-- A condition that holds of every action whatever the state is met. -/
theorem meets_of_forall {as : List α} (h : ∀ a ∈ as, ∀ s, ok s a) (s : σ) :
    Meets step ok s as := by
  induction as generalizing s with
  | nil => exact trivial
  | cons a as ih =>
    refine ⟨h a List.mem_cons_self s, ?_⟩
    split
    · exact ih (fun b hb => h b (List.mem_cons_of_mem a hb)) _
    · exact trivial

/-- What every step meeting `ok` preserves, every run of such steps preserves. -/
theorem invariant_of_meets (hstep : ∀ s a s', P s → ok s a → step s a = some s' → P s')
    {s s' : σ} {as : List α} (hs : P s) (hok : Meets step ok s as)
    (hrun : run step s as = some s') : P s' := by
  induction as generalizing s with
  | nil =>
    obtain rfl := Option.some.inj hrun
    exact hs
  | cons a as ih =>
    obtain ⟨m, hm, hrest⟩ := run_cons hrun
    simp only [Meets, hm] at hok
    exact ih (hstep s a m hs hok.1 hm) hok.2 hrest

/-- What every step preserves, every run preserves. -/
theorem invariant (hstep : ∀ s a s', P s → step s a = some s' → P s')
    {s s' : σ} {as : List α} (hs : P s) (hrun : run step s as = some s') : P s' := by
  induction as generalizing s with
  | nil =>
    obtain rfl := Option.some.inj hrun
    exact hs
  | cons a as ih =>
    obtain ⟨m, hm, hrest⟩ := run_cons hrun
    exact ih (hstep s a m hs hm) hrest

/-- A run of steps each of which decreases a measure is no longer than the measure. -/
theorem length_le_measure {move : α → Prop} {μ : σ → Nat}
    (hstep : ∀ s a s', P s → move a → step s a = some s' → P s' ∧ μ s' < μ s) {s s' : σ}
    {as : List α} (hs : P s) (hmove : ∀ a ∈ as, move a) (hrun : run step s as = some s') :
    P s' ∧ as.length + μ s' ≤ μ s := by
  induction as generalizing s with
  | nil =>
    obtain rfl := Option.some.inj hrun
    exact ⟨hs, by simp⟩
  | cons a as ih =>
    obtain ⟨m, hm, hrest⟩ := run_cons hrun
    obtain ⟨hPm, hlt⟩ := hstep s a m hs (hmove a List.mem_cons_self) hm
    obtain ⟨hs', hle⟩ := ih hPm (fun b hb => hmove b (List.mem_cons_of_mem a hb)) hrest
    exact ⟨hs', by rw [List.length_cons]; omega⟩

/-- A system that takes every step a second one takes when it meets `ok`, and stays related to
it, takes every such run. -/
theorem simulates {τ : Type _} {step' : τ → α → Option τ} {ok : τ → α → Prop} {R : σ → τ → Prop}
    (hstep : ∀ s t a, R s t → ok t a →
      ∃ s' t', step s a = some s' ∧ step' t a = some t' ∧ R s' t')
    {s : σ} {t : τ} {as : List α} (hR : R s t) (hok : Meets step' ok t as) :
    ∃ s' t', run step s as = some s' ∧ run step' t as = some t' ∧ R s' t' := by
  induction as generalizing s t with
  | nil => exact ⟨s, t, rfl, rfl, hR⟩
  | cons a as ih =>
    obtain ⟨s', t', hs, ht, hR'⟩ := hstep s t a hR hok.1
    have hok' := hok.2
    simp only [ht] at hok'
    rw [run_of_step hs, run_of_step ht]
    exact ih hR' hok'

/-- Where a step keeps `P` exactly if it meets `ok`, all states that a run comes to have `P`
exactly if its steps meet `ok`. -/
theorem forall_reached_iff_meets
    (hstep : ∀ s a s', P s → step s a = some s' → (P s' ↔ ok s a))
    (hnone : ∀ s a, P s → step s a = none → ok s a) {s : σ} (hs : P s) (as : List α) :
    (∀ done s', done <+: as → run step s done = some s' → P s') ↔ Meets step ok s as := by
  -- by induction on the actions; each reached state is the first one or is reached by the rest of
  -- the run
  induction as generalizing s with
  | nil =>
    refine ⟨fun _ => trivial, fun _ done s' hdone hrun => ?_⟩
    obtain rfl := List.prefix_nil.mp hdone
    obtain rfl := Option.some.inj hrun
    exact hs
  | cons a as ih =>
    cases hm : step s a with
    | none =>
      -- the run ends here, in the state that it started from
      simp only [Meets, hm]
      refine ⟨fun _ => ⟨hnone s a hs hm, trivial⟩, fun _ done s' hdone hrun => ?_⟩
      cases done with
      | nil =>
        obtain rfl := Option.some.inj hrun
        exact hs
      | cons b done =>
        obtain ⟨rfl, -⟩ := List.cons_prefix_cons.mp hdone
        simp only [run, hm] at hrun
        exact nomatch hrun
    | some m =>
      simp only [Meets, hm]
      constructor
      -- the first step has its condition because the state after it is in `P`
      · intro h
        have hPm : P m := h [a] m (List.cons_prefix_cons.mpr ⟨rfl, List.nil_prefix⟩)
          (run_of_step hm [])
        refine ⟨(hstep s a m hs hm).mp hPm, (ih hPm).mp fun done s' hdone hrun => ?_⟩
        exact h (a :: done) s' (List.cons_prefix_cons.mpr ⟨rfl, hdone⟩)
          ((run_of_step hm done).trans hrun)
      -- the condition of the first step brings the rest of the run into `P`
      · intro ⟨hok, hmeets⟩ done s' hdone hrun
        cases done with
        | nil =>
          obtain rfl := Option.some.inj hrun
          exact hs
        | cons b done =>
          obtain ⟨rfl, htail⟩ := List.cons_prefix_cons.mp hdone
          rw [run_of_step hm] at hrun
          exact (ih ((hstep s b m hs hm).mpr hok)).mpr hmeets done s' htail hrun

end Athena.Run
