/-!
# Cutting a byte stream into frames

`cut` looks at the front of a stream and says whether a whole frame is there.
`Drains cut s ps r` says that repeatedly taking a frame off the front of `s` gives
the frames `ps` and stops in front of `r`.  For a `cut` whose answers are not
changed by bytes that arrive later (`Stable`), draining a stream in pieces is
draining it at once (`Drains.append`), so the frames do not depend on where the
stream was cut into reads.

`within cut cap` is `cut` as seen by a receiver that holds at most `cap` bytes: a
front that fills it without being a whole frame is illegal as soon as one more byte
follows.  It is `Stable` when `cut` is.
-/

namespace Athena.Framing

/-- What stands at the front of a stream. -/
inductive Cut where
  /-- not yet a whole frame -/
  | incomplete
  /-- no frame can start like this -/
  | illegal
  /-- a frame of that many bytes -/
  | frame (n : Nat)
  deriving DecidableEq, Repr

variable {α : Type _} {cut : List α → Cut}

/-- The answers of `cut` are about bytes that are there, and more bytes behind
    them do not change an answer. -/
structure Stable (cut : List α → Cut) : Prop where
  frame_pos : ∀ {s n}, cut s = .frame n → 0 < n
  frame_le : ∀ {s n}, cut s = .frame n → n ≤ s.length
  frame_append : ∀ {s n} (t : List α), cut s = .frame n → cut (s ++ t) = .frame n
  illegal_append : ∀ {s} (t : List α), cut s = .illegal → cut (s ++ t) = .illegal

/-- Taking frames off the front of a stream for as long as there are whole ones. -/
inductive Drains (cut : List α → Cut) : List α → List (List α) → List α → Prop where
  | stop {s : List α} (h : ∀ n, cut s ≠ .frame n) : Drains cut s [] s
  | frame {s r : List α} {n : Nat} {ps : List (List α)} (h : cut s = .frame n)
      (hrest : Drains cut (s.drop n) ps r) : Drains cut s (s.take n :: ps) r

namespace Drains

/-- Draining leaves off where no whole frame is left. -/
theorem rest_ne_frame {s r : List α} {ps : List (List α)} (h : Drains cut s ps r) (n : Nat) :
    cut r ≠ .frame n := by
  induction h with
  | stop h => exact h n
  | frame _ _ ih => exact ih

/-- A stream drains in one way. -/
theorem unique {s r r' : List α} {ps ps' : List (List α)} (h : Drains cut s ps r)
    (h' : Drains cut s ps' r') : ps = ps' ∧ r = r' := by
  induction h generalizing ps' with
  | stop hstop =>
    cases h' with
    | stop _ => exact ⟨rfl, rfl⟩
    | frame hframe _ => exact absurd hframe (hstop _)
  | frame hframe _ ih =>
    cases h' with
    | stop hstop => exact absurd hframe (hstop _)
    | frame hframe' hrest' =>
      obtain rfl := Cut.frame.inj (hframe.symm.trans hframe')
      obtain ⟨rfl, rfl⟩ := ih hrest'
      exact ⟨rfl, rfl⟩

/-- Draining in two pieces is draining at once. -/
theorem append (hcut : Stable cut) {s t r r' : List α} {ps qs : List (List α)}
    (h : Drains cut s ps r) (h' : Drains cut (r ++ t) qs r') :
    Drains cut (s ++ t) (ps ++ qs) r' := by
  induction h with
  | stop _ => exact h'
  | @frame s r n ps hframe _ ih =>
    have hle := hcut.frame_le hframe
    have htake : (s ++ t).take n = s.take n := List.take_append_of_le_length hle
    have hdrop : (s ++ t).drop n = s.drop n ++ t := List.drop_append_of_le_length hle
    rw [List.cons_append, ← htake]
    exact .frame (hcut.frame_append t hframe) (by rw [hdrop]; exact ih h')

/-- A frame at the front of a stream is taken off, whatever follows. -/
theorem cons {f s r : List α} {ps : List (List α)} (hf : cut (f ++ s) = .frame f.length)
    (h : Drains cut s ps r) : Drains cut (f ++ s) (f :: ps) r := by
  have hdrains : Drains cut (f ++ s) ((f ++ s).take f.length :: ps) r :=
    .frame hf (by rw [List.drop_left]; exact h)
  rwa [List.take_left] at hdrains

/-- Frames that are recognised whatever follows them are all taken off. -/
theorem flatten (hnil : cut [] = .incomplete) {fs : List (List α)}
    (hfs : ∀ f ∈ fs, ∀ s, cut (f ++ s) = .frame f.length) : Drains cut fs.flatten fs [] := by
  induction fs with
  | nil => exact .stop fun n hn => by simp [hnil] at hn
  | cons f fs ih =>
    exact .cons (hfs f List.mem_cons_self _) (ih fun g hg => hfs g (List.mem_cons_of_mem f hg))

/-- Behind an illegal front nothing is drained any more. -/
theorem append_illegal (hcut : Stable cut) {s r : List α} {ps : List (List α)}
    (h : Drains cut s ps r) (hr : cut r = .illegal) (t : List α) :
    Drains cut (s ++ t) ps (r ++ t) := by
  have hstop : Drains cut (r ++ t) [] (r ++ t) :=
    .stop fun n hn => by rw [hcut.illegal_append t hr] at hn; exact nomatch hn
  simpa using h.append hcut hstop

end Drains

/-! ## A receiver with room for `cap` bytes -/

/-- What stands at the front of a stream for a receiver that looks at no more than
    `cap` bytes of it. -/
def within (cut : List α → Cut) (cap : Nat) (s : List α) : Cut :=
  match cut (s.take cap) with
  | .incomplete => if cap < s.length then .illegal else .incomplete
  | .illegal => .illegal
  | .frame n => .frame n

/-- A stream that fits is seen as it is. -/
theorem within_of_le {cap : Nat} {s : List α} (h : s.length ≤ cap) :
    within cut cap s = cut s := by
  rw [within, List.take_of_length_le h]
  cases cut s with
  | incomplete => exact if_neg (Nat.not_lt.mpr h)
  | illegal => rfl
  | frame n => rfl

/-- A full receiver that is still waiting does not stand one more byte. -/
theorem within_of_full {cap : Nat} {s t : List α} (h : cut s = .incomplete)
    (hfull : s.length = cap) (ht : t ≠ []) : within cut cap (s ++ t) = .illegal := by
  have htake : (s ++ t).take cap = s := by rw [← hfull, List.take_left]
  have hlen : cap < (s ++ t).length := by
    have := List.length_pos_iff.mpr ht
    rw [List.length_append]
    omega
  rw [within, htake, h]
  exact if_pos hlen

/-- The receiver finds the frames that stand inside its room. -/
theorem within_eq_frame {cap n : Nat} {s : List α} :
    within cut cap s = .frame n ↔ cut (s.take cap) = .frame n := by
  rw [within]
  cases cut (s.take cap) with
  | incomplete => by_cases hlt : cap < s.length <;> simp [hlt]
  | illegal => simp
  | frame m => simp

/-- The receiver gives a stream up where it is illegal, and where its room is full and no frame
    is in it. -/
theorem within_eq_illegal {cap : Nat} {s : List α} :
    within cut cap s = .illegal ↔
      cut (s.take cap) = .illegal ∨ cut (s.take cap) = .incomplete ∧ cap < s.length := by
  rw [within]
  cases cut (s.take cap) with
  | incomplete => by_cases hlt : cap < s.length <;> simp [hlt]
  | illegal => simp
  | frame m => simp

/-- Bytes that arrive later do not change what a bounded receiver sees either. -/
theorem Stable.within (hcut : Stable cut) (cap : Nat) : Stable (within cut cap) where
  frame_pos h := hcut.frame_pos (within_eq_frame.mp h)
  frame_le {s n} h := by
    have hle := hcut.frame_le (within_eq_frame.mp h)
    rw [List.length_take] at hle
    omega
  frame_append {s n} t h := by
    apply within_eq_frame.mpr
    rw [List.take_append]
    exact hcut.frame_append _ (within_eq_frame.mp h)
  illegal_append {s} t h := by
    apply within_eq_illegal.mpr
    rw [List.take_append]
    cases within_eq_illegal.mp h with
    | inl hbad => exact .inl (hcut.illegal_append _ hbad)
    | inr hfull =>
      -- the receiver was full already, so it sees nothing of `t`
      have hnone : t.take (cap - s.length) = [] := by
        rw [show cap - s.length = 0 by omega, List.take_zero]
      rw [hnone, List.append_nil, List.length_append]
      exact .inr ⟨hfull.1, by omega⟩

/-- A stream that fits is drained as it is. -/
theorem Drains.within {cap : Nat} {s r : List α} {ps : List (List α)} (h : Drains cut s ps r)
    (hfit : s.length ≤ cap) : Drains (within cut cap) s ps r := by
  induction h with
  | stop hstop =>
    apply Drains.stop
    intro n
    rw [within_of_le hfit]
    exact hstop n
  | @frame s r n ps hframe _ ih =>
    have hdrop : (s.drop n).length ≤ cap := by rw [List.length_drop]; omega
    exact .frame ((within_of_le hfit).trans hframe) (ih hdrop)

/-- A front without a whole frame, in a stream of frames, is shorter than the frame
    it is part of. -/
theorem length_lt_of_incomplete {fs : List (List α)} {r t : List α}
    (hfs : ∀ f ∈ fs, ∀ s, cut (f ++ s) = .frame f.length) (hr : ∀ n, cut r ≠ .frame n)
    (hstream : r ++ t = fs.flatten) : r = [] ∨ ∃ f ∈ fs, r.length < f.length := by
  cases fs with
  | nil => exact .inl (List.append_eq_nil_iff.mp hstream).1
  | cons f fs =>
    rcases Nat.lt_or_ge r.length f.length with hlt | hle
    · exact .inr ⟨f, List.mem_cons_self, hlt⟩
    · -- a front as long as the first frame starts with it
      rw [List.flatten_cons] at hstream
      obtain ⟨r', rfl⟩ : f <+: r :=
        List.prefix_of_prefix_length_le ⟨_, hstream.symm⟩ ⟨t, rfl⟩ hle
      exact absurd (hfs f List.mem_cons_self r') (hr _)

/-- No part of a stream of frames is illegal. -/
theorem ne_illegal (hcut : Stable cut) (hnil : cut [] = .incomplete) {fs : List (List α)}
    {r t : List α} (hfs : ∀ f ∈ fs, ∀ s, cut (f ++ s) = .frame f.length)
    (hstream : r ++ t = fs.flatten) : cut r ≠ .illegal := by
  intro hbad
  have hall := hcut.illegal_append t hbad
  cases fs with
  | nil => rw [hstream, List.flatten_nil, hnil] at hall; exact nomatch hall
  | cons f fs => rw [hstream, List.flatten_cons, hfs f List.mem_cons_self] at hall; exact nomatch hall

/-- When part of a stream of frames has been drained, the rest of the stream drains
    to the remaining frames. -/
theorem drains_rest (hcut : Stable cut) (hnil : cut [] = .incomplete) {fs : List (List α)}
    (hfs : ∀ f ∈ fs, ∀ s, cut (f ++ s) = .frame f.length) {s t r : List α}
    {ps : List (List α)} (hstream : s ++ t = fs.flatten) (h : Drains cut s ps r) :
    ∃ qs, fs = ps ++ qs ∧ r ++ t = qs.flatten := by
  induction h generalizing fs with
  | stop _ => exact ⟨fs, rfl, hstream⟩
  | @frame s r n ps hframe _ ih =>
    have hall := hcut.frame_append t hframe
    cases fs with
    | nil =>
      obtain ⟨rfl, -⟩ := List.append_eq_nil_iff.mp hstream
      simp [hnil] at hframe
    | cons f fs =>
      rw [hstream, List.flatten_cons, hfs f List.mem_cons_self] at hall
      obtain rfl := Cut.frame.inj hall
      have hle := hcut.frame_le hframe
      have htake : s.take f.length = f := by
        have happ : (s ++ t).take f.length = s.take f.length :=
          List.take_append_of_le_length hle
        rw [← happ, hstream, List.flatten_cons, List.take_left]
      have hdrop : s.drop f.length ++ t = fs.flatten := by
        rw [← List.drop_append_of_le_length hle, hstream, List.flatten_cons, List.drop_left]
      obtain ⟨qs, rfl, hqs⟩ := ih (fun g hg => hfs g (List.mem_cons_of_mem f hg)) hdrop
      exact ⟨qs, by rw [htake, List.cons_append], hqs⟩

/-! ## Part of the way -/

/-- Some frames have been taken off the front of a stream. -/
inductive Takes (cut : List α → Cut) : List α → List (List α) → List α → Prop where
  | nil (s : List α) : Takes cut s [] s
  | frame {s r : List α} {n : Nat} {ps : List (List α)} (h : cut s = .frame n)
      (hrest : Takes cut (s.drop n) ps r) : Takes cut s (s.take n :: ps) r

namespace Takes

/-- One more frame is taken. -/
theorem snoc {s r : List α} {ps : List (List α)} {n : Nat} (h : Takes cut s ps r)
    (hr : cut r = .frame n) : Takes cut s (ps ++ [r.take n]) (r.drop n) := by
  induction h with
  | nil s => exact .frame hr (.nil _)
  | frame hframe _ ih => exact .frame hframe (ih hr)

/-- Bytes that come later stay behind. -/
theorem append (hcut : Stable cut) {s r : List α} {ps : List (List α)} (h : Takes cut s ps r)
    (t : List α) : Takes cut (s ++ t) ps (r ++ t) := by
  induction h with
  | nil s => exact .nil _
  | @frame s r n ps hframe _ ih =>
    have hle := hcut.frame_le hframe
    have htake : (s ++ t).take n = s.take n := List.take_append_of_le_length hle
    rw [← htake]
    apply Takes.frame (hcut.frame_append t hframe)
    rw [List.drop_append_of_le_length hle]
    exact ih

/-- What is taken off part of a stream of frames are the first of them. -/
theorem rest (hcut : Stable cut) (hnil : cut [] = .incomplete) {fs : List (List α)}
    (hfs : ∀ f ∈ fs, ∀ s, cut (f ++ s) = .frame f.length) {s t r : List α}
    {ps : List (List α)} (h : Takes cut s ps r) (hstream : s ++ t = fs.flatten) :
    ∃ qs, fs = ps ++ qs ∧ r ++ t = qs.flatten := by
  induction h generalizing fs with
  | nil _ => exact ⟨fs, rfl, hstream⟩
  | @frame s r n ps hframe _ ih =>
    have hall := hcut.frame_append t hframe
    cases fs with
    | nil => rw [hstream, List.flatten_nil, hnil] at hall; cases hall
    | cons f fs =>
      -- the first frame is recognised in the whole stream, so it is the one that was taken
      rw [hstream, List.flatten_cons, hfs f List.mem_cons_self] at hall
      obtain rfl := Cut.frame.inj hall
      have hle := hcut.frame_le hframe
      have htake : s.take f.length = f := by
        have happ : (s ++ t).take f.length = s.take f.length :=
          List.take_append_of_le_length hle
        rw [← happ, hstream, List.flatten_cons, List.take_left]
      have hdrop : s.drop f.length ++ t = fs.flatten := by
        rw [← List.drop_append_of_le_length hle, hstream, List.flatten_cons, List.drop_left]
      obtain ⟨qs, rfl, hqs⟩ := ih (fun g hg => hfs g (List.mem_cons_of_mem f hg)) hdrop
      exact ⟨qs, by rw [htake, List.cons_append], hqs⟩

/-- When the whole stream has come and no whole frame is left, all have been taken. -/
theorem all (hcut : Stable cut) (hnil : cut [] = .incomplete) {fs : List (List α)}
    (hfs : ∀ f ∈ fs, ∀ s, cut (f ++ s) = .frame f.length) {r : List α} {ps : List (List α)}
    (h : Takes cut fs.flatten ps r) (hr : ∀ n, cut r ≠ .frame n) : ps = fs := by
  obtain ⟨qs, rfl, hqs⟩ := h.rest hcut hnil hfs (List.append_nil _)
  cases qs with
  | nil => exact (List.append_nil ps).symm
  | cons q qs =>
    rw [List.append_nil, List.flatten_cons] at hqs
    have hq := hfs q (List.mem_append_right ps List.mem_cons_self) qs.flatten
    rw [← hqs] at hq
    exact absurd hq (hr _)

end Takes

end Athena.Framing
