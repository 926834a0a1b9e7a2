import Mathlib.Data.List.Basic

/-!
# Readers of a stream

A reader takes a value off the front of what a state still holds of a stream.  It may
refuse, and where the program it models would do something undefined it has no outcome.

`Reads V r bs a`: wherever `bs` stands at the front, `r` takes exactly `bs` and gives `a`.
`Cut V r bs`: where the stream ends inside `bs`, `r` refuses or uses up what is there.
`Refuses V r bs`: there it refuses.  `Accepts V r bs a`: where `bs` is all that is left, `r`
takes it and gives `a`.  They go through `bind` and through loops, so that what holds of a
format follows from what holds of its fields.
-/

namespace Athena

/-- How a read ends. -/
inductive Reader.Outcome (σ α : Type) where
  | done (a : α) (s : σ)
  | refused (s : σ)
  /-- an exception, or behaviour that the language leaves undefined -/
  | undefined

def Reader (σ α : Type) : Type := σ → Reader.Outcome σ α

namespace Reader

variable {σ α β γ : Type}

instance : Monad (Reader σ) where
  pure a := fun s => .done a s
  bind r k := fun s =>
    match r s with
    | .done a s' => k a s'
    | .refused s' => .refused s'
    | .undefined => .undefined

def refuse : Reader σ α := fun s => .refused s

/-- `n` values one after another. -/
def many (r : Reader σ α) : Nat → Reader σ (List α)
  | 0 => pure []
  | n + 1 => do
    let a ← r
    let as ← many r n
    return a :: as

/-- A pure reader takes nothing. -/
@[simp] theorem pure_apply (a : α) (s : σ) : (pure a : Reader σ α) s = .done a s := rfl

/-- The second reader goes on where the first stopped, unless the first gave no value. -/
@[simp] theorem bind_apply (r : Reader σ α) (k : α → Reader σ β) (s : σ) :
    (r >>= k) s = match r s with
      | .done a s' => k a s'
      | .refused s' => .refused s'
      | .undefined => .undefined := rfl

/-- A branch between readers is decided before anything is read. -/
@[simp] theorem branch_apply (c : Prop) [Decidable c] (r r' : Reader σ α) (s : σ) :
    (if c then r else r') s = if c then r s else r' s := by
  split <;> rfl

/-- Where the first reader gives a value the second goes on behind it. -/
theorem bind_done {r : Reader σ α} {k : α → Reader σ β} {s s' : σ} {a : α}
    (h : r s = .done a s') : (r >>= k) s = k a s' := by
  rw [bind_apply, h]

/-- Where the first reader refuses, both do. -/
theorem bind_refused {r : Reader σ α} {k : α → Reader σ β} {s s' : σ}
    (h : r s = .refused s') : (r >>= k) s = .refused s' := by
  rw [bind_apply, h]

/-- A reader whose value is passed on unchanged. -/
theorem bind_pure_apply (r : Reader σ α) (s : σ) : (r >>= fun a => pure a) s = r s := by
  rw [bind_apply]
  cases r s <;> rfl

/-- A stream as a state holds it. -/
structure View (σ β : Type) where
  /-- what is left of the stream -/
  rest : σ → List β
  /-- the state `n` further on -/
  skip : Nat → σ → σ
  /-- positions can be counted up to `n` further on -/
  room : Nat → σ → Prop
  rest_skip : ∀ n s, rest (skip n s) = (rest s).drop n
  skip_zero : ∀ s, skip 0 s = s
  skip_skip : ∀ m n s, skip n (skip m s) = skip (m + n) s
  room_mono : ∀ {m n s}, m ≤ n → room n s → room m s
  room_skip : ∀ {m n s}, m ≤ (rest s).length → room (m + n) s → room n (skip m s)

variable {V : View σ β}

/-! ## What stands at the front is taken -/

def Reads (V : View σ β) (r : Reader σ α) (bs : List β) (a : α) : Prop :=
  ∀ s t, V.room bs.length s → V.rest s = bs ++ t → r s = .done a (V.skip bs.length s)

/-- A pure reader takes the empty stream. -/
theorem Reads.pure (a : α) : Reads V (Pure.pure a) [] a := fun s _ _ _ => by
  rw [List.length_nil, V.skip_zero]
  rfl

/-- Two encodings one after another are taken one after the other. -/
theorem Reads.bind {r : Reader σ α} {k : α → Reader σ γ} {bs cs : List β} {a : α} {c : γ}
    (h : Reads V r bs a) (hk : Reads V (k a) cs c) : Reads V (r >>= k) (bs ++ cs) c := by
  intro s t hroom hs
  rw [List.append_assoc] at hs
  rw [List.length_append] at hroom
  have hrest : V.rest (V.skip bs.length s) = cs ++ t := by
    rw [V.rest_skip, hs, List.drop_left]
  have hroom' : V.room cs.length (V.skip bs.length s) :=
    V.room_skip (by rw [hs, List.length_append]; omega) hroom
  rw [bind_done (h s _ (V.room_mono (by omega) hroom) hs), hk _ _ hroom' hrest, V.skip_skip,
    List.length_append]

/-- A last step that reads nothing. -/
theorem Reads.map {r : Reader σ α} {f : α → γ} {bs : List β} {a : α} (h : Reads V r bs a) :
    Reads V (r >>= fun a => Pure.pure (f a)) bs (f a) := by
  have hall := h.bind (k := fun a => Pure.pure (f a)) (Reads.pure (f a))
  rwa [List.append_nil] at hall

/-- As many values as are asked for are taken, each behind the one before. -/
theorem Reads.many {r : Reader σ α} {enc : α → List β} {as : List α}
    (h : ∀ a ∈ as, Reads V r (enc a) a) :
    Reads V (many r as.length) (as.flatMap enc) as := by
  induction as with
  | nil => exact Reads.pure []
  | cons a as ih =>
    rw [List.flatMap_cons]
    apply (h a List.mem_cons_self).bind
    exact (ih fun b hb => h b (List.mem_cons_of_mem a hb)).map

/-! ## What is left is taken -/

def Accepts (V : View σ β) (r : Reader σ α) (bs : List β) (a : α) : Prop :=
  ∀ s, V.room bs.length s → V.rest s = bs → r s = .done a (V.skip bs.length s)

/-- What is taken off the front is taken off the end as well. -/
theorem Reads.accepts {r : Reader σ α} {bs : List β} {a : α} (h : Reads V r bs a) :
    Accepts V r bs a :=
  fun s hroom hs => h s [] hroom (hs.trans (List.append_nil bs).symm)

/-- A reader that takes all that is left may follow one that takes a front. -/
theorem Accepts.bind_left {r : Reader σ α} {k : α → Reader σ γ} {bs cs : List β} {a : α} {c : γ}
    (h : Reads V r bs a) (hk : Accepts V (k a) cs c) : Accepts V (r >>= k) (bs ++ cs) c := by
  intro s hroom hs
  rw [List.length_append] at hroom
  have hrest : V.rest (V.skip bs.length s) = cs := by rw [V.rest_skip, hs, List.drop_left]
  have hroom' : V.room cs.length (V.skip bs.length s) :=
    V.room_skip (by rw [hs, List.length_append]; omega) hroom
  rw [bind_done (h s cs (V.room_mono (by omega) hroom) hs), hk _ hroom' hrest, V.skip_skip,
    List.length_append]

/-- The second read finds nothing more. -/
theorem Accepts.bind_right {r : Reader σ α} {k : α → Reader σ γ} {bs : List β} {a : α} {c : γ}
    (h : Accepts V r bs a) (hk : Accepts V (k a) [] c) : Accepts V (r >>= k) bs c := by
  intro s hroom hs
  have hrest : V.rest (V.skip bs.length s) = [] := by rw [V.rest_skip, hs, List.drop_length]
  have hroom' : V.room 0 (V.skip bs.length s) := V.room_skip (Nat.le_of_eq (by rw [hs])) hroom
  rw [bind_done (h s hroom hs), hk _ hroom' hrest, List.length_nil, V.skip_zero]

/-- What becomes of the value does not matter to what is taken. -/
theorem Accepts.map {r : Reader σ α} {f : α → γ} {bs : List β} {a : α} (h : Accepts V r bs a) :
    Accepts V (r >>= fun a => Pure.pure (f a)) bs (f a) :=
  h.bind_right (Reads.pure (f a)).accepts

/-! ## Where the stream ends too early -/

/-- The read is refused, or it has used up the stream. -/
def EndsShort (V : View σ β) (o : Outcome σ α) : Prop :=
  (∃ s, o = .refused s) ∨ ∃ a s, o = .done a s ∧ V.rest s = [] ∧ V.room 1 s

/-- The stream ends inside `bs`. -/
structure Inside (V : View σ β) (bs : List β) (s : σ) : Prop where
  isPrefix : V.rest s <+: bs
  lt : (V.rest s).length < bs.length
  room : V.room bs.length s

/-- Nothing is left of the stream. -/
structure AtEnd (V : View σ β) (s : σ) : Prop where
  nil : V.rest s = []
  room : V.room 1 s

def Cut (V : View σ β) (r : Reader σ α) (bs : List β) : Prop :=
  ∀ s, Inside V bs s → EndsShort V (r s)

def Refuses (V : View σ β) (r : Reader σ α) (bs : List β) : Prop :=
  ∀ s, Inside V bs s → ∃ s', r s = .refused s'

/-- At the end of the stream nothing but the end is found. -/
def Short (V : View σ β) (r : Reader σ α) : Prop := ∀ s, AtEnd V s → EndsShort V (r s)

/-- At the end of the stream the read is refused. -/
def Needs (V : View σ β) (r : Reader σ α) : Prop := ∀ s, AtEnd V s → ∃ s', r s = .refused s'

/-- To refuse a cut stream is one way to end short. -/
theorem Refuses.cut {r : Reader σ α} {bs : List β} (h : Refuses V r bs) : Cut V r bs :=
  fun s hs => .inl (h s hs)

/-- To refuse at the end of the stream is one way to end short. -/
theorem Needs.short {r : Reader σ α} (h : Needs V r) : Short V r := fun s hs => .inl (h s hs)

/-- A reader that takes nothing leaves the stream at its end. -/
theorem Short.pure (a : α) : Short V (Pure.pure a : Reader σ α) :=
  fun s hs => .inr ⟨a, s, rfl, hs.nil, hs.room⟩

/-- A read that ends short is followed by reads at the end of the stream. -/
theorem EndsShort.bind {r : Reader σ α} {k : α → Reader σ γ} {s : σ} (h : EndsShort V (r s))
    (hk : ∀ a, Short V (k a)) : EndsShort V ((r >>= k) s) := by
  obtain ⟨s', hr⟩ | ⟨a, s', hr, hnil, hroom⟩ := h
  · exact .inl ⟨s', bind_refused hr⟩
  · rw [bind_done hr]
    exact hk a s' ⟨hnil, hroom⟩

/-- At the end of the stream two readers end short if each does. -/
theorem Short.bind {r : Reader σ α} {k : α → Reader σ γ} (h : Short V r)
    (hk : ∀ a, Short V (k a)) : Short V (r >>= k) :=
  fun s hs => (h s hs).bind hk

/-- It is enough that one of the reads needs a byte. -/
theorem Needs.bind_left {r : Reader σ α} {k : α → Reader σ γ} (h : Needs V r) :
    Needs V (r >>= k) := by
  intro s hs
  obtain ⟨s', hr⟩ := h s hs
  exact ⟨s', bind_refused hr⟩

/-- A reader that needs input refuses behind one that ended short. -/
theorem EndsShort.bind_needs {r : Reader σ α} {k : α → Reader σ γ} {s : σ}
    (h : EndsShort V (r s)) (hk : ∀ a, Needs V (k a)) : ∃ s', (r >>= k) s = .refused s' := by
  obtain ⟨s', hr⟩ | ⟨a, s', hr, hnil, hroom⟩ := h
  · exact ⟨s', bind_refused hr⟩
  · rw [bind_done hr]
    exact hk a s' ⟨hnil, hroom⟩

/-- If the second reader needs input, both together do. -/
theorem Needs.bind_right {r : Reader σ α} {k : α → Reader σ γ} (h : Short V r)
    (hk : ∀ a, Needs V (k a)) : Needs V (r >>= k) :=
  fun s hs => (h s hs).bind_needs hk

/-- A stream that ends inside `bs ++ cs` ends inside `bs`, or behind `bs` and inside `cs`. -/
theorem Inside.append {bs cs : List β} {s : σ} (h : Inside V (bs ++ cs) s) :
    Inside V bs s ∨ ∃ t, V.room bs.length s ∧ V.rest s = bs ++ t ∧
      Inside V cs (V.skip bs.length s) := by
  have hroom := h.room
  rw [List.length_append] at hroom
  by_cases hlt : (V.rest s).length < bs.length
  · left
    exact ⟨List.prefix_of_prefix_length_le h.isPrefix (List.prefix_append bs cs) (by omega),
      hlt, V.room_mono (by omega) hroom⟩
  -- the stream reaches past `bs`, so `bs` stands at its front
  · right
    obtain ⟨t, ht⟩ :=
      List.prefix_of_prefix_length_le (List.prefix_append bs cs) h.isPrefix (by omega)
    have hrest : V.rest (V.skip bs.length s) = t := by rw [V.rest_skip, ← ht, List.drop_left]
    have hlen := h.lt
    rw [← ht, List.length_append, List.length_append] at hlen
    refine ⟨t, V.room_mono (by omega) hroom, ht.symm, ⟨?_, ?_, ?_⟩⟩
    · rw [hrest]
      exact (List.prefix_append_right_inj bs).mp (ht ▸ h.isPrefix)
    · rw [hrest]
      omega
    · exact V.room_skip (by omega) hroom

/-- A last read that ends inside nothing. -/
theorem Inside.not_nil {s : σ} (h : Inside V [] s) : False := by
  have hlt := h.lt
  simp at hlt

/-- Nothing is cut off the empty encoding. -/
theorem Cut.pure (a : α) : Cut V (Pure.pure a : Reader σ α) [] := fun _ hs => hs.not_nil.elim

/-- A stream cut inside the first or inside the second encoding is refused or used up. -/
theorem Cut.bind {r : Reader σ α} {k : α → Reader σ γ} {bs cs : List β} {a : α}
    (h : Reads V r bs a) (hcut : Cut V r bs) (hk : ∀ a, Short V (k a)) (hkcut : Cut V (k a) cs) :
    Cut V (r >>= k) (bs ++ cs) := by
  intro s hs
  rcases hs.append with hin | ⟨t, hroom, ht, hin⟩
  · exact (hcut s hin).bind hk
  · rw [bind_done (h s t hroom ht)]
    exact hkcut _ hin

/-- What becomes of the value does not matter to a cut stream. -/
theorem Cut.map {r : Reader σ α} {f : α → γ} {bs : List β} (h : Cut V r bs) :
    Cut V (r >>= fun a => Pure.pure (f a)) bs :=
  fun s hs => (h s hs).bind fun a => Short.pure (f a)

/-- The last read refuses, and it needs a byte. -/
theorem Refuses.bind {r : Reader σ α} {k : α → Reader σ γ} {bs cs : List β} {a : α}
    (h : Reads V r bs a) (hcut : Cut V r bs) (hk : ∀ a, Needs V (k a))
    (hkcut : Refuses V (k a) cs) : Refuses V (r >>= k) (bs ++ cs) := by
  intro s hs
  rcases hs.append with hin | ⟨t, hroom, ht, hin⟩
  · exact (hcut s hin).bind_needs hk
  · rw [bind_done (h s t hroom ht)]
    exact hkcut _ hin

/-- Both reads refuse. -/
theorem Refuses.bind_refuses {r : Reader σ α} {k : α → Reader σ γ} {bs cs : List β} {a : α}
    (h : Reads V r bs a) (hcut : Refuses V r bs) (hkcut : Refuses V (k a) cs) :
    Refuses V (r >>= k) (bs ++ cs) := by
  intro s hs
  rcases hs.append with hin | ⟨t, hroom, ht, hin⟩
  · obtain ⟨s', hr⟩ := hcut s hin
    exact ⟨s', bind_refused hr⟩
  · rw [bind_done (h s t hroom ht)]
    exact hkcut _ hin

/-- Nor does it matter to a refusal. -/
theorem Refuses.map {r : Reader σ α} {f : α → γ} {bs : List β} (h : Refuses V r bs) :
    Refuses V (r >>= fun a => Pure.pure (f a)) bs := by
  intro s hs
  obtain ⟨s', hr⟩ := h s hs
  exact ⟨s', bind_refused hr⟩

/-- At the end of the stream a loop ends short, however many values it is for. -/
theorem Short.many {r : Reader σ α} (h : Short V r) (n : Nat) : Short V (many r n) := by
  induction n with
  | zero => exact Short.pure []
  | succ n ih => exact h.bind fun a => ih.bind fun as => Short.pure (a :: as)

/-- A loop over at most as many values as there are bytes left: where the stream ends inside
    the values, it ends short.  Every value takes a byte, so a loop that the bytes left have
    shortened comes to the end of the stream. -/
theorem many_endsShort {r : Reader σ α} {enc : α → List β} {as : List α}
    (hreads : ∀ a ∈ as, Reads V r (enc a) a) (hcut : ∀ a ∈ as, Cut V r (enc a))
    (hshort : Short V r) (hpos : ∀ a ∈ as, 0 < (enc a).length) {n : Nat} {s : σ}
    (hs : Inside V (as.flatMap enc) s) (hn : n = as.length ∨ (V.rest s).length ≤ n) :
    EndsShort V (many r n s) := by
  induction as generalizing n s with
  | nil => exact hs.not_nil.elim
  | cons a as ih =>
    have hposa := hpos a List.mem_cons_self
    have hroom := hs.room
    rw [List.flatMap_cons] at hs
    rw [List.flatMap_cons, List.length_append] at hroom
    cases n with
    | zero =>
      -- no byte is left, and no value is asked for
      have hnil : V.rest s = [] := by
        rcases hn with hn | hn
        · cases hn
        · exact List.length_eq_zero_iff.mp (by omega)
      exact .inr ⟨[], s, rfl, hnil, V.room_mono (by omega) hroom⟩
    | succ n =>
      have hrest : ∀ a, Short V (many r n >>= fun as => Pure.pure (a :: as)) := fun a =>
        (hshort.many n).bind fun as => Short.pure (a :: as)
      rcases hs.append with hin | ⟨t, hroom', ht, hin⟩
      -- the stream ends inside the first value: every reader behind it ends short
      · exact (hcut a List.mem_cons_self s hin).bind hrest
      · show EndsShort V ((r >>= fun a => many r n >>= fun as => Pure.pure (a :: as)) s)
        rw [bind_done (hreads a List.mem_cons_self s t hroom' ht)]
        refine (ih (fun b hb => hreads b (List.mem_cons_of_mem a hb))
          (fun b hb => hcut b (List.mem_cons_of_mem a hb))
          (fun b hb => hpos b (List.mem_cons_of_mem a hb)) hin ?_).bind
          fun as => Short.pure (a :: as)
        -- one value fewer is asked for, and at least one item fewer is left
        rcases hn with hn | hn
        · left
          simpa using hn
        · right
          rw [V.rest_skip, List.length_drop]
          omega

end Reader

end Athena
