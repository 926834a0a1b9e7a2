import Mathlib.Logic.Function.Basic

/-!
# Handles of a libuv loop

The part of a libuv loop that decides whether its handles are used correctly and
whether `uv_run` returns: which handles are initialised, open, closing or closed,
which are started (reading, listening, a running timer), and which requests
(connects and writes) are under way on them.  `H` names the handles and `R` the
requests.

`uv_close` aborts the process for a handle that is not initialised or already
closing, which sets `aborted`.  `calls` records the calls of `uv_*_init` and
`uv_close`.

## Key results

- `Frame`, `frame_init`, `frame_close`, …: the operations leave other handles alone
- `Sound.init`, `Sound.close`, …: the operations keep a loop sound as long as they
  are applied to handles in the right state
- `Sound.safe`: a sound loop has closed initialised handles only, each once
-/

namespace Athena.Uv

inductive HandleState where
  | uninit
  | opened
  | closing
  | closed
  deriving DecidableEq, Repr

inductive Call (H : Type _) where
  | init (h : H)
  | close (h : H)
  deriving DecidableEq, Repr

structure Loop (H R : Type _) where
  handles : H → HandleState
  /-- the initialised handles, in the order of their initialisation -/
  known : List H
  started : H → Bool
  reqs : H → List R
  calls : List (Call H)
  aborted : Bool

namespace Loop

variable {H R : Type _} [DecidableEq H]

/-- `uv_loop_init`. -/
def empty : Loop H R :=
  { handles := fun _ => .uninit, known := [], started := fun _ => false, reqs := fun _ => []
    calls := [], aborted := false }

/-- `uv_tcp_init` and its siblings. -/
def init (l : Loop H R) (h : H) : Loop H R :=
  { l with
    handles := Function.update l.handles h .opened
    known := l.known ++ [h]
    calls := l.calls ++ [Call.init h] }

/-- `uv_read_start`, `uv_listen`, `uv_timer_start`. -/
def start (l : Loop H R) (h : H) : Loop H R :=
  { l with started := Function.update l.started h true }

/-- `uv_read_stop`. -/
def stop (l : Loop H R) (h : H) : Loop H R :=
  { l with started := Function.update l.started h false }

/-- A connect or a write is accepted. -/
def submit (l : Loop H R) (h : H) (r : R) : Loop H R :=
  { l with reqs := Function.update l.reqs h (l.reqs h ++ [r]) }

/-- The `i`-th request is done and its callback is called. -/
def complete (l : Loop H R) (h : H) (i : Nat) : Loop H R :=
  { l with reqs := Function.update l.reqs h ((l.reqs h).eraseIdx i) }

/-- `uv_is_closing`. -/
def isClosing (l : Loop H R) (h : H) : Bool :=
  l.handles h == .closing || l.handles h == .closed

/-- `uv_close`. -/
def close (l : Loop H R) (h : H) : Loop H R :=
  if l.handles h = .opened then
    { l with
      handles := Function.update l.handles h .closing
      started := Function.update l.started h false
      calls := l.calls ++ [Call.close h] }
  else { l with aborted := true, calls := l.calls ++ [Call.close h] }

/-- `if (!uv_is_closing(h)) uv_close(h)`. -/
def closeUnlessClosing (l : Loop H R) (h : H) : Loop H R :=
  if l.isClosing h then l else l.close h

/-- The close callback of a handle is called. -/
def finish (l : Loop H R) (h : H) : Loop H R :=
  { l with handles := Function.update l.handles h .closed }

/-- The handle keeps `uv_run` from returning. -/
def active (l : Loop H R) (h : H) : Bool :=
  match l.handles h with
  | .opened => l.started h || !(l.reqs h).isEmpty
  | .closing => true
  | _ => false

/-- `uv_loop_alive`. -/
def alive (l : Loop H R) : Bool := l.known.any l.active

/-- `uv_walk` with a callback that closes what is not closing. -/
def walkClose (l : Loop H R) : Loop H R :=
  l.known.foldl closeUnlessClosing l

/-! ## What the operations do to the state of a handle -/

variable {l : Loop H R} {h h' : H}

/-- `uv_*_init` opens its handle and no other. -/
theorem handles_init : (l.init h).handles h' = if h' = h then .opened else l.handles h' :=
  Function.update_apply ..

/-- Starting a handle does not change its state. -/
@[simp] theorem handles_start : (l.start h).handles = l.handles := rfl

/-- Nor does stopping it. -/
@[simp] theorem handles_stop : (l.stop h).handles = l.handles := rfl

/-- A request on a handle does not change its state. -/
@[simp] theorem handles_submit (r : R) : (l.submit h r).handles = l.handles := rfl

/-- Nor does the end of a request. -/
@[simp] theorem handles_complete (i : Nat) : (l.complete h i).handles = l.handles := rfl

/-- A close callback closes its handle and no other. -/
theorem handles_finish : (l.finish h).handles h' = if h' = h then .closed else l.handles h' :=
  Function.update_apply ..

/-- `uv_close` leaves the state of every other handle alone. -/
theorem handles_close_of_ne (hne : h' ≠ h) : (l.close h).handles h' = l.handles h' := by
  unfold close
  split
  · exact Function.update_of_ne hne _ _
  · rfl

/-- `uv_close` stops no other handle. -/
theorem started_close_of_ne (hne : h' ≠ h) : (l.close h).started h' = l.started h' := by
  unfold close
  split
  · exact Function.update_of_ne hne _ _
  · rfl

/-- An open handle is closing after `uv_close`. -/
theorem handles_close_self (hopen : l.handles h = .opened) : (l.close h).handles h = .closing := by
  rw [close, if_pos hopen]
  exact Function.update_self _ _ _

/-- `uv_close` initialises nothing. -/
theorem handles_close_eq_uninit : (l.close h).handles h' = .uninit ↔ l.handles h' = .uninit := by
  by_cases hne : h' = h
  · subst hne
    unfold close
    split
    · rename_i hopen
      simp [hopen]
    · rfl
  · rw [handles_close_of_ne hne]

/-- `uv_close` leaves the requests to their callbacks. -/
@[simp] theorem reqs_close : (l.close h).reqs = l.reqs := by
  unfold close
  split <;> rfl

/-- A closing handle stays on the loop's list until its callback. -/
@[simp] theorem known_close : (l.close h).known = l.known := by
  unfold close
  split <;> rfl

/-- `uv_close` of an open handle does not abort. -/
theorem aborted_close (hopen : l.handles h = .opened) : (l.close h).aborted = l.aborted := by
  rw [close, if_pos hopen]

/-- A call of `uv_close` that goes wrong is not forgotten. -/
theorem aborted_of_close (hab : l.aborted = true) : (l.close h).aborted = true := by
  unfold close
  split
  · exact hab
  · rfl

/-- An initialised handle is put on the loop's list. -/
theorem known_init : (l.init h).known = l.known ++ [h] := rfl

/-- The handles a loop knows are the initialised ones. -/
def Known (l : Loop H R) : Prop := ∀ h, h ∈ l.known ↔ l.handles h ≠ .uninit

/-- The list stays right as a handle is initialised. -/
theorem Known.init (hl : l.Known) (h : H) : (l.init h).Known := by
  intro g
  rw [known_init, handles_init]
  by_cases hg : g = h
  · simp [hg]
  · simp [hg, hl g]

/-- The list stays right over `uv_close`: a closing handle is initialised. -/
theorem Known.close (hl : l.Known) (h : H) : (l.close h).Known := by
  intro g
  rw [known_close, ne_eq, handles_close_eq_uninit]
  exact hl g

/-- The list stays right over a close callback. -/
theorem Known.finish (hl : l.Known) (hinit : l.handles h ≠ .uninit) : (l.finish h).Known := by
  intro g
  rw [handles_finish]
  by_cases hg : g = h
  · simp [Loop.finish, hg, (hl h).mpr hinit]
  · simp [Loop.finish, hg, hl g]

/-! ## Operations on other handles -/

/-- The handles in `p` are as they were. -/
structure Frame (p : H → Bool) (l l' : Loop H R) : Prop where
  handles : ∀ h, p h = true → l'.handles h = l.handles h
  started : ∀ h, p h = true → l'.started h = l.started h
  reqs : ∀ h, p h = true → l'.reqs h = l.reqs h
  known : l.Known → l'.Known
  aborted : l'.aborted = false → l.aborted = false

section
variable {p : H → Bool} {l' l'' : Loop H R}

omit [DecidableEq H] in
/-- Doing nothing leaves every handle alone. -/
theorem Frame.refl (l : Loop H R) : Frame p l l :=
  ⟨fun _ _ => rfl, fun _ _ => rfl, fun _ _ => rfl, fun hk => hk, fun ha => ha⟩

omit [DecidableEq H] in
/-- Two steps that leave the handles in `p` alone do so together. -/
theorem Frame.trans (h₁ : Frame p l l') (h₂ : Frame p l' l'') : Frame p l l'' where
  handles g hg := (h₂.handles g hg).trans (h₁.handles g hg)
  started g hg := (h₂.started g hg).trans (h₁.started g hg)
  reqs g hg := (h₂.reqs g hg).trans (h₁.reqs g hg)
  known hk := h₂.known (h₁.known hk)
  aborted ha := h₁.aborted (h₂.aborted ha)

omit [DecidableEq H] in
/-- A handle in `p` is not the handle outside `p` that an operation is for. -/
theorem ne_of_frame {g : H} (hg : p g = true) (hh : p h = false) : g ≠ h := by
  intro heq
  rw [heq, hh] at hg
  exact absurd hg (by decide)

/-- `uv_*_init` leaves the other handles alone. -/
theorem frame_init (hh : p h = false) : Frame p l (l.init h) where
  handles _ hg := by rw [handles_init, if_neg (ne_of_frame hg hh)]
  started _ _ := rfl
  reqs _ _ := rfl
  known hk := hk.init h
  aborted ha := ha

/-- Starting a handle leaves the other handles alone. -/
theorem frame_start (hh : p h = false) : Frame p l (l.start h) where
  handles _ _ := rfl
  started _ hg := Function.update_of_ne (ne_of_frame hg hh) _ _
  reqs _ _ := rfl
  known hk := hk
  aborted ha := ha

/-- Stopping a handle leaves the other handles alone. -/
theorem frame_stop (hh : p h = false) : Frame p l (l.stop h) where
  handles _ _ := rfl
  started _ hg := Function.update_of_ne (ne_of_frame hg hh) _ _
  reqs _ _ := rfl
  known hk := hk
  aborted ha := ha

/-- `uv_close` leaves the other handles alone; it may abort, and never takes that back. -/
theorem frame_close (hh : p h = false) : Frame p l (l.close h) where
  handles _ hg := handles_close_of_ne (ne_of_frame hg hh)
  started _ hg := started_close_of_ne (ne_of_frame hg hh)
  reqs _ _ := by rw [reqs_close]
  known hk := hk.close h
  aborted ha := by
    cases hab : l.aborted with
    | false => rfl
    | true => rw [aborted_of_close hab] at ha; exact ha

/-- A request leaves the other handles alone. -/
theorem frame_submit (hh : p h = false) (r : R) : Frame p l (l.submit h r) where
  handles _ _ := rfl
  started _ _ := rfl
  reqs _ hg := Function.update_of_ne (ne_of_frame hg hh) _ _
  known hk := hk
  aborted ha := ha

/-- The end of a request leaves the other handles alone. -/
theorem frame_complete (hh : p h = false) (i : Nat) : Frame p l (l.complete h i) where
  handles _ _ := rfl
  started _ _ := rfl
  reqs _ hg := Function.update_of_ne (ne_of_frame hg hh) _ _
  known hk := hk
  aborted ha := ha

/-- The close callback leaves the other handles alone. -/
theorem frame_finish (hh : p h = false) (hclosing : l.handles h = .closing) :
    Frame p l (l.finish h) where
  handles _ hg := by rw [handles_finish, if_neg (ne_of_frame hg hh)]
  started _ _ := rfl
  reqs _ _ := rfl
  known hk := hk.finish (by simp [hclosing])
  aborted ha := ha

/-- The guarded close leaves the other handles alone. -/
theorem frame_closeUnlessClosing (hh : p h = false) : Frame p l (closeUnlessClosing l h) := by
  unfold closeUnlessClosing
  split
  · exact Frame.refl l
  · exact frame_close hh

omit [DecidableEq H] in
/-- What leaves the handles in `p` alone at each handle of a list does so over the list. -/
theorem frame_foldl (f : Loop H R → H → Loop H R)
    (hf : ∀ l h, p h = false → Frame p l (f l h)) {hs : List H} (hhs : ∀ h ∈ hs, p h = false) :
    Frame p l (hs.foldl f l) := by
  induction hs generalizing l with
  | nil => exact Frame.refl l
  | cons h hs ih =>
    rw [List.foldl_cons]
    exact (hf l h (hhs h List.mem_cons_self)).trans
      (ih fun g hg => hhs g (List.mem_cons_of_mem h hg))

end

/-! ## Closing -/

/-- `l'` is `l` after calls of `uv_close` and close callbacks. -/
structure Closing (l l' : Loop H R) : Prop where
  uninit : ∀ h, l'.handles h = .uninit ↔ l.handles h = .uninit
  opened : ∀ h, l'.handles h = .opened → l.handles h = .opened
  started : ∀ h, l'.started h = true → l.started h = true
  reqs : l'.reqs = l.reqs

section
variable {l' l'' : Loop H R}

omit [DecidableEq H] in
/-- No call is a run of closes. -/
theorem Closing.refl (l : Loop H R) : Closing l l :=
  ⟨fun _ => Iff.rfl, fun _ ho => ho, fun _ hs => hs, rfl⟩

omit [DecidableEq H] in
/-- Two runs of closes are one. -/
theorem Closing.trans (h₁ : Closing l l') (h₂ : Closing l' l'') : Closing l l'' where
  uninit g := (h₂.uninit g).trans (h₁.uninit g)
  opened g ho := h₁.opened g (h₂.opened g ho)
  started g hs := h₁.started g (h₂.started g hs)
  reqs := h₂.reqs.trans h₁.reqs

/-- `uv_close` opens nothing, starts nothing and drops no request. -/
theorem closing_close (l : Loop H R) (h : H) : Closing l (l.close h) where
  uninit _ := handles_close_eq_uninit
  opened g ho := by
    by_cases hg : g = h
    · rw [hg] at ho ⊢
      -- an open handle would have become closing
      by_contra hne
      rw [close, if_neg hne] at ho
      exact hne ho
    · rwa [handles_close_of_ne hg] at ho
  started g hs := by
    by_cases hg : g = h
    · rw [hg] at hs ⊢
      unfold close at hs
      split at hs
      · simp at hs
      · exact hs
    · rwa [started_close_of_ne hg] at hs
  reqs := reqs_close

/-- A close callback opens nothing and starts nothing. -/
theorem closing_finish (hclosing : l.handles h = .closing) : Closing l (l.finish h) where
  uninit g := by
    rw [handles_finish]
    by_cases hg : g = h <;> simp [hg, hclosing]
  opened g ho := by
    rw [handles_finish] at ho
    split at ho
    · simp at ho
    · exact ho
  started _ hs := hs
  reqs := rfl

omit [DecidableEq H] in
/-- A loop over handles that only closes is a run of closes. -/
theorem closing_foldl (f : Loop H R → H → Loop H R) (hf : ∀ l h, Closing l (f l h)) (hs : List H) :
    Closing l (hs.foldl f l) := by
  induction hs generalizing l with
  | nil => exact Closing.refl l
  | cons h hs ih =>
    rw [List.foldl_cons]
    exact (hf l h).trans ih

omit [DecidableEq H] in
/-- A handle that every step of the fold leaves closed is not open after it. -/
theorem foldl_not_opened (f : Loop H R → H → Loop H R) (hf : ∀ l h, Closing l (f l h))
    (hclosed : ∀ l h, (f l h).handles h ≠ .opened) {hs : List H} (hh : h ∈ hs) :
    (hs.foldl f l).handles h ≠ .opened := by
  induction hs generalizing l with
  | nil => simp at hh
  | cons g hs ih =>
    rw [List.foldl_cons]
    rcases List.mem_cons.mp hh with rfl | hrest
    · exact fun ho => hclosed l h ((closing_foldl f hf hs).opened h ho)
    · exact ih hrest

/-- The guarded close is a run of closes. -/
theorem closing_closeUnlessClosing (l : Loop H R) (h : H) :
    Closing l (closeUnlessClosing l h) := by
  unfold closeUnlessClosing
  split
  · exact Closing.refl l
  · exact closing_close l h

/-- After the guarded close the handle is not open. -/
theorem closeUnlessClosing_not_opened (l : Loop H R) (h : H) :
    (closeUnlessClosing l h).handles h ≠ .opened := by
  unfold closeUnlessClosing
  split
  · rename_i hclosing
    intro ho
    simp [isClosing, ho] at hclosing
  · intro ho
    rw [handles_close_self ((closing_close l h).opened h ho)] at ho
    simp at ho

/-- Walking over the loop is a run of closes. -/
theorem closing_walkClose (l : Loop H R) : Closing l l.walkClose :=
  closing_foldl _ closing_closeUnlessClosing l.known

end

/-! ## Sound loops -/

/-- Every `uv_close` is for an initialised handle that has not been closed before. -/
def Safe {H : Type _} (calls : List (Call H)) : Prop :=
  ∀ pre h post, calls = pre ++ Call.close h :: post → .init h ∈ pre ∧ .close h ∉ pre

omit [DecidableEq H] in
/-- A call at the end of a safe record keeps it safe if it is no second `uv_close`. -/
theorem Safe.append {calls : List (Call H)} {c : Call H} (hs : Safe calls)
    (hc : ∀ h, c = .close h → .init h ∈ calls ∧ .close h ∉ calls) : Safe (calls ++ [c]) := by
  intro pre h post heq
  -- the call is the last one, or it is one of the earlier ones
  rcases List.eq_nil_or_concat post with rfl | ⟨post', d, rfl⟩
  · obtain ⟨rfl, hlast⟩ := List.append_inj' heq rfl
    exact hc h (List.singleton_inj.mp hlast)
  · rw [List.concat_eq_append, ← List.cons_append, ← List.append_assoc] at heq
    exact hs pre h post' (List.append_inj' heq rfl).1

/-- Nothing has gone wrong, and `calls` is what led to the state of each handle. -/
structure Sound (l : Loop H R) : Prop where
  running : l.aborted = false
  init_iff : ∀ h, .init h ∈ l.calls ↔ l.handles h ≠ .uninit
  close_iff : ∀ h, .close h ∈ l.calls ↔ l.handles h = .closing ∨ l.handles h = .closed
  known : l.Known
  safe : Safe l.calls

omit [DecidableEq H] in
/-- A new loop is sound. -/
theorem Sound.empty : Sound (Loop.empty : Loop H R) where
  running := rfl
  init_iff := by simp [Loop.empty]
  close_iff := by simp [Loop.empty]
  known h := by simp [Loop.empty]
  safe pre h post heq := by simp [Loop.empty] at heq

/-- A sound loop stays sound if only handles that are not initialised are initialised. -/
theorem Sound.init (hl : Sound l) (hun : l.handles h = .uninit) : Sound (l.init h) where
  running := hl.running
  init_iff g := by
    rw [handles_init]
    by_cases hg : g = h
    · simp [Loop.init, hg]
    · simp [Loop.init, hg, hl.init_iff]
  close_iff g := by
    rw [handles_init]
    by_cases hg : g = h
    · simp [Loop.init, hg, hl.close_iff, hun]
    · simp [Loop.init, hg, hl.close_iff]
  known := hl.known.init h
  safe := hl.safe.append (by simp)

/-- A sound loop stays sound if only open handles are closed. -/
theorem Sound.close (hl : Sound l) (hopen : l.handles h = .opened) : Sound (l.close h) where
  running := (aborted_close hopen).trans hl.running
  init_iff g := by
    rw [ne_eq, handles_close_eq_uninit, Loop.close, if_pos hopen]
    simp [hl.init_iff]
  close_iff g := by
    by_cases hg : g = h
    · rw [hg, handles_close_self hopen, Loop.close, if_pos hopen]
      simp
    · rw [handles_close_of_ne hg, Loop.close, if_pos hopen]
      simp [hl.close_iff, hg]
  known := hl.known.close h
  safe := by
    rw [Loop.close, if_pos hopen]
    refine hl.safe.append ?_
    -- the new call is this close: the record has the handle's init and no close of it
    intro g hg
    obtain rfl := (Call.close.inj hg)
    refine ⟨(hl.init_iff h).mpr (by simp [hopen]), ?_⟩
    rw [hl.close_iff]
    simp [hopen]

/-- A sound loop stays sound if the close callbacks are for closing handles. -/
theorem Sound.finish (hl : Sound l) (hclosing : l.handles h = .closing) : Sound (l.finish h) where
  running := hl.running
  init_iff g := by
    rw [handles_finish]
    by_cases hg : g = h
    · simp [Loop.finish, hg, hl.init_iff, hclosing]
    · simp [Loop.finish, hg, hl.init_iff]
  close_iff g := by
    rw [handles_finish]
    by_cases hg : g = h
    · simp [Loop.finish, hg, hl.close_iff, hclosing]
    · simp [Loop.finish, hg, hl.close_iff]
  known := hl.known.finish (by simp [hclosing])
  safe := hl.safe

omit [DecidableEq H] in
/-- Starting, stopping and requests are not part of soundness. -/
theorem Sound.congr {l' : Loop H R} (hl : Sound l) (hh : l'.handles = l.handles)
    (hk : l'.known = l.known) (hc : l'.calls = l.calls) (ha : l'.aborted = l.aborted) :
    Sound l' where
  running := ha.trans hl.running
  init_iff := by rw [hh, hc]; exact hl.init_iff
  close_iff := by rw [hh, hc]; exact hl.close_iff
  known h := by rw [hh, hk]; exact hl.known h
  safe := hc ▸ hl.safe

/-- Starting a handle keeps a loop sound. -/
theorem Sound.start (hl : Sound l) (h : H) : Sound (l.start h) := hl.congr rfl rfl rfl rfl

/-- Stopping a handle keeps a loop sound. -/
theorem Sound.stop (hl : Sound l) (h : H) : Sound (l.stop h) := hl.congr rfl rfl rfl rfl

/-- A request keeps a loop sound. -/
theorem Sound.submit (hl : Sound l) (h : H) (r : R) : Sound (l.submit h r) :=
  hl.congr rfl rfl rfl rfl

/-- The end of a request keeps a loop sound. -/
theorem Sound.complete (hl : Sound l) (h : H) (i : Nat) : Sound (l.complete h i) :=
  hl.congr rfl rfl rfl rfl

/-- Different open handles are closed one after the other. -/
theorem Sound.foldl_close {hs : List H} (hl : Sound l) (hnodup : hs.Nodup)
    (hopen : ∀ h ∈ hs, l.handles h = .opened) : Sound (hs.foldl Loop.close l) := by
  induction hs generalizing l with
  | nil => exact hl
  | cons h hs ih =>
    rw [List.nodup_cons] at hnodup
    rw [List.foldl_cons]
    refine ih (hl.close (hopen h List.mem_cons_self)) hnodup.2 ?_
    intro g hg
    have hne : g ≠ h := fun heq => hnodup.1 (heq ▸ hg)
    rw [handles_close_of_ne hne]
    exact hopen g (List.mem_cons_of_mem h hg)

/-- Different handles are initialised and started one after the other. -/
theorem Sound.foldl_init {hs : List H} (hl : Sound l) (hnodup : hs.Nodup)
    (hun : ∀ h ∈ hs, l.handles h = .uninit) :
    Sound (hs.foldl (fun l h => (l.init h).start h) l) := by
  induction hs generalizing l with
  | nil => exact hl
  | cons h hs ih =>
    rw [List.nodup_cons] at hnodup
    rw [List.foldl_cons]
    refine ih ((hl.init (hun h List.mem_cons_self)).start h) hnodup.2 ?_
    intro g hg
    have hne : g ≠ h := fun heq => hnodup.1 (heq ▸ hg)
    rw [handles_start, handles_init, if_neg hne]
    exact hun g (List.mem_cons_of_mem h hg)

/-! ## The walk -/

/-- The loop's list stays right over the guarded close. -/
theorem Known.closeUnlessClosing (hl : l.Known) (h : H) : (closeUnlessClosing l h).Known := by
  unfold Loop.closeUnlessClosing
  split
  · exact hl
  · exact hl.close h

/-- The guarded close of one handle leaves a handle that is not open as it is. -/
theorem handles_closeUnlessClosing (hne : l.handles h ≠ .opened) :
    (closeUnlessClosing l h').handles h = l.handles h := by
  unfold Loop.closeUnlessClosing close
  split
  · rfl
  split
  · rename_i hopen
    have hh : h ≠ h' := fun heq => hne (heq ▸ hopen)
    exact Function.update_of_ne hh _ _
  · rfl

/-- A handle that is initialised can be closed unless it is closing. -/
theorem Sound.closeUnlessClosing (hl : Sound l) (hinit : l.handles h ≠ .uninit) :
    Sound (closeUnlessClosing l h) := by
  unfold Loop.closeUnlessClosing
  split
  · exact hl
  · rename_i hopen
    refine hl.close ?_
    cases hst : l.handles h with
    | opened => rfl
    | uninit => exact absurd hst hinit
    | closing => simp [isClosing, hst] at hopen
    | closed => simp [isClosing, hst] at hopen

/-- A sound loop stays sound when initialised handles are closed under the guard. -/
theorem Sound.foldl_closeUnlessClosing {hs : List H} (hl : Sound l)
    (hinit : ∀ h ∈ hs, l.handles h ≠ .uninit) : Sound (hs.foldl Loop.closeUnlessClosing l) := by
  induction hs generalizing l with
  | nil => exact hl
  | cons h hs ih =>
    rw [List.foldl_cons]
    refine ih (hl.closeUnlessClosing (hinit h List.mem_cons_self)) ?_
    intro g hg
    rw [ne_eq, (closing_closeUnlessClosing l h).uninit]
    exact hinit g (List.mem_cons_of_mem h hg)

/-- A handle that is not open stays as it is. -/
theorem walkClose_handles (hne : l.handles h ≠ .opened) : l.walkClose.handles h = l.handles h := by
  unfold walkClose
  generalize l.known = hs
  induction hs generalizing l with
  | nil => rfl
  | cons g hs ih =>
    have hstep : (closeUnlessClosing l g).handles h = l.handles h := handles_closeUnlessClosing hne
    rw [List.foldl_cons, ih (by rw [hstep]; exact hne), hstep]

/-- The walk leaves the requests to their callbacks. -/
theorem walkClose_reqs : l.walkClose.reqs = l.reqs := (closing_walkClose l).reqs

/-- The loop's list stays right over the walk. -/
theorem Known.walkClose (hl : l.Known) : l.walkClose.Known := by
  unfold Loop.walkClose
  generalize l.known = hs
  induction hs generalizing l with
  | nil => exact hl
  | cons g hs ih =>
    rw [List.foldl_cons]
    exact ih (hl.closeUnlessClosing g)

/-- `uv_walk` closes open handles only. -/
theorem Sound.walkClose (hl : Sound l) : Sound l.walkClose :=
  hl.foldl_closeUnlessClosing fun h hh => (hl.known h).mp hh

omit [DecidableEq H] in
/-- When `uv_run` returns, no handle is closing and the open ones have stopped. -/
theorem Known.of_not_alive (hl : l.Known) (halive : l.alive = false) :
    l.handles h ≠ .closing ∧ (l.handles h = .opened → l.started h = false ∧ l.reqs h = []) := by
  have hinactive : l.handles h ≠ .uninit → l.active h = false := by
    intro hinit
    by_contra hact
    have : l.alive = true := List.any_eq_true.mpr ⟨h, (hl h).mpr hinit, by simpa using hact⟩
    rw [this] at halive
    simp at halive
  constructor
  · intro hclosing
    have := hinactive (by simp [hclosing])
    simp [active, hclosing] at this
  · intro hopen
    have := hinactive (by simp [hopen])
    simpa [active, hopen] using this

end Loop

end Athena.Uv
