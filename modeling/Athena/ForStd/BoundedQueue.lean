import Athena.ForStd.Cyclic

/-!
# A bounded first-in first-out queue

A queue of at most `K` elements that can be filled behind its end before the filled
elements are put in.  `ahead` is what stands there, one element for each that the queue
has room for.

`Pushed`, `Popped`, `Filled` and `Emptied` say what an operation makes of a queue.  What
comes to stand at the end of `ahead` when elements leave is nobody's concern, so
`Popped` and `Emptied` leave it open.
-/

namespace Athena

/-- A queue of at most `K` elements. -/
structure BoundedQueue (α : Type _) (K : Nat) where
  elems : List α
  ahead : List α
  length_eq : elems.length + ahead.length = K

namespace BoundedQueue

variable {α : Type _} {K : Nat} {q q' : BoundedQueue α K}

/-- How many elements can be put in. -/
def room (q : BoundedQueue α K) : Nat := q.ahead.length

/-- `src` was put in. -/
structure Pushed (q : BoundedQueue α K) (src : List α) (q' : BoundedQueue α K) : Prop where
  elems : q'.elems = q.elems ++ src
  ahead : q'.ahead = q.ahead.drop src.length

/-- The first `n` elements were taken out. -/
structure Popped (q : BoundedQueue α K) (n : Nat) (q' : BoundedQueue α K) : Prop where
  elems : q'.elems = q.elems.drop n
  ahead : q.ahead <+: q'.ahead

/-- `src` was put behind the end of the queue, `off` elements from it. -/
structure Filled (q : BoundedQueue α K) (off : Nat) (src : List α) (q' : BoundedQueue α K) :
    Prop where
  elems : q'.elems = q.elems
  ahead : q'.ahead = Cyclic.overwrite q.ahead off src

/-- Putting in nothing leaves the queue as it is. -/
theorem Pushed.nil (q : BoundedQueue α K) : q.Pushed [] q where
  elems := (List.append_nil _).symm
  ahead := rfl

/-- A queue that nothing is taken from stays as it is. -/
theorem Popped.zero (q : BoundedQueue α K) : q.Popped 0 q where
  elems := rfl
  ahead := List.prefix_refl _

/-- So does a queue that nothing is put behind. -/
theorem Filled.nil (q : BoundedQueue α K) (off : Nat) : q.Filled off [] q where
  elems := rfl
  ahead := (Cyclic.overwrite_nil _ _).symm

/-- Two fillings side by side are one filling. -/
theorem Filled.append {m : BoundedQueue α K} {off : Nat} {s₁ s₂ : List α}
    (h₁ : q.Filled off s₁ m) (h₂ : m.Filled (off + s₁.length) s₂ q')
    (hfit : off + s₁.length + s₂.length ≤ q.room) : q.Filled off (s₁ ++ s₂) q' where
  elems := h₂.elems.trans h₁.elems
  ahead := by rw [h₂.ahead, h₁.ahead]; exact Cyclic.overwrite_append hfit

/-- Putting in what was filled in behind the end. -/
theorem Filled.pushed {m : BoundedQueue α K} {src : List α} (hf : q.Filled 0 src m)
    (hp : m.Pushed (m.ahead.take src.length) q') : q.Pushed src q' where
  elems := by
    rw [hp.elems, hf.elems, hf.ahead, Cyclic.overwrite_zero, List.take_left]
  ahead := by
    have hle : src.length ≤ m.ahead.length := by
      rw [hf.ahead, Cyclic.overwrite_zero, List.length_append]; omega
    rw [hp.ahead, List.length_take, Nat.min_eq_left hle, hf.ahead, Cyclic.overwrite_zero,
      List.drop_left]

end BoundedQueue

end Athena
