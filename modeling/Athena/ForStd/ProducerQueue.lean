import Mathlib.Data.List.Basic

/-!
# A queue with several producers

The queue is the list of its elements with their producers, in the order they went in.
The elements of one producer come out in that order; nothing is promised about those of
different producers, so `dequeue` may take any element that is the first of its
producer (`i` is its position).

`of p` is what the producer `p` has in the queue.  `of_enqueue_self`, `of_dequeue_self`
and their `_of_ne` forms say what the operations do to it.
-/

namespace Athena.ProducerQueue

variable {P T : Type} [DecidableEq P]

/-- The elements of the producer `p`, in order. -/
def of (p : P) (q : List (P × T)) : List T :=
  (q.filter fun x => x.1 = p).map Prod.snd

/-- Put an element in. -/
def enqueue (p : P) (x : T) (q : List (P × T)) : List (P × T) :=
  q ++ [(p, x)]

/-- Take the element at position `i`, which has to be the first of its producer. -/
def dequeue (i : Nat) (q : List (P × T)) : Option ((P × T) × List (P × T)) :=
  match q[i]? with
  | none => none
  | some x => if (q.take i).all fun y => y.1 ≠ x.1 then some (x, q.eraseIdx i) else none

/-- Nobody has an element in the empty queue. -/
@[simp] theorem of_nil (p : P) : of p ([] : List (P × T)) = [] := rfl

/-- What a producer has in two queues, one behind the other. -/
theorem of_append (p : P) (q r : List (P × T)) : of p (q ++ r) = of p q ++ of p r := by
  rw [of, List.filter_append, List.map_append]
  rfl

/-- An element in front is its producer's first. -/
theorem of_cons_self (p : P) (x : T) (q : List (P × T)) : of p ((p, x) :: q) = x :: of p q := by
  simp [of]

/-- An element in front is nothing to another producer. -/
theorem of_cons_of_ne {p p' : P} (h : p' ≠ p) (x : T) (q : List (P × T)) :
    of p ((p', x) :: q) = of p q := by
  simp [of, h]

/-- An enqueued element is its producer's last. -/
theorem of_enqueue_self (p : P) (x : T) (q : List (P × T)) :
    of p (enqueue p x q) = of p q ++ [x] := by
  rw [enqueue, of_append, of_cons_self, of_nil]

/-- An enqueued element is nothing to another producer. -/
theorem of_enqueue_of_ne {p p' : P} (h : p' ≠ p) (x : T) (q : List (P × T)) :
    of p (enqueue p' x q) = of p q := by
  rw [enqueue, of_append, of_cons_of_ne h, of_nil, List.append_nil]

/-- What has gone in is what has come out and what is inside: an element goes in. -/
theorem of_enqueue_eq {all out q : List (P × T)} {p p' : P} {x : T}
    (h : of p all = of p out ++ of p q) :
    of p (enqueue p' x all) = of p out ++ of p (enqueue p' x q) := by
  by_cases hp : p' = p
  · subst hp
    rw [of_enqueue_self, of_enqueue_self, h, List.append_assoc]
  · rw [of_enqueue_of_ne hp, of_enqueue_of_ne hp, h]

/-- Where the element that is taken stands: no other of its producer is in front. -/
theorem dequeue_spec {i : Nat} {q q' : List (P × T)} {x : P × T}
    (h : dequeue i q = some (x, q')) :
    ∃ front rest, q = front ++ x :: rest ∧ q' = front ++ rest ∧ of x.1 front = [] := by
  rw [dequeue] at h
  cases hx : q[i]? with
  | none => rw [hx] at h; exact nomatch h
  | some y =>
    simp only [hx] at h
    split at h
    · rename_i hfirst
      obtain ⟨rfl, rfl⟩ := Prod.mk.inj (Option.some.inj h)
      obtain ⟨hi, hget⟩ := List.getElem?_eq_some_iff.mp hx
      refine ⟨q.take i, q.drop (i + 1), ?_, List.eraseIdx_eq_take_drop_succ _ _, ?_⟩
      · rw [← hget, ← List.drop_eq_getElem_cons hi, List.take_append_drop]
      · rw [of, List.map_eq_nil_iff, List.filter_eq_nil_iff]
        intro z hz
        simpa using List.all_eq_true.mp hfirst z hz
    · exact nomatch h

/-- The producer of the element taken had it in front. -/
theorem of_dequeue_self {i : Nat} {q q' : List (P × T)} {p : P} {x : T}
    (h : dequeue i q = some ((p, x), q')) : of p q = x :: of p q' := by
  obtain ⟨front, rest, rfl, rfl, hfront⟩ := dequeue_spec h
  rw [of_append, of_append, hfront, of_cons_self]
  rfl

/-- The other producers have what they had. -/
theorem of_dequeue_of_ne {i : Nat} {q q' : List (P × T)} {p p' : P} {x : T} (hne : p' ≠ p)
    (h : dequeue i q = some ((p', x), q')) : of p q = of p q' := by
  obtain ⟨front, rest, rfl, rfl, -⟩ := dequeue_spec h
  rw [of_append, of_append, of_cons_of_ne hne]

/-- An element that comes out is the first of its producer. -/
theorem of_dequeue {i : Nat} {q q' : List (P × T)} {x : P × T} (h : dequeue i q = some (x, q'))
    (p : P) : of p q = of p [x] ++ of p q' := by
  obtain ⟨p', x⟩ := x
  by_cases hp : p' = p
  · subst hp
    rw [of_dequeue_self h, of_cons_self]
    rfl
  · rw [of_dequeue_of_ne hp h, of_cons_of_ne hp]
    rfl

/-- What is taken was in the queue, and so was what is left. -/
theorem mem_of_dequeue {i : Nat} {q q' : List (P × T)} {x : P × T}
    (h : dequeue i q = some (x, q')) : x ∈ q ∧ ∀ y ∈ q', y ∈ q := by
  obtain ⟨front, rest, rfl, rfl, -⟩ := dequeue_spec h
  refine ⟨by simp, ?_⟩
  intro y hy
  cases List.mem_append.mp hy with
  | inl hfront => exact List.mem_append_left _ hfront
  | inr hrest => exact List.mem_append_right _ (List.mem_cons_of_mem x hrest)

/-- Taking an element out leaves the others. -/
theorem count_dequeue {β : Type} [BEq β] {i : Nat} {q q' : List (P × T)}
    {x : P × T} (h : dequeue i q = some (x, q')) (g : P × T → β) (b : β) :
    (q.map g).count b = [g x].count b + (q'.map g).count b := by
  obtain ⟨front, rest, rfl, rfl, -⟩ := dequeue_spec h
  simp only [List.map_append, List.map_cons, List.count_append, List.count_cons, List.count_nil]
  omega

/-- The first element can always be taken. -/
theorem dequeue_zero (x : P × T) (q : List (P × T)) : dequeue 0 (x :: q) = some (x, q) := by
  simp [dequeue]

end Athena.ProducerQueue
