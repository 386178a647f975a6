import Mathlib.Data.List.Basic
import Mathlib.Logic.Function.Basic

/-!
# A queue of several producers

Each producer has a queue of its own. A consumer takes from any of them that is not empty, so what
different producers push comes out in any order, and what one producer pushes in the order in which
it was pushed. `pushed` and `popped` are histories.

Main result: `IsFifo`, which every operation keeps. What a producer has pushed is what was popped of
it, then what is left in its queue.
-/

/-- The queues, what was pushed to each, and what was popped of all in the order of the pops. -/
structure ProducerQueue (π α : Type*) where
  queue : π → List α
  pushed : π → List α
  popped : List (π × α)

namespace ProducerQueue

variable {π α : Type*} [DecidableEq π]

def empty : ProducerQueue π α := { queue := fun _ => [], pushed := fun _ => [], popped := [] }

variable (q : ProducerQueue π α)

/-- A producer pushes to its own queue. -/
def push (p : π) (x : α) : ProducerQueue π α :=
  { q with
    queue := Function.update q.queue p (q.queue p ++ [x])
    pushed := Function.update q.pushed p (q.pushed p ++ [x]) }

/-- The next of a producer, unless its queue is empty. -/
def pop (p : π) : Option (α × ProducerQueue π α) :=
  match q.queue p with
  | [] => none
  | x :: xs =>
    some (x, { q with
      queue := Function.update q.queue p xs
      popped := q.popped ++ [(p, x)] })

/-- What was popped of a producer. -/
def poppedOf (p : π) : List α := (q.popped.filter (·.1 = p)).map Prod.snd

/-- What a producer has pushed was popped in this order, or is still in its queue. -/
def IsFifo : Prop := ∀ p, q.pushed p = q.poppedOf p ++ q.queue p

variable {q} {q' : ProducerQueue π α} {p p' : π} {x : α}

/-- Everything that a `pop` does. -/
theorem pop_eq_some_iff : q.pop p = some (x, q') ↔ ∃ xs, q.queue p = x :: xs ∧
    q' = { q with queue := Function.update q.queue p xs, popped := q.popped ++ [(p, x)] } := by
  unfold pop
  cases hqueue : q.queue p with
  | nil => simp
  | cons y ys =>
    constructor
    · rintro ⟨⟩
      exact ⟨ys, rfl, rfl⟩
    · rintro ⟨xs, hcons, rfl⟩
      cases hcons
      rfl

@[simp] theorem poppedOf_empty : (empty : ProducerQueue π α).poppedOf p = [] := rfl

/-- Nothing is popped by a `push`. -/
@[simp] theorem poppedOf_push : (q.push p x).poppedOf p' = q.poppedOf p' := rfl

@[simp] theorem popped_push : (q.push p x).popped = q.popped := rfl

theorem queue_push : (q.push p x).queue p = q.queue p ++ [x] := Function.update_self ..

/-- A `push` leaves the queues of the other producers. -/
theorem queue_push_of_ne (h : p' ≠ p) : (q.push p x).queue p' = q.queue p' :=
  Function.update_of_ne h ..

theorem pushed_push : (q.push p x).pushed p = q.pushed p ++ [x] := Function.update_self ..

theorem pushed_push_of_ne (h : p' ≠ p) : (q.push p x).pushed p' = q.pushed p' :=
  Function.update_of_ne h ..

/-- A `pop` is the next one of its producer. -/
theorem poppedOf_pop (h : q.pop p = some (x, q')) : q'.poppedOf p = q.poppedOf p ++ [x] := by
  obtain ⟨xs, -, rfl⟩ := pop_eq_some_iff.mp h
  simp [poppedOf]

/-- It is none of another producer. -/
theorem poppedOf_pop_of_ne (h : q.pop p = some (x, q')) (hne : p' ≠ p) :
    q'.poppedOf p' = q.poppedOf p' := by
  obtain ⟨xs, -, rfl⟩ := pop_eq_some_iff.mp h
  simp [poppedOf, hne.symm]

/-- A `pop` takes the head of the queue. -/
theorem queue_pop (h : q.pop p = some (x, q')) : q.queue p = x :: q'.queue p := by
  obtain ⟨xs, hqueue, rfl⟩ := pop_eq_some_iff.mp h
  simpa using hqueue

theorem queue_pop_of_ne (h : q.pop p = some (x, q')) (hne : p' ≠ p) :
    q'.queue p' = q.queue p' := by
  obtain ⟨xs, -, rfl⟩ := pop_eq_some_iff.mp h
  simp [hne]

theorem pushed_pop (h : q.pop p = some (x, q')) : q'.pushed = q.pushed := by
  obtain ⟨xs, -, rfl⟩ := pop_eq_some_iff.mp h
  rfl

theorem isFifo_empty : (empty : ProducerQueue π α).IsFifo := fun _ => rfl

/-- A `push` goes behind everything that the producer has pushed. -/
theorem IsFifo.push (h : q.IsFifo) (p : π) (x : α) : (q.push p x).IsFifo := by
  intro p'
  by_cases hp : p' = p
  · subst hp
    rw [pushed_push, queue_push, poppedOf_push, h, List.append_assoc]
  · rw [pushed_push_of_ne hp, queue_push_of_ne hp, poppedOf_push, h]

/-- The head of a queue is next after what was popped. -/
theorem IsFifo.pop (h : q.IsFifo) (hpop : q.pop p = some (x, q')) : q'.IsFifo := by
  intro p'
  rw [pushed_pop hpop]
  by_cases hp : p' = p
  · subst hp
    rw [poppedOf_pop hpop, List.append_assoc, List.singleton_append, ← queue_pop hpop, h]
  · rw [poppedOf_pop_of_ne hpop hp, queue_pop_of_ne hpop hp, h]

end ProducerQueue
