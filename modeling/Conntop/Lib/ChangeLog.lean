import Mathlib.Data.Set.Insert

/-!
# Replaying a log of insertions and deletions

A set is followed by its log: `replay` applies the changes of a log in order. The last change of
an element decides (`mem_replay`), so a log can be replayed over a set that its changes already
made exactly when the last change of each of its elements agrees with the set
(`replay_eq_self`).
-/

namespace ChangeLog

variable {α : Type*}

inductive Change (α : Type*)
  | insert (a : α)
  | erase (a : α)
  deriving DecidableEq

namespace Change

def key : Change α → α
  | insert a | erase a => a

def isInsert : Change α → Bool
  | insert _ => true
  | erase _ => false

def apply (s : Set α) : Change α → Set α
  | insert a => Insert.insert a s
  | erase a => s \ {a}

theorem mem_apply [DecidableEq α] {a : α} {x : Change α} {s : Set α} :
    a ∈ x.apply s ↔ if x.key = a then x.isInsert = true else a ∈ s := by
  cases x with
  | insert b =>
    show a = b ∨ a ∈ s ↔ if b = a then true = true else a ∈ s
    by_cases h : b = a
    · simp [h]
    · simp [h, Ne.symm h]
  | erase b =>
    show a ∈ s ∧ a ≠ b ↔ if b = a then false = true else a ∈ s
    by_cases h : b = a
    · simp [h]
    · simp [h, Ne.symm h]

end Change

def replay (log : List (Change α)) (s : Set α) : Set α := log.foldl Change.apply s

@[simp] theorem replay_nil (s : Set α) : replay [] s = s := rfl

theorem replay_append (log log' : List (Change α)) (s : Set α) :
    replay (log ++ log') s = replay log' (replay log s) := List.foldl_append

variable [DecidableEq α]

/-- Whether the last change of an element inserts it. -/
def last (a : α) : List (Change α) → Option Bool
  | [] => none
  | x :: log => (last a log).or (if x.key = a then some x.isInsert else none)

theorem last_eq_none {a : α} {log : List (Change α)} :
    last a log = none ↔ ∀ x ∈ log, x.key ≠ a := by
  induction log with
  | nil => simp [last]
  | cons x log ih => simp [last, Option.or_eq_none_iff, ih, and_comm]

/-- The last change of an element decides. -/
theorem mem_replay {a : α} {log : List (Change α)} {s : Set α} :
    a ∈ replay log s ↔ (last a log).elim (a ∈ s) (· = true) := by
  induction log generalizing s with
  | nil => rfl
  | cons x log ih =>
    show a ∈ replay log (x.apply s) ↔ _
    rw [ih, last]
    cases hl : last a log with
    | some b => rfl
    | none =>
      rw [Option.none_or]
      show a ∈ x.apply s ↔ _
      rw [Change.mem_apply]
      split_ifs <;> rfl

/-- An element that no change inserts does not come in. -/
theorem notMem_replay {a : α} {log : List (Change α)} {s : Set α} (hs : a ∉ s)
    (h : ∀ x ∈ log, x.key = a → x.isInsert = false) : a ∉ replay log s := by
  induction log generalizing s with
  | nil => exact hs
  | cons x log ih =>
    refine ih (fun ha => ?_) fun y hy => h y (List.mem_cons_of_mem _ hy)
    rw [Change.mem_apply] at ha
    split_ifs at ha with hx
    · rw [h x List.mem_cons_self hx] at ha
      exact absurd ha (by decide)
    · exact hs ha

/-- A log leaves a set as it is exactly when the last changes agree with it. -/
theorem replay_eq_self {log : List (Change α)} {s : Set α} :
    replay log s = s ↔ ∀ x ∈ log, (last x.key log = some true ↔ x.key ∈ s) := by
  constructor
  · intro h x hx
    have hmem := @mem_replay _ _ x.key log s
    rw [h] at hmem
    rw [hmem]
    cases hl : last x.key log with
    | none => exact absurd rfl (last_eq_none.mp hl x hx)
    | some b => simp
  · intro h
    ext a
    rw [mem_replay]
    cases hl : last a log with
    | none => rfl
    | some b =>
      obtain ⟨x, hx, rfl⟩ : ∃ x ∈ log, x.key = a := by
        by_contra hno
        have hnone : last a log = none := last_eq_none.mpr fun x hx he => hno ⟨x, hx, he⟩
        rw [hnone] at hl
        cases hl
      rw [← h x hx, hl]
      simp

end ChangeLog
