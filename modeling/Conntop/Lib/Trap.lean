import Mathlib.Control.Lawful

/-!
# Computations that can get stuck

A computation ends with a result or an exception, or it gets stuck in an operation that is not
allowed where it is used. `safe` embeds the computations that cannot get stuck.

Main result: `safe_bind_eq`, by which a computation with operations that are all allowed is shown
to be one that cannot get stuck, step by step.
-/

/-- `none` is a stuck computation. -/
abbrev Trap (ε α : Type) : Type := ExceptT ε Option α

namespace Trap

variable {ε α β γ : Type}

def stuck : Trap ε α := ExceptT.mk none

def safe (x : Except ε α) : Trap ε α := ExceptT.mk (some x)

/-- An operation that is allowed where `get` gives a value. -/
def access (get : β → Option α) (b : β) : Trap ε α :=
  match get b with
  | some a => pure a
  | none => stuck

variable {x : Except ε α} {f : α → Trap ε β} {g : α → Except ε β}

theorem access_of {get : β → Option α} {a : α} {b : β} (h : get b = some a) :
    access get b = (pure a : Trap ε α) := by
  rw [access, h]

/-- What follows need not get stuck after the results that are possible. -/
theorem safe_bind_eq (h : ∀ a, x = .ok a → f a = safe (g a)) : (safe x >>= f) = safe (x >>= g) := by
  cases x with
  | ok a => exact h a rfl
  | error e => rfl

theorem access_bind_eq {get : β → Option α} {b : β} {a : α} {z : Except ε γ}
    {f : α → Trap ε γ} (hget : get b = some a) (h : f a = safe z) :
    (access get b >>= f) = safe z := by
  rw [access_of hget]
  exact h

end Trap
