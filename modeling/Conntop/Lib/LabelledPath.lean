import Mathlib.Data.List.Basic

/-!
# Paths of a labelled step relation

`Path R s as t`: the labels `as`, taken in this order, lead from `s` to `t` by steps of `R`. When
the labels are the messages of a channel, `s` is what the receiver knows and `t` what it will know.

Main results: `append_iff`, a path through two lists is two paths, and `filter`, labels that change
nothing can be left out.
-/

namespace LabelledPath

variable {σ α : Type*}

inductive Path (R : σ → α → σ → Prop) : σ → List α → σ → Prop
  | nil (s : σ) : Path R s [] s
  | cons {s t u : σ} {a : α} {as : List α} : R s a t → Path R t as u → Path R s (a :: as) u

variable {R R' : σ → α → σ → Prop} {I : σ → Prop} {s t u : σ} {a : α} {as bs : List α}

theorem nil_iff : Path R s [] t ↔ s = t := by
  constructor
  · rintro ⟨⟩
    rfl
  · rintro rfl
    exact .nil s

theorem cons_iff : Path R s (a :: as) u ↔ ∃ t, R s a t ∧ Path R t as u := by
  constructor
  · rintro (_ | ⟨h, htail⟩)
    exact ⟨_, h, htail⟩
  · rintro ⟨t, h, htail⟩
    exact .cons h htail

theorem append_iff : Path R s (as ++ bs) u ↔ ∃ t, Path R s as t ∧ Path R t bs u := by
  induction as generalizing s with
  | nil => simp [nil_iff]
  | cons a as ih =>
    simp only [List.cons_append, cons_iff, ih]
    constructor
    · rintro ⟨t, h, t', has, hbs⟩
      exact ⟨t', ⟨t, h, has⟩, hbs⟩
    · rintro ⟨t', ⟨t, h, has⟩, hbs⟩
      exact ⟨t, h, t', has, hbs⟩

/-- One more label at the end. -/
theorem Path.snoc (h : Path R s as t) (ha : R t a u) : Path R s (as ++ [a]) u :=
  append_iff.mpr ⟨t, h, .cons ha (.nil u)⟩

theorem Path.mono (h : Path R s as t) (hR : ∀ s a t, R s a t → R' s a t) : Path R' s as t := by
  induction h with
  | nil s => exact .nil s
  | cons hstep _ ih => exact .cons (hR _ _ _ hstep) ih

/-- Labels that change nothing can be left out. -/
theorem Path.filter (h : Path R s as t) (p : α → Bool)
    (hp : ∀ s a t, R s a t → p a = false → s = t) : Path R s (as.filter p) t := by
  induction h with
  | nil s => exact .nil s
  | @cons s t u a as hstep _ ih =>
    rw [List.filter_cons]
    cases ha : p a with
    | true => exact .cons hstep ih
    | false =>
      obtain rfl := hp s a t hstep ha
      exact ih

/-- What every step keeps, a path keeps. -/
theorem Path.inv (h : Path R s as t) (hI : ∀ s a t, R s a t → I s → I t) (hs : I s) : I t := by
  induction h with
  | nil => exact hs
  | cons hstep _ ih => exact ih (hI _ _ _ hstep hs)

end LabelledPath
