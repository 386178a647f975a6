import Mathlib.Data.List.Basic
import Mathlib.Data.List.Forall2

/-!
# Layers over each other, repainted where they changed

A layer has a cell at the places it covers. What a stack of layers shows at a place is the cell of
the topmost layer that covers it, and the background where none does.

* A change of a layer touches the places it is at and flags the layer.
* `refresh` goes through the stack from the bottom. Up to the first flagged layer nothing is done.
  Of that one the touched places are painted, and all the layers over it are painted in full.

`Current` is the invariant at a place: what is there is what the stack shows, or the next refresh
paints it.

Main results: `Current.refresh`, after a refresh the stack is what is shown, and `Current.draws`, a
change that is touched and flagged keeps the invariant.
-/

namespace Painter

variable {ι γ : Type*}

/-! ## What a stack shows -/

/-- A view over what is there. -/
def paint (view : ι → Option γ) (shown : ι → γ) (i : ι) : γ := (view i).getD (shown i)

/-- Views over each other, the bottom one first. -/
def compose : (ι → γ) → List (ι → Option γ) → ι → γ
  | shown, [] => shown
  | shown, view :: views => compose (paint view shown) views

/-- Some view has a cell at the place. -/
def Covered (views : List (ι → Option γ)) (i : ι) : Prop := ∃ view ∈ views, (view i).isSome

section Compose

variable {shown shown' : ι → γ} {view : ι → Option γ} {views views' : List (ι → Option γ)} {i : ι}

theorem paint_congr {view' : ι → Option γ} (h : view i = view' i) :
    paint view shown i = paint view' shown i := congrArg (Option.getD · (shown i)) h

theorem covered_cons : Covered (view :: views) i ↔ (view i).isSome ∨ Covered views i := by
  simp [Covered]

theorem compose_congr (h : shown i = shown' i) (views : List (ι → Option γ)) :
    compose shown views i = compose shown' views i := by
  induction views generalizing shown shown' with
  | nil => exact h
  | cons view views ih => exact ih (congrArg (view i).getD h)

theorem compose_of_not_covered (h : ¬Covered views i) : compose shown views i = shown i := by
  induction views generalizing shown with
  | nil => rfl
  | cons view views ih =>
    simp only [covered_cons, not_or, Bool.not_eq_true, Option.isSome_eq_false_iff,
      Option.isNone_iff_eq_none] at h
    rw [compose, ih h.2, paint, h.1]
    rfl

/-- What is under a covered place does not matter. -/
theorem compose_of_covered (h : Covered views i) :
    compose shown views i = compose shown' views i := by
  induction views generalizing shown shown' with
  | nil => simp [Covered] at h
  | cons view views ih =>
    rcases covered_cons.mp h with hview | hviews
    · obtain ⟨c, hc⟩ := Option.isSome_iff_exists.mp hview
      exact compose_congr (by simp [paint, hc]) views
    · exact ih hviews

/-- The topmost view that has a cell at the place decides. -/
theorem compose_eq_findSome? : compose shown views i =
    (views.reverse.findSome? fun view => view i).getD (shown i) := by
  induction views generalizing shown with
  | nil => rfl
  | cons view views ih =>
    rw [compose, ih, List.reverse_cons, List.findSome?_append]
    cases views.reverse.findSome? fun view => view i with
    | some c => rfl
    | none => cases hview : view i <;> simp [paint, hview]

end Compose

/-! ## Layers -/

structure Layer (ι γ : Type*) where
  view : ι → Option γ
  touched : ι → Bool
  isFlagged : Bool

namespace Layer

variable (l : Layer ι γ)

/-- Paints what is touched. -/
def copy (shown : ι → γ) (i : ι) : γ := if l.touched i then paint l.view shown i else shown i

end Layer

/-- What is shown after a refresh. Once a layer was painted, those over it are painted in full. -/
def refresh : Bool → (ι → γ) → List (Layer ι γ) → ι → γ
  | _, shown, [] => shown
  | true, shown, l :: ls => refresh true (paint l.view shown) ls
  | false, shown, l :: ls =>
    if l.isFlagged then refresh true (l.copy shown) ls else refresh false shown ls

def views (ls : List (Layer ι γ)) : List (ι → Option γ) := ls.map Layer.view

/-- The next refresh paints the place. -/
def Pending : List (Layer ι γ) → ι → Prop
  | [], _ => False
  | l :: ls, i =>
    if l.isFlagged then Covered (views ls) i ∨ ((l.view i).isSome ∧ l.touched i) else Pending ls i

/-- The place shows what it should, or will do so after the next refresh. -/
def Current (background shown : ι → γ) (ls : List (Layer ι γ)) (i : ι) : Prop :=
  Pending ls i ∨ shown i = compose background (views ls) i

section Refresh

variable {background shown shown' : ι → γ} {l l' : Layer ι γ} {ls ls' : List (Layer ι γ)} {i : ι}

theorem refresh_true : refresh true shown ls = compose shown (views ls) := by
  induction ls generalizing shown with
  | nil => rfl
  | cons l ls ih => exact ih

theorem pending_of_flagged (h : l.isFlagged) :
    Pending (l :: ls) i ↔ Covered (views ls) i ∨ ((l.view i).isSome ∧ l.touched i) := by
  rw [Pending, if_pos h]

theorem pending_of_not_flagged (h : ¬l.isFlagged) : Pending (l :: ls) i ↔ Pending ls i := by
  rw [Pending, if_neg h]

theorem Pending.covered (h : Pending ls i) : Covered (views ls) i := by
  induction ls with
  | nil => exact h.elim
  | cons l ls ih =>
    by_cases hl : l.isFlagged
    · rcases (pending_of_flagged hl).mp h with h | h
      · exact covered_cons.mpr (.inr h)
      · exact covered_cons.mpr (.inl h.1)
    · exact covered_cons.mpr (.inr (ih ((pending_of_not_flagged hl).mp h)))

/-- An unflagged layer is part of the background. -/
theorem current_of_not_flagged (h : ¬l.isFlagged) :
    Current background shown (l :: ls) i ↔ Current (paint l.view background) shown ls i :=
  or_congr_left (pending_of_not_flagged h)

/-- A place that no refresh paints, with only the bottom layer at it. -/
theorem Current.eq_paint (h : Current background shown (l :: ls) i)
    (hcover : ¬Covered (views ls) i) (hbottom : ¬((l.view i).isSome ∧ l.touched i)) :
    shown i = paint l.view background i := by
  have hpending : ¬Pending (l :: ls) i := by
    by_cases hl : l.isFlagged
    · rw [pending_of_flagged hl, not_or]
      exact ⟨hcover, hbottom⟩
    · rw [pending_of_not_flagged hl]
      exact fun h => hcover h.covered
  rw [h.resolve_left hpending]
  exact compose_of_not_covered hcover

theorem Current.copy (h : Current background shown (l :: ls) i) (hcover : ¬Covered (views ls) i) :
    l.copy shown i = paint l.view background i := by
  rw [Layer.copy]
  by_cases htouched : l.touched i
  · rw [if_pos htouched]
    cases hview : l.view i with
    | some c => simp [paint, hview]
    | none =>
      have hshown := h.eq_paint hcover (by simp [hview])
      rw [paint, hview, hshown]
      rfl
  · rw [if_neg htouched]
    exact h.eq_paint hcover fun h => htouched h.2

/-- After a refresh all that is shown is what the stack shows. -/
theorem Current.refresh (h : Current background shown ls i) :
    refresh false shown ls i = compose background (views ls) i := by
  induction ls generalizing background with
  | nil =>
    rcases h with h | h
    · exact h.elim
    · exact h
  | cons l ls ih =>
    rw [Painter.refresh]
    by_cases hl : l.isFlagged
    · rw [if_pos hl, refresh_true]
      by_cases hcover : Covered (views ls) i
      · exact compose_of_covered hcover
      · exact compose_congr (h.copy hcover) (views ls)
    · rw [if_neg hl]
      exact ih ((current_of_not_flagged hl).mp h)

/-! ## What keeps the invariant -/

/-- At a place: what changes there is touched, and the layer is flagged. -/
structure Draws (i : ι) (l l' : Layer ι γ) : Prop where
  covers : (l'.view i).isSome = (l.view i).isSome
  touched : l.touched i → l'.touched i
  flagged : l.isFlagged → l'.isFlagged
  changed : l'.view i ≠ l.view i → l'.touched i ∧ l'.isFlagged

theorem Draws.refl (i : ι) (l : Layer ι γ) : Draws i l l :=
  ⟨rfl, id, id, fun h => absurd rfl h⟩

/-- What changed at the place is there to be painted. -/
theorem Draws.isSome (h : Draws i l l') (hne : l'.view i ≠ l.view i) : (l'.view i).isSome := by
  by_contra hnone
  have hnone' : ¬(l.view i).isSome := h.covers ▸ hnone
  rw [Option.not_isSome_iff_eq_none] at hnone hnone'
  exact hne (hnone.trans hnone'.symm)

theorem covered_of_draws (h : List.Forall₂ (Draws i) ls ls') :
    Covered (views ls') i ↔ Covered (views ls) i := by
  induction h with
  | nil => rfl
  | cons hd _ ih =>
    simp only [views, List.map_cons, covered_cons] at ih ⊢
    rw [hd.covers, ih]

theorem Current.draws (h : Current background shown ls i)
    (hdraws : List.Forall₂ (Draws i) ls ls') : Current background shown ls' i := by
  induction hdraws generalizing background with
  | nil => exact h
  | @cons l l' ls ls' hd hds ih =>
    by_cases hl' : l'.isFlagged
    · by_cases hcover : Covered (views ls) i
      · exact .inl ((pending_of_flagged hl').mpr (.inl ((covered_of_draws hds).mpr hcover)))
      by_cases hbottom : (l'.view i).isSome ∧ l'.touched i
      · exact .inl ((pending_of_flagged hl').mpr (.inr hbottom))
      -- The place is as it was, and no refresh was to paint it.
      have hview : l'.view i = l.view i := by
        by_contra hne
        exact hbottom ⟨hd.isSome hne, (hd.changed hne).1⟩
      have hshown := h.eq_paint hcover fun h => hbottom ⟨hview ▸ h.1, hd.touched h.2⟩
      have hcover' : ¬Covered (views ls') i := fun h => hcover ((covered_of_draws hds).mp h)
      exact .inr (hshown.trans ((paint_congr hview.symm).trans
        (compose_of_not_covered hcover').symm))
    · have hl : ¬l.isFlagged := fun h => hl' (hd.flagged h)
      have hview : l'.view i = l.view i := by
        by_contra hne
        exact hl' (hd.changed hne).2
      rw [current_of_not_flagged hl']
      rcases ih ((current_of_not_flagged hl).mp h) with h | h
      · exact .inl h
      · exact .inr (h.trans (compose_congr (paint_congr hview.symm) _))

/-- Under a bottom layer that is painted in full, all that is covered is painted. -/
theorem current_of_covered (hl : l.isFlagged) (htouched : l.touched i)
    (hcover : Covered (views (l :: ls)) i) : Current background shown (l :: ls) i := by
  left
  rw [pending_of_flagged hl]
  rcases covered_cons.mp hcover with h | h
  · exact .inr ⟨h, htouched⟩
  · exact .inl h

/-- With nothing shown but the background, a bottom layer that is painted in full is enough. -/
theorem current_of_blank (hl : l.isFlagged) (htouched : l.touched i)
    (hblank : shown i = background i) : Current background shown (l :: ls) i := by
  by_cases hcover : Covered (views (l :: ls)) i
  · exact current_of_covered hl htouched hcover
  · exact .inr (hblank.trans (compose_of_not_covered hcover).symm)

theorem not_pending (h : ∀ l ∈ ls, ¬l.isFlagged) : ¬Pending ls i := by
  induction ls with
  | nil => exact id
  | cons l ls ih =>
    rw [List.forall_mem_cons] at h
    rw [pending_of_not_flagged h.1]
    exact ih h.2

end Refresh

end Painter
