import Mathlib.Data.List.Basic

/-!
# Runs of a step function that is not always enabled

`step s a` is `none` where the action `a` is not enabled in the state `s`. A run takes a list of
actions, each where it is enabled. `Meets C s as`: along the run of `as` from `s` every action meets
the condition `C` in the state in which it is taken.

Main result: `run_inv`, what every step keeps, where it meets the condition, every run keeps. For a
step function that is always enabled, `foldl_prefix_iff`: a property whose next value each step
decides by a condition holds all along a run exactly when every step meets the condition, and
`foldl_eq_of_meets`, two step functions that agree under a condition have the same runs. For steps
that return something, `outputs_simulates`: what is simulated step by step is simulated in a run.
-/

namespace GuardedRun

variable {σ α : Type*} (step : σ → α → Option σ)

/-- The state after the actions, or `none` where one is not enabled. -/
def run : σ → List α → Option σ
  | s, [] => some s
  | s, a :: as => (step s a).bind fun t => run t as

/-- Every action of the run meets the condition in the state in which it is taken. -/
def Meets (C : σ → α → Prop) : σ → List α → Prop
  | _, [] => True
  | s, a :: as =>
    C s a ∧
      match step s a with
      | some t => Meets C t as
      | none => True

instance decidableMeets (C : σ → α → Prop) [∀ s a, Decidable (C s a)] :
    ∀ s as, Decidable (Meets step C s as)
  | _, [] => .isTrue trivial
  | s, a :: as =>
    have : ∀ t, Decidable (Meets step C t as) := fun t => decidableMeets C t as
    have : Decidable (match step s a with
      | some t => Meets step C t as
      | none => True) := by
      cases step s a with
      | none => exact .isTrue trivial
      | some t => exact this t
    inferInstanceAs (Decidable (_ ∧ _))

variable {step} {C : σ → α → Prop} {I : σ → Prop} {s s' : σ} {a : α} {as bs : List α}

@[simp] theorem run_nil : run step s [] = some s := rfl

theorem run_cons : run step s (a :: as) = (step s a).bind fun t => run step t as := rfl

/-- A run is its first step and a run behind it. -/
theorem run_cons_eq_some :
    run step s (a :: as) = some s' ↔ ∃ t, step s a = some t ∧ run step t as = some s' := by
  rw [run_cons, Option.bind_eq_some_iff]

/-- A run is cut anywhere. -/
theorem run_append : run step s (as ++ bs) = (run step s as).bind fun t => run step t bs := by
  induction as generalizing s with
  | nil => rfl
  | cons a as ih =>
    rw [List.cons_append, run_cons, run_cons, Option.bind_assoc]
    exact congrArg _ (funext fun t => ih)

/-- The first step meets the condition, and so does the run behind it. -/
theorem meets_cons (h : Meets step C s (a :: as)) {t : σ} (ht : step s a = some t) :
    C s a ∧ Meets step C t as := by
  rw [Meets, ht] at h
  exact h

theorem meets_true (as : List α) (s : σ) : Meets step (fun _ _ => True) s as := by
  induction as generalizing s with
  | nil => trivial
  | cons a as ih =>
    refine ⟨trivial, ?_⟩
    cases step s a with
    | none => trivial
    | some t => exact ih t

/-- What every step keeps where it meets the condition, a run of such steps keeps. -/
theorem run_inv_of_meets (hstep : ∀ s a t, I s → C s a → step s a = some t → I t) (hs : I s)
    (hC : Meets step C s as) (hrun : run step s as = some s') : I s' := by
  induction as generalizing s with
  | nil => exact Option.some.inj hrun ▸ hs
  | cons a as ih =>
    obtain ⟨t, ht, hrun⟩ := run_cons_eq_some.mp hrun
    exact ih (hstep s a t hs (meets_cons hC ht).1 ht) (meets_cons hC ht).2 hrun

/-- Where every step that meets the condition is enabled and keeps the invariant, a run of such
steps goes to its end. -/
theorem exists_run_of_meets (hstep : ∀ s a, I s → C s a → ∃ t, step s a = some t ∧ I t) (hs : I s)
    (hC : Meets step C s as) : ∃ t, run step s as = some t ∧ I t := by
  induction as generalizing s with
  | nil => exact ⟨s, rfl, hs⟩
  | cons a as ih =>
    have hfirst : C s a := hC.1
    obtain ⟨t, ht, hI⟩ := hstep s a hs hfirst
    obtain ⟨t', ht', hI'⟩ := ih hI (meets_cons hC ht).2
    exact ⟨t', run_cons_eq_some.mpr ⟨t, ht, ht'⟩, hI'⟩

/-- What every step keeps, every run keeps. -/
theorem run_inv (hstep : ∀ s a t, I s → step s a = some t → I t) (hs : I s)
    (hrun : run step s as = some s') : I s' :=
  run_inv_of_meets (fun s a t h _ => hstep s a t h) hs (meets_true as s) hrun

/-! ## Steps that return something -/

section Outputs

variable {σ' β : Type*} (next : σ → α → Option (β × σ))

/-- What the steps of a run return, and the state behind it. -/
def outputs : σ → List α → Option (List β × σ)
  | s, [] => some ([], s)
  | s, a :: as => (next s a).bind fun x => (outputs x.2 as).map fun y => (x.1 :: y.1, y.2)

variable {next} {next' : σ' → α → Option (β × σ')} {f : σ → σ'} {bs : List β}

@[simp] theorem outputs_nil : outputs next s [] = some ([], s) := rfl

/-- The first output and those of the steps behind it. -/
theorem outputs_cons_eq_some :
    outputs next s (a :: as) = some (bs, s') ↔
      ∃ b t bs', next s a = some (b, t) ∧ outputs next t as = some (bs', s') ∧ bs = b :: bs' := by
  rw [outputs, Option.bind_eq_some_iff]
  constructor
  · rintro ⟨⟨b, t⟩, hstep, hrest⟩
    obtain ⟨⟨bs', s''⟩, hout, heq⟩ := Option.map_eq_some_iff.mp hrest
    cases heq
    exact ⟨b, t, bs', hstep, hout, rfl⟩
  · rintro ⟨b, t, bs', hstep, hout, rfl⟩
    exact ⟨(b, t), hstep, Option.map_eq_some_iff.mpr ⟨_, hout, rfl⟩⟩

/-- A simulation of the steps is one of the runs, with the same outputs. -/
theorem outputs_simulates (hI : ∀ s a b t, I s → next s a = some (b, t) → I t)
    (hstep : ∀ s a, I s → (next s a).map (Prod.map id f) = next' (f s) a) (hs : I s)
    (as : List α) : (outputs next s as).map (Prod.map id f) = outputs next' (f s) as := by
  induction as generalizing s with
  | nil => rfl
  | cons a as ih =>
    rw [outputs, outputs, ← hstep s a hs]
    cases hnext : next s a with
    | none => rfl
    | some x =>
      rw [Option.map_some, Option.bind_some, Option.bind_some, Prod.map_snd,
        ← ih (hI s a x.1 x.2 hs hnext), Option.map_map, Option.map_map]
      rfl

end Outputs

/-! ## Steps that are always enabled -/

theorem foldl_take_succ (f : σ → α → σ) (s : σ) (as : List α) {i : ℕ} (hi : i < as.length) :
    (as.take (i + 1)).foldl f s = f ((as.take i).foldl f s) as[i] := by
  rw [List.take_succ_eq_append_getElem hi, List.foldl_concat]

/-- What every step keeps, every run keeps. -/
theorem foldl_inv {f : σ → α → σ} (hI : ∀ s a, I s → I (f s a)) (as : List α) :
    ∀ s, I s → I (as.foldl f s) := by
  induction as with
  | nil => exact fun s hs => hs
  | cons a as ih => exact fun s hs => ih _ (hI s a hs)

/-- The same, where the steps meet the condition. -/
theorem foldl_inv_of_meets {f : σ → α → σ} (hI : ∀ s a, I s → C s a → I (f s a)) (as : List α) :
    ∀ s, I s → (∀ i (hi : i < as.length), C ((as.take i).foldl f s) as[i]) → I (as.foldl f s) := by
  induction as with
  | nil => exact fun s hs _ => hs
  | cons a as ih =>
    intro s hs hC
    refine ih _ (hI s a hs (hC 0 (Nat.succ_pos _))) fun i hi => ?_
    exact hC (i + 1) (Nat.succ_lt_succ hi)

/-- Two step functions that agree where the condition is met have the same run of such steps. -/
theorem foldl_eq_of_meets {f g : σ → α → σ} (hI : ∀ s a, I s → I (f s a))
    (hstep : ∀ s a, I s → C s a → g s a = f s a) (as : List α) : ∀ s, I s →
      (∀ i (hi : i < as.length), C ((as.take i).foldl f s) as[i]) →
      as.foldl g s = as.foldl f s := by
  induction as with
  | nil => exact fun s _ _ => rfl
  | cons a as ih =>
    intro s hs hC
    have hfirst : g s a = f s a := hstep s a hs (hC 0 (Nat.succ_pos _))
    rw [List.foldl_cons, List.foldl_cons, hfirst]
    exact ih _ (hI s a hs) fun i hi => hC (i + 1) (Nat.succ_lt_succ hi)

/-- A property whose next value the condition decides holds all along a run exactly when every step
meets the condition. -/
theorem foldl_prefix_iff {f : σ → α → σ} {P : σ → Prop} (hI : ∀ s a, I s → I (f s a))
    (hstep : ∀ s a, I s → P s → (P (f s a) ↔ C s a)) (hs : I s) (hP : P s) (as : List α) :
    (∀ i ≤ as.length, P ((as.take i).foldl f s)) ↔
      ∀ i (hi : i < as.length), C ((as.take i).foldl f s) as[i] := by
  have hinv : ∀ i, I ((as.take i).foldl f s) := fun i => foldl_inv hI _ s hs
  constructor
  · intro h i hi
    rw [← hstep _ _ (hinv i) (h i (Nat.le_of_lt hi)), ← foldl_take_succ f s as hi]
    exact h (i + 1) hi
  · intro h i
    induction i with
    | zero => exact fun _ => hP
    | succ i ih =>
      intro hi
      rw [foldl_take_succ f s as hi]
      exact (hstep _ _ (hinv i) (ih (Nat.le_of_succ_le hi))).mpr (h i hi)

/-- Where the states that are left keep what decides a step, all steps of a run do what they should
exactly when every one meets the condition. -/
theorem foldl_steps_iff {f : σ → α → σ} {R : σ → σ → Prop} (hI : ∀ s t, I s → R s t → I t)
    (hR : ∀ s a, I s → (R s (f s a) ↔ C s a)) (as : List α) : ∀ s, I s →
      ((∀ i, i < as.length → R ((as.take i).foldl f s) ((as.take (i + 1)).foldl f s)) ↔
        ∀ i (hi : i < as.length), C ((as.take i).foldl f s) as[i]) := by
  induction as with
  | nil => exact fun s _ => ⟨fun _ i hi => absurd hi (Nat.not_lt_zero i), fun _ i hi =>
      absurd hi (Nat.not_lt_zero i)⟩
  | cons a as ih =>
    intro s hs
    constructor
    · intro h
      have h0 : R s (f s a) := h 0 (Nat.succ_pos _)
      have hrest := (ih (f s a) (hI s _ hs h0)).mp fun i hi => h (i + 1) (Nat.succ_lt_succ hi)
      intro i hi
      cases i with
      | zero => exact (hR s a hs).mp h0
      | succ i => exact hrest i (Nat.lt_of_succ_lt_succ hi)
    · intro h
      have h0 : R s (f s a) := (hR s a hs).mpr (h 0 (Nat.succ_pos _))
      have hrest := (ih (f s a) (hI s _ hs h0)).mpr fun i hi => h (i + 1) (Nat.succ_lt_succ hi)
      intro i hi
      cases i with
      | zero => exact h0
      | succ i => exact hrest i (Nat.lt_of_succ_lt_succ hi)

/-- Where the marked actions decide a property and the others keep it, it holds after every marked
action of an allowed run exactly when each of them meets the condition. -/
theorem foldl_marked_iff {f : σ → α → σ} {P : σ → Prop} {D : α → Prop} {G : σ → α → Prop}
    (hI : ∀ s a, I s → G s a → I (f s a)) (hkeep : ∀ s a, ¬D a → P s → P (f s a))
    (hstep : ∀ s a, I s → D a → P s → (P (f s a) ↔ C s a)) (as : List α) : ∀ s, I s → P s →
      (∀ i (hi : i < as.length), G ((as.take i).foldl f s) as[i]) →
      ((∀ i (hi : i < as.length), D as[i] → P ((as.take (i + 1)).foldl f s)) ↔
        ∀ i (hi : i < as.length), D as[i] → C ((as.take i).foldl f s) as[i]) := by
  induction as with
  | nil => exact fun s _ _ _ => ⟨fun _ i hi => absurd hi (Nat.not_lt_zero i), fun _ i hi =>
      absurd hi (Nat.not_lt_zero i)⟩
  | cons a as ih =>
    intro s hs hP hG
    have hs' : I (f s a) := hI s a hs (hG 0 (Nat.succ_pos _))
    have hrest := fun hP' => ih (f s a) hs' hP' fun i hi => hG (i + 1) (Nat.succ_lt_succ hi)
    have hhead : (D a → P (f s a)) ↔ (D a → C s a) := forall_congr' fun ha => hstep s a hs ha hP
    have hnext : (D a → P (f s a)) → P (f s a) := by
      intro h
      by_cases ha : D a
      · exact h ha
      · exact hkeep s a ha hP
    constructor
    · intro h i hi
      cases i with
      | zero => exact hhead.mp (h 0 hi)
      | succ i =>
        refine (hrest (hnext (h 0 (Nat.succ_pos _)))).mp (fun j hj => ?_) i
          (Nat.lt_of_succ_lt_succ hi)
        exact h (j + 1) (Nat.succ_lt_succ hj)
    · intro h i hi
      have h0 : D a → P (f s a) := hhead.mpr (h 0 (Nat.succ_pos _))
      cases i with
      | zero => exact h0
      | succ i =>
        refine (hrest (hnext h0)).mpr (fun j hj => ?_) i (Nat.lt_of_succ_lt_succ hi)
        exact h (j + 1) (Nat.succ_lt_succ hj)

end GuardedRun
