import Mathlib.Algebra.Order.Group.Nat
import Mathlib.Data.List.Nodup
import Mathlib.Data.List.Perm.Subperm
import Mathlib.Data.List.TakeWhile
import Mathlib.Order.RelClasses

/-!
# Bounded sorted lists

A list is kept sorted by a strict weak order and never grows past a capacity. Elements are
placed with `upperBound`, and when the list overflows its last element is dropped.

* `Sorted`: no later element compares before an earlier one.
* `Top U l`: nothing of `U` that is outside `l` compares before an element of `l`.
* `Ranked cap U l`: a sorted duplicate-free list of at most `cap` elements of `U`.

The main results are about folds. `ranked_fill`: offering every element of `U` in any order
ends with the first `min cap |U|` elements of `U`, up to ties. `offerBetter_spec`: offering
only the elements that compare before the last one keeps the list ranked, and what it leaves
outside does not compare before what it keeps.
-/

namespace SortedList

variable {α β : Type*} {lt : α → α → Bool} {cap : ℕ}

/-- The comparison is a strict weak order. -/
abbrev WeakOrder (lt : α → α → Bool) : Prop := IsStrictWeakOrder α fun a b => lt a b = true

theorem irrefl [h : WeakOrder lt] (a : α) : lt a a = false := by
  simpa using h.irrefl a

theorem trans [h : WeakOrder lt] {a b c : α} (hab : lt a b = true) (hbc : lt b c = true) :
    lt a c = true := h.trans a b c hab hbc

/-- "Does not compare before" is transitive. -/
theorem negTrans [h : WeakOrder lt] {a b c : α} (hab : lt a b = false) (hbc : lt b c = false) :
    lt a c = false := by
  by_contra hac
  rw [Bool.not_eq_false] at hac
  have hba : ¬ lt b a = true := fun hba => by simp [trans hba hac] at hbc
  have hcb : ¬ lt c b = true := fun hcb => by simp [trans hac hcb] at hab
  exact (h.incomp_trans a b c ⟨by simp [hab], hba⟩ ⟨by simp [hbc], hcb⟩).1 hac

/-- A comparison of keys in a strict weak order is a strict weak order. -/
theorem weakOrder_comap {f : β → α} (h : WeakOrder lt) : WeakOrder fun a b => lt (f a) (f b) where
  irrefl a := h.irrefl (f a)
  trans a b c := h.trans (f a) (f b) (f c)
  incomp_trans a b c := h.incomp_trans (f a) (f b) (f c)

theorem weakOrder_swap (h : WeakOrder lt) : WeakOrder fun a b => lt b a where
  irrefl a := h.irrefl a
  trans a b c hab hbc := h.trans c b a hbc hab
  incomp_trans a b c hab hbc := (h.incomp_trans a b c hab.symm hbc.symm).symm

theorem weakOrder_lt [LinearOrder α] : WeakOrder fun a b : α => decide (a < b) where
  irrefl a := by simp
  trans a b c := by simpa using lt_trans
  incomp_trans a b c := by
    simp only [decide_eq_true_eq, not_lt, and_imp]
    intro h1 h2 h3 h4
    exact ⟨h3.trans h1, h2.trans h4⟩

theorem weakOrder_false : WeakOrder fun _ _ : α => false where
  irrefl _ := by simp
  trans _ _ _ h := by simp at h
  incomp_trans _ _ _ _ _ := by simp

/-! ## Sorted lists -/

/-- No later element compares before an earlier one. -/
def Sorted (lt : α → α → Bool) (l : List α) : Prop := l.Pairwise fun a b => lt b a = false

/-- The last element compares before no element. -/
theorem Sorted.getLast [WeakOrder lt] {l : List α} (h : Sorted lt l) {b : α}
    (hb : l.getLast? = some b) : ∀ y ∈ l, lt b y = false := by
  obtain ⟨l', rfl⟩ := List.getLast?_eq_some_iff.mp hb
  intro y hy
  rcases List.mem_append.mp hy with hy | hy
  · exact (List.pairwise_append.mp h).2.2 y hy b (by simp)
  · rw [List.mem_singleton.mp hy]
    exact irrefl b

theorem Sorted.append_singleton {l : List α} (h : Sorted lt l) {a : α}
    (ha : ∀ y ∈ l, lt a y = false) : Sorted lt (l ++ [a]) :=
  List.pairwise_append.mpr ⟨h, by simp, by simpa using ha⟩

theorem Sorted.sublist {l l' : List α} (h : Sorted lt l) (hl : l'.Sublist l) : Sorted lt l' :=
  List.Pairwise.sublist hl h

theorem Sorted.congr {lt' : α → α → Bool} {l : List α} (h : Sorted lt l)
    (hlt : ∀ a ∈ l, ∀ b ∈ l, lt' a b = lt a b) : Sorted lt' l :=
  List.Pairwise.imp_of_mem (fun ha hb hab => (hlt _ hb _ ha).trans hab) h

/-- An element fits into a sorted list where it fits between its neighbours. -/
theorem Sorted.insert_middle [WeakOrder lt] {l₁ l₂ : List α} (h : Sorted lt (l₁ ++ l₂)) {a : α}
    (h₁ : ∀ b, l₁.getLast? = some b → lt a b = false)
    (h₂ : ∀ b, l₂.head? = some b → lt b a = false) : Sorted lt (l₁ ++ a :: l₂) := by
  obtain ⟨hs₁, hs₂, h12⟩ := List.pairwise_append.mp h
  have hleft : ∀ x ∈ l₁, lt a x = false := by
    intro x hx
    obtain ⟨b, hb⟩ := Option.isSome_iff_exists.mp
      (List.getLast?_isSome.mpr (List.ne_nil_of_mem hx))
    exact negTrans (h₁ b hb) (Sorted.getLast hs₁ hb x hx)
  have hright : ∀ y ∈ l₂, lt y a = false := by
    intro y hy
    cases l₂ with
    | nil => simp at hy
    | cons b l₂ =>
      have hb := h₂ b rfl
      rcases List.mem_cons.mp hy with rfl | hy
      · exact hb
      · exact negTrans ((List.pairwise_cons.mp hs₂).1 y hy) hb
  refine List.pairwise_append.mpr ⟨hs₁, List.pairwise_cons.mpr ⟨hright, hs₂⟩, fun x hx y hy => ?_⟩
  rcases List.mem_cons.mp hy with rfl | hy
  · exact hleft x hx
  · exact h12 x hx y hy

/-! ## Insertion at the upper bound -/

/-- The first position whose element `a` compares before, as `std::upper_bound` finds it. -/
def upperBound (lt : α → α → Bool) (a : α) (l : List α) : ℕ :=
  (l.takeWhile fun x => !lt a x).length

/-- Insert `a` at its upper bound. -/
def insertUpper (lt : α → α → Bool) (a : α) (l : List α) : List α :=
  l.insertIdx (upperBound lt a l) a

theorem insertUpper_eq (a : α) (l : List α) : insertUpper lt a l =
    (l.takeWhile fun x => !lt a x) ++ a :: l.dropWhile fun x => !lt a x := by
  unfold insertUpper upperBound
  induction l with
  | nil => rfl
  | cons b l ih =>
    cases hb : lt a b with
    | true => simp [hb]
    | false => simpa [hb] using ih

theorem insertUpper_perm (a : α) (l : List α) : (insertUpper lt a l).Perm (a :: l) := by
  rw [insertUpper_eq]
  exact List.perm_middle.trans (by rw [List.takeWhile_append_dropWhile])

@[simp] theorem mem_insertUpper {a x : α} {l : List α} :
    x ∈ insertUpper lt a l ↔ x = a ∨ x ∈ l := by
  rw [(insertUpper_perm a l).mem_iff, List.mem_cons]

@[simp] theorem length_insertUpper (a : α) (l : List α) :
    (insertUpper lt a l).length = l.length + 1 := (insertUpper_perm a l).length_eq

/-- Everything from the upper bound on comes after `a`. -/
theorem Sorted.lt_of_mem_dropWhile [WeakOrder lt] {l : List α} (h : Sorted lt l) (a : α) :
    ∀ y ∈ l.dropWhile (fun x => !lt a x), lt a y = true := by
  induction l with
  | nil => simp
  | cons b l ih =>
    obtain ⟨hb, hl⟩ := List.pairwise_cons.mp h
    intro y hy
    cases hab : lt a b with
    | false => exact ih hl y (by simpa [hab] using hy)
    | true =>
      simp only [List.dropWhile_cons, hab, Bool.not_true, Bool.false_eq_true, if_false,
        List.mem_cons] at hy
      rcases hy with rfl | hy
      · exact hab
      · by_contra hay
        have : lt a b = false := negTrans (by simpa using hay) (hb y hy)
        simp [hab] at this

theorem Sorted.insertUpper [WeakOrder lt] {l : List α} (h : Sorted lt l) (a : α) :
    Sorted lt (insertUpper lt a l) := by
  have hsplit : Sorted lt ((l.takeWhile fun x => !lt a x) ++ l.dropWhile fun x => !lt a x) := by
    rwa [List.takeWhile_append_dropWhile]
  obtain ⟨h1, h2, h3⟩ := List.pairwise_append.mp hsplit
  rw [insertUpper_eq]
  refine List.pairwise_append.mpr ⟨h1, List.pairwise_cons.mpr ⟨fun y hy => ?_, h2⟩,
    fun x hx y hy => ?_⟩
  · have hay := h.lt_of_mem_dropWhile a y hy
    by_contra hya
    have := trans hay (by simpa using hya)
    simp [irrefl a] at this
  · rcases List.mem_cons.mp hy with rfl | hy
    · simpa using List.mem_takeWhile_imp hx
    · exact h3 x hx y hy

/-- Sort by inserting one element after the other. -/
def insertionSort (lt : α → α → Bool) (l : List α) : List α := l.foldr (insertUpper lt) []

theorem insertionSort_perm (l : List α) : (insertionSort lt l).Perm l := by
  induction l with
  | nil => exact .refl _
  | cons a l ih => exact (insertUpper_perm a _).trans (ih.cons a)

theorem insertionSort_sorted [WeakOrder lt] (l : List α) : Sorted lt (insertionSort lt l) := by
  induction l with
  | nil => exact List.Pairwise.nil
  | cons a l ih => exact Sorted.insertUpper ih a

/-! ## The capacity -/

/-- Drop the last element of a list that is over the capacity. -/
def trim (cap : ℕ) (l : List α) : List α := if cap < l.length then l.dropLast else l

def insertBounded (lt : α → α → Bool) (cap : ℕ) (a : α) (l : List α) : List α :=
  trim cap (insertUpper lt a l)

theorem trim_sublist (cap : ℕ) (l : List α) : (trim cap l).Sublist l := by
  unfold trim
  split_ifs
  · exact List.dropLast_sublist l
  · exact List.Sublist.refl l

theorem length_trim_of_le {l : List α} (h : l.length ≤ cap + 1) :
    (trim cap l).length = min cap l.length := by
  unfold trim
  split_ifs with hc
  · rw [List.length_dropLast]; omega
  · omega

/-- What `trim` drops compares before nothing that stays. -/
theorem Sorted.trim_dropped [WeakOrder lt] {l : List α} (h : Sorted lt l) {x : α} (hx : x ∈ l)
    (hx' : x ∉ trim cap l) : ∀ y ∈ trim cap l, lt x y = false := by
  unfold trim at hx' ⊢
  split_ifs at hx' ⊢ with hc
  · obtain ⟨b, hb⟩ : ∃ b, l.getLast? = some b := by
      cases l with
      | nil => simp at hc
      | cons a l => exact ⟨_, List.getLast?_cons⟩
    obtain ⟨l', rfl⟩ := List.getLast?_eq_some_iff.mp hb
    simp only [List.dropLast_concat] at hx' ⊢
    simp only [List.mem_append, hx', List.mem_singleton, false_or] at hx
    subst hx
    exact fun y hy => h.getLast hb y (by simp [hy])
  · exact absurd hx hx'

/-! ## Ranked lists -/

/-- A sorted duplicate-free list of at most `cap` elements of `U`. -/
structure Ranked (lt : α → α → Bool) (cap : ℕ) (U l : List α) : Prop where
  nodup : l.Nodup
  subset : ∀ x ∈ l, x ∈ U
  sorted : Sorted lt l
  length_le : l.length ≤ cap

/-- Nothing of `U` outside `l` compares before an element of `l`. -/
def Top (lt : α → α → Bool) (U l : List α) : Prop :=
  ∀ x ∈ U, x ∉ l → ∀ y ∈ l, lt x y = false

/-- Whether `a` compares before the last element. -/
def before (lt : α → α → Bool) (a : α) (l : List α) : Bool := l.getLast?.any (lt a ·)

theorem before_iff {a : α} {l : List α} :
    before lt a l = true ↔ ∃ b, l.getLast? = some b ∧ lt a b = true := by
  simp [before, Option.any_eq_true]

/-- An element that is not before the last one is before no element. -/
theorem Sorted.not_before [WeakOrder lt] {l : List α} (h : Sorted lt l) {a : α}
    (ha : before lt a l = false) : ∀ y ∈ l, lt a y = false := by
  intro y hy
  obtain ⟨b, hb⟩ : ∃ b, l.getLast? = some b := by
    cases l with
    | nil => simp at hy
    | cons a l => exact ⟨_, List.getLast?_cons⟩
  exact negTrans (by simpa [before, hb] using ha) (h.getLast hb y hy)

theorem Ranked.length_le_card {U l : List α} (h : Ranked lt cap U l) : l.length ≤ U.length :=
  (List.subperm_of_subset h.nodup h.subset).length_le

theorem Ranked.mono {U U' l : List α} (h : Ranked lt cap U l) (hsub : ∀ x ∈ U, x ∈ U') :
    Ranked lt cap U' l := { h with subset := fun x hx => hsub x (h.subset x hx) }

theorem Ranked.congr {lt' : α → α → Bool} {U l : List α} (h : Ranked lt cap U l)
    (hlt : ∀ a ∈ l, ∀ b ∈ l, lt' a b = lt a b) : Ranked lt' cap U l :=
  { h with sorted := h.sorted.congr hlt }

theorem Ranked.sublist {U l l' : List α} (h : Ranked lt cap U l) (hl : l'.Sublist l) :
    Ranked lt cap U l' where
  nodup := h.nodup.sublist hl
  subset x hx := h.subset x (hl.subset hx)
  sorted := h.sorted.sublist hl
  length_le := hl.length_le.trans h.length_le

/-- A sorted rearrangement is ranked, whatever it was ranked by before. -/
theorem Ranked.perm {lt' : α → α → Bool} {U l l' : List α} (h : Ranked lt cap U l)
    (hl : l'.Perm l) (hs : Sorted lt' l') : Ranked lt' cap U l' where
  nodup := hl.nodup_iff.mpr h.nodup
  subset x hx := h.subset x (hl.mem_iff.mp hx)
  sorted := hs
  length_le := hl.length_eq.trans_le h.length_le

theorem Ranked.nil (U : List α) : Ranked lt cap U [] :=
  ⟨by simp, by simp, by simp [Sorted], by simp⟩

theorem Ranked.insertBounded [WeakOrder lt] {U l : List α} (h : Ranked lt cap U l) {a : α}
    (ha : a ∈ U) (hal : a ∉ l) : Ranked lt cap U (insertBounded lt cap a l) where
  nodup := ((insertUpper_perm a l).nodup_iff.mpr (List.nodup_cons.mpr ⟨hal, h.nodup⟩)).sublist
    (trim_sublist _ _)
  subset x hx := by
    rcases mem_insertUpper.mp ((trim_sublist _ _).subset hx) with rfl | hx
    · exact ha
    · exact h.subset x hx
  sorted := (h.sorted.insertUpper a).sublist (trim_sublist _ _)
  length_le := by
    rw [SortedList.insertBounded, length_trim_of_le (by simpa using h.length_le)]
    exact min_le_left _ _

theorem Ranked.length_insertBounded {U l : List α} (h : Ranked lt cap U l) (a : α) :
    (SortedList.insertBounded lt cap a l).length = min cap (l.length + 1) := by
  rw [SortedList.insertBounded, length_trim_of_le (by simpa using h.length_le),
    length_insertUpper]

theorem Ranked.append_singleton {U l : List α} (h : Ranked lt cap U l) {a : α} (ha : a ∈ U)
    (hal : a ∉ l) (hlt : ∀ y ∈ l, lt a y = false) (hcap : l.length < cap) :
    Ranked lt cap U (l ++ [a]) where
  nodup := by
    rw [List.nodup_append]
    refine ⟨h.nodup, by simp, fun x hx y hy => ?_⟩
    rw [List.mem_singleton.mp hy]
    exact fun hxa => hal (hxa ▸ hx)
  subset x hx := by
    rcases List.mem_append.mp hx with hx | hx
    · exact h.subset x hx
    · rw [List.mem_singleton.mp hx]; exact ha
  sorted := h.sorted.append_singleton hlt
  length_le := by rw [List.length_append]; exact hcap

/-- A ranked list that holds all of `U` leaves nothing outside. -/
theorem Ranked.mem_of_length_eq {U l : List α} (h : Ranked lt cap U l)
    (hlen : U.length ≤ l.length) : ∀ x ∈ U, x ∈ l :=
  ((List.subperm_of_subset h.nodup h.subset).perm_of_length_le hlen).symm.subset

/-- Inserting into a full list that is on top of `V` leaves it on top of `V` and the new
element. -/
theorem Top.insertBounded [WeakOrder lt] {V l : List α} {a : α} (hs : Sorted lt l)
    (ht : Top lt V l) (hb : before lt a l = true) :
    Top lt (a :: V) (insertBounded lt cap a l) := by
  obtain ⟨b, hlast, hab⟩ := before_iff.mp hb
  intro x hx hxo y hy
  by_cases hxl : x ∈ insertUpper lt a l
  · exact (hs.insertUpper a).trim_dropped hxl hxo y hy
  · simp only [mem_insertUpper, not_or] at hxl
    have hout := ht x ((List.mem_cons.mp hx).resolve_left hxl.1) hxl.2
    rcases mem_insertUpper.mp ((trim_sublist _ _).subset hy) with rfl | hy
    · by_contra hxy
      have := trans (by simpa using hxy) hab
      simp [hout b (List.mem_of_getLast? hlast)] at this
    · exact hout y hy

theorem Top.cons_of_mem {V l : List α} {a : α} (ht : Top lt V l) (ha : a ∈ l) :
    Top lt (a :: V) l := fun x hx hxo =>
  ht x ((List.mem_cons.mp hx).resolve_left (fun h => hxo (h ▸ ha))) hxo

theorem Top.cons_of_not_before [WeakOrder lt] {V l : List α} {a : α} (hs : Sorted lt l)
    (ht : Top lt V l) (ha : before lt a l = false) : Top lt (a :: V) l := fun x hx hxo => by
  rcases List.mem_cons.mp hx with rfl | hx
  · exact hs.not_before ha
  · exact ht x hx hxo

/-- A list that holds all of `U` is on top of it. -/
theorem Top.of_subset {U l : List α} (h : ∀ x ∈ U, x ∈ l) : Top lt U l :=
  fun x hx hxo => absurd (h x hx) hxo

theorem Top.congr {lt' : α → α → Bool} {U U' l l' : List α} (h : Top lt U l)
    (hU : ∀ x ∈ U', x ∈ U) (hl : ∀ x, x ∈ l' ↔ x ∈ l)
    (hlt : ∀ x ∈ U', ∀ y ∈ l', lt' x y = lt x y) : Top lt' U' l' := by
  intro x hx hxo y hy
  rw [hlt x hx y hy]
  exact h x (hU x hx) ((hl x).not.mp hxo) y ((hl y).mp hy)

/-- A prefix of a sorted list that is on top of `U` is on top of `U`. -/
theorem Top.take {U l : List α} (h : Top lt U l) (hs : Sorted lt l) (n : ℕ) :
    Top lt U (l.take n) := by
  intro x hx hxo y hy
  by_cases hxl : x ∈ l
  · rw [← List.take_append_drop n l] at hxl hs
    exact (List.pairwise_append.mp hs).2.2 y hy x ((List.mem_append.mp hxl).resolve_left hxo)
  · exact h x hx hxl y (List.mem_of_mem_take hy)

/-- An element compares before none of the first `k` elements of `W` exactly when it does not
compare before at least `k` elements of `W`. -/
theorem Top.not_before_iff [WeakOrder lt] {W l : List α} (h : Top lt W l) (hW : W.Nodup)
    (hl : l.Nodup) (hsub : ∀ y ∈ l, y ∈ W) (x : α) :
    (∀ y ∈ l, lt x y = false) ↔ l.length ≤ (W.filter fun z => !lt x z).length := by
  constructor
  · intro hx
    refine (List.subperm_of_subset hl fun y hy => ?_).length_le
    simp [hsub y hy, hx y hy]
  · intro hlen y hy
    by_contra hxy
    rw [Bool.not_eq_false] at hxy
    have hnd : (y :: W.filter fun z => !lt x z).Nodup :=
      List.nodup_cons.mpr ⟨by simp [hxy], hW.filter _⟩
    obtain ⟨a, ha, hal⟩ : ∃ a ∈ W.filter (fun z => !lt x z), a ∉ l := by
      by_contra hall
      simp only [not_exists, not_and, not_not] at hall
      have := (List.subperm_of_subset hnd fun z hz => by
        rcases List.mem_cons.mp hz with rfl | hz
        exacts [hy, hall z hz]).length_le
      rw [List.length_cons] at this
      omega
    simp only [List.mem_filter, Bool.not_eq_true'] at ha
    have := negTrans ha.2 (h a ha.1 hal y hy)
    simp [hxy] at this

/-! ## Elements whose place may have changed -/

/-- Every element outside `l` that `touches` does not find leaves enough elements of `l`, or
found by `touches`, that it does not compare before. -/
def Enough [DecidableEq α] (lt : α → α → Bool) (U l : List α) (touches : α → Bool) : Prop :=
  ∀ x ∈ U, x ∉ l → touches x = false →
    l.length ≤ (U.filter fun z => (decide (z ∈ l) || touches z) && !lt x z).length

instance [DecidableEq α] (U l : List α) (touches : α → Bool) :
    Decidable (Enough lt U l touches) :=
  inferInstanceAs (Decidable (∀ x ∈ U, _))

/-- A list as long as `l` that is on top of `l` and of what `touches` finds is on top of all of
`U` exactly when enough elements are left. -/
theorem top_iff_enough [DecidableEq α] [WeakOrder lt] {U l r : List α} {touches : α → Bool}
    (hU : U.Nodup) (hr : r.Nodup) (hrU : ∀ y ∈ r, y ∈ U)
    (hrl : ∀ y ∈ r, y ∈ l ∨ touches y = true) (hlen : r.length = l.length)
    (ht : Top lt (U.filter fun z => decide (z ∈ l) || touches z) r) :
    Top lt U r ↔ Enough lt U l touches := by
  have hsub : ∀ y ∈ r, y ∈ U.filter fun z => decide (z ∈ l) || touches z := fun y hy => by
    simpa using ⟨hrU y hy, hrl y hy⟩
  have hcount := fun x => ht.not_before_iff (hU.filter _) hr hsub x
  simp only [List.filter_filter, hlen] at hcount
  constructor
  · intro htop x hx hxl hxt
    have hxr : x ∉ r := fun h => (hrl x h).elim hxl (by simp [hxt])
    simpa [Bool.and_comm] using (hcount x).mp (htop x hx hxr)
  · intro hen x hx hxr
    by_cases hxW : x ∈ l ∨ touches x = true
    · exact ht x (by simpa using ⟨hx, hxW⟩) hxr
    · simp only [not_or, Bool.not_eq_true] at hxW
      refine (hcount x).mpr ?_
      simpa [Bool.and_comm] using hen x hx hxW.1 hxW.2

/-! ## Offering elements -/

variable [DecidableEq α]

/-- Insert an element that compares before the last one, append another while there is room. -/
def offer (lt : α → α → Bool) (cap : ℕ) (l : List α) (a : α) : List α :=
  if before lt a l then if a ∈ l then l else insertBounded lt cap a l
  else if l.length < cap then if a ∈ l then l else l ++ [a]
  else l

/-- Insert an element that compares before the last one, leave out any other. -/
def offerBetter (lt : α → α → Bool) (cap : ℕ) (l : List α) (a : α) : List α :=
  if before lt a l then if a ∈ l then l else insertBounded lt cap a l else l

/-- What offering the elements of `V` so far guarantees: the list is ranked, it is full or
holds all of `V`, and it is on top of `V`. -/
structure Filled (lt : α → α → Bool) (cap : ℕ) (U V l : List α) : Prop where
  ranked : Ranked lt cap U l
  full : l.length = cap ∨ ∀ x ∈ V, x ∈ l
  top : Top lt V l

theorem Filled.offer [WeakOrder lt] {U V l : List α} (h : Filled lt cap U V l) {a : α}
    (ha : a ∈ U) : Filled lt cap U (a :: V) (offer lt cap l a) := by
  obtain ⟨hr, hf, ht⟩ := h
  unfold SortedList.offer
  split_ifs with hb hal hlt hal
  · exact ⟨hr, hf.imp_right fun hV x hx => by
      rcases List.mem_cons.mp hx with rfl | hx; exacts [hal, hV x hx], ht.cons_of_mem hal⟩
  · refine ⟨hr.insertBounded ha hal, ?_, ht.insertBounded hr.sorted hb⟩
    rw [hr.length_insertBounded]
    rcases hr.length_le.lt_or_eq with hlen | hlen
    · refine Or.inr fun x hx => ?_
      have hV := hf.resolve_left hlen.ne
      rw [SortedList.insertBounded, trim, if_neg (by rw [length_insertUpper]; omega),
        mem_insertUpper]
      exact (List.mem_cons.mp hx).imp_right (hV x)
    · exact Or.inl (by omega)
  · exact ⟨hr, hf.imp_right fun hV x hx => by
      rcases List.mem_cons.mp hx with rfl | hx; exacts [hal, hV x hx], ht.cons_of_mem hal⟩
  · have hV := hf.resolve_left hlt.ne
    have hmem : ∀ x ∈ a :: V, x ∈ l ++ [a] := fun x hx => by
      rcases List.mem_cons.mp hx with rfl | hx
      · simp
      · simp [hV x hx]
    exact ⟨hr.append_singleton ha hal (hr.sorted.not_before (by simpa using hb)) hlt, Or.inr hmem,
      fun x hx hxo => absurd (hmem x hx) hxo⟩
  · exact ⟨hr, Or.inl (le_antisymm hr.length_le (not_lt.mp hlt)),
      ht.cons_of_not_before hr.sorted (by simpa using hb)⟩

theorem Filled.foldl_offer [WeakOrder lt] {U : List α} (as : List α) :
    ∀ {V l : List α}, Filled lt cap U V l → (∀ x ∈ as, x ∈ U) →
      Filled lt cap U (as.reverse ++ V) (as.foldl (SortedList.offer lt cap) l) := by
  induction as with
  | nil => exact fun h _ => h
  | cons a as ih =>
    intro V l h has
    have := ih (h.offer (has a (by simp))) fun x hx => has x (by simp [hx])
    simpa using this

/-- **Filling.** Offering every element of `U` ends with the first `min cap |U|` of them. -/
theorem ranked_fill [WeakOrder lt] {U l : List α} (h : Ranked lt cap U l) (hU : U.Nodup) :
    let r := U.foldl (offer lt cap) l
    Ranked lt cap U r ∧ r.length = min cap U.length ∧ Top lt U r := by
  have hf := Filled.foldl_offer U (V := []) ⟨h, Or.inr (by simp), by simp [Top]⟩ fun x hx => hx
  refine ⟨hf.ranked, ?_, fun x hx => hf.top x (by simpa using hx)⟩
  rcases hf.full with hfull | hall
  · have := hf.ranked.length_le_card
    omega
  · have hle := (List.subperm_of_subset hU fun x hx => hall x (by simpa using hx)).length_le
    have := hf.ranked.length_le
    have := hf.ranked.length_le_card
    omega

/-- What offering the better elements of `V` guarantees, started from a full list `l₀`. -/
theorem offerBetter_spec [WeakOrder lt] {U : List α} (as : List α) :
    ∀ {V l : List α}, Ranked lt cap U l → Top lt V l → (∀ x ∈ as, x ∈ U) →
      let r := as.foldl (offerBetter lt cap) l
      Ranked lt cap U r ∧ Top lt (as.reverse ++ V) r ∧ l.length ≤ r.length ∧
        ∀ x ∈ r, x ∈ l ∨ x ∈ as := by
  induction as with
  | nil => exact fun hr ht _ => ⟨hr, ht, le_rfl, fun x hx => Or.inl hx⟩
  | cons a as ih =>
    intro V l hr ht has
    have haU := has a (by simp)
    have hstep : Ranked lt cap U (offerBetter lt cap l a) ∧
        Top lt (a :: V) (offerBetter lt cap l a) ∧ l.length ≤ (offerBetter lt cap l a).length ∧
        ∀ x ∈ offerBetter lt cap l a, x ∈ l ∨ x = a := by
      unfold offerBetter
      split_ifs with hb hal
      · exact ⟨hr, ht.cons_of_mem hal, le_rfl, fun x hx => Or.inl hx⟩
      · refine ⟨hr.insertBounded haU hal, ht.insertBounded hr.sorted hb, ?_, fun x hx => ?_⟩
        · rw [hr.length_insertBounded]
          have := hr.length_le
          omega
        · exact (mem_insertUpper.mp ((trim_sublist _ _).subset hx)).symm
      · exact ⟨hr, ht.cons_of_not_before hr.sorted (by simpa using hb), le_rfl,
          fun x hx => Or.inl hx⟩
    obtain ⟨h1, h2, h3, h4⟩ := hstep
    obtain ⟨g1, g2, g3, g4⟩ := ih h1 h2 fun x hx => has x (by simp [hx])
    refine ⟨g1, by simpa using g2, h3.trans g3, fun x hx => ?_⟩
    rcases g4 x hx with hx | hx
    · exact (h4 x hx).imp_right (by rintro rfl; simp)
    · exact Or.inr (by simp [hx])

end SortedList
