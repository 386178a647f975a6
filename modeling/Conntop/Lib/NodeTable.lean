import Mathlib.Data.Finmap

/-!
# Hash tables whose nodes never move

A table is the list of its nodes. A node keeps its location until it is erased, however many nodes
are inserted. It is found under a key with the hash of its own key that is equal to it. Nothing is
assumed of the order of the nodes.

`KeyOps.Respects`: on the keys that satisfy `P`, equality and hash follow what the keys stand for.

Main results: `contents_emplace` and `contents_erase`. A table of such keys is a finite map from
what the keys stand for.
-/

/-- The hash and the equality of the keys of a table. -/
structure KeyOps (κ η : Type*) where
  hash : κ → η
  equal : κ → κ → Bool

structure Node (κ ν : Type*) where
  loc : ℕ
  key : κ
  value : ν

abbrev NodeTable (κ ν : Type*) := List (Node κ ν)

namespace KeyOps

variable {κ η ν α : Type*} [DecidableEq η] {ops : KeyOps κ η} {P : κ → Prop} {abs : κ → α}

/-- Whether a node is found under a key. -/
def isFor (ops : KeyOps κ η) (k : κ) (n : Node κ ν) : Bool :=
  ops.hash n.key = ops.hash k && ops.equal n.key k

structure Respects (ops : KeyOps κ η) (P : κ → Prop) (abs : κ → α) : Prop where
  equal_iff : ∀ k k', P k → P k' → (ops.equal k k' = true ↔ abs k = abs k')
  hash_eq : ∀ k k', P k → P k' → abs k = abs k' → ops.hash k = ops.hash k'

theorem Respects.isFor_iff (hr : ops.Respects P abs) {k : κ} {n : Node κ ν} (hn : P n.key)
    (hk : P k) : ops.isFor k n = true ↔ abs n.key = abs k := by
  unfold isFor
  rw [Bool.and_eq_true, decide_eq_true_eq, hr.equal_iff _ _ hn hk]
  exact ⟨And.right, fun h => ⟨hr.hash_eq _ _ hn hk h, h⟩⟩

end KeyOps

namespace NodeTable

/-! ## The operations -/

section Operations

variable {κ η ν : Type*} [DecidableEq η] (ops : KeyOps κ η) (t : NodeTable κ ν)

def find (k : κ) : Option (Node κ ν) := t.find? (ops.isFor k)

/-- The node of the key, and whether it is new. -/
def emplace (loc : ℕ) (k : κ) (v : ν) : (Node κ ν × Bool) × NodeTable κ ν :=
  match find ops t k with
  | some n => ((n, false), t)
  | none => (({ loc, key := k, value := v }, true), t ++ [{ loc, key := k, value := v }])

def erase (k : κ) : NodeTable κ ν := t.eraseP (ops.isFor k)

def locs : List ℕ := t.map (·.loc)

/-- The node at a location. -/
def deref (loc : ℕ) : Option (Node κ ν) := t.find? fun n => n.loc = loc

end Operations

/-! ## Well-formed tables -/

variable {κ η ν α β : Type*} [DecidableEq η] {ops : KeyOps κ η} {P : κ → Prop} {abs : κ → α}
  {t : NodeTable κ ν} {k : κ} {n : Node κ ν}

/-- The keys are allowed, stand for different things, and the nodes are at different locations. -/
structure Wf (P : κ → Prop) (abs : κ → α) (t : NodeTable κ ν) : Prop where
  allowed : ∀ n ∈ t, P n.key
  nodup : (t.map fun n => abs n.key).Nodup
  nodupLocs : t.locs.Nodup

theorem wf_nil : Wf P abs ([] : NodeTable κ ν) := ⟨by simp, by simp, by simp [locs]⟩

/-- What is allowed may grow, and what the keys stand for may be said in another way. -/
theorem Wf.congr {α' : Type*} {P' : κ → Prop} {abs' : κ → α'} (hw : Wf P abs t)
    (hP : ∀ k, P k → P' k)
    (habs : ∀ k k', P k → P k' → (abs' k = abs' k' → abs k = abs k')) : Wf P' abs' t where
  allowed := fun n hn => hP _ (hw.allowed n hn)
  nodup := by
    rw [List.Nodup, List.pairwise_map]
    refine (List.pairwise_map.mp hw.nodup).imp_of_mem ?_
    intro m n hm hn hne heq
    exact hne (habs _ _ (hw.allowed m hm) (hw.allowed n hn) heq)
  nodupLocs := hw.nodupLocs

/-- A node is known by what its key stands for. -/
theorem Wf.eq_of_abs_eq (hw : Wf P abs t) {m : Node κ ν} (hm : m ∈ t) (hn : n ∈ t)
    (h : abs m.key = abs n.key) : m = n :=
  List.inj_on_of_nodup_map hw.nodup hm hn h

theorem Wf.eq_of_loc_eq (hw : Wf P abs t) {m : Node κ ν} (hm : m ∈ t) (hn : n ∈ t)
    (h : m.loc = n.loc) : m = n :=
  List.inj_on_of_nodup_map hw.nodupLocs hm hn h

theorem Wf.deref_eq_some_iff (hw : Wf P abs t) {loc : ℕ} :
    t.deref loc = some n ↔ n ∈ t ∧ n.loc = loc := by
  unfold deref
  constructor
  · intro h
    exact ⟨List.mem_of_find?_eq_some h, by simpa using List.find?_some h⟩
  · rintro ⟨hn, rfl⟩
    cases h : t.find? fun m => decide (m.loc = n.loc) with
    | none => simpa using List.find?_eq_none.mp h n hn
    | some m =>
      have hm : m.loc = n.loc := by simpa using List.find?_some h
      rw [hw.eq_of_loc_eq (List.mem_of_find?_eq_some h) hn hm]

theorem mem_locs {loc : ℕ} : loc ∈ t.locs ↔ ∃ n ∈ t, n.loc = loc := List.mem_map

/-! ## What the operations do -/

variable (hr : ops.Respects P abs)
include hr

theorem Wf.find_eq_some_iff (hw : Wf P abs t) (hk : P k) :
    t.find ops k = some n ↔ n ∈ t ∧ abs n.key = abs k := by
  unfold find
  constructor
  · intro h
    have hn := List.mem_of_find?_eq_some h
    exact ⟨hn, (hr.isFor_iff (hw.allowed n hn) hk).mp (List.find?_some h)⟩
  · rintro ⟨hn, heq⟩
    have hfor := (hr.isFor_iff (hw.allowed n hn) hk).mpr heq
    cases h : t.find? (ops.isFor k) with
    | none => exact absurd hfor (List.find?_eq_none.mp h n hn)
    | some m =>
      have hm := List.mem_of_find?_eq_some h
      have hmk := (hr.isFor_iff (hw.allowed m hm) hk).mp (List.find?_some h)
      rw [hw.eq_of_abs_eq hm hn (hmk.trans heq.symm)]

theorem Wf.find_eq_none_iff (hw : Wf P abs t) (hk : P k) :
    t.find ops k = none ↔ ∀ n ∈ t, abs n.key ≠ abs k := by
  unfold find
  rw [List.find?_eq_none]
  constructor <;> intro h n hn
  · exact mt (hr.isFor_iff (hw.allowed n hn) hk).mpr (h n hn)
  · exact mt (hr.isFor_iff (hw.allowed n hn) hk).mp (h n hn)

/-- Everything that `emplace` can do. -/
theorem Wf.emplace_cases (hw : Wf P abs t) (hk : P k) (loc : ℕ) (v : ν) :
    (∃ n ∈ t, abs n.key = abs k ∧ t.emplace ops loc k v = ((n, false), t)) ∨
      ((∀ n ∈ t, abs n.key ≠ abs k) ∧
        t.emplace ops loc k v = (({ loc, key := k, value := v }, true),
          t ++ [{ loc, key := k, value := v }])) := by
  unfold emplace
  cases h : t.find ops k with
  | none => exact .inr ⟨(hw.find_eq_none_iff hr hk).mp h, rfl⟩
  | some n =>
    obtain ⟨hn, heq⟩ := (hw.find_eq_some_iff hr hk).mp h
    exact .inl ⟨n, hn, heq, rfl⟩

theorem Wf.emplace (hw : Wf P abs t) (hk : P k) {loc : ℕ} (hloc : loc ∉ t.locs) (v : ν) :
    Wf P abs (t.emplace ops loc k v).2 := by
  obtain ⟨n, -, -, heq⟩ | ⟨hnew, heq⟩ := hw.emplace_cases hr hk loc v
  · rw [heq]
    exact hw
  · rw [heq]
    constructor
    · intro n hn
      rcases List.mem_append.mp hn with hn | hn
      · exact hw.allowed n hn
      · rw [List.mem_singleton.mp hn]
        exact hk
    · rw [List.map_append, List.nodup_append]
      refine ⟨hw.nodup, by simp, ?_⟩
      simp only [List.map_cons, List.map_nil, List.mem_singleton, List.mem_map]
      rintro _ ⟨n, hn, rfl⟩ _ rfl
      exact hnew n hn
    · rw [locs, List.map_append, List.nodup_append]
      refine ⟨hw.nodupLocs, by simp, ?_⟩
      simp only [List.map_cons, List.map_nil, List.mem_singleton]
      rintro l hl _ rfl rfl
      exact hloc hl

omit hr [DecidableEq η] in
/-- What `emplace` returns and leaves, whether the key is there or not. -/
structure Emplaced (abs : κ → α) (t : NodeTable κ ν) (new : Node κ ν) (r : Node κ ν × Bool)
    (t' : NodeTable κ ν) : Prop where
  wf : Wf P abs t'
  mem : r.1 ∈ t'
  key : abs r.1.key = abs new.key
  isNew_iff : r.2 = true ↔ ∀ n ∈ t, abs n.key ≠ abs new.key
  mono : ∀ n ∈ t, n ∈ t'
  of_mem : ∀ n ∈ t', n ∈ t ∨ n = new
  locs : t'.locs = t.locs ∨ t'.locs = t.locs ++ [new.loc]

omit hr [DecidableEq η] in
/-- What the keys stand for after `emplace`. -/
theorem Emplaced.exists_key_iff {new : Node κ ν} {r : Node κ ν × Bool} {t' : NodeTable κ ν}
    (he : Emplaced (P := P) abs t new r t') (a : α) :
    (∃ n ∈ t', abs n.key = a) ↔ a = abs new.key ∨ ∃ n ∈ t, abs n.key = a := by
  constructor
  · rintro ⟨n, hn, rfl⟩
    rcases he.of_mem n hn with hn | rfl
    · exact .inr ⟨n, hn, rfl⟩
    · exact .inl rfl
  · rintro (rfl | ⟨n, hn, rfl⟩)
    · exact ⟨r.1, he.mem, he.key⟩
    · exact ⟨n, he.mono n hn, rfl⟩

omit hr [DecidableEq η] in
theorem Emplaced.isNew_iff_not {new : Node κ ν} {r : Node κ ν × Bool} {t' : NodeTable κ ν}
    (he : Emplaced (P := P) abs t new r t') :
    r.2 = true ↔ ¬∃ n ∈ t, abs n.key = abs new.key := by
  rw [he.isNew_iff]
  push Not
  rfl

theorem Wf.emplaced (hw : Wf P abs t) (hk : P k) {loc : ℕ} (hloc : loc ∉ t.locs) (v : ν) :
    Emplaced (P := P) abs t { loc, key := k, value := v } (t.emplace ops loc k v).1
      (t.emplace ops loc k v).2 := by
  have hwf := hw.emplace hr hk hloc v
  obtain ⟨n, hn, hkey, heq⟩ | ⟨hnew, heq⟩ := hw.emplace_cases hr hk loc v <;> rw [heq] at hwf ⊢
  · refine ⟨hwf, hn, hkey, ?_, fun m hm => hm, fun m hm => .inl hm, .inl rfl⟩
    exact iff_of_false Bool.false_ne_true fun h => h n hn hkey
  · refine ⟨hwf, by simp, rfl, iff_of_true rfl hnew, ?_, ?_, .inr (by simp [NodeTable.locs])⟩
    · exact fun m hm => List.mem_append_left _ hm
    · exact fun m hm => (List.mem_append.mp hm).imp id List.mem_singleton.mp

omit hr in
theorem Wf.erase (hw : Wf P abs t) (ops : KeyOps κ η) (k : κ) : Wf P abs (t.erase ops k) where
  allowed := fun n hn => hw.allowed n (List.mem_of_mem_eraseP hn)
  nodup := hw.nodup.sublist (List.eraseP_sublist.map _)
  nodupLocs := hw.nodupLocs.sublist (List.eraseP_sublist.map _)

theorem Wf.mem_erase (hw : Wf P abs t) (hk : P k) :
    n ∈ t.erase ops k ↔ n ∈ t ∧ abs n.key ≠ abs k := by
  unfold NodeTable.erase
  constructor
  · intro hn
    have hmem := List.mem_of_mem_eraseP hn
    refine ⟨hmem, fun heq => ?_⟩
    have hfor := (hr.isFor_iff (hw.allowed n hmem) hk).mpr heq
    obtain ⟨m, l₁, l₂, hl₁, hm, hsplit, herase⟩ := List.exists_of_eraseP hmem hfor
    have hmk : abs m.key = abs k :=
      (hr.isFor_iff (hw.allowed m (by rw [hsplit]; simp)) hk).mp hm
    have hmn : m = n := hw.eq_of_abs_eq (by rw [hsplit]; simp) hmem (hmk.trans heq.symm)
    have hnodup := hw.nodupLocs
    rw [herase, hmn.symm] at hn
    rw [hsplit, locs, List.map_append, List.map_cons, List.nodup_append] at hnodup
    obtain ⟨-, hcons, hdisj⟩ := hnodup
    rcases List.mem_append.mp hn with hn | hn
    · exact hdisj _ (List.mem_map_of_mem hn) _ List.mem_cons_self rfl
    · exact (List.nodup_cons.mp hcons).1 (List.mem_map_of_mem hn)
  · rintro ⟨hn, hne⟩
    exact (List.mem_eraseP_of_neg (mt (hr.isFor_iff (hw.allowed n hn) hk).mp hne)).mpr hn

/-! ## The finite map -/

variable [DecidableEq α] {f : ν → β}

omit hr [DecidableEq η] in
/-- What the keys stand for, with what is read of the values. -/
def contents (abs : κ → α) (f : ν → β) (t : NodeTable κ ν) : Finmap fun _ : α => β :=
  (t.map fun n => (⟨abs n.key, f n.value⟩ : Sigma fun _ : α => β)).toFinmap

omit hr [DecidableEq η] in
theorem contents_congr {abs' : κ → α} (h : ∀ n ∈ t, abs n.key = abs' n.key) :
    contents abs f t = contents abs' f t :=
  congrArg _ (List.map_congr_left fun n hn => by rw [h n hn])

omit hr [DecidableEq η] in
theorem Wf.lookup_contents_eq_some (hw : Wf P abs t) {a : α} {b : β} :
    (contents abs f t).lookup a = some b ↔ ∃ n ∈ t, abs n.key = a ∧ f n.value = b := by
  have hnodup : (t.map fun n => (⟨abs n.key, f n.value⟩ : Sigma fun _ : α => β)).NodupKeys := by
    rw [List.NodupKeys, List.keys, List.map_map]
    exact hw.nodup
  rw [contents, Finmap.dlookup_list_toFinmap, ← Option.mem_def, List.mem_dlookup_iff hnodup]
  simp [List.mem_map]

theorem Wf.lookup_contents (hw : Wf P abs t) (hk : P k) :
    (contents abs f t).lookup (abs k) = (t.find ops k).map fun n => f n.value := by
  refine Option.ext fun b => ?_
  rw [hw.lookup_contents_eq_some, Option.map_eq_some_iff]
  refine exists_congr fun n => ?_
  rw [hw.find_eq_some_iff hr hk, and_assoc]

theorem Wf.mem_contents (hw : Wf P abs t) (hk : P k) :
    abs k ∈ contents abs f t ↔ (t.find ops k).isSome = true := by
  rw [← Finmap.lookup_isSome, hw.lookup_contents hr hk, Option.isSome_map]

theorem Wf.contents_emplace (hw : Wf P abs t) (hk : P k) {loc : ℕ} (hloc : loc ∉ t.locs) (v : ν) :
    contents abs f (t.emplace ops loc k v).2 =
      if abs k ∈ contents abs f t then contents abs f t
      else (contents abs f t).insert (abs k) (f v) := by
  have hwf := hw.emplace hr hk hloc v
  have hmem := hw.mem_contents (f := f) hr hk
  unfold NodeTable.emplace at hwf ⊢
  cases h : t.find ops k with
  | some n =>
    rw [h] at hmem
    rw [if_pos (hmem.mpr rfl)]
  | none =>
    rw [h] at hwf hmem
    rw [if_neg (by simp [hmem])]
    refine Finmap.ext_lookup fun a => Option.ext fun b => ?_
    rw [hwf.lookup_contents_eq_some]
    have hnew := (hw.find_eq_none_iff hr hk).mp h
    by_cases ha : a = abs k
    · subst ha
      rw [Finmap.lookup_insert]
      constructor
      · rintro ⟨n, hn, heq, rfl⟩
        rcases List.mem_append.mp hn with hn | hn
        · exact absurd heq (hnew n hn)
        · rw [List.mem_singleton.mp hn]
      · intro hb
        exact ⟨_, List.mem_append_right _ (List.mem_singleton.mpr rfl), rfl, Option.some.inj hb⟩
    · rw [Finmap.lookup_insert_of_ne _ ha, hw.lookup_contents_eq_some]
      constructor
      · rintro ⟨n, hn, heq, rfl⟩
        rcases List.mem_append.mp hn with hn | hn
        · exact ⟨n, hn, heq, rfl⟩
        · rw [List.mem_singleton.mp hn] at heq
          exact absurd heq.symm ha
      · rintro ⟨n, hn, heq, rfl⟩
        exact ⟨n, List.mem_append_left _ hn, heq, rfl⟩

theorem Wf.contents_erase (hw : Wf P abs t) (hk : P k) :
    contents abs f (t.erase ops k) = (contents abs f t).erase (abs k) := by
  refine Finmap.ext_lookup fun a => Option.ext fun b => ?_
  rw [(hw.erase ops k).lookup_contents_eq_some]
  simp only [hw.mem_erase hr hk]
  by_cases ha : a = abs k
  · subst ha
    rw [Finmap.lookup_erase]
    constructor
    · rintro ⟨n, ⟨-, hne⟩, heq, -⟩
      exact absurd heq hne
    · intro hb
      cases hb
  · rw [Finmap.lookup_erase_ne ha, hw.lookup_contents_eq_some]
    constructor
    · rintro ⟨n, ⟨hn, -⟩, heq, rfl⟩
      exact ⟨n, hn, heq, rfl⟩
    · rintro ⟨n, hn, heq, rfl⟩
      exact ⟨n, ⟨hn, fun h => ha (heq.symm.trans h)⟩, heq, rfl⟩

end NodeTable
