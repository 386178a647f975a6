import Conntop.Inet
import Conntop.ListStep

/-!
# The displayed list and the top of the table

`TopInv` says that the list holds the first connections of the storage, up to ties: nothing
outside the list compares before anything in it.

Most operations keep it. `fill` and the insertion before the last element leave the first
connections in the list, a cut list is a prefix of a sorted one, and a removed connection leaves
room that is filled again. An operation that moves listed connections down does not: `update`
calls `fill` for a connection that became the last one, which returns at once because the list
is full, and a resolved address or port offers only the connections that have it.

* `KeepsTop`: the condition under which an operation keeps `TopInv`. Every connection outside
  the list, other than those changed, leaves enough connections that it does not compare before.
* `step_top_iff`: an operation keeps `TopInv` exactly under this condition.

Main result: `run_top`, after every sequence of operations that meet it `TopInv` holds.
-/

namespace Conntop

open SortedList

namespace ConnectionList

variable {l l' : ConnectionList} {ks : List Connection} {S : StdSort} {c : Connection}

/-- Nothing outside a shown list compares before anything in it. -/
def TopInv (l : ConnectionList) : Prop :=
  0 < l.targetSize → SortedList.Top l.compareFunc l.stored l.keys

/-- The condition under which an operation keeps the list on top. -/
def KeepsTop (l : ConnectionList) : Op → Prop
  | .change c d _ => c ∈ l.stored → 0 < l.targetSize →
      Enough { l with storage := l.storage.setConnectionData c d }.compareFunc l.stored l.keys
        (· == c)
  | .resolveAddress a resolved => 0 < l.targetSize →
      Enough { l with storage := l.setResolvedAddress a resolved }.compareFunc l.stored l.keys
        (·.hasAddr a)
  | .resolvePort p resolved => 0 < l.targetSize →
      Enough { l with storage := l.setResolvedPort p resolved }.compareFunc l.stored l.keys
        fun c => c.hasPorts && c.hasPort p
  | _ => True

instance (l : ConnectionList) : DecidablePred (KeepsTop l)
  | .change .. => inferInstanceAs (Decidable (_ ∈ _ → 0 < _ → Enough ..))
  | .resolveAddress .. | .resolvePort .. => inferInstanceAs (Decidable (0 < _ → Enough ..))
  | .getAddress .. | .getPort .. | .add .. | .remove _ | .clear | .addressDataUpdated _
  | .portDataUpdated _ | .getNextUpdate | .invalidateAllVisible | .invalidateCursor
  | .moveCursor _ | .doScroll _ | .initConnectionDetail | .resetConnectionDetailRefresh
  | .setTargetSize _ | .setSortMode .. | .rehash _ => inferInstanceAs (Decidable True)

/-! ## Lists that are filled or cut -/

theorem filled_top (hr : Ranked l.compareFunc l.cap l.stored l.keys)
    (h : 0 < l.targetSize → l.cap ≤ l.keys.length →
      SortedList.Top l.compareFunc l.stored l.keys) (ht : 0 < l.targetSize) :
    SortedList.Top l.compareFunc l.stored l.filled := by
  unfold filled
  split_ifs with hc hk
  · have hfirst : Ranked l.compareFunc l.cap l.stored l.stored.head?.toList := by
      cases hs : l.stored with
      | nil => exact .nil _
      | cons c cs =>
        refine ⟨by simp, by simp, by simp [Sorted], ?_⟩
        simp only [List.head?_cons, Option.toList_some, List.length_singleton]
        omega
    exact (ranked_fill hfirst l.stored_nodup).2.2
  · exact (ranked_fill hr l.stored_nodup).2.2
  · by_cases hcap : l.cap ≤ l.keys.length
    · exact h ht hcap
    · refine .of_subset (hr.mem_of_length_eq ?_)
      rw [length_keys] at hcap ⊢
      omega

/-- **`fill` selects the first connections**, up to ties, from any sorted list of stored ones. -/
theorem fill_selects (l : ConnectionList) (hsize : 0 < l.targetSize)
    (hsorted : Sorted l.compareFunc l.keys) (hnodup : l.keys.Nodup)
    (hstored : ∀ c ∈ l.keys, c ∈ l.stored)
    (hlt : l.keys.length < min (l.scrollOffset + l.targetSize) l.stored.length) :
    Sorted l.compareFunc l.fill.keys ∧ l.fill.keys.Nodup ∧
      (∀ c ∈ l.fill.keys, c ∈ l.stored) ∧
      l.fill.keys.length = min (l.scrollOffset + l.targetSize) l.stored.length ∧
      ∀ x ∈ l.stored, x ∉ l.fill.keys → ∀ y ∈ l.fill.keys, l.compareFunc x y = false := by
  have hcap : l.keys.length < l.cap := lt_of_lt_of_le hlt (min_le_left _ _)
  have hr : Ranked l.compareFunc l.cap l.stored l.keys := ⟨hnodup, hstored, hsorted, hcap.le⟩
  obtain ⟨hfilled, hlen, -⟩ := filled_spec hr
  have htop := filled_top hr (fun _ hle => absurd hcap (not_lt.mpr hle)) hsize
  rw [(fill_relist l).keys]
  exact ⟨hfilled.sorted, hfilled.nodup, hfilled.subset, hlen hsize, htop⟩

private def rowAddr : Address := .ip4 0x0D00007F#32
private def row (n : BitVec 16) : Connection := ⟨rowAddr, ⟨.tcp, n⟩, rowAddr, ⟨.tcp, 1⟩, rfl, rfl⟩

/-- Three connections, and a list with the one that is last. -/
private def rows : ConnectionList where
  storage := { connectionMap := ⟨[⟨row 1, { traffic := { rxBytes := 5 } }⟩,
    ⟨row 2, { traffic := { rxBytes := 10 } }⟩, ⟨row 3, { traffic := { rxBytes := 1 } }⟩],
    by unfold List.NodupKeys; decide⟩ }
  list := [{ pConnection := row 2 }]
  sortMode := .rxBytes
  isSortAscending := true
  targetSize := 2

theorem fill_selects_rows :
    Sorted rows.compareFunc rows.fill.keys ∧ rows.fill.keys.length = 2 ∧
      ∀ x ∈ rows.stored, x ∉ rows.fill.keys → ∀ y ∈ rows.fill.keys, rows.compareFunc x y = false :=
  have h := fill_selects rows (by decide) (List.pairwise_singleton _ _) (by decide) (by decide)
    (by decide)
  ⟨h.1, h.2.2.2⟩

theorem SameList.top (h : SameList l l') (hi : Inv l) (ht : TopInv l) : TopInv l' := by
  intro hsize
  refine (ht (h.targetSize ▸ hsize)).congr (fun x hx => h.stored.subset hx)
    (fun x => by rw [h.keys]) fun x hx y hy => ?_
  exact h.compareFunc (h.stored.subset hx) (hi.ranked.subset y (h.keys ▸ hy))

theorem Relist.top_iff (h : Relist l ks l') :
    TopInv l' ↔ (0 < l.targetSize → SortedList.Top l.compareFunc l.stored ks) := by
  unfold TopInv
  rw [h.compareFunc, h.stored, h.keys, h.targetSize]

/-! ## New and removed connections -/

theorem add_top (hi : Inv l) (ht : TopInv l) (c : Connection) (d : ConnectionData) :
    TopInv (l.add c d) := by
  by_cases h : c ∈ l.stored
  · rwa [add_eq, if_pos h]
  refine (add_relist l d h).top_iff.mpr fun hsize => ?_
  have hlt := fun a ha b hb => compareFunc_addConnection (c := c) l d (a := a) (b := b) ha hb
  have hr := hi.ranked.congr fun a ha b hb =>
    hlt a (hi.ranked.subset a ha) b (hi.ranked.subset b hb)
  have htop : SortedList.Top { l with storage := (l.storage.addConnection c d).1 }.compareFunc
      l.stored l.keys := (ht hsize).congr (fun x hx => hx) (fun x => Iff.rfl)
    fun x hx y hy => hlt x hx y (hi.ranked.subset y hy)
  rw [stored_addConnection l d h]
  unfold added
  split_ifs with hb hroom
  · exact htop.insertBounded hr.sorted hb
  · -- the list has room, so it holds the whole storage
    have hall := hi.ranked.mem_of_length_eq (by
      have := hi.full hsize
      omega)
    refine .of_subset fun x hx => ?_
    rcases List.mem_cons.mp hx with rfl | hx
    · simp
    · simp [hall x hx]
  · exact htop.cons_of_not_before hr.sorted (by simpa using hb)

theorem remove_top (hi : Inv l) (ht : TopInv l) (c : Connection) : TopInv (l.remove c) := by
  rw [remove_eq]
  split_ifs with hc
  · obtain ⟨l₁, pos, h₁, -, h₂⟩ := handleRemoved_relist
      { l with storage := (l.storage.removeConnection c).1 } c
    obtain ⟨d, flags, hd, -⟩ := removeDetail_eq
      { l with storage := (l.storage.removeConnection c).1 } c
    rw [hd] at h₁
    have hst : l₁.stored = l.stored.erase c := h₁.stored.trans (stored_removeConnection l c)
    have hrank : Ranked l₁.compareFunc l₁.cap l₁.stored l₁.keys := by
      rw [hst, h₁.compareFunc, h₁.cap, h₁.keys]
      exact ranked_erase hi c
    refine h₂.top_iff.mpr (filled_top hrank fun hsize _ => ?_)
    have hl : l₁.targetSize = l.targetSize := h₁.targetSize
    show SortedList.Top l₁.compareFunc l₁.stored l₁.keys
    rw [hst, h₁.compareFunc, h₁.keys]
    intro x hx hxo y hy
    rw [l.stored_nodup.mem_erase_iff] at hx
    have hy' := hi.ranked.nodup.mem_erase_iff.mp hy
    have hx' : x ∉ l.keys := fun h => hxo (hi.ranked.nodup.mem_erase_iff.mpr ⟨hx.1, h⟩)
    exact (compareFunc_removeConnection l hx.1 hy'.1).trans
      (ht (hl ▸ hsize) x hx.2 hx' y hy'.2)
  · exact ht

/-! ## Changed connections -/

/-- The list after the connections that `touches` finds have changed: it holds as many as
before, of those listed before and those found. -/
theorem changed_top_iff {lt : Connection → Connection → Bool} [WeakOrder lt] (hi : Inv l)
    {touches : Connection → Bool} (hperm : ks.Perm l.keys) (hs : Sorted lt ks)
    (hsize : 0 < l.targetSize) (cs : List Connection)
    (hcs : ∀ x, x ∈ cs ↔ x ∈ l.stored ∧ touches x = true) :
    SortedList.Top lt l.stored (cs.foldl (offerBetter lt l.cap) ks) ↔
      Enough lt l.stored l.keys touches := by
  have hr := hi.ranked.perm hperm hs
  obtain ⟨h1, h2, h3, h4⟩ := offerBetter_spec cs (V := ks) hr (.of_subset fun x hx => hx)
    fun x hx => ((hcs x).mp hx).1
  refine top_iff_enough l.stored_nodup h1.nodup h1.subset (fun y hy => ?_) ?_ ?_
  · exact (h4 y hy).imp hperm.mem_iff.mp fun hy => ((hcs y).mp hy).2
  · have hle := h1.length_le
    have hcard := h1.length_le_card
    have := hi.full hsize
    have := hperm.length_eq
    omega
  · refine h2.congr (fun x hx => ?_) (fun x => Iff.rfl) fun _ _ _ _ => rfl
    simp only [List.mem_filter, Bool.or_eq_true, decide_eq_true_eq] at hx
    rw [List.mem_append, List.mem_reverse, hcs, hperm.mem_iff]
    exact hx.2.symm.imp_left fun h => ⟨hx.1, h⟩

theorem change_top_iff (hi : Inv l) (hc : c ∈ l.stored) (d : ConnectionData) (flags : Flags) :
    TopInv (l.change S c d flags) ↔ (0 < l.targetSize →
      Enough { l with storage := l.storage.setConnectionData c d }.compareFunc l.stored l.keys
        (· == c)) := by
  have hst := stored_setConnectionData l c d
  have hcs : ∀ x, x ∈ [c] ↔ x ∈ l.stored ∧ (x == c) = true := by
    simp only [List.mem_singleton, beq_iff_eq]
    exact fun x => ⟨fun h => ⟨h ▸ hc, h⟩, And.right⟩
  unfold ConnectionList.change
  by_cases hck : c ∈ l.keys
  · obtain ⟨ks, hperm, hsorted, hr⟩ := update_listed (S := S)
      (l := { l with storage := l.storage.setConnectionData c d }) hck (sorted_erase hi c d)
      (hst ▸ hi.full) flags
    rw [hr.top_iff, hst]
    refine imp_congr_right fun hsize => ?_
    have h := changed_top_iff hi hperm hsorted hsize [c] hcs
    rwa [List.foldl_cons, List.foldl_nil, offerBetter, if_pos (hperm.mem_iff.mpr hck),
      ite_self] at h
  · have hs : Sorted { l with storage := l.storage.setConnectionData c d }.compareFunc l.keys := by
      have := sorted_erase hi c d
      rwa [List.erase_of_not_mem hck] at this
    have hr := update_unlisted (S := S)
      (l := { l with storage := l.storage.setConnectionData c d }) hck flags
    rw [hr.top_iff, hst]
    exact imp_congr_right fun hsize => changed_top_iff hi (.refl _) hs hsize [c] hcs

/-- A comparison that did not change leaves enough elements. -/
theorem enough_of_top {lt : Connection → Connection → Bool} {touches : Connection → Bool}
    (hi : Inv l) (ht : SortedList.Top lt l.stored l.keys) :
    Enough lt l.stored l.keys touches := by
  intro x hx hxl _
  refine (List.subperm_of_subset hi.ranked.nodup fun y hy => ?_).length_le
  simp [hi.ranked.subset y hy, hy, ht x hx hxl y hy]

/-- Resolved data keeps the list on top exactly when enough elements are left. -/
theorem dataUpdated_top_iff {st : ConnectionStorage} {n : ℕ} {f : Flags} {mayAffectOrder : Bool}
    {touches : Connection → Bool} {flags : Connection → Flags} (hi : Inv l) (ht : TopInv l)
    (hmap : st.connectionMap = l.storage.connectionMap)
    (hlt : ∀ x y, mayAffectOrder = false ∨ touches x = false ∧ touches y = false →
      { l with storage := st }.compareFunc x y = l.compareFunc x y) :
    TopInv ({ l with
        storage := st
        dataResolvedCount := n
        connectionDetailUpdateFlags := f }.dataUpdated S mayAffectOrder touches flags) ↔
      (0 < l.targetSize →
        Enough { l with storage := st }.compareFunc l.stored l.keys touches) := by
  have hst : { l with
      storage := st
      dataResolvedCount := n
      connectionDetailUpdateFlags := f }.stored = l.stored := by
    show st.connectionMap.keys = _
    rw [hmap]
    rfl
  obtain ⟨ks, hperm, hsorted, hr⟩ := dataUpdated_relist (l := { l with
      storage := st
      dataResolvedCount := n
      connectionDetailUpdateFlags := f }) S touches flags fun h =>
    hi.ranked.sorted.congr fun x hx y hy => hlt x y (h.imp_right fun hu => ⟨hu x hx, hu y hy⟩)
  rw [hr.top_iff, hst]
  refine imp_congr_right fun hsize => ?_
  cases mayAffectOrder with
  | true =>
    exact changed_top_iff hi hperm hsorted hsize _ fun x => by rw [List.mem_filter]
  | false =>
    have htop : SortedList.Top { l with storage := st }.compareFunc l.stored l.keys :=
      (ht hsize).congr (fun x hx => hx) (fun x => Iff.rfl) fun x _ y _ => hlt x y (Or.inl rfl)
    refine ⟨fun _ => enough_of_top hi htop, fun _ => ?_⟩
    exact htop.congr (fun x hx => hx) (fun x => hperm.mem_iff) fun _ _ _ _ => rfl

/-- A call without a change keeps the list on top. -/
theorem dataUpdated_top (hi : Inv l) (ht : TopInv l) {mayAffectOrder : Bool}
    {touches : Connection → Bool} {flags : Connection → Flags} :
    TopInv ((l.markDetail flags).dataUpdated S mayAffectOrder touches flags) := by
  obtain ⟨f, hf⟩ := markDetail_eq l flags
  rw [hf]
  exact (dataUpdated_top_iff (l := l) hi ht rfl fun _ _ _ => rfl).mpr fun hsize =>
    enough_of_top hi (ht hsize)

/-! ## The user interface -/

theorem doScroll_top (hi : Inv l) (ht : TopInv l) (amount : ℤ) : TopInv (l.doScroll amount) := by
  rcases doScroll_cases l amount with h | ⟨s, hs, h⟩ | ⟨k, hk0, hk, h⟩
  · rwa [h]
  · exact h.top_iff.mpr fun hsize => (ht hsize).take hi.ranked.sorted _
  · refine h.top_iff.mpr (filled_top ?_ fun hsize _ => ht hsize)
    refine { hi.ranked with length_le := hi.ranked.length_le.trans ?_ }
    show l.scrollOffset + l.targetSize ≤ l.scrollOffset + k + l.targetSize
    omega

theorem moveCursor_top (hi : Inv l) (ht : TopInv l) (amount : ℤ) :
    TopInv (l.moveCursor amount) := by
  rcases moveCursor_cases l amount hi.cursor_le with h | ⟨pos, hpos, h | ⟨n, h⟩⟩
  · rwa [h]
  · rw [h]
    exact (setCursorPos_relist l pos).top_iff.mpr ht
  · rw [h]
    exact doScroll_top (hi.setCursor hpos) ht n

/-- A list that was not shown before is filled when it holds less than the whole storage. -/
theorem setTargetSize_top (hi : Inv l) (ht : TopInv l) (size : ℕ) :
    TopInv (l.setTargetSize size) := by
  by_cases hsize : l.targetSize = size
  · unfold setTargetSize
    rwa [if_pos hsize]
  · obtain ⟨l₁, pos, h₁, -, h₂⟩ := setTargetSize_relist l hsize
    have hrank : Ranked l₁.compareFunc l₁.cap l₁.stored l₁.keys := by
      rw [h₁.compareFunc, h₁.cap, h₁.stored, h₁.keys]
      exact { hi.ranked.sublist (List.take_sublist _ _) with
        length_le := by rw [List.length_take]; exact min_le_left _ _ }
    have htop := filled_top hrank fun hpos hcap => ?_
    · exact h₂.top_iff.mpr htop
    rw [h₁.cap, h₁.keys, List.length_take] at hcap
    rw [h₁.targetSize] at hpos
    rw [h₁.compareFunc, h₁.stored, h₁.keys]
    refine (ht ?_).take hi.ranked.sorted _
    -- a list that was not shown is too short to fill a window
    by_contra h0
    have hle := hi.ranked.length_le
    change l.scrollOffset + size ≤ _ at hcap
    change 0 < size at hpos
    unfold cap at hle
    omega

theorem setSortMode_top (ht : TopInv l) (mode : EConnectionSortMode) (isAscending : Bool) :
    TopInv (l.setSortMode mode isAscending) := by
  rcases setSortMode_relist l mode isAscending with h | h
  · rwa [h]
  · refine h.top_iff.mpr (filled_top (.nil _) fun hsize hcap => ?_)
    change l.scrollOffset + l.targetSize ≤ 0 at hcap
    change 0 < l.targetSize at hsize
    omega

/-! ## Runs -/

theorem topInv_init : TopInv {} := fun h => absurd h (by simp)

/-- **An operation keeps the list on top exactly when it leaves enough connections that the
others do not compare before.** -/
theorem step_top_iff (S : StdSort) (inet : InetText) (hi : Inv l) (ht : TopInv l) (op : Op) :
    TopInv (step S inet l op) ↔ KeepsTop l op := by
  cases op with
  -- these three calls may break the order of the top rows, and no other does
  | change c d flags =>
    show TopInv (if c ∈ l.storage.connectionMap then l.change S c d flags else l) ↔ _
    split_ifs with hc
    · exact (change_top_iff hi hc d flags).trans ⟨fun h _ => h, fun h => h hc⟩
    · exact ⟨fun _ h => absurd h hc, fun _ => ht⟩
  | resolveAddress a resolved =>
    obtain ⟨f, hf⟩ := markDetail_eq { l with
      storage := l.setResolvedAddress a resolved
      dataResolvedCount := l.dataResolvedCount + 1 } (addressFlags a)
    show TopInv (l.resolverCallbackAddress S a resolved) ↔ _
    unfold resolverCallbackAddress addressDataUpdated
    rw [hf]
    exact dataUpdated_top_iff (l := l) hi ht rfl fun x y h =>
      compareFunc_setResolvedAddress l a resolved h
  | resolvePort p resolved =>
    obtain ⟨f, hf⟩ := markDetail_eq { l with
      storage := l.setResolvedPort p resolved
      dataResolvedCount := l.dataResolvedCount + 1 } (portFlags p)
    show TopInv (l.resolverCallbackPort S p resolved) ↔ _
    unfold resolverCallbackPort portDataUpdated
    rw [hf]
    exact dataUpdated_top_iff (l := l) hi ht rfl fun x y h =>
      compareFunc_setResolvedPort l p resolved h
  | getAddress a add =>
    exact iff_of_true ((getAddress_same hi.ends inet a add).top hi ht) trivial
  | getPort p add => exact iff_of_true ((getPort_same hi.ends p add).top hi ht) trivial
  | add c d =>
    refine iff_of_true ?_ trivial
    show TopInv (if l.storage.HasEnds c then l.add c d else l)
    split_ifs
    · exact add_top hi ht c d
    · exact ht
  | remove c => exact iff_of_true (remove_top hi ht c) trivial
  | clear => exact iff_of_true (fun _ x hx => by simp [clear, stored,
      ConnectionStorage.clearConnections, step] at hx) trivial
  | addressDataUpdated a => exact iff_of_true (dataUpdated_top hi ht) trivial
  | portDataUpdated p => exact iff_of_true (dataUpdated_top hi ht) trivial
  | getNextUpdate => exact iff_of_true ((getNextUpdate_relist l).top_iff.mpr ht) trivial
  | invalidateAllVisible => exact iff_of_true ((invalidateAllVisible_relist l).top_iff.mpr ht) trivial
  | invalidateCursor => exact iff_of_true ((invalidateCursor_relist l).top_iff.mpr ht) trivial
  | moveCursor amount => exact iff_of_true (moveCursor_top hi ht amount) trivial
  | doScroll amount => exact iff_of_true (doScroll_top hi ht amount) trivial
  | initConnectionDetail => exact iff_of_true ht trivial
  | resetConnectionDetailRefresh => exact iff_of_true ht trivial
  | setTargetSize size => exact iff_of_true (setTargetSize_top hi ht size) trivial
  | setSortMode mode isAscending => exact iff_of_true (setSortMode_top ht mode isAscending) trivial
  | rehash m => exact iff_of_true ((rehash_same l m).top hi ht) trivial

theorem run_take_succ (S : StdSort) (inet : InetText) (l : ConnectionList) (ops : List Op) {i : ℕ}
    (hi : i < ops.length) :
    run S inet l (ops.take (i + 1)) = step S inet (run S inet l (ops.take i)) ops[i] := by
  unfold run
  rw [List.take_succ_eq_append_getElem hi, List.foldl_concat]

/-- **In every sequence of operations that meet the condition the list is on top of the table
after each of them.** -/
theorem run_top (S : StdSort) (inet : InetText) (ops : List Op)
    (h : ∀ i (hi : i < ops.length), KeepsTop (run S inet {} (ops.take i)) ops[i]) :
    ∀ i ≤ ops.length, let l := run S inet {} (ops.take i)
      0 < l.targetSize → ∀ x ∈ l.storage.connectionMap, (∀ item ∈ l.list, item.pConnection ≠ x) →
        ∀ item ∈ l.list, l.compareFunc x item.pConnection = false := by
  have htop : ∀ i ≤ ops.length, TopInv (run S inet {} (ops.take i)) := by
    intro i
    induction i with
    | zero => exact fun _ => topInv_init
    | succ i ih =>
      intro hi
      rw [run_take_succ S inet {} ops hi]
      exact (step_top_iff S inet (run_inv S inet _) (ih (Nat.le_of_succ_le hi)) _).mpr (h i hi)
  intro i hi l hsize x hx hxo item hitem
  refine htop i hi hsize x hx (fun hmem => ?_) _ (List.mem_map_of_mem hitem)
  obtain ⟨y, hy, rfl⟩ := List.mem_map.mp hmem
  exact hxo y hy rfl

/-! ## A listed connection that moves down -/

private def src : Address := .ip4 0x0100007F#32
private def port : Port := ⟨.tcp, 80⟩
private def port' : Port := ⟨.tcp, 81⟩
private def conn : Connection := ⟨src, port, src, port, rfl, rfl⟩
private def conn' : Connection := ⟨src, port', src, port, rfl, rfl⟩

/-- A window of one row, sorted by received bytes, and two connections with ten and five bytes.
Then the connection in the window gets one byte. -/
def movedDown : List Op :=
  [.setSortMode .rxBytes false, .setTargetSize 1,
    .getAddress src true, .getPort port true, .getPort port' true,
    .add conn { traffic := { rxBytes := 10 } }, .add conn' { traffic := { rxBytes := 5 } },
    .change conn { traffic := { rxBytes := 1 } } EConnectionUpdateFlags.rxBytes]

set_option maxRecDepth 4000 in
/-- The connection with one byte stays in the window. -/
theorem movedDown_not_top : ¬ ∀ (S : StdSort) (inet : InetText) (ops : List Op),
    let l := run S inet {} ops
    0 < l.targetSize → ∀ x ∈ l.storage.connectionMap, (∀ item ∈ l.list, item.pConnection ≠ x) →
      ∀ item ∈ l.list, l.compareFunc x item.pConnection = false := by
  intro h
  have hlist : (run .insertion .plain {} movedDown).list.map (·.pConnection) = [conn] := by decide
  have hcmp : (run .insertion .plain {} movedDown).compareFunc conn' conn = true := by decide
  obtain ⟨item, hitem⟩ : ∃ item, (run .insertion .plain {} movedDown).list = [item] :=
    List.length_eq_one_iff.mp (by rw [← List.length_map (·.pConnection), hlist]; rfl)
  rw [hitem, List.map_singleton, List.singleton_inj] at hlist
  have hbad := h .insertion .plain movedDown (by decide) conn' (by decide)
    (by rw [hitem]; simp only [List.mem_singleton, forall_eq, hlist]; decide) item
    (by rw [hitem]; simp)
  rw [hlist, hcmp] at hbad
  exact absurd hbad (by decide)

/-- The same with a change that does not move the connection below the other. -/
def notMovedDown : List Op :=
  movedDown.dropLast ++
    [.change conn { traffic := { rxBytes := 7 } } EConnectionUpdateFlags.rxBytes]

set_option maxRecDepth 4000 in
theorem notMovedDown_top : (run .insertion .plain {} notMovedDown).list.length = 1 ∧
    ∀ i ≤ 8, let l := run .insertion .plain {} (notMovedDown.take i)
      0 < l.targetSize → ∀ x ∈ l.storage.connectionMap, (∀ item ∈ l.list, item.pConnection ≠ x) →
        ∀ item ∈ l.list, l.compareFunc x item.pConnection = false :=
  ⟨by decide, run_top .insertion .plain notMovedDown (by decide)⟩

end ConnectionList

end Conntop
