import Conntop.ListInvariant

/-!
# Sequences of operations on `ConnectionList`

`Op` are the calls that the collectors, the client and the user interface make, and `step` what
a call does.

* A `Connection` object is made of references to the data of its addresses and ports, so `add`
  needs them to be stored (`HasEnds`).
* `change` is an in-place change of a stored connection's data followed by `update` on it.
* `resolveAddress` and `resolvePort` are the resolver's callbacks.
* `rehash` is no call: it lets the iteration order of the connections change in any way
  between calls.

Main results: `step_inv` and `run_inv`, the invariant holds after every sequence of operations, and
`run_sorted`, what it says of the order.
-/

namespace Conntop

open SortedList

namespace ConnectionList

inductive Op
  | getAddress (a : Address) (add : Bool)
  | getPort (p : Port) (add : Bool)
  | add (c : Connection) (d : ConnectionData)
  | change (c : Connection) (d : ConnectionData) (updateFlags : Flags)
  | remove (c : Connection)
  | clear
  | resolveAddress (a : Address) (resolved : ResolvedAddress)
  | resolvePort (p : Port) (resolved : ResolvedPort)
  | addressDataUpdated (a : Address)
  | portDataUpdated (p : Port)
  | getNextUpdate
  | invalidateAllVisible
  | invalidateCursor
  | moveCursor (amount : ℤ)
  | doScroll (amount : ℤ)
  | initConnectionDetail
  | resetConnectionDetailRefresh
  | setTargetSize (size : ℕ)
  | setSortMode (mode : EConnectionSortMode) (isAscending : Bool)
  | rehash (m : AList fun _ : Connection => ConnectionData)

/-- An in-place change of the data of a connection, then `update`. -/
def change (l : ConnectionList) (S : StdSort) (c : Connection) (d : ConnectionData)
    (updateFlags : Flags) : ConnectionList :=
  { l with storage := l.storage.setConnectionData c d }.update S c updateFlags

/-- Another iteration order of the same connections. -/
def rehash (l : ConnectionList) (m : AList fun _ : Connection => ConnectionData) :
    ConnectionList :=
  if m.entries.Perm l.storage.connectionMap.entries then
    { l with storage := { l.storage with connectionMap := m } }
  else l

/-- A call whose arguments cannot exist does nothing. -/
def step (S : StdSort) (inet : InetText) (l : ConnectionList) : Op → ConnectionList
  | .getAddress a add => (l.getAddress inet a add).1
  | .getPort p add => (l.getPort p add).1
  | .add c d => if l.storage.HasEnds c then l.add c d else l
  | .change c d flags => if c ∈ l.storage.connectionMap then l.change S c d flags else l
  | .remove c => l.remove c
  | .clear => l.clear
  | .resolveAddress a resolved => l.resolverCallbackAddress S a resolved
  | .resolvePort p resolved => l.resolverCallbackPort S p resolved
  | .addressDataUpdated a => l.addressDataUpdated S a
  | .portDataUpdated p => l.portDataUpdated S p
  | .getNextUpdate => l.getNextUpdate.1
  | .invalidateAllVisible => l.invalidateAllVisible
  | .invalidateCursor => l.invalidateCursor
  | .moveCursor amount => l.moveCursor amount
  | .doScroll amount => l.doScroll amount
  | .initConnectionDetail => l.initConnectionDetail
  | .resetConnectionDetailRefresh => l.resetConnectionDetailRefresh
  | .setTargetSize size => l.setTargetSize size
  | .setSortMode mode isAscending => l.setSortMode mode isAscending
  | .rehash m => l.rehash m

def run (S : StdSort) (inet : InetText) (l : ConnectionList) (ops : List Op) : ConnectionList :=
  ops.foldl (step S inet) l

variable {l l' : ConnectionList} {ks : List Connection} {S : StdSort} {c : Connection}

/-! ## Operations that leave the list alone -/

/-- `l'` has the list, the connections and their data of `l`. -/
structure SameList (l l' : ConnectionList) : Prop where
  list : l'.list = l.list
  targetSize : l'.targetSize = l.targetSize
  scrollOffset : l'.scrollOffset = l.scrollOffset
  cursorPos : l'.cursorPos = l.cursorPos
  connectionDetail : l'.connectionDetail = l.connectionDetail
  sortMode : l'.sortMode = l.sortMode
  isSortAscending : l'.isSortAscending = l.isSortAscending
  isRefreshRequired : l'.isRefreshRequired = l.isRefreshRequired
  stored : l'.stored.Perm l.stored
  agree : ∀ c ∈ l.stored, AgreeOn l'.storage l.storage c
  ends : ∀ c ∈ l.stored, l.storage.HasEnds c → l'.storage.HasEnds c

namespace SameList

variable (h : SameList l l')
include h

theorem keys : l'.keys = l.keys := by unfold ConnectionList.keys; rw [h.list]
theorem cap : l'.cap = l.cap := by unfold ConnectionList.cap; rw [h.targetSize, h.scrollOffset]

theorem compareFunc {a b : Connection} (ha : a ∈ l.stored) (hb : b ∈ l.stored) :
    l'.compareFunc a b = l.compareFunc a b := by
  unfold ConnectionList.compareFunc
  rw [h.sortMode, h.isSortAscending]
  exact compareFunc_congr _ _ (h.agree a ha) (h.agree b hb)

theorem inv (hi : Inv l) : Inv l' where
  ranked := by
    rw [h.keys, h.cap]
    exact (hi.ranked.congr fun a ha b hb => h.compareFunc (hi.ranked.subset a ha)
      (hi.ranked.subset b hb)).mono fun x hx => h.stored.symm.subset hx
  full ht := by
    rw [h.keys, h.cap, h.stored.length_eq]
    exact hi.full (h.targetSize ▸ ht)
  detail c hc := h.stored.symm.subset (hi.detail c (h.connectionDetail ▸ hc))
  cursor := by rw [h.keys, h.scrollOffset, h.cursorPos]; exact hi.cursor
  ends c hc := h.ends c (h.stored.subset hc) (hi.ends c (h.stored.subset hc))

end SameList

/-- Data of an address or a port that no stored connection has is not compared. -/
theorem SameList.of_storage (l : ConnectionList) (st : ConnectionStorage)
    (hm : st.connectionMap = l.storage.connectionMap)
    (ha : ∀ a, a ∈ l.storage.addressMap → a ∈ st.addressMap ∧
      st.addressData a = l.storage.addressData a)
    (hp : ∀ p, p ∈ l.storage.portMap → p ∈ st.portMap ∧ st.portData p = l.storage.portData p)
    (he : ∀ c ∈ l.stored, l.storage.HasEnds c) (n m : ℕ) (r : List ResolverRequest) :
    SameList l { l with
      storage := st, dataTotalCount := n, dataResolvedCount := m, resolverRequests := r } where
  list := rfl
  targetSize := rfl
  scrollOffset := rfl
  cursorPos := rfl
  connectionDetail := rfl
  sortMode := rfl
  isSortAscending := rfl
  isRefreshRequired := rfl
  stored := by
    show st.connectionMap.keys.Perm l.storage.connectionMap.keys
    rw [hm]
  agree c hc := by
    obtain ⟨h1, h2, h3, h4⟩ := he c hc
    exact ⟨by unfold ConnectionStorage.connectionData; rw [hm], (ha _ h1).2, (ha _ h2).2,
      (hp _ h3).2, (hp _ h4).2⟩
  ends c _ hc := ⟨(ha _ hc.1).1, (ha _ hc.2.1).1, (hp _ hc.2.2.1).1, (hp _ hc.2.2.2).1⟩

theorem getAddress_same (he : ∀ c ∈ l.stored, l.storage.HasEnds c) (inet : InetText) (a : Address)
    (add : Bool) : SameList l (l.getAddress inet a add).1 := by
  have hst := SameList.of_storage l (l.storage.addAddress inet a).1
    (ConnectionStorage.addAddress_connectionMap inet a)
    (fun b hb => ⟨(ConnectionStorage.mem_addAddress inet a b).mpr (Or.inr hb),
      ConnectionStorage.addressData_addAddress inet a hb⟩)
    (fun p hp => by
      rw [ConnectionStorage.portData, ConnectionStorage.addAddress_portMap]
      exact ⟨hp, rfl⟩) he
  unfold getAddress
  split_ifs
  · simp only
    split_ifs
    · exact hst _ _ _
    · exact hst l.dataTotalCount l.dataResolvedCount l.resolverRequests
  · exact SameList.of_storage l l.storage rfl (fun _ h => ⟨h, rfl⟩) (fun _ h => ⟨h, rfl⟩) he
      l.dataTotalCount l.dataResolvedCount l.resolverRequests

theorem getPort_same (he : ∀ c ∈ l.stored, l.storage.HasEnds c) (p : Port) (add : Bool) :
    SameList l (l.getPort p add).1 := by
  have hst := SameList.of_storage l (l.storage.addPort p).1
    (ConnectionStorage.addPort_connectionMap p)
    (fun a ha => by
      rw [ConnectionStorage.addressData, ConnectionStorage.addPort_addressMap]
      exact ⟨ha, rfl⟩)
    (fun q hq => ⟨(ConnectionStorage.mem_addPort p q).mpr (Or.inr hq),
      ConnectionStorage.portData_addPort p hq⟩) he
  unfold getPort
  split_ifs
  · simp only
    split_ifs
    · exact hst _ _ _
    · exact hst l.dataTotalCount l.dataResolvedCount l.resolverRequests
  · exact SameList.of_storage l l.storage rfl (fun _ h => ⟨h, rfl⟩) (fun _ h => ⟨h, rfl⟩) he
      l.dataTotalCount l.dataResolvedCount l.resolverRequests

theorem rehash_same (l : ConnectionList) (m : AList fun _ : Connection => ConnectionData) :
    SameList l (l.rehash m) := by
  have hrefl : SameList l l := ⟨rfl, rfl, rfl, rfl, rfl, rfl, rfl, rfl, .refl _,
    fun _ _ => ⟨rfl, rfl, rfl, rfl, rfl⟩, fun _ _ h => h⟩
  unfold rehash
  split_ifs with hm
  · refine { hrefl with stored := hm.map Sigma.fst, agree := fun c _ => ?_ }
    refine ⟨?_, rfl, rfl, rfl, rfl⟩
    show (m.lookup c).getD {} = (l.storage.connectionMap.lookup c).getD {}
    rw [AList.perm_lookup hm]
  · exact hrefl

/-! ## Adding, changing and removing connections -/

/-- The storage after `add`, and whether the connection is new. -/
theorem add_eq (l : ConnectionList) (c : Connection) (d : ConnectionData) :
    l.add c d = if c ∈ l.stored then l
      else { l with storage := (l.storage.addConnection c d).1 }.handleNewConnection c := by
  unfold add ConnectionStorage.addConnection
  by_cases h : c ∈ l.storage.connectionMap
  · rw [if_pos h, if_pos (mem_stored.mpr h)]; rfl
  · rw [if_neg h, if_neg (mem_stored.not.mpr h)]; rfl

/-- A new connection leaves the data of the others. -/
theorem agreeOn_addConnection {d : ConnectionData} {x : Connection} (hx : x ∈ l.stored) :
    AgreeOn (l.storage.addConnection c d).1 l.storage x := by
  refine ⟨ConnectionStorage.connectionData_addConnection c d hx, ?_, ?_, ?_, ?_⟩ <;>
    · unfold ConnectionStorage.addConnection
      split_ifs <;> rfl

theorem compareFunc_addConnection (l : ConnectionList) (d : ConnectionData) {a b : Connection}
    (ha : a ∈ l.stored) (hb : b ∈ l.stored) :
    { l with storage := (l.storage.addConnection c d).1 }.compareFunc a b = l.compareFunc a b :=
  compareFunc_congr _ _ (agreeOn_addConnection ha) (agreeOn_addConnection hb)

theorem stored_addConnection (l : ConnectionList) (d : ConnectionData) (h : c ∉ l.stored) :
    { l with storage := (l.storage.addConnection c d).1 }.stored = c :: l.stored := by
  have hmap : (l.storage.addConnection c d).1.connectionMap =
      l.storage.connectionMap.insert c d := by
    unfold ConnectionStorage.addConnection
    rw [if_neg (mem_stored.not.mp h)]
  show (l.storage.addConnection c d).1.connectionMap.keys = _
  rw [hmap, AList.keys_insert]
  exact congrArg _ (List.erase_of_not_mem h)

/-- The connections of the list after a new connection was added to the storage. -/
def added (lt : Connection → Connection → Bool) (cap targetSize : ℕ) (c : Connection)
    (ks : List Connection) : List Connection :=
  if before lt c ks then insertBounded lt cap c ks
  else if 0 < targetSize ∧ ks.length < cap then ks ++ [c] else ks

theorem add_relist (l : ConnectionList) (d : ConnectionData) (h : c ∉ l.stored) :
    Relist { l with storage := (l.storage.addConnection c d).1 }
      (added { l with storage := (l.storage.addConnection c d).1 }.compareFunc l.cap l.targetSize c
        l.keys) (l.add c d) := by
  rw [add_eq, if_neg h, added, length_keys]
  exact handleNewConnection_relist _ c

theorem added_spec {lt : Connection → Connection → Bool} [WeakOrder lt] {cap targetSize : ℕ}
    {U ks : List Connection} (hr : Ranked lt cap U ks) (hc : c ∉ U)
    (hf : 0 < targetSize → ks.length = min cap U.length) :
    Ranked lt cap (c :: U) (added lt cap targetSize c ks) ∧
      (0 < targetSize → (added lt cap targetSize c ks).length = min cap (c :: U).length) ∧
      ks.length ≤ (added lt cap targetSize c ks).length := by
  have hr' : Ranked lt cap (c :: U) ks := hr.mono fun x hx => List.mem_cons_of_mem c hx
  have hck : c ∉ ks := fun h => hc (hr.subset c h)
  have hle := hr.length_le
  have hcard := hr.length_le_card
  unfold added
  split_ifs with hb hlt
  · refine ⟨hr'.insertBounded (by simp) hck, fun ht => ?_, ?_⟩
    · rw [hr'.length_insertBounded, List.length_cons, hf ht]
      omega
    · rw [hr'.length_insertBounded]
      omega
  · refine ⟨hr'.append_singleton (by simp) hck (hr.sorted.not_before (by simpa using hb)) hlt.2,
      fun ht => ?_, by simp⟩
    have := hf ht
    rw [List.length_append, List.length_singleton, List.length_cons]
    omega
  · refine ⟨hr', fun ht => ?_, le_rfl⟩
    have := hf ht
    rw [List.length_cons]
    omega

theorem Inv.add (hi : Inv l) (hc : l.storage.HasEnds c) (d : ConnectionData) :
    Inv (l.add c d) := by
  by_cases h : c ∈ l.stored
  · rwa [add_eq, if_pos h]
  · have hr : Ranked { l with storage := (l.storage.addConnection c d).1 }.compareFunc l.cap
        l.stored l.keys := hi.ranked.congr fun a ha b hb =>
      compareFunc_addConnection l d (hi.ranked.subset a ha) (hi.ranked.subset b hb)
    obtain ⟨h1, h2, h3⟩ := added_spec hr h hi.full
    have hst := stored_addConnection l d h
    refine (add_relist l d h).inv (hst ▸ h1) (hst ▸ h2) (fun x hx => ?_) ?_ fun x hx => ?_
    · exact hst ▸ List.mem_cons_of_mem c (hi.detail x hx)
    · exact hi.cursor.trans (Nat.sub_le_sub_right (Nat.sub_le_sub_right h3 _) _)
    · have hends : (l.storage.addConnection c d).1.HasEnds x ↔ l.storage.HasEnds x := by
        unfold ConnectionStorage.addConnection
        split_ifs <;> rfl
      rw [hst] at hx
      rcases List.mem_cons.mp hx with rfl | hx
      · exact hends.mpr hc
      · exact hends.mpr (hi.ends x hx)

/-- `fill` leaves a full list as it is. -/
theorem fill_relist_of_full
    (hf : 0 < l.targetSize → l.keys.length = min l.cap l.stored.length) :
    Relist l l.keys l.fill := by
  have h := fill_relist l
  rwa [filled_eq hf] at h

/-- The list is sorted again once the element out of order was compared with its neighbours. -/
theorem updateListed_relist (S : StdSort) (i : ℕ) (item : Item)
    (hi : l.keys[i]? = some item.pConnection)
    (hs : Sorted l.compareFunc (l.keys.eraseIdx i))
    (hf : 0 < l.targetSize → l.keys.length = min l.cap l.stored.length) :
    ∃ ks, ks.Perm l.keys ∧ Sorted l.compareFunc ks ∧ Relist l ks (l.updateListed S i item) := by
  have hany : ∀ j (f : Connection → Bool), (l.list[j]?).any (fun x : Item => f x.pConnection) =
      (l.keys[j]?).any f := fun j f => by
    rw [keys, List.getElem?_map]
    cases l.list[j]? <;> rfl
  obtain ⟨hlt, hget⟩ := List.getElem?_eq_some_iff.mp hi
  have hsplit : l.keys = l.keys.take i ++ item.pConnection :: l.keys.drop (i + 1) := by
    rw [← hget, List.getElem_cons_drop, List.take_append_drop]
  -- the list is sorted again only where the item is out of place between its neighbours
  have hstage : ∃ ks, ks.Perm l.keys ∧ Sorted l.compareFunc ks ∧
      Relist l ks (if (0 < i && (l.list[i - 1]?).any (l.compareItem item) ||
        (l.list[i + 1]?).any (l.compareItem · item)) then l.sort S else l) := by
    split_ifs with hc
    · exact sort_relist S l
    · -- its neighbours are in order with it, and the rest was sorted before
      refine ⟨l.keys, .refl _, ?_, .refl l⟩
      simp only [Bool.or_eq_true, Bool.and_eq_true, decide_eq_true_eq, not_or, not_and,
        Bool.not_eq_true] at hc
      rw [hsplit]
      refine Sorted.insert_middle ?_ (fun b hb => ?_) fun b hb => ?_
      · rwa [← List.eraseIdx_eq_take_drop_succ]
      · rw [List.getLast?_take] at hb
        split_ifs at hb with h0
        have h1 := hc.1 (Nat.pos_of_ne_zero h0)
        rw [show l.compareItem item = fun x => l.compareFunc item.pConnection x.pConnection from rfl,
          hany _ (l.compareFunc item.pConnection)] at h1
        have hlen : i - 1 < l.keys.length := by omega
        rw [List.getElem?_eq_getElem hlen] at h1 hb
        simpa using (Option.some.inj hb) ▸ h1
      · have h2 := hc.2
        rw [show (fun x => l.compareItem x item) =
          fun x : Item => l.compareFunc x.pConnection item.pConnection from rfl,
          hany _ (l.compareFunc · item.pConnection)] at h2
        rw [List.head?_drop] at hb
        rw [hb] at h2
        exact h2
  obtain ⟨ks, hperm, hsorted, hr⟩ := hstage
  refine ⟨ks, hperm, hsorted, ?_⟩
  unfold updateListed
  simp only
  generalize (if (0 < i && (l.list[i - 1]?).any (l.compareItem item) ||
    (l.list[i + 1]?).any (l.compareItem · item)) then l.sort S else l) = l₂ at hr ⊢
  -- `fill` finds a full list and does nothing
  have hfill : Relist l ks l₂.fill := by
    have h := hr.trans (fill_relist_of_full (l := l₂) (by
      rwa [hr.keys, hr.cap, hr.stored, hr.targetSize, hperm.length_eq]))
    rwa [hr.keys] at h
  by_cases hlast : i + 1 < l.list.length
  · rw [if_pos hlast]
    split_ifs
    · exact hfill
    · exact hr
  · rw [if_neg hlast]
    split_ifs
    · exact hfill
    · exact hr

theorem setDetailFlags_relist (l : ConnectionList) (c : Connection) (flags : Flags) :
    Relist l l.keys (l.setDetailFlags c flags) := by
  unfold setDetailFlags
  split_ifs
  · exact ⟨rfl, rfl⟩
  · exact .refl l

theorem markItem_relist (l : ConnectionList) (i : ℕ) (flags : Flags) :
    Relist l l.keys (l.markItem i flags) := by
  unfold markItem
  split_ifs
  · exact .of_map (map_modify i (Item.mark flags) (fun _ => rfl) _)
  · exact .refl l

theorem findIdx_eq (l : ConnectionList) (c : Connection) :
    l.list.findIdx (·.pConnection == c) = l.keys.idxOf c := by
  unfold keys List.idxOf
  rw [List.findIdx_map]
  rfl

/-- `update` on a listed connection puts it in its place, wherever it was. -/
theorem update_listed (hc : c ∈ l.keys) (hs : Sorted l.compareFunc (l.keys.erase c))
    (hf : 0 < l.targetSize → l.keys.length = min l.cap l.stored.length) (flags : Flags) :
    ∃ ks, ks.Perm l.keys ∧ Sorted l.compareFunc ks ∧ Relist l ks (l.update S c flags) := by
  unfold update
  simp only
  have h₀ := setDetailFlags_relist l c flags
  generalize l.setDetailFlags c flags = l₀ at h₀ ⊢
  have hne : l₀.list.isEmpty = false := by
    rw [List.isEmpty_eq_false_iff]
    rintro hnil
    rw [← h₀.keys, keys, hnil] at hc
    simp at hc
  have hidx := List.idxOf_lt_length_of_mem hc
  rw [hne, if_neg Bool.false_ne_true, findIdx_eq, h₀.keys, ← length_keys, h₀.keys, if_pos hidx]
  have h₁ := h₀.trans (h₀.keys ▸ markItem_relist l₀ (l.keys.idxOf c) flags)
  generalize l₀.markItem (l.keys.idxOf c) flags = l₁ at h₁ ⊢
  obtain ⟨ks, hperm, hsorted, h₂⟩ := updateListed_relist (l := l₁) S
    (l.keys.idxOf c) { pConnection := c }
    (by rw [h₁.keys, List.getElem?_eq_getElem hidx, List.getElem_idxOf])
    (by rwa [h₁.keys, h₁.compareFunc, List.eraseIdx_idxOf_eq_erase])
    (by rwa [h₁.keys, h₁.cap, h₁.stored, h₁.targetSize])
  exact ⟨ks, h₁.keys ▸ hperm, h₁.compareFunc ▸ hsorted, h₁.trans h₂⟩

/-- `update` on any other connection offers it to the list. -/
theorem update_unlisted (hc : c ∉ l.keys) (flags : Flags) :
    Relist l (offerBetter l.compareFunc l.cap l.keys c) (l.update S c flags) := by
  unfold update
  simp only
  have h₀ := setDetailFlags_relist l c flags
  generalize l.setDetailFlags c flags = l₀ at h₀ ⊢
  have hidx : ¬ l.keys.idxOf c < l.keys.length := by rwa [List.idxOf_lt_length_iff]
  rw [findIdx_eq, h₀.keys, ← length_keys, h₀.keys, if_neg hidx]
  refine h₀.trans ?_
  rw [← h₀.compareFunc, ← h₀.cap, ← h₀.keys]
  unfold offerBetter
  rw [h₀.keys, if_neg hc, ← h₀.keys, compareBack_eq]
  split_ifs with hb hnil
  · rw [keys, List.isEmpty_iff.mp hnil] at hb
    simp [before] at hb
  · exact insertItem_relist l₀ { pConnection := c }
  · exact .refl l₀
  · exact .refl l₀

/-- In-place changes leave the comparison of other connections alone. -/
theorem compareFunc_setConnectionData (l : ConnectionList) (d : ConnectionData) {a b : Connection}
    (ha : a ≠ c) (hb : b ≠ c) :
    { l with storage := l.storage.setConnectionData c d }.compareFunc a b = l.compareFunc a b := by
  have hagree : ∀ x, x ≠ c → AgreeOn (l.storage.setConnectionData c d) l.storage x := by
    intro x hx
    refine ⟨?_, rfl, rfl, rfl, rfl⟩
    rw [ConnectionStorage.connectionData_setConnectionData, if_neg fun h => hx h.1]
  exact compareFunc_congr _ _ (hagree a ha) (hagree b hb)

theorem stored_setConnectionData (l : ConnectionList) (c : Connection) (d : ConnectionData) :
    { l with storage := l.storage.setConnectionData c d }.stored = l.stored :=
  ConnectionStorage.keys_setConnectionData c d

/-- Without the changed connection the list is still sorted. -/
theorem sorted_erase (hi : Inv l) (c : Connection) (d : ConnectionData) :
    Sorted { l with storage := l.storage.setConnectionData c d }.compareFunc (l.keys.erase c) := by
  refine (hi.ranked.sorted.sublist List.erase_sublist).congr fun a ha b hb => ?_
  exact compareFunc_setConnectionData l d (hi.ranked.nodup.mem_erase_iff.mp ha).1
    (hi.ranked.nodup.mem_erase_iff.mp hb).1

theorem Inv.change (hi : Inv l) (hc : c ∈ l.stored) (d : ConnectionData) (flags : Flags) :
    Inv (l.change S c d flags) := by
  have hst := stored_setConnectionData l c d
  have hends : ∀ x ∈ l.stored, (l.storage.setConnectionData c d).HasEnds x := hi.ends
  unfold ConnectionList.change
  by_cases hck : c ∈ l.keys
  · obtain ⟨ks, hperm, hsorted, hr⟩ := update_listed (S := S)
      (l := { l with storage := l.storage.setConnectionData c d }) hck (sorted_erase hi c d)
      (hst ▸ hi.full) flags
    exact hr.inv (hst ▸ hi.ranked.perm hperm hsorted) (hst ▸ hperm.length_eq ▸ hi.full)
      (hst ▸ hi.detail) (hperm.length_eq ▸ hi.cursor) (hst ▸ hends)
  · have hs : Sorted { l with storage := l.storage.setConnectionData c d }.compareFunc l.keys := by
      have := sorted_erase hi c d
      rwa [List.erase_of_not_mem hck] at this
    have hrank := hi.ranked.perm (.refl _) hs
    have hr := update_unlisted (S := S)
      (l := { l with storage := l.storage.setConnectionData c d }) hck flags
    obtain ⟨h1, -, h3, -⟩ := offerBetter_spec [c] (V := []) hrank (by simp [SortedList.Top])
      (by simpa using hc)
    refine hr.inv (hst ▸ h1) (fun ht => ?_) (hst ▸ hi.detail) ?_ (hst ▸ hends)
    · have hfull := hi.full ht
      have hle := h1.length_le
      have hcard := h1.length_le_card
      rw [hst]
      simp only [List.foldl_cons, List.foldl_nil] at h3 hle hcard
      exact le_antisymm (le_min hle hcard) (hfull ▸ h3)
    · exact hi.cursor.trans (Nat.sub_le_sub_right (Nat.sub_le_sub_right h3 _) _)

/-- The storage after `remove`. -/
theorem remove_eq (l : ConnectionList) (c : Connection) : l.remove c = if c ∈ l.stored then
    { l with storage := (l.storage.removeConnection c).1 }.handleRemovedConnection c else l := by
  unfold remove ConnectionStorage.removeConnection
  by_cases h : c ∈ l.storage.connectionMap
  · rw [if_pos h, if_pos (mem_stored.mpr h)]; rfl
  · rw [if_neg h, if_neg (mem_stored.not.mpr h)]; rfl

theorem stored_removeConnection (l : ConnectionList) (c : Connection) :
    { l with storage := (l.storage.removeConnection c).1 }.stored = l.stored.erase c := by
  unfold stored ConnectionStorage.removeConnection
  split_ifs with h
  · exact AList.keys_erase c l.storage.connectionMap
  · exact (List.erase_of_not_mem h).symm

theorem agreeOn_removeConnection {x : Connection} (hx : x ≠ c) :
    AgreeOn (l.storage.removeConnection c).1 l.storage x := by
  refine ⟨ConnectionStorage.connectionData_removeConnection hx, ?_, ?_, ?_, ?_⟩ <;>
    · unfold ConnectionStorage.removeConnection
      split_ifs <;> rfl

theorem compareFunc_removeConnection (l : ConnectionList) {a b : Connection} (ha : a ≠ c)
    (hb : b ≠ c) :
    { l with storage := (l.storage.removeConnection c).1 }.compareFunc a b = l.compareFunc a b :=
  compareFunc_congr _ _ (agreeOn_removeConnection ha) (agreeOn_removeConnection hb)

theorem eraseItem_relist (l : ConnectionList) (c : Connection) :
    Relist l (l.keys.erase c) (l.eraseItem c) := by
  refine ⟨?_, rfl⟩
  rw [keys, eraseItem, map_invalidateFrom, findIdx_eq, ← List.eraseIdx_idxOf_eq_erase]
  exact (List.eraseIdx_map _ _ _).symm

/-- The detail dialog shows what it showed, or nothing instead of the removed connection. -/
theorem removeDetail_eq (l : ConnectionList) (c : Connection) :
    ∃ d flags, l.removeDetail c =
        { l with connectionDetail := d, connectionDetailUpdateFlags := flags } ∧
      ∀ x, d = some x → x ≠ c ∧ l.connectionDetail = some x := by
  unfold removeDetail
  split_ifs with h
  · exact ⟨_, _, rfl, by simp⟩
  · exact ⟨_, _, rfl, fun x hx => ⟨fun hxc => h (hxc ▸ hx), hx⟩⟩

/-- After the removal the list is filled, and the cursor is on a visible row. -/
theorem handleRemoved_relist (l : ConnectionList) (c : Connection) :
    ∃ l₁ pos, Relist (l.removeDetail c) (l.keys.erase c) l₁ ∧
      pos ≤ l₁.filled.length - l.scrollOffset - 1 ∧
      Relist { l₁ with cursorPos := pos } l₁.filled (l.handleRemovedConnection c) := by
  have hkeys : (l.removeDetail c).keys = l.keys ∧
      (l.removeDetail c).scrollOffset = l.scrollOffset := by
    obtain ⟨d, flags, h, -⟩ := removeDetail_eq l c
    rw [h]
    exact ⟨rfl, rfl⟩
  have h₁ := eraseItem_relist (l.removeDetail c) c
  have h₂ := fill_relist ((l.removeDetail c).eraseItem c)
  obtain ⟨pos, hpos, h₃⟩ := clampCursor_relist ((l.removeDetail c).eraseItem c).fill
  refine ⟨_, pos, hkeys.1 ▸ h₁, ?_, ?_⟩
  · rwa [getCursorMaxPos_eq, getSize_eq, ← length_keys, h₂.keys, h₂.scrollOffset,
      h₁.scrollOffset, hkeys.2] at hpos
  · refine ⟨h₃.keys.trans h₂.keys, ?_⟩
    unfold handleRemovedConnection
    rw [← h₃.eq, ← h₂.eq]

/-- A ranked list without a removed connection. -/
theorem ranked_erase (hi : Inv l) (c : Connection) :
    Ranked { l with storage := (l.storage.removeConnection c).1 }.compareFunc l.cap
      (l.stored.erase c) (l.keys.erase c) where
  nodup := hi.ranked.nodup.erase c
  subset x hx := by
    rw [hi.ranked.nodup.mem_erase_iff] at hx
    exact l.stored_nodup.mem_erase_iff.mpr ⟨hx.1, hi.ranked.subset x hx.2⟩
  sorted := (hi.ranked.sorted.sublist List.erase_sublist).congr fun a ha b hb =>
    compareFunc_removeConnection l (hi.ranked.nodup.mem_erase_iff.mp ha).1
      (hi.ranked.nodup.mem_erase_iff.mp hb).1
  length_le := (List.erase_sublist.length_le).trans hi.ranked.length_le

theorem Inv.remove (hi : Inv l) (c : Connection) : Inv (l.remove c) := by
  rw [remove_eq]
  split_ifs with hc
  · obtain ⟨l₁, pos, h₁, hpos, h₂⟩ := handleRemoved_relist
      { l with storage := (l.storage.removeConnection c).1 } c
    obtain ⟨d, flags, hd, hdetail⟩ := removeDetail_eq
      { l with storage := (l.storage.removeConnection c).1 } c
    rw [hd] at h₁
    have hst : l₁.stored = l.stored.erase c := h₁.stored.trans (stored_removeConnection l c)
    have hrank : Ranked l₁.compareFunc l₁.cap l₁.stored l₁.keys := by
      rw [hst, h₁.compareFunc, h₁.cap, h₁.keys]
      exact ranked_erase hi c
    obtain ⟨h3, h4, -⟩ := filled_spec hrank
    refine h₂.inv h3 h4 (fun x hx => ?_) ?_ fun x hx => ?_
    · have hx' := hdetail x (h₁.connectionDetail.symm.trans hx)
      show x ∈ l₁.stored
      rw [hst]
      exact l.stored_nodup.mem_erase_iff.mpr ⟨hx'.1, hi.detail x hx'.2⟩
    · show pos ≤ l₁.filled.length - l₁.scrollOffset - 1
      rwa [h₁.scrollOffset]
    · show l₁.storage.HasEnds x
      have hx' : x ∈ l₁.stored := hx
      rw [hst] at hx'
      have hends := hi.ends x (List.mem_of_mem_erase hx')
      rw [h₁.storage]
      unfold ConnectionStorage.removeConnection
      split_ifs <;> exact hends
  · exact hi

theorem Inv.clear (l : ConnectionList) : Inv l.clear where
  ranked := .nil _
  full _ := by simp [keys, ConnectionList.clear, stored, ConnectionStorage.clearConnections]
  detail c h := by simp [ConnectionList.clear] at h
  cursor := Nat.zero_le _
  ends c h := by
    simp [ConnectionList.clear, stored, ConnectionStorage.clearConnections] at h

/-! ## Resolved addresses and ports -/

/-- The connections of the list after some of them were offered. -/
def offered (lt : Connection → Connection → Bool) (cap : ℕ) (mayAffectOrder : Bool)
    (cs ks : List Connection) : List Connection :=
  if mayAffectOrder then cs.foldl (offerBetter lt cap) ks else ks

theorem foldl_offerBetter_nil (lt : Connection → Connection → Bool) (cap : ℕ)
    (cs : List Connection) : cs.foldl (offerBetter lt cap) [] = [] := by
  induction cs with
  | nil => rfl
  | cons c cs ih => exact ih

theorem markVisible_relist (l : ConnectionList) (touches : Connection → Bool)
    (flags : Connection → Flags) : Relist l l.keys (l.markVisible touches flags) := by
  refine .of_map ?_
  have hmark : (·.pConnection) ∘ (fun item : Item =>
      if touches item.pConnection then item.mark (flags item.pConnection) else item) =
      (·.pConnection) := by
    funext item
    simp only [Function.comp]
    split_ifs <;> rfl
  rw [List.map_append, List.map_map, hmark, ← List.map_append, List.take_append_drop]
  rfl

/-- A list in which nothing was found has nothing to find. -/
theorem not_touches {touches : Connection → Bool} (hh : l.isHidden touches = false)
    (hv : l.isVisible touches = false) : ∀ c ∈ l.keys, touches c = false := by
  intro c hc
  obtain ⟨item, hitem, rfl⟩ := List.mem_map.mp hc
  rw [← List.take_append_drop l.getListBeginIt l.list, List.mem_append] at hitem
  rcases hitem with hitem | hitem
  · simpa using List.any_eq_false.mp hh item hitem
  · simpa using List.any_eq_false.mp hv item hitem

/-- The resolved data may have moved the connections that have it, so a list that has some is
sorted, and all of them are offered to it. -/
theorem dataUpdated_relist (S : StdSort) {mayAffectOrder : Bool} (touches : Connection → Bool)
    (flags : Connection → Flags)
    (hs : mayAffectOrder = false ∨ (∀ c ∈ l.keys, touches c = false) →
      Sorted l.compareFunc l.keys) :
    ∃ ks, ks.Perm l.keys ∧ Sorted l.compareFunc ks ∧
      Relist l (offered l.compareFunc l.cap mayAffectOrder (l.stored.filter touches) ks)
        (l.dataUpdated S mayAffectOrder touches flags) := by
  unfold dataUpdated offered
  by_cases hnil : l.list.isEmpty = true
  · have hkeys : l.keys = [] := by rw [keys, List.isEmpty_iff.mp hnil]; rfl
    refine ⟨l.keys, .refl _, hkeys ▸ List.Pairwise.nil, ?_⟩
    rw [if_pos hnil, hkeys, foldl_offerBetter_nil, ite_self, ← hkeys]
    exact .refl l
  · rw [if_neg hnil]
    simp only
    have h₁ := markVisible_relist l touches flags
    -- the order only changes where the list is sorted by such data
    cases mayAffectOrder with
    | false => exact ⟨l.keys, .refl _, hs (Or.inl rfl), h₁⟩
    | true =>
      have hstage : ∃ ks, ks.Perm l.keys ∧ Sorted l.compareFunc ks ∧
          Relist l ks (if (true && l.isHidden touches || l.isVisible touches) then
            (l.markVisible touches flags).sort S else l.markVisible touches flags) := by
        split_ifs with hc
        · obtain ⟨ks, hperm, hsorted, h₂⟩ := sort_relist S (l.markVisible touches flags)
          exact ⟨ks, h₁.keys ▸ hperm, h₁.compareFunc ▸ hsorted, h₁.trans h₂⟩
        · simp only [Bool.true_and, Bool.or_eq_true, not_or, Bool.not_eq_true] at hc
          exact ⟨l.keys, .refl _, hs (Or.inr (not_touches hc.1 hc.2)), h₁⟩
      obtain ⟨ks, hperm, hsorted, h₂⟩ := hstage
      refine ⟨ks, hperm, hsorted, ?_⟩
      rw [if_pos rfl, if_pos rfl]
      generalize (if (true && l.isHidden touches || l.isVisible touches) then
        (l.markVisible touches flags).sort S else l.markVisible touches flags) = l₂ at h₂ ⊢
      -- then every touched connection that is not shown is offered to the list
      have hfold := foldl_relist (g := offerBetter) (fun _ => True) (fun _ _ => trivial)
        (fun l c _ => insertBetter_relist l c) (l₂.stored.filter touches) l₂ trivial
      rw [h₂.compareFunc, h₂.cap, h₂.keys, h₂.stored] at hfold
      have hkeys : l₂.storage.connectionMap.keys = l.stored := h₂.stored
      rw [hkeys]
      exact h₂.trans hfold

theorem offered_spec {lt : Connection → Connection → Bool} [WeakOrder lt] {cap targetSize : ℕ}
    {U ks : List Connection} (mayAffectOrder : Bool) (cs : List Connection) (hr : Ranked lt cap U ks)
    (hcs : ∀ c ∈ cs, c ∈ U) (hf : 0 < targetSize → ks.length = min cap U.length) :
    Ranked lt cap U (offered lt cap mayAffectOrder cs ks) ∧
      (0 < targetSize →
        (offered lt cap mayAffectOrder cs ks).length = min cap U.length) ∧
      ks.length ≤ (offered lt cap mayAffectOrder cs ks).length := by
  unfold offered
  split_ifs
  · obtain ⟨h1, -, h3, -⟩ := offerBetter_spec cs (V := []) hr (by simp [SortedList.Top]) hcs
    refine ⟨h1, fun ht => ?_, h3⟩
    have hle := h1.length_le
    have hcard := h1.length_le_card
    have := hf ht
    omega
  · exact ⟨hr, hf, le_rfl⟩

/-- The invariant after resolved data was shown, when before that only the order of the
connections that have it was lost. -/
theorem Inv.dataUpdated {mayAffectOrder : Bool} {touches : Connection → Bool}
    {flags : Connection → Flags} {lt : Connection → Connection → Bool}
    (hr : Ranked lt l.cap l.stored l.keys)
    (hf : 0 < l.targetSize → l.keys.length = min l.cap l.stored.length)
    (hd : ∀ c, l.connectionDetail = some c → c ∈ l.stored)
    (hc : l.cursorPos ≤ l.keys.length - l.scrollOffset - 1)
    (he : ∀ c ∈ l.stored, l.storage.HasEnds c)
    (hs : mayAffectOrder = false ∨ (∀ c ∈ l.keys, touches c = false) →
      Sorted l.compareFunc l.keys) : Inv (l.dataUpdated S mayAffectOrder touches flags) := by
  obtain ⟨ks, hperm, hsorted, h⟩ := dataUpdated_relist S touches flags hs
  obtain ⟨h1, h2, h3⟩ := offered_spec mayAffectOrder (l.stored.filter touches)
    (hr.perm hperm hsorted)
    (fun c hc => (List.mem_filter.mp hc).1) (hperm.length_eq ▸ hf)
  rw [hperm.length_eq] at h3
  exact h.inv h1 h2 hd (hc.trans (Nat.sub_le_sub_right (Nat.sub_le_sub_right h3 _) _)) he

theorem markDetail_eq (l : ConnectionList) (flags : Connection → Flags) :
    ∃ f, l.markDetail flags = { l with connectionDetailUpdateFlags := f } := by
  unfold markDetail
  split
  · exact ⟨_, rfl⟩
  · exact ⟨_, rfl⟩

/-- Calls made without any change keep the invariant as well. -/
theorem Inv.dataUpdated_of_sorted (hi : Inv l) {mayAffectOrder : Bool}
    {touches : Connection → Bool} {flags : Connection → Flags} :
    Inv ((l.markDetail flags).dataUpdated S mayAffectOrder touches flags) := by
  obtain ⟨f, hf⟩ := markDetail_eq l flags
  rw [hf]
  exact Inv.dataUpdated hi.ranked hi.full hi.detail hi.cursor hi.ends fun _ => hi.ranked.sorted

/-- The data that the resolver's callback stores for an address. -/
theorem compareFunc_resolveAddress (l : ConnectionList) (a : Address) (d : AddressData)
    {x y : Connection} (hx : x.hasAddr a = false) (hy : y.hasAddr a = false) :
    { l with storage := l.storage.setAddressData a d }.compareFunc x y = l.compareFunc x y := by
  have hagree : ∀ c : Connection, c.hasAddr a = false →
      AgreeOn (l.storage.setAddressData a d) l.storage c := by
    intro c hc
    simp only [Connection.hasAddr, Bool.or_eq_false_iff, beq_eq_false_iff_ne] at hc
    exact ⟨rfl, ConnectionStorage.addressData_setAddressData_ne d hc.1,
      ConnectionStorage.addressData_setAddressData_ne d hc.2, rfl, rfl⟩
  exact compareFunc_congr _ _ (hagree x hx) (hagree y hy)

theorem compareFunc_resolvePort (l : ConnectionList) (p : Port) (d : PortData)
    {x y : Connection} (hx : (x.hasPorts && x.hasPort p) = false)
    (hy : (y.hasPorts && y.hasPort p) = false) :
    { l with storage := l.storage.setPortData p d }.compareFunc x y = l.compareFunc x y := by
  have hagree : ∀ c : Connection, (c.hasPorts && c.hasPort p) = false →
      AgreeOn (l.storage.setPortData p d) l.storage c := by
    intro c hc
    simp only [Connection.hasPorts_eq, Bool.true_and, Connection.hasPort, Bool.or_eq_false_iff,
      beq_eq_false_iff_ne] at hc
    exact ⟨rfl, rfl, rfl, ConnectionStorage.portData_setPortData_ne d hc.1,
      ConnectionStorage.portData_setPortData_ne d hc.2⟩
  exact compareFunc_congr _ _ (hagree x hx) (hagree y hy)

/-- The comparison after an address was resolved, where it is the one from before. -/
theorem compareFunc_setResolvedAddress (l : ConnectionList) (a : Address)
    (resolved : ResolvedAddress) {x y : Connection}
    (h : addressMayAffectOrder l.sortMode = false ∨ x.hasAddr a = false ∧ y.hasAddr a = false) :
    { l with storage := l.setResolvedAddress a resolved }.compareFunc x y = l.compareFunc x y := by
  rcases h with h | ⟨hx, hy⟩
  · exact congrFun (congrFun (compareFunc_setAddressData l.isSortAscending h a
      ((l.storage.addressData a).setResolved resolved) rfl) x) y
  · exact compareFunc_resolveAddress l a _ hx hy

theorem compareFunc_setResolvedPort (l : ConnectionList) (p : Port) (resolved : ResolvedPort)
    {x y : Connection} (h : portMayAffectOrder l.sortMode = false ∨
      (x.hasPorts && x.hasPort p) = false ∧ (y.hasPorts && y.hasPort p) = false) :
    { l with storage := l.setResolvedPort p resolved }.compareFunc x y = l.compareFunc x y := by
  rcases h with h | ⟨hx, hy⟩
  · exact congrFun (congrFun (compareFunc_setPortData l.isSortAscending h p _) x) y
  · exact compareFunc_resolvePort l p _ hx hy

theorem Inv.resolverCallbackAddress (hi : Inv l) (a : Address) (resolved : ResolvedAddress) :
    Inv (l.resolverCallbackAddress S a resolved) := by
  unfold ConnectionList.resolverCallbackAddress ConnectionList.addressDataUpdated
  obtain ⟨f, hf⟩ := markDetail_eq { l with
    storage := l.setResolvedAddress a resolved
    dataResolvedCount := l.dataResolvedCount + 1 } (addressFlags a)
  rw [hf]
  refine Inv.dataUpdated hi.ranked hi.full hi.detail hi.cursor (fun c hc => ?_) fun h => ?_
  · obtain ⟨h1, h2, h3, h4⟩ := hi.ends c hc
    exact ⟨(ConnectionStorage.mem_setAddressData _ _ _).mpr h1,
      (ConnectionStorage.mem_setAddressData _ _ _).mpr h2, h3, h4⟩
  · exact hi.ranked.sorted.congr fun x hx y hy =>
      compareFunc_setResolvedAddress l a resolved (h.imp_right fun hu => ⟨hu x hx, hu y hy⟩)

theorem Inv.resolverCallbackPort (hi : Inv l) (p : Port) (resolved : ResolvedPort) :
    Inv (l.resolverCallbackPort S p resolved) := by
  unfold ConnectionList.resolverCallbackPort ConnectionList.portDataUpdated
  obtain ⟨f, hf⟩ := markDetail_eq { l with
    storage := l.setResolvedPort p resolved
    dataResolvedCount := l.dataResolvedCount + 1 } (portFlags p)
  rw [hf]
  refine Inv.dataUpdated hi.ranked hi.full hi.detail hi.cursor (fun c hc => ?_) fun h => ?_
  · obtain ⟨h1, h2, h3, h4⟩ := hi.ends c hc
    exact ⟨h1, h2, (ConnectionStorage.mem_setPortData _ _ _).mpr h3,
      (ConnectionStorage.mem_setPortData _ _ _).mpr h4⟩
  · exact hi.ranked.sorted.congr fun x hx y hy =>
      compareFunc_setResolvedPort l p resolved (h.imp_right fun hu => ⟨hu x hx, hu y hy⟩)

/-! ## The user interface -/

theorem getNextUpdate_relist (l : ConnectionList) : Relist l l.keys l.getNextUpdate.1 := by
  unfold getNextUpdate
  split_ifs
  · simp only
    split
    · split
      · exact .of_map (map_modify _ clearItem (fun _ => rfl) _)
      · exact .refl l
    · exact .of_map rfl
  · exact .refl l

theorem setCursorPos_relist (l : ConnectionList) (pos : ℕ) :
    Relist { l with cursorPos := pos } l.keys (l.setCursorPos pos) := by
  have h₁ := invalidateCursor_relist l
  have h₂ := invalidateCursor_relist { l.invalidateCursor with cursorPos := pos }
  unfold setCursorPos
  refine ⟨h₂.keys.trans h₁.keys, ?_⟩
  rw [← h₂.eq, ← h₁.eq]

theorem take_relist (l : ConnectionList) (n : ℕ) (r : Bool) :
    Relist l (l.keys.take n) { l with list := l.list.take n, isRefreshRequired := r } :=
  .of_map List.map_take

theorem Relist.filled_eq (h : Relist l l.keys l') : l'.filled = l.filled := by
  have hlen : l'.list.length = l.list.length := by rw [← length_keys, h.keys, length_keys]
  unfold filled
  rw [h.keys, h.targetSize, h.cap, h.stored, h.compareFunc, hlen]

/-- Popping the elements that are over the window leaves its capacity. -/
theorem take_popped (l : ConnectionList) :
    l.list.take (l.list.length - (l.getSize - l.targetSize)) = l.list.take l.cap := by
  rw [getSize_eq, cap]
  by_cases h : l.list.length ≤ l.scrollOffset + l.targetSize
  · rw [List.take_of_length_le h, List.take_of_length_le (by omega)]
  · congr 1
    omega

/-- Scrolling moves the offset up and cuts the list, or moves it down and fills the list, but
not further than there are connections. -/
theorem doScroll_cases (l : ConnectionList) (amount : ℤ) :
    l.doScroll amount = l ∨
      (∃ s, s < l.scrollOffset ∧ Relist { l with scrollOffset := s }
        (l.keys.take (s + l.targetSize)) (l.doScroll amount)) ∨
      ∃ k, 0 < k ∧ k ≤ l.stored.length - l.list.length ∧
        Relist { l with scrollOffset := l.scrollOffset + k }
          { l with scrollOffset := l.scrollOffset + k }.filled (l.doScroll amount) := by
  unfold doScroll
  simp only [getConnectionCount_eq]
  split_ifs with h1 h2 h2
  · refine Or.inr (Or.inl ⟨_, Nat.sub_lt_self h2 (min_le_right _ _), ?_⟩)
    generalize l.scrollOffset - min (-amount).toNat l.scrollOffset = s
    rw [take_popped { l with scrollOffset := s }]
    have h := take_relist { l with scrollOffset := s } (s + l.targetSize) l.isRefreshRequired
    have h' := h.trans (invalidateAllVisible_relist _)
    rwa [h.keys] at h'
  · exact Or.inl rfl
  · refine Or.inr (Or.inr ⟨_, h2, min_le_right _ _, ?_⟩)
    generalize min amount.toNat (l.stored.length - l.list.length) = k
    have h := invalidateAllVisible_relist { l with scrollOffset := l.scrollOffset + k }
    have h' := h.trans (fill_relist _)
    rwa [h.filled_eq] at h'
  · exact Or.inl rfl

theorem Inv.doScroll (hi : Inv l) (amount : ℤ) : Inv (l.doScroll amount) := by
  have hle := hi.ranked.length_le
  have hcard := hi.ranked.length_le_card
  have hcursor := hi.cursor
  have hfull := hi.full
  rw [length_keys] at hle hcard hcursor hfull
  rcases doScroll_cases l amount with h | ⟨s, hs, h⟩ | ⟨k, hk0, hk, h⟩
  · rwa [h]
  · -- up: rows at the end are popped until the window is full
    have hlen : (l.keys.take (s + l.targetSize)).length =
        min (s + l.targetSize) l.list.length := by rw [List.length_take, length_keys]
    refine h.inv ?_ (fun ht => ?_) hi.detail ?_ hi.ends
    · exact { hi.ranked.sublist (List.take_sublist _ _) with
        length_le := hlen.trans_le (min_le_left _ _) }
    · have := hfull ht
      rw [hlen]
      show _ = min (s + l.targetSize) l.stored.length
      unfold cap at *
      omega
    · rw [hlen]
      show l.cursorPos ≤ _ - s - 1
      unfold cap at *
      omega
  · -- down: `fill` appends the rows that come into view
    have hrank : Ranked l.compareFunc (l.scrollOffset + k + l.targetSize) l.stored l.keys :=
      { hi.ranked with length_le := by rw [length_keys]; unfold cap at hle; omega }
    obtain ⟨h1, h2, h3⟩ := filled_spec (l := { l with scrollOffset := l.scrollOffset + k }) hrank
    refine h.inv h1 h2 hi.detail ?_ hi.ends
    show l.cursorPos ≤ _ - (l.scrollOffset + k) - 1
    rcases Nat.eq_zero_or_pos l.targetSize with ht | ht
    · unfold cap at hle
      omega
    · have h4 := h2 ht
      have h5 := hfull ht
      rw [h4]
      show l.cursorPos ≤ min (l.scrollOffset + k + l.targetSize) l.stored.length - _ - 1
      unfold cap at hle h5
      omega

/-- The cursor moves inside the visible part, or it stops at its end and the list scrolls. -/
theorem moveCursor_cases (l : ConnectionList) (amount : ℤ)
    (hc : l.cursorPos ≤ l.getCursorMaxPos) :
    l.moveCursor amount = l ∨ ∃ pos, pos ≤ l.getCursorMaxPos ∧
      (l.moveCursor amount = l.setCursorPos pos ∨
        ∃ n, l.moveCursor amount = { l with cursorPos := pos }.doScroll n) := by
  unfold moveCursor
  simp only
  split_ifs with h1 h2 h3 h4 h5 h6
  · exact Or.inr ⟨0, Nat.zero_le _, Or.inr ⟨_, rfl⟩⟩
  · exact Or.inr ⟨_, by omega, Or.inl rfl⟩
  · exact Or.inl rfl
  · exact Or.inr ⟨_, le_rfl, Or.inr ⟨_, rfl⟩⟩
  · exact Or.inr ⟨_, by omega, Or.inl rfl⟩
  · exact Or.inl rfl
  · exact Or.inl rfl

theorem Inv.cursor_le (hi : Inv l) : l.cursorPos ≤ l.getCursorMaxPos := by
  have := hi.cursor
  rwa [getCursorMaxPos_eq, getSize_eq, ← length_keys]

theorem Inv.setCursor (hi : Inv l) {pos : ℕ} (hpos : pos ≤ l.getCursorMaxPos) :
    Inv { l with cursorPos := pos } :=
  { hi with cursor := by rwa [getCursorMaxPos_eq, getSize_eq, ← length_keys] at hpos }

theorem Inv.moveCursor (hi : Inv l) (amount : ℤ) : Inv (l.moveCursor amount) := by
  rcases moveCursor_cases l amount hi.cursor_le with h | ⟨pos, hpos, h | ⟨n, h⟩⟩
  · rwa [h]
  · rw [h]
    exact (setCursorPos_relist l pos).inv_of_keys (hi.setCursor hpos)
  · rw [h]
    exact (hi.setCursor hpos).doScroll n

theorem Inv.initConnectionDetail (hi : Inv l) : Inv l.initConnectionDetail := by
  refine { hi with detail := fun c hc => ?_ }
  simp only [ConnectionList.initConnectionDetail] at hc
  split_ifs at hc
  obtain ⟨item, hitem, rfl⟩ := Option.map_eq_some_iff.mp hc
  exact hi.ranked.subset _ (List.mem_map_of_mem (List.mem_of_getElem? hitem))

/-- Nothing is filled in when there is no room. -/
theorem filled_of_not_lt (h : ¬ l.getSize < l.targetSize) : l.filled = l.keys := by
  rw [getSize_lt_iff] at h
  unfold filled
  rw [if_neg fun hc => h ⟨hc.1, hc.2.1⟩]

/-- The part of `setTargetSize` before the cursor is clamped. -/
theorem resize_relist (l : ConnectionList) :
    ∃ l₁, Relist l (l.keys.take l.cap) l₁ ∧ Relist l₁ l₁.filled l.resize := by
  have hkeep : ¬ l.getSize > l.targetSize → l.keys.take l.cap = l.keys := fun h => by
    rw [gt_iff_lt, lt_getSize_iff, not_lt, ← length_keys] at h
    exact List.take_of_length_le h
  unfold resize
  split_ifs with h1 h2
  · simp only [take_popped]
    refine ⟨_, take_relist l l.cap true, ?_⟩
    have hlen : ({ l with list := l.list.take l.cap, isRefreshRequired := true } :
        ConnectionList).filled = _ := filled_of_not_lt fun h => by
      have := (getSize_lt_iff.mp h).2
      have h' := lt_getSize_iff.mp h1
      simp only [List.length_take] at this
      change min l.cap l.list.length < l.cap at this
      omega
    rw [hlen]
    exact .refl _
  · exact ⟨l, (hkeep h1).symm ▸ .refl l, fill_relist l⟩
  · refine ⟨l, (hkeep h1).symm ▸ .refl l, ?_⟩
    rw [filled_of_not_lt h2]
    exact .refl l

/-- After `setTargetSize` the list is cut or filled, and the cursor is on a visible row. -/
theorem setTargetSize_relist (l : ConnectionList) {size : ℕ} (hsize : l.targetSize ≠ size) :
    ∃ l₁ pos, Relist { l with targetSize := size } (l.keys.take (l.scrollOffset + size)) l₁ ∧
      pos ≤ l₁.filled.length - l.scrollOffset - 1 ∧
      Relist { l₁ with cursorPos := pos } l₁.filled (l.setTargetSize size) := by
  obtain ⟨l₁, h₁, h₂⟩ := resize_relist { l with targetSize := size }
  unfold setTargetSize
  rw [if_neg hsize]
  generalize { l with targetSize := size }.resize = l₂ at h₂ ⊢
  obtain ⟨pos, hpos, h₃⟩ := clampCursor_relist l₂
  refine ⟨l₁, pos, h₁, ?_, ?_⟩
  · rwa [getCursorMaxPos_eq, getSize_eq, ← length_keys, h₂.keys, h₂.scrollOffset,
      h₁.scrollOffset] at hpos
  · refine ⟨h₃.keys.trans h₂.keys, ?_⟩
    rw [← h₃.eq, ← h₂.eq]

theorem Inv.setTargetSize (hi : Inv l) (size : ℕ) : Inv (l.setTargetSize size) := by
  by_cases hsize : l.targetSize = size
  · unfold ConnectionList.setTargetSize
    rwa [if_pos hsize]
  · obtain ⟨l₁, pos, h₁, hpos, h₂⟩ := setTargetSize_relist l hsize
    have hrank : Ranked l₁.compareFunc l₁.cap l₁.stored l₁.keys := by
      rw [h₁.compareFunc, h₁.cap, h₁.stored, h₁.keys]
      exact { hi.ranked.sublist (List.take_sublist _ _) with
        length_le := by rw [List.length_take]; exact min_le_left _ _ }
    obtain ⟨h3, h4, -⟩ := filled_spec hrank
    have hdetail : l₁.connectionDetail = l.connectionDetail := h₁.connectionDetail
    have hstored : l₁.stored = l.stored := h₁.stored
    refine h₂.inv h3 h4 (fun c hc => ?_) ?_ fun c hc => ?_
    · show c ∈ l₁.stored
      exact hstored ▸ hi.detail c (hdetail ▸ hc)
    · show pos ≤ l₁.filled.length - l₁.scrollOffset - 1
      rwa [h₁.scrollOffset]
    · show l₁.storage.HasEnds c
      rw [h₁.storage]
      exact hi.ends c (hstored ▸ hc)

theorem setSortMode_relist (l : ConnectionList) (mode : EConnectionSortMode) (isAscending : Bool) :
    l.setSortMode mode isAscending = l ∨
      Relist { l with sortMode := mode, isSortAscending := isAscending, list := [] }
        { l with sortMode := mode, isSortAscending := isAscending, list := [] }.filled
        (l.setSortMode mode isAscending) := by
  unfold setSortMode
  split_ifs
  · exact Or.inl rfl
  · refine Or.inr ((fill_relist _).trans ⟨(fill_relist _).keys, rfl⟩)

theorem Inv.setSortMode (hi : Inv l) (mode : EConnectionSortMode) (isAscending : Bool) :
    Inv (l.setSortMode mode isAscending) := by
  rcases setSortMode_relist l mode isAscending with h | h
  · rwa [h]
  · obtain ⟨h1, h2, -⟩ := filled_spec
      (l := { l with sortMode := mode, isSortAscending := isAscending, list := [] }) (.nil _)
    refine h.inv h1 h2 hi.detail ?_ hi.ends
    show l.cursorPos ≤ _ - l.scrollOffset - 1
    have hcursor := hi.cursor
    rcases Nat.eq_zero_or_pos l.targetSize with ht | ht
    · have hle := hi.ranked.length_le
      unfold cap at hle
      omega
    · have h3 := h2 ht
      rw [h3]
      have := hi.full ht
      exact this ▸ hcursor

/-! ## Runs -/

/-- **One call keeps the invariant.** -/
theorem step_inv (S : StdSort) (inet : InetText) (hi : Inv l) (op : Op) :
    Inv (step S inet l op) := by
  cases op with
  | getAddress a add =>
    exact (getAddress_same hi.ends inet a add).inv hi
  | getPort p add =>
    exact (getPort_same hi.ends p add).inv hi
  | add c d =>
    show Inv (if l.storage.HasEnds c then l.add c d else l)
    split_ifs with hc
    · exact hi.add hc d
    · exact hi
  | change c d flags =>
    show Inv (if c ∈ l.storage.connectionMap then l.change S c d flags else l)
    split_ifs with hc
    · exact hi.change hc d flags
    · exact hi
  | remove c => exact hi.remove c
  | clear => exact .clear l
  | resolveAddress a resolved => exact hi.resolverCallbackAddress a resolved
  | resolvePort p resolved => exact hi.resolverCallbackPort p resolved
  | addressDataUpdated a => exact hi.dataUpdated_of_sorted
  | portDataUpdated p => exact hi.dataUpdated_of_sorted
  | getNextUpdate => exact (getNextUpdate_relist l).inv_of_keys hi
  | invalidateAllVisible => exact (invalidateAllVisible_relist l).inv_of_keys hi
  | invalidateCursor => exact (invalidateCursor_relist l).inv_of_keys hi
  | moveCursor amount => exact hi.moveCursor amount
  | doScroll amount => exact hi.doScroll amount
  | initConnectionDetail => exact hi.initConnectionDetail
  | resetConnectionDetailRefresh => exact { hi with }
  | setTargetSize size => exact hi.setTargetSize size
  | setSortMode mode isAscending => exact hi.setSortMode mode isAscending
  | rehash m => exact (rehash_same l m).inv hi

/-- **The invariant holds after every sequence of calls.** -/
theorem run_inv (S : StdSort) (inet : InetText) (ops : List Op) : Inv (run S inet {} ops) := by
  suffices h : ∀ l, Inv l → Inv (run S inet l ops) from h {} .init
  induction ops with
  | nil => exact fun l hi => hi
  | cons op ops ih => exact fun l hi => ih _ (step_inv S inet hi op)

/-- **Order.** After every sequence of calls the list is sorted by the comparison in use, and
the comparison of every sort mode and direction is a strict weak order. -/
theorem run_sorted (S : StdSort) (inet : InetText) (ops : List Op) :
    let l := run S inet {} ops
    (∀ mode isAscending, WeakOrder (Conntop.compareFunc l.storage mode isAscending)) ∧
      l.list.Pairwise fun a b => l.compareFunc b.pConnection a.pConnection = false := by
  intro l
  exact ⟨compareFunc_weakOrder l.storage, List.pairwise_map.mp (run_inv S inet ops).ranked.sorted⟩

end ConnectionList

end Conntop
