import Conntop.ListStep

/-!
# Incremental repaint

The main screen paints a row only when the list hands out an update for it, and then only the
flagged columns. `ScreenConnectionList::updateList` drains the updates: `drain` is its loop.

* `Column` is one of the update flags. Its `content` is all that the columns drawn under this
  flag depend on.
* A painted `Cell` has the content of its column and the attribute of a selected row or not.
* `fullRow` is the row that a full repaint would leave.

A visible row that no flag covers must be as a full repaint leaves it (`Painted`). `Repaints l l'`
says that a step from `l` to `l'` raises enough flags: each visible row is flagged in all
columns, or it was visible in the same place before and what changed in it is flagged. Every
operation repaints (`step_repaints`), and a drain paints all flagged rows (`drain_spec`).

Main result: `run_painted`, a full repaint after a drain would change nothing.
-/

namespace Conntop

open SortedList

/-- The columns, by their update flags. -/
inductive Column
  | proto | protoState | srcAddress | dstAddress | srcPort | dstPort
  | rxPackets | txPackets | rxBytes | txBytes | rxSpeed | txSpeed
  deriving DecidableEq, Repr

def Column.flag : Column → Flags
  | proto => EConnectionUpdateFlags.proto
  | protoState => EConnectionUpdateFlags.protoState
  | srcAddress => EConnectionUpdateFlags.srcAddress
  | dstAddress => EConnectionUpdateFlags.dstAddress
  | srcPort => EConnectionUpdateFlags.srcPort
  | dstPort => EConnectionUpdateFlags.dstPort
  | rxPackets => EConnectionUpdateFlags.rxPackets
  | txPackets => EConnectionUpdateFlags.txPackets
  | rxBytes => EConnectionUpdateFlags.rxBytes
  | txBytes => EConnectionUpdateFlags.txBytes
  | rxSpeed => EConnectionUpdateFlags.rxSpeed
  | txSpeed => EConnectionUpdateFlags.txSpeed

/-- What a column shows. -/
inductive Content
  | type (t : EConnectionType)
  | state (t : EConnectionType) (s : Int)
  | address (a : Address) (d : AddressData)
  | port (p : Port) (d : PortData)
  | count (n : UInt64)
  deriving DecidableEq, Repr

/-- The content of a column for a connection. -/
def content (st : ConnectionStorage) (c : Connection) : Column → Content
  | .proto => .type c.getType
  | .protoState => .state c.getType (st.connectionData c).state
  | .srcAddress => .address c.srcAddr (st.addressData c.srcAddr)
  | .dstAddress => .address c.dstAddr (st.addressData c.dstAddr)
  | .srcPort => .port c.srcPort (st.portData c.srcPort)
  | .dstPort => .port c.dstPort (st.portData c.dstPort)
  | .rxPackets => .count (st.connectionData c).traffic.rxPackets
  | .txPackets => .count (st.connectionData c).traffic.txPackets
  | .rxBytes => .count (st.connectionData c).traffic.rxBytes
  | .txBytes => .count (st.connectionData c).traffic.txBytes
  | .rxSpeed => .count (st.connectionData c).traffic.rxSpeed
  | .txSpeed => .count (st.connectionData c).traffic.txSpeed

/-- The flags cover what an in-place change of a connection's data changed. -/
def Covers (flags : Flags) (old new : ConnectionData) : Prop :=
  (old.state ≠ new.state → flags.test Column.protoState.flag = true) ∧
    (old.traffic.rxPackets ≠ new.traffic.rxPackets → flags.test Column.rxPackets.flag = true) ∧
    (old.traffic.txPackets ≠ new.traffic.txPackets → flags.test Column.txPackets.flag = true) ∧
    (old.traffic.rxBytes ≠ new.traffic.rxBytes → flags.test Column.rxBytes.flag = true) ∧
    (old.traffic.txBytes ≠ new.traffic.txBytes → flags.test Column.txBytes.flag = true) ∧
    (old.traffic.rxSpeed ≠ new.traffic.rxSpeed → flags.test Column.rxSpeed.flag = true) ∧
    (old.traffic.txSpeed ≠ new.traffic.txSpeed → flags.test Column.txSpeed.flag = true)

instance (flags : Flags) (old new : ConnectionData) : Decidable (Covers flags old new) :=
  inferInstanceAs (Decidable (_ ∧ _))

/-! ## The screen -/

structure Cell where
  content : Content
  isSelected : Bool
  deriving DecidableEq, Repr

@[ext] structure Row where
  cells : Column → Cell
  isCursor : Bool

abbrev Screen := ℕ → Row

/-- Paint the flagged columns and the cursor mark of an update into its row. -/
def paint (s : Screen) (st : ConnectionStorage) (u : ConnectionListUpdate) : Screen :=
  Function.update s u.rowNumber
    { cells := fun col =>
        if u.updateFlags.test col.flag then ⟨content st u.data col, u.isCursor⟩
        else (s u.rowNumber).cells col
      isCursor := u.isCursor }

namespace ConnectionList

variable {l l' l'' : ConnectionList} {S : StdSort} {c : Connection}

/-- The loop of `updateList`, given up after `fuel` updates. -/
def drain : ℕ → ConnectionList → Screen → Option (ConnectionList × Screen)
  | fuel, l, s =>
    match l.getNextUpdate, fuel with
    | (l', none), _ => some (l', s)
    | (_, some _), 0 => none
    | (l', some u), fuel + 1 => drain fuel l' (paint s l'.storage u)

/-- The item of a visible row. -/
def visible (l : ConnectionList) (r : ℕ) : Option Item := l.list[l.scrollOffset + r]?

/-- The row that a full repaint leaves. -/
def fullRow (l : ConnectionList) (r : ℕ) (c : Connection) : Row where
  cells col := ⟨content l.storage c col, r == l.cursorPos⟩
  isCursor := r == l.cursorPos

/-- Operations and drains. -/
inductive Event
  | op (op : Op)
  | drain

/-- An operation that the screen may see between drains: updates are taken by drains only, and
the flags of an update cover what was changed. -/
def Allowed (l : ConnectionList) : Op → Prop
  | .getNextUpdate => False
  | .change c d flags => Covers flags (l.storage.connectionData c) d
  | _ => True

instance (l : ConnectionList) : DecidablePred (Allowed l)
  | .getNextUpdate => inferInstanceAs (Decidable False)
  | .change .. => inferInstanceAs (Decidable (Covers ..))
  | .getAddress .. | .getPort .. | .add .. | .remove _ | .clear | .resolveAddress ..
  | .resolvePort .. | .addressDataUpdated _ | .portDataUpdated _ | .invalidateAllVisible
  | .invalidateCursor | .moveCursor _ | .doScroll _ | .initConnectionDetail
  | .resetConnectionDetailRefresh | .setTargetSize _ | .setSortMode .. | .rehash _ =>
    inferInstanceAs (Decidable True)

/-- One event. A drain may take as many updates as there are visible rows. -/
def screenStep (S : StdSort) (inet : InetText) :
    ConnectionList × Screen → Event → Option (ConnectionList × Screen)
  | (l, s), .op op => some (if Allowed l op then step S inet l op else l, s)
  | (l, s), .drain => drain l.getSize l s

def screenRun (S : StdSort) (inet : InetText) (x : ConnectionList × Screen)
    (events : List Event) : Option (ConnectionList × Screen) :=
  events.foldlM (screenStep S inet) x

/-! ## Flagged rows -/

/-- A column of an item is flagged for repaint. -/
def dirty (item : Item) (col : Column) : Bool :=
  item.isRefreshRequired && item.updateFlags.test col.flag

/-- All columns of an item are flagged for repaint. -/
def Fresh (item : Item) : Prop := item.isRefreshRequired = true ∧ ∀ col, dirty item col = true

/-- A row shows the same item as before, and what changed in it is flagged. -/
structure Kept (l l' : ConnectionList) (r : ℕ) (item item' : Item) : Prop where
  pConnection : item'.pConnection = item.pConnection
  cursor : (r == l'.cursorPos) = (r == l.cursorPos)
  refresh : item.isRefreshRequired = true → item'.isRefreshRequired = true
  dirty : ∀ col, dirty item col = true → ConnectionList.dirty item' col = true
  content : ∀ col, ConnectionList.dirty item' col = false →
    content l'.storage item.pConnection col = Conntop.content l.storage item.pConnection col

/-- Each visible row is flagged in all columns or kept. -/
def KeepsRows (l l' : ConnectionList) : Prop :=
  ∀ r item', l'.visible r = some item' →
    Fresh item' ∨ ∃ item, l.visible r = some item ∧ Kept l l' r item item'

/-- The step raises the flags that a repaint needs, those of the rows and that of the list. -/
structure Repaints (l l' : ConnectionList) : Prop where
  rows : KeepsRows l l'
  refresh : l'.isRefreshRequired = true ∨ l'.isRefreshRequired = l.isRefreshRequired ∧
    ∀ r item', l'.visible r = some item' → item'.isRefreshRequired = true →
      ∃ item, l.visible r = some item ∧ item.isRefreshRequired = true

/-- What no flag covers is on the screen as a full repaint leaves it. -/
structure Painted (l : ConnectionList) (s : Screen) : Prop where
  cells : ∀ r item, l.visible r = some item → ∀ col, dirty item col = false →
    (s r).cells col = (l.fullRow r item.pConnection).cells col
  cursor : ∀ r item, l.visible r = some item → item.isRefreshRequired = false →
    (s r).isCursor = (r == l.cursorPos)
  refresh : ∀ r item, l.visible r = some item → item.isRefreshRequired = true →
    l.isRefreshRequired = true

theorem fresh_of_flags {item : Item} (h : item.isRefreshRequired = true)
    (hf : item.updateFlags = -1) : Fresh item := by
  refine ⟨h, fun col => ?_⟩
  unfold dirty
  rw [h, hf, Bool.true_and]
  exact Flags.test_neg_one _ (by cases col <;> decide)

theorem fresh_invalidate (item : Item) : Fresh item.invalidate := fresh_of_flags rfl rfl

theorem fresh_new (c : Connection) : Fresh { pConnection := c } := fresh_of_flags rfl rfl

theorem Kept.of_list {items : List Item} {b : Bool} {r : ℕ} (item : Item) :
    Kept l { l with list := items, isRefreshRequired := b } r item item :=
  ⟨rfl, rfl, id, fun _ h => h, fun _ _ => rfl⟩

theorem KeepsRows.refl (l : ConnectionList) : KeepsRows l l :=
  fun _ item h => Or.inr ⟨item, h, .of_list item⟩

/-- The flag of the list is no matter of the rows. -/
theorem KeepsRows.of_refresh (l : ConnectionList) (b : Bool) :
    KeepsRows l { l with isRefreshRequired := b } :=
  fun _ item h => Or.inr ⟨item, h, .of_list item⟩

theorem KeepsRows.trans (h : KeepsRows l l') (h' : KeepsRows l' l'') : KeepsRows l l'' := by
  intro r item'' hr
  rcases h' r item'' hr with hf | ⟨item', hr', hk'⟩
  · exact Or.inl hf
  rcases h r item' hr' with hf | ⟨item, hr, hk⟩
  · exact Or.inl ⟨hk'.refresh hf.1, fun col => hk'.dirty col (hf.2 col)⟩
  · refine Or.inr ⟨item, hr, hk'.pConnection.trans hk.pConnection, hk'.cursor.trans hk.cursor,
      hk'.refresh ∘ hk.refresh, fun col => hk'.dirty col ∘ hk.dirty col, fun col hd => ?_⟩
    have hd' : dirty item' col = false := by
      by_contra hd'
      simp [hk'.dirty col (by simpa using hd')] at hd
    have hc' := hk'.content col hd
    rw [hk.pConnection] at hc'
    exact hc'.trans (hk.content col hd')

theorem Repaints.refl (l : ConnectionList) : Repaints l l :=
  ⟨.refl l, Or.inr ⟨rfl, fun _ item h hr => ⟨item, h, hr⟩⟩⟩

theorem Repaints.trans (h : Repaints l l') (h' : Repaints l' l'') : Repaints l l'' := by
  refine ⟨h.rows.trans h'.rows, ?_⟩
  rcases h'.refresh with h2 | ⟨h2, h3⟩
  · exact Or.inl h2
  rcases h.refresh with h1 | ⟨h1, h4⟩
  · exact Or.inl (h2.trans h1)
  · refine Or.inr ⟨h2.trans h1, fun r item'' hr hi => ?_⟩
    obtain ⟨item', hr', hi'⟩ := h3 r item'' hr hi
    exact h4 r item' hr' hi'

/-- A step that changes nothing that a row shows. -/
theorem Repaints.of_same (hl : l'.list = l.list) (hs : l'.scrollOffset = l.scrollOffset)
    (hc : l'.cursorPos = l.cursorPos) (hst : l'.storage = l.storage)
    (hr : l'.isRefreshRequired = l.isRefreshRequired) : Repaints l l' := by
  have hv : ∀ r, l'.visible r = l.visible r := fun r => by unfold visible; rw [hl, hs]
  refine ⟨fun r item h => Or.inr ⟨item, hv r ▸ h, rfl, by rw [hc], id, fun _ h => h, fun _ _ => ?_⟩,
    Or.inr ⟨hr, fun r item h hi => ⟨item, hv r ▸ h, hi⟩⟩⟩
  rw [hst]

/-- A step that raises the flags keeps what the others cover. -/
theorem Repaints.painted {s : Screen} (h : Repaints l l') (hp : Painted l s) : Painted l' s where
  cells r item' hr col hd := by
    rcases h.rows r item' hr with hf | ⟨item, hr', hk⟩
    · simp [hf.2 col] at hd
    · have hd' : dirty item col = false := by
        by_contra hd'
        simp [hk.dirty col (by simpa using hd')] at hd
      rw [hp.cells r item hr' col hd', hk.pConnection]
      simp only [fullRow, hk.content col hd, hk.cursor]
  cursor r item' hr hi := by
    rcases h.rows r item' hr with hf | ⟨item, hr', hk⟩
    · simp [hf.1] at hi
    · rw [hk.cursor]
      refine hp.cursor r item hr' ?_
      by_contra hi'
      simp [hk.refresh (by simpa using hi')] at hi
  refresh r item' hr hi := by
    rcases h.refresh with h1 | ⟨h1, h2⟩
    · exact h1
    · obtain ⟨item, hr', hi'⟩ := h2 r item' hr hi
      exact h1.trans (hp.refresh r item hr' hi')

/-- Rows that are flagged in all columns need nothing from before. -/
theorem Repaints.of_fresh (h : ∀ r item, l'.visible r = some item → Fresh item)
    (hr : l'.isRefreshRequired = true) : Repaints l l' :=
  ⟨fun r item hv => Or.inl (h r item hv), Or.inl hr⟩

/-- Another storage, where what changed in a visible row is flagged. -/
theorem Repaints.of_storage (l : ConnectionList) (st : ConnectionStorage)
    (h : ∀ r item, l.visible r = some item → ∀ col, dirty item col = false →
      content st item.pConnection col = content l.storage item.pConnection col) :
    Repaints l { l with storage := st } :=
  ⟨fun r item hr => Or.inr ⟨item, hr, rfl, rfl, id, fun _ h => h, h r item hr⟩,
    Or.inr ⟨rfl, fun _ item h hr => ⟨item, h, hr⟩⟩⟩

/-! ## Private operations -/

theorem getElem?_invalidateFrom (i : ℕ) (items : List Item) (j : ℕ) :
    (invalidateFrom i items)[j]? =
      if j < i then items[j]? else items[j]?.map Item.invalidate := by
  unfold invalidateFrom
  split_ifs with h
  · by_cases hlen : j < items.length
    · rw [List.getElem?_append_left (by simp [h, hlen]), List.getElem?_take, if_pos h]
    · rw [List.getElem?_eq_none (by simp; omega), List.getElem?_eq_none (by omega)]
  · rw [not_lt] at h
    rw [List.getElem?_append_right (by simp; omega), List.getElem?_map, List.getElem?_drop,
      List.length_take]
    by_cases hlen : i ≤ items.length
    · rw [min_eq_left hlen, Nat.add_sub_cancel' h]
    · rw [List.getElem?_eq_none (by omega), List.getElem?_eq_none (by omega)]

theorem lt_length_of_visible {r : ℕ} {item : Item} (h : l.visible r = some item) :
    l.scrollOffset + r < l.list.length := (List.getElem?_eq_some_iff.mp h).1

theorem fresh_invalidateAllVisible (l : ConnectionList) :
    ∀ r item, l.invalidateAllVisible.visible r = some item → Fresh item := by
  intro r item hr
  unfold visible invalidateAllVisible at hr
  rw [getElem?_invalidateFrom, if_neg (by rw [getListBeginIt_eq]; simp),
    Option.map_eq_some_iff] at hr
  obtain ⟨item', -, rfl⟩ := hr
  exact fresh_invalidate item'

theorem invalidateAllVisible_repaints (l : ConnectionList) : Repaints l' l.invalidateAllVisible :=
  .of_fresh (fresh_invalidateAllVisible l) rfl

theorem sort_repaints (S : StdSort) (l : ConnectionList) : Repaints l' (l.sort S) :=
  invalidateAllVisible_repaints _

/-- Rows above a position stay, and those from there on are invalidated. -/
theorem keepsRows_invalidateFrom {items : List Item} {i : ℕ} {r : Bool}
    (h : ∀ j, l.scrollOffset ≤ j → j < i → ∀ item, items[j]? = some item →
      l.list[j]? = some item) :
    KeepsRows l { l with list := invalidateFrom i items, isRefreshRequired := r } := by
  intro k item hk
  unfold visible at hk
  rw [getElem?_invalidateFrom] at hk
  split_ifs at hk with hi
  · exact Or.inr ⟨item, h _ (Nat.le_add_right _ _) hi item hk, .of_list item⟩
  · obtain ⟨item', -, rfl⟩ := Option.map_eq_some_iff.mp hk
    exact Or.inl (fresh_invalidate item')

/-- The items after a removal at the end are those from before. -/
theorem popOverfull_prefix (l : ConnectionList) : l.popOverfull.list <+: l.list := by
  unfold popOverfull
  split_ifs
  · exact List.dropLast_prefix l.list
  · exact List.prefix_refl _

theorem popOverfull_eq (l : ConnectionList) :
    l.popOverfull = { l with list := l.popOverfull.list } := by
  unfold popOverfull
  split_ifs <;> rfl

theorem insertItem_repaints (l : ConnectionList) (item : Item) :
    Repaints l (l.insertItem item) := by
  refine ⟨?_, Or.inl rfl⟩
  have hpre := popOverfull_prefix
    { l with list := l.list.insertIdx (upperBound l.compareItem item l.list) item }
  unfold insertItem
  simp only
  rw [popOverfull_eq]
  refine keepsRows_invalidateFrom fun j hj hi x hx => ?_
  -- a position above the first invalidated one is above the inserted item
  have hlt := (List.getElem?_eq_some_iff.mp hx).1
  have hbegin : ∀ l' : ConnectionList, j < l'.list.length → l'.scrollOffset ≤ j →
      l'.getListBeginIndex = l'.scrollOffset := fun l' h h' => by
    unfold getListBeginIndex
    rw [if_pos (by omega)]
  rw [hbegin _ hlt hj] at hi
  have hidx : j < upperBound l.compareItem item l.list := by
    change j < max _ l.scrollOffset at hi
    omega
  rw [List.getElem?_eq_getElem hlt, hpre.getElem hlt, ← List.getElem?_eq_getElem,
    List.getElem?_insertIdx_of_lt hidx] at hx
  exact hx

theorem append_keepsRows (l : ConnectionList) (c : Connection) (r : Bool) :
    KeepsRows l { l with list := l.list ++ [{ pConnection := c }], isRefreshRequired := r } := by
  intro k item hk
  unfold visible at hk
  by_cases hlen : l.scrollOffset + k < l.list.length
  · rw [List.getElem?_append_left hlen] at hk
    exact Or.inr ⟨item, hk, .of_list item⟩
  · rw [List.getElem?_append_right (not_lt.mp hlen), List.getElem?_singleton] at hk
    split_ifs at hk
    rw [← Option.some.inj hk]
    exact Or.inl (fresh_new c)

theorem fillItem_keepsRows (l : ConnectionList) (c : Connection) : KeepsRows l (l.fillItem c) := by
  unfold fillItem
  simp only
  split_ifs
  · exact .refl l
  · exact (insertItem_repaints l _).rows
  · exact .refl l
  · exact append_keepsRows l c _
  · exact .refl l

theorem fillFirst_keepsRows (l : ConnectionList) : KeepsRows l l.fillFirst := by
  unfold fillFirst
  split_ifs with h
  · cases hs : l.storage.connectionMap.keys.head? with
    | none =>
      intro k item hk
      simp [visible] at hk
    | some c =>
      have := append_keepsRows l c l.isRefreshRequired
      rwa [List.isEmpty_iff.mp h] at this
  · exact .refl l

theorem foldl_keepsRows {f : ConnectionList → Connection → ConnectionList}
    (hf : ∀ l c, KeepsRows l (f l c)) (cs : List Connection) :
    ∀ l, KeepsRows l (cs.foldl f l) := by
  induction cs with
  | nil => exact .refl
  | cons c cs ih => exact fun l => (hf l c).trans (ih _)

theorem fill_repaints (l : ConnectionList) : Repaints l l.fill := by
  unfold fill
  split_ifs
  · exact .refl l
  · have h := (fillFirst_keepsRows l).trans (foldl_keepsRows fillItem_keepsRows
      l.storage.connectionMap.keys l.fillFirst)
    exact ⟨h.trans (.of_refresh _ true), Or.inl rfl⟩

theorem insertBetter_repaints (l : ConnectionList) (c : Connection) :
    Repaints l (l.insertBetter c) := by
  unfold insertBetter
  simp only
  split_ifs
  · exact .refl l
  · exact insertItem_repaints l _
  · exact .refl l

theorem foldl_insertBetter_repaints (cs : List Connection) :
    ∀ l : ConnectionList, Repaints l (cs.foldl insertBetter l) := by
  induction cs with
  | nil => exact .refl
  | cons c cs ih => exact fun l => (insertBetter_repaints l c).trans (ih _)

theorem handleNewConnection_repaints (l : ConnectionList) (c : Connection) :
    Repaints l (l.handleNewConnection c) := by
  unfold handleNewConnection
  simp only
  split_ifs
  · exact insertItem_repaints l _
  · exact ⟨append_keepsRows l c true, Or.inl rfl⟩
  · exact .refl l

/-- A cut list shows fewer rows. -/
theorem take_repaints (l : ConnectionList) (n : ℕ) :
    Repaints l { l with list := l.list.take n, isRefreshRequired := true } := by
  refine ⟨fun k item hk => ?_, Or.inl rfl⟩
  unfold visible at hk
  rw [List.getElem?_take] at hk
  split_ifs at hk
  exact Or.inr ⟨item, hk, .of_list item⟩

theorem visible_none (h : l.getListBeginIt = l.list.length) (r : ℕ) : l.visible r = none := by
  rw [getListBeginIt_eq] at h
  exact List.getElem?_eq_none (by omega)

/-- Only the row of the cursor is invalidated. -/
theorem visible_invalidateCursor (l : ConnectionList) (r : ℕ) :
    l.invalidateCursor.visible r =
      if r = l.cursorPos then (l.visible r).map Item.invalidate else l.visible r := by
  by_cases h : l.getListBeginIt = l.list.length
  · have : l.invalidateCursor = l := by unfold invalidateCursor; rw [if_pos h]
    rw [this, visible_none h, Option.map_none, ite_self]
  · have hb : l.getListBeginIt = l.scrollOffset := by rw [getListBeginIt_eq] at h ⊢; omega
    unfold invalidateCursor
    rw [if_neg h, hb]
    unfold visible
    have hiff : l.scrollOffset + l.cursorPos = l.scrollOffset + r ↔ r = l.cursorPos := by omega
    simp only [List.getElem?_modify, hiff]
    split_ifs <;> cases l.list[l.scrollOffset + r]? <;> rfl

theorem invalidateCursor_fields (l : ConnectionList) :
    l.invalidateCursor.storage = l.storage ∧
      l.invalidateCursor.scrollOffset = l.scrollOffset ∧
      l.invalidateCursor.cursorPos = l.cursorPos ∧
      (l.invalidateCursor.isRefreshRequired = true ∨
        l.invalidateCursor = l ∧ ∀ r, l.visible r = none) := by
  unfold invalidateCursor
  split_ifs with h
  · exact ⟨rfl, rfl, rfl, Or.inr ⟨rfl, visible_none h⟩⟩
  · exact ⟨rfl, rfl, rfl, Or.inl rfl⟩

/-- Moving the cursor invalidates the rows it leaves and enters. -/
theorem cursor_repaints (l : ConnectionList) (pos : ℕ)
    (h : ∀ r item, r = l.cursorPos → l.visible r = some item → r ≠ pos → Fresh item) :
    Repaints l { l with cursorPos := pos }.invalidateCursor := by
  obtain ⟨hst, hs, hc, hr⟩ := invalidateCursor_fields { l with cursorPos := pos }
  refine ⟨fun r item hv => ?_, ?_⟩
  · rw [visible_invalidateCursor] at hv
    change (if r = pos then (l.visible r).map Item.invalidate else l.visible r) = some item at hv
    split_ifs at hv with hpos
    · obtain ⟨item', -, rfl⟩ := Option.map_eq_some_iff.mp hv
      exact Or.inl (fresh_invalidate item')
    · by_cases hold : r = l.cursorPos
      · exact Or.inl (h r item hold hv hpos)
      · refine Or.inr ⟨item, hv, rfl, ?_, id, fun _ h => h, fun _ _ => by rw [hst]⟩
        rw [hc]
        show (r == pos) = (r == l.cursorPos)
        rw [beq_false_of_ne hpos, beq_false_of_ne hold]
  · rcases hr with hr | ⟨heq, hnone⟩
    · exact Or.inl hr
    · refine Or.inr ⟨by rw [heq], fun r item hv => ?_⟩
      rw [heq, hnone r] at hv
      simp at hv

theorem clampCursor_repaints (l : ConnectionList) : Repaints l l.clampCursor := by
  unfold clampCursor
  split_ifs with h
  · refine cursor_repaints l _ fun r item hr hv _ => ?_
    -- the row that the cursor leaves is not visible any more
    have := lt_length_of_visible hv
    rw [getCursorMaxPos_eq, getSize_eq] at h
    omega
  · exact .refl l

theorem setCursorPos_repaints (l : ConnectionList) (pos : ℕ) :
    Repaints l (l.setCursorPos pos) := by
  obtain ⟨hst, hs, hc, hr⟩ := invalidateCursor_fields l
  have h₁ : Repaints l l.invalidateCursor := cursor_repaints l l.cursorPos fun r item h _ h' =>
    absurd h h'
  refine h₁.trans (cursor_repaints l.invalidateCursor pos fun r item h hv _ => ?_)
  rw [visible_invalidateCursor, if_pos (h.trans hc)] at hv
  obtain ⟨item', -, rfl⟩ := Option.map_eq_some_iff.mp hv
  exact fresh_invalidate item'

/-! ## Marked items -/

theorem markItem_repaints (l : ConnectionList) (i : ℕ) (flags : Flags) :
    Repaints l (l.markItem i flags) := by
  unfold markItem
  split_ifs
  · refine ⟨fun r item hv => ?_, Or.inl rfl⟩
    unfold visible at hv
    simp only [List.getElem?_modify] at hv
    obtain ⟨x, hx, rfl⟩ := Option.map_eq_some_iff.mp hv
    refine Or.inr ⟨x, hx, ?_⟩
    split_ifs
    · exact ⟨rfl, rfl, fun _ => rfl, fun col hd => by
        simp only [dirty, Bool.and_eq_true] at hd
        simp [dirty, Item.mark, hd.2], fun _ _ => rfl⟩
    · exact .of_list x
  · exact .refl l

/-- A marked item is flagged in the columns of the mark. -/
theorem dirty_mark (flags : Flags) (item : Item) (col : Column) :
    dirty (item.mark flags) col = (item.updateFlags.test col.flag || flags.test col.flag) := by
  simp [dirty, Item.mark]

theorem visible_markVisible (l : ConnectionList) (touches : Connection → Bool)
    (flags : Connection → Flags) (r : ℕ) :
    (l.markVisible touches flags).visible r = (l.visible r).map fun item =>
      if touches item.pConnection then item.mark (flags item.pConnection) else item := by
  unfold visible markVisible
  simp only
  rw [getListBeginIt_eq, List.getElem?_append_right (by simp), List.getElem?_map,
    List.getElem?_drop, List.length_take]
  by_cases h : l.scrollOffset ≤ l.list.length
  · rw [min_eq_left h, min_eq_left h, Nat.add_sub_cancel_left]
  · rw [List.getElem?_eq_none (by omega), List.getElem?_eq_none (by omega)]

theorem isVisible_of_touches {touches : Connection → Bool} {r : ℕ} {item : Item}
    (h : l.visible r = some item) (ht : touches item.pConnection = true) :
    l.isVisible touches = true := by
  have hlen := lt_length_of_visible h
  refine List.any_eq_true.mpr ⟨item, List.mem_iff_getElem?.mpr ⟨r, ?_⟩, ht⟩
  rw [List.getElem?_drop, getListBeginIt_eq, min_eq_left (by omega)]
  exact h

theorem markVisible_repaints (l : ConnectionList) (touches : Connection → Bool)
    (flags : Connection → Flags) : Repaints l (l.markVisible touches flags) := by
  constructor
  · intro r item hr
    rw [visible_markVisible] at hr
    obtain ⟨x, hx, rfl⟩ := Option.map_eq_some_iff.mp hr
    refine Or.inr ⟨x, hx, ?_⟩
    split_ifs
    · refine ⟨rfl, rfl, fun _ => rfl, fun col hd => ?_, fun _ _ => rfl⟩
      rw [dirty_mark, (Bool.and_eq_true_iff.mp hd).2, Bool.true_or]
    · exact .of_list x
  · cases hv : l.isVisible touches with
    | true => exact Or.inl (by simp [markVisible, hv])
    | false =>
      refine Or.inr ⟨by simp [markVisible, hv], fun r item hr hi => ?_⟩
      rw [visible_markVisible] at hr
      obtain ⟨x, hx, rfl⟩ := Option.map_eq_some_iff.mp hr
      have hx' : touches x.pConnection = false := by
        by_contra h
        simp [isVisible_of_touches hx (by simpa using h)] at hv
      exact ⟨x, hx, by simpa [hx'] using hi⟩

/-! ## The operations -/

theorem dataUpdated_repaints (S : StdSort) (l : ConnectionList) (mayAffectOrder : Bool)
    (touches : Connection → Bool) (flags : Connection → Flags) :
    Repaints (l.markVisible touches flags) (l.dataUpdated S mayAffectOrder touches flags) ∨
      l.list = [] ∧ l.dataUpdated S mayAffectOrder touches flags = l := by
  unfold dataUpdated
  split_ifs with hnil hm
  · exact Or.inr ⟨List.isEmpty_iff.mp hnil, rfl⟩
  · refine Or.inl ?_
    simp only
    refine .trans ?_ (foldl_insertBetter_repaints _ _)
    split_ifs
    · exact sort_repaints S _
    · exact .refl _
  · exact Or.inl (.refl _)

theorem updateListed_repaints (S : StdSort) (l : ConnectionList) (i : ℕ) (item : Item) :
    Repaints l (l.updateListed S i item) := by
  have hstage : ∀ b b' : Bool, Repaints l
      (if b' then (if b then l.sort S else l).fill else if b then l.sort S else l) := by
    intro b b'
    have hsort : Repaints l (if b then l.sort S else l) := by
      split_ifs
      · exact sort_repaints S l
      · exact .refl l
    split_ifs at hsort ⊢
    · exact hsort.trans (fill_repaints _)
    · exact hsort.trans (fill_repaints _)
    · exact hsort
    · exact hsort
  exact hstage _ _

theorem content_setConnectionData_ne {st : ConnectionStorage} {x : Connection} (h : x ≠ c)
    (d : ConnectionData) (col : Column) :
    content (st.setConnectionData c d) x col = content st x col := by
  have hd : (st.setConnectionData c d).connectionData x = st.connectionData x := by
    rw [ConnectionStorage.connectionData_setConnectionData, if_neg fun hx => h hx.1]
  cases col <;> simp only [content, hd] <;> rfl

/-- A column that covering flags leave out did not change. -/
theorem content_of_covers {st : ConnectionStorage} {d : ConnectionData} {flags : Flags}
    (h : Covers flags (st.connectionData c) d) {col : Column}
    (hcol : flags.test col.flag = false) :
    content (st.setConnectionData c d) c col = content st c col := by
  by_cases hc : c ∈ st.connectionMap
  · have hd : (st.setConnectionData c d).connectionData c = d := by
      rw [ConnectionStorage.connectionData_setConnectionData, if_pos ⟨rfl, hc⟩]
    obtain ⟨h1, h2, h3, h4, h5, h6, h7⟩ := h
    have hsame : ∀ {p : Prop}, (¬ p → flags.test col.flag = true) → p := fun hp => by
      by_contra hn
      simp [hp hn] at hcol
    cases col with
    | protoState => simp only [content, hd, hsame h1]
    | rxPackets => simp only [content, hd, hsame h2]
    | txPackets => simp only [content, hd, hsame h3]
    | rxBytes => simp only [content, hd, hsame h4]
    | txBytes => simp only [content, hd, hsame h5]
    | rxSpeed => simp only [content, hd, hsame h6]
    | txSpeed => simp only [content, hd, hsame h7]
    | proto | srcAddress | dstAddress | srcPort | dstPort => rfl
  · rw [ConnectionStorage.setConnectionData, replace_of_notMem hc]

theorem setDetailFlags_eq (l : ConnectionList) (c : Connection) (flags : Flags) :
    ∃ f, l.setDetailFlags c flags = { l with connectionDetailUpdateFlags := f } := by
  unfold setDetailFlags
  split_ifs
  · exact ⟨_, rfl⟩
  · exact ⟨_, rfl⟩

theorem markItem_storage (l : ConnectionList) (st : ConnectionStorage) (f : Flags) (i : ℕ)
    (flags : Flags) :
    { l with storage := st, connectionDetailUpdateFlags := f }.markItem i flags =
      { l.markItem i flags with storage := st, connectionDetailUpdateFlags := f } := by
  have hb : { l with storage := st, connectionDetailUpdateFlags := f }.getListBeginIndex =
    l.getListBeginIndex := rfl
  unfold markItem
  rw [hb]
  split_ifs <;> rfl

theorem visible_eq_some {r : ℕ} {item : Item} (h : l.visible r = some item) :
    l.keys[l.scrollOffset + r]? = some item.pConnection := by
  unfold keys
  rw [List.getElem?_map]
  exact congrArg (Option.map _) h

/-- The row of an unlisted connection is not visible. -/
theorem visible_ne {r : ℕ} {item : Item} (h : l.visible r = some item) (hc : c ∉ l.keys) :
    item.pConnection ≠ c :=
  fun heq => hc (heq ▸ List.mem_of_getElem? (visible_eq_some h))

/-- The mark of an update covers what was changed. -/
theorem markItem_covers (hi : Inv l) {d : ConnectionData} {flags : Flags}
    (hcov : Covers flags (l.storage.connectionData c) d) {r : ℕ} {item : Item}
    (hr : (l.markItem (l.keys.idxOf c) flags).visible r = some item) {col : Column}
    (hd : dirty item col = false) :
    content (l.storage.setConnectionData c d) item.pConnection col =
      content l.storage item.pConnection col := by
  by_cases hc : item.pConnection = c
  · have hrel := markItem_relist l (l.keys.idxOf c) flags
    have hlen : l.scrollOffset + r < l.list.length := by
      have := lt_length_of_visible hr
      rwa [← length_keys, hrel.keys, length_keys, hrel.scrollOffset] at this
    have hkey := visible_eq_some hr
    rw [hrel.keys, hrel.scrollOffset, hc] at hkey
    have hidx : l.keys.idxOf c = l.scrollOffset + r := by
      obtain ⟨hlt, hget⟩ := List.getElem?_eq_some_iff.mp hkey
      rw [← hget]
      exact hi.ranked.nodup.idxOf_getElem _ hlt
    have hbegin : l.getListBeginIndex ≤ l.scrollOffset + r := by
      unfold getListBeginIndex
      split_ifs <;> omega
    unfold markItem visible at hr
    rw [hidx, if_pos hbegin] at hr
    simp only [List.getElem?_modify, if_true] at hr
    obtain ⟨x, -, rfl⟩ := Option.map_eq_some_iff.mp hr
    rw [dirty_mark, Bool.or_eq_false_iff] at hd
    rw [hc]
    exact content_of_covers hcov hd.2
  · exact content_setConnectionData_ne hc d col

/-- **An in-place change and its update flag what was changed.** -/
theorem change_repaints (hi : Inv l) {d : ConnectionData} {flags : Flags}
    (hcov : Covers flags (l.storage.connectionData c) d) :
    Repaints l (l.change S c d flags) := by
  obtain ⟨f, hf⟩ := setDetailFlags_eq { l with storage := l.storage.setConnectionData c d } c flags
  unfold change update
  simp only
  rw [hf]
  have hunlisted : c ∉ l.keys → Repaints l { l with
      storage := l.storage.setConnectionData c d, connectionDetailUpdateFlags := f } := fun hck =>
    (Repaints.of_storage l _ fun r item hr col _ =>
      content_setConnectionData_ne (visible_ne hr hck) d col).trans
      (.of_same rfl rfl rfl rfl rfl)
  have hidx : l.list.findIdx (·.pConnection == c) = l.keys.idxOf c := findIdx_eq l c
  have hmem : ¬ l.keys.idxOf c < l.list.length → c ∉ l.keys := fun h => by
    rwa [← List.idxOf_lt_length_iff, length_keys]
  split_ifs with hnil hlt hb
  · refine hunlisted ?_
    rw [keys, List.isEmpty_iff.mp hnil]
    simp
  · rw [hidx, markItem_storage l]
    refine .trans ?_ (updateListed_repaints S _ _ _)
    have hs := Repaints.of_storage (l.markItem (l.keys.idxOf c) flags)
      (l.storage.setConnectionData c d) fun r item hr col hd => by
        rw [(markItem_relist l _ flags).storage]
        exact markItem_covers hi hcov hr hd
    exact (markItem_repaints l _ flags).trans (hs.trans (.of_same rfl rfl rfl rfl rfl))
  · exact (hunlisted (hmem (hidx ▸ hlt))).trans (insertItem_repaints _ _)
  · exact hunlisted (hmem (hidx ▸ hlt))

/-- A new address or port, or another iteration order, is not on the screen. -/
theorem repaints_of_agree (st : ConnectionStorage) (h : ∀ c ∈ l.keys, AgreeOn st l.storage c) :
    Repaints l { l with storage := st } := by
  refine .of_storage l st fun r item hr col _ => ?_
  have hag := h _ (List.mem_of_getElem? (visible_eq_some hr))
  cases col <;> simp only [content, hag.data, hag.srcAddr, hag.dstAddr, hag.srcPort, hag.dstPort]

theorem SameList.repaints (h : SameList l l') (hi : Inv l) : Repaints l l' :=
  (repaints_of_agree l'.storage fun c hc => h.agree c (hi.ranked.subset c hc)).trans
    (.of_same h.list h.scrollOffset h.cursorPos rfl h.isRefreshRequired)

theorem add_repaints (hi : Inv l) (c : Connection) (d : ConnectionData) :
    Repaints l (l.add c d) := by
  rw [add_eq]
  split_ifs with h
  · exact .refl l
  · exact (repaints_of_agree _ fun x hx => agreeOn_addConnection (hi.ranked.subset x hx)).trans
      (handleNewConnection_repaints _ c)

theorem eraseItem_repaints (l : ConnectionList) (c : Connection) :
    KeepsRows l (l.eraseItem c) := by
  refine keepsRows_invalidateFrom fun j hj hlt x hx => ?_
  have hlen := (List.getElem?_eq_some_iff.mp hx).1
  rw [getListBeginIt_eq] at hlt
  change j < max _ (min l.scrollOffset _) at hlt
  rw [List.getElem?_eraseIdx] at hx
  rwa [if_pos (by omega)] at hx

theorem remove_repaints (hi : Inv l) (c : Connection) : Repaints l (l.remove c) := by
  rw [remove_eq]
  split_ifs with h
  · obtain ⟨d, flags, hd, -⟩ := removeDetail_eq
      { l with storage := (l.storage.removeConnection c).1 } c
    refine ⟨?_, Or.inl rfl⟩
    unfold handleRemovedConnection
    rw [hd]
    -- the removed connection leaves the list before its data is gone
    have h₁ := eraseItem_repaints l c
    have h₂ : KeepsRows (l.eraseItem c)
        { l.eraseItem c with storage := (l.storage.removeConnection c).1 } :=
      (repaints_of_agree _ fun x hx => by
        rw [(eraseItem_relist l c).keys] at hx
        exact agreeOn_removeConnection (hi.ranked.nodup.mem_erase_iff.mp hx).1).rows
    have h₃ : Repaints { l.eraseItem c with storage := (l.storage.removeConnection c).1 }
        ({ l with
          storage := (l.storage.removeConnection c).1
          connectionDetail := d
          connectionDetailUpdateFlags := flags }.eraseItem c) := .of_same rfl rfl rfl rfl rfl
    exact (((h₁.trans h₂).trans h₃.rows).trans
      ((fill_repaints _).trans (clampCursor_repaints _)).rows).trans (.of_refresh _ true)
  · exact .refl l

theorem clear_repaints (l : ConnectionList) : Repaints l l.clear :=
  .of_fresh (fun r item h => by simp [visible, clear] at h) rfl

/-- Only the connections that an address or a port touches show it. -/
theorem resolve_repaints {st : ConnectionStorage} {n : ℕ} {f : Flags} {mayAffectOrder : Bool}
    {touches : Connection → Bool} {flags : Connection → Flags}
    (h : ∀ c col, touches c = true ∧ (flags c).test col.flag = false ∨ touches c = false →
      content st c col = content l.storage c col) :
    Repaints l ({ l with
      storage := st
      dataResolvedCount := n
      connectionDetailUpdateFlags := f }.dataUpdated S mayAffectOrder touches flags) := by
  rcases dataUpdated_repaints S { l with
      storage := st
      dataResolvedCount := n
      connectionDetailUpdateFlags := f } mayAffectOrder touches flags with hup | ⟨hnil, heq⟩
  · have hs := Repaints.of_storage (l.markVisible touches flags) st fun r item hr col hd => by
      rw [visible_markVisible] at hr
      obtain ⟨x, -, rfl⟩ := Option.map_eq_some_iff.mp hr
      split_ifs at hd ⊢ with ht
      · rw [dirty_mark, Bool.or_eq_false_iff] at hd
        exact h _ col (Or.inl ⟨ht, hd.2⟩)
      · exact h _ col (Or.inr (by simpa using ht))
    have hsame : Repaints { l.markVisible touches flags with storage := st } ({ l with
        storage := st
        dataResolvedCount := n
        connectionDetailUpdateFlags := f }.markVisible touches flags) :=
      .of_same rfl rfl rfl rfl rfl
    exact (((markVisible_repaints l touches flags).trans hs).trans hsame).trans hup
  · rw [heq]
    refine ⟨fun r item hr => ?_, Or.inr ⟨rfl, fun r item hr => ?_⟩⟩ <;>
      · change l.list = [] at hnil
        simp [visible, hnil] at hr

theorem content_setAddressData {st : ConnectionStorage} {a : Address} {d : AddressData}
    {col : Column} (h : c.hasAddr a = true ∧ (addressFlags a c).test col.flag = false ∨
      c.hasAddr a = false) : content (st.setAddressData a d) c col = content st c col := by
  have hne : ∀ b, b ≠ a → (st.setAddressData a d).addressData b = st.addressData b := fun b =>
    ConnectionStorage.addressData_setAddressData_ne d
  have hsrc : col = .srcAddress → c.srcAddr ≠ a := by
    rintro rfl heq
    rcases h with ⟨-, h⟩ | h
    · rw [addressFlags, if_pos heq, Flags.test_or, Bool.or_eq_false_iff] at h
      exact absurd h.1 (by decide)
    · simp [Connection.hasAddr, heq] at h
  have hdst : col = .dstAddress → c.dstAddr ≠ a := by
    rintro rfl heq
    rcases h with ⟨-, h⟩ | h
    · rw [addressFlags, if_pos heq, Flags.test_or, Bool.or_eq_false_iff] at h
      exact absurd h.2 (by decide)
    · simp [Connection.hasAddr, heq] at h
  cases col with
  | srcAddress => simp only [content, hne _ (hsrc rfl)]
  | dstAddress => simp only [content, hne _ (hdst rfl)]
  | _ => rfl

theorem content_setPortData {st : ConnectionStorage} {p : Port} {d : PortData} {col : Column}
    (h : (c.hasPorts && c.hasPort p) = true ∧ (portFlags p c).test col.flag = false ∨
      (c.hasPorts && c.hasPort p) = false) :
    content (st.setPortData p d) c col = content st c col := by
  have hne : ∀ q, q ≠ p → (st.setPortData p d).portData q = st.portData q := fun q =>
    ConnectionStorage.portData_setPortData_ne d
  have hsrc : col = .srcPort → c.srcPort ≠ p := by
    rintro rfl heq
    rcases h with ⟨-, h⟩ | h
    · rw [portFlags, if_pos c.hasPorts_eq, if_pos heq, Flags.test_or, Bool.or_eq_false_iff] at h
      exact absurd h.1 (by decide)
    · simp [Connection.hasPort, heq] at h
  have hdst : col = .dstPort → c.dstPort ≠ p := by
    rintro rfl heq
    rcases h with ⟨-, h⟩ | h
    · rw [portFlags, if_pos c.hasPorts_eq, if_pos heq, Flags.test_or, Bool.or_eq_false_iff] at h
      exact absurd h.2 (by decide)
    · simp [Connection.hasPort, heq] at h
  cases col with
  | srcPort => simp only [content, hne _ (hsrc rfl)]
  | dstPort => simp only [content, hne _ (hdst rfl)]
  | _ => rfl

theorem resolverCallbackAddress_repaints (S : StdSort) (l : ConnectionList) (a : Address)
    (resolved : ResolvedAddress) : Repaints l (l.resolverCallbackAddress S a resolved) := by
  unfold resolverCallbackAddress addressDataUpdated
  obtain ⟨f, hf⟩ := markDetail_eq { l with
    storage := l.setResolvedAddress a resolved
    dataResolvedCount := l.dataResolvedCount + 1 } (addressFlags a)
  rw [hf]
  exact resolve_repaints (l := l) fun c col h => content_setAddressData h

theorem resolverCallbackPort_repaints (S : StdSort) (l : ConnectionList) (p : Port)
    (resolved : ResolvedPort) : Repaints l (l.resolverCallbackPort S p resolved) := by
  unfold resolverCallbackPort portDataUpdated
  obtain ⟨f, hf⟩ := markDetail_eq { l with
    storage := l.setResolvedPort p resolved
    dataResolvedCount := l.dataResolvedCount + 1 } (portFlags p)
  rw [hf]
  exact resolve_repaints (l := l) fun c col h => content_setPortData h

theorem dataUpdated_repaints_of_same (S : StdSort) (l : ConnectionList) (mayAffectOrder : Bool)
    (touches : Connection → Bool) (flags : Connection → Flags) :
    Repaints l ((l.markDetail flags).dataUpdated S mayAffectOrder touches flags) := by
  obtain ⟨f, hf⟩ := markDetail_eq l flags
  rw [hf]
  exact resolve_repaints (l := l) fun _ _ _ => rfl

/-! ## The user interface -/

/-- Scrolling moves all rows and invalidates them, unless there is nothing to scroll to. -/
theorem doScroll_repaints (l : ConnectionList) (amount : ℤ) :
    l.doScroll amount = l ∧
        ¬ (amount < 0 ∧ 0 < l.scrollOffset ∨
          0 < amount ∧ l.list.length < l.storage.getConnectionCount) ∨
      ∀ l' : ConnectionList, Repaints l' (l.doScroll amount) := by
  unfold doScroll
  simp only
  split_ifs with h1 h2 h2
  · exact Or.inr fun l' => invalidateAllVisible_repaints _
  · exact Or.inl ⟨rfl, by omega⟩
  · exact Or.inr fun l' => (invalidateAllVisible_repaints _).trans (fill_repaints _)
  · exact Or.inl ⟨rfl, by omega⟩

theorem moveCursor_repaints (l : ConnectionList) (amount : ℤ) :
    Repaints l (l.moveCursor amount) := by
  have hscroll : ∀ (pos : ℕ) (n : ℤ), (n < 0 ∧ 0 < l.scrollOffset ∨
      0 < n ∧ l.list.length < l.storage.getConnectionCount) →
      Repaints l ({ l with cursorPos := pos }.doScroll n) := fun pos n hn => by
    rcases doScroll_repaints { l with cursorPos := pos } n with ⟨-, h⟩ | h
    · exact absurd hn h
    · exact h l
  unfold moveCursor
  simp only
  split_ifs with h1 h2 h3 h4 h5 h6
  · exact hscroll 0 _ (Or.inl ⟨by omega, h2.2⟩)
  · exact setCursorPos_repaints l _
  · exact .refl l
  · exact hscroll _ _ (Or.inr ⟨by omega, h5.2⟩)
  · exact setCursorPos_repaints l _
  · exact .refl l
  · exact .refl l

theorem setTargetSize_repaints (l : ConnectionList) (size : ℕ) :
    Repaints l (l.setTargetSize size) := by
  unfold setTargetSize
  split_ifs
  · exact .refl l
  · have h : Repaints l { l with targetSize := size } := .of_same rfl rfl rfl rfl rfl
    refine (h.trans ?_).trans (clampCursor_repaints _)
    unfold resize
    simp only
    split_ifs
    · exact take_repaints { l with targetSize := size } _
    · exact fill_repaints _
    · exact .refl _

theorem setSortMode_repaints (l : ConnectionList) (mode : EConnectionSortMode)
    (isAscending : Bool) : Repaints l (l.setSortMode mode isAscending) := by
  unfold setSortMode
  split_ifs
  · exact .refl l
  · refine ⟨.trans ?_ (.trans (fill_repaints _).rows (.of_refresh _ true)), Or.inl rfl⟩
    intro r item h
    simp [visible] at h

/-- **Every operation flags what it changes on the screen.** -/
theorem step_repaints (S : StdSort) (inet : InetText) (hi : Inv l) (op : Op)
    (h : Allowed l op) : Repaints l (step S inet l op) := by
  cases op with
  | getAddress a add => exact (getAddress_same hi.ends inet a add).repaints hi
  | getPort p add => exact (getPort_same hi.ends p add).repaints hi
  | add c d =>
    show Repaints l (if l.storage.HasEnds c then l.add c d else l)
    split_ifs
    · exact add_repaints hi c d
    · exact .refl l
  | change c d flags =>
    show Repaints l (if c ∈ l.storage.connectionMap then l.change S c d flags else l)
    split_ifs
    · exact change_repaints hi h
    · exact .refl l
  | remove c => exact remove_repaints hi c
  | clear => exact clear_repaints l
  | resolveAddress a resolved => exact resolverCallbackAddress_repaints S l a resolved
  | resolvePort p resolved => exact resolverCallbackPort_repaints S l p resolved
  | addressDataUpdated a => exact dataUpdated_repaints_of_same S l _ _ _
  | portDataUpdated p => exact dataUpdated_repaints_of_same S l _ _ _
  | getNextUpdate => exact absurd h id
  | invalidateAllVisible => exact invalidateAllVisible_repaints l
  | invalidateCursor => exact cursor_repaints l l.cursorPos fun r item h _ h' => absurd h h'
  | moveCursor amount => exact moveCursor_repaints l amount
  | doScroll amount =>
    rcases doScroll_repaints l amount with ⟨h, -⟩ | h
    · exact (show step S inet l (.doScroll amount) = l from h).symm ▸ .refl l
    · exact h l
  | initConnectionDetail => exact .of_same rfl rfl rfl rfl rfl
  | resetConnectionDetailRefresh => exact .of_same rfl rfl rfl rfl rfl
  | setTargetSize size => exact setTargetSize_repaints l size
  | setSortMode mode isAscending => exact setSortMode_repaints l mode isAscending
  | rehash m => exact (rehash_same l m).repaints hi

/-! ## Drains -/

/-- How many visible rows wait for an update. -/
def waiting (l : ConnectionList) : ℕ :=
  ((l.list.drop l.getListBeginIt).filter (·.isRefreshRequired)).length

theorem waiting_le (l : ConnectionList) : l.waiting ≤ l.getSize := by
  refine (List.length_filter_le _ _).trans ?_
  rw [List.length_drop, getListBeginIt_eq, getSize_eq]
  omega

theorem begin_of_visible {r : ℕ} {item : Item} (hr : l.visible r = some item) :
    l.getListBeginIt = l.scrollOffset := by
  have := lt_length_of_visible hr
  rw [getListBeginIt_eq]
  omega

theorem length_filter_clearItem {items : List Item} {i : ℕ} {item : Item}
    (h : items[i]? = some item) (hi : item.isRefreshRequired = true) :
    ((items.modify i clearItem).filter (·.isRefreshRequired)).length + 1 =
      (items.filter (·.isRefreshRequired)).length := by
  obtain ⟨hlt, hget⟩ := List.getElem?_eq_some_iff.mp h
  have hsplit : items = items.take i ++ item :: items.drop (i + 1) := by
    rw [← hget, List.getElem_cons_drop, List.take_append_drop]
  have hmodify : items.modify i clearItem =
      items.take i ++ clearItem item :: items.drop (i + 1) := by
    rw [List.modify_eq_take_cons_drop hlt, hget]
  rw [hmodify]
  conv_rhs => rw [hsplit]
  simp [hi, clearItem]
  omega

/-- An update is made from the first visible item that requires one. -/
theorem getNextUpdate_some {u : ConnectionListUpdate} (h : l.getNextUpdate = (l', some u)) :
    ∃ row item, l.visible row = some item ∧ item.isRefreshRequired = true ∧
      l' = { l with list := l.list.modify (l.scrollOffset + row) clearItem } ∧
      u = ⟨item.pConnection, item.updateFlags, row, row == l.cursorPos⟩ ∧
      l.isRefreshRequired = true := by
  unfold getNextUpdate at h
  simp only at h
  by_cases hr : l.isRefreshRequired = true
  swap
  · simp [hr] at h
  rw [if_pos hr] at h
  split at h
  · next row hrow =>
    obtain ⟨hlt, hget, -⟩ := List.findIdx?_eq_some_iff_getElem.mp hrow
    rw [List.getElem_drop] at hget
    rw [List.length_drop] at hlt
    have hbegin : l.getListBeginIt = l.scrollOffset := by
      rw [getListBeginIt_eq] at hlt ⊢
      omega
    simp only [hbegin] at h hlt hget
    have hlen : l.scrollOffset + row < l.list.length := by omega
    simp only [List.getElem?_eq_getElem hlen, Prod.mk.injEq, Option.some.injEq] at h
    exact ⟨row, _, List.getElem?_eq_getElem hlen, hget, h.1.symm, h.2.symm, hr⟩
  · simp at h

theorem getNextUpdate_none (hr : ∀ r item, l.visible r = some item →
      item.isRefreshRequired = true → l.isRefreshRequired = true)
    (h : l.getNextUpdate = (l', none)) :
    (l' = l ∨ l' = { l with isRefreshRequired := false }) ∧
      ∀ r item, l.visible r = some item → item.isRefreshRequired = false := by
  unfold getNextUpdate at h
  simp only at h
  split_ifs at h with hreq
  · split at h
    · next row hrow =>
      obtain ⟨hlt, -, -⟩ := List.findIdx?_eq_some_iff_getElem.mp hrow
      rw [List.length_drop] at hlt
      rw [List.getElem?_eq_getElem (by omega)] at h
      simp at h
    · next hnone =>
      simp only [Prod.mk.injEq, and_true] at h
      refine ⟨Or.inr h.symm, fun r item hv => ?_⟩
      rw [List.findIdx?_eq_none_iff, begin_of_visible hv] at hnone
      exact hnone item (List.mem_iff_getElem?.mpr ⟨r, by rw [List.getElem?_drop]; exact hv⟩)
  · simp only [Prod.mk.injEq, and_true] at h
    refine ⟨Or.inl h.symm, fun r item hv => ?_⟩
    by_contra hi
    exact hreq (hr r item hv (by simpa using hi))

/-- Painting an update leaves one row less waiting. -/
theorem Painted.paint {s : Screen} {u : ConnectionListUpdate} (hp : Painted l s)
    (h : l.getNextUpdate = (l', some u)) :
    Painted l' (paint s l'.storage u) ∧ l'.waiting + 1 = l.waiting ∧ l'.cursorPos = l.cursorPos := by
  obtain ⟨row, item, hv, hi, rfl, rfl, hreq⟩ := getNextUpdate_some h
  have hvis : ∀ r, visible { l with list := l.list.modify (l.scrollOffset + row) clearItem } r =
      if r = row then some (clearItem item) else l.visible r := fun r => by
    unfold visible at hv ⊢
    have hiff : l.scrollOffset + row = l.scrollOffset + r ↔ r = row := by omega
    simp only [List.getElem?_modify, hiff]
    split_ifs with hrow
    · rw [hrow, hv]; rfl
    · cases l.list[l.scrollOffset + r]? <;> rfl
  refine ⟨⟨fun r x hx col hd => ?_, fun r x hx hi' => ?_, fun _ _ _ _ => hreq⟩, ?_, rfl⟩
  · rw [hvis] at hx
    unfold Conntop.paint
    split_ifs at hx with hrow
    · subst hrow
      rw [Function.update_self, ← Option.some.inj hx]
      simp only
      split_ifs with hf
      · rfl
      · exact hp.cells r item hv col (by simp [dirty, hf])
    · rw [Function.update_of_ne hrow]
      exact hp.cells r x hx col hd
  · rw [hvis] at hx
    unfold Conntop.paint
    split_ifs at hx with hrow
    · rw [hrow, Function.update_self]
    · rw [Function.update_of_ne hrow]
      exact hp.cursor r x hx hi'
  · have hb := begin_of_visible hv
    have hb' : getListBeginIt { l with list := l.list.modify (l.scrollOffset + row) clearItem } =
        l.getListBeginIt := by
      simp only [getListBeginIt_eq, List.length_modify]
    unfold waiting
    rw [hb', hb, List.drop_modify_of_ge _ _ _ _ (Nat.le_add_right _ _), Nat.add_sub_cancel_left]
    exact length_filter_clearItem (by rw [List.getElem?_drop]; exact hv) hi

/-- A row that waits for no update is as a full repaint leaves it. -/
theorem Painted.row {s : Screen} (hp : Painted l s) {r : ℕ} {item : Item}
    (hv : l.visible r = some item) (hi : item.isRefreshRequired = false) :
    s r = l.fullRow r item.pConnection := by
  refine Row.ext (funext fun col => hp.cells r item hv col ?_) (hp.cursor r item hv hi)
  simp [dirty, hi]

/-- After the last update no row waits. -/
theorem painted_of_none {s : Screen} (hp : Painted l s) (h : l.getNextUpdate = (l', none)) :
    Painted l' s ∧ ∀ r item, l'.visible r = some item → s r = l'.fullRow r item.pConnection := by
  obtain ⟨hl, hnone⟩ := getNextUpdate_none hp.refresh h
  rcases hl with rfl | rfl
  · exact ⟨hp, fun r item hv => hp.row hv (hnone r item hv)⟩
  · refine ⟨⟨hp.cells, hp.cursor, fun r item hv hi => ?_⟩, fun r item hv =>
      hp.row (l := l) hv (hnone r item hv)⟩
    rw [hnone r item hv] at hi
    exact absurd hi (by decide)

theorem drain_of_none {s : Screen} (n : ℕ) (h : l.getNextUpdate = (l', none)) :
    drain n l s = some (l', s) := by
  cases n <;> simp [drain, h]

theorem drain_of_some {s : Screen} {u : ConnectionListUpdate} (n : ℕ)
    (h : l.getNextUpdate = (l', some u)) :
    drain (n + 1) l s = drain n l' (paint s l'.storage u) := by
  conv_lhs => unfold drain
  rw [h]

/-- **A drain ends after as many updates as rows are waiting, and leaves the screen of a full
repaint.** -/
theorem drain_spec (n : ℕ) : ∀ {l : ConnectionList} {s : Screen}, Inv l → Painted l s →
    l.waiting ≤ n → ∃ l' s', drain n l s = some (l', s') ∧ Inv l' ∧ Painted l' s' ∧
      ∀ r item, l'.visible r = some item → s' r = l'.fullRow r item.pConnection := by
  induction n with
  | zero =>
    intro l s hi hp hn
    obtain ⟨l', u, hnext⟩ : ∃ l' u, l.getNextUpdate = (l', u) := ⟨_, _, rfl⟩
    have hi' : Inv l' := by simpa [hnext] using (getNextUpdate_relist l).inv_of_keys hi
    cases u with
    | none => exact ⟨l', s, drain_of_none 0 hnext, hi', painted_of_none hp hnext⟩
    | some u =>
      have := (hp.paint hnext).2.1
      omega
  | succ n ih =>
    intro l s hi hp hn
    obtain ⟨l', u, hnext⟩ : ∃ l' u, l.getNextUpdate = (l', u) := ⟨_, _, rfl⟩
    have hi' : Inv l' := by simpa [hnext] using (getNextUpdate_relist l).inv_of_keys hi
    cases u with
    | none => exact ⟨l', s, drain_of_none (n + 1) hnext, hi', painted_of_none hp hnext⟩
    | some u =>
      obtain ⟨hp', hw, -⟩ := hp.paint hnext
      rw [drain_of_some n hnext]
      exact ih hi' hp' (by omega)

/-! ## Runs -/

/-- What holds of the list and the screen between events. -/
theorem screenRun_inv (S : StdSort) (inet : InetText) (events : List Event) :
    ∀ {l : ConnectionList} {s : Screen}, Inv l → Painted l s →
      ∃ l' s', screenRun S inet (l, s) events = some (l', s') ∧ Inv l' ∧ Painted l' s' := by
  induction events with
  | nil => exact fun hi hp => ⟨_, _, rfl, hi, hp⟩
  | cons e events ih =>
    intro l s hi hp
    have hstep : ∃ l' s', screenStep S inet (l, s) e = some (l', s') ∧ Inv l' ∧ Painted l' s' := by
      cases e with
      | op op =>
        refine ⟨_, _, rfl, ?_⟩
        split_ifs with h
        · exact ⟨step_inv S inet hi op, (step_repaints S inet hi op h).painted hp⟩
        · exact ⟨hi, hp⟩
      | drain =>
        obtain ⟨l', s', h, hi', hp', -⟩ := drain_spec l.getSize hi hp l.waiting_le
        exact ⟨l', s', h, hi', hp'⟩
    obtain ⟨l', s', h, hi', hp'⟩ := hstep
    obtain ⟨l'', s'', h', hrest⟩ := ih hi' hp'
    refine ⟨l'', s'', ?_, hrest⟩
    unfold screenRun
    rw [List.foldlM_cons, h]
    exact h'

/-- **Incremental repaint equals full repaint.** In every sequence of operations and drains,
each drain ends after at most as many updates as there are visible rows, and after it every
visible row shows the current data of its connection and the cursor where the cursor is. -/
theorem run_painted (S : StdSort) (inet : InetText) (s : Screen) (events : List Event) :
    ∃ l' s', screenRun S inet ({}, s) (events ++ [.drain]) = some (l', s') ∧
      ∀ r < l'.getSize, ∃ item, l'.list[l'.scrollOffset + r]? = some item ∧
        s' r = l'.fullRow r item.pConnection := by
  have hp : Painted {} s :=
    ⟨fun r item h => by simp [visible] at h, fun r item h => by simp [visible] at h, fun _ _ _ _ => rfl⟩
  obtain ⟨l, s₁, hrun, hi, hp₁⟩ := screenRun_inv S inet events .init hp
  obtain ⟨l', s', hdrain, -, -, hrows⟩ := drain_spec l.getSize hi hp₁ l.waiting_le
  refine ⟨l', s', ?_, fun r hr => ?_⟩
  · unfold screenRun at hrun ⊢
    rw [List.foldlM_append, hrun]
    simp [screenStep, hdrain]
  · rw [getSize_eq] at hr
    have hlen : l'.scrollOffset + r < l'.list.length := by omega
    exact ⟨_, List.getElem?_eq_getElem hlen, hrows r _ (List.getElem?_eq_getElem hlen)⟩

end ConnectionList

end Conntop
