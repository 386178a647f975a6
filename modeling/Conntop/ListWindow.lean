import Conntop.Inet
import Conntop.ListStep
import Conntop.Lib.GuardedRun
import Mathlib.Algebra.Ring.Int.Defs

/-!
# The visible part of the list and the cursor

What the user sees of `m_list` is the part from `m_scrollOffset` on, and what he acts on is the row
at `m_cursorPos` in it.

* `Redraws l l'`: `l'` is `l` with another `m_list`. The private operations do no more than that, so
  only few calls change how many connections are stored, the window or the scroll offset.
* `Onscreen`: a shown list of a table with connections is not empty. Nothing takes the scroll
  offset back when connections are removed, so `KeepsOnscreen` is the condition under which a call
  keeps it, and `step_onscreen_iff` says that the condition is exact.
* `step?` does what `step` does with every step of the cursor's iterator checked.
* `moveCursor_absolutePos` is what `moveCursor` does with the position in the whole table.

Main results: `step_onscreen_iff`, `run?_eq`, no call steps past the end of the list, and
`moveCursor_absolutePos`.
-/

namespace Conntop

open SortedList

namespace ConnectionList

variable {l l' l'' : ConnectionList} {S : StdSort} {c : Connection}

/-! ## Operations that only change the list -/

/-- `l'` is `l` with another list and refresh flag. -/
def Redraws (l l' : ConnectionList) : Prop :=
  { l with list := l'.list, isRefreshRequired := l'.isRefreshRequired } = l'

theorem Redraws.refl (l : ConnectionList) : Redraws l l := rfl

theorem Redraws.of_list (l : ConnectionList) (items : List Item) (r : Bool) :
    Redraws l { l with list := items, isRefreshRequired := r } := rfl

theorem Redraws.trans (h : Redraws l l') (h' : Redraws l' l'') : Redraws l l'' := by
  unfold Redraws at *
  rw [← h', ← h]

theorem Redraws.storage (h : Redraws l l') : l'.storage = l.storage := by rw [← h]
theorem Redraws.targetSize (h : Redraws l l') : l'.targetSize = l.targetSize := by rw [← h]
theorem Redraws.scrollOffset (h : Redraws l l') : l'.scrollOffset = l.scrollOffset := by rw [← h]
theorem Redraws.connectionDetail (h : Redraws l l') : l'.connectionDetail = l.connectionDetail := by
  rw [← h]
theorem Redraws.detailFlags (h : Redraws l l') :
    l'.connectionDetailUpdateFlags = l.connectionDetailUpdateFlags := by rw [← h]

/-- One connection after the other. -/
theorem redraws_foldl {f : ConnectionList → Connection → ConnectionList}
    (hf : ∀ l c, Redraws l (f l c)) (cs : List Connection) : ∀ l, Redraws l (cs.foldl f l) := by
  induction cs with
  | nil => exact fun l => .refl l
  | cons c cs ih => exact fun l => (hf l c).trans (ih _)

theorem invalidateCursor_redraws (l : ConnectionList) : Redraws l l.invalidateCursor := by
  unfold invalidateCursor
  split_ifs <;> rfl

theorem popOverfull_redraws (l : ConnectionList) : Redraws l l.popOverfull := by
  unfold popOverfull
  split_ifs <;> rfl

theorem insertItem_redraws (l : ConnectionList) (item : Item) : Redraws l (l.insertItem item) := by
  have h : Redraws l { l with
      list := l.list.insertIdx (upperBound l.compareItem item l.list) item }.popOverfull :=
    (Redraws.of_list l _ l.isRefreshRequired).trans (popOverfull_redraws _)
  exact h.trans (.of_list _ _ true)

theorem fillItem_redraws (l : ConnectionList) (c : Connection) : Redraws l (l.fillItem c) := by
  unfold fillItem
  simp only
  split_ifs
  · exact .refl l
  · exact insertItem_redraws l _
  · exact .refl l
  · exact .of_list l _ _
  · exact .refl l

theorem fillFirst_redraws (l : ConnectionList) : Redraws l l.fillFirst := by
  unfold fillFirst
  split_ifs <;> rfl

/-- `fill` only draws: it changes the list and the flags. -/
theorem fill_redraws (l : ConnectionList) : Redraws l l.fill := by
  unfold fill
  split_ifs
  · exact .refl l
  · have h := (fillFirst_redraws l).trans (redraws_foldl fillItem_redraws
      l.storage.connectionMap.keys _)
    exact h.trans (.of_list _ _ true)

theorem insertBetter_redraws (l : ConnectionList) (c : Connection) :
    Redraws l (l.insertBetter c) := by
  unfold insertBetter
  simp only
  split_ifs
  · exact .refl l
  · exact insertItem_redraws l _
  · exact .refl l

theorem handleNewConnection_redraws (l : ConnectionList) (c : Connection) :
    Redraws l (l.handleNewConnection c) := by
  unfold handleNewConnection
  simp only
  split_ifs
  · exact insertItem_redraws l _
  · exact .of_list l _ _
  · exact .refl l

theorem updateListed_redraws (S : StdSort) (i : ℕ) (item : Item) :
    Redraws l (l.updateListed S i item) := by
  have hsort : ∀ b : Bool, Redraws l (if b then l.sort S else l) := by
    intro b
    split_ifs <;> rfl
  have hfill : ∀ (b : Bool) l₁, Redraws l l₁ → Redraws l (if b then l₁.fill else l₁) := by
    intro b l₁ h
    split_ifs
    · exact h.trans (fill_redraws l₁)
    · exact h
  exact hfill _ _ (hsort _)

theorem update_redraws (S : StdSort) (c : Connection) (flags : Flags) :
    Redraws (l.setDetailFlags c flags) (l.update S c flags) := by
  unfold update
  simp only
  generalize l.setDetailFlags c flags = l₀
  split_ifs
  · exact .refl l₀
  · refine Redraws.trans ?_ (updateListed_redraws S _ _)
    unfold markItem
    split_ifs <;> rfl
  · exact insertItem_redraws l₀ _
  · exact .refl l₀

/-- New data of an address or a port moves rows, and leaves the window where it is. -/
theorem dataUpdated_redraws (S : StdSort) (mayAffectOrder : Bool) (touches : Connection → Bool)
    (flags : Connection → Flags) : Redraws l (l.dataUpdated S mayAffectOrder touches flags) := by
  have hmark : Redraws l (l.markVisible touches flags) := rfl
  unfold dataUpdated
  simp only
  generalize l.markVisible touches flags = l₁ at hmark ⊢
  split_ifs
  · exact .refl l
  · exact (hmark.trans (.of_list _ _ true)).trans (redraws_foldl insertBetter_redraws _ _)
  · exact hmark.trans (redraws_foldl insertBetter_redraws _ _)
  · exact hmark

/-! ## The window -/

/-- `l'` has the window and the number of connections of `l`. -/
structure SameWindow (l l' : ConnectionList) : Prop where
  targetSize : l'.targetSize = l.targetSize
  scrollOffset : l'.scrollOffset = l.scrollOffset
  count : l'.stored.length = l.stored.length

theorem Relist.sameWindow {ks : List Connection} (h : Relist l ks l') : SameWindow l l' :=
  ⟨h.targetSize, h.scrollOffset, congrArg List.length h.stored⟩

theorem SameList.sameWindow (h : SameList l l') : SameWindow l l' :=
  ⟨h.targetSize, h.scrollOffset, h.stored.length_eq⟩

theorem Redraws.sameWindow (h : Redraws l l') : SameWindow l l' := by
  refine ⟨h.targetSize, h.scrollOffset, ?_⟩
  unfold stored
  rw [h.storage]

theorem change_sameWindow (l : ConnectionList) (c : Connection) (d : ConnectionData)
    (flags : Flags) : SameWindow l (l.change S c d flags) := by
  have h := (setDetailFlags_relist { l with storage := l.storage.setConnectionData c d } c
    flags).sameWindow
  have h' := (update_redraws (l := { l with storage := l.storage.setConnectionData c d }) S c
    flags).sameWindow
  refine ⟨h'.targetSize.trans h.targetSize, h'.scrollOffset.trans h.scrollOffset, ?_⟩
  rw [ConnectionList.change, h'.count, h.count, stored_setConnectionData]

theorem markedUpdated_sameWindow (l : ConnectionList) (mayAffectOrder : Bool)
    (touches : Connection → Bool) (flags : Connection → Flags) :
    SameWindow l ((l.markDetail flags).dataUpdated S mayAffectOrder touches flags) := by
  obtain ⟨f, hf⟩ := markDetail_eq l flags
  rw [hf]
  have h := (dataUpdated_redraws (l := { l with connectionDetailUpdateFlags := f }) S
    mayAffectOrder touches flags).sameWindow
  exact ⟨h.targetSize, h.scrollOffset, h.count⟩

/-- Another height leaves the offset as it is, so it may be behind the list then. -/
theorem setTargetSize_window (l : ConnectionList) (size : ℕ) :
    SameWindow { l with targetSize := size } (l.setTargetSize size) := by
  by_cases hsize : l.targetSize = size
  · unfold setTargetSize
    rw [if_pos hsize]
    exact ⟨hsize, rfl, rfl⟩
  · obtain ⟨l₁, pos, h₁, -, h₂⟩ := setTargetSize_relist l hsize
    exact ⟨h₂.targetSize.trans h₁.targetSize, h₂.scrollOffset.trans h₁.scrollOffset,
      congrArg List.length (h₂.stored.trans h₁.stored)⟩

theorem setSortMode_sameWindow (l : ConnectionList) (mode : EConnectionSortMode)
    (isAscending : Bool) : SameWindow l (l.setSortMode mode isAscending) := by
  rcases setSortMode_relist l mode isAscending with h | h
  · rw [h]
    exact ⟨rfl, rfl, rfl⟩
  · exact ⟨h.targetSize, h.scrollOffset, congrArg List.length h.stored⟩

/-- A removal leaves the offset as it is, with one connection less. -/
theorem remove_window (hc : c ∈ l.stored) : (l.remove c).targetSize = l.targetSize ∧
    (l.remove c).scrollOffset = l.scrollOffset ∧
    (l.remove c).stored.length = l.stored.length - 1 := by
  rw [remove_eq, if_pos hc]
  obtain ⟨l₁, pos, h₁, -, h₂⟩ :=
    handleRemoved_relist { l with storage := (l.storage.removeConnection c).1 } c
  obtain ⟨d, flags, hd, -⟩ :=
    removeDetail_eq { l with storage := (l.storage.removeConnection c).1 } c
  rw [hd] at h₁
  refine ⟨h₂.targetSize.trans h₁.targetSize, h₂.scrollOffset.trans h₁.scrollOffset, ?_⟩
  have hst := (h₂.stored.trans h₁.stored).trans (stored_removeConnection l c)
  rw [hst, List.length_erase_of_mem hc]

/-- A new connection leaves the offset as it is. -/
theorem add_window (d : ConnectionData) (hc : c ∉ l.stored) :
    (l.add c d).targetSize = l.targetSize ∧ (l.add c d).scrollOffset = l.scrollOffset ∧
      (l.add c d).stored.length = l.stored.length + 1 := by
  have h := (add_relist l d hc).sameWindow
  refine ⟨h.targetSize, h.scrollOffset, ?_⟩
  rw [h.count, stored_addConnection l d hc, List.length_cons]

/-! ## A connection on the screen -/

/-- The scroll offset is not beyond the connections of a shown table. -/
def Onscreen (l : ConnectionList) : Prop :=
  0 < l.storage.getConnectionCount → 0 < l.targetSize →
    l.scrollOffset < l.storage.getConnectionCount

/-- Something is shown while the offset is less than the number of connections. -/
theorem onscreen_iff : Onscreen l ↔
    (0 < l.stored.length → 0 < l.targetSize → l.scrollOffset < l.stored.length) := by
  unfold Onscreen
  rw [getConnectionCount_eq]

/-- The visible part of a full list is empty when the scroll offset is beyond the connections. -/
theorem Inv.onscreen_iff (hi : Inv l) : Onscreen l ↔
    (0 < l.storage.getConnectionCount → 0 < l.targetSize → 0 < l.getSize) := by
  unfold Onscreen
  rw [getConnectionCount_eq, getSize_eq]
  have hfull := hi.full
  rw [length_keys, cap] at hfull
  constructor
  · intro h hn ht
    have := h hn ht
    have := hfull ht
    omega
  · intro h hn ht
    have := h hn ht
    have := hfull ht
    omega

theorem SameWindow.onscreen_iff (h : SameWindow l l') : Onscreen l' ↔ Onscreen l := by
  rw [ConnectionList.onscreen_iff, ConnectionList.onscreen_iff, h.count, h.targetSize,
    h.scrollOffset]

/-- The condition under which a call keeps a connection on the screen: nothing is added to an empty
table that is still scrolled, and neither a removal nor a window that is opened leaves the scroll
offset beyond the last connection. -/
def KeepsOnscreen (l : ConnectionList) : Op → Prop
  | .add c _ => l.storage.HasEnds c → l.storage.getConnectionCount = 0 → 0 < l.targetSize →
      l.scrollOffset = 0
  | .remove c => c ∈ l.storage.connectionMap → 1 < l.storage.getConnectionCount →
      0 < l.targetSize → l.scrollOffset + 1 < l.storage.getConnectionCount
  | .setTargetSize size => 0 < l.storage.getConnectionCount → 0 < size →
      l.scrollOffset < l.storage.getConnectionCount
  | _ => True

instance (l : ConnectionList) : DecidablePred (KeepsOnscreen l)
  | .add .. => inferInstanceAs (Decidable (_ → _ = _ → _ < _ → _ = _))
  | .remove _ => inferInstanceAs (Decidable (_ ∈ _ → _ < _ → _ < _ → _ < _))
  | .setTargetSize _ => inferInstanceAs (Decidable (_ < _ → _ < _ → _ < _))
  | .getAddress .. | .getPort .. | .change .. | .clear | .resolveAddress .. | .resolvePort ..
  | .addressDataUpdated _ | .portDataUpdated _ | .getNextUpdate | .invalidateAllVisible
  | .invalidateCursor | .moveCursor _ | .doScroll _ | .initConnectionDetail
  | .resetConnectionDetailRefresh | .setSortMode .. | .rehash _ => inferInstanceAs (Decidable True)

/-- Scrolling stops where the list ends. -/
theorem doScroll_onscreen (hi : Inv l) (ho : Onscreen l) (amount : ℤ) :
    Onscreen (l.doScroll amount) := by
  rw [onscreen_iff] at ho ⊢
  have hfull := hi.full
  rw [length_keys, cap] at hfull
  rcases doScroll_cases l amount with h | ⟨s, hs, h⟩ | ⟨k, -, hk, h⟩
  · rwa [h]
  · have hw := h.sameWindow
    rw [hw.count, hw.targetSize, hw.scrollOffset]
    exact fun hn ht => hs.trans (ho hn ht)
  · have hw := h.sameWindow
    rw [hw.count, hw.targetSize, hw.scrollOffset]
    intro hn ht
    have h1 : l.scrollOffset < l.stored.length := ho hn ht
    have h2 : l.list.length = min (l.scrollOffset + l.targetSize) l.stored.length := hfull ht
    have h3 : 0 < l.targetSize := ht
    show l.scrollOffset + k < l.stored.length
    omega

theorem moveCursor_onscreen (hi : Inv l) (ho : Onscreen l) (amount : ℤ) :
    Onscreen (l.moveCursor amount) := by
  rcases moveCursor_cases l amount hi.cursor_le with h | ⟨pos, hpos, h | ⟨n, h⟩⟩
  · rwa [h]
  · rw [h]
    have hw := (setCursorPos_relist l pos).sameWindow
    exact SameWindow.onscreen_iff ⟨hw.targetSize, hw.scrollOffset, hw.count⟩ |>.mpr ho
  · rw [h]
    exact doScroll_onscreen (hi.setCursor hpos) ho n

/-- Only the first connection of a table can be above the window. -/
theorem add_onscreen_iff (ho : Onscreen l) (d : ConnectionData) :
    Onscreen (l.add c d) ↔ (l.stored = [] → 0 < l.targetSize → l.scrollOffset = 0) := by
  by_cases hc : c ∈ l.stored
  · rw [add_eq, if_pos hc]
    exact iff_of_true ho fun h => absurd hc (h ▸ List.not_mem_nil)
  · obtain ⟨h1, h2, h3⟩ := add_window d hc
    rw [onscreen_iff] at ho ⊢
    rw [h1, h2, h3, ← List.length_eq_zero_iff]
    constructor
    · intro h hn ht
      have := h (Nat.succ_pos _) ht
      omega
    · intro h _ ht
      rcases Nat.eq_zero_or_pos l.stored.length with hn | hn
      · have := h hn ht
        omega
      · have := ho hn ht
        omega

/-- With one connection less there must still be more than the offset. -/
theorem remove_onscreen_iff (ho : Onscreen l) : Onscreen (l.remove c) ↔
    (c ∈ l.stored → 1 < l.stored.length → 0 < l.targetSize →
      l.scrollOffset + 1 < l.stored.length) := by
  by_cases hc : c ∈ l.stored
  · obtain ⟨h1, h2, h3⟩ := remove_window hc
    rw [onscreen_iff, h1, h2, h3]
    constructor
    · intro h _ hn ht
      have := h (by omega) ht
      omega
    · intro h hn ht
      have := h hc (by omega) ht
      omega
  · rw [remove_eq, if_neg hc]
    exact iff_of_true ho fun h => absurd h hc

/-- **A call keeps a connection on the screen exactly under the condition.** -/
theorem step_onscreen_iff (S : StdSort) (inet : InetText) (hi : Inv l) (ho : Onscreen l) (op : Op) :
    Onscreen (step S inet l op) ↔ KeepsOnscreen l op := by
  cases op with
  | add c d =>
    show Onscreen (if l.storage.HasEnds c then l.add c d else l) ↔
      (l.storage.HasEnds c → l.storage.getConnectionCount = 0 → 0 < l.targetSize → _)
    rw [getConnectionCount_eq, List.length_eq_zero_iff]
    split_ifs with hc
    · rw [add_onscreen_iff ho]
      exact ⟨fun h _ => h, fun h => h hc⟩
    · exact iff_of_true ho fun h => absurd h hc
  | remove c =>
    show _ ↔ (c ∈ l.storage.connectionMap → 1 < l.storage.getConnectionCount →
      0 < l.targetSize → l.scrollOffset + 1 < l.storage.getConnectionCount)
    rw [getConnectionCount_eq]
    exact remove_onscreen_iff ho
  | setTargetSize size =>
    exact (setTargetSize_window l size).onscreen_iff
  | clear => exact iff_of_true (fun h => by
      simp [step, clear, ConnectionStorage.clearConnections, ConnectionStorage.getConnectionCount]
        at h) trivial
  | moveCursor amount => exact iff_of_true (moveCursor_onscreen hi ho amount) trivial
  | doScroll amount => exact iff_of_true (doScroll_onscreen hi ho amount) trivial
  | getAddress a add =>
    exact iff_of_true ((getAddress_same hi.ends inet a add).sameWindow.onscreen_iff.mpr ho) trivial
  | getPort p add =>
    exact iff_of_true ((getPort_same hi.ends p add).sameWindow.onscreen_iff.mpr ho) trivial
  | change c d flags =>
    refine iff_of_true ?_ trivial
    show Onscreen (if c ∈ l.storage.connectionMap then l.change S c d flags else l)
    split_ifs
    · exact (change_sameWindow l c d flags).onscreen_iff.mpr ho
    · exact ho
  | resolveAddress a resolved =>
    refine iff_of_true ?_ trivial
    exact (markedUpdated_sameWindow { l with
      storage := l.setResolvedAddress a resolved
      dataResolvedCount := l.dataResolvedCount + 1 } _ _ _).onscreen_iff.mpr ho
  | resolvePort p resolved =>
    refine iff_of_true ?_ trivial
    exact (markedUpdated_sameWindow { l with
      storage := l.setResolvedPort p resolved
      dataResolvedCount := l.dataResolvedCount + 1 } _ _ _).onscreen_iff.mpr ho
  | addressDataUpdated a =>
    exact iff_of_true ((markedUpdated_sameWindow l _ _ _).onscreen_iff.mpr ho) trivial
  | portDataUpdated p =>
    exact iff_of_true ((markedUpdated_sameWindow l _ _ _).onscreen_iff.mpr ho) trivial
  | getNextUpdate =>
    exact iff_of_true ((getNextUpdate_relist l).sameWindow.onscreen_iff.mpr ho) trivial
  | invalidateAllVisible =>
    exact iff_of_true ((invalidateAllVisible_relist l).sameWindow.onscreen_iff.mpr ho) trivial
  | invalidateCursor =>
    exact iff_of_true ((invalidateCursor_relist l).sameWindow.onscreen_iff.mpr ho) trivial
  | initConnectionDetail => exact iff_of_true ho trivial
  | resetConnectionDetailRefresh => exact iff_of_true ho trivial
  | setSortMode mode isAscending =>
    exact iff_of_true ((setSortMode_sameWindow l mode isAscending).onscreen_iff.mpr ho) trivial
  | rehash m => exact iff_of_true ((rehash_same l m).sameWindow.onscreen_iff.mpr ho) trivial

/-! ## The cursor's iterator -/

/-- `getListBeginIt() + m_cursorPos`, `none` when no element is there. -/
def cursorIt (l : ConnectionList) : Option ℕ :=
  if l.getListBeginIt + l.cursorPos < l.list.length then some (l.getListBeginIt + l.cursorPos)
  else none

/-- An unsigned difference, `none` when it wraps. -/
def sub? (a b : ℕ) : Option ℕ := if b ≤ a then some (a - b) else none

def invalidateCursor? (l : ConnectionList) : Option ConnectionList :=
  if l.getListBeginIt = l.list.length then some l
  else l.cursorIt.map fun it => { l with
    list := l.list.modify it Item.invalidate
    isRefreshRequired := true }

def setCursorPos? (l : ConnectionList) (pos : ℕ) : Option ConnectionList :=
  l.invalidateCursor?.bind fun l => { l with cursorPos := pos }.invalidateCursor?

/-- `moveCursor`, with the subtractions of unsigned numbers checked. -/
def moveCursor? (l : ConnectionList) (amount : ℤ) : Option ConnectionList :=
  if amount < 0 then
    let maxAmount : ℤ := l.cursorPos
    if -amount > maxAmount ∧ 0 < l.scrollOffset then
      some ({ l with cursorPos := 0 }.doScroll (maxAmount + amount))
    else if 0 < l.cursorPos then
      l.setCursorPos? (l.cursorPos - min (-amount) maxAmount).toNat
    else some l
  else if 0 < amount then
    let maxPos := l.getCursorMaxPos
    (sub? maxPos l.cursorPos).bind fun maxAmount =>
      if amount > maxAmount ∧ l.list.length < l.storage.getConnectionCount then
        some ({ l with cursorPos := maxPos }.doScroll (amount - maxAmount))
      else if l.cursorPos < maxPos then
        l.setCursorPos? (l.cursorPos + min amount maxAmount).toNat
      else some l
  else some l

def clampCursor? (l : ConnectionList) : Option ConnectionList :=
  if l.cursorPos > l.getCursorMaxPos then
    { l with cursorPos := l.getCursorMaxPos }.invalidateCursor?
  else some l

def handleRemovedConnection? (l : ConnectionList) (c : Connection) : Option ConnectionList :=
  ((l.removeDetail c).eraseItem c).fill.clampCursor?.map fun l =>
    { l with isRefreshRequired := true }

def remove? (l : ConnectionList) (c : Connection) : Option ConnectionList :=
  let (storage, found) := l.storage.removeConnection c
  if found then { l with storage := storage }.handleRemovedConnection? c else some l

def initConnectionDetail? (l : ConnectionList) : Option ConnectionList :=
  if l.getListBeginIt = l.list.length then
    some { l with connectionDetail := none, connectionDetailUpdateFlags := -1 }
  else (l.cursorIt.bind (l.list[·]?)).map fun item =>
    { l with connectionDetail := some item.pConnection, connectionDetailUpdateFlags := -1 }

def setTargetSize? (l : ConnectionList) (size : ℕ) : Option ConnectionList :=
  if l.targetSize = size then some l else { l with targetSize := size }.resize.clampCursor?

/-- `step` with the steps of the cursor's iterator and the unsigned difference of `moveCursor`
checked. The other calls have neither. -/
def step? (S : StdSort) (inet : InetText) (l : ConnectionList) : Op → Option ConnectionList
  | .remove c => l.remove? c
  | .invalidateCursor => l.invalidateCursor?
  | .moveCursor amount => l.moveCursor? amount
  | .initConnectionDetail => l.initConnectionDetail?
  | .setTargetSize size => l.setTargetSize? size
  | op => some (step S inet l op)

/-- A cursor inside the visible part is on an element of the list. -/
theorem cursorIt_eq (hc : l.cursorPos ≤ l.getCursorMaxPos)
    (hb : l.getListBeginIt ≠ l.list.length) :
    l.cursorIt = some (l.getListBeginIt + l.cursorPos) := by
  rw [getCursorMaxPos_eq, getSize_eq] at hc
  unfold cursorIt
  rw [getListBeginIt_eq] at hb ⊢
  exact if_pos (by omega)

theorem invalidateCursor?_eq (hc : l.cursorPos ≤ l.getCursorMaxPos) :
    l.invalidateCursor? = some l.invalidateCursor := by
  unfold invalidateCursor? invalidateCursor
  split_ifs with hb
  · rfl
  · rw [cursorIt_eq hc hb, Option.map_some]

theorem Relist.getCursorMaxPos (h : Relist l l.keys l') :
    l'.getCursorMaxPos = l.getCursorMaxPos := by
  rw [getCursorMaxPos_eq, getCursorMaxPos_eq, getSize_eq, getSize_eq, ← length_keys, h.keys,
    length_keys, h.scrollOffset]

theorem setCursorPos?_eq (hc : l.cursorPos ≤ l.getCursorMaxPos) {pos : ℕ}
    (hpos : pos ≤ l.getCursorMaxPos) : l.setCursorPos? pos = some (l.setCursorPos pos) := by
  have h := (invalidateCursor_relist l).getCursorMaxPos
  unfold setCursorPos?
  rw [invalidateCursor?_eq hc, Option.bind_some]
  exact invalidateCursor?_eq (l := { l.invalidateCursor with cursorPos := pos }) (hpos.trans h.ge)

/-- The cursor is on a row, so no subtraction goes below 0. -/
theorem moveCursor?_eq (hc : l.cursorPos ≤ l.getCursorMaxPos) (amount : ℤ) :
    l.moveCursor? amount = some (l.moveCursor amount) := by
  unfold moveCursor? moveCursor sub?
  simp only [if_pos hc, Option.bind_some, Int.ofNat_sub hc]
  split_ifs
  · rfl
  · exact setCursorPos?_eq hc (by omega)
  · rfl
  · rfl
  · exact setCursorPos?_eq hc (by omega)
  · rfl
  · rfl

/-- A clamped cursor is inside the visible part wherever it was. -/
theorem clampCursor?_eq (l : ConnectionList) : l.clampCursor? = some l.clampCursor := by
  unfold clampCursor? clampCursor
  split_ifs
  · exact invalidateCursor?_eq (l := { l with cursorPos := l.getCursorMaxPos }) le_rfl
  · rfl

theorem remove?_eq (l : ConnectionList) (c : Connection) : l.remove? c = some (l.remove c) := by
  unfold remove? remove handleRemovedConnection? handleRemovedConnection
  simp only [clampCursor?_eq, Option.map_some]
  split_ifs <;> rfl

theorem initConnectionDetail?_eq (hc : l.cursorPos ≤ l.getCursorMaxPos) :
    l.initConnectionDetail? = some l.initConnectionDetail := by
  unfold initConnectionDetail? initConnectionDetail
  split_ifs with hb
  · rfl
  · have hit := cursorIt_eq hc hb
    have hlt : l.getListBeginIt + l.cursorPos < l.list.length := by
      unfold cursorIt at hit
      split_ifs at hit with h
      exact h
    rw [hit, Option.bind_some, List.getElem?_eq_getElem hlt]
    rfl

theorem setTargetSize?_eq (l : ConnectionList) (size : ℕ) :
    l.setTargetSize? size = some (l.setTargetSize size) := by
  unfold setTargetSize? setTargetSize
  rw [clampCursor?_eq]
  split_ifs <;> rfl

/-- No call steps past the end of the list. -/
theorem step?_eq (S : StdSort) (inet : InetText) (hi : Inv l) (op : Op) :
    step? S inet l op = some (step S inet l op) := by
  cases op with
  | remove c => exact remove?_eq l c
  | invalidateCursor => exact invalidateCursor?_eq hi.cursor_le
  | moveCursor amount => exact moveCursor?_eq hi.cursor_le amount
  | initConnectionDetail => exact initConnectionDetail?_eq hi.cursor_le
  | setTargetSize size => exact setTargetSize?_eq l size
  | _ => rfl

/-- No run subtracts below 0 or reads behind the list. -/
theorem run?_eq (S : StdSort) (inet : InetText) (ops : List Op) :
    ∀ l, Inv l → GuardedRun.run (step? S inet) l ops = some (run S inet l ops) := by
  induction ops with
  | nil => exact fun l _ => rfl
  | cons op ops ih =>
    intro l hi
    rw [GuardedRun.run_cons, step?_eq S inet hi op, Option.bind_some]
    exact ih _ (step_inv S inet hi op)

/-! ## Moving the cursor -/

theorem setCursorPos_scrollOffset (l : ConnectionList) (pos : ℕ) :
    (l.setCursorPos pos).scrollOffset = l.scrollOffset := (setCursorPos_relist l pos).scrollOffset

theorem setCursorPos_cursorPos (l : ConnectionList) (pos : ℕ) :
    (l.setCursorPos pos).cursorPos = pos := (setCursorPos_relist l pos).cursorPos

theorem doScroll_cursorPos (l : ConnectionList) (amount : ℤ) :
    (l.doScroll amount).cursorPos = l.cursorPos := by
  rcases doScroll_cases l amount with h | ⟨s, -, h⟩ | ⟨k, -, -, h⟩
  · rw [h]
  · exact h.cursorPos
  · exact h.cursorPos

/-- The offset goes on by the amount, as far as the table reaches. -/
theorem doScroll_scrollOffset (l : ConnectionList) (amount : ℤ) :
    (l.doScroll amount).scrollOffset =
      if amount < 0 then l.scrollOffset - min (-amount).toNat l.scrollOffset
      else l.scrollOffset + min amount.toNat (l.stored.length - l.list.length) := by
  unfold doScroll
  simp only [getConnectionCount_eq]
  split_ifs with h1 h2 h2
  · rfl
  · rw [Nat.eq_zero_of_not_pos h2, Nat.sub_zero]
  · exact (fill_redraws _).scrollOffset
  · rw [Nat.eq_zero_of_not_pos h2, Nat.add_zero]

/-- The position of the cursor in the whole table. -/
def absolutePos (l : ConnectionList) : ℕ := l.scrollOffset + l.cursorPos

/-- The position after `moveCursor`, in a shown list that is as long as the window and the table
allow. -/
theorem moveCursor_absolutePos (hi : Inv l) (ht : 0 < l.targetSize) (hs : 0 < l.getSize)
    (amount : ℤ) : ((l.moveCursor amount).absolutePos : ℤ) =
      max 0 (min (l.absolutePos + amount) (l.stored.length - 1)) := by
  have hc := hi.cursor_le
  have hfull := hi.full ht
  rw [length_keys, cap] at hfull
  unfold moveCursor absolutePos
  simp only [getConnectionCount_eq]
  rw [getCursorMaxPos_eq] at hc ⊢
  rw [getSize_eq] at hs hc ⊢
  split_ifs with h1 h2 h3 h4 h5 h6
  · -- the cursor stops at the top, and the rest of the way is scrolled
    rw [doScroll_scrollOffset, doScroll_cursorPos, if_pos (by omega)]
    show ((l.scrollOffset - min _ l.scrollOffset + 0 : ℕ) : ℤ) = _
    omega
  · rw [setCursorPos_scrollOffset, setCursorPos_cursorPos]
    omega
  · omega
  · -- the cursor stops at the bottom of a full window
    rw [doScroll_scrollOffset, doScroll_cursorPos, if_neg (by omega)]
    show ((l.scrollOffset + min _ (l.stored.length - l.list.length) +
      (l.list.length - l.scrollOffset - 1) : ℕ) : ℤ) = _
    omega
  · rw [setCursorPos_scrollOffset, setCursorPos_cursorPos]
    omega
  · omega
  · omega

theorem doScroll_storage (l : ConnectionList) (amount : ℤ) :
    (l.doScroll amount).storage = l.storage ∧ (l.doScroll amount).targetSize = l.targetSize := by
  rcases doScroll_cases l amount with h | ⟨s, -, h⟩ | ⟨k, -, -, h⟩
  · rw [h]
    exact ⟨rfl, rfl⟩
  · exact ⟨h.storage, h.targetSize⟩
  · exact ⟨h.storage, h.targetSize⟩

theorem moveCursor_storage (hc : l.cursorPos ≤ l.getCursorMaxPos) (amount : ℤ) :
    (l.moveCursor amount).storage = l.storage ∧
      (l.moveCursor amount).targetSize = l.targetSize := by
  rcases moveCursor_cases l amount hc with h | ⟨pos, hpos, h | ⟨n, h⟩⟩
  · rw [h]
    exact ⟨rfl, rfl⟩
  · rw [h]
    exact ⟨(setCursorPos_relist l pos).storage, (setCursorPos_relist l pos).targetSize⟩
  · rw [h]
    exact doScroll_storage _ n

end ConnectionList

end Conntop
