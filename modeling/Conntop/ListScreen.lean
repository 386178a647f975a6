import Conntop.ListRows
import Conntop.StorageAfter

/-!
# The screen of the connection list

The screen has the list of the program, the dialog of the columns and a pad. `updateList` takes the
updates of the list and draws them, and blanks the rows behind the last connection.

* The header is in one row of the pad, the list in those from `listBeginPos` on, but for the last.
  The status lines and the key bar are in the other rows, and are left out.
* A key is for the dialog if it is open, then it scrolls the screen, then it is for the screen.
* `Base` is what holds even while the columns change. `Sound` is the invariant.

Main result: `run_shows`. After any run, an update leaves the header and the rows that would be
drawn from scratch.
-/

namespace Conntop

theorem ConnectionList.waiting_lt {l l' : ConnectionList} {u : ConnectionListUpdate}
    (h : l.getNextUpdate = (l', some u)) : l'.waiting < l.waiting := by
  obtain ⟨row, item, hv, hi, rfl, -, -⟩ := getNextUpdate_some h
  have hb := begin_of_visible hv
  have hb' : getListBeginIt { l with list := l.list.modify (l.scrollOffset + row) clearItem } =
      l.getListBeginIt := by
    simp only [getListBeginIt_eq, List.length_modify]
  unfold waiting
  rw [hb', hb, List.drop_modify_of_ge _ _ _ _ (Nat.le_add_right _ _), Nat.add_sub_cancel_left]
  exact Nat.lt_of_succ_le
    (length_filter_clearItem (by rw [List.getElem?_drop]; exact hv) hi).le

theorem ConnectionList.isRefreshRequired_of_none {l l' : ConnectionList}
    (h : l.getNextUpdate = (l', none)) : l'.isRefreshRequired = false := by
  unfold getNextUpdate at h
  dsimp only at h
  split_ifs at h with hreq
  · split at h
    · next row hrow =>
      obtain ⟨hlt, -, -⟩ := List.findIdx?_eq_some_iff_getElem.mp hrow
      rw [List.length_drop] at hlt
      rw [List.getElem?_eq_getElem (by omega)] at h
      simp at h
    · cases h
      rfl
  · cases h
    simpa using hreq

theorem ConnectionList.clean_of_kept {l l' : ConnectionList} {r : ℕ} {item item' : Item}
    (hk : Kept l l' r item item') {column : Column}
    (hclean : dirty item' column = false) :
    dirty item column = false := by
  by_contra hdirty
  rw [hk.dirty column (by simpa using hdirty)] at hclean
  exact absurd hclean (by decide)

theorem ConnectionList.visible_clear {l : ConnectionList} {row : ℕ} {item : Item}
    (hv : l.visible row = some item) (k : ℕ) :
    visible { l with list := l.list.modify (l.scrollOffset + row) clearItem } k =
      if k = row then some (clearItem item) else l.visible k := by
  have hiff : l.scrollOffset + row = l.scrollOffset + k ↔ k = row := by omega
  unfold visible at hv ⊢
  simp only [List.getElem?_modify, hiff]
  split_ifs with hrow
  · rw [hrow, hv]
    rfl
  · cases l.list[l.scrollOffset + k]? <;> rfl

theorem ScreenAxis.minSize_le_calculateSize {a : ScreenAxis} (hmax : a.maxSize = -1)
    (hmin : 0 < a.minSize) (term : ℤ) : a.minSize ≤ a.calculateSize term := by
  unfold calculateSize
  split_ifs <;> omega

namespace ScreenConnectionList

/-! ## Calls on the list -/

theorem getSize_le_targetSize {l : ConnectionList} (hi : ConnectionList.Inv l) :
    l.getSize ≤ l.targetSize := by
  rw [← not_lt, ConnectionList.lt_getSize_iff, not_lt, ← ConnectionList.length_keys]
  exact hi.ranked.length_le

def setsSize : ConnectionList.Op → Bool
  | .setTargetSize _ => true
  | _ => false

/-- Calls that others make: only the screen takes updates and has a size. -/
def Arrives (l : ConnectionList) (op : ConnectionList.Op) : Prop :=
  ConnectionList.Allowed l op ∧ setsSize op = false

instance (l : ConnectionList) : DecidablePred (Arrives l) :=
  fun _ => inferInstanceAs (Decidable (_ ∧ _))

theorem doScroll_targetSize (l : ConnectionList) (amount : ℤ) :
    (l.doScroll amount).targetSize = l.targetSize := by
  rcases ConnectionList.doScroll_cases l amount with h | ⟨_, _, h⟩ | ⟨_, _, _, h⟩
  · rw [h]
  · exact h.targetSize
  · exact h.targetSize

theorem moveCursor_targetSize {l : ConnectionList} (hi : ConnectionList.Inv l) (amount : ℤ) :
    (l.moveCursor amount).targetSize = l.targetSize := by
  rcases ConnectionList.moveCursor_cases l amount hi.cursor_le with h | ⟨pos, -, h | ⟨n, h⟩⟩
  · rw [h]
  · rw [h]
    exact (ConnectionList.setCursorPos_relist l pos).targetSize
  · rw [h]
    exact doScroll_targetSize _ n

/-- Only the screen sets the size. -/
theorem step_targetSize (S : StdSort) (inet : InetText) {l : ConnectionList}
    (hi : ConnectionList.Inv l)
    (op : ConnectionList.Op) (hop : setsSize op = false) :
    (l.step S inet op).targetSize = l.targetSize := by
  cases op with
  | getAddress a add => exact (ConnectionList.getAddress_same hi.ends inet a add).targetSize
  | getPort p add => exact (ConnectionList.getPort_same hi.ends p add).targetSize
  | add c d =>
    change (if l.storage.HasEnds c then l.add c d else l).targetSize = _
    split_ifs
    · by_cases hc : c ∈ l.stored
      · rw [ConnectionList.add_eq, if_pos hc]
      · exact (ConnectionList.add_window d hc).1
    · rfl
  | change c d flags =>
    change (if c ∈ l.storage.connectionMap then l.change S c d flags else l).targetSize = _
    split_ifs
    · exact (ConnectionList.change_sameWindow l c d flags).targetSize
    · rfl
  | remove c =>
    change (l.remove c).targetSize = _
    by_cases hc : c ∈ l.stored
    · exact (ConnectionList.remove_window hc).1
    · rw [ConnectionList.remove_eq, if_neg hc]
  | clear => rfl
  | resolveAddress a resolved =>
    exact (ConnectionList.markedUpdated_sameWindow { l with
      storage := l.setResolvedAddress a resolved
      dataResolvedCount := l.dataResolvedCount + 1 } _ _ _).targetSize
  | resolvePort p resolved =>
    exact (ConnectionList.markedUpdated_sameWindow { l with
      storage := l.setResolvedPort p resolved
      dataResolvedCount := l.dataResolvedCount + 1 } _ _ _).targetSize
  | addressDataUpdated a => exact (ConnectionList.markedUpdated_sameWindow l _ _ _).targetSize
  | portDataUpdated p => exact (ConnectionList.markedUpdated_sameWindow l _ _ _).targetSize
  | getNextUpdate => exact (ConnectionList.getNextUpdate_relist l).targetSize
  | invalidateAllVisible => exact (ConnectionList.invalidateAllVisible_relist l).targetSize
  | invalidateCursor => exact (ConnectionList.invalidateCursor_relist l).targetSize
  | moveCursor amount => exact moveCursor_targetSize hi amount
  | doScroll amount => exact doScroll_targetSize l amount
  | initConnectionDetail => rfl
  | resetConnectionDetailRefresh => rfl
  | setTargetSize size => exact absurd hop (by simp [setsSize])
  | setSortMode mode isAscending =>
    exact (ConnectionList.setSortMode_sameWindow l mode isAscending).targetSize
  | rehash m => exact (ConnectionList.rehash_same l m).targetSize

theorem columnCells_showCursor (texts : Texts) (options : ShowOptions) (st : ConnectionStorage)
    (c : Connection) (b : Bool) (column : ConnectionColumn) :
    columnCells texts { options with showCursor := b } st c false column =
      columnCells texts options st c false column := by
  unfold columnCells
  cases column.type <;> rfl

end ScreenConnectionList

/-! ## The screen -/

section Screen

variable [PadLibrary Attr]

structure ScreenConnectionList where
  list : ConnectionList
  dialogColumns : DialogConnectionColumns
  dialogGeometry : ScreenGeometry
  geometry : ScreenGeometry
  term : ScreenSize
  pad : Pad Attr
  columnsTotalWidth : ℕ := 0
  currentSize : ℕ := 0
  options : ShowOptions := {}

namespace ScreenConnectionList

open ConnectionList (visible)
open DialogConnectionColumns (getColumnsTotalWidth)

variable (S : StdSort) (inet : InetText) (texts : Texts) (s : ScreenConnectionList)

def columns : List ConnectionColumn := s.dialogColumns.columns

def getListSize : ℕ := s.pad.height - 6

/-! ## Drawing the list -/

/-- The first loop of `updateList`. -/
def updateLoop (options : ShowOptions) (columns : List ConnectionColumn) (columnsTotalWidth : ℕ)
    (l : ConnectionList) (p : Pad Attr) : ConnectionList × Pad Attr :=
  match h : l.getNextUpdate with
  | (l', none) => (l', p)
  | (l', some u) =>
    have : l'.waiting < l.waiting := ConnectionList.waiting_lt h
    updateLoop options columns columnsTotalWidth l'
      (drawListEntry texts options l'.storage u columns columnsTotalWidth p)
  termination_by l.waiting

/-- `setPos` and `fillEmpty`. -/
def clearRow (p : Pad Attr) (posY : ℕ) : Pad Attr :=
  let p := p.move posY 0
  p.fill (p.width - p.x)

/-- The second loop of `updateList`, from a row on. -/
def clearRows (p : Pad Attr) (posY : ℕ) : ℕ → Pad Attr
  | 0 => p
  | n + 1 => clearRows (clearRow p posY) (posY + 1) n

def updateList : ScreenConnectionList :=
  let (l, p) := updateLoop texts s.options s.columns s.columnsTotalWidth s.list s.pad
  let listSize := l.getSize
  let p := if listSize < s.currentSize ∧ listSize < s.getListSize then
    clearRows p (listBeginPos + listSize) (s.currentSize - listSize) else p
  { s with list := l.resetConnectionDetailRefresh, pad := p, currentSize := listSize }

def handleResize : ScreenConnectionList :=
  updateList texts { s with
    pad := drawListHeader s.columns s.pad
    list := (s.list.setTargetSize s.getListSize).invalidateAllVisible }

/-! ## Sizes -/

/-- After the size was calculated: the pad gets it if it is another one. -/
def resized (geometry : ScreenGeometry) : ScreenConnectionList :=
  if geometry.getSize ≠ s.geometry.getSize then
    handleResize texts { s with
      geometry
      pad := s.pad.erase.resize geometry.getSize.x.toNat geometry.getSize.y.toNat }
  else { s with geometry }

def onResize (term : ScreenSize) : ScreenConnectionList :=
  let s := resized texts { s with term } (s.geometry.onResize term)
  if s.dialogColumns.isOpen then { s with dialogGeometry := s.dialogGeometry.onResize term } else s

def setMinWidth : ScreenConnectionList :=
  if s.geometry.getMinSize.x = s.columnsTotalWidth then s
  else resized texts s
    (s.geometry.setMinSize s.term ⟨max (s.columnsTotalWidth : ℤ) 80, s.geometry.getMinSize.y⟩)

def updateColumns : ScreenConnectionList :=
  let s := setMinWidth texts { s with columnsTotalWidth := getColumnsTotalWidth s.columns }
  updateList texts { s with
    pad := drawListHeader s.columns s.pad
    list := s.list.invalidateAllVisible }

/-- The constructor. The list is empty. -/
def init (term : ScreenSize) : ScreenConnectionList :=
  let geometry := ScreenGeometry.init term ⟨80, 6⟩ ⟨-1, -1⟩
  let dialogColumns := DialogConnectionColumns.init
  handleResize texts (setMinWidth texts
    { list := {}
      dialogColumns
      dialogGeometry := ScreenGeometry.init term ⟨50, 20⟩ ⟨50, 20⟩
      geometry
      term
      pad := .new geometry.getSize.x.toNat geometry.getSize.y.toNat
      columnsTotalWidth := getColumnsTotalWidth dialogColumns.columns })

/-! ## Keys -/

/-- Up or down, with the cursor or without. -/
def moveBy (offset : ℤ) : ScreenConnectionList :=
  if 0 < s.getListSize then
    let l := if s.options.showCursor then s.list.moveCursor offset else s.list.doScroll offset
    let s := { s with list := l }
    if l.isRefreshRequired then updateList texts s else s
  else s

/-- The key of the columns dialog, which gets the size of the terminal when it opens. -/
def onColumnKey : ScreenConnectionList :=
  let dialogGeometry :=
    if s.dialogColumns.isOpen then s.dialogGeometry else s.dialogGeometry.onResize s.term
  { s with dialogColumns := s.dialogColumns.step (.f 2), dialogGeometry }

def handleKey : Key → ScreenConnectionList
  | .up => moveBy texts s (-1)
  | .ppage => moveBy texts s (-(s.getListSize - 1 : ℤ))
  | .down => moveBy texts s 1
  | .npage => moveBy texts s (s.getListSize - 1 : ℤ)
  | .enter =>
    if s.options.showCursor then { s with list := s.list.initConnectionDetail } else s
  | .f 2 => s.onColumnKey
  | .f 4 => updateList texts { s with
    options := { s.options with showCursor := !s.options.showCursor }
    list := s.list.invalidateCursor }
  | .f 5 => updateList texts { s with
    options := { s.options with showHostname := !s.options.showHostname }
    list := s.list.invalidateAllVisible }
  | .f 6 => updateList texts { s with
    options := { s.options with showPortname := !s.options.showPortname }
    list := s.list.invalidateAllVisible }
  | _ => s

/-- `onKey` of the screen itself. -/
def onOwnKey (key : Key) : ScreenConnectionList :=
  match s.geometry.scroll s.term key with
  | some geometry => { s with geometry }
  | none => handleKey texts s key

def onKey (key : Key) : ScreenConnectionList :=
  if s.dialogColumns.isOpen then
    match s.dialogGeometry.scroll s.term key, s.dialogColumns.handleKey key with
    | some dialogGeometry, _ => { s with dialogGeometry }
    | none, some dialogColumns =>
      if key = .enter then updateColumns texts { s with dialogColumns }
      else { s with dialogColumns }
    | none, none => onOwnKey texts s key
  else onOwnKey texts s key

/-! ## Runs -/

inductive Event
  | list (op : ConnectionList.Op)
  | updateList
  | updateSortMode (mode : EConnectionSortMode) (isAscending : Bool)
  | resize (term : ScreenSize)
  | key (key : Key)

def step : Event → ScreenConnectionList
  | .list op => if Arrives s.list op then { s with list := s.list.step S inet op } else s
  | .updateList => updateList texts s
  | .updateSortMode mode isAscending =>
    updateList texts { s with list := s.list.setSortMode mode isAscending }
  | .resize term => onResize texts s term
  | .key key => onKey texts s key

/-- What is resolved takes one cell for each byte. -/
def Event.IsPrintable : Event → Prop
  | .list op => op.IsPrintable
  | _ => True

variable {texts} {options options' : ShowOptions} {columns : List ConnectionColumn}
  {l l' l'' : ConnectionList} {p q r : Pad Attr} {u : ConnectionListUpdate}

/-! ## Shown rows -/

/-- What no flag covers is in the rows of the pad. -/
structure Shown (texts : Texts) (options : ShowOptions) (columns : List ConnectionColumn)
    (l : ConnectionList) (p : Pad Attr) : Prop where
  cells : ∀ r item, l.visible r = some item →
    ShowsColumns texts options l.storage item.pConnection (r == l.cursorPos) p (listBeginPos + r)
      (fun column => ConnectionList.dirty item column = false) 0 columns
  rows : ∀ r item, l.visible r = some item → item.isRefreshRequired = false →
    p.Shows (listBeginPos + r) 0
      (rowCells texts options l.storage item.pConnection (r == l.cursorPos) columns p.width)
  refresh : ∀ r item, l.visible r = some item → item.isRefreshRequired = true →
    l.isRefreshRequired = true

theorem Shown.of_fresh (h : ∀ r item, l.visible r = some item → ConnectionList.Fresh item)
    (hr : l.isRefreshRequired = true) : Shown texts options columns l p where
  cells r item hv := .of_none fun column hclean => by
    rw [(h r item hv).2 column] at hclean
    exact absurd hclean (by decide)
  rows r item hv hclean := by
    rw [(h r item hv).1] at hclean
    exact absurd hclean (by decide)
  refresh _ _ _ _ := hr

/-- A step of the list that raises the flags keeps what the others cover. -/
theorem Shown.repaints (h : Shown texts options columns l p)
    (hr : ConnectionList.Repaints l l') : Shown texts options columns l' p where
  cells r item' hv := by
    rcases hr.rows r item' hv with hfresh | ⟨item, hv', hk⟩
    · refine .of_none fun column hclean => ?_
      rw [hfresh.2 column] at hclean
      exact absurd hclean (by decide)
    · rw [hk.pConnection, hk.cursor]
      exact (h.cells r item hv').mono rfl (fun column => ConnectionList.clean_of_kept hk)
        fun column hclean => columnCells_congr (hk.content _ hclean)
  rows r item' hv hclean := by
    rcases hr.rows r item' hv with hfresh | ⟨item, hv', hk⟩
    · rw [hfresh.1] at hclean
      exact absurd hclean (by decide)
    · have hclean' : item.isRefreshRequired = false := by
        by_contra hdirty
        rw [hk.refresh (by simpa using hdirty)] at hclean
        exact absurd hclean (by decide)
      have hall : ∀ column, ConnectionList.dirty item' column = false := fun column => by
        unfold ConnectionList.dirty
        rw [hclean, Bool.false_and]
      have hsame :
          columnsCells texts options l'.storage item.pConnection (r == l.cursorPos) columns =
            columnsCells texts options l.storage item.pConnection (r == l.cursorPos) columns :=
        columnsCells_congr rfl fun column => columnCells_congr (hk.content _ (hall _))
      rw [hk.pConnection, hk.cursor, rowCells, hsame]
      exact h.rows r item hv' hclean'
  refresh r item' hv hdirty := by
    rcases hr.refresh with hlist | ⟨hlist, hrows⟩
    · exact hlist
    · obtain ⟨item, hv', hdirty'⟩ := hrows r item' hv hdirty
      exact hlist.trans (h.refresh r item hv' hdirty')

/-- Only the rows of the list matter. -/
theorem Shown.congr (h : Shown texts options columns l p) (hwidth : q.width = p.width)
    (hcells : ∀ y, listBeginPos ≤ y → y < listBeginPos + l.getSize → q.cells y = p.cells y) :
    Shown texts options columns l q where
  cells r item hv := (h.cells r item hv).mono (hcells _ (Nat.le_add_right _ _) (by
    have := ConnectionList.lt_length_of_visible hv
    rw [ConnectionList.getSize_eq]
    omega)) (fun _ => id) fun _ _ => rfl
  rows r item hv hclean := by
    have hlt := ConnectionList.lt_length_of_visible hv
    rw [hwidth]
    exact (h.rows r item hv hclean).congr
      (hcells _ (Nat.le_add_right _ _) (by rw [ConnectionList.getSize_eq]; omega))
  refresh := h.refresh

/-! ## Updates -/

/-- There is room for the columns and the rows, and the texts are single cells. -/
structure Room (columns : List ConnectionColumn) (l : ConnectionList) (p : Pad Attr) : Prop where
  storage : l.storage.IsPrintable
  attr : p.attr = default
  plain : p.IsPlain
  widths : ∀ column ∈ columns, 2 ≤ column.width
  fits : getColumnsTotalWidth columns ≤ p.width
  rows : listBeginPos + l.getSize ≤ p.height

/-- Updates were drawn: nothing has changed but flags and the rows of the list. -/
structure Drawn (l l' : ConnectionList) (p p' : Pad Attr) : Prop where
  inv : ConnectionList.Inv l → ConnectionList.Inv l'
  storage : l'.storage = l.storage
  size : l'.getSize = l.getSize
  targetSize : l'.targetSize = l.targetSize
  pad : p.Keeps p'
  others : ∀ y, y < listBeginPos ∨ listBeginPos + l.getSize ≤ y → p'.cells y = p.cells y

theorem Drawn.trans (h : Drawn l l' p q) (h' : Drawn l' l'' q r) : Drawn l l'' p r where
  inv := h'.inv ∘ h.inv
  storage := h'.storage.trans h.storage
  size := h'.size.trans h.size
  targetSize := h'.targetSize.trans h.targetSize
  pad := h.pad.trans h'.pad
  others y hy := (h'.others y (by rwa [h.size])).trans (h.others y hy)

theorem Drawn.room (h : Drawn l l' p q) (hroom : Room columns l p) : Room columns l' q where
  storage := by
    rw [h.storage]
    exact hroom.storage
  attr := h.pad.attr.trans hroom.attr
  plain := h.pad.plain
  widths := hroom.widths
  fits := by
    rw [h.pad.width]
    exact hroom.fits
  rows := by
    rw [h.pad.height, h.size]
    exact hroom.rows

section Drawing

variable [LawfulPadLibrary Attr] (htexts : texts.IsPrintable)
include htexts

/-- An update that is drawn is shown. -/
theorem Shown.draw (h : Shown texts options columns l p) (hroom : Room columns l p)
    (hu : l.getNextUpdate = (l', some u)) :
    let q := drawListEntry texts options l'.storage u columns (getColumnsTotalWidth columns) p
    Shown texts options columns l' q ∧ Drawn l l' p q := by
  intro q
  have hinv : ConnectionList.Inv l → ConnectionList.Inv l' := fun hi => by
    simpa [hu] using (ConnectionList.getNextUpdate_relist l).inv_of_keys hi
  obtain ⟨row, item, hv, -, rfl, rfl, hreq⟩ := ConnectionList.getNextUpdate_some hu
  have hlt := ConnectionList.lt_length_of_visible hv
  have hsize : row < l.getSize := by
    rw [ConnectionList.getSize_eq]
    omega
  have hrows := hroom.rows
  -- the row is drawn with the flags that it was marked with, which cover what is dirty
  have hput : p.Put q (listBeginPos + row) 0
      (rowCells texts options l.storage item.pConnection (row == l.cursorPos) columns p.width) := by
    refine drawListEntry_put (u := ⟨item.pConnection, item.updateFlags, row, row == l.cursorPos⟩)
      htexts hroom.storage hroom.plain hroom.attr (by change listBeginPos + row < p.height; omega)
      hroom.widths hroom.fits ?_
    refine (h.cells row item hv).mono rfl (fun column hflag => ?_) fun _ _ => rfl
    unfold ConnectionList.dirty
    rw [hflag, Bool.and_false]
  have hwidth := hput.keeps.width
  have hshows := hput.shows
  refine ⟨⟨fun k x hx => ?_, fun k x hx hclean => ?_, fun _ _ _ _ => hreq⟩, hinv, rfl, ?_, rfl,
    hput.keeps, fun y hy => hput.cells_of_ne (by omega)⟩
  · rw [ConnectionList.visible_clear hv] at hx
    split_ifs at hx with hrow
    · rw [← Option.some.inj hx, hrow]
      exact showsColumns_of_shows hroom.widths hshows.left
    · exact (h.cells k x hx).mono (hput.cells_of_ne fun heq => hrow (Nat.add_left_cancel heq))
        (fun _ => id) fun _ _ => rfl
  · rw [ConnectionList.visible_clear hv] at hx
    rw [hwidth]
    split_ifs at hx with hrow
    · rw [← Option.some.inj hx, hrow]
      exact hshows
    · exact hput.shows_of_ne (fun heq => hrow (Nat.add_left_cancel heq)) (h.rows k x hx hclean)
  · rw [ConnectionList.getSize_eq, ConnectionList.getSize_eq]
    exact congrArg (· - l.scrollOffset) (List.length_modify _ _ _)

/-- After the loop every row is shown. -/
theorem updateLoop_spec (h : Shown texts options columns l p) (hroom : Room columns l p) :
    let x := updateLoop texts options columns (getColumnsTotalWidth columns) l p
    Shown texts options columns x.1 x.2 ∧ Drawn l x.1 p x.2 ∧
      (∀ r item, x.1.visible r = some item → item.isRefreshRequired = false) ∧
      x.1.isRefreshRequired = false := by
  fun_induction updateLoop texts options columns (getColumnsTotalWidth columns) l p with
  | case1 l p l' hnone =>
    obtain ⟨hl, hclean⟩ := ConnectionList.getNextUpdate_none h.refresh hnone
    have hflag := ConnectionList.isRefreshRequired_of_none hnone
    have hinv : ConnectionList.Inv l → ConnectionList.Inv l' := fun hi => by
      simpa [hnone] using (ConnectionList.getNextUpdate_relist l).inv_of_keys hi
    dsimp only
    rcases hl with rfl | rfl
    · exact ⟨h, ⟨id, rfl, rfl, rfl, .refl hroom.plain, fun _ _ => rfl⟩, hclean, hflag⟩
    · refine ⟨⟨h.cells, h.rows, fun r item hv hdirty => ?_⟩,
        ⟨hinv, rfl, rfl, rfl, .refl hroom.plain, fun _ _ => rfl⟩, hclean, hflag⟩
      rw [hclean r item hv] at hdirty
      exact absurd hdirty (by decide)
  | case2 l p l' u hu _ ih =>
    obtain ⟨hshown, hdrawn⟩ := h.draw htexts hroom hu
    obtain ⟨hshown', hdrawn', hrest⟩ := ih hshown (hdrawn.room hroom)
    exact ⟨hshown', hdrawn.trans hdrawn', hrest⟩

end Drawing

/-! ## Blank rows -/

def blankRow (width : ℕ) : List (Char × Attr) := List.replicate width PadView.blank

section Clearing

variable [LawfulPadLibrary Attr]

theorem clearRow_spec {posY : ℕ} (hp : p.IsPlain) (hattr : p.attr = default)
    (hposY : posY < p.height) :
    let q := clearRow p posY
    q.Shows posY 0 (blankRow p.width) ∧ (∀ y, y ≠ posY → q.cells y = p.cells y) ∧ p.Keeps q ∧
      (p.height ≤ posY + 1 → q.y = posY) := by
  have hpos := Nat.zero_lt_of_lt hp.x_lt
  have hm := hp.move posY 0
  have hy := Pad.y_move hp hposY hpos
  have hx := Pad.x_move hp hposY hpos
  have hwidth := Pad.width_move hp posY 0
  have hheight := Pad.height_move hp posY 0
  have hq : clearRow p posY = (p.move posY 0).fill p.width := by
    unfold clearRow
    dsimp only
    rw [hx, hwidth, Nat.sub_zero]
  have hput : p.Put (clearRow p posY) posY 0 (blankRow p.width) := by
    have hfill := Pad.wrote_fill p.width hm (by rw [hx, hwidth, Nat.zero_add])
    rw [Pad.attr_move hp, hattr, ← hq] at hfill
    exact hfill.put hp hposY hpos
  refine ⟨hput.shows, fun y hne => hput.cells_of_ne hne, hput.keeps, fun hlast => ?_⟩
  rw [hq, Pad.y_fill _ hm (by rw [hheight, hy]; exact hlast), hy]

/-- Below the last row nothing more happens if it is blank. -/
theorem clearRow_below {posY : ℕ} (hp : p.IsPlain) (hattr : p.attr = default)
    (hposY : p.height ≤ posY) (hlast : p.height ≤ p.y + 1)
    (hblank : p.Shows p.y 0 (blankRow p.width)) :
    (clearRow p posY).cells = p.cells ∧ p.Keeps (clearRow p posY) ∧ (clearRow p posY).y = p.y := by
  have hm := hp.move posY 0
  have hkeeps : p.Keeps (p.move posY 0) :=
    ⟨Pad.width_move hp _ _, Pad.height_move hp _ _, Pad.attr_move hp _ _, hm⟩
  have hview := Pad.view_move_of_not_lt hp (x := 0) fun h => absurd h.1 (Nat.not_lt.mpr hposY)
  have hy : (p.move posY 0).y = p.y := congrArg PadView.y hview
  have hcells : (p.move posY 0).cells = p.cells := Pad.cells_move hp _ _
  have hx := hm.x_lt
  have hfill : (p.move posY 0).Wrote (clearRow p posY) _ :=
    Pad.wrote_fill ((p.move posY 0).width - (p.move posY 0).x) hm (by omega)
  refine ⟨(hfill.cells_eq fun i hi => ?_).trans hcells, hkeeps.trans hfill.keeps, ?_⟩
  · rw [List.length_replicate, hkeeps.width] at hi
    have hcell := hblank ((p.move posY 0).x + i) (by rw [blankRow, List.length_replicate]; omega)
    rw [Nat.zero_add] at hcell
    rw [hy, hcells, hcell, List.getElem_replicate, hkeeps.attr, hattr]
    exact List.getElem_replicate _
  · exact (Pad.y_fill _ hm (by rw [hkeeps.height, hy]; exact hlast)).trans hy

theorem clearRows_below (posY n : ℕ) (hp : p.IsPlain) (hattr : p.attr = default)
    (hposY : p.height ≤ posY) (hlast : p.height ≤ p.y + 1)
    (hblank : p.Shows p.y 0 (blankRow p.width)) :
    (clearRows p posY n).cells = p.cells ∧ p.Keeps (clearRows p posY n) := by
  induction n generalizing p posY with
  | zero => exact ⟨rfl, .refl hp⟩
  | succ n ih =>
    obtain ⟨hcells, hkeeps, hy⟩ := clearRow_below hp hattr hposY hlast hblank
    obtain ⟨hcells', hkeeps'⟩ := ih (posY + 1) hkeeps.plain (hkeeps.attr.trans hattr)
      (by rw [hkeeps.height]; omega) (by rw [hkeeps.height, hy]; exact hlast)
      (by rw [hy, hkeeps.width]; exact hblank.congr (by rw [hcells]))
    exact ⟨hcells'.trans hcells, hkeeps.trans hkeeps'⟩

/-- The rows from one on are blank, up to the last one of the pad. -/
theorem clearRows_spec (posY n : ℕ) (hp : p.IsPlain) (hattr : p.attr = default)
    (hposY : posY < p.height) :
    let q := clearRows p posY n
    (∀ y, posY ≤ y → y < posY + n → y < p.height → q.Shows y 0 (blankRow p.width)) ∧
      (∀ y, y < posY ∨ posY + n ≤ y → q.cells y = p.cells y) ∧ p.Keeps q := by
  induction n generalizing p posY with
  | zero => exact ⟨fun y h h' => absurd h (by omega), fun _ _ => rfl, .refl hp⟩
  | succ n ih =>
    obtain ⟨hrow, hothers, hkeeps, hy⟩ := clearRow_spec hp hattr hposY
    have hattr' := hkeeps.attr.trans hattr
    intro q
    have hq : q = clearRows (clearRow p posY) (posY + 1) n := rfl
    by_cases hlast : posY + 1 < p.height
    · obtain ⟨hrows', hothers', hkeeps'⟩ := ih (posY + 1) hkeeps.plain hattr'
        (by rwa [hkeeps.height])
      rw [hkeeps.width, hkeeps.height] at hrows'
      refine ⟨fun y hle hlt hheight => ?_, fun y hout => ?_, hkeeps.trans hkeeps'⟩
      · rcases Nat.eq_or_lt_of_le hle with rfl | hgt
        · exact hrow.congr (hothers' _ (.inl (Nat.lt_succ_self _)))
        · exact hrows' y hgt (by omega) hheight
      · exact (hothers' y (by omega)).trans (hothers y (by omega))
    · -- The row is the last one, and all that follows is refused.
      obtain ⟨hcells', hkeeps'⟩ := clearRows_below (posY + 1) n hkeeps.plain hattr'
        (by rw [hkeeps.height]; omega) (by rw [hkeeps.height, hy (by omega)]; omega)
        (by rw [hy (by omega), hkeeps.width]; exact hrow)
      refine ⟨fun y hle hlt hheight => ?_, fun y hout => ?_, hkeeps.trans hkeeps'⟩
      · obtain rfl : y = posY := by omega
        exact hrow.congr (by rw [hq, hcells'])
      · rw [hq, hcells']
        exact hothers y (by omega)

end Clearing

/-! ## The invariant -/

/-- What holds even while the columns change. -/
structure Base (s : ScreenConnectionList) : Prop where
  inv : ConnectionList.Inv s.list
  storage : s.list.storage.IsPrintable
  valid : s.dialogColumns.Valid
  fits : s.geometry.Fits s.term
  maxSize : s.geometry.getMaxSize = ⟨-1, -1⟩
  minWidth : 80 ≤ s.geometry.x.minSize
  minHeight : s.geometry.y.minSize = 6
  width : (s.pad.width : ℤ) = s.geometry.x.size
  height : (s.pad.height : ℤ) = s.geometry.y.size
  attr : s.pad.attr = default
  plain : s.pad.IsPlain
  blank : ∀ r, s.currentSize ≤ r → r < s.getListSize →
    s.pad.Shows (listBeginPos + r) 0 (blankRow s.pad.width)

/-- The columns have their width. -/
structure Laid (s : ScreenConnectionList) : Prop extends Base s where
  totalWidth : s.columnsTotalWidth = getColumnsTotalWidth s.columns
  minSize : s.geometry.x.minSize = max (s.columnsTotalWidth : ℤ) 80

structure Sound (texts : Texts) (s : ScreenConnectionList) : Prop extends Laid s where
  targetSize : s.list.targetSize = s.getListSize
  header : s.pad.Shows statusHeaderHeight 0 (headerCells s.columns s.pad.width)
  shown : Shown texts s.options s.columns s.list s.pad

/-- The rows of the list are those that would be drawn from scratch. -/
def ShowsList (texts : Texts) (s : ScreenConnectionList) : Prop :=
  ∀ r < s.getListSize,
    (r < s.list.getSize → ∃ item, s.list.list[s.list.scrollOffset + r]? = some item ∧
      s.pad.Shows (listBeginPos + r) 0 (rowCells texts s.options s.list.storage item.pConnection
        (r == s.list.cursorPos) s.columns s.pad.width)) ∧
    (s.list.getSize ≤ r → s.pad.Shows (listBeginPos + r) 0 (blankRow s.pad.width))

variable {s}

theorem Base.minSize_le_width (h : Base s) : s.geometry.x.minSize ≤ s.pad.width := by
  rw [h.width, h.fits.1.size]
  exact ScreenAxis.minSize_le_calculateSize (congrArg ScreenSize.x h.maxSize)
    (by have := h.minWidth; omega) _

theorem Base.six_le_height (h : Base s) : 6 ≤ s.pad.height := by
  have hmax : s.geometry.y.maxSize = -1 := congrArg ScreenSize.y h.maxSize
  have hle := ScreenAxis.minSize_le_calculateSize hmax (by rw [h.minHeight]; decide) s.term.y
  rw [← h.fits.2.size, ← h.height, h.minHeight] at hle
  omega

theorem Laid.totalWidth_le (h : Laid s) : getColumnsTotalWidth s.columns ≤ s.pad.width := by
  have hle := h.minSize_le_width
  rw [h.minSize, h.totalWidth] at hle
  omega

theorem Laid.room (h : Laid s) (htarget : s.list.targetSize = s.getListSize) :
    Room s.columns s.list s.pad where
  storage := h.storage
  attr := h.attr
  plain := h.plain
  widths column hmem := (h.valid.widths column hmem).1
  fits := h.totalWidth_le
  rows := by
    have hsize := getSize_le_targetSize h.inv
    have hheight := h.six_le_height
    rw [htarget, getListSize] at hsize
    rw [listBeginPos]
    omega

theorem ShowsList.of_shown (h : Shown texts s.options s.columns s.list s.pad)
    (hclean : ∀ r item, s.list.visible r = some item → item.isRefreshRequired = false)
    (hblank : ∀ r, s.list.getSize ≤ r → r < s.getListSize →
      s.pad.Shows (listBeginPos + r) 0 (blankRow s.pad.width)) : ShowsList texts s := by
  refine fun r hr => ⟨fun hlt => ?_, fun hle => hblank r hle hr⟩
  rw [ConnectionList.getSize_eq] at hlt
  have hv : s.list.visible r = some _ :=
    List.getElem?_eq_getElem (show s.list.scrollOffset + r < s.list.list.length by omega)
  exact ⟨_, hv, h.rows r _ hv (hclean r _ hv)⟩

/-- Another size of the screen, with the limits that it should have. -/
structure Sized (s : ScreenConnectionList) (term : ScreenSize) (g : ScreenGeometry) : Prop where
  fits : g.Fits term
  maxSize : g.getMaxSize = ⟨-1, -1⟩
  minHeight : g.y.minSize = 6
  minSize : g.x.minSize = max (s.columnsTotalWidth : ℤ) 80

theorem Sized.of_limits {term : ScreenSize} {g : ScreenGeometry} (hfits : g.Fits term)
    (hmax : g.getMaxSize = ⟨-1, -1⟩) (hmin : g.getMinSize = ⟨max (s.columnsTotalWidth : ℤ) 80, 6⟩) :
    Sized s term g :=
  ⟨hfits, hmax, congrArg ScreenSize.y hmin, congrArg ScreenSize.x hmin⟩

/-! ## What is drawn later -/

theorem Laid.setTargetSize (h : Laid s) (size : ℕ) :
    Laid { s with list := s.list.setTargetSize size } :=
  { h with
    inv := h.inv.setTargetSize size
    storage := (ConnectionList.setTargetSize_storage s.list size).symm ▸ h.storage }

theorem Base.laid (h : Base s) {term : ScreenSize} {g : ScreenGeometry} (hg : Sized s term g)
    (hsize : g.getSize = s.geometry.getSize)
    (htotal : s.columnsTotalWidth = getColumnsTotalWidth s.columns) :
    Laid { s with term, geometry := g } := by
  refine ⟨{ h with
    fits := hg.fits
    maxSize := hg.maxSize
    minWidth := ?_
    minHeight := hg.minHeight
    width := h.width.trans (congrArg ScreenSize.x hsize).symm
    height := h.height.trans (congrArg ScreenSize.y hsize).symm }, htotal, hg.minSize⟩
  change 80 ≤ g.x.minSize
  rw [hg.minSize]
  omega

/-- A call of the list that raises the flags. -/
theorem Sound.list (h : Sound texts s) (hinv : ConnectionList.Inv l)
    (hstorage : l.storage.IsPrintable)
    (hrepaints : ConnectionList.Repaints s.list l) (htarget : l.targetSize = s.list.targetSize) :
    Sound texts { s with list := l } :=
  ⟨⟨{ h with inv := hinv, storage := hstorage }, h.totalWidth, h.minSize⟩,
    htarget.trans h.targetSize, h.header, h.shown.repaints hrepaints⟩

/-- The dialog keeps its columns. -/
theorem Sound.dialog (h : Sound texts s) {d : DialogConnectionColumns} (hvalid : d.Valid)
    (hcolumns : d.columns = s.columns) (g : ScreenGeometry) :
    Sound texts { s with dialogColumns := d, dialogGeometry := g } := by
  have hsame : columns { s with dialogColumns := d, dialogGeometry := g } = s.columns := hcolumns
  refine ⟨⟨{ h with valid := hvalid }, ?_, h.minSize⟩, h.targetSize, ?_, ?_⟩
  · rw [hsame]
    exact h.totalWidth
  · rw [hsame]
    exact h.header
  · rw [hsame]
    exact h.shown

/-- The screen is scrolled. -/
theorem Sound.scroll (h : Sound texts s) {key : Key} {g : ScreenGeometry}
    (hg : s.geometry.scroll s.term key = some g) : Sound texts { s with geometry := g } := by
  obtain ⟨hmin, hmax, hsize⟩ := ScreenGeometry.scroll_limits hg
  have hsized : Sized s s.term g := .of_limits (ScreenGeometry.scroll_fits h.fits hg)
    (hmax.trans h.maxSize) (by rw [hmin, ScreenGeometry.getMinSize, h.minSize, h.minHeight])
  exact ⟨h.toBase.laid hsized hsize h.totalWidth, h.targetSize, h.header, h.shown⟩

/-- Only the row at the cursor looks different. -/
theorem Shown.showCursor (h : Shown texts options columns l p) (b : Bool) :
    Shown texts { options with showCursor := b } columns l.invalidateCursor p := by
  obtain ⟨hst, -, hpos, hflag⟩ := ConnectionList.invalidateCursor_fields l
  refine ⟨fun r item hv => ?_, fun r item hv hclean => ?_, fun r item hv hdirty => ?_⟩
  · rw [ConnectionList.visible_invalidateCursor] at hv
    rw [hst, hpos]
    split_ifs at hv with hr
    · obtain ⟨item', -, rfl⟩ := Option.map_eq_some_iff.mp hv
      refine .of_none fun column hclean => ?_
      rw [(ConnectionList.fresh_invalidate item').2 column] at hclean
      exact absurd hclean (by decide)
    · have hcells := h.cells r item hv
      rw [beq_false_of_ne hr] at hcells ⊢
      exact hcells.mono rfl (fun _ => id) fun _ _ => columnCells_showCursor _ _ _ _ _ _
  · rw [ConnectionList.visible_invalidateCursor] at hv
    rw [hst, hpos]
    split_ifs at hv with hr
    · obtain ⟨item', -, rfl⟩ := Option.map_eq_some_iff.mp hv
      exact absurd hclean (by simp [Item.invalidate])
    · have hrow := h.rows r item hv hclean
      have hsame : columnsCells texts { options with showCursor := b } l.storage item.pConnection
          false columns = columnsCells texts options l.storage item.pConnection false columns :=
        columnsCells_congr rfl fun _ => columnCells_showCursor _ _ _ _ _ _
      rw [beq_false_of_ne hr] at hrow ⊢
      rw [rowCells, hsame]
      exact hrow
  · rcases hflag with hflag | ⟨heq, -⟩
    · exact hflag
    · rw [heq] at hv ⊢
      exact h.refresh r item hv hdirty

/-- Other options, and rows that are all flagged. -/
theorem Sound.setOptions (h : Sound texts s) (options : ShowOptions) :
    Sound texts { s with options, list := s.list.invalidateAllVisible } :=
  have hrelist := ConnectionList.invalidateAllVisible_relist s.list
  ⟨⟨{ h with inv := hrelist.inv_of_keys h.inv, storage := hrelist.storage ▸ h.storage },
    h.totalWidth, h.minSize⟩, hrelist.targetSize.trans h.targetSize, h.header,
    .of_fresh (ConnectionList.fresh_invalidateAllVisible s.list) rfl⟩

theorem Sound.showCursor (h : Sound texts s) (b : Bool) :
    Sound texts { s with
      options := { s.options with showCursor := b }
      list := s.list.invalidateCursor } :=
  have hrelist := ConnectionList.invalidateCursor_relist s.list
  ⟨⟨{ h with inv := hrelist.inv_of_keys h.inv, storage := hrelist.storage ▸ h.storage },
    h.totalWidth, h.minSize⟩, hrelist.targetSize.trans h.targetSize, h.header,
    h.shown.showCursor b⟩

/-! ## Drawing all -/

section Drawing

variable [LawfulPadLibrary Attr]

/-- The rows behind the last connection are blank afterwards. -/
theorem clear_spec (size currentSize listSize : ℕ) (hp : p.IsPlain) (hattr : p.attr = default)
    (hheight : listBeginPos + listSize < p.height)
    (hblank : ∀ r, size ≤ r → currentSize ≤ r → r < listSize →
      p.Shows (listBeginPos + r) 0 (blankRow p.width)) :
    let q := if size < currentSize ∧ size < listSize then
      clearRows p (listBeginPos + size) (currentSize - size) else p
    p.Keeps q ∧ (∀ y < listBeginPos + size, q.cells y = p.cells y) ∧
      ∀ r, size ≤ r → r < listSize → q.Shows (listBeginPos + r) 0 (blankRow p.width) := by
  dsimp only
  split_ifs with hless
  · obtain ⟨hrows, hothers, hkeeps⟩ := clearRows_spec (listBeginPos + size)
      (currentSize - size) hp hattr (by omega)
    refine ⟨hkeeps, fun y hy => hothers y (.inl hy), fun r hle hlt => ?_⟩
    by_cases hr : r < currentSize
    · exact hrows _ (by omega) (by omega) (by omega)
    · exact (hblank r hle (by omega) hlt).congr (hothers _ (by omega))
  · exact ⟨.refl hp, fun _ _ => rfl, fun r hle hlt => hblank r hle (by omega) hlt⟩

/-- A header that is drawn, and rows that are all flagged. -/
theorem Laid.redrawn (h : Laid s) (htarget : s.list.targetSize = s.getListSize) :
    Sound texts { s with
      pad := drawListHeader s.columns s.pad
      list := s.list.invalidateAllVisible } := by
  have hsix := h.six_le_height
  have hput := drawListHeader_put h.plain h.attr (by rw [statusHeaderHeight]; omega)
    h.totalWidth_le
  have hwidth := hput.keeps.width
  have hheight := hput.keeps.height
  have hrelist := ConnectionList.invalidateAllVisible_relist s.list
  refine ⟨⟨⟨hrelist.inv_of_keys h.inv, hrelist.storage ▸ h.storage, h.valid, h.fits, h.maxSize,
    h.minWidth, h.minHeight, ?_, ?_, hput.keeps.attr.trans h.attr, hput.keeps.plain, ?_⟩,
    h.totalWidth, h.minSize⟩, ?_, ?_,
    .of_fresh (ConnectionList.fresh_invalidateAllVisible s.list) rfl⟩
  · exact hwidth ▸ h.width
  · exact hheight ▸ h.height
  · intro r hle hlt
    change r < (drawListHeader s.columns s.pad).height - 6 at hlt
    change Pad.Shows _ _ 0 (blankRow (drawListHeader s.columns s.pad).width)
    rw [hheight] at hlt
    rw [hwidth]
    refine hput.shows_of_ne ?_ (h.blank r hle hlt)
    rw [listBeginPos, statusHeaderHeight]
    omega
  · refine hrelist.targetSize.trans (htarget.trans ?_)
    rw [getListSize, getListSize, hheight]
  · change Pad.Shows _ _ 0 (headerCells s.columns (drawListHeader s.columns s.pad).width)
    rw [hwidth]
    exact hput.shows

/-- A pad that was erased is blank. -/
theorem Base.erased (h : Base s) {term : ScreenSize} {g : ScreenGeometry} (hg : Sized s term g) :
    Base { s with
      term
      geometry := g
      pad := s.pad.erase.resize g.getSize.x.toNat g.getSize.y.toNat } := by
  have hminX : 80 ≤ g.x.minSize := by
    rw [hg.minSize]
    omega
  have hx := ScreenAxis.minSize_le_calculateSize (congrArg ScreenSize.x hg.maxSize) (by omega)
    term.x
  have hy := ScreenAxis.minSize_le_calculateSize (congrArg ScreenSize.y hg.maxSize)
    (by rw [hg.minHeight]; decide) term.y
  rw [← hg.fits.1.size] at hx
  rw [← hg.fits.2.size, hg.minHeight] at hy
  have hposX : 0 < g.getSize.x.toNat := by change 0 < g.x.size.toNat; omega
  have hposY : 0 < g.getSize.y.toNat := by change 0 < g.y.size.toNat; omega
  have hwidth := Pad.width_resize h.plain.erase hposX hposY
  have hheight := Pad.height_resize h.plain.erase hposX hposY
  refine ⟨h.inv, h.storage, h.valid, hg.fits, hg.maxSize, hminX, hg.minHeight, ?_, ?_,
    (Pad.attr_erase_resize h.plain hposX hposY).trans h.attr, h.plain.erase.resize hposX hposY,
    fun r _ _ i hi => ?_⟩
  · refine (congrArg Nat.cast hwidth).trans (Int.toNat_of_nonneg ?_)
    change 0 ≤ g.x.size
    omega
  · refine (congrArg Nat.cast hheight).trans (Int.toNat_of_nonneg ?_)
    change 0 ≤ g.y.size
    omega
  · simp only [blankRow, List.getElem_replicate]
    rw [Pad.cells_erase_resize h.plain hposX hposY]

/-- A new screen with its dialog. -/
theorem new_base {d : DialogConnectionColumns} (hd : d.Valid) (term : ScreenSize) :
    Base
      { list := {}
        dialogColumns := d
        dialogGeometry := ScreenGeometry.init term ⟨50, 20⟩ ⟨50, 20⟩
        geometry := ScreenGeometry.init term ⟨80, 6⟩ ⟨-1, -1⟩
        term
        pad := .new (ScreenGeometry.init term ⟨80, 6⟩ ⟨-1, -1⟩).getSize.x.toNat
          (ScreenGeometry.init term ⟨80, 6⟩ ⟨-1, -1⟩).getSize.y.toNat
        columnsTotalWidth := getColumnsTotalWidth d.columns } := by
  obtain ⟨hmin, hmax⟩ := ScreenGeometry.init_limits term ⟨80, 6⟩ ⟨-1, -1⟩
  have hfits : (ScreenGeometry.init term ⟨80, 6⟩ ⟨-1, -1⟩).Fits term :=
    ScreenGeometry.init_fits _ _
  generalize ScreenGeometry.init term ⟨80, 6⟩ ⟨-1, -1⟩ = g at *
  have hminX : g.x.minSize = 80 := congrArg ScreenSize.x hmin
  have hminY : g.y.minSize = 6 := congrArg ScreenSize.y hmin
  have hx := ScreenAxis.minSize_le_calculateSize (congrArg ScreenSize.x hmax) (by omega) term.x
  have hy := ScreenAxis.minSize_le_calculateSize (congrArg ScreenSize.y hmax) (by omega) term.y
  rw [← hfits.1.size] at hx
  rw [← hfits.2.size] at hy
  have hposX : 0 < g.getSize.x.toNat := by change 0 < g.x.size.toNat; omega
  have hposY : 0 < g.getSize.y.toNat := by change 0 < g.y.size.toNat; omega
  refine ⟨.init, isPrintable_init, hd, hfits, hmax, hminX.ge, hminY,
    ?_, ?_, Pad.attr_new hposX hposY, .new hposX hposY, fun r _ _ i hi => ?_⟩
  · refine (congrArg Nat.cast (Pad.width_new hposX hposY)).trans (Int.toNat_of_nonneg ?_)
    change 0 ≤ g.x.size
    omega
  · refine (congrArg Nat.cast (Pad.height_new hposX hposY)).trans (Int.toNat_of_nonneg ?_)
    change 0 ≤ g.y.size
    omega
  · simp only [blankRow, List.getElem_replicate]
    rw [Pad.cells_new hposX hposY]

theorem onColumnKey_sound (h : Sound texts s) : Sound texts s.onColumnKey := by
  have hkey : Key.f 2 ≠ .enter := by decide
  have hcolumns := DialogConnectionColumns.columns_step (d := s.dialogColumns) hkey
  unfold onColumnKey
  exact h.dialog (h.valid.step (.f 2)) hcolumns.1 _

variable (htexts : texts.IsPrintable)
include htexts

/-- **An update leaves what would be drawn from scratch.** -/
theorem updateList_sound (h : Sound texts s) :
    Sound texts (updateList texts s) ∧ ShowsList texts (updateList texts s) ∧
      (updateList texts s).list.isRefreshRequired = false := by
  have hroom := h.room h.targetSize
  have hsix := h.six_le_height
  -- the loop draws every row that waits
  have hloop := updateLoop_spec htexts h.shown hroom
  rw [← h.totalWidth] at hloop
  unfold updateList
  generalize updateLoop texts s.options s.columns s.columnsTotalWidth s.list s.pad = x at hloop ⊢
  obtain ⟨l, p⟩ := x
  obtain ⟨hshown, hdrawn, hclean, hflag⟩ := hloop
  dsimp only at hshown hdrawn hclean hflag ⊢
  have hkeeps := hdrawn.pad
  -- rows that have lost their connection are cleared
  have hspec := clear_spec l.getSize s.currentSize s.getListSize hkeeps.plain
    (hkeeps.attr.trans h.attr) (by rw [hkeeps.height, getListSize, listBeginPos]; omega)
    (fun r hsize hle hlt => by
      rw [hkeeps.width]
      exact (h.blank r hle hlt).congr (hdrawn.others _ (.inr (by rw [← hdrawn.size]; omega))))
  dsimp only at hspec
  generalize (if l.getSize < s.currentSize ∧ l.getSize < s.getListSize then
    clearRows p (listBeginPos + l.getSize) (s.currentSize - l.getSize) else p) = q at hspec ⊢
  obtain ⟨hclear, habove, hbelow⟩ := hspec
  have hpad := hkeeps.trans hclear
  have hlist : q.height - 6 = s.getListSize := by rw [hpad.height, getListSize]
  -- what comes behind the loop only resets flags
  have hsame : ConnectionList.Repaints l l.resetConnectionDetailRefresh :=
    .of_same rfl rfl rfl rfl rfl
  have hshown' : Shown texts s.options s.columns l.resetConnectionDetailRefresh q :=
    (hshown.congr hclear.width fun y _ hy => habove y hy).repaints hsame
  have hinv := hdrawn.inv h.inv
  rw [← hclear.width] at hbelow
  refine ⟨⟨⟨⟨{ hinv with }, ?_, h.valid, h.fits, h.maxSize, h.minWidth, h.minHeight, ?_, ?_, ?_,
    hpad.plain, ?_⟩, h.totalWidth, h.minSize⟩, ?_, ?_, hshown'⟩, ?_, hflag⟩
  · exact hdrawn.storage ▸ h.storage
  · exact hpad.width ▸ h.width
  · exact hpad.height ▸ h.height
  · exact hpad.attr.trans h.attr
  · intro r hle hlt
    exact hbelow r hle (hlist ▸ hlt)
  · exact hdrawn.targetSize.trans (h.targetSize.trans hlist.symm)
  · have hrow : q.cells statusHeaderHeight = s.pad.cells statusHeaderHeight :=
      (habove _ (by rw [statusHeaderHeight, listBeginPos]; omega)).trans
        (hdrawn.others _ (.inl (by decide)))
    change q.Shows statusHeaderHeight 0 (headerCells s.columns q.width)
    rw [hpad.width]
    exact h.header.congr hrow
  · exact .of_shown hshown' hclean fun r hle hlt => hbelow r hle (hlist ▸ hlt)

theorem handleResize_sound (h : Laid s) : Sound texts (handleResize texts s) :=
  (updateList_sound htexts ((h.setTargetSize s.getListSize).redrawn
    (ConnectionList.setTargetSize_window s.list s.getListSize).targetSize)).1

/-- The pad stays, or all is drawn again. -/
theorem resized_cases (h : Base s) {term : ScreenSize} {g : ScreenGeometry} (hg : Sized s term g)
    (htotal : s.columnsTotalWidth = getColumnsTotalWidth s.columns) :
    (resized texts { s with term } g = { s with term, geometry := g } ∧
      Laid { s with term, geometry := g }) ∨ Sound texts (resized texts { s with term } g) := by
  unfold resized
  split_ifs with hsize
  · exact .inr (handleResize_sound htexts ⟨h.erased hg, htotal, hg.minSize⟩)
  · exact .inl ⟨rfl, h.laid hg (not_not.mp hsize) htotal⟩

theorem onResize_sound (h : Sound texts s) (term : ScreenSize) :
    Sound texts (onResize texts s term) := by
  obtain ⟨hmin, hmax⟩ := ScreenGeometry.onResize_limits s.geometry term
  have hg : Sized s term (s.geometry.onResize term) :=
    .of_limits (ScreenGeometry.onResize_fits h.fits.1.nonneg h.fits.2.nonneg)
      (hmax.trans h.maxSize) (by
        rw [hmin, ScreenGeometry.getMinSize, h.minSize, h.minHeight])
  have hresized : Sound texts (resized texts { s with term } (s.geometry.onResize term)) := by
    rcases resized_cases htexts h.toBase hg h.totalWidth with ⟨heq, hlaid⟩ | hsound
    · rw [heq]
      exact ⟨hlaid, h.targetSize, h.header, h.shown⟩
    · exact hsound
  unfold onResize
  dsimp only
  split_ifs
  · exact { hresized with }
  · exact hresized

/-- Before the columns have their width. -/
theorem setMinWidth_laid (h : Base s)
    (htotal : s.columnsTotalWidth = getColumnsTotalWidth s.columns) :
    Laid (setMinWidth texts s) ∧ (s.list.targetSize = s.getListSize →
      (setMinWidth texts s).list.targetSize = (setMinWidth texts s).getListSize) := by
  unfold setMinWidth
  split_ifs with hsame
  · refine ⟨⟨h, htotal, ?_⟩, id⟩
    have hmin := h.minWidth
    change s.geometry.x.minSize = s.columnsTotalWidth at hsame
    omega
  · obtain ⟨hmin, hmax⟩ := ScreenGeometry.setMinSize_limits s.geometry s.term
      ⟨max (s.columnsTotalWidth : ℤ) 80, s.geometry.getMinSize.y⟩
    have hg : Sized s s.term (s.geometry.setMinSize s.term
        ⟨max (s.columnsTotalWidth : ℤ) 80, s.geometry.getMinSize.y⟩) :=
      .of_limits (ScreenGeometry.setMinSize_fits h.fits _) (hmax.trans h.maxSize) (by
        rw [hmin, ScreenGeometry.getMinSize, h.minHeight])
    rcases resized_cases htexts h hg htotal with ⟨heq, hlaid⟩ | hsound
    · rw [heq]
      exact ⟨hlaid, id⟩
    · exact ⟨hsound.toLaid, fun _ => hsound.targetSize⟩

theorem updateColumns_sound (h : Base s) (htarget : s.list.targetSize = s.getListSize) :
    Sound texts (updateColumns texts s) := by
  have hbase : Base { s with columnsTotalWidth := getColumnsTotalWidth s.columns } := { h with }
  obtain ⟨hlaid, hsize⟩ := setMinWidth_laid htexts hbase rfl
  exact (updateList_sound htexts (hlaid.redrawn (hsize htarget))).1

/-! ## Steps -/

theorem init_sound (term : ScreenSize) : Sound texts (init texts term) :=
  handleResize_sound htexts
    (setMinWidth_laid htexts (new_base DialogConnectionColumns.init_valid term) rfl).1

theorem moveBy_sound (h : Sound texts s) (offset : ℤ) : Sound texts (moveBy texts s offset) := by
  unfold moveBy
  dsimp only
  generalize hl : (if s.options.showCursor then s.list.moveCursor offset
    else s.list.doScroll offset) = l
  have hlist : Sound texts { s with list := l } := by
    rw [← hl]
    split_ifs
    · have hstorage := (ConnectionList.moveCursor_storage h.inv.cursor_le offset).1
      exact h.list (h.inv.moveCursor offset) (hstorage.symm ▸ h.storage)
        (ConnectionList.moveCursor_repaints _ offset) (moveCursor_targetSize h.inv offset)
    · have hstorage := (ConnectionList.doScroll_storage s.list offset).1
      refine h.list (h.inv.doScroll offset) (hstorage.symm ▸ h.storage) ?_
        (doScroll_targetSize _ offset)
      rcases ConnectionList.doScroll_repaints s.list offset with ⟨heq, -⟩ | hscrolled
      · rw [heq]
        exact .refl _
      · exact hscrolled _
  split_ifs
  · exact (updateList_sound htexts hlist).1
  · exact hlist
  · exact h

theorem handleKey_sound (h : Sound texts s) (key : Key) : Sound texts (handleKey texts s key) := by
  unfold handleKey
  split
  · exact moveBy_sound htexts h _
  · exact moveBy_sound htexts h _
  · exact moveBy_sound htexts h _
  · exact moveBy_sound htexts h _
  · split_ifs
    · exact h.list h.inv.initConnectionDetail h.storage (.of_same rfl rfl rfl rfl rfl) rfl
    · exact h
  · exact onColumnKey_sound h
  · exact (updateList_sound htexts (h.showCursor _)).1
  · exact (updateList_sound htexts (h.setOptions _)).1
  · exact (updateList_sound htexts (h.setOptions _)).1
  · exact h

theorem onOwnKey_sound (h : Sound texts s) (key : Key) : Sound texts (onOwnKey texts s key) := by
  unfold onOwnKey
  split
  · next geometry hg => exact h.scroll hg
  · exact handleKey_sound htexts h key

/-- A key changes the columns only if it applies them. -/
theorem onKey_sound (h : Sound texts s) (key : Key) : Sound texts (onKey texts s key) := by
  unfold onKey
  by_cases hopen : s.dialogColumns.isOpen = true
  · rw [if_pos hopen]
    split
    · exact h.dialog h.valid rfl _
    · next d _ hd =>
      by_cases henter : key = .enter
      · rw [if_pos henter]
        have hbase : Base { s with dialogColumns := d } :=
          { h with valid := h.valid.handleKey hopen hd }
        exact updateColumns_sound htexts hbase h.targetSize
      · rw [if_neg henter]
        have hstep : s.dialogColumns.step key = d := by
          unfold DialogConnectionColumns.step
          rw [if_pos hopen, hd, Option.getD_some]
        have hcolumns := DialogConnectionColumns.columns_step (d := s.dialogColumns) henter
        rw [hstep] at hcolumns
        exact h.dialog (h.valid.handleKey hopen hd) hcolumns.1 _
    · exact onOwnKey_sound htexts h key
  · rw [if_neg hopen]
    exact onOwnKey_sound htexts h key

theorem step_sound (S : StdSort) {inet : InetText} (hinet : ∀ a, IsText (utf8 (inet.ntop a)))
    (h : Sound texts s) {event : Event} (hevent : event.IsPrintable) :
    Sound texts (step S inet texts s event) := by
  cases event with
  | list op =>
    change Sound texts (if Arrives s.list op then _ else s)
    split_ifs with hop
    · exact h.list (ConnectionList.step_inv S inet h.inv op)
        (ConnectionList.step_isPrintable S hinet h.inv hevent h.storage)
        (ConnectionList.step_repaints S inet h.inv op hop.1) (step_targetSize S inet h.inv op hop.2)
    · exact h
  | updateList => exact (updateList_sound htexts h).1
  | updateSortMode mode isAscending =>
    have hstorage := ConnectionList.setSortMode_storage s.list mode isAscending
    exact (updateList_sound htexts (h.list (h.inv.setSortMode mode isAscending)
      (hstorage.symm ▸ h.storage) (ConnectionList.setSortMode_repaints _ mode isAscending)
      (ConnectionList.setSortMode_sameWindow _ mode isAscending).targetSize)).1
  | resize term => exact onResize_sound htexts h term
  | key key => exact onKey_sound htexts h key

theorem run_sound (S : StdSort) {inet : InetText} (hinet : ∀ a, IsText (utf8 (inet.ntop a)))
    (term : ScreenSize) (events : List Event) (hevents : ∀ event ∈ events, event.IsPrintable) :
    Sound texts (events.foldl (step S inet texts) (init texts term)) :=
  GuardedRun.foldl_inv_of_meets (I := Sound texts) (C := fun _ event => event.IsPrintable)
    (fun _ _ h hevent => step_sound htexts S hinet h hevent) events _ (init_sound htexts term)
    fun _ hi => hevents _ (List.getElem_mem hi)

end Drawing

/-- **The screen shows the list.** After any run, an update ends with no row waiting. The header is
that of the columns which were applied last, each row of the list is the one that would be drawn
from scratch for the connection there, and the rows behind the last connection are blank. All rows
are as wide as the pad, and those of the list are as many as the pad has room for. -/
theorem run_shows [LawfulPadLibrary Attr] (S : StdSort) (inet : InetText) (texts : Texts)
    (term : ScreenSize) (events : List Event) (htexts : texts.IsPrintable)
    (hinet : ∀ a, IsText (utf8 (inet.ntop a))) (hevents : ∀ event ∈ events, event.IsPrintable) :
    let s := updateList texts (events.foldl (step S inet texts) (init texts term))
    s.list.isRefreshRequired = false ∧ s.list.targetSize = s.getListSize ∧
      s.list.getSize ≤ s.getListSize ∧ listBeginPos + s.getListSize + 1 = s.pad.height ∧
      getColumnsTotalWidth s.columns ≤ s.pad.width ∧
      s.pad.Shows statusHeaderHeight 0 (headerCells s.columns s.pad.width) ∧
      (headerCells s.columns s.pad.width).length = s.pad.width ∧
      ∀ r < s.getListSize,
        (r < s.list.getSize → ∃ item, s.list.list[s.list.scrollOffset + r]? = some item ∧
          let row := rowCells texts s.options s.list.storage item.pConnection
            (r == s.list.cursorPos) s.columns s.pad.width
          s.pad.Shows (listBeginPos + r) 0 row ∧ row.length = s.pad.width) ∧
        (s.list.getSize ≤ r → s.pad.Shows (listBeginPos + r) 0 (blankRow s.pad.width)) := by
  intro s
  obtain ⟨h, hshows, hflag⟩ :=
    updateList_sound htexts (run_sound htexts S hinet term events hevents)
  have hsix := h.six_le_height
  have hsize := getSize_le_targetSize h.inv
  rw [h.targetSize] at hsize
  refine ⟨hflag, h.targetSize, hsize, ?_, h.totalWidth_le, h.header,
    length_headerCells h.totalWidth_le, fun r hr => ⟨fun hlt => ?_, (hshows r hr).2⟩⟩
  · change 5 + (s.pad.height - 6) + 1 = s.pad.height
    have hsix' : 6 ≤ s.pad.height := hsix
    omega
  · obtain ⟨item, hitem, hrow⟩ := (hshows r hr).1 hlt
    exact ⟨item, hitem, hrow,
      length_rowCells (fun column hmem => (h.valid.widths column hmem).1) h.totalWidth_le⟩

end ScreenConnectionList

end Screen

namespace ScreenConnectionList

private def listedAddr : Address := .ip4 0x0100007F#32
private def listedPort : Port := ⟨.tcp, 22⟩
private def listedConn : Connection := ⟨listedAddr, listedPort, listedAddr, listedPort, rfl, rfl⟩

/-- A connection is added, and its address resolved. -/
def listedEvents : List Event :=
  [.list (.getAddress listedAddr true), .list (.getPort listedPort true),
    .list (.add listedConn {}), .updateList,
    .list (.resolveAddress listedAddr
      { hostname := "localhost", country := ⟨0, unknownCountry_lt⟩ })]

theorem run_shows_hostname :
    letI := PadView.library Attr
    let s := updateList .plain (listedEvents.foldl (step .insertion .plain .plain)
      (init .plain ⟨80, 24⟩))
    s.pad.Shows listBeginPos 0 (rowCells .plain s.options s.list.storage listedConn true s.columns
      s.pad.width) := by
  let := PadView.library Attr
  have := PadView.library_lawful Attr
  have hhostname : IsText (utf8 "localhost") := by decide
  have hevents : ∀ event ∈ listedEvents, event.IsPrintable := by
    simp only [listedEvents, List.forall_mem_cons]
    exact ⟨trivial, trivial, trivial, trivial, ⟨hhostname, isText_nil⟩, fun _ h => by cases h⟩
  have h := run_shows .insertion .plain .plain ⟨80, 24⟩ listedEvents Texts.plain_isPrintable
    isText_utf8_ntop hevents
  obtain ⟨s, hs⟩ : ∃ s, updateList .plain (listedEvents.foldl (step .insertion .plain .plain)
    (init .plain ⟨80, 24⟩)) = s := ⟨_, rfl⟩
  simp only [hs] at h ⊢
  obtain ⟨-, -, -, -, -, -, -, hrows⟩ := h
  have hsize : 0 < s.list.getSize ∧ 0 < s.getListSize ∧ s.list.cursorPos = 0 := by
    rw [← hs]
    decide +kernel
  have hfirst : (s.list.list[s.list.scrollOffset + 0]?).map (·.pConnection) = some listedConn := by
    rw [← hs]
    decide +kernel
  obtain ⟨item, hitem, hrow, -⟩ := (hrows 0 hsize.2.1).1 hsize.1
  rw [hitem, Option.map_some, Option.some.injEq] at hfirst
  rw [hfirst, hsize.2.2] at hrow
  exact hrow

end ScreenConnectionList

end Conntop
