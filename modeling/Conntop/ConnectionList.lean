import Conntop.Compare

/-!
# `ConnectionList`

The list of connections behind the main screen. It owns a `ConnectionStorage` and keeps
`m_list`, the first `m_scrollOffset + m_targetSize` connections in the chosen order, of which
the part from `m_scrollOffset` on is visible.

* An `Item` of the list has the flags of the columns that need a repaint.
* `StdSort` is `std::sort`: some sorted permutation, of which no stability is assumed.
* `getListBeginIt` is a position, equal to the length of the list for `m_list.end()`.
* `m_compareFunc` is the function `compareFunc` of the list.
* Row numbers and counts are natural numbers. The source keeps them in `unsigned int` and
  forms differences in `int`, which is exact while they stay below `2 ^ 31`.
* `Op` are the calls on the class, and `run` a sequence of them.
-/

namespace Conntop

open SortedList

/-- An entry of `m_list`. -/
structure Item where
  pConnection : Connection
  updateFlags : Flags := -1
  isRefreshRequired : Bool := true
  deriving DecidableEq, Repr

namespace Item

/-- Mark some columns for repaint. -/
def mark (flags : Flags) (item : Item) : Item :=
  { item with updateFlags := item.updateFlags ||| flags, isRefreshRequired := true }

/-- Mark all columns for repaint. -/
def invalidate (item : Item) : Item := { item with updateFlags := -1, isRefreshRequired := true }

@[simp] theorem mark_pConnection (flags : Flags) (item : Item) :
    (item.mark flags).pConnection = item.pConnection := rfl

@[simp] theorem invalidate_pConnection (item : Item) :
    item.invalidate.pConnection = item.pConnection := rfl

end Item

/-- `std::sort` on items, for a strict weak order on their connections. -/
structure StdSort where
  sort : (Connection → Connection → Bool) → List Item → List Item
  perm : ∀ lt l, WeakOrder lt → (sort lt l).Perm l
  sorted : ∀ lt l, WeakOrder lt → Sorted lt ((sort lt l).map (·.pConnection))

/-- A stable sort does what `std::sort` must do. -/
def StdSort.insertion : StdSort where
  sort lt := insertionSort fun a b => lt a.pConnection b.pConnection
  perm _ l _ := insertionSort_perm l
  sorted _ l h := List.pairwise_map.mpr <|
    have := weakOrder_comap (f := Item.pConnection) h
    insertionSort_sorted l

/-- A request that the list makes to the resolver. -/
inductive ResolverRequest
  | address (a : Address)
  | port (p : Port)
  deriving DecidableEq, Repr

/-- `ResolvedAddress`. -/
structure ResolvedAddress where
  hostname : String := ""
  country : ECode := 0
  asn : ASN := {}
  deriving DecidableEq, Repr

/-- `ResolvedPort`. -/
structure ResolvedPort where
  service : String := ""
  deriving DecidableEq, Repr

/-- `setResolvedHostname`, `setResolvedCountry` and `setResolvedASN`. -/
def AddressData.setResolved (d : AddressData) (resolved : ResolvedAddress) : AddressData :=
  { d with
    hostname := resolved.hostname, isHostnameResolved := true
    country := resolved.country, isCountryResolved := true
    asn := resolved.asn, isASNResolved := true }

/-- `setResolvedService`. -/
def PortData.setResolved (d : PortData) (resolved : ResolvedPort) : PortData :=
  { d with service := resolved.service, isServiceResolved := true }

/-- `ConnectionListUpdate`, without the one that is empty. -/
structure ConnectionListUpdate where
  data : Connection
  updateFlags : Flags
  rowNumber : ℕ
  isCursor : Bool
  deriving DecidableEq, Repr

/-- `resolverRequests` logs the calls made to the resolver. -/
structure ConnectionList where
  storage : ConnectionStorage := {}
  list : List Item := []
  targetSize : ℕ := 0
  scrollOffset : ℕ := 0
  cursorPos : ℕ := 0
  dataTotalCount : ℕ := 0
  dataResolvedCount : ℕ := 0
  connectionDetail : Option Connection := none
  connectionDetailUpdateFlags : Flags := 0
  sortMode : EConnectionSortMode := .none
  isSortAscending : Bool := false
  isRefreshRequired : Bool := true
  resolverRequests : List ResolverRequest := []

namespace ConnectionList

variable (l : ConnectionList)

/-- `m_compareFunc`. -/
def compareFunc (a b : Connection) : Bool :=
  Conntop.compareFunc l.storage l.sortMode l.isSortAscending a b

def compareItem (a b : Item) : Bool := l.compareFunc a.pConnection b.pConnection

def getSize : ℕ :=
  if l.list.length > l.scrollOffset then l.list.length - l.scrollOffset else 0

def getCursorMaxPos : ℕ := if l.getSize > 0 then l.getSize - 1 else 0

def getListBeginIndex : ℕ := if l.list.length > l.scrollOffset then l.scrollOffset else 0

/-- The position of the iterator, the length of the list for `end()`. -/
def getListBeginIt : ℕ :=
  if l.list.length > l.scrollOffset then l.scrollOffset else l.list.length

def containsItem (item : Item) : Bool := l.list.any (·.pConnection == item.pConnection)

/-- `m_compareFunc(item, m_list.back())`, false on an empty list. -/
def compareBack (item : Item) : Bool := l.list.getLast?.any (l.compareItem item)

/-- Invalidate the items from a position on. -/
def invalidateFrom (i : ℕ) (items : List Item) : List Item :=
  items.take i ++ (items.drop i).map Item.invalidate

/-! ## Private operations -/

def invalidateAllVisible : ConnectionList :=
  { l with list := invalidateFrom l.getListBeginIt l.list, isRefreshRequired := true }

def invalidateCursor : ConnectionList :=
  if l.getListBeginIt = l.list.length then l
  else { l with
    list := l.list.modify (l.getListBeginIt + l.cursorPos) Item.invalidate
    isRefreshRequired := true }

def sort (S : StdSort) : ConnectionList :=
  { l with list := S.sort l.compareFunc l.list }.invalidateAllVisible

/-- Remove the last element of an overfull list. -/
def popOverfull : ConnectionList :=
  if l.getSize > l.targetSize then { l with list := l.list.dropLast } else l

def insertItem (item : Item) : ConnectionList :=
  let index := upperBound l.compareItem item l.list
  let l := { l with list := l.list.insertIdx index item }.popOverfull
  let index := max index l.getListBeginIndex
  { l with list := invalidateFrom index l.list, isRefreshRequired := true }

/-- One round of the loop of `fill`. -/
def fillItem (c : Connection) : ConnectionList :=
  let item : Item := { pConnection := c }
  if l.compareBack item then if l.containsItem item then l else l.insertItem item
  else if l.getSize < l.targetSize then
    if l.containsItem item then l else { l with list := l.list ++ [item] }
  else l

/-- The first push of `fill` into an empty list. -/
def fillFirst : ConnectionList :=
  if l.list.isEmpty then
    { l with list := (l.storage.connectionMap.keys.head?.map fun c => { pConnection := c }).toList }
  else l

def fill : ConnectionList :=
  if l.targetSize ≤ l.getSize || l.storage.getConnectionCount ≤ l.list.length then l
  else { l.storage.connectionMap.keys.foldl fillItem l.fillFirst with isRefreshRequired := true }

def handleNewConnection (c : Connection) : ConnectionList :=
  let item : Item := { pConnection := c }
  if l.compareBack item then l.insertItem item
  else if l.getSize < l.targetSize then
    { l with list := l.list ++ [item], isRefreshRequired := true }
  else l

/-- Keep the cursor inside the visible part. -/
def clampCursor : ConnectionList :=
  if l.cursorPos > l.getCursorMaxPos then
    { l with cursorPos := l.getCursorMaxPos }.invalidateCursor
  else l

/-- Close the detail dialog when it shows the removed connection. -/
def removeDetail (c : Connection) : ConnectionList :=
  if l.connectionDetail = some c then
    { l with connectionDetail := none, connectionDetailUpdateFlags := -1 }
  else l

/-- Erase the removed connection and invalidate all visible connections after it. -/
def eraseItem (c : Connection) : ConnectionList :=
  let it := l.list.findIdx (·.pConnection == c)
  let l := { l with list := l.list.eraseIdx it }
  { l with list := invalidateFrom (max it l.getListBeginIt) l.list }

def handleRemovedConnection (c : Connection) : ConnectionList :=
  { ((l.removeDetail c).eraseItem c).fill.clampCursor with isRefreshRequired := true }

/-! ## `IConnectionUpdateCallback` -/

def getAddress (inet : InetText) (a : Address) (add : Bool) : ConnectionList × Option Address :=
  if add then
    let (storage, isNew) := l.storage.addAddress inet a
    (if isNew then { l with
        storage := storage
        dataTotalCount := l.dataTotalCount + 1
        resolverRequests := l.resolverRequests ++ [.address a] }
      else { l with storage := storage }, some a)
  else (l, l.storage.getAddress a)

def getPort (p : Port) (add : Bool) : ConnectionList × Option Port :=
  if add then
    let (storage, isNew) := l.storage.addPort p
    (if isNew then { l with
        storage := storage
        dataTotalCount := l.dataTotalCount + 1
        resolverRequests := l.resolverRequests ++ [.port p] }
      else { l with storage := storage }, some p)
  else (l, l.storage.getPort p)

def find (c : Connection) : Option Connection := l.storage.getConnection c

/-- Both functions `add`: the one without traffic and state stores default data. -/
def add (c : Connection) (d : ConnectionData := {}) : ConnectionList :=
  let (storage, isNew) := l.storage.addConnection c d
  if isNew then { l with storage := storage }.handleNewConnection c
  else { l with storage := storage }

/-- The part of `update` for a listed connection: sort when it is out of order with a
neighbour, fill when it may have become the last one. -/
def updateListed (S : StdSort) (i : ℕ) (item : Item) : ConnectionList :=
  let afterPrev := 0 < i && (l.list[i - 1]?).any (l.compareItem item)
  let beforeNext := (l.list[i + 1]?).any (l.compareItem · item)
  let isSortRequired := afterPrev || beforeNext
  let isFillRequired :=
    if i + 1 < l.list.length then l.list.getLast?.any (l.compareItem · item) else !isSortRequired
  let l := if isSortRequired then l.sort S else l
  if isFillRequired then l.fill else l

/-- Set the columns of the detail dialog when it shows the connection. -/
def setDetailFlags (c : Connection) (updateFlags : Flags) : ConnectionList :=
  if l.connectionDetail = some c then { l with connectionDetailUpdateFlags := updateFlags } else l

/-- Mark the columns of an item that is not hidden. -/
def markItem (i : ℕ) (updateFlags : Flags) : ConnectionList :=
  if l.getListBeginIndex ≤ i then { l with
    list := l.list.modify i (Item.mark updateFlags)
    isRefreshRequired := true }
  else l

def update (S : StdSort) (c : Connection) (updateFlags : Flags) : ConnectionList :=
  let l := l.setDetailFlags c updateFlags
  if l.list.isEmpty then l
  else
    let i := l.list.findIdx (·.pConnection == c)
    let item : Item := { pConnection := c }
    if i < l.list.length then (l.markItem i updateFlags).updateListed S i item
    else if l.compareBack item then l.insertItem item
    else l

def remove (c : Connection) : ConnectionList :=
  let (storage, found) := l.storage.removeConnection c
  if found then { l with storage := storage }.handleRemovedConnection c else l

def clear : ConnectionList :=
  { l with
    list := []
    storage := l.storage.clearConnections
    cursorPos := 0
    connectionDetail := none
    connectionDetailUpdateFlags := -1
    isRefreshRequired := true }

/-! ## Resolved addresses and ports -/

/-- Offer a connection that may compare before the last one now. -/
def insertBetter (c : Connection) : ConnectionList :=
  let item : Item := { pConnection := c }
  if l.compareBack item then if l.containsItem item then l else l.insertItem item else l

/-- Whether a visible item has the resolved address or port, which `touches` finds. -/
def isVisible (touches : Connection → Bool) : Bool :=
  (l.list.drop l.getListBeginIt).any fun item => touches item.pConnection

def isHidden (touches : Connection → Bool) : Bool :=
  (l.list.take l.getListBeginIt).any fun item => touches item.pConnection

/-- Mark the columns that show the resolved address or port. -/
def markVisible (touches : Connection → Bool) (flags : Connection → Flags) : ConnectionList :=
  { l with
    list := l.list.take l.getListBeginIt ++ (l.list.drop l.getListBeginIt).map fun item =>
      if touches item.pConnection then item.mark (flags item.pConnection) else item
    isRefreshRequired := l.isVisible touches || l.isRefreshRequired }

/-- What `addressDataUpdated` and `portDataUpdated` do with `m_list`. -/
def dataUpdated (S : StdSort) (mayAffectOrder : Bool) (touches : Connection → Bool)
    (flags : Connection → Flags) : ConnectionList :=
  if l.list.isEmpty then l
  else
    let contains := mayAffectOrder && l.isHidden touches || l.isVisible touches
    let l := l.markVisible touches flags
    if mayAffectOrder then
      let l := if contains then l.sort S else l
      (l.storage.connectionMap.keys.filter touches).foldl insertBetter l
    else l

/-- The columns of a connection that show an address. -/
def addressFlags (a : Address) (c : Connection) : Flags :=
  (if c.srcAddr = a then EConnectionUpdateFlags.srcAddress else 0) |||
    if c.dstAddr = a then EConnectionUpdateFlags.dstAddress else 0

/-- The columns of a connection that show a port. -/
def portFlags (p : Port) (c : Connection) : Flags :=
  if c.hasPorts then
    (if c.srcPort = p then EConnectionUpdateFlags.srcPort else 0) |||
      if c.dstPort = p then EConnectionUpdateFlags.dstPort else 0
  else 0

/-- Add the columns of the detail dialog that show an address or a port. -/
def markDetail (flags : Connection → Flags) : ConnectionList :=
  match l.connectionDetail with
  | some c => { l with
      connectionDetailUpdateFlags := l.connectionDetailUpdateFlags ||| flags c }
  | none => l

def addressDataUpdated (S : StdSort) (a : Address) : ConnectionList :=
  (l.markDetail (addressFlags a)).dataUpdated S (addressMayAffectOrder l.sortMode)
    (·.hasAddr a) (addressFlags a)

def portDataUpdated (S : StdSort) (p : Port) : ConnectionList :=
  (l.markDetail (portFlags p)).dataUpdated S (portMayAffectOrder l.sortMode)
    (fun c => c.hasPorts && c.hasPort p) (portFlags p)

/-- The storage after `ResolverCallbackAddress` wrote what was resolved. -/
def setResolvedAddress (a : Address) (resolved : ResolvedAddress) : ConnectionStorage :=
  l.storage.setAddressData a ((l.storage.addressData a).setResolved resolved)

/-- The storage after `ResolverCallbackPort` wrote what was resolved. -/
def setResolvedPort (p : Port) (resolved : ResolvedPort) : ConnectionStorage :=
  l.storage.setPortData p ((l.storage.portData p).setResolved resolved)

/-- `ResolverCallbackAddress`. -/
def resolverCallbackAddress (S : StdSort) (a : Address) (resolved : ResolvedAddress) :
    ConnectionList :=
  { l with
    storage := l.setResolvedAddress a resolved
    dataResolvedCount := l.dataResolvedCount + 1 }.addressDataUpdated S a

/-- `ResolverCallbackPort`. -/
def resolverCallbackPort (S : StdSort) (p : Port) (resolved : ResolvedPort) : ConnectionList :=
  { l with
    storage := l.setResolvedPort p resolved
    dataResolvedCount := l.dataResolvedCount + 1 }.portDataUpdated S p

/-! ## The user interface -/

/-- Mark an item as painted. -/
def clearItem (item : Item) : Item := { item with updateFlags := 0, isRefreshRequired := false }

/-- The first visible item that requires a refresh becomes the update. -/
def getNextUpdate : ConnectionList × Option ConnectionListUpdate :=
  if l.isRefreshRequired then
    let begin := l.getListBeginIt
    match (l.list.drop begin).findIdx? (·.isRefreshRequired) with
    | some row =>
      match l.list[begin + row]? with
      | some item =>
        ({ l with list := l.list.modify (begin + row) clearItem },
          some ⟨item.pConnection, item.updateFlags, row, row == l.cursorPos⟩)
      | none => (l, none)
    | none => ({ l with isRefreshRequired := false }, none)
  else (l, none)

def doScroll (amount : ℤ) : ConnectionList :=
  if amount < 0 then
    let amount := min (-amount).toNat l.scrollOffset
    if 0 < amount then
      let l := { l with scrollOffset := l.scrollOffset - amount }
      let diff := l.getSize - l.targetSize
      { l with list := l.list.take (l.list.length - diff) }.invalidateAllVisible
    else l
  else
    let amount := min amount.toNat (l.storage.getConnectionCount - l.list.length)
    if 0 < amount then
      ({ l with scrollOffset := l.scrollOffset + amount }.invalidateAllVisible).fill
    else l

/-- Move the cursor inside the visible part. -/
def setCursorPos (pos : ℕ) : ConnectionList :=
  { l.invalidateCursor with cursorPos := pos }.invalidateCursor

def moveCursor (amount : ℤ) : ConnectionList :=
  if amount < 0 then
    let maxAmount : ℤ := l.cursorPos
    if -amount > maxAmount ∧ 0 < l.scrollOffset then
      { l with cursorPos := 0 }.doScroll (maxAmount + amount)
    else if 0 < l.cursorPos then
      l.setCursorPos (l.cursorPos - min (-amount) maxAmount).toNat
    else l
  else if 0 < amount then
    let maxPos := l.getCursorMaxPos
    let maxAmount : ℤ := maxPos - l.cursorPos
    if amount > maxAmount ∧ l.list.length < l.storage.getConnectionCount then
      { l with cursorPos := maxPos }.doScroll (amount - maxAmount)
    else if l.cursorPos < maxPos then
      l.setCursorPos (l.cursorPos + min amount maxAmount).toNat
    else l
  else l

def initConnectionDetail : ConnectionList :=
  { l with
    connectionDetail :=
      if l.getListBeginIt = l.list.length then none
      else (l.list[l.getListBeginIt + l.cursorPos]?).map (·.pConnection)
    connectionDetailUpdateFlags := -1 }

def resetConnectionDetailRefresh : ConnectionList := { l with connectionDetailUpdateFlags := 0 }

/-- Remove the items that do not fit into the window, or fill it. -/
def resize : ConnectionList :=
  if l.getSize > l.targetSize then
    let diff := l.getSize - l.targetSize
    { l with list := l.list.take (l.list.length - diff), isRefreshRequired := true }
  else if l.getSize < l.targetSize then l.fill
  else l

def setTargetSize (size : ℕ) : ConnectionList :=
  if l.targetSize = size then l else { l with targetSize := size }.resize.clampCursor

def setSortMode (mode : EConnectionSortMode) (isAscending : Bool) : ConnectionList :=
  if l.sortMode = mode ∧ l.isSortAscending = isAscending then l
  else { { l with sortMode := mode, isSortAscending := isAscending, list := [] }.fill with
    isRefreshRequired := true }

end ConnectionList

end Conntop
