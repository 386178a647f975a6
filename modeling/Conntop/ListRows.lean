import Conntop.Columns
import Conntop.Deserialize
import Conntop.Repaint

/-!
# The rows of the list

An update is drawn into the row of its connection, and of the columns only those whose flag is set.

* `columnData` is what `drawListEntry` does with a column. It needs no more than the `content` of
  the column's flag (`columnData_congr`).
* `rowCells` and `headerCells` are what a row and the header look like.
* A column that is not flagged may stay if it is there already (`Ready`).

The texts are bytes, and their lengths are in bytes. `IsPrintable` says that each of them takes one
cell.

Main result: `drawListEntry_wrote`. If the columns without a flag are there, the row is complete
afterwards, to the last cell of the pad, and no other row has changed.
-/

namespace Conntop

/-! ## What a column shows -/

/-- The number of a size is computed in floating point, the country codes are a table. -/
structure Texts where
  getHumanReadableSize : UInt64 → List Char
  getCodeString : ECode → List Char

theorem unknownCountry_lt : 0 < 250 := by decide

/-- The bytes of a text, each of them a `char`. -/
def utf8 (s : String) : List Char :=
  s.toList.flatMap fun c => (String.utf8EncodeChar c).map fun b => Char.ofNat b.toNat

/-- What F4, F5 and F6 switch. -/
structure ShowOptions where
  showCursor : Bool := true
  showHostname : Bool := true
  showPortname : Bool := true
  deriving DecidableEq, Repr

/-- The column among those with a flag of their own. -/
def ConnectionColumn.EType.column : EType → Column
  | .proto => .proto
  | .protoState => .protoState
  | .srcAddress | .srcCountry | .srcASN | .srcASNOrgName => .srcAddress
  | .srcPort => .srcPort
  | .dstAddress | .dstCountry | .dstASN | .dstASNOrgName => .dstAddress
  | .dstPort => .dstPort
  | .rxPackets => .rxPackets
  | .rxBytes => .rxBytes
  | .rxSpeed => .rxSpeed
  | .txPackets => .txPackets
  | .txBytes => .txBytes
  | .txSpeed => .txSpeed

/-- The default one has no text. -/
def ASN.getString (asn : ASN) : List Char :=
  if asn = {} then [] else "AS".toList ++ Nat.toDigits 10 asn.number.toNat

/-- A call of `drawDataLeft`, `drawDataRight` or `drawDataEmpty`. -/
inductive ColumnData
  | left (data : List Char) (attr : Attr)
  | right (data : List Char) (attr : Attr)
  | empty (attr : Attr)

def ColumnData.attr : ColumnData → Attr
  | left _ attr | right _ attr | empty attr => attr

namespace ScreenConnectionList

variable (texts : Texts) (options : ShowOptions) (st : ConnectionStorage) (c : Connection)
  (isCursor : Bool)

def defaultAttr : Attr := if isCursor then .selectedRow else .default

def unresolvedAttr : Attr := if isCursor then .unresolvedSelected else .unresolved

def trafficAttr : Attr := if isCursor then .trafficSelected else .traffic

def countryAttr : Attr := if isCursor then .countryCodeSelected else .countryCode

def protoAttr (type : EConnectionType) : Attr :=
  match type with
  | .udp4 | .udp6 => if isCursor then .protoUDPSelected else .protoUDP
  | .tcp4 | .tcp6 => if isCursor then .protoTCPSelected else .protoTCP

def addressText (address : AddressData) : ColumnData :=
  let attr := if address.isHostnameResolved then defaultAttr isCursor else unresolvedAttr isCursor
  if address.hostname ≠ "" ∧ options.showHostname then .right (utf8 address.hostname) attr
  else .right (utf8 address.numericString) attr

def portText (number : BitVec 16) (port : PortData) : ColumnData :=
  if c.hasPorts then
    let attr := if port.isServiceResolved then defaultAttr isCursor else unresolvedAttr isCursor
    if port.service ≠ "" ∧ options.showPortname then .left (utf8 port.service) attr
    else .left (Nat.toDigits 10 number.toNat) attr
  else .empty (defaultAttr isCursor)

def countryText (address : AddressData) : ColumnData :=
  if address.country.val ≠ 0 then .left (texts.getCodeString address.country) (countryAttr isCursor)
  else .empty (countryAttr isCursor)

def packetsText (packets : UInt64) : ColumnData :=
  .right (Nat.toDigits 10 packets.toNat) (trafficAttr isCursor)

def bytesText (bytes : UInt64) : ColumnData :=
  .right (texts.getHumanReadableSize bytes) (trafficAttr isCursor)

def speedText (speed : UInt64) : ColumnData :=
  if 0 < speed then .right (texts.getHumanReadableSize speed ++ "/s".toList) (trafficAttr isCursor)
  else .empty (trafficAttr isCursor)

/-- The `switch` of `drawListEntry`, without the flags. -/
def columnData : ConnectionColumn.EType → ColumnData
  | .proto => .left (Connection.typeToString c.getType).toList (protoAttr isCursor c.getType)
  | .protoState =>
    .left (EPortType.stateToString c.getType.portType (st.connectionData c).state).toList
      (defaultAttr isCursor)
  | .srcAddress => addressText options isCursor (st.addressData c.srcAddr)
  | .dstAddress => addressText options isCursor (st.addressData c.dstAddr)
  | .srcPort => portText options c isCursor c.srcPort.number (st.portData c.srcPort)
  | .dstPort => portText options c isCursor c.dstPort.number (st.portData c.dstPort)
  | .srcCountry => countryText texts isCursor (st.addressData c.srcAddr)
  | .dstCountry => countryText texts isCursor (st.addressData c.dstAddr)
  | .srcASN => .left (st.addressData c.srcAddr).asn.getString (defaultAttr isCursor)
  | .dstASN => .left (st.addressData c.dstAddr).asn.getString (defaultAttr isCursor)
  | .srcASNOrgName => .left (utf8 (st.addressData c.srcAddr).asn.orgName) (defaultAttr isCursor)
  | .dstASNOrgName => .left (utf8 (st.addressData c.dstAddr).asn.orgName) (defaultAttr isCursor)
  | .rxPackets => packetsText isCursor (st.connectionData c).traffic.rxPackets
  | .txPackets => packetsText isCursor (st.connectionData c).traffic.txPackets
  | .rxBytes => bytesText texts isCursor (st.connectionData c).traffic.rxBytes
  | .txBytes => bytesText texts isCursor (st.connectionData c).traffic.txBytes
  | .rxSpeed => speedText texts isCursor (st.connectionData c).traffic.rxSpeed
  | .txSpeed => speedText texts isCursor (st.connectionData c).traffic.txSpeed

/-- **The flags cover the columns.** What a column shows changes only with what its flag stands
for. -/
theorem columnData_congr {st st' : ConnectionStorage} {c : Connection}
    {type : ConnectionColumn.EType}
    (h : content st' c type.column = content st c type.column) :
    columnData texts options st' c isCursor type = columnData texts options st c isCursor type := by
  cases type <;> simp only [content, ConnectionColumn.EType.column, Content.address.injEq,
    Content.state.injEq, Content.port.injEq, Content.count.injEq, true_and] at h <;>
    simp only [columnData, h]

end ScreenConnectionList

/-! ## Printable texts -/

structure Texts.IsPrintable (texts : Texts) : Prop where
  size : ∀ n, IsText (texts.getHumanReadableSize n)
  code : ∀ c, IsText (texts.getCodeString c)

/-- Sizes below 2000 are written as they are. -/
def Texts.plain : Texts where
  getHumanReadableSize n := Nat.toDigits 10 (n.toNat % 2000) ++ " B".toList
  getCodeString _ := "?".toList

theorem Texts.plain_isPrintable : Texts.plain.IsPrintable := by
  have hunit : IsText " B".toList := by decide
  have hcode : IsText "?".toList := by decide
  exact ⟨fun n => (isText_toDigits _).append hunit, fun _ => hcode⟩

structure AddressData.IsPrintable (data : AddressData) : Prop where
  numericString : IsText (utf8 data.numericString)
  hostname : IsText (utf8 data.hostname)
  orgName : IsText (utf8 data.asn.orgName)

def PortData.IsPrintable (data : PortData) : Prop := IsText (utf8 data.service)

structure ConnectionStorage.IsPrintable (st : ConnectionStorage) : Prop where
  address : ∀ a, (st.addressData a).IsPrintable
  port : ∀ p, (st.portData p).IsPrintable

def ColumnData.IsPrintable : ColumnData → Prop
  | left data _ | right data _ => IsText data
  | empty _ => True

theorem utf8_empty : utf8 "" = [] := rfl

theorem encode_of_isPrintable {c : Char} (h : IsPrintable c) :
    (String.utf8EncodeChar c).map (fun b => Char.ofNat b.toNat) = [c] := by
  have hlt : c.toNat < 128 := Nat.lt_succ_of_lt h.2
  have hencode : String.utf8EncodeChar c = [UInt8.ofNat c.toNat] := by
    unfold String.utf8EncodeChar
    exact if_pos (Nat.le_of_lt_succ hlt)
  have hbyte : (UInt8.ofNat c.toNat).toNat = c.toNat :=
    Nat.mod_eq_of_lt (hlt.trans (by decide))
  rw [hencode, List.map_singleton, hbyte, Char.ofNat_toNat]

/-- The bytes of a printable text are its characters. -/
theorem utf8_of_isText {s : String} (h : IsText s.toList) : utf8 s = s.toList := by
  unfold utf8
  generalize s.toList = cs at h ⊢
  induction cs with
  | nil => rfl
  | cons c cs ih =>
    rw [isText_cons] at h
    rw [List.flatMap_cons, encode_of_isPrintable h.1, ih h.2, List.singleton_append]

theorem isText_hex : ∀ n < 256, IsText (Inet.hex n) := by
  decide +kernel

theorem isText_ntop (a : Address) : IsText (InetText.plain.ntop a).toList := by
  have hdot : IsPrintable '.' := by decide
  have hcolon : IsPrintable ':' := by decide
  cases a with
  | ip4 raw =>
    change IsText (String.ofList _).toList
    rw [String.toList_ofList]
    simp [Inet.octets, Inet.decimal, List.intercalate, List.intersperse, isText_append,
      isText_cons, isText_toDigits, hdot]
  | ip6 a b c d =>
    change IsText (String.ofList _).toList
    rw [String.toList_ofList]
    have hhex := fun raw i => isText_hex _ (Inet.octet_lt raw i)
    simp [Inet.groups, List.intercalate, List.intersperse, isText_append, isText_cons, hhex,
      hcolon]

theorem isText_utf8_ntop (a : Address) : IsText (utf8 (InetText.plain.ntop a)) := by
  rw [utf8_of_isText (isText_ntop a)]
  exact isText_ntop a

theorem isText_dots : IsText "..".toList := by decide

theorem isText_typeToString (type : EConnectionType) :
    IsText (Connection.typeToString type).toList := by
  cases type <;> decide

theorem isText_stateToString (type : EPortType) (state : ℤ) :
    IsText (type.stateToString state).toList := by
  cases type with
  | udp =>
    dsimp only [EPortType.stateToString, UDP.stateToString]
    split <;> decide
  | tcp =>
    dsimp only [EPortType.stateToString, TCP.stateToString]
    split <;> decide

theorem isText_getString (asn : ASN) : IsText asn.getString := by
  have hprefix : IsText "AS".toList := by decide
  unfold ASN.getString
  split_ifs
  · exact isText_nil
  · exact hprefix.append (isText_toDigits _)

theorem isText_getLabel (column : ConnectionColumn) : IsText column.getLabel.toList := by
  unfold ConnectionColumn.getLabel
  split_ifs
  · cases column.type <;> decide
  · exact isText_nil

namespace ScreenConnectionList

variable (texts : Texts) (options : ShowOptions) (st : ConnectionStorage) (c : Connection)
  (isCursor : Bool)

variable {texts st} in
theorem columnData_isPrintable (htexts : texts.IsPrintable) (hst : st.IsPrintable)
    (type : ConnectionColumn.EType) :
    (columnData texts options st c isCursor type).IsPrintable := by
  have haddress : ∀ a, (addressText options isCursor (st.addressData a)).IsPrintable := by
    intro a
    unfold addressText
    dsimp only
    split_ifs
    · exact (hst.address a).hostname
    · exact (hst.address a).hostname
    · exact (hst.address a).numericString
    · exact (hst.address a).numericString
  have hport : ∀ n p, (portText options c isCursor n (st.portData p)).IsPrintable := by
    intro n p
    unfold portText
    dsimp only
    split_ifs
    · exact hst.port p
    · exact hst.port p
    · exact isText_toDigits _
    · exact isText_toDigits _
    · trivial
  have hcountry : ∀ a, (countryText texts isCursor (st.addressData a)).IsPrintable := by
    intro a
    unfold countryText
    split_ifs
    · exact htexts.code _
    · trivial
  have hspeed : ∀ n, (speedText texts isCursor n).IsPrintable := by
    intro n
    have hunit : IsText "/s".toList := by decide
    unfold speedText
    split_ifs
    · exact (htexts.size n).append hunit
    · trivial
  cases type with
  | proto => exact isText_typeToString _
  | protoState => exact isText_stateToString _ _
  | srcAddress | dstAddress => exact haddress _
  | srcPort | dstPort => exact hport _ _
  | srcCountry | dstCountry => exact hcountry _
  | srcASN | dstASN => exact isText_getString _
  | srcASNOrgName | dstASNOrgName => exact (hst.address _).orgName
  | rxPackets | txPackets => exact isText_toDigits _
  | rxBytes | txBytes => exact htexts.size _
  | rxSpeed | txSpeed => exact hspeed _

/-! ## Drawing -/

section Drawing

variable [PadLibrary Attr]

def drawDataLeft (p : Pad Attr) (data : List Char) (width : ℕ) (attr : Attr) : Pad Attr :=
  let p := p.attron attr
  let p :=
    if data.length ≤ width then (p.addstr data).fill (width - data.length)
    else (if 2 < width then p.addstr (data.take (width - 2)) else p).addstr "..".toList
  p.attroff attr

def drawDataRight (p : Pad Attr) (data : List Char) (width : ℕ) (attr : Attr) : Pad Attr :=
  let p := p.attron attr
  let p :=
    if data.length ≤ width then (p.fill (width - data.length)).addstr data
    else (if 2 < width then p.addstr (data.take (width - 2)) else p).addstr "..".toList
  p.attroff attr

def drawDataEmpty (p : Pad Attr) (width : ℕ) (attr : Attr) : Pad Attr :=
  ((p.attron attr).fill width).attroff attr

def drawData (p : Pad Attr) (width : ℕ) : ColumnData → Pad Attr
  | .left data attr => drawDataLeft p data width attr
  | .right data attr => drawDataRight p data width attr
  | .empty attr => drawDataEmpty p width attr

variable (u : ConnectionListUpdate)

/-- The part of `drawListEntry` for one column. -/
def drawColumn (p : Pad Attr) (column : ConnectionColumn) : Pad Attr :=
  if u.updateFlags.test column.type.column.flag then
    drawData p column.width
      (columnData texts options st u.data (u.isCursor && options.showCursor) column.type)
  else p

def drawSeparator (p : Pad Attr) : Pad Attr :=
  if isCursor then ((p.attron .selectedRow).addch ' ').attroff .selectedRow else p.addch ' '

/-- The loop of `drawListEntry`, from a column and its position on. -/
def drawColumns (posY posX : ℕ) (p : Pad Attr) : List ConnectionColumn → Pad Attr
  | [] => p
  | [column] => (drawColumn texts options st u p column).move posY (posX + column.width)
  | column :: columns =>
    let p := (drawColumn texts options st u p column).move posY (posX + column.width)
    let p := drawSeparator (u.isCursor && options.showCursor) p
    drawColumns posY (posX + column.width + 1) p columns

def listBeginPos : ℕ := 5

def drawListEntry (columns : List ConnectionColumn) (columnsTotalWidth : ℕ) (p : Pad Attr) :
    Pad Attr :=
  let posY := listBeginPos + u.rowNumber
  let p := drawColumns texts options st u posY 0 (p.move posY 0) columns
  if columnsTotalWidth < p.width then p.fill (p.width - p.x) else p

/-- The loop of `drawListHeader`, with the space that remains. -/
def drawHeaderColumns (p : Pad Attr) (remainingSpace : ℕ) : List ConnectionColumn → Pad Attr
  | [] => if 0 < remainingSpace then p.fill (p.width - p.x) else p
  | column :: columns =>
    let space := if column.width < remainingSpace then column.width else remainingSpace
    let label := column.getLabel.toList
    let p := if label = [] then p.fill space
      else (p.addstr (label.take space)).fill (space - label.length)
    let remainingSpace := remainingSpace - space
    if 0 < remainingSpace then drawHeaderColumns (p.addch ' ') (remainingSpace - 1) columns
    else drawHeaderColumns p remainingSpace columns

def statusHeaderHeight : ℕ := 4

def drawListHeader (columns : List ConnectionColumn) (p : Pad Attr) : Pad Attr :=
  (drawHeaderColumns ((p.move statusHeaderHeight 0).attron .listHeader) p.width columns).attroff
    .listHeader

end Drawing

end ScreenConnectionList

/-! ## What is drawn -/

namespace ColumnData

/-- What does not fit ends with two dots. -/
def text (width : ℕ) : ColumnData → List Char
  | left data _ =>
    if data.length ≤ width then data ++ List.replicate (width - data.length) ' '
    else data.take (width - 2) ++ "..".toList
  | right data _ =>
    if data.length ≤ width then List.replicate (width - data.length) ' ' ++ data
    else data.take (width - 2) ++ "..".toList
  | empty _ => List.replicate width ' '

def cells (d : ColumnData) (width : ℕ) : List (Char × Attr) :=
  (d.text width).map fun c => (c, d.attr)

variable {d : ColumnData} {width : ℕ}

theorem length_dotted {data : List Char} (h : ¬data.length ≤ width) (hwidth : 2 ≤ width) :
    (data.take (width - 2) ++ "..".toList).length = width := by
  have hdots : "..".toList.length = 2 := rfl
  rw [List.length_append, List.length_take, hdots]
  omega

theorem length_cells (hwidth : 2 ≤ width) : (d.cells width).length = width := by
  unfold cells text
  rw [List.length_map]
  cases d with
  | left data _ =>
    dsimp only
    split_ifs with h
    · rw [List.length_append, List.length_replicate]
      omega
    · exact length_dotted h hwidth
  | right data _ =>
    dsimp only
    split_ifs with h
    · rw [List.length_append, List.length_replicate]
      omega
    · exact length_dotted h hwidth
  | empty _ => exact List.length_replicate

end ColumnData

namespace ScreenConnectionList

section

variable [PadLibrary Attr] [LawfulPadLibrary Attr] {p q : Pad Attr} {cs : List (Char × Attr)}
  {d : ColumnData} {width : ℕ}

theorem wrote_dotted {data : List Char} (hp : p.IsPlain) (htext : IsText data)
    (hdata : ¬data.length ≤ width) (hwidth : 2 ≤ width) (hfits : p.x + width ≤ p.width) :
    Pad.Wrote p ((if 2 < width then p.addstr (data.take (width - 2)) else p).addstr "..".toList)
      ((data.take (width - 2) ++ "..".toList).map fun c => (c, p.attr)) := by
  have hlength := ColumnData.length_dotted hdata hwidth
  rw [List.length_append] at hlength
  rw [List.map_append]
  split_ifs with h
  · refine (Pad.wrote_addstr hp (htext.take _) (by omega)).addstr isText_dots ?_
    rw [List.length_map]
    omega
  · obtain rfl : width = 2 := by omega
    exact Pad.wrote_addstr hp isText_dots hfits

/-- Between `enableAttr` and `disableAttr`, what is drawn has the attribute. -/
theorem drawData_wrote (hd : d.IsPrintable) (hp : p.IsPlain) (hattr : p.attr = default)
    (hwidth : 2 ≤ width) (hfits : p.x + width ≤ p.width) :
    Pad.Wrote p (drawData p width d) (d.cells width) := by
  have hon : ∀ attr : Attr, (p.attron attr).IsPlain ∧
      (p.attron attr).x + width ≤ (p.attron attr).width ∧ (p.attron attr).attr = attr := by
    intro attr
    rw [Pad.x_attron hp hattr, Pad.width_attron hp hattr]
    exact ⟨hp.attron attr hattr, hfits, Pad.attr_attron hp hattr⟩
  cases d with
  | left data attr =>
    obtain ⟨hplain, hfits', hset⟩ := hon attr
    refine Pad.Wrote.of_attron (a := attr) ?_ hp hattr
    dsimp only [ColumnData.cells, ColumnData.text, ColumnData.attr]
    by_cases h : data.length ≤ width
    · rw [if_pos h, if_pos h, List.map_append, List.map_replicate]
      have hdata := Pad.wrote_addstr hplain hd (by omega)
      rw [hset] at hdata
      have hfill := hdata.fill (width - data.length) (by rw [List.length_map]; omega)
      rwa [hset] at hfill
    · rw [if_neg h, if_neg h]
      have hdotted := wrote_dotted hplain hd h hwidth hfits'
      rwa [hset] at hdotted
  | right data attr =>
    obtain ⟨hplain, hfits', hset⟩ := hon attr
    refine Pad.Wrote.of_attron (a := attr) ?_ hp hattr
    dsimp only [ColumnData.cells, ColumnData.text, ColumnData.attr]
    by_cases h : data.length ≤ width
    · rw [if_pos h, if_pos h, List.map_append, List.map_replicate]
      have hfill := Pad.wrote_fill (width - data.length) hplain (by omega)
      rw [hset] at hfill
      have hdata := hfill.addstr hd (by rw [List.length_replicate]; omega)
      rwa [hset] at hdata
    · rw [if_neg h, if_neg h]
      have hdotted := wrote_dotted hplain hd h hwidth hfits'
      rwa [hset] at hdotted
  | empty attr =>
    obtain ⟨hplain, hfits', hset⟩ := hon attr
    refine Pad.Wrote.of_attron (a := attr) ?_ hp hattr
    dsimp only [ColumnData.cells, ColumnData.text, ColumnData.attr]
    rw [List.map_replicate]
    have hfill := Pad.wrote_fill width hplain hfits'
    rwa [hset] at hfill

end

variable (texts : Texts) (options : ShowOptions) (st : ConnectionStorage) (c : Connection)
  (isCursor : Bool)

/-- The cells of a column of a row, with or without the cursor. -/
def columnCells (column : ConnectionColumn) : List (Char × Attr) :=
  (columnData texts options st c (isCursor && options.showCursor) column.type).cells column.width

def columnsCells : List ConnectionColumn → List (Char × Attr)
  | [] => []
  | [column] => columnCells texts options st c isCursor column
  | column :: columns => columnCells texts options st c isCursor column ++
    (' ', defaultAttr (isCursor && options.showCursor)) :: columnsCells columns

/-- A row: its columns, and blanks behind them. -/
def rowCells (columns : List ConnectionColumn) (width : ℕ) : List (Char × Attr) :=
  columnsCells texts options st c isCursor columns ++
    List.replicate (width - DialogConnectionColumns.getColumnsTotalWidth columns) (' ', default)

/-- From a column on, those under certain flags are in the row. -/
def ShowsColumns [PadLibrary Attr] (p : Pad Attr) (posY : ℕ) (flagged : Column → Prop) :
    ℕ → List ConnectionColumn → Prop
  | _, [] => True
  | posX, column :: columns =>
    (flagged column.type.column →
      p.Shows posY posX (columnCells texts options st c isCursor column)) ∧
      ShowsColumns p posY flagged (posX + column.width + 1) columns

def labelText (column : ConnectionColumn) : List Char :=
  column.getLabel.toList.take column.width ++
    List.replicate (column.width - column.getLabel.toList.length) ' '

def labelsText : List ConnectionColumn → List Char
  | [] => []
  | [column] => labelText column
  | column :: columns => labelText column ++ ' ' :: labelsText columns

/-- The header: the labels of its columns, and blanks behind them. -/
def headerCells (columns : List ConnectionColumn) (width : ℕ) : List (Char × Attr) :=
  (labelsText columns ++
    List.replicate (width - DialogConnectionColumns.getColumnsTotalWidth columns) ' ').map
      fun c => (c, .listHeader)

/-! ## Widths -/

open DialogConnectionColumns (getColumnsTotalWidth)

variable {texts options st c isCursor} {column column' : ConnectionColumn}
  {columns : List ConnectionColumn}

theorem totalWidth_singleton (column : ConnectionColumn) :
    getColumnsTotalWidth [column] = column.width := by
  simp [getColumnsTotalWidth]

theorem totalWidth_cons (column column' : ConnectionColumn) (columns : List ConnectionColumn) :
    getColumnsTotalWidth (column :: column' :: columns) =
      column.width + 1 + getColumnsTotalWidth (column' :: columns) := by
  simp only [getColumnsTotalWidth, List.map_cons, List.sum_cons]
  omega

variable (texts options st c isCursor) in
theorem length_columnCells (h : 2 ≤ column.width) :
    (columnCells texts options st c isCursor column).length = column.width :=
  ColumnData.length_cells h

variable (texts options st c isCursor) in
theorem length_columnsCells (h : ∀ column ∈ columns, 2 ≤ column.width) :
    (columnsCells texts options st c isCursor columns).length = getColumnsTotalWidth columns := by
  induction columns with
  | nil => rfl
  | cons column columns ih =>
    obtain ⟨hcolumn, hcolumns⟩ := List.forall_mem_cons.mp h
    cases columns with
    | nil => rw [columnsCells, length_columnCells _ _ _ _ _ hcolumn, totalWidth_singleton]
    | cons column' columns =>
      rw [columnsCells, List.length_append, List.length_cons, ih hcolumns,
        length_columnCells _ _ _ _ _ hcolumn, totalWidth_cons]
      · omega
      · exact List.cons_ne_nil _ _

/-- A row is as wide as the pad. -/
theorem length_rowCells (h : ∀ column ∈ columns, 2 ≤ column.width) {width : ℕ}
    (hfits : getColumnsTotalWidth columns ≤ width) :
    (rowCells texts options st c isCursor columns width).length = width := by
  unfold rowCells
  rw [List.length_append, length_columnsCells _ _ _ _ _ h, List.length_replicate]
  omega

theorem length_labelText (column : ConnectionColumn) :
    (labelText column).length = column.width := by
  unfold labelText
  rw [List.length_append, List.length_take, List.length_replicate]
  omega

theorem length_labelsText (columns : List ConnectionColumn) :
    (labelsText columns).length = getColumnsTotalWidth columns := by
  induction columns with
  | nil => rfl
  | cons column columns ih =>
    cases columns with
    | nil => rw [labelsText, length_labelText, totalWidth_singleton]
    | cons column' columns =>
      rw [labelsText, List.length_append, List.length_cons, ih, length_labelText, totalWidth_cons]
      · omega
      · exact List.cons_ne_nil _ _

theorem length_headerCells {width : ℕ} (hfits : getColumnsTotalWidth columns ≤ width) :
    (headerCells columns width).length = width := by
  unfold headerCells
  rw [List.length_map, List.length_append, length_labelsText, List.length_replicate]
  omega

/-- With space behind the first label, the header goes on behind a separator. -/
theorem labels_cons {width : ℕ} (hlt : column.width < width) :
    labelsText (column :: columns) ++
        List.replicate (width - getColumnsTotalWidth (column :: columns)) ' ' =
      labelText column ++ [' '] ++ (labelsText columns ++
        List.replicate (width - column.width - 1 - getColumnsTotalWidth columns) ' ') := by
  cases columns with
  | nil =>
    have hspace : width - column.width = width - column.width - 1 + 1 := by omega
    rw [labelsText, labelsText, totalWidth_singleton, List.nil_append, hspace,
      List.replicate_succ, Nat.add_sub_cancel, List.append_assoc, List.singleton_append]
    rfl
  | cons column' columns =>
    have hspace : width - (column.width + 1 + getColumnsTotalWidth (column' :: columns)) =
        width - column.width - 1 - getColumnsTotalWidth (column' :: columns) := by omega
    rw [totalWidth_cons, hspace, labelsText, List.append_assoc, List.append_assoc, List.cons_append,
      List.singleton_append]
    exact List.cons_ne_nil _ _

/-! ## Rows -/

theorem columnCells_congr {st' : ConnectionStorage}
    (h : content st' c column.type.column = content st c column.type.column) :
    columnCells texts options st' c isCursor column =
      columnCells texts options st c isCursor column := by
  unfold columnCells
  rw [columnData_congr _ _ _ h]

theorem columnsCells_congr {options' : ShowOptions} {st' : ConnectionStorage}
    (hcursor : (isCursor && options'.showCursor) = (isCursor && options.showCursor))
    (hcells : ∀ column : ConnectionColumn, columnCells texts options' st' c isCursor column =
      columnCells texts options st c isCursor column) :
    columnsCells texts options' st' c isCursor columns =
      columnsCells texts options st c isCursor columns := by
  induction columns with
  | nil => rfl
  | cons column columns ih =>
    cases columns with
    | nil => exact hcells column
    | cons column' columns =>
      change columnCells _ _ _ _ _ column ++ (_, defaultAttr _) :: columnsCells _ _ _ _ _ _ = _
      rw [hcells, hcursor, ih]
      rfl

section Rows

variable [PadLibrary Attr] {m p q : Pad Attr} {cs : List (Char × Attr)} {u : ConnectionListUpdate}
  {posX posY : ℕ} {flagged flagged' : Column → Prop}

/-- Of the pad only the row matters, and what the columns under the flags look like. -/
theorem ShowsColumns.mono {options' : ShowOptions} {st' : ConnectionStorage}
    (h : ShowsColumns texts options st c isCursor p posY flagged posX columns)
    (hrow : q.cells posY = p.cells posY) (himp : ∀ column, flagged' column → flagged column)
    (hcells : ∀ column : ConnectionColumn, flagged' column.type.column →
      columnCells texts options' st' c isCursor column =
        columnCells texts options st c isCursor column) :
    ShowsColumns texts options' st' c isCursor q posY flagged' posX columns := by
  induction columns generalizing posX with
  | nil => trivial
  | cons column columns ih =>
    refine ⟨fun hflag => ?_, ih h.2⟩
    rw [hcells column hflag]
    exact (h.1 (himp _ hflag)).congr hrow

theorem ShowsColumns.of_none (h : ∀ column, ¬flagged column) :
    ShowsColumns texts options st c isCursor p posY flagged posX columns := by
  induction columns generalizing posX with
  | nil => trivial
  | cons column columns ih => exact ⟨fun hflag => absurd hflag (h _), ih⟩

/-- A row shows each of its columns. -/
theorem showsColumns_of_shows (hwidths : ∀ column ∈ columns, 2 ≤ column.width)
    (h : p.Shows posY posX (columnsCells texts options st c isCursor columns)) :
    ShowsColumns texts options st c isCursor p posY flagged posX columns := by
  induction columns generalizing posX with
  | nil => trivial
  | cons column columns ih =>
    obtain ⟨hwidth, hwidths⟩ := List.forall_mem_cons.mp hwidths
    cases columns with
    | nil => exact ⟨fun _ => h, trivial⟩
    | cons column' columns =>
      have hsplit : columnsCells texts options st c isCursor (column :: column' :: columns) =
          columnCells texts options st c isCursor column ++
            ([(' ', defaultAttr (isCursor && options.showCursor))] ++
              columnsCells texts options st c isCursor (column' :: columns)) := rfl
      rw [hsplit] at h
      have hrest := h.right.right
      rw [length_columnCells _ _ _ _ _ hwidth, List.length_singleton] at hrest
      exact ⟨fun _ => h.left, ih hwidths hrest⟩

variable [LawfulPadLibrary Attr]

theorem wrote_drawSeparator (h : m.Wrote p cs) (hattr : m.attr = default)
    (hfits : m.x + cs.length + 1 ≤ m.width) (isCursor : Bool) :
    m.Wrote (drawSeparator isCursor p) (cs ++ [(' ', defaultAttr isCursor)]) := by
  unfold drawSeparator defaultAttr
  cases isCursor with
  | false =>
    have hblank := h.addch Pad.isPrintable_blank hfits
    rwa [hattr] at hblank
  | true =>
    have hpattr := h.attr.trans hattr
    refine h.append (fun _ => ?_) (fun hnil => absurd hnil (List.cons_ne_nil _ _)) ?_
    · have hblank := Pad.wrote_addch (h.plain.attron .selectedRow hpattr) Pad.isPrintable_blank
      rw [Pad.attr_attron h.plain hpattr] at hblank
      exact hblank.of_attron h.plain hpattr
    · rw [List.length_append, List.length_singleton, ← Nat.add_assoc]
      exact hfits

section Entry

variable (htexts : texts.IsPrintable) (hst : st.IsPrintable)
include htexts hst

/-- A column is drawn or there already. -/
theorem wrote_drawColumn (h : m.Wrote p cs) (hm : m.IsPlain) (hattr : m.attr = default)
    (hwidth : 2 ≤ column.width) (hx : posX = m.x + cs.length)
    (hfits : posX + column.width ≤ m.width)
    (hready : u.updateFlags.test column.type.column.flag = false →
      m.Shows m.y posX (columnCells texts options st u.data u.isCursor column)) :
    m.Wrote ((drawColumn texts options st u p column).move m.y (posX + column.width))
      (cs ++ columnCells texts options st u.data u.isCursor column) := by
  have hlength := length_columnCells texts options st u.data u.isCursor hwidth
  have hend : posX + column.width =
      m.x + (cs ++ columnCells texts options st u.data u.isCursor column).length := by
    rw [List.length_append, hlength, hx, Nat.add_assoc]
  rw [hend]
  by_cases hflag : u.updateFlags.test column.type.column.flag = true
  · obtain ⟨-, hpx⟩ := h.pos (by omega)
    refine (h.append (fun _ => ?_) (fun hnil => ?_) (by omega)).move
    · rw [drawColumn, if_pos hflag]
      exact drawData_wrote (columnData_isPrintable _ _ _ htexts hst _) h.plain (h.attr.trans hattr)
        hwidth (by rw [hpx, h.width]; omega)
    · rw [hnil] at hlength
      exact absurd hlength (by rw [List.length_nil]; omega)
  · rw [drawColumn, if_neg hflag]
    rw [Bool.not_eq_true] at hflag
    exact h.skip (by rw [← hx]; exact hready hflag) hm

theorem wrote_drawColumns (hm : m.IsPlain) (hattr : m.attr = default)
    (hwidths : ∀ column ∈ columns, 2 ≤ column.width) (h : m.Wrote p cs)
    (hx : posX = m.x + cs.length) (hfits : posX + getColumnsTotalWidth columns ≤ m.width)
    (hready : ShowsColumns texts options st u.data u.isCursor m m.y
      (fun column => u.updateFlags.test column.flag = false) posX columns) :
    m.Wrote (drawColumns texts options st u m.y posX p columns)
      (cs ++ columnsCells texts options st u.data u.isCursor columns) := by
  induction columns generalizing p cs posX with
  | nil =>
    rw [columnsCells, List.append_nil]
    exact h
  | cons column columns ih =>
    obtain ⟨hwidth, hwidths⟩ := List.forall_mem_cons.mp hwidths
    obtain ⟨hfirst, hready⟩ := hready
    cases columns with
    | nil =>
      rw [totalWidth_singleton] at hfits
      exact wrote_drawColumn htexts hst h hm hattr hwidth hx hfits hfirst
    | cons column' columns =>
      rw [totalWidth_cons] at hfits
      have hcolumn := wrote_drawColumn htexts hst h hm hattr hwidth hx (by omega) hfirst
      have hlength : (cs ++ columnCells texts options st u.data u.isCursor column).length =
          cs.length + column.width := by
        rw [List.length_append, length_columnCells _ _ _ _ _ hwidth]
      have hseparator := wrote_drawSeparator hcolumn hattr (by omega)
        (u.isCursor && options.showCursor)
      have hrest := ih hwidths hseparator
        (by rw [List.length_append, hlength, List.length_singleton, hx]; omega) (by omega) hready
      rw [List.append_assoc, List.append_assoc, List.singleton_append] at hrest
      exact hrest

/-- `drawListEntry` from the beginning of the row. -/
theorem wrote_entry (hm : m.IsPlain) (hx : m.x = 0) (hattr : m.attr = default)
    (hwidths : ∀ column ∈ columns, 2 ≤ column.width)
    (hfits : getColumnsTotalWidth columns ≤ m.width)
    (hready : ShowsColumns texts options st u.data u.isCursor m m.y
      (fun column => u.updateFlags.test column.flag = false) 0 columns) :
    let q := drawColumns texts options st u m.y 0 m columns
    m.Wrote (if getColumnsTotalWidth columns < q.width then q.fill (q.width - q.x) else q)
      (rowCells texts options st u.data u.isCursor columns m.width) := by
  have hcolumns : m.Wrote (drawColumns texts options st u m.y 0 m columns)
      ([] ++ columnsCells texts options st u.data u.isCursor columns) :=
    wrote_drawColumns htexts hst hm hattr hwidths (.refl hm) hx.symm
      (by rw [Nat.zero_add]; exact hfits) hready
  have hlength := length_columnsCells texts options st u.data u.isCursor hwidths
  rw [List.nil_append] at hcolumns
  dsimp only
  unfold rowCells
  rw [hcolumns.width]
  by_cases hlt : getColumnsTotalWidth columns < m.width
  · obtain ⟨-, hqx⟩ := hcolumns.pos (by rw [hx, hlength, Nat.zero_add]; exact hlt)
    rw [if_pos hlt, hqx, hx, hlength, Nat.zero_add, ← hattr]
    exact hcolumns.fill _ (by rw [hx, hlength]; omega)
  · rw [if_neg hlt, Nat.sub_eq_zero_of_le (Nat.not_lt.mp hlt), List.replicate_zero,
      List.append_nil]
    exact hcolumns

/-- **An update completes its row.** Of the columns, those without a flag must be there. -/
theorem drawListEntry_put (hp : p.IsPlain) (hattr : p.attr = default)
    (hy : listBeginPos + u.rowNumber < p.height) (hwidths : ∀ column ∈ columns, 2 ≤ column.width)
    (hfits : getColumnsTotalWidth columns ≤ p.width)
    (hready : ShowsColumns texts options st u.data u.isCursor p (listBeginPos + u.rowNumber)
      (fun column => u.updateFlags.test column.flag = false) 0 columns) :
    p.Put (drawListEntry texts options st u columns (getColumnsTotalWidth columns) p)
      (listBeginPos + u.rowNumber) 0
      (rowCells texts options st u.data u.isCursor columns p.width) := by
  have hpos := Nat.zero_lt_of_lt hp.x_lt
  have hm := hp.move (listBeginPos + u.rowNumber) 0
  have hmy := Pad.y_move hp hy hpos
  have hmwidth := Pad.width_move hp (listBeginPos + u.rowNumber) 0
  have hready' := hready.mono (q := p.move (listBeginPos + u.rowNumber) 0)
    (by rw [Pad.cells_move hp]) (fun _ h => h) fun _ _ => rfl
  have hwrote := wrote_entry (u := u) htexts hst hm (Pad.x_move hp hy hpos)
    ((Pad.attr_move hp _ _).trans hattr) hwidths (by rw [hmwidth]; exact hfits)
    (by rw [hmy]; exact hready')
  rw [hmy, hmwidth] at hwrote
  exact hwrote.put hp hy hpos

end Entry

/-! ## The header -/

/-- A label and the blanks behind it. -/
theorem wrote_label (h : m.Wrote p cs) (hfits : m.x + cs.length + column.width ≤ m.width) :
    m.Wrote (if column.getLabel.toList = [] then p.fill column.width
      else (p.addstr (column.getLabel.toList.take column.width)).fill
        (column.width - column.getLabel.toList.length))
      (cs ++ (labelText column).map fun c => (c, m.attr)) := by
  unfold labelText
  rw [List.map_append, List.map_replicate]
  split_ifs with hlabel
  · rw [hlabel, List.take_nil, List.map_nil, List.nil_append, List.length_nil, Nat.sub_zero]
    exact h.fill _ hfits
  · rw [← List.append_assoc]
    refine (h.addstr ((isText_getLabel column).take _) ?_).fill _ ?_
    · rw [List.length_take]
      omega
    · rw [List.length_append, List.length_map, List.length_take]
      omega

theorem wrote_drawHeaderColumns {remainingSpace : ℕ} (h : m.Wrote p cs)
    (hremaining : m.x + cs.length + remainingSpace = m.width)
    (hfits : getColumnsTotalWidth columns ≤ remainingSpace) :
    m.Wrote (drawHeaderColumns p remainingSpace columns)
      (cs ++ (labelsText columns ++
        List.replicate (remainingSpace - getColumnsTotalWidth columns) ' ').map
          fun c => (c, m.attr)) := by
  induction columns generalizing p cs remainingSpace with
  -- the rest of the row is blank
  | nil =>
    rw [labelsText, List.nil_append, List.map_replicate, drawHeaderColumns]
    split_ifs with hpos
    · obtain ⟨-, hx⟩ := h.pos (by omega)
      have hspace : p.width - p.x = remainingSpace := by
        rw [h.width, hx]
        omega
      rw [hspace]
      exact h.fill _ (by omega)
    · obtain rfl : remainingSpace = 0 := by omega
      rw [Nat.zero_sub, List.replicate_zero, List.append_nil]
      exact h
  | cons column columns ih =>
    have hwidth : column.width ≤ remainingSpace := by
      cases columns with
      | nil => exact (totalWidth_singleton column).symm.trans_le hfits
      | cons column' columns =>
        rw [totalWidth_cons] at hfits
        omega
    -- every column fits, so none is cut
    have hspace : (if column.width < remainingSpace then column.width else remainingSpace) =
        column.width := by
      split_ifs <;> omega
    have hlabel : m.Wrote _ (cs ++ (labelText column).map fun c => (c, m.attr)) :=
      wrote_label h (by omega)
    rw [drawHeaderColumns, hspace]
    -- behind a column comes a separator, unless it ends the row
    by_cases hlt : column.width < remainingSpace
    · have hspace' : 0 < remainingSpace - column.width := Nat.sub_pos_of_lt hlt
      have hseparator := hlabel.addch Pad.isPrintable_blank (by
        rw [List.length_append, List.length_map, length_labelText]
        omega)
      have hrest : getColumnsTotalWidth columns ≤ remainingSpace - column.width - 1 := by
        cases columns with
        | nil => exact Nat.zero_le _
        | cons column' columns =>
          rw [totalWidth_cons] at hfits
          omega
      have hcolumns := ih hseparator (by
        rw [List.length_append, List.length_append, List.length_map, length_labelText,
          List.length_singleton]
        omega) hrest
      rw [if_pos hspace', labels_cons hlt, List.map_append, List.map_append, ← List.append_assoc,
        ← List.append_assoc]
      exact hcolumns
    · obtain rfl : column.width = remainingSpace := by omega
      cases columns with
      | cons column' columns =>
        rw [totalWidth_cons] at hfits
        omega
      | nil =>
        rw [Nat.sub_self, if_neg (Nat.lt_irrefl 0), labelsText, totalWidth_singleton, Nat.sub_self,
          List.replicate_zero, List.append_nil, drawHeaderColumns, if_neg (Nat.lt_irrefl 0)]
        exact hlabel

/-- The header takes its row, to the last cell. -/
theorem drawListHeader_put (hp : p.IsPlain) (hattr : p.attr = default)
    (hy : statusHeaderHeight < p.height) (hfits : getColumnsTotalWidth columns ≤ p.width) :
    p.Put (drawListHeader columns p) statusHeaderHeight 0 (headerCells columns p.width) := by
  have hpos := Nat.zero_lt_of_lt hp.x_lt
  have hm := hp.move statusHeaderHeight 0
  have hmattr := (Pad.attr_move hp statusHeaderHeight 0).trans hattr
  have hmwidth := Pad.width_move hp statusHeaderHeight 0
  have hon := hm.attron .listHeader hmattr
  have hx := (Pad.x_attron (a := Attr.listHeader) hm hmattr).trans (Pad.x_move hp hy hpos)
  have hwidth := (Pad.width_attron (a := Attr.listHeader) hm hmattr).trans hmwidth
  have hcolumns := wrote_drawHeaderColumns (.refl hon)
    (by rw [hx, hwidth, List.length_nil, Nat.zero_add]) hfits
  rw [List.nil_append, Pad.attr_attron hm hmattr] at hcolumns
  exact (hcolumns.of_attron hm hmattr).put hp hy hpos

end Rows

end ScreenConnectionList

end Conntop
