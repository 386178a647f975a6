import Conntop.Lib.Form
import Conntop.ListRows

/-!
# The dialog with the details of a connection

The dialog has a copy of what it shows. An update compares it with the connection in the columns
that are flagged, and draws what is another one. The labels, the addresses and the ports are drawn
when the dialog is opened.

* What changes is in the fields of `form`: `fieldCells` is what such a field has.
* Both ends of a connection are drawn alike (`Side`), and so are both directions (`Direction`).
* A blank looks the same with each of the attributes of the dialog (`look`).

The texts are bytes. `IsPrintable` says that each of them takes one cell.

Main results: `drawFields_filled`, what is drawn for the flags is in its fields, and
`drawStatic_filled`, the other cells do not depend on what the pad had before.
-/

namespace Conntop

structure DetailTexts extends Texts where
  getNameString : ECode → List Char

/-- What holds of the texts: the length of a size, and the longest entries of a table, in bytes. -/
structure DetailTexts.Fits (texts : DetailTexts) : Prop where
  zero : texts.getHumanReadableSize 0 = "0 B".toList
  size : ∀ n, (texts.getHumanReadableSize n).length ≤ 9
  code : ∀ c, (texts.getCodeString c).length ≤ 2
  name : ∀ c, (texts.getNameString c).length ≤ 52
  printable : texts.IsPrintable

/-- The name of a country is printable, if it is drawn. -/
def DetailTexts.NamePrintable (texts : DetailTexts) (country : ECode) : Prop :=
  country.val ≠ 0 → IsText (texts.getNameString country)

structure DetailTexts.AddressPrintable (texts : DetailTexts) (data : AddressData) : Prop
    extends AddressData.IsPrintable data where
  country : texts.NamePrintable data.country

def EPortType.getTypeName : EPortType → String
  | .udp => "UDP"
  | .tcp => "TCP"

/-- `PortToString`. -/
def Port.toText (port : Port) : List Char :=
  (EPortType.getTypeName port.type).toList ++ ' ' :: Nat.toDigits 10 port.number.toNat

inductive Side
  | src | dst
  deriving DecidableEq, Repr

inductive Direction
  | rx | tx
  deriving DecidableEq, Repr

inductive EContent
  | none | normal | removed
  deriving DecidableEq, Repr

/-- The members for one end of the connection. -/
structure DetailsSide where
  address : List Char := []
  port : List Char := []
  hostname : List Char := []
  service : List Char := []
  country : ECode := ⟨0, unknownCountry_lt⟩
  asn : ASN := {}

structure DetailsSide.IsPrintable (texts : DetailTexts) (m : DetailsSide) : Prop where
  address : IsText m.address
  port : IsText m.port
  hostname : IsText m.hostname
  service : IsText m.service
  country : texts.NamePrintable m.country
  orgName : IsText (utf8 m.asn.orgName)

/-! ## Where things are -/

namespace DialogConnectionDetails

/-- The rows of an end are below this one. -/
def sideRow : Side → ℕ
  | .src => 4
  | .dst => 11

def directionRow : Direction → ℕ
  | .rx => 19
  | .tx => 20

def labels (hasPorts : Bool) : List (ℕ × ℕ × List Char) :=
  [(1, 1, "Type: ".toList), (2, 1, "State: ".toList),
    (4, 1, "Source: ".toList), (5, 1, "  Address: ".toList), (6, 1, "  Hostname: ".toList),
    (7, 1, "  Organization: ".toList), (8, 1, "  Country: ".toList)] ++
  (if hasPorts then [(9, 1, "  Port: ".toList)] else []) ++
  [(11, 1, "Destination: ".toList), (12, 1, "  Address: ".toList), (13, 1, "  Hostname: ".toList),
    (14, 1, "  Organization: ".toList), (15, 1, "  Country: ".toList)] ++
  (if hasPorts then [(16, 1, "  Port: ".toList)] else []) ++
  [(18, 1, "Traffic: ".toList), (19, 1, "  Received: ".toList), (20, 1, "  Sent:     ".toList),
    (19, 36, " | ".toList), (20, 36, " | ".toList)]

inductive Field
  | state
  | hostname (s : Side) | asn (s : Side) | country (s : Side) | service (s : Side)
  | packets (r : Direction) | bytes (r : Direction) | speed (r : Direction)
  deriving DecidableEq, Repr

def Field.row : Field → ℕ
  | state => 2
  | hostname s => sideRow s + 2
  | asn s => sideRow s + 3
  | country s => sideRow s + 4
  | service s => sideRow s + 5
  | packets r | bytes r | speed r => directionRow r

/-- The columns that a field is in. -/
def Field.leftCol : Field → ℕ
  | state => 8
  | hostname _ => 13
  | asn _ => 17
  | country _ => 12
  | service _ => 9
  | packets _ => 39
  | bytes _ => 13
  | speed _ => 22

def Field.rightCol : Field → ℕ
  | bytes _ => 22
  | speed _ => 36
  | _ => 79

/-- The order of `drawUpdate`. -/
def fields : List Field :=
  [.state, .hostname .src, .asn .src, .country .src, .service .src,
    .hostname .dst, .asn .dst, .country .dst, .service .dst,
    .packets .rx, .packets .tx, .bytes .rx, .bytes .tx, .speed .rx, .speed .tx]

theorem mem_fields (f : Field) : f ∈ fields := by
  rcases f with _ | s | s | s | s | r | r | r <;> (try cases s) <;> (try cases r) <;> decide

/-- A text has its place in the pad. -/
def InPad (w : ℕ × ℕ × List Char) : Prop :=
  (w.1 < 22 ∧ w.2.1 < 80 ∧ w.2.1 + w.2.2.length ≤ 80) ∧ IsText w.2.2

/-- The cell is not one of those that are written. -/
def Beside (w : ℕ × ℕ × List Char) (y x : ℕ) : Prop :=
  y ≠ w.1 ∨ x < w.2.1 ∨ w.2.1 + w.2.2.length ≤ x

instance (w : ℕ × ℕ × List Char) : Decidable (InPad w) := inferInstanceAs (Decidable (_ ∧ _))

theorem inPad_of {y x : ℕ} {s : List Char} (hy : y < 22) (hx : x < 80) (hfits : x + s.length ≤ 80)
    (hs : IsText s) : InPad (y, x, s) := ⟨⟨hy, hx, hfits⟩, hs⟩

theorem labels_inPad (hasPorts : Bool) : ∀ w ∈ labels hasPorts, InPad w := by
  cases hasPorts <;> decide

theorem labels_outside : ∀ hasPorts, ∀ f ∈ fields, ∀ w ∈ labels hasPorts,
    f.row ≠ w.1 ∨ f.rightCol ≤ w.2.1 ∨ w.2.1 + w.2.2.length ≤ f.leftCol := by decide

theorem row_notMem : ∀ f ∈ fields, f.row ∉ [1, 5, 12] := by decide

theorem eq_service (s : Side) : ∀ f ∈ fields, f.row = sideRow s + 5 → f = .service s := by
  cases s <;> decide

theorem inside : ∀ f ∈ fields, (0 < f.row ∧ f.row < 21) ∧ 0 < f.leftCol ∧ f.rightCol ≤ 79 := by
  decide

def addressColumn : Side → Column
  | .src => .srcAddress
  | .dst => .dstAddress

def portColumn : Side → Column
  | .src => .srcPort
  | .dst => .dstPort

/-- The column that a field is drawn for. -/
def Field.column : Field → Column
  | state => .protoState
  | hostname s | asn s | country s => addressColumn s
  | service s => portColumn s
  | packets .rx => .rxPackets
  | packets .tx => .txPackets
  | bytes .rx => .rxBytes
  | bytes .tx => .txBytes
  | speed .rx => .rxSpeed
  | speed .tx => .txSpeed

/-! ## Cells -/

/-- The attributes of the dialog have no background. -/
def look (c : Char × Attr) : Char × Attr := if c.1 = ' ' then PadView.blank else c

theorem look_blank : look PadView.blank = PadView.blank := rfl

/-- What `writeStringSafe` writes in a space. -/
def safe (space : ℕ) (string : List Char) : List Char :=
  if string.length ≤ space then string
  else (if 2 < space then string.take (space - 2) else []) ++ "..".toList

def styled (attr : Attr) (s : List Char) : List (Char × Attr) := s.map fun c => (c, attr)

def blanks (n : ℕ) : List (Char × Attr) := List.replicate n (' ', .statusValue)

/-- A text with blanks behind it. -/
def padded (n : ℕ) (s : List Char) : List (Char × Attr) :=
  styled .statusValue s ++ blanks (n - s.length)

variable {s : List Char}

@[simp] theorem length_styled (attr : Attr) (s : List Char) : (styled attr s).length = s.length :=
  List.length_map ..

@[simp] theorem length_blanks (n : ℕ) : (blanks n).length = n := List.length_replicate

theorem length_padded {n : ℕ} (h : s.length ≤ n) : (padded n s).length = n := by
  unfold padded
  rw [List.length_append, length_styled, length_blanks]
  omega

theorem length_safe {n : ℕ} (h : 2 ≤ n) (s : List Char) : (safe n s).length ≤ n := by
  have hdots : "..".toList.length = 2 := rfl
  unfold safe
  split_ifs with hs hn
  · exact hs
  · rw [List.length_append, List.length_take, hdots]
    omega
  · rw [List.nil_append, hdots]
    exact h

theorem look_padded_nil (n : ℕ) : (padded n []).map look = List.replicate n PadView.blank := by
  unfold padded styled blanks
  rw [List.map_nil, List.nil_append, List.map_replicate, List.length_nil, Nat.sub_zero]
  rfl

theorem length_toDigits_uint64_le (n : UInt64) : (Nat.toDigits 10 n.toNat).length ≤ 20 :=
  (Nat.length_toDigits_le_iff (by decide) (by decide)).mpr
    (n.toNat_lt.trans (by decide))

theorem length_asn_le (asn : ASN) : asn.getString.length ≤ 12 := by
  have hdigits : (Nat.toDigits 10 asn.number.toNat).length ≤ 10 :=
    (Nat.length_toDigits_le_iff (by decide) (by decide)).mpr (asn.number.isLt.trans (by decide))
  have hprefix : "AS".toList.length = 2 := rfl
  unfold ASN.getString
  split_ifs
  · decide
  · rw [List.length_append, hprefix]
    omega

end DialogConnectionDetails

/-! ## The dialog -/

variable [PadLibrary Attr]

/-- `isOpen` is `hasDialog` of the screen. -/
structure DialogConnectionDetails where
  content : EContent := .none
  hasPorts : Bool := false
  typeName : List Char := []
  stateName : List Char := []
  src : DetailsSide := {}
  dst : DetailsSide := {}
  traffic : ConnectionTraffic := {}
  isOpen : Bool := false
  pad : Pad Attr

namespace DialogConnectionDetails

variable (texts : DetailTexts) (d : DialogConnectionDetails)

def side : Side → DetailsSide
  | .src => d.src
  | .dst => d.dst

def setSide (s : Side) (f : DetailsSide → DetailsSide) : DialogConnectionDetails :=
  match s with
  | .src => { d with src := f d.src }
  | .dst => { d with dst := f d.dst }

def packets : Direction → UInt64
  | .rx => d.traffic.rxPackets
  | .tx => d.traffic.txPackets

def bytes : Direction → UInt64
  | .rx => d.traffic.rxBytes
  | .tx => d.traffic.txBytes

def speed : Direction → UInt64
  | .rx => d.traffic.rxSpeed
  | .tx => d.traffic.txSpeed

/-! ## Drawing -/

/-- `fillEmpty()`: up to the window box. -/
def fillEmpty (p : Pad Attr) : Pad Attr := p.fill (p.width - p.x - 1)

def writeStringSafe (p : Pad Attr) (string : List Char) : Pad Attr :=
  let space := p.width - p.x - 1
  if string.length ≤ space then p.addstr string
  else (if 2 < space then p.addstr (string.take (space - 2)) else p).addstr "..".toList

/-- `setPos` and `writeString`. -/
def writeAt (p : Pad Attr) (w : ℕ × ℕ × List Char) : Pad Attr := (p.move w.1 w.2.1).addstr w.2.2

def values : List (ℕ × ℕ × List Char) :=
  [(1, 7, d.typeName), (5, 12, d.src.address)] ++
  (if d.hasPorts then [(9, 9, d.src.port)] else []) ++
  [(12, 12, d.dst.address)] ++
  (if d.hasPorts then [(16, 9, d.dst.port)] else [])

/-- `drawStatic` up to the traffic. -/
def drawTexts (p : Pad Attr) : Pad Attr :=
  let p := ((labels d.hasPorts).foldl writeAt (p.box.attron .statusLabel)).attroff .statusLabel
  d.values.foldl writeAt (p.attron .statusValue)

def drawStatic (p : Pad Attr) : Pad Attr :=
  if d.content = .none then p.box
  else
    let p := d.drawTexts p
    let p := writeAt p (19, 13, "      0 B".toList)
    let p := writeAt p (20, 13, "      0 B".toList)
    let p := fillEmpty (writeAt p (19, 39, "0 packets".toList))
    let p := fillEmpty (writeAt p (20, 39, "0 packets".toList))
    p.attroff .statusValue

def drawState (p : Pad Attr) : Pad Attr :=
  let p := p.move 2 8
  let p :=
    if d.content = .removed then
      ((((p.attroff .statusValue).attron .importantRed).addstr "<removed>".toList).attroff
        .importantRed).attron .statusValue
    else if d.stateName ≠ [] then p.addstr d.stateName
    else p
  fillEmpty p

def drawHostname (s : Side) (p : Pad Attr) : Pad Attr :=
  let p := p.move (sideRow s + 2) 13
  let p := if (d.side s).hostname ≠ [] then writeStringSafe p (d.side s).hostname else p
  fillEmpty p

def drawASN (s : Side) (p : Pad Attr) : Pad Attr :=
  let p := p.move (sideRow s + 3) 17
  let p :=
    if (d.side s).asn.number ≠ 0 then
      writeStringSafe ((p.addstr (d.side s).asn.getString).addch ' ') (utf8 (d.side s).asn.orgName)
    else p
  fillEmpty p

def drawCountry (s : Side) (p : Pad Attr) : Pad Attr :=
  let p := p.move (sideRow s + 4) 12
  let p :=
    if (d.side s).country.val ≠ 0 then
      ((((p.addstr (texts.getCodeString (d.side s).country)).addch ' ').addch '(').addstr
        (texts.getNameString (d.side s).country)).addch ')'
    else p
  fillEmpty p

def drawService (s : Side) (p : Pad Attr) : Pad Attr :=
  let p := p.move (sideRow s + 5) (9 + (d.side s).port.length)
  let p :=
    if (d.side s).service ≠ [] then
      (writeStringSafe ((p.addch ' ').addch '(') (d.side s).service).addch ')'
    else p
  fillEmpty p

def drawPackets (r : Direction) (p : Pad Attr) : Pad Attr :=
  let p := (p.move (directionRow r) 39).addstr (Nat.toDigits 10 (d.packets r).toNat)
  fillEmpty (p.addstr (if d.packets r = 1 then " packet" else " packets").toList)

def drawBytes (r : Direction) (p : Pad Attr) : Pad Attr :=
  let value := texts.getHumanReadableSize (d.bytes r)
  ((p.move (directionRow r) 13).fill (9 - value.length)).addstr value

def drawSpeed (r : Direction) (p : Pad Attr) : Pad Attr :=
  let p := p.move (directionRow r) 22
  let p :=
    if 0 < d.speed r then
      ((p.addstr " (".toList).addstr (texts.getHumanReadableSize (d.speed r))).addstr "/s)".toList
    else p
  p.fill (36 - p.x)

def drawAddress (s : Side) (p : Pad Attr) : Pad Attr :=
  d.drawCountry texts s (d.drawASN s (d.drawHostname s p))

def drawIf (condition : Bool) (draw : Pad Attr → Pad Attr) (p : Pad Attr) : Pad Attr :=
  if condition then draw p else p

open EConnectionUpdateFlags in
def drawUpdate (updateFlags : Flags) (p : Pad Attr) : Pad Attr :=
  let p := p.attron .statusValue
  let p := drawIf (updateFlags.test protoState) d.drawState p
  let p := drawIf (updateFlags.test srcAddress) (d.drawAddress texts .src) p
  let p := drawIf (updateFlags.test srcPort && d.hasPorts) (d.drawService .src) p
  let p := drawIf (updateFlags.test dstAddress) (d.drawAddress texts .dst) p
  let p := drawIf (updateFlags.test dstPort && d.hasPorts) (d.drawService .dst) p
  let p := drawIf (updateFlags.test rxPackets) (d.drawPackets .rx) p
  let p := drawIf (updateFlags.test txPackets) (d.drawPackets .tx) p
  let p := drawIf (updateFlags.test rxBytes) (d.drawBytes texts .rx) p
  let p := drawIf (updateFlags.test txBytes) (d.drawBytes texts .tx) p
  let p := drawIf (updateFlags.test rxSpeed) (d.drawSpeed texts .rx) p
  let p := drawIf (updateFlags.test txSpeed) (d.drawSpeed texts .tx) p
  p.attroff .statusValue

/-! ## Opening, updating, closing -/

/-- A member that is compared under a flag. -/
def refresh {α : Type} [DecidableEq α] (updateFlags flag : Flags)
    (get : DialogConnectionDetails → α)
    (set : α → DialogConnectionDetails → DialogConnectionDetails) (value : α)
    (x : DialogConnectionDetails × Flags) : DialogConnectionDetails × Flags :=
  if updateFlags.test flag ∧ get x.1 ≠ value then (set value x.1, x.2 ||| flag) else x

/-- The comparison of two systems is that of their numbers. -/
def refreshASN (updateFlags flag : Flags) (s : Side) (value : ASN)
    (x : DialogConnectionDetails × Flags) : DialogConnectionDetails × Flags :=
  if updateFlags.test flag ∧ (x.1.side s).asn.number ≠ value.number then
    (x.1.setSide s fun m => { m with asn := value }, x.2 ||| flag)
  else x

def refreshAddress (updateFlags flag : Flags) (s : Side) (data : AddressData)
    (x : DialogConnectionDetails × Flags) : DialogConnectionDetails × Flags :=
  let x := refresh updateFlags flag (fun d => (d.side s).hostname)
    (fun v d => d.setSide s fun m => { m with hostname := v }) (utf8 data.hostname) x
  let x := refresh updateFlags flag (fun d => (d.side s).country)
    (fun v d => d.setSide s fun m => { m with country := v }) data.country x
  refreshASN updateFlags flag s data.asn x

def refreshService (updateFlags flag : Flags) (s : Side) (data : PortData)
    (x : DialogConnectionDetails × Flags) : DialogConnectionDetails × Flags :=
  refresh updateFlags flag (fun d => (d.side s).service)
    (fun v d => d.setSide s fun m => { m with service := v }) (utf8 data.service) x

def stateText (st : ConnectionStorage) (c : Connection) : List Char :=
  (EPortType.stateToString c.getType.portType (st.connectionData c).state).toList

def refreshCount (updateFlags flag : Flags) (get : ConnectionTraffic → UInt64)
    (set : UInt64 → ConnectionTraffic → ConnectionTraffic) (traffic : ConnectionTraffic)
    (x : DialogConnectionDetails × Flags) : DialogConnectionDetails × Flags :=
  refresh updateFlags flag (fun d => get d.traffic)
    (fun v d => { d with traffic := set v d.traffic }) (get traffic) x

/-- One `if` of `update`. -/
def refreshColumn (updateFlags : Flags) (st : ConnectionStorage) (c : Connection)
    (x : DialogConnectionDetails × Flags) (col : Column) : DialogConnectionDetails × Flags :=
  let traffic := (st.connectionData c).traffic
  match col with
  | .proto => x
  | .protoState =>
    refresh updateFlags col.flag (fun d => d.stateName) (fun v d => { d with stateName := v })
      (stateText st c) x
  | .srcAddress => refreshAddress updateFlags col.flag .src (st.addressData c.srcAddr) x
  | .dstAddress => refreshAddress updateFlags col.flag .dst (st.addressData c.dstAddr) x
  | .srcPort => refreshService updateFlags col.flag .src (st.portData c.srcPort) x
  | .dstPort => refreshService updateFlags col.flag .dst (st.portData c.dstPort) x
  | .rxPackets => refreshCount updateFlags col.flag (·.rxPackets)
      (fun v t => { t with rxPackets := v }) traffic x
  | .txPackets => refreshCount updateFlags col.flag (·.txPackets)
      (fun v t => { t with txPackets := v }) traffic x
  | .rxBytes => refreshCount updateFlags col.flag (·.rxBytes)
      (fun v t => { t with rxBytes := v }) traffic x
  | .txBytes => refreshCount updateFlags col.flag (·.txBytes)
      (fun v t => { t with txBytes := v }) traffic x
  | .rxSpeed => refreshCount updateFlags col.flag (·.rxSpeed)
      (fun v t => { t with rxSpeed := v }) traffic x
  | .txSpeed => refreshCount updateFlags col.flag (·.txSpeed)
      (fun v t => { t with txSpeed := v }) traffic x

/-- The columns in the order of `update`. -/
def columns : List Column :=
  [.protoState, .srcAddress, .dstAddress, .srcPort, .dstPort, .rxPackets, .txPackets, .rxBytes,
    .txBytes, .rxSpeed, .txSpeed]

/-- The comparisons of `update`, with the flags of what is another one. -/
def refreshAll (updateFlags : Flags) (st : ConnectionStorage) (c : Connection) :
    DialogConnectionDetails × Flags :=
  columns.foldl (refreshColumn updateFlags st c) (d, 0)

/-- Without data the connection was removed. -/
def update (data : Option (ConnectionStorage × Connection)) (updateFlags : Flags) :
    DialogConnectionDetails :=
  if d.content = .none then d
  else
    match data with
    | none =>
      let d := { d with content := .removed }
      { d with pad := d.drawUpdate texts EConnectionUpdateFlags.protoState d.pad }
    | some (st, c) =>
      let (d, flags) := d.refreshAll updateFlags st c
      { d with pad := d.drawUpdate texts flags d.pad }

/-- The members that are set when the dialog is opened. -/
def setStatic (st : ConnectionStorage) (c : Connection) : DialogConnectionDetails :=
  let d := { d with
    content := .normal
    hasPorts := c.hasPorts
    typeName := (Connection.typeToString c.getType).toList
    src := { d.src with address := utf8 (st.addressData c.srcAddr).numericString }
    dst := { d.dst with address := utf8 (st.addressData c.dstAddr).numericString } }
  if d.hasPorts then
    { d with
      src := { d.src with port := c.srcPort.toText }
      dst := { d.dst with port := c.dstPort.toText } }
  else d

def «open» (data : Option (ConnectionStorage × Connection)) : DialogConnectionDetails :=
  let d := { d with isOpen := true }
  let d := match data with
    | some (st, c) => d.setStatic st c
    | none => d
  let d := { d with pad := d.drawStatic d.pad }
  if d.content = .normal then d.update texts data (-1) else d

/-- The loop of `close`. -/
def clear (p : Pad Attr) : Pad Attr :=
  (List.range p.height).foldl (fun p i => fillEmpty (p.move i 1)) p

def close : DialogConnectionDetails := { pad := clear d.pad }

def handleKey : Key → Option DialogConnectionDetails
  | .up | .down | .left | .right | .ppage | .npage => some d
  | .enter | .esc => some d.close
  | _ => none

/-- The constructor. -/
def init : DialogConnectionDetails :=
  let d : DialogConnectionDetails := { pad := .new 80 22 }
  { d with pad := d.drawStatic d.pad }

/-! ## The fields -/

/-- The service is behind the port. -/
def fieldCol : Field → ℕ
  | .state => 8
  | .hostname _ => 13
  | .asn _ => 17
  | .country _ => 12
  | .service s => 9 + (d.side s).port.length
  | .packets _ => 39
  | .bytes _ => 13
  | .speed _ => 22

def fieldWidth : Field → ℕ
  | .state => 71
  | .hostname _ => 66
  | .asn _ => 62
  | .country _ => 67
  | .service s => if d.hasPorts then 70 - (d.side s).port.length else 0
  | .packets _ => 40
  | .bytes _ => 9
  | .speed _ => 14

theorem field_disjoint (f g : Field) (hne : f ≠ g) (hrow : f.row = g.row) :
    d.fieldCol f + d.fieldWidth f ≤ d.fieldCol g ∨
      d.fieldCol g + d.fieldWidth g ≤ d.fieldCol f := by
  -- Only the rows of the traffic have more than one field.
  rcases f with _ | s | s | s | s | r | r | r <;> rcases g with _ | t | t | t | t | u | u | u <;>
    (try cases s) <;> (try cases t) <;> (try cases r) <;> (try cases u) <;>
    simp_all [Field.row, fieldCol, fieldWidth, sideRow, directionRow]

def form : Form Field := ⟨Field.row, d.fieldCol, d.fieldWidth, d.field_disjoint⟩

def hostnameText (s : Side) : List Char := safe 66 (d.side s).hostname

def asnText (s : Side) : List Char :=
  if (d.side s).asn.number ≠ 0 then
    let number := (d.side s).asn.getString ++ [' ']
    number ++ safe (62 - number.length) (utf8 (d.side s).asn.orgName)
  else []

def countryText (s : Side) : List Char :=
  if (d.side s).country.val ≠ 0 then
    texts.getCodeString (d.side s).country ++ [' ', '('] ++
      texts.getNameString (d.side s).country ++ [')']
  else []

def serviceText (s : Side) : List Char :=
  if (d.side s).service ≠ [] then
    [' ', '('] ++ safe (68 - (d.side s).port.length) (d.side s).service ++ [')']
  else []

def packetsText (r : Direction) : List Char :=
  Nat.toDigits 10 (d.packets r).toNat ++
    (if d.packets r = 1 then " packet" else " packets").toList

def speedText (r : Direction) : List Char :=
  if 0 < d.speed r then
    " (".toList ++ texts.getHumanReadableSize (d.speed r) ++ "/s)".toList
  else []

def fieldCells : Field → List (Char × Attr)
  | .state =>
    if d.content = .removed then styled .importantRed "<removed>".toList ++ blanks 62
    else padded 71 d.stateName
  | .hostname s => padded 66 (d.hostnameText s)
  | .asn s => padded 62 (d.asnText s)
  | .country s => padded 67 (d.countryText texts s)
  | .service s => if d.hasPorts then padded (70 - (d.side s).port.length) (d.serviceText s) else []
  | .packets r => padded 40 (d.packetsText r)
  | .bytes r =>
    let value := texts.getHumanReadableSize (d.bytes r)
    blanks (9 - value.length) ++ styled .statusValue value
  | .speed r => padded 14 (d.speedText texts r)

/-- Each byte of what is drawn takes one cell. -/
structure TextsPrintable : Prop where
  typeName : IsText d.typeName
  stateName : IsText d.stateName
  side : ∀ s, (d.side s).IsPrintable texts

/-- Where all fields are in the window box. -/
structure Fits : Prop where
  typeName : d.typeName.length ≤ 72
  stateName : d.stateName.length ≤ 71
  address : ∀ s, (d.side s).address.length ≤ 67
  port : ∀ s, (d.side s).port.length ≤ 9
  service : ∀ s, (d.side s).port.length + (d.side s).service.length ≤ 67
  printable : d.TextsPrintable texts

variable {texts d}

/-- Other members do not matter. -/
theorem Fits.congr {d' : DialogConnectionDetails} (h : d.Fits texts)
    (htype : d'.typeName = d.typeName) (hstate : d'.stateName = d.stateName)
    (hside : ∀ s, d'.side s = d.side s) : d'.Fits texts := by
  refine ⟨htype ▸ h.typeName, hstate ▸ h.stateName, fun s => hside s ▸ h.address s,
    fun s => hside s ▸ h.port s, fun s => hside s ▸ h.service s, ?_⟩
  exact ⟨htype ▸ h.printable.typeName, hstate ▸ h.printable.stateName,
    fun s => hside s ▸ h.printable.side s⟩

variable {p q : Pad Attr} {s t : List Char} {f : Field} {a : Attr}

theorem length_hostnameText (s : Side) : (d.hostnameText s).length ≤ 66 :=
  length_safe (by decide) _

theorem length_asnText (s : Side) : (d.asnText s).length ≤ 62 := by
  have hnumber := length_asn_le (d.side s).asn
  unfold asnText
  split_ifs
  · have hle : ((d.side s).asn.getString ++ [' ']).length ≤ 13 := by
      rw [List.length_append, List.length_singleton]
      omega
    have hsafe := length_safe (n := 62 - ((d.side s).asn.getString ++ [' ']).length) (by omega)
      (utf8 (d.side s).asn.orgName)
    dsimp only
    rw [List.length_append]
    omega
  · decide

theorem length_countryText (htexts : texts.Fits) (s : Side) :
    (d.countryText texts s).length ≤ 67 := by
  have hcode := htexts.code (d.side s).country
  have hname := htexts.name (d.side s).country
  unfold countryText
  split_ifs
  · simp only [List.length_append, List.length_cons, List.length_nil]
    omega
  · decide

theorem length_serviceText (hd : d.Fits texts) (s : Side) :
    (d.serviceText s).length ≤ 70 - (d.side s).port.length := by
  have hservice := hd.service s
  have hwhole : safe (68 - (d.side s).port.length) (d.side s).service = (d.side s).service :=
    if_pos (by omega)
  unfold serviceText
  rw [hwhole]
  split_ifs
  · simp only [List.length_append, List.length_cons, List.length_nil]
    omega
  · exact Nat.zero_le _

theorem length_packetsText (r : Direction) : (d.packetsText r).length ≤ 40 := by
  have hdigits := length_toDigits_uint64_le (d.packets r)
  have hunit : (if d.packets r = 1 then " packet" else " packets").toList.length ≤ 8 := by
    split_ifs <;> decide
  unfold packetsText
  rw [List.length_append]
  omega

theorem length_speedText (htexts : texts.Fits) (r : Direction) :
    (d.speedText texts r).length ≤ 14 := by
  have hsize := htexts.size (d.speed r)
  have hopen : " (".toList.length = 2 := rfl
  have hclose : "/s)".toList.length = 3 := rfl
  unfold speedText
  split_ifs
  · rw [List.length_append, List.length_append, hopen, hclose]
    omega
  · decide

theorem length_fieldCells (htexts : texts.Fits) (hd : d.Fits texts) (f : Field) :
    (d.fieldCells texts f).length = d.fieldWidth f := by
  cases f with
  | state =>
    dsimp only [fieldCells, fieldWidth]
    split_ifs
    · rw [List.length_append, length_styled, length_blanks]
      rfl
    · exact length_padded hd.stateName
  | hostname s => exact length_padded (length_hostnameText s)
  | asn s => exact length_padded (length_asnText s)
  | country s => exact length_padded (length_countryText htexts s)
  | service s =>
    dsimp only [fieldCells, fieldWidth]
    split_ifs
    · exact length_padded (length_serviceText hd s)
    · rfl
  | packets r => exact length_padded (length_packetsText r)
  | bytes r =>
    have hsize := htexts.size (d.bytes r)
    dsimp only [fieldCells, fieldWidth]
    rw [List.length_append, length_blanks, length_styled]
    omega
  | speed r => exact length_padded (length_speedText htexts r)

theorem leftCol_le (f : Field) : f.leftCol ≤ d.fieldCol f := by
  cases f with
  | service s => exact Nat.le_add_right 9 _
  | _ => exact le_refl _

theorem lt_rightCol {i : ℕ} (hi : i < d.fieldWidth f) : d.fieldCol f + i < f.rightCol := by
  cases f with
  | service s =>
    dsimp only [fieldWidth, fieldCol, Field.rightCol] at hi ⊢
    split_ifs at hi <;> omega
  | _ => dsimp only [fieldWidth, fieldCol, Field.rightCol] at hi ⊢; omega

/-- Nothing is written in the fields. -/
theorem labels_beside (hasPorts : Bool) {i : ℕ} (hi : i < d.fieldWidth f) :
    ∀ w ∈ labels hasPorts, Beside w f.row (d.fieldCol f + i) := by
  intro w hw
  have hleft := leftCol_le (d := d) f
  have hright := lt_rightCol hi
  exact (labels_outside hasPorts f (mem_fields f) w hw).imp_right
    (Or.imp (fun h => lt_of_lt_of_le hright h) fun h => by omega)

theorem mem_values {w : ℕ × ℕ × List Char} (hw : w ∈ d.values) :
    w.1 ∈ [1, 5, 12] ∨ ∃ s, w = (sideRow s + 5, 9, (d.side s).port) := by
  unfold values at hw
  simp only [List.mem_append, List.mem_cons, List.not_mem_nil, or_false,
    List.mem_ite_nil_right] at hw
  rcases hw with ((((rfl | rfl) | ⟨-, rfl⟩) | rfl) | ⟨-, rfl⟩)
  · exact .inl (by simp)
  · exact .inl (by simp)
  · exact .inr ⟨.src, rfl⟩
  · exact .inl (by simp)
  · exact .inr ⟨.dst, rfl⟩

theorem values_beside (i : ℕ) : ∀ w ∈ d.values, Beside w f.row (d.fieldCol f + i) := by
  intro w hw
  rcases mem_values hw with hrow | ⟨s, rfl⟩
  · exact .inl fun heq => row_notMem f (mem_fields f) (heq ▸ hrow)
  · by_cases hrow : f.row = sideRow s + 5
    · rw [eq_service s f (mem_fields f) hrow]
      exact .inr (.inr (Nat.le_add_right _ i))
    · exact .inl hrow

theorem values_inPad (hd : d.Fits texts) : ∀ w ∈ d.values, InPad w := by
  have htype := hd.typeName
  have hsrc := hd.address .src
  have hdst := hd.address .dst
  have hsrcPort := hd.port .src
  have hdstPort := hd.port .dst
  dsimp only [side] at hsrc hdst hsrcPort hdstPort
  intro w hw
  unfold values at hw
  simp only [List.mem_append, List.mem_cons, List.not_mem_nil, or_false,
    List.mem_ite_nil_right] at hw
  rcases hw with ((((rfl | rfl) | ⟨-, rfl⟩) | rfl) | ⟨-, rfl⟩)
  · exact inPad_of (by decide) (by decide) (by omega) hd.printable.typeName
  · exact inPad_of (by decide) (by decide) (by omega) (hd.printable.side .src).address
  · exact inPad_of (by decide) (by decide) (by omega) (hd.printable.side .src).port
  · exact inPad_of (by decide) (by decide) (by omega) (hd.printable.side .dst).address
  · exact inPad_of (by decide) (by decide) (by omega) (hd.printable.side .dst).port

/-! ## What is drawn -/

/-- A text is written. -/
def Text (p q : Pad Attr) (s : List Char) : Prop := Pad.Wrote p q (styled p.attr s)

theorem Text.x (h : Text p q s) (hfits : p.x + s.length < p.width) : q.x = p.x + s.length := by
  rw [(Pad.Wrote.pos h (by rwa [length_styled])).2, length_styled]

/-- The pad of the dialog, with an attribute set. -/
structure Ready (a : Attr) (p : Pad Attr) : Prop where
  width : p.width = 80
  height : p.height = 22
  attr : p.attr = a
  plain : p.IsPlain

theorem Ready.put {y x : ℕ} {cs : List (Char × Attr)} (h : Ready a p)
    (hput : Pad.Put p q y x cs) : Ready a q :=
  ⟨hput.keeps.width.trans h.width, hput.keeps.height.trans h.height,
    hput.keeps.attr.trans h.attr, hput.keeps.plain⟩

def drawField (texts : DetailTexts) (d : DialogConnectionDetails) : Field → Pad Attr → Pad Attr
  | .state => d.drawState
  | .hostname s => d.drawHostname s
  | .asn s => d.drawASN s
  | .country s => d.drawCountry texts s
  | .service s => d.drawService s
  | .packets r => d.drawPackets r
  | .bytes r => d.drawBytes texts r
  | .speed r => d.drawSpeed texts r

section Drawing

variable [LawfulPadLibrary Attr]

namespace Text

theorem refl (hp : p.IsPlain) : Text p p [] := Pad.Wrote.refl hp

variable (h : Text p q s)
include h

theorem addstr (ht : IsText t) (hfits : p.x + s.length + t.length ≤ p.width) :
    Text p (q.addstr t) (s ++ t) := by
  unfold Text styled
  rw [List.map_append]
  exact Pad.Wrote.addstr h ht (by rwa [List.length_map])

theorem addch {c : Char} (hc : IsPrintable c) (hfits : p.x + s.length < p.width) :
    Text p (q.addch c) (s ++ [c]) := by
  unfold Text styled
  rw [List.map_append]
  exact Pad.Wrote.addch h hc (by rwa [List.length_map])

theorem safe (ht : IsText t) (hfits : p.x + s.length + 3 ≤ p.width) :
    Text p (writeStringSafe q t) (s ++ safe (p.width - p.x - s.length - 1) t) := by
  have hdots : "..".toList.length = 2 := rfl
  have hspace : q.width - q.x - 1 = p.width - p.x - s.length - 1 := by
    rw [h.x (by omega), Pad.Wrote.width h, Nat.sub_add_eq]
  unfold writeStringSafe DialogConnectionDetails.safe
  rw [hspace]
  dsimp only
  split_ifs with hshort hspace
  · exact h.addstr ht (by omega)
  · rw [← List.append_assoc]
    refine (h.addstr (ht.take _) ?_).addstr isText_dots ?_
    · rw [List.length_take]
      omega
    · rw [List.length_append, List.length_take, hdots]
      omega
  · exact h.addstr isText_dots (by rw [hdots]; omega)

theorem fillEmpty (hfits : p.x + s.length < p.width) (hattr : p.attr = .statusValue) :
    Pad.Wrote p (fillEmpty q) (padded (p.width - p.x - 1) s) := by
  unfold DialogConnectionDetails.fillEmpty padded blanks
  have hn : p.width - p.x - 1 - s.length = q.width - q.x - 1 := by
    rw [h.x hfits, Pad.Wrote.width h]
    omega
  rw [hn, ← hattr]
  exact Pad.Wrote.fill h _ (by rw [length_styled, h.x hfits, Pad.Wrote.width h]; omega)

end Text

/-- A text with blanks up to the window box. -/
theorem Ready.put_text {y x : ℕ} (hp : Ready .statusValue p) (hy : y < 22)
    (h : Text (p.move y x) q s) (hfits : x + s.length < 80) :
    Pad.Put p (fillEmpty q) y x (padded (79 - x) s) := by
  have hx : x < p.width := by rw [hp.width]; omega
  have hy' : y < p.height := by rw [hp.height]; exact hy
  have hmx := Pad.x_move hp.plain hy' hx
  have hmw := (Pad.width_move hp.plain y x).trans hp.width
  have hwrote := h.fillEmpty (by rw [hmx, hmw]; exact hfits)
    ((Pad.attr_move hp.plain y x).trans hp.attr)
  have hspace : (p.move y x).width - (p.move y x).x - 1 = 79 - x := by
    rw [hmx, hmw]
    omega
  rw [hspace] at hwrote
  exact hwrote.put hp.plain hy' hx

theorem Ready.move (hp : Ready .statusValue p) {y x : ℕ} (hy : y < 22) (hx : x < 80) :
    (p.move y x).IsPlain ∧ (p.move y x).width = 80 ∧ (p.move y x).x = x ∧
      (p.move y x).attr = .statusValue :=
  ⟨hp.plain.move y x, (Pad.width_move hp.plain y x).trans hp.width,
    Pad.x_move hp.plain (hp.height ▸ hy) (hp.width ▸ hx),
    (Pad.attr_move hp.plain y x).trans hp.attr⟩

section Put

variable (hp : Ready .statusValue p)
include hp

theorem drawState_put (hd : d.Fits texts) :
    Pad.Put p (d.drawState p) 2 8 (d.fieldCells texts .state) := by
  obtain ⟨hm, hwidth, hx, hattr⟩ := hp.move (y := 2) (x := 8) (by decide) (by decide)
  have hlength := hd.stateName
  unfold drawState
  dsimp only [fieldCells]
  by_cases hremoved : d.content = .removed
  · rw [if_pos hremoved, if_pos hremoved]
    have hoff := hm.attroff hattr
    have hoffAttr := Pad.attr_attroff hm hattr
    have hon := hoff.attron Attr.importantRed hoffAttr
    have honWidth := ((Pad.width_attron (a := Attr.importantRed) hoff hoffAttr).trans
      (Pad.width_attroff hm hattr)).trans hwidth
    have honX := ((Pad.x_attron (a := Attr.importantRed) hoff hoffAttr).trans
      (Pad.x_attroff hm hattr)).trans hx
    have hred := Pad.wrote_addstr hon (s := "<removed>".toList) (by decide)
      (by rw [honX, honWidth]; decide)
    rw [Pad.attr_attron hoff hoffAttr] at hred
    have hwrote := (hred.of_attron hoff hoffAttr).of_attroff hm hattr
    obtain ⟨-, hx'⟩ := hwrote.pos (by rw [hx, hwidth]; decide)
    have hfill := hwrote.fill 62 (by rw [hx, hwidth]; decide)
    rw [hattr] at hfill
    have hspace : ∀ q : Pad Attr, q.width = 80 → q.x = 17 → fillEmpty q = q.fill 62 := by
      intro q hqw hqx
      rw [fillEmpty, hqw, hqx]
    rw [hspace _ (hwrote.width.trans hwidth) (by rw [hx', hx]; rfl)]
    exact hfill.put hp.plain (hp.height ▸ by decide) (hp.width ▸ by decide)
  · rw [if_neg hremoved, if_neg hremoved]
    by_cases hname : d.stateName ≠ []
    · rw [if_pos hname]
      exact hp.put_text (by decide) (s := d.stateName)
        ((Text.refl hm).addstr hd.printable.stateName
          (by rw [hx, hwidth, List.length_nil]; omega)) (by omega)
    · rw [if_neg hname, not_not.mp hname]
      exact hp.put_text (by decide) (Text.refl hm) (by decide)

theorem drawHostname_put (s : Side) (hname : IsText (d.side s).hostname) :
    Pad.Put p (d.drawHostname s p) (sideRow s + 2) 13 (padded 66 (d.hostnameText s)) := by
  have hrow : sideRow s + 2 < 22 := by cases s <;> decide
  obtain ⟨hm, hwidth, hx, -⟩ := hp.move hrow (x := 13) (by decide)
  have hlength := length_safe (n := 66) (by decide) (d.side s).hostname
  unfold drawHostname hostnameText
  dsimp only
  refine hp.put_text hrow ?_ (by omega)
  by_cases hempty : (d.side s).hostname ≠ []
  · rw [if_pos hempty]
    have hsafe := (Text.refl hm).safe hname (by rw [hx, hwidth]; decide)
    rwa [hx, hwidth] at hsafe
  · rw [if_neg hempty, not_not.mp hempty]
    exact .refl hm

theorem drawASN_put (s : Side) (hname : IsText (utf8 (d.side s).asn.orgName)) :
    Pad.Put p (d.drawASN s p) (sideRow s + 3) 17 (padded 62 (d.asnText s)) := by
  have hrow : sideRow s + 3 < 22 := by cases s <;> decide
  obtain ⟨hm, hwidth, hx, -⟩ := hp.move hrow (x := 17) (by decide)
  unfold drawASN asnText
  dsimp only
  by_cases hnumber : (d.side s).asn.number ≠ 0
  · rw [if_pos hnumber, if_pos hnumber]
    have hlength := length_asn_le (d.side s).asn
    have hsafe := length_safe (n := 62 - ((d.side s).asn.getString ++ [' ']).length)
      (by rw [List.length_append, List.length_singleton]; omega) (utf8 (d.side s).asn.orgName)
    have hnum := ((Text.refl hm).addstr (isText_getString (d.side s).asn)
      (by rw [hx, hwidth, List.length_nil]; omega)).addch Pad.isPrintable_blank
      (by rw [hx, hwidth, List.nil_append]; omega)
    have htext := hnum.safe hname
      (by rw [hx, hwidth, List.nil_append, List.length_append, List.length_singleton]; omega)
    rw [hx, hwidth, List.nil_append] at htext
    have hspace : 80 - 17 - ((d.side s).asn.getString ++ [' ']).length - 1 =
        62 - ((d.side s).asn.getString ++ [' ']).length := by omega
    rw [hspace] at htext
    have hle : ((d.side s).asn.getString ++ [' ']).length ≤ 13 := by
      rw [List.length_append, List.length_singleton]
      omega
    refine hp.put_text hrow htext ?_
    rw [List.length_append]
    omega
  · rw [if_neg hnumber, if_neg hnumber]
    exact hp.put_text hrow (.refl hm) (by decide)

theorem drawCountry_put (htexts : texts.Fits) (s : Side)
    (hprintable : texts.NamePrintable (d.side s).country) :
    Pad.Put p (d.drawCountry texts s p) (sideRow s + 4) 12 (padded 67 (d.countryText texts s)) := by
  have hrow : sideRow s + 4 < 22 := by cases s <;> decide
  obtain ⟨hm, hwidth, hx, -⟩ := hp.move hrow (x := 12) (by decide)
  have hcode := htexts.code (d.side s).country
  have hname := htexts.name (d.side s).country
  unfold drawCountry countryText
  dsimp only
  by_cases hcountry : (d.side s).country.val ≠ 0
  · rw [if_pos hcountry, if_pos hcountry]
    have htext := (((((Text.refl hm).addstr (htexts.printable.code (d.side s).country)
      (by simp only [hx, hwidth, List.length_nil]; omega)).addch Pad.isPrintable_blank
      (by simp only [hx, hwidth, List.nil_append]; omega)).addch (c := '(') (by decide)
      (by simp only [hx, hwidth, List.nil_append, List.length_append, List.length_singleton]
          omega)).addstr (hprintable hcountry)
      (by simp only [hx, hwidth, List.nil_append, List.length_append, List.length_singleton]
          omega)).addch (c := ')') (by decide)
      (by simp only [hx, hwidth, List.nil_append, List.length_append, List.length_singleton]
          omega)
    refine hp.put_text hrow (by simpa using htext) ?_
    simp only [List.length_append, List.length_cons, List.length_nil]
    omega
  · rw [if_neg hcountry, if_neg hcountry]
    exact hp.put_text hrow (.refl hm) (by decide)

theorem drawService_put (hd : d.Fits texts) (s : Side) :
    Pad.Put p (d.drawService s p) (sideRow s + 5) (9 + (d.side s).port.length)
      (padded (70 - (d.side s).port.length) (d.serviceText s)) := by
  have hport := hd.port s
  have hservice := hd.service s
  have hrow : sideRow s + 5 < 22 := by cases s <;> decide
  obtain ⟨hm, hwidth, hx, -⟩ := hp.move hrow (x := 9 + (d.side s).port.length) (by omega)
  have hspace : 79 - (9 + (d.side s).port.length) = 70 - (d.side s).port.length := by omega
  unfold drawService serviceText
  dsimp only
  rw [← hspace]
  by_cases hempty : (d.side s).service ≠ []
  · rw [if_pos hempty, if_pos hempty]
    have hwhole : safe (68 - (d.side s).port.length) (d.side s).service = (d.side s).service :=
      if_pos (by omega)
    have hparen := ((Text.refl hm).addch Pad.isPrintable_blank
      (by rw [hx, hwidth, List.length_nil]; omega)).addch (c := '(') (by decide)
      (by rw [hx, hwidth, List.nil_append, List.length_singleton]; omega)
    have htext := hparen.safe (hd.printable.side s).service
      (by rw [hx, hwidth]; simp only [List.length_append, List.length_singleton, List.length_nil]
          omega)
    have hn : 80 - (9 + (d.side s).port.length) - ([] ++ [' '] ++ ['(']).length - 1 =
        68 - (d.side s).port.length := by
      simp only [List.length_append, List.length_singleton, List.length_nil]
      omega
    rw [hx, hwidth, hn, hwhole] at htext
    rw [hwhole]
    have hall := htext.addch (c := ')') (by decide) (by
      rw [hx, hwidth]
      simp only [List.length_append, List.length_singleton, List.length_nil]
      omega)
    refine hp.put_text hrow (by simpa using hall) ?_
    simp only [List.length_append, List.length_cons, List.length_nil]
    omega
  · rw [if_neg hempty, if_neg hempty]
    exact hp.put_text hrow (.refl hm) (by rw [List.length_nil]; omega)

theorem drawPackets_put (r : Direction) :
    Pad.Put p (d.drawPackets r p) (directionRow r) 39 (padded 40 (d.packetsText r)) := by
  have hrow : directionRow r < 22 := by cases r <;> decide
  obtain ⟨hm, hwidth, hx, -⟩ := hp.move hrow (x := 39) (by decide)
  have hdigits := length_toDigits_uint64_le (d.packets r)
  have hunit : (if d.packets r = 1 then " packet" else " packets").toList.length ≤ 8 ∧
      IsText (if d.packets r = 1 then " packet" else " packets").toList := by
    split_ifs <;> decide
  unfold drawPackets packetsText
  dsimp only
  have htext := ((Text.refl hm).addstr (isText_toDigits (d.packets r).toNat)
    (by simp only [hx, hwidth, List.length_nil]; omega)).addstr hunit.2
    (by simp only [hx, hwidth, List.nil_append]; omega)
  rw [List.nil_append] at htext
  refine hp.put_text hrow htext ?_
  rw [List.length_append]
  omega

theorem drawBytes_put (htexts : texts.Fits) (r : Direction) :
    Pad.Put p (d.drawBytes texts r p) (directionRow r) 13 (d.fieldCells texts (.bytes r)) := by
  have hrow : directionRow r < 22 := by cases r <;> decide
  obtain ⟨hm, hwidth, hx, hattr⟩ := hp.move hrow (x := 13) (by decide)
  have hsize := htexts.size (d.bytes r)
  have hfill := (Pad.wrote_fill (9 - (texts.getHumanReadableSize (d.bytes r)).length) hm
    (by omega)).addstr (htexts.printable.size (d.bytes r))
    (by rw [List.length_replicate]; omega)
  rw [hattr] at hfill
  exact hfill.put hp.plain (hp.height ▸ hrow) (hp.width ▸ by decide)

theorem drawSpeed_put (htexts : texts.Fits) (r : Direction) :
    Pad.Put p (d.drawSpeed texts r p) (directionRow r) 22 (padded 14 (d.speedText texts r)) := by
  have hrow : directionRow r < 22 := by cases r <;> decide
  obtain ⟨hm, hwidth, hx, hattr⟩ := hp.move hrow (x := 22) (by decide)
  have hsize := htexts.size (d.speed r)
  have hopen : " (".toList.length = 2 := rfl
  have hclose : "/s)".toList.length = 3 := rfl
  unfold drawSpeed speedText
  dsimp only
  generalize hq : (if 0 < d.speed r then _ else _) = q
  generalize hs : (if 0 < d.speed r then _ else _) = text
  have htext : Text (p.move (directionRow r) 22) q text ∧ text.length ≤ 14 := by
    by_cases hspeed : 0 < d.speed r
    · rw [if_pos hspeed] at hq hs
      subst hq hs
      refine ⟨?_, ?_⟩
      · have htext := (((Text.refl hm).addstr (t := " (".toList) (by decide)
          (by rw [hx, hwidth]; decide)).addstr (htexts.printable.size (d.speed r))
          (by rw [hx, hwidth, List.nil_append, hopen]; omega)).addstr (t := "/s)".toList)
          (by decide) (by rw [hx, hwidth, List.nil_append, List.length_append, hopen, hclose]
                          omega)
        rwa [List.nil_append] at htext
      · rw [List.length_append, List.length_append, hopen, hclose]
        omega
    · rw [if_neg hspeed] at hq hs
      subst hq hs
      exact ⟨.refl hm, by decide⟩
  obtain ⟨htext, hlength⟩ := htext
  have hqx := htext.x (by rw [hx, hwidth]; omega)
  have hfill := Pad.Wrote.fill htext (36 - q.x) (by rw [length_styled, hqx, hx, hwidth]; omega)
  have hn : 36 - q.x = 14 - text.length := by omega
  rw [hattr, hn] at hfill
  rw [hn]
  exact hfill.put hp.plain (hp.height ▸ hrow) (hp.width ▸ by decide)

end Put

/-- A field is drawn from its first cell to its last one. -/
theorem drawField_put (hp : Ready .statusValue p) (htexts : texts.Fits) (hd : d.Fits texts)
    (f : Field) (hports : ∀ s, f = .service s → d.hasPorts) :
    Pad.Put p (d.drawField texts f p) f.row (d.fieldCol f) (d.fieldCells texts f) := by
  cases f with
  | state => exact drawState_put hp hd
  | hostname s => exact drawHostname_put hp s (hd.printable.side s).hostname
  | asn s => exact drawASN_put hp s (hd.printable.side s).orgName
  | country s => exact drawCountry_put hp htexts s (hd.printable.side s).country
  | service s =>
    dsimp only [fieldCells]
    rw [if_pos (hports s rfl)]
    exact drawService_put hp hd s
  | packets r => exact drawPackets_put hp r
  | bytes r => exact drawBytes_put hp htexts r
  | speed r => exact drawSpeed_put hp htexts r

end Drawing

/-! ## Updating -/

/-- Without ports there are no services. -/
def isDrawn (d : DialogConnectionDetails) : Field → Bool
  | .service _ => d.hasPorts
  | _ => true

/-- The fields that are drawn for the flags, one by one. -/
def drawFields (texts : DetailTexts) (d : DialogConnectionDetails) (updateFlags : Flags)
    (fs : List Field) (p : Pad Attr) : Pad Attr :=
  fs.foldl (fun p f =>
    drawIf (updateFlags.test f.column.flag && d.isDrawn f) (d.drawField texts f) p) p

theorem drawAddress_eq (b : Bool) (s : Side) (p : Pad Attr) :
    drawIf b (d.drawAddress texts s) p =
      drawIf b (d.drawCountry texts s)
        (drawIf b (d.drawASN s) (drawIf b (d.drawHostname s) p)) := by
  cases b <;> simp [drawIf, drawAddress]

theorem drawUpdate_eq (updateFlags : Flags) (p : Pad Attr) :
    d.drawUpdate texts updateFlags p =
      (drawFields texts d updateFlags fields (p.attron .statusValue)).attroff .statusValue := by
  simp only [drawUpdate, drawFields, fields, drawAddress_eq, List.foldl_cons, List.foldl_nil,
    Field.column, addressColumn, portColumn, Column.flag, isDrawn, drawField, Bool.and_true]

/-- What the fields look like. -/
def fieldLook (texts : DetailTexts) (d : DialogConnectionDetails) (f : Field) :
    List (Char × Attr) := (d.fieldCells texts f).map look

section Drawing

variable [LawfulPadLibrary Attr]

theorem drawFields_filled (htexts : texts.Fits) (hd : d.Fits texts) (updateFlags : Flags)
    {base : Pad Attr} (fs : List Field) (hp : Ready .statusValue p)
    {content : Field → List (Char × Attr)}
    (h : d.form.Filled look base content p) :
    Ready .statusValue (drawFields texts d updateFlags fs p) ∧
      d.form.Filled look base
        (fun f => if f ∈ fs ∧ (updateFlags.test f.column.flag && d.isDrawn f) then
          d.fieldLook texts f else content f) (drawFields texts d updateFlags fs p) := by
  induction fs generalizing p content with
  | nil => exact ⟨hp, h.congr fun f => by simp⟩
  | cons g fs ih =>
    simp only [drawFields, List.foldl_cons] at ih ⊢
    by_cases hg : updateFlags.test g.column.flag && d.isDrawn g
    · rw [drawIf, if_pos hg]
      have hput := drawField_put hp htexts hd g fun s hs => by
        subst hs
        exact (Bool.and_eq_true _ _ ▸ hg).2
      obtain ⟨hready, hfilled⟩ := ih (hp.put hput)
        (h.put hput (length_fieldCells htexts hd g))
      refine ⟨hready, hfilled.congr fun f => ?_⟩
      by_cases hf : f = g
      · subst hf
        simp [hg, fieldLook]
      · simp [hf]
    · rw [drawIf, if_neg hg]
      obtain ⟨hready, hfilled⟩ := ih hp h
      refine ⟨hready, hfilled.congr fun f => ?_⟩
      by_cases hf : f = g
      · subst hf
        simp [hg]
      · simp [hf]

end Drawing

/-! ### When the dialog is opened -/

def OnBorder (y x : ℕ) : Prop := (y < 22 ∧ x < 80) ∧ (y = 0 ∨ y = 21 ∨ x = 0 ∨ x = 79)

/-- The pad of a closed dialog has nothing in the window box. -/
structure Blank (p : Pad Attr) : Prop extends Ready .default p where
  cells : ∀ y x, y < 22 → x < 80 → ¬OnBorder y x → look (p.cells y x) = PadView.blank

/-- The dialog without the fields. -/
def base (d : DialogConnectionDetails) : Pad Attr := d.drawTexts (.new 80 22)

theorem onBorder_iff (hp : Ready a p) {y x : ℕ} : p.view.OnBorder y x ↔ OnBorder y x := by
  change (y < p.height ∧ x < p.width) ∧ (y = 0 ∨ y + 1 = p.height ∨ x = 0 ∨ x + 1 = p.width) ↔ _
  rw [hp.height, hp.width]
  unfold OnBorder
  omega

section Drawing

variable [LawfulPadLibrary Attr]

theorem writeAt_put {w : ℕ × ℕ × List Char} (hp : Ready a p) (hw : InPad w) :
    Pad.Put p (writeAt p w) w.1 w.2.1 (styled a w.2.2) := by
  obtain ⟨⟨hy, hx, hfits⟩, htext⟩ := hw
  rw [← hp.height] at hy
  rw [← hp.width] at hx hfits
  have hwrote := Pad.wrote_addstr (hp.plain.move w.1 w.2.1) htext (by
    rw [Pad.x_move hp.plain hy hx, Pad.width_move hp.plain]
    exact hfits)
  rw [Pad.attr_move hp.plain, hp.attr] at hwrote
  exact hwrote.put hp.plain hy hx

theorem foldl_writeAt (ws : List (ℕ × ℕ × List Char)) (hp : Ready a p)
    (hws : ∀ w ∈ ws, InPad w) :
    Ready a (ws.foldl writeAt p) ∧
      ∀ y x, (∀ w ∈ ws, Beside w y x) → (ws.foldl writeAt p).cells y x = p.cells y x := by
  induction ws generalizing p with
  | nil => exact ⟨hp, fun _ _ _ => rfl⟩
  | cons w ws ih =>
    rw [List.forall_mem_cons] at hws
    have hput := writeAt_put hp hws.1
    obtain ⟨hready, hcells⟩ := ih (hp.put hput) hws.2
    refine ⟨hready, fun y x h => ?_⟩
    rw [List.forall_mem_cons] at h
    rw [List.foldl_cons, hcells y x h.2, hput.cell_of_ne]
    rw [length_styled]
    exact h.1

theorem blank_new : Blank (.new 80 22) := by
  have hwidth : 0 < 80 := by decide
  have hheight : 0 < 22 := by decide
  refine ⟨⟨Pad.width_new hwidth hheight, Pad.height_new hwidth hheight,
    Pad.attr_new hwidth hheight, .new hwidth hheight⟩, fun y x _ _ _ => ?_⟩
  rw [Pad.cells_new hwidth hheight]
  exact look_blank

theorem Ready.box (h : Ready a p) : Ready a p.box := by
  have hview := LawfulPadLibrary.view_box h.plain
  exact ⟨(congrArg PadView.width hview).trans h.width,
    (congrArg PadView.height hview).trans h.height, (congrArg PadView.attr hview).trans h.attr,
    h.plain.box⟩

theorem Ready.attron (h : Ready .default p) (b : Attr) : Ready b (p.attron b) :=
  ⟨(Pad.width_attron h.plain h.attr).trans h.width,
    (Pad.height_attron h.plain h.attr).trans h.height, Pad.attr_attron h.plain h.attr,
    h.plain.attron b h.attr⟩

theorem Ready.attroff (h : Ready a p) : Ready .default (p.attroff a) :=
  ⟨(Pad.width_attroff h.plain h.attr).trans h.width,
    (Pad.height_attroff h.plain h.attr).trans h.height, Pad.attr_attroff h.plain h.attr,
    h.plain.attroff h.attr⟩

theorem Ready.cells_box (hp : Ready a p) {y x : ℕ} (hborder : ¬OnBorder y x) :
    p.box.cells y x = p.cells y x := by
  unfold Pad.cells
  rw [LawfulPadLibrary.view_box hp.plain]
  exact if_neg ((onBorder_iff hp).not.mpr hborder)

/-- The labels are written over the box, the values behind them, and all beside the fields. -/
theorem drawTexts_spec (hp : Ready .default p) (hd : d.Fits texts) :
    Ready .statusValue (d.drawTexts p) ∧
      ∀ f i, i < d.fieldWidth f →
        (d.drawTexts p).cells f.row (d.fieldCol f + i) = p.box.cells f.row (d.fieldCol f + i) := by
  obtain ⟨hready, hcells⟩ := foldl_writeAt (labels d.hasPorts) (hp.box.attron .statusLabel)
    (labels_inPad _)
  have hbox := Pad.cells_attron (a := Attr.statusLabel) hp.box.plain hp.box.attr
  unfold drawTexts
  generalize (labels d.hasPorts).foldl writeAt (p.box.attron .statusLabel) = q at hready hcells ⊢
  have hoff := hready.attroff
  have hvalues := (Pad.cells_attron (a := Attr.statusValue) hoff.plain hoff.attr).trans
    (Pad.cells_attroff hready.plain hready.attr)
  obtain ⟨hready', hcells'⟩ := foldl_writeAt d.values (hoff.attron .statusValue) (values_inPad hd)
  refine ⟨hready', fun f i hi => (hcells' _ _ (values_beside i)).trans ?_⟩
  rw [hvalues, hcells _ _ (labels_beside _ hi), hbox]

theorem foldl_writeAt_alike (ws : List (ℕ × ℕ × List Char)) (hws : ∀ w ∈ ws, InPad w)
    (h : Pad.Alike look p q) : Pad.Alike look (ws.foldl writeAt p) (ws.foldl writeAt q) := by
  induction ws generalizing p q with
  | nil => exact h
  | cons w ws ih =>
    rw [List.forall_mem_cons] at hws
    exact ih hws.2 ((h.move w.1 w.2.1).addstr hws.1.2)

/-- What was on the pad before does not matter. -/
theorem drawTexts_looksLike (hp : Blank p) (hq : Blank q) (hd : d.Fits texts) :
    Pad.LooksLike look (d.drawTexts p) (d.drawTexts q) := by
  have hbox : Pad.LooksLike look p.box q.box := by
    refine Pad.looksLike_box hp.plain hq.plain (hq.width.trans hp.width.symm)
      (hq.height.trans hp.height.symm) (hq.attr.trans hp.attr.symm) fun y x hy hx hborder => ?_
    rw [hp.height] at hy
    rw [hp.width] at hx
    rw [hp.cells y x hy hx ((onBorder_iff hp.toReady).not.mp hborder),
      hq.cells y x hy hx ((onBorder_iff hp.toReady).not.mp hborder)]
  have hready := hp.toReady.box
  have hon := hready.attron .statusLabel
  obtain ⟨ws, hws⟩ : ∃ ws, labels d.hasPorts = (1, 1, "Type: ".toList) :: ws := ⟨_, rfl⟩
  have hlabels := labels_inPad d.hasPorts
  obtain ⟨hlabelled, -⟩ := foldl_writeAt (labels d.hasPorts) hon hlabels
  -- The first label is moved to, and all that follows begins where it ends.
  have hfirst := (hbox.attron hready.attr .statusLabel).move (y := 1) (x := 1)
    (hon.height ▸ by decide) (hon.width ▸ by decide)
  unfold drawTexts
  rw [hws] at hlabelled hlabels ⊢
  rw [List.forall_mem_cons] at hlabels
  have halike := (foldl_writeAt_alike ws hlabels.2 (hfirst.addstr hlabels.1.2)).attroff
    hlabelled.attr
  exact (foldl_writeAt_alike d.values (values_inPad hd)
    (halike.attron hlabelled.attroff.attr .statusValue)).looksLike

theorem drawTexts_filled (hp : Blank p) (hd : d.Fits texts) :
    d.form.Filled look d.base (fun f => List.replicate (d.fieldWidth f) PadView.blank)
      (d.drawTexts p) := by
  obtain ⟨hready, hcells⟩ := drawTexts_spec hp.toReady hd
  have hlooks := drawTexts_looksLike blank_new hp hd
  refine ⟨fun f => List.length_replicate, fun f i hi => ?_,
    fun y x hy hx _ => hlooks.view.cells y x hy hx⟩
  have hi' : i < d.fieldWidth f := hi
  obtain ⟨hrow, hcol⟩ := inside f (mem_fields f)
  have hleft := leftCol_le (d := d) f
  have hright := lt_rightCol hi'
  have hborder : ¬OnBorder f.row (d.fieldCol f + i) := by
    unfold OnBorder
    omega
  have hcell := (hcells f i hi').trans (hp.toReady.cells_box hborder)
  rw [List.getElem?_replicate, if_pos hi']
  exact congrArg some ((congrArg look hcell).trans (hp.cells _ _ (by omega) (by omega) hborder))

/-- What `drawStatic` leaves in the fields. -/
def zeroCells (d : DialogConnectionDetails) : Field → List (Char × Attr)
  | .bytes _ => styled .statusValue "      0 B".toList
  | .packets _ => padded 40 "0 packets".toList
  | f => List.replicate (d.fieldWidth f) PadView.blank

theorem writeAt_fillEmpty_put (hp : Ready .statusValue p) {y x : ℕ} (hy : y < 22)
    (hs : IsText s) (hfits : x + s.length < 80) :
    Pad.Put p (fillEmpty (writeAt p (y, x, s))) y x (padded (79 - x) s) := by
  obtain ⟨hm, hwidth, hx, -⟩ := hp.move hy (x := x) (by omega)
  have htext := (Text.refl hm).addstr hs (by rw [hx, hwidth, List.length_nil]; omega)
  rw [List.nil_append] at htext
  exact hp.put_text hy htext hfits

theorem drawStatic_filled (hp : Blank p) (hd : d.Fits texts) (hcontent : d.content ≠ .none) :
    Ready .default (d.drawStatic p) ∧
      d.form.Filled look d.base (fun f => (d.zeroCells f).map look) (d.drawStatic p) := by
  have hfilled := drawTexts_filled hp hd
  have hready := (drawTexts_spec hp.toReady hd).1
  unfold drawStatic
  rw [if_neg hcontent]
  generalize d.drawTexts p = q at hfilled hready ⊢
  have hrx := writeAt_put (w := (19, 13, "      0 B".toList)) hready (by decide)
  have hready₁ := hready.put hrx
  have htx := writeAt_put (w := (20, 13, "      0 B".toList)) hready₁ (by decide)
  have hready₂ := hready₁.put htx
  have hrxPackets := writeAt_fillEmpty_put hready₂ (y := 19) (x := 39) (s := "0 packets".toList)
    (by decide) (by decide) (by decide)
  have hready₃ := hready₂.put hrxPackets
  have htxPackets := writeAt_fillEmpty_put hready₃ (y := 20) (x := 39) (s := "0 packets".toList)
    (by decide) (by decide) (by decide)
  have hready₄ := hready₃.put htxPackets
  refine ⟨hready₄.attroff, ?_⟩
  have hall := (((hfilled.put (f := .bytes .rx) hrx rfl).put (f := .bytes .tx) htx rfl).put
    (f := .packets .rx) hrxPackets rfl).put (f := .packets .tx) htxPackets rfl
  refine Form.Filled.of_cells (hall.congr fun f => ?_)
    (Pad.cells_attroff hready₄.plain hready₄.attr)
  rcases f with _ | s | s | s | s | r | r | r <;> (try cases r) <;>
    simp [zeroCells, look_blank, Function.update]

end Drawing

end DialogConnectionDetails

end Conntop
