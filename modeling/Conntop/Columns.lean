import Conntop.Inet
import Conntop.Lib.Pad
import Conntop.ScreenGeometry

/-!
# The columns of the list

The dialog has a configuration of all columns. ENTER applies it, ESC and F2 take back what was
changed since then.

* `buildColumns` is the loop of `applyConfig`. The first column of each direction gets the label.
* The pad of the dialog has one row for each column. A key draws the rows again that it changes.
* `Valid` is the invariant.

Main result: `run_valid`. In every run the columns are those of the configuration that was applied
last, no column is too narrow, and the dialog shows its configuration.
-/

namespace Conntop

/-- `ColorSystem::EAttr`. -/
inductive Attr
  | default | importantRed | importantGreen
  | functionKeyBarLabel | functionKeyBarName
  | statusLabel | statusValue | listHeader | selectedRow
  | unresolved | unresolvedSelected | traffic | trafficSelected
  | protoUDP | protoUDPSelected | protoTCP | protoTCPSelected
  | countryCode | countryCodeSelected
  deriving DecidableEq, Repr

instance : Inhabited Attr := ⟨.default⟩

/-! ## Columns -/

inductive ConnectionColumn.EType
  | proto | protoState
  | srcAddress | srcPort | srcCountry | srcASN | srcASNOrgName
  | dstAddress | dstPort | dstCountry | dstASN | dstASNOrgName
  | rxPackets | rxBytes | rxSpeed | txPackets | txBytes | txSpeed
  deriving DecidableEq, Repr

structure ConnectionColumn where
  type : ConnectionColumn.EType
  width : ℕ
  hasLabel : Bool := true
  deriving DecidableEq, Repr

namespace ConnectionColumn

def getDefaultWidth : EType → ℕ
  | .proto => 6
  | .protoState => 12
  | .srcAddress => 40
  | .srcPort => 6
  | .srcCountry => 2
  | .srcASN => 12
  | .srcASNOrgName => 20
  | .dstAddress => 40
  | .dstPort => 6
  | .dstCountry => 2
  | .dstASN => 12
  | .dstASNOrgName => 20
  | .rxPackets => 6
  | .rxBytes => 9
  | .rxSpeed => 11
  | .txPackets => 6
  | .txBytes => 9
  | .txSpeed => 11

/-- `GetLabel`. -/
def label : EType → String
  | .proto => "PROTO"
  | .protoState => "STATE"
  | .srcAddress => "SOURCE"
  | .dstAddress => "DESTINATION"
  | .rxPackets | .rxBytes | .rxSpeed => "DOWN"
  | .txPackets | .txBytes | .txSpeed => "UP"
  | _ => ""

def getLabel (c : ConnectionColumn) : String := if c.hasLabel then label c.type else ""

def getName : EType → String
  | .proto => "Connection protocol"
  | .protoState => "Connection protocol state"
  | .srcAddress => "Source address"
  | .srcPort => "Source port"
  | .srcCountry => "Source country"
  | .srcASN => "Source AS number"
  | .srcASNOrgName => "Source AS organization name"
  | .dstAddress => "Destination address"
  | .dstPort => "Destination port"
  | .dstCountry => "Destination country"
  | .dstASN => "Destination AS number"
  | .dstASNOrgName => "Destination AS organization name"
  | .rxPackets => "Number of received packets"
  | .rxBytes => "Number of received bytes"
  | .rxSpeed => "Current receive speed"
  | .txPackets => "Number of sent packets"
  | .txBytes => "Number of sent bytes"
  | .txSpeed => "Current receive speed"

end ConnectionColumn

structure ColumnConfig where
  type : ConnectionColumn.EType
  width : ℕ
  isEnabled : Bool
  deriving DecidableEq, Repr

def ColumnConfig.new (type : ConnectionColumn.EType) (isEnabled : Bool) : ColumnConfig :=
  ⟨type, ConnectionColumn.getDefaultWidth type, isEnabled⟩

/-! ## Configurations -/

namespace DialogConnectionColumns

/-- The default configuration. -/
def defaultConfig : List ColumnConfig :=
  [.new .proto true, .new .protoState false, .new .srcAddress true, .new .srcPort true,
    .new .srcCountry true, .new .srcASN false, .new .srcASNOrgName false, .new .dstAddress true,
    .new .dstPort true, .new .dstCountry true, .new .dstASN false, .new .dstASNOrgName false,
    .new .rxPackets false, .new .rxBytes false, .new .rxSpeed true, .new .txPackets false,
    .new .txBytes false, .new .txSpeed true]

/-- The loop of `applyConfig`. -/
def buildColumns (hasLabelDown hasLabelUp : Bool) : List ColumnConfig → List ConnectionColumn
  | [] => []
  | config :: configs =>
    if config.isEnabled then
      match config.type with
      | .rxPackets | .rxBytes | .rxSpeed =>
        ⟨config.type, config.width, !hasLabelDown⟩ :: buildColumns true hasLabelUp configs
      | .txPackets | .txBytes | .txSpeed =>
        ⟨config.type, config.width, !hasLabelUp⟩ :: buildColumns hasLabelDown true configs
      | _ => ⟨config.type, config.width, true⟩ :: buildColumns hasLabelDown hasLabelUp configs
    else buildColumns hasLabelDown hasLabelUp configs

def getColumnsTotalWidth (columns : List ConnectionColumn) : ℕ :=
  (columns.map fun c => c.width + 1).sum - 1

/-- The text of an entry. -/
def entryText (config : ColumnConfig) : List Char :=
  (if config.isEnabled then " [x] - " else " [ ] - ").toList ++
    (ConnectionColumn.getName config.type).toList ++ " - ".toList ++ Nat.toDigits 10 config.width

variable {config : ColumnConfig}

def entryCells (config : ColumnConfig) (isCursor : Bool) : List (Char × Attr) :=
  let attr : Attr := if isCursor then .selectedRow else .default
  (entryText config).map (fun c => (c, attr)) ++
    List.replicate (48 - (entryText config).length) (' ', attr)

theorem length_getName_le (type : ConnectionColumn.EType) :
    (ConnectionColumn.getName type).toList.length ≤ 33 := by
  cases type <;> decide

theorem length_toDigits_le : ∀ n < 100, (Nat.toDigits 10 n).length ≤ 2 := by decide

theorem length_entryText_le (h : config.width ≤ 99) : (entryText config).length ≤ 45 := by
  have hname := length_getName_le config.type
  have hwidth := length_toDigits_le config.width (Nat.lt_succ_of_le h)
  have hmark : (if config.isEnabled then " [x] - " else " [ ] - ").toList.length = 7 := by
    cases config.isEnabled <;> rfl
  have hdash : " - ".toList.length = 3 := rfl
  unfold entryText
  rw [List.length_append, List.length_append, List.length_append, hmark, hdash]
  omega

theorem isText_entryText (config : ColumnConfig) : IsText (entryText config) := by
  have hmark : IsText (if config.isEnabled then " [x] - " else " [ ] - ").toList := by
    cases config.isEnabled <;> decide
  have hname : IsText (ConnectionColumn.getName config.type).toList := by
    cases config.type <;> decide
  have hdash : IsText " - ".toList := by decide
  exact ((hmark.append hname).append hdash).append (isText_toDigits _)

/-- The width of a configuration can be shown, and its column drawn. -/
def WidthFits (config : ColumnConfig) : Prop := 2 ≤ config.width ∧ config.width ≤ 99

theorem length_of_types {configs : List ColumnConfig}
    (h : configs.map ColumnConfig.type = defaultConfig.map ColumnConfig.type) :
    configs.length = 18 := by
  have hlength := congrArg List.length h
  rwa [List.length_map, List.length_map] at hlength

/-- The columns of a configuration, without their labels. -/
theorem buildColumns_map (hasLabelDown hasLabelUp : Bool) (configs : List ColumnConfig) :
    (buildColumns hasLabelDown hasLabelUp configs).map (fun c => (c.type, c.width)) =
      (configs.filter ColumnConfig.isEnabled).map fun c => (c.type, c.width) := by
  induction configs generalizing hasLabelDown hasLabelUp with
  | nil => rfl
  | cons config configs ih =>
    unfold buildColumns
    split_ifs with henabled
    · rw [List.filter_cons_of_pos henabled, List.map_cons]
      split <;> rw [List.map_cons, ih]
    · rw [List.filter_cons_of_neg henabled, ih]

/-- Whether a column gets its label, and what is left for the others. -/
theorem buildColumns_cons (hasLabelDown hasLabelUp : Bool) (type : ConnectionColumn.EType)
    (width : ℕ) (configs : List ColumnConfig) :
    ∃ hasLabel,
      buildColumns hasLabelDown hasLabelUp (⟨type, width, true⟩ :: configs) =
        ⟨type, width, hasLabel⟩ ::
          buildColumns (hasLabelDown || ConnectionColumn.label type == "DOWN")
            (hasLabelUp || ConnectionColumn.label type == "UP") configs ∧
      (hasLabelDown = true → ConnectionColumn.label type = "DOWN" → hasLabel = false) ∧
      (hasLabelUp = true → ConnectionColumn.label type = "UP" → hasLabel = false) := by
  refine ⟨if ConnectionColumn.label type = "DOWN" then !hasLabelDown
    else if ConnectionColumn.label type = "UP" then !hasLabelUp else true, ?_, ?_, ?_⟩
  · cases type <;> simp [buildColumns, ConnectionColumn.label]
  · intro hdown hlabel
    rw [if_pos hlabel, hdown]
    rfl
  · intro hup hlabel
    rw [hlabel, if_neg (by decide), if_pos rfl, hup]
    rfl

/-- The label is only once in a direction, and not if it was there already. -/
theorem count_label (hasLabelDown hasLabelUp : Bool) (configs : List ColumnConfig) :
    ((buildColumns hasLabelDown hasLabelUp configs).map ConnectionColumn.getLabel).count "DOWN" ≤
        (if hasLabelDown then 0 else 1) ∧
      ((buildColumns hasLabelDown hasLabelUp configs).map ConnectionColumn.getLabel).count "UP" ≤
        if hasLabelUp then 0 else 1 := by
  induction configs generalizing hasLabelDown hasLabelUp with
  | nil => simp [buildColumns]
  | cons config configs ih =>
    obtain ⟨type, width, isEnabled⟩ := config
    cases isEnabled with
    | false => exact ih hasLabelDown hasLabelUp
    | true =>
      obtain ⟨hasLabel, heq, hdown, hup⟩ :=
        buildColumns_cons hasLabelDown hasLabelUp type width configs
      rw [heq, List.map_cons, List.count_cons, List.count_cons]
      obtain ⟨ihDown, ihUp⟩ := ih (hasLabelDown || ConnectionColumn.label type == "DOWN")
        (hasLabelUp || ConnectionColumn.label type == "UP")
      constructor
      · by_cases hlabel : ConnectionColumn.label type = "DOWN"
        · cases hasLabelDown <;> cases hasLabel <;> simp_all [ConnectionColumn.getLabel]
        · cases hasLabelDown <;> cases hasLabel <;> simp_all [ConnectionColumn.getLabel]
      · by_cases hlabel : ConnectionColumn.label type = "UP"
        · cases hasLabelUp <;> cases hasLabel <;> simp_all [ConnectionColumn.getLabel]
        · cases hasLabelUp <;> cases hasLabel <;> simp_all [ConnectionColumn.getLabel]

theorem sum_width_le (columns : List ConnectionColumn) (h : ∀ c ∈ columns, c.width ≤ 99) :
    (columns.map fun c => c.width + 1).sum ≤ 100 * columns.length := by
  induction columns with
  | nil => exact Nat.zero_le _
  | cons c columns ih =>
    have hc := h c List.mem_cons_self
    have hrest := ih fun c hc => h c (List.mem_cons_of_mem _ hc)
    rw [List.map_cons, List.sum_cons, List.length_cons]
    omega

end DialogConnectionColumns

/-! ## The dialog -/

section Dialog

variable [PadLibrary Attr]

structure DialogConnectionColumns where
  columns : List ConnectionColumn
  columnConfig : List ColumnConfig
  columnConfigOld : List ColumnConfig
  cursorPos : ℕ := 0
  isOpen : Bool := false
  pad : Pad Attr

namespace DialogConnectionColumns

variable (d : DialogConnectionColumns)

/-- `drawEntry`, for the configuration of an entry. -/
def drawConfig (p : Pad Attr) (index : ℕ) (config : ColumnConfig) (isCursor : Bool) : Pad Attr :=
  let p := p.move (index + 1) 1
  let p := if isCursor then p.attron .selectedRow else p
  let p := p.addstr (if config.isEnabled then " [x] - " else " [ ] - ").toList
  let p := p.addstr (ConnectionColumn.getName config.type).toList
  let p := p.addstr " - ".toList
  let p := p.addstr (Nat.toDigits 10 config.width)
  let p := p.fill (p.width - p.x - 1)
  if isCursor then p.attroff .selectedRow else p

def drawEntry (index : ℕ) : DialogConnectionColumns :=
  match d.columnConfig[index]? with
  | none => d
  | some config => { d with pad := drawConfig d.pad index config (d.cursorPos == index) }

/-- Without the box around. -/
def draw : DialogConnectionColumns :=
  (List.range d.columnConfig.length).foldl drawEntry d

def applyConfig : DialogConnectionColumns :=
  { d with
    columns := buildColumns false false d.columnConfig
    columnConfigOld := d.columnConfig }

def restoreConfig : DialogConnectionColumns :=
  { d with columnConfig := d.columnConfigOld }.draw

/-- The constructor. -/
def init : DialogConnectionColumns :=
  { columns := [], columnConfig := defaultConfig, columnConfigOld := defaultConfig,
    pad := .new 50 20 : DialogConnectionColumns }.applyConfig.draw

def «open» : DialogConnectionColumns := { d with isOpen := true }

def close (apply : Bool) : DialogConnectionColumns :=
  let d := { d with isOpen := false }
  if apply then d.applyConfig else d.restoreConfig

/-- How far a key moves the cursor. -/
def offset (isPage : Bool) (maxOffset : ℕ) : ℕ :=
  min (if isPage ∧ 1 < d.pad.height then d.pad.height - 1 else 1) maxOffset

def moveUp (isPage : Bool) : DialogConnectionColumns :=
  let offset := d.offset isPage d.cursorPos
  if 0 < offset then
    let d := { d with cursorPos := d.cursorPos - offset }
    (d.drawEntry (d.cursorPos + offset)).drawEntry d.cursorPos
  else d

def moveDown (isPage : Bool) : DialogConnectionColumns :=
  let offset := d.offset isPage (d.columnConfig.length - d.cursorPos - 1)
  if 0 < offset then
    let d := { d with cursorPos := d.cursorPos + offset }
    (d.drawEntry (d.cursorPos - offset)).drawEntry d.cursorPos
  else d

/-- Another configuration of the column at the cursor. -/
def modify (f : ColumnConfig → ColumnConfig) : DialogConnectionColumns :=
  { d with columnConfig := d.columnConfig.modify d.cursorPos f }.drawEntry d.cursorPos

/-- The width of the column at the cursor. -/
def width : ℕ := (d.columnConfig[d.cursorPos]?.map ColumnConfig.width).getD 0

/-- `none` if the key is for someone else. -/
def handleKey : Key → Option DialogConnectionColumns
  | .up => some (d.moveUp false)
  | .ppage => some (d.moveUp true)
  | .down => some (d.moveDown false)
  | .npage => some (d.moveDown true)
  | .left => some (if 2 < d.width then d.modify fun c => { c with width := c.width - 1 } else d)
  | .right => some (if d.width < 99 then d.modify fun c => { c with width := c.width + 1 } else d)
  | .space => some (d.modify fun c => { c with isEnabled := !c.isEnabled })
  | .enter => some (d.close true)
  | .esc => some (d.close false)
  | _ => none

/-- A key. The dialog gets it while it is open, and F2 opens and closes it. -/
def step (key : Key) : DialogConnectionColumns :=
  if d.isOpen then (d.handleKey key).getD (if key = .f 2 then d.close false else d)
  else if key = .f 2 then d.open
  else d

/-- The configuration of the dialog at the last ENTER that it gets, and `configs` if there is
none. -/
def lastApplied (configs : List ColumnConfig) (d : DialogConnectionColumns) :
    List Key → List ColumnConfig
  | [] => configs
  | key :: keys =>
    lastApplied (if d.isOpen ∧ key = .enter then d.columnConfig else configs) (d.step key) keys

variable {d} {config : ColumnConfig} {i : ℕ}

/-! ## Which columns there are -/

theorem drawEntry_columns (d : DialogConnectionColumns) (i : ℕ) :
    (d.drawEntry i).columns = d.columns ∧ (d.drawEntry i).columnConfigOld = d.columnConfigOld := by
  unfold drawEntry
  cases d.columnConfig[i]? <;> exact ⟨rfl, rfl⟩

theorem drawEntries_columns (is : List ℕ) (d : DialogConnectionColumns) :
    (is.foldl drawEntry d).columns = d.columns ∧
      (is.foldl drawEntry d).columnConfigOld = d.columnConfigOld := by
  induction is generalizing d with
  | nil => exact ⟨rfl, rfl⟩
  | cons i is ih =>
    obtain ⟨hcolumns, hold⟩ := drawEntry_columns d i
    obtain ⟨hcolumns', hold'⟩ := ih (d.drawEntry i)
    exact ⟨hcolumns'.trans hcolumns, hold'.trans hold⟩

theorem close_columns (d : DialogConnectionColumns) :
    (d.close false).columns = d.columns ∧
      (d.close false).columnConfigOld = d.columnConfigOld :=
  drawEntries_columns _ _

/-- Only ENTER changes the columns. -/
theorem columns_step {key : Key} (hkey : key ≠ .enter) :
    (d.step key).columns = d.columns ∧ (d.step key).columnConfigOld = d.columnConfigOld := by
  -- what a key draws leaves both
  have hmodify : ∀ f, (d.modify f).columns = d.columns ∧
      (d.modify f).columnConfigOld = d.columnConfigOld := fun f => drawEntry_columns _ _
  have hup : ∀ isPage, (d.moveUp isPage).columns = d.columns ∧
      (d.moveUp isPage).columnConfigOld = d.columnConfigOld := by
    intro isPage
    unfold moveUp
    dsimp only
    split_ifs
    · exact drawEntries_columns [_, _] _
    · exact ⟨rfl, rfl⟩
  have hdown : ∀ isPage, (d.moveDown isPage).columns = d.columns ∧
      (d.moveDown isPage).columnConfigOld = d.columnConfigOld := by
    intro isPage
    unfold moveDown
    dsimp only
    split_ifs
    · exact drawEntries_columns [_, _] _
    · exact ⟨rfl, rfl⟩
  unfold step
  by_cases hopen : d.isOpen
  · rw [if_pos hopen]
    cases key with
    | up => exact hup false
    | ppage => exact hup true
    | down => exact hdown false
    | npage => exact hdown true
    | left =>
      rw [handleKey, Option.getD_some]
      split_ifs
      · exact hmodify _
      · exact ⟨rfl, rfl⟩
    | right =>
      rw [handleKey, Option.getD_some]
      split_ifs
      · exact hmodify _
      · exact ⟨rfl, rfl⟩
    | space => exact hmodify _
    | enter => exact absurd rfl hkey
    -- a configuration that is given up is put back
    | esc => exact close_columns d
    | f n =>
      have hnone : d.handleKey (.f n) = none := rfl
      rw [hnone, Option.getD_none]
      split_ifs
      · exact close_columns d
      · exact ⟨rfl, rfl⟩
    | other ch => exact ⟨rfl, rfl⟩
  · rw [if_neg hopen]
    split_ifs <;> exact ⟨rfl, rfl⟩

/-- Only ENTER in an open dialog applies a configuration. -/
theorem columnConfigOld_step (d : DialogConnectionColumns) (key : Key) :
    (d.step key).columnConfigOld =
      if d.isOpen ∧ key = .enter then d.columnConfig else d.columnConfigOld := by
  by_cases hkey : key = .enter
  · subst hkey
    have hf2 : Key.enter ≠ .f 2 := by decide
    unfold step
    by_cases hopen : d.isOpen = true
    · simp only [hopen, true_and, if_true]
      rfl
    · rw [if_neg hopen, if_neg hf2, if_neg fun h => hopen h.1]
  · rw [(columns_step hkey).2, if_neg fun h => hkey h.2]

theorem columnConfigOld_run (keys : List Key) (d : DialogConnectionColumns) :
    (keys.foldl step d).columnConfigOld = lastApplied d.columnConfigOld d keys := by
  induction keys generalizing d with
  | nil => rfl
  | cons key keys ih => rw [List.foldl_cons, ih, columnConfigOld_step, lastApplied]

theorem columns_run (keys : List Key) (hkeys : ∀ key ∈ keys, key ≠ .enter)
    (d : DialogConnectionColumns) :
    (keys.foldl step d).columns = d.columns ∧
      (keys.foldl step d).columnConfigOld = d.columnConfigOld := by
  induction keys generalizing d with
  | nil => exact ⟨rfl, rfl⟩
  | cons key keys ih =>
    obtain ⟨hcolumns, hold⟩ := columns_step (d := d) (hkeys key List.mem_cons_self)
    obtain ⟨hcolumns', hold'⟩ := ih (fun key h => hkeys key (List.mem_cons_of_mem _ h)) (d.step key)
    exact ⟨hcolumns'.trans hcolumns, hold'.trans hold⟩

/-! ## What the dialog shows -/

/-- The pad of the dialog between two keys. -/
structure IsReady (p : Pad Attr) : Prop where
  width : p.width = 50
  height : p.height = 20
  attr : p.attr = default
  plain : p.IsPlain

section Drawing

variable [LawfulPadLibrary Attr]

/-- The parts of an entry make one string, and blanks are behind it. -/
theorem wrote_entry (config : ColumnConfig) {q : Pad Attr} (hq : q.IsPlain) (hx : q.x = 1)
    (hw : q.width = 50) (hwidth : config.width ≤ 99) :
    let r := (((q.addstr (if config.isEnabled then " [x] - " else " [ ] - ").toList).addstr
      (ConnectionColumn.getName config.type).toList).addstr " - ".toList).addstr
      (Nat.toDigits 10 config.width)
    q.Wrote (r.fill (r.width - r.x - 1)) ((entryText config).map (fun c => (c, q.attr)) ++
      List.replicate (48 - (entryText config).length) (' ', q.attr)) := by
  intro r
  have hlength := length_entryText_le hwidth
  have htext := isText_entryText config
  have hr : q.Wrote r ((entryText config).map fun c => (c, q.attr)) := by
    unfold entryText at hlength htext ⊢
    simp only [List.length_append] at hlength
    simp only [isText_append] at htext
    obtain ⟨⟨⟨hmark, hname⟩, hdash⟩, hdigits⟩ := htext
    simp only [List.map_append]
    have hfirst := Pad.wrote_addstr hq hmark (by omega)
    refine ((hfirst.addstr hname ?_).addstr hdash ?_).addstr hdigits ?_ <;>
    · simp only [List.length_append, List.length_map]
      omega
  obtain ⟨-, hrx⟩ := hr.pos (by rw [List.length_map]; omega)
  rw [List.length_map] at hrx
  have hspace : r.width - r.x - 1 = 48 - (entryText config).length := by
    rw [hrx, hr.width]
    omega
  rw [hspace]
  exact hr.fill _ (by rw [List.length_map]; omega)

theorem drawConfig_spec {p : Pad Attr} (hp : IsReady p) (hi : i < 18) (hwidth : config.width ≤ 99)
    (isCursor : Bool) :
    IsReady (drawConfig p i config isCursor) ∧
      p.Put (drawConfig p i config isCursor) (i + 1) 1 (entryCells config isCursor) := by
  have hy : i + 1 < p.height := by rw [hp.height]; omega
  have hx : 1 < p.width := by rw [hp.width]; omega
  have hm := hp.plain.move (i + 1) 1
  have hmx := Pad.x_move hp.plain hy hx
  have hmw := (Pad.width_move hp.plain (i + 1) 1).trans hp.width
  have hattr := (Pad.attr_move hp.plain (i + 1) 1).trans hp.attr
  have hwrote : Pad.Wrote (p.move (i + 1) 1) (drawConfig p i config isCursor)
      (entryCells config isCursor) := by
    unfold drawConfig entryCells
    refine .of_attron_ite hm hattr ?_
    cases isCursor with
    | false =>
      have hentry := wrote_entry config hm hmx hmw hwidth
      rwa [hattr] at hentry
    | true =>
      have hentry := wrote_entry config (hm.attron Attr.selectedRow hattr)
        ((Pad.x_attron hm hattr).trans hmx) ((Pad.width_attron hm hattr).trans hmw) hwidth
      rwa [Pad.attr_attron hm hattr] at hentry
  have hput := hwrote.put hp.plain hy hx
  exact ⟨⟨hput.keeps.width.trans hp.width, hput.keeps.height.trans hp.height,
    hput.keeps.attr.trans hp.attr, hput.keeps.plain⟩, hput⟩

end Drawing

/-! ## The invariant -/

/-- An entry is drawn as it is. -/
def DrawnAt (d : DialogConnectionColumns) (i : ℕ) : Prop :=
  ∀ config, d.columnConfig[i]? = some config →
    d.pad.Shows (i + 1) 1 (entryCells config (d.cursorPos == i))

structure Settled (d : DialogConnectionColumns) : Prop where
  types : d.columnConfig.map ColumnConfig.type = defaultConfig.map ColumnConfig.type
  oldTypes : d.columnConfigOld.map ColumnConfig.type = defaultConfig.map ColumnConfig.type
  fits : ∀ config ∈ d.columnConfig, WidthFits config
  oldFits : ∀ config ∈ d.columnConfigOld, WidthFits config
  cursor : d.cursorPos < 18
  columns : d.columns = buildColumns false false d.columnConfigOld
  closed : d.isOpen = false → d.columnConfig = d.columnConfigOld
  ready : IsReady d.pad

structure Valid (d : DialogConnectionColumns) : Prop extends Settled d where
  drawn : ∀ i, d.DrawnAt i

theorem Valid.widths (h : d.Valid) : ∀ c ∈ d.columns, 2 ≤ c.width ∧ c.width ≤ 99 := by
  intro c hc
  rw [h.columns] at hc
  have hmem := List.mem_map_of_mem (f := fun c : ConnectionColumn => (c.type, c.width)) hc
  rw [buildColumns_map] at hmem
  obtain ⟨config, hconfig, heq⟩ := List.mem_map.mp hmem
  have hwidth : config.width = c.width := congrArg Prod.snd heq
  have hfits := h.oldFits config (List.mem_of_mem_filter hconfig)
  rwa [WidthFits, hwidth] at hfits

theorem Valid.totalWidth_le (h : d.Valid) : getColumnsTotalWidth d.columns ≤ 1799 := by
  have hlength : d.columns.length ≤ 18 := by
    rw [← length_of_types h.oldTypes, ← List.length_map (f := fun c : ConnectionColumn =>
      (c.type, c.width)), h.columns, buildColumns_map, List.length_map]
    exact List.length_filter_le _ _
  have hsum := sum_width_le d.columns fun c hc => (h.widths c hc).2
  unfold getColumnsTotalWidth
  omega

variable [LawfulPadLibrary Attr]

/-- An entry is drawn again, the others stay. -/
theorem Settled.drawEntry (h : d.Settled) (i : ℕ) :
    (d.drawEntry i).Settled ∧ ∀ j, j = i ∨ d.DrawnAt j → (d.drawEntry i).DrawnAt j := by
  unfold DialogConnectionColumns.drawEntry
  cases hi : d.columnConfig[i]? with
  | none =>
    refine ⟨h, fun j hj => ?_⟩
    rcases hj with rfl | hj
    · intro config hconfig
      rw [hi] at hconfig
      cases hconfig
    · exact hj
  | some config =>
    obtain ⟨hlt, hget⟩ := List.getElem?_eq_some_iff.mp hi
    rw [length_of_types h.types] at hlt
    have hwidth := (h.fits config (hget ▸ List.getElem_mem _)).2
    obtain ⟨hready, hput⟩ := drawConfig_spec h.ready hlt hwidth (d.cursorPos == i)
    refine ⟨{ h with ready := hready }, fun j hj config' hconfig' => ?_⟩
    by_cases hji : j = i
    · subst hji
      have heq : config' = config := Option.some.inj (hconfig'.symm.trans hi)
      rw [heq]
      exact hput.shows
    · have hrow : j + 1 ≠ i + 1 := fun h => hji (Nat.succ.inj h)
      exact hput.shows_of_ne hrow (hj.resolve_left hji config' hconfig')

theorem Settled.drawEntries (h : d.Settled) (is : List ℕ) :
    (is.foldl DialogConnectionColumns.drawEntry d).Settled ∧ ∀ j, j ∈ is ∨ d.DrawnAt j →
      (is.foldl DialogConnectionColumns.drawEntry d).DrawnAt j := by
  induction is generalizing d with
  | nil => exact ⟨h, fun j hj => hj.resolve_left List.not_mem_nil⟩
  | cons i is ih =>
    obtain ⟨hi, hdrawn⟩ := h.drawEntry i
    obtain ⟨his, hdrawn'⟩ := ih hi
    refine ⟨his, fun j hj => hdrawn' j ?_⟩
    rw [List.mem_cons, or_assoc, or_left_comm] at hj
    exact hj.imp_right (hdrawn j)

theorem Settled.draw (h : d.Settled) : d.draw.Valid := by
  obtain ⟨hall, hdrawn⟩ := h.drawEntries (List.range d.columnConfig.length)
  refine { hall with drawn := fun j => ?_ }
  by_cases hj : j < d.columnConfig.length
  · exact hdrawn j (.inl (List.mem_range.mpr hj))
  · refine hdrawn j (.inr fun config hconfig => ?_)
    exact absurd (List.getElem?_eq_some_iff.mp hconfig).1 hj

theorem init_valid : init.Valid := by
  have hwidth : 0 < 50 := by decide
  have hheight : 0 < 20 := by decide
  refine Settled.draw ⟨rfl, rfl, ?_, ?_, Nat.zero_lt_succ _, rfl, fun _ => rfl,
    ⟨Pad.width_new hwidth hheight, Pad.height_new hwidth hheight, Pad.attr_new hwidth hheight,
      .new hwidth hheight⟩⟩ <;>
  · intro config hconfig
    have hall : ∀ config ∈ defaultConfig, 2 ≤ config.width ∧ config.width ≤ 99 := by decide
    exact hall config hconfig

/-- The cursor moves. -/
theorem Valid.setCursor (h : d.Valid) {pos : ℕ} (hpos : pos < 18) :
    (({ d with cursorPos := pos }.drawEntry d.cursorPos).drawEntry pos).Valid := by
  have hset : Settled { d with cursorPos := pos } := { h.toSettled with cursor := hpos }
  obtain ⟨hfirst, hdrawn⟩ := hset.drawEntry d.cursorPos
  obtain ⟨hsecond, hdrawn'⟩ := hfirst.drawEntry pos
  refine { hsecond with drawn := fun j => hdrawn' j ?_ }
  by_cases hj : j = pos
  · exact .inl hj
  · refine .inr (hdrawn j ?_)
    by_cases hj' : j = d.cursorPos
    · exact .inl hj'
    · refine .inr fun config hconfig => ?_
      have hold := h.drawn j config hconfig
      rw [beq_false_of_ne (Ne.symm hj')] at hold
      rwa [beq_false_of_ne (Ne.symm hj)]

theorem Valid.moveUp (h : d.Valid) (isPage : Bool) : (d.moveUp isPage).Valid := by
  unfold DialogConnectionColumns.moveUp
  have hle : d.offset isPage d.cursorPos ≤ d.cursorPos := Nat.min_le_right _ _
  dsimp only
  split_ifs
  · rw [Nat.sub_add_cancel hle]
    exact h.setCursor (Nat.lt_of_le_of_lt (Nat.sub_le _ _) h.cursor)
  · exact h

theorem Valid.moveDown (h : d.Valid) (isPage : Bool) : (d.moveDown isPage).Valid := by
  have hlength := length_of_types h.types
  have hle : d.offset isPage (d.columnConfig.length - d.cursorPos - 1) ≤
      d.columnConfig.length - d.cursorPos - 1 := Nat.min_le_right _ _
  have hcursor := h.cursor
  unfold DialogConnectionColumns.moveDown
  dsimp only
  split_ifs
  · rw [Nat.add_sub_cancel]
    exact h.setCursor (by omega)
  · exact h

/-- The configuration at the cursor changes. -/
theorem Valid.modify (h : d.Valid) (hopen : d.isOpen = true) {f : ColumnConfig → ColumnConfig}
    (htype : ∀ config, (f config).type = config.type)
    (hfits : ∀ config, d.columnConfig[d.cursorPos]? = some config →
      WidthFits config → WidthFits (f config)) : (d.modify f).Valid := by
  have hset : Settled { d with columnConfig := d.columnConfig.modify d.cursorPos f } := by
    refine { h.toSettled with types := ?_, fits := ?_, closed := ?_ }
    · rw [← h.types]
      refine List.ext_getElem? fun j => ?_
      simp only [List.getElem?_map, List.getElem?_modify]
      cases d.columnConfig[j]? with
      | none => simp
      | some config =>
        simp only [Option.map_some]
        split_ifs
        · simp [htype]
        · simp
    · intro config hconfig
      obtain ⟨j, hj⟩ := List.mem_iff_getElem?.mp hconfig
      rw [List.getElem?_modify] at hj
      cases hold : d.columnConfig[j]? with
      | none => simp [hold] at hj
      | some config' =>
        have hfits' := h.fits config' (List.mem_of_getElem? hold)
        rw [hold] at hj
        by_cases hcursor : d.cursorPos = j
        · subst hcursor
          simp only [Option.map_eq_map, Option.map_some, if_true, Option.some.injEq] at hj
          exact hj ▸ hfits config' hold hfits'
        · simp only [Option.map_eq_map, Option.map_some, if_neg hcursor,
            Option.some.injEq] at hj
          exact hj ▸ hfits'
    · intro hclosed
      rw [hopen] at hclosed
      cases hclosed
  obtain ⟨hentry, hdrawn⟩ := hset.drawEntry d.cursorPos
  refine { hentry with drawn := fun j => hdrawn j ?_ }
  by_cases hj : j = d.cursorPos
  · exact .inl hj
  · refine .inr fun config hconfig => h.drawn j config ?_
    exact (List.getElem?_modify_ne f d.columnConfig (Ne.symm hj)).symm.trans hconfig

theorem Valid.close (h : d.Valid) (apply : Bool) : (d.close apply).Valid := by
  cases apply with
  | false =>
    refine Settled.draw { h.toSettled with types := h.oldTypes, fits := h.oldFits, closed := ?_ }
    exact fun _ => rfl
  | true =>
    exact { h with oldTypes := h.types, oldFits := h.fits, columns := rfl, closed := fun _ => rfl }

theorem Valid.handleKey (h : d.Valid) (hopen : d.isOpen = true) {key : Key}
    {d' : DialogConnectionColumns} (hkey : d.handleKey key = some d') : d'.Valid := by
  have hwidth : ∀ config, d.columnConfig[d.cursorPos]? = some config → d.width = config.width := by
    intro config hconfig
    rw [width, hconfig]
    rfl
  cases key with
  | up => cases hkey; exact h.moveUp false
  | ppage => cases hkey; exact h.moveUp true
  | down => cases hkey; exact h.moveDown false
  | npage => cases hkey; exact h.moveDown true
  | left =>
    obtain rfl := Option.some.inj hkey
    split_ifs with hlt
    · refine h.modify hopen (fun _ => rfl) fun config hconfig hfits => ?_
      rw [hwidth config hconfig] at hlt
      exact ⟨Nat.le_sub_one_of_lt hlt, (Nat.sub_le _ _).trans hfits.2⟩
    · exact h
  | right =>
    obtain rfl := Option.some.inj hkey
    split_ifs with hlt
    · refine h.modify hopen (fun _ => rfl) fun config hconfig hfits => ?_
      rw [hwidth config hconfig] at hlt
      exact ⟨hfits.1.trans (Nat.le_succ _), hlt⟩
    · exact h
  | space => cases hkey; exact h.modify hopen (fun _ => rfl) fun _ _ hfits => hfits
  | enter => cases hkey; exact h.close true
  | esc => cases hkey; exact h.close false
  | f n => cases hkey
  | other ch => cases hkey

theorem Valid.step (h : d.Valid) (key : Key) : (d.step key).Valid := by
  unfold DialogConnectionColumns.step
  by_cases hopen : d.isOpen
  · rw [if_pos hopen]
    cases hd : d.handleKey key with
    | some d' => exact h.handleKey hopen hd
    | none =>
      rw [Option.getD_none]
      split_ifs
      · exact h.close false
      · exact h
  · rw [if_neg hopen]
    split_ifs
    · exact { h with closed := fun hclosed => by cases hclosed }
    · exact h

theorem run_inv (keys : List Key) (h : d.Valid) : (keys.foldl step d).Valid :=
  GuardedRun.foldl_inv (I := Valid) (fun _ key h => h.step key) keys d h

/-- **The columns are those that were applied.** In every run they are the enabled ones of the
configuration of the last ENTER, in the one order of all columns, wide enough to be drawn and
with at most one label for each direction. A closed dialog has that configuration again, and what
the dialog shows is its own one. -/
theorem run_valid (keys keys' : List Key) :
    let d := keys.foldl step init
    d.columnConfigOld = lastApplied defaultConfig init keys ∧
    d.columns.map (fun c => (c.type, c.width)) =
      (d.columnConfigOld.filter ColumnConfig.isEnabled).map (fun c => (c.type, c.width)) ∧
    d.columnConfigOld.map ColumnConfig.type = defaultConfig.map ColumnConfig.type ∧
    (∀ c ∈ d.columns, 2 ≤ c.width ∧ c.width ≤ 99) ∧ getColumnsTotalWidth d.columns ≤ 1799 ∧
    (d.columns.map ConnectionColumn.getLabel).count "DOWN" ≤ 1 ∧
    (d.columns.map ConnectionColumn.getLabel).count "UP" ≤ 1 ∧
    d.cursorPos < 18 ∧ (d.isOpen = false → d.columnConfig = d.columnConfigOld) ∧
    (∀ i, d.DrawnAt i) ∧
    ((∀ key ∈ keys', key ≠ .enter) → (keys'.foldl step d).columns = d.columns ∧
      ((keys'.foldl step d).isOpen = false →
        (keys'.foldl step d).columnConfig = d.columnConfigOld)) := by
  intro d
  have h : d.Valid := run_inv keys init_valid
  have h' : (keys'.foldl step d).Valid := run_inv keys' h
  obtain ⟨hdown, hup⟩ := count_label false false d.columnConfigOld
  rw [← h.columns] at hdown hup
  have happlied : init.columnConfigOld = defaultConfig := (drawEntries_columns _ _).2
  refine ⟨happlied ▸ columnConfigOld_run keys init, by rw [h.columns, buildColumns_map],
    h.oldTypes, h.widths, h.totalWidth_le, hdown, hup, h.cursor, h.closed, h.drawn,
    fun hkeys => ?_⟩
  obtain ⟨hcolumns, hold⟩ := columns_run keys' hkeys d
  exact ⟨hcolumns, fun hclosed => (h'.closed hclosed).trans hold⟩

end DialogConnectionColumns

end Dialog

namespace DialogConnectionColumns

/-- A width is applied, and a change after it is not. -/
def appliedKeys : List Key := [.f 2, .right, .enter, .f 2, .space]

theorem run_valid_applied :
    letI := PadView.library Attr
    let d := appliedKeys.foldl step init
    (d.columns.map fun c => (c.type, c.width)).head? = some (.proto, 7) ∧ d.DrawnAt 0 := by
  let := PadView.library Attr
  have := PadView.library_lawful Attr
  obtain ⟨happlied, hcolumns, -, -, -, -, -, -, -, hdrawn, -⟩ := run_valid appliedKeys []
  refine ⟨?_, hdrawn 0⟩
  rw [hcolumns, happlied]
  decide +kernel

end DialogConnectionColumns

end Conntop
