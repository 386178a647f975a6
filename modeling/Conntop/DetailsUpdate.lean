import Conntop.Details

/-!
# Updates of the dialog with the details

`Drawn` says that the pad looks as the members say. An update draws only what changed, and this is
enough: the members that it leaves alone have the same cells.

* `member` and `value`: what the dialog and the connection have for a column.
* `Takes` is one comparison of an update, `Took` all of them.

Main results: `open_drawn`, `update_drawn` and `close_closed`, what the dialog is after each of its
functions.
-/

namespace Conntop

namespace DialogConnectionDetails

/-! ## What a connection has -/

/-- The members for a column. -/
inductive Member
  | none
  | state (name : List Char)
  | address (hostname : List Char) (country : ECode) (asn : ASN)
  | port (service : List Char)
  | count (n : UInt64)

/-- Systems are compared by their numbers. -/
def Member.seen : Member → Member
  | address hostname country asn => address hostname country { number := asn.number }
  | m => m

def sideAddress (m : DetailsSide) : Member := .address m.hostname m.country m.asn

def addressValue (data : AddressData) : Member :=
  .address (utf8 data.hostname) data.country data.asn

/-- What the connection has. -/
def value (st : ConnectionStorage) (c : Connection) : Column → Member
  | .proto => .none
  | .protoState => .state (stateText st c)
  | .srcAddress => addressValue (st.addressData c.srcAddr)
  | .dstAddress => addressValue (st.addressData c.dstAddr)
  | .srcPort => .port (utf8 (st.portData c.srcPort).service)
  | .dstPort => .port (utf8 (st.portData c.dstPort).service)
  | .rxPackets => .count (st.connectionData c).traffic.rxPackets
  | .txPackets => .count (st.connectionData c).traffic.txPackets
  | .rxBytes => .count (st.connectionData c).traffic.rxBytes
  | .txBytes => .count (st.connectionData c).traffic.txBytes
  | .rxSpeed => .count (st.connectionData c).traffic.rxSpeed
  | .txSpeed => .count (st.connectionData c).traffic.txSpeed

def addrOf (c : Connection) : Side → Address
  | .src => c.srcAddr
  | .dst => c.dstAddr

def portOf (c : Connection) : Side → Port
  | .src => c.srcPort
  | .dst => c.dstPort

theorem value_portColumn (st : ConnectionStorage) (c : Connection) (s : Side) :
    value st c (portColumn s) = .port (utf8 (st.portData (portOf c s)).service) := by
  cases s <;> rfl

theorem flag_ne_zero (col : Column) : Flags.test col.flag col.flag = true := by
  cases col <;> decide

theorem mem_columns {col : Column} (hcol : col ≠ .proto) : col ∈ columns := by
  cases col <;> first | exact absurd rfl hcol | decide

theorem length_typeToString (t : EConnectionType) :
    (Connection.typeToString t).toList.length = 4 := by
  cases t <;> rfl

theorem length_stateText (st : ConnectionStorage) (c : Connection) :
    (stateText st c).length ≤ 12 := by
  unfold stateText
  generalize (st.connectionData c).state = state
  cases c.getType.portType with
  | udp =>
    dsimp only [EPortType.stateToString, UDP.stateToString]
    split <;> decide
  | tcp =>
    dsimp only [EPortType.stateToString, TCP.stateToString]
    split <;> decide

theorem isText_toText (port : Port) : IsText port.toText := by
  have htype : IsText (EPortType.getTypeName port.type).toList := by
    cases port.type <;> decide
  exact htype.append (isText_cons.mpr ⟨Pad.isPrintable_blank, isText_toDigits _⟩)

theorem length_toText (port : Port) : port.toText.length ≤ 9 := by
  have hdigits : (Nat.toDigits 10 port.number.toNat).length ≤ 5 :=
    (Nat.length_toDigits_le_iff (by decide) (by decide)).mpr
      (port.number.isLt.trans (by decide))
  have htype : (EPortType.getTypeName port.type).toList.length = 3 := by
    cases port.type <;> rfl
  unfold Port.toText
  rw [List.length_append, List.length_cons, htype]
  omega

variable [PadLibrary Attr] {texts : DetailTexts} {d d' : DialogConnectionDetails} {p q : Pad Attr}
  {s t : List Char}
  {f : Field}

/-! ## What an update takes over -/

def member (d : DialogConnectionDetails) : Column → Member
  | .proto => .none
  | .protoState => .state d.stateName
  | .srcAddress => sideAddress d.src
  | .dstAddress => sideAddress d.dst
  | .srcPort => .port d.src.service
  | .dstPort => .port d.dst.service
  | .rxPackets => .count d.traffic.rxPackets
  | .txPackets => .count d.traffic.txPackets
  | .rxBytes => .count d.traffic.rxBytes
  | .txBytes => .count d.traffic.txBytes
  | .rxSpeed => .count d.traffic.rxSpeed
  | .txSpeed => .count d.traffic.txSpeed

/-- What an update leaves as it is. -/
structure Static (d d' : DialogConnectionDetails) : Prop where
  content : d'.content = d.content
  hasPorts : d'.hasPorts = d.hasPorts
  typeName : d'.typeName = d.typeName
  address : ∀ s, (d'.side s).address = (d.side s).address
  port : ∀ s, (d'.side s).port = (d.side s).port
  isOpen : d'.isOpen = d.isOpen
  pad : d'.pad = d.pad

theorem Static.refl (d : DialogConnectionDetails) : Static d d :=
  ⟨rfl, rfl, rfl, fun _ => rfl, fun _ => rfl, rfl, rfl⟩

theorem Static.trans {d d' d'' : DialogConnectionDetails} (h : Static d d') (h' : Static d' d'') :
    Static d d'' where
  content := h'.content.trans h.content
  hasPorts := h'.hasPorts.trans h.hasPorts
  typeName := h'.typeName.trans h.typeName
  address s := (h'.address s).trans (h.address s)
  port s := (h'.port s).trans (h.port s)
  isOpen := h'.isOpen.trans h.isOpen
  pad := h'.pad.trans h.pad

/-- A step of `refreshAll` for a column. -/
structure Takes (updateFlags : Flags) (col : Column) (v : Member)
    (x x' : DialogConnectionDetails × Flags) : Prop where
  static : Static x.1 x'.1
  others : ∀ col', col' ≠ col → x'.1.member col' = x.1.member col'
  taken : updateFlags.test col.flag → (x'.1.member col).seen = v.seen
  left : ¬updateFlags.test col.flag → x'.1.member col = x.1.member col
  kept : x'.2.test col.flag = false → x'.1.member col = x.1.member col
  mono : ∀ flag, x.2.test flag → x'.2.test flag

section Takes

variable {updateFlags : Flags} {col : Column} {x x' x'' : DialogConnectionDetails × Flags}

theorem takes_refresh {α : Type} [DecidableEq α] {get : DialogConnectionDetails → α}
    {set : α → DialogConnectionDetails → DialogConnectionDetails} {value : α} (mk : α → Member)
    (hget : ∀ d, member d col = mk (get d)) (hset : ∀ d, get (set value d) = value)
    (hstatic : ∀ d, Static d (set value d))
    (hothers : ∀ d col', col' ≠ col → member (set value d) col' = member d col') :
    Takes updateFlags col (mk value) x (refresh updateFlags col.flag get set value x) := by
  unfold refresh
  split_ifs with h
  · refine ⟨hstatic _, hothers _, fun _ => ?_, fun hnot => absurd h.1 hnot, fun hflag => ?_,
      fun flag hflag => ?_⟩
    · rw [hget, hset]
    · rw [Flags.test_or, flag_ne_zero, Bool.or_true] at hflag
      exact absurd hflag Bool.noConfusion
    · rw [Flags.test_or, hflag, Bool.true_or]
  · refine ⟨Static.refl _, fun _ _ => rfl, fun htest => ?_, fun _ => rfl, fun _ => rfl,
      fun _ => id⟩
    rw [hget, not_not.mp fun hne => h ⟨htest, hne⟩]

theorem side_setSide (d : DialogConnectionDetails) (s t : Side) (g : DetailsSide → DetailsSide) :
    (d.setSide s g).side t = if t = s then g (d.side t) else d.side t := by
  cases s <;> cases t <;> rfl

theorem setSide_static (d : DialogConnectionDetails) (s : Side) {g : DetailsSide → DetailsSide}
    (haddress : ∀ m, (g m).address = m.address) (hport : ∀ m, (g m).port = m.port) :
    Static d (d.setSide s g) := by
  refine ⟨?_, ?_, ?_, fun t => ?_, fun t => ?_, ?_, ?_⟩
  · cases s <;> rfl
  · cases s <;> rfl
  · cases s <;> rfl
  · rw [side_setSide]
    split_ifs
    · exact haddress _
    · rfl
  · rw [side_setSide]
    split_ifs
    · exact hport _
    · rfl
  · cases s <;> rfl
  · cases s <;> rfl

theorem member_addressColumn (d : DialogConnectionDetails) (s : Side) :
    d.member (addressColumn s) = sideAddress (d.side s) := by
  cases s <;> rfl

theorem member_portColumn (d : DialogConnectionDetails) (s : Side) :
    d.member (portColumn s) = .port (d.side s).service := by
  cases s <;> rfl

theorem takes_refreshService (s : Side) (data : PortData) :
    Takes updateFlags (portColumn s) (.port (utf8 data.service)) x
      (refreshService updateFlags (portColumn s).flag s data x) := by
  refine takes_refresh Member.port (fun d => member_portColumn d s) (fun d => ?_)
    (fun d => setSide_static d s (fun _ => rfl) fun _ => rfl) fun d col' hne => ?_
  · rw [side_setSide, if_pos rfl]
  · cases s <;> cases col' <;> first | rfl | exact absurd rfl hne

theorem member_setSide_of_ne (d : DialogConnectionDetails) {s : Side}
    {g : DetailsSide → DetailsSide} (hservice : ∀ m, (g m).service = m.service) {col' : Column}
    (hne : col' ≠ addressColumn s) :
    (d.setSide s g).member col' = d.member col' := by
  cases s <;> cases col' <;>
    first | rfl | exact absurd rfl hne | exact congrArg Member.port (hservice _)

/-- A step is left out only where it would change nothing. -/
theorem refresh_spec {α : Type} [DecidableEq α] (updateFlags : Flags) (col : Column)
    (get : DialogConnectionDetails → α)
    (set : α → DialogConnectionDetails → DialogConnectionDetails) (value : α)
    (x : DialogConnectionDetails × Flags) (hself : ∀ d, set (get d) d = d) :
    (refresh updateFlags col.flag get set value x).1 =
        (if updateFlags.test col.flag then set value x.1 else x.1) ∧
      ((refresh updateFlags col.flag get set value x).2.test col.flag = false →
        refresh updateFlags col.flag get set value x = x) ∧
      ∀ flag, x.2.test flag → (refresh updateFlags col.flag get set value x).2.test flag := by
  unfold refresh
  by_cases htest : updateFlags.test col.flag
  · by_cases hvalue : get x.1 ≠ value
    · rw [if_pos ⟨htest, hvalue⟩, if_pos htest]
      refine ⟨rfl, fun hflag => ?_, fun flag hflag => ?_⟩
      · rw [Flags.test_or, flag_ne_zero, Bool.or_true] at hflag
        exact absurd hflag Bool.noConfusion
      · rw [Flags.test_or, hflag, Bool.true_or]
    · rw [if_neg fun h => hvalue h.2, if_pos htest, ← not_not.mp hvalue, hself]
      exact ⟨rfl, fun _ => rfl, fun _ => id⟩
  · rw [if_neg fun h => htest h.1, if_neg htest]
    exact ⟨rfl, fun _ => rfl, fun _ => id⟩

theorem setSide_congr {d : DialogConnectionDetails} {s : Side} {g g' : DetailsSide → DetailsSide}
    (h : g (d.side s) = g' (d.side s)) : d.setSide s g = d.setSide s g' := by
  cases s with
  | src => exact congrArg (fun m => { d with src := m }) h
  | dst => exact congrArg (fun m => { d with dst := m }) h

theorem setSide_self {d : DialogConnectionDetails} {s : Side} {g : DetailsSide → DetailsSide}
    (h : g (d.side s) = d.side s) : d.setSide s g = d := by
  have hid : d.setSide s g = d.setSide s id := setSide_congr h
  rw [hid]
  cases s <;> rfl

theorem setSide_setSide (d : DialogConnectionDetails) (s : Side)
    (g g' : DetailsSide → DetailsSide) : (d.setSide s g).setSide s g' = d.setSide s (g' ∘ g) := by
  cases s <;> rfl

theorem refreshASN_spec (updateFlags : Flags) (s : Side) (value : ASN)
    (x : DialogConnectionDetails × Flags) :
    (refreshASN updateFlags (addressColumn s).flag s value x).1 =
        (if updateFlags.test (addressColumn s).flag then
          x.1.setSide s fun m => if m.asn.number ≠ value.number then { m with asn := value } else m
        else x.1) ∧
      ((refreshASN updateFlags (addressColumn s).flag s value x).2.test (addressColumn s).flag =
        false → refreshASN updateFlags (addressColumn s).flag s value x = x) ∧
      ∀ flag, x.2.test flag →
        (refreshASN updateFlags (addressColumn s).flag s value x).2.test flag := by
  unfold refreshASN
  by_cases htest : updateFlags.test (addressColumn s).flag
  · by_cases hnumber : (x.1.side s).asn.number ≠ value.number
    · rw [if_pos ⟨htest, hnumber⟩, if_pos htest]
      refine ⟨?_, fun hflag => ?_, fun flag hflag => ?_⟩
      · dsimp only
        refine setSide_congr ?_
        rw [if_pos hnumber]
      · rw [Flags.test_or, flag_ne_zero, Bool.or_true] at hflag
        exact absurd hflag Bool.noConfusion
      · rw [Flags.test_or, hflag, Bool.true_or]
    · rw [if_neg fun h => hnumber h.2, if_pos htest]
      refine ⟨(setSide_self ?_).symm, fun _ => rfl, fun _ => id⟩
      rw [if_neg hnumber]
  · rw [if_neg fun h => htest h.1, if_neg htest]
    exact ⟨rfl, fun _ => rfl, fun _ => id⟩

/-- All three members of an address, in one step. -/
def takeAddress (data : AddressData) (m : DetailsSide) : DetailsSide :=
  { m with
    hostname := (utf8 data.hostname)
    country := data.country
    asn := if m.asn.number ≠ data.asn.number then data.asn else m.asn }

theorem refreshAddress_spec (updateFlags : Flags) (s : Side) (data : AddressData)
    (x : DialogConnectionDetails × Flags) :
    (refreshAddress updateFlags (addressColumn s).flag s data x).1 =
        (if updateFlags.test (addressColumn s).flag then x.1.setSide s (takeAddress data)
        else x.1) ∧
      ((refreshAddress updateFlags (addressColumn s).flag s data x).2.test (addressColumn s).flag =
        false → refreshAddress updateFlags (addressColumn s).flag s data x = x) ∧
      ∀ flag, x.2.test flag →
        (refreshAddress updateFlags (addressColumn s).flag s data x).2.test flag := by
  obtain ⟨hhostname, hkept, hmono⟩ := refresh_spec updateFlags (addressColumn s)
    (fun d => (d.side s).hostname) (fun v d => d.setSide s fun m => { m with hostname := v })
    (utf8 data.hostname) x fun d => by cases s <;> rfl
  unfold refreshAddress
  dsimp only
  generalize refresh updateFlags (addressColumn s).flag _ _ (utf8 data.hostname) x = x₁
    at hhostname hkept hmono ⊢
  obtain ⟨hcountry, hkept₁, hmono₁⟩ := refresh_spec updateFlags (addressColumn s)
    (fun d => (d.side s).country) (fun v d => d.setSide s fun m => { m with country := v })
    data.country x₁ fun d => by cases s <;> rfl
  generalize refresh updateFlags (addressColumn s).flag _ _ data.country x₁ = x₂
    at hcountry hkept₁ hmono₁ ⊢
  obtain ⟨hasn, hkept₂, hmono₂⟩ := refreshASN_spec updateFlags s data.asn x₂
  refine ⟨?_, fun hflag => ?_, fun flag hflag => hmono₂ _ (hmono₁ _ (hmono _ hflag))⟩
  · rw [hasn, hcountry, hhostname]
    by_cases htest : updateFlags.test (addressColumn s).flag
    · simp only [if_pos htest]
      rw [setSide_setSide, setSide_setSide]
      refine setSide_congr ?_
      dsimp only [Function.comp_apply, takeAddress]
      split_ifs <;> rfl
    · simp only [if_neg htest]
  · have hsame := hkept₂ hflag
    rw [hsame] at hflag ⊢
    have hsame₁ := hkept₁ hflag
    rw [hsame₁] at hflag ⊢
    exact hkept hflag

theorem takes_refreshAddress (s : Side) (data : AddressData) :
    Takes updateFlags (addressColumn s) (addressValue data) x
      (refreshAddress updateFlags (addressColumn s).flag s data x) := by
  obtain ⟨hfst, hkept, hmono⟩ := refreshAddress_spec updateFlags s data x
  by_cases htest : updateFlags.test (addressColumn s).flag
  · rw [if_pos htest] at hfst
    refine ⟨?_, fun col' hne => ?_, fun _ => ?_, fun h => absurd htest h, fun hflag => ?_, hmono⟩
    · rw [hfst]
      exact setSide_static _ s (fun _ => rfl) fun _ => rfl
    · rw [hfst]
      have hservice : ∀ m, (takeAddress data m).service = m.service := fun _ => rfl
      exact member_setSide_of_ne _ hservice hne
    · rw [hfst, member_addressColumn, side_setSide, if_pos rfl]
      simp only [sideAddress, takeAddress, addressValue, Member.seen]
      split_ifs with hnumber
      · rfl
      · rw [not_not.mp hnumber]
    · rw [hkept hflag]
  · rw [if_neg htest] at hfst
    exact ⟨hfst ▸ .refl _, fun _ _ => by rw [hfst], fun h => absurd h htest, fun _ => by rw [hfst],
      fun _ => by rw [hfst], hmono⟩

/-- The steps for some columns. -/
structure Took (updateFlags : Flags) (st : ConnectionStorage) (c : Connection)
    (cols : List Column) (d : DialogConnectionDetails) (x : DialogConnectionDetails × Flags) :
    Prop where
  static : Static d x.1
  others : ∀ col, col ∉ cols → x.1.member col = d.member col
  taken : ∀ col ∈ cols, updateFlags.test col.flag →
    (x.1.member col).seen = (value st c col).seen
  left : ∀ col ∈ cols, ¬updateFlags.test col.flag → x.1.member col = d.member col
  kept : ∀ col, x.2.test col.flag = false → x.1.member col = d.member col

variable {st : ConnectionStorage} {c : Connection} {cols : List Column}

theorem Took.nil : Took updateFlags st c [] d (d, 0) :=
  ⟨.refl d, fun _ _ => rfl, fun _ h => absurd h List.not_mem_nil,
    fun _ h => absurd h List.not_mem_nil, fun _ _ => rfl⟩

theorem Took.cons (h : Took updateFlags st c cols d x)
    (hstep : Takes updateFlags col (value st c col) x x') (hcol : col ∉ cols) :
    Took updateFlags st c (col :: cols) d x' := by
  refine ⟨h.static.trans hstep.static, fun col' hnot => ?_, fun col' hmem htest => ?_,
    fun col' hmem htest => ?_, fun col' htest => ?_⟩
  · rw [List.mem_cons, not_or] at hnot
    rw [hstep.others col' hnot.1, h.others col' hnot.2]
  · by_cases hne : col' = col
    · subst hne
      exact hstep.taken htest
    · rw [hstep.others col' hne]
      exact h.taken col' ((List.mem_cons.mp hmem).resolve_left hne) htest
  · by_cases hne : col' = col
    · subst hne
      rw [hstep.left htest, h.others col' hcol]
    · rw [hstep.others col' hne]
      exact h.left col' ((List.mem_cons.mp hmem).resolve_left hne) htest
  · have hbefore : x.2.test col'.flag = false := by
      by_contra hflag
      rw [hstep.mono _ ((Bool.not_eq_false _).mp hflag)] at htest
      exact absurd htest Bool.noConfusion
    by_cases hne : col' = col
    · subst hne
      rw [hstep.kept htest, h.kept col' hbefore]
    · rw [hstep.others col' hne, h.kept col' hbefore]

theorem takes_refreshCount {get : ConnectionTraffic → UInt64}
    {set : UInt64 → ConnectionTraffic → ConnectionTraffic} (traffic : ConnectionTraffic)
    (hget : ∀ d, member d col = .count (get d.traffic)) (hset : ∀ v t, get (set v t) = v)
    (hothers : ∀ d v col', col' ≠ col →
      member { d with traffic := set v d.traffic } col' = member d col') :
    Takes updateFlags col (.count (get traffic)) x
      (refreshCount updateFlags col.flag get set traffic x) :=
  takes_refresh Member.count hget (fun d => hset _ d.traffic)
    (fun d => ⟨rfl, rfl, rfl, fun s => by cases s <;> rfl, fun s => by cases s <;> rfl, rfl, rfl⟩)
    fun d col' hne => hothers d _ col' hne

theorem takes_refreshColumn (hcol : col ≠ .proto) :
    Takes updateFlags col (value st c col) x (refreshColumn updateFlags st c x col) := by
  cases col with
  | proto => exact absurd rfl hcol
  | protoState =>
    have hstatic : ∀ d : DialogConnectionDetails, Static d { d with stateName := stateText st c } :=
      fun d => ⟨rfl, rfl, rfl, fun s => by cases s <;> rfl, fun s => by cases s <;> rfl, rfl, rfl⟩
    change Takes updateFlags .protoState (.state (stateText st c)) x
      (refresh updateFlags _ (fun d => d.stateName) (fun v d => { d with stateName := v }) _ x)
    refine takes_refresh Member.state (fun _ => rfl) (fun _ => rfl) hstatic fun d col' hne => ?_
    cases col' <;> first | rfl | exact absurd rfl hne
  | srcAddress => exact takes_refreshAddress .src _
  | dstAddress => exact takes_refreshAddress .dst _
  | srcPort => exact takes_refreshService .src _
  | dstPort => exact takes_refreshService .dst _
  | rxPackets | txPackets | rxBytes | txBytes | rxSpeed | txSpeed =>
    dsimp only [value, refreshColumn]
    refine takes_refreshCount _ (fun _ => rfl) (fun _ _ => rfl) fun d v col' hne => ?_
    cases col' <;> first | rfl | exact absurd rfl hne

theorem foldl_took (cols' : List Column) (h : Took updateFlags st c cols d x)
    (hcols : ∀ col ∈ cols', col ≠ .proto ∧ col ∉ cols) (hnodup : cols'.Nodup) :
    Took updateFlags st c (cols'.reverse ++ cols) d
      (cols'.foldl (refreshColumn updateFlags st c) x) := by
  induction cols' generalizing cols x with
  | nil => exact h
  | cons col cols' ih =>
    rw [List.forall_mem_cons] at hcols
    rw [List.nodup_cons] at hnodup
    rw [List.reverse_cons, List.append_assoc, List.singleton_append]
    refine ih (h.cons (takes_refreshColumn hcols.1.1) hcols.1.2) (fun col' hmem => ?_) hnodup.2
    refine ⟨(hcols.2 col' hmem).1, fun hmem' => ?_⟩
    rcases List.mem_cons.mp hmem' with rfl | hmem'
    · exact hnodup.1 hmem
    · exact (hcols.2 col' hmem).2 hmem'

theorem refreshAll_took (d : DialogConnectionDetails) (updateFlags : Flags)
    (st : ConnectionStorage) (c : Connection) :
    Took updateFlags st c (columns.reverse ++ []) d (d.refreshAll updateFlags st c) :=
  foldl_took columns .nil (fun col hmem => ⟨by revert col; decide, List.not_mem_nil⟩) (by decide)

/-! ### Printable texts -/

theorem refresh_keeps {α : Type} [DecidableEq α] {P : DialogConnectionDetails → Prop}
    {updateFlags flag : Flags} {get : DialogConnectionDetails → α}
    {set : α → DialogConnectionDetails → DialogConnectionDetails} {value : α}
    (hset : ∀ d, P d → P (set value d)) (h : P x.1) :
    P (refresh updateFlags flag get set value x).1 := by
  unfold refresh
  split_ifs
  · exact hset _ h
  · exact h

theorem TextsPrintable.setSide (h : d.TextsPrintable texts) (s : Side)
    {g : DetailsSide → DetailsSide}
    (hg : ∀ m, m.IsPrintable texts → (g m).IsPrintable texts) :
    (d.setSide s g).TextsPrintable texts := by
  refine ⟨?_, ?_, fun t => ?_⟩
  · cases s <;> exact h.typeName
  · cases s <;> exact h.stateName
  · rw [side_setSide]
    split_ifs
    · exact hg _ (h.side t)
    · exact h.side t

theorem refreshAddress_printable (s : Side) {data : AddressData}
    (hdata : texts.AddressPrintable data) (h : x.1.TextsPrintable texts) :
    (refreshAddress updateFlags (addressColumn s).flag s data x).1.TextsPrintable texts := by
  rw [(refreshAddress_spec updateFlags s data x).1]
  split_ifs
  · refine h.setSide s fun m hm => { hm with
      hostname := hdata.hostname, country := hdata.country, orgName := ?_ }
    dsimp only [takeAddress]
    split_ifs
    · exact hdata.orgName
    · exact hm.orgName
  · exact h

theorem refreshService_printable (s : Side) {data : PortData} (hdata : data.IsPrintable)
    (h : x.1.TextsPrintable texts) :
    (refreshService updateFlags (portColumn s).flag s data x).1.TextsPrintable texts :=
  refresh_keeps (fun _ hd => hd.setSide s fun _ hm => { hm with service := hdata }) h

end Takes

/-! ## The pad looks as the members say -/

/-- A field depends on the members for its column only. -/
theorem fieldCells_congr (h : Static d d') (hmember : d'.member f.column = d.member f.column) :
    d'.fieldCells texts f = d.fieldCells texts f := by
  cases f with
  | state =>
    have hname : d'.stateName = d.stateName := Member.state.inj hmember
    dsimp only [fieldCells]
    rw [h.content, hname]
  | hostname s | asn s | country s =>
    dsimp only [Field.column] at hmember
    rw [member_addressColumn, member_addressColumn] at hmember
    obtain ⟨hhostname, hcountry, hasn⟩ := Member.address.inj hmember
    simp only [fieldCells, hostnameText, asnText, countryText, hhostname, hcountry, hasn]
  | service s =>
    dsimp only [Field.column] at hmember
    rw [member_portColumn, member_portColumn] at hmember
    have hservice := Member.port.inj hmember
    simp only [fieldCells, serviceText, hservice, h.port, h.hasPorts]
  | packets r =>
    have hpackets : d'.packets r = d.packets r := by
      cases r <;> exact Member.count.inj hmember
    simp only [fieldCells, packetsText, hpackets]
  | bytes r =>
    have hbytes : d'.bytes r = d.bytes r := by
      cases r <;> exact Member.count.inj hmember
    simp only [fieldCells, hbytes]
  | speed r =>
    have hspeed : d'.speed r = d.speed r := by
      cases r <;> exact Member.count.inj hmember
    simp only [fieldCells, speedText, hspeed]

/-- Where the fields are, and what is beside them, is set when the dialog is opened. -/
structure SameForm (d d' : DialogConnectionDetails) : Prop where
  hasPorts : d'.hasPorts = d.hasPorts
  typeName : d'.typeName = d.typeName
  address : ∀ s, (d'.side s).address = (d.side s).address
  port : ∀ s, (d'.side s).port = (d.side s).port

theorem Static.sameForm (h : Static d d') : SameForm d d' :=
  ⟨h.hasPorts, h.typeName, h.address, h.port⟩

theorem SameForm.form (h : SameForm d d') : d'.form = d.form := by
  refine Form.ext rfl (funext fun f => ?_) (funext fun f => ?_)
  · cases f <;> simp [DialogConnectionDetails.form, fieldCol, h.port]
  · cases f <;> simp [DialogConnectionDetails.form, fieldWidth, h.port, h.hasPorts]

theorem SameForm.base (h : SameForm d d') : d'.base = d.base := by
  have hsrc : d'.src.address = d.src.address ∧ d'.src.port = d.src.port :=
    ⟨h.address .src, h.port .src⟩
  have hdst : d'.dst.address = d.dst.address ∧ d'.dst.port = d.dst.port :=
    ⟨h.address .dst, h.port .dst⟩
  unfold DialogConnectionDetails.base drawTexts values
  rw [h.hasPorts, h.typeName, hsrc.1, hsrc.2, hdst.1, hdst.2]

/-- The open dialog with its pad. -/
structure Drawn (texts : DetailTexts) (d : DialogConnectionDetails) : Prop where
  ready : Ready .default d.pad
  filled : d.form.Filled look d.base (d.fieldLook texts) d.pad
  fits : d.Fits texts

theorem fieldLook_of_not_isDrawn (hf : d.isDrawn f = false) : d.fieldLook texts f = [] := by
  cases f with
  | service s =>
    have hports : d.hasPorts = false := hf
    simp [fieldLook, fieldCells, hports]
  | _ => exact Bool.noConfusion hf

/-! ## What the dialog has of the connection -/

/-- What the dialog has of the connection from the time when it was opened. -/
structure Shows (st : ConnectionStorage) (c : Connection) (d : DialogConnectionDetails) : Prop where
  hasPorts : d.hasPorts = c.hasPorts
  typeName : d.typeName = (Connection.typeToString c.getType).toList
  address : ∀ s, (d.side s).address = utf8 (st.addressData (addrOf c s)).numericString
  port : ∀ s, (d.side s).port = (portOf c s).toText

/-- The texts of a connection that have no limit of their own. -/
structure DataFits (texts : DetailTexts) (st : ConnectionStorage) (c : Connection) : Prop where
  address : ∀ s, (utf8 (st.addressData (addrOf c s)).numericString).length ≤ 67
  service : ∀ s, (portOf c s).toText.length +
    (utf8 (st.portData (portOf c s)).service).length ≤ 67
  addressPrintable : ∀ s, texts.AddressPrintable (st.addressData (addrOf c s))
  servicePrintable : ∀ s, (st.portData (portOf c s)).IsPrintable

variable {st : ConnectionStorage} {c : Connection} {updateFlags : Flags}

theorem SameForm.shows (h : SameForm d d') (hshows : Shows st c d) : Shows st c d' where
  hasPorts := h.hasPorts.trans hshows.hasPorts
  typeName := h.typeName.trans hshows.typeName
  address s := (h.address s).trans (hshows.address s)
  port s := (h.port s).trans (hshows.port s)

theorem refreshAll_spec (d : DialogConnectionDetails) (updateFlags : Flags)
    (st : ConnectionStorage) (c : Connection) {x : DialogConnectionDetails × Flags}
    (hx : d.refreshAll updateFlags st c = x) :
    Static d x.1 ∧
      (∀ col, col ≠ .proto → updateFlags.test col.flag →
        (x.1.member col).seen = (value st c col).seen) ∧
      (∀ col, col ≠ .proto → ¬updateFlags.test col.flag → x.1.member col = d.member col) ∧
      ∀ col, x.2.test col.flag = false → x.1.member col = d.member col := by
  subst hx
  have h := refreshAll_took d updateFlags st c
  have hmem : ∀ col, col ≠ .proto → col ∈ columns.reverse ++ [] := fun col hcol => by
    rw [List.append_nil, List.mem_reverse]
    exact mem_columns hcol
  exact ⟨h.static, fun col hcol => h.taken col (hmem col hcol),
    fun col hcol => h.left col (hmem col hcol), h.kept⟩

theorem refreshAll_printable (hdata : DataFits texts st c) (h : d.TextsPrintable texts) :
    (d.refreshAll updateFlags st c).1.TextsPrintable texts := by
  refine GuardedRun.foldl_inv
    (I := fun x : DialogConnectionDetails × Flags => x.1.TextsPrintable texts)
    (fun x col h => ?_) columns (d, 0) h
  cases col with
  | proto => exact h
  | protoState =>
    exact refresh_keeps (fun _ hd => { hd with stateName := isText_stateToString _ _ }) h
  | srcAddress => exact refreshAddress_printable .src (hdata.addressPrintable .src) h
  | dstAddress => exact refreshAddress_printable .dst (hdata.addressPrintable .dst) h
  | srcPort => exact refreshService_printable .src (hdata.servicePrintable .src) h
  | dstPort => exact refreshService_printable .dst (hdata.servicePrintable .dst) h
  | rxPackets | txPackets | rxBytes | txBytes | rxSpeed | txSpeed =>
    exact refresh_keeps (fun _ hd => ⟨hd.typeName, hd.stateName, hd.side⟩) h

theorem refreshAll_fits (hd : d.Fits texts) (hshows : Shows st c d)
    (hdata : DataFits texts st c) : (d.refreshAll updateFlags st c).1.Fits texts := by
  obtain ⟨hstatic, htaken, hleft, -⟩ := refreshAll_spec d updateFlags st c rfl
  have hprintable : (d.refreshAll updateFlags st c).1.TextsPrintable texts :=
    refreshAll_printable hdata hd.printable
  generalize d.refreshAll updateFlags st c = x at hstatic htaken hleft hprintable
  refine ⟨hstatic.typeName ▸ hd.typeName, ?_, fun s => hstatic.address s ▸ hd.address s,
    fun s => hstatic.port s ▸ hd.port s, fun s => ?_, hprintable⟩
  · by_cases htest : updateFlags.test Column.protoState.flag
    · have hname : x.1.stateName = stateText st c :=
        Member.state.inj (htaken .protoState (by decide) htest)
      have hlength := length_stateText st c
      rw [hname]
      omega
    · have hname : x.1.stateName = d.stateName :=
        Member.state.inj (hleft .protoState (by decide) htest)
      exact hname ▸ hd.stateName
  · have hne : portColumn s ≠ .proto := by cases s <;> decide
    rw [hstatic.port]
    by_cases htest : updateFlags.test (portColumn s).flag
    · have hservice := htaken _ hne htest
      rw [member_portColumn, value_portColumn] at hservice
      rw [Member.port.inj hservice, hshows.port]
      exact hdata.service s
    · have hservice := hleft _ hne htest
      rw [member_portColumn, member_portColumn] at hservice
      rw [Member.port.inj hservice]
      exact hd.service s

/-! ## The functions of the dialog -/

/-- A closed dialog is as new. -/
def Closed (d : DialogConnectionDetails) : Prop := ∃ p, Blank p ∧ d = { pad := p }

/-- What an update with a connection takes over. -/
structure Updated (st : ConnectionStorage) (c : Connection) (updateFlags : Flags)
    (d d' : DialogConnectionDetails) : Prop extends SameForm d d' where
  content : d'.content = d.content
  isOpen : d'.isOpen = d.isOpen
  taken : ∀ col, col ≠ .proto → updateFlags.test col.flag →
    (d'.member col).seen = (value st c col).seen
  left : ∀ col, col ≠ .proto → ¬updateFlags.test col.flag → d'.member col = d.member col

theorem update_some (hcontent : d.content ≠ .none) :
    d.update texts (some (st, c)) updateFlags =
      { (d.refreshAll updateFlags st c).1 with
        pad := (d.refreshAll updateFlags st c).1.drawUpdate texts
          (d.refreshAll updateFlags st c).2 (d.refreshAll updateFlags st c).1.pad } := by
  unfold update
  rw [if_neg hcontent]

theorem update_updated (texts : DetailTexts) (hcontent : d.content ≠ .none) :
    Updated st c updateFlags d (d.update texts (some (st, c)) updateFlags) := by
  obtain ⟨hstatic, htaken, hleft, -⟩ := refreshAll_spec d updateFlags st c rfl
  rw [update_some hcontent]
  exact ⟨⟨hstatic.hasPorts, hstatic.typeName, hstatic.address, hstatic.port⟩, hstatic.content,
    hstatic.isOpen, htaken, hleft⟩

theorem update_none (hcontent : d.content ≠ .none) :
    d.update texts none updateFlags =
      { d with
        content := .removed
        pad := { d with content := .removed }.drawUpdate texts
          EConnectionUpdateFlags.protoState d.pad } := by
  unfold update
  rw [if_neg hcontent]

theorem side_setStatic (d : DialogConnectionDetails) (st : ConnectionStorage) (c : Connection)
    (s : Side) : (d.setStatic st c).side s = { d.side s with
      address := utf8 (st.addressData (addrOf c s)).numericString
      port := (portOf c s).toText } := by
  unfold setStatic
  dsimp only
  rw [if_pos c.hasPorts_eq]
  cases s <;> rfl

theorem setStatic_shows (d : DialogConnectionDetails) (st : ConnectionStorage) (c : Connection) :
    Shows st c (d.setStatic st c) where
  hasPorts := by
    unfold setStatic
    dsimp only
    split_ifs <;> rfl
  typeName := by
    unfold setStatic
    dsimp only
    split_ifs <;> rfl
  address s := by rw [side_setStatic]
  port s := by rw [side_setStatic]

/-- The rest of the members. -/
theorem setStatic_rest (d : DialogConnectionDetails) (st : ConnectionStorage) (c : Connection) :
    (d.setStatic st c).content = .normal ∧ (d.setStatic st c).stateName = d.stateName ∧
      (d.setStatic st c).traffic = d.traffic ∧ (d.setStatic st c).isOpen = d.isOpen ∧
      (d.setStatic st c).pad = d.pad := by
  unfold setStatic
  dsimp only
  split_ifs <;> exact ⟨rfl, rfl, rfl, rfl, rfl⟩

/-- The members of a dialog that has shown nothing yet. -/
structure Untouched (d : DialogConnectionDetails) : Prop where
  content : d.content ≠ .removed
  stateName : d.stateName = []
  side : ∀ s, (d.side s).hostname = [] ∧ (d.side s).service = [] ∧
    (d.side s).country = 0 ∧ (d.side s).asn = {}
  traffic : d.traffic = {}

/-- `drawStatic` draws the fields of such a dialog. -/
theorem Untouched.fieldLook (h : Untouched d) (htexts : texts.Fits) (f : Field) :
    (d.zeroCells f).map look = d.fieldLook texts f := by
  unfold DialogConnectionDetails.fieldLook
  cases f with
  | state =>
    dsimp only [zeroCells, fieldCells, fieldWidth]
    rw [if_neg h.content, h.stateName, look_padded_nil, List.map_replicate, look_blank]
  | hostname s =>
    dsimp only [zeroCells, fieldCells, fieldWidth, hostnameText]
    rw [(h.side s).1, safe, if_pos (by decide), look_padded_nil, List.map_replicate, look_blank]
  | asn s =>
    dsimp only [zeroCells, fieldCells, fieldWidth, asnText]
    rw [(h.side s).2.2.2, if_neg (by decide), look_padded_nil, List.map_replicate, look_blank]
  | country s =>
    dsimp only [zeroCells, fieldCells, fieldWidth, countryText]
    rw [(h.side s).2.2.1, if_neg (by decide), look_padded_nil, List.map_replicate, look_blank]
  | service s =>
    dsimp only [zeroCells, fieldCells, fieldWidth, serviceText]
    rw [(h.side s).2.1, if_neg (not_not.mpr rfl), List.map_replicate, look_blank]
    by_cases hports : d.hasPorts = true
    · rw [if_pos hports, if_pos hports, look_padded_nil]
    · rw [if_neg hports, if_neg hports]
      rfl
  | packets r =>
    have hpackets : d.packets r = 0 := by
      cases r <;> simp [packets, h.traffic]
    dsimp only [zeroCells, fieldCells, packetsText]
    rw [hpackets]
    rfl
  | bytes r =>
    have hbytes : d.bytes r = 0 := by
      cases r <;> simp [bytes, h.traffic]
    dsimp only [zeroCells, fieldCells]
    rw [hbytes, htexts.zero]
    rfl
  | speed r =>
    have hspeed : d.speed r = 0 := by
      cases r <;> simp [speed, h.traffic]
    dsimp only [zeroCells, fieldCells, fieldWidth, speedText]
    rw [hspeed, if_neg (by decide), look_padded_nil, List.map_replicate, look_blank]

theorem open_some (d : DialogConnectionDetails) (st : ConnectionStorage) (c : Connection)
    {e : DialogConnectionDetails} (he : { d with isOpen := true }.setStatic st c = e) :
    d.open texts (some (st, c)) =
      { e with pad := e.drawStatic e.pad }.update texts (some (st, c)) (-1) := by
  have hcontent := (setStatic_rest { d with isOpen := true } st c).1
  subst he
  unfold «open»
  exact if_pos hcontent

section Drawing

variable [LawfulPadLibrary Attr]

/-- **What changed is drawn, the rest need not be.** -/
theorem Drawn.drawUpdate (h : Drawn texts d) (htexts : texts.Fits) (hfits : d'.Fits texts)
    (hform : SameForm d d') (hpad : d'.pad = d.pad) {updateFlags : Flags}
    (hkept : ∀ f, updateFlags.test f.column.flag = false →
      d'.fieldLook texts f = d.fieldLook texts f) :
    Drawn texts { d' with pad := d'.drawUpdate texts updateFlags d'.pad } := by
  have hbefore : d'.form.Filled look d'.base (d.fieldLook texts) (d.pad.attron .statusValue) := by
    rw [hform.form, hform.base]
    exact h.filled.of_cells (Pad.cells_attron h.ready.plain h.ready.attr)
  obtain ⟨hready, hfilled⟩ := drawFields_filled htexts hfits updateFlags fields
    (h.ready.attron .statusValue) hbefore
  rw [drawUpdate_eq, hpad]
  refine ⟨hready.attroff, ?_, hfits.congr rfl rfl fun _ => rfl⟩
  refine Form.Filled.of_cells (hfilled.congr fun f => ?_)
    (Pad.cells_attroff hready.plain hready.attr)
  change d'.fieldLook texts f = _
  by_cases htest : updateFlags.test f.column.flag = true
  · cases hdrawn : d'.isDrawn f with
    | true => rw [if_pos ⟨mem_fields f, by rw [htest]; rfl⟩]
    | false =>
      have hdrawn' : d.isDrawn f = false := by
        cases f with
        | service s => exact hform.hasPorts.symm.trans hdrawn
        | _ => exact hdrawn
      rw [htest, if_neg (by simp), fieldLook_of_not_isDrawn hdrawn,
        fieldLook_of_not_isDrawn hdrawn']
  · rw [Bool.not_eq_true] at htest
    rw [htest, if_neg (by simp), hkept f htest]

/-- **An update leaves what would be drawn as a whole.** -/
theorem update_drawn (h : Drawn texts d) (htexts : texts.Fits) (hcontent : d.content ≠ .none)
    (hshows : Shows st c d) (hdata : DataFits texts st c) :
    Drawn texts (d.update texts (some (st, c)) updateFlags) := by
  have hfits : (d.refreshAll updateFlags st c).1.Fits texts := refreshAll_fits h.fits hshows hdata
  obtain ⟨hstatic, -, -, hkept⟩ := refreshAll_spec d updateFlags st c rfl
  rw [update_some hcontent]
  refine h.drawUpdate htexts hfits hstatic.sameForm hstatic.pad fun f htest => ?_
  exact congrArg (List.map look) (fieldCells_congr hstatic (hkept _ htest))

theorem update_none_drawn (h : Drawn texts d) (htexts : texts.Fits) (hcontent : d.content ≠ .none) :
    Drawn texts (d.update texts none updateFlags) := by
  rw [update_none hcontent]
  have hfits : Fits texts { d with content := .removed } := h.fits.congr rfl rfl fun _ => rfl
  refine Drawn.drawUpdate h htexts hfits ⟨rfl, rfl, fun _ => rfl, fun _ => rfl⟩ rfl
    fun f htest => ?_
  cases f with
  | state => exact absurd htest (by decide)
  | _ => rfl

theorem Untouched.drawn (h : Untouched d) (htexts : texts.Fits) (hp : Blank d.pad)
    (hd : d.Fits texts) (hcontent : d.content ≠ .none) :
    Drawn texts { d with pad := d.drawStatic d.pad } := by
  obtain ⟨hready, hfilled⟩ := drawStatic_filled hp hd hcontent
  exact ⟨hready, hfilled.congr fun f => (h.fieldLook htexts f).symm,
    hd.congr rfl rfl fun _ => rfl⟩

/-- **The dialog is opened.** -/
theorem open_drawn (h : Closed d) (htexts : texts.Fits) (hdata : DataFits texts st c) :
    Drawn texts (d.open texts (some (st, c))) ∧ Shows st c (d.open texts (some (st, c))) ∧
      (d.open texts (some (st, c))).content = .normal ∧
      (d.open texts (some (st, c))).isOpen = true ∧
      ∀ col, col ≠ .proto →
        ((d.open texts (some (st, c))).member col).seen = (value st c col).seen := by
  obtain ⟨p, hp, rfl⟩ := h
  obtain ⟨e, he⟩ : ∃ e, setStatic { pad := p, isOpen := true } st c = e := ⟨_, rfl⟩
  have hshows := setStatic_shows { pad := p, isOpen := true } st c
  obtain ⟨hcontent, hstate, htraffic, hopen, hpad⟩ :=
    setStatic_rest { pad := p, isOpen := true } st c
  have hside := side_setStatic { pad := p, isOpen := true } st c
  rw [he] at hshows hcontent hstate htraffic hopen hpad hside
  rw [open_some { pad := p } st c he]
  have hempty : ∀ s, DialogConnectionDetails.side { pad := p, isOpen := true } s = {} :=
    fun s => by cases s <;> rfl
  -- nothing but the static texts is set yet
  have huntouched : Untouched e := by
    refine ⟨hcontent ▸ by decide, hstate, fun s => ?_, htraffic⟩
    rw [hside, hempty]
    exact ⟨rfl, rfl, rfl, rfl⟩
  have hprintable : e.TextsPrintable texts := by
    refine ⟨?_, ?_, fun s => ⟨?_, ?_, ?_, ?_, ?_, ?_⟩⟩
    · rw [hshows.typeName]
      exact isText_typeToString _
    · rw [hstate]
      exact isText_nil
    · rw [hshows.address]
      exact (hdata.addressPrintable s).numericString
    · rw [hshows.port]
      exact isText_toText _
    · rw [(huntouched.side s).1]
      exact isText_nil
    · rw [(huntouched.side s).2.1]
      exact isText_nil
    · rw [(huntouched.side s).2.2.1]
      exact fun hne => absurd rfl hne
    · rw [(huntouched.side s).2.2.2]
      exact isText_nil
  have hfits : e.Fits texts := by
    refine ⟨?_, ?_, fun s => ?_, fun s => ?_, fun s => ?_, hprintable⟩
    · rw [hshows.typeName, length_typeToString]
      decide
    · rw [hstate]
      exact Nat.zero_le 71
    · rw [hshows.address]
      exact hdata.address s
    · rw [hshows.port]
      exact length_toText _
    · have hlength := length_toText (portOf c s)
      rw [hshows.port, (huntouched.side s).2.1, List.length_nil]
      omega
  have hnone : e.content ≠ .none := hcontent ▸ by decide
  -- drawn as a whole, and then updated with all flags
  have hdrawn := huntouched.drawn htexts (hpad ▸ hp) hfits hnone
  have hupdated : Updated st c (-1) { e with pad := e.drawStatic e.pad } _ :=
    update_updated texts hnone
  have hshows' : Shows st c { e with pad := e.drawStatic e.pad } :=
    ⟨hshows.hasPorts, hshows.typeName, hshows.address, hshows.port⟩
  refine ⟨update_drawn hdrawn htexts hnone hshows' hdata, hupdated.toSameForm.shows hshows',
    hupdated.content.trans hcontent, hupdated.isOpen.trans hopen, fun col hcol => ?_⟩
  exact hupdated.taken col hcol (Flags.test_neg_one _ (by cases col <;> decide))

theorem clear_put (hp : Ready .default p) {i : ℕ} (hi : i < 22) :
    Pad.Put p (fillEmpty (p.move i 1)) i 1 (List.replicate 78 PadView.blank) := by
  have hy : i < p.height := hp.height ▸ hi
  have hx : 1 < p.width := hp.width ▸ by decide
  have hm := hp.plain.move i 1
  have hmx := Pad.x_move hp.plain hy hx
  have hmw := (Pad.width_move hp.plain i 1).trans hp.width
  have hwrote := Pad.wrote_fill 78 hm (by rw [hmx, hmw]; decide)
  rw [Pad.attr_move hp.plain, hp.attr] at hwrote
  unfold fillEmpty
  rw [hmx, hmw]
  exact hwrote.put hp.plain hy hx

theorem clear_rows (hp : Ready .default p) {n : ℕ} (hn : n ≤ 22) :
    Ready .default ((List.range n).foldl (fun p i => fillEmpty (p.move i 1)) p) ∧
      ∀ y x, y < n → 0 < x → x < 79 →
        ((List.range n).foldl (fun p i => fillEmpty (p.move i 1)) p).cells y x = PadView.blank := by
  induction n with
  | zero => exact ⟨hp, fun y x hy => absurd hy (Nat.not_lt_zero y)⟩
  | succ n ih =>
    obtain ⟨hready, hcells⟩ := ih (Nat.le_of_succ_le hn)
    rw [List.range_succ, List.foldl_append]
    generalize (List.range n).foldl (fun p i => fillEmpty (p.move i 1)) p = q at hready hcells ⊢
    have hput := clear_put hready hn
    refine ⟨hready.put hput, fun y x hy hx hx' => ?_⟩
    rw [List.foldl_cons, List.foldl_nil]
    by_cases hrow : y = n
    · obtain ⟨i, rfl⟩ := Nat.exists_eq_add_of_le hx
      subst hrow
      have hi : i < 78 := by omega
      have hcell := hput.cell (i := i) (by rw [List.length_replicate]; exact hi)
      rwa [List.getElem_replicate] at hcell
    · rw [hput.cell_of_ne (.inl hrow)]
      exact hcells y x (by omega) hx hx'

/-- **A closed dialog can be opened again.** -/
theorem close_closed (h : Drawn texts d) : Closed d.close := by
  obtain ⟨hready, hcells⟩ := clear_rows h.ready le_rfl
  have hclear : clear d.pad = (List.range 22).foldl (fun p i => fillEmpty (p.move i 1)) d.pad := by
    unfold clear
    rw [h.ready.height]
  refine ⟨clear d.pad, ?_, rfl⟩
  rw [hclear]
  refine ⟨hready, fun y x hy hx hborder => ?_⟩
  unfold OnBorder at hborder
  rw [hcells y x hy (by omega) (by omega)]
  exact look_blank

theorem init_closed : Closed init := by
  refine ⟨Pad.box (.new 80 22), ⟨blank_new.toReady.box, fun y x hy hx hborder => ?_⟩, rfl⟩
  rw [blank_new.toReady.cells_box hborder]
  exact blank_new.cells y x hy hx hborder

end Drawing

end DialogConnectionDetails

end Conntop
