import Conntop.ConnectionStorage
import Conntop.Lib.SortedList
import Mathlib.Data.Prod.Lex

/-!
# The comparison of connections

`ConnectionList::updateCompareFunc` picks a comparison by sort mode and direction. It reads the
storage through the pointers of the compared items, so here it is a function of the storage.

* `compareAscending`: one comparison for each sort mode, as the source has it for ascending
  order. The source's descending version of each is the same with its arguments swapped.
* `compareFunc`: the comparison in use.

Main result: `compareFunc_weakOrder`, the comparison of every mode and direction is a strict
weak order. The comparisons read no traffic, state, address or port other than those of the two
connections (`compareFunc_congr`), and which of them they read depends on the mode: what is
resolved for addresses and ports changes the order of few modes only.
-/

namespace Conntop

open SortedList

variable {st st' : ConnectionStorage} {a b : Connection}

namespace EAddressType

def toNat : EAddressType → ℕ
  | ip4 => 0
  | ip6 => 1

end EAddressType

/-- By address type, and numeric strings of addresses of one type. -/
def compareAddress (st : ConnectionStorage) (a b : Address) : Bool :=
  if a.getType = b.getType then
    (st.addressData a).numericString < (st.addressData b).numericString
  else a.getType.toNat < b.getType.toNat

/-- By the states of connections of one protocol, else by connection type. -/
def compareProtoState (st : ConnectionStorage) (a b : Connection) : Bool :=
  if a.getType.isProtoEqual b.getType then
    (st.connectionData a).state < (st.connectionData b).state
  else a.getType.toNat < b.getType.toNat

/-- A comparison by port is false for a connection without ports. -/
def comparePort (f : Connection → Connection → Bool) (a b : Connection) : Bool :=
  if !a.hasPorts || !b.hasPorts then false else f a b

def compareTraffic (st : ConnectionStorage) (f : ConnectionTraffic → UInt64)
    (a b : Connection) : Bool :=
  f (st.connectionData a).traffic < f (st.connectionData b).traffic

/-- The comparison of a sort mode for ascending order. -/
def compareAscending (st : ConnectionStorage) :
    EConnectionSortMode → Connection → Connection → Bool
  | .none, _, _ => false
  | .proto, a, b => a.getType.toNat < b.getType.toNat
  | .protoState, a, b => compareProtoState st a b
  | .srcAddress, a, b => compareAddress st a.srcAddr b.srcAddr
  | .srcHostname, a, b => (st.addressData a.srcAddr).hostname < (st.addressData b.srcAddr).hostname
  | .srcASN, a, b => (st.addressData a.srcAddr).asn.number < (st.addressData b.srcAddr).asn.number
  | .srcCountry, a, b => (st.addressData a.srcAddr).country < (st.addressData b.srcAddr).country
  | .srcPort, a, b => comparePort (fun a b => a.srcPort.number < b.srcPort.number) a b
  | .srcService, a, b =>
    comparePort (fun a b => (st.portData a.srcPort).service < (st.portData b.srcPort).service) a b
  | .dstAddress, a, b => compareAddress st a.dstAddr b.dstAddr
  | .dstHostname, a, b => (st.addressData a.dstAddr).hostname < (st.addressData b.dstAddr).hostname
  | .dstASN, a, b => (st.addressData a.dstAddr).asn.number < (st.addressData b.dstAddr).asn.number
  | .dstCountry, a, b => (st.addressData a.dstAddr).country < (st.addressData b.dstAddr).country
  | .dstPort, a, b => comparePort (fun a b => a.dstPort.number < b.dstPort.number) a b
  | .dstService, a, b =>
    comparePort (fun a b => (st.portData a.dstPort).service < (st.portData b.dstPort).service) a b
  | .rxPackets, a, b => compareTraffic st (·.rxPackets) a b
  | .txPackets, a, b => compareTraffic st (·.txPackets) a b
  | .rxBytes, a, b => compareTraffic st (·.rxBytes) a b
  | .txBytes, a, b => compareTraffic st (·.txBytes) a b
  | .rxSpeed, a, b => compareTraffic st (·.rxSpeed) a b
  | .txSpeed, a, b => compareTraffic st (·.txSpeed) a b

/-- `m_compareFunc` as `updateCompareFunc` sets it. -/
def compareFunc (st : ConnectionStorage) (mode : EConnectionSortMode) (isAscending : Bool)
    (a b : Connection) : Bool :=
  if isAscending then compareAscending st mode a b else compareAscending st mode b a

/-! ## Strict weak order -/

/-- A comparison of keys that a linear order decides is a strict weak order. -/
theorem weakOrder_key {κ : Type} [LinearOrder κ] {lt : Connection → Connection → Bool}
    (key : Connection → κ) (h : ∀ a b, lt a b = true ↔ key a < key b) : WeakOrder lt := by
  have : lt = fun a b => decide (key a < key b) := by
    funext a b
    rw [Bool.eq_iff_iff, h, decide_eq_true_eq]
  rw [this]
  exact weakOrder_comap (f := key) weakOrder_lt

theorem compareAddress_iff (st : ConnectionStorage) (a b : Address) :
    compareAddress st a b = true ↔
      toLex (a.getType.toNat, (st.addressData a).numericString) <
        toLex (b.getType.toNat, (st.addressData b).numericString) := by
  rw [Prod.Lex.toLex_lt_toLex, compareAddress]
  cases a.getType <;> cases b.getType <;> simp [EAddressType.toNat]

/-- The protocol of a connection type, and the state, are compared lexicographically. -/
theorem compareProtoState_iff (st : ConnectionStorage) (a b : Connection) :
    compareProtoState st a b = true ↔
      toLex (a.getType.toNat / 2, (st.connectionData a).state) <
        toLex (b.getType.toNat / 2, (st.connectionData b).state) := by
  rw [Prod.Lex.toLex_lt_toLex, compareProtoState]
  cases a.getType <;> cases b.getType <;>
    simp [EConnectionType.toNat, EConnectionType.isProtoEqual]

theorem comparePort_eq (f : Connection → Connection → Bool) : comparePort f = f := by
  funext a b
  simp [comparePort]

theorem compareTraffic_weakOrder (st : ConnectionStorage) (f : ConnectionTraffic → UInt64) :
    WeakOrder (compareTraffic st f) :=
  weakOrder_key (fun a => (f (st.connectionData a).traffic).toNat) fun a b => by
    simp [compareTraffic, UInt64.lt_iff_toNat_lt]

theorem compareAscending_weakOrder (st : ConnectionStorage) (mode : EConnectionSortMode) :
    WeakOrder (compareAscending st mode) := by
  cases mode with
  | none => exact weakOrder_false
  | proto => exact weakOrder_key (fun a => a.getType.toNat) fun a b => by simp [compareAscending]
  | protoState => exact weakOrder_key _ (compareProtoState_iff st)
  | srcAddress => exact weakOrder_key _ fun a b => compareAddress_iff st a.srcAddr b.srcAddr
  | dstAddress => exact weakOrder_key _ fun a b => compareAddress_iff st a.dstAddr b.dstAddr
  | srcHostname =>
    exact weakOrder_key (fun a => (st.addressData a.srcAddr).hostname) fun a b => by
      simp [compareAscending]
  | dstHostname =>
    exact weakOrder_key (fun a => (st.addressData a.dstAddr).hostname) fun a b => by
      simp [compareAscending]
  | srcASN =>
    exact weakOrder_key (fun a => (st.addressData a.srcAddr).asn.number.toNat) fun a b => by
      simp [compareAscending, BitVec.lt_def]
  | dstASN =>
    exact weakOrder_key (fun a => (st.addressData a.dstAddr).asn.number.toNat) fun a b => by
      simp [compareAscending, BitVec.lt_def]
  | srcCountry =>
    exact weakOrder_key (fun a => (st.addressData a.srcAddr).country) fun a b => by
      simp [compareAscending]
  | dstCountry =>
    exact weakOrder_key (fun a => (st.addressData a.dstAddr).country) fun a b => by
      simp [compareAscending]
  | srcPort =>
    exact weakOrder_key (fun a => a.srcPort.number.toNat) fun a b => by
      simp [compareAscending, comparePort_eq, BitVec.lt_def]
  | dstPort =>
    exact weakOrder_key (fun a => a.dstPort.number.toNat) fun a b => by
      simp [compareAscending, comparePort_eq, BitVec.lt_def]
  | srcService =>
    exact weakOrder_key (fun a => (st.portData a.srcPort).service) fun a b => by
      simp [compareAscending, comparePort_eq]
  | dstService =>
    exact weakOrder_key (fun a => (st.portData a.dstPort).service) fun a b => by
      simp [compareAscending, comparePort_eq]
  | rxPackets | txPackets | rxBytes | txBytes | rxSpeed | txSpeed =>
    exact compareTraffic_weakOrder st _

/-- **Every sort mode and direction compares by a strict weak order.** -/
theorem compareFunc_weakOrder (st : ConnectionStorage) (mode : EConnectionSortMode)
    (isAscending : Bool) : WeakOrder (compareFunc st mode isAscending) := by
  cases isAscending
  · exact weakOrder_swap (compareAscending_weakOrder st mode)
  · exact compareAscending_weakOrder st mode

/-! ## What a comparison reads -/

/-- Two storages have the same data for a connection and its ends. -/
structure AgreeOn (st st' : ConnectionStorage) (c : Connection) : Prop where
  data : st.connectionData c = st'.connectionData c
  srcAddr : st.addressData c.srcAddr = st'.addressData c.srcAddr
  dstAddr : st.addressData c.dstAddr = st'.addressData c.dstAddr
  srcPort : st.portData c.srcPort = st'.portData c.srcPort
  dstPort : st.portData c.dstPort = st'.portData c.dstPort

theorem compareAscending_congr (mode : EConnectionSortMode) (ha : AgreeOn st st' a)
    (hb : AgreeOn st st' b) : compareAscending st mode a b = compareAscending st' mode a b := by
  cases mode <;>
    simp only [compareAscending, compareProtoState, compareAddress, comparePort, compareTraffic,
      ha.data, ha.srcAddr, ha.dstAddr, ha.srcPort, ha.dstPort,
      hb.data, hb.srcAddr, hb.dstAddr, hb.srcPort, hb.dstPort]

theorem compareFunc_congr (mode : EConnectionSortMode) (isAscending : Bool)
    (ha : AgreeOn st st' a) (hb : AgreeOn st st' b) :
    compareFunc st mode isAscending a b = compareFunc st' mode isAscending a b := by
  unfold compareFunc
  rw [compareAscending_congr mode ha hb, compareAscending_congr mode hb ha]

/-- Whether the order of a mode depends on what is resolved for addresses. -/
def addressMayAffectOrder : EConnectionSortMode → Bool
  | .srcHostname | .dstHostname | .srcCountry | .dstCountry | .srcASN | .dstASN => true
  | _ => false

/-- Whether the order of a mode depends on what is resolved for ports. -/
def portMayAffectOrder : EConnectionSortMode → Bool
  | .srcService | .dstService => true
  | _ => false

/-- The other modes read nothing of an address that its resolution changes. -/
theorem compareFunc_setAddressData {mode : EConnectionSortMode} (isAscending : Bool)
    (h : addressMayAffectOrder mode = false) (x : Address) (d : AddressData)
    (hd : d.numericString = (st.addressData x).numericString) :
    compareFunc (st.setAddressData x d) mode isAscending = compareFunc st mode isAscending := by
  have hnum : ∀ y, ((st.setAddressData x d).addressData y).numericString =
      (st.addressData y).numericString := by
    intro y
    rw [ConnectionStorage.addressData_setAddressData]
    split_ifs with hy
    · rw [hd, hy.1]
    · rfl
  have hmode : compareAscending (st.setAddressData x d) mode = compareAscending st mode := by
    funext a b
    cases mode with
    | srcAddress | dstAddress => simp only [compareAscending, compareAddress, hnum]
    | srcHostname | dstHostname | srcCountry | dstCountry | srcASN | dstASN =>
      simp [addressMayAffectOrder] at h
    | _ => rfl
  unfold compareFunc
  rw [hmode]

theorem compareFunc_setPortData {mode : EConnectionSortMode} (isAscending : Bool)
    (h : portMayAffectOrder mode = false) (p : Port) (d : PortData) :
    compareFunc (st.setPortData p d) mode isAscending = compareFunc st mode isAscending := by
  have hmode : compareAscending (st.setPortData p d) mode = compareAscending st mode := by
    funext a b
    cases mode with
    | srcService | dstService => simp [portMayAffectOrder] at h
    | _ => rfl
  unfold compareFunc
  rw [hmode]

end Conntop
