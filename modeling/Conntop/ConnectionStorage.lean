import Conntop.Connection
import Mathlib.Data.List.AList

/-!
# `ConnectionStorage`

The maps of connections, addresses and ports. `std::unordered_map` is an `AList`: keys are
unique, and the entries stand in iteration order, of which nothing is assumed. The two address
maps of the source are one map keyed by `Address`.

Addresses and ports are interned and never removed. `getConnection` and the other lookups
return a pointer, which is the key itself when it is present.
-/

namespace Conntop

/-! ## In-place changes of a map -/

section AList

variable {κ ν : Type} [DecidableEq κ] {m : AList fun _ : κ => ν}

/-- The first entry is replaced where it has the key. -/
theorem kreplace_cons_self {k : κ} {v v' : ν} (l : List (Sigma fun _ : κ => ν)) :
    List.kreplace k v (⟨k, v'⟩ :: l) = ⟨k, v⟩ :: l :=
  List.lookmap_cons_some _ _ (by simp)

/-- An entry with another key is passed over. -/
theorem kreplace_cons_ne {k k' : κ} {v v' : ν} (h : k ≠ k') (l : List (Sigma fun _ : κ => ν)) :
    List.kreplace k v (⟨k', v'⟩ :: l) = ⟨k', v'⟩ :: List.kreplace k v l :=
  List.lookmap_cons_none _ _ (by simp [h])

/-- `replace` writes to a key that is there. -/
theorem lookup_replace_self {k : κ} {v : ν} (h : k ∈ m) : (m.replace k v).lookup k = some v := by
  obtain ⟨l, hl⟩ := m
  have hk : k ∈ l.keys := h
  show (List.kreplace k v l).dlookup k = some v
  clear hl h
  induction l with
  | nil => simp at hk
  | cons e l ih =>
    obtain ⟨k', v'⟩ := e
    by_cases hkk : k = k'
    · subst hkk
      rw [kreplace_cons_self, List.dlookup_cons_eq]
    · rw [kreplace_cons_ne hkk, List.dlookup_cons_ne _ _ hkk]
      exact ih (by simpa [hkk] using hk)

/-- `replace` leaves the other keys. -/
theorem lookup_replace_ne {k k' : κ} {v : ν} (h : k' ≠ k) :
    (m.replace k v).lookup k' = m.lookup k' := by
  obtain ⟨l, hl⟩ := m
  show (List.kreplace k v l).dlookup k' = l.dlookup k'
  clear hl
  induction l with
  | nil => rfl
  | cons e l ih =>
    obtain ⟨k₁, v₁⟩ := e
    by_cases hkk : k = k₁
    · subst hkk
      rw [kreplace_cons_self, List.dlookup_cons_ne _ _ h, List.dlookup_cons_ne _ _ h]
    · rw [kreplace_cons_ne hkk]
      by_cases h1 : k' = k₁
      · subst h1; simp
      · rw [List.dlookup_cons_ne _ _ h1, List.dlookup_cons_ne _ _ h1, ih]

/-- `replace` does nothing where the key is missing. -/
theorem replace_of_notMem {k : κ} {v : ν} (h : k ∉ m) : m.replace k v = m := by
  obtain ⟨l, hl⟩ := m
  refine AList.ext ?_
  show List.kreplace k v l = l
  exact List.kreplace_of_forall_not k v fun b hb => h (List.mem_keys_of_mem hb)

omit [DecidableEq κ] in
theorem length_keys_eq : m.keys.length = m.entries.length := by simp [AList.keys, List.keys]

end AList

/-! ## The class -/

/-- The maps. `addressMap` is both `m_addressIP4Map` and `m_addressIP6Map`. -/
structure ConnectionStorage where
  connectionMap : AList fun _ : Connection => ConnectionData := ∅
  addressMap : AList fun _ : Address => AddressData := ∅
  portMap : AList fun _ : Port => PortData := ∅

namespace ConnectionStorage

variable (st : ConnectionStorage)

/-- `addIP4Address` and `addIP6Address`: the second component tells if the address is new. -/
def addAddress (inet : InetText) (a : Address) : ConnectionStorage × Bool :=
  if a ∈ st.addressMap then (st, false)
  else ({ st with addressMap := st.addressMap.insert a { numericString := inet.ntop a } }, true)

/-- The second component tells if the port is new. -/
def addPort (p : Port) : ConnectionStorage × Bool :=
  if p ∈ st.portMap then (st, false)
  else ({ st with portMap := st.portMap.insert p {} }, true)

/-- A connection that is there keeps its data. -/
def addConnection (c : Connection) (d : ConnectionData) : ConnectionStorage × Bool :=
  if c ∈ st.connectionMap then (st, false)
  else ({ st with connectionMap := st.connectionMap.insert c d }, true)

/-- The second component tells if a node was found, and removed. -/
def removeConnection (c : Connection) : ConnectionStorage × Bool :=
  if c ∈ st.connectionMap then ({ st with connectionMap := st.connectionMap.erase c }, true)
  else (st, false)

/-- Addresses and ports stay. -/
def clearConnections : ConnectionStorage := { st with connectionMap := ∅ }

def getConnection (c : Connection) : Option Connection :=
  if c ∈ st.connectionMap then some c else none

/-- `getIP4Address` and `getIP6Address`. -/
def getAddress (a : Address) : Option Address := if a ∈ st.addressMap then some a else none

def getPort (p : Port) : Option Port := if p ∈ st.portMap then some p else none

def getConnectionCount : ℕ := st.connectionMap.entries.length

/-! Reading and writing through pointers. A dangling pointer reads as default data. -/

/-- What is read through a `ConnectionData *`. -/
def connectionData (c : Connection) : ConnectionData := (st.connectionMap.lookup c).getD {}

def addressData (a : Address) : AddressData :=
  (st.addressMap.lookup a).getD { numericString := "" }

def portData (p : Port) : PortData := (st.portMap.lookup p).getD {}

/-- An assignment through a `ConnectionData *`. -/
def setConnectionData (c : Connection) (d : ConnectionData) : ConnectionStorage :=
  { st with connectionMap := st.connectionMap.replace c d }

def setAddressData (a : Address) (d : AddressData) : ConnectionStorage :=
  { st with addressMap := st.addressMap.replace a d }

def setPortData (p : Port) (d : PortData) : ConnectionStorage :=
  { st with portMap := st.portMap.replace p d }

/-- The data of both addresses and both ports is there: a `Connection` object is made of
references to them. -/
def HasEnds (c : Connection) : Prop :=
  c.srcAddr ∈ st.addressMap ∧ c.dstAddr ∈ st.addressMap ∧
    c.srcPort ∈ st.portMap ∧ c.dstPort ∈ st.portMap

instance (c : Connection) : Decidable (st.HasEnds c) := inferInstanceAs (Decidable (_ ∧ _))

/-! ## What the operations change -/

variable {st}

theorem isNone_getAddress (a : Address) :
    (st.getAddress a).isNone = decide (a ∉ st.addressMap) := by
  unfold getAddress
  split_ifs with ha <;> simp [ha]

theorem isNone_getPort (p : Port) : (st.getPort p).isNone = decide (p ∉ st.portMap) := by
  unfold getPort
  split_ifs with hp <;> simp [hp]

@[simp] theorem addAddress_connectionMap (inet : InetText) (a : Address) :
    (st.addAddress inet a).1.connectionMap = st.connectionMap := by
  unfold addAddress; split_ifs <;> rfl

@[simp] theorem addAddress_portMap (inet : InetText) (a : Address) :
    (st.addAddress inet a).1.portMap = st.portMap := by
  unfold addAddress; split_ifs <;> rfl

@[simp] theorem addPort_connectionMap (p : Port) :
    (st.addPort p).1.connectionMap = st.connectionMap := by
  unfold addPort; split_ifs <;> rfl

@[simp] theorem addPort_addressMap (p : Port) :
    (st.addPort p).1.addressMap = st.addressMap := by
  unfold addPort; split_ifs <;> rfl

@[simp] theorem mem_addAddress (inet : InetText) (a b : Address) :
    b ∈ (st.addAddress inet a).1.addressMap ↔ b = a ∨ b ∈ st.addressMap := by
  unfold addAddress
  split_ifs with h
  · exact ⟨Or.inr, fun hb => hb.elim (fun hb => hb ▸ h) id⟩
  · simp

@[simp] theorem mem_addPort (p q : Port) :
    q ∈ (st.addPort p).1.portMap ↔ q = p ∨ q ∈ st.portMap := by
  unfold addPort
  split_ifs with h
  · exact ⟨Or.inr, fun hq => hq.elim (fun hq => hq ▸ h) id⟩
  · simp

/-- `addConnection` adds one key. -/
theorem mem_addConnection (c : Connection) (d : ConnectionData) (x : Connection) :
    x ∈ (st.addConnection c d).1.connectionMap ↔ x = c ∨ x ∈ st.connectionMap := by
  unfold addConnection
  split_ifs with h
  · exact ⟨Or.inr, fun hx => hx.elim (fun hx => hx ▸ h) id⟩
  · simp

/-- `removeConnection` removes one key. -/
theorem mem_removeConnection (c x : Connection) :
    x ∈ (st.removeConnection c).1.connectionMap ↔ x ≠ c ∧ x ∈ st.connectionMap := by
  unfold removeConnection
  split_ifs with h
  · simp
  · exact ⟨fun hx => ⟨fun hxc => h (hxc ▸ hx), hx⟩, And.right⟩

/-- The data of every connection after an addition. -/
theorem lookup_addConnection (c : Connection) (d : ConnectionData) (x : Connection) :
    (st.addConnection c d).1.connectionMap.lookup x =
      if x = c ∧ c ∉ st.connectionMap then some d else st.connectionMap.lookup x := by
  unfold addConnection
  split_ifs with h h' h'
  · exact absurd h h'.2
  · rfl
  · rw [h'.1]; exact AList.lookup_insert _
  · exact AList.lookup_insert_ne fun hx => h' ⟨hx, h⟩

/-- The data of every connection after a removal. -/
theorem lookup_removeConnection (c x : Connection) :
    (st.removeConnection c).1.connectionMap.lookup x =
      if x = c then none else st.connectionMap.lookup x := by
  unfold removeConnection
  split_ifs with h hx hx
  · rw [hx]; exact AList.lookup_erase _ _
  · exact AList.lookup_erase_ne hx
  · rw [hx]; exact AList.lookup_eq_none.mpr h
  · rfl

/-- The data of every connection after an assignment. -/
theorem lookup_setConnectionData (c : Connection) (d : ConnectionData) (x : Connection) :
    (st.setConnectionData c d).connectionMap.lookup x =
      if x = c ∧ c ∈ st.connectionMap then some d else st.connectionMap.lookup x := by
  show (st.connectionMap.replace c d).lookup x = _
  split_ifs with h
  · rw [h.1]; exact lookup_replace_self h.2
  · by_cases hx : x = c
    · rw [replace_of_notMem fun hc => h ⟨hx, hc⟩]
    · exact lookup_replace_ne hx

/-- `getConnectionCount` counts the keys. -/
theorem getConnectionCount_eq : st.getConnectionCount = st.connectionMap.keys.length :=
  length_keys_eq.symm

theorem mem_setConnectionData (c : Connection) (d : ConnectionData) (x : Connection) :
    x ∈ (st.setConnectionData c d).connectionMap ↔ x ∈ st.connectionMap :=
  AList.mem_replace

@[simp] theorem keys_setConnectionData (c : Connection) (d : ConnectionData) :
    (st.setConnectionData c d).connectionMap.keys = st.connectionMap.keys :=
  @AList.keys_replace _ (fun _ => ConnectionData) _ c d st.connectionMap

theorem mem_setAddressData (a : Address) (d : AddressData) (b : Address) :
    b ∈ (st.setAddressData a d).addressMap ↔ b ∈ st.addressMap :=
  AList.mem_replace

theorem mem_setPortData (p : Port) (d : PortData) (q : Port) :
    q ∈ (st.setPortData p d).portMap ↔ q ∈ st.portMap :=
  AList.mem_replace

/-! Addresses and ports stay. -/

theorem hasEnds_addConnection (c : Connection) (d : ConnectionData) (x : Connection) :
    (st.addConnection c d).1.HasEnds x ↔ st.HasEnds x := by
  unfold addConnection
  split_ifs <;> rfl

theorem hasEnds_removeConnection (c x : Connection) :
    (st.removeConnection c).1.HasEnds x ↔ st.HasEnds x := by
  unfold removeConnection
  split_ifs <;> rfl

/-! Data is read by key, so an operation on one key leaves what is read through another. -/

theorem addressData_addAddress (inet : InetText) (a : Address) {b : Address}
    (h : b ∈ st.addressMap) : (st.addAddress inet a).1.addressData b = st.addressData b := by
  unfold addAddress addressData
  split_ifs with ha
  · rfl
  · have hb : b ≠ a := fun hb => ha (hb ▸ h)
    rw [AList.lookup_insert_ne hb]

theorem portData_addPort (p : Port) {q : Port} (h : q ∈ st.portMap) :
    (st.addPort p).1.portData q = st.portData q := by
  unfold addPort portData
  split_ifs with hp
  · rfl
  · have hq : q ≠ p := fun hq => hp (hq ▸ h)
    rw [AList.lookup_insert_ne hq]

theorem addressData_setAddressData_ne {a b : Address} (d : AddressData) (h : b ≠ a) :
    (st.setAddressData a d).addressData b = st.addressData b := by
  unfold addressData setAddressData
  rw [lookup_replace_ne h]

theorem portData_setPortData_ne {p q : Port} (d : PortData) (h : q ≠ p) :
    (st.setPortData p d).portData q = st.portData q := by
  unfold portData setPortData
  rw [lookup_replace_ne h]

/-- What is read for an address after its data was set: that data, if the address is there. -/
theorem addressData_setAddressData (a b : Address) (d : AddressData) :
    (st.setAddressData a d).addressData b =
      if b = a ∧ a ∈ st.addressMap then d else st.addressData b := by
  unfold addressData setAddressData
  split_ifs with h
  · rw [h.1, lookup_replace_self h.2]; rfl
  · by_cases hb : b = a
    · rw [replace_of_notMem fun ha => h ⟨hb, ha⟩]
    · rw [lookup_replace_ne hb]

/-- What is read for a connection after its data was set. -/
theorem connectionData_setConnectionData (c : Connection) (d : ConnectionData) (x : Connection) :
    (st.setConnectionData c d).connectionData x =
      if x = c ∧ c ∈ st.connectionMap then d else st.connectionData x := by
  unfold connectionData
  rw [lookup_setConnectionData]
  split_ifs <;> rfl

theorem connectionData_addConnection (c : Connection) (d : ConnectionData) {x : Connection}
    (h : x ∈ st.connectionMap) :
    (st.addConnection c d).1.connectionData x = st.connectionData x := by
  unfold connectionData
  rw [lookup_addConnection, if_neg fun hx => hx.2 (hx.1 ▸ h)]

theorem connectionData_removeConnection {c x : Connection} (h : x ≠ c) :
    (st.removeConnection c).1.connectionData x = st.connectionData x := by
  unfold connectionData
  rw [lookup_removeConnection, if_neg h]

end ConnectionStorage

end Conntop
