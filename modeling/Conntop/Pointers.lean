import Conntop.ConnectionStorage
import Conntop.Lib.GuardedRun
import Conntop.Lib.NodeTable

/-!
# `ConnectionStorage` with pointers

The storage as it is in memory: four hash tables of nodes. A `Connection` is made of pointers to
the data of its ends, and is compared and hashed by them. `Conntop.ConnectionStorage` is keyed by
values instead.

* A pointer is the location of the node that it points into. A node that `emplace` makes is at a
  location of its own: none of the nodes that are there.
* Address and port data point to the key of their own node, connection data to its connection.
* `StdHash` is `std::hash` for the types that are used, and `size_t` has 32 or 64 bits.

A `Session` is a storage with what it has returned and the `Connection` objects that were built of
that. `Contents` is what a storage is for: the addresses and ports that are there, and a finite map
from 5-tuples to traffic and state.

Main results: `Interned.isEqual_iff`, pointers are compared as the values would be, and for each
operation what it does on the values: `Interned.addIP4Address`, `Wf.addConnection` and the others.
-/

namespace Conntop.Pointers

abbrev Pointer := ℕ

/-! ## Keys -/

structure AddressIP4 where
  raw : BitVec 32
  deriving DecidableEq, Repr

structure AddressIP6 where
  raw0 : BitVec 32
  raw1 : BitVec 32
  raw2 : BitVec 32
  raw3 : BitVec 32
  deriving DecidableEq, Repr

def AddressIP4.toAddress (a : AddressIP4) : Address := .ip4 a.raw

def AddressIP6.toAddress (a : AddressIP6) : Address := .ip6 a.raw0 a.raw1 a.raw2 a.raw3

/-- `Connection::Internal` -/
structure Internal where
  type : EConnectionType
  srcPort : Pointer
  dstPort : Pointer
  deriving DecidableEq, Repr

structure Connection where
  srcAddr : Pointer
  dstAddr : Pointer
  internal : Internal
  deriving DecidableEq, Repr

def AddressIP4.isEqual (a b : AddressIP4) : Bool := a.raw == b.raw

def AddressIP6.isEqual (a b : AddressIP6) : Bool :=
  a.raw3 == b.raw3 && a.raw2 == b.raw2 && a.raw1 == b.raw1 && a.raw0 == b.raw0

def portIsEqual (a b : Port) : Bool := a.type == b.type && a.number == b.number

def Internal.isEqual (a b : Internal) : Bool :=
  if a.type = b.type then
    match a.type with
    | .udp4 | .udp6 | .tcp4 | .tcp6 => a.srcPort == b.srcPort && a.dstPort == b.dstPort
  else false

def Connection.isEqual (a b : Connection) : Bool :=
  a.srcAddr == b.srcAddr && a.dstAddr == b.dstAddr && a.internal.isEqual b.internal

/-! ## Hashes -/

def hashCombine32 (seed hash : UInt32) : UInt32 :=
  let hash := hash * 0xcc9e2d51
  let hash := (hash <<< 15) ||| (hash >>> (32 - 15))
  let hash := hash * 0x1b873593
  let seed := seed ^^^ hash
  let seed := (seed <<< 13) ||| (seed >>> (32 - 13))
  seed * 5 + 0xe6546b64

def hashCombine64 (seed hash : UInt64) : UInt64 :=
  let m := 0xc6a4a7935bd1e995
  let hash := hash * m
  let hash := hash ^^^ (hash >>> 47)
  let hash := hash * m
  (seed ^^^ hash) * m + 0xe6546b64

/-- `size_t` -/
class SizeT (σ : Type) where
  hashCombine : σ → σ → σ

instance : SizeT UInt32 := { hashCombine := hashCombine32 }

instance : SizeT UInt64 := { hashCombine := hashCombine64 }

structure StdHash (σ : Type) where
  int : ℤ → σ
  uint16 : BitVec 16 → σ
  uint32 : BitVec 32 → σ
  pointer : Pointer → σ

namespace StdHash

open SizeT

variable {σ : Type} [SizeT σ] (std : StdHash σ)

def hashIP4 (a : AddressIP4) : σ := std.uint32 a.raw

def hashIP6 (a : AddressIP6) : σ :=
  hashCombine (hashCombine (hashCombine (std.uint32 a.raw0) (std.uint32 a.raw1))
    (std.uint32 a.raw2)) (std.uint32 a.raw3)

/-- The numeric value of the enumerator. -/
def portTypeNumber : EPortType → ℤ
  | .udp => 0
  | .tcp => 1

def hashPort (p : Port) : σ := hashCombine (std.uint16 p.number) (std.int (portTypeNumber p.type))

def internalHash (i : Internal) : σ :=
  let h := std.int i.type.toNat
  match i.type with
  | .udp4 | .udp6 | .tcp4 | .tcp6 =>
    hashCombine (hashCombine h (std.pointer i.srcPort)) (std.pointer i.dstPort)

def computeHash (c : Connection) : σ :=
  hashCombine (hashCombine (std.internalHash c.internal) (std.pointer c.srcAddr))
    (std.pointer c.dstAddr)

def ip4Ops : KeyOps AddressIP4 σ := { hash := std.hashIP4, equal := AddressIP4.isEqual }

def ip6Ops : KeyOps AddressIP6 σ := { hash := std.hashIP6, equal := AddressIP6.isEqual }

def portOps : KeyOps Port σ := { hash := std.hashPort, equal := portIsEqual }

def connectionOps : KeyOps Connection σ := { hash := std.computeHash, equal := Connection.isEqual }

end StdHash

/-! ## The storage -/

structure AddressData where
  pAddress : Pointer
  data : Conntop.AddressData

/-- The constructor of `AddressData`. -/
def newAddressData (inet : InetText) (address : Address) : Conntop.AddressData :=
  { numericString := inet.ntop address, country := ⟨0, by decide⟩ }

structure PortData where
  pPort : Pointer
  data : Conntop.PortData

structure ConnectionData where
  pConnection : Pointer
  data : Conntop.ConnectionData

structure ConnectionStorage where
  connectionMap : NodeTable Connection ConnectionData := []
  addressIP4Map : NodeTable AddressIP4 AddressData := []
  addressIP6Map : NodeTable AddressIP6 AddressData := []
  portMap : NodeTable Port PortData := []

namespace ConnectionStorage

variable {σ : Type} [DecidableEq σ] [SizeT σ] (std : StdHash σ) (st : ConnectionStorage)

/-- The locations of all nodes. -/
def locations : List Pointer :=
  st.connectionMap.locs ++ (st.addressIP4Map.locs ++ (st.addressIP6Map.locs ++ st.portMap.locs))

/-- A new node is at `loc`, and its data points to the key in it. -/
def addIP4Address (inet : InetText) (loc : Pointer) (address : AddressIP4) :
    (Pointer × Bool) × ConnectionStorage :=
  let result := st.addressIP4Map.emplace std.ip4Ops loc address
    { pAddress := loc, data := newAddressData inet address.toAddress }
  ((result.1.1.loc, result.1.2), { st with addressIP4Map := result.2 })

def addIP6Address (inet : InetText) (loc : Pointer) (address : AddressIP6) :
    (Pointer × Bool) × ConnectionStorage :=
  let result := st.addressIP6Map.emplace std.ip6Ops loc address
    { pAddress := loc, data := newAddressData inet address.toAddress }
  ((result.1.1.loc, result.1.2), { st with addressIP6Map := result.2 })

def addPort (loc : Pointer) (port : Port) : (Pointer × Bool) × ConnectionStorage :=
  let result := st.portMap.emplace std.portOps loc port { pPort := loc, data := {} }
  ((result.1.1.loc, result.1.2), { st with portMap := result.2 })

/-- The node of the connection, and whether it is new. -/
def addConnection (loc : Pointer) (c : Connection) (data : Conntop.ConnectionData) :
    (Node Connection ConnectionData × Bool) × ConnectionStorage :=
  let result := st.connectionMap.emplace std.connectionOps loc c { pConnection := loc, data }
  (result.1, { st with connectionMap := result.2 })

/-- The node that is removed. -/
def removeConnection (c : Connection) :
    Option (Node Connection ConnectionData) × ConnectionStorage :=
  match st.connectionMap.find std.connectionOps c with
  | some n =>
    (some n, { st with connectionMap := st.connectionMap.erase std.connectionOps c })
  | none => (none, st)

def clearConnections : ConnectionStorage := { st with connectionMap := [] }

def getConnection (c : Connection) : Option (Node Connection ConnectionData) :=
  st.connectionMap.find std.connectionOps c

def getIP4Address (address : AddressIP4) : Option Pointer :=
  (st.addressIP4Map.find std.ip4Ops address).map (·.loc)

def getIP6Address (address : AddressIP6) : Option Pointer :=
  (st.addressIP6Map.find std.ip6Ops address).map (·.loc)

def getPort (port : Port) : Option Pointer := (st.portMap.find std.portOps port).map (·.loc)

/-! Reading through pointers. A dangling one reads as zeros. -/

def addressData (p : Pointer) : Option AddressData :=
  match st.addressIP4Map.deref p with
  | some n => some n.value
  | none => (st.addressIP6Map.deref p).map (·.value)

/-- `*m_pAddress` of the data at `p`. -/
def addressAt (p : Pointer) : Address :=
  match st.addressData p with
  | none => .ip4 0
  | some d =>
    match st.addressIP4Map.deref d.pAddress with
    | some n => n.key.toAddress
    | none =>
      match st.addressIP6Map.deref d.pAddress with
      | some n => n.key.toAddress
      | none => .ip4 0

/-- `*m_pPort` of the data at `p`. -/
def portAt (p : Pointer) : Port :=
  match (st.portMap.deref p).bind fun n => st.portMap.deref n.value.pPort with
  | some n => n.key
  | none => { type := .udp, number := 0 }

/-- The constructor of `Connection`. -/
def connection (srcAddress srcPort dstAddress dstPort : Pointer) : Connection :=
  { srcAddr := srcAddress
    dstAddr := dstAddress
    internal :=
      { type := .createType (st.addressAt srcAddress).getType (st.portAt srcPort).type
        srcPort := srcPort
        dstPort := dstPort } }

end ConnectionStorage

/-! ## Calls -/

/-- The calls, with connections of the type `κ`. A call that may make a node is given a location for
it. -/
inductive Call (κ : Type)
  | addIP4Address (loc : Pointer) (address : AddressIP4)
  | addIP6Address (loc : Pointer) (address : AddressIP6)
  | addPort (loc : Pointer) (port : Port)
  | getIP4Address (address : AddressIP4)
  | getIP6Address (address : AddressIP6)
  | getPort (port : Port)
  | construct (srcAddress srcPort dstAddress dstPort : Pointer)
  | addConnection (loc : Pointer) (c : κ) (data : Conntop.ConnectionData)
  | removeConnection (c : κ)
  | clearConnections
  | getConnection (c : κ)
  deriving DecidableEq

namespace Call

variable {κ κ' : Type}

def map (f : κ → κ') : Call κ → Call κ'
  | addIP4Address loc a => addIP4Address loc a
  | addIP6Address loc a => addIP6Address loc a
  | addPort loc p => addPort loc p
  | getIP4Address a => getIP4Address a
  | getIP6Address a => getIP6Address a
  | getPort p => getPort p
  | construct srcAddress srcPort dstAddress dstPort =>
    construct srcAddress srcPort dstAddress dstPort
  | addConnection loc c d => addConnection loc (f c) d
  | removeConnection c => removeConnection (f c)
  | clearConnections => clearConnections
  | getConnection c => getConnection (f c)

/-- The address that is asked for. -/
def address? : Call κ → Option Address
  | addIP4Address _ a | getIP4Address a => some a.toAddress
  | addIP6Address _ a | getIP6Address a => some a.toAddress
  | _ => none

def port? : Call κ → Option Port
  | addPort _ p | getPort p => some p
  | _ => none

def connection? : Call κ → Option κ
  | addConnection _ c _ | removeConnection c | getConnection c => some c
  | _ => none

theorem map_congr {call : Call κ} {f g : κ → κ'} (h : ∀ c, call.connection? = some c → f c = g c) :
    call.map f = call.map g := by
  cases call with
  | addConnection loc c d => exact congrArg (addConnection loc · d) (h c rfl)
  | removeConnection c => exact congrArg removeConnection (h c rfl)
  | getConnection c => exact congrArg getConnection (h c rfl)
  | _ => rfl

end Call

/-- What a call returns: a pointer, unless it is null, whether the node is new, and what is read
through a pointer to connection data. -/
structure Result where
  pointer : Option Pointer := none
  isNew : Bool := false
  data : Option Conntop.ConnectionData := none
  deriving DecidableEq

/-- The storage, the pointers that it returned, and the connections that were built. -/
structure Session where
  storage : ConnectionStorage := {}
  addresses : List Pointer := []
  ports : List Pointer := []
  built : List Connection := []

namespace Session

variable {σ : Type} [DecidableEq σ] [SizeT σ] (std : StdHash σ) (inet : InetText) (s : Session)

def returnAddress (r : Pointer × Bool) (st : ConnectionStorage) : Result × Session :=
  ({ pointer := some r.1, isNew := r.2 }, { s with storage := st, addresses := r.1 :: s.addresses })

def returnPort (r : Pointer × Bool) (st : ConnectionStorage) : Result × Session :=
  ({ pointer := some r.1, isNew := r.2 }, { s with storage := st, ports := r.1 :: s.ports })

def returnNode (n : Option (Node Connection ConnectionData)) (isNew : Bool)
    (st : ConnectionStorage) : Result × Session :=
  ({ pointer := n.map (·.loc), isNew, data := n.map (·.value.data) }, { s with storage := st })

def step : Call Connection → Option (Result × Session)
  | .addIP4Address loc a =>
    if loc ∈ s.storage.locations then none
    else
      let result := s.storage.addIP4Address std inet loc a
      some (s.returnAddress result.1 result.2)
  | .addIP6Address loc a =>
    if loc ∈ s.storage.locations then none
    else
      let result := s.storage.addIP6Address std inet loc a
      some (s.returnAddress result.1 result.2)
  | .addPort loc p =>
    if loc ∈ s.storage.locations then none
    else
      let result := s.storage.addPort std loc p
      some (s.returnPort result.1 result.2)
  | .getIP4Address a =>
    some (({ pointer := s.storage.getIP4Address std a } : Result),
      { s with addresses := (s.storage.getIP4Address std a).toList ++ s.addresses })
  | .getIP6Address a =>
    some (({ pointer := s.storage.getIP6Address std a } : Result),
      { s with addresses := (s.storage.getIP6Address std a).toList ++ s.addresses })
  | .getPort p =>
    some (({ pointer := s.storage.getPort std p } : Result),
      { s with ports := (s.storage.getPort std p).toList ++ s.ports })
  | .construct srcAddress srcPort dstAddress dstPort =>
    if srcAddress ∈ s.addresses ∧ srcPort ∈ s.ports ∧ dstAddress ∈ s.addresses ∧
        dstPort ∈ s.ports then
      some ({}, { s with
        built := s.storage.connection srcAddress srcPort dstAddress dstPort :: s.built })
    else none
  | .addConnection loc c d =>
    if loc ∈ s.storage.locations ∨ c ∉ s.built then none
    else
      let result := s.storage.addConnection std loc c d
      some (s.returnNode (some result.1.1) result.1.2 result.2)
  | .removeConnection c =>
    if c ∈ s.built then
      let result := s.storage.removeConnection std c
      some (s.returnNode result.1 false result.2)
    else none
  | .clearConnections => some ({}, { s with storage := s.storage.clearConnections })
  | .getConnection c =>
    if c ∈ s.built then some (s.returnNode (s.storage.getConnection std c) false s.storage)
    else none

end Session

/-! ## What a storage is for -/

/-- A connection by value. -/
structure Tuple where
  srcAddr : Address
  srcPort : Port
  dstAddr : Address
  dstPort : Port
  deriving DecidableEq, Repr

/-- What a call returns of the values. -/
structure Answer where
  found : Bool := false
  isNew : Bool := false
  data : Option Conntop.ConnectionData := none
  deriving DecidableEq

def Result.answer (r : Result) : Answer :=
  { found := r.pointer.isSome, isNew := r.isNew, data := r.data }

@[ext]
structure Contents where
  addresses : Finset Address := ∅
  ports : Finset Port := ∅
  connections : Finmap fun _ : Tuple => Conntop.ConnectionData := ∅

namespace Contents

variable (m : Contents)

def addAddress (a : Address) : Answer × Contents :=
  ({ found := true, isNew := a ∉ m.addresses }, { m with addresses := insert a m.addresses })

def addPort (p : Port) : Answer × Contents :=
  ({ found := true, isNew := p ∉ m.ports }, { m with ports := insert p m.ports })

/-- Adding a key that is there changes nothing. -/
def addConnection (c : Tuple) (d : Conntop.ConnectionData) : Answer × Contents :=
  if c ∈ m.connections then ({ found := true, data := m.connections.lookup c }, m)
  else
    ({ found := true, isNew := true, data := some d },
      { m with connections := m.connections.insert c d })

/-- Removing a key that is not there changes nothing. -/
def removeConnection (c : Tuple) : Answer × Contents :=
  ({ found := c ∈ m.connections, data := m.connections.lookup c },
    { m with connections := m.connections.erase c })

def getConnection (c : Tuple) : Answer :=
  { found := c ∈ m.connections, data := m.connections.lookup c }

def step : Call Tuple → Answer × Contents
  | .addIP4Address _ a => m.addAddress a.toAddress
  | .addIP6Address _ a => m.addAddress a.toAddress
  | .addPort _ p => m.addPort p
  | .getIP4Address a => ({ found := a.toAddress ∈ m.addresses }, m)
  | .getIP6Address a => ({ found := a.toAddress ∈ m.addresses }, m)
  | .getPort p => ({ found := p ∈ m.ports }, m)
  | .construct .. => ({}, m)
  | .addConnection _ c d => m.addConnection c d
  | .removeConnection c => m.removeConnection c
  | .clearConnections => ({}, { m with connections := ∅ })
  | .getConnection c => (m.getConnection c, m)

/-- The answers to a list of calls, and the contents behind them. -/
def run : Contents → List (Call Tuple) → List Answer × Contents
  | m, [] => ([], m)
  | m, call :: calls => ((m.step call).1 :: (run (m.step call).2 calls).1,
      (run (m.step call).2 calls).2)

end Contents

namespace ConnectionStorage

variable (st : ConnectionStorage)

/-- What a connection stands for. -/
def valueOf (c : Connection) : Tuple :=
  { srcAddr := st.addressAt c.srcAddr
    srcPort := st.portAt c.internal.srcPort
    dstAddr := st.addressAt c.dstAddr
    dstPort := st.portAt c.internal.dstPort }

def contents : Contents where
  addresses :=
    (st.addressIP4Map.map fun n => n.key.toAddress).toFinset ∪
      (st.addressIP6Map.map fun n => n.key.toAddress).toFinset
  ports := (st.portMap.map (·.key)).toFinset
  connections := NodeTable.contents st.valueOf (·.data) st.connectionMap

end ConnectionStorage

/-! ## Equality and hashes -/

theorem Internal.isEqual_iff {i j : Internal} : i.isEqual j = true ↔ i = j := by
  unfold Internal.isEqual
  cases i with
  | mk type src dst =>
    cases j with
    | mk type' src' dst' =>
      by_cases h : type = type'
      · subst h
        cases type <;> simp
      · simp [h]

/-- Pointers are compared, and the type. -/
theorem Connection.isEqual_iff {c d : Connection} : c.isEqual d = true ↔ c = d := by
  unfold Connection.isEqual
  rw [Bool.and_eq_true, Bool.and_eq_true, Internal.isEqual_iff, beq_iff_eq, beq_iff_eq]
  cases c
  cases d
  simp [and_assoc]

namespace StdHash

variable {σ : Type} [SizeT σ] (std : StdHash σ)

omit [SizeT σ] in
theorem ip4_respects : std.ip4Ops.Respects (fun _ => True) AddressIP4.toAddress where
  equal_iff := by
    rintro ⟨a⟩ ⟨b⟩ - -
    simp [ip4Ops, AddressIP4.isEqual, AddressIP4.toAddress]
  hash_eq := by
    rintro ⟨a⟩ ⟨b⟩ - - h
    cases h
    rfl

theorem ip6_respects : std.ip6Ops.Respects (fun _ => True) AddressIP6.toAddress where
  equal_iff := by
    rintro ⟨a₀, a₁, a₂, a₃⟩ ⟨b₀, b₁, b₂, b₃⟩ - -
    simp [ip6Ops, AddressIP6.isEqual, AddressIP6.toAddress]
    tauto
  hash_eq := by
    rintro ⟨a₀, a₁, a₂, a₃⟩ ⟨b₀, b₁, b₂, b₃⟩ - - h
    cases h
    rfl

theorem port_respects : std.portOps.Respects (fun _ => True) (fun p => p) where
  equal_iff := by
    rintro ⟨type, number⟩ ⟨type', number'⟩ - -
    simp [portOps, portIsEqual]
  hash_eq := by
    rintro p q - - rfl
    rfl

end StdHash

/-! ## Interned data -/

namespace ConnectionStorage

variable {st st' : ConnectionStorage} {p q : Pointer} {c d : Connection}

def IsAddress (st : ConnectionStorage) (p : Pointer) : Prop :=
  p ∈ st.addressIP4Map.locs ∨ p ∈ st.addressIP6Map.locs

def IsPort (st : ConnectionStorage) (p : Pointer) : Prop := p ∈ st.portMap.locs

/-- The connection points to data that is there, and has the type of its source. -/
structure Valid (st : ConnectionStorage) (c : Connection) : Prop where
  srcAddr : st.IsAddress c.srcAddr
  dstAddr : st.IsAddress c.dstAddr
  srcPort : st.IsPort c.internal.srcPort
  dstPort : st.IsPort c.internal.dstPort
  type : c.internal.type =
    .createType (st.addressAt c.srcAddr).getType (st.portAt c.internal.srcPort).type

/-- Each address and each port is in one node, no two nodes are at one location, and all data points
to its own node. -/
structure Interned (st : ConnectionStorage) : Prop where
  ip4 : NodeTable.Wf (fun _ => True) AddressIP4.toAddress st.addressIP4Map
  ip4Self : ∀ n ∈ st.addressIP4Map, n.value.pAddress = n.loc
  ip6 : NodeTable.Wf (fun _ => True) AddressIP6.toAddress st.addressIP6Map
  ip6Self : ∀ n ∈ st.addressIP6Map, n.value.pAddress = n.loc
  ports : NodeTable.Wf (fun _ => True) (fun p => p) st.portMap
  portsSelf : ∀ n ∈ st.portMap, n.value.pPort = n.loc
  nodup : st.locations.Nodup

theorem interned_empty : Interned {} where
  ip4 := NodeTable.wf_nil
  ip4Self := by simp
  ip6 := NodeTable.wf_nil
  ip6Self := by simp
  ports := NodeTable.wf_nil
  portsSelf := by simp
  nodup := by simp [locations, NodeTable.locs]

theorem Interned.notMem_ip4 (hi : st.Interned) (hp : p ∈ st.addressIP6Map.locs) :
    p ∉ st.addressIP4Map.locs := by
  have h := hi.nodup
  unfold locations at h
  rw [List.nodup_append, List.nodup_append, List.nodup_append] at h
  intro hp'
  exact h.2.1.2.2 p hp' p (List.mem_append_left _ hp) rfl

theorem Interned.deref_ip4 (hi : st.Interned) {n : Node AddressIP4 AddressData}
    (hn : n ∈ st.addressIP4Map) : st.addressIP4Map.deref n.loc = some n :=
  hi.ip4.deref_eq_some_iff.mpr ⟨hn, rfl⟩

theorem Interned.deref_ip6 (hi : st.Interned) {n : Node AddressIP6 AddressData}
    (hn : n ∈ st.addressIP6Map) :
    st.addressIP4Map.deref n.loc = none ∧ st.addressIP6Map.deref n.loc = some n := by
  refine ⟨?_, hi.ip6.deref_eq_some_iff.mpr ⟨hn, rfl⟩⟩
  rw [Option.eq_none_iff_forall_ne_some]
  intro m hm
  obtain ⟨hmem, hloc⟩ := hi.ip4.deref_eq_some_iff.mp hm
  exact hi.notMem_ip4 (NodeTable.mem_locs.mpr ⟨n, hn, rfl⟩) (NodeTable.mem_locs.mpr ⟨m, hmem, hloc⟩)

theorem Interned.addressAt_ip4 (hi : st.Interned) {n : Node AddressIP4 AddressData}
    (hn : n ∈ st.addressIP4Map) : st.addressAt n.loc = n.key.toAddress := by
  simp [addressAt, addressData, hi.deref_ip4 hn, hi.ip4Self n hn]

theorem Interned.addressAt_ip6 (hi : st.Interned) {n : Node AddressIP6 AddressData}
    (hn : n ∈ st.addressIP6Map) : st.addressAt n.loc = n.key.toAddress := by
  simp [addressAt, addressData, hi.deref_ip6 hn, hi.ip6Self n hn]

theorem Interned.portAt (hi : st.Interned) {n : Node Port PortData} (hn : n ∈ st.portMap) :
    st.portAt n.loc = n.key := by
  have hderef : st.portMap.deref n.loc = some n := hi.ports.deref_eq_some_iff.mpr ⟨hn, rfl⟩
  simp [ConnectionStorage.portAt, hderef, hi.portsSelf n hn]

/-- **An address is at one location.** -/
theorem Interned.addressAt_inj (hi : st.Interned) (hp : st.IsAddress p) (hq : st.IsAddress q)
    (h : st.addressAt p = st.addressAt q) : p = q := by
  rcases hp with hp | hp <;> rcases hq with hq | hq <;>
    obtain ⟨m, hm, rfl⟩ := NodeTable.mem_locs.mp hp <;>
    obtain ⟨n, hn, rfl⟩ := NodeTable.mem_locs.mp hq
  · rw [hi.addressAt_ip4 hm, hi.addressAt_ip4 hn] at h
    rw [hi.ip4.eq_of_abs_eq hm hn h]
  · rw [hi.addressAt_ip4 hm, hi.addressAt_ip6 hn] at h
    cases h
  · rw [hi.addressAt_ip6 hm, hi.addressAt_ip4 hn] at h
    cases h
  · rw [hi.addressAt_ip6 hm, hi.addressAt_ip6 hn] at h
    rw [hi.ip6.eq_of_abs_eq hm hn h]

/-- **A port is at one location.** -/
theorem Interned.portAt_inj (hi : st.Interned) (hp : st.IsPort p) (hq : st.IsPort q)
    (h : st.portAt p = st.portAt q) : p = q := by
  obtain ⟨m, hm, rfl⟩ := NodeTable.mem_locs.mp hp
  obtain ⟨n, hn, rfl⟩ := NodeTable.mem_locs.mp hq
  rw [hi.portAt hm, hi.portAt hn] at h
  rw [hi.ports.eq_of_abs_eq hm hn h]

theorem Interned.valueOf_inj (hi : st.Interned) (hc : st.Valid c) (hd : st.Valid d)
    (h : st.valueOf c = st.valueOf d) : c = d := by
  have hsrc := hi.addressAt_inj hc.srcAddr hd.srcAddr (congrArg Tuple.srcAddr h)
  have hdst := hi.addressAt_inj hc.dstAddr hd.dstAddr (congrArg Tuple.dstAddr h)
  have hsrcPort := hi.portAt_inj hc.srcPort hd.srcPort (congrArg Tuple.srcPort h)
  have hdstPort := hi.portAt_inj hc.dstPort hd.dstPort (congrArg Tuple.dstPort h)
  have htype : c.internal.type = d.internal.type := by
    rw [hc.type, hd.type, hsrc, hsrcPort]
  obtain ⟨_, _, _, _, _⟩ := c
  obtain ⟨_, _, _, _, _⟩ := d
  simp_all

/-- **Pointers are compared as the values would be.** -/
theorem Interned.isEqual_iff (hi : st.Interned) (hc : st.Valid c) (hd : st.Valid d) :
    c.isEqual d = true ↔ st.valueOf c = st.valueOf d := by
  rw [Connection.isEqual_iff]
  exact ⟨congrArg _, hi.valueOf_inj hc hd⟩

theorem Interned.connection_respects {σ : Type} [SizeT σ] (std : StdHash σ) (hi : st.Interned) :
    std.connectionOps.Respects st.Valid st.valueOf where
  equal_iff := fun _ _ hc hd => hi.isEqual_iff hc hd
  hash_eq := fun _ _ hc hd h => congrArg std.computeHash (hi.valueOf_inj hc hd h)

/-! Nodes of addresses and ports stay. -/

structure Extends (st st' : ConnectionStorage) : Prop where
  ip4 : ∀ n ∈ st.addressIP4Map, n ∈ st'.addressIP4Map
  ip6 : ∀ n ∈ st.addressIP6Map, n ∈ st'.addressIP6Map
  ports : ∀ n ∈ st.portMap, n ∈ st'.portMap

theorem Extends.refl (st : ConnectionStorage) : st.Extends st :=
  ⟨fun _ h => h, fun _ h => h, fun _ h => h⟩

theorem Extends.trans {st'' : ConnectionStorage} (h : st.Extends st') (h' : st'.Extends st'') :
    st.Extends st'' :=
  ⟨fun n hn => h'.ip4 n (h.ip4 n hn), fun n hn => h'.ip6 n (h.ip6 n hn),
    fun n hn => h'.ports n (h.ports n hn)⟩

/-- **An address stays at its location.** -/
theorem Extends.address (h : st.Extends st') (hi : st.Interned) (hi' : st'.Interned)
    (hp : st.IsAddress p) : st'.IsAddress p ∧ st'.addressAt p = st.addressAt p := by
  rcases hp with hp | hp <;> obtain ⟨n, hn, rfl⟩ := NodeTable.mem_locs.mp hp
  · rw [hi.addressAt_ip4 hn, hi'.addressAt_ip4 (h.ip4 n hn)]
    exact ⟨.inl (NodeTable.mem_locs.mpr ⟨n, h.ip4 n hn, rfl⟩), rfl⟩
  · rw [hi.addressAt_ip6 hn, hi'.addressAt_ip6 (h.ip6 n hn)]
    exact ⟨.inr (NodeTable.mem_locs.mpr ⟨n, h.ip6 n hn, rfl⟩), rfl⟩

/-- **A port stays at its location.** -/
theorem Extends.port (h : st.Extends st') (hi : st.Interned) (hi' : st'.Interned)
    (hp : st.IsPort p) : st'.IsPort p ∧ st'.portAt p = st.portAt p := by
  obtain ⟨n, hn, rfl⟩ := NodeTable.mem_locs.mp hp
  rw [hi.portAt hn, hi'.portAt (h.ports n hn)]
  exact ⟨NodeTable.mem_locs.mpr ⟨n, h.ports n hn, rfl⟩, rfl⟩

theorem Extends.valueOf (h : st.Extends st') (hi : st.Interned) (hi' : st'.Interned)
    (hc : st.Valid c) : st'.valueOf c = st.valueOf c := by
  unfold ConnectionStorage.valueOf
  rw [(h.address hi hi' hc.srcAddr).2, (h.address hi hi' hc.dstAddr).2,
    (h.port hi hi' hc.srcPort).2, (h.port hi hi' hc.dstPort).2]

theorem Extends.valid (h : st.Extends st') (hi : st.Interned) (hi' : st'.Interned)
    (hc : st.Valid c) : st'.Valid c where
  srcAddr := (h.address hi hi' hc.srcAddr).1
  dstAddr := (h.address hi hi' hc.dstAddr).1
  srcPort := (h.port hi hi' hc.srcPort).1
  dstPort := (h.port hi hi' hc.dstPort).1
  type := by
    rw [(h.address hi hi' hc.srcAddr).2, (h.port hi hi' hc.srcPort).2]
    exact hc.type

/-! ## One call of the storage -/

variable {σ : Type} [DecidableEq σ] [SizeT σ] {std : StdHash σ} {inet : InetText} {loc : Pointer}

theorem mem_addresses {a : Address} : a ∈ st.contents.addresses ↔
    (∃ n ∈ st.addressIP4Map, n.key.toAddress = a) ∨
      ∃ n ∈ st.addressIP6Map, n.key.toAddress = a := by
  simp [contents]

theorem mem_ports {port : Port} :
    port ∈ st.contents.ports ↔ ∃ n ∈ st.portMap, n.key = port := by
  simp [contents]

theorem mem_addresses_ip4 {a : AddressIP4} : a.toAddress ∈ st.contents.addresses ↔
    ∃ n ∈ st.addressIP4Map, n.key.toAddress = a.toAddress := by
  rw [mem_addresses, or_iff_left]
  rintro ⟨n, -, h⟩
  cases h

theorem mem_addresses_ip6 {a : AddressIP6} : a.toAddress ∈ st.contents.addresses ↔
    ∃ n ∈ st.addressIP6Map, n.key.toAddress = a.toAddress := by
  rw [mem_addresses, or_iff_right]
  rintro ⟨n, -, h⟩
  cases h

theorem Extends.connections (h : st.Extends st') (hi : st.Interned) (hi' : st'.Interned)
    (hw : NodeTable.Wf st.Valid st.valueOf st.connectionMap)
    (hmap : st'.connectionMap = st.connectionMap) :
    NodeTable.Wf st'.Valid st'.valueOf st'.connectionMap ∧
      st'.contents.connections = st.contents.connections := by
  have hvalue : ∀ c, st.Valid c → st'.valueOf c = st.valueOf c := fun c => h.valueOf hi hi'
  unfold contents
  rw [hmap]
  refine ⟨hw.congr (fun c => h.valid hi hi') ?_, ?_⟩
  · intro c d hc hd
    rw [hvalue c hc, hvalue d hd]
    exact id
  · exact NodeTable.contents_congr fun n hn => hvalue n.key (hw.allowed n hn)

/-- What adding an address does, and what it returns. -/
structure AddsAddress (st : ConnectionStorage) (a : Address) (r : Pointer × Bool)
    (st' : ConnectionStorage) : Prop where
  interned : st'.Interned
  ext : st.Extends st'
  connectionMap : st'.connectionMap = st.connectionMap
  isAddress : st'.IsAddress r.1
  addressAt : st'.addressAt r.1 = a
  isNew : r.2 = decide (a ∉ st.contents.addresses)
  addresses : st'.contents.addresses = insert a st.contents.addresses
  ports : st'.contents.ports = st.contents.ports

/-- A node at a new location. -/
theorem nodup_locs {a b c : List Pointer} {loc : Pointer} (hn : (a ++ (b ++ c)).Nodup)
    (hloc : loc ∉ a ++ (b ++ c)) {b' : List Pointer} (hb : b' = b ∨ b' = b ++ [loc]) :
    (a ++ (b' ++ c)).Nodup := by
  rcases hb with rfl | rfl
  · exact hn
  · rw [← List.append_assoc] at hn hloc
    simpa using List.nodup_middle.mpr (List.nodup_cons.mpr ⟨hloc, hn⟩)

omit [SizeT σ] in
theorem Interned.addIP4Address (hi : st.Interned) (hloc : loc ∉ st.locations) (a : AddressIP4) :
    st.AddsAddress a.toAddress (st.addIP4Address std inet loc a).1
      (st.addIP4Address std inet loc a).2 := by
  have hloc' : loc ∉ st.addressIP4Map.locs := fun h => hloc (by simp [locations, h])
  have he := hi.ip4.emplaced std.ip4_respects trivial (k := a) hloc'
    { pAddress := loc, data := newAddressData inet a.toAddress }
  unfold ConnectionStorage.addIP4Address
  generalize st.addressIP4Map.emplace std.ip4Ops loc a _ = result at he ⊢
  have hinterned : Interned { st with addressIP4Map := result.2 } :=
    { hi with
      ip4 := he.wf
      ip4Self := by
        intro n hn
        rcases he.of_mem n hn with hn | rfl
        · exact hi.ip4Self n hn
        · rfl
      nodup := nodup_locs hi.nodup hloc he.locs }
  exact
    { interned := hinterned
      ext := ⟨he.mono, fun n hn => hn, fun n hn => hn⟩
      connectionMap := rfl
      isAddress := .inl (NodeTable.mem_locs.mpr ⟨_, he.mem, rfl⟩)
      addressAt := (hinterned.addressAt_ip4 he.mem).trans he.key
      isNew := by
        rw [Bool.eq_iff_iff, he.isNew_iff_not, decide_eq_true_eq, mem_addresses_ip4]
      addresses := by
        ext b
        rw [Finset.mem_insert, mem_addresses, mem_addresses, ← or_assoc]
        exact or_congr_left (he.exists_key_iff b)
      ports := rfl }

theorem Interned.addIP6Address (hi : st.Interned) (hloc : loc ∉ st.locations) (a : AddressIP6) :
    st.AddsAddress a.toAddress (st.addIP6Address std inet loc a).1
      (st.addIP6Address std inet loc a).2 := by
  have hloc' : loc ∉ st.addressIP6Map.locs := fun h => hloc (by simp [locations, h])
  have he := hi.ip6.emplaced std.ip6_respects trivial (k := a) hloc'
    { pAddress := loc, data := newAddressData inet a.toAddress }
  unfold ConnectionStorage.addIP6Address
  generalize st.addressIP6Map.emplace std.ip6Ops loc a _ = result at he ⊢
  have hinterned : Interned { st with addressIP6Map := result.2 } :=
    { hi with
      ip6 := he.wf
      ip6Self := by
        intro n hn
        rcases he.of_mem n hn with hn | rfl
        · exact hi.ip6Self n hn
        · rfl
      nodup := by
        have hn := hi.nodup
        unfold locations at hn hloc ⊢
        rw [← List.append_assoc] at hn hloc ⊢
        exact nodup_locs hn hloc he.locs }
  exact
    { interned := hinterned
      ext := ⟨fun n hn => hn, he.mono, fun n hn => hn⟩
      connectionMap := rfl
      isAddress := .inr (NodeTable.mem_locs.mpr ⟨_, he.mem, rfl⟩)
      addressAt := (hinterned.addressAt_ip6 he.mem).trans he.key
      isNew := by
        rw [Bool.eq_iff_iff, he.isNew_iff_not, decide_eq_true_eq, mem_addresses_ip6]
      addresses := by
        ext b
        rw [Finset.mem_insert, mem_addresses, mem_addresses, or_left_comm]
        exact or_congr_right (he.exists_key_iff b)
      ports := rfl }

structure AddsPort (st : ConnectionStorage) (port : Port) (r : Pointer × Bool)
    (st' : ConnectionStorage) : Prop where
  interned : st'.Interned
  ext : st.Extends st'
  connectionMap : st'.connectionMap = st.connectionMap
  isPort : st'.IsPort r.1
  portAt : st'.portAt r.1 = port
  isNew : r.2 = decide (port ∉ st.contents.ports)
  ports : st'.contents.ports = insert port st.contents.ports
  addresses : st'.contents.addresses = st.contents.addresses

theorem Interned.addPort (hi : st.Interned) (hloc : loc ∉ st.locations) (port : Port) :
    st.AddsPort port (st.addPort std loc port).1 (st.addPort std loc port).2 := by
  have hloc' : loc ∉ st.portMap.locs := fun h => hloc (by simp [locations, h])
  have he := hi.ports.emplaced std.port_respects trivial (k := port) hloc' { pPort := loc, data := {} }
  unfold ConnectionStorage.addPort
  generalize st.portMap.emplace std.portOps loc port _ = result at he ⊢
  have hinterned : Interned { st with portMap := result.2 } :=
    { hi with
      ports := he.wf
      portsSelf := by
        intro n hn
        rcases he.of_mem n hn with hn | rfl
        · exact hi.portsSelf n hn
        · rfl
      nodup := by
        have hn := hi.nodup
        unfold locations at hn hloc ⊢
        rw [← List.append_assoc, ← List.append_assoc, ← List.append_nil (_ ++ _),
          List.append_assoc _ _ []] at hn hloc ⊢
        exact nodup_locs hn hloc he.locs }
  exact
    { interned := hinterned
      ext := ⟨fun n hn => hn, fun n hn => hn, he.mono⟩
      connectionMap := rfl
      isPort := NodeTable.mem_locs.mpr ⟨_, he.mem, rfl⟩
      portAt := (hinterned.portAt he.mem).trans he.key
      isNew := by
        rw [Bool.eq_iff_iff, he.isNew_iff_not, decide_eq_true_eq, mem_ports]
      ports := by
        ext b
        rw [Finset.mem_insert, mem_ports, mem_ports]
        exact he.exists_key_iff b
      addresses := rfl }

/-! Lookups of addresses and ports. -/

omit [SizeT σ] in
theorem Interned.getIP4Address (hi : st.Interned) (std : StdHash σ) (a : AddressIP4) :
    ((st.getIP4Address std a).isSome ↔ a.toAddress ∈ st.contents.addresses) ∧
      ∀ p, st.getIP4Address std a = some p → st.IsAddress p ∧ st.addressAt p = a.toAddress := by
  have hfind := fun n => hi.ip4.find_eq_some_iff std.ip4_respects (k := a) (n := n) trivial
  constructor
  · rw [ConnectionStorage.getIP4Address, Option.isSome_map, Option.isSome_iff_exists,
      mem_addresses_ip4]
    exact exists_congr hfind
  · intro p hp
    obtain ⟨n, hn, rfl⟩ := Option.map_eq_some_iff.mp hp
    obtain ⟨hmem, hkey⟩ := (hfind n).mp hn
    exact ⟨.inl (NodeTable.mem_locs.mpr ⟨n, hmem, rfl⟩), (hi.addressAt_ip4 hmem).trans hkey⟩

theorem Interned.getIP6Address (hi : st.Interned) (std : StdHash σ) (a : AddressIP6) :
    ((st.getIP6Address std a).isSome ↔ a.toAddress ∈ st.contents.addresses) ∧
      ∀ p, st.getIP6Address std a = some p → st.IsAddress p ∧ st.addressAt p = a.toAddress := by
  have hfind := fun n => hi.ip6.find_eq_some_iff std.ip6_respects (k := a) (n := n) trivial
  constructor
  · rw [ConnectionStorage.getIP6Address, Option.isSome_map, Option.isSome_iff_exists,
      mem_addresses_ip6]
    exact exists_congr hfind
  · intro p hp
    obtain ⟨n, hn, rfl⟩ := Option.map_eq_some_iff.mp hp
    obtain ⟨hmem, hkey⟩ := (hfind n).mp hn
    exact ⟨.inr (NodeTable.mem_locs.mpr ⟨n, hmem, rfl⟩), (hi.addressAt_ip6 hmem).trans hkey⟩

theorem Interned.getPort (hi : st.Interned) (std : StdHash σ) (port : Port) :
    ((st.getPort std port).isSome ↔ port ∈ st.contents.ports) ∧
      ∀ p, st.getPort std port = some p → st.IsPort p ∧ st.portAt p = port := by
  have hfind := fun n => hi.ports.find_eq_some_iff std.port_respects (k := port) (n := n) trivial
  constructor
  · rw [ConnectionStorage.getPort, Option.isSome_map, Option.isSome_iff_exists, mem_ports]
    exact exists_congr hfind
  · intro p hp
    obtain ⟨n, hn, rfl⟩ := Option.map_eq_some_iff.mp hp
    obtain ⟨hmem, hkey⟩ := (hfind n).mp hn
    exact ⟨NodeTable.mem_locs.mpr ⟨n, hmem, rfl⟩, (hi.portAt hmem).trans hkey⟩

/-! Connections. -/

variable {data : Conntop.ConnectionData}

/-- The storage is well formed where it is for values, and all connections in it are valid. -/
structure Wf (st : ConnectionStorage) : Prop extends st.Interned where
  connections : NodeTable.Wf st.Valid st.valueOf st.connectionMap

theorem Wf.lookup_connections (hw : st.Wf) (std : StdHash σ) (hc : st.Valid c) :
    st.contents.connections.lookup (st.valueOf c) =
      (st.getConnection std c).map (·.value.data) :=
  hw.connections.lookup_contents (hw.connection_respects std) hc

theorem Wf.mem_connections (hw : st.Wf) (std : StdHash σ) (hc : st.Valid c) :
    st.valueOf c ∈ st.contents.connections ↔ (st.getConnection std c).isSome = true :=
  hw.connections.mem_contents (hw.connection_respects std) hc

theorem Wf.getConnection (hw : st.Wf) (std : StdHash σ) (hc : st.Valid c) :
    st.contents.getConnection (st.valueOf c) =
      { found := (st.getConnection std c).isSome
        data := (st.getConnection std c).map (·.value.data) } := by
  rw [Contents.getConnection, hw.lookup_connections std hc]
  simp [hw.mem_connections std hc]

/-- Addresses and ports stay where only the connections change. -/
theorem Wf.setConnectionMap (hw : st.Wf) {t : NodeTable Connection ConnectionData}
    (hn : ({ st with connectionMap := t } : ConnectionStorage).locations.Nodup)
    (ht : NodeTable.Wf st.Valid st.valueOf t) : Wf { st with connectionMap := t } :=
  { hw with
    nodup := hn
    connections := ht.congr (fun _ hc => ⟨hc.1, hc.2, hc.3, hc.4, hc.5⟩) (fun _ _ _ _ => id) }

theorem Wf.wf_addConnection (hw : st.Wf) (hc : st.Valid c) (hloc : loc ∉ st.locations) :
    (st.addConnection std loc c data).2.Wf := by
  have hloc' : loc ∉ st.connectionMap.locs := fun h => hloc (by simp [locations, h])
  have he := hw.connections.emplaced (hw.connection_respects std) hc hloc'
    ({ pConnection := loc, data } : ConnectionData)
  exact hw.setConnectionMap (nodup_locs (a := []) hw.nodup hloc he.locs) he.wf

/-- Adding a connection that is there changes nothing. -/
theorem Wf.addConnection (hw : st.Wf) (hc : st.Valid c) (hloc : loc ∉ st.locations) :
    st.contents.addConnection (st.valueOf c) data =
      ({ found := true
         isNew := (st.addConnection std loc c data).1.2
         data := some (st.addConnection std loc c data).1.1.value.data },
        (st.addConnection std loc c data).2.contents) := by
  have hloc' : loc ∉ st.connectionMap.locs := fun h => hloc (by simp [locations, h])
  have hcontents := hw.connections.contents_emplace (f := fun d => d.data)
    (hw.connection_respects std) hc hloc' ({ pConnection := loc, data } : ConnectionData)
  have hlookup := hw.lookup_connections std hc
  have hmem := hw.mem_connections std hc
  unfold Contents.addConnection ConnectionStorage.addConnection
  unfold ConnectionStorage.getConnection at hlookup hmem
  unfold NodeTable.emplace at hcontents ⊢
  cases hfind : st.connectionMap.find std.connectionOps c with
  | some n =>
    rw [hfind] at hlookup hmem
    rw [if_pos (hmem.mpr rfl), hlookup]
    rfl
  | none =>
    rw [hfind] at hmem hcontents
    have hnew : st.valueOf c ∉ st.contents.connections := by simp [hmem]
    rw [if_neg hnew]
    exact congrArg (Prod.mk _) (Contents.ext rfl rfl (hcontents.trans (if_neg hnew)).symm)

theorem removeConnection_eq (std : StdHash σ) (st : ConnectionStorage) (c : Connection) :
    st.removeConnection std c = (st.getConnection std c,
      { st with connectionMap := st.connectionMap.erase std.connectionOps c }) := by
  unfold ConnectionStorage.removeConnection ConnectionStorage.getConnection
  cases hfind : st.connectionMap.find std.connectionOps c with
  | some n => rfl
  | none =>
    have hsame : st.connectionMap.erase std.connectionOps c = st.connectionMap :=
      List.eraseP_of_forall_not (List.find?_eq_none.mp hfind)
    rw [hsame]

theorem Wf.eraseConnection (hw : st.Wf) (std : StdHash σ) (c : Connection) :
    Wf { st with connectionMap := st.connectionMap.erase std.connectionOps c } := by
  refine hw.setConnectionMap ?_ (hw.connections.erase std.connectionOps c)
  exact hw.nodup.sublist ((List.eraseP_sublist.map _).append_right _)

/-- Removing a connection that is not there changes nothing. -/
theorem Wf.removeConnection (hw : st.Wf) (std : StdHash σ) (hc : st.Valid c) :
    st.contents.removeConnection (st.valueOf c) =
      ({ found := (st.getConnection std c).isSome
         data := (st.getConnection std c).map (·.value.data) },
        contents { st with connectionMap := st.connectionMap.erase std.connectionOps c }) := by
  have herase := hw.connections.contents_erase (f := fun d => d.data)
    (hw.connection_respects std) hc
  exact Prod.ext (hw.getConnection std hc) (Contents.ext rfl rfl herase.symm)

theorem Wf.clearConnections (hw : st.Wf) : st.clearConnections.Wf ∧
    st.clearConnections.contents = { st.contents with connections := ∅ } := by
  refine ⟨hw.setConnectionMap (hw.nodup.sublist ?_) NodeTable.wf_nil, rfl⟩
  exact (List.nil_sublist _).append_right _

end ConnectionStorage

end Conntop.Pointers
