import Conntop.Inet
import Conntop.ListDeserialize

/-!
# The conntrack collector

`Conntrack` of the Netfilter collector keeps the connections of its callback like the table of the
kernel. `NfConntrack` are the attributes of an entry that it reads.

* The callback is any `IConnectionUpdateCallback` that keeps its connections in a
  `ConnectionStorage`. Both the `ConnectionList` and the server's `ConnectionUpdateSerializer` do.
* Attributes are in network byte order. The machine is little-endian.

Main result: `handleQuery_tracked`, what an entry of a dump does to a connection that is tracked.
-/

namespace Conntop

/-! ## Entries -/

/-- `ATTR_L3PROTO`: `AF_INET`, `AF_INET6` or another family. -/
inductive L3Proto
  | inet | inet6
  | other (family : BitVec 8)
  deriving DecidableEq, Repr

/-- `ATTR_L4PROTO`: `IPPROTO_UDP`, `IPPROTO_TCP` or another protocol. -/
inductive L4Proto
  | udp | tcp
  | other (protocol : BitVec 8)
  deriving DecidableEq, Repr

/-- `ATTR_TCP_STATE`: the ten states `TCP_CONNTRACK_*`, or another value. -/
inductive TcpConntrack
  | none | synSent | synSent2 | synRecv | established | finWait | closeWait | lastAck | timeWait
  | close
  | other (rawState : BitVec 8)
  deriving DecidableEq, Repr

/-- The attributes of an `nf_conntrack`. -/
structure NfConntrack where
  l3Proto : L3Proto
  l4Proto : L4Proto
  ipv4Src : BitVec 32 := 0
  ipv4Dst : BitVec 32 := 0
  ipv6Src : BitVec 32 × BitVec 32 × BitVec 32 × BitVec 32 := (0, 0, 0, 0)
  ipv6Dst : BitVec 32 × BitVec 32 × BitVec 32 × BitVec 32 := (0, 0, 0, 0)
  portSrc : BitVec 16 := 0
  portDst : BitVec 16 := 0
  tcpState : TcpConntrack := .none
  replCounterPackets : UInt64 := 0
  origCounterPackets : UInt64 := 0
  replCounterBytes : UInt64 := 0
  origCounterBytes : UInt64 := 0
  deriving DecidableEq, Repr

namespace TCP

def unknown : ℤ := 0
def synSent : ℤ := 1
def synReceived : ℤ := 2
def established : ℤ := 3
def finWait : ℤ := 4
def closeWait : ℤ := 7
def closing : ℤ := 8
def lastAck : ℤ := 9
def timeWait : ℤ := 10

end TCP

def tcpStateToEnum : TcpConntrack → ℤ
  | .none => TCP.unknown
  | .synSent => TCP.synSent
  | .synSent2 => TCP.synSent
  | .synRecv => TCP.synReceived
  | .established => TCP.established
  | .finWait => TCP.finWait
  | .closeWait => TCP.closeWait
  | .lastAck => TCP.lastAck
  | .timeWait => TCP.timeWait
  | .close => TCP.closing
  | .other _ => TCP.unknown

def tcpStateIsEqual (state : ℤ) : TcpConntrack → Bool
  | .none => state = TCP.unknown
  | .synSent | .synSent2 => state = TCP.synSent
  | .synRecv => state = TCP.synReceived
  | .established => state = TCP.established
  | .finWait => state = TCP.finWait
  | .closeWait => state = TCP.closeWait
  | .lastAck => state = TCP.lastAck
  | .timeWait => state = TCP.timeWait
  | .close => state = TCP.closing
  | .other _ => false

/-- One of the ten states of conntrack. -/
def TcpConntrack.IsKnown : TcpConntrack → Prop
  | .other _ => False
  | _ => True

instance : ∀ state : TcpConntrack, Decidable state.IsKnown
  | .other _ => inferInstanceAs (Decidable False)
  | .none | .synSent | .synSent2 | .synRecv | .established | .finWait | .closeWait | .lastAck
  | .timeWait | .close => inferInstanceAs (Decidable True)

/-- The two tables agree on the states of conntrack. -/
theorem tcpStateIsEqual_iff {state : ℤ} {rawState : TcpConntrack} (h : rawState.IsKnown) :
    tcpStateIsEqual state rawState = true ↔ state = tcpStateToEnum rawState := by
  cases rawState with
  | other _ => exact absurd h id
  | _ => exact decide_eq_true_iff

/-- `ntohs` on a little-endian machine. -/
def ntohs (n : BitVec 16) : BitVec 16 := n <<< 8 ||| n >>> 8

namespace NfConntrack

variable (ct : NfConntrack)

def addressType : Option EAddressType :=
  match ct.l3Proto with
  | .inet => some .ip4
  | .inet6 => some .ip6
  | .other _ => none

def portType : Option EPortType :=
  match ct.l4Proto with
  | .udp => some .udp
  | .tcp => some .tcp
  | .other _ => none

/-- The address with the raw value that the address type has. -/
def address (ipv4 : BitVec 32) (ipv6 : BitVec 32 × BitVec 32 × BitVec 32 × BitVec 32) :
    EAddressType → Address
  | .ip4 => .ip4 ipv4
  | .ip6 => .ip6 ipv6.1 ipv6.2.1 ipv6.2.2.1 ipv6.2.2.2

theorem getType_address (ipv4 : BitVec 32)
    (ipv6 : BitVec 32 × BitVec 32 × BitVec 32 × BitVec 32) (t : EAddressType) :
    (address ipv4 ipv6 t).getType = t := by cases t <;> rfl

/-- The 5-tuple of an entry, if both protocols are known. -/
def connection : Option Connection :=
  match ct.addressType, ct.portType with
  | some addressType, some portType => some {
      srcAddr := address ct.ipv4Src ct.ipv6Src addressType
      srcPort := ⟨portType, ntohs ct.portSrc⟩
      dstAddr := address ct.ipv4Dst ct.ipv6Dst addressType
      dstPort := ⟨portType, ntohs ct.portDst⟩
      addrType_eq := (getType_address _ _ _).trans (getType_address _ _ _).symm
      portType_eq := rfl }
  | _, _ => none

/-- `TCPStateToEnum` of the state, for a TCP connection. -/
def state (portType : EPortType) : ℤ :=
  match portType with
  | .tcp => tcpStateToEnum ct.tcpState
  | .udp => 0

end NfConntrack

/-- `ExtractAddressPort`. -/
def extractAddressPort {σ : Type} (K : IConnectionUpdateCallback σ) (ct : NfConntrack) (s : σ)
    (add : Bool) : σ × Option Connection :=
  match ct.connection with
  | none => (s, none)
  | some connection =>
    let (s, srcAddress) := K.getAddress s connection.srcAddr add
    let (s, dstAddress) := K.getAddress s connection.dstAddr add
    if srcAddress.isNone || dstAddress.isNone then (s, none)
    else
      let (s, srcPort) := K.getPort s connection.srcPort add
      let (s, dstPort) := K.getPort s connection.dstPort add
      if srcPort.isNone || dstPort.isNone then (s, none)
      else (s, some connection)

/-! ## `Conntrack::handleQuery` -/

/-- The data of a connection and the flags of what was changed in it. -/
structure DataUpdate where
  data : ConnectionData
  updateFlags : Flags := 0

namespace DataUpdate

variable (u : DataUpdate)

/-- A traffic value is replaced. -/
def set (f : TrafficField) (value : UInt64) : DataUpdate where
  data := { u.data with traffic := f.set value u.data.traffic }
  updateFlags := u.updateFlags ||| f.flag

def setState (portType : EPortType) (rawState : TcpConntrack) : DataUpdate :=
  match portType with
  | .tcp =>
    if !tcpStateIsEqual u.data.state rawState then
      { data := { u.data with state := tcpStateToEnum rawState }
        updateFlags := u.updateFlags ||| EConnectionUpdateFlags.protoState }
    else u
  | .udp => u

/-- The block for a number of packets. -/
def setPackets (f : TrafficField) (value : UInt64) : DataUpdate :=
  if f.get u.data.traffic ≠ value then u.set f value else u

/-- The block for a number of bytes and the speed. -/
def setBytes (fBytes fSpeed : TrafficField) (value : UInt64) : DataUpdate :=
  let speed := value - fBytes.get u.data.traffic
  if speed ≠ 0 then
    let u := u.set fBytes value
    if speed ≠ fSpeed.get u.data.traffic then u.set fSpeed speed else u
  else if fSpeed.get u.data.traffic ≠ 0 then u.set fSpeed 0
  else u

end DataUpdate

/-- The new data of a tracked connection. -/
def NfConntrack.update (ct : NfConntrack) (portType : EPortType) (d : ConnectionData) :
    DataUpdate :=
  let u := ({ data := d } : DataUpdate).setState portType ct.tcpState
  let u := u.setPackets .rxPackets ct.replCounterPackets
  let u := u.setPackets .txPackets ct.origCounterPackets
  let u := u.setBytes .rxBytes .rxSpeed ct.replCounterBytes
  u.setBytes .txBytes .txSpeed ct.origCounterBytes

/-- The data of a connection that a refill adds. -/
def NfConntrack.newData (ct : NfConntrack) (portType : EPortType) : ConnectionData where
  traffic := {
    rxPackets := ct.replCounterPackets
    txPackets := ct.origCounterPackets
    rxBytes := ct.replCounterBytes
    txBytes := ct.origCounterBytes }
  state := ct.state portType

/-- `Conntrack::handleQuery`, on the state of the callback. -/
def handleQuery {σ : Type} (K : IConnectionUpdateCallback σ) (isRefillRequired : Bool)
    (ct : NfConntrack) (s : σ) : σ :=
  match extractAddressPort K ct s isRefillRequired with
  | (s, none) => s
  | (s, some connection) =>
    if isRefillRequired then K.add s connection (ct.newData connection.srcPort.type)
    else
      match K.find s connection with
      | none => s
      | some p =>
        let u := ct.update connection.srcPort.type (K.data s p)
        let s := K.setData s p u.data
        if u.updateFlags ≠ 0 then K.update s p u.updateFlags else s

/-! ## What an entry of a dump does -/

/-- The flags of the fields in which two data differ. -/
def changedFlags (d d' : ConnectionData) : Flags :=
  DataField.all.foldl (fun flags fld => if fld.Agree d d' then flags else flags ||| fld.flag) 0

/-- What a connection with data `d` has after a dump: the counters of the entry, the bytes since
`d` as its speeds, and for TCP the state of the entry. -/
def NfConntrack.measured (ct : NfConntrack) (portType : EPortType) (d : ConnectionData) :
    ConnectionData where
  traffic := {
    rxPackets := ct.replCounterPackets
    txPackets := ct.origCounterPackets
    rxBytes := ct.replCounterBytes
    txBytes := ct.origCounterBytes
    rxSpeed := ct.replCounterBytes - d.traffic.rxBytes
    txSpeed := ct.origCounterBytes - d.traffic.txBytes }
  state :=
    match portType with
    | .tcp => tcpStateToEnum ct.tcpState
    | .udp => d.state

namespace DataUpdate

variable {u : DataUpdate}

/-- The flag of a value that is replaced, if that changes it. -/
def flagOf {α : Type} [DecidableEq α] (old new : α) (flag : Flags) : Flags :=
  if old = new then 0 else flag

theorem set_get_self (f : TrafficField) (t : ConnectionTraffic) : f.set (f.get t) t = t := by
  cases f <;> rfl

theorem setState_tcp {rawState : TcpConntrack} (h : rawState.IsKnown) :
    u.setState .tcp rawState = {
      data := { u.data with state := tcpStateToEnum rawState }
      updateFlags := u.updateFlags |||
        flagOf u.data.state (tcpStateToEnum rawState) EConnectionUpdateFlags.protoState } := by
  unfold setState flagOf
  by_cases hs : u.data.state = tcpStateToEnum rawState
  · have heq := (tcpStateIsEqual_iff h).mpr hs
    simp only [heq, Bool.not_true, Bool.false_eq_true, if_false, ← hs]
    simp
  · have hne : tcpStateIsEqual u.data.state rawState = false :=
      Bool.eq_false_iff.mpr fun he => hs ((tcpStateIsEqual_iff h).mp he)
    simp [hne, hs]

theorem setPackets_eq (f : TrafficField) (value : UInt64) : u.setPackets f value = {
    data := { u.data with traffic := f.set value u.data.traffic }
    updateFlags := u.updateFlags ||| flagOf (f.get u.data.traffic) value f.flag } := by
  unfold setPackets flagOf
  by_cases hf : f.get u.data.traffic = value
  · rw [if_neg (not_not.mpr hf), if_pos hf, ← hf, set_get_self]
    simp
  · rw [if_pos hf, if_neg hf]
    rfl

/-- The speed is the difference also when no bytes were transferred, and then zero. -/
theorem setBytes_eq {fBytes fSpeed : TrafficField} (hne : fSpeed ≠ fBytes) (value : UInt64) :
    let t := u.data.traffic
    u.setBytes fBytes fSpeed value = {
      data := { u.data with
        traffic := fSpeed.set (value - fBytes.get t) (fBytes.set value t) }
      updateFlags := u.updateFlags ||| flagOf (fBytes.get t) value fBytes.flag |||
        flagOf (fSpeed.get t) (value - fBytes.get t) fSpeed.flag } := by
  intro t
  have hget : fSpeed.get (fBytes.set value t) = fSpeed.get t := by
    rw [TrafficField.get_set, if_neg hne]
  have hsub : value - fBytes.get t = 0 ↔ fBytes.get t = value := by
    rw [UInt64.sub_eq_iff_eq_add, UInt64.zero_add, eq_comm]
  have hself : ∀ v, fSpeed.get t = v → fSpeed.set v (fBytes.set value t) = fBytes.set value t := by
    intro v hv
    rw [← hv, ← hget, set_get_self]
  unfold setBytes flagOf
  dsimp only
  by_cases hb : fBytes.get t = value
  · rw [if_neg (not_not.mpr (hsub.mpr hb)), if_pos hb, hsub.mpr hb, hb.symm, set_get_self]
    by_cases hs : fSpeed.get t = 0
    · rw [if_neg (not_not.mpr hs), if_pos hs, ← hs, set_get_self]
      simp [t]
    · rw [if_pos hs, if_neg hs]
      simp [set, t]
  · rw [if_pos (hsub.not.mpr hb), if_neg hb]
    show (if value - fBytes.get t ≠ fSpeed.get (fBytes.set value t) then _ else _) = _
    rw [hget]
    by_cases hs : fSpeed.get t = value - fBytes.get t
    · rw [if_neg (not_not.mpr hs.symm), if_pos hs, hself _ hs]
      simp [set, t]
    · rw [if_pos fun he => hs he.symm, if_neg hs]
      simp [set, t]

end DataUpdate

theorem changedFlags_eq (d d' : ConnectionData) : changedFlags d d' =
    DataField.all.foldl (fun flags fld => flags ||| if fld.Agree d d' then 0 else fld.flag) 0 := by
  unfold changedFlags
  congr 1
  funext flags fld
  split_ifs <;> simp

/-- The code finds the new values and the flags of those that differ. -/
theorem NfConntrack.update_eq (ct : NfConntrack) {portType : EPortType}
    (h : portType = .tcp → ct.tcpState.IsKnown) (d : ConnectionData) :
    ct.update portType d =
      ⟨ct.measured portType d, changedFlags d (ct.measured portType d)⟩ := by
  have hr : TrafficField.rxSpeed ≠ .rxBytes := by decide
  have ht : TrafficField.txSpeed ≠ .txBytes := by decide
  rw [changedFlags_eq]
  cases portType with
  | udp =>
    simp only [update, DataUpdate.setState, DataUpdate.setPackets_eq, DataUpdate.setBytes_eq hr,
      DataUpdate.setBytes_eq ht, TrafficField.get, TrafficField.set, DataUpdate.flagOf, measured,
      DataField.all, TrafficField.all, List.map_cons, List.map_nil, List.foldl_cons,
      List.foldl_nil, DataField.Agree, DataField.flag, TrafficField.flag, if_true,
      DataUpdate.mk.injEq, true_and, BitVec.or_self]
    ac_rfl
  | tcp =>
    simp only [update, DataUpdate.setState_tcp (h rfl), DataUpdate.setPackets_eq,
      DataUpdate.setBytes_eq hr, DataUpdate.setBytes_eq ht, TrafficField.get, TrafficField.set,
      DataUpdate.flagOf, measured, DataField.all, TrafficField.all, List.map_cons, List.map_nil,
      List.foldl_cons, List.foldl_nil, DataField.Agree, DataField.flag, TrafficField.flag,
      DataUpdate.mk.injEq, true_and]
    ac_rfl

theorem changedFlags_self (d : ConnectionData) : changedFlags d d = 0 := by
  have hself : ∀ fld : DataField, fld.Agree d d := fun fld => .refl fld d
  simp [changedFlags, hself]

theorem test_changedFlags (d d' : ConnectionData) (fld : DataField) :
    (changedFlags d d').test fld.flag = true ↔ ¬fld.Agree d d' := by
  have htest : ∀ (fs : List DataField) (acc : Flags),
      (fs.foldl (fun flags fld => if fld.Agree d d' then flags else flags ||| fld.flag) acc).test
        fld.flag = (acc.test fld.flag || fs.any fun g => !g.Agree d d' && g.flag.test fld.flag) := by
    intro fs
    induction fs with
    | nil => simp
    | cons g fs ih =>
      intro acc
      rw [List.foldl_cons, ih, List.any_cons]
      split_ifs with hg <;> simp [hg, Bool.or_assoc]
  -- two fields with a common flag are one
  have hflag : ∀ g : DataField, g.flag.test fld.flag = true ↔ g = fld := by
    rcases fld with - | f
    · rintro (- | g)
      · decide
      · cases g <;> decide
    · rintro (- | g)
      · cases f <;> decide
      · cases f <;> cases g <;> decide
  have hzero : Flags.test 0 fld.flag = false := Flags.test_zero _
  unfold changedFlags
  rw [htest, hzero, Bool.false_or, List.any_eq_true]
  constructor
  · rintro ⟨g, -, hg⟩
    rw [Bool.and_eq_true, hflag] at hg
    obtain ⟨hg, rfl⟩ := hg
    simpa using hg
  · intro h
    exact ⟨fld, fld.mem_all, by simp [h, (hflag fld).mpr rfl]⟩

section

variable {σ : Type} {K : IConnectionUpdateCallback σ} {inet : InetText}
variable {storage : σ → ConnectionStorage} (hK : K.HoldsIn inet storage) {ct : NfConntrack}
variable {c : Connection}

theorem extractAddressPort_none (K : IConnectionUpdateCallback σ) (h : ct.connection = none)
    (s : σ) (add : Bool) : extractAddressPort K ct s add = (s, none) := by
  rw [extractAddressPort, h]

include hK

theorem extractAddressPort_add (h : ct.connection = some c) (s : σ) :
    extractAddressPort K ct s true = (K.intern s c, some c) := by
  obtain ⟨A, hA⟩ : ∃ A : σ → Address → σ, ∀ s a, K.getAddress s a true = (A s a, some a) :=
    ⟨fun s a => (K.getAddress s a true).1, fun s a => Prod.ext rfl (hK.addAddress s a).1⟩
  obtain ⟨P, hP⟩ : ∃ P : σ → Port → σ, ∀ s p, K.getPort s p true = (P s p, some p) :=
    ⟨fun s p => (K.getPort s p true).1, fun s p => Prod.ext rfl (hK.addPort s p).1⟩
  rw [extractAddressPort, h]
  simp [hA, hP, IConnectionUpdateCallback.intern]

theorem extractAddressPort_find (h : ct.connection = some c) (s : σ) :
    extractAddressPort K ct s false =
      (s, if (storage s).HasEnds c then some c else none) := by
  rw [extractAddressPort, h]
  simp only [hK.getAddress, hK.getPort, ConnectionStorage.isNone_getAddress,
    ConnectionStorage.isNone_getPort, Bool.or_eq_true, decide_eq_true_eq]
  by_cases ha : c.srcAddr ∉ (storage s).addressMap ∨ c.dstAddr ∉ (storage s).addressMap
  · rw [if_pos ha, if_neg fun hc => ha.elim (· hc.1) (· hc.2.1)]
  · by_cases hp : c.srcPort ∉ (storage s).portMap ∨ c.dstPort ∉ (storage s).portMap
    · rw [if_neg ha, if_pos hp, if_neg fun hc => hp.elim (· hc.2.2.1) (· hc.2.2.2)]
    · rw [if_neg ha, if_neg hp, if_pos]
      simp only [not_or, not_not] at ha hp
      exact ⟨ha.1, ha.2, hp.1, hp.2⟩

variable {s : σ} (hs : ∀ x ∈ (storage s).connectionMap, (storage s).HasEnds x)

/-- An entry that is not tracked is skipped. -/
theorem handleQuery_skip (h : ∀ c, ct.connection = some c → c ∉ (storage s).connectionMap) :
    handleQuery K false ct s = s := by
  cases hct : ct.connection with
  | none => rw [handleQuery, extractAddressPort_none K hct]
  | some c =>
    rw [handleQuery, extractAddressPort_find hK hct]
    by_cases hends : (storage s).HasEnds c
    · rw [if_pos hends]
      show (match K.find s c with | none => s | some p => _) = s
      rw [hK.find, ConnectionStorage.getConnection, if_neg (h c hct)]
    · rw [if_neg hends]

include hs in
theorem handleQuery_update (hc : c ∈ (storage s).connectionMap) (h : ct.connection = some c)
    (hstate : c.srcPort.type = .tcp → ct.tcpState.IsKnown) :
    let d := (storage s).connectionData c
    let d' := ct.measured c.srcPort.type d
    handleQuery K false ct s =
      if changedFlags d d' ≠ 0 then K.update (K.setData s c d') c (changedFlags d d')
      else K.setData s c d' := by
  intro d d'
  have hu : ct.update c.srcPort.type (K.data s c) = ⟨d', changedFlags d d'⟩ := by
    rw [hK.data, ct.update_eq hstate]
  rw [handleQuery, extractAddressPort_find hK h, if_pos (hs c hc)]
  show (match K.find s c with | none => s | some p => _) = _
  rw [hK.find, ConnectionStorage.getConnection, if_pos hc]
  dsimp only
  rw [hu]

end

/-- **A dump entry updates a tracked connection exactly**: it gets the counters of the entry, the
bytes since its previous data as speeds, and the state of the entry, and `update` is called once
with the flags of the fields that differ, if there are any. An entry that is not tracked does
nothing. -/
theorem handleQuery_exact {σ : Type} {K : IConnectionUpdateCallback σ} {inet : InetText}
    {storage : σ → ConnectionStorage} (hK : K.HoldsIn inet storage) (ct : NfConntrack) (s : σ)
    (hs : ∀ x ∈ (storage s).connectionMap, (storage s).HasEnds x)
    (updates : List (Connection × Flags)) :
    let after := handleQuery K.recorded false ct (s, updates)
    (∀ c, ct.connection = some c → c ∈ (storage s).connectionMap →
      (c.srcPort.type = .tcp → ct.tcpState.IsKnown) →
        let d := (storage s).connectionData c
        let d' := ct.measured c.srcPort.type d
        (storage after.1).connections = Function.update (storage s).connections c (some d') ∧
          (∀ fld : DataField, (changedFlags d d').test fld.flag = true ↔ ¬fld.Agree d d') ∧
          after.2 = updates ++ if d' = d then [] else [(c, changedFlags d d')]) ∧
    ((∀ c, ct.connection = some c → c ∉ (storage s).connectionMap) → after = (s, updates)) := by
  intro after
  refine ⟨fun c hct hc hstate => ?_, fun h => handleQuery_skip hK.recorded h⟩
  intro d d'
  have hafter : after = _ := handleQuery_update hK.recorded (s := (s, updates)) hs hc hct hstate
  have hset : ((storage s).setConnectionData c d').connections =
      Function.update (storage s).connections c (some d') := by
    rw [ConnectionStorage.setConnectionData_connections, ConnectionStorage.connections_eq hc]
    rfl
  -- the data is written, the flags say where it differs, and `update` is called with them
  refine ⟨?_, test_changedFlags d d', ?_⟩
  · have hst := congrArg (fun r => storage r.1) hafter
    dsimp only at hst
    rw [hst, ← hset]
    split_ifs
    · rw [hK.recorded.update, hK.recorded.setData]
    · rw [hK.recorded.setData]
  · rw [hafter]
    by_cases hd : d' = d
    · have hzero : changedFlags d d' = 0 := by
        rw [hd]
        exact changedFlags_self d
      rw [if_neg (not_not.mpr hzero), if_pos hd, List.append_nil]
      rfl
    · -- without a flag every field agrees, so the data is the same
      have hne : changedFlags d d' ≠ 0 := by
        intro hzero
        refine hd (DataField.agree_ext fun fld => ?_)
        by_contra hfld
        have htest := (test_changedFlags d d' fld).mpr fun h => hfld (DataField.Agree.symm h)
        rw [hzero] at htest
        exact absurd htest (by rw [show Flags.test 0 fld.flag = false from Flags.test_zero _]; decide)
      rw [if_pos hne, if_neg hd]
      rfl

section

private def trackedEntry : NfConntrack where
  l3Proto := .inet
  l4Proto := .tcp
  ipv4Src := 0x0100007F#32
  ipv4Dst := 0x0300007F#32
  portSrc := 0x0200#16
  portDst := 0x1600#16
  tcpState := .close
  replCounterBytes := 10

private def trackedConn : Connection :=
  ⟨.ip4 0x0100007F#32, ⟨.tcp, 2⟩, .ip4 0x0300007F#32, ⟨.tcp, 22⟩, rfl, rfl⟩

private def trackedList : ConnectionList :=
  ConnectionList.run .insertion .plain {} (ConnectionList.internOps trackedConn ++
    [.add trackedConn { state := 8, traffic := { rxBytes := 3 } }])

/-- Seven bytes were received. -/
theorem trackedConn_updated :
    (handleQuery (ConnectionList.callback .insertion .plain).recorded false trackedEntry
      (trackedList, [])).2 =
        [(trackedConn, EConnectionUpdateFlags.rxBytes ||| EConnectionUpdateFlags.rxSpeed)] := by
  have hK := ConnectionList.callback_holdsIn .insertion .plain
  have h := (handleQuery_exact hK trackedEntry trackedList (by decide) []).1 trackedConn
    (by decide) (by decide) (fun _ => by decide)
  rw [h.2.2]
  decide

end

end Conntop
