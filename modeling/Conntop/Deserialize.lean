import Conntop.ConnectionStorage
import Conntop.Json
import Mathlib.Tactic.IntervalCases

/-!
# Serialized connections

`ConnectionData::serialize` and `ConnectionData::Deserialize` of `Connection.cpp`.

* A `TrafficField` stands for the block of code that each of the six traffic values has in both
  functions: the name of its member, its flag and the texts of its errors.
* `decode` is the part of `Deserialize` that reads and checks the document, `Item.apply` the part
  that calls the `IConnectionUpdateCallback`.
* A pointer that a callback returns is the key it was asked for.

Main result: `decode_serialize`, what is read back from a serialized connection.
-/

namespace Conntop

/-! ## Names -/

/-- What was done with a connection. -/
inductive EConnectionAction
  | create | update | remove
  deriving DecidableEq, Repr

def EConnectionType.addrType : EConnectionType → EAddressType
  | udp4 | tcp4 => .ip4
  | udp6 | tcp6 => .ip6

/-- The port type that `Deserialize` takes for a connection type. -/
def EConnectionType.portType : EConnectionType → EPortType
  | udp4 | udp6 => .udp
  | tcp4 | tcp6 => .tcp

namespace Connection

def typeToString : EConnectionType → String
  | .udp4 => "udp4"
  | .udp6 => "udp6"
  | .tcp4 => "tcp4"
  | .tcp6 => "tcp6"

def actionToString : EConnectionAction → String
  | .create => "CREATE"
  | .update => "UPDATE"
  | .remove => "REMOVE"

/-- `g_connectionTypeMap`. -/
def connectionTypeMap : List (String × EConnectionType) :=
  [("udp4", .udp4), ("udp6", .udp6), ("tcp4", .tcp4), ("tcp6", .tcp6)]

/-- `g_connectionActionMap`. -/
def connectionActionMap : List (String × EConnectionAction) :=
  [("CREATE", .create), ("UPDATE", .update), ("REMOVE", .remove)]

def typeToEnum (type : String) : Except String EConnectionType :=
  match connectionTypeMap.lookup type with
  | some t => .ok t
  | none => .error "Unknown connection type"

def actionToEnum (action : String) : Except String EConnectionAction :=
  match connectionActionMap.lookup action with
  | some a => .ok a
  | none => .error "Unknown connection action"

@[simp] theorem typeToEnum_typeToString (t : EConnectionType) :
    typeToEnum (typeToString t) = .ok t := by cases t <;> rfl

@[simp] theorem actionToEnum_actionToString (a : EConnectionAction) :
    actionToEnum (actionToString a) = .ok a := by cases a <;> rfl

@[simp] theorem getType_addrType (c : Connection) : c.getType.addrType = c.srcAddr.getType := by
  unfold getType
  cases c.srcAddr.getType <;> cases c.srcPort.type <;> rfl

@[simp] theorem getType_portType (c : Connection) : c.getType.portType = c.srcPort.type := by
  unfold getType
  cases c.srcAddr.getType <;> cases c.srcPort.type <;> rfl

end Connection

namespace UDP

/-- The states of `UDP::EState`: `UNKNOWN` is 0, `LISTEN` is -1. -/
def stateToString (state : ℤ) : String :=
  match state with
  | 0 => ""
  | -1 => "LISTEN"
  | _ => "?"

/-- `g_udpStateMap`. -/
def udpStateMap : List (String × ℤ) := [("LISTEN", -1)]

def stateToEnum (state : String) : ℤ :=
  if state = "" ∨ state = "?" then 0 else (udpStateMap.lookup state).getD 0

end UDP

namespace TCP

/-- The states of `TCP::EState`: `UNKNOWN` is 0, `LISTEN` is -1. -/
def stateToString (state : ℤ) : String :=
  match state with
  | -1 => "LISTEN"
  | 1 => "SYN_SENT"
  | 2 => "SYN_RECEIVED"
  | 3 => "ESTABLISHED"
  | 4 => "FIN_WAIT"
  | 5 => "FIN_WAIT_1"
  | 6 => "FIN_WAIT_2"
  | 7 => "CLOSE_WAIT"
  | 8 => "CLOSING"
  | 9 => "LAST_ACK"
  | 10 => "TIME_WAIT"
  | 11 => "CLOSED"
  | _ => "?"

/-- `g_tcpStateMap`. -/
def tcpStateMap : List (String × ℤ) :=
  [("LISTEN", -1), ("SYN_SENT", 1), ("SYN_RECEIVED", 2), ("ESTABLISHED", 3), ("FIN_WAIT", 4),
    ("FIN_WAIT_1", 5), ("FIN_WAIT_2", 6), ("CLOSE_WAIT", 7), ("CLOSING", 8), ("LAST_ACK", 9),
    ("TIME_WAIT", 10), ("CLOSED", 11)]

def stateToEnum (state : String) : ℤ :=
  if state = "" ∨ state = "?" then 0 else (tcpStateMap.lookup state).getD 0

end TCP

namespace EPortType

/-- `Connection::StateToString`. -/
def stateToString : EPortType → ℤ → String
  | udp => UDP.stateToString
  | tcp => TCP.stateToString

def stateToEnum : EPortType → String → ℤ
  | udp => UDP.stateToEnum
  | tcp => TCP.stateToEnum

/-- The values of `UDP::EState` and `TCP::EState`. -/
def IsState : EPortType → ℤ → Prop
  | udp, state => -1 ≤ state ∧ state ≤ 0
  | tcp, state => -1 ≤ state ∧ state ≤ 11

instance : ∀ (t : EPortType) (state : ℤ), Decidable (t.IsState state)
  | udp, _ => inferInstanceAs (Decidable (_ ∧ _))
  | tcp, _ => inferInstanceAs (Decidable (_ ∧ _))

theorem stateToEnum_stateToString {t : EPortType} {state : ℤ} (h : t.IsState state) :
    t.stateToEnum (cString (t.stateToString state)) = state := by
  cases t <;> obtain ⟨h1, h2⟩ := h <;> interval_cases state <;> decide

end EPortType

/-! ## Traffic fields -/

inductive TrafficField
  | rxPackets | txPackets | rxBytes | txBytes | rxSpeed | txSpeed
  deriving DecidableEq, Repr

namespace TrafficField

/-- In the order in which both functions handle them. -/
def all : List TrafficField := [rxPackets, txPackets, rxBytes, txBytes, rxSpeed, txSpeed]

def name : TrafficField → String
  | rxPackets => "rxPackets"
  | txPackets => "txPackets"
  | rxBytes => "rxBytes"
  | txBytes => "txBytes"
  | rxSpeed => "rxSpeed"
  | txSpeed => "txSpeed"

def flag : TrafficField → Flags
  | rxPackets => EConnectionUpdateFlags.rxPackets
  | txPackets => EConnectionUpdateFlags.txPackets
  | rxBytes => EConnectionUpdateFlags.rxBytes
  | txBytes => EConnectionUpdateFlags.txBytes
  | rxSpeed => EConnectionUpdateFlags.rxSpeed
  | txSpeed => EConnectionUpdateFlags.txSpeed

def missing : TrafficField → String
  | rxPackets => "Missing received packets count"
  | txPackets => "Missing sent packets count"
  | rxBytes => "Missing received bytes count"
  | txBytes => "Missing sent bytes count"
  | rxSpeed => "Missing receive speed"
  | txSpeed => "Missing send speed"

def invalid : TrafficField → String
  | rxPackets => "Invalid received packets count value type"
  | txPackets => "Invalid sent packets count value type"
  | rxBytes => "Invalid received bytes count value type"
  | txBytes => "Invalid sent bytes count value type"
  | rxSpeed => "Invalid receive speed value type"
  | txSpeed => "Invalid send speed value type"

def get : TrafficField → ConnectionTraffic → UInt64
  | rxPackets => (·.rxPackets)
  | txPackets => (·.txPackets)
  | rxBytes => (·.rxBytes)
  | txBytes => (·.txBytes)
  | rxSpeed => (·.rxSpeed)
  | txSpeed => (·.txSpeed)

def set : TrafficField → UInt64 → ConnectionTraffic → ConnectionTraffic
  | rxPackets, v, t => { t with rxPackets := v }
  | txPackets, v, t => { t with txPackets := v }
  | rxBytes, v, t => { t with rxBytes := v }
  | txBytes, v, t => { t with txBytes := v }
  | rxSpeed, v, t => { t with rxSpeed := v }
  | txSpeed, v, t => { t with txSpeed := v }

theorem mem_all (f : TrafficField) : f ∈ all := by cases f <;> decide

theorem get_set (f g : TrafficField) (v : UInt64) (t : ConnectionTraffic) :
    g.get (f.set v t) = if g = f then v else g.get t := by
  cases f <;> cases g <;> rfl

/-- Two traffics are equal when all six values are. -/
theorem traffic_ext {t t' : ConnectionTraffic} (h : ∀ f : TrafficField, f.get t = f.get t') :
    t = t' := by
  have h1 := h rxPackets
  have h2 := h txPackets
  have h3 := h rxBytes
  have h4 := h txBytes
  have h5 := h rxSpeed
  have h6 := h txSpeed
  cases t
  cases t'
  simp_all [get]

theorem flag_ne_zero (f : TrafficField) : f.flag ≠ 0 := by cases f <;> decide

/-- Write the fields of `fs` that `p` holds of. -/
def setAll (p : TrafficField → Bool) (new : TrafficField → UInt64) (fs : List TrafficField)
    (t : ConnectionTraffic) : ConnectionTraffic :=
  fs.foldl (fun t f => if p f then f.set (new f) t else t) t

theorem get_setAll (p : TrafficField → Bool) (new : TrafficField → UInt64) (g : TrafficField)
    (fs : List TrafficField) (t : ConnectionTraffic) :
    g.get (setAll p new fs t) = if g ∈ fs ∧ p g then new g else g.get t := by
  induction fs generalizing t with
  | nil => simp [setAll]
  | cons f fs ih =>
    show g.get (setAll p new fs (if p f then f.set (new f) t else t)) = _
    have hstep : g.get (if p f then f.set (new f) t else t) =
        if g = f ∧ p f then new f else g.get t := by
      by_cases hp : p f <;> simp [hp, get_set]
    rw [ih, hstep]
    by_cases hgf : g = f
    · subst hgf
      by_cases hp : p g <;> simp [hp]
    · simp [hgf]

end TrafficField

/-! ## `ConnectionData::serialize` -/

/-- The `state` member. -/
def stateMember (c : Connection) (d : ConnectionData) : String × Value :=
  ("state", .string (c.srcPort.type.stateToString d.state))

/-- The member of a traffic field. -/
def trafficMember (d : ConnectionData) (f : TrafficField) : String × Value :=
  (f.name, .int (f.get d.traffic).toNat)

/-- The members that an action adds. -/
def actionMembers (c : Connection) (d : ConnectionData) (updateFlags : Flags) :
    EConnectionAction → List (String × Value)
  | .create => stateMember c d :: TrafficField.all.map (trafficMember d)
  | .update => ("updateFlags", .int updateFlags.toInt) ::
      ((if updateFlags.test EConnectionUpdateFlags.protoState then [stateMember c d] else []) ++
        (TrafficField.all.filter fun f => updateFlags.test f.flag).map (trafficMember d))
  | .remove => []

/-- `ConnectionData::serialize`, on the data of a connection in a storage. -/
def serialize (st : ConnectionStorage) (c : Connection) (action : EConnectionAction)
    (updateFlags : Flags := -1) : Value :=
  .object <|
    [("action", .string (Connection.actionToString action)),
      ("type", .string (Connection.typeToString c.getType)),
      ("srcAddress", .string (st.addressData c.srcAddr).numericString),
      ("dstAddress", .string (st.addressData c.dstAddr).numericString)] ++
    (if c.hasPorts then
      [("srcPort", .int c.srcPort.number.toNat), ("dstPort", .int c.dstPort.number.toNat)]
    else []) ++
    actionMembers c (st.connectionData c) updateFlags action

/-! ## `ConnectionData::Deserialize` -/

/-- What `Deserialize` reads from a document before it calls the callback. -/
structure SerializedItem where
  action : EConnectionAction
  type : EConnectionType
  srcAddress : String
  dstAddress : String
  srcPort : BitVec 16
  dstPort : BitVec 16
  updateFlags : Flags
  data : ConnectionData
  deriving DecidableEq, Repr

/-- Whether a value with the flag is in the document. -/
def isIncluded (action : EConnectionAction) (updateFlags flag : Flags) : Bool :=
  action == .create || updateFlags.test flag

/-- The block of `Deserialize` for a traffic field. -/
def decodeField (document : Value) (action : EConnectionAction) (updateFlags : Flags)
    (traffic : ConnectionTraffic) (f : TrafficField) : Except String ConnectionTraffic :=
  if isIncluded action updateFlags f.flag then do
    let v ← document.require f.name f.missing f.invalid Value.getUint64
    return f.set v traffic
  else return traffic

def decodeUpdateFlags (document : Value) (action : EConnectionAction) : Except String Flags :=
  if action = .update then
    (BitVec.ofInt 32 ·) <$> document.require "updateFlags" "Missing update flags"
      "Invalid update flags value type" Value.getInt
  else .ok 0

def decodeState (document : Value) (portType : EPortType) (action : EConnectionAction)
    (updateFlags : Flags) : Except String ℤ :=
  if isIncluded action updateFlags EConnectionUpdateFlags.protoState then
    portType.stateToEnum <$> document.require "state" "Missing connection state"
      "Invalid connection state value type" Value.getString
  else .ok 0

def decodeTraffic (document : Value) (action : EConnectionAction) (updateFlags : Flags) :
    Except String ConnectionTraffic :=
  if action ≠ .remove then
    TrafficField.all.foldlM (decodeField document action updateFlags) {}
  else .ok {}

/-- The part of `Deserialize` that reads the document. -/
def decode (document : Value) : Except String SerializedItem := do
  let actionName ← document.require "action" "Missing connection action"
    "Invalid connection action value type" Value.getString
  let action ← Connection.actionToEnum actionName
  let typeName ← document.require "type" "Missing connection type"
    "Invalid connection type value type" Value.getString
  let type ← Connection.typeToEnum typeName
  let srcAddress ← document.require "srcAddress" "Missing source address"
    "Invalid source address value type" Value.getString
  let dstAddress ← document.require "dstAddress" "Missing destination address"
    "Invalid destination address value type" Value.getString
  let srcPort ← document.require "srcPort" "Missing source port"
    "Invalid source port value type" Value.getUint
  let dstPort ← document.require "dstPort" "Missing destination port"
    "Invalid destination port value type" Value.getUint
  let updateFlags ← decodeUpdateFlags document action
  let state ← decodeState document type.portType action updateFlags
  let traffic ← decodeTraffic document action updateFlags
  return {
    action := action, type := type, srcAddress := srcAddress, dstAddress := dstAddress
    srcPort := .ofNat 16 srcPort, dstPort := .ofNat 16 dstPort, updateFlags := updateFlags
    data := { traffic := traffic, state := state } }

/-- `IConnectionUpdateCallback`. `data` and `setData` are reads and in-place changes through the
pointer to a connection's data. Both functions `add` are one here: the one without traffic and
state adds default data. -/
structure IConnectionUpdateCallback (σ : Type) where
  getAddress : σ → Address → Bool → σ × Option Address
  getPort : σ → Port → Bool → σ × Option Port
  find : σ → Connection → Option Connection
  add : σ → Connection → ConnectionData → σ
  update : σ → Connection → Flags → σ
  remove : σ → Connection → σ
  clear : σ → σ
  data : σ → Connection → ConnectionData
  setData : σ → Connection → ConnectionData → σ

/-- `CreateFromString` of the address class that a connection type has. -/
def createFromString (inet : InetText) (s : String) :
    (t : EAddressType) → Except String { a : Address // a.getType = t }
  | .ip4 =>
    match inet.pton4 s with
    | some raw => .ok ⟨.ip4 raw, rfl⟩
    | none => .error "Invalid IPv4 address string"
  | .ip6 =>
    match inet.pton6 s with
    | some (a, b, c, d) => .ok ⟨.ip6 a b c d, rfl⟩
    | none => .error "Invalid IPv6 address string"

/-- Take the flagged values of other data. -/
def ConnectionData.merge (updateFlags : Flags) (new d : ConnectionData) : ConnectionData where
  state := if updateFlags.test EConnectionUpdateFlags.protoState then new.state else d.state
  traffic := TrafficField.setAll (fun f => updateFlags.test f.flag) (·.get new.traffic)
    TrafficField.all d.traffic

/-- The flags that `Deserialize` passes on to `update`. -/
def mergedFlags (updateFlags : Flags) : Flags :=
  TrafficField.all.foldl
    (fun flags f => if updateFlags.test f.flag then flags ||| f.flag else flags)
    (if updateFlags.test EConnectionUpdateFlags.protoState then
      EConnectionUpdateFlags.protoState else 0)

namespace SerializedItem

variable {σ : Type}

/-- The connection that a document names. -/
def connection (item : SerializedItem)
    (src dst : { a : Address // a.getType = item.type.addrType }) : Connection where
  srcAddr := src
  srcPort := ⟨item.type.portType, item.srcPort⟩
  dstAddr := dst
  dstPort := ⟨item.type.portType, item.dstPort⟩
  addrType_eq := dst.2.trans src.2.symm
  portType_eq := rfl

/-- The last part of `Deserialize`, when both addresses and both ports are there. -/
def applyAction (K : IConnectionUpdateCallback σ) (item : SerializedItem) (s : σ)
    (c : Connection) : σ × Bool :=
  match item.action with
  | .create => (K.add s c item.data, true)
  | .update =>
    match K.find s c with
    | none => (s, false)
    | some p =>
      let s := K.setData s p (.merge item.updateFlags item.data (K.data s p))
      (if mergedFlags item.updateFlags ≠ 0 then K.update s p (mergedFlags item.updateFlags) else s,
        true)
  | .remove => (K.remove s c, true)

/-- The part of `Deserialize` that calls the callback. -/
def apply (K : IConnectionUpdateCallback σ) (inet : InetText) (item : SerializedItem) (s : σ) :
    σ × Except String Bool :=
  let add := item.action = .create
  match createFromString inet item.srcAddress item.type.addrType with
  | .error e => (s, .error e)
  | .ok src =>
    let (s, srcAddress) := K.getAddress s src add
    match createFromString inet item.dstAddress item.type.addrType with
    | .error e => (s, .error e)
    | .ok dst =>
      let (s, dstAddress) := K.getAddress s dst add
      if srcAddress.isNone || dstAddress.isNone then (s, .ok false)
      else
        let (s, srcPort) := K.getPort s ⟨item.type.portType, item.srcPort⟩ add
        let (s, dstPort) := K.getPort s ⟨item.type.portType, item.dstPort⟩ add
        if srcPort.isNone || dstPort.isNone then (s, .ok false)
        else
          let (s, result) := item.applyAction K s (item.connection src dst)
          (s, .ok result)

end SerializedItem

/-- `ConnectionData::Deserialize`: the state after the calls on the callback, and the result or
the text of the exception. -/
def deserialize {σ : Type} (K : IConnectionUpdateCallback σ) (inet : InetText) (document : Value)
    (s : σ) : σ × Except String Bool :=
  match decode document with
  | .error e => (s, .error e)
  | .ok item => item.apply K inet s

/-! ## What is read back -/

section

variable (st : ConnectionStorage) (c : Connection) (action : EConnectionAction) (flags : Flags)

/-- The flags that are written for an action. -/
def sentFlags : Flags := if action = .update then flags else 0

theorem isIncluded_create (mask : Flags) : isIncluded .create flags mask = true := rfl

theorem isIncluded_remove (mask : Flags) :
    isIncluded .remove (sentFlags .remove flags) mask = false := Flags.test_zero mask

theorem findMember_state
    (h : isIncluded action (sentFlags action flags) EConnectionUpdateFlags.protoState) :
    (serialize st c action flags).findMember "state" =
      some (.string (c.srcPort.type.stateToString (st.connectionData c).state)) := by
  cases action with
  | create => simp [serialize, Value.findMember_object, actionMembers, stateMember]
  | update =>
    have h : flags.test EConnectionUpdateFlags.protoState = true := h
    simp [serialize, Value.findMember_object, actionMembers, stateMember, h]
  | remove => simp [isIncluded_remove] at h

theorem findMember_field (f : TrafficField)
    (h : isIncluded action (sentFlags action flags) f.flag) :
    (serialize st c action flags).findMember f.name =
      some (.int (f.get (st.connectionData c).traffic).toNat) := by
  cases action with
  | create =>
    cases f <;> simp [serialize, Value.findMember_object, actionMembers, stateMember,
      TrafficField.all, trafficMember, TrafficField.name]
  | update =>
    have h : flags.test f.flag = true := h
    by_cases hs : flags.test EConnectionUpdateFlags.protoState <;>
      cases f <;> simp [serialize, Value.findMember_object, actionMembers, stateMember,
        TrafficField.all, trafficMember, TrafficField.name, h, hs]
  | remove => simp [isIncluded_remove] at h

theorem decodeUpdateFlags_serialize :
    decodeUpdateFlags (serialize st c action flags) action = .ok (sentFlags action flags) := by
  cases action with
  | update =>
    have hm : (serialize st c .update flags).findMember "updateFlags" =
        some (.int flags.toInt) := by
      simp [serialize, Value.findMember_object, actionMembers]
    rw [decodeUpdateFlags, if_pos rfl, Value.require_eq hm (Value.getInt_int flags)]
    exact congrArg Except.ok BitVec.ofInt_toInt
  | create => rfl
  | remove => rfl

theorem decodeState_serialize (hs : c.srcPort.type.IsState (st.connectionData c).state) :
    decodeState (serialize st c action flags) c.getType.portType action (sentFlags action flags) =
      .ok (if isIncluded action (sentFlags action flags) EConnectionUpdateFlags.protoState then
        (st.connectionData c).state else 0) := by
  unfold decodeState
  split_ifs with h
  · have hget : ∀ s, Value.getString (.string s) = some (cString s) := fun _ => rfl
    rw [Value.require_eq (findMember_state st c action flags h) (hget _),
      Connection.getType_portType]
    exact congrArg Except.ok (EPortType.stateToEnum_stateToString hs)
  · rfl

theorem decodeFields_serialize (fs : List TrafficField) (t : ConnectionTraffic) :
    fs.foldlM (decodeField (serialize st c action flags) action (sentFlags action flags)) t =
      .ok (TrafficField.setAll (fun f => isIncluded action (sentFlags action flags) f.flag)
        (·.get (st.connectionData c).traffic) fs t) := by
  induction fs generalizing t with
  | nil => rfl
  | cons f fs ih =>
    have hstep : decodeField (serialize st c action flags) action (sentFlags action flags) t f =
        .ok (if isIncluded action (sentFlags action flags) f.flag then
          f.set (f.get (st.connectionData c).traffic) t else t) := by
      unfold decodeField
      split_ifs with h
      · rw [Value.require_eq (findMember_field st c action flags f h) (Value.getUint64_int _)]
        rfl
      · rfl
    rw [List.foldlM_cons, hstep, Value.bind_ok, ih]
    rfl

theorem decodeTraffic_serialize :
    decodeTraffic (serialize st c action flags) action (sentFlags action flags) =
      .ok (TrafficField.setAll (fun f => isIncluded action (sentFlags action flags) f.flag)
        (·.get (st.connectionData c).traffic) TrafficField.all {}) := by
  unfold decodeTraffic
  split_ifs with h
  · exact decodeFields_serialize st c action flags _ _
  · obtain rfl : action = .remove := not_not.mp h
    simp only [isIncluded_remove]
    rfl

/-- What a serialized connection is read as. -/
def SerializedItem.of : SerializedItem where
  action := action
  type := c.getType
  srcAddress := cString (st.addressData c.srcAddr).numericString
  dstAddress := cString (st.addressData c.dstAddr).numericString
  srcPort := c.srcPort.number
  dstPort := c.dstPort.number
  updateFlags := sentFlags action flags
  data := {
    state := if isIncluded action (sentFlags action flags) EConnectionUpdateFlags.protoState then
        (st.connectionData c).state else 0
    traffic := TrafficField.setAll (fun f => isIncluded action (sentFlags action flags) f.flag)
      (·.get (st.connectionData c).traffic) TrafficField.all {} }

theorem SerializedItem.of_state : (SerializedItem.of st c action flags).data.state =
    if isIncluded action (sentFlags action flags) EConnectionUpdateFlags.protoState then
      (st.connectionData c).state else 0 := rfl

theorem cString_actionToString :
    cString (Connection.actionToString action) = Connection.actionToString action := by
  cases action <;> rfl

theorem cString_typeToString (t : EConnectionType) :
    cString (Connection.typeToString t) = Connection.typeToString t := by
  cases t <;> rfl

/-- **A serialized connection is read back.** -/
theorem decode_serialize (hs : c.srcPort.type.IsState (st.connectionData c).state) :
    decode (serialize st c action flags) = .ok (.of st c action flags) := by
  have hflags := decodeUpdateFlags_serialize st c action flags
  have hstate := decodeState_serialize st c action flags hs
  have htraffic := decodeTraffic_serialize st c action flags
  generalize hdoc : serialize st c action flags = doc at hflags hstate htraffic ⊢
  -- The members that every document has, in the order in which they are read.
  have haction : doc.findMember "action" = some (.string (Connection.actionToString action)) := by
    simp [← hdoc, serialize, Value.findMember_object]
  have htype : doc.findMember "type" = some (.string (Connection.typeToString c.getType)) := by
    simp [← hdoc, serialize, Value.findMember_object]
  have hsrc : doc.findMember "srcAddress" =
      some (.string (st.addressData c.srcAddr).numericString) := by
    simp [← hdoc, serialize, Value.findMember_object]
  have hdst : doc.findMember "dstAddress" =
      some (.string (st.addressData c.dstAddr).numericString) := by
    simp [← hdoc, serialize, Value.findMember_object]
  have hsrcPort : doc.findMember "srcPort" = some (.int c.srcPort.number.toNat) := by
    simp [← hdoc, serialize, Value.findMember_object]
  have hdstPort : doc.findMember "dstPort" = some (.int c.dstPort.number.toNat) := by
    simp [← hdoc, serialize, Value.findMember_object]
  have hget : ∀ s, Value.getString (.string s) = some (cString s) := fun _ => rfl
  have hport : ∀ n : BitVec 16, Value.getUint (.int n.toNat) = some n.toNat :=
    Value.getUint_int (by decide)
  unfold decode
  rw [Value.require_eq haction (hget _), Value.bind_ok, cString_actionToString,
    Connection.actionToEnum_actionToString, Value.bind_ok, Value.require_eq htype (hget _),
    Value.bind_ok, cString_typeToString, Connection.typeToEnum_typeToString, Value.bind_ok,
    Value.require_eq hsrc (hget _), Value.bind_ok, Value.require_eq hdst (hget _), Value.bind_ok,
    Value.require_eq hsrcPort (hport _), Value.bind_ok, Value.require_eq hdstPort (hport _),
    Value.bind_ok, hflags, Value.bind_ok, hstate, Value.bind_ok, htraffic, Value.bind_ok,
    BitVec.ofNat_toNat, BitVec.ofNat_toNat,
    BitVec.setWidth_eq, BitVec.setWidth_eq]
  rfl

end

end Conntop
