import Conntop.Client
import Conntop.Lib.Trap
import Conntop.ServerSession

/-!
# Accessors and kinds

`FindMember`, `Size`, `GetString` and the other accessors of `rapidjson::Value` may be used on
values of their kind only. The library asserts it. Here the functions that read a message are
written with every use of an accessor in its place, and they get stuck (`Trap`) where one is used on
a wrong kind.

* `Access.deserialize`, `ServerSession.Access.onMessage` and `Client.Access.onMessage` are the
  functions with their accessors. `deserialize` and both `onMessage` are what they do when no
  accessor gets stuck.
* `onSessionData` logs `data.Size()` before it checks for an array, and `Deserialize` looks for
  members of an element that nothing has checked to be an object. `Admits` is what a message must
  be for neither to go wrong.

Main result: `onMessage_access_iff`.
-/

namespace Conntop

open Trap

/-! ## Accessors -/

namespace Access

section

variable {α β : Type}

/-- `IsString`, `IsInt` and so on: whether the accessor may be used. -/
def isKind (get : Value → Option α) (v : Value) : Bool := (get v).isSome

def findMember (document : Value) (name : String) : Trap String (Option Value) :=
  if document.isObject then pure (document.findMember name) else stuck

def memberEnd (document : Value) : Trap String Unit :=
  if document.isObject then pure () else stuck

/-- `FindMember`, the comparison with `MemberEnd` and the check of the kind. -/
def lookup (document : Value) (name missing invalid : String) (get : Value → Option α) :
    Trap String Value := do
  let it ← findMember document name
  memberEnd document
  match it with
  | none => throw missing
  | some v => if isKind get v then return v else throw invalid

variable {document : Value}

theorem findMember_object (h : document.isObject = true) (name : String) :
    findMember document name = pure (document.findMember name) := if_pos h

theorem memberEnd_object (h : document.isObject = true) : memberEnd document = pure () := if_pos h

/-- On an object, a lookup with its accessor is a member that must be there. -/
theorem lookup_bind_eq (h : document.isObject = true) {name missing invalid : String}
    {get : Value → Option α} {f : Value → Trap String β} {g : α → Except String β}
    (hf : ∀ v a, get v = some a → f v = safe (g a)) :
    (lookup document name missing invalid get >>= f) =
      safe (document.require name missing invalid get >>= g) := by
  unfold lookup Value.require
  rw [findMember_object h, memberEnd_object h, pure_bind, pure_bind]
  cases document.findMember name with
  | none => rfl
  | some v =>
    dsimp only
    cases hget : get v with
    | none =>
      rw [isKind, hget]
      rfl
    | some a =>
      rw [isKind, hget]
      exact hf v a hget

theorem lookup_stuck (h : document.isObject = false) {name missing invalid : String}
    {get : Value → Option α} (f : Value → Trap String β) :
    (lookup document name missing invalid get >>= f) = stuck := by
  unfold lookup findMember
  rw [if_neg (by rw [h]; decide)]
  rfl

end

/-! ## `Deserialize` -/

def decodeUpdateFlags (document : Value) (action : EConnectionAction) : Trap String Flags :=
  if action = .update then do
    let updateFlagsIt ← lookup document "updateFlags" "Missing update flags"
      "Invalid update flags value type" Value.getInt
    return .ofInt 32 (← access Value.getInt updateFlagsIt)
  else return 0

def decodeState (document : Value) (portType : EPortType) (action : EConnectionAction)
    (updateFlags : Flags) : Trap String ℤ :=
  if isIncluded action updateFlags EConnectionUpdateFlags.protoState then do
    let stateIt ← lookup document "state" "Missing connection state"
      "Invalid connection state value type" Value.getString
    return portType.stateToEnum (← access Value.getString stateIt)
  else return 0

def decodeField (document : Value) (action : EConnectionAction) (updateFlags : Flags)
    (traffic : ConnectionTraffic) (f : TrafficField) : Trap String ConnectionTraffic :=
  if isIncluded action updateFlags f.flag then do
    let it ← lookup document f.name f.missing f.invalid Value.getUint64
    return f.set (← access Value.getUint64 it) traffic
  else return traffic

def decodeTraffic (document : Value) (action : EConnectionAction) (updateFlags : Flags) :
    Trap String ConnectionTraffic :=
  if action ≠ .remove then
    TrafficField.all.foldlM (decodeField document action updateFlags) {}
  else return {}

/-- The part of `Deserialize` that reads the document. The addresses and the ports are checked
first and read last. -/
def decode (document : Value) : Trap String SerializedItem := do
  let actionIt ← lookup document "action" "Missing connection action"
    "Invalid connection action value type" Value.getString
  let actionName ← access Value.getString actionIt
  let action ← safe (Connection.actionToEnum actionName)
  let typeIt ← lookup document "type" "Missing connection type"
    "Invalid connection type value type" Value.getString
  let typeName ← access Value.getString typeIt
  let type ← safe (Connection.typeToEnum typeName)
  let srcAddressIt ← lookup document "srcAddress" "Missing source address"
    "Invalid source address value type" Value.getString
  let dstAddressIt ← lookup document "dstAddress" "Missing destination address"
    "Invalid destination address value type" Value.getString
  let srcPortIt ← lookup document "srcPort" "Missing source port"
    "Invalid source port value type" Value.getUint
  let dstPortIt ← lookup document "dstPort" "Missing destination port"
    "Invalid destination port value type" Value.getUint
  let updateFlags ← decodeUpdateFlags document action
  let state ← decodeState document type.portType action updateFlags
  let traffic ← decodeTraffic document action updateFlags
  let srcAddress ← access Value.getString srcAddressIt
  let dstAddress ← access Value.getString dstAddressIt
  let srcPort ← access Value.getUint srcPortIt
  let dstPort ← access Value.getUint dstPortIt
  return {
    action := action, type := type, srcAddress := srcAddress, dstAddress := dstAddress
    srcPort := .ofNat 16 srcPort, dstPort := .ofNat 16 dstPort, updateFlags := updateFlags
    data := { traffic := traffic, state := state } }

/-- `ConnectionData::Deserialize`. -/
def deserialize {σ : Type} (K : IConnectionUpdateCallback σ) (inet : InetText) (document : Value)
    (s : σ) : Option (σ × Except String Bool) :=
  (decode document).run.map fun
    | .error e => (s, .error e)
    | .ok item => item.apply K inet s

/-- The loop over the elements of the data. -/
def deserializeItems (S : StdSort) (inet : InetText) :
    List Value → ConnectionList → Option (ConnectionList × Except String Unit)
  | [], l => some (l, .ok ())
  | item :: items, l =>
    match deserialize (ConnectionList.callback S inet) inet item l with
    | none => none
    | some (l, .ok _) => deserializeItems S inet items l
    | some (l, .error e) => some (l, .error e)

variable {document : Value}

theorem decodeUpdateFlags_eq (h : document.isObject = true) (action : EConnectionAction) :
    decodeUpdateFlags document action = safe (Conntop.decodeUpdateFlags document action) := by
  unfold decodeUpdateFlags Conntop.decodeUpdateFlags
  split_ifs
  · rw [← bind_pure_comp]
    refine lookup_bind_eq h fun it n hn => ?_
    exact access_bind_eq hn rfl
  · rfl

theorem decodeState_eq (h : document.isObject = true) (portType : EPortType)
    (action : EConnectionAction) (flags : Flags) :
    decodeState document portType action flags =
      safe (Conntop.decodeState document portType action flags) := by
  unfold decodeState Conntop.decodeState
  split_ifs
  · rw [← bind_pure_comp]
    refine lookup_bind_eq h fun it s hs => ?_
    exact access_bind_eq hs rfl
  · rfl

theorem decodeFields_eq (h : document.isObject = true) (action : EConnectionAction)
    (flags : Flags) (fs : List TrafficField) (t : ConnectionTraffic) :
    fs.foldlM (decodeField document action flags) t =
      safe (fs.foldlM (Conntop.decodeField document action flags) t) := by
  induction fs generalizing t with
  | nil => rfl
  | cons f fs ih =>
    have hfield : decodeField document action flags t f =
        safe (Conntop.decodeField document action flags t f) := by
      unfold decodeField Conntop.decodeField
      split_ifs
      · refine lookup_bind_eq h fun it n hn => ?_
        exact access_bind_eq hn rfl
      · rfl
    rw [List.foldlM_cons, List.foldlM_cons, hfield]
    exact safe_bind_eq fun t' _ => ih t'

theorem decodeTraffic_eq (h : document.isObject = true) (action : EConnectionAction)
    (flags : Flags) :
    decodeTraffic document action flags = safe (Conntop.decodeTraffic document action flags) := by
  unfold decodeTraffic Conntop.decodeTraffic
  split_ifs
  · exact decodeFields_eq h action flags _ _
  · rfl

/-- On an object every accessor is used on its kind. -/
theorem decode_eq (h : document.isObject = true) :
    decode document = safe (Conntop.decode document) := by
  unfold decode Conntop.decode
  refine lookup_bind_eq h fun actionIt actionName haction => ?_
  refine access_bind_eq haction (safe_bind_eq fun action _ => ?_)
  refine lookup_bind_eq h fun typeIt typeName htype => ?_
  refine access_bind_eq htype (safe_bind_eq fun type _ => ?_)
  refine lookup_bind_eq h fun srcAddressIt srcAddress hsrcAddress => ?_
  refine lookup_bind_eq h fun dstAddressIt dstAddress hdstAddress => ?_
  refine lookup_bind_eq h fun srcPortIt srcPort hsrcPort => ?_
  refine lookup_bind_eq h fun dstPortIt dstPort hdstPort => ?_
  rw [decodeUpdateFlags_eq h]
  refine safe_bind_eq fun updateFlags _ => ?_
  rw [decodeState_eq h]
  refine safe_bind_eq fun state _ => ?_
  rw [decodeTraffic_eq h]
  refine safe_bind_eq fun traffic _ => ?_
  refine access_bind_eq hsrcAddress (access_bind_eq hdstAddress ?_)
  exact access_bind_eq hsrcPort (access_bind_eq hdstPort rfl)

section

variable {σ : Type} (K : IConnectionUpdateCallback σ) (inet : InetText)

theorem deserialize_eq (h : document.isObject = true) (s : σ) :
    deserialize K inet document s = some (Conntop.deserialize K inet document s) := by
  unfold deserialize Conntop.deserialize
  rw [decode_eq h]
  cases Conntop.decode document <;> rfl

/-- Nothing can be looked for in another value. -/
theorem deserialize_stuck (h : document.isObject = false) (s : σ) :
    deserialize K inet document s = none := by
  unfold deserialize decode
  rw [lookup_stuck h]
  rfl

end

/-! ## The loop over the elements -/

/-- `Deserialize` throws for the document, whatever its callback is. -/
def IsRejected (inet : InetText) (document : Value) : Bool :=
  match Conntop.decode document with
  | .error _ => true
  | .ok item =>
    !(createFromString inet item.srcAddress item.type.addrType).isOk ||
      !(createFromString inet item.dstAddress item.type.addrType).isOk

/-- The elements are objects, up to the first one that is rejected. -/
def AreObjects (inet : InetText) : List Value → Prop
  | [] => True
  | item :: items =>
    item.isObject = true ∧ (IsRejected inet item = false → AreObjects inet items)

instance decidableAreObjects (inet : InetText) : ∀ items, Decidable (AreObjects inet items)
  | [] => .isTrue trivial
  | item :: items =>
    have := decidableAreObjects inet items
    inferInstanceAs (Decidable (item.isObject = true ∧ (_ → _)))

theorem isRejected_iff {S : StdSort} {inet : InetText} {document : Value} {l : ConnectionList} :
    IsRejected inet document = false ↔
      ∃ b, (Conntop.deserialize (ConnectionList.callback S inet) inet document l).2 = .ok b := by
  have hout := (ConnectionList.callback_holdsIn S inet).deserialize_outcome document l
  generalize Conntop.deserialize (ConnectionList.callback S inet) inet document l = r at hout ⊢
  unfold IsRejected
  cases hout with
  | invalid e hdoc => simp [hdoc]
  | srcAddress item e hdoc hsrc => simp [hdoc, hsrc, Except.isOk, Except.toBool]
  | dstAddress item src e hdoc hsrc hdst => simp [hdoc, hdst, Except.isOk, Except.toBool]
  | create item src dst hdoc hsrc hdst => simp [hdoc, hsrc, hdst, Except.isOk, Except.toBool]
  | update item src dst hdoc hsrc hdst => simp [hdoc, hsrc, hdst, Except.isOk, Except.toBool]
  | remove item src dst hdoc hsrc hdst => simp [hdoc, hsrc, hdst, Except.isOk, Except.toBool]
  | unknown item src dst hdoc hsrc hdst => simp [hdoc, hsrc, hdst, Except.isOk, Except.toBool]

theorem deserializeItems_eq (S : StdSort) (inet : InetText) (items : List Value)
    (l : ConnectionList) :
    deserializeItems S inet items l =
      if AreObjects inet items then some (ConnectionList.deserializeItems S inet items l)
      else none := by
  induction items generalizing l with
  | nil => exact (if_pos trivial).symm
  | cons item items ih =>
    cases hobject : item.isObject with
    | false =>
      rw [deserializeItems, deserialize_stuck _ _ hobject, if_neg]
      rintro ⟨h, -⟩
      rw [hobject] at h
      cases h
    | true =>
      rw [deserializeItems, deserialize_eq _ _ hobject, ConnectionList.deserializeItems]
      cases hr : Conntop.deserialize (ConnectionList.callback S inet) inet item l with
      | mk l' result =>
        cases result with
        | error e =>
          have hrejected : IsRejected inet item ≠ false := by
            intro h
            obtain ⟨b, hb⟩ := isRejected_iff.mp h
            rw [hr] at hb
            cases hb
          exact (if_pos ⟨hobject, fun h => absurd h hrejected⟩).symm
        | ok b =>
          have hread : IsRejected inet item = false := isRejected_iff.mpr ⟨b, by rw [hr]⟩
          refine (ih l').trans (if_congr ?_ rfl rfl)
          exact ⟨fun h => ⟨hobject, fun _ => h⟩, fun h => h.2 hread⟩

end Access

/-! ## Messages to the server -/

namespace ServerSession.Access

open Conntop.Access

variable {τ : Type} [ServerTransport τ] (mem : ServerMemory) (s : ServerSession τ)

def onHello (message : Value) : Trap String (ServerSession τ) := do
  if s.state ≠ .opening then throw "Unexpected HELLO message"
  let nameIt ← lookup message "name" "Missing client name" "Invalid client name value type"
    Value.getString
  let versionIt ← lookup message "version" "Missing client version"
    "Invalid client version value type" Value.getString
  let platformIt ← lookup message "platform" "Missing client platform name"
    "Invalid client platform name value type" Value.getString
  let name ← access Value.getString nameIt
  let version ← access Value.getString versionIt
  let platform ← access Value.getString platformIt
  let s := { s with client := ⟨name, version, platform⟩ }.sendSharedMessage mem .hello
  return { s with state := .connected }

def onDisconnect (message : Value) : Trap String (ServerSession τ) := do
  let reasonIt ← lookup message "reason" "Missing disconnect reason"
    "Invalid disconnect reason value type" Value.getString
  let reasonName ← access Value.getString reasonIt
  let reason := ClientServerProtocol.getDisconnectReasonEnum reasonName
  return s.quickDisconnect reason (if reason = .unknown then reasonName else "")

def onRequestData (available : Flags) (message : Value) : Trap String (ServerSession τ × Bool) :=
  if s.state = .closing then return (s, false)
  else if s.state ≠ .connected then throw "Unexpected REQUEST_DATA message"
  else do
    let dataFlagsIt ← lookup message "dataFlags" "Missing data status type"
      "Invalid data status type value type" Value.getInt
    let dataUpdateFlagsIt ← lookup message "dataUpdateFlags" "Missing data status update"
      "Invalid data status update value type" Value.getInt
    let dataFlags ← access Value.getInt dataFlagsIt
    let dataUpdateFlags ← access Value.getInt dataUpdateFlagsIt
    return s.onSessionDataRequest mem available (.ofInt 32 dataFlags) (.ofInt 32 dataUpdateFlags)

/-- `ServerSession::onMessage`. -/
def onMessage (available : Flags) (message : Value) : Trap String (ServerSession τ × Bool) := do
  if !message.isObject then throw "Invalid message"
  let msgTypeIt ← lookup message "message" "Missing message type" "Invalid message type value type"
    Value.getString
  let name ← access Value.getString msgTypeIt
  match ClientServerProtocol.getClientMsgEnum name with
  | .unknown =>
    let name ← access Value.getString msgTypeIt
    throw ("Unknown message '" ++ name ++ "'")
  | .hello => return (← onHello mem s message, false)
  | .disconnect => return (← onDisconnect s message, false)
  | .requestData => onRequestData mem s available message

variable {s} {message : Value}

theorem onHello_eq (h : message.isObject = true) :
    onHello mem s message = safe (s.onHello mem message) := by
  unfold onHello ServerSession.onHello
  split_ifs
  · rfl
  · refine lookup_bind_eq h fun nameIt name hname => ?_
    refine lookup_bind_eq h fun versionIt version hversion => ?_
    refine lookup_bind_eq h fun platformIt platform hplatform => ?_
    exact access_bind_eq hname (access_bind_eq hversion (access_bind_eq hplatform rfl))

theorem onDisconnect_eq (h : message.isObject = true) :
    onDisconnect s message = safe (s.onDisconnect message) := by
  unfold onDisconnect ServerSession.onDisconnect
  refine lookup_bind_eq h fun reasonIt reasonName hreason => ?_
  exact access_bind_eq hreason rfl

theorem onRequestData_eq (h : message.isObject = true) (available : Flags) :
    onRequestData mem s available message = safe (s.onRequestData mem available message) := by
  unfold onRequestData ServerSession.onRequestData
  split_ifs
  · rfl
  · rfl
  · refine lookup_bind_eq h fun dataFlagsIt dataFlags hdata => ?_
    refine lookup_bind_eq h fun dataUpdateFlagsIt dataUpdateFlags hupdate => ?_
    exact access_bind_eq hdata (access_bind_eq hupdate rfl)

/-- The server checks every value before it is read. -/
theorem onMessage_eq (s : ServerSession τ) (available : Flags) (message : Value) :
    onMessage mem s available message = safe (s.onMessage mem available message) := by
  unfold onMessage ServerSession.onMessage
  cases h : message.isObject with
  | false => rfl
  | true =>
    refine lookup_bind_eq h fun msgTypeIt name hname => ?_
    refine access_bind_eq hname ?_
    cases ClientServerProtocol.getClientMsgEnum name with
    | unknown => exact access_bind_eq hname rfl
    | hello =>
      dsimp only
      rw [onHello_eq mem h]
      exact safe_bind_eq fun _ _ => rfl
    | disconnect =>
      dsimp only
      rw [onDisconnect_eq h]
      exact safe_bind_eq fun _ _ => rfl
    | requestData => exact onRequestData_eq mem h available

end ServerSession.Access

/-! ## Messages to the client -/

namespace Client.Access

open Conntop.Access

variable {τ : Type} [ClientTransport τ] (c : Client τ)

def onSessionData (S : StdSort) (inet : InetText) (type : Flags) (isUpdate : Bool) (data : Value) :
    Option (Client τ × Option String) :=
  if (isUpdate && !c.isSynchronized) || !type.test c.remainingDataFlags || c.isPaused then
    some (c, none)
  else if type.test EDataFlags.connection then do
    -- The log needs `data.Size()`.
    let _ ← data.getArray
    if !isKind Value.getArray data then return (c, some "Data is not an array")
    let items ← data.getArray
    let list := if isUpdate then c.connectionList else c.connectionList.clear
    match ← deserializeItems S inet items list with
    | (list, .error error) => return ({ c with connectionList := list }, some error)
    | (list, .ok ()) =>
      return ({ c with
        connectionList := list
        remainingDataFlags := c.remainingDataFlags &&& ~~~EDataFlags.connection
        }.onDataDeserialized, none)
  else some (c, none)

def onBanner (message : Value) : Trap String (Client τ) := do
  if c.session.state ≠ .opening ∨ c.session.expectedMsg ≠ .serverBanner then
    throw "Unexpected BANNER message"
  let versionIt ← lookup message "conntop_server" "Missing server identification"
    "Invalid server identification value type" Value.getInt
  let version ← access Value.getInt versionIt
  if version ≠ ClientServerProtocol.protocolVersion then
    return c.quickDisconnect .versionMismatch
  else
    let session := { c.session with expectedMsg := .serverHello }
    return { c with session :=
      session.sendMessage (ClientServerProtocol.createClientMsgHello c.info) }

def onHello (message : Value) : Trap String (Client τ) := do
  if c.session.state ≠ .opening ∨ c.session.expectedMsg ≠ .serverHello then
    throw "Unexpected HELLO message"
  let nameIt ← lookup message "name" "Missing server name" "Invalid server name value type"
    Value.getString
  let versionIt ← lookup message "version" "Missing server version"
    "Invalid server version value type" Value.getString
  let platformIt ← lookup message "platform" "Missing server platform name"
    "Invalid server platform name value type" Value.getString
  let name ← access Value.getString nameIt
  let version ← access Value.getString versionIt
  let platform ← access Value.getString platformIt
  return { c with session := { c.session with
    server := ⟨name, version, platform⟩
    expectedMsg := .none
    state := .connected
    sessionTTL := 3
    currentTimestamp := 0
    dataFlags := 0
    dataUpdateFlags := 0 } }.onSessionEstablished

def onDisconnect (message : Value) : Trap String (Client τ) := do
  let reasonIt ← lookup message "reason" "Missing disconnect reason"
    "Invalid disconnect reason value type" Value.getString
  let reasonName ← access Value.getString reasonIt
  let reason := ClientServerProtocol.getDisconnectReasonEnum reasonName
  return c.quickDisconnect reason (if reason = .unknown then reasonName else "")

def onUpdateTick (message : Value) : Trap String (Client τ) :=
  if c.session.state = .closing then return c
  else if c.session.state ≠ .connected then throw "Unexpected UPDATE_TICK message"
  else do
    let timestampIt ← lookup message "timestamp" "Missing update tick timestamp"
      "Invalid update tick timestamp value type" Value.getUint
    let timestamp := BitVec.ofNat 32 (← access Value.getUint timestampIt)
    if timestamp ≠ c.session.currentTimestamp + 1 ∧ c.session.currentTimestamp ≠ 0 then
      throw "Unexpected update tick timestamp"
    else return { c with session := { c.session with
      currentTimestamp := timestamp
      sessionTTL := c.session.sessionTTL + 1 } }.onSessionServerTick

def onDataStatus (message : Value) : Trap String (Client τ) :=
  if c.session.state = .closing then return c
  else if c.session.expectedMsg ≠ .serverDataStatus then throw "Unexpected DATA_STATUS message"
  else do
    let dataFlagsIt ← lookup message "dataFlags" "Missing data status flags"
      "Invalid data status flags value type" Value.getInt
    let dataUpdateFlagsIt ← lookup message "dataUpdateFlags" "Missing data status update flags"
      "Invalid data status update flags value type" Value.getInt
    let dataFlags ← access Value.getInt dataFlagsIt
    let dataUpdateFlags ← access Value.getInt dataUpdateFlagsIt
    return { c with session := { c.session with
      dataFlags := .ofInt 32 dataFlags
      dataUpdateFlags := .ofInt 32 dataUpdateFlags
      expectedMsg := .none
      sessionTTL := 3 } }.onSessionDataStatus

def checkData (message : Value) : Trap String (Flags × Bool × Value) :=
  if c.session.state ≠ .connected then throw "Unexpected DATA message"
  else do
    let typeIt ← lookup message "type" "Missing data type" "Invalid data type value type"
      Value.getInt
    let isUpdateIt ← lookup message "isUpdate" "Missing data update flag"
      "Invalid data update flag value type" Value.getBool
    let dataIt ← lookup message "data" "Missing data" "" some
    let type : Flags := .ofInt 32 (← access Value.getInt typeIt)
    let isUpdate ← access Value.getBool isUpdateIt
    if !type.test c.session.dataFlags then throw "Unexpected data"
    else if isUpdate && !type.test c.session.dataUpdateFlags then throw "Unexpected data update"
    else return (type, isUpdate, dataIt)

def onData (S : StdSort) (inet : InetText) (message : Value) : Option (Client τ × Option String) :=
  if c.session.state = .closing then some (c, none)
  else do
    match ← (checkData c message).run with
    | .ok (type, isUpdate, data) => onSessionData c S inet type isUpdate data
    | .error error => return (c, some error)

def msgType (message : Value) : Trap String EServerMsg := do
  if !message.isObject then throw "Invalid message"
  let msgTypeIt ← findMember message "message"
  memberEnd message
  match msgTypeIt.filter (isKind Value.getString) with
  | some msgTypeIt =>
    let name ← access Value.getString msgTypeIt
    match ClientServerProtocol.getServerMsgEnum name with
    | .unknown =>
      let name ← access Value.getString msgTypeIt
      throw ("Unknown message '" ++ name ++ "'")
    | type => return type
  | none =>
    let serverIt ← findMember message "conntop_server"
    memberEnd message
    if serverIt.isSome then return .banner else throw "Invalid message"

/-- `ClientSession::onMessage`. -/
def onMessage (S : StdSort) (inet : InetText) (message : Value) :
    Option (Client τ × Option String) := do
  match ← (msgType message).run with
  | .error error => return (c, some error)
  | .ok .unknown => return (c, none)
  | .ok .banner => (onBanner c message).run.map c.orUnchanged
  | .ok .hello => (onHello c message).run.map c.orUnchanged
  | .ok .disconnect => (onDisconnect c message).run.map c.orUnchanged
  | .ok .updateTick => (onUpdateTick c message).run.map c.orUnchanged
  | .ok .dataStatus => (onDataStatus c message).run.map c.orUnchanged
  | .ok .data => onData c S inet message

variable {c} {message : Value} {S : StdSort} {inet : InetText}

theorem onBanner_eq (h : message.isObject = true) :
    onBanner c message = safe (c.onBanner message) := by
  unfold onBanner Client.onBanner
  split_ifs
  · rfl
  · refine lookup_bind_eq h fun versionIt version hversion => access_bind_eq hversion ?_
    split_ifs <;> rfl

theorem onHello_eq (h : message.isObject = true) :
    onHello c message = safe (c.onHello message) := by
  unfold onHello Client.onHello
  split_ifs
  · rfl
  · refine lookup_bind_eq h fun nameIt name hname => ?_
    refine lookup_bind_eq h fun versionIt version hversion => ?_
    refine lookup_bind_eq h fun platformIt platform hplatform => ?_
    exact access_bind_eq hname (access_bind_eq hversion (access_bind_eq hplatform rfl))

theorem onDisconnect_eq (h : message.isObject = true) :
    onDisconnect c message = safe (c.onDisconnect message) := by
  unfold onDisconnect Client.onDisconnect
  refine lookup_bind_eq h fun reasonIt reasonName hreason => ?_
  exact access_bind_eq hreason rfl

theorem onUpdateTick_eq (h : message.isObject = true) :
    onUpdateTick c message = safe (c.onUpdateTick message) := by
  unfold onUpdateTick Client.onUpdateTick
  split_ifs
  · rfl
  · rfl
  · refine lookup_bind_eq h fun timestampIt timestamp htimestamp => ?_
    refine access_bind_eq htimestamp ?_
    dsimp only
    split_ifs <;> rfl

theorem onDataStatus_eq (h : message.isObject = true) :
    onDataStatus c message = safe (c.onDataStatus message) := by
  unfold onDataStatus Client.onDataStatus
  split_ifs
  · rfl
  · rfl
  · refine lookup_bind_eq h fun dataFlagsIt dataFlags hdata => ?_
    refine lookup_bind_eq h fun dataUpdateFlagsIt dataUpdateFlags hupdate => ?_
    exact access_bind_eq hdata (access_bind_eq hupdate rfl)

omit [ClientTransport τ] in
theorem checkData_eq (h : message.isObject = true) :
    checkData c message = safe (c.checkData message) := by
  unfold checkData Client.checkData
  split_ifs
  · rfl
  · refine lookup_bind_eq h fun typeIt type htype => ?_
    refine lookup_bind_eq h fun isUpdateIt isUpdate hisUpdate => ?_
    refine lookup_bind_eq h fun dataIt data hdata => ?_
    refine access_bind_eq htype (access_bind_eq hisUpdate ?_)
    cases hdata
    dsimp only
    split_ifs <;> rfl

theorem msgType_eq (message : Value) : msgType message = safe (Client.msgType message) := by
  unfold msgType Client.msgType
  cases h : message.isObject with
  | false => rfl
  | true =>
    have hbanner : (do
        let serverIt ← findMember message "conntop_server"
        memberEnd message
        if serverIt.isSome then return .banner else throw "Invalid message" :
          Trap String EServerMsg) =
        safe (if (message.findMember "conntop_server").isSome then .ok .banner
            else .error "Invalid message") := by
      rw [findMember_object h, memberEnd_object h, pure_bind, pure_bind]
      split_ifs <;> rfl
    rw [hbanner, findMember_object h "message", memberEnd_object h]
    cases message.findMember "message" with
    | none => rfl
    | some v =>
      cases hname : v.getString with
      | none =>
        have hkind : (some v).filter (isKind Value.getString) = none := by simp [isKind, hname]
        simp [hkind, hname]
      | some name =>
        have hkind : (some v).filter (isKind Value.getString) = some v := by simp [isKind, hname]
        simp only [Bool.not_true, Bool.false_eq_true, ↓reduceIte, pure_bind, hkind,
          access_of hname, Option.bind_some, hname]
        cases ClientServerProtocol.getServerMsgEnum name <;> rfl

end Client.Access

/-! ## What a message must be -/

/-- An array whose elements are objects, up to the first one that is rejected. -/
def Access.IsList (inet : InetText) (data : Value) : Prop :=
  match data.getArray with
  | none => False
  | some items => AreObjects inet items

theorem Access.not_isList {inet : InetText} {data : Value} (h : data.getArray = none) :
    ¬ IsList inet data := by
  rw [IsList, h]
  exact id

theorem Access.isList_iff {inet : InetText} {data : Value} {items : List Value}
    (h : data.getArray = some items) : IsList inet data ↔ AreObjects inet items := by
  rw [IsList, h]

instance (inet : InetText) : DecidablePred (Access.IsList inet) := fun data =>
  match h : data.getArray with
  | none => .isFalse (Access.not_isList h)
  | some _ => decidable_of_iff _ (Access.isList_iff h).symm

namespace Client

variable {τ : Type} (c : Client τ)

/-- The data, where `onSessionData` deserializes it. -/
def takes (type : Flags) (isUpdate : Bool) (data : Value) : Option Value :=
  if (isUpdate && !c.isSynchronized) || !type.test c.remainingDataFlags || c.isPaused then none
  else if type.test EDataFlags.connection then some data
  else none

/-- The data of a message, where it is deserialized. -/
def takenData (message : Value) : Option Value :=
  if c.session.state = .closing then none
  else
    match msgType message, c.checkData message with
    | .ok .data, .ok (type, isUpdate, data) => c.takes type isUpdate data
    | _, _ => none

def Admits (inet : InetText) (message : Value) : Prop :=
  ∀ data ∈ c.takenData message, Access.IsList inet data

instance (inet : InetText) (message : Value) : Decidable (c.Admits inet message) :=
  inferInstanceAs (Decidable (∀ data ∈ c.takenData message, Access.IsList inet data))

end Client

namespace Client.Access

open Conntop.Access

variable {τ : Type} [ClientTransport τ] (c : Client τ) (S : StdSort) (inet : InetText)

theorem onSessionData_eq (type : Flags) (isUpdate : Bool) (data : Value) :
    onSessionData c S inet type isUpdate data =
      if ∀ v ∈ c.takes type isUpdate data, IsList inet v then
        some (c.onSessionData S inet type isUpdate data)
      else none := by
  unfold onSessionData Client.onSessionData takes
  by_cases hskip : (isUpdate && !c.isSynchronized || !type.test c.remainingDataFlags || c.isPaused)
      = true
  · rw [if_pos hskip, if_pos hskip, if_pos hskip]
    exact (if_pos (by rintro v ⟨⟩)).symm
  · rw [if_neg hskip, if_neg hskip, if_neg hskip]
    by_cases htype : type.test EDataFlags.connection = true
    · rw [if_pos htype, if_pos htype, if_pos htype]
      have hlist : (∀ v ∈ some data, IsList inet v) ↔ IsList inet data := by simp
      rw [if_congr hlist rfl rfl]
      cases hdata : data.getArray with
      | none =>
        rw [if_neg (not_isList hdata)]
        rfl
      | some items =>
        have hkind : isKind Value.getArray data = true := by rw [isKind, hdata]; rfl
        rw [if_congr (isList_iff hdata) rfl rfl, hkind]
        dsimp only [Option.bind_eq_bind, Option.bind_some]
        rw [if_neg (by decide), deserializeItems_eq]
        by_cases hobjects : AreObjects inet items
        · rw [if_pos hobjects, if_pos hobjects]
          cases ConnectionList.deserializeItems S inet items
              (if isUpdate then c.connectionList else c.connectionList.clear) with
          | mk list result => cases result <;> rfl
        · rw [if_neg hobjects, if_neg hobjects]
          rfl
    · rw [if_neg htype, if_neg htype, if_neg htype]
      exact (if_pos (by rintro v ⟨⟩)).symm

theorem onData_eq {message : Value} (htype : Client.msgType message = .ok .data)
    (hobject : message.isObject = true) :
    onData c S inet message =
      if c.Admits inet message then some (c.onData S inet message) else none := by
  unfold onData Client.onData
  by_cases hclosing : c.session.state = .closing
  · have hadmits : c.Admits inet message := by simp [Admits, takenData, hclosing]
    rw [if_pos hclosing, if_pos hclosing, if_pos hadmits]
  · rw [if_neg hclosing, if_neg hclosing, checkData_eq hobject]
    cases hcheck : c.checkData message with
    | error e =>
      have hadmits : c.Admits inet message := by simp [Admits, takenData, htype, hcheck]
      exact (if_pos hadmits).symm
    | ok r =>
      have htaken : c.takenData message = c.takes r.1 r.2.1 r.2.2 := by
        rw [takenData, if_neg hclosing, htype, hcheck]
      refine (onSessionData_eq c S inet r.1 r.2.1 r.2.2).trans (if_congr ?_ rfl rfl)
      rw [Admits, htaken]

/-- Without `takenData` nothing gets stuck, and with it only what is not a list does. -/
theorem onMessage_eq (message : Value) :
    onMessage c S inet message =
      if c.Admits inet message then some (c.onMessage S inet message) else none := by
  unfold onMessage Client.onMessage
  rw [msgType_eq]
  cases htype : Client.msgType message with
  | error e =>
    have hadmits : c.Admits inet message := by simp [Admits, takenData, htype]
    exact (if_pos hadmits).symm
  | ok type =>
    have hobject : message.isObject = true := by
      by_contra hobject
      rw [Client.msgType, if_pos (by simpa using hobject)] at htype
      cases htype
    have hother : type ≠ .data → c.Admits inet message := fun hne => by
      simp [Admits, takenData, htype, hne]
    have hsafe : ∀ {x : Trap String (Client τ)} {y : Except String (Client τ)}, x = safe y →
        x.run.map c.orUnchanged = some (c.orUnchanged y) := by
      rintro _ y rfl
      rfl
    cases type with
    | unknown => exact (if_pos (hother (by decide))).symm
    | banner => exact (hsafe (onBanner_eq hobject)).trans (if_pos (hother (by decide))).symm
    | hello => exact (hsafe (onHello_eq hobject)).trans (if_pos (hother (by decide))).symm
    | disconnect => exact (hsafe (onDisconnect_eq hobject)).trans (if_pos (hother (by decide))).symm
    | updateTick => exact (hsafe (onUpdateTick_eq hobject)).trans (if_pos (hother (by decide))).symm
    | dataStatus => exact (hsafe (onDataStatus_eq hobject)).trans (if_pos (hother (by decide))).symm
    | data => exact onData_eq c S inet htype hobject

end Client.Access

/-! ## The end of the program -/

namespace Client

variable {τ : Type} [ClientTransport τ] {c c' : Client τ} {message : Value}

theorem onSessionServerTick_exit (c : Client τ) : c.onSessionServerTick.exit = c.exit := by
  unfold onSessionServerTick
  dsimp only
  split_ifs <;> rfl

theorem onSessionDataStatus_exit (c : Client τ) : c.onSessionDataStatus.exit = c.exit := by
  unfold onSessionDataStatus
  dsimp only
  split_ifs <;> rfl

theorem onDataDeserialized_exit (c : Client τ) : c.onDataDeserialized.exit = c.exit := by
  unfold onDataDeserialized
  split_ifs <;> rfl

theorem onSessionData_exit (S : StdSort) (inet : InetText) (c : Client τ) (type : Flags)
    (isUpdate : Bool) (data : Value) :
    (c.onSessionData S inet type isUpdate data).1.exit = c.exit := by
  unfold onSessionData
  split
  · rfl
  · split
    · cases data.getArray with
      | none => rfl
      | some items =>
        dsimp only
        split
        · rfl
        · exact onDataDeserialized_exit _
    · rfl

theorem quickDisconnect_exit (h : c.connector = none) (reason : EDisconnectReason)
    (error : String) : (c.quickDisconnect reason error).exit = c.exit := by
  unfold quickDisconnect onSessionDisconnect
  dsimp only
  rw [h]

omit [ClientTransport τ] in
theorem orUnchanged_exit {x : Except String (Client τ)} (h : ∀ c', x = .ok c' → c'.exit = c.exit) :
    (c.orUnchanged x).1.exit = c.exit := by
  cases x with
  | error e => rfl
  | ok c' => exact h c' rfl

section

variable (hk : c.connector = none)
include hk

theorem onBanner_exit (h : c.onBanner message = .ok c') : c'.exit = c.exit := by
  unfold onBanner at h
  split_ifs at h
  · cases h
  · obtain ⟨version, -, h⟩ := Value.of_bind_ok h
    split_ifs at h
    · cases h
      exact quickDisconnect_exit hk _ _
    · cases h
      rfl

omit hk in
theorem onHello_exit (h : c.onHello message = .ok c') : c'.exit = c.exit := by
  unfold onHello at h
  split_ifs at h
  · cases h
  · obtain ⟨name, -, h⟩ := Value.of_bind_ok h
    obtain ⟨version, -, h⟩ := Value.of_bind_ok h
    obtain ⟨platform, -, h⟩ := Value.of_bind_ok h
    cases h
    rfl

theorem onDisconnect_exit (h : c.onDisconnect message = .ok c') : c'.exit = c.exit := by
  obtain ⟨reasonName, -, h⟩ := Value.of_bind_ok h
  cases h
  exact quickDisconnect_exit hk _ _

omit hk in
theorem onUpdateTick_exit (h : c.onUpdateTick message = .ok c') : c'.exit = c.exit := by
  unfold onUpdateTick at h
  split_ifs at h
  · cases h
    rfl
  · obtain ⟨timestamp, -, h⟩ := Value.of_bind_ok h
    dsimp only at h
    split_ifs at h
    cases h
    exact onSessionServerTick_exit _

omit hk in
theorem onDataStatus_exit (h : c.onDataStatus message = .ok c') : c'.exit = c.exit := by
  unfold onDataStatus at h
  split_ifs at h
  · cases h
    rfl
  · obtain ⟨dataFlags, -, h⟩ := Value.of_bind_ok h
    obtain ⟨dataUpdateFlags, -, h⟩ := Value.of_bind_ok h
    cases h
    exact onSessionDataStatus_exit _

omit hk in
theorem onData_exit (S : StdSort) (inet : InetText) (c : Client τ) (message : Value) :
    (c.onData S inet message).1.exit = c.exit := by
  unfold onData
  split_ifs
  · rfl
  · split
    · exact onSessionData_exit S inet c _ _ _
    · rfl

/-- Once the connector is gone, a message does not end the program. -/
theorem onMessage_exit (S : StdSort) (inet : InetText) (message : Value) :
    (c.onMessage S inet message).1.exit = c.exit := by
  unfold onMessage
  split
  · rfl
  · rfl
  · exact orUnchanged_exit fun _ => onBanner_exit hk
  · exact orUnchanged_exit fun _ => onHello_exit
  · exact orUnchanged_exit fun _ => onDisconnect_exit hk
  · exact orUnchanged_exit fun _ => onUpdateTick_exit
  · exact orUnchanged_exit fun _ => onDataStatus_exit
  · exact onData_exit S inet c message

end

end Client

/-! ## Main result -/

/-- No accessor is used on a wrong kind exactly when the client admits the message. The server gets
stuck on none. What is not stuck completes or throws the exception of `onMessage`: another one can
only come from a connector that is still there. -/
theorem onMessage_access_iff {σ τ : Type} [ServerTransport σ] [ClientTransport τ] (S : StdSort)
    (inet : InetText) (mem : ServerMemory) (available : Flags) (s : ServerSession σ) (c : Client τ)
    (message : Value) :
    (((ServerSession.Access.onMessage mem s available message).run.isSome ∧
      (Client.Access.onMessage c S inet message).isSome) ↔ c.Admits inet message) ∧
    ServerSession.Access.onMessage mem s available message =
      safe (s.onMessage mem available message) ∧
    (Client.Access.onMessage c S inet message = none ∨
      Client.Access.onMessage c S inet message = some (c.onMessage S inet message)) ∧
    (c.connector.isSome ∨ (c.onMessage S inet message).1.exit = c.exit) := by
  have hserver := ServerSession.Access.onMessage_eq mem s available message
  have hclient := Client.Access.onMessage_eq c S inet message
  refine ⟨?_, hserver, ?_, ?_⟩
  · rw [hserver, hclient]
    constructor
    · rintro ⟨-, h⟩
      by_contra hadmits
      rw [if_neg hadmits] at h
      cases h
    · intro hadmits
      rw [if_pos hadmits]
      exact ⟨rfl, rfl⟩
  · rw [hclient]
    split_ifs
    · exact .inr rfl
    · exact .inl rfl
  · cases hk : c.connector with
    | none => exact .inr (Client.onMessage_exit hk S inet message)
    | some connector => exact .inl rfl

/-- A client that was sent everything up to the tick after which it takes data. -/
private def waitingClient : Client ClientOutbox :=
  let messages := [ClientServerProtocol.createServerMsgBanner,
    ClientServerProtocol.createServerMsgHello {},
    ClientServerProtocol.createServerMsgDataStatus EDataFlags.connection 0,
    ClientServerProtocol.createServerMsgUpdateTick 1].filterMap (·.document)
  ((Client.init {} "localhost").onResolved [true]).onSessionConnectionEstablished.onMessages
    .insertion .plain none messages

private def dataMessage (data : Value) : Value :=
  .object [("message", .string "DATA"), ("type", .int 1), ("isUpdate", .bool false), ("data", data)]

/-- The data is a number, or an element is one. -/
theorem dataMessage_stuck :
    (Client.Access.onMessage waitingClient .insertion .plain (dataMessage (.int 5))).isNone ∧
    (Client.Access.onMessage waitingClient .insertion .plain
      (dataMessage (.array [.int 5]))).isNone := by
  decide

end Conntop
