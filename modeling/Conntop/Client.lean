import Conntop.ListDeserialize
import Conntop.SocketWriter

/-!
# `ClientSession` and `Client`

The session of the client up to its sending part (`ClientTransport`, `Outbox` in the source), and
the `Client` that the session calls back.

* `ClientConnector` is held as the outcomes of the attempts to connect that are left, once the
  addresses of the server are resolved.
* An `Exception` ends the program. `exit` is its text.
* `onMessage` gives back the text of its `std::invalid_argument` beside the client: `onSessionData`
  can throw after it changed the list.

Main result: `Keeps`, what the operations of a client keep.
-/

namespace Conntop

/-- The sending part of a client session. `connect` gets a new socket. -/
class ClientTransport (τ : Type) where
  enqueue : τ → SerializedClientMessage → τ
  close : τ → τ
  connect : τ → τ

inductive EExpectedMsg
  | none | serverBanner | serverHello | serverDataStatus
  deriving DecidableEq, Repr

structure ClientSession (τ : Type) where
  transport : τ
  state : ESessionState := .disconnected
  expectedMsg : EExpectedMsg := .none
  isConnectionEstablished : Bool := false
  sessionTTL : ℕ := 0
  dataFlags : Flags := 0
  dataUpdateFlags : Flags := 0
  currentTimestamp : BitVec 32 := 0
  server : PeerInfo := {}
  disconnectReason : EDisconnectReason := .unknown
  disconnectError : String := ""

/-- What the attempts of `tryNext` that are left come to, once the addresses are resolved. -/
structure ClientConnector where
  host : String := ""
  attempts : Option (List Bool) := none

/-- `info` is what the client says in its HELLO message. -/
structure Client (τ : Type) where
  info : PeerInfo := {}
  session : ClientSession τ
  connector : Option ClientConnector := none
  requestedDataFlags : Flags := 0
  requestedDataUpdateFlags : Flags := 0
  remainingDataFlags : Flags := 0
  isDataRequested : Bool := false
  isSynchronized : Bool := false
  isPaused : Bool := false
  connectionList : ConnectionList := {}
  exit : Option String := none

section

variable {τ : Type} [ClientTransport τ]

namespace ClientSession

variable (s : ClientSession τ)

def sendMessage (msg : SerializedClientMessage) : ClientSession τ :=
  { s with transport := ClientTransport.enqueue s.transport msg }

/-- `quickDisconnect`, up to its callback. -/
def quickDisconnect (reason : EDisconnectReason) (error : String := "") : ClientSession τ :=
  { s with
    transport := ClientTransport.close s.transport
    state := .disconnected
    isConnectionEstablished := false
    disconnectReason := reason
    disconnectError := error }

/-- With a socket that is connected. -/
def connect : ClientSession τ :=
  if s.state = .disconnected then
    { s with
      transport := ClientTransport.connect s.transport
      state := .opening
      sessionTTL := 4
      expectedMsg := .serverBanner }
  else s

def requestData (dataFlags dataUpdateFlags : Flags) : ClientSession τ :=
  if s.state = .connected ∧ s.expectedMsg = .none then
    { s with expectedMsg := .serverDataStatus }.sendMessage
      (ClientServerProtocol.createClientMsgRequestData dataFlags dataUpdateFlags)
  else s

end ClientSession

namespace Client

variable (c : Client τ)

/-! ## Callbacks of the session -/

/-- `ClientConnector::tryNext`. -/
def tryNext (connector : ClientConnector) : Client τ :=
  match connector.attempts with
  | none => c
  | some attempts =>
    match attempts.dropWhile (!·) with
    | [] => { c with
        connector := some { connector with attempts := some [] }
        exit := some ("Unable to connect to '" ++ connector.host ++ "'") }
    | _ :: attempts => { c with
        connector := some { connector with attempts := some attempts }
        session := c.session.connect }

def onSessionDisconnect : Client τ :=
  match c.connector with
  | some connector => c.tryNext connector
  | none => { c with isSynchronized := false, isDataRequested := false }

def quickDisconnect (reason : EDisconnectReason) (error : String := "") : Client τ :=
  { c with session := c.session.quickDisconnect reason error }.onSessionDisconnect

def requestData : Client τ :=
  { c with
    session := c.session.requestData c.requestedDataFlags c.requestedDataUpdateFlags
    isDataRequested := true }

def onSessionConnectionEstablished : Client τ := { c with connector := none }

def onSessionEstablished : Client τ :=
  { { c with
    requestedDataFlags := EDataFlags.connection
    requestedDataUpdateFlags := 0
    remainingDataFlags := 0 }.requestData with isSynchronized := false }

def onSessionServerTick : Client τ :=
  let c :=
    if c.remainingDataFlags ≠ 0 then
      let c := { c with
        remainingDataFlags := 0, requestedDataUpdateFlags := 0, isSynchronized := false }
      if c.isPaused then c else c.requestData
    else if c.session.expectedMsg = .serverDataStatus ∨ c.isPaused then
      { c with isSynchronized := false }
    else { c with remainingDataFlags := c.requestedDataFlags }
  { c with isDataRequested := false }

def onSessionDataStatus : Client τ :=
  let c := { c with
    requestedDataFlags := c.requestedDataFlags &&& c.session.dataFlags
    requestedDataUpdateFlags := c.requestedDataUpdateFlags &&& c.session.dataUpdateFlags }
  if c.requestedDataUpdateFlags ≠ 0 ∧ c.isSynchronized = false then
    { c with requestedDataUpdateFlags := 0 }.requestData
  else c

/-- The end of `onSessionData`, after the deserialization. -/
def onDataDeserialized : Client τ :=
  if c.remainingDataFlags = 0 then
    if c.isSynchronized then c.requestData
    else { c with
      isSynchronized := true
      requestedDataUpdateFlags := c.requestedDataFlags }.requestData
  else c

def onSessionData (S : StdSort) (inet : InetText) (type : Flags) (isUpdate : Bool) (data : Value) :
    Client τ × Option String :=
  if (isUpdate && !c.isSynchronized) || !type.test c.remainingDataFlags || c.isPaused then (c, none)
  else if type.test EDataFlags.connection then
    match data.getArray with
    | none => (c, some "Data is not an array")
    | some items =>
      let list := if isUpdate then c.connectionList else c.connectionList.clear
      match ConnectionList.deserializeItems S inet items list with
      | (list, .error error) => ({ c with connectionList := list }, some error)
      | (list, .ok ()) =>
        ({ c with
          connectionList := list
          remainingDataFlags := c.remainingDataFlags &&& ~~~EDataFlags.connection
          }.onDataDeserialized, none)
  else (c, none)

/-! ## Messages -/

def onBanner (message : Value) : Except String (Client τ) := do
  if c.session.state ≠ .opening ∨ c.session.expectedMsg ≠ .serverBanner then
    throw "Unexpected BANNER message"
  let version ← message.require "conntop_server" "Missing server identification"
    "Invalid server identification value type" Value.getInt
  if version ≠ ClientServerProtocol.protocolVersion then
    return c.quickDisconnect .versionMismatch
  else
    let session := { c.session with expectedMsg := .serverHello }
    return { c with session :=
      session.sendMessage (ClientServerProtocol.createClientMsgHello c.info) }

def onHello (message : Value) : Except String (Client τ) := do
  if c.session.state ≠ .opening ∨ c.session.expectedMsg ≠ .serverHello then
    throw "Unexpected HELLO message"
  let name ← message.require "name" "Missing server name" "Invalid server name value type"
    Value.getString
  let version ← message.require "version" "Missing server version"
    "Invalid server version value type" Value.getString
  let platform ← message.require "platform" "Missing server platform name"
    "Invalid server platform name value type" Value.getString
  return { c with session := { c.session with
    server := ⟨name, version, platform⟩
    expectedMsg := .none
    state := .connected
    sessionTTL := 3
    currentTimestamp := 0
    dataFlags := 0
    dataUpdateFlags := 0 } }.onSessionEstablished

def onDisconnect (message : Value) : Except String (Client τ) := do
  let reasonName ← message.require "reason" "Missing disconnect reason"
    "Invalid disconnect reason value type" Value.getString
  let reason := ClientServerProtocol.getDisconnectReasonEnum reasonName
  return c.quickDisconnect reason (if reason = .unknown then reasonName else "")

def onUpdateTick (message : Value) : Except String (Client τ) :=
  if c.session.state = .closing then .ok c
  else if c.session.state ≠ .connected then .error "Unexpected UPDATE_TICK message"
  else do
    let timestamp ← message.require "timestamp" "Missing update tick timestamp"
      "Invalid update tick timestamp value type" Value.getUint
    let timestamp := BitVec.ofNat 32 timestamp
    if timestamp ≠ c.session.currentTimestamp + 1 ∧ c.session.currentTimestamp ≠ 0 then
      throw "Unexpected update tick timestamp"
    else return { c with session := { c.session with
      currentTimestamp := timestamp
      sessionTTL := c.session.sessionTTL + 1 } }.onSessionServerTick

def onDataStatus (message : Value) : Except String (Client τ) :=
  if c.session.state = .closing then .ok c
  else if c.session.expectedMsg ≠ .serverDataStatus then .error "Unexpected DATA_STATUS message"
  else do
    let dataFlags ← message.require "dataFlags" "Missing data status flags"
      "Invalid data status flags value type" Value.getInt
    let dataUpdateFlags ← message.require "dataUpdateFlags" "Missing data status update flags"
      "Invalid data status update flags value type" Value.getInt
    return { c with session := { c.session with
      dataFlags := .ofInt 32 dataFlags
      dataUpdateFlags := .ofInt 32 dataUpdateFlags
      expectedMsg := .none
      sessionTTL := 3 } }.onSessionDataStatus

/-- The checks of a DATA message. -/
def checkData (message : Value) : Except String (Flags × Bool × Value) :=
  if c.session.state ≠ .connected then .error "Unexpected DATA message"
  else do
    let type ← message.require "type" "Missing data type" "Invalid data type value type"
      Value.getInt
    let isUpdate ← message.require "isUpdate" "Missing data update flag"
      "Invalid data update flag value type" Value.getBool
    let data ← message.require "data" "Missing data" "" some
    let type : Flags := .ofInt 32 type
    if !type.test c.session.dataFlags then throw "Unexpected data"
    else if isUpdate && !type.test c.session.dataUpdateFlags then throw "Unexpected data update"
    else return (type, isUpdate, data)

def onData (S : StdSort) (inet : InetText) (message : Value) : Client τ × Option String :=
  if c.session.state = .closing then (c, none)
  else
    match c.checkData message with
    | .ok (type, isUpdate, data) => c.onSessionData S inet type isUpdate data
    | .error error => (c, some error)

/-- The client after a handler that throws before it changes anything. -/
def orUnchanged (result : Except String (Client τ)) : Client τ × Option String :=
  match result with
  | .ok c => (c, none)
  | .error error => (c, some error)

/-- The kind of a message from the server. -/
def msgType (message : Value) : Except String EServerMsg :=
  if !message.isObject then .error "Invalid message"
  else
    match (message.findMember "message").bind Value.getString with
    | some name =>
      match ClientServerProtocol.getServerMsgEnum name with
      | .unknown => .error ("Unknown message '" ++ name ++ "'")
      | type => .ok type
    | none => if (message.findMember "conntop_server").isSome then .ok .banner
      else .error "Invalid message"

/-- `ClientSession::onMessage`. -/
def onMessage (S : StdSort) (inet : InetText) (message : Value) : Client τ × Option String :=
  match msgType message with
  | .error error => (c, some error)
  -- `msgType` has thrown
  | .ok .unknown => (c, none)
  | .ok .banner => c.orUnchanged (c.onBanner message)
  | .ok .hello => c.orUnchanged (c.onHello message)
  | .ok .disconnect => c.orUnchanged (c.onDisconnect message)
  | .ok .updateTick => c.orUnchanged (c.onUpdateTick message)
  | .ok .dataStatus => c.orUnchanged (c.onDataStatus message)
  | .ok .data => c.onData S inet message

/-- The messages of one `doReceive`, and how it ends. -/
def onMessages (S : StdSort) (inet : InetText) (parserError : Option String) :
    List Value → Client τ → Client τ
  | [], c =>
    match parserError with
    | some error => c.quickDisconnect .protocolError error
    | none => c
  | message :: ms, c =>
    match c.onMessage S inet message with
    | (c, some error) => c.quickDisconnect .protocolError error
    | (c, none) => if c.exit.isSome then c else onMessages S inet parserError ms c

/-- The INPUT part of `SocketPollHandler`. -/
def receive (S : StdSort) (inet : InetText) : Received → Client τ
  | .closed => c.quickDisconnect
      (if c.session.state = .closing then c.session.disconnectReason else .connectionLost)
  | .messages ms parserError => onMessages S inet parserError ms c
  | .failed error => c.quickDisconnect .socketError
      ((if c.session.isConnectionEstablished then "Unable to receive data: " else "") ++ error)

/-! ## What the program does -/

/-- The addresses and the port of the server are resolved. -/
def onResolved (attempts : List Bool) : Client τ :=
  match c.connector with
  | some connector => c.tryNext { connector with attempts := some attempts }
  | none => c

/-- `ClientSession::onUpdate`. -/
def onUpdate : Client τ :=
  if c.session.state = .disconnected then c
  else if 0 < c.session.sessionTTL then
    { c with session := { c.session with sessionTTL := c.session.sessionTTL - 1 } }
  else c.quickDisconnect .timeout

def disconnect : Client τ :=
  let c := { c with connector := none }
  if c.session.state = .connected then
    let session := { c.session with
      state := .closing
      sessionTTL := 2
      disconnectReason := .userDecision
      disconnectError := "" }
    { c with session :=
      session.sendMessage (ClientServerProtocol.createClientMsgDisconnect .userDecision) }
  else if c.session.state = .opening then c.quickDisconnect .userDecision
  else c

def setPaused (paused : Bool) : Client τ :=
  if c.isPaused = paused then c
  else
    let c := { c with isPaused := paused }
    if c.isPaused = false ∧ c.remainingDataFlags = 0 ∧ c.isDataRequested = false then c.requestData
    else c

/-! ## What the operations keep -/

/-- A property of the sending part, the state, whether the connection is established, and whether
there is a connector. -/
structure Keeps (P : τ → ESessionState → Bool → Bool → Prop) : Prop where
  enqueue : ∀ t state e k m, P t state e k → P (ClientTransport.enqueue t m) state e k
  close : ∀ t state e k, P t state e k → P (ClientTransport.close t) .disconnected false k
  connect : ∀ t e, P t .disconnected e true → P (ClientTransport.connect t) .opening e true
  open_ : ∀ t state state' e k, state ≠ .disconnected → state' ≠ .disconnected → P t state e k →
    P t state' e k
  detach : ∀ t state e k, P t state e k → P t state e false

/-- The property holds of a client. -/
def Holds (P : τ → ESessionState → Bool → Bool → Prop) (c : Client τ) : Prop :=
  P c.session.transport c.session.state c.session.isConnectionEstablished c.connector.isSome

variable {c c' : Client τ} {P : τ → ESessionState → Bool → Bool → Prop} {S : StdSort}
variable {inet : InetText} {message : Value}

namespace Keeps

variable (hP : Keeps P)
include hP

theorem requestData (h : c.Holds P) : c.requestData.Holds P := by
  unfold Client.requestData ClientSession.requestData
  split_ifs
  · exact hP.enqueue _ _ _ _ _ h
  · exact h

theorem tryNext {connector : ClientConnector} (h : c.Holds P) (hk : c.connector.isSome = true) :
    (c.tryNext connector).Holds P := by
  unfold Client.tryNext
  split
  · exact h
  · unfold Holds at h
    rw [hk] at h
    split
    · exact h
    · unfold ClientSession.connect
      split_ifs with hs
      · rw [hs] at h
        exact hP.connect _ _ h
      · exact h

theorem quickDisconnect (h : c.Holds P) (reason : EDisconnectReason) (error : String) :
    (c.quickDisconnect reason error).Holds P := by
  have hclose := hP.close _ _ _ _ h
  unfold Client.quickDisconnect onSessionDisconnect
  dsimp only
  split
  · rename_i connector hk
    exact hP.tryNext hclose (by simp [hk])
  · exact hclose

theorem onSessionServerTick (h : c.Holds P) : c.onSessionServerTick.Holds P := by
  unfold Client.onSessionServerTick
  dsimp only
  split_ifs
  · exact h
  · exact hP.requestData h
  · exact h
  · exact h

theorem onSessionDataStatus (h : c.Holds P) : c.onSessionDataStatus.Holds P := by
  unfold Client.onSessionDataStatus
  dsimp only
  split_ifs
  · exact hP.requestData h
  · exact h

theorem onDataDeserialized (h : c.Holds P) : c.onDataDeserialized.Holds P := by
  unfold Client.onDataDeserialized
  split_ifs
  · exact hP.requestData h
  · exact hP.requestData h
  · exact h

theorem onSessionData (h : c.Holds P) (type : Flags) (isUpdate : Bool) (data : Value) :
    (c.onSessionData S inet type isUpdate data).1.Holds P := by
  unfold Client.onSessionData
  split
  · exact h
  · split
    · split
      · exact h
      · dsimp only
        split
        · exact h
        · exact hP.onDataDeserialized h
    · exact h

omit [ClientTransport τ] hP in
theorem orUnchanged {result : Except String (Client τ)} (h : c.Holds P)
    (hr : ∀ c', result = .ok c' → c'.Holds P) : (c.orUnchanged result).1.Holds P := by
  cases result with
  | error error => exact h
  | ok c' => exact hr c' rfl

theorem onBanner (h : c.Holds P) (hr : c.onBanner message = .ok c') : c'.Holds P := by
  unfold Client.onBanner at hr
  split_ifs at hr
  · cases hr
  · obtain ⟨version, -, hr⟩ := Value.of_bind_ok hr
    split_ifs at hr
    · cases hr
      exact hP.quickDisconnect h _ _
    · cases hr
      exact hP.enqueue _ _ _ _ _ h

theorem onHello (h : c.Holds P) (hr : c.onHello message = .ok c') : c'.Holds P := by
  unfold Client.onHello at hr
  split_ifs at hr with hs
  · cases hr
  · obtain ⟨name, -, hr⟩ := Value.of_bind_ok hr
    obtain ⟨version, -, hr⟩ := Value.of_bind_ok hr
    obtain ⟨platform, -, hr⟩ := Value.of_bind_ok hr
    cases hr
    rw [not_or, not_not, not_not] at hs
    have hopen := hP.open_ _ _ .connected _ _ (by simp [hs.1]) (by simp) h
    exact hP.requestData hopen

theorem onDisconnect (h : c.Holds P) (hr : c.onDisconnect message = .ok c') : c'.Holds P := by
  obtain ⟨reasonName, -, hr⟩ := Value.of_bind_ok hr
  cases hr
  exact hP.quickDisconnect h _ _

theorem onUpdateTick (h : c.Holds P) (hr : c.onUpdateTick message = .ok c') : c'.Holds P := by
  unfold Client.onUpdateTick at hr
  split_ifs at hr
  · cases hr
    exact h
  · obtain ⟨timestamp, -, hr⟩ := Value.of_bind_ok hr
    dsimp only at hr
    split_ifs at hr
    cases hr
    exact hP.onSessionServerTick h

theorem onDataStatus (h : c.Holds P) (hr : c.onDataStatus message = .ok c') : c'.Holds P := by
  unfold Client.onDataStatus at hr
  split_ifs at hr
  · cases hr
    exact h
  · obtain ⟨dataFlags, -, hr⟩ := Value.of_bind_ok hr
    obtain ⟨dataUpdateFlags, -, hr⟩ := Value.of_bind_ok hr
    cases hr
    exact hP.onSessionDataStatus h

theorem onData (h : c.Holds P) : (c.onData S inet message).1.Holds P := by
  unfold Client.onData
  split_ifs
  · exact h
  · split
    · exact hP.onSessionData h _ _ _
    · exact h

theorem onMessage (h : c.Holds P) : (c.onMessage S inet message).1.Holds P := by
  unfold Client.onMessage
  split
  · exact h
  · exact h
  · exact orUnchanged h fun _ => hP.onBanner h
  · exact orUnchanged h fun _ => hP.onHello h
  · exact orUnchanged h fun _ => hP.onDisconnect h
  · exact orUnchanged h fun _ => hP.onUpdateTick h
  · exact orUnchanged h fun _ => hP.onDataStatus h
  · exact hP.onData h

theorem onMessages (parserError : Option String) (ms : List Value) (c : Client τ)
    (h : c.Holds P) : (onMessages S inet parserError ms c).Holds P := by
  induction ms generalizing c with
  | nil =>
    cases parserError with
    | none => exact h
    | some error => exact hP.quickDisconnect h _ _
  | cons message ms ih =>
    have hm : (c.onMessage S inet message).1.Holds P := hP.onMessage h
    unfold Client.onMessages
    generalize c.onMessage S inet message = r at hm ⊢
    obtain ⟨c', error⟩ := r
    cases error with
    | some error => exact hP.quickDisconnect hm _ _
    | none =>
      dsimp only
      split_ifs
      · exact hm
      · exact ih c' hm

theorem receive (h : c.Holds P) (received : Received) : (c.receive S inet received).Holds P := by
  cases received with
  | closed => exact hP.quickDisconnect h _ _
  | messages ms parserError => exact hP.onMessages parserError ms c h
  | failed error => exact hP.quickDisconnect h _ _

theorem onResolved (h : c.Holds P) (attempts : List Bool) : (c.onResolved attempts).Holds P := by
  unfold Client.onResolved
  split
  · rename_i hk
    exact hP.tryNext h (by simp [hk])
  · exact h

theorem onUpdate (h : c.Holds P) : c.onUpdate.Holds P := by
  unfold Client.onUpdate
  split_ifs
  · exact h
  · exact h
  · exact hP.quickDisconnect h _ _

theorem disconnect (h : c.Holds P) : c.disconnect.Holds P := by
  have hdetach : Holds P { c with connector := none } := hP.detach _ _ _ _ h
  unfold Client.disconnect
  dsimp only
  split_ifs with hs
  · exact hP.enqueue _ _ _ _ _ (hP.open_ _ _ .closing _ _ (by simp [hs]) (by simp) hdetach)
  · exact hP.quickDisconnect hdetach _ _
  · exact hdetach

theorem setPaused (h : c.Holds P) (paused : Bool) : (c.setPaused paused).Holds P := by
  unfold Client.setPaused
  dsimp only
  split_ifs
  · exact h
  · exact hP.requestData h
  · exact h

end Keeps

end Client

end

/-! ## The poll handler -/

abbrev ClientOutbox := Outbox Empty EClientMsg

/-- The client has no shared messages. -/
def clientMemory : SharedMemory Empty EClientMsg where
  texts := nofun
  replaced := nofun

instance : ClientTransport ClientOutbox where
  enqueue o msg := o.enqueue clientMemory (.own msg)
  close o := o.close
  connect o := { o with
    isConnected := true
    pollFlags := some (EPollFlags.input ||| EPollFlags.output) }

namespace Client

/-- The client after `init`. -/
def init (info : PeerInfo) (host : String) : Client ClientOutbox :=
  { info := info, session := { transport := {} }, connector := some { host := host } }

variable (S : StdSort) (inet : InetText) (c : Client ClientOutbox)

/-- The OUTPUT part of `SocketPollHandler`. -/
def output (socket : Socket) : Client ClientOutbox :=
  if c.session.isConnectionEstablished then
    match c.session.transport.sendLoop (fun _ => false) clientMemory c.session.transport.sendQueue
      socket with
    | (.failed, o) => { c with session := { c.session with transport := o } }.quickDisconnect
        .socketError ("Unable to send data: " ++ socket.error)
    | (_, o) => { c with session := { c.session with transport := o } }
  else if socket.isVerified then
    { c with session := { c.session with
      isConnectionEstablished := true } }.onSessionConnectionEstablished
  else c.quickDisconnect .socketError socket.error

/-- The ERROR part, and the request at the end. -/
def afterOutput (event : PollEvent) : Client ClientOutbox :=
  let c := if event.flags.test EPollFlags.error ∧ c.session.state ≠ .disconnected then
    c.quickDisconnect .socketError "Socket poll failed" else c
  { c with session := { c.session with transport := c.session.transport.resetPoll } }

/-- The parts of `SocketPollHandler` after the INPUT part. -/
def afterInput (event : PollEvent) : Client ClientOutbox :=
  if event.flags.test EPollFlags.output ∧ c.session.state ≠ .disconnected then
    (c.output event.socket).afterOutput event
  else c.afterOutput event

/-- The INPUT part, when the flag is set. -/
def input (event : PollEvent) : Client ClientOutbox :=
  if event.flags.test EPollFlags.input then c.receive S inet event.received else c

def socketPollHandler (event : PollEvent) : Client ClientOutbox :=
  (c.input S inet event).afterInput event

end Client

end Conntop
