import Conntop.SocketWriter

/-!
# `ServerSession`

One client of the server, up to its sending part: `ServerTransport` lists what a session and the
server do with that. `Outbox` is the sending part of the source.

* The messages that sessions share are in a `ServerMemory`. An operation of a session reads it.
* `onSessionDataRequest` is the callback of the server, as far as the session goes. What else it
  does, `setSerializationEnabled(true)`, is left to the caller: operations tell if it is done.

Main results: `onMessage_ok`, what a message can do to a session, and `Keeps`, what the operations
of a session keep.
-/

namespace Conntop

/-- The messages that sessions share. -/
inductive SharedMsg
  | banner | hello | updateTick | connections | connectionUpdates
  deriving DecidableEq, Repr

abbrev ServerMemory := SharedMemory SharedMsg EServerMsg

abbrev ServerMsgPointer := MsgPointer SharedMsg EServerMsg

/-- The sending part of a server session. -/
class ServerTransport (τ : Type) where
  enqueue : τ → ServerMemory → ServerMsgPointer → τ
  close : τ → τ
  isSendingData : τ → Bool
  stopSendingData : τ → ServerMemory → τ × Bool

structure ServerSession (τ : Type) where
  transport : τ
  state : ESessionState := .disconnected
  sessionTTL : ℕ := 0
  dataFlags : Flags := 0
  dataUpdateFlags : Flags := 0
  client : PeerInfo := {}
  disconnectReason : EDisconnectReason := .unknown
  disconnectError : String := ""

namespace ServerSession

section

variable {τ : Type} [ServerTransport τ] (mem : ServerMemory) (s : ServerSession τ)

def sendMessage (msg : SerializedServerMessage) : ServerSession τ :=
  { s with transport := ServerTransport.enqueue s.transport mem (.own msg) }

def sendSharedMessage (k : SharedMsg) : ServerSession τ :=
  { s with transport := ServerTransport.enqueue s.transport mem (.shared k) }

/-- The constructor, with a connected socket. -/
def accept (transport : τ) : ServerSession τ :=
  sendSharedMessage mem { transport := transport, state := .opening } .banner

def quickDisconnect (reason : EDisconnectReason) (error : String := "") : ServerSession τ :=
  { s with
    transport := ServerTransport.close s.transport
    state := .disconnected
    disconnectReason := reason
    disconnectError := error }

def onUpdate : ServerSession τ :=
  let s := { s with dataFlags := 0, dataUpdateFlags := 0 }
  if s.state = .connected then s.sendSharedMessage mem .updateTick
  else if s.state = .closing then
    if 0 < s.sessionTTL then { s with sessionTTL := s.sessionTTL - 1 }
    else s.quickDisconnect .timeout
  else s

def disconnect : ServerSession τ :=
  if s.state = .connected then
    { s with
      state := .closing
      sessionTTL := 4
      disconnectReason := .serverQuit
      disconnectError := "" }.sendMessage mem
        (ClientServerProtocol.createServerMsgDisconnect .serverQuit)
  else if s.state = .opening then s.quickDisconnect .serverQuit
  else s

def sendDataStatus (dataFlags dataUpdateFlags : Flags) : ServerSession τ :=
  if s.state = .connected then
    { s with dataFlags := dataFlags, dataUpdateFlags := dataUpdateFlags }.sendMessage mem
      (ClientServerProtocol.createServerMsgDataStatus dataFlags dataUpdateFlags)
  else s

def sendData (k : SharedMsg) : ServerSession τ :=
  if s.state = .connected then s.sendSharedMessage mem k else s

def stopSendingData : ServerSession τ :=
  let (transport, wasSendingData) := ServerTransport.stopSendingData s.transport mem
  { s with
    transport := transport
    dataFlags := if wasSendingData then 0 else s.dataFlags
    dataUpdateFlags := if wasSendingData then 0 else s.dataUpdateFlags }

/-! ## Messages -/

/-- `Server::onSessionDataRequest`, with the data that the server has. -/
def onSessionDataRequest (available dataFlags dataUpdateFlags : Flags) : ServerSession τ × Bool :=
  let dataFlags := dataFlags &&& available
  let dataUpdateFlags := dataUpdateFlags &&& available
  (s.sendDataStatus mem dataFlags dataUpdateFlags,
    dataFlags.test EDataFlags.connection && dataUpdateFlags.test EDataFlags.connection)

def onHello (message : Value) : Except String (ServerSession τ) := do
  if s.state ≠ .opening then throw "Unexpected HELLO message"
  let name ← message.require "name" "Missing client name" "Invalid client name value type"
    Value.getString
  let version ← message.require "version" "Missing client version"
    "Invalid client version value type" Value.getString
  let platform ← message.require "platform" "Missing client platform name"
    "Invalid client platform name value type" Value.getString
  let s := { s with client := ⟨name, version, platform⟩ }.sendSharedMessage mem .hello
  return { s with state := .connected }

def onDisconnect (message : Value) : Except String (ServerSession τ) := do
  let reasonName ← message.require "reason" "Missing disconnect reason"
    "Invalid disconnect reason value type" Value.getString
  let reason := ClientServerProtocol.getDisconnectReasonEnum reasonName
  return s.quickDisconnect reason (if reason = .unknown then reasonName else "")

def onRequestData (available : Flags) (message : Value) :
    Except String (ServerSession τ × Bool) :=
  if s.state = .closing then .ok (s, false)
  else if s.state ≠ .connected then .error "Unexpected REQUEST_DATA message"
  else do
    let dataFlags ← message.require "dataFlags" "Missing data status type"
      "Invalid data status type value type" Value.getInt
    let dataUpdateFlags ← message.require "dataUpdateFlags" "Missing data status update"
      "Invalid data status update value type" Value.getInt
    return s.onSessionDataRequest mem available (.ofInt 32 dataFlags) (.ofInt 32 dataUpdateFlags)

/-- `onMessage`, which throws `std::invalid_argument`. -/
def onMessage (available : Flags) (message : Value) : Except String (ServerSession τ × Bool) := do
  if !message.isObject then throw "Invalid message"
  let name ← message.require "message" "Missing message type" "Invalid message type value type"
    Value.getString
  match ClientServerProtocol.getClientMsgEnum name with
  | .unknown => throw ("Unknown message '" ++ name ++ "'")
  | .hello => return (← s.onHello mem message, false)
  | .disconnect => return (← s.onDisconnect message, false)
  | .requestData => s.onRequestData mem available message

/-- The messages of one `doReceive`, and how it ends. -/
def onMessages (available : Flags) (parserError : Option String) :
    List Value → ServerSession τ → ServerSession τ × Bool
  | [], s =>
    match parserError with
    | some error => (s.quickDisconnect .protocolError error, false)
    | none => (s, false)
  | message :: ms, s =>
    match s.onMessage mem available message with
    | .ok (s, enable) =>
      let (s, enable') := onMessages available parserError ms s
      (s, enable || enable')
    | .error error => (s.quickDisconnect .protocolError error, false)

/-- The INPUT part of `SocketPollHandler`. -/
def receive (available : Flags) : Received → ServerSession τ × Bool
  | .closed =>
    (s.quickDisconnect (if s.state = .closing then s.disconnectReason else .connectionLost), false)
  | .messages ms parserError => onMessages mem available parserError ms s
  | .failed error => (s.quickDisconnect .socketError ("Unable to receive data: " ++ error), false)

/-! ## What a message does -/

variable {mem : ServerMemory} {s s' : ServerSession τ} {available : Flags} {message : Value}
variable {enable : Bool} {P : τ → ESessionState → Prop}

@[simp] theorem sendMessage_state (mem : ServerMemory) (s : ServerSession τ)
    (msg : SerializedServerMessage) : (s.sendMessage mem msg).state = s.state := rfl

@[simp] theorem sendSharedMessage_state (mem : ServerMemory) (s : ServerSession τ)
    (k : SharedMsg) : (s.sendSharedMessage mem k).state = s.state := rfl

theorem onHello_ok (h : s.onHello mem message = .ok s') : s.state = .opening ∧
    ∃ info, s' = { { s with client := info }.sendSharedMessage mem .hello with
      state := .connected } := by
  unfold onHello at h
  split_ifs at h with hs
  · cases h
  · obtain ⟨name, -, h⟩ := Value.of_bind_ok h
    obtain ⟨version, -, h⟩ := Value.of_bind_ok h
    obtain ⟨platform, -, h⟩ := Value.of_bind_ok h
    cases h
    exact ⟨not_not.mp hs, _, rfl⟩

theorem onDisconnect_ok (h : s.onDisconnect message = .ok s') :
    ∃ reason error, s' = s.quickDisconnect reason error := by
  obtain ⟨reasonName, -, h⟩ := Value.of_bind_ok h
  cases h
  exact ⟨_, _, rfl⟩

theorem onRequestData_ok (h : s.onRequestData mem available message = .ok (s', enable)) :
    (s.state = .closing ∧ s' = s ∧ enable = false) ∨ s.state = .connected ∧
      ∃ f g, (s', enable) = s.onSessionDataRequest mem available f g := by
  unfold onRequestData at h
  split_ifs at h with hc hs
  · cases h
    exact .inl ⟨hc, rfl, rfl⟩
  · obtain ⟨f, -, h⟩ := Value.of_bind_ok h
    obtain ⟨g, -, h⟩ := Value.of_bind_ok h
    cases h
    exact .inr ⟨not_not.mp hs, _, _, rfl⟩

/-- The effects that a message can have. -/
theorem onMessage_ok (h : s.onMessage mem available message = .ok (s', enable)) :
    (enable = false ∧ s.onHello mem message = .ok s') ∨
      (enable = false ∧ s.onDisconnect message = .ok s') ∨
        s.onRequestData mem available message = .ok (s', enable) := by
  unfold onMessage at h
  split_ifs at h
  · cases h
  · obtain ⟨name, -, h⟩ := Value.of_bind_ok h
    split at h
    · cases h
    · obtain ⟨t, ht, h⟩ := Value.of_bind_ok h
      cases h
      exact .inl ⟨rfl, ht⟩
    · obtain ⟨t, ht, h⟩ := Value.of_bind_ok h
      cases h
      exact .inr (.inl ⟨rfl, ht⟩)
    · exact .inr (.inr h)

/-- The messages that a session sends by itself are no DATA of the server. -/
def IsControl (m : ServerMsgPointer) : Prop :=
  m ≠ .shared .connections ∧ m ≠ .shared .connectionUpdates

/-- A property of the sending part and the state that a session keeps. -/
structure Keeps (mem : ServerMemory) (P : τ → ESessionState → Prop) : Prop where
  enqueue : ∀ t state m, IsControl m → state ≠ .disconnected → P t state →
    P (ServerTransport.enqueue t mem m) state
  close : ∀ t state, P t state → P (ServerTransport.close t) .disconnected
  open_ : ∀ t state state', state ≠ .disconnected → state' ≠ .disconnected → P t state → P t state'

namespace Keeps

variable (hP : Keeps mem P)
include hP

theorem sendDataStatus (h : P s.transport s.state) (f g : Flags) :
    P (s.sendDataStatus mem f g).transport (s.sendDataStatus mem f g).state := by
  unfold ServerSession.sendDataStatus
  split_ifs with hc
  · exact hP.enqueue _ _ _ ⟨nofun, nofun⟩ (by simp [hc]) h
  · exact h

omit hP in
theorem sendData {k : SharedMsg} (h : P s.transport s.state)
    (hk : ∀ t, P t .connected → P (ServerTransport.enqueue t mem (.shared k)) .connected) :
    P (s.sendData mem k).transport (s.sendData mem k).state := by
  unfold ServerSession.sendData
  split_ifs with hc
  · show P (ServerTransport.enqueue _ _ _) s.state
    rw [hc] at h ⊢
    exact hk _ h
  · exact h

theorem disconnect (h : P s.transport s.state) :
    P (s.disconnect mem).transport (s.disconnect mem).state := by
  unfold ServerSession.disconnect
  split_ifs with hc
  · exact hP.enqueue _ _ _ ⟨nofun, nofun⟩ (by simp)
      (hP.open_ _ _ _ (by simp [hc]) (by simp) h)
  · exact hP.close _ _ h
  · exact h

theorem onUpdate (h : P s.transport s.state) :
    P (s.onUpdate mem).transport (s.onUpdate mem).state := by
  unfold ServerSession.onUpdate
  dsimp only
  split_ifs with hc
  · exact hP.enqueue _ _ _ ⟨nofun, nofun⟩ (by simp [hc]) h
  · exact h
  · exact hP.close _ _ h
  · exact h

theorem onMessage (h : P s.transport s.state)
    (hm : s.onMessage mem available message = .ok (s', enable)) : P s'.transport s'.state := by
  rcases onMessage_ok hm with ⟨-, hm⟩ | ⟨-, hm⟩ | hm
  · obtain ⟨hs, info, rfl⟩ := onHello_ok hm
    have hhello := hP.enqueue _ _ (.shared .hello) ⟨nofun, nofun⟩ (by simp [hs]) h
    exact hP.open_ _ _ _ (by simp [hs]) (by simp) hhello
  · obtain ⟨reason, error, rfl⟩ := onDisconnect_ok hm
    exact hP.close _ _ h
  · rcases onRequestData_ok hm with ⟨-, rfl, -⟩ | ⟨-, f, g, hr⟩
    · exact h
    · obtain ⟨rfl, -⟩ := Prod.mk.inj hr
      exact hP.sendDataStatus h _ _

theorem onMessages (parserError : Option String) (ms : List Value) (s : ServerSession τ)
    (h : P s.transport s.state) : P (onMessages mem available parserError ms s).1.transport
      (onMessages mem available parserError ms s).1.state := by
  induction ms generalizing s with
  | nil =>
    cases parserError with
    | none => exact h
    | some error => exact hP.close _ _ h
  | cons message ms ih =>
    unfold ServerSession.onMessages
    cases hm : s.onMessage mem available message with
    | error error => exact hP.close _ _ h
    | ok r => exact ih _ (hP.onMessage h hm)

theorem receive (h : P s.transport s.state) (received : Received) :
    P (s.receive mem available received).1.transport
      (s.receive mem available received).1.state := by
  cases received with
  | closed => exact hP.close _ _ h
  | messages ms parserError => exact hP.onMessages parserError ms s h
  | failed error => exact hP.close _ _ h

end Keeps

end

/-! ## The poll handler -/

abbrev ServerOutbox := Outbox SharedMsg EServerMsg

def isData (type : EServerMsg) : Bool := type == .data

instance : ServerTransport ServerOutbox where
  enqueue o mem m := o.enqueue mem m
  close o := o.close
  isSendingData o := o.isSendingData
  stopSendingData o mem := o.stopSendingData isData mem

/-- The sending part of a new session. -/
def acceptedOutbox : ServerOutbox :=
  { isConnected := true, pollFlags := some EPollFlags.input }

variable (mem : ServerMemory) (s : ServerSession ServerOutbox)

/-- The OUTPUT part of `SocketPollHandler`. -/
def output (socket : Socket) : ServerSession ServerOutbox :=
  match s.transport.sendLoop isData mem s.transport.sendQueue socket with
  | (.failed, o) => { s with transport := o }.quickDisconnect .socketError
      ("Unable to send data: " ++ socket.error)
  | (_, o) => { s with transport := o }

/-- The ERROR part, and the request at the end. -/
def afterOutput (event : PollEvent) : ServerSession ServerOutbox :=
  let s := if event.flags.test EPollFlags.error ∧ s.state ≠ .disconnected then
    s.quickDisconnect .socketError "Socket poll failed" else s
  { s with transport := s.transport.resetPoll }

/-- The parts of `SocketPollHandler` after the INPUT part. -/
def afterInput (event : PollEvent) : ServerSession ServerOutbox :=
  if event.flags.test EPollFlags.output ∧ s.state ≠ .disconnected then
    (s.output mem event.socket).afterOutput event
  else s.afterOutput event

/-- The INPUT part, when the flag is set. -/
def input (available : Flags) (event : PollEvent) : ServerSession ServerOutbox × Bool :=
  if event.flags.test EPollFlags.input then s.receive mem available event.received else (s, false)

def socketPollHandler (available : Flags) (event : PollEvent) :
    ServerSession ServerOutbox × Bool :=
  let (s, enable) := s.input mem available event
  (s.afterInput mem event, enable)

end ServerSession

end Conntop
