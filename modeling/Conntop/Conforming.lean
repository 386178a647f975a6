import Conntop.LifeCycle
import Conntop.Server

/-!
# Messages of a conforming peer

What the sessions make of the messages that the other side creates. Every member that `onMessage`
asks for is there and of its kind, so what is left of each handler is its check of the session
and what it does.

Main results: for each message the `onMessage_…` of `Client`, and of `ServerSession`.
-/

namespace Conntop

namespace ClientServerProtocol

@[simp] theorem findMember_message (name : String) (members : List (String × Value)) :
    (messageDocument name members).findMember "message" = some (.string name) := by
  rw [messageDocument, Value.findMember_object]
  rfl

@[simp] theorem isObject_messageDocument (name : String) (members : List (String × Value)) :
    (messageDocument name members).isObject = true := rfl

theorem cString_getServerMsgName (type : EServerMsg) :
    cString (getServerMsgName type) = getServerMsgName type :=
  cString_eq (by cases type <;> decide)

theorem cString_getClientMsgName (type : EClientMsg) :
    cString (getClientMsgName type) = getClientMsgName type :=
  cString_eq (by cases type <;> decide)

end ClientServerProtocol

open ClientServerProtocol

/-! ## The client -/

namespace Client

variable {τ : Type} [ClientTransport τ] {S : StdSort} {inet : InetText} {c : Client τ}
variable {message : Value}

theorem msgType_messageDocument {type : EServerMsg} (h : type ≠ .unknown)
    (members : List (String × Value)) :
    msgType (messageDocument (getServerMsgName type) members) = .ok type := by
  rw [msgType, isObject_messageDocument, findMember_message]
  simp only [Option.bind_some, Value.getString, cString_getServerMsgName,
    getServerMsgEnum_getServerMsgName]
  cases type with
  | unknown => exact absurd rfl h
  | _ => rfl

/-- The client when it has answered the banner. -/
def helloSent (c : Client τ) : Client τ :=
  let session := { c.session with expectedMsg := .serverHello }
  { c with session := session.sendMessage (createClientMsgHello c.info) }

/-- The session when the server has said who it is. -/
def established (s : ClientSession τ) (server : PeerInfo) : ClientSession τ :=
  { s with
    server := server
    expectedMsg := .none
    state := .connected
    sessionTTL := 3
    currentTimestamp := 0
    dataFlags := 0
    dataUpdateFlags := 0 }

theorem onMessage_banner (hs : c.session.state = .opening)
    (he : c.session.expectedMsg = .serverBanner)
    (h : createServerMsgBanner.document = some message) :
    c.onMessage S inet message = (c.helloSent, none) := by
  obtain rfl := Option.some.inj h
  have hbanner : c.onBanner (.object [("conntop_server", .int protocolVersion)]) =
      .ok c.helloSent := by
    rw [onBanner, if_neg (by simp [hs, he]), Value.require_eq (a := protocolVersion) rfl rfl]
    rfl
  show c.orUnchanged (c.onBanner _) = _
  rw [hbanner]
  rfl

variable (S inet) in
theorem onMessage_hello (hs : c.session.state = .opening)
    (he : c.session.expectedMsg = .serverHello) {info : PeerInfo}
    (h : (createServerMsgHello info).document = some message) :
    ∃ server, c.onMessage S inet message =
      ({ c with session := established c.session server }.onSessionEstablished, none) := by
  obtain rfl := Option.some.inj h
  refine ⟨⟨cString info.name, cString info.version, cString info.platform⟩, ?_⟩
  rw [onMessage, msgType_messageDocument EServerMsg.noConfusion]
  dsimp only
  rw [onHello, if_neg (by simp [hs, he]), Value.require_eq (a := cString info.name) rfl rfl,
    Value.bind_ok]
  dsimp only
  rw [Value.require_eq (a := cString info.version) rfl rfl, Value.bind_ok,
    Value.require_eq (a := cString info.platform) rfl rfl, Value.bind_ok]
  rfl

variable (S inet c) in
theorem onMessage_disconnect {reason : EDisconnectReason}
    (h : (createServerMsgDisconnect reason).document = some message) :
    ∃ reason error, c.onMessage S inet message = (c.quickDisconnect reason error, none) := by
  obtain rfl := Option.some.inj h
  rw [onMessage, msgType_messageDocument EServerMsg.noConfusion]
  dsimp only
  rw [onDisconnect, Value.require_eq (a := cString (getDisconnectReasonName reason)) rfl rfl]
  exact ⟨_, _, rfl⟩

/-- A session that closes ignores what the server goes on to send. -/
theorem onMessage_closing (hs : c.session.state = .closing) {type : EServerMsg}
    (ht : type = .updateTick ∨ type = .dataStatus ∨ type = .data)
    (members : List (String × Value)) :
    c.onMessage S inet (messageDocument (getServerMsgName type) members) = (c, none) := by
  obtain rfl | rfl | rfl := ht
  · rw [onMessage, msgType_messageDocument EServerMsg.noConfusion]
    dsimp only
    rw [onUpdateTick, if_pos hs]
    rfl
  · rw [onMessage, msgType_messageDocument EServerMsg.noConfusion]
    dsimp only
    rw [onDataStatus, if_pos hs]
    rfl
  · rw [onMessage, msgType_messageDocument EServerMsg.noConfusion]
    dsimp only
    rw [onData, if_pos hs]

/-- The session at a tick. -/
def ticked (s : ClientSession τ) (timestamp : BitVec 32) : ClientSession τ :=
  { s with currentTimestamp := timestamp, sessionTTL := s.sessionTTL + 1 }

theorem onMessage_updateTick (hs : c.session.state = .connected) {timestamp : BitVec 32}
    (ht : timestamp = c.session.currentTimestamp + 1 ∨ c.session.currentTimestamp = 0)
    (h : (createServerMsgUpdateTick timestamp).document = some message) :
    c.onMessage S inet message =
      ({ c with session := ticked c.session timestamp }.onSessionServerTick, none) := by
  obtain rfl := Option.some.inj h
  rw [onMessage, msgType_messageDocument EServerMsg.noConfusion]
  dsimp only
  rw [onUpdateTick, if_neg (by simp [hs]), if_neg (by simp [hs]),
    Value.require_eq (a := timestamp.toNat) rfl (Value.getUint_int (Nat.le_refl 32) timestamp),
    Value.bind_ok, BitVec.ofNat_toNat, BitVec.setWidth_eq, if_neg]
  · rfl
  · rintro ⟨hne, hzero⟩
    exact ht.elim hne hzero

/-- The session when the server has granted data. -/
def granted (s : ClientSession τ) (dataFlags dataUpdateFlags : Flags) : ClientSession τ :=
  { s with
    dataFlags := dataFlags
    dataUpdateFlags := dataUpdateFlags
    expectedMsg := .none
    sessionTTL := 3 }

theorem onMessage_dataStatus (hs : c.session.state = .connected)
    (he : c.session.expectedMsg = .serverDataStatus) {f g : Flags}
    (h : (createServerMsgDataStatus f g).document = some message) :
    c.onMessage S inet message =
      ({ c with session := granted c.session f g }.onSessionDataStatus, none) := by
  obtain rfl := Option.some.inj h
  rw [onMessage, msgType_messageDocument EServerMsg.noConfusion]
  dsimp only
  rw [onDataStatus, if_neg (by simp [hs]), if_neg (by simp [he]),
    Value.require_eq (a := f.toInt) rfl (Value.getInt_int f), Value.bind_ok,
    Value.require_eq (a := g.toInt) rfl (Value.getInt_int g), Value.bind_ok, BitVec.ofInt_toInt,
    BitVec.ofInt_toInt]
  rfl

omit [ClientTransport τ] in
theorem checkData_data (hs : c.session.state = .connected) {type : Flags} {isUpdate : Bool}
    {data : Value} (hf : type.test c.session.dataFlags = true)
    (hg : isUpdate = true → type.test c.session.dataUpdateFlags = true)
    (h : (createServerMsgData type isUpdate data).document = some message) :
    c.checkData message = .ok (type, isUpdate, data) := by
  obtain rfl := Option.some.inj h
  rw [checkData, if_neg (by simp [hs]),
    Value.require_eq (a := type.toInt) rfl (Value.getInt_int type), Value.bind_ok,
    Value.require_eq (a := isUpdate) rfl rfl, Value.bind_ok,
    Value.require_eq (a := data) rfl rfl, Value.bind_ok, BitVec.ofInt_toInt]
  dsimp only
  rw [if_neg (by simp [hf]), if_neg]
  · rfl
  · rw [Bool.and_eq_true, Bool.not_eq_true']
    rintro ⟨hu, hno⟩
    exact Bool.false_ne_true (hno.symm.trans (hg hu))

theorem onMessage_data (hs : c.session.state = .connected) {type : Flags} {isUpdate : Bool}
    {data : Value} (hf : type.test c.session.dataFlags = true)
    (hg : isUpdate = true → type.test c.session.dataUpdateFlags = true)
    (h : (createServerMsgData type isUpdate data).document = some message) :
    c.onMessage S inet message = c.onSessionData S inet type isUpdate data := by
  have hcheck := checkData_data hs hf hg h
  obtain rfl := Option.some.inj h
  rw [onMessage, msgType_messageDocument EServerMsg.noConfusion]
  dsimp only
  rw [onData, if_neg (by simp [hs]), hcheck]

end Client

/-! ## The server -/

namespace ServerSession

variable {τ : Type} [ServerTransport τ] {mem : ServerMemory} {s : ServerSession τ}
variable {available : Flags} {message : Value}

theorem onMessage_messageDocument {type : EClientMsg} (members : List (String × Value)) :
    s.onMessage mem available (messageDocument (getClientMsgName type) members) =
      match type with
      | .unknown => .error ("Unknown message '" ++ getClientMsgName .unknown ++ "'")
      | .hello => do
        return (← s.onHello mem (messageDocument (getClientMsgName .hello) members), false)
      | .disconnect => do
        return (← s.onDisconnect (messageDocument (getClientMsgName .disconnect) members), false)
      | .requestData => s.onRequestData mem available
          (messageDocument (getClientMsgName .requestData) members) := by
  rw [onMessage, isObject_messageDocument]
  have hname : (Value.string (getClientMsgName type)).getString = some (getClientMsgName type) :=
    congrArg some (cString_getClientMsgName type)
  rw [if_neg (by simp), Value.require_eq (findMember_message _ _) hname, Value.bind_ok,
    getClientMsgEnum_getClientMsgName]
  cases type <;> rfl

variable (mem available) in
theorem onMessage_hello (hs : s.state = .opening) {info : PeerInfo}
    (h : (createClientMsgHello info).document = some message) :
    ∃ client, s.onMessage mem available message = .ok
      ({ { s with client := client }.sendSharedMessage mem .hello with state := .connected },
        false) := by
  obtain rfl := Option.some.inj h
  refine ⟨⟨cString info.name, cString info.version, cString info.platform⟩, ?_⟩
  rw [onMessage_messageDocument]
  dsimp only
  rw [onHello, if_neg (by simp [hs]), Value.require_eq (a := cString info.name) rfl rfl,
    Value.bind_ok]
  dsimp only
  rw [Value.require_eq (a := cString info.version) rfl rfl, Value.bind_ok,
    Value.require_eq (a := cString info.platform) rfl rfl, Value.bind_ok]
  rfl

variable (mem available s) in
theorem onMessage_disconnect {reason : EDisconnectReason}
    (h : (createClientMsgDisconnect reason).document = some message) :
    ∃ reason error, s.onMessage mem available message =
      .ok (s.quickDisconnect reason error, false) := by
  obtain rfl := Option.some.inj h
  rw [onMessage_messageDocument]
  dsimp only
  rw [onDisconnect, Value.require_eq (a := cString (getDisconnectReasonName reason)) rfl rfl]
  exact ⟨_, _, rfl⟩

variable (mem available s) in
theorem onMessage_requestData {f g : Flags}
    (h : (createClientMsgRequestData f g).document = some message) :
    s.onMessage mem available message =
      if s.state = .closing then .ok (s, false)
      else if s.state ≠ .connected then .error "Unexpected REQUEST_DATA message"
      else .ok (s.onSessionDataRequest mem available f g) := by
  obtain rfl := Option.some.inj h
  rw [onMessage_messageDocument]
  dsimp only
  rw [onRequestData, Value.require_eq (a := f.toInt) rfl (Value.getInt_int f), Value.bind_ok,
    Value.require_eq (a := g.toInt) rfl (Value.getInt_int g), Value.bind_ok, BitVec.ofInt_toInt,
    BitVec.ofInt_toInt]
  rfl

end ServerSession

end Conntop
