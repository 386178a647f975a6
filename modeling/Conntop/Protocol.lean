import Conntop.Connection
import Conntop.Json

/-!
# The client-server protocol

The messages of `ClientServerProtocol`: their names, the documents they are made of and their
text, one line of compact JSON.
-/

namespace Conntop

inductive EClientMsg
  | unknown | hello | disconnect | requestData
  deriving DecidableEq, Repr, Inhabited

inductive EServerMsg
  | unknown | banner | hello | disconnect | updateTick | dataStatus | data
  deriving DecidableEq, Repr, Inhabited

inductive EDisconnectReason
  | unknown | timeout | userDecision | serverQuit | versionMismatch | connectionLost
  | protocolError | socketError
  deriving DecidableEq, Repr, Inhabited

inductive ESessionState
  | disconnected | closing | opening | connected
  deriving DecidableEq, Repr, Inhabited

namespace EDataFlags

def connection : Flags := 1 <<< 0

end EDataFlags

/-- `SerializedMessage`, which is empty by default and after `clear`. -/
structure SerializedMessage (E : Type) [Inhabited E] where
  document : Option Value := none
  type : E := default

abbrev SerializedClientMessage := SerializedMessage EClientMsg

abbrev SerializedServerMessage := SerializedMessage EServerMsg

/-- `CreateMsgString`, or the empty text. -/
def SerializedMessage.text {E : Type} [Inhabited E] (msg : SerializedMessage E) : List Char :=
  match msg.document with
  | some document => document.write ++ ['\n']
  | none => []

/-- What a program says about itself in its HELLO message. -/
structure PeerInfo where
  name : String := ""
  version : String := ""
  platform : String := ""
  deriving DecidableEq, Repr

namespace ClientServerProtocol

def protocolVersion : ℤ := 1

/-- The names of the messages, which `m_clientMsgMap` maps back. -/
def getClientMsgName : EClientMsg → String
  | .unknown => "?"
  | .hello => "HELLO"
  | .disconnect => "DISCONNECT"
  | .requestData => "REQUEST_DATA"

def getServerMsgName : EServerMsg → String
  | .unknown => "?"
  | .banner => "BANNER"
  | .hello => "HELLO"
  | .disconnect => "DISCONNECT"
  | .updateTick => "UPDATE_TICK"
  | .dataStatus => "DATA_STATUS"
  | .data => "DATA"

def getDisconnectReasonName : EDisconnectReason → String
  | .unknown => "?"
  | .timeout => "TIMEOUT"
  | .userDecision => "USER_DECISION"
  | .serverQuit => "SERVER_QUIT"
  | .versionMismatch => "VERSION_MISMATCH"
  | .connectionLost => "CONNECTION_LOST"
  | .protocolError => "PROTOCOL_ERROR"
  | .socketError => "SOCKET_ERROR"

def clientMsgMap : List (String × EClientMsg) :=
  [.hello, .disconnect, .requestData].map fun msg => (getClientMsgName msg, msg)

def serverMsgMap : List (String × EServerMsg) :=
  [.banner, .hello, .disconnect, .updateTick, .dataStatus, .data].map fun msg =>
    (getServerMsgName msg, msg)

def disconnectReasonMap : List (String × EDisconnectReason) :=
  [.timeout, .userDecision, .serverQuit, .versionMismatch, .connectionLost, .protocolError,
    .socketError].map fun reason => (getDisconnectReasonName reason, reason)

def getClientMsgEnum (msg : String) : EClientMsg := (clientMsgMap.lookup msg).getD .unknown

def getServerMsgEnum (msg : String) : EServerMsg := (serverMsgMap.lookup msg).getD .unknown

def getDisconnectReasonEnum (reason : String) : EDisconnectReason :=
  (disconnectReasonMap.lookup reason).getD .unknown

/-- A message whose first member is its name. -/
def messageDocument (name : String) (members : List (String × Value)) : Value :=
  .object (("message", .string name) :: members)

/-- The members of both HELLO messages. -/
def helloMembers (info : PeerInfo) : List (String × Value) :=
  [("name", .string info.name), ("version", .string info.version),
    ("platform", .string info.platform)]

def createClientMsgHello (info : PeerInfo) : SerializedClientMessage where
  document := messageDocument (getClientMsgName .hello) (helloMembers info)
  type := .hello

def createClientMsgDisconnect (reason : EDisconnectReason) : SerializedClientMessage where
  document := messageDocument (getClientMsgName .disconnect)
    [("reason", .string (getDisconnectReasonName reason))]
  type := .disconnect

def createClientMsgRequestData (dataFlags dataUpdateFlags : Flags) : SerializedClientMessage where
  document := messageDocument (getClientMsgName .requestData)
    [("dataFlags", .int dataFlags.toInt), ("dataUpdateFlags", .int dataUpdateFlags.toInt)]
  type := .requestData

def createServerMsgBanner : SerializedServerMessage where
  document := some (.object [("conntop_server", .int protocolVersion)])
  type := .banner

def createServerMsgHello (info : PeerInfo) : SerializedServerMessage where
  document := messageDocument (getServerMsgName .hello) (helloMembers info)
  type := .hello

def createServerMsgDisconnect (reason : EDisconnectReason) : SerializedServerMessage where
  document := messageDocument (getServerMsgName .disconnect)
    [("reason", .string (getDisconnectReasonName reason))]
  type := .disconnect

def createServerMsgUpdateTick (timestamp : BitVec 32) : SerializedServerMessage where
  document := messageDocument (getServerMsgName .updateTick) [("timestamp", .int timestamp.toNat)]
  type := .updateTick

def createServerMsgDataStatus (dataFlags dataUpdateFlags : Flags) : SerializedServerMessage where
  document := messageDocument (getServerMsgName .dataStatus)
    [("dataFlags", .int dataFlags.toInt), ("dataUpdateFlags", .int dataUpdateFlags.toInt)]
  type := .dataStatus

def createServerMsgData (type : Flags) (isUpdate : Bool) (data : Value) :
    SerializedServerMessage where
  document := messageDocument (getServerMsgName .data)
    [("type", .int type.toInt), ("isUpdate", .bool isUpdate), ("data", data)]
  type := .data

/-- Every message is known by its name. -/
theorem getClientMsgEnum_getClientMsgName (msg : EClientMsg) :
    getClientMsgEnum (getClientMsgName msg) = msg := by cases msg <;> rfl

theorem getServerMsgEnum_getServerMsgName (msg : EServerMsg) :
    getServerMsgEnum (getServerMsgName msg) = msg := by cases msg <;> rfl

end ClientServerProtocol

end Conntop
