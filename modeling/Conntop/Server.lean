import Conntop.ServerSession
import Conntop.UpdateLog

/-!
# `Server`

The server with its sessions, the messages they share, and what its collector writes into.

* `Server.memory` holds `m_cachedMsgBanner`, `m_cachedMsgHello` and `m_cachedMsgUpdateTick` of the
  `ServerContext`, `m_serializedConnections` and `m_serializedConnectionUpdates`.
* `onUpdate` takes the calls that the collector makes in it. Its two loops over the clients are
  `beginUpdate` and `updateClient`, per client.
* Erasing a session leaves the others as they are. What is moved then is in `SlottedServer`.
-/

namespace Conntop

/-- The assignment to a shared message. -/
def SharedMemory.assign {κ E : Type} [Inhabited E] [DecidableEq κ] (mem : SharedMemory κ E) (k : κ)
    (msg : SerializedMessage E) : SharedMemory κ E :=
  { mem with texts := Function.update mem.texts k ((mem.texts k).assign msg) }

structure Server (τ : Type) where
  memory : ServerMemory
  timestamp : BitVec 32 := 0
  clients : List (ServerSession τ) := []
  availableDataFlags : Flags := 0
  connectionUpdateSerializer : ConnectionUpdateSerializer := {}

/-- `ConnectionStorageSerializer::build`. -/
def ConnectionStorage.serializeAll (st : ConnectionStorage) : SerializedServerMessage :=
  ClientServerProtocol.createServerMsgData EDataFlags.connection false
    (.array (st.connectionMap.keys.map fun c => serialize st c .create))

namespace Server

variable {τ : Type} [ServerTransport τ]

/-- The server after `init`. `info` is what it says in its HELLO message. -/
def init (info : PeerInfo) (replaced : SharedMsg → ℕ → List Char) (hasCollector : Bool) :
    Server τ where
  memory :=
    { texts
        | .banner => { msg := ClientServerProtocol.createServerMsgBanner }
        | .hello => { msg := ClientServerProtocol.createServerMsgHello info }
        | .updateTick => { msg := ClientServerProtocol.createServerMsgUpdateTick 0 }
        | .connections | .connectionUpdates => {}
      replaced := replaced }
  availableDataFlags := if hasCollector then EDataFlags.connection else 0

variable (srv : Server τ)

/-- A connection is accepted in `pollHandler`. -/
def accept (transport : τ) : Server τ :=
  { srv with clients := srv.clients ++ [ServerSession.accept srv.memory transport] }

/-! ## `onUpdate` -/

/-- The first loop, for a client that stays. -/
def beginClient (client : ServerSession τ) : ServerSession τ :=
  if ServerTransport.isSendingData client.transport then client.stopSendingData srv.memory
  else client

/-- Whether the client wants connections, or updates of them. -/
def requires (isUpdate : Bool) (client : ServerSession τ) : Bool :=
  !ServerTransport.isSendingData client.transport &&
    client.dataFlags.test EDataFlags.connection &&
      client.dataUpdateFlags.test EDataFlags.connection == isUpdate

def staying : List (ServerSession τ) := srv.clients.filter (·.state ≠ .disconnected)

/-- The first loop, and `ServerContext::onUpdate`. -/
def beginUpdate : Server τ :=
  { srv with
    clients := srv.staying.map srv.beginClient
    timestamp := srv.timestamp + 1
    memory := srv.memory.assign .updateTick
      (ClientServerProtocol.createServerMsgUpdateTick (srv.timestamp + 1)) }

/-- The update log of the tick, when there is one. -/
def takeUpdates (u : ConnectionUpdateSerializer) :
    SerializedServerMessage × ConnectionUpdateSerializer :=
  if u.isSerializationEnabled then u.build else ({}, u)

/-- What the collectors do, and the messages made of it. The first component of the result tells
if there are connections and updates to send. -/
def collect (inet : InetText) (calls : List ConnectionUpdateSerializer.Call)
    (requiresConnections requiresConnectionUpdates : Bool) : (Bool × Bool) × Server τ :=
  if srv.availableDataFlags.test EDataFlags.connection then
    let u := srv.connectionUpdateSerializer.run inet calls
    let connections := if requiresConnections then u.storage.serializeAll else {}
    ((requiresConnections, u.isSerializationEnabled && requiresConnectionUpdates), { srv with
      connectionUpdateSerializer := (takeUpdates u).2
      memory :=
        (srv.memory.assign .connectionUpdates (takeUpdates u).1).assign .connections connections })
  else ((false, false), srv)

/-- The second loop. -/
def updateClient (available : Bool × Bool) (client : ServerSession τ) : ServerSession τ :=
  let updated := client.onUpdate srv.memory
  if updated.state ≠ .connected then updated
  else if client.dataFlags.test EDataFlags.connection then
    if available.2 && client.dataUpdateFlags.test EDataFlags.connection then
      updated.sendData srv.memory .connectionUpdates
    else if available.1 then updated.sendData srv.memory .connections
    else updated
  else updated

def onUpdate (inet : InetText) (calls : List ConnectionUpdateSerializer.Call) : Server τ :=
  let (available, srv') := srv.beginUpdate.collect inet calls (srv.staying.any (requires false))
    (srv.staying.any (requires true))
  { srv' with clients := srv'.clients.map (srv'.updateClient available) }

/-! ## Requests of a client -/

/-- What one client does, with the `setSerializationEnabled(true)` of its data requests. -/
def modifyClient (i : ℕ) (f : ServerSession τ → ServerSession τ × Bool) : Server τ :=
  match srv.clients[i]? with
  | some client =>
    { srv with
      clients := srv.clients.set i (f client).1
      connectionUpdateSerializer := if (f client).2 then
          srv.connectionUpdateSerializer.setSerializationEnabled true
        else srv.connectionUpdateSerializer }
  | none => srv

/-! ## Shared messages -/

theorem assign_texts {mem : ServerMemory} {k k' : SharedMsg} (h : k' ≠ k)
    (msg : SerializedServerMessage) : (mem.assign k msg).texts k' = mem.texts k' :=
  Function.update_of_ne h _ _

theorem assign_msg (mem : ServerMemory) (k : SharedMsg) (msg : SerializedServerMessage) :
    ((mem.assign k msg).texts k).msg = msg := by
  simp [SharedMemory.assign, SharedText.assign]

theorem assign_version (mem : ServerMemory) (k : SharedMsg) (msg : SerializedServerMessage) :
    ((mem.assign k msg).texts k).version = (mem.texts k).version + 1 := by
  simp [SharedMemory.assign, SharedText.assign]

end Server

end Conntop
