import Conntop.Client

/-!
# Alike clients

Two clients are `Alike` if they differ in what has no effect any more: the numbers in the history,
the fields of an idle writer, and what a session got from a server before its state is CONNECTED.
Behind `sent` and `sent'` they have sent the same bytes.

Every operation keeps it, and throws the same. So what a client sends and what it throws do not
depend on what it has left of an earlier connection, as long as its writer is idle.

Main result: `Alike.onMessage`, with `Alike.afterInput` for what the poll handler does behind it.
-/

namespace Conntop

/-! ## The sending part -/

namespace StreamSocketWriter

variable {κ E : Type} [Inhabited E] {mem : SharedMemory κ E} {w w' : StreamSocketWriter κ E}

/-- Both are idle, or the same bytes are left. -/
def Alike (mem : SharedMemory κ E) (w w' : StreamSocketWriter κ E) : Prop :=
  w'.isSending = w.isSending ∧ (w.isSending = true →
    w'.dataLength = w.dataLength ∧ w'.dataPos = w.dataPos ∧ w'.target mem = w.target mem)

theorem Alike.of_idle (h : w.isSending = false) (h' : w'.isSending = false) : Alike mem w w' :=
  ⟨h'.trans h.symm, fun hs => absurd hs (by rw [h]; exact Bool.false_ne_true)⟩

theorem Alike.start (h : Alike mem w w') (m : MsgPointer κ E) :
    Alike mem (w.start mem m) (w'.start mem m) := by
  obtain ⟨hs, hsame⟩ := h
  cases hidle : w.isSending with
  | true =>
    have hidle' : w'.isSending = true := hs.trans hidle
    cases m <;>
    · simp only [StreamSocketWriter.start, send, sendShared, hidle, hidle', if_true]
      exact ⟨hs, hsame⟩
  | false =>
    have hidle' : w'.isSending = false := hs.trans hidle
    cases m <;>
    · simp only [StreamSocketWriter.start, send, sendShared, hidle, hidle']
      exact ⟨rfl, fun _ => ⟨rfl, rfl, rfl⟩⟩

theorem Alike.doSend (h : Alike mem w w') (socket : Socket) :
    (w'.doSend mem socket).1 = (w.doSend mem socket).1 ∧
      Alike mem (w.doSend mem socket).2.1 (w'.doSend mem socket).2.1 ∧
        (w'.doSend mem socket).2.2 = (w.doSend mem socket).2.2 := by
  obtain ⟨hs, hsame⟩ := h
  unfold StreamSocketWriter.doSend
  rw [hs]
  cases hidle : w.isSending with
  | false => exact ⟨rfl, ⟨hs, hsame⟩, rfl⟩
  | true =>
    obtain ⟨hlength, hpos, htarget⟩ := hsame hidle
    have hrest : w'.rest mem = w.rest mem := by
      unfold rest
      rw [hlength, hpos, htarget]
    rw [hrest]
    obtain ⟨msgType, buffer, data, dataLength, dataPos, msg⟩ := w
    obtain ⟨msgType', buffer', data', dataLength', dataPos', msg'⟩ := w'
    obtain rfl : dataLength' = dataLength := hlength
    obtain rfl : dataPos' = dataPos := hpos
    dsimp only [advance, Bool.not_true]
    split_ifs
    · exact absurd ‹false = true› Bool.false_ne_true
    · exact ⟨rfl, ⟨hs, hsame⟩, rfl⟩
    · exact ⟨rfl, .of_idle rfl rfl, rfl⟩
    · exact ⟨rfl, ⟨hs, fun _ => ⟨rfl, rfl, htarget⟩⟩, rfl⟩

/-- While a message is sent, some of its bytes are left. -/
def IsReady (mem : SharedMemory κ E) (w : StreamSocketWriter κ E) : Prop :=
  w.isSending = true → w.dataPos < w.dataLength ∧ w.dataLength ≤ (w.target mem).length

theorem IsReady.of_idle (h : w.isSending = false) : w.IsReady mem :=
  fun hs => absurd hs (by rw [h]; exact Bool.false_ne_true)

/-- The next message is started. -/
theorem IsReady.start (h : w.IsReady mem) {m : MsgPointer κ E} (hm : (m.msg mem).text ≠ []) :
    (w.start mem m).IsReady mem := by
  have hlength : 0 < (m.msg mem).text.length := List.length_pos_iff.mpr hm
  cases hidle : w.isSending with
  | true =>
    cases m <;>
    · simp only [StreamSocketWriter.start, send, sendShared, hidle, if_true]
      exact h
  | false =>
    cases m with
    | own msg =>
      simp only [StreamSocketWriter.start, send, hidle]
      exact fun _ => ⟨hlength, Nat.le_refl _⟩
    | shared k =>
      simp only [StreamSocketWriter.start, sendShared, hidle]
      refine fun _ => ⟨hlength, ?_⟩
      show _ ≤ (mem.read k _).length
      unfold SharedMemory.read
      rw [if_pos rfl]
      exact Nat.le_refl _

theorem IsReady.doSend (h : w.IsReady mem) (socket : Socket) :
    (w.doSend mem socket).2.1.IsReady mem := by
  rcases doSend_cases w mem socket with ⟨hs, he⟩ | ⟨hs, -, he⟩ | ⟨hs, -, he⟩ | ⟨hs, hlt, -, he⟩ <;>
    rw [he]
  · exact h
  · exact h
  · exact .of_idle rfl
  · exact fun _ => ⟨hlt, (h hs).2⟩

end StreamSocketWriter

namespace Outbox

variable {κ E : Type} [Inhabited E] {mem : SharedMemory κ E} {o o' : Outbox κ E}
variable {sent sent' : List Char}

/-- The same messages are waiting, none of them empty, and behind `sent` and `sent'` the same bytes
were sent. -/
structure Alike (mem : SharedMemory κ E) (sent sent' : List Char) (o o' : Outbox κ E) : Prop where
  queue : o'.sendQueue.map QueuedMsg.pointer = o.sendQueue.map QueuedMsg.pointer
  writer : StreamSocketWriter.Alike mem o.writer o'.writer
  sent : ∃ bytes, o.history.sent = sent ++ bytes ∧ o'.history.sent = sent' ++ bytes
  texts : ∀ m ∈ o.sendQueue, (m.pointer.msg mem).text ≠ []
  ready : o.writer.IsReady mem

/-- Only the flags are requested. -/
theorem resetPoll_frame (o : Outbox κ E) : o.resetPoll.sendQueue = o.sendQueue ∧
    o.resetPoll.writer = o.writer ∧ o.resetPoll.history = o.history := by
  unfold Outbox.resetPoll
  split_ifs <;> exact ⟨rfl, rfl, rfl⟩

namespace Alike

theorem enqueue (h : Alike mem sent sent' o o') {m : MsgPointer κ E} (hm : (m.msg mem).text ≠ []) :
    Alike mem sent sent' (o.enqueue mem m) (o'.enqueue mem m) where
  queue := by
    unfold Outbox.enqueue
    rw [List.map_append, List.map_append, h.queue]
    rfl
  writer := h.writer
  sent := h.sent
  texts := by
    intro m' hmem
    rcases List.mem_append.mp hmem with hmem | hmem
    · exact h.texts m' hmem
    · obtain rfl := List.mem_singleton.mp hmem
      exact hm
  ready := h.ready

theorem close (h : Alike mem sent sent' o o') : Alike mem sent sent' o.close o'.close where
  queue := rfl
  writer := h.writer
  sent := h.sent
  texts := List.forall_mem_nil _
  ready := h.ready

theorem resetPoll (h : Alike mem sent sent' o o') :
    Alike mem sent sent' o.resetPoll o'.resetPoll := by
  obtain ⟨hqueue, hwriter, hhistory⟩ := o.resetPoll_frame
  obtain ⟨hqueue', hwriter', hhistory'⟩ := o'.resetPoll_frame
  constructor
  · rw [hqueue, hqueue']
    exact h.queue
  · rw [hwriter, hwriter']
    exact h.writer
  · rw [hhistory, hhistory']
    exact h.sent
  · rw [hqueue]
    exact h.texts
  · rw [hwriter]
    exact h.ready

/-- After a call of `doSend`, with what is left of the queue. -/
theorem afterSend (h : Alike mem sent sent' o o') (socket : Socket) :
    StreamSocketWriter.Alike mem (o.afterSend mem socket).writer (o'.afterSend mem socket).writer ∧
      ∃ bytes, (o.afterSend mem socket).history.sent = sent ++ bytes ∧
        (o'.afterSend mem socket).history.sent = sent' ++ bytes := by
  obtain ⟨-, hwriter, hbytes⟩ := h.writer.doSend socket
  obtain ⟨bytes, hsent, hsent'⟩ := h.sent
  refine ⟨hwriter, bytes ++ (o.writer.doSend mem socket).2.2.2, ?_, ?_⟩
  · show o.history.sent ++ _ = _
    rw [hsent, List.append_assoc]
  · show o'.history.sent ++ _ = _
    rw [hsent', hbytes, List.append_assoc]

theorem sendLoop (isData : E → Bool) {queue queue' : List (QueuedMsg κ E)}
    (hqueue : queue'.map QueuedMsg.pointer = queue.map QueuedMsg.pointer)
    (htexts : ∀ m ∈ queue, (m.pointer.msg mem).text ≠ []) (h : Alike mem sent sent' o o')
    (socket : Socket) :
    (Outbox.sendLoop isData mem queue' o' socket).1 =
        (Outbox.sendLoop isData mem queue o socket).1 ∧
      Alike mem sent sent' (Outbox.sendLoop isData mem queue o socket).2
        (Outbox.sendLoop isData mem queue' o' socket).2 := by
  -- the two loops take the same turns: the writers send the same bytes
  induction queue generalizing queue' o o' socket with
  | nil =>
    obtain rfl : queue' = [] := List.map_eq_nil_iff.mp hqueue
    obtain ⟨hresult, -⟩ := h.writer.doSend socket
    obtain ⟨hwriter, hsent⟩ := h.afterSend socket
    by_cases hdone : (o.writer.doSend mem socket).1 = .done
    · rw [sendLoop_nil hdone, sendLoop_nil (hresult.trans hdone)]
      exact ⟨rfl, rfl, hwriter, hsent, htexts, h.ready.doSend socket⟩
    · rw [sendLoop_stopped hdone, sendLoop_stopped (hresult ▸ hdone)]
      exact ⟨hresult, rfl, hwriter, hsent, htexts, h.ready.doSend socket⟩
  | cons m queue ih =>
    cases queue' with
    | nil => cases hqueue
    | cons m' queue' =>
      obtain ⟨hm, hrest⟩ := List.cons.inj hqueue
      obtain ⟨hresult, -, hsocket⟩ := h.writer.doSend socket
      obtain ⟨hwriter, hsent⟩ := h.afterSend socket
      have htext : (m.pointer.msg mem).text ≠ [] := htexts m List.mem_cons_self
      have htexts' : ∀ m ∈ queue, (m.pointer.msg mem).text ≠ [] :=
        fun m hmem => htexts m (List.mem_cons_of_mem _ hmem)
      by_cases hdone : (o.writer.doSend mem socket).1 = .done
      · have hbegin : Alike mem sent sent' ((o.afterSend mem socket).begin isData mem m queue)
            ((o'.afterSend mem socket).begin isData mem m' queue') := by
          refine ⟨hrest, ?_, hsent, htexts', (h.ready.doSend socket).start htext⟩
          show StreamSocketWriter.Alike mem (StreamSocketWriter.start mem _ m.pointer)
            (StreamSocketWriter.start mem _ m'.pointer)
          rw [hm]
          exact hwriter.start m.pointer
        rw [sendLoop_cons hdone, sendLoop_cons (hresult.trans hdone), hsocket]
        exact ih hrest htexts' hbegin _
      · rw [sendLoop_stopped hdone, sendLoop_stopped (hresult ▸ hdone)]
        exact ⟨hresult, hqueue, hwriter, hsent, htexts, h.ready.doSend socket⟩

end Alike

end Outbox

/-! ## The client -/

namespace Client

/-- The second client has the same session, but for its sending part, for what is read only while
the state is CONNECTED or CLOSING, and for what is never read. A session that is disconnected has
nothing in its queue. -/
inductive Alike (sent sent' : List Char) : Client ClientOutbox → Client ClientOutbox → Prop
  | mk (c : Client ClientOutbox) (transport : ClientOutbox) (dataFlags dataUpdateFlags : Flags)
    (currentTimestamp : BitVec 32) (server : PeerInfo) (disconnectReason : EDisconnectReason)
    (disconnectError : String) :
    Outbox.Alike clientMemory sent sent' c.session.transport transport →
    (c.session.state = .connected → dataFlags = c.session.dataFlags ∧
      dataUpdateFlags = c.session.dataUpdateFlags ∧
        currentTimestamp = c.session.currentTimestamp) →
    (c.session.state = .closing → disconnectReason = c.session.disconnectReason) →
    (c.session.state = .disconnected →
      c.session.transport.sendQueue = [] ∧ c.session.isConnectionEstablished = false) →
    Alike sent sent' c { c with session := { c.session with
      transport, dataFlags, dataUpdateFlags, currentTimestamp, server, disconnectReason,
      disconnectError } }

variable {sent sent' : List Char} {c c' : Client ClientOutbox} {S : StdSort} {inet : InetText}

theorem text_ne_nil (document : Value) (type : EClientMsg) :
    ({ document := some document, type := type } : SerializedClientMessage).text ≠ [] :=
  List.append_ne_nil_of_right_ne_nil _ (List.cons_ne_nil _ _)

namespace Alike

theorem requestData (h : Alike sent sent' c c') :
    Alike sent sent' c.requestData c'.requestData := by
  cases h with
  | mk transport f g timestamp server reason error ho hconnected hclosing hclosed =>
    unfold Client.requestData ClientSession.requestData
    dsimp only
    split_ifs with hs
    · refine .mk _ _ _ _ _ _ _ _ (ho.enqueue (text_ne_nil _ _)) hconnected hclosing
        fun hdisconnected => ?_
      exact absurd (hs.1.symm.trans hdisconnected) ESessionState.noConfusion
    · exact .mk _ _ _ _ _ _ _ _ ho hconnected hclosing hclosed

theorem tryNext (h : Alike sent sent' c c') (connector : ClientConnector) :
    Alike sent sent' (c.tryNext connector) (c'.tryNext connector) := by
  cases h with
  | mk transport f g timestamp server reason error ho hconnected hclosing hclosed =>
    unfold Client.tryNext ClientSession.connect
    cases connector.attempts with
    | none => exact .mk _ _ _ _ _ _ _ _ ho hconnected hclosing hclosed
    | some attempts =>
      dsimp only
      cases attempts.dropWhile (!·) with
      | nil => exact .mk _ _ _ _ _ _ _ _ ho hconnected hclosing hclosed
      | cons attempt attempts =>
        dsimp only
        split_ifs with hs
        · exact .mk _ _ _ _ _ _ _ _ ⟨ho.queue, ho.writer, ho.sent, ho.texts, ho.ready⟩
            nofun nofun nofun
        · exact .mk _ _ _ _ _ _ _ _ ho hconnected hclosing hclosed

theorem connector_eq (h : Alike sent sent' c c') : c'.connector = c.connector := by
  cases h
  rfl

/-- What is left of a session that is disconnected. -/
theorem closed (h : Alike sent sent' c c') (hs : c.session.state = .disconnected) :
    c.session.transport.sendQueue = [] ∧ c.session.isConnectionEstablished = false := by
  cases h with
  | mk _ _ _ _ _ _ _ _ _ _ hclosed => exact hclosed hs

theorem isReady (h : Alike sent sent' c c') :
    c.session.transport.writer.IsReady clientMemory := by
  cases h with
  | mk _ _ _ _ _ _ _ ho => exact ho.ready

theorem state_eq (h : Alike sent sent' c c') : c'.session.state = c.session.state := by
  cases h
  rfl

theorem exit_eq (h : Alike sent sent' c c') : c'.exit = c.exit := by
  cases h
  rfl

theorem onSessionDisconnect (h : Alike sent sent' c c') :
    Alike sent sent' c.onSessionDisconnect c'.onSessionDisconnect := by
  unfold Client.onSessionDisconnect
  rw [h.connector_eq]
  cases c.connector with
  | none =>
    cases h with
    | mk transport f g timestamp server reason error ho hconnected hclosing hclosed =>
      exact .mk _ _ _ _ _ _ _ _ ho hconnected hclosing hclosed
  | some connector => exact h.tryNext connector

theorem quickDisconnect (h : Alike sent sent' c c') (reason : EDisconnectReason)
    (error : String) :
    Alike sent sent' (c.quickDisconnect reason error) (c'.quickDisconnect reason error) := by
  cases h with
  | mk transport f g timestamp server reason' error' ho hconnected hclosing hclosed =>
    unfold Client.quickDisconnect ClientSession.quickDisconnect
    refine onSessionDisconnect ?_
    exact .mk _ _ _ _ _ _ _ _ ho.close nofun nofun fun _ => ⟨rfl, rfl⟩

theorem onSessionEstablished (h : Alike sent sent' c c') :
    Alike sent sent' c.onSessionEstablished c'.onSessionEstablished := by
  have hset : ∀ {c c' : Client ClientOutbox}, Alike sent sent' c c' →
      Alike sent sent' { c with isSynchronized := false } { c' with isSynchronized := false } := by
    intro c c' h
    cases h with
    | mk transport f g timestamp server reason error ho hconnected hclosing hclosed =>
      exact .mk _ _ _ _ _ _ _ _ ho hconnected hclosing hclosed
  unfold Client.onSessionEstablished
  refine hset (requestData ?_)
  cases h with
  | mk transport f g timestamp server reason error ho hconnected hclosing hclosed =>
    exact .mk _ _ _ _ _ _ _ _ ho hconnected hclosing hclosed

theorem onSessionServerTick (h : Alike sent sent' c c') :
    Alike sent sent' c.onSessionServerTick c'.onSessionServerTick := by
  have hdone : ∀ {c c' : Client ClientOutbox}, Alike sent sent' c c' →
      Alike sent sent' { c with isDataRequested := false }
        { c' with isDataRequested := false } := by
    intro c c' h
    cases h with
    | mk transport f g timestamp server reason error ho hconnected hclosing hclosed =>
      exact .mk _ _ _ _ _ _ _ _ ho hconnected hclosing hclosed
  unfold Client.onSessionServerTick
  refine hdone ?_
  cases h with
  | mk transport f g timestamp server reason error ho hconnected hclosing hclosed =>
    dsimp only
    split_ifs
    · exact .mk _ _ _ _ _ _ _ _ ho hconnected hclosing hclosed
    · refine requestData ?_
      exact .mk _ _ _ _ _ _ _ _ ho hconnected hclosing hclosed
    · exact .mk _ _ _ _ _ _ _ _ ho hconnected hclosing hclosed
    · exact .mk _ _ _ _ _ _ _ _ ho hconnected hclosing hclosed

/-- The flags of the session are read. -/
theorem onSessionDataStatus (h : Alike sent sent' c c')
    (hf : c'.session.dataFlags = c.session.dataFlags)
    (hg : c'.session.dataUpdateFlags = c.session.dataUpdateFlags) :
    Alike sent sent' c.onSessionDataStatus c'.onSessionDataStatus := by
  cases h with
  | mk transport f g timestamp server reason error ho hconnected hclosing hclosed =>
    obtain rfl : f = c.session.dataFlags := hf
    obtain rfl : g = c.session.dataUpdateFlags := hg
    unfold Client.onSessionDataStatus
    dsimp only
    split_ifs
    · refine requestData ?_
      exact .mk _ _ _ _ _ _ _ _ ho hconnected hclosing hclosed
    · exact .mk _ _ _ _ _ _ _ _ ho hconnected hclosing hclosed

theorem onDataDeserialized (h : Alike sent sent' c c') :
    Alike sent sent' c.onDataDeserialized c'.onDataDeserialized := by
  cases h with
  | mk transport f g timestamp server reason error ho hconnected hclosing hclosed =>
    unfold Client.onDataDeserialized
    dsimp only
    split_ifs
    · refine requestData ?_
      exact .mk _ _ _ _ _ _ _ _ ho hconnected hclosing hclosed
    · refine requestData ?_
      exact .mk _ _ _ _ _ _ _ _ ho hconnected hclosing hclosed
    · exact .mk _ _ _ _ _ _ _ _ ho hconnected hclosing hclosed

end Alike

/-- How a handler ends: alike, or with the same exception. -/
def Outcome (sent sent' : List Char) : Client ClientOutbox × Option String →
    Client ClientOutbox × Option String → Prop :=
  fun r r' => Alike sent sent' r.1 r'.1 ∧ r'.2 = r.2

namespace Alike

theorem onSessionData (h : Alike sent sent' c c') (type : Flags) (isUpdate : Bool) (data : Value) :
    Outcome sent sent' (c.onSessionData S inet type isUpdate data)
      (c'.onSessionData S inet type isUpdate data) := by
  cases h with
  | mk transport f g timestamp server reason error ho hconnected hclosing hclosed =>
    unfold Client.onSessionData
    dsimp only
    by_cases hskip : ((isUpdate && !c.isSynchronized) || !type.test c.remainingDataFlags ||
        c.isPaused) = true
    · rw [if_pos hskip, if_pos hskip]
      exact ⟨.mk _ _ _ _ _ _ _ _ ho hconnected hclosing hclosed, rfl⟩
    rw [if_neg hskip, if_neg hskip]
    by_cases hconnection : type.test EDataFlags.connection = true
    · rw [if_pos hconnection, if_pos hconnection]
      cases data.getArray with
      | none => exact ⟨.mk _ _ _ _ _ _ _ _ ho hconnected hclosing hclosed, rfl⟩
      | some items =>
        dsimp only
        rcases ConnectionList.deserializeItems S inet items _ with ⟨list, error | _⟩
        · exact ⟨.mk _ _ _ _ _ _ _ _ ho hconnected hclosing hclosed, rfl⟩
        · refine ⟨onDataDeserialized ?_, rfl⟩
          exact .mk _ _ _ _ _ _ _ _ ho hconnected hclosing hclosed
    · rw [if_neg hconnection, if_neg hconnection]
      exact ⟨.mk _ _ _ _ _ _ _ _ ho hconnected hclosing hclosed, rfl⟩

end Alike

/-- As `Outcome`, of a handler that throws before it changes anything. -/
def Result (sent sent' : List Char) :
    Except String (Client ClientOutbox) → Except String (Client ClientOutbox) → Prop
  | .ok c, .ok c' => Alike sent sent' c c'
  | .error error, .error error' => error' = error
  | _, _ => False

variable {message : Value}

namespace Alike

theorem orUnchanged (h : Alike sent sent' c c') {r r' : Except String (Client ClientOutbox)}
    (hr : Result sent sent' r r') : Outcome sent sent' (c.orUnchanged r) (c'.orUnchanged r') := by
  cases r with
  | ok d =>
    cases r' with
    | ok d' => exact ⟨hr, rfl⟩
    | error error' => exact hr.elim
  | error error =>
    cases r' with
    | ok d' => exact hr.elim
    | error error' => exact ⟨h, congrArg some hr⟩

theorem onBanner (h : Alike sent sent' c c') :
    Result sent sent' (c.onBanner message) (c'.onBanner message) := by
  have hquick := h.quickDisconnect .versionMismatch ""
  cases h with
  | mk transport f g timestamp server reason error ho hconnected hclosing hclosed =>
    unfold Client.onBanner
    dsimp only
    split_ifs with hs
    · rfl
    · cases message.require "conntop_server" "Missing server identification"
        "Invalid server identification value type" Value.getInt with
      | error e => rfl
      | ok version =>
        by_cases hversion : version ≠ ClientServerProtocol.protocolVersion
        · show Result sent sent' (if _ then _ else _) (if _ then _ else _)
          rw [if_pos hversion, if_pos hversion]
          exact hquick
        · show Result sent sent' (if _ then _ else _) (if _ then _ else _)
          rw [if_neg hversion, if_neg hversion]
          rw [not_or, not_not, not_not] at hs
          refine .mk _ _ _ _ _ _ _ _ (ho.enqueue (text_ne_nil _ _)) hconnected hclosing
            fun hdisconnected => ?_
          exact absurd (hs.1.symm.trans hdisconnected) ESessionState.noConfusion

theorem onHello (h : Alike sent sent' c c') :
    Result sent sent' (c.onHello message) (c'.onHello message) := by
  cases h with
  | mk transport f g timestamp server reason error ho hconnected hclosing hclosed =>
    unfold Client.onHello
    dsimp only
    split_ifs with hs
    · rfl
    · cases message.require "name" "Missing server name" "Invalid server name value type"
        Value.getString with
      | error e => rfl
      | ok name =>
        cases message.require "version" "Missing server version"
          "Invalid server version value type" Value.getString with
        | error e => rfl
        | ok version =>
          cases message.require "platform" "Missing server platform name"
            "Invalid server platform name value type" Value.getString with
          | error e => rfl
          | ok platform =>
            show Alike sent sent' (Client.onSessionEstablished _) (Client.onSessionEstablished _)
            refine onSessionEstablished ?_
            exact .mk _ _ _ _ _ _ _ _ ho (fun _ => ⟨rfl, rfl, rfl⟩) nofun nofun

theorem onDisconnect (h : Alike sent sent' c c') :
    Result sent sent' (c.onDisconnect message) (c'.onDisconnect message) := by
  unfold Client.onDisconnect
  cases message.require "reason" "Missing disconnect reason"
    "Invalid disconnect reason value type" Value.getString with
  | error e => rfl
  | ok reasonName => exact h.quickDisconnect _ _

theorem onUpdateTick (h : Alike sent sent' c c') :
    Result sent sent' (c.onUpdateTick message) (c'.onUpdateTick message) := by
  have hsame := h
  cases h with
  | mk transport f g timestamp server reason error ho hconnected hclosing hclosed =>
    unfold Client.onUpdateTick
    dsimp only
    split_ifs with hs hne
    · exact hsame
    · rfl
    · have hs := not_not.mp hne
      obtain ⟨hf, hg, ht⟩ := hconnected hs
      subst ht
      cases message.require "timestamp" "Missing update tick timestamp"
        "Invalid update tick timestamp value type" Value.getUint with
      | error e => rfl
      | ok t =>
        by_cases hunexpected : BitVec.ofNat 32 t ≠ c.session.currentTimestamp + 1 ∧
            c.session.currentTimestamp ≠ 0
        · show Result sent sent' (if _ then _ else _) (if _ then _ else _)
          rw [if_pos hunexpected, if_pos hunexpected]
          rfl
        · show Result sent sent' (if _ then _ else _) (if _ then _ else _)
          rw [if_neg hunexpected, if_neg hunexpected]
          refine onSessionServerTick ?_
          exact .mk _ _ _ _ _ _ _ _ ho (fun _ => ⟨hf, hg, rfl⟩) hclosing hclosed

theorem onDataStatus (h : Alike sent sent' c c') :
    Result sent sent' (c.onDataStatus message) (c'.onDataStatus message) := by
  have hsame := h
  cases h with
  | mk transport f g timestamp server reason error ho hconnected hclosing hclosed =>
    unfold Client.onDataStatus
    dsimp only
    split_ifs
    · exact hsame
    · rfl
    · cases message.require "dataFlags" "Missing data status flags"
        "Invalid data status flags value type" Value.getInt with
      | error e => rfl
      | ok dataFlags =>
        cases message.require "dataUpdateFlags" "Missing data status update flags"
          "Invalid data status update flags value type" Value.getInt with
        | error e => rfl
        | ok dataUpdateFlags =>
          show Alike sent sent' (Client.onSessionDataStatus _) (Client.onSessionDataStatus _)
          refine onSessionDataStatus ?_ rfl rfl
          refine .mk _ _ _ _ _ _ _ _ ho (fun hs => ?_) hclosing hclosed
          exact ⟨rfl, rfl, (hconnected hs).2.2⟩

theorem onData (h : Alike sent sent' c c') :
    Outcome sent sent' (c.onData S inet message) (c'.onData S inet message) := by
  have hcheck : c'.checkData message = c.checkData message := by
    cases h with
    | mk transport f g timestamp server reason error ho hconnected hclosing hclosed =>
      unfold checkData
      dsimp only
      split_ifs with hs
      · rfl
      · obtain ⟨rfl, rfl, -⟩ := hconnected (not_not.mp hs)
        rfl
  unfold Client.onData
  rw [hcheck, h.state_eq]
  split_ifs
  · exact ⟨h, rfl⟩
  · rcases c.checkData message with error | ⟨type, isUpdate, data⟩
    · exact ⟨h, rfl⟩
    · exact h.onSessionData type isUpdate data

variable (S inet) in
theorem onMessage (h : Alike sent sent' c c') (message : Value) :
    Outcome sent sent' (c.onMessage S inet message) (c'.onMessage S inet message) := by
  unfold Client.onMessage
  rcases msgType message with error | type
  · exact ⟨h, rfl⟩
  · cases type with
    | unknown => exact ⟨h, rfl⟩
    | banner => exact h.orUnchanged h.onBanner
    | hello => exact h.orUnchanged h.onHello
    | disconnect => exact h.orUnchanged h.onDisconnect
    | updateTick => exact h.orUnchanged h.onUpdateTick
    | dataStatus => exact h.orUnchanged h.onDataStatus
    | data => exact h.onData

variable (S inet) in
theorem receive_failed (h : Alike sent sent' c c') (error : String) :
    Alike sent sent' (c.receive S inet (.failed error)) (c'.receive S inet (.failed error)) := by
  have hest : c'.session.isConnectionEstablished = c.session.isConnectionEstablished := by
    cases h
    rfl
  unfold Client.receive
  rw [hest]
  exact h.quickDisconnect _ _

variable (S inet) in
theorem receive_closed (h : Alike sent sent' c c') :
    Alike sent sent' (c.receive S inet .closed) (c'.receive S inet .closed) := by
  have hreason : (if c'.session.state = .closing then c'.session.disconnectReason
      else .connectionLost) =
      if c.session.state = .closing then c.session.disconnectReason else .connectionLost := by
    cases h with
    | mk transport f g timestamp server reason error ho hconnected hclosing hclosed =>
      dsimp only
      split_ifs with hs
      · exact hclosing hs
      · rfl
  unfold Client.receive
  rw [hreason]
  exact h.quickDisconnect _ _

theorem onResolved (h : Alike sent sent' c c') (attempts : List Bool) :
    Alike sent sent' (c.onResolved attempts) (c'.onResolved attempts) := by
  unfold Client.onResolved
  rw [h.connector_eq]
  cases c.connector with
  | none => exact h
  | some connector => exact h.tryNext _

theorem connect (h : Alike sent sent' c c') :
    Alike sent sent' { c with session := c.session.connect }
      { c' with session := c'.session.connect } := by
  cases h with
  | mk transport f g timestamp server reason error ho hconnected hclosing hclosed =>
    unfold ClientSession.connect
    dsimp only
    split_ifs
    · exact .mk _ _ _ _ _ _ _ _ ⟨ho.queue, ho.writer, ho.sent, ho.texts, ho.ready⟩
        nofun nofun nofun
    · exact .mk _ _ _ _ _ _ _ _ ho hconnected hclosing hclosed

theorem onUpdate (h : Alike sent sent' c c') :
    Alike sent sent' c.onUpdate c'.onUpdate := by
  have hquick := h.quickDisconnect .timeout ""
  have hsame := h
  cases h with
  | mk transport f g timestamp server reason error ho hconnected hclosing hclosed =>
    unfold Client.onUpdate
    dsimp only
    split_ifs
    · exact hsame
    · exact .mk _ _ _ _ _ _ _ _ ho hconnected hclosing hclosed
    · exact hquick

theorem disconnect (h : Alike sent sent' c c') :
    Alike sent sent' c.disconnect c'.disconnect := by
  have hdetach : Alike sent sent' { c with connector := none } { c' with connector := none } := by
    cases h with
    | mk transport f g timestamp server reason error ho hconnected hclosing hclosed =>
      exact .mk _ _ _ _ _ _ _ _ ho hconnected hclosing hclosed
  have hquick := hdetach.quickDisconnect .userDecision ""
  cases h with
  | mk transport f g timestamp server reason error ho hconnected hclosing hclosed =>
    unfold Client.disconnect
    dsimp only
    split_ifs
    · exact .mk _ _ _ _ _ _ _ _ (ho.enqueue (text_ne_nil _ _)) nofun (fun _ => rfl) nofun
    · exact hquick
    · exact hdetach

theorem setPaused (h : Alike sent sent' c c') (paused : Bool) :
    Alike sent sent' (c.setPaused paused) (c'.setPaused paused) := by
  have hsame := h
  cases h with
  | mk transport f g timestamp server reason error ho hconnected hclosing hclosed =>
    unfold Client.setPaused
    dsimp only
    split_ifs
    · exact hsame
    · refine requestData ?_
      exact .mk _ _ _ _ _ _ _ _ ho hconnected hclosing hclosed
    · exact .mk _ _ _ _ _ _ _ _ ho hconnected hclosing hclosed

/-- Of a session that is not disconnected. -/
theorem output (h : Alike sent sent' c c') (hs : c.session.state ≠ .disconnected)
    (socket : Socket) : Alike sent sent' (c.output socket) (c'.output socket) := by
  have hquick := h.quickDisconnect .socketError socket.error
  cases h with
  | mk transport f g timestamp server reason error ho hconnected hclosing hclosed =>
    unfold Client.output onSessionConnectionEstablished
    dsimp only
    split_ifs
    · obtain ⟨hresult, hloop⟩ := ho.sendLoop (fun _ => false) ho.queue ho.texts socket
      rcases hl : c.session.transport.sendLoop (fun _ => false) clientMemory
        c.session.transport.sendQueue socket with ⟨result, o⟩
      rcases hl' : transport.sendLoop (fun _ => false) clientMemory
        transport.sendQueue socket with ⟨result', o'⟩
      rw [hl, hl'] at hresult hloop
      obtain rfl : result' = result := hresult
      have hsent : ∀ o o' : ClientOutbox, Outbox.Alike clientMemory sent sent' o o' →
          Alike sent sent' { c with session := { c.session with transport := o } }
            { c with session := { c.session with
              transport := o', dataFlags := f, dataUpdateFlags := g
              currentTimestamp := timestamp, server := server, disconnectReason := reason
              disconnectError := error } } := fun o o' ho =>
        .mk _ _ _ _ _ _ _ _ ho hconnected hclosing fun hd => absurd hd hs
      cases result' with
      | failed => exact (hsent _ _ hloop).quickDisconnect _ _
      | done => exact hsent _ _ hloop
      | blocked => exact hsent _ _ hloop
    · exact .mk _ _ _ _ _ _ _ _ ho hconnected hclosing fun hd => absurd hd hs
    · exact hquick

theorem afterOutput (h : Alike sent sent' c c') (event : PollEvent) :
    Alike sent sent' (c.afterOutput event) (c'.afterOutput event) := by
  have hreset : ∀ {c c' : Client ClientOutbox}, Alike sent sent' c c' → Alike sent sent'
      { c with session := { c.session with transport := c.session.transport.resetPoll } }
      { c' with session := { c'.session with transport := c'.session.transport.resetPoll } } := by
    intro c c' h
    cases h with
    | mk transport f g timestamp server reason error ho hconnected hclosing hclosed =>
      refine .mk _ _ _ _ _ _ _ _ ho.resetPoll hconnected hclosing fun hs => ?_
      obtain ⟨hqueue, hest⟩ := hclosed hs
      refine ⟨?_, hest⟩
      show c.session.transport.resetPoll.sendQueue = []
      unfold Outbox.resetPoll
      split_ifs <;> exact hqueue
  unfold Client.afterOutput
  rw [h.state_eq]
  refine hreset ?_
  split_ifs
  · exact h.quickDisconnect _ _
  · exact h

theorem afterInput (h : Alike sent sent' c c') (event : PollEvent) :
    Alike sent sent' (c.afterInput event) (c'.afterInput event) := by
  unfold Client.afterInput
  rw [h.state_eq]
  split_ifs with hs
  · exact (h.output hs.2 event.socket).afterOutput event
  · exact h.afterOutput event

end Alike

end Client

end Conntop
