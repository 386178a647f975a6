import Conntop.Lib.GuardedRun
import Conntop.Waiting

/-!
# The life cycle of a session

What a session tells its user, in the order of the calls, together with the two facts that it does
not tell: a connection begins, and a BANNER of the supported version is accepted. `next` says what
may follow. `established` stands for an accepted HELLO.

* A poll handler runs only while the socket of its session is registered.
* The events of a step are read off the functions of the session: each has a companion that lists
  the callbacks it makes before it returns or throws.
* `closesLast` is the condition on a run of the poll handler: nothing comes behind the message that
  closes the session. `MessageParser::parse` goes on after such a message.

Main result: `sessions_follow`, both sessions follow the life cycle in every run whose steps all meet
the condition.
-/

namespace Conntop

/-! ## The life cycle -/

inductive SessionEvent
  | connect | banner | established | serverTick | dataStatus | data | dataRequest | disconnect
  deriving DecidableEq, Repr

inductive SessionPhase
  | closed | opened | greeted | established
  deriving DecidableEq, Repr

/-- What may come next. `awaitsBanner` is true of the client. -/
def SessionPhase.next (awaitsBanner : Bool) : SessionPhase → SessionEvent → Option SessionPhase
  | .closed, .connect => some .opened
  | .opened, .banner => some .greeted
  | .opened, .established => if awaitsBanner then none else some .established
  | .greeted, .established => some .established
  | .established, .serverTick | .established, .dataStatus | .established, .data
  | .established, .dataRequest => some .established
  | .opened, .disconnect | .greeted, .disconnect | .established, .disconnect => some .closed
  | _, _ => none

/-- The events bring a session from one phase to another. -/
def Leads (awaitsBanner : Bool) (p : SessionPhase) (es : List SessionEvent) (p' : SessionPhase) :
    Prop := GuardedRun.run (SessionPhase.next awaitsBanner) p es = some p'

/-- The events of all connections of a session follow the life cycle. -/
def Follows (awaitsBanner : Bool) (es : List SessionEvent) : Prop :=
  ∃ p, Leads awaitsBanner .closed es p

instance (awaitsBanner : Bool) (es : List SessionEvent) : Decidable (Follows awaitsBanner es) :=
  decidable_of_iff (GuardedRun.run (SessionPhase.next awaitsBanner) .closed es).isSome
    Option.isSome_iff_exists

section

variable {b : Bool} {p p' p'' : SessionPhase} {es es' : List SessionEvent}

theorem Leads.nil : Leads b p [] p := rfl

theorem Leads.append (h : Leads b p es p') (h' : Leads b p' es' p'') :
    Leads b p (es ++ es') p'' := by
  rw [Leads, GuardedRun.run_append, show GuardedRun.run _ p es = some p' from h]
  exact h'

end

/-! ## The server -/

namespace ServerSession

section

variable {τ : Type} [ServerTransport τ] (mem : ServerMemory) (s : ServerSession τ)

def phase : SessionPhase :=
  match s.state with
  | .disconnected => .closed
  | .opening => .opened
  | .connected | .closing => .established

/-- The kind of a message from a client. -/
def msgType (message : Value) : EClientMsg :=
  match (message.findMember "message").bind Value.getString with
  | some name => ClientServerProtocol.getClientMsgEnum name
  | none => .unknown

/-- The callbacks of `onMessage`, where it does not throw. -/
def messageEvents (message : Value) : List SessionEvent :=
  match msgType message with
  | .hello => [.established]
  | .disconnect => [.disconnect]
  | .requestData => if s.state = .closing then [] else [.dataRequest]
  | .unknown => []

def messagesEvents (available : Flags) (parserError : Option String) :
    List Value → ServerSession τ → List SessionEvent
  | [], _ => if parserError.isSome then [.disconnect] else []
  | message :: ms, s =>
    match s.onMessage mem available message with
    | .ok (s', _) => s.messageEvents message ++ messagesEvents available parserError ms s'
    | .error _ => [.disconnect]

def receiveEvents (available : Flags) : Received → List SessionEvent
  | .closed | .failed _ => [.disconnect]
  | .messages ms parserError => messagesEvents mem available parserError ms s

def onUpdateEvents : List SessionEvent :=
  if s.state = .closing ∧ s.sessionTTL = 0 then [.disconnect] else []

def disconnectEvents : List SessionEvent := if s.state = .opening then [.disconnect] else []

/-- Nothing comes behind a DISCONNECT message in what one `doReceive` parses. -/
def closesLast (available : Flags) (parserError : Option String) :
    List Value → ServerSession τ → Bool
  | [], _ => true
  | message :: ms, s =>
    match s.onMessage mem available message with
    | .ok (s', _) =>
      (msgType message != .disconnect || (ms.isEmpty && parserError.isNone)) &&
        closesLast available parserError ms s'
    | .error _ => true

variable {mem : ServerMemory} {s s' : ServerSession τ} {available : Flags} {message : Value}
variable {enable : Bool} {parserError : Option String}

/-- The handlers that can run for a message, each with the kind of the message. -/
theorem onMessage_msgType (h : s.onMessage mem available message = .ok (s', enable)) :
    (msgType message = .hello ∧ s.onHello mem message = .ok s') ∨
      (msgType message = .disconnect ∧ s.onDisconnect message = .ok s') ∨
        (msgType message = .requestData ∧
          s.onRequestData mem available message = .ok (s', enable)) := by
  rw [onMessage] at h
  split_ifs at h
  · cases h
  · obtain ⟨name, hname, h⟩ := Value.of_bind_ok h
    have hmem := Value.of_require hname
    have htype : msgType message = ClientServerProtocol.getClientMsgEnum name := by
      rw [msgType, hmem]
    rw [htype]
    split at h
    · cases h
    · rename_i heq
      obtain ⟨t, ht, h⟩ := Value.of_bind_ok h
      cases h
      exact .inl ⟨heq, ht⟩
    · rename_i heq
      obtain ⟨t, ht, h⟩ := Value.of_bind_ok h
      cases h
      exact .inr (.inl ⟨heq, ht⟩)
    · rename_i heq
      exact .inr (.inr ⟨heq, h⟩)

omit [ServerTransport τ] in
theorem phase_eq_closed : s.phase = .closed ↔ s.state = .disconnected := by
  rw [phase]
  cases s.state <;> simp

omit [ServerTransport τ] in
/-- Any session that is not disconnected may be closed. -/
theorem leads_disconnect (hs : s.state ≠ .disconnected) {p : SessionPhase} (hp : p = .closed) :
    Leads false s.phase [.disconnect] p := by
  subst hp
  have hphase := mt phase_eq_closed.mp hs
  cases h : s.phase with
  | closed => exact absurd h hphase
  | opened | greeted | established => rfl

/-- What a message does, and only a DISCONNECT message closes the session. -/
theorem message_leads (hs : s.state ≠ .disconnected)
    (h : s.onMessage mem available message = .ok (s', enable)) :
    Leads false s.phase (s.messageEvents message) s'.phase ∧
      (msgType message ≠ .disconnect → s'.state ≠ .disconnected) := by
  obtain ⟨htype, h⟩ | ⟨htype, h⟩ | ⟨htype, h⟩ := onMessage_msgType h
  · obtain ⟨hopen, info, rfl⟩ := onHello_ok h
    refine ⟨?_, fun _ => ESessionState.noConfusion⟩
    rw [messageEvents, htype, phase, hopen]
    rfl
  · obtain ⟨reason, error, rfl⟩ := onDisconnect_ok h
    refine ⟨?_, fun hne => absurd htype hne⟩
    rw [messageEvents, htype]
    exact leads_disconnect hs rfl
  · obtain ⟨hclosing, rfl, -⟩ | ⟨hconn, f, g, hr⟩ := onRequestData_ok h
    · refine ⟨?_, fun _ => hs⟩
      rw [messageEvents, htype, if_pos hclosing]
      exact .nil
    · have hs' : s'.state = .connected := by
        rw [(Prod.mk.inj hr).1]
        show (s.sendDataStatus mem _ _).state = .connected
        rw [sendDataStatus, if_pos hconn]
        exact hconn
      refine ⟨?_, fun _ => by rw [hs']; exact ESessionState.noConfusion⟩
      rw [messageEvents, htype, phase, phase, hs', hconn]
      rfl

theorem messages_lead (ms : List Value) (hs : s.state ≠ .disconnected)
    (hlast : closesLast mem available parserError ms s = true) :
    Leads false s.phase (messagesEvents mem available parserError ms s)
      (onMessages mem available parserError ms s).1.phase := by
  induction ms generalizing s with
  | nil =>
    cases parserError with
    | none => exact .nil
    | some error => exact leads_disconnect hs rfl
  | cons message ms ih =>
    rw [messagesEvents, onMessages]
    rw [closesLast] at hlast
    cases hm : s.onMessage mem available message with
    | error error => exact leads_disconnect hs rfl
    | ok r =>
      obtain ⟨s', enable⟩ := r
      simp only [hm, Bool.and_eq_true, Bool.or_eq_true, bne_iff_ne] at hlast
      obtain ⟨hleads, hkeep⟩ := message_leads hs hm
      refine hleads.append ?_
      obtain hne | ⟨hms, herror⟩ := hlast.1
      · exact ih (hkeep hne) hlast.2
      · rw [List.isEmpty_iff.mp hms, Option.isNone_iff_eq_none.mp herror]
        exact .nil

theorem onUpdate_leads : Leads false s.phase s.onUpdateEvents (s.onUpdate mem).phase := by
  rw [onUpdateEvents, onUpdate, phase]
  cases hs : s.state with
  | disconnected | opening | connected => simp [phase, Leads]
  | closing =>
    by_cases httl : 0 < s.sessionTTL
    · simp [phase, httl, Nat.ne_of_gt httl, Leads]
    · simp [phase, Nat.eq_zero_of_not_pos httl, Leads, quickDisconnect]
      rfl

theorem disconnect_leads : Leads false s.phase s.disconnectEvents (s.disconnect mem).phase := by
  rw [disconnectEvents, disconnect, phase]
  cases hs : s.state with
  | connected => rfl
  | disconnected | closing => simp [phase, hs, Leads]
  | opening =>
    simp only [if_true, reduceCtorEq, if_false]
    rfl

end

/-! ## Runs of the server's session -/

def inputEvents (mem : ServerMemory) (s : ServerSession ServerOutbox) (available : Flags)
    (event : PollEvent) : List SessionEvent :=
  if event.flags.test EPollFlags.input then s.receiveEvents mem available event.received else []

def outputEvents (mem : ServerMemory) (s : ServerSession ServerOutbox) (socket : Socket) :
    List SessionEvent :=
  match s.transport.sendLoop isData mem s.transport.sendQueue socket with
  | (.failed, _) => [.disconnect]
  | _ => []

def afterOutputEvents (s : ServerSession ServerOutbox) (event : PollEvent) : List SessionEvent :=
  if event.flags.test EPollFlags.error ∧ s.state ≠ .disconnected then [.disconnect] else []

def afterInputEvents (mem : ServerMemory) (s : ServerSession ServerOutbox) (event : PollEvent) :
    List SessionEvent :=
  if event.flags.test EPollFlags.output ∧ s.state ≠ .disconnected then
    s.outputEvents mem event.socket ++ (s.output mem event.socket).afterOutputEvents event
  else s.afterOutputEvents event

/-- The callbacks of a step. -/
def events (mem : ServerMemory) (s : ServerSession ServerOutbox) : Op → List SessionEvent
  | .poll available event =>
    s.inputEvents mem available event ++
      (s.input mem available event).1.afterInputEvents mem event
  | .onUpdate => s.onUpdateEvents
  | .disconnect => s.disconnectEvents
  | .sendDataStatus _ _ | .sendData _ | .stopSendingData => []

/-- The condition on a step. -/
def Op.closesLast (mem : ServerMemory) (s : ServerSession ServerOutbox) : Op → Bool
  | .poll available ⟨flags, .messages ms parserError, _⟩ =>
    !flags.test EPollFlags.input || s.closesLast mem available parserError ms
  | _ => true

/-- A step with its callbacks. A session is polled while its socket is registered. -/
def stepLogged (s : ServerSession ServerOutbox × List SessionEvent) (op : ServerMemory × Op) :
    Option (ServerSession ServerOutbox × List SessionEvent) :=
  match op.2 with
  | .poll _ _ =>
    if s.1.transport.isConnected then some (s.1.step op.1 op.2, s.2 ++ s.1.events op.1 op.2)
    else none
  | _ => some (s.1.step op.1 op.2, s.2 ++ s.1.events op.1 op.2)

section

variable {mem : ServerMemory} {s : ServerSession ServerOutbox} {available : Flags}
variable {event : PollEvent}

/-- A session that is disconnected has closed its socket. -/
def IsClosed (o : ServerOutbox) (state : ESessionState) : Prop :=
  state = .disconnected → o.isConnected = false

theorem keeps_isClosed (mem : ServerMemory) : Keeps mem IsClosed where
  enqueue _ _ _ _ _ h := h
  close _ _ _ := fun _ => rfl
  open_ _ _ _ _ hs _ := fun h => absurd h hs

theorem afterOutput_isClosed (h : IsClosed s.transport s.state) :
    IsClosed (s.afterOutput event).transport (s.afterOutput event).state := by
  rw [afterOutput]
  dsimp only
  rw [IsClosed, Outbox.resetPoll_isConnected]
  split_ifs
  · exact fun _ => rfl
  · exact h

theorem afterInput_isClosed (h : IsClosed s.transport s.state) :
    IsClosed (s.afterInput mem event).transport (s.afterInput mem event).state := by
  rw [afterInput]
  split_ifs
  · exact afterOutput_isClosed (output_closed mem h event.socket).2
  · exact afterOutput_isClosed h

theorem input_isClosed (h : IsClosed s.transport s.state) :
    IsClosed (s.input mem available event).1.transport (s.input mem available event).1.state := by
  rw [input]
  split_ifs
  · exact (keeps_isClosed mem).receive h event.received
  · exact h

theorem step_isClosed (h : IsClosed s.transport s.state) (op : Op) :
    IsClosed (s.step mem op).transport (s.step mem op).state := by
  cases op with
  | poll available event => exact afterInput_isClosed (input_isClosed h)
  | onUpdate => exact (keeps_isClosed mem).onUpdate h
  | disconnect => exact (keeps_isClosed mem).disconnect h
  | sendDataStatus f g => exact (keeps_isClosed mem).sendDataStatus h f g
  | sendData k => exact Keeps.sendData h fun _ ho => ho
  | stopSendingData =>
    exact fun hs => (Outbox.stopSendingData_isConnected isData mem).trans (h hs)

theorem input_leads (hs : s.state ≠ .disconnected)
    (hlast : (Op.poll available event).closesLast mem s = true) :
    Leads false s.phase (s.inputEvents mem available event)
      (s.input mem available event).1.phase := by
  obtain ⟨flags, received, socket⟩ := event
  rw [inputEvents, input]
  by_cases hflag : flags.test EPollFlags.input = true
  · rw [if_pos hflag, if_pos hflag]
    cases received with
    | closed => exact leads_disconnect hs rfl
    | failed error => exact leads_disconnect hs rfl
    | messages ms parserError =>
      rw [Op.closesLast, hflag, Bool.not_true, Bool.false_or] at hlast
      exact messages_lead ms hs hlast
  · rw [if_neg hflag, if_neg hflag]
    exact .nil

theorem output_leads (hs : s.state ≠ .disconnected) (socket : Socket) :
    Leads false s.phase (s.outputEvents mem socket) (s.output mem socket).phase := by
  rw [outputEvents, output]
  obtain ⟨result, o⟩ := s.transport.sendLoop isData mem s.transport.sendQueue socket
  cases result with
  | failed => exact leads_disconnect hs rfl
  | done | blocked => exact .nil

theorem afterOutput_leads :
    Leads false s.phase (s.afterOutputEvents event) (s.afterOutput event).phase := by
  rw [afterOutputEvents, afterOutput]
  by_cases h : event.flags.test EPollFlags.error ∧ s.state ≠ .disconnected
  · rw [if_pos h, if_pos h]
    exact leads_disconnect h.2 rfl
  · rw [if_neg h, if_neg h]
    exact .nil

theorem afterInput_leads :
    Leads false s.phase (s.afterInputEvents mem event) (s.afterInput mem event).phase := by
  rw [afterInputEvents, afterInput]
  by_cases h : event.flags.test EPollFlags.output ∧ s.state ≠ .disconnected
  · rw [if_pos h, if_pos h]
    exact (output_leads h.2 event.socket).append afterOutput_leads
  · rw [if_neg h, if_neg h]
    exact afterOutput_leads

theorem step_leads {op : Op} (hpoll : ∀ available event, op = .poll available event →
    s.state ≠ .disconnected) (hlast : op.closesLast mem s = true) :
    Leads false s.phase (s.events mem op) (s.step mem op).phase := by
  cases op with
  | poll available event => exact (input_leads (hpoll _ _ rfl) hlast).append afterInput_leads
  | onUpdate => exact onUpdate_leads
  | disconnect => exact disconnect_leads
  | sendDataStatus f g =>
    rw [events, step, sendDataStatus]
    split_ifs
    · exact .nil
    · exact .nil
  | sendData k =>
    rw [events, step, sendData]
    split_ifs
    · exact .nil
    · exact .nil
  | stopSendingData => exact .nil

end

end ServerSession

/-! ## The client -/

namespace Client

section

variable {τ : Type} [ClientTransport τ] (S : StdSort) (inet : InetText) (c : Client τ)

def phase : SessionPhase :=
  match c.session.state with
  | .disconnected => .closed
  | .opening => if c.session.expectedMsg = .serverHello then .greeted else .opened
  | .connected | .closing => .established

/-- `onSessionDisconnect`, and the new connection if `tryNext` has opened one. -/
def closeEvents : List SessionEvent :=
  .disconnect :: if c.session.state = .opening then [.connect] else []

/-- A message that closes the session when it is accepted. -/
def isClosing (message : Value) : Bool :=
  match msgType message with
  | .ok .banner =>
    (message.findMember "conntop_server").bind Value.getInt !=
      some ClientServerProtocol.protocolVersion
  | .ok .disconnect => true
  | _ => false

/-- The callbacks of a handler, unless it throws. -/
def ifOk (result : Except String (Client τ)) (es : Client τ → List SessionEvent) :
    List SessionEvent :=
  match result with
  | .ok c => es c
  | .error _ => []

/-- The callbacks of `onMessage`. `onSessionData` can throw. -/
def messageEvents (message : Value) : List SessionEvent :=
  match msgType message with
  | .ok .banner =>
    ifOk (c.onBanner message) fun c => if isClosing message then c.closeEvents else [.banner]
  | .ok .hello => ifOk (c.onHello message) fun _ => [.established]
  | .ok .disconnect => ifOk (c.onDisconnect message) closeEvents
  | .ok .updateTick =>
    ifOk (c.onUpdateTick message) fun _ =>
      if c.session.state = .closing then [] else [.serverTick]
  | .ok .dataStatus =>
    ifOk (c.onDataStatus message) fun _ =>
      if c.session.state = .closing then [] else [.dataStatus]
  | .ok .data =>
    if c.session.state = .closing then []
    else
      match c.checkData message with
      | .ok _ => [.data]
      | .error _ => []
  | .ok .unknown | .error _ => []

def messagesEvents (parserError : Option String) : List Value → Client τ → List SessionEvent
  | [], c =>
    match parserError with
    | some error => (c.quickDisconnect .protocolError error).closeEvents
    | none => []
  | message :: ms, c =>
    c.messageEvents message ++
      match c.onMessage S inet message with
      | (c', some error) => (c'.quickDisconnect .protocolError error).closeEvents
      | (c', none) => if c'.exit.isSome then [] else messagesEvents parserError ms c'

def receiveEvents : Received → List SessionEvent
  | .messages ms parserError => messagesEvents S inet parserError ms c
  | received => (c.receive S inet received).closeEvents

def onResolvedEvents (attempts : List Bool) : List SessionEvent :=
  if c.session.state = .disconnected ∧ (c.onResolved attempts).session.state = .opening then
    [.connect]
  else []

def onUpdateEvents : List SessionEvent :=
  if c.session.state ≠ .disconnected ∧ c.session.sessionTTL = 0 then c.onUpdate.closeEvents else []

def disconnectEvents : List SessionEvent :=
  if c.session.state = .opening then c.disconnect.closeEvents else []

/-- Nothing comes behind a message that closes the session in what one `doReceive` parses. -/
def closesLast (parserError : Option String) : List Value → Client τ → Bool
  | [], _ => true
  | message :: ms, c =>
    match c.onMessage S inet message with
    | (_, some _) => true
    | (c', none) =>
      (!isClosing message || (ms.isEmpty && parserError.isNone)) && closesLast parserError ms c'

variable {S : StdSort} {inet : InetText} {c c' : Client τ} {message : Value}
variable {parserError : Option String}

/-- While a connection is opened, no answer to a request for data is expected. -/
def IsSound (c : Client τ) : Prop :=
  c.session.state = .opening → c.session.expectedMsg ≠ .serverDataStatus

omit [ClientTransport τ] in
theorem phase_of_established (h : c.session.state = .connected ∨ c.session.state = .closing) :
    c.phase = .established := by
  rw [phase]
  obtain h | h := h <;> rw [h]

/-- After `quickDisconnect` a session is disconnected, or it is opened again. -/
theorem quickDisconnect_state (c : Client τ) (reason : EDisconnectReason) (error : String) :
    (c.quickDisconnect reason error).session.state = .disconnected ∨
      (c.quickDisconnect reason error).session.state = .opening ∧
        (c.quickDisconnect reason error).session.expectedMsg = .serverBanner := by
  rw [quickDisconnect, onSessionDisconnect]
  cases c.connector with
  | none => exact .inl rfl
  | some connector =>
    dsimp only
    rw [tryNext]
    cases connector.attempts with
    | none => exact .inl rfl
    | some attempts =>
      dsimp only
      cases attempts.dropWhile (!·) with
      | nil => exact .inl rfl
      | cons attempt attempts => exact .inr ⟨rfl, rfl⟩

theorem quickDisconnect_isSound (c : Client τ) (reason : EDisconnectReason) (error : String) :
    (c.quickDisconnect reason error).IsSound := by
  intro hopen
  obtain hs | ⟨-, hs⟩ := quickDisconnect_state c reason error
  · rw [hs] at hopen
    exact absurd hopen ESessionState.noConfusion
  · rw [hs]
    exact EExpectedMsg.noConfusion

theorem close_leads (hs : c.session.state ≠ .disconnected) (reason : EDisconnectReason)
    (error : String) : Leads true c.phase (c.quickDisconnect reason error).closeEvents
      (c.quickDisconnect reason error).phase := by
  have hclosed : Leads true c.phase [.disconnect] .closed := by
    rw [phase]
    cases h : c.session.state with
    | disconnected => exact absurd h hs
    | opening => dsimp only; split_ifs <;> rfl
    | connected | closing => rfl
  suffices hreopen : Leads true .closed
      (if (c.quickDisconnect reason error).session.state = .opening then [.connect] else [])
      (c.quickDisconnect reason error).phase from hclosed.append hreopen
  obtain h | ⟨h, hmsg⟩ := quickDisconnect_state c reason error
  · rw [if_neg (by rw [h]; exact ESessionState.noConfusion), phase, h]
    exact .nil
  · rw [if_pos h, phase, h]
    dsimp only
    rw [if_neg (by rw [hmsg]; exact EExpectedMsg.noConfusion)]
    rfl

@[simp] theorem requestData_state (c : Client τ) :
    c.requestData.session.state = c.session.state := by
  rw [requestData, ClientSession.requestData]
  split_ifs <;> rfl

@[simp] theorem onSessionServerTick_state (c : Client τ) :
    c.onSessionServerTick.session.state = c.session.state := by
  rw [onSessionServerTick]
  dsimp only
  split_ifs <;> simp

@[simp] theorem onSessionDataStatus_state (c : Client τ) :
    c.onSessionDataStatus.session.state = c.session.state := by
  rw [onSessionDataStatus]
  dsimp only
  split_ifs <;> simp

@[simp] theorem onDataDeserialized_state (c : Client τ) :
    c.onDataDeserialized.session.state = c.session.state := by
  rw [onDataDeserialized]
  split_ifs <;> simp

variable (S inet) in
@[simp] theorem onSessionData_state (c : Client τ) (type : Flags) (isUpdate : Bool)
    (data : Value) :
    (c.onSessionData S inet type isUpdate data).1.session.state = c.session.state := by
  rw [onSessionData]
  split
  · rfl
  · split
    · cases data.getArray with
      | none => rfl
      | some items =>
        dsimp only
        split
        · rfl
        · exact onDataDeserialized_state _
    · rfl

/-- What an accepted BANNER does. -/
theorem onBanner_ok (h : c.onBanner message = .ok c') :
    c.session.state = .opening ∧ c.session.expectedMsg = .serverBanner ∧
      ∃ version, (message.findMember "conntop_server").bind Value.getInt = some version ∧
        (version ≠ ClientServerProtocol.protocolVersion ∧ c' = c.quickDisconnect .versionMismatch ∨
          version = ClientServerProtocol.protocolVersion ∧ c'.session.state = .opening ∧
            c'.session.expectedMsg = .serverHello) := by
  rw [onBanner] at h
  split_ifs at h with hs
  · cases h
  · rw [not_or, not_not, not_not] at hs
    obtain ⟨version, hversion, h⟩ := Value.of_bind_ok h
    refine ⟨hs.1, hs.2, version, Value.of_require hversion, ?_⟩
    split_ifs at h with hv
    · cases h
      exact .inl ⟨hv, rfl⟩
    · cases h
      exact .inr ⟨not_not.mp hv, hs.1, rfl⟩

theorem onHello_ok (h : c.onHello message = .ok c') :
    c.session.state = .opening ∧ c.session.expectedMsg = .serverHello ∧
      c'.session.state = .connected := by
  rw [onHello] at h
  split_ifs at h with hs
  · cases h
  · rw [not_or, not_not, not_not] at hs
    obtain ⟨name, -, h⟩ := Value.of_bind_ok h
    obtain ⟨version, -, h⟩ := Value.of_bind_ok h
    obtain ⟨platform, -, h⟩ := Value.of_bind_ok h
    cases h
    exact ⟨hs.1, hs.2, requestData_state _⟩

theorem onDisconnect_ok (h : c.onDisconnect message = .ok c') :
    ∃ reason error, c' = c.quickDisconnect reason error := by
  obtain ⟨reasonName, -, h⟩ := Value.of_bind_ok h
  cases h
  exact ⟨_, _, rfl⟩

theorem onUpdateTick_ok (h : c.onUpdateTick message = .ok c') :
    c.session.state = .closing ∧ c' = c ∨
      c.session.state = .connected ∧ c'.session.state = .connected := by
  rw [onUpdateTick] at h
  split_ifs at h with hclosing hconn
  · cases h
    exact .inl ⟨hclosing, rfl⟩
  · obtain ⟨timestamp, -, h⟩ := Value.of_bind_ok h
    dsimp only at h
    split_ifs at h
    cases h
    rw [not_not] at hconn
    exact .inr ⟨hconn, (onSessionServerTick_state _).trans hconn⟩

theorem onDataStatus_ok (h : c.onDataStatus message = .ok c') :
    c.session.state = .closing ∧ c' = c ∨
      c.session.state ≠ .closing ∧ c.session.expectedMsg = .serverDataStatus ∧
        c'.session.state = c.session.state := by
  rw [onDataStatus] at h
  split_ifs at h with hclosing hmsg
  · cases h
    exact .inl ⟨hclosing, rfl⟩
  · obtain ⟨dataFlags, -, h⟩ := Value.of_bind_ok h
    obtain ⟨dataUpdateFlags, -, h⟩ := Value.of_bind_ok h
    cases h
    exact .inr ⟨hclosing, not_not.mp hmsg, onSessionDataStatus_state _⟩

omit [ClientTransport τ] in
theorem checkData_ok {r : Flags × Bool × Value} (h : c.checkData message = .ok r) :
    c.session.state = .connected := by
  rw [checkData] at h
  split_ifs at h with hs
  exact not_not.mp hs

omit [ClientTransport τ] in
theorem orUnchanged_eq_none {result : Except String (Client τ)}
    (h : c.orUnchanged result = (c', none)) : result = .ok c' := by
  cases result with
  | error error => exact absurd (Prod.mk.inj h).2 (Option.some_ne_none error)
  | ok t => rw [(Prod.mk.inj h).1]

omit [ClientTransport τ] in
theorem orUnchanged_eq_some {result : Except String (Client τ)} {error : String}
    (h : c.orUnchanged result = (c', some error)) : c' = c ∧ ∃ e, result = .error e := by
  cases result with
  | error e => exact ⟨(Prod.mk.inj h).1.symm, e, rfl⟩
  | ok t => exact absurd (Prod.mk.inj h).2 (Option.some_ne_none error).symm

omit [ClientTransport τ] in
/-- A client whose session neither opens nor closes, with the callbacks of an established one. -/
theorem established_leads (hs : c.session.state = .connected ∨ c.session.state = .closing)
    (hs' : c'.session.state = .connected ∨ c'.session.state = .closing) {es : List SessionEvent}
    (hes : Leads true .established es .established) : Leads true c.phase es c'.phase := by
  rw [phase_of_established hs, phase_of_established hs']
  exact hes

omit [ClientTransport τ] in
theorem isSound_of_ne (h : c.session.state ≠ .opening) : c.IsSound := fun hopen => absurd hopen h

variable (S inet message) in
/-- DATA changes neither the state nor what is expected, whether `onSessionData` throws or not. -/
theorem data_leads (h : c.IsSound) (hs : c.session.state ≠ .disconnected) :
    Leads true c.phase
        (if c.session.state = .closing then []
          else
            match c.checkData message with
            | .ok _ => [.data]
            | .error _ => []) (c.onData S inet message).1.phase ∧
      (c.onData S inet message).1.IsSound ∧
        (c.onData S inet message).1.session.state ≠ .disconnected := by
  rw [onData]
  split_ifs with hclosing
  · exact ⟨.nil, h, hs⟩
  · cases hr : c.checkData message with
    | error error => exact ⟨.nil, h, hs⟩
    | ok r =>
      obtain ⟨type, isUpdate, data⟩ := r
      have hconn := checkData_ok hr
      have hstate := (onSessionData_state S inet c type isUpdate data).trans hconn
      exact ⟨established_leads (.inl hconn) (.inl hstate) rfl, isSound_of_ne (by simp [hconn]),
        by simp [hconn]⟩

/-- What a message does that is accepted. Only a closing one closes the session. -/
theorem message_leads (h : c.IsSound) (hs : c.session.state ≠ .disconnected)
    (hm : c.onMessage S inet message = (c', none)) :
    Leads true c.phase (c.messageEvents message) c'.phase ∧ c'.IsSound ∧
      (isClosing message = false → c'.session.state ≠ .disconnected) := by
  rw [onMessage] at hm
  rw [messageEvents, isClosing]
  cases htype : msgType message with
  | error error =>
    rw [htype] at hm
    exact absurd (Prod.mk.inj hm).2 (Option.some_ne_none error)
  | ok type =>
    rw [htype] at hm
    cases type with
    | unknown =>
      obtain rfl := (Prod.mk.inj hm).1
      exact ⟨.nil, h, fun _ => hs⟩
    -- a banner of another version closes the session, the right one asks for HELLO
    | banner =>
      have hok := orUnchanged_eq_none hm
      obtain ⟨hopen, hmsg, version, hversion, hcase⟩ := onBanner_ok hok
      simp only [hok, ifOk, hversion, bne_iff_ne, Option.some_inj, ne_eq]
      obtain ⟨hne, rfl⟩ | ⟨rfl, hopen', hmsg'⟩ := hcase
      · rw [if_pos hne]
        exact ⟨close_leads hs _ _, quickDisconnect_isSound c _ _, fun hf => by simp [hne] at hf⟩
      · rw [if_neg (not_not.mpr rfl)]
        refine ⟨?_, fun _ => ?_, fun _ => ?_⟩
        · rw [phase, phase, hopen, hopen', hmsg, hmsg']
          rfl
        · rw [hmsg']
          exact EExpectedMsg.noConfusion
        · rw [hopen']
          exact ESessionState.noConfusion
    -- the session is connected now
    | hello =>
      have hok := orUnchanged_eq_none hm
      obtain ⟨hopen, hmsg, hconn⟩ := onHello_ok hok
      simp only [hok, ifOk]
      refine ⟨?_, fun hopen' => ?_, fun _ => ?_⟩
      · rw [phase, phase, hopen, hmsg, hconn]
        rfl
      · rw [hconn] at hopen'
        exact absurd hopen' ESessionState.noConfusion
      · rw [hconn]
        exact ESessionState.noConfusion
    | disconnect =>
      have hok := orUnchanged_eq_none hm
      obtain ⟨reason, error, rfl⟩ := onDisconnect_ok hok
      simp only [hok, ifOk]
      exact ⟨close_leads hs _ _, quickDisconnect_isSound c _ _, fun hf => Bool.noConfusion hf⟩
    | updateTick =>
      have hok := orUnchanged_eq_none hm
      simp only [hok, ifOk]
      obtain ⟨hclosing, rfl⟩ | ⟨hconn, hconn'⟩ := onUpdateTick_ok hok
      · rw [if_pos hclosing]
        exact ⟨.nil, h, fun _ => hs⟩
      · rw [if_neg (by rw [hconn]; exact ESessionState.noConfusion)]
        exact ⟨established_leads (.inl hconn) (.inl hconn') rfl, isSound_of_ne (by simp [hconn']),
          fun _ => by simp [hconn']⟩
    -- only a connected session gets here: the expected message rules out the other states
    | dataStatus =>
      have hok := orUnchanged_eq_none hm
      simp only [hok, ifOk]
      obtain ⟨hclosing, rfl⟩ | ⟨hne, hmsg, hstate⟩ := onDataStatus_ok hok
      · rw [if_pos hclosing]
        exact ⟨.nil, h, fun _ => hs⟩
      · rw [if_neg hne]
        have hconn : c.session.state = .connected := by
          cases hst : c.session.state with
          | disconnected => exact absurd hst hs
          | closing => exact absurd hst hne
          | opening => exact absurd hmsg (h hst)
          | connected => rfl
        rw [hconn] at hstate
        exact ⟨established_leads (.inl hconn) (.inl hstate) rfl, isSound_of_ne (by simp [hstate]),
          fun _ => by simp [hstate]⟩
    | data =>
      have hdata := data_leads S inet message h hs
      rw [show c.onData S inet message = (c', none) from hm] at hdata
      exact ⟨hdata.1, hdata.2.1, fun _ => hdata.2.2⟩

/-- What a message does that is rejected, before its exception is caught. -/
theorem message_leads_error {error : String} (h : c.IsSound) (hs : c.session.state ≠ .disconnected)
    (hm : c.onMessage S inet message = (c', some error)) :
    Leads true c.phase (c.messageEvents message) c'.phase ∧ c'.session.state ≠ .disconnected := by
  rw [onMessage] at hm
  rw [messageEvents]
  cases htype : msgType message with
  | error error =>
    rw [htype] at hm
    obtain rfl := (Prod.mk.inj hm).1
    exact ⟨.nil, hs⟩
  | ok type =>
    rw [htype] at hm
    cases type with
    | unknown => exact absurd (Prod.mk.inj hm).2 (Option.some_ne_none error).symm
    | banner | hello | disconnect | updateTick | dataStatus =>
      obtain ⟨rfl, e, he⟩ := orUnchanged_eq_some hm
      simp only [he, ifOk]
      exact ⟨.nil, hs⟩
    | data =>
      have hdata := data_leads S inet message h hs
      rw [show c.onData S inet message = (c', some error) from hm] at hdata
      exact ⟨hdata.1, hdata.2.2⟩

theorem messages_lead (ms : List Value) (h : c.IsSound) (hs : c.session.state ≠ .disconnected)
    (hlast : closesLast S inet parserError ms c = true) :
    Leads true c.phase (messagesEvents S inet parserError ms c)
        (onMessages S inet parserError ms c).phase ∧
      (onMessages S inet parserError ms c).IsSound := by
  induction ms generalizing c with
  | nil =>
    cases parserError with
    | none => exact ⟨.nil, h⟩
    | some error => exact ⟨close_leads hs _ _, quickDisconnect_isSound c _ _⟩
  | cons message ms ih =>
    rw [messagesEvents, onMessages]
    rw [closesLast] at hlast
    cases hm : c.onMessage S inet message with
    | mk c' error =>
      rw [hm] at hlast
      cases error with
      | some error =>
        obtain ⟨hleads, hs'⟩ := message_leads_error h hs hm
        exact ⟨hleads.append (close_leads hs' _ _), quickDisconnect_isSound c' _ _⟩
      | none =>
        simp only [Bool.and_eq_true, Bool.or_eq_true, Bool.not_eq_true'] at hlast
        obtain ⟨hleads, h', hkeep⟩ := message_leads h hs hm
        dsimp only
        split_ifs
        · exact ⟨hleads.append .nil, h'⟩
        · obtain hne | ⟨hms, herror⟩ := hlast.1
          · obtain ⟨hrest, hsound⟩ := ih h' (hkeep hne) hlast.2
            exact ⟨hleads.append hrest, hsound⟩
          · rw [List.isEmpty_iff.mp hms, Option.isNone_iff_eq_none.mp herror]
            exact ⟨hleads.append .nil, h'⟩

theorem receive_leads (h : c.IsSound) (hs : c.session.state ≠ .disconnected) (received : Received)
    (hlast : ∀ ms parserError, received = .messages ms parserError →
      closesLast S inet parserError ms c = true) :
    Leads true c.phase (c.receiveEvents S inet received) (c.receive S inet received).phase ∧
      (c.receive S inet received).IsSound := by
  cases received with
  | closed => exact ⟨close_leads hs _ _, quickDisconnect_isSound c _ _⟩
  | failed error => exact ⟨close_leads hs _ _, quickDisconnect_isSound c _ _⟩
  | messages ms parserError => exact messages_lead ms h hs (hlast ms parserError rfl)

/-- `onResolved` leaves the session as it is, or opens it. -/
theorem onResolved_session (c : Client τ) (attempts : List Bool) :
    (c.onResolved attempts).session = c.session ∨
      (c.onResolved attempts).session = c.session.connect := by
  rw [onResolved]
  cases c.connector with
  | none => exact .inl rfl
  | some connector =>
    dsimp only
    rw [tryNext]
    dsimp only
    cases attempts.dropWhile (!·) with
    | nil => exact .inl rfl
    | cons attempt attempts => exact .inr rfl

theorem onResolved_leads (h : c.IsSound) (attempts : List Bool) :
    Leads true c.phase (c.onResolvedEvents attempts) (c.onResolved attempts).phase ∧
      (c.onResolved attempts).IsSound := by
  rw [onResolvedEvents]
  obtain hsame | hconnect := onResolved_session c attempts
  · have hno : ¬(c.session.state = .disconnected ∧
        (c.onResolved attempts).session.state = .opening) := by
      rw [hsame]
      exact fun hc => ESessionState.noConfusion (hc.1.symm.trans hc.2)
    rw [if_neg hno, phase, phase, IsSound, hsame]
    exact ⟨.nil, h⟩
  · by_cases hs : c.session.state = .disconnected
    · rw [ClientSession.connect, if_pos hs] at hconnect
      have hyes : (c.onResolved attempts).session.state = .opening := by rw [hconnect]
      rw [if_pos ⟨hs, hyes⟩, phase, phase, IsSound, hconnect, hs]
      exact ⟨rfl, fun _ => EExpectedMsg.noConfusion⟩
    · rw [ClientSession.connect, if_neg hs] at hconnect
      rw [if_neg fun hc => hs hc.1, phase, phase, IsSound, hconnect]
      exact ⟨.nil, h⟩

theorem onUpdate_leads (h : c.IsSound) :
    Leads true c.phase c.onUpdateEvents c.onUpdate.phase ∧ c.onUpdate.IsSound := by
  rw [onUpdateEvents, onUpdate]
  by_cases hs : c.session.state = .disconnected
  · rw [if_pos hs, if_neg fun hc => hc.1 hs]
    exact ⟨.nil, h⟩
  · rw [if_neg hs]
    by_cases httl : 0 < c.session.sessionTTL
    · rw [if_pos httl, if_neg fun hc => Nat.ne_of_gt httl hc.2]
      exact ⟨.nil, h⟩
    · rw [if_neg httl, if_pos ⟨hs, Nat.eq_zero_of_not_pos httl⟩]
      exact ⟨close_leads hs _ _, quickDisconnect_isSound c _ _⟩

theorem disconnect_leads (h : c.IsSound) :
    Leads true c.phase c.disconnectEvents c.disconnect.phase ∧ c.disconnect.IsSound := by
  rw [disconnectEvents, disconnect]
  dsimp only
  by_cases hconn : c.session.state = .connected
  · rw [if_pos hconn, if_neg (by simp [hconn])]
    exact ⟨established_leads (.inl hconn) (.inr rfl) rfl,
      isSound_of_ne (by simp [ClientSession.sendMessage])⟩
  · rw [if_neg hconn]
    by_cases hopen : c.session.state = .opening
    · rw [if_pos hopen, if_pos hopen]
      exact ⟨close_leads (c := { c with connector := none }) (by simp [hopen]) _ _,
        quickDisconnect_isSound _ _ _⟩
    · rw [if_neg hopen, if_neg hopen]
      exact ⟨.nil, h⟩

theorem setPaused_leads (h : c.IsSound) (paused : Bool) :
    Leads true c.phase [] (c.setPaused paused).phase ∧ (c.setPaused paused).IsSound := by
  have hrequest : ∀ c : Client τ, c.IsSound → c.requestData.IsSound ∧
      c.requestData.phase = c.phase := by
    intro c h
    rw [IsSound, phase, phase, requestData, ClientSession.requestData]
    by_cases hc : c.session.state = .connected ∧ c.session.expectedMsg = .none
    · rw [if_pos hc]
      exact ⟨fun hopen => absurd (hc.1.symm.trans hopen) (by simp), by
        simp [ClientSession.sendMessage, hc.1]⟩
    · rw [if_neg hc]
      exact ⟨h, rfl⟩
  rw [setPaused]
  dsimp only
  split_ifs
  · exact ⟨.nil, h⟩
  · obtain ⟨hsound, hphase⟩ := hrequest { c with isPaused := paused } h
    rw [hphase]
    exact ⟨.nil, hsound⟩
  · exact ⟨.nil, h⟩

end

/-! ## Runs of the client -/

def inputEvents (S : StdSort) (inet : InetText) (c : Client ClientOutbox) (event : PollEvent) :
    List SessionEvent :=
  if event.flags.test EPollFlags.input then c.receiveEvents S inet event.received else []

def outputEvents (c : Client ClientOutbox) (socket : Socket) : List SessionEvent :=
  if c.session.isConnectionEstablished then
    match c.session.transport.sendLoop (fun _ => false) clientMemory c.session.transport.sendQueue
      socket with
    | (.failed, _) => (c.output socket).closeEvents
    | _ => []
  else if socket.isVerified then [] else (c.output socket).closeEvents

def afterOutputEvents (c : Client ClientOutbox) (event : PollEvent) : List SessionEvent :=
  if event.flags.test EPollFlags.error ∧ c.session.state ≠ .disconnected then
    (c.quickDisconnect .socketError "Socket poll failed").closeEvents
  else []

def afterInputEvents (c : Client ClientOutbox) (event : PollEvent) : List SessionEvent :=
  if event.flags.test EPollFlags.output ∧ c.session.state ≠ .disconnected then
    c.outputEvents event.socket ++ (c.output event.socket).afterOutputEvents event
  else c.afterOutputEvents event

/-- The callbacks of a step. -/
def events (S : StdSort) (inet : InetText) (c : Client ClientOutbox) : Op → List SessionEvent
  | .resolved attempts => c.onResolvedEvents attempts
  | .poll event => c.inputEvents S inet event ++ (c.input S inet event).afterInputEvents event
  | .onUpdate => c.onUpdateEvents
  | .disconnect => c.disconnectEvents
  | .setPaused _ => []

/-- The condition on a step. -/
def Op.closesLast (S : StdSort) (inet : InetText) (c : Client ClientOutbox) : Op → Bool
  | .poll ⟨flags, .messages ms parserError, _⟩ =>
    !flags.test EPollFlags.input || Client.closesLast S inet parserError ms c
  | _ => true

/-- A step with its callbacks. A session is polled while its socket is registered. -/
def stepLogged (S : StdSort) (inet : InetText) (c : Client ClientOutbox × List SessionEvent)
    (op : Op) : Option (Client ClientOutbox × List SessionEvent) :=
  match op with
  | .poll _ =>
    if c.1.session.transport.isConnected then
      some (c.1.step S inet op, c.2 ++ c.1.events S inet op)
    else none
  | _ => some (c.1.step S inet op, c.2 ++ c.1.events S inet op)

section

variable {S : StdSort} {inet : InetText} {c : Client ClientOutbox} {event : PollEvent}

theorem input_leads (h : c.IsSound) (hs : c.session.state ≠ .disconnected)
    (hlast : (Op.poll event).closesLast S inet c = true) :
    Leads true c.phase (c.inputEvents S inet event) (c.input S inet event).phase ∧
      (c.input S inet event).IsSound := by
  obtain ⟨flags, received, socket⟩ := event
  rw [inputEvents, input]
  by_cases hflag : flags.test EPollFlags.input = true
  · rw [if_pos hflag, if_pos hflag]
    refine receive_leads h hs received fun ms parserError hr => ?_
    obtain rfl := hr
    rwa [Op.closesLast, hflag, Bool.not_true, Bool.false_or] at hlast
  · rw [if_neg hflag, if_neg hflag]
    exact ⟨.nil, h⟩

theorem output_leads (h : c.IsSound) (hs : c.session.state ≠ .disconnected) (socket : Socket) :
    Leads true c.phase (c.outputEvents socket) (c.output socket).phase ∧
      (c.output socket).IsSound := by
  rw [outputEvents, output]
  by_cases hest : c.session.isConnectionEstablished = true
  · rw [if_pos hest, if_pos hest]
    obtain ⟨result, o⟩ := c.session.transport.sendLoop (fun _ => false) clientMemory
      c.session.transport.sendQueue socket
    cases result with
    | failed =>
      exact ⟨close_leads (c := { c with session := { c.session with transport := o } }) hs _ _,
        quickDisconnect_isSound _ _ _⟩
    | done | blocked => exact ⟨.nil, h⟩
  · rw [if_neg hest, if_neg hest]
    by_cases hv : socket.isVerified = true
    · rw [if_pos hv, if_pos hv]
      exact ⟨.nil, h⟩
    · rw [if_neg hv, if_neg hv]
      exact ⟨close_leads hs _ _, quickDisconnect_isSound c _ _⟩

variable (event) in
theorem afterOutput_leads (h : c.IsSound) :
    Leads true c.phase (c.afterOutputEvents event) (c.afterOutput event).phase ∧
      (c.afterOutput event).IsSound := by
  rw [afterOutputEvents, afterOutput]
  by_cases he : event.flags.test EPollFlags.error ∧ c.session.state ≠ .disconnected
  · rw [if_pos he, if_pos he]
    exact ⟨close_leads he.2 _ _, quickDisconnect_isSound c _ _⟩
  · rw [if_neg he, if_neg he]
    exact ⟨.nil, h⟩

variable (event) in
theorem afterInput_leads (h : c.IsSound) :
    Leads true c.phase (c.afterInputEvents event) (c.afterInput event).phase ∧
      (c.afterInput event).IsSound := by
  rw [afterInputEvents, afterInput]
  by_cases ho : event.flags.test EPollFlags.output ∧ c.session.state ≠ .disconnected
  · rw [if_pos ho, if_pos ho]
    obtain ⟨hleads, hsound⟩ := output_leads h ho.2 event.socket
    obtain ⟨hleads', hsound'⟩ := afterOutput_leads event hsound
    exact ⟨hleads.append hleads', hsound'⟩
  · rw [if_neg ho, if_neg ho]
    exact afterOutput_leads event h

theorem step_leads {op : Op} (h : c.IsSound)
    (hpoll : ∀ event, op = .poll event → c.session.state ≠ .disconnected)
    (hlast : op.closesLast S inet c = true) :
    Leads true c.phase (c.events S inet op) (c.step S inet op).phase ∧
      (c.step S inet op).IsSound := by
  cases op with
  | resolved attempts => exact onResolved_leads h attempts
  | poll event =>
    obtain ⟨hleads, hsound⟩ := input_leads h (hpoll event rfl) hlast
    obtain ⟨hleads', hsound'⟩ := afterInput_leads event hsound
    exact ⟨hleads.append hleads', hsound'⟩
  | onUpdate => exact onUpdate_leads h
  | disconnect => exact disconnect_leads h
  | setPaused paused => exact setPaused_leads h paused

/-- A client that is disconnected has closed its socket. -/
def IsClosed (o : ClientOutbox) (state : ESessionState) (_ _ : Bool) : Prop :=
  state = .disconnected → o.isConnected = false

theorem keeps_isClosed : Keeps IsClosed where
  enqueue _ _ _ _ _ h := h
  close _ _ _ _ _ := fun _ => rfl
  connect _ _ _ := nofun
  open_ _ _ _ _ _ _ hs _ := fun h => absurd h hs
  detach _ _ _ _ h := h

theorem afterOutput_isClosed (h : c.Holds IsClosed) : (c.afterOutput event).Holds IsClosed := by
  have hreset : ∀ c : Client ClientOutbox, c.Holds IsClosed → Holds IsClosed
      { c with session := { c.session with transport := c.session.transport.resetPoll } } := by
    intro c h hs
    show c.session.transport.resetPoll.isConnected = false
    rw [Outbox.resetPoll_isConnected]
    exact h hs
  rw [afterOutput]
  exact hreset _ (by
    split_ifs
    · exact keeps_isClosed.quickDisconnect h _ _
    · exact h)

theorem output_isClosed (h : c.Holds IsClosed) (socket : Socket) :
    (c.output socket).Holds IsClosed := by
  rw [output]
  split_ifs
  · have hframe := (Outbox.sendLoop_frame clientMemory (fun _ => false)
      c.session.transport.sendQueue c.session.transport socket).1
    revert hframe
    obtain ⟨result, o⟩ := c.session.transport.sendLoop (fun _ => false) clientMemory
      c.session.transport.sendQueue socket
    intro hframe
    have ho : Holds IsClosed { c with session := { c.session with transport := o } } :=
      fun hs => hframe.trans (h hs)
    cases result with
    | failed => exact keeps_isClosed.quickDisconnect ho _ _
    | done | blocked => exact ho
  · exact h
  · exact keeps_isClosed.quickDisconnect h _ _

theorem step_isClosed (h : c.Holds IsClosed) (op : Op) : (c.step S inet op).Holds IsClosed := by
  cases op with
  | resolved attempts => exact keeps_isClosed.onResolved h attempts
  | poll event =>
    have hinput : (c.input S inet event).Holds IsClosed := by
      rw [input]
      split_ifs
      · exact keeps_isClosed.receive h event.received
      · exact h
    show ((c.input S inet event).afterInput event).Holds IsClosed
    rw [afterInput]
    split_ifs
    · exact afterOutput_isClosed (output_isClosed hinput event.socket)
    · exact afterOutput_isClosed hinput
  | onUpdate => exact keeps_isClosed.onUpdate h
  | disconnect => exact keeps_isClosed.disconnect h
  | setPaused paused => exact keeps_isClosed.setPaused h paused

end

end Client

/-! ## Runs -/

/-- The log of a session leads to its phase. -/
def ServerSession.Logged (s : ServerSession ServerOutbox × List SessionEvent) : Prop :=
  Leads false .closed s.2 s.1.phase ∧ ServerSession.IsClosed s.1.transport s.1.state

theorem ServerSession.stepLogged_logged {s s' : ServerSession ServerOutbox × List SessionEvent}
    {op : ServerMemory × ServerSession.Op} (h : ServerSession.Logged s)
    (hop : op.2.closesLast op.1 s.1 = true) (hs : ServerSession.stepLogged s op = some s') :
    ServerSession.Logged s' := by
  obtain ⟨mem, op⟩ := op
  have hstep (hopen : ∀ available event, op = .poll available event →
      s.1.state ≠ .disconnected) :
      ServerSession.Logged (s.1.step mem op, s.2 ++ s.1.events mem op) :=
    ⟨h.1.append (ServerSession.step_leads hopen hop), ServerSession.step_isClosed h.2 op⟩
  cases op with
  | poll available event =>
    rw [ServerSession.stepLogged] at hs
    split_ifs at hs with hc
    obtain rfl := Option.some.inj hs
    refine hstep fun _ _ _ hdis => ?_
    exact absurd ((h.2 hdis).symm.trans hc) Bool.false_ne_true
  | _ =>
    obtain rfl := Option.some.inj hs
    exact hstep nofun

/-- The log of a client leads to its phase. -/
def Client.Logged (c : Client ClientOutbox × List SessionEvent) : Prop :=
  Leads true .closed c.2 c.1.phase ∧ c.1.IsSound ∧ c.1.Holds Client.IsClosed

theorem Client.stepLogged_logged {S : StdSort} {inet : InetText}
    {c c' : Client ClientOutbox × List SessionEvent} {op : Client.Op} (h : Client.Logged c)
    (hop : op.closesLast S inet c.1 = true) (hs : Client.stepLogged S inet c op = some c') :
    Client.Logged c' := by
  have hstep (hopen : ∀ event, op = .poll event → c.1.session.state ≠ .disconnected) :
      Client.Logged (c.1.step S inet op, c.2 ++ c.1.events S inet op) := by
    obtain ⟨hleads, hsound⟩ := Client.step_leads h.2.1 hopen hop
    exact ⟨h.1.append hleads, hsound, Client.step_isClosed h.2.2 op⟩
  cases op with
  | poll event =>
    rw [Client.stepLogged] at hs
    split_ifs at hs with hc
    obtain rfl := Option.some.inj hs
    refine hstep fun _ _ hdis => ?_
    exact absurd ((h.2.2 hdis).symm.trans hc) Bool.false_ne_true
  | _ =>
    obtain rfl := Option.some.inj hs
    exact hstep nofun

/-- A new session of the server with its log. -/
def ServerSession.accepted (mem : ServerMemory) :
    ServerSession ServerOutbox × List SessionEvent :=
  (ServerSession.accept mem ServerSession.acceptedOutbox, [.connect])

/-- **Session callbacks follow their life cycle**, in every run of a session in which nothing comes
behind the message that closes it in what one `doReceive` parses. -/
theorem sessions_follow (S : StdSort) (inet : InetText) (info : PeerInfo) (host : String)
    (mem : ServerMemory) :
    (∀ ops s, GuardedRun.Meets ServerSession.stepLogged
        (fun s op => op.2.closesLast op.1 s.1 = true) (ServerSession.accepted mem) ops →
      GuardedRun.run ServerSession.stepLogged (ServerSession.accepted mem) ops = some s →
        Follows false s.2) ∧
    ∀ ops c, GuardedRun.Meets (Client.stepLogged S inet)
        (fun c op => op.closesLast S inet c.1 = true) (Client.init info host, []) ops →
      GuardedRun.run (Client.stepLogged S inet) (Client.init info host, []) ops = some c →
        Follows true c.2 := by
  constructor
  · intro ops s hops hrun
    have hinit : ServerSession.Logged (ServerSession.accepted mem) := ⟨rfl, nofun⟩
    have h : ServerSession.Logged s := GuardedRun.run_inv_of_meets
      (fun _ _ _ h hop hs => ServerSession.stepLogged_logged h hop hs) hinit hops hrun
    exact ⟨_, h.1⟩
  · intro ops c hops hrun
    have hinit : Client.Logged (Client.init info host, []) := ⟨rfl, nofun, fun _ => rfl⟩
    have h : Client.Logged c := GuardedRun.run_inv_of_meets
      (fun _ _ _ h hop hs => Client.stepLogged_logged h hop hs) hinit hops hrun
    exact ⟨_, h.1⟩

section

private def byeMessage : Value :=
  .object [("message", .string "DISCONNECT"), ("reason", .string "USER_DECISION")]

private def pollInput (ms : List Value) : PollEvent :=
  ⟨EPollFlags.input, .messages ms none, { space := 0 }⟩

private def noMemory : ServerMemory := ⟨fun _ => {}, fun _ _ => []⟩

private def serverBanner (version : ℤ) : Value := .object [("conntop_server", .int version)]

/-- A client says goodbye, and a server of another version answers. -/
private def byeOps : List (ServerMemory × ServerSession.Op) :=
  [(noMemory, .poll 1 (pollInput [byeMessage]))]

private def bannerOps : List Client.Op :=
  [.resolved [true], .poll (pollInput [serverBanner 2])]

theorem byeOps_follows :
    (∃ s, GuardedRun.run ServerSession.stepLogged (ServerSession.accepted noMemory) byeOps =
      some s ∧ s.2 = [.connect, .disconnect] ∧ Follows false s.2) ∧
    ∃ c, GuardedRun.run (Client.stepLogged .insertion .plain) (Client.init {} "", []) bannerOps =
      some c ∧ c.2 = [.connect, .disconnect] ∧ Follows true c.2 := by
  have h := sessions_follow .insertion .plain {} "" noMemory
  exact ⟨⟨_, rfl, rfl, h.1 byeOps _ (by decide) rfl⟩, ⟨_, rfl, rfl, h.2 bannerOps _ (by decide) rfl⟩⟩

/-- The client has asked for data, and the answer arrives together with a DISCONNECT before it. -/
private def answerOps : List Client.Op :=
  [.resolved [true], .poll ⟨EPollFlags.output, .messages [] none, { space := 0 }⟩,
    .poll (pollInput [serverBanner 1, .object [("message", .string "HELLO"), ("name", .string ""),
      ("version", .string ""), ("platform", .string "")]]),
    .poll (pollInput [byeMessage, .object [("message", .string "DATA_STATUS"),
      ("dataFlags", .int 1), ("dataUpdateFlags", .int 0)]])]

/-- Two DISCONNECT messages arrive at once, and `onSessionDisconnect` is called for each. On the
client, the answer behind a DISCONNECT calls `onSessionDataStatus`. -/
theorem byeMessage_twice :
    (∃ s, GuardedRun.run ServerSession.stepLogged (ServerSession.accepted noMemory)
        [(noMemory, .poll 1 (pollInput [byeMessage, byeMessage]))] = some s ∧
      s.2 = [.connect, .disconnect, .disconnect] ∧ ¬Follows false s.2) ∧
    ∃ c, GuardedRun.run (Client.stepLogged .insertion .plain) (Client.init {} "", []) answerOps =
        some c ∧
      c.2 = [.connect, .banner, .established, .disconnect, .dataStatus] ∧ ¬Follows true c.2 :=
  ⟨⟨_, rfl, rfl, by decide⟩, ⟨_, rfl, rfl, by decide⟩⟩

end

end Conntop
