import Conntop.AlikeClients
import Conntop.Leftovers

/-!
# A new connection of an old session

A session of the client that was disconnected is connected again. Its `connect` sets the state, the
TTL and the expected message, and `quickDisconnect` clears the queue. The reader with its parser,
and the writer, stay as they were.

* `ByteClient` is the client with its reader. `step` gives what it did as a `Trace`.
* The callback of the parser is `onMessage`. It has the messages so far in its state.
* An exception from `tryNext` ends the program. Nothing is done after it.
* `renew` is what to compare with: the same client with a newly constructed session.

Main results: `reconnect_traces`, the clients do the same exactly if nothing is left, and
`leftovers_show`, what is left shows in two chunks or two writes.
-/

namespace Conntop

/-! ## The reader -/

section

variable {σ : Type} {R : σ → σ → Prop} {K : MessageCallback σ} {D : Strtod} {s s' : σ}

/-- The callback throws the same, and keeps a relation of its states. -/
def MessageCallback.Respects (K : MessageCallback σ) (R : σ → σ → Prop) : Prop :=
  ∀ message s s', R s s' → R (K.onMessage message s).1 (K.onMessage message s').1 ∧
    (K.onMessage message s').2 = (K.onMessage message s).2

namespace MessageParser

/-- The same, but for the state of the callback. -/
def Agree {β : Type} (R : σ → σ → Prop) (r r' : (MessageParser × σ) × β) : Prop :=
  r'.1.1 = r.1.1 ∧ R r.1.2 r'.1.2 ∧ r'.2 = r.2

theorem Agree.exists_eq {β : Type} {r r' : (MessageParser × σ) × β} (h : Agree R r r') :
    ∃ q t t' result, r = ((q, t), result) ∧ r' = ((q, t'), result) ∧ R t t' := by
  obtain ⟨⟨q, t⟩, result⟩ := r
  obtain ⟨⟨q', t'⟩, result'⟩ := r'
  obtain ⟨rfl, hstate, rfl⟩ := h
  exact ⟨_, t, t', _, rfl, rfl, hstate⟩

theorem doParse_agree (hK : K.Respects R) (h : R s s') (p : MessageParser) (is : List Char) :
    Agree R (doParse D K p s is) (doParse D K p s' is) := by
  rw [doParse_eq, doParse_eq]
  cases parseTokens D (is.length + 1) p is with
  | failed code => exact ⟨rfl, h, rfl⟩
  | incomplete p' parsed is' => exact ⟨rfl, h, rfl⟩
  | complete p' is' =>
    show Agree R (handOver K s is' p'.get) (handOver K s' is' p'.get)
    unfold handOver
    rcases p'.get with _ | ⟨message, q⟩
    · exact ⟨rfl, h, rfl⟩
    · obtain ⟨hstate, hthrown⟩ := hK message s s' h
      dsimp only
      generalize K.onMessage message s = x at hstate hthrown ⊢
      generalize K.onMessage message s' = x' at hstate hthrown ⊢
      obtain ⟨t, thrown⟩ := x
      obtain ⟨t', thrown'⟩ := x'
      obtain rfl : thrown' = thrown := hthrown
      cases thrown' <;> exact ⟨rfl, hstate, rfl⟩

theorem parseLoop_agree (hK : K.Respects R) (fuel : ℕ) (h : R s s') (p : MessageParser)
    (parsed is : List Char) :
    Agree R (parseLoop D K fuel (p, s) parsed is) (parseLoop D K fuel (p, s') parsed is) := by
  induction fuel generalizing p s s' parsed is with
  | zero => exact ⟨rfl, h, rfl⟩
  | succ fuel ih =>
    cases is with
    | nil => exact ⟨rfl, h, rfl⟩
    | cons c is =>
      unfold parseLoop
      split_ifs
      · exact ih h p is is
      · obtain ⟨q, t, t', result, hparse, hparse', hstate⟩ :=
          (doParse_agree (D := D) hK h p (c :: is)).exists_eq
        dsimp only
        rw [hparse, hparse']
        rcases result with e | ⟨parsed, is'⟩
        · exact ⟨rfl, hstate, rfl⟩
        · exact ih hstate q parsed is'

theorem parse_agree (hK : K.Respects R) (h : R s s') (bufferSize : ℕ) (p : MessageParser)
    (data : List Char) :
    Agree R (parse D K bufferSize (p, s) data) (parse D K bufferSize (p, s') data) := by
  obtain ⟨q, t, t', result, hloop, hloop', hstate⟩ :=
    (parseLoop_agree (D := D) hK (data.length + 1) h p data data).exists_eq
  unfold parse
  rw [hloop, hloop']
  rcases result with e | rest
  · exact ⟨rfl, hstate, rfl⟩
  · dsimp only
    split_ifs <;> exact ⟨rfl, hstate, rfl⟩

end MessageParser

variable (s s') in
/-- What a call of `doReceive` does depends on the reader, and on what is received. -/
theorem StreamSocketReader.doReceive_agree (hK : K.Respects R) (h : R s s')
    (r : StreamSocketReader) (received : List Char) :
    ∃ r' t t' result, r.doReceive D K s received = ((r', t), result) ∧
      r.doReceive D K s' received = ((r', t'), result) ∧ R t t' := by
  cases received with
  | nil => exact ⟨r, s, s', .ok true, rfl, rfl, h⟩
  | cons c cs =>
    obtain ⟨q, t, t', result, hparse, hparse', hstate⟩ := (MessageParser.parse_agree (D := D) hK h
      r.bufferSize r.parser (r.buffer ++ c :: cs)).exists_eq
    unfold doReceive
    dsimp only
    rw [hparse, hparse']
    cases result <;> exact ⟨_, t, t', _, rfl, rfl, hstate⟩

end

/-! ## A client that receives bytes -/

/-- What `receive` of the socket returns, nothing at the end of the stream, or what its
`SocketException` says. -/
inductive Chunk
  | bytes (received : List Char)
  | failed (error : String)

/-- A run of the poll handler, with what is received. -/
structure ByteEvent where
  flags : Flags
  chunk : Chunk := .bytes []
  socket : Socket := { space := 0 }

/-- A client, and the reader of its session. -/
structure ByteClient where
  client : Client ClientOutbox
  reader : StreamSocketReader := {}

/-- What a session did: the messages that `onMessage` got, what the parser threw, and the bytes
that the socket took. -/
structure Trace where
  messages : List Value := []
  parserError : Option MessageParserException := none
  sent : List Char := []

namespace ByteClient

variable (D : Strtod) (S : StdSort) (inet : InetText) (b : ByteClient)

/-- `onMessage`, with the messages that it got. It passes an exception of `tryNext` on. -/
def callback : MessageCallback (Client ClientOutbox × List Value) where
  onMessage message s :=
    match s.1.onMessage S inet message with
    | (c, some error) => ((c, s.2 ++ [message]), some error)
    | (c, none) => ((c, s.2 ++ [message]), c.exit)

/-- The call of `doReceive`, and what catches its exceptions. -/
def receive (received : List Char) : ByteClient × List Value × Option MessageParserException :=
  match b.reader.doReceive D (callback S inet) (b.client, []) received with
  | ((reader, c, ms), .ok isConnectionLost) =>
    ({ client := if isConnectionLost then c.receive S inet .closed else c, reader }, ms, none)
  | ((reader, c, ms), .error (.parser e)) =>
    ({ client := c.quickDisconnect .protocolError e.what, reader }, ms, some e)
  | ((reader, c, ms), .error (.callback what)) =>
    ({ client := if c.exit.isSome then c else c.quickDisconnect .protocolError what, reader },
      ms, none)

/-- The INPUT part of `SocketPollHandler`. No more is received than there is room for. -/
def input (event : ByteEvent) : ByteClient × List Value × Option MessageParserException :=
  if event.flags.test EPollFlags.input then
    match event.chunk with
    | .bytes received => b.receive D S inet (received.take b.reader.freeSize)
    | .failed error => ({ b with client := b.client.receive S inet (.failed error) }, [], none)
  else (b, [], none)

/-- The parts behind it. -/
def afterInput (event : ByteEvent) : ByteClient :=
  if b.client.exit.isSome then b
  else { b with client :=
    b.client.afterInput { flags := event.flags, socket := event.socket } }

/-- `ClientSession::connect`, with a socket that is connected. -/
def connect : ByteClient :=
  { b with client := { b.client with session := b.client.session.connect } }

inductive Op
  | connect
  | resolved (attempts : List Bool)
  | poll (event : ByteEvent)
  | onUpdate
  | disconnect
  | setPaused (paused : Bool)

def act : Op → ByteClient × List Value × Option MessageParserException
  | .connect => (b.connect, [], none)
  | .resolved attempts => ({ b with client := b.client.onResolved attempts }, [], none)
  | .poll event => ((b.input D S inet event).1.afterInput event, (b.input D S inet event).2)
  | .onUpdate => ({ b with client := b.client.onUpdate }, [], none)
  | .disconnect => ({ b with client := b.client.disconnect }, [], none)
  | .setPaused paused => ({ b with client := b.client.setPaused paused }, [], none)

/-- All that was sent. -/
def sent : List Char := b.client.session.transport.history.sent

/-- Nothing is done once the program has ended. -/
def step (op : Op) : ByteClient × Trace :=
  if b.client.exit.isSome then (b, {})
  else
    ((b.act D S inet op).1, {
      messages := (b.act D S inet op).2.1
      parserError := (b.act D S inet op).2.2
      sent := (b.act D S inet op).1.sent.drop b.sent.length })

def run (ops : List Op) : ByteClient := ops.foldl (fun b op => (b.step D S inet op).1) b

def traces : ByteClient → List Op → List Trace
  | _, [] => []
  | b, op :: ops => (b.step D S inet op).2 :: traces (b.step D S inet op).1 ops

/-- The client with a newly constructed session. -/
def renew : ByteClient := { client := { b.client with session := { transport := {} } } }

/-- Nothing is left in the reader, in its parser and in the writer. -/
def NothingLeft : Prop :=
  b.reader = {} ∧ b.client.session.transport.writer.isSending = false

/-- The session is as `connect` leaves it. -/
def IsOpened : Prop :=
  b.client.session.state = .opening ∧ b.client.session.expectedMsg = .serverBanner ∧
    b.client.session.isConnectionEstablished = false ∧ b.client.session.sessionTTL = 4 ∧
      b.client.session.transport.sendQueue = []

/-! ## Alike clients -/

/-- The readers are the same. -/
def Alike (before before' : List Char) (b b' : ByteClient) : Prop :=
  b'.reader = b.reader ∧ Client.Alike before before' b.client b'.client

variable {D S inet b} {before before' : List Char} {b' : ByteClient}

namespace Alike

variable (D S inet)

/-- The messages so far are the same. -/
theorem callback_respects (before before' : List Char) : (callback S inet).Respects fun s s' =>
    Client.Alike before before' s.1 s'.1 ∧ s'.2 = s.2 := by
  rintro message ⟨c, ms⟩ ⟨c', ms'⟩ ⟨halike, hms⟩
  obtain rfl : ms' = ms := hms
  obtain ⟨hclient, hthrown⟩ := halike.onMessage S inet message
  unfold callback
  dsimp only
  generalize c.onMessage S inet message = r at hclient hthrown ⊢
  generalize c'.onMessage S inet message = r' at hclient hthrown ⊢
  obtain ⟨d, error⟩ := r
  obtain ⟨d', error'⟩ := r'
  obtain rfl : error' = error := hthrown
  cases error' with
  | some error => exact ⟨⟨hclient, rfl⟩, rfl⟩
  | none => exact ⟨⟨hclient, rfl⟩, hclient.exit_eq⟩

theorem receive (h : Alike before before' b b') (received : List Char) :
    Alike before before' (b.receive D S inet received).1 (b'.receive D S inet received).1 ∧
      (b'.receive D S inet received).2 = (b.receive D S inet received).2 := by
  obtain ⟨hreader, hclient⟩ := h
  obtain ⟨r, ⟨c, ms⟩, ⟨c', ms'⟩, result, hcall, hcall', halike, hms⟩ :=
    StreamSocketReader.doReceive_agree (D := D) (b.client, []) (b'.client, [])
      (callback_respects S inet before before') ⟨hclient, rfl⟩ b.reader received
  obtain rfl : ms' = ms := hms
  unfold ByteClient.receive
  rw [hreader, hcall, hcall']
  rcases result with (e | what) | isConnectionLost
  · exact ⟨⟨rfl, halike.quickDisconnect _ _⟩, rfl⟩
  · dsimp only
    rw [halike.exit_eq]
    split_ifs
    · exact ⟨⟨rfl, halike⟩, rfl⟩
    · exact ⟨⟨rfl, halike.quickDisconnect _ _⟩, rfl⟩
  · cases isConnectionLost with
    | true => exact ⟨⟨rfl, halike.receive_closed S inet⟩, rfl⟩
    | false => exact ⟨⟨rfl, halike⟩, rfl⟩

theorem input (h : Alike before before' b b') (event : ByteEvent) :
    Alike before before' (b.input D S inet event).1 (b'.input D S inet event).1 ∧
      (b'.input D S inet event).2 = (b.input D S inet event).2 := by
  unfold ByteClient.input
  split_ifs
  · cases event.chunk with
    | bytes received =>
      dsimp only
      rw [h.1]
      exact h.receive D S inet _
    | failed error => exact ⟨⟨h.1, h.2.receive_failed S inet error⟩, rfl⟩
  · exact ⟨h, rfl⟩

theorem afterInput (h : Alike before before' b b') (event : ByteEvent) :
    Alike before before' (b.afterInput event) (b'.afterInput event) := by
  unfold ByteClient.afterInput
  rw [h.2.exit_eq]
  split_ifs
  · exact h
  · exact ⟨h.1, h.2.afterInput _⟩

theorem act (h : Alike before before' b b') (op : Op) :
    Alike before before' (b.act D S inet op).1 (b'.act D S inet op).1 ∧
      (b'.act D S inet op).2 = (b.act D S inet op).2 := by
  cases op with
  | connect => exact ⟨⟨h.1, h.2.connect⟩, rfl⟩
  | resolved attempts => exact ⟨⟨h.1, h.2.onResolved attempts⟩, rfl⟩
  | poll event =>
    obtain ⟨hinput, hresult⟩ := h.input D S inet event
    exact ⟨hinput.afterInput event, hresult⟩
  | onUpdate => exact ⟨⟨h.1, h.2.onUpdate⟩, rfl⟩
  | disconnect => exact ⟨⟨h.1, h.2.disconnect⟩, rfl⟩
  | setPaused paused => exact ⟨⟨h.1, h.2.setPaused paused⟩, rfl⟩

theorem exists_sent (h : Alike before before' b b') :
    ∃ bytes, b.sent = before ++ bytes ∧ b'.sent = before' ++ bytes := by
  obtain ⟨-, hclient⟩ := h
  rcases b with ⟨c, r⟩
  rcases b' with ⟨c', r'⟩
  cases hclient with
  | mk transport f g timestamp server reason error ho => exact ho.sent

theorem step (h : Alike before before' b b') (op : Op) :
    Alike before before' (b.step D S inet op).1 (b'.step D S inet op).1 ∧
      (b'.step D S inet op).2 = (b.step D S inet op).2 := by
  obtain ⟨hact, hresult⟩ := h.act D S inet op
  obtain ⟨bytes, hbytes, hbytes'⟩ := h.exists_sent
  obtain ⟨more, hmore, hmore'⟩ := hact.exists_sent
  have hsent : (b'.act D S inet op).1.sent.drop b'.sent.length =
      (b.act D S inet op).1.sent.drop b.sent.length := by
    rw [hmore, hmore', hbytes, hbytes', List.length_append, List.length_append,
      List.drop_length_add_append, List.drop_length_add_append]
  unfold ByteClient.step
  rw [h.2.exit_eq, hsent, hresult]
  split_ifs
  · exact ⟨h, rfl⟩
  · exact ⟨hact, rfl⟩

theorem run (h : Alike before before' b b') (ops : List Op) :
    Alike before before' (b.run D S inet ops) (b'.run D S inet ops) := by
  induction ops generalizing b b' with
  | nil => exact h
  | cons op ops ih => exact ih (h.step D S inet op).1

theorem traces (h : Alike before before' b b') (ops : List Op) :
    ByteClient.traces D S inet b' ops = ByteClient.traces D S inet b ops := by
  induction ops generalizing b b' with
  | nil => rfl
  | cons op ops ih =>
    obtain ⟨halike, htrace⟩ := h.step D S inet op
    unfold ByteClient.traces
    rw [htrace, ih halike]

end Alike

/-- A client whose session is newly constructed. -/
def IsNew (b : ByteClient) : Prop := b.client.session = { transport := {} } ∧ b.reader = {}

theorem IsNew.alike (h : b.IsNew) : Alike [] [] b b := by
  obtain ⟨⟨info, session, connector, f, g, f', requested, synchronized, paused, list, exit⟩, r⟩ := b
  obtain ⟨rfl, rfl⟩ : session = { transport := {} } ∧ r = {} := h
  refine ⟨rfl, .mk _ _ _ _ _ _ _ _ ⟨rfl, .of_idle rfl rfl, ⟨[], rfl, rfl⟩,
    List.forall_mem_nil _, .of_idle rfl⟩ nofun nofun fun _ => ?_⟩
  exact ⟨rfl, rfl⟩

/-- What a history leaves behind of a session that is disconnected. -/
theorem IsNew.run_disconnected (h : b.IsNew) (ops : List Op)
    (hs : (b.run D S inet ops).client.session.state = .disconnected) :
    (b.run D S inet ops).client.session.transport.sendQueue = [] ∧
      (b.run D S inet ops).client.session.isConnectionEstablished = false := by
  exact (h.alike.run D S inet ops).2.closed hs

/-- A session that is as `connect` leaves it, with nothing left of what was before. -/
theorem IsOpened.alike (h : b.IsOpened) (hleft : b.NothingLeft) :
    Alike b.sent [] b b.renew.connect := by
  obtain ⟨⟨info, session, connector, f, g, f', requested, synchronized, paused, list, exit⟩, r⟩ := b
  obtain ⟨rfl, hidle⟩ := hleft
  obtain ⟨transport, state, expectedMsg, established, ttl, rest⟩ := session
  obtain ⟨rfl, rfl, rfl, rfl, hqueue⟩ := h
  have hempty : transport.sendQueue = [] := hqueue
  refine ⟨rfl, .mk _ _ _ _ _ _ _ _ ⟨?_, .of_idle hidle rfl, ⟨[], ?_, rfl⟩, ?_, .of_idle hidle⟩
    nofun nofun nofun⟩
  · show [] = transport.sendQueue.map QueuedMsg.pointer
    rw [hempty]
    rfl
  · exact (List.append_nil _).symm
  · show ∀ m ∈ transport.sendQueue, _
    rw [hempty]
    exact List.forall_mem_nil _

theorem connect_isOpened (hs : b.client.session.state = .disconnected)
    (hqueue : b.client.session.transport.sendQueue = [])
    (hest : b.client.session.isConnectionEstablished = false) : b.connect.IsOpened := by
  have hconnect : b.connect = { b with client := { b.client with session := { b.client.session with
      transport := ClientTransport.connect b.client.session.transport
      state := .opening, sessionTTL := 4, expectedMsg := .serverBanner } } } := by
    unfold connect ClientSession.connect
    rw [if_pos hs]
  rw [hconnect]
  exact ⟨rfl, rfl, hest, rfl, hqueue⟩

/-! ## What is left shows -/

/-- Some bytes are received, and nothing is sent. -/
def chunk (received : List Char) : Op :=
  .poll { flags := EPollFlags.input, chunk := .bytes received }

/-- Only as many bytes are sent as there is space for. -/
def write (space : ℕ) : Op := .poll { flags := EPollFlags.output, socket := { space := space } }

variable (D S inet) in
/-- At most two chunks show a difference of two clients. -/
def ShowsInChunks (b b' : ByteClient) : Prop :=
  ∃ chunks : List (List Char), chunks.length ≤ 2 ∧
    traces D S inet b (chunks.map chunk) ≠ traces D S inet b' (chunks.map chunk)

theorem callback_heard (message : Value) (s : Client ClientOutbox × List Value) :
    ((callback S inet).onMessage message s).1.2 ≠ [] := by
  have hne : s.2 ++ [message] ≠ [] := List.append_ne_nil_of_right_ne_nil _ (List.cons_ne_nil _ _)
  unfold callback
  dsimp only
  rcases s.1.onMessage S inet message with ⟨c, _ | error⟩
  · exact hne
  · exact hne

/-- A message and an exception of the parser are in the trace. -/
theorem receive_shows {received : List Char} (h : MessageParser.Shows (fun s => s.2 ≠ [])
      (b.reader.doReceive D (callback S inet) (b.client, []) received)) :
    (b.receive D S inet received).2 ≠ ([], none) := by
  unfold receive
  rcases hcall : b.reader.doReceive D (callback S inet) (b.client, []) received with
    ⟨⟨r, c, ms⟩, (e | what) | isConnectionLost⟩ <;> rw [hcall] at h
  · intro heq
    cases (Prod.mk.inj heq).2
  · obtain ⟨e, he⟩ | hms := h
    · cases he
    · exact fun heq => hms (Prod.mk.inj heq).1
  · obtain ⟨e, he⟩ | hms := h
    · cases he
    · exact fun heq => hms (Prod.mk.inj heq).1

theorem receive_quiet {received : List Char} {r : StreamSocketReader}
    (h : b.reader.doReceive D (callback S inet) (b.client, []) received =
      ((r, b.client, []), .ok false)) :
    b.receive D S inet received = ({ b with reader := r }, [], none) := by
  unfold receive
  rw [h]
  rfl

theorem receive_parserError {received : List Char} (e : MessageParserException) :
    (b.receive D S inet received).2.2 = some e ↔
      (b.reader.doReceive D (callback S inet) (b.client, []) received).2 =
        .error (.parser e) := by
  unfold receive
  rcases b.reader.doReceive D (callback S inet) (b.client, []) received with
    ⟨⟨r, c, ms⟩, (e' | what) | isConnectionLost⟩
  · exact ⟨fun h => by rw [Option.some.inj h], fun h => by cases h; rfl⟩
  · exact ⟨nofun, nofun⟩
  · exact ⟨nofun, nofun⟩

variable (D S inet) in
/-- What a chunk leaves in the trace. -/
theorem step_chunk (hexit : b.client.exit = none) {received : List Char}
    (hfit : received.length ≤ b.reader.freeSize) :
    (b.step D S inet (chunk received)).2.messages = (b.receive D S inet received).2.1 ∧
      (b.step D S inet (chunk received)).2.parserError = (b.receive D S inet received).2.2 ∧
        (b.step D S inet (chunk received)).1 = (b.receive D S inet received).1.afterInput
          { flags := EPollFlags.input, chunk := .bytes received } := by
  have hinput : b.input D S inet { flags := EPollFlags.input, chunk := .bytes received } =
      b.receive D S inet received := by
    unfold input
    rw [if_pos (show EPollFlags.input.test EPollFlags.input = true by decide)]
    dsimp only
    rw [List.take_of_length_le hfit]
  have hrunning : ¬b.client.exit.isSome = true := by
    rw [hexit]
    exact Bool.false_ne_true
  unfold step chunk
  rw [if_neg hrunning]
  unfold act
  dsimp only
  rw [hinput]
  exact ⟨rfl, rfl, rfl⟩

/-- The first trace is one of both. -/
theorem traces_cons {op : Op} {ops : List Op}
    (h : traces D S inet b (op :: ops) = traces D S inet b' (op :: ops)) :
    (b.step D S inet op).2 = (b'.step D S inet op).2 ∧
      traces D S inet (b.step D S inet op).1 ops = traces D S inet (b'.step D S inet op).1 ops :=
  List.cons.inj h

/-- If the traces are the same, so is what a chunk that fits does to both readers. -/
theorem receive_of_traces (hexit : b.client.exit = none) (hexit' : b'.client.exit = none)
    {received : List Char} (hfit : received.length ≤ b.reader.freeSize)
    (hfit' : received.length ≤ b'.reader.freeSize) {ops : List Op}
    (h : traces D S inet b (chunk received :: ops) = traces D S inet b' (chunk received :: ops)) :
    (b.receive D S inet received).2 = (b'.receive D S inet received).2 := by
  obtain ⟨hmessages, herror, -⟩ := step_chunk D S inet hexit hfit
  obtain ⟨hmessages', herror', -⟩ := step_chunk D S inet hexit' hfit'
  have htrace := (traces_cons h).1
  refine Prod.ext ?_ ?_
  · rw [← hmessages, ← hmessages', htrace]
  · rw [← herror, ← herror', htrace]

theorem afterInput_chunk (hexit : b.client.exit = none) (received : List Char) :
    (b.afterInput { flags := EPollFlags.input, chunk := .bytes received }).reader = b.reader ∧
      (b.afterInput { flags := EPollFlags.input, chunk := .bytes received }).client.exit =
        none := by
  have hidle : ∀ c : Client ClientOutbox,
      (c.afterInput { flags := EPollFlags.input }).exit = c.exit := by
    intro c
    unfold Client.afterInput Client.afterOutput
    rw [if_neg (fun h => absurd h.1 (by decide)), if_neg (fun h => absurd h.1 (by decide))]
  unfold afterInput
  split_ifs
  · exact ⟨rfl, hexit⟩
  · exact ⟨rfl, (hidle _).trans hexit⟩

/-- The reader is as new, and the program runs. -/
structure HasNewReader (b : ByteClient) : Prop where
  reader : b.reader = {}
  exit : b.client.exit = none

theorem HasNewReader.one_le_freeSize (h : b.HasNewReader) : 1 ≤ b.reader.freeSize := by
  rw [h.reader]
  decide

/-- A new reader takes an opening bracket. -/
theorem HasNewReader.receive_bracket (h : b.HasNewReader) :
    (b.receive D S inet ['{']).2 = ([], none) := by
  have hcall : ∃ r, b.reader.doReceive D (callback S inet) (b.client, []) ['{'] =
      ((r, b.client, []), .ok false) := by
    rw [h.reader]
    exact ⟨_, rfl⟩
  obtain ⟨r, hcall⟩ := hcall
  rw [receive_quiet hcall]

/-- A NUL leaves a new reader as it is. -/
theorem HasNewReader.receive_nul (h : b.HasNewReader) :
    b.receive D S inet ['\x00'] = (b, [], none) := by
  have hcall : b.reader.doReceive D (callback S inet) (b.client, []) ['\x00'] =
      ((b.reader, b.client, []), .ok false) := by
    rw [h.reader]
    rfl
  rw [receive_quiet hcall]

theorem HasNewReader.receive_endArray (h : b.HasNewReader) :
    (b.receive D S inet [']']).2.2 = some (.jsonParseError .documentEmpty) := by
  rw [receive_parserError, h.reader]
  rfl

/-- The callback has thrown. -/
theorem shows_of_thrown (hrest : b.reader.IsResting) (hexit : b.client.exit = none)
    (hnew : b'.HasNewReader) (hcomplete : b.reader.parser.IsComplete)
    (hhandler : b.reader.parser.handler = []) : ShowsInChunks D S inet b b' := by
  refine ⟨[['{']], by decide, fun h => ?_⟩
  have hfit : ['{'].length ≤ b.reader.freeSize := hrest.one_le_freeSize
  have hreceive := receive_of_traces hexit hnew.exit hfit hnew.one_le_freeSize h
  have hnul : '\x00' ∉ b.reader.buffer ++ ['{'] := by
    simpa using hrest.clean.1
  have herror := StreamSocketReader.doReceive_thrown (D := D) (K := callback S inet) hcomplete
    hhandler hnul (List.cons_ne_nil _ _) (b.client, [])
  rw [← receive_parserError, hreceive, hnew.receive_bracket] at herror
  cases herror

/-- There is a beginning of a token in front of the root. -/
theorem shows_of_buffer (hrest : b.reader.IsResting) (hexit : b.client.exit = none)
    (hnew : b'.HasNewReader) (hparser : b.reader.parser = {}) (hbuffer : b.reader.buffer ≠ []) :
    ShowsInChunks D S inet b b' := by
  obtain ⟨hsize, hroom⟩ := hrest.room
  have hlength : 1 ≤ b.reader.buffer.length := List.length_pos_iff.mpr hbuffer
  -- as much as there is room for, which a new reader has more of
  set n := 4094 - b.reader.buffer.length with hn
  have hopen : (StreamSocketReader.openString n).length = n + 1 := by
    simp [StreamSocketReader.openString]
  refine ⟨[StreamSocketReader.openString n], Nat.le_succ 1, fun h => ?_⟩
  have hfit : (StreamSocketReader.openString n).length ≤ b.reader.freeSize := by
    unfold StreamSocketReader.freeSize
    omega
  have hfit' : (StreamSocketReader.openString n).length ≤ b'.reader.freeSize := by
    rw [hnew.reader, hopen]
    show n + 1 ≤ 4095
    omega
  have hreceive := receive_of_traces hexit hnew.exit hfit hfit' h
  have hclean : MessageParser.Clean (b.reader.buffer ++ StreamSocketReader.openString n) :=
    hrest.clean.append (StreamSocketReader.clean_openString n)
  have hshows : MessageParser.Shows (fun s => s.2 ≠ []) (MessageParser.parse D
      (callback S inet) b.reader.bufferSize (b.reader.parser, b.client, [])
      (b.reader.buffer ++ StreamSocketReader.openString n)) := by
    rw [hparser]
    refine MessageParser.parse_start_shows callback_heard ?_ hclean ?_ _
    · exact List.append_ne_nil_of_right_ne_nil _ (List.cons_ne_nil _ _)
    · rw [List.length_append]
      omega
  obtain ⟨hok, hstate⟩ := StreamSocketReader.doReceive_openString (D := D) (K := callback S inet)
    (show n + 1 < 4095 by omega) (b'.client, [])
  have hquiet : ∃ r, b'.reader.doReceive D (callback S inet) (b'.client, [])
      (StreamSocketReader.openString n) = ((r, b'.client, []), .ok false) := by
    rw [hnew.reader]
    exact ⟨_, Prod.ext (Prod.ext rfl hstate) hok⟩
  obtain ⟨r, hquiet⟩ := hquiet
  rw [receive_quiet hquiet] at hreceive
  exact receive_shows (StreamSocketReader.doReceive_shows (List.cons_ne_nil _ _) hshows) hreceive

/-- The parser is inside an object or an array. -/
theorem shows_of_inside (hrest : b.reader.IsResting) (hexit : b.client.exit = none)
    (hnew : b'.HasNewReader) (hinside : b.reader.parser.Inside) : ShowsInChunks D S inet b b' := by
  have hfit : ['\x00'].length ≤ b.reader.freeSize := hrest.one_le_freeSize
  by_contra hno
  have hsame : ∀ chunks : List (List Char), chunks.length ≤ 2 →
      traces D S inet b (chunks.map chunk) = traces D S inet b' (chunks.map chunk) :=
    fun chunks hlength => not_not.mp fun hne => hno ⟨chunks, hlength, hne⟩
  have hnul : MessageParser.Shows (fun s => s.2 ≠ [])
        (b.reader.doReceive D (callback S inet) (b.client, []) ['\x00']) ∨
      ∃ p : MessageParser, p.Inside ∧ b.reader.doReceive D (callback S inet) (b.client, [])
        ['\x00'] = (({ b.reader with buffer := [], parser := p }, b.client, []), .ok false) :=
    hrest.doReceive_nul hinside callback_heard (b.client, [])
  obtain hshows | ⟨p, hp, hcall⟩ := hnul
  · have hreceive := receive_of_traces hexit hnew.exit hfit hnew.one_le_freeSize
      (hsame [['\x00']] (Nat.le_succ 1))
    rw [hnew.receive_nul] at hreceive
    exact receive_shows hshows hreceive
  · -- the buffer is empty now, and a new reader still is as new
    have hquiet := receive_quiet hcall
    obtain ⟨-, -, hstep⟩ := step_chunk D S inet hexit hfit
    obtain ⟨-, -, hstep'⟩ := step_chunk D S inet hnew.exit
      (show ['\x00'].length ≤ _ from hnew.one_le_freeSize)
    rw [hquiet] at hstep
    rw [hnew.receive_nul] at hstep'
    obtain ⟨hreader, hexit₁⟩ := afterInput_chunk
      (b := { b with reader := { b.reader with buffer := [], parser := p } }) hexit ['\x00']
    obtain ⟨hreader', hexit₁'⟩ := afterInput_chunk hnew.exit ['\x00']
    rw [← hstep] at hreader hexit₁
    rw [← hstep'] at hreader' hexit₁'
    have hsame₁ : ∀ c : Char, traces D S inet (b.step D S inet (chunk ['\x00'])).1 [chunk [c]] =
        traces D S inet (b'.step D S inet (chunk ['\x00'])).1 [chunk [c]] :=
      fun c => (traces_cons (hsame [['\x00'], [c]] (Nat.le_refl 2))).2
    have hnew₁ : (b'.step D S inet (chunk ['\x00'])).1.HasNewReader :=
      ⟨hreader'.trans hnew.reader, hexit₁'⟩
    generalize (b.step D S inet (chunk ['\x00'])).1 = b₁ at hreader hexit₁ hsame₁
    generalize (b'.step D S inet (chunk ['\x00'])).1 = b₁' at hnew₁ hsame₁
    have hfit₁ : 1 ≤ b₁.reader.freeSize := by
      obtain ⟨hsize, -⟩ := hrest.room
      rw [hreader]
      show 1 ≤ b.reader.bufferSize - 0 - 1
      omega
    have hreceive : ∀ c : Char, (b₁.receive D S inet [c]).2 = (b₁'.receive D S inet [c]).2 :=
      fun c => receive_of_traces hexit₁ hnew₁.exit hfit₁ hnew₁.one_le_freeSize
        (hsame₁ c)
    have hinside₁ : b₁.reader.parser.Inside := hreader ▸ hp
    have hbuffer₁ : b₁.reader.buffer = [] := by rw [hreader]
    obtain ⟨e, he⟩ | hne := StreamSocketReader.doReceive_inside (D := D) (K := callback S inet)
      hinside₁ hbuffer₁ (b₁.client, [])
    · rw [← receive_parserError, hreceive, hnew₁.receive_bracket] at he
      cases he
    · refine hne ((receive_parserError _).mp ?_)
      rw [hreceive, hnew₁.receive_endArray]

variable (D S inet) in
/-- What is left in the reader shows in at most two chunks. -/
theorem shows_reader (hrest : b.reader.IsResting) (hexit : b.client.exit = none)
    (hnew : b'.HasNewReader) (hleft : b.reader ≠ {}) : ShowsInChunks D S inet b b' := by
  obtain (hstart | hinside) | ⟨hcomplete, hhandler⟩ := hrest.parser
  · have hbuffer : b.reader.buffer ≠ [] := by
      intro hbuffer
      have hsize : b.reader.bufferSize = 4096 := hrest.room.1
      refine hleft ?_
      generalize b.reader = r at hstart hbuffer hsize
      obtain ⟨bufferSize, buffer, parser⟩ := r
      obtain rfl : bufferSize = 4096 := hsize
      obtain rfl : buffer = [] := hbuffer
      obtain rfl : parser = {} := hstart
      rfl
    exact shows_of_buffer hrest hexit hnew hstart hbuffer
  · exact shows_of_inside hrest hexit hnew hinside
  · exact shows_of_thrown hrest hexit hnew hcomplete hhandler

/-! ### In the writer -/

variable (D S inet) in
/-- The first time that something can be written the connection is established. -/
theorem step_write_zero (hopened : b.IsOpened) (hexit : b.client.exit = none) :
    (b.step D S inet (write 0)).1 = { b with client := { b.client with
      connector := none
      session := { b.client.session with
        isConnectionEstablished := true
        transport := b.client.session.transport.resetPoll } } } := by
  have hrunning : ¬b.client.exit.isSome = true := by
    rw [hexit]
    exact Bool.false_ne_true
  obtain ⟨hs, -, hest, -⟩ := hopened
  have hinput : b.input D S inet { flags := EPollFlags.output, socket := { space := 0 } } =
      (b, [], none) := by
    unfold input
    rw [if_neg (show ¬EPollFlags.output.test EPollFlags.input = true by decide)]
  have houtput : EPollFlags.output.test EPollFlags.output = true ∧
      b.client.session.state ≠ .disconnected := by
    rw [hs]
    exact ⟨by decide, ESessionState.noConfusion⟩
  have herror : ¬EPollFlags.output.test EPollFlags.error = true := by decide
  unfold step write
  rw [if_neg hrunning]
  unfold act
  dsimp only
  rw [hinput]
  unfold afterInput
  rw [if_neg hrunning]
  unfold Client.afterInput
  rw [if_pos houtput]
  unfold Client.output
  rw [hest, if_neg Bool.false_ne_true, if_pos rfl]
  unfold Client.afterOutput
  rw [if_neg fun h => herror h.1]
  rfl

/-- Then what the writer has is sent, for there is no other message. -/
theorem sent_output {c : Client ClientOutbox} (hest : c.session.isConnectionEstablished = true)
    (hqueue : c.session.transport.sendQueue = []) (space : ℕ) :
    (c.output { space := space }).session.transport.history.sent =
      c.session.transport.history.sent ++
        (c.session.transport.writer.doSend clientMemory { space := space }).2.2.2 := by
  have hfailed : (c.session.transport.writer.doSend clientMemory { space := space }).1 ≠
      .failed := by
    rcases StreamSocketWriter.doSend_cases c.session.transport.writer clientMemory
      { space := space } with ⟨-, he⟩ | ⟨-, ⟨hfails, -⟩, -⟩ | ⟨-, -, he⟩ | ⟨-, -, -, he⟩
    · rw [he]
      exact SendResult.noConfusion
    · cases hfails
    · rw [he]
      exact SendResult.noConfusion
    · rw [he]
      exact SendResult.noConfusion
  unfold Client.output
  rw [hest, if_pos rfl, hqueue]
  by_cases hdone : (c.session.transport.writer.doSend clientMemory { space := space }).1 = .done
  · rw [Outbox.sendLoop_nil hdone]
    rfl
  · rw [Outbox.sendLoop_stopped hdone]
    cases hresult : (c.session.transport.writer.doSend clientMemory { space := space }).1 with
    | done => exact absurd hresult hdone
    | blocked => rfl
    | failed => exact absurd hresult hfailed

theorem sent_afterInput {c : Client ClientOutbox} (hs : c.session.state ≠ .disconnected)
    (hest : c.session.isConnectionEstablished = true) (hqueue : c.session.transport.sendQueue = [])
    (space : ℕ) :
    (c.afterInput { flags := EPollFlags.output, socket := { space := space } }
        ).session.transport.history.sent =
      c.session.transport.history.sent ++
        (c.session.transport.writer.doSend clientMemory { space := space }).2.2.2 := by
  have houtput : EPollFlags.output.test EPollFlags.output = true ∧
      c.session.state ≠ .disconnected := ⟨by decide, hs⟩
  have herror : ¬EPollFlags.output.test EPollFlags.error = true := by decide
  unfold Client.afterInput
  rw [if_pos houtput]
  unfold Client.afterOutput
  rw [if_neg fun h => herror h.1]
  show (c.output { space := space }).session.transport.resetPoll.history.sent = _
  rw [(Outbox.resetPoll_frame _).2.2, sent_output hest hqueue]

theorem sent_write (hopened : b.IsOpened) (hexit : b.client.exit = none) (space : ℕ) :
    ((b.step D S inet (write 0)).1.step D S inet (write space)).2.sent =
      (b.client.session.transport.writer.doSend clientMemory { space := space }).2.2.2 := by
  -- the first event establishes the connection and writes nothing
  have hfirst := step_write_zero D S inet hopened hexit
  obtain ⟨hs, -, -, -, hqueue⟩ := hopened
  obtain ⟨hqueue', hwriter, hhistory⟩ := b.client.session.transport.resetPoll_frame
  have hs₁ : (b.step D S inet (write 0)).1.client.session.state ≠ .disconnected := by
    rw [hfirst]
    show b.client.session.state ≠ _
    rw [hs]
    exact ESessionState.noConfusion
  have hest₁ : (b.step D S inet (write 0)).1.client.session.isConnectionEstablished = true := by
    rw [hfirst]
  have hqueue₁ : (b.step D S inet (write 0)).1.client.session.transport.sendQueue = [] := by
    rw [hfirst]
    exact hqueue'.trans hqueue
  have hwriter₁ : (b.step D S inet (write 0)).1.client.session.transport.writer =
      b.client.session.transport.writer := by
    rw [hfirst]
    exact hwriter
  have hexit₁ : ¬(b.step D S inet (write 0)).1.client.exit.isSome = true := by
    rw [hfirst]
    show ¬b.client.exit.isSome = true
    rw [hexit]
    exact Bool.false_ne_true
  rw [← hwriter₁]
  generalize (b.step D S inet (write 0)).1 = b₁ at hs₁ hest₁ hqueue₁ hexit₁
  -- the second one writes what is left of the message, and reads nothing
  have hinput : b₁.input D S inet { flags := EPollFlags.output, socket := { space := space } } =
      (b₁, [], none) := by
    unfold input
    rw [if_neg (show ¬EPollFlags.output.test EPollFlags.input = true by decide)]
  unfold step write
  rw [if_neg hexit₁]
  unfold act
  dsimp only
  rw [hinput]
  unfold afterInput
  rw [if_neg hexit₁]
  unfold sent
  dsimp only
  rw [sent_afterInput hs₁ hest₁ hqueue₁, List.drop_left]

/-- Some bytes of an unfinished message are left. -/
theorem shows_writer (hopened : b.IsOpened) (hexit : b.client.exit = none)
    (hready : b.client.session.transport.writer.IsReady clientMemory)
    (hsending : b.client.session.transport.writer.isSending = true) (hopened' : b'.IsOpened)
    (hexit' : b'.client.exit = none)
    (hidle : b'.client.session.transport.writer.isSending = false) :
    traces D S inet b [write 0, write 1] ≠ traces D S inet b' [write 0, write 1] := by
  intro h
  have hsent := congrArg Trace.sent (traces_cons (traces_cons h).2).1
  rw [sent_write hopened hexit, sent_write hopened' hexit'] at hsent
  obtain ⟨hlt, hle⟩ := hready hsending
  have hnone : (b'.client.session.transport.writer.doSend clientMemory { space := 1 }).2.2.2 =
      [] := by
    unfold StreamSocketWriter.doSend
    rw [hidle]
    rfl
  have hlength := congrArg List.length (hsent.trans hnone)
  have hrest : 1 ≤ (b.client.session.transport.writer.rest clientMemory).length := by
    unfold StreamSocketWriter.rest
    rw [List.length_take, List.length_drop]
    omega
  generalize b.client.session.transport.writer = w at hlength hlt hrest hsending
  rcases StreamSocketWriter.doSend_cases w clientMemory { space := 1 } with
    ⟨hs, -⟩ | ⟨-, ⟨hfails, -⟩, -⟩ | ⟨-, -, he⟩ | ⟨-, -, -, he⟩
  · exact absurd hsending (by rw [hs]; exact Bool.false_ne_true)
  · cases hfails
  · rw [he] at hlength
    simp only [List.length_take, List.length_nil] at hlength
    omega
  · rw [he] at hlength
    simp only [List.length_take, List.length_nil] at hlength
    omega

/-! ### What a history keeps -/

theorem isResting_act (h : b.reader.IsResting) (op : Op) :
    (b.act D S inet op).1.reader.IsResting := by
  have hreceive : ∀ received : List Char, received.length ≤ b.reader.freeSize →
      (b.receive D S inet received).1.reader.IsResting := by
    intro received hfit
    have hreader := h.doReceive (D := D) (K := callback S inet) (b.client, []) hfit
    unfold receive
    rcases hcall : b.reader.doReceive D (callback S inet) (b.client, []) received with
      ⟨⟨r, c, ms⟩, (e | what) | isConnectionLost⟩ <;> rw [hcall] at hreader <;> exact hreader
  cases op with
  | poll event =>
    have hinput : (b.input D S inet event).1.reader.IsResting := by
      unfold input
      split_ifs
      · cases event.chunk with
        | bytes received => exact hreceive _ (List.length_take_le _ _)
        | failed error => exact h
      · exact h
    show (afterInput _ event).reader.IsResting
    unfold afterInput
    split_ifs
    · exact hinput
    · exact hinput
  | _ => exact h

variable (D S inet) in
theorem IsNew.run_isResting (h : b.IsNew) (ops : List Op) :
    (b.run D S inet ops).reader.IsResting := by
  have hrun : ∀ b : ByteClient, b.reader.IsResting → (b.run D S inet ops).reader.IsResting := by
    induction ops with
    | nil => exact fun b hb => hb
    | cons op ops ih =>
      intro b hb
      refine ih _ ?_
      show (b.step D S inet op).1.reader.IsResting
      unfold step
      split_ifs
      · exact hb
      · exact isResting_act hb op
  have hinit : b.reader.IsResting := by
    rw [h.2]
    exact StreamSocketReader.isResting_init
  exact hrun b hinit

variable (D S inet) in
theorem IsNew.run_isReady (h : b.IsNew) (ops : List Op) :
    (b.run D S inet ops).client.session.transport.writer.IsReady clientMemory :=
  (h.alike.run D S inet ops).2.isReady

variable (D S inet) in
/-- A session that is connected again has what was left of the earlier connections. -/
theorem IsNew.run_connect (h : b.IsNew) (ops : List Op)
    (hs : (b.run D S inet ops).client.session.state = .disconnected) :
    (b.run D S inet ops).connect.IsOpened ∧
      (b.run D S inet ops).connect.reader = (b.run D S inet ops).reader ∧
      (b.run D S inet ops).connect.client.exit = (b.run D S inet ops).client.exit ∧
      (b.run D S inet ops).connect.client.session.transport.writer =
        (b.run D S inet ops).client.session.transport.writer := by
  obtain ⟨hqueue, hest⟩ := h.run_disconnected ops hs
  refine ⟨connect_isOpened hs hqueue hest, ?_⟩
  unfold ByteClient.connect ClientSession.connect
  rw [if_pos hs]
  exact ⟨rfl, rfl, rfl⟩

end ByteClient

open ByteClient in
/-- **A new connection owes nothing to the previous one** exactly if nothing is left in the reader
and in the writer. `renew` gives the client a new session. The second part is about a `connect` that
is called while a session is being disconnected. -/
theorem reconnect_traces (D : Strtod) (S : StdSort) (inet : InetText) (b₀ : ByteClient)
    (hnew : b₀.IsNew) (history : List Op)
    (hexit : (b₀.run D S inet history).client.exit = none) :
    ((b₀.run D S inet history).client.session.state = .disconnected →
        ((∀ ops, traces D S inet (b₀.run D S inet history).connect ops =
            traces D S inet (b₀.run D S inet history).renew.connect ops) ↔
          (b₀.run D S inet history).NothingLeft)) ∧
      ((b₀.run D S inet history).IsOpened →
        ((∀ ops, traces D S inet (b₀.run D S inet history) ops =
            traces D S inet (b₀.run D S inet history).renew.connect ops) ↔
          (b₀.run D S inet history).NothingLeft)) := by
  -- what is left in the reader shows in its chunks, what is left in the writer in a write
  have hopened : ∀ b : ByteClient, b.IsOpened → b.client.exit = none → b.reader.IsResting →
      b.client.session.transport.writer.IsReady clientMemory →
      ((∀ ops, traces D S inet b ops = traces D S inet b.renew.connect ops) ↔
        b.NothingLeft) := by
    intro b hb hexit hrest hready
    refine ⟨fun hsame => ?_, fun hleft ops => ((hb.alike hleft).traces D S inet ops).symm⟩
    by_contra hleft
    rcases not_and_or.mp hleft with hreader | hwriter
    · obtain ⟨chunks, -, hne⟩ := shows_reader D S inet hrest hexit
        (show b.renew.connect.HasNewReader from ⟨rfl, hexit⟩) hreader
      exact hne (hsame (chunks.map chunk))
    · have hsending := Bool.of_not_eq_false hwriter
      have hnew : b.renew.connect.IsOpened := ⟨rfl, rfl, rfl, rfl, rfl⟩
      exact shows_writer hb hexit hready hsending hnew hexit rfl (hsame _)
  have hrest := hnew.run_isResting D S inet history
  have hready := hnew.run_isReady D S inet history
  -- a disconnected session is connected first, which leaves both as they are
  refine ⟨fun hs => ?_, fun hb => hopened _ hb hexit hrest hready⟩
  obtain ⟨hb, hreader, hexit', hwriter⟩ := hnew.run_connect D S inet history hs
  generalize b₀.run D S inet history = b at hexit hb hrest hready hreader hexit' hwriter
  have hleft : b.connect.NothingLeft ↔ b.NothingLeft := by
    unfold NothingLeft
    rw [hreader, hwriter]
  rw [← hleft]
  exact hopened b.connect hb (hexit'.trans hexit) (hreader ▸ hrest) (hwriter ▸ hready)

open ByteClient in
private def newClient : ByteClient := { client := { session := { transport := {} } } }

private def noOverflow : Strtod := { overflows := fun _ => false }

open ByteClient in
/-- The peer closes the connection. In the middle of a message that shows, and otherwise not. -/
theorem reconnect_traces_closed :
    (∀ ops, traces noOverflow .insertion .plain
        (newClient.run noOverflow .insertion .plain [.connect, chunk []]).connect ops =
      traces noOverflow .insertion .plain
        (newClient.run noOverflow .insertion .plain [.connect, chunk []]).renew.connect ops) ∧
    ¬∀ ops, traces noOverflow .insertion .plain
        (newClient.run noOverflow .insertion .plain
          [.connect, chunk ['{'], chunk []]).connect ops =
      traces noOverflow .insertion .plain
        (newClient.run noOverflow .insertion .plain
          [.connect, chunk ['{'], chunk []]).renew.connect ops := by
  have hreader : (newClient.run noOverflow .insertion .plain
      [.connect, chunk ['{'], chunk []]).reader.parser.state = .objectInitial := rfl
  refine ⟨((reconnect_traces noOverflow .insertion .plain newClient ⟨rfl, rfl⟩
    [.connect, chunk []] rfl).1 rfl).mpr ⟨rfl, rfl⟩, fun hsame => ?_⟩
  have hleft := ((reconnect_traces noOverflow .insertion .plain newClient ⟨rfl, rfl⟩
    [.connect, chunk ['{'], chunk []] rfl).1 rfl).mp hsame
  rw [hleft.1] at hreader
  cases hreader

open ByteClient in
/-- The peer closes the connection behind the first character of a message. The next connection
begins with the same character. -/
theorem opened_not_new :
    ¬∀ ops, traces noOverflow .insertion .plain
        (newClient.run noOverflow .insertion .plain
          [.connect, chunk ['{'], chunk []]).connect ops =
      traces noOverflow .insertion .plain
        (newClient.run noOverflow .insertion .plain
          [.connect, chunk ['{'], chunk []]).renew.connect ops := by
  intro h
  have herror := congrArg (List.map fun t : Trace => t.parserError.isSome) (h [chunk ['{']])
  exact absurd herror (by decide)

end Conntop
