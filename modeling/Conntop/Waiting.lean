import Conntop.Client
import Conntop.Inet
import Conntop.ServerSession

/-!
# Unsent bytes are waited for

Between the runs of its poll handler, a session that has something to send should have asked the
`PollSystem` for OUTPUT. A poll handler asks for it when its queue is not empty, also when the
writer still holds a message that the socket did not take whole.

* `SendsWhole` is the condition under which a poll handler does not end so, on the state after its
  INPUT part: what the socket takes does not end inside the last message (`EndsInLast`).
* The shared messages of the server may be any at every step of a session.
* A client stops to have a connector when its connection is established. Until then its writer is
  idle.

Main result: `unsent_waited`, sessions whose steps all meet the condition wait for output whenever
they have something to send.
-/

namespace Conntop

namespace ServerSession

variable (mem : ServerMemory) (s : ServerSession ServerOutbox)

/-! ## Runs -/

/-- What happens to a session after its constructor. `available` are the data of the server. -/
inductive Op
  | poll (available : Flags) (event : PollEvent)
  | onUpdate
  | disconnect
  | sendDataStatus (dataFlags dataUpdateFlags : Flags)
  | sendData (k : SharedMsg)
  | stopSendingData

def step : Op → ServerSession ServerOutbox
  | .poll available event => (s.socketPollHandler mem available event).1
  | .onUpdate => s.onUpdate mem
  | .disconnect => s.disconnect mem
  | .sendDataStatus f g => s.sendDataStatus mem f g
  | .sendData k => s.sendData mem k
  | .stopSendingData => s.stopSendingData mem

/-- The shared messages may have changed at every step. -/
def run (s : ServerSession ServerOutbox) (ops : List (ServerMemory × Op)) :
    ServerSession ServerOutbox :=
  ops.foldl (fun s op => s.step op.1 op.2) s

/-- When the poll handler leaves no unsent bytes without a request: the connection ends, or what
the socket takes does not end inside the last message, or nothing is sent and no message is left
in the writer alone. -/
def SendsWhole (event : PollEvent) : Prop :=
  s.state = .disconnected ∨ event.flags.test EPollFlags.error = true ∨
    if event.flags.test EPollFlags.output then
      ¬EndsInLast (Outbox.lengths mem s.transport.writer s.transport.sendQueue) event.socket
    else s.transport.writer.isSending = true → s.transport.sendQueue ≠ []

instance (event : PollEvent) : Decidable (s.SendsWhole mem event) :=
  inferInstanceAs (Decidable (_ ∨ _ ∨ ite _ _ _))

/-- The condition on a step. -/
def Op.SendsWhole (mem : ServerMemory) (s : ServerSession ServerOutbox) : Op → Prop
  | .poll available event => (s.input mem available event).1.SendsWhole mem event
  | _ => True

instance : ∀ op : Op, Decidable (op.SendsWhole mem s)
  | .poll available event =>
    inferInstanceAs (Decidable ((s.input mem available event).1.SendsWhole mem event))
  | .onUpdate | .disconnect | .sendDataStatus _ _ | .sendData _ | .stopSendingData =>
    inferInstanceAs (Decidable True)

def RunSendsWhole : ServerSession ServerOutbox → List (ServerMemory × Op) → Prop
  | _, [] => True
  | s, op :: ops => op.2.SendsWhole op.1 s ∧ RunSendsWhole (s.step op.1 op.2) ops

instance : ∀ (s : ServerSession ServerOutbox) (ops : List (ServerMemory × Op)),
    Decidable (s.RunSendsWhole ops)
  | _, [] => inferInstanceAs (Decidable True)
  | s, op :: ops =>
    have := instDecidableRunSendsWhole (s.step op.1 op.2) ops
    inferInstanceAs (Decidable (op.2.SendsWhole op.1 s ∧ RunSendsWhole (s.step op.1 op.2) ops))

/-- A session that is disconnected has closed its socket, the others wait for output. -/
def Waiting (o : ServerOutbox) (state : ESessionState) : Prop :=
  o.Waits ∧ (state = .disconnected → o.isConnected = false)

variable {mem s}

theorem keeps_waiting (mem : ServerMemory) : Keeps mem Waiting where
  enqueue _ _ m _ _ h := ⟨h.1.enqueue mem m, h.2⟩
  close o _ _ := ⟨.close o, fun _ => rfl⟩
  open_ _ _ _ _ hs h := ⟨h.1, fun h' => absurd h' hs⟩

theorem accept_waiting (mem : ServerMemory) :
    Waiting (accept mem acceptedOutbox).transport (accept mem acceptedOutbox).state :=
  (keeps_waiting mem).enqueue acceptedOutbox .opening (.shared .banner) ⟨nofun, nofun⟩ nofun
    ⟨fun _ hu => by simp [acceptedOutbox, Outbox.IsUnsent, StreamSocketWriter.isSending] at hu,
      nofun⟩

/-- After the OUTPUT part, a message is in the writer alone exactly when the bytes that the socket
takes end inside the last message. -/
theorem output_unsent (hc : s.transport.isConnected = true) (socket : Socket) :
    ((s.output mem socket).transport.isConnected = true ∧
      (s.output mem socket).transport.sendQueue = [] ∧
        (s.output mem socket).transport.writer.isSending = true) ↔
      EndsInLast (Outbox.lengths mem s.transport.writer s.transport.sendQueue) socket := by
  have hloop := Outbox.sendLoop_unsent mem isData s.transport.sendQueue s.transport socket
  have hframe := (Outbox.sendLoop_frame mem isData s.transport.sendQueue s.transport socket).1
  unfold output
  generalize Outbox.sendLoop isData mem s.transport.sendQueue s.transport socket = r at *
  obtain ⟨result, o⟩ := r
  rw [← hloop]
  have hc' : o.isConnected = true := hframe.trans hc
  cases result with
  | failed => simp [quickDisconnect, ServerTransport.close, Outbox.close]
  | _ => simp [hc']

variable (mem) in
theorem output_closed (h : s.state = .disconnected → s.transport.isConnected = false)
    (socket : Socket) : ((s.output mem socket).transport.isConnected = true →
      s.transport.isConnected = true) ∧ ((s.output mem socket).state = .disconnected →
        (s.output mem socket).transport.isConnected = false) := by
  have hframe := (Outbox.sendLoop_frame mem isData s.transport.sendQueue s.transport socket).1
  unfold output
  generalize Outbox.sendLoop isData mem s.transport.sendQueue s.transport socket = r at *
  obtain ⟨result, o⟩ := r
  cases result with
  | failed => exact ⟨nofun, fun _ => rfl⟩
  | _ => exact ⟨fun hc => hframe.symm.trans hc, fun hs => hframe.trans (h hs)⟩

theorem afterOutput_waiting {event : PollEvent}
    (h : s.state = .disconnected → s.transport.isConnected = false)
    (hw : s.transport.isConnected = true → event.flags.test EPollFlags.error = false →
      s.transport.writer.isSending = true → s.transport.sendQueue ≠ []) :
    Waiting (s.afterOutput event).transport (s.afterOutput event).state := by
  have hreset : ∀ o : ServerOutbox, o.resetPoll.isConnected = o.isConnected := by
    intro o
    unfold Outbox.resetPoll
    split_ifs <;> rfl
  unfold afterOutput Waiting
  dsimp only
  rw [Outbox.waits_resetPoll, hreset]
  split_ifs with he
  · exact ⟨nofun, fun _ => rfl⟩
  · refine ⟨fun hc => hw hc ?_, h⟩
    by_contra hflag
    refine he ⟨by simpa using hflag, fun hs => ?_⟩
    rw [h hs] at hc
    cases hc

theorem afterInput_waiting {event : PollEvent} (h : Waiting s.transport s.state)
    (hw : s.SendsWhole mem event) :
    Waiting (s.afterInput mem event).transport (s.afterInput mem event).state := by
  have hne : s.transport.isConnected = true → s.state ≠ .disconnected := by
    intro hc hs
    rw [h.2 hs] at hc
    cases hc
  unfold afterInput
  by_cases ho : event.flags.test EPollFlags.output = true ∧ s.state ≠ .disconnected
  · rw [if_pos ho]
    obtain ⟨hopen, hclosed⟩ := output_closed mem h.2 event.socket
    refine afterOutput_waiting hclosed fun hc he hs hq => ?_
    have hends := (output_unsent (hopen hc) event.socket).mp ⟨hc, hq, hs⟩
    rcases hw with hw | hw | hw
    · exact ho.2 hw
    · exact absurd (he.symm.trans hw) (by simp)
    · rw [if_pos ho.1] at hw
      exact hw hends
  · rw [if_neg ho]
    refine afterOutput_waiting h.2 fun hc he hs => ?_
    rcases hw with hw | hw | hw
    · exact absurd hw (hne hc)
    · exact absurd (he.symm.trans hw) (by simp)
    · rw [if_neg fun hflag => ho ⟨hflag, hne hc⟩] at hw
      exact hw hs

/-- **A step keeps the session waiting** while there is something to send. -/
theorem step_waiting (op : Op) (h : Waiting s.transport s.state) (hw : op.SendsWhole mem s) :
    Waiting (s.step mem op).transport (s.step mem op).state := by
  have hkeeps := keeps_waiting mem
  cases op with
  | poll available event =>
    have hinput : Waiting (s.input mem available event).1.transport
        (s.input mem available event).1.state := by
      unfold input
      split_ifs
      · exact hkeeps.receive h event.received
      · exact h
    exact afterInput_waiting hinput hw
  | onUpdate => exact hkeeps.onUpdate h
  | disconnect => exact hkeeps.disconnect h
  | sendDataStatus f g => exact hkeeps.sendDataStatus h f g
  | sendData k => exact Keeps.sendData h fun o ho => ⟨ho.1.enqueue mem (.shared k), ho.2⟩
  | stopSendingData =>
    exact ⟨h.1.stopSendingData isData mem, fun hs =>
      (Outbox.stopSendingData_isConnected isData mem).trans (h.2 hs)⟩

theorem run_waiting (ops : List (ServerMemory × Op)) (h : Waiting s.transport s.state)
    (hw : RunSendsWhole s ops) : Waiting (s.run ops).transport (s.run ops).state := by
  induction ops generalizing s with
  | nil => exact h
  | cons op ops ih => exact ih (step_waiting op.2 h hw.1) hw.2

end ServerSession

namespace Client

/-! ## The client -/

inductive Op
  | resolved (attempts : List Bool)
  | poll (event : PollEvent)
  | onUpdate
  | disconnect
  | setPaused (paused : Bool)

def step (S : StdSort) (inet : InetText) (c : Client ClientOutbox) : Op → Client ClientOutbox
  | .resolved attempts => c.onResolved attempts
  | .poll event => c.socketPollHandler S inet event
  | .onUpdate => c.onUpdate
  | .disconnect => c.disconnect
  | .setPaused paused => c.setPaused paused

def run (S : StdSort) (inet : InetText) (c : Client ClientOutbox) (ops : List Op) :
    Client ClientOutbox :=
  ops.foldl (step S inet) c

/-- As for the server. Before the connection is established nothing is sent. -/
def SendsWhole (c : Client ClientOutbox) (event : PollEvent) : Prop :=
  c.session.state = .disconnected ∨ event.flags.test EPollFlags.error = true ∨
    (c.session.isConnectionEstablished = true →
      if event.flags.test EPollFlags.output then
        ¬EndsInLast (Outbox.lengths clientMemory c.session.transport.writer
          c.session.transport.sendQueue) event.socket
      else c.session.transport.writer.isSending = true → c.session.transport.sendQueue ≠ [])

instance (c : Client ClientOutbox) (event : PollEvent) : Decidable (c.SendsWhole event) :=
  inferInstanceAs (Decidable (_ ∨ _ ∨ (_ → ite _ _ _)))

/-- The condition on a step. -/
def Op.SendsWhole (S : StdSort) (inet : InetText) (c : Client ClientOutbox) : Op → Prop
  | .poll event => (c.input S inet event).SendsWhole event
  | _ => True

instance (S : StdSort) (inet : InetText) (c : Client ClientOutbox) :
    ∀ op : Op, Decidable (op.SendsWhole S inet c)
  | .poll event => inferInstanceAs (Decidable ((c.input S inet event).SendsWhole event))
  | .resolved _ | .onUpdate | .disconnect | .setPaused _ => inferInstanceAs (Decidable True)

def RunSendsWhole (S : StdSort) (inet : InetText) : Client ClientOutbox → List Op → Prop
  | _, [] => True
  | c, op :: ops => op.SendsWhole S inet c ∧ RunSendsWhole S inet (c.step S inet op) ops

instance (S : StdSort) (inet : InetText) : ∀ (c : Client ClientOutbox) (ops : List Op),
    Decidable (c.RunSendsWhole S inet ops)
  | _, [] => inferInstanceAs (Decidable True)
  | c, op :: ops =>
    have := instDecidableRunSendsWhole S inet (c.step S inet op) ops
    inferInstanceAs (Decidable (op.SendsWhole S inet c ∧ RunSendsWhole S inet (c.step S inet op) ops))

/-- A client that is disconnected has closed its socket, one that is connecting has an idle
writer, and `Q` holds of the others. -/
structure Sound (Q : ClientOutbox → Prop) (o : ClientOutbox) (state : ESessionState)
    (isConnectionEstablished hasConnector : Bool) : Prop where
  holds : isConnectionEstablished = true → Q o
  closed : state = .disconnected → o.isConnected = false
  connecting : hasConnector = true → isConnectionEstablished = false ∧ o.writer.isSending = false
  idle : isConnectionEstablished = false → o.isConnected = true → o.writer.isSending = false

variable {S : StdSort} {inet : InetText} {c : Client ClientOutbox} {Q Q' : ClientOutbox → Prop}
variable {event : PollEvent}

theorem keeps_sound (hQ : ∀ o m, Q o → Q (o.enqueue clientMemory m)) : Keeps (Sound Q) where
  enqueue _ _ _ _ m h := { h with holds := fun he => hQ _ (.own m) (h.holds he) }
  close o _ _ _ h :=
    { holds := nofun
      closed := fun _ => rfl
      connecting := fun hk => ⟨rfl, (h.connecting hk).2⟩
      idle := nofun }
  connect o _ h :=
    { holds := fun he => absurd (he.symm.trans (h.connecting rfl).1) (by simp)
      closed := nofun
      connecting := h.connecting
      idle := fun _ _ => (h.connecting rfl).2 }
  open_ _ _ _ _ _ _ hs h := { h with closed := fun h' => absurd h' hs }
  detach _ _ _ _ h := { h with connecting := nofun }

theorem sound_imp {c : Client ClientOutbox} (h : c.Holds (Sound Q))
    (hQ : c.session.isConnectionEstablished = true → Q' c.session.transport) :
    c.Holds (Sound Q') := { h with holds := hQ }

theorem tryNext_established (c : Client ClientOutbox) (connector : ClientConnector) :
    (c.tryNext connector).session.isConnectionEstablished = c.session.isConnectionEstablished := by
  unfold tryNext
  split
  · rfl
  · split
    · rfl
    · unfold ClientSession.connect
      split_ifs <;> rfl

theorem quickDisconnect_established (c : Client ClientOutbox) (reason : EDisconnectReason)
    (error : String) :
    (c.quickDisconnect reason error).session.isConnectionEstablished = false := by
  unfold quickDisconnect onSessionDisconnect
  dsimp only
  split
  · rw [tryNext_established]
    rfl
  · rfl

/-- A client that was disconnected holds anything of an established connection. -/
theorem quickDisconnect_sound (h : c.Holds (Sound fun _ => True)) (reason : EDisconnectReason)
    (error : String) : (c.quickDisconnect reason error).Holds (Sound Q) :=
  sound_imp ((keeps_sound fun _ _ _ => trivial).quickDisconnect h reason error) fun he => absurd
     (he.symm.trans (quickDisconnect_established c reason error)) (by simp)

theorem afterOutput_waiting (h : c.Holds (Sound fun _ => True))
    (hw : c.session.isConnectionEstablished = true → c.session.transport.isConnected = true →
      event.flags.test EPollFlags.error = false →
        c.session.transport.writer.isSending = true → c.session.transport.sendQueue ≠ []) :
    (c.afterOutput event).Holds (Sound Outbox.Waits) := by
  have hreset : ∀ c : Client ClientOutbox,
      c.Holds (Sound fun o => o.resetPoll.Waits) →
        Holds (Sound Outbox.Waits) { c with session := { c.session with
          transport := c.session.transport.resetPoll } } := by
    intro c h
    have hc : c.session.transport.resetPoll.isConnected = c.session.transport.isConnected := by
      unfold Outbox.resetPoll
      split_ifs <;> rfl
    have hs : c.session.transport.resetPoll.writer = c.session.transport.writer := by
      unfold Outbox.resetPoll
      split_ifs <;> rfl
    exact
      { holds := h.holds
        closed := fun hd => hc.trans (h.closed hd)
        connecting := fun hk => hs ▸ h.connecting hk
        idle := fun he ho => hs ▸ h.idle he (hc.symm.trans ho) }
  unfold afterOutput
  apply hreset
  split_ifs with he
  · exact quickDisconnect_sound h _ _
  · refine sound_imp h fun hest => Outbox.waits_resetPoll.mpr fun hc => hw hest hc ?_
    by_contra hflag
    refine he ⟨by simpa using hflag, fun hs => ?_⟩
    rw [h.closed hs] at hc
    cases hc

theorem afterInput_waiting (h : c.Holds (Sound Outbox.Waits)) (hw : c.SendsWhole event) :
    (c.afterInput event).Holds (Sound Outbox.Waits) := by
  have htrue : c.Holds (Sound fun _ => True) := sound_imp h fun _ => trivial
  have hne : c.session.transport.isConnected = true → c.session.state ≠ .disconnected := by
    intro hc hs
    rw [h.closed hs] at hc
    cases hc
  unfold afterInput
  by_cases ho : event.flags.test EPollFlags.output = true ∧ c.session.state ≠ .disconnected
  · rw [if_pos ho]
    unfold output
    split_ifs with hest hver
    · have hloop := Outbox.sendLoop_unsent clientMemory (fun _ => false)
        c.session.transport.sendQueue c.session.transport event.socket
      have hframe := Outbox.sendLoop_frame clientMemory (fun _ => false)
        c.session.transport.sendQueue c.session.transport event.socket
      generalize Outbox.sendLoop _ clientMemory c.session.transport.sendQueue c.session.transport
        event.socket = r at hloop hframe ⊢
      obtain ⟨result, o⟩ := r
      have hsent : Holds (Sound fun _ => True) { c with session := { c.session with
          transport := o } } :=
        { holds := fun _ => trivial
          closed := fun hd => hframe.1.trans (h.closed hd)
          connecting := fun hk => absurd (hest.symm.trans (h.connecting hk).1) (by simp)
          idle := fun he => absurd (hest.symm.trans he) (by simp) }
      have hwhole : event.flags.test EPollFlags.error = false → ¬EndsInLast (Outbox.lengths
          clientMemory c.session.transport.writer c.session.transport.sendQueue) event.socket := by
        intro he
        rcases hw with hw | hw | hw
        · exact absurd hw ho.2
        · exact absurd (he.symm.trans hw) (by simp)
        · have hends := hw hest
          rwa [if_pos ho.1] at hends
      cases result with
      | failed =>
        exact afterOutput_waiting (quickDisconnect_sound hsent _ _) fun he _ _ _ =>
          absurd (he.symm.trans (quickDisconnect_established _ _ _)) (by simp)
      | _ =>
        exact afterOutput_waiting hsent fun _ _ he hs hq =>
          hwhole he (hloop.mp ⟨by simp, hq, hs⟩)
    · have hsound : Holds (Sound fun _ => True) (onSessionConnectionEstablished
          { c with session := { c.session with isConnectionEstablished := true } }) :=
        { holds := fun _ => trivial
          closed := h.closed
          connecting := nofun
          idle := nofun }
      refine afterOutput_waiting hsound fun _ hc _ hs => ?_
      exact absurd (hs.symm.trans (h.idle (by simpa using hest) hc)) (by simp)
    · exact afterOutput_waiting (quickDisconnect_sound htrue _ _) fun he _ _ _ =>
        absurd (he.symm.trans (quickDisconnect_established _ _ _)) (by simp)
  · rw [if_neg ho]
    refine afterOutput_waiting htrue fun hest hc he hs => ?_
    rcases hw with hw | hw | hw
    · exact absurd hw (hne hc)
    · exact absurd (he.symm.trans hw) (by simp)
    · have hwhole := hw hest
      rw [if_neg fun hflag => ho ⟨hflag, hne hc⟩] at hwhole
      exact hwhole hs

/-- **A step keeps the client waiting** while there is something to send. -/
theorem step_waiting (op : Op) (h : c.Holds (Sound Outbox.Waits)) (hw : op.SendsWhole S inet c) :
    (c.step S inet op).Holds (Sound Outbox.Waits) := by
  have hkeeps : Keeps (Sound Outbox.Waits) := keeps_sound fun _ m ho => ho.enqueue clientMemory m
  cases op with
  | resolved attempts => exact hkeeps.onResolved h attempts
  | poll event =>
    have hinput : (c.input S inet event).Holds (Sound Outbox.Waits) := by
      unfold input
      split_ifs
      · exact hkeeps.receive h event.received
      · exact h
    exact afterInput_waiting hinput hw
  | onUpdate => exact hkeeps.onUpdate h
  | disconnect => exact hkeeps.disconnect h
  | setPaused paused => exact hkeeps.setPaused h paused

theorem run_waiting (ops : List Op) (h : c.Holds (Sound Outbox.Waits))
    (hw : RunSendsWhole S inet c ops) : (c.run S inet ops).Holds (Sound Outbox.Waits) := by
  induction ops generalizing c with
  | nil => exact h
  | cons op ops ih => exact ih (step_waiting op h hw.1) hw.2

theorem init_waiting (info : PeerInfo) (host : String) :
    (init info host).Holds (Sound Outbox.Waits) where
  holds := nofun
  closed _ := rfl
  connecting _ := ⟨rfl, rfl⟩
  idle := nofun

end Client

/-- **Unsent bytes are waited for** by the sessions of the server and by the established session of
a client, in every run in which no poll handler ends with a part of a message in the writer and an
empty queue. -/
theorem unsent_waited (mem : ServerMemory) (S : StdSort) (inet : InetText) (info : PeerInfo)
    (host : String) :
    (∀ ops : List (ServerMemory × ServerSession.Op),
      (ServerSession.accept mem ServerSession.acceptedOutbox).RunSendsWhole ops →
        ((ServerSession.accept mem ServerSession.acceptedOutbox).run ops).transport.Waits) ∧
    ∀ ops : List Client.Op, (Client.init info host).RunSendsWhole S inet ops →
      ((Client.init info host).run S inet ops).session.isConnectionEstablished = true →
        ((Client.init info host).run S inet ops).session.transport.Waits := by
  constructor
  · intro ops hw
    exact (ServerSession.run_waiting ops (ServerSession.accept_waiting mem) hw).1
  · intro ops hw hest
    exact (Client.run_waiting ops (Client.init_waiting info host) hw).holds hest

section

private def helloMessage : Value :=
  .object [("message", .string "HELLO"), ("name", .string "conntop"), ("version", .string "1"),
    ("platform", .string "Linux")]

private def bannerMemory : ServerMemory where
  texts
    | .banner => { msg := ClientServerProtocol.createServerMsgBanner }
    | .hello => { msg := ClientServerProtocol.createServerMsgHello {} }
    | _ => {}
  replaced _ _ := []

private def inputFlag : Flags := EPollFlags.input

private def outputFlag : Flags := EPollFlags.output

/-- The socket takes 10 bytes of the BANNER while the answer to a HELLO is in the queue. -/
private def serverOps : List (ServerMemory × ServerSession.Op) :=
  [(bannerMemory, .poll 1 ⟨inputFlag ||| outputFlag, .messages [helloMessage] none, { space := 10 }⟩)]

/-- The connection is established, and the HELLO message is sent whole. -/
private def clientOps : List Client.Op :=
  [.resolved [false, true], .poll ⟨outputFlag, .messages [] none, { space := 0 }⟩,
    .poll ⟨inputFlag, .messages [.object [("conntop_server", .int 1)]] none, { space := 0 }⟩,
    .poll ⟨outputFlag, .messages [] none, { space := 100 }⟩]

theorem helloMessage_waited :
    ((ServerSession.accept bannerMemory ServerSession.acceptedOutbox).run serverOps).transport.Waits ∧
      ((Client.init {} "").run .insertion .plain clientOps).session.transport.Waits :=
  let h := unsent_waited bannerMemory .insertion .plain {} ""
  ⟨h.1 serverOps (by decide), h.2 clientOps (by decide) (by decide)⟩

/-- The socket takes 10 of the 21 bytes of the BANNER, and nothing is behind it. -/
theorem banner_not_waited :
    let s := (ServerSession.accept bannerMemory ServerSession.acceptedOutbox).run
      [(bannerMemory, .poll 1 ⟨outputFlag, .messages [] none, { space := 10 }⟩)]
    s.transport.isConnected = true ∧ s.transport.writer.isSending = true ∧
      s.transport.pollFlags = some EPollFlags.input ∧ ¬s.transport.Waits := by
  intro s
  have hflags : s.transport.pollFlags = some EPollFlags.input := by decide
  refine ⟨by decide, by decide, hflags, fun hw => ?_⟩
  obtain ⟨flags, hf, ht⟩ := hw (by decide) (.inr (by decide))
  rw [hflags, Option.some_inj] at hf
  subst hf
  exact absurd ht (by decide)

end

end Conntop
