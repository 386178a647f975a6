import Conntop.Conforming
import Conntop.Lib.LabelledPath
import Conntop.Replay

/-!
# Channels

A client and a server session over two FIFO channels that deliver whole messages, each with the
content that it had when it was enqueued.

* `Link` is the sending part of a server session and the channel to its `Peer`, when that is a
  `Client` of this program. `Uplink` is the way back. What was enqueued stays in an `Uplink` when
  the client closes; a session that is disconnected discards what it gets.
* A message is `Stamped` with the number of the server's tick in which it was enqueued.
* `past` records what the client did, and `sent` what it sent. They are no part of the program.

`View` is what a client knows of the messages that it got. `Flow` relates the session of a client
to that of the server: what is in flight leads from the view of the one to the view of the other.
-/

namespace Conntop

/-! ## From the client to the server -/

structure Uplink where
  inFlight : List SerializedClientMessage := []
  sent : List SerializedClientMessage := []

instance : ClientTransport Uplink where
  enqueue l msg := { inFlight := l.inFlight ++ [msg], sent := l.sent ++ [msg] }
  close l := l
  connect l := l

def ClientSession.take (cs : ClientSession Uplink) : ClientSession Uplink :=
  { cs with transport := { cs.transport with inFlight := cs.transport.inFlight.tail } }

/-- What a client did: whether it got an UPDATE_TICK, and the client before and after it. -/
structure Moment where
  isTick : Bool
  before : Client Uplink
  after : Client Uplink

/-- `lastTick` is the stamp of the last message that was delivered. -/
structure Peer where
  client : Client Uplink
  lastTick : ℕ := 0
  past : List Moment := []

namespace Peer

/-- A client whose connection is established, and that waits for the banner. -/
def start (info : PeerInfo) : Peer where
  client := { info := info, session := { ClientSession.connect { transport := {} } with
    isConnectionEstablished := true } }

variable (p : Peer)

def act (f : Client Uplink → Client Uplink) (isTick : Bool := false) : Peer :=
  { p with
    client := f p.client
    past := p.past ++ [⟨isTick, p.client, f p.client⟩] }

/-- A message is taken out of the channel to the server. -/
def take : Peer := p.act fun c => { c with session := c.session.take }

end Peer

/-! ## From the server to the client -/

structure Stamped where
  msg : SerializedServerMessage
  tick : ℕ

/-- The send queue, the message that the writer holds and whether it was begun, the messages that
are sent, and the client. -/
structure Link where
  queue : List Stamped := []
  writer : Option (Stamped × Bool) := none
  isSendingData : Bool := false
  wire : List Stamped := []
  peer : Option Peer := none

def Stamped.isData (m : Stamped) : Bool := ServerSession.isData m.msg.type

namespace Link

variable (l : Link)

/-- The messages that are in flight, the oldest first. -/
def pending : List Stamped := l.wire ++ (l.writer.map (·.1)).toList ++ l.queue

def enqueue (mem : ServerMemory) (m : ServerMsgPointer) : Link :=
  { l with queue := l.queue ++ [⟨m.msg mem, (mem.texts .updateTick).version⟩] }

/-- `StreamSocketWriter::stop` forgets a message that was not begun. -/
def stopWriter : Option (Stamped × Bool) → Option (Stamped × Bool)
  | some (_, false) => none
  | writer => writer

def stopSendingData : Link × Bool :=
  let queue := l.queue.filter (!·.isData)
  if l.isSendingData then
    ({ l with queue := queue, writer := stopWriter l.writer, isSendingData := false }, true)
  else ({ l with queue := queue }, l.queue.any (·.isData))

/-- The writer takes the next message, or sends a part of its message. -/
def sendPart (begun : Bool) : Link :=
  match l.writer, l.queue with
  | some (m, _), _ => { l with writer := some (m, true) }
  | none, m :: queue =>
    { l with writer := some (m, begun), queue := queue, isSendingData := m.isData }
  | none, [] => l

/-- The message of the writer, or the next one, is sent. -/
def sendWhole : Link :=
  match l.writer, l.queue with
  | some (m, _), _ => { l with writer := none, isSendingData := false, wire := l.wire ++ [m] }
  | none, m :: queue => { l with queue := queue, isSendingData := false, wire := l.wire ++ [m] }
  | none, [] => l

end Link

instance : ServerTransport Link where
  enqueue l mem m := l.enqueue mem m
  close l := { l with queue := [], isSendingData := false }
  isSendingData l := l.isSendingData
  stopSendingData l _ := l.stopSendingData

/-! ## Steps of a client and of a session -/

/-- What a client does by itself, and a message that it gets. `lose` is what happens to its
socket. -/
inductive PeerOp
  | deliver
  | setPaused (paused : Bool)
  | disconnect
  | onUpdate
  | lose (reason : EDisconnectReason) (error : String)

/-- A client that is disconnected discards the message. -/
def Peer.deliver (S : StdSort) (inet : InetText) (p : Peer) (m : Stamped) : Peer :=
  if p.client.session.state = .disconnected then p
  else
    { p.act (fun c =>
        match m.msg.document with
        | some message => c.receive S inet (.messages [message] none)
        | none => c) (m.msg.type = .updateTick) with
      lastTick := m.tick }

def Link.peerStep (S : StdSort) (inet : InetText) (op : PeerOp) (l : Link) : Link :=
  match l.peer with
  | none => l
  | some p =>
    match op with
    | .deliver =>
      match l.wire with
      | m :: wire => { l with wire := wire, peer := some (p.deliver S inet m) }
      | [] => l
    | .setPaused paused => { l with peer := some (p.act (·.setPaused paused)) }
    | .disconnect => { l with peer := some (p.act (·.disconnect)) }
    | .onUpdate => { l with peer := some (p.act (·.onUpdate)) }
    | .lose reason error => { l with peer := some (p.act (·.quickDisconnect reason error)) }

/-- What a session of the server does. It gets the messages of its client, or anything at all from
another program. -/
inductive SessionOp
  | sendPart (begun : Bool)
  | sendWhole
  | deliver
  | receive (received : Received)
  | disconnect
  | lose (reason : EDisconnectReason) (error : String)

namespace ServerSession

variable (mem : ServerMemory) (available : Flags) (s : ServerSession Link)

/-- The oldest message of the client. A session that is disconnected discards it. -/
def deliver (p : Peer) : ServerSession Link × Bool :=
  match p.client.session.transport.inFlight with
  | [] => (s, false)
  | msg :: _ =>
    let s' := { s with transport := { s.transport with peer := some p.take } }
    if s.state = .disconnected then (s', false)
    else
      match msg.document with
      | some message => s'.receive mem available (.messages [message] none)
      | none => (s', false)

def sessionStep : SessionOp → ServerSession Link × Bool
  | .sendPart begun =>
    (if s.state = .disconnected then s
      else { s with transport := s.transport.sendPart begun }, false)
  | .sendWhole =>
    (if s.state = .disconnected then s else { s with transport := s.transport.sendWhole }, false)
  | .deliver =>
    match s.transport.peer with
    | some p => s.deliver mem available p
    | none => (s, false)
  | .receive received =>
    if s.state = .disconnected ∨ s.transport.peer.isSome then (s, false)
    else s.receive mem available received
  | .disconnect => (s.disconnect mem, false)
  | .lose reason error =>
    (if s.state = .disconnected then s else s.quickDisconnect reason error, false)

end ServerSession

/-! ## What the messages tell -/

open ClientServerProtocol LabelledPath

/-- What a client knows: it waits for the banner or for the HELLO of the server, or it knows the
last tick and the data that was granted last. -/
inductive View
  | banner
  | hello
  | opened (tick : ℕ) (dataFlags dataUpdateFlags : Flags)
  | closed

/-- The items of a DATA message fit the connections that the server had at the ends of its ticks. -/
def Carries (S : StdSort) (inet : InetText) (ends : List ConnectionMap) (tick : ℕ) (isUpdate : Bool)
    (items : List Value) : Prop :=
  ∃ m m', ends[tick]? = some m' ∧ (isUpdate = true → ∃ t, tick = t + 1 ∧ ends[t]? = some m) ∧
    (isUpdate = false → m = ConnectionMap.empty) ∧ ConnectionList.Replays S inet m m' items

/-- A message that a server sends, and what the client knows before and after it. -/
inductive View.Step (S : StdSort) (inet : InetText) (ends : List ConnectionMap) :
    View → Stamped → View → Prop
  | banner (t : ℕ) : Step S inet ends .banner ⟨createServerMsgBanner, t⟩ .hello
  | hello (info : PeerInfo) (t : ℕ) :
    Step S inet ends .hello ⟨createServerMsgHello info, t⟩ (.opened t 0 0)
  | disconnect (reason : EDisconnectReason) (t : ℕ) (f g : Flags) :
    Step S inet ends (.opened t f g) ⟨createServerMsgDisconnect reason, t⟩ .closed
  | updateTick (t : ℕ) (f g : Flags) : Step S inet ends (.opened t f g)
      ⟨createServerMsgUpdateTick (.ofNat 32 (t + 1)), t + 1⟩ (.opened (t + 1) f g)
  | dataStatus (t : ℕ) (f g f' g' : Flags) :
    Step S inet ends (.opened t f g) ⟨createServerMsgDataStatus f' g', t⟩ (.opened t f' g')
  | data (t : ℕ) {f g : Flags} {isUpdate : Bool} {items : List Value}
    (hf : EDataFlags.connection.test f = true)
    (hg : isUpdate = true → EDataFlags.connection.test g = true)
    (h : Carries S inet ends t isUpdate items) : Step S inet ends (.opened t f g)
      ⟨createServerMsgData EDataFlags.connection isUpdate (.array items), t⟩ (.opened t f g)

/-- A message that a client sends, and whether the server has got its HELLO before and after it. -/
inductive Greets : Bool → SerializedClientMessage → Bool → Prop
  | hello (info : PeerInfo) : Greets false (createClientMsgHello info) true
  | disconnect (reason : EDisconnectReason) : Greets true (createClientMsgDisconnect reason) true
  | requestData (f g : Flags) : Greets true (createClientMsgRequestData f g) true

theorem Greets.eq_true {b b' : Bool} {msg : SerializedClientMessage} (h : Greets b msg b') :
    b' = true := by
  cases h <;> rfl

section

variable {S : StdSort} {inet : InetText} {ends ends' : List ConnectionMap} {v v' : View}
variable {m : Stamped} {ms : List Stamped}

theorem View.Step.mono (h : View.Step S inet ends v m v') (more : List ConnectionMap) :
    View.Step S inet (ends ++ more) v m v' := by
  have hget : ∀ {i : ℕ} {x : ConnectionMap}, ends[i]? = some x → (ends ++ more)[i]? = some x :=
    fun h => (List.getElem?_append_left (List.getElem?_eq_some_iff.mp h).1).trans h
  cases h with
  | banner t => exact .banner t
  | hello info t => exact .hello info t
  | disconnect reason t f g => exact .disconnect reason t f g
  | updateTick t f g => exact .updateTick t f g
  | dataStatus t f g f' g' => exact .dataStatus t f g f' g'
  | data t hf hg h =>
    obtain ⟨x, x', hx', hupdate, hfull, hreplays⟩ := h
    refine .data t hf hg ⟨x, x', hget hx', fun hu => ?_, hfull, hreplays⟩
    obtain ⟨t', ht, hx⟩ := hupdate hu
    exact ⟨t', ht, hget hx⟩

/-- DATA tells a client nothing but the data. -/
theorem View.Step.of_isData (h : View.Step S inet ends v m v') (hm : m.isData = true) : v = v' := by
  cases h with
  | data => rfl
  | _ => exact absurd hm Bool.false_ne_true

/-- A client that knows a tick does not go back to the handshake. -/
theorem opened_of_path {t : ℕ} {f g : Flags}
    (h : Path (View.Step S inet ends) (.opened t f g) ms v) : v ≠ .hello := by
  suffices hopened : v = .closed ∨ ∃ t f g, v = .opened t f g by
    obtain rfl | ⟨t, f, g, rfl⟩ := hopened <;> exact View.noConfusion
  refine h.inv (I := fun v => v = .closed ∨ ∃ t f g, v = .opened t f g) ?_ (.inr ⟨t, f, g, rfl⟩)
  rintro v m v' hstep (rfl | ⟨t, f, g, rfl⟩)
  · cases hstep
  · cases hstep with
    | disconnect => exact .inl rfl
    | _ => exact .inr ⟨_, _, _, rfl⟩

/-! ## Both ends -/

/-- A server session, as far as its client is concerned. -/
structure Sender where
  state : ESessionState
  dataFlags : Flags
  dataUpdateFlags : Flags
  pending : List Stamped

/-- What the client will know when it has got everything: at least all that the server relies
on. -/
def Sender.Serves (version : ℕ) (snd : Sender) (v : View) : Prop :=
  match snd.state with
  | .opening => v = .hello ∧ snd.dataFlags = 0
  | .connected => ∃ f g, v = .opened version f g ∧
      (snd.dataFlags = 0 ∨ snd.dataFlags = f ∧ snd.dataUpdateFlags = g)
  | .closing | .disconnected => True

/-- A server may forget what it has granted. -/
theorem Sender.Serves.forget {version : ℕ} {snd snd' : Sender} {v : View}
    (h : snd.Serves version v) (hstate : snd'.state = snd.state)
    (hflags : snd'.dataFlags = 0 ∨
      snd'.dataFlags = snd.dataFlags ∧ snd'.dataUpdateFlags = snd.dataUpdateFlags) :
    snd'.Serves version v := by
  rw [Sender.Serves] at h ⊢
  rw [hstate]
  cases hs : snd.state with
  | opening =>
    rw [hs] at h
    exact ⟨h.1, hflags.elim id fun heq => heq.1.trans h.2⟩
  | connected =>
    rw [hs] at h
    obtain ⟨f, g, hv, hgranted⟩ := h
    refine ⟨f, g, hv, ?_⟩
    obtain hzero | ⟨hf, hg⟩ := hflags
    · exact .inl hzero
    · rw [hf, hg]
      exact hgranted
  | closing | disconnected => trivial

/-- What a client knows is what its session says. -/
def ClientSession.Sees (cs : ClientSession Uplink) (tick : ℕ) : View → Prop
  | .banner => cs.state = .opening ∧ cs.expectedMsg = .serverBanner
  | .hello => cs.state = .opening ∧ cs.expectedMsg = .serverHello
  | .opened t f g => t = tick ∧ (cs.state = .closing ∨
      cs.state = .connected ∧ cs.dataFlags = f ∧ cs.dataUpdateFlags = g ∧
        (cs.currentTimestamp = 0 ∨ cs.currentTimestamp = .ofNat 32 tick))
  | .closed => False

def ClientSession.requests (cs : ClientSession Uplink) : ℕ :=
  cs.transport.inFlight.countP (·.type = .requestData)

def statuses (pending : List Stamped) : ℕ := pending.countP (·.msg.type = .dataStatus)

/-- Whether an answer to a request is expected, as a number of messages. -/
def ClientSession.awaited (cs : ClientSession Uplink) : ℕ :=
  if cs.expectedMsg = .serverDataStatus then 1 else 0

/-- The client's session and the server's agree, up to what is in flight. -/
structure Flow (S : StdSort) (inet : InetText) (ends : List ConnectionMap) (version : ℕ)
    (snd : Sender) (cs : ClientSession Uplink) (tick : ℕ) : Prop where
  down : cs.state ≠ .disconnected → ∃ v v', cs.Sees tick v ∧
    Path (View.Step S inet ends) v snd.pending v' ∧ snd.Serves version v'
  up : snd.state ≠ .disconnected → ∃ b, Path Greets (decide (snd.state ≠ .opening))
    cs.transport.inFlight b ∧ (cs.state ≠ .disconnected →
      (b = false ↔ cs.state = .opening ∧ cs.expectedMsg = .serverBanner))
  opening : cs.state = .opening → cs.requests = 0 ∧ statuses snd.pending = 0
  expected : cs.state = .connected → cs.expectedMsg = .none ∨ cs.expectedMsg = .serverDataStatus
  inFlight : cs.state = .connected → cs.requests + statuses snd.pending ≤ cs.awaited
  answered : cs.state = .connected → snd.state = .connected →
    cs.requests + statuses snd.pending = cs.awaited

variable {version version' tick : ℕ} {snd snd' : Sender} {cs cs' : ClientSession Uplink}

theorem sees_connected (hs : cs.state = .connected) : cs.Sees tick v ↔
    v = .opened tick cs.dataFlags cs.dataUpdateFlags ∧
      (cs.currentTimestamp = 0 ∨ cs.currentTimestamp = .ofNat 32 tick) := by
  cases v with
  | banner | hello => simp [ClientSession.Sees, hs]
  | opened t f g =>
    rw [ClientSession.Sees, View.opened.injEq, hs]
    constructor
    · rintro ⟨rfl, hc | ⟨-, rfl, rfl, ht⟩⟩
      · exact absurd hc ESessionState.noConfusion
      · exact ⟨⟨rfl, rfl, rfl⟩, ht⟩
    · rintro ⟨⟨rfl, rfl, rfl⟩, ht⟩
      exact ⟨rfl, .inr ⟨rfl, rfl, rfl, ht⟩⟩
  | closed => simp [ClientSession.Sees]

theorem statuses_cons_of_ne (hm : m.msg.type ≠ .dataStatus) : statuses (m :: ms) = statuses ms :=
  List.countP_cons_of_neg (by simpa using hm)

theorem statuses_append (ms ms' : List Stamped) :
    statuses (ms ++ ms') = statuses ms + statuses ms' := List.countP_append

namespace Flow

/-- A client that is disconnected knows nothing. -/
theorem of_disconnected (h : Flow S inet ends version snd cs tick) (hs : cs'.state = .disconnected)
    (ht : cs'.transport = cs.transport) (hstate : snd'.state = snd.state) (tick' : ℕ) :
    Flow S inet ends version snd' cs' tick' where
  down hne := absurd hs hne
  up hne := by
    obtain ⟨b, hpath, -⟩ := h.up (hstate ▸ hne)
    rw [hstate, ht]
    exact ⟨b, hpath, fun hne => absurd hs hne⟩
  opening ho := absurd (hs.symm.trans ho) ESessionState.noConfusion
  expected hc := absurd (hs.symm.trans hc) ESessionState.noConfusion
  inFlight hc := absurd (hs.symm.trans hc) ESessionState.noConfusion
  answered hc := absurd (hs.symm.trans hc) ESessionState.noConfusion

/-! What the client does. -/

theorem requestData (h : Flow S inet ends version snd cs tick) (f g : Flags) :
    Flow S inet ends version snd (cs.requestData f g) tick := by
  rw [ClientSession.requestData]
  split_ifs with hreq
  · obtain ⟨hs, he⟩ := hreq
    have hcount : (({ cs with expectedMsg := .serverDataStatus } : ClientSession Uplink).sendMessage
        (createClientMsgRequestData f g)).requests = cs.requests + 1 := List.countP_append
    have hawaited : cs.awaited = 0 := if_neg (by rw [he]; exact EExpectedMsg.noConfusion)
    refine
      { down := fun hne => ?_
        up := fun hne => ?_
        opening := fun ho => absurd (hs.symm.trans ho) ESessionState.noConfusion
        expected := fun _ => .inr rfl
        inFlight := fun _ => ?_
        answered := fun _ hc => ?_ }
    · obtain ⟨v, v', hsees, hpath, hserves⟩ := h.down hne
      refine ⟨v, v', ?_, hpath, hserves⟩
      exact (sees_connected (by exact hs)).mpr ((sees_connected hs).mp hsees)
    · obtain ⟨b, hpath, hb⟩ := h.up hne
      have hb' : b = true := by
        rw [← Bool.not_eq_false, hb (by rw [hs]; exact ESessionState.noConfusion), hs]
        exact fun hopen => ESessionState.noConfusion hopen.1
      subst hb'
      refine ⟨true, hpath.snoc (.requestData f g), fun _ => ⟨fun ht => Bool.noConfusion ht, ?_⟩⟩
      exact fun hopen => absurd (hs.symm.trans hopen.1) ESessionState.noConfusion
    · have hle := h.inFlight hs
      rw [hcount]
      show _ ≤ 1
      omega
    · have heq := h.answered hs hc
      rw [hcount]
      show _ = 1
      omega
  · exact h

/-- The client's session begins to close. -/
theorem closing (h : Flow S inet ends version snd cs tick) (hs : cs.state = .connected)
    (hs' : cs'.state = .closing) {reason : EDisconnectReason}
    (ht : cs'.transport.inFlight = cs.transport.inFlight ++ [createClientMsgDisconnect reason]) :
    Flow S inet ends version snd cs' tick where
  down _ := by
    obtain ⟨v, v', hsees, hpath, hserves⟩ := h.down (by rw [hs]; exact ESessionState.noConfusion)
    obtain ⟨rfl, -⟩ := (sees_connected hs).mp hsees
    exact ⟨.opened tick cs.dataFlags cs.dataUpdateFlags, v', ⟨rfl, .inl hs'⟩, hpath, hserves⟩
  up hne := by
    obtain ⟨b, hpath, hb⟩ := h.up hne
    have hb' : b = true := by
      rw [← Bool.not_eq_false, hb (by rw [hs]; exact ESessionState.noConfusion), hs]
      exact fun hopen => ESessionState.noConfusion hopen.1
    subst hb'
    rw [ht]
    refine ⟨true, hpath.snoc (.disconnect reason), fun _ => ⟨fun ht => Bool.noConfusion ht, ?_⟩⟩
    exact fun hopen => absurd (hs'.symm.trans hopen.1) ESessionState.noConfusion
  opening ho := absurd (hs'.symm.trans ho) ESessionState.noConfusion
  expected hc := absurd (hs'.symm.trans hc) ESessionState.noConfusion
  inFlight hc := absurd (hs'.symm.trans hc) ESessionState.noConfusion
  answered hc := absurd (hs'.symm.trans hc) ESessionState.noConfusion

/-! What a message does to the client. -/

section

variable {rest : List Stamped} (hp : snd.pending = m :: rest)
include hp

/-- The session of a client that is not disconnected knows enough for the next message. -/
theorem head (h : Flow S inet ends version snd cs tick) (hs : cs.state ≠ .disconnected) :
    ∃ v v' w, cs.Sees tick v ∧ View.Step S inet ends v m v' ∧
      Path (View.Step S inet ends) v' rest w ∧ snd.Serves version w := by
  obtain ⟨v, w, hsees, hpath, hserves⟩ := h.down hs
  rw [hp] at hpath
  obtain ⟨v', hstep, hpath⟩ := cons_iff.mp hpath
  exact ⟨v, v', w, hsees, hstep, hpath, hserves⟩

/-- A message that leaves the client's session where it is. -/
theorem pop (h : Flow S inet ends version snd cs tick) {w : View} (v' : View) (tick' : ℕ)
    (hsees : cs'.Sees tick' v') (hpath : Path (View.Step S inet ends) v' rest w)
    (hserves : snd.Serves version w) (ht : cs'.transport = cs.transport)
    (hstate : cs'.state = cs.state) (hexpected : cs'.expectedMsg = cs.expectedMsg)
    (hm : cs.state = .closing ∨ m.msg.type ≠ .dataStatus) :
    Flow S inet ends version { snd with pending := rest } cs' tick' := by
  have hrequests : cs'.requests = cs.requests := by
    rw [ClientSession.requests, ht]
    rfl
  have hawaited : cs'.awaited = cs.awaited := by
    rw [ClientSession.awaited, ClientSession.awaited, hexpected]
  have hstatuses : cs.state ≠ .closing → statuses snd.pending = statuses rest := by
    intro hne
    rw [hp, statuses_cons_of_ne (hm.resolve_left hne)]
  constructor
  · exact fun _ => ⟨v', w, hsees, hpath, hserves⟩
  · rw [hstate, ht, hexpected]
    exact h.up
  · intro ho
    rw [hstate] at ho
    rw [hrequests, ← hstatuses (by rw [ho]; exact ESessionState.noConfusion)]
    exact h.opening ho
  · rw [hstate, hexpected]
    exact h.expected
  · intro hc
    rw [hstate] at hc
    rw [hrequests, hawaited, ← hstatuses (by rw [hc]; exact ESessionState.noConfusion)]
    exact h.inFlight hc
  · intro hc hsc
    rw [hstate] at hc
    rw [hrequests, hawaited, ← hstatuses (by rw [hc]; exact ESessionState.noConfusion)]
    exact h.answered hc hsc

theorem banner (h : Flow S inet ends version snd cs tick) {w : View} (tick' : ℕ)
    (hs : cs.state = .opening) (he : cs.expectedMsg = .serverBanner)
    (hm : m.msg.type ≠ .dataStatus)
    (hpath : Path (View.Step S inet ends) .hello rest w) (hserves : snd.Serves version w)
    (info : PeerInfo) : Flow S inet ends version { snd with pending := rest }
      (({ cs with expectedMsg := .serverHello } : ClientSession Uplink).sendMessage
        (createClientMsgHello info)) tick' where
  down _ := ⟨.hello, w, ⟨hs, rfl⟩, hpath, hserves⟩
  up hne := by
    obtain ⟨b, hup, hb⟩ := h.up hne
    obtain rfl := (hb (by rw [hs]; exact ESessionState.noConfusion)).mpr ⟨hs, he⟩
    exact ⟨true, hup.snoc (.hello info), fun _ =>
      ⟨fun ht => Bool.noConfusion ht, fun hb => EExpectedMsg.noConfusion hb.2⟩⟩
  opening _ := by
    obtain ⟨hrequests, hstatuses⟩ := h.opening hs
    rw [hp, statuses_cons_of_ne hm] at hstatuses
    exact ⟨(List.countP_append.trans (Nat.add_zero _)).trans hrequests, hstatuses⟩
  expected hc := absurd (hs.symm.trans hc) ESessionState.noConfusion
  inFlight hc := absurd (hs.symm.trans hc) ESessionState.noConfusion
  answered hc := absurd (hs.symm.trans hc) ESessionState.noConfusion

theorem hello (h : Flow S inet ends version snd cs tick) {w : View} (tick' : ℕ)
    (hs : cs.state = .opening) (he : cs.expectedMsg = .serverHello)
    (hm : m.msg.type ≠ .dataStatus)
    (hpath : Path (View.Step S inet ends) (.opened tick' 0 0) rest w)
    (hserves : snd.Serves version w) (server : PeerInfo) :
    Flow S inet ends version { snd with pending := rest } (Client.established cs server) tick' := by
  obtain ⟨hrequests, hstatuses⟩ := h.opening hs
  rw [hp, statuses_cons_of_ne hm] at hstatuses
  have hcount : (Client.established cs server).requests + statuses rest = 0 := by
    rw [hstatuses]
    exact hrequests
  constructor
  · exact fun _ => ⟨.opened tick' 0 0, w, ⟨rfl, .inr ⟨rfl, rfl, rfl, .inl rfl⟩⟩, hpath, hserves⟩
  · intro hne
    obtain ⟨b, hup, hb⟩ := h.up hne
    have hne : cs.state ≠ .disconnected := by rw [hs]; exact ESessionState.noConfusion
    have hb' : b ≠ false := fun hf => EExpectedMsg.noConfusion (he.symm.trans ((hb hne).mp hf).2)
    exact ⟨b, hup, fun _ => ⟨fun hf => absurd hf hb', fun ho => ESessionState.noConfusion ho.1⟩⟩
  · exact fun ho => ESessionState.noConfusion ho
  · exact fun _ => .inl rfl
  · exact fun _ => hcount.le
  · exact fun _ _ => hcount

theorem dataStatus (h : Flow S inet ends version snd cs tick) {w : View} (tick' : ℕ)
    (hs : cs.state = .connected) (hm : m.msg.type = .dataStatus) (f g : Flags)
    (ht : cs.currentTimestamp = 0 ∨ cs.currentTimestamp = .ofNat 32 tick')
    (hpath : Path (View.Step S inet ends) (.opened tick' f g) rest w)
    (hserves : snd.Serves version w) : cs.expectedMsg = .serverDataStatus ∧
      Flow S inet ends version { snd with pending := rest } (Client.granted cs f g) tick' := by
  have hle := h.inFlight hs
  have hstatuses : statuses snd.pending = statuses rest + 1 := by
    rw [hp]
    exact List.countP_cons_of_pos (by simpa using hm)
  have he : cs.expectedMsg = .serverDataStatus := by
    by_contra he
    rw [ClientSession.awaited, if_neg he] at hle
    omega
  have hawaited : cs.awaited = 1 := if_pos he
  have hcount : (Client.granted cs f g).requests + statuses rest = 0 := by
    show cs.requests + _ = 0
    omega
  refine ⟨he, ?_⟩
  constructor
  · exact fun _ => ⟨.opened tick' f g, w, ⟨rfl, .inr ⟨hs, rfl, rfl, ht⟩⟩, hpath, hserves⟩
  · intro hne
    obtain ⟨b, hup, hb⟩ := h.up hne
    refine ⟨b, hup, fun hne => (hb hne).trans ?_⟩
    exact ⟨fun ho => absurd (hs.symm.trans ho.1) ESessionState.noConfusion,
      fun ho => absurd (hs.symm.trans ho.1) ESessionState.noConfusion⟩
  · exact fun ho => absurd (hs.symm.trans ho) ESessionState.noConfusion
  · exact fun _ => .inl rfl
  · exact fun _ => hcount.le
  · exact fun _ _ => hcount

end

/-! What the server does. -/

theorem sends (h : Flow S inet ends version snd cs tick)
    (hpath : ∀ v w, Path (View.Step S inet ends) v snd.pending w → snd.Serves version w →
      ∃ w', Path (View.Step S inet ends') v snd'.pending w' ∧ snd'.Serves version' w')
    (hstate : snd'.state ≠ .disconnected →
      snd.state ≠ .disconnected ∧ (snd'.state = .opening ↔ snd.state = .opening))
    (hle : statuses snd'.pending ≤ statuses snd.pending)
    (hanswered : snd'.state = .connected →
      snd.state = .connected ∧ statuses snd'.pending = statuses snd.pending) :
    Flow S inet ends' version' snd' cs tick where
  down hne := by
    obtain ⟨v, w, hsees, hpath', hserves⟩ := h.down hne
    obtain ⟨w', hpath', hserves'⟩ := hpath v w hpath' hserves
    exact ⟨v, w', hsees, hpath', hserves'⟩
  up hne := by
    obtain ⟨hne, hopen⟩ := hstate hne
    rw [decide_eq_decide.mpr (not_congr hopen)]
    exact h.up hne
  opening ho := ⟨(h.opening ho).1, Nat.le_zero.mp (hle.trans (h.opening ho).2.le)⟩
  expected := h.expected
  inFlight hc := (Nat.add_le_add_left hle _).trans (h.inFlight hc)
  answered hc hsc := by
    obtain ⟨hsc, heq⟩ := hanswered hsc
    rw [heq]
    exact h.answered hc hsc

section

variable {msg : SerializedClientMessage} {rest : List SerializedClientMessage}
variable (hu : cs.transport.inFlight = msg :: rest)
include hu

theorem upHead (h : Flow S inet ends version snd cs tick) (hs : snd.state ≠ .disconnected) :
    ∃ b, Greets (decide (snd.state ≠ .opening)) msg true ∧ Path Greets true rest b ∧
      (cs.state ≠ .disconnected →
        (b = false ↔ cs.state = .opening ∧ cs.expectedMsg = .serverBanner)) := by
  obtain ⟨b, hpath, hb⟩ := h.up hs
  rw [hu] at hpath
  obtain ⟨b', hstep, hpath⟩ := cons_iff.mp hpath
  obtain rfl := hstep.eq_true
  exact ⟨b, hstep, hpath, hb⟩

theorem requests_take : cs.requests =
    cs.take.requests + if msg.type = .requestData then 1 else 0 := by
  rw [ClientSession.requests, ClientSession.requests, ClientSession.take, hu, List.countP_cons]
  simp

/-- The server ignores a message while it closes, and discards it when it is disconnected. -/
theorem ignored (h : Flow S inet ends version snd cs tick)
    (hs : snd.state = .closing ∨ snd.state = .disconnected) :
    Flow S inet ends version snd cs.take tick where
  down := h.down
  up hne := by
    have hclosing := hs.resolve_right hne
    obtain ⟨b, -, hpath, hb⟩ := h.upHead hu hne
    rw [hclosing, ClientSession.take, hu]
    exact ⟨b, hpath, hb⟩
  opening ho := by
    have hrequests := requests_take hu
    obtain ⟨hzero, hstatuses⟩ := h.opening ho
    exact ⟨by omega, hstatuses⟩
  expected := h.expected
  inFlight hc := by
    have hrequests := requests_take hu
    have hle := h.inFlight hc
    show _ ≤ cs.awaited
    omega
  answered _ hsc := by
    obtain hs | hs := hs <;> exact absurd (hs.symm.trans hsc) ESessionState.noConfusion

/-- The server answers a HELLO. -/
theorem accepted (h : Flow S inet ends version snd cs tick) (hs : snd.state = .opening)
    (info : PeerInfo) :
    Flow S inet ends version { snd with
      state := .connected
      pending := snd.pending ++ [⟨createServerMsgHello info, version⟩] } cs.take tick := by
  have hne : snd.state ≠ .disconnected := by rw [hs]; exact ESessionState.noConfusion
  have hpending : cs.state ≠ .connected := by
    intro hc
    obtain ⟨v, w, hsees, hpath, hserves⟩ := h.down (by rw [hc]; exact ESessionState.noConfusion)
    rw [Sender.Serves, hs] at hserves
    obtain ⟨rfl, -⟩ := (sees_connected hc).mp hsees
    exact opened_of_path hpath hserves.1
  constructor
  · intro hcs
    obtain ⟨v, w, hsees, hpath, hserves⟩ := h.down hcs
    rw [Sender.Serves, hs] at hserves
    obtain ⟨rfl, hflags⟩ := hserves
    exact ⟨v, _, hsees, hpath.snoc (.hello info version), 0, 0, rfl, .inl hflags⟩
  · intro _
    obtain ⟨b, -, hpath, hb⟩ := h.upHead hu hne
    rw [ClientSession.take, hu]
    exact ⟨b, hpath, hb⟩
  · intro ho
    have hrequests := requests_take hu
    obtain ⟨hzero, hstatuses⟩ := h.opening ho
    refine ⟨by omega, ?_⟩
    rw [statuses_append, hstatuses]
    rfl
  · exact fun hc => absurd hc hpending
  · exact fun hc => absurd hc hpending
  · exact fun hc => absurd hc hpending

/-- The server answers a request. -/
theorem granted (h : Flow S inet ends version snd cs tick) (hs : snd.state = .connected)
    (hm : msg.type = .requestData) (f g : Flags) :
    Flow S inet ends version { snd with
      dataFlags := f
      dataUpdateFlags := g
      pending := snd.pending ++ [⟨createServerMsgDataStatus f g, version⟩] } cs.take tick := by
  have hne : snd.state ≠ .disconnected := by rw [hs]; exact ESessionState.noConfusion
  have hrequests := requests_take hu
  rw [if_pos hm] at hrequests
  have hstatuses : statuses (snd.pending ++ [⟨createServerMsgDataStatus f g, version⟩]) =
      statuses snd.pending + 1 := statuses_append _ _
  constructor
  · intro hcs
    obtain ⟨v, w, hsees, hpath, hserves⟩ := h.down hcs
    rw [Sender.Serves, hs] at hserves
    obtain ⟨f', g', rfl, -⟩ := hserves
    refine ⟨v, _, hsees, hpath.snoc (.dataStatus version f' g' f g), ?_⟩
    rw [Sender.Serves, hs]
    exact ⟨f, g, rfl, .inr ⟨rfl, rfl⟩⟩
  · intro _
    obtain ⟨b, -, hpath, hb⟩ := h.upHead hu hne
    rw [hs, ClientSession.take, hu]
    exact ⟨b, hpath, hb⟩
  · intro ho
    obtain ⟨hzero, -⟩ := h.opening ho
    omega
  · exact h.expected
  · intro hc
    have hle := h.inFlight hc
    rw [hstatuses]
    show _ ≤ cs.awaited
    omega
  · intro hc hsc
    have heq := h.answered hc hsc
    rw [hstatuses]
    show _ = cs.awaited
    omega

end

end Flow

end

end Conntop
