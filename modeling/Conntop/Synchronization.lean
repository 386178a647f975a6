import Conntop.Channel

/-!
# Synchronization of a client

`Held`: what a connected client holds of the connections of the server. While it waits for the data
of a tick (`m_remainingDataFlags`) and is synchronized, it has the connections of the end of the
tick before; when it has the data, those of the end of this one.

Main results: what the callbacks of the session keep of it, and `onSessionData_held`, the
connections that a client has when it has applied a DATA message are those of the server.
-/

namespace Conntop

open ClientServerProtocol

/-- What a connected client holds, when the last tick that it got is `tick`. -/
structure Held (ends : List ConnectionMap) (tick : ℕ) (c : Client Uplink) : Prop where
  requested : c.requestedDataFlags = 0 ∨ c.requestedDataFlags = EDataFlags.connection
  remaining : c.remainingDataFlags = 0 ∨ c.remainingDataFlags = EDataFlags.connection
  waiting : c.remainingDataFlags ≠ 0 →
    c.session.expectedMsg = .none ∧ c.session.currentTimestamp = .ofNat 32 tick
  current : c.isSynchronized = true → c.remainingDataFlags = 0 → c.requestedDataFlags ≠ 0 →
    ends[tick]? = some c.connectionList.storage.connections
  previous : c.isSynchronized = true → c.remainingDataFlags ≠ 0 →
    ∃ t, tick = t + 1 ∧ ends[t]? = some c.connectionList.storage.connections

namespace Client

/-- The guard of `onSessionData`. -/
def IsWanted (c : Client Uplink) (type : Flags) (isUpdate : Bool) : Prop :=
  (isUpdate = true → c.isSynchronized = true) ∧ type.test c.remainingDataFlags = true ∧
    c.isPaused = false

/-- The message is DATA of connections that passes every check, so the client applies it. -/
def Applies (c : Client Uplink) (message : Value) : Prop :=
  msgType message = .ok .data ∧ c.session.state = .connected ∧
    ∃ type isUpdate data, c.checkData message = .ok (type, isUpdate, data) ∧
      type.test EDataFlags.connection = true ∧ c.IsWanted type isUpdate

variable {S : StdSort} {inet : InetText} {ends : List ConnectionMap} {tick : ℕ}
variable {c : Client Uplink}

theorem requestData_held (h : Held ends tick c) (hr : c.remainingDataFlags = 0) :
    Held ends tick c.requestData :=
  { h with
    waiting := fun hne => absurd hr hne
    previous := fun _ hne => absurd hr hne }

theorem onSessionEstablished_held (ends : List ConnectionMap) (tick : ℕ) (c : Client Uplink) :
    Held ends tick c.onSessionEstablished where
  requested := .inr rfl
  remaining := .inl rfl
  waiting hne := absurd rfl hne
  current hsync := Bool.noConfusion hsync
  previous hsync := Bool.noConfusion hsync

/-- `currentTimestamp` is already that of the tick. -/
theorem onSessionServerTick_held (h : Held ends tick c)
    (hexpected : c.session.expectedMsg = .none ∨ c.session.expectedMsg = .serverDataStatus) :
    Held ends (tick + 1)
      { c with session := ticked c.session (.ofNat 32 (tick + 1)) }.onSessionServerTick := by
  rw [onSessionServerTick]
  dsimp only
  split_ifs with hr hp hw
  · -- the data of the last tick did not come
    exact
      { requested := h.requested
        remaining := .inl rfl
        waiting := fun hne => absurd rfl hne
        current := fun hsync => Bool.noConfusion hsync
        previous := fun hsync => Bool.noConfusion hsync }
  · exact
      { requested := h.requested
        remaining := .inl rfl
        waiting := fun hne => absurd rfl hne
        current := fun hsync => Bool.noConfusion hsync
        previous := fun hsync => Bool.noConfusion hsync }
  · exact
      { requested := h.requested
        remaining := h.remaining
        waiting := fun hne => absurd hne hr
        current := fun hsync => Bool.noConfusion hsync
        previous := fun hsync => Bool.noConfusion hsync }
  · have hnone : c.session.expectedMsg = .none := hexpected.resolve_right fun he => hw (.inl he)
    exact
      { requested := h.requested
        remaining := h.requested
        waiting := fun _ => ⟨hnone, rfl⟩
        current := fun _ hzero hne => absurd hzero hne
        previous := fun hsync hne => ⟨tick, rfl, h.current hsync (not_not.mp hr) hne⟩ }

theorem and_connection (f : Flags) :
    EDataFlags.connection &&& f = 0 ∨ EDataFlags.connection &&& f = EDataFlags.connection := by
  have h1 : EDataFlags.connection = 1#32 := rfl
  rw [BitVec.and_comm, h1, BitVec.and_one_eq_setWidth_ofBool_getLsbD]
  cases f.getLsbD 0 with
  | false => exact .inl rfl
  | true => exact .inr rfl

theorem onSessionDataStatus_held (h : Held ends tick c)
    (hexpected : c.session.expectedMsg = .serverDataStatus) (f g : Flags) :
    Held ends tick { c with session := granted c.session f g }.onSessionDataStatus := by
  have hr : c.remainingDataFlags = 0 := by
    by_contra hne
    exact EExpectedMsg.noConfusion ((h.waiting hne).1.symm.trans hexpected)
  have hrequested : c.requestedDataFlags &&& f = 0 ∨
      c.requestedDataFlags &&& f = EDataFlags.connection := by
    obtain hzero | hconn := h.requested
    · rw [hzero]
      exact .inl BitVec.zero_and
    · rw [hconn]
      exact and_connection f
  have hc : ∀ g', Held ends tick { c with
      session := granted c.session f g
      requestedDataFlags := c.requestedDataFlags &&& f
      requestedDataUpdateFlags := g' } := fun g' =>
    { requested := hrequested
      remaining := h.remaining
      waiting := fun hne => absurd hr hne
      current := fun hsync hzero hne =>
        h.current hsync hzero fun hf => hne (by rw [hf]; exact BitVec.zero_and)
      previous := fun _ hne => absurd hr hne }
  rw [onSessionDataStatus]
  dsimp only
  split_ifs
  · exact requestData_held (hc 0) hr
  · exact hc _

/-- Data that is not wanted is ignored. -/
theorem onSessionData_ignored {isUpdate : Bool} {data : Value}
    (h : ¬c.IsWanted EDataFlags.connection isUpdate) :
    c.onSessionData S inet EDataFlags.connection isUpdate data = (c, none) := by
  rw [onSessionData, if_pos]
  by_contra hg
  simp only [Bool.or_eq_true, Bool.and_eq_true, Bool.not_eq_true', not_or, not_and,
    Bool.not_eq_false, Bool.not_eq_true] at hg
  exact h ⟨hg.1.1, hg.1.2, hg.2⟩

/-- Data that is wanted is put into the list. -/
theorem onSessionData_wanted {isUpdate : Bool} {items : List Value}
    (h : c.IsWanted EDataFlags.connection isUpdate) {list : ConnectionList}
    (hlist : list = if isUpdate then c.connectionList else c.connectionList.clear)
    (hok : (ConnectionList.deserializeItems S inet items list).2 = .ok ()) :
    c.onSessionData S inet EDataFlags.connection isUpdate (.array items) =
      ({ c with
        connectionList := (ConnectionList.deserializeItems S inet items list).1
        remainingDataFlags := c.remainingDataFlags &&& ~~~EDataFlags.connection
        }.onDataDeserialized, none) := by
  obtain ⟨hsync, htype, hpaused⟩ := h
  rw [onSessionData, if_neg, if_pos (by decide)]
  · simp only [Value.getArray, ← hlist]
    rw [← Prod.mk.eta (p := ConnectionList.deserializeItems S inet items list), hok]
  · simp only [Bool.or_eq_true, Bool.and_eq_true, Bool.not_eq_true', htype, hpaused]
    rintro ((⟨hu, hno⟩ | hno) | hno)
    · exact Bool.noConfusion (hno.symm.trans (hsync hu))
    · exact Bool.noConfusion hno
    · exact Bool.noConfusion hno

/-- **Data that is applied** makes the connections of the client those of the server. -/
theorem onSessionData_held (h : Held ends tick c) (hl : c.connectionList.Inv) {isUpdate : Bool}
    {items : List Value} (hcarries : Carries S inet ends tick isUpdate items) :
    let r := c.onSessionData S inet EDataFlags.connection isUpdate (.array items)
    r.2 = none ∧ Held ends tick r.1 ∧ r.1.connectionList.Inv ∧
      (c.IsWanted EDataFlags.connection isUpdate →
        ends[tick]? = some r.1.connectionList.storage.connections ∧
          c.session.currentTimestamp = .ofNat 32 tick) := by
  intro r
  by_cases hw : c.IsWanted EDataFlags.connection isUpdate
  · -- the message leads from `m` to `m'`, which is the table of the tick
    obtain ⟨m, m', hm', hupdate, hfull, hreplays⟩ := hcarries
    have hne : c.remainingDataFlags ≠ 0 := by
      intro hzero
      have ht := hw.2.1
      rw [hzero] at ht
      exact Bool.noConfusion ht
    have hremaining : c.remainingDataFlags = EDataFlags.connection := h.remaining.resolve_left hne
    -- the client starts from `m`: a refill from nothing, an update from the tick before
    have hbase : ∃ list : ConnectionList,
        (list = if isUpdate then c.connectionList else c.connectionList.clear) ∧ list.Inv ∧
          list.storage.connections = m := by
      cases isUpdate with
      | false => exact ⟨_, rfl, .clear _,
          (ConnectionList.clear_connections _).trans (hfull rfl).symm⟩
      | true =>
        refine ⟨_, rfl, hl, ?_⟩
        obtain ⟨t, ht, hprev⟩ := h.previous (hw.1 rfl) hne
        obtain ⟨t', ht', hm⟩ := hupdate rfl
        obtain rfl : t = t' := Nat.succ.inj (ht.symm.trans ht')
        exact Option.some.inj (hprev.symm.trans hm)
    obtain ⟨list, hlist, hinv, hm⟩ := hbase
    obtain ⟨hok, hinv', hconn⟩ := hreplays list hinv hm
    have hr : r = _ := onSessionData_wanted hw hlist hok
    rw [hremaining, show EDataFlags.connection &&& ~~~EDataFlags.connection = 0 by decide,
      onDataDeserialized, if_pos rfl] at hr
    -- nothing is waited for any more
    have hheld : ∀ sync g, Held ends tick { c with
        connectionList := (ConnectionList.deserializeItems S inet items list).1
        remainingDataFlags := 0
        isSynchronized := sync
        requestedDataUpdateFlags := g } := fun sync g =>
      { requested := h.requested
        remaining := .inl rfl
        waiting := fun hne => absurd rfl hne
        current := fun _ _ _ => by rw [hm', ← hconn]
        previous := fun _ hne => absurd rfl hne }
    have hwait := (h.waiting hne).2
    split_ifs at hr <;> rw [hr]
    · exact ⟨rfl, requestData_held (hheld _ _) rfl, hinv', fun _ =>
        ⟨by rw [hm', ← hconn]; rfl, hwait⟩⟩
    · exact ⟨rfl, requestData_held (hheld _ _) rfl, hinv', fun _ =>
        ⟨by rw [hm', ← hconn]; rfl, hwait⟩⟩
  · -- the client does not want it
    have hr : r = (c, none) := onSessionData_ignored hw
    rw [hr]
    exact ⟨rfl, h, hl, fun hwanted => absurd hwanted hw⟩

theorem setPaused_held (h : Held ends tick c) (paused : Bool) :
    Held ends tick (c.setPaused paused) := by
  have hc : Held ends tick { c with isPaused := paused } := { h with }
  rw [setPaused]
  dsimp only
  split_ifs with hp hr
  · exact h
  · exact requestData_held hc hr.2.1
  · exact hc

@[simp] theorem onSessionServerTick_connectionList (c : Client Uplink) :
    c.onSessionServerTick.connectionList = c.connectionList := by
  rw [onSessionServerTick]
  dsimp only
  split_ifs <;> rfl

@[simp] theorem onSessionDataStatus_connectionList (c : Client Uplink) :
    c.onSessionDataStatus.connectionList = c.connectionList := by
  rw [onSessionDataStatus]
  dsimp only
  split_ifs <;> rfl

/-! ## Requests -/

/-- How many requests for data a client has sent. -/
def sentRequests (c : Client Uplink) : ℕ :=
  c.session.transport.sent.countP (·.type = .requestData)

/-- `c'` is `c` after a callback of the session: it may have sent a request. -/
structure AsksOnly (c c' : Client Uplink) : Prop where
  session : c'.session = c.session ∨ ∃ f g, c'.session = c.session.requestData f g
  connector : c'.connector = c.connector
  isPaused : c'.isPaused = c.isPaused

theorem AsksOnly.refl (c : Client Uplink) : c.AsksOnly c := ⟨.inl rfl, rfl, rfl⟩

theorem AsksOnly.session_fields {c c' : Client Uplink} (h : c.AsksOnly c') :
    c'.session.state = c.session.state ∧
      c'.session.currentTimestamp = c.session.currentTimestamp := by
  obtain hs | ⟨f, g, hs⟩ := h.session
  · rw [hs]
    exact ⟨rfl, rfl⟩
  · rw [hs, ClientSession.requestData]
    split_ifs <;> exact ⟨rfl, rfl⟩

theorem requestData_asks (c : Client Uplink) : c.AsksOnly c.requestData :=
  ⟨.inr ⟨_, _, rfl⟩, rfl, rfl⟩

theorem onSessionEstablished_asks (c : Client Uplink) : c.AsksOnly c.onSessionEstablished :=
  ⟨.inr ⟨_, _, rfl⟩, rfl, rfl⟩

theorem onSessionServerTick_asks (c : Client Uplink) : c.AsksOnly c.onSessionServerTick := by
  rw [onSessionServerTick]
  dsimp only
  split_ifs
  · exact ⟨.inl rfl, rfl, rfl⟩
  · exact ⟨.inr ⟨_, _, rfl⟩, rfl, rfl⟩
  · exact ⟨.inl rfl, rfl, rfl⟩
  · exact ⟨.inl rfl, rfl, rfl⟩

theorem onSessionDataStatus_asks (c : Client Uplink) : c.AsksOnly c.onSessionDataStatus := by
  rw [onSessionDataStatus]
  dsimp only
  split_ifs
  · exact ⟨.inr ⟨_, _, rfl⟩, rfl, rfl⟩
  · exact ⟨.inl rfl, rfl, rfl⟩

theorem onDataDeserialized_asks (c : Client Uplink) : c.AsksOnly c.onDataDeserialized := by
  rw [onDataDeserialized]
  split_ifs
  · exact requestData_asks c
  · exact ⟨.inr ⟨_, _, rfl⟩, rfl, rfl⟩
  · exact .refl c

theorem onSessionData_asks (S : StdSort) (inet : InetText) (c : Client Uplink) (type : Flags)
    (isUpdate : Bool) (data : Value) :
    c.AsksOnly (c.onSessionData S inet type isUpdate data).1 := by
  rw [onSessionData]
  split
  · exact .refl c
  · split
    · cases data.getArray with
      | none => exact .refl c
      | some items =>
        dsimp only
        split
        · exact ⟨.inl rfl, rfl, rfl⟩
        · exact ⟨(onDataDeserialized_asks _).session, (onDataDeserialized_asks _).connector,
            (onDataDeserialized_asks _).isPaused⟩
    · exact .refl c

theorem sentRequests_of_requestData (s : ClientSession Uplink) (f g : Flags) :
    s.transport.sent.countP (·.type = .requestData) ≤
      (s.requestData f g).transport.sent.countP (·.type = .requestData) := by
  rw [ClientSession.requestData]
  split_ifs
  · exact (Nat.le_add_right _ _).trans List.countP_append.ge
  · exact le_rfl

theorem AsksOnly.sentRequests_le {c c' : Client Uplink} (h : c.AsksOnly c') :
    c.sentRequests ≤ c'.sentRequests := by
  rw [sentRequests, sentRequests]
  obtain hs | ⟨f, g, hs⟩ := h.session
  · rw [hs]
  · rw [hs]
    exact sentRequests_of_requestData _ f g

/-- A request goes out when the session is connected and no answer is expected. -/
theorem sentRequests_requestData (hs : c.session.state = .connected)
    (he : c.session.expectedMsg = .none) : c.sentRequests < c.requestData.sentRequests := by
  have hsent : c.requestData.sentRequests = c.sentRequests + 1 := by
    rw [sentRequests, requestData, ClientSession.requestData, if_pos ⟨hs, he⟩]
    exact List.countP_append
  rw [hsent]
  exact Nat.lt_succ_self _

/-- At a tick a client that is not paused asks for data, or it waits for what it asked for. -/
theorem onSessionServerTick_asks_or_waits (hs : c.session.state = .connected)
    (hp : c.isPaused = false) (he : c.session.expectedMsg = .none) :
    c.sentRequests < c.onSessionServerTick.sentRequests ∨ c.remainingDataFlags = 0 ∧
      c.onSessionServerTick.remainingDataFlags = c.onSessionServerTick.requestedDataFlags := by
  rw [onSessionServerTick]
  dsimp only
  split_ifs with hr hpaused hw
  · exact absurd (hp.symm.trans hpaused) Bool.false_ne_true
  · exact .inl (sentRequests_requestData (c := { c with
      remainingDataFlags := 0, requestedDataUpdateFlags := 0, isSynchronized := false }) hs he)
  · obtain hw | hw := hw
    · exact absurd (he.symm.trans hw) EExpectedMsg.noConfusion
    · exact absurd (hp.symm.trans hw) Bool.false_ne_true
  · exact .inr ⟨not_not.mp hr, rfl⟩

@[simp] theorem onSessionDataStatus_remainingDataFlags (c : Client Uplink) :
    c.onSessionDataStatus.remainingDataFlags = c.remainingDataFlags := by
  rw [onSessionDataStatus]
  dsimp only
  split_ifs <;> rfl

/-- A client that has got all data that it waited for asks for more. -/
theorem onDataDeserialized_asks_or_waits (hs : c.session.state = .connected)
    (he : c.session.expectedMsg = .none) : c.onDataDeserialized.remainingDataFlags ≠ 0 ∨
      c.sentRequests < c.onDataDeserialized.sentRequests := by
  rw [onDataDeserialized]
  split_ifs with hr
  · exact .inr (sentRequests_requestData hs he)
  · exact .inr (sentRequests_requestData (c := { c with
      isSynchronized := true, requestedDataUpdateFlags := c.requestedDataFlags }) hs he)
  · exact .inl hr

theorem onSessionData_asks_or_waits (hs : c.session.state = .connected)
    (he : c.session.expectedMsg = .none) (hr : c.remainingDataFlags ≠ 0) (type : Flags)
    (isUpdate : Bool) (data : Value) :
    let c' := (c.onSessionData S inet type isUpdate data).1
    c'.remainingDataFlags ≠ 0 ∨ c.sentRequests < c'.sentRequests := by
  intro c'
  show (c.onSessionData S inet type isUpdate data).1.remainingDataFlags ≠ 0 ∨
    _ < (c.onSessionData S inet type isUpdate data).1.sentRequests
  rw [onSessionData]
  split
  · exact .inl hr
  · split
    · cases data.getArray with
      | none => exact .inl hr
      | some items =>
        dsimp only
        split
        · exact .inl hr
        · exact onDataDeserialized_asks_or_waits (by exact hs) (by exact he)
    · exact .inl hr

end Client

/-- A session goes through its states in this order. -/
def ESessionState.stage : ESessionState → ℕ
  | .opening => 0
  | .connected => 1
  | .closing => 2
  | .disconnected => 3

/-- The client is connected and not paused. -/
def Moment.IsActive (m : Moment) : Prop :=
  m.before.session.state = .connected ∧ m.after.session.state = .connected ∧
    m.before.isPaused = false ∧ m.after.isPaused = false

/-- What a client does about data at a moment: it waits for the data of a tick until it asks
again. -/
structure Moment.Asks (m : Moment) : Prop where
  stage : m.before.session.state.stage ≤ m.after.session.state.stage
  mono : m.before.sentRequests ≤ m.after.sentRequests
  expected : m.before.session.state = .connected →
    m.before.session.expectedMsg = .none ∨ m.before.session.expectedMsg = .serverDataStatus
  keeps : m.IsActive → m.isTick = false → m.before.remainingDataFlags ≠ 0 →
    m.after.remainingDataFlags ≠ 0 ∨ m.before.sentRequests < m.after.sentRequests
  ticks : m.IsActive → m.isTick = true → m.before.session.expectedMsg = .none →
    m.before.sentRequests < m.after.sentRequests ∨ m.before.remainingDataFlags = 0 ∧
      m.after.remainingDataFlags = m.after.requestedDataFlags

/-- The moments of a client follow each other. -/
def Moment.Leads (c : Client Uplink) (m : Moment) (c' : Client Uplink) : Prop :=
  m.before = c ∧ m.after = c' ∧ m.Asks

/-- A client and the messages between it and its session are as they should be. -/
structure Peer.Sound (S : StdSort) (inet : InetText) (ends : List ConnectionMap) (version : ℕ)
    (snd : Sender) (p : Peer) : Prop where
  flow : Flow S inet ends version snd p.client.session p.lastTick
  held : p.client.session.state = .connected → Held ends p.lastTick p.client
  list : p.client.connectionList.Inv
  connector : p.client.connector = none
  past : ∃ c, LabelledPath.Path Moment.Leads c p.past p.client

/-- What holds of a client after it has done something. -/
structure Client.Becomes (S : StdSort) (inet : InetText) (ends : List ConnectionMap) (version : ℕ)
    (snd : Sender) (tick : ℕ) (isTick : Bool) (c c' : Client Uplink) : Prop where
  flow : Flow S inet ends version snd c'.session tick
  held : c'.session.state = .connected → Held ends tick c'
  list : c'.connectionList.Inv
  connector : c'.connector = none
  asks : Moment.Asks ⟨isTick, c, c'⟩

section

variable {S : StdSort} {inet : InetText} {ends : List ConnectionMap} {version tick : ℕ}
variable {snd snd' : Sender} {p : Peer} {c c' : Client Uplink} {isTick : Bool}

theorem Peer.Sound.act (h : p.Sound S inet ends version snd) {f : Client Uplink → Client Uplink}
    (hf : p.client.Becomes S inet ends version snd' tick isTick (f p.client)) :
    Peer.Sound S inet ends version snd' { p.act f isTick with lastTick := tick } := by
  obtain ⟨c, hpast⟩ := h.past
  exact ⟨hf.flow, hf.held, hf.list, hf.connector, c, hpast.snoc ⟨rfl, rfl, hf.asks⟩⟩

/-- A client that is disconnected by what it does. -/
theorem Peer.Sound.becomes_disconnected (h : p.Sound S inet ends version snd)
    (hs : c'.session.state = .disconnected)
    (ht : c'.session.transport = p.client.session.transport)
    (hl : c'.connectionList = p.client.connectionList) (hk : c'.connector = none)
    (hsnd : snd'.state = snd.state) (tick : ℕ) (isTick : Bool) :
    p.client.Becomes S inet ends version snd' tick isTick c' where
  flow := h.flow.of_disconnected hs ht hsnd tick
  held hc := absurd (hs.symm.trans hc) ESessionState.noConfusion
  list := hl ▸ h.list
  connector := hk
  asks :=
    { stage := by
        show _ ≤ c'.session.state.stage
        rw [hs]
        cases p.client.session.state <;> decide
      mono := by
        rw [Client.sentRequests, Client.sentRequests]
        show List.countP _ p.client.session.transport.sent ≤ List.countP _ c'.session.transport.sent
        rw [ht]
      expected := h.flow.expected
      keeps := fun hactive => absurd (hs.symm.trans hactive.2.1) ESessionState.noConfusion
      ticks := fun hactive => absurd (hs.symm.trans hactive.2.1) ESessionState.noConfusion }

theorem Client.quickDisconnect_eq (h : c.connector = none) (reason : EDisconnectReason)
    (error : String) : c.quickDisconnect reason error =
      { c with
        session := c.session.quickDisconnect reason error
        isSynchronized := false
        isDataRequested := false } := by
  rw [Client.quickDisconnect, Client.onSessionDisconnect]
  simp only [h]

theorem Peer.Sound.lose (h : p.Sound S inet ends version snd) (reason : EDisconnectReason)
    (error : String) : p.client.Becomes S inet ends version snd p.lastTick false
      (p.client.quickDisconnect reason error) := by
  rw [Client.quickDisconnect_eq h.connector]
  apply h.becomes_disconnected
  · rfl
  · rfl
  · rfl
  · exact h.connector
  · rfl

/-- Outside of a connection nothing is asked for. -/
theorem Moment.asks_of_ne {m : Moment} (hs : m.before.session.state ≠ .connected)
    (hstage : m.before.session.state.stage ≤ m.after.session.state.stage)
    (hmono : m.before.sentRequests ≤ m.after.sentRequests) : m.Asks where
  stage := hstage
  mono := hmono
  expected hc := absurd hc hs
  keeps hactive := absurd hactive.1 hs
  ticks hactive := absurd hactive.1 hs

theorem Flow.asks (h : Flow S inet ends version snd c.session tick) (ha : c.AsksOnly c') :
    Flow S inet ends version snd c'.session tick := by
  obtain hs | ⟨f, g, hs⟩ := ha.session
  · rw [hs]
    exact h
  · rw [hs]
    exact h.requestData f g

/-- A client that closes its session ignores a message. -/
theorem Peer.Sound.ignores (h : p.Sound S inet ends version snd) {m : Stamped}
    {rest : List Stamped} (hp : snd.pending = m :: rest) (hs : p.client.session.state = .closing)
    {f g : Flags} {w : View}
    (hpath : LabelledPath.Path (View.Step S inet ends) (.opened m.tick f g) rest w)
    (hserves : snd.Serves version w) (isTick : Bool) :
    p.client.Becomes S inet ends version { snd with pending := rest } m.tick isTick p.client where
  flow := h.flow.pop hp (.opened m.tick f g) m.tick ⟨rfl, .inl hs⟩ hpath hserves rfl rfl rfl
    (.inl hs)
  held hc := absurd (hs.symm.trans hc) ESessionState.noConfusion
  list := h.list
  connector := h.connector
  asks := Moment.asks_of_ne (fun hc => ESessionState.noConfusion (hs.symm.trans hc)) le_rfl
    le_rfl

namespace Peer.Sound

section

variable {m : Stamped} {rest : List Stamped} {w : View} (hp : snd.pending = m :: rest)
variable (h : p.Sound S inet ends version snd)
include hp h

theorem gets_banner (isTick : Bool) (hm : m.msg = createServerMsgBanner)
    (hs : p.client.session.state = .opening)
    (he : p.client.session.expectedMsg = .serverBanner)
    (hpath : LabelledPath.Path (View.Step S inet ends) .hello rest w)
    (hserves : snd.Serves version w) : p.client.Becomes S inet ends version
      { snd with pending := rest } m.tick isTick p.client.helloSent where
  flow := h.flow.banner hp m.tick hs he (by rw [hm]; exact EServerMsg.noConfusion) hpath hserves _
  held hc := absurd (hs.symm.trans hc) ESessionState.noConfusion
  list := h.list
  connector := h.connector
  asks := Moment.asks_of_ne (fun hc => ESessionState.noConfusion (hs.symm.trans hc)) le_rfl
    ((Nat.le_add_right _ _).trans List.countP_append.ge)

theorem gets_hello (isTick : Bool) {info : PeerInfo} (hm : m.msg = createServerMsgHello info)
    (hs : p.client.session.state = .opening) (he : p.client.session.expectedMsg = .serverHello)
    (hpath : LabelledPath.Path (View.Step S inet ends) (.opened m.tick 0 0) rest w)
    (hserves : snd.Serves version w) (server : PeerInfo) :
    p.client.Becomes S inet ends version { snd with pending := rest } m.tick isTick
      { p.client with
        session := Client.established p.client.session server }.onSessionEstablished := by
  have hne : m.msg.type ≠ .dataStatus := by
    rw [hm]
    exact EServerMsg.noConfusion
  have hflow := h.flow.hello hp m.tick hs he hne hpath hserves server
  have hasks := Client.onSessionEstablished_asks { p.client with
    session := Client.established p.client.session server }
  exact
    { flow := Flow.asks (c := { p.client with
        session := Client.established p.client.session server }) hflow hasks
      held := fun _ => Client.onSessionEstablished_held ends m.tick _
      list := h.list
      connector := h.connector
      asks := Moment.asks_of_ne (fun hc => ESessionState.noConfusion (hs.symm.trans hc))
        (by rw [hs]; exact Nat.zero_le _) hasks.sentRequests_le }

theorem gets_updateTick (hm : m.msg.type = .updateTick) (hs : p.client.session.state = .connected)
    (ht : m.tick = p.lastTick + 1)
    (hpath : LabelledPath.Path (View.Step S inet ends)
      (.opened m.tick p.client.session.dataFlags p.client.session.dataUpdateFlags) rest w)
    (hserves : snd.Serves version w) :
    p.client.Becomes S inet ends version { snd with pending := rest } m.tick true
      { p.client with
        session := Client.ticked p.client.session (.ofNat 32 m.tick) }.onSessionServerTick := by
  have hne : m.msg.type ≠ .dataStatus := by
    rw [hm]
    exact EServerMsg.noConfusion
  have hflow : Flow S inet ends version { snd with pending := rest }
      (Client.ticked p.client.session (.ofNat 32 m.tick)) m.tick :=
    h.flow.pop hp (.opened m.tick p.client.session.dataFlags p.client.session.dataUpdateFlags) _
      ⟨rfl, .inr ⟨hs, rfl, rfl, .inr rfl⟩⟩ hpath hserves rfl rfl rfl (.inr hne)
  have hasks := Client.onSessionServerTick_asks { p.client with
    session := Client.ticked p.client.session (.ofNat 32 m.tick) }
  have hflow' := Flow.asks (c := { p.client with
    session := Client.ticked p.client.session (.ofNat 32 m.tick) }) hflow hasks
  refine ⟨hflow', fun _ => ?_, ?_, ?_, ?_⟩
  · rw [ht]
    exact Client.onSessionServerTick_held (h.held hs) (h.flow.expected hs)
  · rw [Client.onSessionServerTick_connectionList]
    exact h.list
  · exact hasks.connector.trans h.connector
  · exact
      { stage := (congrArg ESessionState.stage hasks.session_fields.1).ge
        mono := hasks.sentRequests_le
        expected := h.flow.expected
        keeps := fun _ hno => Bool.noConfusion hno
        ticks := fun hactive _ he =>
          Client.onSessionServerTick_asks_or_waits (c := { p.client with
            session := Client.ticked p.client.session (.ofNat 32 m.tick) }) hs hactive.2.2.1 he }

theorem gets_dataStatus (hm : m.msg.type = .dataStatus) (hs : p.client.session.state = .connected)
    (ht : p.client.session.currentTimestamp = 0 ∨
      p.client.session.currentTimestamp = .ofNat 32 m.tick) (htick : m.tick = p.lastTick)
    (f g : Flags) (hpath : LabelledPath.Path (View.Step S inet ends) (.opened m.tick f g) rest w)
    (hserves : snd.Serves version w) :
    p.client.session.expectedMsg = .serverDataStatus ∧
      p.client.Becomes S inet ends version { snd with pending := rest } m.tick false
        { p.client with session := Client.granted p.client.session f g }.onSessionDataStatus := by
  obtain ⟨he, hflow⟩ := h.flow.dataStatus hp m.tick hs hm f g ht hpath hserves
  have hasks := Client.onSessionDataStatus_asks { p.client with
    session := Client.granted p.client.session f g }
  refine ⟨he, Flow.asks (c := { p.client with
    session := Client.granted p.client.session f g }) hflow hasks, fun _ => ?_, ?_, ?_, ?_⟩
  · rw [htick]
    exact Client.onSessionDataStatus_held (h.held hs) he f g
  · rw [Client.onSessionDataStatus_connectionList]
    exact h.list
  · exact hasks.connector.trans h.connector
  · exact
      { stage := (congrArg ESessionState.stage hasks.session_fields.1).ge
        mono := hasks.sentRequests_le
        expected := h.flow.expected
        keeps := fun _ _ hr => .inl (by
          rw [Client.onSessionDataStatus_remainingDataFlags]
          exact hr)
        ticks := fun _ hno => Bool.noConfusion hno }

theorem gets_data {isUpdate : Bool} {items : List Value}
    (hm : m.msg = createServerMsgData EDataFlags.connection isUpdate (.array items))
    (hs : p.client.session.state = .connected)
    (ht : p.client.session.currentTimestamp = 0 ∨
      p.client.session.currentTimestamp = .ofNat 32 m.tick) (htick : m.tick = p.lastTick)
    (hcarries : Carries S inet ends m.tick isUpdate items)
    (hpath : LabelledPath.Path (View.Step S inet ends)
      (.opened m.tick p.client.session.dataFlags p.client.session.dataUpdateFlags) rest w)
    (hserves : snd.Serves version w) :
    let r := p.client.onSessionData S inet EDataFlags.connection isUpdate (.array items)
    r.2 = none ∧
      p.client.Becomes S inet ends version { snd with pending := rest } m.tick false r.1 := by
  intro r
  have hasks := Client.onSessionData_asks S inet p.client EDataFlags.connection isUpdate
    (.array items)
  have hne : m.msg.type ≠ .dataStatus := by
    rw [hm]
    exact EServerMsg.noConfusion
  have hflow : Flow S inet ends version { snd with pending := rest } p.client.session m.tick :=
    h.flow.pop hp (.opened m.tick p.client.session.dataFlags p.client.session.dataUpdateFlags) _
      ⟨rfl, .inr ⟨hs, rfl, rfl, ht⟩⟩ hpath hserves rfl rfl rfl (.inr hne)
  have hheld : Held ends m.tick p.client := htick ▸ h.held hs
  obtain ⟨hok, hheld', hlist, -⟩ := Client.onSessionData_held hheld h.list
    hcarries
  refine ⟨hok, hflow.asks hasks, fun _ => hheld', hlist, hasks.connector.trans h.connector, ?_⟩
  exact
    { stage := (congrArg ESessionState.stage hasks.session_fields.1).ge
      mono := hasks.sentRequests_le
      expected := h.flow.expected
      keeps := fun _ _ hr => Client.onSessionData_asks_or_waits hs (hheld.waiting hr).1 hr _ _ _
      ticks := fun _ hno => Bool.noConfusion hno }

omit hp h in
/-- A message that is accepted when it is delivered. -/
theorem deliver_eq {message : Value} (hs : p.client.session.state ≠ .disconnected)
    (hm : m.msg.document = some message) (hok : (p.client.onMessage S inet message).2 = none) :
    p.deliver S inet m = { p.act (fun _ => (p.client.onMessage S inet message).1)
      (m.msg.type = .updateTick) with lastTick := m.tick } := by
  have hreceive : p.client.receive S inet (.messages [message] none) =
      (p.client.onMessage S inet message).1 := by
    rw [Client.receive, Client.onMessages,
      ← Prod.mk.eta (p := p.client.onMessage S inet message), hok]
    dsimp only
    rw [Client.onMessages, ite_self]
  rw [Peer.deliver, if_neg hs, hm, Peer.act, Peer.act]
  dsimp only
  rw [hreceive]

/-- **A message that is delivered** is accepted, and leaves the client as it should be. -/
theorem onMessage (hs : p.client.session.state ≠ .disconnected) :
    ∃ message, m.msg.document = some message ∧ (p.client.onMessage S inet message).2 = none ∧
      p.client.Becomes S inet ends version { snd with pending := rest } m.tick
        (m.msg.type = .updateTick) (p.client.onMessage S inet message).1 := by
  -- the flow says which message comes first, and what the client has seen before it
  obtain ⟨v, v', w, hsees, hstep, hpath, hserves⟩ := h.flow.head hp hs
  cases hstep with
  | banner t =>
    have hbanner := h.gets_banner hp false rfl hsees.1 hsees.2 hpath hserves
    refine ⟨_, rfl, ?_⟩
    rw [Client.onMessage_banner hsees.1 hsees.2 rfl]
    exact ⟨rfl, hbanner⟩
  | hello info t =>
    refine ⟨_, rfl, ?_⟩
    obtain ⟨server, hmessage⟩ := Client.onMessage_hello S inet hsees.1 hsees.2
      (rfl : (createServerMsgHello info).document = _)
    rw [hmessage]
    exact ⟨rfl, h.gets_hello hp false rfl hsees.1 hsees.2 hpath hserves server⟩
  | disconnect reason t f g =>
    refine ⟨_, rfl, ?_⟩
    obtain ⟨reason', error, hmessage⟩ := Client.onMessage_disconnect S inet p.client
      (rfl : (createServerMsgDisconnect reason).document = _)
    rw [hmessage, Client.quickDisconnect_eq h.connector]
    refine ⟨rfl, ?_⟩
    apply h.becomes_disconnected
    · rfl
    · rfl
    · rfl
    · exact h.connector
    · rfl
  -- a client that closes ignores all but DISCONNECT
  | updateTick t f g =>
    refine ⟨_, rfl, ?_⟩
    obtain ⟨rfl, hc | ⟨hc, rfl, rfl, ht⟩⟩ := hsees
    · rw [Client.onMessage_closing hc (.inl rfl)]
      exact ⟨rfl, h.ignores hp hc hpath hserves true⟩
    · -- the tick is the next one, or the first that the client hears of
      have ht' : BitVec.ofNat 32 (p.lastTick + 1) = p.client.session.currentTimestamp + 1 ∨
          p.client.session.currentTimestamp = 0 := by
        obtain ht | ht := ht
        · exact .inr ht
        · rw [ht]
          exact .inl (BitVec.ofNat_add _ _)
      rw [Client.onMessage_updateTick hc ht' rfl]
      exact ⟨rfl, h.gets_updateTick hp rfl hc rfl hpath hserves⟩
  | dataStatus t f g f' g' =>
    refine ⟨_, rfl, ?_⟩
    obtain ⟨rfl, hc | ⟨hc, rfl, rfl, ht⟩⟩ := hsees
    · rw [Client.onMessage_closing hc (.inr (.inl rfl))]
      exact ⟨rfl, h.ignores hp hc hpath hserves false⟩
    · obtain ⟨he, hbecomes⟩ := h.gets_dataStatus hp rfl hc ht rfl f' g' hpath hserves
      rw [Client.onMessage_dataStatus hc he rfl]
      exact ⟨rfl, hbecomes⟩
  | data t hf hg hcarries =>
    refine ⟨_, rfl, ?_⟩
    obtain ⟨rfl, hc | ⟨hc, rfl, rfl, ht⟩⟩ := hsees
    · rw [Client.onMessage_closing hc (.inr (.inr rfl))]
      exact ⟨rfl, h.ignores hp hc hpath hserves false⟩
    · rw [Client.onMessage_data hc hf hg rfl]
      exact h.gets_data hp rfl hc ht rfl hcarries hpath hserves

/-- **DATA that is applied** brings the client to the connections of its tick. -/
theorem applies {message : Value} (hm : m.msg.document = some message)
    (happlies : p.client.Applies message) :
    ends[m.tick]? = some (p.client.onMessage S inet message).1.connectionList.storage.connections ∧
      (p.client.onMessage S inet message).1.session.currentTimestamp = .ofNat 32 m.tick := by
  obtain ⟨htype, hs, type, isUpdate, data, hcheck, -, hwanted⟩ := happlies
  have hne : p.client.session.state ≠ .disconnected := by
    rw [hs]
    exact ESessionState.noConfusion
  obtain ⟨v, v', w, hsees, hstep, -, -⟩ := h.flow.head hp hne
  -- the type of the message rules out every step but DATA
  have hother : ∀ type members, type ≠ .unknown → type ≠ .data →
      message = messageDocument (getServerMsgName type) members → False := by
    rintro type members hknown hdata rfl
    rw [Client.msgType_messageDocument hknown] at htype
    exact hdata (Except.ok.inj htype)
  cases hstep with
  | banner t =>
    obtain rfl := Option.some.inj hm
    exact EServerMsg.noConfusion (Except.ok.inj htype)
  | hello info t =>
    exact (hother .hello _ (by decide) (by decide) (Option.some.inj hm).symm).elim
  | disconnect reason t f g =>
    exact (hother .disconnect _ (by decide) (by decide) (Option.some.inj hm).symm).elim
  | updateTick t f g =>
    exact (hother .updateTick _ (by decide) (by decide) (Option.some.inj hm).symm).elim
  | dataStatus t f g f' g' =>
    exact (hother .dataStatus _ (by decide) (by decide) (Option.some.inj hm).symm).elim
  | data t hf hg hcarries =>
    -- a closing client applies nothing
    obtain ⟨rfl, hc | ⟨hc, rfl, rfl, -⟩⟩ := hsees
    · exact absurd (hs.symm.trans hc) ESessionState.noConfusion
    · rw [Client.checkData_data hs hf hg hm] at hcheck
      obtain ⟨rfl, hrest⟩ := Prod.mk.inj (Except.ok.inj hcheck)
      obtain ⟨rfl, -⟩ := Prod.mk.inj hrest
      rw [Client.onMessage_data hs hf hg hm]
      obtain ⟨-, -, -, hmap⟩ := Client.onSessionData_held (h.held hs) h.list
        hcarries
      obtain ⟨hends, htimestamp⟩ := hmap hwanted
      exact ⟨hends, (Client.onSessionData_asks ..).session_fields.2.trans htimestamp⟩

end

/-- **A message that is delivered** keeps a client sound. -/
theorem deliver {m : Stamped} {rest : List Stamped} (hp : snd.pending = m :: rest)
    (h : p.Sound S inet ends version snd) :
    (p.deliver S inet m).Sound S inet ends version { snd with pending := rest } := by
  by_cases hs : p.client.session.state = .disconnected
  · rw [Peer.deliver, if_pos hs]
    refine { h with flow := ?_ }
    apply h.flow.of_disconnected hs
    · rfl
    · rfl
  · obtain ⟨message, hm, hok, hbecomes⟩ := h.onMessage hp hs
    rw [deliver_eq hs hm hok]
    exact h.act hbecomes

/-! ## What a client does by itself -/

variable (h : p.Sound S inet ends version snd)
include h

/-- What does not touch the data that the client waits for. -/
theorem stays (hflow : Flow S inet ends version snd' c'.session p.lastTick)
    (hheld : c'.session.state = .connected → Held ends p.lastTick c')
    (hstage : p.client.session.state.stage ≤ c'.session.state.stage)
    (hsent : p.client.sentRequests ≤ c'.sentRequests)
    (hlist : c'.connectionList = p.client.connectionList) (hconnector : c'.connector = none)
    (hremaining : c'.remainingDataFlags = p.client.remainingDataFlags) :
    p.client.Becomes S inet ends version snd' p.lastTick false c' where
  flow := hflow
  held := hheld
  list := hlist ▸ h.list
  connector := hconnector
  asks :=
    { stage := hstage
      mono := hsent
      expected := h.flow.expected
      keeps := fun _ _ hr => .inl (by rw [hremaining]; exact hr)
      ticks := fun _ hno => Bool.noConfusion hno }

theorem setPaused (paused : Bool) : p.client.Becomes S inet ends version snd p.lastTick false
    (p.client.setPaused paused) := by
  have hheld : (p.client.setPaused paused).session.state = .connected →
      Held ends p.lastTick (p.client.setPaused paused) := by
    intro hc
    refine Client.setPaused_held (h.held ?_) paused
    rw [Client.setPaused] at hc
    dsimp only at hc
    split_ifs at hc
    · exact hc
    · exact (Client.requestData_state _).symm.trans hc
    · exact hc
  rw [Client.setPaused] at hheld ⊢
  dsimp only at hheld ⊢
  split_ifs at hheld ⊢
  · exact h.stays h.flow hheld le_rfl le_rfl rfl h.connector rfl
  · exact h.stays (h.flow.requestData _ _) hheld
      (congrArg ESessionState.stage (Client.requestData_state _)).ge
      (Client.sentRequests_of_requestData _ _ _) rfl h.connector rfl
  · exact h.stays h.flow hheld le_rfl le_rfl rfl h.connector rfl

theorem disconnect : p.client.Becomes S inet ends version snd p.lastTick false
    p.client.disconnect := by
  have hdetach : { p.client with connector := none } = p.client := by
    rw [← h.connector]
  rw [Client.disconnect, hdetach]
  dsimp only
  split_ifs with hc ho
  · exact h.stays (h.flow.closing hc rfl rfl) (fun hno => ESessionState.noConfusion hno)
      (by rw [hc]; exact Nat.le_succ 1) ((Nat.le_add_right _ _).trans List.countP_append.ge) rfl
      h.connector rfl
  · exact h.lose _ _
  · exact h.stays h.flow h.held le_rfl le_rfl rfl h.connector rfl

theorem onUpdate : p.client.Becomes S inet ends version snd p.lastTick false
    p.client.onUpdate := by
  rw [Client.onUpdate]
  split_ifs with hs ht
  · exact h.stays h.flow h.held le_rfl le_rfl rfl h.connector rfl
  · refine h.stays ⟨h.flow.down, h.flow.up, h.flow.opening, h.flow.expected, h.flow.inFlight,
      h.flow.answered⟩ (fun hc => ?_) le_rfl le_rfl rfl h.connector rfl
    exact { h.held hc with }
  · exact h.lose _ _

/-- The session of the server takes a message out of the channel. -/
theorem take (hflow : Flow S inet ends version snd' p.client.session.take p.lastTick) :
    p.take.Sound S inet ends version snd' := by
  have hheld : p.client.session.take.state = .connected →
      Held ends p.lastTick { p.client with session := p.client.session.take } := by
    intro hc
    exact { h.held hc with }
  exact h.act (f := fun c => { c with session := c.session.take })
    (h.stays hflow hheld le_rfl le_rfl rfl h.connector rfl)

end Peer.Sound

end

end Conntop
