import Conntop.Lib.GuardedRun
import Conntop.Synchronization

/-!
# The closed system

A server with all its sessions, and the clients at their other ends, which get whole messages in
the order in which they were sent. `ends` records the connections of the server at the ends of its
ticks.

* Sessions that the server has erased are kept beside it: what they have sent can still arrive.
* The collectors keep to what `IsTick` asks of them, except that they may refill the storage.
-/

namespace Conntop

open ClientServerProtocol LabelledPath

/-! ## The sessions of the server -/

/-- Only DATA makes a link send data. -/
def Link.IsSound (l : Link) : Prop :=
  l.isSendingData = true → ∀ m b, l.writer = some (m, b) → m.isData = true

namespace ServerSession

def sender (s : ServerSession Link) : Sender :=
  ⟨s.state, s.dataFlags, s.dataUpdateFlags, s.transport.pending⟩

/-- A session and its client, if that is one of this program, are as they should be. -/
structure Agrees (S : StdSort) (inet : InetText) (ends : List ConnectionMap) (version : ℕ)
    (s : ServerSession Link) : Prop where
  link : s.transport.IsSound
  peer : ∀ p, s.transport.peer = some p → p.Sound S inet ends version s.sender

variable {S : StdSort} {inet : InetText} {ends : List ConnectionMap} {version tick : ℕ}
variable {s s' : ServerSession Link} {cs : ClientSession Uplink} {mem : ServerMemory}

theorem pending_enqueue (l : Link) (mem : ServerMemory) (m : ServerMsgPointer) :
    (l.enqueue mem m).pending = l.pending ++ [⟨m.msg mem, (mem.texts .updateTick).version⟩] :=
  (List.append_assoc _ _ _).symm

/-- The messages in flight begin with those that are sent. -/
theorem pending_of_wire {m : Stamped} {rest : List Stamped} (h : s.transport.wire = m :: rest) :
    s.sender.pending = m :: (rest ++ (s.transport.writer.map (·.1)).toList ++
      s.transport.queue) := by
  rw [sender, Link.pending, h]
  rfl

/-- The operations of a session leave its client alone. -/
theorem keeps_peer (mem : ServerMemory) (x : Option Peer) :
    Keeps mem fun (l : Link) _ => l.peer = x ∧ l.IsSound where
  enqueue _ _ _ _ _ h := h
  close _ _ h := ⟨h.1, fun hno => Bool.noConfusion hno⟩
  open_ _ _ _ _ _ h := h

theorem held_mono {c : Client Uplink} (h : Held ends tick c) (more : List ConnectionMap) :
    Held (ends ++ more) tick c := by
  have hget : ∀ {i : ℕ} {x : ConnectionMap}, ends[i]? = some x → (ends ++ more)[i]? = some x :=
    fun h => (List.getElem?_append_left (List.getElem?_eq_some_iff.mp h).1).trans h
  refine
    { h with
      current := fun hsync hzero hne => hget (h.current hsync hzero hne)
      previous := ?_ }
  intro hsync hne
  obtain ⟨t, ht, hprev⟩ := h.previous hsync hne
  exact ⟨t, ht, hget hprev⟩

theorem Agrees.sends (h : s.Agrees S inet ends version) {version' : ℕ} (more : List ConnectionMap)
    (hkeeps : s'.transport.peer = s.transport.peer ∧ s'.transport.IsSound)
    (hflow : ∀ cs tick, Flow S inet ends version s.sender cs tick →
      Flow S inet (ends ++ more) version' s'.sender cs tick) :
    s'.Agrees S inet (ends ++ more) version' where
  link := hkeeps.2
  peer p hp := by
    have hsound := h.peer p (hkeeps.1.symm.trans hp)
    exact
      { hsound with
        flow := hflow _ _ hsound.flow
        held := fun hc => held_mono (hsound.held hc) more }

/-- What the session does between the ticks. -/
theorem Agrees.acts (h : s.Agrees S inet ends version)
    (hkeeps : s'.transport.peer = s.transport.peer ∧ s'.transport.IsSound)
    (hflow : ∀ cs tick, Flow S inet ends version s.sender cs tick →
      Flow S inet ends version s'.sender cs tick) : s'.Agrees S inet ends version := by
  rw [← List.append_nil ends]
  refine h.sends [] hkeeps fun cs tick hcs => ?_
  rw [List.append_nil]
  exact hflow cs tick hcs

/-- A session that is disconnected has no part in a tick. -/
theorem Agrees.of_disconnected (h : s.Agrees S inet ends version) (hs : s.state = .disconnected)
    (more : List ConnectionMap) (version' : ℕ) : s.Agrees S inet (ends ++ more) version' := by
  refine h.sends more ⟨rfl, h.link⟩ fun cs tick hflow => ?_
  refine hflow.sends (fun v w hpath _ => ?_) (fun hne => ⟨hne, Iff.rfl⟩) le_rfl
    fun hc => ⟨hc, rfl⟩
  refine ⟨w, hpath.mono fun _ _ _ hstep => hstep.mono more, ?_⟩
  rw [Sender.Serves, show s.sender.state = .disconnected from hs]
  trivial

/-! What the session does by itself. -/

theorem quickDisconnect_flow (h : Flow S inet ends version s.sender cs tick)
    (reason : EDisconnectReason) (error : String) :
    Flow S inet ends version (s.quickDisconnect reason error).sender cs tick := by
  have hpending : s.transport.pending =
      (s.quickDisconnect reason error).transport.pending ++ s.transport.queue := by
    simp [Link.pending, quickDisconnect, ServerTransport.close]
  refine h.sends (fun v w hpath _ => ?_) (fun hno => absurd rfl hno) ?_
    (fun hno => ESessionState.noConfusion hno)
  · rw [sender, hpending] at hpath
    obtain ⟨w', hpath, -⟩ := append_iff.mp hpath
    exact ⟨w', hpath, trivial⟩
  · show statuses _ ≤ statuses s.transport.pending
    rw [hpending, statuses_append]
    exact Nat.le_add_right _ _

theorem disconnect_flow (h : Flow S inet ends version s.sender cs tick)
    (hv : (mem.texts .updateTick).version = version) :
    Flow S inet ends version (s.disconnect mem).sender cs tick := by
  rw [disconnect]
  split_ifs with hc ho
  · have hpending : (s.transport.enqueue mem
        (.own (createServerMsgDisconnect .serverQuit))).pending = s.transport.pending ++
          [⟨createServerMsgDisconnect .serverQuit, version⟩] := by
      rw [pending_enqueue, hv]
      rfl
    refine h.sends (fun v w hpath hserves => ?_) (fun _ => ?_) ?_
      (fun hno => ESessionState.noConfusion hno)
    · rw [Sender.Serves, show s.sender.state = .connected from hc] at hserves
      obtain ⟨f, g, rfl, -⟩ := hserves
      refine ⟨.closed, ?_, trivial⟩
      show Path _ v (s.transport.enqueue mem (.own _)).pending .closed
      rw [hpending]
      exact hpath.snoc (.disconnect _ version f g)
    · rw [show s.sender.state = .connected from hc]
      exact ⟨ESessionState.noConfusion, ⟨fun hno => ESessionState.noConfusion hno,
        fun hno => ESessionState.noConfusion hno⟩⟩
    · show statuses (s.transport.enqueue mem (.own _)).pending ≤ statuses s.transport.pending
      rw [hpending, statuses_append]
      exact le_rfl
  · exact quickDisconnect_flow h _ _
  · exact h

theorem stopSendingData_path {l : Link} (hl : l.IsSound) {v w : View}
    (h : Path (View.Step S inet ends) v l.pending w) :
    Path (View.Step S inet ends) v l.stopSendingData.1.pending w := by
  rw [Link.pending, append_iff] at h
  obtain ⟨v', hfront, hqueue⟩ := h
  obtain ⟨u, hwire, hwriter⟩ := append_iff.mp hfront
  have hqueue' := hqueue.filter (!·.isData) fun s a t hstep ha =>
    hstep.of_isData (by simpa using ha)
  rw [Link.stopSendingData]
  split_ifs with hsending
  · refine append_iff.mpr ⟨v', append_iff.mpr ⟨u, hwire, ?_⟩, hqueue'⟩
    dsimp only
    have hdata := hl hsending
    generalize l.writer = writer at hwriter hdata
    match writer with
    | none => exact hwriter
    | some (m, true) => exact hwriter
    | some (m, false) =>
      obtain ⟨t, hstep, hnil⟩ := cons_iff.mp hwriter
      rw [hstep.of_isData (hdata m false rfl)]
      exact hnil
  · exact append_iff.mpr ⟨v', hfront, hqueue'⟩

theorem statuses_filter (ms : List Stamped) :
    statuses (ms.filter (!·.isData)) = statuses ms := by
  rw [statuses, statuses, List.countP_filter]
  refine List.countP_congr fun m _ => ?_
  rw [Bool.and_eq_true, decide_eq_true_eq]
  refine ⟨fun h => h.1, fun h => ⟨h, ?_⟩⟩
  rw [Stamped.isData, h]
  rfl

theorem statuses_of_isData {m : Stamped} (hm : m.isData = true) : statuses [m] = 0 := by
  refine List.countP_eq_zero.mpr fun x hx => ?_
  rw [List.mem_singleton.mp hx, decide_eq_true_eq]
  intro h
  rw [Stamped.isData, h] at hm
  exact Bool.false_ne_true hm

theorem stopSendingData_statuses {l : Link} (hl : l.IsSound) :
    statuses l.stopSendingData.1.pending = statuses l.pending := by
  rw [Link.stopSendingData]
  split_ifs with hsending
  · have hdata := hl hsending
    simp only [Link.pending, statuses_append, statuses_filter]
    generalize l.writer = writer at hdata
    match writer with
    | none => rfl
    | some (m, true) => rfl
    | some (m, false) =>
      have hzero := statuses_of_isData (hdata m false rfl)
      show _ + 0 + _ = _ + statuses [m] + _
      rw [hzero]
  · simp only [Link.pending, statuses_append, statuses_filter]

theorem stopSendingData_isSound {l : Link} (hl : l.IsSound) : l.stopSendingData.1.IsSound := by
  rw [Link.stopSendingData]
  split_ifs with hsending
  · exact fun hno => Bool.noConfusion hno
  · exact hl

theorem stopSendingData_flow (hl : s.transport.IsSound)
    (h : Flow S inet ends version s.sender cs tick) :
    Flow S inet ends version (s.stopSendingData mem).sender cs tick := by
  have hstatuses := stopSendingData_statuses hl
  refine h.sends (fun v w hpath hserves => ⟨w, stopSendingData_path hl hpath, ?_⟩)
    (fun hne => ⟨hne, Iff.rfl⟩) hstatuses.le fun hc => ⟨hc, hstatuses⟩
  refine hserves.forget rfl ?_
  show (if s.transport.stopSendingData.2 = true then 0 else s.dataFlags) = 0 ∨ _
  by_cases hsent : s.transport.stopSendingData.2 = true
  · exact .inl (if_pos hsent)
  · exact .inr ⟨if_neg hsent, if_neg hsent⟩

/-! What the session does in a tick. -/

/-- The session at a tick, with the DATA that it sends then. -/
theorem ticked_flow (h : Flow S inet ends version s.sender cs tick) (hc : s.state = .connected)
    {more : List ConnectionMap} {data : List Stamped} {snd : Sender}
    (hstate : snd.state = .connected) (hzero : snd.dataFlags = 0)
    (hpending : snd.pending = s.transport.pending ++
      (⟨createServerMsgUpdateTick (.ofNat 32 (version + 1)), version + 1⟩ :: data))
    (hstatuses : statuses data = 0)
    (hdata : ∀ f g, (s.dataFlags = 0 ∨ s.dataFlags = f ∧ s.dataUpdateFlags = g) →
      Path (View.Step S inet (ends ++ more)) (.opened (version + 1) f g) data
        (.opened (version + 1) f g)) :
    Flow S inet (ends ++ more) (version + 1) snd cs tick := by
  have heq : statuses snd.pending = statuses s.sender.pending := by
    rw [hpending, statuses_append,
      statuses_cons_of_ne (m := ⟨_, version + 1⟩) (by exact EServerMsg.noConfusion), hstatuses]
    rfl
  refine h.sends (fun v w hpath hserves => ?_) (fun _ => ?_) heq.le fun _ => ⟨hc, heq⟩
  · rw [Sender.Serves, show s.sender.state = .connected from hc] at hserves
    obtain ⟨f, g, rfl, hgranted⟩ := hserves
    refine ⟨.opened (version + 1) f g, ?_, ?_⟩
    · rw [hpending]
      exact append_iff.mpr ⟨_, hpath.mono fun _ _ _ hstep => hstep.mono more,
        .cons (.updateTick version f g) (hdata f g hgranted)⟩
    · rw [Sender.Serves, hstate]
      exact ⟨f, g, rfl, .inl hzero⟩
  · rw [hstate, show s.sender.state = .connected from hc]
    exact ⟨ESessionState.noConfusion, Iff.rfl⟩

variable (mem) in
/-- A session that is not connected sends nothing in a tick. -/
theorem onUpdate_flow (hs : s.state ≠ .connected)
    (h : Flow S inet ends version s.sender cs tick) (more : List ConnectionMap) (version' : ℕ) :
    (s.onUpdate mem).state ≠ .connected ∧
      Flow S inet (ends ++ more) version' (s.onUpdate mem).sender cs tick := by
  let s₀ : ServerSession Link := { s with dataFlags := 0, dataUpdateFlags := 0 }
  have h₀ : Flow S inet (ends ++ more) version' s₀.sender cs tick := by
    refine h.sends (fun v w hpath hserves => ?_) (fun hne => ⟨hne, Iff.rfl⟩) le_rfl
      fun hc => absurd hc hs
    refine ⟨w, hpath.mono fun _ _ _ hstep => hstep.mono more, ?_⟩
    have hforget : s₀.sender.Serves version w := hserves.forget rfl (.inl rfl)
    rw [Sender.Serves] at hforget ⊢
    cases hstate : s.state with
    | connected => exact absurd hstate hs
    | opening | closing | disconnected =>
      rw [show s₀.sender.state = _ from hstate] at hforget ⊢
      exact hforget
  rw [onUpdate]
  dsimp only
  rw [if_neg hs]
  split_ifs with hclosing
  · exact ⟨hs, h₀⟩
  · exact ⟨ESessionState.noConfusion, quickDisconnect_flow h₀ _ _⟩
  · exact ⟨hs, h₀⟩

end ServerSession

/-! ## A tick of the server -/

/-- What the shared messages are when the server sends them to its clients. -/
structure Server.IsTicked (S : StdSort) (inet : InetText) (ends : List ConnectionMap) (version : ℕ)
    (available : Bool × Bool) (srv : Server Link) : Prop where
  number : (srv.memory.texts .updateTick).version = version
  updateTick : (srv.memory.texts .updateTick).msg = createServerMsgUpdateTick (.ofNat 32 version)
  connections : available.1 = true → ∃ items, (srv.memory.texts .connections).msg =
    createServerMsgData EDataFlags.connection false (.array items) ∧
      Carries S inet ends version false items
  connectionUpdates : available.2 = true → ∃ items, (srv.memory.texts .connectionUpdates).msg =
    createServerMsgData EDataFlags.connection true (.array items) ∧
      Carries S inet ends version true items

namespace Server

variable {S : StdSort} {inet : InetText} {ends more : List ConnectionMap} {version tick : ℕ}
variable {srv : Server Link} {s : ServerSession Link} {cs : ClientSession Uplink}
variable {available : Bool × Bool}

/-- The session at a tick. -/
def ticked (srv : Server Link) (s : ServerSession Link) : ServerSession Link :=
  { s with dataFlags := 0, dataUpdateFlags := 0 }.sendSharedMessage srv.memory .updateTick

theorem updateClient_connected (hs : s.state = .connected) : srv.updateClient available s =
    if s.dataFlags.test EDataFlags.connection then
      if available.2 && s.dataUpdateFlags.test EDataFlags.connection then
        (srv.ticked s).sendSharedMessage srv.memory .connectionUpdates
      else if available.1 then (srv.ticked s).sendSharedMessage srv.memory .connections
      else srv.ticked s
    else srv.ticked s := by
  have hupdated : s.onUpdate srv.memory = srv.ticked s := if_pos hs
  have hdata : ∀ k, (srv.ticked s).sendData srv.memory k =
      (srv.ticked s).sendSharedMessage srv.memory k := fun k => if_pos hs
  rw [updateClient, hupdated, hdata, hdata]
  exact if_neg (not_not.mpr hs)

open ServerSession in
theorem updateClient_flow (ht : srv.IsTicked S inet (ends ++ more) (version + 1) available)
    (h : Flow S inet ends version s.sender cs tick) :
    Flow S inet (ends ++ more) (version + 1) (srv.updateClient available s).sender cs tick := by
  by_cases hc : s.state = .connected
  · have hpending : (srv.ticked s).transport.pending = s.transport.pending ++
        [⟨createServerMsgUpdateTick (.ofNat 32 (version + 1)), version + 1⟩] := by
      rw [← ht.updateTick, ← ht.number]
      exact pending_enqueue s.transport srv.memory (.shared .updateTick)
    have hsends : ∀ k msg, (srv.memory.texts k).msg = msg →
        ((srv.ticked s).sendSharedMessage srv.memory k).sender.pending = s.transport.pending ++
          [⟨createServerMsgUpdateTick (.ofNat 32 (version + 1)), version + 1⟩,
            ⟨msg, version + 1⟩] := by
      intro k msg hmsg
      refine (pending_enqueue (srv.ticked s).transport srv.memory (.shared k)).trans ?_
      rw [hpending, List.append_assoc, ht.number, ← hmsg]
      rfl
    have htick : Flow S inet (ends ++ more) (version + 1) (srv.ticked s).sender cs tick :=
      ticked_flow h hc hc rfl hpending rfl fun f g _ => .nil _
    -- DATA goes to a session whose flags were granted
    have hgrant : s.dataFlags.test EDataFlags.connection = true → ∀ f g,
        (s.dataFlags = 0 ∨ s.dataFlags = f ∧ s.dataUpdateFlags = g) →
          EDataFlags.connection.test f = true ∧ s.dataUpdateFlags = g := by
      rintro hflag f g (hzero | ⟨rfl, rfl⟩)
      · rw [hzero] at hflag
        exact Bool.noConfusion hflag
      · rw [Flags.test, BitVec.and_comm]
        exact ⟨hflag, rfl⟩
    rw [updateClient_connected hc]
    split_ifs with hflag hupdate hfull
    · rw [Bool.and_eq_true] at hupdate
      obtain ⟨items, hmsg, hcarries⟩ := ht.connectionUpdates hupdate.1
      refine ticked_flow h hc hc rfl (hsends _ _ hmsg) rfl fun f g hgranted => ?_
      obtain ⟨hf, rfl⟩ := hgrant hflag f g hgranted
      refine .cons (.data (version + 1) hf (fun _ => ?_) hcarries) (.nil _)
      rw [Flags.test, BitVec.and_comm]
      exact hupdate.2
    · obtain ⟨items, hmsg, hcarries⟩ := ht.connections hfull
      refine ticked_flow h hc hc rfl (hsends _ _ hmsg) rfl fun f g hgranted => ?_
      exact .cons (.data (version + 1) (hgrant hflag f g hgranted).1 (fun hu => Bool.noConfusion hu)
        hcarries) (.nil _)
    · exact htick
    · exact htick
  · obtain ⟨hne, hflow⟩ := onUpdate_flow srv.memory hc h more (version + 1)
    rw [updateClient, if_pos hne]
    exact hflow

open ServerSession in
/-- **A tick** keeps a session in agreement. -/
theorem updateClient_agrees {srv' : Server Link}
    (ht : srv'.IsTicked S inet (ends ++ more) (version + 1) available)
    (h : s.Agrees S inet ends version) :
    (srv'.updateClient available (srv.beginClient s)).Agrees S inet (ends ++ more)
      (version + 1) := by
  have hbegin : (srv.beginClient s).Agrees S inet ends version ∧
      (srv.beginClient s).transport.peer = s.transport.peer := by
    rw [beginClient]
    split_ifs
    · have hpeer : (s.stopSendingData srv.memory).transport.peer = s.transport.peer := by
        show s.transport.stopSendingData.1.peer = _
        rw [Link.stopSendingData]
        split_ifs <;> rfl
      refine ⟨h.acts ⟨hpeer, stopSendingData_isSound h.link⟩ fun cs tick hflow => ?_, hpeer⟩
      exact stopSendingData_flow h.link hflow
    · exact ⟨h, rfl⟩
  refine hbegin.1.sends more ?_ fun cs tick hflow => updateClient_flow ht hflow
  have hkeeps := keeps_peer srv'.memory (srv.beginClient s).transport.peer
  have hupdated := hkeeps.onUpdate (s := srv.beginClient s) ⟨rfl, hbegin.1.link⟩
  have hdata : ∀ k,
      let t := (((srv.beginClient s).onUpdate srv'.memory).sendData srv'.memory k).transport
      t.peer = (srv.beginClient s).transport.peer ∧ t.IsSound := by
    intro k
    exact Keeps.sendData (P := fun (l : Link) _ =>
      l.peer = (srv.beginClient s).transport.peer ∧ l.IsSound) hupdated fun _ ht => ht
  rw [updateClient]
  split_ifs
  · exact hupdated
  · exact hdata _
  · exact hdata _
  · exact hupdated
  · exact hupdated

end Server

/-! ## What the clients and the sessions do -/

section

variable {S : StdSort} {inet : InetText} {ends : List ConnectionMap} {version : ℕ}
variable {s : ServerSession Link} {mem : ServerMemory} {available : Flags}

/-- **A step of a client** keeps its session in agreement. -/
theorem peerStep_agrees (h : s.Agrees S inet ends version) (op : PeerOp) :
    ServerSession.Agrees S inet ends version
      { s with transport := s.transport.peerStep S inet op } := by
  rw [Link.peerStep]
  cases hp : s.transport.peer with
  | none =>
    exact ⟨h.link, fun p hp' => absurd (hp.symm.trans hp') (Option.some_ne_none p).symm⟩
  | some p =>
    have hsound := h.peer p hp
    cases op with
    | deliver =>
      dsimp only
      cases hw : s.transport.wire with
      | nil => exact h
      | cons m wire =>
        refine ⟨h.link, fun p' hp' => ?_⟩
        obtain rfl := Option.some.inj hp'
        exact hsound.deliver (ServerSession.pending_of_wire hw)
    | setPaused paused =>
      refine ⟨h.link, fun p' hp' => ?_⟩
      obtain rfl := Option.some.inj hp'
      exact hsound.act (f := (·.setPaused paused)) (hsound.setPaused paused)
    | disconnect =>
      refine ⟨h.link, fun p' hp' => ?_⟩
      obtain rfl := Option.some.inj hp'
      exact hsound.act (f := (·.disconnect)) hsound.disconnect
    | onUpdate =>
      refine ⟨h.link, fun p' hp' => ?_⟩
      obtain rfl := Option.some.inj hp'
      exact hsound.act (f := (·.onUpdate)) hsound.onUpdate
    | lose reason error =>
      refine ⟨h.link, fun p' hp' => ?_⟩
      obtain rfl := Option.some.inj hp'
      exact hsound.act (f := (·.quickDisconnect reason error)) (hsound.lose reason error)

/-- The messages that a session can get from its client. -/
theorem Flow.next {snd : Sender} {cs : ClientSession Uplink} {tick : ℕ}
    {msg : SerializedClientMessage} {rest : List SerializedClientMessage}
    (h : Flow S inet ends version snd cs tick) (hs : snd.state ≠ .disconnected)
    (hu : cs.transport.inFlight = msg :: rest) :
    (∃ info, msg = createClientMsgHello info ∧ snd.state = .opening) ∨
      (∃ reason, msg = createClientMsgDisconnect reason) ∨
        ∃ f g, msg = createClientMsgRequestData f g ∧
          (snd.state = .closing ∨ snd.state = .connected) := by
  obtain ⟨b, hgreets, -, -⟩ := h.upHead hu hs
  generalize hgreeted : decide (snd.state ≠ .opening) = greeted at hgreets
  cases hgreets with
  | hello info => exact .inl ⟨info, rfl, not_not.mp (of_decide_eq_false hgreeted)⟩
  | disconnect reason => exact .inr (.inl ⟨reason, rfl⟩)
  | requestData f g =>
    refine .inr (.inr ⟨f, g, rfl, ?_⟩)
    have hopen := of_decide_eq_true hgreeted
    cases hstate : snd.state with
    | disconnected => exact absurd hstate hs
    | opening => exact absurd hstate hopen
    | closing => exact .inl rfl
    | connected => exact .inr rfl

namespace ServerSession

/-- The session when a message was taken out of the channel. -/
def taken (s : ServerSession Link) (p : Peer) : ServerSession Link :=
  { s with transport := { s.transport with peer := some p.take } }

theorem taken_agrees {p : Peer} (hp : p.Sound S inet ends version s.sender)
    {s' : ServerSession Link} (hkeeps : s'.transport.peer = some p.take ∧ s'.transport.IsSound)
    (hflow : Flow S inet ends version s'.sender p.client.session.take p.lastTick) :
    s'.Agrees S inet ends version where
  link := hkeeps.2
  peer p' hp' := by
    obtain rfl := Option.some.inj (hkeeps.1.symm.trans hp')
    exact hp.take hflow

/-- A message that is accepted, alone in what is received. -/
theorem receive_message {s s' : ServerSession Link} {message : Value} {enable : Bool}
    (h : s.onMessage mem available message = .ok (s', enable)) :
    s.receive mem available (.messages [message] none) = (s', enable) := by
  rw [receive, onMessages, h]
  exact Prod.ext rfl (Bool.or_false enable)

/-- **A message of the client** keeps its session in agreement. -/
theorem deliver_agrees (h : s.Agrees S inet ends version) {p : Peer}
    (hp : s.transport.peer = some p) (hv : (mem.texts .updateTick).version = version)
    (hh : ∃ info, (mem.texts .hello).msg = createServerMsgHello info) :
    (s.deliver mem available p).1.Agrees S inet ends version := by
  have hsound := h.peer p hp
  have hkeeps := keeps_peer mem (some p.take)
  have htaken : (s.taken p).transport.peer = some p.take ∧ (s.taken p).transport.IsSound :=
    ⟨rfl, h.link⟩
  rw [deliver]
  cases hu : p.client.session.transport.inFlight with
  | nil => exact h
  | cons msg rest =>
    dsimp only
    -- a session that is disconnected ignores what still comes
    split_ifs with hs
    · exact taken_agrees hsound htaken (hsound.flow.ignored hu (.inr hs))
    · -- the next message of the client is HELLO, DISCONNECT or REQUEST_DATA
      obtain ⟨info, rfl, ho⟩ | ⟨reason, rfl⟩ | ⟨f, g, rfl, hstate⟩ := hsound.flow.next hs hu
      · -- HELLO is answered by the server's HELLO
        obtain ⟨info', hhello⟩ := hh
        obtain ⟨client, hm⟩ := onMessage_hello (s := s.taken p) mem available ho
          (rfl : (createClientMsgHello info).document = _)
        show ServerSession.Agrees S inet ends version ((s.taken p).receive mem available _).1
        rw [receive_message hm]
        refine taken_agrees hsound (hkeeps.onMessage htaken hm) ?_
        have hpending : ((s.taken p).transport.enqueue mem (.shared .hello)).pending =
            s.sender.pending ++ [⟨createServerMsgHello info', version⟩] := by
          rw [pending_enqueue, hv, ← hhello]
          rfl
        have hflow := hsound.flow.accepted hu ho info'
        rw [← hpending] at hflow
        exact hflow
      · obtain ⟨reason', error, hm⟩ := onMessage_disconnect mem (s.taken p) available
          (rfl : (createClientMsgDisconnect reason).document = _)
        show ServerSession.Agrees S inet ends version ((s.taken p).receive mem available _).1
        rw [receive_message hm]
        refine taken_agrees hsound (hkeeps.onMessage htaken hm) ?_
        exact (quickDisconnect_flow hsound.flow reason' error).ignored hu (.inr rfl)
      · have hm := onMessage_requestData mem (s.taken p) available
          (rfl : (createClientMsgRequestData f g).document = _)
        show ServerSession.Agrees S inet ends version ((s.taken p).receive mem available _).1
        -- a request is ignored by a session that closes, and granted else
        obtain hc | hc := hstate
        · rw [if_pos (by exact hc)] at hm
          rw [receive_message hm]
          exact taken_agrees hsound htaken (hsound.flow.ignored hu (.inl hc))
        · have hclosing : (s.taken p).state ≠ .closing := fun hno =>
            ESessionState.noConfusion (hno.symm.trans hc)
          rw [if_neg hclosing, if_neg (by exact not_not.mpr hc)] at hm
          rw [receive_message hm]
          refine taken_agrees hsound (hkeeps.onMessage htaken hm) ?_
          have hpending : ((s.taken p).transport.enqueue mem (.own (createServerMsgDataStatus
              (f &&& available) (g &&& available)))).pending = s.sender.pending ++
                [⟨createServerMsgDataStatus (f &&& available) (g &&& available), version⟩] := by
            rw [pending_enqueue, hv]
            rfl
          have hflow := hsound.flow.granted hu hc rfl (f &&& available) (g &&& available)
          rw [← hpending] at hflow
          have hstatus : (s.taken p).sendDataStatus mem (f &&& available) (g &&& available) = _ :=
            if_pos hc
          show Flow S inet ends version ((s.taken p).sendDataStatus mem _ _).sender _ _
          rw [hstatus]
          exact hflow

/-- The channel goes on, and nothing is lost or reordered. -/
theorem sendPart_spec (l : Link) (hl : l.IsSound) (begun : Bool) :
    (l.sendPart begun).pending = l.pending ∧ (l.sendPart begun).peer = l.peer ∧
      (l.sendPart begun).IsSound := by
  rw [Link.sendPart]
  cases hw : l.writer with
  | some w =>
    refine ⟨by simp [Link.pending, hw], rfl, fun hs m b hm => ?_⟩
    obtain ⟨rfl, -⟩ := Prod.mk.inj (Option.some.inj hm)
    exact hl hs w.1 w.2 hw
  | none =>
    cases hq : l.queue with
    | nil => exact ⟨rfl, rfl, hl⟩
    | cons m queue =>
      refine ⟨by simp [Link.pending, hw, hq], rfl, fun hs m' b hm => ?_⟩
      obtain ⟨rfl, -⟩ := Prod.mk.inj (Option.some.inj hm)
      exact hs

theorem sendWhole_spec (l : Link) (hl : l.IsSound) :
    l.sendWhole.pending = l.pending ∧ l.sendWhole.peer = l.peer ∧ l.sendWhole.IsSound := by
  rw [Link.sendWhole]
  cases hw : l.writer with
  | some w => exact ⟨by simp [Link.pending, hw], rfl, fun hs => Bool.noConfusion hs⟩
  | none =>
    cases hq : l.queue with
    | nil => exact ⟨rfl, rfl, hl⟩
    | cons m queue => exact ⟨by simp [Link.pending, hw, hq], rfl, fun hs => Bool.noConfusion hs⟩

/-- A change of the link that leaves what is in flight. -/
theorem Agrees.of_pending (h : s.Agrees S inet ends version) {l : Link}
    (hl : l.pending = s.transport.pending ∧ l.peer = s.transport.peer ∧ l.IsSound) :
    ServerSession.Agrees S inet ends version { s with transport := l } := by
  obtain ⟨hpending, hpeer, hsound⟩ := hl
  have hsender : sender { s with transport := l } = s.sender := by
    rw [sender, sender, hpending]
  refine ⟨hsound, fun p hp => ?_⟩
  rw [hsender]
  exact h.peer p (hpeer.symm.trans hp)

/-- **A step of a session** keeps it in agreement. -/
theorem sessionStep_agrees (h : s.Agrees S inet ends version)
    (hv : (mem.texts .updateTick).version = version)
    (hh : ∃ info, (mem.texts .hello).msg = createServerMsgHello info) (op : SessionOp) :
    (s.sessionStep mem available op).1.Agrees S inet ends version := by
  have hkeeps := keeps_peer mem s.transport.peer
  cases op with
  | sendPart begun =>
    rw [sessionStep]
    dsimp only
    split_ifs
    · exact h
    · exact h.of_pending (sendPart_spec _ h.link begun)
  | sendWhole =>
    rw [sessionStep]
    dsimp only
    split_ifs
    · exact h
    · exact h.of_pending (sendWhole_spec _ h.link)
  | deliver =>
    rw [sessionStep]
    cases hp : s.transport.peer with
    | none => exact h
    | some p => exact deliver_agrees h hp hv hh
  | receive received =>
    rw [sessionStep]
    split_ifs with hs
    · exact h
    · have hkept : (s.receive mem available received).1.transport.peer = s.transport.peer ∧
          (s.receive mem available received).1.transport.IsSound :=
        hkeeps.receive ⟨rfl, h.link⟩ received
      refine ⟨hkept.2, fun p hp => ?_⟩
      have hsome : s.transport.peer.isSome := by
        rw [← hkept.1, hp]
        rfl
      exact absurd (.inr hsome) hs
  | disconnect =>
    exact h.acts (hkeeps.disconnect ⟨rfl, h.link⟩) fun cs tick hflow => disconnect_flow hflow hv
  | lose reason error =>
    rw [sessionStep]
    dsimp only
    split_ifs
    · exact h
    · exact h.acts (hkeeps.close _ .connected ⟨rfl, h.link⟩)
        fun cs tick hflow => quickDisconnect_flow hflow reason error

/-- **A session that is accepted** agrees with its client. -/
theorem accept_agrees (hb : (mem.texts .banner).msg = createServerMsgBanner)
    (info : Option PeerInfo) : ServerSession.Agrees S inet ends version
      (accept mem { peer := info.map Peer.start }) := by
  refine ⟨fun hno => Bool.noConfusion hno, fun p hp => ?_⟩
  obtain ⟨info, -, rfl⟩ := Option.map_eq_some_iff.mp hp
  have hpending : (accept mem { peer := some (Peer.start info) }).sender.pending =
      [⟨createServerMsgBanner, (mem.texts .updateTick).version⟩] := by
    rw [← hb]
    rfl
  have hstatuses : statuses [⟨createServerMsgBanner, (mem.texts .updateTick).version⟩] = 0 := rfl
  refine
    { flow :=
        { down := fun _ => ⟨View.banner, View.hello, ⟨rfl, rfl⟩, ?_, rfl, rfl⟩
          up := fun _ => ⟨false, .nil false, fun _ => ⟨fun _ => ⟨rfl, rfl⟩, fun _ => rfl⟩⟩
          opening := fun _ => ⟨rfl, ?_⟩
          expected := fun hc => ESessionState.noConfusion hc
          inFlight := fun hc => ESessionState.noConfusion hc
          answered := fun hc => ESessionState.noConfusion hc }
      held := fun hc => ESessionState.noConfusion hc
      list := .init
      connector := rfl
      past := ⟨_, .nil _⟩ }
  · show Path (View.Step S inet ends) .banner
      (accept mem { peer := some (Peer.start info) }).sender.pending .hello
    rw [hpending]
    exact .cons (.banner _) (.nil _)
  · show statuses (accept mem { peer := some (Peer.start info) }).sender.pending = 0
    rw [hpending, hstatuses]

end ServerSession

end

/-! ## The system -/

structure System where
  server : Server Link
  erased : List (ServerSession Link) := []
  ends : List ConnectionMap

/-- What the collectors keep to in a tick. -/
def ConnectionUpdateSerializer.Conforms (inet : InetText) (u : ConnectionUpdateSerializer)
    (calls : List ConnectionUpdateSerializer.Call) : Prop :=
  (∀ x ∈ calls, x.HasState) ∧ (u.isSerializationEnabled = true → .clear ∉ calls →
    ConnectionUpdateSerializer.Covered inet u calls)

instance (inet : InetText) (u : ConnectionUpdateSerializer)
    (calls : List ConnectionUpdateSerializer.Call) : Decidable (u.Conforms inet calls) :=
  inferInstanceAs (Decidable (_ ∧ _))

namespace System

/-- `accept` without a `PeerInfo` is the connection of another program. -/
inductive Op
  | onUpdate (calls : List ConnectionUpdateSerializer.Call)
  | accept (info : Option PeerInfo)
  | session (i : ℕ) (op : SessionOp)
  | peer (i : ℕ) (op : PeerOp)
  | erasedPeer (i : ℕ) (op : PeerOp)

def init (info : PeerInfo) (replaced : SharedMsg → ℕ → List Char) (hasCollector : Bool) :
    System where
  server := Server.init info replaced hasCollector
  ends := [ConnectionMap.empty]

variable (S : StdSort) (inet : InetText) (sys : System)

def sessions : List (ServerSession Link) := sys.server.clients ++ sys.erased

/-- The number of the last tick. -/
def ticks : ℕ := (sys.server.memory.texts .updateTick).version

def onUpdate (calls : List ConnectionUpdateSerializer.Call) : System where
  server := sys.server.onUpdate inet calls
  erased := sys.erased ++ sys.server.clients.filter (·.state = .disconnected)
  ends := sys.ends ++
    [(sys.server.onUpdate inet calls).connectionUpdateSerializer.storage.connections]

def peerStep (op : PeerOp) (s : ServerSession Link) : ServerSession Link :=
  { s with transport := s.transport.peerStep S inet op }

/-- A tick is enabled when the collectors keep to the rules. -/
def step : Op → Option System
  | .onUpdate calls =>
    if sys.server.connectionUpdateSerializer.Conforms inet calls then
      some (sys.onUpdate inet calls)
    else none
  | .accept info => some { sys with server := sys.server.accept { peer := info.map Peer.start } }
  | .session i op =>
    let act := ServerSession.sessionStep sys.server.memory sys.server.availableDataFlags
    some { sys with server := sys.server.modifyClient i fun s => act s op }
  | .peer i op =>
    some { sys with server := sys.server.modifyClient i fun s => (peerStep S inet op s, false) }
  | .erasedPeer i op => some { sys with erased := sys.erased.modify i (peerStep S inet op) }

abbrev run (ops : List Op) : Option System := GuardedRun.run (step S inet) sys ops

/-- The system is as it should be. -/
structure Inv : Prop where
  length : sys.ends.length = sys.ticks + 1
  banner : (sys.server.memory.texts .banner).msg = createServerMsgBanner
  hello : ∃ info, (sys.server.memory.texts .hello).msg = createServerMsgHello info
  timestamp : sys.server.timestamp = .ofNat 32 sys.ticks
  storage : sys.server.connectionUpdateSerializer.storage.Wf inet
  items : sys.server.connectionUpdateSerializer.items = []
  last : sys.ends[sys.ticks]? =
    some sys.server.connectionUpdateSerializer.storage.connections
  sessions : ∀ s ∈ sys.sessions, s.Agrees S inet sys.ends sys.ticks
  gone : ∀ s ∈ sys.erased, s.state = .disconnected

variable {S inet sys}

theorem init_inv (info : PeerInfo) (replaced : SharedMsg → ℕ → List Char) (hasCollector : Bool) :
    (init info replaced hasCollector).Inv S inet where
  length := rfl
  banner := rfl
  hello := ⟨info, rfl⟩
  timestamp := rfl
  storage := .empty inet
  items := rfl
  last := by
    have hempty : ({} : ConnectionStorage).connections = ConnectionMap.empty :=
      funext fun c => AList.lookup_empty c
    exact congrArg some hempty.symm
  sessions s hs := absurd hs List.not_mem_nil
  gone s hs := absurd hs List.not_mem_nil

/-- Only what is logged is changed between the ticks, not what is stored. -/
theorem setSerializationEnabled_spec (u : ConnectionUpdateSerializer) (enable : Bool) :
    (if enable then u.setSerializationEnabled true else u).storage = u.storage ∧
      (if enable then u.setSerializationEnabled true else u).items = u.items := by
  cases enable with
  | false => exact ⟨rfl, rfl⟩
  | true => exact ⟨rfl, if_neg (by simp)⟩

/-- A change of one session. -/
theorem Inv.modifyClient (h : sys.Inv S inet) (i : ℕ)
    {f : ServerSession Link → ServerSession Link × Bool}
    (hf : ∀ s, s.Agrees S inet sys.ends sys.ticks → (f s).1.Agrees S inet sys.ends sys.ticks) :
    Inv S inet { sys with server := sys.server.modifyClient i f } := by
  rw [Server.modifyClient]
  cases hclient : sys.server.clients[i]? with
  | none => exact h
  | some s =>
    have hs := h.sessions s (List.mem_append_left _ (List.mem_of_getElem? hclient))
    obtain ⟨hstorage, hitems⟩ :=
      setSerializationEnabled_spec sys.server.connectionUpdateSerializer (f s).2
    refine
      { h with
        storage := ?_
        items := hitems.trans h.items
        last := ?_
        sessions := fun s' hs' => ?_ }
    · dsimp only
      rw [hstorage]
      exact h.storage
    · dsimp only
      rw [hstorage]
      exact h.last
    · obtain hs' | hs' := List.mem_append.mp hs'
      · obtain hs' | rfl := List.mem_or_eq_of_mem_set hs'
        · exact h.sessions s' (List.mem_append_left _ hs')
        · exact hf s hs
      · exact h.sessions s' (List.mem_append_right _ hs')

theorem Inv.accept (h : sys.Inv S inet) (info : Option PeerInfo) :
    Inv S inet { sys with server := sys.server.accept { peer := info.map Peer.start } } := by
  refine { h with sessions := fun s hs => ?_ }
  obtain hs | hs := List.mem_append.mp hs
  · obtain hs | hs := List.mem_append.mp hs
    · exact h.sessions s (List.mem_append_left _ hs)
    · obtain rfl := List.mem_singleton.mp hs
      exact ServerSession.accept_agrees h.banner info
  · exact h.sessions s (List.mem_append_right _ hs)

theorem Inv.erasedPeer (h : sys.Inv S inet) (i : ℕ) (op : PeerOp) :
    Inv S inet { sys with erased := sys.erased.modify i (peerStep S inet op) } := by
  have herased : ∀ s ∈ sys.erased.modify i (peerStep S inet op), ∃ s' ∈ sys.erased,
      s = s' ∨ s = peerStep S inet op s' := by
    intro s hs
    obtain ⟨j, hj⟩ := List.mem_iff_getElem?.mp hs
    rw [List.getElem?_modify] at hj
    obtain ⟨s', hs', rfl⟩ := Option.map_eq_some_iff.mp hj
    refine ⟨s', List.mem_of_getElem? hs', ?_⟩
    split_ifs
    · exact .inr rfl
    · exact .inl rfl
  refine { h with sessions := fun s hs => ?_, gone := fun s hs => ?_ }
  · obtain hs | hs := List.mem_append.mp hs
    · exact h.sessions s (List.mem_append_left _ hs)
    · obtain ⟨s', hs', rfl | rfl⟩ := herased s hs
      · exact h.sessions s (List.mem_append_right _ hs')
      · exact peerStep_agrees (h.sessions s' (List.mem_append_right _ hs')) op
  · obtain ⟨s', hs', rfl | rfl⟩ := herased s hs
    · exact h.gone s hs'
    · exact h.gone s' hs'

theorem takeUpdates_spec {u : ConnectionUpdateSerializer}
    (h : u.isSerializationEnabled = false → u.items = []) :
    (Server.takeUpdates u).2.storage = u.storage ∧ (Server.takeUpdates u).2.items = [] := by
  rw [Server.takeUpdates]
  split_ifs with hen
  · exact ⟨rfl, rfl⟩
  · exact ⟨rfl, h (Bool.eq_false_of_not_eq_true hen)⟩

/-- What the collection leaves, and what the clients get. -/
theorem collect_spec (srv : Server Link) {calls : List ConnectionUpdateSerializer.Call}
    {f g : Bool} {version : ℕ} {ends : List ConnectionMap}
    (hstorage : srv.connectionUpdateSerializer.storage.Wf inet)
    (hitems : srv.connectionUpdateSerializer.items = [])
    (hcalls : srv.connectionUpdateSerializer.Conforms inet calls)
    (hlength : ends.length = version + 1)
    (hlast : ends[version]? = some srv.connectionUpdateSerializer.storage.connections)
    (hnumber : (srv.memory.texts .updateTick).version = version + 1)
    (htick : (srv.memory.texts .updateTick).msg =
      createServerMsgUpdateTick (.ofNat 32 (version + 1))) :
    let r := srv.collect inet calls f g
    r.2.clients = srv.clients ∧ r.2.timestamp = srv.timestamp ∧
      (∀ k, k ≠ .connections → k ≠ .connectionUpdates →
        r.2.memory.texts k = srv.memory.texts k) ∧
      r.2.connectionUpdateSerializer.storage.Wf inet ∧
      r.2.connectionUpdateSerializer.items = [] ∧
      r.2.IsTicked S inet (ends ++ [r.2.connectionUpdateSerializer.storage.connections])
        (version + 1) r.1 := by
  intro r
  have hr : r = srv.collect inet calls f g := rfl
  rw [Server.collect] at hr
  by_cases ha : srv.availableDataFlags.test EDataFlags.connection = true
  · rw [if_pos ha] at hr
    -- the serializer runs the calls of the collectors
    set u₀ := srv.connectionUpdateSerializer
    set u := u₀.run inet calls with hu
    have hwf : u.storage.Wf inet := ConnectionUpdateSerializer.run_wf hstorage calls hcalls.1
    obtain ⟨hstored, htaken⟩ := takeUpdates_spec (u := u)
      (ConnectionUpdateSerializer.run_items (fun _ => hitems) calls)
    have hnew : ∀ m : ConnectionMap, (ends ++ [m])[version + 1]? = some m := by
      intro m
      rw [← hlength]
      exact List.getElem?_concat_length
    have htexts : ∀ k, k ≠ .connections → k ≠ .connectionUpdates →
        r.2.memory.texts k = srv.memory.texts k := by
      intro k hk hk'
      rw [hr]
      exact (Server.assign_texts hk _).trans (Server.assign_texts hk' _)
    refine ⟨by rw [hr], by rw [hr], htexts, ?_, ?_, ?_⟩
    · rw [hr]
      dsimp only
      rw [hstored]
      exact hwf
    · rw [hr]
      exact htaken
    · rw [← htexts .updateTick (by decide) (by decide)] at hnumber htick
      refine ⟨hnumber, htick, ?_, ?_⟩ <;> rw [hr] <;> dsimp only <;> rw [hstored]
      · -- a refill: the message has the table as it is now
        intro hf
        refine ⟨_, ?_, _, _, hnew _, fun hno => Bool.noConfusion hno, fun _ => rfl,
          ConnectionList.replays_serializeAll hwf⟩
        rw [Server.assign_msg, if_pos (by exact hf)]
        rfl
      · -- updates: the message leads from the table of the last tick to this one
        intro hg
        obtain ⟨hen, -⟩ := Bool.and_eq_true_iff.mp hg
        have hlogged := hen
        rw [hu, ConnectionUpdateSerializer.run_isSerializationEnabled, Bool.and_eq_true,
          decide_eq_true_eq] at hlogged
        refine ⟨u.items, ?_, u₀.storage.connections, _, hnew _, fun _ => ⟨version, rfl, ?_⟩,
          fun hno => Bool.noConfusion hno, ?_⟩
        · rw [Server.assign_texts (by decide), Server.assign_msg, Server.takeUpdates, if_pos hen]
          rfl
        · rw [List.getElem?_append_left (by rw [hlength]; exact Nat.lt_succ_self _)]
          exact hlast
        · exact ConnectionUpdateSerializer.replays_updates hstorage hitems hen hcalls.1
            (hcalls.2 hlogged.1 hlogged.2)
  · -- no connection data is available, and nothing is collected
    rw [if_neg ha] at hr
    rw [hr]
    exact ⟨rfl, rfl, fun _ _ _ => rfl, hstorage, hitems, hnumber, htick,
      fun hno => Bool.noConfusion hno, fun hno => Bool.noConfusion hno⟩

/-- **A tick** keeps the system as it should be. -/
theorem Inv.onUpdate (h : sys.Inv S inet) {calls : List ConnectionUpdateSerializer.Call}
    (hcalls : sys.server.connectionUpdateSerializer.Conforms inet calls) :
    (sys.onUpdate inet calls).Inv S inet := by
  -- the tick's number and its message
  have htick : (sys.server.beginUpdate.memory.texts .updateTick).msg =
      createServerMsgUpdateTick (.ofNat 32 (sys.ticks + 1)) := by
    refine (Server.assign_msg _ _ _).trans ?_
    rw [h.timestamp, BitVec.ofNat_add]
    rfl
  have hnumber : (sys.server.beginUpdate.memory.texts .updateTick).version = sys.ticks + 1 :=
    Server.assign_version _ _ _
  -- what the collection does to the server
  obtain ⟨hclients, htimestamp, htexts, hstorage, hitems, hticked⟩ :=
    collect_spec (S := S) sys.server.beginUpdate
      (f := sys.server.staying.any (Server.requires false))
      (g := sys.server.staying.any (Server.requires true)) h.storage h.items hcalls h.length h.last
      hnumber htick
  set r := sys.server.beginUpdate.collect inet calls
    (sys.server.staying.any (Server.requires false)) (sys.server.staying.any (Server.requires true))
    with hr
  have hserver : sys.server.onUpdate inet calls =
      { r.2 with clients := r.2.clients.map (r.2.updateClient r.1) } := rfl
  have hticks : (sys.onUpdate inet calls).ticks = sys.ticks + 1 := hticked.number
  have hkept : ∀ k, k = .banner ∨ k = .hello →
      r.2.memory.texts k = sys.server.memory.texts k := by
    rintro k (rfl | rfl)
    · exact (htexts _ (by decide) (by decide)).trans (Server.assign_texts (by decide) _)
    · exact (htexts _ (by decide) (by decide)).trans (Server.assign_texts (by decide) _)
  constructor
  · rw [hticks, System.onUpdate, List.length_append, h.length]
    rfl
  · exact (congrArg SharedText.msg (hkept .banner (.inl rfl))).trans h.banner
  · obtain ⟨info, hhello⟩ := h.hello
    exact ⟨info, (congrArg SharedText.msg (hkept .hello (.inr rfl))).trans hhello⟩
  · -- sessions that stay get the tick, and those that were closed are kept apart
    rw [hticks]
    refine htimestamp.trans ?_
    show sys.server.timestamp + 1 = _
    rw [h.timestamp, BitVec.ofNat_add]
    rfl
  · exact hstorage
  · exact hitems
  · rw [hticks, System.onUpdate, ← h.length]
    exact List.getElem?_concat_length
  · rw [hticks]
    intro s hs
    obtain hs | hs := List.mem_append.mp hs
    · rw [System.onUpdate, hserver] at hs
      obtain ⟨s', hs', rfl⟩ := List.mem_map.mp hs
      rw [hclients] at hs'
      obtain ⟨s, hstay, rfl⟩ := List.mem_map.mp hs'
      have hmem := (List.mem_filter.mp hstay).1
      exact Server.updateClient_agrees hticked (h.sessions s (List.mem_append_left _ hmem))
    · have hgone : s ∈ sys.sessions ∧ s.state = .disconnected := by
        obtain hs | hs := List.mem_append.mp hs
        · exact ⟨List.mem_append_right _ hs, h.gone s hs⟩
        · obtain ⟨hmem, hstate⟩ := List.mem_filter.mp hs
          exact ⟨List.mem_append_left _ hmem, of_decide_eq_true hstate⟩
      exact (h.sessions s hgone.1).of_disconnected hgone.2 _ _
  · intro s hs
    obtain hs | hs := List.mem_append.mp hs
    · exact h.gone s hs
    · exact of_decide_eq_true (List.mem_filter.mp hs).2

/-- **One step.** -/
theorem step_inv {sys' : System} (h : sys.Inv S inet) (op : Op)
    (hstep : sys.step S inet op = some sys') : sys'.Inv S inet := by
  cases op with
  | onUpdate calls =>
    rw [step] at hstep
    split_ifs at hstep with hcalls
    obtain rfl := Option.some.inj hstep
    exact h.onUpdate hcalls
  | accept info =>
    obtain rfl := Option.some.inj hstep
    exact h.accept info
  | session i op =>
    obtain rfl := Option.some.inj hstep
    exact h.modifyClient i fun s hs => ServerSession.sessionStep_agrees hs rfl h.hello op
  | peer i op =>
    obtain rfl := Option.some.inj hstep
    exact h.modifyClient i fun s hs => peerStep_agrees hs op
  | erasedPeer i op =>
    obtain rfl := Option.some.inj hstep
    exact h.erasedPeer i op

/-- **Every run.** -/
theorem run_inv (info : PeerInfo) (replaced : SharedMsg → ℕ → List Char) (hasCollector : Bool)
    {ops : List Op} {sys : System}
    (hrun : (init info replaced hasCollector).run S inet ops = some sys) : sys.Inv S inet :=
  GuardedRun.run_inv (fun _ op _ h hstep => step_inv h op hstep)
    (init_inv info replaced hasCollector) hrun

end System

end Conntop
