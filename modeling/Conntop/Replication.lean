import Conntop.ClosedSystem

/-!
# Replication

What holds in every run of the closed system, from `System.run_inv`.

Main results: `delivered_accepted`, no message that is delivered is refused, `applied_replicates`,
DATA that a client applies makes its connections those that the server had at the end of the tick,
and `keeps_asking`, a client does not stop asking for data.
-/

namespace Conntop

open ClientServerProtocol LabelledPath

/-! ## From one tick to the next -/

/-- The client is not paused. -/
def Moment.IsUnpaused (m : Moment) : Prop :=
  m.before.isPaused = false ∧ m.after.isPaused = false

section

variable {c c' : Client Uplink} {ms : List Moment}

theorem stage_le_of_path (h : Path Moment.Leads c ms c') :
    c.session.state.stage ≤ c'.session.state.stage :=
  h.inv (I := fun c' => c.session.state.stage ≤ c'.session.state.stage)
    (fun _ _ _ ⟨hb, ha, hasks⟩ hle => hle.trans (hb ▸ ha ▸ hasks.stage)) le_rfl

theorem eq_connected_of_stage {x : ESessionState} (h : x.stage = 1) : x = .connected := by
  cases x <;> first | rfl | exact absurd h (by decide)

/-- A client that is connected at both ends is connected all the time. -/
theorem isActive_of_path (h : Path Moment.Leads c ms c') (hc : c.session.state = .connected)
    (hc' : c'.session.state = .connected) (hms : ∀ m ∈ ms, m.IsUnpaused) :
    ∀ m ∈ ms, m.IsActive := by
  induction h with
  | nil => exact fun m hm => absurd hm List.not_mem_nil
  | @cons c c₁ c' a ms hstep hpath ih =>
    obtain ⟨rfl, rfl, hasks⟩ := hstep
    have hafter : a.after.session.state = .connected := by
      have hle := hasks.stage
      have hge := stage_le_of_path hpath
      rw [hc] at hle
      rw [hc'] at hge
      exact eq_connected_of_stage (le_antisymm hge hle)
    obtain ⟨ha, hms⟩ := List.forall_mem_cons.mp hms
    exact List.forall_mem_cons.mpr ⟨⟨hc, hafter, ha⟩, ih hafter hc' hms⟩

/-- A client that waits for the data of a tick waits until it asks again. -/
theorem asks_or_waits_of_path (h : Path Moment.Leads c ms c')
    (hactive : ∀ m ∈ ms, m.IsActive ∧ m.isTick = false) {n : ℕ}
    (hc : n < c.sentRequests ∨ n ≤ c.sentRequests ∧ c.remainingDataFlags ≠ 0) :
    n < c'.sentRequests ∨ n ≤ c'.sentRequests ∧ c'.remainingDataFlags ≠ 0 := by
  induction h with
  | nil => exact hc
  | @cons c c₁ c' a ms hstep _ ih =>
    obtain ⟨rfl, rfl, hasks⟩ := hstep
    obtain ⟨⟨ha, hno⟩, hms⟩ := List.forall_mem_cons.mp hactive
    refine ih hms ?_
    obtain hlt | ⟨hle, hr⟩ := hc
    · exact .inl (hlt.trans_le hasks.mono)
    · obtain hr | hlt := hasks.keeps ha hno hr
      · exact .inr ⟨hle.trans hasks.mono, hr⟩
      · exact .inl (hle.trans_lt hlt)

/-- Between two ticks that follow each other a client asks for data, unless it has asked before. -/
theorem asks_between_ticks {a b : Moment} {between after : List Moment}
    (h : Path Moment.Leads c (a :: (between ++ b :: after)) c') (ha : a.isTick = true)
    (hb : b.isTick = true) (hbetween : ∀ m ∈ between, m.isTick = false)
    (hc : a.before.session.state = .connected) (hc' : b.after.session.state = .connected)
    (hunpaused : ∀ m ∈ a :: (between ++ [b]), m.IsUnpaused)
    (hne : a.after.requestedDataFlags ≠ 0) :
    a.before.session.expectedMsg = .serverDataStatus ∨
      b.before.session.expectedMsg = .serverDataStatus ∨
        a.before.sentRequests < b.after.sentRequests := by
  obtain ⟨_, ⟨-, rfl, hasks⟩, hpath⟩ := cons_iff.mp h
  obtain ⟨_, hpath, hlast⟩ := append_iff.mp hpath
  obtain ⟨_, ⟨rfl, -, hasks'⟩, -⟩ := cons_iff.mp hlast
  obtain ⟨ha', hunpaused⟩ := List.forall_mem_cons.mp hunpaused
  obtain ⟨hmiddle, hb'⟩ := List.forall_mem_append.mp hunpaused
  -- the client is connected from the first tick to the second
  have hfirst := hasks.stage
  have hlast := hasks'.stage
  rw [hc] at hfirst
  rw [hc'] at hlast
  have hle := stage_le_of_path hpath
  have hafter := eq_connected_of_stage (le_antisymm (hle.trans hlast) hfirst)
  have hbefore := eq_connected_of_stage (le_antisymm hlast (hfirst.trans hle))
  have hactive : a.IsActive := ⟨hc, hafter, ha'⟩
  have hactive' : b.IsActive := ⟨hbefore, hc', hb' b List.mem_cons_self⟩
  have hmiddle' := isActive_of_path hpath hafter hbefore hmiddle
  by_contra hcon
  obtain ⟨hwait, hcon⟩ := not_or.mp hcon
  obtain ⟨hwait', hsent⟩ := not_or.mp hcon
  have hwaits : a.before.sentRequests < a.after.sentRequests ∨
      a.before.sentRequests ≤ a.after.sentRequests ∧ a.after.remainingDataFlags ≠ 0 := by
    obtain hlt | ⟨-, hr⟩ := hasks.ticks hactive ha ((hasks.expected hc).resolve_right hwait)
    · exact .inl hlt
    · exact .inr ⟨hasks.mono, hr ▸ hne⟩
  obtain hlt | ⟨hle, hr⟩ :=
    asks_or_waits_of_path hpath (fun m hm => ⟨hmiddle' m hm, hbetween m hm⟩) hwaits
  · exact hsent (hlt.trans_le hasks'.mono)
  · -- the data did not come, so the second tick is where the client asks
    obtain hlt | ⟨hzero, -⟩ :=
      hasks'.ticks hactive' hb ((hasks'.expected hbefore).resolve_right hwait')
    · exact hsent (hle.trans_lt hlt)
    · exact hr hzero

end

/-! ## Every run -/

section

variable {S : StdSort} {inet : InetText} {info : PeerInfo} {hasCollector : Bool}
variable {replaced : SharedMsg → ℕ → List Char} {ops : List System.Op} {sys : System}
variable {s : ServerSession Link} {p : Peer}

/-- **Conforming peers never break the protocol.** A message that is delivered to a session that is
not disconnected is a document that `onMessage` does not refuse. -/
theorem delivered_accepted
    (hrun : (System.init info replaced hasCollector).run S inet ops = some sys)
    (hs : s ∈ sys.sessions) (hp : s.transport.peer = some p) :
    (∀ m rest, s.transport.wire = m :: rest → p.client.session.state ≠ .disconnected →
      ∃ message, m.msg.document = some message ∧ (p.client.onMessage S inet message).2 = none) ∧
    ∀ msg rest, p.client.session.transport.inFlight = msg :: rest → s.state ≠ .disconnected →
      ∃ message r, msg.document = some message ∧
        s.onMessage sys.server.memory sys.server.availableDataFlags message = .ok r := by
  have hsound := ((System.run_inv info replaced hasCollector hrun).sessions s hs).peer p hp
  constructor
  · intro m rest hw hstate
    obtain ⟨message, hm, hok, -⟩ := hsound.onMessage (ServerSession.pending_of_wire hw) hstate
    exact ⟨message, hm, hok⟩
  · intro msg rest hu hstate
    obtain ⟨info, rfl, ho⟩ | ⟨reason, rfl⟩ | ⟨f, g, rfl, hc⟩ := hsound.flow.next hstate hu
    · obtain ⟨client, hok⟩ := ServerSession.onMessage_hello sys.server.memory
        sys.server.availableDataFlags ho (rfl : (createClientMsgHello info).document = _)
      exact ⟨_, _, rfl, hok⟩
    · obtain ⟨reason', error, hok⟩ := ServerSession.onMessage_disconnect sys.server.memory s
        sys.server.availableDataFlags (rfl : (createClientMsgDisconnect reason).document = _)
      exact ⟨_, _, rfl, hok⟩
    · have hok := ServerSession.onMessage_requestData sys.server.memory s
        sys.server.availableDataFlags (rfl : (createClientMsgRequestData f g).document = _)
      obtain hc | hc := hc
      · rw [if_pos (by exact hc)] at hok
        exact ⟨_, _, rfl, hok⟩
      · have hclosing : s.state ≠ .closing := fun hno => ESessionState.noConfusion (hno.symm.trans hc)
        rw [if_neg hclosing, if_neg (by exact not_not.mpr hc)] at hok
        exact ⟨_, _, rfl, hok⟩

private def closedConn : Connection :=
  ⟨.ip4 0x0500007F#32, ⟨.tcp, 5⟩, .ip4 0x0600007F#32, ⟨.tcp, 6⟩, rfl, rfl⟩

/-- A handshake, a request, and a tick in which a connection appears. Its data is sent. -/
private def dataSent : List System.Op :=
  [.accept (some {}), .session 0 .sendWhole, .peer 0 .deliver, .session 0 .deliver,
    .session 0 .sendWhole, .peer 0 .deliver, .session 0 .deliver, .session 0 .sendWhole,
    .peer 0 .deliver,
    .onUpdate [.getAddress closedConn.srcAddr true, .getAddress closedConn.dstAddr true,
      .getPort closedConn.srcPort true, .getPort closedConn.dstPort true,
      .add closedConn { state := 3 }],
    .session 0 .sendWhole, .peer 0 .deliver, .session 0 .sendWhole]

/-- The data is applied, and the next tick and the next request cross. -/
private def tickSent : List System.Op :=
  dataSent ++ [.peer 0 .deliver, .onUpdate [], .session 0 .sendWhole]

private abbrev closedRun (ops : List System.Op) : Option System :=
  (System.init {} (fun _ _ => []) true).run .insertion .plain ops

theorem tickSent_accepted : ∃ sys, closedRun tickSent = some sys ∧ ∃ s ∈ sys.sessions,
    ∃ p, s.transport.peer = some p ∧
      (∃ m rest, s.transport.wire = m :: rest ∧ ∃ message, m.msg.document = some message ∧
        (p.client.onMessage .insertion .plain message).2 = none) ∧
      ∃ msg rest, p.client.session.transport.inFlight = msg :: rest ∧ ∃ message r,
        msg.document = some message ∧
          s.onMessage sys.server.memory sys.server.availableDataFlags message = .ok r := by
  have hcross : ∃ sys, closedRun tickSent = some sys ∧ ∃ s ∈ sys.sessions,
      ∃ p m rest msg rest', s.transport.peer = some p ∧
        (s.transport.wire = m :: rest ∧ p.client.session.state = .connected) ∧
          p.client.session.transport.inFlight = msg :: rest' ∧ s.state = .connected :=
    ⟨_, rfl, _, List.mem_cons_self, _, _, _, _, _, rfl, ⟨rfl, rfl⟩, rfl, rfl⟩
  obtain ⟨sys, hrun, s, hs, p, m, rest, msg, rest', hp, ⟨hw, hc⟩, hu, hc'⟩ := hcross
  obtain ⟨hdown, hup⟩ := delivered_accepted hrun hs hp
  refine ⟨sys, hrun, s, hs, p, hp, ⟨m, rest, hw, hdown m rest hw ?_⟩, msg, rest', hu,
    hup msg rest' hu ?_⟩
  · rw [hc]
    exact ESessionState.noConfusion
  · rw [hc']
    exact ESessionState.noConfusion

/-- **Replication is correct whenever the client applies data.** The connections of the client are
then those that the server had at the end of the tick in which it sent the data, and
`m_currentTimestamp` is the number of that tick. -/
theorem applied_replicates
    (hrun : (System.init info replaced hasCollector).run S inet ops = some sys)
    (hs : s ∈ sys.sessions) (hp : s.transport.peer = some p) {m : Stamped} {rest : List Stamped}
    (hw : s.transport.wire = m :: rest) {message : Value} (hm : m.msg.document = some message)
    (happlies : p.client.Applies message) :
    (p.client.onMessage S inet message).2 = none ∧
      sys.ends[m.tick]? =
        some (p.deliver S inet m).client.connectionList.storage.connections ∧
      (p.deliver S inet m).client.session.currentTimestamp = .ofNat 32 m.tick := by
  have hsound := ((System.run_inv info replaced hasCollector hrun).sessions s hs).peer p hp
  have hpending := ServerSession.pending_of_wire hw
  have hstate : p.client.session.state ≠ .disconnected := by
    rw [happlies.2.1]
    exact ESessionState.noConfusion
  obtain ⟨message', hm', hok, -⟩ := hsound.onMessage hpending hstate
  obtain rfl : message' = message := Option.some.inj (hm'.symm.trans hm)
  rw [Peer.Sound.deliver_eq hstate hm hok]
  exact ⟨hok, hsound.applies hpending hm happlies⟩

theorem dataSent_replicates : ∃ sys, closedRun dataSent = some sys ∧ ∃ s ∈ sys.sessions,
    ∃ p m rest message, s.transport.peer = some p ∧ s.transport.wire = m :: rest ∧
      m.msg.document = some message ∧ p.client.Applies message ∧
        ∃ ends, sys.ends[m.tick]? = some ends ∧ (ends closedConn).isSome ∧
          (p.deliver .insertion .plain m).client.connectionList.storage.connections = ends := by
  have happlies : ∃ sys, closedRun dataSent = some sys ∧ ∃ s ∈ sys.sessions,
      ∃ p m rest message, s.transport.peer = some p ∧ s.transport.wire = m :: rest ∧
        m.msg.document = some message ∧ p.client.Applies message ∧
          ∃ ends, sys.ends[m.tick]? = some ends ∧ (ends closedConn).isSome := by
    refine ⟨_, rfl, _, List.mem_cons_self, _, _, _, _, rfl, rfl, rfl, ?_, _, rfl, rfl⟩
    exact ⟨rfl, rfl, _, _, _, rfl, rfl, fun hno => Bool.noConfusion hno, rfl, rfl⟩
  obtain ⟨sys, hrun, s, hs, p, m, rest, message, hp, hw, hm, happlies, ends, hends, hsome⟩ :=
    happlies
  obtain ⟨-, hreplicates, -⟩ := applied_replicates hrun hs hp hw hm happlies
  exact ⟨sys, hrun, s, hs, p, m, rest, message, hp, hw, hm, happlies, ends, hends, hsome,
    Option.some.inj (hreplicates.symm.trans hends)⟩

/-- **A client does not stop asking for data.** The answer that it expects is in flight or still to
be asked for, none is while it waits for data, and from one tick to the next it sends a request
unless one is outstanding. -/
theorem keeps_asking
    (hrun : (System.init info replaced hasCollector).run S inet ops = some sys)
    (hs : s ∈ sys.sessions) (hp : s.transport.peer = some p) :
    (s.state = .connected → p.client.session.state = .connected →
      let n := p.client.session.requests + statuses s.transport.pending
      (p.client.session.expectedMsg = .serverDataStatus ↔ n = 1) ∧
        (p.client.session.expectedMsg ≠ .serverDataStatus → n = 0) ∧
          (p.client.remainingDataFlags ≠ 0 → n = 0)) ∧
    ∀ before a between b after, p.past = before ++ a :: (between ++ b :: after) →
      a.isTick = true → b.isTick = true → (∀ m ∈ between, m.isTick = false) →
      a.before.session.state = .connected → b.after.session.state = .connected →
      (∀ m ∈ a :: (between ++ [b]), m.IsUnpaused) → a.after.requestedDataFlags ≠ 0 →
      a.before.session.expectedMsg = .serverDataStatus ∨
        b.before.session.expectedMsg = .serverDataStatus ∨
          a.before.sentRequests < b.after.sentRequests := by
  have hsound := ((System.run_inv info replaced hasCollector hrun).sessions s hs).peer p hp
  constructor
  · intro hstate hc n
    have hn : n = p.client.session.awaited := hsound.flow.answered hc hstate
    rw [hn, ClientSession.awaited]
    refine ⟨?_, fun hne => if_neg hne, fun hr => if_neg ?_⟩
    · split_ifs with he
      · exact iff_of_true he rfl
      · exact iff_of_false he not_false
    · rw [((hsound.held hc).waiting hr).1]
      exact EExpectedMsg.noConfusion
  · intro before a between b after hpast ha hb hbetween hc hc' hunpaused hne
    obtain ⟨c, hpath⟩ := hsound.past
    rw [hpast] at hpath
    obtain ⟨_, -, hpath⟩ := append_iff.mp hpath
    exact asks_between_ticks hpath ha hb hbetween hc hc' hunpaused hne

/-- The client gets a second tick, and its request is still in flight. -/
theorem tickSent_asks : ∃ sys, closedRun (tickSent ++ [.peer 0 .deliver]) = some sys ∧
    ∃ s ∈ sys.sessions, ∃ p, s.transport.peer = some p ∧
      p.client.session.requests + statuses s.transport.pending = 1 ∧
        ∃ before a between b after, p.past = before ++ a :: (between ++ b :: after) ∧
          a.isTick = true ∧ b.isTick = true ∧
            (a.before.session.expectedMsg = .serverDataStatus ∨
              b.before.session.expectedMsg = .serverDataStatus ∨
                a.before.sentRequests < b.after.sentRequests) := by
  have hticks : ∃ sys, closedRun (tickSent ++ [.peer 0 .deliver]) = some sys ∧
      ∃ s ∈ sys.sessions, ∃ p, s.transport.peer = some p ∧
        (s.state = .connected ∧ p.client.session.state = .connected ∧
          p.client.session.expectedMsg = .serverDataStatus) ∧
        ∃ before a between b after, p.past = before ++ a :: (between ++ b :: after) ∧
          a.isTick = true ∧ b.isTick = true ∧ (∀ m ∈ between, m.isTick = false) ∧
            (a.before.session.state = .connected ∧ b.after.session.state = .connected) ∧
              (∀ m ∈ a :: (between ++ [b]), m.IsUnpaused) ∧
                a.after.requestedDataFlags ≠ 0 := by
    refine ⟨_, rfl, _, List.mem_cons_self, _, rfl, ⟨rfl, rfl, rfl⟩, [_, _, _, _, _], _, [_], _, [],
      rfl, rfl, rfl, ?_, ⟨rfl, rfl⟩, ?_, by decide⟩
    · exact List.forall_mem_singleton.mpr rfl
    · refine List.forall_mem_cons.mpr ⟨⟨rfl, rfl⟩, List.forall_mem_cons.mpr ⟨⟨rfl, rfl⟩, ?_⟩⟩
      exact List.forall_mem_singleton.mpr ⟨rfl, rfl⟩
  obtain ⟨sys, hrun, s, hs, p, hp, ⟨hc, hc', he⟩, before, a, between, b, after, hpast, ha, hb,
    hbetween, ⟨hac, hbc⟩, hunpaused, hne⟩ := hticks
  obtain ⟨hcount, hticks⟩ := keeps_asking hrun hs hp
  exact ⟨sys, hrun, s, hs, p, hp, (hcount hc hc').1.mp he, before, a, between, b, after, hpast,
    ha, hb, hticks before a between b after hpast ha hb hbetween hac hbc hunpaused hne⟩

end

end Conntop
