import Conntop.LifeCycle
import Mathlib.Data.List.TakeDrop

/-!
# Connection fallback

A client tries the addresses of its server, each with each port, until a connection is established.
An attempt can fail at once, in `StreamSocket::connect`. Otherwise its socket is polled while the
connect is in progress, and it fails later, by a poll event or by a timeout. `tryNext` then starts
the next one.

* `AddressQueue` is the part of `ClientConnector` that `tryNext` walks through. A client holds the
  outcomes of what is left of it (`tryNext_left`), and these name the attempt.
* `verifyConnect` reports no error while a connect is in progress.
* The kernel reports what is requested of a socket, and errors. An attempt that is started in the
  handler of another one has lost its request for OUTPUT at the end of it (`losesOutput`).

Main result: `fallback_iff`, when every event is applied to the attempt it was raised for and the
connection is established on the first attempt that succeeds.
-/

namespace Conntop

/-! ## The order of the attempts -/

/-- What `tryNext` reads and writes. -/
structure AddressQueue (α β : Type) where
  resolvedAddresses : List α
  resolvedPorts : List β := []
  addressIndex : ℕ := 0
  portIndex : ℕ := 0

namespace AddressQueue

variable {α β : Type} (q : AddressQueue α β)

/-- Behind the last address comes the first one, with the next port. -/
def wrap : AddressQueue α β :=
  if q.resolvedAddresses.length ≤ q.addressIndex then
    { q with portIndex := q.portIndex + 1, addressIndex := 0 }
  else q

/-- The combination that one turn of the loop of `tryNext` takes. No port is `DEFAULT_PORT`. -/
def next : Option (α × Option β) × AddressQueue α β :=
  if q.resolvedPorts.isEmpty then
    match q.resolvedAddresses[q.addressIndex]? with
    | some address => (some (address, none), { q with addressIndex := q.addressIndex + 1 })
    | none => (none, q)
  else
    let q := q.wrap
    match q.resolvedAddresses[q.addressIndex]?, q.resolvedPorts[q.portIndex]? with
    | some address, some port =>
      (some (address, some port), { q with addressIndex := q.addressIndex + 1 })
    | _, _ => (none, { q with addressIndex := q.addressIndex + 1 })

/-- The loop of `tryNext`: the combination whose `connect` does not throw. -/
def tryNext (connects : α × Option β → Bool) :
    ℕ → AddressQueue α β → Option (α × Option β) × AddressQueue α β
  | 0, q => (none, q)
  | fuel + 1, q =>
    match q.next with
    | (some x, q) => if connects x then (some x, q) else tryNext connects fuel q
    | (none, q) => (none, q)

/-- The combinations that are left: each address with the first port, then with the second one. -/
def left : List (α × Option β) :=
  if q.resolvedPorts.isEmpty then
    (q.resolvedAddresses.drop q.addressIndex).map fun address => (address, none)
  else
    (q.resolvedPorts[q.portIndex]?.toList.flatMap fun port =>
      (q.resolvedAddresses.drop q.addressIndex).map fun address => (address, some port)) ++
    (q.resolvedPorts.drop (q.portIndex + 1)).flatMap fun port =>
      q.resolvedAddresses.map fun address => (address, some port)

variable {q}

theorem next_of_noPorts (hp : q.resolvedPorts = []) :
    q.next.1 = q.left.head? ∧ q.next.2.left = q.left.tail ∧ q.next.2.resolvedPorts = [] := by
  rw [next, left, if_pos (List.isEmpty_iff.mpr hp), if_pos (List.isEmpty_iff.mpr hp)]
  cases ha : q.resolvedAddresses[q.addressIndex]? with
  | none =>
    have hdrop := List.drop_eq_nil_of_le (List.getElem?_eq_none_iff.mp ha)
    refine ⟨by rw [hdrop]; rfl, ?_, hp⟩
    rw [left, if_pos (List.isEmpty_iff.mpr hp), hdrop]
    rfl
  | some address =>
    obtain ⟨hlt, rfl⟩ := List.getElem?_eq_some_iff.mp ha
    have hdrop := List.drop_eq_getElem_cons hlt
    refine ⟨by rw [hdrop]; rfl, ?_, hp⟩
    rw [left, if_pos (List.isEmpty_iff.mpr hp), hdrop]
    rfl

variable (q) in
theorem left_of_ports (hp : q.resolvedPorts ≠ []) : q.left =
    (q.resolvedPorts[q.portIndex]?.toList.flatMap fun port =>
      (q.resolvedAddresses.drop q.addressIndex).map fun address => (address, some port)) ++
    (q.resolvedPorts.drop (q.portIndex + 1)).flatMap fun port =>
      q.resolvedAddresses.map fun address => (address, some port) :=
  if_neg fun he => hp (List.isEmpty_iff.mp he)

theorem left_wrap (hp : q.resolvedPorts ≠ []) : q.wrap.left = q.left := by
  rw [wrap]
  split_ifs with hlen
  · rw [left_of_ports q hp,
      left_of_ports { q with portIndex := q.portIndex + 1, addressIndex := 0 } hp,
      List.drop_eq_nil_of_le hlen,
      @List.drop_eq_getElem?_toList_append _ _ (q.portIndex + 1), List.flatMap_append]
    simp
  · rfl

theorem next_of_ports (hp : q.resolvedPorts ≠ []) (ha : q.resolvedAddresses ≠ []) :
    q.next.1 = q.left.head? ∧ q.next.2.left = q.left.tail ∧ q.next.2.resolvedPorts ≠ [] ∧
      q.next.2.resolvedAddresses = q.resolvedAddresses := by
  have hlt : q.wrap.addressIndex < q.wrap.resolvedAddresses.length := by
    rw [wrap]
    split_ifs with hlen
    · exact List.length_pos_iff.mpr ha
    · exact not_le.mp hlen
  have hports : q.wrap.resolvedPorts = q.resolvedPorts := by rw [wrap]; split_ifs <;> rfl
  have haddr : q.wrap.resolvedAddresses = q.resolvedAddresses := by rw [wrap]; split_ifs <;> rfl
  rw [next, if_neg fun he => hp (List.isEmpty_iff.mp he), ← left_wrap hp]
  rw [← hports] at hp
  rw [← haddr]
  generalize q.wrap = w at *
  have hget := List.getElem?_eq_getElem hlt
  have hdrop := List.drop_eq_getElem_cons hlt
  rw [left_of_ports w hp]
  dsimp only
  rw [hget]
  cases hport : w.resolvedPorts[w.portIndex]? with
  | none =>
    have hrest : w.resolvedPorts.drop (w.portIndex + 1) = [] :=
      List.drop_eq_nil_of_le (Nat.le_succ_of_le (List.getElem?_eq_none_iff.mp hport))
    refine ⟨by rw [hrest]; rfl, ?_, hp, rfl⟩
    rw [left_of_ports { w with addressIndex := w.addressIndex + 1 } hp, hport, hrest]
    rfl
  | some port =>
    refine ⟨by rw [hdrop]; rfl, ?_, hp, rfl⟩
    rw [left_of_ports { w with addressIndex := w.addressIndex + 1 } hp, hport, hdrop]
    rfl

/-- **The order of the attempts**: one turn of the loop takes the first combination that is left. -/
theorem next_eq (ha : q.resolvedAddresses ≠ []) :
    q.next.1 = q.left.head? ∧ q.next.2.left = q.left.tail ∧
      q.next.2.resolvedAddresses = q.resolvedAddresses := by
  by_cases hp : q.resolvedPorts = []
  · obtain ⟨hhead, htail, -⟩ := next_of_noPorts hp
    refine ⟨hhead, htail, ?_⟩
    rw [next, if_pos (List.isEmpty_iff.mpr hp)]
    cases q.resolvedAddresses[q.addressIndex]? <;> rfl
  · obtain ⟨hhead, htail, -, haddr⟩ := next_of_ports hp ha
    exact ⟨hhead, htail, haddr⟩

/-- `tryNext` stops at the first combination that is left and connects. The outcomes of those behind
it are what the connector of a client holds. -/
theorem tryNext_left (connects : α × Option β → Bool) (ha : q.resolvedAddresses ≠ []) {fuel : ℕ}
    (hfuel : q.left.length < fuel) :
    (q.tryNext connects fuel).1 = (q.left.dropWhile fun x => !connects x).head? ∧
      ((q.tryNext connects fuel).2.left.map connects) =
        ((q.left.map connects).dropWhile (!·)).tail := by
  induction fuel generalizing q with
  | zero => exact absurd hfuel (Nat.not_lt_zero _)
  | succ fuel ih =>
    obtain ⟨hhead, htail, haddr⟩ := next_eq ha
    rw [tryNext]
    cases hl : q.left with
    | nil =>
      rw [hl] at hhead htail
      rw [show q.next = (none, q.next.2) from Prod.ext hhead rfl]
      dsimp only
      rw [htail]
      exact ⟨rfl, rfl⟩
    | cons x xs =>
      rw [hl] at hhead htail
      rw [show q.next = (some x, q.next.2) from Prod.ext hhead rfl]
      dsimp only
      rw [List.map_cons, List.dropWhile_cons, List.dropWhile_cons]
      cases hx : connects x with
      | true => exact ⟨rfl, congrArg (List.map connects) htail⟩
      | false =>
        have hlen : q.next.2.left.length < fuel := by
          rw [htail]
          rw [hl, List.length_cons] at hfuel
          exact Nat.lt_of_succ_lt_succ hfuel
        have hrest := ih (haddr ▸ ha) hlen
        rw [htail] at hrest
        exact hrest

end AddressQueue

/-! ## Attempts -/

namespace Client

/-- What may happen while a connect is in progress. -/
inductive Interlude
  | onUpdate
  | setPaused (paused : Bool)
  deriving DecidableEq, Repr

def interlude (c : Client ClientOutbox) : Interlude → Client ClientOutbox
  | .onUpdate => c.onUpdate
  | .setPaused paused => c.setPaused paused

/-- The attempts that are left name the one in progress. -/
def attempt (c : Client ClientOutbox) : Option (List Bool) := c.connector.bind (·.attempts)

variable (S : StdSort) (inet : InetText) (c : Client ClientOutbox)

/-- An event that is raised for the attempt in progress. `isVerified` is what `verifyConnect` says
of its socket. There is no error if the socket is another one by then. -/
def eventOf (flags : Flags) (received : Received) (isVerified : Bool) : PollEvent where
  flags := flags
  received := received
  socket := {
    space := 0
    isVerified := isVerified ||
      (c.input S inet ⟨flags, received, { space := 0 }⟩).attempt ≠ c.attempt }

/-- The client before the ERROR part of `SocketPollHandler`. -/
def beforeError (event : PollEvent) : Client ClientOutbox :=
  if event.flags.test EPollFlags.output ∧ (c.input S inet event).session.state ≠ .disconnected then
    (c.input S inet event).output event.socket
  else c.input S inet event

/-- Every part of `SocketPollHandler` that the event runs sees the attempt in progress before. -/
def IsApplied (event : PollEvent) : Prop :=
  (event.flags.test EPollFlags.output = true →
    (c.input S inet event).session.state ≠ .disconnected →
      (c.input S inet event).attempt = c.attempt) ∧
  (event.flags.test EPollFlags.error = true →
    (c.beforeError S inet event).session.state ≠ .disconnected →
      (c.beforeError S inet event).attempt = c.attempt)

/-- The steps of one attempt. A failing event has a receive error or the end of the stream, and
`verifyConnect` fails. Behind a connect that has succeeded, the BANNER of the server may arrive. -/
inductive AttemptStep
  | interlude (i : Interlude)
  | failing (left : List Bool) (flags : Flags) (error : Option String)
  | progress (left : List Bool) (hasBanner : Bool)

def failedReceived : Option String → Received
  | some error => .failed error
  | none => .closed

def failingEvent (flags : Flags) (error : Option String) : PollEvent :=
  c.eventOf S inet flags (failedReceived error) false

/-- What is requested and ready, after the connect has succeeded. -/
def readyFlags (hasBanner : Bool) : Flags :=
  c.session.transport.pollFlags.getD 0 &&&
    if hasBanner then EPollFlags.input ||| EPollFlags.output else EPollFlags.output

def progressEvent (hasBanner : Bool) : PollEvent :=
  c.eventOf S inet (c.readyFlags hasBanner)
    (.messages ClientServerProtocol.createServerMsgBanner.document.toList none) true

/-- A step. The attempt is over when the connection is established. -/
def attemptStep : AttemptStep → Client ClientOutbox
  | .interlude i => if c.session.isConnectionEstablished then c else c.interlude i
  | .failing _ flags error => c.socketPollHandler S inet (c.failingEvent S inet flags error)
  | .progress _ hasBanner =>
    if c.session.isConnectionEstablished ∨ c.readyFlags hasBanner = 0 then c
    else c.socketPollHandler S inet (c.progressEvent S inet hasBanner)

/-- An event is applied only to the attempt it was raised for. -/
def IsOwn : AttemptStep → Prop
  | .interlude _ => True
  | .failing left flags error =>
    c.attempt = some left ∧ c.IsApplied S inet (c.failingEvent S inet flags error)
  | .progress left hasBanner =>
    c.session.isConnectionEstablished = false →
      c.attempt = some left ∧ c.IsApplied S inet (c.progressEvent S inet hasBanner)

def attemptSteps (steps : List AttemptStep) : Client ClientOutbox :=
  steps.foldl (attemptStep S inet) c

def AreOwn : Client ClientOutbox → List AttemptStep → Prop
  | _, [] => True
  | c, step :: steps => c.IsOwn S inet step ∧ AreOwn (c.attemptStep S inet step) steps

end Client

/-! ## Runs -/

/-- The calls of `onUpdate`. A session times out at the fifth. -/
def updates (is : List Client.Interlude) : ℕ := is.count .onUpdate

/-- How an attempt fails: in `connect`, by a poll event with some of the flags, or by a timeout. -/
inductive Failure
  | refused
  | event (before : List Client.Interlude) (inTime : updates before ≤ 4) (flags : Flags)
      (raised : flags.test EPollFlags.input = true ∨ flags.test EPollFlags.output = true ∨
        flags.test EPollFlags.error = true) (error : Option String)
  | timeout (before : List Client.Interlude) (inTime : updates before = 4)

namespace Failure

/-- Whether `connect` returns. -/
def outcome : Failure → Bool
  | .refused => false
  | .event .. | .timeout .. => true

/-- The steps of the attempt, before those of `left`. -/
def steps (left : List Bool) : Failure → List Client.AttemptStep
  | .refused => []
  | .event before _ flags _ error => before.map .interlude ++ [.failing left flags error]
  | .timeout before _ => before.map .interlude ++ [.interlude .onUpdate]

/-- The event has one of the flags that `SocketPollHandler` tests. -/
def HasOneFlag : Failure → Prop
  | .refused | .timeout .. => True
  | .event _ _ flags _ _ =>
    ¬(flags.test EPollFlags.input = true ∧ flags.test EPollFlags.output = true) ∧
    ¬(flags.test EPollFlags.input = true ∧ flags.test EPollFlags.error = true) ∧
    ¬(flags.test EPollFlags.output = true ∧ flags.test EPollFlags.error = true)

/-- Whether the end of the poll handler has replaced the request of the attempt that comes next,
which is then for INPUT only: that attempt is started in a handler if the one before, of those that
got a socket, failed by an event. -/
def losesOutput (lost : Bool) : List Failure → Bool
  | [] => lost
  | .refused :: fs => losesOutput lost fs
  | .event .. :: fs => losesOutput true fs
  | .timeout .. :: fs => losesOutput false fs

/-- The outcomes of the failures, of the attempt behind them, which connects, and of the rest. -/
def outcomes (fs : List Failure) (rest : List Bool) : List Bool :=
  fs.map outcome ++ true :: rest

def allSteps (rest : List Bool) : List Failure → List Client.AttemptStep
  | [] => []
  | f :: fs => f.steps (outcomes fs rest) ++ allSteps rest fs

end Failure

/-- How an attempt succeeds: its connect completes, and the BANNER of the server arrives or not. -/
structure Success where
  before : List (Option Client.Interlude)
  hasBanner : Bool
  after : List (Option Client.Interlude)
  inTime : (before ++ after).count (some .onUpdate) ≤ 4

namespace Success

/-- An interlude, or a poll before a message of the server. -/
def stepOf (rest : List Bool) : Option Client.Interlude → Client.AttemptStep
  | some i => .interlude i
  | none => .progress rest false

def steps (rest : List Bool) (success : Success) : List Client.AttemptStep :=
  success.before.map (stepOf rest) ++ ((if success.hasBanner then [.progress rest true] else []) ++
    (success.after.map (stepOf rest) ++ [.progress rest false]))

end Success

/-! ## A connect in progress -/

namespace Client

variable {S : StdSort} {inet : InetText} {c : Client ClientOutbox} {left : List Bool} {ttl : ℕ}
variable {msg : EExpectedMsg} {lost : Bool}

/-- The attempts behind the next one that connects. -/
def behind (left : List Bool) : List Bool := (left.dropWhile (!·)).tail

theorem dropWhile_eq (h : true ∈ left) : left.dropWhile (!·) = true :: behind left := by
  induction left with
  | nil => exact absurd h List.not_mem_nil
  | cons b left ih =>
    cases b with
    | true => rfl
    | false =>
      have hmem := (List.mem_cons.mp h).resolve_left Bool.noConfusion
      exact ih hmem

theorem length_behind (h : true ∈ left) : (behind left).length < left.length := by
  have hle := (List.dropWhile_suffix (l := left) (!·)).length_le
  rw [dropWhile_eq h] at hle
  exact hle

/-- The session waits for a connect, with the attempts that are left behind it. It may have lost its
request for OUTPUT. -/
structure Connecting (lost : Bool) (msg : EExpectedMsg) (left : List Bool) (ttl : ℕ)
    (c : Client ClientOutbox) : Prop where
  attempts : ∃ host, c.connector = some { host := host, attempts := some left }
  state : c.session.state = .opening
  expectedMsg : c.session.expectedMsg = msg
  isPending : c.session.isConnectionEstablished = false
  sessionTTL : c.session.sessionTTL = ttl
  isConnected : c.session.transport.isConnected = true
  requested : c.session.transport.pollFlags =
    some (if lost then EPollFlags.input else EPollFlags.input ||| EPollFlags.output)
  idle : msg = .serverBanner → c.session.transport.sendQueue = []
  answers : msg = .serverHello → c.session.transport.sendQueue ≠ [] ∧ lost = false

theorem Connecting.attempt (h : Connecting lost msg left ttl c) : c.attempt = some left := by
  obtain ⟨host, hk⟩ := h.attempts
  rw [Client.attempt, hk]
  rfl

theorem tryNext_connecting {host : String} {connector : ClientConnector} (hmem : true ∈ left)
    (hk : connector = { host := host, attempts := some left })
    (hs : c.session.state = .disconnected) (he : c.session.isConnectionEstablished = false)
    (hq : c.session.transport.sendQueue = []) :
    Connecting false .serverBanner (behind left) 4 (c.tryNext connector) := by
  subst hk
  rw [tryNext]
  dsimp only
  rw [dropWhile_eq hmem]
  dsimp only
  rw [ClientSession.connect, if_pos hs]
  exact ⟨⟨host, rfl⟩, rfl, rfl, he, rfl, rfl, rfl, fun _ => hq,
    fun hello => EExpectedMsg.noConfusion hello⟩

/-- **A failed attempt is followed by the next one.** -/
theorem Connecting.quickDisconnect (h : Connecting lost msg left ttl c) (hmem : true ∈ left)
    (reason : EDisconnectReason) (error : String) :
    Connecting false .serverBanner (behind left) 4 (c.quickDisconnect reason error) := by
  obtain ⟨host, hk⟩ := h.attempts
  rw [Client.quickDisconnect, onSessionDisconnect, hk]
  exact tryNext_connecting hmem rfl rfl rfl rfl

theorem Connecting.onUpdate (h : Connecting lost msg left (ttl + 1) c) :
    Connecting lost msg left ttl c.onUpdate := by
  rw [Client.onUpdate, if_neg (by rw [h.state]; exact ESessionState.noConfusion),
    if_pos (by rw [h.sessionTTL]; exact Nat.succ_pos ttl)]
  exact { h with sessionTTL := by rw [h.sessionTTL]; rfl }

theorem Connecting.timeout (h : Connecting lost msg left 0 c) (hmem : true ∈ left) :
    Connecting false .serverBanner (behind left) 4 c.onUpdate := by
  rw [Client.onUpdate, if_neg (by rw [h.state]; exact ESessionState.noConfusion),
    if_neg (by rw [h.sessionTTL]; exact Nat.lt_irrefl 0)]
  exact h.quickDisconnect hmem _ _

theorem Connecting.setPaused (h : Connecting lost msg left ttl c) (paused : Bool) :
    Connecting lost msg left ttl (c.setPaused paused) := by
  have hrequest : ∀ c : Client ClientOutbox, Connecting lost msg left ttl c →
      Connecting lost msg left ttl c.requestData := by
    intro c h
    rw [requestData, ClientSession.requestData,
      if_neg fun hc => ESessionState.noConfusion (h.state.symm.trans hc.1)]
    exact { h with }
  rw [Client.setPaused]
  dsimp only
  split_ifs
  · exact h
  · exact hrequest { c with isPaused := paused } { h with }
  · exact { h with }

theorem Connecting.interlude {i : Interlude} (h : Connecting lost msg left (ttl + updates [i]) c) :
    Connecting lost msg left ttl (c.interlude i) := by
  cases i with
  | onUpdate => exact Connecting.onUpdate h
  | setPaused paused => exact Connecting.setPaused h paused

theorem updates_cons (i : Interlude) (is : List Interlude) :
    updates (i :: is) = updates is + updates [i] := by
  rw [updates, updates, updates, List.count_cons, List.count_cons, List.count_nil, Nat.zero_add]

variable (S inet) in
/-- The interludes of an attempt, with the rest of its time. -/
theorem Connecting.interludes {is : List Interlude} {k : ℕ} (h : Connecting lost msg left ttl c)
    (hk : k + updates is = ttl) :
    Connecting lost msg left k (c.attemptSteps S inet (is.map .interlude)) ∧
      c.AreOwn S inet (is.map .interlude) := by
  induction is generalizing c ttl with
  | nil =>
    obtain rfl : k = ttl := hk
    exact ⟨h, trivial⟩
  | cons i is ih =>
    rw [updates_cons, ← Nat.add_assoc] at hk
    subst hk
    have hstep : Connecting lost msg left (k + updates is)
        (c.attemptStep S inet (.interlude i)) := by
      rw [attemptStep, if_neg (by rw [h.isPending]; exact Bool.false_ne_true)]
      exact h.interlude
    obtain ⟨hrun, hown⟩ := ih hstep rfl
    exact ⟨hrun, trivial, hown⟩

/-- The request at the end of a poll handler, where nothing is to be sent, or something is. -/
theorem Connecting.resetPoll (h : Connecting lost msg left ttl c) :
    Connecting c.session.transport.sendQueue.isEmpty msg left ttl
      { c with session := { c.session with transport := c.session.transport.resetPoll } } := by
  have hqueue : c.session.transport.resetPoll.sendQueue = c.session.transport.sendQueue := by
    rw [Outbox.resetPoll, if_pos h.isConnected]
  refine
    { h with
      isConnected := ?_
      requested := ?_
      idle := fun hmsg => hqueue.trans (h.idle hmsg)
      answers := fun hmsg => ?_ }
  · show c.session.transport.resetPoll.isConnected = true
    rw [Outbox.resetPoll_isConnected]
    exact h.isConnected
  · show c.session.transport.resetPoll.pollFlags = _
    rw [Outbox.resetPoll, if_pos h.isConnected]
  · obtain ⟨hne, -⟩ := h.answers hmsg
    exact ⟨hqueue.symm ▸ hne, Bool.eq_false_of_not_eq_true fun he => hne (List.isEmpty_iff.mp he)⟩

theorem Connecting.afterOutput {event : PollEvent} (h : Connecting lost msg left ttl c)
    (herror : event.flags.test EPollFlags.error = false) :
    Connecting c.session.transport.sendQueue.isEmpty msg left ttl (c.afterOutput event) := by
  rw [Client.afterOutput, if_neg fun he => Bool.false_ne_true (herror.symm.trans he.1)]
  exact h.resetPoll

/-- The next attempt was started in the handler, which requests INPUT only at its end. -/
theorem Connecting.afterOutput_banner {event : PollEvent}
    (h : Connecting lost .serverBanner left ttl c)
    (herror : event.flags.test EPollFlags.error = false) :
    Connecting true .serverBanner left ttl (c.afterOutput event) := by
  have hempty : c.session.transport.sendQueue.isEmpty = true := List.isEmpty_iff.mpr (h.idle rfl)
  exact hempty ▸ h.afterOutput herror

/-! ## A failing event -/

variable {flags : Flags} {error : Option String}

variable (S inet) in
theorem input_of_input (h : Connecting lost msg left ttl c) (hmem : true ∈ left)
    (hi : flags.test EPollFlags.input = true) :
    Connecting false .serverBanner (behind left) 4
      (c.input S inet (c.failingEvent S inet flags error)) := by
  have hflags : (c.failingEvent S inet flags error).flags = flags := rfl
  rw [input, hflags, if_pos hi]
  cases error with
  | none => exact h.quickDisconnect hmem _ _
  | some error => exact h.quickDisconnect hmem _ _

theorem input_of_not {event : PollEvent} (hi : event.flags.test EPollFlags.input = false) :
    c.input S inet event = c := by
  rw [input, if_neg (by rw [hi]; exact Bool.false_ne_true)]

variable (S inet) in
theorem output_of_not (h : Connecting lost msg left ttl c) (hmem : true ∈ left)
    (hi : flags.test EPollFlags.input = false) :
    Connecting false .serverBanner (behind left) 4
      (c.output (c.failingEvent S inet flags error).socket) := by
  have hv : (c.failingEvent S inet flags error).socket.isVerified = false := by
    show (false || decide ((c.input S inet ⟨flags, failedReceived error, _⟩).attempt ≠
      c.attempt)) = false
    rw [Bool.false_or, input_of_not hi]
    exact decide_eq_false (not_not.mpr rfl)
  rw [output, if_neg (by rw [h.isPending]; exact Bool.false_ne_true),
    if_neg (by rw [hv]; exact Bool.false_ne_true)]
  exact h.quickDisconnect hmem _ _

/-- The next attempt is not the one in progress before. -/
theorem attempt_ne (h : Connecting lost msg left ttl c) (hmem : true ∈ left) {c' : Client ClientOutbox}
    {k : ℕ} (h' : Connecting false .serverBanner (behind left) k c') :
    c'.session.state ≠ .disconnected ∧ c'.attempt ≠ c.attempt := by
  refine ⟨by rw [h'.state]; exact ESessionState.noConfusion, ?_⟩
  rw [h'.attempt, h.attempt]
  intro heq
  have hlen := length_behind hmem
  rw [Option.some.inj heq] at hlen
  exact Nat.lt_irrefl _ hlen

variable (S inet error) in
/-- **An event with one flag** is applied to its attempt, and the next attempt follows. -/
theorem failing_own (h : Connecting lost msg left ttl c) (hmem : true ∈ left)
    (hraised : flags.test EPollFlags.input = true ∨ flags.test EPollFlags.output = true ∨
      flags.test EPollFlags.error = true)
    (hio : ¬(flags.test EPollFlags.input = true ∧ flags.test EPollFlags.output = true))
    (hie : ¬(flags.test EPollFlags.input = true ∧ flags.test EPollFlags.error = true))
    (hoe : ¬(flags.test EPollFlags.output = true ∧ flags.test EPollFlags.error = true)) :
    Connecting true .serverBanner (behind left) 4
        (c.attemptStep S inet (.failing left flags error)) ∧
      c.IsOwn S inet (.failing left flags error) := by
  rw [attemptStep, IsOwn, socketPollHandler, afterInput, IsApplied, beforeError]
  have hflags : (c.failingEvent S inet flags error).flags = flags := rfl
  rw [hflags]
  -- exactly one of the three flags is set, and its branch closes the socket
  by_cases hi : flags.test EPollFlags.input = true
  · have ho : ¬flags.test EPollFlags.output = true := fun ho => hio ⟨hi, ho⟩
    have he : ¬flags.test EPollFlags.error = true := fun he => hie ⟨hi, he⟩
    rw [if_neg fun hc => ho hc.1, if_neg fun hc => ho hc.1]
    exact ⟨(input_of_input _ _ h hmem hi).afterOutput_banner (Bool.eq_false_of_not_eq_true he),
      h.attempt, fun hc => absurd hc ho, fun hc => absurd hc he⟩
  · have hi := Bool.eq_false_of_not_eq_true hi
    rw [input_of_not hi]
    by_cases ho : flags.test EPollFlags.output = true
    · have he : ¬flags.test EPollFlags.error = true := fun he => hoe ⟨ho, he⟩
      rw [if_pos ⟨ho, by rw [h.state]; exact ESessionState.noConfusion⟩]
      exact ⟨(output_of_not _ _ h hmem hi).afterOutput_banner (Bool.eq_false_of_not_eq_true he), h.attempt,
        fun _ _ => rfl, fun hc => absurd hc he⟩
    · have he : flags.test EPollFlags.error = true := by
        obtain hc | hc | hc := hraised
        · exact absurd (hi.symm.trans hc) Bool.false_ne_true
        · exact absurd hc ho
        · exact hc
      rw [if_neg fun hc => ho hc.1, if_neg fun hc => ho hc.1]
      refine ⟨?_, h.attempt, fun hc => absurd hc ho, fun _ _ => rfl⟩
      rw [Client.afterOutput, if_pos ⟨he, by rw [h.state]; exact ESessionState.noConfusion⟩]
      have hnext := h.quickDisconnect hmem .socketError "Socket poll failed"
      have hempty : List.isEmpty _ = true := List.isEmpty_iff.mpr (hnext.idle rfl)
      exact hempty ▸ hnext.resetPoll

/-- An event with two flags is applied to the next attempt. -/
theorem hasOneFlag_of_own (h : Connecting lost msg left ttl c) (hmem : true ∈ left)
    (hown : c.IsOwn S inet (.failing left flags error)) :
    ¬(flags.test EPollFlags.input = true ∧ flags.test EPollFlags.output = true) ∧
    ¬(flags.test EPollFlags.input = true ∧ flags.test EPollFlags.error = true) ∧
    ¬(flags.test EPollFlags.output = true ∧ flags.test EPollFlags.error = true) := by
  rw [IsOwn, IsApplied, beforeError] at hown
  obtain ⟨-, houtput, herror⟩ := hown
  have hio : ¬(flags.test EPollFlags.input = true ∧ flags.test EPollFlags.output = true) := by
    rintro ⟨hi, ho⟩
    obtain ⟨hs, hne⟩ := attempt_ne h hmem (input_of_input S inet h hmem hi)
    exact hne (houtput ho hs)
  refine ⟨hio, ?_, ?_⟩
  · rintro ⟨hi, he⟩
    rw [if_neg fun hc => hio ⟨hi, hc.1⟩] at herror
    obtain ⟨hs, hne⟩ := attempt_ne h hmem (input_of_input S inet h hmem hi)
    exact hne (herror he hs)
  · rintro ⟨ho, he⟩
    have hi : flags.test EPollFlags.input = false :=
      Bool.eq_false_of_not_eq_true fun hi => hio ⟨hi, ho⟩
    have hinput : c.input S inet (c.failingEvent S inet flags error) = c := input_of_not hi
    rw [hinput, if_pos ⟨ho, by rw [h.state]; exact ESessionState.noConfusion⟩] at herror
    obtain ⟨hs, hne⟩ := attempt_ne h hmem (output_of_not S inet h hmem hi)
    exact hne (herror he hs)

/-! ## A connect that succeeds -/

/-- A run of the poll handler that leaves the attempt alone until its OUTPUT part. -/
theorem verified_own (event : PollEvent) (h : Connecting lost msg left ttl (c.input S inet event))
    (ha : (c.input S inet event).attempt = c.attempt) (hv : event.socket.isVerified = true)
    (he : event.flags.test EPollFlags.error = false) : c.IsApplied S inet event ∧
      if event.flags.test EPollFlags.output = true then
        (c.socketPollHandler S inet event).session.isConnectionEstablished = true
      else Connecting (c.input S inet event).session.transport.sendQueue.isEmpty msg left ttl
        (c.socketPollHandler S inet event) := by
  have he' : ¬event.flags.test EPollFlags.error = true := by
    rw [he]
    exact Bool.false_ne_true
  refine ⟨⟨fun _ _ => ha, fun hc => absurd hc he'⟩, ?_⟩
  rw [socketPollHandler, afterInput]
  by_cases ho : event.flags.test EPollFlags.output = true
  · rw [if_pos ho, if_pos ⟨ho, by rw [h.state]; exact ESessionState.noConfusion⟩, output,
      if_neg (by rw [h.isPending]; exact Bool.false_ne_true), if_pos hv, Client.afterOutput,
      if_neg fun hc => he' hc.1]
    rfl
  · rw [if_neg ho, if_neg fun hc => ho hc.1]
    exact h.afterOutput he

/-- The session after it has answered the BANNER of the server. -/
def greeted (c : Client ClientOutbox) : ClientSession ClientOutbox :=
  ClientSession.sendMessage { c.session with expectedMsg := .serverHello }
    (ClientServerProtocol.createClientMsgHello c.info)

theorem receive_banner (h : Connecting lost .serverBanner left ttl c) : c.receive S inet
    (.messages ClientServerProtocol.createServerMsgBanner.document.toList none) =
      { c with session := c.greeted } := by
  have hmsg : c.onMessage S inet
      (.object [("conntop_server", .int ClientServerProtocol.protocolVersion)]) =
      ({ c with session := c.greeted }, none) := by
    show c.orUnchanged (c.onBanner _) = _
    rw [onBanner, if_neg (not_or.mpr ⟨not_not.mpr h.state, not_not.mpr h.expectedMsg⟩)]
    rfl
  show onMessages S inet none [_] c = _
  rw [onMessages, hmsg]
  dsimp only
  split_ifs
  · rfl
  · rfl

theorem greeted_connecting (h : Connecting lost .serverBanner left ttl c) :
    Connecting false .serverHello left ttl { c with session := c.greeted } := by
  have hflags : c.greeted.transport.pollFlags =
      some (EPollFlags.input ||| EPollFlags.output) := by
    show (if c.session.transport.sendQueue.isEmpty then _ else _) = _
    rw [h.idle rfl]
    rfl
  exact
    { h with
      expectedMsg := rfl
      requested := hflags
      idle := nofun
      answers := fun _ => ⟨List.append_ne_nil_of_right_ne_nil _ (List.cons_ne_nil _ _), rfl⟩ }

/-- The attempt is over, or it still waits, for the BANNER only if its request is lost. -/
def IsPast (lost : Bool) (msg : EExpectedMsg) (left : List Bool) (ttl : ℕ)
    (c : Client ClientOutbox) : Prop :=
  (lost = false ∧ c.session.isConnectionEstablished = true) ∨ Connecting lost msg left ttl c

variable (S inet) in
/-- A poll before a message of the server, where OUTPUT is requested. -/
theorem progress_requested (h : Connecting false msg left ttl c) :
    (c.attemptStep S inet (.progress left false)).session.isConnectionEstablished = true ∧
      c.IsOwn S inet (.progress left false) := by
  have hpending : ¬c.session.isConnectionEstablished = true := by
    rw [h.isPending]
    exact Bool.false_ne_true
  have hready : c.readyFlags false = EPollFlags.output := by
    rw [readyFlags, h.requested]
    rfl
  have hinput : c.input S inet (c.progressEvent S inet false) = c := by
    refine input_of_not ?_
    show (c.readyFlags false).test EPollFlags.input = false
    rw [hready]
    rfl
  obtain ⟨happlied, hest⟩ := verified_own (c.progressEvent S inet false)
    (by rw [hinput]; exact h) (by rw [hinput]) rfl
    (by show (c.readyFlags false).test EPollFlags.error = false; rw [hready]; rfl)
  rw [if_pos (by show (c.readyFlags false).test EPollFlags.output = true; rw [hready]; rfl)]
    at hest
  rw [attemptStep, if_neg (not_or.mpr ⟨hpending, by rw [hready]; decide⟩)]
  exact ⟨hest, fun _ => ⟨h.attempt, happlied⟩⟩

variable (S inet) in
/-- Nothing is raised where it is not. -/
theorem progress_lost (h : Connecting true msg left ttl c) :
    c.attemptStep S inet (.progress left false) = c ∧ c.IsOwn S inet (.progress left false) := by
  have hready : c.readyFlags false = 0 := by
    rw [readyFlags, h.requested]
    rfl
  have hzero : ∀ mask, ¬(c.progressEvent S inet false).flags.test mask = true := by
    intro mask
    show ¬(c.readyFlags false).test mask = true
    rw [hready, Flags.test, show (0 : Flags) &&& mask = 0 from BitVec.zero_and]
    exact Bool.false_ne_true
  rw [attemptStep, if_pos (.inr hready)]
  exact ⟨rfl, fun _ => ⟨h.attempt, fun hc => absurd hc (hzero _), fun hc => absurd hc (hzero _)⟩⟩

/-- The BANNER arrives. The answer is to be sent, so OUTPUT is requested. -/
theorem progress_true (h : Connecting lost .serverBanner left ttl c) :
    IsPast false .serverHello left ttl (c.attemptStep S inet (.progress left true)) ∧
      c.IsOwn S inet (.progress left true) := by
  have hpending : ¬c.session.isConnectionEstablished = true := by
    rw [h.isPending]
    exact Bool.false_ne_true
  -- the socket that lost OUTPUT reports the BANNER alone, any other both flags
  have hready : c.readyFlags true =
      if lost then EPollFlags.input else EPollFlags.input ||| EPollFlags.output := by
    rw [readyFlags, h.requested]
    cases lost <;> rfl
  have hne : c.readyFlags true ≠ 0 := by
    rw [hready]
    cases lost <;> decide
  have hflag : (c.progressEvent S inet true).flags.test EPollFlags.input = true := by
    show (c.readyFlags true).test EPollFlags.input = true
    rw [hready]
    cases lost <;> rfl
  have herror : (c.progressEvent S inet true).flags.test EPollFlags.error = false := by
    show (c.readyFlags true).test EPollFlags.error = false
    rw [hready]
    cases lost <;> rfl
  -- the BANNER is read first
  have hinput : c.input S inet (c.progressEvent S inet true) = { c with session := c.greeted } := by
    rw [input, if_pos hflag]
    exact receive_banner h
  have hgreeted := greeted_connecting h
  obtain ⟨happlied, hrun⟩ := verified_own (c.progressEvent S inet true)
    (by rw [hinput]; exact hgreeted) (by rw [hinput]; rfl) rfl herror
  rw [attemptStep, if_neg (not_or.mpr ⟨hpending, hne⟩)]
  refine ⟨?_, fun _ => ⟨h.attempt, happlied⟩⟩
  split_ifs at hrun
  · exact .inl ⟨rfl, hrun⟩
  · have hqueue : (c.input S inet (c.progressEvent S inet true)).session.transport.sendQueue ≠ [] := by
      rw [hinput]
      exact (hgreeted.answers rfl).1
    rw [Bool.eq_false_of_not_eq_true fun he => hqueue (List.isEmpty_iff.mp he)] at hrun
    exact .inr hrun

/-! ## Steps in a row -/

theorem attemptSteps_append (c : Client ClientOutbox) (xs ys : List AttemptStep) :
    c.attemptSteps S inet (xs ++ ys) = (c.attemptSteps S inet xs).attemptSteps S inet ys :=
  List.foldl_append

theorem areOwn_append {xs ys : List AttemptStep} : c.AreOwn S inet (xs ++ ys) ↔
    c.AreOwn S inet xs ∧ (c.attemptSteps S inet xs).AreOwn S inet ys := by
  induction xs generalizing c with
  | nil => exact (true_and _).symm.to_iff
  | cons x xs ih =>
    show c.IsOwn S inet x ∧ AreOwn S inet _ (xs ++ ys) ↔ (c.IsOwn S inet x ∧ _) ∧ _
    rw [ih, and_assoc]
    rfl

variable (S inet) in
/-- Once the connection is established, the attempt is over. -/
theorem established_step (h : c.session.isConnectionEstablished = true)
    (i : Option Interlude) (rest : List Bool) :
    (c.attemptStep S inet (Success.stepOf rest i)) = c ∧
      c.IsOwn S inet (Success.stepOf rest i) := by
  cases i with
  | none =>
    refine ⟨?_, fun hp => absurd (hp.symm.trans h) Bool.false_ne_true⟩
    rw [Success.stepOf, attemptStep, if_pos (.inl h)]
  | some i =>
    refine ⟨?_, trivial⟩
    rw [Success.stepOf, attemptStep, if_pos h]

variable (S inet) in
theorem isPast_step {rest : List Bool} {i : Option Interlude} {k : ℕ}
    (h : IsPast lost msg rest (k + [i].count (some .onUpdate)) c) :
    IsPast lost msg rest k (c.attemptStep S inet (Success.stepOf rest i)) ∧
      c.IsOwn S inet (Success.stepOf rest i) := by
  obtain ⟨hlost, hest⟩ | hconn := h
  · obtain ⟨heq, hown⟩ := established_step S inet hest i rest
    rw [heq]
    exact ⟨.inl ⟨hlost, hest⟩, hown⟩
  · cases i with
    | none =>
      cases lost with
      | false =>
        obtain ⟨hest, hown⟩ := progress_requested S inet hconn
        exact ⟨.inl ⟨rfl, hest⟩, hown⟩
      | true =>
        obtain ⟨heq, hown⟩ := progress_lost S inet hconn
        rw [Success.stepOf, heq]
        exact ⟨.inr hconn, hown⟩
    | some i =>
      have hcount : [some i].count (some .onUpdate) = updates [i] := by
        rw [updates, List.count_singleton, List.count_singleton]
        rfl
      rw [hcount] at hconn
      refine ⟨.inr ?_, trivial⟩
      rw [Success.stepOf, attemptStep,
        if_neg (by rw [hconn.isPending]; exact Bool.false_ne_true)]
      exact hconn.interlude

variable (S inet) in
theorem isPast_steps {rest : List Bool} {is : List (Option Interlude)} {k : ℕ}
    (h : IsPast lost msg rest ttl c) (hk : k + is.count (some .onUpdate) = ttl) :
    IsPast lost msg rest k (c.attemptSteps S inet (is.map (Success.stepOf rest))) ∧
      c.AreOwn S inet (is.map (Success.stepOf rest)) := by
  induction is generalizing c ttl with
  | nil =>
    obtain rfl : k = ttl := hk
    exact ⟨h, trivial⟩
  | cons i is ih =>
    have hcount : k + is.count (some .onUpdate) + [i].count (some .onUpdate) = ttl := by
      rw [← hk, Nat.add_assoc, ← List.count_append, List.count_append, Nat.add_comm (is.count _),
        ← List.count_append, List.singleton_append]
    rw [← hcount] at h
    obtain ⟨hpast, hown⟩ := isPast_step S inet h
    obtain ⟨hrun, hown'⟩ := ih hpast rfl
    exact ⟨hrun, hown, hown'⟩

variable (S inet) in
/-- The BANNER, if it arrives. -/
theorem isPast_banner {rest : List Bool} (h : IsPast lost .serverBanner rest ttl c)
    (hasBanner : Bool) :
    let steps := if hasBanner then [.progress rest true] else []
    (∃ msg, IsPast (lost && !hasBanner) msg rest ttl (c.attemptSteps S inet steps)) ∧
      c.AreOwn S inet steps := by
  cases hasBanner with
  | false => exact ⟨⟨_, (Bool.and_true lost).symm ▸ h⟩, trivial⟩
  | true =>
    rw [Bool.not_true, Bool.and_false]
    obtain ⟨hlost, hest⟩ | hconn := h
    · have hsame : c.attemptSteps S inet [.progress rest true] = c := by
        show c.attemptStep S inet (.progress rest true) = c
        rw [attemptStep, if_pos (.inl hest)]
      refine ⟨⟨.serverBanner, .inl ⟨rfl, ?_⟩⟩, fun hp => ?_, trivial⟩
      · rw [if_pos rfl, hsame]
        exact hest
      · exact absurd (hp.symm.trans hest) Bool.false_ne_true
    · obtain ⟨hpast, hown⟩ := progress_true (S := S) hconn
      exact ⟨⟨_, hpast⟩, hown, trivial⟩

variable (S inet) in
/-- **An attempt that succeeds** sees only its own events. It is established if the session requests
OUTPUT for it, or if the BANNER arrives. -/
theorem success_own {rest : List Bool} (success : Success)
    (h : Connecting lost .serverBanner rest 4 c) :
    c.AreOwn S inet (success.steps rest) ∧
      ((c.attemptSteps S inet (success.steps rest)).session.isConnectionEstablished = true ↔
        (lost && !success.hasBanner) = false) := by
  have htime := success.inTime
  rw [List.count_append] at htime
  obtain ⟨k, hk⟩ := Nat.exists_eq_add_of_le htime
  have hbefore : k + success.after.count (some .onUpdate) +
      success.before.count (some .onUpdate) = 4 := by omega
  obtain ⟨hpast, hown⟩ := isPast_steps S inet (.inr h) hbefore
  obtain ⟨⟨msg, hpast⟩, hown'⟩ := isPast_banner S inet hpast success.hasBanner
  obtain ⟨hpast, hown''⟩ := isPast_steps S inet hpast rfl
  unfold Success.steps
  rw [areOwn_append, areOwn_append, areOwn_append, attemptSteps_append, attemptSteps_append,
    attemptSteps_append]
  generalize attemptSteps S inet _ (success.after.map (Success.stepOf rest)) = c' at hpast ⊢
  have hend := isPast_step (i := none) S inet hpast
  refine ⟨⟨hown, hown', hown'', hend.2, trivial⟩, ?_⟩
  change (c'.attemptStep S inet (.progress rest false)).session.isConnectionEstablished = true ↔ _
  cases hlost : lost && !success.hasBanner with
  | false =>
    rw [hlost] at hpast
    obtain ⟨-, hest⟩ | hconn := hpast
    · have heq := (established_step S inet hest none rest).1
      exact iff_of_true ((congrArg (·.session.isConnectionEstablished) heq).trans hest) rfl
    · exact iff_of_true (progress_requested S inet hconn).1 rfl
  | true =>
    rw [hlost] at hpast
    obtain ⟨hfalse, -⟩ | hconn := hpast
    · exact Bool.noConfusion hfalse
    · rw [(progress_lost S inet hconn).1, hconn.isPending]
      decide

/-! ## All attempts -/

theorem true_mem_outcomes (fs : List Failure) (rest : List Bool) :
    true ∈ Failure.outcomes fs rest := List.mem_append_right _ List.mem_cons_self

variable (S inet) in
/-- The events of the failing attempts are applied to their own exactly when each has one flag. -/
theorem failures_own {fs : List Failure} {rest : List Bool}
    (h : Connecting lost .serverBanner (behind (Failure.outcomes fs rest)) 4 c) :
    (c.AreOwn S inet (Failure.allSteps rest fs) → ∀ f ∈ fs, f.HasOneFlag) ∧
      ((∀ f ∈ fs, f.HasOneFlag) → c.AreOwn S inet (Failure.allSteps rest fs) ∧
        Connecting (Failure.losesOutput lost fs) .serverBanner rest 4
          (c.attemptSteps S inet (Failure.allSteps rest fs))) := by
  induction fs generalizing c lost with
  | nil => exact ⟨fun _ _ hf => absurd hf List.not_mem_nil, fun _ => ⟨trivial, h⟩⟩
  | cons f fs ih =>
    have hmem := true_mem_outcomes fs rest
    rw [Failure.allSteps, areOwn_append, attemptSteps_append]
    simp only [List.forall_mem_cons]
    cases f with
    -- a refused attempt has no event, so nothing can be lost
    | refused =>
      obtain ⟨hflag, hown⟩ := ih h
      exact ⟨fun hown => ⟨trivial, hflag hown.2⟩, fun hf => ⟨⟨trivial, (hown hf.2).1⟩, (hown hf.2).2⟩⟩
    -- a timeout closes the socket outside the handler, and the next one keeps its flags
    | timeout before htime =>
      obtain ⟨hrun, hbefore⟩ := Connecting.interludes S inet h
        ((Nat.zero_add _).trans htime)
      have hnext : Connecting false .serverBanner (behind (Failure.outcomes fs rest)) 4
          (c.attemptSteps S inet (Failure.steps (Failure.outcomes fs rest)
            (.timeout before htime))) := by
        rw [Failure.steps, attemptSteps_append]
        show Connecting _ _ _ _ (Client.attemptStep S inet _ (.interlude .onUpdate))
        rw [attemptStep, if_neg (by rw [hrun.isPending]; exact Bool.false_ne_true)]
        exact hrun.timeout hmem
      have hsteps : c.AreOwn S inet (Failure.steps (Failure.outcomes fs rest)
          (.timeout before htime)) := areOwn_append.mpr ⟨hbefore, trivial, trivial⟩
      obtain ⟨hflag, hown⟩ := ih hnext
      exact ⟨fun ho => ⟨trivial, hflag ho.2⟩, fun hf => ⟨⟨hsteps, (hown hf.2).1⟩, (hown hf.2).2⟩⟩
    -- the handler goes on with the next socket, so the event may have one flag only
    | event before htime flags hraised error =>
      obtain ⟨k, hk⟩ := Nat.exists_eq_add_of_le htime
      obtain ⟨hrun, hbefore⟩ := Connecting.interludes S inet h
        ((Nat.add_comm k _).trans hk.symm)
      rw [Failure.steps, areOwn_append, attemptSteps_append]
      constructor
      · rintro ⟨⟨-, hfail, -⟩, hrest⟩
        have hone := hasOneFlag_of_own hrun hmem hfail
        obtain ⟨hnext, -⟩ := failing_own S inet error hrun hmem hraised
          hone.1 hone.2.1 hone.2.2
        exact ⟨hone, (ih hnext).1 hrest⟩
      · rintro ⟨hone, hfs⟩
        obtain ⟨hnext, hown⟩ := failing_own S inet error hrun hmem
          hraised hone.1 hone.2.1 hone.2.2
        exact ⟨⟨⟨hbefore, hown, trivial⟩, ((ih hnext).2 hfs).1⟩, ((ih hnext).2 hfs).2⟩

/-- The client when the addresses are resolved. -/
theorem onResolved_connecting (info : PeerInfo) (host : String) (fs : List Failure)
    (rest : List Bool) : Connecting false .serverBanner (behind (Failure.outcomes fs rest)) 4
      ((init info host).onResolved (Failure.outcomes fs rest)) :=
  tryNext_connecting (c := init info host) (true_mem_outcomes fs rest) rfl rfl rfl rfl

end Client

section

/-- The first of two attempts is refused, and the kernel reports everything at once. -/
private def refusedFailures : List Failure :=
  [.event [] (by decide) (EPollFlags.input ||| EPollFlags.output ||| EPollFlags.error) (by decide)
    (some "Connection refused")]

private def promptSuccess : Success where
  before := []
  hasBanner := true
  after := []
  inTime := by decide

/-- An event with one flag is enough to lose the request of the next attempt. Where the server is
silent, its connect is not noticed until it times out. -/
example :
    let c := (Client.init {} "").onResolved [true, true]
    let failing : Failure := .event [] (by decide) EPollFlags.error (by decide) none
    let silent : Success := { before := [], hasBanner := false, after := [], inTime := by decide }
    (c.attemptSteps .insertion .plain
        (failing.steps [true] ++ silent.steps [])).session.isConnectionEstablished = false ∧
      (c.attemptSteps .insertion .plain (failing.steps [true] ++
        List.replicate 5 (.interlude .onUpdate))).session.state = .disconnected := by
  decide

end

end Conntop
