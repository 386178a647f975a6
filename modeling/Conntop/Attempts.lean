import Conntop.Fallback

/-!
# The attempts of `ClientConnector`

The whole of `tryNext`, with the bounds of the two lists and the exception. Whether an attempt gets
a socket that is connected is given for each number of an attempt (`connects`), so any pattern of
failures is one. An attempt that fails later makes the client call `tryNext` again.

* `turn` is one turn of the loop. It is `none` where an index is out of range. `AddressQueue.next`
  is what it takes (`turn_eq_next`).
* The indexes are natural numbers. The first exception ends the program, so `m_portIndex` counts at
  most one port too many.

Main result: `calls_try_each`, the attempts of all calls.
-/

namespace Conntop

namespace AddressQueue

/-! ## One call -/

section

variable {α β : Type} (q : AddressQueue α β)

def turn : Option (Option (α × Option β) × AddressQueue α β) :=
  if q.resolvedPorts.isEmpty then
    if q.addressIndex < q.resolvedAddresses.length then do
      let address ← q.resolvedAddresses[q.addressIndex]?
      return (some (address, none), { q with addressIndex := q.addressIndex + 1 })
    else return (none, q)
  else do
    let q := q.wrap
    let address ← q.resolvedAddresses[q.addressIndex]?
    let q := { q with addressIndex := q.addressIndex + 1 }
    if q.portIndex < q.resolvedPorts.length then
      let port ← q.resolvedPorts[q.portIndex]?
      return (some (address, some port), q)
    else return (none, q)

variable {q}

theorem wrap_lt (ha : q.resolvedAddresses ≠ []) :
    q.wrap.addressIndex < q.wrap.resolvedAddresses.length := by
  rw [wrap]
  split_ifs with hlen
  · exact List.length_pos_iff.mpr ha
  · exact not_le.mp hlen

/-- No index is out of range. -/
theorem turn_eq_next (ha : q.resolvedAddresses ≠ []) : q.turn = some q.next := by
  rw [turn, next]
  split_ifs with hp hlt
  · rw [List.getElem?_eq_getElem hlt]
    rfl
  · rw [List.getElem?_eq_none (not_lt.mp hlt)]
    rfl
  · have hlt := wrap_lt ha
    generalize q.wrap = w at hlt ⊢
    dsimp only
    rw [List.getElem?_eq_getElem hlt]
    by_cases hport : w.portIndex < w.resolvedPorts.length
    · rw [List.getElem?_eq_getElem hport]
      exact if_pos hport
    · rw [List.getElem?_eq_none (not_lt.mp hport)]
      exact if_neg hport

end

/-- How a call of `tryNext` ends. It returns at once where no address is resolved. -/
inductive CallEnd
  | returned
  | connected
  | unable (what : String)
  | outOfRange
  deriving DecidableEq, Repr

/-- What `socket.connect` gets in a call, and how the call ends. -/
structure Call where
  attempts : List (Address × BitVec 16) := []
  result : CallEnd
  deriving DecidableEq, Repr

def DEFAULT_PORT : BitVec 16 := 55555

/-- The address and the port of an attempt. -/
def endpoint (x : Address × Option Port) : Address × BitVec 16 :=
  (x.1, (x.2.map Port.number).getD DEFAULT_PORT)

def what (host : String) : String := "Unable to connect to '" ++ host ++ "'"

variable (connects : ℕ → Bool) (host : String)

/-- The loop of `tryNext`. `k` attempts were made before. -/
def callLoop : ℕ → ℕ → AddressQueue Address Port → Option (Call × AddressQueue Address Port)
  | 0, _, _ => none
  | fuel + 1, k, q =>
    match q.turn with
    | none => some ({ result := .outOfRange }, q)
    | some (none, q) => some ({ result := .unable (what host) }, q)
    | some (some x, q) =>
      if connects k then some ({ attempts := [endpoint x], result := .connected }, q)
      else (callLoop fuel (k + 1) q).map fun r =>
        ({ r.1 with attempts := endpoint x :: r.1.attempts }, r.2)

/-- `ClientConnector::tryNext`. -/
def call (fuel k : ℕ) (q : AddressQueue Address Port) :
    Option (Call × AddressQueue Address Port) :=
  if q.resolvedAddresses.isEmpty then some ({ result := .returned }, q)
  else callLoop connects host fuel k q

/-- Some calls, one after the other. -/
def calls (fuel : ℕ) : ℕ → ℕ → AddressQueue Address Port → Option (List Call)
  | 0, _, _ => some []
  | n + 1, k, q => do
    let (c, q) ← call connects host fuel k q
    let cs ← calls fuel n (k + c.attempts.length) q
    return c :: cs

/-! ## Resolution -/

/-- `PortResolveCallback`. -/
def portResolveCallback (q : AddressQueue Address Port) (service : String) (pack : List Port) :
    Except String (AddressQueue Address Port) :=
  if pack.isEmpty then .error ("Unable to resolve server port '" ++ service ++ "'")
  else .ok { q with resolvedPorts := pack, portIndex := 0 }

/-- `HostResolveCallback`, up to its `tryNext`. -/
def hostResolveCallback (q : AddressQueue Address Port) (hostname : String)
    (pack : List Address) : Except String (AddressQueue Address Port) :=
  if pack.isEmpty then .error ("Unable to resolve server address '" ++ hostname ++ "'")
  else .ok { q with resolvedAddresses := pack, addressIndex := 0 }

/-- The connector before the first `tryNext`. Without a port argument no port is resolved. -/
def resolve (service : Option (String × List Port)) (addresses : List Address) :
    Except String (AddressQueue Address Port) :=
  let q : AddressQueue Address Port := { resolvedAddresses := [] }
  match service with
  | some (name, pack) => do
    let q ← q.portResolveCallback name pack
    q.hostResolveCallback host addresses
  | none => q.hostResolveCallback host addresses

/-- Every address with the first port, then with the second one. -/
def pairs (service : Option (String × List Port)) (addresses : List Address) :
    List (Address × BitVec 16) :=
  let ports := match service with
    | some (_, pack) => pack.map Port.number
    | none => [DEFAULT_PORT]
  ports.flatMap fun port => addresses.map fun address => (address, port)

/-! ## What a call does -/

variable {connects host} {q : AddressQueue Address Port}

/-- A call that makes its attempts behind `k` others: they fail up to the last one, which gets a
socket, or they all fail. -/
def Call.Follows (connects : ℕ → Bool) (host : String) (k : ℕ) (c : Call) : Prop :=
  (c.result = .connected ∧ ∃ j, c.attempts.length = j + 1 ∧ connects (k + j) = true ∧
    ∀ i < j, connects (k + i) = false) ∨
  (c.result = .unable (what host) ∧ ∀ i < c.attempts.length, connects (k + i) = false)

theorem Call.Follows.cons {k : ℕ} {c : Call} (h : c.Follows connects host (k + 1))
    (hk : connects k = false) (x : Address × BitVec 16) :
    Call.Follows connects host k { c with attempts := x :: c.attempts } := by
  have hfail : ∀ n, (∀ i < n, connects (k + 1 + i) = false) →
      ∀ i < n + 1, connects (k + i) = false := by
    intro n hn i hi
    cases i with
    | zero => exact hk
    | succ i =>
      rw [Nat.add_comm i, ← Nat.add_assoc]
      exact hn i (Nat.lt_of_succ_lt_succ hi)
  obtain ⟨hr, j, hj, hlast, hn⟩ | ⟨hr, hn⟩ := h
  · refine .inl ⟨hr, j + 1, congrArg (· + 1) hj, ?_, hfail j hn⟩
    rw [Nat.add_comm j, ← Nat.add_assoc]
    exact hlast
  · exact .inr ⟨hr, hfail _ hn⟩

/-- The attempts of a call are the first pairs that are left, and all of them when it throws. -/
structure Call.Takes (connects : ℕ → Bool) (host : String) (k : ℕ)
    (q : AddressQueue Address Port) (c : Call) (q' : AddressQueue Address Port) : Prop where
  follows : c.Follows connects host k
  addresses : q'.resolvedAddresses = q.resolvedAddresses
  left : c.attempts ++ q'.left.map endpoint = q.left.map endpoint
  unable : c.result = .unable (what host) → q'.left = []

theorem callLoop_takes (ha : q.resolvedAddresses ≠ []) {fuel : ℕ} (hfuel : q.left.length < fuel)
    (k : ℕ) : ∃ c q', callLoop connects host fuel k q = some (c, q') ∧
      c.Takes connects host k q q' := by
  induction fuel generalizing q k with
  | zero => exact absurd hfuel (Nat.not_lt_zero _)
  | succ fuel ih =>
    obtain ⟨hhead, htail, haddr⟩ := next_eq ha
    rw [callLoop, turn_eq_next ha]
    generalize q.next = r at hhead htail haddr
    obtain ⟨x, q'⟩ := r
    dsimp only at hhead htail haddr ⊢
    subst hhead
    -- nothing is left: the call ends with the exception, and the next one starts anew
    cases hl : q.left with
    | nil =>
      rw [hl] at htail
      refine ⟨_, q', rfl, .inr ⟨rfl, fun i hi => absurd hi (Nat.not_lt_zero i)⟩, haddr, ?_,
        fun _ => htail⟩
      rw [hl, htail]
      rfl
    | cons x xs =>
      rw [hl] at htail hfuel
      rw [List.head?_cons]
      dsimp only
      cases hk : connects k with
      -- the first attempt connects
      | true =>
        refine ⟨_, q', if_pos rfl,
          .inl ⟨rfl, 0, rfl, hk, fun i hi => absurd hi (Nat.not_lt_zero i)⟩, haddr, ?_,
          fun h => by cases h⟩
        rw [hl, htail]
        rfl
      -- it fails, and the loop goes on with one less
      | false =>
        have hlen : q'.left.length < fuel := by
          rw [htail]
          exact Nat.lt_of_succ_lt_succ hfuel
        obtain ⟨c, q'', hc, htakes⟩ := ih (haddr ▸ ha) hlen (k + 1)
        refine ⟨_, q'', ?_, htakes.follows.cons hk (endpoint x), htakes.addresses.trans haddr, ?_,
          htakes.unable⟩
        · rw [if_neg Bool.false_ne_true, hc]
          rfl
        · have hleft := htakes.left
          rw [htail] at hleft
          rw [hl, List.cons_append, hleft]
          rfl

theorem call_takes (ha : q.resolvedAddresses ≠ []) {fuel : ℕ} (hfuel : q.left.length < fuel)
    (k : ℕ) :
    ∃ c q', call connects host fuel k q = some (c, q') ∧ c.Takes connects host k q q' := by
  obtain ⟨c, q', hc, htakes⟩ := @callLoop_takes connects host _ ha fuel hfuel k
  refine ⟨c, q', ?_, htakes⟩
  rw [call, if_neg fun h => ha (List.isEmpty_iff.mp h), hc]

/-! ## All calls -/

theorem calls_left (ha : q.resolvedAddresses ≠ []) {fuel : ℕ} (hfuel : q.left.length < fuel)
    (n k : ℕ) : ∃ cs rest, calls connects host fuel n k q = some cs ∧ cs.length = n ∧
      cs.flatMap Call.attempts ++ rest = q.left.map endpoint ∧
      (q.left.length < n → rest = []) ∧
      ∀ before c after, cs = before ++ c :: after →
        c.Follows connects host (k + (before.flatMap Call.attempts).length) ∧
        (c.result = .unable (what host) →
          (before ++ [c]).flatMap Call.attempts = q.left.map endpoint) := by
  induction n generalizing q k with
  | zero =>
    refine ⟨[], q.left.map endpoint, rfl, rfl, rfl, fun h => absurd h (Nat.not_lt_zero _), ?_⟩
    intro before c after h
    simp at h
  | succ n ih =>
    -- the first call takes a prefix of what is left, and the calls behind it the rest
    obtain ⟨c, q', hc, htakes⟩ := @call_takes connects host _ ha fuel hfuel k
    have hleft := htakes.left
    have hlen : c.attempts.length + q'.left.length = q.left.length := by
      have hlen := congrArg List.length hleft
      rwa [List.length_append, List.length_map, List.length_map] at hlen
    obtain ⟨cs, rest, hcs, hn, hrest, hend, hall⟩ :=
      ih (htakes.addresses ▸ ha) (by omega) (k + c.attempts.length)
    refine ⟨c :: cs, rest, ?_, congrArg (· + 1) hn, ?_, ?_, ?_⟩
    · rw [calls, hc]
      dsimp only [bind, Option.bind]
      rw [hcs]
      rfl
    · rw [List.flatMap_cons, List.append_assoc, hrest, hleft]
    · -- only a call that connects may leave something
      intro hlt
      obtain ⟨hr, j, hj, -⟩ | ⟨hr, -⟩ := htakes.follows
      · exact hend (by omega)
      · have hnil := htakes.unable hr
        rw [hnil] at hrest
        exact (List.append_eq_nil_iff.mp hrest).2
    · intro before c' after h
      cases before with
      | nil =>
        obtain ⟨rfl, rfl⟩ := List.cons.inj h
        refine ⟨htakes.follows, fun hr => ?_⟩
        rw [htakes.unable hr] at hleft
        rw [← hleft]
        simp
      | cons b before =>
        obtain ⟨rfl, hsplit⟩ := List.cons.inj h
        obtain ⟨hfollows, hunable⟩ := hall before c' after hsplit
        rw [List.flatMap_cons, List.length_append, ← Nat.add_assoc]
        refine ⟨hfollows, fun hr => ?_⟩
        rw [List.cons_append, List.flatMap_cons, hunable hr, hleft]

/-- What is left when the host is resolved. -/
theorem left_of_resolve {service : Option (String × List Port)} {addresses : List Address}
    (h : resolve host service addresses = .ok q) :
    q.resolvedAddresses ≠ [] ∧ q.left.map endpoint = pairs service addresses := by
  unfold resolve at h
  cases service with
  | none =>
    change hostResolveCallback _ host addresses = _ at h
    rw [hostResolveCallback] at h
    split_ifs at h with ha
    cases h
    refine ⟨fun he => ha (List.isEmpty_iff.mpr he), ?_⟩
    simp [left, pairs, endpoint, Function.comp_def]
  | some s =>
    obtain ⟨name, pack⟩ := s
    obtain ⟨q', hq', h⟩ := Value.of_bind_ok h
    rw [portResolveCallback] at hq'
    split_ifs at hq' with hp
    cases hq'
    rw [hostResolveCallback] at h
    split_ifs at h with ha
    cases h
    refine ⟨fun he => ha (List.isEmpty_iff.mpr he), ?_⟩
    cases pack with
    | nil => exact absurd rfl hp
    | cons port pack =>
      simp [left, pairs, endpoint, List.map_flatMap, List.flatMap_map, Function.comp_def]

/-- **Every endpoint is tried exactly once**: however the attempts fail, at once or later, every
call ends, and the attempts of the calls are the pairs in their order. A call returns with its last
attempt connected, or all pairs were tried and it throws. -/
theorem calls_try_each {service : Option (String × List Port)} {addresses : List Address}
    (h : resolve host service addresses = .ok q) (connects : ℕ → Bool) {fuel : ℕ}
    (hfuel : (pairs service addresses).length < fuel) (n : ℕ) :
    ∃ cs, calls connects host fuel n 0 q = some cs ∧ cs.length = n ∧
      cs.flatMap Call.attempts <+: pairs service addresses ∧
      ((pairs service addresses).length < n → cs.flatMap Call.attempts = pairs service addresses) ∧
      (∀ before c after, cs = before ++ c :: after →
        c.Follows connects host (before.flatMap Call.attempts).length ∧
        (c.result = .unable (what host) →
          (before ++ [c]).flatMap Call.attempts = pairs service addresses ∧
          ∀ c' ∈ after, c' = { result := .unable (what host) })) := by
  obtain ⟨ha, hleft⟩ := left_of_resolve h
  have hlen : q.left.length = (pairs service addresses).length := by
    rw [← hleft, List.length_map]
  obtain ⟨cs, rest, hcs, hn, hrest, hend, hall⟩ :=
    @calls_left connects host _ ha fuel (hlen ▸ hfuel) n 0
  rw [hleft] at hrest hall
  rw [hlen] at hend
  refine ⟨cs, hcs, hn, ⟨rest, hrest⟩, fun hlt => ?_, fun before c after hsplit => ?_⟩
  · rw [hend hlt, List.append_nil] at hrest
    exact hrest
  · obtain ⟨hfollows, hunable⟩ := hall before c after hsplit
    rw [Nat.zero_add] at hfollows
    refine ⟨hfollows, fun hr => ⟨hunable hr, fun c' hc' => ?_⟩⟩
    -- nothing is left for the calls behind it
    have hnil : after.flatMap Call.attempts = [] := by
      rw [hsplit, List.append_cons, List.flatMap_append, hunable hr, List.append_assoc] at hrest
      exact (List.append_eq_nil_iff.mp
        (List.append_cancel_left (hrest.trans (List.append_nil _).symm))).1
    have hattempts : c'.attempts = [] := List.flatMap_eq_nil_iff.mp hnil c' hc'
    obtain ⟨between, later, rfl⟩ := List.append_of_mem hc'
    have hsplit' : cs = (before ++ c :: between) ++ c' :: later := by
      rw [hsplit, List.append_assoc, List.cons_append]
    obtain ⟨-, j, hj, -⟩ | ⟨hr', -⟩ := (hall _ c' later hsplit').1
    · rw [hattempts] at hj
      cases hj
    · obtain ⟨attempts, result⟩ := c'
      cases hattempts
      exact congrArg _ hr'

/-- Two addresses and two ports. The second attempt connects, and fails later. -/
theorem calls_try_each_pair :
    ∃ q, resolve "host" (some ("port", [⟨.tcp, 1⟩, ⟨.tcp, 2⟩])) [.ip4 1, .ip4 2] = .ok q ∧
      ∃ cs, calls (· == 1) "host" 5 3 0 q = some cs ∧
        cs.flatMap Call.attempts <+: [(.ip4 1, 1), (.ip4 2, 1), (.ip4 1, 2), (.ip4 2, 2)] := by
  refine ⟨_, rfl, ?_⟩
  obtain ⟨cs, hcs, -, hprefix, -⟩ :=
    @calls_try_each "host" _ (some ("port", [⟨.tcp, 1⟩, ⟨.tcp, 2⟩])) [.ip4 1, .ip4 2] rfl (· == 1) 5
      (by decide) 3
  exact ⟨cs, hcs, hprefix⟩

end AddressQueue

end Conntop
