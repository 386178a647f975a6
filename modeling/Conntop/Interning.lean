import Conntop.Inet
import Conntop.Pointers

/-!
# Every sequence of calls of a `ConnectionStorage`

A session that starts with an empty storage. `Steps` and `Runs` say what one call and a sequence of
calls do on the values.

`Conntop.ConnectionStorage`, keyed by values, is a storage for the same contents. `run_models`: it
gives the same answers, so that the other modules may use it.

Main result: `run_interned`.
-/

namespace Conntop.Pointers

/-! ## One call of a session -/

namespace Session

variable {σ : Type} [DecidableEq σ] [SizeT σ] {std : StdHash σ} {inet : InetText}
  {s s' : Session} {call : Call Connection} {r : Result}

/-- All pointers that were returned are to data that is there. -/
structure Wf (s : Session) : Prop where
  storage : s.storage.Wf
  addresses : ∀ p ∈ s.addresses, s.storage.IsAddress p
  ports : ∀ p ∈ s.ports, s.storage.IsPort p
  built : ∀ c ∈ s.built, s.storage.Valid c

theorem wf_empty : Wf {} where
  storage := { ConnectionStorage.interned_empty with connections := NodeTable.wf_nil }
  addresses := by simp
  ports := by simp
  built := by simp

/-- What a call does, and what it returns. -/
structure Steps (s : Session) (call : Call Connection) (r : Result) (s' : Session) : Prop where
  wf : s'.Wf
  ext : s.storage.Extends s'.storage
  built : ∀ c ∈ s.built, c ∈ s'.built
  known : ∀ c, call.connection? = some c → c ∈ s.built
  refines : s.storage.contents.step (call.map s'.storage.valueOf) = (r.answer, s'.storage.contents)
  address : ∀ a p, call.address? = some a → r.pointer = some p →
    s'.storage.IsAddress p ∧ s'.storage.addressAt p = a
  port : ∀ a p, call.port? = some a → r.pointer = some p →
    s'.storage.IsPort p ∧ s'.storage.portAt p = a

/-- Another storage with the data of this one and the same connections. -/
theorem Wf.grow (hs : s.Wf) {st : ConnectionStorage} (hi : st.Interned)
    (hext : s.storage.Extends st) (hmap : st.connectionMap = s.storage.connectionMap) :
    Wf { s with storage := st } ∧
      st.contents.connections = s.storage.contents.connections := by
  have hs₀ := hs.storage.toInterned
  have hconn := hext.connections hs₀ hi hs.storage.connections hmap
  refine ⟨?_, hconn.2⟩
  exact
    { storage := { hi with connections := hconn.1 }
      addresses := fun p hp => (hext.address hs₀ hi (hs.addresses p hp)).1
      ports := fun p hp => (hext.port hs₀ hi (hs.ports p hp)).1
      built := fun c hc => hext.valid hs₀ hi (hs.built c hc) }

theorem Wf.consAddress (hs : s.Wf) {p : Pointer} (hp : s.storage.IsAddress p) :
    Wf { s with addresses := p :: s.addresses } :=
  { hs with addresses := List.forall_mem_cons.mpr ⟨hp, hs.addresses⟩ }

theorem Wf.consPort (hs : s.Wf) {p : Pointer} (hp : s.storage.IsPort p) :
    Wf { s with ports := p :: s.ports } :=
  { hs with ports := List.forall_mem_cons.mpr ⟨hp, hs.ports⟩ }

theorem Wf.returnAddress (hs : s.Wf) {a : Address} {x : Pointer × Bool} {st : ConnectionStorage}
    (h : s.storage.AddsAddress a x st) (hcall : call.address? = some a)
    (hport : call.port? = none) (hconn : call.connection? = none)
    (hmap : ∀ f : Connection → Tuple, s.storage.contents.step (call.map f) =
      s.storage.contents.addAddress a) :
    Steps s call (s.returnAddress x st).1 (s.returnAddress x st).2 := by
  obtain ⟨hwf, hconnections⟩ := hs.grow h.interned h.ext h.connectionMap
  exact
    { wf := hwf.consAddress h.isAddress
      ext := h.ext
      built := fun c hc => hc
      known := by simp [hconn]
      refines := by
        rw [hmap]
        refine Prod.ext ?_ (Contents.ext h.addresses.symm h.ports.symm hconnections.symm)
        exact congrArg (fun b => ({ found := true, isNew := b } : Answer)) h.isNew.symm
      address := by
        intro b p hb hp
        rw [hcall] at hb
        cases hb
        cases hp
        exact ⟨h.isAddress, h.addressAt⟩
      port := by simp [hport] }

theorem Wf.returnPort (hs : s.Wf) {port : Port} {loc : Pointer} {x : Pointer × Bool}
    {st : ConnectionStorage} (h : s.storage.AddsPort port x st) :
    Steps s (.addPort loc port) (s.returnPort x st).1 (s.returnPort x st).2 := by
  obtain ⟨hwf, hconnections⟩ := hs.grow h.interned h.ext h.connectionMap
  exact
    { wf := hwf.consPort h.isPort
      ext := h.ext
      built := fun c hc => hc
      known := by simp [Call.connection?]
      refines := by
        refine Prod.ext ?_ (Contents.ext h.addresses.symm h.ports.symm hconnections.symm)
        exact congrArg (fun b => ({ found := true, isNew := b } : Answer)) h.isNew.symm
      address := by simp [Call.address?]
      port := by
        intro b p hb hp
        cases hb
        cases hp
        exact ⟨h.isPort, h.portAt⟩ }

/-- A lookup of an address. -/
theorem Wf.lookUpAddress (hs : s.Wf) {a : Address} {x : Option Pointer}
    (hsome : x.isSome = true ↔ a ∈ s.storage.contents.addresses)
    (hx : ∀ p, x = some p → s.storage.IsAddress p ∧ s.storage.addressAt p = a)
    (hcall : call.address? = some a) (hport : call.port? = none)
    (hconn : call.connection? = none)
    (hmap : ∀ f : Connection → Tuple, s.storage.contents.step (call.map f) =
      ({ found := a ∈ s.storage.contents.addresses }, s.storage.contents)) :
    Steps s call { pointer := x } { s with addresses := x.toList ++ s.addresses } where
  wf := by
    cases x with
    | none => exact hs
    | some p => exact hs.consAddress (hx p rfl).1
  ext := .refl _
  built := fun c hc => hc
  known := by simp [hconn]
  refines := by
    rw [hmap]
    refine congrArg (Prod.mk · _) (congrArg (fun b => ({ found := b } : Answer)) ?_)
    rw [Bool.eq_iff_iff, decide_eq_true_eq, ← hsome]
  address := by
    intro b p hb hp
    rw [hcall] at hb
    cases hb
    exact hx p hp
  port := by simp [hport]

theorem Wf.lookUpPort (hs : s.Wf) {port : Port} {x : Option Pointer}
    (hsome : x.isSome = true ↔ port ∈ s.storage.contents.ports)
    (hx : ∀ p, x = some p → s.storage.IsPort p ∧ s.storage.portAt p = port) :
    Steps s (.getPort port) { pointer := x } { s with ports := x.toList ++ s.ports } where
  wf := by
    cases x with
    | none => exact hs
    | some p => exact hs.consPort (hx p rfl).1
  ext := .refl _
  built := fun c hc => hc
  known := by simp [Call.connection?]
  refines := by
    refine congrArg (Prod.mk · _) (congrArg (fun b => ({ found := b } : Answer)) ?_)
    rw [Bool.eq_iff_iff, decide_eq_true_eq, ← hsome]
  address := by simp [Call.address?]
  port := by
    intro b p hb hp
    cases hb
    exact hx p hp

/-- A storage with other connections. -/
theorem Wf.setConnectionMap (hs : s.Wf) {t : NodeTable Connection ConnectionData}
    (hw : ConnectionStorage.Wf { s.storage with connectionMap := t }) :
    Wf { s with storage := { s.storage with connectionMap := t } } :=
  { storage := hw
    addresses := hs.addresses
    ports := hs.ports
    built := fun c hc => ⟨(hs.built c hc).1, (hs.built c hc).2, (hs.built c hc).3,
      (hs.built c hc).4, (hs.built c hc).5⟩ }

/-- A new connection is of data that is there. -/
theorem Wf.construct (hs : s.Wf) {srcAddress srcPort dstAddress dstPort : Pointer}
    (hsrc : srcAddress ∈ s.addresses) (hsrcPort : srcPort ∈ s.ports)
    (hdst : dstAddress ∈ s.addresses) (hdstPort : dstPort ∈ s.ports) :
    Wf { s with
      built := s.storage.connection srcAddress srcPort dstAddress dstPort :: s.built } :=
  { hs with
    built := List.forall_mem_cons.mpr ⟨⟨hs.addresses _ hsrc, hs.addresses _ hdst,
      hs.ports _ hsrcPort, hs.ports _ hdstPort, rfl⟩, hs.built⟩ }

/-- **A call does on the values what it does on the contents.** -/
theorem Wf.step (hs : s.Wf) (hstep : s.step std inet call = some (r, s')) : Steps s call r s' := by
  have hi := hs.storage.toInterned
  unfold Session.step at hstep
  cases call with
  -- the tables of addresses and ports grow, and their old nodes stay where they are
  | addIP4Address loc a =>
    dsimp only at hstep
    split_ifs at hstep with hloc
    cases hstep
    exact hs.returnAddress (hi.addIP4Address hloc a) rfl rfl rfl fun f => rfl
  | addIP6Address loc a =>
    dsimp only at hstep
    split_ifs at hstep with hloc
    cases hstep
    exact hs.returnAddress (hi.addIP6Address hloc a) rfl rfl rfl fun f => rfl
  | addPort loc p =>
    dsimp only at hstep
    split_ifs at hstep with hloc
    cases hstep
    exact hs.returnPort (hi.addPort hloc p)
  -- a look-up changes nothing, and returns the one node of the value
  | getIP4Address a =>
    cases hstep
    have h := hi.getIP4Address std a
    exact hs.lookUpAddress h.1 h.2 rfl rfl rfl fun f => rfl
  | getIP6Address a =>
    cases hstep
    have h := hi.getIP6Address std a
    exact hs.lookUpAddress h.1 h.2 rfl rfl rfl fun f => rfl
  | getPort p =>
    cases hstep
    have h := hi.getPort std p
    exact hs.lookUpPort h.1 h.2
  -- a `Connection` object refers to nodes that the caller was given
  | construct srcAddress srcPort dstAddress dstPort =>
    dsimp only at hstep
    split_ifs at hstep with hends
    cases hstep
    exact
      { wf := hs.construct hends.1 hends.2.1 hends.2.2.1 hends.2.2.2
        ext := .refl _
        built := fun c hc => List.mem_cons_of_mem _ hc
        known := by simp [Call.connection?]
        refines := rfl
        address := by simp [Call.address?]
        port := by simp [Call.port?] }
  -- only the map of connections changes, so all references stay valid
  | addConnection loc c d =>
    dsimp only at hstep
    split_ifs at hstep with hfail
    cases hstep
    obtain ⟨hloc, hc⟩ := not_or.mp hfail
    have hc := not_not.mp hc
    have hvalid := hs.built c hc
    exact
      { wf := hs.setConnectionMap (hs.storage.wf_addConnection hvalid hloc)
        ext := ⟨fun n hn => hn, fun n hn => hn, fun n hn => hn⟩
        built := fun c hc => hc
        known := fun b hb => Option.some.inj hb ▸ hc
        refines := hs.storage.addConnection hvalid hloc
        address := by simp [Call.address?]
        port := by simp [Call.port?] }
  | removeConnection c =>
    dsimp only at hstep
    split_ifs at hstep with hc
    cases hstep
    rw [ConnectionStorage.removeConnection_eq]
    exact
      { wf := hs.setConnectionMap (hs.storage.eraseConnection std c)
        ext := ⟨fun n hn => hn, fun n hn => hn, fun n hn => hn⟩
        built := fun c hc => hc
        known := fun b hb => Option.some.inj hb ▸ hc
        refines := by
          refine (hs.storage.removeConnection std (hs.built c hc)).trans ?_
          simp [Result.answer]
        address := by simp [Call.address?]
        port := by simp [Call.port?] }
  -- the objects that are built already keep their references
  | clearConnections =>
    cases hstep
    exact
      { wf := hs.setConnectionMap hs.storage.clearConnections.1
        ext := ⟨fun n hn => hn, fun n hn => hn, fun n hn => hn⟩
        built := fun c hc => hc
        known := by simp [Call.connection?]
        refines := congrArg (Prod.mk _) hs.storage.clearConnections.2.symm
        address := by simp [Call.address?]
        port := by simp [Call.port?] }
  | getConnection c =>
    dsimp only at hstep
    split_ifs at hstep with hc
    cases hstep
    have hget := hs.storage.getConnection std (hs.built c hc)
    exact
      { wf := hs
        ext := .refl _
        built := fun c hc => hc
        known := fun b hb => Option.some.inj hb ▸ hc
        refines := by
          refine congrArg (Prod.mk · _) (hget.trans ?_)
          simp [Result.answer]
        address := by simp [Call.address?]
        port := by simp [Call.port?] }

/-! ## Every sequence of calls -/

variable {calls : List (Call Connection)} {results : List Result}

/-- What a sequence of calls does, and what it returns. Connections stand for the values that are
read at the end. -/
structure Runs (s : Session) (calls : List (Call Connection)) (results : List Result)
    (s' : Session) : Prop where
  wf : s'.Wf
  ext : s.storage.Extends s'.storage
  built : ∀ c ∈ s.built, c ∈ s'.built
  refines : s.storage.contents.run (calls.map (Call.map s'.storage.valueOf)) =
    (results.map Result.answer, s'.storage.contents)
  returned : ∀ (i : ℕ) call r p, calls[i]? = some call → results[i]? = some r →
    r.pointer = some p →
    (∀ a, call.address? = some a → s'.storage.IsAddress p ∧ s'.storage.addressAt p = a) ∧
      ∀ port, call.port? = some port → s'.storage.IsPort p ∧ s'.storage.portAt p = port

theorem Wf.run (hs : s.Wf)
    (hrun : GuardedRun.outputs (Session.step std inet) s calls = some (results, s')) :
    Runs s calls results s' := by
  induction calls generalizing s results with
  | nil =>
    cases hrun
    exact
      { wf := hs
        ext := .refl _
        built := fun c hc => hc
        refines := rfl
        returned := fun i call r p hi => nomatch hi }
  | cons call calls ih =>
    obtain ⟨r, s₁, rs, hstep, hrest, rfl⟩ := GuardedRun.outputs_cons_eq_some.mp hrun
    have h₁ := hs.step hstep
    have h := ih h₁.wf hrest
    have hi₁ := h₁.wf.storage.toInterned
    have hi' := h.wf.storage.toInterned
    refine
      { wf := h.wf
        ext := h₁.ext.trans h.ext
        built := fun c hc => h.built c (h₁.built c hc)
        refines := ?_
        returned := ?_ }
    · -- a connection of an earlier call is still read as the same value at the end
      have hcall : call.map s'.storage.valueOf = call.map s₁.storage.valueOf := by
        refine Call.map_congr fun c hc => h.ext.valueOf hi₁ hi' ?_
        exact h₁.wf.built c (h₁.built c (h₁.known c hc))
      rw [List.map_cons, Contents.run, hcall, h₁.refines, h.refines]
      rfl
    · -- nodes stay, so a pointer that was returned reads as it did
      intro i b q p hb hq hp
      cases i with
      | succ i => exact h.returned i b q p hb hq hp
      | zero =>
        cases hb
        cases hq
        constructor
        · intro a ha
          obtain ⟨hmem, hat⟩ := h₁.address a p ha hp
          have hstay := h.ext.address hi₁ hi' hmem
          exact ⟨hstay.1, hstay.2.trans hat⟩
        · intro port hport
          obtain ⟨hmem, hat⟩ := h₁.port port p hport hp
          have hstay := h.ext.port hi₁ hi' hmem
          exact ⟨hstay.1, hstay.2.trans hat⟩

end Session

namespace ConnectionStorage

variable {st : ConnectionStorage} {c d : Connection}

/-- Both ports of the connection are of one protocol. -/
def OneProtocol (st : ConnectionStorage) (c : Connection) : Prop :=
  (st.portAt c.internal.dstPort).type = (st.portAt c.internal.srcPort).type

theorem createType_inj {a : EAddressType} {p q : EPortType}
    (h : EConnectionType.createType a p = .createType a q) : p = q := by
  cases a <;> cases p <;> cases q <;> cases h <;> rfl

/-- The types, the addresses and the numbers of the ports. -/
structure SameFiveTuple (st : ConnectionStorage) (c d : Connection) : Prop where
  type : c.internal.type = d.internal.type
  srcAddr : st.addressAt c.srcAddr = st.addressAt d.srcAddr
  dstAddr : st.addressAt c.dstAddr = st.addressAt d.dstAddr
  srcPort : (st.portAt c.internal.srcPort).number = (st.portAt d.internal.srcPort).number
  dstPort : (st.portAt c.internal.dstPort).number = (st.portAt d.internal.dstPort).number

/-- The type of a connection says which protocol its source port is of. -/
theorem Interned.isEqual_iff_sameFiveTuple (hi : st.Interned) (hc : st.Valid c) (hd : st.Valid d)
    (hc' : st.OneProtocol c) (hd' : st.OneProtocol d) :
    c.isEqual d = true ↔ st.SameFiveTuple c d := by
  constructor
  · intro h
    obtain rfl := Connection.isEqual_iff.mp h
    exact ⟨rfl, rfl, rfl, rfl, rfl⟩
  · intro h
    rw [hi.isEqual_iff hc hd]
    have htype := h.type
    rw [hc.type, hd.type, h.srcAddr] at htype
    have hsrc : st.portAt c.internal.srcPort = st.portAt d.internal.srcPort := by
      have := createType_inj htype
      have hnumber := h.srcPort
      cases hp : st.portAt c.internal.srcPort
      cases hq : st.portAt d.internal.srcPort
      simp_all
    have hdst : st.portAt c.internal.dstPort = st.portAt d.internal.dstPort := by
      have hproto : (st.portAt c.internal.dstPort).type = (st.portAt d.internal.dstPort).type := by
        rw [hc', hd', hsrc]
      have hnumber := h.dstPort
      cases hp : st.portAt c.internal.dstPort
      cases hq : st.portAt d.internal.dstPort
      simp_all
    unfold valueOf
    rw [h.srcAddr, h.dstAddr, hsrc, hdst]

end ConnectionStorage

/-- **A storage is what it is for. Each address and each port stays at one location, connections are
equal exactly when their addresses and ports are, and equal ones have one hash. The calls return
what the contents answer, keyed by these values.** -/
theorem run_interned {σ : Type} [DecidableEq σ] [SizeT σ] (std : StdHash σ) (inet : InetText)
    (calls : List (Call Connection)) {results : List Result} {s : Session}
    (hrun : GuardedRun.outputs (Session.step std inet) {} calls = some (results, s)) :
    (∀ (i j : ℕ) call call' r r' p q, calls[i]? = some call → calls[j]? = some call' →
        results[i]? = some r → results[j]? = some r' → r.pointer = some p → r'.pointer = some q →
        (∀ a b, call.address? = some a → call'.address? = some b →
          s.storage.addressAt p = a ∧ (p = q ↔ a = b)) ∧
        ∀ a b, call.port? = some a → call'.port? = some b →
          s.storage.portAt p = a ∧ (p = q ↔ a = b)) ∧
      (∀ c ∈ s.built, ∀ d ∈ s.built,
        (c.isEqual d = true ↔ s.storage.valueOf c = s.storage.valueOf d) ∧
        (s.storage.OneProtocol c → s.storage.OneProtocol d →
          (c.isEqual d = true ↔ s.storage.SameFiveTuple c d)) ∧
        (c.isEqual d = true → std.computeHash c = std.computeHash d)) ∧
      Contents.run {} (calls.map (Call.map s.storage.valueOf)) =
        (results.map Result.answer, s.storage.contents) := by
  have h := Session.wf_empty.run hrun
  have hi := h.wf.storage.toInterned
  refine ⟨?_, ?_, ?_⟩
  · intro i j call call' r r' p q hcall hcall' hr hr' hp hq
    have hleft := h.returned i call r p hcall hr hp
    have hright := h.returned j call' r' q hcall' hr' hq
    constructor
    · intro a b ha hb
      obtain ⟨hp, rfl⟩ := hleft.1 a ha
      obtain ⟨hq, rfl⟩ := hright.1 b hb
      exact ⟨rfl, congrArg _, hi.addressAt_inj hp hq⟩
    · intro a b ha hb
      obtain ⟨hp, rfl⟩ := hleft.2 a ha
      obtain ⟨hq, rfl⟩ := hright.2 b hb
      exact ⟨rfl, congrArg _, hi.portAt_inj hp hq⟩
  · intro c hc d hd
    have hc := h.wf.built c hc
    have hd := h.wf.built d hd
    refine ⟨hi.isEqual_iff hc hd, hi.isEqual_iff_sameFiveTuple hc hd, fun heq => ?_⟩
    rw [Connection.isEqual_iff.mp heq]
  · exact h.refines

/-- Numbers are their own hashes. -/
def StdHash.identity : StdHash UInt64 where
  int := UInt64.ofInt
  uint16 := fun n => UInt64.ofNat n.toNat
  uint32 := fun n => UInt64.ofNat n.toNat
  pointer := UInt64.ofNat

/-- The connection whose parts are at 1, 2, 3 and 4. -/
private def pointed : Connection :=
  { srcAddr := 1, dstAddr := 2, internal := { type := .tcp4, srcPort := 3, dstPort := 4 } }

/-- A connection is added twice, removed twice, and added again where it was. -/
private def pointedCalls : List (Call Connection) :=
  [.addIP4Address 1 ⟨0x0100007F#32⟩, .addIP4Address 2 ⟨0x0200007F#32⟩, .addPort 3 ⟨.tcp, 80#16⟩,
    .addPort 4 ⟨.tcp, 22#16⟩, .addIP4Address 5 ⟨0x0100007F#32⟩, .construct 1 3 2 4,
    .addConnection 5 pointed {}, .addConnection 6 pointed { state := 1 }, .removeConnection pointed,
    .removeConnection pointed, .addConnection 5 pointed { state := 2 }, .getConnection pointed]

theorem run_interned_pointed :
    ∃ results s, GuardedRun.outputs (Session.step .identity .plain) {} pointedCalls =
        some (results, s) ∧
      results.map (·.pointer) = [some 1, some 2, some 3, some 4, some 1, none, some 5, some 5,
        some 5, none, some 5, some 5] ∧
      Contents.run {} (pointedCalls.map (Call.map s.storage.valueOf)) =
        (results.map Result.answer, s.storage.contents) :=
  ⟨_, _, rfl, rfl, (run_interned .identity .plain pointedCalls rfl).2.2⟩

/-- Two connections of one type, with one source, one destination address and one number of the
destination port. They differ, since one destination port is a TCP port and the other a UDP port. -/
theorem sameFiveTuple_not_isEqual :
    ¬∀ (calls : List (Call Connection)) (results : List Result) (s : Session),
        GuardedRun.outputs (Session.step .identity .plain) {} calls = some (results, s) →
        ∀ c ∈ s.built, ∀ d ∈ s.built,
          (c.isEqual d = true ↔ s.storage.SameFiveTuple c d) := by
  intro hall
  have h := hall [.addIP4Address 1 ⟨0x0100007F#32⟩, .addPort 3 ⟨.tcp, 80#16⟩,
    .addPort 4 ⟨.udp, 80#16⟩, .construct 1 3 1 3, .construct 1 3 1 4] _ _ rfl
    { srcAddr := 1, dstAddr := 1, internal := { type := .tcp4, srcPort := 3, dstPort := 3 } }
    (by decide)
    { srcAddr := 1, dstAddr := 1, internal := { type := .tcp4, srcPort := 3, dstPort := 4 } }
    (by decide)
  exact absurd (h.mpr ⟨rfl, rfl, rfl, rfl, rfl⟩) (by decide)

/-! ## The storage keyed by values -/

namespace Tuple

def of (c : Conntop.Connection) : Tuple :=
  { srcAddr := c.srcAddr, srcPort := c.srcPort, dstAddr := c.dstAddr, dstPort := c.dstPort }

theorem of_injective : Function.Injective of := by
  intro c d h
  injection h with hsrc hsrcPort hdst hdstPort
  exact Connection.ext hsrc hsrcPort hdst hdstPort

end Tuple

section Values

variable {st : Conntop.ConnectionStorage} {inet : InetText}

def contentsOf (st : Conntop.ConnectionStorage) : Contents where
  addresses := st.addressMap.keys.toFinset
  ports := st.portMap.keys.toFinset
  connections := (st.connectionMap.entries.map fun e =>
    (⟨.of e.1, e.2⟩ : Sigma fun _ : Tuple => Conntop.ConnectionData)).toFinmap

theorem mem_addresses_contentsOf {a : Address} :
    a ∈ (contentsOf st).addresses ↔ a ∈ st.addressMap := by
  simp [contentsOf, AList.mem_keys]

theorem mem_ports_contentsOf {p : Port} : p ∈ (contentsOf st).ports ↔ p ∈ st.portMap := by
  simp [contentsOf, AList.mem_keys]

theorem lookup_contentsOf_eq_some {x : Tuple} {d : Conntop.ConnectionData} :
    (contentsOf st).connections.lookup x = some d ↔
      ∃ c, Tuple.of c = x ∧ st.connectionMap.lookup c = some d := by
  have hnodup : (st.connectionMap.entries.map fun e =>
      (⟨.of e.1, e.2⟩ : Sigma fun _ : Tuple => Conntop.ConnectionData)).NodupKeys := by
    rw [List.NodupKeys, List.keys, List.map_map]
    have h := st.connectionMap.nodupKeys
    rw [List.NodupKeys, List.keys] at h
    simpa [Function.comp_def] using h.map Tuple.of_injective
  unfold contentsOf
  rw [Finmap.dlookup_list_toFinmap, ← Option.mem_def, List.mem_dlookup_iff hnodup]
  simp only [List.mem_map]
  constructor
  · rintro ⟨⟨c, e⟩, hmem, heq⟩
    cases heq
    exact ⟨c, rfl, AList.mem_lookup_iff.mpr hmem⟩
  · rintro ⟨c, rfl, hlookup⟩
    exact ⟨⟨c, d⟩, AList.mem_lookup_iff.mp hlookup, rfl⟩

theorem lookup_contentsOf (c : Conntop.Connection) :
    (contentsOf st).connections.lookup (.of c) = st.connectionMap.lookup c := by
  refine Option.ext fun d => ?_
  rw [lookup_contentsOf_eq_some]
  constructor
  · rintro ⟨c', heq, h⟩
    rwa [Tuple.of_injective heq] at h
  · exact fun h => ⟨c, rfl, h⟩

theorem mem_connections_contentsOf {c : Conntop.Connection} :
    .of c ∈ (contentsOf st).connections ↔ c ∈ st.connectionMap := by
  rw [← Finmap.lookup_isSome, lookup_contentsOf, AList.lookup_isSome]

/-- The same call of the storage keyed by values. -/
def valueStep (inet : InetText) (st : Conntop.ConnectionStorage) :
    Call Conntop.Connection → Answer × Conntop.ConnectionStorage
  | .addIP4Address _ a =>
    ({ found := true, isNew := (st.addAddress inet a.toAddress).2 },
      (st.addAddress inet a.toAddress).1)
  | .addIP6Address _ a =>
    ({ found := true, isNew := (st.addAddress inet a.toAddress).2 },
      (st.addAddress inet a.toAddress).1)
  | .addPort _ p => ({ found := true, isNew := (st.addPort p).2 }, (st.addPort p).1)
  | .getIP4Address a => ({ found := (st.getAddress a.toAddress).isSome }, st)
  | .getIP6Address a => ({ found := (st.getAddress a.toAddress).isSome }, st)
  | .getPort p => ({ found := (st.getPort p).isSome }, st)
  | .construct .. => ({}, st)
  | .addConnection _ c d =>
    ({ found := true
       isNew := (st.addConnection c d).2
       data := some ((st.addConnection c d).1.connectionData c) }, (st.addConnection c d).1)
  | .removeConnection c =>
    ({ found := (st.removeConnection c).2, data := st.connectionMap.lookup c },
      (st.removeConnection c).1)
  | .clearConnections => ({}, st.clearConnections)
  | .getConnection c =>
    ({ found := (st.getConnection c).isSome, data := (st.getConnection c).map st.connectionData },
      st)

def valueRun (inet : InetText) : Conntop.ConnectionStorage → List (Call Conntop.Connection) →
    List Answer × Conntop.ConnectionStorage
  | st, [] => ([], st)
  | st, call :: calls =>
    ((valueStep inet st call).1 :: (valueRun inet (valueStep inet st call).2 calls).1,
      (valueRun inet (valueStep inet st call).2 calls).2)

theorem contentsOf_addAddress (a : Address) :
    (contentsOf st).addAddress a =
      ({ found := true, isNew := (st.addAddress inet a).2 },
        contentsOf (st.addAddress inet a).1) := by
  unfold Contents.addAddress
  refine Prod.ext ?_ (Contents.ext ?_ ?_ ?_)
  · simp only [mem_addresses_contentsOf]
    unfold Conntop.ConnectionStorage.addAddress
    split_ifs with h <;> simp [h]
  · ext b
    rw [Finset.mem_insert, mem_addresses_contentsOf, mem_addresses_contentsOf,
      Conntop.ConnectionStorage.mem_addAddress]
  · simp [contentsOf]
  · simp [contentsOf]

theorem contentsOf_addPort (p : Port) :
    (contentsOf st).addPort p =
      ({ found := true, isNew := (st.addPort p).2 }, contentsOf (st.addPort p).1) := by
  unfold Contents.addPort
  refine Prod.ext ?_ (Contents.ext ?_ ?_ ?_)
  · simp only [mem_ports_contentsOf]
    unfold Conntop.ConnectionStorage.addPort
    split_ifs with h <;> simp [h]
  · simp [contentsOf]
  · ext b
    rw [Finset.mem_insert, mem_ports_contentsOf, mem_ports_contentsOf,
      Conntop.ConnectionStorage.mem_addPort]
  · simp [contentsOf]

theorem contentsOf_getAddress (a : Address) :
    (({ found := a ∈ (contentsOf st).addresses } : Answer), contentsOf st) =
      ({ found := (st.getAddress a).isSome }, contentsOf st) := by
  simp only [mem_addresses_contentsOf]
  unfold Conntop.ConnectionStorage.getAddress
  split_ifs with h <;> simp [h]

theorem contentsOf_getPort (p : Port) :
    (({ found := p ∈ (contentsOf st).ports } : Answer), contentsOf st) =
      ({ found := (st.getPort p).isSome }, contentsOf st) := by
  simp only [mem_ports_contentsOf]
  unfold Conntop.ConnectionStorage.getPort
  split_ifs with h <;> simp [h]

theorem contentsOf_addConnection (c : Conntop.Connection) (d : Conntop.ConnectionData) :
    (contentsOf st).addConnection (.of c) d =
      ({ found := true
         isNew := (st.addConnection c d).2
         data := some ((st.addConnection c d).1.connectionData c) },
        contentsOf (st.addConnection c d).1) := by
  unfold Contents.addConnection
  by_cases hc : c ∈ st.connectionMap
  · rw [if_pos (mem_connections_contentsOf.mpr hc), lookup_contentsOf]
    obtain ⟨e, he⟩ := Option.isSome_iff_exists.mp (AList.lookup_isSome.mpr hc)
    simp [Conntop.ConnectionStorage.addConnection, hc, Conntop.ConnectionStorage.connectionData, he]
  · have hlookup := @Conntop.ConnectionStorage.lookup_addConnection st c d
    rw [if_neg (mt mem_connections_contentsOf.mp hc)]
    refine Prod.ext ?_ (Contents.ext ?_ ?_ ?_)
    · simp [Conntop.ConnectionStorage.addConnection, hc, Conntop.ConnectionStorage.connectionData]
    · simp [Conntop.ConnectionStorage.addConnection, hc, contentsOf]
    · simp [Conntop.ConnectionStorage.addConnection, hc, contentsOf]
    · refine Finmap.ext_lookup fun x => Option.ext fun e => ?_
      rw [lookup_contentsOf_eq_some]
      by_cases hx : x = .of c
      · subst hx
        rw [Finmap.lookup_insert]
        constructor
        · intro h
          exact ⟨c, rfl, by rw [hlookup, if_pos ⟨rfl, hc⟩, h]⟩
        · rintro ⟨c', heq, h⟩
          rw [Tuple.of_injective heq, hlookup, if_pos ⟨rfl, hc⟩] at h
          exact h
      · rw [Finmap.lookup_insert_of_ne _ hx, lookup_contentsOf_eq_some]
        refine exists_congr fun c' => and_congr_right fun heq => ?_
        rw [hlookup, if_neg]
        rintro ⟨rfl, -⟩
        exact hx heq.symm

theorem contentsOf_removeConnection (c : Conntop.Connection) :
    (contentsOf st).removeConnection (.of c) =
      ({ found := (st.removeConnection c).2, data := st.connectionMap.lookup c },
        contentsOf (st.removeConnection c).1) := by
  have hlookup := @Conntop.ConnectionStorage.lookup_removeConnection st c
  unfold Contents.removeConnection
  rw [lookup_contentsOf]
  refine Prod.ext ?_ (Contents.ext ?_ ?_ ?_)
  · simp only [mem_connections_contentsOf]
    unfold Conntop.ConnectionStorage.removeConnection
    split_ifs with h <;> simp [h]
  · unfold Conntop.ConnectionStorage.removeConnection
    split_ifs <;> rfl
  · unfold Conntop.ConnectionStorage.removeConnection
    split_ifs <;> rfl
  · refine Finmap.ext_lookup fun x => Option.ext fun e => ?_
    rw [lookup_contentsOf_eq_some]
    by_cases hx : x = .of c
    · subst hx
      rw [Finmap.lookup_erase]
      refine iff_of_false (by simp) ?_
      rintro ⟨c', heq, h⟩
      rw [Tuple.of_injective heq, hlookup, if_pos rfl] at h
      cases h
    · rw [Finmap.lookup_erase_ne hx, lookup_contentsOf_eq_some]
      refine exists_congr fun c' => and_congr_right fun heq => ?_
      rw [hlookup, if_neg]
      rintro rfl
      exact hx heq.symm

theorem contentsOf_getConnection (c : Conntop.Connection) :
    (contentsOf st).getConnection (.of c) =
      { found := (st.getConnection c).isSome
        data := (st.getConnection c).map st.connectionData } := by
  unfold Contents.getConnection Conntop.ConnectionStorage.getConnection
  rw [lookup_contentsOf]
  simp only [mem_connections_contentsOf]
  split_ifs with hc
  · obtain ⟨e, he⟩ := Option.isSome_iff_exists.mp (AList.lookup_isSome.mpr hc)
    simp [hc, Conntop.ConnectionStorage.connectionData, he]
  · simp [hc, AList.lookup_eq_none.mpr hc]

/-- **A call of the storage keyed by values does what it does on the contents.** -/
theorem step_models (inet : InetText) (st : Conntop.ConnectionStorage)
    (call : Call Conntop.Connection) :
    (contentsOf st).step (call.map .of) =
      ((valueStep inet st call).1, contentsOf (valueStep inet st call).2) := by
  cases call with
  | addIP4Address loc a => exact contentsOf_addAddress a.toAddress
  | addIP6Address loc a => exact contentsOf_addAddress a.toAddress
  | addPort loc p => exact contentsOf_addPort p
  | getIP4Address a => exact contentsOf_getAddress a.toAddress
  | getIP6Address a => exact contentsOf_getAddress a.toAddress
  | getPort p => exact contentsOf_getPort p
  | construct => rfl
  | addConnection loc c d => exact contentsOf_addConnection c d
  | removeConnection c => exact contentsOf_removeConnection c
  | clearConnections => rfl
  | getConnection c => exact congrArg (Prod.mk · _) (contentsOf_getConnection c)

theorem run_contentsOf (inet : InetText) (st : Conntop.ConnectionStorage)
    (calls : List (Call Conntop.Connection)) :
    (contentsOf st).run (calls.map (Call.map .of)) =
      ((valueRun inet st calls).1, contentsOf (valueRun inet st calls).2) := by
  induction calls generalizing st with
  | nil => rfl
  | cons call calls ih =>
    rw [List.map_cons, Contents.run, step_models inet st call, ih]
    rfl

/-- **The storage keyed by values gives the answers of the one with pointers.** -/
theorem run_models {σ : Type} [DecidableEq σ] [SizeT σ] {std : StdHash σ}
    {calls : List (Call Connection)} {results : List Result} {s : Session}
    (hrun : GuardedRun.outputs (Session.step std inet) {} calls = some (results, s))
    {values : List (Call Conntop.Connection)}
    (hvalues : calls.map (Call.map s.storage.valueOf) = values.map (Call.map .of)) :
    results.map Result.answer = (valueRun inet {} values).1 ∧
      s.storage.contents = contentsOf (valueRun inet {} values).2 := by
  have h := (Session.wf_empty.run hrun).refines
  rw [hvalues] at h
  exact Prod.ext_iff.mp (h.symm.trans (run_contentsOf inet {} values))

end Values

end Conntop.Pointers
