import Conntop.Conntrack
import Conntop.Lib.ChangeLog

/-!
# The collector and the kernel table

`Conntrack` with its event queue, and the kernel: the conntrack table, and the event socket as a
bounded FIFO. An event that does not fit is dropped and `isOverrun` is set. The next read reports
`ENOBUFS` and clears it.

* A dump of the table is atomic, so `onUpdate` gets the table as it is.
* Entries of the table have different 5-tuples. A counter can change without an event.

Main result: `run_converged`. Events that are still in the socket when a refill dumps the table are
read after it and replayed over it. That is harmless when the last of them agrees with the table
for each connection (`SettledRefills`), as it is unless events were lost after it.
-/

namespace Conntop

open ChangeLog

/-! ## `Conntrack` -/

/-- `ConntrackEvent::EType`. -/
inductive ConntrackEventType
  | newConnection | removedConnection
  deriving DecidableEq, Repr

structure ConntrackEvent where
  type : ConntrackEventType
  connection : Connection
  deriving DecidableEq

/-- What an event says about the connections. -/
def ConntrackEvent.change (event : ConntrackEvent) : Change Connection :=
  match event.type with
  | .newConnection => .insert event.connection
  | .removedConnection => .erase event.connection

/-- A message of the event socket: `NFCT_T_NEW` or `NFCT_T_DESTROY`. -/
structure KernelEvent where
  type : ConntrackEventType
  entry : NfConntrack
  deriving DecidableEq

/-- The event that the collector makes of it. -/
def KernelEvent.event (event : KernelEvent) : Option ConntrackEvent :=
  event.entry.connection.map fun c => ⟨event.type, c⟩

def KernelEvent.change (event : KernelEvent) : Option (Change Connection) :=
  event.event.map ConntrackEvent.change

/-- `s` is the state of the callback. -/
structure Conntrack (σ : Type) where
  s : σ
  eventQueue : List ConntrackEvent := []
  isInitialized : Bool := false
  isRefillRequired : Bool := true
  isPaused : Bool := false

namespace Conntrack

variable {σ : Type} (K : IConnectionUpdateCallback σ) (self : Conntrack σ)

def init : Conntrack σ :=
  { self with isInitialized := true, isRefillRequired := true, isPaused := false }

def setPaused (paused : Bool) : Conntrack σ :=
  if self.isPaused ≠ paused then { self with isPaused := paused, isRefillRequired := true }
  else self

/-- An event that was received from the kernel since the last update. -/
def processEvent (s : σ) (event : ConntrackEvent) : σ :=
  match event.type with
  | .newConnection => K.add s event.connection {}
  | .removedConnection => K.remove s event.connection

/-- `onUpdate`, with the table that `nfct_query` dumps. -/
def onUpdate (table : List NfConntrack) : Conntrack σ :=
  if !self.isInitialized || self.isPaused then self
  else
    let s := if self.isRefillRequired then K.clear self.s
      else self.eventQueue.foldl (processEvent K) self.s
    { self with
      s := table.foldl (fun s ct => handleQuery K self.isRefillRequired ct s) s
      eventQueue := []
      isRefillRequired := false }

def handleEvent (ct : NfConntrack) (eventType : ConntrackEventType) : Conntrack σ :=
  match extractAddressPort K ct self.s (eventType = .newConnection) with
  | (s, none) => { self with s := s }
  | (s, some connection) =>
    { self with s := s, eventQueue := self.eventQueue ++ [⟨eventType, connection⟩] }

def eventCallback (event : KernelEvent) : Conntrack σ :=
  if !self.isRefillRequired then self.handleEvent K event.entry event.type else self

end Conntrack

/-! ## The kernel -/

/-- The UDP and TCP connections over IPv4 and IPv6 among the entries of a table. -/
def connectionsOf (table : List NfConntrack) : Set Connection :=
  {c | ∃ ct ∈ table, ct.connection = some c}

structure ConntrackSystem (σ : Type) where
  conntrack : Conntrack σ
  table : List NfConntrack
  buffer : List KernelEvent := []
  isOverrun : Bool := false

namespace ConntrackSystem

variable {σ : Type} (K : IConnectionUpdateCallback σ) (capacity : ℕ) (sys : ConntrackSystem σ)

/-- The connections of the table. -/
def tracked : Set Connection := connectionsOf sys.table

def emit (event : KernelEvent) : ConntrackSystem σ :=
  if sys.buffer.length < capacity then { sys with buffer := sys.buffer ++ [event] }
  else { sys with isOverrun := true }

inductive Op
  | appear (ct : NfConntrack)
  | disappear (i : ℕ)
  | count (i : ℕ) (ct : NfConntrack)
  | read (n : ℕ)
  | init
  | setPaused (paused : Bool)
  | onUpdate
  deriving DecidableEq

/-- A step of the kernel or of the collector. `read` is a call of `EventPollHandler` that reads
`n` events, unless it gets `ENOBUFS`. -/
def step : Op → ConntrackSystem σ
  | .appear ct =>
    if ct.connection ∈ sys.table.map NfConntrack.connection ∧ ct.connection ≠ none then sys
    else { sys with table := sys.table ++ [ct] }.emit capacity ⟨.newConnection, ct⟩
  | .disappear i =>
    match sys.table[i]? with
    | some ct => { sys with table := sys.table.eraseIdx i }.emit capacity ⟨.removedConnection, ct⟩
    | none => sys
  | .count i ct =>
    if (sys.table[i]?).map NfConntrack.connection = some ct.connection then
      { sys with table := sys.table.set i ct }
    else sys
  | .read n =>
    if sys.isOverrun then
      { sys with conntrack := { sys.conntrack with isRefillRequired := true }, isOverrun := false }
    else { sys with
      conntrack := (sys.buffer.take n).foldl (Conntrack.eventCallback K) sys.conntrack
      buffer := sys.buffer.drop n }
  | .init => { sys with conntrack := sys.conntrack.init }
  | .setPaused paused => { sys with conntrack := sys.conntrack.setPaused paused }
  | .onUpdate => { sys with conntrack := sys.conntrack.onUpdate K sys.table }

def run (ops : List Op) : ConntrackSystem σ :=
  ops.foldl (fun sys op => sys.step K capacity op) sys

/-- The changes that are still in the socket. -/
def unread : List (Change Connection) := sys.buffer.filterMap KernelEvent.change

/-- The last unread event about a connection agrees with the table. -/
def IsSettled : Prop :=
  ∀ x ∈ sys.unread, (last x.key sys.unread = some true ↔ x.key ∈ sys.tracked)

/-- An `onUpdate` that refills, with no overrun to come, finds settled events in the socket. -/
def SettledRefill : Op → Prop
  | .onUpdate => sys.conntrack.isInitialized = true → sys.conntrack.isPaused = false →
      sys.conntrack.isRefillRequired = true → sys.isOverrun = false → sys.IsSettled
  | _ => True

/-- All refills of a run do. -/
def SettledRefills : ConntrackSystem σ → List Op → Prop
  | _, [] => True
  | sys, op :: ops => sys.SettledRefill op ∧ SettledRefills (sys.step K capacity op) ops

instance (c : Connection) : Decidable (c ∈ sys.tracked) :=
  inferInstanceAs (Decidable (∃ ct ∈ sys.table, ct.connection = some c))

instance : Decidable sys.IsSettled := inferInstanceAs (Decidable (∀ x ∈ sys.unread, _))

instance (op : Op) : Decidable (sys.SettledRefill op) := by
  unfold SettledRefill
  split <;> infer_instance

instance decidableSettledRefills : ∀ (sys : ConntrackSystem σ) (ops : List Op),
    Decidable (SettledRefills K capacity sys ops)
  | _, [] => inferInstanceAs (Decidable True)
  | sys, op :: ops =>
    have := decidableSettledRefills (sys.step K capacity op) ops
    inferInstanceAs (Decidable (_ ∧ _))

end ConntrackSystem

/-! ## What the collector does to its connections -/

namespace Conntrack

variable {σ : Type} {K : IConnectionUpdateCallback σ} {inet : InetText}
variable {storage : σ → ConnectionStorage} (hK : K.HoldsIn inet storage) {s : σ}
include hK

/-- A dump without a refill changes data only. -/
theorem handleQuery_false (ct : NfConntrack) (s : σ) :
    (∀ x, x ∈ (storage (handleQuery K false ct s)).connectionMap ↔
      x ∈ (storage s).connectionMap) ∧
    ∀ x, (storage (handleQuery K false ct s)).HasEnds x ↔ (storage s).HasEnds x := by
  by_cases h : ∃ c, ct.connection = some c ∧ c ∈ (storage s).connectionMap
  · obtain ⟨c, hct, hc⟩ := h
    by_cases hends : (storage s).HasEnds c
    · have hset : ∃ d, storage (handleQuery K false ct s) =
          (storage s).setConnectionData c d := by
        rw [handleQuery, extractAddressPort_find hK hct, if_pos hends]
        simp only [hK.find, ConnectionStorage.getConnection, if_pos hc, if_false,
          Bool.false_eq_true]
        split_ifs
        · exact ⟨_, (hK.update _ _ _).trans (hK.setData _ _ _)⟩
        · exact ⟨_, hK.setData _ _ _⟩
      obtain ⟨d, hd⟩ := hset
      rw [hd]
      exact ⟨ConnectionStorage.mem_setConnectionData c d, fun _ => Iff.rfl⟩
    · have hs : handleQuery K false ct s = s := by
        rw [handleQuery, extractAddressPort_find hK hct, if_neg hends]
      rw [hs]
      exact ⟨fun _ => Iff.rfl, fun _ => Iff.rfl⟩
  · rw [handleQuery_skip hK fun c hct hc => h ⟨c, hct, hc⟩]
    exact ⟨fun _ => Iff.rfl, fun _ => Iff.rfl⟩

/-- An entry is added in a refill. -/
theorem handleQuery_true (ct : NfConntrack) (s : σ) :
    (∀ x, x ∈ (storage (handleQuery K true ct s)).connectionMap ↔
      ct.connection = some x ∨ x ∈ (storage s).connectionMap) ∧
    ((∀ x ∈ (storage s).connectionMap, (storage s).HasEnds x) →
      ∀ x ∈ (storage (handleQuery K true ct s)).connectionMap,
        (storage (handleQuery K true ct s)).HasEnds x) := by
  cases hct : ct.connection with
  | none =>
    rw [handleQuery, extractAddressPort_none K hct]
    exact ⟨fun x => by simp, id⟩
  | some c =>
    have hq : storage (handleQuery K true ct s) =
        ((storage (K.intern s c)).addConnection c (ct.newData c.srcPort.type)).1 := by
      rw [handleQuery, extractAddressPort_add hK hct]
      exact hK.add _ _ _
    rw [hq]
    constructor
    · intro x
      rw [ConnectionStorage.mem_addConnection, hK.mem_intern, Option.some_inj, eq_comm]
    · intro hs x hx
      rw [ConnectionStorage.mem_addConnection, hK.mem_intern] at hx
      rw [ConnectionStorage.hasEnds_addConnection]
      rcases hx with rfl | hx
      · exact hK.intern_hasEnds s x
      · exact hK.hasEnds_intern (hs x hx) c

theorem dump_false (table : List NfConntrack) (s : σ) :
    (∀ x, x ∈ (storage (table.foldl (fun s ct => handleQuery K false ct s) s)).connectionMap ↔
      x ∈ (storage s).connectionMap) ∧
    ∀ x, (storage (table.foldl (fun s ct => handleQuery K false ct s) s)).HasEnds x ↔
      (storage s).HasEnds x := by
  induction table generalizing s with
  | nil => exact ⟨fun _ => Iff.rfl, fun _ => Iff.rfl⟩
  | cons ct table ih =>
    obtain ⟨h1, h2⟩ := handleQuery_false hK ct s
    obtain ⟨ih1, ih2⟩ := ih (handleQuery K false ct s)
    exact ⟨fun x => (ih1 x).trans (h1 x), fun x => (ih2 x).trans (h2 x)⟩

theorem dump_true (table : List NfConntrack) (s : σ)
    (hs : ∀ x ∈ (storage s).connectionMap, (storage s).HasEnds x) :
    let after := storage (table.foldl (fun s ct => handleQuery K true ct s) s)
    (∀ x, x ∈ after.connectionMap ↔
      (∃ ct ∈ table, ct.connection = some x) ∨ x ∈ (storage s).connectionMap) ∧
    ∀ x ∈ after.connectionMap, after.HasEnds x := by
  induction table generalizing s with
  | nil => exact ⟨fun x => by simp, hs⟩
  | cons ct table ih =>
    obtain ⟨h1, h2⟩ := handleQuery_true hK ct s
    obtain ⟨ih1, ih2⟩ := ih (handleQuery K true ct s) (h2 hs)
    refine ⟨fun x => ?_, ih2⟩
    rw [List.foldl_cons, ih1, h1, List.exists_mem_cons_iff, or_left_comm, or_assoc]

/-- The queue is replayed over the connections. -/
theorem processEvents (queue : List ConntrackEvent) (s : σ)
    (hs : ∀ x ∈ (storage s).connectionMap, (storage s).HasEnds x)
    (hq : ∀ event ∈ queue, (storage s).HasEnds event.connection) :
    let after := storage (queue.foldl (processEvent K) s)
    {x | x ∈ after.connectionMap} =
      replay (queue.map ConntrackEvent.change) {x | x ∈ (storage s).connectionMap} ∧
    ∀ x ∈ after.connectionMap, after.HasEnds x := by
  induction queue generalizing s with
  | nil => exact ⟨rfl, hs⟩
  | cons event queue ih =>
    -- one event does to the storage what its change does to the set of connections
    have hstep : {x | x ∈ (storage (processEvent K s event)).connectionMap} =
          event.change.apply {x | x ∈ (storage s).connectionMap} ∧
        ∀ x, (storage (processEvent K s event)).HasEnds x ↔ (storage s).HasEnds x := by
      unfold processEvent ConntrackEvent.change
      cases event.type with
      | newConnection =>
        rw [show storage _ = _ from hK.add s event.connection {}]
        refine ⟨?_, fun x => ConnectionStorage.hasEnds_addConnection _ _ x⟩
        ext x
        exact ConnectionStorage.mem_addConnection _ _ x
      | removedConnection =>
        rw [show storage _ = _ from hK.remove s event.connection]
        refine ⟨?_, fun x => ConnectionStorage.hasEnds_removeConnection _ x⟩
        ext x
        exact (ConnectionStorage.mem_removeConnection _ x).trans and_comm
    obtain ⟨hheld, hends⟩ := hstep
    -- an added connection has its ends, as the queue says
    have hs' : ∀ x ∈ (storage (processEvent K s event)).connectionMap,
        (storage (processEvent K s event)).HasEnds x := by
      intro x hx
      rw [hends]
      have hx' : x ∈ event.change.apply {x | x ∈ (storage s).connectionMap} := hheld ▸ hx
      rw [Change.mem_apply] at hx'
      split_ifs at hx' with hkey
      · have hkey' : event.change.key = event.connection := by
          unfold ConntrackEvent.change
          cases event.type <;> rfl
        rw [← hkey, hkey']
        exact hq event List.mem_cons_self
      · exact hs x hx'
    have hq' : ∀ e ∈ queue, (storage (processEvent K s event)).HasEnds e.connection :=
      fun e he => (hends _).mpr (hq e (List.mem_cons_of_mem _ he))
    obtain ⟨ih1, ih2⟩ := ih (processEvent K s event) hs' hq'
    refine ⟨?_, ih2⟩
    rw [List.foldl_cons, List.map_cons]
    show _ = replay (queue.map ConntrackEvent.change) (event.change.apply _)
    rw [ih1, hheld]

end Conntrack

/-! ## The queue and the socket -/

namespace Conntrack

variable {σ : Type} {K : IConnectionUpdateCallback σ} {inet : InetText}

variable (storage : σ → ConnectionStorage)

/-- The connections that the callback holds. -/
def held (self : Conntrack σ) : Set Connection := {x | x ∈ (storage self.s).connectionMap}

/-- What holds while no refill is due. `log` is what the kernel has still to say: replayed after the
queue, it leads to the connections `goal`. -/
structure Live (conntrack : Conntrack σ) (log : List (Change Connection))
    (goal : Set Connection) : Prop where
  ends : ∀ x ∈ (storage conntrack.s).connectionMap, (storage conntrack.s).HasEnds x
  queued : ∀ event ∈ conntrack.eventQueue, (storage conntrack.s).HasEnds event.connection
  replayed : replay (conntrack.eventQueue.map ConntrackEvent.change ++ log)
    (conntrack.held storage) = goal

variable {storage} {self : Conntrack σ} {log : List (Change Connection)} {goal : Set Connection}
variable (hK : K.HoldsIn inet storage)

/-- An event about a connection whose ends are unknown is skipped, and says nothing. -/
theorem Live.skip {c : Connection} (h : self.Live storage (.erase c :: log) goal)
    (hc : ¬(storage self.s).HasEnds c) : self.Live storage log goal where
  ends := h.ends
  queued := h.queued
  replayed := by
    have hmem : c ∉ replay (self.eventQueue.map ConntrackEvent.change) (self.held storage) := by
      refine notMem_replay (fun hm => hc (h.ends c hm)) fun x hx hkey => ?_
      obtain ⟨event, hevent, rfl⟩ := List.mem_map.mp hx
      refine absurd (h.queued event hevent) ?_
      have hkey' : event.connection = c := by
        rw [← hkey]
        unfold ConntrackEvent.change
        cases event.type <;> rfl
      rwa [hkey']
    have hgoal := h.replayed
    rw [replay_append] at hgoal ⊢
    rw [← hgoal]
    show _ = replay log (_ \ {c})
    rw [Set.sdiff_singleton_eq_self hmem]

include hK in
theorem Live.eventCallback (hr : self.isRefillRequired = false) (event : KernelEvent)
    (h : self.Live storage (event.change.toList ++ log) goal) :
    (self.eventCallback K event).isRefillRequired = false ∧
      (self.eventCallback K event).Live storage log goal := by
  have hhandle : self.eventCallback K event = self.handleEvent K event.entry event.type := by
    rw [Conntrack.eventCallback, hr]
    rfl
  rw [hhandle, handleEvent]
  cases hct : event.entry.connection with
  | none =>
    rw [extractAddressPort_none K hct]
    have hnone : event.change = none := by simp [KernelEvent.change, KernelEvent.event, hct]
    rw [hnone] at h
    exact ⟨hr, h⟩
  | some c =>
    have hchange : event.change = some (ConntrackEvent.change ⟨event.type, c⟩) := by
      simp [KernelEvent.change, KernelEvent.event, hct]
    rw [hchange] at h
    -- the event is queued, with the connections that were there
    have hqueue : ∀ s, (∀ x, x ∈ (storage s).connectionMap ↔ x ∈ (storage self.s).connectionMap) →
        (∀ x, (storage self.s).HasEnds x → (storage s).HasEnds x) → (storage s).HasEnds c →
        ({ self with s := s, eventQueue := self.eventQueue ++ [⟨event.type, c⟩] } :
          Conntrack σ).Live storage log goal := by
      intro s hmem hmono hc
      refine ⟨fun x hx => hmono x (h.ends x ((hmem x).mp hx)), fun e he => ?_, ?_⟩
      · rcases List.mem_append.mp he with he | he
        · exact hmono _ (h.queued e he)
        · rw [List.mem_singleton.mp he]
          exact hc
      · have hheld : ({ self with s := s, eventQueue := self.eventQueue ++ [⟨event.type, c⟩] } :
            Conntrack σ).held storage = self.held storage := Set.ext hmem
        rw [hheld, ← h.replayed, List.map_append, List.append_assoc]
        rfl
    cases htype : event.type with
    -- a new connection makes its addresses and ports known
    | newConnection =>
      rw [htype] at hqueue
      rw [decide_eq_true rfl, extractAddressPort_add hK hct]
      exact ⟨hr, hqueue _ (hK.mem_intern _ _) (fun x hx => hK.hasEnds_intern hx c)
        (hK.intern_hasEnds _ _)⟩
    -- the event of a connection that was never known is dropped
    | removedConnection =>
      rw [htype] at hqueue h
      rw [decide_eq_false (by decide), extractAddressPort_find hK hct]
      by_cases hends : (storage self.s).HasEnds c
      · rw [if_pos hends]
        exact ⟨hr, hqueue _ (fun _ => Iff.rfl) (fun _ => id) hends⟩
      · rw [if_neg hends]
        exact ⟨hr, h.skip hends⟩

include hK in
/-- Reading events moves them from the socket to the queue. -/
theorem Live.read (hr : self.isRefillRequired = false) (events : List KernelEvent)
    (h : self.Live storage (events.filterMap KernelEvent.change ++ log) goal) :
    (events.foldl (Conntrack.eventCallback K) self).isRefillRequired = false ∧
      (events.foldl (Conntrack.eventCallback K) self).Live storage log goal := by
  induction events generalizing self with
  | nil => exact ⟨hr, h⟩
  | cons event events ih =>
    have hcons : (event :: events).filterMap KernelEvent.change ++ log =
        event.change.toList ++ (events.filterMap KernelEvent.change ++ log) := by
      cases hc : event.change <;> simp [hc]
    rw [hcons] at h
    obtain ⟨hr', h'⟩ := h.eventCallback hK hr event
    exact ih hr' h'

/-- Events are thrown away until the refill. -/
theorem skip_events (hr : self.isRefillRequired = true) (events : List KernelEvent) :
    events.foldl (Conntrack.eventCallback K) self = self := by
  induction events with
  | nil => rfl
  | cons event events ih =>
    have hone : self.eventCallback K event = self := by
      rw [Conntrack.eventCallback, hr]
      rfl
    rw [List.foldl_cons, hone]
    exact ih

theorem onUpdate_idle {table : List NfConntrack}
    (h : ¬(self.isInitialized = true ∧ self.isPaused = false)) : self.onUpdate K table = self := by
  unfold onUpdate
  rw [if_pos]
  cases hi : self.isInitialized <;> cases hp : self.isPaused <;> simp_all

include hK in
/-- An update applies the queue, or starts anew from the table. -/
theorem onUpdate_live (table : List NfConntrack) (hi : self.isInitialized = true)
    (hp : self.isPaused = false)
    (hl : self.isRefillRequired = false → self.Live storage log goal)
    (hs : self.isRefillRequired = true → replay log (connectionsOf table) = goal) :
    (self.onUpdate K table).isRefillRequired = false ∧ (self.onUpdate K table).eventQueue = [] ∧
      (self.onUpdate K table).Live storage log goal := by
  have hrun : ¬(!self.isInitialized || self.isPaused) = true := by simp [hi, hp]
  unfold onUpdate
  rw [if_neg hrun]
  refine ⟨rfl, rfl, ?_⟩
  cases hr : self.isRefillRequired with
  | false =>
    have hlive := hl hr
    obtain ⟨hheld, hends⟩ := processEvents hK self.eventQueue self.s hlive.ends hlive.queued
    obtain ⟨hmem, hkeep⟩ := dump_false hK table (self.eventQueue.foldl (processEvent K) self.s)
    refine ⟨fun x hx => (hkeep x).mpr (hends x ((hmem x).mp hx)), nofun, ?_⟩
    have hgoal := hlive.replayed
    rw [replay_append] at hgoal
    exact (congrArg (replay log) ((Set.ext hmem).trans hheld)).trans hgoal
  | true =>
    have hnone : ∀ x, x ∉ (storage (K.clear self.s)).connectionMap := by
      intro x
      rw [hK.clear]
      exact AList.notMem_empty x
    obtain ⟨hmem, hends⟩ := dump_true hK table (K.clear self.s) fun x hx => absurd hx (hnone x)
    refine ⟨hends, nofun, ?_⟩
    have hheld : {x | x ∈ (storage (table.foldl (fun s ct => handleQuery K true ct s)
        (K.clear self.s))).connectionMap} = connectionsOf table := by
      ext x
      exact (hmem x).trans (or_iff_left (hnone x))
    exact (congrArg (replay log) hheld).trans (hs hr)

theorem Live.emit (h : self.Live storage log goal) (x : Option (Change Connection)) :
    self.Live storage (log ++ x.toList) (replay x.toList goal) where
  ends := h.ends
  queued := h.queued
  replayed := by rw [← List.append_assoc, replay_append, h.replayed]

end Conntrack

/-! ## Entries of the table -/

theorem mem_connectionsOf {table : List NfConntrack} {c : Connection} :
    c ∈ connectionsOf table ↔ some c ∈ table.map NfConntrack.connection := by
  rw [List.mem_map]
  exact Iff.rfl

theorem connectionsOf_append (table : List NfConntrack) (ct : NfConntrack) :
    connectionsOf (table ++ [ct]) =
      replay (KernelEvent.change ⟨.newConnection, ct⟩).toList (connectionsOf table) := by
  ext c
  rw [mem_connectionsOf, List.map_append, List.mem_append, ← mem_connectionsOf, List.map_singleton,
    List.mem_singleton]
  cases hct : ct.connection with
  | none => simp [KernelEvent.change, KernelEvent.event, hct]
  | some c' =>
    simp only [KernelEvent.change, KernelEvent.event, hct, Option.map_some, Option.some_inj,
      Option.toList_some]
    exact or_comm

theorem connectionsOf_eraseIdx {table : List NfConntrack} {i : ℕ} {ct : NfConntrack}
    (hi : table[i]? = some ct) (h : (table.filterMap NfConntrack.connection).Nodup) :
    connectionsOf (table.eraseIdx i) =
      replay (KernelEvent.change ⟨.removedConnection, ct⟩).toList (connectionsOf table) := by
  obtain ⟨hlt, rfl⟩ := List.getElem?_eq_some_iff.mp hi
  have hsplit : table = table.take i ++ table[i] :: table.drop (i + 1) := by
    rw [← List.drop_eq_getElem_cons hlt, List.take_append_drop]
  have hmem : ∀ c, c ∈ connectionsOf table ↔
      c ∈ connectionsOf (table.eraseIdx i) ∨ table[i].connection = some c := by
    intro c
    rw [List.eraseIdx_eq_take_drop_succ, mem_connectionsOf, mem_connectionsOf]
    conv_lhs => rw [hsplit]
    simp only [List.map_append, List.map_cons, List.mem_append, List.mem_cons]
    constructor
    · rintro (h | h | h)
      · exact .inl (.inl h)
      · exact .inr h.symm
      · exact .inl (.inr h)
    · rintro ((h | h) | h)
      · exact .inl h
      · exact .inr (.inr h)
      · exact .inr (.inl h.symm)
  -- the 5-tuple of the entry is that of no other
  have hnot : ∀ c, table[i].connection = some c → c ∉ connectionsOf (table.eraseIdx i) := by
    intro c hc hmem
    rw [mem_connectionsOf, List.eraseIdx_eq_take_drop_succ, List.map_append,
      List.mem_append] at hmem
    rw [hsplit, List.filterMap_append, List.filterMap_cons_some hc, List.nodup_append] at h
    obtain ⟨-, hnd, hdisj⟩ := h
    rcases hmem with hmem | hmem
    · obtain ⟨ct', h1, h2⟩ := List.mem_map.mp hmem
      exact hdisj c (List.mem_filterMap.mpr ⟨ct', h1, h2⟩) c List.mem_cons_self rfl
    · obtain ⟨ct', h1, h2⟩ := List.mem_map.mp hmem
      exact (List.nodup_cons.mp hnd).1 (List.mem_filterMap.mpr ⟨ct', h1, h2⟩)
  ext c
  cases hct : table[i].connection with
  | none =>
    have hsame := hmem c
    rw [hct] at hsame
    simpa [KernelEvent.change, KernelEvent.event, hct] using hsame.symm
  | some c' =>
    simp only [KernelEvent.change, KernelEvent.event, hct, Option.map_some, Option.toList_some]
    show _ ↔ c ∈ connectionsOf table ∧ c ≠ c'
    rw [hmem, hct, Option.some_inj]
    constructor
    · intro h'
      exact ⟨.inl h', fun he => hnot c' hct (he ▸ h')⟩
    · rintro ⟨h' | h', hne⟩
      · exact h'
      · exact absurd h'.symm hne

theorem map_connection_set {table : List NfConntrack} {i : ℕ} {ct : NfConntrack}
    (h : (table[i]?).map NfConntrack.connection = some ct.connection) :
    (table.set i ct).map NfConntrack.connection = table.map NfConntrack.connection := by
  rw [List.map_set]
  refine List.ext_getElem? fun j => ?_
  rw [List.getElem?_set]
  split_ifs with hj hlt
  · rw [← hj, List.getElem?_map, h]
  · rw [← hj]
    exact (List.getElem?_eq_none (Nat.le_of_not_lt hlt)).symm
  · rfl

/-- A new entry has a 5-tuple of its own. -/
theorem nodup_append {table : List NfConntrack} {ct : NfConntrack}
    (h : (table.filterMap NfConntrack.connection).Nodup)
    (hnew : ¬(ct.connection ∈ table.map NfConntrack.connection ∧ ct.connection ≠ none)) :
    ((table ++ [ct]).filterMap NfConntrack.connection).Nodup := by
  rw [List.filterMap_append]
  cases hct : ct.connection with
  | none => simpa [hct] using h
  | some c =>
    rw [hct] at hnew
    have hnot : c ∉ table.filterMap NfConntrack.connection := fun hc =>
      hnew ⟨List.mem_map.mpr (List.mem_filterMap.mp hc), by simp⟩
    rw [List.nodup_append]
    refine ⟨h, by simp [hct], fun a ha b hb => ?_⟩
    have hb' : b = c := by simpa [hct, eq_comm] using hb
    rw [hb']
    exact fun he => hnot (he ▸ ha)

theorem nodup_set {table : List NfConntrack} {i : ℕ} {ct : NfConntrack}
    (h : (table.filterMap NfConntrack.connection).Nodup)
    (hi : (table[i]?).map NfConntrack.connection = some ct.connection) :
    ((table.set i ct).filterMap NfConntrack.connection).Nodup := by
  have hkeys : ∀ table : List NfConntrack, table.filterMap NfConntrack.connection =
      (table.map NfConntrack.connection).filterMap id := by
    intro table
    rw [List.filterMap_map]
    rfl
  rw [hkeys, map_connection_set hi, ← hkeys]
  exact h

/-! ## Runs -/

namespace ConntrackSystem

variable {σ : Type} {K : IConnectionUpdateCallback σ} {inet : InetText}
variable {storage : σ → ConnectionStorage} {capacity : ℕ} {sys : ConntrackSystem σ}

variable (storage) in
/-- What holds in every state: while no refill is due and no overrun is to come, the events in the
queue and in the socket lead from the connections that are held to those of the table. -/
structure Inv (sys : ConntrackSystem σ) : Prop where
  distinct : (sys.table.filterMap NfConntrack.connection).Nodup
  live : sys.conntrack.isRefillRequired = false → sys.isOverrun = false →
    sys.conntrack.Live storage sys.unread sys.tracked

theorem unread_split (n : ℕ) : sys.unread = (sys.buffer.take n).filterMap KernelEvent.change ++
    (sys.buffer.drop n).filterMap KernelEvent.change := by
  rw [← List.filterMap_append, List.take_append_drop]
  rfl

/-- The table changes with an event about it. -/
theorem Inv.emit {table : List NfConntrack} (h : sys.Inv storage) (event : KernelEvent)
    (hd : (table.filterMap NfConntrack.connection).Nodup)
    (ht : connectionsOf table = replay event.change.toList sys.tracked) :
    Inv storage ({ sys with table := table }.emit capacity event) := by
  unfold ConntrackSystem.emit
  split_ifs
  · refine ⟨hd, fun hr ho => ?_⟩
    have hlive := (h.live hr ho).emit event.change
    have hunread : (sys.buffer ++ [event]).filterMap KernelEvent.change =
        sys.unread ++ event.change.toList := by
      rw [List.filterMap_append]
      cases hc : event.change <;> simp [unread, hc]
    rw [← ht, ← hunread] at hlive
    exact hlive
  · exact ⟨hd, fun _ ho => absurd ho (by simp)⟩

theorem step_inv (hK : K.HoldsIn inet storage) (op : Op) (h : sys.Inv storage)
    (hop : sys.SettledRefill op) : (sys.step K capacity op).Inv storage := by
  cases op with
  | appear ct =>
    rw [step]
    split_ifs with hmem
    · exact h
    · exact h.emit _ (nodup_append h.distinct hmem) (connectionsOf_append _ _)
  | disappear i =>
    rw [step]
    split
    · next ct hi =>
      refine h.emit _ ?_ (connectionsOf_eraseIdx hi h.distinct)
      exact h.distinct.sublist ((List.eraseIdx_sublist _ _).filterMap _)
    · exact h
  -- the counters of an entry are no part of its connection
  | count i ct =>
    rw [step]
    split_ifs with hi
    · have hmap := map_connection_set hi
      have hsame : connectionsOf (sys.table.set i ct) = connectionsOf sys.table := by
        ext c
        rw [mem_connectionsOf, mem_connectionsOf, hmap]
      refine ⟨nodup_set h.distinct hi, fun hr ho => ?_⟩
      show sys.conntrack.Live storage sys.unread (connectionsOf (sys.table.set i ct))
      rw [hsame]
      exact h.live hr ho
    · exact h
  -- an overrun is noticed here, and a refill is due
  | read n =>
    rw [step]
    by_cases ho : sys.isOverrun = true
    · rw [if_pos ho]
      exact ⟨h.distinct, fun hr => absurd hr (by simp)⟩
    · rw [if_neg ho]
      refine ⟨h.distinct, fun hr ho' => ?_⟩
      cases hreq : sys.conntrack.isRefillRequired with
      | false =>
        have hlive := h.live hreq ho'
        rw [unread_split n] at hlive
        exact (hlive.read hK hreq _).2
      | true =>
        have hr' : ((sys.buffer.take n).foldl (Conntrack.eventCallback K)
            sys.conntrack).isRefillRequired = false := hr
        rw [Conntrack.skip_events hreq, hreq] at hr'
        cases hr'
  | init => exact ⟨h.distinct, fun hr => absurd hr (by simp [step, Conntrack.init])⟩
  | setPaused paused =>
    refine ⟨h.distinct, fun hr ho => ?_⟩
    by_cases hp : sys.conntrack.isPaused = paused
    · have hsame : sys.conntrack.setPaused paused = sys.conntrack := by
        simp [Conntrack.setPaused, hp]
      have hr' : (sys.conntrack.setPaused paused).isRefillRequired = false := hr
      show (sys.conntrack.setPaused paused).Live storage sys.unread sys.tracked
      rw [hsame] at hr' ⊢
      exact h.live hr' ho
    · have hr' : (sys.conntrack.setPaused paused).isRefillRequired = false := hr
      simp [Conntrack.setPaused, hp] at hr'
  -- a refill starts from the table, and the condition says that the events left change nothing
  | onUpdate =>
    refine ⟨h.distinct, fun hr ho => ?_⟩
    have ho : sys.isOverrun = false := ho
    show (sys.conntrack.onUpdate K sys.table).Live storage sys.unread sys.tracked
    by_cases hrun : sys.conntrack.isInitialized = true ∧ sys.conntrack.isPaused = false
    · refine (Conntrack.onUpdate_live hK sys.table hrun.1 hrun.2 (fun hreq => h.live hreq ho)
        fun hreq => ?_).2.2
      exact replay_eq_self.mpr (hop hrun.1 hrun.2 hreq ho)
    · have hr' : (sys.conntrack.onUpdate K sys.table).isRefillRequired = false := hr
      rw [Conntrack.onUpdate_idle hrun] at hr' ⊢
      exact h.live hr' ho

theorem run_inv (hK : K.HoldsIn inet storage) (ops : List Op) (h : sys.Inv storage)
    (hops : SettledRefills K capacity sys ops) : (sys.run K capacity ops).Inv storage := by
  induction ops generalizing sys with
  | nil => exact h
  | cons op ops ih => exact ih (step_inv hK op h hops.1) hops.2

theorem init_inv (s : σ) {table : List NfConntrack}
    (h : (table.filterMap NfConntrack.connection).Nodup) :
    Inv storage ({ conntrack := { s := s }, table := table } : ConntrackSystem σ) :=
  ⟨h, fun hr => absurd hr (by simp)⟩

/-- An update after which the kernel has nothing to say leads to `goal`. -/
theorem held_of_live {conntrack : Conntrack σ} {goal : Set Connection}
    (hq : conntrack.eventQueue = []) (h : conntrack.Live storage [] goal) :
    conntrack.held storage = goal := by
  have hgoal := h.replayed
  rwa [hq] at hgoal

/-- The condition is exact for one refill: when everything that is in the socket is read after it,
the next update converges if and only if it is settled. -/
theorem refill_converges_iff (hK : K.HoldsIn inet storage)
    (hi : sys.conntrack.isInitialized = true) (hp : sys.conntrack.isPaused = false)
    (hr : sys.conntrack.isRefillRequired = true) (ho : sys.isOverrun = false) :
    (sys.run K capacity [.onUpdate, .read sys.buffer.length, .onUpdate]).conntrack.held storage =
      sys.tracked ↔ sys.IsSettled := by
  have hrun : ¬(!sys.conntrack.isInitialized || sys.conntrack.isPaused) = true := by simp [hi, hp]
  have hlog : replay (sys.unread ++ []) (connectionsOf sys.table) =
      replay (sys.unread ++ []) sys.tracked := rfl
  -- the refill takes the table, and the events that are left are replayed over it
  obtain ⟨hr₁, -, h₁⟩ := Conntrack.onUpdate_live hK sys.table hi hp
    (fun hf => absurd (hr.symm.trans hf) (by decide)) (fun _ => hlog)
  obtain ⟨hr₂, h₂⟩ := h₁.read hK hr₁ sys.buffer
  -- reading leaves the collector running
  have hflags : ∀ (events : List KernelEvent) (conntrack : Conntrack σ),
      (events.foldl (Conntrack.eventCallback K) conntrack).isInitialized =
          conntrack.isInitialized ∧
        (events.foldl (Conntrack.eventCallback K) conntrack).isPaused = conntrack.isPaused := by
    intro events
    induction events with
    | nil => exact fun _ => ⟨rfl, rfl⟩
    | cons event events ih =>
      intro conntrack
      have hone : (conntrack.eventCallback K event).isInitialized = conntrack.isInitialized ∧
          (conntrack.eventCallback K event).isPaused = conntrack.isPaused := by
        unfold Conntrack.eventCallback Conntrack.handleEvent
        split_ifs
        · split <;> exact ⟨rfl, rfl⟩
        · exact ⟨rfl, rfl⟩
      rw [List.foldl_cons, (ih _).1, (ih _).2]
      exact hone
  have hkeep : (sys.conntrack.onUpdate K sys.table).isInitialized = true ∧
      (sys.conntrack.onUpdate K sys.table).isPaused = false := by
    unfold Conntrack.onUpdate
    rw [if_neg hrun]
    exact ⟨hi, hp⟩
  obtain ⟨hi₂, hp₂⟩ := hflags sys.buffer (sys.conntrack.onUpdate K sys.table)
  obtain ⟨-, hq₃, h₃⟩ := Conntrack.onUpdate_live hK sys.table (hi₂.trans hkeep.1)
    (hp₂.trans hkeep.2) (fun _ => h₂) (fun hf => absurd (hr₂.symm.trans hf) (by decide))
  -- what it holds in the end is the replay of the table's own events
  have hafter : (sys.run K capacity [.onUpdate, .read sys.buffer.length, .onUpdate]).conntrack =
      ((sys.buffer.foldl (Conntrack.eventCallback K)
        (sys.conntrack.onUpdate K sys.table)).onUpdate K sys.table) := by
    simp [run, step, ho]
  rw [hafter, held_of_live hq₃ h₃, List.append_nil]
  exact replay_eq_self

/-- **The collector converges to the kernel table** in every run whose refills find settled events
in the socket: after an `onUpdate` that runs with nothing in the socket, the connections that are
held are those of the table. -/
theorem run_converged (hK : K.HoldsIn inet storage) (capacity : ℕ) (s : σ)
    (table : List NfConntrack) (htable : (table.filterMap NfConntrack.connection).Nodup)
    (ops : List Op)
    (hops : SettledRefills K capacity { conntrack := { s := s }, table := table } ops) :
    let sys := ({ conntrack := { s := s }, table := table } : ConntrackSystem σ).run K capacity ops
    sys.conntrack.isInitialized = true → sys.conntrack.isPaused = false → sys.buffer = [] →
      sys.isOverrun = false → ∀ c,
        c ∈ (storage (sys.step K capacity .onUpdate).conntrack.s).connectionMap ↔
          ∃ ct ∈ sys.table, ct.connection = some c := by
  intro sys hi hp hb ho c
  have hinv : sys.Inv storage := run_inv hK ops (init_inv s htable) hops
  have hunread : sys.unread = [] := by rw [unread, hb, List.filterMap_nil]
  have hsame : replay [] (connectionsOf sys.table) = connectionsOf sys.table := rfl
  obtain ⟨-, hq, hlive⟩ := Conntrack.onUpdate_live hK sys.table hi hp
    (fun hr => hunread ▸ hinv.live hr ho) (fun _ => hsame)
  have hheld := held_of_live hq hlive
  exact Set.ext_iff.mp hheld c

section

private def entry (n : BitVec 16) : NfConntrack where
  l3Proto := .inet
  l4Proto := .tcp
  portSrc := n

private def entryConn (n : BitVec 16) : Connection :=
  ⟨.ip4 0, ⟨.tcp, ntohs n⟩, .ip4 0, ⟨.tcp, 0⟩, rfl, rfl⟩

private def emptyTable : ConntrackSystem ConnectionList := { conntrack := { s := {} }, table := [] }

private def listCallback : IConnectionUpdateCallback ConnectionList :=
  ConnectionList.callback .insertion .plain

/-- The first entry disappears while there is room for its event. -/
private def roomyOps : List Op :=
  [.init, .onUpdate, .appear (entry 1), .read 1, .appear (entry 2), .read 1, .disappear 0, .read 1]

theorem roomyOps_converged :
    let sys := (emptyTable.run listCallback 1 roomyOps).step listCallback 1 .onUpdate
    entryConn 2 ∈ sys.conntrack.s.storage.connectionMap ∧
      entryConn 1 ∉ sys.conntrack.s.storage.connectionMap := by
  have h := run_converged (ConnectionList.callback_holdsIn .insertion .plain) 1 {} []
    List.nodup_nil roomyOps (by decide) (by decide) (by decide) (by decide) (by decide)
  exact ⟨(h (entryConn 2)).mpr (by decide), (h (entryConn 1)).not.mpr (by decide)⟩

/-- There is room for one event, that of the entry that appears. That it disappeared is lost. The
refill does not find the entry, but then the old event is read. -/
private def staleOps : List Op :=
  [.init, .onUpdate, .appear (entry 1), .disappear 0, .read 1, .onUpdate, .read 1]

theorem staleOps_not_converged :
    let sys := emptyTable.run listCallback 1 staleOps
    sys.conntrack.isInitialized = true ∧ sys.conntrack.isPaused = false ∧ sys.buffer = [] ∧
      sys.isOverrun = false ∧ sys.table = [] ∧
        entryConn 1 ∈ (sys.step listCallback 1 .onUpdate).conntrack.s.storage.connectionMap := by
  decide

end

end ConntrackSystem

end Conntop
