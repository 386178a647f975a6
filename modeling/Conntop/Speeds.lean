import Conntop.Collector
import Conntop.Lib.GuardedRun

/-!
# The speeds of the tracked connections

A speed is the difference of two byte counters that are read at successive dumps, without a sign.
It is right as long as both belong to the same entry of the kernel table. An entry can be destroyed
and created anew between two dumps. When both events are read before the second dump, the
connection was removed and added, with zero counters. When they are not, the difference is that of
two entries, and it wraps if the new one has counted less.

* `SpeedsBounded`: no speed is above its counter.
* `Reaches` is the condition on an update. It is about the connections whose entry was destroyed
  without the collector knowing.
* The invariant is `CountInv`: what is stored for any other connection was counted by its entry.

Main result: `speeds_bounded_iff`.
-/

namespace Conntop

open ChangeLog

/-- `a - b` without a sign is at most `a` exactly when it does not wrap. -/
theorem uint64_sub_le_iff {a b : UInt64} : a - b ≤ a ↔ b ≤ a := by
  constructor
  · intro h
    by_contra hlt
    rw [UInt64.le_iff_toNat_le, UInt64.toNat_sub] at h
    rw [UInt64.le_iff_toNat_le] at hlt
    have ha := UInt64.toNat_lt a
    have hb := UInt64.toNat_lt b
    omega
  · exact UInt64.sub_le

def ConnectionTraffic.SpeedsBounded (t : ConnectionTraffic) : Prop :=
  t.rxSpeed ≤ t.rxBytes ∧ t.txSpeed ≤ t.txBytes

instance (t : ConnectionTraffic) : Decidable t.SpeedsBounded :=
  inferInstanceAs (Decidable (_ ∧ _))

/-- No connection is shown with a speed above its traffic. -/
def ConnectionStorage.SpeedsBounded (st : ConnectionStorage) : Prop :=
  ∀ c ∈ st.connectionMap, (st.connectionData c).traffic.SpeedsBounded

instance (st : ConnectionStorage) : Decidable st.SpeedsBounded :=
  inferInstanceAs (Decidable (∀ c ∈ st.connectionMap.keys, _))

theorem ConnectionStorage.speedsBounded_iff {st : ConnectionStorage} :
    st.SpeedsBounded ↔ ∀ c d, st.connections c = some d → d.traffic.SpeedsBounded := by
  constructor
  · intro h c d hd
    have hc : c ∈ st.connectionMap := mem_iff.mpr (hd ▸ rfl)
    have heq := connections_eq hc
    rw [hd, Option.some_inj] at heq
    exact heq ▸ h c hc
  · intro h c hc
    exact h c _ (connections_eq hc)

namespace NfConntrack

variable (ct : NfConntrack)

/-- The entry has counted what is stored. -/
def HasReached (t : ConnectionTraffic) : Prop :=
  t.rxBytes ≤ ct.replCounterBytes ∧ t.txBytes ≤ ct.origCounterBytes

instance (t : ConnectionTraffic) : Decidable (ct.HasReached t) :=
  inferInstanceAs (Decidable (_ ∧ _))

def CountsUpTo (ct' : NfConntrack) : Prop :=
  ct.replCounterBytes ≤ ct'.replCounterBytes ∧ ct.origCounterBytes ≤ ct'.origCounterBytes

instance (ct' : NfConntrack) : Decidable (ct.CountsUpTo ct') :=
  inferInstanceAs (Decidable (_ ∧ _))

variable {ct}

theorem HasReached.countsUp {ct' : NfConntrack} {t : ConnectionTraffic} (h : ct.HasReached t)
    (hup : ct.CountsUpTo ct') : ct'.HasReached t :=
  ⟨UInt64.le_trans h.1 hup.1, UInt64.le_trans h.2 hup.2⟩

theorem update_traffic (ct : NfConntrack) (portType : EPortType) (d : ConnectionData) :
    (ct.update portType d).data.traffic = (ct.measured portType d).traffic := by
  have hr : TrafficField.rxSpeed ≠ .rxBytes := by decide
  have ht : TrafficField.txSpeed ≠ .txBytes := by decide
  have hstate : (({ data := d } : DataUpdate).setState portType ct.tcpState).data.traffic =
      d.traffic := by
    unfold DataUpdate.setState
    cases portType with
    | tcp => split_ifs <;> rfl
    | udp => rfl
  simp only [update, DataUpdate.setPackets_eq, DataUpdate.setBytes_eq hr,
    DataUpdate.setBytes_eq ht, hstate, TrafficField.get, TrafficField.set, measured]

/-- The speeds that a dump measures are bounded when the entry has counted what was stored. -/
theorem speedsBounded_update_iff (portType : EPortType) (d : ConnectionData) :
    (ct.update portType d).data.traffic.SpeedsBounded ↔ ct.HasReached d.traffic := by
  rw [update_traffic]
  exact and_congr uint64_sub_le_iff uint64_sub_le_iff

theorem hasReached_update (portType : EPortType) (d : ConnectionData) :
    ct.HasReached (ct.update portType d).data.traffic := by
  rw [update_traffic]
  exact ⟨UInt64.le_refl _, UInt64.le_refl _⟩

end NfConntrack

/-- No bytes are stored, or the entry of the connection has counted them. -/
def Covered (table : List NfConntrack) (c : Connection) (t : ConnectionTraffic) : Prop :=
  (t.rxBytes = 0 ∧ t.txBytes = 0) ∨ ∃ ct ∈ table, ct.connection = some c ∧ ct.HasReached t

/-! ## Data after a dump -/

namespace Conntrack

variable {σ : Type} {K : IConnectionUpdateCallback σ} {inet : InetText}
variable {storage : σ → ConnectionStorage} (hK : K.HoldsIn inet storage)
include hK

theorem handleQuery_connections {ct : NfConntrack} {c : Connection} {s : σ}
    (hs : ∀ x ∈ (storage s).connectionMap, (storage s).HasEnds x) (hct : ct.connection = some c) :
    (storage (handleQuery K false ct s)).connections = Function.update (storage s).connections c
      (((storage s).connections c).map fun d => (ct.update c.srcPort.type d).data) := by
  by_cases hc : c ∈ (storage s).connectionMap
  · have hset : storage (handleQuery K false ct s) = (storage s).setConnectionData c
        (ct.update c.srcPort.type ((storage s).connectionData c)).data := by
      rw [handleQuery, extractAddressPort_find hK hct, if_pos (hs c hc)]
      simp only [hK.find, ConnectionStorage.getConnection, if_pos hc, if_false, hK.data,
        Bool.false_eq_true]
      split_ifs
      · exact (hK.update _ _ _).trans (hK.setData _ _ _)
      · exact hK.setData _ _ _
    rw [hset, ConnectionStorage.setConnectionData_connections, ConnectionStorage.connections_eq hc]
    rfl
  · have hskip : handleQuery K false ct s = s := by
      refine handleQuery_skip hK fun x hx => ?_
      rw [hct, Option.some_inj] at hx
      exact hx ▸ hc
    rw [hskip, ConnectionStorage.connections_eq_none hc, Option.map_none,
      ← ConnectionStorage.connections_eq_none hc, Function.update_eq_self]

/-- A dump measures every tracked connection with its entry, and leaves those without. -/
theorem dump_false_connections (table : List NfConntrack) (s : σ)
    (hd : (table.filterMap NfConntrack.connection).Nodup)
    (hs : ∀ x ∈ (storage s).connectionMap, (storage s).HasEnds x) :
    let after := storage (table.foldl (fun s ct => handleQuery K false ct s) s)
    (∀ ct ∈ table, ∀ c, ct.connection = some c → after.connections c =
      ((storage s).connections c).map fun d => (ct.update c.srcPort.type d).data) ∧
    ∀ c ∉ connectionsOf table, after.connections c = (storage s).connections c := by
  induction table generalizing s with
  | nil => exact ⟨by simp, fun _ _ => rfl⟩
  | cons ct table ih =>
    obtain ⟨hmem, hkeep⟩ := handleQuery_false hK ct s
    have hs' : ∀ x ∈ (storage (handleQuery K false ct s)).connectionMap,
        (storage (handleQuery K false ct s)).HasEnds x :=
      fun x hx => (hkeep x).mpr (hs x ((hmem x).mp hx))
    have hd' : (table.filterMap NfConntrack.connection).Nodup :=
      hd.sublist ((List.sublist_cons_self ct table).filterMap _)
    obtain ⟨ih1, ih2⟩ := ih (handleQuery K false ct s) hd' hs'
    -- the other connections are as before
    have hother : ∀ c, ct.connection ≠ some c →
        (storage (handleQuery K false ct s)).connections c = (storage s).connections c := by
      intro c hc
      cases hct : ct.connection with
      | none =>
        rw [handleQuery_skip hK fun x hx => absurd (hct.symm.trans hx) (by simp)]
      | some c' =>
        rw [handleQuery_connections hK hs hct]
        exact Function.update_of_ne (fun he : c = c' => hc (he ▸ hct)) _ _
    constructor
    · intro ct' hct' c hc
      rw [List.foldl_cons]
      rcases List.mem_cons.mp hct' with rfl | hct'
      · have hnot : c ∉ connectionsOf table := by
          rintro ⟨ct', h', hc'⟩
          rw [List.filterMap_cons_some hc] at hd
          exact (List.nodup_cons.mp hd).1 (List.mem_filterMap.mpr ⟨ct', h', hc'⟩)
        rw [ih2 c hnot, handleQuery_connections hK hs hc, Function.update_self]
      · have hne : ct.connection ≠ some c := by
          intro he
          rw [List.filterMap_cons_some he] at hd
          exact (List.nodup_cons.mp hd).1 (List.mem_filterMap.mpr ⟨ct', hct', hc⟩)
        rw [ih1 ct' hct' c hc, hother c hne]
    · intro c hc
      have hne : ct.connection ≠ some c := fun he => hc ⟨ct, List.mem_cons_self, he⟩
      have hnot : c ∉ connectionsOf table := fun ⟨ct', h', hc'⟩ =>
        hc ⟨ct', List.mem_cons_of_mem _ h', hc'⟩
      rw [List.foldl_cons, ih2 c hnot, hother c hne]

/-- What a refill stores comes from the table. -/
theorem dump_true_connections (table : List NfConntrack) (s : σ) {c : Connection}
    {d : ConnectionData}
    (h : (storage (table.foldl (fun s ct => handleQuery K true ct s) s)).connections c = some d) :
    (storage s).connections c = some d ∨
      ∃ ct ∈ table, ct.connection = some c ∧ d = ct.newData c.srcPort.type := by
  induction table generalizing s with
  | nil => exact .inl h
  | cons ct table ih =>
    rcases ih (handleQuery K true ct s) h with h | ⟨ct', hct', h⟩
    · cases hct : ct.connection with
      | none =>
        rw [handleQuery, extractAddressPort_none K hct] at h
        exact .inl h
      | some c' =>
        have hq : storage (handleQuery K true ct s) =
            ((storage (K.intern s c')).addConnection c' (ct.newData c'.srcPort.type)).1 := by
          rw [handleQuery, extractAddressPort_add hK hct]
          exact hK.add _ _ _
        rw [hq, ConnectionStorage.addConnection_connections, hK.intern_connections] at h
        by_cases hc : c = c'
        · subst hc
          rw [Function.update_self, Option.some_inj] at h
          cases hold : (storage s).connections c with
          | none =>
            rw [hold] at h
            exact .inr ⟨ct, List.mem_cons_self, hct, h.symm⟩
          | some d' =>
            rw [hold] at h
            exact .inl (congrArg some h)
        · rw [Function.update_of_ne hc] at h
          exact .inl h
    · exact .inr ⟨ct', List.mem_cons_of_mem _ hct', h⟩

/-- The queue leaves the data of a connection that it does not remove. What it adds is zero. -/
theorem processEvents_connections (queue : List ConntrackEvent) (s : σ) (c : Connection) :
    let after := storage (queue.foldl (processEvent K) s)
    (∀ d, (storage s).connections c = some d → ⟨.removedConnection, c⟩ ∉ queue →
      after.connections c = some d) ∧
    ∀ d, after.connections c = some d → d = {} ∨
      (⟨.removedConnection, c⟩ ∉ queue ∧ (storage s).connections c = some d) := by
  -- the events are processed one after the other
  induction queue generalizing s with
  | nil => exact ⟨fun d h _ => h, fun d h => .inr ⟨by simp, h⟩⟩
  | cons event queue ih =>
    obtain ⟨ih1, ih2⟩ := ih (processEvent K s event)
    obtain ⟨type, c'⟩ := event
    cases type with
    -- a connection that is added starts with default data, one that is there keeps its own
    | newConnection =>
      have hstep : (storage (processEvent K s ⟨.newConnection, c'⟩)).connections =
          Function.update (storage s).connections c'
            (some (((storage s).connections c').getD {})) :=
        (congrArg _ (hK.add s c' {})).trans (ConnectionStorage.addConnection_connections _ _ _)
      have hmem : ∀ {queue : List ConntrackEvent}, (⟨.removedConnection, c⟩ : ConntrackEvent) ∈
          ⟨.newConnection, c'⟩ :: queue ↔ ⟨.removedConnection, c⟩ ∈ queue := by simp
      refine ⟨fun d h hq => ih1 d ?_ (hmem.not.mp hq), fun d h => ?_⟩
      · rw [hstep]
        by_cases hc : c = c'
        · subst hc
          rw [Function.update_self, h, Option.getD_some]
        · rw [Function.update_of_ne hc, h]
      · rcases ih2 d h with h | ⟨hq, h⟩
        · exact .inl h
        · rw [hstep] at h
          by_cases hc : c = c'
          · subst hc
            rw [Function.update_self, Option.some_inj] at h
            cases hold : (storage s).connections c with
            | none =>
              rw [hold] at h
              exact .inl h.symm
            | some d' =>
              rw [hold] at h
              exact .inr ⟨hmem.not.mpr hq, congrArg some h⟩
          · rw [Function.update_of_ne hc] at h
            exact .inr ⟨hmem.not.mpr hq, h⟩
    -- the connection is gone, whatever came before
    | removedConnection =>
      have hstep : (storage (processEvent K s ⟨.removedConnection, c'⟩)).connections =
          Function.update (storage s).connections c' none :=
        (congrArg _ (hK.remove s c')).trans (ConnectionStorage.removeConnection_connections _ _)
      refine ⟨fun d h hq => ?_, fun d h => ?_⟩
      · rw [List.mem_cons, not_or] at hq
        refine ih1 d ?_ hq.2
        rw [hstep, Function.update_of_ne (fun hc : c = c' => hq.1 (hc ▸ rfl)), h]
      · rcases ih2 d h with h | ⟨hq, h⟩
        · exact .inl h
        · rw [hstep] at h
          by_cases hc : c = c'
          · subst hc
            rw [Function.update_self] at h
            cases h
          · rw [Function.update_of_ne hc] at h
            exact .inr ⟨by simp [hc, hq], h⟩

/-- An event is queued, unless it is about addresses and ports that the callback does not know. -/
theorem eventCallback_cases {self : Conntrack σ} (hr : self.isRefillRequired = false)
    (event : KernelEvent) :
    let self' := self.eventCallback K event
    self'.isRefillRequired = false ∧
      (storage self'.s).connections = (storage self.s).connections ∧
      (∀ x, (storage self.s).HasEnds x → (storage self'.s).HasEnds x) ∧
      ((∃ e, event.event = some e ∧ self'.eventQueue = self.eventQueue ++ [e] ∧
          (storage self'.s).HasEnds e.connection) ∨
        (self'.eventQueue = self.eventQueue ∧
          ∀ e, event.event = some e → ¬(storage self.s).HasEnds e.connection)) := by
  have hhandle : self.eventCallback K event = self.handleEvent K event.entry event.type := by
    rw [Conntrack.eventCallback, hr]
    rfl
  rw [hhandle, handleEvent]
  cases hct : event.entry.connection with
  | none =>
    rw [extractAddressPort_none K hct]
    refine ⟨hr, rfl, fun _ => id, .inr ⟨rfl, fun e he => ?_⟩⟩
    rw [KernelEvent.event, hct] at he
    cases he
  | some c =>
    have hevent : event.event = some ⟨event.type, c⟩ := by rw [KernelEvent.event, hct]; rfl
    cases htype : event.type with
    | newConnection =>
      rw [decide_eq_true rfl, extractAddressPort_add hK hct]
      exact ⟨hr, hK.intern_connections _ _, fun x hx => hK.hasEnds_intern hx c,
        .inl ⟨_, hevent, by rw [htype], hK.intern_hasEnds _ _⟩⟩
    | removedConnection =>
      rw [decide_eq_false (by decide), extractAddressPort_find hK hct]
      by_cases hends : (storage self.s).HasEnds c
      · rw [if_pos hends]
        exact ⟨hr, rfl, fun _ => id, .inl ⟨_, hevent, by rw [htype], hends⟩⟩
      · rw [if_neg hends]
        refine ⟨hr, rfl, fun _ => id, .inr ⟨rfl, fun e he => ?_⟩⟩
        rw [hevent, Option.some_inj] at he
        exact he ▸ hends

end Conntrack

/-! ## The invariant -/

theorem ConntrackEvent.change_eq_erase {event : ConntrackEvent} {c : Connection} :
    event.change = .erase c ↔ event = ⟨.removedConnection, c⟩ := by
  obtain ⟨type, c'⟩ := event
  cases type <;> simp [ConntrackEvent.change]

theorem Covered.mono {table table' : List NfConntrack} {c : Connection} {t : ConnectionTraffic}
    (h : Covered table c t) (hsub : ∀ ct ∈ table, ct.connection = some c →
      ∃ ct' ∈ table', ct'.connection = some c ∧ ct.CountsUpTo ct') : Covered table' c t := by
  rcases h with h | ⟨ct, hct, hc, hreached⟩
  · exact .inl h
  · obtain ⟨ct', hct', hc', hup⟩ := hsub ct hct hc
    exact .inr ⟨ct', hct', hc', hreached.countsUp hup⟩

theorem NfConntrack.CountsUpTo.refl (ct : NfConntrack) : ct.CountsUpTo ct :=
  ⟨UInt64.le_refl _, UInt64.le_refl _⟩

/-- The 5-tuples of a table are those of one entry each. -/
theorem eq_of_connection {table : List NfConntrack} {ct ct' : NfConntrack} {c : Connection}
    (hd : (table.filterMap NfConntrack.connection).Nodup) (h : ct ∈ table) (h' : ct' ∈ table)
    (hc : ct.connection = some c) (hc' : ct'.connection = some c) : ct = ct' := by
  induction table with
  | nil => exact absurd h List.not_mem_nil
  | cons entry table ih =>
    have hhead : ∀ x ∈ table, x.connection = some c → entry.connection ≠ some c := by
      intro x hx hxc he
      rw [List.filterMap_cons_some he] at hd
      exact (List.nodup_cons.mp hd).1 (List.mem_filterMap.mpr ⟨x, hx, hxc⟩)
    have hd' : (table.filterMap NfConntrack.connection).Nodup :=
      hd.sublist ((List.sublist_cons_self entry table).filterMap _)
    rcases List.mem_cons.mp h with he | ht <;> rcases List.mem_cons.mp h' with he' | ht'
    · rw [he, he']
    · exact absurd (he ▸ hc) (hhead ct' ht' hc')
    · exact absurd (he' ▸ hc') (hhead ct ht hc)
    · exact ih hd' ht ht'

namespace Conntrack

variable {σ : Type} {K : IConnectionUpdateCallback σ} {inet : InetText}

variable (storage : σ → ConnectionStorage)

/-- The callback knows the addresses and ports of everything. -/
structure EndsKnown (conntrack : Conntrack σ) : Prop where
  ends : ∀ x ∈ (storage conntrack.s).connectionMap, (storage conntrack.s).HasEnds x
  queued : ∀ event ∈ conntrack.eventQueue, (storage conntrack.s).HasEnds event.connection

/-- What is stored was counted by the entry of the connection, unless its removal was read, or is
in `log`. -/
def Counted (self : Conntrack σ) (log : List (Change Connection)) (table : List NfConntrack) :
    Prop :=
  ∀ c d, (storage self.s).connections c = some d → ⟨.removedConnection, c⟩ ∉ self.eventQueue →
    .erase c ∉ log → Covered table c d.traffic

variable {storage} {self : Conntrack σ} {log : List (Change Connection)}
variable {table : List NfConntrack}

theorem Counted.mono {log' : List (Change Connection)} {table' : List NfConntrack}
    (h : self.Counted storage log table) (hlog : ∀ x ∈ log, x ∈ log')
    (htable : ∀ c, .erase c ∉ log' → ∀ ct ∈ table, ct.connection = some c →
      ∃ ct' ∈ table', ct'.connection = some c ∧ ct.CountsUpTo ct') :
    self.Counted storage log' table' :=
  fun c d hd hq hlog' => (h c d hd hq fun hc => hlog' (hlog _ hc)).mono (htable c hlog')

variable (hK : K.HoldsIn inet storage)
include hK

theorem read_endsKnown (hr : self.isRefillRequired = false) (events : List KernelEvent)
    (h : self.EndsKnown storage) :
    (events.foldl (Conntrack.eventCallback K) self).EndsKnown storage := by
  induction events generalizing self with
  | nil => exact h
  | cons event events ih =>
    obtain ⟨hr', hsame, hmono, hqueue⟩ := eventCallback_cases hK hr event
    refine ih hr' ⟨fun x hx => ?_, fun e he => ?_⟩
    · rw [ConnectionStorage.mem_iff, hsame, ← ConnectionStorage.mem_iff] at hx
      exact hmono x (h.ends x hx)
    · rcases hqueue with ⟨e', -, hq, hends⟩ | ⟨hq, -⟩ <;> rw [hq] at he
      · rcases List.mem_append.mp he with he | he
        · exact hmono _ (h.queued e he)
        · rw [List.mem_singleton.mp he]
          exact hends
      · exact hmono _ (h.queued e he)

/-- A removal that is read goes to the queue, if it is about a connection that is held. -/
theorem Counted.read (hr : self.isRefillRequired = false) (events : List KernelEvent)
    (hends : self.EndsKnown storage)
    (h : self.Counted storage (events.filterMap KernelEvent.change ++ log) table) :
    (events.foldl (Conntrack.eventCallback K) self).Counted storage log table := by
  induction events generalizing self with
  | nil => exact h
  | cons event events ih =>
    obtain ⟨hr', hsame, -, hqueue⟩ := eventCallback_cases hK hr event
    refine ih hr' (read_endsKnown hK hr [event] hends) fun c d hd hq hlog => ?_
    rw [hsame] at hd
    have hcons : .erase c ∉ (event :: events).filterMap KernelEvent.change ++ log ↔
        event.change ≠ some (.erase c) := by
      rw [List.mem_append, not_or] at hlog ⊢
      cases hc : event.change with
      | none => simpa [hc] using hlog
      | some x =>
        rw [List.filterMap_cons_some hc, List.mem_cons, not_or, Ne, Option.some_inj]
        exact ⟨fun hx he => hx.1.1 he.symm, fun hx => ⟨⟨fun he => hx he.symm, hlog.1⟩, hlog.2⟩⟩
    have hchange : ∀ e, event.event = some e →
        (event.change = some (.erase c) ↔ e = ⟨.removedConnection, c⟩) := by
      intro e he
      rw [KernelEvent.change, he, Option.map_some, Option.some_inj]
      exact ConntrackEvent.change_eq_erase
    rcases hqueue with ⟨e, he, hqueue, -⟩ | ⟨hqueue, hunknown⟩
    · rw [hqueue, List.mem_append, List.mem_singleton, not_or] at hq
      exact h c d hd hq.1 (hcons.mpr fun hx => hq.2 ((hchange e he).mp hx).symm)
    · rw [hqueue] at hq
      refine h c d hd hq (hcons.mpr fun hx => ?_)
      cases he : event.event with
      | none => rw [KernelEvent.change, he] at hx; cases hx
      | some e =>
        have hc := (hchange e he).mp hx
        have hmem : c ∈ (storage self.s).connectionMap :=
          ConnectionStorage.mem_iff.mpr (hd ▸ rfl)
        exact hunknown e he (hc ▸ hends.ends c hmem)

theorem onUpdate_endsKnown (table : List NfConntrack)
    (h : self.isRefillRequired = false → self.EndsKnown storage)
    (hr : (self.onUpdate K table).isRefillRequired = false) :
    (self.onUpdate K table).EndsKnown storage := by
  by_cases hrun : self.isInitialized = true ∧ self.isPaused = false
  · -- what the update leads to does not matter
    have hlive : (self.onUpdate K table).Live storage [] (if self.isRefillRequired then
        connectionsOf table else
          replay (self.eventQueue.map ConntrackEvent.change) (self.held storage)) := by
      refine (onUpdate_live hK table hrun.1 hrun.2 (fun hr => ?_) fun hr => ?_).2.2
      · exact ⟨(h hr).ends, (h hr).queued, by simp [hr]⟩
      · simp [hr]
    exact ⟨hlive.ends, hlive.queued⟩
  · rw [onUpdate_idle hrun] at hr ⊢
    exact h hr

/-- After an update that runs, what is stored was counted. -/
theorem onUpdate_counted (hd : (table.filterMap NfConntrack.connection).Nodup)
    (hi : self.isInitialized = true) (hp : self.isPaused = false)
    (hends : self.isRefillRequired = false → self.EndsKnown storage)
    (h : self.isRefillRequired = false → self.Counted storage log table) :
    (self.onUpdate K table).Counted storage log table := by
  have hrun : ¬(!self.isInitialized || self.isPaused) = true := by simp [hi, hp]
  intro c d
  unfold onUpdate
  rw [if_neg hrun]
  intro hstored _ hlog
  cases hr : self.isRefillRequired with
  | true =>
    rw [hr] at hstored
    rcases dump_true_connections hK table _ hstored with hold | ⟨ct, hct, hc, rfl⟩
    · rw [if_pos rfl, hK.clear] at hold
      cases hold
    · exact .inr ⟨ct, hct, hc, UInt64.le_refl _, UInt64.le_refl _⟩
  | false =>
    rw [hr] at hstored
    obtain ⟨-, hknown⟩ := processEvents hK self.eventQueue self.s (hends hr).ends (hends hr).queued
    obtain ⟨hin, hout⟩ := dump_false_connections hK table
      (self.eventQueue.foldl (processEvent K) self.s) hd hknown
    by_cases hc : c ∈ connectionsOf table
    · obtain ⟨ct, hct, hc⟩ := hc
      obtain ⟨d', -, rfl⟩ := Option.map_eq_some_iff.mp ((hin ct hct c hc).symm.trans hstored)
      exact .inr ⟨ct, hct, hc, NfConntrack.hasReached_update _ _⟩
    · rcases (processEvents_connections hK self.eventQueue self.s c).2 d
        ((hout c hc).symm.trans hstored) with rfl | ⟨hq, hold⟩
      · exact .inl ⟨rfl, rfl⟩
      · exact h hr c d hold hq hlog

/-- A refill stores no speeds. -/
theorem onUpdate_speeds_refill (hi : self.isInitialized = true) (hp : self.isPaused = false)
    (hr : self.isRefillRequired = true) :
    (storage (self.onUpdate K table).s).SpeedsBounded := by
  have hrun : ¬(!self.isInitialized || self.isPaused) = true := by simp [hi, hp]
  rw [ConnectionStorage.speedsBounded_iff]
  intro c d
  unfold onUpdate
  rw [if_neg hrun, hr]
  intro hstored
  rcases dump_true_connections hK table _ hstored with hold | ⟨ct, -, -, rfl⟩
  · rw [if_pos rfl, hK.clear] at hold
    cases hold
  · exact ⟨UInt64.zero_le, UInt64.zero_le⟩

/-- Any other update leaves bounded speeds exactly when each entry has counted what is stored for
its connection after the queue was processed. -/
theorem onUpdate_speeds_iff (hd : (table.filterMap NfConntrack.connection).Nodup)
    (hi : self.isInitialized = true) (hp : self.isPaused = false)
    (hr : self.isRefillRequired = false) (hends : self.EndsKnown storage)
    (h : (storage self.s).SpeedsBounded) :
    (storage (self.onUpdate K table).s).SpeedsBounded ↔
      ∀ ct ∈ table, ∀ c, ct.connection = some c → ∀ d,
        (storage (self.eventQueue.foldl (processEvent K) self.s)).connections c = some d →
          ct.HasReached d.traffic := by
  have hrun : ¬(!self.isInitialized || self.isPaused) = true := by simp [hi, hp]
  obtain ⟨-, hknown⟩ := processEvents hK self.eventQueue self.s hends.ends hends.queued
  obtain ⟨hin, hout⟩ := dump_false_connections hK table
    (self.eventQueue.foldl (processEvent K) self.s) hd hknown
  have hafter : (self.onUpdate K table).s = table.foldl (fun s ct => handleQuery K false ct s)
      (self.eventQueue.foldl (processEvent K) self.s) := by
    unfold onUpdate
    rw [if_neg hrun, hr]
    rfl
  rw [hafter, ConnectionStorage.speedsBounded_iff]
  constructor
  · intro hbounded ct hct c hc d hstored
    have hd' := hin ct hct c hc
    rw [hstored, Option.map_some] at hd'
    exact (NfConntrack.speedsBounded_update_iff _ d).mp (hbounded c _ hd')
  · intro hreached c d hstored
    by_cases hc : c ∈ connectionsOf table
    · obtain ⟨ct, hct, hc⟩ := hc
      obtain ⟨d', hd', rfl⟩ := Option.map_eq_some_iff.mp ((hin ct hct c hc).symm.trans hstored)
      exact (NfConntrack.speedsBounded_update_iff _ d').mpr (hreached ct hct c hc d' hd')
    · rcases (processEvents_connections hK self.eventQueue self.s c).2 d
        ((hout c hc).symm.trans hstored) with rfl | ⟨-, hold⟩
      · exact ⟨UInt64.zero_le, UInt64.zero_le⟩
      · exact ConnectionStorage.speedsBounded_iff.mp h c d hold

end Conntrack

/-! ## Runs -/

namespace ConntrackSystem

variable {σ : Type} {K : IConnectionUpdateCallback σ} {inet : InetText}
variable {storage : σ → ConnectionStorage} {capacity : ℕ}

/-- The counters of an entry do not go down. -/
def CountsUp (sys : ConntrackSystem σ) : Op → Prop
  | .count i ct' => ∀ ct ∈ sys.table[i]?, ct.CountsUpTo ct'
  | _ => True

instance (sys : ConntrackSystem σ) (op : Op) : Decidable (sys.CountsUp op) := by
  unfold CountsUp
  split <;> infer_instance

/-- An entry of the connection was destroyed, and the collector was not told: the event is in the
socket, or it may have been lost. -/
def RemovalUnread (sys : ConntrackSystem σ) (c : Connection) : Prop :=
  sys.isOverrun = true ∨ .erase c ∈ sys.unread

instance (sys : ConntrackSystem σ) (c : Connection) : Decidable (sys.RemovalUnread c) :=
  inferInstanceAs (Decidable (_ ∨ _))

variable (storage) in
/-- The condition on an update that is not a refill: if an entry was destroyed without the collector
knowing, then a new entry of its connection has counted at least as many bytes already. -/
def Reaches (sys : ConntrackSystem σ) : Prop :=
  sys.conntrack.isInitialized = true → sys.conntrack.isPaused = false →
    sys.conntrack.isRefillRequired = false → ∀ c ∈ (storage sys.conntrack.s).connectionMap,
      ⟨.removedConnection, c⟩ ∉ sys.conntrack.eventQueue → sys.RemovalUnread c →
        ∀ ct ∈ sys.table, ct.connection = some c →
          ct.HasReached ((storage sys.conntrack.s).connectionData c).traffic

instance (sys : ConntrackSystem σ) : Decidable (sys.Reaches storage) :=
  have : Decidable (∀ c ∈ (storage sys.conntrack.s).connectionMap,
      ⟨.removedConnection, c⟩ ∉ sys.conntrack.eventQueue → sys.RemovalUnread c →
        ∀ ct ∈ sys.table, ct.connection = some c →
          ct.HasReached ((storage sys.conntrack.s).connectionData c).traffic) :=
    inferInstanceAs (Decidable (∀ c ∈ (storage sys.conntrack.s).connectionMap.keys, _))
  inferInstanceAs (Decidable (_ → _ → _ → _))

variable (storage) in
/-- What holds in every state. -/
structure CountInv (sys : ConntrackSystem σ) : Prop where
  distinct : (sys.table.filterMap NfConntrack.connection).Nodup
  ends : sys.conntrack.isRefillRequired = false → sys.conntrack.EndsKnown storage
  counted : sys.conntrack.isRefillRequired = false → sys.isOverrun = false →
    sys.conntrack.Counted storage sys.unread sys.table

variable {sys : ConntrackSystem σ}

theorem CountInv.emit {table : List NfConntrack} (h : sys.CountInv storage) (event : KernelEvent)
    (hd : (table.filterMap NfConntrack.connection).Nodup)
    (htable : ∀ c, event.change ≠ some (.erase c) → ∀ ct ∈ sys.table, ct.connection = some c →
      ct ∈ table) : CountInv storage ({ sys with table := table }.emit capacity event) := by
  unfold ConntrackSystem.emit
  split_ifs
  · refine ⟨hd, h.ends, fun hr ho => (h.counted hr ho).mono ?_ fun c hc ct hct hctc => ?_⟩
    · intro x hx
      show x ∈ (sys.buffer ++ [event]).filterMap KernelEvent.change
      rw [List.filterMap_append]
      exact List.mem_append_left _ hx
    · refine ⟨ct, htable c (fun he => hc ?_) ct hct hctc, hctc, .refl ct⟩
      exact List.mem_filterMap.mpr ⟨event, by simp, he⟩
  · exact ⟨hd, h.ends, fun _ ho => absurd ho (by simp)⟩

theorem step_countInv (hK : K.HoldsIn inet storage) (op : Op) (h : sys.CountInv storage)
    (hop : sys.CountsUp op) : (sys.step K capacity op).CountInv storage := by
  cases op with
  | appear ct =>
    rw [step]
    split_ifs with hmem
    · exact h
    · exact h.emit _ (nodup_append h.distinct hmem) fun c _ ct' h' _ => List.mem_append_left _ h'
  | disappear i =>
    rw [step]
    split
    · next ct hi =>
      refine h.emit _ (h.distinct.sublist ((List.eraseIdx_sublist _ _).filterMap _)) ?_
      -- an entry of another connection is another entry
      intro c hc ct' hct' hctc
      rw [List.mem_eraseIdx_iff_getElem?]
      obtain ⟨j, hj⟩ := List.mem_iff_getElem?.mp hct'
      refine ⟨j, fun hji => hc ?_, hj⟩
      rw [hji, hi, Option.some_inj] at hj
      rw [KernelEvent.change, KernelEvent.event, hj, hctc]
      rfl
    · exact h
  -- counting up keeps what the events know: the counters of the table are no smaller
  | count i ct =>
    rw [step]
    split_ifs with hi
    · refine ⟨nodup_set h.distinct hi, h.ends, fun hr ho =>
        (h.counted hr ho).mono (fun _ => id) fun c _ ct' hct' hctc => ?_⟩
      obtain ⟨j, hj⟩ := List.mem_iff_getElem?.mp hct'
      by_cases hji : i = j
      · subst hji
        rw [hj, Option.map_some, Option.some_inj] at hi
        obtain ⟨hlt, -⟩ := List.getElem?_eq_some_iff.mp hj
        exact ⟨ct, List.mem_set hlt ct, hi ▸ hctc, hop ct' hj⟩
      · refine ⟨ct', ?_, hctc, .refl ct'⟩
        exact List.mem_of_getElem? ((List.getElem?_set_ne hji).trans hj)
    · exact h
  -- a buffer that has overrun asks for a refill, which forgets the events
  | read n =>
    rw [step]
    by_cases ho : sys.isOverrun = true
    · rw [if_pos ho]
      exact ⟨h.distinct, fun hr => absurd hr (by simp), fun hr => absurd hr (by simp)⟩
    · rw [if_neg ho]
      cases hreq : sys.conntrack.isRefillRequired with
      | true =>
        rw [Conntrack.skip_events hreq]
        exact ⟨h.distinct, fun hr => absurd (hreq.symm.trans hr) (by decide),
          fun hr => absurd (hreq.symm.trans hr) (by decide)⟩
      | false =>
        refine ⟨h.distinct, fun _ => Conntrack.read_endsKnown hK hreq _ (h.ends hreq),
          fun _ ho' => ?_⟩
        have hcounted := h.counted hreq ho'
        rw [unread_split n] at hcounted
        exact hcounted.read hK hreq _ (h.ends hreq)
  | init =>
    exact ⟨h.distinct, fun hr => absurd hr (by simp [step, Conntrack.init]),
      fun hr => absurd hr (by simp [step, Conntrack.init])⟩
  | setPaused paused =>
    by_cases hp : sys.conntrack.isPaused = paused
    · have hsame : sys.step K capacity (.setPaused paused) = sys := by
        simp [step, Conntrack.setPaused, hp]
      rw [hsame]
      exact h
    · exact ⟨h.distinct, fun hr => absurd hr (by simp [step, Conntrack.setPaused, hp]),
        fun hr => absurd hr (by simp [step, Conntrack.setPaused, hp])⟩
  -- an update reads the table, so what it knows is what is there
  | onUpdate =>
    refine ⟨h.distinct, Conntrack.onUpdate_endsKnown hK sys.table h.ends, fun hr ho => ?_⟩
    by_cases hrun : sys.conntrack.isInitialized = true ∧ sys.conntrack.isPaused = false
    · exact Conntrack.onUpdate_counted hK h.distinct hrun.1 hrun.2 h.ends
        fun hreq => h.counted hreq ho
    · have hidle : (sys.conntrack.onUpdate K sys.table) = sys.conntrack :=
        Conntrack.onUpdate_idle hrun
      have hr' : (sys.conntrack.onUpdate K sys.table).isRefillRequired = false := hr
      show (sys.conntrack.onUpdate K sys.table).Counted storage sys.unread sys.table
      rw [hidle] at hr' ⊢
      exact h.counted hr' ho

/-- The condition decides what an update leaves. -/
theorem onUpdate_speedsBounded_iff (hK : K.HoldsIn inet storage) (h : sys.CountInv storage)
    (hs : (storage sys.conntrack.s).SpeedsBounded) :
    (storage (sys.step K capacity .onUpdate).conntrack.s).SpeedsBounded ↔ sys.Reaches storage := by
  show (storage (sys.conntrack.onUpdate K sys.table).s).SpeedsBounded ↔ _
  by_cases hrun : sys.conntrack.isInitialized = true ∧ sys.conntrack.isPaused = false
  · obtain ⟨hi, hp⟩ := hrun
    cases hr : sys.conntrack.isRefillRequired with
    | true =>
      refine iff_of_true (Conntrack.onUpdate_speeds_refill hK hi hp hr) fun _ _ hf => ?_
      exact absurd (hr.symm.trans hf) (by decide)
    | false =>
      rw [Conntrack.onUpdate_speeds_iff hK h.distinct hi hp hr (h.ends hr) hs]
      have hqueue := Conntrack.processEvents_connections hK sys.conntrack.eventQueue
        sys.conntrack.s
      constructor
      · intro hreached _ _ _ c hc hq _ ct hct hctc
        exact hreached ct hct c hctc _ ((hqueue c).1 _ (ConnectionStorage.connections_eq hc) hq)
      · intro hreaches ct hct c hctc d hd
        rcases (hqueue c).2 d hd with rfl | ⟨hq, hold⟩
        · exact ⟨UInt64.zero_le, UInt64.zero_le⟩
        · have hc : c ∈ (storage sys.conntrack.s).connectionMap :=
            ConnectionStorage.mem_iff.mpr (hold ▸ rfl)
          by_cases hunread : sys.RemovalUnread c
          · have hdata := ConnectionStorage.connections_eq hc
            rw [hold, Option.some_inj] at hdata
            exact hdata ▸ hreaches hi hp hr c hc hq hunread ct hct hctc
          · obtain ⟨ho, hlog⟩ := not_or.mp hunread
            rcases h.counted hr (Bool.eq_false_iff.mpr ho) c d hold hq hlog with
              ⟨hrx, htx⟩ | ⟨ct', hct', hctc', hcounted⟩
            · exact ⟨hrx ▸ UInt64.zero_le, htx ▸ UInt64.zero_le⟩
            · rwa [eq_of_connection h.distinct hct hct' hctc hctc']
  · rw [Conntrack.onUpdate_idle hrun]
    exact iff_of_true hs fun hi hp => absurd ⟨hi, hp⟩ hrun

/-- Nothing but an update changes the data of a connection. -/
theorem step_speedsBounded (hK : K.HoldsIn inet storage) {op : Op} (hop : op ≠ .onUpdate)
    (hs : (storage sys.conntrack.s).SpeedsBounded) :
    (storage (sys.step K capacity op).conntrack.s).SpeedsBounded := by
  have hemit : ∀ (sys' : ConntrackSystem σ) (event : KernelEvent),
      (sys'.emit capacity event).conntrack = sys'.conntrack := by
    intro sys' event
    unfold ConntrackSystem.emit
    split_ifs <;> rfl
  -- reading events may make addresses known, but touches no connection
  have hread : ∀ (events : List KernelEvent) (conntrack : Conntrack σ),
      (storage (events.foldl (Conntrack.eventCallback K) conntrack).s).connections =
        (storage conntrack.s).connections := by
    intro events conntrack
    cases hr : conntrack.isRefillRequired with
    | true => rw [Conntrack.skip_events hr]
    | false =>
      induction events generalizing conntrack with
      | nil => rfl
      | cons event events ih =>
        obtain ⟨hr', hsame, -⟩ := Conntrack.eventCallback_cases hK hr event
        exact (ih _ hr').trans hsame
  cases op with
  | appear ct =>
    rw [step]
    split_ifs
    · exact hs
    · rwa [hemit]
  | disappear i =>
    rw [step]
    split
    · rwa [hemit]
    · exact hs
  | count i ct =>
    rw [step]
    split_ifs <;> exact hs
  | read n =>
    rw [step]
    split_ifs
    · exact hs
    · rw [ConnectionStorage.speedsBounded_iff] at hs ⊢
      intro c d hd
      exact hs c d ((congrFun (hread _ _) c).symm.trans hd)
  | init => exact hs
  | setPaused paused =>
    show (storage (sys.conntrack.setPaused paused).s).SpeedsBounded
    unfold Conntrack.setPaused
    split_ifs <;> exact hs
  | onUpdate => exact absurd rfl hop

/-- **No speed is above its traffic** after the updates of a run, in which counters count upwards,
exactly when no update meets a connection whose entry was destroyed without the collector knowing
and created anew, and has counted less than what is stored. -/
theorem speeds_bounded_iff (hK : K.HoldsIn inet storage) (capacity : ℕ) (s : σ)
    (hs : (storage s).SpeedsBounded) (table : List NfConntrack)
    (htable : (table.filterMap NfConntrack.connection).Nodup) (ops : List Op) :
    let start : ConntrackSystem σ := { conntrack := { s := s }, table := table }
    (∀ i (hi : i < ops.length), (start.run K capacity (ops.take i)).CountsUp ops[i]) →
      ((∀ i (hi : i < ops.length), ops[i] = .onUpdate →
          (storage (start.run K capacity (ops.take (i + 1))).conntrack.s).SpeedsBounded) ↔
        ∀ i (hi : i < ops.length), ops[i] = .onUpdate →
          (start.run K capacity (ops.take i)).Reaches storage) := by
  intro start hup
  have hinv : start.CountInv storage := ⟨htable, fun hr => absurd hr (by simp [start]),
    fun hr => absurd hr (by simp [start])⟩
  refine GuardedRun.foldl_marked_iff (I := CountInv storage)
    (P := fun sys => (storage sys.conntrack.s).SpeedsBounded)
    (C := fun sys _ => sys.Reaches storage)
    (fun sys op h => step_countInv hK op h) (fun sys op => step_speedsBounded hK)
    (fun sys op h hop hs => ?_) ops start hinv hs hup
  subst hop
  exact onUpdate_speedsBounded_iff hK h hs

section

/-- Entries with one 5-tuple, and the bytes that they received. -/
private def recreatedEntry (bytes : UInt64) : NfConntrack where
  l3Proto := .inet
  l4Proto := .udp
  ipv4Src := 0x0D00007F#32
  portSrc := 0x0300#16
  replCounterBytes := bytes

private def freshCollector : ConntrackSystem ConnectionList :=
  { conntrack := { s := {} }, table := [] }

private def shownCallback : IConnectionUpdateCallback ConnectionList :=
  ConnectionList.callback .insertion .plain

/-- Ten bytes are received and shown. Then the entry is destroyed and created anew. -/
private def recreatedOps : List Op :=
  [.init, .onUpdate, .appear (recreatedEntry 0), .read 1, .onUpdate, .count 0 (recreatedEntry 10),
    .onUpdate, .disappear 0, .appear (recreatedEntry 0)]

/-- Both events are read before the next update. -/
theorem recreatedOps_bounded :
    (freshCollector.run shownCallback 8
      (recreatedOps ++ [.read 2, .onUpdate])).conntrack.s.storage.SpeedsBounded := by
  have h := speeds_bounded_iff (ConnectionList.callback_holdsIn .insertion .plain) 8 {} (by decide)
    [] List.nodup_nil (recreatedOps ++ [.read 2, .onUpdate]) (by decide)
  exact h.mpr (by decide) 10 (by decide) (by decide)

/-- They are not, and the speed is ten less than zero. -/
theorem recreatedOps_wrapped :
    let ops := recreatedOps ++ [.onUpdate]
    (∀ i (hi : i < ops.length),
      (freshCollector.run shownCallback 8 (ops.take i)).CountsUp ops[i]) ∧
    ¬(freshCollector.run shownCallback 8 ops).conntrack.s.storage.SpeedsBounded := by
  decide

end

end ConntrackSystem

end Conntop
