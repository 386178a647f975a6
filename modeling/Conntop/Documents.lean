import Conntop.ListDeserialize

/-!
# What a document makes `Deserialize` do

`Deserialize` reads a document that a peer chose.

**Rejected documents.** `Deserialize` throws or returns false before it changes a connection. The
list is as before, except that the first address of a CREATE stays interned when the second is no
address (`TablesGrown`).

**Accepted documents.** A document has strings with lengths and numbers of 32 bits, and the code
reads C strings and stores ports of 16 bits. `Names` says which connection a document names with all
that is written in it. A document means what it says (`Means`) when its calls are about that
connection, with the traffic values of the document. It does exactly when what is written fits
(`FitsFields`).

Main results: `deserialize_failed` and `accepted_means_iff`.
-/

namespace Conntop

/-! ## Calls -/

/-- A call that can change the connections of a callback. `setData` is an assignment through the
pointer to a connection's data. -/
inductive CallbackCall
  | add (c : Connection) (d : ConnectionData)
  | update (c : Connection) (flags : Flags)
  | remove (c : Connection)
  | clear
  | setData (c : Connection) (d : ConnectionData)
  deriving DecidableEq

def CallbackCall.connection : CallbackCall → Option Connection
  | add c _ | update c _ | remove c | setData c _ => some c
  | clear => none

namespace IConnectionUpdateCallback

variable {σ : Type} {K : IConnectionUpdateCallback σ} {inet : InetText}
variable {storage : σ → ConnectionStorage}

variable (K) in
/-- The callback with its calls. -/
def traced : IConnectionUpdateCallback (σ × List CallbackCall) where
  getAddress s a add := (((K.getAddress s.1 a add).1, s.2), (K.getAddress s.1 a add).2)
  getPort s p add := (((K.getPort s.1 p add).1, s.2), (K.getPort s.1 p add).2)
  find s c := K.find s.1 c
  add s c d := (K.add s.1 c d, s.2 ++ [.add c d])
  update s c flags := (K.update s.1 c flags, s.2 ++ [.update c flags])
  remove s c := (K.remove s.1 c, s.2 ++ [.remove c])
  clear s := (K.clear s.1, s.2 ++ [.clear])
  data s c := K.data s.1 c
  setData s c d := (K.setData s.1 c d, s.2 ++ [.setData c d])

theorem HoldsIn.traced (hK : K.HoldsIn inet storage) :
    K.traced.HoldsIn inet fun s => storage s.1 where
  getAddress s a := by
    show ((_, _), _) = _
    rw [hK.getAddress]
  addAddress s a := hK.addAddress s.1 a
  getPort s p := by
    show ((_, _), _) = _
    rw [hK.getPort]
  addPort s p := hK.addPort s.1 p
  find s c := hK.find s.1 c
  add s c d := hK.add s.1 c d
  update s c flags := hK.update s.1 c flags
  remove s c := hK.remove s.1 c
  clear s := hK.clear s.1
  data s c := hK.data s.1 c
  setData s c d := hK.setData s.1 c d

theorem traced_merge (s : σ × List CallbackCall) (c : Connection) (flags : Flags)
    (new : ConnectionData) : K.traced.merge s c flags new = (K.merge s.1 c flags new,
      s.2 ++ (.setData c (.merge flags new (K.data s.1 c)) ::
        if mergedFlags flags ≠ 0 then [.update c (mergedFlags flags)] else [])) := by
  unfold merge
  dsimp only
  split_ifs
  · show (_, s.2 ++ [_] ++ [_]) = _
    rw [List.append_assoc]
    rfl
  · rfl

theorem applyAction_traced (item : SerializedItem) (s : σ) (calls : List CallbackCall)
    (c : Connection) :
    (item.applyAction K.traced (s, calls) c).1.1 = (item.applyAction K s c).1 ∧
      (item.applyAction K.traced (s, calls) c).2 = (item.applyAction K s c).2 := by
  unfold SerializedItem.applyAction
  cases item.action with
  | create => exact ⟨rfl, rfl⟩
  | update =>
    have hfind : K.traced.find (s, calls) c = K.find s c := rfl
    rw [hfind]
    cases K.find s c with
    | none => exact ⟨rfl, rfl⟩
    | some p =>
      dsimp only
      split_ifs <;> exact ⟨rfl, rfl⟩
  | remove => exact ⟨rfl, rfl⟩

/-- The calls when both addresses can be read. -/
theorem apply_eq {item : SerializedItem}
    {src dst : { a : Address // a.getType = item.type.addrType }}
    (hsrc : createFromString inet item.srcAddress item.type.addrType = .ok src)
    (hdst : createFromString inet item.dstAddress item.type.addrType = .ok dst) (s : σ) :
    item.apply K inet s =
      let r₁ := K.getAddress s src (item.action = .create)
      let r₂ := K.getAddress r₁.1 dst (item.action = .create)
      let r₃ := K.getPort r₂.1 ⟨item.type.portType, item.srcPort⟩ (item.action = .create)
      let r₄ := K.getPort r₃.1 ⟨item.type.portType, item.dstPort⟩ (item.action = .create)
      let r₅ := item.applyAction K r₄.1 (item.connection src dst)
      if r₁.2.isNone || r₂.2.isNone then (r₂.1, .ok false)
      else if r₃.2.isNone || r₄.2.isNone then (r₄.1, .ok false)
      else (r₅.1, .ok r₅.2) := by
  rw [SerializedItem.apply, hsrc, hdst]

variable (inet) in
/-- The calls are recorded and nothing else is different. -/
theorem deserialize_traced (document : Value) (s : σ) (calls : List CallbackCall) :
    (deserialize K.traced inet document (s, calls)).1.1 = (deserialize K inet document s).1 ∧
      (deserialize K.traced inet document (s, calls)).2 = (deserialize K inet document s).2 := by
  unfold deserialize
  cases decode document with
  | error e => exact ⟨rfl, rfl⟩
  | ok item =>
    dsimp only
    cases hsrc : createFromString inet item.srcAddress item.type.addrType with
    | error e =>
      have happly : ∀ {τ : Type} (K : IConnectionUpdateCallback τ) s,
          item.apply K inet s = (s, .error e) := fun K s => by rw [SerializedItem.apply, hsrc]
      rw [happly, happly]
      exact ⟨rfl, rfl⟩
    | ok src =>
      cases hdst : createFromString inet item.dstAddress item.type.addrType with
      | error e =>
        have happly : ∀ {τ : Type} (K : IConnectionUpdateCallback τ) s, item.apply K inet s =
            ((K.getAddress s src (item.action = .create)).1, .error e) :=
          fun K s => by rw [SerializedItem.apply, hsrc, hdst]
        rw [happly, happly]
        exact ⟨rfl, rfl⟩
      | ok dst =>
        rw [apply_eq hsrc hdst, apply_eq hsrc hdst]
        have hA : ∀ (s : σ × List CallbackCall) a add, K.traced.getAddress s a add =
            (((K.getAddress s.1 a add).1, s.2), (K.getAddress s.1 a add).2) := fun _ _ _ => rfl
        have hP : ∀ (s : σ × List CallbackCall) p add, K.traced.getPort s p add =
            (((K.getPort s.1 p add).1, s.2), (K.getPort s.1 p add).2) := fun _ _ _ => rfl
        simp only [hA, hP]
        generalize K.getAddress s src _ = r₁
        generalize K.getAddress r₁.1 dst _ = r₂
        generalize K.getPort r₂.1 _ _ = r₃
        generalize K.getPort r₃.1 _ _ = r₄
        obtain ⟨h1, h2⟩ := applyAction_traced (K := K) item r₄.1 calls (item.connection src dst)
        cases r₁.2.isNone || r₂.2.isNone with
        | true => exact ⟨rfl, rfl⟩
        | false =>
          cases r₃.2.isNone || r₄.2.isNone with
          | true => exact ⟨rfl, rfl⟩
          | false => exact ⟨h1, congrArg Except.ok h2⟩

end IConnectionUpdateCallback

/-! ## Rejected documents -/

namespace ConnectionList

/-- More addresses and ports may be known, and the resolver was asked for them. Everything else is
the same. -/
structure TablesGrown (l l' : ConnectionList) : Prop where
  same : l' = { l with
    storage := { l.storage with
      addressMap := l'.storage.addressMap
      portMap := l'.storage.portMap }
    dataTotalCount := l'.dataTotalCount
    resolverRequests := l'.resolverRequests }
  addresses : ∀ a d, l.storage.addressMap.lookup a = some d →
    l'.storage.addressMap.lookup a = some d
  ports : ∀ p d, l.storage.portMap.lookup p = some d → l'.storage.portMap.lookup p = some d
  /-- The total count is that of the entries of both tables. -/
  counted : l'.dataTotalCount + (l.storage.addressMap.entries.length +
      l.storage.portMap.entries.length) =
    l.dataTotalCount + (l'.storage.addressMap.entries.length + l'.storage.portMap.entries.length)

theorem TablesGrown.refl (l : ConnectionList) : l.TablesGrown l :=
  ⟨rfl, fun _ _ => id, fun _ _ => id, rfl⟩

theorem getAddress_tablesGrown (l : ConnectionList) (inet : InetText) (a : Address) (add : Bool) :
    l.TablesGrown (l.getAddress inet a add).1 := by
  unfold getAddress ConnectionStorage.addAddress
  cases add with
  | false => exact .refl l
  | true =>
    by_cases ha : a ∈ l.storage.addressMap
    · simp only [if_pos ha, if_true, Bool.false_eq_true, if_false]
      exact .refl l
    · simp only [if_neg ha, if_true]
      refine ⟨rfl, fun b d hb => ?_, fun _ _ => id, ?_⟩
      · have hne : b ≠ a := fun he => ha (he ▸ AList.lookup_isSome.mp (hb ▸ rfl))
        exact (AList.lookup_insert_ne hne).trans hb
      · simp only [AList.entries_insert_of_notMem ha, List.length_cons]
        omega

/-- **A failed `Deserialize` changes nothing.** When it throws or returns false it has called none
of `add`, `update` and `remove` and assigned to no connection, and only the tables of addresses and
ports may have grown. -/
theorem deserialize_failed (S : StdSort) (inet : InetText) (document : Value) (l : ConnectionList)
    (h : (deserialize (callback S inet) inet document l).2 ≠ .ok true) :
    (deserialize (callback S inet).traced inet document (l, [])).1.2 = [] ∧
      l.TablesGrown (deserialize (callback S inet) inet document l).1 := by
  obtain ⟨h1, h2⟩ := IConnectionUpdateCallback.deserialize_traced (K := callback S inet) inet
    document l []
  have hout := (callback_holdsIn S inet).traced.deserialize_outcome document (l, [])
  rw [← h1]
  rw [← h2] at h
  generalize deserialize (callback S inet).traced inet document (l, []) = r at hout h
  cases hout with
  | invalid => exact ⟨rfl, .refl l⟩
  | srcAddress => exact ⟨rfl, .refl l⟩
  | dstAddress item src => exact ⟨rfl, getAddress_tablesGrown l inet src _⟩
  | create => exact absurd rfl h
  | update => exact absurd rfl h
  | remove => exact absurd rfl h
  | unknown => exact ⟨rfl, .refl l⟩

section

private def writtenConn : Connection :=
  ⟨.ip4 0x0E00007F#32, ⟨.tcp, 80⟩, .ip4 0x0F00007F#32, ⟨.tcp, 7⟩, rfl, rfl⟩

private def writtenData : ConnectionData := { state := 3, traffic := { rxBytes := 5 } }

private def writtenList : ConnectionList :=
  run .insertion .plain {}
    (internOps writtenConn ++ [.setTargetSize 1, .add writtenConn writtenData])

/-- An UPDATE document of received and sent bytes. -/
private def writtenDocument (dstPort : ℤ) (txBytes : Value) : Value :=
  .object [("action", .string "UPDATE"), ("type", .string "tcp4"),
    ("srcAddress", .string "127.0.0.14"), ("dstAddress", .string "127.0.0.15"),
    ("srcPort", .int 80), ("dstPort", .int dstPort),
    ("updateFlags", .int (EConnectionUpdateFlags.rxBytes ||| EConnectionUpdateFlags.txBytes).toInt),
    ("rxBytes", .int 9), ("txBytes", txBytes)]

/-- A document that is rejected at its last member, and one about a port that is not known. Both
leave the connection and its data. -/
theorem writtenDocument_failed :
    let read document := deserialize (callback .insertion .plain) .plain document writtenList
    let rejected := read (writtenDocument 7 (.string "9"))
    let unknown := read (writtenDocument 8 (.int 9))
    rejected.2 = .error "Invalid sent bytes count value type" ∧ unknown.2 = .ok false ∧
      rejected.1.storage.connectionMap.lookup writtenConn = some writtenData ∧
      unknown.1.storage.connectionMap.lookup writtenConn = some writtenData ∧
      rejected.1.list.map (·.pConnection) = [writtenConn] ∧
      unknown.1.list.map (·.pConnection) = [writtenConn] := by
  intro read rejected unknown
  have hrejected : writtenList.TablesGrown rejected.1 :=
    (deserialize_failed .insertion .plain (writtenDocument 7 (.string "9")) writtenList
      (by decide)).2
  have hunknown : writtenList.TablesGrown unknown.1 :=
    (deserialize_failed .insertion .plain (writtenDocument 8 (.int 9)) writtenList (by decide)).2
  have hdata : writtenList.storage.connectionMap.lookup writtenConn = some writtenData := by decide
  have hlist : writtenList.list.map (·.pConnection) = [writtenConn] := by decide
  refine ⟨by decide, by decide, ?_, ?_, ?_, ?_⟩
  · rw [hrejected.same]
    exact hdata
  · rw [hunknown.same]
    exact hdata
  · rw [hrejected.same]
    exact hlist
  · rw [hunknown.same]
    exact hlist

end

end ConnectionList

/-! ## What was read -/

namespace Value

variable {v : Value}

theorem of_getString {s : String} (h : v.getString = some s) :
    ∃ t, v = .string t ∧ cString t = s := by
  cases v with
  | string t => exact ⟨t, rfl, Option.some.inj h⟩
  | _ => cases h

theorem of_getInt {n : ℤ} (h : v.getInt = some n) : v = .int n := by
  cases v with
  | int m =>
    rw [getInt] at h
    split_ifs at h
    exact congrArg Value.int (Option.some.inj h)
  | _ => cases h

theorem of_getUint {n : ℕ} (h : v.getUint = some n) : v = .int n := by
  cases v with
  | int m =>
    rw [getUint] at h
    split_ifs at h with hm
    rw [← Option.some.inj h, Int.toNat_of_nonneg hm.1]
  | _ => cases h

theorem of_getUint64 {n : UInt64} (h : v.getUint64 = some n) : v = .int n.toNat := by
  cases v with
  | int m =>
    rw [getUint64] at h
    split_ifs at h with hm
    have hlt : m.toNat < 2 ^ 64 := by omega
    rw [← Option.some.inj h, UInt64.toNat_ofNat_of_lt' hlt, Int.toNat_of_nonneg hm.1]
  | _ => cases h

/-- A member that is there and of a kind. -/
theorem member_of_require {α : Type} {document : Value} {name missing invalid : String}
    {get : Value → Option α} {a : α} (h : document.require name missing invalid get = .ok a) :
    ∃ v, document.findMember name = some v ∧ get v = some a :=
  Option.bind_eq_some_iff.mp (of_require h)

end Value

theorem Connection.of_typeToEnum {s : String} {t : EConnectionType}
    (h : typeToEnum s = .ok t) : s = typeToString t := by
  unfold typeToEnum at h
  cases hl : connectionTypeMap.lookup s with
  | none => rw [hl] at h; cases h
  | some t' =>
    rw [hl] at h
    cases h
    obtain ⟨l₁, l₂, hsplit, -⟩ := List.lookup_eq_some_iff.mp hl
    have hmem : (s, t) ∈ connectionTypeMap := hsplit ▸ by simp
    simp only [connectionTypeMap, List.mem_cons, Prod.mk.injEq, List.not_mem_nil, or_false] at hmem
    rcases hmem with ⟨rfl, rfl⟩ | ⟨rfl, rfl⟩ | ⟨rfl, rfl⟩ | ⟨rfl, rfl⟩ <;> rfl

/-- The members from which an item was read. -/
structure ReadFrom (document : Value) (item : SerializedItem) : Prop where
  type : ∃ t, document.findMember "type" = some (.string t) ∧
    cString t = Connection.typeToString item.type
  srcAddress : ∃ t, document.findMember "srcAddress" = some (.string t) ∧
    cString t = item.srcAddress
  dstAddress : ∃ t, document.findMember "dstAddress" = some (.string t) ∧
    cString t = item.dstAddress
  srcPort : ∃ n : ℕ, document.findMember "srcPort" = some (.int n) ∧ item.srcPort = .ofNat 16 n
  dstPort : ∃ n : ℕ, document.findMember "dstPort" = some (.int n) ∧ item.dstPort = .ofNat 16 n
  updateFlags : item.action = .update → ∃ n, document.findMember "updateFlags" = some (.int n) ∧
    item.updateFlags = .ofInt 32 n
  traffic : item.action ≠ .remove → ∀ f : TrafficField,
    isIncluded item.action item.updateFlags f.flag → document.findMember f.name =
      some (.int (f.get item.data.traffic).toNat)

/-- The fields that are included are read from their members, the others are left. -/
theorem of_decodeFields {document : Value} {action : EConnectionAction} {flags : Flags}
    {fs : List TrafficField} {t t' : ConnectionTraffic}
    (h : fs.foldlM (decodeField document action flags) t = .ok t') (g : TrafficField) :
    (g ∈ fs → isIncluded action flags g.flag →
      document.findMember g.name = some (.int (g.get t').toNat)) ∧
    (g ∉ fs → g.get t' = g.get t) := by
  induction fs generalizing t with
  | nil =>
    cases h
    exact ⟨fun hg => absurd hg List.not_mem_nil, fun _ => rfl⟩
  | cons f fs ih =>
    rw [List.foldlM_cons] at h
    obtain ⟨t₁, h₁, h⟩ := Value.of_bind_ok h
    obtain ⟨ih₁, ih₂⟩ := ih h
    have hf : (isIncluded action flags f.flag →
          document.findMember f.name = some (.int (f.get t₁).toNat)) ∧
        ∀ g, g ≠ f → TrafficField.get g t₁ = g.get t := by
      unfold decodeField at h₁
      split_ifs at h₁ with hincluded
      · obtain ⟨v, hv, h₁⟩ := Value.of_bind_ok h₁
        cases h₁
        obtain ⟨m, hm, hget⟩ := Value.member_of_require hv
        refine ⟨fun _ => ?_, fun g hg => ?_⟩
        · rw [hm, Value.of_getUint64 hget, TrafficField.get_set, if_pos rfl]
        · rw [TrafficField.get_set, if_neg hg]
      · cases h₁
        exact ⟨fun hi => absurd hi hincluded, fun _ _ => rfl⟩
    refine ⟨fun hg hincluded => ?_, fun hg => ?_⟩
    · by_cases hfs : g ∈ fs
      · exact ih₁ hfs hincluded
      · obtain rfl : g = f := (List.mem_cons.mp hg).resolve_right hfs
        rw [ih₂ hfs]
        exact hf.1 hincluded
    · rw [List.mem_cons, not_or] at hg
      exact (ih₂ hg.2).trans (hf.2 g hg.1)

theorem decode_readFrom {document : Value} {item : SerializedItem}
    (h : decode document = .ok item) : ReadFrom document item := by
  unfold decode at h
  -- every member was read without an error
  obtain ⟨actionName, -, h⟩ := Value.of_bind_ok h
  obtain ⟨action, -, h⟩ := Value.of_bind_ok h
  obtain ⟨typeName, htypeName, h⟩ := Value.of_bind_ok h
  obtain ⟨type, htype, h⟩ := Value.of_bind_ok h
  obtain ⟨srcAddress, hsrcAddress, h⟩ := Value.of_bind_ok h
  obtain ⟨dstAddress, hdstAddress, h⟩ := Value.of_bind_ok h
  obtain ⟨srcPort, hsrcPort, h⟩ := Value.of_bind_ok h
  obtain ⟨dstPort, hdstPort, h⟩ := Value.of_bind_ok h
  obtain ⟨updateFlags, hupdateFlags, h⟩ := Value.of_bind_ok h
  obtain ⟨state, -, h⟩ := Value.of_bind_ok h
  obtain ⟨traffic, htraffic, h⟩ := Value.of_bind_ok h
  cases h
  have hstring : ∀ {name missing invalid s},
      document.require name missing invalid Value.getString = .ok s →
        ∃ t, document.findMember name = some (.string t) ∧ cString t = s := by
    intro name missing invalid s hs
    obtain ⟨v, hv, hget⟩ := Value.member_of_require hs
    obtain ⟨t, rfl, ht⟩ := Value.of_getString hget
    exact ⟨t, hv, ht⟩
  have hport : ∀ {name missing invalid n},
      document.require name missing invalid Value.getUint = .ok n →
        document.findMember name = some (.int (n : ℕ)) := by
    intro name missing invalid n hn
    obtain ⟨v, hv, hget⟩ := Value.member_of_require hn
    rw [hv, Value.of_getUint hget]
  -- the type, the addresses and the ports
  constructor
  · rw [← Connection.of_typeToEnum htype]
    exact hstring htypeName
  · exact hstring hsrcAddress
  · exact hstring hdstAddress
  · exact ⟨srcPort, hport hsrcPort, rfl⟩
  · exact ⟨dstPort, hport hdstPort, rfl⟩
  · -- the flags of an update
    intro haction
    have haction : action = .update := haction
    rw [decodeUpdateFlags, if_pos haction] at hupdateFlags
    cases hn : document.require "updateFlags" "Missing update flags"
        "Invalid update flags value type" Value.getInt with
    | error e => rw [hn] at hupdateFlags; cases hupdateFlags
    | ok n =>
      rw [hn] at hupdateFlags
      cases hupdateFlags
      obtain ⟨v, hv, hget⟩ := Value.member_of_require hn
      rw [Value.of_getInt hget] at hv
      exact ⟨n, hv, rfl⟩
  · intro haction f hf
    rw [decodeTraffic, if_pos haction] at htraffic
    exact (of_decodeFields htraffic f).1 f.mem_all hf

/-! ## Accepted documents -/

/-- The text is one of the address. No text of an address has a NUL. -/
def Address.HasText (inet : InetText) (a : Address) (s : String) : Prop :=
  '\x00' ∉ s.toList ∧ createFromString inet s a.getType = .ok ⟨a, rfl⟩

/-- All that is written in the document is about the connection. -/
structure Names (inet : InetText) (document : Value) (c : Connection) : Prop where
  type : document.findMember "type" = some (.string (Connection.typeToString c.getType))
  srcAddress : ∃ s, document.findMember "srcAddress" = some (.string s) ∧ c.srcAddr.HasText inet s
  dstAddress : ∃ s, document.findMember "dstAddress" = some (.string s) ∧ c.dstAddr.HasText inet s
  srcPort : document.findMember "srcPort" = some (.int c.srcPort.number.toNat)
  dstPort : document.findMember "dstPort" = some (.int c.dstPort.number.toNat)

/-- Two documents have the same type, addresses and port numbers. -/
structure SameTuple (inet : InetText) (document document' : Value) : Prop where
  type : document.findMember "type" = document'.findMember "type"
  srcAddress : ∃ a s s', document.findMember "srcAddress" = some (.string s) ∧
    document'.findMember "srcAddress" = some (.string s') ∧ Address.HasText inet a s ∧
      a.HasText inet s'
  dstAddress : ∃ a s s', document.findMember "dstAddress" = some (.string s) ∧
    document'.findMember "dstAddress" = some (.string s') ∧ Address.HasText inet a s ∧
      a.HasText inet s'
  srcPort : document.findMember "srcPort" = document'.findMember "srcPort"
  dstPort : document.findMember "dstPort" = document'.findMember "dstPort"

theorem Names.sameTuple {inet : InetText} {document document' : Value} {c : Connection}
    (h : Names inet document c) (h' : Names inet document' c) :
    SameTuple inet document document' := by
  obtain ⟨s, hs, ha⟩ := h.srcAddress
  obtain ⟨s', hs', ha'⟩ := h'.srcAddress
  obtain ⟨d, hd, hb⟩ := h.dstAddress
  obtain ⟨d', hd', hb'⟩ := h'.dstAddress
  exact ⟨h.type.trans h'.type.symm, ⟨_, s, s', hs, hs', ha, ha'⟩, ⟨_, d, d', hd, hd', hb, hb'⟩,
    h.srcPort.trans h'.srcPort.symm, h.dstPort.trans h'.dstPort.symm⟩

namespace Value

/-- A string that a pointer without a length shows as a whole. -/
def fitsPointer : Value → Bool
  | string s => '\x00' ∉ s.toList
  | _ => true

/-- A number that a `uint16_t` holds. -/
def fitsPort : Value → Bool
  | int n => n < 65536
  | _ => true

/-- What is written about the connection fits where it is stored. -/
def FitsFields (document : Value) : Prop :=
  (∀ name ∈ ["type", "srcAddress", "dstAddress"], (document.findMember name).all fitsPointer) ∧
    ∀ name ∈ ["srcPort", "dstPort"], (document.findMember name).all fitsPort

instance (document : Value) : Decidable document.FitsFields :=
  inferInstanceAs (Decidable (_ ∧ _))

end Value

theorem cString_eq_iff {s : String} : cString s = s ↔ '\x00' ∉ s.toList := by
  refine ⟨fun h hmem => ?_, cString_eq⟩
  have hlist : s.toList.takeWhile (· ≠ '\x00') = s.toList := by
    have := congrArg String.toList h
    rwa [cString, String.toList_ofList] at this
  have := List.mem_takeWhile_imp (hlist.symm ▸ hmem)
  simp at this

theorem hasText_iff {inet : InetText} {s : String} {t : EAddressType}
    {a : { a : Address // a.getType = t }} (h : createFromString inet (cString s) t = .ok a) :
    a.1.HasText inet s ↔ '\x00' ∉ s.toList := by
  obtain ⟨a, rfl⟩ := a
  exact and_iff_left_of_imp fun hs => cString_eq hs ▸ h

theorem fitsPointer_string (s : String) :
    (Value.string s).fitsPointer = true ↔ '\x00' ∉ s.toList := decide_eq_true_iff

/-- A port is stored as it is written when it fits. -/
theorem port_eq_iff (n : ℕ) :
    Value.int n = .int (BitVec.ofNat 16 n).toNat ↔ (Value.int n).fitsPort = true := by
  rw [Value.int.injEq, Nat.cast_inj, BitVec.toNat_ofNat, Value.fitsPort, decide_eq_true_eq]
  omega

namespace ReadFrom

variable {inet : InetText} {document : Value} {item : SerializedItem}
variable {src dst : { a : Address // a.getType = item.type.addrType }}

theorem getType_connection : (item.connection src dst).getType = item.type := by
  show EConnectionType.createType src.1.getType item.type.portType = item.type
  rw [src.2]
  cases item.type <;> rfl

theorem names_iff (h : ReadFrom document item)
    (hsrc : createFromString inet item.srcAddress item.type.addrType = .ok src)
    (hdst : createFromString inet item.dstAddress item.type.addrType = .ok dst) :
    Names inet document (item.connection src dst) ↔ document.FitsFields := by
  obtain ⟨t, ht, htype⟩ := h.type
  obtain ⟨a, ha, hsrcText⟩ := h.srcAddress
  obtain ⟨b, hb, hdstText⟩ := h.dstAddress
  obtain ⟨m, hm, hsrcPort⟩ := h.srcPort
  obtain ⟨n, hn, hdstPort⟩ := h.dstPort
  rw [← hsrcText] at hsrc
  rw [← hdstText] at hdst
  have hall : ∀ {name : String} {v : Value} {p : Value → Bool},
      document.findMember name = some v →
        ((document.findMember name).all p = true ↔ p v = true) := by
    intro name v p hv
    rw [hv]
    rfl
  -- what `FitsFields` says of each of the five members
  have hfits : document.FitsFields ↔ ('\x00' ∉ t.toList ∧ '\x00' ∉ a.toList ∧ '\x00' ∉ b.toList) ∧
      (Value.int m).fitsPort = true ∧ (Value.int n).fitsPort = true := by
    rw [Value.FitsFields, List.forall_mem_cons, List.forall_mem_cons, List.forall_mem_singleton,
      List.forall_mem_cons, List.forall_mem_singleton, hall ht, hall ha, hall hb, hall hm, hall hn,
      fitsPointer_string, fitsPointer_string, fitsPointer_string]
  -- a text is kept as it is unless it has a NUL
  have htypeIff : t = Connection.typeToString item.type ↔ '\x00' ∉ t.toList := by
    rw [← htype, eq_comm, cString_eq_iff]
  rw [hfits]
  constructor
  · intro hnames
    have h1 := hnames.type
    rw [ht, getType_connection, Option.some_inj, Value.string.injEq, htypeIff] at h1
    obtain ⟨a', ha', h2⟩ := hnames.srcAddress
    rw [ha, Option.some_inj, Value.string.injEq] at ha'
    obtain ⟨b', hb', h3⟩ := hnames.dstAddress
    rw [hb, Option.some_inj, Value.string.injEq] at hb'
    have h4 := hnames.srcPort
    rw [hm, Option.some_inj] at h4
    have h5 := hnames.dstPort
    rw [hn, Option.some_inj] at h5
    refine ⟨⟨h1, ha' ▸ h2.1, hb' ▸ h3.1⟩, (port_eq_iff m).mp ?_, (port_eq_iff n).mp ?_⟩
    · rw [← hsrcPort]
      exact h4
    · rw [← hdstPort]
      exact h5
  · rintro ⟨⟨h1, h2, h3⟩, h4, h5⟩
    refine ⟨?_, ⟨a, ha, (hasText_iff hsrc).mpr h2⟩, ⟨b, hb, (hasText_iff hdst).mpr h3⟩, ?_, ?_⟩
    · rw [ht, getType_connection, htypeIff.mpr h1]
    · rw [hm, (port_eq_iff m).mpr h4, ← hsrcPort]
      rfl
    · rw [hn, (port_eq_iff n).mpr h5, ← hdstPort]
      rfl

end ReadFrom

/-- The calls are about one connection, and store the traffic values of the document: all of them
in a new connection, the flagged ones in a changed one. -/
structure ActsOn (document : Value) (before after : ConnectionStorage) (calls : List CallbackCall)
    (c : Connection) : Prop where
  nonempty : calls ≠ []
  about : ∀ call ∈ calls, call.connection = some c
  created : ∀ d, .add c d ∈ calls → c ∉ before.connectionMap → ∀ f : TrafficField,
    document.findMember f.name = some (.int (f.get (after.connectionData c).traffic).toNat)
  updated : ∀ d, .setData c d ∈ calls → ∃ n, document.findMember "updateFlags" = some (.int n) ∧
    ∀ f : TrafficField, Flags.test (.ofInt 32 n) f.flag →
      document.findMember f.name = some (.int (f.get (after.connectionData c).traffic).toNat)

theorem ActsOn.unique {document : Value} {before after : ConnectionStorage}
    {calls : List CallbackCall} {c c' : Connection} (h : ActsOn document before after calls c)
    (h' : ActsOn document before after calls c') : c = c' := by
  obtain ⟨call, hcall⟩ := List.exists_mem_of_ne_nil calls h.nonempty
  exact Option.some.inj ((h.about call hcall).symm.trans (h'.about call hcall))

namespace IConnectionUpdateCallback

variable {σ : Type} {K : IConnectionUpdateCallback σ} {inet : InetText}
variable {storage : σ → ConnectionStorage} {document : Value} {s : σ}

variable (K inet storage) in
/-- `Deserialize` of the document looks up, creates, changes or removes the connection. -/
def Performs (document : Value) (s : σ) (c : Connection) : Prop :=
  let read := deserialize K.traced inet document (s, [])
  ActsOn document (storage s) (storage read.1.1) read.1.2 c

section

variable {item : SerializedItem} (hread : ReadFrom document item)
variable (hK : K.HoldsIn inet storage)
include hread hK

theorem HoldsIn.actsOn_create (haction : item.action = .create) (c : Connection) :
    ActsOn document (storage s) (storage (K.add (K.intern s c) c item.data))
      [.add c item.data] c where
  nonempty := List.cons_ne_nil _ _
  about call hcall := by
    rw [List.mem_singleton.mp hcall]
    rfl
  created d _ hnew f := by
    have hnew' : c ∉ (storage (K.intern s c)).connectionMap := (hK.mem_intern _ _ _).not.mpr hnew
    have hdata : (storage (K.add (K.intern s c) c item.data)).connectionData c = item.data := by
      unfold ConnectionStorage.connectionData
      rw [hK.add, ConnectionStorage.lookup_addConnection, if_pos ⟨rfl, hnew'⟩]
      rfl
    rw [hdata]
    exact hread.traffic (by rw [haction]; decide) f (by rw [haction]; rfl)
  updated d hd := by cases List.mem_singleton.mp hd

theorem HoldsIn.actsOn_update (haction : item.action = .update) {c : Connection}
    (hc : c ∈ (storage s).connectionMap) (d : ConnectionData) {calls : List CallbackCall}
    (hcalls : ∀ call ∈ calls, ∃ flags, call = .update c flags) :
    ActsOn document (storage s) (storage (K.merge s c item.updateFlags item.data))
      (.setData c d :: calls) c where
  nonempty := List.cons_ne_nil _ _
  about call hcall := by
    rcases List.mem_cons.mp hcall with rfl | hcall
    · rfl
    · obtain ⟨flags, rfl⟩ := hcalls call hcall
      rfl
  created d' hd' := by
    rcases List.mem_cons.mp hd' with hd' | hd'
    · cases hd'
    · obtain ⟨flags, hflags⟩ := hcalls _ hd'
      cases hflags
  updated _ _ := by
    obtain ⟨n, hn, hflags⟩ := hread.updateFlags haction
    refine ⟨n, hn, fun f hf => ?_⟩
    rw [← hflags] at hf
    have hmap := congrFun (hK.merge_storage hc item.updateFlags item.data) c
    rw [Function.update_self] at hmap
    have hdata : (storage (K.merge s c item.updateFlags item.data)).connectionData c =
        .merge item.updateFlags item.data ((storage s).connectionData c) :=
      congrArg (fun o => o.getD {}) hmap
    have hagree := DataField.agree_merge (.traffic f) item.updateFlags item.data
      ((storage s).connectionData c)
    rw [if_pos (by exact hf), ← hdata] at hagree
    have hget : f.get ((storage (K.merge s c item.updateFlags item.data)).connectionData
        c).traffic = f.get item.data.traffic := hagree
    rw [hget]
    refine hread.traffic (by rw [haction]; decide) f ?_
    rw [haction]
    exact hf

omit hread hK in
theorem actsOn_remove (after : ConnectionStorage) (c : Connection) :
    ActsOn document (storage s) after [.remove c] c where
  nonempty := List.cons_ne_nil _ _
  about call hcall := by
    rw [List.mem_singleton.mp hcall]
    rfl
  created d hd := by cases List.mem_singleton.mp hd
  updated d hd := by cases List.mem_singleton.mp hd

end

/-- An accepted document acts on the connection that was read from it. -/
theorem HoldsIn.performs (hK : K.HoldsIn inet storage)
    (h : (deserialize K inet document s).2 = .ok true) :
    ∃ (item : SerializedItem) (src dst : { a : Address // a.getType = item.type.addrType }),
      ReadFrom document item ∧
        createFromString inet item.srcAddress item.type.addrType = .ok src ∧
        createFromString inet item.dstAddress item.type.addrType = .ok dst ∧
        K.Performs inet storage document s (item.connection src dst) := by
  obtain ⟨-, h2⟩ := deserialize_traced (K := K) inet document s []
  have hout := hK.traced.deserialize_outcome document (s, [])
  unfold Performs
  rw [← h2] at h
  generalize deserialize K.traced inet document (s, []) = r at hout h ⊢
  cases hout with
  | invalid => cases h
  | srcAddress => cases h
  | dstAddress => cases h
  | create item src dst hitem hsrc hdst haction =>
    have hread := decode_readFrom hitem
    exact ⟨item, src, dst, hread, hsrc, hdst, hK.actsOn_create hread haction _⟩
  | update item src dst hitem hsrc hdst haction hc =>
    have hread := decode_readFrom hitem
    refine ⟨item, src, dst, hread, hsrc, hdst, ?_⟩
    rw [traced_merge]
    refine hK.actsOn_update hread haction hc _ fun call hcall => ?_
    split_ifs at hcall
    · exact ⟨_, List.mem_singleton.mp hcall⟩
    · cases hcall
  | remove item src dst hitem hsrc hdst =>
    exact ⟨item, src, dst, decode_readFrom hitem, hsrc, hdst, actsOn_remove _ _⟩
  | unknown => cases h

/-- **An accepted document means what it says exactly when it fits.** The connection that it acts
on is the one that is written in it, and the traffic values are, if and only if its type and
addresses have no NUL and its ports are below 65536. Two such documents that act on one connection
have the same type, addresses and ports. -/
theorem accepted_means_iff (hK : K.HoldsIn inet storage) (document : Value) (s : σ)
    (h : (deserialize K inet document s).2 = .ok true) :
    ((∃ c, K.Performs inet storage document s c ∧ Names inet document c) ↔ document.FitsFields) ∧
      ∀ document' s' c, (deserialize K inet document' s').2 = .ok true → document.FitsFields →
        document'.FitsFields → K.Performs inet storage document s c →
        K.Performs inet storage document' s' c → SameTuple inet document document' := by
  have hmeans : ∀ {document s}, (deserialize K inet document s).2 = .ok true →
      ∃ c, K.Performs inet storage document s c ∧
        (Names inet document c ↔ document.FitsFields) := by
    intro document s h
    obtain ⟨item, src, dst, hread, hsrc, hdst, hperforms⟩ := hK.performs h
    exact ⟨_, hperforms, hread.names_iff hsrc hdst⟩
  obtain ⟨c₀, hperforms, hnames⟩ := hmeans h
  constructor
  · constructor
    · rintro ⟨c, hc, hwritten⟩
      exact hnames.mp (hc.unique hperforms ▸ hwritten)
    · exact fun hfits => ⟨c₀, hperforms, hnames.mpr hfits⟩
  · intro document' s' c h' hfits hfits' hc hc'
    obtain ⟨c₁, hperforms', hnames'⟩ := hmeans h'
    have h₀ : Names inet document c := hc.unique hperforms ▸ hnames.mpr hfits
    have h₁ : Names inet document' c := hc'.unique hperforms' ▸ hnames'.mpr hfits'
    exact h₀.sameTuple h₁

section

/-- A CREATE document of a connection to port 53, with a source port. -/
private def portDocument (srcPort : ℤ) : Value :=
  .object <| [("action", .string "CREATE"), ("type", .string "udp4"),
    ("srcAddress", .string "127.0.0.15"), ("dstAddress", .string "127.0.0.16"),
    ("srcPort", .int srcPort), ("dstPort", .int 53), ("state", .string "")] ++
    TrafficField.all.map fun f => (f.name, .int 11)

private def portCallback : IConnectionUpdateCallback ConnectionList :=
  ConnectionList.callback .insertion .plain

theorem portDocument_means : ∃ c, portCallback.Performs .plain ConnectionList.storage
    (portDocument 4096) {} c ∧ Names .plain (portDocument 4096) c := by
  have h := accepted_means_iff (ConnectionList.callback_holdsIn .insertion .plain)
    (portDocument 4096) {} (by decide)
  exact h.1.mpr (by decide)

/-- The port 69632 is 4096 with 65536 more, and is taken for it. -/
theorem portDocument_confused :
    let read n := deserialize portCallback.traced .plain (portDocument n)
      (({} : ConnectionList), [])
    (read 4096).2 = .ok true ∧ (read 69632).2 = .ok true ∧ (read 4096).1.2 = (read 69632).1.2 ∧
      (portDocument 4096).findMember "srcPort" = some (.int 4096) ∧
      (portDocument 69632).findMember "srcPort" = some (.int 69632) :=
  ⟨by decide, by decide, by decide, rfl, rfl⟩

end

end IConnectionUpdateCallback

end Conntop
