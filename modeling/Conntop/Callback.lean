import Conntop.Deserialize

/-!
# What `Deserialize` does through its callback

`applyChange` says what an item of a message does to a map of connections, on the abstract level:
a 5-tuple has data or has none. `DataField` are the parts of the data that an update can carry.

* `HoldsIn` is what `ConnectionList` and `ConnectionUpdateSerializer` have in common: an
  `IConnectionUpdateCallback` that keeps its connections in a `ConnectionStorage`.
* `recorded` adds to a callback the list of the calls of its `update`.
* `Outcome` lists what `Deserialize` can do with any document, one constructor for each way out.

Main result: `deserialize_serialize`, an item that was serialized from a storage does to the
connections of a callback what was done on the storage. `read_create`, `read_update` and
`read_remove` are the calls that it makes.
-/

namespace Conntop

/-! ## The fields of a connection's data -/

/-- A field of `ConnectionData` that an update can carry. -/
inductive DataField
  | state
  | traffic (f : TrafficField)
  deriving DecidableEq, Repr

namespace DataField

def flag : DataField → Flags
  | state => EConnectionUpdateFlags.protoState
  | traffic f => f.flag

/-- Two data have the same value of the field. -/
def Agree : DataField → ConnectionData → ConnectionData → Prop
  | state, d, d' => d.state = d'.state
  | traffic f, d, d' => f.get d.traffic = f.get d'.traffic

def all : List DataField := state :: TrafficField.all.map traffic

theorem mem_all (fld : DataField) : fld ∈ all := by
  cases fld with
  | state => exact List.mem_cons_self
  | traffic f => exact List.mem_cons_of_mem _ (List.mem_map_of_mem f.mem_all)

instance (P : DataField → Prop) [DecidablePred P] : Decidable (∀ fld, P fld) :=
  decidable_of_iff (∀ fld ∈ all, P fld)
    ⟨fun h fld => h fld (mem_all fld), fun h fld _ => h fld⟩

variable {fld : DataField} {d d' d'' : ConnectionData}

instance : ∀ (fld : DataField) (d d' : ConnectionData), Decidable (fld.Agree d d')
  | state, _, _ | traffic _, _, _ => inferInstanceAs (Decidable (_ = _))

@[refl] theorem Agree.refl (fld : DataField) (d : ConnectionData) : fld.Agree d d := by
  cases fld <;> rfl

theorem Agree.symm (h : fld.Agree d d') : fld.Agree d' d := by
  cases fld <;> exact Eq.symm h

theorem Agree.trans (h : fld.Agree d d') (h' : fld.Agree d' d'') : fld.Agree d d'' := by
  cases fld <;> exact Eq.trans h h'

theorem agree_ext (h : ∀ fld : DataField, fld.Agree d d') : d = d' := by
  have hs : d.state = d'.state := h state
  have ht : d.traffic = d'.traffic := TrafficField.traffic_ext fun f => h (traffic f)
  cases d
  cases d'
  subst hs ht
  rfl

/-- The flagged fields are taken from the new data. -/
theorem agree_merge (fld : DataField) (flags : Flags) (new d : ConnectionData) :
    fld.Agree (.merge flags new d) (if flags.test fld.flag then new else d) := by
  cases fld with
  | state =>
    show (if flags.test EConnectionUpdateFlags.protoState then new.state else d.state) = _
    unfold flag
    split_ifs <;> rfl
  | traffic f =>
    unfold Agree ConnectionData.merge
    simp only [TrafficField.get_setAll, TrafficField.mem_all, true_and]
    show (if flags.test f.flag then _ else _) = f.get (if flags.test f.flag then new else d).traffic
    split_ifs <;> rfl

/-- Merging takes nothing but the flagged fields. -/
theorem merge_congr {flags : Flags} {new new' : ConnectionData}
    (h : ∀ fld : DataField, flags.test fld.flag = true → fld.Agree new new') :
    ConnectionData.merge flags new d = .merge flags new' d := by
  unfold ConnectionData.merge
  congr 1
  · refine TrafficField.traffic_ext fun f => ?_
    rw [TrafficField.get_setAll, TrafficField.get_setAll]
    split_ifs with hf
    · exact h (traffic f) hf.2
    · rfl
  · split_ifs with hs
    · exact h state hs
    · rfl

end DataField

/-! ## What items do -/

/-- 5-tuple to state and traffic. -/
abbrev ConnectionMap := Connection → Option ConnectionData

def ConnectionStorage.connections (st : ConnectionStorage) : ConnectionMap :=
  st.connectionMap.lookup

theorem ConnectionStorage.connections_congr {st st' : ConnectionStorage}
    (h : st.connectionMap = st'.connectionMap) : st.connections = st'.connections := by
  funext c
  show st.connectionMap.lookup c = st'.connectionMap.lookup c
  rw [h]

theorem ConnectionStorage.mem_iff {st : ConnectionStorage} {c : Connection} :
    c ∈ st.connectionMap ↔ (st.connections c).isSome := AList.lookup_isSome.symm

theorem ConnectionStorage.connections_eq {st : ConnectionStorage} {c : Connection}
    (h : c ∈ st.connectionMap) : st.connections c = some (st.connectionData c) := by
  obtain ⟨d, hd⟩ := Option.isSome_iff_exists.mp (mem_iff.mp h)
  rw [hd, connectionData, show st.connectionMap.lookup c = some d from hd, Option.getD_some]

theorem ConnectionStorage.connections_eq_none {st : ConnectionStorage} {c : Connection}
    (h : c ∉ st.connectionMap) : st.connections c = none := AList.lookup_eq_none.mpr h

namespace ConnectionStorage

variable (st : ConnectionStorage) (c : Connection) (d : ConnectionData)

theorem addConnection_connections : (st.addConnection c d).1.connections =
    Function.update st.connections c (some ((st.connections c).getD d)) := by
  funext x
  show (st.addConnection c d).1.connectionMap.lookup x = _
  rw [lookup_addConnection]
  by_cases hx : x = c
  · subst hx
    rw [Function.update_self]
    split_ifs with h
    · rw [connections_eq_none h.2, Option.getD_none]
    · have hx : x ∈ st.connectionMap := not_not.mp fun hx => h ⟨rfl, hx⟩
      rw [connections_eq hx, Option.getD_some]
      exact connections_eq hx
  · rw [Function.update_of_ne hx, if_neg fun h => hx h.1]
    rfl

theorem removeConnection_connections :
    (st.removeConnection c).1.connections = Function.update st.connections c none := by
  funext x
  show (st.removeConnection c).1.connectionMap.lookup x = _
  rw [lookup_removeConnection]
  by_cases hx : x = c
  · rw [if_pos hx, hx, Function.update_self]
  · rw [if_neg hx, Function.update_of_ne hx]
    rfl

theorem setConnectionData_connections : (st.setConnectionData c d).connections =
    Function.update st.connections c ((st.connections c).map fun _ => d) := by
  funext x
  show (st.setConnectionData c d).connectionMap.lookup x = _
  rw [lookup_setConnectionData]
  by_cases hx : x = c
  · subst hx
    rw [Function.update_self]
    by_cases h : x ∈ st.connectionMap
    · rw [if_pos ⟨rfl, h⟩, connections_eq h, Option.map_some]
    · rw [if_neg fun h' => h h'.2, connections_eq_none h]
      exact connections_eq_none h
  · rw [Function.update_of_ne hx, if_neg fun h => hx h.1]
    rfl

/-- Writing back what was read. -/
theorem setConnectionData_self {c : Connection} (h : c ∈ st.connectionMap) :
    st.setConnectionData c (st.connectionData c) = st := by
  have hm : Sigma.mk c (st.connectionData c) ∈ st.connectionMap.entries :=
    AList.mem_lookup_iff.mp (connections_eq h)
  have hr : st.connectionMap.replace c (st.connectionData c) = st.connectionMap :=
    AList.ext (List.kreplace_self st.connectionMap.nodupKeys hm)
  unfold setConnectionData
  rw [hr]

end ConnectionStorage

/-- What an item says: an action on a connection with its data. -/
def applyChange (c : Connection) (d : ConnectionData) (updateFlags : Flags)
    (action : EConnectionAction) (m : ConnectionMap) : ConnectionMap :=
  Function.update m c <|
    match action with
    | .create => some ((m c).getD d)
    | .update => (m c).map (.merge updateFlags d)
    | .remove => none

/-! ## The flags of an update -/

theorem test_mergeFlags (flags m acc : Flags) (fs : List TrafficField) :
    (fs.foldl (fun acc f => if flags.test f.flag then acc ||| f.flag else acc) acc).test m =
      (acc.test m || fs.any fun f => flags.test f.flag && f.flag.test m) := by
  induction fs generalizing acc with
  | nil => simp
  | cons f fs ih =>
    rw [List.foldl_cons, ih, List.any_cons]
    split_ifs with h <;> simp [h, Bool.or_assoc]

/-- No flag is passed on only when nothing is merged. -/
theorem merge_of_mergedFlags {flags : Flags} (h : mergedFlags flags = 0)
    (new d : ConnectionData) : ConnectionData.merge flags new d = d := by
  have htest : ∀ m, (mergedFlags flags).test m = false := fun m => by
    rw [h]
    exact Flags.test_zero m
  simp only [mergedFlags, test_mergeFlags, Bool.or_eq_false_iff] at htest
  refine DataField.agree_ext fun fld => ?_
  have hfld : flags.test fld.flag = false := by
    cases fld with
    | state =>
      have hs := (htest EConnectionUpdateFlags.protoState).1
      by_contra hf
      rw [if_pos (Bool.not_eq_false _ ▸ hf)] at hs
      exact absurd hs (by decide)
    | traffic f =>
      have hf := List.any_eq_false.mp (htest f.flag).2 f (TrafficField.mem_all f)
      have hself : f.flag.test f.flag = true := by cases f <;> decide
      simpa [hself, DataField.flag] using hf
  have hm := DataField.agree_merge fld flags new d
  rwa [hfld] at hm

/-- The flags of the fields that an update can carry. -/
def DataField.flags : Flags := DataField.all.foldl (fun flags fld => flags ||| fld.flag) 0

/-- A flag is a single bit. -/
theorem TrafficField.and_flag (f : TrafficField) (flags acc : Flags) :
    (if flags.test f.flag then acc ||| f.flag else acc) = acc ||| flags &&& f.flag := by
  obtain ⟨i, hi⟩ : ∃ i, f.flag = BitVec.twoPow 32 i := by
    cases f
    · exact ⟨6, rfl⟩
    · exact ⟨7, rfl⟩
    · exact ⟨8, rfl⟩
    · exact ⟨9, rfl⟩
    · exact ⟨10, rfl⟩
    · exact ⟨11, rfl⟩
  have hne : BitVec.twoPow 32 i ≠ 0 := hi ▸ f.flag_ne_zero
  rw [Flags.test, hi, BitVec.and_twoPow]
  cases flags.getLsbD i with
  | true =>
    rw [if_pos rfl, if_pos (bne_iff_ne.mpr hne)]
  | false => simp

/-- `Deserialize` passes on the flags that it knows. -/
theorem mergedFlags_eq (flags : Flags) : mergedFlags flags = flags &&& DataField.flags := by
  have hstate : (if flags.test EConnectionUpdateFlags.protoState then
      EConnectionUpdateFlags.protoState else 0) = flags &&& EConnectionUpdateFlags.protoState := by
    have h := BitVec.and_twoPow flags 1
    rw [show BitVec.twoPow 32 1 = EConnectionUpdateFlags.protoState from rfl] at h
    rw [Flags.test, h]
    cases flags.getLsbD 1 <;> rfl
  unfold mergedFlags DataField.flags DataField.all
  simp only [TrafficField.and_flag, hstate, TrafficField.all, List.map_cons, List.map_nil,
    List.foldl_cons, List.foldl_nil, DataField.flag, BitVec.and_or_distrib_left]
  simp

/-! ## Items of a well-formed storage -/

/-- What holds of the server's storage: connections are made of stored addresses and ports, the
cached texts are those of the addresses, and the states are known. -/
structure ConnectionStorage.Wf (inet : InetText) (st : ConnectionStorage) : Prop where
  ends : ∀ c ∈ st.connectionMap, st.HasEnds c
  text : ∀ a ∈ st.addressMap, (st.addressData a).numericString = inet.ntop a
  states : ∀ c d, st.connections c = some d → c.srcPort.type.IsState d.state

/-- What `serialize` writes about a connection can be read: `AddressData` caches the texts of its
addresses, and its state is one of its protocol. -/
structure ConnectionStorage.IsReadable (inet : InetText) (st : ConnectionStorage)
    (c : Connection) : Prop where
  src : (st.addressData c.srcAddr).numericString = inet.ntop c.srcAddr
  dst : (st.addressData c.dstAddr).numericString = inet.ntop c.dstAddr
  state : c.srcPort.type.IsState (st.connectionData c).state

theorem ConnectionStorage.Wf.readable {inet : InetText} {st : ConnectionStorage} {c : Connection}
    (h : st.Wf inet) (hc : c ∈ st.connectionMap) : st.IsReadable inet c where
  src := h.text _ (h.ends c hc).1
  dst := h.text _ (h.ends c hc).2.1
  state := h.states c _ (connections_eq hc)

theorem createFromString_ntop (inet : InetText) (a : Address) :
    ∀ t (h : a.getType = t), createFromString inet (cString (inet.ntop a)) t = .ok ⟨a, h⟩ := by
  rintro _ rfl
  rw [cString_eq (inet.nul_notMem a)]
  cases a with
  | ip4 raw => simp [createFromString, Address.getType, inet.pton4_ntop]
  | ip6 a b c d => simp [createFromString, Address.getType, inet.pton6_ntop]

namespace SerializedItem

section

variable {inet : InetText} (st : ConnectionStorage) (c : Connection) (action : EConnectionAction)
  (flags : Flags)

/-- The source address, as it is read back. -/
def srcOf : { a : Address // a.getType = (of st c action flags).type.addrType } :=
  ⟨c.srcAddr, (Connection.getType_addrType c).symm⟩

def dstOf : { a : Address // a.getType = (of st c action flags).type.addrType } :=
  ⟨c.dstAddr, c.addrType_eq.trans (Connection.getType_addrType c).symm⟩

theorem createFromString_srcOf
    (h : (st.addressData c.srcAddr).numericString = inet.ntop c.srcAddr) :
    createFromString inet (of st c action flags).srcAddress
      (of st c action flags).type.addrType = .ok (srcOf st c action flags) := by
  have hread := createFromString_ntop inet c.srcAddr _ (srcOf st c action flags).2
  rwa [← h] at hread

theorem createFromString_dstOf
    (h : (st.addressData c.dstAddr).numericString = inet.ntop c.dstAddr) :
    createFromString inet (of st c action flags).dstAddress
      (of st c action flags).type.addrType = .ok (dstOf st c action flags) := by
  have hread := createFromString_ntop inet c.dstAddr _ (dstOf st c action flags).2
  rwa [← h] at hread

/-- What is read from a stored connection names it. -/
theorem connection_of : (of st c action flags).connection
    (srcOf st c action flags) (dstOf st c action flags) = c := by
  have hport := Connection.getType_portType c
  refine Connection.ext rfl ?_ rfl ?_
  · show (⟨c.getType.portType, c.srcPort.number⟩ : Port) = c.srcPort
    rw [hport]
  · show (⟨c.getType.portType, c.dstPort.number⟩ : Port) = c.dstPort
    rw [hport, ← c.portType_eq]

end

/-- Everything is read back from a CREATE item. -/
theorem of_create_data (st : ConnectionStorage) (c : Connection) (flags : Flags) :
    (of st c .create flags).data = st.connectionData c := by
  refine DataField.agree_ext fun fld => ?_
  cases fld with
  | state =>
    have h : (of st c .create flags).data.state = (st.connectionData c).state := by
      rw [SerializedItem.of_state, if_pos (isIncluded_create _ _)]
    exact h
  | traffic f =>
    show f.get (TrafficField.setAll _ _ _ _) = _
    rw [TrafficField.get_setAll, if_pos ⟨TrafficField.mem_all f, isIncluded_create _ _⟩]

/-- The flagged fields are read back from an UPDATE item. -/
theorem merge_of_update (st : ConnectionStorage) (c : Connection) (flags : Flags)
    (d : ConnectionData) :
    ConnectionData.merge flags (of st c .update flags).data d =
      .merge flags (st.connectionData c) d := by
  refine DataField.merge_congr fun fld h => ?_
  cases fld with
  | state =>
    have hs : (of st c .update flags).data.state = (st.connectionData c).state := by
      rw [SerializedItem.of_state, if_pos (by exact h)]
    exact hs
  | traffic f =>
    show f.get (TrafficField.setAll _ _ _ _) = _
    rw [TrafficField.get_setAll, if_pos ⟨TrafficField.mem_all f, h⟩]

end SerializedItem

/-! ## Callbacks over a storage -/

namespace IConnectionUpdateCallback

variable {σ : Type} {K : IConnectionUpdateCallback σ} {inet : InetText}
variable {storage : σ → ConnectionStorage}

/-- The callback keeps its connections, addresses and ports in a `ConnectionStorage`. -/
structure HoldsIn (K : IConnectionUpdateCallback σ) (inet : InetText)
    (storage : σ → ConnectionStorage) : Prop where
  getAddress : ∀ s a, K.getAddress s a false = (s, (storage s).getAddress a)
  addAddress : ∀ s a, (K.getAddress s a true).2 = some a ∧
    storage (K.getAddress s a true).1 = ((storage s).addAddress inet a).1
  getPort : ∀ s p, K.getPort s p false = (s, (storage s).getPort p)
  addPort : ∀ s p, (K.getPort s p true).2 = some p ∧
    storage (K.getPort s p true).1 = ((storage s).addPort p).1
  find : ∀ s c, K.find s c = (storage s).getConnection c
  add : ∀ s c d, storage (K.add s c d) = ((storage s).addConnection c d).1
  update : ∀ s c flags, storage (K.update s c flags) = storage s
  remove : ∀ s c, storage (K.remove s c) = ((storage s).removeConnection c).1
  clear : ∀ s, storage (K.clear s) = (storage s).clearConnections
  data : ∀ s c, K.data s c = (storage s).connectionData c
  setData : ∀ s c d, storage (K.setData s c d) = (storage s).setConnectionData c d

variable (K) in
/-- The calls that make the addresses and ports of a connection known. -/
def intern (s : σ) (c : Connection) : σ :=
  let s := (K.getAddress s c.srcAddr true).1
  let s := (K.getAddress s c.dstAddr true).1
  let s := (K.getPort s c.srcPort true).1
  (K.getPort s c.dstPort true).1

variable (K) in
/-- The flagged values of a connection are replaced in place, and `update` is called. -/
def merge (s : σ) (c : Connection) (updateFlags : Flags) (new : ConnectionData) : σ :=
  let s := K.setData s c (.merge updateFlags new (K.data s c))
  if mergedFlags updateFlags ≠ 0 then K.update s c (mergedFlags updateFlags) else s

variable (K) in
/-- The callback with the calls of its `update`. -/
def recorded : IConnectionUpdateCallback (σ × List (Connection × Flags)) where
  getAddress s a add := (((K.getAddress s.1 a add).1, s.2), (K.getAddress s.1 a add).2)
  getPort s p add := (((K.getPort s.1 p add).1, s.2), (K.getPort s.1 p add).2)
  find s c := K.find s.1 c
  add s c d := (K.add s.1 c d, s.2)
  update s c flags := (K.update s.1 c flags, s.2 ++ [(c, flags)])
  remove s c := (K.remove s.1 c, s.2)
  clear s := (K.clear s.1, s.2)
  data s c := K.data s.1 c
  setData s c d := (K.setData s.1 c d, s.2)

theorem recorded_add (s : σ × List (Connection × Flags)) (c : Connection) (d : ConnectionData) :
    K.recorded.add s c d = (K.add s.1 c d, s.2) := rfl

theorem recorded_intern (s : σ × List (Connection × Flags)) (c : Connection) :
    K.recorded.intern s c = (K.intern s.1 c, s.2) := rfl

theorem recorded_merge (s : σ × List (Connection × Flags)) (c : Connection) (flags : Flags)
    (new : ConnectionData) : K.recorded.merge s c flags new = (K.merge s.1 c flags new,
      s.2 ++ if flags &&& DataField.flags = 0 then [] else [(c, flags &&& DataField.flags)]) := by
  unfold merge
  dsimp only
  rw [mergedFlags_eq]
  by_cases hf : flags &&& DataField.flags = 0
  · rw [if_neg (not_not.mpr hf), if_neg (not_not.mpr hf), if_pos hf, List.append_nil]
    rfl
  · rw [if_pos hf, if_pos hf, if_neg hf]
    rfl

namespace HoldsIn

variable (hK : K.HoldsIn inet storage)
include hK

theorem recorded : K.recorded.HoldsIn inet fun s => storage s.1 where
  getAddress s a := by simp [IConnectionUpdateCallback.recorded, hK.getAddress]
  addAddress s a := hK.addAddress s.1 a
  getPort s p := by simp [IConnectionUpdateCallback.recorded, hK.getPort]
  addPort s p := hK.addPort s.1 p
  find s c := hK.find s.1 c
  add s c d := hK.add s.1 c d
  update s c flags := hK.update s.1 c flags
  remove s c := hK.remove s.1 c
  clear s := hK.clear s.1
  data s c := hK.data s.1 c
  setData s c d := hK.setData s.1 c d

theorem intern_storage (s : σ) (c : Connection) : storage (K.intern s c) =
    (((((storage s).addAddress inet c.srcAddr).1.addAddress inet c.dstAddr).1.addPort
      c.srcPort).1.addPort c.dstPort).1 := by
  rw [intern, (hK.addPort _ _).2, (hK.addPort _ _).2, (hK.addAddress _ _).2,
    (hK.addAddress _ _).2]

theorem intern_hasEnds (s : σ) (c : Connection) : (storage (K.intern s c)).HasEnds c := by
  rw [hK.intern_storage]
  simp [ConnectionStorage.HasEnds]

theorem hasEnds_intern {s : σ} {x : Connection} (h : (storage s).HasEnds x) (c : Connection) :
    (storage (K.intern s c)).HasEnds x := by
  obtain ⟨h1, h2, h3, h4⟩ := h
  rw [hK.intern_storage]
  simp [ConnectionStorage.HasEnds, h1, h2, h3, h4]

theorem mem_intern (s : σ) (c x : Connection) :
    x ∈ (storage (K.intern s c)).connectionMap ↔ x ∈ (storage s).connectionMap := by
  rw [hK.intern_storage]
  simp

theorem intern_connections (s : σ) (c : Connection) :
    (storage (K.intern s c)).connections = (storage s).connections := by
  rw [hK.intern_storage]
  exact ConnectionStorage.connections_congr (by simp)

/-! ### Items -/

section

variable {item : SerializedItem} {src dst : { a : Address // a.getType = item.type.addrType }}
variable (hsrc : createFromString inet item.srcAddress item.type.addrType = .ok src)
variable (hdst : createFromString inet item.dstAddress item.type.addrType = .ok dst)
include hsrc hdst

/-- A CREATE item makes the ends known, then adds the connection. -/
theorem apply_create (h : item.action = .create) (s : σ) :
    item.apply K inet s = (K.add (K.intern s (item.connection src dst)) (item.connection src dst)
      item.data, .ok true) := by
  obtain ⟨A, hA⟩ : ∃ A : σ → Address → σ, ∀ s a, K.getAddress s a true = (A s a, some a) :=
    ⟨fun s a => (K.getAddress s a true).1, fun s a => Prod.ext rfl (hK.addAddress s a).1⟩
  obtain ⟨P, hP⟩ : ∃ P : σ → Port → σ, ∀ s p, K.getPort s p true = (P s p, some p) :=
    ⟨fun s p => (K.getPort s p true).1, fun s p => Prod.ext rfl (hK.addPort s p).1⟩
  simp only [SerializedItem.apply, hsrc, hdst, h, decide_true, hA, hP, Option.isNone_some,
    Bool.or_self, Bool.false_eq_true, if_false, SerializedItem.applyAction, intern]
  rfl

/-- Other items find a connection whose ends are known, or do nothing. -/
theorem apply_other (h : item.action ≠ .create) (s : σ) :
    item.apply K inet s =
      if (storage s).HasEnds (item.connection src dst) then
        ((item.applyAction K s (item.connection src dst)).1,
          .ok (item.applyAction K s (item.connection src dst)).2)
      else (s, .ok false) := by
  unfold SerializedItem.apply
  rw [hsrc, hdst]
  simp only [h, decide_false, hK.getAddress, hK.getPort, ConnectionStorage.isNone_getAddress,
    ConnectionStorage.isNone_getPort, Bool.or_eq_true, decide_eq_true_eq]
  have hE : (storage s).HasEnds (item.connection src dst) ↔
      ¬((src : Address) ∉ (storage s).addressMap ∨ (dst : Address) ∉ (storage s).addressMap) ∧
      ¬((⟨item.type.portType, item.srcPort⟩ : Port) ∉ (storage s).portMap ∨
        (⟨item.type.portType, item.dstPort⟩ : Port) ∉ (storage s).portMap) := by
    simp only [not_or, not_not, and_assoc]
    rfl
  rw [if_congr hE rfl rfl]
  split_ifs with h1 h2 h3 h4 h5
  · exact absurd h1 h2.1
  · rfl
  · exact absurd h3 h4.2
  · rfl
  · rfl
  · exact absurd ⟨h1, h3⟩ h5

end

/-- An UPDATE item changes the data of the connection and calls `update`, if it is there. -/
theorem applyAction_update {item : SerializedItem} (h : item.action = .update) (s : σ)
    (c : Connection) : item.applyAction K s c =
      if c ∈ (storage s).connectionMap then
        (K.merge s c item.updateFlags item.data, true)
      else (s, false) := by
  unfold SerializedItem.applyAction
  rw [h, hK.find]
  unfold ConnectionStorage.getConnection
  by_cases hc : c ∈ (storage s).connectionMap
  · rw [if_pos hc, if_pos hc]
    rfl
  · rw [if_neg hc, if_neg hc]

theorem merge_storage {s : σ} {c : Connection} (h : c ∈ (storage s).connectionMap)
    (flags : Flags) (new : ConnectionData) :
    (storage (K.merge s c flags new)).connections =
      Function.update (storage s).connections c
        (some (.merge flags new ((storage s).connectionData c))) := by
  have hset : (storage (K.merge s c flags new)) =
      (storage s).setConnectionData c (.merge flags new ((storage s).connectionData c)) := by
    unfold merge
    dsimp only
    split_ifs
    · rw [hK.update, hK.setData, hK.data]
    · rw [hK.setData, hK.data]
  rw [hset, ConnectionStorage.setConnectionData_connections, ConnectionStorage.connections_eq h]
  rfl

/-- A removed connection is gone, and no other. -/
theorem remove_connections (s : σ) (c : Connection) :
    (storage (K.remove s c)).connections = Function.update (storage s).connections c none := by
  rw [hK.remove, ConnectionStorage.removeConnection_connections]

/-! ### What was serialized -/

section

variable {st : ConnectionStorage} {c : Connection} (h : st.IsReadable inet c) {s : σ}
include h

theorem read_create (flags : Flags) :
    deserialize K inet (serialize st c .create flags) s =
      (K.add (K.intern s c) c (st.connectionData c), .ok true) := by
  have hsrc := SerializedItem.createFromString_srcOf st c .create flags h.src
  have hdst := SerializedItem.createFromString_dstOf st c .create flags h.dst
  rw [deserialize, decode_serialize st c .create flags h.state]
  dsimp only
  rw [hK.apply_create hsrc hdst rfl, SerializedItem.connection_of, SerializedItem.of_create_data]

variable (hs : ∀ x ∈ (storage s).connectionMap, (storage s).HasEnds x)

include hs in
theorem read_update (flags : Flags) :
    deserialize K inet (serialize st c .update flags) s =
      if c ∈ (storage s).connectionMap then
        (K.merge s c flags (st.connectionData c), .ok true)
      else (s, .ok false) := by
  have hsrc := SerializedItem.createFromString_srcOf st c .update flags h.src
  have hdst := SerializedItem.createFromString_dstOf st c .update flags h.dst
  have hmerge : K.merge s c flags (SerializedItem.of st c .update flags).data =
      K.merge s c flags (st.connectionData c) := by
    rw [merge, SerializedItem.merge_of_update]
    rfl
  have hne : EConnectionAction.update ≠ .create := by decide
  rw [deserialize, decode_serialize st c .update flags h.state]
  dsimp only
  rw [hK.apply_other hsrc hdst hne, SerializedItem.connection_of,
    hK.applyAction_update rfl]
  by_cases hc : c ∈ (storage s).connectionMap
  · rw [if_pos hc, if_pos (hs c hc), if_pos hc]
    exact congrArg (·, Except.ok true) hmerge
  · rw [if_neg hc, if_neg hc]
    split_ifs <;> rfl

theorem read_remove (flags : Flags) :
    deserialize K inet (serialize st c .remove flags) s =
      if (storage s).HasEnds c then (K.remove s c, .ok true) else (s, .ok false) := by
  have hsrc := SerializedItem.createFromString_srcOf st c .remove flags h.src
  have hdst := SerializedItem.createFromString_dstOf st c .remove flags h.dst
  have hne : EConnectionAction.remove ≠ .create := by decide
  rw [deserialize, decode_serialize st c .remove flags h.state]
  dsimp only
  rw [hK.apply_other hsrc hdst hne, SerializedItem.connection_of]
  rfl

include hs in
/-- **An item does to the connections of a callback what was done on the server.** -/
theorem deserialize_serialize (action : EConnectionAction) (flags : Flags) :
    ∃ b, (deserialize K inet (serialize st c action flags) s).2 = .ok b ∧
      (storage (deserialize K inet (serialize st c action flags) s).1).connections =
        applyChange c (st.connectionData c) flags action (storage s).connections := by
  cases action with
  | create =>
    rw [hK.read_create h]
    refine ⟨true, rfl, ?_⟩
    rw [hK.add, ConnectionStorage.addConnection_connections, hK.intern_connections]
    rfl
  | update =>
    rw [hK.read_update h hs]
    unfold applyChange
    split_ifs with hc
    · refine ⟨true, rfl, ?_⟩
      rw [hK.merge_storage hc, ConnectionStorage.connections_eq hc]
      rfl
    · refine ⟨false, rfl, ?_⟩
      rw [ConnectionStorage.connections_eq_none hc, Option.map_none,
        ← ConnectionStorage.connections_eq_none hc,
        Function.update_eq_self]
  | remove =>
    rw [hK.read_remove h]
    unfold applyChange
    split_ifs with hc
    · exact ⟨true, rfl, hK.remove_connections s c⟩
    · have hnone : (storage s).connections c = none :=
        ConnectionStorage.connections_eq_none fun hmem => hc (hs c hmem)
      refine ⟨false, rfl, ?_⟩
      rw [← hnone, Function.update_eq_self]

end

end HoldsIn

/-! ### Any document -/

/-- What `Deserialize` does: the state that it leaves, and its result. -/
inductive Outcome (K : IConnectionUpdateCallback σ) (inet : InetText)
    (storage : σ → ConnectionStorage) (document : Value) (s : σ) : σ × Except String Bool → Prop
  | invalid (e : String) : decode document = .error e →
      Outcome K inet storage document s (s, .error e)
  | srcAddress (item : SerializedItem) (e : String) : decode document = .ok item →
      createFromString inet item.srcAddress item.type.addrType = .error e →
        Outcome K inet storage document s (s, .error e)
  | dstAddress (item : SerializedItem) (src : { a : Address // a.getType = item.type.addrType })
      (e : String) : decode document = .ok item →
      createFromString inet item.srcAddress item.type.addrType = .ok src →
      createFromString inet item.dstAddress item.type.addrType = .error e →
        Outcome K inet storage document s
          ((K.getAddress s src (item.action = .create)).1, .error e)
  | create (item : SerializedItem) (src dst : { a : Address // a.getType = item.type.addrType }) :
      decode document = .ok item →
      createFromString inet item.srcAddress item.type.addrType = .ok src →
      createFromString inet item.dstAddress item.type.addrType = .ok dst →
      item.action = .create → Outcome K inet storage document s
        (K.add (K.intern s (item.connection src dst)) (item.connection src dst) item.data, .ok true)
  | update (item : SerializedItem) (src dst : { a : Address // a.getType = item.type.addrType }) :
      decode document = .ok item →
      createFromString inet item.srcAddress item.type.addrType = .ok src →
      createFromString inet item.dstAddress item.type.addrType = .ok dst →
      item.action = .update → item.connection src dst ∈ (storage s).connectionMap →
        Outcome K inet storage document s
          (K.merge s (item.connection src dst) item.updateFlags item.data, .ok true)
  | remove (item : SerializedItem) (src dst : { a : Address // a.getType = item.type.addrType }) :
      decode document = .ok item →
      createFromString inet item.srcAddress item.type.addrType = .ok src →
      createFromString inet item.dstAddress item.type.addrType = .ok dst →
      item.action = .remove →
        Outcome K inet storage document s (K.remove s (item.connection src dst), .ok true)
  | unknown (item : SerializedItem) (src dst : { a : Address // a.getType = item.type.addrType }) :
      decode document = .ok item →
      createFromString inet item.srcAddress item.type.addrType = .ok src →
      createFromString inet item.dstAddress item.type.addrType = .ok dst →
      item.action ≠ .create → Outcome K inet storage document s (s, .ok false)

theorem HoldsIn.deserialize_outcome (hK : K.HoldsIn inet storage) (document : Value) (s : σ) :
    K.Outcome inet storage document s (deserialize K inet document s) := by
  unfold deserialize
  cases hdoc : decode document with
  | error e => exact .invalid e hdoc
  | ok item =>
    dsimp only
    cases hsrc : createFromString inet item.srcAddress item.type.addrType with
    | error e =>
      have happly : item.apply K inet s = (s, .error e) := by rw [SerializedItem.apply, hsrc]
      exact happly ▸ .srcAddress item e hdoc hsrc
    | ok src =>
      cases hdst : createFromString inet item.dstAddress item.type.addrType with
      | error e =>
        have happly : item.apply K inet s =
            ((K.getAddress s src (item.action = .create)).1, .error e) := by
          rw [SerializedItem.apply, hsrc, hdst]
        exact happly ▸ .dstAddress item src e hdoc hsrc hdst
      | ok dst =>
        cases haction : item.action with
        | create =>
          rw [hK.apply_create hsrc hdst haction]
          exact .create item src dst hdoc hsrc hdst haction
        | update =>
          have hne : item.action ≠ .create := by rw [haction]; decide
          rw [hK.apply_other hsrc hdst hne, hK.applyAction_update haction]
          split_ifs with hends hc
          · exact .update item src dst hdoc hsrc hdst haction hc
          · exact .unknown item src dst hdoc hsrc hdst hne
          · exact .unknown item src dst hdoc hsrc hdst hne
        | remove =>
          have hne : item.action ≠ .create := by rw [haction]; decide
          have hremove : item.applyAction K s (item.connection src dst) =
              (K.remove s (item.connection src dst), true) := by
            rw [SerializedItem.applyAction, haction]
          rw [hK.apply_other hsrc hdst hne, hremove]
          split_ifs
          · exact .remove item src dst hdoc hsrc hdst haction
          · exact .unknown item src dst hdoc hsrc hdst hne

end IConnectionUpdateCallback

end Conntop
