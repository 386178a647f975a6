import Conntop.ListRows
import Conntop.ListWindow

/-!
# The storage after a call on the list

Of the storage a call changes little: it adds an entry, or writes what was resolved.

* `storageAfter` is the storage after a call.
* `HoldsAll`: something holds of the data of every address and of every port.

Main results: `step_storage`, and `step_holdsAll`, what holds of new data and of what is resolved
holds of all data after a call.
-/

namespace Conntop

namespace ConnectionStorage

variable {A : Address → AddressData → Prop} {P : Port → PortData → Prop} {st : ConnectionStorage}

/-- It holds of the data of every address and port. -/
structure HoldsAll (A : Address → AddressData → Prop) (P : Port → PortData → Prop)
    (st : ConnectionStorage) : Prop where
  address : ∀ a ∈ st.addressMap, A a (st.addressData a)
  port : ∀ p ∈ st.portMap, P p (st.portData p)

namespace HoldsAll

variable (h : HoldsAll A P st)
include h

theorem addAddress {inet : InetText} {a : Address} (ha : A a { numericString := inet.ntop a }) :
    HoldsAll A P (st.addAddress inet a).1 := by
  refine ⟨fun b hb => ?_, fun p hp => ?_⟩
  · by_cases hmem : b ∈ st.addressMap
    · rw [addressData_addAddress inet a hmem]
      exact h.address b hmem
    · have hba := ((mem_addAddress inet a b).mp hb).resolve_right hmem
      subst hba
      unfold ConnectionStorage.addAddress addressData
      rw [if_neg hmem]
      dsimp only
      rw [AList.lookup_insert]
      exact ha
  · rw [addAddress_portMap] at hp
    unfold portData
    rw [addAddress_portMap]
    exact h.port p hp

theorem addPort {p : Port} (hp : P p {}) : HoldsAll A P (st.addPort p).1 := by
  refine ⟨fun a ha => ?_, fun q hq => ?_⟩
  · rw [addPort_addressMap] at ha
    unfold addressData
    rw [addPort_addressMap]
    exact h.address a ha
  · by_cases hmem : q ∈ st.portMap
    · rw [portData_addPort p hmem]
      exact h.port q hmem
    · have hqp := ((mem_addPort p q).mp hq).resolve_right hmem
      subst hqp
      unfold ConnectionStorage.addPort portData
      rw [if_neg hmem]
      dsimp only
      rw [AList.lookup_insert]
      exact hp

theorem setAddressData {a : Address} {d : AddressData}
    (ha : A a (st.addressData a) → A a d) : HoldsAll A P (st.setAddressData a d) := by
  refine ⟨fun b hb => ?_, h.port⟩
  rw [mem_setAddressData] at hb
  rw [addressData_setAddressData]
  split_ifs with heq
  · obtain ⟨rfl, hmem⟩ := heq
    exact ha (h.address b hmem)
  · exact h.address b hb

theorem setPortData {p : Port} {d : PortData} (hp : P p (st.portData p) → P p d) :
    HoldsAll A P (st.setPortData p d) := by
  refine ⟨h.address, fun q hq => ?_⟩
  rw [mem_setPortData] at hq
  by_cases hqp : q = p
  · subst hqp
    unfold ConnectionStorage.setPortData portData
    dsimp only
    rw [lookup_replace_self hq]
    exact hp (h.port q hq)
  · rw [portData_setPortData_ne _ hqp]
    exact h.port q hq

end HoldsAll

end ConnectionStorage

namespace ConnectionList

variable {l : ConnectionList} {S : StdSort} {inet : InetText} {c : Connection} {op : Op}

/-- The storage after a call, which does not depend on the list. -/
def storageAfter (inet : InetText) (l : ConnectionList) : Op → ConnectionStorage
  | .getAddress a add => if add then (l.storage.addAddress inet a).1 else l.storage
  | .getPort p add => if add then (l.storage.addPort p).1 else l.storage
  | .add c d => if l.storage.HasEnds c then (l.storage.addConnection c d).1 else l.storage
  | .change c d _ => l.storage.setConnectionData c d
  | .remove c => (l.storage.removeConnection c).1
  | .clear => l.storage.clearConnections
  | .resolveAddress a resolved => l.setResolvedAddress a resolved
  | .resolvePort p resolved => l.setResolvedPort p resolved
  | .rehash m => (l.rehash m).storage
  | _ => l.storage

/-- The list is filled from the storage, and only reads it. -/
theorem handleRemovedConnection_storage (l : ConnectionList) (c : Connection) :
    (l.handleRemovedConnection c).storage = l.storage := by
  obtain ⟨d, flags, hremove, -⟩ := removeDetail_eq l c
  obtain ⟨pos, -, hclamp⟩ := clampCursor_relist ((l.removeDetail c).eraseItem c).fill
  have hfill := (fill_redraws ((l.removeDetail c).eraseItem c)).storage
  have herase : ((l.removeDetail c).eraseItem c).storage = l.storage := by
    rw [hremove]
    rfl
  exact hclamp.storage.trans (hfill.trans herase)

theorem markDetail_storage (l : ConnectionList) (flags : Connection → Flags) :
    (l.markDetail flags).storage = l.storage := by
  obtain ⟨f, hf⟩ := markDetail_eq l flags
  rw [hf]

theorem setTargetSize_storage (l : ConnectionList) (size : ℕ) :
    (l.setTargetSize size).storage = l.storage := by
  by_cases hsize : l.targetSize = size
  · unfold setTargetSize
    rw [if_pos hsize]
  · obtain ⟨l₁, pos, h₁, -, h₂⟩ := setTargetSize_relist l hsize
    exact h₂.storage.trans h₁.storage

theorem setSortMode_storage (l : ConnectionList) (mode : EConnectionSortMode) (isAscending : Bool) :
    (l.setSortMode mode isAscending).storage = l.storage := by
  rcases setSortMode_relist l mode isAscending with h | h
  · rw [h]
  · exact h.storage

/-- The list never decides what is stored. -/
theorem step_storage (S : StdSort) (inet : InetText) (hi : Inv l) (op : Op) :
    (step S inet l op).storage = storageAfter inet l op := by
  cases op with
  | getAddress a add =>
    change (l.getAddress inet a add).1.storage = if add then _ else _
    unfold getAddress
    split_ifs
    · simp only
      split_ifs <;> rfl
    · rfl
  | getPort p add =>
    change (l.getPort p add).1.storage = if add then _ else _
    unfold getPort
    split_ifs
    · simp only
      split_ifs <;> rfl
    · rfl
  -- a connection that is there already stays as it is
  | add c d =>
    change (if l.storage.HasEnds c then l.add c d else l).storage = if _ then _ else _
    split_ifs
    · rw [add_eq]
      split_ifs with hc
      · rw [ConnectionStorage.addConnection, if_pos (mem_stored.mp hc)]
      · exact (handleNewConnection_redraws _ c).storage
    · rfl
  -- the data is written in place, and `update` only moves and marks rows
  | change c d flags =>
    change (if c ∈ l.storage.connectionMap then l.change S c d flags else l).storage =
      l.storage.setConnectionData c d
    split_ifs with hc
    · have hupdate := (update_redraws (l := { l with storage := l.storage.setConnectionData c d })
        S c flags).storage
      obtain ⟨f, hf⟩ := setDetailFlags_eq { l with storage := l.storage.setConnectionData c d } c
        flags
      rw [hf] at hupdate
      exact hupdate
    · rw [ConnectionStorage.setConnectionData, replace_of_notMem hc]
  | remove c =>
    change (l.remove c).storage = (l.storage.removeConnection c).1
    rw [remove_eq]
    split_ifs with hc
    · exact handleRemovedConnection_storage _ c
    · rw [ConnectionStorage.removeConnection, if_neg (mem_stored.not.mp hc)]
  | clear => rfl
  -- the rest redraws rows or moves the window, and leaves the storage
  | resolveAddress a resolved =>
    exact (dataUpdated_redraws S _ _ _).storage.trans (markDetail_storage _ _)
  | resolvePort p resolved =>
    exact (dataUpdated_redraws S _ _ _).storage.trans (markDetail_storage _ _)
  | addressDataUpdated a =>
    exact (dataUpdated_redraws S _ _ _).storage.trans (markDetail_storage l _)
  | portDataUpdated p =>
    exact (dataUpdated_redraws S _ _ _).storage.trans (markDetail_storage l _)
  | getNextUpdate => exact (getNextUpdate_relist l).storage
  | invalidateAllVisible => rfl
  | invalidateCursor => exact (invalidateCursor_redraws l).storage
  | moveCursor amount => exact (moveCursor_storage hi.cursor_le amount).1
  | doScroll amount => exact (doScroll_storage l amount).1
  | initConnectionDetail => rfl
  | resetConnectionDetailRefresh => rfl
  | setTargetSize size => exact setTargetSize_storage l size
  | setSortMode mode isAscending => exact setSortMode_storage l mode isAscending
  | rehash m => rfl

/-! ## What holds of all data -/

variable {A : Address → AddressData → Prop} {P : Port → PortData → Prop}

/-- What is resolved keeps it. -/
def OpKeeps (A : Address → AddressData → Prop) (P : Port → PortData → Prop) : Op → Prop
  | .resolveAddress a resolved => ∀ data, A a data → A a (data.setResolved resolved)
  | .resolvePort p resolved => ∀ data, P p data → P p (data.setResolved resolved)
  | _ => True

/-- What holds of new entries, and is kept by what a call brings, holds of all entries. -/
theorem step_holdsAll (S : StdSort) (hi : Inv l)
    (hA : ∀ a, A a { numericString := inet.ntop a }) (hP : ∀ p, P p {}) (hop : OpKeeps A P op)
    (h : l.storage.HoldsAll A P) : (step S inet l op).storage.HoldsAll A P := by
  rw [step_storage S inet hi]
  cases op with
  | getAddress a add =>
    change ConnectionStorage.HoldsAll A P (if add then _ else _)
    split_ifs
    · exact h.addAddress (hA a)
    · exact h
  | getPort p add =>
    change ConnectionStorage.HoldsAll A P (if add then _ else _)
    split_ifs
    · exact h.addPort (hP p)
    · exact h
  | add c d =>
    change ConnectionStorage.HoldsAll A P (if l.storage.HasEnds c then _ else _)
    unfold ConnectionStorage.addConnection
    split_ifs <;> exact ⟨h.address, h.port⟩
  | change c d flags => exact ⟨h.address, h.port⟩
  | remove c =>
    change (l.storage.removeConnection c).1.HoldsAll A P
    unfold ConnectionStorage.removeConnection
    split_ifs <;> exact ⟨h.address, h.port⟩
  | clear => exact ⟨h.address, h.port⟩
  | resolveAddress a resolved => exact h.setAddressData (hop _)
  | resolvePort p resolved => exact h.setPortData (hop _)
  | rehash m =>
    change (l.rehash m).storage.HoldsAll A P
    unfold rehash
    split_ifs <;> exact ⟨h.address, h.port⟩
  | _ => exact h

end ConnectionList

/-! ## Printable texts -/

/-- The texts of an answer take one cell for each byte. -/
structure ResolvedAddress.IsPrintable (resolved : ResolvedAddress) : Prop where
  hostname : IsText (utf8 resolved.hostname)
  orgName : IsText (utf8 resolved.asn.orgName)

def ResolvedPort.IsPrintable (resolved : ResolvedPort) : Prop := IsText (utf8 resolved.service)

/-- What a call brings into the storage. -/
def ConnectionList.Op.IsPrintable : Op → Prop
  | .resolveAddress _ resolved => resolved.IsPrintable
  | .resolvePort _ resolved => resolved.IsPrintable
  | _ => True

theorem AddressData.IsPrintable.setResolved {data : AddressData} (h : data.IsPrintable)
    {resolved : ResolvedAddress} (hresolved : resolved.IsPrintable) :
    (data.setResolved resolved).IsPrintable :=
  ⟨h.numericString, hresolved.hostname, hresolved.orgName⟩

theorem ConnectionStorage.HoldsAll.isPrintable {st : ConnectionStorage}
    (h : st.HoldsAll (fun _ data => data.IsPrintable) fun _ data => data.IsPrintable) :
    st.IsPrintable := by
  refine ⟨fun a => ?_, fun p => ?_⟩
  · by_cases ha : a ∈ st.addressMap
    · exact h.address a ha
    · unfold addressData
      rw [AList.lookup_eq_none.mpr ha]
      exact ⟨isText_nil, isText_nil, isText_nil⟩
  · by_cases hp : p ∈ st.portMap
    · exact h.port p hp
    · unfold portData
      rw [AList.lookup_eq_none.mpr hp]
      exact isText_nil

/-- An empty storage has no texts. -/
theorem isPrintable_init : ConnectionStorage.IsPrintable (ConnectionList.storage {}) :=
  ConnectionStorage.HoldsAll.isPrintable
    ⟨fun a ha => absurd ha (AList.notMem_empty a), fun p hp => absurd hp (AList.notMem_empty p)⟩

/-- **The texts stay printable.** -/
theorem ConnectionList.step_isPrintable (S : StdSort) {inet : InetText}
    (hinet : ∀ a, IsText (utf8 (inet.ntop a))) {l : ConnectionList} (hi : Inv l) {op : Op}
    (hop : op.IsPrintable) (h : l.storage.IsPrintable) :
    (step S inet l op).storage.IsPrintable := by
  refine (step_holdsAll S hi (fun a => ⟨hinet a, isText_nil, isText_nil⟩) (fun _ => isText_nil) ?_
    ⟨fun a _ => h.address a, fun p _ => h.port p⟩).isPrintable
  cases op with
  | resolveAddress a resolved => exact fun data hdata => hdata.setResolved hop
  | resolvePort p resolved => exact fun _ _ => hop
  | _ => trivial

end Conntop
