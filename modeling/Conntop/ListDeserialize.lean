import Conntop.Callback
import Conntop.Inet
import Conntop.ListStep

/-!
# `Deserialize` on a `ConnectionList`

`callback` is the `IConnectionUpdateCallback` that a `ConnectionList` is.

Main results:

* `deserialize_run`: whatever the document, `Deserialize` makes a sequence of calls on the list,
  so the invariant of the list holds after it.
* `deserialize_serialize`: an item that was serialized from a well-formed storage does on a list
  what was done on the storage.
* `deserialize_undoes_serialize`: the exact effect of each kind of item, and its calls of `update`.
-/

namespace Conntop

namespace ConnectionList

/-- The `IConnectionUpdateCallback` of the client. -/
def callback (S : StdSort) (inet : InetText) : IConnectionUpdateCallback ConnectionList where
  getAddress l a add := l.getAddress inet a add
  getPort l p add := l.getPort p add
  find l c := l.find c
  add l c d := l.add c d
  update l c flags := l.update S c flags
  remove l c := l.remove c
  clear l := l.clear
  data l c := l.storage.connectionData c
  setData l c d := { l with storage := l.storage.setConnectionData c d }

end ConnectionList

namespace ConnectionList

variable {S : StdSort} {inet : InetText} {l : ConnectionList}

/-- The calls that make the addresses and ports of a connection known. -/
def internOps (c : Connection) : List Op :=
  [.getAddress c.srcAddr true, .getAddress c.dstAddr true, .getPort c.srcPort true,
    .getPort c.dstPort true]

/-! ## The storage of a list -/

theorem getAddress_storage (l : ConnectionList) (a : Address) :
    (l.getAddress inet a true).1.storage = (l.storage.addAddress inet a).1 := by
  unfold getAddress
  rw [if_pos rfl]
  dsimp only
  split_ifs <;> rfl

theorem getPort_storage (l : ConnectionList) (p : Port) :
    (l.getPort p true).1.storage = (l.storage.addPort p).1 := by
  unfold getPort
  rw [if_pos rfl]
  dsimp only
  split_ifs <;> rfl

theorem updateListed_storage (l : ConnectionList) (i : ℕ) (item : Item) :
    (l.updateListed S i item).storage = l.storage := by
  have hsort : (l.sort S).storage = l.storage := rfl
  unfold updateListed
  dsimp only
  split_ifs <;> simp [(fill_relist _).storage, hsort]

theorem update_storage (l : ConnectionList) (c : Connection) (flags : Flags) :
    (l.update S c flags).storage = l.storage := by
  have hd := (setDetailFlags_relist l c flags).storage
  unfold update
  dsimp only
  split_ifs
  · exact hd
  · rw [updateListed_storage, (markItem_relist _ _ flags).storage, hd]
  · rw [(insertItem_relist _ _).storage, hd]
  · exact hd

theorem handleNewConnection_storage (l : ConnectionList) (c : Connection) :
    (l.handleNewConnection c).storage = l.storage := (handleNewConnection_relist l c).storage

theorem add_storage (l : ConnectionList) (c : Connection) (d : ConnectionData) :
    (l.add c d).storage = (l.storage.addConnection c d).1 := by
  unfold add
  dsimp only
  split_ifs
  · exact handleNewConnection_storage _ c
  · rfl

theorem remove_storage (l : ConnectionList) (c : Connection) :
    (l.remove c).storage = (l.storage.removeConnection c).1 := by
  rw [remove_eq]
  split_ifs with h
  · obtain ⟨l₁, pos, h₁, -, h₂⟩ :=
      handleRemoved_relist { l with storage := (l.storage.removeConnection c).1 } c
    obtain ⟨_, _, hd, -⟩ :=
      removeDetail_eq { l with storage := (l.storage.removeConnection c).1 } c
    rw [h₂.storage, h₁.storage, hd]
  · rw [ConnectionStorage.removeConnection, if_neg (mem_stored.not.mp h)]

theorem callback_holdsIn (S : StdSort) (inet : InetText) :
    (callback S inet).HoldsIn inet ConnectionList.storage where
  getAddress _ _ := rfl
  addAddress l a := ⟨rfl, getAddress_storage l a⟩
  getPort _ _ := rfl
  addPort l p := ⟨rfl, getPort_storage l p⟩
  find _ _ := rfl
  add l c d := add_storage l c d
  update l c flags := update_storage l c flags
  remove l c := remove_storage l c
  clear _ := rfl
  data _ _ := rfl
  setData _ _ _ := rfl

/-! ## `Deserialize` on a list -/

theorem run_append (l : ConnectionList) (ops ops' : List Op) :
    run S inet l (ops ++ ops') = run S inet (run S inet l ops) ops' := List.foldl_append

theorem intern_eq (l : ConnectionList) (c : Connection) :
    (callback S inet).intern l c = run S inet l (internOps c) := rfl

theorem run_add {l : ConnectionList} {c : Connection} (h : l.storage.HasEnds c)
    (d : ConnectionData) : run S inet l [.add c d] = l.add c d := by
  show step S inet l (.add c d) = _
  rw [step, if_pos h]

theorem run_change {l : ConnectionList} {c : Connection} (h : c ∈ l.storage.connectionMap)
    (d : ConnectionData) (flags : Flags) :
    run S inet l [.change c d flags] = l.change S c d flags := by
  show step S inet l (.change c d flags) = _
  rw [step, if_pos h]

/-- Merging into a connection of the list is a change of it, or nothing. -/
theorem merge_run {l : ConnectionList} {c : Connection} (h : c ∈ l.storage.connectionMap)
    (flags : Flags) (new : ConnectionData) :
    ∃ ops, (callback S inet).merge l c flags new = run S inet l ops := by
  by_cases hm : mergedFlags flags = 0
  · refine ⟨[], ?_⟩
    have hself : l.storage.setConnectionData c
        (.merge flags new (l.storage.connectionData c)) = l.storage := by
      rw [merge_of_mergedFlags hm, l.storage.setConnectionData_self h]
    unfold IConnectionUpdateCallback.merge
    rw [if_neg (not_not.mpr hm)]
    exact congrArg (fun st => { l with storage := st }) hself
  · refine ⟨[.change c (.merge flags new (l.storage.connectionData c)) (mergedFlags flags)], ?_⟩
    rw [run_change h]
    exact if_pos hm

/-- **Deserialize makes calls on the list and nothing else**, whatever the document is. -/
theorem deserialize_run (S : StdSort) (inet : InetText) (document : Value) (l : ConnectionList) :
    ∃ ops, (deserialize (callback S inet) inet document l).1 = run S inet l ops := by
  have hout := (callback_holdsIn S inet).deserialize_outcome document l
  generalize deserialize (callback S inet) inet document l = r at hout ⊢
  cases hout with
  | invalid => exact ⟨[], rfl⟩
  | srcAddress => exact ⟨[], rfl⟩
  | dstAddress item src => exact ⟨[.getAddress src (item.action = .create)], rfl⟩
  | create item src dst =>
    refine ⟨internOps (item.connection src dst) ++ [.add (item.connection src dst) item.data], ?_⟩
    have hends := (callback_holdsIn S inet).intern_hasEnds l (item.connection src dst)
    have hadd : ∀ l c d, (callback S inet).add l c d = ConnectionList.add l c d :=
      fun _ _ _ => rfl
    rw [run_append, ← intern_eq, run_add hends, hadd]
  | update item src dst _ _ _ _ hc => exact merge_run hc _ _
  | remove item src dst => exact ⟨[.remove (item.connection src dst)], rfl⟩
  | unknown => exact ⟨[], rfl⟩

theorem run_inv_of (ops : List Op) (hi : Inv l) : Inv (run S inet l ops) := by
  induction ops generalizing l with
  | nil => exact hi
  | cons op ops ih => exact ih (step_inv S inet hi op)

theorem deserialize_inv (document : Value) (hi : Inv l) :
    Inv (deserialize (callback S inet) inet document l).1 := by
  obtain ⟨ops, h⟩ := deserialize_run S inet document l
  rw [h]
  exact run_inv_of ops hi

/-! ## Items of a well-formed storage -/

variable {st : ConnectionStorage} {c : Connection}

/-- **An item does on a list what was done on the server.** -/
theorem deserialize_serialize (hst : st.Wf inet) (hc : c ∈ st.connectionMap) (hl : Inv l)
    (action : EConnectionAction) (flags : Flags) :
    ∃ b, (deserialize (callback S inet) inet (serialize st c action flags) l).2 = .ok b ∧
      (deserialize (callback S inet) inet (serialize st c action flags) l).1.storage.connections =
        applyChange c (st.connectionData c) flags action l.storage.connections :=
  (callback_holdsIn S inet).deserialize_serialize (hst.readable hc) hl.ends action flags

section

variable (h : st.IsReadable inet c) (hl : ∀ x ∈ l.storage.connectionMap, l.storage.HasEnds x)

theorem add_of_mem (hc : c ∈ l.storage.connectionMap) (d : ConnectionData) : l.add c d = l := by
  simp [add, ConnectionStorage.addConnection, hc]

theorem intern_of_hasEnds (hc : l.storage.HasEnds c) : (callback S inet).intern l c = l := by
  obtain ⟨h1, h2, h3, h4⟩ := hc
  have hA : ∀ a ∈ l.storage.addressMap, ((callback S inet).getAddress l a true).1 = l := by
    intro a ha
    simp [callback, getAddress, ConnectionStorage.addAddress, ha]
  have hP : ∀ p ∈ l.storage.portMap, ((callback S inet).getPort l p true).1 = l := by
    intro p hp
    simp [callback, getPort, ConnectionStorage.addPort, hp]
  unfold IConnectionUpdateCallback.intern
  dsimp only
  rw [hA _ h1, hA _ h2, hP _ h3, hP _ h4]

include h hl

/-- A CREATE item adds a connection that is not there. -/
theorem create_exact (updates : List (Connection × Flags)) (flags : Flags) :
    let read := deserialize (callback S inet).recorded inet (serialize st c .create flags)
      (l, updates)
    read.2 = .ok true ∧ read.1.2 = updates ∧
      (c ∈ l.storage.connectionMap → read.1.1 = l) ∧
      (c ∉ l.storage.connectionMap → read.1.1.storage.connections =
        Function.update l.storage.connections c (some (st.connectionData c))) := by
  intro read
  have hread : read = _ :=
    (callback_holdsIn S inet).recorded.read_create h (s := (l, updates)) flags
  rw [IConnectionUpdateCallback.recorded_intern, IConnectionUpdateCallback.recorded_add] at hread
  rw [hread]
  refine ⟨rfl, rfl, fun hc => ?_, fun hc => ?_⟩
  · have hadd : (callback S inet).add l c (st.connectionData c) = l := add_of_mem hc _
    dsimp only
    rw [intern_of_hasEnds (hl c hc), hadd]
  · dsimp only
    rw [(callback_holdsIn S inet).add, ConnectionStorage.addConnection_connections,
      (callback_holdsIn S inet).intern_connections, ConnectionStorage.connections_eq_none hc]
    rfl

/-- An UPDATE item replaces the flagged values of a connection that is there. -/
theorem update_exact (updates : List (Connection × Flags)) (flags : Flags) :
    let read := deserialize (callback S inet).recorded inet (serialize st c .update flags)
      (l, updates)
    (c ∉ l.storage.connectionMap → read = ((l, updates), .ok false)) ∧
      (c ∈ l.storage.connectionMap → read.2 = .ok true ∧
        read.1.2 = updates ++
          (if flags &&& DataField.flags = 0 then [] else [(c, flags &&& DataField.flags)]) ∧
        ∃ d, read.1.1.storage.connections = Function.update l.storage.connections c (some d) ∧
          ∀ fld : DataField, fld.Agree d (if flags.test fld.flag then st.connectionData c
            else l.storage.connectionData c)) := by
  intro read
  have hread : read = _ :=
    (callback_holdsIn S inet).recorded.read_update h (s := (l, updates)) hl flags
  refine ⟨fun hc => ?_, fun hc => ?_⟩
  · rwa [if_neg hc] at hread
  · rw [if_pos hc, IConnectionUpdateCallback.recorded_merge] at hread
    rw [hread]
    exact ⟨rfl, rfl, _, (callback_holdsIn S inet).merge_storage hc flags _,
      fun fld => fld.agree_merge flags _ _⟩

/-- A REMOVE item removes the connection, if it is there. -/
theorem remove_exact (updates : List (Connection × Flags)) (flags : Flags) :
    let read := deserialize (callback S inet).recorded inet (serialize st c .remove flags)
      (l, updates)
    (∃ b, read.2 = .ok b) ∧ read.1.2 = updates ∧
      read.1.1.storage.connections = Function.update l.storage.connections c none := by
  intro read
  obtain ⟨b, hb, hmap⟩ := (callback_holdsIn S inet).recorded.deserialize_serialize h
    (s := (l, updates)) hl .remove flags
  refine ⟨⟨b, hb⟩, ?_, hmap⟩
  have hread : read = _ :=
    (callback_holdsIn S inet).recorded.read_remove h (s := (l, updates)) flags
  rw [hread]
  split_ifs <;> rfl

end

/-- **Deserialize undoes serialize.** An item of a connection that can be read back, applied to a
list: CREATE adds the connection or finds it there, UPDATE replaces the flagged values of a
connection that is there and calls `update` with their flags, REMOVE removes the connection. -/
theorem deserialize_undoes_serialize (S : StdSort) {inet : InetText} {st : ConnectionStorage}
    {c : Connection} (h : st.IsReadable inet c) (l : ConnectionList)
    (hl : ∀ x ∈ l.storage.connectionMap, l.storage.HasEnds x)
    (updates : List (Connection × Flags)) (flags : Flags) :
    let read action := deserialize (callback S inet).recorded inet (serialize st c action flags)
      (l, updates)
    let known := l.storage.connections
    ((read .create).2 = .ok true ∧ (read .create).1.2 = updates ∧
      (c ∈ l.storage.connectionMap → (read .create).1.1 = l) ∧
      (c ∉ l.storage.connectionMap → (read .create).1.1.storage.connections =
        Function.update known c (some (st.connectionData c)))) ∧
    ((c ∉ l.storage.connectionMap → read .update = ((l, updates), .ok false)) ∧
      (c ∈ l.storage.connectionMap → (read .update).2 = .ok true ∧
        (read .update).1.2 = updates ++
          (if flags &&& DataField.flags = 0 then [] else [(c, flags &&& DataField.flags)]) ∧
        ∃ d, (read .update).1.1.storage.connections = Function.update known c (some d) ∧
          ∀ fld : DataField, fld.Agree d (if flags.test fld.flag then st.connectionData c
            else l.storage.connectionData c))) ∧
    ((∃ b, (read .remove).2 = .ok b) ∧ (read .remove).1.2 = updates ∧
      (read .remove).1.1.storage.connections = Function.update known c none) := by
  intro read known
  refine ⟨?_, ?_, ?_⟩
  · exact create_exact h hl updates flags
  · exact update_exact h hl updates flags
  · exact remove_exact h hl updates flags

section

private def itemConn : Connection :=
  ⟨.ip4 0x0100007F#32, ⟨.tcp, 1⟩, .ip4 0x0200007F#32, ⟨.tcp, 80⟩, rfl, rfl⟩

private def itemList : ConnectionList :=
  run .insertion .plain {} (internOps itemConn ++ [.add itemConn { state := 3 }])

private def itemStorage : ConnectionStorage :=
  (run .insertion .plain itemList [.change itemConn { state := 11, traffic := { rxBytes := 7 } }
    EConnectionUpdateFlags.rxBytes]).storage

/-- An UPDATE item with one known flag. -/
theorem itemConn_updated :
    let read := deserialize (callback .insertion .plain).recorded .plain
      (serialize itemStorage itemConn .update (EConnectionUpdateFlags.rxBytes ||| 1)) (itemList, [])
    read.1.2 = [(itemConn, EConnectionUpdateFlags.rxBytes)] ∧
      ∃ d, read.1.1.storage.connections =
        Function.update itemList.storage.connections itemConn (some d) := by
  have hread : itemStorage.IsReadable .plain itemConn := ⟨by decide, by decide, by decide⟩
  have h := deserialize_undoes_serialize .insertion hread itemList (by decide) []
    (EConnectionUpdateFlags.rxBytes ||| 1)
  obtain ⟨-, hcalls, d, hd, -⟩ := h.2.1.2 (by decide)
  exact ⟨hcalls, d, hd⟩

end

/-- The loop over the items of a message. An exception ends it. -/
def deserializeItems (S : StdSort) (inet : InetText) :
    List Value → ConnectionList → ConnectionList × Except String Unit
  | [], l => (l, .ok ())
  | item :: items, l =>
    match deserialize (callback S inet) inet item l with
    | (l, .ok _) => deserializeItems S inet items l
    | (l, .error e) => (l, .error e)

theorem deserializeItems_cons {item : Value} {b : Bool}
    (h : (deserialize (callback S inet) inet item l).2 = .ok b) (items : List Value) :
    deserializeItems S inet (item :: items) l =
      deserializeItems S inet items (deserialize (callback S inet) inet item l).1 := by
  rw [deserializeItems, ← Prod.mk.eta (p := deserialize (callback S inet) inet item l), h]

theorem deserializeItems_append {items : List Value} {l : ConnectionList}
    (h : (deserializeItems S inet items l).2 = .ok ()) (items' : List Value) :
    deserializeItems S inet (items ++ items') l =
      deserializeItems S inet items' (deserializeItems S inet items l).1 := by
  induction items generalizing l with
  | nil => rfl
  | cons item items ih =>
    cases hr : (deserialize (callback S inet) inet item l).2 with
    | error e =>
      rw [deserializeItems, ← Prod.mk.eta (p := deserialize (callback S inet) inet item l), hr] at h
      cases h
    | ok b =>
      rw [deserializeItems_cons hr] at h ⊢
      rw [List.cons_append, deserializeItems_cons hr]
      exact ih h

end ConnectionList

end Conntop
