import Conntop.Inet
import Conntop.ListDeserialize
import Conntop.Protocol

/-!
# The update log

`ConnectionUpdateSerializer` of `Server.hpp`: every change that a collector makes to the server's
`ConnectionStorage` during a tick is also serialized, and `build` makes a DATA message of the
items. `Call` are the calls on it.

* A `Connection` object is made of references to the data of its addresses and ports, so `add`
  needs them to be stored.
* `set` is an in-place change through the pointer that `find` returns. `Covered` says that an
  `update` follows it whose flags cover what changed.

Main result: `replay_updateLog`, the items of the DATA message take a `ConnectionList` from the
connections before the tick to those after it. `call_follows` is the step: a list that follows the
server, except for what later calls will log, follows it through one more call and its items.
-/

namespace Conntop

/-- `ConnectionUpdateSerializer`. `items` are those of `m_serializer`. -/
structure ConnectionUpdateSerializer where
  storage : ConnectionStorage := {}
  items : List Value := []
  isSerializationEnabled : Bool := true

namespace ConnectionUpdateSerializer

variable (u : ConnectionUpdateSerializer)

def setSerializationEnabled (enable : Bool) : ConnectionUpdateSerializer :=
  { u with
    items := if u.isSerializationEnabled && !enable then [] else u.items
    isSerializationEnabled := enable }

/-- The DATA message of the items, which are taken. -/
def build : SerializedServerMessage × ConnectionUpdateSerializer :=
  (ClientServerProtocol.createServerMsgData EDataFlags.connection true (.array u.items),
    { u with items := [] })

/-- `m_serializer.add`, when serialization is enabled. -/
def addItem (c : Connection) (action : EConnectionAction) (updateFlags : Flags := -1) :
    ConnectionUpdateSerializer :=
  if u.isSerializationEnabled then
    { u with items := u.items ++ [serialize u.storage c action updateFlags] }
  else u

/-! ## `IConnectionUpdateCallback` -/

def getAddress (inet : InetText) (a : Address) (add : Bool) :
    ConnectionUpdateSerializer × Option Address :=
  if add then ({ u with storage := (u.storage.addAddress inet a).1 }, some a)
  else (u, u.storage.getAddress a)

def getPort (p : Port) (add : Bool) : ConnectionUpdateSerializer × Option Port :=
  if add then ({ u with storage := (u.storage.addPort p).1 }, some p)
  else (u, u.storage.getPort p)

def find (c : Connection) : Option Connection := u.storage.getConnection c

/-- Both functions `add`: the one without traffic and state stores default data. -/
def add (c : Connection) (d : ConnectionData := {}) : ConnectionUpdateSerializer :=
  let (storage, isNew) := u.storage.addConnection c d
  let u := { u with storage := storage }
  if isNew then u.addItem c .create else u

def update (c : Connection) (updateFlags : Flags) : ConnectionUpdateSerializer :=
  u.addItem c .update updateFlags

def remove (c : Connection) : ConnectionUpdateSerializer :=
  match u.storage.getConnection c with
  | some p =>
    let u := u.addItem p .remove
    { u with storage := (u.storage.removeConnection c).1 }
  | none => u

def clear : ConnectionUpdateSerializer :=
  { u with storage := u.storage.clearConnections }.setSerializationEnabled false

/-! ## Calls -/

inductive Call
  | getAddress (a : Address) (add : Bool)
  | getPort (p : Port) (add : Bool)
  | find (c : Connection)
  | add (c : Connection) (d : ConnectionData)
  | set (c : Connection) (d : ConnectionData)
  | update (c : Connection) (updateFlags : Flags)
  | remove (c : Connection)
  | clear
  deriving DecidableEq

/-- A call whose arguments cannot exist does nothing. -/
def call (inet : InetText) (u : ConnectionUpdateSerializer) : Call → ConnectionUpdateSerializer
  | .getAddress a add => (u.getAddress inet a add).1
  | .getPort p add => (u.getPort p add).1
  | .find _ => u
  | .add c d => if u.storage.HasEnds c then u.add c d else u
  | .set c d =>
    match u.find c with
    | some p => { u with storage := u.storage.setConnectionData p d }
    | none => u
  | .update c flags =>
    match u.find c with
    | some p => u.update p flags
    | none => u
  | .remove c => u.remove c
  | .clear => u.clear

def run (inet : InetText) (u : ConnectionUpdateSerializer) (calls : List Call) :
    ConnectionUpdateSerializer :=
  calls.foldl (call inet) u

end ConnectionUpdateSerializer

/-! ## Well-formed storages -/

namespace ConnectionStorage

variable {inet : InetText} {st : ConnectionStorage} {c : Connection} {d : ConnectionData}

theorem Wf.empty (inet : InetText) : Wf inet {} where
  ends c h := absurd h (AList.notMem_empty c)
  text a h := absurd h (AList.notMem_empty a)
  states c d h := by simp [connections] at h

theorem Wf.addAddress (h : st.Wf inet) (a : Address) : Wf inet (st.addAddress inet a).1 where
  ends c hc := by
    have hc' := h.ends c (by simpa using hc)
    simpa [HasEnds] using ⟨Or.inr hc'.1, Or.inr hc'.2.1, hc'.2.2⟩
  text b hb := by
    by_cases hmem : b ∈ st.addressMap
    · rw [addressData_addAddress inet a hmem]
      exact h.text b hmem
    · obtain rfl := ((mem_addAddress inet a b).mp hb).resolve_right hmem
      unfold ConnectionStorage.addAddress addressData
      rw [if_neg hmem, AList.lookup_insert]
      rfl
  states c d hc := h.states c d (connections_congr (addAddress_connectionMap inet a) ▸ hc)

theorem Wf.addPort (h : st.Wf inet) (p : Port) : Wf inet (st.addPort p).1 where
  ends c hc := by
    have hc' := h.ends c (by simpa using hc)
    simpa [HasEnds] using ⟨hc'.1, hc'.2.1, Or.inr hc'.2.2.1, Or.inr hc'.2.2.2⟩
  text b hb := by
    have ha : (st.addPort p).1.addressMap = st.addressMap := addPort_addressMap p
    rw [ha] at hb
    unfold addressData
    rw [ha]
    exact h.text b hb
  states c d hc := h.states c d (connections_congr (addPort_connectionMap p) ▸ hc)

/-- A change of the connections alone. -/
theorem Wf.of_connections {st' : ConnectionStorage} (h : st.Wf inet)
    (ha : st'.addressMap = st.addressMap) (hp : st'.portMap = st.portMap)
    (hc : ∀ c d, st'.connections c = some d → st.HasEnds c ∧ c.srcPort.type.IsState d.state) :
    Wf inet st' where
  ends c hmem := by
    unfold HasEnds
    rw [ha, hp]
    exact (hc c _ (connections_eq hmem)).1
  text a := by
    unfold addressData
    rw [ha]
    exact h.text a
  states c d hd := (hc c d hd).2

theorem Wf.connection (h : st.Wf inet) (hd : st.connections c = some d) :
    st.HasEnds c ∧ c.srcPort.type.IsState d.state :=
  ⟨h.ends c (mem_iff.mpr (hd ▸ rfl)), h.states c d hd⟩

theorem Wf.addConnection (h : st.Wf inet) (hc : st.HasEnds c)
    (hd : c.srcPort.type.IsState d.state) : Wf inet (st.addConnection c d).1 := by
  refine h.of_connections ?_ ?_ fun x dx hx => ?_
  · unfold ConnectionStorage.addConnection
    split_ifs <;> rfl
  · unfold ConnectionStorage.addConnection
    split_ifs <;> rfl
  · rw [addConnection_connections] at hx
    by_cases hxc : x = c
    · subst hxc
      rw [Function.update_self, Option.some_inj] at hx
      cases hm : st.connections x with
      | none =>
        rw [hm, Option.getD_none] at hx
        exact ⟨hc, hx ▸ hd⟩
      | some d' =>
        rw [hm, Option.getD_some] at hx
        exact h.connection (hx ▸ hm)
    · rw [Function.update_of_ne hxc] at hx
      exact h.connection hx

theorem Wf.removeConnection (h : st.Wf inet) (c : Connection) :
    Wf inet (st.removeConnection c).1 := by
  refine h.of_connections ?_ ?_ fun x dx hx => ?_
  · unfold ConnectionStorage.removeConnection
    split_ifs <;> rfl
  · unfold ConnectionStorage.removeConnection
    split_ifs <;> rfl
  · rw [removeConnection_connections] at hx
    by_cases hxc : x = c
    · rw [hxc, Function.update_self] at hx
      exact absurd hx (by simp)
    · rw [Function.update_of_ne hxc] at hx
      exact h.connection hx

theorem Wf.setConnectionData (h : st.Wf inet) (hd : c.srcPort.type.IsState d.state) :
    Wf inet (st.setConnectionData c d) := by
  refine h.of_connections rfl rfl fun x dx hx => ?_
  rw [setConnectionData_connections] at hx
  by_cases hxc : x = c
  · subst hxc
    rw [Function.update_self, Option.map_eq_some_iff] at hx
    obtain ⟨d', hm, rfl⟩ := hx
    exact ⟨(h.connection hm).1, hd⟩
  · rw [Function.update_of_ne hxc] at hx
    exact h.connection hx

theorem Wf.clearConnections (h : st.Wf inet) : Wf inet st.clearConnections :=
  h.of_connections rfl rfl fun x dx hx =>
    absurd (hx.symm.trans (AList.lookup_empty x)) (by simp)

end ConnectionStorage

namespace ConnectionUpdateSerializer

variable {inet : InetText} {S : StdSort} {u : ConnectionUpdateSerializer}

@[simp] theorem addItem_storage (u : ConnectionUpdateSerializer) (c : Connection)
    (action : EConnectionAction) (flags : Flags) :
    (u.addItem c action flags).storage = u.storage := by
  unfold addItem
  split_ifs <;> rfl

/-- The states that a collector reports are those of the protocol. -/
def Call.HasState : Call → Prop
  | .add c d | .set c d => c.srcPort.type.IsState d.state
  | _ => True

instance : ∀ x : Call, Decidable x.HasState
  | .add c d | .set c d => inferInstanceAs (Decidable (c.srcPort.type.IsState d.state))
  | .getAddress _ _ | .getPort _ _ | .find _ | .update _ _ | .remove _ | .clear =>
    inferInstanceAs (Decidable True)

/-! What the calls do that change a connection. -/

theorem call_add (u : ConnectionUpdateSerializer) (c : Connection) (d : ConnectionData) :
    call inet u (.add c d) = if u.storage.HasEnds c ∧ c ∉ u.storage.connectionMap then
      { u with storage := (u.storage.addConnection c d).1 }.addItem c .create else u := by
  show (if u.storage.HasEnds c then u.add c d else u) = _
  unfold add ConnectionStorage.addConnection
  by_cases hc : u.storage.HasEnds c <;> by_cases hm : c ∈ u.storage.connectionMap <;> simp [hc, hm]

theorem call_set (u : ConnectionUpdateSerializer) (c : Connection) (d : ConnectionData) :
    call inet u (.set c d) = if c ∈ u.storage.connectionMap then
      { u with storage := u.storage.setConnectionData c d } else u := by
  unfold call find ConnectionStorage.getConnection
  by_cases hm : c ∈ u.storage.connectionMap <;> simp [hm]

theorem call_update (u : ConnectionUpdateSerializer) (c : Connection) (flags : Flags) :
    call inet u (.update c flags) =
      if c ∈ u.storage.connectionMap then u.addItem c .update flags else u := by
  unfold call find ConnectionStorage.getConnection
  by_cases hm : c ∈ u.storage.connectionMap <;> simp [hm, update]

theorem call_remove (u : ConnectionUpdateSerializer) (c : Connection) :
    call inet u (.remove c) = if c ∈ u.storage.connectionMap then
      { u.addItem c .remove with storage := (u.storage.removeConnection c).1 } else u := by
  unfold call remove ConnectionStorage.getConnection
  by_cases hm : c ∈ u.storage.connectionMap <;> simp [hm]

/-- The `IConnectionUpdateCallback` of the server. -/
def callback (inet : InetText) : IConnectionUpdateCallback ConnectionUpdateSerializer where
  getAddress u a add := u.getAddress inet a add
  getPort u p add := u.getPort p add
  find u c := u.find c
  add u c d := u.add c d
  update u c flags := u.update c flags
  remove u c := u.remove c
  clear u := u.clear
  data u c := u.storage.connectionData c
  setData u c d := { u with storage := u.storage.setConnectionData c d }

theorem callback_holdsIn (inet : InetText) :
    (callback inet).HoldsIn inet ConnectionUpdateSerializer.storage where
  getAddress _ _ := rfl
  addAddress _ _ := ⟨rfl, rfl⟩
  getPort _ _ := rfl
  addPort _ _ := ⟨rfl, rfl⟩
  find _ _ := rfl
  add u c d := by
    show (u.add c d).storage = _
    unfold add
    dsimp only
    split_ifs
    · rw [addItem_storage]
    · rfl
  update u c flags := addItem_storage u c .update flags
  remove u c := by
    show (u.remove c).storage = _
    unfold remove ConnectionStorage.getConnection
    by_cases hc : c ∈ u.storage.connectionMap
    · rw [if_pos hc]
      exact congrArg (fun st => (st.removeConnection c).1) (addItem_storage u c .remove _)
    · rw [if_neg hc, ConnectionStorage.removeConnection, if_neg hc]
  clear u := rfl
  data _ _ := rfl
  setData _ _ _ := rfl

theorem call_wf (h : u.storage.Wf inet) (x : Call) (hx : x.HasState) :
    (call inet u x).storage.Wf inet := by
  cases x with
  | getAddress a add =>
    cases add
    · exact h
    · exact h.addAddress a
  | getPort p add =>
    cases add
    · exact h
    · exact h.addPort p
  | find c => exact h
  | add c d =>
    rw [call_add]
    split_ifs with hc
    · rw [addItem_storage]
      exact h.addConnection hc.1 hx
    · exact h
  | set c d =>
    rw [call_set]
    split_ifs with hc
    · exact h.setConnectionData hx
    · exact h
  | update c flags =>
    rw [call_update]
    split_ifs with hc
    · rwa [addItem_storage]
    · exact h
  | remove c =>
    rw [call_remove]
    split_ifs with hc
    · exact h.removeConnection c
    · exact h
  | clear => exact h.clearConnections

/-! ## Replay -/

/-- Whether a call logs a field of a connection's data, or removes it. -/
def Call.covers (c : Connection) (fld : DataField) : Call → Bool
  | .update c' flags => c' == c && flags.test fld.flag
  | .remove c' => c' == c
  | _ => false

/-- A change of the field is logged, or gone, by the end of the calls. -/
def IsCovered (calls : List Call) (c : Connection) (fld : DataField) : Prop :=
  ∃ x ∈ calls, x.covers c fld = true

instance (calls : List Call) (c : Connection) (fld : DataField) :
    Decidable (IsCovered calls c fld) := inferInstanceAs (Decidable (∃ x ∈ calls, _))

/-- An in-place change is followed by an `update` whose flags cover it. -/
def Call.IsCovered (st : ConnectionStorage) (calls : List Call) : Call → Prop
  | .set c d => c ∈ st.connectionMap → ∀ fld : DataField,
    fld.Agree (st.connectionData c) d ∨ ConnectionUpdateSerializer.IsCovered calls c fld
  | _ => True

instance (st : ConnectionStorage) (calls : List Call) : ∀ x : Call, Decidable (x.IsCovered st calls)
  | .set c d => inferInstanceAs (Decidable (c ∈ st.connectionMap → ∀ fld : DataField,
      fld.Agree (st.connectionData c) d ∨ ConnectionUpdateSerializer.IsCovered calls c fld))
  | .getAddress _ _ | .getPort _ _ | .find _ | .add _ _ | .update _ _ | .remove _ | .clear =>
    inferInstanceAs (Decidable True)

/-- Every in-place change is. -/
def Covered (inet : InetText) : ConnectionUpdateSerializer → List Call → Prop
  | _, [] => True
  | u, x :: calls => x.IsCovered u.storage calls ∧ Covered inet (call inet u x) calls

instance (inet : InetText) : ∀ (u : ConnectionUpdateSerializer) (calls : List Call),
    Decidable (Covered inet u calls)
  | _, [] => inferInstanceAs (Decidable True)
  | u, x :: calls =>
    have := instDecidableCovered inet (call inet u x) calls
    inferInstanceAs (Decidable (x.IsCovered u.storage calls ∧ Covered inet (call inet u x) calls))

/-- The data of a connection on a list is that on the server, except for changes that the rest
of the calls will log. -/
def FollowsAt (calls : List Call) (c : Connection) :
    Option ConnectionData → Option ConnectionData → Prop :=
  Option.Rel fun d d' => ∀ fld : DataField, fld.Agree d d' ∨ IsCovered calls c fld

def Follows (m m' : ConnectionMap) (calls : List Call) : Prop :=
  ∀ c, FollowsAt calls c (m c) (m' c)

section

variable {m m' : ConnectionMap} {x : Call} {calls calls' : List Call} {c : Connection}
variable {fld : DataField} {v v' : Option ConnectionData}

theorem FollowsAt.refl (calls : List Call) (c : Connection) (v : Option ConnectionData) :
    FollowsAt calls c v v := by
  cases v with
  | none => exact .none
  | some d => exact .some fun fld => .inl (.refl fld d)

theorem FollowsAt.mono (h : FollowsAt calls c v v')
    (hc : ∀ fld, IsCovered calls c fld → IsCovered calls' c fld) : FollowsAt calls' c v v' := by
  cases h with
  | none => exact .none
  | some hd => exact .some fun fld => (hd fld).imp_right (hc fld)

theorem Follows.of_eq (h : m = m') (calls : List Call) : Follows m m' calls := by
  intro c
  rw [h]
  exact .refl calls c _

theorem Follows.eq (h : Follows m m' []) : m = m' := by
  funext c
  have hc := h c
  generalize m c = a at hc ⊢
  generalize m' c = b at hc ⊢
  cases hc with
  | none => rfl
  | some hd =>
    refine congrArg some (DataField.agree_ext fun fld => (hd fld).resolve_right ?_)
    rintro ⟨x, hx, -⟩
    exact absurd hx List.not_mem_nil

/-- What one call does not cover, the others do. -/
theorem IsCovered.tail (h : IsCovered (x :: calls) c fld) (hx : x.covers c fld = false) :
    IsCovered calls c fld := by
  obtain ⟨y, hy, hcov⟩ := h
  rcases List.mem_cons.mp hy with rfl | hy
  · exact absurd hcov (by simp [hx])
  · exact ⟨y, hy, hcov⟩

theorem Follows.tail (h : Follows m m' (x :: calls)) (hx : ∀ c fld, x.covers c fld = false) :
    Follows m m' calls := fun c => (h c).mono fun fld hcov => hcov.tail (hx c fld)

/-- The maps after a change of one connection. -/
theorem Follows.update (h : Follows m m' (x :: calls))
    (hx : ∀ c' fld, c' ≠ c → x.covers c' fld = false) (hv : FollowsAt calls c v v') :
    Follows (Function.update m c v) (Function.update m' c v') calls := by
  intro y
  by_cases hy : y = c
  · subst hy
    rwa [Function.update_self, Function.update_self]
  · rw [Function.update_of_ne hy, Function.update_of_ne hy]
    exact (h y).mono fun fld hcov => hcov.tail (hx y fld hy)

theorem FollowsAt.none_of (h : FollowsAt calls c v none) : v = none := by
  cases h
  rfl

end

/-- A call about a connection that is not there. -/
theorem Follows.tail_of_notMem {st : ConnectionStorage} {m : ConnectionMap} {x : Call}
    {calls : List Call} {c : Connection} (h : Follows m st.connections (x :: calls))
    (hc : c ∉ st.connectionMap) (hx : ∀ c' fld, c' ≠ c → x.covers c' fld = false) :
    Follows m st.connections calls := by
  rw [← Function.update_eq_self c m, ← Function.update_eq_self c st.connections]
  refine h.update hx ?_
  have hnone := ConnectionStorage.connections_eq_none hc
  have hm := h c
  rw [hnone] at hm
  rw [hnone, hm.none_of]
  exact .none

theorem addItem_eq {u : ConnectionUpdateSerializer} (h : u.isSerializationEnabled = true)
    (c : Connection)
    (action : EConnectionAction) (flags : Flags) : u.addItem c action flags =
      { u with items := u.items ++ [serialize u.storage c action flags] } := if_pos h

/-- What a call leaves behind: items that take the list on to the server's connections. -/
def Logs (S : StdSort) (inet : InetText) (u u' : ConnectionUpdateSerializer) (l : ConnectionList)
    (calls : List Call) : Prop :=
  u'.isSerializationEnabled = true ∧
    ∃ items, u'.items = u.items ++ items ∧
      (ConnectionList.deserializeItems S inet items l).2 = .ok () ∧
      (ConnectionList.deserializeItems S inet items l).1.Inv ∧
      Follows (ConnectionList.deserializeItems S inet items l).1.storage.connections
        u'.storage.connections calls

section

variable {l : ConnectionList} {x : Call} {calls : List Call}

theorem Logs.of_none {u' : ConnectionUpdateSerializer} (hen : u.isSerializationEnabled = true)
    (hl : l.Inv) (hi : u'.items = u.items)
    (he : u'.isSerializationEnabled = u.isSerializationEnabled)
    (hf : Follows l.storage.connections u'.storage.connections calls) :
    Logs S inet u u' l calls :=
  ⟨he.trans hen, [], by rw [hi, List.append_nil], rfl, hl, hf⟩

/-- One item, of a connection that is stored when it is logged. -/
theorem Logs.of_item {u' : ConnectionUpdateSerializer} {st : ConnectionStorage} {c : Connection}
    {action : EConnectionAction} {flags : Flags} (hst : st.Wf inet) (hc : c ∈ st.connectionMap)
    (hl : l.Inv) (he : u'.isSerializationEnabled = true)
    (hi : u'.items = u.items ++ [serialize st c action flags])
    (hf : Follows (applyChange c (st.connectionData c) flags action l.storage.connections)
      u'.storage.connections calls) : Logs S inet u u' l calls := by
  obtain ⟨b, hb, hmap⟩ := ConnectionList.deserialize_serialize (S := S) hst hc hl action flags
  refine ⟨he, _, hi, ?_⟩
  rw [ConnectionList.deserializeItems_cons hb]
  rw [← hmap] at hf
  rw [ConnectionList.deserializeItems]
  exact ⟨rfl, ConnectionList.deserialize_inv _ hl, hf⟩

/-- **One call.** A list that follows the server follows it through a call and its items. -/
theorem call_follows (hwf : u.storage.Wf inet) (hen : u.isSerializationEnabled = true)
    (hl : l.Inv) (hf : Follows l.storage.connections u.storage.connections (x :: calls))
    (hx : x ≠ .clear) (hs : x.HasState) (hset : x.IsCovered u.storage calls) :
    Logs S inet u (call inet u x) l calls := by
  cases x with
  | clear => exact absurd rfl hx
  | find c => exact .of_none hen hl rfl rfl (hf.tail fun _ _ => rfl)
  | getAddress a add =>
    have hm : (call inet u (.getAddress a add)).storage.connections = u.storage.connections := by
      cases add
      · rfl
      · exact ConnectionStorage.connections_congr
          (ConnectionStorage.addAddress_connectionMap inet a)
    refine .of_none hen hl ?_ ?_ (hm ▸ hf.tail fun _ _ => rfl) <;> cases add <;> rfl
  | getPort p add =>
    have hm : (call inet u (.getPort p add)).storage.connections = u.storage.connections := by
      cases add
      · rfl
      · exact ConnectionStorage.connections_congr (ConnectionStorage.addPort_connectionMap p)
    refine .of_none hen hl ?_ ?_ (hm ▸ hf.tail fun _ _ => rfl) <;> cases add <;> rfl
  -- the item holds all data of the connection, which the list does not know yet
  | add c d =>
    have hwf' := call_wf hwf _ hs
    rw [call_add] at hwf' ⊢
    split_ifs at hwf' ⊢ with hc
    · rw [addItem_storage] at hwf'
      rw [addItem_eq (by exact hen)]
      have hmem : c ∈ (u.storage.addConnection c d).1.connectionMap :=
        (ConnectionStorage.mem_addConnection c d c).mpr (.inl rfl)
      have hnone := ConnectionStorage.connections_eq_none hc.2
      have hconn := u.storage.addConnection_connections c d
      rw [hnone, Option.getD_none] at hconn
      have hd : (u.storage.addConnection c d).1.connectionData c = d := by
        rw [← Option.some_inj, ← ConnectionStorage.connections_eq hmem, hconn,
          Function.update_self]
      refine .of_item hwf' hmem hl hen rfl ?_
      have hl0 : l.storage.connections c = none := by
        have hat := hf c
        rw [hnone] at hat
        exact hat.none_of
      show Follows (Function.update _ c (some ((l.storage.connections c).getD _))) _ _
      rw [hl0, Option.getD_none, hd]
      show Follows _ (u.storage.addConnection c d).1.connections _
      rw [hconn]
      exact hf.update (fun _ _ _ => rfl) (.refl _ _ _)
    · exact .of_none hen hl rfl rfl (hf.tail fun _ _ => rfl)
  -- a change has no item: what it changes is covered by an update that comes later
  | set c d =>
    rw [call_set]
    split_ifs with hc
    · refine .of_none hen hl rfl rfl ?_
      show Follows _ (u.storage.setConnectionData c d).connections _
      rw [ConnectionStorage.setConnectionData_connections,
        ← Function.update_eq_self c l.storage.connections]
      refine hf.update (fun _ _ _ => rfl) ?_
      have hcur := ConnectionStorage.connections_eq hc
      have hat := hf c
      rw [hcur] at hat ⊢
      cases hlc : l.storage.connections c with
      | none => rw [hlc] at hat; cases hat
      | some d₀ =>
        rw [hlc] at hat
        cases hat with
        | some hd =>
          refine .some fun fld => ?_
          rcases hset hc fld with hagree | hcov
          · exact (hd fld).imp (·.trans hagree) fun hcov => hcov.tail rfl
          · exact .inr hcov
    · exact .of_none hen hl rfl rfl (hf.tail fun _ _ => rfl)
  -- the item brings the fields of the flags, and the other fields are covered as before
  | update c flags =>
    have hother : ∀ c' fld, c' ≠ c → (Call.update c flags).covers c' fld = false := by
      intro c' fld hne
      simp [Call.covers, hne.symm]
    rw [call_update]
    split_ifs with hc
    · rw [addItem_eq hen]
      refine .of_item hwf hc hl hen rfl ?_
      show Follows (Function.update _ c ((l.storage.connections c).map _)) u.storage.connections _
      rw [← Function.update_eq_self c u.storage.connections]
      refine hf.update hother ?_
      have hcur := ConnectionStorage.connections_eq hc
      have hat := hf c
      rw [hcur] at hat ⊢
      cases hlc : l.storage.connections c with
      | none => rw [hlc] at hat; cases hat
      | some d₀ =>
        rw [hlc] at hat
        cases hat with
        | some hd =>
          refine .some fun fld => ?_
          have hmerge := DataField.agree_merge fld flags (u.storage.connectionData c) d₀
          by_cases ht : flags.test fld.flag = true
          · rw [if_pos ht] at hmerge
            exact .inl hmerge
          · rw [if_neg ht] at hmerge
            exact (hd fld).imp hmerge.trans fun hcov => hcov.tail (by simp [Call.covers, ht])
    · exact .of_none hen hl rfl rfl (hf.tail_of_notMem hc hother)
  -- the list removes it too
  | remove c =>
    have hother : ∀ c' fld, c' ≠ c → (Call.remove c).covers c' fld = false := by
      intro c' fld hne
      simp [Call.covers, hne.symm]
    rw [call_remove]
    split_ifs with hc
    · rw [addItem_eq hen]
      refine .of_item hwf hc hl hen rfl ?_
      show Follows (Function.update _ c none) (u.storage.removeConnection c).1.connections _
      rw [ConnectionStorage.removeConnection_connections]
      exact hf.update hother .none
    · exact .of_none hen hl rfl rfl (hf.tail_of_notMem hc hother)

/-- What the collectors keep to during a tick: no refill, known states, and an `update` for
every in-place change. -/
structure IsTick (inet : InetText) (u : ConnectionUpdateSerializer) (calls : List Call) : Prop where
  noClear : .clear ∉ calls
  states : ∀ x ∈ calls, x.HasState
  covered : Covered inet u calls

/-- **All calls of a tick.** -/
theorem run_follows (hwf : u.storage.Wf inet) (hen : u.isSerializationEnabled = true)
    (hl : l.Inv) (hf : Follows l.storage.connections u.storage.connections calls)
    (ht : IsTick inet u calls) : Logs S inet u (run inet u calls) l [] := by
  induction calls generalizing u l with
  | nil => exact .of_none hen hl rfl rfl hf
  | cons x calls ih =>
    have hstate := ht.states x List.mem_cons_self
    obtain ⟨hen', items, hitems, hok, hl', hf'⟩ := call_follows (S := S) hwf hen hl hf
      (fun h => ht.noClear (h ▸ List.mem_cons_self)) hstate ht.covered.1
    obtain ⟨hen'', items', hitems', hok', hl'', hf''⟩ := ih (call_wf hwf x hstate) hen' hl' hf'
      ⟨fun h => ht.noClear (List.mem_cons_of_mem x h),
        fun y hy => ht.states y (List.mem_cons_of_mem x hy), ht.covered.2⟩
    have happend := ConnectionList.deserializeItems_append hok items'
    refine ⟨hen'', items ++ items', ?_, ?_⟩
    · rw [← List.append_assoc, ← hitems]
      exact hitems'
    · rw [happend]
      exact ⟨hok', hl'', hf''⟩

/-- The items of a DATA message. -/
def messageItems (msg : SerializedServerMessage) : Option (List Value) := do
  let document ← msg.document
  let data ← document.findMember "data"
  data.getArray

theorem messageItems_build (u : ConnectionUpdateSerializer) :
    messageItems u.build.1 = some u.items := by
  simp [messageItems, build, ClientServerProtocol.createServerMsgData,
    ClientServerProtocol.messageDocument, Value.findMember_object, Value.getArray]

end

/-- Every storage that collectors build up is well-formed. -/
theorem run_wf (h : u.storage.Wf inet) (calls : List Call) (hs : ∀ x ∈ calls, x.HasState) :
    (run inet u calls).storage.Wf inet := by
  induction calls generalizing u with
  | nil => exact h
  | cons x calls ih =>
    exact ih (call_wf h x (hs x List.mem_cons_self)) fun y hy => hs y (List.mem_cons_of_mem x hy)

/-- **The update log replays exactly.** A list that has the connections of the server before a
tick has those of the server after the tick when it got the items of the tick's DATA message. -/
theorem replay_updateLog (S : StdSort) (inet : InetText) (st : ConnectionStorage)
    (hst : st.Wf inet) (calls : List Call)
    (ht : IsTick inet { storage := st } calls) (ops : List ConnectionList.Op)
    (hbefore : (ConnectionList.run S inet {} ops).storage.connections = st.connections) :
    let u := run inet { storage := st } calls
    ∃ items, messageItems u.build.1 = some items ∧
      (ConnectionList.deserializeItems S inet items (ConnectionList.run S inet {} ops)).2 = .ok () ∧
      (ConnectionList.deserializeItems S inet items
        (ConnectionList.run S inet {} ops)).1.storage.connections = u.storage.connections := by
  intro u
  obtain ⟨-, items, hitems, hok, -, hf⟩ := run_follows (S := S) (u := { storage := st }) hst rfl
    (ConnectionList.run_inv S inet ops) (.of_eq hbefore calls) ht
  refine ⟨u.items, messageItems_build u, ?_⟩
  rw [show u.items = items from hitems]
  exact ⟨hok, hf.eq⟩

section

private def logSrc : Address := .ip4 0x0100007F#32

private def logDst : Address := .ip4 0x0200007F#32

private def logPort (n : BitVec 16) : Port := ⟨.tcp, n⟩

private def logConn (n : BitVec 16) : Connection := ⟨logSrc, logPort n, logDst, logPort 80, rfl, rfl⟩

private def logBefore : List Call :=
  [.getAddress logSrc true, .getAddress logDst true, .getPort (logPort 1) true,
    .getPort (logPort 2) true, .getPort (logPort 80) true, .add (logConn 1) { state := 3 }]

private def logOps : List ConnectionList.Op :=
  [.getAddress logSrc true, .getAddress logDst true, .getPort (logPort 1) true,
    .getPort (logPort 80) true, .add (logConn 1) { state := 3 }]

private def logStorage : ConnectionStorage := (run .plain {} logBefore).storage

/-- A connection is changed and removed, another one is created and changed twice. -/
private def logTick : List Call :=
  [.set (logConn 1) { state := 11 }, .update (logConn 1) EConnectionUpdateFlags.protoState,
    .add (logConn 2) {}, .set (logConn 2) { traffic := { rxBytes := 7 } }, .remove (logConn 1),
    .set (logConn 2) { traffic := { rxBytes := 9 }, state := 1 },
    .update (logConn 2) (EConnectionUpdateFlags.rxBytes ||| EConnectionUpdateFlags.protoState)]

theorem logTick_replayed :
    ∃ items, messageItems (run .plain { storage := logStorage } logTick).build.1 = some items ∧
      (ConnectionList.deserializeItems .insertion .plain items
        (ConnectionList.run .insertion .plain {} logOps)).2 = .ok () ∧
      (ConnectionList.deserializeItems .insertion .plain items
        (ConnectionList.run .insertion .plain {} logOps)).1.storage.connections =
        (run .plain { storage := logStorage } logTick).storage.connections := by
  refine replay_updateLog .insertion .plain logStorage
    (run_wf (.empty _) logBefore (by decide)) logTick ⟨by decide, by decide, ?_⟩ logOps ?_
  · decide
  · exact ConnectionStorage.connections_congr (AList.ext (by decide))

end

end ConnectionUpdateSerializer

end Conntop
