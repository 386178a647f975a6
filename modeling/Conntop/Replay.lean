import Conntop.Server

/-!
# What a DATA message carries

`Replays`: the items of a DATA message take every `ConnectionList` from some connections to some
others, and none of them is refused.

Main results: `replays_serializeAll`, the items of a full message take an empty list to the
connections of the server, and `replays_updates`, those of an update take a list that followed the
server up to the last tick through this one.
-/

namespace Conntop

/-- No connections. -/
def ConnectionMap.empty : ConnectionMap := fun _ => none

namespace ConnectionList

variable {S : StdSort} {inet : InetText} {m m' m'' : ConnectionMap} {items : List Value}

def Replays (S : StdSort) (inet : InetText) (m m' : ConnectionMap) (items : List Value) : Prop :=
  ∀ l : ConnectionList, l.Inv → l.storage.connections = m →
    (deserializeItems S inet items l).2 = .ok () ∧ (deserializeItems S inet items l).1.Inv ∧
      (deserializeItems S inet items l).1.storage.connections = m'

theorem Replays.nil (m : ConnectionMap) : Replays S inet m m [] := fun _ hl hm => ⟨rfl, hl, hm⟩

/-- One more item in front. -/
theorem Replays.cons {st : ConnectionStorage} {c : Connection} (hst : st.Wf inet)
    (hc : c ∈ st.connectionMap) {action : EConnectionAction} {flags : Flags}
    (hm : applyChange c (st.connectionData c) flags action m = m')
    (h : Replays S inet m' m'' items) :
    Replays S inet m m'' (serialize st c action flags :: items) := by
  intro l hl hlm
  obtain ⟨b, hb, hmap⟩ := deserialize_serialize (S := S) hst hc hl action flags
  rw [deserializeItems_cons hb]
  rw [hlm, hm] at hmap
  exact h _ (deserialize_inv _ hl) hmap

theorem clear_connections (l : ConnectionList) :
    l.clear.storage.connections = ConnectionMap.empty :=
  funext fun c => AList.lookup_empty c

/-- Connections that are not stored yet, created one after the other. -/
theorem replays_create {st : ConnectionStorage} (hst : st.Wf inet) (flags : Flags)
    {cs : List Connection} (hcs : ∀ c ∈ cs, c ∈ st.connectionMap) (hnodup : cs.Nodup)
    (hm : ∀ c, m c = if c ∈ cs then none else st.connections c) :
    Replays S inet m st.connections (cs.map fun c => serialize st c .create flags) := by
  induction cs generalizing m with
  | nil =>
    obtain rfl : m = st.connections := funext fun c => by simpa using hm c
    exact .nil _
  | cons c cs ih =>
    have hc := hcs c List.mem_cons_self
    obtain ⟨hnot, hnodup⟩ := List.nodup_cons.mp hnodup
    refine .cons hst hc rfl (ih (fun x hx => hcs x (List.mem_cons_of_mem c hx)) hnodup fun x => ?_)
    have hx := hm x
    rw [applyChange]
    by_cases hxc : x = c
    · subst hxc
      rw [if_pos List.mem_cons_self] at hx
      rw [Function.update_self, hx, Option.getD_none, if_neg hnot]
      exact (ConnectionStorage.connections_eq hc).symm
    · rw [Function.update_of_ne hxc, hx]
      simp [hxc]

/-- **A full message** takes an empty list to the connections of the server. -/
theorem replays_serializeAll {st : ConnectionStorage} (hst : st.Wf inet) :
    Replays S inet ConnectionMap.empty st.connections
      (st.connectionMap.keys.map fun c => serialize st c .create) := by
  refine replays_create hst (-1) (fun c hc => AList.mem_keys.mpr hc) st.connectionMap.keys_nodup
    fun c => ?_
  split_ifs with hc
  · rfl
  · exact (ConnectionStorage.connections_eq_none fun hmem => hc (AList.mem_keys.mp hmem)).symm

end ConnectionList

namespace ConnectionUpdateSerializer

variable {S : StdSort} {inet : InetText} {u : ConnectionUpdateSerializer} {calls : List Call}

@[simp] theorem addItem_isSerializationEnabled (u : ConnectionUpdateSerializer) (c : Connection)
    (action : EConnectionAction) (flags : Flags) :
    (u.addItem c action flags).isSerializationEnabled = u.isSerializationEnabled := by
  rw [addItem]
  split_ifs <;> rfl

/-- Only `clear` changes whether changes are logged. -/
theorem call_isSerializationEnabled (u : ConnectionUpdateSerializer) (x : Call) :
    (call inet u x).isSerializationEnabled = (u.isSerializationEnabled && decide (x ≠ .clear)) := by
  cases x with
  | getAddress a add => cases add <;> simp [call, getAddress]
  | getPort p add => cases add <;> simp [call, getPort]
  | find c => simp [call]
  | add c d =>
    rw [call_add]
    split_ifs <;> simp
  | set c d =>
    rw [call_set]
    split_ifs <;> simp
  | update c flags =>
    rw [call_update]
    split_ifs <;> simp
  | remove c =>
    rw [call_remove]
    split_ifs <;> simp
  | clear => simp [call, clear, setSerializationEnabled]

/-- Changes are logged at the end of a tick when they were at its start, and there was no refill. -/
theorem run_isSerializationEnabled (u : ConnectionUpdateSerializer) (calls : List Call) :
    (run inet u calls).isSerializationEnabled =
      (u.isSerializationEnabled && decide (.clear ∉ calls)) := by
  induction calls generalizing u with
  | nil => simp [run]
  | cons x calls ih =>
    have htail := ih (call inet u x)
    rw [call_isSerializationEnabled] at htail
    refine htail.trans ?_
    rw [Bool.and_assoc, ← Bool.decide_and]
    exact congrArg _ (decide_eq_decide.mpr (by simp [eq_comm]))

theorem addItem_of_disabled (h : u.isSerializationEnabled = false) (c : Connection)
    (action : EConnectionAction) (flags : Flags) : u.addItem c action flags = u :=
  if_neg (by rw [h]; exact Bool.false_ne_true)

/-- What is not logged leaves no items. -/
theorem call_items (h : u.isSerializationEnabled = false → u.items = []) (x : Call)
    (hen : (call inet u x).isSerializationEnabled = false) : (call inet u x).items = [] := by
  by_cases hx : x = .clear
  · subst hx
    cases hu : u.isSerializationEnabled with
    | true => simp [call, clear, setSerializationEnabled, hu]
    | false => simp [call, clear, setSerializationEnabled, hu, h hu]
  · have hu : u.isSerializationEnabled = false := by
      simpa [call_isSerializationEnabled, hx] using hen
    rw [← h hu]
    cases x with
    | getAddress a add => cases add <;> rfl
    | getPort p add => cases add <;> rfl
    | find c => rfl
    | add c d =>
      rw [call_add, addItem_of_disabled (by exact hu)]
      split_ifs <;> rfl
    | set c d =>
      rw [call_set]
      split_ifs <;> rfl
    | update c flags => rw [call_update, addItem_of_disabled hu, ite_self]
    | remove c =>
      rw [call_remove, addItem_of_disabled hu]
      split_ifs <;> rfl
    | clear => exact absurd rfl hx

theorem run_items (h : u.isSerializationEnabled = false → u.items = []) (calls : List Call)
    (hen : (run inet u calls).isSerializationEnabled = false) : (run inet u calls).items = [] := by
  induction calls generalizing u with
  | nil => exact h hen
  | cons x calls ih => exact ih (call_items h x) hen

/-- **An update** takes a list that followed the server up to the last tick through this one. -/
theorem replays_updates (hwf : u.storage.Wf inet) (hitems : u.items = [])
    (hen : (run inet u calls).isSerializationEnabled = true) (hs : ∀ x ∈ calls, x.HasState)
    (hcovered : Covered inet u calls) :
    ConnectionList.Replays S inet u.storage.connections (run inet u calls).storage.connections
      (run inet u calls).items := by
  rw [run_isSerializationEnabled, Bool.and_eq_true, decide_eq_true_eq] at hen
  intro l hl hm
  obtain ⟨-, items, hrun, hok, hl', hf⟩ :=
    run_follows (S := S) hwf hen.1 hl (.of_eq hm calls) ⟨hen.2, hs, hcovered⟩
  rw [hitems, List.nil_append] at hrun
  rw [hrun]
  exact ⟨hok, hl', hf.eq⟩

end ConnectionUpdateSerializer

end Conntop
