import Conntop.Protocol
import Mathlib.Data.List.Count

/-!
# Where the sessions of the server live

`Server::m_clients` is a `std::deque`: its elements live in consecutive slots. What refers to a
session names a slot: the pointers of its reader, its writer and its parser, and the parameter of
the poll callback for its descriptor. A move copies the pointers of a session and registers nothing.

* An element that is appended gets the slot behind the last one. An erased first or last element
  moves no other one. For another element the container moves those before it to the next slot, or
  those behind it to the one before. `movesFront` is its choice, from the index and the size.
* `disconnect` is `quickDisconnect` in any state. The other states of a session do not matter here.
* A descriptor that is in use is not given to a new connection.

Main result: `run_named`, every session is named by its own slot in every run in which `onUpdate`
erases sessions only where no live session is moved (`IsHarmless`).
-/

namespace Conntop

/-- A `ServerSession` in its slot. `reader`, `writer` and `parser` are the slots that
`m_socketReader`, `m_socketWriter` and the callback of the parser name. -/
structure SlotSession where
  state : ESessionState
  socket : Option ℕ
  reader : ℤ
  writer : ℤ
  parser : ℤ
  deriving DecidableEq, Repr

/-- `m_clients`, with the slot of its first element, and the parameters in `m_callbackMap` of the
`PollSystem`. -/
structure ServerSlots where
  front : ℤ := 0
  clients : List SlotSession := []
  callbackMap : ℕ → Option ℤ := fun _ => none

namespace ServerSlots

variable (movesFront : ℕ → ℕ → Bool) (s : ServerSlots)

/-- `emplace_back`, where the session is constructed. A descriptor that is registered stays so. -/
def accept (fd : ℕ) : ServerSlots :=
  if s.clients.any (·.socket = some fd) then s
  else
    let slot := s.front + s.clients.length
    { s with
      clients := s.clients ++
        [{ state := .opening, socket := some fd, reader := slot, writer := slot, parser := slot }]
      callbackMap := if (s.callbackMap fd).isSome then s.callbackMap
        else Function.update s.callbackMap fd (some slot) }

/-- `PollSystem::remove`, for a socket that is connected. -/
def remove (callbackMap : ℕ → Option ℤ) : Option ℕ → ℕ → Option ℤ
  | some fd => Function.update callbackMap fd none
  | none => callbackMap

/-- `quickDisconnect` of a session. -/
def disconnect (i : ℕ) : ServerSlots :=
  match s.clients[i]? with
  | some client =>
    { s with
      clients := s.clients.set i { client with state := .disconnected, socket := none }
      callbackMap := remove s.callbackMap client.socket }
  | none => s

/-- Whether the elements before the erased one are moved, or there are none. -/
def erasesFront (i : ℕ) : Bool :=
  i = 0 || i + 1 ≠ s.clients.length && movesFront i s.clients.length

/-- `erase`. -/
def erase (i : ℕ) : ServerSlots :=
  { s with
    front := if s.erasesFront movesFront i then s.front + 1 else s.front
    clients := s.clients.eraseIdx i }

/-- The first loop of `onUpdate`, with `n` elements from index `i` on. -/
def eraseLoop : ℕ → ℕ → ServerSlots → ServerSlots
  | 0, _, s => s
  | n + 1, i, s =>
    match s.clients[i]? with
    | some client =>
      if client.state = .disconnected then eraseLoop n i (s.erase movesFront i)
      else eraseLoop n (i + 1) s
    | none => s

def onUpdate : ServerSlots := eraseLoop movesFront s.clients.length 0 s

inductive Op
  | accept (fd : ℕ)
  | disconnect (i : ℕ)
  | onUpdate
  deriving DecidableEq, Repr

def step : Op → ServerSlots
  | .accept fd => s.accept fd
  | .disconnect i => s.disconnect i
  | .onUpdate => s.onUpdate movesFront

def run (s : ServerSlots) (ops : List Op) : ServerSlots := ops.foldl (step movesFront) s

/-! ## Names -/

def isLive (client : SlotSession) : Bool := client.state ≠ .disconnected

/-- Everything that refers to the session names the slot. -/
structure IsNamed (callbackMap : ℕ → Option ℤ) (slot : ℤ) (client : SlotSession) : Prop where
  poll : ∀ fd, client.socket = some fd → callbackMap fd = some slot
  reader : client.reader = slot
  writer : client.writer = slot
  parser : client.parser = slot

/-- Every session is named by the slot in which it lives. -/
def Named : Prop :=
  ∀ i client, s.clients[i]? = some client → IsNamed s.callbackMap (s.front + (i : ℕ)) client

/-- The same of the sessions that are not erased by `onUpdate`. -/
def LiveNamed : Prop :=
  ∀ i client, s.clients[i]? = some client → isLive client = true →
    IsNamed s.callbackMap (s.front + (i : ℕ)) client

/-- What the rest of the loop erases moves no live session, after `k` live ones: there is none
before it, or there is none behind it and those before it are not moved. -/
def HarmlessFrom : ℕ → List SlotSession → Prop
  | _, [] => True
  | k, client :: rest =>
    if isLive client then HarmlessFrom (k + 1) rest
    else (k = 0 ∨ rest.countP isLive = 0 ∧
      (rest = [] ∨ movesFront k (k + 1 + rest.length) = false)) ∧ HarmlessFrom k rest

instance : ∀ (k : ℕ) (rest : List SlotSession), Decidable (HarmlessFrom movesFront k rest)
  | _, [] => inferInstanceAs (Decidable True)
  | k, _ :: rest =>
    have := instDecidableHarmlessFrom (k + 1) rest
    have := instDecidableHarmlessFrom k rest
    inferInstanceAs (Decidable (ite _ _ _))

/-- The condition on a step. -/
def Op.IsHarmless : Op → Prop
  | .onUpdate => HarmlessFrom movesFront 0 s.clients
  | _ => True

instance : ∀ op : Op, Decidable (op.IsHarmless movesFront s)
  | .onUpdate => inferInstanceAs (Decidable (HarmlessFrom movesFront 0 s.clients))
  | .accept _ | .disconnect _ => inferInstanceAs (Decidable True)

def RunIsHarmless : ServerSlots → List Op → Prop
  | _, [] => True
  | s, op :: ops => op.IsHarmless movesFront s ∧ RunIsHarmless (s.step movesFront op) ops

instance : ∀ (s : ServerSlots) (ops : List Op), Decidable (s.RunIsHarmless movesFront ops)
  | _, [] => inferInstanceAs (Decidable True)
  | s, op :: ops =>
    have := instDecidableRunIsHarmless (s.step movesFront op) ops
    inferInstanceAs (Decidable (op.IsHarmless movesFront s ∧
      RunIsHarmless movesFront (s.step movesFront op) ops))

/-! ## Erasing -/

variable {movesFront s} {client : SlotSession} {kept rest : List SlotSession}

theorem erase_clients (h : s.clients = kept ++ client :: rest) :
    (s.erase movesFront kept.length).clients = kept ++ rest := by
  show s.clients.eraseIdx kept.length = _
  rw [h, List.eraseIdx_append_of_length_le le_rfl, Nat.sub_self, List.eraseIdx_cons_zero]

/-- A live session that is not moved keeps its name. -/
theorem erase_liveNamed (h : s.clients = kept ++ client :: rest) (hn : s.LiveNamed)
    (hw : kept.length = 0 ∨ rest.countP isLive = 0 ∧
      (rest = [] ∨ movesFront kept.length (kept.length + 1 + rest.length) = false)) :
    (s.erase movesFront kept.length).LiveNamed := by
  intro i client' hi hlive
  rw [erase_clients h] at hi
  by_cases hk : kept.length = 0
  · -- the first element is erased, and the others stay in their slots
    obtain rfl := List.eq_nil_of_length_eq_zero hk
    have hfront : (s.erase movesFront ([] : List SlotSession).length).front = s.front + 1 := by
      simp [erase, erasesFront]
    rw [hfront, show s.front + 1 + (i : ℤ) = s.front + ((i + 1 : ℕ) : ℤ) by omega]
    exact hn (i + 1) client' (by rw [h]; exact hi) hlive
  · obtain ⟨hrest, hside⟩ := hw.resolve_left hk
    have hfront : (s.erase movesFront kept.length).front = s.front := by
      have hfalse : s.erasesFront movesFront kept.length = false := by
        rcases hside with rfl | hside
        · simp [erasesFront, hk, h]
        · have hlength : s.clients.length = kept.length + 1 + rest.length := by
            rw [h]
            simp
            omega
          simp [erasesFront, hk, hlength, hside]
      simp [erase, hfalse]
    rw [hfront]
    -- the live sessions are those before the erased one
    have hlt : i < kept.length := by
      by_contra hge
      rw [List.getElem?_append_right (Nat.le_of_not_lt hge)] at hi
      exact List.countP_eq_zero.mp hrest client' (List.mem_of_getElem? hi) hlive
    refine hn i client' ?_ hlive
    rw [h, List.getElem?_append_left hlt]
    rwa [List.getElem?_append_left hlt] at hi

/-- The loop keeps the live sessions, in order. -/
theorem eraseLoop_clients (rest : List SlotSession) (s : ServerSlots)
    (h : s.clients = kept ++ rest) :
    (eraseLoop movesFront rest.length kept.length s).clients = kept ++ rest.filter isLive ∧
      (eraseLoop movesFront rest.length kept.length s).callbackMap = s.callbackMap := by
  induction rest generalizing kept s with
  | nil => exact ⟨h, rfl⟩
  | cons client rest ih =>
    have hget : s.clients[kept.length]? = some client := by simp [h]
    rw [List.length_cons, eraseLoop, hget]
    dsimp only
    by_cases hc : client.state = .disconnected
    · have hlive : isLive client = false := by simp [isLive, hc]
      rw [if_pos hc, List.filter_cons_of_neg (by simp [hlive])]
      exact ih _ (erase_clients h)
    · have hlive : isLive client = true := by simp [isLive, hc]
      have hih := @ih (kept ++ [client]) s (by simp [h])
      rw [List.length_append, List.length_singleton] at hih
      rw [if_neg hc, List.filter_cons_of_pos hlive]
      simpa using hih

theorem eraseLoop_liveNamed (rest : List SlotSession) (s : ServerSlots)
    (h : s.clients = kept ++ rest) (hn : s.LiveNamed)
    (hw : HarmlessFrom movesFront kept.length rest) :
    (eraseLoop movesFront rest.length kept.length s).LiveNamed := by
  induction rest generalizing kept s with
  | nil => exact hn
  | cons client rest ih =>
    have hget : s.clients[kept.length]? = some client := by simp [h]
    rw [List.length_cons, eraseLoop, hget]
    dsimp only
    rw [HarmlessFrom] at hw
    by_cases hc : client.state = .disconnected
    · rw [if_neg (by simp [isLive, hc])] at hw
      rw [if_pos hc]
      exact ih _ (erase_clients h) (erase_liveNamed h hn hw.1) hw.2
    · rw [if_pos (by simp [isLive, hc])] at hw
      rw [if_neg hc]
      have hih := @ih (kept ++ [client]) s (by simp [h]) hn
      rw [List.length_append, List.length_singleton] at hih
      exact hih hw

/-! ## Runs -/

/-- The descriptors are those of live sessions, each of one session. -/
structure Inv (s : ServerSlots) : Prop where
  named : s.Named
  closed : ∀ client ∈ s.clients, client.state = .disconnected → client.socket = none
  distinct : s.clients.Pairwise fun a b => ∀ fd, a.socket = some fd → b.socket ≠ some fd
  registered : ∀ fd, (s.callbackMap fd).isSome = true → ∃ client ∈ s.clients, client.socket = some fd

theorem Inv.init : Inv {} where
  named := nofun
  closed := nofun
  distinct := .nil
  registered := nofun

variable (movesFront) in
theorem onUpdate_clients (s : ServerSlots) :
    (s.onUpdate movesFront).clients = s.clients.filter isLive ∧
      (s.onUpdate movesFront).callbackMap = s.callbackMap := by
  have h : s.clients = [] ++ s.clients := rfl
  exact eraseLoop_clients s.clients s h

theorem Inv.onUpdate (h : s.Inv) (hw : HarmlessFrom movesFront 0 s.clients) :
    (s.onUpdate movesFront).Inv := by
  obtain ⟨hclients, hmap⟩ := onUpdate_clients movesFront s
  have hlive : (s.onUpdate movesFront).LiveNamed := by
    have hnil : s.clients = [] ++ s.clients := rfl
    exact eraseLoop_liveNamed s.clients s hnil (fun i c hi _ => h.named i c hi) hw
  exact
    { named := by
        intro i client hi
        refine hlive i client hi ?_
        have hmem := List.mem_of_getElem? hi
        rw [hclients] at hmem
        exact (List.mem_filter.mp hmem).2
      closed := by
        intro client hmem
        rw [hclients] at hmem
        exact h.closed client (List.mem_of_mem_filter hmem)
      distinct := by
        rw [hclients]
        exact h.distinct.filter _
      registered := by
        intro fd hfd
        rw [hmap] at hfd
        obtain ⟨client, hmem, hsocket⟩ := h.registered fd hfd
        refine ⟨client, ?_, hsocket⟩
        rw [hclients, List.mem_filter]
        refine ⟨hmem, decide_eq_true fun hs => ?_⟩
        rw [h.closed client hmem hs] at hsocket
        cases hsocket }

theorem Inv.accept (h : s.Inv) (fd : ℕ) : (s.accept fd).Inv := by
  unfold ServerSlots.accept
  by_cases hused : s.clients.any (·.socket = some fd) = true
  · -- the number is in use, so no connection can have it
    rw [if_pos hused]
    exact h
  · have hfree : ∀ client ∈ s.clients, client.socket ≠ some fd := by
      intro client hmem hsocket
      exact hused (List.any_eq_true.mpr ⟨client, hmem, decide_eq_true hsocket⟩)
    -- nothing is registered for a number that is not in use
    have hmap : ¬(s.callbackMap fd).isSome = true := by
      intro hfd
      obtain ⟨client, hmem, hsocket⟩ := h.registered fd hfd
      exact hfree client hmem hsocket
    rw [if_neg hused]
    dsimp only
    rw [if_neg hmap]
    exact
      { named := by
          intro i client hi
          -- the new session is the last one, and the others keep their slots
          rcases Nat.lt_or_ge i s.clients.length with hlt | hge
          · rw [List.getElem?_append_left hlt] at hi
            have hold := h.named i client hi
            refine { hold with poll := fun fd' hfd' => ?_ }
            have hne : fd' ≠ fd := by
              rintro rfl
              exact hfree client (List.mem_of_getElem? hi) hfd'
            exact (Function.update_of_ne hne _ _).trans (hold.poll fd' hfd')
          · rw [List.getElem?_append_right hge, List.getElem?_singleton] at hi
            split_ifs at hi with h0
            obtain rfl : i = s.clients.length := by omega
            obtain rfl := Option.some_inj.mp hi
            refine ⟨fun fd' hfd' => ?_, rfl, rfl, rfl⟩
            obtain rfl : fd = fd' := Option.some_inj.mp hfd'
            exact Function.update_self _ _ _
        closed := by
          intro client hmem hs
          rcases List.mem_append.mp hmem with hmem | hmem
          · exact h.closed client hmem hs
          · obtain rfl := List.mem_singleton.mp hmem
            cases hs
        distinct := by
          refine List.pairwise_append.mpr ⟨h.distinct, List.pairwise_singleton _ _, ?_⟩
          intro a ha b hb fd' hfd' hb'
          obtain rfl := List.mem_singleton.mp hb
          obtain rfl : fd = fd' := Option.some_inj.mp hb'
          exact hfree a ha hfd'
        registered := by
          intro fd' hfd'
          by_cases hne : fd' = fd
          · subst hne
            exact ⟨_, List.mem_append_right _ (List.mem_singleton_self _), rfl⟩
          · have hold : (s.callbackMap fd').isSome = true := by
              rw [← hfd']
              exact congrArg Option.isSome (Function.update_of_ne hne _ _).symm
            obtain ⟨client, hmem, hsocket⟩ := h.registered fd' hold
            exact ⟨client, List.mem_append_left _ hmem, hsocket⟩ }

theorem remove_of_ne {callbackMap : ℕ → Option ℤ} {socket : Option ℕ} {fd : ℕ}
    (h : socket ≠ some fd) : remove callbackMap socket fd = callbackMap fd := by
  cases socket with
  | none => rfl
  | some fd' => exact Function.update_of_ne (fun he => h (congrArg some he.symm)) _ _

theorem remove_self (callbackMap : ℕ → Option ℤ) (fd : ℕ) :
    remove callbackMap (some fd) fd = none := Function.update_self _ _ _

theorem Inv.disconnect (h : s.Inv) (i : ℕ) : (s.disconnect i).Inv := by
  unfold ServerSlots.disconnect
  split
  · rename_i client hclient
    have hget : ∀ j client', (s.clients.set i { client with
        state := .disconnected, socket := none })[j]? = some client' → j ≠ i →
          s.clients[j]? = some client' := by
      intro j client' hj hne
      rwa [List.getElem?_set_ne hne.symm] at hj
    -- no other session has the descriptor
    have hne : ∀ j client', j ≠ i → s.clients[j]? = some client' → ∀ fd,
        client'.socket = some fd → client.socket ≠ some fd := by
      intro j client' hne hj fd hfd hfd'
      obtain ⟨hi, rfl⟩ := List.getElem?_eq_some_iff.mp hclient
      obtain ⟨hlj, rfl⟩ := List.getElem?_eq_some_iff.mp hj
      have hdistinct := List.pairwise_iff_getElem.mp h.distinct
      rcases Nat.lt_or_gt_of_ne hne with hlt | hgt
      · exact hdistinct j i hlj hi hlt fd hfd hfd'
      · exact hdistinct i j hi hlj hgt fd hfd' hfd
    have hi : i < s.clients.length := (List.getElem?_eq_some_iff.mp hclient).1
    exact
      -- the pointers of all sessions stay, and one registration goes with its socket
      { named := by
          intro j client' hj
          by_cases hji : j = i
          · subst hji
            rw [List.getElem?_set_self hi, Option.some_inj] at hj
            subst hj
            exact { h.named j client hclient with poll := nofun }
          · have hold := h.named j client' (hget j client' hj hji)
            refine { hold with poll := fun fd hfd => ?_ }
            exact (remove_of_ne (hne j client' hji (hget j client' hj hji) fd hfd)).trans
              (hold.poll fd hfd)
        closed := by
          intro client' hmem hs
          rcases List.mem_or_eq_of_mem_set hmem with hmem | rfl
          · exact h.closed client' hmem hs
          · rfl
        distinct := by
          refine List.pairwise_iff_getElem.mpr fun j k hj hk hlt fd hfd hfd' => ?_
          rw [List.getElem_set] at hfd hfd'
          split_ifs at hfd hfd'
          rw [List.length_set] at hj hk
          exact List.pairwise_iff_getElem.mp h.distinct j k hj hk hlt fd hfd hfd'
        -- the registrations that are left are those of the other sessions
        registered := by
          intro fd hfd
          dsimp only at hfd
          have hsocket : client.socket ≠ some fd := by
            intro hsocket
            rw [hsocket, remove_self] at hfd
            cases hfd
          rw [remove_of_ne hsocket] at hfd
          obtain ⟨client', hmem, hfd'⟩ := h.registered fd hfd
          obtain ⟨j, hj, rfl⟩ := List.getElem_of_mem hmem
          have hji : i ≠ j := by
            rintro rfl
            obtain rfl := Option.some_inj.mp ((List.getElem?_eq_getElem hj).symm.trans hclient)
            exact hsocket hfd'
          refine ⟨s.clients[j], List.mem_of_getElem? (i := j) ?_, hfd'⟩
          rw [List.getElem?_set_ne hji, List.getElem?_eq_getElem hj] }
  · exact h

/-- **One step.** -/
theorem step_inv (h : s.Inv) (op : Op) (hw : op.IsHarmless movesFront s) :
    (s.step movesFront op).Inv := by
  cases op with
  | accept fd => exact h.accept fd
  | disconnect i => exact h.disconnect i
  | onUpdate => exact h.onUpdate hw

theorem run_inv (h : s.Inv) (ops : List Op) (hw : s.RunIsHarmless movesFront ops) :
    (s.run movesFront ops).Inv := by
  induction ops generalizing s with
  | nil => exact h
  | cons op ops ih => exact ih (step_inv h op hw.1) hw.2

/-- **Removing one client does not disturb the others**: the poll registration, the reader, the
writer and the parser callback of every session name the slot in which it lives, in every run in
which `onUpdate` erases no session with live ones on the side that is moved. -/
theorem run_named (movesFront : ℕ → ℕ → Bool) (ops : List Op)
    (hw : RunIsHarmless movesFront {} ops) : (run movesFront {} ops).Named :=
  (run_inv .init ops hw).named

section

/-- The oldest and the youngest of three clients go. -/
private def endsOps : List Op :=
  [.accept 5, .accept 6, .accept 7, .disconnect 0, .onUpdate, .disconnect 1, .onUpdate, .accept 5]

theorem endsOps_named : (run (fun _ _ => true) {} endsOps).Named :=
  run_named (fun _ _ => true) endsOps (by decide)

private def middleOps : List Op :=
  [.accept 5, .accept 6, .accept 7, .disconnect 1, .onUpdate]

/-- The second of three clients goes. Whatever part the container moves, a session is left that
is named by the slot where it was. -/
theorem middleOps_not_named :
    (¬(run (fun _ _ => true) {} middleOps).Named) ∧ ¬(run (fun _ _ => false) {} middleOps).Named := by
  constructor
  · intro h
    exact absurd (h 0 _ rfl).reader (by decide)
  · intro h
    exact absurd (h 1 _ rfl).reader (by decide)

end

end ServerSlots

end Conntop
