import Conntop.Fidelity
import Conntop.Lib.GuardedRun
import Conntop.ServerSlots

/-!
# The sessions of the server in their slots

The handler of a poll event is found by the descriptor, and it is a slot. The reader, the writer and
the parser of the session in that slot name slots again: the bytes that the writer takes are handed
to the socket in the slot that it names.

* `SlottedServer` is the `Server` with the slots of its sessions. The lists have the same order.
* `step` is `none` where a handler gets to another session than that of the descriptor, or to none:
  the bytes would be those of another connection.
* `IsHarmless` is what both need of a step. Only `onUpdate` needs something.

Main result: `run_faithful`. A run of harmless steps goes to its end, every session is named by its
own slot, and what it hands to its socket is what was enqueued for it.
-/

namespace Conntop

open ServerSession (ServerOutbox)

structure SlottedServer where
  server : Server ServerOutbox
  slots : ServerSlots := {}

namespace SlottedServer

variable (movesFront : ℕ → ℕ → Bool) (inet : InetText) (s : SlottedServer)

inductive Op
  | accept (fd : ℕ)
  | poll (fd : ℕ) (event : PollEvent)
  | disconnect (i : ℕ)
  | onUpdate (calls : List ConnectionUpdateSerializer.Call)

/-- The session in a slot, if it has the descriptor and its pointers are to itself. -/
def reached (fd : ℕ) (slot : ℤ) : Option ℕ :=
  let i := (slot - s.slots.front).toNat
  match s.slots.clients[i]? with
  | some client =>
    if s.slots.front + i = slot ∧ client.socket = some fd ∧ client.reader = slot ∧
        client.writer = slot ∧ client.parser = slot then some i
    else none
  | none => none

/-- The numbers of the sessions that are disconnected. -/
def closed : List ℕ :=
  (List.range s.server.clients.length).filter fun i =>
    s.server.clients[i]?.any (·.state = .disconnected)

/-- A disconnected session has closed its socket, which is removed from the `PollSystem`. -/
def close : SlottedServer := { s with slots := s.closed.foldl ServerSlots.disconnect s.slots }

/-- A descriptor that is in use is not given to a new connection. -/
def step : Op → Option SlottedServer
  | .accept fd =>
    if s.slots.clients.any (·.socket = some fd) then some s
    else some ⟨s.server.step inet .accept, s.slots.accept fd⟩
  | .poll fd event =>
    match s.slots.callbackMap fd with
    | none => some s
    | some slot => (s.reached fd slot).map fun i =>
        close ⟨s.server.step inet (.poll i event), s.slots⟩
  | .disconnect i => some (close ⟨s.server.step inet (.disconnect i), s.slots⟩)
  | .onUpdate calls => some
      (close ⟨s.server.step inet (.onUpdate calls), s.slots.onUpdate movesFront⟩)

/-- The condition on a step: no message that is still needed is replaced, and no live session is
moved. -/
def IsHarmless : Op → Prop
  | .onUpdate calls => (Server.Op.onUpdate calls).IsHarmless s.server ∧
      ServerSlots.HarmlessFrom movesFront 0 s.slots.clients
  | _ => True

instance : ∀ op : Op, Decidable (s.IsHarmless movesFront op)
  | .onUpdate _ => inferInstanceAs (Decidable (_ ∧ _))
  | .accept _ | .poll _ _ | .disconnect _ => inferInstanceAs (Decidable True)

variable {movesFront inet s}

/-! ## Closing -/

def isLive (client : ServerSession ServerOutbox) : Bool := client.state ≠ .disconnected

theorem mem_closed {i : ℕ} :
    i ∈ s.closed ↔ ∃ client, s.server.clients[i]? = some client ∧ isLive client = false := by
  unfold closed
  rw [List.mem_filter, List.mem_range]
  cases hi : s.server.clients[i]? with
  | none =>
    constructor
    · rintro ⟨hlt, -⟩
      exact absurd hlt (Nat.not_lt.mpr (List.getElem?_eq_none_iff.mp hi))
    · rintro ⟨client, h, -⟩
      cases h
  | some client =>
    have hlt := (List.getElem?_eq_some_iff.mp hi).1
    simp [hlt, isLive]

/-- What some disconnects leave of a slot. -/
theorem foldl_disconnect (is : List ℕ) (slots : ServerSlots) (j : ℕ) :
    (is.foldl ServerSlots.disconnect slots).clients[j]?.map ServerSlots.isLive =
      slots.clients[j]?.map fun client => ServerSlots.isLive client && j ∉ is := by
  induction is generalizing slots with
  | nil => simp
  | cons i is ih =>
    rw [List.foldl_cons, ih]
    unfold ServerSlots.disconnect
    cases hi : slots.clients[i]? with
    | none =>
      have hne : slots.clients[j]? = none ∨ j ≠ i := by
        by_cases hji : j = i
        · exact .inl (hji ▸ hi)
        · exact .inr hji
      rcases hne with hnone | hne
      · rw [hnone]
        rfl
      · simp [hne]
    | some client =>
      have hlt := (List.getElem?_eq_some_iff.mp hi).1
      by_cases hji : j = i
      · subst hji
        simp [hlt, ServerSlots.isLive]
      · simp [hji, List.getElem?_set_ne (Ne.symm hji)]

/-! ## The invariant -/

/-- A session is live in its slot exactly if it is live. -/
def Aligned (s : SlottedServer) : Prop :=
  s.slots.clients.map ServerSlots.isLive = s.server.clients.map isLive

structure Inv (s : SlottedServer) : Prop where
  sound : s.server.Sound
  slots : s.slots.Inv
  aligned : s.Aligned

theorem Aligned.length (h : s.Aligned) : s.slots.clients.length = s.server.clients.length := by
  have hlength := congrArg List.length h
  rwa [List.length_map, List.length_map] at hlength

theorem Aligned.get (h : s.Aligned) (j : ℕ) :
    s.slots.clients[j]?.map ServerSlots.isLive = s.server.clients[j]?.map isLive := by
  have hget := congrArg (·[j]?) h
  simpa using hget

/-- Where only sessions were disconnected whose slots are not yet, `close` does the rest. -/
theorem close_aligned (hlength : s.slots.clients.length = s.server.clients.length)
    (hlag : ∀ (j : ℕ) slot client, s.slots.clients[j]? = some slot →
      s.server.clients[j]? = some client → isLive client = true →
        ServerSlots.isLive slot = true) : s.close.Aligned := by
  refine List.ext_getElem? fun j => ?_
  rw [List.getElem?_map, List.getElem?_map]
  refine (foldl_disconnect s.closed s.slots j).trans ?_
  show _ = s.server.clients[j]?.map isLive
  cases hclient : s.server.clients[j]? with
  | none =>
    rw [List.getElem?_eq_none (hlength ▸ List.getElem?_eq_none_iff.mp hclient)]
    rfl
  | some client =>
    have hlt := (List.getElem?_eq_some_iff.mp hclient).1
    have hslot := List.getElem?_eq_getElem (hlength ▸ hlt)
    rw [hslot, Option.map_some, Option.map_some]
    congr 1
    have hclosed : j ∈ s.closed ↔ isLive client = false := by
      rw [mem_closed]
      simp [hclient]
    cases hlive : isLive client with
    | false => simp [hclosed, hlive]
    | true => simp [hclosed, hlive, hlag j _ client hslot hclient hlive]

theorem close_slots (h : s.slots.Inv) : s.close.slots.Inv :=
  GuardedRun.foldl_inv (I := ServerSlots.Inv) (fun _ i hs => hs.disconnect i) s.closed s.slots h

/-! ## Dispatch -/

/-- An event gets to the session that has the descriptor. -/
theorem reached_eq (h : s.Inv) {fd : ℕ} {slot : ℤ} (hmap : s.slots.callbackMap fd = some slot) :
    ∃ i client, s.reached fd slot = some i ∧ s.slots.clients[i]? = some client ∧
      ServerSlots.isLive client = true := by
  obtain ⟨client, hmem, hsocket⟩ := h.slots.registered fd (by rw [hmap]; rfl)
  obtain ⟨i, hi, rfl⟩ := List.getElem_of_mem hmem
  have hget := List.getElem?_eq_getElem hi
  have hnamed := h.slots.named i _ hget
  obtain rfl : slot = s.slots.front + (i : ℤ) :=
    Option.some.inj (hmap.symm.trans (hnamed.poll fd hsocket))
  refine ⟨i, _, ?_, hget, ?_⟩
  · have hindex : (s.slots.front + (i : ℤ) - s.slots.front).toNat = i := by omega
    unfold reached
    dsimp only
    rw [hindex, hget]
    exact if_pos ⟨rfl, hsocket, hnamed.reader, hnamed.writer, hnamed.parser⟩
  · refine decide_eq_true fun hs => ?_
    rw [h.slots.closed _ hmem hs] at hsocket
    cases hsocket

/-! ## Steps -/

theorem Inv.close {srv : Server ServerOutbox} {slots : ServerSlots} (hsound : srv.Sound)
    (hslots : slots.Inv) (hlength : slots.clients.length = srv.clients.length)
    (hlag : ∀ (j : ℕ) slot client, slots.clients[j]? = some slot →
      srv.clients[j]? = some client → isLive client = true → ServerSlots.isLive slot = true) :
    Inv (SlottedServer.close ⟨srv, slots⟩) :=
  ⟨hsound, close_slots hslots, close_aligned hlength hlag⟩

/-- A session that is changed was live before if it is afterwards. -/
theorem Inv.modifyClient (h : s.Inv) {i : ℕ}
    {f : ServerSession ServerOutbox → ServerSession ServerOutbox × Bool}
    (hsound : (s.server.modifyClient i f).Sound)
    (hlive : ∀ slot client, s.slots.clients[i]? = some slot →
      s.server.clients[i]? = some client → isLive (f client).1 = true →
        ServerSlots.isLive slot = true) :
    Inv (SlottedServer.close ⟨s.server.modifyClient i f, s.slots⟩) := by
  unfold Server.modifyClient at hsound ⊢
  cases hclient : s.server.clients[i]? with
  | none =>
    rw [hclient] at hsound
    refine .close hsound h.slots h.aligned.length fun j slot client hslot hclient' hl => ?_
    have hget := h.aligned.get j
    rw [hslot, hclient', Option.map_some, Option.map_some] at hget
    exact (Option.some.inj hget).trans hl
  | some client =>
    rw [hclient] at hsound
    refine .close hsound h.slots ?_ fun j slot client' hslot hclient' hl => ?_
    · exact h.aligned.length.trans (List.length_set ..).symm
    · dsimp only at hclient'
      by_cases hji : j = i
      · subst hji
        rw [List.getElem?_set_self (List.getElem?_eq_some_iff.mp hclient).1] at hclient'
        cases hclient'
        exact hlive slot client hslot hclient hl
      · rw [List.getElem?_set_ne (Ne.symm hji)] at hclient'
        have hget := h.aligned.get j
        rw [hslot, hclient', Option.map_some, Option.map_some] at hget
        exact (Option.some.inj hget).trans hl

theorem Inv.accept (h : s.Inv) {fd : ℕ}
    (hfree : ¬s.slots.clients.any (·.socket = some fd) = true) :
    Inv ⟨s.server.step inet .accept, s.slots.accept fd⟩ where
  sound := @Server.step_sound inet _ h.sound .accept trivial
  slots := h.slots.accept fd
  aligned := by
    have haligned : s.slots.clients.map ServerSlots.isLive = s.server.clients.map isLive :=
      h.aligned
    unfold Aligned ServerSlots.accept
    rw [if_neg hfree]
    show (s.slots.clients ++ [_]).map ServerSlots.isLive = (s.server.clients ++ [_]).map isLive
    rw [List.map_append, List.map_append, haligned]
    rfl

theorem length_onUpdate (srv : Server ServerOutbox) (calls : List ConnectionUpdateSerializer.Call) :
    (srv.onUpdate inet calls).clients.length = (srv.clients.filter isLive).length := by
  unfold Server.onUpdate
  rcases hcollect : srv.beginUpdate.collect inet calls (srv.staying.any (Server.requires false))
    (srv.staying.any (Server.requires true)) with ⟨available, srv'⟩
  have hclients : srv'.clients = srv.staying.map srv.beginClient :=
    (Server.collect_memory hcollect).1
  show (srv'.clients.map _).length = _
  rw [List.length_map, hclients, List.length_map]
  rfl

/-- The same sessions are erased on both sides. -/
theorem Aligned.length_live (h : s.Aligned) :
    (s.slots.clients.filter ServerSlots.isLive).length = (s.server.clients.filter isLive).length := by
  have hcount : ∀ {α : Type} (p : α → Bool) (as : List α),
      (as.filter p).length = (as.map p).count true := by
    intro α p as
    rw [← List.countP_eq_length_filter]
    unfold List.count
    rw [List.countP_map]
    exact List.countP_congr fun a _ => by simp
  rw [hcount, hcount, h]

theorem Inv.onUpdate (h : s.Inv) {calls : List ConnectionUpdateSerializer.Call}
    (hw : s.IsHarmless movesFront (.onUpdate calls)) :
    Inv (SlottedServer.close
      ⟨s.server.step inet (.onUpdate calls), s.slots.onUpdate movesFront⟩) := by
  obtain ⟨hclients, -⟩ := ServerSlots.onUpdate_clients movesFront s.slots
  refine .close (Server.step_sound h.sound (.onUpdate calls) hw.1) (h.slots.onUpdate hw.2) ?_
    fun j slot client hslot _ _ => ?_
  · show (s.slots.onUpdate movesFront).clients.length = (s.server.onUpdate inet calls).clients.length
    rw [hclients, h.aligned.length_live, length_onUpdate]
  · have hmem := List.mem_of_getElem? hslot
    rw [hclients] at hmem
    exact (List.mem_filter.mp hmem).2

/-- **One step.** -/
theorem step_inv (h : s.Inv) (op : Op) (hw : s.IsHarmless movesFront op) :
    ∃ s', s.step movesFront inet op = some s' ∧ s'.Inv := by
  cases op with
  | accept fd =>
    by_cases hused : s.slots.clients.any (·.socket = some fd) = true
    · exact ⟨s, if_pos hused, h⟩
    · exact ⟨_, if_neg hused, h.accept hused⟩
  -- the slot of the callback is where its session is
  | poll fd event =>
    cases hmap : s.slots.callbackMap fd with
    | none =>
      refine ⟨s, ?_, h⟩
      unfold step
      dsimp only
      rw [hmap]
    | some slot =>
      obtain ⟨i, client, hreached, hslot, hlive⟩ := reached_eq h hmap
      refine ⟨SlottedServer.close ⟨s.server.step inet (.poll i event), s.slots⟩, ?_, ?_⟩
      · unfold step
        dsimp only
        rw [hmap]
        dsimp only
        rw [hreached]
        rfl
      · refine h.modifyClient (@Server.step_sound inet _ h.sound (.poll i event) trivial) ?_
        intro slot' client' hslot' _ _
        rw [hslot] at hslot'
        exact Option.some.inj hslot' ▸ hlive
  -- only a live session may be closed
  | disconnect i =>
    refine ⟨_, rfl, h.modifyClient (@Server.step_sound inet _ h.sound (.disconnect i) trivial) ?_⟩
    intro slot client hslot hclient hl
    have hget := h.aligned.get i
    rw [hslot, hclient, Option.map_some, Option.map_some] at hget
    refine (Option.some.inj hget).trans ?_
    by_contra hdead
    have hstate : client.state = .disconnected := by simpa [isLive] using hdead
    have hsame : client.disconnect s.server.memory = client := by
      unfold ServerSession.disconnect
      rw [hstate, if_neg ESessionState.noConfusion, if_neg ESessionState.noConfusion]
    rw [hsame] at hl
    exact hdead hl
  | onUpdate calls => exact ⟨_, rfl, h.onUpdate hw⟩

def init (info : PeerInfo) (replaced : SharedMsg → ℕ → List Char) (hasCollector : Bool) :
    SlottedServer where
  server := Server.init info replaced hasCollector

theorem init_inv (info : PeerInfo) (replaced : SharedMsg → ℕ → List Char) (hasCollector : Bool) :
    (init info replaced hasCollector).Inv :=
  ⟨Server.init_sound info replaced hasCollector, .init, rfl⟩

/-- **Message fidelity.** In every run in which `onUpdate` replaces no message that is still needed
and moves no live session, every event gets to its session, every session is named by its own slot,
and what it hands to its socket is a prefix of the messages that were enqueued for it, as they were
then, without DATA that `stopSendingData` dropped whole. -/
theorem run_faithful (movesFront : ℕ → ℕ → Bool) (inet : InetText) (info : PeerInfo)
    (replaced : SharedMsg → ℕ → List Char) (hasCollector : Bool) (ops : List Op)
    (hw : GuardedRun.Meets (step movesFront inet) (IsHarmless movesFront)
      (init info replaced hasCollector) ops) :
    ∃ s, GuardedRun.run (step movesFront inet) (init info replaced hasCollector) ops = some s ∧
      s.slots.Named ∧
        ∀ client ∈ s.server.clients, client.transport.history.IsFaithful ServerSession.isData := by
  obtain ⟨s, hrun, h⟩ := GuardedRun.exists_run_of_meets (fun s op hs => step_inv hs op)
    (init_inv info replaced hasCollector) hw
  exact ⟨s, hrun, h.slots.named, fun client hclient => (h.sound client hclient).1⟩

section

private def clientHello : Value :=
  .object [("message", .string "HELLO"), ("name", .string "conntop"), ("version", .string "1"),
    ("platform", .string "Linux")]

private def clientRequest : Value :=
  .object [("message", .string "REQUEST_DATA"), ("dataFlags", .int 1), ("dataUpdateFlags", .int 0)]

/-- A client sends messages, and its socket takes bytes. -/
private def clientPoll (fd : ℕ) (ms : List Value) (space : ℕ) : Op :=
  .poll fd ⟨EPollFlags.input ||| EPollFlags.output, .messages ms none, { space := space }⟩

private def clientClosed (fd : ℕ) : Op := .poll fd ⟨EPollFlags.input, .closed, { space := 0 }⟩

/-- The first of two clients goes, and DATA of the second one is partly sent at the last call of
`onUpdate`. -/
private def dataOps : List Op :=
  [.accept 5, .accept 6, clientClosed 5, clientPoll 6 [clientHello, clientRequest] 1000,
    .onUpdate [], clientPoll 6 [] 50, .onUpdate [], clientPoll 6 [] 1000]

theorem dataOps_faithful :
    ∃ s, GuardedRun.run (step (fun _ _ => true) .plain) (init {} (fun _ _ => []) true) dataOps =
        some s ∧ s.slots.Named ∧
      ∀ client ∈ s.server.clients, client.transport.history.IsFaithful ServerSession.isData :=
  run_faithful (fun _ _ => true) .plain {} (fun _ _ => []) true dataOps (by decide +kernel)

/-- The UPDATE_TICK of the first call of `onUpdate` is in the queue at the second one: the client
gets the second one twice. -/
theorem queuedTick_not_faithful :
    ∃ s, GuardedRun.run (step (fun _ _ => true) .plain) (init {} (fun _ _ => []) true)
        [.accept 5, clientPoll 5 [clientHello] 1000, .onUpdate [], .onUpdate [],
          clientPoll 5 [] 1000] = some s ∧
      ∃ client ∈ s.server.clients, ¬client.transport.history.IsFaithful ServerSession.isData := by
  have hsent : ((GuardedRun.run (step (fun _ _ => true) .plain) (init {} (fun _ _ => []) true)
        [.accept 5, clientPoll 5 [clientHello] 1000, .onUpdate [], .onUpdate [],
          clientPoll 5 [] 1000]).any fun s => s.server.clients.any fun client =>
      !decide (client.transport.history.sent <+:
        client.transport.history.kept.flatMap SerializedMessage.text)) = true := by decide +kernel
  obtain ⟨s, hrun, hany⟩ := Option.any_eq_true _ _ |>.mp hsent
  obtain ⟨client, hmem, hnot⟩ := List.any_eq_true.mp hany
  exact ⟨s, hrun, client, hmem, fun h => by simp [h.1] at hnot⟩

/-- The second of three clients goes. One of the others is moved then, and its next event is handled
with the socket of another slot. -/
example : ((GuardedRun.run (step (fun _ _ => true) .plain) (init {} (fun _ _ => []) true)
      [.accept 5, .accept 6, .accept 7, clientClosed 6, .onUpdate []]).bind fun s =>
    s.step (fun _ _ => true) .plain (clientPoll 5 [] 10)).isNone = true := by decide +kernel

end

end SlottedServer

end Conntop
