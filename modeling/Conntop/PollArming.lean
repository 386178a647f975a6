import Conntop.PollRounds

/-!
# What the poll thread has done to its descriptors

The registry of the poll thread's `PollHandle` is the one that its actions lead to: the requests
that it has applied, in the order of the calls, the events that it has fetched, and the resets of
its pipe. A descriptor is there once, since `addFD` makes a request only where the callback map has
no registration. It is armed unless an event of it was fetched after it was added or reset.

Main result: `no_request_left_behind`.
-/

namespace Conntop

open PollHandle

/-! ## Actions on the registry -/

/-- The request that an action applies. -/
def PollAction.asRequest : PollAction → Option PollRequest
  | .request r => some r
  | .event _ | .cleared => none

/-- What an action does to the registry. -/
def Registry.act (pipeFD : Fd) (g : Registry) : PollAction → Option Registry
  | .request r => g.request r
  | .event fd => some (g.disarm fd)
  | .cleared => some (g.rearm pipeFD.toInt EPollFlags.input)

/-- A request leaves its own descriptor where it adds it, and the others but one that it removes. -/
theorem Registry.mem_request {g g' : Registry} {q : PollRequest} (hq : g.request q = some g')
    {x : ℤ} (hx : x ∈ g'.map (·.fd)) :
    (q.type = .add ∧ x = q.fd.toInt) ∨
      (x ∈ g.map (·.fd) ∧ (q.type = .remove → x ≠ q.fd.toInt)) := by
  unfold Registry.request at hq
  cases htype : q.type with
  | none =>
    rw [htype] at hq
    cases hq
    exact .inr ⟨hx, PollRequest.EType.noConfusion⟩
  | reset =>
    rw [htype] at hq
    cases hq
    rw [map_fd_rearm] at hx
    exact .inr ⟨hx, PollRequest.EType.noConfusion⟩
  | remove =>
    rw [htype] at hq
    cases hq
    obtain ⟨y, hy, rfl⟩ := List.mem_map.mp hx
    obtain ⟨hmem, hne⟩ := List.mem_filter.mp hy
    exact .inr ⟨List.mem_map_of_mem hmem, fun _ => of_decide_eq_true hne⟩
  | add =>
    rw [htype] at hq
    dsimp only at hq
    split_ifs at hq
    cases hq
    rw [Registry.register, List.map_append, List.mem_append] at hx
    obtain hx | hx := hx
    · exact .inr ⟨hx, PollRequest.EType.noConfusion⟩
    · exact .inl ⟨rfl, List.mem_singleton.mp hx⟩

/-- What a request leaves in the registry is registered. -/
theorem PollRequest.isSome_register {q : PollRequest} {x : ℤ} {o : Option ℕ}
    (h : (q.type = .add ∧ x = q.fd.toInt) ∨
      (o.isSome = true ∧ (q.type = .remove → x ≠ q.fd.toInt))) :
    (q.register x o).isSome = true := by
  rw [PollRequest.register]
  split_ifs with hx
  · obtain ⟨htype, -⟩ | ⟨ho, hne⟩ := h
    · rw [htype]
      rfl
    · cases htype : q.type with
      | none | reset => exact ho
      | add => rfl
      | remove => exact absurd hx.symm (hne htype)
  · obtain ⟨-, rfl⟩ | ⟨ho, -⟩ := h
    · exact absurd rfl hx
    · exact ho

/-- An event disarms its descriptor. -/
theorem PollHandle.registry_getNextEvent {h : PollHandle} (hr : h.Regular) :
    h.getNextEvent.2.registry =
      if h.getNextEvent.1.isEmpty then h.registry
      else h.registry.disarm h.getNextEvent.1.fd := by
  obtain ⟨-, heq⟩ | ⟨e, es, h', -, heq, h0, -, hregistry⟩ := getNextEvent_spec hr
  · rw [heq]
    rfl
  · have hempty : e.isEmpty = false := decide_eq_false (not_lt.mpr h0)
    rw [heq, hregistry, hempty, if_neg Bool.false_ne_true]

namespace PollSystem

variable (pipeFD : Fd) (capacity : ℕ) (s : PollSystem)

/-- The registry after the actions of the poll thread, which registers the pipe first. It is `none`
where a descriptor would be there twice. -/
def registryAfter (actions : List PollAction) : Option Registry :=
  GuardedRun.run (Registry.act pipeFD) (Registry.register [] pipeFD.toInt EPollFlags.input) actions

theorem registryAfter_concat (actions : List PollAction) (a : PollAction) :
    registryAfter pipeFD (actions ++ [a]) =
      (registryAfter pipeFD actions).bind fun g => g.act pipeFD a := by
  rw [registryAfter, GuardedRun.run_append]
  exact congrArg _ (funext fun g => Option.bind_fun_some _)

/-! ## The actions of a run -/

/-- What holds between the steps. The callback map is what the requests of the main thread lead to,
so a descriptor is added only where the requests before have not registered it. -/
structure Follows : Prop where
  wakes : Wakes pipeFD capacity s
  map : ∀ fd, registered fd s.pushed = s.callbackMap fd
  fresh : ∀ pre r post, s.pushed = pre ++ r :: post → r.type = .add →
    registered r.fd.toInt pre = none
  requests : s.actions.filterMap PollAction.asRequest = s.applied
  registry : registryAfter pipeFD s.actions = some s.pollHandle.registry
  nodup : (s.pollHandle.registry.map (·.fd)).Nodup
  members : ∀ fd ∈ s.pollHandle.registry.map (·.fd),
    fd = pipeFD.toInt ∨ (registered fd s.applied).isSome = true

namespace Follows

variable {pipeFD capacity s}

theorem init (pipeFD : Fd) (capacity : ℕ) : Follows pipeFD capacity (PollSystem.init pipeFD) where
  wakes := .init pipeFD capacity
  map _ := rfl
  fresh pre r post hpushed := absurd hpushed.symm (by simp [PollSystem.init])
  requests := rfl
  registry := congrArg some (registry_add {} pipeFD EPollFlags.input).symm
  nodup := by
    rw [PollSystem.init, registry_add]
    exact List.pairwise_singleton _ _
  members fd hfd := by
    rw [PollSystem.init, registry_add] at hfd
    exact .inl (List.mem_singleton.mp hfd)

theorem regular (h : Follows pipeFD capacity s) : s.pollHandle.Regular := ⟨h.wakes.wf, h.nodup⟩

/-- A request that brings the callback map to `m`. -/
theorem emplace (h : Follows pipeFD capacity s) {r : PollRequest} {m : ℤ → Option ℕ} {n : ℕ}
    (hr : r.fd ≠ pipeFD) (hm : ∀ fd, r.register fd (s.callbackMap fd) = m fd)
    (hnew : r.type = .add → s.callbackMap r.fd.toInt = none) :
    Follows pipeFD capacity
      (({ s with callbackMap := m, registrations := n } : PollSystem).emplace r) :=
  { h with
    wakes := Wakes.emplace (s := { s with callbackMap := m, registrations := n }) { h.wakes with } hr
    map := fun fd => by
      show registered fd (s.pushed ++ [r]) = m fd
      rw [registered_append, h.map, hm]
    fresh := fun pre q post hpushed hq => by
      replace hpushed : s.pushed ++ [r] = pre ++ q :: post := hpushed
      obtain rfl | ⟨rest, x, rfl⟩ := post.eq_nil_or_concat'
      · -- the new request is the last one
        obtain ⟨rfl, hqr⟩ := List.append_inj' hpushed rfl
        obtain rfl := List.singleton_inj.mp hqr
        rw [h.map]
        exact hnew hq
      · rw [← List.cons_append, ← List.append_assoc] at hpushed
        exact h.fresh pre q rest (List.append_inj' hpushed rfl).1 hq }

theorem addFD (h : Follows pipeFD capacity s) {fd : Fd} (hfd : fd ≠ pipeFD) (flags : Flags) :
    Follows pipeFD capacity (s.addFD fd flags) := by
  rw [PollSystem.addFD]
  split_ifs with hsome
  · exact h
  · exact h.emplace hfd (PollRequest.register_eq_update (if_pos rfl)) fun _ =>
      Option.not_isSome_iff_eq_none.mp hsome

theorem resetFD (h : Follows pipeFD capacity s) {fd : Fd} (hfd : fd ≠ pipeFD) (flags : Flags) :
    Follows pipeFD capacity (s.resetFD fd flags) :=
  h.emplace (n := s.registrations) hfd (fun _ => ite_self _) PollRequest.EType.noConfusion

theorem removeFD (h : Follows pipeFD capacity s) {fd : Fd} (hfd : fd ≠ pipeFD) :
    Follows pipeFD capacity (s.removeFD fd) := by
  rw [PollSystem.removeFD]
  cases s.callbackMap fd.toInt with
  | none => exact h
  | some registration =>
    exact h.emplace (n := s.registrations) hfd (PollRequest.register_eq_update (if_pos rfl))
      PollRequest.EType.noConfusion

theorem onEvent (h : Follows pipeFD capacity s) (e : QueuedEvent) :
    Follows pipeFD capacity (s.onEvent e) := by
  have hw := h.wakes.onEvent e
  rw [PollSystem.onEvent] at hw ⊢
  cases hmap : s.callbackMap e.event.fd with
  | none => exact h
  | some registration =>
    rw [hmap] at hw
    exact { h with wakes := hw }

/-- The registry after one more action. -/
theorem act (h : Follows pipeFD capacity s) {a : PollAction} {handle : PollHandle}
    (ha : s.pollHandle.registry.act pipeFD a = some handle.registry) :
    registryAfter pipeFD (s.actions ++ [a]) = some handle.registry := by
  rw [registryAfter_concat, h.registry]
  exact ha

theorem filterMap_concat (h : Follows pipeFD capacity s) (a : PollAction) :
    (s.actions ++ [a]).filterMap PollAction.asRequest = s.applied ++ a.asRequest.toList := by
  rw [List.filterMap_append, h.requests]
  cases a <;> rfl

theorem fetch (h : Follows pipeFD capacity s) {c : Bool} (hs : s.stage = .fetching c) :
    Follows pipeFD capacity (s.fetch pipeFD c) := by
  have hw := h.wakes.fetch hs
  have hregistry := registry_getNextEvent h.regular
  -- no event adds or removes a descriptor
  have hfds : s.pollHandle.getNextEvent.2.registry.map (·.fd) =
      s.pollHandle.registry.map (·.fd) := by
    rw [hregistry]
    split_ifs
    · rfl
    · exact map_fd_disarm _ _
  have hnodup : (s.pollHandle.getNextEvent.2.registry.map (·.fd)).Nodup := hfds ▸ h.nodup
  have hmembers : ∀ fd ∈ s.pollHandle.getNextEvent.2.registry.map (·.fd),
      fd = pipeFD.toInt ∨ (registered fd s.applied).isSome = true := by
    rw [hfds]
    exact h.members
  have hact : s.pollHandle.getNextEvent.1.isEmpty = false →
      registryAfter pipeFD (s.actions ++ [.event s.pollHandle.getNextEvent.1.fd]) =
        some s.pollHandle.getNextEvent.2.registry := by
    intro he
    rw [he, if_neg Bool.false_ne_true] at hregistry
    exact h.act (congrArg some hregistry.symm)
  obtain ⟨he, heq⟩ | ⟨he, -, heq⟩ | ⟨he, -, heq⟩ := s.fetch_cases pipeFD c
  · rw [heq] at hw ⊢
    rw [he, if_pos rfl] at hregistry
    exact
      { h with
        wakes := hw
        registry := h.registry.trans (congrArg some hregistry.symm)
        nodup := hnodup
        members := hmembers }
  · rw [heq] at hw ⊢
    exact
      { h with
        wakes := hw
        requests := (h.filterMap_concat _).trans (List.append_nil _)
        registry := hact he
        nodup := hnodup
        members := hmembers }
  · rw [heq] at hw ⊢
    exact
      { h with
        wakes := hw
        requests := (h.filterMap_concat _).trans (List.append_nil _)
        registry := hact he
        nodup := hnodup
        members := hmembers }

theorem readData (h : Follows pipeFD capacity s) (hs : s.stage = .clearing) :
    Follows pipeFD capacity (s.readData pipeFD) := by
  have hw := h.wakes.readData hs
  have hreset := registry_reset h.nodup pipeFD EPollFlags.input
  have hfds : (s.pollHandle.reset pipeFD.toInt EPollFlags.input).registry.map (·.fd) =
      s.pollHandle.registry.map (·.fd) := by
    rw [hreset, map_fd_rearm]
  rw [PollSystem.readData] at hw ⊢
  split_ifs at hw ⊢
  · exact
      { h with
        wakes := hw
        requests := (h.filterMap_concat _).trans (List.append_nil _)
        registry := h.act (congrArg some hreset.symm)
        nodup := hfds ▸ h.nodup
        members := hfds ▸ h.members }
  · exact { h with wakes := hw }

/-- The poll thread adds no descriptor that it has already. -/
theorem request_eq (h : Follows pipeFD capacity s) {r : PollRequest} {rs : List PollRequest}
    (hq : s.requestQueue = r :: rs) : s.pollHandle.request r = some (r.apply s.pollHandle) := by
  refine if_neg fun hadd => ?_
  have hpushed : s.pushed = s.applied ++ r :: rs := hq ▸ h.wakes.pushed
  rw [← map_fd_registry] at hadd
  obtain hpipe | hsome := h.members _ hadd.2
  · exact h.wakes.others r (hq ▸ List.mem_cons_self) (Fd.toInt_injective hpipe)
  · rw [h.fresh _ _ _ hpushed hadd.1] at hsome
    cases hsome

theorem dequeue (h : Follows pipeFD capacity s) (hs : s.stage = .dequeuing) :
    Follows pipeFD capacity s.dequeue := by
  have hw := h.wakes.dequeue hs
  rw [PollSystem.dequeue] at hw ⊢
  cases hq : s.requestQueue with
  | nil =>
    rw [hq] at hw
    exact { h with wakes := hw }
  | cons r rs =>
    rw [hq] at hw
    have hrequest := h.request_eq hq
    have hregistry := request_refines h.regular r
    rw [hrequest, Option.map_some] at hregistry
    have hidle : s.pollHandle.Idle := ⟨h.regular, h.wakes.fetched (.inr hs)⟩
    exact
      { h with
        wakes := hw
        requests := h.filterMap_concat _
        registry := h.act hregistry.symm
        nodup := (hidle.request hrequest).nodup
        members := fun fd hfd => by
          show _ ∨ (registered fd (s.applied ++ [r])).isSome = true
          rw [registered_append]
          obtain hadd | ⟨hmem, hne⟩ := Registry.mem_request hregistry.symm hfd
          · exact .inr (PollRequest.isSome_register (.inl hadd))
          · exact (h.members fd hmem).imp_right fun hsome =>
              PollRequest.isSome_register (.inr ⟨hsome, hne⟩) }

theorem step (h : Follows pipeFD capacity s) {op : Op} {s' : PollSystem}
    (hs : s.step pipeFD capacity op = some s') : Follows pipeFD capacity s' := by
  have hw := h.wakes.step hs
  cases step_cases hs with
  -- the main thread changes the callback map and the requests, not the registry
  | addFD flags hfd => exact h.addFD hfd flags
  | resetFD flags hfd => exact h.resetFD hfd flags
  | removeFD hfd => exact h.removeFD hfd
  | wake => exact { h with wakes := hw }
  | @onEvent e es hqueue =>
    have hpop : Follows pipeFD capacity { s with eventQueue := es } :=
      { h with wakes := { h.wakes with } }
    exact hpop.onEvent e
  -- `wait` writes the results, which are no part of the registry
  | wait hstage hwait =>
    have hregistry := registry_wait hwait
    exact
      { h with
        wakes := hw
        registry := h.registry.trans (congrArg some hregistry.symm)
        nodup := hregistry ▸ h.nodup
        members := hregistry ▸ h.members }
  | interrupt hstage => exact { h with wakes := hw }
  | getNextEvent hstage => exact h.fetch hstage
  | readData hstage => exact h.readData hstage
  | dequeue hstage => exact h.dequeue hstage

end Follows

/-- **No request is left behind**: while the poll thread waits and the pipe is empty, every request
whose `pushRequest` has completed is applied, in the order of the calls, and the pipe is armed for
input. What the poll thread has registered is what its actions lead to: these requests, the events
that it has fetched, each of which disarms its descriptor, and the resets of the pipe. -/
theorem no_request_left_behind (pipeFD : Fd) {capacity : ℕ} (hcap : 0 < capacity) (ops : List Op)
    (s : PollSystem) (hrun : run pipeFD capacity ops = some s) (hwait : s.stage = .waiting)
    (hempty : s.pipe = 0) :
    s.completed <+: s.applied ∧ s.pushed = s.applied ++ s.requestQueue ∧
      s.pollHandle.watched = watchedAfter pipeFD s.applied ∧
      (∃ d ∈ s.pollHandle.descriptors,
        d.fd = pipeFD.toInt ∧ d.events = flagsToEvents EPollFlags.input) ∧
      s.actions.filterMap PollAction.asRequest = s.applied ∧
      registryAfter pipeFD s.actions = some s.pollHandle.registry := by
  have h : Follows pipeFD capacity s :=
    GuardedRun.run_inv (fun _ _ _ h hs => h.step hs) (Follows.init pipeFD capacity) hrun
  have happlied : s.completed <+: s.applied := by
    obtain hc | hp | hd := h.wakes.woken hcap
    · exact hc
    · exact absurd hp (by rw [hempty]; exact Nat.lt_irrefl 0)
    · rw [hwait] at hd
      exact absurd hd Bool.false_ne_true
  have hpipe := h.wakes.pipe
  rw [hwait, if_neg PollStage.noConfusion] at hpipe
  have hmem : (pipeFD.toInt, flagsToEvents EPollFlags.input) ∈ s.pollHandle.entries pipeFD :=
    hpipe ▸ List.mem_singleton_self _
  obtain ⟨d, hd, heq⟩ := List.mem_map.mp hmem
  exact ⟨happlied, h.wakes.pushed, h.wakes.watched,
    ⟨d, List.mem_of_mem_filter hd, (Prod.mk.inj heq).1, (Prod.mk.inj heq).2⟩, h.requests,
    h.registry⟩

section

/-- A wake-up during the drain of the queue finds it empty afterwards, and costs one more turn. -/
private def wokenOps (fd : Fd) : List Op :=
  [.addFD fd EPollFlags.input, .wake, .wait fun _ => 0, .getNextEvent, .readData, .getNextEvent,
    .resetFD fd EPollFlags.output, .dequeue, .wake, .dequeue, .dequeue, .wait fun _ => 0,
    .getNextEvent, .readData, .getNextEvent, .dequeue]

private theorem wokenOps_runs : (run 3 1 (wokenOps 5)).isSome = true := by decide

theorem wokenOps_applied : ∃ s, run 3 1 (wokenOps 5) = some s ∧ s.completed.length = 2 ∧
    s.completed <+: s.applied := by
  have hrun := (Option.some_get wokenOps_runs).symm
  exact ⟨_, hrun, by decide,
    (no_request_left_behind 3 Nat.one_pos (wokenOps 5) _ hrun (by decide) (by decide)).1⟩

end

end PollSystem

end Conntop
