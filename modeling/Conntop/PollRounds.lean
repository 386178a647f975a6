import Conntop.Lib.GuardedRun
import Conntop.PollSystem

/-!
# The rounds of the poll thread

A round is a `wait`, the calls of `getNextEvent` up to one that returns nothing, and some requests.
Between two of these calls any descriptor may be reset. `ADD` is enabled where the descriptor is not
there.

A `Registry` is what a `PollHandle` is for: the registered descriptors in the order of their
registration, each armed or not. `wait` finds what is ready among the armed ones, and what was
reported is armed again by a reset only.

Main results: `round_refines`, a round of the code is one of the registry, and `run_reports`, for
every sequence of rounds.
-/

namespace Conntop

open PollHandle

/-! ## The registry -/

structure Registration where
  fd : ℤ
  events : BitVec 16
  armed : Bool := true
  deriving DecidableEq, Repr

abbrev Registry := List Registration

/-- What `poll` reports for a descriptor. -/
def reported (ready : ℤ → BitVec 16) (events : BitVec 16) (fd : ℤ) : BitVec 16 :=
  ready fd &&& (events ||| POLLERR ||| POLLHUP ||| POLLNVAL)

namespace Registry

variable (g : Registry)

def register (fd : ℤ) (flags : Flags) : Registry := g ++ [{ fd, events := flagsToEvents flags }]

def unregister (fd : ℤ) : Registry := g.filter fun x => x.fd ≠ fd

def rearm (fd : ℤ) (flags : Flags) : Registry :=
  g.map fun x => if x.fd = fd then { fd, events := flagsToEvents flags } else x

def disarm (fd : ℤ) : Registry := g.map fun x => if x.fd = fd then { x with armed := false } else x

/-- The events of the armed descriptors that are ready. -/
def found (ready : ℤ → BitVec 16) : List PollHandle.PollEvent :=
  (g.filter fun x => x.armed && reported ready x.events x.fd != 0).map fun x =>
    eventOf { fd := x.fd, events := x.events, revents := reported ready x.events x.fd }

/-- `none` where `poll` blocks. -/
def wait : Option (ℤ → BitVec 16) → Option (List PollHandle.PollEvent)
  | none => some []
  | some ready => if g.found ready = [] then none else some (g.found ready)

def resetAll (rs : List (Fd × Flags)) : Registry := rs.foldl (fun g r => g.rearm r.1.toInt r.2) g

/-- The events are reported one after the other, with resets behind each. -/
def report (resets : ℕ → List (Fd × Flags)) : ℕ → List PollHandle.PollEvent → Registry → Registry
  | _, [], g => g
  | k, e :: es, g => report resets (k + 1) es (resetAll (g.disarm e.fd) (resets k))

def request (q : PollRequest) : Option Registry :=
  match q.type with
  | .add => if q.fd.toInt ∈ g.map (·.fd) then none else some (g.register q.fd.toInt q.flags)
  | .reset => some (g.rearm q.fd.toInt q.flags)
  | .remove => some (g.unregister q.fd.toInt)
  | .none => some g

def requests (qs : List PollRequest) : Option Registry := GuardedRun.run request g qs

end Registry

/-! ## Rounds -/

/-- What the kernel has ready, or `none` where `poll` is interrupted, the resets behind each event,
and the requests. -/
structure Round where
  ready : Option (ℤ → BitVec 16)
  resets : ℕ → List (Fd × Flags) := fun _ => []
  requests : List PollRequest := []

namespace Round

variable (r : Round) (fd : ℤ)

def Resets : Prop :=
  (∃ k, ∃ x ∈ r.resets k, x.1.toInt = fd) ∨ ∃ q ∈ r.requests, q.fd.toInt = fd ∧ q.type = .reset

def Adds : Prop := ∃ q ∈ r.requests, q.fd.toInt = fd ∧ q.type = .add

end Round

/-- What a round reports, and the registry behind it. -/
def Registry.round (g : Registry) (r : Round) : Option (List PollHandle.PollEvent × Registry) :=
  (g.wait r.ready).bind fun events =>
    ((g.report r.resets 0 events).requests r.requests).map fun g => (events, g)

/-- The rounds after the descriptors of `start` are registered. -/
def Registry.run (start : List PollRequest) (rs : List Round) :
    Option (List (List PollHandle.PollEvent) × Registry) :=
  (Registry.requests [] start).bind fun g => GuardedRun.outputs Registry.round g rs

namespace PollHandle

variable (h : PollHandle)

/-- A descriptor is armed while its number is not negative. -/
def registration (d : PollFd) : Registration :=
  { fd := fdOf d.fd, events := d.events, armed := 0 ≤ d.fd }

def registry : Registry := h.descriptors.map registration

def resetAll (rs : List (Fd × Flags)) : PollHandle :=
  rs.foldl (fun h r => h.reset r.1.toInt r.2) h

/-- The calls of `getNextEvent` up to one that returns nothing. -/
def fetchAll (resets : ℕ → List (Fd × Flags)) :
    ℕ → ℕ → PollHandle → Option (List PollHandle.PollEvent × PollHandle)
  | 0, _, _ => none
  | fuel + 1, k, h =>
    let (event, h) := h.getNextEvent
    if event.isEmpty then some ([], h)
    else (fetchAll resets fuel (k + 1) (h.resetAll (resets k))).map fun x => (event :: x.1, x.2)

/-- A request, where no descriptor is added twice. -/
def request (q : PollRequest) : Option PollHandle :=
  if q.type = .add ∧ q.fd.toInt ∈ h.descriptors.map (fun d => fdOf d.fd) then none
  else some (q.apply h)

def requests (qs : List PollRequest) : Option PollHandle := GuardedRun.run request h qs

/-- `wait`, where `poll` is interrupted for `none`. -/
def waitFor : Option (ℤ → BitVec 16) → Option PollHandle
  | none => some h.interrupt
  | some ready => h.wait ready

def round (r : Round) : Option (List PollHandle.PollEvent × PollHandle) := do
  let h ← h.waitFor r.ready
  let (events, h) ← fetchAll r.resets (h.descriptors.length + 1) 0 h
  let h ← h.requests r.requests
  return (events, h)

def run (start : List PollRequest) (rs : List Round) :
    Option (List (List PollHandle.PollEvent) × PollHandle) := do
  let h ← ({} : PollHandle).requests start
  GuardedRun.outputs round h rs

end PollHandle

/-! ## One call -/

namespace PollHandle

variable {h h' : PollHandle}

/-- Well formed, and no descriptor is there twice. -/
structure Regular (h : PollHandle) : Prop where
  wf : h.Wf
  nodup : (h.registry.map (·.fd)).Nodup

theorem registry_add (h : PollHandle) (fd : Fd) (flags : Flags) :
    (h.add fd.toInt flags).registry = h.registry.register fd.toInt flags := by
  rw [registry, add, List.map_append, List.map_singleton, registration, fdOf_toInt,
    decide_eq_true fd.toInt_nonneg]
  rfl

theorem registry_remove (h : PollHandle) (fd : Fd) :
    (h.remove fd.toInt).registry = h.registry.unregister fd.toInt := by
  rw [registry, remove, Registry.unregister, registry, List.filter_map]
  refine congrArg _ (List.filter_congr fun d _ => ?_)
  rw [Bool.eq_iff_iff, Bool.not_eq_true', Function.comp_apply, decide_eq_true_eq,
    ← Bool.not_eq_true, isFor_iff]
  exact Iff.rfl

theorem map_fd_rearm (g : Registry) (fd : ℤ) (flags : Flags) :
    (g.rearm fd flags).map (·.fd) = g.map (·.fd) := by
  rw [Registry.rearm, List.map_map]
  refine List.map_congr_left fun x _ => ?_
  rw [Function.comp_apply]
  split_ifs with hx
  · exact hx.symm
  · rfl

theorem map_fd_disarm (g : Registry) (fd : ℤ) : (g.disarm fd).map (·.fd) = g.map (·.fd) := by
  rw [Registry.disarm, List.map_map]
  refine List.map_congr_left fun x _ => ?_
  rw [Function.comp_apply]
  split_ifs <;> rfl

theorem registry_reset (hn : (h.registry.map (·.fd)).Nodup) (fd : Fd) (flags : Flags) :
    (h.reset fd.toInt flags).registry = h.registry.rearm fd.toInt flags := by
  rw [registry, List.map_map] at hn
  rw [registry, reset, Registry.rearm, registry, List.map_map]
  revert hn
  induction h.descriptors with
  | nil => exact fun _ => rfl
  | cons d ds ih =>
    intro hn
    obtain ⟨hd, hn⟩ := List.nodup_cons.mp hn
    rw [resetLoop, List.map_cons]
    by_cases hfd : fdOf d.fd = fd.toInt
    · have hrest : ∀ e ∈ ds, ¬(registration e).fd = fd.toInt := fun e he heq =>
        hd (List.mem_map.mpr ⟨e, he, heq.trans hfd.symm⟩)
      have hhead : (registration d).fd = fd.toInt := hfd
      rw [if_pos ((isFor_iff fd d).mpr hfd), List.map_cons, Function.comp_apply, if_pos hhead,
        registration, fdOf_toInt, decide_eq_true fd.toInt_nonneg]
      exact congrArg _ (List.map_congr_left fun e he => (if_neg (hrest e he)).symm)
    · have hhead : ¬(registration d).fd = fd.toInt := hfd
      rw [if_neg (mt (isFor_iff fd d).mp hfd), List.map_cons, Function.comp_apply, if_neg hhead,
        ih hn]

theorem registry_wait {ready : ℤ → BitVec 16} (hw : h.wait ready = some h') :
    h'.registry = h.registry := by
  rw [wait_eq_some hw, registry, List.map_map]
  rfl

/-! ## The events of a round -/

/-- The events of the last `wait` that are not fetched yet. -/
def pendingEvents (h : PollHandle) : List PollHandle.PollEvent :=
  match h.eventIndex with
  | none => []
  | some i => ((h.descriptors.drop i).filter fun d => d.revents ≠ 0).map eventOf

theorem registration_of_nonneg {d : PollFd} (hd : 0 ≤ d.fd) :
    registration d = { fd := d.fd, events := d.events } := by
  rw [registration, fdOf_of_nonneg hd, decide_eq_true hd]

/-- `poll` finds what is ready among the armed descriptors. -/
theorem found_eq (h : PollHandle) (ready : ℤ → BitVec 16) :
    ((h.descriptors.map (poll ready)).filter fun d => d.revents ≠ 0).map eventOf =
      h.registry.found ready := by
  rw [Registry.found, registry, List.filter_map, List.filter_map, List.map_map, List.map_map]
  have hkeep : h.descriptors.filter ((fun d => decide (d.revents ≠ 0)) ∘ poll ready) =
      h.descriptors.filter ((fun x : Registration =>
        x.armed && reported ready x.events x.fd != 0) ∘ registration) := by
    refine List.filter_congr fun d _ => ?_
    rw [Function.comp_apply, Function.comp_apply, poll]
    by_cases hd : 0 ≤ d.fd
    · rw [registration_of_nonneg hd, if_neg (not_lt.mpr hd), Bool.true_and, Bool.eq_iff_iff,
        decide_eq_true_eq, bne_iff_ne]
      exact Iff.rfl
    · rw [registration, decide_eq_false hd, if_pos (not_le.mp hd)]
      rfl
  rw [hkeep]
  refine List.map_congr_left fun d hd => ?_
  have harmed := (Bool.and_eq_true_iff.mp (List.mem_filter.mp hd).2).1
  have hd : 0 ≤ d.fd := of_decide_eq_true harmed
  rw [Function.comp_apply, Function.comp_apply, registration_of_nonneg hd, poll,
    if_neg (not_lt.mpr hd)]
  rfl

/-- `wait` leaves exactly these to be fetched. -/
theorem pendingEvents_wait {ready : ℤ → BitVec 16} (hw : h.wait ready = some h') :
    h'.pendingEvents = h.registry.found ready := by
  rw [wait_eq_some hw, ← found_eq]
  rfl

theorem wait_eq_none_iff {ready : ℤ → BitVec 16} :
    h.wait ready = none ↔ h.registry.found ready = [] := by
  rw [wait, ← found_eq, List.map_eq_nil_iff, List.filter_map, List.map_eq_nil_iff,
    List.filter_eq_nil_iff]
  split_ifs with hany
  · obtain ⟨d, hd, hr⟩ := List.any_eq_true.mp hany
    exact iff_of_false not_false fun hall => hall d hd hr
  · refine iff_of_true rfl fun d hd hr => hany (List.any_eq_true.mpr ⟨d, hd, hr⟩)

/-- A reset changes none of the events. -/
theorem resetLoop_events (fd : Fd) (flags : Flags) (ds : List PollFd) (i : ℕ)
    (hds : ∀ d ∈ ds.drop i, d.revents ≠ 0 → 0 ≤ d.fd) :
    (((resetLoop fd.toInt flags ds).drop i).filter fun d => d.revents ≠ 0).map eventOf =
      ((ds.drop i).filter fun d => d.revents ≠ 0).map eventOf := by
  induction ds generalizing i with
  | nil => rfl
  | cons d ds ih =>
    rw [resetLoop]
    by_cases hfor : isFor fd.toInt d = true
    · rw [if_pos hfor]
      cases i with
      | succ i => rfl
      | zero =>
        by_cases hr : d.revents = 0
        · rw [List.drop_zero, List.drop_zero, List.filter_cons_of_neg (by simpa using hr),
            List.filter_cons_of_neg (by simpa using hr)]
        · have hfd : fd.toInt = d.fd := by
            rw [← (isFor_iff fd d).mp hfor, fdOf_of_nonneg (hds d List.mem_cons_self hr)]
          rw [List.drop_zero, List.drop_zero, List.filter_cons_of_pos (by simpa using hr),
            List.filter_cons_of_pos (by simpa using hr), List.map_cons, List.map_cons, hfd]
          rfl
    · rw [if_neg hfor]
      cases i with
      | succ i => exact ih i hds
      | zero =>
        have hrest := ih 0 fun e he => hds e (List.mem_cons_of_mem _ he)
        rw [List.drop_zero, List.drop_zero] at hrest ⊢
        rw [List.filter_cons, List.filter_cons]
        split_ifs
        · rw [List.map_cons, List.map_cons, hrest]
        · exact hrest

theorem pendingEvents_reset (hw : h.Wf) (fd : Fd) (flags : Flags) :
    (h.reset fd.toInt flags).pendingEvents = h.pendingEvents := by
  unfold pendingEvents reset
  cases hi : h.eventIndex with
  | none => rfl
  | some i => exact resetLoop_events fd flags _ i (hw.nonneg i hi)

theorem registration_ignored {d : PollFd} (h0 : 0 ≤ d.fd) (hlt : d.fd < 2147483648) :
    registration { d with fd := negativeFD d.fd } =
      { fd := d.fd, events := d.events, armed := false } := by
  rw [registration, fdOf_negativeFD h0 hlt, decide_eq_false (not_le.mpr (negativeFD_neg h0))]

/-- The descriptor of one structure is disarmed, where no other structure is for it. -/
theorem map_registration_disarm {pre ds : List PollFd} {d : PollFd} (h0 : 0 ≤ d.fd)
    (hlt : d.fd < 2147483648)
    (hn : (((pre ++ d :: ds).map registration).map (·.fd)).Nodup) :
    (pre ++ { d with fd := negativeFD d.fd } :: ds).map registration =
      Registry.disarm ((pre ++ d :: ds).map registration) d.fd := by
  have hkeep : ∀ es : List PollFd, (∀ e ∈ es, (registration e).fd ≠ d.fd) →
      Registry.disarm (es.map registration) d.fd = es.map registration := by
    intro es hes
    rw [Registry.disarm, List.map_map]
    exact List.map_congr_left fun e he => if_neg (hes e he)
  have hfd : (registration d).fd = d.fd := fdOf_of_nonneg h0
  rw [List.map_append, List.map_cons, List.map_append, List.map_cons] at hn
  obtain ⟨-, hcons, hdisj⟩ := List.nodup_append.mp hn
  obtain ⟨hd, -⟩ := List.nodup_cons.mp hcons
  have hpre := hkeep pre fun e he heq => hdisj _ (List.mem_map_of_mem (List.mem_map_of_mem he)) _
    List.mem_cons_self (heq.trans hfd.symm)
  have hds := hkeep ds fun e he heq =>
    hd (hfd ▸ heq ▸ List.mem_map_of_mem (List.mem_map_of_mem he))
  unfold Registry.disarm at hpre hds ⊢
  rw [List.map_append, List.map_cons, List.map_append, List.map_cons, List.map_append,
    List.map_cons, hpre, hds, if_pos hfd, registration_ignored h0 hlt, registration_of_nonneg h0]

/-- A call of `getNextEvent` returns the first event and disarms its descriptor, or nothing is
left. -/
theorem getNextEvent_spec (hr : h.Regular) :
    (h.pendingEvents = [] ∧ h.getNextEvent = ({}, { h with eventIndex := none })) ∨
      ∃ e es h', h.pendingEvents = e :: es ∧ h.getNextEvent = (e, h') ∧ 0 ≤ e.fd ∧
        h'.pendingEvents = es ∧ h'.registry = h.registry.disarm e.fd := by
  obtain heq | ⟨i, pre, d, ds, hi, hds, hle, hpre, hd, heq⟩ := getNextEvent_cases h
  · refine .inl ⟨?_, heq⟩
    unfold pendingEvents
    cases hi : h.eventIndex with
    | none => rfl
    | some i =>
      cases hrest : (h.descriptors.drop i).dropWhile (fun d => decide (d.revents = 0)) with
      | nil =>
        have hall := List.dropWhile_eq_nil_iff.mp hrest
        have hnil : (h.descriptors.drop i).filter (fun d => decide (d.revents ≠ 0)) = [] :=
          List.filter_eq_nil_iff.mpr fun d hd => by simpa using hall d hd
        dsimp only
        rw [hnil]
        rfl
      | cons d ds =>
        have hindex := congrArg (fun x => x.2.eventIndex) heq
        simp only [getNextEvent, hi, hrest] at hindex
        cases hindex
  · have hmem : d ∈ h.descriptors := hds ▸ List.mem_append_right _ List.mem_cons_self
    have hdrop : h.descriptors.drop i = pre.drop i ++ d :: ds := by
      rw [hds, List.drop_append_of_le_length hle]
    have h0 : 0 ≤ d.fd :=
      hr.wf.nonneg i hi d (hdrop ▸ List.mem_append_right _ List.mem_cons_self) hd
    have hnil : (pre.drop i).filter (fun d => decide (d.revents ≠ 0)) = [] :=
      List.filter_eq_nil_iff.mpr fun p hp => by simpa using hpre p hp
    refine .inr ⟨eventOf d, (ds.filter fun d => d.revents ≠ 0).map eventOf, _, ?_, heq, h0, ?_, ?_⟩
    · unfold pendingEvents
      rw [hi]
      dsimp only
      rw [hdrop, List.filter_append, hnil, List.nil_append,
        List.filter_cons_of_pos (by simpa using hd), List.map_cons]
    · have hlen : (pre ++ { d with fd := negativeFD d.fd } :: ds).drop (pre.length + 1) = ds := by
        rw [List.drop_append, Nat.add_sub_cancel_left, List.drop_eq_nil_of_le (Nat.le_succ _)]
        rfl
      show ((List.drop _ _).filter _).map eventOf = _
      rw [hlen]
    · have hn := hr.nodup
      unfold registry at hn ⊢
      rw [hds] at hn ⊢
      exact map_registration_disarm h0 (hr.wf.lt d hmem) hn

/-! ## One round -/

theorem Regular.reset (hr : h.Regular) (fd : Fd) (flags : Flags) :
    (h.reset fd.toInt flags).Regular where
  wf := hr.wf.reset fd flags
  nodup := by
    rw [registry_reset hr.nodup, map_fd_rearm]
    exact hr.nodup

theorem resetAll_spec (hr : h.Regular) (rs : List (Fd × Flags)) :
    (h.resetAll rs).Regular ∧ (h.resetAll rs).registry = h.registry.resetAll rs ∧
      (h.resetAll rs).pendingEvents = h.pendingEvents := by
  induction rs generalizing h with
  | nil => exact ⟨hr, rfl, rfl⟩
  | cons r rs ih =>
    obtain ⟨hregular, hregistry, hpending⟩ := ih (hr.reset r.1 r.2)
    refine ⟨hregular, hregistry.trans ?_, hpending.trans (pendingEvents_reset hr.wf r.1 r.2)⟩
    rw [registry_reset hr.nodup]
    rfl

theorem Regular.getNextEvent (hr : h.Regular) : h.getNextEvent.2.Regular where
  wf := (getNextEvent_fetches hr.wf).wf
  nodup := by
    obtain ⟨-, heq⟩ | ⟨e, es, h', -, heq, -, -, hregistry⟩ := getNextEvent_spec hr
    · rw [heq]
      exact hr.nodup
    · rw [heq, hregistry, map_fd_disarm]
      exact hr.nodup

/-- The calls of `getNextEvent` end, and return all events. -/
theorem fetchAll_spec (hr : h.Regular) (resets : ℕ → List (Fd × Flags)) (k : ℕ) {fuel : ℕ}
    (hfuel : h.pendingEvents.length < fuel) :
    ∃ h', fetchAll resets fuel k h = some (h.pendingEvents, h') ∧ h'.Regular ∧
      h'.eventIndex = none ∧ h'.registry = h.registry.report resets k h.pendingEvents := by
  induction fuel generalizing h k with
  | zero => exact absurd hfuel (Nat.not_lt_zero _)
  | succ fuel ih =>
    have hnext := hr.getNextEvent
    unfold fetchAll
    obtain ⟨hnil, heq⟩ | ⟨e, es, h', hcons, heq, h0, hpending, hregistry⟩ := getNextEvent_spec hr
    · rw [heq] at hnext ⊢
      rw [hnil]
      exact ⟨_, rfl, hnext, rfl, rfl⟩
    · rw [heq] at hnext ⊢
      obtain ⟨hregular, hreset, hsame⟩ := resetAll_spec hnext (resets k)
      have hlen : (h'.resetAll (resets k)).pendingEvents.length < fuel := by
        rw [hsame, hpending]
        rw [hcons] at hfuel
        exact Nat.lt_of_succ_lt_succ hfuel
      obtain ⟨h'', hfetch, hregular', hnone, hreport⟩ := ih hregular (k + 1) hlen
      have hempty : e.isEmpty = false := decide_eq_false (not_lt.mpr h0)
      dsimp only
      rw [hempty, if_neg Bool.false_ne_true, hfetch, hcons]
      refine ⟨h'', ?_, hregular', hnone, ?_⟩
      · rw [hsame, hpending]
        rfl
      · rw [hreport, hreset, hregistry, hsame, hpending]
        rfl

theorem map_fd_registry (h : PollHandle) :
    h.registry.map (·.fd) = h.descriptors.map fun d => fdOf d.fd := by
  rw [registry, List.map_map]
  rfl

theorem request_refines (hr : h.Regular) (q : PollRequest) :
    (h.request q).map registry = h.registry.request q := by
  unfold request Registry.request PollRequest.apply
  rw [map_fd_registry]
  cases q.type with
  | none => exact congrArg some rfl
  | reset => exact congrArg some (registry_reset hr.nodup q.fd q.flags)
  | remove => exact congrArg some (registry_remove h q.fd)
  | add =>
    by_cases hq : q.fd.toInt ∈ h.descriptors.map fun d => fdOf d.fd
    · rw [if_pos ⟨rfl, hq⟩, if_pos hq]
      rfl
    · rw [if_neg fun hboth => hq hboth.2, if_neg hq]
      exact congrArg some (registry_add h q.fd q.flags)

/-- Before a round all events of the last one are fetched. -/
structure Idle (h : PollHandle) : Prop extends h.Regular where
  fetched : h.eventIndex = none

theorem Idle.request (hi : h.Idle) {q : PollRequest} (hq : h.request q = some h') : h'.Idle := by
  unfold PollHandle.request at hq
  split_ifs at hq with hadd
  cases hq
  unfold PollRequest.apply
  cases htype : q.type with
  | none => exact hi
  | reset => exact ⟨hi.toRegular.reset q.fd q.flags, hi.fetched⟩
  | remove =>
    refine ⟨⟨hi.wf.remove hi.fetched q.fd.toInt, ?_⟩, hi.fetched⟩
    dsimp only
    rw [registry_remove]
    exact hi.nodup.sublist (List.filter_sublist.map _)
  | add =>
    refine ⟨⟨hi.wf.add q.fd q.flags, ?_⟩, hi.fetched⟩
    dsimp only
    rw [registry_add, Registry.register, List.map_append]
    refine List.nodup_append.mpr ⟨hi.nodup, by simp, fun x hx y hy hxy => ?_⟩
    have hmem : q.fd.toInt ∈ h.registry.map (·.fd) := by
      have hy : y = q.fd.toInt := List.mem_singleton.mp hy
      rw [← hy, ← hxy]
      exact hx
    exact hadd ⟨htype, map_fd_registry h ▸ hmem⟩

theorem Idle.requests (hi : h.Idle) {qs : List PollRequest} (hq : h.requests qs = some h') :
    h'.Idle :=
  GuardedRun.run_inv (fun _ _ _ hs hq => Idle.request hs hq) hi hq

theorem requests_refine (hi : h.Idle) (qs : List PollRequest) :
    (h.requests qs).map registry = h.registry.requests qs := by
  unfold requests Registry.requests
  induction qs generalizing h with
  | nil => rfl
  | cons q qs ih =>
    rw [GuardedRun.run_cons, GuardedRun.run_cons, ← request_refines hi.toRegular]
    cases hq : h.request q with
    | none => rfl
    | some t => exact ih (hi.request hq)

theorem length_pendingEvents_le (h : PollHandle) :
    h.pendingEvents.length ≤ h.descriptors.length := by
  unfold pendingEvents
  cases h.eventIndex with
  | none => exact Nat.zero_le _
  | some i =>
    dsimp only
    rw [List.length_map]
    exact (List.length_filter_le _ _).trans (by simp)

theorem waitFor_spec (hr : h.Regular) (ready : Option (ℤ → BitVec 16)) :
    (h.waitFor ready = none ∧ h.registry.wait ready = none) ∨
      ∃ h', h.waitFor ready = some h' ∧ h'.Regular ∧ h'.registry = h.registry ∧
        h.registry.wait ready = some h'.pendingEvents := by
  cases ready with
  | none => exact .inr ⟨_, rfl, ⟨hr.wf.interrupt, hr.nodup⟩, rfl, rfl⟩
  | some ready =>
    unfold waitFor Registry.wait
    dsimp only
    cases hwait : h.wait ready with
    | none => exact .inl ⟨rfl, if_pos (wait_eq_none_iff.mp hwait)⟩
    | some h' =>
      have hfound : h.registry.found ready ≠ [] := fun hnil => by
        rw [wait_eq_none_iff.mpr hnil] at hwait
        cases hwait
      have hregistry := registry_wait hwait
      refine .inr ⟨h', rfl, ⟨hr.wf.wait hwait, hregistry ▸ hr.nodup⟩, hregistry, ?_⟩
      rw [if_neg hfound, pendingEvents_wait hwait]

/-- Everything that a round does, in the code and on the registry. -/
theorem round_spec (hr : h.Regular) (r : Round) :
    (h.round r = none ∧ h.registry.round r = none) ∨
      ∃ (events : List PollHandle.PollEvent) (h₁ : PollHandle), h₁.Idle ∧
        h.registry.wait r.ready = some events ∧
        h₁.registry = h.registry.report r.resets 0 events ∧
        h.round r = (h₁.requests r.requests).map fun h' => (events, h') := by
  unfold round Registry.round
  obtain ⟨hwait, hnone⟩ | ⟨h', hwait, hr', hregistry, hevents⟩ := waitFor_spec hr r.ready
  · rw [hwait, hnone]
    exact .inl ⟨rfl, rfl⟩
  · obtain ⟨h₁, hfetch, hr₁, hfetched, hreport⟩ := fetchAll_spec hr' r.resets 0
      (Nat.lt_succ_of_le (length_pendingEvents_le h'))
    refine .inr ⟨h'.pendingEvents, h₁, ⟨hr₁, hfetched⟩, hevents, hregistry ▸ hreport, ?_⟩
    rw [hwait, Option.bind_eq_bind, Option.bind_some, hfetch, Option.bind_eq_bind,
      Option.bind_some, Option.map_eq_bind]
    rfl

/-- **A round is one of the registry.** -/
theorem round_refines (hr : h.Regular) (r : Round) :
    (h.round r).map (Prod.map id registry) = h.registry.round r := by
  obtain ⟨hround, hnone⟩ | ⟨events, h₁, hi, hwait, hreport, hround⟩ := round_spec hr r
  · rw [hround, hnone]
    rfl
  · rw [hround, Registry.round, hwait, Option.bind_some, ← hreport, ← requests_refine hi,
      Option.map_map, Option.map_map]
    rfl

theorem Idle.round (hr : h.Regular) {r : Round} {events : List PollHandle.PollEvent}
    (hround : h.round r = some (events, h')) : h'.Idle := by
  obtain ⟨hnone, -⟩ | ⟨_, h₁, hi, -, -, heq⟩ := round_spec hr r
  · rw [hnone] at hround
    cases hround
  · rw [heq] at hround
    obtain ⟨h₂, hrequests, hpair⟩ := Option.map_eq_some_iff.mp hround
    cases hpair
    exact hi.requests hrequests

theorem idle_empty : ({} : PollHandle).Idle where
  wf := .of_none (fun _ hd => nomatch hd) rfl
  nodup := List.nodup_nil
  fetched := rfl

theorem run_refines (start : List PollRequest) (rs : List Round) :
    (run start rs).map (Prod.map id registry) = Registry.run start rs := by
  have hstart := requests_refine idle_empty start
  unfold run Registry.run
  rw [show (({} : PollHandle).registry : Registry) = [] from rfl] at hstart
  rw [← hstart]
  cases hrequests : ({} : PollHandle).requests start with
  | none => rfl
  | some h =>
    exact GuardedRun.outputs_simulates (I := Regular) (fun _ _ _ _ hr hs => (Idle.round hr hs).1)
      (fun _ r hr => round_refines hr r) (idle_empty.requests hrequests).1 rs

end PollHandle

/-! ## Silence -/

namespace Registry

variable {g g' : Registry} {x : ℤ}

/-- Nothing is reported for the descriptor. -/
def Silent (g : Registry) (x : ℤ) : Prop := ∀ y ∈ g, y.fd = x → y.armed = false

theorem Silent.not_found (hs : g.Silent x) (ready : ℤ → BitVec 16) :
    x ∉ (g.found ready).map (·.fd) := by
  intro hx
  obtain ⟨e, he, rfl⟩ := List.mem_map.mp hx
  obtain ⟨y, hy, rfl⟩ := List.mem_map.mp he
  obtain ⟨hmem, hfound⟩ := List.mem_filter.mp hy
  rw [hs y hmem rfl, Bool.false_and] at hfound
  cases hfound

theorem Silent.disarm (hs : g.Silent x) (fd : ℤ) : (g.disarm fd).Silent x := by
  intro y hy hfd
  obtain ⟨z, hz, rfl⟩ := List.mem_map.mp hy
  split_ifs at hfd ⊢
  · rfl
  · exact hs z hz hfd

theorem silent_disarm (g : Registry) (x : ℤ) : (g.disarm x).Silent x := by
  intro y hy hfd
  obtain ⟨z, hz, rfl⟩ := List.mem_map.mp hy
  split_ifs at hfd ⊢ with hz
  · rfl
  · exact absurd hfd hz

theorem Silent.rearm (hs : g.Silent x) {fd : ℤ} (hfd : fd ≠ x) (flags : Flags) :
    (g.rearm fd flags).Silent x := by
  intro y hy heq
  obtain ⟨z, hz, rfl⟩ := List.mem_map.mp hy
  split_ifs at heq ⊢
  · exact absurd heq hfd
  · exact hs z hz heq

theorem Silent.resetAll (hs : g.Silent x) {rs : List (Fd × Flags)}
    (hrs : ∀ r ∈ rs, r.1.toInt ≠ x) : (g.resetAll rs).Silent x := by
  induction rs generalizing g with
  | nil => exact hs
  | cons r rs ih =>
    exact ih (hs.rearm (hrs r List.mem_cons_self) r.2) fun q hq => hrs q (List.mem_cons_of_mem _ hq)

/-- What is reported, and what was silent before, is silent where it is not reset. -/
theorem silent_report {resets : ℕ → List (Fd × Flags)}
    (hresets : ∀ k, ∀ r ∈ resets k, r.1.toInt ≠ x) {es : List PollHandle.PollEvent} {k : ℕ}
    (hs : g.Silent x ∨ x ∈ es.map (·.fd)) : (g.report resets k es).Silent x := by
  induction es generalizing g k with
  | nil => exact hs.resolve_right fun hx => nomatch hx
  | cons e es ih =>
    refine ih ?_
    rw [List.map_cons, List.mem_cons] at hs
    obtain hs | rfl | hx := hs
    · exact .inl ((hs.disarm e.fd).resetAll (hresets k))
    · exact .inl ((silent_disarm g e.fd).resetAll (hresets k))
    · exact .inr hx

theorem Silent.request (hs : g.Silent x) {q : PollRequest}
    (hq : q.fd.toInt = x → q.type ≠ .reset ∧ q.type ≠ .add) (hg : g.request q = some g') :
    g'.Silent x := by
  unfold Registry.request at hg
  cases htype : q.type with
  | none =>
    rw [htype] at hg
    cases hg
    exact hs
  | reset =>
    rw [htype] at hg
    cases hg
    exact hs.rearm (fun heq => (hq heq).1 htype) q.flags
  | remove =>
    rw [htype] at hg
    cases hg
    exact fun y hy => hs y (List.mem_of_mem_filter hy)
  | add =>
    rw [htype] at hg
    dsimp only at hg
    split_ifs at hg
    cases hg
    intro y hy hfd
    obtain hy | hy := List.mem_append.mp hy
    · exact hs y hy hfd
    · rw [List.mem_singleton.mp hy] at hfd
      exact absurd htype (hq hfd).2

theorem Silent.requests (hs : g.Silent x) {qs : List PollRequest}
    (hqs : ∀ q ∈ qs, q.fd.toInt = x → q.type ≠ .reset ∧ q.type ≠ .add)
    (hg : g.requests qs = some g') : g'.Silent x := by
  unfold Registry.requests at hg
  induction qs generalizing g with
  | nil => exact Option.some.inj hg ▸ hs
  | cons q qs ih =>
    obtain ⟨t, ht, hg⟩ := GuardedRun.run_cons_eq_some.mp hg
    exact ih (hs.request (hqs q List.mem_cons_self) ht)
      (fun p hp => hqs p (List.mem_cons_of_mem _ hp)) hg

/-- The events of a round, and the requests behind them. -/
theorem round_eq_some {r : Round} {events : List PollHandle.PollEvent} :
    g.round r = some (events, g') ↔ g.wait r.ready = some events ∧
      (g.report r.resets 0 events).requests r.requests = some g' := by
  unfold Registry.round
  rw [Option.bind_eq_some_iff]
  constructor
  · rintro ⟨es, hwait, hrest⟩
    obtain ⟨t, hrequests, heq⟩ := Option.map_eq_some_iff.mp hrest
    cases heq
    exact ⟨hwait, hrequests⟩
  · rintro ⟨hwait, hrequests⟩
    exact ⟨events, hwait, Option.map_eq_some_iff.mpr ⟨g', hrequests, rfl⟩⟩

theorem wait_eq_some {ready : Option (ℤ → BitVec 16)} {events : List PollHandle.PollEvent}
    (hw : g.wait ready = some events) : events = [] ∨ ∃ f, events = g.found f := by
  unfold wait at hw
  cases ready with
  | none => exact .inl (Option.some.inj hw).symm
  | some f =>
    dsimp only at hw
    split_ifs at hw
    exact .inr ⟨f, (Option.some.inj hw).symm⟩

theorem Silent.not_reported (hs : g.Silent x) {r : Round} {events : List PollHandle.PollEvent}
    (hround : g.round r = some (events, g')) : x ∉ events.map (·.fd) := by
  obtain rfl | ⟨f, rfl⟩ := wait_eq_some (round_eq_some.mp hround).1
  · exact fun hx => nomatch hx
  · exact hs.not_found f

theorem silent_round {r : Round} {events : List PollHandle.PollEvent} (hr : ¬r.Resets x)
    (ha : ¬r.Adds x) (hround : g.round r = some (events, g'))
    (hs : g.Silent x ∨ x ∈ events.map (·.fd)) : g'.Silent x := by
  refine Silent.requests (silent_report (fun k p hp heq => ?_) hs) (fun q hq heq => ⟨?_, ?_⟩)
    (round_eq_some.mp hround).2
  · exact hr (.inl ⟨k, p, hp, heq⟩)
  · exact fun htype => hr (.inr ⟨q, hq, heq, htype⟩)
  · exact fun htype => ha ⟨q, hq, heq, htype⟩

/-- A silent descriptor is reported after it was reset or added only. -/
theorem Silent.outputs (hs : g.Silent x) {rs : List Round}
    {reports : List (List PollHandle.PollEvent)}
    (hrun : GuardedRun.outputs Registry.round g rs = some (reports, g')) {j : ℕ}
    {es : List PollHandle.PollEvent} (hj : reports[j]? = some es) (hx : x ∈ es.map (·.fd)) :
    ∃ k r, k < j ∧ rs[k]? = some r ∧ (r.Resets x ∨ r.Adds x) := by
  induction rs generalizing g reports j with
  | nil =>
    cases hrun
    cases hj
  | cons r rs ih =>
    obtain ⟨events, t, rest, hround, hrest, rfl⟩ := GuardedRun.outputs_cons_eq_some.mp hrun
    cases j with
    | zero =>
      cases hj
      exact absurd hx (hs.not_reported hround)
    | succ j =>
      by_cases hr : r.Resets x ∨ r.Adds x
      · exact ⟨0, r, Nat.succ_pos j, rfl, hr⟩
      · obtain ⟨hreset, hadd⟩ := not_or.mp hr
        obtain ⟨k, q, hk, hq, hqs⟩ := ih (silent_round hreset hadd hround (.inl hs)) hrest hj
        exact ⟨k + 1, q, Nat.succ_lt_succ hk, hq, hqs⟩

/-- A descriptor is reported twice only where it was reset or added in between. -/
theorem reported_twice {rs : List Round} {reports : List (List PollHandle.PollEvent)}
    (hrun : GuardedRun.outputs Registry.round g rs = some (reports, g')) {i j : ℕ} (hij : i < j)
    {es es' : List PollHandle.PollEvent} (hi : reports[i]? = some es) (hj : reports[j]? = some es')
    (hx : x ∈ es.map (·.fd)) (hx' : x ∈ es'.map (·.fd)) :
    ∃ k r, i ≤ k ∧ k < j ∧ rs[k]? = some r ∧ (r.Resets x ∨ r.Adds x) := by
  induction rs generalizing g reports i j with
  | nil =>
    cases hrun
    cases hj
  | cons r rs ih =>
    obtain ⟨events, t, rest, hround, hrest, rfl⟩ := GuardedRun.outputs_cons_eq_some.mp hrun
    obtain ⟨j, rfl⟩ := Nat.exists_eq_succ_of_ne_zero (Nat.ne_of_gt (Nat.zero_lt_of_lt hij))
    cases i with
    | succ i =>
      obtain ⟨k, q, hik, hkj, hq, hqs⟩ := ih hrest (Nat.lt_of_succ_lt_succ hij) hi hj
      exact ⟨k + 1, q, Nat.succ_le_succ hik, Nat.succ_lt_succ hkj, hq, hqs⟩
    | zero =>
      cases hi
      by_cases hr : r.Resets x ∨ r.Adds x
      · exact ⟨0, r, Nat.le_refl 0, hij, rfl, hr⟩
      · obtain ⟨hreset, hadd⟩ := not_or.mp hr
        obtain ⟨k, q, hk, hq, hqs⟩ :=
          (silent_round hreset hadd hround (.inr hx)).outputs hrest hj hx'
        exact ⟨k + 1, q, Nat.zero_le _, Nat.succ_lt_succ hk, hq, hqs⟩

end Registry

/-! ## Every sequence of rounds -/

namespace PollHandle

variable {h h' : PollHandle}

theorem nodup_events (hr : h.Regular) {r : Round} {events : List PollHandle.PollEvent}
    (hw : h.registry.wait r.ready = some events) : (events.map (·.fd)).Nodup := by
  obtain rfl | ⟨f, rfl⟩ := Registry.wait_eq_some hw
  · exact List.nodup_nil
  · rw [Registry.found, List.map_map]
    exact hr.nodup.sublist (List.filter_sublist.map _)

theorem nodup_outputs (hr : h.Regular) {rs : List Round}
    {reports : List (List PollHandle.PollEvent)}
    (hrun : GuardedRun.outputs round h rs = some (reports, h')) :
    ∀ es ∈ reports, (es.map (·.fd)).Nodup := by
  induction rs generalizing h reports with
  | nil =>
    cases hrun
    exact fun es hes => nomatch hes
  | cons r rs ih =>
    obtain ⟨events, t, rest, hround, hrest, rfl⟩ := GuardedRun.outputs_cons_eq_some.mp hrun
    refine List.forall_mem_cons.mpr ⟨?_, ih (Idle.round hr hround).1 hrest⟩
    have hg := round_refines hr r
    rw [hround] at hg
    exact nodup_events hr (Registry.round_eq_some.mp hg.symm).1

end PollHandle

/-- **The rounds of the code are those of the registry: in each round exactly the armed descriptors
that are ready are reported, in the order of their registration and with their own flags. None is
reported twice in a round, nor in a later round before it is reset, or added anew.** -/
theorem run_reports (start : List PollRequest) (rs : List Round) :
    (PollHandle.run start rs).map (Prod.map id PollHandle.registry) = Registry.run start rs ∧
      ∀ reports h, PollHandle.run start rs = some (reports, h) →
        (∀ es ∈ reports, (es.map (·.fd)).Nodup) ∧
          ∀ (i j : ℕ) (es es' : List PollHandle.PollEvent) (x : ℤ), i < j →
            reports[i]? = some es → reports[j]? = some es' → x ∈ es.map (·.fd) →
            x ∈ es'.map (·.fd) →
            ∃ k r, i ≤ k ∧ k < j ∧ rs[k]? = some r ∧ (r.Resets x ∨ r.Adds x) := by
  refine ⟨PollHandle.run_refines start rs, fun reports h hrun => ?_⟩
  have hregistry := PollHandle.run_refines start rs
  rw [hrun] at hregistry
  obtain ⟨g, -, houtputs⟩ := Option.bind_eq_some_iff.mp hregistry.symm
  obtain ⟨h₀, hstart, hrounds⟩ := Option.bind_eq_some_iff.mp hrun
  have hr : h₀.Regular := (PollHandle.idle_empty.requests hstart).1
  refine ⟨PollHandle.nodup_outputs hr hrounds, fun i j es es' x hij hi hj hx hx' => ?_⟩
  exact Registry.reported_twice houtputs hij hi hj hx hx'

private def pairFirst : Fd := ⟨0, by decide⟩

private def pairSecond : Fd := ⟨5, by decide⟩

private def pairStart : List PollRequest :=
  [{ type := .add, fd := pairFirst, flags := EPollFlags.input },
    { type := .add, fd := pairSecond, flags := EPollFlags.output }]

/-- Both are ready and the first is reset at once. Then only this one is reported, and the second is
reset behind it. -/
private def pairRounds : List Round :=
  [{ ready := some fun _ => POLLIN ||| POLLOUT
     resets := fun k => if k = 0 then [(pairFirst, EPollFlags.input)] else [] },
    { ready := some fun _ => POLLIN ||| POLLOUT
      requests := [{ type := .reset, fd := pairSecond, flags := EPollFlags.output }] },
    { ready := some fun _ => POLLIN ||| POLLOUT }]

theorem run_reports_pair :
    ∃ reports h, PollHandle.run pairStart pairRounds = some (reports, h) ∧
      reports.map (fun es => es.map (·.fd)) = [[0, 5], [0], [5]] ∧
      ∃ k r, 0 ≤ k ∧ k < 2 ∧ pairRounds[k]? = some r ∧ (r.Resets 5 ∨ r.Adds 5) :=
  ⟨_, _, rfl, by decide,
    ((run_reports pairStart pairRounds).2 _ _ rfl).2 0 2 _ _ 5 (by decide) rfl rfl (by decide)
      (by decide)⟩

/-- A descriptor that is removed after its event and added again is reported without a reset. -/
theorem reported_without_reset :
    ¬∀ (start : List PollRequest) (rs : List Round) (reports : List (List PollHandle.PollEvent))
        (h : PollHandle), PollHandle.run start rs = some (reports, h) →
        ∀ (i j : ℕ) (es es' : List PollHandle.PollEvent) (x : ℤ), i < j →
          reports[i]? = some es → reports[j]? = some es' → x ∈ es.map (·.fd) →
          x ∈ es'.map (·.fd) → ∃ k r, i ≤ k ∧ k < j ∧ rs[k]? = some r ∧ r.Resets x := by
  intro hall
  obtain ⟨k, r, -, hk, hr, hresets⟩ := hall
    [{ type := .add, fd := pairSecond, flags := EPollFlags.input }]
    [{ ready := some fun _ => POLLIN
       requests := [{ type := .remove, fd := pairSecond },
         { type := .add, fd := pairSecond, flags := EPollFlags.input }] },
      { ready := some fun _ => POLLIN }]
    _ _ rfl 0 1 _ _ 5 (by decide) rfl rfl (by decide) (by decide)
  obtain rfl := Nat.lt_one_iff.mp hk
  cases hr
  obtain ⟨k, x, hx, -⟩ | ⟨q, hq, -, htype⟩ := hresets
  · cases hx
  · simp only [List.mem_cons, List.not_mem_nil, or_false] at hq
    obtain rfl | rfl := hq <;> cases htype

end Conntop
