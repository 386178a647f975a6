import Conntop.Lib.GuardedRun
import Conntop.PollHandle
import Mathlib.Logic.Function.Basic

/-!
# `PollSystem`

Two threads. The main thread registers descriptors, changes what they are polled for, removes them
and runs the callback of each event. The poll thread runs `pollLoop` over its `PollHandle`. What the
main thread wants reaches the poll thread through `m_requestQueue`, and a byte in a pipe wakes it.
Events come back through the event queue.

* Each step of a thread touches one of the shared queues or the pipe once. `pushRequest` is two
  steps, `SelfPipe::clear` is one for each `read`, and so is each turn of the loops of `pollLoop`.
* The pipe takes `capacity` bytes. A byte that does not fit is dropped.
* The read end of the pipe stays open, so no other descriptor has its number. Any other number may
  come back at any time: `addFD` may be called for it again after `removeFD`.
* `m_isRunning` is true. What `poll` throws on an error other than an interrupt ends the program.

Every `addFD` makes a registration with a number of its own, which is what the callback map holds.
It is also in the request, where the program has no number. `pushed`, `completed`, `applied`,
`actions`, `waited` and `calls` are no part of the program: they record the requests in the queue
and those behind it, what the poll thread has done to its `PollHandle`, the requests that were
applied before the last `wait`, and the callbacks that ran.

Main results: `Wakes.step`, what holds between the steps so that no request is left behind, and
`run_reaches`, when an event reaches the registration that it was raised for.
-/

namespace Conntop

/-! ## Requests -/

namespace PollRequest

inductive EType
  | none | add | reset | remove
  deriving DecidableEq, Repr

end PollRequest

structure PollRequest where
  type : PollRequest.EType
  fd : Fd
  flags : Flags := 0
  registration : ℕ := 0
  deriving DecidableEq, Repr

/-- What the poll thread does with a request. -/
def PollRequest.apply (r : PollRequest) (h : PollHandle) : PollHandle :=
  match r.type with
  | .reset => h.reset r.fd.toInt r.flags
  | .add => h.add r.fd.toInt r.flags
  | .remove => h.remove r.fd.toInt
  | .none => h

/-- What a request does to the watched descriptors. -/
def PollRequest.watch (ws : List (ℤ × BitVec 16)) (r : PollRequest) : List (ℤ × BitVec 16) :=
  match r.type with
  | .reset => PollHandle.rewatch r.fd.toInt (flagsToEvents r.flags) ws
  | .add => ws ++ [(r.fd.toInt, flagsToEvents r.flags)]
  | .remove => ws.filter fun w => w.1 ≠ r.fd.toInt
  | .none => ws

/-- What a request does to the registration of one descriptor. -/
def PollRequest.register (fd : ℤ) (registration : Option ℕ) (r : PollRequest) : Option ℕ :=
  if r.fd.toInt = fd then
    match r.type with
    | .add => some r.registration
    | .remove => none
    | .reset | .none => registration
  else registration

/-- The registration of a descriptor after the requests: that of its last ADD, if no REMOVE came
after it. -/
def registered (fd : ℤ) (rs : List PollRequest) : Option ℕ :=
  rs.foldl (PollRequest.register fd) none

/-! ## The two threads -/

/-- Where the poll thread is: in `wait`, at the events, with `checkRequestQueue`, in
`SelfPipe::clear`, or at the request queue. -/
inductive PollStage
  | waiting
  | fetching (checkRequestQueue : Bool)
  | clearing
  | dequeuing
  deriving DecidableEq, Repr

/-- Whether the pipe's event is fetched already, so that the request queue is drained before the
next `wait`. -/
def PollStage.drains : PollStage → Bool
  | .waiting => false
  | .fetching checkRequestQueue => checkRequestQueue
  | .clearing | .dequeuing => true

/-- An event in the event queue, and the requests that were applied before the `wait` that observed
it. -/
structure QueuedEvent where
  event : PollHandle.PollEvent
  waited : List PollRequest
  deriving DecidableEq, Repr

/-- What the poll thread does to its `PollHandle`: it applies a request, it fetches the event of a
descriptor, or it has cleared the pipe and resets it. -/
inductive PollAction
  | request (r : PollRequest)
  | event (fd : ℤ)
  | cleared
  deriving DecidableEq, Repr

structure PollSystem where
  callbackMap : ℤ → Option ℕ := fun _ => none
  registrations : ℕ := 0
  requestQueue : List PollRequest := []
  /-- The main thread is between the two halves of `pushRequest`. -/
  isPushing : Bool := false
  pipe : ℕ := 0
  eventQueue : List QueuedEvent := []
  pollHandle : PollHandle
  stage : PollStage := .waiting
  pushed : List PollRequest := []
  completed : List PollRequest := []
  applied : List PollRequest := []
  actions : List PollAction := []
  waited : List PollRequest := []
  calls : List (QueuedEvent × ℕ) := []

namespace PollSystem

variable (pipeFD : Fd) (capacity : ℕ) (s : PollSystem)

/-- Before the first `wait`. -/
def init : PollSystem :=
  { pollHandle := ({} : PollHandle).add pipeFD.toInt EPollFlags.input }

/-- The first half of `pushRequest`. -/
def emplace (r : PollRequest) : PollSystem :=
  { s with requestQueue := s.requestQueue ++ [r], pushed := s.pushed ++ [r], isPushing := true }

/-- The second half of `pushRequest`. -/
def wakePollThread : PollSystem :=
  { s with
    pipe := if s.pipe < capacity then s.pipe + 1 else s.pipe
    isPushing := false
    completed := s.pushed }

def addFD (fd : Fd) (flags : Flags) : PollSystem :=
  if (s.callbackMap fd.toInt).isSome then s
  else
    ({ s with
      callbackMap := Function.update s.callbackMap fd.toInt (some s.registrations)
      registrations := s.registrations + 1 } : PollSystem).emplace
      { type := .add, fd := fd, flags := flags, registration := s.registrations }

def resetFD (fd : Fd) (flags : Flags) : PollSystem :=
  s.emplace { type := .reset, fd := fd, flags := flags }

def removeFD (fd : Fd) : PollSystem :=
  match s.callbackMap fd.toInt with
  | some registration =>
    ({ s with callbackMap := Function.update s.callbackMap fd.toInt none } : PollSystem).emplace
      { type := .remove, fd := fd, registration := registration }
  | none => s

def onEvent (e : QueuedEvent) : PollSystem :=
  match s.callbackMap e.event.fd with
  | some registration => { s with calls := s.calls ++ [(e, registration)] }
  | none => s

/-- One turn of the loop over the events. -/
def fetch (checkRequestQueue : Bool) : PollSystem :=
  let (event, pollHandle) := s.pollHandle.getNextEvent
  if event.isEmpty then
    { s with
      pollHandle := pollHandle
      stage := if checkRequestQueue then .dequeuing else .waiting }
  else if event.fd = pipeFD.toInt then
    { s with
      pollHandle := pollHandle
      stage := .clearing
      actions := s.actions ++ [.event event.fd] }
  else
    { s with
      pollHandle := pollHandle
      actions := s.actions ++ [.event event.fd]
      eventQueue := s.eventQueue ++ [{ event := event, waited := s.waited }] }

/-- Everything that a turn of the loop over the events can do. -/
theorem fetch_cases (c : Bool) :
    (s.pollHandle.getNextEvent.1.isEmpty = true ∧ s.fetch pipeFD c =
      { s with
        pollHandle := s.pollHandle.getNextEvent.2
        stage := if c then .dequeuing else .waiting }) ∨
    (s.pollHandle.getNextEvent.1.isEmpty = false ∧
      s.pollHandle.getNextEvent.1.fd = pipeFD.toInt ∧ s.fetch pipeFD c =
      { s with
        pollHandle := s.pollHandle.getNextEvent.2
        stage := .clearing
        actions := s.actions ++ [.event s.pollHandle.getNextEvent.1.fd] }) ∨
    (s.pollHandle.getNextEvent.1.isEmpty = false ∧
      s.pollHandle.getNextEvent.1.fd ≠ pipeFD.toInt ∧ s.fetch pipeFD c =
      { s with
        pollHandle := s.pollHandle.getNextEvent.2
        actions := s.actions ++ [.event s.pollHandle.getNextEvent.1.fd]
        eventQueue := s.eventQueue ++
          [{ event := s.pollHandle.getNextEvent.1, waited := s.waited }] }) := by
  rw [fetch]
  obtain ⟨event, pollHandle⟩ := s.pollHandle.getNextEvent
  by_cases he : event.isEmpty
  · exact .inl ⟨he, by simp only [he, if_true]⟩
  · have he := Bool.eq_false_of_not_eq_true he
    by_cases hfd : event.fd = pipeFD.toInt
    · exact .inr (.inl ⟨he, hfd, by simp only [he, hfd, if_true, Bool.false_eq_true, if_false]⟩)
    · exact .inr (.inr ⟨he, hfd, by simp only [he, hfd, Bool.false_eq_true, if_false]⟩)

/-- The buffer of `SelfPipe::clear`. -/
def bufferSize : ℕ := 2048

/-- One turn of the loop of `SelfPipe::clear`, and what comes behind the last one. -/
def readData : PollSystem :=
  let length := min s.pipe bufferSize
  if length < bufferSize then
    { s with
      pipe := s.pipe - length
      pollHandle := s.pollHandle.reset pipeFD.toInt EPollFlags.input
      stage := .fetching true
      actions := s.actions ++ [.cleared] }
  else { s with pipe := s.pipe - length }

/-- One turn of the loop over the requests. -/
def dequeue : PollSystem :=
  match s.requestQueue with
  | r :: rs =>
    { s with
      requestQueue := rs
      pollHandle := r.apply s.pollHandle
      applied := s.applied ++ [r]
      actions := s.actions ++ [.request r] }
  | [] => { s with stage := .waiting }

/-- What the kernel reports for the pipe, and for the other descriptors. -/
def readiness (ready : ℤ → BitVec 16) (fd : ℤ) : BitVec 16 :=
  if fd = pipeFD.toInt then if 0 < s.pipe then POLLIN else 0 else ready fd

/-! ## Runs -/

inductive Op
  | addFD (fd : Fd) (flags : Flags)
  | resetFD (fd : Fd) (flags : Flags)
  | removeFD (fd : Fd)
  | wake
  | onEvent
  | wait (ready : ℤ → BitVec 16)
  | interrupt
  | getNextEvent
  | readData
  | dequeue

def step (op : Op) : Option PollSystem :=
  match op with
  | .addFD fd flags => if s.isPushing ∨ fd = pipeFD then none else some (s.addFD fd flags)
  | .resetFD fd flags => if s.isPushing ∨ fd = pipeFD then none else some (s.resetFD fd flags)
  | .removeFD fd => if s.isPushing ∨ fd = pipeFD then none else some (s.removeFD fd)
  | .wake => if s.isPushing then some (s.wakePollThread capacity) else none
  | .onEvent =>
    match s.eventQueue with
    | e :: es =>
      if s.isPushing then none else some (({ s with eventQueue := es } : PollSystem).onEvent e)
    | [] => none
  | .wait ready =>
    if s.stage = .waiting then
      (s.pollHandle.wait (s.readiness pipeFD ready)).map fun pollHandle =>
        { s with pollHandle := pollHandle, stage := .fetching false, waited := s.applied }
    else none
  | .interrupt =>
    if s.stage = .waiting then
      some { s with pollHandle := s.pollHandle.interrupt, stage := .fetching false }
    else none
  | .getNextEvent =>
    match s.stage with
    | .fetching checkRequestQueue => some (s.fetch pipeFD checkRequestQueue)
    | _ => none
  | .readData => if s.stage = .clearing then some (s.readData pipeFD) else none
  | .dequeue => if s.stage = .dequeuing then some s.dequeue else none

/-- The system after the steps of both threads, from the start of the poll thread. -/
def run (ops : List Op) : Option PollSystem :=
  GuardedRun.run (step pipeFD capacity) (init pipeFD) ops

/-- What a step finds, and the system that it leaves. -/
inductive Steps : Op → PollSystem → Prop
  | addFD {fd : Fd} (flags : Flags) (hfd : fd ≠ pipeFD) : Steps (.addFD fd flags) (s.addFD fd flags)
  | resetFD {fd : Fd} (flags : Flags) (hfd : fd ≠ pipeFD) :
    Steps (.resetFD fd flags) (s.resetFD fd flags)
  | removeFD {fd : Fd} (hfd : fd ≠ pipeFD) : Steps (.removeFD fd) (s.removeFD fd)
  | wake : Steps .wake (s.wakePollThread capacity)
  | onEvent {e : QueuedEvent} {es : List QueuedEvent} (hqueue : s.eventQueue = e :: es) :
    Steps .onEvent (({ s with eventQueue := es } : PollSystem).onEvent e)
  | wait {ready : ℤ → BitVec 16} {pollHandle : PollHandle} (hstage : s.stage = .waiting)
    (hwait : s.pollHandle.wait (s.readiness pipeFD ready) = some pollHandle) :
    Steps (.wait ready)
      { s with pollHandle := pollHandle, stage := .fetching false, waited := s.applied }
  | interrupt (hstage : s.stage = .waiting) :
    Steps .interrupt { s with pollHandle := s.pollHandle.interrupt, stage := .fetching false }
  | getNextEvent {checkRequestQueue : Bool} (hstage : s.stage = .fetching checkRequestQueue) :
    Steps .getNextEvent (s.fetch pipeFD checkRequestQueue)
  | readData (hstage : s.stage = .clearing) : Steps .readData (s.readData pipeFD)
  | dequeue (hstage : s.stage = .dequeuing) : Steps .dequeue s.dequeue

theorem step_cases {pipeFD : Fd} {capacity : ℕ} {s s' : PollSystem} {op : Op}
    (h : s.step pipeFD capacity op = some s') : Steps pipeFD capacity s op s' := by
  cases op <;> rw [step] at h
  case addFD fd flags =>
    split_ifs at h with hg
    exact Option.some.inj h ▸ .addFD flags (not_or.mp hg).2
  case resetFD fd flags =>
    split_ifs at h with hg
    exact Option.some.inj h ▸ .resetFD flags (not_or.mp hg).2
  case removeFD fd =>
    split_ifs at h with hg
    exact Option.some.inj h ▸ .removeFD (not_or.mp hg).2
  case wake =>
    split_ifs at h
    exact Option.some.inj h ▸ .wake
  case onEvent =>
    cases hqueue : s.eventQueue with
    | nil => rw [hqueue] at h; cases h
    | cons e es =>
      rw [hqueue] at h
      split_ifs at h
      exact Option.some.inj h ▸ .onEvent hqueue
  case wait ready =>
    split_ifs at h with hstage
    obtain ⟨pollHandle, hwait, rfl⟩ := Option.map_eq_some_iff.mp h
    exact .wait hstage hwait
  case interrupt =>
    split_ifs at h with hstage
    exact Option.some.inj h ▸ .interrupt hstage
  case getNextEvent =>
    cases hstage : s.stage with
    | fetching checkRequestQueue =>
      rw [hstage] at h
      exact Option.some.inj h ▸ .getNextEvent hstage
    | waiting | clearing | dequeuing => rw [hstage] at h; cases h
  case readData =>
    split_ifs at h with hstage
    exact Option.some.inj h ▸ .readData hstage
  case dequeue =>
    split_ifs at h with hstage
    exact Option.some.inj h ▸ .dequeue hstage

/-! ## No request is left behind -/

/-- The watched descriptors after the requests. -/
def watchedAfter (rs : List PollRequest) : List (ℤ × BitVec 16) :=
  rs.foldl PollRequest.watch [(pipeFD.toInt, flagsToEvents EPollFlags.input)]

/-- What holds between the steps. A completed request that is not applied has left a byte in the
pipe, or the queue is drained before the next `wait`; the pipe is armed except while it is
cleared. -/
structure Wakes : Prop where
  pushed : s.pushed = s.applied ++ s.requestQueue
  completed : s.completed <+: s.pushed
  idle : s.isPushing = false → s.completed = s.pushed
  woken : 0 < capacity → s.completed <+: s.applied ∨ 0 < s.pipe ∨ s.stage.drains = true
  others : ∀ r ∈ s.requestQueue, r.fd ≠ pipeFD
  wf : s.pollHandle.Wf
  fetched : s.stage = .waiting ∨ s.stage = .dequeuing → s.pollHandle.eventIndex = none
  watched : s.pollHandle.watched = watchedAfter pipeFD s.applied
  pipe : s.pollHandle.entries pipeFD =
    [(if s.stage = .clearing then PollHandle.negativeFD pipeFD.toInt else pipeFD.toInt,
      flagsToEvents EPollFlags.input)]

namespace Wakes

variable {pipeFD capacity s}

theorem init (pipeFD : Fd) (capacity : ℕ) : Wakes pipeFD capacity (PollSystem.init pipeFD) where
  pushed := rfl
  completed := List.prefix_rfl
  idle _ := rfl
  woken _ := .inl List.prefix_rfl
  others r hr := absurd hr List.not_mem_nil
  wf := PollHandle.Wf.add (.of_none (fun d hd => absurd hd List.not_mem_nil) rfl) pipeFD _
  fetched _ := rfl
  watched := PollHandle.watched_add {} pipeFD EPollFlags.input
  pipe := by
    rw [PollHandle.entries, PollSystem.init, PollHandle.add, List.nil_append,
      List.filter_cons_of_pos (by simpa using PollHandle.fdOf_toInt pipeFD)]
    rfl

theorem emplace (h : Wakes pipeFD capacity s) {r : PollRequest} (hr : r.fd ≠ pipeFD) :
    Wakes pipeFD capacity (s.emplace r) :=
  { h with
    pushed := by
      show s.pushed ++ [r] = s.applied ++ (s.requestQueue ++ [r])
      rw [h.pushed, List.append_assoc]
    completed := h.completed.trans (List.prefix_append _ _)
    idle := fun hp => absurd hp (show ¬true = false by decide)
    others := fun q hq => by
      obtain hq | hq := List.mem_append.mp hq
      · exact h.others q hq
      · rwa [List.mem_singleton.mp hq] }

theorem wakePollThread (h : Wakes pipeFD capacity s) :
    Wakes pipeFD capacity (s.wakePollThread capacity) :=
  { h with
    completed := List.prefix_rfl
    idle := fun _ => rfl
    woken := fun hcap => by
      refine .inr (.inl ?_)
      show 0 < if s.pipe < capacity then s.pipe + 1 else s.pipe
      split_ifs <;> omega }

theorem addFD (h : Wakes pipeFD capacity s) {fd : Fd} (hfd : fd ≠ pipeFD) (flags : Flags) :
    Wakes pipeFD capacity (s.addFD fd flags) := by
  rw [PollSystem.addFD]
  split_ifs
  · exact h
  · exact emplace (s := { s with
      callbackMap := Function.update s.callbackMap fd.toInt (some s.registrations)
      registrations := s.registrations + 1 }) { h with } hfd

theorem removeFD (h : Wakes pipeFD capacity s) {fd : Fd} (hfd : fd ≠ pipeFD) :
    Wakes pipeFD capacity (s.removeFD fd) := by
  rw [PollSystem.removeFD]
  cases s.callbackMap fd.toInt with
  | none => exact h
  | some registration =>
    exact emplace (s := { s with callbackMap := Function.update s.callbackMap fd.toInt none })
      { h with } hfd

theorem onEvent (h : Wakes pipeFD capacity s) (e : QueuedEvent) :
    Wakes pipeFD capacity (s.onEvent e) := by
  rw [PollSystem.onEvent]
  cases s.callbackMap e.event.fd with
  | none => exact h
  | some registration => exact { h with }

/-- The pipe is not ignored when the loop fetches events. -/
theorem fetch (h : Wakes pipeFD capacity s) {c : Bool} (hs : s.stage = .fetching c) :
    Wakes pipeFD capacity (s.fetch pipeFD c) := by
  have hf := PollHandle.getNextEvent_fetches h.wf
  have hpipe := h.pipe
  rw [hs, if_neg PollStage.noConfusion] at hpipe
  obtain ⟨he, heq⟩ | ⟨-, hfd, heq⟩ | ⟨-, hfd, heq⟩ := s.fetch_cases pipeFD c
  · rw [heq]
    have hne : pipeFD.toInt ≠ s.pollHandle.getNextEvent.1.fd := fun hfd =>
      absurd (of_decide_eq_true he) (not_lt.mpr (hfd ▸ pipeFD.toInt_nonneg))
    exact
      { h with
        woken := fun hcap => by
          refine (h.woken hcap).imp_right (Or.imp_right fun hd => ?_)
          rw [hs] at hd
          rw [show c = true from hd]
          rfl
        wf := hf.wf
        fetched := fun _ => hf.done he
        watched := hf.watched.trans h.watched
        pipe := by
          have hst : (if c then PollStage.dequeuing else .waiting) ≠ .clearing := by
            cases c <;> decide
          rw [if_neg hst]
          exact (hf.entries pipeFD hne).trans hpipe }
  · rw [heq]
    exact
      { h with
        woken := fun _ => .inr (.inr rfl)
        wf := hf.wf
        fetched := fun hst => by
          obtain hst | hst := hst <;> exact PollStage.noConfusion hst
        watched := hf.watched.trans h.watched
        pipe := by
          rw [if_pos rfl]
          exact hf.ignored pipeFD _ hfd.symm hpipe }
  · rw [heq]
    exact
      { h with
        wf := hf.wf
        fetched := fun hst => by
          rw [hs] at hst
          obtain hst | hst := hst <;> exact PollStage.noConfusion hst
        watched := hf.watched.trans h.watched
        pipe := by
          rw [hs, if_neg PollStage.noConfusion]
          exact (hf.entries pipeFD (Ne.symm hfd)).trans hpipe }

/-- Arming the pipe again changes nothing of what is watched. -/
theorem watched_reset (h : Wakes pipeFD capacity s) :
    (s.pollHandle.reset pipeFD.toInt EPollFlags.input).watched = s.pollHandle.watched := by
  have hpipe := h.pipe
  rw [PollHandle.watched_reset]
  refine PollHandle.rewatch_eq_self fun w hw hfd => ?_
  obtain ⟨d, hd, rfl⟩ := List.mem_map.mp hw
  have hd : (d.fd, d.events) ∈ s.pollHandle.entries pipeFD :=
    List.mem_map.mpr ⟨d, List.mem_filter.mpr ⟨hd, by simpa using hfd⟩, rfl⟩
  rw [hpipe, List.mem_singleton] at hd
  exact (Prod.mk.inj hd).2

theorem readData (h : Wakes pipeFD capacity s) (hs : s.stage = .clearing) :
    Wakes pipeFD capacity (s.readData pipeFD) := by
  rw [PollSystem.readData]
  split_ifs
  · exact
      { h with
        woken := fun _ => .inr (.inr rfl)
        wf := h.wf.reset pipeFD _
        fetched := fun hst => by
          obtain hst | hst := hst <;> exact PollStage.noConfusion hst
        watched := h.watched_reset.trans h.watched
        pipe := by
          rw [if_neg PollStage.noConfusion]
          exact PollHandle.entries_reset_self _ h.pipe _ }
  · exact { h with woken := fun _ => .inr (.inr (by rw [hs]; rfl)) }

theorem watched_apply (handle : PollHandle) (r : PollRequest) :
    (r.apply handle).watched = r.watch handle.watched := by
  rw [PollRequest.apply, PollRequest.watch]
  cases r.type with
  | none => rfl
  | add => exact handle.watched_add r.fd r.flags
  | reset => exact handle.watched_reset r.fd r.flags
  | remove => exact handle.watched_remove r.fd

theorem entries_apply (handle : PollHandle) {r : PollRequest} (hr : r.fd ≠ pipeFD) :
    (r.apply handle).entries pipeFD = handle.entries pipeFD := by
  rw [PollRequest.apply]
  cases r.type with
  | none => rfl
  | add => exact handle.entries_add_of_ne hr r.flags
  | reset => exact handle.entries_reset_of_ne hr r.flags
  | remove => exact handle.entries_remove_of_ne hr

theorem wf_apply {handle : PollHandle} (hw : handle.Wf) (hi : handle.eventIndex = none)
    (r : PollRequest) : (r.apply handle).Wf ∧ (r.apply handle).eventIndex = none := by
  rw [PollRequest.apply]
  cases r.type with
  | none => exact ⟨hw, hi⟩
  | add => exact ⟨hw.add r.fd r.flags, hi⟩
  | reset => exact ⟨hw.reset r.fd r.flags, hi⟩
  | remove => exact ⟨hw.remove hi r.fd.toInt, hi⟩

theorem dequeue (h : Wakes pipeFD capacity s) (hs : s.stage = .dequeuing) :
    Wakes pipeFD capacity s.dequeue := by
  have hi := h.fetched (.inr hs)
  have hpushed := h.pushed
  rw [PollSystem.dequeue]
  cases hq : s.requestQueue with
  | nil =>
    rw [hq, List.append_nil] at hpushed
    exact
      { h with
        pushed := hpushed.trans (List.append_nil _).symm
        others := fun r hr => absurd hr List.not_mem_nil
        woken := fun _ => .inl (hpushed ▸ h.completed)
        fetched := fun _ => hi
        pipe := by
          have hpipe := h.pipe
          rwa [hs] at hpipe }
  | cons r rs =>
    have hr : r.fd ≠ pipeFD := h.others r (hq ▸ List.mem_cons_self)
    exact
      { h with
        pushed := by
          rw [hpushed, hq, List.append_assoc]
          rfl
        woken := fun _ => .inr (.inr (by rw [hs]; rfl))
        others := fun q hq' => h.others q (hq ▸ List.mem_cons_of_mem r hq')
        wf := (wf_apply h.wf hi r).1
        fetched := fun _ => (wf_apply h.wf hi r).2
        watched := by
          rw [watched_apply, h.watched, watchedAfter, watchedAfter, List.foldl_append]
          rfl
        pipe := (entries_apply _ hr).trans h.pipe }

theorem step (h : Wakes pipeFD capacity s) {op : Op} {s' : PollSystem}
    (hs : s.step pipeFD capacity op = some s') : Wakes pipeFD capacity s' := by
  cases step_cases hs with
  | addFD flags hfd => exact h.addFD hfd flags
  | resetFD flags hfd => exact h.emplace hfd
  | removeFD hfd => exact h.removeFD hfd
  -- the byte is written, or the pipe is full: it is not empty in either case
  | wake => exact h.wakePollThread
  | @onEvent e es hqueue => exact onEvent (s := { s with eventQueue := es }) { h with } e
  -- what is woken at a wait is not drained, so the pipe must have a byte
  | wait hstage hwait =>
    have hpipe := h.pipe
    rw [hstage, if_neg PollStage.noConfusion] at hpipe
    exact
      { h with
        woken := fun hcap => by
          have hwoken := h.woken hcap
          rwa [hstage] at hwoken
        wf := h.wf.wait hwait
        fetched := fun hst => by obtain hst | hst := hst <;> exact PollStage.noConfusion hst
        watched := (PollHandle.watched_wait hwait).trans h.watched
        pipe := by
          rw [if_neg PollStage.noConfusion]
          exact (PollHandle.entries_wait hwait pipeFD).trans hpipe }
  | interrupt hstage =>
    have hpipe := h.pipe
    rw [hstage, if_neg PollStage.noConfusion] at hpipe
    exact
      { h with
        woken := fun hcap => by
          have hwoken := h.woken hcap
          rwa [hstage] at hwoken
        wf := h.wf.interrupt
        fetched := fun _ => rfl
        pipe := by
          rw [if_neg PollStage.noConfusion]
          exact hpipe }
  | getNextEvent hstage => exact h.fetch hstage
  | readData hstage => exact h.readData hstage
  | dequeue hstage => exact h.dequeue hstage

end Wakes

/-! ## Which registration an event reaches -/

/-- Nothing is on its way about a descriptor: no event about it is queued or left to be fetched,
and the poll thread drains the request queue before it polls it again: it has already fetched the
pipe's event since its last `wait`, or the descriptor is not polled. -/
def IsQuiet (fd : ℤ) : Prop :=
  (∀ e ∈ s.eventQueue, e.event.fd ≠ fd) ∧ fd ∉ s.pollHandle.unfetched ∧
    (s.stage.drains = true ∨ ∀ d ∈ s.pollHandle.descriptors, d.fd ≠ fd)

instance (fd : ℤ) : Decidable (s.IsQuiet fd) := inferInstanceAs (Decidable (_ ∧ _ ∧ (_ ∨ _)))

/-- A descriptor is registered only when nothing is on its way about it. -/
def RegistersQuiet : Op → Prop
  | .addFD fd _ => s.callbackMap fd.toInt = none → s.IsQuiet fd.toInt
  | _ => True

instance (op : Op) : Decidable (s.RegistersQuiet op) := by
  cases op with
  | addFD fd flags =>
    exact inferInstanceAs (Decidable (s.callbackMap fd.toInt = none → s.IsQuiet fd.toInt))
  | _ => exact .isTrue trivial

/-- What holds between the steps. A registration that the callback map has is the one that was
observed, in every event that is queued or left to be fetched, and so it is in what a `wait` would
observe before the queue is drained. -/
structure Reaches : Prop where
  wakes : Wakes pipeFD capacity s
  map : ∀ fd, registered fd s.pushed = s.callbackMap fd
  queued : ∀ e ∈ s.eventQueue, ∀ r, s.callbackMap e.event.fd = some r →
    registered e.event.fd e.waited = some r
  unfetched : ∀ fd ∈ s.pollHandle.unfetched, ∀ r, s.callbackMap fd = some r →
    registered fd s.waited = some r
  armed : s.stage.drains = false → ∀ d ∈ s.pollHandle.descriptors, 0 ≤ d.fd →
    ∀ r, s.callbackMap d.fd = some r → registered d.fd s.applied = some r
  calls : ∀ c ∈ s.calls, registered c.1.event.fd c.1.waited = some c.2

/-- A request changes the registration of its own descriptor. -/
theorem PollRequest.register_eq_update {r : PollRequest} {m : ℤ → Option ℕ} {v : Option ℕ}
    (hv : r.register r.fd.toInt (m r.fd.toInt) = v) (fd : ℤ) :
    r.register fd (m fd) = Function.update m r.fd.toInt v fd := by
  by_cases hfd : fd = r.fd.toInt
  · rw [hfd, Function.update_self, hv]
  · rw [Function.update_of_ne hfd, PollRequest.register, if_neg (Ne.symm hfd)]

theorem registered_append (fd : ℤ) (rs : List PollRequest) (r : PollRequest) :
    registered fd (rs ++ [r]) = r.register fd (registered fd rs) := List.foldl_append

namespace Reaches

variable {pipeFD capacity s}

theorem init (pipeFD : Fd) (capacity : ℕ) : Reaches pipeFD capacity (PollSystem.init pipeFD) where
  wakes := .init pipeFD capacity
  map _ := rfl
  queued _ he := absurd he List.not_mem_nil
  unfetched _ hfd := absurd hfd List.not_mem_nil
  armed _ _ _ _ r hr := absurd hr (Option.some_ne_none r).symm
  calls _ hc := absurd hc List.not_mem_nil

/-- A request that brings the callback map to `m`, where nothing is on its way about a descriptor
that becomes registered. -/
theorem emplace (h : Reaches pipeFD capacity s) {r : PollRequest} {m : ℤ → Option ℕ} {n : ℕ}
    (hr : r.fd ≠ pipeFD) (hm : ∀ fd, r.register fd (s.callbackMap fd) = m fd)
    (hq : ∀ fd k, m fd = some k → s.callbackMap fd = some k ∨ s.IsQuiet fd) :
    Reaches pipeFD capacity
      (({ s with callbackMap := m, registrations := n } : PollSystem).emplace r) where
  wakes := Wakes.emplace (s := { s with callbackMap := m, registrations := n }) { h.wakes with } hr
  map fd := by
    show registered fd (s.pushed ++ [r]) = m fd
    rw [registered_append, h.map, hm]
  queued e he k hk := by
    obtain hk | hquiet := hq _ k hk
    · exact h.queued e he k hk
    · exact absurd rfl (hquiet.1 e he)
  unfetched fd hfd k hk := by
    obtain hk | hquiet := hq fd k hk
    · exact h.unfetched fd hfd k hk
    · exact absurd hfd hquiet.2.1
  armed hdr d hd h0 k hk := by
    obtain hk | hquiet := hq d.fd k hk
    · exact h.armed hdr d hd h0 k hk
    · obtain htrue | hne := hquiet.2.2
      · exact absurd (htrue.symm.trans hdr) Bool.noConfusion
      · exact absurd rfl (hne d hd)
  calls := h.calls

theorem addFD (h : Reaches pipeFD capacity s) {fd : Fd} (hfd : fd ≠ pipeFD) (flags : Flags)
    (hq : s.callbackMap fd.toInt = none → s.IsQuiet fd.toInt) :
    Reaches pipeFD capacity (s.addFD fd flags) := by
  rw [PollSystem.addFD]
  split_ifs with hsome
  · exact h
  · have hnone := Option.not_isSome_iff_eq_none.mp hsome
    refine h.emplace hfd (PollRequest.register_eq_update (if_pos rfl)) fun x k hk => ?_
    by_cases hx : x = fd.toInt
    · exact .inr (hx ▸ hq hnone)
    · rw [Function.update_of_ne hx] at hk
      exact .inl hk

theorem resetFD (h : Reaches pipeFD capacity s) {fd : Fd} (hfd : fd ≠ pipeFD) (flags : Flags) :
    Reaches pipeFD capacity (s.resetFD fd flags) :=
  h.emplace (n := s.registrations) hfd (fun _ => ite_self _) fun _ _ hk => .inl hk

theorem removeFD (h : Reaches pipeFD capacity s) {fd : Fd} (hfd : fd ≠ pipeFD) :
    Reaches pipeFD capacity (s.removeFD fd) := by
  rw [PollSystem.removeFD]
  cases hmap : s.callbackMap fd.toInt with
  | none => exact h
  | some registration =>
    refine h.emplace (n := s.registrations) hfd (PollRequest.register_eq_update (if_pos rfl))
      fun x k hk => ?_
    by_cases hx : x = fd.toInt
    · rw [hx, Function.update_self] at hk
      exact absurd hk (Option.some_ne_none k).symm
    · rw [Function.update_of_ne hx] at hk
      exact .inl hk

theorem onEvent (h : Reaches pipeFD capacity s) {e : QueuedEvent}
    (he : ∀ r, s.callbackMap e.event.fd = some r → registered e.event.fd e.waited = some r) :
    Reaches pipeFD capacity (s.onEvent e) := by
  rw [PollSystem.onEvent]
  cases hmap : s.callbackMap e.event.fd with
  | none => exact h
  | some registration =>
    exact
      { h with
        wakes := { h.wakes with }
        calls := fun c hc => by
          obtain hc | hc := List.mem_append.mp hc
          · exact h.calls c hc
          · rw [List.mem_singleton.mp hc]
            exact he registration hmap }

theorem fetch (h : Reaches pipeFD capacity s) {c : Bool} (hs : s.stage = .fetching c) :
    Reaches pipeFD capacity (s.fetch pipeFD c) := by
  have hf := PollHandle.getNextEvent_fetches h.wakes.wf
  have hw := h.wakes.fetch hs
  have hunfetched : ∀ fd ∈ s.pollHandle.getNextEvent.2.unfetched, ∀ r,
      s.callbackMap fd = some r → registered fd s.waited = some r :=
    fun fd hfd => h.unfetched fd (hf.unfetched fd hfd)
  have harmed : s.stage.drains = false → ∀ d ∈ s.pollHandle.getNextEvent.2.descriptors, 0 ≤ d.fd →
      ∀ r, s.callbackMap d.fd = some r → registered d.fd s.applied = some r :=
    fun hdr d hd h0 => h.armed hdr d (hf.armed d hd h0) h0
  obtain ⟨-, heq⟩ | ⟨-, -, heq⟩ | ⟨hne, -, heq⟩ := s.fetch_cases pipeFD c
  · rw [heq] at hw ⊢
    refine { h with wakes := hw, unfetched := hunfetched, armed := fun hdr => harmed ?_ }
    rw [hs]
    cases c with
    | false => rfl
    | true => exact absurd hdr (show ¬true = false by decide)
  · rw [heq] at hw ⊢
    exact
      { h with
        wakes := hw
        unfetched := hunfetched
        armed := fun hdr => absurd hdr (show ¬true = false by decide) }
  · rw [heq] at hw ⊢
    exact
      { h with
        wakes := hw
        queued := fun e he => by
          obtain he | he := List.mem_append.mp he
          · exact h.queued e he
          · rw [List.mem_singleton.mp he]
            exact h.unfetched _ (hf.fetched hne)
        unfetched := hunfetched
        armed := harmed }

theorem readData (h : Reaches pipeFD capacity s) (hs : s.stage = .clearing) :
    Reaches pipeFD capacity (s.readData pipeFD) := by
  have hw := h.wakes.readData hs
  rw [PollSystem.readData] at hw ⊢
  split_ifs at hw ⊢
  · exact
      { h with
        wakes := hw
        unfetched := fun fd hfd =>
          h.unfetched fd (PollHandle.mem_unfetched_reset s.pollHandle hfd)
        armed := fun hdr => absurd hdr (show ¬true = false by decide) }
  · exact { h with wakes := hw }

theorem dequeue (h : Reaches pipeFD capacity s) (hs : s.stage = .dequeuing) :
    Reaches pipeFD capacity s.dequeue := by
  have hw := h.wakes.dequeue hs
  have hi := h.wakes.fetched (.inr hs)
  have hpushed := h.wakes.pushed
  rw [PollSystem.dequeue] at hw ⊢
  cases hq : s.requestQueue with
  | nil =>
    rw [hq] at hw
    rw [hq, List.append_nil] at hpushed
    exact
      { h with
        wakes := hw
        armed := fun _ d _ _ r hr => by rw [← hpushed, h.map, hr] }
  | cons r rs =>
    rw [hq] at hw
    have hnone := (Wakes.wf_apply h.wakes.wf hi r).2
    exact
      { h with
        wakes := hw
        unfetched := fun fd hfd => by
          rw [PollHandle.unfetched_of_none _ hnone] at hfd
          exact absurd hfd List.not_mem_nil
        armed := fun hdr => by
          rw [hs] at hdr
          exact absurd hdr (show ¬true = false by decide) }

theorem step (h : Reaches pipeFD capacity s) {op : Op} (hop : s.RegistersQuiet op)
    {s' : PollSystem} (hs : s.step pipeFD capacity op = some s') :
    Reaches pipeFD capacity s' := by
  have hw := h.wakes.step hs
  cases step_cases hs with
  -- the condition on the step is needed here only
  | addFD flags hfd => exact h.addFD hfd flags hop
  | resetFD flags hfd => exact h.resetFD hfd flags
  | removeFD hfd => exact h.removeFD hfd
  | wake => exact { h with wakes := hw }
  | @onEvent e es hqueue =>
    have hpop : Reaches pipeFD capacity { s with eventQueue := es } :=
      { h with
        wakes := { h.wakes with }
        queued := fun e he => h.queued e (hqueue ▸ List.mem_cons_of_mem _ he) }
    exact hpop.onEvent (h.queued e (hqueue ▸ List.mem_cons_self))
  -- what is ready is armed, and what is armed has the registration of the callback map
  | wait hstage hwait =>
    have harmed := h.armed (by rw [hstage]; rfl)
    exact
      { h with
        wakes := hw
        unfetched := fun fd hfd => by
          obtain ⟨d, hd, rfl, h0⟩ := PollHandle.mem_unfetched_wait hwait hfd
          exact harmed d hd h0
        armed := fun _ d hd h0 => by
          rw [PollHandle.wait_eq_some hwait] at hd
          obtain ⟨e, he, rfl⟩ := List.mem_map.mp hd
          exact harmed e he h0 }
  -- nothing is left to be fetched
  | interrupt hstage =>
    exact
      { h with
        wakes := hw
        unfetched := fun fd hfd => by
          rw [PollHandle.unfetched_of_none _ rfl] at hfd
          exact absurd hfd List.not_mem_nil
        armed := fun _ => h.armed (by rw [hstage]; rfl) }
  | getNextEvent hstage => exact h.fetch hstage
  | readData hstage => exact h.readData hstage
  | dequeue hstage => exact h.dequeue hstage

end Reaches

/-- **A poll event reaches only the registration it was raised for**, in every run in which a
descriptor is registered only when nothing is on its way about it: the requests that were applied
before the `wait` that observed the event end in the registration whose callback runs. -/
theorem run_reaches (pipeFD : Fd) (capacity : ℕ) (ops : List Op) (s : PollSystem)
    (hops : GuardedRun.Meets (step pipeFD capacity) RegistersQuiet (init pipeFD) ops)
    (hrun : run pipeFD capacity ops = some s) (call : QueuedEvent × ℕ) (hcall : call ∈ s.calls) :
    registered call.1.event.fd call.1.waited = some call.2 := by
  have h : Reaches pipeFD capacity s :=
    GuardedRun.run_inv_of_meets (fun _ _ _ h hop hs => h.step hop hs) (.init pipeFD capacity) hops
      hrun
  exact h.calls call hcall

section

/-- What the poll thread does from one wake-up to the next wait. -/
private def drainOps : List Op :=
  [.wait fun _ => 0, .getNextEvent, .readData, .getNextEvent, .dequeue, .dequeue]

/-- Descriptor 5 has an event, and its callback runs. Then 5 is closed and opened again, when
nothing is on its way about it, and the event that it has next reaches the second registration. -/
private def answeredOps : List Op :=
  [.addFD 5 EPollFlags.input, .wake] ++ drainOps ++
    [.wait fun _ => POLLIN, .getNextEvent, .onEvent, .getNextEvent, .removeFD 5, .wake] ++
    drainOps ++ [.addFD 5 EPollFlags.input, .wake] ++ drainOps ++
    [.wait fun _ => POLLIN, .getNextEvent, .onEvent]

/-- The event is still queued when 5 is closed and opened again. -/
private def reusedOps : List Op :=
  [.addFD 5 EPollFlags.input, .wake] ++ drainOps ++
    [.wait fun _ => POLLIN, .getNextEvent, .removeFD 5, .wake, .addFD 5 EPollFlags.input, .wake,
      .onEvent]

private theorem answeredOps_runs : (run 3 1 answeredOps).isSome = true := by decide

private theorem reusedOps_runs : (run 3 1 reusedOps).isSome = true := by decide

theorem answeredOps_reaches : ∃ s, run 3 1 answeredOps = some s ∧ s.calls.map (·.2) = [0, 1] ∧
    ∀ call ∈ s.calls, registered call.1.event.fd call.1.waited = some call.2 := by
  have hrun := (Option.some_get answeredOps_runs).symm
  exact ⟨_, hrun, by decide, run_reaches 3 1 answeredOps _ (by decide) hrun⟩

/-- The event of the first registration of descriptor 5 reaches the second one. -/
theorem reusedOps_misses : ∃ s, run 3 1 reusedOps = some s ∧
    ∃ call ∈ s.calls, registered call.1.event.fd call.1.waited ≠ some call.2 := by
  exact ⟨_, (Option.some_get reusedOps_runs).symm, by decide⟩

end

end PollSystem

end Conntop
