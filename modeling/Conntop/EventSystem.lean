import Conntop.Lib.GuardedRun
import Conntop.Lib.ProducerQueue

/-!
# The event system

Any thread pushes events. The main thread runs the loop in `run`, which takes the next event of some
thread and executes the callbacks that are registered for its ID.

* `EventSystem` has the queue of events and the table of callbacks. `executed` is a history.
* An `Op` is one call, or one round of the loop. What callbacks do are operations of their own.
* `Registered` says that a callback is registered once for an ID.

Main result: `run_delivers`. A callback that stays registered gets every event of its ID once, and
those of one thread in their order. One that is not registered gets none.
-/

namespace Conntop

inductive EGlobalEventID
  | updateEvent | clientEvent
  | appInternalEvent | resolverInternalEvent | pollSystemInternalEvent | uiCursesInternalEvent
  deriving DecidableEq, Repr

/-- Threads `π`, events `ε` and callbacks `κ`. -/
structure EventSystem (π ε κ : Type) [DecidableEq π] where
  eventQueue : ProducerQueue π ε := .empty
  callbackMap : List (EGlobalEventID × κ) := []
  isRunning : Bool := false
  executed : List (κ × π × ε) := []

namespace EventSystem

variable {π ε κ : Type} [DecidableEq π] [DecidableEq κ] (id : ε → EGlobalEventID)

section

variable (s : EventSystem π ε κ)

def pushEvent (p : π) (e : ε) : EventSystem π ε κ :=
  { s with eventQueue := s.eventQueue.push p e }

def addCallback (callback : κ) (eventID : EGlobalEventID) : EventSystem π ε κ :=
  { s with callbackMap := s.callbackMap ++ [(eventID, callback)] }

def delCallback (callback : κ) (eventID : EGlobalEventID) : EventSystem π ε κ :=
  { s with callbackMap := s.callbackMap.filter (· ≠ (eventID, callback)) }

/-- `equal_range`. -/
def callbackRange (eventID : EGlobalEventID) : List κ :=
  (s.callbackMap.filter (·.1 = eventID)).map Prod.snd

/-- A round of the loop, with the next event of a thread. -/
def executeNext (p : π) : Option (EventSystem π ε κ) :=
  if s.isRunning then
    (s.eventQueue.pop p).map fun (e, eventQueue) =>
      { s with
        eventQueue
        executed := s.executed ++ (s.callbackRange (id e)).map fun callback => (callback, p, e) }
  else none

/-- What a step has executed. -/
def executedSince (s' : EventSystem π ε κ) : List (κ × π × ε) :=
  s'.executed.drop s.executed.length

end

inductive Op (π ε κ : Type)
  | pushEvent (p : π) (e : ε)
  | addCallback (callback : κ) (eventID : EGlobalEventID)
  | delCallback (callback : κ) (eventID : EGlobalEventID)
  | run
  | executeNext (p : π)
  | stop

def step (s : EventSystem π ε κ) : Op π ε κ → Option (EventSystem π ε κ)
  | .pushEvent p e => some (s.pushEvent p e)
  | .addCallback callback eventID => some (s.addCallback callback eventID)
  | .delCallback callback eventID => some (s.delCallback callback eventID)
  | .run => some { s with isRunning := true }
  | .executeNext p => s.executeNext id p
  | .stop => some { s with isRunning := false }

/-- The event of a call, if it is one of an ID that a callback got of a thread. -/
def isCall (callback : κ) (eventID : EGlobalEventID) (p : π) (call : κ × π × ε) : Option ε :=
  if call.1 = callback ∧ call.2.1 = p ∧ id call.2.2 = eventID then some call.2.2 else none

def executedOf (s : EventSystem π ε κ) (callback : κ) (eventID : EGlobalEventID) (p : π) : List ε :=
  s.executed.filterMap (isCall id callback eventID p)

/-- The registration of a callback is not touched. -/
def Op.Leaves (callback : κ) (eventID : EGlobalEventID) : Op π ε κ → Prop
  | .addCallback callback' eventID' => (eventID', callback') ≠ (eventID, callback)
  | .delCallback callback' eventID' => (eventID', callback') ≠ (eventID, callback)
  | _ => True

variable {id} {s s' : EventSystem π ε κ} {op : Op π ε κ} {callback : κ} {eventID : EGlobalEventID}
variable {p : π}

/-! ## One step -/

theorem count_step (h : s.step id op = some s') (hop : op.Leaves callback eventID) :
    s'.callbackMap.count (eventID, callback) = s.callbackMap.count (eventID, callback) := by
  cases op with
  | addCallback callback' eventID' =>
    cases h
    have hne : (eventID', callback') ≠ (eventID, callback) := hop
    simp [addCallback, List.count_append, hne]
  | delCallback callback' eventID' =>
    cases h
    have hne : (eventID', callback') ≠ (eventID, callback) := hop
    exact List.count_filter (decide_eq_true hne.symm)
  | executeNext p =>
    simp only [step, executeNext] at h
    split_ifs at h
    obtain ⟨⟨e, eventQueue⟩, -, rfl⟩ := Option.map_eq_some_iff.mp h
    rfl
  | pushEvent p e => cases h; rfl
  | run => cases h; rfl
  | stop => cases h; rfl

theorem count_callbackRange (s : EventSystem π ε κ) (callback : κ) (eventID : EGlobalEventID) :
    (s.callbackRange eventID).count callback = s.callbackMap.count (eventID, callback) := by
  unfold callbackRange
  induction s.callbackMap with
  | nil => rfl
  | cons x xs ih =>
    obtain ⟨i, k⟩ := x
    by_cases hi : i = eventID
    · subst hi
      by_cases hk : k = callback
      · simp [hk, ih]
      · simp [hk, ih]
    · simp [hi, ih]

/-- What a round adds to what a callback got. -/
theorem executedOf_round (e : ε) (p' : π) (callbacks : List κ) (eventQueue : ProducerQueue π ε) :
    { s with
        eventQueue
        executed := s.executed ++ callbacks.map fun callback => (callback, p', e)
      }.executedOf id callback eventID p =
      s.executedOf id callback eventID p ++
        if p' = p ∧ id e = eventID then List.replicate (callbacks.count callback) e else [] := by
  unfold executedOf
  rw [List.filterMap_append]
  congr 1
  induction callbacks with
  | nil => simp
  | cons k ks ih =>
    rw [List.map_cons, List.filterMap_cons, ih]
    by_cases hk : k = callback
    · by_cases hp : p' = p ∧ id e = eventID
      · simp [isCall, hk, hp, List.replicate_succ]
      · simp [isCall, hk, hp]
    · simp [isCall, hk]

/-- The events of the ID among what a thread pushed. -/
def ofID (id : ε → EGlobalEventID) (eventID : EGlobalEventID) (es : List ε) : List ε :=
  es.filter (id · = eventID)

variable (callback eventID p) in
/-- A step gives a callback as many copies of the next event as it is registered. -/
theorem executedOf_step (h : s.step id op = some s') :
    ∃ es, s'.eventQueue.poppedOf p = s.eventQueue.poppedOf p ++ es ∧
      s'.executedOf id callback eventID p = s.executedOf id callback eventID p ++
        (ofID id eventID es).flatMap
          (List.replicate (s.callbackMap.count (eventID, callback))) := by
  have hnone : s'.eventQueue.popped = s.eventQueue.popped → s'.executed = s.executed →
      ∃ es, s'.eventQueue.poppedOf p = s.eventQueue.poppedOf p ++ es ∧
        s'.executedOf id callback eventID p = s.executedOf id callback eventID p ++
          (ofID id eventID es).flatMap
            (List.replicate (s.callbackMap.count (eventID, callback))) := by
    intro hpopped hexecuted
    refine ⟨[], ?_, ?_⟩
    · rw [List.append_nil, ProducerQueue.poppedOf, hpopped, ProducerQueue.poppedOf]
    · rw [executedOf, hexecuted]
      exact (List.append_nil _).symm
  cases op with
  | executeNext p' =>
    simp only [step, executeNext] at h
    split_ifs at h
    obtain ⟨⟨e, eventQueue⟩, hpop, rfl⟩ := Option.map_eq_some_iff.mp h
    simp only [executedOf_round, count_callbackRange]
    by_cases hp : p' = p
    · subst hp
      refine ⟨[e], ProducerQueue.poppedOf_pop hpop, ?_⟩
      by_cases he : id e = eventID
      · simp [ofID, he]
      · simp [ofID, he]
    · refine ⟨[], ?_, ?_⟩
      · rw [ProducerQueue.poppedOf_pop_of_ne hpop (Ne.symm hp), List.append_nil]
      · simp [hp, ofID]
  | pushEvent p e => cases h; exact hnone rfl rfl
  | addCallback callback eventID => cases h; exact hnone rfl rfl
  | delCallback callback eventID => cases h; exact hnone rfl rfl
  | run => cases h; exact hnone rfl rfl
  | stop => cases h; exact hnone rfl rfl

theorem isFifo_step (h : s.step id op = some s') (hs : s.eventQueue.IsFifo) :
    s'.eventQueue.IsFifo := by
  cases op with
  | pushEvent p e => cases h; exact hs.push p e
  | executeNext p =>
    simp only [step, executeNext] at h
    split_ifs at h
    obtain ⟨⟨e, eventQueue⟩, hpop, rfl⟩ := Option.map_eq_some_iff.mp h
    exact hs.pop hpop
  | addCallback callback eventID => cases h; exact hs
  | delCallback callback eventID => cases h; exact hs
  | run => cases h; exact hs
  | stop => cases h; exact hs

/-! ## Runs -/

theorem isFifo_run {ops : List (Op π ε κ)} (h : GuardedRun.run (step id) {} ops = some s) :
    s.eventQueue.IsFifo :=
  GuardedRun.run_inv (I := fun s => s.eventQueue.IsFifo) (fun _ _ _ hs h => isFifo_step h hs)
    ProducerQueue.isFifo_empty h

variable (p) in
/-- What a callback gets while its registration is not touched. -/
theorem executedOf_run {ops : List (Op π ε κ)} (h : GuardedRun.run (step id) s ops = some s')
    (hops : ∀ op ∈ ops, op.Leaves callback eventID) :
    s'.callbackMap.count (eventID, callback) = s.callbackMap.count (eventID, callback) ∧
      ∃ es, s'.eventQueue.poppedOf p = s.eventQueue.poppedOf p ++ es ∧
        s'.executedOf id callback eventID p = s.executedOf id callback eventID p ++
          (ofID id eventID es).flatMap
            (List.replicate (s.callbackMap.count (eventID, callback))) := by
  induction ops generalizing s with
  | nil =>
    cases h
    exact ⟨rfl, [], (List.append_nil _).symm, (List.append_nil _).symm⟩
  | cons op ops ih =>
    obtain ⟨t, ht, h⟩ := GuardedRun.run_cons_eq_some.mp h
    have hcount := count_step ht (hops op List.mem_cons_self)
    obtain ⟨es, hpopped, hexecuted⟩ := executedOf_step callback eventID p ht
    obtain ⟨hcount', es', hpopped', hexecuted'⟩ :=
      ih h fun op hop => hops op (List.mem_cons_of_mem _ hop)
    refine ⟨hcount'.trans hcount, es ++ es', ?_, ?_⟩
    · rw [hpopped', hpopped, List.append_assoc]
    · rw [hexecuted', hexecuted, hcount, ofID, ofID, ofID, List.filter_append, List.flatMap_append,
        List.append_assoc]

/-- Nothing is executed while the loop does not run. -/
theorem executed_stopped {ops : List (Op π ε κ)} (h : GuardedRun.run (step id) s ops = some s')
    (hs : s.isRunning = false) (hops : ∀ op ∈ ops, op ≠ .run) : s'.executed = s.executed := by
  induction ops generalizing s with
  | nil =>
    cases h
    rfl
  | cons op ops ih =>
    obtain ⟨t, ht, h⟩ := GuardedRun.run_cons_eq_some.mp h
    have hstep : t.isRunning = false ∧ t.executed = s.executed := by
      cases op with
      | run => exact absurd rfl (hops _ List.mem_cons_self)
      | executeNext p =>
        simp only [step, executeNext, hs] at ht
        cases ht
      | pushEvent p e => cases ht; exact ⟨hs, rfl⟩
      | addCallback callback eventID => cases ht; exact ⟨hs, rfl⟩
      | delCallback callback eventID => cases ht; exact ⟨hs, rfl⟩
      | stop => cases ht; exact ⟨rfl, rfl⟩
    rw [ih h hstep.1 fun op hop => hops op (List.mem_cons_of_mem _ hop), hstep.2]

/-- **Events are delivered exactly.** While its registration for an ID is not touched, a callback
gets each event of the ID that is taken from a thread's queue, in the order in which the thread has
pushed them, as many times as it is registered. What it has not got is still in the queue. A stopped
loop executes nothing. -/
theorem run_delivers {before ops : List (Op π ε κ)}
    (hbefore : GuardedRun.run (step id) {} before = some s)
    (h : GuardedRun.run (step id) s ops = some s')
    (hops : ∀ op ∈ ops, op.Leaves callback eventID) (p : π) :
    (∃ es, s'.eventQueue.pushed p = s.eventQueue.poppedOf p ++ es ++ s'.eventQueue.queue p ∧
      s'.executedOf id callback eventID p = s.executedOf id callback eventID p ++
        (ofID id eventID es).flatMap
          (List.replicate (s.callbackMap.count (eventID, callback)))) ∧
    (s.isRunning = false → (∀ op ∈ ops, op ≠ .run) → s'.executed = s.executed) := by
  refine ⟨?_, executed_stopped h⟩
  obtain ⟨-, es, hpopped, hexecuted⟩ := executedOf_run p h hops
  have hrun : GuardedRun.run (step id) {} (before ++ ops) = some s' := by
    rw [GuardedRun.run_append, hbefore]
    exact h
  refine ⟨es, ?_, hexecuted⟩
  rw [isFifo_run hrun p, hpopped]

private def registered : EventSystem Bool (EGlobalEventID × ℕ) Unit :=
  { callbackMap := [(.updateEvent, ())], isRunning := true }

/-- Two threads, and one event that is left in the queue. -/
private def deliveries : List (Op Bool (EGlobalEventID × ℕ) Unit) :=
  [.pushEvent true (.updateEvent, 0), .pushEvent false (.clientEvent, 1),
    .pushEvent true (.updateEvent, 2), .executeNext true, .executeNext false, .stop]

theorem run_delivers_updates : ∃ s : EventSystem Bool (EGlobalEventID × ℕ) Unit,
    GuardedRun.run (step Prod.fst) registered deliveries = some s ∧
      (∃ es, s.eventQueue.pushed true = registered.eventQueue.poppedOf true ++ es ++
          s.eventQueue.queue true ∧
        s.executedOf Prod.fst () .updateEvent true =
          registered.executedOf Prod.fst () .updateEvent true ++
            (ofID Prod.fst .updateEvent es).flatMap
              (List.replicate (registered.callbackMap.count (.updateEvent, ())))) ∧
      s.executed = [((), true, .updateEvent, 0)] := by
  have hs : GuardedRun.run (step Prod.fst) {} [.addCallback () .updateEvent, .run] =
    some registered := rfl
  have hs' : GuardedRun.run (step Prod.fst) registered deliveries = some _ := rfl
  refine ⟨_, hs', (run_delivers hs hs' ?_ true).1, rfl⟩
  simp only [deliveries, List.forall_mem_cons]
  exact ⟨trivial, trivial, trivial, trivial, trivial, trivial, List.forall_mem_nil _⟩

end EventSystem

end Conntop
