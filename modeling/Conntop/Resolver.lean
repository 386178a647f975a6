import Conntop.EventSystem
import Conntop.Resolution
import Mathlib.Data.List.ReduceOption

/-!
# The resolver

The main thread asks, and goes on. The resolver thread takes one request after the other, looks up
the answer and dispatches it as an event. The main thread gets the event in its loop and calls the
callback of the request.

* `ResolverSystem` has both threads, with the connection list of the main thread.
* `asked` and `answered` are histories, `ops` are the calls of the list.
* What the main thread does in other callbacks is any sequence of other calls (`act`, `ask`).

Every request is in one place (`Pipeline`): answered, in the queue of events, with the thread, or in
the queue of requests, in this order.

Main results: `answers_in_order`, and `join_returns` for the destructor.
-/

namespace Conntop

/-! ## Requests and answers -/

/-- `IResolverRequest`, without the callback. -/
inductive Request
  | hostname (hostname : String)
  | service (service : String) (portType : EPortType)
  | list (q : ResolverRequest)
  deriving DecidableEq, Repr

/-- The requests of the list. -/
def Request.ofList : Request → Option ResolverRequest
  | .list q => some q
  | _ => none

/-- A request with its answer. -/
inductive ResolverEvent
  | hostname (hostname : String) (addressPack : List Address)
  | service (service : String) (portType : EPortType) (portPack : List Port)
  | address (address : Address) (resolvedData : ResolvedAddress)
  | port (port : Port) (resolvedData : ResolvedPort)
  deriving Repr

def ResolverEvent.getRequest : ResolverEvent → Request
  | .hostname name _ => .hostname name
  | .service name portType _ => .service name portType
  | .address a _ => .list (.address a)
  | .port p _ => .list (.port p)

/-- The call of the list that the callback makes. -/
def ResolverEvent.listOp : ResolverEvent → Option ConnectionList.Op
  | .address a resolvedData => some (.resolveAddress a resolvedData)
  | .port p resolvedData => some (.resolvePort p resolvedData)
  | _ => none

/-- What `getaddrinfo`, `getnameinfo` and the GeoIP databases return. -/
structure ResolverPlatform where
  hostnames : String → Option (List Address)
  services : String → EPortType → Option (List (BitVec 16))
  addressNames : Address → Option String
  portNames : Port → Option String
  geoIP : Option (Address → ECode × ASN)

namespace Resolver

structure Settings where
  isAddressHostnameEnabled : Bool := true
  isPortServiceEnabled : Bool := true

variable (R : Settings) (P : ResolverPlatform)

def platformResolveHostname (hostname : String) : List Address :=
  (P.hostnames hostname).getD []

def platformResolveService (service : String) (portType : EPortType) : List Port :=
  ((P.services service portType).getD []).map fun number => ⟨portType, number⟩

def platformResolveAddress (address : Address) : String := (P.addressNames address).getD ""

/-- If there is no service name, `getnameinfo` writes the number. -/
def platformResolvePort (port : Port) : String :=
  match P.portNames port with
  | none => ""
  | some serviceName => if serviceName = toString port.number.toNat then "" else serviceName

theorem codes_pos : 0 < 250 := Nat.succ_pos 249

/-- `Country()`. -/
def unknownCountry : ECode := ⟨0, codes_pos⟩

def processAddress (address : Address) : ResolvedAddress :=
  { hostname := if R.isAddressHostnameEnabled then platformResolveAddress P address else ""
    country := P.geoIP.elim unknownCountry fun query => (query address).1
    asn := P.geoIP.elim {} fun query => (query address).2 }

def processPort (port : Port) : ResolvedPort :=
  { service := if R.isPortServiceEnabled then platformResolvePort P port else "" }

def process : Request → ResolverEvent
  | .hostname name => .hostname name (platformResolveHostname P name)
  | .service name portType => .service name portType (platformResolveService P name portType)
  | .list (.address a) => .address a (processAddress R P a)
  | .list (.port p) => .port p (processPort R P p)

theorem getRequest_process (q : Request) : (process R P q).getRequest = q := by
  cases q with
  | hostname => rfl
  | service => rfl
  | list q => cases q <;> rfl

end Resolver

/-! ## Both threads -/

inductive AppThread
  | main | resolver | poll | signal
  deriving DecidableEq, Repr

/-- Of other events only the ID matters here. -/
inductive Event
  | resolver (e : ResolverEvent)
  | other (eventID : EGlobalEventID)

def Event.id : Event → EGlobalEventID
  | .resolver _ => .resolverInternalEvent
  | .other eventID => eventID

def Event.ofResolver : Event → Option ResolverEvent
  | .resolver e => some e
  | .other _ => none

inductive EventCallback
  | resolver
  | other (n : ℕ)
  deriving DecidableEq, Repr

/-- Where the resolver thread is in `resolverLoop`. -/
inductive ResolverThread
  | checking
  | waiting
  | processing (q : Request)
  | stopped

def ResolverThread.request : ResolverThread → Option Request
  | .processing q => some q
  | _ => none

structure ResolverSystem where
  list : ConnectionList := {}
  requestQueue : List (Option Request) := []
  thread : ResolverThread := .checking
  isRunning : Bool := true
  events : EventSystem AppThread Event EventCallback :=
    { callbackMap := [(.resolverInternalEvent, .resolver)] }
  asked : List Request := []
  answered : List ResolverEvent := []
  ops : List ConnectionList.Op := []

namespace ResolverSystem

variable (R : Resolver.Settings) (S : StdSort) (inet : InetText) (s : ResolverSystem)

def pushRequest (q : Request) : ResolverSystem :=
  { s with requestQueue := s.requestQueue ++ [some q], asked := s.asked ++ [q] }

/-- What the list asks for in a call. -/
def newRequests (op : ConnectionList.Op) : List Request :=
  ((s.list.step S inet op).resolverRequests.drop s.list.resolverRequests.length).map .list

def listCall (op : ConnectionList.Op) : ResolverSystem :=
  (s.newRequests S inet op).foldl pushRequest
    { s with list := s.list.step S inet op, ops := s.ops ++ [op] }

/-- `onEvent` of the resolver. -/
def onEvent (e : ResolverEvent) : ResolverSystem :=
  let s := { s with answered := s.answered ++ [e] }
  match e.listOp with
  | some op => s.listCall S inet op
  | none => s

/-- What a callback does. The others do it by operations of their own. -/
def call : EventCallback × AppThread × Event → ResolverSystem
  | (.resolver, _, .resolver e) => s.onEvent S inet e
  | _ => s

/-- `act` is a call of the list by other callbacks, and `ask` a request of theirs. -/
inductive Op
  | act (op : ConnectionList.Op)
  | ask (q : Request)
  | pushEvent (p : AppThread) (eventID : EGlobalEventID)
  | addCallback (n : ℕ) (eventID : EGlobalEventID)
  | delCallback (n : ℕ) (eventID : EGlobalEventID)
  | run
  | stop
  | executeNext (p : AppThread)
  | destroy
  | thread (P : ResolverPlatform)

/-- One step of `resolverLoop`. -/
def threadStep (P : ResolverPlatform) : Option ResolverSystem :=
  match s.thread with
  | .checking => some { s with thread := if s.isRunning then .waiting else .stopped }
  | .waiting =>
    match s.requestQueue with
    | [] => none
    | none :: requestQueue => some { s with requestQueue, thread := .checking }
    | some q :: requestQueue => some { s with requestQueue, thread := .processing q }
  | .processing q =>
    some { s with
      thread := .checking
      events := s.events.pushEvent .resolver (.resolver (Resolver.process R P q)) }
  | .stopped => none

/-- The destructor, up to `join`. -/
def destroy : ResolverSystem :=
  { s with
    isRunning := false
    events := s.events.delCallback .resolver .resolverInternalEvent
    requestQueue := s.requestQueue ++ [none] }

/-- From the destructor on, only the resolver thread takes steps here. -/
def mainStep : Op → Option ResolverSystem
  | .act op => if op.answered = none then some (s.listCall S inet op) else none
  | .ask (.list _) => none
  | .ask q => some (s.pushRequest q)
  | .pushEvent p eventID =>
    if eventID ≠ .resolverInternalEvent then
      some { s with events := s.events.pushEvent p (.other eventID) }
    else none
  | .addCallback n eventID => some { s with events := s.events.addCallback (.other n) eventID }
  | .delCallback n eventID => some { s with events := s.events.delCallback (.other n) eventID }
  | .run => some { s with events := { s.events with isRunning := true } }
  | .stop => some { s with events := { s.events with isRunning := false } }
  | .executeNext p =>
    (s.events.executeNext Event.id p).map fun events =>
      (s.events.executedSince events).foldl (call S inet) { s with events }
  | .destroy => some s.destroy
  | .thread _ => none

def step : Op → Option ResolverSystem
  | .thread P => s.threadStep R P
  | op => if s.isRunning then s.mainStep S inet op else none

variable {R S inet} {s s' : ResolverSystem} {op : ConnectionList.Op} {e : ResolverEvent}

/-! ## Every request is in one place -/

def inEvents (s : ResolverSystem) (p : AppThread) : List ResolverEvent :=
  (s.events.eventQueue.queue p).filterMap Event.ofResolver

/-- What has no answer yet, oldest first. -/
def pending (s : ResolverSystem) : List Request :=
  (s.inEvents .resolver).map ResolverEvent.getRequest ++ s.thread.request.toList ++
    s.requestQueue.reduceOption

structure Pipeline (R : Resolver.Settings) (s : ResolverSystem) : Prop where
  order : s.asked = s.answered.map ResolverEvent.getRequest ++ s.pending
  requests : s.asked.filterMap Request.ofList = s.list.resolverRequests
  others : ∀ p, p ≠ .resolver → s.inEvents p = []
  processed : ∀ e ∈ s.answered ++ s.inEvents .resolver, ∃ P, e = Resolver.process R P e.getRequest
  registered : s.isRunning = true →
    s.events.callbackMap.count (.resolverInternalEvent, .resolver) = 1
  woken : s.isRunning = false → s.thread = .waiting → none ∈ s.requestQueue
  stopped : s.thread = .stopped → s.isRunning = false

/-- The calls of the list are a run in which the resolver answers no request twice. -/
def CallsOnce (S : StdSort) (inet : InetText) (s : ResolverSystem) : Prop :=
  GuardedRun.run (ConnectionList.Resolving.step S inet) {} s.ops =
    some { list := s.list
           answered := s.answered.filterMap fun e => e.getRequest.ofList }

theorem foldl_pushRequest (qs : List Request) (s : ResolverSystem) :
    qs.foldl pushRequest s = { s with
      requestQueue := s.requestQueue ++ qs.map some
      asked := s.asked ++ qs } := by
  induction qs generalizing s with
  | nil => simp
  | cons q qs ih => simp [ih, pushRequest]

theorem listCall_eq (s : ResolverSystem) (op : ConnectionList.Op) :
    s.listCall S inet op = { s with
      list := s.list.step S inet op
      ops := s.ops ++ [op]
      requestQueue := s.requestQueue ++ (s.newRequests S inet op).map some
      asked := s.asked ++ s.newRequests S inet op } :=
  foldl_pushRequest _ _

variable (S inet) in
/-- A call of the list only adds to what it has asked for. -/
theorem resolverRequests_prefix (l : ConnectionList) (op : ConnectionList.Op) :
    l.resolverRequests <+: (l.step S inet op).resolverRequests := by
  cases ConnectionList.step_counted S inet l op with
  | same _ _ hcounts =>
    have hrequests : (l.step S inet op).resolverRequests = l.resolverRequests :=
      congrArg (·.2.2.2.2) hcounts
    exact hrequests ▸ List.prefix_refl _
  | adds q _ _ _ _ _ _ hrequests => exact hrequests ▸ List.prefix_append _ _
  | answers q _ _ _ _ _ hrequests => exact hrequests ▸ List.prefix_refl _

theorem newRequests_ofList (s : ResolverSystem) (op : ConnectionList.Op) :
    s.list.resolverRequests ++ (s.newRequests S inet op).filterMap Request.ofList =
      (s.list.step S inet op).resolverRequests := by
  obtain ⟨qs, hqs⟩ := resolverRequests_prefix S inet s.list op
  have hofList : Request.ofList ∘ Request.list = some := rfl
  rw [newRequests, ← hqs, List.drop_left, List.filterMap_map, hofList, List.filterMap_some]

theorem Pipeline.listCall (hs : s.Pipeline R) (op : ConnectionList.Op) :
    (s.listCall S inet op).Pipeline R := by
  rw [listCall_eq]
  refine ⟨?_, ?_, hs.others, hs.processed, hs.registered, fun hr ht => ?_, hs.stopped⟩
  · have hnew : ((s.newRequests S inet op).map some).reduceOption = s.newRequests S inet op := by
      simp [List.reduceOption]
    simp only [pending, inEvents, List.reduceOption_append, hnew, ← List.append_assoc]
    rw [hs.order, pending, inEvents]
    simp only [List.append_assoc]
  · rw [List.filterMap_append, hs.requests, newRequests_ofList]
  · exact List.mem_append_left _ (hs.woken hr ht)

theorem CallsOnce.listCall (hs : s.CallsOnce S inet) (hop : op.answered = none) :
    (s.listCall S inet op).CallsOnce S inet := by
  rw [listCall_eq]
  unfold CallsOnce at hs ⊢
  rw [GuardedRun.run_append, hs, Option.bind_some, GuardedRun.run_cons]
  simp [ConnectionList.Resolving.step, hop]

/-- What comes out of the queue has not been answered. -/
theorem CallsOnce.notMem (hs : s.CallsOnce S inet) (hp : s.Pipeline R) {q : ResolverRequest}
    (hq : .list q ∈ s.pending) :
    q ∈ s.list.resolverRequests ∧ q ∉ s.answered.filterMap fun e => e.getRequest.ofList := by
  have hprogress := (ConnectionList.Progress.init.run hs).1
  have hnodup : s.list.resolverRequests.Nodup :=
    hprogress.requests.nodup_iff.mpr (ConnectionList.nodup_known _)
  rw [← hp.requests, hp.order, List.filterMap_append, List.filterMap_map] at hnodup ⊢
  have hq : q ∈ s.pending.filterMap Request.ofList := List.mem_filterMap.mpr ⟨_, hq, rfl⟩
  exact ⟨List.mem_append_right _ hq,
    fun h => (List.nodup_append.mp hnodup).2.2 q h q hq rfl⟩

/-! ## One step -/

/-- What keeps the events of the resolver and its callback. -/
theorem Pipeline.of_events (hs : s.Pipeline R)
    {events : EventSystem AppThread Event EventCallback}
    (hin : ∀ p, inEvents { s with events } p = s.inEvents p)
    (hcount : events.callbackMap.count (.resolverInternalEvent, .resolver) =
      s.events.callbackMap.count (.resolverInternalEvent, .resolver)) :
    Pipeline R { s with events } where
  order := by
    have horder : s.asked = _ := hs.order
    rw [pending, hin]
    exact horder
  requests := hs.requests
  others p hp := (hin p).trans (hs.others p hp)
  processed := by
    rw [hin]
    exact hs.processed
  registered hr := hcount.trans (hs.registered hr)
  woken := hs.woken
  stopped := hs.stopped

/-- The answer is taken from the queue. -/
theorem Pipeline.answer (hs : s.Pipeline R) {events : EventSystem AppThread Event EventCallback}
    (hin : s.inEvents .resolver = e :: inEvents { s with events } .resolver)
    (hothers : ∀ p, p ≠ .resolver → inEvents { s with events } p = s.inEvents p)
    (hmap : events.callbackMap = s.events.callbackMap) :
    Pipeline R { s with events, answered := s.answered ++ [e] } where
  order := by
    have horder : s.asked = _ := hs.order
    rw [pending, hin] at horder
    rw [horder, pending, List.map_append, List.map_cons]
    simp only [List.append_assoc, List.cons_append, List.map_singleton, List.nil_append]
    rfl
  requests := hs.requests
  others p hp := (hothers p hp).trans (hs.others p hp)
  processed e' he' := by
    refine hs.processed e' ?_
    rw [hin]
    rwa [List.append_assoc, List.singleton_append] at he'
  registered hr := hmap ▸ hs.registered hr
  woken := hs.woken
  stopped := hs.stopped

theorem answered_listOp {op : ConnectionList.Op} (h : e.listOp = some op) :
    ∃ q, e.getRequest.ofList = some q ∧ op.answered = some q := by
  cases e with
  | hostname => cases h
  | service => cases h
  | address a resolvedData => cases h; exact ⟨_, rfl, rfl⟩
  | port p resolvedData => cases h; exact ⟨_, rfl, rfl⟩

theorem ofList_of_listOp_none (h : e.listOp = none) : e.getRequest.ofList = none := by
  cases e with
  | hostname => rfl
  | service => rfl
  | address => cases h
  | port => cases h

theorem onEvent_pipeline (hs : Pipeline R { s with answered := s.answered ++ [e] }) :
    (s.onEvent S inet e).Pipeline R := by
  unfold onEvent
  cases e.listOp with
  | none => exact hs
  | some op => exact hs.listCall op

theorem onEvent_callsOnce (hs : s.CallsOnce S inet)
    (hnew : ∀ q, e.getRequest = .list q → q ∈ s.list.resolverRequests ∧
      q ∉ s.answered.filterMap fun e => e.getRequest.ofList) :
    (s.onEvent S inet e).CallsOnce S inet := by
  unfold onEvent
  cases hop : e.listOp with
  | none =>
    have hnone := ofList_of_listOp_none hop
    unfold CallsOnce at hs ⊢
    rw [hs, List.filterMap_append]
    simp [hnone]
  | some op =>
    obtain ⟨q, hq, hanswered⟩ := answered_listOp hop
    have hlist : e.getRequest = .list q := by
      cases he : e.getRequest <;> rw [he] at hq <;> cases hq
      rfl
    dsimp only
    rw [listCall_eq]
    unfold CallsOnce at hs ⊢
    dsimp only
    rw [GuardedRun.run_append, hs, Option.bind_some, GuardedRun.run_cons,
      ConnectionList.Resolving.step, hanswered]
    dsimp only
    rw [if_pos (hnew q hlist), List.filterMap_append]
    simp [hq]

/-- The callbacks of an event. Those that others have registered do nothing here. -/
theorem foldl_call_resolver (callbacks : List EventCallback) (p : AppThread) (e : ResolverEvent)
    (s : ResolverSystem) (hcount : callbacks.count .resolver = 1) :
    (callbacks.map fun callback => (callback, p, Event.resolver e)).foldl (call S inet) s =
      s.onEvent S inet e := by
  have hnone : ∀ (cs : List EventCallback) (t : ResolverSystem), cs.count .resolver = 0 →
      (cs.map fun callback => (callback, p, Event.resolver e)).foldl (call S inet) t = t := by
    intro cs
    induction cs with
    | nil => exact fun t _ => rfl
    | cons c cs ih =>
      intro t hc
      cases c with
      | resolver => simp at hc
      | other n => exact ih t (by simpa using hc)
  induction callbacks with
  | nil => cases hcount
  | cons c cs ih =>
    cases c with
    | resolver => exact hnone cs _ (by simpa using hcount)
    | other n => exact ih (by simpa using hcount)

theorem foldl_call_other (callbacks : List EventCallback) (p : AppThread)
    (eventID : EGlobalEventID) (s : ResolverSystem) :
    (callbacks.map fun callback => (callback, p, Event.other eventID)).foldl (call S inet) s =
      s := by
  induction callbacks with
  | nil => rfl
  | cons c cs ih => cases c <;> exact ih

/-- A round of the loop. Only an event of the resolver thread calls back the resolver. -/
theorem executeNext_cases (hs : s.Pipeline R) (hrun : s.isRunning = true) {p : AppThread}
    (h : s.mainStep S inet (.executeNext p) = some s') :
    ∃ events : EventSystem AppThread Event EventCallback,
      events.callbackMap = s.events.callbackMap ∧ events.isRunning = s.events.isRunning ∧
      (∀ p', p' ≠ p → events.eventQueue.queue p' = s.events.eventQueue.queue p') ∧
      ((∃ eventID, s.events.eventQueue.queue p =
          .other eventID :: events.eventQueue.queue p ∧ s' = { s with events }) ∨
        ∃ e, p = .resolver ∧
          s.events.eventQueue.queue p = .resolver e :: events.eventQueue.queue p ∧
          s' = onEvent S inet { s with events } e) := by
  obtain ⟨events, hevents, rfl⟩ := Option.map_eq_some_iff.mp h
  unfold EventSystem.executeNext at hevents
  split_ifs at hevents
  obtain ⟨⟨e, eventQueue⟩, hpop, hnext⟩ := Option.map_eq_some_iff.mp hevents
  have hqueue := ProducerQueue.queue_pop hpop
  have hsince : s.events.executedSince events =
      (s.events.callbackRange e.id).map fun callback => (callback, p, e) := by
    rw [EventSystem.executedSince, ← hnext]
    exact List.drop_left
  have hmap : events.callbackMap = s.events.callbackMap := by rw [← hnext]
  have hrunning : events.isRunning = s.events.isRunning := by rw [← hnext]
  obtain rfl : events.eventQueue = eventQueue := by rw [← hnext]
  refine ⟨events, hmap, hrunning, fun p' hp' => ProducerQueue.queue_pop_of_ne hpop hp', ?_⟩
  rw [hsince]
  cases e with
  | other eventID => exact .inl ⟨eventID, hqueue, foldl_call_other _ _ _ _⟩
  | resolver e =>
    have hp : p = .resolver := by
      by_contra hp
      have hnone := hs.others p hp
      rw [inEvents, hqueue] at hnone
      cases hnone
    refine .inr ⟨e, hp, hqueue, foldl_call_resolver _ _ _ _ ?_⟩
    rw [EventSystem.count_callbackRange]
    exact hs.registered hrun

theorem pipeline_executeNext (hs : s.Pipeline R) (hc : s.CallsOnce S inet)
    (hrun : s.isRunning = true) {p : AppThread}
    (h : s.mainStep S inet (.executeNext p) = some s') :
    s'.Pipeline R ∧ s'.CallsOnce S inet := by
  obtain ⟨events, hmap, -, hrest, ⟨eventID, hqueue, rfl⟩ | ⟨e, rfl, hqueue, rfl⟩⟩ :=
    executeNext_cases hs hrun h
  · refine ⟨hs.of_events (fun p' => ?_) (by rw [hmap]), hc⟩
    by_cases hp : p' = p
    · rw [hp, inEvents, inEvents, hqueue]
      rfl
    · rw [inEvents, inEvents, hrest _ hp]
  · have hin : s.inEvents .resolver = e :: inEvents { s with events } .resolver := by
      simp [inEvents, hqueue, Event.ofResolver]
    have hanswer := hs.answer hin (fun p hp => by rw [inEvents, inEvents, hrest p hp]) hmap
    refine ⟨onEvent_pipeline hanswer, onEvent_callsOnce hc fun q hq => ?_⟩
    refine hc.notMem hs ?_
    rw [pending, hin, List.map_cons, hq]
    exact List.mem_cons_self

theorem pipeline_ask (hs : s.Pipeline R) (hrun : s.isRunning = true) {q : Request}
    (hq : q.ofList = none) : (s.pushRequest q).Pipeline R where
  order := by
    have hqueue : (s.requestQueue ++ [some q]).reduceOption = s.requestQueue.reduceOption ++ [q] :=
      List.reduceOption_append _ _
    have horder : s.asked = _ := hs.order
    rw [pending, pushRequest, hqueue]
    dsimp only
    rw [horder, pending]
    simp only [List.append_assoc]
    rfl
  requests := by
    rw [pushRequest, List.filterMap_append, hs.requests]
    simp [hq]
  others := hs.others
  processed := hs.processed
  registered := hs.registered
  woken hr := by
    rw [pushRequest, hrun] at hr
    cases hr
  stopped := hs.stopped

theorem inEvents_pushEvent (s : ResolverSystem) (p p' : AppThread) (eventID : EGlobalEventID) :
    inEvents { s with events := s.events.pushEvent p (.other eventID) } p' = s.inEvents p' := by
  by_cases hp : p' = p
  · subst hp
    simp [inEvents, EventSystem.pushEvent, ProducerQueue.queue_push, Event.ofResolver]
  · simp [inEvents, EventSystem.pushEvent, ProducerQueue.queue_push_of_ne hp]

theorem pipeline_destroy (hs : s.Pipeline R) : s.destroy.Pipeline R where
  order := by
    have hqueue : (s.requestQueue ++ [none]).reduceOption = s.requestQueue.reduceOption :=
      (List.reduceOption_append _ _).trans (List.append_nil _)
    have horder : s.asked = _ := hs.order
    rw [pending, destroy, hqueue]
    exact horder
  requests := hs.requests
  others := hs.others
  processed := hs.processed
  registered hr := by cases hr
  woken _ _ := List.mem_append_right _ List.mem_cons_self
  stopped _ := rfl

theorem pipeline_mainStep (hs : s.Pipeline R) (hc : s.CallsOnce S inet)
    (hrun : s.isRunning = true) {op : Op} (h : s.mainStep S inet op = some s') :
    s'.Pipeline R ∧ s'.CallsOnce S inet := by
  cases op with
  | act op =>
    simp only [mainStep] at h
    split_ifs at h with hop
    cases h
    exact ⟨hs.listCall op, hc.listCall hop⟩
  | ask q =>
    cases q with
    | list q => cases h
    | hostname name => cases h; exact ⟨pipeline_ask hs hrun rfl, hc⟩
    | service name portType => cases h; exact ⟨pipeline_ask hs hrun rfl, hc⟩
  | pushEvent p eventID =>
    simp only [mainStep] at h
    split_ifs at h
    cases h
    exact ⟨hs.of_events (fun p' => inEvents_pushEvent s p p' eventID) rfl, hc⟩
  | addCallback n eventID =>
    cases h
    refine ⟨hs.of_events (fun p' => rfl) ?_, hc⟩
    simp [EventSystem.addCallback, List.count_append]
  | delCallback n eventID =>
    cases h
    exact ⟨hs.of_events (fun p' => rfl) (List.count_filter (by simp)), hc⟩
  | run => cases h; exact ⟨hs.of_events (fun p' => rfl) rfl, hc⟩
  | stop => cases h; exact ⟨hs.of_events (fun p' => rfl) rfl, hc⟩
  | executeNext p => exact pipeline_executeNext hs hc hrun h
  | destroy => cases h; exact ⟨pipeline_destroy hs, hc⟩
  | thread P => cases h

/-! ## The resolver thread -/

/-- What a step of the thread does: it checks whether to go on, takes what is next, or dispatches
an answer. -/
theorem threadStep_cases {P : ResolverPlatform} (h : s.threadStep R P = some s') :
    (s.thread = .checking ∧
      s' = { s with thread := if s.isRunning then .waiting else .stopped }) ∨
    (s.thread = .waiting ∧ ∃ requestQueue,
      s.requestQueue = none :: requestQueue ∧ s' = { s with requestQueue, thread := .checking }) ∨
    (s.thread = .waiting ∧ ∃ q requestQueue, s.requestQueue = some q :: requestQueue ∧
      s' = { s with requestQueue, thread := .processing q }) ∨
    ∃ q, s.thread = .processing q ∧ s' = { s with
      thread := .checking
      events := s.events.pushEvent .resolver (.resolver (Resolver.process R P q)) } := by
  unfold threadStep at h
  cases ht : s.thread with
  | stopped => rw [ht] at h; cases h
  | checking =>
    rw [ht] at h
    exact .inl ⟨rfl, (Option.some.inj h).symm⟩
  | waiting =>
    rw [ht] at h
    cases hqueue : s.requestQueue with
    | nil => rw [hqueue] at h; cases h
    | cons q qs =>
      rw [hqueue] at h
      cases q with
      | none => exact .inr (.inl ⟨rfl, qs, rfl, (Option.some.inj h).symm⟩)
      | some q => exact .inr (.inr (.inl ⟨rfl, q, qs, rfl, (Option.some.inj h).symm⟩))
  | processing q =>
    rw [ht] at h
    exact .inr (.inr (.inr ⟨q, rfl, (Option.some.inj h).symm⟩))

theorem inEvents_dispatch (s : ResolverSystem) (e : ResolverEvent) (p : AppThread) :
    inEvents { s with events := s.events.pushEvent .resolver (.resolver e) } p =
      if p = .resolver then s.inEvents p ++ [e] else s.inEvents p := by
  split_ifs with hp
  · subst hp
    simp [inEvents, EventSystem.pushEvent, ProducerQueue.queue_push, Event.ofResolver]
  · simp [inEvents, EventSystem.pushEvent, ProducerQueue.queue_push_of_ne hp]

theorem pipeline_dispatch (hs : s.Pipeline R) (P : ResolverPlatform) {q : Request}
    (ht : s.thread = .processing q) :
    Pipeline R { s with
      thread := .checking
      events := s.events.pushEvent .resolver (.resolver (Resolver.process R P q)) } := by
  have hdispatch := inEvents_dispatch s (Resolver.process R P q)
  have hin := (hdispatch .resolver).trans (if_pos rfl)
  have hrequest := Resolver.getRequest_process R P q
  refine ⟨?_, hs.requests, fun p hp => ?_, fun e he => ?_, hs.registered, fun _ h => (by cases h),
    fun h => by cases h⟩
  · have horder : s.asked = _ := hs.order
    rw [pending, ht] at horder
    refine horder.trans (congrArg (s.answered.map ResolverEvent.getRequest ++ ·) ?_)
    refine Eq.trans ?_
      (congrArg (fun es : List ResolverEvent => es.map ResolverEvent.getRequest ++ [] ++
        s.requestQueue.reduceOption) hin.symm)
    simp [ResolverThread.request, hrequest]
  · exact ((hdispatch p).trans (if_neg hp)).trans (hs.others p hp)
  · have he : e ∈ s.answered ++ (s.inEvents .resolver ++ [Resolver.process R P q]) := hin ▸ he
    rw [← List.append_assoc, List.mem_append, List.mem_singleton] at he
    rcases he with he | rfl
    · exact hs.processed e he
    · exact ⟨P, by rw [hrequest]⟩

theorem pipeline_threadStep (hs : s.Pipeline R) {P : ResolverPlatform}
    (h : s.threadStep R P = some s') : s'.Pipeline R := by
  have horder : s.asked = _ := hs.order
  rw [pending] at horder
  rcases threadStep_cases h with ⟨ht, rfl⟩ | ⟨ht, qs, hqueue, rfl⟩ | ⟨ht, q, qs, hqueue, rfl⟩ |
    ⟨q, ht, rfl⟩
  · refine ⟨?_, hs.requests, hs.others, hs.processed, hs.registered, fun hr h => ?_, fun h => ?_⟩
    · rw [ht] at horder
      cases hr : s.isRunning <;> exact horder
    · dsimp only at hr h
      rw [hr] at h
      cases h
    · cases hr : s.isRunning with
      | false => rfl
      | true =>
        rw [hr] at h
        cases h
  · refine ⟨?_, hs.requests, hs.others, hs.processed, hs.registered, fun _ h => (by cases h),
      fun h => by cases h⟩
    rw [ht, hqueue] at horder
    exact horder
  · refine ⟨?_, hs.requests, hs.others, hs.processed, hs.registered, fun _ h => (by cases h),
      fun h => by cases h⟩
    rw [ht, hqueue] at horder
    refine horder.trans ?_
    simp [pending, ResolverThread.request]
    rfl
  · exact pipeline_dispatch hs P ht

theorem threadStep_callsOnce (hc : s.CallsOnce S inet) {P : ResolverPlatform}
    (h : s.threadStep R P = some s') : s'.CallsOnce S inet := by
  rcases threadStep_cases h with ⟨-, rfl⟩ | ⟨-, qs, -, rfl⟩ | ⟨-, q, qs, -, rfl⟩ | ⟨q, -, rfl⟩ <;>
    exact hc

/-! ## Runs -/

theorem pipeline_step (hs : s.Pipeline R ∧ s.CallsOnce S inet) {op : Op}
    (h : s.step R S inet op = some s') : s'.Pipeline R ∧ s'.CallsOnce S inet := by
  have hmain : ∀ op, (if s.isRunning then s.mainStep S inet op else none) = some s' →
      s'.Pipeline R ∧ s'.CallsOnce S inet := by
    intro op h
    split_ifs at h with hrun
    exact pipeline_mainStep hs.1 hs.2 hrun h
  cases op with
  | thread P => exact ⟨pipeline_threadStep hs.1 h, threadStep_callsOnce hs.2 h⟩
  | _ => exact hmain _ h

theorem pipeline_init : Pipeline R {} ∧ CallsOnce S inet {} := by
  refine ⟨⟨rfl, rfl, fun _ _ => rfl, fun e he => ?_, fun _ => rfl, fun h => ?_, fun h => ?_⟩, rfl⟩
  · cases he
  · cases h
  · cases h

theorem pipeline_run {ops : List Op} (h : GuardedRun.run (step R S inet) {} ops = some s) :
    s.Pipeline R ∧ s.CallsOnce S inet :=
  GuardedRun.run_inv (I := fun s => s.Pipeline R ∧ s.CallsOnce S inet)
    (fun _ _ _ hs h => pipeline_step hs h) pipeline_init h

/-! ## Everything is answered -/

/-- The steps of the resolver: of its thread, and of the loop with an event of its thread. -/
def Op.IsResolver : Op → Prop
  | .thread _ => True
  | .executeNext p => p = .resolver
  | _ => False

def ResolverThread.work : ResolverThread → ℕ
  | .checking => 1
  | .processing _ => 3
  | _ => 0

/-- How many steps the resolver can take. -/
def work (s : ResolverSystem) : ℕ :=
  4 * s.requestQueue.length + ResolverThread.work s.thread +
    (s.events.eventQueue.queue .resolver).length

/-- An answer does not ask for anything. -/
theorem newRequests_of_answered (s : ResolverSystem) (hop : op.answered ≠ none) :
    s.newRequests S inet op = [] := by
  have hsame : (s.list.step S inet op).resolverRequests = s.list.resolverRequests := by
    cases ConnectionList.step_counted S inet s.list op with
    | same hanswered => exact absurd hanswered hop
    | adds q hanswered => exact absurd hanswered hop
    | answers q _ _ _ _ _ hrequests => exact hrequests
  rw [newRequests, hsame, List.drop_length]
  rfl

variable (S inet) in
/-- Callbacks of the resolver ask for nothing. -/
theorem onEvent_queues (s : ResolverSystem) (e : ResolverEvent) :
    (s.onEvent S inet e).requestQueue = s.requestQueue ∧
      (s.onEvent S inet e).thread = s.thread ∧ (s.onEvent S inet e).events = s.events ∧
      (s.onEvent S inet e).isRunning = s.isRunning := by
  unfold onEvent
  cases hop : e.listOp with
  | none => exact ⟨rfl, rfl, rfl, rfl⟩
  | some op =>
    obtain ⟨q, -, hanswered⟩ := answered_listOp hop
    dsimp only
    rw [listCall_eq, newRequests_of_answered _ (by rw [hanswered]; exact Option.some_ne_none q)]
    exact ⟨List.append_nil _, rfl, rfl, rfl⟩

/-- Every step of the resolver is work that is done. -/
theorem work_step (hs : s.Pipeline R) (hrun : s.isRunning = true) {op : Op} (hop : op.IsResolver)
    (h : s.step R S inet op = some s') :
    s'.work < s.work ∧ s'.isRunning = true ∧ s'.events.isRunning = s.events.isRunning := by
  cases op with
  | thread P =>
    rcases threadStep_cases h with ⟨ht, rfl⟩ | ⟨ht, qs, hqueue, rfl⟩ | ⟨ht, q, qs, hqueue, rfl⟩ |
      ⟨q, ht, rfl⟩
    · refine ⟨?_, hrun, rfl⟩
      simp [work, ht, hrun, ResolverThread.work]
    · refine ⟨?_, hrun, rfl⟩
      simp only [work, ht, hqueue, List.length_cons, ResolverThread.work]
      omega
    · refine ⟨?_, hrun, rfl⟩
      simp only [work, ht, hqueue, List.length_cons, ResolverThread.work]
      omega
    · refine ⟨?_, hrun, rfl⟩
      simp only [work, ht, EventSystem.pushEvent, ProducerQueue.queue_push, List.length_append,
        List.length_singleton, ResolverThread.work]
      omega
  | executeNext p =>
    have h : (if s.isRunning then s.mainStep S inet (.executeNext p) else none) = some s' := h
    rw [if_pos hrun] at h
    obtain rfl : p = .resolver := hop
    obtain ⟨events, -, hrunning, -, ⟨eventID, hqueue, rfl⟩ | ⟨e, -, hqueue, rfl⟩⟩ :=
      executeNext_cases hs hrun h
    · refine ⟨?_, hrun, hrunning⟩
      simp [work, hqueue]
    · obtain ⟨hrequests, hthread, hevents, hrun'⟩ :=
        onEvent_queues S inet { s with events } e
      refine ⟨?_, hrun'.trans hrun, (congrArg _ hevents).trans hrunning⟩
      rw [work, hrequests, hthread, hevents]
      simp [work, hqueue]
  | _ => cases hop

variable (S inet) in
/-- While something is to be done, a step of the resolver is enabled. -/
theorem exists_step (hs : s.Pipeline R) (hrun : s.isRunning = true)
    (hloop : s.events.isRunning = true) (hpending : s.pending ≠ []) :
    ∃ op : Op, op.IsResolver ∧ ∃ s', s.step R S inet op = some s' := by
  cases hqueue : s.events.eventQueue.queue .resolver with
  | cons e es =>
    refine ⟨.executeNext .resolver, rfl, ?_⟩
    have hpop : ∃ x, s.events.executeNext Event.id .resolver = some x := by
      simp [EventSystem.executeNext, hloop, ProducerQueue.pop, hqueue]
    obtain ⟨events, hevents⟩ := hpop
    simp [step, mainStep, hrun, hevents]
  | nil =>
    refine ⟨.thread ⟨fun _ => none, fun _ _ => none, fun _ => none, fun _ => none, none⟩, trivial,
      ?_⟩
    cases ht : s.thread with
    | checking => simp [step, threadStep, ht]
    | processing q => simp [step, threadStep, ht]
    | stopped =>
      rw [hs.stopped ht] at hrun
      cases hrun
    | waiting =>
      cases hrequests : s.requestQueue with
      | nil =>
        refine absurd ?_ hpending
        simp [pending, inEvents, hqueue, ht, hrequests, ResolverThread.request]
      | cons q qs => cases q <;> simp [step, threadStep, ht, hrequests]

/-- What the list shows when nothing is to be done. -/
theorem resolved_of_pending_nil (hs : s.Pipeline R) (hc : s.CallsOnce S inet)
    (hpending : s.pending = []) :
    s.list.isEverythingResolved = true ∧
      s.list.getResolvedPercentage =
        if s.asked.filterMap Request.ofList = [] then -1 else 1000 := by
  have hprogress := (ConnectionList.Progress.init.run hc).1
  have horder : s.asked = _ := hs.order
  rw [hpending, List.append_nil] at horder
  have hanswered :
      s.answered.filterMap (fun e => e.getRequest.ofList) = s.list.resolverRequests := by
    rw [← hs.requests, horder, List.filterMap_map]
    rfl
  have hequal : s.list.dataResolvedCount = s.list.dataTotalCount := by
    have hresolved : s.list.dataResolvedCount = _ := hprogress.resolved
    have htotal : s.list.dataTotalCount = _ := hprogress.total
    have hlength := hprogress.requests.length_eq
    dsimp only at hresolved hlength
    rw [hresolved, htotal, hanswered, hlength]
  refine ⟨beq_iff_eq.mpr hequal, ?_⟩
  rw [hs.requests, ConnectionList.getResolvedPercentage, hequal]
  have htotal : s.list.dataTotalCount = s.list.resolverRequests.length :=
    hprogress.total.trans hprogress.requests.length_eq.symm
  by_cases hnil : s.list.resolverRequests = []
  · rw [if_pos hnil, htotal, hnil]
    rfl
  · have hpos : 0 < s.list.dataTotalCount := htotal ▸ List.length_pos_iff.mpr hnil
    rw [if_neg hnil, if_pos hpos, Nat.mul_div_cancel_left _ hpos]
    rfl

/-- How long the resolver can go on, in any order of its steps. -/
theorem length_le_work (hs : s.Pipeline R ∧ s.CallsOnce S inet) (hrun : s.isRunning = true)
    {ops : List Op} (hops : ∀ op ∈ ops, op.IsResolver)
    (h : GuardedRun.run (step R S inet) s ops = some s') :
    ops.length + s'.work ≤ s.work ∧ s'.isRunning = true ∧
      s'.events.isRunning = s.events.isRunning := by
  induction ops generalizing s with
  | nil =>
    cases h
    exact ⟨by simp, hrun, rfl⟩
  | cons op ops ih =>
    obtain ⟨t, ht, h⟩ := GuardedRun.run_cons_eq_some.mp h
    obtain ⟨hwork, hrun', hloop⟩ := work_step hs.1 hrun (hops op List.mem_cons_self) ht
    obtain ⟨hle, hrun'', hloop'⟩ := ih (pipeline_step hs ht) hrun'
      (fun op hop => hops op (List.mem_cons_of_mem _ hop)) h
    refine ⟨?_, hrun'', hloop'.trans hloop⟩
    rw [List.length_cons]
    omega

/-- **Every request is answered**, in the order in which it was asked. At any time the answers are
those of the first requests, and the calls of the list a run in which no request is answered twice.
From any state, while the resolver and the loop run, they take only so many steps, and as soon as
they have taken all they can, in any order, all is answered and the list says so. -/
theorem answers_in_order {ops ops' : List Op} (h : GuardedRun.run (step R S inet) {} ops = some s)
    (hops : ∀ op ∈ ops', op.IsResolver) (h' : GuardedRun.run (step R S inet) s ops' = some s') :
    s.answered.map ResolverEvent.getRequest <+: s.asked ∧
      (∀ e ∈ s.answered, ∃ P, e = Resolver.process R P e.getRequest) ∧
      GuardedRun.run (ConnectionList.Resolving.step S inet) {} s.ops =
        some { list := s.list
               answered := s.answered.filterMap fun e => e.getRequest.ofList } ∧
      (s.isRunning = true → s.events.isRunning = true →
        ops'.length ≤ s.work ∧
        ((∀ op : Op, op.IsResolver → s'.step R S inet op = none) →
          s'.answered.map ResolverEvent.getRequest = s'.asked ∧
          s'.list.isEverythingResolved = true ∧
          s'.list.getResolvedPercentage =
            if s'.asked.filterMap Request.ofList = [] then -1 else 1000)) := by
  have hs := pipeline_run h
  have hs' : s'.Pipeline R ∧ s'.CallsOnce S inet :=
    GuardedRun.run_inv (I := fun s => s.Pipeline R ∧ s.CallsOnce S inet)
      (fun _ _ _ hs h => pipeline_step hs h) hs h'
  refine ⟨⟨_, hs.1.order.symm⟩, fun e he => hs.1.processed e (List.mem_append_left _ he), hs.2,
    fun hrun hloop => ?_⟩
  obtain ⟨hle, hrun', hloop'⟩ := length_le_work hs hrun hops h'
  refine ⟨(Nat.le_add_right _ _).trans hle, fun hstuck => ?_⟩
  have hpending : s'.pending = [] := by
    by_contra hne
    obtain ⟨op, hop, t, ht⟩ :=
      exists_step S inet hs'.1 hrun' (hloop'.trans hloop) hne
    rw [hstuck op hop] at ht
    cases ht
  have horder : s'.asked = _ := hs'.1.order
  rw [hpending, List.append_nil] at horder
  exact ⟨horder.symm, resolved_of_pending_nil hs'.1 hs'.2 hpending⟩

private def noNames : ResolverPlatform :=
  ⟨fun _ => none, fun _ _ => none, fun _ => none, fun _ => none, none⟩

/-- An address that the list adds, with the resolver thread in front of it. -/
private def askedAddress : List Op :=
  [.run, .thread noNames, .act (.getAddress (.ip4 0x0A000001#32) true), .thread noNames]

private def answeredAddress : List Op :=
  [.thread noNames, .thread noNames, .executeNext .resolver]

private def resolvingAddress : ResolverSystem :=
  (GuardedRun.run (step {} .insertion .plain) {} askedAddress).getD {}

theorem answers_in_order_address : ∃ s' : ResolverSystem,
    GuardedRun.run (step {} .insertion .plain) resolvingAddress answeredAddress = some s' ∧
      resolvingAddress.answered.map ResolverEvent.getRequest <+: resolvingAddress.asked ∧
      s'.answered.map ResolverEvent.getRequest = s'.asked ∧
      s'.list.getResolvedPercentage =
        if s'.asked.filterMap Request.ofList = [] then -1 else 1000 := by
  have h : GuardedRun.run (step {} .insertion .plain) {} askedAddress = some resolvingAddress :=
    rfl
  have h' : GuardedRun.run (step {} .insertion .plain) resolvingAddress answeredAddress =
    some _ := rfl
  have hops : ∀ op ∈ answeredAddress, op.IsResolver := by
    simp only [answeredAddress, List.forall_mem_cons]
    exact ⟨trivial, trivial, rfl, List.forall_mem_nil _⟩
  obtain ⟨hfirst, -, -, hall⟩ := answers_in_order h hops h'
  refine ⟨_, h', hfirst, ?_⟩
  obtain ⟨-, hanswered⟩ := hall rfl rfl
  obtain ⟨horder, -, hpercent⟩ := hanswered fun op hop => by
    cases op with
    | thread P => rfl
    | executeNext p =>
      obtain rfl : p = .resolver := hop
      rfl
    | _ => cases hop
  exact ⟨horder, hpercent⟩

/-! ## The destructor -/

def ResolverThread.toJoin : ResolverThread → ℕ
  | .waiting => 3
  | .processing _ => 2
  | .checking => 1
  | .stopped => 0

theorem toJoin_step (hrun : s.isRunning = false) {op : Op} (h : s.step R S inet op = some s') :
    ResolverThread.toJoin s'.thread < ResolverThread.toJoin s.thread ∧ s'.isRunning = false ∧
      s'.list = s.list ∧ s'.answered = s.answered := by
  have hmain : (if s.isRunning then s.mainStep S inet op else none) ≠ some s' := by
    simp [hrun]
  cases op with
  | thread P =>
    rcases threadStep_cases h with ⟨ht, rfl⟩ | ⟨ht, qs, -, rfl⟩ | ⟨ht, q, qs, -, rfl⟩ | ⟨q, ht, rfl⟩
    all_goals
      refine ⟨?_, hrun, rfl, rfl⟩
      simp [ht, hrun, ResolverThread.toJoin]
  | _ => exact absurd h hmain

theorem length_le_toJoin (hrun : s.isRunning = false) {ops : List Op}
    (h : GuardedRun.run (step R S inet) s ops = some s') :
    ops.length + ResolverThread.toJoin s'.thread ≤ ResolverThread.toJoin s.thread ∧
      s'.isRunning = false ∧ s'.list = s.list ∧ s'.answered = s.answered := by
  induction ops generalizing s with
  | nil =>
    cases h
    exact ⟨by simp, hrun, rfl, rfl⟩
  | cons op ops ih =>
    obtain ⟨t, ht, h⟩ := GuardedRun.run_cons_eq_some.mp h
    obtain ⟨hlt, hrun', hlist, hanswered⟩ := toJoin_step hrun ht
    obtain ⟨hle, hrun'', hlist', hanswered'⟩ := ih hrun' h
    refine ⟨?_, hrun'', hlist'.trans hlist, hanswered'.trans hanswered⟩
    rw [List.length_cons]
    omega

/-- **The destructor returns.** Behind it, the resolver thread is never blocked before it stops, and
stops after three steps at most, whatever is still in its queue. Nothing is answered any more. -/
theorem join_returns {ops ops' : List Op} (h : GuardedRun.run (step R S inet) {} ops = some s)
    (hrun : s.isRunning = false) (h' : GuardedRun.run (step R S inet) s ops' = some s') :
    ops'.length ≤ 3 ∧ s'.list = s.list ∧ s'.answered = s.answered ∧
      (s'.thread = .stopped ∨ ∀ P, ∃ t, s'.threadStep R P = some t) := by
  obtain ⟨hle, hrun', hlist, hanswered⟩ := length_le_toJoin hrun h'
  refine ⟨?_, hlist, hanswered, ?_⟩
  · have hthree : ResolverThread.toJoin s.thread ≤ 3 := by
      cases s.thread <;> simp [ResolverThread.toJoin]
    omega
  · have hs' : s'.Pipeline R := by
      have hall : GuardedRun.run (step R S inet) {} (ops ++ ops') = some s' := by
        rw [GuardedRun.run_append, h]
        exact h'
      exact (pipeline_run hall).1
    cases ht : s'.thread with
    | stopped => exact .inl rfl
    | checking => exact .inr fun P => by simp [threadStep, ht]
    | processing q => exact .inr fun P => by simp [threadStep, ht]
    | waiting =>
      have hnone := hs'.woken hrun' ht
      refine .inr fun P => ?_
      cases hqueue : s'.requestQueue with
      | nil => rw [hqueue] at hnone; cases hnone
      | cons q qs => cases q <;> simp [threadStep, ht, hqueue]

/-- A request is in the queue when the destructor runs, and the thread waits. -/
private def destroyOps : List Op :=
  [.thread noNames, .ask (.hostname "localhost"), .ask (.hostname "conntop"), .destroy]

private def joining : ResolverSystem :=
  (GuardedRun.run (step {} .insertion .plain) {} destroyOps).getD {}

private def joinOps : List Op := [.thread noNames, .thread noNames, .thread noNames]

theorem join_returns_hostname : ∃ s' : ResolverSystem,
    GuardedRun.run (step {} .insertion .plain) joining joinOps = some s' ∧
      s'.answered = joining.answered ∧
      (s'.thread = .stopped ∨ ∀ P, ∃ t, s'.threadStep {} P = some t) := by
  have h : GuardedRun.run (step {} .insertion .plain) {} destroyOps = some joining := rfl
  have h' : GuardedRun.run (step {} .insertion .plain) joining joinOps = some _ := rfl
  obtain ⟨-, -, hanswered, hthread⟩ := join_returns h rfl h'
  exact ⟨_, h', hanswered, hthread⟩

end ResolverSystem

end Conntop
