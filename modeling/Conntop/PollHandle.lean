import Conntop.SocketWriter
import Mathlib.Tactic.Linarith

/-!
# `PollHandle`

The vector of `pollfd` structures of the poll thread. A descriptor that had an event is ignored
until its next `reset`: its number is replaced by a negative one, for which `poll` reports nothing.
`watched` is what the vector says apart from that: which descriptors, and which events for each.

* A descriptor is an `int` that is not negative (`Fd`). The field of a `pollfd` may be negative.
* `ready` is what the kernel would report for a descriptor. `poll` reports the requested events,
  and errors that nobody has to request. It returns no sooner than something is reported, or when
  it is interrupted.

Main results: `watched_add`, `watched_reset`, `watched_remove`: what the requests do to the watched
descriptors, and `getNextEvent_cases`, everything that `getNextEvent` can do. `Fetches` is what the
rest of the poll thread needs of it.
-/

namespace Conntop

/-- A file descriptor: an `int` that is not negative. -/
abbrev Fd := Fin 2147483648

namespace Fd

def toInt (fd : Fd) : ℤ := (fd : ℕ)

theorem toInt_nonneg (fd : Fd) : 0 ≤ fd.toInt := Int.natCast_nonneg _

theorem toInt_lt (fd : Fd) : fd.toInt < 2147483648 := Int.ofNat_lt.mpr fd.isLt

theorem toInt_injective {fd fd' : Fd} (h : fd.toInt = fd'.toInt) : fd = fd' :=
  Fin.ext (Int.ofNat.inj h)

end Fd

/-! ## Flags and events -/

def POLLIN : BitVec 16 := 0x01
def POLLOUT : BitVec 16 := 0x04
def POLLERR : BitVec 16 := 0x08
def POLLHUP : BitVec 16 := 0x10
def POLLNVAL : BitVec 16 := 0x20

/-- Whether `events` and `mask` have a bit in common. -/
def testEvents (events mask : BitVec 16) : Bool := events &&& mask != 0

def flagsToEvents (flags : Flags) : BitVec 16 :=
  (if flags.test EPollFlags.input then POLLIN else 0) |||
    if flags.test EPollFlags.output then POLLOUT else 0

def eventsToFlags (events : BitVec 16) : Flags :=
  (if testEvents events POLLIN then EPollFlags.input else 0) |||
    (if testEvents events POLLOUT then EPollFlags.output else 0) |||
    if testEvents events POLLERR || testEvents events POLLHUP || testEvents events POLLNVAL then
      EPollFlags.error
    else 0

/-- `pollfd` -/
structure PollFd where
  fd : ℤ
  events : BitVec 16
  revents : BitVec 16 := 0
  deriving DecidableEq, Repr

structure PollHandle where
  descriptors : List PollFd := []
  /-- `m_eventIndex`, where -1 is `none`. -/
  eventIndex : Option ℕ := none
  deriving DecidableEq, Repr

namespace PollHandle

structure PollEvent where
  fd : ℤ := -1
  flags : Flags := 0
  hasError : Bool := false
  hasHangUp : Bool := false
  hasInvalidFD : Bool := false
  deriving DecidableEq, Repr

def PollEvent.isEmpty (event : PollEvent) : Bool := event.fd < 0

def INT_MIN : ℤ := -2147483648

/-- The number under which a descriptor is ignored. -/
def negativeFD (fd : ℤ) : ℤ := if fd = 0 then INT_MIN else -fd

/-- What `getNextEvent` returns for a descriptor. -/
def eventOf (d : PollFd) : PollEvent :=
  { fd := d.fd
    flags := eventsToFlags d.revents
    hasError := testEvents d.revents POLLERR
    hasHangUp := testEvents d.revents POLLHUP
    hasInvalidFD := testEvents d.revents POLLNVAL }

/-! ## The operations -/

variable (h : PollHandle)

def add (fd : ℤ) (flags : Flags) : PollHandle :=
  { h with descriptors := h.descriptors ++ [{ fd := fd, events := flagsToEvents flags }] }

/-- Whether `reset` and `remove` take a `pollfd` for the descriptor. -/
def isFor (fd : ℤ) (d : PollFd) : Bool := d.fd = fd || d.fd = negativeFD fd

/-- The loop of `reset`. -/
def resetLoop (fd : ℤ) (flags : Flags) : List PollFd → List PollFd
  | [] => []
  | d :: ds =>
    if isFor fd d then { d with fd := fd, events := flagsToEvents flags } :: ds
    else d :: resetLoop fd flags ds

def reset (fd : ℤ) (flags : Flags) : PollHandle :=
  { h with descriptors := resetLoop fd flags h.descriptors }

def remove (fd : ℤ) : PollHandle :=
  { h with descriptors := h.descriptors.filter fun d => !isFor fd d }

/-- What `poll` writes to a `pollfd`. -/
def poll (ready : ℤ → BitVec 16) (d : PollFd) : PollFd :=
  { d with
    revents :=
      if d.fd < 0 then 0 else ready d.fd &&& (d.events ||| POLLERR ||| POLLHUP ||| POLLNVAL) }

/-- `wait`, where `poll` returns with events. It is `none` where it blocks. -/
def wait (ready : ℤ → BitVec 16) : Option PollHandle :=
  if h.descriptors.any fun d => (poll ready d).revents ≠ 0 then
    some { descriptors := h.descriptors.map (poll ready), eventIndex := some 0 }
  else none

/-- `wait`, where `poll` is interrupted by a signal. -/
def interrupt : PollHandle := { h with eventIndex := none }

def getNextEvent : PollEvent × PollHandle :=
  match h.eventIndex with
  | none => ({}, h)
  | some i =>
    let passed := (h.descriptors.drop i).takeWhile fun d => d.revents = 0
    match (h.descriptors.drop i).dropWhile fun d => d.revents = 0 with
    | [] => ({}, { h with eventIndex := none })
    | d :: ds =>
      (eventOf d,
        { descriptors := h.descriptors.take i ++ passed ++ { d with fd := negativeFD d.fd } :: ds
          eventIndex := some (i + passed.length + 1) })

/-! ## What is watched -/

/-- The descriptor of a `pollfd`, ignored or not. -/
def fdOf (x : ℤ) : ℤ := if 0 ≤ x then x else if x = INT_MIN then 0 else -x

theorem negativeFD_neg {x : ℤ} (hx : 0 ≤ x) : negativeFD x < 0 := by
  rw [negativeFD, INT_MIN]
  split_ifs <;> omega

theorem fdOf_toInt (fd : Fd) : fdOf fd.toInt = fd.toInt := if_pos fd.toInt_nonneg

theorem fdOf_of_nonneg {x : ℤ} (hx : 0 ≤ x) : fdOf x = x := if_pos hx

theorem fdOf_negativeFD {x : ℤ} (hx : 0 ≤ x) (hlt : x < 2147483648) : fdOf (negativeFD x) = x := by
  rw [fdOf, negativeFD, INT_MIN]
  split_ifs <;> omega

/-- `reset` and `remove` take exactly the `pollfd` structures of the descriptor. -/
theorem isFor_iff (fd : Fd) (d : PollFd) : isFor fd.toInt d = true ↔ fdOf d.fd = fd.toInt := by
  have h0 := fd.toInt_nonneg
  have hlt := fd.toInt_lt
  rw [isFor, Bool.or_eq_true, decide_eq_true_eq, decide_eq_true_eq, fdOf, negativeFD, INT_MIN]
  split_ifs <;> omega

/-- The descriptors and the events that are requested for each. -/
def watched : List (ℤ × BitVec 16) := h.descriptors.map fun d => (fdOf d.fd, d.events)

/-- `reset` on the watched descriptors. -/
def rewatch (fd : ℤ) (events : BitVec 16) : List (ℤ × BitVec 16) → List (ℤ × BitVec 16)
  | [] => []
  | w :: ws => if w.1 = fd then (fd, events) :: ws else w :: rewatch fd events ws

theorem watched_add (fd : Fd) (flags : Flags) :
    (h.add fd.toInt flags).watched = h.watched ++ [(fd.toInt, flagsToEvents flags)] := by
  rw [watched, add, List.map_append, List.map_singleton, fdOf_toInt]
  rfl

theorem watched_reset (fd : Fd) (flags : Flags) :
    (h.reset fd.toInt flags).watched = rewatch fd.toInt (flagsToEvents flags) h.watched := by
  rw [watched, reset, watched]
  induction h.descriptors with
  | nil => rfl
  | cons d ds ih =>
    rw [resetLoop, List.map_cons, rewatch]
    by_cases hd : fdOf d.fd = fd.toInt
    · rw [if_pos ((isFor_iff fd d).mpr hd), if_pos hd, List.map_cons, fdOf_toInt]
    · rw [if_neg (mt (isFor_iff fd d).mp hd), if_neg hd, List.map_cons, ih]

theorem rewatch_eq_self {fd : ℤ} {events : BitVec 16} {ws : List (ℤ × BitVec 16)}
    (hws : ∀ w ∈ ws, w.1 = fd → w.2 = events) : rewatch fd events ws = ws := by
  induction ws with
  | nil => rfl
  | cons w ws ih =>
    rw [rewatch]
    split_ifs with hw
    · rw [← hw, ← hws w List.mem_cons_self hw]
    · rw [ih fun v hv => hws v (List.mem_cons_of_mem _ hv)]

theorem watched_remove (fd : Fd) :
    (h.remove fd.toInt).watched = h.watched.filter fun w => w.1 ≠ fd.toInt := by
  rw [watched, remove, watched, List.filter_map]
  refine congrArg _ (List.filter_congr fun d _ => ?_)
  rw [Bool.eq_iff_iff, Bool.not_eq_true', Function.comp_apply, decide_eq_true_eq,
    ← Bool.not_eq_true, isFor_iff]

/-- Everything that `wait` can do when it returns with events. -/
theorem wait_eq_some {h h' : PollHandle} {ready : ℤ → BitVec 16} (hw : h.wait ready = some h') :
    h' = { descriptors := h.descriptors.map (poll ready), eventIndex := some 0 } := by
  rw [wait] at hw
  split_ifs at hw
  exact (Option.some.inj hw).symm

theorem watched_wait {h h' : PollHandle} {ready : ℤ → BitVec 16} (hw : h.wait ready = some h') :
    h'.watched = h.watched := by
  rw [wait_eq_some hw, watched, List.map_map]
  rfl

/-- Everything that `getNextEvent` can do: it returns nothing and no event is left, or it returns
the event of the first descriptor that has one, and this is ignored from then on. -/
theorem getNextEvent_cases (h : PollHandle) :
    (h.getNextEvent = ({}, { h with eventIndex := none })) ∨
      ∃ i pre d ds, h.eventIndex = some i ∧ h.descriptors = pre ++ d :: ds ∧ i ≤ pre.length ∧
        (∀ p ∈ pre.drop i, p.revents = 0) ∧ d.revents ≠ 0 ∧
        h.getNextEvent = (eventOf d,
          { descriptors := pre ++ { d with fd := negativeFD d.fd } :: ds
            eventIndex := some (pre.length + 1) }) := by
  obtain ⟨descriptors, eventIndex⟩ := h
  cases eventIndex with
  | none => exact .inl rfl
  | some i =>
    set passed := (descriptors.drop i).takeWhile fun d => d.revents = 0 with hpassed
    cases hrest : (descriptors.drop i).dropWhile fun d => d.revents = 0 with
    | nil =>
      refine .inl ?_
      simp only [getNextEvent, hrest]
    | cons d ds =>
      have hsplit : descriptors.drop i = passed ++ d :: ds := by
        rw [hpassed, ← hrest, List.takeWhile_append_dropWhile]
      have hlen : (descriptors.take i).length = i := by
        refine List.length_take_of_le (Nat.le_of_lt (Nat.lt_of_not_le fun hle => ?_))
        rw [List.drop_eq_nil_of_le hle] at hsplit
        exact absurd hsplit.symm (by simp)
      refine .inr ⟨i, descriptors.take i ++ passed, d, ds, rfl, ?_, ?_, ?_, ?_, ?_⟩
      · rw [List.append_assoc, ← hsplit, List.take_append_drop]
      · rw [List.length_append, hlen]
        exact Nat.le_add_right _ _
      · intro p hp
        rw [List.drop_left' hlen, hpassed] at hp
        have hp := List.mem_takeWhile_imp hp
        exact of_decide_eq_true hp
      · have hne : (descriptors.drop i).dropWhile (fun d => decide (d.revents = 0)) ≠ [] := by
          rw [hrest]
          exact List.cons_ne_nil _ _
        have hd := List.head_dropWhile_not (fun d : PollFd => decide (d.revents = 0)) hne
        simp only [hrest, List.head_cons] at hd
        exact of_decide_eq_false hd
      · simp only [getNextEvent, hrest, ← hpassed, List.length_append, hlen]

/-! ## One descriptor -/

/-- The numbers and the requested events of the `pollfd` structures of one descriptor. -/
def entries (fd : Fd) : List (ℤ × BitVec 16) :=
  (h.descriptors.filter fun d => fdOf d.fd = fd.toInt).map fun d => (d.fd, d.events)

theorem entries_add_of_ne {fd fd' : Fd} (hne : fd' ≠ fd) (flags : Flags) :
    (h.add fd'.toInt flags).entries fd = h.entries fd := by
  have hfd : ¬fdOf fd'.toInt = fd.toInt := by
    rw [fdOf_toInt]
    exact mt Fd.toInt_injective hne
  rw [entries, add, List.filter_append, List.filter_singleton, decide_eq_false hfd]
  exact congrArg _ (List.append_nil _)

theorem entries_reset_of_ne {fd fd' : Fd} (hne : fd' ≠ fd) (flags : Flags) :
    (h.reset fd'.toInt flags).entries fd = h.entries fd := by
  rw [entries, reset, entries]
  refine congrArg _ ?_
  induction h.descriptors with
  | nil => rfl
  | cons d ds ih =>
    rw [resetLoop]
    by_cases hd : fdOf d.fd = fd'.toInt
    · have hdne : ¬fdOf d.fd = fd.toInt := fun he => hne (Fd.toInt_injective (hd.symm.trans he))
      have hfd : ¬fdOf fd'.toInt = fd.toInt := by rwa [fdOf_toInt, ← hd]
      rw [if_pos ((isFor_iff fd' d).mpr hd), List.filter_cons_of_neg (by simpa using hfd),
        List.filter_cons_of_neg (by simpa using hdne)]
    · rw [if_neg (mt (isFor_iff fd' d).mp hd), List.filter_cons, List.filter_cons, ih]

theorem entries_reset_self {fd : Fd} {x : ℤ × BitVec 16} (hx : h.entries fd = [x])
    (flags : Flags) : (h.reset fd.toInt flags).entries fd = [(fd.toInt, flagsToEvents flags)] := by
  rw [entries] at hx
  rw [entries, reset]
  revert hx
  induction h.descriptors with
  | nil => exact fun hx => absurd hx (by simp)
  | cons d ds ih =>
    intro hx
    rw [resetLoop]
    by_cases hd : fdOf d.fd = fd.toInt
    · rw [List.filter_cons_of_pos (by simpa using hd), List.map_cons, List.cons_eq_cons] at hx
      rw [if_pos ((isFor_iff fd d).mpr hd), List.filter_cons_of_pos (by simpa using fdOf_toInt fd),
        List.map_cons, hx.2]
    · rw [List.filter_cons_of_neg (by simpa using hd)] at hx
      rw [if_neg (mt (isFor_iff fd d).mp hd), List.filter_cons_of_neg (by simpa using hd)]
      exact ih hx

theorem entries_remove_of_ne {fd fd' : Fd} (hne : fd' ≠ fd) :
    (h.remove fd'.toInt).entries fd = h.entries fd := by
  rw [entries, remove, List.filter_filter]
  refine congrArg _ (List.filter_congr fun d _ => ?_)
  by_cases hd : fdOf d.fd = fd.toInt
  · have hfor : isFor fd'.toInt d = false := by
      rw [← Bool.not_eq_true, isFor_iff]
      exact fun he => hne (Fd.toInt_injective (he.symm.trans hd))
    rw [hfor, decide_eq_true hd]
    rfl
  · rw [decide_eq_false hd]
    rfl

theorem entries_wait {h h' : PollHandle} {ready : ℤ → BitVec 16} (hw : h.wait ready = some h')
    (fd : Fd) : h'.entries fd = h.entries fd := by
  rw [wait_eq_some hw, entries, List.filter_map, List.map_map]
  rfl

/-! ## Events that are not fetched yet -/

/-- The descriptors whose events of the last `wait` are not fetched yet. -/
def unfetched : List ℤ :=
  match h.eventIndex with
  | none => []
  | some i => ((h.descriptors.drop i).filter fun d => d.revents ≠ 0).map fun d => fdOf d.fd

/-- The numbers are those of an `int`, and no event is left for a descriptor that is ignored. -/
structure Wf : Prop where
  lt : ∀ d ∈ h.descriptors, d.fd < 2147483648
  nonneg : ∀ i, h.eventIndex = some i → ∀ d ∈ h.descriptors.drop i, d.revents ≠ 0 → 0 ≤ d.fd

theorem unfetched_of_none (hi : h.eventIndex = none) : h.unfetched = [] := by
  rw [unfetched, hi]

theorem mem_unfetched {x : ℤ} : x ∈ h.unfetched ↔
    ∃ i, h.eventIndex = some i ∧ ∃ d ∈ h.descriptors.drop i, d.revents ≠ 0 ∧ fdOf d.fd = x := by
  rw [unfetched]
  cases h.eventIndex with
  | none => simp
  | some i => simp [and_assoc]

theorem Wf.of_none {h : PollHandle} (hlt : ∀ d ∈ h.descriptors, d.fd < 2147483648)
    (hi : h.eventIndex = none) : h.Wf :=
  ⟨hlt, fun i hi' => absurd (hi.symm.trans hi') (by simp)⟩

theorem mem_resetLoop {fd : ℤ} {flags : Flags} {d : PollFd} {ds : List PollFd} {i : ℕ}
    (hd : d ∈ (resetLoop fd flags ds).drop i) :
    d ∈ ds.drop i ∨ ∃ e ∈ ds.drop i, isFor fd e = true ∧
      d = { e with fd := fd, events := flagsToEvents flags } := by
  induction ds generalizing i with
  | nil => exact .inl hd
  | cons e ds ih =>
    rw [resetLoop] at hd
    cases i with
    | zero =>
      split_ifs at hd with he
      · obtain rfl | hd := List.mem_cons.mp hd
        · exact .inr ⟨e, List.mem_cons_self, he, rfl⟩
        · exact .inl (List.mem_cons_of_mem _ hd)
      · obtain rfl | hd := List.mem_cons.mp hd
        · exact .inl List.mem_cons_self
        · obtain hd | ⟨e', he', hd⟩ := ih (i := 0) hd
          · exact .inl (List.mem_cons_of_mem _ hd)
          · exact .inr ⟨e', List.mem_cons_of_mem _ he', hd⟩
    | succ i =>
      split_ifs at hd with he
      · exact .inl hd
      · exact ih hd

theorem Wf.add {h : PollHandle} (hw : h.Wf) (fd : Fd) (flags : Flags) :
    (h.add fd.toInt flags).Wf where
  lt d hd := by
    obtain hd | hd := List.mem_append.mp hd
    · exact hw.lt d hd
    · rw [List.mem_singleton.mp hd]
      exact fd.toInt_lt
  nonneg i hi d hd hr := by
    rw [PollHandle.add, List.drop_append, List.mem_append] at hd
    obtain hd | hd := hd
    · exact hw.nonneg i hi d hd hr
    · rw [List.mem_singleton.mp (List.mem_of_mem_drop hd)]
      exact fd.toInt_nonneg

theorem Wf.reset {h : PollHandle} (hw : h.Wf) (fd : Fd) (flags : Flags) :
    (h.reset fd.toInt flags).Wf where
  lt d hd := by
    obtain hd | ⟨e, -, -, rfl⟩ := mem_resetLoop (i := 0) hd
    · exact hw.lt d hd
    · exact fd.toInt_lt
  nonneg i hi d hd hr := by
    obtain hd | ⟨e, -, -, rfl⟩ := mem_resetLoop hd
    · exact hw.nonneg i hi d hd hr
    · exact fd.toInt_nonneg

theorem Wf.remove {h : PollHandle} (hw : h.Wf) (hi : h.eventIndex = none) (fd : ℤ) :
    (h.remove fd).Wf :=
  .of_none (fun d hd => hw.lt d (List.mem_of_mem_filter hd)) hi

theorem Wf.interrupt {h : PollHandle} (hw : h.Wf) : h.interrupt.Wf := .of_none hw.lt rfl

theorem nonneg_of_revents {ready : ℤ → BitVec 16} {d : PollFd} (hr : (poll ready d).revents ≠ 0) :
    0 ≤ d.fd := by
  by_contra hd
  exact hr (if_pos (not_le.mp hd))

theorem Wf.wait {h h' : PollHandle} (hw : h.Wf) {ready : ℤ → BitVec 16}
    (hs : h.wait ready = some h') : h'.Wf where
  lt d hd := by
    rw [wait_eq_some hs] at hd
    obtain ⟨e, he, rfl⟩ := List.mem_map.mp hd
    exact hw.lt e he
  nonneg i _ d hd hr := by
    rw [wait_eq_some hs] at hd
    obtain ⟨e, -, rfl⟩ := List.mem_map.mp (List.mem_of_mem_drop hd)
    exact nonneg_of_revents hr

/-- After `wait`, the descriptors with events are among those that were not ignored. -/
theorem mem_unfetched_wait {h h' : PollHandle} {ready : ℤ → BitVec 16}
    (hs : h.wait ready = some h') {x : ℤ} (hx : x ∈ h'.unfetched) :
    ∃ d ∈ h.descriptors, d.fd = x ∧ 0 ≤ d.fd := by
  obtain ⟨i, -, d, hd, hr, rfl⟩ := (mem_unfetched h').mp hx
  rw [wait_eq_some hs] at hd
  obtain ⟨e, he, rfl⟩ := List.mem_map.mp (List.mem_of_mem_drop hd)
  have h0 := nonneg_of_revents hr
  exact ⟨e, he, (fdOf_of_nonneg h0).symm, h0⟩

theorem mem_unfetched_reset {fd : Fd} {flags : Flags} {x : ℤ}
    (hx : x ∈ (h.reset fd.toInt flags).unfetched) : x ∈ h.unfetched := by
  obtain ⟨i, hi, d, hd, hr, rfl⟩ := (mem_unfetched _).mp hx
  obtain hd | ⟨e, he, hfor, rfl⟩ := mem_resetLoop hd
  · exact (mem_unfetched h).mpr ⟨i, hi, d, hd, hr, rfl⟩
  · refine (mem_unfetched h).mpr ⟨i, hi, e, he, hr, ?_⟩
    rw [(isFor_iff fd e).mp hfor, fdOf_toInt]

/-- What `getNextEvent` returns and leaves, where the numbers are well formed. -/
structure Fetches (event : PollEvent) (h' : PollHandle) : Prop where
  wf : h'.Wf
  watched : h'.watched = h.watched
  armed : ∀ d ∈ h'.descriptors, 0 ≤ d.fd → d ∈ h.descriptors
  unfetched : ∀ x ∈ h'.unfetched, x ∈ h.unfetched
  done : event.isEmpty = true → h'.eventIndex = none
  fetched : event.isEmpty = false → event.fd ∈ h.unfetched
  entries : ∀ fd : Fd, fd.toInt ≠ event.fd → h'.entries fd = h.entries fd
  ignored : ∀ (fd : Fd) events, fd.toInt = event.fd → h.entries fd = [(fd.toInt, events)] →
    h'.entries fd = [(negativeFD fd.toInt, events)]

theorem getNextEvent_fetches {h : PollHandle} (hw : h.Wf) :
    h.Fetches h.getNextEvent.1 h.getNextEvent.2 := by
  obtain heq | ⟨i, pre, d, ds, hi, hds, hle, -, hr, heq⟩ := getNextEvent_cases h
  · -- no event is left
    rw [heq]
    exact
      { wf := .of_none hw.lt rfl
        watched := rfl
        armed := fun d hd _ => hd
        unfetched := fun x hx => absurd hx (List.not_mem_nil)
        done := fun _ => rfl
        fetched := fun he => absurd he (show ¬PollEvent.isEmpty {} = false by decide)
        entries := fun fd _ => rfl
        ignored := fun fd events hfd =>
          absurd (fd.toInt_nonneg.trans_eq hfd) (show ¬(0 : ℤ) ≤ -1 by decide) }
  · -- the event of `d` is returned, and `d` is ignored from then on
    rw [heq]
    obtain ⟨descriptors, eventIndex⟩ := h
    obtain rfl : descriptors = pre ++ d :: ds := hds
    have hdrop : ∀ e ∈ d :: ds, e ∈ (pre ++ d :: ds).drop i := by
      intro e he
      rw [List.drop_append_of_le_length hle]
      exact List.mem_append_right _ he
    have h0 : 0 ≤ d.fd := hw.nonneg i hi d (hdrop d List.mem_cons_self) hr
    have hlt : d.fd < 2147483648 := hw.lt d (by simp)
    have hneg : negativeFD d.fd < 0 := negativeFD_neg h0
    have hfd : fdOf (negativeFD d.fd) = fdOf d.fd := by
      rw [fdOf_negativeFD h0 hlt, fdOf_of_nonneg h0]
    -- what is left to be fetched comes behind `d`
    have htail : ∀ p' : PollFd, (pre ++ p' :: ds).drop (pre.length + 1) = ds := by
      intro p'
      rw [List.drop_append, Nat.add_sub_cancel_left, List.drop_eq_nil_of_le (Nat.le_succ _)]
      rfl
    refine
      { wf := ⟨?_, ?_⟩, watched := ?_, armed := ?_, unfetched := ?_, done := ?_, fetched := ?_
        entries := ?_, ignored := ?_ }
    · intro e he
      obtain he | he := List.mem_append.mp he
      · exact hw.lt e (List.mem_append_left _ he)
      · obtain rfl | he := List.mem_cons.mp he
        · exact hneg.trans (by decide)
        · exact hw.lt e (List.mem_append_right _ (List.mem_cons_of_mem _ he))
    · intro j hj e he
      rw [← Option.some.inj hj, htail] at he
      exact hw.nonneg i hi e (hdrop e (List.mem_cons_of_mem _ he))
    · simp only [watched, List.map_append, List.map_cons, hfd]
    · intro e he he0
      obtain he | he := List.mem_append.mp he
      · exact List.mem_append_left _ he
      · obtain rfl | he := List.mem_cons.mp he
        · exact absurd hneg (not_lt.mpr he0)
        · exact List.mem_append_right _ (List.mem_cons_of_mem _ he)
    · intro x hx
      obtain ⟨j, hj, e, he, hre, rfl⟩ := (mem_unfetched _).mp hx
      rw [← Option.some.inj hj, htail] at he
      exact (mem_unfetched _).mpr ⟨i, hi, e, hdrop e (List.mem_cons_of_mem _ he), hre, rfl⟩
    · exact fun he => absurd (of_decide_eq_true he) (not_lt.mpr h0)
    · exact fun _ =>
        (mem_unfetched _).mpr ⟨i, hi, d, hdrop d List.mem_cons_self, hr, fdOf_of_nonneg h0⟩
    · intro fd hne
      have hd : ¬fdOf d.fd = fd.toInt := fun he => hne (he.symm.trans (fdOf_of_nonneg h0))
      simp only [entries, List.filter_append]
      rw [List.filter_cons_of_neg (by simpa [hfd] using hd),
        List.filter_cons_of_neg (by simpa using hd)]
    · intro fd events hfd' hent
      have hd : fdOf d.fd = fd.toInt := (fdOf_of_nonneg h0).trans hfd'.symm
      simp only [entries, List.filter_append, List.map_append] at hent ⊢
      rw [List.filter_cons_of_pos (by simpa using hd), List.map_cons] at hent
      rw [List.filter_cons_of_pos (by simpa [hfd] using hd), List.map_cons]
      obtain ⟨hpre, hrest⟩ | ⟨-, hrest⟩ := List.append_eq_singleton_iff.mp hent
      · rw [hpre, List.nil_append, (List.cons_eq_cons.mp hrest).2,
          ← (Prod.mk.inj (List.cons_eq_cons.mp hrest).1).2, hfd']
        rfl
      · exact absurd hrest (List.cons_ne_nil _ _)

end PollHandle

end Conntop
