import Conntop.Client
import Conntop.Fidelity
import Conntop.Lib.GuardedRun

/-!
# Sending into a full socket

The sending loop of both poll handlers with a socket that does not block. The kernel drains its
buffer while the loop runs, so each call of `send` sees some free space of its own: it takes what
fits, and fails with `EAGAIN` when nothing is free. `StreamSocket::send` throws for `EAGAIN` as for
any other error, and the poll handlers take the exception for the end of the connection.

* `sendLoopOver` is the loop over a sequence of free sizes. `sendLoop_eq_over` is its case in which
  nothing is drained.
* `calls` are the lengths with which the loop calls `send` while it goes on, and `HasSpace` says
  that no call that is reached has something to send and nothing free.
* `Resumes` is what an OUTPUT event should do.

Main result: `outputs_resume_iff`.
-/

namespace Conntop

section

variable {κ E : Type} [Inhabited E]

/-- A socket that does not block, with some free space for one call of `send`. -/
def Socket.nonblocking (free : ℕ) : Socket :=
  { space := free, fails := true, error := "Resource temporarily unavailable" }

/-- No call of `send` that is reached has bytes to send and no free space. A call is reached when
all of the message before it fits. -/
def HasSpace : List ℕ → (ℕ → ℕ) → Prop
  | [], _ => True
  | n :: ns, free => (0 < n → 0 < free 0) ∧ (n ≤ free 0 → HasSpace ns fun i => free (i + 1))

instance decidableHasSpace : ∀ ns free, Decidable (HasSpace ns free)
  | [], _ => .isTrue trivial
  | n :: ns, free =>
    have := decidableHasSpace ns fun i => free (i + 1)
    inferInstanceAs (Decidable ((0 < n → 0 < free 0) ∧ (n ≤ free 0 → _)))

theorem hasSpace_cons {n : ℕ} {ns : List ℕ} {free : ℕ → ℕ} (h : n ≤ free 0) :
    HasSpace (n :: ns) free ↔ HasSpace ns fun i => free (i + 1) :=
  ⟨fun hs => hs.2 h, fun hs => ⟨fun hn => hn.trans_le h, fun _ => hs⟩⟩

theorem hasSpace_cons_of_lt {n : ℕ} {ns : List ℕ} {free : ℕ → ℕ} (h : free 0 < n) :
    HasSpace (n :: ns) free ↔ 0 < free 0 :=
  ⟨fun hs => hs.1 (Nat.zero_lt_of_lt h),
    fun hs => ⟨fun _ => hs, fun hn => absurd hn (Nat.not_le.mpr h)⟩⟩

namespace Outbox

/-- The lengths with which the loop calls `send` while every message fits. -/
def calls (mem : SharedMemory κ E) (w : StreamSocketWriter κ E) (queue : List (QueuedMsg κ E)) :
    List ℕ :=
  if w.isSending then lengths mem w queue else (lengths mem w queue).tail

/-- The loop that tries to send all waiting messages, where the calls of `send` see the given free
sizes. An idle writer calls nothing. -/
def sendLoopOver (isData : E → Bool) (mem : SharedMemory κ E) :
    List (QueuedMsg κ E) → Outbox κ E → (ℕ → ℕ) → SendResult × Outbox κ E
  | queue, o, free =>
    match o.writer.doSend mem (.nonblocking (free 0)) with
    | (.done, w, _, bytes) =>
      let free := if o.writer.isSending then fun i => free (i + 1) else free
      let o := { o with writer := w }.addSent bytes
      match queue with
      | [] => (.done, { o with sendQueue := [], isSendingData := false })
      | m :: queue => sendLoopOver isData mem queue (o.begin isData mem m queue) free
    | (result, w, _, bytes) => (result, { o with writer := w, sendQueue := queue }.addSent bytes)

variable {mem : SharedMemory κ E} {isData : E → Bool} {o : Outbox κ E} {free : ℕ → ℕ}

theorem sendLoopOver_nil (h : (o.writer.doSend mem (.nonblocking (free 0))).1 = .done) :
    sendLoopOver isData mem [] o free = (.done, { afterSend mem o (.nonblocking (free 0)) with
      sendQueue := [], isSendingData := false }) := by
  unfold sendLoopOver afterSend
  generalize o.writer.doSend mem (.nonblocking (free 0)) = r at h ⊢
  obtain ⟨result, w, socket, bytes⟩ := r
  subst h
  rfl

theorem sendLoopOver_cons (h : (o.writer.doSend mem (.nonblocking (free 0))).1 = .done)
    (m : QueuedMsg κ E) (queue : List (QueuedMsg κ E)) :
    sendLoopOver isData mem (m :: queue) o free = sendLoopOver isData mem queue
      ((afterSend mem o (.nonblocking (free 0))).begin isData mem m queue)
      (if o.writer.isSending then fun i => free (i + 1) else free) := by
  rw [sendLoopOver]
  unfold afterSend
  generalize o.writer.doSend mem (.nonblocking (free 0)) = r at h ⊢
  obtain ⟨result, w, socket, bytes⟩ := r
  subst h
  rfl

theorem sendLoopOver_stopped (h : (o.writer.doSend mem (.nonblocking (free 0))).1 ≠ .done)
    (queue : List (QueuedMsg κ E)) : sendLoopOver isData mem queue o free =
      ((o.writer.doSend mem (.nonblocking (free 0))).1,
        { afterSend mem o (.nonblocking (free 0)) with sendQueue := queue }) := by
  cases queue <;>
  · unfold sendLoopOver afterSend
    generalize o.writer.doSend mem (.nonblocking (free 0)) = r at h ⊢
    obtain ⟨result, w, socket, bytes⟩ := r
    cases result with
    | done => exact absurd rfl h
    | blocked => rfl
    | failed => rfl

/-- A started message is the next one to be sent. -/
theorem lengths_begin (hidle : o.writer.isSending = false) (m : QueuedMsg κ E)
    (queue : List (QueuedMsg κ E)) : lengths mem (o.begin isData mem m queue).writer queue =
      (lengths mem o.writer (m :: queue)).tail := by
  show (o.writer.start mem m.pointer).left :: _ = _
  rw [(StreamSocketWriter.left_start mem hidle m.pointer).2]
  rfl

theorem calls_begin (hidle : o.writer.isSending = false) (m : QueuedMsg κ E)
    (queue : List (QueuedMsg κ E)) : calls mem (o.begin isData mem m queue).writer queue =
      (lengths mem o.writer (m :: queue)).tail := by
  have hsending : (o.begin isData mem m queue).writer.isSending = true :=
    (StreamSocketWriter.left_start mem hidle m.pointer).1
  rw [calls, if_pos hsending, lengths_begin hidle]

/-- A call for all of a message goes on with the next ones. -/
theorem hasSpace_calls {queue : List (QueuedMsg κ E)} (h : o.writer.left ≤ free 0) :
    HasSpace (calls mem o.writer queue) free ↔ HasSpace (lengths mem o.writer queue).tail
      (if o.writer.isSending then fun i => free (i + 1) else free) := by
  unfold calls
  split_ifs
  · exact hasSpace_cons h
  · exact Iff.rfl

theorem hasSpace_calls_of_lt {queue : List (QueuedMsg κ E)} (h : free 0 < o.writer.left) :
    HasSpace (calls mem o.writer queue) free ↔ 0 < free 0 := by
  unfold calls
  split_ifs with hs
  · exact hasSpace_cons_of_lt h
  · rw [StreamSocketWriter.left, if_neg hs] at h
    exact absurd h (Nat.not_lt_zero _)

variable (mem) in
theorem doSend_full (h : free 0 < o.writer.left) :
    (o.writer.doSend mem (.nonblocking (free 0))).1 ≠ .done ∧
      ((o.writer.doSend mem (.nonblocking (free 0))).1 = .failed ↔ free 0 = 0) := by
  have hlt : (Socket.nonblocking (free 0)).space < o.writer.left := h
  have hblocked := StreamSocketWriter.doSend_blocked mem hlt
  split_ifs at hblocked with hf
  · exact ⟨by simp [hblocked], iff_of_true hblocked hf.2⟩
  · exact ⟨by simp [hblocked.1], iff_of_false (by simp [hblocked.1]) fun h0 => hf ⟨rfl, h0⟩⟩

variable (mem) in
theorem doSend_fits (h : o.writer.left ≤ free 0) :
    (o.writer.doSend mem (.nonblocking (free 0))).1 = .done ∧
      (o.writer.doSend mem (.nonblocking (free 0))).2.1.isSending = false := by
  have hle : o.writer.left ≤ (Socket.nonblocking (free 0)).space := h
  obtain ⟨h1, h2, -⟩ := StreamSocketWriter.doSend_done mem hle
  exact ⟨h1, h2⟩

variable (mem isData) in
/-- **The loop fails exactly when a call of `send` that it reaches has bytes to send and no free
space.** -/
theorem sendLoopOver_failed_iff (queue : List (QueuedMsg κ E)) (o : Outbox κ E) (free : ℕ → ℕ) :
    (sendLoopOver isData mem queue o free).1 = .failed ↔
      ¬ HasSpace (calls mem o.writer queue) free := by
  have hfull : ∀ (queue : List (QueuedMsg κ E)) (o : Outbox κ E) (free : ℕ → ℕ),
      free 0 < o.writer.left → ((sendLoopOver isData mem queue o free).1 = .failed ↔
        ¬ HasSpace (calls mem o.writer queue) free) := by
    intro queue o free h
    obtain ⟨hne, hfailed⟩ := doSend_full mem h
    rw [sendLoopOver_stopped hne, hasSpace_calls_of_lt h, hfailed]
    omega
  induction queue generalizing o free with
  | nil =>
    rcases Nat.lt_or_ge (free 0) o.writer.left with h | h
    · exact hfull [] o free h
    · rw [sendLoopOver_nil (doSend_fits mem h).1, hasSpace_calls h]
      exact iff_of_false (by simp) (not_not.mpr trivial)
  | cons m queue ih =>
    rcases Nat.lt_or_ge (free 0) o.writer.left with h | h
    · exact hfull (m :: queue) o free h
    · obtain ⟨hdone, hidle⟩ := doSend_fits mem h
      have hnext := ih ((afterSend mem o (.nonblocking (free 0))).begin isData mem m queue)
        (if o.writer.isSending then fun i => free (i + 1) else free)
      have hcalls : calls mem ((afterSend mem o (.nonblocking (free 0))).begin isData mem m
          queue).writer queue = (lengths mem o.writer (m :: queue)).tail := by
        rw [calls_begin hidle]
        rfl
      rw [hcalls] at hnext
      rw [sendLoopOver_cons hdone, hasSpace_calls h]
      exact hnext

/-! ## A buffer that is not drained -/

/-- The free sizes when the kernel sends nothing while the loop runs. -/
def spaces (space : ℕ) (ns : List ℕ) (i : ℕ) : ℕ := space - (ns.take i).sum

variable (mem) in
/-- A call of `doSend` looks at the space, and at what happens without any. -/
theorem doSend_congr {w : StreamSocketWriter κ E} {socket socket' : Socket}
    (hspace : socket.space = socket'.space) (hfails : socket.fails = socket'.fails) :
    (w.doSend mem socket).1 = (w.doSend mem socket').1 ∧
      (w.doSend mem socket).2.1 = (w.doSend mem socket').2.1 ∧
      (w.doSend mem socket).2.2.2 = (w.doSend mem socket').2.2.2 := by
  unfold StreamSocketWriter.doSend
  simp only [hspace, hfails]
  split_ifs <;> exact ⟨rfl, rfl, rfl⟩

theorem afterSend_congr {socket socket' : Socket} (hspace : socket.space = socket'.space)
    (hfails : socket.fails = socket'.fails) :
    afterSend mem o socket = afterSend mem o socket' := by
  obtain ⟨-, h1, h2⟩ := doSend_congr mem (w := o.writer) hspace hfails
  unfold afterSend
  rw [h1, h2]

/-- The free sizes of the calls after the first one. -/
theorem spaces_next {queue : List (QueuedMsg κ E)} (space : ℕ) :
    (if o.writer.isSending then
        fun i => spaces space (calls mem o.writer queue) (i + 1)
      else spaces space (calls mem o.writer queue)) =
      spaces (space - o.writer.left) (lengths mem o.writer queue).tail := by
  unfold calls
  split_ifs with hs
  · funext i
    show space - (o.writer.left + _) = space - o.writer.left - _
    rw [Nat.sub_sub]
    rfl
  · rw [StreamSocketWriter.left, if_neg hs, Nat.sub_zero]

variable (mem isData) in
/-- The loop with one amount of space is the loop over what is left of it. -/
theorem sendLoop_eq_over (queue : List (QueuedMsg κ E)) (o : Outbox κ E) (socket : Socket)
    (hfails : socket.fails = true) : sendLoop isData mem queue o socket =
      sendLoopOver isData mem queue o (spaces socket.space (calls mem o.writer queue)) := by
  have hspace : ∀ (socket : Socket) (ns : List ℕ),
      socket.space = (Socket.nonblocking (spaces socket.space ns 0)).space := fun _ _ => rfl
  have hstopped : ∀ (queue : List (QueuedMsg κ E)) (o : Outbox κ E) (socket : Socket),
      socket.fails = true → (o.writer.doSend mem socket).1 ≠ .done →
      sendLoop isData mem queue o socket =
        sendLoopOver isData mem queue o (spaces socket.space (calls mem o.writer queue)) := by
    intro queue o socket hfails h
    obtain ⟨h1, -⟩ := doSend_congr mem (w := o.writer)
      (hspace socket (calls mem o.writer queue)) hfails
    rw [sendLoop_stopped h, sendLoopOver_stopped (h1 ▸ h), ← h1,
      afterSend_congr (hspace socket (calls mem o.writer queue)) hfails]
  induction queue generalizing o socket with
  | nil =>
    by_cases h : (o.writer.doSend mem socket).1 = .done
    · obtain ⟨h1, -⟩ := doSend_congr mem (w := o.writer)
        (hspace socket (calls mem o.writer [])) hfails
      rw [sendLoop_nil h, sendLoopOver_nil (h1 ▸ h),
        afterSend_congr (hspace socket (calls mem o.writer [])) hfails]
    · exact hstopped [] o socket hfails h
  | cons m queue ih =>
    by_cases h : (o.writer.doSend mem socket).1 = .done
    · obtain ⟨h1, -⟩ := doSend_congr mem (w := o.writer)
        (hspace socket (calls mem o.writer (m :: queue))) hfails
      have hle : o.writer.left ≤ socket.space := by
        by_contra hlt
        have hblocked := StreamSocketWriter.doSend_blocked mem (Nat.lt_of_not_le hlt)
        split_ifs at hblocked with hf
        · rw [hblocked] at h
          cases h
        · rw [hblocked.1] at h
          cases h
      obtain ⟨-, hidle, hsocket⟩ := StreamSocketWriter.doSend_done mem hle
      have hcalls : calls mem ((afterSend mem o socket).begin isData mem m queue).writer queue =
          (lengths mem o.writer (m :: queue)).tail := calls_begin hidle m queue
      rw [sendLoop_cons h, sendLoopOver_cons (h1 ▸ h), spaces_next, hsocket,
        ih _ _ (by exact hfails), hcalls,
        afterSend_congr (hspace socket (calls mem o.writer (m :: queue))) hfails]
    · exact hstopped (m :: queue) o socket hfails h

/-! ## What stays in the session -/

/-- The bytes that are still to be sent. -/
def unsent (mem : SharedMemory κ E) (o : Outbox κ E) : List Char :=
  o.writer.pending mem ++ o.sendQueue.flatMap fun m => (m.pointer.msg mem).text

/-- How many they are. -/
def unsentLength (mem : SharedMemory κ E) (o : Outbox κ E) : ℕ :=
  (lengths mem o.writer o.sendQueue).sum

variable (mem) in
/-- What a call sends and what it leaves are what was to be sent. -/
theorem doSend_bytes (w : StreamSocketWriter κ E) (socket : Socket) :
    (w.doSend mem socket).2.2.2 ++ (w.doSend mem socket).2.1.pending mem = w.pending mem := by
  rcases StreamSocketWriter.doSend_cases w mem socket with ⟨-, h⟩ | ⟨hs, -, h⟩ | ⟨hs, hd, h⟩ |
    ⟨hs, hd, -, h⟩ <;> rw [h]
  · rfl
  · rfl
  · have hlength : (w.rest mem).length ≤ w.dataLength - w.dataPos := List.length_take_le _ _
    rw [StreamSocketWriter.pending_of_sending hs, StreamSocketWriter.pending_of_idle rfl,
      List.append_nil, List.take_of_length_le (by omega)]
  · rw [StreamSocketWriter.pending_of_sending hs,
      StreamSocketWriter.pending_of_sending (by exact hs), StreamSocketWriter.rest_advance,
      List.take_append_drop]

variable (mem isData) in
/-- The loop sends a part of the bytes that are to be sent, and does not touch the connection. -/
theorem sendLoopOver_kept (queue : List (QueuedMsg κ E)) (o : Outbox κ E) (free : ℕ → ℕ) :
    (sendLoopOver isData mem queue o free).2.isConnected = o.isConnected ∧
      (sendLoopOver isData mem queue o free).2.history.sent ++
          (sendLoopOver isData mem queue o free).2.unsent mem =
        o.history.sent ++ (o.writer.pending mem ++
          queue.flatMap fun m => (m.pointer.msg mem).text) := by
  -- what the socket takes is appended to what was sent, and no byte is lost
  have hstopped : ∀ (queue : List (QueuedMsg κ E)) (o : Outbox κ E) (socket : Socket),
      ({ afterSend mem o socket with sendQueue := queue } : Outbox κ E).history.sent ++
          ({ afterSend mem o socket with sendQueue := queue } : Outbox κ E).unsent mem =
        o.history.sent ++ (o.writer.pending mem ++
          queue.flatMap fun m => (m.pointer.msg mem).text) := by
    intro queue o socket
    have hbytes := doSend_bytes mem o.writer socket
    show (o.history.sent ++ (o.writer.doSend mem socket).2.2.2) ++
      ((o.writer.doSend mem socket).2.1.pending mem ++ _) = _
    rw [← hbytes]
    simp only [List.append_assoc]
  -- a message that is done is followed by the next one of the queue
  induction queue generalizing o free with
  | nil =>
    by_cases h : (o.writer.doSend mem (.nonblocking (free 0))).1 = .done
    · rw [sendLoopOver_nil h]
      exact ⟨rfl, hstopped [] o _⟩
    · rw [sendLoopOver_stopped h]
      exact ⟨rfl, hstopped [] o _⟩
  | cons m queue ih =>
    by_cases h : (o.writer.doSend mem (.nonblocking (free 0))).1 = .done
    · rw [sendLoopOver_cons h]
      obtain ⟨h1, h2⟩ := ih ((afterSend mem o (.nonblocking (free 0))).begin isData mem m queue)
        (if o.writer.isSending then fun i => free (i + 1) else free)
      refine ⟨h1, h2.trans ?_⟩
      have hidle := StreamSocketWriter.idle_of_done h
      have hbytes := doSend_bytes mem o.writer (.nonblocking (free 0))
      rw [StreamSocketWriter.pending_of_idle hidle, List.append_nil] at hbytes
      show (o.history.sent ++ (o.writer.doSend mem (.nonblocking (free 0))).2.2.2) ++
        ((StreamSocketWriter.start mem (o.writer.doSend mem (.nonblocking (free 0))).2.1
          m.pointer).pending mem ++ _) = _
      rw [hbytes, (StreamSocketWriter.start_pending mem hidle m.pointer).1, List.append_assoc]
      rfl
    · rw [sendLoopOver_stopped h]
      exact ⟨rfl, hstopped (m :: queue) o _⟩

/-- What a call leaves unsent when it does not finish the message. -/
theorem left_doSend (h : free 0 < o.writer.left) :
    (o.writer.doSend mem (.nonblocking (free 0))).2.1.left = o.writer.left - free 0 := by
  have hlt : (Socket.nonblocking (free 0)).space < o.writer.left := h
  rcases StreamSocketWriter.doSend_cases o.writer mem (.nonblocking (free 0)) with ⟨hs, he⟩ |
    ⟨hs, hf, he⟩ | ⟨hs, hd, he⟩ | ⟨hs, hd, -, he⟩
  · simp [StreamSocketWriter.left, hs] at h
  · have h0 : free 0 = 0 := hf.2.1
    rw [he, h0, Nat.sub_zero]
  · rw [StreamSocketWriter.left_of_sending hs] at hlt
    omega
  · rw [he, StreamSocketWriter.left_of_sending hs, StreamSocketWriter.left_of_sending (by exact hs)]
    rw [StreamSocketWriter.left_of_sending hs] at h
    show o.writer.dataLength - (o.writer.dataPos + min (free 0)
      (o.writer.dataLength - o.writer.dataPos)) = o.writer.dataLength - o.writer.dataPos - free 0
    omega

variable (mem isData) in
/-- The loop leaves no more to be sent, and less when it does not fail. -/
theorem sendLoopOver_progress (queue : List (QueuedMsg κ E)) (o : Outbox κ E) (free : ℕ → ℕ) :
    (sendLoopOver isData mem queue o free).2.unsentLength mem ≤ (lengths mem o.writer queue).sum ∧
      (HasSpace (calls mem o.writer queue) free → 0 < (lengths mem o.writer queue).sum →
        (sendLoopOver isData mem queue o free).2.unsentLength mem <
          (lengths mem o.writer queue).sum) := by
  -- where the space ends in a message, exactly the space is used up
  have hfull : ∀ (queue : List (QueuedMsg κ E)) (o : Outbox κ E) (free : ℕ → ℕ),
      free 0 < o.writer.left →
      (sendLoopOver isData mem queue o free).2.unsentLength mem + free 0 =
        (lengths mem o.writer queue).sum := by
    intro queue o free h
    rw [sendLoopOver_stopped (doSend_full mem h).1]
    show ((o.writer.doSend mem (.nonblocking (free 0))).2.1.left :: queue.map fun m =>
      (m.pointer.msg mem).text.length).sum + free 0 = (o.writer.left :: queue.map fun m =>
        (m.pointer.msg mem).text.length).sum
    rw [List.sum_cons, List.sum_cons, left_doSend h]
    omega
  -- the loop goes on with the next message while the current one fits
  induction queue generalizing o free with
  | nil =>
    rcases Nat.lt_or_ge (free 0) o.writer.left with h | h
    · have hsum := hfull [] o free h
      refine ⟨by omega, fun hspace _ => ?_⟩
      have := (hasSpace_calls_of_lt h).mp hspace
      omega
    · have hzero : (sendLoopOver isData mem [] o free).2.unsentLength mem = 0 := by
        rw [sendLoopOver_nil (doSend_fits mem h).1]
        show ((o.writer.doSend mem (.nonblocking (free 0))).2.1.left :: []).sum = 0
        simp [StreamSocketWriter.left, (doSend_fits mem h).2]
      rw [hzero]
      exact ⟨Nat.zero_le _, fun _ hpos => hpos⟩
  | cons m queue ih =>
    rcases Nat.lt_or_ge (free 0) o.writer.left with h | h
    · have hsum := hfull (m :: queue) o free h
      refine ⟨by omega, fun hspace _ => ?_⟩
      have := (hasSpace_calls_of_lt h).mp hspace
      omega
    · obtain ⟨hdone, hidle⟩ := doSend_fits mem h
      have hnext := ih ((afterSend mem o (.nonblocking (free 0))).begin isData mem m queue)
        (if o.writer.isSending then fun i => free (i + 1) else free)
      have hlengths : lengths mem ((afterSend mem o (.nonblocking (free 0))).begin isData mem m
          queue).writer queue = (lengths mem o.writer (m :: queue)).tail :=
        lengths_begin hidle m queue
      have hsum : (lengths mem o.writer (m :: queue)).sum =
          o.writer.left + (lengths mem o.writer (m :: queue)).tail.sum := List.sum_cons
      have hcalls : calls mem ((afterSend mem o (.nonblocking (free 0))).begin isData mem m
          queue).writer queue = (lengths mem o.writer (m :: queue)).tail :=
        calls_begin hidle m queue
      rw [hlengths, hcalls] at hnext
      rw [sendLoopOver_cons hdone, hsum, hasSpace_calls h]
      refine ⟨hnext.1.trans (Nat.le_add_left _ _), fun hspace hpos => ?_⟩
      rcases Nat.eq_zero_or_pos (lengths mem o.writer (m :: queue)).tail.sum with h0 | h0
      · have hle := hnext.1
        omega
      · exact (hnext.2 hspace h0).trans_le (Nat.le_add_left _ _)

/-! ## The poll handlers -/

/-- What sending should come to: the socket stays, the bytes that are not sent stay behind those
that are, and there are fewer of them. -/
structure Resumes (mem : SharedMemory κ E) (o o' : Outbox κ E) : Prop where
  isConnected : o'.isConnected = o.isConnected
  bytes : o'.history.sent ++ o'.unsent mem = o.history.sent ++ o.unsent mem
  progress : 0 < o.unsentLength mem → o'.unsentLength mem < o.unsentLength mem

variable (mem isData) in
theorem resumes_sendLoopOver (h : HasSpace (calls mem o.writer o.sendQueue) free) :
    o.Resumes mem (sendLoopOver isData mem o.sendQueue o free).2 := by
  obtain ⟨hconnected, hbytes⟩ := sendLoopOver_kept mem isData o.sendQueue o free
  exact ⟨hconnected, hbytes, (sendLoopOver_progress mem isData o.sendQueue o free).2 h⟩

end Outbox

end

namespace ServerSession

variable (mem : ServerMemory) (s : ServerSession ServerOutbox)

/-- The OUTPUT part of `SocketPollHandler`, where the calls of `send` see the given free sizes. -/
def outputOver (free : ℕ → ℕ) : ServerSession ServerOutbox :=
  match s.transport.sendLoopOver isData mem s.transport.sendQueue free with
  | (.failed, o) => { s with transport := o }.quickDisconnect .socketError
      ("Unable to send data: " ++ (Socket.nonblocking 0).error)
  | (_, o) => { s with transport := o }

/-- Successive OUTPUT events. -/
def outputs (events : List (ℕ → ℕ)) : ServerSession ServerOutbox :=
  events.foldl (outputOver mem) s

/-- The session goes on, and only its sending part changed. -/
def Resumes (s s' : ServerSession ServerOutbox) : Prop :=
  s' = { s with transport := s'.transport } ∧ s.transport.Resumes mem s'.transport

/-- Every call of `send` that the loop reaches has space. -/
def HasSpace (s : ServerSession ServerOutbox) (free : ℕ → ℕ) : Prop :=
  Conntop.HasSpace (Outbox.calls mem s.transport.writer s.transport.sendQueue) free

instance (free : ℕ → ℕ) : Decidable (s.HasSpace mem free) :=
  inferInstanceAs (Decidable (Conntop.HasSpace _ _))

variable {mem s}

/-- What `SocketPollHandler` does with a socket that does not block and is not drained. -/
theorem output_eq_over {socket : Socket} (hfails : socket.fails = true)
    (herror : socket.error = (Socket.nonblocking 0).error) : s.output mem socket =
      s.outputOver mem (Outbox.spaces socket.space
        (Outbox.calls mem s.transport.writer s.transport.sendQueue)) := by
  unfold output outputOver
  rw [Outbox.sendLoop_eq_over mem isData _ _ _ hfails]
  exact herror ▸ rfl

theorem outputOver_failed {free : ℕ → ℕ}
    (h : (s.transport.sendLoopOver isData mem s.transport.sendQueue free).1 = .failed) :
    (s.outputOver mem free).state = .disconnected := by
  unfold outputOver
  generalize s.transport.sendLoopOver isData mem s.transport.sendQueue free = r at h ⊢
  obtain ⟨result, o⟩ := r
  subst h
  rfl

theorem outputOver_sent {free : ℕ → ℕ}
    (h : (s.transport.sendLoopOver isData mem s.transport.sendQueue free).1 ≠ .failed) :
    s.outputOver mem free = { s with
      transport := (s.transport.sendLoopOver isData mem s.transport.sendQueue free).2 } := by
  unfold outputOver
  generalize s.transport.sendLoopOver isData mem s.transport.sendQueue free = r at h ⊢
  obtain ⟨result, o⟩ := r
  cases result with
  | done => rfl
  | blocked => rfl
  | failed => exact absurd rfl h

theorem outputOver_resumes_iff (hs : s.state ≠ .disconnected) (free : ℕ → ℕ) :
    s.Resumes mem (s.outputOver mem free) ↔ s.HasSpace mem free := by
  by_cases hspace : s.HasSpace mem free
  · refine iff_of_true ?_ hspace
    have hsent := (Outbox.sendLoopOver_failed_iff mem isData _ s.transport free).not.mpr
      (not_not.mpr hspace)
    rw [outputOver_sent hsent]
    exact ⟨rfl, Outbox.resumes_sendLoopOver mem isData hspace⟩
  · refine iff_of_false (fun h => hs ?_) hspace
    have hfailed := outputOver_failed
      ((Outbox.sendLoopOver_failed_iff mem isData _ s.transport free).mpr hspace)
    have hstate := congrArg ServerSession.state h.1
    exact hstate.symm.trans hfailed

end ServerSession

namespace Client

variable (c : Client ClientOutbox)

/-- The OUTPUT part of `SocketPollHandler`, where the calls of `send` see the given free sizes. -/
def outputOver (free : ℕ → ℕ) : Client ClientOutbox :=
  if c.session.isConnectionEstablished then
    match c.session.transport.sendLoopOver (fun _ => false) clientMemory
      c.session.transport.sendQueue free with
    | (.failed, o) => { c with session := { c.session with transport := o } }.quickDisconnect
        .socketError ("Unable to send data: " ++ (Socket.nonblocking 0).error)
    | (_, o) => { c with session := { c.session with transport := o } }
  else c.output (.nonblocking (free 0))

def outputs (events : List (ℕ → ℕ)) : Client ClientOutbox := events.foldl outputOver c

def Resumes (c c' : Client ClientOutbox) : Prop :=
  c' = { c with session := { c.session with transport := c'.session.transport } } ∧
    c.session.transport.Resumes clientMemory c'.session.transport

def HasSpace (c : Client ClientOutbox) (free : ℕ → ℕ) : Prop :=
  Conntop.HasSpace (Outbox.calls clientMemory c.session.transport.writer
    c.session.transport.sendQueue) free

instance (free : ℕ → ℕ) : Decidable (c.HasSpace free) :=
  inferInstanceAs (Decidable (Conntop.HasSpace _ _))

variable {c}

theorem output_eq_over {socket : Socket} (hest : c.session.isConnectionEstablished = true)
    (hfails : socket.fails = true) (herror : socket.error = (Socket.nonblocking 0).error) :
    c.output socket = c.outputOver (Outbox.spaces socket.space
      (Outbox.calls clientMemory c.session.transport.writer c.session.transport.sendQueue)) := by
  unfold output outputOver
  rw [if_pos hest, if_pos hest, Outbox.sendLoop_eq_over clientMemory (fun _ => false) _ _ _ hfails]
  exact herror ▸ rfl

theorem quickDisconnect_isConnectionEstablished (c : Client ClientOutbox)
    (reason : EDisconnectReason) (error : String) :
    (c.quickDisconnect reason error).session.isConnectionEstablished = false := by
  unfold Client.quickDisconnect onSessionDisconnect
  split
  · unfold tryNext
    split
    · rfl
    · split
      · rfl
      · show (ClientSession.connect _).isConnectionEstablished = false
        unfold ClientSession.connect
        split_ifs <;> rfl
  · rfl

theorem outputOver_failed {free : ℕ → ℕ} (hest : c.session.isConnectionEstablished = true)
    (h : (c.session.transport.sendLoopOver (fun _ => false) clientMemory
      c.session.transport.sendQueue free).1 = .failed) :
    (c.outputOver free).session.isConnectionEstablished = false := by
  unfold outputOver
  rw [if_pos hest]
  generalize c.session.transport.sendLoopOver (fun _ => false) clientMemory
    c.session.transport.sendQueue free = r at h ⊢
  obtain ⟨result, o⟩ := r
  subst h
  exact quickDisconnect_isConnectionEstablished _ _ _

theorem outputOver_sent {free : ℕ → ℕ} (hest : c.session.isConnectionEstablished = true)
    (h : (c.session.transport.sendLoopOver (fun _ => false) clientMemory
      c.session.transport.sendQueue free).1 ≠ .failed) :
    c.outputOver free = { c with session := { c.session with
      transport := (c.session.transport.sendLoopOver (fun _ => false) clientMemory
        c.session.transport.sendQueue free).2 } } := by
  unfold outputOver
  rw [if_pos hest]
  generalize c.session.transport.sendLoopOver (fun _ => false) clientMemory
    c.session.transport.sendQueue free = r at h ⊢
  obtain ⟨result, o⟩ := r
  cases result with
  | done => rfl
  | blocked => rfl
  | failed => exact absurd rfl h

theorem outputOver_resumes_iff (hest : c.session.isConnectionEstablished = true) (free : ℕ → ℕ) :
    c.Resumes (c.outputOver free) ↔ c.HasSpace free := by
  by_cases hspace : c.HasSpace free
  · refine iff_of_true ?_ hspace
    have hsent := (Outbox.sendLoopOver_failed_iff clientMemory (fun _ => false) _
      c.session.transport free).not.mpr (not_not.mpr hspace)
    rw [outputOver_sent hest hsent]
    exact ⟨rfl, Outbox.resumes_sendLoopOver clientMemory _ hspace⟩
  · refine iff_of_false (fun h => ?_) hspace
    have hfailed := outputOver_failed hest ((Outbox.sendLoopOver_failed_iff clientMemory
      (fun _ => false) _ c.session.transport free).mpr hspace)
    have hkept := congrArg (fun c : Client ClientOutbox => c.session.isConnectionEstablished) h.1
    exact absurd (hest.symm.trans (hkept.symm.trans hfailed)) (by decide)

end Client

/-- **Successive OUTPUT events resume where the ones before stopped exactly when no call of `send`
that is reached has bytes to send and no free space**, in both poll handlers and for every content
of the send queue and all sequences of free sizes. -/
theorem outputs_resume_iff (mem : ServerMemory) :
    (∀ (s : ServerSession ServerSession.ServerOutbox) (events : List (ℕ → ℕ)),
      s.state ≠ .disconnected →
      ((∀ i, i < events.length →
        (s.outputs mem (events.take i)).Resumes mem (s.outputs mem (events.take (i + 1)))) ↔
      ∀ i (hi : i < events.length), (s.outputs mem (events.take i)).HasSpace mem events[i])) ∧
    (∀ (c : Client ClientOutbox) (events : List (ℕ → ℕ)),
      c.session.isConnectionEstablished = true →
      ((∀ i, i < events.length →
        (c.outputs (events.take i)).Resumes (c.outputs (events.take (i + 1)))) ↔
      ∀ i (hi : i < events.length), (c.outputs (events.take i)).HasSpace events[i])) := by
  constructor
  · intro s events hs
    refine GuardedRun.foldl_steps_iff (f := ServerSession.outputOver mem)
      (I := fun s => s.state ≠ .disconnected) (fun s s' hs h => ?_)
      (fun s free hs => ServerSession.outputOver_resumes_iff hs free) events s hs
    rw [h.1]
    exact hs
  · intro c events hest
    refine GuardedRun.foldl_steps_iff (f := Client.outputOver)
      (I := fun c => c.session.isConnectionEstablished = true) (fun c c' hest h => ?_)
      (fun c free hest => Client.outputOver_resumes_iff hest free) events c hest
    rw [h.1]
    exact hest

section

private def fullMemory : ServerMemory where
  texts
    | .banner => { msg := ClientServerProtocol.createServerMsgBanner }
    | .updateTick => { msg := ClientServerProtocol.createServerMsgUpdateTick 9 }
    | _ => {}
  replaced _ _ := []

/-- A session with two messages to send. -/
private def busySession : ServerSession ServerSession.ServerOutbox :=
  (ServerSession.accept fullMemory ServerSession.acceptedOutbox).sendSharedMessage fullMemory
    .updateTick

private def busyClient : Client ClientOutbox :=
  { session := {
      transport := Outbox.enqueue { isConnected := true } clientMemory
        (.own (ClientServerProtocol.createClientMsgRequestData 1 0))
      state := .connected
      isConnectionEstablished := true } }

theorem busySession_resumes :
    busySession.Resumes fullMemory (busySession.outputs fullMemory [fun _ => 10]) ∧
      busyClient.Resumes (busyClient.outputs [fun _ => 10]) := by
  have h := outputs_resume_iff fullMemory
  refine ⟨(h.1 busySession [fun _ => 10] (by decide)).mpr (fun i hi => ?_) 0 (by decide),
    (h.2 busyClient [fun _ => 10] rfl).mpr (fun i hi => ?_) 0 (by decide)⟩
  · obtain rfl : i = 0 := Nat.lt_one_iff.mp hi
    exact (by decide : busySession.HasSpace fullMemory fun _ => 10)
  · obtain rfl : i = 0 := Nat.lt_one_iff.mp hi
    exact (by decide : busyClient.HasSpace fun _ => 10)

/-- The first message fits exactly, and then nothing is free. -/
theorem busySession_disconnected : ¬ ∀ (mem : ServerMemory)
    (s : ServerSession ServerSession.ServerOutbox) (free : ℕ → ℕ),
    s.state ≠ .disconnected → s.Resumes mem (s.outputOver mem free) := by
  intro h
  have hbad := (h fullMemory busySession (fun i => if i = 0 then
    ClientServerProtocol.createServerMsgBanner.text.length else 0) (by decide)).1
  exact absurd (congrArg ServerSession.state hbad) (by decide)

end

end Conntop
