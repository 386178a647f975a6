import Conntop.Protocol
import Mathlib.Algebra.GroupWithZero.Nat
import Mathlib.Tactic.SplitIfs

/-!
# `StreamSocketWriter` and the send queue

What a session sends goes through its `m_sendQueue` and its `StreamSocketWriter`, which holds the
message that is being sent. `Outbox` is that part of a session, together with what is known of its
socket: whether it is connected, and the last request to the `PollSystem` for its descriptor.
`History` is no part of the program. It records what was enqueued, dropped and sent.

* A shared message belongs to the server, which may replace it. `SharedText` counts its
  replacements, and a pointer to its text names the one it points to. Nothing is assumed about
  what a pointer to a replaced text reads (`SharedMemory.replaced`).
* `Socket` is how the socket behaves during one run of a poll handler: it takes `space` bytes,
  and then takes no more or fails. `Received` is what one call of `doReceive` comes to.
* The client's messages are never shared and never DATA.

Main result: `sendLoop_unsent`, when one run of the sending loop leaves an unfinished message
behind an empty queue.
-/

namespace Conntop

namespace EPollFlags

def input : Flags := 1 <<< 0
def output : Flags := 1 <<< 1
def error : Flags := 1 <<< 2

end EPollFlags

section

variable {κ E : Type} [Inhabited E]

/-! ## Shared messages -/

/-- A message that sessions refer to. Each assignment makes a new text. -/
structure SharedText (E : Type) [Inhabited E] where
  version : ℕ := 0
  msg : SerializedMessage E := {}

def SharedText.assign (t : SharedText E) (msg : SerializedMessage E) : SharedText E :=
  { version := t.version + 1, msg := msg }

structure SharedMemory (κ E : Type) [Inhabited E] where
  texts : κ → SharedText E
  replaced : κ → ℕ → List Char

/-- What a pointer to a version of a shared text reads. -/
def SharedMemory.read (mem : SharedMemory κ E) (k : κ) (version : ℕ) : List Char :=
  if (mem.texts k).version = version then (mem.texts k).msg.text else mem.replaced k version

/-! ## `StreamSocketWriter` -/

inductive EMessageType
  | none | own | shared | buffered
  deriving DecidableEq, Repr

/-- `m_data`: into `m_msg`, into `m_buffer` or into a shared message. -/
inductive DataPointer (κ : Type)
  | null
  | msg
  | buffer
  | shared (k : κ) (version : ℕ)

structure StreamSocketWriter (κ E : Type) [Inhabited E] where
  msgType : EMessageType := .none
  buffer : List Char := []
  data : DataPointer κ := .null
  dataLength : ℕ := 0
  dataPos : ℕ := 0
  msg : SerializedMessage E := {}

/-- The socket during one run of a poll handler. `error` is what its `SocketException` says, also
that of `verifyConnect`. -/
structure Socket where
  space : ℕ
  fails : Bool := false
  isVerified : Bool := true
  error : String := ""
  deriving DecidableEq, Repr

/-- What `doReceive` comes to: the end of the stream, parsed messages and maybe a
`MessageParserException` after them, or a `SocketException`. -/
inductive Received
  | closed
  | messages (ms : List Value) (parserError : Option String)
  | failed (error : String)

/-- A run of a poll handler: its flags, what it would receive, and the socket it would send to. -/
structure PollEvent where
  flags : Flags
  received : Received := .messages [] none
  socket : Socket := { space := 0 }

/-- `doSend` returns true or false, or throws. -/
inductive SendResult
  | done | blocked | failed
  deriving DecidableEq, Repr

namespace StreamSocketWriter

variable (w : StreamSocketWriter κ E)

def isSending : Bool := w.msgType ≠ .none

/-- The characters from `m_data` on. -/
def target (mem : SharedMemory κ E) : List Char :=
  match w.data with
  | .null => []
  | .msg => w.msg.text
  | .buffer => w.buffer
  | .shared k version => mem.read k version

/-- The bytes that are still to be sent. -/
def rest (mem : SharedMemory κ E) : List Char :=
  ((w.target mem).drop w.dataPos).take (w.dataLength - w.dataPos)

/-- Whether the writer is idle now, and the writer. -/
def stop (mem : SharedMemory κ E) : Bool × StreamSocketWriter κ E :=
  match w.msgType with
  | .none => (true, w)
  | .own =>
    if w.dataPos ≠ 0 then (false, w)
    else (true, { w with msgType := .none, msg := {} })
  | .shared =>
    if w.dataPos ≠ 0 then
      (false, { w with
        buffer := w.rest mem
        data := .buffer
        dataLength := (w.rest mem).length
        dataPos := 0
        msgType := .buffered })
    else (true, { w with msgType := .none })
  | .buffered => (false, w)

def send (msg : SerializedMessage E) : StreamSocketWriter κ E :=
  if w.isSending then w
  else { w with
    msg := msg, data := .msg, dataLength := msg.text.length, dataPos := 0, msgType := .own }

def sendShared (mem : SharedMemory κ E) (k : κ) : StreamSocketWriter κ E :=
  if w.isSending then w
  else { w with
    data := .shared k (mem.texts k).version
    dataLength := (mem.texts k).msg.text.length
    dataPos := 0
    msgType := .shared }

/-- The message is finished. -/
def finish : StreamSocketWriter κ E :=
  { w with
    msg := if w.msgType = .own then {} else w.msg
    buffer := if w.msgType = .buffered then [] else w.buffer
    msgType := .none }

/-- The writer after the socket took some bytes. -/
def advance (length : ℕ) : StreamSocketWriter κ E := { w with dataPos := w.dataPos + length }

/-- The result, the writer, the socket, and the bytes that it took. -/
def doSend (mem : SharedMemory κ E) (socket : Socket) :
    SendResult × StreamSocketWriter κ E × Socket × List Char :=
  if !w.isSending then (.done, w, socket, [])
  else if socket.fails && socket.space == 0 && w.dataPos < w.dataLength then
    (.failed, w, socket, [])
  else
    let length := min socket.space (w.dataLength - w.dataPos)
    let bytes := (w.rest mem).take length
    let w := w.advance length
    let socket := { socket with space := socket.space - length }
    if w.dataPos ≥ w.dataLength then (.done, w.finish, socket, bytes)
    else (.blocked, w, socket, bytes)

end StreamSocketWriter

/-! ## The send queue -/

/-- The pointers in `m_sendQueue`. -/
inductive MsgPointer (κ E : Type) [Inhabited E]
  | own (msg : SerializedMessage E)
  | shared (k : κ)

/-- What it points to. -/
def MsgPointer.msg (mem : SharedMemory κ E) : MsgPointer κ E → SerializedMessage E
  | own msg => msg
  | shared k => (mem.texts k).msg

/-- `send` or `sendShared`, as the loop chooses. -/
def StreamSocketWriter.start (mem : SharedMemory κ E) (w : StreamSocketWriter κ E) :
    MsgPointer κ E → StreamSocketWriter κ E
  | .own msg => w.send msg
  | .shared k => w.sendShared mem k

/-- What went through a session: the messages enqueued, as they were then, which of them were
dropped, which were begun, and the bytes that the socket took. -/
structure History (E : Type) [Inhabited E] where
  enqueued : List (SerializedMessage E) := []
  dropped : List ℕ := []
  begun : List ℕ := []
  sent : List Char := []

/-- An element of `m_sendQueue`, and its number in the history. -/
structure QueuedMsg (κ E : Type) [Inhabited E] where
  pointer : MsgPointer κ E
  number : ℕ

/-- The sending part of a session. `pollFlags` are those of the last request for the
descriptor. -/
structure Outbox (κ E : Type) [Inhabited E] where
  isConnected : Bool := false
  pollFlags : Option Flags := none
  sendQueue : List (QueuedMsg κ E) := []
  writer : StreamSocketWriter κ E := {}
  isSendingData : Bool := false
  history : History E := {}

namespace Outbox

variable (o : Outbox κ E)

/-- `sendMessage` and `sendSharedMessage`. -/
def enqueue (mem : SharedMemory κ E) (m : MsgPointer κ E) : Outbox κ E :=
  { o with
    pollFlags := if o.sendQueue.isEmpty then some (EPollFlags.input ||| EPollFlags.output)
      else o.pollFlags
    sendQueue := o.sendQueue ++ [⟨m, o.history.enqueued.length⟩]
    history := { o.history with enqueued := o.history.enqueued ++ [m.msg mem] } }

/-- What `quickDisconnect` does with the socket and the queue. -/
def close : Outbox κ E :=
  { o with
    isConnected := false
    pollFlags := if o.isConnected then none else o.pollFlags
    sendQueue := []
    isSendingData := false }

def addSent (bytes : List Char) : Outbox κ E :=
  { o with history := { o.history with sent := o.history.sent ++ bytes } }

/-- The state of the loop after a message was finished and the next one begun. -/
def begin (isData : E → Bool) (mem : SharedMemory κ E) (m : QueuedMsg κ E)
    (queue : List (QueuedMsg κ E)) : Outbox κ E :=
  { o with
    writer := o.writer.start mem m.pointer
    sendQueue := queue
    isSendingData := isData (m.pointer.msg mem).type
    history := { o.history with begun := o.history.begun ++ [m.number] } }

/-- The loop that tries to send all waiting messages. -/
def sendLoop (isData : E → Bool) (mem : SharedMemory κ E) :
    List (QueuedMsg κ E) → Outbox κ E → Socket → SendResult × Outbox κ E
  | queue, o, socket =>
    match o.writer.doSend mem socket with
    | (.done, w, socket, bytes) =>
      let o := { o with writer := w }.addSent bytes
      match queue with
      | [] => (.done, { o with sendQueue := [], isSendingData := false })
      | m :: queue => sendLoop isData mem queue (o.begin isData mem m queue) socket
    | (result, w, _, bytes) => (result, { o with writer := w, sendQueue := queue }.addSent bytes)

/-- The request at the end of a poll handler. -/
def resetPoll : Outbox κ E :=
  if o.isConnected then
    { o with pollFlags := some (if o.sendQueue.isEmpty then EPollFlags.input
      else EPollFlags.input ||| EPollFlags.output) }
  else o

/-- The loop of `stopSendingData`, which drops DATA messages from the queue. -/
def dropQueued (isData : E → Bool) (mem : SharedMemory κ E) : Outbox κ E :=
  { o with
    sendQueue := o.sendQueue.filter fun m => !isData (m.pointer.msg mem).type
    history := { o.history with
      dropped := o.history.dropped ++ (o.sendQueue.filter fun m =>
        isData (m.pointer.msg mem).type).map QueuedMsg.number } }

/-- `m_socketWriter.stop`. A message that it forgets was begun last. -/
def stopWriter (mem : SharedMemory κ E) : Outbox κ E :=
  { o with
    writer := (o.writer.stop mem).2
    isSendingData := false
    history := if (o.writer.stop mem).1 && o.writer.isSending then { o.history with
        dropped := o.history.dropped ++ o.history.begun.getLast?.toList
        begun := o.history.begun.dropLast }
      else o.history }

/-- Whether there was DATA to send is the second component. -/
def stopSendingData (isData : E → Bool) (mem : SharedMemory κ E) : Outbox κ E × Bool :=
  if o.isSendingData then ((o.dropQueued isData mem).stopWriter mem, true)
  else (o.dropQueued isData mem, o.sendQueue.any fun m => isData (m.pointer.msg mem).type)

end Outbox

/-! ## What one run of the loop sends -/

namespace StreamSocketWriter

variable {w : StreamSocketWriter κ E} {mem : SharedMemory κ E} {socket : Socket}

/-- How many bytes are still to be sent. -/
def left (w : StreamSocketWriter κ E) : ℕ :=
  if w.isSending then w.dataLength - w.dataPos else 0

variable (mem) in
/-- A message is begun when the writer is idle. -/
theorem left_start (h : w.isSending = false) (m : MsgPointer κ E) :
    (w.start mem m).isSending = true ∧ (w.start mem m).left = (m.msg mem).text.length := by
  have hn : w.msgType = .none := by simpa [isSending] using h
  cases m <;> simp [start, send, sendShared, left, isSending, MsgPointer.msg, hn]

/-- What a call of `doSend` can do. -/
theorem doSend_cases (w : StreamSocketWriter κ E) (mem : SharedMemory κ E) (socket : Socket) :
    let length := min socket.space (w.dataLength - w.dataPos)
    let socket' := { socket with space := socket.space - length }
    (w.isSending = false ∧ w.doSend mem socket = (.done, w, socket, [])) ∨
    (w.isSending = true ∧ (socket.fails = true ∧ socket.space = 0 ∧ w.dataPos < w.dataLength) ∧
      w.doSend mem socket = (.failed, w, socket, [])) ∨
    (w.isSending = true ∧ w.dataLength ≤ w.dataPos + length ∧
      w.doSend mem socket = (.done, (w.advance length).finish, socket', (w.rest mem).take length)) ∨
    (w.isSending = true ∧ w.dataPos + length < w.dataLength ∧
      ¬(socket.fails = true ∧ socket.space = 0) ∧
      w.doSend mem socket = (.blocked, w.advance length, socket', (w.rest mem).take length)) := by
  intro length socket'
  unfold doSend
  cases hs : w.isSending with
  | false => exact .inl ⟨rfl, rfl⟩
  | true =>
    rw [if_neg (by simp)]
    split_ifs with hf
    · exact .inr (.inl ⟨rfl, by simpa [and_assoc] using hf, rfl⟩)
    · refine .inr (.inr ?_)
      rcases Nat.lt_or_ge (w.dataPos + length) w.dataLength with hd | hd
      · refine .inr ⟨rfl, hd, fun hfail => hf ?_, if_neg (Nat.not_le.mpr hd)⟩
        simp [hfail.1, hfail.2, show w.dataPos < w.dataLength by omega]
      · exact .inl ⟨rfl, hd, if_pos hd⟩

theorem left_of_sending (h : w.isSending = true) : w.left = w.dataLength - w.dataPos := if_pos h

variable (mem) in
/-- A message for which there is space is finished. -/
theorem doSend_done (h : w.left ≤ socket.space) : (w.doSend mem socket).1 = .done ∧
    (w.doSend mem socket).2.1.isSending = false ∧
      (w.doSend mem socket).2.2.1 = { socket with space := socket.space - w.left } := by
  rcases doSend_cases w mem socket with ⟨hs, he⟩ | ⟨hs, hf, he⟩ | ⟨hs, hd, he⟩ | ⟨hs, hd, -, he⟩
  · rw [he]
    exact ⟨rfl, hs, by simp [left, hs]⟩
  · rw [left_of_sending hs] at h
    omega
  · rw [he, left_of_sending hs]
    rw [left_of_sending hs] at h
    exact ⟨rfl, rfl, by rw [Nat.min_eq_right h]⟩
  · rw [left_of_sending hs] at h
    omega

variable (mem) in
/-- Otherwise the call fails or leaves the message unfinished. -/
theorem doSend_blocked (h : socket.space < w.left) :
    if socket.fails ∧ socket.space = 0 then (w.doSend mem socket).1 = .failed
    else (w.doSend mem socket).1 = .blocked ∧ (w.doSend mem socket).2.1.isSending = true := by
  rcases doSend_cases w mem socket with ⟨hs, he⟩ | ⟨hs, hf, he⟩ | ⟨hs, hd, he⟩ | ⟨hs, hd, hf, he⟩
  · simp [left, hs] at h
  · rw [if_pos ⟨hf.1, hf.2.1⟩, he]
  · rw [left_of_sending hs] at h
    omega
  · rw [if_neg hf, he]
    exact ⟨rfl, hs⟩

end StreamSocketWriter

/-- Whether the bytes that the socket takes end inside the last of the messages. -/
def EndsInLast (lengths : List ℕ) (socket : Socket) : Prop :=
  lengths.dropLast.sum ≤ socket.space ∧ socket.space < lengths.sum ∧
    ¬(socket.fails = true ∧ socket.space = lengths.dropLast.sum)

instance (lengths : List ℕ) (socket : Socket) : Decidable (EndsInLast lengths socket) :=
  inferInstanceAs (Decidable (_ ∧ _))

theorem endsInLast_cons {n m : ℕ} {ns : List ℕ} {socket : Socket} (h : n ≤ socket.space) :
    EndsInLast (n :: m :: ns) socket ↔
      EndsInLast (m :: ns) { socket with space := socket.space - n } := by
  unfold EndsInLast
  rw [List.dropLast_cons_cons, List.sum_cons, List.sum_cons]
  dsimp only
  have h1 : n + (m :: ns).dropLast.sum ≤ socket.space ↔
      (m :: ns).dropLast.sum ≤ socket.space - n := by omega
  have h2 : socket.space < n + (m :: ns).sum ↔ socket.space - n < (m :: ns).sum := by omega
  have h3 : socket.space = n + (m :: ns).dropLast.sum ↔
      socket.space - n = (m :: ns).dropLast.sum := by omega
  rw [h1, h2, h3]

namespace Outbox

variable {mem : SharedMemory κ E} {isData : E → Bool} {o : Outbox κ E} {socket : Socket}

/-- The lengths of the message that is being sent and of those in the queue. -/
def lengths (mem : SharedMemory κ E) (w : StreamSocketWriter κ E) (queue : List (QueuedMsg κ E)) :
    List ℕ :=
  w.left :: queue.map fun m => (m.pointer.msg mem).text.length

/-- The state after a call of `doSend`. -/
def afterSend (mem : SharedMemory κ E) (o : Outbox κ E) (socket : Socket) : Outbox κ E :=
  { o with writer := (o.writer.doSend mem socket).2.1 }.addSent (o.writer.doSend mem socket).2.2.2

theorem sendLoop_nil (h : (o.writer.doSend mem socket).1 = .done) :
    sendLoop isData mem [] o socket =
      (.done, { afterSend mem o socket with sendQueue := [], isSendingData := false }) := by
  unfold sendLoop afterSend
  generalize o.writer.doSend mem socket = r at h ⊢
  obtain ⟨result, w, socket', bytes⟩ := r
  subst h
  rfl

theorem sendLoop_cons (h : (o.writer.doSend mem socket).1 = .done) (m : QueuedMsg κ E)
    (queue : List (QueuedMsg κ E)) : sendLoop isData mem (m :: queue) o socket =
      sendLoop isData mem queue ((afterSend mem o socket).begin isData mem m queue)
        (o.writer.doSend mem socket).2.2.1 := by
  rw [sendLoop]
  unfold afterSend
  generalize o.writer.doSend mem socket = r at h ⊢
  obtain ⟨result, w, socket', bytes⟩ := r
  subst h
  rfl

theorem sendLoop_stopped (h : (o.writer.doSend mem socket).1 ≠ .done)
    (queue : List (QueuedMsg κ E)) : sendLoop isData mem queue o socket =
      ((o.writer.doSend mem socket).1, { afterSend mem o socket with sendQueue := queue }) := by
  cases queue <;>
  · unfold sendLoop afterSend
    generalize o.writer.doSend mem socket = r at h ⊢
    obtain ⟨result, w, socket', bytes⟩ := r
    cases result with
    | done => exact absurd rfl h
    | blocked => rfl
    | failed => rfl

variable (mem isData) in
/-- The loop does not touch the connection. -/
theorem sendLoop_frame (queue : List (QueuedMsg κ E)) (o : Outbox κ E) (socket : Socket) :
    (sendLoop isData mem queue o socket).2.isConnected = o.isConnected ∧
      (sendLoop isData mem queue o socket).2.pollFlags = o.pollFlags := by
  induction queue generalizing o socket with
  | nil =>
    by_cases h : (o.writer.doSend mem socket).1 = .done
    · rw [sendLoop_nil h]
      exact ⟨rfl, rfl⟩
    · rw [sendLoop_stopped h]
      exact ⟨rfl, rfl⟩
  | cons m queue ih =>
    by_cases h : (o.writer.doSend mem socket).1 = .done
    · rw [sendLoop_cons h]
      exact ih _ _
    · rw [sendLoop_stopped h]
      exact ⟨rfl, rfl⟩

variable (mem isData) in
/-- **The loop leaves an unfinished message behind an empty queue** exactly when the bytes that
the socket takes end inside the last message. -/
theorem sendLoop_unsent (queue : List (QueuedMsg κ E)) (o : Outbox κ E) (socket : Socket) :
    ((sendLoop isData mem queue o socket).1 ≠ .failed ∧
      (sendLoop isData mem queue o socket).2.sendQueue = [] ∧
        (sendLoop isData mem queue o socket).2.writer.isSending = true) ↔
      EndsInLast (lengths mem o.writer queue) socket := by
  induction queue generalizing o socket with
  | nil =>
    -- with no message behind it the current one is the last
    have hends : EndsInLast (lengths mem o.writer []) socket ↔
        socket.space < o.writer.left ∧ ¬(socket.fails = true ∧ socket.space = 0) := by
      simp [EndsInLast, lengths]
    rw [hends]
    rcases Nat.lt_or_ge socket.space o.writer.left with h | h
    · have hblocked := StreamSocketWriter.doSend_blocked mem h
      split_ifs at hblocked with hf
      · rw [sendLoop_stopped (by simp [hblocked]), hblocked]
        simp [hf]
      · rw [sendLoop_stopped (by simp [hblocked.1]), hblocked.1]
        simp [h, hf, afterSend, addSent, hblocked.2]
    · obtain ⟨hdone, hidle, -⟩ := StreamSocketWriter.doSend_done mem h
      rw [sendLoop_nil hdone]
      simp [afterSend, addSent, hidle, Nat.not_lt.mpr h]
  | cons m queue ih =>
    rcases Nat.lt_or_ge socket.space o.writer.left with h | h
    · -- the space ends before the last message, which stays queued
      have hends : ¬ EndsInLast (lengths mem o.writer (m :: queue)) socket := by
        intro he
        have hle := he.1
        rw [lengths, List.map_cons, List.dropLast_cons_cons, List.sum_cons] at hle
        omega
      have hne : (o.writer.doSend mem socket).1 ≠ .done := by
        have hblocked := StreamSocketWriter.doSend_blocked mem h
        split_ifs at hblocked with hf
        · simp [hblocked]
        · simp [hblocked.1]
      rw [sendLoop_stopped hne]
      simp [hends]
    · obtain ⟨hdone, hidle, hsocket⟩ := StreamSocketWriter.doSend_done mem h
      rw [sendLoop_cons hdone, ih, hsocket]
      have hstart := (StreamSocketWriter.left_start mem hidle m.pointer).2
      show EndsInLast ((StreamSocketWriter.start mem (o.writer.doSend mem socket).2.1 m.pointer).left ::
        _) _ ↔ _
      rw [hstart]
      exact (endsInLast_cons h).symm

/-! ## Waiting for output -/

/-- There is something to send. -/
def IsUnsent (o : Outbox κ E) : Prop := o.sendQueue ≠ [] ∨ o.writer.isSending = true

/-- Unsent bytes are waited for. -/
def Waits (o : Outbox κ E) : Prop :=
  o.isConnected = true → o.IsUnsent →
    ∃ flags, o.pollFlags = some flags ∧ flags.test EPollFlags.output = true

theorem Waits.enqueue (h : o.Waits) (mem : SharedMemory κ E) (m : MsgPointer κ E) :
    (o.enqueue mem m).Waits := by
  intro hc hu
  by_cases hq : o.sendQueue = []
  · exact ⟨EPollFlags.input ||| EPollFlags.output, by simp [Outbox.enqueue, hq], by decide⟩
  · obtain ⟨flags, hf, ht⟩ := h hc (.inl hq)
    exact ⟨flags, by simpa [Outbox.enqueue, hq] using hf, ht⟩

theorem Waits.close (o : Outbox κ E) : o.close.Waits := fun hc => by cases hc

theorem isSending_stop (w : StreamSocketWriter κ E) (mem : SharedMemory κ E)
    (h : (w.stop mem).2.isSending = true) : w.isSending = true := by
  cases hw : w.msgType with
  | none => simp [StreamSocketWriter.stop, StreamSocketWriter.isSending, hw] at h
  | _ => simp [StreamSocketWriter.isSending, hw]

theorem Waits.dropQueued (h : o.Waits) (isData : E → Bool) (mem : SharedMemory κ E) :
    (o.dropQueued isData mem).Waits := by
  intro hc hu
  refine h hc (hu.imp_left ?_)
  rintro hq hnil
  exact hq (by simp [Outbox.dropQueued, hnil])

theorem Waits.stopWriter (h : o.Waits) (mem : SharedMemory κ E) : (o.stopWriter mem).Waits :=
  fun hc hu => h hc (hu.imp_right (isSending_stop o.writer mem))

theorem Waits.stopSendingData (h : o.Waits) (isData : E → Bool) (mem : SharedMemory κ E) :
    (o.stopSendingData isData mem).1.Waits := by
  unfold Outbox.stopSendingData
  split_ifs
  · exact (h.dropQueued isData mem).stopWriter mem
  · exact h.dropQueued isData mem

theorem resetPoll_isConnected : o.resetPoll.isConnected = o.isConnected := by
  rw [resetPoll]
  split_ifs <;> rfl

theorem stopSendingData_isConnected (isData : E → Bool) (mem : SharedMemory κ E) :
    (o.stopSendingData isData mem).1.isConnected = o.isConnected := by
  unfold Outbox.stopSendingData
  split_ifs <;> rfl

/-- The request at the end of a poll handler looks at the queue alone. -/
theorem waits_resetPoll :
    o.resetPoll.Waits ↔ (o.isConnected = true → o.writer.isSending = true → o.sendQueue ≠ []) := by
  by_cases hc : o.isConnected = true
  · unfold resetPoll Waits
    rw [if_pos hc]
    by_cases hq : o.sendQueue = []
    · have ht : EPollFlags.input.test EPollFlags.output = false := by decide
      simp [hc, hq, IsUnsent, ht]
    · refine ⟨fun _ _ _ => hq, fun _ _ _ => ⟨EPollFlags.input ||| EPollFlags.output, ?_, by decide⟩⟩
      simp [hq]
  · have hf : o.isConnected = false := by simpa using hc
    simp [resetPoll, Waits, hf]

end Outbox

end

end Conntop
