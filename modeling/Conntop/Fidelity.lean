import Conntop.Server
import Mathlib.Data.List.Infix
import Mathlib.Data.List.Range

/-!
# Message fidelity

What a session of the server hands to its socket, compared with the messages that were enqueued
for it. The queue and the writer refer to shared messages, which `Server::onUpdate` replaces.

* `History.IsFaithful`: the bytes sent are a prefix of the texts of the messages that were not
  dropped, each as it was when it was enqueued, and only DATA was dropped.
* `Outbox.Faithful` is the invariant: the numbers that were begun or are in the queue are all that
  were not dropped, in order, and what the queue points to is what was enqueued.
* `Outbox.refersTo` tells if a session still refers to a shared message. An assignment to it is
  harmless when no session does, except DATA that `stopSendingData` takes back first.

Main result: `step_sound`, a step keeps every session faithful, if it is no call of `onUpdate` or a
harmless one (`Server.Op.IsHarmless`).
-/

namespace Conntop

section

variable {κ E : Type} [Inhabited E]

namespace History

variable (h : History E)

/-- The messages that were not dropped, as they were enqueued. -/
def kept : List (SerializedMessage E) :=
  ((List.range h.enqueued.length).filter (· ∉ h.dropped)).filterMap (h.enqueued[·]?)

def IsFaithful (isData : E → Bool) : Prop :=
  h.sent <+: h.kept.flatMap SerializedMessage.text ∧
    ∀ i ∈ h.dropped, ∃ m, h.enqueued[i]? = some m ∧ isData m.type = true

end History

/-! ## What the writer still has to send -/

namespace StreamSocketWriter

variable {w : StreamSocketWriter κ E} {mem mem' : SharedMemory κ E} {socket : Socket}

def pending (w : StreamSocketWriter κ E) (mem : SharedMemory κ E) : List Char :=
  if w.isSending then w.rest mem else []

/-- The pointer is to what the type of the message says. -/
def Wf (w : StreamSocketWriter κ E) : Prop :=
  match w.msgType with
  | .none => True
  | .own => w.data = .msg
  | .shared => ∃ k version, w.data = .shared k version
  | .buffered => w.data = .buffer

def refersTo [DecidableEq κ] (w : StreamSocketWriter κ E) (k : κ) : Bool :=
  w.msgType = .shared &&
    match w.data with
    | .shared k' _ => k' = k
    | _ => false

theorem wf_of_idle (h : w.isSending = false) : w.Wf := by
  have hn : w.msgType = .none := by simpa [isSending] using h
  rw [Wf, hn]
  trivial

theorem pending_of_idle (h : w.isSending = false) : w.pending mem = [] := by
  simp [pending, h]

theorem pending_of_sending (h : w.isSending = true) : w.pending mem = w.rest mem := by
  simp [pending, h]

theorem rest_advance (w : StreamSocketWriter κ E) (mem : SharedMemory κ E) (length : ℕ) :
    (w.advance length).rest mem = (w.rest mem).drop length := by
  show ((w.target mem).drop (w.dataPos + length)).take (w.dataLength - (w.dataPos + length)) =
    (((w.target mem).drop w.dataPos).take (w.dataLength - w.dataPos)).drop length
  rw [List.drop_take, List.drop_drop, Nat.sub_sub]

variable (mem socket) in
/-- What a call sends and what it leaves are what was to be sent. -/
theorem doSend_pending (hw : w.Wf) :
    (w.doSend mem socket).2.2.2 ++ (w.doSend mem socket).2.1.pending mem = w.pending mem ∧
      (w.doSend mem socket).2.1.Wf ∧
        ((w.doSend mem socket).2.1.isSending = true → w.isSending = true ∧
          (w.doSend mem socket).2.1.msgType = w.msgType ∧
            ((w.doSend mem socket).2.1.dataPos = 0 →
              w.dataPos = 0 ∧ (w.doSend mem socket).2.1.pending mem = w.pending mem)) := by
  rcases doSend_cases w mem socket with ⟨-, h⟩ | ⟨hs, -, h⟩ | ⟨hs, hd, h⟩ | ⟨hs, hd, -, h⟩ <;>
    rw [h]
  · exact ⟨rfl, hw, fun h => ⟨h, rfl, fun h0 => ⟨h0, rfl⟩⟩⟩
  · exact ⟨rfl, hw, fun _ => ⟨hs, rfl, fun h0 => ⟨h0, rfl⟩⟩⟩
  · have hidle : ∀ w : StreamSocketWriter κ E, w.finish.isSending = false := fun _ => rfl
    have hlength : (w.rest mem).length ≤ w.dataLength - w.dataPos := List.length_take_le _ _
    refine ⟨?_, trivial, fun hs' => absurd ((hidle _).symm.trans hs') (by simp)⟩
    rw [pending_of_sending hs, pending_of_idle (hidle _), List.append_nil,
      List.take_of_length_le (by omega)]
  · refine ⟨?_, hw, fun _ => ⟨hs, rfl, fun h0 => ?_⟩⟩
    · rw [pending_of_sending hs, pending_of_sending (by exact hs), rest_advance,
        List.take_append_drop]
    · have hz : w.dataPos + min socket.space (w.dataLength - w.dataPos) = 0 := h0
      rw [pending_of_sending hs, pending_of_sending (by exact hs), rest_advance,
        show min socket.space (w.dataLength - w.dataPos) = 0 by omega, List.drop_zero]
      exact ⟨by omega, rfl⟩

theorem idle_of_done (h : (w.doSend mem socket).1 = .done) :
    (w.doSend mem socket).2.1.isSending = false := by
  rcases doSend_cases w mem socket with ⟨hs, he⟩ | ⟨-, -, he⟩ | ⟨-, -, he⟩ | ⟨-, -, -, he⟩ <;>
    rw [he] at h ⊢
  · exact hs
  · cases h
  · rfl
  · cases h

variable (mem) in
theorem start_pending (hw : w.isSending = false) (m : MsgPointer κ E) :
    (w.start mem m).pending mem = (m.msg mem).text ∧ (w.start mem m).Wf ∧
      (w.start mem m).dataPos = 0 := by
  have hn : w.msgType = .none := by simpa [isSending] using hw
  cases m with
  | own msg =>
    simp [start, send, isSending, hn, pending, rest, target, MsgPointer.msg, Wf]
  | shared k =>
    simp [start, sendShared, isSending, hn, pending, rest, target, MsgPointer.msg, Wf,
      SharedMemory.read]

variable (mem) in
/-- A message that `stop` forgets was not begun. Otherwise the same bytes are left, and none of
them is in a shared message. -/
theorem stop_pending (hw : w.Wf) (hs : w.isSending = true) :
    ((w.stop mem).1 = true ∧ w.msgType ≠ .buffered ∧ w.dataPos = 0 ∧
      (w.stop mem).2.isSending = false) ∨
    ((w.stop mem).1 = false ∧ (w.stop mem).2.pending mem = w.pending mem ∧ (w.stop mem).2.Wf ∧
      (w.stop mem).2.msgType ≠ .shared ∧
        ((w.stop mem).2.msgType ≠ .buffered → (w.stop mem).2.dataPos ≠ 0)) := by
  cases hm : w.msgType with
  | none => simp [isSending, hm] at hs
  | own =>
    by_cases h0 : w.dataPos = 0
    · exact .inl (by simp [stop, hm, h0, isSending])
    · exact .inr (by simp [stop, hm, h0, hw])
  | shared =>
    by_cases h0 : w.dataPos = 0
    · exact .inl (by simp [stop, hm, h0, isSending])
    · refine .inr ?_
      simp [stop, hm, h0, Wf, pending, isSending, rest, target]
  | buffered => exact .inr (by simp [stop, hm, hw])

/-- The bytes that are left do not depend on a message that is not referred to. -/
theorem pending_congr [DecidableEq κ] (hw : w.Wf) (hr : mem'.replaced = mem.replaced)
    (h : ∀ k, w.refersTo k = true → mem'.texts k = mem.texts k) :
    w.pending mem' = w.pending mem := by
  unfold pending rest
  cases hm : w.msgType with
  | none => simp [isSending, hm]
  | own =>
    rw [Wf, hm] at hw
    simp [target, show w.data = .msg from hw]
  | shared =>
    rw [Wf, hm] at hw
    obtain ⟨k, version, hk⟩ := hw
    have hsame := h k (by simp [refersTo, hm, hk])
    simp [target, hk, SharedMemory.read, hsame, hr]
  | buffered =>
    rw [Wf, hm] at hw
    simp [target, show w.data = .buffer from hw]

end StreamSocketWriter

/-! ## The invariant of a session -/

namespace History

/-- The texts of some of the enqueued messages, by their numbers. -/
def texts (h : History E) (numbers : List ℕ) : List Char :=
  (numbers.filterMap (h.enqueued[·]?)).flatMap SerializedMessage.text

theorem texts_append (h : History E) (is js : List ℕ) :
    h.texts (is ++ js) = h.texts is ++ h.texts js := by
  simp [texts, List.filterMap_append]

theorem texts_singleton {h : History E} {i : ℕ} {m : SerializedMessage E}
    (hm : h.enqueued[i]? = some m) : h.texts [i] = m.text := by
  simp [texts, hm]

end History

namespace Outbox

/-- The numbers that are begun or in the queue. -/
def numbers (o : Outbox κ E) : List ℕ := o.history.begun ++ o.sendQueue.map QueuedMsg.number

/-- The message in the writer is the one that was begun last. -/
structure InWriter (isData : E → Bool) (mem : SharedMemory κ E) (o : Outbox κ E) (i : ℕ)
    (m : SerializedMessage E) : Prop where
  begun : o.history.begun.getLast? = some i
  enqueued : o.history.enqueued[i]? = some m
  isData : o.isSendingData = true → isData m.type = true
  whole : o.writer.msgType ≠ .buffered → o.writer.dataPos = 0 → o.writer.pending mem = m.text

/-- What a session keeps while the shared messages that it refers to stay. -/
structure Faithful (isData : E → Bool) (mem : SharedMemory κ E) (o : Outbox κ E) : Prop where
  numbers : o.numbers = (List.range o.history.enqueued.length).filter (· ∉ o.history.dropped)
  dropped : ∀ i ∈ o.history.dropped, ∃ m, o.history.enqueued[i]? = some m ∧ isData m.type = true
  queued : ∀ q ∈ o.sendQueue, o.history.enqueued[q.number]? = some (q.pointer.msg mem)
  sent : o.history.sent ++ o.writer.pending mem = o.history.texts o.history.begun
  writer : o.writer.Wf
  last : o.writer.isSending = true → ∃ i m, o.InWriter isData mem i m

variable {isData : E → Bool} {mem mem' : SharedMemory κ E} {o : Outbox κ E}

namespace Faithful

theorem isFaithful (h : o.Faithful isData mem) : o.history.IsFaithful isData := by
  refine ⟨?_, h.dropped⟩
  have hkept : o.history.kept.flatMap SerializedMessage.text = o.history.texts o.numbers := by
    unfold History.kept History.texts
    rw [h.numbers]
  rw [hkept, Outbox.numbers, History.texts_append, ← h.sent, List.append_assoc]
  exact List.prefix_append _ _

theorem nodup (h : o.Faithful isData mem) : o.numbers.Nodup := by
  rw [h.numbers]
  exact List.nodup_range.filter _

theorem enqueue (h : o.Faithful isData mem) (m : MsgPointer κ E) :
    (o.enqueue mem m).Faithful isData mem := by
  have hlt : ∀ {i : ℕ} {m' : SerializedMessage E}, o.history.enqueued[i]? = some m' →
      (o.history.enqueued ++ [m.msg mem])[i]? = some m' := by
    intro i m' hi
    rw [List.getElem?_append_left (List.getElem?_eq_some_iff.mp hi).1, hi]
  have hbegun : ∀ i ∈ o.history.begun, i < o.history.enqueued.length := by
    intro i hi
    have hmem : i ∈ o.numbers := List.mem_append_left _ hi
    rw [h.numbers, List.mem_filter, List.mem_range] at hmem
    exact hmem.1
  exact
    { numbers := by
        have hnew : o.history.enqueued.length ∉ o.history.dropped := by
          intro hd
          obtain ⟨m', hm, -⟩ := h.dropped _ hd
          exact absurd (List.getElem?_eq_some_iff.mp hm).1 (lt_irrefl _)
        show o.history.begun ++ (o.sendQueue ++ [_]).map QueuedMsg.number =
          (List.range (o.history.enqueued ++ [_]).length).filter (· ∉ o.history.dropped)
        rw [List.length_append, List.length_singleton, List.range_succ, List.filter_append,
          ← h.numbers, List.map_append, ← List.append_assoc]
        simp [Outbox.numbers, hnew]
      dropped := fun i hi =>
        let ⟨m', hm, hd⟩ := h.dropped i hi
        ⟨m', hlt hm, hd⟩
      queued := by
        intro q hq
        rcases List.mem_append.mp hq with hq | hq
        · exact hlt (h.queued q hq)
        · obtain rfl := List.mem_singleton.mp hq
          simp [Outbox.enqueue]
      sent := by
        refine h.sent.trans ?_
        unfold History.texts
        congr 1
        refine List.filterMap_congr fun i hi => ?_
        exact (List.getElem?_append_left (hbegun i hi)).symm
      writer := h.writer
      last := fun hs =>
        let ⟨i, m', hm⟩ := h.last hs
        ⟨i, m', { hm with enqueued := hlt hm.enqueued }⟩ }

/-- Only the messages that the session refers to matter. -/
theorem congr (h : o.Faithful isData mem) (hw : o.writer.pending mem' = o.writer.pending mem)
    (hq : ∀ q ∈ o.sendQueue, q.pointer.msg mem' = q.pointer.msg mem) :
    o.Faithful isData mem' :=
  { h with
    queued := fun q hmem => (hq q hmem).symm ▸ h.queued q hmem
    sent := by rw [hw, h.sent]
    last := fun hs =>
      let ⟨i, m, hm⟩ := h.last hs
      ⟨i, m, { hm with whole := fun hb h0 => hw.trans (hm.whole hb h0) }⟩ }

/-- What is dropped is taken from the numbers. -/
theorem filter_dropped (h : o.Faithful isData mem) (ds : List ℕ) :
    o.numbers.filter (· ∉ ds) =
      (List.range o.history.enqueued.length).filter (· ∉ o.history.dropped ++ ds) := by
  rw [h.numbers, List.filter_filter]
  refine List.filter_congr fun i _ => ?_
  simp [and_comm]

theorem dropQueued (h : o.Faithful isData mem) : (o.dropQueued isData mem).Faithful isData mem := by
  obtain ⟨-, hnodup, hdisj⟩ := List.nodup_append.mp h.nodup
  set ds := (o.sendQueue.filter fun m => isData (m.pointer.msg mem).type).map QueuedMsg.number
    with hds
  have hmem : ∀ q ∈ o.sendQueue, q.number ∈ ds ↔ isData (q.pointer.msg mem).type = true := by
    intro q hq
    rw [hds, List.mem_map]
    constructor
    · rintro ⟨q', hq', heq⟩
      rw [List.mem_filter] at hq'
      rw [← List.inj_on_of_nodup_map hnodup hq'.1 hq heq]
      exact hq'.2
    · intro hd
      exact ⟨q, List.mem_filter.mpr ⟨hq, hd⟩, rfl⟩
  exact
    { h with
      numbers := by
        refine Eq.trans ?_ (h.filter_dropped ds)
        have hbegun : o.history.begun.filter (· ∉ ds) = o.history.begun := by
          refine List.filter_eq_self.mpr fun i hi => decide_eq_true fun hd => ?_
          obtain ⟨q, hq, rfl⟩ := List.mem_map.mp hd
          exact hdisj _ hi _ (List.mem_map_of_mem (List.mem_of_mem_filter hq)) rfl
        show o.history.begun ++ (o.sendQueue.filter _).map QueuedMsg.number = _
        rw [Outbox.numbers, List.filter_append, hbegun, List.filter_map]
        congr 2
        refine List.filter_congr fun q hq => ?_
        simp [hmem q hq]
      dropped := by
        intro i hi
        rcases List.mem_append.mp hi with hi | hi
        · exact h.dropped i hi
        · obtain ⟨q, hq, rfl⟩ := List.mem_map.mp hi
          rw [List.mem_filter] at hq
          exact ⟨_, h.queued q hq.1, hq.2⟩
      queued := fun q hq => h.queued q (List.mem_of_mem_filter hq)
      last := fun hs =>
        let ⟨i, m, hm⟩ := h.last hs
        ⟨i, m, { hm with }⟩ }

theorem filter_ne {i : ℕ} {l r : List ℕ} (h : (l ++ i :: r).Nodup) :
    (l ++ i :: r).filter (· ∉ [i]) = l ++ r := by
  rw [List.nodup_middle, List.nodup_cons] at h
  have hne : (l ++ r).filter (· ∉ [i]) = l ++ r := by
    refine List.filter_eq_self.mpr fun j hj => decide_eq_true fun hji => ?_
    exact h.1 (List.mem_singleton.mp hji ▸ hj)
  rw [List.filter_append, List.filter_cons_of_neg (by simp), ← List.filter_append, hne]

/-- `stop` is called while DATA is being sent. -/
theorem stopWriter (h : o.Faithful isData mem) (hd : o.isSendingData = true) :
    (o.stopWriter mem).Faithful isData mem := by
  by_cases hs : o.writer.isSending = true
  · obtain ⟨i, m, hm⟩ := h.last hs
    -- either no character is written and the message is taken back, or it must be finished
    rcases StreamSocketWriter.stop_pending mem h.writer hs with
      ⟨hidle, hb, h0, hstop⟩ | ⟨hidle, hpending, hwf, -, hpos⟩
    · -- the message is the last that was begun, and none of it is sent
      have hbegun : o.history.begun = o.history.begun.dropLast ++ [i] :=
        (List.dropLast_append_getLast? i hm.begun).symm
      have hhistory : (o.stopWriter mem).history = { o.history with
          dropped := o.history.dropped ++ [i], begun := o.history.begun.dropLast } := by
        simp [Outbox.stopWriter, hidle, hs, hm.begun]
      have hnumbers : (o.stopWriter mem).numbers = o.numbers.filter (· ∉ [i]) := by
        have hnodup := h.nodup
        unfold Outbox.numbers at hnodup ⊢
        rw [hbegun, List.append_assoc] at hnodup ⊢
        rw [hhistory]
        exact (filter_ne hnodup).symm
      have hsent : o.history.sent = o.history.texts o.history.begun.dropLast := by
        have hall := h.sent
        rw [hm.whole hb h0, hbegun, History.texts_append,
          History.texts_singleton hm.enqueued] at hall
        exact List.append_cancel_right hall
      exact
        { numbers := by
            rw [hnumbers, h.filter_dropped, hhistory]
          dropped := by
            intro j hj
            rw [hhistory] at hj ⊢
            rcases List.mem_append.mp hj with hj | hj
            · exact h.dropped j hj
            · obtain rfl := List.mem_singleton.mp hj
              exact ⟨m, hm.enqueued, hm.isData hd⟩
          queued := by
            rw [hhistory]
            exact h.queued
          sent := by
            rw [hhistory]
            show o.history.sent ++ (o.writer.stop mem).2.pending mem = _
            rw [StreamSocketWriter.pending_of_idle hstop, List.append_nil]
            exact hsent
          writer := StreamSocketWriter.wf_of_idle hstop
          last := fun hs' => absurd (hstop.symm.trans hs') (by simp) }
    · -- the writer goes on, with a copy of what is left of a shared message
      have hhistory : (o.stopWriter mem).history = o.history := by
        simp [Outbox.stopWriter, hidle]
      exact
        { numbers := by
            unfold Outbox.numbers
            rw [hhistory]
            exact h.numbers
          dropped := by
            rw [hhistory]
            exact h.dropped
          queued := by
            rw [hhistory]
            exact h.queued
          sent := by
            rw [hhistory]
            exact (congrArg (o.history.sent ++ ·) hpending).trans h.sent
          writer := hwf
          last := fun _ => ⟨i, m,
            { begun := by rw [hhistory]; exact hm.begun
              enqueued := by rw [hhistory]; exact hm.enqueued
              isData := nofun
              whole := fun hb h0 => absurd h0 (hpos hb) }⟩ }
  · -- nothing is being sent
    have hn : o.writer.msgType = .none := by simpa [StreamSocketWriter.isSending] using hs
    have hstop : o.stopWriter mem = { o with isSendingData := false } := by
      simp [Outbox.stopWriter, StreamSocketWriter.stop, StreamSocketWriter.isSending, hn]
    rw [hstop]
    exact { h with last := fun hs' => absurd hs' hs }

theorem stopSendingData (h : o.Faithful isData mem) :
    (o.stopSendingData isData mem).1.Faithful isData mem := by
  unfold Outbox.stopSendingData
  split_ifs with hd
  · exact h.dropQueued.stopWriter hd
  · exact h.dropQueued

/-! The sending loop. -/

theorem afterSend (h : o.Faithful isData mem) (socket : Socket) :
    (o.afterSend mem socket).Faithful isData mem := by
  obtain ⟨hbytes, hwf, hsend⟩ := StreamSocketWriter.doSend_pending mem socket h.writer
  exact
    { numbers := h.numbers
      dropped := h.dropped
      queued := h.queued
      sent := by
        show (o.history.sent ++ _) ++ _ = _
        rw [List.append_assoc]
        exact (congrArg (o.history.sent ++ ·) hbytes).trans h.sent
      writer := hwf
      last := by
        intro hs
        obtain ⟨hs', htype, hpos⟩ := hsend hs
        obtain ⟨i, m, hm⟩ := h.last hs'
        refine ⟨i, m, { hm with whole := fun hb h0 => ?_ }⟩
        obtain ⟨h0', hp⟩ := hpos h0
        exact hp.trans (hm.whole (htype ▸ hb) h0') }

theorem begin {m : QueuedMsg κ E} {queue : List (QueuedMsg κ E)} (h : o.Faithful isData mem)
    (hq : o.sendQueue = m :: queue) (hs : o.writer.isSending = false) :
    (o.begin isData mem m queue).Faithful isData mem := by
  obtain ⟨hpending, hwf, h0⟩ := StreamSocketWriter.start_pending mem hs m.pointer
  have hm : o.history.enqueued[m.number]? = some (m.pointer.msg mem) :=
    h.queued m (hq ▸ List.mem_cons_self)
  exact
    { numbers := by
        refine Eq.trans ?_ h.numbers
        show (o.history.begun ++ [m.number]) ++ queue.map QueuedMsg.number = _
        rw [Outbox.numbers, hq, List.map_cons, List.append_assoc]
        rfl
      dropped := h.dropped
      queued := fun q hmem => h.queued q (hq ▸ List.mem_cons_of_mem m hmem)
      sent := by
        have hsent := h.sent
        rw [StreamSocketWriter.pending_of_idle hs, List.append_nil] at hsent
        show o.history.sent ++ (o.writer.start mem m.pointer).pending mem =
          o.history.texts (o.history.begun ++ [m.number])
        rw [hpending, History.texts_append, History.texts_singleton hm, hsent]
      writer := hwf
      last := fun _ => ⟨m.number, m.pointer.msg mem,
        { begun := List.getLast?_concat
          enqueued := hm
          isData := id
          whole := fun _ _ => hpending }⟩ }

theorem sendLoop (socket : Socket) (queue : List (QueuedMsg κ E)) (h : o.Faithful isData mem)
    (hq : o.sendQueue = queue) :
    (Outbox.sendLoop isData mem queue o socket).2.Faithful isData mem := by
  induction queue generalizing o socket with
  | nil =>
    have hsend := h.afterSend socket
    by_cases hd : (o.writer.doSend mem socket).1 = .done
    · rw [sendLoop_nil hd]
      have hidle := StreamSocketWriter.idle_of_done hd
      have hnil : (o.afterSend mem socket).sendQueue = [] := hq
      rw [← hnil]
      exact { hsend with last := fun hs => absurd (hidle.symm.trans hs) (by simp) }
    · rw [sendLoop_stopped hd, ← hq]
      exact hsend
  | cons m queue ih =>
    have hsend := h.afterSend socket
    by_cases hd : (o.writer.doSend mem socket).1 = .done
    · rw [sendLoop_cons hd]
      exact ih _ (hsend.begin hq (StreamSocketWriter.idle_of_done hd)) rfl
    · rw [sendLoop_stopped hd, ← hq]
      exact hsend

theorem resetPoll (h : o.Faithful isData mem) : o.resetPoll.Faithful isData mem := by
  unfold Outbox.resetPoll
  split
  · exact { h with last := fun hs =>
      let ⟨i, m, hm⟩ := h.last hs
      ⟨i, m, { hm with }⟩ }
  · exact h

end Faithful

variable (isData mem) in
theorem sendLoop_queue (socket : Socket) (queue : List (QueuedMsg κ E)) (o : Outbox κ E) :
    (sendLoop isData mem queue o socket).2.sendQueue ⊆ queue := by
  induction queue generalizing o socket with
  | nil =>
    by_cases hd : (o.writer.doSend mem socket).1 = .done
    · rw [sendLoop_nil hd]
      exact List.Subset.refl _
    · rw [sendLoop_stopped hd]
      exact List.Subset.refl _
  | cons m queue ih =>
    by_cases hd : (o.writer.doSend mem socket).1 = .done
    · rw [sendLoop_cons hd]
      exact List.subset_cons_of_subset m (ih _ _)
    · rw [sendLoop_stopped hd]
      exact List.Subset.refl _

theorem stopSendingData_queue {q : QueuedMsg κ E}
    (hq : q ∈ (o.stopSendingData isData mem).1.sendQueue) :
    q ∈ o.sendQueue ∧ isData (q.pointer.msg mem).type = false := by
  have hqueue : (o.stopSendingData isData mem).1.sendQueue =
      o.sendQueue.filter fun m => !isData (m.pointer.msg mem).type := by
    unfold Outbox.stopSendingData
    split_ifs <;> rfl
  rw [hqueue, List.mem_filter] at hq
  exact ⟨hq.1, by simpa using hq.2⟩

end Outbox

/-! ## References to shared messages -/

section

variable [DecidableEq κ]

def MsgPointer.refersTo (m : MsgPointer κ E) (k : κ) : Bool :=
  match m with
  | .own _ => false
  | .shared k' => k' = k

/-- Whether the session still needs the shared message. -/
def Outbox.refersTo (o : Outbox κ E) (k : κ) : Bool :=
  o.sendQueue.any (·.pointer.refersTo k) || o.writer.refersTo k

variable {isData : E → Bool} {mem mem' : SharedMemory κ E} {o : Outbox κ E}

theorem MsgPointer.msg_congr {m : MsgPointer κ E}
    (h : ∀ k, m.refersTo k = true → mem'.texts k = mem.texts k) : m.msg mem' = m.msg mem := by
  cases m with
  | own msg => rfl
  | shared k => simp [MsgPointer.msg, h k (by simp [refersTo])]

theorem Outbox.refersTo_of_mem {q : QueuedMsg κ E} {k : κ} (hq : q ∈ o.sendQueue)
    (hk : q.pointer.refersTo k = true) : o.refersTo k = true := by
  simp only [refersTo, Bool.or_eq_true, List.any_eq_true]
  exact .inl ⟨q, hq, hk⟩

/-- A writer that was stopped does not refer to shared messages, and no DATA is queued. -/
theorem Outbox.stopSendingData_refersTo (h : o.Faithful isData mem) (hs : o.isSendingData = true)
    {k : κ} (hk : (o.stopSendingData isData mem).1.refersTo k = true) :
    ∃ q ∈ o.sendQueue, q.pointer.refersTo k = true ∧ isData (q.pointer.msg mem).type = false := by
  have hwriter : (o.stopSendingData isData mem).1.writer.msgType ≠ .shared := by
    have hstop : (o.stopSendingData isData mem).1.writer = (o.writer.stop mem).2 := by
      unfold stopSendingData
      rw [if_pos hs]
      rfl
    rw [hstop]
    intro hshared
    have hsend : (o.writer.stop mem).2.isSending = true := by
      simp [StreamSocketWriter.isSending, hshared]
    rcases StreamSocketWriter.stop_pending mem h.writer
      (isSending_stop o.writer mem hsend) with ⟨-, -, -, hidle⟩ | ⟨-, -, -, hne, -⟩
    · exact absurd (hidle.symm.trans hsend) (by simp)
    · exact hne hshared
  unfold Outbox.refersTo at hk
  rw [Bool.or_eq_true, List.any_eq_true] at hk
  rcases hk with ⟨q, hq, hk⟩ | hk
  · obtain ⟨hmem, hd⟩ := stopSendingData_queue hq
    exact ⟨q, hmem, hk, hd⟩
  · simp [StreamSocketWriter.refersTo, hwriter] at hk

/-- Assignments to shared messages that a session does not refer to do not concern it. -/
theorem Outbox.Faithful.of_memory (h : o.Faithful isData mem) (hr : mem'.replaced = mem.replaced)
    (ht : ∀ k, o.refersTo k = true → mem'.texts k = mem.texts k) : o.Faithful isData mem' := by
  refine h.congr (StreamSocketWriter.pending_congr h.writer hr fun k hk => ht k ?_) ?_
  · simp [refersTo, hk]
  · intro q hq
    exact MsgPointer.msg_congr fun k hk => ht k (refersTo_of_mem hq hk)

end

end

/-! ## The sessions of the server -/

namespace ServerSession

variable {mem mem' : ServerMemory} {o : ServerOutbox} {state : ESessionState}
variable {s : ServerSession ServerOutbox}

/-- What is in the queue for shared data is DATA. -/
def HasData (mem : ServerMemory) (o : ServerOutbox) : Prop :=
  ∀ q ∈ o.sendQueue, ¬IsControl q.pointer → isData (q.pointer.msg mem).type = true

/-- The invariant of a session. One that is disconnected will not send any more. -/
def Sound (mem : ServerMemory) (o : ServerOutbox) (state : ESessionState) : Prop :=
  o.history.IsFaithful isData ∧
    (state ≠ .disconnected → o.Faithful isData mem ∧ HasData mem o)

theorem Sound.of_faithful (h : o.Faithful isData mem) (hd : HasData mem o) :
    Sound mem o state := ⟨h.isFaithful, fun _ => ⟨h, hd⟩⟩

theorem Sound.enqueue (hs : state ≠ .disconnected) (h : Sound mem o state) {m : ServerMsgPointer}
    (hm : ¬IsControl m → isData (m.msg mem).type = true) : Sound mem (o.enqueue mem m) state := by
  obtain ⟨hf, hd⟩ := h.2 hs
  refine .of_faithful (hf.enqueue m) fun q hq hc => ?_
  rcases List.mem_append.mp hq with hq | hq
  · exact hd q hq hc
  · obtain rfl := List.mem_singleton.mp hq
    exact hm hc

theorem keeps_sound (mem : ServerMemory) : Keeps mem (Sound mem) where
  enqueue _ _ _ hm hs h := h.enqueue hs fun hc => absurd hm hc
  close _ _ h := ⟨h.1, fun hs => absurd rfl hs⟩
  open_ _ _ _ hs _ h := ⟨h.1, fun _ => h.2 hs⟩

theorem accept_sound (mem : ServerMemory) :
    Sound mem (accept mem acceptedOutbox).transport (accept mem acceptedOutbox).state := by
  refine (keeps_sound mem).enqueue acceptedOutbox .opening (.shared .banner) ⟨nofun, nofun⟩ nofun ?_
  refine .of_faithful ?_ nofun
  exact
    { numbers := rfl
      dropped := nofun
      queued := nofun
      sent := rfl
      writer := trivial
      last := nofun }

theorem stopSendingData_sound (hs : s.state ≠ .disconnected) (h : Sound mem s.transport s.state) :
    Sound mem (s.stopSendingData mem).transport (s.stopSendingData mem).state := by
  obtain ⟨hf, hd⟩ := h.2 hs
  exact .of_faithful hf.stopSendingData fun q hq hc => hd q (Outbox.stopSendingData_queue hq).1 hc

theorem output_sound (hs : s.state ≠ .disconnected) (h : Sound mem s.transport s.state)
    (socket : Socket) : Sound mem (s.output mem socket).transport (s.output mem socket).state := by
  obtain ⟨hf, hd⟩ := h.2 hs
  have hloop := hf.sendLoop socket s.transport.sendQueue rfl
  have hqueue := Outbox.sendLoop_queue isData mem socket s.transport.sendQueue s.transport
  unfold output
  generalize Outbox.sendLoop isData mem s.transport.sendQueue s.transport socket = r at *
  obtain ⟨result, o⟩ := r
  have hsound : Sound mem o s.state := .of_faithful hloop fun q hq hc => hd q (hqueue hq) hc
  cases result with
  | failed => exact (keeps_sound mem).close o s.state hsound
  | _ => exact hsound

theorem afterOutput_sound (h : Sound mem s.transport s.state) (event : PollEvent) :
    Sound mem (s.afterOutput event).transport (s.afterOutput event).state := by
  have hreset : ∀ {o : ServerOutbox} {state : ESessionState}, Sound mem o state →
      Sound mem o.resetPoll state := by
    intro o state h
    have hhistory : o.resetPoll.history = o.history := by
      unfold Outbox.resetPoll
      split_ifs <;> rfl
    have hqueue : o.resetPoll.sendQueue = o.sendQueue := by
      unfold Outbox.resetPoll
      split_ifs <;> rfl
    refine ⟨hhistory ▸ h.1, fun hs => ⟨(h.2 hs).1.resetPoll, fun q hq => ?_⟩⟩
    exact (h.2 hs).2 q (hqueue ▸ hq)
  unfold afterOutput
  dsimp only
  split_ifs
  · exact hreset ((keeps_sound mem).close _ _ h)
  · exact hreset h

theorem socketPollHandler_sound (h : Sound mem s.transport s.state) (available : Flags)
    (event : PollEvent) : Sound mem (s.socketPollHandler mem available event).1.transport
      (s.socketPollHandler mem available event).1.state := by
  have hinput : Sound mem (s.input mem available event).1.transport
      (s.input mem available event).1.state := by
    unfold input
    split_ifs
    · exact (keeps_sound mem).receive h event.received
    · exact h
  show Sound mem (afterInput mem (s.input mem available event).1 event).transport
    (afterInput mem (s.input mem available event).1 event).state
  unfold afterInput
  split_ifs with ho
  · exact afterOutput_sound (output_sound ho.2 hinput event.socket) event
  · exact afterOutput_sound hinput event

end ServerSession

/-! ## Runs of the server -/

namespace Server

inductive Op
  | accept
  | poll (i : ℕ) (event : PollEvent)
  | disconnect (i : ℕ)
  | onUpdate (calls : List ConnectionUpdateSerializer.Call)

variable (inet : InetText) (srv : Server ServerSession.ServerOutbox)

def step : Op → Server ServerSession.ServerOutbox
  | .accept => srv.accept ServerSession.acceptedOutbox
  | .poll i event => srv.modifyClient i fun client =>
      client.socketPollHandler srv.memory srv.availableDataFlags event
  | .disconnect i => srv.modifyClient i fun client => (client.disconnect srv.memory, false)
  | .onUpdate calls => srv.onUpdate inet calls

/-- A call of `onUpdate` is harmless for a client that does not need the last UPDATE_TICK any
more, and no DATA either unless `m_isSendingData` is set. -/
def IsHarmlessFor (client : ServerSession ServerSession.ServerOutbox) : Prop :=
  client.state ≠ .disconnected →
    client.transport.refersTo .updateTick = false ∧
      (srv.availableDataFlags.test EDataFlags.connection = true →
        client.transport.isSendingData = true ∨
          client.transport.refersTo .connections = false ∧
            client.transport.refersTo .connectionUpdates = false)

instance (client : ServerSession ServerSession.ServerOutbox) :
    Decidable (srv.IsHarmlessFor client) := inferInstanceAs (Decidable (_ → _))

/-- The condition on a step. -/
def Op.IsHarmless : Op → Prop
  | .onUpdate _ => ∀ client ∈ srv.clients, srv.IsHarmlessFor client
  | _ => True

instance : ∀ op : Op, Decidable (op.IsHarmless srv)
  | .onUpdate _ => inferInstanceAs (Decidable (∀ client ∈ srv.clients, srv.IsHarmlessFor client))
  | .accept | .poll _ _ | .disconnect _ => inferInstanceAs (Decidable True)

def Sound : Prop :=
  ∀ client ∈ srv.clients, ServerSession.Sound srv.memory client.transport client.state

variable {inet srv}

/-- Which shared messages the collection replaces, and by what. -/
theorem collect_memory {calls : List ConnectionUpdateSerializer.Call} {f g : Bool}
    {available : Bool × Bool} {srv' : Server ServerSession.ServerOutbox}
    (h : srv.collect inet calls f g = (available, srv')) :
    srv'.clients = srv.clients ∧ srv'.memory.replaced = srv.memory.replaced ∧
      (∀ k, (srv.availableDataFlags.test EDataFlags.connection = true →
        k ≠ .connections ∧ k ≠ .connectionUpdates) → srv'.memory.texts k = srv.memory.texts k) ∧
      (available.1 = true → (srv'.memory.texts .connections).msg.type = .data) ∧
        (available.2 = true → (srv'.memory.texts .connectionUpdates).msg.type = .data) := by
  rw [collect] at h
  by_cases ha : srv.availableDataFlags.test EDataFlags.connection = true
  · rw [if_pos ha] at h
    obtain ⟨rfl, rfl⟩ := Prod.mk.inj h
    refine ⟨rfl, rfl, fun k hk => ?_, fun hf => ?_, fun hg => ?_⟩
    · exact (assign_texts (hk ha).1 _).trans (assign_texts (hk ha).2 _)
    · rw [show f = true from hf, assign_msg]
      rfl
    · rw [assign_texts (by decide), assign_msg, takeUpdates,
        if_pos (Bool.and_eq_true_iff.mp hg).1]
      rfl
  · rw [if_neg ha] at h
    obtain ⟨rfl, rfl⟩ := Prod.mk.inj h
    exact ⟨rfl, rfl, fun _ _ => rfl, nofun, nofun⟩

/-- What the first loop leaves of a client is not hit by the assignments. -/
theorem beginClient_sound {client : ServerSession ServerSession.ServerOutbox}
    (hs : client.state ≠ .disconnected)
    (h : ServerSession.Sound srv.memory client.transport client.state)
    (hw : srv.IsHarmlessFor client) :
    (srv.beginClient client).state = client.state ∧
      ServerSession.Sound srv.memory (srv.beginClient client).transport client.state ∧
        (srv.beginClient client).transport.refersTo .updateTick = false ∧
          (srv.availableDataFlags.test EDataFlags.connection = true →
            (srv.beginClient client).transport.refersTo .connections = false ∧
              (srv.beginClient client).transport.refersTo .connectionUpdates = false) := by
  obtain ⟨htick, hdata⟩ := hw hs
  unfold beginClient
  split_ifs with hsend
  · obtain ⟨hf, hd⟩ := h.2 hs
    have hctrl : ∀ k, k = .connections ∨ k = .connectionUpdates →
        (client.stopSendingData srv.memory).transport.refersTo k = false := by
      intro k hk
      by_contra hr
      rw [Bool.not_eq_false] at hr
      obtain ⟨q, hq, hqk, hqd⟩ := Outbox.stopSendingData_refersTo hf hsend hr
      have hc : ¬ServerSession.IsControl q.pointer := by
        intro hc
        cases hp : q.pointer with
        | own msg => rw [hp] at hqk; cases hqk
        | shared k' =>
          rw [hp] at hqk hc
          obtain rfl : k' = k := of_decide_eq_true hqk
          rcases hk with rfl | rfl
          · exact hc.1 rfl
          · exact hc.2 rfl
      exact absurd ((hd q hq hc).symm.trans hqd) (by simp)
    refine ⟨rfl, ServerSession.stopSendingData_sound hs h, ?_, fun _ =>
      ⟨hctrl _ (.inl rfl), hctrl _ (.inr rfl)⟩⟩
    by_contra hr
    rw [Bool.not_eq_false] at hr
    obtain ⟨q, hq, hqk, -⟩ := Outbox.stopSendingData_refersTo hf hsend hr
    exact absurd ((Outbox.refersTo_of_mem hq hqk).symm.trans htick) (by simp)
  · exact ⟨rfl, h, htick, fun ha => (hdata ha).resolve_left hsend⟩

theorem updateClient_sound {available : Bool × Bool}
    {client : ServerSession ServerSession.ServerOutbox}
    (h : ServerSession.Sound srv.memory client.transport client.state)
    (hc : available.1 = true → (srv.memory.texts .connections).msg.type = .data)
    (hu : available.2 = true → (srv.memory.texts .connectionUpdates).msg.type = .data) :
    ServerSession.Sound srv.memory (srv.updateClient available client).transport
      (srv.updateClient available client).state := by
  have hupdate := (ServerSession.keeps_sound srv.memory).onUpdate h
  have hsend : ∀ {k : SharedMsg}, (srv.memory.texts k).msg.type = .data →
      ServerSession.Sound srv.memory ((client.onUpdate srv.memory).sendData srv.memory k).transport
        ((client.onUpdate srv.memory).sendData srv.memory k).state := by
    intro k hk
    refine ServerSession.Keeps.sendData hupdate fun o ho => ?_
    show ServerSession.Sound srv.memory (Outbox.enqueue o srv.memory (.shared k)) _
    exact ho.enqueue (by decide) fun _ => by simp [MsgPointer.msg, hk, ServerSession.isData]
  unfold updateClient
  dsimp only
  split_ifs with hconn hflag hup hav
  · exact hupdate
  · exact hsend (hu (Bool.and_eq_true_iff.mp hup).1)
  · exact hsend (hc hav)
  · exact hupdate
  · exact hupdate

theorem onUpdate_sound (h : srv.Sound) (hw : ∀ client ∈ srv.clients, srv.IsHarmlessFor client)
    (calls : List ConnectionUpdateSerializer.Call) : (srv.onUpdate inet calls).Sound := by
  unfold onUpdate
  generalize hcollect : srv.beginUpdate.collect inet calls (srv.staying.any (requires false))
    (srv.staying.any (requires true)) = r
  obtain ⟨available, srv'⟩ := r
  obtain ⟨hclients, hreplaced, htexts, hc, hu⟩ := collect_memory hcollect
  intro client hclient
  obtain ⟨client', hmem, rfl⟩ := List.mem_map.mp hclient
  rw [hclients] at hmem
  obtain ⟨client, hstay, rfl⟩ := List.mem_map.mp hmem
  obtain ⟨hmem, hs⟩ := List.mem_filter.mp hstay
  obtain ⟨hstate, hsound, htick, hdata⟩ := beginClient_sound (of_decide_eq_true hs)
    (h client hmem) (hw client hmem)
  refine updateClient_sound ?_ hc hu
  rw [hstate]
  obtain ⟨hf, hd⟩ := hsound.2 (of_decide_eq_true hs)
  have hsame : ∀ k, (srv.beginClient client).transport.refersTo k = true →
      srv'.memory.texts k = srv.memory.texts k := by
    intro k hk
    have hne : k ≠ .updateTick := by
      rintro rfl
      exact absurd (htick.symm.trans hk) (by simp)
    refine (htexts k fun ha => ⟨?_, ?_⟩).trans (assign_texts hne _)
    · rintro rfl
      exact absurd ((hdata ha).1.symm.trans hk) (by simp)
    · rintro rfl
      exact absurd ((hdata ha).2.symm.trans hk) (by simp)
  refine .of_faithful (hf.of_memory hreplaced hsame) fun q hq hctrl => ?_
  rw [MsgPointer.msg_congr fun k hk => hsame k (Outbox.refersTo_of_mem hq hk)]
  exact hd q hq hctrl

theorem modifyClient_sound (h : srv.Sound) (i : ℕ)
    {f : ServerSession ServerSession.ServerOutbox → ServerSession ServerSession.ServerOutbox × Bool}
    (hf : ∀ client, ServerSession.Sound srv.memory client.transport client.state →
      ServerSession.Sound srv.memory (f client).1.transport (f client).1.state) :
    (srv.modifyClient i f).Sound := by
  unfold modifyClient
  split
  · rename_i client hclient
    intro client' hmem
    rcases List.mem_or_eq_of_mem_set hmem with hmem | rfl
    · exact h client' hmem
    · exact hf client (h client (List.mem_of_getElem? hclient))
  · exact h

/-- **One step.** -/
theorem step_sound (h : srv.Sound) (op : Op) (hw : op.IsHarmless srv) :
    (srv.step inet op).Sound := by
  cases op with
  | accept =>
    intro client hclient
    rcases List.mem_append.mp hclient with hmem | hmem
    · exact h client hmem
    · obtain rfl := List.mem_singleton.mp hmem
      exact ServerSession.accept_sound srv.memory
  | poll i event =>
    exact modifyClient_sound h i fun client hc => ServerSession.socketPollHandler_sound hc _ event
  | disconnect i =>
    exact modifyClient_sound h i fun client hc =>
      (ServerSession.keeps_sound srv.memory).disconnect hc
  | onUpdate calls => exact onUpdate_sound h hw calls

theorem init_sound (info : PeerInfo) (replaced : SharedMsg → ℕ → List Char)
    (hasCollector : Bool) : (init info replaced hasCollector : Server _).Sound :=
  fun _ h => absurd h List.not_mem_nil

end Server

end Conntop
