import Conntop.Fidelity
import Conntop.Lib.GuardedRun

/-!
# Whole messages

`StreamSocketWriter` by itself: any sequence of `send`, `sendShared`, `stop` and `doSend`, with a
socket that takes any part of what it is offered, while the shared messages are assigned to.

* `Transfer` is a writer, the shared messages, and the record of what went through: the texts of the
  messages that it accepted and did not discard, as they were then, and the bytes that were written.
* `IsFree`: a shared message is not assigned to while the writer refers to it.
* `Transfer.Inv`: the written bytes and those that are left in the writer are the accepted texts,
  and what is left is the end of the last of them.

Main result: `transfer_whole`.
-/

namespace Conntop

section

variable {κ E : Type} [Inhabited E]

namespace StreamSocketWriter

variable {w : StreamSocketWriter κ E} {mem : SharedMemory κ E}

/-- `send` with its result, which tells if the message is accepted. -/
def offer (w : StreamSocketWriter κ E) (msg : SerializedMessage E) :
    Bool × StreamSocketWriter κ E :=
  if w.isSending then (false, w) else (true, w.send msg)

/-- `sendShared` with its result. -/
def offerShared (w : StreamSocketWriter κ E) (mem : SharedMemory κ E) (k : κ) :
    Bool × StreamSocketWriter κ E :=
  if w.isSending then (false, w) else (true, w.sendShared mem k)

end StreamSocketWriter

inductive WriterCall (κ E : Type) [Inhabited E]
  | send (msg : SerializedMessage E)
  | sendShared (k : κ)
  | stop
  | doSend (socket : Socket)
  | assign (k : κ) (msg : SerializedMessage E)

structure Transfer (κ E : Type) [Inhabited E] where
  mem : SharedMemory κ E
  writer : StreamSocketWriter κ E := {}
  accepted : List (List Char) := []
  written : List Char := []

namespace Transfer

/-- The record of a message when it was offered. -/
def accept (t : Transfer κ E) (text : List Char) (r : Bool × StreamSocketWriter κ E) :
    Transfer κ E :=
  { t with writer := r.2, accepted := if r.1 then t.accepted ++ [text] else t.accepted }

def step [DecidableEq κ] (t : Transfer κ E) : WriterCall κ E → Transfer κ E
  | .send msg => t.accept msg.text (t.writer.offer msg)
  | .sendShared k => t.accept (t.mem.texts k).msg.text (t.writer.offerShared t.mem k)
  | .stop => { t with
      writer := (t.writer.stop t.mem).2
      -- a message that the writer held before and not after was discarded
      accepted := if t.writer.isSending && !(t.writer.stop t.mem).2.isSending then
        t.accepted.dropLast else t.accepted }
  | .doSend socket => { t with
      writer := (t.writer.doSend t.mem socket).2.1
      written := t.written ++ (t.writer.doSend t.mem socket).2.2.2 }
  | .assign k msg => { t with mem := t.mem.assign k msg }

/-- The writer does not refer to a message that is assigned to. -/
def IsFree [DecidableEq κ] (t : Transfer κ E) : WriterCall κ E → Prop
  | .assign k _ => t.writer.refersTo k = false
  | _ => True

instance [DecidableEq κ] (t : Transfer κ E) : DecidablePred t.IsFree
  | .assign .. => inferInstanceAs (Decidable (_ = _))
  | .send _ | .sendShared _ | .stop | .doSend _ => inferInstanceAs (Decidable True)

/-- What is left in the writer is the end of the message that it accepted last. -/
structure Sending (t : Transfer κ E) (done : List (List Char)) (m p : List Char) : Prop where
  accepted : t.accepted = done ++ [m]
  written : t.written = done.flatten ++ p
  message : p ++ t.writer.pending t.mem = m
  length : (t.writer.rest t.mem).length = t.writer.dataLength - t.writer.dataPos
  left : t.writer.dataPos < t.writer.dataLength ∨ m = [] ∧ t.writer.dataPos = 0
  begun : t.writer.msgType ≠ .buffered → t.writer.dataPos = 0 → p = []

structure Inv (t : Transfer κ E) : Prop where
  wf : t.writer.Wf
  idle : t.writer.isSending = false → t.written = t.accepted.flatten
  sending : t.writer.isSending = true → ∃ done m p, t.Sending done m p

variable {t : Transfer κ E}

theorem Inv.init (mem : SharedMemory κ E) : Inv { mem := mem : Transfer κ E } where
  wf := trivial
  idle _ := rfl
  sending h := by cases h

/-- A message is begun by an idle writer. -/
theorem Inv.start (hi : t.Inv) (hs : t.writer.isSending = false) (m : MsgPointer κ E) :
    Inv { t with
      writer := t.writer.start t.mem m
      accepted := t.accepted ++ [(m.msg t.mem).text] } := by
  obtain ⟨hpending, hwf, hpos⟩ := StreamSocketWriter.start_pending t.mem hs m
  obtain ⟨hsending, hleft⟩ := StreamSocketWriter.left_start t.mem hs m
  rw [StreamSocketWriter.left_of_sending hsending, hpos, Nat.sub_zero] at hleft
  refine ⟨hwf, fun h => ?_, fun _ => ⟨t.accepted, (m.msg t.mem).text, [], ?_⟩⟩
  · exact absurd (hsending.symm.trans h) (by simp)
  · refine ⟨rfl, ?_, ?_, ?_, ?_, fun _ _ => rfl⟩
    · rw [List.append_nil]
      exact hi.idle hs
    · exact hpending
    · show ((t.writer.start t.mem m).rest t.mem).length =
        (t.writer.start t.mem m).dataLength - (t.writer.start t.mem m).dataPos
      rw [← StreamSocketWriter.pending_of_sending hsending, hpending, hleft, hpos, Nat.sub_zero]
    · show (t.writer.start t.mem m).dataPos < (t.writer.start t.mem m).dataLength ∨
        _ ∧ (t.writer.start t.mem m).dataPos = 0
      rw [hpos, hleft]
      rcases Nat.eq_zero_or_pos (m.msg t.mem).text.length with h | h
      · exact Or.inr ⟨List.length_eq_zero_iff.mp h, rfl⟩
      · exact Or.inl h

/-- An offered message is accepted by an idle writer. -/
theorem Inv.accept (hi : t.Inv) (m : MsgPointer κ E) {r : Bool × StreamSocketWriter κ E}
    (hr : r = if t.writer.isSending then (false, t.writer) else (true, t.writer.start t.mem m)) :
    (t.accept (m.msg t.mem).text r).Inv := by
  cases hs : t.writer.isSending with
  | false =>
    rw [hs, if_neg Bool.false_ne_true] at hr
    rw [hr]
    exact hi.start hs m
  | true =>
    rw [hs, if_pos rfl] at hr
    rw [hr]
    exact hi

/-- `stop` returns true exactly when the writer is idle afterwards. -/
theorem stop_fst_iff (w : StreamSocketWriter κ E) (mem : SharedMemory κ E) :
    (w.stop mem).1 = true ↔ (w.stop mem).2.isSending = false := by
  unfold StreamSocketWriter.stop StreamSocketWriter.isSending
  cases hm : w.msgType with
  | none => simp [hm]
  | own => by_cases h0 : w.dataPos = 0 <;> simp [h0, hm]
  | shared => by_cases h0 : w.dataPos = 0 <;> simp [h0]
  | buffered => simp [hm]

/-- A message of which something was written stays, from its position on. -/
theorem Sending.stop {done : List (List Char)} {m p : List Char} (h : t.Sending done m p)
    (hwf : t.writer.Wf) (hs : t.writer.isSending = true)
    (hstop : (t.writer.stop t.mem).1 = false) :
    Sending { t with writer := (t.writer.stop t.mem).2 } done m p := by
  obtain ⟨hpending, -, -⟩ : (t.writer.stop t.mem).2.pending t.mem = t.writer.pending t.mem ∧
      (t.writer.stop t.mem).2.Wf ∧ (t.writer.stop t.mem).2.msgType ≠ .shared := by
    rcases StreamSocketWriter.stop_pending t.mem hwf hs with ⟨h1, -⟩ | ⟨-, h2, h3, h4, -⟩
    · exact absurd (hstop.symm.trans h1) (by simp)
    · exact ⟨h2, h3, h4⟩
  cases hm : t.writer.msgType with
  | none => simp [StreamSocketWriter.stop, hm] at hstop
  | own =>
    have hsame : (t.writer.stop t.mem).2 = t.writer := by
      by_cases h0 : t.writer.dataPos = 0
      · simp [StreamSocketWriter.stop, hm, h0] at hstop
      · simp [StreamSocketWriter.stop, hm, h0]
    rw [hsame]
    exact h
  | buffered =>
    have hsame : (t.writer.stop t.mem).2 = t.writer := by simp [StreamSocketWriter.stop, hm]
    rw [hsame]
    exact h
  | shared =>
    by_cases h0 : t.writer.dataPos = 0
    · simp [StreamSocketWriter.stop, hm, h0] at hstop
    · -- the bytes that are left were copied, and the position is in the copy
      have hcopy : (t.writer.stop t.mem).2 = { t.writer with
          buffer := t.writer.rest t.mem
          data := .buffer
          dataLength := (t.writer.rest t.mem).length
          dataPos := 0
          msgType := .buffered } := by simp [StreamSocketWriter.stop, hm, h0]
      refine ⟨h.accepted, h.written, ?_, ?_, ?_, ?_⟩
      · show p ++ (t.writer.stop t.mem).2.pending t.mem = m
        rw [hpending, h.message]
      · rw [hcopy]
        simp [StreamSocketWriter.rest, StreamSocketWriter.target]
      · rw [hcopy]
        have hlength := h.length
        rcases h.left with hlt | ⟨-, hzero⟩
        · exact Or.inl (by show 0 < (t.writer.rest t.mem).length; omega)
        · exact absurd hzero h0
      · rw [hcopy]
        exact fun hb => absurd rfl hb

theorem Inv.stop [DecidableEq κ] (hi : t.Inv) : (t.step .stop).Inv := by
  cases hs : t.writer.isSending with
  | false =>
    have hn : t.writer.msgType = .none := by simpa [StreamSocketWriter.isSending] using hs
    have hstop : t.step .stop = t := by
      simp [step, StreamSocketWriter.stop, hn, hs]
    rwa [hstop]
  | true =>
    obtain ⟨done, m, p, h⟩ := hi.sending hs
    rcases StreamSocketWriter.stop_pending t.mem hi.wf hs with ⟨h1, h2, h3, h4⟩ | ⟨h1, -, h2, -⟩
    · have hstop : t.step .stop = { t with
          writer := (t.writer.stop t.mem).2, accepted := t.accepted.dropLast } := by
        simp [step, hs, h4]
      rw [hstop]
      refine ⟨StreamSocketWriter.wf_of_idle h4, fun _ => ?_, fun hs' => ?_⟩
      · show t.written = t.accepted.dropLast.flatten
        rw [h.accepted, List.dropLast_concat, h.written, h.begun h2 h3, List.append_nil]
      · exact absurd (h4.symm.trans hs') (by simp)
    · have hsending : (t.writer.stop t.mem).2.isSending = true := by
        have := (stop_fst_iff t.writer t.mem).not.mp (by simp [h1])
        simpa using this
      have hstop : t.step .stop = { t with writer := (t.writer.stop t.mem).2 } := by
        simp [step, hsending]
      rw [hstop]
      refine ⟨h2, fun hidle => ?_, fun _ => ⟨done, m, p, h.stop hi.wf hs h1⟩⟩
      exact absurd (hsending.symm.trans hidle) (by simp)

/-- The socket takes a part of what is left, or all of it. -/
theorem Inv.doSend [DecidableEq κ] (hi : t.Inv) (socket : Socket) :
    (t.step (.doSend socket)).Inv := by
  obtain ⟨hpending, hwf, -⟩ := StreamSocketWriter.doSend_pending t.mem socket hi.wf
  show Inv { t with
    writer := (t.writer.doSend t.mem socket).2.1
    written := t.written ++ (t.writer.doSend t.mem socket).2.2.2 }
  rcases StreamSocketWriter.doSend_cases t.writer t.mem socket with ⟨hs, he⟩ | ⟨hs, -, he⟩ |
    ⟨hs, hd, he⟩ | ⟨hs, hd, -, he⟩
  · -- nothing to send, or nothing that the socket takes
    rw [he, List.append_nil]
    exact hi
  · rw [he, List.append_nil]
    exact hi
  · -- the rest of the message fits
    obtain ⟨done, m, p, h⟩ := hi.sending hs
    rw [he] at hpending ⊢
    rw [StreamSocketWriter.pending_of_idle rfl, List.append_nil] at hpending
    refine ⟨trivial, fun _ => ?_, fun hs' => by cases hs'⟩
    show t.written ++ _ = t.accepted.flatten
    rw [hpending, h.written, h.accepted, List.append_assoc, h.message]
    simp
  · -- the socket takes a part of it, and the written prefix grows
    obtain ⟨done, m, p, h⟩ := hi.sending hs
    rw [he] at hpending hwf ⊢
    refine ⟨hwf, fun hidle => ?_, fun _ => ⟨done, m, p ++ (t.writer.rest t.mem).take
      (min socket.space (t.writer.dataLength - t.writer.dataPos)), ?_⟩⟩
    · exact absurd (hs.symm.trans hidle) (by simp)
    · refine ⟨h.accepted, ?_, ?_, ?_, Or.inl hd, ?_⟩
      · rw [h.written, List.append_assoc]
      · rw [List.append_assoc, hpending, h.message]
      · show ((t.writer.advance _).rest t.mem).length = t.writer.dataLength - (t.writer.dataPos + _)
        rw [StreamSocketWriter.rest_advance, List.length_drop, h.length]
        omega
      · intro hb h0
        have hz : t.writer.dataPos +
          min socket.space (t.writer.dataLength - t.writer.dataPos) = 0 := h0
        rw [h.begun hb (by omega), show min socket.space
          (t.writer.dataLength - t.writer.dataPos) = 0 by omega]
        rfl

/-- An assignment to a message that the writer does not refer to. -/
theorem Inv.assign [DecidableEq κ] (hi : t.Inv) {k : κ} (hk : t.writer.refersTo k = false)
    (msg : SerializedMessage E) : (t.step (.assign k msg)).Inv := by
  have hpending : t.writer.pending (t.mem.assign k msg) = t.writer.pending t.mem := by
    refine StreamSocketWriter.pending_congr hi.wf rfl fun k' hk' => ?_
    refine Function.update_of_ne (fun h => ?_) _ _
    rw [h, hk] at hk'
    cases hk'
  refine ⟨hi.wf, hi.idle, fun hs => ?_⟩
  change t.writer.isSending = true at hs
  obtain ⟨done, m, p, h⟩ := hi.sending hs
  refine ⟨done, m, p, h.accepted, h.written, ?_, ?_, h.left, h.begun⟩
  · exact (congrArg (p ++ ·) hpending).trans h.message
  · rw [StreamSocketWriter.pending_of_sending hs, StreamSocketWriter.pending_of_sending hs]
      at hpending
    exact (congrArg List.length hpending).trans h.length

theorem Inv.step [DecidableEq κ] (hi : t.Inv) (call : WriterCall κ E) (hfree : t.IsFree call) :
    (t.step call).Inv := by
  cases call with
  | send msg => exact hi.accept (.own msg) rfl
  | sendShared k => exact hi.accept (.shared k) rfl
  | stop => exact hi.stop
  | doSend socket => exact hi.doSend socket
  | assign k msg => exact hi.assign hfree msg

def run [DecidableEq κ] (mem : SharedMemory κ E) (calls : List (WriterCall κ E)) : Transfer κ E :=
  calls.foldl step { mem := mem }

/-- The bytes are complete messages, and a proper prefix of the message that is being sent. -/
def IsWhole (t : Transfer κ E) : Prop :=
  ∃ (done : List (List Char)) (current : Option (List Char)) (p : List Char),
    t.accepted = done ++ current.toList ∧ t.written = done.flatten ++ p ∧
      (current = none → p = []) ∧
      ∀ m, current = some m → t.writer.isSending = true ∧ p <+: m ∧ p ≠ m

theorem Inv.isWhole (hi : t.Inv) : t.IsWhole := by
  cases hs : t.writer.isSending with
  | false =>
    refine ⟨t.accepted, none, [], (List.append_nil _).symm, ?_, fun _ => rfl, fun m hm => by
      cases hm⟩
    rw [List.append_nil, hi.idle hs]
  | true =>
    obtain ⟨done, m, p, h⟩ := hi.sending hs
    rcases h.left with hlt | ⟨rfl, -⟩
    · refine ⟨done, some m, p, h.accepted, h.written, nofun, fun m' hm' => ?_⟩
      obtain rfl := Option.some.inj hm'
      refine ⟨hs, ⟨_, h.message⟩, fun hp => ?_⟩
      have hmessage := congrArg List.length h.message
      have hlength := h.length
      rw [StreamSocketWriter.pending_of_sending hs, List.length_append, hp] at hmessage
      omega
    · -- an empty message is complete when it is accepted
      obtain ⟨rfl, -⟩ := List.append_eq_nil_iff.mp h.message
      refine ⟨done ++ [[]], none, [], by simp [h.accepted], ?_, fun _ => rfl, nofun⟩
      rw [h.written]
      simp

/-- What `send` and `sendShared` must do: a message is accepted exactly by an idle writer, which
then has all of it to send. -/
structure Offers (t : Transfer κ E) (text : List Char) (r : Bool × StreamSocketWriter κ E) :
    Prop where
  accepted : r.1 = true ↔ t.writer.isSending = false
  whole : r.1 = true → r.2.isSending = true ∧ r.2.pending t.mem = text
  same : r.1 = false → r.2 = t.writer

theorem offers (t : Transfer κ E) (m : MsgPointer κ E) : t.Offers (m.msg t.mem).text
    (if t.writer.isSending then (false, t.writer) else (true, t.writer.start t.mem m)) := by
  cases hs : t.writer.isSending with
  | false =>
    rw [if_neg Bool.false_ne_true]
    have hstart := (StreamSocketWriter.start_pending t.mem hs m).1
    exact ⟨iff_of_true rfl hs, fun _ => ⟨(StreamSocketWriter.left_start t.mem hs m).1, hstart⟩,
      nofun⟩
  | true =>
    rw [if_pos rfl]
    exact ⟨by simp [hs], nofun, fun _ => rfl⟩

/-- What `stop` must do: its result tells if the writer is idle afterwards, a message is discarded
only when the written bytes end before it, and otherwise the same bytes are left. -/
structure Stops (t : Transfer κ E) (r : Bool × StreamSocketWriter κ E) : Prop where
  result : r.1 = true ↔ r.2.isSending = false
  discarded : t.writer.isSending = true → r.2.isSending = false →
    ∃ done m, t.accepted = done ++ [m] ∧ t.written = done.flatten
  kept : r.2.isSending = true → r.2.pending t.mem = t.writer.pending t.mem

theorem Inv.stops (hi : t.Inv) : t.Stops (t.writer.stop t.mem) := by
  refine ⟨stop_fst_iff t.writer t.mem, fun hs hidle => ?_, fun hsending => ?_⟩
  · obtain ⟨done, m, p, h⟩ := hi.sending hs
    rcases StreamSocketWriter.stop_pending t.mem hi.wf hs with ⟨-, h2, h3, -⟩ | ⟨h1, -⟩
    · refine ⟨done, m, h.accepted, ?_⟩
      rw [h.written, h.begun h2 h3, List.append_nil]
    · rw [(stop_fst_iff t.writer t.mem).mpr hidle] at h1
      cases h1
  · have hs := Outbox.isSending_stop t.writer t.mem hsending
    rcases StreamSocketWriter.stop_pending t.mem hi.wf hs with ⟨-, -, -, h4⟩ | ⟨-, h2, -⟩
    · exact absurd (h4.symm.trans hsending) (by simp)
    · exact h2

/-- **The writer keeps messages whole.** In every run in which no shared message is assigned to
while the writer refers to it, the written bytes are the texts of the accepted messages, as they
were when they were accepted, up to a proper prefix of the last one, and `send`, `sendShared` and
`stop` do what they must. -/
theorem transfer_whole [DecidableEq κ] (mem : SharedMemory κ E) (calls : List (WriterCall κ E))
    (hfree : ∀ i (hi : i < calls.length), (run mem (calls.take i)).IsFree calls[i]) :
    let t := run mem calls
    t.IsWhole ∧ (∀ msg, t.Offers msg.text (t.writer.offer msg)) ∧
      (∀ k, t.Offers (t.mem.texts k).msg.text (t.writer.offerShared t.mem k)) ∧
      t.Stops (t.writer.stop t.mem) := by
  intro t
  have hi : t.Inv := GuardedRun.foldl_inv_of_meets (f := step) (I := Inv) (C := IsFree)
    (fun t call hi hfree => hi.step call hfree) calls _ (Inv.init mem) hfree
  exact ⟨hi.isWhole, fun msg => t.offers (.own msg), fun k => t.offers (.shared k), hi.stops⟩

private def tickMemory : ServerMemory where
  texts
    | .updateTick => { msg := ClientServerProtocol.createServerMsgUpdateTick 7 }
    | _ => {}
  replaced _ _ := []

/-- A shared message is stopped after three bytes, and then it is replaced. -/
def replacedTick : List (WriterCall SharedMsg EServerMsg) :=
  [.sendShared .updateTick, .doSend { space := 3 }, .stop,
    .assign .updateTick (ClientServerProtocol.createServerMsgUpdateTick 8),
    .doSend { space := 100 }]

set_option maxRecDepth 4000 in
/-- The message goes out as it was. -/
theorem replacedTick_whole : (run tickMemory replacedTick).IsWhole ∧
    (run tickMemory replacedTick).written =
      (ClientServerProtocol.createServerMsgUpdateTick 7).text :=
  ⟨(transfer_whole tickMemory replacedTick (by decide)).1, by decide⟩

end Transfer

end

end Conntop
