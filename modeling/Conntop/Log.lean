import Mathlib.Data.Int.Notation
import Mathlib.Data.List.Basic

/-!
# `Log`

A log line is built in a `CharBuffer` of 2048 bytes. A line that does not fit there is built again
in a buffer of the heap. A `char` is a `Char` here.

* `vsnprintf` is outside the source: a format takes a number of arguments (`Format`), and the cursor
  of a `va_list` is what is left of them. Arguments that are not there are a fault.
* `HeapBuffer` has the bytes written so far, in a buffer of a given size. Behind its end is a fault.
* The times in a line are built in buffers of 32 and 256 bytes (`Clock`).

Main result: `logV_eq_line_iff`, the lines that are right.
-/

namespace Conntop

/-- What must not happen. -/
inductive Fault
  | arguments
  | room
  deriving DecidableEq, Repr

/-! ## Formats -/

def INT_MAX : ℕ := 2147483647

/-- A format with the number of the arguments that it takes, and its text for them. -/
structure Format (α : Type) where
  arity : ℕ
  text : List α → List Char

/-- What a call of `vsnprintf` returns and writes, without the terminating null byte, and where it
leaves the cursor. -/
structure Printed (α : Type) where
  status : ℤ
  written : List Char
  formatted : List α
  args : List α

def vsnprintf {α : Type} (size : ℕ) (format : Format α) (args : List α) :
    Except Fault (Printed α) :=
  if format.arity ≤ args.length then
    let formatted := args.take format.arity
    let text := format.text formatted
    .ok
      { status := if text.length ≤ INT_MAX then text.length else -1
        written := text.take (size - 1)
        formatted
        args := args.drop format.arity }
  else .error .arguments

/-! ## `CharBuffer` -/

/-- The characters in front of `m_pos`. There is always room for the null byte. -/
structure CharBuffer (Size : ℕ) where
  data : List Char
  lt : data.length < Size
  deriving DecidableEq

namespace CharBuffer

variable {Size : ℕ} (b : CharBuffer Size)

def empty : CharBuffer (Size + 1) := ⟨[], Nat.succ_pos _⟩

def getDataLength : ℕ := b.data.length

def getAvailableLength : ℕ := Size - b.data.length - 1

theorem length_append_take_lt (s : List Char) {n : ℕ} (hn : n ≤ b.getAvailableLength) :
    (b.data ++ s.take n).length < Size := by
  have hlt := b.lt
  unfold getAvailableLength at hn
  rw [List.length_append, List.length_take]
  omega

def appendChar (c : Char) : CharBuffer Size :=
  if h : 0 < b.getAvailableLength then
    ⟨b.data ++ [c].take 1, b.length_append_take_lt [c] (Nat.succ_le_of_lt h)⟩
  else b

def append (s : List Char) : CharBuffer Size :=
  ⟨b.data ++ s.take (min s.length b.getAvailableLength),
    b.length_append_take_lt s (Nat.min_le_right _ _)⟩

variable {b}

theorem append_data {s : List Char} (h : b.data.length + s.length < Size) :
    (b.append s).data = b.data ++ s := by
  show b.data ++ s.take (min s.length (Size - b.data.length - 1)) = _
  rw [List.take_of_length_le (by omega)]

theorem appendChar_data {c : Char} (h : b.data.length + 1 < Size) :
    (b.appendChar c).data = b.data ++ [c] := by
  unfold appendChar getAvailableLength
  rw [dif_pos (by omega)]
  rfl

variable (b)

/-- `append_vf`, with what `vsnprintf` says. -/
def appendVf {α : Type} (format : Format α) (args : List α) :
    Except Fault (CharBuffer Size × Printed α) :=
  match vsnprintf (Size - b.getDataLength) format args with
  | .error e => .error e
  | .ok p =>
    if 0 < p.status then
      .ok (⟨b.data ++ p.written.take (min p.status.toNat b.getAvailableLength),
        b.length_append_take_lt _ (Nat.min_le_right _ _)⟩, p)
    else .ok (b, p)

end CharBuffer

/-! ## The heap buffer -/

/-- The bytes in front of `pos`, in a buffer of `totalLength` bytes. -/
structure HeapBuffer where
  totalLength : ℕ
  data : List Char := []
  deriving DecidableEq

namespace HeapBuffer

variable (b : HeapBuffer)

def put (s : List Char) : Except Fault HeapBuffer :=
  if b.data.length + s.length ≤ b.totalLength then .ok { b with data := b.data ++ s }
  else .error .room

def putSuffix (colorSuffix : List Char) : Except Fault HeapBuffer :=
  if colorSuffix.isEmpty then .ok b else b.put colorSuffix

/-- `vsnprintf` writes the null byte too, which is not kept. -/
def print {α : Type} (contentLength : ℕ) (format : Format α) (args : List α) :
    Except Fault (HeapBuffer × Printed α) := do
  let p ← vsnprintf (contentLength + 1) format args
  let _ ← b.put (p.written ++ ['\x00'])
  if 0 < p.status then
    let b ← b.put (p.written.take (min p.status.toNat contentLength))
    return (b, p)
  else return (b, p)

end HeapBuffer

/-! ## The class -/

namespace Log

inductive EType
  | always
  | error
  | warning
  | notice
  | info
  | debug
  deriving DecidableEq, Repr

inductive EVerbosity
  | disabled
  | low
  | normal
  | high
  | debug
  deriving DecidableEq, Repr

inductive EStyle
  | simple
  | printk
  | timestamp
  | datetimeUtc
  | datetimeLocal
  deriving DecidableEq, Repr

def EType.ofInt : ℤ → Option EType
  | 0 => some .always
  | 1 => some .error
  | 2 => some .warning
  | 3 => some .notice
  | 4 => some .info
  | 5 => some .debug
  | _ => none

def EType.toInt : EType → ℤ
  | .always => 0
  | .error => 1
  | .warning => 2
  | .notice => 3
  | .info => 4
  | .debug => 5

theorem EType.ofInt_toInt (t : EType) : EType.ofInt t.toInt = some t := by cases t <;> rfl

def EVerbosity.toNat : EVerbosity → ℕ
  | .disabled => 0
  | .low => 1
  | .normal => 2
  | .high => 3
  | .debug => 4

def prefixTableSimple : EType → List Char
  | .always => []
  | .error => "[ERROR] ".toList
  | .warning => "[WARNING] ".toList
  | .notice => "[NOTICE] ".toList
  | .info => "[INFO] ".toList
  | .debug => "[DBG] ".toList

def prefixTablePrintk : EType → List Char
  | .always => "<6>".toList
  | .error => "<3>".toList
  | .warning => "<4>".toList
  | .notice => "<5>".toList
  | .info => "<6>".toList
  | .debug => "<7>".toList

def colorPrefixTable : EType → List Char
  | .always => []
  | .error => "\x1b[1;31m".toList
  | .warning => "\x1b[1;33m".toList
  | .notice => "\x1b[1;35m".toList
  | .info => []
  | .debug => "\x1b[32m".toList

def colorSuffixTable : EType → List Char
  | .always => []
  | .error => "\x1b[0m".toList
  | .warning => "\x1b[0m".toList
  | .notice => "\x1b[0m".toList
  | .info => []
  | .debug => "\x1b[0m".toList

end Log

/-- The times that the platform gives, as text. -/
structure Clock where
  unixTime : CharBuffer 32
  dateTimeUtc : CharBuffer 256
  dateTimeLocal : CharBuffer 256

structure Log where
  verbosity : Log.EVerbosity
  style : Log.EStyle
  isColorizeEnabled : Bool
  deriving DecidableEq, Repr

/-- What is written, and the arguments that each `vsnprintf` formatted. -/
structure Logged (α : Type) where
  line : List Char
  formatted : List (List α)
  deriving DecidableEq

namespace Log

variable {α : Type} (log : Log) (clock : Clock)

def isMsgEnabled : EType → Bool
  | .always | .error | .warning => EVerbosity.low.toNat ≤ log.verbosity.toNat
  | .notice => EVerbosity.normal.toNat ≤ log.verbosity.toNat
  | .info => EVerbosity.high.toNat ≤ log.verbosity.toNat
  | .debug => EVerbosity.debug.toNat ≤ log.verbosity.toNat

def colorSuffix (msgType : EType) : List Char :=
  if log.isColorizeEnabled then colorSuffixTable msgType else []

/-- A time in brackets, and the simple text. -/
def appendTime (msg : CharBuffer 2048) (time : List Char) (msgType : EType) : CharBuffer 2048 :=
  ((((msg.appendChar '[').append time).appendChar ']').appendChar ' ').append
    (prefixTableSimple msgType)

/-- The message up to its content. -/
def start (msgType : EType) : CharBuffer 2048 :=
  let msg : CharBuffer 2048 := .empty
  let msg := if log.isColorizeEnabled then msg.append (colorPrefixTable msgType) else msg
  match log.style with
  | .simple => msg.append (prefixTableSimple msgType)
  | .printk => msg.append (prefixTablePrintk msgType)
  | .timestamp => appendTime msg clock.unixTime.data msgType
  | .datetimeUtc => appendTime msg clock.dateTimeUtc.data msgType
  | .datetimeLocal => appendTime msg clock.dateTimeLocal.data msgType

/-- The message that is too long for the stack buffer. -/
def logHeap (start colorSuffix : List Char) (status : ℤ) (format : Format α) (args : List α) :
    Except Fault (List Char × Printed α) := do
  let contentLength := if 0 < status then status.toNat else 0
  let suffixLength := colorSuffix.length + 1
  let buffer : HeapBuffer := { totalLength := start.length + contentLength + suffixLength + 1 }
  let buffer ← buffer.put start
  let (buffer, p) ← buffer.print contentLength format args
  let buffer ← buffer.putSuffix colorSuffix
  let buffer ← buffer.put ['\n']
  let _ ← buffer.put ['\x00']
  return (buffer.data, p)

/-- `logV`, `none` where the message is dropped. -/
def logV (msgType : ℤ) (format : Format α) (args : List α) : Except Fault (Option (Logged α)) :=
  match EType.ofInt msgType with
  | none => .ok none
  | some msgType =>
    if log.isMsgEnabled msgType then do
      let msg := log.start clock msgType
      let colorSuffix := log.colorSuffix msgType
      let suffixLength := colorSuffix.length + 1
      let (content, p) ← msg.appendVf format args
      if content.getAvailableLength < suffixLength then
        let (line, p') ← logHeap msg.data colorSuffix p.status format p.args
        return some { line, formatted := [p.formatted, p'.formatted] }
      else
        return some
          { line := ((content.append colorSuffix).appendChar '\n').data
            formatted := [p.formatted] }
    else return none

/-! ## The line -/

/-- What stands in front of the text. -/
def lineStart (msgType : EType) : List Char :=
  (if log.isColorizeEnabled then colorPrefixTable msgType else []) ++
    match log.style with
    | .simple => prefixTableSimple msgType
    | .printk => prefixTablePrintk msgType
    | .timestamp => '[' :: clock.unixTime.data ++ [']', ' '] ++ prefixTableSimple msgType
    | .datetimeUtc => '[' :: clock.dateTimeUtc.data ++ [']', ' '] ++ prefixTableSimple msgType
    | .datetimeLocal => '[' :: clock.dateTimeLocal.data ++ [']', ' '] ++ prefixTableSimple msgType

def line (msgType : EType) (text : List Char) : List Char :=
  log.lineStart clock msgType ++ text ++ log.colorSuffix msgType ++ ['\n']

variable {log clock} {t : EType} {format : Format α} {args : List α}

theorem length_prefixTableSimple_le (t : EType) : (prefixTableSimple t).length ≤ 10 := by
  cases t <;> decide

theorem length_prefixTablePrintk (t : EType) : (prefixTablePrintk t).length = 3 := by
  cases t <;> rfl

theorem length_colorPrefixTable_le (t : EType) : (colorPrefixTable t).length ≤ 7 := by
  cases t <;> decide

theorem length_colorSuffix_le (log : Log) (t : EType) : (log.colorSuffix t).length ≤ 4 := by
  unfold colorSuffix
  split_ifs
  · cases t <;> decide
  · exact Nat.zero_le _

theorem appendTime_data {msg : CharBuffer 2048} {time : List Char} (hmsg : msg.data.length ≤ 7)
    (htime : time.length < 256) (t : EType) :
    (appendTime msg time t).data =
      msg.data ++ ('[' :: time ++ [']', ' '] ++ prefixTableSimple t) := by
  have hsimple := length_prefixTableSimple_le t
  unfold appendTime
  have h1 : (msg.appendChar '[').data = msg.data ++ ['['] := CharBuffer.appendChar_data (by omega)
  have h2 : ((msg.appendChar '[').append time).data = msg.data ++ ['['] ++ time := by
    rw [CharBuffer.append_data (by simp [h1]; omega), h1]
  have h3 : (((msg.appendChar '[').append time).appendChar ']').data =
      msg.data ++ ['['] ++ time ++ [']'] := by
    rw [CharBuffer.appendChar_data (by simp [h2]; omega), h2]
  have h4 : ((((msg.appendChar '[').append time).appendChar ']').appendChar ' ').data =
      msg.data ++ ['['] ++ time ++ [']'] ++ [' '] := by
    rw [CharBuffer.appendChar_data (by simp [h3]; omega), h3]
  rw [CharBuffer.append_data (by simp [h4]; omega), h4]
  simp

theorem start_data (log : Log) (clock : Clock) (t : EType) :
    (log.start clock t).data = log.lineStart clock t := by
  have hcolor := length_colorPrefixTable_le t
  have hsimple := length_prefixTableSimple_le t
  have hprintk := length_prefixTablePrintk t
  have hunix := clock.unixTime.lt
  have hutc := clock.dateTimeUtc.lt
  have hlocal := clock.dateTimeLocal.lt
  have hmsg : ∀ msg : CharBuffer 2048, msg.data.length ≤ 7 →
      (match log.style with
      | .simple => msg.append (prefixTableSimple t)
      | .printk => msg.append (prefixTablePrintk t)
      | .timestamp => appendTime msg clock.unixTime.data t
      | .datetimeUtc => appendTime msg clock.dateTimeUtc.data t
      | .datetimeLocal => appendTime msg clock.dateTimeLocal.data t).data = msg.data ++
      match log.style with
      | .simple => prefixTableSimple t
      | .printk => prefixTablePrintk t
      | .timestamp => '[' :: clock.unixTime.data ++ [']', ' '] ++ prefixTableSimple t
      | .datetimeUtc => '[' :: clock.dateTimeUtc.data ++ [']', ' '] ++ prefixTableSimple t
      | .datetimeLocal => '[' :: clock.dateTimeLocal.data ++ [']', ' '] ++ prefixTableSimple t := by
    intro msg hmsg
    cases log.style with
    | simple => exact CharBuffer.append_data (by omega)
    | printk => exact CharBuffer.append_data (by omega)
    | timestamp => exact appendTime_data hmsg (by omega) t
    | datetimeUtc => exact appendTime_data hmsg hutc t
    | datetimeLocal => exact appendTime_data hmsg hlocal t
  unfold start lineStart
  cases log.isColorizeEnabled with
  | false => exact hmsg .empty (Nat.zero_le _)
  | true =>
    have hdata : ((.empty : CharBuffer 2048).append (colorPrefixTable t)).data =
        colorPrefixTable t := CharBuffer.append_data (by simp [CharBuffer.empty]; omega)
    have h := hmsg (CharBuffer.append .empty (colorPrefixTable t)) (by rw [hdata]; exact hcolor)
    rw [hdata] at h
    exact h

theorem length_lineStart_le (log : Log) (clock : Clock) (t : EType) :
    (log.lineStart clock t).length ≤ 275 := by
  have hcolor := length_colorPrefixTable_le t
  have hsimple := length_prefixTableSimple_le t
  have hprintk := length_prefixTablePrintk t
  have hunix := clock.unixTime.lt
  have hutc := clock.dateTimeUtc.lt
  have hlocal := clock.dateTimeLocal.lt
  unfold lineStart
  cases log.isColorizeEnabled <;> cases log.style <;> simp <;> omega

/-! ## The buffers -/

/-- The text that is counted: none where its length is not an `int`. -/
def counted (text : List Char) : List Char := if text.length ≤ INT_MAX then text else []

/-- Of `n` characters that are written, those that `vsnprintf` counts are kept. -/
theorem vsnprintf_eq (n : ℕ) (h : format.arity ≤ args.length) :
    ∃ p, vsnprintf (n + 1) format args = .ok p ∧ p.written.length ≤ n ∧
      (if 0 < p.status then p.written.take (min p.status.toNat n) else []) =
        (counted (format.text (args.take format.arity))).take n ∧
      p.status.toNat = (counted (format.text (args.take format.arity))).length ∧
      p.formatted = args.take format.arity ∧ p.args = args.drop format.arity := by
  refine ⟨_, if_pos h, ?_⟩
  dsimp only
  generalize format.text (args.take format.arity) = text
  refine ⟨List.length_take_le _ _, ?_, ?_, rfl, rfl⟩
  · unfold counted
    by_cases hn : text.length ≤ INT_MAX
    · rw [if_pos hn, if_pos hn, Nat.add_sub_cancel]
      split_ifs with hpos
      · rw [List.take_take, Int.toNat_natCast, Nat.min_assoc, Nat.min_self, ← List.take_take,
          List.take_of_length_le (List.length_take_le' _ _)]
      · have hnil : text = [] := List.length_eq_zero_iff.mp (by omega)
        rw [hnil, List.take_nil]
    · rw [if_neg hn, if_neg hn, List.take_nil]
      rfl
  · unfold counted
    split_ifs <;> rfl

theorem put_eq {b : HeapBuffer} {s : List Char} (h : b.data.length + s.length ≤ b.totalLength) :
    b.put s = .ok { b with data := b.data ++ s } := if_pos h

theorem appendVf_eq {Size : ℕ} (b : CharBuffer Size) (h : format.arity ≤ args.length) :
    ∃ b' p, b.appendVf format args = .ok (b', p) ∧
      b'.data = b.data ++
        (counted (format.text (args.take format.arity))).take b.getAvailableLength ∧
      p.status.toNat = (counted (format.text (args.take format.arity))).length ∧
      p.formatted = args.take format.arity ∧ p.args = args.drop format.arity := by
  have hsize : Size - b.getDataLength = b.getAvailableLength + 1 := by
    have hlt := b.lt
    unfold CharBuffer.getAvailableLength CharBuffer.getDataLength
    omega
  obtain ⟨p, hp, -, hwritten, hstatus, hrest⟩ := vsnprintf_eq b.getAvailableLength h
  unfold CharBuffer.appendVf
  rw [hsize, hp, ← hwritten]
  dsimp only
  split_ifs
  · exact ⟨_, p, rfl, rfl, hstatus, hrest⟩
  · exact ⟨b, p, rfl, (List.append_nil _).symm, hstatus, hrest⟩

/-- The heap buffer gets the characters that are counted, as many as there is room for. -/
theorem print_eq {b : HeapBuffer} {n : ℕ} (hroom : b.data.length + n + 1 ≤ b.totalLength)
    (h : format.arity ≤ args.length) :
    ∃ p, b.print n format args =
        .ok ({ b with data := b.data ++
          (counted (format.text (args.take format.arity))).take n }, p) ∧
      p.formatted = args.take format.arity := by
  obtain ⟨p, hp, hlen, hwritten, -, hformatted, -⟩ := vsnprintf_eq n h
  have hnull : b.put (p.written ++ ['\x00']) = .ok _ := put_eq (by simp; omega)
  have htext : b.put (p.written.take (min p.status.toNat n)) = .ok _ := put_eq (by simp; omega)
  refine ⟨p, ?_, hformatted⟩
  unfold HeapBuffer.print
  rw [hp, ← hwritten]
  simp only [bind, Except.bind, hnull, htext]
  split_ifs
  · rfl
  · rw [List.append_nil]
    rfl

theorem putSuffix_eq {b : HeapBuffer} {s : List Char}
    (h : b.data.length + s.length ≤ b.totalLength) :
    b.putSuffix s = .ok { b with data := b.data ++ s } := by
  unfold HeapBuffer.putSuffix
  split_ifs with hs
  · rw [List.isEmpty_iff.mp hs, List.append_nil]
  · exact put_eq h

/-- There is room for all that is written to the heap buffer. -/
theorem logHeap_eq (start colorSuffix : List Char) (status : ℤ) (h : format.arity ≤ args.length) :
    ∃ p, logHeap start colorSuffix status format args = .ok
      (start ++ (counted (format.text (args.take format.arity))).take status.toNat ++
        colorSuffix ++ ['\n'], p) ∧ p.formatted = args.take format.arity := by
  have hstatus : (if 0 < status then status.toNat else 0) = status.toNat := by
    split_ifs <;> omega
  obtain ⟨p, hp, hformatted⟩ := print_eq (b := { totalLength :=
    start.length + status.toNat + (colorSuffix.length + 1) + 1, data := start })
    (n := status.toNat) (by dsimp only; omega) h
  have hlen := List.length_take_le status.toNat (counted (format.text (args.take format.arity)))
  generalize (counted (format.text (args.take format.arity))).take status.toNat = text at hp hlen ⊢
  refine ⟨p, ?_, hformatted⟩
  unfold logHeap
  dsimp only
  rw [hstatus, put_eq (by simp; omega)]
  dsimp only [bind, Except.bind, List.nil_append]
  rw [hp]
  dsimp only
  rw [putSuffix_eq (by simp; omega)]
  dsimp only
  rw [put_eq (by simp; omega)]
  dsimp only
  rw [put_eq (by simp; omega)]
  rfl

theorem logHeap_error (start colorSuffix : List Char) (status : ℤ)
    (h : ¬format.arity ≤ args.length) :
    logHeap start colorSuffix status format args = .error .arguments := by
  have hput : (HeapBuffer.mk (start.length + (if 0 < status then status.toNat else 0) +
      (colorSuffix.length + 1) + 1) []).put start = .ok _ := put_eq (by simp; omega)
  have hprint : ∀ n, vsnprintf (n + 1) format args = .error .arguments := fun n => if_neg h
  unfold logHeap HeapBuffer.print
  dsimp only [bind, Except.bind]
  rw [hput]
  dsimp only
  rw [hprint]

/-! ## The whole line -/

/-- Whether a line has room in the stack buffer, with its null byte. -/
def Fits (log : Log) (clock : Clock) (t : EType) (text : List Char) : Prop :=
  (log.line clock t text).length < 2048

instance (text : List Char) : Decidable (log.Fits clock t text) :=
  inferInstanceAs (Decidable (_ < _))

theorem length_line (text : List Char) : (log.line clock t text).length =
    (log.lineStart clock t).length + text.length + (log.colorSuffix t).length + 1 := by
  simp [line]
  omega

theorem logV_of_enabled (ht : log.isMsgEnabled t = true) :
    log.logV clock t.toInt format args = do
      let (content, p) ← (log.start clock t).appendVf format args
      if content.getAvailableLength < (log.colorSuffix t).length + 1 then
        let (line, p') ← logHeap (log.start clock t).data (log.colorSuffix t) p.status format p.args
        return some { line, formatted := [p.formatted, p'.formatted] }
      else
        return some
          { line := ((content.append (log.colorSuffix t)).appendChar '\n').data
            formatted := [p.formatted] } := by
  rw [logV, EType.ofInt_toInt]
  exact if_pos ht

/-- The stack path, where the content has its room. -/
theorem stack_line {content : CharBuffer 2048} {text : List Char}
    (hdata : content.data = log.lineStart clock t ++ text)
    (hroom : ¬content.getAvailableLength < (log.colorSuffix t).length + 1) :
    ((content.append (log.colorSuffix t)).appendChar '\n').data = log.line clock t text := by
  unfold CharBuffer.getAvailableLength at hroom
  have happend : (content.append (log.colorSuffix t)).data = content.data ++ log.colorSuffix t :=
    CharBuffer.append_data (by omega)
  rw [CharBuffer.appendChar_data (by rw [happend, List.length_append]; omega), happend, hdata]
  rfl

/-- **What `logV` does** with a message that is not dropped. -/
theorem logV_eq (ht : log.isMsgEnabled t = true) (h : format.arity ≤ args.length)
    {text : List Char} (htext : format.text (args.take format.arity) = text) :
    log.logV clock t.toInt format args =
      if log.Fits clock t text ∨ INT_MAX < text.length then
        Except.ok (some
          { line := log.line clock t (counted text), formatted := [args.take format.arity] })
      else if format.arity ≤ (args.drop format.arity).length then
        Except.ok (some
          { line := log.line clock t ((counted
              (format.text ((args.drop format.arity).take format.arity))).take text.length)
            formatted := [args.take format.arity, (args.drop format.arity).take format.arity] })
      else Except.error .arguments := by
  -- the first formatting takes as many arguments as the format has conversions
  obtain ⟨content, p, hp, hdata, hstatus, hformatted, hargs⟩ :=
    appendVf_eq (log.start clock t) h
  rw [logV_of_enabled ht, hp]
  rw [htext, start_data] at hdata
  rw [htext] at hstatus
  have hstart := length_lineStart_le log clock t
  have hsuffix := length_colorSuffix_le log t
  have havailable : (log.start clock t).getAvailableLength =
      2047 - (log.lineStart clock t).length := by
    unfold CharBuffer.getAvailableLength
    rw [start_data]
    omega
  rw [havailable] at hdata
  have hlen := congrArg List.length hdata
  rw [List.length_append, List.length_take] at hlen
  have hfits : log.Fits clock t text ↔ (log.lineStart clock t).length + text.length +
      (log.colorSuffix t).length + 1 < 2048 := by rw [Fits, length_line]
  dsimp only [bind, Except.bind]
  by_cases hstack : log.Fits clock t text ∨ INT_MAX < text.length
  · -- all that is counted has its room
    have hcounted : (counted text).length + (log.lineStart clock t).length +
        (log.colorSuffix t).length + 1 < 2048 := by
      unfold counted
      obtain hfit | hmax := hstack
      · split_ifs
        · have := hfits.mp hfit
          omega
        · rw [List.length_nil]
          omega
      · rw [if_neg (by omega), List.length_nil]
        omega
    have hroom : ¬content.getAvailableLength < (log.colorSuffix t).length + 1 := by
      unfold CharBuffer.getAvailableLength
      omega
    rw [List.take_of_length_le (by omega)] at hdata
    rw [if_neg hroom, if_pos hstack, stack_line hdata hroom, hformatted]
    rfl
  · -- the message needs the heap: the second formatting takes the arguments behind these
    obtain ⟨hfit, hmax⟩ := not_or.mp hstack
    have hcounted : counted text = text := if_pos (by omega)
    rw [hcounted] at hstatus hlen
    have hroom : content.getAvailableLength < (log.colorSuffix t).length + 1 := by
      have := mt hfits.mpr hfit
      unfold CharBuffer.getAvailableLength
      omega
    rw [if_pos hroom, if_neg hstack, hargs, hformatted]
    by_cases hrest : format.arity ≤ (args.drop format.arity).length
    · obtain ⟨p', hp', hformatted'⟩ := logHeap_eq (log.start clock t).data (log.colorSuffix t)
        p.status hrest
      rw [if_pos hrest, hp', hstatus, start_data, ← hformatted']
      rfl
    · rw [if_neg hrest, logHeap_error _ _ _ hrest]

/-- No write is behind the end of a buffer. -/
theorem logV_ne_room (ht : log.isMsgEnabled t = true) :
    log.logV clock t.toInt format args ≠ .error .room := by
  intro hroom
  by_cases h : format.arity ≤ args.length
  · rw [logV_eq ht h rfl] at hroom
    split_ifs at hroom
    cases hroom
  · have hprint : ∀ size, vsnprintf size format args = .error .arguments := fun _ => if_neg h
    rw [logV_of_enabled ht, CharBuffer.appendVf, hprint] at hroom
    cases hroom

theorem line_inj {text text' : List Char} (h : log.line clock t text = log.line clock t text') :
    text = text' := by
  unfold line at h
  exact List.append_cancel_left (List.append_cancel_right (List.append_cancel_right h))

/-- **A line is right exactly when it fits**, or when the arguments that it formats stand behind
them once more: the heap path goes on where the stack path left the cursor. -/
theorem logV_eq_line_iff (log : Log) (clock : Clock) (t : EType) (ht : log.isMsgEnabled t = true)
    (format : Format α) (args : List α) (h : format.arity ≤ args.length) :
    log.logV clock t.toInt format args ≠ .error .room ∧
    ((∃ r, log.logV clock t.toInt format args = .ok (some r) ∧
        r.line = log.line clock t (format.text (args.take format.arity)) ∧
        ∀ as ∈ r.formatted, as = args.take format.arity) ↔
      (format.text (args.take format.arity)).length ≤ INT_MAX ∧
        (log.Fits clock t (format.text (args.take format.arity)) ∨
          (args.drop format.arity).take format.arity = args.take format.arity)) := by
  refine ⟨logV_ne_room ht, ?_⟩
  rw [logV_eq ht h rfl]
  generalize hused : args.take format.arity = used
  generalize htext : format.text used = text
  -- a message is counted only up to `INT_MAX`
  have hcounted : counted text = text ↔ text.length ≤ INT_MAX := by
    unfold counted
    refine ⟨fun hc => ?_, fun hn => if_pos hn⟩
    by_contra hn
    rw [if_neg hn] at hc
    rw [← hc] at hn
    exact hn (Nat.zero_le _)
  constructor
  · -- from the stack the line is right if it was counted, from the heap if the arguments repeat
    rintro ⟨r, hr, hline, hall⟩
    split_ifs at hr with hstack hrest
    · cases hr
      have hn := hcounted.mp (line_inj hline)
      exact ⟨hn, .inl (hstack.resolve_right (by omega))⟩
    · cases hr
      exact ⟨by omega, .inr (hall _ (by simp))⟩
  · -- the other way round the same two cases
    rintro ⟨hn, hfit⟩
    by_cases hstack : log.Fits clock t text
    · rw [if_pos (.inl hstack), hcounted.mpr hn]
      exact ⟨_, rfl, rfl, fun as has => List.mem_singleton.mp has⟩
    · have hsame := hfit.resolve_left hstack
      have hrest : format.arity ≤ (args.drop format.arity).length := by
        have hlen := congrArg List.length (hsame.trans hused.symm)
        rw [List.length_take, List.length_take] at hlen
        omega
      rw [if_neg (not_or.mpr ⟨hstack, by omega⟩), if_pos hrest, hsame, htext, hcounted.mpr hn,
        List.take_length]
      exact ⟨_, rfl, rfl, by simp⟩

/-! ## A long argument -/

private def quietClock : Clock where
  unixTime := .empty
  dateTimeUtc := .empty
  dateTimeLocal := .empty

private def plainLog : Log where
  verbosity := .debug
  style := .simple
  isColorizeEnabled := true

/-- `"%s"`. -/
def stringFormat : Format (List Char) where
  arity := 1
  text := List.flatten

theorem logV_eq_line_short :
    plainLog.logV quietClock EType.error.toInt stringFormat [['x']] ≠ .error .room ∧
    ∃ r, plainLog.logV quietClock EType.error.toInt stringFormat [['x']] = .ok (some r) ∧
      r.line = "\x1b[1;31m[ERROR] x\x1b[0m\n".toList := by
  obtain ⟨hroom, hline⟩ := logV_eq_line_iff plainLog quietClock .error (by decide) stringFormat
    [['x']] (by decide)
  obtain ⟨r, hr, hl, -⟩ := hline.mpr ⟨by decide, .inl (by decide)⟩
  exact ⟨hroom, r, hr, hl.trans (by decide)⟩

/-- The argument is formatted twice, and the second time it is not there. -/
theorem logV_long_argument : ¬ ∀ (log : Log) (clock : Clock) (t : EType)
    (format : Format (List Char)) (args : List (List Char)), log.isMsgEnabled t = true →
    format.arity ≤ args.length → ∃ r, log.logV clock t.toInt format args = .ok (some r) ∧
      r.line = log.line clock t (format.text (args.take format.arity)) := by
  intro h
  have hlen : (List.replicate 3000 'x').length = 3000 := List.length_replicate
  obtain ⟨r, hr, -⟩ := h plainLog quietClock .always stringFormat [List.replicate 3000 'x']
    (by decide) (by decide)
  have htext : stringFormat.text (List.take stringFormat.arity [List.replicate 3000 'x']) =
      List.replicate 3000 'x' := List.append_nil _
  have hfit : ¬plainLog.Fits quietClock .always (List.replicate 3000 'x') := by
    rw [Fits, length_line, hlen]
    omega
  rw [logV_eq (by decide) (by decide) htext, if_neg, if_neg (by decide)] at hr
  · cases hr
  · rw [not_or, hlen]
    exact ⟨hfit, by decide⟩

end Log

end Conntop
