import Conntop.ListWindow

/-!
# The arithmetic of `ConnectionList`

`m_scrollOffset`, `m_cursorPos` and `m_targetSize` are an `unsigned int`, and the amounts with which
`moveCursor` and `doScroll` compute are an `int`. `moveCursorInt` and `doScrollInt` keep every value
in its type of 32 bits. The other calls only take differences that they have checked.

* `FitsInt` is the condition on a call under which nothing overflows: the counts, the height of the
  window and the scroll offset fit into an `int`, and the amount is any `int` but the least.
* `runInt` is a run with the two functions. Where every call meets the condition it is the run of
  the model, so what holds of that holds of the code.

Main results: `runInt_eq`, and with it `run_representation`, `onscreen_iff_keepsOnscreen`,
`cursor_onRow` and `moved_clamped`.
-/

namespace Conntop

namespace ConnectionList

variable {l : ConnectionList}

/-! ## The functions with `int` and `unsigned int` -/

/-- A value that is kept in an `int`. -/
def toInt (x : ℤ) : ℤ := x.bmod (2 ^ 32)

/-- A value that is kept in an `unsigned int`. -/
def toUnsigned (x : ℤ) : ℕ := (x % 2 ^ 32).toNat

def doScrollInt (l : ConnectionList) (amount : ℤ) : ConnectionList :=
  if amount < 0 then
    let amount := toInt (-amount)
    let maxAmount := toInt l.scrollOffset
    let amount := if amount > maxAmount then maxAmount else amount
    if 0 < amount then
      let l := { l with scrollOffset := toUnsigned (l.scrollOffset - amount) }
      let diff := toInt (l.getSize - l.targetSize)
      { l with list := l.list.take (l.list.length - diff.toNat) }.invalidateAllVisible
    else l
  else if 0 < amount then
    let maxAmount := toInt (l.storage.getConnectionCount - l.list.length)
    let amount := if amount > maxAmount then maxAmount else amount
    if 0 < amount then
      ({ l with scrollOffset := toUnsigned (l.scrollOffset + amount) }.invalidateAllVisible).fill
    else l
  else l

def moveCursorInt (l : ConnectionList) (amount : ℤ) : ConnectionList :=
  if amount < 0 then
    let amount := toInt (-amount)
    let maxAmount := toInt l.cursorPos
    if amount > maxAmount ∧ 0 < l.scrollOffset then
      { l with cursorPos := 0 }.doScrollInt (toInt (maxAmount - amount))
    else if 0 < l.cursorPos then
      let amount := if amount > maxAmount then maxAmount else amount
      l.setCursorPos (toUnsigned (l.cursorPos - amount))
    else l
  else if 0 < amount then
    let maxPos := l.getCursorMaxPos
    let maxAmount := toInt (maxPos - l.cursorPos)
    if amount > maxAmount ∧ l.list.length < l.storage.getConnectionCount then
      { l with cursorPos := maxPos }.doScrollInt (toInt (amount - maxAmount))
    else if l.cursorPos < maxPos then
      let amount := if amount > maxAmount then maxAmount else amount
      l.setCursorPos (toUnsigned (l.cursorPos + amount))
    else l
  else l

theorem toInt_eq {x : ℤ} (h : -2 ^ 31 ≤ x) (h' : x < 2 ^ 31) : toInt x = x := by
  unfold toInt
  exact Int.bmod_eq_of_le (by omega) (by omega)

theorem toUnsigned_eq {x : ℤ} (h : 0 ≤ x) (h' : x < 2 ^ 32) : toUnsigned x = x.toNat := by
  unfold toUnsigned
  rw [Int.emod_eq_of_lt h h']

/-- The counts and the height of the window fit into an `int`. -/
structure Fits (l : ConnectionList) : Prop where
  count : l.stored.length < 2 ^ 31
  length : l.list.length ≤ l.stored.length
  scrollOffset : l.scrollOffset < 2 ^ 31
  targetSize : l.targetSize < 2 ^ 31

theorem min_eq_ite (a b : ℤ) : (if a > b then b else a) = min a b := by
  split_ifs <;> omega

theorem doScrollInt_eq (h : Fits l) {amount : ℤ} (h1 : -2 ^ 31 < amount) (h2 : amount < 2 ^ 31) :
    l.doScrollInt amount = l.doScroll amount := by
  obtain ⟨hn, hlen, hs, ht⟩ := h
  unfold doScrollInt doScroll
  simp only [min_eq_ite, getConnectionCount_eq]
  by_cases h3 : amount < 0
  · rw [if_pos h3, if_pos h3, toInt_eq (by omega) (by omega), toInt_eq (by omega) (by omega)]
    have hmin : min (-amount) l.scrollOffset = (min (-amount).toNat l.scrollOffset : ℕ) := by omega
    rw [hmin]
    generalize min (-amount).toNat l.scrollOffset = k at hmin
    have hk : k ≤ l.scrollOffset := by omega
    rw [toUnsigned_eq (by omega) (by omega),
      show ((l.scrollOffset - k : ℤ)).toNat = l.scrollOffset - k by omega]
    have hsize := getSize_eq { l with scrollOffset := l.scrollOffset - k }
    simp only at hsize
    rw [toInt_eq (by omega) (by omega)]
    simp only [Int.toNat_sub, Int.natCast_pos]
  · rw [if_neg h3, if_neg h3]
    by_cases h4 : 0 < amount
    · rw [if_pos h4, toInt_eq (by omega) (by omega)]
      have hmin : min amount (l.stored.length - l.list.length) =
          (min amount.toNat (l.stored.length - l.list.length) : ℕ) := by omega
      rw [hmin]
      generalize min amount.toNat (l.stored.length - l.list.length) = k at hmin
      rw [toUnsigned_eq (by omega) (by omega),
        show ((l.scrollOffset + k : ℤ)).toNat = l.scrollOffset + k by omega]
      simp only [Int.natCast_pos]
    · rw [if_neg h4, if_neg (by omega)]

/-- The values that `moveCursor` forms are the ones of the model, for every amount but the least
one. -/
theorem moveCursorInt_eq (hc : l.cursorPos ≤ l.getCursorMaxPos) (h : Fits l) {amount : ℤ}
    (h1 : -2 ^ 31 < amount) (h2 : amount < 2 ^ 31) :
    l.moveCursorInt amount = l.moveCursor amount := by
  obtain ⟨hn, hlen, hs, ht⟩ := h
  rw [getCursorMaxPos_eq, getSize_eq] at hc
  have hfits : ∀ pos, Fits { l with cursorPos := pos } := fun pos => ⟨hn, hlen, hs, ht⟩
  unfold moveCursorInt moveCursor
  simp only [min_eq_ite]
  by_cases h3 : amount < 0
  · rw [if_pos h3, if_pos h3, toInt_eq (by omega) (by omega), toInt_eq (by omega) (by omega)]
    by_cases h4 : -amount > l.cursorPos ∧ 0 < l.scrollOffset
    · rw [if_pos h4, if_pos h4, toInt_eq (by omega) (by omega), doScrollInt_eq (hfits 0) (by omega)
        (by omega), Int.sub_neg]
    · rw [if_neg h4, if_neg h4, toUnsigned_eq (by omega) (by omega)]
  · rw [if_neg h3, if_neg h3]
    by_cases h4 : 0 < amount
    · rw [if_pos h4, if_pos h4, getCursorMaxPos_eq, getSize_eq, toInt_eq (by omega) (by omega)]
      by_cases h5 : amount > (l.list.length - l.scrollOffset - 1 : ℕ) - l.cursorPos ∧
          l.list.length < l.storage.getConnectionCount
      · rw [if_pos h5, if_pos h5, toInt_eq (by omega) (by omega), doScrollInt_eq (hfits _)
          (by omega) (by omega)]
      · rw [if_neg h5, if_neg h5, toUnsigned_eq (by omega) (by omega)]
    · rw [if_neg h4, if_neg h4]

theorem Inv.fits (hi : Inv l) (hn : l.storage.getConnectionCount < 2 ^ 31)
    (ht : l.targetSize < 2 ^ 31) (hs : l.scrollOffset < 2 ^ 31) : Fits l where
  count := getConnectionCount_eq l ▸ hn
  length := by
    have hcard := hi.ranked.length_le_card
    rwa [length_keys] at hcard
  scrollOffset := hs
  targetSize := ht

/-! ## Runs -/

/-- The condition under which nothing overflows in a call. -/
def FitsInt (l : ConnectionList) : Op → Prop
  | .moveCursor amount | .doScroll amount =>
    l.storage.getConnectionCount < 2 ^ 31 ∧ l.targetSize < 2 ^ 31 ∧ l.scrollOffset < 2 ^ 31 ∧
      -2 ^ 31 < amount ∧ amount < 2 ^ 31
  | _ => True

/-- `step` with the two functions. -/
def stepInt (S : StdSort) (inet : InetText) (l : ConnectionList) : Op → ConnectionList
  | .moveCursor amount => l.moveCursorInt amount
  | .doScroll amount => l.doScrollInt amount
  | op => step S inet l op

def runInt (S : StdSort) (inet : InetText) (l : ConnectionList) (ops : List Op) : ConnectionList :=
  ops.foldl (stepInt S inet) l

/-- Every call of the run meets the condition. -/
def RunFits (S : StdSort) (inet : InetText) (ops : List Op) : Prop :=
  ∀ i (hi : i < ops.length), FitsInt (run S inet {} (ops.take i)) ops[i]

theorem stepInt_eq (S : StdSort) (inet : InetText) (hi : Inv l) {op : Op} (h : FitsInt l op) :
    stepInt S inet l op = step S inet l op := by
  cases op with
  | moveCursor amount =>
    obtain ⟨hn, ht, hs, h1, h2⟩ := h
    exact moveCursorInt_eq hi.cursor_le (hi.fits hn ht hs) h1 h2
  | doScroll amount =>
    obtain ⟨hn, ht, hs, h1, h2⟩ := h
    exact doScrollInt_eq (hi.fits hn ht hs) h1 h2
  | _ => rfl

/-- Where nothing overflows, a run of the code is the run of the model. -/
theorem runInt_eq (S : StdSort) (inet : InetText) {ops : List Op} (h : RunFits S inet ops) :
    runInt S inet {} ops = run S inet {} ops :=
  GuardedRun.foldl_eq_of_meets (fun _ op hi => step_inv S inet hi op)
    (fun _ _ hi hop => stepInt_eq S inet hi hop) ops {} .init h

/-! ## Main results -/

/-- **Representation.** After every sequence of calls the list holds no connection twice, the
pointers of the list and of the detail dialog are not dangling, the visible part fits into the
window, and a shown list is as long as the window and the storage allow. While the counts fit into
an `int`, the arithmetic of the source does the same. -/
theorem run_representation (S : StdSort) (inet : InetText) (ops : List Op) :
    let l := run S inet {} ops
    (l.list.map (·.pConnection)).Nodup ∧
      (∀ item ∈ l.list, item.pConnection ∈ l.storage.connectionMap) ∧
      (∀ c, l.connectionDetail = some c → c ∈ l.storage.connectionMap) ∧
      l.getSize ≤ l.targetSize ∧
      (0 < l.targetSize → l.list.length =
        min (l.scrollOffset + l.targetSize) l.storage.getConnectionCount) ∧
      (RunFits S inet ops → runInt S inet {} ops = l) := by
  intro l
  have hi := run_inv S inet ops
  refine ⟨hi.ranked.nodup, fun item hitem => hi.ranked.subset _ (List.mem_map_of_mem hitem),
    hi.detail, ?_, fun ht => ?_, runInt_eq S inet⟩
  · rw [← not_lt, lt_getSize_iff, not_lt, ← length_keys]
    exact hi.ranked.length_le
  · rw [← length_keys, getConnectionCount_eq]
    exact hi.full ht

/-- **Along a run there is always a connection on the screen exactly when every call meets the
condition.** While the counts fit into an `int`, the arithmetic of the source does the same. -/
theorem onscreen_iff_keepsOnscreen (S : StdSort) (inet : InetText) (ops : List Op) :
    ((∀ i ≤ ops.length, let l := run S inet {} (ops.take i)
      0 < l.storage.getConnectionCount → 0 < l.targetSize → 0 < l.getSize) ↔
    ∀ i (hi : i < ops.length), KeepsOnscreen (run S inet {} (ops.take i)) ops[i]) ∧
      (RunFits S inet ops → runInt S inet {} ops = run S inet {} ops) := by
  have hinit : Onscreen {} := fun _ h => absurd h (lt_irrefl 0)
  have h := GuardedRun.foldl_prefix_iff (f := step S inet) (P := Onscreen) (C := KeepsOnscreen)
    (fun l op hi => step_inv S inet hi op) (fun l op hi ho => step_onscreen_iff S inet hi ho op)
    Inv.init hinit ops
  refine ⟨?_, runInt_eq S inet⟩
  unfold run at *
  rw [← h]
  exact forall₂_congr fun i _ => (Inv.onscreen_iff (run_inv S inet (ops.take i))).symm

private def windowAddr : Address := .ip4 0x0B00007F#32
private def windowPort : Port := ⟨.tcp, 2500⟩
private def windowPort' : Port := ⟨.tcp, 2501⟩
private def windowConn : Connection :=
  ⟨windowAddr, windowPort, windowAddr, windowPort, rfl, rfl⟩
private def windowConn' : Connection :=
  ⟨windowAddr, windowPort', windowAddr, windowPort, rfl, rfl⟩

/-- The cursor is moved down in a window of one row, which scrolls a table of two connections. Then
the table is cleared, and one connection arrives. -/
def clearedOps : List Op :=
  [.setTargetSize 1, .getAddress windowAddr true, .getPort windowPort true,
    .getPort windowPort' true, .add windowConn {}, .add windowConn' {}, .moveCursor 1, .clear,
    .add windowConn {}]

/-- The window stays empty, for `clear` puts the cursor back but not the scroll offset. -/
theorem clearedOps_not_onscreen : ¬ ∀ (S : StdSort) (inet : InetText) (ops : List Op),
    let l := run S inet {} ops
    0 < l.storage.getConnectionCount → 0 < l.targetSize → 0 < l.getSize := fun h =>
  absurd (h .insertion .plain clearedOps (by decide) (by decide)) (by decide)

/-- **The cursor is on a visible row after every sequence of calls, and the checked calls do the
same.** So does the arithmetic of the source while the counts fit into an `int`. -/
theorem cursor_onRow (S : StdSort) (inet : InetText) (ops : List Op) :
    let l := run S inet {} ops
    (l.getSize = 0 ∧ l.cursorPos = 0 ∨ l.cursorPos < l.getSize) ∧
      GuardedRun.run (step? S inet) {} ops = some l ∧
      (RunFits S inet ops → runInt S inet {} ops = l) := by
  intro l
  refine ⟨?_, run?_eq S inet ops {} .init, runInt_eq S inet⟩
  have hc : l.cursorPos ≤ l.getSize - 1 := by
    rw [← getCursorMaxPos_eq]
    exact (run_inv S inet ops).cursor_le
  omega

/-- **`moveCursor` moves the cursor's position in the table by the amount, clamped to the table.**
The list is as long as the window and the table allow, the cursor is on a visible row, and while
the counts fit into an `int` the arithmetic of the source does the same for every `int` but the
least. -/
theorem moved_clamped (S : StdSort) (inet : InetText) (ops : List Op) (amount : ℤ) :
    let l := run S inet {} ops
    let l' := l.moveCursor amount
    let n := l.storage.getConnectionCount
    0 < l.targetSize → 0 < l.getSize →
      ((l'.scrollOffset + l'.cursorPos : ℕ) : ℤ) =
          max 0 (min ((l.scrollOffset + l.cursorPos : ℕ) + amount) (n - 1)) ∧
        l'.cursorPos < l'.getSize ∧
        l'.list.length = min (l'.scrollOffset + l.targetSize) n ∧
        (n < 2 ^ 31 → l.targetSize < 2 ^ 31 → -2 ^ 31 < amount → amount < 2 ^ 31 →
          l.moveCursorInt amount = l') := by
  intro l l' n ht hs
  have hi : Inv l := run_inv S inet ops
  have hi' : Inv l' := hi.moveCursor amount
  obtain ⟨hst, ht'⟩ : l'.storage = l.storage ∧ l'.targetSize = l.targetSize :=
    moveCursor_storage hi.cursor_le amount
  have hn : l'.stored.length = n := by
    unfold stored
    rw [hst]
    exact (getConnectionCount_eq l).symm
  have hlen : l'.list.length = min (l'.scrollOffset + l.targetSize) n := by
    have hfull := hi'.full (ht' ▸ ht)
    rwa [length_keys, cap, hn, ht'] at hfull
  have hpos := moveCursor_absolutePos hi ht hs amount
  rw [← getConnectionCount_eq] at hpos
  refine ⟨hpos, ?_, hlen, fun h1 h2 h3 h4 => ?_⟩
  · have ho : Onscreen l := hi.onscreen_iff.mpr fun _ _ => hs
    have hoff := onscreen_iff.mp (moveCursor_onscreen hi ho amount)
    have hcard := hi.ranked.length_le_card
    have hc := hi'.cursor_le
    rw [getSize_eq] at hs
    rw [length_keys, ← getConnectionCount_eq] at hcard
    rw [getCursorMaxPos_eq, getSize_eq] at hc
    rw [getSize_eq]
    have hoff' : l'.scrollOffset < n := hn ▸ hoff (by
      show 0 < l'.stored.length
      omega) (ht' ▸ ht)
    omega
  · have hcard := hi.ranked.length_le_card
    rw [getSize_eq] at hs
    rw [length_keys, ← getConnectionCount_eq] at hcard
    have hoff : l.scrollOffset < 2 ^ 31 := by omega
    exact moveCursorInt_eq hi.cursor_le (hi.fits h1 h2 hoff) h3 h4

set_option maxRecDepth 4000 in
/-- The cursor of a window of one row goes to the end of a table of two connections. -/
theorem clearedOps_moved :
    let l := run .insertion .plain {} (clearedOps.take 6)
    ((l.moveCursor 7).scrollOffset + (l.moveCursor 7).cursorPos : ℕ) = (1 : ℤ) ∧
      (l.moveCursor 7).cursorPos < (l.moveCursor 7).getSize := by
  intro l
  have h := moved_clamped .insertion .plain (clearedOps.take 6) 7 (by decide) (by decide)
  exact ⟨h.1.trans (by decide), h.2.1⟩

end ConnectionList

end Conntop
