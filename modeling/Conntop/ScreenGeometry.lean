import Conntop.Lib.GuardedRun
import Mathlib.Data.Int.Notation
import Mathlib.Order.Lattice
import Mathlib.Algebra.Order.Ring.Int

/-!
# Where a screen is on the terminal

A screen has a pad of its own. A pad that is smaller than the terminal is in the middle of it, and
of one that is larger a part is shown, which the arrow keys scroll.

Both axes are handled alike: `ScreenAxis` is one of them. `Fits` is what holds between a resize of
the terminal and the next one, whatever is done.

Main result: `run_fits`. What is shown is in the terminal and in the pad, and every cell of the pad
can be scrolled to.
-/

namespace Conntop

/-! ## One axis -/

/-- A limit that is not positive is none. -/
structure ScreenAxis where
  minSize : ℤ
  maxSize : ℤ
  size : ℤ
  first : ℤ := 0
  second : ℤ := 0
  scrollPos : ℤ := 0
  deriving DecidableEq, Repr

namespace ScreenAxis

variable (a : ScreenAxis) (term : ℤ)

def calculateSize : ℤ :=
  if 0 < a.maxSize ∧ a.maxSize < term then a.maxSize
  else if 0 < a.minSize ∧ term < a.minSize then a.minSize
  else term

def clampScroll (maxScrollPos : ℤ) : ScreenAxis :=
  if maxScrollPos < a.scrollPos then { a with scrollPos := maxScrollPos } else a

def updateScreenRect : ScreenAxis :=
  if a.size < term then
    { a with
      first := (term - a.size) / 2
      second := (term - a.size) / 2 + a.size - 1 }.clampScroll 0
  else { a with first := 0, second := term - 1 }.clampScroll (a.size - term)

/-- `none` if there is nothing to scroll. -/
def scrollScreenRect (amount : ℤ) : Option ScreenAxis :=
  if amount < 0 then
    let amount := min (-amount) a.scrollPos
    if 0 < amount then some { a with scrollPos := a.scrollPos - amount } else none
  else if 0 < amount then
    let maxAmount := if a.size ≤ term then 0 else a.size - term - a.scrollPos
    let amount := min amount maxAmount
    if 0 < amount then some { a with scrollPos := a.scrollPos + amount } else none
  else none

/-- The last position of the scrolled part. -/
def maxScrollPos : ℤ := max 0 (a.size - term)

structure Fits : Prop where
  size : a.size = a.calculateSize term
  first : a.first = (term - min a.size term) / 2
  second : a.second = a.first + min a.size term - 1
  nonneg : 0 ≤ a.scrollPos
  le : a.scrollPos ≤ a.maxScrollPos term

/-- A cell of the pad is on the terminal. -/
def Shows (i : ℤ) : Prop := a.scrollPos ≤ i ∧ i ≤ a.scrollPos + (a.second - a.first)

variable {a term} {b : ScreenAxis}

theorem updateScreenRect_fits (hsize : a.size = a.calculateSize term) (hscroll : 0 ≤ a.scrollPos) :
    (a.updateScreenRect term).Fits term := by
  unfold updateScreenRect clampScroll
  split_ifs with h hpos hpos
  · exact ⟨hsize, by dsimp only; omega, by dsimp only; omega, le_refl 0, le_max_left _ _⟩
  · exact ⟨hsize, by dsimp only; omega, by dsimp only; omega, hscroll,
      by dsimp only [maxScrollPos] at hpos ⊢; omega⟩
  · exact ⟨hsize, by dsimp only; omega, by dsimp only; omega, by dsimp only at hpos ⊢; omega,
      le_max_right _ _⟩
  · exact ⟨hsize, by dsimp only; omega, by dsimp only; omega, hscroll,
      by dsimp only [maxScrollPos] at hpos ⊢; omega⟩

theorem updateScreenRect_limits (a : ScreenAxis) (term : ℤ) :
    (a.updateScreenRect term).minSize = a.minSize ∧
      (a.updateScreenRect term).maxSize = a.maxSize := by
  unfold updateScreenRect clampScroll
  split_ifs <;> exact ⟨rfl, rfl⟩

theorem scrollScreenRect_eq_some {amount : ℤ} (h : a.scrollScreenRect term amount = some b) :
    ∃ pos, b = { a with scrollPos := pos } ∧ (0 ≤ a.scrollPos → 0 ≤ pos) ∧
      (a.scrollPos ≤ a.maxScrollPos term → pos ≤ a.maxScrollPos term) := by
  unfold scrollScreenRect at h
  dsimp only at h
  split_ifs at h with hneg hpos hpos' hle hamount hamount <;> cases h
  · exact ⟨_, rfl, fun _ => by omega, fun h => by omega⟩
  · exact ⟨_, rfl, fun _ => by omega, fun h => by omega⟩
  · exact ⟨_, rfl, fun _ => by omega, fun h => by unfold maxScrollPos at h ⊢; omega⟩

theorem Fits.scroll (h : a.Fits term) {amount : ℤ}
    (hb : a.scrollScreenRect term amount = some b) : b.Fits term := by
  obtain ⟨pos, rfl, hnonneg, hle⟩ := scrollScreenRect_eq_some hb
  exact ⟨h.size, h.first, h.second, hnonneg h.nonneg, hle h.le⟩

theorem calculateSize_pos (hterm : 0 < term) : 0 < a.calculateSize term := by
  unfold calculateSize
  split_ifs <;> omega

theorem Fits.inside (h : a.Fits term) (hterm : 0 < term) :
    0 ≤ a.first ∧ a.first ≤ a.second ∧ a.second < term ∧
      a.scrollPos + (a.second - a.first) < a.size := by
  have hpos := h.size ▸ calculateSize_pos (a := a) hterm
  have hle := h.le
  have hfirst := h.first
  have hsecond := h.second
  unfold maxScrollPos at hle
  omega

/-! ### Scrolling -/

/-- One step back or forth. -/
def scrollOne (a : ScreenAxis) (term : ℤ) (forth : Bool) : ScreenAxis :=
  (a.scrollScreenRect term (if forth then 1 else -1)).getD a

theorem scrollOne_forth (h : a.scrollPos < a.maxScrollPos term) (hpos : 0 ≤ a.scrollPos) :
    a.scrollOne term true = { a with scrollPos := a.scrollPos + 1 } := by
  unfold maxScrollPos at h
  have hmin : min 1 (a.size - term - a.scrollPos) = 1 := by omega
  simp only [scrollOne, scrollScreenRect, if_true]
  have hsize : ¬a.size ≤ term := by omega
  rw [if_neg (by omega), if_pos Int.one_pos, if_neg hsize, hmin, if_pos Int.one_pos]
  rfl

theorem scrollOne_back (h : 0 < a.scrollPos) :
    a.scrollOne term false = { a with scrollPos := a.scrollPos - 1 } := by
  have hmin : min 1 a.scrollPos = 1 := by omega
  simp only [scrollOne, scrollScreenRect, Bool.false_eq_true, if_false, neg_neg]
  rw [if_pos (by omega), hmin, if_pos Int.one_pos]
  rfl

/-- Every position up to the last one is reached step by step. -/
theorem exists_scrolls {pos : ℤ} (hpos : 0 ≤ pos) (hle : pos ≤ a.maxScrollPos term)
    (hnonneg : 0 ≤ a.scrollPos) (hmax : a.scrollPos ≤ a.maxScrollPos term) :
    ∃ steps : List Bool,
      steps.foldl (fun a => scrollOne a term) a = { a with scrollPos := pos } := by
  induction hn : (pos - a.scrollPos).natAbs generalizing a with
  | zero =>
    refine ⟨[], ?_⟩
    obtain rfl : pos = a.scrollPos := by omega
    rfl
  | succ n ih =>
    rcases lt_trichotomy a.scrollPos pos with hlt | heq | hgt
    · have hone := scrollOne_forth (lt_of_lt_of_le hlt hle) hnonneg
      obtain ⟨steps, hsteps⟩ := ih (a := { a with scrollPos := a.scrollPos + 1 }) hle
        (by dsimp only; omega) (by dsimp only [maxScrollPos] at *; omega) (by dsimp only; omega)
      exact ⟨true :: steps, by rw [List.foldl_cons, hone, hsteps]⟩
    · omega
    · have hone : a.scrollOne term false = { a with scrollPos := a.scrollPos - 1 } :=
        scrollOne_back (lt_of_le_of_lt hpos hgt)
      obtain ⟨steps, hsteps⟩ := ih (a := { a with scrollPos := a.scrollPos - 1 }) hle
        (by dsimp only; omega) (by dsimp only [maxScrollPos] at *; omega) (by dsimp only; omega)
      exact ⟨false :: steps, by rw [List.foldl_cons, hone, hsteps]⟩

/-- Some position shows any cell of the pad. -/
theorem Fits.exists_pos (h : a.Fits term) (hterm : 0 < term) {i : ℤ} (hi : 0 ≤ i)
    (hsize : i < a.size) :
    ∃ pos, 0 ≤ pos ∧ pos ≤ a.maxScrollPos term ∧ { a with scrollPos := pos }.Shows i := by
  have hsecond := h.second
  refine ⟨min i (a.maxScrollPos term), le_min hi (le_max_left _ _), min_le_right _ _,
    min_le_left _ _, ?_⟩
  dsimp only
  rcases le_total i (a.maxScrollPos term) with hle | hle
  · rw [min_eq_left hle]
    omega
  · rw [min_eq_right hle]
    unfold maxScrollPos
    omega

end ScreenAxis

/-! ## Both -/

/-- What `getch` returns. -/
inductive Key
  | up | down | left | right | ppage | npage
  | enter | esc | space
  | f (n : ℕ)
  | other (ch : ℕ)
  deriving DecidableEq, Repr

structure ScreenSize where
  x : ℤ
  y : ℤ
  deriving DecidableEq, Repr

structure ScreenGeometry where
  x : ScreenAxis
  y : ScreenAxis
  deriving DecidableEq, Repr

namespace ScreenGeometry

variable (g : ScreenGeometry) (term : ScreenSize)

def getSize : ScreenSize := ⟨g.x.size, g.y.size⟩

def getMinSize : ScreenSize := ⟨g.x.minSize, g.y.minSize⟩

def getMaxSize : ScreenSize := ⟨g.x.maxSize, g.y.maxSize⟩

def calculateSize : ScreenSize := ⟨g.x.calculateSize term.x, g.y.calculateSize term.y⟩

def wresize (size : ScreenSize) : ScreenGeometry :=
  { x := { g.x with size := size.x }, y := { g.y with size := size.y } }

def updateScreenRect : ScreenGeometry :=
  { x := g.x.updateScreenRect term.x, y := g.y.updateScreenRect term.y }

/-- The constructor. -/
def init (minSize maxSize : ScreenSize) : ScreenGeometry :=
  let g : ScreenGeometry :=
    { x := { minSize := minSize.x, maxSize := maxSize.x, size := 0 }
      y := { minSize := minSize.y, maxSize := maxSize.y, size := 0 } }
  (g.wresize (g.calculateSize term)).updateScreenRect term

def onResize : ScreenGeometry :=
  if g.calculateSize term ≠ g.getSize then
    (g.wresize (g.calculateSize term)).updateScreenRect term
  else g.updateScreenRect term

/-- The end of `setMinSize` and `setMaxSize`. -/
def setSize : ScreenGeometry :=
  if g.calculateSize term ≠ g.getSize then
    (g.wresize (g.calculateSize term)).updateScreenRect term
  else g

def setMinSize (minSize : ScreenSize) : ScreenGeometry :=
  if minSize = g.getMinSize then g
  else
    { x := { g.x with minSize := minSize.x }
      y := { g.y with minSize := minSize.y } : ScreenGeometry }.setSize term

def setMaxSize (maxSize : ScreenSize) : ScreenGeometry :=
  if maxSize = g.getMaxSize then g
  else
    { x := { g.x with maxSize := maxSize.x }
      y := { g.y with maxSize := maxSize.y } : ScreenGeometry }.setSize term

/-- `none` if the key is for `handleKey`. -/
def scroll : Key → Option ScreenGeometry
  | .up => (g.y.scrollScreenRect term.y (-1)).map fun y => { g with y }
  | .down => (g.y.scrollScreenRect term.y 1).map fun y => { g with y }
  | .left => (g.x.scrollScreenRect term.x (-1)).map fun x => { g with x }
  | .right => (g.x.scrollScreenRect term.x 1).map fun x => { g with x }
  | _ => none

def onKey (key : Key) : ScreenGeometry := (g.scroll term key).getD g

inductive Op
  | onResize (term : ScreenSize)
  | setMinSize (minSize : ScreenSize)
  | setMaxSize (maxSize : ScreenSize)
  | onKey (key : Key)

/-- The screen, with the size of the terminal. -/
def step : ScreenGeometry × ScreenSize → Op → ScreenGeometry × ScreenSize
  | (g, _), .onResize term => (g.onResize term, term)
  | (g, term), .setMinSize minSize => (g.setMinSize term minSize, term)
  | (g, term), .setMaxSize maxSize => (g.setMaxSize term maxSize, term)
  | (g, term), .onKey key => (g.onKey term key, term)

def Fits : Prop := g.x.Fits term.x ∧ g.y.Fits term.y

def Shows (x y : ℤ) : Prop := g.x.Shows x ∧ g.y.Shows y

variable {g term} {g' : ScreenGeometry}

/-! ## What the operations keep -/

theorem wresize_fits (hx : 0 ≤ g.x.scrollPos) (hy : 0 ≤ g.y.scrollPos) :
    ((g.wresize (g.calculateSize term)).updateScreenRect term).Fits term :=
  ⟨ScreenAxis.updateScreenRect_fits rfl hx, ScreenAxis.updateScreenRect_fits rfl hy⟩

theorem updateScreenRect_limits (g : ScreenGeometry) (term : ScreenSize) :
    (g.updateScreenRect term).getMinSize = g.getMinSize ∧
      (g.updateScreenRect term).getMaxSize = g.getMaxSize := by
  obtain ⟨hminX, hmaxX⟩ := ScreenAxis.updateScreenRect_limits g.x term.x
  obtain ⟨hminY, hmaxY⟩ := ScreenAxis.updateScreenRect_limits g.y term.y
  unfold updateScreenRect getMinSize getMaxSize
  rw [hminX, hmaxX, hminY, hmaxY]
  exact ⟨rfl, rfl⟩

theorem updateScreenRect_getSize (g : ScreenGeometry) (term : ScreenSize) :
    (g.updateScreenRect term).getSize = g.getSize := by
  unfold updateScreenRect getSize ScreenAxis.updateScreenRect ScreenAxis.clampScroll
  dsimp only
  split_ifs <;> rfl

theorem onResize_limits (g : ScreenGeometry) (term : ScreenSize) :
    (g.onResize term).getMinSize = g.getMinSize ∧ (g.onResize term).getMaxSize = g.getMaxSize := by
  unfold onResize
  split_ifs
  · exact updateScreenRect_limits _ term
  · exact updateScreenRect_limits g term

theorem setMinSize_limits (g : ScreenGeometry) (term minSize : ScreenSize) :
    (g.setMinSize term minSize).getMinSize = minSize ∧
      (g.setMinSize term minSize).getMaxSize = g.getMaxSize := by
  unfold setMinSize setSize
  split_ifs with hsame
  · exact ⟨hsame.symm, rfl⟩
  · exact updateScreenRect_limits _ term
  · exact ⟨rfl, rfl⟩

/-- Without another size only the limit is another one. -/
theorem setMinSize_of_getSize {minSize : ScreenSize}
    (h : (g.setMinSize term minSize).getSize = g.getSize) :
    g.setMinSize term minSize =
      { x := { g.x with minSize := minSize.x }, y := { g.y with minSize := minSize.y } } := by
  unfold setMinSize setSize at h ⊢
  split_ifs at h ⊢ with hsame hsize
  · rw [hsame]
    rfl
  · refine absurd ?_ hsize
    rw [updateScreenRect_getSize] at h
    exact h
  · rfl

theorem init_limits (term minSize maxSize : ScreenSize) :
    (init term minSize maxSize).getMinSize = minSize ∧
      (init term minSize maxSize).getMaxSize = maxSize :=
  updateScreenRect_limits _ term

theorem scroll_limits {key : Key} (hg : g.scroll term key = some g') :
    g'.getMinSize = g.getMinSize ∧ g'.getMaxSize = g.getMaxSize ∧ g'.getSize = g.getSize := by
  cases key with
  | up | down =>
    obtain ⟨y, hy, rfl⟩ := Option.map_eq_some_iff.mp hg
    obtain ⟨pos, rfl, -, -⟩ := ScreenAxis.scrollScreenRect_eq_some hy
    exact ⟨rfl, rfl, rfl⟩
  | left | right =>
    obtain ⟨x, hx, rfl⟩ := Option.map_eq_some_iff.mp hg
    obtain ⟨pos, rfl, -, -⟩ := ScreenAxis.scrollScreenRect_eq_some hx
    exact ⟨rfl, rfl, rfl⟩
  | _ => cases hg

theorem init_fits (minSize maxSize : ScreenSize) : (init term minSize maxSize).Fits term :=
  wresize_fits (le_refl 0) (le_refl 0)

theorem onResize_fits (hx : 0 ≤ g.x.scrollPos) (hy : 0 ≤ g.y.scrollPos) :
    (g.onResize term).Fits term := by
  unfold onResize
  split_ifs with h
  · exact wresize_fits hx hy
  · rw [not_not] at h
    exact ⟨ScreenAxis.updateScreenRect_fits (congrArg ScreenSize.x h).symm hx,
      ScreenAxis.updateScreenRect_fits (congrArg ScreenSize.y h).symm hy⟩

/-- Of a screen with other limits. -/
theorem setSize_fits (h : g'.Fits term)
    (hx : ∃ minSize maxSize, g.x = { g'.x with minSize, maxSize })
    (hy : ∃ minSize maxSize, g.y = { g'.y with minSize, maxSize }) :
    (g.setSize term).Fits term := by
  obtain ⟨minX, maxX, hx⟩ := hx
  obtain ⟨minY, maxY, hy⟩ := hy
  unfold setSize
  split_ifs with hsize
  · refine wresize_fits ?_ ?_
    · rw [hx]
      exact h.1.nonneg
    · rw [hy]
      exact h.2.nonneg
  · rw [not_not] at hsize
    refine ⟨⟨(congrArg ScreenSize.x hsize).symm, ?_, ?_, ?_, ?_⟩,
      ⟨(congrArg ScreenSize.y hsize).symm, ?_, ?_, ?_, ?_⟩⟩
    · rw [hx]; exact h.1.first
    · rw [hx]; exact h.1.second
    · rw [hx]; exact h.1.nonneg
    · rw [hx]; exact h.1.le
    · rw [hy]; exact h.2.first
    · rw [hy]; exact h.2.second
    · rw [hy]; exact h.2.nonneg
    · rw [hy]; exact h.2.le

theorem setMinSize_fits (h : g.Fits term) (minSize : ScreenSize) :
    (g.setMinSize term minSize).Fits term := by
  unfold setMinSize
  split_ifs
  · exact h
  · exact setSize_fits h ⟨_, _, rfl⟩ ⟨_, _, rfl⟩

theorem setMaxSize_fits (h : g.Fits term) (maxSize : ScreenSize) :
    (g.setMaxSize term maxSize).Fits term := by
  unfold setMaxSize
  split_ifs
  · exact h
  · exact setSize_fits h ⟨_, _, rfl⟩ ⟨_, _, rfl⟩

theorem scroll_fits (h : g.Fits term) {key : Key} (hg : g.scroll term key = some g') :
    g'.Fits term := by
  cases key with
  | up =>
    obtain ⟨y, hy, rfl⟩ := Option.map_eq_some_iff.mp hg
    exact ⟨h.1, h.2.scroll hy⟩
  | down =>
    obtain ⟨y, hy, rfl⟩ := Option.map_eq_some_iff.mp hg
    exact ⟨h.1, h.2.scroll hy⟩
  | left =>
    obtain ⟨x, hx, rfl⟩ := Option.map_eq_some_iff.mp hg
    exact ⟨h.1.scroll hx, h.2⟩
  | right =>
    obtain ⟨x, hx, rfl⟩ := Option.map_eq_some_iff.mp hg
    exact ⟨h.1.scroll hx, h.2⟩
  | _ => cases hg

theorem onKey_fits (h : g.Fits term) (key : Key) : (g.onKey term key).Fits term := by
  unfold onKey
  cases hg : g.scroll term key with
  | none => exact h
  | some g' => exact scroll_fits h hg

theorem step_fits {s : ScreenGeometry × ScreenSize} (h : s.1.Fits s.2) (op : Op) :
    (step s op).1.Fits (step s op).2 := by
  obtain ⟨g, term⟩ := s
  cases op with
  | onResize term' => exact onResize_fits h.1.nonneg h.2.nonneg
  | setMinSize minSize => exact setMinSize_fits h minSize
  | setMaxSize maxSize => exact setMaxSize_fits h maxSize
  | onKey key => exact onKey_fits h key

/-! ## Runs -/

theorem run_inv {s : ScreenGeometry × ScreenSize} (h : s.1.Fits s.2) (ops : List Op) :
    (ops.foldl step s).1.Fits (ops.foldl step s).2 :=
  GuardedRun.foldl_inv (I := fun s : ScreenGeometry × ScreenSize => s.1.Fits s.2)
    (fun _ op hs => step_fits hs op) ops s h

theorem onKey_y (g : ScreenGeometry) (forth : Bool) :
    g.onKey term (if forth then .down else .up) = { g with y := g.y.scrollOne term.y forth } := by
  cases forth
  · simp only [onKey, scroll, ScreenAxis.scrollOne, Bool.false_eq_true, if_false]
    cases g.y.scrollScreenRect term.y (-1) <;> rfl
  · simp only [onKey, scroll, ScreenAxis.scrollOne, if_true]
    cases g.y.scrollScreenRect term.y 1 <;> rfl

theorem onKey_x (g : ScreenGeometry) (forth : Bool) :
    g.onKey term (if forth then .right else .left) =
      { g with x := g.x.scrollOne term.x forth } := by
  cases forth
  · simp only [onKey, scroll, ScreenAxis.scrollOne, Bool.false_eq_true, if_false]
    cases g.x.scrollScreenRect term.x (-1) <;> rfl
  · simp only [onKey, scroll, ScreenAxis.scrollOne, if_true]
    cases g.x.scrollScreenRect term.x 1 <;> rfl

theorem foldl_onKey_y (steps : List Bool) (g : ScreenGeometry) :
    (steps.map fun forth => if forth then Key.down else .up).foldl (onKey · term) g =
      { g with y := steps.foldl (fun a => ScreenAxis.scrollOne a term.y) g.y } := by
  induction steps generalizing g with
  | nil => rfl
  | cons forth steps ih => rw [List.map_cons, List.foldl_cons, ih, onKey_y, List.foldl_cons]

theorem foldl_onKey_x (steps : List Bool) (g : ScreenGeometry) :
    (steps.map fun forth => if forth then Key.right else .left).foldl (onKey · term) g =
      { g with x := steps.foldl (fun a => ScreenAxis.scrollOne a term.x) g.x } := by
  induction steps generalizing g with
  | nil => rfl
  | cons forth steps ih => rw [List.map_cons, List.foldl_cons, ih, onKey_x, List.foldl_cons]

/-- The arrow keys bring every cell of the pad to the terminal. -/
theorem Fits.exists_keys (h : g.Fits term) (htermX : 0 < term.x) (htermY : 0 < term.y)
    {x y : ℤ} (hx : 0 ≤ x) (hxsize : x < g.x.size)
    (hy : 0 ≤ y) (hysize : y < g.y.size) :
    ∃ keys : List Key, (keys.foldl (onKey · term) g).Shows x y := by
  obtain ⟨posX, hposX, hleX, hshowsX⟩ := h.1.exists_pos htermX hx hxsize
  obtain ⟨posY, hposY, hleY, hshowsY⟩ := h.2.exists_pos htermY hy hysize
  obtain ⟨stepsX, hstepsX⟩ := ScreenAxis.exists_scrolls hposX hleX h.1.nonneg h.1.le
  obtain ⟨stepsY, hstepsY⟩ := ScreenAxis.exists_scrolls hposY hleY h.2.nonneg h.2.le
  refine ⟨(stepsX.map fun forth => if forth then .right else .left) ++
    stepsY.map fun forth => if forth then .down else .up, ?_⟩
  rw [List.foldl_append, foldl_onKey_x, foldl_onKey_y]
  dsimp only
  rw [hstepsX, hstepsY]
  exact ⟨hshowsX, hshowsY⟩

/-- **A screen fits.** Whatever is done, the pad has the size that the limits and the terminal
give, the part that is shown is in the terminal, in its middle if there is room, and in the pad,
and every cell of the pad can be scrolled to. -/
theorem run_fits (minSize maxSize : ScreenSize) (ops : List Op) :
    let s := ops.foldl step (init term minSize maxSize, term)
    s.1.getSize = s.1.calculateSize s.2 ∧ s.1.Fits s.2 ∧
      (0 < s.2.x → 0 < s.2.y →
        (0 ≤ s.1.x.first ∧ s.1.x.first ≤ s.1.x.second ∧ s.1.x.second < s.2.x ∧
          s.1.x.scrollPos + (s.1.x.second - s.1.x.first) < s.1.x.size) ∧
        (0 ≤ s.1.y.first ∧ s.1.y.first ≤ s.1.y.second ∧ s.1.y.second < s.2.y ∧
          s.1.y.scrollPos + (s.1.y.second - s.1.y.first) < s.1.y.size) ∧
        ∀ x y, 0 ≤ x → x < s.1.x.size → 0 ≤ y → y < s.1.y.size →
          ∃ keys : List Key, (keys.foldl (onKey · s.2) s.1).Shows x y) := by
  intro s
  have hs : s.1.Fits s.2 := run_inv (init_fits minSize maxSize) ops
  have hsize : s.1.getSize = s.1.calculateSize s.2 := by
    rw [getSize, hs.1.size, hs.2.size]
    rfl
  exact ⟨hsize, hs, fun htermX htermY => ⟨hs.1.inside htermX, hs.2.inside htermY,
    fun x y hx hxsize hy hysize => hs.exists_keys htermX htermY hx hxsize hy hysize⟩⟩

end ScreenGeometry

end Conntop
