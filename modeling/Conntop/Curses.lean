import Conntop.Lib.Painter
import Conntop.ScreenGeometry
import Mathlib.Logic.Function.Basic

/-!
# The screens on the terminal

The program has two screens, one of which is the current one, and three dialogs, which are opened
over the connection list. Each of them has a pad, of which a part is on the terminal. What a pad
shows may change at any time. `refresh` is left out where nothing is to be repainted, and where
something is, only what changed is copied to the terminal, and what is over it.

* `pnoutrefresh` copies what is touched. `also` are the cells that are copied although they are not,
  any in each refresh.
* What the screens draw is any content: `cells` stands for it.
* A resize of the terminal leaves anything on it. `clear` comes behind it.

The invariant `Sound` says what an open window may do: `Painter.Current` holds at each place.

Main result: `run_shows_topmost`. After any run, a refresh leaves on the terminal what the topmost
window shows there.
-/

namespace Conntop

inductive ScreenId
  | connectionList | help
  deriving DecidableEq, Repr

/-- The dialogs of the connection list. -/
inductive DialogId
  | details | columns | sort
  deriving DecidableEq, Repr

inductive WindowId
  | screen (s : ScreenId)
  | dialog (d : DialogId)
  deriving DecidableEq, Repr

/-! ## A window -/

/-- The position in the pad that is at a place of the terminal. A part that is not in the terminal
is not shown at all. -/
def ScreenAxis.padPos (a : ScreenAxis) (term i : ℤ) : Option ℤ :=
  if (0 ≤ a.first ∧ a.first ≤ a.second ∧ a.second < term) ∧ a.first ≤ i ∧ i ≤ a.second ∧
      a.scrollPos + (i - a.first) < a.size then
    some (a.scrollPos + (i - a.first))
  else none

/-- A pad, and where it is on the terminal. -/
structure Window (γ : Type*) where
  geometry : ScreenGeometry
  cells : ℤ → ℤ → γ
  isTouched : ℤ → ℤ → Bool
  isRefreshRequired : Bool

namespace Window

variable {γ α : Type*} (w : Window γ) (term : ScreenSize)

def padPos (p : ℤ × ℤ) : Option (ℤ × ℤ) :=
  (w.geometry.x.padPos term.x p.1).bind fun x =>
    (w.geometry.y.padPos term.y p.2).map fun y => (x, y)

/-- What the pad has at a place of the terminal. -/
def view (p : ℤ × ℤ) : Option γ := (w.padPos term p).map fun q => w.cells q.1 q.2

def touches (p : ℤ × ℤ) : Bool := ((w.padPos term p).map fun q => w.isTouched q.1 q.2).getD true

def pnoutrefresh (also : ℤ × ℤ → Bool) (newscr : ℤ × ℤ → γ) (p : ℤ × ℤ) : γ :=
  if w.touches term p || also p then (w.view term p).getD (newscr p) else newscr p

/-- Behind `pnoutrefresh`. -/
def untouch : Window γ := { w with isTouched := fun _ _ => false, isRefreshRequired := false }

def invalidate : Window γ := { w with isTouched := fun _ _ => true, isRefreshRequired := true }

def scroll (key : Key) : Option (Window γ) :=
  (w.geometry.scroll term key).map fun geometry => { w with geometry }.invalidate

/-- Whatever is written. -/
def draw [DecidableEq γ] (cells : ℤ → ℤ → γ) : Window γ :=
  { w with
    cells
    isTouched := fun x y => w.isTouched x y || decide (cells x y ≠ w.cells x y)
    isRefreshRequired := true }

/-- `handleResize` draws the pad. -/
def onResize [DecidableEq γ] (cells : ℤ → ℤ → γ) : Window γ :=
  let geometry := w.geometry.onResize term
  if w.geometry.calculateSize term ≠ w.geometry.getSize then { w.draw cells with geometry }
  else { w with geometry }

def setMinSize [DecidableEq γ] (minSize : ScreenSize) (cells : ℤ → ℤ → γ) : Window γ :=
  let geometry := w.geometry.setMinSize term minSize
  if geometry.getSize ≠ w.geometry.getSize then { w.invalidate.draw cells with geometry }
  else { w with geometry }

end Window

/-! ## All of them -/

/-- `newscr` is what `doupdate` brings to the terminal. -/
structure Curses (γ : Type*) where
  term : ScreenSize
  newscr : ℤ × ℤ → γ
  terminal : ℤ × ℤ → γ
  windows : WindowId → Window γ
  dialogStack : List DialogId := []
  currentScreen : ScreenId := .connectionList
  oldScreen : Option ScreenId := none

namespace Curses

variable {γ : Type*} (blank : γ) (also : WindowId → ℤ × ℤ → Bool) (c : Curses γ)

def setWindow (id : WindowId) (w : Window γ) : Curses γ :=
  { c with windows := Function.update c.windows id w }

def invalidate (id : WindowId) : Curses γ := c.setWindow id (c.windows id).invalidate

/-- The screens have no dialogs but the ones of the connection list. -/
def dialogs : ScreenId → List DialogId
  | .connectionList => c.dialogStack
  | .help => []

def windowIds (s : ScreenId) : List WindowId := .screen s :: (c.dialogs s).map .dialog

def isRefreshRequired (s : ScreenId) : Bool :=
  (c.windowIds s).any fun id => (c.windows id).isRefreshRequired

/-! ### Refresh -/

/-- The first part of `Screen::refresh`, which is all of it for a dialog. -/
def refreshWindow (id : WindowId) : Curses γ :=
  let w := c.windows id
  if w.isRefreshRequired then
    { c.setWindow id w.untouch with newscr := w.pnoutrefresh c.term (also id) c.newscr }
  else c

/-- The loop of `Screen::refresh`. -/
def refreshDialogs : Bool → List WindowId → Curses γ → Curses γ
  | _, [], c => c
  | refreshed, id :: ids, c =>
    if refreshed then refreshDialogs true ids (refreshWindow also (c.invalidate id) id)
    else if (c.windows id).isRefreshRequired then
      refreshDialogs true ids (refreshWindow also c id)
    else refreshDialogs false ids c

def refresh (s : ScreenId) : Curses γ :=
  refreshDialogs also (c.windows (.screen s)).isRefreshRequired ((c.dialogs s).map .dialog)
    (refreshWindow also c (.screen s))

def doupdate : Curses γ := { c with terminal := c.newscr }

def refreshScreen (redraw : Bool) : Curses γ :=
  if redraw then
    let c := { c with newscr := fun _ => blank }.invalidate (.screen c.currentScreen)
    (refresh also c c.currentScreen).doupdate
  else if c.isRefreshRequired c.currentScreen then (refresh also c c.currentScreen).doupdate
  else c

/-! ### Dialogs -/

def pushDialog [DecidableEq γ] (d : DialogId) (cells : ℤ → ℤ → γ) : Curses γ :=
  if d ∈ c.dialogStack then c
  else
    let w := (c.windows (.dialog d)).onResize c.term cells
    let c := { c.setWindow (.dialog d) w with dialogStack := c.dialogStack ++ [d] }
    c.dialogStack.foldl (fun c d => c.invalidate (.dialog d))
      (c.invalidate (.screen .connectionList))

/-- The loop of `removeDialog`, with what is left of the stack. -/
def removeLoop (d : DialogId) : Bool → List DialogId → Curses γ → Bool × List DialogId × Curses γ
  | removed, [], c => (removed, [], c)
  | removed, e :: es, c =>
    if e = d then removeLoop d true es c
    else
      let (removed', stack, c) :=
        removeLoop d removed es (if removed then c.invalidate (.dialog e) else c)
      (removed', e :: stack, c)

def removeDialog (d : DialogId) : Curses γ :=
  let (removed, dialogStack, c) := removeLoop d false c.dialogStack c
  let c := { c with dialogStack }
  if removed then c.invalidate (.screen .connectionList) else c

/-! ### Screens -/

/-- The connection list is the only one of `m_screens`. -/
def nextScreen : Curses γ :=
  if c.currentScreen = .connectionList then
    refreshScreen blank also { c with currentScreen := .connectionList } true
  else c

def prevScreen : Curses γ :=
  if c.currentScreen = .connectionList then
    refreshScreen blank also { c with currentScreen := .connectionList } true
  else c

def showHelp : Curses γ :=
  if c.currentScreen ≠ .help then
    refreshScreen blank also
      { c with oldScreen := some c.currentScreen, currentScreen := .help } true
  else c

/-- Without an old screen the pointer to the current one is null. -/
def closeHelp : Curses γ :=
  if c.currentScreen = .help then
    match c.oldScreen with
    | some s => refreshScreen blank also { c with currentScreen := s } true
    | none => c
  else c

/-- The screens are resized, and those of the dialogs that are open. -/
def onResize [DecidableEq γ] (size : ScreenSize) (cells : WindowId → ℤ → ℤ → γ) : Curses γ :=
  { c with
    term := size
    windows := fun
      | .screen s => (c.windows (.screen s)).onResize size (cells (.screen s))
      | .dialog d =>
        if d ∈ c.dialogStack then (c.windows (.dialog d)).onResize size (cells (.dialog d))
        else c.windows (.dialog d) }

/-- `newscr` is what `resize_term` leaves. -/
def resizeScreen [DecidableEq γ] (size : ScreenSize) (newscr : ℤ × ℤ → γ)
    (cells : WindowId → ℤ → ℤ → γ) : Curses γ :=
  if 0 < size.x ∧ 0 < size.y ∧ size ≠ c.term then
    refreshScreen blank also { c.onResize size cells with newscr } true
  else c

/-! ### Steps -/

/-- A key that scrolls, in a window that has the key. -/
def scroll (id : WindowId) (key : Key) : Curses γ :=
  if id ∈ c.windowIds c.currentScreen then
    match (c.windows id).scroll c.term key with
    | some w => c.setWindow id w
    | none => c
  else c

def draw [DecidableEq γ] (id : WindowId) (cells : ℤ → ℤ → γ) : Curses γ :=
  c.setWindow id ((c.windows id).draw cells)

/-- Of the connection list, by `setMinWidth`. -/
def setMinSize [DecidableEq γ] (minSize : ScreenSize) (cells : ℤ → ℤ → γ) : Curses γ :=
  c.setWindow (.screen .connectionList)
    ((c.windows (.screen .connectionList)).setMinSize c.term minSize cells)

inductive Op (γ : Type*)
  | draw (id : WindowId) (cells : ℤ → ℤ → γ)
  | scroll (id : WindowId) (key : Key)
  | setMinSize (minSize : ScreenSize) (cells : ℤ → ℤ → γ)
  | pushDialog (d : DialogId) (cells : ℤ → ℤ → γ)
  | removeDialog (d : DialogId)
  | resizeScreen (also : WindowId → ℤ × ℤ → Bool) (size : ScreenSize) (newscr : ℤ × ℤ → γ)
      (cells : WindowId → ℤ → ℤ → γ)
  | nextScreen (also : WindowId → ℤ × ℤ → Bool)
  | prevScreen (also : WindowId → ℤ × ℤ → Bool)
  | showHelp (also : WindowId → ℤ × ℤ → Bool)
  | closeHelp (also : WindowId → ℤ × ℤ → Bool)
  | refreshScreen (also : WindowId → ℤ × ℤ → Bool) (redraw : Bool)

def step [DecidableEq γ] (c : Curses γ) : Op γ → Curses γ
  | .draw id cells => c.draw id cells
  | .scroll id key => c.scroll id key
  | .setMinSize minSize cells => c.setMinSize minSize cells
  | .pushDialog d cells => c.pushDialog d cells
  | .removeDialog d => c.removeDialog d
  | .resizeScreen also size newscr cells => resizeScreen blank also c size newscr cells
  | .nextScreen also => nextScreen blank also c
  | .prevScreen also => prevScreen blank also c
  | .showHelp also => showHelp blank also c
  | .closeHelp also => closeHelp blank also c
  | .refreshScreen also redraw => refreshScreen blank also c redraw

def run [DecidableEq γ] (ops : List (Op γ)) : Curses γ := ops.foldl (step blank) c

/-- The limits of the size that the constructors of the screens give. -/
def limits : WindowId → ScreenSize × ScreenSize
  | .screen .connectionList => (⟨80, 6⟩, ⟨-1, -1⟩)
  | .screen .help => (⟨80, 27⟩, ⟨80, 27⟩)
  | .dialog .details => (⟨80, 22⟩, ⟨80, 22⟩)
  | .dialog .columns => (⟨50, 20⟩, ⟨50, 20⟩)
  | .dialog .sort => (⟨40, 25⟩, ⟨40, 25⟩)

/-- The constructors, each of which draws, on the blank terminal. -/
def init [DecidableEq γ] (term : ScreenSize) (cells : WindowId → ℤ → ℤ → γ) : Curses γ :=
  { term
    newscr := fun _ => blank
    terminal := fun _ => blank
    windows := fun id =>
      Window.draw
        { geometry := .init term (limits id).1 (limits id).2
          cells := fun _ _ => blank
          isTouched := fun _ _ => false
          isRefreshRequired := false } (cells id) }

end Curses

/-! ## What a window covers -/

namespace ScreenAxis

variable {a b : ScreenAxis} {term i : ℤ}

theorem padPos_of_fits (h : a.Fits term) (hterm : 0 < term) :
    a.padPos term i =
      if a.first ≤ i ∧ i ≤ a.second then some (a.scrollPos + (i - a.first)) else none := by
  obtain ⟨hfirst, hle, hsecond, hsize⟩ := h.inside hterm
  have hiff : ((0 ≤ a.first ∧ a.first ≤ a.second ∧ a.second < term) ∧ a.first ≤ i ∧ i ≤ a.second ∧
      a.scrollPos + (i - a.first) < a.size) ↔ (a.first ≤ i ∧ i ≤ a.second) := by
    constructor
    · exact fun h => ⟨h.2.1, h.2.2.1⟩
    · exact fun h => ⟨⟨hfirst, hle, hsecond⟩, h.1, h.2, by omega⟩
  simp only [padPos, hiff]

/-- Without an upper limit all of the terminal is covered. -/
theorem padPos_isSome (h : a.Fits term) (hmax : a.maxSize ≤ 0) (hi : 0 ≤ i) (hterm : i < term) :
    (a.padPos term i).isSome := by
  have hsize : term ≤ a.size := by
    rw [h.size, calculateSize, if_neg (by omega)]
    split_ifs <;> omega
  have hfirst := h.first
  have hsecond := h.second
  rw [padPos_of_fits h (by omega), if_pos (by omega)]
  rfl

/-- Scrolling does not move what is covered. -/
theorem padPos_isSome_scroll {amount : ℤ} (h : a.Fits term) (hterm : 0 < term)
    (hb : a.scrollScreenRect term amount = some b) :
    (b.padPos term i).isSome = (a.padPos term i).isSome := by
  rw [padPos_of_fits h hterm, padPos_of_fits (h.scroll hb) hterm]
  obtain ⟨pos, rfl, -, -⟩ := scrollScreenRect_eq_some hb
  split_ifs <;> rfl

end ScreenAxis

namespace Window

variable {γ : Type*} {w w' : Window γ} {term : ScreenSize} {p : ℤ × ℤ}

def OnTerminal (term : ScreenSize) (p : ℤ × ℤ) : Prop :=
  0 ≤ p.1 ∧ p.1 < term.x ∧ 0 ≤ p.2 ∧ p.2 < term.y

instance (term : ScreenSize) (p : ℤ × ℤ) : Decidable (OnTerminal term p) :=
  inferInstanceAs (Decidable (_ ∧ _))

theorem isSome_view : (w.view term p).isSome = (w.padPos term p).isSome := Option.isSome_map

theorem isSome_padPos : (w.padPos term p).isSome =
    ((w.geometry.x.padPos term.x p.1).isSome && (w.geometry.y.padPos term.y p.2).isSome) := by
  unfold padPos
  cases w.geometry.x.padPos term.x p.1 <;> cases w.geometry.y.padPos term.y p.2 <;> rfl

theorem touches_of_all (h : w.isTouched = fun _ _ => true) : w.touches term p = true := by
  rw [touches, h]
  cases w.padPos term p <;> rfl

theorem touches_invalidate : w.invalidate.touches term p = true := touches_of_all rfl

/-! ### The layer that a window is -/

def layer (w : Window γ) (term : ScreenSize) (also : ℤ × ℤ → Bool) : Painter.Layer (ℤ × ℤ) γ where
  view := w.view term
  touched := fun p => w.touches term p || also p
  isFlagged := w.isRefreshRequired

/-- A window that is painted in full, and is where it was. -/
theorem draws_of_invalidated {also : ℤ × ℤ → Bool} (hflag : w'.isRefreshRequired)
    (htouched : w'.isTouched = fun _ _ => true)
    (hcovers : (w'.view term p).isSome = (w.view term p).isSome) :
    Painter.Draws p (w.layer term also) (w'.layer term also) := by
  have htouches : (w'.touches term p || also p) = true := by
    rw [touches_of_all htouched, Bool.true_or]
  exact ⟨hcovers, fun _ => htouches, fun _ => hflag, fun _ => ⟨htouches, hflag⟩⟩

/-- More cells may be copied than those that are touched. -/
theorem draws_also (w : Window γ) (term : ScreenSize) (also : ℤ × ℤ → Bool) (p : ℤ × ℤ) :
    Painter.Draws p (w.layer term fun _ => false) (w.layer term also) := by
  refine ⟨rfl, fun h => ?_, id, fun h => absurd rfl h⟩
  simp only [layer, Bool.or_false] at h ⊢
  rw [h, Bool.true_or]

theorem draws_draw [DecidableEq γ] (w : Window γ) (term : ScreenSize) (also : ℤ × ℤ → Bool)
    (p : ℤ × ℤ) (cells : ℤ → ℤ → γ) :
    Painter.Draws p (w.layer term also) ((w.draw cells).layer term also) := by
  have hpad : (w.draw cells).padPos term = w.padPos term := rfl
  refine ⟨?_, ?_, fun _ => rfl, ?_⟩
  · dsimp only [layer]
    rw [isSome_view, isSome_view, hpad]
  · dsimp only [layer, touches]
    rw [hpad]
    cases w.padPos term p with
    | none => exact fun h => h
    | some q =>
      intro htouched
      simp only [Option.map_some, Option.getD_some, Bool.or_eq_true, draw] at htouched ⊢
      exact htouched.imp_left .inl
  · dsimp only [layer, touches, view]
    rw [hpad]
    intro hne
    refine ⟨?_, rfl⟩
    cases hq : w.padPos term p with
    | none => rfl
    | some q =>
      rw [hq] at hne
      have hcell : cells q.1 q.2 ≠ w.cells q.1 q.2 := fun heq => hne (congrArg some heq)
      simp [draw, hcell]

section Resize

variable [DecidableEq γ] (minSize : ScreenSize) (cells : ℤ → ℤ → γ)

theorem onResize_geometry :
    (w.onResize term cells).geometry = w.geometry.onResize term := by
  simp only [onResize]
  split_ifs <;> rfl

theorem setMinSize_geometry :
    (w.setMinSize term minSize cells).geometry = w.geometry.setMinSize term minSize := by
  simp only [setMinSize]
  split_ifs <;> rfl

/-- With another size the window is painted in full, else it looks as it did. -/
theorem setMinSize_cases :
    ((w.setMinSize term minSize cells).isRefreshRequired ∧
      (w.setMinSize term minSize cells).isTouched = fun _ _ => true) ∨
    w.setMinSize term minSize cells =
      { w with
        geometry :=
          { x := { w.geometry.x with minSize := minSize.x }
            y := { w.geometry.y with minSize := minSize.y } } } := by
  by_cases hsize : (w.geometry.setMinSize term minSize).getSize ≠ w.geometry.getSize
  · rw [setMinSize, if_pos hsize]
    refine .inl ⟨rfl, ?_⟩
    funext x y
    simp [draw, invalidate]
  · rw [setMinSize, if_neg hsize,
      ScreenGeometry.setMinSize_of_getSize (not_not.mp hsize)]
    exact .inr rfl

end Resize

/-- The screen that has no upper limit. -/
theorem isSome_view_of_fits (h : w.geometry.Fits term) (hmax : w.geometry.getMaxSize = ⟨-1, -1⟩)
    (hp : OnTerminal term p) : (w.view term p).isSome := by
  obtain ⟨hmaxX, hmaxY⟩ := ScreenSize.mk.inj hmax
  rw [isSome_view, isSome_padPos,
    ScreenAxis.padPos_isSome h.1 (by omega) hp.1 hp.2.1,
    ScreenAxis.padPos_isSome h.2 (by omega) hp.2.2.1 hp.2.2.2]
  rfl

theorem isSome_view_scroll {key : Key} (h : w.geometry.Fits term) (hp : OnTerminal term p)
    (hw : w.scroll term key = some w') : (w'.view term p).isSome = (w.view term p).isSome := by
  obtain ⟨geometry, hg, rfl⟩ := Option.map_eq_some_iff.mp hw
  have hx : 0 < term.x := lt_of_le_of_lt hp.1 hp.2.1
  have hy : 0 < term.y := lt_of_le_of_lt hp.2.2.1 hp.2.2.2
  rw [isSome_view, isSome_view, isSome_padPos, isSome_padPos]
  cases key with
  | up | down =>
    obtain ⟨y, hy', rfl⟩ := Option.map_eq_some_iff.mp hg
    exact congrArg _ (ScreenAxis.padPos_isSome_scroll h.2 hy hy')
  | left | right =>
    obtain ⟨x, hx', rfl⟩ := Option.map_eq_some_iff.mp hg
    exact congrArg (· && _) (ScreenAxis.padPos_isSome_scroll h.1 hx hx')
  | _ => cases hg

end Window

namespace Curses

variable {γ : Type*} {blank : γ} {also : WindowId → ℤ × ℤ → Bool}
variable {c c' c'' : Curses γ} {id : WindowId} {p : ℤ × ℤ}

/-! ## Refreshing is refreshing the layers -/

def layer (also : WindowId → ℤ × ℤ → Bool) (c : Curses γ) (id : WindowId) :
    Painter.Layer (ℤ × ℤ) γ := (c.windows id).layer c.term (also id)

/-- Nothing else is copied. -/
def touchedOnly : WindowId → ℤ × ℤ → Bool := fun _ _ => false

def layers (also : WindowId → ℤ × ℤ → Bool) (c : Curses γ) : List (Painter.Layer (ℤ × ℤ) γ) :=
  (c.windowIds c.currentScreen).map (layer also c)

/-- What repainting leaves as it is. -/
structure Alike (c c' : Curses γ) : Prop where
  term : c'.term = c.term
  dialogStack : c'.dialogStack = c.dialogStack
  currentScreen : c'.currentScreen = c.currentScreen
  oldScreen : c'.oldScreen = c.oldScreen
  geometry : ∀ id, (c'.windows id).geometry = (c.windows id).geometry
  view : ∀ id, (c'.windows id).view = (c.windows id).view

theorem Alike.refl (c : Curses γ) : Alike c c := ⟨rfl, rfl, rfl, rfl, fun _ => rfl, fun _ => rfl⟩

theorem Alike.trans (h : Alike c c') (h' : Alike c' c'') : Alike c c'' where
  term := h'.term.trans h.term
  dialogStack := h'.dialogStack.trans h.dialogStack
  currentScreen := h'.currentScreen.trans h.currentScreen
  oldScreen := h'.oldScreen.trans h.oldScreen
  geometry id := (h'.geometry id).trans (h.geometry id)
  view id := (h'.view id).trans (h.view id)

theorem setWindow_self (c : Curses γ) (id : WindowId) (w : Window γ) :
    (c.setWindow id w).windows id = w := Function.update_self ..

theorem setWindow_of_ne {id' : WindowId} (h : id' ≠ id) (c : Curses γ) (w : Window γ) :
    (c.setWindow id w).windows id' = c.windows id' := Function.update_of_ne h ..

theorem setWindow_alike {w : Window γ} (hgeometry : w.geometry = (c.windows id).geometry)
    (hview : w.view = (c.windows id).view) : Alike c (c.setWindow id w) := by
  refine ⟨rfl, rfl, rfl, rfl, ?_, ?_⟩ <;> intro id' <;> by_cases h : id' = id
  · rw [h, setWindow_self, hgeometry]
  · rw [setWindow_of_ne h]
  · rw [h, setWindow_self, hview]
  · rw [setWindow_of_ne h]

theorem invalidate_alike (c : Curses γ) (id : WindowId) : Alike c (c.invalidate id) :=
  setWindow_alike rfl rfl

theorem newscr_alike (c : Curses γ) (newscr : ℤ × ℤ → γ) : Alike c { c with newscr } :=
  ⟨rfl, rfl, rfl, rfl, fun _ => rfl, fun _ => rfl⟩

theorem refreshWindow_alike (also : WindowId → ℤ × ℤ → Bool) (c : Curses γ) (id : WindowId) :
    Alike c (refreshWindow also c id) := by
  rw [refreshWindow]
  split_ifs
  · have halike : Alike c (c.setWindow id (c.windows id).untouch) := setWindow_alike rfl rfl
    obtain ⟨hterm, hstack, hcurrent, hold, hgeometry, hview⟩ := halike
    exact ⟨hterm, hstack, hcurrent, hold, hgeometry, hview⟩
  · exact Alike.refl c

theorem refreshDialogs_alike (refreshed : Bool) (ids : List WindowId) (c : Curses γ) :
    Alike c (refreshDialogs also refreshed ids c) := by
  induction ids generalizing refreshed c with
  | nil => exact Alike.refl c
  | cons id ids ih =>
    rw [refreshDialogs]
    split_ifs
    · exact (invalidate_alike c id).trans ((refreshWindow_alike also _ id).trans (ih ..))
    · exact (refreshWindow_alike also c id).trans (ih ..)
    · exact ih ..

theorem refresh_alike (c : Curses γ) (s : ScreenId) : Alike c (refresh also c s) :=
  (refreshWindow_alike also c _).trans (refreshDialogs_alike ..)

theorem Alike.views (h : Alike c c') (ids : List WindowId) :
    Painter.views (ids.map (layer also c')) = Painter.views (ids.map (layer also c)) := by
  simp only [Painter.views, List.map_map]
  refine List.map_congr_left fun id _ => ?_
  simp only [Function.comp_apply, layer, Window.layer, h.view id, h.term]

theorem Alike.windowIds (h : Alike c c') (s : ScreenId) : c'.windowIds s = c.windowIds s := by
  cases s with
  | connectionList => rw [Curses.windowIds, Curses.windowIds, dialogs, dialogs, h.dialogStack]
  | help => rfl

theorem refreshWindow_newscr (h : (c.windows id).isRefreshRequired) :
    (refreshWindow also c id).newscr = (layer also c id).copy c.newscr := by
  rw [refreshWindow]
  exact congrArg newscr (if_pos h)

theorem layer_invalidate (also : WindowId → ℤ × ℤ → Bool) (c : Curses γ) (id : WindowId) :
    (layer also (c.invalidate id) id).isFlagged ∧
      ∀ p, (layer also (c.invalidate id) id).touched p := by
  have hwindow : (c.invalidate id).windows id = (c.windows id).invalidate := setWindow_self ..
  constructor
  · rw [layer, hwindow]
    rfl
  · intro p
    simp only [layer, Window.layer, hwindow, Window.touches_invalidate, Bool.true_or]

theorem refreshWindow_invalidate (c : Curses γ) (id : WindowId) :
    (refreshWindow also (c.invalidate id) id).newscr =
      Painter.paint (layer also c id).view c.newscr := by
  have hwindow : (c.invalidate id).windows id = (c.windows id).invalidate := setWindow_self ..
  rw [refreshWindow_newscr (by rw [hwindow]; rfl)]
  funext p
  rw [Painter.Layer.copy, if_pos ((layer_invalidate also c id).2 p), layer, hwindow]
  rfl

/-- Once something was painted, all that is over it is. -/
theorem refreshDialogs_true (ids : List WindowId) (c : Curses γ) :
    (refreshDialogs also true ids c).newscr =
      Painter.compose c.newscr (Painter.views (ids.map (layer also c))) := by
  induction ids generalizing c with
  | nil => rfl
  | cons id ids ih =>
    have halike := (invalidate_alike c id).trans (refreshWindow_alike also _ id)
    rw [refreshDialogs, if_pos rfl, ih, refreshWindow_invalidate, halike.views]
    rfl

theorem refreshDialogs_false (ids : List WindowId) (c : Curses γ) :
    (refreshDialogs also false ids c).newscr =
      Painter.refresh false c.newscr (ids.map (layer also c)) := by
  induction ids generalizing c with
  | nil => rfl
  | cons id ids ih =>
    rw [refreshDialogs, if_neg Bool.false_ne_true, List.map_cons, Painter.refresh]
    by_cases h : (layer also c id).isFlagged
    · rw [if_pos h, if_pos (show (c.windows id).isRefreshRequired from h), refreshDialogs_true,
        refreshWindow_newscr h, (refreshWindow_alike also c id).views, Painter.refresh_true]
    · rw [if_neg h, if_neg (show ¬(c.windows id).isRefreshRequired from h), ih]

theorem refresh_newscr (c : Curses γ) (s : ScreenId) :
    (refresh also c s).newscr =
      Painter.refresh false c.newscr ((c.windowIds s).map (layer also c)) := by
  rw [refresh, windowIds, List.map_cons, Painter.refresh]
  by_cases h : (layer also c (.screen s)).isFlagged
  · have hflag : (c.windows (.screen s)).isRefreshRequired = true := h
    rw [if_pos h, hflag, refreshDialogs_true, refreshWindow_newscr h,
      (refreshWindow_alike also c _).views, Painter.refresh_true]
  · have hflag : (c.windows (.screen s)).isRefreshRequired = false :=
      (Bool.not_eq_true _).mp h
    have hsame : refreshWindow also c (.screen s) = c := if_neg (by rw [hflag]; simp)
    rw [if_neg h, hflag, hsame, refreshDialogs_false]

/-! ## The invariant -/

/-- An open window is where it should be on the terminal. A closed dialog is placed when it is
opened. -/
structure Placed (c : Curses γ) : Prop where
  pos : 0 < c.term.x ∧ 0 < c.term.y
  fitsScreen : ∀ s, (c.windows (.screen s)).geometry.Fits c.term
  fitsDialog : ∀ d ∈ c.dialogStack, (c.windows (.dialog d)).geometry.Fits c.term
  nonneg : ∀ id, 0 ≤ (c.windows id).geometry.x.scrollPos ∧ 0 ≤ (c.windows id).geometry.y.scrollPos
  unlimited : (c.windows (.screen .connectionList)).geometry.getMaxSize = ⟨-1, -1⟩

/-- It is kept for the windows of which only what is touched is copied. -/
structure Sound (blank : γ) (c : Curses γ) : Prop where
  placed : Placed c
  oldScreen : c.currentScreen = .help → c.oldScreen = some .connectionList
  terminal : c.terminal = c.newscr
  current : ∀ p, Window.OnTerminal c.term p →
    Painter.Current (fun _ => blank) c.newscr (layers touchedOnly c) p

/-- What the topmost of the open windows has at a place. -/
def topmost (blank : γ) (c : Curses γ) (p : ℤ × ℤ) : γ :=
  ((c.windowIds c.currentScreen).reverse.findSome? fun id =>
    (c.windows id).view c.term p).getD blank

theorem compose_layers (also : WindowId → ℤ × ℤ → Bool) (c : Curses γ) (p : ℤ × ℤ) :
    Painter.compose (fun _ => blank) (Painter.views (layers also c)) p = c.topmost blank p := by
  rw [Painter.compose_eq_findSome?, topmost, layers, Painter.views, List.map_map,
    ← List.map_reverse, List.findSome?_map]
  rfl

theorem Alike.layersViews (h : Alike c c') :
    Painter.views (layers also c') = Painter.views (layers also c) := by
  rw [layers, layers, h.currentScreen, h.windowIds, h.views]

theorem Alike.topmost (h : Alike c c') : c'.topmost blank = c.topmost blank := by
  funext p
  rw [← compose_layers fun _ _ => false, ← compose_layers fun _ _ => false, h.layersViews]

/-- The terminal shows what it should. -/
def Shows (blank : γ) (c : Curses γ) : Prop :=
  ∀ p, Window.OnTerminal c.term p → c.terminal p = c.topmost blank p

theorem Placed.alike (h : Placed c) (halike : Alike c c') : Placed c' where
  pos := halike.term ▸ h.pos
  fitsScreen s := by rw [halike.geometry, halike.term]; exact h.fitsScreen s
  fitsDialog d hd := by
    rw [halike.geometry, halike.term]
    exact h.fitsDialog d (halike.dialogStack ▸ hd)
  nonneg id := by rw [halike.geometry]; exact h.nonneg id
  unlimited := by rw [halike.geometry]; exact h.unlimited

theorem Placed.fits (h : Placed c) (hid : id ∈ c.windowIds c.currentScreen) :
    (c.windows id).geometry.Fits c.term := by
  rcases List.mem_cons.mp hid with rfl | hid
  · exact h.fitsScreen _
  · obtain ⟨d, hd, rfl⟩ := List.mem_map.mp hid
    refine h.fitsDialog d ?_
    cases hs : c.currentScreen with
    | connectionList => rwa [hs] at hd
    | help => rw [hs] at hd; exact absurd hd List.not_mem_nil

theorem Placed.setWindow (h : Placed c) {w : Window γ}
    (hfits : (c.windows id).geometry.Fits c.term → w.geometry.Fits c.term)
    (hnonneg : 0 ≤ w.geometry.x.scrollPos ∧ 0 ≤ w.geometry.y.scrollPos)
    (hmax : w.geometry.getMaxSize = (c.windows id).geometry.getMaxSize) :
    Placed (c.setWindow id w) := by
  refine ⟨h.pos, fun s => ?_, fun d hd => ?_, fun id' => ?_, ?_⟩
  · by_cases hs : .screen s = id
    · subst hs
      rw [setWindow_self]
      exact hfits (h.fitsScreen s)
    · rw [setWindow_of_ne hs]
      exact h.fitsScreen s
  · by_cases hs : .dialog d = id
    · subst hs
      rw [setWindow_self]
      exact hfits (h.fitsDialog d hd)
    · rw [setWindow_of_ne hs]
      exact h.fitsDialog d hd
  · by_cases hs : id' = id
    · rw [hs, setWindow_self]
      exact hnonneg
    · rw [setWindow_of_ne hs]
      exact h.nonneg id'
  · by_cases hs : .screen .connectionList = id
    · subst hs
      rw [setWindow_self, hmax]
      exact h.unlimited
    · rw [setWindow_of_ne hs]
      exact h.unlimited

theorem Placed.isSome_view (h : Placed c) (hp : Window.OnTerminal c.term p) :
    ((c.windows (.screen .connectionList)).view c.term p).isSome :=
  Window.isSome_view_of_fits (h.fitsScreen _) h.unlimited hp

/-! ### A refresh shows what it should -/

theorem sound_of_shows (hplaced : Placed c)
    (hold : c.currentScreen = .help → c.oldScreen = some .connectionList)
    (hterminal : c.terminal = c.newscr) (hshows : Shows blank c) : Sound blank c :=
  ⟨hplaced, hold, hterminal, fun p hp =>
    .inr (((congrFun hterminal p).symm.trans (hshows p hp)).trans (compose_layers ..).symm)⟩

/-- A place that is current is so for every refresh. -/
theorem current_also (h : Painter.Current (fun _ => blank) c.newscr (layers touchedOnly c) p)
    (also : WindowId → ℤ × ℤ → Bool) :
    Painter.Current (fun _ => blank) c.newscr (layers also c) p := by
  refine h.draws ?_
  rw [layers, layers, List.forall₂_map_left_iff, List.forall₂_map_right_iff, List.forall₂_same]
  exact fun id _ => Window.draws_also (c.windows id) c.term (also id) p

/-- Where the places are current, behind `doupdate`. -/
theorem refresh_spec (hplaced : Placed c)
    (hold : c.currentScreen = .help → c.oldScreen = some .connectionList)
    (hcurrent : ∀ p, Window.OnTerminal c.term p →
      Painter.Current (fun _ => blank) c.newscr (layers touchedOnly c) p) :
    Sound blank (refresh also c c.currentScreen).doupdate ∧
      Shows blank (refresh also c c.currentScreen).doupdate := by
  have halike : Alike c (refresh also c c.currentScreen) := refresh_alike c _
  have hshows : Shows blank (refresh also c c.currentScreen).doupdate := by
    intro p hp
    have hcomposed := (current_also (hcurrent p (halike.term ▸ hp)) also).refresh
    rw [compose_layers, ← halike.topmost] at hcomposed
    exact (congrFun (refresh_newscr c _) p).trans hcomposed
  have halike' : Alike c (refresh also c c.currentScreen).doupdate :=
    halike.trans ⟨rfl, rfl, rfl, rfl, fun _ => rfl, fun _ => rfl⟩
  refine ⟨sound_of_shows (hplaced.alike halike') ?_ rfl hshows, hshows⟩
  intro hhelp
  exact halike.oldScreen.trans (hold (halike.currentScreen.symm.trans hhelp))

theorem redraw_spec (hplaced : Placed c)
    (hold : c.currentScreen = .help → c.oldScreen = some .connectionList) :
    Sound blank (refreshScreen blank also c true) ∧
      Shows blank (refreshScreen blank also c true) := by
  obtain ⟨hflag, htouched⟩ := layer_invalidate touchedOnly { c with newscr := fun _ => blank }
    (.screen c.currentScreen)
  exact refresh_spec (hplaced.alike ((newscr_alike c _).trans (invalidate_alike _ _))) hold
    fun p _ => Painter.current_of_blank hflag (htouched p) rfl

theorem Sound.refreshScreen (h : Sound blank c) (redraw : Bool) :
    Sound blank (refreshScreen blank also c redraw) ∧
      Shows blank (refreshScreen blank also c redraw) := by
  cases redraw with
  | true => exact redraw_spec h.placed h.oldScreen
  | false =>
    rw [Curses.refreshScreen, if_neg Bool.false_ne_true]
    by_cases hreq : c.isRefreshRequired c.currentScreen
    · rw [if_pos hreq]
      exact refresh_spec h.placed h.oldScreen h.current
    · rw [if_neg hreq]
      refine ⟨h, fun p hp => ?_⟩
      have hflags : ∀ l ∈ layers touchedOnly c, ¬l.isFlagged := by
        intro l hl hflag
        obtain ⟨id, hid, rfl⟩ := List.mem_map.mp hl
        exact hreq (List.any_eq_true.mpr ⟨id, hid, hflag⟩)
      rw [h.terminal, (h.current p hp).resolve_left (Painter.not_pending hflags), compose_layers]

/-! ### What changes in one window -/

theorem Sound.setWindow (h : Sound blank c) {w : Window γ}
    (hplaced : Placed (c.setWindow id w))
    (hdraws : id ∈ c.windowIds c.currentScreen → ∀ p, Window.OnTerminal c.term p →
      Painter.Draws p (layer touchedOnly c id) (layer touchedOnly (c.setWindow id w) id)) :
    Sound blank (c.setWindow id w) := by
  refine ⟨hplaced, h.oldScreen, h.terminal, fun p hp => (h.current p hp).draws ?_⟩
  have hids : (c.setWindow id w).windowIds c.currentScreen = c.windowIds c.currentScreen := by
    cases c.currentScreen <;> rfl
  change List.Forall₂ _ (layers touchedOnly c)
    (((c.setWindow id w).windowIds c.currentScreen).map (layer touchedOnly (c.setWindow id w)))
  rw [hids, layers, List.forall₂_map_left_iff, List.forall₂_map_right_iff, List.forall₂_same]
  intro id' hid'
  by_cases hid : id' = id
  · subst hid
    exact hdraws hid' p hp
  · have hlayer : layer touchedOnly (c.setWindow id w) id' = layer touchedOnly c id' := by
      rw [layer, setWindow_of_ne hid]
      rfl
    rw [hlayer]
    exact .refl p _

theorem layer_setWindow (also : WindowId → ℤ × ℤ → Bool) (c : Curses γ) (id : WindowId)
    (w : Window γ) : layer also (c.setWindow id w) id = w.layer c.term (also id) := by
  rw [layer, setWindow_self]
  rfl

theorem Sound.draw [DecidableEq γ] (h : Sound blank c) (id : WindowId) (cells : ℤ → ℤ → γ) :
    Sound blank (c.draw id cells) := by
  refine h.setWindow (h.placed.setWindow (fun h => h) (h.placed.nonneg id) rfl) fun _ p _ => ?_
  rw [layer_setWindow]
  exact Window.draws_draw _ _ _ p cells

theorem Sound.scroll (h : Sound blank c) (id : WindowId) (key : Key) :
    Sound blank (c.scroll id key) := by
  unfold Curses.scroll
  split_ifs with hid
  · cases hw : (c.windows id).scroll c.term key with
    | none => exact h
    | some w =>
      have hfits := h.placed.fits hid
      obtain ⟨geometry, hg, rfl⟩ := Option.map_eq_some_iff.mp hw
      have hfits' := ScreenGeometry.scroll_fits hfits hg
      refine h.setWindow (h.placed.setWindow (fun _ => hfits') ⟨hfits'.1.nonneg, hfits'.2.nonneg⟩
        (ScreenGeometry.scroll_limits hg).2.1) fun _ p hp => ?_
      rw [layer_setWindow]
      exact Window.draws_of_invalidated rfl rfl (Window.isSome_view_scroll hfits hp hw)
  · exact h

theorem Sound.setMinSize [DecidableEq γ] (h : Sound blank c) (minSize : ScreenSize)
    (cells : ℤ → ℤ → γ) : Sound blank (c.setMinSize minSize cells) := by
  unfold Curses.setMinSize
  generalize hw : (c.windows (.screen .connectionList)).setMinSize c.term minSize cells = w
  have hgeometry : w.geometry =
      (c.windows (.screen .connectionList)).geometry.setMinSize c.term minSize := by
    rw [← hw]
    exact Window.setMinSize_geometry minSize cells
  have hfits : w.geometry.Fits c.term :=
    hgeometry ▸ ScreenGeometry.setMinSize_fits (h.placed.fitsScreen _) minSize
  have hplaced : Placed (c.setWindow (.screen .connectionList) w) :=
    h.placed.setWindow (fun _ => hfits) ⟨hfits.1.nonneg, hfits.2.nonneg⟩
      (hgeometry ▸ (ScreenGeometry.setMinSize_limits _ _ _).2)
  refine h.setWindow hplaced fun _ p hp => ?_
  rw [layer_setWindow]
  have hcases := @Window.setMinSize_cases γ (c.windows (.screen .connectionList)) c.term _ minSize
    cells
  rcases hcases with ⟨hflag, htouched⟩ | hsame
  · rw [hw] at hflag htouched
    have hcovers := hplaced.isSome_view hp
    rw [setWindow_self] at hcovers
    exact Window.draws_of_invalidated hflag htouched (hcovers.trans (h.placed.isSome_view hp).symm)
  · rw [hw] at hsame
    rw [hsame]
    exact .refl p _

/-! ### Dialogs -/

/-- What stays as it is while dialogs are opened and closed. -/
structure Frame (c c' : Curses γ) : Prop where
  term : c'.term = c.term
  newscr : c'.newscr = c.newscr
  terminal : c'.terminal = c.terminal
  currentScreen : c'.currentScreen = c.currentScreen
  oldScreen : c'.oldScreen = c.oldScreen
  screens : ∀ s, c'.windows (.screen s) = c.windows (.screen s)

theorem Frame.refl (c : Curses γ) : Frame c c := ⟨rfl, rfl, rfl, rfl, rfl, fun _ => rfl⟩

theorem Frame.trans (h : Frame c c') (h' : Frame c' c'') : Frame c c'' where
  term := h'.term.trans h.term
  newscr := h'.newscr.trans h.newscr
  terminal := h'.terminal.trans h.terminal
  currentScreen := h'.currentScreen.trans h.currentScreen
  oldScreen := h'.oldScreen.trans h.oldScreen
  screens s := (h'.screens s).trans (h.screens s)

theorem setWindow_frame (c : Curses γ) (d : DialogId) (w : Window γ) :
    Frame c (c.setWindow (.dialog d) w) :=
  ⟨rfl, rfl, rfl, rfl, rfl, fun _ => setWindow_of_ne WindowId.noConfusion c w⟩

/-- Whatever the stack is: below it the list is painted in full. -/
theorem Sound.of_invalidated (h : Sound blank c) (hframe : Frame c c')
    (hplaced : Placed (c'.invalidate (.screen .connectionList))) :
    Sound blank (c'.invalidate (.screen .connectionList)) := by
  refine ⟨hplaced, ?_, hframe.terminal.trans (h.terminal.trans hframe.newscr.symm), fun p hp => ?_⟩
  · intro hhelp
    exact hframe.oldScreen.trans (h.oldScreen (hframe.currentScreen.symm.trans hhelp))
  have hids : (c'.invalidate (.screen .connectionList)).windowIds c'.currentScreen =
      c'.windowIds c'.currentScreen := (invalidate_alike c' _).windowIds _
  have hlayers : layers touchedOnly (c'.invalidate (.screen .connectionList)) =
      (c'.windowIds c'.currentScreen).map
        (layer touchedOnly (c'.invalidate (.screen .connectionList))) :=
    congrArg (List.map (layer touchedOnly (c'.invalidate (.screen .connectionList)))) hids
  rw [hlayers]
  cases hs : c'.currentScreen with
  | connectionList =>
    obtain ⟨hflag, htouched⟩ := layer_invalidate touchedOnly c' (.screen .connectionList)
    exact Painter.current_of_covered hflag (htouched p)
      (Painter.covered_cons.mpr (.inl (hplaced.isSome_view hp)))
  | help =>
    have hcurrent := h.current p (hframe.term ▸ hp)
    have hlayer : layer touchedOnly (c'.invalidate (.screen .connectionList)) (.screen .help) =
        layer touchedOnly c (.screen .help) := by
      have hwindow : (c'.invalidate (.screen .connectionList)).windows (.screen .help) =
          c.windows (.screen .help) :=
        (setWindow_of_ne (by decide) c' _).trans (hframe.screens .help)
      rw [layer, layer, hwindow]
      exact congrArg (fun term => Painter.Layer.mk (Window.view _ term)
        (fun p => Window.touches _ term p || touchedOnly _ p) _) hframe.term
    rw [layers, ← hframe.currentScreen, hs] at hcurrent
    change Painter.Current _ c'.newscr [layer touchedOnly (c'.invalidate _) (.screen .help)] p
    rw [hlayer, hframe.newscr]
    exact hcurrent

theorem foldl_invalidate (ds : List DialogId) (c : Curses γ) :
    Frame c (ds.foldl (fun c d => c.invalidate (.dialog d)) c) ∧
      Alike c (ds.foldl (fun c d => c.invalidate (.dialog d)) c) := by
  induction ds generalizing c with
  | nil => exact ⟨Frame.refl c, Alike.refl c⟩
  | cons d ds ih =>
    obtain ⟨hframe, halike⟩ := ih (c.invalidate (.dialog d))
    exact ⟨(setWindow_frame c d _).trans hframe, (invalidate_alike c _).trans halike⟩

theorem foldl_invalidate_comm (ds : List DialogId) (c : Curses γ) :
    ds.foldl (fun c d => c.invalidate (.dialog d)) (c.invalidate (.screen .connectionList)) =
      (ds.foldl (fun c d => c.invalidate (.dialog d)) c).invalidate (.screen .connectionList) := by
  induction ds generalizing c with
  | nil => rfl
  | cons d ds ih =>
    rw [List.foldl_cons, List.foldl_cons, ← ih]
    congr 1
    have hcomm := Function.update_comm (a := WindowId.screen .connectionList) (b := .dialog d)
      WindowId.noConfusion (c.windows (.screen .connectionList)).invalidate
      (c.windows (.dialog d)).invalidate c.windows
    have hne : WindowId.dialog d ≠ .screen .connectionList := WindowId.noConfusion
    simp only [invalidate, Curses.setWindow, Function.update_of_ne hne,
      Function.update_of_ne hne.symm, hcomm]

/-- A dialog that was closed is placed. -/
theorem Placed.open [DecidableEq γ] (h : Placed c) (d : DialogId) (cells : ℤ → ℤ → γ) :
    Placed { c.setWindow (.dialog d) ((c.windows (.dialog d)).onResize c.term cells) with
      dialogStack := c.dialogStack ++ [d] } := by
  have hgeometry : ((c.windows (.dialog d)).onResize c.term cells).geometry =
      (c.windows (.dialog d)).geometry.onResize c.term := Window.onResize_geometry cells
  have hfits : ((c.windows (.dialog d)).geometry.onResize c.term).Fits c.term :=
    ScreenGeometry.onResize_fits (h.nonneg (.dialog d)).1 (h.nonneg (.dialog d)).2
  have hplaced : Placed (c.setWindow (.dialog d) ((c.windows (.dialog d)).onResize c.term cells)) :=
    h.setWindow (fun _ => hgeometry ▸ hfits) (hgeometry ▸ ⟨hfits.1.nonneg, hfits.2.nonneg⟩)
      (hgeometry ▸ (ScreenGeometry.onResize_limits _ _).2)
  refine ⟨hplaced.pos, hplaced.fitsScreen, fun e he => ?_, hplaced.nonneg, hplaced.unlimited⟩
  rcases List.mem_append.mp he with he | he
  · exact hplaced.fitsDialog e he
  · rw [List.mem_singleton.mp he, ← hgeometry] at *
    dsimp only
    rw [setWindow_self]
    exact hfits

theorem Sound.pushDialog [DecidableEq γ] (h : Sound blank c) (d : DialogId)
    (cells : ℤ → ℤ → γ) : Sound blank (c.pushDialog d cells) := by
  unfold Curses.pushDialog
  split_ifs with hd
  · exact h
  · dsimp only
    rw [foldl_invalidate_comm]
    generalize hc' : Curses.mk _ _ _ _ _ _ _ = c'
    have hplaced : Placed c' := hc' ▸ h.placed.open d cells
    have hframe : Frame c c' := by
      obtain ⟨hterm, hnewscr, hterminal, hcurrent, hold, hscreens⟩ := setWindow_frame c d
        ((c.windows (.dialog d)).onResize c.term cells)
      exact hc' ▸ ⟨hterm, hnewscr, hterminal, hcurrent, hold, hscreens⟩
    obtain ⟨hframe', halike⟩ := foldl_invalidate (c.dialogStack ++ [d]) c'
    exact h.of_invalidated (hframe.trans hframe')
      (hplaced.alike (halike.trans (invalidate_alike _ _)))

/-- The windows are what they were but for repainting, and the stack has no other dialogs. -/
theorem removeLoop_spec (d : DialogId) (removed : Bool) (es : List DialogId) (c : Curses γ) :
    Frame c (removeLoop d removed es c).2.2 ∧ Alike c (removeLoop d removed es c).2.2 ∧
      (removeLoop d removed es c).2.1 = es.filter (· ≠ d) ∧
      ((removeLoop d removed es c).1 = false →
        removed = false ∧ (removeLoop d removed es c).2 = (es, c)) := by
  induction es generalizing removed c with
  | nil => exact ⟨Frame.refl c, Alike.refl c, rfl, fun h => ⟨h, rfl⟩⟩
  | cons e es ih =>
    rw [removeLoop]
    by_cases he : e = d
    · obtain ⟨hframe, halike, hstack, hnone⟩ := ih true c
      rw [if_pos he]
      refine ⟨hframe, halike, ?_, fun h => absurd (hnone h).1 Bool.noConfusion⟩
      rw [hstack, List.filter_cons_of_neg (by simp [he])]
    · rw [if_neg he]
      obtain ⟨hframe, halike, hstack, hnone⟩ :=
        ih removed (if removed then c.invalidate (.dialog e) else c)
      refine ⟨?_, ?_, ?_, fun h => ?_⟩
      · refine Frame.trans ?_ hframe
        split_ifs
        · exact setWindow_frame c e _
        · exact Frame.refl c
      · refine Alike.trans ?_ halike
        split_ifs
        · exact invalidate_alike c _
        · exact Alike.refl c
      · dsimp only
        rw [hstack, List.filter_cons_of_pos (by simp [he])]
      · obtain ⟨hremoved, hsame⟩ := hnone h
        subst hremoved
        obtain ⟨hes, hc⟩ := Prod.ext_iff.mp hsame
        exact ⟨rfl, Prod.ext (congrArg (e :: ·) hes) hc⟩

theorem Sound.removeDialog (h : Sound blank c) (d : DialogId) :
    Sound blank (c.removeDialog d) := by
  obtain ⟨hframe, halike, hstack, hnone⟩ := removeLoop_spec d false c.dialogStack c
  unfold Curses.removeDialog
  generalize removeLoop d false c.dialogStack c = r at hframe halike hstack hnone ⊢
  obtain ⟨removed, stack, c'⟩ := r
  dsimp only at hframe halike hstack hnone ⊢
  cases removed with
  | false =>
    obtain ⟨-, hsame⟩ := hnone rfl
    obtain ⟨rfl, rfl⟩ := Prod.mk.inj hsame
    exact h
  | true =>
    rw [if_pos rfl]
    have hplaced := h.placed.alike halike
    refine h.of_invalidated ⟨hframe.1, hframe.2, hframe.3, hframe.4, hframe.5, hframe.6⟩
      (Placed.alike ?_ (invalidate_alike _ _))
    refine ⟨hplaced.pos, hplaced.fitsScreen, fun e he => hplaced.fitsDialog e ?_, hplaced.nonneg,
      hplaced.unlimited⟩
    rw [halike.dialogStack]
    exact List.mem_of_mem_filter (hstack ▸ he)

/-! ### Screens -/

theorem Placed.show (h : Placed c) (s : ScreenId) (old : Option ScreenId) :
    Placed { c with currentScreen := s, oldScreen := old } :=
  ⟨h.pos, h.fitsScreen, h.fitsDialog, h.nonneg, h.unlimited⟩

theorem Sound.nextScreen (h : Sound blank c) : Sound blank (nextScreen blank also c) := by
  unfold Curses.nextScreen
  split_ifs with hs
  · exact (redraw_spec (h.placed.show .connectionList c.oldScreen) nofun).1
  · exact h

theorem Sound.showHelp (h : Sound blank c) : Sound blank (showHelp blank also c) := by
  unfold Curses.showHelp
  split_ifs with hs
  · refine (redraw_spec (h.placed.show .help (some c.currentScreen)) fun _ => ?_).1
    cases hc : c.currentScreen with
    | connectionList => rfl
    | help => exact absurd hc hs
  · exact h

theorem Sound.closeHelp (h : Sound blank c) : Sound blank (closeHelp blank also c) := by
  unfold Curses.closeHelp
  split_ifs with hs
  · rw [h.oldScreen hs]
    exact (redraw_spec (h.placed.show .connectionList (some .connectionList)) nofun).1
  · exact h

theorem Placed.onResize [DecidableEq γ] (h : Placed c) {size : ScreenSize} (hx : 0 < size.x)
    (hy : 0 < size.y) (cells : WindowId → ℤ → ℤ → γ) : Placed (c.onResize size cells) := by
  have hfits : ∀ id, ((c.windows id).onResize size (cells id)).geometry.Fits size := by
    intro id
    rw [Window.onResize_geometry]
    exact ScreenGeometry.onResize_fits (h.nonneg id).1 (h.nonneg id).2
  refine ⟨⟨hx, hy⟩, fun s => hfits _, fun d hd => ?_, fun id => ?_, ?_⟩
  · dsimp only [Curses.onResize] at hd ⊢
    rw [if_pos hd]
    exact hfits _
  · cases id with
    | screen s => exact ⟨(hfits _).1.nonneg, (hfits _).2.nonneg⟩
    | dialog d =>
      dsimp only [Curses.onResize]
      split_ifs
      · exact ⟨(hfits _).1.nonneg, (hfits _).2.nonneg⟩
      · exact h.nonneg (.dialog d)
  · dsimp only [Curses.onResize]
    rw [Window.onResize_geometry, (ScreenGeometry.onResize_limits _ size).2]
    exact h.unlimited

theorem Sound.resizeScreen [DecidableEq γ] (h : Sound blank c) (size : ScreenSize)
    (newscr : ℤ × ℤ → γ) (cells : WindowId → ℤ → ℤ → γ) :
    Sound blank (resizeScreen blank also c size newscr cells) := by
  unfold Curses.resizeScreen
  split_ifs with hsize
  · have hplaced := h.placed.onResize hsize.1 hsize.2.1 cells
    exact (redraw_spec (hplaced.alike (newscr_alike _ newscr)) h.oldScreen).1
  · exact h

/-! ## Runs -/

theorem Sound.step [DecidableEq γ] (h : Sound blank c) (op : Op γ) :
    Sound blank (step blank c op) := by
  cases op with
  | draw id cells => exact h.draw id cells
  | scroll id key => exact h.scroll id key
  | setMinSize minSize cells => exact h.setMinSize minSize cells
  | pushDialog d cells => exact h.pushDialog d cells
  | removeDialog d => exact h.removeDialog d
  | resizeScreen also size newscr cells => exact h.resizeScreen size newscr cells
  | nextScreen also | prevScreen also => exact h.nextScreen
  | showHelp also => exact h.showHelp
  | closeHelp also => exact h.closeHelp
  | refreshScreen also redraw => exact (h.refreshScreen redraw).1

theorem init_sound [DecidableEq γ] (blank : γ) {term : ScreenSize} (hx : 0 < term.x)
    (hy : 0 < term.y) (cells : WindowId → ℤ → ℤ → γ) :
    Sound blank (init blank term cells) := by
  have hfits : ∀ id, ((init blank term cells).windows id).geometry.Fits term :=
    fun id => ScreenGeometry.init_fits _ _
  refine ⟨⟨⟨hx, hy⟩, fun s => hfits _, fun d _ => hfits _,
    fun id => ⟨(hfits id).1.nonneg, (hfits id).2.nonneg⟩,
    (ScreenGeometry.init_limits _ _ _).2⟩, nofun, rfl, fun p _ => ?_⟩
  -- The blank window shows what the blank terminal does, then it is drawn.
  refine Painter.Current.draws (.inr ?_)
    (.cons (Window.draws_draw _ term (touchedOnly (.screen .connectionList)) p _) .nil)
  simp only [Painter.views, List.map_cons, List.map_nil, Painter.compose, Painter.paint,
    Window.layer, Window.view]
  cases Window.padPos _ term p <;> rfl

theorem run_sound [DecidableEq γ] (blank : γ) {term : ScreenSize} (hx : 0 < term.x)
    (hy : 0 < term.y) (cells : WindowId → ℤ → ℤ → γ) (ops : List (Op γ)) :
    Sound blank (run blank (init blank term cells) ops) := by
  have hstep : ∀ c op, Sound blank c → Sound blank (step blank c op) := fun c op h => h.step op
  exact GuardedRun.foldl_inv hstep ops _ (init_sound blank hx hy cells)

/-- **After any run, a refresh leaves on the terminal what the topmost window shows there.** -/
theorem run_shows_topmost [DecidableEq γ] (blank : γ) (also : WindowId → ℤ × ℤ → Bool)
    {term : ScreenSize} (hx : 0 < term.x) (hy : 0 < term.y) (cells : WindowId → ℤ → ℤ → γ)
    (ops : List (Op γ)) (redraw : Bool) :
    let c := refreshScreen blank also (run blank (init blank term cells) ops) redraw
    ∀ p, Window.OnTerminal c.term p → c.terminal p = c.topmost blank p :=
  ((run_sound blank hx hy cells ops).refreshScreen redraw).2

theorem run_shows_topmost_dialog :
    let c := refreshScreen false touchedOnly (run false (init false ⟨100, 30⟩ fun _ _ _ => false)
      [.pushDialog .sort fun _ _ => false, .showHelp touchedOnly, .closeHelp fun _ _ => true,
        .draw (.dialog .sort) fun _ _ => true]) false
    c.terminal (50, 15) = c.topmost false (50, 15) ∧ c.topmost false (50, 15) = true :=
  ⟨run_shows_topmost false _ (by decide) (by decide) _ _ false (50, 15) (by decide), by decide⟩

end Curses

end Conntop
