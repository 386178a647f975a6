import Mathlib.Data.List.Basic
import Mathlib.Logic.Function.Basic

/-!
# Pads of a terminal library

A pad has cells, a position and an attribute. The library is a parameter: `PadLibrary` has its
calls, and `LawfulPadLibrary` says what they do, as far as texts go that take one cell for each
byte.

* `PadView` is what a program sees of a pad. Writing a character sets the cell at the position and
  moves on, behind the end of a row to the next one. The corner of the last row is where writing
  stops: the character is there, the position stays, and a string is given up.
* `IsPlain`: the pads on which nothing else was written. The laws are about these.
* `overwrite` puts cells over a row from a column on.
* `Wrote p q cs` says that `q` is `p` with the cells `cs` written from its position on, all in one
  row, and `Put p q y x cs` that they were put at a place of its own.

Main results: `wrote_addstr` and `Wrote.append`. What fits in the row is written where it should be,
and nothing else changes.
-/

/-! ## Rows -/

section Overwrite

variable {γ : Type*}

/-- A row with cells put over it from a column on. -/
def overwrite (f : ℕ → γ) (x : ℕ) (cs : List γ) (i : ℕ) : γ :=
  if x ≤ i then (cs[i - x]?).getD (f i) else f i

variable {f : ℕ → γ} {x i : ℕ} {cs ds : List γ}

@[simp] theorem overwrite_nil : overwrite f x [] = f := by
  funext i
  simp [overwrite]

theorem overwrite_of_lt (h : i < x) : overwrite f x cs i = f i := if_neg (Nat.not_le.mpr h)

theorem overwrite_of_le (h : x + cs.length ≤ i) : overwrite f x cs i = f i := by
  unfold overwrite
  split_ifs with hx
  · rw [List.getElem?_eq_none (by omega)]
    rfl
  · rfl

theorem overwrite_add (h : i < cs.length) : overwrite f x cs (x + i) = cs[i] := by
  unfold overwrite
  rw [if_pos (Nat.le_add_right x i), Nat.add_sub_cancel_left, List.getElem?_eq_getElem h]
  rfl

theorem overwrite_cons (c : γ) : overwrite f x (c :: cs) =
    overwrite (Function.update f x c) (x + 1) cs := by
  funext i
  unfold overwrite
  rcases Nat.lt_trichotomy i x with h | rfl | h
  · rw [if_neg (by omega), if_neg (by omega), Function.update_of_ne (by omega)]
  · rw [if_pos (Nat.le_refl i), if_neg (by omega), Nat.sub_self, Function.update_self]
    rfl
  · have hsub : i - x = i - (x + 1) + 1 := by omega
    rw [if_pos (by omega), if_pos (by omega), Function.update_of_ne (by omega), hsub,
      List.getElem?_cons_succ]

/-- Two writings one behind the other are one. -/
theorem overwrite_append :
    overwrite f x (cs ++ ds) = overwrite (overwrite f x cs) (x + cs.length) ds := by
  induction cs generalizing f x with
  | nil => simp
  | cons c cs ih =>
    rw [List.cons_append, overwrite_cons, ih, ← overwrite_cons, List.length_cons,
      Nat.add_right_comm, Nat.add_assoc]

/-- Cells that are there already. -/
theorem overwrite_eq_self (h : ∀ i (hi : i < cs.length), f (x + i) = cs[i]) :
    overwrite f x cs = f := by
  funext i
  by_cases hi : i < x ∨ x + cs.length ≤ i
  · rcases hi with hi | hi
    · exact overwrite_of_lt hi
    · exact overwrite_of_le hi
  · have hadd : i = x + (i - x) := by omega
    rw [hadd, overwrite_add (by omega), h (i - x) (by omega)]

end Overwrite

/-! ## Texts -/

/-- A byte that is a character of one cell. -/
def IsPrintable (c : Char) : Prop := 32 ≤ c.toNat ∧ c.toNat < 127

instance : DecidablePred IsPrintable := fun _ => inferInstanceAs (Decidable (_ ∧ _))

/-- A text that takes one cell for each byte. -/
def IsText (s : List Char) : Prop := ∀ c ∈ s, IsPrintable c

instance : DecidablePred IsText := fun s => List.decidableBAll IsPrintable s

section Texts

variable {s t : List Char} {c : Char}

theorem isText_nil : IsText [] := fun _ h => absurd h List.not_mem_nil

theorem isText_cons : IsText (c :: s) ↔ IsPrintable c ∧ IsText s := List.forall_mem_cons

theorem isText_append : IsText (s ++ t) ↔ IsText s ∧ IsText t := List.forall_mem_append

theorem IsText.append (hs : IsText s) (ht : IsText t) : IsText (s ++ t) :=
  isText_append.mpr ⟨hs, ht⟩

theorem IsText.take (h : IsText s) (n : ℕ) : IsText (s.take n) :=
  fun c hc => h c (List.mem_of_mem_take hc)

theorem isText_toDigits (n : ℕ) : IsText (Nat.toDigits 10 n) := by
  intro c hc
  have hdigit := Nat.isDigit_of_mem_toDigits (by decide) (by decide) hc
  rw [Char.isDigit, Bool.and_eq_true, decide_eq_true_eq, decide_eq_true_eq] at hdigit
  have hle : 48 ≤ c.toNat := hdigit.1
  have hge : c.toNat ≤ 57 := hdigit.2
  exact ⟨by omega, by omega⟩

end Texts

/-! ## What is seen -/

/-- Outside the pad there are blanks. -/
structure PadView (α : Type) where
  width : ℕ
  height : ℕ
  cells : ℕ → ℕ → Char × α
  y : ℕ := 0
  x : ℕ := 0
  attr : α

namespace PadView

variable {α : Type} (v : PadView α)

/-- A position outside is refused. -/
def move (y x : ℕ) : PadView α := if y < v.height ∧ x < v.width then { v with y, x } else v

/-- Writing a character here is the end. -/
def AtCorner : Prop := v.width ≤ v.x + 1 ∧ v.height ≤ v.y + 1

instance : Decidable v.AtCorner := inferInstanceAs (Decidable (_ ∧ _))

def addch (c : Char) : PadView α :=
  let v' := { v with
    cells := Function.update v.cells v.y (Function.update (v.cells v.y) v.x (c, v.attr)) }
  if v.x + 1 < v.width then { v' with x := v.x + 1 }
  else if v.y + 1 < v.height then { v' with y := v.y + 1, x := 0 }
  else v'

def addstr (v : PadView α) : List Char → PadView α
  | [] => v
  | c :: cs => if v.AtCorner then v.addch c else addstr (v.addch c) cs

def OnBorder (y x : ℕ) : Prop :=
  (y < v.height ∧ x < v.width) ∧ (y = 0 ∨ y + 1 = v.height ∨ x = 0 ∨ x + 1 = v.width)

instance (y x : ℕ) : Decidable (v.OnBorder y x) := inferInstanceAs (Decidable (_ ∧ _))

/-- The position stays where it is. -/
def box (border : ℕ → ℕ → Char × α) : PadView α :=
  { v with cells := fun y x => if v.OnBorder y x then border y x else v.cells y x }

section

variable [Inhabited α]

def blank : Char × α := (' ', default)

def new (width height : ℕ) : PadView α :=
  { width, height, cells := fun _ _ => blank, attr := default }

def erase : PadView α := { v with cells := fun _ _ => blank, y := 0, x := 0 }

def resize (width height : ℕ) : PadView α :=
  { v with
    width
    height
    cells := fun i j =>
      if (i < v.height ∧ j < v.width) ∧ i < height ∧ j < width then v.cells i j else blank
    y := min v.y (height - 1)
    x := min v.x (width - 1) }

end

/-- The position is in the pad. -/
def InRange : Prop := v.y < v.height ∧ v.x < v.width

end PadView

/-! ## The library -/

/-- The calls of a terminal library on its pads. -/
class PadLibrary (α : Type) where
  Carrier : Type
  view : Carrier → PadView α
  newpad : (width height : ℕ) → Carrier
  move : Carrier → (y x : ℕ) → Carrier
  addch : Carrier → Char → Carrier
  addstr : Carrier → List Char → Carrier
  attron : Carrier → α → Carrier
  attroff : Carrier → α → Carrier
  erase : Carrier → Carrier
  resize : Carrier → (width height : ℕ) → Carrier
  box : Carrier → Carrier
  /-- The lines of a box. -/
  border : (width height : ℕ) → α → (y x : ℕ) → Char × α

def Pad (α : Type) [PadLibrary α] : Type := PadLibrary.Carrier α

namespace Pad

section Calls

variable {α : Type} [PadLibrary α] (p : Pad α)

def view : PadView α := PadLibrary.view p

def width : ℕ := p.view.width

def height : ℕ := p.view.height

def cells : ℕ → ℕ → Char × α := p.view.cells

def y : ℕ := p.view.y

def x : ℕ := p.view.x

def attr : α := p.view.attr

def new (width height : ℕ) : Pad α := PadLibrary.newpad width height

def move (y x : ℕ) : Pad α := PadLibrary.move p y x

def addch (c : Char) : Pad α := PadLibrary.addch p c

def addstr (s : List Char) : Pad α := PadLibrary.addstr p s

def attron (attr : α) : Pad α := PadLibrary.attron p attr

def attroff (attr : α) : Pad α := PadLibrary.attroff p attr

def erase : Pad α := PadLibrary.erase p

def resize (width height : ℕ) : Pad α := PadLibrary.resize p width height

def box : Pad α := PadLibrary.box p

/-- `n` blanks, one by one. -/
def fill (p : Pad α) : ℕ → Pad α
  | 0 => p
  | n + 1 => fill (p.addch ' ') n

end Calls

/-- Nothing was written but characters of one cell, and attributes one at a time. -/
inductive IsPlain {α : Type} [Inhabited α] [PadLibrary α] : Pad α → Prop
  | new {width height : ℕ} : 0 < width → 0 < height → IsPlain (.new width height)
  | move {p : Pad α} (y x : ℕ) : IsPlain p → IsPlain (p.move y x)
  | addch {p : Pad α} {c : Char} : IsPlain p → IsPrintable c → IsPlain (p.addch c)
  | addstr {p : Pad α} {s : List Char} : IsPlain p → IsText s → IsPlain (p.addstr s)
  | attron {p : Pad α} (a : α) : IsPlain p → p.attr = default → IsPlain (p.attron a)
  | attroff {p : Pad α} {a : α} : IsPlain p → p.attr = a → IsPlain (p.attroff a)
  | erase {p : Pad α} : IsPlain p → IsPlain p.erase
  | resize {p : Pad α} {width height : ℕ} :
    IsPlain p → 0 < width → 0 < height → IsPlain (p.resize width height)
  | box {p : Pad α} : IsPlain p → IsPlain p.box

end Pad

/-- What the manual says of the calls. -/
class LawfulPadLibrary (α : Type) [Inhabited α] [PadLibrary α] : Prop where
  view_new : ∀ {width height : ℕ}, 0 < width → 0 < height →
    (Pad.new width height : Pad α).view = .new width height
  view_move : ∀ {p : Pad α} (y x : ℕ), p.IsPlain → (p.move y x).view = p.view.move y x
  view_addch : ∀ {p : Pad α} {c : Char}, p.IsPlain → IsPrintable c →
    (p.addch c).view = p.view.addch c
  view_addstr : ∀ {p : Pad α} {s : List Char}, p.IsPlain → IsText s →
    (p.addstr s).view = p.view.addstr s
  view_attron : ∀ {p : Pad α} (a : α), p.IsPlain → p.attr = default →
    (p.attron a).view = { p.view with attr := a }
  view_attroff : ∀ {p : Pad α} {a : α}, p.IsPlain → p.attr = a →
    (p.attroff a).view = { p.view with attr := default }
  view_erase : ∀ {p : Pad α}, p.IsPlain → p.erase.view = p.view.erase
  view_resize : ∀ {p : Pad α} {width height : ℕ}, p.IsPlain → 0 < width → 0 < height →
    (p.resize width height).view = p.view.resize width height
  view_box : ∀ {p : Pad α}, p.IsPlain →
    p.box.view = p.view.box (PadLibrary.border p.width p.height p.attr)

/-! ### A library that does just this -/

namespace PadView

def borderChar (width height y x : ℕ) : Char :=
  if y = 0 ∨ y + 1 = height then if x = 0 ∨ x + 1 = width then '+' else '-' else '|'

/-- A pad is what is seen of it. -/
@[reducible] def library (α : Type) [Inhabited α] : PadLibrary α where
  Carrier := PadView α
  view := id
  newpad := new
  move := move
  addch := addch
  addstr := addstr
  attron v a := { v with attr := a }
  attroff v _ := { v with attr := default }
  erase v := v.erase
  resize v width height := v.resize width height
  box v := v.box fun y x => (borderChar v.width v.height y x, v.attr)
  border width height attr y x := (borderChar width height y x, attr)

theorem library_lawful (α : Type) [Inhabited α] : @LawfulPadLibrary α _ (library α) :=
  let := library α
  ⟨fun _ _ => rfl, fun _ _ _ => rfl, fun _ _ => rfl, fun _ _ => rfl, fun _ _ _ => rfl,
    fun _ _ => rfl, fun _ => rfl, fun _ _ _ => rfl, fun _ => by
      unfold Pad.box Pad.view
      rfl⟩

end PadView

/-! ## What is written -/

namespace PadView

variable {α : Type} {v w u : PadView α} {c : Char} {s : List Char} {cs ds : List (Char × α)}

/-- What is written fits in the row: the cells are there, all others are as before, and unless the
row is full, the position is behind. -/
structure Wrote (v w : PadView α) (cs : List (Char × α)) : Prop where
  width : w.width = v.width
  height : w.height = v.height
  attr : w.attr = v.attr
  cells : w.cells = Function.update v.cells v.y (overwrite (v.cells v.y) v.x cs)
  pos : v.x + cs.length < v.width → w.y = v.y ∧ w.x = v.x + cs.length
  inRange : w.InRange

theorem Wrote.refl (hv : v.InRange) : Wrote v v [] :=
  ⟨rfl, rfl, rfl, by simp, fun _ => ⟨rfl, rfl⟩, hv⟩

/-- Behind a full row nothing more is written. -/
theorem Wrote.append (h : Wrote v w cs) (hds : ds ≠ [] → Wrote w u ds) (hu : ds = [] → u = w)
    (hfits : v.x + (cs ++ ds).length ≤ v.width) : Wrote v u (cs ++ ds) := by
  rw [List.length_append] at hfits
  cases ds with
  | nil =>
    rw [hu rfl, List.append_nil]
    exact h
  | cons d ds =>
    have h' := hds (List.cons_ne_nil d ds)
    rw [List.length_cons] at hfits
    obtain ⟨hy, hx⟩ := h.pos (by omega)
    refine ⟨h'.width.trans h.width, h'.height.trans h.height, h'.attr.trans h.attr, ?_,
      fun hlt => ?_, h'.inRange⟩
    · rw [h'.cells, h.cells, hy, hx, Function.update_self, Function.update_idem,
        ← overwrite_append]
    · rw [List.length_append, List.length_cons] at hlt ⊢
      obtain ⟨hy', hx'⟩ := h'.pos (by rw [h.width, hx, List.length_cons]; omega)
      exact ⟨hy'.trans hy, by rw [hx', hx, List.length_cons, Nat.add_assoc]⟩

theorem wrote_addch (c : Char) (hv : v.InRange) : Wrote v (v.addch c) [(c, v.attr)] := by
  obtain ⟨hy, hx⟩ := hv
  have hcells : overwrite (v.cells v.y) v.x [(c, v.attr)] =
      Function.update (v.cells v.y) v.x (c, v.attr) := by
    rw [overwrite_cons, overwrite_nil]
  unfold addch
  split_ifs with hnext hrow
  · exact ⟨rfl, rfl, rfl, by rw [hcells], fun _ => ⟨rfl, rfl⟩, hy, hnext⟩
  · exact ⟨rfl, rfl, rfl, by rw [hcells], fun h => absurd h hnext, hrow, Nat.zero_lt_of_lt hx⟩
  · exact ⟨rfl, rfl, rfl, by rw [hcells], fun h => absurd h hnext, hy, hx⟩

theorem wrote_addstr (s : List Char) (hv : v.InRange) (hfits : v.x + s.length ≤ v.width) :
    Wrote v (v.addstr s) (s.map fun c => (c, v.attr)) := by
  induction s generalizing v with
  | nil => exact .refl hv
  | cons c s ih =>
    rw [List.length_cons] at hfits
    have hc := wrote_addch c hv
    unfold addstr
    by_cases hlast : v.x + 1 < v.width
    · obtain ⟨hy, hx⟩ := hc.pos hlast
      have hs := ih hc.inRange (by rw [hc.width, hx, List.length_singleton]; omega)
      rw [if_neg fun h => absurd h.1 (Nat.not_le.mpr hlast), List.map_cons]
      rw [hc.attr] at hs
      refine hc.append (fun _ => hs) (fun hnil => ?_) ?_
      · rw [List.map_eq_nil_iff.mp hnil]
        rfl
      · rw [List.length_append, List.length_map, List.length_singleton]
        omega
    · obtain rfl : s = [] := List.length_eq_zero_iff.mp (by omega)
      split_ifs <;> exact hc

theorem inRange_addstr (s : List Char) (hv : v.InRange) : (v.addstr s).InRange := by
  induction s generalizing v with
  | nil => exact hv
  | cons c s ih =>
    have hc := (wrote_addch c hv).inRange
    unfold addstr
    split_ifs
    · exact hc
    · exact ih hc

theorem inRange_move (y x : ℕ) (hv : v.InRange) : (v.move y x).InRange := by
  unfold move
  split_ifs with h
  · exact h
  · exact hv

/-- In the last row the position stays in it. -/
theorem y_addch (c : Char) (hlast : v.height ≤ v.y + 1) : (v.addch c).y = v.y := by
  unfold addch
  split_ifs with hnext hrow
  · rfl
  · exact absurd hrow (Nat.not_lt.mpr hlast)
  · rfl

end PadView

namespace Pad

section Shows

variable {α : Type} [PadLibrary α] {p q : Pad α} {cs ds : List (Char × α)}

/-- The cells are in a row from a column on. -/
def Shows (p : Pad α) (y x : ℕ) (cs : List (Char × α)) : Prop :=
  ∀ i (h : i < cs.length), p.cells y (x + i) = cs[i]

theorem Shows.congr {y x : ℕ} (h : p.Shows y x cs) (hrow : q.cells y = p.cells y) :
    q.Shows y x cs := by
  intro i hi
  rw [hrow]
  exact h i hi

theorem Shows.left {y x : ℕ} (h : p.Shows y x (cs ++ ds)) : p.Shows y x cs := by
  intro i hi
  have hcell := h i (by rw [List.length_append]; omega)
  rwa [List.getElem_append_left hi] at hcell

theorem Shows.right {y x : ℕ} (h : p.Shows y x (cs ++ ds)) : p.Shows y (x + cs.length) ds := by
  intro i hi
  have hcell := h (cs.length + i) (by rw [List.length_append]; omega)
  rw [List.getElem_append_right (Nat.le_add_right _ _), ← Nat.add_assoc] at hcell
  simpa using hcell

end Shows

open LawfulPadLibrary

variable {α : Type} [Inhabited α] [PadLibrary α]

/-- The size and the attribute stay. -/
structure Keeps (p q : Pad α) : Prop where
  width : q.width = p.width
  height : q.height = p.height
  attr : q.attr = p.attr
  plain : q.IsPlain

structure Wrote (p q : Pad α) (cs : List (Char × α)) : Prop where
  view : p.view.Wrote q.view cs
  plain : q.IsPlain

variable {p q r : Pad α} {c : Char} {s : List Char} {cs ds : List (Char × α)} {n : ℕ}

theorem Keeps.refl (hp : p.IsPlain) : Keeps p p := ⟨rfl, rfl, rfl, hp⟩

theorem Keeps.trans (h : Keeps p q) (h' : Keeps q r) : Keeps p r :=
  ⟨h'.width.trans h.width, h'.height.trans h.height, h'.attr.trans h.attr, h'.plain⟩

/-! ### The cells -/

namespace Wrote

variable (h : Wrote p q cs)
include h

theorem width : q.width = p.width := h.view.width

theorem height : q.height = p.height := h.view.height

theorem attr : q.attr = p.attr := h.view.attr

theorem cells : q.cells = Function.update p.cells p.y (overwrite (p.cells p.y) p.x cs) :=
  h.view.cells

theorem pos (hfits : p.x + cs.length < p.width) : q.y = p.y ∧ q.x = p.x + cs.length :=
  h.view.pos hfits

theorem keeps : Keeps p q := ⟨h.width, h.height, h.attr, h.plain⟩

theorem append (hds : ds ≠ [] → Wrote q r ds) (hr : ds = [] → r = q)
    (hfits : p.x + (cs ++ ds).length ≤ p.width) : Wrote p r (cs ++ ds) := by
  refine ⟨h.view.append (fun hne => (hds hne).view) (fun hnil => by rw [hr hnil]) hfits, ?_⟩
  by_cases hnil : ds = []
  · rw [hr hnil]
    exact h.plain
  · exact (hds hnil).plain

/-- What is written is there. -/
theorem shows : q.Shows p.y p.x cs := by
  intro i hi
  rw [h.cells, Function.update_self, overwrite_add hi]

/-- What is written was there already. -/
theorem cells_eq (hp : p.Shows p.y p.x cs) : q.cells = p.cells := by
  rw [h.cells, overwrite_eq_self hp, Function.update_eq_self]

/-- Other rows are as before. -/
theorem cells_of_ne {y : ℕ} (hy : y ≠ p.y) : q.cells y = p.cells y := by
  rw [h.cells, Function.update_of_ne hy]

theorem shows_of_ne {y x : ℕ} (hy : y ≠ p.y) (hds : p.Shows y x ds) : q.Shows y x ds :=
  hds.congr (h.cells_of_ne hy)

end Wrote

/-! ### Cells put in a row -/

/-- The cells were put there, and nothing else changed. -/
structure Put (p q : Pad α) (y x : ℕ) (cs : List (Char × α)) : Prop where
  keeps : Keeps p q
  cells : q.cells = Function.update p.cells y (overwrite (p.cells y) x cs)

namespace Put

variable {y x : ℕ} (h : Put p q y x cs) {i j : ℕ}
include h

theorem cell (hi : i < cs.length) : q.cells y (x + i) = cs[i] := by
  rw [h.cells, Function.update_self, overwrite_add hi]

theorem cells_of_ne (hi : i ≠ y) : q.cells i = p.cells i := by
  rw [h.cells, Function.update_of_ne hi]

theorem cell_of_ne (hij : i ≠ y ∨ j < x ∨ x + cs.length ≤ j) : q.cells i j = p.cells i j := by
  by_cases hi : i = y
  · subst hi
    rw [h.cells, Function.update_self]
    rcases hij with hne | hlt | hle
    · exact absurd rfl hne
    · exact overwrite_of_lt hlt
    · exact overwrite_of_le hle
  · rw [h.cells_of_ne hi]

theorem shows : q.Shows y x cs := fun _ hi => h.cell hi

theorem shows_of_ne (hi : i ≠ y) (hds : p.Shows i j ds) : q.Shows i j ds :=
  hds.congr (h.cells_of_ne hi)

end Put

/-! ### Calls in a row -/

variable [LawfulPadLibrary α]

theorem IsPlain.inRange (hp : p.IsPlain) : p.view.InRange := by
  induction hp with
  | new hwidth hheight =>
    rw [view_new hwidth hheight]
    exact ⟨hheight, hwidth⟩
  | move y x hp ih =>
    rw [view_move y x hp]
    exact PadView.inRange_move y x ih
  | addch hp hc ih =>
    rw [view_addch hp hc]
    exact (PadView.wrote_addch _ ih).inRange
  | addstr hp hs ih =>
    rw [view_addstr hp hs]
    exact PadView.inRange_addstr _ ih
  | attron a hp hattr ih =>
    rw [view_attron a hp hattr]
    exact ih
  | attroff hp hattr ih =>
    rw [view_attroff hp hattr]
    exact ih
  | erase hp ih =>
    rw [view_erase hp]
    exact ⟨Nat.zero_lt_of_lt ih.1, Nat.zero_lt_of_lt ih.2⟩
  | resize hp hwidth hheight ih =>
    rw [view_resize hp hwidth hheight]
    exact ⟨Nat.lt_of_le_of_lt (Nat.min_le_right _ _) (Nat.sub_one_lt_of_lt hheight),
      Nat.lt_of_le_of_lt (Nat.min_le_right _ _) (Nat.sub_one_lt_of_lt hwidth)⟩
  | box hp ih =>
    rw [view_box hp]
    exact ih

theorem IsPlain.y_lt (hp : p.IsPlain) : p.y < p.height := hp.inRange.1

theorem IsPlain.x_lt (hp : p.IsPlain) : p.x < p.width := hp.inRange.2

theorem Wrote.refl (hp : p.IsPlain) : Wrote p p [] := ⟨.refl hp.inRange, hp⟩

theorem wrote_addch (hp : p.IsPlain) (hc : IsPrintable c) : Wrote p (p.addch c) [(c, p.attr)] :=
  ⟨view_addch hp hc ▸ PadView.wrote_addch c hp.inRange, hp.addch hc⟩

theorem wrote_addstr (hp : p.IsPlain) (hs : IsText s) (hfits : p.x + s.length ≤ p.width) :
    Wrote p (p.addstr s) (s.map fun c => (c, p.attr)) :=
  ⟨view_addstr hp hs ▸ PadView.wrote_addstr s hp.inRange hfits, hp.addstr hs⟩

theorem isPrintable_blank : IsPrintable ' ' := by decide

theorem Wrote.addch (h : Wrote p q cs) (hc : IsPrintable c) (hfits : p.x + cs.length < p.width) :
    Wrote p (q.addch c) (cs ++ [(c, p.attr)]) := by
  refine h.append (fun _ => ?_) (fun hnil => absurd hnil (List.cons_ne_nil _ _)) ?_
  · rw [← h.attr]
    exact wrote_addch h.plain hc
  · rw [List.length_append, List.length_singleton, ← Nat.add_assoc]
    exact hfits

theorem Wrote.addstr (h : Wrote p q cs) (hs : IsText s)
    (hfits : p.x + cs.length + s.length ≤ p.width) :
    Wrote p (q.addstr s) (cs ++ s.map fun c => (c, p.attr)) := by
  by_cases hnil : s = []
  · subst hnil
    have hview : (q.addstr []).view = q.view := view_addstr h.plain isText_nil
    rw [List.map_nil, List.append_nil]
    exact ⟨hview ▸ h.view, h.plain.addstr hs⟩
  · have hpos := List.length_pos_iff.mpr hnil
    obtain ⟨-, hx⟩ := h.pos (by omega)
    refine h.append (fun _ => ?_) (fun hmap => absurd (List.map_eq_nil_iff.mp hmap) hnil) ?_
    · rw [← h.attr]
      exact wrote_addstr h.plain hs (by rw [hx, h.width]; exact hfits)
    · rw [List.length_append, List.length_map, ← Nat.add_assoc]
      exact hfits

theorem Wrote.fill (h : Wrote p q cs) (n : ℕ) (hfits : p.x + cs.length + n ≤ p.width) :
    Wrote p (q.fill n) (cs ++ List.replicate n (' ', p.attr)) := by
  induction n generalizing q cs with
  | zero =>
    rw [List.replicate_zero, List.append_nil]
    exact h
  | succ n ih =>
    have hc := h.addch isPrintable_blank (by omega)
    have hrest := ih hc (by rw [List.length_append, List.length_singleton]; omega)
    rwa [List.append_assoc, List.singleton_append, ← List.replicate_succ] at hrest

theorem wrote_fill (n : ℕ) (hp : p.IsPlain) (hfits : p.x + n ≤ p.width) :
    Wrote p (p.fill n) (List.replicate n (' ', p.attr)) :=
  (Wrote.refl hp).fill n hfits

/-- In the last row the position stays in it. -/
theorem y_fill (n : ℕ) (hp : p.IsPlain) (hlast : p.height ≤ p.y + 1) : (p.fill n).y = p.y := by
  induction n generalizing p with
  | zero => rfl
  | succ n ih =>
    have hc := wrote_addch hp isPrintable_blank
    have hy : (p.addch ' ').y = p.y := by
      unfold y
      rw [view_addch hp isPrintable_blank]
      exact PadView.y_addch ' ' hlast
    rw [fill, ih hc.plain (by rw [hc.height, hy]; exact hlast), hy]

/-! ### New pads -/

section New

variable {width height : ℕ} (hwidth : 0 < width) (hheight : 0 < height)
include hwidth hheight

theorem width_new : (new width height : Pad α).width = width :=
  congrArg PadView.width (view_new hwidth hheight)

theorem height_new : (new width height : Pad α).height = height :=
  congrArg PadView.height (view_new hwidth hheight)

theorem attr_new : (new width height : Pad α).attr = default :=
  congrArg PadView.attr (view_new hwidth hheight)

theorem cells_new : (new width height : Pad α).cells = fun _ _ => PadView.blank :=
  congrArg PadView.cells (view_new hwidth hheight)

end New

section Resized

variable {width height : ℕ} (hp : p.IsPlain) (hwidth : 0 < width) (hheight : 0 < height)
include hp hwidth hheight

theorem width_resize : (p.resize width height).width = width :=
  congrArg PadView.width (view_resize hp hwidth hheight)

theorem height_resize : (p.resize width height).height = height :=
  congrArg PadView.height (view_resize hp hwidth hheight)

theorem attr_erase_resize : (p.erase.resize width height).attr = p.attr := by
  unfold attr
  rw [view_resize hp.erase hwidth hheight, view_erase hp]
  rfl

/-- A pad that was erased is blank, whatever its size. -/
theorem cells_erase_resize : (p.erase.resize width height).cells = fun _ _ => PadView.blank := by
  funext i j
  unfold cells
  rw [view_resize hp.erase hwidth hheight, view_erase hp]
  exact ite_self _

end Resized

/-! ### Attributes -/

section Attributes

variable {a : α} (hp : p.IsPlain) (hattr : p.attr = default)
include hp hattr

theorem width_attron : (p.attron a).width = p.width := by
  unfold width
  rw [view_attron a hp hattr]

theorem height_attron : (p.attron a).height = p.height := by
  unfold height
  rw [view_attron a hp hattr]

theorem x_attron : (p.attron a).x = p.x := by
  unfold x
  rw [view_attron a hp hattr]

theorem attr_attron : (p.attron a).attr = a := by
  unfold attr
  rw [view_attron a hp hattr]

theorem cells_attron : (p.attron a).cells = p.cells := by
  unfold cells
  rw [view_attron a hp hattr]

end Attributes

section Attributes

variable {a : α} (hp : p.IsPlain) (hattr : p.attr = a)
include hp hattr

theorem width_attroff : (p.attroff a).width = p.width := by
  unfold width
  rw [view_attroff hp hattr]

theorem height_attroff : (p.attroff a).height = p.height := by
  unfold height
  rw [view_attroff hp hattr]

theorem x_attroff : (p.attroff a).x = p.x := by
  unfold x
  rw [view_attroff hp hattr]

theorem attr_attroff : (p.attroff a).attr = default := by
  unfold attr
  rw [view_attroff hp hattr]

theorem cells_attroff : (p.attroff a).cells = p.cells := by
  unfold cells
  rw [view_attroff hp hattr]

end Attributes

/-- Written with other attributes, which are removed afterwards. -/
theorem Wrote.of_attron {a : α} (h : Wrote (p.attron a) q cs) (hp : p.IsPlain)
    (hattr : p.attr = default) : Wrote p (q.attroff a) cs := by
  have hq : q.attr = a := h.attr.trans (attr_attron hp hattr)
  have hview := h.view
  rw [view_attron a hp hattr] at hview
  refine ⟨?_, h.plain.attroff hq⟩
  rw [view_attroff h.plain hq]
  exact ⟨hview.width, hview.height, hattr.symm, hview.cells, hview.pos, hview.inRange⟩

/-- Written without the attribute, which is set again afterwards. -/
theorem Wrote.of_attroff {a : α} (h : Wrote (p.attroff a) q cs) (hp : p.IsPlain)
    (hattr : p.attr = a) : Wrote p (q.attron a) cs := by
  have hq : q.attr = default := h.attr.trans (attr_attroff hp hattr)
  have hview := h.view
  rw [view_attroff hp hattr] at hview
  refine ⟨?_, h.plain.attron a hq⟩
  rw [view_attron a h.plain hq]
  exact ⟨hview.width, hview.height, hattr.symm, hview.cells, hview.pos, hview.inRange⟩

/-- With other attributes on a condition. -/
theorem Wrote.of_attron_ite {a : α} {b : Bool} (hp : p.IsPlain) (hattr : p.attr = default)
    (h : Wrote (if b then p.attron a else p) q cs) : Wrote p (if b then q.attroff a else q) cs := by
  cases b with
  | false => exact h
  | true => exact h.of_attron hp hattr

/-! ### Moving -/

section Moving

variable (hp : p.IsPlain) (y x : ℕ)
include hp

theorem width_move : (p.move y x).width = p.width := by
  unfold width
  rw [view_move y x hp, PadView.move]
  split_ifs <;> rfl

theorem height_move : (p.move y x).height = p.height := by
  unfold height
  rw [view_move y x hp, PadView.move]
  split_ifs <;> rfl

theorem attr_move : (p.move y x).attr = p.attr := by
  unfold attr
  rw [view_move y x hp, PadView.move]
  split_ifs <;> rfl

theorem cells_move : (p.move y x).cells = p.cells := by
  unfold cells
  rw [view_move y x hp, PadView.move]
  split_ifs <;> rfl

variable {y x}

theorem y_move (hy : y < p.height) (hx : x < p.width) : (p.move y x).y = y := by
  unfold Pad.y
  rw [view_move y x hp, PadView.move, if_pos ⟨hy, hx⟩]

theorem x_move (hy : y < p.height) (hx : x < p.width) : (p.move y x).x = x := by
  unfold Pad.x
  rw [view_move y x hp, PadView.move, if_pos ⟨hy, hx⟩]

/-- A position outside is refused. -/
theorem view_move_of_not_lt (h : ¬(y < p.height ∧ x < p.width)) : (p.move y x).view = p.view := by
  rw [view_move y x hp]
  exact if_neg h

end Moving

/-- Behind what is written the position is no other one. -/
theorem Wrote.move (h : Wrote p q cs) : Wrote p (q.move p.y (p.x + cs.length)) cs := by
  have hq := h.plain
  refine ⟨⟨?_, ?_, ?_, ?_, fun hlt => ?_, (hq.move _ _).inRange⟩, hq.move _ _⟩
  · exact (width_move hq _ _).trans h.width
  · exact (height_move hq _ _).trans h.height
  · exact (attr_move hq _ _).trans h.attr
  · exact (cells_move hq _ _).trans h.cells
  · obtain ⟨hy, -⟩ := h.pos hlt
    have hrow : p.y < q.height := hy ▸ hq.y_lt
    have hcol : p.x + cs.length < q.width := h.width ▸ hlt
    exact ⟨y_move hq hrow hcol, x_move hq hrow hcol⟩

/-- Cells that are there already are left out. -/
theorem Wrote.skip (h : Wrote p q cs) (hds : p.Shows p.y (p.x + cs.length) ds)
    (hp : p.IsPlain) : Wrote p (q.move p.y (p.x + (cs ++ ds).length)) (cs ++ ds) := by
  have hq := h.plain
  refine ⟨⟨?_, ?_, ?_, ?_, fun hlt => ?_, (hq.move _ _).inRange⟩, hq.move _ _⟩
  · exact (width_move hq _ _).trans h.width
  · exact (height_move hq _ _).trans h.height
  · exact (attr_move hq _ _).trans h.attr
  · have hsame : overwrite (overwrite (p.cells p.y) p.x cs) (p.x + cs.length) ds =
        overwrite (p.cells p.y) p.x cs :=
      overwrite_eq_self fun i hi => by rw [overwrite_of_le (by omega)]; exact hds i hi
    refine (cells_move hq _ _).trans (h.cells.trans ?_)
    rw [← hsame, ← overwrite_append]
    rfl
  · have hrow : p.y < q.height := h.height ▸ hp.y_lt
    have hcol : p.x + (cs ++ ds).length < q.width := h.width ▸ hlt
    exact ⟨y_move hq hrow hcol, x_move hq hrow hcol⟩

theorem Wrote.put {y x : ℕ} (h : Wrote (p.move y x) q cs) (hp : p.IsPlain)
    (hy : y < p.height) (hx : x < p.width) : Put p q y x cs := by
  have hcells := h.cells
  rw [cells_move hp, y_move hp hy hx, x_move hp hy hx] at hcells
  exact ⟨⟨h.width.trans (width_move hp y x), h.height.trans (height_move hp y x),
    h.attr.trans (attr_move hp y x), h.plain⟩, hcells⟩

end Pad
