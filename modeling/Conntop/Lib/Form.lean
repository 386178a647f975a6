import Conntop.Lib.Pad

/-!
# Forms on a pad

A form has fields at fixed places of a pad, none over another. A field that is drawn is filled from
its first cell to its last one.

* `look` says what is seen of a cell.
* `LooksLike`, `Alike`: two pads that look the same, and go on from the same position.
* `Filled`: each field of the form has its content, all the rest looks like the blank form.

Main results: `Filled.put`, a field that is drawn gets its new content and the others keep theirs,
and `Filled.look_eq`, the contents are all there is to see.
-/

/-! ## What is seen -/

namespace PadView

variable {α β : Type} {look : Char × α → β} {v w : PadView α}

structure LooksLike (look : Char × α → β) (v w : PadView α) : Prop where
  width : w.width = v.width
  height : w.height = v.height
  attr : w.attr = v.attr
  cells : ∀ y x, y < v.height → x < v.width → look (w.cells y x) = look (v.cells y x)

/-- The position is the same one, too. -/
structure Alike (look : Char × α → β) (v w : PadView α) : Prop extends LooksLike look v w where
  y : w.y = v.y
  x : w.x = v.x

namespace Alike

variable (h : Alike look v w)
include h

theorem move (y x : ℕ) : Alike look (v.move y x) (w.move y x) := by
  unfold PadView.move
  rw [h.height, h.width]
  split_ifs
  · exact ⟨⟨rfl, rfl, h.attr, h.cells⟩, rfl, rfl⟩
  · exact h

theorem update (c : Char × α) (y x : ℕ) (i j : ℕ) (hi : i < v.height) (hj : j < v.width) :
    look (Function.update w.cells y (Function.update (w.cells y) x c) i j) =
      look (Function.update v.cells y (Function.update (v.cells y) x c) i j) := by
  have hcell := h.cells i j hi hj
  by_cases hy : i = y
  · subst hy
    by_cases hx : j = x
    · subst hx
      simp
    · simp [hx, hcell]
  · simp [hy, hcell]

theorem addch (c : Char) : Alike look (v.addch c) (w.addch c) := by
  have hcells := h.update (c, v.attr) v.y v.x
  unfold PadView.addch
  rw [h.width, h.height, h.x, h.y, h.attr]
  split_ifs
  · exact ⟨⟨rfl, rfl, rfl, hcells⟩, rfl, rfl⟩
  · exact ⟨⟨rfl, rfl, rfl, hcells⟩, rfl, rfl⟩
  · exact ⟨⟨rfl, rfl, rfl, hcells⟩, rfl, rfl⟩

theorem addstr (s : List Char) : Alike look (v.addstr s) (w.addstr s) := by
  induction s generalizing v w with
  | nil => exact h
  | cons c s ih =>
    have hcorner : w.AtCorner ↔ v.AtCorner := by
      unfold AtCorner
      rw [h.width, h.height, h.x, h.y]
    unfold PadView.addstr
    by_cases hv : v.AtCorner
    · rw [if_pos hv, if_pos (hcorner.mpr hv)]
      exact h.addch c
    · rw [if_neg hv, if_neg (mt hcorner.mp hv)]
      exact ih (h.addch c)

end Alike

end PadView

namespace Pad

open LawfulPadLibrary

variable {α β : Type} [Inhabited α] [PadLibrary α] {look : Char × α → β} {p q : Pad α}
  {s : List Char} {x y : ℕ}

structure LooksLike (look : Char × α → β) (p q : Pad α) : Prop where
  view : p.view.LooksLike look q.view
  plain : p.IsPlain
  plain' : q.IsPlain

structure Alike (look : Char × α → β) (p q : Pad α) : Prop where
  view : p.view.Alike look q.view
  plain : p.IsPlain
  plain' : q.IsPlain

theorem Alike.looksLike (h : Alike look p q) : LooksLike look p q :=
  ⟨h.view.toLooksLike, h.plain, h.plain'⟩

section Calls

variable [LawfulPadLibrary α]

/-- In the box the border does not matter. -/
theorem looksLike_box (hp : p.IsPlain) (hq : q.IsPlain) (hwidth : q.width = p.width)
    (hheight : q.height = p.height) (hattr : q.attr = p.attr)
    (hcells : ∀ y x, y < p.height → x < p.width → ¬p.view.OnBorder y x →
      look (q.cells y x) = look (p.cells y x)) : LooksLike look p.box q.box := by
  refine ⟨?_, hp.box, hq.box⟩
  rw [view_box hp, view_box hq, hwidth, hheight, hattr]
  refine ⟨hwidth, hheight, hattr, fun y x hy hx => ?_⟩
  have hborder : q.view.OnBorder y x ↔ p.view.OnBorder y x := by
    change (y < q.height ∧ x < q.width) ∧ (y = 0 ∨ y + 1 = q.height ∨ x = 0 ∨ x + 1 = q.width) ↔ _
    rw [hwidth, hheight]
    rfl
  dsimp only [PadView.box]
  by_cases hin : p.view.OnBorder y x
  · rw [if_pos hin, if_pos (hborder.mpr hin)]
  · rw [if_neg hin, if_neg (mt hborder.mp hin)]
    exact hcells y x hy hx hin

theorem LooksLike.attron (h : LooksLike look p q) (hattr : p.attr = default) (a : α) :
    LooksLike look (p.attron a) (q.attron a) := by
  have hattr' : q.attr = default := h.view.attr.trans hattr
  refine ⟨?_, h.plain.attron a hattr, h.plain'.attron a hattr'⟩
  rw [view_attron a h.plain hattr, view_attron a h.plain' hattr']
  exact ⟨h.view.width, h.view.height, rfl, h.view.cells⟩

/-- What comes behind a `move` is written at the same position. -/
theorem LooksLike.move (h : LooksLike look p q) (hy : y < p.height) (hx : x < p.width) :
    Alike look (p.move y x) (q.move y x) := by
  have hy' : y < q.view.height := h.view.height ▸ hy
  have hx' : x < q.view.width := h.view.width ▸ hx
  refine ⟨?_, h.plain.move y x, h.plain'.move y x⟩
  rw [view_move y x h.plain, view_move y x h.plain', PadView.move, PadView.move, if_pos ⟨hy, hx⟩,
    if_pos ⟨hy', hx'⟩]
  exact ⟨⟨h.view.width, h.view.height, h.view.attr, h.view.cells⟩, rfl, rfl⟩

namespace Alike

theorem move (h : Alike look p q) (y x : ℕ) : Alike look (p.move y x) (q.move y x) := by
  refine ⟨?_, h.plain.move y x, h.plain'.move y x⟩
  rw [view_move y x h.plain, view_move y x h.plain']
  exact h.view.move y x

theorem attron (h : Alike look p q) (hattr : p.attr = default) (a : α) :
    Alike look (p.attron a) (q.attron a) := by
  have hattr' : q.attr = default := h.view.attr.trans hattr
  refine ⟨?_, h.plain.attron a hattr, h.plain'.attron a hattr'⟩
  rw [view_attron a h.plain hattr, view_attron a h.plain' hattr']
  exact ⟨⟨h.view.width, h.view.height, rfl, h.view.cells⟩, h.view.y, h.view.x⟩

theorem attroff (h : Alike look p q) {a : α} (hattr : p.attr = a) :
    Alike look (p.attroff a) (q.attroff a) := by
  have hattr' : q.attr = a := h.view.attr.trans hattr
  refine ⟨?_, h.plain.attroff hattr, h.plain'.attroff hattr'⟩
  rw [view_attroff h.plain hattr, view_attroff h.plain' hattr']
  exact ⟨⟨h.view.width, h.view.height, rfl, h.view.cells⟩, h.view.y, h.view.x⟩

theorem addstr (h : Alike look p q) (hs : IsText s) : Alike look (p.addstr s) (q.addstr s) := by
  refine ⟨?_, h.plain.addstr hs, h.plain'.addstr hs⟩
  rw [view_addstr h.plain hs, view_addstr h.plain' hs]
  exact h.view.addstr s

end Alike

end Calls

end Pad

/-! ## Forms -/

/-- No field is over another one. -/
@[ext] structure Form (ι : Type*) where
  row : ι → ℕ
  col : ι → ℕ
  width : ι → ℕ
  disjoint : ∀ f g, f ≠ g → row f = row g → col f + width f ≤ col g ∨ col g + width g ≤ col f

namespace Form

open Pad (Put)

variable {ι : Type*} {α β : Type} [PadLibrary α] (F : Form ι) (look : Char × α → β)

def Covers (f : ι) (y x : ℕ) : Prop := y = F.row f ∧ F.col f ≤ x ∧ x < F.col f + F.width f

/-- The fields of `base` do not matter. -/
structure Filled (base : Pad α) (content : ι → List β) (p : Pad α) : Prop where
  length : ∀ f, (content f).length = F.width f
  shows : ∀ f i, i < F.width f →
    some (look (p.cells (F.row f) (F.col f + i))) = (content f)[i]?
  others : ∀ y x, y < base.height → x < base.width → (∀ f, ¬F.Covers f y x) →
    look (p.cells y x) = look (base.cells y x)

variable {F look} {base p q : Pad α} {content : ι → List β} {f : ι} {cs : List (Char × α)}

/-- **A field is drawn.** -/
theorem Filled.put [DecidableEq ι] [Inhabited α] (h : F.Filled look base content p)
    (hput : Put p q (F.row f) (F.col f) cs) (hlength : cs.length = F.width f) :
    F.Filled look base (Function.update content f (cs.map look)) q := by
  refine ⟨fun g => ?_, fun g i hi => ?_, fun y x hy hx hyx => ?_⟩
  · by_cases hg : g = f
    · subst hg
      rw [Function.update_self, List.length_map, hlength]
    · rw [Function.update_of_ne hg, h.length]
  · by_cases hg : g = f
    · subst hg
      rw [Function.update_self, List.getElem?_map, List.getElem?_eq_getElem (hlength ▸ hi),
        hput.cell (hlength ▸ hi), Option.map_some]
    · rw [Function.update_of_ne hg, ← h.shows g i hi, hput.cell_of_ne]
      by_cases hrow : F.row g = F.row f
      · rcases F.disjoint g f hg hrow with hle | hle
        · exact .inr (.inl (by omega))
        · exact .inr (.inr (by omega))
      · exact .inl hrow
  · rw [← h.others y x hy hx hyx, hput.cell_of_ne]
    by_contra hin
    simp only [not_or, not_not, Nat.not_lt, Nat.not_le] at hin
    exact hyx f ⟨hin.1, hin.2.1, hlength ▸ hin.2.2⟩

/-- A field that is drawn with what it has, or is not drawn. -/
theorem Filled.congr {content' : ι → List β} (h : F.Filled look base content p)
    (hcontent : ∀ f, content' f = content f) : F.Filled look base content' p :=
  funext hcontent ▸ h

/-- Of the pad only the cells matter. -/
theorem Filled.of_cells (h : F.Filled look base content p) (hcells : q.cells = p.cells) :
    F.Filled look base content q :=
  ⟨h.length, hcells ▸ h.shows, hcells ▸ h.others⟩

/-- **The contents are all there is to see.** -/
theorem Filled.look_eq (hp : F.Filled look base content p) (hq : F.Filled look base content q)
    {y x : ℕ} (hy : y < base.height) (hx : x < base.width) :
    look (p.cells y x) = look (q.cells y x) := by
  by_cases hyx : ∃ f, F.Covers f y x
  · obtain ⟨f, rfl, hle, hlt⟩ := hyx
    obtain ⟨i, rfl⟩ := Nat.exists_eq_add_of_le hle
    have hi : i < F.width f := by omega
    exact Option.some.inj ((hp.shows f i hi).trans (hq.shows f i hi).symm)
  · rw [not_exists] at hyx
    rw [hp.others y x hy hx hyx, hq.others y x hy hx hyx]

end Form
