import Mathlib.Data.List.TakeWhile

/-!
# Scanners

A scanner reads a text from the left. It gives back a result or an error, and what is left of the
text.

* `Online`: what a scanner makes of a text, it makes of every longer text, unless it came to the
  end. It sees nothing behind the first element that it leaves.
* `Settled P`: a result with the property `P` stands, also where it took the whole text.
* `Terminated z`: a scanner never takes the element `z`, and takes it for the end of the text.
* `Consumes`: a scanner that succeeds has taken something.

Main results: the rules for `bind`, `onHead` and `many`, `many_append`, what a list of items reads,
and `Consumes.many_runs`: the loop of `many` ends by itself.
-/

/-- A result or an error, and what is left of the text. -/
def Scanner (τ ε α : Type) : Type := List τ → Except ε α × List τ

namespace Scanner

variable {τ ε α β : Type}

instance : Monad (Scanner τ ε) where
  pure a := fun is => (.ok a, is)
  bind f g := fun is =>
    match f is with
    | (.ok a, is) => g a is
    | (.error e, is) => (.error e, is)

/-- An error that depends on the next element. -/
def failAt (e : Option τ → ε) : Scanner τ ε α := fun is => (.error (e is.head?), is)

/-- An error that is the same everywhere. -/
def fail (e : ε) : Scanner τ ε α := failAt fun _ => e

/-- Takes the next element if it has the property `p`. -/
def onHead (p : τ → Bool) (f : τ → Scanner τ ε α) (g : Scanner τ ε α) : Scanner τ ε α
  | [] => g []
  | c :: is => if p c then f c is else g (c :: is)

/-- The next element, which must have the property `p`. -/
def expect (p : τ → Bool) (e : ε) : Scanner τ ε τ := onHead p pure (fail e)

/-- The next element, if it has the property `p`. -/
def takeIf (p : τ → Bool) : Scanner τ ε (Option τ) := onHead p (fun c => pure (some c)) (pure none)

/-- All elements up to the first without the property `p`. -/
def takeWhile (p : τ → Bool) : Scanner τ ε (List τ) := fun is =>
  (.ok (is.takeWhile p), is.dropWhile p)

/-- Folds the elements that have the property `p`. -/
def foldWhile (p : τ → Bool) (f : α → τ → Except ε α) : α → Scanner τ ε α
  | a, [] => (.ok a, [])
  | a, c :: is =>
    if p c then
      match f a c with
      | .ok a => foldWhile p f a is
      | .error e => (.error e, is)
    else (.ok a, c :: is)

/-- `many` with a bound on the number of items. -/
def manyAux (item : Scanner τ ε (Option α)) : ℕ → Scanner τ ε (List α)
  | 0, is => (.ok [], is)
  | fuel + 1, is =>
    match item is with
    | (.ok none, rest) => (.ok [], rest)
    | (.ok (some a), rest) =>
      if rest.length < is.length then
        match manyAux item fuel rest with
        | (.ok as, rest) => (.ok (a :: as), rest)
        | (.error e, rest) => (.error e, rest)
      else (.ok [], rest)
    | (.error e, rest) => (.error e, rest)

/-- Reads items until one is the last, which has no value. The text gets shorter with every
item. -/
def many (item : Scanner τ ε (Option α)) : Scanner τ ε (List α) := fun is =>
  manyAux item (is.length + 1) is

/-- Any bound above the length of the text does: every item takes something. -/
theorem manyAux_fuel (item : Scanner τ ε (Option α)) {m n : ℕ} {is : List τ} (hm : is.length < m)
    (hn : is.length < n) : manyAux item m is = manyAux item n is := by
  induction m generalizing n is with
  | zero => exact absurd hm (Nat.not_lt_zero _)
  | succ m ih =>
    cases n with
    | zero => exact absurd hn (Nat.not_lt_zero _)
    | succ n =>
      rw [manyAux, manyAux]
      rcases item is with ⟨e | _ | a, rest⟩
      · rfl
      · rfl
      · dsimp only
        split_ifs with hlt
        · rw [ih (by omega) (by omega : rest.length < n)]
        · rfl

/-- One turn of the loop. -/
theorem many_eq (item : Scanner τ ε (Option α)) (is : List τ) :
    many item is = match item is with
      | (.ok none, rest) => (.ok [], rest)
      | (.ok (some a), rest) =>
        if rest.length < is.length then
          match many item rest with
          | (.ok as, rest) => (.ok (a :: as), rest)
          | (.error e, rest) => (.error e, rest)
        else (.ok [], rest)
      | (.error e, rest) => (.error e, rest) := by
  rw [many, manyAux]
  rcases item is with ⟨e | _ | a, rest⟩
  · rfl
  · rfl
  · dsimp only
    split_ifs with hlt
    · rw [many, manyAux_fuel item hlt (Nat.lt_succ_self _)]
    · rfl

/-! ## What a scanner makes of a longer text -/

/-- What is left is the end of the text, and a longer text changes nothing of what was read before
its end. -/
structure Online (f : Scanner τ ε α) : Prop where
  suffix : ∀ is, (f is).2 <:+ is
  extend : ∀ is more, (f is).2 ≠ [] → f (is ++ more) = ((f is).1, (f is).2 ++ more)

/-- A result with the property is the same on every longer text. -/
def Settled (P : α → Prop) (f : Scanner τ ε α) : Prop :=
  ∀ is more a rest, P a → f is = (.ok a, rest) → f (is ++ more) = (.ok a, rest ++ more)

variable {f g : Scanner τ ε α} {k : α → Scanner τ ε β} {h : τ → Scanner τ ε α} {p : τ → Bool}
variable {P : α → Prop} {is rest : List τ} {a : α}

theorem bind_apply (f : Scanner τ ε α) (k : α → Scanner τ ε β) (is : List τ) :
    (f >>= k) is = match f is with
      | (.ok a, is) => k a is
      | (.error e, is) => (.error e, is) := rfl

/-- A scanner that succeeds is followed by the next one. -/
theorem bind_of_ok (hf : f is = (.ok a, rest)) : (f >>= k) is = k a rest := by
  rw [bind_apply, hf]

/-- A scanner that fails is the end. -/
theorem bind_of_error {e : ε} (hf : f is = (.error e, rest)) :
    (f >>= k) is = (.error e, rest) := by
  rw [bind_apply, hf]

theorem onHead_pos {c : τ} (hc : p c = true) (is : List τ) : onHead p h g (c :: is) = h c is :=
  if_pos hc

theorem onHead_neg {c : τ} (hc : p c = false) (is : List τ) :
    onHead p h g (c :: is) = g (c :: is) :=
  if_neg (by rw [hc]; exact Bool.false_ne_true)

theorem onHead_nil : onHead p h g [] = g [] := rfl

namespace Online

theorem pure (a : α) : Online (pure a : Scanner τ ε α) where
  suffix _ := List.suffix_rfl
  extend _ _ _ := rfl

theorem failAt (e : Option τ → ε) : Online (failAt e : Scanner τ ε α) where
  suffix _ := List.suffix_rfl
  extend is more hne := by
    cases is with
    | nil => exact absurd rfl hne
    | cons c is => rfl

theorem fail (e : ε) : Online (fail e : Scanner τ ε α) := failAt _

/-- Nothing is left of an empty text. -/
theorem nil (hf : Online f) : (f []).2 = [] := List.suffix_nil.mp (hf.suffix [])

theorem bind (hf : Online f) (hk : ∀ a, Online (k a)) : Online (f >>= k) := by
  constructor
  · intro is
    rw [bind_apply]
    have hsuffix := hf.suffix is
    rcases hr : f is with ⟨e | a, rest⟩ <;> rw [hr] at hsuffix
    · exact hsuffix
    · exact ((hk a).suffix rest).trans hsuffix
  · intro is more
    rw [bind_apply, bind_apply]
    have hextend := hf.extend is more
    rcases hr : f is with ⟨e | a, rest⟩ <;> rw [hr] at hextend
    · intro hne
      rw [hextend hne]
    · intro hne
      have hrest : rest ≠ [] := by
        rintro rfl
        exact hne (hk a).nil
      rw [hextend hrest]
      exact (hk a).extend rest more hne

theorem onHead (hh : ∀ c, Online (h c)) (hg : Online g) : Online (onHead p h g) := by
  constructor
  · intro is
    cases is with
    | nil => exact hg.suffix []
    | cons c is =>
      cases hc : p c with
      | true =>
        rw [onHead_pos hc]
        exact ((hh c).suffix is).trans (List.suffix_cons c is)
      | false =>
        rw [onHead_neg hc]
        exact hg.suffix _
  · intro is more
    cases is with
    | nil => exact fun hne => absurd hg.nil hne
    | cons c is =>
      rw [List.cons_append]
      cases hc : p c with
      | true =>
        rw [onHead_pos hc, onHead_pos hc]
        exact (hh c).extend is more
      | false =>
        rw [onHead_neg hc, onHead_neg hc, ← List.cons_append]
        exact hg.extend _ more

theorem expect (p : τ → Bool) (e : ε) : Online (expect p e) := onHead pure (fail e)

theorem takeIf (p : τ → Bool) : Online (takeIf p : Scanner τ ε (Option τ)) :=
  onHead (fun c => pure (some c)) (pure none)

theorem takeWhile (p : τ → Bool) : Online (takeWhile p : Scanner τ ε (List τ)) where
  suffix is := List.dropWhile_suffix p
  extend is more hne := by
    have hne' : is.dropWhile p ≠ [] := hne
    show (_, _) = (_, _)
    have hlen : (is.takeWhile p).length ≠ is.length := by
      intro hlen
      have happend := congrArg List.length (List.takeWhile_append_dropWhile (p := p) (l := is))
      rw [List.length_append, hlen] at happend
      exact hne' (List.length_eq_zero_iff.mp (by omega))
    rw [List.takeWhile_append, List.dropWhile_append, if_neg hlen,
      if_neg fun hempty => hne' (List.isEmpty_iff.mp hempty)]
    rfl

theorem foldWhile (p : τ → Bool) (f : α → τ → Except ε α) (a : α) : Online (foldWhile p f a) := by
  constructor
  · intro is
    induction is generalizing a with
    | nil => exact List.suffix_rfl
    | cons c is ih =>
      rw [Scanner.foldWhile]
      split_ifs with hc
      · cases f a c with
        | error e => exact List.suffix_cons c is
        | ok a => exact (ih a).trans (List.suffix_cons c is)
      · exact List.suffix_rfl
  · intro is more
    induction is generalizing a with
    | nil => exact fun hne => absurd rfl hne
    | cons c is ih =>
      rw [List.cons_append, Scanner.foldWhile, Scanner.foldWhile]
      split_ifs with hc
      · cases f a c with
        | error e => exact fun _ => rfl
        | ok a => exact ih a
      · exact fun _ => rfl

theorem many {item : Scanner τ ε (Option α)} (hitem : Online item) : Online (many item) := by
  constructor
  · intro is
    induction hn : is.length using Nat.strong_induction_on generalizing is with
    | _ n ih =>
      have hsuffix := hitem.suffix is
      rw [many_eq]
      rcases hr : item is with ⟨e | _ | a, rest⟩ <;> rw [hr] at hsuffix
      · exact hsuffix
      · exact hsuffix
      · dsimp only
        split_ifs with hlt
        · have hrest := ih rest.length (hn ▸ hlt) rest rfl
          rcases hm : Scanner.many item rest with ⟨e | as, rest'⟩ <;> rw [hm] at hrest <;>
            exact hrest.trans hsuffix
        · exact hsuffix
  · intro is more
    induction hn : is.length using Nat.strong_induction_on generalizing is with
    | _ n ih =>
      have hextend := hitem.extend is more
      have hnil : ∀ is : List τ, is = [] → (Scanner.many item is).2 = [] := by
        rintro is rfl
        have hitem := hitem.nil
        rw [many_eq]
        rcases hr : item [] with ⟨e | _ | a, rest⟩ <;> rw [hr] at hitem
        · exact hitem
        · exact hitem
        · dsimp only
          rw [if_neg (by simp)]
          exact hitem
      rw [many_eq, many_eq]
      rcases hr : item is with ⟨e | _ | a, rest⟩ <;> rw [hr] at hextend
      · intro hne
        rw [hextend hne]
      · intro hne
        rw [hextend hne]
      · dsimp only at hextend ⊢
        split_ifs with hlt
        · intro hne
          have hrest : rest ≠ [] := by
            rintro rfl
            rcases hm : Scanner.many item [] with ⟨e | as, rest'⟩ <;> rw [hm] at hne <;>
              exact hne ((congrArg Prod.snd hm).symm.trans (hnil [] rfl))
          rw [hextend hrest]
          have hlt' : (rest ++ more).length < (is ++ more).length := by
            rw [List.length_append, List.length_append]
            omega
          dsimp only
          rw [if_pos hlt']
          have hih := ih rest.length (hn ▸ hlt) rest rfl
          rcases hm : Scanner.many item rest with ⟨e | as, rest'⟩ <;> rw [hm] at hne hih <;>
            rw [hih hne]
        · intro hne
          rw [hextend hne]
          have hlt' : ¬(rest ++ more).length < (is ++ more).length := by
            rw [List.length_append, List.length_append]
            omega
          dsimp only
          rw [if_neg hlt']

end Online

namespace Settled

theorem pure (a : α) : Settled P (pure a : Scanner τ ε α) := by
  intro is more a rest _ h
  cases h
  rfl

theorem failAt (e : Option τ → ε) : Settled P (failAt e : Scanner τ ε α) := by
  intro is more a rest _ h
  cases (Prod.mk.inj h).1

theorem fail (e : ε) : Settled P (fail e : Scanner τ ε α) := failAt _

theorem bind {Q : β → Prop} (hf : Settled (fun _ => True) f) (hk : ∀ a, Settled Q (k a)) :
    Settled Q (f >>= k) := by
  intro is more b rest hb h
  rw [bind_apply] at h
  rcases hr : f is with ⟨e | a, mid⟩ <;> rw [hr] at h
  · cases (Prod.mk.inj h).1
  · rw [bind_of_ok (hf is more a mid trivial hr)]
    exact hk a mid more b rest hb h

theorem map {Q : β → Prop} {r : α → β} (hf : Settled (fun a => Q (r a)) f) :
    Settled Q (f >>= fun a => Pure.pure (r a)) := by
  intro is more b rest hb h
  rw [bind_apply] at h
  rcases hr : f is with ⟨e | a, mid⟩ <;> rw [hr] at h
  · cases (Prod.mk.inj h).1
  · cases h
    exact bind_of_ok (hf is more a rest hb hr)

/-- What is done without the element does not end well at the end of the text. -/
theorem onHead (hh : ∀ c, Settled P (h c)) (hg : Settled P g)
    (hend : ∀ a rest, g [] = (.ok a, rest) → ¬ P a) : Settled P (onHead p h g) := by
  intro is more a rest ha hr
  cases is with
  | nil => exact absurd ha (hend a rest hr)
  | cons c is =>
    rw [List.cons_append]
    cases hc : p c with
    | true =>
      rw [onHead_pos hc] at hr ⊢
      exact hh c is more a rest ha hr
    | false =>
      rw [onHead_neg hc] at hr ⊢
      rw [← List.cons_append]
      exact hg _ more a rest ha hr

theorem expect {Q : τ → Prop} (p : τ → Bool) (e : ε) : Settled Q (expect p e) :=
  onHead (fun _ => pure _) (fail e) fun _ _ h => by cases (Prod.mk.inj h).1

theorem many {item : Scanner τ ε (Option α)} (hitem : Settled (fun _ => True) item)
    {Q : List α → Prop} : Settled Q (many item) := by
  intro is
  induction hn : is.length using Nat.strong_induction_on generalizing is Q with
  | _ n ih =>
    intro more as rest _ hr
    rw [many_eq] at hr ⊢
    rcases hi : item is with ⟨e | _ | a, mid⟩ <;> rw [hi] at hr
    · cases (Prod.mk.inj hr).1
    · cases hr
      rw [hitem is more none _ trivial hi]
    · rw [hitem is more (some a) mid trivial hi]
      have hlt : (mid ++ more).length < (is ++ more).length ↔ mid.length < is.length := by
        rw [List.length_append, List.length_append]
        omega
      dsimp only at hr ⊢
      rw [if_congr hlt rfl rfl]
      split_ifs at hr ⊢ with hmid
      · rcases hm : Scanner.many item mid with ⟨e | as', mid'⟩ <;> rw [hm] at hr
        · cases (Prod.mk.inj hr).1
        · obtain ⟨has, rfl⟩ := Prod.mk.inj hr
          rw [ih mid.length (hn ▸ hmid) mid rfl (Q := fun _ => True) more as' mid' trivial hm]
          exact congrArg (·, mid' ++ more) has
      · cases hr
        rfl

/-- There is nothing to show for results that are not meant. -/
theorem of_not (h : ∀ is a rest, f is = (.ok a, rest) → ¬ P a) : Settled P f :=
  fun is _ a rest ha hr => absurd ha (h is a rest hr)

end Settled

/-! ## The end of a text -/

/-- A text that the element ends is read as if nothing came behind it. -/
def Terminated (z : τ) (f : Scanner τ ε α) : Prop :=
  ∀ is behind, f (is ++ z :: behind) = ((f is).1, (f is).2 ++ z :: behind)

namespace Terminated

variable {z : τ}

theorem pure (a : α) : Terminated z (pure a : Scanner τ ε α) := fun _ _ => rfl

theorem failAt {e : Option τ → ε} (he : e (some z) = e none) :
    Terminated z (failAt e : Scanner τ ε α) := by
  intro is behind
  cases is with
  | nil => exact congrArg (fun e => ((.error e : Except ε α), z :: behind)) he
  | cons c is => rfl

theorem fail (e : ε) : Terminated z (fail e : Scanner τ ε α) := failAt rfl

theorem bind (hf : Terminated z f) (hk : ∀ a, Terminated z (k a)) : Terminated z (f >>= k) := by
  intro is behind
  rw [bind_apply, bind_apply, hf is behind]
  rcases f is with ⟨e | a, rest⟩
  · rfl
  · exact hk a rest behind

theorem onHead (hz : p z = false) (hh : ∀ c, Terminated z (h c)) (hg : Terminated z g) :
    Terminated z (onHead p h g) := by
  intro is behind
  cases is with
  | nil =>
    rw [List.nil_append, onHead_neg hz, onHead_nil]
    exact hg [] behind
  | cons c is =>
    rw [List.cons_append]
    cases hc : p c with
    | true =>
      rw [onHead_pos hc, onHead_pos hc]
      exact hh c is behind
    | false =>
      rw [onHead_neg hc, onHead_neg hc]
      exact hg (c :: is) behind

theorem expect (hz : p z = false) (e : ε) : Terminated z (expect p e) :=
  onHead hz pure (fail e)

theorem takeIf (hz : p z = false) : Terminated z (takeIf p : Scanner τ ε (Option τ)) :=
  onHead hz (fun c => pure (some c)) (pure none)

theorem takeWhile (hz : p z = false) : Terminated z (takeWhile p : Scanner τ ε (List τ)) := by
  intro is behind
  have h : (is ++ z :: behind).takeWhile p = is.takeWhile p ∧
      (is ++ z :: behind).dropWhile p = is.dropWhile p ++ z :: behind := by
    induction is with
    | nil => simp [hz]
    | cons c is ih => cases hc : p c <;> simp [hc, ih]
  exact Prod.ext (congrArg Except.ok h.1) h.2

theorem foldWhile (hz : p z = false) (s : α → τ → Except ε α) (a : α) :
    Terminated z (foldWhile p s a) := by
  intro is behind
  induction is generalizing a with
  | nil => simp [Scanner.foldWhile, hz]
  | cons c is ih =>
    rw [List.cons_append, Scanner.foldWhile, Scanner.foldWhile]
    split_ifs
    · cases s a c with
      | error e => rfl
      | ok a => exact ih a
    · rfl

theorem many {item : Scanner τ ε (Option α)} (hitem : Terminated z item) :
    Terminated z (many item) := by
  intro is behind
  induction hn : is.length using Nat.strong_induction_on generalizing is with
  | _ n ih =>
    rw [many_eq, many_eq, hitem is behind]
    rcases item is with ⟨e | _ | a, rest⟩
    · rfl
    · rfl
    · have hlt : (rest ++ z :: behind).length < (is ++ z :: behind).length ↔
          rest.length < is.length := by
        rw [List.length_append, List.length_append]
        omega
      dsimp only
      rw [if_congr hlt rfl rfl]
      split_ifs with hrest
      · rw [ih rest.length (hn ▸ hrest) rest rfl]
        rcases Scanner.many item rest with ⟨e | as, rest'⟩ <;> rfl
      · rfl

end Terminated

/-! ## Progress -/

/-- A success makes the text shorter. -/
def Consumes (f : Scanner τ ε α) : Prop :=
  ∀ is a rest, f is = (.ok a, rest) → rest.length < is.length

namespace Consumes

theorem fail (e : ε) : Consumes (fail e : Scanner τ ε α) := by
  intro is a rest hr
  cases (Prod.mk.inj hr).1

theorem failAt (e : Option τ → ε) : Consumes (failAt e : Scanner τ ε α) := by
  intro is a rest hr
  cases (Prod.mk.inj hr).1

theorem onHead (hh : ∀ c, Online (h c)) (hg : Consumes g) : Consumes (onHead p h g) := by
  intro is a rest hr
  cases is with
  | nil => exact hg [] a rest hr
  | cons c is =>
    cases hc : p c with
    | true =>
      rw [onHead_pos hc] at hr
      have hsuffix := (hh c).suffix is
      rw [hr] at hsuffix
      exact Nat.lt_succ_of_le hsuffix.length_le
    | false =>
      rw [onHead_neg hc] at hr
      exact hg _ a rest hr

theorem expect (p : τ → Bool) (e : ε) : Consumes (expect p e) :=
  onHead (fun c => Online.pure c) (fail e)

/-- It is enough that the first of two scanners takes something. -/
theorem bind_left (hf : Consumes f) (hk : ∀ a, Online (k a)) : Consumes (f >>= k) := by
  intro is b rest hr
  rw [bind_apply] at hr
  rcases hfis : f is with ⟨e | a, mid⟩ <;> rw [hfis] at hr
  · cases (Prod.mk.inj hr).1
  · have hr : k a mid = (.ok b, rest) := hr
    have hsuffix := (hk a).suffix mid
    rw [hr] at hsuffix
    exact hsuffix.length_le.trans_lt (hf is a mid hfis)

/-- It is enough that the second one does. -/
theorem bind_right (hf : Online f) (hk : ∀ a, Consumes (k a)) : Consumes (f >>= k) := by
  intro is b rest hr
  rw [bind_apply] at hr
  rcases hfis : f is with ⟨e | a, mid⟩ <;> rw [hfis] at hr
  · cases (Prod.mk.inj hr).1
  · have hsuffix := hf.suffix is
    rw [hfis] at hsuffix
    exact (hk a mid b rest hr).trans_le hsuffix.length_le

end Consumes

/-- The loop of `many` as it runs, with nothing that stops it. -/
inductive Many (item : Scanner τ ε (Option α)) : List τ → Except ε (List α) × List τ → Prop
  | last {is rest : List τ} : item is = (.ok none, rest) → Many item is (.ok [], rest)
  | more {is rest rest' : List τ} {a : α} {as : List α} :
    item is = (.ok (some a), rest) → Many item rest (.ok as, rest') →
    Many item is (.ok (a :: as), rest')
  | moreError {is rest rest' : List τ} {a : α} {e : ε} :
    item is = (.ok (some a), rest) → Many item rest (.error e, rest') →
    Many item is (.error e, rest')
  | error {is rest : List τ} {e : ε} : item is = (.error e, rest) → Many item is (.error e, rest)

/-- The loop ends where every item takes something. -/
theorem Consumes.many_runs {item : Scanner τ ε (Option α)} (hitem : Consumes item)
    (is : List τ) : Many item is (Scanner.many item is) := by
  induction hn : is.length using Nat.strong_induction_on generalizing is with
  | _ n ih =>
    rw [many_eq]
    rcases hr : item is with ⟨e | _ | a, rest⟩
    · exact .error hr
    · exact .last hr
    · have hlt := hitem is _ rest hr
      have hrest := ih rest.length (hn ▸ hlt) rest rfl
      dsimp only
      rw [if_pos hlt]
      rcases hm : Scanner.many item rest with ⟨e | as, rest'⟩ <;> rw [hm] at hrest
      · exact .moreError hr hrest
      · exact .more hr hrest

/-! ## What is read -/

/-- A list of items, and the last one. -/
theorem many_append {item : Scanner τ ε (Option α)} {γ : Type} {text : γ → List τ} {value : γ → α}
    {last : List τ} {xs : List γ}
    (hitem : ∀ x ∈ xs, text x ≠ [] ∧ ∀ rest, item (text x ++ rest) = (.ok (some (value x)), rest))
    (hlast : item (last ++ rest) = (.ok none, rest)) :
    many item (xs.flatMap text ++ (last ++ rest)) = (.ok (xs.map value), rest) := by
  induction xs with
  | nil =>
    rw [List.flatMap_nil, List.nil_append, many_eq, hlast]
    rfl
  | cons x xs ih =>
    obtain ⟨⟨hne, hx⟩, hxs⟩ := List.forall_mem_cons.mp hitem
    have hlt : (xs.flatMap text ++ (last ++ rest)).length <
        (text x ++ (xs.flatMap text ++ (last ++ rest))).length := by
      have hpos := List.length_pos_iff.mpr hne
      have hlength : (text x ++ (xs.flatMap text ++ (last ++ rest))).length =
          (text x).length + (xs.flatMap text ++ (last ++ rest)).length := List.length_append
      omega
    rw [List.flatMap_cons, List.append_assoc, many_eq, hx]
    dsimp only
    rw [if_pos hlt, ih hxs]
    rfl

/-- Elements with the property, and then one without it. -/
theorem takeWhile_append {ds : List τ} (hds : ∀ c ∈ ds, p c = true)
    (hrest : ∀ c, rest.head? = some c → p c = false) :
    (takeWhile p : Scanner τ ε (List τ)) (ds ++ rest) = (.ok ds, rest) := by
  have hhead : rest.takeWhile p = [] ∧ rest.dropWhile p = rest := by
    cases rest with
    | nil => exact ⟨rfl, rfl⟩
    | cons c rest =>
      have hc := hrest c rfl
      exact ⟨by rw [List.takeWhile_cons, hc]; rfl, by rw [List.dropWhile_cons, hc]; rfl⟩
  show (_, _) = (_, _)
  rw [List.takeWhile_append_of_pos hds, List.dropWhile_append_of_pos hds, hhead.1, hhead.2,
    List.append_nil]

end Scanner
