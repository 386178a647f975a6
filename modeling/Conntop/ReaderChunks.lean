import Conntop.Reader

/-!
# The reader at the end of a chunk

A stream that is cut somewhere. What `IterativeParseNext` does with the beginning of a stream stands
when the stream goes on, unless it came to the end: then it returns false without an error and has
undone what it did, but for a number, which `popLastValue` removes.

The scanners of the reader are `Online`, and those of everything but a number are `Settled`. From
that the rounds of the loop get it, and from the rounds the loop.

Main result: `next_stands`.
-/

namespace Conntop

/-! ## Scanners -/

namespace Reader

open Scanner

theorem online_take : Online take := .expect _ _

theorem online_parseHexDigit : Online parseHexDigit := (Online.expect _ _).bind fun _ => .pure _

theorem online_parseHex4 : Online parseHex4 :=
  online_parseHexDigit.bind fun _ => online_parseHexDigit.bind fun _ =>
    online_parseHexDigit.bind fun _ => online_parseHexDigit.bind fun _ => .pure _

theorem online_parseUnicode : Online parseUnicode := by
  refine online_parseHex4.bind fun codepoint => ?_
  split_ifs
  · refine (Online.expect _ _).bind fun _ => (Online.expect _ _).bind fun _ => ?_
    refine online_parseHex4.bind fun codepoint2 => ?_
    split_ifs
    · exact .fail _
    · exact .pure _
  · exact .pure _

/-- An escape that is read before the end of the buffer does not depend on what follows. -/
theorem online_parseEscape : Online parseEscape :=
  .onHead (fun _ => .pure _) (.onHead (fun _ => online_parseUnicode) (.fail _))

theorem online_parseChar : Online parseChar :=
  .onHead (fun _ => online_parseEscape.bind fun _ => .pure _)
    (.onHead (fun _ => .pure _) (.onHead (fun _ => .pure _) (.failAt _)))

/-- What is read of a string does not depend on what is behind its end. -/
theorem online_parseString : Online parseString := online_parseChar.many.bind fun _ => .pure _

theorem online_parseInt : Online parseInt :=
  .onHead (fun _ => .pure _) (.onHead (fun _ => (Online.takeWhile _).bind fun _ => .pure _)
    (.fail _))

theorem online_parseFrac : Online parseFrac :=
  .onHead (fun _ => (Online.expect _ _).bind fun _ => (Online.takeWhile _).bind fun _ => .pure _)
    (.pure _)

theorem online_parseExp (maxExp : ℕ) : Online (parseExp maxExp) := by
  refine .onHead (fun e => ?_) (.pure _)
  refine (Online.takeIf _).bind fun sign => (Online.expect _ _).bind fun d => ?_
  split_ifs
  · exact (Online.takeWhile _).bind fun _ => .pure _
  · exact (Online.foldWhile _ _ _).bind fun _ => .pure _

theorem online_parseToken : Online parseToken :=
  (Online.takeIf _).bind fun _ => online_parseInt.bind fun _ => online_parseFrac.bind fun _ =>
    (online_parseExp _).bind fun _ => .pure _

theorem online_parseNumber (D : Strtod) : Online (parseNumber D) := by
  refine online_parseToken.bind fun token => ?_
  cases token.toValue D with
  | ok v => exact .pure v
  | error e => exact .fail e

theorem online_consume (cs : List Char) : Online (consume cs) := by
  induction cs with
  | nil => exact .pure ()
  | cons c cs ih => exact (Online.expect _ _).bind fun _ => ih

/-- A value that is read before the end of the buffer is read from a longer one, too. -/
theorem online_parseValue (D : Strtod) : Online (parseValue D) :=
  .onHead (fun _ => (online_consume _).bind fun _ => .pure _)
    (.onHead (fun _ => (online_consume _).bind fun _ => .pure _)
      (.onHead (fun _ => (online_consume _).bind fun _ => .pure _)
        (.onHead (fun _ => online_parseString.bind fun _ => .pure _)
          ((online_parseNumber D).bind fun _ => .pure _))))

theorem settled_parseChar : Settled (fun _ => True) parseChar := by
  have hdigit : Settled (fun _ => True) parseHexDigit := (Settled.expect _ _).bind fun _ => .pure _
  have hhex : Settled (fun _ => True) parseHex4 :=
    hdigit.bind fun _ => hdigit.bind fun _ => hdigit.bind fun _ => hdigit.bind fun _ => .pure _
  have hunicode : Settled (fun _ => True) parseUnicode := by
    refine hhex.bind fun codepoint => ?_
    split_ifs
    · refine (Settled.expect _ _).bind fun _ => (Settled.expect _ _).bind fun _ => ?_
      refine hhex.bind fun codepoint2 => ?_
      split_ifs
      · exact .fail _
      · exact .pure _
    · exact .pure _
  have hescape : Settled (fun _ => True) parseEscape :=
    .onHead (fun _ => .pure _)
      (.onHead (fun _ => hunicode) (.fail _) fun _ _ h => by cases (Prod.mk.inj h).1)
      fun _ _ h => by cases (Prod.mk.inj h).1
  exact .onHead (fun _ => hescape.bind fun _ => .pure _)
    (.onHead (fun _ => .pure _)
      (.onHead (fun _ => .pure _) (.failAt _) fun _ _ h => by cases (Prod.mk.inj h).1)
      fun _ _ h => by cases (Prod.mk.inj h).1)
    fun _ _ h => by cases (Prod.mk.inj h).1

/-- A string that has ended is the same with more text behind it. -/
theorem settled_parseString {P : String → Prop} : Settled P parseString :=
  (settled_parseChar.many).bind fun _ => .pure _

theorem settled_consume (cs : List Char) : Settled (fun _ => True) (consume cs) := by
  induction cs with
  | nil => exact .pure ()
  | cons c cs ih => exact (Settled.expect _ _).bind fun _ => ih

/-- A value that is not a number stands. -/
theorem settled_parseValue (D : Strtod) : Settled (fun r => r.2 = false) (parseValue D) := by
  have hnumber : ∀ is a rest, (do return (← parseNumber D, true) : Parse (Value × Bool)) is =
      (.ok a, rest) → ¬ a.2 = false := by
    intro is a rest h
    rw [bind_apply] at h
    rcases hr : parseNumber D is with ⟨e | v, mid⟩ <;> rw [hr] at h
    · cases (Prod.mk.inj h).1
    · cases h
      exact Bool.false_ne_true.symm
  have hlast : Settled (fun r => r.2 = false)
      (onHead (· == '"') (fun _ => do return (.string (← parseString), false))
        (do return (← parseNumber D, true)) : Parse (Value × Bool)) :=
    .onHead (fun _ => settled_parseString.bind fun _ => .pure _) (.of_not hnumber)
      fun a rest h => hnumber [] a rest h
  exact .onHead (fun _ => (settled_consume _).bind fun _ => .pure _)
    (.onHead (fun _ => (settled_consume _).bind fun _ => .pure _)
      (.onHead (fun _ => (settled_consume _).bind fun _ => .pure _) hlast
        fun a rest h => hnumber [] a rest h)
      fun a rest h => hnumber [] a rest h)
    fun a rest h => hnumber [] a rest h

end Reader

namespace MessageParser

open Scanner Reader

variable (D : Strtod) {p : MessageParser}

/-- Everything that a transition can do: it fails, it takes a character and may read a name behind
it, or it reads a value. -/
theorem transit_cases (D : Strtod) (p : MessageParser) (n : ParsingState) :
    (∃ e, p.transit D n = fail e) ∨
      (∃ r, p.transit D n = (do let _ ← take; return r : Parse _)) ∨
      (p.transit D n = do
        let _ ← take
        return (p.push (.string (← parseString)) .memberKey, false)) ∨
      ∃ state, p.transit D n = p.parseInto D state := by
  cases n with
  | error => exact .inl ⟨_, rfl⟩
  | memberKey => exact .inr (.inr (.inl rfl))
  | objectInitial => exact .inr (.inl ⟨_, rfl⟩)
  | arrayInitial => exact .inr (.inl ⟨_, rfl⟩)
  | keyValueDelimiter => exact .inr (.inl ⟨_, rfl⟩)
  | memberDelimiter => exact .inr (.inl ⟨_, rfl⟩)
  | elementDelimiter => exact .inr (.inl ⟨_, rfl⟩)
  | objectFinish =>
    rw [transit]
    split_ifs
    · exact .inl ⟨_, rfl⟩
    · exact .inr (.inl ⟨_, rfl⟩)
  | arrayFinish =>
    rw [transit]
    split_ifs
    · exact .inl ⟨_, rfl⟩
    · exact .inr (.inl ⟨_, rfl⟩)
  | memberValue => exact .inr (.inr (.inr ⟨_, rfl⟩))
  | element => exact .inr (.inr (.inr ⟨_, rfl⟩))
  | finish => exact .inr (.inr (.inr ⟨_, rfl⟩))
  | start => exact .inr (.inr (.inr ⟨_, rfl⟩))
  | value => exact .inr (.inr (.inr ⟨_, rfl⟩))

theorem online_transit (n : ParsingState) : Online (p.transit D n) := by
  obtain ⟨e, h⟩ | ⟨r, h⟩ | h | ⟨state, h⟩ := transit_cases D p n <;> rw [h]
  · exact .fail _
  · exact online_take.bind fun _ => .pure _
  · exact online_take.bind fun _ => online_parseString.bind fun _ => .pure _
  · exact (online_parseValue D).bind fun _ => .pure _

/-- A transition stands that does not end with a number. -/
theorem settled_transit (n : ParsingState) : Settled (fun r => r.2 = false) (p.transit D n) := by
  obtain ⟨e, h⟩ | ⟨r, h⟩ | h | ⟨state, h⟩ := transit_cases D p n <;> rw [h]
  · exact .fail _
  · exact (Settled.expect _ _).bind fun _ => .pure _
  · exact (Settled.expect _ _).bind fun _ => settled_parseString.bind fun _ => .pure _
  · exact (settled_parseValue D).map

/-! ## The beginning of a stream -/

variable {D}

theorem isDelimiter_predict {state : ParsingState} {t : Token}
    (h : (predict state t).isDelimiter = true) : state.isDelimiter = false := by
  revert h
  cases state <;> cases t <;> decide

/-- A message that is a single value is predicted at its start only. -/
theorem eq_start_of_predict {state : ParsingState} {t : Token}
    (h : predict state t ∈ [.finish, .start, .value]) :
    state = .start ∧ t ≠ .leftCurlyBracket := by
  revert h
  cases state <;> cases t <;> decide

theorem of_take {α : Type} {r r' : α} {is rest : List Char}
    (h : (do let _ ← take; return r : Parse α) is = (.ok r', rest)) :
    r' = r ∧ ∃ c, is = c :: rest := by
  cases is with
  | nil => cases (Prod.mk.inj h).1
  | cons c is =>
    cases h
    exact ⟨rfl, c, rfl⟩

theorem of_parseInto {state : ParsingState} {r : MessageParser × Bool} {is rest : List Char}
    (h : p.parseInto D state is = (.ok r, rest)) : ∃ v, r.1 = p.push v state := by
  unfold parseInto at h
  rw [bind_apply] at h
  rcases hr : parseValue D is with ⟨e | v, mid⟩ <;> rw [hr] at h
  · cases (Prod.mk.inj h).1
  · cases h
    exact ⟨v.1, rfl⟩

/-- Only `ParseValue` ends with a number. -/
theorem transit_number {n : ParsingState} {p' : MessageParser} {is rest : List Char}
    (h : p.transit D n is = (.ok (p', true), rest)) :
    (∃ v, p' = p.push v n ∧ n ≠ .finish) ∨ n ∈ [.finish, .start, .value] := by
  have htake : ∀ {r : MessageParser},
      (do let _ ← take; return (r, false) : Parse _) is = (.ok (p', true), rest) → False := by
    intro r h
    cases (of_take h).1
  cases n with
  | error => cases (Prod.mk.inj h).1
  | objectInitial => exact (htake h).elim
  | arrayInitial => exact (htake h).elim
  | memberKey =>
    cases is with
    | nil => cases (Prod.mk.inj h).1
    | cons c is =>
      rw [transit, bind_of_ok (show take (c :: is) = (.ok c, is) from rfl), bind_apply] at h
      rcases hr : parseString is with ⟨e | s, mid⟩ <;> rw [hr] at h
      · cases (Prod.mk.inj h).1
      · cases h
  | keyValueDelimiter => exact (htake h).elim
  | memberValue =>
    obtain ⟨v, hv⟩ := of_parseInto h
    exact .inl ⟨v, hv, by decide⟩
  | element =>
    obtain ⟨v, hv⟩ := of_parseInto h
    exact .inl ⟨v, hv, by decide⟩
  | memberDelimiter => exact (htake h).elim
  | elementDelimiter => exact (htake h).elim
  | objectFinish =>
    rw [transit] at h
    split_ifs at h
    · cases (Prod.mk.inj h).1
    · exact (htake h).elim
  | arrayFinish =>
    rw [transit] at h
    split_ifs at h
    · cases (Prod.mk.inj h).1
    · exact (htake h).elim
  | finish => exact .inr (by decide)
  | start => exact .inr (by decide)
  | value => exact .inr (by decide)

/-- A delimiter is taken, and what it does is undone. -/
theorem transit_delimiter {n : ParsingState} {r : MessageParser × Bool} {is rest : List Char}
    (hn : n.isDelimiter = true) (hp : p.state.isDelimiter = false)
    (h : p.transit D n is = (.ok r, rest)) :
    r.2 = false ∧ r.1.state = n ∧ r.1.rollback p.state = p ∧ rest.length < is.length := by
  have hne : p.state ≠ n := by
    rintro rfl
    rw [hn] at hp
    cases hp
  have hcount : ∀ state, p.state ≠ state →
      state = .memberDelimiter ∨ state = .elementDelimiter →
      (p.countOne state).rollback p.state = p := by
    intro state hne hstate
    have hne : p.state ≠ (p.countOne state).state := hne
    have hstate : (p.countOne state).state = .memberDelimiter ∨
        (p.countOne state).state = .elementDelimiter := hstate
    rw [rollback, if_neg hne, if_pos hstate]
    cases p with
    | mk state' stack handler => cases stack <;> rfl
  cases n with
  | keyValueDelimiter =>
    obtain ⟨rfl, c, rfl⟩ := of_take h
    refine ⟨rfl, rfl, ?_, Nat.lt_succ_self _⟩
    rw [rollback, if_neg hne]
    rfl
  | memberDelimiter =>
    obtain ⟨rfl, c, rfl⟩ := of_take h
    exact ⟨rfl, rfl, hcount _ hne (.inl rfl), Nat.lt_succ_self _⟩
  | elementDelimiter =>
    obtain ⟨rfl, c, rfl⟩ := of_take h
    exact ⟨rfl, rfl, hcount _ hne (.inr rfl), Nat.lt_succ_self _⟩
  | _ => cases hn

theorem transit_end {state : ParsingState} :
    ∃ e, p.transit D (predict state (tokenize (peek []))) [] = (.error e, []) := by
  cases state <;> exact ⟨_, rfl⟩

/-- The values that the handler has are kept. -/
theorem rollback_handler (prevState : ParsingState) :
    (p.rollback prevState).handler = p.handler := by
  unfold rollback
  split_ifs <;> rfl

/-- A result that came to the end of the stream has undone what was done. What comes out otherwise,
comes out of every `longer` stream. -/
def Stands (undone : MessageParser)
    (longer : List Char → NextResult × MessageParser × List Char → Prop) :
    NextResult × MessageParser × List Char → Prop
  | (.incomplete isLastValueInvalid, p', rest) =>
    rest = [] ∧ (if isLastValueInvalid then p'.popLastValue else p') = undone
  | (result, p', rest) => ∀ more, longer more (result, p', rest ++ more)

theorem Stands.imp {undone : MessageParser}
    {longer longer' : List Char → NextResult × MessageParser × List Char → Prop}
    {r : NextResult × MessageParser × List Char} (h : Stands undone longer r)
    (himp : ∀ more r, longer more r → longer' more r) : Stands undone longer' r := by
  obtain ⟨result, p', rest⟩ := r
  cases result with
  | incomplete isLastValueInvalid => exact h
  | parsed => exact fun more => himp more _ (h more)
  | failed code => exact fun more => himp more _ (h more)

/-- How one round of the reader ends, for a buffer that may go on. -/
def RoundStands (D : Strtod) (prevState : ParsingState) (p : MessageParser) (is : List Char) :
    (NextResult × MessageParser × List Char) ⊕ (MessageParser × List Char) → Prop
  | .inl r =>
    Stands (p.rollback prevState) (fun more r => p.nextRound D prevState (is ++ more) = .inl r) r
  | .inr (p', rest) =>
    (∀ more, p.nextRound D prevState (is ++ more) = .inr (p', rest ++ more)) ∧
      rest.length < is.length ∧ rest <:+ is ∧ p'.state.isDelimiter = true ∧
        p'.rollback prevState = p.rollback prevState

/-- A round ends as it does with a longer buffer, or it is rolled back. -/
theorem nextRound_stands {prevState : ParsingState} {is : List Char} (hnul : '\x00' ∉ is)
    (hprev : p.state.isDelimiter = false → p.state = prevState)
    (hstart : p.state = .start → peek (is.dropWhile isWhitespace) ∈ ['\x00', '{']) :
    RoundStands D prevState p is (p.nextRound D prevState is) := by
  have hsuffix : is.dropWhile isWhitespace <:+ is := List.dropWhile_suffix _
  cases hs : is.dropWhile isWhitespace with
  -- only blanks are left, and the round undoes what it did
  | nil =>
    have htransit : ∃ e, p.transit D (predict p.state (tokenize (peek []))) [] = (.error e, []) :=
      transit_end
    obtain ⟨e, he⟩ := htransit
    have hpeek : peek [] = '\x00' := rfl
    rw [nextRound, hs, he, afterTransit, if_pos hpeek]
    exact ⟨rfl, rfl⟩
  | cons c cs =>
    -- blanks are skipped in both streams, so both rounds start at the same character
    have hround : ∀ more, p.nextRound D prevState (is ++ more) =
        p.afterTransit prevState (predict p.state (tokenize c))
          (p.transit D (predict p.state (tokenize c)) (c :: cs ++ more)) := by
      intro more
      rw [nextRound, List.dropWhile_append, hs]
      rfl
    have hround₀ := hround []
    rw [List.append_nil, List.append_nil] at hround₀
    rw [hround₀]
    have hc : c ≠ '\x00' := fun h => hnul (hsuffix.subset (hs ▸ h ▸ List.mem_cons_self))
    -- no NUL is inside the stream: where the reader sees one, the stream is at its end
    have hends : ∀ rest, rest <:+ c :: cs → peek rest = '\x00' → rest = [] := by
      intro rest hrest hpeek
      cases rest with
      | nil => rfl
      | cons d rest =>
        have hd : d = '\x00' := hpeek
        exact absurd (hsuffix.subset (hs ▸ hrest.subset (hd ▸ List.mem_cons_self))) hnul
    have honline := online_transit D (p := p) (predict p.state (tokenize c))
    have hrest := honline.suffix (c :: cs)
    have hextend := honline.extend (c :: cs)
    rcases htransit : p.transit D (predict p.state (tokenize c)) (c :: cs) with
      ⟨code | ⟨p', isNumber⟩, rest⟩ <;> rw [htransit] at hrest hextend
    · -- an error at the end is no error yet
      rw [afterTransit]
      by_cases hpeek : peek rest = '\x00'
      · rw [if_pos hpeek]
        exact ⟨hends rest hrest hpeek, rfl⟩
      · rw [if_neg hpeek]
        intro more
        have hne : rest ≠ [] := by
          rintro rfl
          exact hpeek rfl
        have hpeek' : peek (rest ++ more) ≠ '\x00' := by
          cases rest with
          | nil => exact absurd rfl hne
          | cons d rest => exact hpeek
        rw [hround, hextend more hne, afterTransit, if_neg hpeek']
    · -- a number at the end is not settled, everything else is
      have hstands : ¬(isNumber = true ∧ peek rest = '\x00') → ∀ more,
          p.transit D (predict p.state (tokenize c)) (c :: cs ++ more) =
            (.ok (p', isNumber), rest ++ more) := by
        intro hnot more
        by_cases hne : rest = []
        · cases isNumber with
          | true => exact absurd ⟨rfl, by rw [hne]; rfl⟩ hnot
          | false => exact settled_transit D _ _ more _ rest rfl htransit
        · exact hextend more hne
      -- a message is no number
      have hpush : isNumber = true →
          ∃ v, p' = p.push v (predict p.state (tokenize c)) ∧
            predict p.state (tokenize c) ≠ .finish := by
        rintro rfl
        obtain hpush | hn := transit_number htransit
        · exact hpush
        · obtain ⟨hp, ht⟩ := eq_start_of_predict hn
          have hpeek := hstart hp
          rw [hs] at hpeek
          obtain hpeek | hpeek := List.mem_pair.mp hpeek
          · exact absurd hpeek hc
          · have hc' : c = '{' := hpeek
            exact absurd (by rw [hc']; rfl) ht
      rw [afterTransit]
      -- a message ends here on every longer stream
      by_cases hfinish : p'.state = .finish
      · rw [if_pos hfinish]
        intro more
        have hnot : ¬(isNumber = true ∧ peek rest = '\x00') := by
          rintro ⟨hnumber, -⟩
          obtain ⟨v, rfl, hne⟩ := hpush hnumber
          exact hne hfinish
        rw [hround, hstands hnot, afterTransit, if_pos hfinish]
      · rw [if_neg hfinish]
        -- a number at the end is taken back, since its next digit may come
        by_cases hnumber : isNumber = true ∧ peek rest = '\x00'
        · rw [if_pos hnumber]
          refine ⟨hends rest hrest hnumber.2, ?_⟩
          obtain ⟨v, rfl, -⟩ := hpush hnumber.1
          show popLastValue { p.rollback prevState with handler := v :: p.handler } = _
          rw [popLastValue, List.tail_cons, ← rollback_handler prevState]
        · rw [if_neg hnumber]
          have hnumber' : ∀ more, ¬(isNumber = true ∧ peek (rest ++ more) = '\x00') := by
            rintro more ⟨hn, hpeek⟩
            cases rest with
            | nil => exact hnumber ⟨hn, rfl⟩
            | cons d rest => exact hnumber ⟨hn, hpeek⟩
          -- a delimiter is not reported, and the loop goes on from the shorter rest
          by_cases hdelimiter : (predict p.state (tokenize c)).isDelimiter = true
          · rw [if_pos hdelimiter]
            have hp := isDelimiter_predict hdelimiter
            obtain ⟨-, hstate, hback, hlt⟩ := transit_delimiter hdelimiter hp htransit
            refine ⟨fun more => ?_, ?_, hrest.trans (hs ▸ hsuffix), ?_, ?_⟩
            · rw [hround, hstands hnumber, afterTransit, if_neg hfinish, if_neg (hnumber' more),
                if_pos hdelimiter]
            · exact hlt.trans_le (hs ▸ hsuffix.length_le)
            · exact hstate ▸ hdelimiter
            · rw [← hprev hp]
              exact hback.trans (if_pos rfl).symm
          · rw [if_neg hdelimiter]
            intro more
            rw [hround, hstands hnumber, afterTransit, if_neg hfinish, if_neg (hnumber' more),
              if_neg hdelimiter]

theorem nextLoop_succ {prevState : ParsingState} {is : List Char} (h : peek is ≠ '\x00')
    (fuel : ℕ) : nextLoop D prevState (fuel + 1) p is =
      match p.nextRound D prevState is with
      | .inl result => result
      | .inr (p, is) => nextLoop D prevState fuel p is := by
  rw [nextLoop]
  exact if_neg h

/-- All rounds of a call, by the number of the characters that are left. -/
theorem nextLoop_stands {prevState : ParsingState} {fuel : ℕ} {is : List Char}
    (hfuel : is.length < fuel) (hnul : '\x00' ∉ is) (hfinish : p.state ≠ .finish)
    (hprev : p.state.isDelimiter = false → p.state = prevState)
    (hstart : p.state = .start → peek (is.dropWhile isWhitespace) ∈ ['\x00', '{']) :
    Stands (p.rollback prevState) (fun more r => ∀ fuel, (is ++ more).length < fuel →
      nextLoop D prevState fuel p (is ++ more) = r) (nextLoop D prevState fuel p is) := by
  induction fuel generalizing p is with
  | zero => exact absurd hfuel (Nat.not_lt_zero _)
  | succ fuel ih =>
    cases is with
    | nil =>
      have hpeek : peek [] = '\x00' := rfl
      rw [nextLoop, if_pos hpeek, if_neg hfinish]
      exact ⟨rfl, rfl⟩
    | cons c cs =>
      have hpeek : peek (c :: cs) ≠ '\x00' := fun h => hnul (h ▸ List.mem_cons_self)
      have hpeek' : ∀ more, peek (c :: cs ++ more) ≠ '\x00' := fun _ => hpeek
      have hround := nextRound_stands (D := D) hnul hprev hstart
      rw [nextLoop_succ hpeek]
      cases hr : p.nextRound D prevState (c :: cs) with
      -- the round reports something: more of the stream changes nothing of it
      | inl r =>
        rw [hr, RoundStands] at hround
        refine hround.imp fun more r hmore fuel hlt => ?_
        cases fuel with
        | zero => exact absurd hlt (Nat.not_lt_zero _)
        | succ fuel => rw [nextLoop_succ (hpeek' more), hmore]
      -- the round was a delimiter: the invariant holds of the rest, which is shorter
      | inr r =>
        rw [hr] at hround
        obtain ⟨p', rest⟩ := r
        obtain ⟨hmore, hlt, hsuffix, hstate, hback⟩ := hround
        have hdelimiter : ∀ state : ParsingState, state.isDelimiter = false → p'.state ≠ state := by
          rintro state hs rfl
          rw [hstate] at hs
          cases hs
        have hprev' : p'.state.isDelimiter = false → p'.state = prevState := by
          intro h
          rw [hstate] at h
          cases h
        have hshort : rest.length < fuel := by omega
        have hrest := ih hshort (fun h => hnul (hsuffix.subset h)) (hdelimiter _ rfl) hprev'
          (fun h => absurd h (hdelimiter _ rfl))
        rw [hback] at hrest
        refine hrest.imp fun more r hnext fuel hlt => ?_
        cases fuel with
        | zero => exact absurd hlt (Nat.not_lt_zero _)
        | succ fuel =>
          rw [nextLoop_succ (hpeek' more), hmore]
          refine hnext fuel ?_
          rw [List.length_append] at hlt ⊢
          omega

/-- What `IterativeParseNext` does with `is`, it does with every longer stream, unless it comes to
the end. Then it has undone what it did. -/
theorem next_stands {is : List Char} (hnul : '\x00' ∉ is) (hfinish : p.state ≠ .finish)
    (hstart : p.state = .start → peek (is.dropWhile isWhitespace) ∈ ['\x00', '{']) :
    Stands p (fun more r => p.next D (is ++ more) = r) (p.next D is) := by
  have h := nextLoop_stands (D := D) (Nat.lt_succ_self _) hnul hfinish (fun _ => rfl) hstart
  rw [rollback, if_pos rfl] at h
  exact h.imp fun more r hr => hr _ (Nat.lt_succ_self _)

end MessageParser

end Conntop
