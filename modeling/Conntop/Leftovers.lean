import Conntop.ReceiveBuffer

/-!
# What a reader has left

Between two calls of `doReceive` a reader holds the beginning of one token, and its parser is new,
or inside an object or an array, or it has handed a message over to a callback that has thrown.

* `Nested` is the stack of a parser inside something. Only the last of it leads to the end.
* `Resting` is what a call of `doParse` keeps of the parser, `IsResting` is what a call of
  `doReceive` keeps of the reader.

What is left shows, in what the parser throws or in a message: `doReceive_thrown`,
`parse_start_shows`, `doReceive_nul` and `doReceive_inside`.
-/

namespace Conntop

namespace MessageParser

open Scanner Reader

variable {D : Strtod} {p p' : MessageParser} {is rest : List Char}

/-! ## Inside something -/

/-- The state behind the root is the first one. -/
def Nested : List (ParsingState × ℕ) → Prop
  | [] => False
  | [x] => x.1 = .start
  | x :: y :: stack => (x.1 = .element ∨ x.1 = .memberValue) ∧ Nested (y :: stack)

theorem Nested.ne {stack : List (ParsingState × ℕ)} (h : Nested stack) : stack ≠ [] := by
  rintro rfl
  exact h

/-- The counts do not matter. -/
theorem Nested.set {outer : ParsingState} {count : ℕ} {stack : List (ParsingState × ℕ)}
    (h : Nested ((outer, count) :: stack)) (count' : ℕ) : Nested ((outer, count') :: stack) := by
  cases stack with
  | nil => exact h
  | cons y stack => exact h

theorem Nested.cons {outer : ParsingState} {stack : List (ParsingState × ℕ)} (h : Nested stack)
    (houter : outer = .element ∨ outer = .memberValue) (count : ℕ) :
    Nested ((outer, count) :: stack) := by
  cases stack with
  | nil => exact h.elim
  | cons y stack => exact ⟨houter, h⟩

/-- The states between two calls of `IterativeParseNext`, inside something. -/
def innerStates : List ParsingState :=
  [.objectInitial, .arrayInitial, .memberKey, .memberValue, .element]

def delimiters : List ParsingState := [.elementDelimiter, .memberDelimiter, .keyValueDelimiter]

def Inside (p : MessageParser) : Prop := p.state ∈ innerStates ∧ Nested p.stack

/-- As `Inside`, in a round of `IterativeParseNext`. -/
def Open (p : MessageParser) : Prop := p.state ∈ innerStates ++ delimiters ∧ Nested p.stack

theorem Inside.isOpen (h : p.Inside) : p.Open := ⟨List.mem_append_left _ h.1, h.2⟩

theorem Open.inside (h : p.Open) (hp : p.state.isDelimiter = false) : p.Inside := by
  refine ⟨?_, h.2⟩
  have hstate := h.1
  revert hstate hp
  cases p.state <;> decide

theorem Inside.not_isDelimiter (h : p.Inside) : p.state.isDelimiter = false := by
  have hstate := h.1
  revert hstate
  cases p.state <;> decide

theorem Inside.not_isComplete (h : p.Inside) : ¬p.IsComplete := by
  have hstate := h.1
  unfold IsComplete
  revert hstate
  cases p.state <;> decide

theorem Open.countOne (h : p.Open) {n : ParsingState} (hn : n ∈ delimiters) :
    (p.countOne n).Open := by
  refine ⟨List.mem_append_right _ hn, ?_⟩
  have hnested := h.2
  unfold MessageParser.countOne
  dsimp only
  cases hstack : p.stack with
  | nil => exact absurd hstack hnested.ne
  | cons x stack =>
    rw [hstack] at hnested
    exact hnested.set _

theorem Open.endCompound (h : p.Open) (last : ParsingState)
    (finish : ℕ → MessageParserHandler → MessageParserHandler) :
    (p.endCompound last finish).state = .finish ∨ (p.endCompound last finish).Inside := by
  have hnested := h.2
  unfold MessageParser.endCompound
  cases hstack : p.stack with
  | nil => exact absurd hstack hnested.ne
  | cons x stack =>
    obtain ⟨outer, count⟩ := x
    rw [hstack] at hnested
    cases stack with
    | nil =>
      obtain rfl : outer = .start := hnested
      exact .inl rfl
    | cons y stack =>
      have helement : ParsingState.element ∈ innerStates := by decide
      have hmember : ParsingState.memberValue ∈ innerStates := by decide
      obtain ⟨rfl | rfl, hrest⟩ : (outer = .element ∨ outer = .memberValue) ∧ _ := hnested
      · exact .inr ⟨helement, hrest⟩
      · exact .inr ⟨hmember, hrest⟩

theorem Open.rollback (h : p.Open) {prevState : ParsingState} (hprev : prevState ∈ innerStates) :
    (p.rollback prevState).Inside := by
  unfold MessageParser.rollback
  split_ifs with heq hdelimiter
  · exact ⟨heq ▸ hprev, h.2⟩
  · refine ⟨hprev, ?_⟩
    have hnested := h.2
    dsimp only
    cases hstack : p.stack with
    | nil => exact absurd hstack hnested.ne
    | cons x stack =>
      rw [hstack] at hnested
      exact hnested.set _
  · exact ⟨hprev, h.2⟩

/-- Only inside something else there is a state to come back to. -/
theorem outerState_of_predict {state : ParsingState} {t : Token}
    (hstate : state ∈ innerStates ++ delimiters)
    (h : predict state t = .objectInitial ∨ predict state t = .arrayInitial) :
    outerState state = .element ∨ outerState state = .memberValue := by
  revert hstate h
  cases state <;> cases t <;> decide

theorem Open.startCompound (h : p.Open) (v : Value) {n : ParsingState} (hn : n ∈ innerStates)
    (houter : outerState p.state = .element ∨ outerState p.state = .memberValue) :
    (p.startCompound v n).Inside :=
  ⟨hn, h.2.cons houter 0⟩

/-- What is predicted is never one of the states behind something. -/
theorem predict_ne_of_open {state : ParsingState} (t : Token)
    (hstate : state ∈ innerStates ++ delimiters) :
    predict state t ≠ .finish ∧ predict state t ≠ .start ∧ predict state t ≠ .value := by
  revert hstate
  cases state <;> cases t <;> decide

theorem transit_open (hp : p.Open) {t : Token} {isNumber : Bool}
    (h : p.transit D (predict p.state t) is = (.ok (p', isNumber), rest)) :
    p'.state = .finish ∨
      p'.Open ∧ p'.state.isDelimiter = (predict p.state t).isDelimiter := by
  have hne := predict_ne_of_open t hp.1
  have houter := outerState_of_predict (t := t) hp.1
  -- a state that is no delimiter stays inside
  have hinside : ∀ {q : MessageParser} {n : ParsingState}, n.isDelimiter = false → q.Inside →
      q.state = .finish ∨ q.Open ∧ q.state.isDelimiter = n.isDelimiter :=
    fun hn hq => .inr ⟨hq.isOpen, hq.not_isDelimiter.trans hn.symm⟩
  generalize predict p.state t = n at h hne houter ⊢
  cases n with
  | error => cases (Prod.mk.inj h).1
  | finish => exact absurd rfl hne.1
  | start => exact absurd rfl hne.2.1
  | value => exact absurd rfl hne.2.2
  -- one level deeper
  | objectInitial =>
    cases (of_take h).1
    exact hinside rfl (hp.startCompound _ (by decide) (houter (.inl rfl)))
  | arrayInitial =>
    cases (of_take h).1
    exact hinside rfl (hp.startCompound _ (by decide) (houter (.inr rfl)))
  | memberKey =>
    cases is with
    | nil => cases (Prod.mk.inj h).1
    | cons c is =>
      rw [transit, bind_of_ok (show take (c :: is) = (.ok c, is) from rfl), bind_apply] at h
      rcases hr : parseString is with ⟨e | s, mid⟩ <;> rw [hr] at h
      · cases (Prod.mk.inj h).1
      · cases h
        have hstate : ParsingState.memberKey ∈ innerStates := by decide
        exact hinside rfl ⟨hstate, hp.2⟩
  | keyValueDelimiter =>
    cases (of_take h).1
    have hstate : ParsingState.keyValueDelimiter ∈ innerStates ++ delimiters := by decide
    exact .inr ⟨⟨hstate, hp.2⟩, rfl⟩
  | memberValue =>
    obtain ⟨v, rfl⟩ := of_parseInto h
    have hstate : ParsingState.memberValue ∈ innerStates := by decide
    exact hinside rfl ⟨hstate, hp.2⟩
  | element =>
    obtain ⟨v, rfl⟩ := of_parseInto h
    have hstate : ParsingState.element ∈ innerStates := by decide
    exact hinside rfl ⟨hstate, hp.2⟩
  | memberDelimiter =>
    cases (of_take h).1
    exact .inr ⟨hp.countOne (by decide), rfl⟩
  | elementDelimiter =>
    cases (of_take h).1
    exact .inr ⟨hp.countOne (by decide), rfl⟩
  -- one level less, or the end of the root
  | objectFinish =>
    rw [transit] at h
    split_ifs at h
    · cases (Prod.mk.inj h).1
    · cases (of_take h).1
      exact (hp.endCompound _ _).imp id fun hq => ⟨hq.isOpen, hq.not_isDelimiter⟩
  | arrayFinish =>
    rw [transit] at h
    split_ifs at h
    · cases (Prod.mk.inj h).1
    · cases (of_take h).1
      exact (hp.endCompound _ _).imp id fun hq => ⟨hq.isOpen, hq.not_isDelimiter⟩

/-- A call ends behind the root, or it is still inside something, or there is an error. -/
def StaysInside : NextResult × MessageParser × List Char → Prop
  | (.parsed, q, _) => q.state = .finish ∨ q.Inside
  | (.incomplete _, q, _) => q.Inside
  | (.failed _, _, _) => True

def RoundOpen : (NextResult × MessageParser × List Char) ⊕ (MessageParser × List Char) → Prop
  | .inl r => StaysInside r
  | .inr (q, _) => q.Open

theorem nextRound_open {prevState : ParsingState} (hp : p.Open) (hprev : prevState ∈ innerStates)
    (is : List Char) : RoundOpen (p.nextRound D prevState is) := by
  unfold nextRound
  dsimp only
  rcases htransit : p.transit D (predict p.state (tokenize (peek (is.dropWhile isWhitespace))))
    (is.dropWhile isWhitespace) with ⟨code | ⟨p', isNumber⟩, rest⟩ <;> unfold afterTransit <;>
    dsimp only
  · by_cases hpeek : peek rest = '\x00'
    · rw [if_pos hpeek]
      exact hp.rollback hprev
    · rw [if_neg hpeek]
      trivial
  · have hopen := transit_open hp htransit
    split_ifs with hfinish hnumber hdelimiter
    · exact .inl hfinish
    · exact ⟨(hp.rollback hprev).1, (hp.rollback hprev).2⟩
    · exact (hopen.resolve_left hfinish).1
    · obtain ⟨hp', hdelimiter'⟩ := hopen.resolve_left hfinish
      exact .inr (hp'.inside (hdelimiter'.trans (Bool.eq_false_iff.mpr hdelimiter)))

theorem NextLoop.open {prevState : ParsingState} {r : NextResult × MessageParser × List Char}
    (h : NextLoop D prevState p is r) (hp : p.Open) (hprev : prevState ∈ innerStates) :
    StaysInside r := by
  induction h with
  | finished _ hfinish => exact .inl hfinish
  | ended => exact hp.rollback hprev
  | @returned p is r _ hround =>
    have hstays := nextRound_open (D := D) hp hprev is
    rw [hround] at hstays
    exact hstays
  | @again p p' is is' r _ hround _ ih =>
    have hopen := nextRound_open (D := D) hp hprev is
    rw [hround] at hopen
    exact ih hopen

theorem Inside.next (hp : p.Inside) (is : List Char) : StaysInside (p.next D is) := by
  have hne : p.state ≠ .finish := fun h => hp.not_isComplete (.inl h)
  have hstays := (next_runs (D := D) hne is []).1.open hp.isOpen hp.1
  revert hstays
  rcases p.next D is with ⟨result, q, rest⟩
  cases result <;> exact id

/-! ## At the start -/

/-- An opening bracket is taken, or it is not expected. -/
theorem predict_bracket (state : ParsingState) {c : Char} (hc : c ∈ ['{', '[']) :
    predict state (tokenize c) = .error ∨ predict state (tokenize c) = .objectInitial ∨
      predict state (tokenize c) = .arrayInitial := by
  obtain rfl | hc := List.mem_cons.mp hc
  · cases state <;> decide
  · obtain rfl := List.mem_singleton.mp hc
    cases state <;> decide

theorem nextRound_bracket (D : Strtod) (p : MessageParser) (prevState : ParsingState)
    (hpeek : peek (is.dropWhile isWhitespace) ∈ ['{', '[']) :
    (∃ code q rest, p.nextRound D prevState is = .inl (.failed code, q, rest)) ∨
      ∃ v n rest, n ∈ innerStates ∧
        p.nextRound D prevState is = .inl (.parsed, p.startCompound v n, rest) := by
  unfold nextRound
  dsimp only
  cases hs : is.dropWhile isWhitespace with
  | nil =>
    rw [hs] at hpeek
    exact absurd hpeek (by decide)
  | cons c cs =>
    rw [hs] at hpeek
    have hc : c ∈ ['{', '['] := hpeek
    have hnul : c ≠ '\x00' := by
      rintro rfl
      exact absurd hc (by decide)
    obtain hn | hn | hn := predict_bracket p.state hc
    · refine .inl ⟨handleError p.state, p, c :: cs, ?_⟩
      show p.afterTransit prevState (predict p.state (tokenize c))
        (p.transit D (predict p.state (tokenize c)) (c :: cs)) = _
      rw [hn]
      show (if c = '\x00' then _ else _) = _
      rw [if_neg hnul]
      rfl
    · refine .inr ⟨.object [], .objectInitial, cs, by decide, ?_⟩
      show p.afterTransit prevState (predict p.state (tokenize c))
        (p.transit D (predict p.state (tokenize c)) (c :: cs)) = _
      rw [hn]
      rfl
    · refine .inr ⟨.array [], .arrayInitial, cs, by decide, ?_⟩
      show p.afterTransit prevState (predict p.state (tokenize c))
        (p.transit D (predict p.state (tokenize c)) (c :: cs)) = _
      rw [hn]
      rfl

theorem peek_dropWhile_nul (h : peek is = '\x00') :
    peek (is.dropWhile isWhitespace) = '\x00' := by
  cases is with
  | nil => rfl
  | cons c cs =>
    obtain rfl : c = '\x00' := h
    rfl

/-- A call that comes to the NUL without an error has found no bracket in front of it. -/
theorem next_bracket (D : Strtod) (p : MessageParser)
    (hpeek : peek (is.dropWhile isWhitespace) ∈ ['{', '[']) {isLastValueInvalid : Bool}
    {q : MessageParser} : p.next D is ≠ (.incomplete isLastValueInvalid, q, rest) := by
  have hnul : peek is ≠ '\x00' := by
    intro hnul
    rw [peek_dropWhile_nul hnul] at hpeek
    exact absurd hpeek (by decide)
  unfold next nextLoop
  rw [if_neg hnul]
  obtain ⟨code, q, rest, hround⟩ | ⟨v, n, rest, -, hround⟩ :=
    nextRound_bracket D p p.state hpeek <;> rw [hround] <;> intro h
  · cases (Prod.mk.inj h).1
  · cases (Prod.mk.inj h).1

/-- A call at the start ends behind the root, or inside it, or it comes to the NUL and changes
nothing. -/
def LeavesStart (is : List Char) : NextResult × MessageParser × List Char → Prop
  | (.parsed, q, _) =>
    q.state = .finish ∨ q.Inside ∧ peek (is.dropWhile isWhitespace) ∈ ['{', '[']
  | (.incomplete isLastValueInvalid, q, rest) =>
    (if isLastValueInvalid then q.popLastValue else q) = {} ∧ peek rest = '\x00'
  | (.failed _, _, _) => True

theorem predict_start {c : Char} (hc : c ∉ ['{', '[']) :
    predict .start (tokenize c) = .error ∨ predict .start (tokenize c) = .value := by
  revert hc
  unfold tokenize
  split <;> simp [predict, predictValue]

theorem nextRound_start (D : Strtod) (is : List Char) :
    ∃ r, ({} : MessageParser).nextRound D .start is = .inl r ∧ LeavesStart is r := by
  by_cases hbracket : peek (is.dropWhile isWhitespace) ∈ ['{', '[']
  · obtain ⟨code, q, rest, hround⟩ | ⟨v, n, rest, hn, hround⟩ :=
      nextRound_bracket D {} .start hbracket
    · exact ⟨_, hround, trivial⟩
    · exact ⟨_, hround, .inr ⟨⟨hn, rfl⟩, hbracket⟩⟩
  · unfold nextRound
    dsimp only
    obtain hn | hn := predict_start hbracket <;> rw [hn]
    · rw [show ({} : MessageParser).transit D .error = fail .none from rfl]
      unfold afterTransit fail failAt
      dsimp only
      by_cases hpeek : peek (is.dropWhile isWhitespace) = '\x00'
      · rw [if_pos hpeek]
        exact ⟨_, rfl, rfl, hpeek⟩
      · rw [if_neg hpeek]
        exact ⟨_, rfl, trivial⟩
    · rcases htransit : ({} : MessageParser).transit D .value (is.dropWhile isWhitespace) with
        ⟨code | ⟨p', isNumber⟩, rest⟩ <;> unfold afterTransit <;> dsimp only
      · by_cases hpeek : peek rest = '\x00'
        · rw [if_pos hpeek]
          exact ⟨_, rfl, rfl, hpeek⟩
        · rw [if_neg hpeek]
          exact ⟨_, rfl, trivial⟩
      · obtain ⟨v, hv⟩ := of_parseInto htransit
        have hfinish : p'.state = .finish := congrArg MessageParser.state hv
        rw [if_pos hfinish]
        exact ⟨_, rfl, .inl hfinish⟩

theorem next_start (D : Strtod) (is : List Char) :
    LeavesStart is (({} : MessageParser).next D is) := by
  obtain ⟨r, hround, hleaves⟩ := nextRound_start D is
  unfold next nextLoop
  split_ifs with hnul hfinish
  · cases hfinish
  · exact ⟨rfl, hnul⟩
  · rw [hround]
    exact hleaves

/-! ## What is left in the buffer -/

/-- `IterativeParseNext` does not go past a NUL. -/
theorem next_append (hp : p.state ≠ .finish) (is behind : List Char) :
    p.next D (is ++ '\x00' :: behind) = onward behind (p.next D is) := by
  have hlong := (next_runs (D := D) hp (is ++ '\x00' :: behind) []).1
  have hshort := (next_runs (D := D) hp is (behind ++ ['\x00'])).1
  rw [List.append_assoc, List.cons_append] at hlong
  have heq := hlong.det hshort
  unfold onward at heq ⊢
  obtain ⟨hresult, hrest⟩ := Prod.mk.inj heq
  obtain ⟨hparser, hrest⟩ := Prod.mk.inj hrest
  have hrest : (p.next D (is ++ '\x00' :: behind)).2.2 ++ ['\x00'] =
      ((p.next D is).2.2 ++ '\x00' :: behind) ++ ['\x00'] := by
    rw [hrest, List.append_assoc, List.cons_append]
  have hrest := List.append_cancel_right hrest
  rw [← hresult, ← hparser, ← hrest]

/-- There is no NUL in it, and it does not begin with a bracket. -/
def Clean (buffer : List Char) : Prop :=
  '\x00' ∉ buffer ∧ peek (buffer.dropWhile isWhitespace) ∉ ['{', '[']

theorem clean_nil : Clean [] := ⟨List.not_mem_nil, by decide⟩

theorem Clean.append {buffer buffer' : List Char} (h : Clean buffer) (h' : Clean buffer') :
    Clean (buffer ++ buffer') := by
  refine ⟨fun hnul => (List.mem_append.mp hnul).elim h.1 h'.1, ?_⟩
  rw [List.dropWhile_append]
  split_ifs with hempty
  · exact h'.2
  · have hpeek := h.2
    cases hs : buffer.dropWhile isWhitespace with
    | nil => exact absurd (by rw [hs]; rfl) hempty
    | cons c cs =>
      rw [hs] at hpeek
      exact hpeek

theorem next_clean (hp : p.state ≠ .finish) {isLastValueInvalid : Bool} {q : MessageParser}
    (h : p.next D is = (.incomplete isLastValueInvalid, q, [])) : Clean is := by
  refine ⟨fun hnul => ?_, fun hpeek => next_bracket D p hpeek h⟩
  obtain ⟨before, behind, rfl⟩ := List.append_of_mem hnul
  rw [next_append hp] at h
  have hrest : (p.next D before).2.2 ++ '\x00' :: behind = [] :=
    congrArg (fun r => r.2.2) h
  exact absurd hrest (List.append_ne_nil_of_right_ne_nil _ (List.cons_ne_nil _ _))

/-- As new, or inside something. -/
def Ongoing (p : MessageParser) : Prop := p = {} ∨ p.Inside

/-- The loop of `doParse` comes behind the root, or to a NUL. -/
def TokensRest : TokensResult → Prop
  | .complete q _ => q.IsComplete
  | .incomplete q parsed rest => q.Ongoing ∧ (rest = [] → Clean parsed)
  | .failed _ => True

def NextRest (is : List Char) : NextResult × MessageParser × List Char → Prop
  | (.parsed, q, _) => q.state = .finish ∨ q.Inside
  | (.incomplete isLastValueInvalid, q, rest) =>
    (if isLastValueInvalid then q.popLastValue else q).Ongoing ∧ (rest = [] → Clean is)
  | (.failed _, _, _) => True

theorem Ongoing.not_isComplete (h : p.Ongoing) : ¬p.IsComplete := by
  obtain rfl | h := h
  · exact not_isComplete_init
  · exact h.not_isComplete

theorem Ongoing.next (h : p.Ongoing) (is : List Char) : NextRest is (p.next D is) := by
  have hne : p.state ≠ .finish := fun hp => h.not_isComplete (.inl hp)
  obtain rfl | h := h
  · have hleaves := next_start D is
    rcases hnext : ({} : MessageParser).next D is with ⟨_ | b | code, q, rest⟩ <;>
      rw [hnext] at hleaves
    · exact hleaves.imp id And.left
    · exact ⟨.inl hleaves.1, fun hrest => next_clean hne (hrest ▸ hnext)⟩
    · trivial
  · have hstays := h.next (D := D) is
    rcases hnext : p.next D is with ⟨_ | b | code, q, rest⟩ <;> rw [hnext] at hstays
    · exact hstays
    · refine ⟨.inr ?_, fun hrest => next_clean hne (hrest ▸ hnext)⟩
      cases b with
      | true => exact hstays
      | false => exact hstays
    · trivial

theorem parseTokens_rest {fuel : ℕ} (hfuel : is.length < fuel)
    (hp : p.Ongoing ∨ p.IsComplete) : TokensRest (parseTokens D fuel p is) := by
  induction fuel generalizing p is with
  | zero => exact absurd hfuel (Nat.not_lt_zero _)
  | succ fuel ih =>
    unfold parseTokens
    by_cases hcomplete : p.state = .finish ∨ p.state = .error
    · rw [if_pos hcomplete]
      exact hcomplete
    · rw [if_neg hcomplete]
      have hgoes := (next_runs (D := D) (fun h => hcomplete (.inl h)) is []).2
      have hnext := (hp.resolve_right hcomplete).next (D := D) is
      rcases hr : p.next D is with ⟨_ | b | code, q, rest⟩ <;> rw [hr] at hgoes hnext
      · have hshort : rest.length < fuel := by
          have hlt : rest.length < is.length := hgoes.2
          omega
        exact ih hshort (Or.symm (hnext.imp .inl .inr))
      · exact hnext
      · trivial

variable {σ : Type} {K : MessageCallback σ} {s : σ}

/-- As `Ongoing`, or the callback has thrown, and the message is gone. -/
def Resting (p : MessageParser) : Prop := p.Ongoing ∨ p.IsComplete ∧ p.handler = []

theorem doParse_resting (hp : p.Resting) (s : σ) (is : List Char) :
    (doParse D K p s is).1.1.Resting ∧
      ∀ parsed, (doParse D K p s is).2 = .ok (parsed, []) → Clean parsed := by
  have hrest := parseTokens_rest (D := D) (Nat.lt_succ_self is.length) (hp.imp id And.left)
  rw [doParse_eq]
  rcases htokens : parseTokens D (is.length + 1) p is with
    ⟨q, is'⟩ | ⟨q, parsed, is'⟩ | code <;> rw [htokens] at hrest
  · show (handOver K s is' q.get).1.1.Resting ∧ ∀ parsed, (handOver K s is' q.get).2 = _ → _
    unfold get
    split
    · unfold handOver
      dsimp only
      rcases K.onMessage _ s with ⟨s', _ | what⟩
      · refine ⟨.inl (.inl rfl), fun parsed h => ?_⟩
        cases h
        exact clean_nil
      · exact ⟨.inr ⟨hrest, rfl⟩, fun parsed h => by cases h⟩
    · exact ⟨.inl (.inl rfl), fun parsed h => by cases h⟩
  · refine ⟨.inl hrest.1, fun parsed h => ?_⟩
    cases h
    exact hrest.2 rfl
  · exact ⟨.inl (.inl rfl), fun parsed h => by cases h⟩

theorem parseLoop_resting {fuel : ℕ} {ps : MessageParser × σ} (hfuel : weight ps.1 is ≤ fuel)
    (hp : ps.1.Resting) {parsed : List Char} (hparsed : is = [] → Clean parsed) :
    (parseLoop D K fuel ps parsed is).1.1.Resting ∧
      ∀ rest, (parseLoop D K fuel ps parsed is).2 = .ok rest → Clean rest := by
  induction fuel generalizing ps parsed is with
  | zero =>
    have hnil : is = [] := by
      unfold weight at hfuel
      exact List.length_eq_zero_iff.mp (by omega)
    refine ⟨hp, fun rest h => ?_⟩
    cases h
    exact hparsed hnil
  | succ fuel ih =>
    cases is with
    | nil =>
      refine ⟨hp, fun rest h => ?_⟩
      cases h
      exact hparsed rfl
    | cons c is =>
      unfold parseLoop
      -- a NUL between two messages is skipped
      by_cases hc : c = '\x00'
      · rw [if_pos hc]
        refine ih ?_ hp fun his => his ▸ clean_nil
        unfold weight at hfuel ⊢
        rw [List.length_cons] at hfuel
        omega
      · -- the reader leaves the parser at rest, and less than it was given
        have hshort : (c :: is).length < (c :: is).length + 1 := Nat.lt_succ_self _
        obtain ⟨-, hgo⟩ := parseTokens_runs (D := D) (p := ps.1) hshort []
        obtain ⟨hresting, hclean⟩ := doParse_resting (D := D) (K := K) hp ps.2 (c :: is)
        rw [if_neg hc]
        rcases hparse : doParse D K ps.1 ps.2 (c :: is) with ⟨ps', e | ⟨parsed', rest⟩⟩ <;>
          rw [hparse] at hresting hclean
        · exact ⟨hresting, fun rest h => by cases h⟩
        · rw [doParse_eq] at hparse
          have hweight : weight ps'.1 rest < weight ps.1 (c :: is) :=
            (afterTokens_lt hgo hc hparse).1
          have hle : weight ps'.1 rest ≤ fuel := by omega
          exact ih hle hresting fun hrest => hclean parsed' (hrest ▸ rfl)

theorem parse_resting (bufferSize : ℕ) (ps : MessageParser × σ) (hp : ps.1.Resting)
    (data : List Char) : (parse D K bufferSize ps data).1.1.Resting ∧
      ∀ rest, (parse D K bufferSize ps data).2 = .ok rest → Clean rest := by
  have hfuel : weight ps.1 data ≤ data.length + 1 := by
    unfold weight
    split_ifs <;> omega
  have hloop := parseLoop_resting (D := D) (K := K) hfuel hp (fun h => h ▸ clean_nil)
  unfold parse
  rcases hresult : parseLoop D K (data.length + 1) ps data data with ⟨ps', e | rest⟩ <;>
    rw [hresult] at hloop
  · exact hloop
  · dsimp only
    split_ifs
    · exact ⟨.inl (.inl rfl), fun rest h => by cases h⟩
    · exact hloop

/-! ## What shows -/

/-- The parser has thrown, or the callback has got a message. -/
def Shows {α β : Type} (Heard : σ → Prop) (r : (α × σ) × Except ReceiveException β) : Prop :=
  (∃ e, r.2 = .error (.parser e)) ∨ Heard r.1.2

/-- Only the callback changes its state, and throws something else. -/
def Told {α β : Type} (Heard : σ → Prop) (s : σ) (r : (α × σ) × Except ReceiveException β) : Prop :=
  r.1.2 = s ∧ (∀ what, r.2 ≠ .error (.callback what)) ∨ Heard r.1.2

variable {Heard : σ → Prop}

theorem Shows.ok {β : Type} {ps : MessageParser × σ} {x : β}
    (h : Shows Heard (ps, (.ok x : Except ReceiveException β))) : Heard ps.2 := by
  obtain ⟨e, he⟩ | hheard := h
  · cases he
  · exact hheard

theorem Shows.error {β γ : Type} {ps : MessageParser × σ} {e : ReceiveException}
    (h : Shows Heard (ps, (.error e : Except ReceiveException β))) :
    Shows Heard (ps, (.error e : Except ReceiveException γ)) := by
  obtain ⟨e', he⟩ | hheard := h
  · cases he
    exact .inl ⟨e', rfl⟩
  · exact .inr hheard

theorem handOver_shows (hK : ∀ message s, Heard (K.onMessage message s).1) (s : σ)
    (is : List Char) (x : Option (Value × MessageParser)) : Shows Heard (handOver K s is x) := by
  cases x with
  | none => exact .inl ⟨_, rfl⟩
  | some x =>
    have hheard := hK x.1 s
    unfold handOver
    dsimp only
    rcases hresult : K.onMessage x.1 s with ⟨s', _ | what⟩ <;> rw [hresult] at hheard
    · exact .inr hheard
    · exact .inr hheard

theorem doParse_told (hK : ∀ message s, Heard (K.onMessage message s).1) (p : MessageParser)
    (s : σ) (is : List Char) : Told Heard s (doParse D K p s is) := by
  rw [doParse_eq]
  cases parseTokens D (is.length + 1) p is with
  | failed code => exact .inl ⟨rfl, fun what h => by cases h⟩
  | incomplete q parsed is' => exact .inl ⟨rfl, fun what h => by cases h⟩
  | complete q is' =>
    show Told Heard s (handOver K s is' q.get)
    cases q.get with
    | none => exact .inl ⟨rfl, fun what h => by cases h⟩
    | some x =>
      have hheard := hK x.1 s
      unfold handOver
      dsimp only
      rcases hresult : K.onMessage x.1 s with ⟨s', _ | what⟩ <;> rw [hresult] at hheard
      · exact .inr hheard
      · exact .inr hheard

theorem parseLoop_told (hK : ∀ message s, Heard (K.onMessage message s).1) (fuel : ℕ)
    {ps : MessageParser × σ} {s : σ} (hs : ps.2 = s ∨ Heard ps.2) (parsed is : List Char) :
    Told Heard s (parseLoop D K fuel ps parsed is) := by
  induction fuel generalizing ps parsed is with
  | zero => exact hs.imp (fun h => ⟨h, fun what h => by cases h⟩) id
  | succ fuel ih =>
    cases is with
    | nil => exact hs.imp (fun h => ⟨h, fun what h => by cases h⟩) id
    | cons c is =>
      unfold parseLoop
      split_ifs
      · exact ih hs is is
      · have htold := doParse_told (D := D) hK ps.1 ps.2 (c :: is)
        rcases hparse : doParse D K ps.1 ps.2 (c :: is) with ⟨ps', e | ⟨parsed', rest⟩⟩ <;>
          rw [hparse] at htold
        · obtain ⟨heq, hthrown⟩ | hheard := htold
          · have heq : ps'.2 = ps.2 := heq
            refine hs.imp (fun h => ⟨heq.trans h, fun what h => hthrown what ?_⟩) fun h => ?_
            · cases h
              rfl
            · show Heard ps'.2
              rw [heq]
              exact h
          · exact .inr hheard
        · refine ih ?_ parsed' rest
          obtain ⟨heq, -⟩ | hheard := htold
          · have heq : ps'.2 = ps.2 := heq
            rw [heq]
            exact hs
          · exact .inr hheard

theorem parse_told (hK : ∀ message s, Heard (K.onMessage message s).1) (bufferSize : ℕ)
    (ps : MessageParser × σ) (data : List Char) :
    Told Heard ps.2 (parse D K bufferSize ps data) := by
  have hloop := parseLoop_told (D := D) (s := ps.2) hK (data.length + 1) (.inl rfl) data data
  unfold parse
  rcases hresult : parseLoop D K (data.length + 1) ps data data with ⟨ps', e | rest⟩ <;>
    rw [hresult] at hloop
  · exact hloop
  · dsimp only
    split_ifs
    · exact hloop.imp (fun h => ⟨h.1, fun what h => by cases h⟩) id
    · exact hloop

/-- What a message was told stays told. -/
theorem parseLoop_heard (hK : ∀ message s, Heard (K.onMessage message s).1) (fuel : ℕ)
    {ps : MessageParser × σ} (hs : Heard ps.2) (parsed is : List Char) :
    Heard (parseLoop D K fuel ps parsed is).1.2 := by
  obtain ⟨heq, -⟩ | hheard := parseLoop_told (D := D) (s := ps.2) hK fuel (.inl rfl) parsed is
  · rw [heq]
    exact hs
  · exact hheard

theorem parseTokens_inside {fuel : ℕ} (hfuel : is.length < fuel) (hp : p.Inside ∨ p.IsComplete)
    {q : MessageParser} {parsed : List Char}
    (h : parseTokens D fuel p is = .incomplete q parsed rest) : q.Inside := by
  induction fuel generalizing p is with
  | zero => exact absurd hfuel (Nat.not_lt_zero _)
  | succ fuel ih =>
    unfold parseTokens at h
    by_cases hcomplete : p.state = .finish ∨ p.state = .error
    · rw [if_pos hcomplete] at h
      cases h
    · rw [if_neg hcomplete] at h
      have hgoes := (next_runs (D := D) (fun h => hcomplete (.inl h)) is []).2
      have hstays := (hp.resolve_right hcomplete).next (D := D) is
      rcases hr : p.next D is with ⟨_ | b | code, q', rest'⟩ <;> rw [hr] at hgoes hstays h
      · have hshort : rest'.length < fuel := by
          have hlt : rest'.length < is.length := hgoes.2
          omega
        exact ih hshort (Or.symm (hstays.imp .inl id)) h
      · cases h
        cases b with
        | true => exact hstays
        | false => exact hstays
      · cases h

/-- Inside something, what `doParse` does shows, or the parser stays inside something. -/
theorem doParse_inside (hK : ∀ message s, Heard (K.onMessage message s).1) (hp : p.Inside) (s : σ)
    (is : List Char) :
    Shows Heard (doParse D K p s is) ∨ (doParse D K p s is).1.1.Inside := by
  rw [doParse_eq]
  rcases htokens : parseTokens D (is.length + 1) p is with
    ⟨q, is'⟩ | ⟨q, parsed, is'⟩ | code
  · exact .inl (handOver_shows hK s is' q.get)
  · exact .inr (parseTokens_inside (Nat.lt_succ_self _) (.inl hp) htokens)
  · exact .inl (.inl ⟨_, rfl⟩)

theorem parseLoop_inside (hK : ∀ message s, Heard (K.onMessage message s).1) (fuel : ℕ)
    (ps : MessageParser × σ) (hps : Heard ps.2 ∨ ps.1.Inside) (parsed is : List Char) :
    Shows Heard (parseLoop D K fuel ps parsed is) ∨
      (parseLoop D K fuel ps parsed is).1.1.Inside := by
  induction fuel generalizing ps parsed is with
  | zero => exact hps.imp .inr id
  | succ fuel ih =>
    cases is with
    | nil => exact hps.imp .inr id
    | cons c is =>
      unfold parseLoop
      split_ifs
      · exact ih ps hps is is
      · have hparse : Shows Heard (doParse D K ps.1 ps.2 (c :: is)) ∨
            (doParse D K ps.1 ps.2 (c :: is)).1.1.Inside := by
          obtain hheard | hinside := hps
          · refine .inl (.inr ?_)
            obtain ⟨heq, -⟩ | h := doParse_told (D := D) hK ps.1 ps.2 (c :: is)
            · rw [heq]
              exact hheard
            · exact h
          · exact doParse_inside hK hinside ps.2 (c :: is)
        rcases hresult : doParse D K ps.1 ps.2 (c :: is) with ⟨ps', e | ⟨parsed', rest⟩⟩ <;>
          rw [hresult] at hparse
        · exact hparse.imp Shows.error id
        · exact ih ps' (hparse.imp Shows.ok id) parsed' rest

theorem parse_inside (hK : ∀ message s, Heard (K.onMessage message s).1) (bufferSize : ℕ)
    (hp : p.Inside) (s : σ) (data : List Char) :
    Shows Heard (parse D K bufferSize (p, s) data) ∨
      (parse D K bufferSize (p, s) data).1.1.Inside := by
  have hloop := parseLoop_inside (D := D) hK (data.length + 1) (p, s) (.inr hp) data data
  unfold parse
  rcases hresult : parseLoop D K (data.length + 1) (p, s) data data with ⟨ps', e | rest⟩ <;>
    rw [hresult] at hloop
  · exact hloop
  · dsimp only
    split_ifs
    · exact .inl (.inl ⟨_, rfl⟩)
    · exact hloop.imp (fun h => .inr h.ok) id

/-- At the start, what `doParse` does shows, or it leaves everything in the buffer. -/
theorem doParse_start (hK : ∀ message s, Heard (K.onMessage message s).1) {data : List Char}
    (hne : data ≠ []) (hclean : Clean data) (s : σ) :
    Shows Heard (doParse D K {} s data) ∨ doParse D K {} s data = (({}, s), .ok (data, [])) := by
  have hcomplete : ¬(({} : MessageParser).state = .finish ∨ ({} : MessageParser).state = .error) :=
    not_isComplete_init
  have hgoes := (next_runs (D := D) (fun h => hcomplete (.inl h)) data []).2
  have hleaves := next_start D data
  rw [doParse_eq]
  unfold parseTokens
  rw [if_neg hcomplete]
  rcases hnext : ({} : MessageParser).next D data with ⟨_ | b | code, q, rest⟩ <;>
    rw [hnext] at hgoes hleaves
  · obtain hfinish | ⟨-, hbracket⟩ := hleaves
    · left
      show Shows Heard (afterTokens K s (parseTokens D data.length q rest))
      cases data with
      | nil => exact absurd rfl hne
      | cons c cs =>
        rw [List.length_cons]
        unfold parseTokens
        rw [if_pos (.inl hfinish)]
        exact handOver_shows hK s rest q.get
    · exact absurd hbracket hclean.2
  · obtain ⟨hq, hpeek⟩ := hleaves
    have hsuffix : rest <:+ data := hgoes.2.1
    have hrest : rest = [] := by
      cases rest with
      | nil => rfl
      | cons c cs =>
        obtain rfl : c = '\x00' := hpeek
        exact absurd (hsuffix.subset List.mem_cons_self) hclean.1
    right
    show afterTokens K s (.incomplete (if b then q.popLastValue else q) data rest) = _
    rw [hq, hrest]
    rfl
  · exact .inl (.inl ⟨_, rfl⟩)

/-- At the start, a buffer that is full shows. -/
theorem parse_start_shows (hK : ∀ message s, Heard (K.onMessage message s).1) {bufferSize : ℕ}
    {data : List Char} (hne : data ≠ []) (hclean : Clean data)
    (hfull : bufferSize - 1 ≤ data.length) (s : σ) :
    Shows Heard (parse D K bufferSize ({}, s) data) := by
  have hparse := doParse_start (D := D) hK hne hclean s
  cases data with
  | nil => exact absurd rfl hne
  | cons c cs =>
    have hc : c ≠ '\x00' := by
      rintro rfl
      exact hclean.1 List.mem_cons_self
    -- the first message shows, or the parser has read nothing of it
    have hloop : Shows Heard (parseLoop D K ((c :: cs).length + 1) ({}, s) (c :: cs) (c :: cs)) ∨
        parseLoop D K ((c :: cs).length + 1) ({}, s) (c :: cs) (c :: cs) =
          (({}, s), .ok (c :: cs)) := by
      unfold parseLoop
      rw [if_neg hc]
      obtain hshows | hsame := hparse
      · left
        dsimp only
        rcases hresult : doParse D K {} s (c :: cs) with ⟨ps', e | ⟨parsed', rest⟩⟩ <;>
          rw [hresult] at hshows
        · exact hshows.error
        · exact .inr (parseLoop_heard hK (c :: cs).length hshows.ok parsed' rest)
      · right
        dsimp only
        rw [hsame]
        rfl
    unfold parse
    obtain hshows | hsame := hloop
    · rcases hresult : parseLoop D K ((c :: cs).length + 1) ({}, s) (c :: cs) (c :: cs) with
        ⟨ps', e | rest⟩ <;> rw [hresult] at hshows
      · exact hshows.error
      · dsimp only
        split_ifs
        · exact .inl ⟨_, rfl⟩
        · exact .inr hshows.ok
    · -- nothing is read of a full buffer, which is an error
      rw [hsame]
      dsimp only
      rw [if_pos ⟨rfl, hfull⟩]
      exact .inl ⟨_, rfl⟩

end MessageParser

namespace StreamSocketReader

variable {σ : Type} {D : Strtod} {K : MessageCallback σ} {r : StreamSocketReader}

/-- A reader between two calls of `doReceive`. -/
structure IsResting (r : StreamSocketReader) : Prop where
  room : r.HasRoom 4096
  parser : r.parser.Resting
  clean : MessageParser.Clean r.buffer

theorem isResting_init : ({} : StreamSocketReader).IsResting where
  room := ⟨rfl, by decide⟩
  parser := .inl (.inl rfl)
  clean := MessageParser.clean_nil

theorem IsResting.one_le_freeSize (h : r.IsResting) : 1 ≤ r.freeSize := by
  obtain ⟨hsize, hroom⟩ := h.room
  unfold freeSize
  omega

theorem IsResting.doReceive (h : r.IsResting) (s : σ) {received : List Char}
    (hfree : received.length ≤ r.freeSize) : (r.doReceive D K s received).1.1.IsResting := by
  have hroom := h.room.receives hfree (receives_doReceive D K r s received [])
  cases received with
  | nil => exact h
  | cons c cs =>
    obtain ⟨hresting, hclean⟩ := MessageParser.parse_resting (D := D) (K := K) r.bufferSize
      (r.parser, s) h.parser (r.buffer ++ c :: cs)
    revert hroom
    unfold StreamSocketReader.doReceive
    dsimp only
    rcases hparse : MessageParser.parse D K r.bufferSize (r.parser, s) (r.buffer ++ c :: cs) with
      ⟨⟨p, s'⟩, e | rest⟩ <;> rw [hparse] at hresting hclean <;> intro hroom
    · exact ⟨hroom, hresting, h.clean⟩
    · exact ⟨hroom, hresting, hclean rest rfl⟩

/-! ## What is left shows -/

open MessageParser

variable {Heard : σ → Prop} {s : σ} {received : List Char}

theorem doReceive_shows (hne : received ≠ [])
    (h : Shows Heard (parse D K r.bufferSize (r.parser, s) (r.buffer ++ received))) :
    Shows Heard (r.doReceive D K s received) := by
  cases received with
  | nil => exact absurd rfl hne
  | cons c cs =>
    unfold doReceive
    dsimp only
    rcases hparse : parse D K r.bufferSize (r.parser, s) (r.buffer ++ c :: cs) with
      ⟨⟨p, s'⟩, e | rest⟩ <;> rw [hparse] at h
    · obtain ⟨e', he⟩ | hheard := h
      · cases he
        exact .inl ⟨e', rfl⟩
      · exact .inr hheard
    · exact .inr h.ok

/-- Inside something, a NUL empties the buffer. -/
theorem IsResting.doReceive_nul (h : r.IsResting) (hinside : r.parser.Inside)
    (hK : ∀ message s, Heard (K.onMessage message s).1) (s : σ) :
    Shows Heard (r.doReceive D K s ['\x00']) ∨
      ∃ p : MessageParser, p.Inside ∧ r.doReceive D K s ['\x00'] =
        (({ r with buffer := [], parser := p }, s), .ok false) := by
  have hparse := parse_inside (D := D) hK r.bufferSize hinside s
    (r.buffer ++ ['\x00'])
  have htold := parse_told (D := D) hK r.bufferSize (r.parser, s) (r.buffer ++ ['\x00'])
  obtain ⟨-, hclean⟩ := parse_resting (D := D) (K := K) r.bufferSize (r.parser, s) h.parser
    (r.buffer ++ ['\x00'])
  obtain hshows | hinside' := hparse
  · exact .inl (doReceive_shows (List.cons_ne_nil _ _) hshows)
  · rcases hresult : parse D K r.bufferSize (r.parser, s) (r.buffer ++ ['\x00']) with
      ⟨⟨p, s'⟩, e | rest⟩
    · left
      refine doReceive_shows (List.cons_ne_nil _ _) ?_
      rw [hresult] at htold ⊢
      obtain ⟨-, hthrown⟩ | hheard := htold
      · cases e with
        | parser e => exact .inl ⟨e, rfl⟩
        | callback what => exact absurd rfl (hthrown what)
      · exact .inr hheard
    · rw [hresult] at htold hinside' hclean
      obtain ⟨heq, -⟩ | hheard := htold
      · right
        obtain rfl : s' = s := heq
        -- what is left has no NUL, but it ends with one unless it is empty
        have hsuffix := parse_suffix hresult
        have hrest : rest = [] := by
          by_contra hne
          have hlast : rest.getLast hne = '\x00' := by
            obtain ⟨before, hbefore⟩ := hsuffix
            have hlast := congrArg List.getLast? hbefore
            rw [List.getLast?_append_of_ne_nil _ hne, List.getLast?_concat,
              List.getLast?_eq_getLast_of_ne_nil hne] at hlast
            exact Option.some.inj hlast
          exact (hclean rest rfl).1 (hlast ▸ List.getLast_mem hne)
        refine ⟨p, hinside', ?_⟩
        unfold StreamSocketReader.doReceive
        dsimp only
        rw [hresult, hrest]
      · left
        refine doReceive_shows (List.cons_ne_nil _ _) ?_
        rw [hresult]
        exact .inr hheard

/-- A parser that is behind a message has none to hand over. -/
theorem doReceive_thrown (hcomplete : r.parser.IsComplete) (hhandler : r.parser.handler = [])
    (hnul : '\x00' ∉ r.buffer ++ received) (hne : received ≠ []) (s : σ) :
    (r.doReceive D K s received).2 = .error (.parser .msgDeserializationFailed) := by
  cases received with
  | nil => exact absurd rfl hne
  | cons c cs =>
    have hparse : ∀ data : List Char, data ≠ [] → '\x00' ∉ data →
        (parse D K r.bufferSize (r.parser, s) data).2 =
          .error (.parser .msgDeserializationFailed) := by
      intro data hne hnul
      cases data with
      | nil => exact absurd rfl hne
      | cons d ds =>
        have hd : d ≠ '\x00' := fun h => hnul (h ▸ List.mem_cons_self)
        have hdoParse : doParse D K r.parser s (d :: ds) =
            (({}, s), .error (.parser .msgDeserializationFailed)) := by
          rw [doParse_eq]
          unfold parseTokens
          rw [if_pos (show _ ∨ _ from hcomplete)]
          show handOver K s (d :: ds) r.parser.get = _
          unfold MessageParser.get
          rw [hhandler]
          rfl
        unfold parse parseLoop
        rw [if_neg hd]
        dsimp only
        rw [hdoParse]
    have herror := hparse (r.buffer ++ c :: cs)
      (List.append_ne_nil_of_right_ne_nil _ (List.cons_ne_nil _ _)) hnul
    unfold doReceive
    dsimp only
    rcases hresult : parse D K r.bufferSize (r.parser, s) (r.buffer ++ c :: cs) with
      ⟨⟨p, s'⟩, e | rest⟩ <;> rw [hresult] at herror
    · cases herror
      rfl
    · cases herror

/-- The end of an empty array is no parse error. -/
theorem parse_endArray (bufferSize : ℕ) {stack : List (Reader.ParsingState × ℕ)}
    (hnested : Nested stack) (handler : MessageParserHandler) (s : σ) (code : ParseErrorCode) :
    (parse D K bufferSize (⟨.arrayInitial, stack, handler⟩, s) [']']).2 ≠
      .error (.parser (.jsonParseError code)) := by
  -- a bracket that is taken is the end of the data
  have hok : ∀ {ps : MessageParser × σ} {parsed : List Char},
      doParse D K ⟨.arrayInitial, stack, handler⟩ s [']'] = (ps, .ok (parsed, [])) →
      (parse D K bufferSize (⟨.arrayInitial, stack, handler⟩, s) [']']).2 ≠
        .error (.parser (.jsonParseError code)) := by
    intro ps parsed hdoParse
    have hloop : parseLoop D K ([']'].length + 1) (⟨.arrayInitial, stack, handler⟩, s) [']']
        [']'] = (ps, .ok parsed) := by
      unfold parseLoop
      rw [if_neg (by decide)]
      dsimp only
      rw [hdoParse]
      rfl
    unfold parse
    rw [hloop]
    dsimp only
    split_ifs <;> intro h <;> cases h
  -- an error comes from the handler, not from the reader
  have herror : ∀ {ps : MessageParser × σ} {e : ReceiveException},
      doParse D K ⟨.arrayInitial, stack, handler⟩ s [']'] = (ps, .error e) →
      e ≠ .parser (.jsonParseError code) →
      (parse D K bufferSize (⟨.arrayInitial, stack, handler⟩, s) [']']).2 ≠
        .error (.parser (.jsonParseError code)) := by
    intro ps e hdoParse hne h
    unfold parse parseLoop at h
    rw [if_neg (by decide)] at h
    dsimp only at h
    rw [hdoParse] at h
    exact hne (Except.error.inj h)
  -- at the root the message is handed over, further inside the outer state is taken up
  cases stack with
  | nil => exact hnested.elim
  | cons x stack =>
    obtain ⟨outer, count⟩ := x
    cases stack with
    | nil =>
      obtain rfl : outer = .start := hnested
      have hdoParse : ∃ x, doParse D K ⟨.arrayInitial, [(.start, count)], handler⟩ s [']'] =
          handOver K s [] x := ⟨_, rfl⟩
      obtain ⟨x, hdoParse⟩ := hdoParse
      unfold handOver at hdoParse
      rcases x with _ | ⟨message, p⟩
      · exact herror hdoParse (by simp)
      · dsimp only at hdoParse
        rcases hmessage : K.onMessage message s with ⟨s', _ | what⟩ <;> rw [hmessage] at hdoParse
        · exact hok hdoParse
        · exact herror hdoParse (by simp)
    | cons y stack =>
      obtain ⟨rfl | rfl, -⟩ : (outer = .element ∨ outer = .memberValue) ∧ _ := hnested
      · exact hok rfl
      · exact hok rfl

/-- A character that a new parser takes, and one that it does not take. -/
theorem doReceive_inside (hinside : r.parser.Inside) (hbuffer : r.buffer = []) (s : σ) :
    (∃ e, (r.doReceive D K s ['{']).2 = .error (.parser e)) ∨
      (r.doReceive D K s [']']).2 ≠ .error (.parser (.jsonParseError .documentEmpty)) := by
  obtain ⟨bufferSize, buffer, ⟨state, stack, handler⟩⟩ := r
  obtain rfl : buffer = [] := hbuffer
  obtain ⟨hstate, hnested⟩ := hinside
  have hstate : state ∈ innerStates := hstate
  have hnested : Nested stack := hnested
  cases state with
  | objectInitial => exact .inl ⟨_, rfl⟩
  | memberKey => exact .inl ⟨_, rfl⟩
  | memberValue => exact .inl ⟨_, rfl⟩
  | element => exact .inl ⟨_, rfl⟩
  | arrayInitial =>
    right
    have hparse := parse_endArray (D := D) (K := K) bufferSize hnested handler s .documentEmpty
    unfold doReceive
    dsimp only [List.nil_append]
    rcases hresult : parse D K bufferSize (⟨.arrayInitial, stack, handler⟩, s) [']'] with
      ⟨⟨p, s'⟩, e | rest⟩ <;> rw [hresult] at hparse <;> intro h
    · exact hparse (by cases h; rfl)
    · cases h
  | _ => exact absurd hstate (by decide)

/-- A new reader, with a string that does not end. -/
def openString (n : ℕ) : List Char := '"' :: List.replicate n 'a'

theorem clean_openString (n : ℕ) : Clean (openString n) := by
  refine ⟨fun hnul => ?_, show '"' ∉ ['{', '['] by decide⟩
  obtain heq | hmem := List.mem_cons.mp hnul
  · exact absurd heq (by decide)
  · exact absurd (List.eq_of_mem_replicate hmem) (by decide)

theorem many_parseChar (n : ℕ) :
    ∃ e, Scanner.many Reader.parseChar (List.replicate n 'a') = (.error e, []) := by
  induction n with
  | zero => exact ⟨_, rfl⟩
  | succ n ih =>
    obtain ⟨e, he⟩ := ih
    refine ⟨e, ?_⟩
    rw [Scanner.many_eq]
    show (if (List.replicate n 'a').length < (List.replicate (n + 1) 'a').length then _ else _) = _
    rw [if_pos (by simp), he]

theorem doParse_openString (n : ℕ) (s : σ) :
    doParse D K {} s (openString n) = (({}, s), .ok (openString n, [])) := by
  obtain ⟨e, hmany⟩ := many_parseChar n
  have hstring : Reader.parseString (List.replicate n 'a') = (.error e, []) :=
    Scanner.bind_of_error hmany
  have hvalue : Reader.parseValue D (openString n) = (.error e, []) :=
    Scanner.bind_of_error hstring
  have htransit : ({} : MessageParser).transit D .value (openString n) = (.error e, []) :=
    Scanner.bind_of_error hvalue
  have hpeek : peek (openString n) ≠ '\x00' := show '"' ≠ '\x00' by decide
  have hround : ({} : MessageParser).nextRound D .start (openString n) =
      .inl (.incomplete false, {}, []) := by
    show ({} : MessageParser).afterTransit .start .value
      (({} : MessageParser).transit D .value (openString n)) = _
    rw [htransit]
    rfl
  have hnext : ({} : MessageParser).next D (openString n) = (.incomplete false, {}, []) := by
    unfold next nextLoop
    rw [if_neg hpeek, hround]
  rw [doParse_eq]
  unfold parseTokens
  rw [if_neg (show ¬(_ ∨ _) from not_isComplete_init), hnext]
  rfl

theorem doReceive_openString {n : ℕ} (hn : n + 1 < 4095) (s : σ) :
    (({} : StreamSocketReader).doReceive D K s (openString n)).2 = .ok false ∧
      (({} : StreamSocketReader).doReceive D K s (openString n)).1.2 = s := by
  have hlength : (openString n).length = n + 1 := by simp [openString]
  have hloop : parseLoop D K ((openString n).length + 1) ({}, s) (openString n) (openString n) =
      (({}, s), .ok (openString n)) := by
    have hdoParse := doParse_openString (D := D) (K := K) n s
    unfold openString at hdoParse ⊢
    unfold parseLoop
    rw [if_neg (show '"' ≠ '\x00' by decide), hdoParse]
    rfl
  have hparse : parse D K 4096 ({}, s) (openString n) = (({}, s), .ok (openString n)) := by
    unfold parse
    rw [hloop]
    dsimp only
    rw [if_neg (by rw [hlength]; omega)]
  unfold openString at hparse ⊢
  unfold doReceive
  dsimp only
  rw [List.nil_append, hparse]
  exact ⟨rfl, rfl⟩

end StreamSocketReader

end Conntop
