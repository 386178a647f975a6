import Conntop.MessageParser

/-!
# The receive buffer

`parse` reads the buffer as it is in memory: the data, the NUL that `doReceive` puts behind it, and
whatever stands there. The loops are relations here, each rule a way in which a round goes. What has
a derivation has ended.

* `NextLoop`, `TokensLoop` and `ParseLoop` are the loops of `IterativeParseNext`, `doParse` and
  `parse`.
* `Receives` is `doReceive`. Between two calls the bytes behind the data are any.

The scanners are `Terminated`: none of them goes past the NUL, and what stands behind it is not
seen. A transition takes a character, or it fails.

Main results: `parse_runs` and `receives_doReceive`, every call of `parse` and of `doReceive` ends,
and `receive_bounded`, for every sequence of calls of `doReceive`.
-/

namespace Conntop

/-! ## Scanners -/

namespace Reader

open Scanner

theorem terminated_parseHex4 : Terminated '\x00' parseHex4 := by
  have hdigit : Terminated '\x00' parseHexDigit :=
    (Terminated.expect (by decide) _).bind fun _ => .pure _
  exact hdigit.bind fun _ => hdigit.bind fun _ => hdigit.bind fun _ => hdigit.bind fun _ => .pure _

theorem terminated_parseUnicode : Terminated '\x00' parseUnicode := by
  refine terminated_parseHex4.bind fun codepoint => ?_
  split_ifs
  · refine (Terminated.expect (by decide) _).bind fun _ =>
      (Terminated.expect (by decide) _).bind fun _ => ?_
    refine terminated_parseHex4.bind fun codepoint2 => ?_
    split_ifs
    · exact .fail _
    · exact .pure _
  · exact .pure _

theorem terminated_parseChar : Terminated '\x00' parseChar := by
  have hescape : Terminated '\x00' parseEscape :=
    .onHead (by decide) (fun _ => .pure _)
      (.onHead (by decide) (fun _ => terminated_parseUnicode) (.fail _))
  exact .onHead (by decide) (fun _ => hescape.bind fun _ => .pure _)
    (.onHead (by decide) (fun _ => .pure _)
      (.onHead (by decide) (fun _ => .pure _) (.failAt rfl)))

theorem terminated_parseString : Terminated '\x00' parseString :=
  terminated_parseChar.many.bind fun _ => .pure _

theorem terminated_parseToken : Terminated '\x00' parseToken := by
  have hdigit : isDigit '\x00' = false := by decide
  have hint : Terminated '\x00' parseInt :=
    .onHead (by decide) (fun _ => .pure _)
      (.onHead hdigit (fun _ => (Terminated.takeWhile hdigit).bind fun _ => .pure _) (.fail _))
  have hfrac : Terminated '\x00' parseFrac :=
    .onHead (by decide) (fun _ => (Terminated.expect hdigit _).bind fun _ =>
      (Terminated.takeWhile hdigit).bind fun _ => .pure _) (.pure _)
  have hexp : ∀ maxExp, Terminated '\x00' (parseExp maxExp) := by
    intro maxExp
    refine .onHead (by decide) (fun e => ?_) (.pure _)
    refine (Terminated.takeIf (by decide)).bind fun sign =>
      (Terminated.expect hdigit _).bind fun d => ?_
    split_ifs
    · exact (Terminated.takeWhile hdigit).bind fun _ => .pure _
    · exact (Terminated.foldWhile hdigit _ _).bind fun _ => .pure _
  exact (Terminated.takeIf (by decide)).bind fun _ => hint.bind fun _ => hfrac.bind fun _ =>
    (hexp _).bind fun _ => .pure _

theorem terminated_parseNumber (D : Strtod) : Terminated '\x00' (parseNumber D) := by
  refine terminated_parseToken.bind fun token => ?_
  cases token.toValue D with
  | ok v => exact .pure v
  | error e => exact .fail e

theorem terminated_consume {cs : List Char} (hcs : '\x00' ∉ cs) :
    Terminated '\x00' (consume cs) := by
  induction cs with
  | nil => exact .pure ()
  | cons c cs ih =>
    simp only [List.mem_cons, not_or] at hcs
    exact (Terminated.expect (by simpa using hcs.1) _).bind fun _ => ih hcs.2

theorem terminated_parseValue (D : Strtod) : Terminated '\x00' (parseValue D) :=
  .onHead (by decide) (fun _ => (terminated_consume (by decide)).bind fun _ => .pure _)
    (.onHead (by decide) (fun _ => (terminated_consume (by decide)).bind fun _ => .pure _)
      (.onHead (by decide) (fun _ => (terminated_consume (by decide)).bind fun _ => .pure _)
        (.onHead (by decide) (fun _ => terminated_parseString.bind fun _ => .pure _)
          ((terminated_parseNumber D).bind fun _ => .pure _))))

/-- The loop of `ParseString` takes a character in each round. -/
theorem consumes_parseChar : Consumes parseChar :=
  .onHead (fun _ => online_parseEscape.bind fun _ => .pure _)
    (.onHead (fun _ => .pure _) (.onHead (fun _ => .pure _) (.failAt _)))

theorem consumes_parseNumber (D : Strtod) : Consumes (parseNumber D) := by
  have hint : Consumes parseInt :=
    .onHead (fun _ => .pure _) (.onHead (fun _ => (Online.takeWhile _).bind fun _ => .pure _)
      (.fail _))
  have htoken : Consumes parseToken :=
    .bind_right (Online.takeIf _) fun _ => hint.bind_left fun _ => online_parseFrac.bind fun _ =>
      (online_parseExp _).bind fun _ => .pure _
  refine htoken.bind_left fun token => ?_
  cases token.toValue D with
  | ok v => exact .pure v
  | error e => exact .fail e

theorem consumes_parseValue (D : Strtod) : Consumes (parseValue D) :=
  .onHead (fun _ => (online_consume _).bind fun _ => .pure _)
    (.onHead (fun _ => (online_consume _).bind fun _ => .pure _)
      (.onHead (fun _ => (online_consume _).bind fun _ => .pure _)
        (.onHead (fun _ => online_parseString.bind fun _ => .pure _)
          ((consumes_parseNumber D).bind_left fun _ => .pure _))))

end Reader

/-! ## A round -/

namespace MessageParser

open Scanner Reader

variable {D : Strtod} {p p' : MessageParser} {is behind : List Char}

/-- A transition takes a character, or it fails. -/
theorem consumes_transit (D : Strtod) (p : MessageParser) (n : ParsingState) :
    Consumes (p.transit D n) := by
  obtain ⟨e, h⟩ | ⟨r, h⟩ | h | ⟨state, h⟩ := transit_cases D p n <;> rw [h]
  · exact .fail _
  · exact (Consumes.expect _ _).bind_left fun _ => .pure _
  · exact (Consumes.expect _ _).bind_left fun _ => online_parseString.bind fun _ => .pure _
  · exact (consumes_parseValue D).bind_left fun _ => .pure _

/-- What is predicted at the NUL reads a value, or fails. -/
theorem transit_nul (D : Strtod) (p : MessageParser) :
    Terminated '\x00' (p.transit D (predict p.state .number)) := by
  have hvalue : ∀ state, Terminated '\x00' (p.parseInto D state) := fun _ =>
    (terminated_parseValue D).bind fun _ => .pure _
  cases p.state with
  | start => exact hvalue _
  | arrayInitial => exact hvalue _
  | elementDelimiter => exact hvalue _
  | keyValueDelimiter => exact hvalue _
  | _ => exact .fail _

/-- `Take` is not called at the NUL. -/
theorem transit_terminated (D : Strtod) (p : MessageParser) (is behind : List Char) :
    p.transit D (predict p.state (tokenize (peek is))) (is ++ '\x00' :: behind) =
      ((p.transit D (predict p.state (tokenize (peek is))) is).1,
        (p.transit D (predict p.state (tokenize (peek is))) is).2 ++ '\x00' :: behind) := by
  cases is with
  | nil => exact transit_nul D p [] behind
  | cons c is =>
    generalize predict p.state (tokenize (peek (c :: is))) = n
    have htake : ∀ is, (take : Parse Char) (c :: is) = (.ok c, is) := fun _ => rfl
    obtain ⟨e, h⟩ | ⟨r, h⟩ | h | ⟨state, h⟩ := transit_cases D p n <;> rw [h]
    · rfl
    · rfl
    · rw [List.cons_append, bind_of_ok (htake _), bind_of_ok (htake _)]
      exact terminated_parseString.bind (fun _ => .pure _) is behind
    · exact (terminated_parseValue D).bind (fun _ => .pure _) (c :: is) behind

theorem peek_append (is behind : List Char) : peek (is ++ '\x00' :: behind) = peek is := by
  cases is <;> rfl

theorem dropWhile_append (is behind : List Char) :
    (is ++ '\x00' :: behind).dropWhile isWhitespace =
      is.dropWhile isWhitespace ++ '\x00' :: behind := by
  have hnul : isWhitespace '\x00' = false := by decide
  induction is with
  | nil => simp [hnul]
  | cons c is ih => cases hc : isWhitespace c <;> simp [hc, ih]

/-- The stream goes on. -/
def onward (behind : List Char) (r : NextResult × MessageParser × List Char) :
    NextResult × MessageParser × List Char :=
  (r.1, r.2.1, r.2.2 ++ '\x00' :: behind)

/-- A round sees nothing behind the NUL, and does not take it. -/
theorem nextRound_append (D : Strtod) (prevState : ParsingState) (p : MessageParser)
    (is behind : List Char) :
    p.nextRound D prevState (is ++ '\x00' :: behind) =
      (p.nextRound D prevState is).map (onward behind) fun r => (r.1, r.2 ++ '\x00' :: behind) := by
  unfold nextRound
  dsimp only
  rw [dropWhile_append, peek_append, transit_terminated]
  rcases p.transit D _ (is.dropWhile isWhitespace) with ⟨code | ⟨p', isNumber⟩, rest⟩
  · unfold afterTransit
    dsimp only
    rw [peek_append]
    split_ifs <;> rfl
  · unfold afterTransit
    dsimp only
    rw [peek_append]
    split_ifs <;> rfl

/-- `IterativeParseNext` takes a character, or it comes to the NUL in the state that it was called
in, or there is an error. -/
def Goes (prevState : ParsingState) (is : List Char) : NextResult × MessageParser × List Char → Prop
  | (.parsed, _, rest) => rest <:+ is ∧ rest.length < is.length
  | (.incomplete _, p, rest) =>
    p.state = prevState ∧ rest <:+ is ∧ (peek is ≠ '\x00' → rest.length < is.length)
  | (.failed _, _, _) => True

theorem Goes.mono {prevState : ParsingState} {rest : List Char}
    {r : NextResult × MessageParser × List Char} (h : Goes prevState rest r)
    (hrest : rest <:+ is) (hlt : rest.length < is.length) : Goes prevState is r := by
  obtain ⟨result, p, rest'⟩ := r
  cases result with
  | parsed => exact ⟨h.1.trans hrest, h.2.trans hlt⟩
  | incomplete b => exact ⟨h.1, h.2.1.trans hrest, fun _ => h.2.1.length_le.trans_lt hlt⟩
  | failed code => trivial

def RoundGoes (prevState : ParsingState) (is : List Char) :
    (NextResult × MessageParser × List Char) ⊕ (MessageParser × List Char) → Prop
  | .inl r => Goes prevState is r
  | .inr (p', rest) => rest <:+ is ∧ rest.length < is.length ∧ p'.state ≠ .finish

theorem rollback_state (prevState : ParsingState) : (p.rollback prevState).state = prevState := by
  unfold rollback
  by_cases h : prevState = p.state
  · rw [if_pos h]
    exact h.symm
  · rw [if_neg h]

theorem nextRound_goes (D : Strtod) (prevState : ParsingState) (p : MessageParser)
    (is : List Char) : RoundGoes prevState is (p.nextRound D prevState is) := by
  have hspace : is.dropWhile isWhitespace <:+ is := List.dropWhile_suffix _
  unfold nextRound
  dsimp only
  generalize predict p.state (tokenize (peek (is.dropWhile isWhitespace))) = n
  have hsuffix := ((online_transit D (p := p) n).suffix (is.dropWhile isWhitespace)).trans hspace
  have hconsumes := consumes_transit D p n (is.dropWhile isWhitespace)
  -- what comes to the NUL from elsewhere has taken something
  have hlt : ∀ rest, rest <:+ is → peek rest = '\x00' → peek is ≠ '\x00' →
      rest.length < is.length := by
    intro rest hrest hpeek hne
    refine lt_of_le_of_ne hrest.length_le fun heq => hne ?_
    rw [← hrest.eq_of_length heq, hpeek]
  rcases htransit : p.transit D n (is.dropWhile isWhitespace) with
    ⟨code | ⟨p', isNumber⟩, rest⟩ <;> rw [htransit] at hsuffix <;> rw [afterTransit]
  · by_cases hpeek : peek rest = '\x00'
    · rw [if_pos hpeek]
      exact ⟨rollback_state prevState, hsuffix, hlt rest hsuffix hpeek⟩
    · rw [if_neg hpeek]
      trivial
  · have htaken : rest.length < is.length :=
      (hconsumes _ rest htransit).trans_le hspace.length_le
    split_ifs with hfinish hnumber hdelimiter
    · exact ⟨hsuffix, htaken⟩
    · exact ⟨rollback_state prevState, hsuffix, hlt rest hsuffix hnumber.2⟩
    · exact ⟨hsuffix, htaken, hfinish⟩
    · exact ⟨hsuffix, htaken⟩

/-! ## `IterativeParseNext` -/

inductive NextLoop (D : Strtod) (prevState : ParsingState) :
    MessageParser → List Char → NextResult × MessageParser × List Char → Prop
  | finished {p : MessageParser} {is : List Char} :
    peek is = '\x00' → p.state = .finish → NextLoop D prevState p is (.parsed, p, is)
  | ended {p : MessageParser} {is : List Char} : peek is = '\x00' → p.state ≠ .finish →
    NextLoop D prevState p is (.incomplete false, p.rollback prevState, is)
  | returned {p : MessageParser} {is : List Char} {r : NextResult × MessageParser × List Char} :
    peek is ≠ '\x00' → p.nextRound D prevState is = .inl r → NextLoop D prevState p is r
  | again {p p' : MessageParser} {is is' : List Char}
    {r : NextResult × MessageParser × List Char} : peek is ≠ '\x00' →
    p.nextRound D prevState is = .inr (p', is') → NextLoop D prevState p' is' r →
    NextLoop D prevState p is r

theorem NextLoop.det {prevState : ParsingState} {r r' : NextResult × MessageParser × List Char}
    (h : NextLoop D prevState p is r) (h' : NextLoop D prevState p is r') : r = r' := by
  induction h with
  | finished hnul hfinish =>
    cases h' with
    | finished => rfl
    | ended _ hne => exact absurd hfinish hne
    | returned hne => exact absurd hnul hne
    | again hne => exact absurd hnul hne
  | ended hnul hfinish =>
    cases h' with
    | finished _ heq => exact absurd heq hfinish
    | ended => rfl
    | returned hne => exact absurd hnul hne
    | again hne => exact absurd hnul hne
  | returned hne hround =>
    cases h' with
    | finished hnul => exact absurd hnul hne
    | ended hnul => exact absurd hnul hne
    | returned _ hround' => exact Sum.inl.inj (hround.symm.trans hround')
    | again _ hround' => cases hround.symm.trans hround'
  | again hne hround _ ih =>
    cases h' with
    | finished hnul => exact absurd hnul hne
    | ended hnul => exact absurd hnul hne
    | returned _ hround' => cases hround.symm.trans hround'
    | again _ hround' hrest =>
      cases hround.symm.trans hround'
      exact ih hrest

/-- The loop ends in front of the NUL. -/
theorem nextLoop_runs {prevState : ParsingState} {fuel : ℕ} (hfuel : is.length < fuel)
    (hp : p.state ≠ .finish) (behind : List Char) :
    NextLoop D prevState p (is ++ '\x00' :: behind)
        (onward behind (nextLoop D prevState fuel p is)) ∧
      Goes prevState is (nextLoop D prevState fuel p is) := by
  induction fuel generalizing p is with
  | zero => exact absurd hfuel (Nat.not_lt_zero _)
  | succ fuel ih =>
    have hpeek := peek_append is behind
    have hround := nextRound_append D prevState p is behind
    have hgoes := nextRound_goes D prevState p is
    unfold nextLoop
    by_cases hnul : peek is = '\x00'
    · rw [if_pos hnul, if_neg hp]
      exact ⟨.ended (hpeek.trans hnul) hp, rollback_state prevState, List.suffix_rfl,
        fun hne => absurd hnul hne⟩
    · have hnul' : peek (is ++ '\x00' :: behind) ≠ '\x00' := hpeek ▸ hnul
      rw [if_neg hnul]
      rcases hr : p.nextRound D prevState is with r | ⟨p', rest⟩ <;> rw [hr] at hround hgoes
      · exact ⟨.returned hnul' hround, hgoes⟩
      · have hshort : rest.length < fuel := by
          have hlt := hgoes.2.1
          omega
        obtain ⟨hrun, hrest⟩ := ih hshort hgoes.2.2
        exact ⟨.again hnul' hround hrun, hrest.mono hgoes.1 hgoes.2.1⟩

theorem next_runs (hp : p.state ≠ .finish) (is behind : List Char) :
    NextLoop D p.state p (is ++ '\x00' :: behind) (onward behind (p.next D is)) ∧
      Goes p.state is (p.next D is) :=
  nextLoop_runs (Nat.lt_succ_self _) hp behind

/-! ## `doParse` -/

/-- `IterativeParseComplete` -/
def IsComplete (p : MessageParser) : Prop := p.state = .finish ∨ p.state = .error

instance (p : MessageParser) : Decidable p.IsComplete := inferInstanceAs (Decidable (_ ∨ _))

inductive TokensLoop (D : Strtod) : MessageParser → List Char → TokensResult → Prop
  | complete {p : MessageParser} {is : List Char} :
    p.IsComplete → TokensLoop D p is (.complete p is)
  | parsed {p p' : MessageParser} {is is' : List Char} {r : TokensResult} : ¬p.IsComplete →
    NextLoop D p.state p is (.parsed, p', is') → TokensLoop D p' is' r → TokensLoop D p is r
  | failed {p p' : MessageParser} {is is' : List Char} {code : ParseErrorCode} : ¬p.IsComplete →
    NextLoop D p.state p is (.failed code, p', is') → TokensLoop D p is (.failed code)
  | incomplete {p p' : MessageParser} {is is' : List Char} {isLastValueInvalid : Bool} :
    ¬p.IsComplete → NextLoop D p.state p is (.incomplete isLastValueInvalid, p', is') →
    TokensLoop D p is (.incomplete (if isLastValueInvalid then p'.popLastValue else p') is is')

theorem TokensLoop.det {r r' : TokensResult} (h : TokensLoop D p is r)
    (h' : TokensLoop D p is r') : r = r' := by
  induction h with
  | complete hp =>
    cases h' with
    | complete => rfl
    | parsed hne => exact absurd hp hne
    | failed hne => exact absurd hp hne
    | incomplete hne => exact absurd hp hne
  | parsed hne hnext _ ih =>
    cases h' with
    | complete hp => exact absurd hp hne
    | parsed _ hnext' hrest =>
      cases hnext.det hnext'
      exact ih hrest
    | failed _ hnext' => cases hnext.det hnext'
    | incomplete _ hnext' => cases hnext.det hnext'
  | failed hne hnext =>
    cases h' with
    | complete hp => exact absurd hp hne
    | parsed _ hnext' => cases hnext.det hnext'
    | failed _ hnext' =>
      cases hnext.det hnext'
      rfl
    | incomplete _ hnext' => cases hnext.det hnext'
  | incomplete hne hnext =>
    cases h' with
    | complete hp => exact absurd hp hne
    | parsed _ hnext' => cases hnext.det hnext'
    | failed _ hnext' => cases hnext.det hnext'
    | incomplete _ hnext' =>
      cases hnext.det hnext'
      rfl

/-- The stream goes on. -/
def TokensResult.onward (behind : List Char) : TokensResult → TokensResult
  | .complete p is => .complete p (is ++ '\x00' :: behind)
  | .incomplete p parsed is =>
    .incomplete p (parsed ++ '\x00' :: behind) (is ++ '\x00' :: behind)
  | .failed code => .failed code

/-- The loop of `doParse` takes a character, unless it has nothing to do or starts at the NUL. -/
def TokensGo (p : MessageParser) (is : List Char) : TokensResult → Prop
  | .complete _ rest => rest <:+ is ∧ (¬p.IsComplete → rest.length < is.length)
  | .incomplete p' parsed rest =>
    ¬p'.IsComplete ∧ parsed <:+ is ∧ rest <:+ is ∧ (peek is ≠ '\x00' → rest.length < is.length)
  | .failed _ => True

theorem TokensGo.mono {rest : List Char} {r : TokensResult} (h : TokensGo p' rest r)
    (hrest : rest <:+ is) (hlt : rest.length < is.length) : TokensGo p is r := by
  cases r with
  | complete q rest' => exact ⟨h.1.trans hrest, fun _ => h.1.length_le.trans_lt hlt⟩
  | incomplete q parsed rest' =>
    exact ⟨h.1, h.2.1.trans hrest, h.2.2.1.trans hrest, fun _ => h.2.2.1.length_le.trans_lt hlt⟩
  | failed code => trivial

theorem parseTokens_runs {fuel : ℕ} (hfuel : is.length < fuel) (behind : List Char) :
    TokensLoop D p (is ++ '\x00' :: behind) ((parseTokens D fuel p is).onward behind) ∧
      TokensGo p is (parseTokens D fuel p is) := by
  induction fuel generalizing p is with
  | zero => exact absurd hfuel (Nat.not_lt_zero _)
  | succ fuel ih =>
    unfold parseTokens
    by_cases hp : p.state = .finish ∨ p.state = .error
    · rw [if_pos hp]
      exact ⟨.complete hp, List.suffix_rfl, fun hne => absurd hp hne⟩
    · obtain ⟨hrun, hgoes⟩ := next_runs (D := D) (fun h => hp (.inl h)) is behind
      rw [if_neg hp]
      rcases hnext : p.next D is with ⟨_ | b | code, p', rest⟩ <;> rw [hnext] at hrun hgoes
      · obtain ⟨hsuffix, hlt⟩ := hgoes
        have hshort : rest.length < fuel := by omega
        obtain ⟨hrest, hgo⟩ := ih (p := p') hshort
        exact ⟨.parsed hp hrun hrest, hgo.mono hsuffix hlt⟩
      · refine ⟨.incomplete hp hrun, ?_, List.suffix_rfl, hgoes.2.1, hgoes.2.2⟩
        have hstate : (if b then p'.popLastValue else p').state = p.state := by
          cases b with
          | true => exact hgoes.1
          | false => exact hgoes.1
        unfold IsComplete
        rw [hstate]
        exact hp
      · exact ⟨.failed hp hrun, trivial⟩

variable {σ : Type} {K : MessageCallback σ}

/-- `doParse` with the message, if there is one. -/
def handOver (K : MessageCallback σ) (s : σ) (is : List Char) : Option (Value × MessageParser) →
    (MessageParser × σ) × Except ReceiveException (List Char × List Char)
  | some (message, p) =>
    match K.onMessage message s with
    | (s, none) => (({}, s), .ok (is, is))
    | (s, some what) => ((p, s), .error (.callback what))
  | none => (({}, s), .error (.parser .msgDeserializationFailed))

/-- `doParse` behind its loop. -/
def afterTokens (K : MessageCallback σ) (s : σ) :
    TokensResult → (MessageParser × σ) × Except ReceiveException (List Char × List Char)
  | .failed code => (({}, s), .error (.parser (.jsonParseError code)))
  | .incomplete p parsed is => ((p, s), .ok (parsed, is))
  | .complete p is => handOver K s is p.get

theorem doParse_eq (s : σ) :
    doParse D K p s is = afterTokens K s (parseTokens D (is.length + 1) p is) := rfl

/-- The message is behind the parser, and the parser starts anew, or there is an exception. -/
theorem handOver_cases (K : MessageCallback σ) (s : σ) (x : Option (Value × MessageParser)) :
    (∃ s', ∀ is, handOver K s is x = (({}, s'), .ok (is, is))) ∨
      ∃ ps e, ∀ is, handOver K s is x = (ps, .error e) := by
  cases x with
  | none => exact .inr ⟨_, _, fun _ => rfl⟩
  | some x =>
    unfold handOver
    dsimp only
    rcases K.onMessage x.1 s with ⟨s', _ | what⟩
    · exact .inl ⟨s', fun _ => rfl⟩
    · exact .inr ⟨_, _, fun _ => rfl⟩

/-- Where `doParse` comes to. What is left of the stream is longer where the parser has nothing to
do. -/
def weight (p : MessageParser) (is : List Char) : ℕ := is.length + if p.IsComplete then 1 else 0

theorem not_isComplete_init : ¬({} : MessageParser).IsComplete := by decide

/-- `doParse` behind its loop, where the stream goes on. -/
theorem afterTokens_onward (K : MessageCallback σ) (s : σ) (t : TokensResult)
    (behind : List Char) :
    afterTokens K s (t.onward behind) =
      ((afterTokens K s t).1, (afterTokens K s t).2.map fun x =>
        (x.1 ++ '\x00' :: behind, x.2 ++ '\x00' :: behind)) := by
  cases t with
  | failed code => rfl
  | incomplete p parsed is => rfl
  | complete p is =>
    show handOver K s _ p.get = ((handOver K s is p.get).1, (handOver K s is p.get).2.map _)
    obtain ⟨s', h⟩ | ⟨ps, e, h⟩ := handOver_cases K s p.get <;> rw [h, h] <;> rfl

/-- `doParse` takes something, and keeps at most what it was given. -/
theorem afterTokens_lt {s : σ} {t : TokensResult} {ps : MessageParser × σ}
    {parsed rest : List Char} (hgo : TokensGo p is t) (hne : peek is ≠ '\x00')
    (h : afterTokens K s t = (ps, .ok (parsed, rest))) :
    weight ps.1 rest < weight p is ∧ rest <:+ is ∧ parsed <:+ is := by
  unfold weight
  cases t with
  | failed code => cases (Prod.mk.inj h).2
  | incomplete p' parsed' is' =>
    cases h
    rw [if_neg hgo.1]
    exact ⟨(hgo.2.2.2 hne).trans_le (Nat.le_add_right _ _), hgo.2.2.1, hgo.2.1⟩
  | complete p' is' =>
    have h : handOver K s is' p'.get = (ps, .ok (parsed, rest)) := h
    obtain ⟨s', hover⟩ | ⟨ps', e, hover⟩ := handOver_cases K s p'.get <;> rw [hover] at h
    · cases h
      refine ⟨?_, hgo.1, hgo.1⟩
      rw [if_neg not_isComplete_init]
      by_cases hp : p.IsComplete
      · rw [if_pos hp]
        exact Nat.lt_succ_of_le hgo.1.length_le
      · rw [if_neg hp]
        exact hgo.2 hp
    · cases (Prod.mk.inj h).2

/-! ## `parse` -/

/-- The loop of `parse`. From the terminating NUL on there are `left` bytes. -/
inductive ParseLoop (D : Strtod) (K : MessageCallback σ) (left : ℕ) : MessageParser × σ →
    List Char → List Char → (MessageParser × σ) × Except ReceiveException (List Char) → Prop
  | ended {ps : MessageParser × σ} {parsed is : List Char} :
    is.length ≤ left → ParseLoop D K left ps parsed is (ps, .ok parsed)
  | nul {ps : MessageParser × σ} {parsed is : List Char}
    {r : (MessageParser × σ) × Except ReceiveException (List Char)} : left < is.length + 1 →
    ParseLoop D K left ps is is r → ParseLoop D K left ps parsed ('\x00' :: is) r
  | parsed {ps ps' : MessageParser × σ} {parsed is parsed' is' : List Char} {t : TokensResult}
    {r : (MessageParser × σ) × Except ReceiveException (List Char)} : left < is.length →
    peek is ≠ '\x00' → TokensLoop D ps.1 is t →
    afterTokens K ps.2 t = (ps', .ok (parsed', is')) → ParseLoop D K left ps' parsed' is' r →
    ParseLoop D K left ps parsed is r
  | thrown {ps ps' : MessageParser × σ} {parsed is : List Char} {t : TokensResult}
    {e : ReceiveException} : left < is.length → peek is ≠ '\x00' → TokensLoop D ps.1 is t →
    afterTokens K ps.2 t = (ps', .error e) → ParseLoop D K left ps parsed is (ps', .error e)

theorem ParseLoop.det {left : ℕ} {ps : MessageParser × σ} {parsed : List Char}
    {r r' : (MessageParser × σ) × Except ReceiveException (List Char)}
    (h : ParseLoop D K left ps parsed is r) (h' : ParseLoop D K left ps parsed is r') :
    r = r' := by
  induction h with
  | ended hle =>
    cases h' with
    | ended => rfl
    | nul hlt => exact absurd hlt (not_lt.mpr hle)
    | parsed hlt => exact absurd hlt (not_lt.mpr hle)
    | thrown hlt => exact absurd hlt (not_lt.mpr hle)
  | nul hlt _ ih =>
    cases h' with
    | ended hle => exact absurd hlt (not_lt.mpr hle)
    | nul _ hrest => exact ih hrest
    | parsed _ hne => exact absurd rfl hne
    | thrown _ hne => exact absurd rfl hne
  | parsed hlt hne htokens hafter _ ih =>
    cases h' with
    | ended hle => exact absurd hlt (not_lt.mpr hle)
    | nul => exact absurd rfl hne
    | parsed _ _ htokens' hafter' hrest =>
      cases htokens.det htokens'
      cases hafter.symm.trans hafter'
      exact ih hrest
    | thrown _ _ htokens' hafter' =>
      cases htokens.det htokens'
      cases hafter.symm.trans hafter'
  | thrown hlt hne htokens hafter =>
    cases h' with
    | ended hle => exact absurd hlt (not_lt.mpr hle)
    | nul => exact absurd rfl hne
    | parsed _ _ htokens' hafter' =>
      cases htokens.det htokens'
      cases hafter.symm.trans hafter'
    | thrown _ _ htokens' hafter' =>
      cases htokens.det htokens'
      cases hafter.symm.trans hafter'
      rfl

theorem parseLoop_runs {fuel : ℕ} {ps : MessageParser × σ} (hfuel : weight ps.1 is ≤ fuel)
    (parsed behind : List Char) :
    ParseLoop D K (behind.length + 1) ps (parsed ++ '\x00' :: behind) (is ++ '\x00' :: behind)
      ((parseLoop D K fuel ps parsed is).1,
        (parseLoop D K fuel ps parsed is).2.map (· ++ '\x00' :: behind)) := by
  -- the weight bounds the turns that are left
  induction fuel generalizing ps parsed is with
  | zero =>
    have hnil : is = [] := by
      unfold weight at hfuel
      exact List.length_eq_zero_iff.mp (by omega)
    subst hnil
    exact .ended (Nat.le_refl _)
  | succ fuel ih =>
    cases is with
    | nil => exact .ended (Nat.le_refl _)
    | cons c is =>
      have hlt : behind.length + 1 < (c :: is ++ '\x00' :: behind).length := by
        rw [List.length_append, List.length_cons, List.length_cons]
        omega
      unfold parseLoop
      by_cases hc : c = '\x00'
      · subst hc
        rw [if_pos rfl]
        refine .nul (by simpa using hlt) (ih ?_ is)
        unfold weight at hfuel ⊢
        rw [List.length_cons] at hfuel
        omega
      · -- what is read stands in front of the NUL, so the NUL stops it in time
        have hne : peek (c :: is) ≠ '\x00' := hc
        have hne' : peek (c :: is ++ '\x00' :: behind) ≠ '\x00' := hc
        have hfuel : (c :: is).length < (c :: is).length + 1 := Nat.lt_succ_self _
        obtain ⟨hrun, hgo⟩ := parseTokens_runs (D := D) (p := ps.1) hfuel behind
        have honward := afterTokens_onward K ps.2
          (parseTokens D ((c :: is).length + 1) ps.1 (c :: is)) behind
        rw [if_neg hc, doParse_eq]
        rcases hafter : afterTokens K ps.2 (parseTokens D ((c :: is).length + 1) ps.1 (c :: is))
          with ⟨ps', e | ⟨parsed', rest⟩⟩ <;> rw [hafter] at honward
        · exact .thrown hlt hne' hrun honward
        · have hweight : weight ps'.1 rest < weight ps.1 (c :: is) :=
            (afterTokens_lt hgo hne hafter).1
          have hrest : weight ps'.1 rest ≤ fuel := by omega
          exact .parsed hlt hne' hrun honward (ih hrest parsed')

/-- What is left is the end of what was given. -/
theorem parseLoop_suffix {data : List Char} {fuel : ℕ} {ps ps' : MessageParser × σ}
    {parsed rest : List Char} (hparsed : parsed <:+ data) (his : is <:+ data)
    (h : parseLoop D K fuel ps parsed is = (ps', .ok rest)) : rest <:+ data := by
  induction fuel generalizing ps parsed is with
  | zero =>
    cases h
    exact hparsed
  | succ fuel ih =>
    cases is with
    | nil =>
      cases h
      exact hparsed
    | cons c is =>
      unfold parseLoop at h
      by_cases hc : c = '\x00'
      · rw [if_pos hc] at h
        have hnul : is <:+ data := (List.suffix_cons c is).trans his
        exact ih hnul hnul h
      · have hfuel : (c :: is).length < (c :: is).length + 1 := Nat.lt_succ_self _
        obtain ⟨-, hgo⟩ := parseTokens_runs (D := D) (p := ps.1) hfuel []
        rw [if_neg hc, doParse_eq] at h
        rcases hafter : afterTokens K ps.2 (parseTokens D ((c :: is).length + 1) ps.1 (c :: is))
          with ⟨ps₁, e | ⟨parsed', rest'⟩⟩ <;> rw [hafter] at h
        · cases (Prod.mk.inj h).2
        · have hsuffix := (afterTokens_lt hgo hc hafter).2
          exact ih (hsuffix.2.trans his) (hsuffix.1.trans his) h

/-- `parse`, with the data and what stands behind its NUL. It returns `parsedLength`. -/
inductive Parses (D : Strtod) (K : MessageCallback σ) (bufferSize : ℕ) (ps : MessageParser × σ)
    (data behind : List Char) : (MessageParser × σ) × Except ReceiveException ℕ → Prop
  | returned {ps' : MessageParser × σ} {parsed : List Char} {parsedLength : ℕ} :
    ParseLoop D K (behind.length + 1) ps (data ++ '\x00' :: behind) (data ++ '\x00' :: behind)
      (ps', .ok parsed) →
    parsedLength = (data ++ '\x00' :: behind).length - parsed.length →
    ¬(parsedLength = 0 ∧ bufferSize - 1 ≤ data.length) →
    Parses D K bufferSize ps data behind (ps', .ok parsedLength)
  | tooBig {ps' : MessageParser × σ} {parsed : List Char} {parsedLength : ℕ} :
    ParseLoop D K (behind.length + 1) ps (data ++ '\x00' :: behind) (data ++ '\x00' :: behind)
      (ps', .ok parsed) →
    parsedLength = (data ++ '\x00' :: behind).length - parsed.length →
    parsedLength = 0 ∧ bufferSize - 1 ≤ data.length →
    Parses D K bufferSize ps data behind (({}, ps'.2), .error (.parser .msgTokenTooBig))
  | thrown {ps' : MessageParser × σ} {e : ReceiveException} :
    ParseLoop D K (behind.length + 1) ps (data ++ '\x00' :: behind) (data ++ '\x00' :: behind)
      (ps', .error e) → Parses D K bufferSize ps data behind (ps', .error e)

variable {bufferSize : ℕ} {ps : MessageParser × σ} {data : List Char}

theorem Parses.det {r r' : (MessageParser × σ) × Except ReceiveException ℕ}
    (h : Parses D K bufferSize ps data behind r) (h' : Parses D K bufferSize ps data behind r') :
    r = r' := by
  cases h with
  | returned hloop hlength hfits =>
    cases h' with
    | returned hloop' hlength' =>
      cases hloop.det hloop'
      rw [hlength, hlength']
    | tooBig hloop' hlength' hbig =>
      cases hloop.det hloop'
      rw [hlength'] at hbig
      rw [hlength] at hfits
      exact absurd hbig hfits
    | thrown hloop' => cases hloop.det hloop'
  | tooBig hloop hlength hbig =>
    cases h' with
    | returned hloop' hlength' hfits =>
      cases hloop.det hloop'
      rw [hlength] at hbig
      rw [hlength'] at hfits
      exact absurd hbig hfits
    | tooBig hloop' =>
      cases hloop.det hloop'
      rfl
    | thrown hloop' => cases hloop.det hloop'
  | thrown hloop =>
    cases h' with
    | returned hloop' => cases hloop.det hloop'
    | tooBig hloop' => cases hloop.det hloop'
    | thrown hloop' =>
      cases hloop.det hloop'
      rfl

/-- What `parse` returns: how long the data is that it keeps no longer. -/
def parsedLength (data : List Char)
    (r : (MessageParser × σ) × Except ReceiveException (List Char)) :
    (MessageParser × σ) × Except ReceiveException ℕ :=
  (r.1, r.2.map fun rest => data.length - rest.length)

/-- **Every call of `parse` ends.** -/
theorem parse_runs (D : Strtod) (K : MessageCallback σ) (bufferSize : ℕ) (ps : MessageParser × σ)
    (data behind : List Char) :
    Parses D K bufferSize ps data behind (parsedLength data (parse D K bufferSize ps data)) := by
  have hfuel : weight ps.1 data ≤ data.length + 1 := by
    unfold weight
    split_ifs <;> omega
  have hloop := parseLoop_runs (D := D) (K := K) hfuel data behind
  unfold parse
  rcases hresult : parseLoop D K (data.length + 1) ps data data with ⟨ps', e | rest⟩ <;>
    rw [hresult] at hloop
  · exact .thrown hloop
  · have hle : rest.length ≤ data.length :=
      (parseLoop_suffix List.suffix_rfl List.suffix_rfl hresult).length_le
    have hlength : data.length - rest.length =
        (data ++ '\x00' :: behind).length - (rest ++ '\x00' :: behind).length := by
      rw [List.length_append, List.length_append]
      omega
    dsimp only
    by_cases hbig : rest.length = data.length ∧ bufferSize - 1 ≤ data.length
    · rw [if_pos hbig]
      refine .tooBig hloop hlength ⟨?_, hbig.2⟩
      rw [hbig.1, Nat.sub_self]
    · rw [if_neg hbig]
      refine .returned hloop hlength fun h => hbig ⟨?_, h.2⟩
      have hzero : data.length - rest.length = 0 := h.1
      omega

theorem parse_suffix {ps' : MessageParser × σ} {rest : List Char}
    (h : parse D K bufferSize ps data = (ps', .ok rest)) : rest <:+ data := by
  unfold parse at h
  rcases hresult : parseLoop D K (data.length + 1) ps data data with ⟨ps₁, e | parsed⟩ <;>
    rw [hresult] at h
  · cases (Prod.mk.inj h).2
  · dsimp only at h
    split_ifs at h
    · cases (Prod.mk.inj h).2
    · cases h
      exact parseLoop_suffix List.suffix_rfl List.suffix_rfl hresult

/-- At most all bytes are parsed. -/
theorem Parses.le {r : (MessageParser × σ) × Except ReceiveException ℕ} {n : ℕ}
    (h : Parses D K bufferSize ps data behind r) (hr : r.2 = .ok n) : n ≤ data.length := by
  have hruns := h.det (parse_runs D K bufferSize ps data behind)
  rw [hruns] at hr
  unfold parsedLength at hr
  cases hparse : (parse D K bufferSize ps data).2 with
  | error e =>
    rw [hparse] at hr
    cases hr
  | ok rest =>
    rw [hparse] at hr
    cases hr
    exact Nat.sub_le _ _

/-- Something is parsed, or the data does not fill the buffer. -/
theorem Parses.fits {ps' : MessageParser × σ} {n : ℕ}
    (h : Parses D K bufferSize ps data behind (ps', .ok n)) :
    0 < n ∨ data.length < bufferSize - 1 := by
  cases h with
  | returned _ _ hfits =>
    by_contra hnot
    exact hfits (by omega)

end MessageParser

/-! ## `doReceive` -/

namespace StreamSocketReader

variable {σ : Type} {D : Strtod} {K : MessageCallback σ}

/-- `doReceive`. What is not parsed is moved to the beginning of the buffer. -/
inductive Receives (D : Strtod) (K : MessageCallback σ) (r : StreamSocketReader) (s : σ)
    (received behind : List Char) :
    (StreamSocketReader × σ) × Except ReceiveException Bool → Prop
  | closed : received = [] → Receives D K r s received behind ((r, s), .ok true)
  | returned {p : MessageParser} {s' : σ} {parsedLength : ℕ} : received ≠ [] →
    MessageParser.Parses D K r.bufferSize (r.parser, s) (r.buffer ++ received) behind
      ((p, s'), .ok parsedLength) →
    Receives D K r s received behind
      (({ r with buffer := (r.buffer ++ received).drop parsedLength, parser := p }, s'), .ok false)
  | thrown {p : MessageParser} {s' : σ} {e : ReceiveException} : received ≠ [] →
    MessageParser.Parses D K r.bufferSize (r.parser, s) (r.buffer ++ received) behind
      ((p, s'), .error e) →
    Receives D K r s received behind (({ r with parser := p }, s'), .error e)

theorem Receives.det {r : StreamSocketReader} {s : σ} {received behind : List Char}
    {result result' : (StreamSocketReader × σ) × Except ReceiveException Bool}
    (h : Receives D K r s received behind result)
    (h' : Receives D K r s received behind result') : result = result' := by
  cases h with
  | closed hclosed =>
    cases h' with
    | closed => rfl
    | returned hne => exact absurd hclosed hne
    | thrown hne => exact absurd hclosed hne
  | returned hne hparses =>
    cases h' with
    | closed hclosed => exact absurd hclosed hne
    | returned _ hparses' =>
      cases hparses.det hparses'
      rfl
    | thrown _ hparses' => cases hparses.det hparses'
  | thrown hne hparses =>
    cases h' with
    | closed hclosed => exact absurd hclosed hne
    | returned _ hparses' => cases hparses.det hparses'
    | thrown _ hparses' =>
      cases hparses.det hparses'
      rfl

/-- Every call of `doReceive` ends. -/
theorem receives_doReceive (D : Strtod) (K : MessageCallback σ) (r : StreamSocketReader) (s : σ)
    (received behind : List Char) :
    Receives D K r s received behind (r.doReceive D K s received) := by
  cases received with
  | nil => exact .closed rfl
  | cons c cs =>
    have hne : c :: cs ≠ [] := List.cons_ne_nil c cs
    have hruns := MessageParser.parse_runs D K r.bufferSize (r.parser, s) (r.buffer ++ c :: cs)
      behind
    unfold MessageParser.parsedLength at hruns
    unfold doReceive
    dsimp only
    rcases hparse : MessageParser.parse D K r.bufferSize (r.parser, s) (r.buffer ++ c :: cs) with
      ⟨⟨p, s'⟩, e | rest⟩ <;> rw [hparse] at hruns
    · exact .thrown hne hruns
    · have hrest : rest = (r.buffer ++ c :: cs).drop ((r.buffer ++ c :: cs).length - rest.length) :=
        List.suffix_iff_eq_drop.mp (MessageParser.parse_suffix hparse)
      have hreturned := Receives.returned hne hruns
      rw [← hrest] at hreturned
      exact hreturned

/-- The reader and the state of the callback, along calls of `doReceive` that receive at most what
is asked for. Between two calls the state of the callback may change. -/
inductive Receiving (D : Strtod) (K : MessageCallback σ) (bufferSize : ℕ) :
    StreamSocketReader → σ → Prop
  | start (s : σ) : Receiving D K bufferSize { bufferSize } s
  | receive {r r' : StreamSocketReader} {s s' : σ} {received behind : List Char}
    {result : Except ReceiveException Bool} : Receiving D K bufferSize r s →
    received.length ≤ r.freeSize → Receives D K r s received behind ((r', s'), result) →
    Receiving D K bufferSize r' s'
  | between {r : StreamSocketReader} {s : σ} (s' : σ) :
    Receiving D K bufferSize r s → Receiving D K bufferSize r s'

/-- There is room for a character and the NUL. -/
def HasRoom (bufferSize : ℕ) (r : StreamSocketReader) : Prop :=
  r.bufferSize = bufferSize ∧ r.buffer.length < bufferSize - 1

theorem HasRoom.receives {bufferSize : ℕ} {r r' : StreamSocketReader} {s s' : σ}
    {received behind : List Char} {result : Except ReceiveException Bool}
    (h : r.HasRoom bufferSize) (hfree : received.length ≤ r.freeSize)
    (hcall : Receives D K r s received behind ((r', s'), result)) : r'.HasRoom bufferSize := by
  obtain ⟨hsize, hroom⟩ := h
  unfold freeSize at hfree
  cases hcall with
  | closed => exact ⟨hsize, hroom⟩
  | thrown => exact ⟨hsize, hroom⟩
  | returned hne hparses =>
    refine ⟨hsize, ?_⟩
    have hfits := hparses.fits
    rw [hsize] at hfree hfits
    rw [List.length_append] at hfits
    rw [List.length_drop, List.length_append]
    omega

theorem Receiving.hasRoom {bufferSize : ℕ} (hsize : 2 ≤ bufferSize) {r : StreamSocketReader}
    {s : σ} (h : Receiving D K bufferSize r s) : r.HasRoom bufferSize := by
  induction h with
  | start s => exact ⟨rfl, Nat.lt_sub_of_add_lt hsize⟩
  | receive _ hfree hcall ih => exact ih.receives hfree hcall
  | between s' _ ih => exact ih

end StreamSocketReader

/-- **Parsing always ends, and the receive buffer never fills up.** -/
theorem receive_bounded {σ : Type} (D : Strtod) (K : MessageCallback σ) :
    (∀ (bufferSize : ℕ) (ps : MessageParser × σ) (data behind : List Char),
      ∃ result, MessageParser.Parses D K bufferSize ps data behind result ∧
        (∀ result', MessageParser.Parses D K bufferSize ps data behind result' →
          result' = result) ∧
        ∀ n, result.2 = .ok n → n ≤ data.length) ∧
      (∀ is, Scanner.Many Reader.parseChar is (Scanner.many Reader.parseChar is)) ∧
      ∀ (bufferSize : ℕ) (r : StreamSocketReader) (s : σ), 2 ≤ bufferSize →
        StreamSocketReader.Receiving D K bufferSize r s →
        r.buffer.length < r.bufferSize - 1 ∧ 0 < r.freeSize ∧
          ∀ received behind : List Char, received.length ≤ r.freeSize →
            (r.buffer ++ received).length < r.bufferSize ∧
              StreamSocketReader.Receives D K r s received behind (r.doReceive D K s received) ∧
              ∀ result, StreamSocketReader.Receives D K r s received behind result →
                result = r.doReceive D K s received := by
  refine ⟨fun bufferSize ps data behind => ?_, Reader.consumes_parseChar.many_runs, ?_⟩
  · have hruns := MessageParser.parse_runs D K bufferSize ps data behind
    exact ⟨_, hruns, fun result' h => h.det hruns, fun n hn => hruns.le hn⟩
  · intro bufferSize r s hsize hreceiving
    obtain ⟨rfl, hroom⟩ := hreceiving.hasRoom hsize
    unfold StreamSocketReader.freeSize
    refine ⟨hroom, by omega, fun received behind hfree => ?_⟩
    have hruns := StreamSocketReader.receives_doReceive D K r s received behind
    refine ⟨?_, hruns, fun result h => h.det hruns⟩
    rw [List.length_append]
    omega

/-- A callback that takes each message. -/
private def takenCallback : MessageCallback Unit := { onMessage := fun _ s => (s, none) }

/-- An opened object in a new buffer. -/
theorem receive_bounded_opened :
    ({} : StreamSocketReader).buffer.length < 4095 ∧ 0 < ({} : StreamSocketReader).freeSize ∧
      StreamSocketReader.Receives { overflows := fun _ => false } takenCallback {} () ['{'] ['x']
        (({} : StreamSocketReader).doReceive { overflows := fun _ => false } takenCallback ()
          ['{']) := by
  obtain ⟨-, -, hbounded⟩ := receive_bounded { overflows := fun _ => false } takenCallback
  obtain ⟨hroom, hfree, hreceive⟩ := hbounded 4096 {} () (by decide) (.start ())
  exact ⟨hroom, hfree, (hreceive ['{'] ['x'] (by decide)).2.1⟩

end Conntop
