import Conntop.CompactJson
import Conntop.ReaderChunks

/-!
# The tokens of compact JSON

`IterativeParseNext` takes a piece of compact JSON in one call. What stands in front of the token is
taken in the same call, a delimiter in a round of its own (`Ready`).

A `Path` is a list of pieces that the parser takes one after the other. The piece of a number needs
the character behind it, so a path knows the text behind its pieces.

Main result: `path_object`, the pieces of an object put its value on the stack.
-/

namespace Conntop

namespace MessageParser

open Scanner Reader

variable {D : Strtod} {p q r m : MessageParser} {front t behind : List Char}

/-- A character behind a number that ends it. -/
def EndsNumber (behind : List Char) : Prop := ∃ c cs, behind = c :: cs ∧ endsNumber c

/-- What has to be behind a piece. -/
def Behind (isNumber : Bool) (rest : List Char) : Prop := isNumber = true → EndsNumber rest

/-- The parser takes a piece in one call. -/
structure Move (D : Strtod) (p : MessageParser) (u : Piece) (q : MessageParser) : Prop where
  active : p.state ≠ .finish ∧ p.state ≠ .error
  opens : p.state = .start → peek (u.text.dropWhile isWhitespace) = '{'
  ne : u.text ≠ []
  noNul : '\x00' ∉ u.text
  next : ∀ rest, Behind u.isNumber rest → p.next D (u.text ++ rest) = (.parsed, q, rest)

inductive Path (D : Strtod) (behind : List Char) :
    MessageParser → List Piece → MessageParser → Prop
  | nil (p : MessageParser) : Path D behind p [] p
  | cons {p m q : MessageParser} {u : Piece} {us : List Piece} (hmove : Move D p u m)
      (hbehind : Behind u.isNumber (piecesText us ++ behind)) (hpath : Path D behind m us q) :
      Path D behind p (u :: us) q

theorem Path.single {u : Piece} (hmove : Move D p u q) (hbehind : Behind u.isNumber behind) :
    Path D behind p [u] q := .cons hmove hbehind (.nil q)

theorem Path.append {us vs : List Piece} (h : Path D (piecesText vs ++ behind) p us m)
    (h' : Path D behind m vs q) : Path D behind p (us ++ vs) q := by
  induction h with
  | nil => exact h'
  | @cons p m q u us hmove hbehind _ ih =>
    have htext : piecesText (us ++ vs) ++ behind = piecesText us ++ (piecesText vs ++ behind) := by
      rw [piecesText_append, List.append_assoc]
    refine .cons hmove ?_ (ih h')
    exact htext ▸ hbehind

/-! ## One token -/

/-- A character that starts a token. -/
def startsToken (c : Char) : Prop := isWhitespace c = false ∧ c ≠ '\x00'

/-- `p` takes what stands in front of a token and is then `r`, in the same call. -/
structure Ready (D : Strtod) (p : MessageParser) (front : List Char) (r : MessageParser) :
    Prop where
  active : p.state ≠ .finish ∧ p.state ≠ .error
  start : p.state = .start → ∀ c ∈ front, isWhitespace c = true
  noNul : '\x00' ∉ front
  next : ∀ c is result, startsToken c → r.nextRound D p.state (c :: is) = .inl result →
    p.next D (front ++ c :: is) = result

/-- A round that begins with no blank goes by its first character. -/
theorem nextRound_cons {c : Char} (hc : isWhitespace c = false) (prevState : ParsingState)
    (is : List Char) : r.nextRound D prevState (c :: is) =
      r.afterTransit prevState (predict r.state (tokenize c))
        (r.transit D (predict r.state (tokenize c)) (c :: is)) := by
  have hdrop : (c :: is).dropWhile isWhitespace = c :: is := by
    rw [List.dropWhile_cons, hc]
    rfl
  rw [nextRound, hdrop]
  rfl

theorem peek_of_ends (h : EndsNumber behind) : peek behind ≠ '\x00' := by
  obtain ⟨c, cs, rfl, hc⟩ := h
  obtain rfl | rfl | rfl := hc <;> exact fun h => by cases h

theorem afterTransit_parsed {isNumber : Bool} {n : ParsingState} {rest : List Char}
    (hbehind : Behind isNumber rest) (hn : n.isDelimiter = false) (prevState : ParsingState) :
    r.afterTransit prevState n (.ok (q, isNumber), rest) = .inl (.parsed, q, rest) := by
  rw [afterTransit]
  split_ifs with hfinish hnumber hdelimiter
  · rfl
  · exact absurd hnumber.2 (peek_of_ends (hbehind hnumber.1))
  · rw [hn] at hdelimiter
    cases hdelimiter
  · rfl

/-- A token of which the first character is `c`. -/
theorem move_of_transit {c : Char} {cs : List Char} {isNumber : Bool} {n : ParsingState}
    (hready : Ready D p front r) (hc : isWhitespace c = false) (hnul : '\x00' ∉ c :: cs)
    (hopens : p.state = .start → c = '{') (hn : predict r.state (tokenize c) = n)
    (hdelimiter : n.isDelimiter = false)
    (htransit : ∀ rest, Behind isNumber rest →
      r.transit D n (c :: (cs ++ rest)) = (.ok (q, isNumber), rest)) :
    Move D p { text := front ++ c :: cs, isNumber := isNumber } q where
  active := hready.active
  opens hp := by
    have hfront := hready.start hp
    have hdrop : (front ++ c :: cs).dropWhile isWhitespace = c :: cs := by
      rw [List.dropWhile_append_of_pos hfront, List.dropWhile_cons, hc]
      rfl
    rw [hdrop]
    exact hopens hp
  ne := List.append_ne_nil_of_right_ne_nil _ (List.cons_ne_nil _ _)
  noNul h := (List.mem_append.mp h).elim hready.noNul hnul
  next rest hbehind := by
    have hstarts : startsToken c := ⟨hc, fun h => hnul (h ▸ List.mem_cons_self)⟩
    have hround : r.nextRound D p.state (c :: (cs ++ rest)) = .inl (.parsed, q, rest) := by
      rw [nextRound_cons hc, hn, htransit rest hbehind]
      exact afterTransit_parsed hbehind hdelimiter p.state
    have hnext := hready.next c (cs ++ rest) _ hstarts hround
    rw [← hnext, List.append_assoc]
    rfl

/-! ## What stands in front -/

theorem next_of_round {result : NextResult × MessageParser × List Char} {c : Char}
    {is : List Char} (hc : c ≠ '\x00') (h : p.nextRound D p.state (c :: is) = .inl result) :
    p.next D (c :: is) = result := by
  have hpeek : peek (c :: is) ≠ '\x00' := hc
  rw [next, nextLoop_succ hpeek, h]

theorem ready_nil (hp : p.state ≠ .finish ∧ p.state ≠ .error) : Ready D p [] p where
  active := hp
  start _ c h := by cases h
  noNul h := by cases h
  next c is result hc h := next_of_round hc.2 h

theorem ready_newline (hp : p.state ≠ .finish ∧ p.state ≠ .error) : Ready D p ['\n'] p where
  active := hp
  start _ c h := by
    cases List.mem_singleton.mp h
    rfl
  noNul h := by cases List.mem_singleton.mp h
  next c is result _ h := next_of_round (by decide) h

/-- A delimiter has a round of its own. -/
theorem ready_delimiter {c : Char} {n : ParsingState} (hstart : p.state ≠ .start)
    (hp : p.state ≠ .finish ∧ p.state ≠ .error) (hws : isWhitespace c = false) (hnul : c ≠ '\x00')
    (hn : predict p.state (tokenize c) = n) (hdelimiter : n.isDelimiter = true)
    (hstate : r.state = n) (htransit : ∀ is, p.transit D n (c :: is) = (.ok (r, false), is)) :
    Ready D p [c] r where
  active := hp
  start h := absurd h hstart
  noNul h := hnul (List.mem_singleton.mp h).symm
  next c' is result hc' h := by
    have hfinish : r.state ≠ .finish := by
      rw [hstate]
      rintro rfl
      cases hdelimiter
    have hround : p.nextRound D p.state (c :: c' :: is) = .inr (r, c' :: is) := by
      have hnumber : ¬(false = true ∧ peek (c' :: is) = '\x00') := fun h => by cases h.1
      rw [nextRound_cons hws, hn, htransit, afterTransit, if_neg hfinish, if_neg hnumber,
        if_pos hdelimiter]
    have hpeek : peek (c :: c' :: is) ≠ '\x00' := hnul
    have hpeek' : peek (c' :: is) ≠ '\x00' := hc'.2
    rw [next, List.cons_append, List.nil_append, nextLoop_succ hpeek, hround]
    dsimp only
    rw [List.length_cons, nextLoop_succ hpeek', h]

theorem ready_colon (hp : p.state = .memberKey) :
    Ready D p [':'] { p with state := .keyValueDelimiter } := by
  have hn : predict p.state (tokenize ':') = .keyValueDelimiter := by
    rw [hp]
    rfl
  have hstart : p.state ≠ .start ∧ p.state ≠ .finish ∧ p.state ≠ .error := by
    rw [hp]
    decide
  exact ready_delimiter hstart.1 hstart.2 rfl (by decide) hn rfl rfl fun _ => rfl

theorem ready_memberComma (hp : p.state = .memberValue) :
    Ready D p [','] (p.countOne .memberDelimiter) := by
  have hn : predict p.state (tokenize ',') = .memberDelimiter := by
    rw [hp]
    rfl
  have hstart : p.state ≠ .start ∧ p.state ≠ .finish ∧ p.state ≠ .error := by
    rw [hp]
    decide
  exact ready_delimiter hstart.1 hstart.2 rfl (by decide) hn rfl rfl fun _ => rfl

theorem ready_elementComma (hp : p.state = .element) :
    Ready D p [','] (p.countOne .elementDelimiter) := by
  have hn : predict p.state (tokenize ',') = .elementDelimiter := by
    rw [hp]
    rfl
  have hstart : p.state ≠ .start ∧ p.state ≠ .finish ∧ p.state ≠ .error := by
    rw [hp]
    decide
  exact ready_delimiter hstart.1 hstart.2 rfl (by decide) hn rfl rfl fun _ => rfl

/-! ## The tokens -/

/-- A token that is taken without being read. -/
theorem move_of_take {c : Char} {n : ParsingState} (hready : Ready D p front r)
    (hc : startsToken c) (hopens : p.state = .start → c = '{')
    (hn : predict r.state (tokenize c) = n) (hdelimiter : n.isDelimiter = false)
    (htransit : ∀ is, r.transit D n (c :: is) = (.ok (q, false), is)) :
    Move D p { text := front ++ [c] } q :=
  move_of_transit hready hc.1 (fun h => hc.2 (List.mem_singleton.mp h).symm) hopens hn hdelimiter
    fun rest _ => htransit rest

/-- The states in which a value may start inside of a message. -/
def awaitsValue (state : ParsingState) : Prop :=
  state = .arrayInitial ∨ state = .elementDelimiter ∨ state = .keyValueDelimiter

theorem move_leftBracket (hready : Ready D p front r) (hr : awaitsValue r.state)
    (hp : p.state ≠ .start) :
    Move D p { text := front ++ ['['] } (r.startCompound (.array []) .arrayInitial) := by
  have hn : predict r.state (tokenize '[') = .arrayInitial := by
    obtain hr | hr | hr := hr <;> rw [hr] <;> rfl
  exact move_of_take hready ⟨rfl, by decide⟩ (fun h => absurd h hp) hn rfl fun _ => rfl

theorem move_leftCurlyBracket (hready : Ready D p front r)
    (hr : awaitsValue r.state ∨ r.state = .start) :
    Move D p { text := front ++ ['{'] } (r.startCompound (.object []) .objectInitial) := by
  have hn : predict r.state (tokenize '{') = .objectInitial := by
    obtain (hr | hr | hr) | hr := hr <;> rw [hr] <;> rfl
  exact move_of_take hready ⟨rfl, by decide⟩ (fun _ => rfl) hn rfl fun _ => rfl

theorem move_rightBracket (hp : p.state = .arrayInitial ∨ p.state = .element) :
    Move D p { text := [']'] } (p.endCompound .element MessageParserHandler.endArray) := by
  have hactive : p.state ≠ .finish ∧ p.state ≠ .error := by
    obtain hp | hp := hp <;> rw [hp] <;> decide
  have hstart : p.state ≠ .start ∧ p.state ≠ .elementDelimiter := by
    obtain hp | hp := hp <;> rw [hp] <;> decide
  have hn : predict p.state (tokenize ']') = .arrayFinish := by
    obtain hp | hp := hp <;> rw [hp] <;> rfl
  refine move_of_take (ready_nil hactive) ⟨rfl, by decide⟩ (fun h => absurd h hstart.1) hn rfl
    fun is => ?_
  rw [transit, if_neg hstart.2]
  rfl

theorem move_rightCurlyBracket (hp : p.state = .objectInitial ∨ p.state = .memberValue) :
    Move D p { text := ['}'] } (p.endCompound .memberValue MessageParserHandler.endObject) := by
  have hactive : p.state ≠ .finish ∧ p.state ≠ .error := by
    obtain hp | hp := hp <;> rw [hp] <;> decide
  have hstart : p.state ≠ .start ∧ p.state ≠ .memberDelimiter := by
    obtain hp | hp := hp <;> rw [hp] <;> decide
  have hn : predict p.state (tokenize '}') = .objectFinish := by
    obtain hp | hp := hp <;> rw [hp] <;> rfl
  refine move_of_take (ready_nil hactive) ⟨rfl, by decide⟩ (fun h => absurd h hstart.1) hn rfl
    fun is => ?_
  rw [transit, if_neg hstart.2]
  rfl

theorem move_key (hready : Ready D p front r) (s : List StringItem)
    (hr : r.state = .objectInitial ∨ r.state = .memberDelimiter) (hp : p.state ≠ .start) :
    Move D p { text := front ++ stringText s } (r.push (.string (stringValue s)) .memberKey) := by
  have hn : predict r.state (tokenize '"') = .memberKey := by
    obtain hr | hr := hr <;> rw [hr] <;> rfl
  refine move_of_transit hready rfl (noNul_stringText s) (fun h => absurd h hp) hn rfl
    fun rest _ => ?_
  have hstring : parseString (s.flatMap StringItem.text ++ ['"'] ++ rest) =
      (.ok (stringValue s), rest) := by
    rw [List.append_assoc]
    exact parseString_text s rest
  exact bind_of_ok hstring

/-! ## Values that are not compound -/

/-- `ParseValue` reads `t`. -/
structure Scalar (D : Strtod) (t : List Char) (v : Value) (isNumber : Bool) : Prop where
  head : ∃ c cs, t = c :: cs ∧ isWhitespace c = false ∧
    ∀ state, predictValue state (tokenize c) = state
  noNul : '\x00' ∉ t
  parse : ∀ rest, Behind isNumber rest → parseValue D (t ++ rest) = (.ok (v, isNumber), rest)

theorem predict_of_awaitsValue {state : ParsingState} {token : Token} (hstate : awaitsValue state)
    (h : ∀ next, predictValue next token = next) : predict state token = outerState state := by
  have hbracket : token ≠ .rightBracket := by
    rintro rfl
    cases h .start
  obtain rfl | rfl | rfl := hstate
  · cases token with
    | rightBracket => exact absurd rfl hbracket
    | _ => exact h .element
  · cases token with
    | rightBracket => exact absurd rfl hbracket
    | _ => exact h .element
  · exact h .memberValue

/-- A scalar is one piece, with what stands in front of it. -/
theorem move_scalar {v : Value} {isNumber : Bool} (hready : Ready D p front r)
    (hr : awaitsValue r.state) (hp : p.state ≠ .start) (h : Scalar D t v isNumber) :
    Move D p { text := front ++ t, isNumber := isNumber } (r.push v (outerState r.state)) := by
  obtain ⟨c, cs, rfl, hc, hvalue⟩ := h.head
  have hdelimiter : (outerState r.state).isDelimiter = false := by
    obtain hr | hr | hr := hr <;> rw [hr] <;> rfl
  refine move_of_transit hready hc h.noNul (fun h => absurd h hp)
    (predict_of_awaitsValue hr hvalue) hdelimiter fun rest hbehind => ?_
  have hparse : r.parseInto D (outerState r.state) (c :: (cs ++ rest)) =
      (.ok (r.push v (outerState r.state), isNumber), rest) :=
    bind_of_ok (h.parse rest hbehind)
  rw [← hparse]
  obtain hr | hr | hr := hr <;> rw [hr] <;> rfl

theorem scalar_null : Scalar D ['n', 'u', 'l', 'l'] .null false where
  head := ⟨_, _, rfl, rfl, fun _ => rfl⟩
  noNul := by decide
  parse rest _ := rfl

theorem scalar_bool (b : Bool) : Scalar D (Json.text (.bool b : Json D)) (.bool b) false where
  head := by cases b <;> exact ⟨_, _, rfl, rfl, fun _ => rfl⟩
  noNul := by
    cases b with
    | true => exact (by decide : '\x00' ∉ ['t', 'r', 'u', 'e'])
    | false => exact (by decide : '\x00' ∉ ['f', 'a', 'l', 's', 'e'])
  parse rest _ := by cases b <;> rfl

/-- A string ends with its quotation mark, whatever is behind it. -/
theorem scalar_string (s : List StringItem) :
    Scalar D (stringText s) (.string (stringValue s)) false where
  head := ⟨_, _, rfl, rfl, fun _ => rfl⟩
  noNul := noNul_stringText s
  parse rest _ := by
    have hstring : parseString (s.flatMap StringItem.text ++ ['"'] ++ rest) =
        (.ok (stringValue s), rest) := by
      rw [List.append_assoc]
      exact parseString_text s rest
    exact bind_of_ok hstring

theorem tokenize_number {c : Char} (hc : c = '-' ∨ isDigit c = true) :
    tokenize c = .number ∧ isWhitespace c = false := by
  obtain rfl | hc := hc
  · exact ⟨rfl, rfl⟩
  · constructor
    · unfold tokenize
      split <;> first | rfl | cases hc
    · by_contra hws
      rw [Bool.not_eq_false] at hws
      simp only [isWhitespace, Bool.or_eq_true, beq_iff_eq] at hws
      obtain ((rfl | rfl) | rfl) | rfl := hws <;> cases hc

theorem parseValue_number {c : Char} (hc : c = '-' ∨ isDigit c = true) (is : List Char) :
    parseValue D (c :: is) =
      (do return (← parseNumber D, true) : Parse (Value × Bool)) (c :: is) := by
  have hne : ∀ d, d ≠ '-' → isDigit d = false → (c == d) = false := by
    intro d hminus hdigit
    rw [beq_eq_false_iff_ne]
    rintro rfl
    obtain rfl | hc := hc
    · exact hminus rfl
    · rw [hdigit] at hc
      cases hc
  have hn := hne 'n' (by decide) rfl
  have ht := hne 't' (by decide) rfl
  have hf := hne 'f' (by decide) rfl
  have hquote := hne '"' (by decide) rfl
  exact (onHead_neg (c := c) hn is).trans ((onHead_neg (c := c) ht is).trans
    ((onHead_neg (c := c) hf is).trans (onHead_neg (c := c) hquote is)))

/-- A number is read to the character that ends it. -/
theorem scalar_number (n : JsonNumber D) : Scalar D n.token.text n.value true where
  head := by
    obtain ⟨c, cs, htext, hc⟩ := n.text_cons
    obtain ⟨htoken, hws⟩ := tokenize_number hc
    exact ⟨c, cs, htext, hws, fun state => by rw [htoken]; rfl⟩
  noNul := noNul_number n.isNumber
  parse rest hbehind := by
    obtain ⟨c, cs, rfl, hc⟩ := hbehind rfl
    obtain ⟨d, ds, htext, hd⟩ := n.text_cons
    have hnumber := parseNumber_text n hc cs
    rw [htext, List.cons_append] at hnumber ⊢
    rw [parseValue_number hd, bind_of_ok hnumber]
    rfl

/-! ## Compound values -/

/-- The parser behind the elements of an array. -/
def afterElements (r : MessageParser) : List Value → MessageParser
  | [] => r
  | [v] => r.push v .element
  | v :: vs => afterElements ((r.push v .element).countOne .elementDelimiter) vs

def pushMember (r : MessageParser) (m : String × Value) : MessageParser :=
  (r.push (.string m.1) .memberKey).push m.2 .memberValue

/-- The parser behind the members of an object. -/
def afterMembers (r : MessageParser) : List (String × Value) → MessageParser
  | [] => r
  | [m] => r.pushMember m
  | m :: ms => afterMembers ((r.pushMember m).countOne .memberDelimiter) ms

theorem countOne_stack {outer : ParsingState} {count : ℕ} {stack : List (ParsingState × ℕ)}
    (hstack : p.stack = (outer, count) :: stack) (state : ParsingState) :
    (p.countOne state).stack = (outer, count + 1) :: stack := by
  cases p with
  | mk state' stack' handler =>
    have hstack' : stack' = (outer, count) :: stack := hstack
    rw [hstack']
    rfl

/-- All elements but the last one are counted. -/
theorem afterElements_cons {outer : ParsingState} {count : ℕ}
    {stack : List (ParsingState × ℕ)} (hstack : r.stack = (outer, count) :: stack) (v : Value)
    (vs : List Value) : r.afterElements (v :: vs) =
      { state := .element
        stack := (outer, count + vs.length) :: stack
        handler := (v :: vs).reverse ++ r.handler } := by
  induction vs generalizing r v count with
  | nil =>
    rw [afterElements, push, hstack]
    rfl
  | cons v' vs ih =>
    have hstack' := countOne_stack (p := r.push v .element) hstack .elementDelimiter
    rw [afterElements, ih hstack', List.reverse_cons (a := v), List.append_assoc,
      List.length_cons, Nat.add_right_comm, Nat.add_assoc count]
    · rfl
    · exact List.cons_ne_nil _ _

/-- The keys and the values, as the handler has them on its stack. -/
def memberValues (ms : List (String × Value)) : List Value :=
  ms.flatMap fun m => [.string m.1, m.2]

theorem afterMembers_cons {outer : ParsingState} {count : ℕ}
    {stack : List (ParsingState × ℕ)} (hstack : r.stack = (outer, count) :: stack)
    (m : String × Value) (ms : List (String × Value)) : r.afterMembers (m :: ms) =
      { state := .memberValue
        stack := (outer, count + ms.length) :: stack
        handler := (memberValues (m :: ms)).reverse ++ r.handler } := by
  induction ms generalizing r m count with
  | nil =>
    rw [afterMembers, pushMember, push, push, hstack]
    rfl
  | cons m' ms ih =>
    have hstack' := countOne_stack (p := r.pushMember m) hstack .memberDelimiter
    have hvalues : (memberValues (m :: m' :: ms)).reverse =
        (memberValues (m' :: ms)).reverse ++ [m.2, .string m.1] := by
      rw [memberValues, List.flatMap_cons, List.reverse_append]
      rfl
    rw [afterMembers, ih hstack', hvalues, List.append_assoc, List.length_cons,
      Nat.add_right_comm, Nat.add_assoc count]
    · rfl
    · exact List.cons_ne_nil _ _

/-- The state behind a value. -/
def behindValue (state : ParsingState) : ParsingState :=
  if outerState state = .start then .finish else outerState state

theorem behindValue_of_awaitsValue (hr : awaitsValue r.state) :
    behindValue r.state = outerState r.state := by
  obtain hr | hr | hr := hr <;> rw [hr] <;> rfl

/-- The bracket takes the elements off the stack. -/
theorem endArray_afterElements (vs : List Value) :
    ((r.startCompound (.array []) .arrayInitial).afterElements vs).endCompound .element
      MessageParserHandler.endArray = r.push (.array vs) (behindValue r.state) := by
  cases vs with
  | nil => rfl
  | cons v vs =>
    have hstack : (r.startCompound (.array []) .arrayInitial).stack =
        (outerState r.state, 0) :: r.stack := rfl
    have hcount : 0 + vs.length + 1 = (v :: vs).reverse.length := by
      rw [List.length_reverse, List.length_cons, Nat.zero_add]
    rw [afterElements_cons hstack, endCompound]
    dsimp only
    rw [if_pos rfl, hcount, MessageParserHandler.endArray, List.drop_left, List.take_left,
      List.reverse_reverse]
    rfl

theorem pairs_memberValues (ms : List (String × Value)) :
    MessageParserHandler.pairs (memberValues ms) = ms := by
  induction ms with
  | nil => rfl
  | cons m ms ih => exact congrArg (m :: ·) ih

theorem length_memberValues (ms : List (String × Value)) :
    (memberValues ms).length = 2 * ms.length := by
  induction ms with
  | nil => rfl
  | cons m ms ih =>
    rw [memberValues, List.flatMap_cons, List.length_append, ← memberValues, ih]
    show 2 + 2 * ms.length = 2 * (ms.length + 1)
    omega

/-- The brace takes the keys and the values off the stack. -/
theorem endObject_afterMembers (ms : List (String × Value)) :
    ((r.startCompound (.object []) .objectInitial).afterMembers ms).endCompound .memberValue
      MessageParserHandler.endObject = r.push (.object ms) (behindValue r.state) := by
  cases ms with
  | nil => rfl
  | cons m ms =>
    have hstack : (r.startCompound (.object []) .objectInitial).stack =
        (outerState r.state, 0) :: r.stack := rfl
    have hcount : 2 * (0 + ms.length + 1) = (memberValues (m :: ms)).reverse.length := by
      rw [List.length_reverse, length_memberValues, List.length_cons, Nat.zero_add]
    rw [afterMembers_cons hstack, endCompound]
    dsimp only
    rw [if_pos rfl, MessageParserHandler.endObject, hcount, List.drop_left, List.take_left,
      List.reverse_reverse, pairs_memberValues]
    rfl

/-! ## Paths -/

/-- From bracket to bracket. -/
theorem path_array {es : List (Json D)} (hready : Ready D p front r) (hr : awaitsValue r.state)
    (hp : p.state ≠ .start)
    (helements : es ≠ [] → ∀ a : MessageParser, a.state = .arrayInitial →
      Path D (']' :: behind) a (Json.elementsPieces [] es)
        (a.afterElements (Json.elementsValue es))) :
    Path D behind p ((Json.array es).pieces front)
      (r.push (Json.array es).value (behindValue r.state)) := by
  have hopen := move_leftBracket hready hr hp
  set a := r.startCompound (.array []) .arrayInitial with ha
  have hpath : Path D (']' :: behind) a (Json.elementsPieces [] es)
      (a.afterElements (Json.elementsValue es)) := by
    by_cases hes : es = []
    · rw [hes]
      exact .nil a
    · exact helements hes a rfl
  have hstate : (a.afterElements (Json.elementsValue es)).state = .arrayInitial ∨
      (a.afterElements (Json.elementsValue es)).state = .element := by
    cases es with
    | nil => exact .inl rfl
    | cons e es =>
      have hstack : a.stack = (outerState r.state, 0) :: r.stack := rfl
      rw [Json.elementsValue, afterElements_cons hstack]
      exact .inr rfl
  have hclose := move_rightBracket (D := D) hstate
  rw [ha, endArray_afterElements, ← ha] at hclose
  rw [Json.pieces, Json.value]
  exact .cons hopen (fun h => by cases h)
    (.append hpath (.single hclose fun h => by cases h))

/-- From brace to brace. -/
theorem path_object {ms : List (List StringItem × Json D)} (hready : Ready D p front r)
    (hr : awaitsValue r.state ∨ r.state = .start)
    (hmembers : ms ≠ [] → ∀ o : MessageParser, o.state = .objectInitial →
      Path D ('}' :: behind) o (Json.membersPieces [] ms) (o.afterMembers (Json.membersValue ms))) :
    Path D behind p ((Json.object ms).pieces front)
      (r.push (Json.object ms).value (behindValue r.state)) := by
  have hopen := move_leftCurlyBracket hready hr
  set o := r.startCompound (.object []) .objectInitial with ho
  have hpath : Path D ('}' :: behind) o (Json.membersPieces [] ms)
      (o.afterMembers (Json.membersValue ms)) := by
    by_cases hms : ms = []
    · rw [hms]
      exact .nil o
    · exact hmembers hms o rfl
  have hstate : (o.afterMembers (Json.membersValue ms)).state = .objectInitial ∨
      (o.afterMembers (Json.membersValue ms)).state = .memberValue := by
    cases ms with
    | nil => exact .inl rfl
    | cons m ms =>
      have hstack : o.stack = (outerState r.state, 0) :: r.stack := rfl
      rw [Json.membersValue, afterMembers_cons hstack]
      exact .inr rfl
  have hclose := move_rightCurlyBracket (D := D) hstate
  rw [ho, endObject_afterMembers, ← ho] at hclose
  rw [Json.pieces, Json.value]
  exact .cons hopen (fun h => by cases h)
    (.append hpath (.single hclose fun h => by cases h))

theorem endsNumber_comma (is : List Char) : EndsNumber (',' :: is) := ⟨',', is, rfl, .inl rfl⟩

/-- Behind an element or a member there is a comma or the bracket. -/
theorem endsNumber_elements {c : Char} (hc : endsNumber c) (js : List (Json D))
    (behind : List Char) :
    EndsNumber (piecesText (Json.elementsPieces [','] js) ++ c :: behind) := by
  rw [Json.piecesText_elements]
  cases js with
  | nil => exact ⟨c, behind, rfl, hc⟩
  | cons j js => exact endsNumber_comma _

theorem endsNumber_members {c : Char} (hc : endsNumber c)
    (ms : List (List StringItem × Json D)) (behind : List Char) :
    EndsNumber (piecesText (Json.membersPieces [','] ms) ++ c :: behind) := by
  rw [Json.piecesText_members]
  cases ms with
  | nil => exact ⟨c, behind, rfl, hc⟩
  | cons m ms => exact endsNumber_comma _

theorem path_scalar {v : Value} {isNumber : Bool} (hready : Ready D p front r)
    (hr : awaitsValue r.state) (hp : p.state ≠ .start) (h : Scalar D t v isNumber)
    (hbehind : EndsNumber behind) :
    Path D behind p [{ text := front ++ t, isNumber := isNumber }]
      (r.push v (outerState r.state)) :=
  .single (move_scalar hready hr hp h) fun _ => hbehind

mutual

/-- Every value, by recursion on its elements and members. -/
theorem path_value : (j : Json D) → ∀ {p r : MessageParser} {front behind : List Char},
    Ready D p front r → awaitsValue r.state → p.state ≠ .start → EndsNumber behind →
    Path D behind p (j.pieces front) (r.push j.value (outerState r.state))
  | .null, _, _, _, _, hready, hr, hp, hbehind => path_scalar hready hr hp scalar_null hbehind
  | .bool b, _, _, _, _, hready, hr, hp, hbehind =>
    path_scalar hready hr hp (scalar_bool b) hbehind
  | .number n, _, _, _, _, hready, hr, hp, hbehind =>
    path_scalar hready hr hp (scalar_number n) hbehind
  | .string s, _, _, _, _, hready, hr, hp, hbehind =>
    path_scalar hready hr hp (scalar_string s) hbehind
  | .array es, _, _, _, _, hready, hr, hp, _ =>
    behindValue_of_awaitsValue hr ▸ path_array hready hr hp fun hne a ha =>
      path_elements es hne (ready_nil (by rw [ha]; decide)) (.inl ha) (by rw [ha]; decide)
  | .object ms, _, _, _, _, hready, hr, _, _ =>
    behindValue_of_awaitsValue hr ▸ path_object hready (.inl hr) fun hne o ho =>
      path_members ms hne (ready_nil (by rw [ho]; decide)) (.inl ho) (by rw [ho]; decide)

theorem path_elements : (es : List (Json D)) → es ≠ [] →
    ∀ {p r : MessageParser} {front behind : List Char}, Ready D p front r →
    r.state = .arrayInitial ∨ r.state = .elementDelimiter → p.state ≠ .start →
    Path D (']' :: behind) p (Json.elementsPieces front es)
      (r.afterElements (Json.elementsValue es))
  | [], hne, _, _, _, _, _, _, _ => absurd rfl hne
  | e :: es, _, p, r, front, behind, hready, hr, hp => by
    have houter : outerState r.state = .element := by
      obtain hr | hr := hr <;> rw [hr] <;> rfl
    have helement := path_value e hready (hr.imp_right .inl) hp
      (endsNumber_elements (.inr (.inl rfl)) es behind)
    rw [houter] at helement
    rw [Json.elementsPieces, Json.elementsValue]
    by_cases hes : es = []
    · subst hes
      exact helement.append (.nil _)
    · have hrest : Path D (']' :: behind) (r.push e.value .element)
          (Json.elementsPieces [','] es)
          (((r.push e.value .element).countOne .elementDelimiter).afterElements
            (Json.elementsValue es)) :=
        path_elements es hes (ready_elementComma rfl) (.inr rfl) fun h => by cases h
      cases es with
      | nil => exact absurd rfl hes
      | cons e' es => exact helement.append hrest

theorem path_members : (ms : List (List StringItem × Json D)) → ms ≠ [] →
    ∀ {p r : MessageParser} {front behind : List Char}, Ready D p front r →
    r.state = .objectInitial ∨ r.state = .memberDelimiter → p.state ≠ .start →
    Path D ('}' :: behind) p (Json.membersPieces front ms) (r.afterMembers (Json.membersValue ms))
  | [], hne, _, _, _, _, _, _, _ => absurd rfl hne
  | (s, j) :: ms, _, p, r, front, behind, hready, hr, hp => by
    have hkey := move_key hready s hr hp
    have hvalue := path_value j (ready_colon (p := r.push (.string (stringValue s)) .memberKey) rfl)
      (.inr (.inr rfl)) (fun h => by cases h) (endsNumber_members (.inr (.inr rfl)) ms behind)
    rw [Json.membersPieces, Json.membersValue]
    refine .cons hkey (fun h => by cases h) ?_
    by_cases hms : ms = []
    · subst hms
      exact hvalue.append (.nil _)
    · have hrest : Path D ('}' :: behind) (r.pushMember (stringValue s, j.value))
          (Json.membersPieces [','] ms)
          (((r.pushMember (stringValue s, j.value)).countOne .memberDelimiter).afterMembers
            (Json.membersValue ms)) :=
        path_members ms hms (ready_memberComma rfl) (.inr rfl) fun h => by cases h
      cases ms with
      | nil => exact absurd rfl hms
      | cons m ms => exact hvalue.append hrest

end

end MessageParser

end Conntop
