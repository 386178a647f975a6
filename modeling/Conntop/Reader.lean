import Conntop.Json
import Conntop.Lib.Scanner

/-!
# RapidJSON's reader in chunk mode

`rapidjson::Reader` with the flags `kParseStopWhenDoneFlag | kParseChunkMode`, and the
`MessageParserHandler` that it builds values with.

* The stream is a list of characters. One character is one byte: the reader copies the bytes of a
  string one by one, and `encode` makes the bytes of an escape. What `Peek` sees behind the last one
  is the NUL that `doReceive` puts there.
* The functions that read a token are scanners. A scanner starts behind the character that its
  caller has looked at.
* `Strtod` is the floating-point part of `ParseNumber`. A `double` keeps its token.
* `ParseErrorCode.none` is an error that `HandleError` has yet to give its code.

Main definition: `next`, one call of `IterativeParseNext`.
-/

namespace Conntop

/-- `rapidjson::ParseErrorCode`. -/
inductive ParseErrorCode
  | none | documentEmpty | documentRootNotSingular | valueInvalid | objectMissName
  | objectMissColon | objectMissCommaOrCurlyBracket | arrayMissCommaOrSquareBracket
  | stringUnicodeEscapeInvalidHex | stringUnicodeSurrogateInvalid | stringEscapeInvalid
  | stringMissQuotationMark | stringInvalidEncoding | numberTooBig | numberMissFraction
  | numberMissExponent
  deriving DecidableEq, Repr

/-- `GetParseError_En`. -/
def getParseErrorEn : ParseErrorCode → String
  | .none => "No error."
  | .documentEmpty => "The document is empty."
  | .documentRootNotSingular => "The document root must not be followed by other values."
  | .valueInvalid => "Invalid value."
  | .objectMissName => "Missing a name for object member."
  | .objectMissColon => "Missing a colon after a name of object member."
  | .objectMissCommaOrCurlyBracket => "Missing a comma or '\x7d' after an object member."
  | .arrayMissCommaOrSquareBracket => "Missing a comma or ']' after an array element."
  | .stringUnicodeEscapeInvalidHex => "Incorrect hex digit after \\u escape in string."
  | .stringUnicodeSurrogateInvalid => "The surrogate pair in string is invalid."
  | .stringEscapeInvalid => "Invalid escape character in string."
  | .stringMissQuotationMark => "Missing a closing quotation mark in string."
  | .stringInvalidEncoding => "Invalid encoding in string."
  | .numberTooBig => "Number too big to be stored in double."
  | .numberMissFraction => "Miss fraction part in number."
  | .numberMissExponent => "Miss exponent in number."

/-- Whether the double that is computed from a number token is beyond the largest one. -/
structure Strtod where
  overflows : String → Bool

namespace Reader

open Scanner

abbrev Parse (α : Type) : Type := Scanner Char ParseErrorCode α

/-! ## Strings -/

/-- `Take`. Nobody takes at the end of the stream. -/
def take : Parse Char := expect (fun _ => true) .none

def hexValue (c : Char) : ℕ :=
  if '0' ≤ c ∧ c ≤ '9' then c.toNat - 48
  else if 'A' ≤ c ∧ c ≤ 'F' then c.toNat - 55
  else c.toNat - 87

def isHexDigit (c : Char) : Bool :=
  ('0' ≤ c ∧ c ≤ '9') ∨ ('A' ≤ c ∧ c ≤ 'F') ∨ ('a' ≤ c ∧ c ≤ 'f')

def parseHexDigit : Parse ℕ := do
  let c ← expect isHexDigit .stringUnicodeEscapeInvalidHex
  return hexValue c

def parseHex4 : Parse ℕ := do
  let a ← parseHexDigit
  let b ← parseHexDigit
  let c ← parseHexDigit
  let d ← parseHexDigit
  return ((a * 16 + b) * 16 + c) * 16 + d

/-- The bytes of `UTF8::Encode`. -/
def encode (codepoint : ℕ) : List Char :=
  if codepoint ≤ 0x7F then [.ofNat codepoint]
  else if codepoint ≤ 0x7FF then
    [.ofNat (0xC0 ||| codepoint >>> 6), .ofNat (0x80 ||| codepoint &&& 0x3F)]
  else if codepoint ≤ 0xFFFF then
    [.ofNat (0xE0 ||| codepoint >>> 12), .ofNat (0x80 ||| codepoint >>> 6 &&& 0x3F),
      .ofNat (0x80 ||| codepoint &&& 0x3F)]
  else
    [.ofNat (0xF0 ||| codepoint >>> 18), .ofNat (0x80 ||| codepoint >>> 12 &&& 0x3F),
      .ofNat (0x80 ||| codepoint >>> 6 &&& 0x3F), .ofNat (0x80 ||| codepoint &&& 0x3F)]

/-- What stands behind `\u`. -/
def parseUnicode : Parse (List Char) := do
  let codepoint ← parseHex4
  if 0xD800 ≤ codepoint ∧ codepoint ≤ 0xDBFF then
    let _ ← expect (· == '\\') .stringUnicodeSurrogateInvalid
    let _ ← expect (· == 'u') .stringUnicodeSurrogateInvalid
    let codepoint2 ← parseHex4
    if codepoint2 < 0xDC00 ∨ 0xDFFF < codepoint2 then fail .stringUnicodeSurrogateInvalid
    else return encode (((codepoint - 0xD800) <<< 10 ||| (codepoint2 - 0xDC00)) + 0x10000)
  else return encode codepoint

/-- The table `escape`. -/
def escape : Char → Option Char
  | '"' => some '"'
  | '/' => some '/'
  | '\\' => some '\\'
  | 'b' => some '\x08'
  | 'f' => some '\x0c'
  | 'n' => some '\n'
  | 'r' => some '\r'
  | 't' => some '\t'
  | _ => none

def parseEscape : Parse (List Char) :=
  onHead (fun e => (escape e).isSome) (fun e => pure (escape e).toList)
    (onHead (· == 'u') (fun _ => parseUnicode) (fail .stringEscapeInvalid))

/-- One round of the loop of `ParseStringToStream`. The closing quote has no value. -/
def parseChar : Parse (Option (List Char)) :=
  onHead (· == '\\') (fun _ => do return some (← parseEscape))
    (onHead (· == '"') (fun _ => pure none)
      (onHead (fun c => 0x20 ≤ c.toNat) (fun c => pure (some [c]))
        (failAt fun c => if c.getD '\x00' = '\x00' then .stringMissQuotationMark
          else .stringInvalidEncoding)))

/-- `ParseString`, behind the opening quote. -/
def parseString : Parse String := do
  let parts ← many parseChar
  return .ofList parts.flatten

/-! ## Numbers -/

def isDigit (c : Char) : Bool := '0' ≤ c ∧ c ≤ '9'

def digitsValue (ds : List Char) : ℕ := ds.foldl (fun n c => n * 10 + (c.toNat - 48)) 0

/-- A number as it is written. An exponent has its letter and its sign. -/
structure NumberToken where
  minus : Bool := false
  int : List Char
  frac : Option (List Char) := none
  exp : Option (Char × Option Char × List Char) := none

namespace NumberToken

def fracText : Option (List Char) → List Char
  | some ds => '.' :: ds
  | none => []

def expText : Option (Char × Option Char × List Char) → List Char
  | some (e, sign, ds) => e :: (sign.toList ++ ds)
  | none => []

def text (t : NumberToken) : List Char :=
  (if t.minus then ['-'] else []) ++ (t.int ++ (fracText t.frac ++ expText t.exp))

/-- `ParseNumber` at its end. -/
def toValue (D : Strtod) (t : NumberToken) : Except ParseErrorCode Value :=
  let i := digitsValue t.int
  if t.frac.isNone ∧ t.exp.isNone ∧ i ≤ if t.minus then 2 ^ 63 else 2 ^ 64 - 1 then
    .ok (.int (if t.minus then -i else i))
  else if D.overflows (.ofList t.text) then .error .numberTooBig
  else .ok (.double (.ofList t.text))

end NumberToken

/-- How many digits of a fraction `expFrac` counts: as long as the significand has less than 53 bits
or less than 17 digits. -/
def expFrac (int frac : List Char) : ℕ :=
  (frac.foldl (fun (i, significandDigit, expFrac) c =>
    if i ≤ 2 ^ 53 - 1 then
      let i := i * 10 + (c.toNat - 48)
      (i, if i ≠ 0 then significandDigit + 1 else significandDigit, expFrac + 1)
    else if significandDigit < 17 then (i, significandDigit + 1, expFrac + 1)
    else (i, significandDigit, expFrac))
    (digitsValue int, int.length - 1, 0)).2.2

def parseInt : Parse (List Char) :=
  onHead (· == '0') (fun c => pure [c])
    (onHead isDigit (fun c => do return c :: (← takeWhile isDigit)) (fail .valueInvalid))

def parseFrac : Parse (Option (List Char)) :=
  onHead (· == '.') (fun _ => do
      let d ← expect isDigit .numberMissFraction
      return some (d :: (← takeWhile isDigit)))
    (pure none)

/-- The digits of an exponent that is not negative. -/
def parseExpDigits (maxExp : ℕ) (ds : List Char) : Parse (List Char) :=
  foldWhile isDigit (fun ds c =>
    if maxExp < digitsValue (ds ++ [c]) then .error .numberTooBig else .ok (ds ++ [c])) ds

def isExponent (c : Char) : Bool := c == 'e' || c == 'E'

def isSign (c : Char) : Bool := c == '+' || c == '-'

def parseExp (maxExp : ℕ) : Parse (Option (Char × Option Char × List Char)) :=
  onHead isExponent (fun e => do
      let sign ← takeIf isSign
      let d ← expect isDigit .numberMissExponent
      if sign = some '-' then return some (e, sign, d :: (← takeWhile isDigit))
      else return some (e, sign, ← parseExpDigits maxExp [d]))
    (pure none)

def parseToken : Parse NumberToken := do
  let minus ← takeIf (· == '-')
  let int ← parseInt
  let frac ← parseFrac
  let exp ← parseExp (308 + expFrac int (frac.getD []))
  return { minus := minus.isSome, int := int, frac := frac, exp := exp }

def parseNumber (D : Strtod) : Parse Value := do
  let token ← parseToken
  match token.toValue D with
  | .ok v => return v
  | .error e => fail e

/-! ## Values -/

/-- `Consume`, one character after the other. -/
def consume : List Char → Parse Unit
  | [] => pure ()
  | c :: cs => do
    let _ ← expect (· == c) .valueInvalid
    consume cs

/-- `ParseValue`, with `isLastValueNumber_`. Nothing that starts with a bracket gets here. -/
def parseValue (D : Strtod) : Parse (Value × Bool) :=
  onHead (· == 'n') (fun _ => do consume ['u', 'l', 'l']; return (.null, false))
    (onHead (· == 't') (fun _ => do consume ['r', 'u', 'e']; return (.bool true, false))
      (onHead (· == 'f') (fun _ => do consume ['a', 'l', 's', 'e']; return (.bool false, false))
        (onHead (· == '"') (fun _ => do return (.string (← parseString), false))
          (do return (← parseNumber D, true)))))

/-! ## The tables -/

/-- `IterativeParsingState`. -/
inductive ParsingState
  | finish | error | start | objectInitial | memberKey | memberValue | objectFinish
  | arrayInitial | element | arrayFinish | value
  | elementDelimiter | memberDelimiter | keyValueDelimiter
  deriving DecidableEq, Repr

inductive Token
  | leftBracket | rightBracket | leftCurlyBracket | rightCurlyBracket | comma | colon
  | string | false_ | true_ | null | number
  deriving DecidableEq

def tokenize : Char → Token
  | '"' => .string
  | ',' => .comma
  | ':' => .colon
  | '[' => .leftBracket
  | ']' => .rightBracket
  | 'f' => .false_
  | 'n' => .null
  | 't' => .true_
  | '{' => .leftCurlyBracket
  | '}' => .rightCurlyBracket
  | _ => .number

/-- Where a value leads that is not compound, or the first bracket of a compound one. -/
def predictValue (next : ParsingState) : Token → ParsingState
  | .leftBracket => .arrayInitial
  | .leftCurlyBracket => .objectInitial
  | .string | .false_ | .true_ | .null | .number => next
  | .rightBracket | .rightCurlyBracket | .comma | .colon => .error

def predict : ParsingState → Token → ParsingState
  | .start, t => predictValue .value t
  | .objectInitial, .rightCurlyBracket => .objectFinish
  | .objectInitial, .string => .memberKey
  | .memberKey, .colon => .keyValueDelimiter
  | .memberValue, .rightCurlyBracket => .objectFinish
  | .memberValue, .comma => .memberDelimiter
  | .arrayInitial, .rightBracket => .arrayFinish
  | .arrayInitial, t => predictValue .element t
  | .element, .rightBracket => .arrayFinish
  | .element, .comma => .elementDelimiter
  | .elementDelimiter, .rightBracket => .arrayFinish
  | .elementDelimiter, t => predictValue .element t
  | .memberDelimiter, .rightCurlyBracket => .objectFinish
  | .memberDelimiter, .string => .memberKey
  | .keyValueDelimiter, t => predictValue .memberValue t
  | _, _ => .error

def ParsingState.isDelimiter : ParsingState → Bool
  | .elementDelimiter | .memberDelimiter | .keyValueDelimiter => true
  | _ => false

/-- `HandleError`, where `Transit` has not set the code. -/
def handleError : ParsingState → ParseErrorCode
  | .start => .documentEmpty
  | .finish => .documentRootNotSingular
  | .objectInitial | .memberDelimiter => .objectMissName
  | .memberKey => .objectMissColon
  | .memberValue => .objectMissCommaOrCurlyBracket
  | .keyValueDelimiter | .arrayInitial | .elementDelimiter => .valueInvalid
  | _ => .arrayMissCommaOrSquareBracket

end Reader

/-! ## The handler -/

/-- The stack of values, the last one first. The name of a member is a value as well. -/
abbrev MessageParserHandler := List Value

namespace MessageParserHandler

/-- The members on a stack, the first one first. -/
def pairs : List Value → List (String × Value)
  | .string name :: v :: vs => (name, v) :: pairs vs
  | _ => []

def endObject (memberCount : ℕ) (h : MessageParserHandler) : MessageParserHandler :=
  match h.drop (2 * memberCount) with
  | object :: rest =>
    .object (object.members ++ pairs (h.take (2 * memberCount)).reverse) :: rest
  | [] => []

def endArray (elementCount : ℕ) (h : MessageParserHandler) : MessageParserHandler :=
  match h.drop elementCount with
  | array :: rest => .array (array.getArray.getD [] ++ (h.take elementCount).reverse) :: rest
  | [] => []

end MessageParserHandler

/-! ## `IterativeParseNext` -/

/-- `m_reader` and `m_handler` of a `MessageParser`. The stack of the reader has the state and the
count of what is open, the last one first. -/
structure MessageParser where
  state : Reader.ParsingState := .start
  stack : List (Reader.ParsingState × ℕ) := []
  handler : MessageParserHandler := []

namespace MessageParser

open Scanner Reader

variable (D : Strtod) (p : MessageParser)

def push (v : Value) (state : ParsingState) : MessageParser :=
  { p with state := state, handler := v :: p.handler }

/-- The state behind what is opened in a state. -/
def outerState : ParsingState → ParsingState
  | .arrayInitial | .elementDelimiter => .element
  | .keyValueDelimiter => .memberValue
  | state => state

def startCompound (v : Value) (state : ParsingState) : MessageParser :=
  { p with
    state := state
    stack := (outerState p.state, 0) :: p.stack
    handler := v :: p.handler }

def countOne (state : ParsingState) : MessageParser :=
  { p with
    state := state
    stack := match p.stack with
      | (outer, count) :: stack => (outer, count + 1) :: stack
      | [] => [] }

/-- The end of an object or an array. `last` is the state in which the last part is not counted
yet. -/
def endCompound (last : ParsingState) (finish : ℕ → MessageParserHandler → MessageParserHandler) :
    MessageParser :=
  match p.stack with
  | (outer, count) :: stack =>
    { state := if outer = .start then .finish else outer
      stack := stack
      handler := finish (if p.state = last then count + 1 else count) p.handler }
  | [] => p

/-- A value that is not compound. -/
def parseInto (state : ParsingState) : Parse (MessageParser × Bool) := do
  let r ← parseValue D
  return (p.push r.1 state, r.2)

/-- `Transit`, with `isLastValueNumber_`. -/
def transit : ParsingState → Parse (MessageParser × Bool)
  | .error => fail .none
  | .objectInitial => do let _ ← take; return (p.startCompound (.object []) .objectInitial, false)
  | .arrayInitial => do let _ ← take; return (p.startCompound (.array []) .arrayInitial, false)
  | .memberKey => do let _ ← take; return (p.push (.string (← parseString)) .memberKey, false)
  | .keyValueDelimiter => do let _ ← take; return ({ p with state := .keyValueDelimiter }, false)
  | .memberValue => p.parseInto D .memberValue
  | .element => p.parseInto D .element
  | .memberDelimiter => do let _ ← take; return (p.countOne .memberDelimiter, false)
  | .elementDelimiter => do let _ ← take; return (p.countOne .elementDelimiter, false)
  | .objectFinish =>
    if p.state = .memberDelimiter then fail .objectMissName
    else do let _ ← take; return (p.endCompound .memberValue MessageParserHandler.endObject, false)
  | .arrayFinish =>
    if p.state = .elementDelimiter then fail .valueInvalid
    else do let _ ← take; return (p.endCompound .element MessageParserHandler.endArray, false)
  -- `value`: `predict` gives no other state
  | _ => p.parseInto D .finish

def rollback (prevState : ParsingState) : MessageParser :=
  if prevState = p.state then p
  else
    { p with
      state := prevState
      stack :=
        if p.state = .memberDelimiter ∨ p.state = .elementDelimiter then
          match p.stack with
          | (outer, count) :: stack => (outer, count - 1) :: stack
          | [] => []
        else p.stack }

def popLastValue : MessageParser := { p with handler := p.handler.tail }

def isWhitespace (c : Char) : Bool := c == ' ' || c == '\n' || c == '\r' || c == '\t'

def peek (is : List Char) : Char := is.headD '\x00'

/-- `IterativeParseNext` returns true, or it returns false without an error or with one. Without an
error it tells `IsLastValueInvalid`. -/
inductive NextResult
  | parsed | incomplete (isLastValueInvalid : Bool) | failed (code : ParseErrorCode)
  deriving DecidableEq

/-- A round of the loop of `IterativeParseNext` behind `Transit`: its result, or what the next round
gets. -/
def afterTransit (prevState n : ParsingState) :
    Except ParseErrorCode (MessageParser × Bool) × List Char →
      (NextResult × MessageParser × List Char) ⊕ (MessageParser × List Char)
  | (.error code, rest) =>
    if peek rest = '\x00' then .inl (.incomplete false, p.rollback prevState, rest)
    else .inl (.failed (if code = .none then handleError p.state else code), p, rest)
  | (.ok (p', isLastValueNumber), rest) =>
    if p'.state = .finish then .inl (.parsed, p', rest)
    else if isLastValueNumber ∧ peek rest = '\x00' then
      .inl (.incomplete true, { p.rollback prevState with handler := p'.handler }, rest)
    else if n.isDelimiter then .inr (p', rest)
    else .inl (.parsed, p', rest)

def nextRound (prevState : ParsingState) (is : List Char) :
    (NextResult × MessageParser × List Char) ⊕ (MessageParser × List Char) :=
  let is := is.dropWhile isWhitespace
  let n := predict p.state (tokenize (peek is))
  p.afterTransit prevState n (p.transit D n is)

/-- The loop of `IterativeParseNext`. Every round takes a character. -/
def nextLoop (prevState : ParsingState) :
    ℕ → MessageParser → List Char → NextResult × MessageParser × List Char
  | 0, p, is => (.incomplete false, p, is)
  | fuel + 1, p, is =>
    if peek is = '\x00' then
      if p.state = .finish then (.parsed, p, is)
      else (.incomplete false, p.rollback prevState, is)
    else
      match p.nextRound D prevState is with
      | .inl result => result
      | .inr (p, is) => nextLoop prevState fuel p is

def next (is : List Char) : NextResult × MessageParser × List Char :=
  nextLoop D p.state (is.length + 1) p is

end MessageParser

end Conntop
