import Conntop.ReaderChunks

/-!
# `MessageParser` and `StreamSocketReader`

The receiving part of a session: the bytes of a socket go through the buffer of a
`StreamSocketReader` to its `MessageParser`, which hands the messages to a callback.

* A position in a stream is held as what stands behind it.
* The callback has a state. It may throw, its exception is a text.
* The buffer is what is left in it. After an exception that is what was in it before.

Main definition: `StreamSocketReader.doReceive`.
-/

namespace Conntop

open Reader

/-- `MessageParserException`. -/
inductive MessageParserException
  | jsonParseError (errorCode : ParseErrorCode)
  | msgTokenTooBig | msgDeserializationFailed
  deriving DecidableEq, Repr

def MessageParserException.what : MessageParserException → String
  | .jsonParseError errorCode => "JSON parse error: " ++ getParseErrorEn errorCode
  | .msgTokenTooBig => "Message token is too big"
  | .msgDeserializationFailed => "Message deserialization failed"

/-- An exception of the parser or of its callback. -/
inductive ReceiveException
  | parser (e : MessageParserException)
  | callback (what : String)
  deriving DecidableEq, Repr

/-- The callback of a `MessageParser`. -/
structure MessageCallback (σ : Type) where
  onMessage : Value → σ → σ × Option String

namespace MessageParser

variable {σ : Type} (D : Strtod) (K : MessageCallback σ)

/-- How the loop of `doParse` ends: a message is complete, the stream is at its end, or there is an
error. -/
inductive TokensResult
  | complete (p : MessageParser) (is : List Char)
  | incomplete (p : MessageParser) (parsed is : List Char)
  | failed (code : ParseErrorCode)

/-- The loop of `doParse`. At its head `parsedLength` is where the stream is. -/
def parseTokens : ℕ → MessageParser → List Char → TokensResult
  | 0, p, is => .incomplete p is is
  | fuel + 1, p, is =>
    if p.state = .finish ∨ p.state = .error then .complete p is
    else
      match p.next D is with
      | (.parsed, p, is) => parseTokens fuel p is
      | (.failed code, _, _) => .failed code
      | (.incomplete isLastValueInvalid, p, rest) =>
        .incomplete (if isLastValueInvalid then p.popLastValue else p) is rest

/-- `MessageParserHandler::get`. -/
def get (p : MessageParser) : Option (Value × MessageParser) :=
  match p.handler with
  | [message] => some (message, { p with handler := [] })
  | _ => none

/-- `doParse`, with `parsedLength` and where the stream is. -/
def doParse (p : MessageParser) (s : σ) (is : List Char) :
    (MessageParser × σ) × Except ReceiveException (List Char × List Char) :=
  match parseTokens D (is.length + 1) p is with
  | .failed code => (({}, s), .error (.parser (.jsonParseError code)))
  | .incomplete p parsed is => ((p, s), .ok (parsed, is))
  | .complete p is =>
    match p.get with
    | some (message, p) =>
      match K.onMessage message s with
      | (s, none) => (({}, s), .ok (is, is))
      | (s, some what) => ((p, s), .error (.callback what))
    | none => (({}, s), .error (.parser .msgDeserializationFailed))

/-- The loop of `parse`. -/
def parseLoop : ℕ → MessageParser × σ → List Char → List Char →
    (MessageParser × σ) × Except ReceiveException (List Char)
  | 0, ps, parsed, _ => (ps, .ok parsed)
  | _ + 1, ps, parsed, [] => (ps, .ok parsed)
  | fuel + 1, ps, _, c :: is =>
    if c = '\x00' then parseLoop fuel ps is is
    else
      match doParse D K ps.1 ps.2 (c :: is) with
      | (ps, .ok (parsed, is)) => parseLoop fuel ps parsed is
      | (ps, .error e) => (ps, .error e)

/-- `parse`. -/
def parse (bufferSize : ℕ) (ps : MessageParser × σ) (data : List Char) :
    (MessageParser × σ) × Except ReceiveException (List Char) :=
  match parseLoop D K (data.length + 1) ps data data with
  | (ps, .ok parsed) =>
    if parsed.length = data.length ∧ bufferSize - 1 ≤ data.length then
      (({}, ps.2), .error (.parser .msgTokenTooBig))
    else (ps, .ok parsed)
  | (ps, .error e) => (ps, .error e)

end MessageParser

structure StreamSocketReader where
  bufferSize : ℕ := 4096
  buffer : List Char := []
  parser : MessageParser := {}

namespace StreamSocketReader

variable {σ : Type} (D : Strtod) (K : MessageCallback σ)

/-- What `receive` may put into the buffer. -/
def freeSize (r : StreamSocketReader) : ℕ := r.bufferSize - r.buffer.length - 1

/-- `doReceive`, of which `receive` returns `received`. It returns true if the peer has closed. -/
def doReceive (r : StreamSocketReader) (s : σ) (received : List Char) :
    (StreamSocketReader × σ) × Except ReceiveException Bool :=
  match received with
  | [] => ((r, s), .ok true)
  | c :: cs =>
    match MessageParser.parse D K r.bufferSize (r.parser, s) (r.buffer ++ c :: cs) with
    | ((p, s), .ok rest) => (({ r with buffer := rest, parser := p }, s), .ok false)
    | ((p, s), .error e) => (({ r with parser := p }, s), .error e)

end StreamSocketReader

end Conntop
