import Conntop.MessageParser
import Conntop.TokenPath

/-!
# Chunk independence

A stream of messages, cut anywhere. What is left of it is `Pending`: the parser stands between two
tokens, the buffer has the beginning of what is left, and the chunks to come have the rest.

* One call of `IterativeParseNext` takes the next piece, or the piece is cut and nothing is done.
* So `doParse` hands the next message over, or it leaves the beginning of one piece.
* A cut piece does not fill the buffer, so there is always room for the next chunk.

Main result: `receiveAll_stream`, the callback gets the messages of the stream, once each and in
order.
-/

namespace Conntop

open Reader

namespace MessageParser

variable {D : Strtod} {p q : MessageParser} {is future behind : List Char}

/-! ## One piece -/

/-- The next piece of a stream of which `is` is there: it is taken, or it is cut. -/
inductive NextPiece (D : Strtod) (p : MessageParser) (u : Piece) (q : MessageParser)
    (rest is future : List Char) : Prop
  | taken (left : List Char) (hnext : p.next D is = (.parsed, q, left))
      (hleft : left ++ future = rest) (hlt : left.length < is.length)
  | cut (isLastValueInvalid : Bool) (p' : MessageParser)
      (hnext : p.next D is = (.incomplete isLastValueInvalid, p', []))
      (hundone : (if isLastValueInvalid then p'.popLastValue else p') = p)
      (hfit : is.length < u.size) (hfuture : future ≠ [])

theorem peek_dropWhile_append (is future : List Char) :
    peek (is.dropWhile isWhitespace) = '\x00' ∨
      peek (is.dropWhile isWhitespace) = peek ((is ++ future).dropWhile isWhitespace) := by
  rw [List.dropWhile_append]
  cases is.dropWhile isWhitespace with
  | nil => exact .inl rfl
  | cons c cs => exact .inr rfl

theorem Move.opens_prefix {u : Piece} {rest : List Char} (h : Move D p u q)
    (hstream : is ++ future = u.text ++ rest) (hp : p.state = .start) :
    peek (is.dropWhile isWhitespace) ∈ ['\x00', '{'] := by
  have hopens : peek ((u.text ++ rest).dropWhile isWhitespace) = '{' := by
    have hopens := h.opens hp
    rw [List.dropWhile_append]
    cases hdrop : u.text.dropWhile isWhitespace with
    | nil =>
      rw [hdrop] at hopens
      cases hopens
    | cons c cs =>
      rw [hdrop] at hopens
      exact hopens
  rw [← hstream] at hopens
  obtain hpeek | hpeek := peek_dropWhile_append is future
  · exact List.mem_pair.mpr (.inl hpeek)
  · exact List.mem_pair.mpr (.inr (hpeek.trans hopens))

/-- A piece that is there as a whole, with the character that it needs behind it. -/
theorem whole_of_size {u : Piece} {rest : List Char} (hbehind : Behind u.isNumber rest)
    (hstream : is ++ future = u.text ++ rest) (hsize : u.size ≤ is.length) :
    ∃ rest', is = u.text ++ rest' ∧ Behind u.isNumber rest' := by
  rw [Piece.size] at hsize
  have hprefix : u.text <+: is := by
    refine List.prefix_of_prefix_length_le (List.prefix_append u.text rest) ?_ ?_
    · rw [← hstream]
      exact List.prefix_append is future
    · split_ifs at hsize <;> omega
  obtain ⟨rest', rfl⟩ := hprefix
  refine ⟨rest', rfl, fun hnumber => ?_⟩
  rw [if_pos hnumber, List.length_append] at hsize
  rw [List.append_assoc] at hstream
  have hrest := List.append_cancel_left hstream
  obtain ⟨c, cs, rfl, hends⟩ := hbehind hnumber
  cases rest' with
  | nil => exact absurd hsize (by rw [List.length_nil]; omega)
  | cons d ds =>
    have hd : d = c := (List.cons.inj hrest).1
    exact ⟨d, ds, rfl, hd ▸ hends⟩

theorem Move.nextPiece {u : Piece} {rest : List Char} (h : Move D p u q)
    (hbehind : Behind u.isNumber rest) (hnul : '\x00' ∉ is)
    (hstream : is ++ future = u.text ++ rest) : NextPiece D p u q rest is future := by
  have hmove := h.next rest hbehind
  have hstands := next_stands (D := D) hnul h.active.1 (h.opens_prefix hstream)
  rcases hr : p.next D is with ⟨result, p', left⟩
  rw [hr] at hstands
  cases result with
  | incomplete isLastValueInvalid =>
    obtain ⟨rfl, hundone⟩ := hstands
    -- what is there is no whole piece, or it would have been taken
    have hcut : ∀ rest', Behind u.isNumber rest' → is ≠ u.text ++ rest' := by
      rintro rest' hbehind' rfl
      rw [h.next rest' hbehind'] at hr
      cases hr
    refine .cut isLastValueInvalid p' hr hundone ?_ ?_
    · by_contra hsize
      obtain ⟨rest', hwhole, hbehind'⟩ := whole_of_size hbehind hstream (not_lt.mp hsize)
      exact hcut rest' hbehind' hwhole
    · rintro rfl
      rw [List.append_nil] at hstream
      exact hcut rest hbehind hstream
  | parsed =>
    have hnext : p.next D (is ++ future) = (.parsed, p', left ++ future) := hstands future
    rw [hstream, hmove] at hnext
    obtain ⟨-, heq⟩ := Prod.mk.inj hnext
    obtain ⟨rfl, rfl⟩ := Prod.mk.inj heq
    refine .taken left hr rfl ?_
    have hne := List.length_pos_iff.mpr h.ne
    have hlength := congrArg List.length hstream
    rw [List.length_append, List.length_append, List.length_append] at hlength
    omega
  | failed code =>
    have hnext : p.next D (is ++ future) = (.failed code, p', left ++ future) := hstands future
    rw [hstream, hmove] at hnext
    cases (Prod.mk.inj hnext).1

/-! ## One message -/

/-- How the loop of `doParse` ends on the way to `q`, with `behind` behind the message. -/
inductive PathResult (D : Strtod) (us : List Piece) (q : MessageParser)
    (behind is future : List Char) : TokensResult → Prop
  | complete (left : List Char) (hleft : left ++ future = behind) (hle : left.length ≤ is.length)
      (hlt : us ≠ [] → left.length < is.length) :
      PathResult D us q behind is future (.complete q left)
  | incomplete {p' : MessageParser} {vs : List Piece} {left : List Char}
      (hpath : Path D behind p' vs q) (hne : vs ≠ []) (hsuffix : vs <:+ us)
      (hstream : left ++ future = piecesText vs ++ behind) (hleft : left.length < 4095)
      (hfuture : future ≠ []) : PathResult D us q behind is future (.incomplete p' left [])

theorem PathResult.cons {us : List Piece} {left : List Char} {r : TokensResult}
    (h : PathResult D us q behind left future r) (u : Piece) (hlt : left.length < is.length) :
    PathResult D (u :: us) q behind is future r := by
  cases h with
  | complete left' hleft hle _ => exact .complete left' hleft (by omega) fun _ => by omega
  | incomplete hpath hne hsuffix hstream hleft hfuture =>
    exact .incomplete hpath hne (hsuffix.trans (List.suffix_cons u us)) hstream hleft hfuture

theorem parseTokens_path {us : List Piece} {fuel : ℕ} (hpath : Path D behind p us q)
    (hq : q.state = .finish) (hfit : ∀ u ∈ us, u.size ≤ 4095) (hnul : '\x00' ∉ is ++ future)
    (hstream : is ++ future = piecesText us ++ behind) (hfuel : is.length < fuel) :
    PathResult D us q behind is future (parseTokens D fuel p is) := by
  induction hpath generalizing is fuel with
  | nil q =>
    cases fuel with
    | zero => exact absurd hfuel (Nat.not_lt_zero _)
    | succ fuel =>
      rw [parseTokens, if_pos (.inl hq)]
      exact .complete is hstream le_rfl fun h => absurd rfl h
  | @cons p m q u us hmove hbehind hpath ih =>
    cases fuel with
    | zero => exact absurd hfuel (Nat.not_lt_zero _)
    | succ fuel =>
      obtain ⟨hu, hus⟩ := List.forall_mem_cons.mp hfit
      have hactive : ¬(p.state = .finish ∨ p.state = .error) :=
        not_or.mpr hmove.active
      have hstream' : is ++ future = u.text ++ (piecesText us ++ behind) := by
        rw [hstream, piecesText_cons, List.append_assoc]
      have hnul' : '\x00' ∉ is := fun h => hnul (List.mem_append_left _ h)
      rw [parseTokens, if_neg hactive]
      cases hmove.nextPiece hbehind hnul' hstream' with
      | taken left hnext hleft hlt =>
        rw [hnext]
        have hsub : '\x00' ∉ left ++ future := by
          rw [hstream', ← hleft] at hnul
          exact fun h => hnul (List.mem_append_right _ h)
        exact (ih hq hus hsub hleft (by omega)).cons u hlt
      | cut isLastValueInvalid p' hnext hundone hshort hfuture =>
        rw [hnext]
        dsimp only
        rw [hundone]
        exact .incomplete (.cons hmove hbehind hpath) (List.cons_ne_nil _ _) List.suffix_rfl hstream
          (by omega) hfuture

/-! ## The stream -/

/-- The parser stands before a stream of which it has yet to hand over the messages `vs`. -/
inductive Pending (D : Strtod) : MessageParser → List Char → List Value → Prop
  | done {is : List Char} (his : is = [] ∨ is = ['\n']) : Pending D {} is []
  | message {p q : MessageParser} {us : List Piece} {behind : List Char} {v : Value}
      {vs : List Value} (hpath : Path D behind p us q) (hne : us ≠ []) (hstate : q.state = .finish)
      (hhandler : q.handler = [v]) (hfit : ∀ u ∈ us, u.size ≤ 4095)
      (hrest : Pending D {} behind vs) : Pending D p (piecesText us ++ behind) (v :: vs)

theorem Path.noNul {us : List Piece} (h : Path D behind p us q) : '\x00' ∉ piecesText us := by
  induction h with
  | nil => exact List.not_mem_nil
  | cons hmove _ _ ih =>
    rw [piecesText_cons]
    exact fun h => (List.mem_append.mp h).elim hmove.noNul ih

theorem Pending.noNul {vs : List Value} (h : Pending D p is vs) : '\x00' ∉ is := by
  induction h with
  | done his => obtain rfl | rfl := his <;> decide
  | message hpath _ _ _ _ _ ih => exact fun h => (List.mem_append.mp h).elim hpath.noNul ih

theorem Pending.eq_nil {vs : List Value} (h : Pending D p [] vs) : vs = [] := by
  generalize his : ([] : List Char) = is at h
  cases h with
  | done _ => rfl
  | message hpath hne _ _ _ _ =>
    cases hpath with
    | nil => exact absurd rfl hne
    | cons hmove _ _ =>
      rw [piecesText_cons, List.append_assoc] at his
      exact absurd (List.append_eq_nil_iff.mp his.symm).1 hmove.ne

/-- What is kept between two receives: there is room for more, and there is more to come as long as
a message is not complete. -/
structure Kept (D : Strtod) (p : MessageParser) (left future : List Char) (vs : List Value) :
    Prop where
  pending : Pending D p (left ++ future) vs
  room : left.length < 4095
  more : vs = [] ∨ future ≠ []

theorem Pending.kept_nil {vs : List Value} (h : Pending D p future vs) : Kept D p [] future vs where
  pending := h
  room := by decide
  more := by
    cases future with
    | nil => exact .inl h.eq_nil
    | cons c cs => exact .inr (List.cons_ne_nil _ _)

variable {σ : Type} {K : MessageCallback σ}

/-- What the callback makes of messages. -/
def deliver (K : MessageCallback σ) (s : σ) (vs : List Value) : σ :=
  vs.foldl (fun s v => (K.onMessage v s).1) s

/-- `doParse` hands the next message over, or it keeps what is there. -/
inductive DoParse (D : Strtod) (K : MessageCallback σ) (is future : List Char) (s : σ) :
    List Value → (MessageParser × σ) × Except ReceiveException (List Char × List Char) → Prop
  | message (v : Value) (vs : List Value) (left : List Char)
      (hrest : Pending D {} (left ++ future) vs) (hlt : left.length < is.length) :
      DoParse D K is future s (v :: vs) (({}, deliver K s [v]), .ok (left, left))
  | kept {p' : MessageParser} {left : List Char} {vs : List Value}
      (hkept : Kept D p' left future vs) :
      DoParse D K is future s vs ((p', s), .ok (left, []))

theorem doParse_done (h : is = [] ∨ is = ['\n']) (s : σ) :
    doParse D K {} s is = (({}, s), .ok (is, [])) := by
  obtain rfl | rfl := h <;> rfl

theorem doParse_pending {vs : List Value} (hK : ∀ v s, (K.onMessage v s).2 = none)
    (h : Pending D p (is ++ future) vs) (s : σ) :
    DoParse D K is future s vs (doParse D K p s is) := by
  generalize hstream : is ++ future = stream at h
  have hnul := h.noNul
  cases h with
  | done hdone =>
    have his : is = [] ∨ is = ['\n'] := by
      cases is with
      | nil => exact .inl rfl
      | cons c cs =>
        obtain rfl | rfl := hdone
        · cases hstream
        · obtain ⟨rfl, hcs⟩ := List.cons.inj hstream
          rw [(List.append_eq_nil_iff.mp hcs).1]
          exact .inr rfl
    have hlength : is.length < 4095 := by
      obtain rfl | rfl := his <;> decide
    rw [doParse_done his]
    exact .kept ⟨hstream ▸ .done hdone, hlength, .inl rfl⟩
  | @message p q us behind v vs hpath hne hstate hhandler hfit hrest =>
    have hresult := parseTokens_path hpath hstate hfit (hstream ▸ hnul) hstream
      (Nat.lt_succ_self is.length)
    rw [doParse]
    generalize parseTokens D (is.length + 1) p is = r at hresult ⊢
    cases hresult with
    | complete left hleft _ hlt =>
      have hget : q.get = some (v, { q with handler := [] }) := by rw [get, hhandler]
      have hthrows := hK v s
      dsimp only
      rw [hget]
      dsimp only
      rcases hs : K.onMessage v s with ⟨s', what⟩
      rw [hs] at hthrows
      cases hthrows
      have hdeliver : deliver K s [v] = s' := congrArg Prod.fst hs
      rw [← hdeliver]
      exact .message v vs left (hleft ▸ hrest) (hlt hne)
    | incomplete hpath' hne' hsuffix hstream' hleft hfuture =>
      have hpending := Pending.message hpath' hne' hstate hhandler
        (fun u hu => hfit u (hsuffix.subset hu)) hrest
      exact .kept ⟨hstream' ▸ hpending, hleft, .inr hfuture⟩

/-! ## The receives -/

theorem parseLoop_pending {fuel : ℕ} {vs : List Value} (hK : ∀ v s, (K.onMessage v s).2 = none)
    (h : Pending D p (is ++ future) vs) (s : σ) (hfuel : is.length < fuel) :
    ∃ done p' left vs', vs = done ++ vs' ∧ Kept D p' left future vs' ∧
      parseLoop D K fuel (p, s) is is = ((p', deliver K s done), .ok left) := by
  induction fuel generalizing p is vs s with
  | zero => exact absurd hfuel (Nat.not_lt_zero _)
  | succ fuel ih =>
    cases is with
    | nil => exact ⟨[], p, [], vs, rfl, h.kept_nil, rfl⟩
    | cons c cs =>
      have hc : c ≠ '\x00' := fun hc => h.noNul (hc ▸ List.mem_cons_self)
      have hresult := doParse_pending hK h s
      rw [parseLoop, if_neg hc]
      dsimp only
      generalize doParse D K p s (c :: cs) = r at hresult ⊢
      cases hresult with
      | message v vs left hrest hlt =>
        obtain ⟨done, p', left', vs', rfl, hkept, hloop⟩ :=
          ih hrest (deliver K s [v]) (by omega)
        exact ⟨v :: done, p', left', vs', rfl, hkept, hloop⟩
      | @kept p' left _ hkept =>
        refine ⟨[], p', left, vs, rfl, hkept, ?_⟩
        cases fuel <;> rfl

theorem parse_pending {vs : List Value} (hK : ∀ v s, (K.onMessage v s).2 = none)
    (h : Pending D p (is ++ future) vs) (s : σ) :
    ∃ done p' left vs', vs = done ++ vs' ∧ Kept D p' left future vs' ∧
      parse D K 4096 (p, s) is = ((p', deliver K s done), .ok left) := by
  obtain ⟨done, p', left, vs', hvs, hkept, hloop⟩ :=
    parseLoop_pending hK h s (Nat.lt_succ_self is.length)
  refine ⟨done, p', left, vs', hvs, hkept, ?_⟩
  have hroom : ¬(left.length = is.length ∧ 4096 - 1 ≤ is.length) := by
    have hroom := hkept.room
    omega
  rw [parse, hloop]
  dsimp only
  rw [if_neg hroom]

end MessageParser

/-! ## Messages -/

open MessageParser

variable {D : Strtod} {σ : Type} {K : MessageCallback σ}

/-- The members of an object. -/
abbrev Message (D : Strtod) := List (List StringItem × Json D)

namespace Message

def value (m : Message D) : Value := (Json.object m).value

/-- The messages as they are sent: each one is compact JSON and a newline. -/
def streamText (ms : List (Message D)) : List Char :=
  ms.flatMap fun m => (Json.object m).text ++ ['\n']

/-- The tokens of a stream. The newline of a message stands in front of the next one. -/
def streamPieces (front : List Char) : List (Message D) → List Piece
  | [] => []
  | m :: ms => (Json.object m).pieces front ++ streamPieces ['\n'] ms

theorem pending_stream {front : List Char} (hfront : front = [] ∨ front = ['\n'])
    {ms : List (Message D)} (hfit : ∀ u ∈ streamPieces front ms, u.size ≤ 4095) :
    Pending D {} (front ++ streamText ms) (ms.map value) := by
  induction ms generalizing front with
  | nil =>
    rw [streamText, List.flatMap_nil, List.append_nil]
    exact .done hfront
  | cons m ms ih =>
    have htext : front ++ streamText (m :: ms) =
        piecesText ((Json.object m).pieces front) ++ (['\n'] ++ streamText ms) := by
      rw [Json.piecesText_pieces, streamText, List.flatMap_cons, streamText]
      simp only [List.append_assoc]
    have hready : Ready D {} front {} := by
      have hactive : ParsingState.start ≠ .finish ∧ ParsingState.start ≠ .error := by decide
      obtain rfl | rfl := hfront
      · exact ready_nil hactive
      · exact ready_newline hactive
    have hpath : Path D (['\n'] ++ streamText ms) {} ((Json.object m).pieces front)
        (push {} m.value .finish) :=
      path_object hready (.inr rfl) fun hne o ho =>
        path_members m hne (ready_nil (by rw [ho]; decide)) (.inl ho) (by rw [ho]; decide)
    have hne : (Json.object m).pieces front ≠ [] := by
      rw [Json.pieces]
      exact List.cons_ne_nil _ _
    rw [htext]
    exact .message hpath hne rfl rfl (fun u hu => hfit u (List.mem_append_left _ hu))
      (ih (.inr rfl) fun u hu => hfit u (List.mem_append_right _ hu))

end Message

namespace StreamSocketReader

/-- What `doReceive` makes of chunk after chunk. It ends with an exception, or where the peer has
closed. -/
def receiveAll (D : Strtod) (K : MessageCallback σ) :
    StreamSocketReader → σ → List (List Char) →
      (StreamSocketReader × σ) × Except ReceiveException Bool
  | r, s, [] => ((r, s), .ok false)
  | r, s, chunk :: chunks =>
    match r.doReceive D K s chunk with
    | ((r, s), .ok false) => receiveAll D K r s chunks
    | (rs, .ok true) => (rs, .ok true)
    | (rs, .error e) => (rs, .error e)

theorem receiveAll_kept {r : StreamSocketReader} {vs : List Value} {chunks : List (List Char)}
    {future : List Char} (hK : ∀ v s, (K.onMessage v s).2 = none) (hsize : r.bufferSize = 4096)
    (hne : ∀ chunk ∈ chunks, chunk ≠ [])
    (h : Kept D r.parser r.buffer (chunks.flatten ++ future) vs) (s : σ) :
    ∃ done r' vs', vs = done ++ vs' ∧ r'.bufferSize = 4096 ∧
      Kept D r'.parser r'.buffer future vs' ∧
      receiveAll D K r s chunks = ((r', deliver K s done), .ok false) := by
  induction chunks generalizing r vs s with
  | nil => exact ⟨[], r, vs, rfl, hsize, h, rfl⟩
  | cons chunk chunks ih =>
    obtain ⟨hchunk, hchunks⟩ := List.forall_mem_cons.mp hne
    have hpending := h.pending
    rw [List.flatten_cons, List.append_assoc, ← List.append_assoc] at hpending
    obtain ⟨done, p', left, vs', rfl, hkept, hparse⟩ := parse_pending hK hpending s
    have hreceive : r.doReceive D K s chunk =
        (({ r with buffer := left, parser := p' }, deliver K s done), .ok false) := by
      cases chunk with
      | nil => exact absurd rfl hchunk
      | cons c cs => rw [doReceive, hsize, hparse]
    obtain ⟨done', r', vs'', rfl, hsize', hkept', hreceiveAll⟩ :=
      ih (r := { r with buffer := left, parser := p' }) hsize hchunks hkept (deliver K s done)
    refine ⟨done ++ done', r', vs'', (List.append_assoc _ _ _).symm, hsize', hkept', ?_⟩
    rw [receiveAll, hreceive]
    dsimp only
    rw [hreceiveAll, deliver, deliver, deliver, List.foldl_append]

/-- The callback that keeps the messages. -/
def recorder : MessageCallback (List Value) where
  onMessage v vs := (vs ++ [v], none)

theorem deliver_recorder (vs done : List Value) : deliver recorder vs done = vs ++ done := by
  induction done generalizing vs with
  | nil => exact (List.append_nil vs).symm
  | cons v done ih =>
    rw [deliver, List.foldl_cons, ← deliver, ih]
    exact List.append_assoc vs [v] done

/-- A beginning of a stream: what comes is a beginning of the messages, and there is room in the
buffer. -/
theorem receiveAll_prefix {ms : List (Message D)}
    (hfit : ∀ u ∈ Message.streamPieces [] ms, u.size ≤ 4095) {chunks : List (List Char)}
    {future : List Char} (hne : ∀ chunk ∈ chunks, chunk ≠ [])
    (hchunks : chunks.flatten ++ future = Message.streamText ms) :
    ∃ r done vs, ms.map Message.value = done ++ vs ∧ (vs = [] ∨ future ≠ []) ∧ 0 < r.freeSize ∧
      receiveAll D recorder {} [] chunks = ((r, done), .ok false) := by
  have hpending := Message.pending_stream (.inl rfl) hfit
  rw [List.nil_append, ← hchunks] at hpending
  have hK : ∀ v s, (recorder.onMessage v s).2 = none := fun _ _ => rfl
  obtain ⟨done, r, vs, hvs, hsize, hkept, hreceive⟩ :=
    receiveAll_kept (r := {}) hK rfl hne hpending.kept_nil []
  refine ⟨r, done, vs, hvs, hkept.more, ?_, ?_⟩
  · have hroom := hkept.room
    rw [freeSize, hsize]
    omega
  · rw [hreceive, deliver_recorder, List.nil_append]

/-- However a stream is cut, its messages are handed over, once each and in order, and nothing is
thrown. -/
theorem receiveAll_stream {ms : List (Message D)}
    (hfit : ∀ u ∈ Message.streamPieces [] ms, u.size ≤ 4095) {chunks : List (List Char)}
    (hne : ∀ chunk ∈ chunks, chunk ≠ []) (hchunks : chunks.flatten = Message.streamText ms) :
    ∃ r, receiveAll D recorder {} [] chunks = ((r, ms.map Message.value), .ok false) := by
  rw [← List.append_nil chunks.flatten] at hchunks
  obtain ⟨r, done, vs, hvs, hend, -, hreceive⟩ := receiveAll_prefix hfit hne hchunks
  obtain rfl : vs = [] := hend.resolve_right fun h => h rfl
  rw [hvs, List.append_nil]
  exact ⟨r, hreceive⟩

private def cutNumber : JsonNumber ⟨fun _ => false⟩ where
  token := { int := ['1', '2'] }
  isNumber :=
    { int := .inr ⟨'1', ['2'], rfl, by decide,
        List.forall_mem_cons.mpr ⟨rfl, List.forall_mem_singleton.mpr rfl⟩⟩
      frac := fun _ h => by cases h
      exp := fun _ h => by cases h }
  fits := fun _ h => by cases h
  value := .int 12
  toValue := rfl

private def cutMessages : List (Message ⟨fun _ => false⟩) :=
  [[([.plain 'k' (by decide)], .number cutNumber)], []]

/-- The number is cut. -/
theorem receiveAll_stream_cut :
    ∃ r, receiveAll ⟨fun _ => false⟩ recorder {} []
      [['{', '"', 'k', '"', ':', '1'], ['2', '}', '\n', '{'], ['}', '\n']] =
        ((r, [.object [("k", .int 12)], .object []]), .ok false) :=
  @receiveAll_stream _ cutMessages (by decide) _ (by decide) rfl

end StreamSocketReader

end Conntop
