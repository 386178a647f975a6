import Conntop.Reader

/-!
# Compact JSON

The texts that stand for a value without whitespace, in every spelling: a character of a string may
be escaped, a number may have a fraction and an exponent. A `Json D` is such a text as a tree. Its
numbers are those that the reader can hold.

A token is cut from the text together with what stands in front of it: a `Piece`. The reader needs
the character behind a number as well.

Main results: `parseString_text` and `parseNumber_text`, the scanners of the reader read what the
tree says; `piecesText_pieces`, the pieces are the text.
-/

namespace Conntop

open Scanner Reader

/-! ## Strings -/

structure Hex4 where
  a : { c : Char // isHexDigit c }
  b : { c : Char // isHexDigit c }
  c : { c : Char // isHexDigit c }
  d : { c : Char // isHexDigit c }

namespace Hex4

def text (h : Hex4) : List Char := [h.a, h.b, h.c, h.d]

def value (h : Hex4) : ℕ :=
  ((hexValue h.a * 16 + hexValue h.b) * 16 + hexValue h.c) * 16 + hexValue h.d

def IsHigh (h : Hex4) : Prop := 0xD800 ≤ h.value ∧ h.value ≤ 0xDBFF

def IsLow (h : Hex4) : Prop := 0xDC00 ≤ h.value ∧ h.value ≤ 0xDFFF

end Hex4

/-- A character of a string, as it is or escaped. -/
inductive StringItem
  | plain (c : Char) (h : 0x20 ≤ c.toNat ∧ c ≠ '"' ∧ c ≠ '\\')
  | escape (c : Char) (h : (Reader.escape c).isSome)
  | unicode (h : Hex4) (hsingle : ¬ h.IsHigh)
  | pair (high low : Hex4) (hhigh : high.IsHigh) (hlow : low.IsLow)

namespace StringItem

def text : StringItem → List Char
  | plain c _ => [c]
  | escape c _ => ['\\', c]
  | unicode h _ => '\\' :: 'u' :: h.text
  | pair high low _ _ => '\\' :: 'u' :: (high.text ++ '\\' :: 'u' :: low.text)

def bytes : StringItem → List Char
  | plain c _ => [c]
  | escape c _ => (Reader.escape c).toList
  | unicode h _ => encode h.value
  | pair high low _ _ =>
    encode (((high.value - 0xD800) <<< 10 ||| (low.value - 0xDC00)) + 0x10000)

end StringItem

/-- A string with its quotes. -/
def stringText (s : List StringItem) : List Char := '"' :: (s.flatMap StringItem.text ++ ['"'])

def stringValue (s : List StringItem) : String := .ofList (s.flatMap StringItem.bytes)

theorem parseHex4_text (h : Hex4) (rest : List Char) :
    parseHex4 (h.text ++ rest) = (.ok h.value, rest) := by
  have hdigit : ∀ (c : { c : Char // isHexDigit c }) (rest : List Char),
      parseHexDigit (c :: rest) = (.ok (hexValue c), rest) := by
    intro c rest
    exact bind_of_ok (onHead_pos c.2 rest)
  unfold parseHex4 Hex4.text
  rw [List.cons_append, List.cons_append, List.cons_append, List.cons_append, List.nil_append,
    bind_of_ok (hdigit _ _), bind_of_ok (hdigit _ _), bind_of_ok (hdigit _ _),
    bind_of_ok (hdigit _ _)]
  rfl

theorem expect_eq {c : Char} (e : ParseErrorCode) (rest : List Char) :
    (expect (· == c) e : Parse Char) (c :: rest) = (.ok c, rest) :=
  onHead_pos (beq_self_eq_true c) rest

theorem parseUnicode_single {h : Hex4} (hsingle : ¬ h.IsHigh) (rest : List Char) :
    parseUnicode (h.text ++ rest) = (.ok (encode h.value), rest) := by
  have hsingle : ¬(0xD800 ≤ h.value ∧ h.value ≤ 0xDBFF) := hsingle
  unfold parseUnicode
  rw [bind_of_ok (parseHex4_text h rest), if_neg hsingle]
  rfl

theorem parseUnicode_pair {high low : Hex4} (hhigh : high.IsHigh) (hlow : low.IsLow)
    (rest : List Char) : parseUnicode (high.text ++ '\\' :: 'u' :: (low.text ++ rest)) =
      (.ok (encode (((high.value - 0xD800) <<< 10 ||| (low.value - 0xDC00)) + 0x10000)), rest) := by
  have hhigh : 0xD800 ≤ high.value ∧ high.value ≤ 0xDBFF := hhigh
  have hlow' : ¬(low.value < 0xDC00 ∨ 0xDFFF < low.value) := by
    rw [not_or, not_lt, not_lt]
    exact hlow
  unfold parseUnicode
  rw [bind_of_ok (parseHex4_text high _), if_pos hhigh, bind_of_ok (expect_eq _ _),
    bind_of_ok (expect_eq _ _), bind_of_ok (parseHex4_text low rest), if_neg hlow']
  rfl

theorem parseChar_text (item : StringItem) (rest : List Char) :
    parseChar (item.text ++ rest) = (.ok (some item.bytes), rest) := by
  have hescape : ∀ {is : List Char} {bytes : List Char},
      parseEscape is = (.ok bytes, rest) → parseChar ('\\' :: is) = (.ok (some bytes), rest) := by
    intro is bytes h
    exact (onHead_pos rfl is).trans (bind_of_ok h)
  cases item with
  | plain c h =>
    obtain ⟨hc, hquote, hslash⟩ := h
    show parseChar (c :: rest) = _
    rw [parseChar, onHead_neg (by simpa using hslash), onHead_neg (by simpa using hquote),
      onHead_pos (by simpa using hc)]
    rfl
  | escape c h =>
    have hc : parseEscape (c :: rest) = (.ok (Reader.escape c).toList, rest) := by
      rw [parseEscape, onHead_pos (p := fun e => (Reader.escape e).isSome) h]
      rfl
    exact hescape hc
  | unicode h hsingle => exact hescape (parseUnicode_single hsingle rest)
  | pair high low hhigh hlow =>
    refine hescape ?_
    have htext : high.text ++ '\\' :: 'u' :: low.text ++ rest =
        high.text ++ '\\' :: 'u' :: (low.text ++ rest) := by
      rw [List.append_assoc, List.cons_append, List.cons_append]
    exact (congrArg parseUnicode htext).trans (parseUnicode_pair hhigh hlow rest)

/-- Behind the opening quote. -/
theorem parseString_text (s : List StringItem) (rest : List Char) :
    parseString (s.flatMap StringItem.text ++ '"' :: rest) = (.ok (stringValue s), rest) := by
  have hitem : ∀ item ∈ s, item.text ≠ [] ∧ ∀ rest : List Char,
      parseChar (item.text ++ rest) = (.ok (some item.bytes), rest) :=
    fun item _ => ⟨by cases item <;> exact List.cons_ne_nil _ _, parseChar_text item⟩
  have hlast : parseChar (['"'] ++ rest) = (.ok none, rest) := rfl
  have hitems := many_append hitem hlast
  unfold parseString
  rw [show '"' :: rest = ['"'] ++ rest from rfl, bind_of_ok hitems, ← List.flatMap_def]
  rfl

theorem noNul_hex4 (h : Hex4) : '\x00' ∉ h.text := by
  have hdigit : ∀ c : { c : Char // isHexDigit c }, '\x00' ≠ c.val := by
    rintro ⟨c, hc⟩ rfl
    cases hc
  simp [Hex4.text, hdigit]

theorem noNul_stringText (s : List StringItem) : '\x00' ∉ stringText s := by
  have hitem : ∀ item : StringItem, '\x00' ∉ item.text := by
    intro item
    cases item with
    | plain c h =>
      intro hnul
      cases List.mem_singleton.mp hnul
      exact absurd h.1 (by decide)
    | escape c h =>
      intro hnul
      obtain hnul | hnul := List.mem_pair.mp hnul
      · cases hnul
      · rw [← hnul] at h
        cases h
    | unicode h _ => simp [StringItem.text, noNul_hex4]
    | pair high low _ _ => simp [StringItem.text, noNul_hex4]
  simp [stringText, hitem]

/-! ## Numbers -/

/-- The character behind a number. -/
def endsNumber (c : Char) : Prop := c = ',' ∨ c = ']' ∨ c = '}'

namespace Reader.NumberToken

/-- A number of the grammar. -/
structure IsNumber (t : NumberToken) : Prop where
  int : t.int = ['0'] ∨ ∃ d ds, t.int = d :: ds ∧ d ≠ '0' ∧ ∀ c ∈ t.int, isDigit c = true
  frac : ∀ ds ∈ t.frac, ds ≠ [] ∧ ∀ c ∈ ds, isDigit c = true
  exp : ∀ x ∈ t.exp, (x.1 = 'e' ∨ x.1 = 'E') ∧ (∀ c ∈ x.2.1, c = '+' ∨ c = '-') ∧
    x.2.2 ≠ [] ∧ ∀ c ∈ x.2.2, isDigit c = true

theorem IsNumber.int_cons {t : NumberToken} (h : t.IsNumber) :
    ∃ d ds, t.int = d :: ds ∧ isDigit d = true := by
  obtain hint | ⟨d, ds, hint, -, hdigits⟩ := h.int
  · exact ⟨'0', [], hint, rfl⟩
  · exact ⟨d, ds, hint, hdigits d (hint ▸ List.mem_cons_self)⟩

/-- An exponent that is not negative may have the value `maxExp`. -/
def FitsExponent (t : NumberToken) : Prop :=
  ∀ x ∈ t.exp, x.2.1 ≠ some '-' → digitsValue x.2.2 ≤ 308 + expFrac t.int (t.frac.getD [])

end Reader.NumberToken

/-- A number that the reader can hold. -/
structure JsonNumber (D : Strtod) where
  token : NumberToken
  isNumber : token.IsNumber
  fits : token.FitsExponent
  value : Value
  toValue : token.toValue D = .ok value

theorem digits_append {ds : List Char} (hds : ∀ c ∈ ds, isDigit c = true) {rest : List Char}
    (hrest : ∀ c, rest.head? = some c → isDigit c = false) :
    (takeWhile isDigit : Parse (List Char)) (ds ++ rest) = (.ok ds, rest) :=
  takeWhile_append hds hrest

theorem parseInt_text {ds : List Char}
    (h : ds = ['0'] ∨ ∃ d ds', ds = d :: ds' ∧ d ≠ '0' ∧ ∀ c ∈ ds, isDigit c = true)
    {rest : List Char} (hrest : ∀ c, rest.head? = some c → isDigit c = false) :
    parseInt (ds ++ rest) = (.ok ds, rest) := by
  obtain rfl | ⟨d, ds', rfl, hd, hdigits⟩ := h
  · rfl
  · obtain ⟨hdigit, hdigits⟩ := List.forall_mem_cons.mp hdigits
    rw [List.cons_append, parseInt, onHead_neg (by simpa using hd), onHead_pos hdigit,
      bind_of_ok (digits_append hdigits hrest)]
    rfl

theorem parseFrac_text {frac : Option (List Char)}
    (h : ∀ ds ∈ frac, ds ≠ [] ∧ ∀ c ∈ ds, isDigit c = true) {rest : List Char}
    (hrest : ∀ c, rest.head? = some c → isDigit c = false ∧ c ≠ '.') :
    parseFrac (NumberToken.fracText frac ++ rest) = (.ok frac, rest) := by
  cases frac with
  | none =>
    cases rest with
    | nil => rfl
    | cons c rest =>
      have hc : c ≠ '.' := (hrest c rfl).2
      rw [NumberToken.fracText, List.nil_append, parseFrac, onHead_neg (by simpa using hc)]
      rfl
  | some ds =>
    obtain ⟨hne, hdigits⟩ := h ds rfl
    cases ds with
    | nil => exact absurd rfl hne
    | cons d ds =>
      obtain ⟨hdigit, hdigits⟩ := List.forall_mem_cons.mp hdigits
      have hexpect : (expect isDigit .numberMissFraction : Parse Char) (d :: (ds ++ rest)) =
          (.ok d, ds ++ rest) := onHead_pos hdigit _
      rw [NumberToken.fracText, List.cons_append, List.cons_append, parseFrac,
        onHead_pos (by rfl), bind_of_ok hexpect,
        bind_of_ok (digits_append hdigits fun c hc => (hrest c hc).1)]
      rfl

theorem digitsValue_le_append (ds ds' : List Char) :
    digitsValue ds ≤ digitsValue (ds ++ ds') := by
  have hfold : ∀ (ds : List Char) (n : ℕ),
      n ≤ ds.foldl (fun n c => n * 10 + (c.toNat - 48)) n := by
    intro ds
    induction ds with
    | nil => exact fun n => le_rfl
    | cons c ds ih =>
      intro n
      exact (by omega : n ≤ n * 10 + (c.toNat - 48)).trans (ih _)
  unfold digitsValue
  rw [List.foldl_append]
  exact hfold ds' _

/-- No beginning of an exponent is too big when the exponent is not. -/
theorem parseExpDigits_text {maxExp : ℕ} {ds₀ ds : List Char}
    (hds : ∀ c ∈ ds, isDigit c = true) (hmax : digitsValue (ds₀ ++ ds) ≤ maxExp) {rest : List Char}
    (hrest : ∀ c, rest.head? = some c → isDigit c = false) :
    parseExpDigits maxExp ds₀ (ds ++ rest) = (.ok (ds₀ ++ ds), rest) := by
  unfold parseExpDigits
  induction ds generalizing ds₀ with
  | nil =>
    rw [List.append_nil, List.nil_append]
    cases rest with
    | nil => rfl
    | cons c rest =>
      rw [foldWhile, hrest c rfl]
      rfl
  | cons c ds ih =>
    obtain ⟨hc, hds⟩ := List.forall_mem_cons.mp hds
    have happend : ds₀ ++ c :: ds = ds₀ ++ [c] ++ ds := by
      rw [List.append_assoc]
      rfl
    rw [happend] at hmax ⊢
    have hle := (digitsValue_le_append (ds₀ ++ [c]) ds).trans hmax
    rw [List.cons_append, foldWhile, if_pos hc, if_neg (not_lt.mpr hle)]
    exact ih hds hmax

theorem parseExp_text {maxExp : ℕ} {exp : Option (Char × Option Char × List Char)}
    (h : ∀ x ∈ exp, (x.1 = 'e' ∨ x.1 = 'E') ∧ (∀ c ∈ x.2.1, c = '+' ∨ c = '-') ∧
      x.2.2 ≠ [] ∧ ∀ c ∈ x.2.2, isDigit c = true)
    (hmax : ∀ x ∈ exp, x.2.1 ≠ some '-' → digitsValue x.2.2 ≤ maxExp) {rest : List Char}
    (hrest : ∀ c, rest.head? = some c → isDigit c = false ∧ c ≠ 'e' ∧ c ≠ 'E') :
    parseExp maxExp (NumberToken.expText exp ++ rest) = (.ok exp, rest) := by
  cases exp with
  -- without an exponent the next character is left
  | none =>
    cases rest with
    | nil => rfl
    | cons c rest =>
      obtain ⟨-, he, hE⟩ := hrest c rfl
      rw [NumberToken.expText, List.nil_append, parseExp, onHead_neg (by simp [isExponent, he, hE])]
      rfl
  | some x =>
    obtain ⟨e, sign, ds⟩ := x
    obtain ⟨he, hsign, hne, hdigits⟩ := h _ rfl
    have hmax := hmax _ rfl
    have hrest : ∀ c, rest.head? = some c → isDigit c = false := fun c hc => (hrest c hc).1
    cases ds with
    | nil => exact absurd rfl hne
    | cons d ds =>
      obtain ⟨hd, hds⟩ := List.forall_mem_cons.mp hdigits
      have hexpect : (expect isDigit .numberMissExponent : Parse Char) (d :: (ds ++ rest)) =
          (.ok d, ds ++ rest) := onHead_pos hd _
      -- the sign is taken if there is one, and a digit is none
      have htake : (takeIf isSign : Parse (Option Char)) (sign.toList ++ d :: (ds ++ rest)) =
          (.ok sign, d :: (ds ++ rest)) := by
        cases sign with
        | none =>
          have hd' : isSign d = false := by
            by_contra hd'
            rw [Bool.not_eq_false, isSign, Bool.or_eq_true, beq_iff_eq, beq_iff_eq] at hd'
            obtain rfl | rfl := hd' <;> cases hd
          exact onHead_neg hd' _
        | some c =>
          have hc : isSign c = true := by
            obtain rfl | rfl := hsign c rfl <;> rfl
          exact onHead_pos hc _
      have he' : isExponent e = true := by
        obtain rfl | rfl := he <;> rfl
      rw [NumberToken.expText, List.cons_append, List.append_assoc, List.cons_append, parseExp,
        onHead_pos he',
        bind_of_ok htake, bind_of_ok hexpect]
      split_ifs with hminus
      · rw [bind_of_ok (digits_append hds hrest)]
        rfl
      · have hmax' : digitsValue ([d] ++ ds) ≤ maxExp := hmax hminus
        rw [bind_of_ok (parseExpDigits_text hds hmax' hrest)]
        rfl

/-- A number is read up to a character that ends it. -/
theorem parseToken_text {t : NumberToken} (h : t.IsNumber) (hexp : t.FitsExponent) {c : Char}
    (hc : endsNumber c) (rest : List Char) :
    parseToken (t.text ++ c :: rest) = (.ok t, c :: rest) := by
  -- every part ends where the next one starts, and the last one at `c`
  have hend : isDigit c = false ∧ c ≠ '.' ∧ c ≠ 'e' ∧ c ≠ 'E' := by
    obtain rfl | rfl | rfl := hc <;> decide
  have hexpHead : ∀ x, (NumberToken.expText t.exp ++ c :: rest).head? = some x →
      isDigit x = false ∧ x ≠ '.' := by
    intro x hx
    cases hte : t.exp with
    | none =>
      rw [hte] at hx
      cases hx
      exact ⟨hend.1, hend.2.1⟩
    | some e =>
      rw [hte] at hx
      cases hx
      obtain he | he := (h.exp e hte).1 <;> rw [he] <;> decide
  have hfracHead : ∀ x, (NumberToken.fracText t.frac ++
      (NumberToken.expText t.exp ++ c :: rest)).head? = some x → isDigit x = false := by
    intro x hx
    cases htf : t.frac with
    | none =>
      rw [htf] at hx
      exact (hexpHead x hx).1
    | some ds =>
      rw [htf] at hx
      cases hx
      rfl
  -- the parts are read one after the other
  have hminus : (takeIf (· == '-') : Parse (Option Char)) (t.text ++ c :: rest) =
      (.ok (if t.minus then some '-' else none),
        t.int ++ (NumberToken.fracText t.frac ++ (NumberToken.expText t.exp ++ c :: rest))) := by
    rw [NumberToken.text, List.append_assoc, List.append_assoc, List.append_assoc]
    split_ifs with hm
    · rfl
    · have hint : ∀ rest, (takeIf (· == '-') : Parse (Option Char)) (t.int ++ rest) =
          (.ok none, t.int ++ rest) := by
        intro rest
        obtain ⟨d, ds, hd, hdigit⟩ := h.int_cons
        rw [hd, List.cons_append]
        refine onHead_neg ?_ _
        rw [beq_eq_false_iff_ne]
        rintro rfl
        cases hdigit
      exact hint _
  have hint := parseInt_text h.int hfracHead
  have hfrac := parseFrac_text h.frac hexpHead
  have hend' : ∀ x, (c :: rest).head? = some x → isDigit x = false ∧ x ≠ 'e' ∧ x ≠ 'E' := by
    rintro _ ⟨⟩
    exact ⟨hend.1, hend.2.2⟩
  have hexp' := parseExp_text h.exp hexp hend'
  rw [parseToken, bind_of_ok hminus, bind_of_ok hint, bind_of_ok hfrac, bind_of_ok hexp']
  cases t with
  | mk minus int frac exp => cases minus <;> rfl

theorem parseNumber_text {D : Strtod} (n : JsonNumber D) {c : Char} (hc : endsNumber c)
    (rest : List Char) : parseNumber D (n.token.text ++ c :: rest) = (.ok n.value, c :: rest) := by
  rw [parseNumber, bind_of_ok (parseToken_text n.isNumber n.fits hc rest), n.toValue]
  rfl

theorem noNul_number {t : NumberToken} (h : t.IsNumber) : '\x00' ∉ t.text := by
  have hdigits : ∀ ds : List Char, (∀ c ∈ ds, isDigit c = true) → '\x00' ∉ ds :=
    fun ds hds hnul => by cases hds _ hnul
  have hminus : '\x00' ∉ (if t.minus then ['-'] else [] : List Char) := by
    split_ifs <;> decide
  have hint : '\x00' ∉ t.int := by
    obtain hint | ⟨d, ds, -, -, hint⟩ := h.int
    · rw [hint]
      decide
    · exact hdigits _ hint
  have hfrac : '\x00' ∉ NumberToken.fracText t.frac := by
    cases htf : t.frac with
    | none => exact List.not_mem_nil
    | some ds =>
      have hds := hdigits ds (h.frac ds htf).2
      simp [NumberToken.fracText, hds]
  have hexp : '\x00' ∉ NumberToken.expText t.exp := by
    cases hte : t.exp with
    | none => exact List.not_mem_nil
    | some x =>
      obtain ⟨e, sign, ds⟩ := x
      obtain ⟨he, hsign, -, hds⟩ := h.exp _ hte
      have he : '\x00' ≠ e := by
        obtain rfl | rfl := he <;> decide
      have hsign : '\x00' ∉ sign.toList := by
        intro hnul
        obtain hc | hc := hsign _ (Option.mem_toList.mp hnul) <;> cases hc
      have hds := hdigits ds hds
      simp only [NumberToken.expText, List.mem_cons, List.mem_append, he, hsign, hds, or_self,
        not_false_eq_true]
  simp only [NumberToken.text, List.mem_append, hminus, hint, hfrac, hexp, or_self,
    not_false_eq_true]

/-- A number starts with a minus or a digit. -/
theorem JsonNumber.text_cons {D : Strtod} (n : JsonNumber D) :
    ∃ c cs, n.token.text = c :: cs ∧ (c = '-' ∨ isDigit c = true) := by
  obtain ⟨d, ds, hint, hd⟩ := n.isNumber.int_cons
  cases hm : n.token.minus with
  | true => exact ⟨'-', _, by rw [NumberToken.text, hm]; rfl, .inl rfl⟩
  | false => exact ⟨d, _, by rw [NumberToken.text, hm, hint]; rfl, .inr hd⟩

/-! ## Values -/

inductive Json (D : Strtod)
  | null
  | bool (b : Bool)
  | number (n : JsonNumber D)
  | string (s : List StringItem)
  | array (elements : List (Json D))
  | object (members : List (List StringItem × Json D))

/-- A token with what stands in front of it. -/
structure Piece where
  text : List Char
  isNumber : Bool := false

/-- What the reader must see of a piece. It needs the character behind a number. -/
def Piece.size (u : Piece) : ℕ := if u.isNumber then u.text.length + 1 else u.text.length

def piecesText (us : List Piece) : List Char := us.flatMap Piece.text

@[simp] theorem piecesText_cons (u : Piece) (us : List Piece) :
    piecesText (u :: us) = u.text ++ piecesText us := List.flatMap_cons

@[simp] theorem piecesText_append (us vs : List Piece) :
    piecesText (us ++ vs) = piecesText us ++ piecesText vs := List.flatMap_append

@[simp] theorem piecesText_nil : piecesText [] = [] := rfl

namespace Json

variable {D : Strtod}

mutual

def text : Json D → List Char
  | null => ['n', 'u', 'l', 'l']
  | bool true => ['t', 'r', 'u', 'e']
  | bool false => ['f', 'a', 'l', 's', 'e']
  | number n => n.token.text
  | string s => stringText s
  | array elements => '[' :: (elementsText [] elements ++ [']'])
  | object members => '{' :: (membersText [] members ++ ['}'])

/-- `front` stands in front of the first element, a comma in front of the others. -/
def elementsText (front : List Char) : List (Json D) → List Char
  | [] => []
  | j :: js => front ++ (text j ++ elementsText [','] js)

def membersText (front : List Char) : List (List StringItem × Json D) → List Char
  | [] => []
  | (s, j) :: ms => front ++ (stringText s ++ ':' :: (text j ++ membersText [','] ms))

end

mutual

def value : Json D → Value
  | null => .null
  | bool b => .bool b
  | number n => n.value
  | string s => .string (stringValue s)
  | array elements => .array (elementsValue elements)
  | object members => .object (membersValue members)

def elementsValue : List (Json D) → List Value
  | [] => []
  | j :: js => value j :: elementsValue js

def membersValue : List (List StringItem × Json D) → List (String × Value)
  | [] => []
  | (s, j) :: ms => (stringValue s, value j) :: membersValue ms

end

mutual

/-- The tokens of a value, with what stands in `front` of it. -/
def pieces (front : List Char) : Json D → List Piece
  | array elements =>
    { text := front ++ ['['] } :: (elementsPieces [] elements ++ [{ text := [']'] }])
  | object members =>
    { text := front ++ ['{'] } :: (membersPieces [] members ++ [{ text := ['}'] }])
  | number n => [{ text := front ++ n.token.text, isNumber := true }]
  | j => [{ text := front ++ text j }]

def elementsPieces (front : List Char) : List (Json D) → List Piece
  | [] => []
  | j :: js => pieces front j ++ elementsPieces [','] js

def membersPieces (front : List Char) : List (List StringItem × Json D) → List Piece
  | [] => []
  | (s, j) :: ms =>
    { text := front ++ stringText s } :: (pieces [':'] j ++ membersPieces [','] ms)

end

mutual

theorem piecesText_pieces (front : List Char) :
    (j : Json D) → piecesText (j.pieces front) = front ++ j.text
  | null => by simp [pieces]
  | bool b => by simp [pieces]
  | number n => by simp [pieces, text]
  | string s => by simp [pieces]
  | array elements => by simp [pieces, text, piecesText_elements [] elements]
  | object members => by simp [pieces, text, piecesText_members [] members]

theorem piecesText_elements (front : List Char) :
    (js : List (Json D)) → piecesText (elementsPieces front js) = elementsText front js
  | [] => rfl
  | j :: js => by
    rw [elementsPieces, piecesText_append, piecesText_pieces front j,
      piecesText_elements [','] js, elementsText, List.append_assoc]

theorem piecesText_members (front : List Char) : (ms : List (List StringItem × Json D)) →
    piecesText (membersPieces front ms) = membersText front ms
  | [] => rfl
  | (s, j) :: ms => by
    rw [membersPieces, piecesText_cons, piecesText_append, piecesText_pieces [':'] j,
      piecesText_members [','] ms, membersText, List.append_assoc, List.append_assoc]
    rfl

end

end Json

end Conntop
