import Conntop.Connection

/-!
# Texts of addresses

`InetText` leaves open how addresses are written. `InetText.plain` writes an IPv4 address as
dotted decimal octets and an IPv6 address as eight groups of four hexadecimal digits, and reads
these texts. Platforms also shorten IPv6 addresses.

Raw addresses are in network byte order in memory, so the first octet is the lowest byte on a
little-endian machine.
-/

namespace Conntop

namespace Inet

/-! ## Octets -/

def octet (raw : BitVec 32) (i : ℕ) : ℕ := raw.toNat / 256 ^ i % 256

def octets (raw : BitVec 32) : List ℕ := [octet raw 0, octet raw 1, octet raw 2, octet raw 3]

def ofOctets (a b c d : ℕ) : BitVec 32 := BitVec.ofNat 32 (a + 256 * (b + 256 * (c + 256 * d)))

theorem octet_lt (raw : BitVec 32) (i : ℕ) : octet raw i < 256 := Nat.mod_lt _ (by decide)

theorem ofOctets_octet (raw : BitVec 32) :
    ofOctets (octet raw 0) (octet raw 1) (octet raw 2) (octet raw 3) = raw := by
  apply BitVec.eq_of_toNat_eq
  have h := raw.isLt
  simp only [ofOctets, octet, BitVec.toNat_ofNat]
  omega

/-- The value of a digit, in lower case. -/
def digitValue (c : Char) : ℕ := if c.toNat < 58 then c.toNat - 48 else c.toNat - 87

/-- The number that digits of a base stand for. -/
def ofDigits (base : ℕ) (s : List Char) : ℕ := s.foldl (fun n c => base * n + digitValue c) 0

def decimal (n : ℕ) : List Char := Nat.toDigits 10 n

/-- The two hexadecimal digits of an octet. -/
def hex (n : ℕ) : List Char := [Nat.digitChar (n / 16), Nat.digitChar (n % 16)]

/-- Digits are read only when they are written as the number they stand for. -/
def ofDecimal (s : List Char) : Option ℕ :=
  if ofDigits 10 s < 256 ∧ decimal (ofDigits 10 s) = s then some (ofDigits 10 s) else none

def ofHex (s : List Char) : Option ℕ :=
  if ofDigits 16 s < 256 ∧ hex (ofDigits 16 s) = s then some (ofDigits 16 s) else none

set_option maxRecDepth 4000 in
theorem decimal_octet : ∀ n < 256, ofDecimal (decimal n) = some n ∧ '.' ∉ decimal n ∧
    '\x00' ∉ decimal n := by
  decide +kernel

set_option maxRecDepth 4000 in
theorem hex_octet : ∀ n < 256, ofHex (hex n) = some n ∧ ':' ∉ hex n ∧ '\x00' ∉ hex n := by
  decide +kernel

/-! ## Addresses -/

/-- The two groups of a block. -/
def groups (raw : BitVec 32) : List (List Char) :=
  [hex (octet raw 0) ++ hex (octet raw 1), hex (octet raw 2) ++ hex (octet raw 3)]

def ofGroup (s : List Char) : Option (ℕ × ℕ) :=
  match ofHex (s.take 2), ofHex (s.drop 2) with
  | some a, some b => some (a, b)
  | _, _ => none

def ntop : Address → String
  | .ip4 raw => String.ofList (List.intercalate ['.'] ((octets raw).map decimal))
  | .ip6 a b c d =>
    String.ofList (List.intercalate [':'] (groups a ++ groups b ++ groups c ++ groups d))

def pton4 (s : String) : Option (BitVec 32) :=
  match (s.toList.splitOn '.').map ofDecimal with
  | [some a, some b, some c, some d] => some (ofOctets a b c d)
  | _ => none

def pton6 (s : String) : Option (BitVec 32 × BitVec 32 × BitVec 32 × BitVec 32) :=
  match (s.toList.splitOn ':').map ofGroup with
  | [some a, some b, some c, some d, some e, some f, some g, some h] =>
    some (ofOctets a.1 a.2 b.1 b.2, ofOctets c.1 c.2 d.1 d.2, ofOctets e.1 e.2 f.1 f.2,
      ofOctets g.1 g.2 h.1 h.2)
  | _ => none

theorem ofGroup_hex (raw : BitVec 32) (i j : ℕ) :
    ofGroup (hex (octet raw i) ++ hex (octet raw j)) = some (octet raw i, octet raw j) := by
  have h : ∀ k, ofHex (hex (octet raw k)) = some (octet raw k) := fun k =>
    (hex_octet _ (octet_lt raw k)).1
  have hi := h i
  have hj := h j
  unfold hex at hi hj
  simp [ofGroup, hex, hi, hj]

theorem colon_notMem_groups (raw : BitVec 32) : ∀ s ∈ groups raw, ':' ∉ s := by
  intro s hs
  have h : ∀ k, ':' ∉ hex (octet raw k) := fun k => (hex_octet _ (octet_lt raw k)).2.1
  simp only [groups, List.mem_cons, List.not_mem_nil, or_false] at hs
  rcases hs with rfl | rfl <;> simp [h]

theorem pton4_ntop (raw : BitVec 32) : pton4 (ntop (.ip4 raw)) = some raw := by
  have h := fun k => decimal_octet _ (octet_lt raw k)
  unfold pton4 ntop
  rw [String.toList_ofList, List.splitOn_intercalate '.' (by simp [octets, h]) (by simp [octets])]
  simp [octets, h, ofOctets_octet]

theorem pton6_ntop (a b c d : BitVec 32) : pton6 (ntop (.ip6 a b c d)) = some (a, b, c, d) := by
  unfold pton6 ntop
  rw [String.toList_ofList, List.splitOn_intercalate ':' ?_ (by simp [groups])]
  · simp [groups, ofGroup_hex, ofOctets_octet]
  · intro s hs
    simp only [List.mem_append] at hs
    rcases hs with ((hs | hs) | hs) | hs <;> exact colon_notMem_groups _ s hs

theorem nul_notMem_ntop (a : Address) : '\x00' ∉ (ntop a).toList := by
  cases a with
  | ip4 raw =>
    have h := fun k => (decimal_octet _ (octet_lt raw k)).2.2
    simp [ntop, octets, List.intercalate, List.intersperse, h]
  | ip6 a b c d =>
    have h := fun (raw : BitVec 32) k => (hex_octet _ (octet_lt raw k)).2.2
    simp [ntop, groups, List.intercalate, List.intersperse, h]

end Inet

/-- Addresses written out in full. -/
def InetText.plain : InetText where
  ntop := Inet.ntop
  pton4 := Inet.pton4
  pton6 := Inet.pton6
  pton4_ntop := Inet.pton4_ntop
  pton6_ntop := Inet.pton6_ntop
  nul_notMem := Inet.nul_notMem_ntop

example : InetText.plain.ntop (.ip4 0x0100007F#32) = "127.0.0.1" := by decide

end Conntop
