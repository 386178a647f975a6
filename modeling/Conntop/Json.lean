import Mathlib.Algebra.Group.Int.Defs
import Mathlib.Data.List.TakeWhile
import Mathlib.Data.String.Basic

/-!
# JSON values

`rapidjson::Value` as the messages of the client and the server use it, and the text that
`rapidjson::Writer` makes of it. An integer is of every integer kind that its value fits in. A
`double` is held as the number token that stands for it.
-/

namespace Conntop

/-- `rapidjson::Value`. -/
inductive Value
  | null
  | bool (b : Bool)
  | int (n : ℤ)
  | double (token : String)
  | string (s : String)
  | array (elements : List Value)
  | object (members : List (String × Value))
  deriving Repr, Inhabited

/-- What a `const char *` into a string is read as: the text before the first NUL. -/
def cString (s : String) : String := String.ofList (s.toList.takeWhile (· ≠ '\x00'))

theorem cString_eq {s : String} (h : '\x00' ∉ s.toList) : cString s = s := by
  unfold cString
  have hc : ∀ c ∈ s.toList, decide (c ≠ '\x00') = true := fun c hc =>
    decide_eq_true fun h' => h (h' ▸ hc)
  rw [List.takeWhile_eq_self_iff.mpr hc, String.ofList_toList]

namespace Value

def isObject : Value → Bool
  | object _ => true
  | _ => false

/-- The members of an object. Other values have none: `FindMember` is not allowed on them. -/
def members : Value → List (String × Value)
  | object members => members
  | _ => []

def findMember (v : Value) (name : String) : Option Value :=
  (v.members.find? (·.1 == name)).map (·.2)

/-! ## The writer -/

/-- The table `hexDigits`. -/
def hexDigit (n : ℕ) : Char := if n < 10 then .ofNat (48 + n) else .ofNat (55 + n)

/-- A character of a string, escaped where the table `escape` says so. -/
def writeChar (c : Char) : List Char :=
  if c = '"' ∨ c = '\\' then ['\\', c]
  else if c.toNat = 8 then ['\\', 'b']
  else if c.toNat = 9 then ['\\', 't']
  else if c.toNat = 10 then ['\\', 'n']
  else if c.toNat = 12 then ['\\', 'f']
  else if c.toNat = 13 then ['\\', 'r']
  else if c.toNat < 32 then ['\\', 'u', '0', '0', hexDigit (c.toNat / 16), hexDigit (c.toNat % 16)]
  else [c]

def writeString (s : String) : List Char := '"' :: (s.toList.flatMap writeChar ++ ['"'])

def writeInt (n : ℤ) : List Char :=
  if n < 0 then '-' :: Nat.toDigits 10 n.natAbs else Nat.toDigits 10 n.natAbs

mutual

/-- `Accept` with a `Writer`: compact JSON. -/
def write : Value → List Char
  | null => ['n', 'u', 'l', 'l']
  | bool true => ['t', 'r', 'u', 'e']
  | bool false => ['f', 'a', 'l', 's', 'e']
  | int n => writeInt n
  | double token => token.toList
  | string s => writeString s
  | array elements => '[' :: (writeElements elements ++ [']'])
  | object members => '{' :: (writeMembers members ++ ['}'])

def writeElements : List Value → List Char
  | [] => []
  | [v] => write v
  | v :: vs => write v ++ ',' :: writeElements vs

def writeMembers : List (String × Value) → List Char
  | [] => []
  | [(name, v)] => writeString name ++ ':' :: write v
  | (name, v) :: ms => writeString name ++ ':' :: (write v ++ ',' :: writeMembers ms)

end

/-! ## Reading a value

Each `get` is an `Is` check with the `Get` that it allows. -/

def getBool : Value → Option Bool
  | bool b => some b
  | _ => none

def getInt : Value → Option ℤ
  | int n => if -2 ^ 31 ≤ n ∧ n < 2 ^ 31 then some n else none
  | _ => none

def getUint : Value → Option ℕ
  | int n => if 0 ≤ n ∧ n < 2 ^ 32 then some n.toNat else none
  | _ => none

def getUint64 : Value → Option UInt64
  | int n => if 0 ≤ n ∧ n < 2 ^ 64 then some (UInt64.ofNat n.toNat) else none
  | _ => none

def getString : Value → Option String
  | string s => some (cString s)
  | _ => none

def getArray : Value → Option (List Value)
  | array elements => some elements
  | _ => none

/-- A member that must be there and of a kind. -/
def require {α : Type} (document : Value) (name missing invalid : String)
    (get : Value → Option α) : Except String α :=
  match document.findMember name with
  | none => .error missing
  | some v =>
    match get v with
    | none => .error invalid
    | some a => .ok a

/-! ## What the checks accept -/

@[simp] theorem bind_ok {ε α β : Type} (a : α) (f : α → Except ε β) :
    (Except.ok a >>= f) = f a := rfl

theorem of_bind_ok {ε α β : Type} {x : Except ε α} {f : α → Except ε β} {b : β}
    (h : (x >>= f) = .ok b) : ∃ a, x = .ok a ∧ f a = .ok b := by
  cases x with
  | error e => cases h
  | ok a => exact ⟨a, rfl, h⟩

theorem of_require {α : Type} {document : Value} {name missing invalid : String}
    {get : Value → Option α} {a : α} (h : document.require name missing invalid get = .ok a) :
    (document.findMember name).bind get = some a := by
  rw [require] at h
  cases hv : document.findMember name with
  | none => rw [hv] at h; cases h
  | some v =>
    rw [hv] at h
    cases hg : get v with
    | none => simp [hg] at h
    | some b => simpa [hg] using h

@[simp] theorem getInt_int (flags : BitVec 32) : getInt (int flags.toInt) = some flags.toInt := by
  have h1 := BitVec.le_toInt flags
  have h2 := BitVec.toInt_lt (x := flags)
  exact if_pos ⟨h1, h2⟩

@[simp] theorem getUint_int {w : ℕ} (hw : w ≤ 32) (n : BitVec w) :
    getUint (int n.toNat) = some n.toNat := by
  have h : n.toNat < 2 ^ 32 := n.isLt.trans_le (Nat.pow_le_pow_right (by decide) hw)
  have h' : (n.toNat : ℤ) < 2 ^ 32 := by exact_mod_cast h
  rw [getUint, if_pos ⟨Int.natCast_nonneg _, h'⟩, Int.toNat_natCast]

@[simp] theorem getUint64_int (n : UInt64) : getUint64 (int n.toNat) = some n := by
  have h : (n.toNat : ℤ) < 2 ^ 64 := by exact_mod_cast n.toNat_lt
  rw [getUint64, if_pos ⟨Int.natCast_nonneg _, h⟩, Int.toNat_natCast, UInt64.ofNat_toNat]

theorem findMember_object (ms : List (String × Value)) (name : String) :
    findMember (object ms) name = (ms.find? (·.1 == name)).map (·.2) := rfl

theorem require_eq {α : Type} {document : Value} {name : String} {v : Value} {a : α}
    {get : Value → Option α} (hv : document.findMember name = some v) (ha : get v = some a)
    (missing invalid : String) : document.require name missing invalid get = .ok a := by
  simp [require, hv, ha]

end Value

end Conntop
