import Mathlib.Data.String.Basic
import Mathlib.Order.Fin.Basic

/-!
# Network connections

The data types of `Address.hpp`, `Port.hpp`, `ASN.hpp`, `Country.hpp` and `Connection.hpp`.

A pointer to an `AddressData` or a `PortData` is modelled by the address or port it belongs
to, and a pointer to a `ConnectionData` by its `Connection`: each is a node of a map of
`ConnectionStorage`, found by that key, and a node never moves. A dangling pointer is a
connection that is no key of the map any more.

A `std::string` is a `String` with one `Char` for each byte, an `int` of flags a `BitVec 32`.
-/

namespace Conntop

/-! ## Addresses and ports -/

/-- Network address type (L3 protocol). -/
inductive EAddressType
  | ip4 | ip6
  deriving DecidableEq, Repr

/-- `AddressIP4` and `AddressIP6`: the raw address in 32-bit blocks. -/
inductive Address
  | ip4 (raw : BitVec 32)
  | ip6 (raw0 raw1 raw2 raw3 : BitVec 32)
  deriving DecidableEq, Repr

def Address.getType : Address → EAddressType
  | ip4 _ => .ip4
  | ip6 .. => .ip6

/-- `inet_ntop` and `inet_pton`, inverse to each other on the text of an address, which is a
C string. -/
structure InetText where
  ntop : Address → String
  pton4 : String → Option (BitVec 32)
  pton6 : String → Option (BitVec 32 × BitVec 32 × BitVec 32 × BitVec 32)
  pton4_ntop : ∀ a, pton4 (ntop (.ip4 a)) = some a
  pton6_ntop : ∀ a b c d, pton6 (ntop (.ip6 a b c d)) = some (a, b, c, d)
  nul_notMem : ∀ a, '\x00' ∉ (ntop a).toList

/-- Network port type (L4 protocol). -/
inductive EPortType
  | udp | tcp
  deriving DecidableEq, Repr

structure Port where
  type : EPortType
  number : BitVec 16
  deriving DecidableEq, Repr

/-- Autonomous system number and the name of its organization; zero is no AS. -/
structure ASN where
  number : BitVec 32 := 0
  orgName : String := ""
  deriving DecidableEq, Repr

/-- `Country::ECode`: `ZZ` (unknown) is zero, 249 assigned codes follow in order. -/
abbrev ECode := Fin 250

/-- `AddressData`: what is cached and resolved for an address. -/
structure AddressData where
  numericString : String
  isHostnameResolved : Bool := false
  isASNResolved : Bool := false
  isCountryResolved : Bool := false
  hostname : String := ""
  asn : ASN := {}
  country : ECode := 0
  deriving DecidableEq, Repr

/-- `PortData`: what is resolved for a port. -/
structure PortData where
  isServiceResolved : Bool := false
  service : String := ""
  deriving DecidableEq, Repr

/-! ## Connections -/

inductive EConnectionType
  | udp4 | udp6 | tcp4 | tcp6
  deriving DecidableEq, Repr

namespace EConnectionType

/-- The numeric value of the enumerator. -/
def toNat : EConnectionType → ℕ
  | udp4 => 0
  | udp6 => 1
  | tcp4 => 2
  | tcp6 => 3

/-- `Connection::CreateType`. -/
def createType : EAddressType → EPortType → EConnectionType
  | .ip4, .udp => udp4
  | .ip4, .tcp => tcp4
  | .ip6, .udp => udp6
  | .ip6, .tcp => tcp6

/-- `Connection::Internal::hasPorts`. -/
def hasPorts : EConnectionType → Bool
  | udp4 | udp6 | tcp4 | tcp6 => true

/-- `Connection::IsProtoEqual`. -/
def isProtoEqual : EConnectionType → EConnectionType → Bool
  | udp4, b | udp6, b => b == udp4 || b == udp6
  | tcp4, b | tcp6, b => b == tcp4 || b == tcp6

end EConnectionType

/-- A 5-tuple. Both addresses and both ports have one type, as everything that builds a
`Connection` guarantees. -/
@[ext]
structure Connection where
  srcAddr : Address
  srcPort : Port
  dstAddr : Address
  dstPort : Port
  addrType_eq : dstAddr.getType = srcAddr.getType
  portType_eq : dstPort.type = srcPort.type
  deriving DecidableEq, Repr

namespace Connection

def getType (c : Connection) : EConnectionType :=
  .createType c.srcAddr.getType c.srcPort.type

def hasPorts (c : Connection) : Bool := c.getType.hasPorts

@[simp] theorem hasPorts_eq (c : Connection) : c.hasPorts = true := by
  unfold hasPorts EConnectionType.hasPorts
  split <;> rfl

/-- Whether the connection has the address at one of its ends. -/
def hasAddr (c : Connection) (a : Address) : Bool := c.srcAddr == a || c.dstAddr == a

def hasPort (c : Connection) (p : Port) : Bool := c.srcPort == p || c.dstPort == p

end Connection

structure ConnectionTraffic where
  rxPackets : UInt64 := 0
  txPackets : UInt64 := 0
  rxBytes : UInt64 := 0
  txBytes : UInt64 := 0
  rxSpeed : UInt64 := 0
  txSpeed : UInt64 := 0
  deriving DecidableEq, Repr

/-- `ConnectionData`: the traffic and the protocol state. -/
structure ConnectionData where
  traffic : ConnectionTraffic := {}
  state : Int := 0
  deriving DecidableEq, Repr

/-! ## Flags -/

/-- An `int` used as a set of bit flags. -/
abbrev Flags := BitVec 32

/-- `flags & mask` as a condition. -/
def Flags.test (flags mask : Flags) : Bool := flags &&& mask != 0

namespace EConnectionUpdateFlags

def proto : Flags := 1 <<< 0
def protoState : Flags := 1 <<< 1
def srcAddress : Flags := 1 <<< 2
def dstAddress : Flags := 1 <<< 3
def srcPort : Flags := 1 <<< 4
def dstPort : Flags := 1 <<< 5
def rxPackets : Flags := 1 <<< 6
def txPackets : Flags := 1 <<< 7
def rxBytes : Flags := 1 <<< 8
def txBytes : Flags := 1 <<< 9
def rxSpeed : Flags := 1 <<< 10
def txSpeed : Flags := 1 <<< 11

end EConnectionUpdateFlags

namespace Flags

@[simp] theorem test_or (a b m : Flags) : test (a ||| b) m = (test a m || test b m) := by
  have h : (a ||| b) &&& m = 0 ↔ a &&& m = 0 ∧ b &&& m = 0 := by
    simp only [← BitVec.toNat_inj, BitVec.toNat_and, BitVec.toNat_or, BitVec.ofNat_eq_ofNat,
      BitVec.toNat_ofNat, Nat.zero_mod, Nat.and_or_distrib_right, Nat.or_eq_zero_iff]
  rw [Bool.eq_iff_iff]
  simp only [test, bne_iff_ne, ne_eq, Bool.or_eq_true, h, not_and_or]

/-- All flags are set in `-1`. -/
theorem test_neg_one (m : Flags) (h : m ≠ 0) : test (-1) m = true := by
  have : (-1 : Flags) &&& m = m := by
    rw [show (-1 : Flags) = BitVec.allOnes 32 from rfl, BitVec.allOnes_and]
  rw [test, this]
  simpa using h

@[simp] theorem test_zero (m : Flags) : test 0#32 m = false := by simp [test]

end Flags

/-! ## Sort modes -/

inductive EConnectionSortMode
  | none | proto | protoState
  | srcAddress | srcHostname | srcASN | srcCountry | srcPort | srcService
  | dstAddress | dstHostname | dstASN | dstCountry | dstPort | dstService
  | rxPackets | txPackets | rxBytes | txBytes | rxSpeed | txSpeed
  deriving DecidableEq, Repr

end Conntop
