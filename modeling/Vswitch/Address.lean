import Vswitch.Bytes
import Vswitch.Hex

/-!
# Addresses

Link-layer and network addresses as the octets that travel, with their usual text.
-/

namespace Vswitch

/-! ## Link layer -/

/-- A 48-bit link-layer address, first octet on the wire first. -/
structure MacAddr where
  a : UInt8
  b : UInt8
  c : UInt8
  d : UInt8
  e : UInt8
  f : UInt8
  deriving DecidableEq, Repr

namespace MacAddr

/-- The all-zero address, which names no one. -/
def zero : MacAddr := ⟨0, 0, 0, 0, 0, 0⟩

/-- The all-ones address, which names every station. -/
def broadcast : MacAddr := ⟨255, 255, 255, 255, 255, 255⟩

instance : Inhabited MacAddr := ⟨zero⟩

/-- The six octets in wire order. -/
def octets (m : MacAddr) : Bytes := [m.a, m.b, m.c, m.d, m.e, m.f]

/-- The address at offset `i` of a packet. -/
def ofBytes (data : Bytes) (i : Nat) : MacAddr :=
  ⟨data.octet i, data.octet (i + 1), data.octet (i + 2), data.octet (i + 3), data.octet (i + 4),
    data.octet (i + 5)⟩

/-- Whether every station is addressed. -/
def isBroadcast (m : MacAddr) : Bool := m == broadcast

/-- Whether the group bit, the lowest of the first octet, is set. -/
def isMulticast (m : MacAddr) : Bool := m.a.toNat % 2 == 1

/-- Six pairs of lowercase digits between colons. -/
def text (m : MacAddr) : String :=
  String.intercalate ":" (m.octets.map fun o => Hex.text 2 o.toNat)

/-- Reads six octets of hexadecimal digits between colons. -/
def ofText? (s : String) : Option MacAddr := do
  let parts ← (s.splitOn ":").mapM fun part => Hex.ofDigits? part.toList
  match parts.map UInt8.ofNat with
  | [a, b, c, d, e, f] => some ⟨a, b, c, d, e, f⟩
  | _ => none

@[simp] theorem length_octets (m : MacAddr) : m.octets.length = 6 := by simp [octets]

/-- An address is read back from the front of any string that starts with its octets. -/
@[simp] theorem ofBytes_octets (m : MacAddr) (rest : Bytes) : ofBytes (m.octets ++ rest) 0 = m := rfl

end MacAddr

/-! ## Network layer -/

/-- An IPv4 address, most significant octet first. -/
structure Ipv4Addr where
  a : UInt8
  b : UInt8
  c : UInt8
  d : UInt8
  deriving DecidableEq, Repr

namespace Ipv4Addr

/-- The address `0.0.0.0`, which stands for no address. -/
def unspecified : Ipv4Addr := ⟨0, 0, 0, 0⟩

instance : Inhabited Ipv4Addr := ⟨unspecified⟩

/-- The four octets in wire order. -/
def octets (ip : Ipv4Addr) : Bytes := [ip.a, ip.b, ip.c, ip.d]

/-- The address at offset `i` of a packet. -/
def ofBytes (data : Bytes) (i : Nat) : Ipv4Addr :=
  ⟨data.octet i, data.octet (i + 1), data.octet (i + 2), data.octet (i + 3)⟩

/-- Four decimal octets between dots. -/
def text (ip : Ipv4Addr) : String :=
  String.intercalate "." (ip.octets.map fun o => o.toNat.repr)

/-- Reads four decimal octets between dots. -/
def ofText? (s : String) : Option Ipv4Addr := do
  let parts ← (s.splitOn ".").mapM String.toNat?
  match parts.map UInt8.ofNat with
  | [a, b, c, d] => some ⟨a, b, c, d⟩
  | _ => none

@[simp] theorem length_octets (ip : Ipv4Addr) : ip.octets.length = 4 := by simp [octets]

/-- An address is read back from the front of any string that starts with its octets. -/
@[simp] theorem ofBytes_octets (ip : Ipv4Addr) (rest : Bytes) :
    ofBytes (ip.octets ++ rest) 0 = ip := rfl

end Ipv4Addr

end Vswitch
