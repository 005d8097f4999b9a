import Vswitch.Address

/-!
# The Internet checksum

The one's complement of the one's complement sum of the data, taken as 16-bit words in network order
with a zero after an odd last octet.

* `Checksum.sum`: adds data to a running sum;
* `Checksum.finish`: folds the carries back in and complements;
* `PseudoHeader`: the addresses that a transport checksum covers besides its segment.
-/

namespace Vswitch

namespace Checksum

/-- Adds the words of `data` to a running sum. -/
def sum : (acc : UInt64) → (data : Bytes) → UInt64
  | acc, hi :: lo :: rest => sum (acc + UInt64.ofNat (256 * hi.toNat + lo.toNat)) rest
  | acc, [last] => acc + UInt64.ofNat (256 * last.toNat)
  | acc, [] => acc

/-- Adds what exceeds sixteen bits back to the low sixteen bits until nothing does. -/
def foldCarries (acc : UInt64) : UInt64 :=
  if acc < 65536 then acc else foldCarries (acc % 65536 + acc / 65536)
termination_by acc.toNat
decreasing_by
  rename_i large
  have bound := acc.toNat_lt
  simp only [UInt64.lt_iff_toNat_lt, UInt64.reduceToNat, Nat.not_lt] at large
  simp only [UInt64.toNat_add, UInt64.toNat_mod, UInt64.toNat_div, UInt64.reduceToNat]
  rw [Nat.mod_eq_of_lt (by omega)]
  omega

/-- The checksum that a running sum amounts to. -/
def finish (acc : UInt64) : UInt16 := ~~~(foldCarries acc).toUInt16

/-- The checksum of `data`. -/
def ofBytes (data : Bytes) : UInt16 := finish (sum 0 data)

end Checksum

/-- The addresses that a transport checksum covers, handed down by the enclosing header. -/
structure PseudoHeader where
  source : Ipv4Addr
  destination : Ipv4Addr
  deriving DecidableEq, Repr, Inhabited

namespace PseudoHeader

/-- The sum of the addresses, the protocol and the transport length. -/
def sum (p : PseudoHeader) (protocol : UInt8) (length : UInt16) : UInt64 :=
  Checksum.sum (Checksum.sum 0 p.source.octets) p.destination.octets
    + UInt64.ofNat protocol.toNat + UInt64.ofNat length.toNat

/-- The transport checksum of a segment whose own checksum is zero. -/
def checksum (p : PseudoHeader) (protocol : UInt8) (segment : Bytes) : UInt16 :=
  Checksum.finish (Checksum.sum (p.sum protocol (UInt16.ofNat segment.length)) segment)

end PseudoHeader

end Vswitch
