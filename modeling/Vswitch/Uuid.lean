import Vswitch.Bytes
import Vswitch.Hex

/-!
# Identifiers

The 128-bit identifiers that name devices and ports of the virtual topology. The text is five groups
of lowercase digits, 8-4-4-4-12.
-/

namespace Vswitch

/-- A 128-bit identifier, as the two halves of its text. -/
structure Uuid where
  high : UInt64
  low : UInt64
  deriving DecidableEq, Repr, Inhabited

namespace Uuid

/-- The sixteen octets in the order of the text. -/
def octets (u : Uuid) : Bytes := Bytes.be64 u.high ++ Bytes.be64 u.low

/-- The lowercase text with hyphens after 8, 12, 16 and 20 digits. -/
def text (u : Uuid) : String :=
  let high := Hex.digits 16 u.high.toNat
  let low := Hex.digits 16 u.low.toNat
  String.ofList (high.take 8 ++ '-' :: ((high.drop 8).take 4) ++ '-' :: high.drop 12
    ++ '-' :: low.take 4 ++ '-' :: low.drop 4)

/-- Reads thirty-two digits of either case, wherever the hyphens stand. -/
def ofText? (s : String) : Option Uuid :=
  let digits := s.toList.filter (· != '-')
  if digits.length = 32 then
    (Hex.ofDigits? digits).map fun n => ⟨UInt64.ofNat (n / UInt64.size), UInt64.ofNat n⟩
  else
    none

@[simp] theorem length_octets (u : Uuid) : u.octets.length = 16 := by simp [octets]

end Uuid

end Vswitch
