import Vswitch.Address
import Vswitch.Packet.Malformed

/-!
# LLDP

A frame is a sequence of elements, each a 7-bit type, a 9-bit length and a value, up to an element of
type 0 or the end of the data. The types 1, 2 and 3 are mandatory and name chassis, port and time to
live; of several elements of such a type the last one counts. All others are optional and keep their
order.
-/

namespace Vswitch

/-- An element of a frame, within the bounds of its type and length fields. -/
structure LldpTlv where
  type : UInt8
  value : Bytes
  type_le : type.toNat ≤ 127
  length_le : value.length ≤ 511
  deriving DecidableEq, Repr

/-- A frame: three mandatory elements and the others. -/
structure Lldp where
  chassisId : LldpTlv
  portId : LldpTlv
  ttl : LldpTlv
  optional : List LldpTlv
  deriving DecidableEq, Repr

namespace LldpTlv

/-! ## Types -/

def typeEnd : UInt8 := 0
def typeChassisId : UInt8 := 1
def typePortId : UInt8 := 2
def typeTimeToLive : UInt8 := 3

/-- An element, unless its type or value does not fit. -/
def ofValue (type : UInt8) (value : Bytes) : Except Malformed LldpTlv :=
  if ht : type.toNat ≤ 127 then
    if hl : value.length ≤ 511 then .ok ⟨type, value, ht, hl⟩
    else .error (.invalidField .lldp .tlvLength value.length)
  else .error (.invalidField .lldp .tlvType type.toNat)

/-- The octets of an element. -/
def encode (t : LldpTlv) : Bytes :=
  Bytes.be16 ((t.type.toUInt16 <<< 9) ||| (UInt16.ofNat t.value.length &&& 0x1ff)) ++ t.value

/-- Reads the first element of a string, and what follows it. -/
def decode (data : Bytes) : Except Malformed (LldpTlv × Bytes) := do
  expectOctets .lldp 2 data
  let word := (data.be16At 0).toNat
  let len := word % 512
  expectOctets .lldp (2 + len) data
  return (⟨UInt8.ofNat (word / 512), data.slice 2 len,
    by have := (data.be16At 0).toNat_lt; simp only [UInt8.toNat_ofNat', word]; omega,
    by have := Nat.mod_lt word (show 0 < 512 by decide); simp only [Bytes.length_slice]; omega⟩,
    data.drop (2 + len))

/-- Reading an element takes octets off the string. -/
theorem length_rest_of_decode {data rest : Bytes} {t : LldpTlv} (h : decode data = .ok (t, rest)) :
    rest.length < data.length := by
  simp only [decode, expectOctets, bind, Except.bind, pure, Except.pure] at h
  split at h
  · cases h
  split at h
  · cases h
  rename_i fits
  split at fits
  · rename_i covers
    rw [Bytes.covers_iff] at covers
    simp only [Except.ok.injEq, Prod.mk.injEq] at h
    rw [← h.2, List.length_drop]
    omega
  · cases fits

/-- The elements of a string up to the end mark or the end of the string. -/
def decodeAll (data : Bytes) : Except Malformed (List LldpTlv) :=
  if data = [] then .ok []
  else
    match _h : decode data with
    | .error e => .error e
    | .ok (t, rest) =>
      if t.type = typeEnd then .ok []
      else do
        let later ← decodeAll rest
        return t :: later
termination_by data.length
decreasing_by exact length_rest_of_decode ‹_›

/-- Whether a frame files the element under a field of its own. -/
def isMandatory (t : LldpTlv) : Bool :=
  t.type == typeChassisId || t.type == typePortId || t.type == typeTimeToLive

end LldpTlv

namespace Lldp

/-- A frame that names the chassis by its address and the port by its name. -/
def announce (chassis : MacAddr) (portName : String) (ttl : UInt16) : Except Malformed Lldp := do
  let chassisId ← LldpTlv.ofValue LldpTlv.typeChassisId (4 :: chassis.octets)
  let portId ← LldpTlv.ofValue LldpTlv.typePortId (5 :: portName.toUTF8.toList)
  return ⟨chassisId, portId, ← LldpTlv.ofValue LldpTlv.typeTimeToLive (Bytes.be16 ttl), []⟩

/-- The last element of a mandatory type. -/
def lastOf (type : UInt8) (field : PacketField) (tlvs : List LldpTlv) : Except Malformed LldpTlv :=
  match (tlvs.filter (·.type == type)).getLast? with
  | some t => .ok t
  | none => .error (.missing .lldp field)

/-- The frame that a list of elements makes up. -/
def ofTlvs (tlvs : List LldpTlv) : Except Malformed Lldp := do
  let chassisId ← lastOf LldpTlv.typeChassisId .chassisId tlvs
  let portId ← lastOf LldpTlv.typePortId .portId tlvs
  let ttl ← lastOf LldpTlv.typeTimeToLive .timeToLive tlvs
  return ⟨chassisId, portId, ttl, tlvs.filter (!·.isMandatory)⟩

/-- Reads a frame. -/
def decode (data : Bytes) : Except Malformed Lldp := do
  ofTlvs (← LldpTlv.decodeAll data)

/-- The elements of a frame in the order in which they are written. -/
def tlvs (l : Lldp) : List LldpTlv := l.chassisId :: l.portId :: l.ttl :: l.optional

/-- Appends the frame and its end mark to a buffer. -/
def appendTo (l : Lldp) (buffer : Bytes) : Bytes :=
  buffer ++ l.tlvs.flatMap LldpTlv.encode ++ Bytes.zeros 2

/-- The octets of the frame. -/
def encode (l : Lldp) : Bytes := l.appendTo []

end Lldp

end Vswitch
