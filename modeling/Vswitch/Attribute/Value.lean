import Vswitch.Address
import Vswitch.Attribute.Basic

/-!
# Attribute values

Typed readings of a value and look-up by kind. A value has exactly the width of its type; a stream is
looked up by kind, the first attribute of a kind answers, and absence is told apart from a value that
does not read.
-/

namespace Vswitch

/-- The text that octets spell in UTF-8. -/
def Bytes.utf8? (data : Bytes) : Option String :=
  String.fromUTF8? (ByteArray.mk data.toArray)

namespace Attr

/-! ## Readings of one value -/

/-- The value, when it has exactly `width` octets. -/
def exactly (a : Attr) (width : Nat) : Except AttrError Bytes :=
  if a.value.length = width then .ok a.value
  else .error (.invalidLength a.kind width a.value.length)

/-- The value, when it has at least `least` octets; `width` is what the error asks for. -/
def atLeast (a : Attr) (width least : Nat) : Except AttrError Bytes :=
  if a.value.length < least then .error (.invalidLength a.kind width a.value.length)
  else .ok a.value

/-- One octet. -/
def asU8 (a : Attr) : Except AttrError UInt8 := return (← a.exactly 1).octet 0

/-- Two octets in host order. -/
def asU16 (a : Attr) : Except AttrError UInt16 := return (← a.exactly 2).le16At 0

/-- Four octets in host order. -/
def asU32 (a : Attr) : Except AttrError UInt32 := return (← a.exactly 4).le32At 0

/-- Eight octets in host order. -/
def asU64 (a : Attr) : Except AttrError UInt64 := return (← a.exactly 8).le64At 0

/-- Four octets in host order, as a signed word. -/
def asI32 (a : Attr) : Except AttrError Int32 := return (← a.asU32).toInt32

/-- Two octets in network order. -/
def asBe16 (a : Attr) : Except AttrError UInt16 := return (← a.exactly 2).be16At 0

/-- Four octets in network order. -/
def asBe32 (a : Attr) : Except AttrError UInt32 := return (← a.exactly 4).be32At 0

/-- Eight octets in network order. -/
def asBe64 (a : Attr) : Except AttrError UInt64 :=
  return UInt64.ofNat (Bytes.ofBigEndian (← a.exactly 8))

/-- A network address in its four octets. -/
def asIpv4 (a : Attr) : Except AttrError Ipv4Addr := return Ipv4Addr.ofBytes (← a.exactly 4) 0

/-- The value as text: one zero octet may close it, any other zero octet or bad UTF-8 is refused. -/
def asText (a : Attr) : Except AttrError String :=
  let text := if a.value.getLast? = some 0 then a.value.dropLast else a.value
  if text.contains 0 then .error (.invalidString a.kind)
  else
    match Bytes.utf8? text with
    | some s => .ok s
    | none => .error (.invalidString a.kind)

/-- The value as a stream of its own. -/
def asNested (a : Attr) : Except AttrError Attributes := parse a.value

end Attr

namespace Attributes

/-! ## Look-up by kind -/

/-- The first attribute of a kind. -/
def attr? (attrs : Attributes) (kind : UInt16) : Option Attr := attrs.find? (·.kind == kind)

/-- Whether an attribute of the kind is there. -/
def has (attrs : Attributes) (kind : UInt16) : Bool := (attrs.attr? kind).isSome

/-- The first attribute of a kind, which has to be there. -/
def require (attrs : Attributes) (kind : UInt16) : Except AttrError Attr :=
  match attrs.attr? kind with
  | some a => .ok a
  | none => .error (.missing kind)

/-- A typed reading of the first attribute of a kind, which has to be there. -/
def read {α : Type} (attrs : Attributes) (as : Attr → Except AttrError α) (kind : UInt16) :
    Except AttrError α := do
  as (← attrs.require kind)

/-- A typed reading of the first attribute of a kind, if it is there. -/
def read? {α : Type} (attrs : Attributes) (as : Attr → Except AttrError α) (kind : UInt16) :
    Except AttrError (Option α) :=
  match attrs.attr? kind with
  | some a => (as a).map some
  | none => .ok none

/-- The raw value of the first attribute of a kind, if it is there. -/
def value? (attrs : Attributes) (kind : UInt16) : Option Bytes := (attrs.attr? kind).map (·.value)

end Attributes

end Vswitch
