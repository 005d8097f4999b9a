import Vswitch.Bytes

/-!
# Attribute streams

A netlink body ends in a stream of attributes: a 16-bit length that counts its own four octets of
header, a 16-bit type, the value, and zeros up to a multiple of four. The two highest bits of a type
are flags: a nested stream, and a value in network order. The last attribute may lack its padding.

* `Attr.parse`: the attributes of a stream, every declared length checked against what remains;
* `AttrError`: why a stream or a value is refused.
-/

namespace Vswitch

/-- Why an attribute cannot be read or written. -/
inductive AttrError where
  /-- No attribute of the kind is there. -/
  | missing (kind : UInt16)
  /-- The value has the wrong width. -/
  | invalidLength (kind : UInt16) (expected actual : Nat)
  /-- The value is outside its enumeration. -/
  | invalidValue (kind : UInt16) (value : Nat)
  /-- The value is no text. -/
  | invalidString (kind : UInt16)
  /-- The declared length exceeds what remains. -/
  | overrun (declared remaining : Nat)
  /-- The declared length does not cover the header. -/
  | tooShort (len : Nat)
  /-- The attribute exceeds its 16-bit length field. -/
  | tooLong (kind : UInt16) (len : Nat)
  deriving DecidableEq, Repr

/-- The text of an attribute error. -/
def AttrError.message : AttrError → String
  | .missing kind => s!"attribute {kind} is missing"
  | .invalidLength kind expected actual => s!"attribute {kind} has {actual} bytes, expected {expected}"
  | .invalidValue kind value => s!"attribute {kind} has invalid value {value}"
  | .invalidString kind => s!"attribute {kind} is not a valid string"
  | .overrun declared remaining => s!"attribute declares {declared} bytes but only {remaining} remain"
  | .tooShort len => s!"attribute length {len} is shorter than its header"
  | .tooLong kind len => s!"attribute {kind} needs {len} bytes, more than its length field can hold"

/-- One attribute: the type as it stands on the wire, flags included, and the value. -/
structure Attr where
  type : UInt16
  value : Bytes
  deriving DecidableEq, Repr

/-- An ordered stream of attributes. -/
abbrev Attributes := List Attr

namespace Attr

/-- Octets of an attribute's header. -/
def headerLength : Nat := 4

/-- The type flag of an attribute whose value is a stream. -/
def nestedFlag : UInt16 := 0x8000

/-- The type bits that name the kind, without the two flags. -/
def kindMask : UInt16 := 0x3fff

/-- The type without its flags. -/
def kind (a : Attr) : UInt16 := a.type &&& kindMask

/-- Whether the type carries the nested flag. -/
def isNested (a : Attr) : Bool := a.type &&& nestedFlag != 0

/-- The attributes of a stream. -/
def parse (data : Bytes) : Except AttrError Attributes :=
  if data = [] then
    .ok []
  else
    let len := (data.le16At 0).toNat
    if ¬ data.Covers headerLength then
      .error (.overrun headerLength data.length)
    else if len < headerLength then
      .error (.tooShort len)
    else if ¬ data.Covers len then
      .error (.overrun len data.length)
    else do
      let rest ← parse (data.drop (Bytes.align4 len))
      return ⟨data.le16At 2, data.slice headerLength (len - headerLength)⟩ :: rest
termination_by data.length
decreasing_by
  rename_i nonempty _ long _
  have := List.length_pos_iff.mpr nonempty
  simp only [headerLength, Nat.not_lt] at long
  simp only [List.length_drop, Bytes.align4]
  omega

end Attr

end Vswitch
