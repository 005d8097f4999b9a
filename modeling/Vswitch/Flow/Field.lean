import Vswitch.Packet.Ipv4

/-!
# Fields

The sixteen fields that a partial match can constrain, the type of value that each one has, and sets
of fields.

* `Field.Value`: the type of a field's value;
* `Field.accept`: the value that a caller's raw value amounts to, if it is in range;
* `FieldSet`: a set of fields, one bit for each in the order of `Field.all`.
-/

namespace Vswitch

/-- A field that a partial match can constrain. -/
inductive Field where
  | inputPort
  | tunnelId
  | tunnelSource
  | tunnelDestination
  | ethernetSource
  | ethernetDestination
  | etherType
  | vlanId
  | networkSource
  | networkDestination
  | networkProtocol
  | networkTtl
  | networkTos
  | fragmentType
  | transportSource
  | transportDestination
  deriving DecidableEq, Repr, Inhabited

namespace Field

/-- All fields in order. -/
def all : List Field :=
  [inputPort, tunnelId, tunnelSource, tunnelDestination, ethernetSource, ethernetDestination,
    etherType, vlanId, networkSource, networkDestination, networkProtocol, networkTtl, networkTos,
    fragmentType, transportSource, transportDestination]

theorem mem_all (f : Field) : f ∈ all := by cases f <;> decide

/-- The place of a field in the order. -/
def index (f : Field) : Nat := all.idxOf f

/-- The name of a field in error texts. -/
def label : Field → String
  | inputPort => "InputPort"
  | tunnelId => "TunnelId"
  | tunnelSource => "TunnelSource"
  | tunnelDestination => "TunnelDestination"
  | ethernetSource => "EthernetSource"
  | ethernetDestination => "EthernetDestination"
  | etherType => "EtherType"
  | vlanId => "VlanId"
  | networkSource => "NetworkSource"
  | networkDestination => "NetworkDestination"
  | networkProtocol => "NetworkProtocol"
  | networkTtl => "NetworkTtl"
  | networkTos => "NetworkTos"
  | fragmentType => "FragmentType"
  | transportSource => "TransportSource"
  | transportDestination => "TransportDestination"

/-! ## Values -/

/-- The type of a field's value. -/
def Value : Field → Type
  | inputPort => UInt32
  | tunnelId => UInt64
  | tunnelSource | tunnelDestination | networkSource | networkDestination => Ipv4Addr
  | ethernetSource | ethernetDestination => MacAddr
  | etherType | vlanId | transportSource | transportDestination => UInt16
  | networkProtocol | networkTtl | networkTos => UInt8
  | fragmentType => FragmentType

instance decidableEqValue : (f : Field) → DecidableEq f.Value
  | inputPort => inferInstanceAs (DecidableEq UInt32)
  | tunnelId => inferInstanceAs (DecidableEq UInt64)
  | tunnelSource | tunnelDestination | networkSource | networkDestination =>
    inferInstanceAs (DecidableEq Ipv4Addr)
  | ethernetSource | ethernetDestination => inferInstanceAs (DecidableEq MacAddr)
  | etherType | vlanId | transportSource | transportDestination =>
    inferInstanceAs (DecidableEq UInt16)
  | networkProtocol | networkTtl | networkTos => inferInstanceAs (DecidableEq UInt8)
  | fragmentType => inferInstanceAs (DecidableEq FragmentType)

/-- The type of what a caller hands in for a field: ports come in a wider word than they have. -/
def Raw : Field → Type
  | transportSource | transportDestination => UInt32
  | f => f.Value

end Field

/-- Why a value is refused for a field. -/
inductive FieldError where
  | outOfRange (field : Field) (value : Nat)
  deriving DecidableEq, Repr

/-- The text of a field error. -/
def FieldError.message : FieldError → String
  | .outOfRange field value =>
    let name := field.label
    s!"{value} is out of range for {name}"

namespace Field

/-- The greatest VLAN id. -/
def maxVlanId : UInt16 := 0x0fff

/-- A VLAN id, unless it exceeds twelve bits. -/
def acceptVlanId (raw : UInt16) : Except FieldError UInt16 :=
  if maxVlanId < raw then .error (.outOfRange vlanId raw.toNat) else .ok raw

/-- A port, unless it exceeds sixteen bits. -/
def acceptPort (field : Field) (raw : UInt32) : Except FieldError UInt16 :=
  if raw.toNat < 65536 then .ok raw.toUInt16 else .error (.outOfRange field raw.toNat)

/-- The value that a raw value amounts to. Only VLAN ids and ports can be out of range. -/
def accept : (f : Field) → f.Raw → Except FieldError f.Value
  | vlanId, raw => acceptVlanId raw
  | transportSource, raw => acceptPort transportSource raw
  | transportDestination, raw => acceptPort transportDestination raw
  | inputPort, raw | tunnelId, raw | tunnelSource, raw | tunnelDestination, raw
  | ethernetSource, raw | ethernetDestination, raw | etherType, raw | networkSource, raw
  | networkDestination, raw | networkProtocol, raw | networkTtl, raw | networkTos, raw
  | fragmentType, raw => .ok raw

end Field

/-! ## Sets of fields -/

/-- A set of fields. -/
structure FieldSet where
  has : Field → Bool

namespace FieldSet

@[ext] theorem ext {a b : FieldSet} (h : ∀ f, a.has f = b.has f) : a = b := by
  cases a; cases b; congr; exact funext h

/-- No field. -/
def empty : FieldSet := ⟨fun _ => false⟩

/-- Every field. -/
def all : FieldSet := ⟨fun _ => true⟩

/-- The fields of a list. -/
def ofList (fields : List Field) : FieldSet := ⟨fun f => fields.contains f⟩

/-- The fields of either set. -/
def union (a b : FieldSet) : FieldSet := ⟨fun f => a.has f || b.has f⟩

/-- The fields of both sets. -/
def inter (a b : FieldSet) : FieldSet := ⟨fun f => a.has f && b.has f⟩

/-- The fields of the first set that are not in the second. -/
def diff (a b : FieldSet) : FieldSet := ⟨fun f => a.has f && !b.has f⟩

/-- The fields that are not in the set. -/
def compl (a : FieldSet) : FieldSet := ⟨fun f => !a.has f⟩

/-- The fields of the set in order. -/
def fields (a : FieldSet) : List Field := Field.all.filter a.has

/-- The number of fields. -/
def size (a : FieldSet) : Nat := a.fields.length

/-- The set as a word with one bit for each field in order. -/
def bits (a : FieldSet) : Nat := a.fields.foldl (fun word f => word ||| 1 <<< f.index) 0

/-- Whether every field of the first set is in the second. -/
def isSubset (a b : FieldSet) : Bool := a.fields.all b.has

/-- Whether the set has no field. -/
def isEmpty (a : FieldSet) : Bool := a.fields.isEmpty

/-- Whether the set has every field. -/
def isAll (a : FieldSet) : Bool := Field.all.all a.has

@[simp] theorem mem_fields {a : FieldSet} {f : Field} : f ∈ a.fields ↔ a.has f = true := by
  simp [fields, Field.mem_all]

/-- Inclusion is inclusion of the members. -/
theorem isSubset_iff {a b : FieldSet} :
    a.isSubset b = true ↔ ∀ f, a.has f = true → b.has f = true := by
  simp [isSubset]

end FieldSet

end Vswitch
