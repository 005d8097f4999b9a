import Vswitch.Flow.Field
import Vswitch.Flow.Match

/-!
# Partial matches

A partial match sets some fields and leaves the others open. Matches serve as keys of maps, and an
entry stored under a full match is looked up by a projection of it. For that a projection remembers
the values of the match that it was cut from and stands for them when it is hashed, and a projection
equals any match that sets its fields to the same values. A hasher sees no more than a digest of the
values, and which digest that is does not matter here: it is a parameter.

* `WildcardMatch.project`, `WildcardMatch.covers`, `WildcardMatch.fingerprint`;
* `WildcardMatch.hashBy`, `WildcardMatch.equalBy`, `WildcardMatch.equal`: matches as keys of maps;
* `WildcardMatch.ofFlowMatch` and `WildcardMatch.toFlowMatch`: from and to exact keys.
-/

namespace Vswitch

/-! ## Values of fields -/

/-- The value of each field, or none. -/
structure FieldValues where
  inputPort : Option UInt32
  tunnelId : Option UInt64
  tunnelSource : Option Ipv4Addr
  tunnelDestination : Option Ipv4Addr
  ethernetSource : Option MacAddr
  ethernetDestination : Option MacAddr
  etherType : Option UInt16
  vlanId : Option UInt16
  networkSource : Option Ipv4Addr
  networkDestination : Option Ipv4Addr
  networkProtocol : Option UInt8
  networkTtl : Option UInt8
  networkTos : Option UInt8
  fragmentType : Option FragmentType
  transportSource : Option UInt16
  transportDestination : Option UInt16
  deriving DecidableEq

namespace FieldValues

/-- The value of a field. -/
def get (v : FieldValues) : (f : Field) → Option f.Value
  | .inputPort => v.inputPort
  | .tunnelId => v.tunnelId
  | .tunnelSource => v.tunnelSource
  | .tunnelDestination => v.tunnelDestination
  | .ethernetSource => v.ethernetSource
  | .ethernetDestination => v.ethernetDestination
  | .etherType => v.etherType
  | .vlanId => v.vlanId
  | .networkSource => v.networkSource
  | .networkDestination => v.networkDestination
  | .networkProtocol => v.networkProtocol
  | .networkTtl => v.networkTtl
  | .networkTos => v.networkTos
  | .fragmentType => v.fragmentType
  | .transportSource => v.transportSource
  | .transportDestination => v.transportDestination

instance : CoeFun FieldValues fun _ => (f : Field) → Option f.Value := ⟨get⟩

/-- The values that a function gives to the fields. -/
def ofFn (value : (f : Field) → Option f.Value) : FieldValues where
  inputPort := value .inputPort
  tunnelId := value .tunnelId
  tunnelSource := value .tunnelSource
  tunnelDestination := value .tunnelDestination
  ethernetSource := value .ethernetSource
  ethernetDestination := value .ethernetDestination
  etherType := value .etherType
  vlanId := value .vlanId
  networkSource := value .networkSource
  networkDestination := value .networkDestination
  networkProtocol := value .networkProtocol
  networkTtl := value .networkTtl
  networkTos := value .networkTos
  fragmentType := value .fragmentType
  transportSource := value .transportSource
  transportDestination := value .transportDestination

@[simp] theorem get_ofFn (value : (f : Field) → Option f.Value) (f : Field) :
    (ofFn value).get f = value f := by
  cases f <;> rfl

@[simp] theorem ofFn_get (v : FieldValues) : ofFn v.get = v := rfl

/-- Assignments are equal when they agree on every field. -/
@[ext] theorem ext {v w : FieldValues} (h : ∀ f, v f = w f) : v = w := by
  rw [← ofFn_get v, ← ofFn_get w, funext h]

/-- No field is set. -/
def empty : FieldValues := ofFn fun _ => none

/-- The values with one field changed. -/
def update (v : FieldValues) (field : Field) (value : Option field.Value) : FieldValues :=
  ofFn fun f => if h : f = field then h ▸ value else v f

/-- The fields that are set. -/
def used (v : FieldValues) : FieldSet := ⟨fun f => (v f).isSome⟩

/-- The values of the fields of a set, all others open. -/
def restrict (v : FieldValues) (fields : FieldSet) : FieldValues :=
  ofFn fun f => if fields.has f then v f else none

/-- Whether two assignments agree on every field of a set. -/
def agreeOn (v w : FieldValues) (fields : FieldSet) : Bool := fields.fields.all fun f => v f == w f

@[simp] theorem update_self (v : FieldValues) (field : Field) (value : Option field.Value) :
    v.update field value field = value := by
  simp [update]

@[simp] theorem update_ne (v : FieldValues) {field f : Field} (value : Option field.Value)
    (h : f ≠ field) : v.update field value f = v f := by
  simp [update, h]

theorem agreeOn_iff {v w : FieldValues} {fields : FieldSet} :
    v.agreeOn w fields = true ↔ ∀ f, fields.has f = true → v f = w f := by
  simp [agreeOn]

end FieldValues

/-! ## Partial matches -/

/-- A partial match: the values of its fields and, for a projection, those of its source. -/
structure WildcardMatch where
  values : FieldValues
  source : Option FieldValues
  deriving DecidableEq

namespace WildcardMatch

/-- The match that leaves every field open. -/
def empty : WildcardMatch := ⟨FieldValues.empty, none⟩

/-- The value of a field. -/
def get? (m : WildcardMatch) (f : Field) : Option f.Value := m.values f

/-- The fields that are set. -/
def used (m : WildcardMatch) : FieldSet := m.values.used

/-- Whether the match was cut from another and not changed since. -/
def isProjection (m : WildcardMatch) : Bool := m.source.isSome

/-- What the match stands for when it is hashed: the values of its source, or its own. -/
def fingerprint (m : WildcardMatch) : FieldValues := m.source.getD m.values

/-- Sets a field to an accepted value; the match is no projection any more. -/
def put (m : WildcardMatch) (f : Field) (value : f.Value) : WildcardMatch :=
  ⟨m.values.update f (some value), none⟩

/-- Sets a field, unless the raw value is out of range. -/
def set (m : WildcardMatch) (f : Field) (raw : f.Raw) : Except FieldError WildcardMatch :=
  return m.put f (← f.accept raw)

/-- Leaves a field open; the match is no projection any more. -/
def unset (m : WildcardMatch) (f : Field) : WildcardMatch := ⟨m.values.update f none, none⟩

/-- The match restricted to a set of fields. A projection of a projection remembers the first
source. -/
def project (m : WildcardMatch) (fields : FieldSet) : WildcardMatch :=
  ⟨m.values.restrict fields, some m.fingerprint⟩

/-- Whether every field that the match sets has the same value in `flow`. -/
def covers (m flow : WildcardMatch) : Bool :=
  m.used.isSubset flow.used && m.values.agreeOn flow.values m.used

/-- What the match writes into a hasher: the digest of what it stands for. -/
def hashBy {δ : Type} (digest : FieldValues → δ) (m : WildcardMatch) : δ := digest m.fingerprint

/-- The digest of its source that a projection remembers. -/
def origin {δ : Type} (digest : FieldValues → δ) (m : WildcardMatch) : Option δ :=
  m.source.map digest

/-- Equality as keys of a map, when sources are told apart by a digest of their values. Full matches
compare all fields; a projection and a full match compare the fields of the projection; two projections
need the same digest, comparable fields and the same values on those that both set. -/
def equalBy {δ : Type} [DecidableEq δ] (digest : FieldValues → δ) (a b : WildcardMatch) : Bool :=
  match a.origin digest, b.origin digest with
  | none, none => a.values == b.values
  | some _, none => a.used.isSubset b.used && a.values.agreeOn b.values a.used
  | none, some _ => b.used.isSubset a.used && b.values.agreeOn a.values b.used
  | some s, some t =>
    s == t && (a.used.isSubset b.used || b.used.isSubset a.used)
      && a.values.agreeOn b.values (a.used.inter b.used)

/-- Equality as keys of a map when no two sources collide. -/
def equal (a b : WildcardMatch) : Bool := a.equalBy id b

/-! ## From exact keys -/

/-- A field with the value that it is given, which may be none. -/
structure FieldUpdate where
  field : Field
  value : Option field.Value

/-- A field that is given a value. -/
def FieldUpdate.some (f : Field) (value : f.Value) : FieldUpdate := ⟨f, Option.some value⟩

/-- The fields that a key carries. Type and code of ICMP stand in the place of ports; ARP fills the
fields of the network layer; a tunnel key carries its fields also where it lacks them. -/
def fieldsOfKey : FlowKey → List FieldUpdate
  | .inPort port => [.some .inputPort port]
  | .ethernet source destination =>
    [.some .ethernetSource source, .some .ethernetDestination destination]
  | .etherType type => [.some .etherType type]
  | .vlan word =>
    if word &&& FlowKey.vlanPresent = 0 then [] else [.some .vlanId (word &&& Field.maxVlanId)]
  | .ipv4 key =>
    [.some .networkSource key.source, .some .networkDestination key.destination,
      .some .networkProtocol key.protocol, .some .networkTos key.tos, .some .networkTtl key.ttl,
      .some .fragmentType key.fragment]
  | .tcp source destination | .udp source destination =>
    [.some .transportSource source, .some .transportDestination destination]
  | .icmp type code =>
    [.some .transportSource type.toUInt16, .some .transportDestination code.toUInt16]
  | .arp key =>
    [.some .networkSource key.senderIp, .some .networkDestination key.targetIp,
      .some .networkProtocol key.operation.toUInt8]
  | .tunnel key =>
    [⟨.tunnelId, key.id⟩, ⟨.tunnelSource, key.source⟩, ⟨.tunnelDestination, key.destination⟩]
  | .priority _ | .skbMark _ | .unknown _ _ => []

/-- Sets every field that the keys carry; a later key overwrites an earlier one. -/
def ofFlowMatch (keys : FlowMatch) : WildcardMatch :=
  ⟨(keys.flatMap fieldsOfKey).foldl (fun v u => v.update u.field u.value) FieldValues.empty, none⟩

/-- The partial match of a frame received on a port. -/
def ofFrame (frame : Ethernet) (inPort : UInt32) : WildcardMatch :=
  ofFlowMatch (FlowMatch.ofFrame frame inPort)

/-! ## To exact keys -/

/-- The fields that a network key bundles. -/
def networkFields : FieldSet :=
  .ofList [.networkSource, .networkDestination, .networkProtocol, .networkTtl, .networkTos,
    .fragmentType]

/-- The value of a field, or a default. -/
def valueOr (m : WildcardMatch) (f : Field) (default : f.Value) : f.Value := (m.get? f).getD default

/-- Whether one of several fields is set. -/
def setsAny (m : WildcardMatch) (fields : FieldSet) : Bool := !(fields.inter m.used).isEmpty

/-- The key of the tunnel fields, if one of them is set. -/
def tunnelKeys (m : WildcardMatch) : FlowMatch :=
  if m.setsAny (.ofList [.tunnelId, .tunnelSource, .tunnelDestination]) then
    [.tunnel ⟨m.get? .tunnelId, m.get? .tunnelSource, m.get? .tunnelDestination, none, none, false,
      false⟩]
  else []

/-- The key of the link-layer addresses, if one of them is set. -/
def ethernetKeys (m : WildcardMatch) : FlowMatch :=
  if m.setsAny (.ofList [.ethernetSource, .ethernetDestination]) then
    [.ethernet (m.valueOr .ethernetSource MacAddr.zero)
      (m.valueOr .ethernetDestination MacAddr.zero)]
  else []

/-- The key of the network layer, if one of its fields is set. -/
def networkKeys (m : WildcardMatch) : FlowMatch :=
  if m.setsAny networkFields then
    [.ipv4 ⟨m.valueOr .networkSource Ipv4Addr.unspecified,
      m.valueOr .networkDestination Ipv4Addr.unspecified,
      m.valueOr .networkProtocol (0 : UInt8), m.valueOr .networkTos (0 : UInt8),
      m.valueOr .networkTtl (0 : UInt8), m.valueOr .fragmentType FragmentType.none⟩]
  else []

/-- The key of the transport layer, if a port is set and the protocol has one. -/
def transportKeys (m : WildcardMatch) : FlowMatch :=
  if m.setsAny (.ofList [.transportSource, .transportDestination]) then
    let source : UInt16 := m.valueOr .transportSource (0 : UInt16)
    let destination : UInt16 := m.valueOr .transportDestination (0 : UInt16)
    match m.get? .networkProtocol with
    | none => []
    | some (protocol : UInt8) =>
      if protocol = IpProtocol.tcp then [.tcp source destination]
      else if protocol = IpProtocol.udp then [.udp source destination]
      else if protocol = IpProtocol.icmp then [.icmp source.toUInt8 destination.toUInt8]
      else []
  else []

/-- The exact keys of the fields that are set. A key that bundles several fields is there when one of
them is set, and the others are zero in it. -/
def toFlowMatch (m : WildcardMatch) : FlowMatch :=
  ((m.get? .inputPort).map fun port => .inPort port).toList ++ m.tunnelKeys ++ m.ethernetKeys
    ++ ((m.get? .vlanId).map fun (id : UInt16) => .vlan (FlowKey.vlanPresent ||| id)).toList
    ++ ((m.get? .etherType).map fun type => .etherType type).toList ++ m.networkKeys
    ++ m.transportKeys

end WildcardMatch

end Vswitch
