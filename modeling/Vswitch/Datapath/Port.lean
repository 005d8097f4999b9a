import Vswitch.Datapath.Families

/-!
# Datapaths and ports

What a datapath reports about itself and about its ports, and what is asked for when a port is
created.
-/

namespace Vswitch

/-! ## Datapaths -/

namespace DatapathKind

def name : UInt16 := 1
def upcallPort : UInt16 := 2
def stats : UInt16 := 3
def userFeatures : UInt16 := 5

end DatapathKind

/-- The look-up counters of a datapath. -/
structure DatapathStats where
  /-- Packets that hit a flow. -/
  hit : UInt64
  /-- Packets sent up for lack of a flow. -/
  missed : UInt64
  /-- Packets that could not be sent up. -/
  lost : UInt64
  flows : UInt64
  deriving DecidableEq, Repr, Inhabited

namespace DatapathStats

/-- The counters in thirty-two octets. -/
def ofAttr (a : Attr) : Except AttrError DatapathStats := do
  let raw ← a.exactly 32
  return ⟨raw.le64At 0, raw.le64At 8, raw.le64At 16, raw.le64At 24⟩

/-- The thirty-two octets of the counters. -/
def octets (s : DatapathStats) : Bytes :=
  Bytes.le64 s.hit ++ Bytes.le64 s.missed ++ Bytes.le64 s.lost ++ Bytes.le64 s.flows

end DatapathStats

/-- A datapath, named by the index of its interface. -/
structure Datapath where
  index : Int32
  name : String
  stats : Option DatapathStats := none
  userFeatures : Option UInt32 := none
  deriving DecidableEq, Repr, Inhabited

/-- Reads the report on a datapath. -/
def Datapath.decode (m : DatapathMessage) : Except AttrError Datapath := do
  let name ← m.attributes.read Attr.asText DatapathKind.name
  let stats ← m.attributes.read? DatapathStats.ofAttr DatapathKind.stats
  let userFeatures ← m.attributes.read? Attr.asU32 DatapathKind.userFeatures
  return ⟨m.index, name, stats, userFeatures⟩

/-! ## Ports -/

namespace PortKind

def number : UInt16 := 1
def type : UInt16 := 2
def name : UInt16 := 3
def options : UInt16 := 4
def upcallPort : UInt16 := 5
def stats : UInt16 := 6

end PortKind

/-- What a port is connected to. -/
inductive PortType where
  | netdev
  | internal
  | gre
  | vxlan
  | geneve
  /-- A type without a name of its own. -/
  | other (number : UInt32)
  deriving DecidableEq, Repr, Inhabited

namespace PortType

/-- The type of a number. -/
def ofNumber (number : UInt32) : PortType :=
  if number = 1 then .netdev
  else if number = 2 then .internal
  else if number = 3 then .gre
  else if number = 4 then .vxlan
  else if number = 5 then .geneve
  else .other number

/-- The number of a type. -/
def number : PortType → UInt32
  | .netdev => 1
  | .internal => 2
  | .gre => 3
  | .vxlan => 4
  | .geneve => 5
  | .other number => number

/-- The name of a type. -/
def text : PortType → String
  | .netdev => "netdev"
  | .internal => "internal"
  | .gre => "gre"
  | .vxlan => "vxlan"
  | .geneve => "geneve"
  | .other number => s!"type {number}"

end PortType

/-- The counters of a port. -/
structure PortStats where
  rxPackets : UInt64
  txPackets : UInt64
  rxBytes : UInt64
  txBytes : UInt64
  rxErrors : UInt64
  txErrors : UInt64
  rxDropped : UInt64
  txDropped : UInt64
  deriving DecidableEq, Repr, Inhabited

/-- The counters in sixty-four octets. -/
def PortStats.ofAttr (a : Attr) : Except AttrError PortStats := do
  let raw ← a.exactly 64
  return ⟨raw.le64At 0, raw.le64At 8, raw.le64At 16, raw.le64At 24, raw.le64At 32, raw.le64At 40,
    raw.le64At 48, raw.le64At 56⟩

/-- A port of a datapath. -/
structure Port where
  datapath : Int32
  number : UInt32
  type : PortType
  name : String
  /-- The netlink port to which packets without a flow are sent. -/
  upcallPort : Option UInt32 := none
  stats : Option PortStats := none
  /-- Options of the type, as they came. -/
  options : Option Bytes := none
  deriving DecidableEq, Repr

/-- Reads the report on a port. -/
def Port.decode (m : DatapathMessage) : Except AttrError Port := do
  let attrs := m.attributes
  let number ← attrs.read Attr.asU32 PortKind.number
  let type ← attrs.read Attr.asU32 PortKind.type
  let name ← attrs.read Attr.asText PortKind.name
  let upcallPort ← attrs.read? Attr.asU32 PortKind.upcallPort
  let stats ← attrs.read? PortStats.ofAttr PortKind.stats
  return ⟨m.index, number, PortType.ofNumber type, name, upcallPort, stats,
    attrs.value? PortKind.options⟩

/-- A port to be created. -/
structure PortSpec where
  name : String
  type : PortType
  /-- The number that is asked for; the datapath picks one otherwise. -/
  number : Option UInt32 := none
  /-- Options of the type, as they are sent. -/
  options : Option Bytes := none
  deriving DecidableEq, Repr, Inhabited

/-- The attributes of a port to be created, whose packets without a flow go to `upcallPort`. -/
def PortSpec.trees (s : PortSpec) (upcallPort : UInt32) : List AttrTree :=
  [.text PortKind.name s.name, .u32 PortKind.type s.type.number,
    .u32 PortKind.upcallPort upcallPort]
    ++ (s.number.map (AttrTree.u32 PortKind.number)).toList
    ++ (s.options.map (AttrTree.leaf PortKind.options)).toList

end Vswitch
