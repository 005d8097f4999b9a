import Vswitch.Datapath.Families
import Vswitch.Flow.Entry

/-!
# Packets between a datapath and its user

Packets that a datapath sends up, and packets that it is told to treat by given actions.
-/

namespace Vswitch

namespace PacketCommand

def miss : UInt8 := 1
def action : UInt8 := 2
def execute : UInt8 := 3

end PacketCommand

namespace PacketKind

def packet : UInt16 := 1
def key : UInt16 := 2
def actions : UInt16 := 3
def userdata : UInt16 := 4

end PacketKind

/-- Why a packet was sent up. -/
inductive UpcallKind where
  /-- No flow matched. -/
  | miss
  /-- An action said so. -/
  | action
  deriving DecidableEq, Repr

/-- A packet that a datapath sent up. -/
structure Upcall where
  kind : UpcallKind
  datapath : Int32
  /-- The octets of the frame. -/
  packet : Bytes
  /-- The keys that the datapath took out of it. -/
  keys : FlowMatch
  /-- What the action added. -/
  userdata : Option Bytes
  deriving DecidableEq, Repr

namespace Upcall

/-- The reason that a command tells. -/
def kindOf? (command : UInt8) : Option UpcallKind :=
  if command = PacketCommand.miss then some .miss
  else if command = PacketCommand.action then some .action
  else none

/-- Reads the packet and its keys. -/
def decodeBody (kind : UpcallKind) (m : DatapathMessage) : Except AttrError Upcall := do
  let packet ← m.attributes.require PacketKind.packet
  let keys ← FlowMatch.decode (← m.attributes.read Attr.asNested PacketKind.key)
  return ⟨kind, m.index, packet.value, keys, m.attributes.value? PacketKind.userdata⟩

/-- Reads a packet that was sent up. -/
def decode (m : DatapathMessage) : Except DatapathError Upcall :=
  match kindOf? m.header.command with
  | none => .error (.unexpectedReply "packet command")
  | some kind => (decodeBody kind m).mapError .attr

/-- The frame of the packet. -/
def frame (u : Upcall) : Except Malformed Ethernet := Ethernet.decode u.packet

end Upcall

/-! ## Packets to be treated -/

/-- A packet and what the datapath is to do with it. -/
structure Execution where
  packet : Bytes
  keys : FlowMatch
  actions : List FlowAction
  deriving DecidableEq, Repr

namespace Execution

/-- The attributes of an execution. -/
def trees (e : Execution) : List AttrTree :=
  [.leaf PacketKind.packet e.packet, .node PacketKind.key e.keys.trees,
    .node PacketKind.actions (FlowAction.trees e.actions)]

/-- Reads an execution. -/
def decode (attrs : Attributes) : Except AttrError Execution := do
  let packet ← attrs.require PacketKind.packet
  let keys ← FlowMatch.decode (← attrs.read Attr.asNested PacketKind.key)
  let actions ← FlowAction.decodeAll (← attrs.read Attr.asNested PacketKind.actions)
  return ⟨packet.value, keys, actions⟩

end Execution

end Vswitch
