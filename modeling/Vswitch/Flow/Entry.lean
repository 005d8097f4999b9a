import Vswitch.Flow.Action
import Vswitch.Flow.Match

/-!
# Flows

An entry of a datapath's flow table: an exact match, the actions for packets that hit it, and counters
that the datapath reports and that are never sent.
-/

namespace Vswitch

namespace FlowKind

def key : UInt16 := 1
def actions : UInt16 := 2
def stats : UInt16 := 3
def tcpFlags : UInt16 := 4
def used : UInt16 := 5

end FlowKind

/-- The counters of a flow. -/
structure FlowStats where
  packets : UInt64
  bytes : UInt64
  deriving DecidableEq, Repr, Inhabited

/-- An entry of a flow table. -/
structure Flow where
  keys : FlowMatch
  actions : List FlowAction
  /-- Reported by the datapath. -/
  stats : Option FlowStats := none
  /-- All control bits seen on the flow, as reported by the datapath. -/
  tcpFlags : Option UInt8 := none
  /-- The time of the last hit, as reported by the datapath. -/
  lastUsed : Option UInt64 := none
  deriving DecidableEq, Repr

namespace Flow

/-- The counters in sixteen octets. -/
def decodeStats (a : Attr) : Except AttrError FlowStats := do
  let raw ← a.exactly 16
  return ⟨raw.le64At 0, raw.le64At 8⟩

/-- The flow that a stream spells. -/
def decode (attrs : Attributes) : Except AttrError Flow := do
  let keys ← FlowMatch.decode (← attrs.read Attr.asNested FlowKind.key)
  let actions ←
    match ← attrs.read? Attr.asNested FlowKind.actions with
    | some stream => FlowAction.decodeAll stream
    | none => pure []
  let stats ← attrs.read? decodeStats FlowKind.stats
  let tcpFlags ← attrs.read? Attr.asU8 FlowKind.tcpFlags
  let lastUsed ← attrs.read? Attr.asU64 FlowKind.used
  return { keys, actions, stats, tcpFlags, lastUsed }

/-- The attribute of a match. -/
def keyTree (keys : FlowMatch) : AttrTree := .node FlowKind.key keys.trees

/-- The attributes of a flow: its match and its actions. -/
def trees (f : Flow) : List AttrTree :=
  [keyTree f.keys, .node FlowKind.actions (FlowAction.trees f.actions)]

end Flow

end Vswitch
