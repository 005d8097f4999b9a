import Vswitch.Flow.Key

/-!
# Flow actions

What a datapath does with a packet that a flow matches. An action of a kind that is not modelled is
carried through with its value.
-/

namespace Vswitch

/-! ## Kinds of attributes -/

namespace ActionKind

def output : UInt16 := 1
def userspace : UInt16 := 2
def set : UInt16 := 3
def pushVlan : UInt16 := 4
def popVlan : UInt16 := 5

end ActionKind

namespace UserspaceKind

def pid : UInt16 := 1
def userdata : UInt16 := 2

end UserspaceKind

/-! ## Actions -/

/-- One action. -/
inductive FlowAction where
  /-- Send the packet out of a port of the datapath. -/
  | output (port : UInt32)
  /-- Send the packet up to the netlink port `pid`. -/
  | userspace (pid : UInt32) (userdata : Option Bytes)
  /-- Overwrite the header fields of a key. -/
  | set : FlowKey → FlowAction
  /-- Push a VLAN tag of a protocol with a control word. -/
  | pushVlan (tpid tci : UInt16)
  | popVlan
  /-- An action of another kind, with its value as it came. -/
  | unknown (type : UInt16) (value : Bytes)
  deriving DecidableEq, Repr, Inhabited

namespace FlowAction

/-- Pushes a VLAN tag of the usual protocol. -/
def pushTag (tci : UInt16) : FlowAction := .pushVlan EtherType.vlan tci

/-- The action that an attribute spells. -/
def decode (a : Attr) : Except AttrError FlowAction :=
  let kind := a.kind
  if kind = ActionKind.output then return .output (← a.asU32)
  else if kind = ActionKind.userspace then do
    let attrs ← a.asNested
    let pid ← attrs.read Attr.asU32 UserspaceKind.pid
    return .userspace pid (attrs.value? UserspaceKind.userdata)
  else if kind = ActionKind.set then do
    match ← a.asNested with
    | [] => throw (.missing ActionKind.set)
    | key :: _ => return .set (← FlowKey.decode key)
  else if kind = ActionKind.pushVlan then do
    let raw ← a.exactly 4
    return .pushVlan (raw.be16At 0) (raw.be16At 2)
  else if kind = ActionKind.popVlan then return .popVlan
  else return .unknown kind a.value

/-- The attribute that spells an action. -/
def tree : FlowAction → AttrTree
  | .output port => .u32 ActionKind.output port
  | .userspace pid userdata =>
    .node ActionKind.userspace
      (.u32 UserspaceKind.pid pid :: (userdata.map (.leaf UserspaceKind.userdata)).toList)
  | .set key => .node ActionKind.set [key.tree]
  | .pushVlan tpid tci => .leaf ActionKind.pushVlan (Bytes.be16 tpid ++ Bytes.be16 tci)
  | .popVlan => .flag ActionKind.popVlan
  | .unknown type value => .leaf type value

/-- The actions that a stream spells. -/
def decodeAll (attrs : Attributes) : Except AttrError (List FlowAction) := attrs.mapM decode

/-- The attributes of several actions. -/
def trees (actions : List FlowAction) : List AttrTree := actions.map tree

end FlowAction

end Vswitch
