import Vswitch.Attribute.Tree
import Vswitch.Attribute.Value
import Vswitch.Exchange.Request

/-!
# Families

The families of generic netlink: the number, version and multicast groups that the kernel assigned to a
name, and the request that asks the controller for them.
-/

namespace Vswitch

namespace FamilyKind

def id : UInt16 := 1
def name : UInt16 := 2
def version : UInt16 := 3
def headerSize : UInt16 := 4
def maxAttribute : UInt16 := 5
def groups : UInt16 := 7

end FamilyKind

namespace GroupKind

def name : UInt16 := 1
def id : UInt16 := 2

end GroupKind

/-- A family as the kernel registered it. -/
structure Family where
  name : String
  id : UInt16
  version : UInt32
  /-- Octets of the family's own header. -/
  headerSize : UInt32
  maxAttribute : UInt32
  /-- Multicast groups under different names. -/
  groups : List (String × UInt32)
  deriving DecidableEq, Repr, Inhabited

namespace Family

/-- The command that asks for a family. -/
def getCommand : UInt8 := 3

/-- The version of the controller. -/
def controllerVersion : UInt8 := 1

/-- Groups with one more; a name that is there keeps the newer number. -/
def insertGroup (groups : List (String × UInt32)) (name : String) (id : UInt32) :
    List (String × UInt32) :=
  groups.filter (·.1 != name) ++ [(name, id)]

/-- One group, a nested stream whatever its kind. -/
def decodeGroup (a : Attr) : Except AttrError (String × UInt32) := do
  let attrs ← a.asNested
  let name ← attrs.read Attr.asText GroupKind.name
  let id ← attrs.read Attr.asU32 GroupKind.id
  return (name, id)

/-- All groups of a stream. -/
def decodeGroups (attrs : Attributes) : Except AttrError (List (String × UInt32)) := do
  let groups ← attrs.mapM decodeGroup
  return groups.foldl (fun known g => insertGroup known g.1 g.2) []

/-- The family that a stream describes. -/
def decodeAttributes (attrs : Attributes) : Except AttrError Family := do
  let groups ←
    match ← attrs.read? Attr.asNested FamilyKind.groups with
    | some stream => decodeGroups stream
    | none => pure []
  let name ← attrs.read Attr.asText FamilyKind.name
  let id ← attrs.read Attr.asU16 FamilyKind.id
  let version ← attrs.read? Attr.asU32 FamilyKind.version
  let headerSize ← attrs.read? Attr.asU32 FamilyKind.headerSize
  let maxAttribute ← attrs.read? Attr.asU32 FamilyKind.maxAttribute
  return ⟨name, id, version.getD 0, headerSize.getD 0, maxAttribute.getD 0, groups⟩

/-- The family that a message of the controller describes. -/
def decode (m : Message) : Except ExchangeError Family := do
  let (_, attrs) ← (m.attributes 0).mapError .wire
  (decodeAttributes attrs).mapError .attr

/-- The family that a response describes, by its first message. -/
def ofResponse (response : Response) : Except ExchangeError Family := do
  match ← response with
  | [] => throw .emptyReply
  | first :: _ => decode first

/-- The number of a multicast group. -/
def group? (f : Family) (name : String) : Option UInt32 := f.groups.lookup name

/-- The request for the family of a name. -/
def getRequest (name : String) : Except AttrError Request := do
  let body ← (AttrTree.body [] [.text FamilyKind.name name]).finish
  return (Request.ofCommand MessageType.controller getCommand controllerVersion).withBody body

/-- The attributes of several groups, under running types from one on. -/
def groupTrees (groups : List (String × UInt32)) : List AttrTree :=
  groups.zipIdx.map fun (g, i) =>
    .node (UInt16.ofNat (i + 1)) [.text GroupKind.name g.1, .u32 GroupKind.id g.2]

/-- The attributes that describe a family. -/
def trees (f : Family) : List AttrTree :=
  [.text FamilyKind.name f.name, .u16 FamilyKind.id f.id, .u32 FamilyKind.version f.version,
    .u32 FamilyKind.headerSize f.headerSize, .u32 FamilyKind.maxAttribute f.maxAttribute]
    ++ if f.groups.isEmpty then [] else [.node FamilyKind.groups (groupTrees f.groups)]

end Family

end Vswitch
