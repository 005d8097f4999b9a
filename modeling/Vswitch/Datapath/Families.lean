import Vswitch.Datapath.Failure
import Vswitch.Netlink.Family

/-!
# Families and messages of a datapath

Every message of the four families carries the index of the datapath that it is about, between the
generic header and the attributes.
-/

namespace Vswitch

/-! ## Resolved families -/

namespace DatapathFamily

/-- All families, in the order in which they are resolved. -/
def all : List DatapathFamily := [.datapath, .port, .flow, .packet]

/-- The version of a family that requests announce. -/
def requestVersion : DatapathFamily → UInt8
  | .datapath => 2
  | .port | .flow | .packet => 1

end DatapathFamily

/-! ## Commands that datapaths, ports and flows share -/

namespace DatapathCommand

def new : UInt8 := 1
def delete : UInt8 := 2
def get : UInt8 := 3

end DatapathCommand

/-- What the kernel registered for each family. -/
structure Families where
  datapath : Family
  port : Family
  flow : Family
  packet : Family
  deriving DecidableEq, Repr

namespace Families

/-- The group to which port changes are announced. -/
def portGroup : String := "ovs_vport"

/-- What was registered for a family. -/
def get (f : Families) : DatapathFamily → Family
  | .datapath => f.datapath
  | .port => f.port
  | .flow => f.flow
  | .packet => f.packet

/-- The family of a message type. -/
def ofType? (f : Families) (type : UInt16) : Option DatapathFamily :=
  DatapathFamily.all.find? fun family => (f.get family).id == type

/-- The response to the question for one family: unknown names are missing families. -/
def ofResponse (family : DatapathFamily) (response : Response) : Except DatapathError Family :=
  match Family.ofResponse response with
  | .ok found => .ok found
  | .error error => .error (if error.isNotFound then .missingFamily family else .exchange error)

/-- The first failure among the responses that have come. -/
def failure? (responses : DatapathFamily → Option Response) : Option DatapathError :=
  DatapathFamily.all.findSome? fun family =>
    match (responses family).map (ofResponse family) with
    | some (.error error) => some error
    | _ => none

/-- All families once every response has come, or the first failure as soon as it has. -/
def collect (responses : DatapathFamily → Option Response) :
    Option (Except DatapathError Families) :=
  match failure? responses with
  | some error => some (.error error)
  | none => do
    let found (family : DatapathFamily) : Option Family := do
      (ofResponse family (← responses family)).toOption
    return .ok ⟨← found .datapath, ← found .port, ← found .flow, ← found .packet⟩

/-- A request to a family about a datapath; fails if an attribute is too long. -/
def request (f : Families) (family : DatapathFamily) (command : UInt8) (index : Int32)
    (trees : List AttrTree) : Except DatapathError Request := do
  let body ← ((AttrTree.body (Bytes.le32 index.toUInt32) trees).finish).mapError .attr
  return (Request.ofCommand (f.get family).id command family.requestVersion).withBody body

end Families

/-! ## Messages -/

/-- A message of one of the families. -/
structure DatapathMessage where
  header : GenericHeader
  /-- The datapath that the message is about. -/
  index : Int32
  attributes : Attributes
  deriving DecidableEq, Repr

namespace DatapathMessage

/-- Octets of the header that names the datapath. -/
def headerLength : Nat := 4

/-- Reads a message. -/
def decode (m : Message) : Except DatapathError DatapathMessage := do
  let (header, body) ← m.genericParts.mapError .wire
  if body.length < headerLength then
    throw (.wire (.truncated .datapathHeader headerLength body.length))
  let attributes ← (Attr.parse (body.drop headerLength)).mapError .attr
  return ⟨header, (body.le32At 0).toInt32, attributes⟩

/-- A message of a family about a datapath. -/
def encode (family : UInt16) (command version : UInt8) (index : Int32) (trees : List AttrTree) :
    Except AttrError Message := do
  let body ← (AttrTree.body (Bytes.le32 index.toUInt32) trees).finish
  return Message.generic family 0 ⟨command, version⟩ body

end DatapathMessage

end Vswitch
