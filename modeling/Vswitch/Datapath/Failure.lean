import Vswitch.Exchange.Failure
import Vswitch.Packet.Malformed

/-!
# Failures of datapath operations
-/

namespace Vswitch

/-- The four families of a datapath. -/
inductive DatapathFamily where
  | datapath
  | port
  | flow
  | packet
  deriving DecidableEq, Repr

/-- The name under which a family is registered. -/
def DatapathFamily.label : DatapathFamily → String
  | .datapath => "ovs_datapath"
  | .port => "ovs_vport"
  | .flow => "ovs_flow"
  | .packet => "ovs_packet"

/-- Why a datapath operation fails. -/
inductive DatapathError where
  /-- The request failed. -/
  | exchange (error : ExchangeError)
  /-- A family is not registered. -/
  | missingFamily (family : DatapathFamily)
  /-- A multicast group is not registered. -/
  | missingGroup (name : String)
  | wire (error : MessageError)
  | attr (error : AttrError)
  | packet (error : Malformed)
  | datapathNotFound (name : String)
  | portNotFound (name : String)
  | flowNotFound
  /-- A message does not have the command that it should. -/
  | unexpectedReply (what : String)
  deriving DecidableEq, Repr

namespace DatapathError

/-- The text of the error. -/
def message? : DatapathError → Option String
  | .exchange error => error.message?
  | .missingFamily family =>
    let name := family.label
    some s!"generic netlink family {name} is not registered"
  | .missingGroup name => some s!"multicast group {name} is not registered"
  | .wire error => some error.message
  | .attr error => some error.message
  | .packet error => some error.message
  | .datapathNotFound name => some s!"datapath {name} not found"
  | .portNotFound name => some s!"port {name} not found"
  | .flowNotFound => some "flow not found"
  | .unexpectedReply what => some s!"unexpected reply: {what}"

/-- Whether the object that the operation named does not exist. -/
def isNotFound : DatapathError → Bool
  | .datapathNotFound _ | .portNotFound _ | .flowNotFound => true
  | _ => false

/-- Whether the request reached its deadline. -/
def isTimeout : DatapathError → Bool
  | .exchange .timeout => true
  | _ => false

end DatapathError

end Vswitch
