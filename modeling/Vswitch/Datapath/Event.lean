import Vswitch.Datapath.Port
import Vswitch.Datapath.Upcall

/-!
# Events

What a datapath says without being asked.
-/

namespace Vswitch

/-- An unsolicited message of a datapath. -/
inductive DatapathEvent where
  | portCreated (port : Port)
  | portDeleted (port : Port)
  | upcall (upcall : Upcall)
  /-- Any other message, as it came. -/
  | other (message : Message)
  deriving DecidableEq, Repr

namespace DatapathEvent

/-- The event that a notification tells. Messages about ports other than of creation and deletion are
read only to see that they are well formed. -/
def decode (families : Families) (m : Message) : Except DatapathError DatapathEvent :=
  match families.ofType? m.type with
  | some .port => do
    let report ← DatapathMessage.decode m
    if report.header.command = DatapathCommand.new then
      return .portCreated (← (Port.decode report).mapError .attr)
    else if report.header.command = DatapathCommand.delete then
      return .portDeleted (← (Port.decode report).mapError .attr)
    else
      return .other m
  | some .packet => do
    return .upcall (← Upcall.decode (← DatapathMessage.decode m))
  | some .datapath | some .flow | none => .ok (.other m)

end DatapathEvent

end Vswitch
