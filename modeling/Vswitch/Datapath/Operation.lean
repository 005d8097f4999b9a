import Vswitch.Datapath.Event
import Vswitch.Exchange.Basic

/-!
# Datapath operations

An operation is a request and a reading of its response. Both can fail: a request whose attributes are
too long is never sent, and a response may be an error or may not read. Operations on a named object
tell apart that it does not exist.

* `Operation`: a request and the reading of its response;
* `Operation.start`: hands the request over to an exchange, if there is one;
* `Operation.getDatapath` and the others: one for each thing that a datapath can be asked.
-/

namespace Vswitch

/-- A request and the reading of its response. -/
structure Operation (α : Type) where
  request : Except DatapathError Request
  finish : Response → Except DatapathError α

namespace Operation

/-! ## Handing a request over -/

/-- Starts an operation on an exchange: its request is submitted for an answer to `responder`. An
operation that has no request fails at once, and the exchange neither changes nor does anything. -/
def start {α : Type} (op : Operation α) (x : Exchange) (responder : Responder) :
    (Exchange × List ExchangeOutput) × Option DatapathError :=
  match op.request with
  | .error error => ((x, []), some error)
  | .ok request => (x.step (.submit (.send request responder)), none)

/-! ## Reading responses -/

/-- The messages of a response. -/
def replies (response : Response) : Except DatapathError (List DatapathMessage) :=
  match response with
  | .error error => .error (.exchange error)
  | .ok messages => messages.mapM DatapathMessage.decode

/-- The messages of a response to an operation on an object; the kernel's word that there is no such
object gives the operation's own error. -/
def repliesOr (notFound : DatapathError) (response : Response) :
    Except DatapathError (List DatapathMessage) :=
  match response with
  | .error error => .error (if error.isNotFound then notFound else .exchange error)
  | .ok messages => messages.mapM DatapathMessage.decode

/-- The reading of the first message, which has to be there. -/
def first {α : Type} (decode : DatapathMessage → Except AttrError α) :
    List DatapathMessage → Except DatapathError α
  | [] => .error (.exchange .emptyReply)
  | m :: _ => (decode m).mapError .attr

/-- The reading of every message. -/
def every {α : Type} (decode : DatapathMessage → Except AttrError α)
    (messages : List DatapathMessage) : Except DatapathError (List α) :=
  messages.mapM fun m => (decode m).mapError .attr

/-- The reading of a flow. -/
def decodeFlow (m : DatapathMessage) : Except AttrError Flow := Flow.decode m.attributes

/-- Asks that the result be sent back and acknowledged. -/
def echoed (r : Request) : Request := (r.withFlags Flag.echo).ack

/-! ## Datapaths -/

/-- All datapaths. -/
def enumerateDatapaths (families : Families) : Operation (List Datapath) where
  request := Request.dump <$> families.request .datapath DatapathCommand.get 0 []
  finish response := do every Datapath.decode (← replies response)

/-- The datapath of a name. -/
def getDatapath (families : Families) (name : String) : Operation Datapath where
  request := families.request .datapath DatapathCommand.get 0 [.text DatapathKind.name name]
  finish response := do
    first Datapath.decode (← repliesOr (.datapathNotFound name) response)

/-- Creates a datapath whose packets without a flow go to `upcallPort`. -/
def createDatapath (families : Families) (upcallPort : UInt32) (name : String) :
    Operation Datapath where
  request := echoed <$> families.request .datapath DatapathCommand.new 0
    [.text DatapathKind.name name, .u32 DatapathKind.upcallPort upcallPort]
  finish response := do first Datapath.decode (← replies response)

/-- Deletes a datapath. -/
def deleteDatapath (families : Families) (datapath : Datapath) : Operation Unit where
  request := Request.ack <$> families.request .datapath DatapathCommand.delete datapath.index
    [.text DatapathKind.name datapath.name]
  finish response := do
    let _ ← repliesOr (.datapathNotFound datapath.name) response

/-! ## Ports -/

/-- All ports of a datapath. -/
def enumeratePorts (families : Families) (datapath : Datapath) : Operation (List Port) where
  request := Request.dump <$> families.request .port DatapathCommand.get datapath.index []
  finish response := do every Port.decode (← replies response)

/-- The port of a name. -/
def getPort (families : Families) (datapath : Datapath) (name : String) : Operation Port where
  request := families.request .port DatapathCommand.get datapath.index [.text PortKind.name name]
  finish response := do first Port.decode (← repliesOr (.portNotFound name) response)

/-- The port of a number. -/
def getPortByNumber (families : Families) (datapath : Datapath) (number : UInt32) :
    Operation Port where
  request := families.request .port DatapathCommand.get datapath.index
    [.u32 PortKind.number number]
  finish response := do
    first Port.decode (← repliesOr (.portNotFound s!"#{number}") response)

/-- Creates a port whose packets without a flow go to `upcallPort`. -/
def createPort (families : Families) (upcallPort : UInt32) (datapath : Datapath)
    (spec : PortSpec) : Operation Port where
  request := echoed <$>
    families.request .port DatapathCommand.new datapath.index (spec.trees upcallPort)
  finish response := do first Port.decode (← replies response)

/-- Deletes a port. -/
def deletePort (families : Families) (port : Port) : Operation Unit where
  request := Request.ack <$> families.request .port DatapathCommand.delete port.datapath
    [.u32 PortKind.number port.number]
  finish response := do
    let _ ← repliesOr (.portNotFound port.name) response

/-! ## Flows -/

/-- Installs a flow. The result is the flow as the datapath sends it back, or the flow itself. -/
def createFlow (families : Families) (datapath : Datapath) (flow : Flow) : Operation Flow where
  request := echoed <$> families.request .flow DatapathCommand.new datapath.index flow.trees
  finish response := do
    match ← replies response with
    | [] => return flow
    | m :: _ => (decodeFlow m).mapError .attr

/-- The flow of a match. -/
def getFlow (families : Families) (datapath : Datapath) (keys : FlowMatch) : Operation Flow where
  request := families.request .flow DatapathCommand.get datapath.index [Flow.keyTree keys]
  finish response := do first decodeFlow (← repliesOr .flowNotFound response)

/-- Deletes the flow of a match. -/
def deleteFlow (families : Families) (datapath : Datapath) (keys : FlowMatch) : Operation Unit where
  request := Request.ack <$> families.request .flow DatapathCommand.delete datapath.index
    [Flow.keyTree keys]
  finish response := do
    let _ ← repliesOr .flowNotFound response

/-- All flows of a datapath. -/
def enumerateFlows (families : Families) (datapath : Datapath) : Operation (List Flow) where
  request := Request.dump <$> families.request .flow DatapathCommand.get datapath.index []
  finish response := do every decodeFlow (← replies response)

/-- Deletes all flows of a datapath. -/
def flushFlows (families : Families) (datapath : Datapath) : Operation Unit where
  request := Request.ack <$> families.request .flow DatapathCommand.delete datapath.index []
  finish response := do
    let _ ← replies response

/-! ## Packets -/

/-- Has a datapath treat a packet. -/
def executePacket (families : Families) (datapath : Datapath) (execution : Execution) :
    Operation Unit where
  request := Request.ack <$> families.request .packet PacketCommand.execute datapath.index
    execution.trees
  finish response := do
    let _ ← replies response

/-! ## Port changes -/

/-- The multicast group to which port changes are announced, which has to be registered. -/
def portGroup (families : Families) : Except DatapathError UInt32 :=
  match families.port.group? Families.portGroup with
  | some group => .ok group
  | none => .error (.missingGroup Families.portGroup)

end Operation

end Vswitch
