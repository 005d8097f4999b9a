import Vswitch.Attribute.Basic
import Vswitch.Netlink.Header

/-!
# Netlink messages

A message is a header and a payload. The payload of a generic message is a generic header, a header
of the family's own, and an attribute stream; the payload of an error message is a code and the
header of the request that it answers.
-/

namespace Vswitch

/-! ## Errors -/

/-- The part of a message that was cut short. -/
inductive MessagePart where
  | netlinkHeader
  | netlinkMessage
  | genericHeader
  | familyHeader
  | datapathHeader
  | errorMessage
  deriving DecidableEq, Repr

/-- The name of a part in error texts. -/
def MessagePart.label : MessagePart → String
  | .netlinkHeader => "netlink header"
  | .netlinkMessage => "netlink message"
  | .genericHeader => "generic netlink header"
  | .familyHeader => "family header"
  | .datapathHeader => "ovs header"
  | .errorMessage => "error message"

/-- Why a message cannot be read or written. -/
inductive MessageError where
  /-- Fewer octets are there than the part needs. -/
  | truncated (part : MessagePart) (needed available : Nat)
  /-- The length is no length of a message. -/
  | invalidLength (len : Nat)
  /-- The message is of another type. -/
  | unexpectedType (type : UInt16)
  /-- The attribute stream is malformed. -/
  | attr (error : AttrError)
  deriving DecidableEq, Repr

/-- The text of a message error. -/
def MessageError.message : MessageError → String
  | .truncated part needed available =>
    let what := part.label
    s!"{what} truncated: need {needed} bytes, {available} available"
  | .invalidLength len => s!"invalid netlink message length {len}"
  | .unexpectedType type => s!"unexpected message type {type}"
  | .attr error =>
    let cause := error.message
    s!"attribute error: {cause}"

/-! ## Messages -/

/-- A netlink message: its header and all that follows, without padding. -/
structure Message where
  header : Header
  payload : Bytes
  deriving DecidableEq, Repr, Inhabited

/-- The payload of an error message. A zero code acknowledges. -/
structure ErrorReport where
  /-- Zero, or a negated error number. -/
  code : Int32
  /-- The header of the request, when it was sent back. -/
  request : Option Header
  deriving DecidableEq, Repr

namespace ErrorReport

/-- Reads the payload of an error message. -/
def decode (payload : Bytes) : Except MessageError ErrorReport :=
  if payload.length < 4 then .error (.truncated .errorMessage 4 payload.length)
  else
    let rest := payload.drop 4
    .ok ⟨(payload.le32At 0).toInt32,
      if rest.length < Header.size then none else some (Header.decode rest)⟩

/-- Whether the report acknowledges. -/
def isAck (r : ErrorReport) : Bool := r.code == 0

/-- The negated code; the least code has no negation and gives the greatest number. -/
def errno (r : ErrorReport) : Int32 := if r.code = Int32.minValue then Int32.maxValue else -r.code

end ErrorReport

namespace Message

/-- A message with its length filled in, and no sequence number or port. -/
def ofPayload (type flags : UInt16) (payload : Bytes) : Message :=
  ⟨⟨UInt32.ofNat (Header.size + payload.length), type, flags, 0, 0⟩, payload⟩

/-- A generic message: the generic header and then `body`. -/
def generic (family flags : UInt16) (header : GenericHeader) (body : Bytes) : Message :=
  ofPayload family flags (header.encode ++ body)

/-- The message with another sequence number. -/
def withSeq (m : Message) (seq : UInt32) : Message := { m with header.seq := seq }

/-- The message with another port. -/
def withPort (m : Message) (port : UInt32) : Message := { m with header.port := port }

/-- The message with other flags. -/
def withFlags (m : Message) (flags : UInt16) : Message := { m with header.flags := flags }

/-- The error reply to the request with header `request`. -/
def errorReply (request : Header) (code : Int32) : Message :=
  ((ofPayload MessageType.error 0 (Bytes.le32 code.toUInt32 ++ request.encode)).withSeq
    request.seq).withPort request.port

/-- The end of a reply in several parts. -/
def doneReply (seq port : UInt32) : Message :=
  ((ofPayload MessageType.done Flag.multi (Bytes.zeros 4)).withSeq seq).withPort port

/-- The sequence number. -/
def seq (m : Message) : UInt32 := m.header.seq

/-- The type. -/
def type (m : Message) : UInt16 := m.header.type

/-- Octets of the message without padding. -/
def length (m : Message) : Nat := Header.size + m.payload.length

/-- Octets of the message on the wire, padding included. -/
def wireSize (m : Message) : Nat := Bytes.align4 m.length

/-- Whether the message is an error report. -/
def isError (m : Message) : Bool := m.type == MessageType.error

/-- Whether the message ends a reply in several parts. -/
def isDone (m : Message) : Bool := m.type == MessageType.done

/-- Whether the message is one part of several. -/
def isMulti (m : Message) : Bool := Flag.isSet m.header.flags Flag.multi

/-! ## Reading the payload -/

/-- The generic header and the octets after it. -/
def genericParts (m : Message) : Except MessageError (GenericHeader × Bytes) :=
  if m.payload.length < GenericHeader.size then
    .error (.truncated .genericHeader GenericHeader.size m.payload.length)
  else
    .ok (GenericHeader.decode m.payload, m.payload.drop GenericHeader.size)

/-- The generic header and the attributes after `skipped` octets of the family's own header. -/
def attributes (m : Message) (skipped : Nat) : Except MessageError (GenericHeader × Attributes) := do
  let (header, body) ← m.genericParts
  if body.length < skipped then
    throw (.truncated .familyHeader skipped body.length)
  let attrs ← (Attr.parse (body.drop skipped)).mapError .attr
  return (header, attrs)

/-- The report that an error message carries. -/
def errorReport (m : Message) : Except MessageError ErrorReport :=
  if m.isError then ErrorReport.decode m.payload else .error (.unexpectedType m.type)

end Message

end Vswitch
