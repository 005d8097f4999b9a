import Vswitch.Clock
import Vswitch.Exchange.Failure
import Vswitch.Netlink.Datagram

/-!
# Requests

A generic request as its caller composes it, without the sequence number and the port that the
exchange adds, and what one received message means to the request that it answers.

* `Request.encode`: the datagram of a request, or its refusal;
* `Verdict.ofMessage`: what a message means to the request that it answers.
-/

namespace Vswitch

/-! ## Composing a request -/

/-- Packed octets are compared one by one. -/
instance packedDecidableEq : DecidableEq ByteArray := fun a b =>
  decidable_of_iff (a.data = b.data) ByteArray.ext_iff.symm

instance packedRepr : Repr ByteArray := ⟨fun packed prec => reprPrec packed.data prec⟩

/-- A generic request. -/
structure Request where
  family : UInt16
  header : GenericHeader
  flags : UInt16
  /-- The octets after the generic header, packed: a caller may hand over gigabytes. -/
  packed : ByteArray
  /-- How long to wait, if not as long as usual. -/
  timeout : Option Time
  deriving DecidableEq, Repr

namespace Request

/-- A request without a body. -/
def ofCommand (family : UInt16) (command version : UInt8) : Request :=
  ⟨family, ⟨command, version⟩, Flag.request, .empty, none⟩

/-- The octets after the generic header. -/
def body (r : Request) : Bytes := r.packed.data.toList

/-- The request with a body. -/
def withBody (r : Request) (body : Bytes) : Request := { r with packed := ⟨body.toArray⟩ }

@[simp] theorem body_withBody (r : Request) (body : Bytes) : (r.withBody body).body = body := rfl

/-- The request with further flags. -/
def withFlags (r : Request) (flags : UInt16) : Request := { r with flags := r.flags ||| flags }

/-- Asks for every object of a kind; the reply comes in parts. -/
def dump (r : Request) : Request := r.withFlags Flag.dump

/-- Asks for an acknowledgement; the request ends with it. -/
def ack (r : Request) : Request := r.withFlags Flag.ack

/-- The request with a waiting time of its own. -/
def withTimeout (r : Request) (timeout : Time) : Request := { r with timeout := some timeout }

/-- Whether the request ends with an acknowledgement. -/
def expectsAck (r : Request) : Bool := Flag.isSet r.flags Flag.ack

/-- The message that carries the request. -/
def toMessage (r : Request) (seq port : UInt32) : Message :=
  ((Message.generic r.family r.flags r.header r.body).withSeq seq).withPort port

/-- Octets of the message that carries the request, without padding. -/
def length (r : Request) : Nat := Header.size + (GenericHeader.size + r.packed.size)

/-- The length of a request is that of its message, whatever number and port are stamped on it. -/
theorem length_toMessage (r : Request) (seq port : UInt32) :
    (r.toMessage seq port).length = r.length := by
  simp [Message.length, length, toMessage, Message.withPort, Message.withSeq, Message.generic,
    Message.ofPayload, body]

/-- The datagram of the request. The length is all that is read of a body that is too long. -/
def encode (r : Request) (seq port : UInt32) : Except MessageError Bytes :=
  if r.length < UInt32.size then Datagram.encode (r.toMessage seq port)
  else .error (.invalidLength r.length)

/-- A request is encoded as its message is. -/
theorem encode_eq (r : Request) (seq port : UInt32) :
    r.encode seq port = Datagram.encode (r.toMessage seq port) := by
  by_cases hfits : r.length < UInt32.size
  · rw [encode, if_pos hfits]
  · rw [encode, if_neg hfits, Datagram.encode, length_toMessage, if_neg hfits]

end Request

/-! ## Judging a reply -/

/-- What a message means to the request that it answers. -/
inductive Verdict where
  /-- The message belongs to the reply, and more is to come. -/
  | part
  /-- The message belongs to the reply and completes it. -/
  | lastPart
  /-- The message ends the request. -/
  | final (result : Except ExchangeError Unit)

namespace Verdict

/-- The verdict on an error report. -/
def ofReport : Except MessageError ErrorReport → Verdict
  | .ok report =>
    if report.isAck then .final (.ok ())
    else .final (.error (.protocol (Errno.ofCode report.code)))
  | .error error => .final (.error (.wire error))

/-- The code at the front of a message that ends a reply; none is zero. -/
def doneCode (payload : Bytes) : Int32 :=
  if payload.length < 4 then 0 else (payload.le32At 0).toInt32

/-- The verdict on a message. The end of a reply may carry the error that cut it short; data completes
a request that expects no acknowledgement, unless it is one part of several. -/
def ofMessage (expectsAck : Bool) (m : Message) : Verdict :=
  if m.isError then ofReport m.errorReport
  else if m.isDone then
    let code := doneCode m.payload
    if code < 0 then .final (.error (.protocol (Errno.ofCode code))) else .final (.ok ())
  else if m.type = MessageType.overrun then .final (.error .overrun)
  else if m.isMulti || expectsAck then .part
  else .lastPart

end Verdict

end Vswitch
