import Vswitch.Netlink.Message

/-!
# Datagrams

A datagram holds whole messages, each padded with zeros to a multiple of four octets; the last one may
lack its padding. Datagrams are never split, so a message that is cut short is malformed and the rest
of the datagram is given up.

* `Datagram.next`: the first message and what remains;
* `Datagram.messages`: all messages up to the end or the first malformed one;
* `Datagram.remainders`: how much of a datagram is left after each of its messages;
* `Datagram.encode`, `Datagram.encodeAll`: messages as a datagram;
* `Datagram.appendTo`, `Datagram.appendAll`: the same behind what a buffer already holds.
-/

namespace Vswitch.Datagram

/-! ## Reading -/

/-- What stands at the front of a datagram. -/
inductive Next where
  /-- Nothing is left. -/
  | done
  /-- A message, and what remains after its padding. -/
  | message (m : Message) (rest : Bytes)
  /-- No message; nothing remains. -/
  | malformed (error : MessageError)
  deriving DecidableEq, Repr

/-- The first message of a datagram. -/
def next (data : Bytes) : Next :=
  if data = [] then .done
  else
    let len := (data.le32At 0).toNat
    if ¬ data.Covers Header.size then
      .malformed (.truncated .netlinkHeader Header.size data.length)
    else if len < Header.size then .malformed (.invalidLength len)
    else if ¬ data.Covers len then .malformed (.truncated .netlinkMessage len data.length)
    else
      .message ⟨Header.decode data, data.slice Header.size (len - Header.size)⟩
        (data.drop (Bytes.align4 len))

/-- A message takes at least its header off the datagram. -/
theorem length_rest_of_next {data rest : Bytes} {m : Message} (h : next data = .message m rest) :
    rest.length + Header.size ≤ data.length := by
  unfold next at h
  simp only at h
  split at h
  · cases h
  split at h
  · cases h
  split at h
  · cases h
  split at h
  · cases h
  rename_i covers _ _
  cases h
  simp only [Decidable.not_not, Bytes.covers_iff, Header.size, Nat.not_lt] at *
  simp only [List.length_drop, Bytes.align4]
  omega

/-- The messages of a datagram, and the error that ends them. -/
def messages (data : Bytes) : List Message × Option MessageError :=
  match _h : next data with
  | .done => ([], none)
  | .malformed error => ([], some error)
  | .message m rest =>
    let (later, error) := messages rest
    (m :: later, error)
termination_by data.length
decreasing_by
  have := length_rest_of_next ‹_›
  simp only [Header.size] at this
  omega

/-- How many of `available` octets are left after each of several messages. -/
def remainders (available : Nat) : List Message → List Nat
  | [] => []
  | m :: rest =>
    let left := available - m.wireSize
    left :: remainders left rest

/-! ## Writing -/

/-- A message with its padding. The length field is written anew; a message that it cannot hold is
refused. -/
def encode (m : Message) : Except MessageError Bytes :=
  if m.length < UInt32.size then
    .ok ({ m.header with len := UInt32.ofNat m.length }.encode ++ m.payload
      ++ Bytes.zeros (m.wireSize - m.length))
  else
    .error (.invalidLength m.length)

/-- Several messages one after another. -/
def encodeAll (ms : List Message) : Except MessageError Bytes :=
  return (← ms.mapM encode).flatten

/-- A message with its padding behind what a buffer holds. The padding aligns the end of the message
with its start, which need not be aligned itself. -/
def appendTo (buffer : Bytes) (m : Message) : Except MessageError Bytes :=
  if m.length < UInt32.size then
    let written := buffer ++ { m.header with len := UInt32.ofNat m.length }.encode ++ m.payload
    .ok (written.padTo (written.length + m.wireSize - m.length))
  else
    .error (.invalidLength m.length)

/-- Several messages behind what a buffer holds. -/
def appendAll (buffer : Bytes) (ms : List Message) : Except MessageError Bytes :=
  ms.foldlM appendTo buffer

end Vswitch.Datagram
