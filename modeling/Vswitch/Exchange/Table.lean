import Vswitch.Exchange.Request

/-!
# Pending requests

The requests that wait for their replies, by sequence number. The table is a list of pairs with
different keys, in the order in which the requests were registered.
-/

namespace Vswitch

/-- Who is answered. The ticket names the answer. -/
inductive Responder where
  /-- A caller that waits for the answer, and whether it has gone away. -/
  | channel (ticket : Nat) (isGone : Bool)
  /-- A callback, which is always there. -/
  | callback (ticket : Nat)
  deriving DecidableEq, Repr

namespace Responder

/-- A caller that waits for the answer. -/
def waiting (ticket : Nat) : Responder := .channel ticket false

/-- Names the answer. -/
def ticket : Responder → Nat
  | .channel ticket _ => ticket
  | .callback ticket => ticket

/-- Whether the caller has gone away. -/
def isGone : Responder → Bool
  | .channel _ isGone => isGone
  | .callback _ => false

/-- The responder once the caller of `ticket` has gone away. -/
def abandon (r : Responder) (ticket : Nat) : Responder :=
  match r with
  | .channel own isGone => .channel own (isGone || own == ticket)
  | .callback own => .callback own

@[simp] theorem ticket_abandon (r : Responder) (ticket : Nat) :
    (r.abandon ticket).ticket = r.ticket := by
  cases r <;> rfl

end Responder

/-- A request that waits for its reply. -/
structure Pending where
  registered : Time
  deadline : Time
  /-- The data messages received so far, latest first. -/
  received : List Message
  expectsAck : Bool
  responder : Responder
  deriving DecidableEq, Repr

namespace Pending

/-- Whether a sweep at `now` gives the request up. -/
def isDue (p : Pending) (now : Time) : Bool := decide (p.deadline ≤ now) || p.responder.isGone

/-- The parts of the reply so far, in the order in which they came. -/
def parts (p : Pending) : List Message := p.received.reverse

/-- The request with one more part of its reply. -/
def addPart (p : Pending) (m : Message) : Pending := { p with received := m :: p.received }

theorem parts_addPart (p : Pending) (m : Message) : (p.addPart m).parts = p.parts ++ [m] := by
  simp [parts, addPart]

/-- The request once the caller of `ticket` has gone away. -/
def abandon (p : Pending) (ticket : Nat) : Pending :=
  { p with responder := p.responder.abandon ticket }

end Pending

/-- The pending requests by sequence number. -/
abbrev PendingTable := List (UInt32 × Pending)

namespace PendingTable

/-- The request with a sequence number. -/
def find? (t : PendingTable) (seq : UInt32) : Option Pending := t.lookup seq

/-- The table without the request with a sequence number. -/
def erase (t : PendingTable) (seq : UInt32) : PendingTable := t.filter fun e => e.1 != seq

/-- The table with a request registered last, in place of any with the same number. -/
def insert (t : PendingTable) (seq : UInt32) (p : Pending) : PendingTable :=
  PendingTable.erase t seq ++ [(seq, p)]

/-- The table with the request with a sequence number changed. -/
def modify (t : PendingTable) (seq : UInt32) (f : Pending → Pending) : PendingTable :=
  t.map fun e => if e.1 = seq then (e.1, f e.2) else e

/-- The sequence numbers of the requests that a sweep at `now` gives up. -/
def due (t : PendingTable) (now : Time) : List UInt32 :=
  (t.filter fun e => e.2.isDue now).map Prod.fst

/-- The table once the caller of `ticket` has gone away. -/
def abandon (t : PendingTable) (ticket : Nat) : PendingTable :=
  t.map fun e => (e.1, e.2.abandon ticket)

end PendingTable

end Vswitch
