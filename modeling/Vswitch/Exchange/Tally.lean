import Vswitch.Clock

/-!
# Counters of an exchange

How many requests were registered and how they ended, what happened to messages that answered no
request, and the cumulative average of the round-trip times.
-/

namespace Vswitch

/-- The counters of an exchange. -/
structure Tally where
  /-- Requests registered. -/
  requests : Nat
  /-- Requests ended by a reply, an acknowledgement, an error, or a failure to send. -/
  responses : Nat
  /-- Requests ended by their deadline. -/
  timeouts : Nat
  /-- Requests whose caller went away. -/
  cancelled : Nat
  /-- Messages handed to the notification stream. -/
  notifications : Nat
  /-- Messages and rests of datagrams given up. -/
  dropped : Nat
  /-- Octets sent. -/
  sent : Nat
  /-- Octets received. -/
  received : Nat
  /-- The average round-trip time in microseconds. -/
  roundTrip : UInt64
  /-- The number of round trips in the average. -/
  samples : UInt64
  deriving DecidableEq, Repr

namespace Tally

/-- Nothing counted. -/
def zero : Tally := ⟨0, 0, 0, 0, 0, 0, 0, 0, 0, 0⟩

/-- Takes a round trip into the average: of `n` trips so far with average `a`, the new average is
`(trip + n * a) / (n + 1)`, in 64-bit arithmetic. -/
def recordRoundTrip (t : Tally) (trip : UInt64) : Tally :=
  { t with
    roundTrip := (trip + t.samples * t.roundTrip) / max (t.samples + 1) 1
    samples := t.samples + 1 }

/-- Counts a registered request. -/
def countRequest (t : Tally) : Tally := { t with requests := t.requests + 1 }

/-- Counts a response and its round trip. -/
def countResponse (t : Tally) (trip : Time) : Tally :=
  let t := t.recordRoundTrip (UInt64.ofNat trip)
  { t with responses := t.responses + 1 }

/-- Counts a request that reached its deadline. -/
def countTimeout (t : Tally) : Tally := { t with timeouts := t.timeouts + 1 }

/-- Counts a request whose caller went away. -/
def countCancelled (t : Tally) : Tally := { t with cancelled := t.cancelled + 1 }

/-- Counts a message handed to the notification stream. -/
def countNotification (t : Tally) : Tally := { t with notifications := t.notifications + 1 }

/-- Counts something given up. -/
def countDropped (t : Tally) : Tally := { t with dropped := t.dropped + 1 }

/-- Counts octets sent. -/
def countSent (t : Tally) (octets : Nat) : Tally := { t with sent := t.sent + octets }

/-- Counts octets received. -/
def countReceived (t : Tally) (octets : Nat) : Tally := { t with received := t.received + octets }

end Tally

end Vswitch
