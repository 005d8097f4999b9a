/-!
# Time

Instants and durations are counts of microseconds. Nothing here reads a clock: whoever needs the time
is given it. Instants have no end: a deadline or an expiry that lies past the last instant that a clock
can name, as with the greatest waiting time or lifetime there is, is an instant like any other.
-/

namespace Vswitch

/-- Microseconds since the clock started. -/
abbrev Time := Nat

namespace Time

/-- A duration in milliseconds. -/
def ofMillis (ms : Nat) : Time := 1000 * ms

/-- A duration in seconds. -/
def ofSeconds (s : Nat) : Time := ofMillis (1000 * s)

/-- Whole milliseconds of a duration. -/
def toMillis (t : Time) : Nat := t / 1000

end Time

end Vswitch
