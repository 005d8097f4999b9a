/-!
# Recently expired requests

A bounded queue of sequence numbers, and the same numbers as a set in which they are looked up. A
number that is already there is not added again, and the oldest one leaves when there are too many.
-/

namespace Vswitch

/-- The sequence numbers of requests that were given up. -/
structure History where
  capacity : Nat
  /-- The numbers, oldest first. -/
  order : List UInt32
  /-- The same numbers, as a set. -/
  members : List UInt32
  deriving DecidableEq, Repr

namespace History

/-- A history that remembers nothing yet. -/
def empty (capacity : Nat) : History := ⟨capacity, [], []⟩

/-- Whether a number is remembered. -/
def contains (h : History) (seq : UInt32) : Bool := h.members.contains seq

/-- Adds a number at the back. -/
def push (h : History) (seq : UInt32) : History :=
  { h with order := h.order ++ [seq], members := seq :: h.members }

/-- Forgets the oldest number. -/
def forget (h : History) : History :=
  match h.order with
  | [] => h
  | oldest :: rest => { h with order := rest, members := h.members.filter (· != oldest) }

/-- Remembers a number. -/
def insert (h : History) (seq : UInt32) : History :=
  if h.capacity = 0 ∨ h.contains seq then h
  else if h.capacity < (h.push seq).order.length then (h.push seq).forget
  else h.push seq

end History

end Vswitch
