import Mathlib
import Vswitch.Proofs.Exchange.Trace
import Vswitch.Proofs.Netlink.Datagram

/-!
# Requests that are given a number

A request that finds room in the pending table is given the next sequence number. It is registered
unless its message is longer than a length field can say, in which case it is refused after that.

* `Request.Fits`, `Request.datagram`: which requests can be sent, and as what;
* `Exchange.admits`, `admittedIn`: the requests that are given a number by an event and in a run;
* `Exchange.displaces`, `displacedIn`: the requests that lose their place in the table to another
  one with the same number, which takes more requests than there are numbers
  (`Exchange.Runs.displacedIn_eq_zero`).
-/

namespace Vswitch

/-! ## Requests as datagrams -/

namespace Request

/-- Whether the length field of a message can hold the length. -/
def Fits (r : Request) : Prop := r.length < UInt32.size

instance : DecidablePred Fits := fun r => inferInstanceAs (Decidable (r.length < UInt32.size))

/-- There is a request that is too long to be sent. -/
theorem exists_not_fits : ∃ r : Request, ¬ r.Fits := by
  obtain ⟨body, hbody⟩ : ∃ body : Bytes, body.length = UInt32.size :=
    ⟨List.replicate UInt32.size 0, List.length_replicate⟩
  refine ⟨(Request.ofCommand 28 1 1).withBody body, Nat.not_lt.mpr ?_⟩
  show UInt32.size ≤ Header.size + (GenericHeader.size + body.length)
  rw [hbody]
  exact (Nat.le_add_left _ _).trans (Nat.le_add_left _ _)

/-- The datagram that carries the request. -/
def datagram (r : Request) (seq port : UInt32) : Bytes := (r.toMessage seq port).octets

variable {r : Request} {seq port : UInt32}

/-- A request that fits is written as its datagram. -/
theorem encode_of_fits (h : r.Fits) :
    Datagram.encode (r.toMessage seq port) = .ok (r.datagram seq port) := by
  refine Datagram.encode_of_lt ?_
  rw [length_toMessage]
  exact h

/-- One that does not is refused, with its length as the reason. -/
theorem encode_of_not_fits (h : ¬ r.Fits) :
    Datagram.encode (r.toMessage seq port) = .error (.invalidLength r.length) := by
  rw [Datagram.encode_of_le (by rw [length_toMessage]; exact Nat.not_lt.mp h), length_toMessage]

/-- The datagram of a request holds the one message that carries it. -/
theorem next_datagram (h : r.Fits) :
    Datagram.next (r.datagram seq port) = .message (r.toMessage seq port).stamped [] := by
  have hnext := Datagram.next_octets (m := r.toMessage seq port)
    (by rw [length_toMessage]; exact h) []
  rwa [List.append_nil] at hnext

/-- What the receiver reads off the message is the header and the body of the request. -/
theorem genericParts_stamped (r : Request) (seq port : UInt32) :
    (r.toMessage seq port).stamped.genericParts = .ok (r.header, r.body) :=
  Message.genericParts_of_payload rfl

end Request

namespace Exchange

/-! ## Registration -/

section Register

variable {x : Exchange} {now : Time} {request : Request} {responder : Responder}

/-- A request that finds room and fits is pending under the next number, and its datagram is queued.
-/
theorem register_fits (hroom : x.pending.length < x.options.maxPending) (hfits : request.Fits) :
    x.register now request responder =
      ({ x with
          lastSeq := nextSeq x.lastSeq
          pending := PendingTable.insert x.pending (nextSeq x.lastSeq)
            (x.entry now request responder)
          egress := x.egress ++ [(nextSeq x.lastSeq, request.datagram (nextSeq x.lastSeq) x.port)]
          tally := x.tally.countRequest }, []) :=
  register_accepted hroom (Request.encode_of_fits hfits)

/-- A request that finds room but does not fit is refused, and its number is spent. -/
theorem register_oversized (hroom : x.pending.length < x.options.maxPending)
    (hfits : ¬ request.Fits) :
    x.register now request responder =
      ({ x with lastSeq := nextSeq x.lastSeq },
        [.answer responder (.error (.wire (.invalidLength request.length)))]) :=
  register_refused hroom (Request.encode_of_not_fits hfits)

end Register

/-- The request that an event gives a number, if it does. -/
def admits (x : Exchange) (e : ExchangeEvent) : List Request :=
  match x.commands with
  | .send request _ :: _ => if x.numbers e then [request] else []
  | _ => []

/-- Whether an event registers a request under a number that is pending: the request that had it
loses its place. -/
def displaces (x : Exchange) (e : ExchangeEvent) : Bool :=
  (x.admits e).any (fun r => decide r.Fits) &&
    (PendingTable.keys x.pending).contains (nextSeq x.lastSeq)

section Admission

variable {x : Exchange} {e : ExchangeEvent} {n : Nat} {now : Time} {joined : Except IoError Unit}
  {request : Request} {responder : Responder} {rest : List Command}

/-- An event that gives out no number gives it to no request. -/
theorem admits_of_not_numbers (h : x.numbers e = false) : x.admits e = [] := by
  rw [admits]
  split
  · rw [h]
    rfl
  · rfl

/-- A request that is taken is given a number if there is room for it. -/
theorem numbers_take (hrunning : x.isRunning = true)
    (hcommands : x.commands = .send request responder :: rest) :
    x.numbers (.take now joined) = decide (x.pending.length < x.options.maxPending) :=
  (x.take_send now joined hrunning hcommands).2

/-- The request that is given the number is the one that is taken. -/
theorem admits_take (hrunning : x.isRunning = true)
    (hcommands : x.commands = .send request responder :: rest) :
    x.admits (.take now joined) =
      if x.pending.length < x.options.maxPending then [request] else [] := by
  rw [admits, hcommands]
  simp only [numbers_take hrunning hcommands, decide_eq_true_eq]

/-- A number goes to one request. -/
theorem length_admits (x : Exchange) (e : ExchangeEvent) :
    (x.admits e).length = (x.numbers e).toNat := by
  rcases hnumbers : x.numbers e with _ | _
  · rw [admits_of_not_numbers hnumbers]
    rfl
  · cases e with
    | take now joined =>
      rcases hcommands : x.commands with _ | ⟨⟨request, responder⟩ | _, rest⟩
      · simp [numbers, hcommands] at hnumbers
      · simp [admits, hcommands, hnumbers]
      · simp [numbers, hcommands] at hnumbers
    | _ => cases hnumbers

/-- Without a new number no request loses its place. -/
theorem displaces_of_not_numbers (h : x.numbers e = false) : x.displaces e = false := by
  rw [displaces, admits_of_not_numbers h]
  rfl

/-- A request that is registered displaces whichever has the same number. -/
theorem displaces_take (hrunning : x.isRunning = true)
    (hcommands : x.commands = .send request responder :: rest)
    (hroom : x.pending.length < x.options.maxPending) (hfits : request.Fits) :
    x.displaces (.take now joined) =
      (PendingTable.keys x.pending).contains (nextSeq x.lastSeq) := by
  rw [displaces, admits_take hrunning hcommands, if_pos hroom]
  simp [hfits]

/-- As long as the numbers do not run out, no request loses its place. -/
theorem Ordered.displaces_eq_false (h : Ordered x n)
    (hn : n + (x.numbers e).toNat < UInt32.size) : x.displaces e = false := by
  rcases hnumbers : x.numbers e with _ | _
  · exact displaces_of_not_numbers hnumbers
  · rw [hnumbers, Bool.toNat_true] at hn
    rw [displaces, Bool.and_eq_false_iff]
    right
    simpa using h.nextSeq_not_mem hn

end Admission

end Exchange

/-! ## Logs of a run -/

/-- The requests that are given a number at the moments of a run, in order. -/
def admittedIn (trace : List Moment) : List Request :=
  trace.flatMap fun m => m.exchange.admits m.event

/-- How many requests lose their place in the table at the moments of a run. -/
def displacedIn (trace : List Moment) : Nat := trace.countP fun m => m.exchange.displaces m.event

section Logs

variable (trace : List Moment) (m : Moment)

theorem admittedIn_concat :
    admittedIn (trace ++ [m]) = admittedIn trace ++ m.exchange.admits m.event := by
  simp [admittedIn]

theorem displacedIn_concat :
    displacedIn (trace ++ [m]) = displacedIn trace + (m.exchange.displaces m.event).toNat := by
  rw [displacedIn, List.countP_append, displacedIn]
  cases h : m.exchange.displaces m.event <;> simp [h]

/-- As many requests are given a number as numbers are given out. -/
theorem length_admittedIn : (admittedIn trace).length = numberedIn trace := by
  induction trace using List.reverseRecOn with
  | nil => rfl
  | append_singleton trace m ih =>
    rw [admittedIn_concat, numberedIn_concat, List.length_append, ih, Exchange.length_admits]

end Logs

/-- No request loses its place in a run that gives out fewer numbers than there are. -/
theorem Exchange.Runs.displacedIn_eq_zero {port : UInt32} {options : ExchangeOptions}
    {trace : List Moment} {x : Exchange} (h : Runs (start port options) trace x)
    (hfew : numberedIn trace < UInt32.size) : displacedIn trace = 0 := by
  induction h with
  | init => rfl
  | next h hlisted ih =>
    rw [numberedIn_concat] at hfew
    have hordered := (h.ordered (by omega)).relist hlisted
    rw [displacedIn_concat, ih (by omega), hordered.displaces_eq_false hfew]
    rfl

end Vswitch
