import Mathlib
import Vswitch.Exchange.Basic
import Vswitch.Proofs.Exchange.Table

/-!
# Runs of an exchange

What every operation of an exchange leaves alone and what it does to the keys of the pending table,
and from that the invariant of all runs: the sequence number given out last counts the numbers given
out, the keys of the table are different numbers among them, and nothing is pending once the
exchange has ended.

* `Exchange.numbers`: whether an event gives a request a sequence number;
* `Exchange.OnTable`: what the operations on pending requests leave alone;
* `Exchange.register_cases`: what comes of a request that is taken;
* `Exchange.Ordered`, `Exchange.Ordered.step`: the invariant, and that an event keeps it as long as the
  numbers do not run out.
-/

namespace Vswitch

namespace Exchange

/-! ## Runs -/

/-- The exchange after a sequence of events. -/
def after (x : Exchange) (es : List ExchangeEvent) : Exchange := (x.run es).1

/-- All that an exchange does during a sequence of events. -/
def outputs (x : Exchange) (es : List ExchangeEvent) : List ExchangeOutput := (x.run es).2

@[simp] theorem after_nil (x : Exchange) : x.after [] = x := rfl

theorem after_cons (x : Exchange) (e : ExchangeEvent) (es : List ExchangeEvent) :
    x.after (e :: es) = (x.step e).1.after es := rfl

/-- What comes of two sequences of events comes of the first and then of the second. -/
theorem after_append (x : Exchange) (es fs : List ExchangeEvent) :
    x.after (es ++ fs) = (x.after es).after fs := by
  induction es generalizing x with
  | nil => rfl
  | cons e es ih => rw [List.cons_append, after_cons, after_cons, ih]

/-- The last event happens to what the others left. -/
theorem after_concat (x : Exchange) (es : List ExchangeEvent) (e : ExchangeEvent) :
    x.after (es ++ [e]) = ((x.after es).step e).1 := by
  rw [after_append, after_cons, after_nil]

/-! ## Requests that are given a number -/

/-- Whether an event gives a request a sequence number: the oldest command is a request, and there
is room for it. A request that its datagram cannot hold is refused after that. -/
def numbers (x : Exchange) : ExchangeEvent → Bool
  | .take _ _ =>
    match x.commands with
    | .send _ _ :: _ => x.isRunning && decide (x.pending.length < x.options.maxPending)
    | _ => false
  | _ => false

/-- As long as the numbers do not run out, the next one is the successor. -/
theorem toNat_nextSeq {seq : UInt32} (h : seq.toNat + 1 < UInt32.size) :
    (nextSeq seq).toNat = seq.toNat + 1 := by
  have hsucc : (seq + 1).toNat = seq.toNat + 1 := by
    rw [UInt32.toNat_add, UInt32.toNat_one]
    exact Nat.mod_eq_of_lt h
  have hne : seq + 1 ≠ 0 := by
    intro h0
    rw [h0] at hsucc
    simp at hsucc
  rw [nextSeq, if_neg hne, hsucc]

/-! ## Operations that leave the numbers alone -/

/-- An operation on pending requests changes no more than the table, the history, the notifications
and the counters, and adds nothing to the table. -/
structure OnTable (x y : Exchange) : Prop where
  frame : y = { x with
    pending := y.pending, history := y.history, notifications := y.notifications, tally := y.tally }
  keys : (PendingTable.keys y.pending).Sublist (PendingTable.keys x.pending)

namespace OnTable

variable {x y z : Exchange}

theorem refl (x : Exchange) : OnTable x x := ⟨rfl, .refl _⟩

theorem trans (h : OnTable x y) (h' : OnTable y z) : OnTable x z :=
  ⟨by rw [h'.frame, h.frame], h'.keys.trans h.keys⟩

theorem lastSeq (h : OnTable x y) : y.lastSeq = x.lastSeq := by rw [h.frame]

theorem commands (h : OnTable x y) : y.commands = x.commands := by rw [h.frame]

theorem isRunning (h : OnTable x y) : y.isRunning = x.isRunning := by rw [h.frame]

end OnTable

section Operations

variable {x : Exchange} {now : Time} {seq : UInt32} {p : Pending} {m : Message}

/-! ### Answers -/

/-- A request that is pending is answered, taken out of the table and counted. -/
theorem complete_of_find? {result : Except ExchangeError Unit}
    (h : PendingTable.find? x.pending seq = some p) :
    x.complete now seq result =
      ({ x with
          pending := PendingTable.erase x.pending seq
          tally := x.tally.countResponse (now - p.registered) },
        [.answer p.responder (result.map fun _ => p.parts)]) := by
  rw [complete, h]

/-- A number that is not pending has nothing to complete. -/
theorem complete_of_none {result : Except ExchangeError Unit}
    (h : PendingTable.find? x.pending seq = none) : x.complete now seq result = (x, []) := by
  rw [complete, h]

/-- An answer changes the table and the counters alone. -/
theorem onTable_complete (x : Exchange) (now : Time) (seq : UInt32)
    (result : Except ExchangeError Unit) : OnTable x (x.complete now seq result).1 := by
  rcases h : PendingTable.find? x.pending seq with _ | p
  · rw [complete_of_none h]
    exact .refl x
  · rw [complete_of_find? h]
    exact ⟨rfl, PendingTable.keys_erase_sublist⟩

/-! ### Messages -/

/-- A message that nobody waits for changes the notifications or a counter. -/
theorem onTable_takeUnsolicited (x : Exchange) (m : Message) : OnTable x (x.takeUnsolicited m) := by
  unfold takeUnsolicited
  split_ifs <;> exact ⟨rfl, .refl _⟩

/-- The exchange with `m` added to the reply that it belongs to. -/
def extend (x : Exchange) (m : Message) : Exchange :=
  { x with pending := PendingTable.modify x.pending m.seq (·.addPart m) }

/-- One more part of a reply changes no number. -/
theorem onTable_extend (x : Exchange) (m : Message) : OnTable x (x.extend m) :=
  ⟨rfl, by rw [extend, PendingTable.keys_modify]⟩

/-- The part is added to the request that has the number of the message. -/
theorem find?_extend_self (h : PendingTable.find? x.pending m.seq = some p) :
    PendingTable.find? (x.extend m).pending m.seq = some (p.addPart m) :=
  PendingTable.find?_modify_self (f := (·.addPart m)) h

/-- No other request gets it. -/
theorem find?_extend_of_ne (h : seq ≠ m.seq) :
    PendingTable.find? (x.extend m).pending seq = PendingTable.find? x.pending seq :=
  PendingTable.find?_modify_of_ne (f := (·.addPart m)) h

/-- A notification is only read off the stream. -/
theorem onTable_readNotification (x : Exchange) : OnTable x x.readNotification.1 := by
  unfold readNotification
  rcases x.notifications with _ | ⟨m, rest⟩
  · exact .refl x
  · exact ⟨rfl, .refl _⟩

/-- A message that says nothing has no effect. -/
theorem takeMessage_noop (h : m.type = MessageType.noop) : x.takeMessage now m = (x, []) := by
  rw [takeMessage, if_pos h]

/-- A message whose number is not pending was not asked for. -/
theorem takeMessage_unsolicited (h : m.type ≠ MessageType.noop)
    (hp : PendingTable.find? x.pending m.seq = none) :
    x.takeMessage now m = (x.takeUnsolicited m, []) := by
  rw [takeMessage, if_neg h, hp]

/-- A message whose number is pending does what its verdict says. -/
theorem takeMessage_pending (h : m.type ≠ MessageType.noop)
    (hp : PendingTable.find? x.pending m.seq = some p) :
    x.takeMessage now m =
      match Verdict.ofMessage p.expectsAck m with
      | .part => (x.extend m, [])
      | .lastPart => (x.extend m).complete now m.seq (.ok ())
      | .final result => x.complete now m.seq result := by
  rw [takeMessage, if_neg h, hp]
  rfl

/-- No message changes more than an operation on the table does. -/
theorem onTable_takeMessage (x : Exchange) (now : Time) (m : Message) :
    OnTable x (x.takeMessage now m).1 := by
  by_cases hnoop : m.type = MessageType.noop
  · rw [takeMessage_noop hnoop]
    exact .refl x
  rcases hp : PendingTable.find? x.pending m.seq with _ | p
  · rw [takeMessage_unsolicited hnoop hp]
    exact onTable_takeUnsolicited x m
  · rw [takeMessage_pending hnoop hp]
    cases Verdict.ofMessage p.expectsAck m with
    | part => exact onTable_extend x m
    | lastPart => exact (onTable_extend x m).trans (onTable_complete _ now m.seq _)
    | final result => exact onTable_complete x now m.seq result

/-- Nor does a row of messages. -/
theorem onTable_takeMessages (x : Exchange) (now : Time) (ms : List Message) :
    OnTable x (x.takeMessages now ms).1 := by
  induction ms generalizing x with
  | nil => exact .refl x
  | cons m rest ih => exact (onTable_takeMessage x now m).trans (ih _)

/-- The exchange with the length of a datagram counted. -/
def counting (x : Exchange) (data : Bytes) : Exchange :=
  { x with tally := x.tally.countReceived data.length }

theorem onTable_counting (x : Exchange) (data : Bytes) : OnTable x (x.counting data) :=
  ⟨rfl, .refl _⟩

/-- A datagram acts through its messages; a malformed rest is only counted. -/
theorem takeDatagram_eq (x : Exchange) (now : Time) (data : Bytes) :
    ∃ tally, x.takeDatagram now data =
      ({ ((x.counting data).takeMessages now (Datagram.messages data).1).1 with tally := tally },
        ((x.counting data).takeMessages now (Datagram.messages data).1).2) := by
  unfold takeDatagram
  rcases Datagram.messages data with ⟨ms, _ | _⟩
  · exact ⟨_, rfl⟩
  · exact ⟨_, rfl⟩

/-- Nor does a datagram, malformed or not. -/
theorem onTable_takeDatagram (x : Exchange) (now : Time) (data : Bytes) :
    OnTable x (x.takeDatagram now data).1 := by
  rcases takeDatagram_eq x now data with ⟨tally, heq⟩
  have hmessages := (onTable_counting x data).trans
    (onTable_takeMessages _ now (Datagram.messages data).1)
  rw [heq]
  exact hmessages.trans ⟨rfl, .refl _⟩

/-! ### Sweeps -/

/-- Counts a request that is given up: as cancelled if its caller has gone away, else as
timed out. -/
def countGivenUp (t : Tally) (e : UInt32 × Pending) : Tally :=
  if e.2.responder.isGone then t.countCancelled else t.countTimeout

/-- The answer to a request that reached its deadline. -/
def timedOut (e : UInt32 × Pending) : ExchangeOutput := .answer e.2.responder (.error .timeout)

/-- A request that is given up is remembered, counted, and answered if its caller is still there. -/
theorem expire_of_find? (h : PendingTable.find? x.pending seq = some p) :
    x.expire seq =
      ({ x with
          pending := PendingTable.erase x.pending seq
          history := x.history.insert seq
          tally := countGivenUp x.tally (seq, p) },
        if p.responder.isGone then [] else [timedOut (seq, p)]) := by
  rw [expire, h]
  cases hgone : p.responder.isGone <;> simp [countGivenUp, timedOut, hgone]

/-- Giving up entries of the table one after another is giving them up at once. -/
theorem expireAll_eq {l : PendingTable} (hk : (PendingTable.keys x.pending).Nodup)
    (hl : (PendingTable.keys l).Nodup) (hsub : ∀ e ∈ l, e ∈ x.pending) :
    x.expireAll (PendingTable.keys l) =
      ({ x with
          pending := x.pending.filter fun e => !(PendingTable.keys l).contains e.1
          history := (PendingTable.keys l).foldl History.insert x.history
          tally := l.foldl countGivenUp x.tally },
        (l.filter fun e => !e.2.responder.isGone).map timedOut) := by
  induction l generalizing x with
  | nil => simp [PendingTable.keys, expireAll]
  | cons e rest ih =>
    rcases e with ⟨seq, p⟩
    have hfind := PendingTable.find?_of_mem hk (hsub _ List.mem_cons_self)
    simp only [PendingTable.keys, List.map_cons, List.nodup_cons] at hl
    -- the rest of the list is still in the table once its head is gone
    have hrest : ∀ e ∈ rest, e ∈ PendingTable.erase x.pending seq := by
      intro e he
      refine PendingTable.mem_erase.mpr ⟨hsub e (List.mem_cons_of_mem _ he), ?_⟩
      rintro rfl
      exact hl.1 (List.mem_map.mpr ⟨e, he, rfl⟩)
    have hlater := ih (x := (x.expire seq).1)
      (by rw [expire_of_find? hfind]; exact PendingTable.keys_erase_sublist.nodup hk) hl.2
      (by rw [expire_of_find? hfind]; exact hrest)
    have hstep : x.expireAll (PendingTable.keys ((seq, p) :: rest)) =
        (((x.expire seq).1.expireAll (PendingTable.keys rest)).1,
          (x.expire seq).2 ++ ((x.expire seq).1.expireAll (PendingTable.keys rest)).2) := rfl
    rw [hstep, hlater, expire_of_find? hfind]
    have hfilter : (PendingTable.erase x.pending seq).filter
          (fun e => !(PendingTable.keys rest).contains e.1) =
        x.pending.filter fun e => !(PendingTable.keys ((seq, p) :: rest)).contains e.1 := by
      rw [PendingTable.erase, List.filter_filter]
      refine List.filter_congr ?_
      intro e _
      rw [show PendingTable.keys ((seq, p) :: rest) = seq :: PendingTable.keys rest from rfl,
        List.contains_cons, Bool.not_or, Bool.and_comm]
      rfl
    rw [hfilter]
    cases hgone : p.responder.isGone <;> simp [hgone, PendingTable.keys]

/-- A sweep removes exactly the requests that are due, remembers and counts them, and answers those
whose caller is still there. -/
theorem sweep_eq (hk : (PendingTable.keys x.pending).Nodup) :
    x.sweep now =
      ({ x with
          pending := x.pending.filter fun e => !e.2.isDue now
          history := (PendingTable.due x.pending now).foldl History.insert x.history
          tally := (x.pending.filter fun e => e.2.isDue now).foldl countGivenUp x.tally },
        ((x.pending.filter fun e => e.2.isDue now).filter fun e => !e.2.responder.isGone).map
          timedOut) := by
  have hsub : (x.pending.filter fun e => e.2.isDue now).Sublist x.pending := List.filter_sublist
  have hdue := expireAll_eq hk ((hsub.map Prod.fst).nodup hk) fun e he => hsub.subset he
  have hfilter : (x.pending.filter fun e =>
        !(PendingTable.keys (x.pending.filter fun e => e.2.isDue now)).contains e.1) =
      x.pending.filter fun e => !e.2.isDue now := by
    refine List.filter_congr ?_
    intro e he
    -- numbers are unique, so an entry with the number of a due entry is that entry
    have hiff : e.1 ∈ PendingTable.keys (x.pending.filter fun e => e.2.isDue now) ↔
        e.2.isDue now = true := by
      constructor
      · intro h
        rcases List.mem_map.mp h with ⟨d, hd, hde⟩
        rcases List.mem_filter.mp hd with ⟨hmem, hisDue⟩
        have hfind := PendingTable.find?_of_mem hk (show (e.1, d.2) ∈ x.pending from hde ▸ hmem)
        rw [PendingTable.find?_of_mem hk he] at hfind
        rw [Option.some.inj hfind]
        exact hisDue
      · intro h
        exact List.mem_map.mpr ⟨e, List.mem_filter.mpr ⟨he, h⟩, rfl⟩
    rw [← List.contains_iff_mem] at hiff
    rw [Bool.eq_iff_iff.mpr hiff]
  rw [hfilter] at hdue
  exact hdue

/-- A sweep gives up requests and changes nothing that concerns no pending one. -/
theorem onTable_sweep (now : Time) (hk : (PendingTable.keys x.pending).Nodup) :
    OnTable x (x.sweep now).1 := by
  rw [sweep_eq hk]
  exact ⟨rfl, List.filter_sublist.map Prod.fst⟩

/-! ### Registration -/

/-- The entry of a request that is registered at `now`. -/
def entry (x : Exchange) (now : Time) (request : Request) (responder : Responder) : Pending :=
  ⟨now, now + request.timeout.getD x.options.timeout, [], request.expectsAck, responder⟩

variable {request : Request} {responder : Responder}

/-- A request that finds no room is turned away, and nothing else happens. -/
theorem register_full (h : x.options.maxPending ≤ x.pending.length) :
    x.register now request responder = (x, [.answer responder (.error .tooManyRequests)]) := by
  rw [register, if_pos h]

/-- A request that cannot be written is refused after it was given a number. -/
theorem register_refused {error : MessageError} (h : x.pending.length < x.options.maxPending)
    (he : Datagram.encode (request.toMessage (nextSeq x.lastSeq) x.port) = .error error) :
    x.register now request responder =
      ({ x with lastSeq := nextSeq x.lastSeq }, [.answer responder (.error (.wire error))]) := by
  rw [register, if_neg (by omega)]
  simp only [Request.encode_eq, he]

/-- A request that can be written is pending, queued for the transport and counted. -/
theorem register_accepted {datagram : Bytes} (h : x.pending.length < x.options.maxPending)
    (he : Datagram.encode (request.toMessage (nextSeq x.lastSeq) x.port) = .ok datagram) :
    x.register now request responder =
      ({ x with
          lastSeq := nextSeq x.lastSeq
          pending := PendingTable.insert x.pending (nextSeq x.lastSeq)
            (x.entry now request responder)
          egress := x.egress ++ [(nextSeq x.lastSeq, datagram)]
          tally := x.tally.countRequest }, []) := by
  rw [register, if_neg (by omega)]
  simp only [Request.encode_eq, he]
  rfl

/-- What comes of a request that is taken: it finds no room, its datagram cannot hold it, or it is
registered. -/
theorem register_cases (x : Exchange) (now : Time) (request : Request) (responder : Responder) :
    (x.options.maxPending ≤ x.pending.length ∧
      x.register now request responder = (x, [.answer responder (.error .tooManyRequests)])) ∨
    (x.pending.length < x.options.maxPending ∧ ∃ error,
      Datagram.encode (request.toMessage (nextSeq x.lastSeq) x.port) = .error error ∧
      x.register now request responder =
        ({ x with lastSeq := nextSeq x.lastSeq }, [.answer responder (.error (.wire error))])) ∨
    (x.pending.length < x.options.maxPending ∧ ∃ datagram,
      Datagram.encode (request.toMessage (nextSeq x.lastSeq) x.port) = .ok datagram ∧
      x.register now request responder =
        ({ x with
            lastSeq := nextSeq x.lastSeq
            pending := PendingTable.insert x.pending (nextSeq x.lastSeq)
              (x.entry now request responder)
            egress := x.egress ++ [(nextSeq x.lastSeq, datagram)]
            tally := x.tally.countRequest }, [])) := by
  rcases Nat.lt_or_ge x.pending.length x.options.maxPending with hroom | hfull
  · rcases he : Datagram.encode (request.toMessage (nextSeq x.lastSeq) x.port) with error | datagram
    · exact Or.inr (Or.inl ⟨hroom, error, rfl, register_refused hroom he⟩)
    · exact Or.inr (Or.inr ⟨hroom, datagram, rfl, register_accepted hroom he⟩)
  · exact Or.inl ⟨hfull, register_full hfull⟩

/-- A request that is taken changes no more than the last number, the table, the egress queue and the
counters. -/
theorem register_frame (x : Exchange) (now : Time) (request : Request) (responder : Responder) :
    (x.register now request responder).1 = { x with
      lastSeq := (x.register now request responder).1.lastSeq
      pending := (x.register now request responder).1.pending
      egress := (x.register now request responder).1.egress
      tally := (x.register now request responder).1.tally } := by
  rcases x.register_cases now request responder with
    ⟨-, heq⟩ | ⟨-, error, -, heq⟩ | ⟨-, datagram, -, heq⟩
  · rw [heq]
  · rw [heq]
  · rw [heq]

/-! ### Commands -/

/-- A running exchange queues every command. -/
theorem submit_running {command : Command} (h : x.isRunning = true) :
    x.step (.submit command) = ({ x with commands := x.commands ++ [command] }, []) := by
  simp [step, submit, h]

/-- An exchange that has ended rejects it at once. -/
theorem submit_stopped {command : Command} (h : x.isRunning = false) :
    x.step (.submit command) = (x, [reject command]) := by
  simp [step, submit, h]

/-- The exchange without its oldest command. -/
def popped (x : Exchange) (rest : List Command) : Exchange := { x with commands := rest }

variable {joined : Except IoError Unit} {rest : List Command}

/-- An exchange that has ended takes no command. -/
theorem take_stopped (h : x.isRunning = false) :
    x.step (.take now joined) = (x, []) ∧ x.numbers (.take now joined) = false := by
  constructor
  · simp [step, h]
  · rcases hc : x.commands with _ | ⟨_ | _, rest⟩ <;> simp [numbers, hc, h]

/-- Nothing is taken from an empty queue. -/
theorem take_nil (h : x.commands = []) :
    x.step (.take now joined) = (x, []) ∧ x.numbers (.take now joined) = false := by
  constructor
  · simp [step, takeCommand, h]
  · simp [numbers, h]

/-- A join is answered with what the transport says, and needs no number. -/
theorem take_join {group : UInt32} {ticket : Nat} (hrunning : x.isRunning = true)
    (h : x.commands = .join group ticket :: rest) :
    x.step (.take now joined) = (x.popped rest, [.joined ticket (joined.mapError .io)]) ∧
      x.numbers (.take now joined) = false := by
  constructor
  · simp [step, takeCommand, h, hrunning, popped]
  · simp [numbers, h]

/-- A request that is taken is registered, and given a number if there is room. -/
theorem take_send (x : Exchange) (now : Time) (joined : Except IoError Unit)
    (hrunning : x.isRunning = true) (h : x.commands = .send request responder :: rest) :
    x.step (.take now joined) = (x.popped rest).register now request responder ∧
      x.numbers (.take now joined) = decide (x.pending.length < x.options.maxPending) := by
  constructor
  · simp [step, takeCommand, h, hrunning, popped]
  · simp [numbers, h, hrunning]

end Operations

/-! ## The invariant of all runs -/

/-- The last number is the `n`-th; the pending requests have different numbers up to it; once the
exchange has ended, nothing is pending and no command waits. -/
structure Ordered (x : Exchange) (n : Nat) : Prop where
  last : x.lastSeq.toNat = n
  nodup : (PendingTable.keys x.pending).Nodup
  bound : ∀ s ∈ PendingTable.keys x.pending, 0 < s.toNat ∧ s.toNat ≤ n
  ended : x.isRunning = false → x.pending = [] ∧ x.commands = []

namespace Ordered

variable {x y : Exchange} {n : Nat}

theorem start (port : UInt32) (options : ExchangeOptions) : Ordered (start port options) 0 where
  last := rfl
  nodup := List.nodup_nil
  bound := by simp [PendingTable.keys, Exchange.start]
  ended := fun _ => ⟨rfl, rfl⟩

/-- What adds nothing to the table keeps the invariant. -/
theorem of_sublist (h : Ordered x n) (hseq : y.lastSeq = x.lastSeq)
    (hkeys : (PendingTable.keys y.pending).Sublist (PendingTable.keys x.pending))
    (hended : y.isRunning = false → y.pending = [] ∧ y.commands = []) : Ordered y n where
  last := by rw [hseq, h.last]
  nodup := hkeys.nodup h.nodup
  bound := fun s hs => h.bound s (hkeys.subset hs)
  ended := hended

/-- What adds nothing to the table keeps the invariant. -/
theorem onTable (h : Ordered x n) (hy : OnTable x y) : Ordered y n := by
  refine h.of_sublist hy.lastSeq hy.keys ?_
  intro hended
  -- an exchange that had ended has an empty table, and the operation adds nothing to it
  have hnil := h.ended (by rw [← hy.isRunning, hended])
  have hkeys := hy.keys
  rw [hnil.1] at hkeys
  exact ⟨by simpa [PendingTable.keys] using hkeys, by rw [hy.commands, hnil.2]⟩

/-- So does taking a command from the queue. -/
theorem popped (h : Ordered x n) (hrunning : x.isRunning = true) (rest : List Command) :
    Ordered (x.popped rest) n :=
  h.of_sublist rfl (.refl _) fun hended => by cases hrunning.symm.trans hended

/-- The next number is new. -/
theorem nextSeq_not_mem (h : Ordered x n) (hn : n + 1 < UInt32.size) :
    nextSeq x.lastSeq ∉ PendingTable.keys x.pending := by
  intro hmem
  have hle := (h.bound _ hmem).2
  rw [toNat_nextSeq (by rw [h.last]; exact hn), h.last] at hle
  omega

/-- A request that is given the next number keeps it, with one number more. -/
theorem register (h : Ordered x n) (hrunning : x.isRunning = true) (hn : n + 1 < UInt32.size)
    (hroom : x.pending.length < x.options.maxPending) (now : Time) (request : Request)
    (responder : Responder) : Ordered (x.register now request responder).1 (n + 1) := by
  have hlast : (nextSeq x.lastSeq).toNat = n + 1 := by
    rw [toNat_nextSeq (by rw [h.last]; exact hn), h.last]
  rcases he : Datagram.encode (request.toMessage (nextSeq x.lastSeq) x.port) with error | datagram
  -- the number is used up all the same
  · rw [register_refused hroom he]
    refine ⟨hlast, h.nodup, ?_, h.ended⟩
    intro s hs
    have hbound := h.bound s hs
    omega
  · rw [register_accepted hroom he]
    have hnew := h.nextSeq_not_mem hn
    refine ⟨hlast, ?_, ?_, ?_⟩
    · rw [PendingTable.keys_insert_of_not_mem hnew, List.nodup_append]
      refine ⟨h.nodup, List.nodup_singleton _, ?_⟩
      rintro s hs k hk rfl
      exact hnew (List.mem_singleton.mp hk ▸ hs)
    · intro s hs
      rw [PendingTable.keys_insert_of_not_mem hnew] at hs
      rcases List.mem_append.mp hs with hs | hs
      · have hbound := h.bound s hs
        omega
      · rw [List.mem_singleton.mp hs, hlast]
        omega
    · intro hended
      rw [hrunning] at hended
      cases hended

/-- An event keeps the invariant, with one more number if it gives one out. -/
theorem step (h : Ordered x n) (e : ExchangeEvent) (hn : n + (x.numbers e).toNat < UInt32.size) :
    Ordered (x.step e).1 (n + (x.numbers e).toNat) := by
  cases e with
  | submit command =>
    rcases hrunning : x.isRunning with _ | _
    · rw [submit_stopped hrunning]
      exact h
    · rw [submit_running hrunning]
      exact h.of_sublist rfl (.refl _) fun hended => by cases hrunning.symm.trans hended
  | abandon ticket =>
    refine h.of_sublist rfl ?_ ?_
    · show (PendingTable.keys (PendingTable.abandon x.pending ticket)).Sublist _
      rw [PendingTable.keys_abandon]
    · intro hended
      have hnil := h.ended hended
      simp [Exchange.step, Exchange.abandon, PendingTable.abandon, hnil]
  | take now joined =>
    rcases hrunning : x.isRunning with _ | _
    · rw [(take_stopped hrunning).1, (take_stopped hrunning).2]
      exact h
    rcases hc : x.commands with _ | ⟨_ | _, rest⟩
    · rw [(take_nil hc).1, (take_nil hc).2]
      exact h
    · have hpopped := h.popped hrunning rest
      have htake := x.take_send now joined hrunning hc
      rw [htake.2] at hn ⊢
      rw [htake.1]
      -- only a request that finds room in the table is given a number
      by_cases hroom : x.pending.length < x.options.maxPending
      · rw [decide_eq_true hroom] at hn ⊢
        exact hpopped.register hrunning hn hroom now _ _
      · rw [decide_eq_false hroom, register_full (x := x.popped rest) (Nat.le_of_not_lt hroom)]
        exact hpopped
    · have hpopped := h.popped hrunning rest
      rw [(take_join hrunning hc).1, (take_join hrunning hc).2]
      exact hpopped
  | transmit now result =>
    simp only [Exchange.step, numbers]
    split_ifs with hrunning
    · unfold transmit
      rcases hq : x.egress with _ | ⟨⟨seq, datagram⟩, rest⟩
      · exact h
      have hpopped : Ordered { x with egress := rest } n := ⟨h.last, h.nodup, h.bound, h.ended⟩
      rcases result with error | _
      · exact hpopped.onTable (onTable_complete _ now seq _)
      · exact hpopped.onTable ⟨rfl, .refl _⟩
    · exact h
  | receive now result =>
    simp only [Exchange.step, numbers]
    split_ifs with hrunning
    · rcases result with error | data
      · simp only [Exchange.receive]
        split_ifs
        · exact h
        · -- a transport that fails takes the table and the queue with it
          exact h.of_sublist rfl (List.nil_sublist _) fun _ => ⟨rfl, rfl⟩
      · exact h.onTable (onTable_takeDatagram x now data)
    · exact h
  | sweep now =>
    simp only [Exchange.step, numbers]
    split_ifs with hrunning
    · exact h.onTable (onTable_sweep now h.nodup)
    · exact h
  | dropHandles => exact h.of_sublist rfl (.refl _) h.ended
  | rest =>
    refine h.of_sublist rfl (.refl _) ?_
    intro hended
    -- an exchange comes to rest only if it is idle
    simp only [Exchange.step, Bool.and_eq_false_iff, Bool.not_eq_false'] at hended
    rcases hended with hended | hidle
    · exact h.ended hended
    · simp only [isIdle, Bool.and_eq_true, List.isEmpty_iff] at hidle
      exact ⟨hidle.1.2, hidle.1.1.2⟩
  | readNotification => exact h.onTable (onTable_readNotification x)
  | closeNotifications => exact h.of_sublist rfl (.refl _) h.ended

end Ordered

end Exchange

end Vswitch
