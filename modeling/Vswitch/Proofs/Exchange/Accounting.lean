import Mathlib
import Vswitch.Proofs.Exchange.Cause
import Vswitch.Proofs.Exchange.Exhaustion

/-!
# The counters add up

Every request that was counted when it was registered is counted once more when it ends: as answered,
timed out or cancelled. What is missing from that is still pending, or was lost with the transport.

* `Exchange.Balanced`: the equation between the counters and the table;
* `Exchange.Balanced.acts`: every event keeps it, but for the requests that are lost and those that
  lose their number to another one;
* `Exchange.requests_balanced`: the equation for every run, before and after the transport fails;
* `Exchange.not_forall_balanced`: what the counters miss.
-/

namespace Vswitch

/-! ## Loss of the transport -/

/-- Whether the event is a failure of the transport from which it does not recover. -/
def ExchangeEvent.isFailure : ExchangeEvent → Bool
  | .receive _ (.error error) => !error.isOverrun
  | _ => false

/-- Whether the output tells a caller that its request was lost with the transport. -/
def ExchangeOutput.isLoss : ExchangeOutput → Bool
  | .answer _ (.error (.connectionLost _)) => true
  | _ => false

/-- Whether somebody is there to hear the output. -/
def ExchangeOutput.isHeard : ExchangeOutput → Bool
  | .answer responder _ => !responder.isGone
  | _ => true

/-- How many callers are told that their requests were lost. -/
def lossesIn (outs : List ExchangeOutput) : Nat := outs.countP ExchangeOutput.isLoss

theorem lossesIn_append (outs outs' : List ExchangeOutput) :
    lossesIn (outs ++ outs') = lossesIn outs + lossesIn outs' := by
  rw [lossesIn, List.countP_append]
  rfl

/-- There are no losses just if no output is one. -/
theorem lossesIn_eq_zero {outs : List ExchangeOutput} :
    lossesIn outs = 0 ↔ ∀ o ∈ outs, o.isLoss = false := by
  simp [lossesIn]

/-- A command that comes too late is closed to, and not lost. -/
theorem ExchangeOutput.isLoss_of_isNotice {o : ExchangeOutput} (h : o.isNotice = true) :
    o.isLoss = false := by
  cases o with
  | answer responder response =>
    rcases response with error | _
    · cases error with
      | connectionLost kind => cases h
      | _ => rfl
    · rfl
  | _ => rfl

/-- A loss is an answer with a lost connection. -/
theorem ExchangeOutput.exists_of_isLoss {o : ExchangeOutput} (h : o.isLoss = true) :
    ∃ responder kind, o = .answer responder (.error (.connectionLost kind)) := by
  cases o with
  | answer responder response =>
    rcases response with error | _
    · cases error with
      | connectionLost kind => exact ⟨responder, kind, rfl⟩
      | _ => cases h
    · cases h
  | _ => cases h

namespace Exchange

section Losses

variable {x : Exchange}

/-- A transport that fails costs every pending request. -/
theorem lossesIn_shutdown (x : Exchange) (kind : IoKind) :
    lossesIn (x.shutdown kind).2 = x.pending.length := by
  have hlost : lossesIn (x.pending.map fun e =>
      .answer e.2.responder (.error (.connectionLost kind))) = x.pending.length := by
    rw [lossesIn, List.countP_map, List.countP_eq_length]
    intro e _
    rfl
  have hrejected : lossesIn (x.commands.map reject) = 0 := by
    rw [lossesIn_eq_zero]
    intro o ho
    rcases List.mem_map.mp ho with ⟨c, -, rfl⟩
    cases c <;> rfl
  rw [shutdown, lossesIn_append, hlost, hrejected, Nat.add_zero]

/-- Callers are told of a loss only when the transport fails. -/
theorem Acts.lossesIn_eq_zero {e : ExchangeEvent} {r : Exchange × List ExchangeOutput}
    (hr : Acts x e r) (hx : Tidy x) (he : e.isFailure = false) : lossesIn r.2 = 0 := by
  rw [Vswitch.lossesIn_eq_zero]
  intro o ho
  by_contra hloss
  obtain ⟨responder, kind, rfl⟩ := ExchangeOutput.exists_of_isLoss (by simpa using hloss)
  cases hr.cause hx.nodup ho with
  | reported hreported => cases hreported
  | lost herror =>
    rw [ExchangeEvent.isFailure, herror] at he
    cases he

end Losses

/-! ## The balance -/

/-- Requests that were registered have ended in one of three ways, are pending, or are among `gone`
others. -/
def Balanced (x : Exchange) (gone : Nat) : Prop :=
  x.tally.requests =
    x.tally.responses + x.tally.timeouts + x.tally.cancelled + x.pending.length + gone

namespace Balanced

variable {x : Exchange} {gone : Nat} {now : Time}

/-- The order of the table does not matter to the balance. -/
theorem relist (h : Balanced x gone) {t : PendingTable} (hlisted : t.Perm x.pending) :
    Balanced (x.relist t) gone := by
  have hlength : (x.relist t).pending.length = x.pending.length := hlisted.length_eq
  unfold Balanced at h ⊢
  rw [hlength]
  exact h

/-- A request that is answered leaves the table and is counted as a response. -/
theorem complete (h : Balanced x gone) (hk : (PendingTable.keys x.pending).Nodup) (now : Time)
    (seq : UInt32) (result : Except ExchangeError Unit) :
    Balanced (x.complete now seq result).1 gone := by
  rcases hp : PendingTable.find? x.pending seq with _ | p
  · rw [complete_of_none hp]
    exact h
  · rw [complete_of_find? hp]
    have hlength := (PendingTable.perm_cons_erase hk hp).length_eq
    rw [List.length_cons] at hlength
    unfold Balanced at h
    show x.tally.requests = x.tally.responses + 1 + x.tally.timeouts + x.tally.cancelled +
      (PendingTable.erase x.pending seq).length + gone
    omega

/-- Messages for no request concern none. -/
theorem takeUnsolicited (h : Balanced x gone) (m : Message) :
    Balanced (x.takeUnsolicited m) gone := by
  unfold Exchange.takeUnsolicited
  split_ifs <;> exact h

/-- Nor does a part of a response, whose request stays pending. -/
theorem extend (h : Balanced x gone) (m : Message) : Balanced (x.extend m) gone := by
  have hlength : (x.extend m).pending.length = x.pending.length := List.length_map _
  unfold Balanced at h ⊢
  rw [hlength]
  exact h

/-- A message answers one request or none. -/
theorem takeMessage (h : Balanced x gone) (hk : (PendingTable.keys x.pending).Nodup) (now : Time)
    (m : Message) : Balanced (x.takeMessage now m).1 gone := by
  by_cases hnoop : m.type = MessageType.noop
  · rw [takeMessage_noop hnoop]
    exact h
  rcases hp : PendingTable.find? x.pending m.seq with _ | p
  · rw [takeMessage_unsolicited hnoop hp]
    exact h.takeUnsolicited m
  rw [takeMessage_pending hnoop hp]
  cases Verdict.ofMessage p.expectsAck m with
  | part => exact h.extend m
  | lastPart => exact (h.extend m).complete ((onTable_extend x m).keys.nodup hk) now m.seq _
  | final result => exact h.complete hk now m.seq result

theorem takeMessages (h : Balanced x gone) (hk : (PendingTable.keys x.pending).Nodup) (now : Time)
    (ms : List Message) : Balanced (x.takeMessages now ms).1 gone := by
  induction ms generalizing x with
  | nil => exact h
  | cons m rest ih => exact ih (h.takeMessage hk now m) ((onTable_takeMessage x now m).keys.nodup hk)

/-- The datagram's own counters are not those of requests. -/
theorem takeDatagram (h : Balanced x gone) (hk : (PendingTable.keys x.pending).Nodup) (now : Time)
    (data : Bytes) : Balanced (x.takeDatagram now data).1 gone := by
  have hcounting : Balanced (x.counting data) gone := h
  have hmessages := hcounting.takeMessages hk now (Datagram.messages data).1
  rw [takeDatagram_messages]
  cases (Datagram.messages data).2 with
  | none => exact hmessages
  | some error => exact hmessages

/-- What a sweep takes out of the table is counted as timed out or as cancelled. -/
theorem sweep (h : Balanced x gone) (hk : (PendingTable.keys x.pending).Nodup) :
    Balanced (x.sweep now).1 gone := by
  have hall := List.length_eq_length_filter_add (l := x.pending) fun e => e.2.isDue now
  have hdue := List.length_eq_countP_add_countP (fun e => e.2.responder.isGone)
    (l := x.pending.filter fun e => e.2.isDue now)
  simp only [Bool.not_eq_true, Bool.decide_eq_false] at hdue
  rw [sweep_eq hk, foldl_countGivenUp]
  unfold Balanced at h ⊢
  dsimp only
  omega

/-- A request is counted when it gets a place in the table, be it the place of another one. -/
theorem register (h : Balanced x gone) (hk : (PendingTable.keys x.pending).Nodup)
    (hroom : x.pending.length < x.options.maxPending) {request : Request} (hfits : request.Fits)
    (responder : Responder) :
    Balanced (x.register now request responder).1
      (gone + ((PendingTable.keys x.pending).contains (nextSeq x.lastSeq)).toNat) := by
  have hinsert : (PendingTable.insert x.pending (nextSeq x.lastSeq)
      (x.entry now request responder)).length =
        (PendingTable.erase x.pending (nextSeq x.lastSeq)).length + 1 := by
    rw [PendingTable.insert, List.length_append, List.length_singleton]
  rw [register_fits hroom hfits]
  unfold Balanced at h ⊢
  show x.tally.requests + 1 = x.tally.responses + x.tally.timeouts + x.tally.cancelled +
    (PendingTable.insert x.pending (nextSeq x.lastSeq) (x.entry now request responder)).length +
      (gone + ((PendingTable.keys x.pending).contains (nextSeq x.lastSeq)).toNat)
  -- either the table grows by one, or an entry is overwritten and counted as gone
  rcases hp : PendingTable.find? x.pending (nextSeq x.lastSeq) with _ | p
  · have hnew := PendingTable.find?_eq_none.mp hp
    have hcontains : (PendingTable.keys x.pending).contains (nextSeq x.lastSeq) = false := by
      simpa using hnew
    rw [hinsert, PendingTable.erase_of_not_mem hnew, hcontains, Bool.toNat_false]
    omega
  · have hmem : nextSeq x.lastSeq ∈ PendingTable.keys x.pending :=
      List.mem_map.mpr ⟨_, PendingTable.mem_of_find? hp, rfl⟩
    have hcontains : (PendingTable.keys x.pending).contains (nextSeq x.lastSeq) = true := by
      simpa using hmem
    have hlength := (PendingTable.perm_cons_erase hk hp).length_eq
    rw [List.length_cons] at hlength
    rw [hinsert, hcontains, Bool.toNat_true]
    omega

/-- An event keeps the balance, but for the requests that are lost with the transport and the one
that may lose its number to another. -/
theorem acts {e : ExchangeEvent} {r : Exchange × List ExchangeOutput} (h : Balanced x gone)
    (hx : Tidy x) (hr : Acts x e r) :
    Balanced r.1 (gone + lossesIn r.2 + (x.displaces e).toNat) := by
  have hlosses := hr.lossesIn_eq_zero hx
  -- most events lose nothing and give out no number
  have hkept (hbalanced : Balanced r.1 gone) (he : e.isFailure = false)
      (hnumbers : x.numbers e = false) :
      Balanced r.1 (gone + lossesIn r.2 + (x.displaces e).toNat) := by
    rw [hlosses he, displaces_of_not_numbers hnumbers]
    exact hbalanced
  cases hr with
  | quiet hquiet =>
    have hnone : lossesIn r.2 = 0 := lossesIn_eq_zero.mpr fun o ho =>
      ExchangeOutput.isLoss_of_isNotice (hquiet.outputs o ho)
    have hlength := congrArg List.length hquiet.keys
    rw [PendingTable.length_keys, PendingTable.length_keys] at hlength
    rw [hnone, displaces_of_not_numbers hquiet.unnumbered, hquiet.frame]
    unfold Balanced at h ⊢
    dsimp only
    rw [hlength]
    exact h
  | @registers now joined request responder rest hrunning hcommands =>
    have hpopped : Balanced (x.popped rest) gone := h
    by_cases hroom : x.pending.length < x.options.maxPending
    · by_cases hfits : request.Fits
      · rw [hlosses rfl, displaces_take hrunning hcommands hroom hfits]
        exact hpopped.register hx.nodup hroom hfits responder
      · have hplace : x.displaces (.take now joined) = false := by
          simp [displaces, admits_take hrunning hcommands, hroom, hfits]
        rw [hlosses rfl, register_oversized (x := x.popped rest) hroom hfits, hplace]
        exact hpopped
    · refine hkept ?_ rfl ?_
      · rw [register_full (x := x.popped rest) (Nat.le_of_not_lt hroom)]
        exact hpopped
      · rw [numbers_take hrunning hcommands, decide_eq_false hroom]
  | @refuses now error seq datagram rest hegress =>
    have hpopped : Balanced { x with egress := rest } gone := h
    exact hkept (hpopped.complete hx.nodup now seq _) rfl rfl
  | receives hrunning => exact hkept (h.takeDatagram hx.nodup _ _) rfl rfl
  | @loses now error hrunning herror =>
    -- all that is pending is lost at once
    rw [lossesIn_shutdown, displaces_of_not_numbers rfl]
    unfold Balanced at h ⊢
    show x.tally.requests = x.tally.responses + x.tally.timeouts + x.tally.cancelled + 0 +
      (gone + x.pending.length + 0)
    omega
  | sweeps hrunning => exact hkept (h.sweep hx.nodup) rfl rfl
  | transmits | rests | reads | closes => exact hkept h rfl rfl

end Balanced

/-! ## Runs -/

/-- An exchange that has ended stays so. -/
theorem stopped_step {x : Exchange} (h : x.isRunning = false) (e : ExchangeEvent) :
    (x.step e).1.isRunning = false := by
  cases e with
  | readNotification => exact (onTable_readNotification x).isRunning.trans h
  | _ => simp [step, submit, abandon, h]

/-- A failure of the connection ends the exchange at once. -/
theorem stopped_of_failure (x : Exchange) {e : ExchangeEvent} (he : e.isFailure = true) :
    (x.step e).1.isRunning = false := by
  rcases hrunning : x.isRunning with _ | _
  · exact stopped_step hrunning e
  · cases e with
    | receive now result =>
      rcases result with error | data
      · have herror : error.isOverrun = false := by simpa [ExchangeEvent.isFailure] using he
        simp [step, hrunning, receive, herror, shutdown]
      · cases he
    | _ => cases he

section Runs

variable {port : UInt32} {options : ExchangeOptions} {trace : List Moment} {x : Exchange}

/-- By induction on the run, what is displaced being gone without a count. -/
theorem Runs.balanced (h : Runs (start port options) trace x) :
    Balanced x (lossesIn (outputsOf trace) + displacedIn trace) := by
  induction h with
  | init => rfl
  | @next trace x t e h hlisted ih =>
    have hstep := (ih.relist hlisted).acts (h.tidy.relist hlisted) ((x.relist t).acts e)
    have hlogs : lossesIn (outputsOf (trace ++ [⟨x.relist t, e⟩])) +
          displacedIn (trace ++ [⟨x.relist t, e⟩]) =
        lossesIn (outputsOf trace) + displacedIn trace + lossesIn ((x.relist t).step e).2 +
          ((x.relist t).displaces e).toNat := by
      rw [outputsOf_concat, lossesIn_append, displacedIn_concat]
      dsimp only
      omega
    rw [hlogs]
    exact hstep

/-- Nothing starts an exchange again. -/
theorem Runs.stopped (h : Runs (start port options) trace x)
    (hfailure : trace.any (·.event.isFailure) = true) : x.isRunning = false := by
  induction h with
  | init => cases hfailure
  | @next trace x t e h hlisted ih =>
    rw [List.any_append, Bool.or_eq_true] at hfailure
    rcases hfailure with hbefore | hnow
    · exact stopped_step (x := x.relist t) (ih hbefore) e
    · exact stopped_of_failure (x.relist t) (by simpa using hnow)

/-- Callers are told of a loss only once the transport has failed. -/
theorem Runs.lossesIn_eq_zero (h : Runs (start port options) trace x)
    (hfailure : trace.any (·.event.isFailure) = false) : lossesIn (outputsOf trace) = 0 := by
  induction h with
  | init => rfl
  | @next trace x t e h hlisted ih =>
    rw [List.any_append, Bool.or_eq_false_iff] at hfailure
    have hnow : e.isFailure = false := by simpa using hfailure.2
    have hstep := ((x.relist t).acts e).lossesIn_eq_zero (h.tidy.relist hlisted) hnow
    rw [outputsOf_concat, lossesIn_append, ih hfailure.1, hstep]

/-- As long as the transport has not failed, every request that was registered was answered, timed
out, was cancelled or is pending; once it has failed, what is missing was lost with it. In either
case this leaves out the requests whose number was given to another one while they were pending,
which does not happen before all numbers have been given out. -/
theorem requests_balanced (h : Runs (start port options) trace x) :
    (trace.any (·.event.isFailure) = false →
        x.tally.requests =
          x.tally.responses + x.tally.timeouts + x.tally.cancelled + x.pending.length +
            displacedIn trace) ∧
      (trace.any (·.event.isFailure) = true →
        x.tally.requests =
          x.tally.responses + x.tally.timeouts + x.tally.cancelled + lossesIn (outputsOf trace) +
            displacedIn trace) ∧
      (numberedIn trace < UInt32.size → displacedIn trace = 0) := by
  have hbalanced := h.balanced
  unfold Balanced at hbalanced
  refine ⟨?_, ?_, h.displacedIn_eq_zero⟩
  · intro hfailure
    rw [h.lossesIn_eq_zero hfailure] at hbalanced
    omega
  · intro hfailure
    -- an exchange that has ended has nothing pending
    rw [h.tidy.ended (h.stopped hfailure), List.length_nil] at hbalanced
    omega

/-- Four requests: the first is not sent, the second reaches its deadline, the caller of the third
goes away, and the fourth is lost with the transport. -/
def fourEnds : List ExchangeEvent :=
  [.submit (.send (.ofCommand 28 1 1) (.callback 1)),
    .submit (.send ((Request.ofCommand 28 1 1).withTimeout (Time.ofMillis 50)) (.waiting 2)),
    .submit (.send (.ofCommand 28 1 1) (.waiting 3)),
    .submit (.send (.ofCommand 28 1 1) (.waiting 4)),
    .take 0 (.ok ()), .take 0 (.ok ()), .take 0 (.ok ()), .take 0 (.ok ()),
    .transmit 0 (.error (.simple .permissionDenied)), .abandon 3, .sweep (Time.ofMillis 100),
    .receive (Time.ofMillis 120) (.error (.simple .connectionReset))]

theorem requests_balanced_fourEnds :
    Runs (start 7 {}) ((start 7 {}).moments fourEnds) ((start 7 {}).after fourEnds) ∧
      ((start 7 {}).moments fourEnds).any (·.event.isFailure) = true ∧
      numberedIn ((start 7 {}).moments fourEnds) = 4 ∧
      ((start 7 {}).after fourEnds).tally.requests = 1 + 1 + 1 + 1 + 0 := by
  have hruns := runs_moments (start 7 {}) fourEnds
  have hfailure : ((start 7 {}).moments fourEnds).any (·.event.isFailure) = true := by decide
  have hfour : numberedIn ((start 7 {}).moments fourEnds) = 4 := by decide
  have hbalanced := requests_balanced hruns
  have hfew : numberedIn ((start 7 {}).moments fourEnds) < UInt32.size := by
    rw [hfour]
    decide
  have hsum := hbalanced.2.1 hfailure
  rw [hbalanced.2.2 hfew] at hsum
  exact ⟨hruns, hfailure, hfour, hsum⟩

/-- A caller that has gone away when the transport fails. -/
def leftBehind : List ExchangeEvent :=
  [.submit (.send (.ofCommand 28 1 1) (.waiting 1)), .take 0 (.ok ()), .abandon 1,
    .receive 5 (.error (.os ⟨104⟩))]

/-- The counters miss a request whose number is given out again while it is pending. Once the transport
has failed, they also miss the requests whose callers had gone away and not been noticed: these are
counted neither as cancelled nor as answered, and nobody hears of their loss. -/
theorem not_forall_balanced :
    (¬ ∀ (port : UInt32) (options : ExchangeOptions) (trace : List Moment) (x : Exchange),
        Runs (start port options) trace x → trace.any (·.event.isFailure) = false →
          x.tally.requests =
            x.tally.responses + x.tally.timeouts + x.tally.cancelled + x.pending.length) ∧
      ¬ ∀ (port : UInt32) (options : ExchangeOptions) (trace : List Moment) (x : Exchange),
        Runs (start port options) trace x → trace.any (·.event.isFailure) = true →
          x.tally.requests =
            x.tally.responses + x.tally.timeouts + x.tally.cancelled +
              (outputsOf trace).countP fun o => o.isLoss && o.isHeard := by
  constructor
  · intro hall
    obtain ⟨n, hround⟩ := exists_round
    have hruns := runs_moments patient (wholeRound probeRequest n)
    have hplace := displacedIn_pos (waiting_mem_displacedOf_wholeRound fits_probeRequest hround)
    have hfailure : (patient.moments (wholeRound probeRequest n)).any (·.event.isFailure) = false := by
      refine List.any_eq_false.mpr ?_
      intro m hm
      rcases mem_wholeRound (event_mem_of_mem_moments hm) with ⟨c, he⟩ | he | he | ⟨data, he⟩ <;>
        simp [he, ExchangeEvent.isFailure]
    have hbalanced := hruns.balanced
    unfold Balanced at hbalanced
    rw [hruns.lossesIn_eq_zero hfailure] at hbalanced
    have hsum := hall _ _ _ _ hruns hfailure
    omega
  · intro hall
    have hlost := hall 7 {} _ _ (runs_moments (start 7 {}) leftBehind) (by decide)
    revert hlost
    decide

end Runs

end Exchange

end Vswitch
