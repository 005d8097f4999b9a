import Mathlib
import Vswitch.Proofs.Exchange.Awaiting
import Vswitch.Proofs.Exchange.Cause

/-!
# Sweeps are exact

A sweep gives up the requests whose deadline has come or whose caller has gone away, in whatever order
the table lists them, and leaves all others as they are. The deadline of a request is set when it is
registered and does not move after that, so nobody is told of a deadline that is still to come, and
nothing overdue stays behind a sweep.

* `Exchange.Sweeps`, `Exchange.sweeps_relist`: what one sweep does to an exchange;
* `Exchange.mem_pending_step`: what is pending after an event was pending before it, with the same
  deadline and caller, or is registered by it;
* `Exchange.DatedIn`, `Exchange.Runs.dated`: where the deadline of a pending request comes from;
* `Exchange.sweeps_exact`: one sweep, and all sweeps of a run.
-/

namespace Vswitch

namespace Pending

/-- Whether the deadline is still to come and the caller is there. -/
def waitsAt (p : Pending) (now : Time) : Bool := decide (now < p.deadline) && !p.responder.isGone

/-- Whether the deadline has come and the caller is there. -/
def timesOut (p : Pending) (now : Time) : Bool := decide (p.deadline ≤ now) && !p.responder.isGone

/-- A request waits until its deadline, as long as its caller does. -/
theorem waitsAt_iff {p : Pending} {now : Time} :
    p.waitsAt now = true ↔ now < p.deadline ∧ p.responder.isGone = false := by
  simp [waitsAt]

/-- A sweep leaves exactly what still waits. -/
theorem not_isDue (p : Pending) (now : Time) : (!p.isDue now) = p.waitsAt now := by
  rw [Bool.eq_iff_iff, waitsAt_iff]
  simp [isDue]

/-- Of what is due, a timeout is for callers that are there. -/
theorem isDue_and_there (p : Pending) (now : Time) :
    (!p.responder.isGone && p.isDue now) = p.timesOut now := by
  cases h : p.responder.isGone <;> simp [isDue, timesOut, h]

/-- A request whose caller is gone is due whatever its deadline. -/
theorem isDue_and_gone (p : Pending) (now : Time) :
    (p.responder.isGone && p.isDue now) = p.responder.isGone := by
  cases h : p.responder.isGone <;> simp [isDue, h]

end Pending

namespace Exchange

/-! ## One sweep -/

/-- A sweep at `now` makes `r` of the exchange `x`. The requests stay, as they are, whose deadline is
still to come and whose caller is there. Of the others, those whose caller is there are told that their
deadline has come and are counted as timed out, and the rest is counted as cancelled. -/
structure Sweeps (x : Exchange) (now : Time) (r : Exchange × List ExchangeOutput) : Prop where
  stays : r.1.pending.Perm (x.pending.filter fun e => e.2.waitsAt now)
  answers : r.2.Perm ((x.pending.filter fun e => e.2.timesOut now).map timedOut)
  tally : r.1.tally = { x.tally with
    timeouts := x.tally.timeouts + x.pending.countP fun e => e.2.timesOut now
    cancelled := x.tally.cancelled + x.pending.countP fun e => e.2.responder.isGone }
  frame : r.1 = { x with pending := r.1.pending, history := r.1.history, tally := r.1.tally }

variable {x y : Exchange} {t : PendingTable} {now : Time} {s : UInt32} {p : Pending}

/-- A sweep is the same for every order of the table. -/
theorem sweeps_relist (hx : Tidy x) (hlisted : t.Perm x.pending) (now : Time) :
    Sweeps x now ((x.relist t).sweep now) := by
  have hk := (hx.relist hlisted).nodup
  rw [sweep_eq hk]
  -- a sweep filters the table, and what a filter keeps of a permutation is a permutation
  constructor
  · show (t.filter _).Perm _
    simp only [Pending.not_isDue]
    exact hlisted.filter _
  · show ((t.filter _).filter _).map timedOut |>.Perm _
    rw [List.filter_filter]
    simp only [Pending.isDue_and_there]
    exact (hlisted.filter _).map timedOut
  · show (t.filter _).foldl countGivenUp x.tally = _
    rw [foldl_countGivenUp, List.countP_filter, List.countP_filter]
    simp only [Pending.isDue_and_there, Pending.isDue_and_gone]
    rw [hlisted.countP_eq, hlisted.countP_eq]
  · rfl

/-! ## Deadlines do not move -/

/-- What is pending in `y` was pending in `x`, with the same deadline and the same caller. -/
def Stems (x y : Exchange) : Prop :=
  ∀ s p, (s, p) ∈ y.pending →
    ∃ q, (s, q) ∈ x.pending ∧ q.deadline = p.deadline ∧ q.responder.identity = p.responder.identity

/-- Taking requests away moves no deadline. -/
theorem stems_of_subset (h : ∀ e ∈ y.pending, e ∈ x.pending) : Stems x y := by
  intro s p hp
  exact ⟨p, h _ hp, rfl, rfl⟩

/-- What retains its requests keeps their deadlines. -/
theorem Retains.stems (h : Retains x y) (hk : (PendingTable.keys y.pending).Nodup) : Stems x y := by
  intro s p hp
  obtain ⟨q, hq, hdeadline, hresponder⟩ := h s p (PendingTable.find?_of_mem hk hp)
  exact ⟨q, PendingTable.mem_of_find? hq, hdeadline, congrArg Responder.identity hresponder⟩

/-- A caller that leaves is the same caller, and the deadline stays. -/
theorem stems_abandon (x : Exchange) (ticket : Nat) : Stems x (x.abandon ticket) := by
  intro s p hp
  obtain ⟨⟨k, q⟩, hq, heq⟩ := List.mem_map.mp hp
  cases heq
  exact ⟨q, hq, rfl, (Responder.identity_abandon q.responder ticket).symm⟩

/-- What is pending after a registration was pending before, or is the new request under the next
number, if there was room and the encoder accepted it. -/
theorem mem_pending_register {request : Request} {responder : Responder}
    (hp : (s, p) ∈ (x.register now request responder).1.pending) :
    (s, p) ∈ x.pending ∨
      x.pending.length < x.options.maxPending ∧ s = nextSeq x.lastSeq ∧
        (∃ datagram, Datagram.encode (request.toMessage s x.port) = .ok datagram) ∧
        p = x.entry now request responder := by
  rcases x.register_cases now request responder with
    ⟨-, heq⟩ | ⟨-, error, -, heq⟩ | ⟨hroom, datagram, he, heq⟩
  · rw [heq] at hp
    exact Or.inl hp
  · rw [heq] at hp
    exact Or.inl hp
  · rw [heq] at hp
    rcases List.mem_append.mp hp with hold | hnew
    · exact Or.inl (PendingTable.mem_erase.mp hold).1
    · cases List.mem_singleton.mp hnew
      exact Or.inr ⟨hroom, rfl, ⟨datagram, he⟩, rfl⟩

/-- Submitting touches no pending request. -/
theorem stems_submit (x : Exchange) (command : Command) : Stems x (x.step (.submit command)).1 := by
  apply stems_of_subset
  rcases hrunning : x.isRunning with _ | _
  · rw [submit_stopped hrunning]
    exact fun e he => he
  · rw [submit_running hrunning]
    exact fun e he => he

/-- Nor does a datagram that is sent. One that is refused takes its request away. -/
theorem stems_transmit (hx : Tidy x) (now : Time) (result : Except IoError Nat) :
    Stems x (x.step (.transmit now result)).1 := by
  have hk := (hx.step (.transmit now result)).nodup
  simp only [step] at hk ⊢
  split_ifs at hk ⊢ with hrunning
  · unfold transmit at hk ⊢
    rcases hegress : x.egress with _ | ⟨⟨seq, datagram⟩, rest⟩
    · exact stems_of_subset fun e he => he
    rw [hegress] at hk
    rcases result with error | _
    · exact (retains_complete { x with egress := rest } now seq _).stems hk
    · exact stems_of_subset fun e he => he
  · exact stems_of_subset fun e he => he

/-- A datagram that arrives takes requests away and moves no deadline. -/
theorem stems_receive (hx : Tidy x) (now : Time) (result : Except IoError Bytes) :
    Stems x (x.step (.receive now result)).1 := by
  have hk := (hx.step (.receive now result)).nodup
  simp only [step] at hk ⊢
  split_ifs at hk ⊢ with hrunning
  · rcases result with error | data
    · simp only [receive]
      split_ifs
      · exact stems_of_subset fun e he => he
      · -- nothing is pending once the transport has failed
        exact stems_of_subset fun e he => absurd he List.not_mem_nil
    · exact (retains_takeDatagram x now data).stems hk
  · exact stems_of_subset fun e he => he

/-- So does a sweep. -/
theorem stems_sweep (hx : Tidy x) (now : Time) : Stems x (x.step (.sweep now)).1 := by
  apply stems_of_subset
  simp only [step]
  split_ifs with hrunning
  · rw [sweep_eq hx.nodup]
    exact fun e he => (List.mem_filter.mp he).1
  · exact fun e he => he

/-- Taking a command adds at most the request it carries. -/
theorem mem_pending_take {joined : Except IoError Unit}
    (hp : (s, p) ∈ (x.step (.take now joined)).1.pending) :
    (s, p) ∈ x.pending ∨
      ∃ request owner, x.Registers request owner s ∧ p = x.entry now request owner := by
  rcases hrunning : x.isRunning with _ | _
  · rw [(take_stopped hrunning).1] at hp
    exact Or.inl hp
  rcases hcommands : x.commands with _ | ⟨⟨request, owner⟩ | _, rest⟩
  · rw [(take_nil hcommands).1] at hp
    exact Or.inl hp
  · rw [(x.take_send now joined hrunning hcommands).1] at hp
    rcases mem_pending_register hp with hold | ⟨hroom, hnext, hencodes, hentry⟩
    · exact Or.inl hold
    · exact Or.inr ⟨request, owner, ⟨hrunning, ⟨rest, hcommands⟩, hroom, hnext, hencodes⟩, hentry⟩
  · rw [(take_join hrunning hcommands).1] at hp
    exact Or.inl hp

/-- What is pending after an event was pending before it, with the same deadline and the same caller,
or is registered by it. -/
theorem mem_pending_step (hx : Tidy x) {e : ExchangeEvent} (hp : (s, p) ∈ (x.step e).1.pending) :
    (∃ q, (s, q) ∈ x.pending ∧ q.deadline = p.deadline ∧
        q.responder.identity = p.responder.identity) ∨
      ∃ start joined request owner, e = .take start joined ∧ x.Registers request owner s ∧
        p = x.entry start request owner := by
  cases e with
  | take start joined =>
    rcases mem_pending_take hp with hold | ⟨request, owner, hregisters, hentry⟩
    · exact Or.inl ⟨p, hold, rfl, rfl⟩
    · exact Or.inr ⟨start, joined, request, owner, rfl, hregisters, hentry⟩
  | submit command => exact Or.inl (stems_submit x command s p hp)
  | abandon ticket => exact Or.inl (stems_abandon x ticket s p hp)
  | transmit now result => exact Or.inl (stems_transmit hx now result s p hp)
  | receive now result => exact Or.inl (stems_receive hx now result s p hp)
  | sweep now => exact Or.inl (stems_sweep hx now s p hp)
  | readNotification =>
    simp only [step, readNotification] at hp
    rcases hnotifications : x.notifications with _ | ⟨m, rest⟩
    · rw [hnotifications] at hp
      exact Or.inl ⟨p, hp, rfl, rfl⟩
    · rw [hnotifications] at hp
      exact Or.inl ⟨p, hp, rfl, rfl⟩
  | dropHandles | rest | closeNotifications => exact Or.inl ⟨p, hp, rfl, rfl⟩

/-- The request `s` was registered at a moment of the run for the caller of `p`, and the deadline of
`p` is as long after that as the request says, or else the options. -/
def DatedIn (options : ExchangeOptions) (trace : List Moment) (s : UInt32) (p : Pending) : Prop :=
  ∃ m ∈ trace, ∃ start joined request owner,
    m.event = .take start joined ∧ m.exchange.Registers request owner s ∧
      owner.identity = p.responder.identity ∧
      p.deadline = start + request.timeout.getD options.timeout

section Runs

variable {port : UInt32} {options : ExchangeOptions} {trace : List Moment}

/-- Every pending request has the deadline that it was given when it was registered. -/
theorem Runs.dated (h : Runs (start port options) trace x) (hp : (s, p) ∈ x.pending) :
    DatedIn options trace s p := by
  induction h generalizing p with
  | init => cases hp
  | @next trace x t e h hlisted ih =>
    -- parts may have come since, so only deadline and caller are those of the entry before
    rcases mem_pending_step (h.tidy.relist hlisted) hp with hold | hnew
    · obtain ⟨q, hq, hdeadline, hidentity⟩ := hold
      obtain ⟨m, hm, start, joined, request, owner, he, hregisters, howner, hset⟩ :=
        ih (hlisted.mem_iff.mp hq)
      exact ⟨m, List.mem_append_left _ hm, start, joined, request, owner, he, hregisters,
        howner.trans hidentity, hdeadline.symm.trans hset⟩
    · obtain ⟨first, joined, request, owner, rfl, hregisters, rfl⟩ := hnew
      refine ⟨_, List.mem_append_right _ List.mem_cons_self, first, joined, request, owner, rfl,
        hregisters, rfl, ?_⟩
      have hoptions : (x.relist t).options = options := (h.settings_eq (.start port options)).2
      rw [entry, hoptions]

/-- Nothing overdue is pending after a sweep. -/
theorem not_overdue_step (hx : Tidy x) (hp : (s, p) ∈ (x.step (.sweep now)).1.pending) :
    now < p.deadline ∧ p.responder.isGone = false := by
  simp only [step] at hp
  split_ifs at hp with hrunning
  · have hstays := (sweeps_relist hx (.refl _) now).stays.mem_iff.mp hp
    exact Pending.waitsAt_iff.mp (List.mem_filter.mp hstays).2
  · rw [hx.ended (by simpa using hrunning)] at hp
    cases hp

/-- A sweep, whatever the order of the table, gives up what is due, answers and counts it once, and
leaves all else alone. In a run, a caller is told that its deadline has come only by a sweep at or after
the deadline that its request was given when it was registered, and no request stays behind a sweep
that is overdue or whose caller has gone away. -/
theorem sweeps_exact (h : Runs (start port options) trace x) :
    (∀ t now, t.Perm x.pending → Sweeps x now ((x.relist t).sweep now)) ∧
      (∀ before m later responder, trace = before ++ m :: later →
        .answer responder (.error .timeout) ∈ (m.exchange.step m.event).2 →
          ∃ now s p, m.event = .sweep now ∧ (s, p) ∈ m.exchange.pending ∧ p.responder = responder ∧
            p.deadline ≤ now ∧ DatedIn options before s p) ∧
      ∀ m ∈ trace, ∀ now, m.event = .sweep now →
        ∀ s p, (s, p) ∈ (m.exchange.step m.event).1.pending →
          now < p.deadline ∧ p.responder.isGone = false := by
  refine ⟨?_, ?_, ?_⟩
  · intro t now hlisted
    exact sweeps_relist h.tidy hlisted now
  · rintro before ⟨z, e⟩ later responder rfl hanswer
    obtain ⟨y, t, hbefore, hlisted, hexchange⟩ := h.at_moment
    obtain rfl : z = y.relist t := hexchange
    -- of all causes of an error only a deadline is told as one
    cases (acts _ e).cause (hbefore.tidy.relist hlisted).nodup hanswer with
    | due hmem hdeadline hthere =>
      exact ⟨_, _, _, rfl, hmem, rfl, hdeadline, hbefore.dated (hlisted.mem_iff.mp hmem)⟩
    | reported hreported => cases hreported
  · rintro ⟨z, e⟩ hm now rfl s p hp
    exact not_overdue_step (h.tidy_moment hm) hp

/-- The first part of the reply to the second request. -/
def firstPart : Message := ⟨⟨20, 28, Flag.multi, 2, 7⟩, [1, 0, 0, 0]⟩

/-- Four requests: the first and the last have little time, the second has a part of its reply, and the
caller of the third goes away. -/
def fourWaits : List ExchangeEvent :=
  [.submit (.send ((Request.ofCommand 28 1 1).withTimeout (Time.ofMillis 50)) (.waiting 1)),
    .submit (.send listing (.waiting 2)),
    .submit (.send (.ofCommand 28 1 1) (.waiting 3)),
    .submit (.send ((Request.ofCommand 28 1 1).withTimeout (Time.ofMillis 80)) (.callback 4)),
    .take 0 (.ok ()), .take 0 (.ok ()), .take 0 (.ok ()), .take 0 (.ok ()),
    .receive (Time.ofMillis 10) (.ok (firstPart.header.encode ++ firstPart.payload)), .abandon 3]

/-- A sweep that goes through the table from the last request to the first. -/
def backwardSweep : Moment :=
  ⟨((start 7 {}).after fourWaits).relist ((start 7 {}).after fourWaits).pending.reverse,
    .sweep (Time.ofMillis 100)⟩

/-- The first and the last request are answered, the third is forgotten, and the second keeps its
part. -/
theorem sweeps_exact_fourWaits :
    Runs (start 7 {}) ((start 7 {}).moments fourWaits ++ [backwardSweep])
        (backwardSweep.exchange.step backwardSweep.event).1 ∧
      Sweeps ((start 7 {}).after fourWaits) (Time.ofMillis 100)
        (backwardSweep.exchange.sweep (Time.ofMillis 100)) ∧
      (((start 7 {}).after fourWaits).pending.filter fun e => e.2.waitsAt (Time.ofMillis 100)) =
        [(2, ⟨0, Time.ofSeconds 5, [firstPart], false, .waiting 2⟩)] ∧
      .answer (.callback 4) (.error .timeout) ∈
        (backwardSweep.exchange.step backwardSweep.event).2 ∧
      (∃ now s p, backwardSweep.event = .sweep now ∧ (s, p) ∈ backwardSweep.exchange.pending ∧
        p.responder = .callback 4 ∧ p.deadline ≤ now ∧
          DatedIn {} ((start 7 {}).moments fourWaits) s p) ∧
      ∀ s p, (s, p) ∈ (backwardSweep.exchange.step backwardSweep.event).1.pending →
        Time.ofMillis 100 < p.deadline ∧ p.responder.isGone = false := by
  have hbefore := runs_moments (start 7 {}) fourWaits
  have hruns : Runs (start 7 {}) ((start 7 {}).moments fourWaits ++ [backwardSweep])
      (backwardSweep.exchange.step backwardSweep.event).1 := .next hbefore (List.reverse_perm _)
  have hsweep := (sweeps_exact hbefore).1 _ (Time.ofMillis 100) (List.reverse_perm _)
  have hdue : (((start 7 {}).after fourWaits).pending.filter fun e => e.2.timesOut (Time.ofMillis 100))
      = [(1, ⟨0, Time.ofMillis 50, [], false, .waiting 1⟩),
        (4, ⟨0, Time.ofMillis 80, [], false, .callback 4⟩)] := by decide +kernel
  have hrunning : backwardSweep.exchange.isRunning = true := by decide +kernel
  have hanswer : .answer (.callback 4) (.error .timeout) ∈
      (backwardSweep.exchange.step backwardSweep.event).2 := by
    have hanswers := hsweep.answers
    rw [hdue] at hanswers
    rw [show backwardSweep.event = .sweep (Time.ofMillis 100) from rfl, step, if_pos hrunning]
    exact hanswers.mem_iff.mpr (List.mem_cons_of_mem _ List.mem_cons_self)
  have hrun := (sweeps_exact hruns).2
  exact ⟨hruns, hsweep, by decide +kernel, hanswer, hrun.1 _ _ [] _ rfl hanswer,
    hrun.2 _ (List.mem_append_right _ List.mem_cons_self) _ rfl⟩

end Runs

end Exchange

end Vswitch
