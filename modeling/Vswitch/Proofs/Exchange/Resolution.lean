import Mathlib
import Vswitch.Proofs.Exchange.Admission

/-!
# Every request is settled exactly once

The callers of an exchange are conserved. A caller that hands over a request waits in the queue of
commands, waits in the pending table, has been answered, has been given up by a sweep because it had
gone away, or has lost its place in the table to another request with the same number. Every event
moves callers between these places and neither loses nor copies one. The last of them is empty until
all numbers have been given out.

* `Exchange.share_step`, `Exchange.Runs.share_eq`: the conservation law for an event and for a run;
* `Exchange.Runs.displacedOf_eq_nil`: before the numbers run out no request loses its place;
* `Exchange.Runs.share_taken`: whoever has a request taken handed it over and waits in the queue no more;
* `Exchange.taken_request_settled_once`: where a request that was taken stands at any moment of a run.

The law counts callers by any view `f` of a responder that does not see whether the caller has gone
away.
-/

namespace Vswitch

/-! ## Callers -/

/-- Who is to be answered, if the command is a request. -/
def Command.responder? : Command → Option Responder
  | .send _ responder => some responder
  | .join _ _ => none

/-- Who is answered, if the output is an answer to a request. -/
def ExchangeOutput.answered? : ExchangeOutput → Option Responder
  | .answer responder _ => some responder
  | _ => none

/-- Who hands over a request, if the event is one. -/
def ExchangeEvent.submitter? : ExchangeEvent → Option Responder
  | .submit command => command.responder?
  | _ => none

/-- The callers whose requests are handed over in a run, in order. -/
def submitters (es : List ExchangeEvent) : List Responder :=
  es.filterMap ExchangeEvent.submitter?

theorem submitters_append (es fs : List ExchangeEvent) :
    submitters (es ++ fs) = submitters es ++ submitters fs :=
  List.filterMap_append

/-- Every request of a run has a channel or a callback of its own. -/
def DistinctTickets (es : List ExchangeEvent) : Prop :=
  ((submitters es).map Responder.ticket).Nodup

instance : DecidablePred DistinctTickets := fun es =>
  inferInstanceAs (Decidable ((submitters es).map Responder.ticket).Nodup)

/-- A part of a run has different callers if the run has. -/
theorem DistinctTickets.of_append {es fs : List ExchangeEvent} (h : DistinctTickets (es ++ fs)) :
    DistinctTickets es := by
  unfold DistinctTickets at h ⊢
  rw [submitters_append, List.map_append] at h
  exact h.of_append_left

/-- The answers that the caller of a ticket is given. -/
def answersTo (ticket : Nat) (outs : List ExchangeOutput) : List Response :=
  outs.filterMap fun
    | .answer responder response => if responder.ticket = ticket then some response else none
    | _ => none

/-- The callers that are answered, in order. -/
def answered (outs : List ExchangeOutput) : List Responder :=
  outs.filterMap ExchangeOutput.answered?

theorem answered_append (outs outs' : List ExchangeOutput) :
    answered (outs ++ outs') = answered outs ++ answered outs' := by
  simp [answered]

theorem answersTo_append (ticket : Nat) (outs outs' : List ExchangeOutput) :
    answersTo ticket (outs ++ outs') = answersTo ticket outs ++ answersTo ticket outs' := by
  simp [answersTo]

/-- The answers to a caller are the answers with its ticket. -/
theorem length_answersTo (ticket : Nat) (outs : List ExchangeOutput) :
    (answersTo ticket outs).length = ((answered outs).map Responder.ticket).count ticket := by
  induction outs with
  | nil => rfl
  | cons o rest ih =>
    cases o with
    | answer responder response =>
      simp only [answersTo, answered, List.filterMap_cons, ExchangeOutput.answered?, List.map_cons,
        List.count_cons] at ih ⊢
      by_cases h : responder.ticket = ticket <;> simp [h, ih]
    | joined | transmitted | notified => exact ih

namespace Responder

/-- Whether the responder is a callback. -/
def isCallback : Responder → Bool
  | .channel _ _ => false
  | .callback _ => true

/-- What going away leaves unchanged of a responder. -/
def identity (r : Responder) : Nat × Bool := (r.ticket, r.isCallback)

theorem identity_abandon (r : Responder) (ticket : Nat) :
    (r.abandon ticket).identity = r.identity := by
  cases r <;> rfl

/-- A callback is never gone. -/
theorem isCallback_of_isGone {r : Responder} (h : r.isGone = true) : r.isCallback = false := by
  cases r with
  | channel => rfl
  | callback => cases h

end Responder

namespace PendingTable

/-- The callers of a table. -/
def responders (t : PendingTable) : List Responder := t.map fun e => e.2.responder

/-- A part of a response does not change who is answered. -/
theorem responders_modify_addPart (t : PendingTable) (s : UInt32) (m : Message) :
    responders (modify t s (·.addPart m)) = responders t := by
  rw [responders, responders, modify, List.map_map]
  refine List.map_congr_left ?_
  intro e _
  simp only [Function.comp_apply]
  split <;> rfl

end PendingTable

namespace Exchange

open PendingTable (responders)

/-- The callers whose commands wait. -/
def queued (x : Exchange) : List Responder := x.commands.filterMap Command.responder?

/-- The callers that are owed an answer. -/
def owed (x : Exchange) : List Responder := x.queued ++ responders x.pending

/-- The callers that an event gives up without an answer: those that have gone away by a sweep. -/
def givenUp (x : Exchange) : ExchangeEvent → List Responder
  | .sweep _ => (responders x.pending).filter (·.isGone)
  | _ => []

/-- The caller whose request an event takes from the queue. -/
def takes (x : Exchange) : ExchangeEvent → List Responder
  | .take _ _ => if x.isRunning then (x.commands.head?.bind Command.responder?).toList else []
  | _ => []

/-- The caller whose request loses its place in the table by an event. -/
def displaced (x : Exchange) (e : ExchangeEvent) : List Responder :=
  if x.displaces e then
    ((PendingTable.find? x.pending (nextSeq x.lastSeq)).map (·.responder)).toList
  else []

/-- Only a new number displaces a request. -/
theorem displaced_of_not_numbers {x : Exchange} {e : ExchangeEvent} (h : x.numbers e = false) :
    x.displaced e = [] := by
  rw [displaced, displaces_of_not_numbers h]
  rfl

/-- A request that finds room displaces the one that has the next number, if there is one. -/
theorem displaced_take {x : Exchange} {now : Time} {joined : Except IoError Unit}
    {request : Request} {responder : Responder} {rest : List Command}
    (hrunning : x.isRunning = true) (hcommands : x.commands = .send request responder :: rest)
    (hroom : x.pending.length < x.options.maxPending) (hfits : request.Fits) :
    x.displaced (.take now joined) =
      ((PendingTable.find? x.pending (nextSeq x.lastSeq)).map (·.responder)).toList := by
  rw [displaced, displaces_take hrunning hcommands hroom hfits]
  rcases hp : PendingTable.find? x.pending (nextSeq x.lastSeq) with _ | p
  · exact ite_self _
  · have hmem : nextSeq x.lastSeq ∈ PendingTable.keys x.pending :=
      List.mem_map.mpr ⟨_, PendingTable.mem_of_find? hp, rfl⟩
    rw [if_pos (List.contains_iff_mem.mpr hmem)]

end Exchange

/-! ## Logs of a run -/

/-- The callers whose requests are taken at the moments of a run, in order. -/
def takenIn (trace : List Moment) : List Responder :=
  trace.flatMap fun m => m.exchange.takes m.event

/-- The callers that are given up at the moments of a run. -/
def givenUpOf (trace : List Moment) : List Responder :=
  trace.flatMap fun m => m.exchange.givenUp m.event

/-- The callers that lose their place in the table at the moments of a run. -/
def displacedOf (trace : List Moment) : List Responder :=
  trace.flatMap fun m => m.exchange.displaced m.event

theorem takenIn_concat (trace : List Moment) (m : Moment) :
    takenIn (trace ++ [m]) = takenIn trace ++ m.exchange.takes m.event := by
  simp [takenIn]

theorem givenUpOf_concat (trace : List Moment) (m : Moment) :
    givenUpOf (trace ++ [m]) = givenUpOf trace ++ m.exchange.givenUp m.event := by
  simp [givenUpOf]

theorem displacedOf_concat (trace : List Moment) (m : Moment) :
    displacedOf (trace ++ [m]) = displacedOf trace ++ m.exchange.displaced m.event := by
  simp [displacedOf]

/-- Callers are given up only once they have gone away. -/
theorem isGone_of_mem_givenUpOf {trace : List Moment} {r : Responder} (h : r ∈ givenUpOf trace) :
    r.isGone = true := by
  obtain ⟨m, -, hr⟩ := List.mem_flatMap.mp h
  cases hevent : m.event with
  | sweep now =>
    rw [hevent] at hr
    exact (List.mem_filter.mp hr).2
  | _ =>
    rw [hevent] at hr
    cases hr

/-- As long as the numbers do not run out, no request loses its place. -/
theorem Exchange.Runs.displacedOf_eq_nil {port : UInt32} {options : ExchangeOptions}
    {trace : List Moment} {x : Exchange} (h : Runs (start port options) trace x)
    (hfew : numberedIn trace < UInt32.size) : displacedOf trace = [] := by
  have hzero := h.displacedIn_eq_zero hfew
  unfold displacedIn at hzero
  apply List.flatMap_eq_nil_iff.mpr
  intro m hm
  have hnot : m.exchange.displaces m.event = false := by
    simpa using List.countP_eq_zero.mp hzero m hm
  rw [displaced, hnot]
  rfl

namespace Exchange

open PendingTable (responders)

/-! ## The queue of commands -/

section Queue

variable {x : Exchange} {now : Time} {request : Request} {responder : Responder}
  {rest : List Command}

/-- Whoever hands over a request waits behind all others. -/
theorem queued_submit (hrunning : x.isRunning = true) (command : Command) :
    (x.step (.submit command)).1.queued = x.queued ++ submitters [.submit command] := by
  rw [submit_running hrunning, queued, List.filterMap_append]
  cases command <;> rfl

/-- A request in front of the commands is the first that is queued. -/
theorem queued_of_send (hc : x.commands = .send request responder :: rest) :
    x.queued = responder :: (x.popped rest).queued := by
  rw [queued, hc]
  rfl

/-- A join is no request, and taking it changes nothing about those queued. -/
theorem queued_of_join {group : UInt32} {ticket : Nat}
    (hc : x.commands = .join group ticket :: rest) : (x.popped rest).queued = x.queued := by
  rw [queued, queued, hc]
  rfl

/-- A registration does not touch the queue. -/
theorem queued_register : (x.register now request responder).1.queued = x.queued := by
  rw [queued, register_frame]
  rfl

theorem queued_transmit (result : Except IoError Nat) :
    (x.step (.transmit now result)).1.queued = x.queued := by
  simp only [step]
  split_ifs
  · unfold transmit
    rcases x.egress with _ | ⟨⟨seq, datagram⟩, rest⟩
    · rfl
    rcases result with error | _
    · rw [queued, (onTable_complete { x with egress := rest } now seq _).commands]
      rfl
    · rfl
  · rfl

/-- Only a transport that fails empties the queue without taking from it. -/
theorem queued_receive (result : Except IoError Bytes) :
    (x.step (.receive now result)).1.queued = x.queued ∨
      (x.step (.receive now result)).1.queued = [] := by
  simp only [step]
  split_ifs
  · rcases result with error | data
    · simp only [receive]
      split_ifs
      · exact Or.inl rfl
      · exact Or.inr rfl
    · left
      rw [receive, queued, (onTable_takeDatagram x now data).commands]
      rfl
  · exact Or.inl rfl

theorem queued_sweep (hk : (PendingTable.keys x.pending).Nodup) :
    (x.step (.sweep now)).1.queued = x.queued := by
  simp only [step]
  split_ifs
  · rw [queued, (onTable_sweep now hk).commands]
    rfl
  · rfl

end Queue

/-! ## Conservation of callers -/

section Conservation

variable {α : Type} [DecidableEq α] {f : Responder → α} {a : α} {x : Exchange}
  {now : Time}

/-- How many of several callers look like `a`. -/
def share (f : Responder → α) (a : α) (rs : List Responder) : Nat := (rs.map f).count a

@[simp] theorem share_nil : share f a [] = 0 := rfl

@[simp] theorem share_append (rs rs' : List Responder) :
    share f a (rs ++ rs') = share f a rs + share f a rs' := by
  simp [share]

theorem share_cons (r : Responder) (rs : List Responder) :
    share f a (r :: rs) = share f a [r] + share f a rs := share_append [r] rs

/-- A share does not depend on the order. -/
theorem share_perm {rs rs' : List Responder} (h : rs.Perm rs') : share f a rs = share f a rs' :=
  (h.map f).count_eq a

/-- There is a share just if someone has it. -/
theorem share_pos {rs : List Responder} : 0 < share f a rs ↔ ∃ r ∈ rs, f r = a := by
  rw [share, List.count_pos_iff, List.mem_map]

/-- No one's share is nothing. -/
theorem share_eq_zero {rs : List Responder} (h : ∀ r ∈ rs, f r ≠ a) : share f a rs = 0 := by
  refine Nat.eq_zero_of_not_pos fun hpos => ?_
  obtain ⟨r, hr, hshare⟩ := share_pos.mp hpos
  exact h r hr hshare

/-- Taking an entry out of the table takes its caller out. -/
theorem share_responders_erase {t : PendingTable} {s : UInt32} {p : Pending}
    (hk : (PendingTable.keys t).Nodup) (hp : PendingTable.find? t s = some p) :
    share f a (responders t) = share f a [p.responder] + share f a (responders (t.erase s)) := by
  have hperm := (PendingTable.perm_cons_erase hk hp).map fun e : UInt32 × Pending => e.2.responder
  exact (share_perm hperm).trans (share_cons _ _)

/-- Who is answered is no longer owed an answer: the two shares add up to what was owed. -/
theorem share_complete (hk : (PendingTable.keys x.pending).Nodup) (seq : UInt32)
    (result : Except ExchangeError Unit) :
    share f a (x.complete now seq result).1.owed +
        share f a (answered (x.complete now seq result).2) =
      share f a x.owed := by
  rcases hp : PendingTable.find? x.pending seq with _ | p
  · rw [complete_of_none hp]
    rfl
  · rw [complete_of_find? hp]
    have herase := share_responders_erase (f := f) (a := a) hk hp
    have hanswer : answered [.answer p.responder (result.map fun _ => p.parts)] = [p.responder] :=
      rfl
    simp only [owed, queued, share_append, hanswer] at herase ⊢
    omega

/-- A message for no request leaves all answers owed. -/
theorem owed_takeUnsolicited (m : Message) : (x.takeUnsolicited m).owed = x.owed := by
  unfold takeUnsolicited
  split_ifs <;> rfl

/-- So does a part of a response. -/
theorem owed_extend (m : Message) : (x.extend m).owed = x.owed := by
  simp only [owed, queued, extend, PendingTable.responders_modify_addPart]

/-- A message moves at most one request from those owed to those answered. -/
theorem share_takeMessage (hk : (PendingTable.keys x.pending).Nodup) (now : Time) (m : Message) :
    share f a (x.takeMessage now m).1.owed + share f a (answered (x.takeMessage now m).2) =
      share f a x.owed := by
  by_cases hnoop : m.type = MessageType.noop
  · rw [takeMessage_noop hnoop]
    rfl
  rcases hp : PendingTable.find? x.pending m.seq with _ | p
  · rw [takeMessage_unsolicited hnoop hp, owed_takeUnsolicited]
    rfl
  rw [takeMessage_pending hnoop hp]
  have hkeys := (onTable_extend x m).keys.nodup hk
  cases Verdict.ofMessage p.expectsAck m with
  | part =>
    simp only [owed_extend]
    rfl
  | lastPart => exact (share_complete hkeys m.seq _).trans (by rw [owed_extend])
  | final result => exact share_complete hk m.seq result

/-- So do messages, each by itself. -/
theorem share_takeMessages (hk : (PendingTable.keys x.pending).Nodup) (now : Time)
    (ms : List Message) :
    share f a (x.takeMessages now ms).1.owed + share f a (answered (x.takeMessages now ms).2) =
      share f a x.owed := by
  induction ms generalizing x with
  | nil => rfl
  | cons m rest ih =>
    have hfirst := share_takeMessage (f := f) (a := a) hk now m
    have hlater := ih ((onTable_takeMessage x now m).keys.nodup hk)
    simp only [takeMessages, answered_append, share_append]
    omega

/-- So does a datagram, whose counters owe nobody. -/
theorem share_takeDatagram (hk : (PendingTable.keys x.pending).Nodup) (now : Time)
    (data : Bytes) :
    share f a (x.takeDatagram now data).1.owed + share f a (answered (x.takeDatagram now data).2) =
      share f a x.owed := by
  rcases takeDatagram_eq x now data with ⟨tally, heq⟩
  rw [heq]
  exact share_takeMessages (x := x.counting data) hk now _

/-- A sweep answers those that are due and still there, and gives up those that have gone away. -/
theorem share_sweep (hk : (PendingTable.keys x.pending).Nodup) :
    share f a (x.sweep now).1.owed + share f a (answered (x.sweep now).2) +
      share f a ((responders x.pending).filter (·.isGone)) = share f a x.owed := by
  have hanswered : ∀ t : PendingTable, answered (t.map timedOut) = responders t := by
    intro t
    simp [answered, timedOut, ExchangeOutput.answered?, responders, Function.comp_def]
  have hgone : (responders x.pending).filter (·.isGone) =
      responders ((x.pending.filter fun e => e.2.isDue now).filter
        fun e => e.2.responder.isGone) := by
    rw [List.filter_filter, responders, responders, List.filter_map]
    congr 1
    refine List.filter_congr fun e _ => ?_
    cases h : e.2.responder.isGone <;> simp [Pending.isDue, h]
  -- the table is what stays, what is answered and what is gone
  have hdue : (x.pending.filter fun e => e.2.isDue now).Perm
      (((x.pending.filter fun e => e.2.isDue now).filter fun e => e.2.responder.isGone) ++
        (x.pending.filter fun e => e.2.isDue now).filter fun e => !e.2.responder.isGone) :=
    (List.filter_append_perm _ _).symm
  have hall : x.pending.Perm ((x.pending.filter fun e => e.2.isDue now) ++
      x.pending.filter fun e => !e.2.isDue now) := (List.filter_append_perm _ _).symm
  have hsplit := share_perm (f := f) (a := a)
    ((hall.trans (hdue.append_right _)).map fun e : UInt32 × Pending => e.2.responder)
  rw [sweep_eq hk]
  simp only [List.map_append, share_append] at hsplit
  simp only [owed, queued, share_append, hanswered, hgone]
  simp only [responders]
  omega

/-- At the end all that were owed are answered. -/
theorem share_shutdown (kind : IoKind) :
    share f a (x.shutdown kind).1.owed + share f a (answered (x.shutdown kind).2) =
      share f a x.owed := by
  have hlost : answered (x.pending.map fun e =>
      .answer e.2.responder (.error (.connectionLost kind))) = responders x.pending := by
    simp [answered, ExchangeOutput.answered?, responders, Function.comp_def]
  have hrejected : answered (x.commands.map reject) = x.queued := by
    rw [answered, queued, List.filterMap_map]
    refine List.filterMap_congr ?_
    intro c _
    cases c <;> rfl
  have howed : (x.shutdown kind).1.owed = [] := rfl
  rw [howed]
  simp only [shutdown, answered_append, share_append, hlost, hrejected, owed, share_nil]
  omega

/-- Leaving changes nothing about who is queued, only whether it is still there. -/
theorem share_queued_abandon (hf : ∀ r ticket, f (r.abandon ticket) = f r) (ticket : Nat) :
    share f a (x.abandon ticket).queued = share f a x.queued := by
  simp only [share, queued, abandon, List.filterMap_map, List.map_filterMap]
  congr 1
  refine List.filterMap_congr ?_
  intro c _
  cases c with
  | send request responder => exact congrArg some (hf responder ticket)
  | join => rfl

/-- A request that is registered takes a place in the table, be it the place of another one. -/
theorem share_register (hk : (PendingTable.keys x.pending).Nodup)
    (hroom : x.pending.length < x.options.maxPending) {request : Request} (hfits : request.Fits)
    (responder : Responder) :
    share f a (x.register now request responder).1.owed +
        share f a ((PendingTable.find? x.pending (nextSeq x.lastSeq)).map (·.responder)).toList =
      share f a x.owed + share f a [responder] := by
  have hinsert : responders (PendingTable.insert x.pending (nextSeq x.lastSeq)
      (x.entry now request responder)) =
        responders (PendingTable.erase x.pending (nextSeq x.lastSeq)) ++ [responder] := by
    simp [responders, PendingTable.insert, entry]
  rw [register_fits hroom hfits]
  simp only [owed, queued, hinsert, share_append]
  rcases hp : PendingTable.find? x.pending (nextSeq x.lastSeq) with _ | p
  · rw [PendingTable.erase_of_not_mem (PendingTable.find?_eq_none.mp hp)]
    simp only [Option.map_none, Option.toList_none, share_nil]
    omega
  · have herase := share_responders_erase (f := f) (a := a) hk hp
    simp only [Option.map_some, Option.toList_some]
    omega

/-- A request that is taken is owed an answer, or is answered at once. -/
theorem share_take (hk : (PendingTable.keys x.pending).Nodup) (now : Time)
    (joined : Except IoError Unit) :
    share f a (x.step (.take now joined)).1.owed +
        share f a (answered (x.step (.take now joined)).2) +
          share f a (x.displaced (.take now joined)) =
      share f a x.owed := by
  rcases hrunning : x.isRunning with _ | _
  · rw [(take_stopped hrunning).1, displaced_of_not_numbers (take_stopped hrunning).2]
    rfl
  rcases hcommands : x.commands with _ | ⟨⟨request, responder⟩ | ⟨group, ticket⟩, rest⟩
  · rw [(take_nil hcommands).1, displaced_of_not_numbers (take_nil hcommands).2]
    rfl
  · have howed : share f a x.owed = share f a (x.popped rest).owed + share f a [responder] := by
      have hpending : (x.popped rest).pending = x.pending := rfl
      rw [owed, owed, queued_of_send hcommands, hpending, List.cons_append, share_cons]
      omega
    rw [(x.take_send now joined hrunning hcommands).1, howed]
    -- a request without room, or too long, is answered at once; any other may displace one
    by_cases hroom : x.pending.length < x.options.maxPending
    · by_cases hfits : request.Fits
      · have hanswered : answered ((x.popped rest).register now request responder).2 = [] := by
          rw [register_fits (x := x.popped rest) hroom hfits]
          rfl
        rw [hanswered, displaced_take hrunning hcommands hroom hfits, share_nil]
        exact share_register (x := x.popped rest) hk hroom hfits responder
      · have hdisplaced : x.displaced (.take now joined) = [] := by
          simp [displaced, displaces, admits_take hrunning hcommands, hroom, hfits]
        rw [hdisplaced, register_oversized (x := x.popped rest) hroom hfits]
        rfl
    · have hnumbers : x.numbers (.take now joined) = false := by
        rw [numbers_take hrunning hcommands, decide_eq_false hroom]
      rw [displaced_of_not_numbers hnumbers,
        register_full (x := x.popped rest) (Nat.le_of_not_lt hroom)]
      rfl
  · rw [(take_join hrunning hcommands).1, displaced_of_not_numbers (take_join hrunning hcommands).2,
      owed, owed, queued_of_join hcommands]
    rfl

/-- An event that takes no command moves callers between the queue, the table, the answered and the
given up, whatever numbers were given out before. -/
theorem share_step_of_not_take (hf : ∀ r ticket, f (r.abandon ticket) = f r) (hx : Tidy x)
    (e : ExchangeEvent) (htake : ∀ now joined, e ≠ .take now joined) :
    share f a (x.step e).1.owed + share f a (answered (x.step e).2) + share f a (x.givenUp e) =
      share f a x.owed + share f a (submitters [e]) := by
  cases e with
  | submit command =>
    rcases hrunning : x.isRunning with _ | _
    · have hanswered : answered [reject command] = submitters [.submit command] := by
        cases command <;> rfl
      rw [submit_stopped hrunning, hanswered]
      rfl
    · have hpending : (x.step (.submit command)).1.pending = x.pending := by
        rw [submit_running hrunning]
      have hanswered : answered (x.step (.submit command)).2 = [] := by
        rw [submit_running hrunning]
        rfl
      rw [owed, owed, queued_submit hrunning, hpending, hanswered]
      simp only [givenUp, share_append, share_nil]
      omega
  | abandon ticket =>
    -- going away changes a responder, but not what `f` sees of it
    have hpending : share f a (responders (PendingTable.abandon x.pending ticket)) =
        share f a (responders x.pending) := by
      simp only [share, responders, PendingTable.abandon, Pending.abandon, List.map_map]
      congr 1
      exact List.map_congr_left fun e _ => hf _ _
    have hstep : (x.step (.abandon ticket)).1.owed =
        (x.abandon ticket).queued ++ responders (PendingTable.abandon x.pending ticket) := rfl
    rw [hstep, share_append, hpending, share_queued_abandon hf, ← share_append]
    rfl
  | take now joined => exact absurd rfl (htake now joined)
  | transmit now result =>
    simp only [step]
    split_ifs
    · unfold transmit
      rcases hq : x.egress with _ | ⟨⟨seq, datagram⟩, rest⟩
      · rfl
      rcases result with error | _
      · exact share_complete (x := { x with egress := rest }) hx.nodup seq _
      · rfl
    · rfl
  | receive now result =>
    simp only [step]
    split_ifs
    · rcases result with error | data
      · simp only [receive]
        split_ifs
        · rfl
        · exact share_shutdown error.kind
      · exact share_takeDatagram hx.nodup now data
    · rfl
  | sweep now =>
    rcases hrunning : x.isRunning with _ | _
    · have hnil := hx.ended hrunning
      simp only [step, hrunning, givenUp, hnil, responders, List.map_nil, List.filter_nil,
        share_nil]
      rfl
    · simp only [step, hrunning, if_true]
      exact share_sweep hx.nodup
  | dropHandles => rfl
  | rest => rfl
  | readNotification =>
    simp only [step, readNotification]
    rcases x.notifications with _ | ⟨m, rest⟩
    · rfl
    · rfl
  | closeNotifications => rfl

/-- An event moves callers of requests between the queue, the table, the answered, the given up and
the displaced. -/
theorem share_step (hf : ∀ r ticket, f (r.abandon ticket) = f r) (hx : Tidy x)
    (e : ExchangeEvent) :
    share f a (x.step e).1.owed + share f a (answered (x.step e).2) + share f a (x.givenUp e) +
        share f a (x.displaced e) =
      share f a x.owed + share f a (submitters [e]) := by
  by_cases htake : ∃ now joined, e = .take now joined
  · obtain ⟨now, joined, rfl⟩ := htake
    have hlaw := share_take (f := f) (a := a) hx.nodup now joined
    have hgivenUp : x.givenUp (.take now joined) = [] := rfl
    have hsubmitters : submitters [.take now joined] = [] := rfl
    rw [hgivenUp, hsubmitters, share_nil]
    omega
  · push Not at htake
    have hnumbers : x.numbers e = false := by
      cases e with
      | take now joined => exact absurd rfl (htake now joined)
      | _ => rfl
    rw [displaced_of_not_numbers hnumbers, share_nil, Nat.add_zero]
    exact share_step_of_not_take hf hx e htake

/-- The order in which the table is listed does not matter to callers. -/
theorem share_owed_relist (hlisted : t.Perm x.pending) :
    share f a (x.relist t).owed = share f a x.owed := by
  have hresponders : (responders t).Perm (responders x.pending) := hlisted.map _
  have hqueued : (x.relist t).queued = x.queued := rfl
  have hpending : (x.relist t).pending = t := rfl
  rw [owed, owed, hqueued, hpending, share_append, share_append, share_perm hresponders]

/-- Over a run, a caller that was owed an answer or handed over a request is owed an answer, answered,
given up or displaced. -/
theorem Runs.share_eq {x₀ : Exchange} {trace : List Moment}
    (hf : ∀ r ticket, f (r.abandon ticket) = f r) (h₀ : Tidy x₀) (h : Runs x₀ trace x) :
    share f a x.owed + share f a (answered (outputsOf trace)) + share f a (givenUpOf trace) +
        share f a (displacedOf trace) =
      share f a x₀.owed + share f a (submitters (eventsIn trace)) := by
  induction h with
  | init => rfl
  | @next trace x t e h hlisted ih =>
    -- what the run so far moves is conserved, and so is what its last event moves
    have hstep := share_step (a := a) hf ((h₀.runs h).relist hlisted) e
    rw [share_owed_relist hlisted] at hstep
    rw [outputsOf_concat, answered_append, eventsIn_concat, submitters_append, givenUpOf_concat,
      displacedOf_concat]
    simp only [share_append] at ih ⊢
    omega

/-- Nobody is answered or owed an answer more often than he was owed one or handed over a request. -/
theorem Runs.length_answersTo_le {x₀ : Exchange} {trace : List Moment} (h₀ : Tidy x₀)
    (h : Runs x₀ trace x) (ticket : Nat) :
    share Responder.ticket ticket x.owed + (answersTo ticket (outputsOf trace)).length ≤
      share Responder.ticket ticket x₀.owed +
        share Responder.ticket ticket (submitters (eventsIn trace)) := by
  have hlaw := h.share_eq (a := ticket) Responder.ticket_abandon h₀
  have hlength : (answersTo ticket (outputsOf trace)).length =
      share Responder.ticket ticket (answered (outputsOf trace)) := length_answersTo _ _
  omega

/-- An event takes callers only from the queue, which only what is handed over can fill. -/
theorem share_takes (hf : ∀ r ticket, f (r.abandon ticket) = f r) (hx : Tidy x)
    (e : ExchangeEvent) :
    share f a (x.takes e) + share f a (x.step e).1.queued ≤
      share f a x.queued + share f a (submitters [e]) := by
  -- only `take` takes a caller off the queue, and only `submit` puts one there
  cases e with
  | submit command =>
    rcases hrunning : x.isRunning with _ | _
    · rw [submit_stopped hrunning]
      simp only [takes, share_nil]
      omega
    · rw [queued_submit hrunning, share_append]
      simp only [takes, share_nil]
      omega
  | abandon ticket =>
    have hqueued : share f a (x.step (.abandon ticket)).1.queued = share f a x.queued :=
      share_queued_abandon hf ticket
    rw [hqueued]
    simp only [takes, share_nil]
    omega
  | take now joined =>
    rcases hrunning : x.isRunning with _ | _
    · rw [(take_stopped hrunning).1]
      simp [takes, hrunning]
    rcases hc : x.commands with _ | ⟨⟨request, responder⟩ | _, rest⟩
    · rw [(take_nil hc).1]
      simp [takes, hc]
    · have htakes : x.takes (.take now joined) = [responder] := by
        simp [takes, hrunning, hc, Command.responder?]
      rw [(x.take_send now joined hrunning hc).1, queued_register, htakes, queued_of_send hc,
        share_cons responder (x.popped rest).queued]
      omega
    · have htakes : x.takes (.take now joined) = [] := by
        simp [takes, hrunning, hc, Command.responder?]
      rw [(take_join hrunning hc).1, htakes, queued_of_join hc, share_nil]
      omega
  | transmit now result =>
    rw [queued_transmit]
    simp only [takes, share_nil]
    omega
  | receive now result =>
    rcases x.queued_receive result with hqueued | hqueued
    · rw [hqueued]
      simp only [takes, share_nil]
      omega
    · rw [hqueued]
      simp only [takes, share_nil]
      omega
  | sweep now =>
    rw [queued_sweep hx.nodup]
    simp only [takes, share_nil]
    omega
  | readNotification =>
    rw [queued, step, (onTable_readNotification x).commands, ← queued]
    simp only [takes, share_nil]
    omega
  | dropHandles | rest | closeNotifications => simp [step, queued, takes]

/-- A caller whose request is taken handed it over, and its command no longer waits. -/
theorem Runs.share_taken {x₀ : Exchange} {trace : List Moment}
    (hf : ∀ r ticket, f (r.abandon ticket) = f r) (h₀ : Tidy x₀) (h : Runs x₀ trace x) :
    share f a (takenIn trace) + share f a x.queued ≤
      share f a x₀.queued + share f a (submitters (eventsIn trace)) := by
  induction h with
  | init => exact Nat.le_of_eq (Nat.add_comm _ _)
  | @next trace x t e h hlisted ih =>
    have hstep := share_takes (a := a) hf ((h₀.runs h).relist hlisted) e
    have hqueued : (x.relist t).queued = x.queued := rfl
    rw [hqueued] at hstep
    rw [takenIn_concat, eventsIn_concat, submitters_append]
    simp only [share_append]
    omega

end Conservation

/-! ## The three ends of a request -/

/-- Whether the request of a ticket waits for its reply. -/
def IsPending (x : Exchange) (ticket : Nat) : Prop := ∃ e ∈ x.pending, e.2.responder.ticket = ticket

/-- Whether a sweep of the run removed the request of a ticket after its caller had gone away. -/
def IsCancelled (trace : List Moment) (ticket : Nat) : Prop :=
  ∃ m ∈ trace, ∃ now s p, m.event = .sweep now ∧ (s, p) ∈ m.exchange.pending ∧
    p.responder.ticket = ticket ∧ p.responder.isGone = true ∧
    s ∉ PendingTable.keys (m.exchange.step m.event).1.pending

variable {port : UInt32} {options : ExchangeOptions} {trace : List Moment} {x : Exchange}
  {ticket : Nat}

/-- A request is pending just if it has a share in the table. -/
theorem isPending_iff :
    x.IsPending ticket ↔ 0 < share Responder.ticket ticket (responders x.pending) := by
  simp [IsPending, share_pos, responders]

/-- A request whose caller has gone away is not pending after a sweep. -/
theorem gone_not_mem_sweep (hx : Tidy x) {s : UInt32} {p : Pending} (hmem : (s, p) ∈ x.pending)
    (hgone : p.responder.isGone = true) (now : Time) :
    s ∉ PendingTable.keys (x.step (.sweep now)).1.pending := by
  have hrunning : x.isRunning = true := by
    by_contra hstopped
    rw [hx.ended (by simpa using hstopped)] at hmem
    cases hmem
  simp only [step, hrunning, if_true, sweep_eq hx.nodup]
  intro hs
  rcases List.mem_map.mp hs with ⟨⟨s', q⟩, hq, rfl⟩
  rcases List.mem_filter.mp hq with ⟨hmem', hdue⟩
  have hfind := PendingTable.find?_of_mem hx.nodup hmem'
  rw [PendingTable.find?_of_mem hx.nodup hmem] at hfind
  cases hfind
  simp [Pending.isDue, hgone] at hdue

/-- Those who are cancelled are those whom the sweeps of the run gave up. -/
theorem Runs.isCancelled_iff (h : Runs (start port options) trace x) :
    IsCancelled trace ticket ↔ ∃ r ∈ givenUpOf trace, r.ticket = ticket := by
  constructor
  · rintro ⟨m, hm, now, s, p, hevent, hmem, rfl, hgone, -⟩
    refine ⟨p.responder, List.mem_flatMap.mpr ⟨m, hm, ?_⟩, rfl⟩
    rw [hevent]
    exact List.mem_filter.mpr ⟨List.mem_map.mpr ⟨(s, p), hmem, rfl⟩, hgone⟩
  · rintro ⟨r, hgivenUp, rfl⟩
    obtain ⟨m, hm, hgiven⟩ := List.mem_flatMap.mp hgivenUp
    cases hevent : m.event with
    | sweep now =>
      rw [hevent] at hgiven
      obtain ⟨hresponder, hgone⟩ := List.mem_filter.mp hgiven
      obtain ⟨⟨s, p⟩, hmem, rfl⟩ := List.mem_map.mp hresponder
      refine ⟨m, hm, now, s, p, hevent, hmem, rfl, hgone, ?_⟩
      rw [hevent]
      exact gone_not_mem_sweep (h.tidy_moment hm) hmem hgone now
    | _ =>
      rw [hevent] at hgiven
      cases hgiven

/-- Whoever is cancelled handed over a request through a channel. -/
theorem Runs.submitter_of_cancelled (h : Runs (start port options) trace x)
    (hcancelled : IsCancelled trace ticket) :
    ∃ r ∈ submitters (eventsIn trace), r.ticket = ticket ∧ r.isCallback = false := by
  obtain ⟨g, hg, rfl⟩ := h.isCancelled_iff.mp hcancelled
  -- going away leaves the ticket and the kind of a responder as they were handed over
  have hlaw := h.share_eq (a := g.identity) Responder.identity_abandon (.start port options)
  have hgiven : 0 < share Responder.identity g.identity (givenUpOf trace) :=
    share_pos.mpr ⟨g, hg, rfl⟩
  have hnothing : share Responder.identity g.identity (start port options).owed = 0 := rfl
  obtain ⟨r, hr, hid⟩ := share_pos.mp
    (show 0 < share Responder.identity g.identity (submitters (eventsIn trace)) by omega)
  have hchannel := Responder.isCallback_of_isGone (isGone_of_mem_givenUpOf hg)
  exact ⟨r, hr, congrArg Prod.fst hid, (congrArg Prod.snd hid).trans hchannel⟩

/-- Whoever has a request taken handed it over. -/
theorem Runs.submitter_of_taken (h : Runs (start port options) trace x) {r : Responder}
    (hr : r ∈ takenIn trace) : ∃ r' ∈ submitters (eventsIn trace), r'.identity = r.identity := by
  have hlaw := h.share_taken (a := r.identity) Responder.identity_abandon (.start port options)
  have hnobody : share Responder.identity r.identity (start port options).queued = 0 := rfl
  have htaken : 0 < share Responder.identity r.identity (takenIn trace) := share_pos.mpr ⟨r, hr, rfl⟩
  exact share_pos.mp (by omega)

/-- Where the request of a ticket stands after a run. -/
inductive Standing where
  | pending
  | answered
  | cancelled

/-- A pending request has no answer yet, an answered one has one answer and is no longer pending,
and a cancelled one was removed unanswered by a sweep because its caller had gone away. -/
def Stands (trace : List Moment) (x : Exchange) (ticket : Nat) : Standing → Prop
  | .pending =>
    x.IsPending ticket ∧ answersTo ticket (outputsOf trace) = [] ∧ ¬ IsCancelled trace ticket
  | .answered =>
    ¬ x.IsPending ticket ∧ (answersTo ticket (outputsOf trace)).length = 1 ∧
      ¬ IsCancelled trace ticket
  | .cancelled =>
    ¬ x.IsPending ticket ∧ answersTo ticket (outputsOf trace) = [] ∧ IsCancelled trace ticket

/-- A ticket that is handed over once and no longer waits has one standing. -/
theorem Runs.existsUnique_stands (h : Runs (start port options) trace x)
    (hfew : numberedIn trace < UInt32.size)
    (honce : share Responder.ticket ticket (submitters (eventsIn trace)) ≤ 1)
    (htaken : 0 < share Responder.ticket ticket (takenIn trace)) :
    ∃! standing, Stands trace x ticket standing := by
  have hlaw := h.share_eq (a := ticket) Responder.ticket_abandon (.start port options)
  have htakenLaw := h.share_taken (a := ticket) Responder.ticket_abandon (.start port options)
  have hnothing : share Responder.ticket ticket (start port options).owed = 0 := rfl
  have hnobody : share Responder.ticket ticket (start port options).queued = 0 := rfl
  have hanswers : (answersTo ticket (outputsOf trace)).length =
      share Responder.ticket ticket (answered (outputsOf trace)) := length_answersTo _ _
  have hcancelled_iff :
      IsCancelled trace ticket ↔ 0 < share Responder.ticket ticket (givenUpOf trace) := by
    rw [h.isCancelled_iff, share_pos]
  rw [h.displacedOf_eq_nil hfew, share_nil, owed, share_append] at hlaw
  -- the table, the answers and the given up hold the ticket once between them
  rcases Nat.eq_zero_or_pos (share Responder.ticket ticket (givenUpOf trace)) with hgiven | hgiven
  · have hnot : ¬ IsCancelled trace ticket := by
      rw [hcancelled_iff]
      omega
    rcases Nat.eq_zero_or_pos (share Responder.ticket ticket (responders x.pending)) with
      hpending | hpending
    · have hnone : ¬ x.IsPending ticket := by
        rw [isPending_iff]
        omega
      refine ⟨.answered, ⟨hnone, by omega, hnot⟩, ?_⟩
      rintro (_ | _ | _) hstands
      · exact absurd hstands.1 hnone
      · rfl
      · exact absurd hstands.2.2 hnot
    · have hsome : x.IsPending ticket := isPending_iff.mpr hpending
      refine ⟨.pending, ⟨hsome, List.length_eq_zero_iff.mp (by omega), hnot⟩, ?_⟩
      rintro (_ | _ | _) hstands
      · rfl
      · exact absurd hsome hstands.1
      · exact absurd hsome hstands.1
  · have hcancelled : IsCancelled trace ticket := hcancelled_iff.mpr hgiven
    have hnone : ¬ x.IsPending ticket := by
      rw [isPending_iff]
      omega
    refine ⟨.cancelled, ⟨hnone, List.length_eq_zero_iff.mp (by omega), hcancelled⟩, ?_⟩
    rintro (_ | _ | _) hstands
    · exact absurd hcancelled hstands.2.2
    · exact absurd hcancelled hstands.2.2
    · rfl

/-- At any moment of a run, a request that was taken is in exactly one of three states: pending and
unanswered, answered once and no longer pending, or removed unanswered because its caller had gone
away. Once the exchange has ended nothing is pending, and every callback that it took was called
exactly once. -/
theorem taken_request_settled_once (h : Runs (start port options) trace x)
    (hdistinct : DistinctTickets (eventsIn trace)) (hfew : numberedIn trace < UInt32.size - 1) :
    (∀ r ∈ takenIn trace, ∃! standing, Stands trace x r.ticket standing) ∧
      (x.isRunning = false →
        x.pending = [] ∧
          ∀ ticket, .callback ticket ∈ takenIn trace →
            (answersTo ticket (outputsOf trace)).length = 1) := by
  have hstates : ∀ r ∈ takenIn trace, ∃! standing, Stands trace x r.ticket standing := by
    intro r hr
    exact h.existsUnique_stands (by omega) (List.nodup_iff_count_le_one.mp hdistinct _)
      (share_pos.mpr ⟨r, hr, rfl⟩)
  refine ⟨hstates, ?_⟩
  intro hended
  have hnil := h.tidy.ended hended
  refine ⟨hnil, ?_⟩
  intro ticket hcallback
  rcases (hstates _ hcallback).exists with ⟨_ | _ | _, hstands⟩
  · -- nothing is pending any more
    rcases hstands.1 with ⟨e, he, -⟩
    rw [hnil] at he
    cases he
  · exact hstands.2.1
  · -- a callback never goes away, and no channel has its ticket
    rcases h.submitter_of_cancelled hstands.2.2 with ⟨r, hr, hticket, hchannel⟩
    rcases h.submitter_of_taken hcallback with ⟨r', hr', hid⟩
    have heq : r = r' :=
      List.inj_on_of_nodup_map hdistinct hr hr' (hticket.trans (congrArg Prod.fst hid).symm)
    have hcall : r'.isCallback = true := congrArg Prod.snd hid
    rw [← heq, hchannel] at hcall
    cases hcall

/-- Three requests, of which the second is abandoned and swept, before the transport fails. -/
def failingRun : List ExchangeEvent :=
  [.submit (.send (.ofCommand 28 1 1) (.callback 1)),
    .submit (.send (.ofCommand 28 1 1) (.waiting 2)),
    .submit (.send (Request.ofCommand 28 3 1).dump (.waiting 3)),
    .take 0 (.ok ()), .take 0 (.ok ()), .take 0 (.ok ()), .abandon 2, .sweep (Time.ofMillis 100)]

/-- The failure, with the table listed backwards. -/
def failingMoment : Moment :=
  ⟨((start 7 {}).after failingRun).relist ((start 7 {}).after failingRun).pending.reverse,
    .receive (Time.ofMillis 120) (.error (.simple .connectionReset))⟩

theorem taken_request_settled_once_failingRun :
    Runs (start 7 {}) ((start 7 {}).moments failingRun ++ [failingMoment])
        (failingMoment.exchange.step failingMoment.event).1 ∧
      DistinctTickets (eventsIn ((start 7 {}).moments failingRun ++ [failingMoment])) ∧
      numberedIn ((start 7 {}).moments failingRun ++ [failingMoment]) < UInt32.size - 1 ∧
      .channel 2 false ∈ takenIn ((start 7 {}).moments failingRun ++ [failingMoment]) ∧
      .callback 1 ∈ takenIn ((start 7 {}).moments failingRun ++ [failingMoment]) ∧
      (failingMoment.exchange.step failingMoment.event).1.isRunning = false ∧
      (∃! standing, Stands ((start 7 {}).moments failingRun ++ [failingMoment])
        (failingMoment.exchange.step failingMoment.event).1 2 standing) ∧
      (answersTo 1 (outputsOf ((start 7 {}).moments failingRun ++ [failingMoment]))).length = 1 := by
  have hruns : Runs (start 7 {}) ((start 7 {}).moments failingRun ++ [failingMoment])
      (failingMoment.exchange.step failingMoment.event).1 :=
    .next (runs_moments _ _) (List.reverse_perm _)
  have hdistinct : DistinctTickets
      (eventsIn ((start 7 {}).moments failingRun ++ [failingMoment])) := by
    rw [eventsIn_concat, eventsIn_moments]
    decide
  have hfew : numberedIn ((start 7 {}).moments failingRun ++ [failingMoment]) <
      UInt32.size - 1 := by
    decide +kernel
  have hsettled := taken_request_settled_once hruns hdistinct hfew
  have hchannel : .channel 2 false ∈ takenIn ((start 7 {}).moments failingRun ++ [failingMoment]) := by
    decide +kernel
  have hcallback : .callback 1 ∈ takenIn ((start 7 {}).moments failingRun ++ [failingMoment]) := by
    decide +kernel
  have hended : (failingMoment.exchange.step failingMoment.event).1.isRunning = false := by
    decide +kernel
  exact ⟨hruns, hdistinct, hfew, hchannel, hcallback, hended, hsettled.1 _ hchannel,
    (hsettled.2 hended).2 1 hcallback⟩

end Exchange

end Vswitch
