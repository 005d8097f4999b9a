import Mathlib
import Vswitch.Proofs.Exchange.Accounting
import Vswitch.Proofs.Exchange.Resolution

/-!
# Loss of the transport

A transport that fails ends the exchange at once. Whoever waits for an answer at that moment is given
one: pending requests are lost, and commands that still wait in the queue come too late, as does every
command that is handed over afterwards. Nobody had been answered before, since callers are conserved:
a caller that waits cannot have been answered. This holds however many numbers were given out; a
request may only lose its place in the table to another one with the same number.

* `Exchange.Runs.count_joiners`: callers of joins are conserved in every run, as those of requests are;
* `Exchange.answersTo_shutdown`, `Exchange.joinAnswersTo_shutdown`: whom a failure answers, and what;
* `Exchange.Runs.replies_of_stopped`: an exchange that has ended rejects all commands;
* `Exchange.transport_failure_settles`: what follows for a failure at any moment of any run;
* `Exchange.not_forall_answered`: who is left without an answer.
-/

namespace Vswitch

/-! ## Logs of a run -/

/-- The command that an event hands over. -/
def ExchangeEvent.command? : ExchangeEvent → Option Command
  | .submit command => some command
  | _ => none

/-- The commands that are handed over, in order. -/
def commandsIn (es : List ExchangeEvent) : List Command := es.filterMap ExchangeEvent.command?

/-- Who asks for a multicast group, if the command does. -/
def Command.joiner? : Command → Option Nat
  | .send _ _ => none
  | .join _ ticket => some ticket

/-- Who is told about a multicast group, if the output does. -/
def ExchangeOutput.joiner? : ExchangeOutput → Option Nat
  | .joined ticket _ => some ticket
  | _ => none

/-- The callers of joins among several commands. -/
def joiners (commands : List Command) : List Nat := commands.filterMap Command.joiner?

/-- The callers of joins that are answered. -/
def joinersAnswered (outs : List ExchangeOutput) : List Nat :=
  outs.filterMap ExchangeOutput.joiner?

/-- Every join of a run has a channel of its own. -/
def DistinctJoins (es : List ExchangeEvent) : Prop := (joiners (commandsIn es)).Nodup

instance : DecidablePred DistinctJoins := fun es =>
  inferInstanceAs (Decidable (joiners (commandsIn es)).Nodup)

/-- The answers that the caller of a join is given. -/
def joinAnswersTo (ticket : Nat) (outs : List ExchangeOutput) :
    List (Except ExchangeError Unit) :=
  outs.filterMap fun
    | .joined own result => if own = ticket then some result else none
    | _ => none

section Logs

variable {ticket : Nat}

theorem joinersAnswered_append (outs outs' : List ExchangeOutput) :
    joinersAnswered (outs ++ outs') = joinersAnswered outs ++ joinersAnswered outs' := by
  simp [joinersAnswered]

theorem joinAnswersTo_append (outs outs' : List ExchangeOutput) :
    joinAnswersTo ticket (outs ++ outs') =
      joinAnswersTo ticket outs ++ joinAnswersTo ticket outs' := by
  simp [joinAnswersTo]

/-- The answers to a caller of joins are the answers with its ticket. -/
theorem length_joinAnswersTo (ticket : Nat) (outs : List ExchangeOutput) :
    (joinAnswersTo ticket outs).length = (joinersAnswered outs).count ticket := by
  induction outs with
  | nil => rfl
  | cons o rest ih =>
    cases o with
    | joined own result =>
      simp only [joinAnswersTo, joinersAnswered, List.filterMap_cons, ExchangeOutput.joiner?,
        List.count_cons] at ih ⊢
      by_cases h : own = ticket <;> simp [h, ih]
    | answer | transmitted | notified => exact ih

/-- Answers to requests tell no one about a join. -/
theorem joinersAnswered_of_isAnswer {outs : List ExchangeOutput}
    (h : ∀ o ∈ outs, o.isAnswer = true) : joinersAnswered outs = [] := by
  apply List.filterMap_eq_nil_iff.mpr
  intro o ho
  have hanswer := h o ho
  cases o with
  | answer => rfl
  | joined | transmitted | notified => cases hanswer

theorem joiners_submitted_concat (es : List ExchangeEvent) (e : ExchangeEvent) :
    joiners (commandsIn (es ++ [e])) = joiners (commandsIn es) ++ joiners (commandsIn [e]) := by
  simp [joiners, commandsIn]

end Logs

namespace Exchange

open PendingTable (responders)

/-! ## Callers of joins -/

section Joins

variable {x : Exchange} {now : Time} {ticket : Nat}

/-- Rejecting commands answers all their joins. -/
theorem joinersAnswered_reject (commands : List Command) :
    joinersAnswered (commands.map reject) = joiners commands := by
  unfold joinersAnswered joiners
  rw [List.filterMap_map]
  apply List.filterMap_congr
  intro c _
  cases c <;> rfl

/-- A caller that leaves takes no join out of the queue. -/
theorem joiners_abandon (ticket : Nat) :
    joiners (x.abandon ticket).commands = joiners x.commands := by
  unfold joiners abandon
  rw [List.filterMap_map]
  apply List.filterMap_congr
  intro c _
  cases c <;> rfl

/-- Registering a request does not touch the commands. -/
theorem commands_register (x : Exchange) (now : Time) (request : Request) (responder : Responder) :
    (x.register now request responder).1.commands = x.commands := by
  rw [register_frame]

/-- A failure answers all joins in the queue. -/
theorem joinersAnswered_shutdown (x : Exchange) (kind : IoKind) :
    joinersAnswered (x.shutdown kind).2 = joiners x.commands := by
  have hlost : joinersAnswered (x.pending.map fun e =>
      .answer e.2.responder (.error (.connectionLost kind))) = [] := by
    apply joinersAnswered_of_isAnswer
    intro o ho
    obtain ⟨e, -, rfl⟩ := List.mem_map.mp ho
    rfl
  rw [shutdown, joinersAnswered_append, hlost, List.nil_append, joinersAnswered_reject]

/-- A join that is handed over joins the queue, or is rejected at once. -/
theorem count_joiners_submit (x : Exchange) (ticket : Nat) (command : Command) :
    (joiners (x.step (.submit command)).1.commands).count ticket +
        (joinersAnswered (x.step (.submit command)).2).count ticket =
      (joiners x.commands).count ticket +
        (joiners (commandsIn [.submit command])).count ticket := by
  rcases hrunning : x.isRunning with _ | _
  · have hanswered : joinersAnswered [reject command] = joiners (commandsIn [.submit command]) :=
      joinersAnswered_reject [command]
    rw [submit_stopped hrunning, hanswered]
  · have hsubmitted : joiners (x.commands ++ [command]) =
        joiners x.commands ++ joiners (commandsIn [.submit command]) := by
      simp [joiners, commandsIn, ExchangeEvent.command?]
    rw [submit_running hrunning, hsubmitted, List.count_append]
    rfl

/-- A join that is taken from the queue is answered with it. -/
theorem count_joiners_take (x : Exchange) (ticket : Nat) (now : Time)
    (joined : Except IoError Unit) :
    (joiners (x.step (.take now joined)).1.commands).count ticket +
        (joinersAnswered (x.step (.take now joined)).2).count ticket =
      (joiners x.commands).count ticket := by
  rcases hrunning : x.isRunning with _ | _
  · rw [(take_stopped hrunning).1]
    rfl
  rcases hcommands : x.commands with _ | ⟨⟨request, responder⟩ | ⟨group, own⟩, rest⟩
  · rw [(take_nil hcommands).1, hcommands]
    rfl
  · rw [(x.take_send now joined hrunning hcommands).1, commands_register,
      joinersAnswered_of_isAnswer (isAnswer_register _ now request responder)]
    rfl
  · rw [(take_join hrunning hcommands).1]
    have hjoiners : joiners (.join group own :: rest) = own :: joiners rest := rfl
    have hanswered : joinersAnswered [.joined own (joined.mapError .io)] = [own] := rfl
    rw [hjoiners, hanswered]
    show (joiners rest).count ticket + [own].count ticket = (own :: joiners rest).count ticket
    rw [List.count_cons, List.count_cons, List.count_nil, Nat.zero_add]

/-- A datagram leaves the queue alone, and so does an overrun; any other failure empties it. -/
theorem count_joiners_receive (x : Exchange) (ticket : Nat) (now : Time)
    (result : Except IoError Bytes) :
    (joiners (x.receive now result).1.commands).count ticket +
        (joinersAnswered (x.receive now result).2).count ticket =
      (joiners x.commands).count ticket := by
  cases result with
  | error error =>
    simp only [receive]
    split_ifs
    · rfl
    · have hemptied : joiners (x.shutdown error.kind).1.commands = [] := rfl
      rw [hemptied, List.count_nil, Nat.zero_add, joinersAnswered_shutdown]
  | ok data =>
    have hcommands : (x.receive now (.ok data)).1.commands = x.commands :=
      (onTable_takeDatagram x now data).commands
    rw [hcommands, receive, takeDatagram_messages,
      joinersAnswered_of_isAnswer (isAnswer_takeMessages _ _ _)]
    rfl

/-- An event moves callers of joins from the queue to the answered. -/
theorem count_joiners_step (hx : Tidy x) (ticket : Nat) (e : ExchangeEvent) :
    (joiners (x.step e).1.commands).count ticket + (joinersAnswered (x.step e).2).count ticket =
      (joiners x.commands).count ticket + (joiners (commandsIn [e])).count ticket := by
  -- the other events leave the queue alone and tell no one about a join
  have hkept {r : Exchange × List ExchangeOutput} (hcommands : r.1.commands = x.commands)
      (houtputs : joinersAnswered r.2 = []) :
      (joiners r.1.commands).count ticket + (joinersAnswered r.2).count ticket =
        (joiners x.commands).count ticket := by
    rw [hcommands, houtputs, List.count_nil, Nat.add_zero]
  cases e with
  | submit command => exact count_joiners_submit x ticket command
  | abandon own =>
    show (joiners (x.abandon own).commands).count ticket + 0 = _
    rw [joiners_abandon]
    rfl
  | take now joined => exact count_joiners_take x ticket now joined
  | transmit now result =>
    simp only [step]
    split_ifs
    · unfold transmit
      rcases x.egress with _ | ⟨⟨seq, datagram⟩, rest⟩
      · exact hkept rfl rfl
      rcases result with error | _
      · exact hkept (onTable_complete { x with egress := rest } now seq _).commands
          (joinersAnswered_of_isAnswer (isAnswer_complete _ now seq _))
      · exact hkept rfl rfl
    · exact hkept rfl rfl
  | receive now result =>
    simp only [step]
    split_ifs
    · exact count_joiners_receive x ticket now result
    · exact hkept rfl rfl
  | sweep now =>
    simp only [step]
    split_ifs
    · exact hkept (onTable_sweep now hx.nodup).commands
        (joinersAnswered_of_isAnswer (isAnswer_sweep hx.nodup))
    · exact hkept rfl rfl
  | readNotification =>
    simp only [step, readNotification]
    rcases x.notifications with _ | ⟨m, rest⟩
    · exact hkept rfl rfl
    · exact hkept rfl rfl
  | dropHandles | rest | closeNotifications => exact hkept rfl rfl

end Joins

/-! ## Runs -/

section Runs

variable {port : UInt32} {options : ExchangeOptions} {trace : List Moment} {x : Exchange}

/-- In every run, a caller that handed over a join waits in the queue or is answered. -/
theorem Runs.count_joiners (h : Runs (start port options) trace x) (ticket : Nat) :
    (joiners x.commands).count ticket + (joinersAnswered (outputsOf trace)).count ticket =
      (joiners (commandsIn (eventsIn trace))).count ticket := by
  induction h with
  | init => rfl
  | @next trace x t e h hlisted ih =>
    have hstep := count_joiners_step (h.tidy.relist hlisted) ticket e
    have hcommands : (x.relist t).commands = x.commands := rfl
    rw [hcommands] at hstep
    rw [outputsOf_concat, joinersAnswered_append, eventsIn_concat, joiners_submitted_concat,
      List.count_append, List.count_append]
    dsimp only
    omega

/-! ## The end -/

section Shutdown

variable {ticket : Nat}

/-- Those that are all answered alike. -/
theorem answersTo_map_answer (rs : List Responder) (response : Response) :
    answersTo ticket (rs.map fun r => .answer r response) =
      List.replicate (share Responder.ticket ticket rs) response := by
  induction rs with
  | nil => rfl
  | cons r rest ih =>
    rw [share_cons, List.map_cons]
    simp only [answersTo, List.filterMap_cons] at ih ⊢
    by_cases h : r.ticket = ticket
    · have hone : share Responder.ticket ticket [r] = 1 := by simp [share, h]
      rw [if_pos h, hone, Nat.add_comm, List.replicate_succ, ih]
    · have hnone : share Responder.ticket ticket [r] = 0 := by simp [share, h]
      rw [if_neg h, hnone, Nat.zero_add, ih]

/-- Commands that are rejected are told that they come too late. -/
theorem answersTo_reject (commands : List Command) :
    answersTo ticket (commands.map reject) =
      answersTo ticket ((commands.filterMap Command.responder?).map
        fun r => .answer r (.error .closed)) := by
  unfold answersTo
  rw [List.filterMap_map, List.filterMap_map, List.filterMap_filterMap]
  apply List.filterMap_congr
  intro c _
  cases c <;> rfl

/-- A failure answers pending requests with the loss, and queued ones with the end. -/
theorem answersTo_shutdown (x : Exchange) (kind : IoKind) (ticket : Nat) :
    answersTo ticket (x.shutdown kind).2 =
      List.replicate (share Responder.ticket ticket (responders x.pending))
          (.error (.connectionLost kind)) ++
        List.replicate (share Responder.ticket ticket x.queued) (.error .closed) := by
  have hlost : (x.pending.map fun e =>
      ExchangeOutput.answer e.2.responder (.error (.connectionLost kind))) =
        (responders x.pending).map fun r => .answer r (.error (.connectionLost kind)) := by
    simp [responders, Function.comp_def]
  rw [shutdown, answersTo_append, hlost, answersTo_map_answer, answersTo_reject,
    answersTo_map_answer]
  rfl

/-- And so are joins, as often as they are in the queue. -/
theorem joinAnswersTo_reject (commands : List Command) :
    joinAnswersTo ticket (commands.map reject) =
      List.replicate ((joiners commands).count ticket) (.error .closed) := by
  induction commands with
  | nil => rfl
  | cons c rest ih =>
    rw [List.map_cons]
    cases c with
    | send request responder => exact ih
    | join group own =>
      have hjoiners : joiners (.join group own :: rest) = own :: joiners rest := rfl
      rw [hjoiners, List.count_cons]
      simp only [joinAnswersTo, reject, List.filterMap_cons] at ih ⊢
      by_cases h : own = ticket
      · rw [if_pos h, if_pos (beq_iff_eq.mpr h), List.replicate_succ, ih]
      · rw [if_neg h, if_neg (by simpa using h), Nat.add_zero, ih]

/-- A failure answers queued joins with the end. -/
theorem joinAnswersTo_shutdown (x : Exchange) (kind : IoKind) (ticket : Nat) :
    joinAnswersTo ticket (x.shutdown kind).2 =
      List.replicate ((joiners x.commands).count ticket) (.error .closed) := by
  have hlost : joinAnswersTo ticket (x.pending.map fun e =>
      .answer e.2.responder (.error (.connectionLost kind))) = [] := by
    unfold joinAnswersTo
    rw [List.filterMap_map]
    apply List.filterMap_eq_nil_iff.mpr
    intro e _
    rfl
  rw [shutdown, joinAnswersTo_append, hlost, List.nil_append, joinAnswersTo_reject]

/-- An exchange that has ended rejects the command that it is handed and tells callers nothing
else. -/
theorem replies_of_stopped_step (hended : x.isRunning = false) (e : ExchangeEvent) :
    (x.step e).2.filter ExchangeOutput.isReply = (commandsIn [e]).map reject := by
  cases e with
  | submit command =>
    rw [submit_stopped hended]
    cases command <;> rfl
  | take | transmit | receive | sweep => simp [step, hended, commandsIn, ExchangeEvent.command?]
  | readNotification =>
    simp only [step, readNotification]
    rcases x.notifications with _ | ⟨m, rest⟩ <;> rfl
  | abandon | dropHandles | rest | closeNotifications => rfl

/-- An exchange that has ended stays so, and rejects all commands that it is handed. -/
theorem Runs.replies_of_stopped {ended : Exchange} (h : Runs ended trace x)
    (hended : ended.isRunning = false) :
    x.isRunning = false ∧
      (outputsOf trace).filter ExchangeOutput.isReply =
        (commandsIn (eventsIn trace)).map reject := by
  induction h with
  | init => exact ⟨hended, rfl⟩
  | @next trace x t e h hlisted ih =>
    obtain ⟨hstopped, hreplies⟩ := ih
    have hstep := replies_of_stopped_step (x := x.relist t) hstopped e
    constructor
    · exact stopped_step (x := x.relist t) hstopped e
    · have hcommands : commandsIn (eventsIn (trace ++ [⟨x.relist t, e⟩])) =
          commandsIn (eventsIn trace) ++ commandsIn [e] := by
        simp [commandsIn, eventsIn]
      rw [outputsOf_concat, List.filter_append, hreplies, hstep, hcommands, List.map_append]

end Shutdown

/-! ## A failure settles everything -/

/-- What a failure of the transport leaves behind: at the moment `m` after a run the transport fails
with an error of a kind, which leads to `ended`. -/
structure Settled (trace : List Moment) (m : Moment) (ended : Exchange) (kind : IoKind) :
    Prop where
  /-- The exchange has ended, and nothing waits in it. -/
  stopped : ended.isRunning = false ∧ ended.pending = [] ∧ ended.commands = []
  /-- A request that is pending is answered once in the whole run: it is lost. -/
  pending : ∀ r ∈ responders m.exchange.pending,
    answersTo r.ticket (outputsOf (trace ++ [m])) = [.error (.connectionLost kind)]
  /-- A request that was not taken is answered once in the whole run: it comes too late. -/
  queued : ∀ r ∈ m.exchange.queued,
    answersTo r.ticket (outputsOf (trace ++ [m])) = [.error .closed]
  /-- So is a join that was not taken. -/
  joins : ∀ ticket ∈ joiners m.exchange.commands,
    joinAnswersTo ticket (outputsOf (trace ++ [m])) = [.error .closed]
  /-- Every request of the run is answered once, unless a sweep gave it up after its caller had gone
  away, or another request took its number. -/
  requests : ∀ r ∈ submitters (eventsIn trace),
    (answersTo r.ticket (outputsOf (trace ++ [m]))).length = 1 ∨
      answersTo r.ticket (outputsOf (trace ++ [m])) = [] ∧
        ∃ g ∈ givenUpOf trace ++ displacedOf trace, g.ticket = r.ticket
  /-- Every join of the run is answered once. -/
  joined : ∀ ticket ∈ joiners (commandsIn (eventsIn trace)),
    (joinAnswersTo ticket (outputsOf (trace ++ [m]))).length = 1
  /-- From then on, callers are told nothing but that their commands come too late. -/
  later : ∀ later y, Runs ended later y →
    y.isRunning = false ∧
      (outputsOf later).filter ExchangeOutput.isReply = (commandsIn (eventsIn later)).map reject

section Failure

variable {now : Time} {error : IoError} {ticket : Nat} {m : Moment} {ended : Exchange}

/-- A failure other than an overrun ends the exchange with the kind of its error. -/
theorem step_failure (hrunning : m.exchange.isRunning = true)
    (hevent : m.event = .receive now (.error error)) (herror : error.isOverrun = false) :
    m.exchange.step m.event = m.exchange.shutdown error.kind := by
  rw [hevent]
  simp [step, receive, hrunning, herror]

/-- Whoever is owed an answer has not been given one yet. -/
theorem Runs.answersTo_eq_nil (h : Runs (start port options) (trace ++ [m]) ended)
    (hdistinct : DistinctTickets (eventsIn trace)) (ticket : Nat) :
    share Responder.ticket ticket m.exchange.owed ≤ 1 ∧
      (0 < share Responder.ticket ticket m.exchange.owed →
        answersTo ticket (outputsOf trace) = []) := by
  obtain ⟨x, t, hbefore, hlisted, hm, -⟩ := h.of_concat
  have hlaw := hbefore.length_answersTo_le (.start port options) ticket
  have hnothing : share Responder.ticket ticket (start port options).owed = 0 := rfl
  have honce : share Responder.ticket ticket (submitters (eventsIn trace)) ≤ 1 :=
    List.nodup_iff_count_le_one.mp hdistinct ticket
  rw [hm, share_owed_relist hlisted]
  constructor
  · omega
  · intro howed
    apply List.length_eq_zero_iff.mp
    omega

/-- Whoever is owed an answer is given it by the failure, for the first time: he waits either in the
table or in the queue, and not in both. -/
theorem Runs.answersTo_failure (h : Runs (start port options) (trace ++ [m]) ended)
    (hdistinct : DistinctTickets (eventsIn trace))
    (hstep : m.exchange.step m.event = m.exchange.shutdown error.kind)
    (howed : 0 < share Responder.ticket ticket m.exchange.owed) :
    (share Responder.ticket ticket m.exchange.queued = 0 ∧
        answersTo ticket (outputsOf (trace ++ [m])) = [.error (.connectionLost error.kind)]) ∨
      (share Responder.ticket ticket (responders m.exchange.pending) = 0 ∧
        answersTo ticket (outputsOf (trace ++ [m])) = [.error .closed]) := by
  obtain ⟨hle, hnone⟩ := h.answersTo_eq_nil hdistinct ticket
  have hsplit : share Responder.ticket ticket m.exchange.owed =
      share Responder.ticket ticket m.exchange.queued +
        share Responder.ticket ticket (responders m.exchange.pending) := share_append _ _
  have hanswers : answersTo ticket (outputsOf (trace ++ [m])) =
      List.replicate (share Responder.ticket ticket (responders m.exchange.pending))
          (.error (.connectionLost error.kind)) ++
        List.replicate (share Responder.ticket ticket m.exchange.queued) (.error .closed) := by
    rw [outputsOf_concat, answersTo_append, hnone howed, hstep, answersTo_shutdown]
    rfl
  -- the one share that is owed is in the queue or in the table
  rcases Nat.eq_zero_or_pos (share Responder.ticket ticket m.exchange.queued) with hqueued | hqueued
  · have hpending : share Responder.ticket ticket (responders m.exchange.pending) = 1 := by omega
    rw [hpending, hqueued] at hanswers
    exact Or.inl ⟨hqueued, hanswers⟩
  · have hpending : share Responder.ticket ticket (responders m.exchange.pending) = 0 := by omega
    have hone : share Responder.ticket ticket m.exchange.queued = 1 := by omega
    rw [hpending, hone] at hanswers
    exact Or.inr ⟨hpending, hanswers⟩

/-- A pending request is told that the connection is lost, and nothing else in the whole run. -/
theorem Runs.answersTo_pending (h : Runs (start port options) (trace ++ [m]) ended)
    (hdistinct : DistinctTickets (eventsIn trace))
    (hstep : m.exchange.step m.event = m.exchange.shutdown error.kind) {r : Responder}
    (hr : r ∈ responders m.exchange.pending) :
    answersTo r.ticket (outputsOf (trace ++ [m])) = [.error (.connectionLost error.kind)] := by
  have howed : 0 < share Responder.ticket r.ticket m.exchange.owed :=
    share_pos.mpr ⟨r, List.mem_append_right _ hr, rfl⟩
  rcases h.answersTo_failure hdistinct hstep howed with ⟨-, hlost⟩ | ⟨hnone, -⟩
  · exact hlost
  · exact absurd hnone (share_pos.mpr ⟨r, hr, rfl⟩).ne'

/-- One that is still queued is told that it comes too late. -/
theorem Runs.answersTo_queued (h : Runs (start port options) (trace ++ [m]) ended)
    (hdistinct : DistinctTickets (eventsIn trace))
    (hstep : m.exchange.step m.event = m.exchange.shutdown error.kind) {r : Responder}
    (hr : r ∈ m.exchange.queued) :
    answersTo r.ticket (outputsOf (trace ++ [m])) = [.error .closed] := by
  have howed : 0 < share Responder.ticket r.ticket m.exchange.owed :=
    share_pos.mpr ⟨r, List.mem_append_left _ hr, rfl⟩
  rcases h.answersTo_failure hdistinct hstep howed with ⟨hnone, -⟩ | ⟨-, hlate⟩
  · exact absurd hnone (share_pos.mpr ⟨r, hr, rfl⟩).ne'
  · exact hlate

/-- And so is a join that is still queued. -/
theorem Runs.joinAnswersTo_queued (h : Runs (start port options) (trace ++ [m]) ended)
    (hjoins : DistinctJoins (eventsIn trace))
    (hstep : m.exchange.step m.event = m.exchange.shutdown error.kind)
    (hticket : ticket ∈ joiners m.exchange.commands) :
    joinAnswersTo ticket (outputsOf (trace ++ [m])) = [.error .closed] := by
  obtain ⟨x, t, hbefore, -, hm, -⟩ := h.of_concat
  have hlaw := hbefore.count_joiners ticket
  have hcommands : m.exchange.commands = x.commands := by
    rw [hm]
    rfl
  have honce : (joiners (commandsIn (eventsIn trace))).count ticket ≤ 1 :=
    List.nodup_iff_count_le_one.mp hjoins ticket
  have hpos : 0 < (joiners m.exchange.commands).count ticket := List.count_pos_iff.mpr hticket
  have hone : (joiners m.exchange.commands).count ticket = 1 := by
    rw [hcommands] at hpos ⊢
    omega
  have hnone : joinAnswersTo ticket (outputsOf trace) = [] := by
    have hlength := length_joinAnswersTo ticket (outputsOf trace)
    rw [hcommands] at hpos
    apply List.length_eq_zero_iff.mp
    omega
  rw [outputsOf_concat, joinAnswersTo_append, hnone, hstep, joinAnswersTo_shutdown, hone]
  rfl

/-- After the failure nobody is owed an answer, so whoever handed over a request was given one, or
gave up, or lost his number. -/
theorem Runs.answersTo_of_submitted (h : Runs (start port options) (trace ++ [m]) ended)
    (hdistinct : DistinctTickets (eventsIn trace))
    (hevent : m.event = .receive now (.error error)) (howed : ended.owed = []) {r : Responder}
    (hr : r ∈ submitters (eventsIn trace)) :
    (answersTo r.ticket (outputsOf (trace ++ [m]))).length = 1 ∨
      answersTo r.ticket (outputsOf (trace ++ [m])) = [] ∧
        ∃ g ∈ givenUpOf trace ++ displacedOf trace, g.ticket = r.ticket := by
  have hlaw := h.share_eq (a := r.ticket) Responder.ticket_abandon (.start port options)
  have hnothing : share Responder.ticket r.ticket (start port options).owed = 0 := rfl
  have hgivenUp : givenUpOf (trace ++ [m]) = givenUpOf trace := by
    simp [givenUpOf, hevent, givenUp]
  have hdisplaced : displacedOf (trace ++ [m]) = displacedOf trace := by
    have hnone : m.exchange.displaced m.event = [] := by
      rw [hevent]
      exact displaced_of_not_numbers rfl
    rw [displacedOf_concat, hnone, List.append_nil]
  have hsubmitted : submitters (eventsIn (trace ++ [m])) = submitters (eventsIn trace) := by
    simp [submitters, eventsIn, hevent, ExchangeEvent.submitter?]
  -- his one share is all there is: it was answered, or it is gone
  have honce : share Responder.ticket r.ticket (submitters (eventsIn trace)) = 1 := by
    have hle : share Responder.ticket r.ticket (submitters (eventsIn trace)) ≤ 1 :=
      List.nodup_iff_count_le_one.mp hdistinct r.ticket
    have hpos : 0 < share Responder.ticket r.ticket (submitters (eventsIn trace)) :=
      share_pos.mpr ⟨r, hr, rfl⟩
    omega
  have hlength : (answersTo r.ticket (outputsOf (trace ++ [m]))).length =
      share Responder.ticket r.ticket (answered (outputsOf (trace ++ [m]))) := length_answersTo _ _
  have hgone := share_append (f := Responder.ticket) (a := r.ticket) (givenUpOf trace)
    (displacedOf trace)
  rw [howed, share_nil, hgivenUp, hdisplaced, hsubmitted, honce] at hlaw
  rcases Nat.eq_zero_or_pos
      (share Responder.ticket r.ticket (givenUpOf trace ++ displacedOf trace)) with hzero | hpos
  · left
    omega
  · right
    exact ⟨List.length_eq_zero_iff.mp (by omega), share_pos.mp hpos⟩

/-- A join is answered before the failure or by it. -/
theorem Runs.joinAnswersTo_of_submitted (h : Runs (start port options) (trace ++ [m]) ended)
    (hjoins : DistinctJoins (eventsIn trace)) (hevent : m.event = .receive now (.error error))
    (hcommands : ended.commands = []) (hticket : ticket ∈ joiners (commandsIn (eventsIn trace))) :
    (joinAnswersTo ticket (outputsOf (trace ++ [m]))).length = 1 := by
  have hlaw := h.count_joiners ticket
  have hsubmitted : commandsIn (eventsIn (trace ++ [m])) = commandsIn (eventsIn trace) := by
    simp [commandsIn, eventsIn, hevent, ExchangeEvent.command?]
  have hone : (joiners (commandsIn (eventsIn trace))).count ticket = 1 :=
    List.count_eq_one_of_mem hjoins hticket
  have hnone : joiners ([] : List Command) = [] := rfl
  rw [hcommands, hnone, List.count_nil, Nat.zero_add, hsubmitted, hone] at hlaw
  rw [length_joinAnswersTo, hlaw]

/-- When the transport fails, at any moment of any run and however the table is listed then, every
request and every join that waits is answered once and for all, and whatever is handed over later
comes too late; when it only says that replies were lost, nothing happens. No request loses its
number to another one before all numbers have been given out. -/
theorem transport_failure_settles (h : Runs (start port options) (trace ++ [m]) ended)
    (hevent : m.event = .receive now (.error error)) (hrunning : m.exchange.isRunning = true)
    (hdistinct : DistinctTickets (eventsIn trace)) (hjoins : DistinctJoins (eventsIn trace)) :
    (error.errno? ≠ some Errno.noBufferSpace → Settled trace m ended error.kind) ∧
      (error.errno? = some Errno.noBufferSpace →
        ended = m.exchange ∧ (m.exchange.step m.event).2 = []) ∧
      (numberedIn trace < UInt32.size → displacedOf trace = []) := by
  obtain ⟨x, t, hbefore, hlisted, hm, hended⟩ := h.of_concat
  refine ⟨?_, ?_, hbefore.displacedOf_eq_nil⟩
  · intro hfatal
    have hstep := step_failure hrunning hevent (beq_eq_false_iff_ne.mpr hfatal)
    have hshutdown : ended = (m.exchange.shutdown error.kind).1 := by rw [hended, hstep]
    constructor
    case stopped =>
      rw [hshutdown]
      exact ⟨rfl, rfl, rfl⟩
    case pending => exact fun r hr => h.answersTo_pending hdistinct hstep hr
    case queued => exact fun r hr => h.answersTo_queued hdistinct hstep hr
    case joins => exact fun ticket hticket => h.joinAnswersTo_queued hjoins hstep hticket
    case requests =>
      intro r hr
      refine h.answersTo_of_submitted hdistinct hevent ?_ hr
      rw [hshutdown]
      rfl
    case joined =>
      intro ticket hticket
      refine h.joinAnswersTo_of_submitted hjoins hevent ?_ hticket
      rw [hshutdown]
      rfl
    case later =>
      intro later y hlater
      refine hlater.replies_of_stopped ?_
      rw [hshutdown]
      rfl
  · intro hoverrun
    -- an overrun is skipped
    have hstep : m.exchange.step m.event = (m.exchange, []) := by
      rw [hevent]
      simp [step, receive, hrunning, IoError.isOverrun, hoverrun]
    rw [hended, hstep]
    exact ⟨rfl, rfl⟩

/-- Six commands. A callback has had one part of its reply when the transport fails, the caller of the
second request has gone away, the third request reached its deadline, and a request and a join were
not taken. -/
def interruptedRun : List ExchangeEvent :=
  [.submit (.send (Request.ofCommand 28 3 1).dump (.callback 1)),
    .submit (.send (.ofCommand 28 1 1) (.waiting 2)),
    .submit (.send ((Request.ofCommand 28 1 1).withTimeout (Time.ofMillis 50)) (.waiting 3)),
    .submit (.join 9 1), .submit (.send (.ofCommand 28 1 1) (.waiting 4)), .submit (.join 9 2),
    .take 0 (.ok ()), .take 0 (.ok ()), .take 0 (.ok ()), .take 0 (.ok ()), .transmit 0 (.ok 20),
    .receive 5 (.ok ((⟨20, 28, Flag.multi, 1, 7⟩ : Header).encode ++ [1, 0, 0, 0])),
    .sweep (Time.ofMillis 100), .abandon 2]

/-- The failure after that, with the table listed backwards. -/
def interruption : Moment :=
  ⟨((start 7 {}).after interruptedRun).relist ((start 7 {}).after interruptedRun).pending.reverse,
    .receive (Time.ofMillis 120) (.error (.os ⟨104⟩))⟩

/-- A request and a join that come too late. -/
def lateCommands : List ExchangeEvent :=
  [.submit (.send (.ofCommand 28 1 1) (.callback 5)), .submit (.join 9 3)]

theorem transport_failure_settles_interruptedRun :
    Runs (start 7 {}) ((start 7 {}).moments interruptedRun ++ [interruption])
        (interruption.exchange.step interruption.event).1 ∧
      interruption.exchange.isRunning = true ∧
      DistinctTickets (eventsIn ((start 7 {}).moments interruptedRun)) ∧
      DistinctJoins (eventsIn ((start 7 {}).moments interruptedRun)) ∧
      (∀ ticket ∈ [1, 2],
        answersTo ticket (outputsOf ((start 7 {}).moments interruptedRun ++ [interruption])) =
          [.error (.connectionLost .connectionReset)]) ∧
      answersTo 4 (outputsOf ((start 7 {}).moments interruptedRun ++ [interruption])) =
        [.error .closed] ∧
      joinAnswersTo 2 (outputsOf ((start 7 {}).moments interruptedRun ++ [interruption])) =
        [.error .closed] ∧
      (outputsOf ((interruption.exchange.step interruption.event).1.moments lateCommands)).filter
          ExchangeOutput.isReply =
        [.answer (.callback 5) (.error .closed), .joined 3 (.error .closed)] := by
  have hruns : Runs (start 7 {}) ((start 7 {}).moments interruptedRun ++ [interruption])
      (interruption.exchange.step interruption.event).1 :=
    .next (runs_moments _ _) (List.reverse_perm _)
  have hrunning : interruption.exchange.isRunning = true := by decide +kernel
  have hdistinct : DistinctTickets (eventsIn ((start 7 {}).moments interruptedRun)) := by
    rw [eventsIn_moments]
    decide
  have hjoins : DistinctJoins (eventsIn ((start 7 {}).moments interruptedRun)) := by
    rw [eventsIn_moments]
    decide
  have hpending : responders interruption.exchange.pending = [.channel 2 true, .callback 1] := by
    decide +kernel
  have hqueued : interruption.exchange.queued = [.waiting 4] := by decide +kernel
  have hjoiners : joiners interruption.exchange.commands = [2] := by decide +kernel
  have hsettled := (transport_failure_settles hruns rfl hrunning hdistinct hjoins).1 (by decide)
  refine ⟨hruns, hrunning, hdistinct, hjoins, ?_, ?_, ?_, ?_⟩
  · intro ticket hticket
    simp only [List.mem_cons, List.not_mem_nil, or_false] at hticket
    rcases hticket with rfl | rfl
    · exact hsettled.pending (.callback 1) (by simp [hpending])
    · exact hsettled.pending (.channel 2 true) (by simp [hpending])
  · exact hsettled.queued (.waiting 4) (by simp [hqueued])
  · exact hsettled.joins 2 (by simp [hjoiners])
  · rw [(hsettled.later _ _ (runs_moments _ lateCommands)).2, eventsIn_moments]
    rfl

/-- A caller that is found to have gone away before the transport fails. -/
def missedRun : List ExchangeEvent :=
  [.submit (.send (.ofCommand 28 1 1) (.waiting 1)), .take 0 (.ok ()), .abandon 1,
    .sweep (Time.ofMillis 100)]

/-- Not every request has been answered once the transport has failed: there may be no one left to
answer, and the number of the request may have been given out again while it was pending. -/
theorem not_forall_answered :
    (¬ ∀ (port : UInt32) (options : ExchangeOptions) (trace : List Moment) (m : Moment)
        (ended : Exchange) (now : Time) (error : IoError),
        Runs (start port options) (trace ++ [m]) ended → m.event = .receive now (.error error) →
        m.exchange.isRunning = true → error.errno? ≠ some Errno.noBufferSpace →
        DistinctTickets (eventsIn trace) → numberedIn trace < UInt32.size →
          ∀ r ∈ submitters (eventsIn trace),
            (answersTo r.ticket (outputsOf (trace ++ [m]))).length = 1) ∧
      ¬ ∀ (port : UInt32) (options : ExchangeOptions) (trace : List Moment) (m : Moment)
        (ended : Exchange) (now : Time) (error : IoError),
        Runs (start port options) (trace ++ [m]) ended → m.event = .receive now (.error error) →
        m.exchange.isRunning = true → error.errno? ≠ some Errno.noBufferSpace →
        DistinctTickets (eventsIn trace) → (∀ ticket, .abandon ticket ∉ eventsIn trace) →
          ∀ r ∈ submitters (eventsIn trace),
            (answersTo r.ticket (outputsOf (trace ++ [m]))).length = 1 := by
  constructor
  · intro hall
    -- a caller that a sweep found gone is told nothing
    have hruns := runs_moments (start 7 {}) (missedRun ++ [.receive 5 (.error (.os ⟨104⟩))])
    rw [moments_concat] at hruns
    have hone := hall 7 {} _ _ _ _ _ hruns rfl (by decide) (by decide)
      (by decide) (by decide) (.waiting 1) (by decide)
    revert hone
    decide
  · intro hall
    -- the first request of a whole round loses its number, though nobody leaves
    obtain ⟨n, hround⟩ := exists_round
    have hruns := runs_moments patient
      (wholeRound probeRequest n ++ [.receive 0 (.error (.os ⟨104⟩))])
    rw [moments_concat] at hruns
    have hevents : eventsIn (patient.moments (wholeRound probeRequest n)) =
        wholeRound probeRequest n := eventsIn_moments _ _
    have hdistinct : DistinctTickets (eventsIn (patient.moments (wholeRound probeRequest n)) ++
        [.receive 0 (.error (.os ⟨104⟩))]) := by
      rw [hevents]
      exact distinctTickets_wholeRound probeRequest n 0 _
    have hlost := waiting_mem_displacedOf_wholeRound fits_probeRequest hround
    have hnone := hruns.answersTo_displaced (r := .waiting 1)
      (by rw [eventsIn_concat]; exact hdistinct)
      (by rw [displacedOf_concat]; exact List.mem_append_left _ hlost)
    have hrunning : (patient.after (wholeRound probeRequest n)).isRunning = true :=
      isRunning_wholeRound fits_probeRequest (by omega)
    have hstay : ∀ ticket, .abandon ticket ∉ wholeRound probeRequest n := by
      intro ticket hmem
      rcases mem_wholeRound hmem with ⟨c, he⟩ | he | he | ⟨data, he⟩ <;> cases he
    have hfirst : .waiting 1 ∈ submitters (wholeRound probeRequest n) := by
      rw [submitters_wholeRound]
      exact List.mem_map_of_mem (by simp)
    have hone := hall _ _ _ _ _ 0 (.os ⟨104⟩) hruns rfl hrunning (by decide) hdistinct.of_append
      (hevents.symm ▸ hstay) (.waiting 1) (hevents.symm ▸ hfirst)
    rw [hnone] at hone
    cases hone

end Failure

end Runs

end Exchange

end Vswitch
