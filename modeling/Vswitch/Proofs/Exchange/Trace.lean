import Mathlib
import Vswitch.Proofs.Exchange.Run

/-!
# Runs over a table without order

Nothing is promised about the order in which the pending table lists its requests, though a sweep
and the loss of the transport go through it in that order. A run is therefore a sequence of moments:
at each of them the table is listed in some order, and then an event happens. Whatever a run is said
to do is read off its moments.

* `Exchange.Acts`, `Exchange.acts`: what an event can do, said once for all later inductions;
* `Exchange.Runs`: runs over a table without order, of which `Exchange.run` is one;
* `Exchange.Runs.split`, `Exchange.Runs.at_moment`: the halves and the moments of a run;
* `Exchange.Tidy`, `Exchange.Runs.tidy`: what holds of the table after every run, however long;
* `Exchange.Runs.ordered`: the invariant of all runs in which the numbers do not run out;
* `Exchange.Unrepeated`, `Exchange.Runs.unrepeated`: a number is not given out again before all others.
-/

namespace Vswitch

/-- Whether an output concerns a command that is not taken as a request: a join is answered, or a
command comes too late. -/
def ExchangeOutput.isNotice : ExchangeOutput → Bool
  | .joined _ _ => true
  | .answer _ (.error .closed) => true
  | _ => false

/-- Whether an output tells a caller something. -/
def ExchangeOutput.isReply : ExchangeOutput → Bool
  | .answer _ _ => true
  | .joined _ _ => true
  | _ => false

/-- Whether an output answers a request. -/
def ExchangeOutput.isAnswer : ExchangeOutput → Bool
  | .answer _ _ => true
  | _ => false

/-- Notices go to callers. -/
theorem ExchangeOutput.isReply_of_isNotice {o : ExchangeOutput} (h : o.isNotice = true) :
    o.isReply = true := by
  cases o with
  | answer | joined => rfl
  | transmitted | notified => cases h

/-- Answers do too. -/
theorem ExchangeOutput.isReply_of_isAnswer {outs : List ExchangeOutput}
    (h : ∀ o ∈ outs, o.isAnswer = true) : ∀ o ∈ outs, o.isReply = true := by
  intro o ho
  have hanswer := h o ho
  cases o with
  | answer => rfl
  | joined | transmitted | notified => cases hanswer

namespace Exchange

/-! ## What an event does -/

/-- The sequence numbers of the requests that an event gives up, one after another. -/
def expires (x : Exchange) : ExchangeEvent → List UInt32
  | .sweep now => if x.isRunning then PendingTable.due x.pending now else []
  | _ => []

/-- The datagram that an event hands over, and when. -/
def hears (x : Exchange) : ExchangeEvent → Option (Time × Bytes)
  | .receive now (.ok data) => if x.isRunning then some (now, data) else none
  | _ => none

/-- An event that leaves all alone but the commands, the handles, and whether callers are there. -/
structure Quiet (x : Exchange) (e : ExchangeEvent) (r : Exchange × List ExchangeOutput) :
    Prop where
  frame : r.1 = { x with
    commands := r.1.commands, handlesDropped := r.1.handlesDropped, pending := r.1.pending }
  keys : PendingTable.keys r.1.pending = PendingTable.keys x.pending
  outputs : ∀ o ∈ r.2, o.isNotice = true
  unnumbered : x.numbers e = false
  unexpired : x.expires e = []
  unheard : x.hears e = none

/-- What an event can do: `Acts x e r` says that `r` is the exchange after `e` and what it does. -/
inductive Acts (x : Exchange) : ExchangeEvent → Exchange × List ExchangeOutput → Prop
  | quiet {e r} (h : Quiet x e r) : Acts x e r
  | registers {now joined request responder rest} (hrunning : x.isRunning = true)
      (hcommands : x.commands = .send request responder :: rest) :
      Acts x (.take now joined) ((x.popped rest).register now request responder)
  | transmits {now sent seq datagram rest} (hegress : x.egress = (seq, datagram) :: rest) :
      Acts x (.transmit now (.ok sent))
        ({ x with egress := rest, tally := x.tally.countSent sent }, [.transmitted seq datagram])
  | refuses {now error seq datagram rest} (hegress : x.egress = (seq, datagram) :: rest) :
      Acts x (.transmit now (.error error))
        (complete { x with egress := rest } now seq (.error (.io error)))
  | receives {now data} (hrunning : x.isRunning = true) :
      Acts x (.receive now (.ok data)) (x.takeDatagram now data)
  | loses {now error} (hrunning : x.isRunning = true) (herror : error.isOverrun = false) :
      Acts x (.receive now (.error error)) (x.shutdown error.kind)
  | sweeps {now} (hrunning : x.isRunning = true) : Acts x (.sweep now) (x.sweep now)
  | rests : Acts x .rest ({ x with isRunning := x.isRunning && !x.isIdle }, [])
  | reads {m rest} (hnotifications : x.notifications = m :: rest) :
      Acts x .readNotification ({ x with notifications := rest }, [.notified m])
  | closes : Acts x .closeNotifications ({ x with notifications := [], isListening := false }, [])

theorem quiet_refl {x : Exchange} {e : ExchangeEvent} (hnumbers : x.numbers e = false)
    (hexpires : x.expires e = []) (hhears : x.hears e = none) : Quiet x e (x, []) :=
  ⟨rfl, rfl, by simp, hnumbers, hexpires, hhears⟩

/-- One case for each event: this is the only place where `step` is opened. -/
theorem acts (x : Exchange) (e : ExchangeEvent) : Acts x e (x.step e) := by
  cases e with
  | submit command =>
    refine .quiet ?_
    rcases hrunning : x.isRunning with _ | _
    · rw [submit_stopped hrunning]
      refine ⟨rfl, rfl, ?_, rfl, rfl, rfl⟩
      cases command <;> simp [reject, ExchangeOutput.isNotice]
    · rw [submit_running hrunning]
      exact ⟨rfl, rfl, by simp, rfl, rfl, rfl⟩
  | abandon ticket => exact .quiet ⟨rfl, PendingTable.keys_abandon, by simp [step], rfl, rfl, rfl⟩
  | take now joined =>
    rcases hrunning : x.isRunning with _ | _
    · rw [(take_stopped hrunning).1]
      exact .quiet (quiet_refl (take_stopped hrunning).2 rfl rfl)
    rcases hcommands : x.commands with _ | ⟨⟨request, responder⟩ | ⟨group, ticket⟩, rest⟩
    · rw [(take_nil hcommands).1]
      exact .quiet (quiet_refl (take_nil hcommands).2 rfl rfl)
    · rw [(x.take_send now joined hrunning hcommands).1]
      exact .registers hrunning hcommands
    · rw [(take_join hrunning hcommands).1]
      refine .quiet ⟨rfl, rfl, ?_, (take_join hrunning hcommands).2, rfl, rfl⟩
      simp [ExchangeOutput.isNotice]
  | transmit now result =>
    simp only [step]
    split_ifs
    · unfold transmit
      rcases hegress : x.egress with _ | ⟨⟨seq, datagram⟩, rest⟩
      · exact .quiet (quiet_refl rfl rfl rfl)
      rcases result with error | _
      · exact .refuses hegress
      · exact .transmits hegress
    · exact .quiet (quiet_refl rfl rfl rfl)
  | receive now result =>
    simp only [step]
    split_ifs with hrunning
    · -- replies that were lost are no failure of the transport
      rcases result with error | data
      · simp only [receive]
        split_ifs with herror
        · exact .quiet (quiet_refl rfl rfl rfl)
        · exact .loses hrunning (by simpa using herror)
      · exact .receives hrunning
    · refine .quiet (quiet_refl rfl rfl ?_)
      cases result <;> simp [hears, hrunning]
  | sweep now =>
    simp only [step]
    split_ifs with hrunning
    · exact .sweeps hrunning
    · exact .quiet (quiet_refl rfl (by simp [expires, hrunning]) rfl)
  | dropHandles => exact .quiet ⟨rfl, rfl, by simp [step], rfl, rfl, rfl⟩
  | rest => exact .rests
  | readNotification =>
    simp only [step, readNotification]
    rcases hnotifications : x.notifications with _ | ⟨m, rest⟩
    · exact .quiet (quiet_refl rfl rfl rfl)
    · exact .reads hnotifications
  | closeNotifications => exact .closes

/-- The exchange with the malformed rest of a datagram counted, if there is one. -/
def countingRest (x : Exchange) : Option MessageError → Exchange
  | none => x
  | some _ => { x with tally := x.tally.countDropped }

/-- A datagram counts as its octets, its messages one after another, and its malformed rest. -/
theorem takeDatagram_messages (x : Exchange) (now : Time) (data : Bytes) :
    x.takeDatagram now data =
      (((x.counting data).takeMessages now (Datagram.messages data).1).1.countingRest
          (Datagram.messages data).2,
        ((x.counting data).takeMessages now (Datagram.messages data).1).2) := by
  unfold takeDatagram
  rcases Datagram.messages data with ⟨ms, _ | _⟩
  · rfl
  · rfl

/-! ### What callers are told

Requests are answered by what happens to them, and joins only when their command is taken or comes
too late. The transport and the listener are no callers. -/

section Replies

variable {x : Exchange} {now : Time}

/-- Completing a request answers it and does nothing else. -/
theorem isAnswer_complete (x : Exchange) (now : Time) (seq : UInt32)
    (result : Except ExchangeError Unit) :
    ∀ o ∈ (x.complete now seq result).2, o.isAnswer = true := by
  rcases hp : PendingTable.find? x.pending seq with _ | p
  · simp [complete_of_none hp]
  · simp [complete_of_find? hp, ExchangeOutput.isAnswer]

theorem isAnswer_takeMessage (x : Exchange) (now : Time) (m : Message) :
    ∀ o ∈ (x.takeMessage now m).2, o.isAnswer = true := by
  by_cases hnoop : m.type = MessageType.noop
  · simp [takeMessage_noop hnoop]
  rcases hp : PendingTable.find? x.pending m.seq with _ | p
  · simp [takeMessage_unsolicited hnoop hp]
  rw [takeMessage_pending hnoop hp]
  cases Verdict.ofMessage p.expectsAck m with
  | part => simp
  | lastPart => exact isAnswer_complete (x.extend m) now m.seq _
  | final result => exact isAnswer_complete x now m.seq result

/-- A list of messages answers requests and notifies, and does nothing else. -/
theorem isAnswer_takeMessages (x : Exchange) (now : Time) (ms : List Message) :
    ∀ o ∈ (x.takeMessages now ms).2, o.isAnswer = true := by
  induction ms generalizing x with
  | nil => simp [takeMessages]
  | cons m rest ih =>
    intro o ho
    rcases List.mem_append.mp ho with hfirst | hlater
    · exact isAnswer_takeMessage x now m o hfirst
    · exact ih _ o hlater

/-- A registration answers only when it refuses. -/
theorem isAnswer_register (x : Exchange) (now : Time) (request : Request) (responder : Responder) :
    ∀ o ∈ (x.register now request responder).2, o.isAnswer = true := by
  rcases x.register_cases now request responder with
    ⟨-, heq⟩ | ⟨-, error, -, heq⟩ | ⟨-, datagram, -, heq⟩
  · simp [heq, ExchangeOutput.isAnswer]
  · simp [heq, ExchangeOutput.isAnswer]
  · simp [heq]

/-- A sweep does nothing but answer those it gives up. -/
theorem isAnswer_sweep (hk : (PendingTable.keys x.pending).Nodup) :
    ∀ o ∈ (x.sweep now).2, o.isAnswer = true := by
  rw [sweep_eq hk]
  intro o ho
  rcases List.mem_map.mp ho with ⟨e, -, rfl⟩
  rfl

/-- The end answers the pending requests and then the queued commands. -/
theorem isReply_shutdown (x : Exchange) (kind : IoKind) :
    ∀ o ∈ (x.shutdown kind).2, o.isReply = true := by
  intro o ho
  rcases List.mem_append.mp ho with ho | ho
  · rcases List.mem_map.mp ho with ⟨e, -, rfl⟩
    rfl
  · rcases List.mem_map.mp ho with ⟨c, -, rfl⟩
    cases c <;> rfl

end Replies

/-- Requests that are given up are counted as cancelled or as timed out. -/
theorem foldl_countGivenUp (t : Tally) (l : PendingTable) :
    l.foldl countGivenUp t =
      { t with
        timeouts := t.timeouts + l.countP fun e => !e.2.responder.isGone
        cancelled := t.cancelled + l.countP fun e => e.2.responder.isGone } := by
  induction l generalizing t with
  | nil => rfl
  | cons e rest ih =>
    rw [List.foldl_cons, ih]
    cases h : e.2.responder.isGone <;>
      simp [countGivenUp, Tally.countCancelled, Tally.countTimeout, h, Nat.add_assoc, Nat.add_comm 1]

/-! ## Runs -/

/-- The exchange with its table listed in another order. -/
def relist (x : Exchange) (t : PendingTable) : Exchange := { x with pending := t }

end Exchange

/-- A moment of a run: an exchange, and what happens to it. -/
structure Moment where
  exchange : Exchange
  event : ExchangeEvent

/-- The events at the moments of a run. -/
def eventsIn (trace : List Moment) : List ExchangeEvent := trace.map Moment.event

/-- What the exchange does at the moments of a run. -/
def outputsOf (trace : List Moment) : List ExchangeOutput :=
  trace.flatMap fun m => (m.exchange.step m.event).2

/-- How many requests are given a sequence number at the moments of a run. -/
def numberedIn (trace : List Moment) : Nat := trace.countP fun m => m.exchange.numbers m.event

section Logs

variable (trace before later : List Moment) (m : Moment)

theorem eventsIn_append : eventsIn (before ++ later) = eventsIn before ++ eventsIn later :=
  List.map_append

theorem eventsIn_concat : eventsIn (trace ++ [m]) = eventsIn trace ++ [m.event] :=
  eventsIn_append trace [m]

theorem outputsOf_append : outputsOf (before ++ later) = outputsOf before ++ outputsOf later :=
  List.flatMap_append

theorem numberedIn_append : numberedIn (before ++ later) = numberedIn before + numberedIn later :=
  List.countP_append

theorem outputsOf_concat :
    outputsOf (trace ++ [m]) = outputsOf trace ++ (m.exchange.step m.event).2 := by
  simp [outputsOf]

theorem numberedIn_concat :
    numberedIn (trace ++ [m]) = numberedIn trace + (m.exchange.numbers m.event).toNat := by
  rw [numberedIn, List.countP_append, numberedIn]
  cases h : m.exchange.numbers m.event <;> simp [h]

end Logs

namespace Exchange

/-- Runs from `x₀`: at every moment the table is listed in some order, and then an event happens. -/
inductive Runs (x₀ : Exchange) : List Moment → Exchange → Prop
  | init : Runs x₀ [] x₀
  | next {trace x t e} (h : Runs x₀ trace x) (hlisted : t.Perm x.pending) :
      Runs x₀ (trace ++ [⟨x.relist t, e⟩]) ((x.relist t).step e).1

/-- The moments of a run that never lists the table anew. -/
def moments (x : Exchange) : List ExchangeEvent → List Moment
  | [] => []
  | e :: rest => ⟨x, e⟩ :: (x.step e).1.moments rest

/-- The last event happens where the events before it lead. -/
theorem moments_concat (x : Exchange) (es : List ExchangeEvent) (e : ExchangeEvent) :
    x.moments (es ++ [e]) = x.moments es ++ [⟨x.after es, e⟩] := by
  induction es generalizing x with
  | nil => rfl
  | cons d es ih => rw [List.cons_append, moments, moments, ih, after_cons, List.cons_append]

/-- The moments of a list of events have those events. -/
theorem eventsIn_moments (x : Exchange) (es : List ExchangeEvent) :
    eventsIn (x.moments es) = es := by
  induction es generalizing x with
  | nil => rfl
  | cons e rest ih => exact congrArg (e :: ·) (ih _)

theorem event_mem_of_mem_moments {x : Exchange} {es : List ExchangeEvent} {m : Moment}
    (h : m ∈ x.moments es) : m.event ∈ es := by
  rw [← eventsIn_moments x es]
  exact List.mem_map_of_mem h

/-- A run that never lists the table anew is a run. -/
theorem runs_moments (x : Exchange) (es : List ExchangeEvent) :
    Runs x (x.moments es) (x.after es) := by
  induction es using List.reverseRecOn with
  | nil => exact .init
  | append_singleton es e ih =>
    rw [moments_concat, after_concat]
    exact .next ih (.refl _)

/-! ### Parts of a run -/

section Parts

variable {x₀ x y : Exchange} {trace before later : List Moment} {m : Moment}

/-- The last moment of a run. -/
theorem Runs.of_concat (h : Runs x₀ (trace ++ [m]) y) :
    ∃ x t, Runs x₀ trace x ∧ t.Perm x.pending ∧ m.exchange = x.relist t ∧
      y = (m.exchange.step m.event).1 := by
  generalize hwhole : trace ++ [m] = whole at h
  cases h with
  | init => simp at hwhole
  | @next before x t e h hlisted =>
    obtain ⟨rfl, hlast⟩ := List.append_inj' hwhole rfl
    obtain rfl := List.singleton_inj.mp hlast
    exact ⟨x, t, h, hlisted, rfl, rfl⟩

/-- The second half of a run is a run from where the first half ends. -/
theorem Runs.split (h : Runs x₀ (before ++ later) x) :
    ∃ y, Runs x₀ before y ∧ Runs y later x := by
  induction later using List.reverseRecOn generalizing x with
  | nil =>
    rw [List.append_nil] at h
    exact ⟨x, h, .init⟩
  | append_singleton later m ih =>
    rcases m with ⟨last, e⟩
    rw [← List.append_assoc] at h
    obtain ⟨z, t, hz, hlisted, rfl, rfl⟩ := h.of_concat
    obtain ⟨y, hbefore, hlater⟩ := ih hz
    exact ⟨y, hbefore, .next hlater hlisted⟩

/-- At a moment of a run, the exchange is what the run up to there has made of it, with its table
listed in some order. -/
theorem Runs.at_moment (h : Runs x₀ (before ++ m :: later) x) :
    ∃ y t, Runs x₀ before y ∧ t.Perm y.pending ∧ m.exchange = y.relist t := by
  rw [List.append_cons] at h
  obtain ⟨z, hmoment, -⟩ := h.split
  obtain ⟨y, t, hbefore, hlisted, hexchange, -⟩ := hmoment.of_concat
  exact ⟨y, t, hbefore, hlisted, hexchange⟩

end Parts

/-! ## Invariants of runs -/

/-- The pending requests have different numbers, and nothing is pending once the exchange has
ended. Unlike `Ordered` this does not depend on how many numbers were given out. -/
structure Tidy (x : Exchange) : Prop where
  nodup : (PendingTable.keys x.pending).Nodup
  ended : x.isRunning = false → x.pending = []

namespace Tidy

variable {x y : Exchange} {e : ExchangeEvent} {r : Exchange × List ExchangeOutput}
  {t : PendingTable}

/-- An exchange starts with nothing pending. -/
theorem start (port : UInt32) (options : ExchangeOptions) : Tidy (start port options) where
  nodup := List.nodup_nil
  ended := fun _ => rfl

/-- Tidiness does not depend on the order of the table. -/
theorem relist (h : Tidy x) (hlisted : t.Perm x.pending) : Tidy (x.relist t) where
  nodup := (hlisted.map Prod.fst).nodup_iff.mpr h.nodup
  ended := by
    intro hended
    have hnil := h.ended hended
    rw [hnil] at hlisted
    exact hlisted.eq_nil

/-- What adds nothing to the table keeps it tidy. -/
theorem of_sublist (h : Tidy x) (hrunning : y.isRunning = x.isRunning)
    (hkeys : (PendingTable.keys y.pending).Sublist (PendingTable.keys x.pending)) : Tidy y where
  nodup := hkeys.nodup h.nodup
  ended := by
    intro hended
    rw [h.ended (hrunning ▸ hended)] at hkeys
    simpa [PendingTable.keys] using hkeys

/-- Taking requests away keeps the table tidy. -/
theorem onTable (h : Tidy x) (hy : OnTable x y) : Tidy y := h.of_sublist hy.isRunning hy.keys

/-- A new request replaces one of its number, so the numbers stay different. -/
theorem register (h : Tidy x) (hrunning : x.isRunning = true) (now : Time) (request : Request)
    (responder : Responder) : Tidy (x.register now request responder).1 := by
  rcases x.register_cases now request responder with
    ⟨-, heq⟩ | ⟨-, error, -, heq⟩ | ⟨-, datagram, -, heq⟩
  · rw [heq]
    exact h
  · rw [heq]
    exact ⟨h.nodup, h.ended⟩
  · rw [heq]
    refine ⟨?_, fun hended => by cases hrunning.symm.trans hended⟩
    -- once the numbers run out the new one may be pending, but then that request is taken out
    have hnew : nextSeq x.lastSeq ∉
        PendingTable.keys (PendingTable.erase x.pending (nextSeq x.lastSeq)) := by
      simp [PendingTable.keys_erase]
    rw [PendingTable.insert, PendingTable.keys, List.map_append, List.map_singleton,
      ← List.concat_eq_append, List.nodup_concat]
    exact ⟨hnew, PendingTable.keys_erase_sublist.nodup h.nodup⟩

/-- What an event can do keeps the table tidy. -/
theorem acts (h : Tidy x) (hr : Acts x e r) : Tidy r.1 := by
  cases hr with
  | quiet hquiet =>
    refine h.of_sublist ?_ ?_
    · rw [hquiet.frame]
    · rw [hquiet.keys]
  | @registers now joined request responder rest hrunning hcommands =>
    have hpopped : Tidy (x.popped rest) := ⟨h.nodup, h.ended⟩
    exact hpopped.register hrunning now request responder
  | transmits hegress => exact ⟨h.nodup, h.ended⟩
  | @refuses now error seq datagram rest hegress =>
    have hpopped : Tidy { x with egress := rest } := ⟨h.nodup, h.ended⟩
    exact hpopped.onTable (onTable_complete _ now seq _)
  | receives hrunning => exact h.onTable (onTable_takeDatagram x _ _)
  | loses hrunning herror => exact ⟨List.nodup_nil, fun _ => rfl⟩
  | sweeps hrunning => exact h.onTable (onTable_sweep _ h.nodup)
  | rests =>
    refine ⟨h.nodup, ?_⟩
    intro hended
    -- an exchange comes to rest only if it is idle
    simp only [Bool.and_eq_false_iff, Bool.not_eq_false'] at hended
    rcases hended with hended | hidle
    · exact h.ended hended
    · simp only [isIdle, Bool.and_eq_true, List.isEmpty_iff] at hidle
      exact hidle.1.2
  | reads hnotifications => exact ⟨h.nodup, h.ended⟩
  | closes => exact ⟨h.nodup, h.ended⟩

theorem step (h : Tidy x) (e : ExchangeEvent) : Tidy (x.step e).1 := h.acts (x.acts e)

end Tidy

/-- Numbers in increasing order are different. -/
theorem Ordered.tidy {x : Exchange} {n : Nat} (h : Ordered x n) : Tidy x where
  nodup := h.nodup
  ended := fun hended => (h.ended hended).1

theorem Ordered.relist {x : Exchange} {n : Nat} {t : PendingTable} (h : Ordered x n)
    (hlisted : t.Perm x.pending) : Ordered (x.relist t) n where
  last := h.last
  nodup := (hlisted.map Prod.fst).nodup_iff.mpr h.nodup
  bound := fun s hs => h.bound s ((hlisted.map Prod.fst).mem_iff.mp hs)
  ended := by
    intro hended
    have hnil := h.ended hended
    rw [hnil.1] at hlisted
    exact ⟨hlisted.eq_nil, hnil.2⟩

/-- The table is tidy after a run from a tidy one. -/
theorem Tidy.runs {x₀ x : Exchange} {trace : List Moment} (h₀ : Tidy x₀) (h : Runs x₀ trace x) :
    Tidy x := by
  induction h with
  | init => exact h₀
  | next h hlisted ih => exact (ih.relist hlisted).step _

/-- So are the tables at the moments of a run. -/
theorem Tidy.moment {x₀ x : Exchange} {trace : List Moment} {m : Moment} (h₀ : Tidy x₀)
    (h : Runs x₀ trace x) (hm : m ∈ trace) : Tidy m.exchange := by
  induction h with
  | init => cases hm
  | @next trace x t e h hlisted ih =>
    rcases List.mem_append.mp hm with hm | hm
    · exact ih hm
    · rw [List.mem_singleton.mp hm]
      exact (h₀.runs h).relist hlisted

/-- Below the size of a number nothing comes round, and so a run keeps the order. -/
theorem Ordered.runs {x₀ x : Exchange} {n : Nat} {trace : List Moment} (h₀ : Ordered x₀ n)
    (h : Runs x₀ trace x) (hfew : n + numberedIn trace < UInt32.size) :
    Ordered x (n + numberedIn trace) := by
  induction h with
  | init => exact h₀
  | next h hlisted ih =>
    rw [numberedIn_concat, ← Nat.add_assoc] at hfew ⊢
    exact ((ih (by omega)).relist hlisted).step _ hfew

namespace Runs

variable {port : UInt32} {options : ExchangeOptions} {trace : List Moment} {x : Exchange}

/-- Every exchange of a run is tidy. -/
theorem tidy (h : Runs (start port options) trace x) : Tidy x := (Tidy.start port options).runs h

theorem tidy_moment {m : Moment} (h : Runs (start port options) trace x) (hm : m ∈ trace) :
    Tidy m.exchange :=
  (Tidy.start port options).moment h hm

/-- In a run with few numbers the pending ones are in the order they were given. -/
theorem ordered (h : Runs (start port options) trace x) (hfew : numberedIn trace < UInt32.size) :
    Ordered x (numberedIn trace) := by
  have hall := (Ordered.start port options).runs h (by omega)
  rwa [Nat.zero_add] at hall

end Runs

/-! ## Numbers that are not given out again -/

section Numbers

variable {x : Exchange} {e : ExchangeEvent} {r : Exchange × List ExchangeOutput} {seq : UInt32}
  {k : Nat}

/-- No event changes the port or the options, and the last number changes with the events that give
one out. -/
theorem Acts.settings (hr : Acts x e r) (hx : Tidy x) :
    r.1.port = x.port ∧ r.1.options = x.options ∧
      r.1.lastSeq = if x.numbers e then nextSeq x.lastSeq else x.lastSeq := by
  cases hr with
  | quiet hquiet =>
    rw [hquiet.frame, hquiet.unnumbered]
    exact ⟨rfl, rfl, rfl⟩
  | @registers now joined request responder rest hrunning hcommands =>
    rw [(x.take_send now joined hrunning hcommands).2]
    rcases (x.popped rest).register_cases now request responder with
      ⟨(hfull : x.options.maxPending ≤ x.pending.length), heq⟩ |
        ⟨(hroom : x.pending.length < x.options.maxPending), error, -, heq⟩ |
          ⟨(hroom : x.pending.length < x.options.maxPending), datagram, -, heq⟩
    · rw [heq, decide_eq_false (Nat.not_lt.mpr hfull)]
      exact ⟨rfl, rfl, rfl⟩
    -- the number is taken, though the request is refused for its length
    · rw [heq, decide_eq_true hroom]
      exact ⟨rfl, rfl, rfl⟩
    · rw [heq, decide_eq_true hroom]
      exact ⟨rfl, rfl, rfl⟩
  | @refuses now error s datagram rest hegress =>
    rw [(onTable_complete { x with egress := rest } now s _).frame]
    exact ⟨rfl, rfl, rfl⟩
  | @receives now data hrunning =>
    rw [(onTable_takeDatagram x now data).frame]
    exact ⟨rfl, rfl, rfl⟩
  | @sweeps now hrunning =>
    rw [(onTable_sweep now hx.nodup).frame]
    exact ⟨rfl, rfl, rfl⟩
  | transmits | loses | rests | reads | closes => exact ⟨rfl, rfl, rfl⟩

/-- No run changes the port or the options. -/
theorem Runs.settings_eq {x₀ : Exchange} {trace : List Moment} (h₀ : Tidy x₀)
    (h : Runs x₀ trace x) : x.port = x₀.port ∧ x.options = x₀.options := by
  induction h with
  | init => exact ⟨rfl, rfl⟩
  | @next trace x t e h hlisted ih =>
    have hstep := ((x.relist t).acts e).settings ((h₀.runs h).relist hlisted)
    exact ⟨hstep.1.trans ih.1, hstep.2.1.trans ih.2⟩

/-- At no moment of a run is the number given out. -/
def Unrepeated (seq : UInt32) (trace : List Moment) : Prop :=
  ∀ m ∈ trace, m.exchange.numbers m.event = true → nextSeq m.exchange.lastSeq ≠ seq

/-- After the last number comes the first. -/
theorem toNat_nextSeq_last (h : seq.toNat + 1 = UInt32.size) : (nextSeq seq).toNat = 1 := by
  have hzero : seq + 1 = 0 := by
    rw [← UInt32.toNat_inj, UInt32.toNat_add, UInt32.toNat_one, h]
    rfl
  rw [nextSeq, if_pos hzero, UInt32.toNat_one]

/-- `last` is the `k`-th number after `seq`, where the numbers come round once all but zero were given
out. -/
def Ahead (seq : UInt32) (k : Nat) (last : UInt32) : Prop :=
  last.toNat = seq.toNat + k ∨ last.toNat + (UInt32.size - 1) = seq.toNat + k

/-- The next number is one further, also where the numbers come round. -/
theorem Ahead.next {last : UInt32} (h : Ahead seq k last) (hfew : k + 1 < UInt32.size) :
    Ahead seq (k + 1) (nextSeq last) := by
  unfold Ahead at h ⊢
  have hbound := last.toNat_lt_size
  have hbound' := seq.toNat_lt_size
  by_cases hend : last.toNat + 1 = UInt32.size
  · rw [toNat_nextSeq_last hend]
    omega
  · rw [toNat_nextSeq (by omega)]
    omega

/-- A number comes round only after all others. -/
theorem Ahead.ne {last : UInt32} (h : Ahead seq k last) (hpos : 0 < k)
    (hfew : k < UInt32.size - 1) : last ≠ seq := by
  rintro rfl
  unfold Ahead at h
  omega

/-- A run goes on from the number at which it started. -/
theorem Runs.ahead {x₀ : Exchange} {trace : List Moment} (h₀ : Tidy x₀) (h : Runs x₀ trace x)
    (hfew : numberedIn trace < UInt32.size) : Ahead x₀.lastSeq (numberedIn trace) x.lastSeq := by
  induction h with
  | init => exact Or.inl rfl
  | @next trace x t e h hlisted ih =>
    rw [numberedIn_concat] at hfew ⊢
    have hahead := ih (by omega)
    have hlast := (((x.relist t).acts e).settings ((h₀.runs h).relist hlisted)).2.2
    rw [hlast]
    cases hnumbers : (x.relist t).numbers e with
    | false => exact hahead
    | true =>
      rw [hnumbers, Bool.toNat_true] at hfew
      exact hahead.next hfew

/-- A number that was just given out is not given out again before all others. -/
theorem Runs.unrepeated {x₀ : Exchange} {trace : List Moment} (h₀ : Tidy x₀) (h : Runs x₀ trace x)
    (hfew : numberedIn trace < UInt32.size - 1) : Unrepeated x₀.lastSeq trace := by
  induction h with
  | init => exact List.forall_mem_nil _
  | @next trace x t e h hlisted ih =>
    rw [numberedIn_concat] at hfew
    intro m hm hnumbers
    rcases List.mem_append.mp hm with hm | hm
    · exact ih (by omega) m hm hnumbers
    · obtain rfl := List.mem_singleton.mp hm
      rw [hnumbers, Bool.toNat_true] at hfew
      exact ((h.ahead h₀ (by omega)).next (by omega)).ne (Nat.succ_pos _) hfew

end Numbers

end Exchange

end Vswitch
