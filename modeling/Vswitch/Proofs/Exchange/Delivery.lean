import Mathlib
import Vswitch.Proofs.Exchange.Trace

/-!
# What becomes of a message

Every message that an exchange hears, but for those to be skipped, is consumed by the pending request
with its number, handed to the notification stream, or dropped. The counters of notifications and of
what was dropped follow the messages one by one, and the stream holds what was handed to it in the
order in which it came.

* `Delivery`, `Exchange.deliveries`: a message at the moment when an exchange takes it;
* `Fate`, `Delivery.Meets`, `Delivery.meets_iff`: what can become of it, and that exactly one of these
  does;
* `Exchange.Accounted`: the invariant between the messages, the counters and the stream;
* `Exchange.messages_accounted`: what follows for every run.
-/

namespace Vswitch

/-! ## Messages that are taken -/

/-- A message at the moment when an exchange takes it. -/
structure Delivery where
  exchange : Exchange
  now : Time
  message : Message

/-- The exchange after it has taken the message, and what it does. -/
def Delivery.result (d : Delivery) : Exchange × List ExchangeOutput :=
  d.exchange.takeMessage d.now d.message

namespace Exchange

/-- The moments at which messages are taken one after another. -/
def takings (x : Exchange) (now : Time) : List Message → List Delivery
  | [] => []
  | m :: rest => ⟨x, now, m⟩ :: (x.takeMessage now m).1.takings now rest

/-- The moments at which the messages of an event are taken. -/
def deliveries (x : Exchange) (e : ExchangeEvent) : List Delivery :=
  match x.hears e with
  | none => []
  | some (now, data) => (x.counting data).takings now (Datagram.messages data).1

/-- The messages of an event. -/
def hearsMessages (x : Exchange) (e : ExchangeEvent) : List Message :=
  match x.hears e with
  | none => []
  | some (_, data) => (Datagram.messages data).1

/-- Whether an event brings a datagram with a malformed rest. -/
def hearsMalformed (x : Exchange) (e : ExchangeEvent) : Bool :=
  match x.hears e with
  | none => false
  | some (_, data) => (Datagram.messages data).2.isSome

/-- The moments of a list of messages are those messages, each where it is taken. -/
theorem map_message_takings (x : Exchange) (now : Time) (ms : List Message) :
    (x.takings now ms).map Delivery.message = ms := by
  induction ms generalizing x with
  | nil => rfl
  | cons m rest ih => rw [takings, List.map_cons, ih]

/-- The moments of an event are its messages. -/
theorem map_message_deliveries (x : Exchange) (e : ExchangeEvent) :
    (x.deliveries e).map Delivery.message = x.hearsMessages e := by
  unfold deliveries hearsMessages
  rcases x.hears e with _ | ⟨now, data⟩
  · rfl
  · exact map_message_takings _ _ _

end Exchange

/-! ## Fates -/

/-- What can become of a message. -/
inductive Fate where
  | consumed
  | notified
  | dropped
  deriving DecidableEq, Repr

namespace Delivery

/-- The request that the message answers, if there is one. -/
def request? (d : Delivery) : Option Pending :=
  PendingTable.find? d.exchange.pending d.message.seq

/-- What it means for a message to meet a fate. A request that consumes it is either extended by it,
or answered and removed. Otherwise the message is put on the stream and counted, or only counted. -/
def Meets (d : Delivery) : Fate → Prop
  | .consumed => ∃ p, d.request? = some p ∧
      (d.result = (d.exchange.extend d.message, []) ∨
        ∃ response, d.result =
          ({ d.exchange with
              pending := PendingTable.erase d.exchange.pending d.message.seq
              tally := d.exchange.tally.countResponse (d.now - p.registered) },
            [.answer p.responder response]))
  | .notified => d.request? = none ∧ d.result =
      ({ d.exchange with
          notifications := d.exchange.notifications ++ [d.message]
          tally := d.exchange.tally.countNotification }, [])
  | .dropped => d.request? = none ∧ d.result =
      ({ d.exchange with tally := d.exchange.tally.countDropped }, [])

/-- The fate of a message, told by whether its number is pending and by the counter of
notifications. -/
def fate (d : Delivery) : Fate :=
  if d.request?.isSome then .consumed
  else if d.exchange.tally.notifications < d.result.1.tally.notifications then .notified
  else .dropped

/-- Whether the message is one to be skipped. -/
def isNoop (d : Delivery) : Bool := d.message.type == MessageType.noop

variable {d : Delivery} {f : Fate}

/-- No message meets two fates, and `fate` computes the one. -/
theorem eq_fate_of_meets (h : d.Meets f) : f = d.fate := by
  cases f with
  | consumed =>
    rcases h with ⟨p, hp, -⟩
    simp [fate, hp]
  | notified =>
    rcases h with ⟨hnone, hresult⟩
    simp [fate, hnone, hresult, Tally.countNotification]
  | dropped =>
    rcases h with ⟨hnone, hresult⟩
    simp [fate, hnone, hresult, Tally.countDropped]

/-- A message that answers no request is put on the stream or dropped. -/
theorem meets_of_unsolicited (hnoop : d.message.type ≠ MessageType.noop) (hp : d.request? = none) :
    d.Meets .notified ∨ d.Meets .dropped := by
  have hresult : d.result = (d.exchange.takeUnsolicited d.message, []) :=
    Exchange.takeMessage_unsolicited hnoop hp
  unfold Exchange.takeUnsolicited at hresult
  split_ifs at hresult
  · exact .inr ⟨hp, hresult⟩
  · exact .inl ⟨hp, hresult⟩
  · exact .inr ⟨hp, hresult⟩

/-- A message that answers a request is consumed by it. -/
theorem meets_of_pending {p : Pending} (hnoop : d.message.type ≠ MessageType.noop)
    (hp : d.request? = some p) : d.Meets .consumed := by
  refine ⟨p, hp, ?_⟩
  rw [result, Exchange.takeMessage_pending hnoop hp]
  cases Verdict.ofMessage p.expectsAck d.message with
  | part => exact .inl rfl
  | lastPart =>
    -- the part is added first, and then the request is taken out with it
    refine .inr ⟨.ok (p.addPart d.message).parts, ?_⟩
    have herase : PendingTable.erase (d.exchange.extend d.message).pending d.message.seq =
        PendingTable.erase d.exchange.pending d.message.seq :=
      PendingTable.erase_modify (f := (·.addPart d.message))
    dsimp only
    rw [Exchange.complete_of_find? (Exchange.find?_extend_self hp), herase]
    rfl
  | final result =>
    refine .inr ⟨result.map fun _ => p.parts, ?_⟩
    dsimp only
    rw [Exchange.complete_of_find? hp]

/-- Exactly one fate is met by a message that is not to be skipped. -/
theorem meets_iff (hnoop : d.message.type ≠ MessageType.noop) : d.Meets f ↔ f = d.fate := by
  refine ⟨eq_fate_of_meets, ?_⟩
  rintro rfl
  rcases hp : d.request? with _ | p
  · rcases meets_of_unsolicited hnoop hp with h | h
    · rwa [← eq_fate_of_meets h]
    · rwa [← eq_fate_of_meets h]
  · have h := meets_of_pending hnoop hp
    rwa [← eq_fate_of_meets h]

end Delivery

/-! ## Logs of a run -/

/-- The message that an output hands to the listener, if it does. -/
def ExchangeOutput.messages : ExchangeOutput → List Message
  | .notified message => [message]
  | _ => []

/-- The messages that the listener is handed, in order. -/
def streamedIn (outs : List ExchangeOutput) : List Message := outs.flatMap ExchangeOutput.messages

/-- The messages that are not to be skipped, each at the moment when it is taken. -/
def heard (ds : List Delivery) : List Delivery := ds.filter fun d => !d.isNoop

/-- The messages that are put on the stream, in order. -/
def noticesIn (ds : List Delivery) : List Message :=
  (ds.filter fun d => d.fate = .notified).map Delivery.message

theorem streamedIn_append (outs outs' : List ExchangeOutput) :
    streamedIn (outs ++ outs') = streamedIn outs ++ streamedIn outs' := by
  simp [streamedIn]

/-- What callers are told is not for the listener. -/
theorem streamedIn_of_isReply {outs : List ExchangeOutput} (h : ∀ o ∈ outs, o.isReply = true) :
    streamedIn outs = [] := by
  refine List.flatMap_eq_nil_iff.mpr ?_
  intro o ho
  have hreply := h o ho
  cases o with
  | answer | joined | transmitted => rfl
  | notified => cases hreply

theorem heard_append (ds ds' : List Delivery) : heard (ds ++ ds') = heard ds ++ heard ds' := by
  simp [heard]

namespace Exchange

/-! ## What has nothing to do with messages -/

/-- An operation that leaves the stream, its listener and its counters alone. -/
structure Aside (x : Exchange) (r : Exchange × List ExchangeOutput) : Prop where
  notifications : r.1.notifications = x.notifications
  isListening : r.1.isListening = x.isListening
  notified : r.1.tally.notifications = x.tally.notifications
  dropped : r.1.tally.dropped = x.tally.dropped
  outputs : streamedIn r.2 = []

section Aside

variable {x : Exchange} {e : ExchangeEvent} {r : Exchange × List ExchangeOutput} {now : Time}

/-- What is quiet hands out no message and counts none. -/
theorem Quiet.aside (h : Quiet x e r) : Aside x r := by
  refine ⟨?_, ?_, ?_, ?_, streamedIn_of_isReply fun o ho =>
    ExchangeOutput.isReply_of_isNotice (h.outputs o ho)⟩
  all_goals rw [h.frame]

/-- Answering a request hands the listener nothing. -/
theorem aside_complete (x : Exchange) (now : Time) (seq : UInt32)
    (result : Except ExchangeError Unit) : Aside x (x.complete now seq result) := by
  rcases hp : PendingTable.find? x.pending seq with _ | p
  · rw [complete_of_none hp]
    exact ⟨rfl, rfl, rfl, rfl, rfl⟩
  · rw [complete_of_find? hp]
    exact ⟨rfl, rfl, rfl, rfl, rfl⟩

/-- Nor does taking one. -/
theorem aside_register (x : Exchange) (now : Time) (request : Request) (responder : Responder) :
    Aside x (x.register now request responder) := by
  rcases x.register_cases now request responder with
    ⟨-, heq⟩ | ⟨-, error, -, heq⟩ | ⟨-, datagram, -, heq⟩
  · rw [heq]
    exact ⟨rfl, rfl, rfl, rfl, rfl⟩
  · rw [heq]
    exact ⟨rfl, rfl, rfl, rfl, rfl⟩
  · rw [heq]
    exact ⟨rfl, rfl, rfl, rfl, rfl⟩

/-- Nor does a sweep, which answers with timeouts only. -/
theorem aside_sweep (hk : (PendingTable.keys x.pending).Nodup) : Aside x (x.sweep now) := by
  have houtputs : streamedIn (x.sweep now).2 = [] :=
    streamedIn_of_isReply (ExchangeOutput.isReply_of_isAnswer (isAnswer_sweep hk))
  rw [sweep_eq hk, foldl_countGivenUp] at houtputs ⊢
  exact ⟨rfl, rfl, rfl, rfl, houtputs⟩

/-- Nor does the end, which leaves in the buffer what the listener can still read. -/
theorem aside_shutdown (x : Exchange) (kind : IoKind) : Aside x (x.shutdown kind) :=
  ⟨rfl, rfl, rfl, rfl, streamedIn_of_isReply (isReply_shutdown x kind)⟩

end Aside

/-! ## The invariant -/

/-- The counters count the messages by their fates, and what was dropped also the malformed
datagrams. What the listener was handed and what still waits for it is what was put on the stream,
or what is left of that once the listener has gone away. -/
structure Accounted (x : Exchange) (ds : List Delivery) (malformed : Nat) (streamed : List Message) :
    Prop where
  notified : x.tally.notifications = ds.countP fun d => d.fate = .notified
  dropped : x.tally.dropped = (ds.countP fun d => d.fate = .dropped) + malformed
  stream : (streamed ++ x.notifications).Sublist (noticesIn ds)
  whole : x.isListening = true → streamed ++ x.notifications = noticesIn ds

namespace Accounted

variable {x : Exchange} {ds : List Delivery} {malformed : Nat} {streamed : List Message}
  {e : ExchangeEvent} {r : Exchange × List ExchangeOutput}

/-- Before the first datagram nothing is counted and nothing is buffered. -/
theorem start (port : UInt32) (options : ExchangeOptions) :
    Accounted (start port options) [] 0 [] :=
  ⟨rfl, rfl, .slnil, fun _ => rfl⟩

/-- The order of the table does not matter to the counters. -/
theorem relist (h : Accounted x ds malformed streamed) (t : PendingTable) :
    Accounted (x.relist t) ds malformed streamed :=
  ⟨h.notified, h.dropped, h.stream, h.whole⟩

/-- What hands out no message and counts none keeps the account. -/
theorem aside (h : Accounted x ds malformed streamed) (hr : Aside x r) :
    Accounted r.1 ds malformed (streamed ++ streamedIn r.2) := by
  rw [hr.outputs, List.append_nil]
  refine ⟨?_, ?_, ?_, ?_⟩
  · rw [hr.notified, h.notified]
  · rw [hr.dropped, h.dropped]
  · rw [hr.notifications]
    exact h.stream
  · rw [hr.notifications, hr.isListening]
    exact h.whole

/-- A message is counted by its fate. -/
theorem takeMessage (h : Accounted x ds malformed streamed) (now : Time) (m : Message) :
    Accounted (x.takeMessage now m).1 (ds ++ heard [⟨x, now, m⟩]) malformed streamed := by
  by_cases hnoop : m.type = MessageType.noop
  · have hskipped : heard [⟨x, now, m⟩] = [] := by simp [heard, Delivery.isNoop, hnoop]
    rw [takeMessage_noop hnoop, hskipped, List.append_nil]
    exact h
  have hheard : heard [⟨x, now, m⟩] = [⟨x, now, m⟩] := by simp [heard, Delivery.isNoop, hnoop]
  have hmeets := (Delivery.meets_iff (d := ⟨x, now, m⟩) hnoop).mpr rfl
  have hresult : x.takeMessage now m = (Delivery.mk x now m).result := rfl
  rw [hheard, hresult]
  -- by its fate: a message that is consumed is no concern of the listener
  cases hfate : (Delivery.mk x now m).fate with
  | consumed =>
    have hnotices : noticesIn (ds ++ [⟨x, now, m⟩]) = noticesIn ds := by
      simp [noticesIn, hfate]
    have haside : Aside x ((Delivery.mk x now m).result.1, []) := by
      rw [hfate] at hmeets
      rcases hmeets with ⟨p, -, hextended | ⟨response, hanswered⟩⟩
      · rw [hextended]
        exact ⟨rfl, rfl, rfl, rfl, rfl⟩
      · rw [hanswered]
        exact ⟨rfl, rfl, rfl, rfl, rfl⟩
    have hkept := h.aside haside
    rw [streamedIn, List.flatMap_nil, List.append_nil] at hkept
    refine ⟨?_, ?_, ?_, ?_⟩
    · simpa [hfate] using hkept.notified
    · simpa [hfate] using hkept.dropped
    · rw [hnotices]
      exact hkept.stream
    · rw [hnotices]
      exact hkept.whole
  | notified =>
    rw [hfate] at hmeets
    have hnotices : noticesIn (ds ++ [⟨x, now, m⟩]) = noticesIn ds ++ [m] := by
      simp [noticesIn, hfate]
    -- the buffer grows behind what was streamed already
    have hpushed : streamed ++ (x.notifications ++ [m]) = streamed ++ x.notifications ++ [m] :=
      (List.append_assoc _ _ _).symm
    rw [hmeets.2]
    refine ⟨?_, ?_, ?_, ?_⟩
    · simp [hfate, h.notified, Tally.countNotification]
    · simpa [hfate, Tally.countNotification] using h.dropped
    · rw [hnotices, hpushed]
      exact h.stream.append (List.Sublist.refl _)
    · intro hlistening
      rw [hnotices, hpushed, h.whole hlistening]
  | dropped =>
    rw [hfate] at hmeets
    have hnotices : noticesIn (ds ++ [⟨x, now, m⟩]) = noticesIn ds := by
      simp [noticesIn, hfate]
    rw [hmeets.2]
    refine ⟨?_, ?_, ?_, ?_⟩
    · simpa [hfate, Tally.countDropped] using h.notified
    · simp [hfate, h.dropped, Tally.countDropped]
      omega
    · rw [hnotices]
      exact h.stream
    · rw [hnotices]
      exact h.whole

/-- By induction on the messages, each of which extends the account by its own moment. -/
theorem takeMessages (h : Accounted x ds malformed streamed) (now : Time) (ms : List Message) :
    Accounted (x.takeMessages now ms).1 (ds ++ heard (x.takings now ms)) malformed streamed := by
  induction ms generalizing x ds with
  | nil =>
    rw [show heard (x.takings now []) = [] from rfl, List.append_nil]
    exact h
  | cons m rest ih =>
    have hsplit : heard (x.takings now (m :: rest)) =
        heard [⟨x, now, m⟩] ++ heard ((x.takeMessage now m).1.takings now rest) :=
      heard_append [⟨x, now, m⟩] _
    rw [hsplit, ← List.append_assoc]
    exact ih (h.takeMessage now m)

/-- A datagram adds its messages, and one dropped count if its rest is malformed. -/
theorem takeDatagram (h : Accounted x ds malformed streamed) (now : Time) (data : Bytes) :
    Accounted (x.takeDatagram now data).1
      (ds ++ heard ((x.counting data).takings now (Datagram.messages data).1))
      (malformed + (Datagram.messages data).2.isSome.toNat) streamed := by
  have hcounting : Accounted (x.counting data) ds malformed streamed :=
    ⟨h.notified, h.dropped, h.stream, h.whole⟩
  have hmessages := hcounting.takeMessages now (Datagram.messages data).1
  rw [takeDatagram_messages]
  cases (Datagram.messages data).2 with
  | none => exact hmessages
  | some error =>
    refine ⟨hmessages.notified, ?_, hmessages.stream, hmessages.whole⟩
    have hdropped := hmessages.dropped
    simp only [countingRest, Tally.countDropped, Option.isSome_some, Bool.toNat_true]
    omega

/-- An event keeps the invariant, with the messages that it brings. -/
theorem acts (h : Accounted x ds malformed streamed) (hx : Tidy x) (hr : Acts x e r) :
    Accounted r.1 (ds ++ heard (x.deliveries e)) (malformed + (x.hearsMalformed e).toNat)
      (streamed ++ streamedIn r.2) := by
  -- most events bring no message
  have hquiet (hhears : x.hears e = none)
      (hkept : Accounted r.1 ds malformed (streamed ++ streamedIn r.2)) :
      Accounted r.1 (ds ++ heard (x.deliveries e)) (malformed + (x.hearsMalformed e).toNat)
        (streamed ++ streamedIn r.2) := by
    have hnothing : heard (x.deliveries e) = [] := by
      rw [deliveries, hhears]
      rfl
    have hwhole : x.hearsMalformed e = false := by rw [hearsMalformed, hhears]
    rw [hnothing, hwhole, List.append_nil]
    exact hkept
  cases hr with
  | quiet hq => exact hquiet hq.unheard (h.aside hq.aside)
  | @registers now joined request responder rest hrunning hcommands =>
    have hpopped : Accounted (x.popped rest) ds malformed streamed :=
      ⟨h.notified, h.dropped, h.stream, h.whole⟩
    exact hquiet rfl (hpopped.aside (aside_register _ now request responder))
  | transmits hegress => exact hquiet rfl (h.aside ⟨rfl, rfl, rfl, rfl, rfl⟩)
  | @refuses now error seq datagram rest hegress =>
    have hpopped : Accounted { x with egress := rest } ds malformed streamed :=
      ⟨h.notified, h.dropped, h.stream, h.whole⟩
    exact hquiet rfl (hpopped.aside (aside_complete _ now seq _))
  | @receives now data hrunning =>
    have hhears : x.hears (.receive now (.ok data)) = some (now, data) := by
      simp [hears, hrunning]
    have hsilent : streamedIn (x.takeDatagram now data).2 = [] := by
      rw [takeDatagram_messages]
      exact streamedIn_of_isReply
        (ExchangeOutput.isReply_of_isAnswer (isAnswer_takeMessages _ _ _))
    rw [deliveries, hearsMalformed, hhears, hsilent, List.append_nil]
    exact h.takeDatagram now data
  | loses hrunning herror => exact hquiet rfl (h.aside (aside_shutdown _ _))
  | sweeps hrunning => exact hquiet rfl (h.aside (aside_sweep hx.nodup))
  | rests => exact hquiet rfl (h.aside ⟨rfl, rfl, rfl, rfl, rfl⟩)
  | @reads m rest hnotifications =>
    -- the message that waited longest is now in the hands of the listener
    have hstreamed : streamed ++ streamedIn [.notified m] ++ rest = streamed ++ x.notifications := by
      simp [streamedIn, ExchangeOutput.messages, hnotifications]
    refine hquiet rfl ⟨h.notified, h.dropped, ?_, ?_⟩
    · rw [hstreamed]
      exact h.stream
    · rw [hstreamed]
      exact h.whole
  | closes =>
    refine hquiet rfl ⟨h.notified, h.dropped, ?_, fun hlistening => by cases hlistening⟩
    have hprefix : (streamed ++ streamedIn [] ++ []).Sublist (streamed ++ x.notifications) := by
      simp [streamedIn]
    exact hprefix.trans h.stream

end Accounted

end Exchange

/-! ## Runs -/

/-- The messages that are taken at the moments of a run and not to be skipped. -/
def heardIn (trace : List Moment) : List Delivery :=
  heard (trace.flatMap fun m => m.exchange.deliveries m.event)

/-- The messages of all datagrams of a run, in order, without those to be skipped. -/
def receivedIn (trace : List Moment) : List Message :=
  (trace.flatMap fun m => m.exchange.hearsMessages m.event).filter (·.type != MessageType.noop)

/-- How many datagrams of a run have a malformed rest. -/
def malformedIn (trace : List Moment) : Nat := trace.countP fun m => m.exchange.hearsMalformed m.event

section Logs

variable (trace : List Moment) (m : Moment)

theorem heardIn_concat :
    heardIn (trace ++ [m]) = heardIn trace ++ heard (m.exchange.deliveries m.event) := by
  simp [heardIn, heard_append]

theorem malformedIn_concat :
    malformedIn (trace ++ [m]) = malformedIn trace + (m.exchange.hearsMalformed m.event).toNat := by
  rw [malformedIn, List.countP_append, malformedIn]
  cases h : m.exchange.hearsMalformed m.event <;> simp [h]

/-- Skipping looks at the message alone. -/
theorem map_message_heard (ds : List Delivery) :
    (heard ds).map Delivery.message =
      (ds.map Delivery.message).filter (·.type != MessageType.noop) := by
  rw [heard, List.filter_map]
  rfl

/-- The messages that are taken are those of the datagrams. -/
theorem map_message_heardIn : (heardIn trace).map Delivery.message = receivedIn trace := by
  rw [heardIn, map_message_heard, List.map_flatMap]
  simp only [Exchange.map_message_deliveries]
  rfl

end Logs

namespace Exchange

variable {port : UInt32} {options : ExchangeOptions} {trace : List Moment} {x : Exchange}

/-- By induction on the run: the counters and the stream are what its messages account for. -/
theorem Runs.accounted (h : Runs (start port options) trace x) :
    Accounted x (heardIn trace) (malformedIn trace) (streamedIn (outputsOf trace)) := by
  induction h with
  | init => exact .start port options
  | @next trace x t e h hlisted ih =>
    have hstep := (ih.relist t).acts (h.tidy.relist hlisted) ((x.relist t).acts e)
    rw [heardIn_concat, malformedIn_concat, outputsOf_concat, streamedIn_append]
    exact hstep

/-- Every message is counted under one of the three fates. -/
theorem length_eq_fates (ds : List Delivery) :
    ds.length = (ds.countP fun d => d.fate = .consumed) + (ds.countP fun d => d.fate = .notified) +
      ds.countP fun d => d.fate = .dropped := by
  induction ds with
  | nil => rfl
  | cons d ds ih =>
    simp only [List.length_cons, List.countP_cons]
    cases d.fate <;> simp <;> omega

/-- Every message that is received and not to be skipped meets exactly one fate. So the messages are
as many as were consumed, put on the stream or dropped, where the counter of what was dropped also
counts malformed datagrams; and what the listener was handed and what waits for it are some of the
messages received, in the order in which they came: all that were put on the stream, unless the
listener has gone away. -/
theorem messages_accounted (h : Runs (start port options) trace x) :
    (heardIn trace).map Delivery.message = receivedIn trace ∧
      (∀ d ∈ heardIn trace, ∀ fate, d.Meets fate ↔ fate = d.fate) ∧
      malformedIn trace ≤ x.tally.dropped ∧
      (receivedIn trace).length =
        ((heardIn trace).countP fun d => d.fate = .consumed) + x.tally.notifications +
          (x.tally.dropped - malformedIn trace) ∧
      (streamedIn (outputsOf trace) ++ x.notifications).Sublist (receivedIn trace) ∧
      (x.isListening = true →
        streamedIn (outputsOf trace) ++ x.notifications = noticesIn (heardIn trace)) := by
  have haccounted := h.accounted
  have hdropped := haccounted.dropped
  have hnotices : (noticesIn (heardIn trace)).Sublist (receivedIn trace) := by
    rw [← map_message_heardIn]
    exact List.filter_sublist.map _
  refine ⟨map_message_heardIn trace, ?_, by omega, ?_, haccounted.stream.trans hnotices,
    haccounted.whole⟩
  · intro d hd fate
    have hnoop : d.message.type ≠ MessageType.noop := by
      simpa [Delivery.isNoop] using (List.mem_filter.mp hd).2
    exact Delivery.meets_iff hnoop
  · rw [← map_message_heardIn, List.length_map, length_eq_fates (heardIn trace),
      ← haccounted.notified]
    omega

/-- An exchange whose stream has room for two messages. -/
def cramped : Exchange := start 7 { notificationBuffer := 2 }

/-- The answer to a request, two messages of the kernel's own, and between them one to be skipped. -/
def noisyMessages : List Message :=
  [.doneReply 1 7, .doneReply 0 7, .ofPayload MessageType.noop 0 [], .doneReply 0 8]

/-- Two more messages of the kernel's own. -/
def moreMessages : List Message := [.doneReply 0 9, .doneReply 0 10]

/-- A request, and those messages in two datagrams, the second with octets behind them that are no
message. The listener reads one message between the two. -/
def noisyRun : List ExchangeEvent :=
  [.submit (.send (.ofCommand 28 1 1) (.waiting 1)), .take 0 (.ok ()),
    .receive 5 (.ok (noisyMessages.flatMap fun m => m.header.encode ++ m.payload)),
    .readNotification,
    .receive 6 (.ok ((moreMessages.flatMap fun m => m.header.encode ++ m.payload) ++ [1, 2, 3]))]

/-- One message is consumed and three are put on the stream, the third because the first was read. The
last is dropped besides the malformed rest. -/
theorem messages_accounted_noisyRun :
    Runs cramped (cramped.moments noisyRun) (cramped.after noisyRun) ∧
      (receivedIn (cramped.moments noisyRun)).length = 1 + 3 + (2 - 1) ∧
      streamedIn (outputsOf (cramped.moments noisyRun)) ++ (cramped.after noisyRun).notifications =
        [.doneReply 0 7, .doneReply 0 8, .doneReply 0 9] := by
  have hruns := runs_moments cramped noisyRun
  have hconsumed : (heardIn (cramped.moments noisyRun)).countP (fun d => d.fate = .consumed) = 1 := by
    decide +kernel
  have hmalformed : malformedIn (cramped.moments noisyRun) = 1 := by decide +kernel
  have hnotified : (cramped.after noisyRun).tally.notifications = 3 := by decide +kernel
  have hdropped : (cramped.after noisyRun).tally.dropped = 2 := by decide +kernel
  have hnotices : noticesIn (heardIn (cramped.moments noisyRun)) =
      [.doneReply 0 7, .doneReply 0 8, .doneReply 0 9] := by
    decide +kernel
  have hlistening : (cramped.after noisyRun).isListening = true := by decide +kernel
  have haccounted := messages_accounted hruns
  have hcount := haccounted.2.2.2.1
  rw [hconsumed, hmalformed, hnotified, hdropped] at hcount
  have hstream := haccounted.2.2.2.2.2 hlistening
  rw [hnotices] at hstream
  exact ⟨hruns, hcount, hstream⟩

end Exchange

end Vswitch
