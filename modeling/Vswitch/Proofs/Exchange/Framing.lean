import Mathlib
import Vswitch.Proofs.Exchange.Trace
import Vswitch.Proofs.Netlink.Datagram

/-!
# Messages and their datagrams

How messages are spread over datagrams makes no difference to an exchange. It takes them one after
another, and what it does with one does not depend on its counters, so that the octets of a datagram
may as well be counted between its messages.

* `Exchange.Alike`: two exchanges that differ in their counters only;
* `Exchange.Lasting`: relations between counters that outlast a datagram;
* `Exchange.Alike.takeDatagram`: exchanges that are alike do the same with a datagram;
* `Exchange.takeDatagram_append`: written messages may be handed over ahead of what follows them;
* `Exchange.framing_indifferent`: the same for runs, and what a malformed rest does.
-/

namespace Vswitch

namespace Exchange

theorem takeMessages_cons (x : Exchange) (now : Time) (m : Message) (rest : List Message) :
    x.takeMessages now (m :: rest) =
      (((x.takeMessage now m).1.takeMessages now rest).1,
        (x.takeMessage now m).2 ++ ((x.takeMessage now m).1.takeMessages now rest).2) := rfl

/-! ## Exchanges that differ in their counters -/

/-- A relation between the counters of two exchanges that lasts while both take the same datagram, the
one at `now` and the other at `now'`. -/
structure Lasting (R : Tally → Tally → Prop) (now now' : Time) : Prop where
  received {t t' : Tally} (h : R t t') (octets : Nat) :
    R (t.countReceived octets) (t'.countReceived octets)
  notification {t t' : Tally} (h : R t t') : R t.countNotification t'.countNotification
  dropped {t t' : Tally} (h : R t t') : R t.countDropped t'.countDropped
  response {t t' : Tally} (h : R t t') (registered : Time) :
    R (t.countResponse (now - registered)) (t'.countResponse (now' - registered))

/-- The second exchange is the first but for its counters, which are related to those of the first. -/
def Alike (R : Tally → Tally → Prop) (x y : Exchange) : Prop :=
  ∃ t, R x.tally t ∧ y = { x with tally := t }

/-- The same is done to exchanges that are alike, and they are alike afterwards. -/
structure Agree (R : Tally → Tally → Prop) (r r' : Exchange × List ExchangeOutput) : Prop where
  alike : Alike R r.1 r'.1
  outputs : r'.2 = r.2

namespace Alike

variable {R : Tally → Tally → Prop} {x y : Exchange} {now now' : Time}

/-- The same request is answered, and both count a response. -/
theorem complete (hR : Lasting R now now') (h : Alike R x y) (seq : UInt32)
    (result : Except ExchangeError Unit) :
    Agree R (x.complete now seq result) (y.complete now' seq result) := by
  obtain ⟨t, ht, rfl⟩ := h
  rcases hp : PendingTable.find? x.pending seq with _ | p
  · rw [complete_of_none hp, complete_of_none (x := { x with tally := t }) hp]
    exact ⟨⟨t, ht, rfl⟩, rfl⟩
  · rw [complete_of_find? hp, complete_of_find? (x := { x with tally := t }) hp]
    exact ⟨⟨_, hR.response ht p.registered, rfl⟩, rfl⟩

/-- A message for no request is buffered or dropped by both. -/
theorem takeUnsolicited (hR : Lasting R now now') (h : Alike R x y) (m : Message) :
    Alike R (x.takeUnsolicited m) (y.takeUnsolicited m) := by
  obtain ⟨t, ht, rfl⟩ := h
  unfold Exchange.takeUnsolicited
  dsimp only
  split_ifs
  · exact ⟨_, hR.dropped ht, rfl⟩
  · exact ⟨_, hR.notification ht, rfl⟩
  · exact ⟨_, hR.dropped ht, rfl⟩

/-- A part goes to the same request. -/
theorem extend (h : Alike R x y) (m : Message) : Alike R (x.extend m) (y.extend m) := by
  obtain ⟨t, ht, rfl⟩ := h
  exact ⟨t, ht, rfl⟩

/-- Neither the table nor the judgement of a message depends on the counters. -/
theorem takeMessage (hR : Lasting R now now') (h : Alike R x y) (m : Message) :
    Agree R (x.takeMessage now m) (y.takeMessage now' m) := by
  by_cases hnoop : m.type = MessageType.noop
  · rw [takeMessage_noop hnoop, takeMessage_noop hnoop]
    exact ⟨h, rfl⟩
  have hpending : y.pending = x.pending := by
    obtain ⟨t, -, rfl⟩ := h
    rfl
  rcases hp : PendingTable.find? x.pending m.seq with _ | p
  · rw [takeMessage_unsolicited hnoop hp, takeMessage_unsolicited hnoop (hpending ▸ hp)]
    exact ⟨h.takeUnsolicited hR m, rfl⟩
  · rw [takeMessage_pending hnoop hp, takeMessage_pending hnoop (hpending ▸ hp)]
    cases Verdict.ofMessage p.expectsAck m with
    | part => exact ⟨h.extend m, rfl⟩
    | lastPart => exact (h.extend m).complete hR m.seq _
    | final result => exact h.complete hR m.seq result

/-- By induction on the messages, after each of which the two are alike. -/
theorem takeMessages (hR : Lasting R now now') (h : Alike R x y) (ms : List Message) :
    Agree R (x.takeMessages now ms) (y.takeMessages now' ms) := by
  induction ms generalizing x y with
  | nil => exact ⟨h, rfl⟩
  | cons m rest ih =>
    have hfirst := h.takeMessage hR m
    have hlater := ih hfirst.alike
    refine ⟨hlater.alike, ?_⟩
    rw [takeMessages_cons, takeMessages_cons, hfirst.outputs, hlater.outputs]

theorem counting (hR : Lasting R now now') (h : Alike R x y) (data : Bytes) :
    Alike R (x.counting data) (y.counting data) := by
  obtain ⟨t, ht, rfl⟩ := h
  exact ⟨_, hR.received ht data.length, rfl⟩

theorem countingRest (hR : Lasting R now now') (h : Alike R x y) (error : Option MessageError) :
    Alike R (x.countingRest error) (y.countingRest error) := by
  obtain ⟨t, ht, rfl⟩ := h
  cases error with
  | none => exact ⟨t, ht, rfl⟩
  | some error => exact ⟨_, hR.dropped ht, rfl⟩

/-- A datagram does the same to both, its octets counted by both. -/
theorem takeDatagram (hR : Lasting R now now') (h : Alike R x y) (data : Bytes) :
    Agree R (x.takeDatagram now data) (y.takeDatagram now' data) := by
  have hmessages := (h.counting hR data).takeMessages hR (Datagram.messages data).1
  rw [takeDatagram_messages, takeDatagram_messages]
  exact ⟨hmessages.alike.countingRest hR _, hmessages.outputs⟩

end Alike

/-- Octets may be counted before or after anything else. -/
theorem lasting_countReceived (octets : Nat) (now : Time) :
    Lasting (fun t t' => t' = t.countReceived octets) now now where
  received := by
    rintro t _ rfl more
    simp only [Tally.countReceived, Nat.add_right_comm]
  notification := by
    rintro t _ rfl
    rfl
  dropped := by
    rintro t _ rfl
    rfl
  response := by
    rintro t _ rfl registered
    rfl

/-- The counters are the same but for the average round-trip time. -/
def SameCounts (t t' : Tally) : Prop := ∃ average, t' = { t with roundTrip := average }

/-- The time of a datagram is seen in the average round-trip time alone. -/
theorem lasting_sameCounts (now now' : Time) : Lasting SameCounts now now' where
  received := by
    rintro t _ ⟨average, rfl⟩ octets
    exact ⟨average, rfl⟩
  notification := by
    rintro t _ ⟨average, rfl⟩
    exact ⟨average, rfl⟩
  dropped := by
    rintro t _ ⟨average, rfl⟩
    exact ⟨average, rfl⟩
  response := by
    rintro t _ ⟨average, rfl⟩ registered
    exact ⟨_, rfl⟩

/-! ## Messages in one datagram and in two -/

section Framing

variable {x : Exchange} {now : Time} {ms : List Message} {data : Bytes}

/-- Messages are taken one after another, wherever the list is cut. -/
theorem takeMessages_append (x : Exchange) (now : Time) (ms later : List Message) :
    x.takeMessages now (ms ++ later) =
      (((x.takeMessages now ms).1.takeMessages now later).1,
        (x.takeMessages now ms).2 ++ ((x.takeMessages now ms).1.takeMessages now later).2) := by
  induction ms generalizing x with
  | nil => rfl
  | cons m rest ih =>
    rw [List.cons_append, takeMessages_cons, takeMessages_cons, ih, List.append_assoc]

/-- Octets are counted the same in one datagram or in two. -/
theorem counting_append (x : Exchange) (data rest : Bytes) :
    x.counting (data ++ rest) = (x.counting data).counting rest := by
  simp only [counting, Tally.countReceived, List.length_append, Nat.add_assoc]

/-- Octets that are counted ahead of messages may be counted after them. -/
theorem takeMessages_counting (x : Exchange) (now : Time) (ms : List Message) (rest : Bytes) :
    (x.counting rest).takeMessages now ms =
      ((x.takeMessages now ms).1.counting rest, (x.takeMessages now ms).2) := by
  have hcounted : Alike (fun t t' => t' = t.countReceived rest.length) x (x.counting rest) :=
    ⟨_, rfl, rfl⟩
  obtain ⟨⟨t, rfl, hexchange⟩, houtputs⟩ :=
    hcounted.takeMessages (lasting_countReceived rest.length now) ms
  exact Prod.ext hexchange houtputs

/-- Written messages may be handed over in a datagram of their own, ahead of what follows them. -/
theorem takeDatagram_append (hdata : Datagram.encodeAll ms = .ok data) (x : Exchange) (now : Time)
    (rest : Bytes) :
    x.takeDatagram now (data ++ rest) =
      (((x.takeDatagram now data).1.takeDatagram now rest).1,
        (x.takeDatagram now data).2 ++ ((x.takeDatagram now data).1.takeDatagram now rest).2) := by
  have halone : Datagram.messages data = (ms.map Message.stamped, none) := by
    have hread := Datagram.messages_of_encodeAll hdata []
    rwa [Datagram.messages_nil, List.append_nil, List.append_nil] at hread
  simp only [takeDatagram_messages, Datagram.messages_of_encodeAll hdata rest, halone,
    takeMessages_append, counting_append, takeMessages_counting, countingRest]

/-- A rest that is malformed from its first message on is counted, and nothing else. -/
theorem takeDatagram_malformed {error : MessageError} (h : Datagram.next data = .malformed error)
    (x : Exchange) (now : Time) :
    x.takeDatagram now data = ((x.counting data).countingRest (some error), []) := by
  rw [takeDatagram_messages, Datagram.messages_of_malformed h]
  rfl

/-! ## Runs that receive datagrams -/

theorem step_receive_running (hrunning : x.isRunning = true) (now : Time) (data : Bytes) :
    x.step (.receive now (.ok data)) = x.takeDatagram now data := by
  rw [step, if_pos hrunning, receive]

theorem step_receive_stopped (hrunning : x.isRunning = false) (now : Time) (data : Bytes) :
    x.step (.receive now (.ok data)) = (x, []) := by
  rw [step, if_neg (by simp [hrunning])]

theorem run_receive (hrunning : x.isRunning = true) (now : Time) (data : Bytes) :
    x.run [.receive now (.ok data)] = x.takeDatagram now data := by
  rw [run, step_receive_running hrunning]
  exact Prod.ext rfl (List.append_nil _)

/-- Two datagrams are taken one after the other, since neither ends the exchange. -/
theorem run_receive_twice (hrunning : x.isRunning = true) (first second : Time) (data rest : Bytes) :
    x.run [.receive first (.ok data), .receive second (.ok rest)] =
      (((x.takeDatagram first data).1.takeDatagram second rest).1,
        (x.takeDatagram first data).2 ++ ((x.takeDatagram first data).1.takeDatagram second rest).2) := by
  have hstill : (x.takeDatagram first data).1.isRunning = true :=
    (onTable_takeDatagram x first data).isRunning.trans hrunning
  rw [run, step_receive_running hrunning]
  simp only [run_receive hstill]

/-- It makes no difference whether written messages come in one datagram with what follows them or in a
datagram of their own: the exchange becomes and does the same. Handed over at other times, they differ
in the average round-trip time alone. If what follows is malformed from its first message on, it costs
one more drop and its octets, and has no other effect. -/
theorem framing_indifferent (hdata : Datagram.encodeAll ms = .ok data) (x : Exchange) (now : Time)
    (rest : Bytes) :
    x.run [.receive now (.ok (data ++ rest))] =
        x.run [.receive now (.ok data), .receive now (.ok rest)] ∧
      (∀ first second,
        (∃ average, x.after [.receive first (.ok data), .receive second (.ok rest)] =
          { x.after [.receive now (.ok (data ++ rest))] with tally.roundTrip := average }) ∧
        x.outputs [.receive first (.ok data), .receive second (.ok rest)] =
          x.outputs [.receive now (.ok (data ++ rest))]) ∧
      ∀ error, Datagram.next rest = .malformed error → x.isRunning = true →
        x.after [.receive now (.ok (data ++ rest))] =
            { x.after [.receive now (.ok data)] with
              tally.dropped := (x.after [.receive now (.ok data)]).tally.dropped + 1
              tally.received := (x.after [.receive now (.ok data)]).tally.received + rest.length } ∧
          x.outputs [.receive now (.ok (data ++ rest))] =
            x.outputs [.receive now (.ok data)] := by
  rcases hrunning : x.isRunning with _ | _
  · -- an exchange that has ended receives nothing
    simp only [after, outputs, run, step_receive_stopped hrunning, List.append_nil]
    exact ⟨trivial, fun _ _ => ⟨⟨x.tally.roundTrip, rfl⟩, trivial⟩, by simp⟩
  · simp only [after, outputs, run_receive hrunning, run_receive_twice hrunning,
      takeDatagram_append hdata]
    refine ⟨trivial, ?_, ?_⟩
    · intro first second
      have hsame : Alike SameCounts x x := ⟨x.tally, ⟨x.tally.roundTrip, rfl⟩, rfl⟩
      have hfirst := hsame.takeDatagram (lasting_sameCounts now first) data
      have hsecond := hfirst.alike.takeDatagram (lasting_sameCounts now second) rest
      obtain ⟨_, ⟨average, rfl⟩, hexchange⟩ := hsecond.alike
      exact ⟨⟨average, hexchange⟩, by rw [hfirst.outputs, hsecond.outputs]⟩
    · intro error hmalformed _
      rw [takeDatagram_malformed hmalformed]
      exact ⟨rfl, List.append_nil _⟩

/-- Two requests that wait for replies of several parts. -/
def twoDumps : Exchange :=
  (start 7 {}).after
    [.submit (.send (Request.ofCommand 28 1 1).dump (.waiting 1)),
      .submit (.send (Request.ofCommand 28 1 1).dump (.waiting 2)), .take 0 (.ok ()), .take 0 (.ok ())]

/-- A part of the second reply, the end of the first one, and a message of the kernel's own. -/
def interleaved : List Message :=
  [((Message.generic 28 Flag.multi ⟨1, 1⟩ [0xff]).withSeq 2).withPort 7, .doneReply 1 7,
    .doneReply 0 7]

/-- These messages as one datagram. -/
def interleavedDatagram : Bytes := interleaved.flatMap Message.octets

/-- The first request is answered halfway through, the second one by what follows, and three octets
that are no message answer neither. -/
theorem framing_indifferent_twoDumps :
    Datagram.encodeAll interleaved = .ok interleavedDatagram ∧
      (twoDumps.outputs [.receive 1 (.ok interleavedDatagram)]).length = 1 ∧
      (twoDumps.outputs [.receive 1 (.ok interleavedDatagram),
        .receive 2 (.ok (Message.doneReply 2 7).octets)]).length = 2 ∧
      twoDumps.run [.receive 1 (.ok (interleavedDatagram ++ (Message.doneReply 2 7).octets))] =
        twoDumps.run [.receive 1 (.ok interleavedDatagram),
          .receive 1 (.ok (Message.doneReply 2 7).octets)] ∧
      (twoDumps.after [.receive 1 (.ok (interleavedDatagram ++ [1, 2, 3]))]).tally.dropped = 1 ∧
      (twoDumps.outputs [.receive 1 (.ok (interleavedDatagram ++ [1, 2, 3]))]).length = 1 := by
  have hwritten : Datagram.encodeAll interleaved = .ok interleavedDatagram :=
    Datagram.encodeAll_of_lt (by decide)
  have hone : (twoDumps.outputs [.receive 1 (.ok interleavedDatagram)]).length = 1 := by
    decide +kernel
  have htwo : (twoDumps.outputs [.receive 1
      (.ok (interleavedDatagram ++ (Message.doneReply 2 7).octets))]).length = 2 := by
    decide +kernel
  have hnone : (twoDumps.after [.receive 1 (.ok interleavedDatagram)]).tally.dropped = 0 := by
    decide +kernel
  have hthen := framing_indifferent hwritten twoDumps 1 (Message.doneReply 2 7).octets
  have hjunk := (framing_indifferent hwritten twoDumps 1 [1, 2, 3]).2.2
    (.truncated .netlinkHeader Header.size 3) (by decide) (by decide +kernel)
  refine ⟨hwritten, hone, ?_, hthen.1, ?_, ?_⟩
  · rw [(hthen.2.1 1 2).2, htwo]
  · rw [hjunk.1, hnone]
  · rw [hjunk.2, hone]

end Framing

end Exchange

end Vswitch
