import Mathlib
import Vswitch.Proofs.Exchange.Awaiting
import Vswitch.Proofs.Exchange.Cause

/-!
# Requests that the kernel refuses

A caller is told an error of the kernel at the moment at which a datagram holds the message that ends
the reply of its request, and that message carries the error. Of the messages with its number it is the
first that ends a reply; what the others say makes no difference, nor does any other event.

* `Exchange.waiting?`: who waits for a reply, seen from the number of the request;
* `Exchange.takeMessage_effect`: a message leaves everybody waiting, or ends one reply;
* `Exchange.Ends`: the message of a datagram that ends the reply of a caller;
* `Exchange.mem_answersTo_takeMessages`, `Exchange.refused_step_iff`, `Exchange.Runs.refused_iff`: when
  a caller is told an error of the kernel, in several messages, in one event and in a run.
-/

namespace Vswitch

namespace Exchange

variable {x : Exchange} {now : Time} {seq : UInt32} {ticket : Nat} {ack : Bool} {m : Message}
  {p : Pending} {error : ExchangeError}

/-! ## Who waits -/

/-- The caller that waits for the reply with a number, and whether it waits for an acknowledgement. -/
def waiting? (x : Exchange) (seq : UInt32) : Option (Nat × Bool) :=
  (PendingTable.find? x.pending seq).map fun p => (p.responder.ticket, p.expectsAck)

theorem waiting?_of_find? (hp : PendingTable.find? x.pending seq = some p) :
    x.waiting? seq = some (p.responder.ticket, p.expectsAck) := by
  rw [waiting?, hp]
  rfl

theorem waiting?_extend (hp : PendingTable.find? x.pending m.seq = some p) :
    (x.extend m).waiting? = x.waiting? := by
  funext s
  by_cases hs : s = m.seq
  · subst hs
    rw [waiting?_of_find? hp, waiting?_of_find? (find?_extend_self hp)]
    rfl
  · rw [waiting?, waiting?, find?_extend_of_ne hs]

/-- When a request is answered, its caller waits no more. -/
theorem waiting?_complete (x : Exchange) (now : Time) (seq : UInt32)
    (result : Except ExchangeError Unit) (s : UInt32) :
    (x.complete now seq result).1.waiting? s = if s = seq then none else x.waiting? s := by
  by_cases hs : s = seq
  · subst hs
    rw [if_pos rfl, waiting?]
    rcases hp : PendingTable.find? x.pending s with _ | p
    · rw [complete_of_none hp, hp]
      rfl
    · rw [complete_of_find? hp, PendingTable.find?_erase_self]
      rfl
  · rw [if_neg hs, waiting?, waiting?, find?_complete_of_ne x now result hs]

/-! ## One message -/

/-- A message ends nothing and answers nobody, or it ends the reply of its request, whose caller is told
the outcome. -/
theorem takeMessage_effect (x : Exchange) (now : Time) (m : Message) :
    ((∀ ticket ack, x.waiting? m.seq = some (ticket, ack) → m.endsReply ack = false) ∧
      (x.takeMessage now m).2 = [] ∧ (x.takeMessage now m).1.waiting? = x.waiting?) ∨
    ∃ p parts, PendingTable.find? x.pending m.seq = some p ∧ m.endsReply p.expectsAck = true ∧
      (x.takeMessage now m).2 = [.answer p.responder (m.outcome.map fun _ => parts)] ∧
      ∀ s, (x.takeMessage now m).1.waiting? s = if s = m.seq then none else x.waiting? s := by
  by_cases hnoop : m.type = MessageType.noop
  · rw [takeMessage_noop hnoop]
    exact .inl ⟨fun _ _ _ => endsReply_noop hnoop, rfl, rfl⟩
  rcases hp : PendingTable.find? x.pending m.seq with _ | p
  · left
    rw [takeMessage_unsolicited hnoop hp]
    refine ⟨?_, rfl, ?_⟩
    · intro ticket ack hwaiting
      rw [waiting?, hp] at hwaiting
      cases hwaiting
    · have hpending : (x.takeUnsolicited m).pending = x.pending := by
        unfold takeUnsolicited
        split_ifs <;> rfl
      funext s
      rw [waiting?, waiting?, hpending]
  rw [takeMessage_pending hnoop hp]
  -- a message for a request is a part of its reply, perhaps the last one, or else ends it
  rcases isData_or_ends p.expectsAck hnoop with hdata | ⟨-, hends, hverdict⟩
  · rw [ofMessage_data hdata]
    cases hlast : m.endsReply p.expectsAck with
    | false =>
      refine .inl ⟨?_, rfl, waiting?_extend hp⟩
      intro ticket ack hwaiting
      cases (waiting?_of_find? hp).symm.trans hwaiting
      exact hlast
    | true =>
      refine .inr ⟨p, (p.addPart m).parts, rfl, hlast, ?_, ?_⟩
      · rw [outcome_of_isData hdata]
        simp only [if_true, complete_of_find? (find?_extend_self hp)]
        rfl
      · intro s
        rw [← waiting?_extend hp]
        exact waiting?_complete (x.extend m) now m.seq _ s
  · refine .inr ⟨p, p.parts, rfl, hends, ?_, ?_⟩
    · rw [hverdict]
      simp only [complete_of_find? hp]
    · intro s
      rw [hverdict]
      exact waiting?_complete x now m.seq _ s

/-! ## Several messages -/

/-- Among several messages, `last` is the first one that ends the reply for which a caller waits. -/
def Ends (x : Exchange) (ms : List Message) (ticket : Nat) (last : Message) : Prop :=
  ∃ seq ack, x.waiting? seq = some (ticket, ack) ∧
    ms.find? (fun m => m.seq == seq && m.endsReply ack) = some last

theorem not_ends_nil (x : Exchange) (ticket : Nat) (last : Message) : ¬ x.Ends [] ticket last := by
  rintro ⟨seq, ack, -, hfind⟩
  cases hfind

/-- A message that ends nothing changes nothing about which message does. -/
theorem ends_cons_of_open {y : Exchange} {ms : List Message}
    (hopen : ∀ ticket ack, x.waiting? m.seq = some (ticket, ack) → m.endsReply ack = false)
    (hsame : y.waiting? = x.waiting?) (last : Message) :
    x.Ends (m :: ms) ticket last ↔ y.Ends ms ticket last := by
  unfold Ends
  rw [hsame]
  refine exists_congr fun seq => exists_congr fun ack => and_congr_right fun hwaiting => ?_
  have hnot : (m.seq == seq && m.endsReply ack) = false := by
    by_cases hseq : m.seq = seq
    · subst hseq
      rw [hopen ticket ack hwaiting, Bool.and_false]
    · rw [beq_eq_false_iff_ne.mpr hseq, Bool.false_and]
  rw [List.find?_cons, hnot]

/-- A message that ends the reply of its own request is the one that ends it, and ends no other. -/
theorem ends_cons_of_ended {y : Exchange} {ms : List Message}
    (hp : PendingTable.find? x.pending m.seq = some p) (hends : m.endsReply p.expectsAck = true)
    (hgone : ∀ s, y.waiting? s = if s = m.seq then none else x.waiting? s) (last : Message) :
    x.Ends (m :: ms) ticket last ↔
      p.responder.ticket = ticket ∧ last = m ∨ y.Ends ms ticket last := by
  have hown : (m.seq == m.seq && m.endsReply p.expectsAck) = true := by
    rw [hends, beq_self_eq_true, Bool.and_true]
  -- for other numbers the first message is passed over
  have hother {s : UInt32} (ack : Bool) (hs : s ≠ m.seq) :
      (m :: ms).find? (fun m => m.seq == s && m.endsReply ack) =
        ms.find? fun m => m.seq == s && m.endsReply ack := by
    rw [List.find?_cons, beq_eq_false_iff_ne.mpr hs.symm, Bool.false_and]
  constructor
  · rintro ⟨s, ack, hwaiting, hfind⟩
    by_cases hs : s = m.seq
    · subst hs
      cases (waiting?_of_find? hp).symm.trans hwaiting
      rw [List.find?_cons, hown] at hfind
      exact .inl ⟨rfl, (Option.some.inj hfind).symm⟩
    · rw [hother ack hs] at hfind
      exact .inr ⟨s, ack, by rw [hgone, if_neg hs, hwaiting], hfind⟩
  · rintro (⟨rfl, rfl⟩ | ⟨s, ack, hwaiting, hfind⟩)
    · refine ⟨last.seq, p.expectsAck, waiting?_of_find? hp, ?_⟩
      rw [List.find?_cons, hown]
    · by_cases hs : s = m.seq
      · rw [hgone, if_pos hs] at hwaiting
        cases hwaiting
      · rw [hgone, if_neg hs] at hwaiting
        exact ⟨s, ack, hwaiting, (hother ack hs).trans hfind⟩

/-- Messages tell a caller an error exactly if the one that ends its reply has it for its outcome. -/
theorem mem_answersTo_takeMessages (ms : List Message) :
    .error error ∈ answersTo ticket (x.takeMessages now ms).2 ↔
      ∃ last, x.Ends ms ticket last ∧ last.outcome = .error error := by
  induction ms generalizing x with
  | nil =>
    constructor
    · intro h
      cases h
    · rintro ⟨last, hends, -⟩
      exact absurd hends (not_ends_nil x ticket last)
  | cons m rest ih =>
    have hsplit : answersTo ticket (x.takeMessages now (m :: rest)).2 =
        answersTo ticket (x.takeMessage now m).2 ++
          answersTo ticket ((x.takeMessage now m).1.takeMessages now rest).2 := answersTo_append _ _ _
    rw [hsplit, List.mem_append, ih]
    -- the first message either leaves the reply open or is the one that ends it
    rcases x.takeMessage_effect now m with ⟨hopen, hquiet, hsame⟩ | ⟨p, parts, hp, hends, houts, hgone⟩
    · rw [hquiet]
      simp only [ends_cons_of_open hopen hsame]
      exact or_iff_right (List.not_mem_nil)
    · have hfirst : .error error ∈ answersTo ticket (x.takeMessage now m).2 ↔
          p.responder.ticket = ticket ∧ m.outcome = .error error := by
        rw [houts, mem_answersTo]
        simp only [List.mem_singleton, ExchangeOutput.answer.injEq]
        cases m.outcome with
        | error reason =>
          constructor
          · rintro ⟨responder, ⟨rfl, hreason⟩, hticket⟩
            exact ⟨hticket, by cases hreason; rfl⟩
          · rintro ⟨hticket, hreason⟩
            exact ⟨p.responder, ⟨rfl, by cases hreason; rfl⟩, hticket⟩
        | ok _ =>
          constructor
          · rintro ⟨responder, ⟨-, hreason⟩, -⟩
            cases hreason
          · rintro ⟨-, hreason⟩
            cases hreason
      rw [hfirst]
      simp only [ends_cons_of_ended hp hends hgone]
      constructor
      · rintro (⟨hticket, houtcome⟩ | ⟨last, hlast, houtcome⟩)
        · exact ⟨m, .inl ⟨hticket, rfl⟩, houtcome⟩
        · exact ⟨last, .inr hlast, houtcome⟩
      · rintro ⟨last, ⟨hticket, rfl⟩ | hlast, houtcome⟩
        · exact .inl ⟨hticket, houtcome⟩
        · exact .inr ⟨last, hlast, houtcome⟩

/-! ## Events and runs -/

/-- An event tells a caller an error of the kernel exactly if it hands over the message that ends the
reply, and that message carries the error. -/
theorem refused_step_iff (hx : Tidy x) (e : ExchangeEvent) (errno : Errno) :
    .error (.protocol errno) ∈ answersTo ticket (x.step e).2 ↔
      ∃ last, x.Ends e.messages ticket last ∧ last.outcome = .error (.protocol errno) := by
  have hreceive (now : Time) (data : Bytes) :
      .error (.protocol errno) ∈ answersTo ticket (x.step (.receive now (.ok data))).2 ↔
        ∃ last, x.Ends (Datagram.messages data).1 ticket last ∧
          last.outcome = .error (.protocol errno) := by
    rcases hrunning : x.isRunning with _ | _
    · -- nobody waits for an exchange that has ended
      have hnobody (s : UInt32) : x.waiting? s = none := by
        rw [waiting?, hx.ended hrunning]
        rfl
      simp [step, hrunning, Ends, hnobody, answersTo]
    · have hcounting : (x.counting data).waiting? = x.waiting? := rfl
      simp only [step, hrunning, if_true, receive, takeDatagram_messages,
        mem_answersTo_takeMessages, Ends, hcounting]
  constructor
  · intro h
    rcases mem_answersTo.mp h with ⟨responder, hanswer, -⟩
    cases (x.acts e).cause hx.nodup hanswer with
    | @reported now data => exact (hreceive now data).mp h
  · rintro ⟨last, hends, houtcome⟩
    have hnot := not_ends_nil x ticket last
    cases e with
    | receive now result =>
      cases result with
      | ok data => exact (hreceive now data).mpr ⟨last, hends, houtcome⟩
      | error error => exact absurd hends hnot
    | _ => exact absurd hends hnot

/-- What a caller is told in a run, it is told at one of its moments. -/
theorem mem_answersTo_outputsOf {response : Response} {trace : List Moment} :
    response ∈ answersTo ticket (outputsOf trace) ↔
      ∃ m ∈ trace, response ∈ answersTo ticket (m.exchange.step m.event).2 := by
  simp only [mem_answersTo, outputsOf, List.mem_flatMap]
  constructor
  · rintro ⟨responder, ⟨m, hm, hanswer⟩, hticket⟩
    exact ⟨m, hm, responder, hanswer, hticket⟩
  · rintro ⟨m, hm, responder, hanswer, hticket⟩
    exact ⟨responder, ⟨m, hm, hanswer⟩, hticket⟩

/-- At some moment of a run, `last` ends the reply for which a caller waits. -/
def EndsIn (trace : List Moment) (ticket : Nat) (last : Message) : Prop :=
  ∃ m ∈ trace, m.exchange.Ends m.event.messages ticket last

/-- A caller is told an error of the kernel in a run exactly if the message that ends its reply carries
it. -/
theorem Runs.refused_iff {x₀ : Exchange} {trace : List Moment} (h₀ : Tidy x₀)
    (h : Runs x₀ trace x) (errno : Errno) :
    .error (.protocol errno) ∈ answersTo ticket (outputsOf trace) ↔
      ∃ last, EndsIn trace ticket last ∧ last.outcome = .error (.protocol errno) := by
  rw [mem_answersTo_outputsOf]
  constructor
  · rintro ⟨m, hm, hanswer⟩
    rcases (refused_step_iff (h₀.moment h hm) m.event errno).mp hanswer with ⟨last, hends, houtcome⟩
    exact ⟨last, ⟨m, hm, hends⟩, houtcome⟩
  · rintro ⟨last, ⟨m, hm, hends⟩, houtcome⟩
    exact ⟨m, hm, (refused_step_iff (h₀.moment h hm) m.event errno).mpr ⟨last, hends, houtcome⟩⟩

end Exchange

end Vswitch
