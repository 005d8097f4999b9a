import Mathlib
import Vswitch.Proofs.Exchange.Resolution

/-!
# Replies reach the request that they answer

Many replies, each in parts, arrive in any interleaving. The answer of a request is a function of
the messages with its own sequence number that arrived since it was registered, and of whether it
expects an acknowledgement.

* `replyOf`: what the messages of one sequence number make up, without reference to the exchange;
* `Exchange.Tracks`: the invariant: a pending request holds the data of the messages so far, none of
  which ends its reply;
* `Exchange.answer_iff_replyOf`: when a datagram answers a request, and with what.
-/

namespace Vswitch

/-! ## Replies -/

namespace Message

/-- Whether the message is data: it is not to be skipped, and none of the three reports on
a reply. -/
def isData (m : Message) : Bool :=
  m.type != MessageType.noop && m.type != MessageType.error && m.type != MessageType.done &&
    m.type != MessageType.overrun

/-- Whether the message ends a reply: a report, or data that is not one part of several, unless the
request waits for its acknowledgement. -/
def endsReply (expectsAck : Bool) (m : Message) : Bool :=
  m.type == MessageType.error || m.type == MessageType.done || m.type == MessageType.overrun ||
    (m.isData && !m.isMulti && !expectsAck)

/-- The code at the front of a report. -/
def code (m : Message) : Int32 := (m.payload.le32At 0).toInt32

/-- How a reply ends with a message. -/
def outcome (m : Message) : Except ExchangeError Unit :=
  if m.type = MessageType.error then
    if m.payload.length < 4 then .error (.wire (.truncated .errorMessage 4 m.payload.length))
    else if m.code = 0 then .ok ()
    else .error (.protocol (Errno.ofCode m.code))
  else if m.type = MessageType.done then
    if m.payload.length < 4 ∨ 0 ≤ m.code then .ok ()
    else .error (.protocol (Errno.ofCode m.code))
  else if m.type = MessageType.overrun then .error .overrun
  else .ok ()

end Message

/-- The reply that messages of one sequence number make up: it ends with the first message that ends
a reply, and holds the data up to there. -/
def replyOf (expectsAck : Bool) (ms : List Message) : Option Response :=
  (ms.find? (Message.endsReply expectsAck)).map fun last =>
    last.outcome.map fun _ =>
      (ms.takeWhile (fun m => !m.endsReply expectsAck) ++ [last]).filter Message.isData

section Reply

variable {ack : Bool} {ms : List Message} {m : Message}

/-- There is no reply as long as no message ends one. -/
theorem replyOf_eq_none : replyOf ack ms = none ↔ ∀ m ∈ ms, m.endsReply ack = false := by
  simp [replyOf]

/-- The message after an unfinished reply finishes it, if it ends one. -/
theorem replyOf_concat (h : ∀ m ∈ ms, m.endsReply ack = false) (hm : m.endsReply ack = true) :
    replyOf ack (ms ++ [m]) =
      some (m.outcome.map fun _ => (ms ++ [m]).filter Message.isData) := by
  have hfind : ms.find? (Message.endsReply ack) = none := by
    simpa using h
  have hall : ∀ a ∈ ms, (fun m : Message => !m.endsReply ack) a = true := by
    intro a ha
    simp [h a ha]
  have htake : (ms ++ [m]).takeWhile (fun m => !m.endsReply ack) = ms := by
    rw [List.takeWhile_append_of_pos hall]
    simp [hm]
  rw [replyOf, List.find?_append, hfind, htake]
  simp [hm]

/-- Messages after a finished reply do not change it. -/
theorem replyOf_append {response : Response} (h : replyOf ack ms = some response)
    (more : List Message) : replyOf ack (ms ++ more) = some response := by
  rcases hfind : ms.find? (Message.endsReply ack) with _ | last
  · simp [replyOf, hfind] at h
  have htake : (ms ++ more).takeWhile (fun m => !m.endsReply ack) =
      ms.takeWhile fun m => !m.endsReply ack := by
    rw [List.takeWhile_append, if_neg]
    intro hlength
    have hends : last.endsReply ack = true := List.find?_some hfind
    have hself : ms.takeWhile (fun m => !m.endsReply ack) = ms :=
      (List.takeWhile_prefix _).eq_of_length hlength
    have hnot := List.takeWhile_eq_self_iff.mp hself last (List.mem_of_find?_eq_some hfind)
    rw [hends] at hnot
    cases hnot
  rw [replyOf, List.find?_append, hfind, htake]
  rw [replyOf, hfind] at h
  exact h

end Reply

/-! ## Verdicts -/

section Verdict

variable {ack : Bool} {m : Message}

theorem ofMessage_error (h : m.type = MessageType.error) :
    Verdict.ofMessage ack m = .final m.outcome := by
  have herror : m.isError = true := by simp [Message.isError, h]
  have hreport : m.errorReport = ErrorReport.decode m.payload := by
    rw [Message.errorReport, if_pos herror]
  rw [Verdict.ofMessage, if_pos herror, hreport, Message.outcome, if_pos h, ErrorReport.decode]
  by_cases hlength : m.payload.length < 4
  · rw [if_pos hlength, if_pos hlength]
    rfl
  · rw [if_neg hlength, if_neg hlength]
    by_cases hcode : m.code = 0
    · have hack : ((m.payload.le32At 0).toInt32 == 0) = true := beq_iff_eq.mpr hcode
      rw [if_pos hcode]
      simp only [Verdict.ofReport, ErrorReport.isAck, hack, if_true]
    · have hack : ((m.payload.le32At 0).toInt32 == 0) = false := beq_eq_false_iff_ne.mpr hcode
      rw [if_neg hcode]
      simp only [Verdict.ofReport, ErrorReport.isAck, hack]
      rfl

theorem ofMessage_done (h : m.type = MessageType.done) :
    Verdict.ofMessage ack m = .final m.outcome := by
  have hne : m.type ≠ MessageType.error := by rw [h]; decide
  have herror : m.isError = false := by simpa [Message.isError] using hne
  have hdone : m.isDone = true := by simp [Message.isDone, h]
  rw [Verdict.ofMessage, if_neg (by simp [herror]), if_pos hdone, Message.outcome, if_neg hne,
    if_pos h]
  by_cases hlength : m.payload.length < 4
  · have hcode : Verdict.doneCode m.payload = 0 := if_pos hlength
    rw [if_pos (Or.inl hlength), hcode]
    rfl
  · have hcode : Verdict.doneCode m.payload = m.code := if_neg hlength
    rw [hcode]
    by_cases hneg : m.code < 0
    · have hfail : ¬ (m.payload.length < 4 ∨ 0 ≤ m.code) :=
        fun h => h.elim hlength (Int32.not_le.mpr hneg)
      rw [if_neg hfail]
      simp only [if_pos hneg]
    · rw [if_pos (Or.inr (Int32.not_lt.mp hneg))]
      simp only [if_neg hneg]

theorem ofMessage_overrun (h : m.type = MessageType.overrun) :
    Verdict.ofMessage ack m = .final m.outcome := by
  have herror : m.isError = false := by
    rw [Message.isError, h]
    decide
  have hdone : m.isDone = false := by
    rw [Message.isDone, h]
    decide
  have hne : m.type ≠ MessageType.error := by rw [h]; decide
  have hne' : m.type ≠ MessageType.done := by rw [h]; decide
  rw [Verdict.ofMessage, if_neg (by simp [herror]), if_neg (by simp [hdone]), if_pos h,
    Message.outcome, if_neg hne, if_neg hne', if_pos h]

theorem ofMessage_data (h : m.isData = true) :
    Verdict.ofMessage ack m = if m.endsReply ack then .lastPart else .part := by
  simp only [Message.isData, Bool.and_eq_true, bne_iff_ne] at h
  have hdata : m.isData = true := by simp [Message.isData, h]
  have herror : m.isError = false := by simp [Message.isError, h]
  have hdone : m.isDone = false := by simp [Message.isDone, h]
  rw [Verdict.ofMessage, if_neg (by simp [herror]), if_neg (by simp [hdone]), if_neg h.2]
  cases hmulti : m.isMulti <;> cases ack <;> simp [Message.endsReply, h, hdata, hmulti]

/-- Every message but one to be skipped is data or a report, and a report ends every reply. -/
theorem isData_or_ends (ack : Bool) (h : m.type ≠ MessageType.noop) :
    m.isData = true ∨
      (m.isData = false ∧ m.endsReply ack = true ∧ Verdict.ofMessage ack m = .final m.outcome) := by
  by_cases herror : m.type = MessageType.error
  · exact Or.inr ⟨by simp [Message.isData, herror], by simp [Message.endsReply, herror],
      ofMessage_error herror⟩
  by_cases hdone : m.type = MessageType.done
  · exact Or.inr ⟨by simp [Message.isData, hdone], by simp [Message.endsReply, hdone],
      ofMessage_done hdone⟩
  by_cases hoverrun : m.type = MessageType.overrun
  · exact Or.inr ⟨by simp [Message.isData, hoverrun], by simp [Message.endsReply, hoverrun],
      ofMessage_overrun hoverrun⟩
  · exact Or.inl (by simp [Message.isData, h, herror, hdone, hoverrun])

theorem outcome_of_isData (h : m.isData = true) : m.outcome = .ok () := by
  simp only [Message.isData, Bool.and_eq_true, bne_iff_ne] at h
  simp [Message.outcome, h]

theorem isData_noop (h : m.type = MessageType.noop) : m.isData = false := by
  simp [Message.isData, h]

theorem endsReply_noop (h : m.type = MessageType.noop) : m.endsReply ack = false := by
  have hdata := isData_noop h
  rw [Message.endsReply, h, hdata]
  rfl

/-- One part of several ends nothing. -/
theorem endsReply_multi (h : m.isData = true) (hmulti : m.isMulti = true) :
    m.endsReply ack = false := by
  simp only [Message.isData, Bool.and_eq_true, bne_iff_ne] at h
  simp [Message.endsReply, h, hmulti]

theorem outcome_done (h : m.type = MessageType.done) :
    m.outcome = if Verdict.doneCode m.payload < 0 then
        .error (.protocol (Errno.ofCode (Verdict.doneCode m.payload)))
      else .ok () := by
  have hverdict : Verdict.ofMessage false m = .final m.outcome := ofMessage_done h
  have herror : m.isError = false := by
    rw [Message.isError, h]
    decide
  have hdone : m.isDone = true := by simp [Message.isDone, h]
  rw [Verdict.ofMessage, if_neg (by simp [herror]), if_pos hdone] at hverdict
  by_cases hcode : Verdict.doneCode m.payload < 0
  · simp only [if_pos hcode] at hverdict ⊢
    exact (Verdict.final.inj hverdict).symm
  · simp only [if_neg hcode] at hverdict ⊢
    exact (Verdict.final.inj hverdict).symm

end Verdict

/-! ## Requests on their way -/

/-- The messages that an event hands over. -/
def ExchangeEvent.messages : ExchangeEvent → List Message
  | .receive _ (.ok data) => (Datagram.messages data).1
  | _ => []

/-- The messages with a sequence number, in the order in which a run hands them over. -/
def arrivals (seq : UInt32) (es : List ExchangeEvent) : List Message :=
  (es.flatMap ExchangeEvent.messages).filter (·.seq == seq)

/-- An event adds the messages of the number that it brings. -/
theorem arrivals_concat (seq : UInt32) (es : List ExchangeEvent) (e : ExchangeEvent) :
    arrivals seq (es ++ [e]) = arrivals seq es ++ e.messages.filter (·.seq == seq) := by
  simp [arrivals]

namespace Exchange

/-- A request that is given the number `seq` and registered when the oldest command is taken. -/
structure Registers (x : Exchange) (request : Request) (responder : Responder) (seq : UInt32) :
    Prop where
  running : x.isRunning = true
  oldest : ∃ rest, x.commands = .send request responder :: rest
  room : x.pending.length < x.options.maxPending
  next : seq = nextSeq x.lastSeq
  encodable : ∃ datagram, Datagram.encode (request.toMessage seq x.port) = .ok datagram

/-- The request with number `seq` is the only one with its ticket. As long as it is pending, it
holds the data of the messages `ms`, none of which ends its reply. -/
structure Tracks (x : Exchange) (seq : UInt32) (ticket : Nat) (ack : Bool) (ms : List Message) :
    Prop where
  only : ∀ e ∈ x.pending, e.2.responder.ticket = ticket → e.1 = seq
  unqueued : ∀ r ∈ x.queued, r.ticket ≠ ticket
  collected : ∀ p, PendingTable.find? x.pending seq = some p →
    p.responder.ticket = ticket ∧ p.expectsAck = ack ∧ p.parts = ms.filter Message.isData ∧
      ∀ m ∈ ms, m.endsReply ack = false

/-- What an operation does to a pending request, given the reply that its messages make up
by then. -/
def Settles (result : Exchange × List ExchangeOutput) (seq : UInt32) (ticket : Nat) :
    Option Response → Prop
  | none => PendingTable.find? result.1.pending seq ≠ none ∧ answersTo ticket result.2 = []
  | some response =>
    PendingTable.find? result.1.pending seq = none ∧ answersTo ticket result.2 = [response]

namespace Tracks

variable {x y : Exchange} {seq : UInt32} {ticket : Nat} {ack : Bool} {ms : List Message}
  {now : Time} {m : Message} {p : Pending}

/-- What removes entries from the table or commands from the queue keeps track. -/
theorem of_subset (h : Tracks x seq ticket ack ms) (hk : (PendingTable.keys x.pending).Nodup)
    (hpending : ∀ e ∈ y.pending, e ∈ x.pending) (hqueued : ∀ r ∈ y.queued, r ∈ x.queued) :
    Tracks y seq ticket ack ms where
  only := fun e he => h.only e (hpending e he)
  unqueued := fun r hr => h.unqueued r (hqueued r hr)
  collected := fun p hp =>
    h.collected p (PendingTable.find?_of_mem hk (hpending _ (PendingTable.mem_of_find? hp)))

/-- A request that is no longer pending is tracked through any messages. -/
theorem of_gone (h : Tracks x seq ticket ack ms) (hgone : PendingTable.find? x.pending seq = none)
    (ms' : List Message) : Tracks x seq ticket ack ms' where
  only := h.only
  unqueued := h.unqueued
  collected := fun p hp => by
    rw [hgone] at hp
    cases hp

/-- The request is pending just if an entry has its number: the entry is its own. -/
theorem isPending_iff (h : Tracks x seq ticket ack ms) (hk : (PendingTable.keys x.pending).Nodup) :
    x.IsPending ticket ↔ PendingTable.find? x.pending seq ≠ none := by
  constructor
  · rintro ⟨⟨s, p⟩, hmem, hticket⟩
    obtain rfl : s = seq := h.only _ hmem hticket
    rw [PendingTable.find?_of_mem hk hmem]
    exact Option.some_ne_none p
  · intro hsome
    rcases Option.ne_none_iff_exists'.mp hsome with ⟨p, hp⟩
    exact ⟨_, PendingTable.mem_of_find? hp, (h.collected p hp).1⟩

/-! ### One message -/

/-- The request whose number is not `seq` does not have its ticket. -/
theorem ticket_ne (h : Tracks x seq ticket ack ms) {s : UInt32}
    (hp : PendingTable.find? x.pending s = some p) (hs : s ≠ seq) : p.responder.ticket ≠ ticket :=
  fun hticket => hs (h.only _ (PendingTable.mem_of_find? hp) hticket)

/-- Answering a request, this one or another, keeps the account of this one. -/
theorem complete (h : Tracks x seq ticket ack ms) (hk : (PendingTable.keys x.pending).Nodup)
    (now : Time) (s : UInt32) (result : Except ExchangeError Unit) :
    Tracks (x.complete now s result).1 seq ticket ack ms := by
  rcases hp : PendingTable.find? x.pending s with _ | p
  · rw [complete_of_none hp]
    exact h
  · rw [complete_of_find? hp]
    exact h.of_subset hk (fun e he => (PendingTable.mem_erase.mp he).1) fun r hr => hr

theorem takeUnsolicited (h : Tracks x seq ticket ack ms) (hk : (PendingTable.keys x.pending).Nodup)
    (m : Message) :
    Tracks (x.takeUnsolicited m) seq ticket ack ms ∧ (x.takeUnsolicited m).pending = x.pending := by
  have hpending : (x.takeUnsolicited m).pending = x.pending := by
    unfold Exchange.takeUnsolicited
    split_ifs <;> rfl
  have hqueued : (x.takeUnsolicited m).queued = x.queued := by
    rw [queued, queued, (onTable_takeUnsolicited x m).commands]
  exact ⟨h.of_subset hk (fun e he => hpending ▸ he) fun r hr => hqueued ▸ hr, hpending⟩

/-- A message of another request, which is never answered in place of this one. -/
theorem takeMessage_other (h : Tracks x seq ticket ack ms)
    (hk : (PendingTable.keys x.pending).Nodup)
    (now : Time) (hne : m.seq ≠ seq) :
    Tracks (x.takeMessage now m).1 seq ticket ack ms ∧
      PendingTable.find? (x.takeMessage now m).1.pending seq = PendingTable.find? x.pending seq ∧
      answersTo ticket (x.takeMessage now m).2 = [] := by
  by_cases hnoop : m.type = MessageType.noop
  · rw [takeMessage_noop hnoop]
    exact ⟨h, rfl, rfl⟩
  rcases hp : PendingTable.find? x.pending m.seq with _ | p
  · rw [takeMessage_unsolicited hnoop hp]
    have hsame := h.takeUnsolicited hk m
    exact ⟨hsame.1, by rw [hsame.2], rfl⟩
  -- the message belongs to a request with another number, hence with another ticket
  have hextend : Tracks (x.extend m) seq ticket ack ms := by
    refine ⟨?_, h.unqueued, ?_⟩
    · intro e he hticket
      rcases List.mem_map.mp he with ⟨e', he', rfl⟩
      split_ifs at hticket ⊢ with hs
      · exact h.only e' he' hticket
      · exact h.only e' he' hticket
    · intro q hq
      rw [find?_extend_of_ne hne.symm] at hq
      exact h.collected q hq
  have hself := find?_extend_self hp
  have hkExtend := (onTable_extend x m).keys.nodup hk
  rw [takeMessage_pending hnoop hp]
  cases Verdict.ofMessage p.expectsAck m with
  | part => exact ⟨hextend, find?_extend_of_ne hne.symm, rfl⟩
  | lastPart =>
    refine ⟨hextend.complete hkExtend now m.seq _, ?_, ?_⟩
    · dsimp only
      rw [complete_of_find? hself]
      exact (PendingTable.find?_erase_of_ne hne.symm).trans (find?_extend_of_ne hne.symm)
    · dsimp only
      rw [complete_of_find? hself]
      simp [answersTo, hextend.ticket_ne hself hne]
  | final result =>
    refine ⟨h.complete hk now m.seq _, ?_, ?_⟩
    · dsimp only
      rw [complete_of_find? hp]
      exact PendingTable.find?_erase_of_ne hne.symm
    · dsimp only
      rw [complete_of_find? hp]
      simp [answersTo, h.ticket_ne hp hne]

/-- A message of the request itself, while it is pending. -/
theorem takeMessage_own (h : Tracks x seq ticket ack ms) (hk : (PendingTable.keys x.pending).Nodup)
    (now : Time) (hm : m.seq = seq) (hp : PendingTable.find? x.pending seq = some p) :
    Tracks (x.takeMessage now m).1 seq ticket ack (ms ++ [m]) ∧
      Settles (x.takeMessage now m) seq ticket (replyOf ack (ms ++ [m])) := by
  subst hm
  rcases h.collected p hp with ⟨hticket, hack, hparts, hends⟩
  have hbefore (hm : m.endsReply ack = false) : ∀ a ∈ ms ++ [m], a.endsReply ack = false := by
    intro a ha
    rcases List.mem_append.mp ha with ha | ha
    · exact hends a ha
    · rw [List.mem_singleton.mp ha, hm]
  by_cases hnoop : m.type = MessageType.noop
  · have hall := hbefore (endsReply_noop hnoop)
    rw [takeMessage_noop hnoop, replyOf_eq_none.mpr hall]
    refine ⟨⟨h.only, h.unqueued, ?_⟩, Option.ne_none_iff_exists'.mpr ⟨p, hp⟩, rfl⟩
    intro q hq
    obtain rfl : p = q := Option.some.inj (hp.symm.trans hq)
    exact ⟨hticket, hack, by simp [hparts, isData_noop hnoop], hall⟩
  rw [takeMessage_pending hnoop hp, hack]
  rcases isData_or_ends ack hnoop with hdata | ⟨hdata, hfinal, hverdict⟩
  · -- data is collected, and completes the reply if it is its last part
    have hself := find?_extend_self hp
    have honly : ∀ e ∈ (x.extend m).pending, e.2.responder.ticket = ticket → e.1 = m.seq := by
      intro e he heq
      rcases List.mem_map.mp he with ⟨e', he', rfl⟩
      split_ifs at heq ⊢ with hs
      · exact hs
      · exact h.only e' he' heq
    have hnewParts : (p.addPart m).parts = (ms ++ [m]).filter Message.isData := by
      simp [Pending.parts_addPart, hparts, hdata]
    rw [ofMessage_data hdata]
    cases hlast : m.endsReply ack with
    | false =>
      rw [replyOf_eq_none.mpr (hbefore hlast)]
      refine ⟨⟨honly, h.unqueued, ?_⟩, Option.ne_none_iff_exists'.mpr ⟨_, hself⟩, rfl⟩
      intro q hq
      obtain rfl : p.addPart m = q := Option.some.inj (hself.symm.trans hq)
      exact ⟨hticket, hack, hnewParts, hbefore hlast⟩
    | true =>
      rw [replyOf_concat hends hlast, outcome_of_isData hdata, ← hnewParts]
      simp only [if_true]
      rw [complete_of_find? hself]
      refine ⟨⟨?_, h.unqueued, ?_⟩, ?_, ?_⟩
      · intro e he
        exact honly e (PendingTable.mem_erase.mp he).1
      · intro q hq
        cases PendingTable.find?_erase_self.symm.trans hq
      · exact PendingTable.find?_erase_self
      · have hsame : (p.addPart m).responder.ticket = ticket := hticket
        simp [answersTo, hsame]
  · -- a report completes the reply with what was collected before
    have hnewParts : p.parts = (ms ++ [m]).filter Message.isData := by
      simp [hparts, hdata]
    rw [hverdict, replyOf_concat hends hfinal, ← hnewParts]
    dsimp only
    have hgone : PendingTable.find? (x.complete now m.seq m.outcome).1.pending m.seq = none := by
      rw [complete_of_find? hp]
      exact PendingTable.find?_erase_self
    refine ⟨(h.complete hk now m.seq _).of_gone hgone _, hgone, ?_⟩
    rw [complete_of_find? hp]
    simp [answersTo, hticket]

/-! ### Datagrams -/

/-- Once the request is gone, messages neither answer it nor bring it back. -/
theorem takeMessage_gone (h : Tracks x seq ticket ack ms) (hk : (PendingTable.keys x.pending).Nodup)
    (now : Time) (m : Message) (hgone : PendingTable.find? x.pending seq = none) :
    Tracks (x.takeMessage now m).1 seq ticket ack ms ∧
      PendingTable.find? (x.takeMessage now m).1.pending seq = none ∧
      answersTo ticket (x.takeMessage now m).2 = [] := by
  by_cases hm : m.seq = seq
  · by_cases hnoop : m.type = MessageType.noop
    · rw [takeMessage_noop hnoop]
      exact ⟨h, hgone, rfl⟩
    · have hsame := h.takeUnsolicited hk m
      rw [takeMessage_unsolicited hnoop (by rw [hm, hgone])]
      exact ⟨hsame.1, by rw [hsame.2, hgone], rfl⟩
  · have hother := h.takeMessage_other hk now hm
    exact ⟨hother.1, hother.2.1.trans hgone, hother.2.2⟩

/-- Once the request has left the table, messages of its number tell its caller nothing. -/
theorem takeMessages_gone (h : Tracks x seq ticket ack ms)
    (hk : (PendingTable.keys x.pending).Nodup)
    (now : Time) (l : List Message) (hgone : PendingTable.find? x.pending seq = none) :
    Tracks (x.takeMessages now l).1 seq ticket ack ms ∧
      PendingTable.find? (x.takeMessages now l).1.pending seq = none ∧
      answersTo ticket (x.takeMessages now l).2 = [] := by
  induction l generalizing x with
  | nil => exact ⟨h, hgone, rfl⟩
  | cons m rest ih =>
    rcases h.takeMessage_gone hk now m hgone with ⟨hfirst, hgone', hnone⟩
    have hlater := ih hfirst ((onTable_takeMessage x now m).keys.nodup hk) hgone'
    simp only [takeMessages, answersTo_append, hnone, List.nil_append]
    exact hlater

/-- Several messages settle a pending request as soon as those with its number make up its reply. -/
theorem takeMessages_pending (h : Tracks x seq ticket ack ms)
    (hk : (PendingTable.keys x.pending).Nodup)
    (now : Time) (l : List Message) (hp : PendingTable.find? x.pending seq ≠ none) :
    Tracks (x.takeMessages now l).1 seq ticket ack (ms ++ l.filter (·.seq == seq)) ∧
      Settles (x.takeMessages now l) seq ticket (replyOf ack (ms ++ l.filter (·.seq == seq))) := by
  induction l generalizing x ms with
  | nil =>
    rcases Option.ne_none_iff_exists'.mp hp with ⟨p, hp'⟩
    rw [List.filter_nil, List.append_nil, replyOf_eq_none.mpr (h.collected p hp').2.2.2]
    exact ⟨h, hp, rfl⟩
  | cons m rest ih =>
    have hk' := (onTable_takeMessage x now m).keys.nodup hk
    -- a message of the request joins its reply so far, any other leaves it alone
    by_cases hm : m.seq = seq
    · rcases Option.ne_none_iff_exists'.mp hp with ⟨p, hp'⟩
      rcases h.takeMessage_own hk now hm hp' with ⟨hfirst, hsettles⟩
      rw [List.filter_cons_of_pos (by simpa using hm), List.append_cons]
      rcases hreply : replyOf ack (ms ++ [m]) with _ | response
      · rw [hreply] at hsettles
        have hlater := ih hfirst hk' hsettles.1
        refine ⟨hlater.1, ?_⟩
        revert hlater
        cases replyOf ack (ms ++ [m] ++ rest.filter (·.seq == seq)) <;> intro hlater <;>
          simpa [takeMessages, Settles, answersTo_append, hsettles.2] using hlater.2
      · -- the request is answered, and what follows in the datagram comes too late
        rw [hreply] at hsettles
        rcases hfirst.takeMessages_gone hk' now rest hsettles.1 with ⟨hrest, hgone, hnone⟩
        rw [replyOf_append hreply]
        refine ⟨hrest.of_gone hgone _, hgone, ?_⟩
        simp only [takeMessages, answersTo_append, hsettles.2, hnone, List.append_nil]
    · rcases h.takeMessage_other hk now hm with ⟨hfirst, hfind, hnone⟩
      have hlater := ih hfirst hk' (by rwa [hfind])
      rw [List.filter_cons_of_neg (by simpa using hm)]
      refine ⟨hlater.1, ?_⟩
      revert hlater
      cases replyOf ack (ms ++ rest.filter (·.seq == seq)) <;> intro hlater <;>
        simpa [takeMessages, Settles, answersTo_append, hnone] using hlater.2

/-- A datagram adds its messages of the number to those that have arrived, and settles the request
if one of them ends the reply. -/
theorem takeDatagram (h : Tracks x seq ticket ack ms) (hk : (PendingTable.keys x.pending).Nodup)
    (now : Time) (data : Bytes) :
    Tracks (x.takeDatagram now data).1 seq ticket ack
        (ms ++ (Datagram.messages data).1.filter (·.seq == seq)) ∧
      (PendingTable.find? x.pending seq = none →
        answersTo ticket (x.takeDatagram now data).2 = []) ∧
      (PendingTable.find? x.pending seq ≠ none →
        Settles (x.takeDatagram now data) seq ticket
          (replyOf ack (ms ++ (Datagram.messages data).1.filter (·.seq == seq)))) := by
  -- only the counters differ from taking the messages of the datagram one after another
  have hcounting : Tracks (x.counting data) seq ticket ack ms := ⟨h.only, h.unqueued, h.collected⟩
  rcases takeDatagram_eq x now data with ⟨tally, heq⟩
  rw [heq]
  by_cases hgone : PendingTable.find? x.pending seq = none
  · rcases hcounting.takeMessages_gone hk now (Datagram.messages data).1 hgone with
      ⟨hlater, hfind, hnone⟩
    have hanything := hlater.of_gone hfind (ms ++ (Datagram.messages data).1.filter (·.seq == seq))
    exact ⟨⟨hanything.only, hanything.unqueued, hanything.collected⟩, fun _ => hnone,
      fun hsome => absurd hgone hsome⟩
  · rcases hcounting.takeMessages_pending hk now (Datagram.messages data).1 hgone with
      ⟨hlater, hsettles⟩
    refine ⟨⟨hlater.only, hlater.unqueued, hlater.collected⟩, ?_, ?_⟩
    · intro hnone
      exact absurd hnone hgone
    intro _
    revert hsettles
    cases replyOf ack (ms ++ (Datagram.messages data).1.filter (·.seq == seq)) <;> exact id

/-! ### Runs -/

/-- Another request is registered under another number and with another ticket. -/
theorem register (h : Tracks x seq ticket ack ms) (hne : nextSeq x.lastSeq ≠ seq) (now : Time)
    (request : Request) (responder : Responder) (hticket : responder.ticket ≠ ticket) :
    Tracks (x.register now request responder).1 seq ticket ack ms := by
  rcases x.register_cases now request responder with
    ⟨-, heq⟩ | ⟨-, error, -, heq⟩ | ⟨-, datagram, -, heq⟩
  · rw [heq]
    exact h
  · rw [heq]
    exact ⟨h.only, h.unqueued, h.collected⟩
  · rw [heq]
    refine ⟨?_, h.unqueued, ?_⟩
    · intro e hmem howner
      rcases List.mem_append.mp hmem with hmem | hmem
      · exact h.only e (PendingTable.mem_erase.mp hmem).1 howner
      · rw [List.mem_singleton.mp hmem] at howner
        exact absurd howner hticket
    · intro p hp
      exact h.collected p ((PendingTable.find?_insert_of_ne hne.symm).symm.trans hp)

/-- Other requests are given other numbers. -/
theorem take (h : Tracks x seq ticket ack ms) (hk : (PendingTable.keys x.pending).Nodup)
    (now : Time) (joined : Except IoError Unit)
    (hne : x.numbers (.take now joined) = true → nextSeq x.lastSeq ≠ seq) :
    Tracks (x.step (.take now joined)).1 seq ticket ack ms := by
  rcases hrunning : x.isRunning with _ | _
  · rw [(take_stopped hrunning).1]
    exact h
  rcases hc : x.commands with _ | ⟨⟨request, responder⟩ | _, rest⟩
  · rw [(take_nil hc).1]
    exact h
  · have htake := x.take_send now joined hrunning hc
    have hqueued := queued_of_send hc
    -- its own command left the queue when it was registered, so this is another caller
    have hticket := h.unqueued responder (by rw [hqueued]; exact List.mem_cons_self)
    have hpopped : Tracks (x.popped rest) seq ticket ack ms :=
      h.of_subset hk (fun e he => he) fun r hr => by
        rw [hqueued]
        exact List.mem_cons_of_mem _ hr
    rw [htake.1]
    by_cases hroom : x.pending.length < x.options.maxPending
    · rw [htake.2, decide_eq_true hroom] at hne
      exact hpopped.register (hne rfl) now request responder hticket
    · rw [register_full (x := x.popped rest) (Nat.le_of_not_lt hroom)]
      exact hpopped
  · rw [(take_join hrunning hc).1]
    exact h.of_subset hk (fun e he => he) fun r hr => queued_of_join hc ▸ hr

theorem abandon (h : Tracks x seq ticket ack ms) (gone : Nat) :
    Tracks (x.abandon gone) seq ticket ack ms where
  only := by
    intro e he heq
    rcases List.mem_map.mp he with ⟨e', he', rfl⟩
    exact h.only e' he' (by simpa [Pending.abandon] using heq)
  unqueued := by
    intro r hr
    rcases List.mem_filterMap.mp hr with ⟨c, hc, hresponder⟩
    rcases List.mem_map.mp hc with ⟨c', hc', rfl⟩
    cases c' with
    | send request responder =>
      cases hresponder
      rw [Responder.ticket_abandon]
      exact h.unqueued responder (List.mem_filterMap.mpr ⟨_, hc', rfl⟩)
    | join => cases hresponder
  collected := by
    intro p hp
    rw [Exchange.abandon, PendingTable.find?_abandon] at hp
    rcases Option.map_eq_some_iff.mp hp with ⟨q, hq, rfl⟩
    rcases h.collected q hq with ⟨hticket, hrest⟩
    exact ⟨by simpa [Pending.abandon] using hticket, hrest⟩

/-- An event that neither gives out the number again nor hands over another request with the ticket
keeps track. -/
theorem step (h : Tracks x seq ticket ack ms) (hx : Tidy x) (e : ExchangeEvent)
    (hne : x.numbers e = true → nextSeq x.lastSeq ≠ seq)
    (hnew : ∀ r ∈ submitters [e], r.ticket ≠ ticket) :
    Tracks (x.step e).1 seq ticket ack (ms ++ e.messages.filter (·.seq == seq)) := by
  have hquiet (hmessages : e.messages = []) (hstep : Tracks (x.step e).1 seq ticket ack ms) :
      Tracks (x.step e).1 seq ticket ack (ms ++ e.messages.filter (·.seq == seq)) := by
    rw [hmessages, List.filter_nil, List.append_nil]
    exact hstep
  cases e with
  | submit command =>
    refine hquiet rfl ?_
    rcases hrunning : x.isRunning with _ | _
    · rw [submit_stopped hrunning]
      exact h
    · have hqueued := queued_submit hrunning command
      rw [submit_running hrunning] at hqueued ⊢
      refine ⟨h.only, ?_, h.collected⟩
      intro r hr
      rw [hqueued] at hr
      rcases List.mem_append.mp hr with hr | hr
      · exact h.unqueued r hr
      · exact hnew r hr
  | abandon gone => exact hquiet rfl (h.abandon gone)
  | take now joined => exact hquiet rfl (h.take hx.nodup now joined hne)
  | transmit now result =>
    refine hquiet rfl ?_
    simp only [Exchange.step]
    split_ifs
    · unfold transmit
      rcases hq : x.egress with _ | ⟨⟨s, datagram⟩, rest⟩
      · exact h
      have hpopped : Tracks { x with egress := rest } seq ticket ack ms :=
        ⟨h.only, h.unqueued, h.collected⟩
      rcases result with error | _
      · exact hpopped.complete hx.nodup now s _
      · exact ⟨h.only, h.unqueued, h.collected⟩
    · exact h
  | receive now result =>
    rcases hrunning : x.isRunning with _ | _
    · -- an exchange that has ended has nothing pending
      have hnil := hx.ended hrunning
      simp only [Exchange.step, hrunning]
      exact h.of_gone (by rw [hnil]; rfl) _
    rcases result with error | data
    · refine hquiet rfl ?_
      simp only [Exchange.step, hrunning, if_true, receive]
      split_ifs
      · exact h
      · exact h.of_subset hx.nodup (fun e he => by cases he) fun r hr => by cases hr
    · simp only [Exchange.step, hrunning, if_true, receive]
      exact (h.takeDatagram hx.nodup now data).1
  | sweep now =>
    refine hquiet rfl ?_
    simp only [Exchange.step]
    split_ifs
    · rw [sweep_eq hx.nodup]
      exact h.of_subset hx.nodup (fun e he => (List.mem_filter.mp he).1) fun r hr => hr
    · exact h
  | readNotification =>
    refine hquiet rfl ?_
    simp only [Exchange.step, readNotification]
    rcases x.notifications with _ | ⟨m, rest⟩
    · exact h
    · exact ⟨h.only, h.unqueued, h.collected⟩
  | dropHandles | rest | closeNotifications =>
    exact hquiet rfl ⟨h.only, h.unqueued, h.collected⟩

/-- The order in which the table is listed does not matter. -/
theorem relist (h : Tracks x seq ticket ack ms) (hx : Tidy x) {t : PendingTable}
    (hlisted : t.Perm x.pending) : Tracks (x.relist t) seq ticket ack ms :=
  h.of_subset hx.nodup (fun _ he => hlisted.subset he) fun _ hr => hr

/-- A run keeps track if all its events do. -/
theorem runs {x₀ : Exchange} {trace : List Moment} (h : Tracks x₀ seq ticket ack ms)
    (h₀ : Tidy x₀) (hruns : Runs x₀ trace x) (hunrepeated : Unrepeated seq trace)
    (hnew : ∀ r ∈ submitters (eventsIn trace), r.ticket ≠ ticket) :
    Tracks x seq ticket ack (ms ++ arrivals seq (eventsIn trace)) := by
  induction hruns with
  | init => rwa [eventsIn, List.map_nil, arrivals, List.flatMap_nil, List.filter_nil, List.append_nil]
  | @next trace x t e hbefore hlisted ih =>
    rw [eventsIn_concat, submitters_append] at hnew
    have htracks := ih (fun m hm => hunrepeated m (List.mem_append_left _ hm))
      fun r hr => hnew r (List.mem_append_left _ hr)
    have htidy := h₀.runs hbefore
    have hstep := (htracks.relist htidy hlisted).step (htidy.relist hlisted) e
      (hunrepeated ⟨x.relist t, e⟩ (List.mem_append_right _ List.mem_cons_self))
      fun r hr => hnew r (List.mem_append_right _ hr)
    rw [eventsIn_concat, arrivals_concat, ← List.append_assoc]
    exact hstep

/-- A datagram answers the request exactly if it is pending and its messages now make up a reply. -/
theorem mem_answersTo_receive (h : Tracks x seq ticket ack ms) (hx : Tidy x) (time : Time)
    (data : Bytes) (response : Response) :
    response ∈ answersTo ticket (x.step (.receive time (.ok data))).2 ↔
      x.IsPending ticket ∧
        replyOf ack (ms ++ (Datagram.messages data).1.filter (·.seq == seq)) = some response := by
  rw [h.isPending_iff hx.nodup]
  rcases hrunning : x.isRunning with _ | _
  · simp [Exchange.step, hrunning, hx.ended hrunning, PendingTable.find?, answersTo]
  have hstep : x.step (.receive time (.ok data)) = x.takeDatagram time data := by
    simp [Exchange.step, hrunning, receive]
  rcases h.takeDatagram hx.nodup time data with ⟨-, hgone, hpending⟩
  rw [hstep]
  by_cases hfind : PendingTable.find? x.pending seq = none
  · rw [hgone hfind]
    simp [hfind]
  · have hsettles := hpending hfind
    rcases hreply : replyOf ack (ms ++ (Datagram.messages data).1.filter (·.seq == seq)) with
      _ | reply
    · rw [hreply] at hsettles
      simp [hsettles.2]
    · rw [hreply] at hsettles
      simp [hsettles.2, hfind, eq_comm]

end Tracks

/-! ## The answer of a request -/

section Answer

variable {x : Exchange} {request : Request} {responder : Responder} {seq : UInt32}

/-- From its registration on, a request whose ticket is handed over once is tracked. -/
theorem Registers.tracks_nothing (h : x.Registers request responder seq)
    (honce : share Responder.ticket responder.ticket x.owed ≤ 1) (now : Time)
    (joined : Except IoError Unit) :
    Tracks (x.step (.take now joined)).1 seq responder.ticket request.expectsAck [] := by
  obtain ⟨hrunning, ⟨rest, hc⟩, hroom, rfl, ⟨datagram, he⟩⟩ := h
  -- the command that is taken holds the ticket, so no other command and no pending request does
  have hself : share Responder.ticket responder.ticket [responder] = 1 := by simp [share]
  rw [owed, queued_of_send hc, share_append, share_cons, hself] at honce
  have hunqueued : ∀ r ∈ (x.popped rest).queued, r.ticket ≠ responder.ticket := by
    intro r hr hticket
    have hpos := share_pos.mpr ⟨r, hr, hticket⟩
    omega
  have hunpending : ∀ e ∈ x.pending, e.2.responder.ticket ≠ responder.ticket := by
    intro e he hticket
    have hmem : e.2.responder ∈ PendingTable.responders (x.popped rest).pending :=
      List.mem_map.mpr ⟨e, he, rfl⟩
    have hpos := share_pos.mpr ⟨_, hmem, hticket⟩
    have hsame : (x.popped rest).pending = x.pending := rfl
    rw [hsame] at hpos
    omega
  rw [(x.take_send now joined hrunning hc).1, register_accepted (x := x.popped rest) hroom he]
  refine ⟨?_, hunqueued, ?_⟩
  · intro e hmem hticket
    rcases List.mem_append.mp hmem with hmem | hmem
    · exact absurd hticket (hunpending e (PendingTable.mem_erase.mp hmem).1)
    · rw [List.mem_singleton.mp hmem]
      rfl
  · intro p hp
    cases PendingTable.find?_insert_self.symm.trans hp
    exact ⟨rfl, rfl, rfl, by simp⟩

/-- A request that is registered has its entry in the table, and nobody is told anything. -/
theorem Registers.step_take (h : x.Registers request responder seq) (now : Time)
    (joined : Except IoError Unit) :
    ∃ rest datagram, x.step (.take now joined) =
      ({ x.popped rest with
          lastSeq := seq
          pending := PendingTable.insert x.pending seq (x.entry now request responder)
          egress := x.egress ++ [(seq, datagram)]
          tally := x.tally.countRequest }, []) := by
  obtain ⟨hrunning, ⟨rest, hc⟩, hroom, rfl, ⟨datagram, he⟩⟩ := h
  refine ⟨rest, datagram, ?_⟩
  rw [(x.take_send now joined hrunning hc).1, register_accepted (x := x.popped rest) hroom he]
  rfl

/-- The caller of a request that is registered is owed its answer until then. -/
theorem Registers.share_owed_pos (h : x.Registers request responder seq) :
    0 < share Responder.ticket responder.ticket x.owed := by
  obtain ⟨rest, hc⟩ := h.oldest
  refine share_pos.mpr ⟨responder, List.mem_append_left _ ?_, rfl⟩
  rw [queued, hc]
  exact List.mem_cons_self

variable {port : UInt32} {options : ExchangeOptions} {before later : List Moment} {taken : Exchange}
  {now : Time} {joined : Except IoError Unit}

/-- In a run in which every request has a ticket of its own, the ticket of one that is registered is
handed over once, before that, and nobody is told anything under it until then. -/
theorem Registers.ticket_once (h : taken.Registers request responder seq)
    (hruns : Runs (start port options) (before ++ ⟨taken, .take now joined⟩ :: later) x)
    (hdistinct : DistinctTickets (eventsIn (before ++ ⟨taken, .take now joined⟩ :: later))) :
    share Responder.ticket responder.ticket taken.owed = 1 ∧
      answersTo responder.ticket (outputsOf before) = [] ∧
      ∀ r ∈ submitters (eventsIn later), r.ticket ≠ responder.ticket := by
  obtain ⟨y, t, hbefore, hlisted, rfl⟩ := hruns.at_moment
  have honce : share Responder.ticket responder.ticket
      (submitters (eventsIn (before ++ ⟨y.relist t, .take now joined⟩ :: later))) ≤ 1 :=
    List.nodup_iff_count_le_one.mp hdistinct responder.ticket
  have htaken : submitters (eventsIn (⟨y.relist t, .take now joined⟩ :: later)) =
      submitters (eventsIn later) := rfl
  rw [eventsIn_append, submitters_append, share_append, htaken] at honce
  -- the caller that waits in the queue has been owed its answer since it handed over the request
  have hlaw := hbefore.length_answersTo_le (.start port options) responder.ticket
  have hnothing : share Responder.ticket responder.ticket (start port options).owed = 0 := rfl
  have howed := h.share_owed_pos
  rw [share_owed_relist hlisted] at howed ⊢
  refine ⟨by omega, List.length_eq_zero_iff.mp (by omega), ?_⟩
  intro r hr hticket
  have hpos := share_pos.mpr ⟨r, hr, hticket⟩
  omega

/-- Whatever else happens in a run, a datagram answers a request that was given the number `seq`
exactly if the request is pending and the messages with that number since then make up a reply,
which is the answer. Before the datagram they did not make up a reply. -/
theorem answer_iff_replyOf {t : PendingTable} (time : Time) (data : Bytes)
    (hruns : Runs (start port options) (before ++ ⟨taken, .take now joined⟩ :: later) x)
    (hdistinct : DistinctTickets (eventsIn (before ++ ⟨taken, .take now joined⟩ :: later)))
    (hfew : numberedIn (before ++ ⟨taken, .take now joined⟩ :: later) < UInt32.size - 1)
    (hregistered : taken.Registers request responder seq) (hlisted : t.Perm x.pending) :
    (x.IsPending responder.ticket →
        replyOf request.expectsAck (arrivals seq (eventsIn later)) = none) ∧
      ∀ response,
        response ∈ answersTo responder.ticket ((x.relist t).step (.receive time (.ok data))).2 ↔
          x.IsPending responder.ticket ∧
            replyOf request.expectsAck
                (arrivals seq (eventsIn later ++ [.receive time (.ok data)])) = some response := by
  obtain ⟨hone, -, hnew⟩ := hregistered.ticket_once hruns hdistinct
  have htidy : Tidy taken := hruns.tidy_moment (List.mem_append_right _ List.mem_cons_self)
  have hregister := hregistered.tracks_nothing (le_of_eq hone) now joined
  obtain ⟨rest, datagram, htake⟩ := hregistered.step_take now joined
  have hlast : (taken.step (.take now joined)).1.lastSeq = seq := by rw [htake]
  rw [List.append_cons, numberedIn_append] at hfew
  rw [List.append_cons] at hruns
  obtain ⟨y, hbefore, hlater⟩ := hruns.split
  obtain ⟨-, -, -, -, -, rfl⟩ := hbefore.of_concat
  -- from its registration on, the request is tracked to the end of the run
  have hunrepeated := hlater.unrepeated (htidy.step _) (by omega)
  rw [hlast] at hunrepeated
  have hafter := hregister.runs (htidy.step _) hlater hunrepeated hnew
  rw [List.nil_append] at hafter
  constructor
  · intro hpending
    rcases Option.ne_none_iff_exists'.mp ((hafter.isPending_iff hruns.tidy.nodup).mp hpending) with
      ⟨p, hp⟩
    exact replyOf_eq_none.mpr (hafter.collected p hp).2.2.2
  · intro response
    have hlistedPending : (x.relist t).IsPending responder.ticket ↔ x.IsPending responder.ticket := by
      unfold IsPending
      exact exists_congr fun e => and_congr_left fun _ => hlisted.mem_iff
    rw [arrivals_concat, ← hlistedPending]
    exact (hafter.relist hruns.tidy hlisted).mem_answersTo_receive (hruns.tidy.relist hlisted) time
      data response

/-- A request whose reply comes in several parts. -/
def listing : Request := (Request.ofCommand 28 3 1).dump

/-- Two such requests are handed over. -/
def twoListings : List ExchangeEvent :=
  [.submit (.send listing (.waiting 1)), .submit (.send listing (.waiting 2))]

/-- The parts of two replies, mixed. -/
def mixedReplies : List Message :=
  [⟨⟨20, 28, Flag.multi, 2, 7⟩, [1, 0, 0, 0]⟩, ⟨⟨20, 28, Flag.multi, 1, 7⟩, [2, 0, 0, 0]⟩,
    .doneReply 2 7, ⟨⟨20, 28, Flag.multi, 1, 7⟩, [3, 0, 0, 0]⟩, .doneReply 1 7]

/-- The datagram of the two replies. -/
def mixedDatagram : Bytes := mixedReplies.flatMap fun m => m.header.encode ++ m.payload

/-- The first of them is taken. -/
def listingTaken : Moment := ⟨(start 7 {}).after twoListings, .take 0 (.ok ())⟩

/-- Then the second, with the table listed as it is. -/
def secondTaken : Moment := ⟨(listingTaken.exchange.step listingTaken.event).1, .take 0 (.ok ())⟩

theorem runs_twoListings :
    Runs (start 7 {}) ((start 7 {}).moments twoListings ++ listingTaken :: [secondTaken])
      (secondTaken.exchange.step secondTaken.event).1 := by
  rw [List.append_cons]
  exact .next (.next (runs_moments _ twoListings) (.refl _)) (.refl _)

/-- The datagram comes when the table is listed backwards. -/
theorem answer_iff_replyOf_mixed :
    DistinctTickets
        (eventsIn ((start 7 {}).moments twoListings ++ listingTaken :: [secondTaken])) ∧
      numberedIn ((start 7 {}).moments twoListings ++ listingTaken :: [secondTaken]) <
        UInt32.size - 1 ∧
      listingTaken.exchange.Registers listing (.waiting 1) 1 ∧
      replyOf false (arrivals 1 (eventsIn [secondTaken])) = none ∧
      .ok [⟨⟨20, 28, Flag.multi, 1, 7⟩, [2, 0, 0, 0]⟩, ⟨⟨20, 28, Flag.multi, 1, 7⟩, [3, 0, 0, 0]⟩] ∈
        answersTo 1 (((secondTaken.exchange.step secondTaken.event).1.relist
          (secondTaken.exchange.step secondTaken.event).1.pending.reverse).step
            (.receive 5 (.ok mixedDatagram))).2 := by
  have hdistinct : DistinctTickets
      (eventsIn ((start 7 {}).moments twoListings ++ listingTaken :: [secondTaken])) := by
    rw [eventsIn_append, eventsIn_moments]
    decide
  have hfew : numberedIn ((start 7 {}).moments twoListings ++ listingTaken :: [secondTaken]) <
      UInt32.size - 1 := by
    decide +kernel
  have hregistered : listingTaken.exchange.Registers listing (.waiting 1) 1 :=
    ⟨rfl, ⟨_, rfl⟩, by decide, rfl, ⟨_, rfl⟩⟩
  have hmessages : (Datagram.messages mixedDatagram).1 = mixedReplies := by decide +kernel
  have harrivals : arrivals 1 [.take 0 (.ok ()), .receive 5 (.ok mixedDatagram)] =
      mixedReplies.filter (·.seq == 1) := by
    simp [arrivals, ExchangeEvent.messages, hmessages]
  have hpending : (secondTaken.exchange.step secondTaken.event).1.IsPending 1 :=
    ⟨_, List.mem_cons_self, rfl⟩
  have hanswer := answer_iff_replyOf 5 mixedDatagram runs_twoListings hdistinct hfew hregistered
    (List.reverse_perm _)
  have hnone := hanswer.1 hpending
  refine ⟨hdistinct, hfew, hregistered, hnone, (hanswer.2 _).mpr ⟨hpending, ?_⟩⟩
  have hevents : eventsIn [secondTaken] = [.take 0 (.ok ())] := rfl
  rw [hevents, List.singleton_append, harrivals]
  rfl

end Answer

end Exchange

end Vswitch
