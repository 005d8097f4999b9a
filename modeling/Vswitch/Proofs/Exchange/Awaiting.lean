import Mathlib
import Vswitch.Proofs.Exchange.Correlation

/-!
# Waiting for a whole reply

A caller is told data only by a datagram that completes its reply; whatever else ends a request is an
error. A request waits for that datagram as long as its caller is there, its deadline has not come, and
the transport has neither refused it nor failed. All that is asked of the numbers is that its own is not
given out again while it waits.

* `Exchange.Tracks.replyOf_of_mem_answersTo`: data that a caller is told is its whole reply;
* `Exchange.Awaits`, `Exchange.Spares`: a request that waits, and the events that let it wait;
* `Exchange.Awaits.step`, `Exchange.Awaits.runs`: it waits until its reply is complete;
* `Exchange.Registration`: a run in which a request is registered;
* `Exchange.Registration.answers_of_complete`, `Exchange.Registration.answers_of_delivers`: it is
  answered with its complete reply, once.
-/

namespace Vswitch

/-- An answer to a caller is an output with its ticket. -/
theorem mem_answersTo {ticket : Nat} {outs : List ExchangeOutput} {response : Response} :
    response ∈ answersTo ticket outs ↔
      ∃ responder, .answer responder response ∈ outs ∧ responder.ticket = ticket := by
  constructor
  · intro h
    obtain ⟨o, ho, hanswer⟩ := List.mem_filterMap.mp h
    cases o with
    | answer responder other =>
      dsimp only at hanswer
      split_ifs at hanswer with hticket
      obtain rfl := Option.some.inj hanswer
      exact ⟨responder, ho, hticket⟩
    | joined | transmitted | notified => cases hanswer
  · rintro ⟨responder, ho, hticket⟩
    exact List.mem_filterMap.mpr ⟨_, ho, if_pos hticket⟩

namespace Exchange

section Waiting

variable {x y : Exchange} {seq : UInt32} {ticket : Nat} {deadline : Time} {ack : Bool}
  {ms : List Message} {e : ExchangeEvent}

/-! ## Data comes from datagrams -/

/-- Nothing but a datagram answers with data. -/
theorem Acts.datagram_of_answer {r : Exchange × List ExchangeOutput} (hr : Acts x e r)
    (hk : (PendingTable.keys x.pending).Nodup) {responder : Responder} {parts : List Message}
    (h : .answer responder (.ok parts) ∈ r.2) : ∃ now data, e = .receive now (.ok data) := by
  -- everything else answers with an error, or not at all
  cases hr with
  | quiet hquiet => cases hquiet.outputs _ h
  | @registers now joined request owner rest hrunning hcommands =>
    rcases (x.popped rest).register_cases now request owner with
      ⟨-, heq⟩ | ⟨-, error, -, heq⟩ | ⟨-, datagram, -, heq⟩
    · rw [heq] at h
      cases List.mem_singleton.mp h
    · rw [heq] at h
      cases List.mem_singleton.mp h
    · rw [heq] at h
      cases h
  | transmits hegress => cases List.mem_singleton.mp h
  | @refuses now error s datagram rest hegress =>
    rcases hp : PendingTable.find? x.pending s with _ | p
    · rw [complete_of_none (x := { x with egress := rest }) hp] at h
      cases h
    · rw [complete_of_find? (x := { x with egress := rest }) hp] at h
      cases List.mem_singleton.mp h
  | @receives now data hrunning => exact ⟨now, data, rfl⟩
  | loses hrunning herror =>
    rcases List.mem_append.mp h with h | h
    · obtain ⟨entry, -, hlost⟩ := List.mem_map.mp h
      cases hlost
    · obtain ⟨command, -, hlate⟩ := List.mem_map.mp h
      cases command <;> cases hlate
  | sweeps hrunning =>
    rw [sweep_eq hk] at h
    obtain ⟨entry, -, hdue⟩ := List.mem_map.mp h
    cases hdue
  | rests | closes => cases h
  | reads => cases List.mem_singleton.mp h

/-- When the number of a request is given out again, the request loses its place to the new one, unless
that is refused. -/
theorem Tracks.take_again (h : Tracks x seq ticket ack ms)
    (hk : (PendingTable.keys x.pending).Nodup) {now : Time} {joined : Except IoError Unit}
    (hnumbers : x.numbers (.take now joined) = true) (hagain : nextSeq x.lastSeq = seq) :
    Tracks (x.step (.take now joined)).1 seq ticket ack ms ∨
      ∀ r ∈ (x.step (.take now joined)).1.owed, r.ticket ≠ ticket := by
  rcases hc : x.commands with _ | ⟨⟨request, responder⟩ | _, rest⟩
  · simp [numbers, hc] at hnumbers
  · simp only [numbers, hc, Bool.and_eq_true, decide_eq_true_eq] at hnumbers
    obtain ⟨hrunning, hroom⟩ := hnumbers
    have hqueued := queued_of_send hc
    have hrest : ∀ r ∈ (x.popped rest).queued, r ∈ x.queued := by
      intro r hr
      rw [hqueued]
      exact List.mem_cons_of_mem _ hr
    rw [(x.take_send now joined hrunning hc).1]
    -- the number is taken before the message is encoded, but the entry only after that
    rcases he : Datagram.encode (request.toMessage (nextSeq (x.popped rest).lastSeq)
      (x.popped rest).port) with error | datagram
    · left
      rw [register_refused (x := x.popped rest) hroom he]
      exact h.of_subset hk (fun e he => he) hrest
    · right
      rw [register_accepted (x := x.popped rest) hroom he]
      intro r hr hticket
      rcases List.mem_append.mp hr with hr | hr
      · exact h.unqueued r (hrest r hr) hticket
      obtain ⟨e, hmem, rfl⟩ := List.mem_map.mp hr
      rcases List.mem_append.mp hmem with hmem | hmem
      · obtain ⟨hold, hother⟩ := PendingTable.mem_erase.mp hmem
        exact hother ((h.only e hold hticket).trans hagain.symm)
      · rw [List.mem_singleton.mp hmem] at hticket
        exact h.unqueued responder (by rw [hqueued]; exact List.mem_cons_self) hticket
  · simp [numbers, hc] at hnumbers

/-- A request is tracked as long as its caller is owed an answer. -/
theorem Tracks.step_or_unowed (h : Tracks x seq ticket ack ms) (hx : Tidy x) (e : ExchangeEvent)
    (hnew : ∀ r ∈ submitters [e], r.ticket ≠ ticket) :
    Tracks (x.step e).1 seq ticket ack (ms ++ e.messages.filter (·.seq == seq)) ∨
      ∀ r ∈ (x.step e).1.owed, r.ticket ≠ ticket := by
  by_cases hne : x.numbers e = true → nextSeq x.lastSeq ≠ seq
  · exact Or.inl (h.step hx e hne hnew)
  · push Not at hne
    cases e with
    | take now joined =>
      have hmessages : (ExchangeEvent.take now joined).messages = [] := rfl
      rw [hmessages, List.filter_nil, List.append_nil]
      exact h.take_again hx.nodup hne.1 hne.2
    | _ => cases hne.1

/-- A caller that is owed nothing is told nothing, and owed nothing after that. -/
theorem unowed_step (hx : Tidy x) (howed : ∀ r ∈ x.owed, r.ticket ≠ ticket) (e : ExchangeEvent)
    (hnew : ∀ r ∈ submitters [e], r.ticket ≠ ticket) :
    answersTo ticket (x.step e).2 = [] ∧ ∀ r ∈ (x.step e).1.owed, r.ticket ≠ ticket := by
  have hlaw := share_step (a := ticket) Responder.ticket_abandon hx e
  have hlength : (answersTo ticket (x.step e).2).length =
      share Responder.ticket ticket (answered (x.step e).2) := length_answersTo _ _
  rw [share_eq_zero howed, share_eq_zero hnew] at hlaw
  constructor
  · exact List.length_eq_zero_iff.mp (by omega)
  · intro r hr hticket
    have hpos := share_pos.mpr ⟨r, hr, hticket⟩
    omega

/-- Who is owed an answer does not depend on the order of the table. -/
theorem owed_relist (x : Exchange) {t : PendingTable} (hlisted : t.Perm x.pending) {r : Responder} :
    r ∈ (x.relist t).owed ↔ r ∈ x.owed := by
  have hresponders : (PendingTable.responders t).Perm (PendingTable.responders x.pending) :=
    hlisted.map _
  have hqueued : (x.relist t).queued = x.queued := rfl
  have hpending : (x.relist t).pending = t := rfl
  rw [owed, owed, hqueued, hpending, List.mem_append, List.mem_append, hresponders.mem_iff]

/-- The data that a caller is told in a run is the reply that all messages of its request make up. As
long as it is owed an answer, its request is tracked. -/
theorem Tracks.replyOf_of_mem_answersTo {x₀ : Exchange} {trace : List Moment}
    (h : Tracks x₀ seq ticket ack ms) (h₀ : Tidy x₀) (hruns : Runs x₀ trace x)
    (hnew : ∀ r ∈ submitters (eventsIn trace), r.ticket ≠ ticket) :
    (Tracks x seq ticket ack (ms ++ arrivals seq (eventsIn trace)) ∨
        ∀ r ∈ x.owed, r.ticket ≠ ticket) ∧
      ∀ parts, .ok parts ∈ answersTo ticket (outputsOf trace) →
        replyOf ack (ms ++ arrivals seq (eventsIn trace)) = some (.ok parts) := by
  induction hruns with
  | init =>
    refine ⟨.inl ?_, fun parts hanswer => by cases hanswer⟩
    rwa [eventsIn, List.map_nil, arrivals, List.flatMap_nil, List.filter_nil, List.append_nil]
  | @next trace x t e hbefore hlisted ih =>
    rw [eventsIn_concat, submitters_append] at hnew
    have hnow : ∀ r ∈ submitters [e], r.ticket ≠ ticket :=
      fun r hr => hnew r (List.mem_append_right _ hr)
    obtain ⟨hstate, hreplies⟩ := ih fun r hr => hnew r (List.mem_append_left _ hr)
    have hx := (h₀.runs hbefore).relist hlisted
    rw [eventsIn_concat, arrivals_concat, ← List.append_assoc, outputsOf_concat, answersTo_append]
    -- once nobody is owed an answer, no later event gives one
    cases hstate with
    | inl htracks =>
      have hlistedTracks := htracks.relist (h₀.runs hbefore) hlisted
      refine ⟨hlistedTracks.step_or_unowed hx e hnow, ?_⟩
      intro parts hanswer
      rcases List.mem_append.mp hanswer with hearlier | hlast
      · exact replyOf_append (hreplies parts hearlier) _
      · obtain ⟨responder, ho, -⟩ := mem_answersTo.mp hlast
        obtain ⟨now, data, rfl⟩ := ((x.relist t).acts e).datagram_of_answer hx.nodup ho
        exact ((hlistedTracks.mem_answersTo_receive hx now data _).mp hlast).2
    | inr howed =>
      have hunowed := unowed_step hx (fun r hr => howed r ((owed_relist x hlisted).mp hr)) e hnow
      refine ⟨.inr hunowed.2, ?_⟩
      intro parts hanswer
      rw [hunowed.1, List.append_nil] at hanswer
      exact replyOf_append (hreplies parts hanswer) _

/-! ## Requests that wait -/

/-- The request with number `seq` waits until its deadline for the caller of a ticket, who is there. -/
structure Awaits (x : Exchange) (seq : UInt32) (ticket : Nat) (deadline : Time) : Prop where
  running : x.isRunning = true
  entry : ∃ p, PendingTable.find? x.pending seq = some p ∧ p.deadline = deadline ∧
    p.responder = .waiting ticket

/-- An event does not make the exchange give up the request: the caller does not go away, the deadline
does not come, and the transport neither refuses the request nor fails. -/
def Spares (x : Exchange) (seq : UInt32) (ticket : Nat) (deadline : Time) : ExchangeEvent → Prop
  | .abandon gone => gone ≠ ticket
  | .transmit _ (.error _) => ∀ q ∈ x.egress.head?, q.1 ≠ seq
  | .receive _ (.error error) => error.isOverrun = true
  | .sweep now => now < deadline
  | _ => True

/-- No event of a run makes the exchange give up the request. -/
def SparesIn (seq : UInt32) (ticket : Nat) (deadline : Time) (trace : List Moment) : Prop :=
  ∀ m ∈ trace, m.exchange.Spares seq ticket deadline m.event

/-! ### Messages -/

/-- What is still pending has the deadline and the caller that it had. -/
def Retains (x y : Exchange) : Prop :=
  ∀ s q, PendingTable.find? y.pending s = some q →
    ∃ p, PendingTable.find? x.pending s = some p ∧ p.deadline = q.deadline ∧
      p.responder = q.responder

theorem Retains.refl (x : Exchange) : Retains x x := fun _ q hq => ⟨q, hq, rfl, rfl⟩

/-- What is retained twice is retained. -/
theorem Retains.trans {z : Exchange} (h : Retains x y) (h' : Retains y z) : Retains x z := by
  intro s r hr
  obtain ⟨q, hq, hdeadline, hresponder⟩ := h' s r hr
  obtain ⟨p, hp, hdeadline', hresponder'⟩ := h s q hq
  exact ⟨p, hp, hdeadline'.trans hdeadline, hresponder'.trans hresponder⟩

/-- The end of one request leaves the others where they are. -/
theorem find?_complete_of_ne (x : Exchange) (now : Time) (result : Except ExchangeError Unit)
    {s : UInt32} (h : seq ≠ s) :
    PendingTable.find? (x.complete now s result).1.pending seq =
      PendingTable.find? x.pending seq := by
  rcases hp : PendingTable.find? x.pending s with _ | p
  · rw [complete_of_none hp]
  · rw [complete_of_find? hp]
    exact PendingTable.find?_erase_of_ne h

/-- Answering a request changes no other one. -/
theorem retains_complete (x : Exchange) (now : Time) (seq : UInt32)
    (result : Except ExchangeError Unit) : Retains x (x.complete now seq result).1 := by
  intro s q hq
  by_cases hs : s = seq
  · subst hs
    rcases hp : PendingTable.find? x.pending s with _ | p
    · rw [complete_of_none hp] at hq
      cases hp.symm.trans hq
    · rw [complete_of_find? hp] at hq
      cases PendingTable.find?_erase_self.symm.trans hq
  · exact ⟨q, (find?_complete_of_ne x now result hs).symm.trans hq, rfl, rfl⟩

/-- A part of a response changes neither the deadline nor the caller. -/
theorem retains_extend {m : Message} {p : Pending}
    (hp : PendingTable.find? x.pending m.seq = some p) : Retains x (x.extend m) := by
  intro s q hq
  by_cases hs : s = m.seq
  · subst hs
    obtain rfl := Option.some.inj ((find?_extend_self hp).symm.trans hq)
    exact ⟨p, hp, rfl, rfl⟩
  · exact ⟨q, (find?_extend_of_ne hs).symm.trans hq, rfl, rfl⟩

theorem retains_takeMessage (x : Exchange) (now : Time) (m : Message) :
    Retains x (x.takeMessage now m).1 := by
  by_cases hnoop : m.type = MessageType.noop
  · rw [takeMessage_noop hnoop]
    exact .refl x
  rcases hp : PendingTable.find? x.pending m.seq with _ | p
  · have hpending : (x.takeUnsolicited m).pending = x.pending := by
      unfold takeUnsolicited
      split_ifs <;> rfl
    rw [takeMessage_unsolicited hnoop hp]
    intro s q hq
    rw [hpending] at hq
    exact ⟨q, hq, rfl, rfl⟩
  · rw [takeMessage_pending hnoop hp]
    cases Verdict.ofMessage p.expectsAck m with
    | part => exact retains_extend hp
    | lastPart => exact (retains_extend hp).trans (retains_complete _ now m.seq _)
    | final result => exact retains_complete x now m.seq result

/-- By induction on the messages, each of which retains what is left. -/
theorem retains_takeMessages (x : Exchange) (now : Time) (ms : List Message) :
    Retains x (x.takeMessages now ms).1 := by
  induction ms generalizing x with
  | nil => exact .refl x
  | cons m rest ih => exact (retains_takeMessage x now m).trans (ih _)

theorem retains_takeDatagram (x : Exchange) (now : Time) (data : Bytes) :
    Retains x (x.takeDatagram now data).1 := by
  obtain ⟨tally, heq⟩ := takeDatagram_eq x now data
  rw [heq]
  exact retains_takeMessages (x.counting data) now _

/-! ### Events -/

namespace Awaits

/-- What leaves the request where it is lets it wait. -/
theorem of_find? (h : Awaits x seq ticket deadline) (hrunning : y.isRunning = x.isRunning)
    (hfind : PendingTable.find? y.pending seq = PendingTable.find? x.pending seq) :
    Awaits y seq ticket deadline where
  running := hrunning.trans h.running
  entry := by
    rw [hfind]
    exact h.entry

theorem take (h : Awaits x seq ticket deadline) (now : Time) (joined : Except IoError Unit)
    (hne : x.numbers (.take now joined) = true → nextSeq x.lastSeq ≠ seq) :
    Awaits (x.step (.take now joined)).1 seq ticket deadline := by
  rcases hc : x.commands with _ | ⟨⟨request, responder⟩ | _, rest⟩
  · rw [(take_nil hc).1]
    exact h
  · have htake := x.take_send now joined h.running hc
    rw [htake.1]
    rcases (x.popped rest).register_cases now request responder with
      ⟨-, heq⟩ | ⟨-, error, -, heq⟩ | ⟨hroom, datagram, -, heq⟩
    · rw [heq]
      exact h.of_find? rfl rfl
    · rw [heq]
      exact h.of_find? rfl rfl
    · rw [heq]
      have hother : seq ≠ nextSeq x.lastSeq := (hne (htake.2.trans (decide_eq_true hroom))).symm
      exact h.of_find? rfl (PendingTable.find?_insert_of_ne hother)
  · rw [(take_join h.running hc).1]
    exact h.of_find? rfl rfl

theorem transmit (h : Awaits x seq ticket deadline) {now : Time} {result : Except IoError Nat}
    (hspares : x.Spares seq ticket deadline (.transmit now result)) :
    Awaits (x.step (.transmit now result)).1 seq ticket deadline := by
  simp only [Exchange.step, h.running, if_true]
  unfold Exchange.transmit
  rcases hq : x.egress with _ | ⟨⟨s, datagram⟩, rest⟩
  · exact h
  rcases result with error | _
  · have hne : s ≠ seq := hspares (s, datagram) (by rw [hq]; rfl)
    exact h.of_find? (onTable_complete { x with egress := rest } now s _).isRunning
      (find?_complete_of_ne { x with egress := rest } now _ hne.symm)
  · exact h.of_find? rfl rfl

/-- A sweep before the deadline does not touch the request. -/
theorem sweep (h : Awaits x seq ticket deadline) (hx : Tidy x) {now : Time}
    (hearly : now < deadline) : Awaits (x.step (.sweep now)).1 seq ticket deadline := by
  obtain ⟨p, hp, hdeadline, hresponder⟩ := h.entry
  have hdue : p.isDue now = false := by
    rw [Pending.isDue, hdeadline, hresponder, decide_eq_false (Nat.not_le.mpr hearly)]
    rfl
  simp only [Exchange.step, h.running, if_true]
  rw [sweep_eq hx.nodup]
  refine ⟨h.running, p, ?_, hdeadline, hresponder⟩
  refine PendingTable.find?_of_mem ((List.filter_sublist.map Prod.fst).nodup hx.nodup) ?_
  exact List.mem_filter.mpr ⟨PendingTable.mem_of_find? hp, by simp [hdue]⟩

/-- A datagram that does not complete the reply lets the request wait. -/
theorem receive (h : Awaits x seq ticket deadline) (ht : Tracks x seq ticket ack ms)
    (hx : Tidy x) (now : Time) (data : Bytes)
    (hunfinished : replyOf ack (ms ++ (Datagram.messages data).1.filter (·.seq == seq)) = none) :
    Awaits (x.step (.receive now (.ok data))).1 seq ticket deadline := by
  obtain ⟨p, hp, hdeadline, hresponder⟩ := h.entry
  have hsettles := (ht.takeDatagram hx.nodup now data).2.2 (by rw [hp]; exact Option.some_ne_none p)
  rw [hunfinished] at hsettles
  obtain ⟨q, hq⟩ := Option.ne_none_iff_exists'.mp hsettles.1
  obtain ⟨p', hp', hdeadline', hresponder'⟩ := retains_takeDatagram x now data seq q hq
  obtain rfl := Option.some.inj (hp.symm.trans hp')
  simp only [Exchange.step, h.running, if_true, Exchange.receive]
  exact ⟨(onTable_takeDatagram x now data).isRunning.trans h.running, q, hq,
    hdeadline'.symm.trans hdeadline, hresponder'.symm.trans hresponder⟩

/-- An event that spares the request and does not complete its reply lets it wait. -/
theorem step (h : Awaits x seq ticket deadline) (ht : Tracks x seq ticket ack ms) (hx : Tidy x)
    (e : ExchangeEvent) (hne : x.numbers e = true → nextSeq x.lastSeq ≠ seq)
    (hspares : x.Spares seq ticket deadline e)
    (hunfinished : replyOf ack (ms ++ e.messages.filter (·.seq == seq)) = none) :
    Awaits (x.step e).1 seq ticket deadline := by
  cases e with
  | submit command =>
    rw [submit_running h.running]
    exact h.of_find? rfl rfl
  | abandon gone =>
    obtain ⟨p, hp, hdeadline, hresponder⟩ := h.entry
    refine ⟨h.running, p.abandon gone, ?_, hdeadline, ?_⟩
    · show PendingTable.find? (PendingTable.abandon x.pending gone) seq = _
      rw [PendingTable.find?_abandon, hp]
      rfl
    · have hother : (ticket == gone) = false := beq_eq_false_iff_ne.mpr (Ne.symm hspares)
      rw [Pending.abandon, hresponder, Responder.waiting, Responder.abandon, hother]
      rfl
  | take now joined => exact h.take now joined hne
  | transmit now result => exact h.transmit hspares
  | receive now result =>
    rcases result with error | data
    · -- replies that were lost are no failure of the transport
      have hoverrun : error.isOverrun = true := hspares
      simp only [Exchange.step, h.running, if_true, Exchange.receive, hoverrun]
      exact h
    · exact h.receive ht hx now data hunfinished
  | sweep now => exact h.sweep hx hspares
  | rest =>
    -- an exchange does not come to rest over a request that waits
    obtain ⟨p, hp, -⟩ := h.entry
    have hbusy : x.isIdle = false := by
      have hne : x.pending ≠ [] := by
        intro hnil
        rw [hnil] at hp
        cases hp
      simp [isIdle, hne]
    refine h.of_find? ?_ rfl
    simp [Exchange.step, hbusy]
  | readNotification =>
    simp only [Exchange.step, readNotification]
    rcases x.notifications with _ | ⟨m, rest⟩
    · exact h
    · exact h.of_find? rfl rfl
  | dropHandles | closeNotifications => exact h.of_find? rfl rfl

/-- The order in which the table is listed does not matter. -/
theorem relist (h : Awaits x seq ticket deadline) (hx : Tidy x) {t : PendingTable}
    (hlisted : t.Perm x.pending) : Awaits (x.relist t) seq ticket deadline := by
  obtain ⟨p, hp, hrest⟩ := h.entry
  refine ⟨h.running, p, PendingTable.find?_of_mem (hx.relist hlisted).nodup ?_, hrest⟩
  exact hlisted.symm.subset (PendingTable.mem_of_find? hp)

/-- A run of such events lets it wait. -/
theorem runs {x₀ : Exchange} {trace : List Moment} (h : Awaits x₀ seq ticket deadline)
    (ht : Tracks x₀ seq ticket ack ms) (h₀ : Tidy x₀) (hruns : Runs x₀ trace x)
    (hunrepeated : Unrepeated seq trace)
    (hnew : ∀ r ∈ submitters (eventsIn trace), r.ticket ≠ ticket)
    (hspares : SparesIn seq ticket deadline trace)
    (hunfinished : replyOf ack (ms ++ arrivals seq (eventsIn trace)) = none) :
    Awaits x seq ticket deadline := by
  induction hruns with
  | init => exact h
  | @next trace x t e hbefore hlisted ih =>
    rw [eventsIn_concat, submitters_append] at hnew
    rw [eventsIn_concat, arrivals_concat, ← List.append_assoc] at hunfinished
    -- what the whole run does not complete, the run without its last event does not
    have hearlier : replyOf ack (ms ++ arrivals seq (eventsIn trace)) = none := by
      rcases hreply : replyOf ack (ms ++ arrivals seq (eventsIn trace)) with _ | response
      · rfl
      · cases (replyOf_append hreply _).symm.trans hunfinished
    have hunrepeated' : Unrepeated seq trace :=
      fun m hm => hunrepeated m (List.mem_append_left _ hm)
    have hnew' : ∀ r ∈ submitters (eventsIn trace), r.ticket ≠ ticket :=
      fun r hr => hnew r (List.mem_append_left _ hr)
    have hlast : (⟨x.relist t, e⟩ : Moment) ∈ trace ++ [⟨x.relist t, e⟩] :=
      List.mem_append_right _ List.mem_cons_self
    have hx := h₀.runs hbefore
    have hwaits := ih hunrepeated' hnew' (fun m hm => hspares m (List.mem_append_left _ hm)) hearlier
    have htracks := ht.runs h₀ hbefore hunrepeated' hnew'
    exact (hwaits.relist hx hlisted).step (htracks.relist hx hlisted) (hx.relist hlisted) e
      (hunrepeated _ hlast) (hspares _ hlast) hunfinished

end Awaits

end Waiting

/-! ## Requests that are registered -/

section Registered

variable {request : Request} {ticket : Nat} {seq : UInt32}

/-- A run in which a request is registered: what happens until its command is taken, and what happens
then. Every request of the run has a ticket of its own. -/
structure Registration (request : Request) (ticket : Nat) (seq : UInt32) where
  port : UInt32
  options : ExchangeOptions
  before : List Moment
  /-- The exchange at the moment at which the command is taken. -/
  taken : Exchange
  now : Time
  joined : Except IoError Unit
  later : List Moment
  final : Exchange
  runs : Runs (start port options) (before ++ ⟨taken, .take now joined⟩ :: later) final
  distinct : DistinctTickets (eventsIn (before ++ ⟨taken, .take now joined⟩ :: later))
  registers : taken.Registers request (.waiting ticket) seq

namespace Registration

/-- The exchange right after the registration. -/
def registered (run : Registration request ticket seq) : Exchange :=
  (run.taken.step (.take run.now run.joined)).1

/-- The moments of the run. -/
def moments (run : Registration request ticket seq) : List Moment :=
  run.before ++ ⟨run.taken, .take run.now run.joined⟩ :: run.later

/-- What the caller is told in the run. -/
def answers (run : Registration request ticket seq) : List Response :=
  answersTo ticket (outputsOf run.moments)

/-- The time from which on a sweep gives the request up. -/
def deadline (run : Registration request ticket seq) : Time :=
  run.now + request.timeout.getD run.options.timeout

variable (run : Registration request ticket seq)

theorem tidy_taken : Tidy run.taken :=
  run.runs.tidy_moment (List.mem_append_right _ List.mem_cons_self)

theorem tidy : Tidy run.registered := run.tidy_taken.step _

theorem lastSeq_registered : run.registered.lastSeq = seq := by
  obtain ⟨rest, datagram, htake⟩ := run.registers.step_take run.now run.joined
  rw [registered, htake]

/-- What comes after the registration is a run from there. -/
theorem runs_later : Runs run.registered run.later run.final := by
  have hruns := run.runs
  rw [List.append_cons] at hruns
  obtain ⟨y, hbefore, hlater⟩ := hruns.split
  obtain ⟨-, -, -, -, -, rfl⟩ := hbefore.of_concat
  exact hlater

/-- A request that is registered waits. -/
theorem awaits : Awaits run.registered seq ticket run.deadline := by
  obtain ⟨rest, datagram, htake⟩ := run.registers.step_take run.now run.joined
  obtain ⟨y, t, hbefore, -, htaken⟩ := run.runs.at_moment
  have hoptions : run.taken.options = run.options := by
    have hsettings := (hbefore.settings_eq (.start run.port run.options)).2
    rw [show run.taken = y.relist t from htaken]
    exact hsettings
  rw [registered, htake]
  refine ⟨run.registers.running, _, PendingTable.find?_insert_self, ?_, rfl⟩
  show run.now + request.timeout.getD run.taken.options.timeout = run.deadline
  rw [hoptions]
  rfl

theorem ticket_once :
    share Responder.ticket ticket run.taken.owed = 1 ∧
      answersTo ticket (outputsOf run.before) = [] ∧
      ∀ r ∈ submitters (eventsIn run.later), r.ticket ≠ ticket :=
  run.registers.ticket_once run.runs run.distinct

theorem tracks : Tracks run.registered seq ticket request.expectsAck [] :=
  run.registers.tracks_nothing (le_of_eq run.ticket_once.1) run.now run.joined

/-- What the caller is told, it is told after the registration. -/
theorem answers_eq : run.answers = answersTo ticket (outputsOf run.later) := by
  obtain ⟨rest, datagram, htake⟩ := run.registers.step_take run.now run.joined
  have hquiet : (run.taken.step (.take run.now run.joined)).2 = [] := by rw [htake]
  rw [answers, moments, List.append_cons, outputsOf_append, outputsOf_concat, hquiet,
    List.append_nil, answersTo_append, run.ticket_once.2.1, List.nil_append]

/-- The caller is told one thing at most. -/
theorem length_answers_le_one : run.answers.length ≤ 1 := by
  have hlaw := run.runs.length_answersTo_le (.start run.port run.options) ticket
  have hnothing : share Responder.ticket ticket (start run.port run.options).owed = 0 := rfl
  have honce : share Responder.ticket ticket (submitters (eventsIn run.moments)) ≤ 1 :=
    List.nodup_iff_count_le_one.mp run.distinct ticket
  rw [answers]
  rw [moments] at honce ⊢
  omega

/-- The data that the caller is told is the whole reply, whatever happens. -/
theorem replyOf_of_mem_answers {parts : List Message} (hanswer : .ok parts ∈ run.answers) :
    replyOf request.expectsAck (arrivals seq (eventsIn run.later)) = some (.ok parts) := by
  rw [run.answers_eq] at hanswer
  exact (run.tracks.replyOf_of_mem_answersTo run.tidy run.runs_later run.ticket_once.2.2).2 parts
    hanswer

/-- A request that is spared until a datagram completes its reply is answered with that reply, and with
nothing else. -/
theorem answers_of_complete {during rest : List Moment} {y : Exchange} {time : Time} {data : Bytes}
    (hlater : run.later = during ++ ⟨y, .receive time (.ok data)⟩ :: rest)
    (hfew : numberedIn during < UInt32.size - 1)
    (hspares : SparesIn seq ticket run.deadline during)
    (hunfinished : replyOf request.expectsAck (arrivals seq (eventsIn during)) = none)
    {response : Response}
    (hreply : replyOf request.expectsAck (arrivals seq (eventsIn during) ++
      (Datagram.messages data).1.filter (·.seq == seq)) = some response) :
    run.answers = [response] := by
  have hruns := run.runs_later
  have hnew := run.ticket_once.2.2
  rw [hlater] at hruns
  rw [hlater, eventsIn_append, submitters_append] at hnew
  obtain ⟨z, t, hduring, hlisted, rfl⟩ := hruns.at_moment
  have hunrepeated := hduring.unrepeated run.tidy hfew
  rw [run.lastSeq_registered] at hunrepeated
  have hnew' : ∀ r ∈ submitters (eventsIn during), r.ticket ≠ ticket :=
    fun r hr => hnew r (List.mem_append_left _ hr)
  have hz := run.tidy.runs hduring
  have hwaits := run.awaits.runs run.tracks run.tidy hduring hunrepeated hnew' hspares hunfinished
  have htracks := run.tracks.runs run.tidy hduring hunrepeated hnew'
  rw [List.nil_append] at htracks
  -- the request still waits when the datagram comes
  have hpending : (z.relist t).IsPending ticket := by
    obtain ⟨p, hp, -, hresponder⟩ := (hwaits.relist hz hlisted).entry
    exact ⟨_, PendingTable.mem_of_find? hp, by rw [hresponder]; rfl⟩
  have hanswer := ((htracks.relist hz hlisted).mem_answersTo_receive (hz.relist hlisted) time data
    response).mpr ⟨hpending, hreply⟩
  have hmem : response ∈ run.answers := by
    rw [run.answers_eq, hlater, List.append_cons, outputsOf_append, outputsOf_concat,
      answersTo_append, answersTo_append]
    exact List.mem_append_left _ (List.mem_append_right _ hanswer)
  obtain ⟨only, honly⟩ := List.length_eq_one_iff.mp
    (Nat.le_antisymm run.length_answers_le_one (List.length_pos_of_mem hmem))
  rw [honly] at hmem ⊢
  rw [List.mem_singleton.mp hmem]

/-- Data comes to the request in several parts, spread over datagrams in any way and among whatever else
comes, and then the end of the reply; `during` is what happens before the datagram of the end. -/
structure Brings (during : List Moment) (parts : List Message) (done : Message) : Prop where
  data : ∀ m ∈ parts, m.isData = true ∧ m.isMulti = true
  ends : done.type = MessageType.done
  arrives : ∃ y time datagram after last rest,
    run.later = during ++ ⟨y, .receive time (.ok datagram)⟩ :: after ∧
      parts = arrivals seq (eventsIn during) ++ last ∧
      (Datagram.messages datagram).1.filter (·.seq == seq) = last ++ done :: rest

/-- All that comes before the request is given up: no sweep comes at its deadline, the transport neither
refuses its datagram nor fails, the caller stays, and its number is not given out again. -/
def Delivers (parts : List Message) (done : Message) : Prop :=
  ∃ during, run.Brings during parts done ∧ SparesIn seq ticket run.deadline during ∧
    numberedIn during < UInt32.size - 1

/-- The caller is told all parts in the order in which they came, or the error that the end carries. -/
theorem answers_of_delivers {parts : List Message} {done : Message} (h : run.Delivers parts done) :
    run.answers = [done.outcome.map fun _ => parts] := by
  obtain ⟨during, ⟨hdata, hends, y, time, datagram, after, last, rest, hlater, hparts, hmessages⟩,
    hspares, hfew⟩ := h
  have hopen : ∀ m ∈ parts, m.endsReply request.expectsAck = false :=
    fun m hm => endsReply_multi (hdata m hm).1 (hdata m hm).2
  have hunfinished : replyOf request.expectsAck (arrivals seq (eventsIn during)) = none := by
    refine replyOf_eq_none.mpr fun m hm => hopen m ?_
    rw [hparts]
    exact List.mem_append_left _ hm
  have hdone : done.endsReply request.expectsAck = true := by
    simp [Message.endsReply, hends]
  have hreport : done.isData = false := by
    simp [Message.isData, hends]
  have hfilter : (parts ++ [done]).filter Message.isData = parts := by
    rw [List.filter_append, List.filter_eq_self.mpr fun m hm => (hdata m hm).1,
      List.filter_singleton, hreport]
    exact List.append_nil parts
  refine run.answers_of_complete hlater hfew hspares hunfinished ?_
  rw [hmessages, ← List.append_assoc, ← hparts, List.append_cons]
  refine replyOf_append ?_ rest
  rw [replyOf_concat hopen hdone, hfilter]

end Registration

end Registered

end Exchange

end Vswitch
