import Mathlib
import Vswitch.Proofs.Exchange.Admission

/-!
# What goes over the wire

The datagrams of accepted requests are queued in the order in which their commands were taken, and
leave the queue in that order, whatever becomes of the requests meanwhile. Each of them is read back
as the request that it was made from.

* `transmissionsIn`, `queuedIn`: what the transport was handed, and what was queued for it;
* `Exchange.Acts.queued`: every event hands over or keeps what is queued, unless a send fails;
* `acceptedIn`, `Carries`: the accepted requests with their numbers, and the datagram of one;
* `Exchange.transmissions_carry_accepted`: the wire log of every run in which no send fails;
* `Exchange.not_forall_consecutive`: the numbers of the log are not always consecutive.
-/

namespace Vswitch

/-! ## Transmissions -/

/-- The datagram that an output hands to the transport. -/
def ExchangeOutput.transmission? : ExchangeOutput → Option (UInt32 × Bytes)
  | .transmitted seq datagram => some (seq, datagram)
  | _ => none

/-- The datagrams that the transport is handed, in order, with the numbers that they are queued
under. -/
def transmissionsIn (outs : List ExchangeOutput) : List (UInt32 × Bytes) :=
  outs.filterMap ExchangeOutput.transmission?

theorem transmissionsIn_append (outs outs' : List ExchangeOutput) :
    transmissionsIn (outs ++ outs') = transmissionsIn outs ++ transmissionsIn outs' := by
  simp [transmissionsIn]

/-- What callers are told is not for the transport. -/
theorem transmissionsIn_of_isReply {outs : List ExchangeOutput} (h : ∀ o ∈ outs, o.isReply = true) :
    transmissionsIn outs = [] := by
  refine List.filterMap_eq_nil_iff.mpr ?_
  intro o ho
  have hreply := h o ho
  cases o with
  | answer | joined | notified => rfl
  | transmitted => cases hreply

/-- Whether the event is a send that fails. -/
def ExchangeEvent.isRefusal : ExchangeEvent → Bool
  | .transmit _ (.error _) => true
  | _ => false

namespace Exchange

/-- What an event queues for the transport. -/
def queues (x : Exchange) (e : ExchangeEvent) : List (UInt32 × Bytes) :=
  ((x.admits e).filter fun r => decide r.Fits).map fun r =>
    (nextSeq x.lastSeq, r.datagram (nextSeq x.lastSeq) x.port)

section Queue

variable {x : Exchange} {e : ExchangeEvent} {r : Exchange × List ExchangeOutput} {now : Time}
  {joined : Except IoError Unit} {request : Request} {responder : Responder} {rest : List Command}

/-- Only a request that is given a number is queued. -/
theorem queues_of_not_numbers (h : x.numbers e = false) : x.queues e = [] := by
  rw [queues, admits_of_not_numbers h]
  rfl

/-- A registration puts behind the egress queue what its event queues. -/
theorem egress_register (hrunning : x.isRunning = true)
    (hcommands : x.commands = .send request responder :: rest) :
    ((x.popped rest).register now request responder).1.egress =
      x.egress ++ x.queues (.take now joined) := by
  rw [queues, admits_take hrunning hcommands]
  by_cases hroom : x.pending.length < x.options.maxPending
  · by_cases hfits : request.Fits
    · rw [register_fits (x := x.popped rest) hroom hfits, if_pos hroom]
      simp [hfits, popped]
    · rw [register_oversized (x := x.popped rest) hroom hfits, if_pos hroom]
      simp [hfits, popped]
  · rw [register_full (x := x.popped rest) (Nat.le_of_not_lt hroom), if_neg hroom]
    simp [popped]

/-- What was queued is handed to the transport or stays in the queue, and new datagrams come last; a
send that fails loses the oldest one. -/
theorem Acts.queued (hr : Acts x e r) (hx : Tidy x) :
    (transmissionsIn r.2 ++ r.1.egress).Sublist (x.egress ++ x.queues e) ∧
      (e.isRefusal = false → transmissionsIn r.2 ++ r.1.egress = x.egress ++ x.queues e) := by
  -- most events leave the queue alone
  have hkept (hreplies : ∀ o ∈ r.2, o.isReply = true) (hegress : r.1.egress = x.egress)
      (hnumbers : x.numbers e = false) :
      (transmissionsIn r.2 ++ r.1.egress).Sublist (x.egress ++ x.queues e) ∧
        (e.isRefusal = false → transmissionsIn r.2 ++ r.1.egress = x.egress ++ x.queues e) := by
    rw [transmissionsIn_of_isReply hreplies, hegress, queues_of_not_numbers hnumbers,
      List.append_nil, List.nil_append]
    exact ⟨.refl _, fun _ => rfl⟩
  cases hr with
  | quiet hq =>
    refine hkept (fun o ho => ExchangeOutput.isReply_of_isNotice (hq.outputs o ho)) ?_ hq.unnumbered
    rw [hq.frame]
  | @registers now joined request responder rest hrunning hcommands =>
    have hreplies :=
      ExchangeOutput.isReply_of_isAnswer (isAnswer_register (x.popped rest) now request responder)
    rw [transmissionsIn_of_isReply hreplies, List.nil_append, egress_register hrunning hcommands]
    exact ⟨.refl _, fun _ => rfl⟩
  | @transmits now sent seq datagram rest hegress =>
    rw [queues_of_not_numbers rfl, hegress, List.append_nil]
    exact ⟨.refl _, fun _ => rfl⟩
  | @refuses now error seq datagram rest hegress =>
    -- the datagram is gone without having been handed over
    refine ⟨?_, fun hsent => by cases hsent⟩
    have hrest : (complete { x with egress := rest } now seq (.error (.io error))).1.egress = rest := by
      rw [(onTable_complete { x with egress := rest } now seq _).frame]
    have hreplies := ExchangeOutput.isReply_of_isAnswer
      (isAnswer_complete { x with egress := rest } now seq (.error (.io error)))
    rw [transmissionsIn_of_isReply hreplies, hrest, hegress, queues_of_not_numbers rfl,
      List.append_nil, List.nil_append]
    exact List.sublist_cons_self _ _
  | @receives now data hrunning =>
    refine hkept ?_ ?_ rfl
    · rw [takeDatagram_messages]
      exact ExchangeOutput.isReply_of_isAnswer (isAnswer_takeMessages _ _ _)
    · rw [(onTable_takeDatagram x now data).frame]
  | loses hrunning herror => exact hkept (isReply_shutdown x _) rfl rfl
  | @sweeps now hrunning =>
    refine hkept (ExchangeOutput.isReply_of_isAnswer (isAnswer_sweep hx.nodup)) ?_ rfl
    rw [(onTable_sweep now hx.nodup).frame]
  | rests | closes => exact hkept (by simp) rfl rfl
  | reads =>
    rw [queues_of_not_numbers rfl, List.append_nil]
    exact ⟨.refl _, fun _ => rfl⟩

end Queue

end Exchange

/-! ## Accepted requests -/

/-- What is queued for the transport at the moments of a run. -/
def queuedIn (trace : List Moment) : List (UInt32 × Bytes) :=
  trace.flatMap fun m => m.exchange.queues m.event

/-- The accepted requests of a run in the order in which their commands were taken, each with the
place of its number. A request that is too long for a datagram takes a number all the same. -/
def acceptedIn (trace : List Moment) : List (Request × Nat) :=
  ((admittedIn trace).zipIdx 1).filter fun a => decide a.1.Fits

/-- A request and the place of its number, as they are queued. -/
def queuedAs (port : UInt32) (a : Request × Nat) : UInt32 × Bytes :=
  (UInt32.ofNat a.2, a.1.datagram (UInt32.ofNat a.2) port)

/-- A datagram is that of a request with its number: read back it is one message and nothing else,
which says what the request says. -/
def Carries (port : UInt32) (a : Request × Nat) (q : UInt32 × Bytes) : Prop :=
  q.1.toNat = a.2 ∧
    ∃ m, Datagram.next q.2 = .message m [] ∧ Datagram.messages q.2 = ([m], none) ∧
      m.seq = q.1 ∧ m.header.port = port ∧ m.type = a.1.family ∧ m.header.flags = a.1.flags ∧
        m.genericParts = .ok (a.1.header, a.1.body)

/-- What is queued for an accepted request carries it, under its number. -/
theorem carries_queuedAs {port : UInt32} {a : Request × Nat} (hfits : a.1.Fits)
    (hn : a.2 < UInt32.size) : Carries port a (queuedAs port a) := by
  have hnext : Datagram.next (queuedAs port a).2 =
      .message (a.1.toMessage (UInt32.ofNat a.2) port).stamped [] := Request.next_datagram hfits
  refine ⟨UInt32.toNat_ofNat_of_lt' hn, _, hnext, Datagram.messages_of_next hnext, rfl, rfl, rfl, rfl,
    ?_⟩
  exact a.1.genericParts_stamped _ _

section Logs

variable (trace : List Moment) (m : Moment)

theorem queuedIn_concat :
    queuedIn (trace ++ [m]) = queuedIn trace ++ m.exchange.queues m.event := by
  simp [queuedIn]

/-- It adds the request it admits, if the encoder accepts it, under the next number. -/
theorem acceptedIn_concat :
    acceptedIn (trace ++ [m]) =
      acceptedIn trace ++ ((m.exchange.admits m.event).zipIdx (numberedIn trace + 1)).filter
        fun a => decide a.1.Fits := by
  rw [acceptedIn, admittedIn_concat, List.zipIdx_append, List.filter_append, length_admittedIn,
    Nat.add_comm 1]
  rfl

variable {trace}

/-- An accepted request fits, and its number was given out. -/
theorem mem_acceptedIn {a : Request × Nat} (h : a ∈ acceptedIn trace) :
    a.1.Fits ∧ a.2 ≤ numberedIn trace := by
  rcases List.mem_filter.mp h with ⟨hmem, hfits⟩
  have hlt := List.snd_lt_add_of_mem_zipIdx hmem
  rw [length_admittedIn] at hlt
  exact ⟨of_decide_eq_true hfits, by omega⟩

/-- Unless a request is too long, the accepted ones have the numbers one, two, three and so on. -/
theorem map_snd_acceptedIn (h : ∀ r ∈ admittedIn trace, r.Fits) :
    (acceptedIn trace).map Prod.snd = List.range' 1 (acceptedIn trace).length := by
  have hall : acceptedIn trace = (admittedIn trace).zipIdx 1 := by
    refine List.filter_eq_self.mpr ?_
    intro a ha
    exact decide_eq_true (h a.1 (List.fst_mem_of_mem_zipIdx ha))
  rw [hall, List.zipIdx_map_snd, List.length_zipIdx]

end Logs

/-! ## Runs -/

namespace Exchange

/-- Zero is nobody's number. -/
theorem nextSeq_ne_zero (seq : UInt32) : nextSeq seq ≠ 0 := by
  unfold nextSeq
  split_ifs with hzero
  · decide
  · exact hzero

/-- What is queued is the accepted request under its number. -/
theorem Ordered.queues_eq {x : Exchange} {e : ExchangeEvent} {n : Nat} (h : Ordered x n)
    (hn : n + (x.numbers e).toNat < UInt32.size) :
    x.queues e =
      (((x.admits e).zipIdx (n + 1)).filter fun a => decide a.1.Fits).map (queuedAs x.port) := by
  rcases hnumbers : x.numbers e with _ | _
  · rw [queues_of_not_numbers hnumbers, admits_of_not_numbers hnumbers]
    rfl
  · have hlength := length_admits x e
    rw [hnumbers, Bool.toNat_true] at hlength hn
    rcases List.length_eq_one_iff.mp hlength with ⟨request, hadmits⟩
    have hseq : nextSeq x.lastSeq = UInt32.ofNat (n + 1) := by
      rw [← UInt32.toNat_inj, toNat_nextSeq (by rw [h.last]; exact hn), h.last,
        UInt32.toNat_ofNat_of_lt' hn]
    rw [queues, hadmits, hseq]
    by_cases hfits : request.Fits
    · simp [hfits, queuedAs]
    · simp [hfits]

section Runs

variable {port : UInt32} {options : ExchangeOptions} {trace : List Moment} {x : Exchange}

/-- What is handed over was waiting at first or was queued since, and goes in that order. -/
theorem Runs.sublist_waiting {x₀ : Exchange} (h₀ : Tidy x₀) (h : Runs x₀ trace x) :
    (transmissionsIn (outputsOf trace) ++ x.egress).Sublist (x₀.egress ++ queuedIn trace) := by
  induction h with
  | init =>
    rw [queuedIn, List.flatMap_nil, List.append_nil]
    exact .refl _
  | @next trace x t e h hlisted ih =>
    have hstep := (((x.relist t).acts e).queued ((h₀.runs h).relist hlisted)).1
    rw [outputsOf_concat, transmissionsIn_append, queuedIn_concat, List.append_assoc]
    refine (hstep.append_left _).trans ?_
    rw [← List.append_assoc, ← List.append_assoc]
    exact ih.append_right _

/-- What is sent or waits to be sent was queued, in this order. -/
theorem Runs.sublist_queuedIn (h : Runs (start port options) trace x) :
    (transmissionsIn (outputsOf trace) ++ x.egress).Sublist (queuedIn trace) :=
  h.sublist_waiting (.start port options)

/-- Where no sending fails, nothing that was queued is missing. -/
theorem Runs.queuedIn_eq (h : Runs (start port options) trace x)
    (hsends : ∀ m ∈ trace, m.event.isRefusal = false) :
    transmissionsIn (outputsOf trace) ++ x.egress = queuedIn trace := by
  induction h with
  | init => rfl
  | @next trace x t e h hlisted ih =>
    have hsent : e.isRefusal = false := hsends ⟨x.relist t, e⟩ (by simp)
    have hstep := (((x.relist t).acts e).queued (h.tidy.relist hlisted)).2 hsent
    have hbefore := ih fun m hm => hsends m (List.mem_append_left _ hm)
    rw [outputsOf_concat, transmissionsIn_append, queuedIn_concat, List.append_assoc, hstep,
      ← List.append_assoc, ← hbefore]
    rfl

/-- Until the numbers come round, what is queued is what the accepted requests make of theirs. -/
theorem Runs.queuedIn_eq_map (h : Runs (start port options) trace x)
    (hfew : numberedIn trace < UInt32.size) :
    queuedIn trace = (acceptedIn trace).map (queuedAs port) := by
  induction h with
  | init => rfl
  | @next trace x t e h hlisted ih =>
    rw [numberedIn_concat] at hfew
    have hordered := (h.ordered (by omega)).relist hlisted
    have hport : (x.relist t).port = port := (h.settings_eq (.start port options)).1
    rw [queuedIn_concat, acceptedIn_concat, List.map_append, ih (by omega),
      hordered.queues_eq hfew, hport]

/-- Nothing is queued under the number zero. -/
theorem ne_zero_of_mem_queuedIn {q : UInt32 × Bytes} (h : q ∈ queuedIn trace) : q.1 ≠ 0 := by
  rcases List.mem_flatMap.mp h with ⟨m, -, hq⟩
  rcases List.mem_map.mp hq with ⟨r, -, rfl⟩
  exact nextSeq_ne_zero _

/-- If no send fails, the datagrams handed to the transport and those that still wait are those of
the accepted requests, one for each, in the order in which their commands were taken. Their numbers
are one, two, three and so on, as long as no request that takes a number is too long to be sent. Zero
is no number. -/
theorem transmissions_carry_accepted (h : Runs (start port options) trace x)
    (hfew : numberedIn trace < UInt32.size) (hsends : ∀ m ∈ trace, m.event.isRefusal = false) :
    (∃ sent waiting, acceptedIn trace = sent ++ waiting ∧
        List.Forall₂ (Carries port) sent (transmissionsIn (outputsOf trace)) ∧
        List.Forall₂ (Carries port) waiting x.egress ∧
        ((∀ r ∈ admittedIn trace, r.Fits) → sent.map Prod.snd = List.range' 1 sent.length)) ∧
      ∀ q ∈ transmissionsIn (outputsOf trace) ++ x.egress, q.1 ≠ 0 := by
  have hlog := h.queuedIn_eq_map hfew
  rw [← h.queuedIn_eq hsends] at hlog
  -- what was queued is one datagram for each accepted request: cut it where the queue begins
  rcases List.map_eq_append_iff.mp hlog.symm with ⟨sent, waiting, hsplit, hsent, hwaiting⟩
  have hcarries : ∀ a ∈ acceptedIn trace, Carries port a (queuedAs port a) := by
    intro a ha
    have haccepted := mem_acceptedIn ha
    exact carries_queuedAs haccepted.1 (Nat.lt_of_le_of_lt haccepted.2 hfew)
  rw [hsplit] at hcarries
  refine ⟨⟨sent, waiting, hsplit, ?_, ?_, ?_⟩, ?_⟩
  · rw [← hsent, List.forall₂_map_right_iff, List.forall₂_same]
    exact fun a ha => hcarries a (List.mem_append_left _ ha)
  · rw [← hwaiting, List.forall₂_map_right_iff, List.forall₂_same]
    exact fun a ha => hcarries a (List.mem_append_right _ ha)
  · intro hfits
    have hnumbers := map_snd_acceptedIn hfits
    rw [hsplit, List.map_append, List.length_append, ← List.range'_append] at hnumbers
    exact (List.append_inj hnumbers (by simp)).1
  · intro q hq
    exact ne_zero_of_mem_queuedIn (h.sublist_queuedIn.subset hq)

/-- An exchange with room for three requests. -/
def crowded : Exchange := start 7 { maxPending := 3 }

/-- Four requests, of which the table refuses the last; two are sent, and then all are given up. -/
def crowdedRun : List ExchangeEvent :=
  [.submit (.send (.ofCommand 28 1 1) (.waiting 1)),
    .submit (.send ((Request.ofCommand 29 2 1).withBody [1, 2, 3]) (.waiting 2)),
    .submit (.send (Request.ofCommand 28 3 1).dump (.waiting 3)),
    .submit (.send (.ofCommand 28 1 1) (.waiting 4)),
    .take 0 (.ok ()), .transmit 0 (.ok 20), .take 0 (.ok ()), .take 0 (.ok ()), .take 0 (.ok ()),
    .transmit 0 (.ok 24), .sweep (Time.ofSeconds 6)]

/-- The third datagram waits on, though nobody waits for its reply. -/
theorem transmissions_carry_accepted_crowdedRun :
    Runs crowded (crowded.moments crowdedRun) (crowded.after crowdedRun) ∧
      (crowded.after crowdedRun).egress.length = 1 ∧
      ∃ sent waiting, acceptedIn (crowded.moments crowdedRun) = sent ++ waiting ∧
        sent.map Prod.snd = [1, 2] ∧
        List.Forall₂ (Carries 7) sent (transmissionsIn (outputsOf (crowded.moments crowdedRun))) ∧
        List.Forall₂ (Carries 7) waiting (crowded.after crowdedRun).egress := by
  have hruns := runs_moments crowded crowdedRun
  have hfew : numberedIn (crowded.moments crowdedRun) < UInt32.size := by decide +kernel
  have hsends : ∀ m ∈ crowded.moments crowdedRun, m.event.isRefusal = false := by decide +kernel
  have hfits : ∀ r ∈ admittedIn (crowded.moments crowdedRun), r.Fits := by decide +kernel
  have htwo : (transmissionsIn (outputsOf (crowded.moments crowdedRun))).length = 2 := by
    decide +kernel
  rcases transmissions_carry_accepted hruns hfew hsends with
    ⟨⟨sent, waiting, hsplit, hsent, hwaiting, hnumbers⟩, -⟩
  have hlength := hsent.length_eq
  rw [htwo] at hlength
  refine ⟨hruns, by decide +kernel, sent, waiting, hsplit, ?_, hsent, hwaiting⟩
  rw [hnumbers hfits, hlength]
  rfl

/-- Two requests of which the first may be too long; the datagram of the second is sent. -/
def overlongRun (request : Request) : List ExchangeEvent :=
  [.submit (.send request (.waiting 1)), .submit (.send (.ofCommand 28 1 1) (.waiting 2)),
    .take 0 (.ok ()), .take 0 (.ok ()), .transmit 0 (.ok 20)]

/-- A request that is refused because it is too long takes a number, so the next one has the second. -/
theorem transmissionsIn_overlongRun {request : Request} (hlong : ¬ request.Fits) :
    (transmissionsIn (outputsOf ((start 7 {}).moments (overlongRun request)))).map Prod.fst = [2] := by
  -- the first two events only hand the commands over
  obtain ⟨x, hx⟩ : ∃ x, x = (start 7 {}).after ((overlongRun request).take 2) := ⟨_, rfl⟩
  have hcommands : x.commands = [.send request (.waiting 1), .send (.ofCommand 28 1 1) (.waiting 2)] :=
    hx ▸ rfl
  have hrefused := (x.take_send 0 (.ok ()) (hx ▸ rfl) hcommands).1
  rw [register_oversized (hx ▸ Nat.zero_lt_succ 4095) hlong] at hrefused
  have hlog : outputsOf ((start 7 {}).moments (overlongRun request)) =
      (x.step (.take 0 (.ok ()))).2 ++
        outputsOf ((x.step (.take 0 (.ok ()))).1.moments ((overlongRun request).drop 3)) := by
    rw [hx]
    rfl
  rw [hlog, hrefused, hx]
  rfl

/-- The numbers of the datagrams that are sent need not be consecutive: a request that is refused because
a length field cannot say its length has taken one. -/
theorem not_forall_consecutive :
    ¬ ∀ (port : UInt32) (options : ExchangeOptions) (trace : List Moment) (x : Exchange),
      Runs (start port options) trace x → numberedIn trace < UInt32.size - 1 →
      (∀ m ∈ trace, m.event.isRefusal = false) →
        (transmissionsIn (outputsOf trace)).map Prod.fst =
          (List.range' 1 (transmissionsIn (outputsOf trace)).length).map UInt32.ofNat := by
  intro hall
  obtain ⟨request, hlong⟩ := Request.exists_not_fits
  have hsent := transmissionsIn_overlongRun hlong
  have hone := congrArg List.length hsent
  rw [List.length_map, List.length_singleton] at hone
  have hconsecutive := hall 7 {} _ _ (runs_moments _ (overlongRun request)) ?_ ?_
  · rw [hsent, hone] at hconsecutive
    revert hconsecutive
    decide
  · exact List.countP_le_length.trans_lt (by simp [overlongRun, moments])
  · simp [overlongRun, moments, ExchangeEvent.isRefusal]

end Runs

end Exchange

end Vswitch
