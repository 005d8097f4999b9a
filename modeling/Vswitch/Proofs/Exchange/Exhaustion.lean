import Mathlib
import Vswitch.Proofs.Exchange.Resolution

/-!
# When the numbers run out

Nothing keeps a sequence number from being given out again while the request that has it is pending.
Once all other numbers were given out, the next request takes the number and the place in the table,
and the request that had them is never answered. It takes no more for that than a request that waits
long enough and others that are answered at once, one after another.

* `Exchange.Runs.answersTo_displaced`: whoever loses his place in the table is never answered;
* `Exchange.Holds`, `Exchange.Holds.probe`, `Exchange.Holds.probes`: a request waits while others are
  answered;
* `Exchange.waiting_mem_displacedOf_wholeRound`: any request that waits for a whole round of the numbers
  loses its place.
-/

namespace Vswitch

namespace Exchange

/-! ## Callers that lose their place -/

section Displaced

variable {port : UInt32} {options : ExchangeOptions} {trace : List Moment} {x : Exchange}
  {r : Responder}

/-- Whoever loses his place in the table is not answered, neither before nor after that. -/
theorem Runs.answersTo_displaced (h : Runs (start port options) trace x)
    (hdistinct : DistinctTickets (eventsIn trace)) (hr : r ∈ displacedOf trace) :
    answersTo r.ticket (outputsOf trace) = [] := by
  have hlaw := h.share_eq (a := r.ticket) Responder.ticket_abandon (.start port options)
  have hnothing : share Responder.ticket r.ticket (start port options).owed = 0 := rfl
  have honce : share Responder.ticket r.ticket (submitters (eventsIn trace)) ≤ 1 :=
    List.nodup_iff_count_le_one.mp hdistinct r.ticket
  have hlost : 0 < share Responder.ticket r.ticket (displacedOf trace) := share_pos.mpr ⟨r, hr, rfl⟩
  have hlength : (answersTo r.ticket (outputsOf trace)).length =
      share Responder.ticket r.ticket (answered (outputsOf trace)) := length_answersTo _ _
  apply List.length_eq_zero_iff.mp
  omega

/-- Whoever loses his place is counted. -/
theorem displacedIn_pos (hr : r ∈ displacedOf trace) : 0 < displacedIn trace := by
  obtain ⟨m, hm, hdisplaced⟩ := List.mem_flatMap.mp hr
  refine List.countP_pos_iff.mpr ⟨m, hm, ?_⟩
  rw [displaced] at hdisplaced
  split_ifs at hdisplaced with hplace
  · exact hplace
  · cases hdisplaced

end Displaced

/-! ## A request that waits while others are answered -/

/-- The request with number 1 is the only one that is pending, nothing else is left to do, and `k` was
given out last. -/
structure Holds (x : Exchange) (p : Pending) (k : Nat) : Prop where
  running : x.isRunning = true
  commands : x.commands = []
  egress : x.egress = []
  pending : x.pending = [(1, p)]
  room : 1 < x.options.maxPending
  last : x.lastSeq.toNat = k

/-- The request that only asks whether somebody is there. -/
def probeRequest : Request := .ofCommand 28 1 1

/-- The request of the caller `k`, which gets the number `k`, is sent, and is answered. -/
def probe (k : Nat) : List ExchangeEvent :=
  [.submit (.send probeRequest (.waiting k)), .take 0 (.ok ()), .transmit 0 (.ok 20),
    .receive 0 (.ok (Message.doneReply (UInt32.ofNat k) 7).octets)]

/-- The callers from 2 on ask one after another. -/
def probes (n : Nat) : List ExchangeEvent := (List.range' 2 n).flatMap probe

theorem probes_succ (n : Nat) : probes (n + 1) = probes n ++ probe (n + 2) := by
  rw [probes, List.range'_1_concat, List.flatMap_append, Nat.add_comm 2 n]
  simp [probes]

/-- There are that many callers, together with one that waits, when its number comes round. Stated as
an existence, since lists of that length are not to be computed. -/
theorem exists_round : ∃ n, n + 2 = UInt32.size := ⟨UInt32.size - 2, rfl⟩

theorem fits_probeRequest : probeRequest.Fits := by decide

/-- The end of a reply is a datagram of one message. -/
theorem messages_doneReply (seq port : UInt32) :
    Datagram.messages (Message.doneReply seq port).octets = ([.doneReply seq port], none) := by
  refine Datagram.messages_octets (.doneReply seq port) ?_
  show 20 < UInt32.size
  decide

section Holding

variable {x : Exchange} {p : Pending} {k n : Nat} {request : Request} {responder : Responder}
  {now : Time} {seq : UInt32}

/-- A request that is handed over, taken and sent is pending, and nothing else is left to do. -/
theorem after_sent (hrunning : x.isRunning = true) (hcommands : x.commands = [])
    (hegress : x.egress = []) (hroom : x.pending.length < x.options.maxPending)
    (hfits : request.Fits) (octets : Nat) :
    x.after [.submit (.send request responder), .take now (.ok ()), .transmit now (.ok octets)] =
      { x with
        lastSeq := nextSeq x.lastSeq
        pending := PendingTable.insert x.pending (nextSeq x.lastSeq)
          (x.entry now request responder)
        tally := x.tally.countRequest.countSent octets } := by
  have htaken := (({ x with commands := [.send request responder] } : Exchange).take_send now (.ok ())
    hrunning rfl).1.trans (register_fits (x := { x with commands := [] }) hroom hfits)
  rw [after_cons, submit_running hrunning, hcommands, List.nil_append, after_cons, htaken,
    after_cons, after_nil]
  simp [step, transmit, hrunning, hegress, entry]

/-- The end of its reply answers a request. -/
theorem receive_doneReply (hrunning : x.isRunning = true)
    (hp : PendingTable.find? x.pending seq = some p) (port : UInt32) :
    x.step (.receive now (.ok (Message.doneReply seq port).octets)) =
      (x.counting (Message.doneReply seq port).octets).complete now seq (.ok ()) := by
  have hverdict : Verdict.ofMessage p.expectsAck (.doneReply seq port) = .final (.ok ()) := rfl
  have htype : (Message.doneReply seq port).type ≠ MessageType.noop := by
    show MessageType.done ≠ MessageType.noop
    decide
  have hmessage : (x.counting (Message.doneReply seq port).octets).takeMessage now
      (.doneReply seq port) = _ := takeMessage_pending htype hp
  rw [hverdict] at hmessage
  simp only [step, hrunning, if_true, receive]
  rw [takeDatagram_messages, messages_doneReply]
  simp only [takeMessages, List.append_nil, countingRest, hmessage]
  rfl

/-- A request that is answered while another one waits leaves that one where it is. -/
theorem Holds.probe (h : x.Holds p k) (hpos : 0 < k) (hfew : k + 1 < UInt32.size) :
    (x.after (probe (k + 1))).Holds p (k + 1) := by
  have hnext : (nextSeq x.lastSeq).toNat = k + 1 := by
    rw [toNat_nextSeq (by rw [h.last]; exact hfew), h.last]
  have hseq : UInt32.ofNat (k + 1) = nextSeq x.lastSeq := by
    rw [← hnext, UInt32.ofNat_toNat]
  -- below the wrap the new number is not that of the request which waits
  have hother : nextSeq x.lastSeq ≠ 1 := by
    intro hone
    rw [hone, UInt32.toNat_one] at hnext
    omega
  have hroom : x.pending.length < x.options.maxPending := by
    rw [h.pending]
    exact h.room
  have hinsert : PendingTable.erase (PendingTable.insert x.pending (nextSeq x.lastSeq)
      (x.entry 0 probeRequest (.waiting (k + 1)))) (nextSeq x.lastSeq) = [(1, p)] := by
    rw [h.pending]
    simp [PendingTable.insert, PendingTable.erase, hother.symm]
  have hevents : Exchange.probe (k + 1) =
      [.submit (.send probeRequest (.waiting (k + 1))), .take 0 (.ok ()), .transmit 0 (.ok 20)] ++
        [.receive 0 (.ok (Message.doneReply (UInt32.ofNat (k + 1)) 7).octets)] := rfl
  rw [hevents, after_append, after_sent h.running h.commands h.egress hroom fits_probeRequest,
    after_cons, after_nil, hseq]
  rw [receive_doneReply (by exact h.running) PendingTable.find?_insert_self,
    complete_of_find? PendingTable.find?_insert_self]
  exact ⟨h.running, h.commands, h.egress, hinsert, h.room, hnext⟩

/-- So do any number of them. -/
theorem Holds.probes (h : x.Holds p 1) (hfew : n + 1 < UInt32.size) :
    (x.after (probes n)).Holds p (n + 1) := by
  induction n with
  | zero => exact h
  | succ n ih =>
    rw [probes_succ, after_append]
    exact (ih (by omega)).probe (Nat.succ_pos n) hfew

/-- After the last number, the request that is taken next displaces the one that waits. -/
theorem Holds.displaced_take (h : x.Holds p k) (hround : k + 1 = UInt32.size)
    (responder : Responder) (joined : Except IoError Unit) :
    (x.step (.submit (.send probeRequest responder))).1.displaced (.take now joined) =
      [p.responder] := by
  have hnext : nextSeq x.lastSeq = 1 := by
    rw [← UInt32.toNat_inj, toNat_nextSeq_last (by rw [h.last]; exact hround), UInt32.toNat_one]
  have hfind : PendingTable.find? x.pending (nextSeq x.lastSeq) = some p := by
    rw [hnext, h.pending]
    rfl
  have hroom : x.pending.length < x.options.maxPending := by
    rw [h.pending]
    exact h.room
  rw [submit_running h.running, h.commands, List.nil_append]
  refine (Exchange.displaced_take (x := { x with commands := [.send probeRequest responder] })
    h.running rfl hroom fits_probeRequest).trans ?_
  rw [hfind]
  rfl

/-! ## A whole round of the numbers -/

/-- An exchange in which requests wait for days. -/
def patient : Exchange := start 7 { timeout := Time.ofSeconds 1000000 }

/-- The request of the caller 1 is sent, and the callers up to `n + 1` are answered. -/
def waited (request : Request) (n : Nat) : List ExchangeEvent :=
  .submit (.send request (.waiting 1)) :: .take 0 (.ok ()) :: .transmit 0 (.ok 20) :: probes n

/-- What happens until the number comes round once the first request was taken: it is sent, the others
are answered, and one more caller asks. -/
def roundEvents (n : Nat) : List ExchangeEvent :=
  .transmit 0 (.ok 20) ::
    (probes n ++ ([.submit (.send probeRequest (.waiting (n + 2))), .take 0 (.ok ())] :
      List ExchangeEvent))

/-- A whole round of the numbers. -/
def wholeRound (request : Request) (n : Nat) : List ExchangeEvent :=
  .submit (.send request (.waiting 1)) :: .take 0 (.ok ()) :: roundEvents n

theorem wholeRound_eq (request : Request) (n : Nat) :
    wholeRound request n =
      waited request n ++ [.submit (.send probeRequest (.waiting (n + 2)))] ++
        [.take 0 (.ok ())] := by
  simp [wholeRound, roundEvents, waited]

/-- The first request waits while the others are answered. -/
theorem holds_waited (hfits : request.Fits) (hfew : n + 1 < UInt32.size) :
    (patient.after (waited request n)).Holds (patient.entry 0 request (.waiting 1)) (n + 1) := by
  have hroom : 1 < patient.options.maxPending := by decide
  have hsplit : waited request n = [.submit (.send request (.waiting 1)), .take 0 (.ok ()),
      .transmit 0 (.ok 20)] ++ probes n := rfl
  rw [hsplit, after_append, after_sent (x := patient) rfl rfl rfl (by decide) hfits 20]
  exact Holds.probes ⟨rfl, rfl, rfl, rfl, hroom, rfl⟩ hfew

/-- A request that waits until all other numbers were given out loses its place. -/
theorem waiting_mem_displacedOf_wholeRound (hfits : request.Fits) (hround : n + 2 = UInt32.size) :
    .waiting 1 ∈ displacedOf (patient.moments (wholeRound request n)) := by
  have hholds := holds_waited hfits (n := n) (by omega)
  rw [wholeRound_eq, moments_concat, displacedOf_concat, after_concat,
    hholds.displaced_take hround (.waiting (n + 2)) (.ok ())]
  exact List.mem_append_right _ List.mem_cons_self

/-- Nothing in the round ends the exchange. -/
theorem isRunning_wholeRound (hfits : request.Fits) (hfew : n + 1 < UInt32.size) :
    (patient.after (wholeRound request n)).isRunning = true := by
  have hholds := holds_waited hfits hfew
  have htaken := ((patient.after (waited request n)).step
    (.submit (.send probeRequest (.waiting (n + 2))))).1.take_send 0 (.ok ())
      (by rw [submit_running hholds.running]; exact hholds.running)
      (by rw [submit_running hholds.running, hholds.commands]; rfl)
  rw [wholeRound_eq, after_concat, after_concat, htaken.1, register_frame,
    submit_running hholds.running]
  exact hholds.running

theorem submitters_probes (n : Nat) :
    submitters (probes n) = (List.range' 2 n).map Responder.waiting := by
  induction n with
  | zero => rfl
  | succ n ih =>
    rw [probes_succ, submitters_append, ih, List.range'_1_concat, List.map_append, Nat.add_comm 2 n]
    rfl

/-- The callers of the round have the tickets from 1 on, each its own. -/
theorem submitters_wholeRound (request : Request) (n : Nat) :
    submitters (wholeRound request n) = (List.range' 1 (n + 2)).map Responder.waiting := by
  have hwaited : submitters (waited request n) = .waiting 1 :: submitters (probes n) := rfl
  have htaken : submitters [.take 0 (.ok ())] = [] := rfl
  rw [wholeRound_eq, submitters_append, submitters_append, htaken, List.append_nil, hwaited,
    submitters_probes, List.range'_succ, List.range'_1_concat, List.map_cons,
    List.map_append, Nat.add_comm (1 + 1) n]
  rfl

/-- Every caller of a round has a ticket of its own, and what is heard after it is no request. -/
theorem distinctTickets_wholeRound (request : Request) (n : Nat) (now : Time)
    (result : Except IoError Bytes) :
    DistinctTickets (wholeRound request n ++ [.receive now result]) := by
  have hnothing : submitters [.receive now result] = [] := rfl
  unfold DistinctTickets
  rw [submitters_append, hnothing, List.append_nil, submitters_wholeRound, List.map_map]
  exact List.Nodup.map Function.injective_id List.nodup_range'

/-- Nothing fails in a round: requests are handed over, taken, sent and answered. -/
theorem mem_roundEvents {e : ExchangeEvent} (h : e ∈ roundEvents n) :
    (∃ command, e = .submit command) ∨ e = .take 0 (.ok ()) ∨ e = .transmit 0 (.ok 20) ∨
      ∃ data, e = .receive 0 (.ok data) := by
  simp only [roundEvents, probes, List.mem_append, List.mem_cons, List.mem_flatMap,
    List.not_mem_nil, or_false, Exchange.probe] at h
  grind

/-- There are four kinds of events in the round, and none of them is a failure. -/
theorem mem_wholeRound {e : ExchangeEvent} (h : e ∈ wholeRound request n) :
    (∃ command, e = .submit command) ∨ e = .take 0 (.ok ()) ∨ e = .transmit 0 (.ok 20) ∨
      ∃ data, e = .receive 0 (.ok data) := by
  rcases List.mem_cons.mp h with rfl | h
  · exact Or.inl ⟨_, rfl⟩
  rcases List.mem_cons.mp h with rfl | h
  · exact Or.inr (Or.inl rfl)
  · exact mem_roundEvents h

end Holding

end Exchange

end Vswitch
