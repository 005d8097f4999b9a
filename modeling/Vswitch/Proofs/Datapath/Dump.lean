import Mathlib
import Vswitch.Proofs.Computation
import Vswitch.Proofs.Datapath.Request
import Vswitch.Proofs.Exchange.Awaiting
import Vswitch.Proofs.Exchange.Exhaustion

/-!
# Dumps are complete or fail

All datapaths, all ports and all flows are asked for in the same way: the reply comes in any number of
parts, and each part is read by itself. A list that is told is the reading of the whole reply, part by
part and in order. It is told if the reply ends as it should and every part can be read; otherwise an
error is.

* `Operation.dump`: what the three operations have in common;
* `Operation.Reads`: a list is the reading of the parts of a reply;
* `Operation.CompleteOrFails`: what is told about a dump, in whatever run;
* `Operation.enumerations_complete_or_fail`: it holds of the three operations;
* `Operation.not_forall_concludes`: a reply that comes in time does not always reach the caller.
-/

namespace Vswitch

namespace Operation

variable {α : Type} {decode : DatapathMessage → Except AttrError α} {families : Families}
  {family : DatapathFamily} {index : Int32} {parts : List Message} {values : List α}

/-! ## Requests -/

/-- Asks for all objects of a family that belong to a datapath, and reads them one by one. -/
def dump (families : Families) (family : DatapathFamily) (index : Int32)
    (decode : DatapathMessage → Except AttrError α) : Operation (List α) where
  request := Request.dump <$> families.request family DatapathCommand.get index []
  finish response := do every decode (← replies response)

/-- The request of a dump names the family and the datapath, and nothing else. -/
def dumpRequest (families : Families) (family : DatapathFamily) (index : Int32) : Request :=
  ((Request.ofCommand (families.get family).id DatapathCommand.get
    family.requestVersion).withBody (Bytes.le32 index.toUInt32)).dump

theorem request_dump :
    (dump families family index decode).request = .ok (dumpRequest families family index) := rfl

/-- A dump asks for no acknowledgement: its end is a message of its own. -/
theorem expectsAck_dumpRequest : (dumpRequest families family index).expectsAck = false := by
  show Flag.isSet (Flag.request ||| Flag.dump) Flag.ack = false
  decide

/-- A dump has next to no body, and so the encoder accepts it. -/
theorem fits_dumpRequest : (dumpRequest families family index).Fits := by
  have hlength : (dumpRequest families family index).body.length = 4 := Bytes.length_le32 _
  exact Request.fits_of_body (Nat.zero_le 1024) (by omega)

/-- A dump that is taken by an exchange with room in its table is registered. -/
theorem registers_dumpRequest {x : Exchange} {responder : Responder} {rest : List Command}
    (hrunning : x.isRunning = true)
    (holdest : x.commands = .send (dumpRequest families family index) responder :: rest)
    (hroom : x.pending.length < x.options.maxPending) :
    x.Registers (dumpRequest families family index) responder (Exchange.nextSeq x.lastSeq) :=
  ⟨hrunning, ⟨rest, holdest⟩, hroom, rfl, ⟨_, Request.encode_of_fits fits_dumpRequest⟩⟩

/-! ## Readings -/

/-- The reading of one part. -/
def readPart (decode : DatapathMessage → Except AttrError α) (m : Message) :
    Except DatapathError α := do
  (decode (← DatapathMessage.decode m)).mapError .attr

/-- The values are the readings of the parts, one of each and in the same order. -/
def Reads (decode : DatapathMessage → Except AttrError α) (parts : List Message)
    (values : List α) : Prop :=
  List.Forall₂ (fun m value => readPart decode m = .ok value) parts values

/-- A dump that is answered yields the value of every part, or nothing. -/
theorem finish_dump_ok :
    (dump families family index decode).finish (.ok parts) = .ok values ↔
      Reads decode parts values := mapM_bind_mapM_eq_ok

/-- An error of the exchange is passed on as it is. -/
theorem finish_dump_error (error : ExchangeError) :
    (dump families family index decode).finish (.error error) = .error (.exchange error) := rfl

/-- Parts that can be read make up a list. -/
theorem exists_finish_dump (h : ∀ m ∈ parts, ∃ value, readPart decode m = .ok value) :
    ∃ values, (dump families family index decode).finish (.ok parts) = .ok values ∧
      Reads decode parts values := by
  obtain ⟨values, hvalues⟩ := exists_forall₂_iff.mpr h
  exact ⟨values, finish_dump_ok.mpr hvalues, hvalues⟩

/-- One part that cannot be read fails the dump. -/
theorem finish_dump_fails (h : ∃ m ∈ parts, ∀ value, readPart decode m ≠ .ok value) :
    ∃ error, (dump families family index decode).finish (.ok parts) = .error error := by
  obtain ⟨m, hm, hfails⟩ := h
  cases hfinish : (dump families family index decode).finish (.ok parts) with
  | error error => exact ⟨error, rfl⟩
  | ok values =>
    obtain ⟨value, hvalue⟩ := exists_forall₂_iff.mp ⟨values, finish_dump_ok.mp hfinish⟩ m hm
    exact absurd hvalue (hfails value)

/-! ## Complete or failed -/

/-- A dump is complete or fails, in every run in which its request is registered. -/
structure CompleteOrFails (op : Operation (List α)) (request : Request)
    (decode : DatapathMessage → Except AttrError α) : Prop where
  /-- The exchange is handed the request. -/
  starts : ∀ x responder,
    op.start x responder = (x.step (.submit (.send request responder)), none)
  /-- Whatever happens, a list is the reading of all data up to the end of the reply. -/
  whole : ∀ {ticket seq} (run : Exchange.Registration request ticket seq) (values : List α),
    (∃ response ∈ run.answers, op.finish response = .ok values) →
      ∃ parts, replyOf false (arrivals seq (eventsIn run.later)) = some (.ok parts) ∧
        Reads decode parts values
  /-- Parts and an end that come in time have an outcome: the list, if there is no error. -/
  concludes : ∀ {ticket seq} (run : Exchange.Registration request ticket seq) (parts : List Message)
    (done : Message), run.Delivers parts done →
      ∃ response, run.answers = [response] ∧
        (0 ≤ Verdict.doneCode done.payload → (∀ m ∈ parts, ∃ value, readPart decode m = .ok value) →
          ∃ values, op.finish response = .ok values ∧ Reads decode parts values) ∧
        ((∃ m ∈ parts, ∀ value, readPart decode m ≠ .ok value) →
          ∃ error, op.finish response = .error error) ∧
        (Verdict.doneCode done.payload < 0 →
          op.finish response =
            .error (.exchange (.protocol (Errno.ofCode (Verdict.doneCode done.payload)))))

/-- The two ways a dump ends, as an operation. -/
theorem completeOrFails_dump :
    CompleteOrFails (dump families family index decode) (dumpRequest families family index)
      decode where
  starts := start_of_ok request_dump
  whole := by
    rintro ticket seq run values ⟨response, hresponse, hfinish⟩
    cases response with
    | error error => cases hfinish
    | ok parts =>
      have hreply := run.replyOf_of_mem_answers hresponse
      rw [expectsAck_dumpRequest] at hreply
      exact ⟨parts, hreply, finish_dump_ok.mp hfinish⟩
  concludes := by
    intro ticket seq run parts done hdelivers
    have hends : done.type = MessageType.done := by
      obtain ⟨during, hbrings, -⟩ := hdelivers
      exact hbrings.ends
    refine ⟨_, run.answers_of_delivers hdelivers, ?_⟩
    rw [outcome_done hends]
    -- the code of the end decides between the parts and an error
    by_cases hcode : Verdict.doneCode done.payload < 0
    · rw [if_pos hcode]
      refine ⟨?_, ?_, ?_⟩
      · intro hnone
        exact absurd hcode (Int32.not_lt.mpr hnone)
      · intro _
        exact ⟨_, finish_dump_error _⟩
      · intro _
        exact finish_dump_error _
    · rw [if_neg hcode]
      refine ⟨?_, finish_dump_fails, ?_⟩
      · intro _ hall
        exact exists_finish_dump hall
      · intro hneg
        exact absurd hneg hcode

/-- All datapaths, all ports and all flows are told, or an error is. -/
theorem enumerations_complete_or_fail (families : Families) (datapath : Datapath) :
    CompleteOrFails (enumerateDatapaths families) (dumpRequest families .datapath 0)
        Datapath.decode ∧
      CompleteOrFails (enumeratePorts families datapath)
        (dumpRequest families .port datapath.index) Port.decode ∧
      CompleteOrFails (enumerateFlows families datapath)
        (dumpRequest families .flow datapath.index) decodeFlow :=
  ⟨completeOrFails_dump, completeOrFails_dump, completeOrFails_dump⟩

/-- The reports on two datapaths, as parts of the reply with number 1. -/
def listedParts : List Message :=
  [⟨⟨32, 0x18, Flag.multi, 1, 7⟩, [1, 2, 0, 0, 3, 0, 0, 0, 7, 0, 1, 0, 100, 112, 0, 0]⟩,
    ⟨⟨32, 0x18, Flag.multi, 1, 7⟩, [1, 2, 0, 0, 4, 0, 0, 0, 7, 0, 1, 0, 98, 114, 0, 0]⟩]

/-- The end of another reply, the second part and the end. -/
def lastReplies : List Message := [.doneReply 2 7] ++ listedParts.drop 1 ++ [.doneReply 1 7]

/-- The datagram of several messages. -/
def datagramOf (ms : List Message) : Bytes := ms.flatMap Message.octets

/-- Datapaths and ports are asked for. -/
def twoDumps : List ExchangeEvent :=
  [.submit (.send (dumpRequest registered .datapath 0) (.waiting 1)),
    .submit (.send (dumpRequest registered .port 3) (.waiting 2))]

/-- The exchange that takes the first of the two requests. -/
def dumpTaken : Exchange := (Exchange.start 7 {}).after twoDumps

/-- Ports are asked for while the first request waits. The first part comes in a datagram of its own, and
a sweep between the two. -/
def listedEvents : List ExchangeEvent :=
  [.take 0 (.ok ()), .transmit 1 (.ok 24), .receive 2 (.ok (datagramOf (listedParts.take 1))),
    .sweep 3]

/-- The exchange after the request for datapaths was registered. -/
def dumpRegistered : Exchange := (dumpTaken.step (.take 0 (.ok ()))).1

/-- The exchange that hears the last parts. -/
def dumpEnding : Exchange := dumpRegistered.after listedEvents

/-- The run in which both parts of the listing come before its end. -/
def listingRun : Exchange.Registration (dumpRequest registered .datapath 0) 1 1 where
  port := 7
  options := {}
  before := (Exchange.start 7 {}).moments twoDumps
  taken := dumpTaken
  now := 0
  joined := .ok ()
  later := dumpRegistered.moments listedEvents ++
    ⟨dumpEnding, .receive 4 (.ok (datagramOf lastReplies))⟩ :: []
  final := (dumpEnding.step (.receive 4 (.ok (datagramOf lastReplies)))).1
  runs := by
    have hruns := Exchange.runs_moments (.start 7 {})
      (twoDumps ++ .take 0 (.ok ()) :: (listedEvents ++ [.receive 4 (.ok (datagramOf lastReplies))]))
    exact hruns
  distinct := by decide
  registers := registers_dumpRequest rfl rfl (by decide)

/-- Both parts are delivered before the end of the dump. -/
theorem delivers_listingRun : listingRun.Delivers listedParts (.doneReply 1 7) := by
  have hfirst : (Datagram.messages (datagramOf (listedParts.take 1))).1 = listedParts.take 1 := by
    decide +kernel
  have hlast : (Datagram.messages (datagramOf lastReplies)).1 = lastReplies := by
    decide +kernel
  refine ⟨dumpRegistered.moments listedEvents, ⟨by decide, rfl, dumpEnding, 4, datagramOf lastReplies,
    [], listedParts.drop 1, [], rfl, ?_, ?_⟩, ?_, ?_⟩
  · rw [Exchange.eventsIn_moments]
    simp [listedEvents, arrivals, ExchangeEvent.messages, hfirst]
    rfl
  · rw [hlast]
    rfl
  · have hearly : 3 < listingRun.deadline := by decide
    simp only [Exchange.SparesIn, listedEvents, Exchange.moments, List.forall_mem_cons]
    exact ⟨True.intro, True.intro, True.intro, hearly, List.forall_mem_nil _⟩
  · decide +kernel

theorem enumerations_complete_or_fail_listingRun :
    ∃ response, listingRun.answers = [response] ∧
      (enumerateDatapaths registered).finish response =
        .ok [{ index := 3, name := "dp" }, { index := 4, name := "br" }] := by
  obtain ⟨hdatapaths, -, -⟩ := enumerations_complete_or_fail registered { index := 3, name := "dp" }
  have hreads : Reads Datapath.decode listedParts
      [{ index := 3, name := "dp" }, { index := 4, name := "br" }] :=
    .cons (by decide +kernel) (.cons (by decide +kernel) .nil)
  obtain ⟨response, hresponse, hcomplete, -, -⟩ :=
    hdatapaths.concludes listingRun listedParts (.doneReply 1 7) delivers_listingRun
  obtain ⟨values, hfinish, hvalues⟩ :=
    hcomplete (by decide) (exists_forall₂_iff.mp ⟨_, hreads⟩)
  -- each part has one reading only
  have hsame := List.right_unique_forall₂'
    (fun m value value' h h' => Except.ok.inj (h.symm.trans h')) hvalues hreads
  exact ⟨response, hresponse, hsame ▸ hfinish⟩

/-- Nothing that is heard while the numbers come round has the number 1. -/
theorem arrivals_roundEvents {n : Nat} (hfew : n + 1 < UInt32.size) :
    arrivals 1 (Exchange.roundEvents n) = [] := by
  refine List.filter_eq_nil_iff.mpr ?_
  intro m hm hone
  obtain ⟨e, he, hmessage⟩ := List.mem_flatMap.mp hm
  simp only [Exchange.roundEvents, List.mem_cons, List.mem_append, List.not_mem_nil, or_false] at he
  rcases he with rfl | he | rfl | rfl
  · cases hmessage
  · obtain ⟨k, hk, he⟩ := List.mem_flatMap.mp he
    simp only [Exchange.probe, List.mem_cons, List.not_mem_nil, or_false] at he
    rcases he with rfl | rfl | rfl | rfl
    · cases hmessage
    · cases hmessage
    · cases hmessage
    · -- the reply to the caller `k` has the number `k`
      rw [ExchangeEvent.messages, Exchange.messages_doneReply] at hmessage
      obtain rfl := List.mem_singleton.mp hmessage
      have hseq := congrArg UInt32.toNat (beq_iff_eq.mp hone)
      rw [List.mem_range'_1] at hk
      rw [show (Message.doneReply (UInt32.ofNat k) 7).seq = UInt32.ofNat k from rfl,
        UInt32.toNat_ofNat_of_lt' (by omega), UInt32.toNat_one] at hseq
      omega
  · cases hmessage
  · cases hmessage

/-- The exchange that takes the request for datapaths. -/
def roundTaken : Exchange :=
  Exchange.patient.after [.submit (.send (dumpRequest registered .datapath 0) (.waiting 1))]

/-- The exchange that hears the end of the reply when the numbers have come round. -/
def roundEnding (n : Nat) : Exchange :=
  (roundTaken.step (.take 0 (.ok ()))).1.after (Exchange.roundEvents n)

/-- The run in which the numbers come round while datapaths are listed. -/
def roundRun (n : Nat) : Exchange.Registration (dumpRequest registered .datapath 0) 1 1 where
  port := 7
  options := Exchange.patient.options
  before := Exchange.patient.moments
    [.submit (.send (dumpRequest registered .datapath 0) (.waiting 1))]
  taken := roundTaken
  now := 0
  joined := .ok ()
  later := (roundTaken.step (.take 0 (.ok ()))).1.moments
    (Exchange.roundEvents n ++ [.receive 0 (.ok (Message.doneReply 1 7).octets)])
  final := ((roundEnding n).step (.receive 0 (.ok (Message.doneReply 1 7).octets))).1
  runs := by
    have hruns := Exchange.runs_moments .patient
      (Exchange.wholeRound (dumpRequest registered .datapath 0) n ++
        [.receive 0 (.ok (Message.doneReply 1 7).octets)])
    rw [Exchange.after_concat] at hruns
    exact hruns
  distinct := by
    have hevents := Exchange.eventsIn_moments .patient
      (Exchange.wholeRound (dumpRequest registered .datapath 0) n ++
        [.receive 0 (.ok (Message.doneReply 1 7).octets)])
    exact hevents.symm ▸ Exchange.distinctTickets_wholeRound _ n 0 _
  registers := registers_dumpRequest rfl rfl (by decide)

/-- In the run in which the numbers come round, the dump is not answered. -/
theorem answers_roundRun {n : Nat} (hround : n + 2 = UInt32.size) : (roundRun n).answers = [] := by
  have hfits : (dumpRequest registered .datapath 0).Fits := fits_dumpRequest
  have hlost := Exchange.waiting_mem_displacedOf_wholeRound hfits hround
  have hmoments : (roundRun n).moments = Exchange.patient.moments
      (Exchange.wholeRound (dumpRequest registered .datapath 0) n ++
        [.receive 0 (.ok (Message.doneReply 1 7).octets)]) := rfl
  refine (roundRun n).runs.answersTo_displaced (roundRun n).distinct (r := .waiting 1) ?_
  rw [show (roundRun n).before ++ _ :: (roundRun n).later = _ from hmoments,
    Exchange.moments_concat, displacedOf_concat]
  exact List.mem_append_left _ hlost

/-- The end of its reply arrives all the same. -/
theorem brings_roundRun {n : Nat} (hround : n + 2 = UInt32.size) :
    (roundRun n).Brings ((roundTaken.step (.take 0 (.ok ()))).1.moments (Exchange.roundEvents n)) []
      (.doneReply 1 7) where
  data := List.forall_mem_nil _
  ends := rfl
  arrives := by
    refine ⟨roundEnding n, 0, (Message.doneReply 1 7).octets, [], [], [],
      Exchange.moments_concat _ _ _, ?_, ?_⟩
    · rw [Exchange.eventsIn_moments, arrivals_roundEvents (by omega)]
      rfl
    · rw [Exchange.messages_doneReply]
      rfl

/-- A dump whose datagram the transport refuses. -/
def refusedRun : Exchange.Registration (dumpRequest registered .datapath 0) 1 1 where
  port := 7
  options := Exchange.patient.options
  before := Exchange.patient.moments
    [.submit (.send (dumpRequest registered .datapath 0) (.waiting 1))]
  taken := roundTaken
  now := 0
  joined := .ok ()
  later := (roundTaken.step (.take 0 (.ok ()))).1.moments
    [.transmit 1 (.error (.os ⟨13⟩)), .receive 2 (.ok (Message.doneReply 1 7).octets)]
  final := (roundTaken.step (.take 0 (.ok ()))).1.after
    [.transmit 1 (.error (.os ⟨13⟩)), .receive 2 (.ok (Message.doneReply 1 7).octets)]
  runs := Exchange.runs_moments .patient
    [.submit (.send (dumpRequest registered .datapath 0) (.waiting 1)), .take 0 (.ok ()),
      .transmit 1 (.error (.os ⟨13⟩)), .receive 2 (.ok (Message.doneReply 1 7).octets)]
  distinct := by decide
  registers := registers_dumpRequest rfl rfl (by decide)

/-- In the run in which sending fails, the end of the reply arrives too. -/
theorem brings_refusedRun :
    refusedRun.Brings [⟨(roundTaken.step (.take 0 (.ok ()))).1, .transmit 1 (.error (.os ⟨13⟩))⟩] []
      (.doneReply 1 7) where
  data := List.forall_mem_nil _
  ends := rfl
  arrives := by
    refine ⟨_, 2, (Message.doneReply 1 7).octets, [], [], [], rfl, rfl, ?_⟩
    rw [Exchange.messages_doneReply]
    rfl

/-- A dump is not always told though its reply comes in time: its number may have been given out again
meanwhile, and its datagram may have been refused. -/
theorem not_forall_concludes :
    (¬ ∀ (families : Families) (ticket : Nat) (seq : UInt32)
        (run : Exchange.Registration (dumpRequest families .datapath 0) ticket seq)
        (during : List Moment) (parts : List Message) (done : Message),
        run.Brings during parts done →
        Exchange.SparesIn seq ticket run.deadline during →
        0 ≤ Verdict.doneCode done.payload →
        (∀ m ∈ parts, ∃ value, readPart Datapath.decode m = .ok value) →
          ∃ response ∈ run.answers, ∃ values,
            (enumerateDatapaths families).finish response = .ok values) ∧
      ¬ ∀ (families : Families) (ticket : Nat) (seq : UInt32)
        (run : Exchange.Registration (dumpRequest families .datapath 0) ticket seq)
        (during : List Moment) (parts : List Message) (done : Message),
        run.Brings during parts done →
        (∀ m ∈ during, (∀ now error, m.event ≠ .transmit now (.error error)) →
          m.exchange.Spares seq ticket run.deadline m.event) →
        numberedIn during < UInt32.size - 1 →
        0 ≤ Verdict.doneCode done.payload →
        (∀ m ∈ parts, ∃ value, readPart Datapath.decode m = .ok value) →
          ∃ response ∈ run.answers, ∃ values,
            (enumerateDatapaths families).finish response = .ok values := by
  constructor
  · intro hall
    obtain ⟨n, hround⟩ := Exchange.exists_round
    -- nothing in the round ends the dump, but the last request takes its number
    have hspares : Exchange.SparesIn 1 1 (roundRun n).deadline
        ((roundTaken.step (.take 0 (.ok ()))).1.moments (Exchange.roundEvents n)) := by
      intro m hm
      rcases Exchange.mem_roundEvents (Exchange.event_mem_of_mem_moments hm) with
        ⟨c, he⟩ | he | he | ⟨data, he⟩ <;> rw [he] <;> exact True.intro
    obtain ⟨response, hresponse, -⟩ := hall _ _ _ (roundRun n) _ _ _ (brings_roundRun hround)
      hspares (by decide) (List.forall_mem_nil _)
    rw [answers_roundRun hround] at hresponse
    cases hresponse
  · intro hall
    -- of two events, the first answers the dump with the error of the transport
    have hrest : ∀ m ∈ [(⟨(roundTaken.step (.take 0 (.ok ()))).1,
        .transmit 1 (.error (.os ⟨13⟩))⟩ : Moment)],
        (∀ now error, m.event ≠ .transmit now (.error error)) →
          m.exchange.Spares 1 1 refusedRun.deadline m.event := by
      intro m hm hother
      obtain rfl := List.mem_singleton.mp hm
      exact absurd rfl (hother 1 (.os ⟨13⟩))
    have hanswers : refusedRun.answers = [.error (.io (.os ⟨13⟩))] := by
      decide +kernel
    obtain ⟨response, hresponse, values, hvalues⟩ := hall _ _ _ refusedRun _ _ _ brings_refusedRun
      hrest (by decide) (by decide) (List.forall_mem_nil _)
    rw [hanswers, List.mem_singleton] at hresponse
    rw [hresponse] at hvalues
    cases hvalues

end Operation

end Vswitch
