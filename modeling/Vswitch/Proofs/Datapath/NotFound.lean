import Mathlib
import Vswitch.Proofs.Datapath.Request
import Vswitch.Proofs.Exchange.Refusal

/-!
# Objects that do not exist

Seven operations name an object, and tell apart that it does not exist: their caller is told so exactly
if the kernel ends the request with one of two error numbers, in an error report or in the end of a
reply. Every other failure is told as it is, and is never taken for that one; nor is any failure of the
operations that create, list, flush or treat.

* `Errno.isNotFound_ofCode`, `Message.outcome_eq_protocol_iff`: the codes that say so, and the
  messages that carry a code;
* `DatapathError.Plain`: computations that do not say that an object does not exist;
* `Operation.Attempt`: an operation in a run, and what its caller is told;
* `Operation.TellsApart`, `Operation.NeverNotFound`: what holds of an operation in every run;
* `Operation.not_found_told_apart`: it holds of all operations.
-/

namespace Vswitch

/-! ## Codes -/

namespace Errno

/-- The number of a code is its absolute value, as far as numbers go. -/
theorem toInt_value_ofCode (code : Int32) :
    (ofCode code).value.toInt = min (code.toInt.natAbs : Int) (2 ^ 31 - 1) := by
  have hleast := Int32.le_toInt code
  have hgreatest := Int32.toInt_lt code
  unfold ofCode
  by_cases hmin : code = Int32.minValue
  · subst hmin
    rfl
  have hnot : code.toInt ≠ -2 ^ 31 := by
    rw [← Int32.toInt_minValue]
    exact fun h => hmin (Int32.toInt_inj.mp h)
  have hnegated : (-code).toInt = -code.toInt := by
    rw [Int32.toInt_neg]
    exact Int.bmod_eq_of_le (by omega) (by omega)
  have hsign : code < 0 ↔ code.toInt < 0 := Int32.lt_iff_toInt_lt
  rw [if_neg hmin]
  by_cases hneg : code < 0
  · rw [if_pos hneg, hnegated]
    have hcode := hsign.mp hneg
    omega
  · rw [if_neg hneg]
    have hcode := mt hsign.mpr hneg
    dsimp only
    omega

/-- Two numbers say that something does not exist: no such entry, and no such device. -/
theorem isNotFound_iff {errno : Errno} :
    errno.isNotFound = true ↔ errno.value.toInt = 2 ∨ errno.value.toInt = 19 := by
  have hnumber (n : Int32) : errno = ⟨n⟩ ↔ errno.value.toInt = n.toInt := by
    rw [Int32.toInt_inj]
    constructor
    · rintro rfl
      rfl
    · rintro rfl
      rfl
  have htwo : (2 : Int32).toInt = 2 := rfl
  have hnineteen : (19 : Int32).toInt = 19 := rfl
  simp only [isNotFound, noEntry, noDevice, Bool.or_eq_true, beq_iff_eq, hnumber, htwo, hnineteen]

/-- A reply has the number with either sign. -/
theorem isNotFound_ofCode (code : Int32) :
    (ofCode code).isNotFound = true ↔ code.toInt.natAbs = 2 ∨ code.toInt.natAbs = 19 := by
  rw [isNotFound_iff, toInt_value_ofCode]
  omega

end Errno

/-- The message says that an object does not exist: it is an error report, or the end of a reply that
was cut short, and its code is that of a missing entry or a missing device. -/
def Message.ReportsNotFound (m : Message) : Prop :=
  4 ≤ m.payload.length ∧
    (m.type = MessageType.error ∨ m.type = MessageType.done ∧ m.code < 0) ∧
    (m.code.toInt.natAbs = 2 ∨ m.code.toInt.natAbs = 19)

/-- A message carries an error of the kernel exactly if it is an error report that acknowledges nothing,
or the end of a reply that was cut short, and has room for a code. -/
theorem Message.outcome_eq_protocol_iff {m : Message} {errno : Errno} :
    m.outcome = .error (.protocol errno) ↔
      4 ≤ m.payload.length ∧
        (m.type = MessageType.error ∧ m.code ≠ 0 ∨ m.type = MessageType.done ∧ m.code < 0) ∧
        errno = Errno.ofCode m.code := by
  have hdiffer : MessageType.error ≠ MessageType.done := by decide
  unfold outcome
  by_cases herror : m.type = MessageType.error
  · by_cases hshort : m.payload.length < 4
    · simp [herror, hshort]
    by_cases hack : m.code = 0
    · simp [herror, hdiffer, hshort, hack]
    · simp [herror, hdiffer, hshort, hack, Nat.le_of_not_lt hshort, eq_comm]
  by_cases hdone : m.type = MessageType.done
  · by_cases hshort : m.payload.length < 4
    · simp [hdone, hdiffer.symm, hshort]
    by_cases hwhole : 0 ≤ m.code
    · simp [hdone, hdiffer.symm, hwhole, Int32.not_lt.mpr hwhole]
    · simp [hdone, hdiffer.symm, hshort, hwhole, Nat.le_of_not_lt hshort, Int32.not_le.mp hwhole,
        eq_comm]
  · rw [if_neg herror, if_neg hdone]
    by_cases hoverrun : m.type = MessageType.overrun
    · simp [if_pos hoverrun, herror, hdone]
    · simp [if_neg hoverrun, herror, hdone]

/-- A message reports it just if its outcome is such a number. -/
theorem Message.reportsNotFound_iff (m : Message) :
    m.ReportsNotFound ↔
      ∃ errno, m.outcome = .error (.protocol errno) ∧ errno.isNotFound = true := by
  simp only [outcome_eq_protocol_iff, ReportsNotFound]
  constructor
  · rintro ⟨hlong, hkind, hnumber⟩
    -- a report with one of the two numbers is no acknowledgement
    have hcode : m.code ≠ 0 := by
      intro hzero
      rw [hzero] at hnumber
      revert hnumber
      decide
    exact ⟨_, ⟨hlong, hkind.imp_left fun herror => ⟨herror, hcode⟩, rfl⟩,
      (Errno.isNotFound_ofCode _).mpr hnumber⟩
  · rintro ⟨errno, ⟨hlong, hkind, rfl⟩, hnotFound⟩
    exact ⟨hlong, hkind.imp_left And.left, (Errno.isNotFound_ofCode _).mp hnotFound⟩

/-! ## Computations -/

namespace DatapathError

variable {α β : Type}

/-- A computation that does not say that an object does not exist. -/
def Plain (x : Except DatapathError α) : Prop :=
  ∀ error, x = .error error → error.isNotFound = false

theorem plain_ok (a : α) : Plain (.ok a) := nofun

/-- Nor does a computation none of whose steps does. -/
theorem Plain.bind {x : Except DatapathError α} (hx : Plain x) {f : α → Except DatapathError β}
    (hf : ∀ a, Plain (f a)) : Plain (x >>= f) := by
  cases x with
  | error reason =>
    intro error herror
    cases herror
    exact hx reason rfl
  | ok a => exact hf a

/-- Nor does what is made of its result. -/
theorem Plain.map {x : Except DatapathError α} (hx : Plain x) (f : α → β) : Plain (f <$> x) := by
  cases x with
  | error reason =>
    intro error herror
    cases herror
    exact hx reason rfl
  | ok a => exact plain_ok (f a)

/-- Nor does a list of such computations. -/
theorem plain_mapM {f : α → Except DatapathError β} (hf : ∀ a, Plain (f a)) (xs : List α) :
    Plain (xs.mapM f) := by
  induction xs with
  | nil => exact plain_ok []
  | cons x rest ih =>
    rw [List.mapM_cons]
    exact (hf x).bind fun _ => ih.bind fun _ => plain_ok _

/-- An error of another kind stays one of another kind. -/
theorem plain_mapError {ε : Type} {g : ε → DatapathError} (hg : ∀ e, (g e).isNotFound = false)
    (x : Except ε α) : Plain (x.mapError g) := by
  cases x with
  | error reason =>
    intro error herror
    cases herror
    exact hg reason
  | ok a => exact plain_ok a

/-- A malformed attribute is an error of its own kind. -/
theorem plain_attr (x : Except AttrError α) : Plain (x.mapError .attr) :=
  plain_mapError (fun _ => rfl) x

/-- Decoding a reply fails for its form only. -/
theorem plain_decode (m : Message) : Plain (DatapathMessage.decode m) := by
  unfold DatapathMessage.decode
  refine (plain_mapError (fun _ => rfl) _).bind fun (header, body) => ?_
  have hattributes : Plain (do
      let attributes ← (Attr.parse (body.drop DatapathMessage.headerLength)).mapError .attr
      return (⟨header, (body.le32At 0).toInt32, attributes⟩ : DatapathMessage)) :=
    (plain_attr _).bind fun _ => plain_ok _
  by_cases hshort : body.length < DatapathMessage.headerLength
  · intro error herror
    simp only [if_pos hshort] at herror
    cases herror
    rfl
  · simp only [if_neg hshort]
    exact hattributes

/-- The exchange's own errors are passed on as such. -/
theorem plain_replies (response : Response) : Plain (Operation.replies response) := by
  cases response with
  | error cause =>
    intro error herror
    cases herror
    rfl
  | ok messages => exact plain_mapM plain_decode messages

/-- A missing reply is an error of its own kind too. -/
theorem plain_first (decode : DatapathMessage → Except AttrError α)
    (messages : List DatapathMessage) : Plain (Operation.first decode messages) := by
  cases messages with
  | nil =>
    intro error herror
    cases herror
    rfl
  | cons m rest => exact plain_attr (decode m)

/-- Every part of a dump is decoded by itself. -/
theorem plain_every (decode : DatapathMessage → Except AttrError α)
    (messages : List DatapathMessage) : Plain (Operation.every decode messages) :=
  plain_mapM (fun m => plain_attr (decode m)) messages

/-- A request that cannot be composed fails for its attributes. -/
theorem plain_request (families : Families) (family : DatapathFamily) (command : UInt8)
    (index : Int32) (trees : List AttrTree) :
    Plain (families.request family command index trees) := by
  unfold Families.request
  exact (plain_attr _).bind fun _ => plain_ok _

end DatapathError

/-! ## Operations in runs -/

namespace Operation

variable {α β : Type} {op : Operation α}

/-- An operation in a run: what has happened before it is started, who waits for its answer, and what
happens then. Nobody else has the ticket. -/
structure Attempt (op : Operation α) where
  port : UInt32
  options : ExchangeOptions
  before : List Moment
  /-- The exchange on which the operation is started. -/
  exchange : Exchange
  reaches : Exchange.Runs (Exchange.start port options) before exchange
  responder : Responder
  later : List Moment
  final : Exchange
  goesOn : Exchange.Runs (op.start exchange responder).1.1 later final
  own : ∀ r ∈ submitters (eventsIn (before ++ later)), r.ticket ≠ responder.ticket

namespace Attempt

open Exchange

/-- The start of the operation. -/
def begun (a : op.Attempt) : (Exchange × List ExchangeOutput) × Option DatapathError :=
  op.start a.exchange a.responder

/-- How the exchange answers the request. -/
def answers (a : op.Attempt) : List Response :=
  answersTo a.responder.ticket (a.begun.1.2 ++ outputsOf a.later)

/-- What the caller of the operation is told. -/
def results (a : op.Attempt) : List (Except DatapathError α) :=
  a.begun.2.toList.map Except.error ++ a.answers.map op.finish

/-- `last` ends the reply to the request. -/
def EndsWith (a : op.Attempt) (last : Message) : Prop := EndsIn a.later a.responder.ticket last

variable (a : op.Attempt)

/-- An operation either fails before anything is submitted or submits one request. -/
theorem begun_cases :
    (∃ error, op.request = .error error ∧ a.begun = ((a.exchange, []), some error)) ∨
      ∃ request, op.request = .ok request ∧
        a.begun = (a.exchange.step (.submit (.send request a.responder)), none) := by
  cases hrequest : op.request with
  | error error => exact .inl ⟨error, rfl, start_of_error hrequest _ _⟩
  | ok request => exact .inr ⟨request, rfl, start_of_ok hrequest _ _⟩

theorem tidy : Tidy a.exchange := a.reaches.tidy

/-- The start of the operation leaves the table tidy. -/
theorem tidy_begun : Tidy a.begun.1.1 := by
  rcases a.begun_cases with ⟨error, -, hbegun⟩ | ⟨request, -, hbegun⟩
  · rw [hbegun]
    exact a.tidy
  · rw [hbegun]
    exact a.tidy.step _

/-- The request is answered with an error of the kernel exactly if the message that ends its reply
carries it. -/
theorem refused_iff (errno : Errno) :
    .error (.protocol errno) ∈ a.answers ↔
      ∃ last, a.EndsWith last ∧ last.outcome = .error (.protocol errno) := by
  have hbegun : .error (.protocol errno) ∉ answersTo a.responder.ticket a.begun.1.2 := by
    rcases a.begun_cases with ⟨error, -, hbegun⟩ | ⟨request, -, hbegun⟩
    · rw [hbegun]
      exact List.not_mem_nil
    · rw [hbegun]
      intro h
      rcases (refused_step_iff a.tidy _ errno).mp h with ⟨last, hends, -⟩
      exact not_ends_nil _ _ _ hends
  rw [answers, answersTo_append, List.mem_append, a.goesOn.refused_iff a.tidy_begun]
  exact or_iff_right hbegun

/-- Nobody is owed an answer under the ticket before the operation is started. -/
theorem share_owed : share Responder.ticket a.responder.ticket a.exchange.owed = 0 := by
  have hbefore : share Responder.ticket a.responder.ticket (submitters (eventsIn a.before)) = 0 := by
    refine share_eq_zero fun r hr => a.own r ?_
    rw [eventsIn_append, submitters_append]
    exact List.mem_append_left _ hr
  have hlaw := a.reaches.length_answersTo_le (.start a.port a.options) a.responder.ticket
  have hnothing :
      share Responder.ticket a.responder.ticket (Exchange.start a.port a.options).owed = 0 := rfl
  omega

/-- Nor is the ticket handed over again. -/
theorem share_later :
    share Responder.ticket a.responder.ticket (submitters (eventsIn a.later)) = 0 := by
  refine share_eq_zero fun r hr => a.own r ?_
  rw [eventsIn_append, submitters_append]
  exact List.mem_append_right _ hr

/-- The start of the operation hands over its request at most, and answers it or owes it an answer. -/
theorem share_begun :
    a.begun.2.toList.length + share Responder.ticket a.responder.ticket a.begun.1.1.owed +
      (answersTo a.responder.ticket a.begun.1.2).length ≤ 1 := by
  have howed := a.share_owed
  rcases a.begun_cases with ⟨error, -, hbegun⟩ | ⟨request, -, hbegun⟩
  · rw [hbegun]
    show 1 + share Responder.ticket a.responder.ticket a.exchange.owed + 0 ≤ 1
    omega
  · have hlaw := share_step (a := a.responder.ticket) Responder.ticket_abandon a.tidy
      (.submit (.send request a.responder))
    have hself : share Responder.ticket a.responder.ticket
        (submitters [.submit (.send request a.responder)]) = 1 := by
      show [a.responder.ticket].count a.responder.ticket = 1
      exact List.count_singleton_self
    have hlength := length_answersTo a.responder.ticket
      (a.exchange.step (.submit (.send request a.responder))).2
    rw [hbegun, Option.toList_none, List.length_nil, hlength]
    rw [howed, hself] at hlaw
    simp only [share] at hlaw ⊢
    omega

/-- The caller is told one thing at most. -/
theorem length_results_le_one : a.results.length ≤ 1 := by
  have hlaw := a.goesOn.length_answersTo_le a.tidy_begun a.responder.ticket
  have hbegun := a.share_begun
  have hlater := a.share_later
  rw [results, List.length_append, List.length_map, List.length_map, answers, answersTo_append,
    List.length_append]
  omega

end Attempt

/-! ## What may be told -/

/-- An operation tells apart that its object does not exist. What it reads in a reply is what an
operation that tells nothing apart would read. -/
structure TellsApart (op : Operation α) (notFound : DatapathError)
    (read : List DatapathMessage → Except DatapathError α) : Prop where
  own : notFound.isNotFound = true
  one : ∀ a : op.Attempt, a.results.length ≤ 1
  /-- The caller is told so exactly if the kernel ends the request with error number 2 or 19. -/
  told_iff : ∀ a : op.Attempt, .error notFound ∈ a.results ↔
    ∃ errno, .error (.protocol errno) ∈ a.answers ∧
      (errno.value.toInt = 2 ∨ errno.value.toInt = 19)
  /-- That is, exactly if the message that ends the reply carries such a code. -/
  reported_iff : ∀ a : op.Attempt, .error notFound ∈ a.results ↔
    ∃ last, a.EndsWith last ∧ last.ReportsNotFound
  /-- Every other failure is told as it is. -/
  unchanged : ∀ response, op.finish response ≠ .error notFound →
    op.finish response = replies response >>= read
  others : ∀ (a : op.Attempt) error, .error error ∈ a.results → error ≠ notFound →
    error.isNotFound = false

/-- The caller of an operation is never told that an object does not exist. -/
def NeverNotFound (op : Operation α) : Prop :=
  ∀ (a : op.Attempt) error, .error error ∈ a.results → error.isNotFound = false

variable {notFound : DatapathError} {read : List DatapathMessage → Except DatapathError α}

/-- A result is an error if the operation could not begin, or if it makes one of an answer. -/
theorem mem_results {a : op.Attempt} {error : DatapathError} :
    .error error ∈ a.results ↔
      a.begun.2 = some error ∨ ∃ response ∈ a.answers, op.finish response = .error error := by
  rw [Attempt.results, List.mem_append, List.mem_map, List.mem_map]
  refine or_congr ?_ Iff.rfl
  simp only [Option.mem_toList, Except.error.injEq, exists_eq_right]

/-- An operation fails to start only for want of a request. -/
theorem request_of_begun {a : op.Attempt} {error : DatapathError} (h : a.begun.2 = some error) :
    op.request = .error error := by
  rcases a.begun_cases with ⟨reason, hrequest, hbegun⟩ | ⟨request, -, hbegun⟩
  · rw [hbegun] at h
    cases h
    exact hrequest
  · rw [hbegun] at h
    cases h

/-- It is enough that the request and the reading of a reply say nothing of missing objects. -/
theorem neverNotFound (hrequest : DatapathError.Plain op.request)
    (hfinish : ∀ response, op.finish response = replies response >>= read)
    (hread : ∀ messages, DatapathError.Plain (read messages)) : op.NeverNotFound := by
  intro a error herror
  rcases mem_results.mp herror with hunsent | ⟨response, -, htold⟩
  · exact hrequest error (request_of_begun hunsent)
  · rw [hfinish] at htold
    exact (DatapathError.plain_replies response).bind hread error htold

/-- Of the ways an exchange ends, only a number of the kernel's says so. -/
theorem isNotFound_iff {cause : ExchangeError} :
    cause.isNotFound = true ↔ ∃ errno, cause = .protocol errno ∧ errno.isNotFound = true := by
  cases cause with
  | protocol errno => simp [ExchangeError.isNotFound]
  | _ => exact iff_of_false Bool.false_ne_true (by simp)

/-- A response in which the kernel does not say that the object is missing is read as if nothing were
told apart. -/
theorem repliesOr_eq {response : Response}
    (h : ¬ ∃ errno, response = .error (.protocol errno) ∧ errno.isNotFound = true) :
    repliesOr notFound response = replies response := by
  cases response with
  | error cause =>
    have hcause : cause.isNotFound = false := by
      rw [← Bool.not_eq_true, isNotFound_iff]
      rintro ⟨errno, rfl, herrno⟩
      exact h ⟨errno, rfl, herrno⟩
    rw [repliesOr, hcause, replies, if_neg Bool.false_ne_true]
  | ok messages => rfl

/-- The object is told not to exist exactly if the kernel says so. -/
theorem finish_eq_notFound (hown : notFound.isNotFound = true)
    (hfinish : ∀ response, op.finish response = repliesOr notFound response >>= read)
    (hread : ∀ messages, DatapathError.Plain (read messages)) (response : Response) :
    op.finish response = .error notFound ↔
      ∃ errno, response = .error (.protocol errno) ∧ errno.isNotFound = true := by
  rw [hfinish]
  constructor
  · intro htold
    by_contra hother
    rw [repliesOr_eq hother] at htold
    have hfalse := (DatapathError.plain_replies response).bind hread notFound htold
    rw [hown] at hfalse
    cases hfalse
  · rintro ⟨errno, rfl, herrno⟩
    have hcause : (ExchangeError.protocol errno).isNotFound = true := herrno
    rw [repliesOr, if_pos hcause]
    rfl

/-- It is enough that the request and the reading of a reply say nothing of missing objects, and that
the operation reads its response as one that tells its object apart. -/
theorem tellsApart (hown : notFound.isNotFound = true) (hrequest : DatapathError.Plain op.request)
    (hfinish : ∀ response, op.finish response = repliesOr notFound response >>= read)
    (hread : ∀ messages, DatapathError.Plain (read messages)) :
    op.TellsApart notFound read := by
  have htold := finish_eq_notFound hown hfinish hread
  have hunchanged (response : Response) (hother : op.finish response ≠ .error notFound) :
      op.finish response = replies response >>= read := by
    rw [hfinish, repliesOr_eq]
    intro hmissing
    exact hother ((htold response).mpr hmissing)
  -- an attempt says it exactly if its answer is such a number
  have hresults (a : op.Attempt) : .error notFound ∈ a.results ↔
      ∃ errno, .error (.protocol errno) ∈ a.answers ∧ errno.isNotFound = true := by
    rw [mem_results]
    constructor
    · rintro (hunsent | ⟨response, hresponse, hfound⟩)
      · have hfalse := hrequest notFound (request_of_begun hunsent)
        rw [hown] at hfalse
        cases hfalse
      · rcases (htold response).mp hfound with ⟨errno, rfl, herrno⟩
        exact ⟨errno, hresponse, herrno⟩
    · rintro ⟨errno, hanswer, herrno⟩
      exact .inr ⟨_, hanswer, (htold _).mpr ⟨errno, rfl, herrno⟩⟩
  refine ⟨hown, fun a => a.length_results_le_one, ?_, ?_, hunchanged, ?_⟩
  · intro a
    simp only [hresults, Errno.isNotFound_iff]
  · intro a
    simp only [hresults, a.refused_iff, Message.reportsNotFound_iff]
    constructor
    · rintro ⟨errno, ⟨last, hends, houtcome⟩, herrno⟩
      exact ⟨last, hends, errno, houtcome, herrno⟩
    · rintro ⟨last, hends, errno, houtcome, herrno⟩
      exact ⟨errno, ⟨last, hends, houtcome⟩, herrno⟩
  -- any other error is one of reading the response
  · intro a error herror hne
    rcases mem_results.mp herror with hunsent | ⟨response, -, hfails⟩
    · exact hrequest error (request_of_begun hunsent)
    · have hother : op.finish response ≠ .error notFound := by
        intro hfound
        rw [hfails] at hfound
        exact hne (Except.error.inj hfound)
      rw [hunchanged response hother] at hfails
      exact (DatapathError.plain_replies response).bind hread error hfails

/-! ## All operations -/

/-- The seven operations on an object tell apart that it does not exist, each in its own words. The
others never say so. -/
theorem not_found_told_apart (families : Families) (datapath : Datapath) (port : Port)
    (name : String) (number upcallPort : UInt32) (spec : PortSpec) (keys : FlowMatch) (flow : Flow)
    (execution : Execution) :
    ((getDatapath families name).TellsApart (.datapathNotFound name) (first Datapath.decode) ∧
      (deleteDatapath families datapath).TellsApart (.datapathNotFound datapath.name)
        (fun _ => .ok ()) ∧
      (getPort families datapath name).TellsApart (.portNotFound name) (first Port.decode) ∧
      (getPortByNumber families datapath number).TellsApart (.portNotFound s!"#{number}")
        (first Port.decode) ∧
      (deletePort families port).TellsApart (.portNotFound port.name) (fun _ => .ok ()) ∧
      (getFlow families datapath keys).TellsApart .flowNotFound (first decodeFlow) ∧
      (deleteFlow families datapath keys).TellsApart .flowNotFound (fun _ => .ok ())) ∧
    (createDatapath families upcallPort name).NeverNotFound ∧
      (createPort families upcallPort datapath spec).NeverNotFound ∧
      (createFlow families datapath flow).NeverNotFound ∧
      (enumerateDatapaths families).NeverNotFound ∧
      (enumeratePorts families datapath).NeverNotFound ∧
      (enumerateFlows families datapath).NeverNotFound ∧
      (flushFlows families datapath).NeverNotFound ∧
      (executePacket families datapath execution).NeverNotFound := by
  have hrequest := DatapathError.plain_request families
  have hdone (_ : List DatapathMessage) : DatapathError.Plain (.ok ()) := DatapathError.plain_ok ()
  refine ⟨⟨?_, ?_, ?_, ?_, ?_, ?_, ?_⟩, ?_, ?_, ?_, ?_, ?_, ?_, ?_, ?_⟩
  · exact tellsApart rfl (hrequest _ _ _ _) (fun _ => rfl) (DatapathError.plain_first _)
  · exact tellsApart rfl ((hrequest _ _ _ _).map _) (fun _ => rfl) hdone
  · exact tellsApart rfl (hrequest _ _ _ _) (fun _ => rfl) (DatapathError.plain_first _)
  · exact tellsApart rfl (hrequest _ _ _ _) (fun _ => rfl) (DatapathError.plain_first _)
  · exact tellsApart rfl ((hrequest _ _ _ _).map _) (fun _ => rfl) hdone
  · exact tellsApart rfl (hrequest _ _ _ _) (fun _ => rfl) (DatapathError.plain_first _)
  · exact tellsApart rfl ((hrequest _ _ _ _).map _) (fun _ => rfl) hdone
  · exact neverNotFound ((hrequest _ _ _ _).map _) (fun _ => rfl) (DatapathError.plain_first _)
  · exact neverNotFound ((hrequest _ _ _ _).map _) (fun _ => rfl) (DatapathError.plain_first _)
  · -- a flow that is not sent back is told as it was given
    refine neverNotFound ((hrequest _ _ _ _).map _) (fun _ => rfl) ?_
    intro messages
    cases messages with
    | nil => exact DatapathError.plain_ok flow
    | cons m rest => exact DatapathError.plain_attr _
  · exact neverNotFound ((hrequest _ _ _ _).map _) (fun _ => rfl) (DatapathError.plain_every _)
  · exact neverNotFound ((hrequest _ _ _ _).map _) (fun _ => rfl) (DatapathError.plain_every _)
  · exact neverNotFound ((hrequest _ _ _ _).map _) (fun _ => rfl) (DatapathError.plain_every _)
  · exact neverNotFound ((hrequest _ _ _ _).map _) (fun _ => rfl) hdone
  · exact neverNotFound ((hrequest _ _ _ _).map _) (fun _ => rfl) hdone

/-- A port is asked for by its number. -/
def portAsked : (Exchange × List ExchangeOutput) × Option DatapathError :=
  (getPortByNumber registered { index := 3, name := "dp" } 9).start (.start 7 {}) (.waiting 1)

/-- What comes is a notification, a part of another reply, and the end of this one: an error report with
a code. -/
def refusal (code : Int32) : List ExchangeEvent :=
  [.take 0 (.ok ()), .transmit 1 (.ok 28),
    .receive 2 (.ok ((Message.ofPayload 0x19 0 [3]).octets ++
      ((Message.ofPayload 0x19 0 [4]).withSeq 2).octets ++
      (Message.errorReply ⟨32, 0x19, 1, 1, 7⟩ code).octets))]

/-- The run in which the kernel refuses to tell the port. -/
def refusedWith (code : Int32) :
    (getPortByNumber registered { index := 3, name := "dp" } 9).Attempt where
  port := 7
  options := {}
  before := []
  exchange := .start 7 {}
  reaches := .init
  responder := .waiting 1
  later := (portAsked.1.1).moments (refusal code)
  final := (portAsked.1.1).after (refusal code)
  goesOn := Exchange.runs_moments _ _
  own := by
    rw [List.nil_append, Exchange.eventsIn_moments]
    nofun

theorem not_found_told_apart_missingPort :
    (refusedWith (-19)).results = [.error (.portNotFound "#9")] ∧
      (∃ last, (refusedWith (-19)).EndsWith last ∧ last.ReportsNotFound) ∧
      .error (.portNotFound "#9") ∉ (refusedWith (-13)).results := by
  rcases not_found_told_apart registered { index := 3, name := "dp" }
    { datapath := 3, number := 9, type := .netdev, name := "p9" } "p9" 9 7 default []
    { keys := [], actions := [] } { packet := [], keys := [], actions := [] } with
    ⟨⟨-, -, -, hport, -⟩, -⟩
  have hmissing : (refusedWith (-19)).answers = [.error (.protocol ⟨19⟩)] := by decide +kernel
  have hdenied : (refusedWith (-13)).answers = [.error (.protocol ⟨13⟩)] := by decide +kernel
  have htold : .error (.portNotFound "#9") ∈ (refusedWith (-19)).results := by
    refine (hport.told_iff _).mpr ⟨⟨19⟩, ?_, .inr rfl⟩
    rw [hmissing]
    exact List.mem_cons_self
  refine ⟨?_, (hport.reported_iff _).mp htold, ?_⟩
  · rcases List.length_eq_one_iff.mp
      (Nat.le_antisymm (hport.one _) (List.length_pos_of_mem htold)) with ⟨only, honly⟩
    rw [honly] at htold ⊢
    rw [List.mem_singleton.mp htold]
  · intro hfound
    rcases (hport.told_iff _).mp hfound with ⟨errno, hanswer, hnumber⟩
    rw [hdenied] at hanswer
    cases List.mem_singleton.mp hanswer
    revert hnumber
    decide

end Operation

end Vswitch
