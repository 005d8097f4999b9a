import Mathlib
import Vswitch.Proofs.Exchange.Trace

/-!
# Why a request has no reply

A request that ends without its reply is answered with an error, and every error belongs to one kind of
event: a message reports what the kernel says, the transport refuses a datagram or fails, a sweep finds
a deadline that has passed, and a command comes when the table is full, when it is too long, or when
the exchange has ended.

* `ExchangeError.isReported`: the errors that messages report;
* `Exchange.Cause`: the event at which a request is answered with an error;
* `Exchange.Acts.cause`: whoever is answered with an error is so for one of these causes.
-/

namespace Vswitch

/-! ## What messages report -/

/-- Whether a message reports the error: the kernel refused the request, gave up replies, or sent a
report that cannot be read. -/
def ExchangeError.isReported : ExchangeError → Bool
  | .wire _ | .protocol _ | .overrun => true
  | _ => false

/-- An error that a message ends a request with is the kernel's report, or that the report cannot be
read. -/
theorem Verdict.isReported_of_ofMessage {ack : Bool} {m : Message} {error : ExchangeError}
    (h : Verdict.ofMessage ack m = .final (.error error)) : error.isReported = true := by
  unfold Verdict.ofMessage Verdict.ofReport at h
  split at h
  · split at h
    · split at h <;> cases h
      rfl
    · cases h
      rfl
  · split at h
    · dsimp only at h
      split at h <;> cases h
      rfl
    · split at h
      · cases h
        rfl
      · split at h <;> cases h

namespace Exchange

section Messages

variable {x : Exchange} {now : Time} {responder : Responder} {error : ExchangeError}

/-- Whoever is answered with an error by the end of his request is told that very error. -/
theorem error_of_complete {seq : UInt32} {result : Except ExchangeError Unit}
    (h : .answer responder (.error error) ∈ (x.complete now seq result).2) :
    result = .error error := by
  rcases hp : PendingTable.find? x.pending seq with _ | p
  · rw [complete_of_none hp] at h
    cases h
  · rw [complete_of_find? hp] at h
    rcases result with reason | _
    · cases List.mem_singleton.mp h
      rfl
    · cases List.mem_singleton.mp h

/-- A message answers with no error but the reported ones. -/
theorem isReported_of_takeMessage {m : Message}
    (h : .answer responder (.error error) ∈ (x.takeMessage now m).2) : error.isReported = true := by
  by_cases hnoop : m.type = MessageType.noop
  · rw [takeMessage_noop hnoop] at h
    cases h
  rcases hp : PendingTable.find? x.pending m.seq with _ | p
  · rw [takeMessage_unsolicited hnoop hp] at h
    cases h
  rw [takeMessage_pending hnoop hp] at h
  cases hverdict : Verdict.ofMessage p.expectsAck m with
  | part =>
    rw [hverdict] at h
    cases h
  | lastPart =>
    rw [hverdict] at h
    cases error_of_complete h
  | final result =>
    rw [hverdict] at h
    obtain rfl := error_of_complete h
    exact Verdict.isReported_of_ofMessage hverdict

/-- So does a row of messages. -/
theorem isReported_of_takeMessages {ms : List Message}
    (h : .answer responder (.error error) ∈ (x.takeMessages now ms).2) : error.isReported = true := by
  induction ms generalizing x with
  | nil => cases h
  | cons m rest ih =>
    rcases List.mem_append.mp h with hfirst | hlater
    · exact isReported_of_takeMessage hfirst
    · exact ih hlater

end Messages

/-! ## Causes -/

/-- Why an event answers a request with an error: `Cause x e responder error` says that this is what
`e` tells the caller, and gives the reason. -/
inductive Cause (x : Exchange) : ExchangeEvent → Responder → ExchangeError → Prop
  /-- The table was full when the command was taken. -/
  | full {now joined request responder rest} (hrunning : x.isRunning = true)
      (hcommands : x.commands = .send request responder :: rest)
      (hfull : x.options.maxPending ≤ x.pending.length) :
      Cause x (.take now joined) responder .tooManyRequests
  /-- The request is longer than a message can say. -/
  | oversized {now joined responder error} : Cause x (.take now joined) responder (.wire error)
  /-- The transport refused the datagram. -/
  | refused {now responder error} :
      Cause x (.transmit now (.error error)) responder (.io error)
  /-- A message says so. -/
  | reported {now data responder error} (hreported : error.isReported = true) :
      Cause x (.receive now (.ok data)) responder error
  /-- The transport failed. -/
  | lost {now responder error} (herror : error.isOverrun = false) :
      Cause x (.receive now (.error error)) responder (.connectionLost error.kind)
  /-- The deadline has come, and the caller is still there. -/
  | due {now seq p} (hmem : (seq, p) ∈ x.pending) (hdeadline : p.deadline ≤ now)
      (hthere : p.responder.isGone = false) : Cause x (.sweep now) p.responder .timeout
  /-- The exchange has ended. -/
  | late {e responder} : Cause x e responder .closed

variable {x : Exchange} {e : ExchangeEvent} {r : Exchange × List ExchangeOutput}
  {responder : Responder} {error : ExchangeError}

/-- A request that is refused when it is taken found no room or did not fit its datagram. -/
theorem cause_of_register {now : Time} {joined : Except IoError Unit} {request : Request}
    {owner : Responder} {rest : List Command} (hrunning : x.isRunning = true)
    (hcommands : x.commands = .send request owner :: rest)
    (h : .answer responder (.error error) ∈ ((x.popped rest).register now request owner).2) :
    Cause x (.take now joined) responder error := by
  rcases (x.popped rest).register_cases now request owner with
    ⟨hfull, heq⟩ | ⟨-, reason, -, heq⟩ | ⟨-, datagram, -, heq⟩
  · rw [heq] at h
    cases List.mem_singleton.mp h
    exact .full hrunning hcommands hfull
  · rw [heq] at h
    cases List.mem_singleton.mp h
    exact .oversized
  · rw [heq] at h
    cases h

/-- A sweep tells nobody of an error but those who reached their deadline. -/
theorem cause_of_sweep {now : Time} (hk : (PendingTable.keys x.pending).Nodup)
    (h : .answer responder (.error error) ∈ (x.sweep now).2) :
    Cause x (.sweep now) responder error := by
  rw [sweep_eq hk] at h
  obtain ⟨⟨seq, p⟩, hmem, hanswer⟩ := List.mem_map.mp h
  cases hanswer
  obtain ⟨hdue, hthere⟩ := List.mem_filter.mp hmem
  obtain ⟨hpending, hisDue⟩ := List.mem_filter.mp hdue
  have hthere : p.responder.isGone = false := by simpa using hthere
  have hdeadline : p.deadline ≤ now := by simpa [Pending.isDue, hthere] using hisDue
  exact .due hpending hdeadline hthere

/-- A transport that fails tells the pending of the loss, and the queued that they come too late. -/
theorem cause_of_shutdown {now : Time} {failure : IoError} (herror : failure.isOverrun = false)
    (h : .answer responder (.error error) ∈ (x.shutdown failure.kind).2) :
    Cause x (.receive now (.error failure)) responder error := by
  rcases List.mem_append.mp h with hpending | hqueued
  · obtain ⟨entry, -, hlost⟩ := List.mem_map.mp hpending
    cases hlost
    exact .lost herror
  · obtain ⟨command, -, hrejected⟩ := List.mem_map.mp hqueued
    cases command <;> cases hrejected
    exact .late

/-- Whoever is answered with an error is so for one of the causes. -/
theorem Acts.cause (hr : Acts x e r) (hk : (PendingTable.keys x.pending).Nodup)
    (h : .answer responder (.error error) ∈ r.2) : Cause x e responder error := by
  cases hr with
  | quiet hquiet =>
    -- a command that is not taken as a request can only come too late
    have hnotice := hquiet.outputs _ h
    cases error with
    | closed => exact .late
    | _ => cases hnotice
  | registers hrunning hcommands => exact cause_of_register hrunning hcommands h
  | transmits hegress => cases List.mem_singleton.mp h
  | refuses hegress =>
    cases error_of_complete h
    exact .refused
  | receives hrunning =>
    rw [takeDatagram_messages] at h
    exact .reported (isReported_of_takeMessages h)
  | loses hrunning herror => exact cause_of_shutdown herror h
  | sweeps hrunning => exact cause_of_sweep hk h
  | rests | closes => cases h
  | reads => cases List.mem_singleton.mp h

end Exchange

end Vswitch
