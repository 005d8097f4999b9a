import Vswitch.Exchange.History
import Vswitch.Exchange.Table
import Vswitch.Exchange.Tally
import Vswitch.Netlink.Datagram

/-!
# The exchange of requests and replies

Many callers share one transport. The exchange gives every request a sequence number, keeps it in a
table until its reply is complete, and answers its caller exactly once: with the reply, an error of the
kernel, its deadline, or the loss of the transport. Messages that answer no request go to a stream of
notifications, apart from late replies to requests that were given up.

The exchange is a transition system. An `ExchangeEvent` is one thing that happens to it; the time,
what the transport says and what callers do are part of the event. An `ExchangeOutput` is one thing
that the exchange does to the world.

* `Exchange.step`: the exchange after an event, and what it does;
* `Exchange.run`: the same for any sequence of events.
-/

namespace Vswitch

/-! ## Options, commands, events and outputs -/

/-- The bounds of an exchange. -/
structure ExchangeOptions where
  /-- How long a request waits, if it does not say so itself. -/
  timeout : Time := Time.ofSeconds 5
  /-- The time between two sweeps. -/
  sweepInterval : Time := Time.ofMillis 100
  /-- How many requests may be pending. -/
  maxPending : Nat := 4096
  /-- How many messages the notification stream holds. -/
  notificationBuffer : Nat := 1024
  /-- How many given-up requests are remembered. -/
  historyLength : Nat := 256
  deriving DecidableEq, Repr

/-- What a handle asks of the exchange. -/
inductive Command where
  | send (request : Request) (responder : Responder)
  | join (group : UInt32) (ticket : Nat)
  deriving DecidableEq, Repr

/-- One thing that happens to an exchange. -/
inductive ExchangeEvent where
  /-- A handle hands over a command. -/
  | submit (command : Command)
  /-- The caller of a request goes away. -/
  | abandon (ticket : Nat)
  /-- The exchange takes the oldest command; `joined` is what the transport says to a join. -/
  | take (now : Time) (joined : Except IoError Unit)
  /-- The transport is done with the oldest datagram that waits for it; it says how many octets it
  took. -/
  | transmit (now : Time) (result : Except IoError Nat)
  /-- The transport hands over a datagram or fails. -/
  | receive (now : Time) (result : Except IoError Bytes)
  /-- The time for a sweep has come. -/
  | sweep (now : Time)
  /-- The last handle is dropped. -/
  | dropHandles
  /-- The exchange ends if nothing is left to do. -/
  | rest
  /-- The listener takes the oldest notification. -/
  | readNotification
  /-- The listener goes away. -/
  | closeNotifications

/-- One thing that an exchange does to the world. -/
inductive ExchangeOutput where
  /-- A request is answered. -/
  | answer (responder : Responder) (response : Response)
  /-- A join is answered. -/
  | joined (ticket : Nat) (result : Except ExchangeError Unit)
  /-- A datagram was handed to the transport. -/
  | transmitted (seq : UInt32) (datagram : Bytes)
  /-- The listener is handed a notification. -/
  | notified (message : Message)

/-! ## State -/

/-- An exchange. -/
structure Exchange where
  options : ExchangeOptions
  /-- The port stamped on every request. -/
  port : UInt32
  /-- The sequence number given out last. -/
  lastSeq : UInt32
  /-- Commands handed over and not taken, oldest first. -/
  commands : List Command
  handlesDropped : Bool
  /-- Datagrams that wait for the transport, oldest first, with their sequence numbers. -/
  egress : List (UInt32 × Bytes)
  pending : PendingTable
  /-- The sequence numbers of requests that were given up. -/
  history : History
  /-- Notifications that the listener has not taken, oldest first. -/
  notifications : List Message
  isListening : Bool
  tally : Tally
  isRunning : Bool

namespace Exchange

/-- An exchange over a transport bound to a port. -/
def start (port : UInt32) (options : ExchangeOptions) : Exchange where
  options := options
  port := port
  lastSeq := 0
  commands := []
  handlesDropped := false
  egress := []
  pending := []
  history := History.empty options.historyLength
  notifications := []
  isListening := true
  tally := Tally.zero
  isRunning := true

/-! ## Requests -/

/-- The sequence number after `seq`. Zero is left to notifications. -/
def nextSeq (seq : UInt32) : UInt32 := if seq + 1 = 0 then 1 else seq + 1

/-- Answers and removes a pending request. -/
def complete (x : Exchange) (now : Time) (seq : UInt32) (result : Except ExchangeError Unit) :
    Exchange × List ExchangeOutput :=
  match PendingTable.find? x.pending seq with
  | none => (x, [])
  | some p =>
    ({ x with
        pending := PendingTable.erase x.pending seq
        tally := x.tally.countResponse (now - p.registered) },
      [.answer p.responder (result.map fun _ => p.parts)])

/-- Registers a request and queues its datagram, unless too many requests are pending. -/
def register (x : Exchange) (now : Time) (request : Request) (responder : Responder) :
    Exchange × List ExchangeOutput :=
  if x.options.maxPending ≤ x.pending.length then
    (x, [.answer responder (.error .tooManyRequests)])
  else
    let seq := nextSeq x.lastSeq
    match request.encode seq x.port with
    | .error error => ({ x with lastSeq := seq }, [.answer responder (.error (.wire error))])
    | .ok datagram =>
      ({ x with
          lastSeq := seq
          pending := PendingTable.insert x.pending seq
            { registered := now
              deadline := now + request.timeout.getD x.options.timeout
              received := []
              expectsAck := request.expectsAck
              responder := responder }
          egress := x.egress ++ [(seq, datagram)]
          tally := x.tally.countRequest }, [])

/-- Takes the oldest command. -/
def takeCommand (x : Exchange) (now : Time) (joined : Except IoError Unit) :
    Exchange × List ExchangeOutput :=
  match x.commands with
  | [] => (x, [])
  | .send request responder :: rest => register { x with commands := rest } now request responder
  | .join _ ticket :: rest =>
    ({ x with commands := rest }, [.joined ticket (joined.mapError .io)])

/-- Drops the oldest datagram that waits, once the transport has sent it or refused it. -/
def transmit (x : Exchange) (now : Time) (result : Except IoError Nat) :
    Exchange × List ExchangeOutput :=
  match x.egress with
  | [] => (x, [])
  | (seq, datagram) :: rest =>
    match result with
    | .ok sent =>
      ({ x with egress := rest, tally := x.tally.countSent sent }, [.transmitted seq datagram])
    | .error error => complete { x with egress := rest } now seq (.error (.io error))

/-! ## Replies -/

/-- Takes a message that answers no pending request: a late reply is dropped, all else is a
notification if the stream has room for it. -/
def takeUnsolicited (x : Exchange) (m : Message) : Exchange :=
  if m.seq ≠ 0 ∧ x.history.contains m.seq then { x with tally := x.tally.countDropped }
  else if x.isListening ∧ x.notifications.length < max x.options.notificationBuffer 1 then
    { x with
      notifications := x.notifications ++ [m]
      tally := x.tally.countNotification }
  else { x with tally := x.tally.countDropped }

/-- Takes a message. -/
def takeMessage (x : Exchange) (now : Time) (m : Message) : Exchange × List ExchangeOutput :=
  if m.type = MessageType.noop then (x, [])
  else
    match PendingTable.find? x.pending m.seq with
    | none => (x.takeUnsolicited m, [])
    | some p =>
      let extended := { x with pending := PendingTable.modify x.pending m.seq (·.addPart m) }
      match Verdict.ofMessage p.expectsAck m with
      | .part => (extended, [])
      | .lastPart => extended.complete now m.seq (.ok ())
      | .final result => x.complete now m.seq result

/-- Takes messages one after another. -/
def takeMessages (x : Exchange) (now : Time) : List Message → Exchange × List ExchangeOutput
  | [] => (x, [])
  | m :: rest =>
    let (x, first) := x.takeMessage now m
    let (x, later) := x.takeMessages now rest
    (x, first ++ later)

/-- Takes a datagram: its messages up to the first malformed one, with which the rest is dropped. -/
def takeDatagram (x : Exchange) (now : Time) (data : Bytes) : Exchange × List ExchangeOutput :=
  let (messages, error) := Datagram.messages data
  let (x, outputs) := { x with tally := x.tally.countReceived data.length }.takeMessages now messages
  match error with
  | none => (x, outputs)
  | some _ => ({ x with tally := x.tally.countDropped }, outputs)

/-! ## Ends -/

/-- Gives up one pending request: its deadline has come, or its caller has gone away. -/
def expire (x : Exchange) (seq : UInt32) : Exchange × List ExchangeOutput :=
  match PendingTable.find? x.pending seq with
  | none => (x, [])
  | some p =>
    let x := { x with
      pending := PendingTable.erase x.pending seq
      history := x.history.insert seq }
    if p.responder.isGone then ({ x with tally := x.tally.countCancelled }, [])
    else ({ x with tally := x.tally.countTimeout }, [.answer p.responder (.error .timeout)])

/-- Gives up pending requests one after another. -/
def expireAll (x : Exchange) : List UInt32 → Exchange × List ExchangeOutput
  | [] => (x, [])
  | seq :: rest =>
    let (x, first) := x.expire seq
    let (x, later) := x.expireAll rest
    (x, first ++ later)

/-- Gives up every request that is due. -/
def sweep (x : Exchange) (now : Time) : Exchange × List ExchangeOutput :=
  x.expireAll (PendingTable.due x.pending now)

/-- The answer to a command that comes too late. -/
def reject : Command → ExchangeOutput
  | .send _ responder => .answer responder (.error .closed)
  | .join _ ticket => .joined ticket (.error .closed)

/-- Ends the exchange because the transport failed: all pending requests are lost, and all commands
that were not taken come too late. -/
def shutdown (x : Exchange) (kind : IoKind) : Exchange × List ExchangeOutput :=
  ({ x with pending := [], commands := [], isRunning := false },
    (x.pending.map fun e => .answer e.2.responder (.error (.connectionLost kind)))
      ++ x.commands.map reject)

/-- Takes what the transport hands over. -/
def receive (x : Exchange) (now : Time) :
    Except IoError Bytes → Exchange × List ExchangeOutput
  | .ok data => x.takeDatagram now data
  | .error error => if error.isOverrun then (x, []) else x.shutdown error.kind

/-- Whether nothing is left to do and nothing can come. -/
def isIdle (x : Exchange) : Bool :=
  x.handlesDropped && x.commands.isEmpty && x.pending.isEmpty && x.egress.isEmpty

/-- The exchange once the caller of `ticket` has gone away. -/
def abandon (x : Exchange) (ticket : Nat) : Exchange :=
  { x with
    pending := PendingTable.abandon x.pending ticket
    commands := x.commands.map fun
      | .send request responder => .send request (responder.abandon ticket)
      | .join group caller => .join group caller }

/-- Hands the oldest notification to the listener, if there is one. -/
def readNotification (x : Exchange) : Exchange × List ExchangeOutput :=
  match x.notifications with
  | [] => (x, [])
  | m :: rest => ({ x with notifications := rest }, [.notified m])

/-- Takes a command from a handle. -/
def submit (x : Exchange) (command : Command) : Exchange × List ExchangeOutput :=
  if x.isRunning then ({ x with commands := x.commands ++ [command] }, [])
  else (x, [reject command])

/-! ## Steps and runs -/

/-- The exchange after an event, and what it does. An exchange that has ended only rejects commands
and lets its notifications be read. -/
def step (x : Exchange) : ExchangeEvent → Exchange × List ExchangeOutput
  | .submit command => x.submit command
  | .abandon ticket => (x.abandon ticket, [])
  | .take now joined => if x.isRunning then x.takeCommand now joined else (x, [])
  | .transmit now result => if x.isRunning then x.transmit now result else (x, [])
  | .receive now result => if x.isRunning then x.receive now result else (x, [])
  | .sweep now => if x.isRunning then x.sweep now else (x, [])
  | .dropHandles => ({ x with handlesDropped := true }, [])
  | .rest => ({ x with isRunning := x.isRunning && !x.isIdle }, [])
  | .readNotification => x.readNotification
  | .closeNotifications => ({ x with notifications := [], isListening := false }, [])

/-- The exchange after a sequence of events, and all that it does. -/
def run (x : Exchange) : List ExchangeEvent → Exchange × List ExchangeOutput
  | [] => (x, [])
  | e :: rest =>
    let (x, first) := x.step e
    let (x, later) := x.run rest
    (x, first ++ later)

end Exchange

end Vswitch
