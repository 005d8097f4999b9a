import Vswitch.Exchange.Basic

/-!
# Sessions over a link in memory

An exchange, a link to a far end that plays the kernel, and a clock that only `Session.sleep` moves.
After every operation all that can happen does happen, without time passing: datagrams are received
first, then those that wait are sent, then commands are taken one by one, each followed by sending.
Sweeps happen at the multiples of the sweep interval.

* `Session.request`, `Session.join`, `Session.abandon`: what callers do;
* `Session.deliver`, `Session.closeFarEnd`, `Session.block`: what the far end and the link do;
* `Session.sleep`: lets time pass.
-/

namespace Vswitch

/-- A link in memory. The far end sees what is sent and decides what comes back. -/
structure Link where
  /-- What the exchange has yet to receive, oldest first. -/
  inbound : List (Except IoError Bytes)
  /-- What the far end has yet to read, oldest first. -/
  outbound : List Bytes
  /-- Whether sends are held back. -/
  isBlocked : Bool
  /-- How the next sends fail, one after another. -/
  sendFailures : List IoError
  /-- How the next joins fail, one after another. -/
  joinFailures : List IoError
  /-- The multicast groups that were joined. -/
  groups : List UInt32
  /-- Whether the far end is there. -/
  isOpen : Bool

/-- A link on which nothing has happened. -/
def Link.fresh : Link := ⟨[], [], false, [], [], [], true⟩

/-- An exchange over a link in memory under a clock of its own. -/
structure Session where
  now : Time
  /-- When the next sweep happens. -/
  nextSweep : Time
  exchange : Exchange
  link : Link
  /-- Answers that callers have yet to look at. -/
  answers : List (Nat × Response)
  /-- Answers to joins that callers have yet to look at. -/
  joins : List (Nat × Except ExchangeError Unit)
  /-- Notifications that the listener has yet to look at. -/
  notified : List Message

namespace Session

/-- A session at time zero, after the first sweep. -/
def start (port : UInt32) (options : ExchangeOptions) : Session :=
  ⟨0, options.sweepInterval, Exchange.start port options, Link.fresh, [], [], []⟩

/-! ## Events of the exchange -/

/-- Carries out one output. Answers to callers that have gone away reach no one. -/
def perform (s : Session) : ExchangeOutput → Session
  | .answer responder response =>
    if responder.isGone then s else { s with answers := s.answers ++ [(responder.ticket, response)] }
  | .joined ticket result => { s with joins := s.joins ++ [(ticket, result)] }
  | .transmitted _ datagram => { s with link.outbound := s.link.outbound ++ [datagram] }
  | .notified message => { s with notified := s.notified ++ [message] }

/-- Takes over what the exchange has become and carries out what it did. -/
def follow (s : Session) (done : Exchange × List ExchangeOutput) : Session :=
  done.2.foldl perform { s with exchange := done.1 }

/-- Lets an event happen to the exchange and carries out what it does. -/
def apply (s : Session) (e : ExchangeEvent) : Session := s.follow (s.exchange.step e)

/-! ## All that can happen at once -/

/-- Receives what the link holds; a link without a far end fails after that. -/
def receiveAll (s : Session) : Session :=
  let ready := if s.link.isOpen then [] else [.error (.simple .connectionReset)]
  (s.link.inbound ++ ready).foldl (fun s r => s.apply (.receive s.now r))
    { s with link.inbound := [] }

/-- How many octets the link takes when the oldest datagram that waits is sent: all of them. -/
def sendSize (s : Session) : Nat := (s.exchange.egress.head?.map fun q => q.2.length).getD 0

/-- Sends the oldest datagram that waits, unless sends are held back. A send uses up one failure. -/
def sendOne (s : Session) : Session :=
  if s.link.isBlocked then s
  else
    match s.link.sendFailures with
    | [] => s.apply (.transmit s.now (.ok s.sendSize))
    | error :: later => { s with link.sendFailures := later }.apply (.transmit s.now (.error error))

/-- Sends every datagram that waits. -/
def sendAll (s : Session) : Session := s.exchange.egress.foldl (fun s _ => s.sendOne) s

/-- Takes one command; a join is tried on the link. -/
def takeOne (s : Session) (command : Command) : Session :=
  match command with
  | .send _ _ => s.apply (.take s.now (.ok ()))
  | .join group _ =>
    match s.link.joinFailures with
    | [] => { s with link.groups := s.link.groups.insert group }.apply (.take s.now (.ok ()))
    | error :: later => { s with link.joinFailures := later }.apply (.take s.now (.error error))

/-- Takes every command, each followed by sending. -/
def takeAll (s : Session) : Session :=
  s.exchange.commands.foldl (fun s command => (s.takeOne command).sendAll) s

/-- Lets all happen that can happen without time passing. -/
def settle (s : Session) : Session :=
  s.receiveAll.sendAll.takeAll.apply .rest

/-! ## Callers -/

/-- A caller hands over a request. -/
def request (s : Session) (responder : Responder) (request : Request) : Session :=
  (s.apply (.submit (.send request responder))).settle

/-- A caller asks for a multicast group. -/
def join (s : Session) (group : UInt32) (ticket : Nat) : Session :=
  (s.apply (.submit (.join group ticket))).settle

/-- A caller goes away. -/
def abandon (s : Session) (ticket : Nat) : Session := (s.apply (.abandon ticket)).settle

/-- The last handle is dropped. -/
def dropHandles (s : Session) : Session := (s.apply .dropHandles).settle

/-- The listener takes all notifications, one after another. -/
def readNotifications (s : Session) : Session :=
  (s.exchange.notifications.foldl (fun s _ => s.apply .readNotification) s).settle

/-- The listener goes away. -/
def closeNotifications (s : Session) : Session := (s.apply .closeNotifications).settle

/-- Whether the notification stream has ended: nothing will be added to it. -/
def isStreamEnded (s : Session) : Bool := !s.exchange.isRunning

/-! ## The far end and the link -/

/-- The far end sends a datagram, or lets the next receive fail. -/
def deliver (s : Session) (r : Except IoError Bytes) : Session :=
  { s with link.inbound := s.link.inbound ++ [r] }.settle

/-- Whether what the far end sends is received. -/
def isDeliverable (s : Session) : Bool := s.exchange.isRunning && s.link.isOpen

/-- The far end goes away. -/
def closeFarEnd (s : Session) : Session := { s with link.isOpen := false }.settle

/-- Whether the far end sees the exchange as a member of a group. -/
def isMember (s : Session) (group : UInt32) : Bool := s.link.isOpen && s.link.groups.contains group

/-- Holds sends back, or lets them go. -/
def block (s : Session) (isBlocked : Bool) : Session := { s with link.isBlocked := isBlocked }.settle

/-- Lets one more of the sends to come fail. -/
def failSend (s : Session) (error : IoError) : Session :=
  { s with link.sendFailures := s.link.sendFailures ++ [error] }.settle

/-- Lets one more of the joins to come fail. -/
def failJoin (s : Session) (error : IoError) : Session :=
  { s with link.joinFailures := s.link.joinFailures ++ [error] }.settle

/-! ## Time -/

/-- Goes to the time of the next sweep and sweeps. -/
def sweepOnce (s : Session) : Session :=
  ({ s with
      now := s.nextSweep
      nextSweep := s.nextSweep + s.exchange.options.sweepInterval }.apply
    (.sweep s.nextSweep)).settle

/-- Sweeps a number of times. -/
def sweepTimes (s : Session) : (count : Nat) → Session
  | 0 => s
  | count + 1 => s.sweepOnce.sweepTimes count

/-- Lets time pass. A sweep that falls on the end belongs to it. -/
def sleep (s : Session) (duration : Time) : Session :=
  let target := s.now + duration
  let count :=
    if target < s.nextSweep then 0
    else (target - s.nextSweep) / s.exchange.options.sweepInterval + 1
  { s.sweepTimes count with now := target }

/-! ## What has happened -/

/-- The answer to a request, if it has come. -/
def answer? (s : Session) (ticket : Nat) : Option Response := s.answers.lookup ticket

/-- The session with everything looked at. -/
def forget (s : Session) : Session :=
  { s with answers := [], joins := [], notified := [], link.outbound := [] }

end Session

end Vswitch
