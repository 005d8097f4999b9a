import Vswitch.Flow.Wildcard
import Vswitch.Topology.Cache
import Vswitch.Uuid

/-!
# The trip of a packet

A packet that is taken through the virtual topology carries a context: the match with which it came,
the match as devices rewrote it, the devices that it entered, and tags by which the resulting flow is
found again when a device changes. Devices that track connections ask whether the packet belongs to the
forward or the return direction, and let the return direction through by an entry in a cache.

* `Context.enter`: enters a device, up to a limit;
* `Context.isForward`: decides the direction, once for each context;
* `Context.install`: lets the return direction through.
-/

namespace Vswitch

/-! ## Tags -/

/-- Marks the flows that depend on a device. -/
abbrev FlowTag := UInt64

namespace FlowTag

/-- The odd constant of the multiplicative hash. -/
def multiplier : UInt64 := 0x517cc1b727220a95

/-- The word rotated left by `k` bits, `0 < k < 64`. -/
def rotateLeft (w k : UInt64) : UInt64 := (w <<< k) ||| (w >>> (64 - k))

/-- Mixes one word into a hash: rotate by five, exclusive or, multiply. -/
def mix (hash word : UInt64) : UInt64 := (rotateLeft hash 5 ^^^ word) * multiplier

/-- The tag of the flows that went through a device: the hash of the device's octets, read as two
words in host order. -/
def ofDevice (device : Uuid) : FlowTag :=
  mix (mix 0 (device.octets.le64At 0)) (device.octets.le64At 8)

/-- The tag as sixteen digits after `0x`. -/
def text (tag : FlowTag) : String := "0x" ++ Hex.text 16 tag.toNat

end FlowTag

/-! ## Tracked connections -/

/-- The ends of a tracked connection as a device sees them. -/
structure ConnectionKey where
  source : Ipv4Addr
  sourcePort : UInt16
  destination : Ipv4Addr
  destinationPort : UInt16
  protocol : UInt8
  device : Uuid
  deriving DecidableEq, Repr

namespace ConnectionKey

/-- The connection of a match at a device. Only TCP and UDP over IPv4 with both addresses and both
ports are tracked. -/
def ofMatch? (m : WildcardMatch) (device : Uuid) : Option ConnectionKey := do
  let type : UInt16 ← m.get? .etherType
  let protocol : UInt8 ← m.get? .networkProtocol
  if type = EtherType.ipv4 ∧ (protocol = IpProtocol.tcp ∨ protocol = IpProtocol.udp) then
    let source : Ipv4Addr ← m.get? .networkSource
    let sourcePort : UInt16 ← m.get? .transportSource
    let destination : Ipv4Addr ← m.get? .networkDestination
    let destinationPort : UInt16 ← m.get? .transportDestination
    return ⟨source, sourcePort, destination, destinationPort, protocol, device⟩
  else
    none

/-- The same connection seen from the other end. -/
def reversed (k : ConnectionKey) : ConnectionKey :=
  { k with
    source := k.destination
    sourcePort := k.destinationPort
    destination := k.source
    destinationPort := k.sourcePort }

/-- The key under which the cache holds the connection: the six parts between bars. -/
def text (k : ConnectionKey) : String :=
  String.intercalate "|"
    [k.source.text, k.sourcePort.toNat.repr, k.destination.text, k.destinationPort.toNat.repr,
      k.protocol.toNat.repr, k.device.text]

end ConnectionKey

/-- The direction of a packet within its connection. -/
inductive Direction where
  | unknown
  | forward
  | reply
  deriving DecidableEq, Repr

/-! ## Contexts -/

/-- The bounds of a trip. -/
structure ContextOptions where
  /-- How many devices a packet may enter. -/
  maxDevices : Nat := 12
  /-- How long the return direction is let through. -/
  conntrackTtl : Time := Time.ofSeconds 60
  deriving DecidableEq, Repr

/-- Why a trip is given up. -/
inductive TraversalError where
  | limitReached (limit : Nat) (device : Uuid)
  deriving DecidableEq, Repr

/-- The text of a traversal error. -/
def TraversalError.message : TraversalError → String
  | .limitReached limit device =>
    let last := device.text
    s!"packet traversed more than {limit} devices (last: {last})"

/-- The state of one packet's trip. -/
structure Context where
  /-- The match with which the packet came. -/
  arrival : WildcardMatch
  /-- The match as devices changed it. -/
  current : WildcardMatch
  ingress : Uuid
  /-- Names the packet that started the trip. -/
  cookie : Option UInt32
  /-- The devices in the order in which they were entered. -/
  traversed : List Uuid
  /-- Different tags. -/
  tags : List FlowTag
  direction : Direction
  deadline : Option Time
  options : ContextOptions

namespace Context

/-- A packet that comes in through a port. -/
def start (m : WildcardMatch) (ingress : Uuid) (options : ContextOptions) : Context where
  arrival := m
  current := m
  ingress := ingress
  cookie := none
  traversed := []
  tags := []
  direction := .unknown
  deadline := none
  options := options

/-- Whether the deadline has come. -/
def isExpired (c : Context) (now : Time) : Bool :=
  match c.deadline with
  | none => false
  | some deadline => decide (deadline ≤ now)

/-- Adds a tag that is not there. -/
def tag (c : Context) (t : FlowTag) : Context := { c with tags := c.tags.insert t }

/-- Enters a device and tags the flow with it, unless the limit is reached. -/
def enter (c : Context) (device : Uuid) : Except TraversalError Context :=
  if c.traversed.length < c.options.maxDevices then
    .ok ({ c with traversed := c.traversed ++ [device] }.tag (FlowTag.ofDevice device))
  else
    .error (.limitReached c.options.maxDevices device)

/-- Sets a field of the current match. -/
def setField (c : Context) (f : Field) (raw : f.Raw) : Except FieldError Context :=
  return { c with current := ← c.current.set f raw }

/-- The direction that a cache tells, and the cache after the look-up. An entry for the connection
makes the packet a return packet; untracked packets go forward. -/
def lookUp (c : Context) (device : Uuid) (cache : Cache) (now : Time) : Direction × Cache :=
  match ConnectionKey.ofMatch? c.current device with
  | none => (.forward, cache)
  | some key =>
    match cache.get now key.text with
    | (some _, cache) => (.reply, cache)
    | (none, cache) => (.forward, cache)

/-- Decides the direction, if it is not decided yet. -/
def decideDirection (c : Context) (device : Uuid) (cache : Cache) (now : Time) : Context × Cache :=
  if c.direction = .unknown then
    let (direction, cache) := c.lookUp device cache now
    ({ c with direction := direction }, cache)
  else
    (c, cache)

/-- Whether the packet goes forward, as far as it is decided. -/
def isForward (c : Context) : Bool := c.direction == .forward

/-- The value of a cache entry, of which only the presence counts. -/
def connectionMark : String := "r"

/-- Lets the return direction through a device, unless the packet is a return packet itself or not
tracked. -/
def install (c : Context) (device : Uuid) (cache : Cache) (now : Time) : Cache :=
  if c.direction = .reply then cache
  else
    match ConnectionKey.ofMatch? c.current device with
    | none => cache
    | some key => cache.putFor now key.reversed.text connectionMark c.options.conntrackTtl

end Context

end Vswitch
