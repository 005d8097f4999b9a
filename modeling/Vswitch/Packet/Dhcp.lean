import Vswitch.Address
import Vswitch.Packet.Malformed

/-!
# DHCP

The fixed part of 236 octets, the magic cookie and the options. An option is a code, a length octet
and a value; code 0 is a pad without length, code 255 ends the options. A value of more than 255
octets is written as several options of the same code, one after another.
-/

namespace Vswitch

/-- An option as a code and a value of any length. -/
structure DhcpOption where
  code : UInt8
  value : Bytes
  deriving DecidableEq, Repr, Inhabited

/-- A DHCP message. The three name fields have fixed widths: 16, 64 and 128 octets. -/
structure Dhcp where
  op : UInt8
  hardwareType : UInt8
  hardwareLen : UInt8
  hops : UInt8
  xid : UInt32
  secs : UInt16
  flags : UInt16
  clientIp : Ipv4Addr
  yourIp : Ipv4Addr
  serverIp : Ipv4Addr
  gatewayIp : Ipv4Addr
  clientHardware : Vector UInt8 16
  serverName : Vector UInt8 64
  bootFile : Vector UInt8 128
  /-- The options in wire order, without pads and end mark. -/
  options : List DhcpOption
  deriving DecidableEq, Repr, Inhabited

namespace DhcpOption

/-- The code of a pad. -/
def pad : UInt8 := 0

/-- The code of the end mark. -/
def endMark : UInt8 := 255

/-- The code of the message type. -/
def messageType : UInt8 := 53

/-- The greatest number of octets in one option on the wire. -/
def maxLength : Nat := 255

/-- A value cut into pieces of at most 255 octets; an empty value is one empty piece. -/
def pieces (value : Bytes) : List Bytes :=
  if value.length ≤ maxLength then [value]
  else value.take maxLength :: pieces (value.drop maxLength)
termination_by value.length
decreasing_by simp only [maxLength, Nat.not_le, List.length_drop] at *; omega

/-- The octets of an option: one code and length in front of each piece. -/
def encode (o : DhcpOption) : Bytes :=
  (pieces o.value).flatMap fun piece => o.code :: UInt8.ofNat piece.length :: piece

/-- Reads options up to the end mark or the end of the string. The position `offset` of the string in
the packet counts towards the lengths that an error reports, and `available` is the packet's. -/
def decodeAll (available offset : Nat) : Bytes → Except Malformed (List DhcpOption)
  | [] => .ok []
  | code :: rest =>
    if code = pad then decodeAll available (offset + 1) rest
    else if code = endMark then .ok []
    else
      match rest with
      | [] => .error (.truncated .dhcp (offset + 2) available)
      | len :: rest => do
        let next := offset + 2 + len.toNat
        if available < next then
          throw (.truncated .dhcp next available)
        let later ← decodeAll available next (rest.drop len.toNat)
        return ⟨code, rest.take len.toNat⟩ :: later
termination_by data => data.length

end DhcpOption

namespace Dhcp

/-- Octets of the fixed part. -/
def fixedLength : Nat := 236

/-- The word between the fixed part and the options. -/
def magicCookie : UInt32 := 0x63825363

/-- A field of `n` octets, the front of `data` filled up with zeros. -/
def paddedField (n : Nat) (data : Bytes) : Vector UInt8 n := Vector.ofFn fun i => data.octet i

/-- A message from the client with hardware address `mac`. -/
def ofClient (op : UInt8) (xid : UInt32) (mac : MacAddr) : Dhcp where
  op := op
  hardwareType := 1
  hardwareLen := 6
  hops := 0
  xid := xid
  secs := 0
  flags := 0
  clientIp := Ipv4Addr.unspecified
  yourIp := Ipv4Addr.unspecified
  serverIp := Ipv4Addr.unspecified
  gatewayIp := Ipv4Addr.unspecified
  clientHardware := paddedField 16 mac.octets
  serverName := paddedField 64 []
  bootFile := paddedField 128 []
  options := []

/-- The first option of a code. -/
def option? (d : Dhcp) (code : UInt8) : Option DhcpOption := d.options.find? (·.code == code)

/-- The message type, when the option is there and holds an octet. -/
def messageType? (d : Dhcp) : Option UInt8 :=
  (d.option? DhcpOption.messageType).bind (·.value.head?)

/-- Reads a message. -/
def decode (data : Bytes) : Except Malformed Dhcp := do
  let optionsStart := fixedLength + 4
  expectOctets .dhcp optionsStart data
  let cookie := data.be32At fixedLength
  if cookie ≠ magicCookie then
    throw (.invalidField .dhcp .magicCookie cookie.toNat)
  let options ← DhcpOption.decodeAll data.length optionsStart (data.drop optionsStart)
  return {
    op := data.octet 0
    hardwareType := data.octet 1
    hardwareLen := data.octet 2
    hops := data.octet 3
    xid := data.be32At 4
    secs := data.be16At 8
    flags := data.be16At 10
    clientIp := Ipv4Addr.ofBytes data 12
    yourIp := Ipv4Addr.ofBytes data 16
    serverIp := Ipv4Addr.ofBytes data 20
    gatewayIp := Ipv4Addr.ofBytes data 24
    clientHardware := paddedField 16 (data.slice 28 16)
    serverName := paddedField 64 (data.slice 44 64)
    bootFile := paddedField 128 (data.slice 108 128)
    options := options }

/-- The fixed part and the cookie. -/
def fixedPart (d : Dhcp) : Bytes :=
  [d.op, d.hardwareType, d.hardwareLen, d.hops] ++ Bytes.be32 d.xid ++ Bytes.be16 d.secs
    ++ Bytes.be16 d.flags ++ d.clientIp.octets ++ d.yourIp.octets ++ d.serverIp.octets
    ++ d.gatewayIp.octets ++ d.clientHardware.toList ++ d.serverName.toList ++ d.bootFile.toList
    ++ Bytes.be32 magicCookie

/-- Appends the message to a buffer. -/
def appendTo (d : Dhcp) (buffer : Bytes) : Bytes :=
  buffer ++ d.fixedPart ++ d.options.flatMap DhcpOption.encode ++ [DhcpOption.endMark]

/-- The octets of the message. -/
def encode (d : Dhcp) : Bytes := d.appendTo []

end Dhcp

end Vswitch
