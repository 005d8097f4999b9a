import Vswitch.Address
import Vswitch.Attribute.Basic

/-!
# Attribute trees

What is written to an attribute stream is a tree: leaves with a value, nodes with children. The writer
appends to a buffer. It opens a node with a header that has no length yet, writes the children behind it,
and closes the node by filling the length in. Padding aligns the buffer and not the attribute.

An attribute that exceeds its 16-bit length is left out, with all of its children, and the first such
attribute is remembered: children come before their parent, and siblings in order.

* `AttrTree.write`, `AttrTree.writeAll`: a tree and a list of trees, written to a buffer;
* `Written.finish`: the buffer, or the first attribute that did not fit.
-/

namespace Vswitch

/-- An attribute to be written, with its type as given. -/
inductive AttrTree where
  | leaf (type : UInt16) (value : Bytes)
  | node (type : UInt16) (children : List AttrTree)
  deriving Inhabited

/-! ## The writer -/

/-- What has been written: the buffer, and the first attribute that was left out. -/
structure Written where
  bytes : Bytes
  failure : Option AttrError
  deriving DecidableEq, Repr

namespace Written

/-- A buffer to which nothing has been written yet. -/
def onto (buffer : Bytes) : Written := ⟨buffer, none⟩

/-- Appends octets. -/
def append (w : Written) (data : Bytes) : Written := { w with bytes := w.bytes ++ data }

/-- Aligns the end of the buffer. -/
def pad (w : Written) : Written := { w with bytes := w.bytes.padTo (Bytes.align4 w.bytes.length) }

/-- Remembers a failure, unless there is an earlier one. -/
def fail (w : Written) (failure : Option AttrError) : Written :=
  { w with failure := w.failure <|> failure }

/-- The greatest length that a 16-bit length field holds. -/
def maxLength : Nat := 65535

/-- Writes an attribute, or refuses one that is too long. -/
def put (w : Written) (type : UInt16) (value : Bytes) : Written :=
  let len := Attr.headerLength + value.length
  if len ≤ maxLength then
    (w.append (Bytes.le16 (UInt16.ofNat len) ++ Bytes.le16 type ++ value)).pad
  else w.fail (some (.tooLong type len))

/-- Opens a node: its header, without a length. -/
def openNode (w : Written) (type : UInt16) : Written :=
  w.append (Bytes.le16 0 ++ Bytes.le16 (type ||| Attr.nestedFlag))

/-- Closes the node that was opened at `start`: fills its length in, or takes it back if it has become
too long. -/
def closeNode (w : Written) (type : UInt16) (start : Nat) : Written :=
  let len := w.bytes.length - start
  if len ≤ maxLength then
    Written.pad { w with bytes := w.bytes.overwrite start (Bytes.le16 (UInt16.ofNat len)) }
  else Written.fail { w with bytes := w.bytes.take start } (some (.tooLong type len))

/-- Succeeds when nothing was left out. -/
def finish (w : Written) : Except AttrError Bytes :=
  match w.failure with
  | none => .ok w.bytes
  | some failure => .error failure

end Written

namespace AttrTree

mutual

/-- Writes a tree. The children of a node remember failures of their own. -/
def write (w : Written) : AttrTree → Written
  | .leaf type value => w.put type value
  | .node type children =>
    let inner := writeAll (Written.onto (w.openNode type).bytes) children
    Written.closeNode ⟨inner.bytes, (w.fail inner.failure).failure⟩ type w.bytes.length

/-- Writes trees one after another. -/
def writeAll (w : Written) : List AttrTree → Written
  | [] => w
  | tree :: rest => writeAll (write w tree) rest

end

/-- A body: a fixed header and the trees after it. -/
def body (header : Bytes) (trees : List AttrTree) : Written := writeAll (Written.onto header) trees

/-! ## Typed leaves -/

/-- An attribute without a value. -/
def flag (type : UInt16) : AttrTree := .leaf type []

/-- One octet. -/
def u8 (type : UInt16) (w : UInt8) : AttrTree := .leaf type [w]

/-- Two octets in host order. -/
def u16 (type : UInt16) (w : UInt16) : AttrTree := .leaf type (Bytes.le16 w)

/-- Four octets in host order. -/
def u32 (type : UInt16) (w : UInt32) : AttrTree := .leaf type (Bytes.le32 w)

/-- Eight octets in host order. -/
def u64 (type : UInt16) (w : UInt64) : AttrTree := .leaf type (Bytes.le64 w)

/-- A signed word in host order. -/
def i32 (type : UInt16) (w : Int32) : AttrTree := .leaf type (Bytes.le32 w.toUInt32)

/-- Two octets in network order. -/
def be16 (type : UInt16) (w : UInt16) : AttrTree := .leaf type (Bytes.be16 w)

/-- Four octets in network order. -/
def be32 (type : UInt16) (w : UInt32) : AttrTree := .leaf type (Bytes.be32 w)

/-- Eight octets in network order. -/
def be64 (type : UInt16) (w : UInt64) : AttrTree := .leaf type (Bytes.be64 w)

/-- A network address in its four octets. -/
def ipv4 (type : UInt16) (ip : Ipv4Addr) : AttrTree := .leaf type ip.octets

/-- Text in UTF-8, closed by a zero octet. -/
def text (type : UInt16) (s : String) : AttrTree := .leaf type (s.toUTF8.toList ++ [0])

end AttrTree

end Vswitch
