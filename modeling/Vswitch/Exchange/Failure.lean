import Vswitch.Netlink.Errno
import Vswitch.Netlink.Message

/-!
# Failures of requests

The ways in which a transport can fail, and the ways in which a request can end without its reply.
-/

namespace Vswitch

/-! ## Transport -/

/-- The kind of a transport failure. -/
inductive IoKind where
  | notFound
  | permissionDenied
  | connectionRefused
  | connectionReset
  | hostUnreachable
  | networkUnreachable
  | connectionAborted
  | notConnected
  | addrInUse
  | addrNotAvailable
  | networkDown
  | brokenPipe
  | alreadyExists
  | wouldBlock
  | notADirectory
  | isADirectory
  | directoryNotEmpty
  | readOnlyFilesystem
  | filesystemLoop
  | staleNetworkFileHandle
  | invalidInput
  | invalidData
  | timedOut
  | writeZero
  | storageFull
  | notSeekable
  | quotaExceeded
  | fileTooLarge
  | resourceBusy
  | executableFileBusy
  | deadlock
  | crossesDevices
  | tooManyLinks
  | invalidFilename
  | argumentListTooLong
  | interrupted
  | unsupported
  | unexpectedEof
  | outOfMemory
  | inProgress
  | other
  | uncategorized
  deriving DecidableEq, Repr, Inhabited

/-- The name of a kind in error texts. -/
def IoKind.label : IoKind → String
  | .notFound => "NotFound"
  | .permissionDenied => "PermissionDenied"
  | .connectionRefused => "ConnectionRefused"
  | .connectionReset => "ConnectionReset"
  | .hostUnreachable => "HostUnreachable"
  | .networkUnreachable => "NetworkUnreachable"
  | .connectionAborted => "ConnectionAborted"
  | .notConnected => "NotConnected"
  | .addrInUse => "AddrInUse"
  | .addrNotAvailable => "AddrNotAvailable"
  | .networkDown => "NetworkDown"
  | .brokenPipe => "BrokenPipe"
  | .alreadyExists => "AlreadyExists"
  | .wouldBlock => "WouldBlock"
  | .notADirectory => "NotADirectory"
  | .isADirectory => "IsADirectory"
  | .directoryNotEmpty => "DirectoryNotEmpty"
  | .readOnlyFilesystem => "ReadOnlyFilesystem"
  | .filesystemLoop => "FilesystemLoop"
  | .staleNetworkFileHandle => "StaleNetworkFileHandle"
  | .invalidInput => "InvalidInput"
  | .invalidData => "InvalidData"
  | .timedOut => "TimedOut"
  | .writeZero => "WriteZero"
  | .storageFull => "StorageFull"
  | .notSeekable => "NotSeekable"
  | .quotaExceeded => "QuotaExceeded"
  | .fileTooLarge => "FileTooLarge"
  | .resourceBusy => "ResourceBusy"
  | .executableFileBusy => "ExecutableFileBusy"
  | .deadlock => "Deadlock"
  | .crossesDevices => "CrossesDevices"
  | .tooManyLinks => "TooManyLinks"
  | .invalidFilename => "InvalidFilename"
  | .argumentListTooLong => "ArgumentListTooLong"
  | .interrupted => "Interrupted"
  | .unsupported => "Unsupported"
  | .unexpectedEof => "UnexpectedEof"
  | .outOfMemory => "OutOfMemory"
  | .inProgress => "InProgress"
  | .other => "Other"
  | .uncategorized => "Uncategorized"

/-- A transport failure: its kind, and the error number if there is one. -/
structure IoError where
  errno? : Option Errno
  kind : IoKind
  deriving DecidableEq, Repr, Inhabited

namespace IoError

/-- The kinds of the error numbers that have one. -/
def kinds : List (Int32 × IoKind) :=
  [(1, .permissionDenied), (2, .notFound), (4, .interrupted), (7, .argumentListTooLong),
    (11, .wouldBlock), (12, .outOfMemory), (13, .permissionDenied), (16, .resourceBusy),
    (17, .alreadyExists), (18, .crossesDevices), (20, .notADirectory), (21, .isADirectory),
    (22, .invalidInput), (26, .executableFileBusy), (27, .fileTooLarge), (28, .storageFull),
    (29, .notSeekable), (30, .readOnlyFilesystem), (31, .tooManyLinks), (32, .brokenPipe),
    (35, .deadlock), (36, .invalidFilename), (38, .unsupported), (39, .directoryNotEmpty),
    (40, .filesystemLoop), (95, .unsupported), (98, .addrInUse), (99, .addrNotAvailable),
    (100, .networkDown), (101, .networkUnreachable), (103, .connectionAborted),
    (104, .connectionReset), (107, .notConnected), (110, .timedOut), (111, .connectionRefused),
    (113, .hostUnreachable), (115, .inProgress), (116, .staleNetworkFileHandle),
    (122, .quotaExceeded)]

/-- The kind that an error number falls under. -/
def kindOf (errno : Errno) : IoKind := (kinds.lookup errno.value).getD .uncategorized

/-- A failure that the system reports by a number. -/
def os (errno : Errno) : IoError := ⟨some errno, kindOf errno⟩

/-- A failure without a number. -/
def simple (kind : IoKind) : IoError := ⟨none, kind⟩

/-- Whether the failure says that replies were lost, after which the transport works on. -/
def isOverrun (e : IoError) : Bool := e.errno? == some Errno.noBufferSpace

end IoError

/-! ## Requests -/

/-- Why a request has no reply. -/
inductive ExchangeError where
  /-- The transport refused the request. -/
  | io (error : IoError)
  /-- A message is malformed. -/
  | wire (error : MessageError)
  /-- An attribute is malformed. -/
  | attr (error : AttrError)
  /-- The kernel answered with an error. -/
  | protocol (errno : Errno)
  /-- The deadline came first. -/
  | timeout
  /-- The exchange has ended. -/
  | closed
  /-- Too many requests wait for their replies. -/
  | tooManyRequests
  /-- The reply holds no message. -/
  | emptyReply
  /-- The kernel gave up replies. -/
  | overrun
  /-- The transport failed while the request waited. -/
  | connectionLost (kind : IoKind)
  deriving DecidableEq, Repr

namespace ExchangeError

/-- The text of the error. The text of a transport failure is the transport's own, and that of an error
of the kernel is known only where the meaning of its number is. -/
def message? : ExchangeError → Option String
  | .io _ => none
  | .wire error =>
    let cause := error.message
    some s!"Wire protocol error: {cause}"
  | .attr error =>
    let cause := error.message
    some s!"Attribute error: {cause}"
  | .protocol errno => errno.text?.map fun cause => s!"Kernel returned {cause}"
  | .timeout => some "Request timed out"
  | .closed => some "Connection closed"
  | .tooManyRequests => some "Too many pending requests"
  | .emptyReply => some "Expected a reply, kernel sent none"
  | .overrun => some "Kernel dropped replies (overrun)"
  | .connectionLost kind =>
    let cause := kind.label
    some s!"Connection lost: {cause}"

/-- Whether the kernel said that the object does not exist. -/
def isNotFound : ExchangeError → Bool
  | .protocol errno => errno.isNotFound
  | _ => false

end ExchangeError

/-- The outcome of a request: the data messages of its reply in the order in which they came. -/
abbrev Response := Except ExchangeError (List Message)

end Vswitch
