/-! # Input and output errors

An `IoError` is what a socket, a file or an in-memory channel answers when an operation cannot be
done: a bare kind, a kind with a message of its own, or a system error number. `IoError.kind` is
what callers branch on, `IoError.message` what people read.
-/

namespace TlsTransport

/-- The kinds of input and output errors. -/
inductive IoErrorKind where
  | notFound | permissionDenied | connectionRefused | connectionReset | connectionAborted
  | notConnected | addressInUse | addressNotAvailable | brokenPipe | alreadyExists | wouldBlock
  | notADirectory | isADirectory | directoryNotEmpty | invalidInput | invalidData | timedOut
  | writeZero | interrupted | unsupported | unexpectedEof | outOfMemory | invalidFileName
  | networkUnreachable | other | uncategorized
  deriving DecidableEq, Repr

namespace IoErrorKind

/-- The name of a kind. -/
def name : IoErrorKind → String
  | notFound => "NotFound"
  | permissionDenied => "PermissionDenied"
  | connectionRefused => "ConnectionRefused"
  | connectionReset => "ConnectionReset"
  | connectionAborted => "ConnectionAborted"
  | notConnected => "NotConnected"
  | addressInUse => "AddrInUse"
  | addressNotAvailable => "AddrNotAvailable"
  | brokenPipe => "BrokenPipe"
  | alreadyExists => "AlreadyExists"
  | wouldBlock => "WouldBlock"
  | notADirectory => "NotADirectory"
  | isADirectory => "IsADirectory"
  | directoryNotEmpty => "DirectoryNotEmpty"
  | invalidInput => "InvalidInput"
  | invalidData => "InvalidData"
  | timedOut => "TimedOut"
  | writeZero => "WriteZero"
  | interrupted => "Interrupted"
  | unsupported => "Unsupported"
  | unexpectedEof => "UnexpectedEof"
  | outOfMemory => "OutOfMemory"
  | invalidFileName => "InvalidFilename"
  | networkUnreachable => "NetworkUnreachable"
  | other => "Other"
  | uncategorized => "Uncategorized"

/-- The sentence that describes a kind when the error has no message of its own. -/
def description : IoErrorKind → String
  | notFound => "entity not found"
  | permissionDenied => "permission denied"
  | connectionRefused => "connection refused"
  | connectionReset => "connection reset"
  | connectionAborted => "connection aborted"
  | notConnected => "not connected"
  | addressInUse => "address in use"
  | addressNotAvailable => "address not available"
  | brokenPipe => "broken pipe"
  | alreadyExists => "entity already exists"
  | wouldBlock => "operation would block"
  | notADirectory => "not a directory"
  | isADirectory => "is a directory"
  | directoryNotEmpty => "directory not empty"
  | invalidInput => "invalid input parameter"
  | invalidData => "invalid data"
  | timedOut => "timed out"
  | writeZero => "write zero"
  | interrupted => "operation interrupted"
  | unsupported => "unsupported"
  | unexpectedEof => "unexpected end of file"
  | outOfMemory => "out of memory"
  | invalidFileName => "invalid filename"
  | networkUnreachable => "network unreachable"
  | other => "other error"
  | uncategorized => "uncategorized error"

/-- Every kind, for looking one up by its name. -/
def all : List IoErrorKind :=
  [notFound, permissionDenied, connectionRefused, connectionReset, connectionAborted,
   notConnected, addressInUse, addressNotAvailable, brokenPipe, alreadyExists, wouldBlock,
   notADirectory, isADirectory, directoryNotEmpty, invalidInput, invalidData, timedOut,
   writeZero, interrupted, unsupported, unexpectedEof, outOfMemory, invalidFileName,
   networkUnreachable, other, uncategorized]

/-- The kind of a given name. -/
def ofName? (name : String) : Option IoErrorKind := all.find? fun k => k.name == name

end IoErrorKind

/-- The kind and the text of a system error number. -/
def systemError : Nat → IoErrorKind × String
  | 1 => (.permissionDenied, "Operation not permitted")
  | 2 => (.notFound, "No such file or directory")
  | 4 => (.interrupted, "Interrupted system call")
  | 5 => (.uncategorized, "Input/output error")
  | 9 => (.uncategorized, "Bad file descriptor")
  | 11 => (.wouldBlock, "Resource temporarily unavailable")
  | 12 => (.outOfMemory, "Cannot allocate memory")
  | 13 => (.permissionDenied, "Permission denied")
  | 17 => (.alreadyExists, "File exists")
  | 20 => (.notADirectory, "Not a directory")
  | 21 => (.isADirectory, "Is a directory")
  | 22 => (.invalidInput, "Invalid argument")
  | 32 => (.brokenPipe, "Broken pipe")
  | 36 => (.invalidFileName, "File name too long")
  | 39 => (.directoryNotEmpty, "Directory not empty")
  | 98 => (.addressInUse, "Address already in use")
  | 99 => (.addressNotAvailable, "Cannot assign requested address")
  | 101 => (.networkUnreachable, "Network is unreachable")
  | 103 => (.connectionAborted, "Software caused connection abort")
  | 104 => (.connectionReset, "Connection reset by peer")
  | 107 => (.notConnected, "Transport endpoint is not connected")
  | 110 => (.timedOut, "Connection timed out")
  | 111 => (.connectionRefused, "Connection refused")
  | n => (.uncategorized, s!"Unknown error {n}")

/-- Why an input or output operation failed. -/
inductive IoError where
  | bare (kind : IoErrorKind)
  | described (kind : IoErrorKind) (text : String)
  | system (number : Nat)
  deriving DecidableEq, Repr

namespace IoError

/-- What callers branch on. -/
def kind : IoError → IoErrorKind
  | bare k => k
  | described k _ => k
  | system n => (systemError n).1

/-- What people read. -/
def message : IoError → String
  | bare k => k.description
  | described _ text => text
  | system n => s!"{(systemError n).2} (os error {n})"

end IoError
end TlsTransport
