/-! # Roles, three-way outcomes and the log

Every non-blocking operation ends in a `Status`: it completed, it has to be repeated once the
socket is ready, or it failed. What is reported beside the answers are log lines.
-/

namespace TlsTransport

/-- The role of a context or a session in the handshake. -/
inductive Side where
  | client
  | server
  deriving DecidableEq, Repr, Inhabited

/-- The name of a role. -/
def Side.name : Side → String
  | client => "Client"
  | server => "Server"

/-- The role of the peer. -/
def Side.other : Side → Side
  | client => server
  | server => client

/-- What a session needs from its socket before it can make progress. -/
inductive Direction where
  | read
  | write
  deriving DecidableEq, Repr

/-- The name of a direction. -/
def Direction.name : Direction → String
  | read => "WantRead"
  | write => "WantWrite"

/-- The outcome of a non-blocking operation. -/
inductive Status (α : Type) (ε : Type) where
  /-- The operation completed. -/
  | ok (value : α)
  /-- No progress was possible; the same call is to be repeated. -/
  | wouldBlock
  /-- The operation failed. -/
  | error (reason : ε)
  deriving DecidableEq, Repr

namespace Status

variable {α β ε : Type}

/-- The numeric result code. -/
def code : Status α ε → Int
  | ok _ => 0
  | wouldBlock => -2
  | error _ => -1

/-- Whether the operation completed. -/
def isOk : Status α ε → Bool
  | ok _ => true
  | _ => false

/-- Whether the operation has to be repeated. -/
def isWouldBlock : Status α ε → Bool
  | wouldBlock => true
  | _ => false

/-- Whether the operation failed. -/
def isError : Status α ε → Bool
  | error _ => true
  | _ => false

/-- Applies a function to the value of a completed operation. -/
def map (f : α → β) : Status α ε → Status β ε
  | ok v => ok (f v)
  | wouldBlock => wouldBlock
  | error e => error e

/-- Forgets why an operation failed. -/
def discardError : Status α ε → Status α Unit
  | ok v => ok v
  | wouldBlock => wouldBlock
  | error _ => error ()

/-- The outcome as text, given the text of a value and of a reason. -/
def render (value : α → String) (reason : ε → String) : Status α ε → String
  | ok v => s!"Ok({value v})"
  | wouldBlock => "WouldBlock"
  | error e => s!"Error({reason e})"

end Status

/-! ## The log -/

/-- How much a log line matters. -/
inductive LogLevel where
  | trace | debug | info | warn | error
  deriving DecidableEq, Repr

/-- The label of a level. -/
def LogLevel.label : LogLevel → String
  | trace => "TRACE"
  | debug => "DEBUG"
  | info => "INFO"
  | warn => "WARN"
  | error => "ERROR"

/-- One line of the log. -/
structure LogLine where
  level : LogLevel
  text : String
  deriving DecidableEq, Repr

/-- A line as it is printed. -/
def LogLine.render (line : LogLine) : String := s!"{line.level.label} {line.text}"

end TlsTransport
