import TlsTransport.Classic.Chain
import TlsTransport.Text.Character

/-! # Failures of the classic provider

The call in which a connection fails tells the reason. What later calls tell is less, and is decided
by `Fault.later`.
-/

namespace TlsTransport.Classic

/-- Why a call of the engine failed. -/
inductive Fault where
  | notStarted
  /-- The connection could not be set up. -/
  | refused (reason : Reason)
  | protocol (reason : Reason)
  /-- The chain of the peer does not hold. -/
  | untrusted (fault : ChainFault)
  /-- The peer closed the connection before its time. -/
  | closed
  /-- Data cannot be sent yet. -/
  | tooEarly
  /-- The connection failed before. -/
  | ended
  deriving DecidableEq, Repr

namespace Fault

/-- A failure as people read it. -/
def message : Fault → String
  | notStarted => "TLS engine not started"
  | refused reason => reason.text
  | protocol reason => s!"protocol error: {reason.text}"
  | untrusted fault => s!"certificate verify failed: {fault.text}"
  | closed => "the SSL session has been shut down"
  | tooEarly => "a nonblocking read call would have blocked"
  | ended => "EOF was received"

/-- What later calls answer: a bad chain stays the reason, an alert counts as the end of what the
peer sends, and of all else nothing more is told. -/
def later : Fault → Fault
  | untrusted fault => untrusted fault
  | protocol (.alert _) => closed
  | _ => ended

/-- A failure as it stands in the log. -/
def render : Fault → String
  | notStarted => "NotStarted"
  | refused reason => s!"Stack({quoted reason.text})"
  | untrusted fault => s!"Verify({quoted fault.text})"
  | f => s!"Ssl({quoted f.message})"

end Fault
end TlsTransport.Classic
