import TlsTransport.Address
import TlsTransport.SetupError

/-! # Resolving socket addresses

Turns `host:port` into a socket address. Literal addresses are read; a host that is not a literal
would be looked up, which this library leaves to its caller.
-/

namespace TlsTransport

/-- Splits a text at its last colon. -/
def splitLastColon? (text : List Char) : Option (List Char × List Char) :=
  let tail := text.reverse.takeWhile (· != ':')
  if tail.length < text.length then
    some (text.take (text.length - tail.length - 1), tail.reverse)
  else none

/-- A decimal number with an optional plus sign that does not exceed a bound. -/
def parseNumber? (bound : Nat) (text : List Char) : Option Nat :=
  let digits := match text with
    | '+' :: rest => rest
    | text => text
  match NumberFormat.read? ⟨10, none, bound, true⟩ digits with
  | some (n, []) => some n
  | _ => none

/-- The socket address that a text names. -/
def resolve (text : String) : Except NetError SocketAddress :=
  match SocketAddress.parse? text with
  | some a => .ok a
  | none =>
    match splitLastColon? text.toList with
    | none => .error (.io (.described .invalidInput "invalid socket address"))
    | some (host, port) =>
      match parseNumber? 65535 port with
      | none => .error (.io (.described .invalidInput "invalid port value"))
      | some p =>
        match IpAddress.parse? (String.ofList host) with
        | some ip => .ok ⟨ip, .ofNat p, 0⟩
        | none => .error (.io (.described .uncategorized
            "failed to lookup address information: Name or service not known"))

end TlsTransport
