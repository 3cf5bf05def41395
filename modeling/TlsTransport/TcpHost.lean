import TlsTransport.Address
import TlsTransport.SetupError

/-! # TCP on a host without a network

A host can listen, but nothing reaches it and it reaches nothing. Listening binds an address of the
host for as long as the listener lives.
-/

namespace TlsTransport

/-- What a host knows of its listener. -/
structure TcpHost where
  /-- The address the last listener was bound to. -/
  address : Option SocketAddress
  listening : Bool

namespace TcpHost

/-- A host that never listened. -/
def idle : TcpHost := ⟨none, false⟩

/-- The port that is given to a listener that asks for any. -/
def freePort : UInt16 := 32768

/-- Whether an address is one of the host's own. -/
def isLocal : IpAddress → Bool
  | .v4 a b c d => a = 127 ∨ (a = 0 ∧ b = 0 ∧ c = 0 ∧ d = 0)
  | .v6 groups => groups.toList.dropLast.all (· == 0) && groups.back ≤ 1

/-- Listens, at the address of the last listener when none is given. -/
def listen (h : TcpHost) (address : Option SocketAddress) : Except NetError Unit × TcpHost :=
  match address <|> h.address with
  | none => (.error (.io (.system 99)), h)
  | some a =>
    if !isLocal a.ip then (.error (.io (.system 99)), h)
    else if h.listening ∧ h.address = some a then (.error (.io (.system 98)), h)
    else (.ok (), ⟨some (if a.port = 0 then { a with port := freePort } else a), true⟩)

/-- Stops listening. -/
def unlisten (h : TcpHost) : TcpHost := { h with listening := false }

/-- Connects; no route leads anywhere. -/
def connect (_ : TcpHost) : Except NetError Unit := .error (.io (.system 101))

/-- A connection that waits to be accepted; there is none. -/
def pending? (_ : TcpHost) : Option SocketAddress := none

end TcpHost
end TlsTransport
