import TlsTransport.Session.Transfer

/-! # Connections

Request code reads and writes through a `Connection`, whether the bytes are encrypted or not. It
works over any `Transport`, and it remembers which direction an incomplete call waits for.

* `Plain`: the transport of a bare socket.
* `Connection.read`, `Connection.write`, `Connection.close`: the calls; `Connection.wants` is what
  the event loop has to wait for.
-/

namespace TlsTransport

/-- A byte stream whose operations never wait. -/
class Transport (τ : Type) where
  /-- Reads at most the given number of bytes; no bytes mean the end of the stream. -/
  receive : τ → Nat → Status Bytes Unit × τ
  /-- Writes bytes. After a call that would block, the same ones must be offered again. -/
  send : τ → Bytes → Status Nat Unit × τ
  /-- Shuts the stream down. -/
  shutdown : τ → Status Unit Unit × τ
  /-- What to wait for after a call that would block. -/
  direction : τ → Direction
  /-- The text of the last failure. -/
  lastError : τ → String

/-! ## Bare sockets -/

/-- A socket without encryption. -/
structure Plain (ω : Type) where
  stream : ω
  want : Direction
  lastError : Option IoError
  /-- The calls that were made, newest first. -/
  journal : List SocketCall

namespace Plain

variable {ω α : Type}

/-- A transport over a socket. -/
def ofSocket (k : ω) : Plain ω := ⟨k, .read, none, []⟩

/-- The status of a call, and what it leaves to wait for or to report. -/
def settle (p : Plain ω) (answer : Except IoError α) (want : Direction) :
    Status α Unit × Plain ω :=
  match answer with
  | .ok v => (.ok v, p)
  | .error e =>
    if e.isBlock then (.wouldBlock, { p with want := want })
    else (.error (), { p with lastError := some e })

/-- Takes over the socket after a call. -/
def after (p : Plain ω) (k : ω) (call : SocketCall) : Plain ω :=
  { p with stream := k, journal := call :: p.journal }

variable [Socket ω]

/-- Reads once. -/
def receive (p : Plain ω) (max : Nat) : Status Bytes Unit × Plain ω :=
  let r := Socket.read p.stream max
  (p.after r.2 (.read max r.1)).settle r.1 .read

/-- Writes once. -/
def send (p : Plain ω) (bytes : Bytes) : Status Nat Unit × Plain ω :=
  let r := Socket.write p.stream bytes
  (p.after r.2 (.write bytes r.1)).settle r.1 .write

/-- Hands on what was written. -/
def shutdown (p : Plain ω) : Status Unit Unit × Plain ω :=
  let r := Socket.flush p.stream
  (p.after r.2 (.flush r.1)).settle r.1 .write

end Plain

instance {ω : Type} [Socket ω] : Transport (Plain ω) where
  receive := Plain.receive
  send := Plain.send
  shutdown := Plain.shutdown
  direction := Plain.want
  lastError p := (p.lastError.map IoError.message).getD ""

instance {σ ω ε : Type} [Engine σ ε] [Socket ω] : Transport (Session σ ω ε) where
  receive := Session.readData
  send := Session.writeData
  shutdown := Session.close
  direction := Session.direction
  lastError := Session.lastErrorText

/-! ## Connections -/

/-- A transport and what its last incomplete call waits for. -/
structure Connection (τ : Type) where
  transport : τ
  wants : Option Direction
  /-- What was reported, newest first. -/
  log : List LogLine

namespace Connection

variable {τ α : Type}

/-- A connection over a transport. -/
def ofTransport (t : τ) : Connection τ := ⟨t, none, []⟩

variable [Transport τ]

/-- The answer of a call: `none` when it has to be repeated. -/
def settle (c : Connection τ) (r : Status α Unit × τ) : Except NetError (Option α) × Connection τ :=
  let c := { c with transport := r.2 }
  match r.1 with
  | .ok v => (.ok (some v), { c with wants := none })
  | .wouldBlock =>
    let d := Transport.direction r.2
    let line : LogLine := ⟨.trace, s!"session waits for {d.name}"⟩
    (.ok none, { c with wants := some d, log := line :: c.log })
  | .error _ => (.error (.tls (Transport.lastError r.2)), { c with wants := none })

/-- Reads what is available. -/
def read (c : Connection τ) (max : Nat) : Except NetError (Option Bytes) × Connection τ :=
  c.settle (Transport.receive c.transport max)

/-- Writes as much as possible. -/
def write (c : Connection τ) (bytes : Bytes) : Except NetError (Option Nat) × Connection τ :=
  c.settle (Transport.send c.transport bytes)

/-- Shuts down; `false` while that is still in progress. -/
def close (c : Connection τ) : Except NetError Bool × Connection τ :=
  let r := c.settle (Transport.shutdown c.transport)
  (r.1.map Option.isSome, r.2)

/-! ## Reports -/

variable {σ ω ε : Type} [Engine σ ε]

/-- What a connection and its session reported, oldest first. -/
def report (c : Connection (Session σ ω ε)) : List LogLine :=
  let own := c.transport.journal.reverse.filterMap fun
    | .notice n => some (n.logLine (Engine.render σ))
    | _ => none
  own ++ c.log.reverse

/-- The connection with nothing reported. -/
def forget (c : Connection (Session σ ω ε)) : Connection (Session σ ω ε) :=
  { c with transport := { c.transport with journal := [] }, log := [] }

end Connection
end TlsTransport
