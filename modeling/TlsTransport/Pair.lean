import TlsTransport.Connection
import TlsTransport.Pipe

/-! # Two sessions over one pipe

A `Pair` is a client and a server whose sessions are joined by a pipe. A call on one side works on
the wires as the other side left them.

* `Pair.onClient`, `Pair.onServer`: one call on one side.
* `Pair.handshake`: both handshake calls in turn, until both have an outcome.
* `Pair.transfer`: writes a payload on one side while the other side reads.
-/

namespace TlsTransport

/-- A session over one end of a pipe. -/
abbrev PipeSession (σ ε : Type) := Session σ Pipe.End ε

/-- A client and a server over one pipe. -/
structure Pair (σ τ ε φ : Type) where
  pipe : Pipe
  client : Connection (PipeSession σ ε)
  server : Connection (PipeSession τ φ)
  /-- What both sides reported, in the order in which they did. -/
  log : List LogLine

namespace Pair

variable {σ τ ε φ α : Type}

/-- A connection whose session sees the pipe as it is now. -/
def attach {σ ε : Type} (c : Connection (PipeSession σ ε)) (pipe : Pipe) :
    Connection (PipeSession σ ε) :=
  { c with transport := { c.transport with
      socket := c.transport.socket.map fun e => { e with pipe := pipe } } }

/-- The pipe as a session left it. -/
def pipeAfter {σ ε : Type} (c : Connection (PipeSession σ ε)) (pipe : Pipe) : Pipe :=
  match c.transport.socket with
  | some e => e.pipe
  | none => pipe

variable [Engine σ ε] [Engine τ φ]

/-- Two connections over an empty pipe. -/
def ofSessions (client : PipeSession σ ε) (server : PipeSession τ φ) : Pair σ τ ε φ :=
  ⟨.empty, .ofTransport client, .ofTransport server, []⟩

/-- A call on the client. -/
def onClient (p : Pair σ τ ε φ)
    (call : Connection (PipeSession σ ε) → α × Connection (PipeSession σ ε)) :
    α × Pair σ τ ε φ :=
  let r := call (attach p.client p.pipe)
  (r.1, { p with client := r.2.forget, pipe := pipeAfter r.2 p.pipe, log := p.log ++ r.2.report })

/-- A call on the server. -/
def onServer (p : Pair σ τ ε φ)
    (call : Connection (PipeSession τ φ) → α × Connection (PipeSession τ φ)) :
    α × Pair σ τ ε φ :=
  let r := call (attach p.server p.pipe)
  (r.1, { p with server := r.2.forget, pipe := pipeAfter r.2 p.pipe, log := p.log ++ r.2.report })

/-- Applies a session call to the session of a connection. -/
def onSession {σ ε : Type} (call : PipeSession σ ε → α × PipeSession σ ε)
    (c : Connection (PipeSession σ ε)) : α × Connection (PipeSession σ ε) :=
  let r := call c.transport
  (r.1, { c with transport := r.2 })

/-- Binds both sessions to their ends of the pipe. -/
def bindEnds (p : Pair σ τ ε φ) : Pair σ τ ε φ :=
  let p := (p.onClient (onSession (Session.init · ⟨p.pipe, .client⟩))).2
  (p.onServer (onSession (Session.init · ⟨p.pipe, .server⟩))).2

/-! ## Handshakes -/

/-- The outcome of a handshake on one side, once it has one. -/
abbrev Outcome := Option (Except String TlsVersion)

/-- The outcome in the status of a handshake call. -/
def Outcome.ofStatus : Status TlsVersion String → Outcome
  | .ok v => some (.ok v)
  | .wouldBlock => none
  | .error text => some (.error text)

/-- The outcomes of both sides and how many rounds they took. -/
structure HandshakeResult where
  client : Outcome
  server : Outcome
  rounds : Nat

/-- Makes the handshake call on each side that has no outcome yet, for at most so many rounds. -/
def handshakeFrom (host : String) (p : Pair σ τ ε φ) (r : HandshakeResult) :
    Nat → HandshakeResult × Pair σ τ ε φ
  | 0 => (r, p)
  | rounds + 1 =>
    let (client, p) := match r.client with
      | some o => (some o, p)
      | none =>
        let (status, p) := p.onClient (onSession (Session.connect · host))
        (Outcome.ofStatus status, p)
    let (server, p) := match r.server with
      | some o => (some o, p)
      | none =>
        let (status, p) := p.onServer (onSession Session.accept)
        (Outcome.ofStatus status, p)
    let r := ⟨client, server, r.rounds + 1⟩
    if client.isSome && server.isSome then (r, p) else handshakeFrom host p r rounds

/-- Drives both handshakes. -/
def handshake (p : Pair σ τ ε φ) (host : String) (rounds : Nat) :
    HandshakeResult × Pair σ τ ε φ :=
  handshakeFrom host p ⟨none, none, 0⟩ rounds

/-! ## Transfers -/

/-- A write on one side. -/
def writeOn (p : Pair σ τ ε φ) (who : Side) (data : Bytes) : Status Nat Unit × Pair σ τ ε φ :=
  match who with
  | .client => p.onClient (onSession (Session.writeData · data))
  | .server => p.onServer (onSession (Session.writeData · data))

/-- A read on one side. -/
def readOn (p : Pair σ τ ε φ) (who : Side) (max : Nat) : Status Bytes Unit × Pair σ τ ε φ :=
  match who with
  | .client => p.onClient (onSession (Session.readData · max))
  | .server => p.onServer (onSession (Session.readData · max))

/-- The last failure of one side. -/
def lastErrorOf (p : Pair σ τ ε φ) : Side → String
  | .client => p.client.transport.lastErrorText
  | .server => p.server.transport.lastErrorText

/-- How far a transfer came: what became of the write, and what was read. -/
structure Transfer where
  wrote : Option (Except String Nat)
  got : Bytes

/-- Writes until the write ends and reads on the other side, in turn and for at most so many rounds.
It stops when the write fails, when all was read, or when the reader can read no more. -/
def transferFrom (who : Side) (data : Bytes) (max : Nat) (p : Pair σ τ ε φ) (t : Transfer) :
    Nat → Transfer × Pair σ τ ε φ
  | 0 => (t, p)
  | rounds + 1 =>
    let (wrote, p) : Option (Except String Nat) × Pair σ τ ε φ := match t.wrote with
      | some answer => (some answer, p)
      | none =>
        let (status, p) := p.writeOn who data
        match status with
        | .ok n => (some (.ok n), p)
        | .wouldBlock => (none, p)
        | .error _ => (some (.error (p.lastErrorOf who)), p)
    match wrote with
    | some (.error _) => (⟨wrote, t.got⟩, p)
    | _ =>
      let (status, p) := p.readOn who.other max
      match status with
      | .ok [] | .error _ => (⟨wrote, t.got⟩, p)
      | .wouldBlock => transferFrom who data max p ⟨wrote, t.got⟩ rounds
      | .ok bytes =>
        let got := t.got ++ bytes
        if wrote.isSome && data.length ≤ got.length then (⟨wrote, got⟩, p)
        else transferFrom who data max p ⟨wrote, got⟩ rounds

/-- Moves a payload from one side to the other. -/
def transfer (p : Pair σ τ ε φ) (who : Side) (data : Bytes) (max rounds : Nat) :
    Transfer × Pair σ τ ε φ :=
  transferFrom who data max p ⟨none, []⟩ rounds

end Pair
end TlsTransport
