import TlsTransport.Engine
import TlsTransport.Status
import TlsTransport.Tagged.Record

/-! # The engine of the tagged-record protocol

A client opens, the server answers, and the client's last record completes the handshake. A server
may ask for a new handshake after every so many data records.

* `Tagged.Engine`: the state of one connection; it is an `Engine` of sessions.
-/

namespace TlsTransport.Tagged

/-- How far a handshake came. -/
inductive Phase where
  | idle | awaitHelloDone | awaitFinished | done
  deriving DecidableEq, Repr

/-- Why the engine failed. -/
inductive Fault where
  | notStarted
  | badTag
  | unexpected (kind : UInt8)
  | tooLarge (length : Nat)
  deriving DecidableEq, Repr

namespace Fault

/-- A fault as people read it. -/
def message : Fault → String
  | notStarted => "toy engine not started"
  | badTag => "protocol error: bad record tag"
  | unexpected kind => s!"protocol error: unexpected record {kind.toNat}"
  | tooLarge n => s!"fragment of {n} bytes is too large"

/-- A fault as it stands in the log. -/
def render : Fault → String
  | notStarted => "NotStarted"
  | badTag => "BadTag"
  | unexpected kind => s!"Unexpected({kind.toNat})"
  | tooLarge n => s!"TooLarge({n})"

end Fault

/-- The state of one connection. -/
structure Engine where
  side : Side
  started : Bool
  phase : Phase
  /-- Data records written so far. -/
  writes : Nat
  /-- The most bytes of a data record. -/
  fragment : Nat
  cipher : String
  identity : Option PeerIdentity
  /-- After how many data records a new handshake is asked for. -/
  renegotiateEvery : Option Nat

namespace Engine

/-- An engine that was not started. -/
def ofSide (side : Side) : Engine :=
  ⟨side, false, .idle, 0, 16, "TOY_AES_128_GCM_SHA256", none, none⟩

/-- Appends a record. -/
def emit (output : Buffer) (kind : UInt8) (payload : Bytes) : Buffer :=
  output.append (Record.encode ⟨kind, payload⟩)

/-- What a handshake record does: the next phase and the record it is answered with. -/
def advance? (side : Side) (phase : Phase) (kind : UInt8) : Option (Phase × Option UInt8) :=
  match side, phase with
  | .server, .idle => if kind = hello then some (.awaitFinished, some helloDone) else none
  | .client, .awaitHelloDone => if kind = helloDone then some (.done, some finished) else none
  | .server, .awaitFinished => if kind = finished then some (.done, none) else none
  | _, _ => none

/-- Takes handshake records until the handshake is done or input runs out. -/
def takeHandshake (e : Engine) (input output : Buffer) : HandshakeTurn Engine Fault :=
  if e.phase = .done then ⟨.ok .complete, e, input, output⟩
  else
    match _h : Record.take? input with
    | .error () => ⟨.error .badTag, e, input, output⟩
    | .ok none => ⟨.ok .needsInput, e, input, output⟩
    | .ok (some (r, input')) =>
      match advance? e.side e.phase r.kind with
      | none => ⟨.error (.unexpected r.kind), e, input', output⟩
      | some (phase, reply) =>
        let output := match reply with
          | none => output
          | some kind => emit output kind []
        takeHandshake { e with phase := phase } input' output
termination_by input.size
decreasing_by exact Record.take?_size ‹_›

/-- Drives the handshake. -/
def handshake (e : Engine) (input output : Buffer) : HandshakeTurn Engine Fault :=
  if !e.started then ⟨.error .notStarted, e, input, output⟩
  else if e.side = .client ∧ e.phase = .idle then
    takeHandshake { e with phase := .awaitHelloDone } input
      (emit output hello [0x68, 0x65, 0x6c, 0x6c, 0x6f])
  else takeHandshake e input output

/-- Writes a data record, and a request for a new handshake when it is time. -/
def encrypt (e : Engine) (chunk : Bytes) (output : Buffer) : Emission Engine Fault :=
  if e.fragment < chunk.length then ⟨.error (.tooLarge chunk.length), e, output⟩
  else
    let e := { e with writes := e.writes + 1 }
    let output := emit output data chunk
    let due := e.renegotiateEvery.any fun n => e.writes % n == 0
    ⟨.ok (), e, if due then emit output helloRequest [] else output⟩

/-- Takes data records until input runs out or something else arrives. A new opening is left for
the handshake. -/
def decrypt (e : Engine) (input output plaintext : Buffer) : DecryptTurn Engine Fault :=
  if e.side = .server ∧ input.data.head? = some hello then
    ⟨.ok .renegotiate, { e with phase := .idle }, input, output, plaintext⟩
  else
    match _h : Record.take? input with
    | .error () => ⟨.error .badTag, e, input, output, plaintext⟩
    | .ok none => ⟨.ok .needsInput, e, input, output, plaintext⟩
    | .ok (some (r, input')) =>
      if r.kind = data then decrypt e input' output (plaintext.append r.payload)
      else if r.kind = close then ⟨.ok .closeNotify, e, input', output, plaintext⟩
      else if r.kind = helloRequest ∧ e.side = .client then
        ⟨.ok .renegotiate, { e with phase := .idle }, input', output, plaintext⟩
      else ⟨.error (.unexpected r.kind), e, input', output, plaintext⟩
termination_by input.size
decreasing_by exact Record.take?_size ‹_›

instance : TlsTransport.Engine Engine Fault where
  verifiesHostname := false
  start e _ := (.ok (), { e with started := true })
  handshake := handshake
  encrypt := encrypt
  decrypt := decrypt
  closeNotify e output := ⟨.ok (), e, emit output close []⟩
  maxFragment := fragment
  version e := if e.phase = .done then some .tls12 else none
  cipherSuite e := if e.started then some e.cipher else none
  peerIdentity := identity
  peerCertificates _ := []
  describe := Fault.message
  render := Fault.render

end Engine
end TlsTransport.Tagged
