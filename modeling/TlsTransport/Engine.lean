import TlsTransport.Buffer
import TlsTransport.Certificate
import TlsTransport.Version

/-! # Engines

An engine is one connection of a cryptographic provider. It never sees the socket: it turns bytes in
one buffer into bytes in another, and a session does all input and output.
-/

namespace TlsTransport

/-- How far a handshake came. -/
inductive HandshakeProgress where
  | complete
  /-- All that arrived was used; more is needed. -/
  | needsInput
  deriving DecidableEq, Repr

/-- Why decryption stopped. -/
inductive DecryptStop where
  /-- No complete record is left. -/
  | needsInput
  /-- The peer started a new handshake. -/
  | renegotiate
  /-- The peer closed its direction. -/
  | closeNotify
  deriving DecidableEq, Repr

/-- What an engine answers when it may write: its answer, its new state and the output buffer. -/
structure Emission (σ ε : Type) where
  answer : Except ε Unit
  engine : σ
  output : Buffer

/-- What an engine answers to a handshake step. -/
structure HandshakeTurn (σ ε : Type) where
  answer : Except ε HandshakeProgress
  engine : σ
  input : Buffer
  output : Buffer

/-- What an engine answers when it decrypts. -/
structure DecryptTurn (σ ε : Type) where
  answer : Except ε DecryptStop
  engine : σ
  input : Buffer
  output : Buffer
  plaintext : Buffer

/-- One connection of a cryptographic provider, with states `σ` and failures `ε`. Input is consumed
from the front, an incomplete last record stays in place, and output is appended. -/
class Engine (σ : Type) (ε : outParam Type) where
  /-- Whether the engine itself checks the peer's name during the handshake. -/
  verifiesHostname : Bool
  /-- Prepares the connection; a client passes the name of its server. -/
  start : σ → Option String → Except ε Unit × σ
  /-- Drives the handshake: input, output. -/
  handshake : σ → Buffer → Buffer → HandshakeTurn σ ε
  /-- Encrypts at most `maxFragment` bytes. -/
  encrypt : σ → Bytes → Buffer → Emission σ ε
  /-- Decrypts what arrived: input, output, plaintext. -/
  decrypt : σ → Buffer → Buffer → Buffer → DecryptTurn σ ε
  /-- Says that no more data follows. -/
  closeNotify : σ → Buffer → Emission σ ε
  maxFragment : σ → Nat
  version : σ → Option TlsVersion
  cipherSuite : σ → Option String
  /-- The names for which the verified peer certificate is valid. -/
  peerIdentity : σ → Option PeerIdentity
  peerCertificates : σ → List CertificateInfo
  /-- A failure as people read it. -/
  describe : ε → String
  /-- A failure as it stands in the log. -/
  render : ε → String

/-! ## Calls -/

/-- The bytes that an engine call moved: those it took from the front of its input, and those it
appended to its output and to the plaintext. -/
structure Traffic where
  consumed : Bytes
  emitted : Bytes
  revealed : Bytes
  deriving DecidableEq, Repr

/-- What an emission moved, given its output before. -/
def Emission.traffic {σ ε : Type} (t : Emission σ ε) (output : Buffer) : Traffic :=
  ⟨[], output.added t.output, []⟩

/-- What a handshake step moved, given its buffers before. -/
def HandshakeTurn.traffic {σ ε : Type} (t : HandshakeTurn σ ε) (input output : Buffer) : Traffic :=
  ⟨input.taken t.input, output.added t.output, []⟩

/-- What decryption moved, given its buffers before. -/
def DecryptTurn.traffic {σ ε : Type} (t : DecryptTurn σ ε) (input output plaintext : Buffer) :
    Traffic :=
  ⟨input.taken t.input, output.added t.output, plaintext.added t.plaintext⟩

/-- A call made to an engine, with the bytes that it moved and its answer. -/
inductive EngineCall (ε : Type) where
  | start (name : Option String) (answer : Except ε Unit)
  /-- With the number of bytes of input. -/
  | handshake (input : Nat) (moved : Traffic) (answer : Except ε HandshakeProgress)
  | encrypt (chunk : Bytes) (moved : Traffic) (answer : Except ε Unit)
  /-- With the number of bytes of input and of plaintext not yet read. -/
  | decrypt (input plaintext : Nat) (moved : Traffic) (answer : Except ε DecryptStop)
  | closeNotify (moved : Traffic) (answer : Except ε Unit)

/-- The bytes that a call moved. -/
def EngineCall.traffic {ε : Type} : EngineCall ε → Traffic
  | start _ _ => ⟨[], [], []⟩
  | handshake _ moved _ | encrypt _ moved _ | decrypt _ _ moved _ | closeNotify moved _ => moved

end TlsTransport
