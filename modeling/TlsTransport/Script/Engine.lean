import TlsTransport.Engine
import TlsTransport.Text.Character

/-! # Scripted engines

An engine that does what prepared steps say, one for each call. When the steps of a kind run out,
handshakes complete, encryption copies, decryption hands everything on, and closing says `BYE`.
-/

namespace TlsTransport

/-- With what a scripted call ends, if it does not fail. -/
inductive ScriptedResult where
  | needsInput | renegotiate | close | complete
  deriving DecidableEq, Repr

/-- One prepared step: how many bytes of input it eats, what it appends, and how it ends. -/
structure ScriptedStep where
  eat : Nat
  output : Bytes
  plaintext : Bytes
  result : ScriptedResult
  failure : Option String

/-- The steps that are left and what the engine answers to questions. -/
structure EngineScript where
  fragment : Nat
  version : Option TlsVersion
  cipher : Option String
  identity : Option PeerIdentity
  certificates : List CertificateInfo
  starts : List ScriptedStep
  handshakes : List ScriptedStep
  encryptions : List ScriptedStep
  decryptions : List ScriptedStep
  closes : List ScriptedStep

/-- A scripted engine; the parameter says whether it checks the peer's name itself. -/
structure ScriptedEngine (verifies : Bool) where
  script : EngineScript

namespace ScriptedStep

/-- How a step ends: in its failure, if it has one. -/
def ending {α : Type} (step : ScriptedStep) (value : α) : Except String α :=
  match step.failure with
  | some text => .error text
  | none => .ok value

/-- How far a handshake came, by the result of a step. -/
def progress (step : ScriptedStep) : HandshakeProgress :=
  if step.result = .needsInput then .needsInput else .complete

/-- Why decryption stopped, by the result of a step. -/
def stop (step : ScriptedStep) : DecryptStop :=
  match step.result with
  | .renegotiate => .renegotiate
  | .close => .closeNotify
  | _ => .needsInput

end ScriptedStep

namespace EngineScript

/-- The step of a start. -/
def start (e : EngineScript) : Except String Unit × EngineScript :=
  match e.starts with
  | [] => (.ok (), e)
  | step :: rest => (step.ending (), { e with starts := rest })

/-- The step of a handshake call. -/
def handshake (e : EngineScript) (input output : Buffer) : HandshakeTurn EngineScript String :=
  match e.handshakes with
  | [] => ⟨.ok .complete, e, input, output⟩
  | step :: rest =>
    ⟨step.ending step.progress, { e with handshakes := rest }, input.drop step.eat,
      output.append step.output⟩

/-- The step of an encryption. -/
def encrypt (e : EngineScript) (chunk : Bytes) (output : Buffer) : Emission EngineScript String :=
  match e.encryptions with
  | [] => ⟨.ok (), e, output.append chunk⟩
  | step :: rest => ⟨step.ending (), { e with encryptions := rest }, output.append step.output⟩

/-- The step of a decryption. -/
def decrypt (e : EngineScript) (input output plaintext : Buffer) :
    DecryptTurn EngineScript String :=
  match e.decryptions with
  | [] => ⟨.ok .needsInput, e, input.drop input.size, output, plaintext.append input.data⟩
  | step :: rest =>
    ⟨step.ending step.stop, { e with decryptions := rest }, input.drop step.eat,
      output.append step.output, plaintext.append step.plaintext⟩

/-- The step of a close. -/
def closeNotify (e : EngineScript) (output : Buffer) : Emission EngineScript String :=
  match e.closes with
  | [] => ⟨.ok (), e, output.append [0x42, 0x59, 0x45]⟩
  | step :: rest => ⟨step.ending (), { e with closes := rest }, output.append step.output⟩

end EngineScript

/-- An emission with its engine wrapped. -/
def Emission.map {σ τ ε : Type} (f : σ → τ) (t : Emission σ ε) : Emission τ ε :=
  ⟨t.answer, f t.engine, t.output⟩

instance {verifies : Bool} : Engine (ScriptedEngine verifies) String where
  verifiesHostname := verifies
  start e _ := let r := e.script.start; (r.1, ⟨r.2⟩)
  handshake e input output :=
    let t := e.script.handshake input output
    ⟨t.answer, ⟨t.engine⟩, t.input, t.output⟩
  encrypt e chunk output := (e.script.encrypt chunk output).map .mk
  decrypt e input output plaintext :=
    let t := e.script.decrypt input output plaintext
    ⟨t.answer, ⟨t.engine⟩, t.input, t.output, t.plaintext⟩
  closeNotify e output := (e.script.closeNotify output).map .mk
  maxFragment e := e.script.fragment
  version e := e.script.version
  cipherSuite e := e.script.cipher
  peerIdentity e := e.script.identity
  peerCertificates e := e.script.certificates
  describe text := s!"script: {text}"
  render := quoted

/-- An engine call as it is reported. -/
def EngineCall.render {ε : Type} : EngineCall ε → String
  | start name _ => s!"start {quotedOption name}"
  | handshake n _ _ => s!"handshake in={n}"
  | encrypt chunk _ _ => s!"encrypt {chunk.length}"
  | decrypt n p _ _ => s!"decrypt in={n} plain={p}"
  | closeNotify _ _ => "close_notify"

end TlsTransport
