import TlsTransport.Context.Config
import TlsTransport.Engine
import TlsTransport.Strict.Link

/-! # The engine of the strict provider

It verifies the chain and the name of its peer itself, and it never renegotiates.

* `Strict.backend`: the provider as a backend, at a given time.
-/

namespace TlsTransport.Strict

/-- Why a call of the engine failed. -/
inductive EngineFault where
  | connection (e : Error)
  /-- More data than fits was given before the end of the handshake. -/
  | full
  | invalidName (name : String)
  | notStarted
  deriving DecidableEq, Repr

namespace EngineFault

/-- The words for the failure to take all of some data. -/
def fullText : String := "failed to write whole buffer"

/-- A failure as people read it. -/
def message : EngineFault → String
  | connection (.certificate fault) => s!"certificate verify failed: {fault.render}"
  | connection (.alert code) => s!"alert received: {alertName code}"
  | connection e => s!"protocol error: {e.message}"
  | full => s!"SSL I/O error: {fullText}"
  | invalidName name => s!"invalid server name: {quoted name}"
  | notStarted => "TLS engine not started"

/-- A failure as it stands in the log. -/
def render : EngineFault → String
  | connection e => s!"Tls({quoted e.message})"
  | full => s!"Io({quoted fullText})"
  | invalidName name => s!"InvalidName({quoted name})"
  | notStarted => "NotStarted"

end EngineFault

/-- One connection and its settings. -/
structure Engine where
  settings : Settings
  /-- The connection, once it was started. -/
  link : Option Link

namespace Engine

/-- A connection that is not started. -/
def ofSettings (s : Settings) : Engine := ⟨s, none⟩

/-- Starts the connection, once. -/
def start (e : Engine) (name : Option String) : Except EngineFault Unit × Engine :=
  match e.link, e.settings.side with
  | some _, _ => (.ok (), e)
  | none, .server => (.ok (), { e with link := some .server })
  | none, .client =>
    let name := name.getD ""
    match ServerName.parse? name with
    | some server => (.ok (), { e with link := some (.client e.settings server) })
    | none => (.error (.invalidName name), e)

/-- How much is read in one go. -/
def readLength : Nat := 4096

/-- Hands over what is to be sent. -/
def flush (e : Engine) (l : Link) (output : Buffer) : Engine × Buffer :=
  ({ e with link := some { l with queue := [] } }, output.append l.queue)

/-- Input that is taken until the handshake ends or the peer has to be answered. -/
def takeHandshake (s : Settings) (l : Link) (input : Buffer) :
    Except Error Unit × Link × Buffer :=
  if _h : l.phase ≠ .done ∧ l.wantsInput ∧ 0 < input.size then
    let l := l.feed s (input.data.take readLength)
    let input := input.drop readLength
    match l.failure with
    | some e => (.error e, l, input)
    | none => takeHandshake s l input
  else (.ok (), l, input)
termination_by input.size
decreasing_by
  simp only [Buffer.size, Buffer.data_drop, List.length_drop, readLength] at *
  omega

/-- Drives the handshake. -/
def handshake (e : Engine) (input output : Buffer) : HandshakeTurn Engine EngineFault :=
  match e.link with
  | none => ⟨.error .notStarted, e, input, output⟩
  | some l =>
    let (answer, l, input) := takeHandshake e.settings l input
    let (e, output) := e.flush l output
    match answer with
    | .error f => ⟨.error (.connection f), e, input, output⟩
    | .ok () => ⟨.ok (if l.phase = .done then .complete else .needsInput), e, input, output⟩

/-- How much data is kept until the end of the handshake. -/
def earlyLimit : Nat := 65536

/-- Encrypts data, or keeps it until the end of the handshake. -/
def encrypt (e : Engine) (chunk : Bytes) (output : Buffer) : Emission Engine EngineFault :=
  match e.link with
  | none => ⟨.error .notStarted, e, output⟩
  | some l =>
    if l.phase = .done then
      let (e, output) := e.flush (l.send Record.data chunk) output
      ⟨.ok (), e, output⟩
    else
      let room := earlyLimit - l.early.length
      let l := { l with early := l.early ++ chunk.take room }
      if room < chunk.length then ⟨.error .full, { e with link := some l }, output⟩
      else
        let (e, output) := e.flush l output
        ⟨.ok (), e, output⟩

/-- Input that is taken, and the data in it, until the input or the data ends. Data that stands
beside a fault is not handed on. -/
def takeData (s : Settings) (l : Link) (input plaintext : Buffer) :
    Except Error Unit × Link × Buffer × Buffer :=
  let plaintext := plaintext.append l.plain
  let l := { l with plain := [] }
  if _h : l.wantsInput ∧ 0 < input.size then
    let l := l.feed s (input.data.take readLength)
    let input := input.drop readLength
    match l.failure with
    | some e => (.error e, l, input, plaintext)
    | none => takeData s l input plaintext
  else (.ok (), l, input, plaintext)
termination_by input.size
decreasing_by
  simp only [Buffer.size, Buffer.data_drop, List.length_drop, readLength] at *
  omega

/-- Decrypts what arrived. -/
def decrypt (e : Engine) (input output plaintext : Buffer) : DecryptTurn Engine EngineFault :=
  match e.link with
  | none => ⟨.error .notStarted, e, input, output, plaintext⟩
  | some l =>
    let (answer, l, input, plaintext) := takeData e.settings l input plaintext
    let (e, output) := e.flush l output
    match answer with
    | .error f => ⟨.error (.connection f), e, input, output, plaintext⟩
    | .ok () =>
      let stop := if l.closeReceived then DecryptStop.closeNotify else .needsInput
      ⟨.ok stop, e, input, output, plaintext⟩

/-- Says that no more data follows, once. -/
def closeNotify (e : Engine) (output : Buffer) : Emission Engine EngineFault :=
  match e.link with
  | none => ⟨.error .notStarted, e, output⟩
  | some l =>
    let l := if l.closeSent then l else l.send Record.alert [Link.warning, 0]
    let (e, output) := e.flush { l with closeSent := true } output
    ⟨.ok (), e, output⟩

instance : TlsTransport.Engine Engine EngineFault where
  verifiesHostname := true
  start := start
  handshake := handshake
  encrypt := encrypt
  decrypt := decrypt
  closeNotify := closeNotify
  maxFragment _ := Record.maxContent
  version e := e.link.bind (·.version)
  cipherSuite e := e.link.bind fun l => l.suite.map Suite.name
  peerIdentity _ := none
  peerCertificates e := (e.link.map fun l => l.peerChain.map CertificateInfo.unread).getD []
  describe := EngineFault.message
  render := EngineFault.render

end Engine

/-- The strict provider, for which it is the given time. -/
def backend (now : Moment) : Backend Settings Engine where
  provider := .strict
  format := credentialFormat
  build := Settings.ofConfig now
  engine settings := .ok (.ofSettings settings)

end TlsTransport.Strict
