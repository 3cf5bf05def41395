import TlsTransport.Classic.Container
import TlsTransport.Classic.Link
import TlsTransport.Context.Config
import TlsTransport.Hostname

/-! # The engine of the classic provider

It verifies the chain of its peer and leaves the name to the session. Any call before the end of the
handshake drives the handshake first.

* `Classic.backend`: the provider as a backend, at a given time.
-/

namespace TlsTransport.Classic

/-- One connection and its settings. -/
structure Engine where
  settings : Settings
  /-- Whether a start was tried and refused. -/
  spoiled : Bool
  /-- The connection, once it was started. -/
  link : Option Link

namespace Engine

/-- A connection that is not started. -/
def ofSettings (s : Settings) : Engine := ⟨s, false, none⟩

/-- The longest name that a client may tell its server, in bytes. -/
def maxName : Nat := 255

/-- Whether a name cannot be told to a server. Addresses are not told at all. -/
def isRefusedName (name : String) : Bool :=
  !isNumericHost name && (name.isEmpty || maxName < name.utf8ByteSize)

/-- Starts the connection, once. A start that was refused cannot be repeated. -/
def start (e : Engine) (name : Option String) : Except Fault Unit × Engine :=
  if e.link.isSome then (.ok (), e)
  else if e.spoiled then (.error .notStarted, e)
  else if e.settings.side = .client && name.any isRefusedName then
    (.error (.refused .invalidServerName), { e with spoiled := true })
  else (.ok (), { e with link := some (.ofSide e.settings.side) })

/-- Hands over what is to be sent. -/
def flush (e : Engine) (l : Link) (output : Buffer) : Engine × Buffer :=
  ({ e with link := some { l with queue := [] } }, output.append l.queue)

/-- The input without what was taken of it. -/
def leave (input : Buffer) (rest : Bytes) : Buffer := input.drop (input.size - rest.length)

/-- Drives the handshake with what arrived. -/
def driveLink (s : Settings) (l : Link) (input : Bytes) :
    Except Fault HandshakeProgress × Link × Bytes :=
  match l.failure with
  | some f => (.error f.later, l, input)
  | none =>
    if l.phase = .done then (.ok .complete, l, input)
    else { l.greet with held := [] }.drive s (l.held ++ input)

/-- Drives the handshake. -/
def handshake (e : Engine) (input output : Buffer) : HandshakeTurn Engine Fault :=
  match e.link with
  | none => ⟨.error .notStarted, e, input, output⟩
  | some l =>
    let (answer, l, rest) := driveLink e.settings l input.data
    let (e, output) := e.flush l output
    ⟨answer, e, leave input rest, output⟩

/-- Encrypts data. Before the end of the handshake this fails, but greets the server. -/
def encrypt (e : Engine) (chunk : Bytes) (output : Buffer) : Emission Engine Fault :=
  match e.link with
  | none => ⟨.error .notStarted, e, output⟩
  | some l =>
    if l.closeSent then ⟨.error (.protocol .alreadyShutDown), e, output⟩
    else
      let (answer, l, _) := driveLink e.settings l []
      let (answer, l) : Except Fault Unit × Link := match answer with
        | .ok .complete => (.ok (), l.send Record.data chunk)
        | .ok .needsInput => (.error .tooEarly, l)
        | .error f => (.error f, l)
      let (e, output) := e.flush l output
      ⟨answer, e, output⟩

/-- Takes data after the handshake, which is driven first. A peer that has closed is no failure. -/
def takeLink (s : Settings) (l : Link) (input : Bytes) : Except Fault DecryptStop × Link × Bytes :=
  if l.closeReceived then (.ok .closeNotify, l, input)
  else
    let (answer, l, rest) := driveLink s l input
    match answer with
    | .ok .complete => { l with held := [] }.takeData s (l.held ++ rest)
    | .ok .needsInput => (.ok .renegotiate, l, rest)
    | .error .closed => (.ok .closeNotify, l, rest)
    | .error f => (.error f, l, rest)

/-- Decrypts what arrived. Data before a fault is handed on. -/
def decrypt (e : Engine) (input output plaintext : Buffer) : DecryptTurn Engine Fault :=
  match e.link with
  | none => ⟨.error .notStarted, e, input, output, plaintext⟩
  | some l =>
    let (answer, l, rest) := takeLink e.settings l input.data
    let (e, output) := e.flush { l with plain := [] } output
    ⟨answer, e, leave input rest, output, plaintext.append l.plain⟩

/-- Says that no more data follows, once. -/
def closeNotify (e : Engine) (output : Buffer) : Emission Engine Fault :=
  match e.link with
  | none => ⟨.error .notStarted, e, output⟩
  | some l =>
    if l.failure.isSome || l.phase ≠ .done then ⟨.error (.protocol .shutdownTooEarly), e, output⟩
    else
      let l := if l.closeSent then l else l.send Record.alert [Link.warning, Link.closingCode]
      let (e, output) := e.flush { l with closeSent := true } output
      ⟨.ok (), e, output⟩

/-- The certificates that are shown of the peer: its chain, or else its own certificate. -/
def shownChain (l : Link) : List X509 :=
  if l.peerChain.isEmpty then l.peer.toList else l.peerChain

instance : TlsTransport.Engine Engine Fault where
  verifiesHostname := false
  start := start
  handshake := handshake
  encrypt := encrypt
  decrypt := decrypt
  closeNotify := closeNotify
  maxFragment _ := Record.maxContent
  version e := e.link.bind (·.version)
  cipherSuite e := e.link.bind (·.suite)
  peerIdentity e := e.link.bind fun l => l.peer.map X509.identity
  peerCertificates e := (e.link.map fun l => (shownChain l).map X509.info).getD []
  describe := Fault.message
  render := Fault.render

end Engine

/-- The classic provider, for which it is the given time. -/
def backend (now : Moment) : Backend Settings Engine where
  provider := .classic
  format := credentialFormat
  build := Settings.ofConfig now
  engine settings := .ok (.ofSettings settings)

end TlsTransport.Classic
