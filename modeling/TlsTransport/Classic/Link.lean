import TlsTransport.Classic.Fault
import TlsTransport.Classic.Settings
import TlsTransport.Engine
import TlsTransport.Protocol.Flight
import TlsTransport.Protocol.Record

/-! # Connections of the classic provider

The state of one connection after its start. Both sides always offer the newest version, so that is
the one they choose.

* `Link.intake`: the next record of what has arrived. No byte behind it is touched.
* `Link.drive`: takes records until the handshake is done.
* `Link.takeData`: takes records after that.
-/

namespace TlsTransport.Classic

/-- The suites of the newest version by number and name, the preferred ones first. -/
def newestSuites : List (Nat × String) :=
  [(0x1302, "TLS_AES_256_GCM_SHA384"), (0x1303, "TLS_CHACHA20_POLY1305_SHA256"),
    (0x1301, "TLS_AES_128_GCM_SHA256")]

/-- The name of a suite of the newest version. -/
def suiteName? (n : Nat) : Option String := (newestSuites.find? (·.1 == n)).map (·.2)

/-- What a connection waits for. -/
inductive Phase where
  /-- A client, to greet its server. -/
  | greeting
  /-- A server, to be greeted. -/
  | hello
  /-- A client, for the choice of its server. -/
  | choice
  /-- A server, for the end of its client. -/
  | finish
  /-- Nothing; data can flow. -/
  | done
  deriving DecidableEq, Repr

/-- A connection after its start. -/
structure Link where
  phase : Phase
  /-- Whether no record has arrived so far. -/
  fresh : Bool
  /-- Whether records are protected. -/
  keyed : Bool
  /-- The beginning of a record whose end has not arrived. -/
  held : Bytes
  /-- The beginning of a flight whose end has not arrived. -/
  flight : Bytes
  /-- Records to be sent. -/
  queue : Bytes
  /-- Data that arrived and was not handed on. -/
  plain : Bytes
  failure : Option Fault
  /-- How many warnings arrived since the last record of another kind. -/
  warnings : Nat
  version : Option TlsVersion
  suite : Option String
  /-- The certificate of the peer, once it was accepted. -/
  peer : Option X509
  /-- The chain that is shown of the peer. -/
  peerChain : List X509
  closeSent : Bool
  closeReceived : Bool

namespace Link

/-- A connection that waits for something. -/
def waitingFor (phase : Phase) : Link where
  phase := phase
  fresh := true
  keyed := false
  held := []
  flight := []
  queue := []
  plain := []
  failure := none
  warnings := 0
  version := some .tls13
  suite := none
  peer := none
  peerChain := []
  closeSent := false
  closeReceived := false

/-- The connection of a side. -/
def ofSide : Side → Link
  | .client => waitingFor .greeting
  | .server => waitingFor .hello

/-! ## Sending -/

/-- Sends bytes of one kind, protected if that can be. -/
def send (l : Link) (kind : UInt8) (bytes : Bytes) : Link :=
  let records := if l.keyed then Record.protectAll kind bytes else Record.encodeAll kind bytes
  { l with queue := l.queue ++ records }

/-- Sends a flight. -/
def sendFlight (l : Link) (f : Flight) : Link := l.send Record.handshake f.encode

/-- Levels of an alert. -/
def warning : UInt8 := 1
def fatal : UInt8 := 2

/-- Fails without telling the peer. -/
def failSilently (l : Link) (f : Fault) : Link := { l with failure := some f }

/-- Fails and tells the peer by an alert. -/
def failWith (l : Link) (f : Fault) (alert : UInt8) : Link :=
  (l.send Record.alert [fatal, alert]).failSilently f

/-- Fails for a reason and tells the peer by an alert. -/
def fail (l : Link) (reason : Reason) (alert : UInt8) : Link := l.failWith (.protocol reason) alert

/-- Greets the server, once. -/
def greet (l : Link) : Link :=
  if l.phase = .greeting then
    { l.sendFlight (.hello [TlsVersion.tls13.number] (newestSuites.map (·.1))) with
      phase := .choice }
  else l

/-! ## The handshake -/

/-- Answers the greeting of a client with the first of its suites that is known. -/
def answerHello (s : Settings) (versions suites : List Nat) (l : Link) : Link :=
  match versions.contains TlsVersion.tls13.number, suites.find? fun n => (suiteName? n).isSome with
  | true, some suite =>
    let chain := s.chain.map (·.encoding)
    { l.sendFlight (.choice TlsVersion.tls13.number suite s.verifyPeer chain) with
      phase := .finish, keyed := true, version := some .tls13, suite := suiteName? suite }
  | _, _ => l.fail .unexpectedMessage 10

/-- Accepts the certificates of the peer, if they hold, and keeps what is shown of them. -/
def acceptChain (s : Settings) (presenter : Side) (leaf : X509) (sent shown : List X509)
    (l : Link) : Link :=
  let verdict :=
    if s.verifyPeer then verifyChain s.now s.store presenter leaf sent else .ok ()
  match verdict with
  | .error fault => l.failWith (.untrusted fault) fault.alertCode
  | .ok () => { l with peer := some leaf, peerChain := shown }

/-- Ends the handshake. -/
def complete (l : Link) : Link :=
  if l.failure.isSome then l else { l with phase := .done }

/-- Accepts the choice of a server and finishes. The chain is shown even if it does not hold. -/
def acceptChoice (s : Settings) (suite : Nat) (asks : Bool) (chain : List Bytes) (l : Link) :
    Link :=
  let l := { l with keyed := true, version := some .tls13, suite := suiteName? suite }
  match chain.mapM readCertificate with
  | .error reason => l.fail reason 42
  | .ok [] => l.fail .unexpectedMessage 10
  | .ok (leaf :: sent) =>
    let l := { l with peerChain := leaf :: sent }.acceptChain s .server leaf sent (leaf :: sent)
    if l.failure.isSome then l
    else
      let own := if asks then s.chain.map (·.encoding) else []
      (l.sendFlight (.finish own)).complete

/-- Accepts the end of a client. Of its chain only what stands above its own certificate is
shown. -/
def acceptFinish (s : Settings) (chain : List Bytes) (l : Link) : Link :=
  let l := match chain.mapM readCertificate with
    | .error reason => l.fail reason 42
    | .ok [] => if s.verifyPeer then l.fail .peerWithoutCertificate 116 else l
    | .ok (leaf :: sent) => l.acceptChain s .client leaf sent sent
  if l.failure.isSome then l else (l.sendFlight .ticket).complete

/-- One flight of the peer. -/
def onFlight (s : Settings) (f : Flight) (l : Link) : Link :=
  match l.phase, f with
  | .hello, .hello versions suites => l.answerHello s versions suites
  | .choice, .choice _ suite asks chain => l.acceptChoice s suite asks chain
  | .finish, .finish chain => l.acceptFinish s chain
  | .done, .ticket => l
  | _, _ => l.fail .unexpectedMessage 10

/-- The flights in handshake bytes, up to a failure. -/
def onFlights (s : Settings) (l : Link) (bytes : Bytes) : Link :=
  if l.failure.isSome then l
  else
    match _h : Flight.split? bytes with
    | none => { l with flight := bytes }
    | some (none, _) => l.fail .unexpectedMessage 10
    | some (some f, rest) => onFlights s (l.onFlight s f) rest
termination_by bytes.length
decreasing_by exact Flight.length_split? ‹_›

/-! ## Headers -/

/-- What is said of the first bytes of a peer that does not speak the protocol. -/
def foreignReason (header : Bytes) : Reason :=
  if ["GET ", "POST ", "HEAD ", "PUT "].any fun m => (Bytes.ofString m).isPrefixOf header then
    .httpRequest
  else if (Bytes.ofString "CONNE").isPrefixOf header then .httpsProxyRequest
  else .wrongVersion

/-- The longest body that room is made for. -/
def maxRoom : Nat := Record.maxContent + 323

/-- The longest body of a record, with what protection may add. -/
def maxBody (keyed : Bool) : Nat := Record.maxContent + if keyed then 256 else 320

/-- Whether a record of a kind may come while records are protected. Before data flows there may be
some without protection. -/
def admits (l : Link) (kind : UInt8) : Bool :=
  kind = Record.data || (kind = Record.cipherChange && l.phase ≠ .done) ||
    (kind = Record.alert && l.phase = .finish)

/-- What is wrong with a header, and the alert for it. -/
def headerFault? (l : Link) : Bytes → Option (Reason × Option UInt8)
  | header@(kind :: major :: minor :: hi :: lo :: _) =>
    let n := Bytes.toNat [hi, lo]
    if major ≠ 3 then
      if l.fresh then some (foreignReason header, none) else some (.wrongVersion, some 70)
    else if l.keyed && !l.admits kind then some (.badRecordKind, some 10)
    else if l.keyed && minor ≠ 3 then some (.wrongVersion, some 50)
    else if maxRoom < n then some (.packetTooLong, some 22)
    else if maxBody l.keyed < n then some (.bodyTooLong, some 22)
    else none
  | _ => none

/-! ## Records -/

/-- How many warnings in a row are too many. -/
def maxWarnings : Nat := 5

/-- The codes of alerts that do not fail: the end of the data and a cancelled action. -/
def closingCode : UInt8 := 0
def cancelCode : UInt8 := 90

/-- The code of the refusal of a new handshake. -/
def refusalCode : UInt8 := 100

/-- An alert of the peer. In the newest version its level decides nothing. -/
def onAlert (l : Link) : Bytes → Link
  | [level, code] =>
    let counts := level = warning || (l.keyed && code = cancelCode)
    let l := if counts then { l with warnings := l.warnings + 1 } else l
    if counts && l.warnings = maxWarnings then l.fail .tooManyWarnings 10
    else if l.keyed && code = cancelCode then l
    else if code = closingCode && (l.keyed || level = warning) then
      { l with closeReceived := true }
    else if l.keyed || level = fatal then l.failSilently (.protocol (.alert code))
    else if code = refusalCode then l.fail .noRenegotiation 40
    else if level = warning then l
    else l.fail .unknownAlertType 47
  | _ => l.fail .invalidAlert 10

/-- The kind and the content of a record. -/
def contentOf? (l : Link) (r : Record) : Option (UInt8 × Bytes) :=
  if l.keyed && r.kind = Record.data then r.unprotect? else some (r.kind, r.body)

/-- Fails for a record that cannot come before the versions are agreed on; the version of that
record is taken for the peer's. -/
def failUnagreed (l : Link) (minor : UInt8) : Link :=
  { l with version := TlsVersion.ofNumber? (0x0300 + minor.toNat) }.fail .unexpectedMessage 10

/-- A change of ciphers, which is a single byte and means nothing in the newest version. -/
def onCipherChange (l : Link) (body : Bytes) : Link :=
  if body ≠ [1] then l.fail .badCipherChange (if l.keyed then 47 else 10)
  else if l.keyed then l
  else l.fail .unexpectedMessage 10

/-- One record of the peer. -/
def receive (s : Settings) (minor : UInt8) (r : Record) (l : Link) : Link :=
  let l := { l with fresh := false }
  match l.contentOf? r with
  | none => l.fail .undecryptable 20
  | some (kind, content) =>
    let l := if kind = Record.alert || content.isEmpty then l else { l with warnings := 0 }
    if Record.maxContent < content.length then l.fail .contentTooLong 22
    else if kind = Record.cipherChange then l.onCipherChange content
    else if kind = Record.handshake then { l with flight := [] }.onFlights s (l.flight ++ content)
    else if !l.keyed && (kind ≠ Record.alert || l.phase = .hello) then l.failUnagreed minor
    else if kind = Record.alert then l.onAlert content
    else if kind = Record.data && l.phase = .done then { l with plain := l.plain ++ content }
    else l.fail .unexpectedMessage 10

/-- What can be taken of the bytes that arrived. -/
inductive Intake (bytes : Bytes) where
  /-- A record is not all there. -/
  | waiting
  /-- The header is wrong; it is taken, and what follows it is left. -/
  | refused (reason : Reason) (alert : Option UInt8)
  /-- A record with the minor number of its version, and what follows it. -/
  | record (minor : UInt8) (r : Record) (rest : Bytes) (shorter : rest.length < bytes.length)

/-- The next record. -/
def intake (l : Link) (bytes : Bytes) : Intake bytes :=
  match l.headerFault? bytes with
  | some (reason, alert) => .refused reason alert
  | none =>
    match h : Record.split? bytes with
    | none => .waiting
    | some (r, rest) => .record (bytes.getD 2 0) r rest (Record.length_split? h)

/-- Fails for a header. -/
def refuse (l : Link) (reason : Reason) : Option UInt8 → Link
  | some alert => l.fail reason alert
  | none => l.failSilently (.protocol reason)

/-! ## Taking records -/

/-- Takes records until the handshake is done: the answer, and what is left of the bytes. A record
behind the end of what the peer sends is dropped. -/
def drive (s : Settings) (l : Link) (bytes : Bytes) :
    Except Fault HandshakeProgress × Link × Bytes :=
  if l.phase = .done then (.ok .complete, l, bytes)
  else
    match l.intake bytes with
    | .waiting => (.ok .needsInput, { l with held := bytes }, [])
    | .refused reason alert =>
      (.error (.protocol reason), l.refuse reason alert, bytes.drop Record.headerLength)
    | .record minor r rest _shorter =>
      let l := if l.closeReceived then l else l.receive s minor r
      match l.failure with
      | some f => (.error f, l, rest)
      | none => if l.closeReceived then (.error .closed, l, rest) else drive s l rest
termination_by bytes.length

/-- Takes records after the handshake, until the bytes or the data end. -/
def takeData (s : Settings) (l : Link) (bytes : Bytes) : Except Fault DecryptStop × Link × Bytes :=
  if l.closeReceived then (.ok .closeNotify, l, bytes)
  else
    match l.intake bytes with
    | .waiting => (.ok .needsInput, { l with held := bytes }, [])
    | .refused reason alert =>
      (.error (.protocol reason), l.refuse reason alert, bytes.drop Record.headerLength)
    | .record minor r rest _shorter =>
      let l := l.receive s minor r
      match l.failure with
      | some f => (.error f, l, rest)
      | none => takeData s l rest
termination_by bytes.length

end Link
end TlsTransport.Classic
