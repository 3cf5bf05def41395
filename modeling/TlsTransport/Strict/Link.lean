import TlsTransport.Protocol.Flight
import TlsTransport.Strict.Settings

/-! # Connections of the strict provider

The state of one connection after its start, and what it does with the bytes that arrive.

* `Link.answerHello`, `Link.acceptChoice`, `Link.acceptFinish`: the steps of a handshake.
* `Link.receive`: one record.
* `Link.feed`: more bytes from the peer. Whole records are used, the rest is kept for later.
-/

namespace TlsTransport.Strict

/-- What a connection waits for. -/
inductive Phase where
  /-- A server, to be greeted. -/
  | hello
  /-- A client, for the choice of the server of this name. -/
  | choice (server : ServerName)
  /-- A server, for the end of its client. -/
  | finish
  /-- A client of the older version, for its server. -/
  | confirmation
  /-- Nothing; data can flow. -/
  | done
  deriving DecidableEq, Repr

/-- A connection after its start. -/
structure Link where
  phase : Phase
  /-- Whether records are protected. -/
  keyed : Bool
  /-- The beginning of a record whose end has not arrived. -/
  held : Bytes
  /-- The beginning of a flight whose end has not arrived. -/
  flight : Bytes
  /-- Records to be sent. -/
  queue : Bytes
  /-- Data that arrived and was not handed on. -/
  plain : Bytes
  /-- Data to be sent once the handshake is done. -/
  early : Bytes
  failure : Option Error
  /-- How many warnings arrived. -/
  warnings : Nat
  version : Option TlsVersion
  suite : Option Suite
  peerChain : List Bytes
  closeSent : Bool
  closeReceived : Bool

namespace Link

/-- A connection that waits for something, with what it has to send first. -/
def waitingFor (phase : Phase) (queue : Bytes) : Link where
  phase := phase
  keyed := false
  held := []
  flight := []
  queue := queue
  plain := []
  early := []
  failure := none
  warnings := 0
  version := none
  suite := none
  peerChain := []
  closeSent := false
  closeReceived := false

/-- A client that greets its server. -/
def client (s : Settings) (server : ServerName) : Link :=
  let hello := Flight.hello (s.offered.map TlsVersion.number) (s.suites.map Suite.number)
  waitingFor (.choice server) (Record.encodeAll Record.handshake hello.encode)

/-- A server that waits for a client. -/
def server : Link := waitingFor .hello []

/-! ## Sending -/

/-- Sends bytes of one kind, protected if that can be. -/
def send (l : Link) (kind : UInt8) (bytes : Bytes) : Link :=
  let records := if l.keyed then Record.protectAll kind bytes else Record.encodeAll kind bytes
  { l with queue := l.queue ++ records }

/-- Sends a flight. -/
def sendFlight (l : Link) (f : Flight) : Link := l.send Record.handshake f.encode

/-- Level of an alert that ends a connection, and of one that does not. -/
def fatal : UInt8 := 2
def warning : UInt8 := 1

/-- Fails, and tells the peer by an alert. -/
def failWith (l : Link) (e : Error) (alert : Option UInt8) : Link :=
  let l := match alert with
    | some code => l.send Record.alert [fatal, code]
    | none => l
  { l with failure := some e }

/-- Fails, and tells the peer what belongs to the failure. -/
def fail (l : Link) (e : Error) : Link := l.failWith e e.alertCode?

/-- Ends the handshake; data that waited for this is sent. -/
def complete (l : Link) : Link :=
  let l := { l with phase := .done, keyed := true }
  { l.send Record.data l.early with early := [] }

/-! ## The handshake -/

/-- Answers the greeting of a client: the newest common version, and of the suites for it and for
the own key the one that the client prefers. -/
def answerHello (s : Settings) (own : Identity) (versions suites : List Nat) (l : Link) : Link :=
  match s.offered.find? fun v => versions.contains v.number with
  | none => l.fail .noCommonVersion
  | some version =>
    let l := { l with version := some version }
    let usable := suites.filterMap Suite.ofNumber? |>.filter fun suite =>
      s.suites.contains suite && suite.version = version &&
        suite.isUsableBy (SignerKind.ofKey own.key)
    match usable with
    | [] => l.fail .noCommonSuite
    | suite :: _ =>
      let choice := Flight.choice version.number suite.number s.verifyPeer own.chain
      { l.sendFlight choice with
        suite := some suite, phase := .finish, keyed := version = .tls13 }

/-- What speaks against the chain of a peer. -/
def chainFault? (s : Settings) (presenter : Side) (name : Option ServerName) (chain : List Bytes) :
    Option Error :=
  if !s.verifyPeer then none
  else if chain.isEmpty then some .noCertificates
  else
    let verdict := do
      let leaf ← verifyChain ⟨s.anchors, s.now, presenter⟩ chain
      match name with
      | some server => verifyName server leaf
      | none => .ok ()
    match verdict with
    | .ok () => none
    | .error fault => some (.certificate fault)

/-- Accepts the choice of a server, if its chain holds, and finishes. -/
def acceptChoice (s : Settings) (server : ServerName) (version : TlsVersion) (suite : Suite)
    (asks : Bool) (chain : List Bytes) (l : Link) : Link :=
  let l := { l with version := some version, suite := some suite }
  match chainFault? s .server (some server) chain with
  | some e => l.fail e
  | none =>
    let own := if asks then (s.identity.map (·.chain)).getD [] else []
    let l := { l with peerChain := chain }
    if version = .tls13 then ({ l with keyed := true }.sendFlight (.finish own)).complete
    else { l.sendFlight (.finish own) with phase := .confirmation }

/-- Accepts the end of a client, if its chain holds. -/
def acceptFinish (s : Settings) (chain : List Bytes) (l : Link) : Link :=
  match chainFault? s .client none chain with
  | some e => l.fail e
  | none =>
    let l := { l with peerChain := chain }
    if l.version = some .tls13 then l.complete.sendFlight .ticket
    else (l.sendFlight .confirmation).complete

/-- One flight of the peer. -/
def onFlight (s : Settings) (f : Flight) (l : Link) : Link :=
  match l.phase, f, s.identity with
  | .hello, .hello versions suites, some own => l.answerHello s own versions suites
  | .choice server, .choice version suite asks chain, _ =>
    match TlsVersion.ofNumber? version, Suite.ofNumber? suite with
    | some v, some suite => l.acceptChoice s server v suite asks chain
    | _, _ => l.fail (.corrupt .message)
  | .finish, .finish chain, _ => l.acceptFinish s chain
  | .confirmation, .confirmation, _ => l.complete
  | .done, .ticket, _ => l
  | _, _, _ => l.fail (.corrupt .message)

/-- The flights in handshake bytes, up to a failure. -/
def onFlights (s : Settings) (l : Link) (bytes : Bytes) : Link :=
  if l.failure.isSome then l
  else
    match _h : Flight.split? bytes with
    | none => { l with flight := bytes }
    | some (none, _) => l.fail (.corrupt .message)
    | some (some f, rest) => onFlights s (l.onFlight s f) rest
termination_by bytes.length
decreasing_by exact Flight.length_split? ‹_›

/-! ## Records -/

/-- How many warnings a peer may send. -/
def maxWarnings : Nat := 4

/-- The code of the alert for a cancelled action, the only warning in the newest version. -/
def cancelCode : UInt8 := 90

/-- An alert of the peer. Before data flows a closing alert counts as a warning. -/
def onAlert (l : Link) : Bytes → Link
  | [level, code] =>
    if level ≠ warning ∧ level ≠ fatal then l.failWith (.alert code) (some 47)
    else if code = 0 ∧ l.phase = .done then { l with closeReceived := true }
    else if level = fatal then l.failWith (.alert code) none
    else if l.warnings = maxWarnings then l.fail .tooManyWarnings
    else if l.version = some .tls13 ∧ code ≠ cancelCode then l.failWith (.alert code) (some 50)
    else { l with warnings := l.warnings + 1 }
  | _ => l.fail (.corrupt .message)

/-- The kind and the content of a record. While a server waits for the end of its client, a short
alert may still come without protection. -/
def contentOf? (l : Link) (r : Record) : Option (UInt8 × Bytes) :=
  if l.keyed then
    if r.kind = Record.alert ∧ r.body.length ≤ 2 ∧ l.phase ≠ .done then some (r.kind, r.body)
    else r.unprotect?
  else some (r.kind, r.body)

/-- One record of the peer. -/
def receive (s : Settings) (r : Record) (l : Link) : Link :=
  match l.contentOf? r with
  | none => l.fail .undecryptable
  | some (kind, content) =>
    if kind = Record.alert then l.onAlert content
    else if kind = Record.handshake then { l with flight := [] }.onFlights s (l.flight ++ content)
    else if kind = Record.data ∧ l.phase = .done then { l with plain := l.plain ++ content }
    else l.fail (.unexpectedRecord kind)

/-- Versions that a header may bear besides those of this protocol: an older one and those of the
protocol for datagrams. -/
def foreignVersions : List (UInt8 × UInt8) := [(0, 2), (0xfe, 0xff), (0xfe, 0xfd), (0xfe, 0xfc)]

/-- What is wrong with as much of a header as there is. -/
def headerFault? : Bytes → Option RecordFault
  | [] => none
  | kind :: rest =>
    if !Record.isKnown kind then some .contentType
    else
      match rest with
      | major :: minor :: rest =>
        if major ≠ 3 ∧ !foreignVersions.contains (major, minor) then some .version
        else
          match rest with
          | hi :: lo :: _ =>
            let n := Bytes.toNat [hi, lo]
            if n = 0 ∧ kind ≠ Record.data then some .emptyPayload
            else if Record.maxBody ≤ n then some .length
            else none
          | _ => none
      | _ => none

/-- The records in a byte string, up to a failure or the end of the data; what is left is kept. -/
def onRecords (s : Settings) (l : Link) (bytes : Bytes) : Link :=
  if l.failure.isSome then l
  else if l.closeReceived then l
  else
    match headerFault? bytes with
    | some fault => { l with held := bytes }.fail (.corrupt fault)
    | none =>
      match _h : Record.split? bytes with
      | none => { l with held := bytes }
      | some (r, rest) => onRecords s (l.receive s r) rest
termination_by bytes.length
decreasing_by exact Record.length_split? ‹_›

/-- More bytes from the peer. -/
def feed (s : Settings) (bytes : Bytes) (l : Link) : Link :=
  { l with held := [] }.onRecords s (l.held ++ bytes)

/-- Whether a connection takes more bytes: it has sent all that its peer waits for, and the peer may
still have something to say. -/
def wantsInput (l : Link) : Bool :=
  !l.closeReceived && (l.phase = .done || l.queue.isEmpty)

end Link
end TlsTransport.Strict
