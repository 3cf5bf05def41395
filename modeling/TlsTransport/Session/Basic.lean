import TlsTransport.CipherPolicy
import TlsTransport.Digest.Sip
import TlsTransport.Engine
import TlsTransport.SessionInfo
import TlsTransport.SetupError
import TlsTransport.Socket.Transfer
import TlsTransport.Status
import TlsTransport.Text.Character

/-! # Sessions

A session binds one engine to one non-blocking socket and owns the three buffers between them. This
module holds its state and what every operation is made of: changing the state, failing, and the
two ways to move bytes.

* `SessionState`: the states, from `constructed` to `closed`; `error` is the other end.
* `Failure`: why a session failed.
* `Session`: the state of one connection. Its journal lists every call it made to its engine and its
  socket and everything it reported.
* `Session.flushPending`, `Session.fillRaw`: the only places where a session uses its socket.
* `Session.startEngine`, `handshakeOnce`, `encryptOnce`, `decryptOnce`, `notifyClose`: the only
  places where it has its engine do something.
-/

namespace TlsTransport

/-! ## States and failures -/

/-- The states of a session. -/
inductive SessionState where
  | constructed | initialized | handshakeWrite | handshakeRead | handshakeDone
  | connected | closing | closed | error
  deriving DecidableEq, Repr

namespace SessionState

/-- The name of a state. -/
def name : SessionState → String
  | constructed => "Constructed"
  | initialized => "Initialized"
  | handshakeWrite => "HandshakeWrite"
  | handshakeRead => "HandshakeRead"
  | handshakeDone => "HandshakeDone"
  | connected => "Connected"
  | closing => "Closing"
  | closed => "Closed"
  | error => "Error"

/-- Whether a handshake is under way. -/
def inHandshake : SessionState → Bool
  | handshakeWrite | handshakeRead | handshakeDone => true
  | _ => false

end SessionState

/-- A call that the state or the side of a session does not admit. -/
inductive Misuse where
  | connectOnServer
  | acceptOnClient
  | handshakeIn (state : SessionState)
  | writeIn (state : SessionState)
  | readIn (state : SessionState)
  | closeIn (state : SessionState)
  | initIn (state : SessionState)
  | serverNameOnServer
  | serverNameIn (state : SessionState)
  /-- The engine finished its handshake without a version. -/
  | noVersion
  deriving DecidableEq, Repr

/-- The text of a misuse. -/
def Misuse.message : Misuse → String
  | connectOnServer => "tls_connect on a server session"
  | acceptOnClient => "tls_accept on a client session"
  | handshakeIn s => s!"handshake in state {s.name}"
  | writeIn s => s!"write in state {s.name}"
  | readIn s => s!"read in state {s.name}"
  | closeIn s => s!"close in state {s.name}"
  | initIn s => s!"init called in state {s.name}"
  | serverNameOnServer => "SNI is client-only"
  | serverNameIn s => s!"SNI hostname set in state {s.name}"
  | noVersion => "no protocol version negotiated"

/-- What is wrong with the identity of a peer. -/
inductive IdentityFault where
  | noCertificate
  | wrongHostname
  deriving DecidableEq, Repr

/-- The text of an identity fault. -/
def IdentityFault.message : IdentityFault → String
  | noCertificate => "certificate not found"
  | wrongHostname => "hostname does not match"

/-- Why a session failed. -/
inductive Failure (ε : Type) where
  | native (status : ε)
  | io (cause : IoError)
  /-- The stream ended without a notice. -/
  | eof
  | misuse (what : Misuse)
  | identity (fault : IdentityFault)
  /-- The negotiated suite is blocked. -/
  | cipher (suite : String)
  /-- A write was repeated with other bytes. -/
  | otherPayload
  | renegotiations
  deriving DecidableEq

/-- The most renegotiations that the peer of a session may ask for. -/
def maxRenegotiations : Nat := 8

/-- The longest record: header, payload and expansion. -/
def maxRecordLength : Nat := 5 + 16384 + 2048

/-- An input or output error as it stands in the log. -/
def IoError.render : IoError → String
  | .bare k => s!"Kind({k.name})"
  | .described k text => s!"Custom \x7b kind: {k.name}, error: {quoted text} \x7d"
  | .system n =>
    let (k, text) := systemError n
    s!"Os \x7b code: {n}, kind: {k.name}, message: {quoted text} \x7d"

namespace Failure

variable {σ ε : Type}

/-- A failure as people read it. -/
def message (describe : ε → String) : Failure ε → String
  | native status => describe status
  | io e => s!"SSL I/O error: {e.message}"
  | eof => "EOF was received"
  | misuse m => s!"invalid state: {m.message}"
  | identity f => f.message
  | cipher suite => s!"cipher suite {suite} is not allowed"
  | otherPayload => "a different buffer was passed while a write was in progress"
  | renegotiations => s!"too many renegotiations (limit {maxRenegotiations})"

/-- A failure as it stands in the log. -/
def render (native : ε → String) : Failure ε → String
  | .native status => s!"Native({native status})"
  | io e => s!"Io({e.render})"
  | eof => "Eof"
  | misuse m => s!"State({quoted m.message})"
  | identity f => s!"Verify({quoted f.message})"
  | cipher suite => s!"Cipher({quoted suite})"
  | otherPayload => "Contract"
  | renegotiations => "Renegotiation"

end Failure

/-! ## The journal -/

/-- What a session reports. -/
inductive Notice (ε : Type) where
  | stateChanged (before after : SessionState)
  | failed (state : SessionState) (failure : Failure ε)
  | writeBlocked (encrypted length pending : Nat)
  | peerClosed
  | replyFailed (status : ε)
  | renegotiationRequested (count : Nat)
  | insecureVersion (version : TlsVersion)
  | renegotiated (version : TlsVersion)
  | handshakeCompleted (version : TlsVersion) (cipher : Option String)

/-- A notice as a log line. -/
def Notice.logLine {ε : Type} (native : ε → String) : Notice ε → LogLine
  | stateChanged a b => ⟨.debug, s!"TLS state {a.name} -> {b.name}"⟩
  | failed s f => ⟨.error, s!"TLS session failed in state {s.name}: {f.render native}"⟩
  | writeBlocked n len pending =>
    ⟨.debug, s!"write would block: {n} of {len} bytes encrypted, {pending} bytes pending"⟩
  | peerClosed => ⟨.debug, "peer sent close-notify"⟩
  | replyFailed status => ⟨.debug, s!"failed to answer close-notify: {native status}"⟩
  | renegotiationRequested n => ⟨.info, s!"peer requested renegotiation ({n})"⟩
  | insecureVersion v => ⟨.warn, s!"peer negotiated insecure protocol {v.name}"⟩
  | renegotiated v => ⟨.info, s!"renegotiation completed: {v.name}"⟩
  | handshakeCompleted v cipher =>
    ⟨.info, s!"TLS handshake completed: {v.name} {cipher.getD undefinedText}"⟩

/-- One entry of a session's journal. -/
inductive Event (ε : Type) where
  | engine (call : EngineCall ε)
  | socket (call : SocketCall)
  | notice (what : Notice ε)

/-! ## The session -/

/-- The payload of a write that is not yet handed to the socket in full. -/
structure InFlight where
  length : Nat
  /-- How many leading bytes are encrypted. -/
  locked : Nat
  /-- Digest of the payload; a repeated write must present the same one. -/
  digest : UInt64
  deriving DecidableEq, Repr

/-- One connection over a caller's socket. -/
structure Session (σ ω ε : Type) where
  engine : σ
  side : Side
  verifyPeer : Bool
  policy : CipherPolicy
  state : SessionState
  socket : Option ω
  /-- The host that the caller connects to. -/
  hostname : Option String
  /-- The name to send in place of the host. -/
  serverName : Option String
  /-- Ciphertext not yet written. -/
  pendingWrite : Buffer
  /-- Ciphertext not yet consumed. -/
  rawRead : Buffer
  /-- Decrypted bytes not yet read. -/
  plaintext : Buffer
  inFlight : Option InFlight
  handshakeComplete : Bool
  renegotiating : Bool
  renegotiations : Nat
  /-- The peer said that no more data follows. -/
  peerClosed : Bool
  /-- The stream ended. -/
  eof : Bool
  version : Option TlsVersion
  lastFailure : Option (Failure ε)
  /-- What the session did, newest first. -/
  journal : List (Event ε)

namespace Session

variable {σ ω ε : Type}

/-- A session around an engine, without a socket. -/
def ofEngine (engine : σ) (side : Side) (verifyPeer : Bool) (policy : CipherPolicy) :
    Session σ ω ε where
  engine := engine
  side := side
  verifyPeer := verifyPeer
  policy := policy
  state := .constructed
  socket := none
  hostname := none
  serverName := none
  pendingWrite := .empty
  rawRead := .empty
  plaintext := .empty
  inFlight := none
  handshakeComplete := false
  renegotiating := false
  renegotiations := 0
  peerClosed := false
  eof := false
  version := none
  lastFailure := none
  journal := []

/-- Adds an entry to the journal. -/
def tell (s : Session σ ω ε) (e : Event ε) : Session σ ω ε :=
  { s with journal := e :: s.journal }

/-- Reports something. -/
def note (s : Session σ ω ε) (n : Notice ε) : Session σ ω ε := s.tell (.notice n)

/-- Adds socket calls to the journal. -/
def tellSocket (s : Session σ ω ε) (calls : List SocketCall) : Session σ ω ε :=
  { s with journal := (calls.map Event.socket).reverse ++ s.journal }

/-- Goes to a state. -/
def setState (s : Session σ ω ε) (next : SessionState) : Session σ ω ε :=
  if s.state = next then s
  else { s.note (.stateChanged s.state next) with state := next }

@[simp] theorem state_setState (s : Session σ ω ε) (next : SessionState) :
    (s.setState next).state = next := by
  unfold setState; split
  · assumption
  · rfl

/-- Records a failure. A closed session stays closed. -/
def fail (s : Session σ ω ε) (f : Failure ε) : Session σ ω ε :=
  let s := s.note (.failed s.state f)
  let s := { s with lastFailure := some f, inFlight := none }
  if s.state = .closed then s else s.setState .error

theorem setState_eq (s : Session σ ω ε) (next : SessionState) :
    s.setState next = { s with
      state := next
      journal := if s.state = next then s.journal
        else .notice (.stateChanged s.state next) :: s.journal } := by
  unfold setState
  split
  · rename_i h
    subst h
    rfl
  · rfl

theorem fail_eq (s : Session σ ω ε) (f : Failure ε) :
    s.fail f = { s with
      state := if s.state = .closed then .closed else .error
      inFlight := none
      lastFailure := some f
      journal := if s.state = .closed ∨ s.state = .error then
          .notice (.failed s.state f) :: s.journal
        else .notice (.stateChanged s.state .error) :: .notice (.failed s.state f) :: s.journal } := by
  by_cases hc : s.state = .closed
  · simp [fail, note, tell, hc]
  · by_cases he : s.state = .error <;> simp [fail, note, tell, setState_eq, hc, he]

/-- The name under which a session looks for its server. -/
def requestedName (s : Session σ ω ε) : Option String :=
  match s.side with
  | .client => s.serverName <|> s.hostname
  | .server => none

/-- What the caller has to wait for before it repeats a call. -/
def direction (s : Session σ ω ε) : Direction :=
  if s.pendingWrite.isEmpty then .read else .write

/-- Decrypted bytes waiting to be read. -/
def bufferedLength (s : Session σ ω ε) : Nat := s.plaintext.size

/-! ## Setting up -/

/-- Binds a session to its socket, once. -/
def init (s : Session σ ω ε) (k : ω) : Except SetupError Unit × Session σ ω ε :=
  if s.state = .constructed then (.ok (), { s with socket := some k }.setState .initialized)
  else (.error (.invalidState (Misuse.initIn s.state).message), s)

/-- Sets the name to send in place of the host, before the handshake of a client. -/
def setServerName (s : Session σ ω ε) (name : String) : Except SetupError Unit × Session σ ω ε :=
  if s.side ≠ .client then (.error (.invalidState Misuse.serverNameOnServer.message), s)
  else if s.state ≠ .initialized then
    (.error (.invalidState (Misuse.serverNameIn s.state).message), s)
  else (.ok (), { s with serverName := some name })

/-! ## Moving bytes -/

variable [Socket ω]

/-- How much the socket can still deliver by itself. -/
def supply (s : Session σ ω ε) : Nat :=
  match s.socket with
  | none => 0
  | some k => Socket.supply k

/-- Writes out what is pending; `false` when the socket takes no more. -/
def flushPending (s : Session σ ω ε) : Except IoError Bool × Session σ ω ε :=
  match s.socket with
  | none => (.error (.bare .notConnected), s)
  | some k =>
    let r := drain s.pendingWrite k
    (r.answer, { s with socket := some r.socket, pendingWrite := r.buffer }.tellSocket r.calls)

/-- Writes out what can be written, whatever comes of it. -/
def flushBestEffort (s : Session σ ω ε) : Session σ ω ε :=
  if s.socket.isSome && !s.pendingWrite.isEmpty then s.flushPending.2 else s

/-- Reads once from the socket. -/
def fillRaw (s : Session σ ω ε) (max : Nat) : Except IoError Bytes × Session σ ω ε :=
  match s.socket with
  | none => (.error (.bare .notConnected), s)
  | some k =>
    let r := fill s.rawRead k max
    (r.answer, { s with socket := some r.socket, rawRead := r.buffer }.tellSocket r.calls)

/-! ## Calling the engine -/

section Calls

variable [Engine σ ε]

/-- Starts the engine. -/
def startEngine (s : Session σ ω ε) : Except ε Unit × Session σ ω ε :=
  let r := Engine.start s.engine s.requestedName
  (r.1, { s.tell (.engine (.start s.requestedName r.1)) with engine := r.2 })

/-- Gives what arrived to the engine's handshake once. -/
def handshakeOnce (s : Session σ ω ε) : Except ε HandshakeProgress × Session σ ω ε :=
  let t := Engine.handshake s.engine s.rawRead s.pendingWrite
  let moved := t.traffic s.rawRead s.pendingWrite
  let s := s.tell (.engine (.handshake s.rawRead.size moved t.answer))
  (t.answer, { s with engine := t.engine, rawRead := t.input, pendingWrite := t.output })

/-- Encrypts one piece of a payload. -/
def encryptOnce (s : Session σ ω ε) (chunk : Bytes) : Except ε Unit × Session σ ω ε :=
  let t := Engine.encrypt s.engine chunk s.pendingWrite
  let s := s.tell (.engine (.encrypt chunk (t.traffic s.pendingWrite) t.answer))
  (t.answer, { s with engine := t.engine, pendingWrite := t.output })

/-- Decrypts what arrived once. -/
def decryptOnce (s : Session σ ω ε) : Except ε DecryptStop × Session σ ω ε :=
  let t := Engine.decrypt s.engine s.rawRead s.pendingWrite s.plaintext
  let moved := t.traffic s.rawRead s.pendingWrite s.plaintext
  let s := s.tell (.engine (.decrypt s.rawRead.size s.plaintext.size moved t.answer))
  (t.answer, { s with
    engine := t.engine, rawRead := t.input, pendingWrite := t.output, plaintext := t.plaintext })

/-- Has the engine say that no more data follows. -/
def notifyClose (s : Session σ ω ε) : Except ε Unit × Session σ ω ε :=
  let t := Engine.closeNotify s.engine s.pendingWrite
  let s := s.tell (.engine (.closeNotify (t.traffic s.pendingWrite) t.answer))
  (t.answer, { s with engine := t.engine, pendingWrite := t.output })

end Calls

/-! ## What changes and what stays -/

/-- Writing out touches the socket, what is pending and the journal only. -/
theorem flushPending_frame (s : Session σ ω ε) : ∃ k b, ∃ calls : List SocketCall,
    s.flushPending.2 = { s with
      socket := k, pendingWrite := b
      journal := (calls.map Event.socket).reverse ++ s.journal } := by
  unfold flushPending
  cases h : s.socket with
  | none => exact ⟨s.socket, s.pendingWrite, [], rfl⟩
  | some k => exact ⟨_, _, _, rfl⟩

/-- Reading touches the socket, what arrived and the journal only. -/
theorem fillRaw_frame (s : Session σ ω ε) (max : Nat) : ∃ k b, ∃ calls : List SocketCall,
    (s.fillRaw max).2 = { s with
      socket := k, rawRead := b
      journal := (calls.map Event.socket).reverse ++ s.journal } := by
  unfold fillRaw
  cases h : s.socket with
  | none => exact ⟨s.socket, s.rawRead, [], rfl⟩
  | some k => exact ⟨_, _, _, rfl⟩

theorem flushBestEffort_frame (s : Session σ ω ε) : ∃ k b, ∃ calls : List SocketCall,
    s.flushBestEffort = { s with
      socket := k, pendingWrite := b
      journal := (calls.map Event.socket).reverse ++ s.journal } := by
  unfold flushBestEffort
  split
  · exact s.flushPending_frame
  · exact ⟨s.socket, s.pendingWrite, [], rfl⟩

@[simp] theorem state_flushPending (s : Session σ ω ε) : s.flushPending.2.state = s.state := by
  obtain ⟨k, b, j, h⟩ := s.flushPending_frame
  rw [h]

@[simp] theorem state_fillRaw (s : Session σ ω ε) (max : Nat) :
    (s.fillRaw max).2.state = s.state := by
  obtain ⟨k, b, j, h⟩ := s.fillRaw_frame max
  rw [h]

@[simp] theorem state_flushBestEffort (s : Session σ ω ε) :
    s.flushBestEffort.state = s.state := by
  obtain ⟨k, b, j, h⟩ := s.flushBestEffort_frame
  rw [h]

/-! ## Supply -/

@[simp] theorem supply_setState (s : Session σ ω ε) (next : SessionState) :
    (s.setState next).supply = s.supply := by
  unfold setState; split <;> rfl

theorem supply_flushPending_le (s : Session σ ω ε) : s.flushPending.2.supply ≤ s.supply := by
  unfold flushPending supply
  cases h : s.socket with
  | none => simp [h]
  | some k => exact supply_drain_le s.pendingWrite k

theorem supply_fillRaw_lt (s : Session σ ω ε) (max : Nat) {bytes : Bytes}
    (ha : (s.fillRaw max).1 = .ok bytes) (hne : bytes ≠ []) :
    (s.fillRaw max).2.supply < s.supply := by
  unfold fillRaw supply at *
  cases h : s.socket with
  | none => simp [h] at ha
  | some k =>
    simp only [h] at ha ⊢
    exact supply_fill_lt s.rawRead k max ha hne

end Session
end TlsTransport
