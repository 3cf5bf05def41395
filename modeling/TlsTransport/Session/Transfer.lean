import TlsTransport.Session.Handshake

/-! # Writing, reading and closing

The operations of a connected session. When the peer has asked for a new handshake, writing and
reading first drive it to its end.

* `Session.writeData`: encrypts a payload piece by piece; after a call that would block, the next
  one must offer the same payload.
* `Session.readData`: hands out decrypted bytes first and then reads once from the socket.
* `Session.close`: says that no more data follows.
-/

namespace TlsTransport.Session

variable {σ ω ε : Type} [Engine σ ε] [Socket ω]

/-! ## Writing -/

/-- Encrypts the rest of a payload, a piece at a time, after what is pending has been written. A
piece ends at `locked + max 1 fragment` or with the payload. The numbers are unbounded here; machine
words give the same as long as this sum fits in one, and `locked` never exceeds the payload. -/
def sendRest (fragment : Nat) (flight : InFlight) (rest : Bytes) (s : Session σ ω ε) :
    Status Nat Unit × Session σ ω ε :=
  let (answer, s) := s.flushPending
  match answer with
  | .error e => (.error (), s.fail (.io e))
  | .ok false =>
    let s := s.note (.writeBlocked flight.locked flight.length s.pendingWrite.size)
    (.wouldBlock, { s with inFlight := some flight })
  | .ok true =>
    if rest.isEmpty then (.ok flight.length, s)
    else
      let chunk := rest.take (max 1 fragment)
      let (answer, s) := s.encryptOnce chunk
      match answer with
      | .error e => (.error (), s.fail (.native e))
      | .ok _ =>
        sendRest fragment { flight with locked := flight.locked + chunk.length }
          (rest.drop (max 1 fragment)) s
termination_by rest.length
decreasing_by
  have hne : rest ≠ [] := by simpa using ‹¬rest.isEmpty = true›
  have := List.length_pos_iff.2 hne
  simp only [List.length_drop]; omega

/-! ### The cases of a write -/

section SendRest

variable {fragment : Nat} {flight : InFlight} {rest : Bytes} {s t u : Session σ ω ε}

theorem sendRest_of_failed {e : IoError} (h : s.flushPending = (.error e, t)) :
    s.sendRest fragment flight rest = (.error (), t.fail (.io e)) := by
  rw [sendRest, h]

theorem sendRest_of_blocked (h : s.flushPending = (.ok false, t)) :
    s.sendRest fragment flight rest = (.wouldBlock,
      { t.note (.writeBlocked flight.locked flight.length t.pendingWrite.size) with
        inFlight := some flight }) := by
  rw [sendRest, h]

theorem sendRest_of_done (h : s.flushPending = (.ok true, t)) (hr : rest = []) :
    s.sendRest fragment flight rest = (.ok flight.length, t) := by
  rw [sendRest, h, hr]
  rfl

theorem sendRest_of_refused {e : ε} (h : s.flushPending = (.ok true, t)) (hr : rest ≠ [])
    (hu : t.encryptOnce (rest.take (max 1 fragment)) = (.error e, u)) :
    s.sendRest fragment flight rest = (.error (), u.fail (.native e)) := by
  have hne : ¬rest.isEmpty = true := by simpa using hr
  rw [sendRest, h]
  simp only
  rw [if_neg hne, hu]

theorem sendRest_of_encrypted {a : Unit} (h : s.flushPending = (.ok true, t)) (hr : rest ≠ [])
    (hu : t.encryptOnce (rest.take (max 1 fragment)) = (.ok a, u)) :
    s.sendRest fragment flight rest = u.sendRest fragment
      { flight with locked := flight.locked + (rest.take (max 1 fragment)).length }
      (rest.drop (max 1 fragment)) := by
  have hne : ¬rest.isEmpty = true := by simpa using hr
  rw [sendRest, h]
  simp only
  rw [if_neg hne, hu]

end SendRest

/-- Starts or resumes the write of a payload on a connected session. -/
def sendPayload (s : Session σ ω ε) (payload : Bytes) : Status Nat Unit × Session σ ω ε :=
  let fragment := Engine.maxFragment s.engine
  let digest := Digest.sip payload
  match s.inFlight with
  | some flight =>
    let s := { s with inFlight := none }
    if flight.length ≠ payload.length ∨ flight.digest ≠ digest then
      (.error (), s.fail .otherPayload)
    else s.sendRest fragment flight (payload.drop flight.locked)
  | none =>
    if payload.isEmpty then (.ok 0, s)
    else s.sendRest fragment ⟨payload.length, 0, digest⟩ payload

/-- Encrypts and sends a payload. Answers its length once all of it was handed to the socket. -/
def writeData (s : Session σ ω ε) (payload : Bytes) : Status Nat Unit × Session σ ω ε :=
  if s.state = .connected then s.sendPayload payload
  else if s.state.inHandshake && s.renegotiating then
    let (status, s) := s.runHandshake
    match status with
    | .ok _ => s.sendPayload payload
    | .wouldBlock => (.wouldBlock, s)
    | .error _ => (.error (), s)
  else if s.state = .error then (.error (), s)
  else (.error (), s.fail (.misuse (.writeIn s.state)))

/-! ## Reading -/

/-- Writes out what can be written and gives up the connection. -/
def leave (s : Session σ ω ε) : Session σ ω ε :=
  let (answer, s) := s.flushPending
  match answer with
  | .ok true => s.setState .closed
  | _ => s.setState .closing

/-- The peer said that no more data follows: answers it as far as that is possible. -/
def answerClose (s : Session σ ω ε) : Session σ ω ε :=
  let (answer, s) := notifyClose { s.note .peerClosed with peerClosed := true }
  match answer with
  | .ok _ => s.leave
  | .error e => (s.note (.replyFailed e)).leave

/-- Goes back to the handshake. -/
def reopen (s : Session σ ω ε) : Session σ ω ε :=
  let s := s.note (.renegotiationRequested s.renegotiations)
  { s with renegotiating := true, handshakeComplete := false }.setState .handshakeRead

/-- The peer started a new handshake: drives it. Answers whether decryption goes on, or else with
what reading ends, if it ends at once. -/
def renegotiate (s : Session σ ω ε) : Except (Option (Status Bytes Unit)) Unit × Session σ ω ε :=
  let (first, s) := s.reopen.processHandshake
  match first with
  | .yield (.error _) => (.error (some (.error ())), s)
  | _ =>
    let (status, s) := s.runHandshake
    match status with
    | .ok _ => (.ok (), s)
    | .error _ => (.error (some (.error ())), s)
    | .wouldBlock =>
      if s.plaintext.isEmpty then (.error (some .wouldBlock), s) else (.error none, s)

/-- Decrypts what arrived, with so many renegotiations still admitted. Answers a status only when
reading has to end with it. -/
def decryptAvailable (admitted : Nat) (s : Session σ ω ε) :
    Option (Status Bytes Unit) × Session σ ω ε :=
  let (answer, s) := s.decryptOnce
  match answer with
  | .ok .needsInput => (none, s)
  | .ok .closeNotify => (none, s.answerClose)
  | .error e => (some (.error ()), (s.fail (.native e)).flushBestEffort)
  | .ok .renegotiate =>
    let s := { s with renegotiations := s.renegotiations + 1 }
    match admitted with
    | 0 => (some (.error ()), s.fail .renegotiations)
    | admitted + 1 =>
      let (answer, s) := s.renegotiate
      match answer with
      | .ok _ => decryptAvailable admitted s
      | .error ended => (ended, s)

/-! ### The cases of a read -/

section DecryptAvailable

variable {admitted : Nat} {s t u : Session σ ω ε}

theorem decryptAvailable_of_needsInput (h : s.decryptOnce = (.ok .needsInput, t)) :
    decryptAvailable admitted s = (none, t) := by
  rw [decryptAvailable, h]

theorem decryptAvailable_of_closeNotify (h : s.decryptOnce = (.ok .closeNotify, t)) :
    decryptAvailable admitted s = (none, t.answerClose) := by
  rw [decryptAvailable, h]

theorem decryptAvailable_of_failed {e : ε} (h : s.decryptOnce = (.error e, t)) :
    decryptAvailable admitted s = (some (.error ()), (t.fail (.native e)).flushBestEffort) := by
  rw [decryptAvailable, h]

theorem decryptAvailable_of_overrun (h : s.decryptOnce = (.ok .renegotiate, t)) :
    decryptAvailable 0 s = (some (.error ()),
      { t with renegotiations := t.renegotiations + 1 }.fail .renegotiations) := by
  rw [decryptAvailable, h]

theorem decryptAvailable_of_reopened {a : Unit} (h : s.decryptOnce = (.ok .renegotiate, t))
    (hu : renegotiate { t with renegotiations := t.renegotiations + 1 } = (.ok a, u)) :
    decryptAvailable (admitted + 1) s = decryptAvailable admitted u := by
  rw [decryptAvailable, h]
  simp only
  rw [hu]

theorem decryptAvailable_of_ended {ended : Option (Status Bytes Unit)}
    (h : s.decryptOnce = (.ok .renegotiate, t))
    (hu : renegotiate { t with renegotiations := t.renegotiations + 1 } = (.error ended, u)) :
    decryptAvailable (admitted + 1) s = (ended, u) := by
  rw [decryptAvailable, h]
  simp only
  rw [hu]

end DecryptAvailable

/-- Hands out at most `max` decrypted bytes. -/
def takePlaintext (s : Session σ ω ε) (max : Nat) : Status Bytes Unit × Session σ ω ε :=
  let (bytes, rest) := s.plaintext.drain max
  (.ok bytes, { s with plaintext := rest })

/-- Answers a read with what there is. -/
def answerRead (s : Session σ ω ε) (max : Nat) : Status Bytes Unit × Session σ ω ε :=
  if !s.plaintext.isEmpty then s.takePlaintext max
  else if s.peerClosed then (.ok [], s)
  else if s.eof then (.error (), s.fail .eof)
  else (.wouldBlock, s)

/-- Ends a read after decryption: writes what the engine had to answer first. -/
def finishRead (s : Session σ ω ε) (max : Nat) : Status Bytes Unit × Session σ ω ε :=
  if s.pendingWrite.isEmpty then s.answerRead max
  else
    let (answer, s) := s.flushPending
    match answer with
    | .error e => (.error (), s.fail (.io e))
    | .ok _ => s.answerRead max

/-- Decrypts what arrived and answers a read. -/
def decryptAndFinish (s : Session σ ω ε) (max : Nat) : Status Bytes Unit × Session σ ω ε :=
  match decryptAvailable (maxRenegotiations - s.renegotiations) s with
  | (some status, s) => (status, s)
  | (none, s) => s.finishRead max

/-- Reads once from the socket and decrypts. -/
def receive (s : Session σ ω ε) (max : Nat) : Status Bytes Unit × Session σ ω ε :=
  let (answer, s) := s.fillRaw (Nat.max max maxRecordLength)
  match answer with
  | .ok [] => { s with eof := true }.decryptAndFinish max
  | .ok _ => s.decryptAndFinish max
  | .error e => if e.isBlock then s.decryptAndFinish max else (.error (), s.fail (.io e))

/-- Reads at most `max` decrypted bytes. No bytes mean that the peer closed the connection. -/
def readData (s : Session σ ω ε) (max : Nat) : Status Bytes Unit × Session σ ω ε :=
  if max = 0 then (.ok [], s)
  else if !s.plaintext.isEmpty then s.takePlaintext max
  else if s.state = .connected then s.receive max
  else if s.state.inHandshake && s.renegotiating then
    let (status, s) := s.runHandshake
    match status with
    | .ok _ => s.receive max
    | .wouldBlock => (.wouldBlock, s)
    | .error _ => (.error (), s)
  else if s.state = .closing ∨ s.state = .closed then (.ok [], s)
  else if s.state = .error then (.error (), s)
  else (.error (), s.fail (.misuse (.readIn s.state)))

/-! ## Closing -/

/-- Writes out the closing notice. -/
def finishClose (s : Session σ ω ε) : Status Unit Unit × Session σ ω ε :=
  let (answer, s) := s.flushPending
  match answer with
  | .ok true => (.ok (), s.setState .closed)
  | .ok false => (.wouldBlock, s)
  | .error e => (.error (), s.fail (.io e))

/-- Says that no more data follows. The socket stays open. -/
def close (s : Session σ ω ε) : Status Unit Unit × Session σ ω ε :=
  if s.state = .connected then
    let (answer, s) := s.notifyClose
    match answer with
    | .error e => (.error (), s.fail (.native e))
    | .ok _ => ({ s with inFlight := none }.setState .closing).finishClose
  else if s.state = .closing then s.finishClose
  else if s.state = .closed then (.ok (), s)
  else if s.state = .error then (.error (), s)
  else (.error (), s.fail (.misuse (.closeIn s.state)))

/-! ## Reporting -/

/-- What the session agreed on. -/
def info (s : Session σ ω ε) : SessionInfo where
  version := s.version
  cipher := Engine.cipherSuite s.engine
  serverName := s.requestedName
  certificates := Engine.peerCertificates s.engine
  renegotiations := s.renegotiations
  failed := s.state == .error

/-- The session as it stands in diagnostic output. -/
def summary (s : Session σ ω ε) : String :=
  s!"TlsSession \x7b side: {s.side.name}, state: {s.state.name}, pending_write: "
    ++ s!"{s.pendingWrite.size}, raw_read: {s.rawRead.size}, plaintext: {s.plaintext.size} \x7d"

end TlsTransport.Session
