import TlsTransport.Session.Basic

/-! # The handshake of a session

The handshake runs as far as the socket allows. It is the same for the first handshake and for one
that the peer asks for later; `Session.runHandshake` resumes it wherever it stopped.

* `Session.step`: what a session does in its present state.
* `Session.step_decreases`: a step that goes on has read from the socket or come closer to the end.
* `Session.connect`, `Session.accept`: the calls that drive it.
-/

namespace TlsTransport

variable {σ ω ε : Type}

/-- Whether a handshake goes on after a step. -/
inductive StepResult where
  | proceed
  | yield (status : Status TlsVersion Unit)
  deriving DecidableEq

namespace Session

/-- A step that fails. -/
def failStep (s : Session σ ω ε) (f : Failure ε) : StepResult × Session σ ω ε :=
  (.yield (.error ()), s.fail f)

/-- Where a handshake goes on: first what is pending is written, then more is read. -/
def nextHandshakeState (s : Session σ ω ε) : SessionState :=
  if !s.pendingWrite.isEmpty then .handshakeWrite
  else if s.handshakeComplete then .handshakeDone
  else .handshakeRead

theorem inHandshake_nextHandshakeState (s : Session σ ω ε) :
    s.nextHandshakeState.inHandshake = true := by
  unfold nextHandshakeState
  split
  · rfl
  · split <;> rfl

variable [Engine σ ε] [Socket ω]

/-- Gives what arrived to the engine and picks the next state. When the engine fails, the peer still
gets to see what it has to say. -/
def processHandshake (s : Session σ ω ε) : StepResult × Session σ ω ε :=
  let (answer, s) := s.handshakeOnce
  match answer with
  | .ok progress =>
    let done := s.handshakeComplete || progress == HandshakeProgress.complete
    let s := { s with handshakeComplete := done }
    (.proceed, s.setState s.nextHandshakeState)
  | .error e => (.yield (.error ()), (s.fail (.native e)).flushBestEffort)

/-- What the certificate of the peer lacks, for a client that verifies its peer and whose engine
leaves the name to it. -/
def identityFault? (s : Session σ ω ε) : Option IdentityFault :=
  if s.side = .client ∧ s.verifyPeer = true ∧ Engine.verifiesHostname σ = false then
    match Engine.peerIdentity s.engine with
    | none => some .noCertificate
    | some identity =>
      if identity.covers (s.hostname.getD "") then none else some .wrongHostname
  else none

/-- The negotiated suite, if the policy blocks it. -/
def blockedSuite? (s : Session σ ω ε) : Option String :=
  (Engine.cipherSuite s.engine).filter fun suite => !s.policy.allows suite

/-- Connects with a version. -/
def connectedAs (s : Session σ ω ε) (v : TlsVersion) : Session σ ω ε :=
  let s := if v = .ssl3 then s.note (.insecureVersion v) else s
  let s := { s with version := some v }
  let s :=
    if s.renegotiating then { s with renegotiating := false }.note (.renegotiated v)
    else s.note (.handshakeCompleted v (Engine.cipherSuite s.engine))
  s.setState .connected

/-- Checks what was agreed on and connects. -/
def finishHandshake (s : Session σ ω ε) : StepResult × Session σ ω ε :=
  match s.identityFault? with
  | some fault => s.failStep (.identity fault)
  | none =>
    match s.blockedSuite? with
    | some suite => s.failStep (.cipher suite)
    | none =>
      match Engine.version s.engine with
      | none => s.failStep (.misuse .noVersion)
      | some v => (.yield (.ok v), s.connectedAs v)

/-- What a session does in its present state. -/
def step (s : Session σ ω ε) : StepResult × Session σ ω ε :=
  match s.state with
  | .initialized =>
    let (answer, s) := s.startEngine
    match answer with
    | .error e => s.failStep (.native e)
    | .ok _ => { s with handshakeComplete := false }.processHandshake
  | .handshakeWrite =>
    let (answer, s) := s.flushPending
    match answer with
    | .ok true =>
      (.proceed, s.setState (if s.handshakeComplete then .handshakeDone else .handshakeRead))
    | .ok false => (.yield .wouldBlock, s)
    | .error e => s.failStep (.io e)
  | .handshakeRead =>
    let (answer, s) := s.fillRaw maxRecordLength
    match answer with
    | .ok [] => s.failStep .eof
    | .ok _ => s.processHandshake
    | .error e => if e.isBlock then (.yield .wouldBlock, s) else s.failStep (.io e)
  | .handshakeDone => s.finishHandshake
  | .connected =>
    match s.version with
    | some v => (.yield (.ok v), s)
    | none => s.failStep (.misuse .noVersion)
  | state => s.failStep (.misuse (.handshakeIn state))

/-! ## The handshake ends -/

/-- How many steps a handshake can take before it reads again. -/
def stepsLeft : SessionState → Nat
  | .initialized => 3
  | .handshakeWrite => 2
  | .handshakeRead => 1
  | _ => 0

theorem stepsLeft_le (state : SessionState) : stepsLeft state ≤ 3 := by
  cases state <;> decide

theorem processHandshake_proceed {s s' : Session σ ω ε}
    (h : s.processHandshake = (.proceed, s')) : s'.supply = s.supply ∧ stepsLeft s'.state ≤ 2 := by
  unfold processHandshake at h
  simp only at h
  split at h
  · injection h with _ h
    subst h
    refine ⟨supply_setState .., ?_⟩
    rw [state_setState, nextHandshakeState]
    split
    · decide
    · split <;> decide
  · simp at h

theorem step_decreases {s s' : Session σ ω ε} (h : s.step = (.proceed, s')) :
    s'.supply < s.supply ∨ s'.supply = s.supply ∧ stepsLeft s'.state < stepsLeft s.state := by
  unfold step at h
  split at h
  · rename_i hs
    simp only [startEngine] at h
    split at h
    · simp [failStep] at h
    · have hp := processHandshake_proceed h
      refine .inr ⟨hp.1, ?_⟩
      have : stepsLeft s.state = 3 := by rw [hs]; rfl
      omega
  · rename_i hs
    simp only at h
    split at h
    · injection h with _ h
      subst h
      have hle := supply_flushPending_le s
      rw [supply_setState, state_setState, hs]
      rcases Nat.lt_or_eq_of_le hle with hlt | heq
      · exact .inl hlt
      · refine .inr ⟨heq, ?_⟩
        split <;> decide
    · simp at h
    · simp [failStep] at h
  · simp only at h
    split at h
    · simp [failStep] at h
    · rename_i bytes hne ha
      have hp := processHandshake_proceed h
      refine .inl ?_
      rw [hp.1]
      exact supply_fillRaw_lt s maxRecordLength ha (fun e => hne (by simp_all))
    · split at h <;> simp [failStep] at h
  · unfold finishHandshake at h
    simp only [failStep] at h
    split at h
    · simp at h
    · split at h
      · simp at h
      · split at h <;> simp at h
  · split at h <;> simp [failStep] at h
  · simp [failStep] at h

/-- Runs the handshake as far as the socket allows. -/
def runHandshake (s : Session σ ω ε) : Status TlsVersion Unit × Session σ ω ε :=
  match _h : s.step with
  | (.proceed, s') => s'.runHandshake
  | (.yield status, s') => (status, s')
termination_by 4 * s.supply + stepsLeft s.state
decreasing_by
  have hdecrease := step_decreases ‹_›
  have hleft := stepsLeft_le s'.state
  omega

/-! ## Driving it -/

/-- The text of the last failure. -/
def lastErrorText (s : Session σ ω ε) : String :=
  match s.lastFailure with
  | none => ""
  | some f => f.message (Engine.describe σ)

/-- A failed call, with the text of the failure. -/
def failWith (s : Session σ ω ε) (f : Failure ε) : Status TlsVersion String × Session σ ω ε :=
  let s := s.fail f
  (.error s.lastErrorText, s)

/-- Drives the handshake and answers the version once it is complete. -/
def handshakeStatus (s : Session σ ω ε) : Status TlsVersion String × Session σ ω ε :=
  match s.state with
  | .connected =>
    match s.version with
    | some v => (.ok v, s)
    | none => (.error s.lastErrorText, s)
  | .initialized | .handshakeWrite | .handshakeRead | .handshakeDone =>
    let (status, s) := s.runHandshake
    match status with
    | .ok v => (.ok v, s)
    | .wouldBlock => (.wouldBlock, s)
    | .error _ => (.error s.lastErrorText, s)
  | .error => (.error s.lastErrorText, s)
  | state => s.failWith (.misuse (.handshakeIn state))

/-- Drives the handshake of a client with the given host. The host of the first call counts. -/
def connect (s : Session σ ω ε) (host : String) : Status TlsVersion String × Session σ ω ε :=
  if s.side ≠ .client then s.failWith (.misuse .connectOnServer)
  else
    let s :=
      if s.hostname = none ∧ s.state = .initialized then { s with hostname := some host } else s
    s.handshakeStatus

/-- Drives the handshake of a server. -/
def accept (s : Session σ ω ε) : Status TlsVersion String × Session σ ω ε :=
  if s.side ≠ .server then s.failWith (.misuse .acceptOnClient) else s.handshakeStatus

end Session
end TlsTransport
