import TlsTransport.Session.Transfer

/-! # What one step of a handshake can do

Each of the two functions that decide where a handshake goes is inverted once, with everything it
tested: `Session.processHandshake_cases` and `Session.step_case`. The check at the end of a
handshake is `Session.Cleared`, and `Session.finishHandshake_cases` says that it decides alone.
-/

namespace TlsTransport

variable {σ ω ε : Type}

namespace Session

/-! ## What a handshake leaves alone -/

/-- The parts of a session that a handshake does not change. -/
structure Steady (s t : Session σ ω ε) : Prop where
  side : t.side = s.side
  verifyPeer : t.verifyPeer = s.verifyPeer
  policy : t.policy = s.policy
  hostname : t.hostname = s.hostname
  serverName : t.serverName = s.serverName
  plaintext : t.plaintext = s.plaintext
  renegotiations : t.renegotiations = s.renegotiations
  peerClosed : t.peerClosed = s.peerClosed
  eof : t.eof = s.eof

namespace Steady

variable {s t u : Session σ ω ε}

theorem refl (s : Session σ ω ε) : Steady s s := ⟨rfl, rfl, rfl, rfl, rfl, rfl, rfl, rfl, rfl⟩

theorem trans (h : Steady s t) (k : Steady t u) : Steady s u :=
  ⟨k.side.trans h.side, k.verifyPeer.trans h.verifyPeer, k.policy.trans h.policy,
    k.hostname.trans h.hostname, k.serverName.trans h.serverName, k.plaintext.trans h.plaintext,
    k.renegotiations.trans h.renegotiations, k.peerClosed.trans h.peerClosed, k.eof.trans h.eof⟩

theorem setState (s : Session σ ω ε) (next : SessionState) : Steady s (s.setState next) := by
  rw [setState_eq]
  exact ⟨rfl, rfl, rfl, rfl, rfl, rfl, rfl, rfl, rfl⟩

theorem fail (s : Session σ ω ε) (f : Failure ε) : Steady s (s.fail f) := by
  rw [fail_eq]
  exact ⟨rfl, rfl, rfl, rfl, rfl, rfl, rfl, rfl, rfl⟩

section Moves

variable [Socket ω]

theorem flushPending (s : Session σ ω ε) : Steady s s.flushPending.2 := by
  obtain ⟨k, b, j, h⟩ := s.flushPending_frame
  rw [h]
  exact ⟨rfl, rfl, rfl, rfl, rfl, rfl, rfl, rfl, rfl⟩

theorem flushBestEffort (s : Session σ ω ε) : Steady s s.flushBestEffort := by
  obtain ⟨k, b, j, h⟩ := s.flushBestEffort_frame
  rw [h]
  exact ⟨rfl, rfl, rfl, rfl, rfl, rfl, rfl, rfl, rfl⟩

theorem fillRaw (s : Session σ ω ε) (max : Nat) : Steady s (s.fillRaw max).2 := by
  obtain ⟨k, b, j, h⟩ := s.fillRaw_frame max
  rw [h]
  exact ⟨rfl, rfl, rfl, rfl, rfl, rfl, rfl, rfl, rfl⟩

end Moves

end Steady

@[simp] theorem lastFailure_fail (s : Session σ ω ε) (f : Failure ε) :
    (s.fail f).lastFailure = some f := by
  rw [fail_eq]

theorem reopen_eq (s : Session σ ω ε) : s.reopen = { s with
    state := .handshakeRead
    handshakeComplete := false
    renegotiating := true
    journal := (if s.state = .handshakeRead then []
      else [.notice (.stateChanged s.state .handshakeRead)]) ++
        .notice (.renegotiationRequested s.renegotiations) :: s.journal } := by
  by_cases h : s.state = .handshakeRead <;> simp [reopen, setState_eq, note, tell, h]

/-! ## Writing out -/

section Moves

variable [Socket ω]

theorem drain_of_empty {b : Buffer} (h : b.data = []) (k : ω) : (drain b k).buffer = b := by
  have he : b.isEmpty = true := b.isEmpty_iff.2 h
  rw [drain, if_pos he]

theorem drain_done (b : Buffer) (k : ω) (h : (drain b k).answer = .ok true) :
    (drain b k).buffer.data = [] := by
  fun_induction drain b k with
  | case1 b k he => exact b.isEmpty_iff.1 he
  | case2 | case4 | case6 => cases h
  | case3 _ _ _ _ _ _ _ _ ih => exact ih h
  | case5 _ _ _ _ _ _ _ _ _ _ ih => exact ih h

/-- When all was written, nothing is pending. -/
theorem flushPending_done {s : Session σ ω ε} (h : s.flushPending.1 = .ok true) :
    s.flushPending.2.pendingWrite.data = [] := by
  unfold flushPending at h ⊢
  cases hk : s.socket with
  | none => simp [hk] at h
  | some k =>
    simp only [hk] at h
    exact drain_done _ _ h

theorem flushPending_of_empty {s : Session σ ω ε} (h : s.pendingWrite.data = []) :
    s.flushPending.2.pendingWrite.data = [] := by
  unfold flushPending
  cases hk : s.socket with
  | none => exact h
  | some k =>
    have hd := drain_of_empty h k
    simp only [tellSocket]
    rw [hd]
    exact h

end Moves

variable [Engine σ ε]

/-! ## The end of a handshake -/

/-- What has to hold of a finished handshake: there is a version, the policy allows the suite, and a
client that verifies its peer by itself found the name it was given. -/
structure Cleared (s : Session σ ω ε) : Prop where
  version : (Engine.version s.engine).isSome = true
  suite : ∀ suite, Engine.cipherSuite s.engine = some suite → s.policy.allows suite = true
  identity : s.side = .client → s.verifyPeer = true → Engine.verifiesHostname σ = false →
    ∃ identity, Engine.peerIdentity s.engine = some identity ∧
      identity.covers (s.hostname.getD "") = true

theorem identityFault?_eq_none_iff (s : Session σ ω ε) : s.identityFault? = none ↔
    (s.side = .client → s.verifyPeer = true → Engine.verifiesHostname σ = false →
      ∃ identity, Engine.peerIdentity s.engine = some identity ∧
        identity.covers (s.hostname.getD "") = true) := by
  unfold identityFault?
  by_cases h : s.side = .client ∧ s.verifyPeer = true ∧ Engine.verifiesHostname σ = false
  · rw [if_pos h]
    cases hp : Engine.peerIdentity s.engine with
    | none => simp [h]
    | some identity => by_cases hc : identity.covers (s.hostname.getD "") = true <;> simp [h, hc]
  · rw [if_neg h]
    exact ⟨fun _ h₁ h₂ h₃ => absurd ⟨h₁, h₂, h₃⟩ h, fun _ => rfl⟩

theorem blockedSuite?_eq_none_iff (s : Session σ ω ε) : s.blockedSuite? = none ↔
    ∀ suite, Engine.cipherSuite s.engine = some suite → s.policy.allows suite = true := by
  unfold blockedSuite?
  cases hc : Engine.cipherSuite s.engine with
  | none => simp
  | some suite => simp [Option.filter_eq_none_iff]

theorem finishHandshake_cases (s : Session σ ω ε) :
    (¬ s.Cleared ∧ ∃ f, f ≠ .otherPayload ∧ s.finishHandshake = s.failStep f) ∨
    (s.Cleared ∧ ∃ v, Engine.version s.engine = some v ∧
      s.finishHandshake = (.yield (.ok v), s.connectedAs v)) := by
  cases hi : s.identityFault? with
  | some fault =>
    refine .inl ⟨fun hc => ?_, .identity fault, by simp, by simp only [finishHandshake, hi]⟩
    rw [(s.identityFault?_eq_none_iff).2 hc.identity] at hi
    cases hi
  | none =>
    cases hb : s.blockedSuite? with
    | some suite =>
      refine .inl ⟨fun hc => ?_, .cipher suite, by simp, by simp only [finishHandshake, hi, hb]⟩
      rw [(s.blockedSuite?_eq_none_iff).2 hc.suite] at hb
      cases hb
    | none =>
      cases hv : Engine.version s.engine with
      | none =>
        refine .inl ⟨fun hc => ?_, .misuse .noVersion, by simp,
          by simp only [finishHandshake, hi, hb, hv]⟩
        have := hc.version
        rw [hv] at this
        cases this
      | some v =>
        have hc : s.Cleared := ⟨by rw [hv]; rfl, (s.blockedSuite?_eq_none_iff).1 hb,
          (s.identityFault?_eq_none_iff).1 hi⟩
        exact .inr ⟨hc, v, rfl, by simp only [finishHandshake, hi, hb, hv]⟩

/-- Connecting changes the state, the version and the flag of a renegotiation, and is reported. -/
theorem connectedAs_frame (s : Session σ ω ε) (v : TlsVersion) : ∃ remarks : List (Notice ε),
    (∀ n ∈ remarks, n = .insecureVersion v ∨ n = .renegotiated v ∨
      n = .handshakeCompleted v (Engine.cipherSuite s.engine)) ∧
    s.connectedAs v = { s with
      state := .connected
      version := some v
      renegotiating := false
      journal := if s.state = .connected then remarks.map Event.notice ++ s.journal
        else .notice (.stateChanged s.state .connected) ::
          (remarks.map Event.notice ++ s.journal) } := by
  refine ⟨(if s.renegotiating then Notice.renegotiated v
      else .handshakeCompleted v (Engine.cipherSuite s.engine)) ::
    (if v = .ssl3 then [.insecureVersion v] else []), ?_, ?_⟩
  · intro n hn
    rcases List.mem_cons.1 hn with rfl | hn
    · split
      · exact .inr (.inl rfl)
      · exact .inr (.inr rfl)
    · split at hn
      · exact .inl (List.mem_singleton.1 hn)
      · cases hn
  · by_cases hv : v = .ssl3 <;> cases hr : s.renegotiating <;>
      simp [connectedAs, setState_eq, note, tell, hv, hr]

theorem Steady.connectedAs (s : Session σ ω ε) (v : TlsVersion) : Steady s (s.connectedAs v) := by
  obtain ⟨remarks, -, h⟩ := s.connectedAs_frame v
  rw [h]
  exact ⟨rfl, rfl, rfl, rfl, rfl, rfl, rfl, rfl, rfl⟩

/-! ## The engine's part -/

variable [Socket ω]

/-- The engine's handshake either fails, and what it had to say is sent, or it leaves the session in
one of the states of a handshake. -/
theorem processHandshake_cases (s : Session σ ω ε) :
    (∃ e, s.handshakeOnce.1 = .error e ∧ s.processHandshake =
      (.yield (.error ()), (s.handshakeOnce.2.fail (.native e)).flushBestEffort)) ∨
    (∃ progress t, s.handshakeOnce.1 = .ok progress ∧
      t = { s.handshakeOnce.2 with
        handshakeComplete := s.handshakeComplete || progress == HandshakeProgress.complete } ∧
      s.processHandshake = (.proceed, t.setState t.nextHandshakeState)) := by
  rcases h : s.handshakeOnce with ⟨answer, t⟩
  cases answer with
  | error e => exact .inl ⟨e, rfl, by simp only [processHandshake, h]⟩
  | ok progress =>
    have hc : t.handshakeComplete = s.handshakeComplete :=
      (congrArg (fun r => r.2.handshakeComplete) h).symm
    exact .inr ⟨progress, _, rfl, rfl, by simp only [processHandshake, h, hc]⟩

/-! ## One step -/

/-- The cases of a step, each with what it tested. -/
inductive StepCase (s : Session σ ω ε) : StepResult × Session σ ω ε → Prop where
  | startFailed (e : ε) (h : s.state = .initialized) (ha : s.startEngine.1 = .error e) :
      StepCase s (s.startEngine.2.failStep (.native e))
  | started (h : s.state = .initialized) (ha : s.startEngine.1 = .ok ()) :
      StepCase s { s.startEngine.2 with handshakeComplete := false }.processHandshake
  | sent (h : s.state = .handshakeWrite) (ha : s.flushPending.1 = .ok true) :
      StepCase s (.proceed, s.flushPending.2.setState
        (if s.handshakeComplete then .handshakeDone else .handshakeRead))
  | sendBlocked (h : s.state = .handshakeWrite) (ha : s.flushPending.1 = .ok false) :
      StepCase s (.yield .wouldBlock, s.flushPending.2)
  | sendFailed (e : IoError) (h : s.state = .handshakeWrite) (ha : s.flushPending.1 = .error e) :
      StepCase s (s.flushPending.2.failStep (.io e))
  | ended (h : s.state = .handshakeRead) (ha : (s.fillRaw maxRecordLength).1 = .ok []) :
      StepCase s ((s.fillRaw maxRecordLength).2.failStep .eof)
  | arrived (bytes : Bytes) (h : s.state = .handshakeRead)
      (ha : (s.fillRaw maxRecordLength).1 = .ok bytes) (hne : bytes ≠ []) :
      StepCase s (s.fillRaw maxRecordLength).2.processHandshake
  | waits (e : IoError) (h : s.state = .handshakeRead)
      (ha : (s.fillRaw maxRecordLength).1 = .error e) (hb : e.isBlock = true) :
      StepCase s (.yield .wouldBlock, (s.fillRaw maxRecordLength).2)
  | receiveFailed (e : IoError) (h : s.state = .handshakeRead)
      (ha : (s.fillRaw maxRecordLength).1 = .error e) (hb : e.isBlock = false) :
      StepCase s ((s.fillRaw maxRecordLength).2.failStep (.io e))
  | finish (h : s.state = .handshakeDone) : StepCase s s.finishHandshake
  | agreed (v : TlsVersion) (h : s.state = .connected) (hv : s.version = some v) :
      StepCase s (.yield (.ok v), s)
  | refused (what : Misuse) (h : s.state.inHandshake = false) (hi : s.state ≠ .initialized) :
      StepCase s (s.failStep (.misuse what))

theorem step_case (s : Session σ ω ε) : StepCase s s.step := by
  unfold step
  split
  case h_1 h =>
    rcases ha : s.startEngine with ⟨answer, t⟩
    have ht : t = s.startEngine.2 := by rw [ha]
    cases answer with
    | error e => exact ht ▸ .startFailed e h (by rw [ha])
    | ok u => exact ht ▸ .started h (by rw [ha])
  case h_2 h =>
    rcases ha : s.flushPending with ⟨answer, t⟩
    have ht : t = s.flushPending.2 := by rw [ha]
    have hc : t.handshakeComplete = s.handshakeComplete := by
      obtain ⟨k, b, j, hf⟩ := s.flushPending_frame
      rw [ht, hf]
    cases answer with
    | error e => exact ht ▸ .sendFailed e h (by rw [ha])
    | ok all =>
      cases all with
      | false => exact ht ▸ .sendBlocked h (by rw [ha])
      | true =>
        simp only [hc]
        exact ht ▸ .sent h (by rw [ha])
  case h_3 h =>
    rcases ha : s.fillRaw maxRecordLength with ⟨answer, t⟩
    have ht : t = (s.fillRaw maxRecordLength).2 := by rw [ha]
    cases answer with
    | error e =>
      cases hb : e.isBlock with
      | true => simpa only [hb, if_true, ht] using StepCase.waits e h (by rw [ha]) hb
      | false =>
        simpa only [hb, Bool.false_eq_true, if_false, ht] using
          StepCase.receiveFailed e h (by rw [ha]) hb
    | ok bytes =>
      cases bytes with
      | nil => exact ht ▸ .ended h (by rw [ha])
      | cons b rest => exact ht ▸ .arrived (b :: rest) h (by rw [ha]) (by simp)
  case h_4 h => exact .finish h
  case h_5 h =>
    cases hv : s.version with
    | none => exact .refused .noVersion (by rw [h]; rfl) (by rw [h]; simp)
    | some v => exact .agreed v h hv
  case h_6 h₁ h₂ h₃ h₄ _ =>
    refine .refused (.handshakeIn s.state) ?_ h₁
    cases hs : s.state <;> simp_all [SessionState.inHandshake]

theorem step_proceed {s s' : Session σ ω ε} (h : s.step = (.proceed, s')) :
    s'.state.inHandshake = true := by
  have hp : ∀ {t : Session σ ω ε}, t.processHandshake = (.proceed, s') →
      s'.state.inHandshake = true := by
    intro t ht
    rcases t.processHandshake_cases with ⟨e, -, he⟩ | ⟨progress, u, -, -, hu⟩
    · simp [he] at ht
    · rw [hu] at ht
      injection ht with _ ht
      rw [← ht, state_setState]
      exact u.inHandshake_nextHandshakeState
  generalize hr : s.step = r at h
  have hcase := s.step_case
  rw [hr] at hcase
  cases hcase with
  | started => exact hp h
  | arrived => exact hp h
  | sent =>
    injection h with _ h
    rw [← h, state_setState]
    split <;> rfl
  | finish =>
    rcases s.finishHandshake_cases with ⟨-, f, -, hf⟩ | ⟨-, v, -, hv⟩
    · simp [hf, failStep] at h
    · simp [hv] at h
  | _ => simp [failStep] at h

/-- A step ends well on a connected session only. -/
theorem step_yield_ok {s s' : Session σ ω ε} {v : TlsVersion}
    (h : s.step = (.yield (.ok v), s')) : s'.state = .connected := by
  have hp : ∀ {t : Session σ ω ε}, t.processHandshake ≠ (.yield (.ok v), s') := by
    intro t ht
    rcases t.processHandshake_cases with ⟨e, -, he⟩ | ⟨progress, u, -, -, hu⟩
    · simp [he] at ht
    · simp [hu] at ht
  generalize hr : s.step = r at h
  have hcase := s.step_case
  rw [hr] at hcase
  cases hcase with
  | started => exact absurd h hp
  | arrived => exact absurd h hp
  | agreed v hs =>
    injection h with _ h
    rw [← h]
    exact hs
  | finish =>
    rcases s.finishHandshake_cases with ⟨-, f, -, hf⟩ | ⟨-, v, -, hv⟩
    · simp [hf, failStep] at h
    · rw [hv] at h
      injection h with _ h
      rw [← h, connectedAs, state_setState]
  | _ => simp [failStep] at h

/-- Only writing and reading make a step wait. -/
theorem processHandshake_not_blocked {s t : Session σ ω ε} :
    s.processHandshake ≠ (.yield .wouldBlock, t) := by
  intro h
  rcases s.processHandshake_cases with ⟨e, -, he⟩ | ⟨progress, u, -, -, hu⟩
  · simp [he] at h
  · simp [hu] at h

omit [Socket ω] in
theorem finishHandshake_not_blocked {s t : Session σ ω ε} :
    s.finishHandshake ≠ (.yield .wouldBlock, t) := by
  intro h
  rcases s.finishHandshake_cases with ⟨-, f, -, hf⟩ | ⟨-, v, -, hv⟩
  · simp [hf, failStep] at h
  · simp [hv] at h

/-- A step that would block has written or read last. -/
theorem step_yield_wouldBlock {s s' : Session σ ω ε}
    (h : s.step = (.yield .wouldBlock, s')) :
    s'.state = .handshakeWrite ∨ s'.state = .handshakeRead := by
  generalize hr : s.step = r at h
  have hcase := s.step_case
  rw [hr] at hcase
  cases hcase with
  | started | arrived => exact absurd h processHandshake_not_blocked
  | sendBlocked hs =>
    injection h with _ h
    exact .inl (by rw [← h, state_flushPending, hs])
  | waits _ hs =>
    injection h with _ h
    exact .inr (by rw [← h, state_fillRaw, hs])
  | finish => exact absurd h finishHandshake_not_blocked
  | _ => simp [failStep] at h

/-! ## The whole handshake -/

theorem runHandshake_of_proceed {s t : Session σ ω ε} (h : s.step = (.proceed, t)) :
    s.runHandshake = t.runHandshake := by
  rw [runHandshake.eq_def]
  split
  · rename_i u hu
    rw [h] at hu
    cases hu
    rfl
  · rename_i hu
    rw [h] at hu
    cases hu

theorem runHandshake_of_yield {s t : Session σ ω ε} {status : Status TlsVersion Unit}
    (h : s.step = (.yield status, t)) : s.runHandshake = (status, t) := by
  rw [runHandshake.eq_def]
  split
  · rename_i hu
    rw [h] at hu
    cases hu
  · rename_i hu
    rw [h] at hu
    cases hu
    rfl

theorem runHandshake_ok {s t : Session σ ω ε} {v : TlsVersion}
    (h : s.runHandshake = (.ok v, t)) : t.state = .connected := by
  fun_induction runHandshake s with
  | case1 s s' _ ih => exact ih h
  | case2 s status s' hs =>
    injection h with hv ht
    subst hv ht
    exact step_yield_ok hs

theorem runHandshake_wouldBlock {s t : Session σ ω ε} (h : s.runHandshake = (.wouldBlock, t)) :
    t.state = .handshakeWrite ∨ t.state = .handshakeRead := by
  fun_induction runHandshake s with
  | case1 s s' _ ih => exact ih h
  | case2 s status s' hs =>
    injection h with hv ht
    subst hv ht
    exact step_yield_wouldBlock hs

section HandshakeStatus

variable {s t : Session σ ω ε}

theorem handshakeStatus_of_ok {v : TlsVersion}
    (h : s.state = .initialized ∨ s.state.inHandshake = true)
    (hr : s.runHandshake = (.ok v, t)) : s.handshakeStatus = (.ok v, t) := by
  cases hs : s.state with
  | initialized | handshakeWrite | handshakeRead | handshakeDone =>
    simp only [handshakeStatus, hs, hr]
  | _ => simp [hs, SessionState.inHandshake] at h

theorem handshakeStatus_of_wouldBlock (h : s.state = .initialized ∨ s.state.inHandshake = true)
    (hr : s.runHandshake = (.wouldBlock, t)) : s.handshakeStatus = (.wouldBlock, t) := by
  cases hs : s.state with
  | initialized | handshakeWrite | handshakeRead | handshakeDone =>
    simp only [handshakeStatus, hs, hr]
  | _ => simp [hs, SessionState.inHandshake] at h

theorem handshakeStatus_of_error (h : s.state = .initialized ∨ s.state.inHandshake = true)
    (hr : s.runHandshake = (.error (), t)) :
    s.handshakeStatus = (.error t.lastErrorText, t) := by
  cases hs : s.state with
  | initialized | handshakeWrite | handshakeRead | handshakeDone =>
    simp only [handshakeStatus, hs, hr]
  | _ => simp [hs, SessionState.inHandshake] at h

theorem handshakeStatus_of_handshake (h : s.state = .initialized ∨ s.state.inHandshake = true) :
    s.handshakeStatus.2 = s.runHandshake.2 := by
  rcases hr : s.runHandshake with ⟨v | _ | _, t⟩
  · rw [handshakeStatus_of_ok h hr]
  · rw [handshakeStatus_of_wouldBlock h hr]
  · rw [handshakeStatus_of_error h hr]

end HandshakeStatus

/-! ## A handshake leaves the rest alone -/

namespace Steady

theorem processHandshake (s : Session σ ω ε) : Steady s s.processHandshake.2 := by
  have ho : Steady s s.handshakeOnce.2 := ⟨rfl, rfl, rfl, rfl, rfl, rfl, rfl, rfl, rfl⟩
  rcases s.processHandshake_cases with ⟨e, -, h⟩ | ⟨progress, t, -, ht, h⟩
  · rw [h]
    exact ho.trans ((fail _ _).trans (flushBestEffort _))
  · rw [h]
    have hst : Steady s t := by
      rw [ht]
      exact ⟨rfl, rfl, rfl, rfl, rfl, rfl, rfl, rfl, rfl⟩
    exact hst.trans (setState _ _)

theorem step (s : Session σ ω ε) : Steady s s.step.2 := by
  have hstart : Steady s s.startEngine.2 := ⟨rfl, rfl, rfl, rfl, rfl, rfl, rfl, rfl, rfl⟩
  generalize hr : s.step = r
  have hcase := s.step_case
  rw [hr] at hcase
  cases hcase with
  | startFailed => exact hstart.trans (fail _ _)
  | started =>
    have hready : Steady s { s.startEngine.2 with handshakeComplete := false } :=
      ⟨rfl, rfl, rfl, rfl, rfl, rfl, rfl, rfl, rfl⟩
    exact hready.trans (processHandshake _)
  | sent => exact (flushPending s).trans (setState _ _)
  | sendBlocked => exact flushPending s
  | sendFailed => exact (flushPending s).trans (fail _ _)
  | ended => exact (fillRaw s _).trans (fail _ _)
  | arrived => exact (fillRaw s _).trans (processHandshake _)
  | waits => exact fillRaw s _
  | receiveFailed => exact (fillRaw s _).trans (fail _ _)
  | finish =>
    rcases s.finishHandshake_cases with ⟨-, f, -, hf⟩ | ⟨-, v, -, hv⟩
    · rw [hf]
      exact fail s f
    · rw [hv]
      exact connectedAs s v
  | agreed => exact refl s
  | refused => exact fail s _

theorem runHandshake (s : Session σ ω ε) : Steady s s.runHandshake.2 := by
  fun_induction Session.runHandshake s with
  | case1 s s' hs ih =>
    have h := step s
    rw [hs] at h
    exact h.trans ih
  | case2 s status s' hs =>
    have h := step s
    rwa [hs] at h

end Steady

end Session
end TlsTransport
