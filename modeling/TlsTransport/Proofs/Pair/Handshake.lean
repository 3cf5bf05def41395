import TlsTransport.Proofs.Pair.Wires
import TlsTransport.Proofs.Session.Waiting
import TlsTransport.Proofs.Tagged.Peers

/-! # The handshake of two sessions over a pipe

A session over an engine of the tagged-record protocol, seen from its end of the pipe: whatever the
other end is at, a step of its handshake goes well and keeps both in agreement.

* `Peaceful`: a session that asks nothing of its peer and is never asked to shake hands again.
* `Stage`: what is known of it in each state.
* `Peer`, `InTouch`: the other end, and the records on their way from the session and to it.
* `InTouch.runHandshake`: its handshake connects it, or has to wait.
-/

namespace TlsTransport

open Tagged (Phase encodeAll carried Agrees)

/-- A session of the tagged-record protocol at an end of a pipe. -/
abbrev TaggedSession := PipeSession Tagged.Engine Tagged.Fault

/-- A session of one side that does not verify its peer, over an engine whose suite the policy
allows, whose records fit, and which never asks for a new handshake; the peer has not closed. -/
structure Peaceful (who : Side) (s : TaggedSession) : Prop where
  side : s.side = who
  engineSide : s.engine.side = who
  trusting : s.verifyPeer = false
  allowed : s.policy.allows s.engine.cipher = true
  quiet : s.engine.renegotiateEvery = none
  fragment : 1 ≤ s.engine.fragment ∧ s.engine.fragment ≤ 65535
  peerClosed : s.peerClosed = false
  eof : s.eof = false

/-- What is known of a session in the states of a handshake and after it. -/
inductive Stage (s : TaggedSession) : Prop where
  | fresh (hs : s.state = .initialized) (hf : s.inFlight = none)
  | writing (hs : s.state = .handshakeWrite) (he : s.engine.started = true)
      (hc : s.handshakeComplete = true → s.engine.phase = .done) (hf : s.inFlight = none)
  | reading (hs : s.state = .handshakeRead) (he : s.engine.started = true)
      (hc : s.handshakeComplete = false) (hf : s.inFlight = none)
  | settled (hs : s.state = .handshakeDone) (he : s.engine.started = true)
      (hp : s.engine.phase = .done) (hw : s.pendingWrite.data = []) (hf : s.inFlight = none)
  | connected (hs : s.state = .connected) (hp : s.engine.phase = .done)
      (hv : s.version.isSome = true) (hw : s.inFlight = none → s.pendingWrite.data = [])

/-- The other end of a pipe: how far its handshake is, what it took off the wire but did not
consume, and what it has not written yet. -/
structure Peer where
  phase : Phase
  ahead : Bytes
  behind : Bytes

/-- A session as the other end of the pipe. -/
def Peer.of (t : TaggedSession) : Peer := ⟨t.engine.phase, t.rawRead.data, t.pendingWrite.data⟩

/-- The records on their way from a session (`outs`) and to it (`ins`). -/
structure InTouch (who : Side) (peer : Peer) (outs ins : List Tagged.Record) (s : TaggedSession) :
    Prop where
  peaceful : Peaceful who s
  linked : Linked who peer.ahead peer.behind s (encodeAll outs) (encodeAll ins)
  agrees : Agrees who s.engine.phase peer.phase outs ins
  fits : (∀ r ∈ outs, r.Fits) ∧ ∀ r ∈ ins, r.Fits

/-- What no call changes that is of interest to the other side. -/
structure Undisturbed (s t : TaggedSession) : Prop where
  side : t.side = s.side
  verifyPeer : t.verifyPeer = s.verifyPeer
  policy : t.policy = s.policy
  peerClosed : t.peerClosed = s.peerClosed
  eof : t.eof = s.eof
  engineSide : t.engine.side = s.engine.side
  cipher : t.engine.cipher = s.engine.cipher
  fragment : t.engine.fragment = s.engine.fragment
  renegotiateEvery : t.engine.renegotiateEvery = s.engine.renegotiateEvery

theorem Peaceful.congr {who : Side} {s t : TaggedSession} (h : Peaceful who s)
    (hu : Undisturbed s t) : Peaceful who t where
  side := hu.side.trans h.side
  engineSide := hu.engineSide.trans h.engineSide
  trusting := hu.verifyPeer.trans h.trusting
  allowed := by
    rw [hu.policy, hu.cipher]
    exact h.allowed
  quiet := hu.renegotiateEvery.trans h.quiet
  fragment := by
    rw [hu.fragment]
    exact h.fragment
  peerClosed := hu.peerClosed.trans h.peerClosed
  eof := hu.eof.trans h.eof

namespace InTouch

open Session

variable {who : Side} {peer : Peer} {outs ins : List Tagged.Record}
  {s t : TaggedSession}

/-- What moves no byte and leaves the phase alone keeps in touch. -/
theorem congr (h : InTouch who peer outs ins s) (hu : Undisturbed s t)
    (he : t.engine.phase = s.engine.phase) (hk : t.socket = s.socket)
    (hp : t.pendingWrite.data = s.pendingWrite.data) (hr : t.rawRead.data = s.rawRead.data) :
    InTouch who peer outs ins t where
  peaceful := h.peaceful.congr hu
  linked := h.linked.congr hk hp hr
  agrees := by
    rw [he]
    exact h.agrees
  fits := h.fits

theorem flush (h : InTouch who peer outs ins s) : ∃ all k b j,
    s.flushPending = (.ok all, { s with socket := k, pendingWrite := b, journal := j }) ∧
    InTouch who peer outs ins
      { s with socket := k, pendingWrite := b, journal := j } ∧
    (all = true → b.data = []) := by
  obtain ⟨⟨all, hall⟩, hlinked⟩ := h.linked.flush
  obtain ⟨k, b, calls, hframe⟩ := s.flushPending_frame
  have hempty := s.flushPending_done
  rcases hr : s.flushPending with ⟨answer, t⟩
  rw [hr] at hall hlinked hframe hempty
  simp only at hall hlinked hframe hempty
  subst hall hframe
  refine ⟨all, k, b, _, rfl, ⟨h.peaceful.congr ?_, hlinked, h.agrees, h.fits⟩, fun hd => ?_⟩
  · exact ⟨rfl, rfl, rfl, rfl, rfl, rfl, rfl, rfl, rfl⟩
  · exact hempty (by rw [hd])

theorem fill (h : InTouch who peer outs ins s) {max : Nat} (hmax : 0 < max) :
    ∃ answer k b j,
      s.fillRaw max = (answer, { s with socket := k, rawRead := b, journal := j }) ∧
      InTouch who peer outs ins { s with socket := k, rawRead := b, journal := j } ∧
      (answer = .error (.bare .wouldBlock) ∨ ∃ bytes, bytes ≠ [] ∧ answer = .ok bytes) := by
  obtain ⟨hanswer, hlinked⟩ := h.linked.fill hmax
  obtain ⟨k, b, calls, hframe⟩ := s.fillRaw_frame max
  rcases hr : s.fillRaw max with ⟨answer, t⟩
  rw [hr] at hanswer hlinked hframe
  simp only at hanswer hlinked hframe
  subst hframe
  refine ⟨answer, k, b, _, rfl, ⟨h.peaceful.congr ?_, hlinked, h.agrees, h.fits⟩, hanswer⟩
  exact ⟨rfl, rfl, rfl, rfl, rfl, rfl, rfl, rfl, rfl⟩

theorem setState (h : InTouch who peer outs ins s) (next : SessionState) :
    InTouch who peer outs ins (s.setState next) := by
  rw [setState_eq]
  exact h.congr ⟨rfl, rfl, rfl, rfl, rfl, rfl, rfl, rfl, rfl⟩ rfl rfl rfl rfl

theorem connectedAs (h : InTouch who peer outs ins s) (v : TlsVersion) :
    InTouch who peer outs ins (s.connectedAs v) := by
  obtain ⟨remarks, -, hf⟩ := s.connectedAs_frame v
  rw [hf]
  exact h.congr ⟨rfl, rfl, rfl, rfl, rfl, rfl, rfl, rfl, rfl⟩ rfl rfl rfl rfl

/-! ## The engine's part -/

/-- The results of a step that went well. -/
def WentWell (t : TaggedSession) : StepResult → Prop
  | .proceed => t.state.inHandshake = true
  | .yield .wouldBlock => True
  | .yield (.ok _) => t.state = .connected
  | .yield (.error _) => False

/-- A session that keeps in touch and goes on with its handshake. -/
structure GoesOn (who : Side) (peer : Peer) (outs ins : List Tagged.Record)
    (t : TaggedSession) : Prop where
  touch : ∃ outs' ins', InTouch who peer outs' ins' t ∧ carried outs' = carried outs ∧
    carried ins' = carried ins
  stage : Stage t
  flight : t.inFlight = none

theorem handshakeOnce (h : InTouch who peer outs ins s) (he : s.engine.started = true) :
    ∃ new rest phase raw pending j,
      s.handshakeOnce = (.ok (if phase = .done then .complete else .needsInput), { s with
        engine := { s.engine with phase := phase }
        rawRead := raw
        pendingWrite := pending
        journal := j }) ∧
      InTouch who peer (outs ++ new) rest { s with
        engine := { s.engine with phase := phase }
        rawRead := raw
        pendingWrite := pending
        journal := j } ∧
      carried new = [] ∧ carried rest = carried ins := by
  obtain ⟨pipe, hsocket, hopen, hout, hin⟩ := h.linked.link
  have hagrees : Agrees s.engine.side s.engine.phase peer.phase outs ins := by
    rw [h.peaceful.engineSide]
    exact h.agrees
  rw [List.append_assoc] at hin
  obtain ⟨new, rest, hs⟩ :=
    Tagged.Engine.handshake_agrees he s.pendingWrite hagrees hin h.fits.2
  generalize ht : Tagged.Engine.handshake s.engine s.rawRead s.pendingWrite = turn at hs
  obtain ⟨answer, engine, raw, pending⟩ := turn
  have hanswer := hs.answer
  have hengine := hs.engine
  have hinput := hs.input
  have houtput := hs.output
  simp only at hanswer hengine hinput houtput
  have hcall : Engine.handshake s.engine s.rawRead s.pendingWrite =
      ⟨.ok (if engine.phase = .done then .complete else .needsInput),
        { s.engine with phase := engine.phase }, raw, pending⟩ := by
    rw [← hengine, ← hanswer]
    exact ht
  have honce : ∃ j, s.handshakeOnce =
      (.ok (if engine.phase = .done then .complete else .needsInput), { s with
        engine := { s.engine with phase := engine.phase }
        rawRead := raw
        pendingWrite := pending
        journal := j }) := by
    rw [Session.handshakeOnce, hcall]
    exact ⟨_, rfl⟩
  obtain ⟨j, honce⟩ := honce
  refine ⟨new, rest, engine.phase, raw, pending, j, honce, ⟨?_, ?_, ?_, ?_, hs.fits.2⟩, hs.kept⟩
  · exact h.peaceful.congr ⟨rfl, rfl, rfl, rfl, rfl, rfl, rfl, rfl, rfl⟩
  · refine ⟨pipe, hsocket, hopen, ?_, ?_⟩
    · rw [houtput, Tagged.encodeAll_append, ← hout]
      simp only [List.append_assoc]
    · rw [List.append_assoc]
      exact hinput
  · rw [← h.peaceful.engineSide]
    exact hs.agrees
  · exact fun r hr => (List.mem_append.1 hr).elim (h.fits.1 r) (hs.fits.1 r)

/-- Where a handshake goes on. -/
theorem stage_next (he : s.engine.started = true)
    (hc : s.handshakeComplete = true → s.engine.phase = .done) (hf : s.inFlight = none) :
    Stage (s.setState s.nextHandshakeState) := by
  rw [setState_eq]
  cases hp : s.pendingWrite.isEmpty with
  | false =>
    have hstate : s.nextHandshakeState = .handshakeWrite := by simp [nextHandshakeState, hp]
    exact .writing hstate he hc hf
  | true =>
    cases hd : s.handshakeComplete with
    | false =>
      have hstate : s.nextHandshakeState = .handshakeRead := by simp [nextHandshakeState, hp, hd]
      exact .reading hstate he rfl hf
    | true =>
      have hstate : s.nextHandshakeState = .handshakeDone := by simp [nextHandshakeState, hp, hd]
      exact .settled hstate he (hc hd) (s.pendingWrite.isEmpty_iff.1 hp) hf

theorem processHandshake (h : InTouch who peer outs ins s) (he : s.engine.started = true)
    (hc : s.handshakeComplete = false) (hf : s.inFlight = none) :
    WentWell s.processHandshake.2 s.processHandshake.1 ∧
      GoesOn who peer outs ins s.processHandshake.2 := by
  obtain ⟨new, rest, phase, raw, pending, j, honce, htouch, hnew, hrest⟩ := h.handshakeOnce he
  rcases s.processHandshake_cases with ⟨e, hfailed, -⟩ | ⟨progress, u, hok, hu, hnext⟩
  · rw [honce] at hfailed
    cases hfailed
  rw [honce] at hok hu
  injection hok with hok
  have hcomplete : u.handshakeComplete = true → u.engine.phase = .done := by
    intro hcomplete
    rw [hu, hc, ← hok] at hcomplete
    rw [hu]
    by_cases hdone : phase = .done
    · exact hdone
    · simp [hdone] at hcomplete
  have hmoved : InTouch who peer (outs ++ new) rest u := by
    rw [hu]
    exact htouch.congr ⟨rfl, rfl, rfl, rfl, rfl, rfl, rfl, rfl, rfl⟩ rfl rfl rfl rfl
  have hstarted : u.engine.started = true := by
    rw [hu]
    exact he
  have hflight : u.inFlight = none := by
    rw [hu]
    exact hf
  rw [hnext]
  refine ⟨?_, ⟨outs ++ new, rest, hmoved.setState _, ?_, hrest⟩,
    stage_next hstarted hcomplete hflight, ?_⟩
  · rw [WentWell, state_setState]
    exact u.inHandshake_nextHandshakeState
  · rw [Tagged.carried_append, hnew, List.append_nil]
  · rw [setState_eq]
    exact hflight

/-! ## A step, and the whole handshake -/

theorem finishHandshake (h : InTouch who peer outs ins s)
    (he : s.engine.started = true) (hp : s.engine.phase = .done)
    (hw : s.pendingWrite.data = []) (hf : s.inFlight = none) :
    (∃ v, s.finishHandshake.1 = .yield (.ok v)) ∧ s.finishHandshake.2.state = .connected ∧
      GoesOn who peer outs ins s.finishHandshake.2 := by
  have hcleared : s.Cleared := by
    refine ⟨?_, fun suite hsuite => ?_, fun _ hverify => ?_⟩
    · have hv : Engine.version s.engine = some .tls12 := if_pos hp
      rw [hv]
      rfl
    · have hc : Engine.cipherSuite s.engine = some s.engine.cipher := if_pos he
      rw [hc] at hsuite
      injection hsuite with hsuite
      rw [← hsuite]
      exact h.peaceful.allowed
    · rw [h.peaceful.trusting] at hverify
      cases hverify
  rcases s.finishHandshake_cases with ⟨hno, -⟩ | ⟨-, v, -, hv⟩
  · exact absurd hcleared hno
  · rw [hv]
    have hconnected := h.connectedAs v
    obtain ⟨remarks, -, hframe⟩ := s.connectedAs_frame v
    rw [hframe] at hconnected ⊢
    exact ⟨⟨v, rfl⟩, rfl, ⟨outs, ins, hconnected, rfl, rfl⟩, .connected rfl hp rfl fun _ => hw, hf⟩

theorem step_writing (h : InTouch who peer outs ins s) (hs : s.state = .handshakeWrite)
    (he : s.engine.started = true) (hc : s.handshakeComplete = true → s.engine.phase = .done)
    (hf : s.inFlight = none) :
    WentWell s.step.2 s.step.1 ∧ GoesOn who peer outs ins s.step.2 := by
  obtain ⟨all, k, b, j, hr, hflush, hempty⟩ := h.flush
  cases all with
  | false =>
    have hstep : s.step =
        (.yield .wouldBlock, { s with socket := k, pendingWrite := b, journal := j }) := by
      simp only [Session.step, hs, hr]
    rw [hstep]
    exact ⟨trivial, ⟨outs, ins, hflush, rfl, rfl⟩, .writing hs he hc hf, hf⟩
  | true =>
    have hstep : s.step = (.proceed, Session.setState
        { s with socket := k, pendingWrite := b, journal := j }
        (if s.handshakeComplete then .handshakeDone else .handshakeRead)) := by
      simp only [Session.step, hs, hr]
    rw [hstep]
    have hgo := hflush.setState (if s.handshakeComplete then .handshakeDone else .handshakeRead)
    refine ⟨?_, ⟨outs, ins, hgo, rfl, rfl⟩, ?_, ?_⟩
    · rw [WentWell, state_setState]
      split <;> rfl
    · rw [setState_eq]
      by_cases hd : s.handshakeComplete = true
      · exact .settled (if_pos hd) he (hc hd) (hempty rfl) hf
      · exact .reading (if_neg hd) he (by simpa using hd) hf
    · rw [setState_eq]
      exact hf

theorem step_reading (h : InTouch who peer outs ins s) (hs : s.state = .handshakeRead)
    (he : s.engine.started = true) (hc : s.handshakeComplete = false) (hf : s.inFlight = none) :
    WentWell s.step.2 s.step.1 ∧ GoesOn who peer outs ins s.step.2 := by
  obtain ⟨answer, k, b, j, hr, hfill, hanswer⟩ := h.fill (show 0 < maxRecordLength by decide)
  rcases hanswer with rfl | ⟨bytes, hne, rfl⟩
  · have hstep : s.step =
        (.yield .wouldBlock, { s with socket := k, rawRead := b, journal := j }) := by
      simp only [Session.step, hs, hr]
      rfl
    rw [hstep]
    exact ⟨trivial, ⟨outs, ins, hfill, rfl, rfl⟩, .reading hs he hc hf, hf⟩
  · have hstep : s.step =
        Session.processHandshake { s with socket := k, rawRead := b, journal := j } := by
      cases bytes with
      | nil => exact absurd rfl hne
      | cons byte bytes => simp only [Session.step, hs, hr]
    rw [hstep]
    exact hfill.processHandshake he hc hf

theorem step (h : InTouch who peer outs ins s) (hst : Stage s) (hs : s.state ≠ .connected) :
    WentWell s.step.2 s.step.1 ∧ GoesOn who peer outs ins s.step.2 := by
  cases hst with
  | fresh hstate hf =>
    have hstep : s.step = { s.startEngine.2 with handshakeComplete := false }.processHandshake := by
      simp only [Session.step, hstate]
      rfl
    have hstarted : InTouch who peer outs ins
        { s.startEngine.2 with handshakeComplete := false } :=
      h.congr ⟨rfl, rfl, rfl, rfl, rfl, rfl, rfl, rfl, rfl⟩ rfl rfl rfl rfl
    rw [hstep]
    exact hstarted.processHandshake rfl rfl hf
  | writing hstate he hc hf => exact h.step_writing hstate he hc hf
  | reading hstate he hc hf => exact h.step_reading hstate he hc hf
  | settled hstate he hp hw hf =>
    have hstep : s.step = s.finishHandshake := by simp only [Session.step, hstate]
    obtain ⟨⟨v, hv⟩, hconnected, hgo⟩ := h.finishHandshake he hp hw hf
    rw [hstep]
    refine ⟨?_, hgo⟩
    rw [hv]
    exact hconnected
  | connected hstate => exact absurd hstate hs

/-- A handshake ends well or has to wait, and both sides stay in touch. -/
theorem runHandshake (h : InTouch who peer outs ins s) (hst : Stage s)
    (hs : s.state ≠ .connected) :
    (s.runHandshake.1 = .wouldBlock ∨
      ∃ v, s.runHandshake.1 = .ok v ∧ s.runHandshake.2.state = .connected) ∧
    GoesOn who peer outs ins s.runHandshake.2 := by
  -- A step moves records, so the streams vary; the data that they carry stay the same.
  fun_induction Session.runHandshake s generalizing outs ins with
  | case1 s s' hstep =>
    rename_i ih
    obtain ⟨hwell, hgo⟩ := h.step hst hs
    rw [hstep] at hwell hgo
    -- A step that connects does not go on.
    have hne : s'.state ≠ .connected := fun hc => by
      have hin : s'.state.inHandshake = true := hwell
      rw [hc] at hin
      cases hin
    obtain ⟨outs', ins', htouch, houts, hins⟩ := hgo.touch
    obtain ⟨hend, hrest⟩ := ih htouch hgo.stage hne
    obtain ⟨outs'', ins'', htouch', houts', hins'⟩ := hrest.touch
    exact ⟨hend, ⟨outs'', ins'', htouch', houts'.trans houts, hins'.trans hins⟩, hrest.stage,
      hrest.flight⟩
  | case2 s status s' hstep =>
    obtain ⟨hwell, hgo⟩ := h.step hst hs
    rw [hstep] at hwell hgo
    refine ⟨?_, hgo⟩
    cases status with
    | ok v => exact .inr ⟨v, rfl, hwell⟩
    | wouldBlock => exact .inl rfl
    | error => exact absurd hwell id

end InTouch
end TlsTransport
