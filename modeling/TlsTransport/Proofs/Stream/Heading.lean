import TlsTransport.Proofs.Session.Truncation
import TlsTransport.Proofs.Stream.Drive
import TlsTransport.Proofs.Tagged.Fate

/-! # A handshake on the way

Over a socket that gives its stream in pieces, each step of a handshake leads to where all of the
input leads.

* `Session.flow`: what a session has come to, with what arrived and what did not in one piece.
* `Session.Orderly`: what holds of a session between its steps; `Session.Poised` is the part about a
  handshake.
* `Guided`: a session is orderly afterwards and its fate is the same.
* `processHandshake_guided`, `step_guided`, `runHandshake_guided`: the handshake.
-/

namespace TlsTransport.Session

open Tagged (Flow)

/-- What a session has come to that has handed out these bytes. -/
def flow (handed : Bytes) (s : FedSession) : Flow where
  policy := s.policy
  ended := s.feed.ended
  engine := s.engine
  state := s.state
  version := s.version
  renegotiations := s.renegotiations
  failure := s.lastFailure
  sent := s.feed.taken ++ s.pendingWrite.data
  received := handed ++ s.plaintext.data
  input := s.rawRead.data ++ s.feed.content

variable {s t : FedSession} {k : Feed} {handed : Bytes}

/-! ## What moves do to it -/

theorem flow_setState (s : FedSession) (next : SessionState) :
    (s.setState next).flow handed = { s.flow handed with state := next } := by
  rw [setState_eq]
  rfl

theorem flow_fail {f : Failure Tagged.Fault} (h : s.state ≠ .closed) :
    (s.fail f).flow handed = (s.flow handed).fail f := by
  rw [fail_eq, if_neg h]
  rfl

theorem flow_reopen (s : FedSession) :
    s.reopen.flow handed = { s.flow handed with state := .handshakeRead } := by
  rw [reopen_eq]
  rfl

theorem flow_connectedAs (s : FedSession) (v : TlsVersion) : (s.connectedAs v).flow handed =
    { s.flow handed with state := .connected, version := some v } := by
  obtain ⟨remarks, -, h⟩ := s.connectedAs_frame v
  rw [h]
  rfl

/-- Writing out changes nothing: what is sent counts as sent already. -/
theorem flow_flushPending (hk : s.socket = some k) :
    s.flushPending.2.flow handed = s.flow handed := by
  obtain ⟨b, j, hf, hb⟩ := flushPending_fed hk
  rw [hf]
  simp only [flow, feed, hk, hb, Option.getD_some, List.append_nil]
  rfl

theorem flow_flushBestEffort (hk : s.socket = some k) :
    s.flushBestEffort.flow handed = s.flow handed := by
  unfold flushBestEffort
  split
  · exact flow_flushPending hk
  · rfl

theorem pendingWrite_flushBestEffort (hk : s.socket = some k) :
    s.flushBestEffort.pendingWrite.data = [] := by
  unfold flushBestEffort
  split
  · obtain ⟨b, j, hf, hb⟩ := flushPending_fed hk
    rw [hf]
    exact hb
  · rename_i h
    simpa [hk, Buffer.isEmpty] using h

/-- Reading changes nothing: what is to arrive counts as input already. -/
theorem flow_fillRaw (hk : s.socket = some k) {max : Nat} (hmax : 0 < max) (handed : Bytes) :
    (s.fillRaw max).2.flow handed = s.flow handed := by
  obtain ⟨f, j, hf, hfilled, -⟩ := fillRaw_fed hk hmax
  rw [hf]
  simp only [flow, feed, hk, Option.getD_some, hfilled.content, hfilled.ended, hfilled.taken]

theorem flow_handshakeOnce (s : FedSession) : s.handshakeOnce.2.flow handed =
    (s.flow handed).shaken ((s.engine.shake s.rawRead.data).before s.feed.content) := by
  obtain ⟨-, hengine, hinput, houtput⟩ := Tagged.Engine.shake_of s.engine s.rawRead s.pendingWrite
  have hkept : s.handshakeOnce.2.feed = s.feed := rfl
  have hpending : s.handshakeOnce.2.pendingWrite.data = _ := houtput
  have hraw : s.handshakeOnce.2.rawRead.data = _ := hinput
  have hafter : s.handshakeOnce.2.engine = _ := hengine
  simp only [flow, Flow.shaken, Tagged.Engine.Shaking.before, hkept, hpending, hraw, hafter,
    List.append_assoc]
  rfl

theorem flow_decryptOnce (s : FedSession) (handed : Bytes) : s.decryptOnce.2.flow handed =
    (s.flow handed).revealed ((s.engine.reveal s.rawRead.data).before s.feed.content) := by
  obtain ⟨-, hengine, hinput, houtput, hplaintext⟩ :=
    Tagged.Engine.reveal_of s.engine s.rawRead s.pendingWrite s.plaintext
  have hkept : s.decryptOnce.2.feed = s.feed := rfl
  have hpending : s.decryptOnce.2.pendingWrite = _ := houtput
  have hraw : s.decryptOnce.2.rawRead.data = _ := hinput
  have hafter : s.decryptOnce.2.engine = _ := hengine
  have hrevealed : s.decryptOnce.2.plaintext.data = _ := hplaintext
  simp only [flow, Flow.revealed, Tagged.Engine.Revealing.before, hkept, hpending, hraw, hafter,
    hrevealed, List.append_assoc]
  rfl

/-- When the socket has delivered all, the input is what arrived. -/
theorem input_of_spent (h : s.feed.pieces = []) : (s.flow handed).input = s.rawRead.data := by
  simp only [flow, Feed.content, h]
  exact List.append_nil _

/-! ## Between steps -/

/-- Where a handshake stands: it waits for more, or it is over and only has to be checked. -/
inductive Poised (s : FedSession) : Prop where
  | waiting (h : s.handshakeComplete = false) (hs : s.state ≠ .handshakeDone)
      (hidle : s.engine.shake s.rawRead.data =
        ⟨.ok .needsInput, s.engine, s.rawRead.data, []⟩)
  | done (h : s.handshakeComplete = true) (hs : s.state ≠ .handshakeRead)
      (hover : ∀ more, s.engine.shake more = ⟨.ok .complete, s.engine, more, []⟩)

/-- What holds of a session whatever it does: it is bound, trusts its peer, and knows of an end only
what is so. -/
structure Sober (s : FedSession) : Prop where
  bound : s.socket.isSome = true
  trusting : s.verifyPeer = false
  eof : s.eof = true → s.feed.ended = true ∧ s.feed.pieces = []
  peerClosed : s.peerClosed = true → s.state = .closed

/-- What holds between steps: besides, only a handshake that is about to write has something to
write. -/
structure Orderly (s : FedSession) : Prop extends Sober s where
  written : s.state ≠ .handshakeWrite → s.pendingWrite.data = []
  poised : s.state.inHandshake = true → Poised s

theorem Sober.keep (h : Sober s) (hst : Steady s t) (hsp : Spends s t)
    (hc : s.state = .closed → t.state = .closed) : Sober t where
  bound := hsp.bound.trans h.bound
  trusting := hst.verifyPeer.trans h.trusting
  eof he := by
    obtain ⟨hended, hspent⟩ := h.eof (hst.eof ▸ he)
    exact ⟨hsp.ended.trans hended, hsp.spent hspent⟩
  peerClosed hp := hc (h.peerClosed (hst.peerClosed ▸ hp))

theorem Sober.fillRaw (h : Sober s) {max : Nat} (hmax : 0 < max) : Sober (s.fillRaw max).2 :=
  h.keep (.fillRaw s max) (Spends.fillRaw s hmax).1 (s.state_fillRaw max).trans

/-! ## The engine's part -/

theorem nextHandshakeState_written (h : s.nextHandshakeState ≠ .handshakeWrite) :
    s.pendingWrite.data = [] := by
  unfold nextHandshakeState at h
  split at h
  · exact absurd rfl h
  · rename_i hp
    simpa [Buffer.isEmpty] using hp

theorem nextHandshakeState_open (h : s.handshakeComplete = false) :
    s.nextHandshakeState ≠ .handshakeDone := by
  unfold nextHandshakeState
  rw [h]
  split <;> simp

theorem nextHandshakeState_complete (h : s.handshakeComplete = true) :
    s.nextHandshakeState ≠ .handshakeRead := by
  unfold nextHandshakeState
  rw [h]
  split <;> simp

theorem fate_of_inHandshake (h : s.state.inHandshake = true) :
    (s.flow handed).fate = (s.flow handed).shake.goOn :=
  Flow.fate_of_inHandshake h

/-- The engine takes what arrived of a handshake, and what did not arrive leads on from there. -/
theorem processHandshake_guided (h : Sober s) (hs : s.state ≠ .closed)
    (hopen : s.handshakeComplete = false) : Orderly s.processHandshake.2 ∧
      (∀ handed, (s.processHandshake.2.flow handed).fate = (s.flow handed).shake.goOn) ∧
      s.processHandshake.2.renegotiating = s.renegotiating := by
  have hk := bound_of h.bound
  have hsober := h.keep (Steady.processHandshake s) (Spends.processHandshake s) (absurd · hs)
  obtain ⟨hanswer, hengine, hraw, -⟩ :=
    Tagged.Engine.shake_of s.engine s.rawRead s.pendingWrite
  have hafter : s.handshakeOnce.2.engine = (s.engine.shake s.rawRead.data).engine := hengine
  have hrest : s.handshakeOnce.2.rawRead.data = (s.engine.shake s.rawRead.data).rest := hraw
  rcases s.processHandshake_cases with ⟨e, ha, he⟩ | ⟨progress, t, ha, ht, hu⟩
  · -- The engine fails, and what it has to say is sent.
    have hlive : s.handshakeOnce.2.state ≠ .closed := hs
    have herror : (s.handshakeOnce.2.fail (.native e)).state = .error := fail_error _ hlive
    have hbound : (s.handshakeOnce.2.fail (.native e)).socket = some s.feed := by
      rw [fail_eq]
      exact hk
    rw [he] at hsober ⊢
    refine ⟨⟨hsober, fun _ => pendingWrite_flushBestEffort hbound, fun hin => ?_⟩,
      fun handed => ?_, ?_⟩
    · rw [state_flushBestEffort, herror] at hin
      cases hin
    · have hshake := Flow.shake_failed (f := s.flow handed) (hanswer.symm.trans ha) rfl
      rw [flow_flushBestEffort hbound, flow_fail hlive, flow_handshakeOnce, hshake,
        Flow.fate_of_over (.inr rfl)]
      exact (Flow.goOn_stays (by simp [Flow.fail])).symm
    · obtain ⟨k, b, j, hf⟩ := (s.handshakeOnce.2.fail (.native e)).flushBestEffort_frame
      rw [hf, fail_eq]
      rfl
  · -- The engine goes on, and what it used can be left out of the input.
    have hin := t.inHandshake_nextHandshakeState
    have hflow : ∀ handed, ((t.setState t.nextHandshakeState).flow handed).fate =
        ((s.flow handed).shaken ((s.engine.shake s.rawRead.data).before
          s.feed.content)).shake.goOn := by
      intro handed
      have hsame : t.flow handed = s.handshakeOnce.2.flow handed := by rw [ht]; rfl
      rw [flow_setState, Flow.fate_of_inHandshake hin, Flow.shake_state, hsame,
        flow_handshakeOnce]
    have hwritten : (t.setState t.nextHandshakeState).state ≠ .handshakeWrite →
        (t.setState t.nextHandshakeState).pendingWrite.data = [] := by
      rw [setState_eq]
      exact nextHandshakeState_written
    have hasked : (t.setState t.nextHandshakeState).renegotiating = s.renegotiating := by
      rw [setState_eq, ht]
      rfl
    rw [hu] at hsober ⊢
    cases progress with
    | complete =>
      have hdone := hanswer.symm.trans ha
      have hcomplete : t.handshakeComplete = true := by simp [ht]
      have hpoised : Poised (t.setState t.nextHandshakeState) := by
        refine .done ?_ ?_ fun more => ?_
        · rw [setState_eq]
          exact hcomplete
        · rw [state_setState]
          exact nextHandshakeState_complete hcomplete
        · have hsame : (t.setState t.nextHandshakeState).engine = s.handshakeOnce.2.engine := by
            rw [setState_eq, ht]
          rw [hsame, hafter]
          exact Tagged.Engine.shake_over hdone more
      refine ⟨⟨hsober, hwritten, fun _ => hpoised⟩, fun handed => ?_, hasked⟩
      rw [hflow, Flow.shake_complete (f := s.flow handed) hdone rfl]
      rfl
    | needsInput =>
      have hwaits := hanswer.symm.trans ha
      have hstill : t.handshakeComplete = false := by simp [ht, hopen]
      have hpoised : Poised (t.setState t.nextHandshakeState) := by
        refine .waiting ?_ ?_ ?_
        · rw [setState_eq]
          exact hstill
        · rw [state_setState]
          exact nextHandshakeState_open hstill
        · have hsame : (t.setState t.nextHandshakeState).engine = s.handshakeOnce.2.engine ∧
              (t.setState t.nextHandshakeState).rawRead = s.handshakeOnce.2.rawRead := by
            rw [setState_eq, ht]
            exact ⟨rfl, rfl⟩
          rw [hsame.1, hsame.2, hafter, hrest]
          exact Tagged.Engine.shake_idle hwaits
      refine ⟨⟨hsober, hwritten, fun _ => hpoised⟩, fun handed => ?_, hasked⟩
      rw [hflow, Flow.shake_waiting (f := s.flow handed) hwaits rfl]
      rfl

/-! ## One step -/

/-- A session is orderly afterwards, and where its input leads is where it led before. -/
structure Guided (s t : FedSession) : Prop where
  orderly : Orderly t
  fate : ∀ handed, (t.flow handed).fate = (s.flow handed).fate

theorem Guided.refl (h : Orderly s) : Guided s s := ⟨h, fun _ => rfl⟩

theorem Guided.trans {u : FedSession} (h : Guided s t) (k : Guided t u) : Guided s u :=
  ⟨k.orderly, fun handed => (k.fate handed).trans (h.fate handed)⟩

/-- Failing where the input leads to this failure. -/
theorem Guided.fail (h : Sober t) (hs : t.state ≠ .closed) (hw : t.pendingWrite.data = [])
    (f : Failure Tagged.Fault)
    (hfate : ∀ handed, (t.flow handed).fail f = (s.flow handed).fate) : Guided s (t.fail f) where
  orderly := by
    have hsober := h.keep (.fail t f) (.fail t f) (absurd · hs)
    refine ⟨hsober, fun _ => ?_, fun hin => ?_⟩
    · rw [fail_eq]
      exact hw
    · rw [fail_error f hs] at hin
      cases hin
  fate handed := by
    rw [flow_fail hs, Flow.fate_of_over (.inr rfl), hfate]

/-- A finished handshake is checked, and the check decides. -/
theorem finishHandshake_guided (h : Orderly s) (hs : s.state = .handshakeDone) :
    Guided s s.finishHandshake.2 := by
  have hin : s.state.inHandshake = true := by rw [hs]; rfl
  have hlive : s.state ≠ .closed := by rw [hs]; simp
  have hwritten := h.written (by rw [hs]; simp)
  have hfate : ∀ handed, (s.flow handed).fate = (s.flow handed).conclude.goOn := by
    intro handed
    rw [fate_of_inHandshake hin]
    cases h.poised hin with
    | waiting _ hno => exact absurd hs hno
    | done _ _ hover => rw [Flow.shake_concluded (hover _)]
  have hfailed : ∀ why, (∀ handed, (s.flow handed).conclude = (s.flow handed).fail why) →
      Guided s (s.fail why) := by
    intro why hwhy
    refine .fail h.toSober hlive hwritten why fun handed => ?_
    rw [hfate, hwhy, Flow.goOn_stays (by simp [Flow.fail])]
  have hname : s.identityFault? = none := by
    refine s.identityFault?_eq_none_iff.2 fun _ hverify => ?_
    rw [h.trusting] at hverify
    cases hverify
  cases hb : s.blockedSuite? with
  | some suite =>
    have hstep : s.finishHandshake.2 = s.fail (.cipher suite) := by
      simp only [finishHandshake, hname, hb, failStep]
    rw [hstep]
    exact hfailed _ fun handed => Flow.conclude_blocked hb
  | none =>
    cases hv : Engine.version s.engine with
    | none =>
      have hstep : s.finishHandshake.2 = s.fail (.misuse .noVersion) := by
        simp only [finishHandshake, hname, hb, hv, failStep]
      rw [hstep]
      exact hfailed _ fun handed => Flow.conclude_unversioned hb hv
    | some v =>
      have hstep : s.finishHandshake.2 = s.connectedAs v := by
        simp only [finishHandshake, hname, hb, hv]
      have hstate : (s.connectedAs v).state = .connected := by rw [connectedAs, state_setState]
      rw [hstep]
      refine ⟨⟨h.keep (.connectedAs s v) (.connectedAs s v) (absurd · hlive), fun _ => ?_,
        fun hno => ?_⟩, fun handed => ?_⟩
      · obtain ⟨remarks, -, hframe⟩ := s.connectedAs_frame v
        rw [hframe]
        exact hwritten
      · rw [hstate] at hno
        cases hno
      · rw [flow_connectedAs, hfate, Flow.conclude_agreed (f := s.flow handed) hb hv,
          Flow.fate_of_connected rfl]

theorem sent_guided (h : Orderly s) (hs : s.state = .handshakeWrite) :
    Guided s (s.flushPending.2.setState
      (if s.handshakeComplete then .handshakeDone else .handshakeRead)) := by
  have hk := bound_of h.bound
  have hlive : s.state ≠ .closed := by rw [hs]; simp
  have hnext : SessionState.inHandshake
      (if s.handshakeComplete then .handshakeDone else .handshakeRead) = true := by
    split <;> rfl
  refine ⟨⟨?_, fun _ => ?_, fun _ => ?_⟩, fun handed => ?_⟩
  · exact h.keep ((Steady.flushPending s).trans (.setState _ _))
      ((Spends.flushPending s).trans (.setState _ _)) (absurd · hlive)
  · obtain ⟨b, j, hf, hb⟩ := flushPending_fed hk
    rw [setState_eq, hf]
    exact hb
  · obtain ⟨k, b, j, hf⟩ := s.flushPending_frame
    rw [setState_eq, hf]
    cases h.poised (by rw [hs]; rfl) with
    | waiting hopen _ hidle => exact .waiting hopen (by simp [hopen]) hidle
    | done hover _ hdone => exact .done hover (by simp [hover]) hdone
  · rw [flow_setState, Flow.fate_of_inHandshake hnext, Flow.shake_state, flow_flushPending hk,
      fate_of_inHandshake (by rw [hs]; rfl)]

/-- A handshake that reads has used what arrived. -/
theorem Orderly.idle (h : Orderly s) (hs : s.state = .handshakeRead) :
    s.handshakeComplete = false ∧
      s.engine.shake s.rawRead.data = ⟨.ok .needsInput, s.engine, s.rawRead.data, []⟩ := by
  cases h.poised (by rw [hs]; rfl) with
  | waiting hopen _ hidle => exact ⟨hopen, hidle⟩
  | done _ hno => exact absurd hs hno

/-- A handshake that has used all of the input waits for more. -/
theorem fate_of_waiting (hs : s.state = .handshakeRead) (hspent : s.feed.pieces = [])
    (hidle : s.engine.shake s.rawRead.data = ⟨.ok .needsInput, s.engine, s.rawRead.data, []⟩) :
    (s.flow handed).fate = (s.flow handed).await.goOn := by
  have hwaits : (s.flow handed).engine.shake (s.flow handed).input =
      ⟨.ok .needsInput, (s.flow handed).engine, (s.flow handed).input, []⟩ := by
    rw [input_of_spent hspent]
    exact hidle
  have hstate : (s.flow handed).state = .handshakeRead := hs
  have hstill : { s.flow handed with state := .handshakeRead } = s.flow handed := by
    rw [← hstate]
  rw [fate_of_inHandshake (by rw [hs]; rfl), Flow.shake_idle hwaits, hstill]

theorem ended_guided (h : Orderly s) (hs : s.state = .handshakeRead)
    (ha : (s.fillRaw maxRecordLength).1 = .ok []) :
    Guided s ((s.fillRaw maxRecordLength).2.fail .eof) := by
  have hk := bound_of h.bound
  have hlive : s.state ≠ .closed := by rw [hs]; simp
  have hwritten := h.written (by rw [hs]; simp)
  have hstate := (s.state_fillRaw maxRecordLength).trans hs
  have hsober := h.toSober.fillRaw maxRecordLength_pos
  have hflow := flow_fillRaw hk maxRecordLength_pos
  obtain ⟨f, j, hf, hfilled, hending⟩ := fillRaw_fed hk maxRecordLength_pos
  rw [hf] at ha hstate hsober hflow ⊢
  refine .fail hsober hlive hwritten .eof fun handed => ?_
  cases hending with
  | arrived _ _ hno | refused _ hno => rw [hno] at ha; cases ha
  | atEnd _ hended hpieces hsame =>
    have hend : (s.flow handed).ended = true := hended
    rw [← hflow] at hend ⊢
    rw [fate_of_waiting hstate hpieces (by simp only [hsame]; exact (h.idle hs).2),
      Flow.await_of_ended hend, Flow.goOn_stays (by simp [Flow.fail])]

theorem refused_orderly (h : Orderly s) (hs : s.state = .handshakeRead) {e : IoError}
    (ha : (s.fillRaw maxRecordLength).1 = .error e) :
    Orderly (s.fillRaw maxRecordLength).2 := by
  have hk := bound_of h.bound
  have hsober := h.toSober.fillRaw maxRecordLength_pos
  obtain ⟨hopen, hidle⟩ := h.idle hs
  obtain ⟨f, j, hf, -, hending⟩ := fillRaw_fed hk maxRecordLength_pos
  rw [hf] at ha hsober ⊢
  cases hending with
  | arrived _ _ hno | atEnd hno => rw [hno] at ha; cases ha
  | refused _ _ _ hsame =>
    refine ⟨hsober, h.written, fun _ => .waiting hopen (by simp [hs]) ?_⟩
    simp only [hsame]
    exact hidle

/-- A step of a handshake leads to where the input leads, and while the handshake goes on the
session remembers whether the peer asked for it. -/
theorem step_guided (h : Orderly s) (hs : s.state = .initialized ∨ s.state.inHandshake = true) :
    Guided s s.step.2 ∧
      (s.step.2.state.inHandshake = true → s.step.2.renegotiating = s.renegotiating) := by
  have hk := bound_of h.bound
  have hlive : s.state ≠ .closed := by
    intro hc
    rcases hs with hs | hs <;> rw [hc] at hs <;> cases hs
  have hflow : ∀ handed, (s.fillRaw maxRecordLength).2.flow handed = s.flow handed :=
    flow_fillRaw hk maxRecordLength_pos
  have hasked : (s.fillRaw maxRecordLength).2.renegotiating = s.renegotiating := by
    obtain ⟨k, b, j, hf⟩ := s.fillRaw_frame maxRecordLength
    rw [hf]
  have hfail : ∀ (t : FedSession) f, t.state = s.state → (t.fail f).state.inHandshake = true →
      (t.fail f).renegotiating = s.renegotiating := by
    intro t f ht hin
    rw [fail_error f (by rwa [ht])] at hin
    cases hin
  -- The engine's part and the check are the cases above; the others move bytes that `flow` counts
  -- wherever they are.
  generalize hr : s.step = r
  have hcase := s.step_case
  rw [hr] at hcase
  cases hcase with
  | startFailed e _ ha => cases ha
  | started hi =>
    obtain ⟨horderly, hfate, hkept⟩ := processHandshake_guided
      (s := { s.startEngine.2 with handshakeComplete := false })
      (h.keep ⟨rfl, rfl, rfl, rfl, rfl, rfl, rfl, rfl, rfl⟩ (.of_eq rfl rfl rfl) id) hlive rfl
    refine ⟨⟨horderly, fun handed => ?_⟩, fun _ => hkept⟩
    have hstart : (s.flow handed).state = .initialized := hi
    rw [hfate, Flow.fate, hstart]
    rfl
  | sent hw =>
    refine ⟨sent_guided h hw, fun _ => ?_⟩
    obtain ⟨k, b, j, hf⟩ := s.flushPending_frame
    rw [setState_eq, hf]
  | sendBlocked _ ha | sendFailed _ _ ha =>
    obtain ⟨b, j, hf, -⟩ := flushPending_fed hk
    rw [hf] at ha
    cases ha
  | ended hread ha =>
    exact ⟨ended_guided h hread ha, hfail _ _ (s.state_fillRaw _)⟩
  | arrived bytes hread =>
    have hsober := h.toSober.fillRaw maxRecordLength_pos
    have hopen : (s.fillRaw maxRecordLength).2.handshakeComplete = false := by
      obtain ⟨k, b, j, hf⟩ := s.fillRaw_frame maxRecordLength
      rw [hf]
      exact (h.idle hread).1
    obtain ⟨horderly, hfate, hkept⟩ :=
      processHandshake_guided hsober (by rwa [state_fillRaw]) hopen
    refine ⟨⟨horderly, fun handed => ?_⟩, fun _ => hkept.trans hasked⟩
    rw [hfate, hflow, fate_of_inHandshake (by rw [hread]; rfl)]
  | waits e hread ha =>
    exact ⟨⟨refused_orderly h hread ha, fun handed => by rw [hflow]⟩, fun _ => hasked⟩
  | receiveFailed e hread ha hb =>
    obtain ⟨f, j, hf, -, hending⟩ := fillRaw_fed hk maxRecordLength_pos
    rw [hf] at ha
    cases hending with
    | arrived _ _ hno | atEnd hno => rw [hno] at ha; cases ha
    | refused _ hno hblock =>
      rw [hno] at ha
      cases ha
      rw [hblock] at hb
      cases hb
  | finish hdone =>
    refine ⟨finishHandshake_guided h hdone, fun hin => ?_⟩
    rcases s.finishHandshake_cases with ⟨-, f, -, hf⟩ | ⟨-, v, -, hv⟩
    · rw [hf] at hin ⊢
      exact hfail s f rfl hin
    · rw [hv, connectedAs, state_setState] at hin
      cases hin
  | agreed v hc => rcases hs with hs | hs <;> rw [hc] at hs <;> cases hs
  | refused what hno hi =>
    rcases hs with hs | hs
    · exact absurd hs hi
    · rw [hno] at hs
      cases hs

/-! ## The whole handshake -/

/-- A handshake leads to where the input leads. -/
theorem runHandshake_guided (h : Orderly s)
    (hs : s.state = .initialized ∨ s.state.inHandshake = true) : Guided s s.runHandshake.2 ∧
      (s.runHandshake.2.state.inHandshake = true →
        s.runHandshake.2.renegotiating = s.renegotiating) := by
  -- A step after which the handshake goes on leaves the session in a handshake.
  fun_induction runHandshake s with
  | case1 s s' hstep ih =>
    have hin := step_proceed hstep
    obtain ⟨hguided, hasked⟩ := step_guided h hs
    rw [hstep] at hguided hasked
    obtain ⟨hlater, hkept⟩ := ih hguided.orderly (.inr hin)
    exact ⟨hguided.trans hlater, fun ht => (hkept ht).trans (hasked hin)⟩
  | case2 s status s' hstep =>
    have hguided := step_guided h hs
    rwa [hstep] at hguided

end TlsTransport.Session
