import TlsTransport.Proofs.Stream.Heading

/-! # Reading on the way

What a read hands out, and where it leaves the session, lead to where all of the input leads, also
when the peer asks for new handshakes in between.

* `Rested`: a session that has decrypted what arrived.
* `decryptAvailable_guided`: decryption, through all new handshakes.
* `Served`, `readData_served`: a read, with the bytes that it hands out.
-/

namespace TlsTransport.Session

open Tagged (Flow)

variable {s t : FedSession} {handed : Bytes}

/-- A session that did with its input what it can: it has decrypted it, or it waits in a new
handshake, or the peer closed the connection. -/
inductive Rested (s : FedSession) : Prop where
  | reading (hs : s.state = .connected)
      (hidle : s.engine.reveal s.rawRead.data = ⟨.ok .needsInput, s.engine, s.rawRead.data, []⟩)
  | shaking (hs : s.state = .handshakeRead) (hasked : s.renegotiating = true)
  | closed (hs : s.state = .closed) (hp : s.peerClosed = true)

/-- How decryption ends. Without a status there is something to answer a read with, if the session
waits in a handshake. -/
inductive Ends (t : FedSession) : Option (Status Bytes Unit) → Prop where
  | goesOn (hp : Rested t) (hmore : t.state = .handshakeRead → t.plaintext.data ≠ []) :
      Ends t none
  | waits (hs : t.state = .handshakeRead) (hasked : t.renegotiating = true) :
      Ends t (some .wouldBlock)
  | failed (hs : t.state = .error) : Ends t (some (.error ()))

/-! ## New handshakes -/

/-- A connected session keeps order when what has no part in it changes. -/
theorem Orderly.of_eq (h : Orderly s) (hs : s.state = .connected) (hk : t.socket = s.socket)
    (hv : t.verifyPeer = s.verifyPeer) (he : t.eof = s.eof) (hp : t.peerClosed = s.peerClosed)
    (hw : t.pendingWrite = s.pendingWrite) (ht : t.state = s.state) : Orderly t := by
  have hfeed : t.feed = s.feed := by rw [feed, feed, hk]
  refine ⟨⟨by rw [hk, h.bound], by rw [hv, h.trusting], ?_, ?_⟩, fun _ => ?_, fun hin => ?_⟩
  · rw [he, hfeed]
    exact h.eof
  · rw [hp, ht]
    exact h.peerClosed
  · rw [hw]
    exact h.written (by rw [hs]; simp)
  · rw [ht, hs] at hin
    cases hin

theorem renegotiate_guided (h : Orderly s) (hs : s.state = .connected)
    {answer : Except (Option (Status Bytes Unit)) Unit} (hr : s.renegotiate = (answer, t)) :
    Orderly t ∧ (∀ handed, (t.flow handed).fate = (s.flow handed).shake.goOn) ∧
      (∀ u, answer = .ok u → t.state = .connected) ∧
      ∀ ended, answer = .error ended → Ends t ended := by
  have hlive : s.state ≠ .closed := by rw [hs]; simp
  have hopened : s.reopen.state = .handshakeRead := by rw [reopen_eq]
  have hsober : Sober s.reopen := by
    rw [reopen_eq]
    exact ⟨h.bound, h.trusting, h.eof, fun hp => absurd (h.peerClosed hp) hlive⟩
  obtain ⟨horderly, hfate, hasked⟩ := processHandshake_guided hsober (by rw [hopened]; simp)
    (by rw [reopen_eq])
  have hfate : ∀ handed, (s.reopen.processHandshake.2.flow handed).fate =
      (s.flow handed).shake.goOn := by
    intro handed
    rw [hfate, flow_reopen, Flow.shake_state]
  have hasked : s.reopen.processHandshake.2.renegotiating = true := by rw [hasked, reopen_eq]
  -- Reading ends unless the session is connected again.
  have hstop : ∀ {w : FedSession} {ended : Option (Status Bytes Unit)}, Orderly w →
      (∀ handed, (w.flow handed).fate = (s.flow handed).shake.goOn) → Ends w ended →
      (Except.error ended, w) = (answer, t) →
      Orderly t ∧ (∀ handed, (t.flow handed).fate = (s.flow handed).shake.goOn) ∧
        (∀ u, answer = .ok u → t.state = .connected) ∧
        ∀ ended, answer = .error ended → Ends t ended := by
    intro w ended hw hall hends h
    injection h with ha ht
    subst ha ht
    refine ⟨hw, hall, by simp, fun last hlast => ?_⟩
    injection hlast with hlast
    exact hlast ▸ hends
  unfold renegotiate at hr
  rcases s.reopen.processHandshake_cases with ⟨e, -, he⟩ | ⟨progress, u, -, -, hu⟩
  · have herror := processHandshake_error he (by rw [hopened]; simp)
    rw [he] at hr horderly hfate
    exact hstop horderly hfate (.failed herror) hr
  · rw [hu] at hr horderly hfate hasked
    have hin : (u.setState u.nextHandshakeState).state.inHandshake = true := by
      rw [state_setState]
      exact u.inHandshake_nextHandshakeState
    obtain ⟨hguided, hkept⟩ := runHandshake_guided horderly (.inr hin)
    rcases hrun : (u.setState u.nextHandshakeState).runHandshake with ⟨status, w⟩
    simp only [hrun] at hr hguided hkept
    have hall : ∀ handed, (w.flow handed).fate = (s.flow handed).shake.goOn :=
      fun handed => (hguided.fate handed).trans (hfate handed)
    cases status with
    | ok v =>
      injection hr with ha ht
      subst ha ht
      exact ⟨hguided.orderly, hall, fun _ _ => runHandshake_ok hrun, by simp⟩
    | error _ =>
      exact hstop hguided.orderly hall (.failed (runHandshake_error hrun (.inl hin))) hr
    | wouldBlock =>
      have hread := (Spends.runHandshake_waits hrun).1
      have hstill : w.renegotiating = true := (hkept (by rw [hread]; rfl)).trans hasked
      simp only at hr
      split at hr
      · exact hstop hguided.orderly hall (.waits hread hstill) hr
      · rename_i hmore
        have hne : w.plaintext.data ≠ [] := by simpa [Buffer.isEmpty] using hmore
        exact hstop hguided.orderly hall (.goesOn (.shaking hread hstill) fun _ => hne) hr

/-! ## Decryption -/

/-- The peer is answered, and the session is closed. -/
theorem answerClose_flow (h : Orderly s) :
    Orderly s.answerClose ∧ Rested s.answerClose ∧ s.answerClose.state = .closed ∧
      ∀ handed, s.answerClose.flow handed = { s.flow handed with
        state := .closed
        sent := (s.flow handed).sent ++ Tagged.Record.encode ⟨Tagged.close, []⟩ } := by
  generalize hu : (notifyClose { s.note .peerClosed with peerClosed := true }).2 = u
  have hk : u.socket = some s.feed := by
    rw [← hu]
    exact bound_of h.bound
  obtain ⟨b, j, hf, hb⟩ := flushPending_fed hk
  have hleave : s.answerClose = u.flushPending.2.setState .closed := by
    have hclose : s.answerClose = u.leave := by
      rw [← hu]
      rfl
    rw [hclose, leave, hf]
  have hstate : s.answerClose.state = .closed := by rw [hleave, state_setState]
  have hkept : s.answerClose.socket.isSome = true ∧ s.answerClose.verifyPeer = s.verifyPeer ∧
      s.answerClose.eof = s.eof ∧ s.answerClose.peerClosed = true ∧
      s.answerClose.feed.ended = s.feed.ended ∧ s.answerClose.feed.pieces = s.feed.pieces ∧
      s.answerClose.pendingWrite.data = [] := by
    rw [hleave, setState_eq, hf, ← hu]
    exact ⟨rfl, rfl, rfl, rfl, rfl, rfl, hb⟩
  obtain ⟨hbound, hverify, heof, hpeer, hended, hpieces, hwritten⟩ := hkept
  refine ⟨⟨⟨hbound, hverify.trans h.trusting, ?_, fun _ => hstate⟩, fun _ => hwritten,
    fun hin => ?_⟩, .closed hstate hpeer, hstate, fun handed => ?_⟩
  · rw [heof, hended, hpieces]
    exact h.eof
  · rw [hstate] at hin
    cases hin
  · rw [hleave, flow_setState, flow_flushPending hk, ← hu]
    simp only [flow, List.append_assoc]
    rfl

/-- What decryption leaves of a connected session, and what was decrypted of the input. -/
theorem decryptOnce_spec {u : FedSession} {answer : Except Tagged.Fault DecryptStop}
    (h : Orderly s) (hs : s.state = .connected) (hd : s.decryptOnce = (answer, u)) :
    Orderly u ∧ u.state = .connected ∧ (s.engine.reveal s.rawRead.data).answer = answer ∧
      ∀ handed, u.flow handed =
        (s.flow handed).revealed ((s.engine.reveal s.rawRead.data).before s.feed.content) := by
  have hturn := Tagged.Engine.reveal_of s.engine s.rawRead s.pendingWrite s.plaintext
  have horderly : Orderly s.decryptOnce.2 := h.of_eq hs rfl rfl rfl rfl hturn.output rfl
  have hstate : s.decryptOnce.2.state = .connected := hs
  have hanswer : s.decryptOnce.1 = (s.engine.reveal s.rawRead.data).answer := hturn.answer
  have hflow := flow_decryptOnce s
  rw [hd] at horderly hstate hanswer hflow
  exact ⟨horderly, hstate, hanswer.symm, hflow⟩

theorem decryptOnce_idle {u : FedSession} (hd : s.decryptOnce = (.ok .needsInput, u)) :
    u.engine.reveal u.rawRead.data = ⟨.ok .needsInput, u.engine, u.rawRead.data, []⟩ := by
  obtain ⟨hanswer, hengine, hraw, -, -⟩ :=
    Tagged.Engine.reveal_of s.engine s.rawRead s.pendingWrite s.plaintext
  have hwaits : s.decryptOnce.1 = (s.engine.reveal s.rawRead.data).answer := hanswer
  have hafter : s.decryptOnce.2.engine = (s.engine.reveal s.rawRead.data).engine := hengine
  have hrest : s.decryptOnce.2.rawRead.data = (s.engine.reveal s.rawRead.data).rest := hraw
  rw [hd] at hwaits hafter hrest
  rw [hrest, hafter, (Tagged.Engine.reveal_resume hwaits.symm []).1]
  exact Tagged.Engine.reveal_idle hwaits.symm

theorem flushBestEffort_of_empty (h : s.pendingWrite.data = []) : s.flushBestEffort = s := by
  have hno : ¬ (s.socket.isSome && !s.pendingWrite.isEmpty) = true := by simp [Buffer.isEmpty, h]
  rw [flushBestEffort, if_neg hno]

/-- Without a new handshake, decryption runs once. -/
theorem decryptAvailable_guided_once (admitted : Nat) (h : Orderly s) (hs : s.state = .connected)
    (ha : s.decryptOnce.1 ≠ .ok .renegotiate) : Guided s (decryptAvailable admitted s).2 ∧
      Ends (decryptAvailable admitted s).2 (decryptAvailable admitted s).1 := by
  have hgo : ∀ handed, (s.flow handed).fate = (s.flow handed).goOn :=
    fun _ => Flow.fate_of_connected hs
  rcases hd : s.decryptOnce with ⟨answer, u⟩
  obtain ⟨horderly, hstate, hanswer, hflow⟩ := decryptOnce_spec h hs hd
  have hwritten := horderly.written (by rw [hstate]; simp)
  rcases answer with e | _ | _ | _
  · have hfailed : Guided s (u.fail (.native e)) := by
      refine .fail horderly.toSober (by rw [hstate]; simp) hwritten _ fun handed => ?_
      rw [hgo, Flow.goOn_failed (f := s.flow handed) hs hanswer rfl, hflow]
      rfl
    have hsilent : (u.fail (.native e)).pendingWrite.data = [] := by
      rw [fail_eq]
      exact hwritten
    rw [decryptAvailable_of_failed hd, flushBestEffort_of_empty hsilent]
    exact ⟨hfailed, .failed (fail_error _ (by rw [hstate]; simp))⟩
  · rw [decryptAvailable_of_needsInput hd]
    refine ⟨⟨horderly, fun handed => ?_⟩, .goesOn (.reading hstate (decryptOnce_idle hd)) ?_⟩
    · rw [hgo, Flow.goOn_waiting (f := s.flow handed) hs hanswer rfl,
        Flow.fate_of_connected hstate, hflow]
      rfl
    · intro hread
      rw [hstate] at hread
      cases hread
  · rw [hd] at ha
    exact absurd rfl ha
  · obtain ⟨hclosed, hrested, hover, hlast⟩ := answerClose_flow horderly
    rw [decryptAvailable_of_closeNotify hd]
    refine ⟨⟨hclosed, fun handed => ?_⟩, .goesOn hrested fun hread => ?_⟩
    · have hend : (u.answerClose.flow handed).state = .closed := hover
      rw [Flow.fate_of_over (.inl hend), hlast, hflow, hgo,
        Flow.goOn_closed (f := s.flow handed) hs hanswer rfl]
      rfl
    · rw [hover] at hread
      cases hread

/-- Decryption that stops at a new handshake, with the handshake counted. -/
theorem decryptOnce_counted {u : FedSession} (h : Orderly s) (hs : s.state = .connected)
    (hd : s.decryptOnce = (.ok .renegotiate, u)) :
    Orderly { u with renegotiations := u.renegotiations + 1 } ∧
      u.state = .connected ∧ u.renegotiations = s.renegotiations ∧
      (s.engine.reveal s.rawRead.data).answer = .ok .renegotiate ∧
      ∀ handed, flow handed { u with renegotiations := u.renegotiations + 1 } =
        { (s.flow handed).revealed ((s.engine.reveal s.rawRead.data).before s.feed.content) with
          renegotiations := s.renegotiations + 1 } := by
  obtain ⟨horderly, hstate, hanswer, hflow⟩ := decryptOnce_spec h hs hd
  have hcount : u.renegotiations = s.renegotiations := congrArg Flow.renegotiations (hflow [])
  refine ⟨horderly.of_eq hstate rfl rfl rfl rfl rfl rfl, hstate, hcount, hanswer,
    fun handed => ?_⟩
  rw [← hflow, ← hcount]
  rfl

/-- Decryption leads to where the input leads, through all new handshakes. -/
theorem decryptAvailable_guided {admitted : Nat} (h : Orderly s) (hs : s.state = .connected)
    (hadm : admitted = maxRenegotiations - s.renegotiations) :
    Guided s (decryptAvailable admitted s).2 ∧
      Ends (decryptAvailable admitted s).2 (decryptAvailable admitted s).1 := by
  -- On the new handshakes that are still admitted; `Flow.goOn` counts the same ones.
  induction admitted generalizing s with
  | zero =>
    by_cases ha : s.decryptOnce.1 = .ok .renegotiate
    · have hover : ¬ s.renegotiations < maxRenegotiations := by omega
      have hd : s.decryptOnce = (.ok .renegotiate, s.decryptOnce.2) := Prod.ext ha rfl
      obtain ⟨horderly, hstate, -, hanswer, hflow⟩ := decryptOnce_counted h hs hd
      have hlive : s.decryptOnce.2.state ≠ .closed := by rw [hstate]; simp
      rw [decryptAvailable_of_overrun hd]
      refine ⟨.fail horderly.toSober hlive (horderly.written (by simp [hstate])) _ fun handed => ?_,
        .failed (fail_error _ hlive)⟩
      rw [Flow.fate_of_connected (f := s.flow handed) hs,
        Flow.goOn_overrun (f := s.flow handed) hs hanswer rfl hover, hflow]
      rfl
    · exact decryptAvailable_guided_once 0 h hs ha
  | succ admitted ih =>
    by_cases ha : s.decryptOnce.1 = .ok .renegotiate
    · have hless : s.renegotiations < maxRenegotiations := by omega
      have hd : s.decryptOnce = (.ok .renegotiate, s.decryptOnce.2) := Prod.ext ha rfl
      obtain ⟨horderly, hstate, hcount, hanswer, hflow⟩ := decryptOnce_counted h hs hd
      rcases hr : renegotiate { s.decryptOnce.2 with
        renegotiations := s.decryptOnce.2.renegotiations + 1 } with ⟨answer, t⟩
      obtain ⟨hopened, hfate, hconn, hended⟩ := renegotiate_guided horderly hstate hr
      have hguided : Guided s t := by
        refine ⟨hopened, fun handed => ?_⟩
        rw [hfate, hflow, Flow.fate_of_connected (f := s.flow handed) hs,
          Flow.goOn_reopened (f := s.flow handed) hs hanswer rfl hless]
        rfl
      cases answer with
      | ok a =>
        have hkept := (renegotiate_turns 0 hr).2.2
        obtain ⟨hlater, hends⟩ := ih hopened (hconn a rfl) (by rw [hkept]; simp only [hcount]; omega)
        rw [decryptAvailable_of_reopened hd hr]
        exact ⟨hguided.trans hlater, hends⟩
      | error ended =>
        rw [decryptAvailable_of_ended hd hr]
        exact ⟨hguided, hended ended rfl⟩
    · exact decryptAvailable_guided_once (admitted + 1) h hs ha

/-! ## A read -/

/-- A session from which its owner can go on reading. -/
inductive Readable (s : FedSession) : Prop where
  | connected (hs : s.state = .connected)
  | asked (hs : s.state.inHandshake = true) (hasked : s.renegotiating = true)
  | left (hs : s.state = .closed ∨ s.state = .error)

theorem Rested.readable (h : Rested s) : Readable s := by
  cases h with
  | reading hs => exact .connected hs
  | shaking hs hasked => exact .asked (by rw [hs]; rfl) hasked
  | closed hs => exact .left (.inl hs)

/-- How a read ends. -/
inductive Answered (t : FedSession) : Status Bytes Unit → Prop where
  | handed (first : UInt8) (rest : Bytes) (hr : Readable t) : Answered t (.ok (first :: rest))
  | ended (hs : t.state = .closed) : Answered t (.ok [])
  | waits (hp : Rested t) : Answered t .wouldBlock
  | failed (hs : t.state = .error) : Answered t (.error ())

/-- A read answers, and with what it hands out the session is headed where it was. -/
structure Served (s : FedSession) (r : Status Bytes Unit × FedSession) : Prop where
  orderly : Orderly r.2
  fate : ∀ handed, (r.2.flow (handed ++ (Answer.got r.1).handed)).fate =
    (s.flow handed).fate
  answered : Answered r.2 r.1

theorem Served.after {r : Status Bytes Unit × FedSession} (h : Guided s t) (k : Served t r) :
    Served s r :=
  ⟨k.orderly, fun handed => (k.fate handed).trans (h.fate handed), k.answered⟩

theorem Served.of_guided {status : Status Bytes Unit} (h : Guided s t)
    (hno : (Answer.got status).handed = []) (ha : Answered t status) :
    Served s (status, t) :=
  ⟨h.orderly, fun handed => by rw [hno, List.append_nil]; exact h.fate handed, ha⟩

/-- What is handed out counts as received before and after. -/
theorem takePlaintext_served (h : Orderly s) (hr : Readable s) {max : Nat} (hmax : 0 < max)
    (hne : s.plaintext.data ≠ []) : Served s (s.takePlaintext max) := by
  have hflow : ∀ handed, (s.takePlaintext max).2.flow (handed ++ s.plaintext.data.take max) =
      s.flow handed := by
    intro handed
    have hall : (s.plaintext.data.take max) ++ (s.takePlaintext max).2.plaintext.data =
        s.plaintext.data := List.take_append_drop max s.plaintext.data
    unfold flow
    rw [List.append_assoc, hall]
    rfl
  refine ⟨⟨⟨h.bound, h.trusting, h.eof, h.peerClosed⟩, h.written, fun hin => ?_⟩,
    fun handed => congrArg Flow.fate (hflow handed), ?_⟩
  · cases h.poised hin with
    | waiting hopen hs hidle => exact .waiting hopen hs hidle
    | done hdone hs hover => exact .done hdone hs hover
  · have hreadable : Readable (s.takePlaintext max).2 := by
      cases hr with
      | connected hs => exact .connected hs
      | asked hs hasked => exact .asked hs hasked
      | left hs => exact .left hs
    have htaken : s.plaintext.data.take max ≠ [] := by
      rw [Ne, List.take_eq_nil_iff, not_or]
      exact ⟨Nat.ne_of_gt hmax, hne⟩
    obtain ⟨first, rest, hcons⟩ := List.exists_cons_of_ne_nil htaken
    have hanswer : (s.takePlaintext max).1 = .ok (first :: rest) := congrArg Status.ok hcons
    rw [hanswer]
    exact .handed first rest hreadable

/-- A session that has decrypted all of the input waits for more. -/
theorem fate_of_reading (hs : s.state = .connected) (hspent : s.feed.pieces = [])
    (hidle : s.engine.reveal s.rawRead.data = ⟨.ok .needsInput, s.engine, s.rawRead.data, []⟩) :
    (s.flow handed).fate = (s.flow handed).await := by
  have hwaits : (s.flow handed).engine.reveal (s.flow handed).input =
      ⟨.ok .needsInput, (s.flow handed).engine, (s.flow handed).input, []⟩ := by
    rw [input_of_spent hspent]
    exact hidle
  rw [Flow.fate_of_connected (f := s.flow handed) hs, Flow.goOn_idle hs hwaits]

theorem answerRead_served (h : Orderly s) (hp : Rested s)
    (hmore : s.state = .handshakeRead → s.plaintext.data ≠ []) {max : Nat} (hmax : 0 < max) :
    Served s (s.answerRead max) := by
  unfold answerRead
  split
  · rename_i hne
    exact takePlaintext_served h hp.readable hmax (by simpa [Buffer.isEmpty] using hne)
  rename_i hnone
  have hnone : s.plaintext.data = [] := by simpa [Buffer.isEmpty] using hnone
  split
  · rename_i hpeer
    exact .of_guided (.refl h) rfl (.ended (h.peerClosed hpeer))
  rename_i hpeer
  split
  · rename_i heof
    cases hp with
    | reading hs hidle =>
      obtain ⟨hended, hspent⟩ := h.eof heof
      have hlive : s.state ≠ .closed := by rw [hs]; simp
      have hfate : ∀ handed, (s.flow handed).fail .eof = (s.flow handed).fate := by
        intro handed
        have hend : (s.flow handed).ended = true := hended
        rw [fate_of_reading hs hspent hidle, Flow.await_of_ended hend]
      have hfail := Guided.fail h.toSober hlive (h.written (by rw [hs]; simp)) .eof hfate
      exact .of_guided hfail rfl (.failed (fail_error _ hlive))
    -- In a new handshake there was something to hand out, or decryption would have ended the read.
    | shaking hs => exact absurd hnone (hmore hs)
    | closed hs hclosed => exact absurd hclosed hpeer
  · exact .of_guided (.refl h) rfl (.waits hp)

theorem finishRead_served (h : Orderly s) (hp : Rested s)
    (hmore : s.state = .handshakeRead → s.plaintext.data ≠ []) {max : Nat} (hmax : 0 < max) :
    Served s (s.finishRead max) := by
  have hwritten : s.pendingWrite.data = [] := by
    refine h.written ?_
    cases hp with
    | reading hs | shaking hs | closed hs => rw [hs]; simp
  rw [finishRead, if_pos (s.pendingWrite.isEmpty_iff.2 hwritten)]
  exact answerRead_served h hp hmore hmax

theorem decryptAndFinish_served (h : Orderly s) (hs : s.state = .connected) {max : Nat}
    (hmax : 0 < max) : Served s (s.decryptAndFinish max) := by
  obtain ⟨hguided, hends⟩ := decryptAvailable_guided h hs rfl
  unfold decryptAndFinish
  rcases hd : decryptAvailable (maxRenegotiations - s.renegotiations) s with ⟨ended, t⟩
  rw [hd] at hguided hends
  cases hends with
  | goesOn hp hmore => exact (finishRead_served hguided.orderly hp hmore hmax).after hguided
  | waits hread hasked => exact .of_guided hguided rfl (.waits (.shaking hread hasked))
  | failed herror => exact .of_guided hguided rfl (.failed herror)

/-- A read from the socket, and what decryption makes of it. -/
theorem receive_served (h : Orderly s) (hs : s.state = .connected) {max : Nat} (hmax : 0 < max) :
    Served s (s.receive max) := by
  have hk := bound_of h.bound
  have hsize : 0 < Nat.max max maxRecordLength :=
    Nat.lt_of_lt_of_le hmax (Nat.le_max_left _ _)
  have hflow := flow_fillRaw hk hsize
  have hstate := (s.state_fillRaw (Nat.max max maxRecordLength)).trans hs
  have horderly : Orderly (s.fillRaw (Nat.max max maxRecordLength)).2 := by
    refine ⟨h.toSober.fillRaw hsize, fun _ => ?_, fun hin => ?_⟩
    · obtain ⟨k, b, j, hframe⟩ := s.fillRaw_frame (Nat.max max maxRecordLength)
      rw [hframe]
      exact h.written (by rw [hs]; simp)
    · rw [hstate] at hin
      cases hin
  obtain ⟨f, j, hf, hfilled, hending⟩ := fillRaw_fed hk hsize
  rw [hf] at hflow hstate horderly
  unfold receive
  rw [hf]
  cases hending with
  | arrived first rest ha =>
    simp only [ha]
    exact (decryptAndFinish_served horderly hstate hmax).after ⟨horderly, fun _ => by rw [hflow]⟩
  | atEnd ha hended hpieces =>
    simp only [ha]
    have hseen : Orderly { s with
        socket := some f.socket, rawRead := f.buffer, journal := j, eof := true } := by
      refine ⟨⟨horderly.bound, horderly.trusting, fun _ => ⟨hfilled.ended.trans hended, hpieces⟩,
        horderly.peerClosed⟩, horderly.written, fun hin => ?_⟩
      rw [hstate] at hin
      cases hin
    exact (decryptAndFinish_served hseen hstate hmax).after
      ⟨hseen, fun handed => congrArg Flow.fate (hflow handed)⟩
  | refused e ha hblock =>
    simp only [ha, if_pos hblock]
    exact (decryptAndFinish_served horderly hstate hmax).after ⟨horderly, fun _ => by rw [hflow]⟩

theorem readData_served (h : Orderly s) (hr : Readable s) {max : Nat} (hmax : 0 < max) :
    Served s (s.readData max) := by
  rw [readData, if_neg (Nat.ne_of_gt hmax)]
  split
  · rename_i hne
    exact takePlaintext_served h hr hmax (by simpa [Buffer.isEmpty] using hne)
  cases hr with
  | connected hs =>
    rw [if_pos hs]
    exact receive_served h hs hmax
  | asked hs hasked =>
    have hno : ¬ s.state = .connected := fun hc => by rw [hc] at hs; cases hs
    have hgo : (s.state.inHandshake && s.renegotiating) = true := by rw [hs, hasked]; rfl
    obtain ⟨hguided, hkept⟩ := runHandshake_guided h (.inr hs)
    rw [if_neg hno, if_pos hgo]
    rcases hrun : s.runHandshake with ⟨status, t⟩
    rw [hrun] at hguided hkept
    cases status with
    | ok v => exact (receive_served hguided.orderly (runHandshake_ok hrun) hmax).after hguided
    | wouldBlock =>
      have hread := (Spends.runHandshake_waits hrun).1
      have hstill : t.renegotiating = true := (hkept (by rw [hread]; rfl)).trans hasked
      exact .of_guided hguided rfl (.waits (.shaking hread hstill))
    | error _ => exact .of_guided hguided rfl (.failed (runHandshake_error hrun (.inl hs)))
  | left hs =>
    rcases hs with hs | hs
    · simp only [hs, SessionState.inHandshake]
      exact .of_guided (.refl h) rfl (.ended hs)
    · simp only [hs, SessionState.inHandshake]
      exact .of_guided (.refl h) rfl (.failed hs)

/-! ## At the end -/

/-- Over a dry socket a handshake that reads has met its fate. -/
theorem fate_of_handshakeRead (h : Orderly s) (hs : s.state = .handshakeRead)
    (hdry : s.isDry = true) : (s.flow handed).fate = s.flow handed := by
  obtain ⟨hspent, hopen⟩ := Feed.isDry_iff.1 hdry
  have hstill : (s.flow handed).await = s.flow handed := Flow.await_of_open hopen
  have hstate : (s.flow handed).state = .handshakeRead := hs
  rw [fate_of_waiting hs hspent (h.idle hs).2, hstill, Flow.goOn_stays (by rw [hstate]; simp)]

/-- Over a dry socket a session at rest has met its fate. -/
theorem fate_of_rested (h : Orderly s) (hp : Rested s) (hdry : s.isDry = true) :
    (s.flow handed).fate = s.flow handed := by
  cases hp with
  | reading hs hidle =>
    obtain ⟨hspent, hopen⟩ := Feed.isDry_iff.1 hdry
    have hstill : (s.flow handed).await = s.flow handed := Flow.await_of_open hopen
    rw [fate_of_reading hs hspent hidle, hstill]
  | shaking hs => exact fate_of_handshakeRead h hs hdry
  | closed hs => exact Flow.fate_of_over (.inl hs)

end TlsTransport.Session
