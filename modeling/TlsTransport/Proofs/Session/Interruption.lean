import Mathlib.Data.List.Forall2
import TlsTransport.Proofs.Socket.Interruption
import TlsTransport.Script.Engine

/-! # Interrupted calls are invisible

A session repeats a socket call that was interrupted, wherever it makes it. So two sessions over
sockets that differ in interruptions only go the same way: every operation answers the same and
leaves them alike.

* `Alike`: two sessions that differ in their sockets and in interrupted calls of their journals.
* `Agrees`: an operation answers the same on both and leaves them alike; one lemma for each.
* `run_indistinct`: so two whole runs cannot be told apart.
-/

namespace TlsTransport

variable {σ ω ω' ε α β : Type}

/-- Whether an entry is a call that was interrupted. -/
def Event.interrupted : Event ε → Bool
  | .socket call => call.interrupted
  | _ => false

/-- Nothing was moved, and the engine was not called. -/
structure Event.Idle (e : Event ε) : Prop where
  accepted : e.ofSocket SocketCall.accepted = []
  delivered : e.ofSocket SocketCall.delivered = []
  engine : e.ofEngine ([·]) = []

theorem Event.idle_of_interrupted {e : Event ε} (h : e.interrupted = true) : e.Idle := by
  cases e with
  | engine call => cases h
  | notice what => cases h
  | socket call =>
    exact ⟨call.accepted_of_interrupted h, call.delivered_of_interrupted h, rfl⟩

namespace Session

/-- The same session over another socket, with another journal. -/
abbrev rebound (s : Session σ ω ε) (k : Option ω') (journal : List (Event ε)) : Session σ ω' ε :=
  { s with socket := k, journal := journal }

/-- Two sessions that differ in their sockets only, and in interrupted calls that the journal of the
second has besides those of the first. -/
inductive Alike (R : ω → ω' → Prop) (s : Session σ ω ε) : Session σ ω' ε → Prop where
  | intro {k : Option ω'} {journal : List (Event ε)} (hk : Option.Rel R s.socket k)
      (hj : Interspersed (·.interrupted = true) s.journal journal) : Alike R s (s.rebound k journal)

/-- Two operations that answered the same and left two sessions alike. -/
inductive Agrees (R : ω → ω' → Prop) : α × Session σ ω ε → α × Session σ ω' ε → Prop where
  | intro (a : α) {s : Session σ ω ε} {s' : Session σ ω' ε} (h : Alike R s s') :
      Agrees R (a, s) (a, s')

namespace Alike

variable {R : ω → ω' → Prop} {s : Session σ ω ε} {s' : Session σ ω' ε}

/-! ## What alike sessions share -/

theorem socket (h : Alike R s s') : Option.Rel R s.socket s'.socket := by
  obtain ⟨hk, -⟩ := h
  exact hk

theorem engine (h : Alike R s s') : s'.engine = s.engine := by cases h; rfl
theorem side (h : Alike R s s') : s'.side = s.side := by cases h; rfl
theorem state (h : Alike R s s') : s'.state = s.state := by cases h; rfl
theorem hostname (h : Alike R s s') : s'.hostname = s.hostname := by cases h; rfl
theorem pendingWrite (h : Alike R s s') : s'.pendingWrite = s.pendingWrite := by cases h; rfl
theorem plaintext (h : Alike R s s') : s'.plaintext = s.plaintext := by cases h; rfl
theorem renegotiating (h : Alike R s s') : s'.renegotiating = s.renegotiating := by cases h; rfl
theorem renegotiations (h : Alike R s s') : s'.renegotiations = s.renegotiations := by cases h; rfl
theorem version (h : Alike R s s') : s'.version = s.version := by cases h; rfl

theorem complete (h : Alike R s s') : s'.handshakeComplete = s.handshakeComplete := by
  cases h; rfl

theorem nextHandshakeState (h : Alike R s s') :
    s'.nextHandshakeState = s.nextHandshakeState := by cases h; rfl

/-- A change that does not look at the socket and the journal, and leaves them alone. -/
theorem update (h : Alike R s s') (f : {ω : Type} → Session σ ω ε → Session σ ω ε)
    (hf : ∀ (k : Option ω') journal, f (s.rebound k journal) = (f s).rebound k journal)
    (hk : (f s).socket = s.socket) (hj : (f s).journal = s.journal) : Alike R (f s) (f s') := by
  obtain ⟨hsocket, hjournal⟩ := h
  rw [← hk] at hsocket
  rw [← hj] at hjournal
  rw [hf]
  exact .intro hsocket hjournal

/-! ## Reports and states -/

theorem tell (h : Alike R s s') (e : Event ε) : Alike R (s.tell e) (s'.tell e) := by
  obtain ⟨hk, hj⟩ := h
  exact .intro hk (.keep e hj)

theorem note (h : Alike R s s') (n : Notice ε) : Alike R (s.note n) (s'.note n) := h.tell _

theorem setState (h : Alike R s s') (next : SessionState) :
    Alike R (s.setState next) (s'.setState next) := by
  have hnext : Alike R { s with state := next } { s' with state := next } :=
    h.update (fun s => { s with state := next }) (fun _ _ => rfl) rfl rfl
  unfold Session.setState
  rw [h.state]
  split
  · exact h
  · exact hnext.tell _

theorem fail (h : Alike R s s') (f : Failure ε) : Alike R (s.fail f) (s'.fail f) := by
  obtain ⟨hk, hj⟩ := h
  rw [fail_eq, fail_eq]
  refine .intro hk ?_
  simp only
  by_cases hs : s.state = .closed ∨ s.state = .error
  · rw [if_pos hs, if_pos hs]
    exact .keep _ hj
  · rw [if_neg hs, if_neg hs]
    exact .keep _ (.keep _ hj)

theorem failed (h : Alike R s s') (f : Failure ε) (a : α) :
    Agrees R (a, s.fail f) (a, s'.fail f) := .intro a (h.fail f)

theorem reopen (h : Alike R s s') : Alike R s.reopen s'.reopen := by
  have hnoted := h.note (.renegotiationRequested s.renegotiations)
  unfold Session.reopen
  rw [h.renegotiations]
  exact (hnoted.update (fun s => { s with renegotiating := true, handshakeComplete := false })
    (fun _ _ => rfl) rfl rfl).setState _

/-! ## Moving bytes -/

section Moves

variable [Socket ω] [Socket ω']

omit [Socket ω] [Socket ω'] in
theorem told {journal journal' : List (Event ε)} {calls calls' : List SocketCall}
    (hcalls : Interspersed (·.interrupted = true) calls calls')
    (hj : Interspersed (·.interrupted = true) journal journal') :
    Interspersed (·.interrupted = true) ((calls.map Event.socket).reverse ++ journal)
      ((calls'.map Event.socket).reverse ++ journal') :=
  (hcalls.map Event.socket fun _ h => h).reverse.append hj

theorem flushPending (hR : Delays R) (h : Alike R s s') :
    Agrees R s.flushPending s'.flushPending := by
  obtain ⟨hk, hj⟩ := h
  unfold Session.flushPending rebound
  cases hs : s.socket with
  | none =>
    rw [hs] at hk
    cases hk
    exact .intro _ (.intro (by rw [hs]; exact .none) hj)
  | some k =>
    rw [hs] at hk
    cases hk with | some hk =>
    have hd := hR.drain s.pendingWrite hk
    simp only [hd.answer, hd.buffer]
    exact .intro _ (.intro (.some hd.socket) (told hd.calls hj))

theorem fillRaw (hR : Delays R) (h : Alike R s s') (max : Nat) :
    Agrees R (s.fillRaw max) (s'.fillRaw max) := by
  obtain ⟨hk, hj⟩ := h
  unfold Session.fillRaw rebound
  cases hs : s.socket with
  | none =>
    rw [hs] at hk
    cases hk
    exact .intro _ (.intro (by rw [hs]; exact .none) hj)
  | some k =>
    rw [hs] at hk
    cases hk with | some hk =>
    have hf := hR.fill s.rawRead hk max
    simp only [hf.answer, hf.buffer]
    exact .intro _ (.intro (.some hf.socket) (told hf.calls hj))

theorem flushBestEffort (hR : Delays R) (h : Alike R s s') :
    Alike R s.flushBestEffort s'.flushBestEffort := by
  have hsocket := h.socket
  have hbound : s'.socket.isSome = s.socket.isSome := by
    generalize s.socket = k, s'.socket = k' at hsocket
    cases hsocket <;> rfl
  have hflush := h.flushPending hR
  unfold Session.flushBestEffort
  rw [hbound, h.pendingWrite]
  split
  · generalize s.flushPending = r, s'.flushPending = r' at hflush
    cases hflush with | intro _ ht => exact ht
  · exact h

end Moves

/-! ## Calling the engine -/

section Calls

variable [Engine σ ε]

theorem startEngine (h : Alike R s s') : Agrees R s.startEngine s'.startEngine := by
  obtain ⟨hk, hj⟩ := h
  exact .intro _ (.intro hk (.keep _ hj))

theorem handshakeOnce (h : Alike R s s') : Agrees R s.handshakeOnce s'.handshakeOnce := by
  obtain ⟨hk, hj⟩ := h
  exact .intro _ (.intro hk (.keep _ hj))

theorem encryptOnce (h : Alike R s s') (chunk : Bytes) :
    Agrees R (s.encryptOnce chunk) (s'.encryptOnce chunk) := by
  obtain ⟨hk, hj⟩ := h
  exact .intro _ (.intro hk (.keep _ hj))

theorem decryptOnce (h : Alike R s s') : Agrees R s.decryptOnce s'.decryptOnce := by
  obtain ⟨hk, hj⟩ := h
  exact .intro _ (.intro hk (.keep _ hj))

theorem notifyClose (h : Alike R s s') : Agrees R s.notifyClose s'.notifyClose := by
  obtain ⟨hk, hj⟩ := h
  exact .intro _ (.intro hk (.keep _ hj))

theorem connectedAs (h : Alike R s s') (v : TlsVersion) :
    Alike R (s.connectedAs v) (s'.connectedAs v) := by
  have hremark : Alike R (if v = .ssl3 then s.note (.insecureVersion v) else s)
      (if v = .ssl3 then s'.note (.insecureVersion v) else s') := by
    split
    · exact h.note _
    · exact h
  unfold Session.connectedAs
  generalize (if v = .ssl3 then s.note (.insecureVersion v) else s) = t at hremark
  generalize (if v = .ssl3 then s'.note (.insecureVersion v) else s') = t' at hremark
  obtain ⟨hk, hj⟩ := hremark
  refine setState ?_ _
  by_cases hr : t.renegotiating = true
  · simp only
    rw [if_pos hr, if_pos hr]
    exact .intro hk (.keep _ hj)
  · simp only
    rw [if_neg hr, if_neg hr]
    exact .intro hk (.keep _ hj)

theorem finishHandshake (h : Alike R s s') :
    Agrees R s.finishHandshake s'.finishHandshake := by
  have hfault : s'.identityFault? = s.identityFault? := by cases h; rfl
  have hsuite : s'.blockedSuite? = s.blockedSuite? := by cases h; rfl
  unfold Session.finishHandshake failStep
  rw [hfault, hsuite, h.engine]
  split
  · exact h.failed _ _
  split
  · exact h.failed _ _
  split
  · exact h.failed _ _
  · exact .intro _ (h.connectedAs _)

end Calls

section Handshake

variable [Engine σ ε] [Socket ω] [Socket ω']

theorem processHandshake (hR : Delays R) (h : Alike R s s') :
    Agrees R s.processHandshake s'.processHandshake := by
  have honce := h.handshakeOnce
  unfold Session.processHandshake
  generalize s.handshakeOnce = r, s'.handshakeOnce = r' at honce
  obtain @⟨answer, t, t', ht⟩ := honce
  cases answer with
  | error e => exact .intro _ ((ht.fail _).flushBestEffort hR)
  | ok progress =>
    have hdone := ht.update (fun s => { s with
      handshakeComplete := s.handshakeComplete || progress == HandshakeProgress.complete })
      (fun _ _ => rfl) rfl rfl
    have hnext := hdone.setState
      { t with handshakeComplete := t.handshakeComplete ||
        progress == HandshakeProgress.complete }.nextHandshakeState
    have hsame := hdone.nextHandshakeState
    simp only at hnext hsame ⊢
    rw [hsame]
    exact .intro _ hnext

theorem step (hR : Delays R) (h : Alike R s s') : Agrees R s.step s'.step := by
  unfold Session.step failStep
  rw [h.state]
  cases hs : s.state with
  | initialized =>
    have hstart := h.startEngine
    simp only
    generalize s.startEngine = r, s'.startEngine = r' at hstart
    obtain @⟨answer, t, t', ht⟩ := hstart
    cases answer with
    | error e => exact ht.failed _ _
    | ok _ =>
      have hbegun := ht.update (fun s => { s with handshakeComplete := false })
        (fun _ _ => rfl) rfl rfl
      exact hbegun.processHandshake hR
  | handshakeWrite =>
    have hflush := h.flushPending hR
    simp only
    generalize s.flushPending = r, s'.flushPending = r' at hflush
    obtain @⟨answer, t, t', ht⟩ := hflush
    rcases answer with e | _ | _
    · exact ht.failed _ _
    · exact .intro _ ht
    · simp only
      rw [ht.complete]
      exact .intro _ (ht.setState _)
  | handshakeRead =>
    have hfill := h.fillRaw hR maxRecordLength
    simp only
    generalize s.fillRaw maxRecordLength = r, s'.fillRaw maxRecordLength = r' at hfill
    obtain @⟨answer, t, t', ht⟩ := hfill
    rcases answer with e | _ | ⟨b, bytes⟩
    · by_cases hb : e.isBlock = true
      · simp only [hb, if_true]
        exact .intro _ ht
      · simp only [hb]
        exact ht.failed _ _
    · exact ht.failed _ _
    · exact ht.processHandshake hR
  | handshakeDone => exact h.finishHandshake
  | connected =>
    simp only
    rw [h.version]
    cases s.version with
    | none => exact h.failed _ _
    | some v => exact .intro _ h
  | constructed | closing | closed | error => exact h.failed _ _

theorem runHandshake (hR : Delays R) (h : Alike R s s') :
    Agrees R s.runHandshake s'.runHandshake := by
  -- Along the first handshake: interruptions are dealt with inside a step, so steps match one to one.
  fun_induction Session.runHandshake s generalizing s' with
  | case1 s t hs ih =>
    have hstep := h.step hR
    rw [hs] at hstep
    rcases hs' : s'.step with ⟨result, t'⟩
    rw [hs'] at hstep
    cases hstep with | intro _ ht =>
    rw [runHandshake_of_proceed hs']
    exact ih ht
  | case2 s status t hs =>
    have hstep := h.step hR
    rw [hs] at hstep
    rcases hs' : s'.step with ⟨result, t'⟩
    rw [hs'] at hstep
    cases hstep with | intro _ ht =>
    rw [runHandshake_of_yield hs']
    exact .intro status ht

/-! ## The calls of a handshake -/

omit [Socket ω] [Socket ω'] in
theorem lastErrorText (h : Alike R s s') : s'.lastErrorText = s.lastErrorText := by
  cases h
  rfl

omit [Socket ω] [Socket ω'] in
theorem failWith (h : Alike R s s') (f : Failure ε) : Agrees R (s.failWith f) (s'.failWith f) := by
  unfold Session.failWith
  simp only
  rw [(h.fail f).lastErrorText]
  exact .intro _ (h.fail f)

theorem handshakeStatus (hR : Delays R) (h : Alike R s s') :
    Agrees R s.handshakeStatus s'.handshakeStatus := by
  have hrun := h.runHandshake hR
  unfold Session.handshakeStatus
  rw [h.state]
  cases hs : s.state with
  | connected =>
    simp only
    rw [h.version, h.lastErrorText]
    cases s.version <;> exact .intro _ h
  | initialized | handshakeWrite | handshakeRead | handshakeDone =>
    simp only
    generalize s.runHandshake = r, s'.runHandshake = r' at hrun
    obtain @⟨status, t, t', ht⟩ := hrun
    rcases status with v | _ | _
    · exact .intro _ ht
    · exact .intro _ ht
    · simp only
      rw [ht.lastErrorText]
      exact .intro _ ht
  | error =>
    simp only
    rw [h.lastErrorText]
    exact .intro _ h
  | constructed | closing | closed => exact h.failWith _

theorem connect (hR : Delays R) (h : Alike R s s') (host : String) :
    Agrees R (s.connect host) (s'.connect host) := by
  have hnamed := h.update (fun s => { s with hostname := some host }) (fun _ _ => rfl) rfl rfl
  have hall : Alike R
      (if s.hostname = none ∧ s.state = .initialized then { s with hostname := some host } else s)
      (if s'.hostname = none ∧ s'.state = .initialized then { s' with hostname := some host }
        else s') := by
    by_cases hfirst : s.hostname = none ∧ s.state = .initialized
    · rw [if_pos hfirst, if_pos (by rw [h.hostname, h.state]; exact hfirst)]
      exact hnamed
    · rw [if_neg hfirst, if_neg (by rw [h.hostname, h.state]; exact hfirst)]
      exact h
  have hside := h.side
  unfold Session.connect
  by_cases hclient : s.side = .client
  · have hgo : ¬ s.side ≠ .client := fun hn => hn hclient
    have hgo' : ¬ s'.side ≠ .client := fun hn => hn (hside.trans hclient)
    rw [if_neg hgo, if_neg hgo']
    exact hall.handshakeStatus hR
  · rw [if_pos hclient, if_pos (by rw [hside]; exact hclient)]
    exact h.failWith _

theorem accept (hR : Delays R) (h : Alike R s s') : Agrees R s.accept s'.accept := by
  unfold Session.accept
  rw [h.side]
  split
  · exact h.failWith _
  · exact h.handshakeStatus hR

end Handshake

/-! ## Writing -/

section Transfer

variable [Engine σ ε] [Socket ω] [Socket ω']

theorem sendRest (hR : Delays R) (fragment : Nat) (flight : InFlight) (rest : Bytes)
    (h : Alike R s s') :
    Agrees R (s.sendRest fragment flight rest) (s'.sendRest fragment flight rest) := by
  -- Both writes go on or stop together, so it is enough to look at what is left of the payload.
  induction hn : rest.length using Nat.strongRecOn generalizing flight rest s s' with
  | ind n ih =>
    have hflush := h.flushPending hR
    rcases hf : s.flushPending with ⟨answer, t⟩
    rcases hf' : s'.flushPending with ⟨answer', t'⟩
    rw [hf, hf'] at hflush
    cases hflush with | intro _ ht =>
    rcases answer with e | _ | _
    · rw [sendRest_of_failed hf, sendRest_of_failed hf']
      exact ht.failed _ _
    · rw [sendRest_of_blocked hf, sendRest_of_blocked hf', ht.pendingWrite]
      exact .intro _ ((ht.note _).update (fun s => { s with inFlight := some flight })
        (fun _ _ => rfl) rfl rfl)
    · by_cases hr : rest = []
      · rw [sendRest_of_done hf hr, sendRest_of_done hf' hr]
        exact .intro _ ht
      have hencrypt := ht.encryptOnce (rest.take (max 1 fragment))
      rcases he : t.encryptOnce (rest.take (max 1 fragment)) with ⟨answer, u⟩
      rcases he' : t'.encryptOnce (rest.take (max 1 fragment)) with ⟨answer', u'⟩
      rw [he, he'] at hencrypt
      cases hencrypt with | intro _ hu =>
      cases answer with
      | error e =>
        rw [sendRest_of_refused hf hr he, sendRest_of_refused hf' hr he']
        exact hu.failed _ _
      | ok _ =>
        rw [sendRest_of_encrypted hf hr he, sendRest_of_encrypted hf' hr he']
        have hpos := List.length_pos_iff.2 hr
        exact ih _ (by simp only [List.length_drop]; omega) _ _ hu rfl

theorem sendPayload (hR : Delays R) (h : Alike R s s') (payload : Bytes) :
    Agrees R (s.sendPayload payload) (s'.sendPayload payload) := by
  have htaken := h.update (fun s => { s with inFlight := none }) (fun _ _ => rfl) rfl rfl
  unfold Session.sendPayload
  obtain ⟨hk, hj⟩ := h
  simp only
  cases s.inFlight with
  | some flight =>
    simp only
    split
    · exact htaken.failed _ _
    · exact htaken.sendRest hR _ _ _
  | none =>
    simp only
    split
    · exact .intro _ (.intro hk hj)
    · exact sendRest hR _ _ _ (.intro hk hj)

theorem writeData (hR : Delays R) (h : Alike R s s') (payload : Bytes) :
    Agrees R (s.writeData payload) (s'.writeData payload) := by
  have hrun := h.runHandshake hR
  unfold Session.writeData
  rw [h.state, h.renegotiating]
  split
  · exact h.sendPayload hR payload
  split
  · generalize s.runHandshake = r, s'.runHandshake = r' at hrun
    obtain @⟨status, t, t', ht⟩ := hrun
    rcases status with v | _ | _
    · exact ht.sendPayload hR payload
    · exact .intro _ ht
    · exact .intro _ ht
  split
  · exact .intro _ h
  · exact h.failed _ _

/-! ## Reading -/

omit [Engine σ ε] in
theorem leave (hR : Delays R) (h : Alike R s s') : Alike R s.leave s'.leave := by
  have hflush := h.flushPending hR
  unfold Session.leave
  generalize s.flushPending = r, s'.flushPending = r' at hflush
  obtain @⟨answer, t, t', ht⟩ := hflush
  rcases answer with e | _ | _ <;> exact ht.setState _

theorem answerClose (hR : Delays R) (h : Alike R s s') : Alike R s.answerClose s'.answerClose := by
  have hnotify := ((h.note .peerClosed).update (fun s => { s with peerClosed := true })
    (fun _ _ => rfl) rfl rfl).notifyClose
  unfold Session.answerClose
  generalize Session.notifyClose { s.note .peerClosed with peerClosed := true } = r,
    Session.notifyClose { s'.note .peerClosed with peerClosed := true } = r' at hnotify
  obtain @⟨answer, t, t', ht⟩ := hnotify
  cases answer with
  | ok _ => exact ht.leave hR
  | error e => exact (ht.note _).leave hR

theorem renegotiate (hR : Delays R) (h : Alike R s s') :
    Agrees R s.renegotiate s'.renegotiate := by
  have hfirst := h.reopen.processHandshake hR
  unfold Session.renegotiate
  generalize s.reopen.processHandshake = r, s'.reopen.processHandshake = r' at hfirst
  obtain @⟨first, t, t', ht⟩ := hfirst
  have hrun := ht.runHandshake hR
  generalize hq : t.runHandshake = q, hq' : t'.runHandshake = q' at hrun
  obtain @⟨status, u, u', hu⟩ := hrun
  simp only [hq, hq']
  split
  · exact .intro _ ht
  · rcases status with v | _ | _
    · exact .intro _ hu
    · simp only
      rw [hu.plaintext]
      split <;> exact .intro _ hu
    · exact .intro _ hu

theorem decryptAvailable (hR : Delays R) (admitted : Nat) (h : Alike R s s') :
    Agrees R (s.decryptAvailable admitted) (s'.decryptAvailable admitted) := by
  induction admitted using Nat.strongRecOn generalizing s s' with
  | ind admitted ih =>
    have honce := h.decryptOnce
    rcases hd : s.decryptOnce with ⟨answer, t⟩
    rcases hd' : s'.decryptOnce with ⟨answer', t'⟩
    rw [hd, hd'] at honce
    cases honce with | intro _ ht =>
    rcases answer with e | _ | _ | _
    · rw [decryptAvailable_of_failed hd, decryptAvailable_of_failed hd']
      exact .intro _ ((ht.fail _).flushBestEffort hR)
    · rw [decryptAvailable_of_needsInput hd, decryptAvailable_of_needsInput hd']
      exact .intro _ ht
    · have hcounted := ht.update (fun s => { s with renegotiations := s.renegotiations + 1 })
        (fun _ _ => rfl) rfl rfl
      cases admitted with
      | zero =>
        rw [decryptAvailable_of_overrun hd, decryptAvailable_of_overrun hd']
        exact hcounted.failed _ _
      | succ admitted =>
        have hagain := hcounted.renegotiate hR
        rcases hr : Session.renegotiate { t with renegotiations := t.renegotiations + 1 } with
          ⟨answer, u⟩
        rcases hr' : Session.renegotiate { t' with renegotiations := t'.renegotiations + 1 } with
          ⟨answer', u'⟩
        rw [hr, hr'] at hagain
        cases hagain with | intro _ hu =>
        cases answer with
        | ok _ =>
          rw [decryptAvailable_of_reopened hd hr, decryptAvailable_of_reopened hd' hr']
          exact ih admitted (Nat.lt_succ_self admitted) hu
        | error ended =>
          rw [decryptAvailable_of_ended hd hr, decryptAvailable_of_ended hd' hr']
          exact .intro ended hu
    · rw [decryptAvailable_of_closeNotify hd, decryptAvailable_of_closeNotify hd']
      exact .intro _ (ht.answerClose hR)

omit [Engine σ ε] [Socket ω] [Socket ω'] in
theorem takePlaintext (h : Alike R s s') (max : Nat) :
    Agrees R (s.takePlaintext max) (s'.takePlaintext max) := by
  obtain ⟨hk, hj⟩ := h
  exact .intro _ (.intro hk hj)

omit [Engine σ ε] [Socket ω] [Socket ω'] in
theorem answerRead (h : Alike R s s') (max : Nat) :
    Agrees R (s.answerRead max) (s'.answerRead max) := by
  have htaken := h.takePlaintext max
  have hfailed := h.fail .eof
  obtain ⟨hk, hj⟩ := h
  unfold Session.answerRead
  simp only
  split
  · exact htaken
  split
  · exact .intro _ (.intro hk hj)
  split
  · exact .intro _ hfailed
  · exact .intro _ (.intro hk hj)

omit [Engine σ ε] in
theorem finishRead (hR : Delays R) (h : Alike R s s') (max : Nat) :
    Agrees R (s.finishRead max) (s'.finishRead max) := by
  have hflush := h.flushPending hR
  unfold Session.finishRead
  rw [h.pendingWrite]
  split
  · exact h.answerRead max
  · generalize s.flushPending = r, s'.flushPending = r' at hflush
    obtain @⟨answer, t, t', ht⟩ := hflush
    cases answer with
    | error e => exact ht.failed _ _
    | ok _ => exact ht.answerRead max

theorem decryptAndFinish (hR : Delays R) (h : Alike R s s') (max : Nat) :
    Agrees R (s.decryptAndFinish max) (s'.decryptAndFinish max) := by
  have hdecrypted := h.decryptAvailable hR (maxRenegotiations - s.renegotiations)
  unfold Session.decryptAndFinish
  rw [h.renegotiations]
  generalize s.decryptAvailable (maxRenegotiations - s.renegotiations) = r,
    s'.decryptAvailable (maxRenegotiations - s.renegotiations) = r' at hdecrypted
  obtain @⟨ended, t, t', ht⟩ := hdecrypted
  cases ended with
  | none => exact ht.finishRead hR max
  | some status => exact .intro _ ht

theorem receive (hR : Delays R) (h : Alike R s s') (max : Nat) :
    Agrees R (s.receive max) (s'.receive max) := by
  have hfill := h.fillRaw hR (Nat.max max maxRecordLength)
  unfold Session.receive
  generalize s.fillRaw (Nat.max max maxRecordLength) = r,
    s'.fillRaw (Nat.max max maxRecordLength) = r' at hfill
  obtain @⟨answer, t, t', ht⟩ := hfill
  rcases answer with e | _ | ⟨b, bytes⟩
  · by_cases hb : e.isBlock = true
    · simp only [hb, if_true]
      exact ht.decryptAndFinish hR max
    · simp only [hb]
      exact ht.failed _ _
  · have hended := ht.update (fun s => { s with eof := true }) (fun _ _ => rfl) rfl rfl
    exact hended.decryptAndFinish hR max
  · exact ht.decryptAndFinish hR max

theorem readData (hR : Delays R) (h : Alike R s s') (max : Nat) :
    Agrees R (s.readData max) (s'.readData max) := by
  have hrun := h.runHandshake hR
  unfold Session.readData
  rw [h.plaintext, h.state, h.renegotiating]
  split
  · exact .intro _ h
  split
  · exact h.takePlaintext max
  split
  · exact h.receive hR max
  split
  · generalize s.runHandshake = r, s'.runHandshake = r' at hrun
    obtain @⟨status, t, t', ht⟩ := hrun
    rcases status with v | _ | _
    · exact ht.receive hR max
    · exact .intro _ ht
    · exact .intro _ ht
  split
  · exact .intro _ h
  split
  · exact .intro _ h
  · exact h.failed _ _

/-! ## Closing -/

omit [Engine σ ε] in
theorem finishClose (hR : Delays R) (h : Alike R s s') :
    Agrees R s.finishClose s'.finishClose := by
  have hflush := h.flushPending hR
  unfold Session.finishClose
  generalize s.flushPending = r, s'.flushPending = r' at hflush
  obtain @⟨answer, t, t', ht⟩ := hflush
  rcases answer with e | _ | _
  · exact ht.failed _ _
  · exact .intro _ ht
  · exact .intro _ (ht.setState _)

theorem close (hR : Delays R) (h : Alike R s s') : Agrees R s.close s'.close := by
  have hnotify := h.notifyClose
  unfold Session.close
  rw [h.state]
  split
  · generalize s.notifyClose = r, s'.notifyClose = r' at hnotify
    obtain @⟨answer, t, t', ht⟩ := hnotify
    cases answer with
    | error e => exact ht.failed _ _
    | ok _ =>
      have hreleased := ht.update (fun s => { s with inFlight := none }) (fun _ _ => rfl) rfl rfl
      exact (hreleased.setState _).finishClose hR
  split
  · exact h.finishClose hR
  split
  · exact .intro _ h
  split
  · exact .intro _ h
  · exact h.failed _ _

/-! ## Calls -/

omit [Engine σ ε] [Socket ω] [Socket ω'] in
theorem init (h : Alike R s s') {k : ω} {k' : ω'} (hk : R k k') :
    Agrees R (s.init k) (s'.init k') := by
  have hbound : Alike R { s with socket := some k } { s' with socket := some k' } := by
    obtain ⟨-, hj⟩ := h
    exact .intro (.some hk) hj
  obtain ⟨hs, hj⟩ := h
  unfold Session.init
  simp only
  split
  · exact .intro _ (hbound.setState _)
  · exact .intro _ (.intro hs hj)

omit [Engine σ ε] [Socket ω] [Socket ω'] in
theorem setServerName (h : Alike R s s') (name : String) :
    Agrees R (s.setServerName name) (s'.setServerName name) := by
  have hnamed := h.update (fun s => { s with serverName := some name }) (fun _ _ => rfl) rfl rfl
  obtain ⟨hk, hj⟩ := h
  unfold Session.setServerName
  simp only
  split
  · exact .intro _ (.intro hk hj)
  split
  · exact .intro _ (.intro hk hj)
  · exact .intro _ hnamed

end Transfer
end Alike
end Session

/-! ## Runs -/

/-- The same call over both sockets: a session is bound to two sockets of which one delays the
other, and so they stay whatever is done to them between two calls. -/
inductive Call.Delayed (R : ω → ω' → Prop) : Call ω → Call ω' → Prop where
  | init {k : ω} {k' : ω'} (hk : R k k') : Delayed R (.init k) (.init k')
  | setServerName (name : String) : Delayed R (.setServerName name) (.setServerName name)
  | connect (host : String) : Delayed R (.connect host) (.connect host)
  | accept : Delayed R .accept .accept
  | write (payload : Bytes) : Delayed R (.write payload) (.write payload)
  | read (max : Nat) : Delayed R (.read max) (.read max)
  | close : Delayed R .close .close
  | outside {change : ω → ω} {change' : ω' → ω'}
      (hk : ∀ k k', R k k' → R (change k) (change' k')) :
      Delayed R (.outside change) (.outside change')

namespace Session

variable [Engine σ ε] [Socket ω] [Socket ω'] {R : ω → ω' → Prop}

omit [Engine σ ε] [Socket ω] [Socket ω'] in
theorem Agrees.answering {r : α × Session σ ω ε} {r' : α × Session σ ω' ε} (h : Agrees R r r')
    (f : α → Answer) : Agrees R (f r.1, r.2) (f r'.1, r'.2) := by
  obtain @⟨a, t, t', ht⟩ := h
  exact .intro (f a) ht

/-- One call. -/
theorem Alike.perform (hR : Delays R) {s : Session σ ω ε} {s' : Session σ ω' ε} (h : Alike R s s')
    {c : Call ω} {c' : Call ω'} (hc : Call.Delayed R c c') :
    Agrees R (s.perform c) (s'.perform c') := by
  cases hc with
  | init hk => exact (h.init hk).answering .setUp
  | setServerName name => exact (h.setServerName name).answering .setUp
  | connect host => exact (h.connect hR host).answering .agreed
  | accept => exact (h.accept hR).answering .agreed
  | write payload => exact (h.writeData hR payload).answering .wrote
  | read max => exact (h.readData hR max).answering .got
  | close => exact (h.close hR).answering .closed
  | @outside change change' hk =>
    obtain @⟨socket, journal, hsocket, hj⟩ := h
    have hchanged : Option.Rel R (s.socket.map change) (socket.map change') := by
      generalize s.socket = k at hsocket
      cases hsocket with
      | none => exact .none
      | some hsocket => exact .some (hk _ _ hsocket)
    exact .intro _ (.intro hchanged hj)

/-- A whole run. -/
theorem Alike.run (hR : Delays R) {s : Session σ ω ε} {s' : Session σ ω' ε} (h : Alike R s s')
    {calls : List (Call ω)} {calls' : List (Call ω')}
    (hcalls : List.Forall₂ (Call.Delayed R) calls calls') :
    Agrees R (s.run calls) (s'.run calls') := by
  induction hcalls generalizing s s' with
  | nil => exact .intro [] h
  | @cons c c' calls calls' hc _ ih =>
    have hfirst := h.perform hR hc
    unfold Session.run
    generalize s.perform c = r, s'.perform c' = r' at hfirst
    obtain @⟨answer, t, t', ht⟩ := hfirst
    have hrest := ih ht
    generalize hq : t.run calls = q, hq' : t'.run calls' = q' at hrest
    obtain @⟨answers, u, u', hu⟩ := hrest
    simp only [hq, hq']
    exact .intro (answer :: answers) hu

/-- Two runs that cannot be told apart, but for socket calls that were interrupted. -/
structure Indistinct (R : ω → ω' → Prop) (r : List Answer × Session σ ω ε)
    (r' : List Answer × Session σ ω' ε) : Prop where
  answers : r'.1 = r.1
  accepted : r'.2.accepted = r.2.accepted
  delivered : r'.2.delivered = r.2.delivered
  engine : gather (Event.ofEngine ([·])) r'.2.journal = gather (Event.ofEngine ([·])) r.2.journal
  /-- All else that was done and reported, too. -/
  journal : Interspersed (·.interrupted = true) r.2.journal r'.2.journal
  /-- The last session is the same in all but its socket and its journal. -/
  last : r'.2 = r.2.rebound r'.2.socket r'.2.journal
  socket : Option.Rel R r.2.socket r'.2.socket

omit [Engine σ ε] [Socket ω] [Socket ω'] in
theorem Alike.gather_eq {s : Session σ ω ε} {s' : Session σ ω' ε} (h : Alike R s s')
    {f : Event ε → List α} (hf : ∀ e : Event ε, e.interrupted = true → f e = []) :
    gather f s'.journal = gather f s.journal := by
  obtain ⟨-, hj⟩ := h
  exact hj.reverse.flatMap_eq hf

omit [Engine σ ε] [Socket ω] [Socket ω'] in
theorem Agrees.indistinct {r : List Answer × Session σ ω ε} {r' : List Answer × Session σ ω' ε}
    (h : Agrees R r r') : Indistinct R r r' := by
  obtain @⟨answers, s, s', hs⟩ := h
  have haccepted := hs.gather_eq fun e he => (Event.idle_of_interrupted he).accepted
  have hdelivered := hs.gather_eq fun e he => (Event.idle_of_interrupted he).delivered
  have hengine := hs.gather_eq fun e he => (Event.idle_of_interrupted he).engine
  obtain ⟨hk, hj⟩ := hs
  exact ⟨rfl, haccepted, hdelivered, hengine, hj, rfl, hk⟩

/-- Two runs of a new session that make the same calls. -/
theorem run_indistinct (hR : Delays R) (engine : σ) (side : Side) (verifyPeer : Bool)
    (policy : CipherPolicy) {calls : List (Call ω)} {calls' : List (Call ω')}
    (h : List.Forall₂ (Call.Delayed R) calls calls') :
    Indistinct R ((ofEngine engine side verifyPeer policy).run calls)
      ((ofEngine engine side verifyPeer policy).run calls') := by
  have hfresh : Alike R (ofEngine engine side verifyPeer policy : Session σ ω ε)
      (ofEngine engine side verifyPeer policy) := .intro .none .nil
  exact (hfresh.run hR h).indistinct

/-- A socket that takes one byte and then would block, and has two bytes to give. -/
def halting : ScriptedSocket := .ofScript [.ok [7, 8]] [.ok 1, .error (.bare .wouldBlock)] []

/-- The same socket, interrupted before each of these answers. -/
def interruptedHalting : ScriptedSocket :=
  .ofScript [.error (.bare .interrupted), .ok [7, 8]]
    [.error (.system 4), .ok 1, .error (.bare .interrupted), .error (.bare .wouldBlock)] []

/-- The calls of a client that writes, reads and closes. -/
def errand (k : ScriptedSocket) : List (Call ScriptedSocket) :=
  [.init k, .connect "localhost", .write [1, 2, 3], .read 4, .write [1, 2, 3], .close]

theorem errand_indistinct :
    let fresh : Session (ScriptedEngine true) ScriptedSocket String :=
      ofEngine ⟨⟨3, some .tls13, none, none, [], [], [], [], [], []⟩⟩ .client true .default
    Indistinct ScriptedSocket.Interrupted (fresh.run (errand halting))
      (fresh.run (errand interruptedHalting)) := by
  have hk : ScriptedSocket.Interrupted halting interruptedHalting :=
    ⟨.more rfl (.keep _ .nil), .more rfl (.keep _ (.more rfl (.keep _ .nil))), .nil, rfl, rfl⟩
  exact run_indistinct ScriptedSocket.delays.toDelays _ .client true .default
    (.cons (.init hk) (.cons (.connect "localhost") (.cons (.write [1, 2, 3]) (.cons (.read 4)
      (.cons (.write [1, 2, 3]) (.cons .close .nil))))))

end Session
end TlsTransport
