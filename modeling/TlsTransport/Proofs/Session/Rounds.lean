import TlsTransport.Proofs.Session.History
import TlsTransport.Proofs.Session.Moments

/-! # How a read goes

A read is taken apart once, with everything it tested. Before it decrypts, it may have to finish a
handshake and it reads from the socket once. Decryption is a row of rounds: in each but the last the
peer asked for a new handshake and got it.

* `Session.renegotiate_case`: how a new handshake within a read stops.
* `Session.decryptAvailable_rounds`: the rounds of decryption, and the last one.
* `Session.readData_case`: how a read goes.
* `Session.decryptions`: the answers of the engine to all it was given to decrypt, and how many of
  them one read can ask for.
-/

namespace TlsTransport

variable {σ ω ε : Type}

namespace Session

/-- The same session after the peer asked for one more renegotiation. -/
def asked (s : Session σ ω ε) : Session σ ω ε := { s with renegotiations := s.renegotiations + 1 }

variable [Engine σ ε] [Socket ω]

/-! ## A new handshake -/

theorem processHandshake_goesOn {s t : Session σ ω ε} (h : s.processHandshake = (.proceed, t)) :
    t.state.inHandshake = true := by
  rcases s.processHandshake_cases with ⟨e, -, he⟩ | ⟨progress, u, -, -, hu⟩
  · rw [he] at h
    cases h
  · rw [hu] at h
    injection h with _ ht
    rw [← ht, state_setState]
    exact u.inHandshake_nextHandshakeState

/-- The ways in which a new handshake stops. -/
inductive RenegotiateCase (s : Session σ ω ε) :
    Except (Option (Status Bytes Unit)) Unit × Session σ ω ε → Prop where
  | refused {t : Session σ ω ε} (h : s.reopen.processHandshake = (.yield (.error ()), t)) :
      RenegotiateCase s (.error (some (.error ())), t)
  | done {t u : Session σ ω ε} {v : TlsVersion} (h : s.reopen.processHandshake = (.proceed, t))
      (hr : t.runHandshake = (.ok v, u)) : RenegotiateCase s (.ok (), u)
  | failed {t u : Session σ ω ε} (h : s.reopen.processHandshake = (.proceed, t))
      (hr : t.runHandshake = (.error (), u)) : RenegotiateCase s (.error (some (.error ())), u)
  | waits {t u : Session σ ω ε} (h : s.reopen.processHandshake = (.proceed, t))
      (hr : t.runHandshake = (.wouldBlock, u)) :
      RenegotiateCase s (.error (if u.plaintext.isEmpty then some .wouldBlock else none), u)

theorem renegotiate_case (s : Session σ ω ε) : RenegotiateCase s s.renegotiate := by
  unfold renegotiate
  rcases s.reopen.processHandshake_cases with ⟨e, -, he⟩ | ⟨progress, u, -, -, hu⟩
  · rw [he]
    exact .refused he
  · rw [hu]
    rcases hr : (u.setState u.nextHandshakeState).runHandshake with ⟨status, w⟩
    simp only [hr]
    cases status with
    | ok v => exact .done hu hr
    | error _ => exact .failed hu hr
    | wouldBlock =>
      have hcase := RenegotiateCase.waits hu hr
      simp only
      split
      · rename_i hempty
        rwa [if_pos hempty] at hcase
      · rename_i hsome
        rwa [if_neg hsome] at hcase

/-- A new handshake ends with its first call of the engine, or it runs on from there. -/
theorem renegotiate_left (s : Session σ ω ε) :
    s.renegotiate.2 = s.reopen.processHandshake.2 ∨
      ∃ t, s.reopen.processHandshake = (.proceed, t) ∧ s.renegotiate.2 = t.runHandshake.2 := by
  generalize hr : s.renegotiate = r
  have hcase := s.renegotiate_case
  rw [hr] at hcase
  cases hcase with
  | refused h => exact .inl (by rw [h])
  | done h hrun | failed h hrun | waits h hrun => exact .inr ⟨_, h, by rw [hrun]⟩

/-! ## Decryption -/

/-- The peer asked for a new handshake and got it. -/
structure Round (s t : Session σ ω ε) : Prop where
  request : s.decryptOnce.1 = .ok .renegotiate
  done : s.decryptOnce.2.asked.renegotiate = (.ok (), t)

/-- So many rounds, one after the other. -/
inductive Rounds : Nat → Session σ ω ε → Session σ ω ε → Prop where
  | none (s : Session σ ω ε) : Rounds 0 s s
  | more {n : Nat} {s t u : Session σ ω ε} (h : Round s t) (k : Rounds n t u) : Rounds (n + 1) s u

/-- The ways in which decryption ends, with so many renegotiations still admitted. -/
inductive LastRound (s : Session σ ω ε) :
    Nat → Option (Status Bytes Unit) × Session σ ω ε → Prop where
  | drained {n : Nat} {t : Session σ ω ε} (h : s.decryptOnce = (.ok .needsInput, t)) :
      LastRound s n (none, t)
  | noticed {n : Nat} {t : Session σ ω ε} (h : s.decryptOnce = (.ok .closeNotify, t)) :
      LastRound s n (none, t.answerClose)
  | refused {n : Nat} {t : Session σ ω ε} {e : ε} (h : s.decryptOnce = (.error e, t)) :
      LastRound s n (some (.error ()), (t.fail (.native e)).flushBestEffort)
  | overrun {t : Session σ ω ε} (h : s.decryptOnce = (.ok .renegotiate, t)) :
      LastRound s 0 (some (.error ()), t.asked.fail .renegotiations)
  | stopped {n : Nat} {t u : Session σ ω ε} {ended : Option (Status Bytes Unit)}
      (h : s.decryptOnce = (.ok .renegotiate, t)) (hr : t.asked.renegotiate = (.error ended, u)) :
      LastRound s (n + 1) (ended, u)

theorem LastRound.of_closeNotify {s : Session σ ω ε} {n : Nat}
    {r : Option (Status Bytes Unit) × Session σ ω ε} (h : LastRound s n r)
    (hs : s.decryptOnce.1 = .ok .closeNotify) : r = (none, s.decryptOnce.2.answerClose) := by
  cases h with
  | noticed hd => rw [hd]
  | drained hd | refused hd | overrun hd | stopped hd _ =>
    rw [hd] at hs
    cases hs

/-- Without a request of the peer, decryption runs once. -/
theorem decryptAvailable_once (admitted : Nat) {s : Session σ ω ε}
    (h : s.decryptOnce.1 ≠ .ok .renegotiate) :
    LastRound s admitted (decryptAvailable admitted s) := by
  rcases hd : s.decryptOnce with ⟨e | _ | _ | _, t⟩
  · rw [decryptAvailable_of_failed hd]
    exact .refused hd
  · rw [decryptAvailable_of_needsInput hd]
    exact .drained hd
  · rw [hd] at h
    exact absurd rfl h
  · rw [decryptAvailable_of_closeNotify hd]
    exact .noticed hd

theorem decryptAvailable_rounds (admitted : Nat) (s : Session σ ω ε) : ∃ n t, n ≤ admitted ∧
    Rounds n s t ∧ LastRound t (admitted - n) (decryptAvailable admitted s) := by
  induction admitted generalizing s with
  | zero =>
    refine ⟨0, s, Nat.le_refl 0, .none s, ?_⟩
    by_cases h : s.decryptOnce.1 = .ok .renegotiate
    · have hd : s.decryptOnce = (.ok .renegotiate, s.decryptOnce.2) := Prod.ext h rfl
      rw [decryptAvailable_of_overrun hd]
      exact .overrun hd
    · exact decryptAvailable_once 0 h
  | succ admitted ih =>
    by_cases h : s.decryptOnce.1 = .ok .renegotiate
    · have hd : s.decryptOnce = (.ok .renegotiate, s.decryptOnce.2) := Prod.ext h rfl
      rcases hr : s.decryptOnce.2.asked.renegotiate with ⟨ended | a, t⟩
      · refine ⟨0, s, Nat.zero_le _, .none s, ?_⟩
        rw [decryptAvailable_of_ended hd hr]
        exact .stopped hd hr
      · obtain ⟨n, u, hn, hrounds, hlast⟩ := ih t
        refine ⟨n + 1, u, Nat.succ_le_succ hn, .more ⟨h, hr⟩ hrounds, ?_⟩
        rw [decryptAvailable_of_reopened hd hr, Nat.succ_sub_succ]
        exact hlast
    · exact ⟨0, s, Nat.zero_le _, .none s, decryptAvailable_once _ h⟩

/-! ## A read -/

/-- The session that reads from its socket: the connected one, or the one whose handshake ended
well. -/
inductive Ready (s : Session σ ω ε) : Session σ ω ε → Prop where
  | connected (h : s.state = .connected) : Ready s s
  | agreed {t : Session σ ω ε} {v : TlsVersion} (h : s.state.inHandshake = true)
      (hr : s.renegotiating = true) (ht : s.runHandshake = (.ok v, t)) : Ready s t

theorem Ready.state {s t : Session σ ω ε} (h : Ready s t) : t.state = .connected := by
  cases h with
  | connected h => exact h
  | agreed _ _ ht => exact runHandshake_ok ht

/-- The ways in which a connected session reads from its socket and goes on. -/
inductive ReceiveCase (s : Session σ ω ε) (max : Nat) :
    Status Bytes Unit × Session σ ω ε → Prop where
  | failed {t : Session σ ω ε} {e : IoError}
      (h : s.fillRaw (Nat.max max maxRecordLength) = (.error e, t)) (hb : e.isBlock = false) :
      ReceiveCase s max (.error (), t.fail (.io e))
  | ended {t : Session σ ω ε} (h : s.fillRaw (Nat.max max maxRecordLength) = (.ok [], t)) :
      ReceiveCase s max ({ t with eof := true }.decryptAndFinish max)
  | arrived {t : Session σ ω ε} {answer : Except IoError Bytes}
      (h : s.fillRaw (Nat.max max maxRecordLength) = (answer, t)) (hne : answer ≠ .ok [])
      (hb : ∀ e, answer = .error e → e.isBlock = true) :
      ReceiveCase s max (t.decryptAndFinish max)

theorem receive_case (s : Session σ ω ε) (max : Nat) : ReceiveCase s max (s.receive max) := by
  unfold receive
  rcases h : s.fillRaw (Nat.max max maxRecordLength) with ⟨e | _ | ⟨b, rest⟩, t⟩
  · simp only
    cases hb : e.isBlock with
    | false => exact .failed h hb
    | true =>
      apply ReceiveCase.arrived h (by simp)
      intro e' he
      injection he with he
      rwa [← he]
  · exact .ended h
  · exact .arrived h (by simp) (by simp)

/-- The ways in which a read goes. -/
inductive ReadCase (s : Session σ ω ε) (max : Nat) : Status Bytes Unit × Session σ ω ε → Prop where
  | nothing (h : max = 0) : ReadCase s max (.ok [], s)
  | buffered (h : s.plaintext.isEmpty = false) : ReadCase s max (s.takePlaintext max)
  | received {t : Session σ ω ε} (hp : s.plaintext.isEmpty = true) (ht : Ready s t) :
      ReadCase s max (t.receive max)
  | waits {t : Session σ ω ε} (h : s.state.inHandshake = true) (hr : s.renegotiating = true)
      (ht : s.runHandshake = (.wouldBlock, t)) : ReadCase s max (.wouldBlock, t)
  | failed {t : Session σ ω ε} (h : s.state.inHandshake = true) (hr : s.renegotiating = true)
      (ht : s.runHandshake = (.error (), t)) : ReadCase s max (.error (), t)
  | parted (h : s.state = .closing ∨ s.state = .closed) : ReadCase s max (.ok [], s)
  | lost (h : s.state = .error) : ReadCase s max (.error (), s)
  | refused (h : s.state ≠ .closed) : ReadCase s max (.error (), s.fail (.misuse (.readIn s.state)))

theorem readData_case (s : Session σ ω ε) (max : Nat) : ReadCase s max (s.readData max) := by
  unfold readData
  by_cases hmax : max = 0
  · rw [if_pos hmax]
    exact .nothing hmax
  rw [if_neg hmax]
  cases hp : s.plaintext.isEmpty with
  | false => exact .buffered hp
  | true =>
    simp only [Bool.not_true, Bool.false_eq_true, if_false]
    by_cases hs : s.state = .connected
    · rw [if_pos hs]
      exact .received hp (.connected hs)
    rw [if_neg hs]
    by_cases hh : (s.state.inHandshake && s.renegotiating) = true
    · rw [if_pos hh]
      obtain ⟨hin, hre⟩ := Bool.and_eq_true_iff.1 hh
      rcases hr : s.runHandshake with ⟨v | _ | _, t⟩
      · exact .received hp (.agreed hin hre hr)
      · exact .waits hin hre hr
      · exact .failed hin hre hr
    rw [if_neg hh]
    by_cases hgone : s.state = .closing ∨ s.state = .closed
    · rw [if_pos hgone]
      exact .parted hgone
    rw [if_neg hgone]
    by_cases herr : s.state = .error
    · rw [if_pos herr]
      exact .lost herr
    · rw [if_neg herr]
      exact .refused fun h => hgone (.inr h)

/-! ## Decryptions -/

end Session

/-- The answer of an engine that was given something to decrypt. -/
def EngineCall.decryption : EngineCall ε → List (Except ε DecryptStop)
  | decrypt _ _ _ answer => [answer]
  | _ => []

theorem Event.no_decryption {state : SessionState} {e : Event ε} (he : e.fits state = true)
    (hs : state ≠ .connected) : Event.ofEngine EngineCall.decryption e = [] := by
  rcases e with call | _ | _
  · cases call with
    | decrypt =>
      have hstate : state = .connected := by simpa [Event.fits] using he
      exact absurd hstate hs
    | _ => rfl
  · rfl
  · rfl

namespace Session

/-- The answers of the engine to what it was given to decrypt, oldest first. -/
def decryptions (s : Session σ ω ε) : List (Except ε DecryptStop) :=
  gather (Event.ofEngine EngineCall.decryption) s.journal

theorem decryptions_of_grows {s t : Session σ ω ε}
    (h : Grows (fun e => Event.ofEngine EngineCall.decryption e = []) s t) :
    t.decryptions = s.decryptions := h.gather _

theorem decryptions_of_adds {state : SessionState} {s t : Session σ ω ε} (h : Adds state s t)
    (hs : state ≠ .connected) : t.decryptions = s.decryptions := by
  have hgrow : Grows (fun e => e.fits state = true) s t := h
  exact decryptions_of_grows (hgrow.mono fun e he => e.no_decryption he hs)

theorem decryptions_of_silent {s t : Session σ ω ε} (h : Silent s t) :
    t.decryptions = s.decryptions := h.gather_engine _

section Moves

variable [Socket ω]

theorem decryptions_flushPending (s : Session σ ω ε) :
    s.flushPending.2.decryptions = s.decryptions :=
  decryptions_of_grows (.flushPending (fun _ => rfl) s)

theorem decryptions_flushBestEffort (s : Session σ ω ε) :
    s.flushBestEffort.decryptions = s.decryptions :=
  decryptions_of_grows (.flushBestEffort (fun _ => rfl) s)

theorem decryptions_fillRaw (s : Session σ ω ε) (max : Nat) :
    (s.fillRaw max).2.decryptions = s.decryptions :=
  decryptions_of_grows (.fillRaw (fun _ => rfl) s max)

theorem decryptions_leave (s : Session σ ω ε) : s.leave.decryptions = s.decryptions :=
  decryptions_of_grows (.leave (fun _ => rfl) (fun _ _ => rfl) s)

end Moves

variable [Engine σ ε]

theorem decryptions_decryptOnce (s : Session σ ω ε) :
    s.decryptOnce.2.decryptions = s.decryptions ++ [s.decryptOnce.1] := gather_cons ..

theorem decryptions_notifyClose (s : Session σ ω ε) :
    s.notifyClose.2.decryptions = s.decryptions :=
  (gather_cons ..).trans (List.append_nil _)

variable [Socket ω]

theorem decryptions_processHandshake (s : Session σ ω ε) :
    s.processHandshake.2.decryptions = s.decryptions :=
  decryptions_of_adds (Adds.processHandshake s (.inl rfl)) (by simp)

theorem decryptions_runHandshake {s : Session σ ω ε} (h : s.MayStep) :
    s.runHandshake.2.decryptions = s.decryptions := by
  fun_induction runHandshake s with
  | case1 s s' hs ih =>
    have hadds := Adds.step s
    rw [hs] at hadds
    rw [ih (.inl (step_proceed hs))]
    apply decryptions_of_adds hadds
    intro hconn
    rcases h with h | ⟨h, -⟩ <;> rw [hconn] at h <;> cases h
  | case2 s status s' hs =>
    have hadds := Adds.step s
    rw [hs] at hadds
    apply decryptions_of_adds hadds
    intro hconn
    rcases h with h | ⟨h, -⟩ <;> rw [hconn] at h <;> cases h

theorem decryptions_answerClose (s : Session σ ω ε) :
    s.answerClose.decryptions = s.decryptions := by
  have hseen : { s.note .peerClosed with peerClosed := true }.decryptions = s.decryptions :=
    (Silent.note s .peerClosed).gather_engine _
  have hnotify := decryptions_notifyClose { s.note .peerClosed with peerClosed := true }
  unfold answerClose
  rcases h : notifyClose { s.note .peerClosed with peerClosed := true } with ⟨answer, t⟩
  rw [h] at hnotify
  have ht : t.decryptions = s.decryptions := hnotify.trans hseen
  cases answer with
  | ok _ => exact (decryptions_leave t).trans ht
  | error e =>
    rw [← ht, ← decryptions_of_silent (.note t (.replyFailed e))]
    exact decryptions_leave _

theorem decryptions_renegotiate (s : Session σ ω ε) :
    s.renegotiate.2.decryptions = s.decryptions := by
  have hopen : s.reopen.decryptions = s.decryptions := decryptions_of_silent (.reopen s)
  have hfirst := (decryptions_processHandshake s.reopen).trans hopen
  rcases s.renegotiate_left with h | ⟨t, ht, h⟩
  · rw [h]
    exact hfirst
  · rw [ht] at hfirst
    rw [h, decryptions_runHandshake (.inl (processHandshake_goesOn ht))]
    exact hfirst

/-- Every round asks the engine once, and it answers that the peer wants a new handshake. -/
theorem Rounds.decryptions {n : Nat} {s t : Session σ ω ε} (h : Rounds n s t) :
    t.decryptions = s.decryptions ++ List.replicate n (.ok .renegotiate) := by
  induction h with
  | none s => exact (List.append_nil _).symm
  | @more n s t u h _ ih =>
    have hround : t.decryptions = s.decryptions ++ [.ok .renegotiate] := by
      have hre := decryptions_renegotiate s.decryptOnce.2.asked
      rw [h.done] at hre
      rw [hre, ← h.request]
      exact decryptions_decryptOnce s
    rw [ih, hround, List.append_assoc]
    rfl

/-- The last round asks the engine once, too. -/
theorem LastRound.decryptions {n : Nat} {s : Session σ ω ε}
    {r : Option (Status Bytes Unit) × Session σ ω ε} (h : LastRound s n r) :
    r.2.decryptions = s.decryptions ++ [s.decryptOnce.1] := by
  have honce : ∀ {t : Session σ ω ε} {answer}, s.decryptOnce = (answer, t) →
      t.decryptions = s.decryptions ++ [s.decryptOnce.1] := by
    intro t answer hd
    rw [← decryptions_decryptOnce, hd]
  cases h with
  | drained hd => exact honce hd
  | noticed hd => exact (decryptions_answerClose _).trans (honce hd)
  | refused hd =>
    rw [decryptions_flushBestEffort, decryptions_of_silent (.fail _ _)]
    exact honce hd
  | overrun hd =>
    have ht := honce hd
    rw [decryptions_of_silent (.fail _ _)]
    exact ht
  | stopped hd hr =>
    have ht := honce hd
    have hre := decryptions_renegotiate s.decryptOnce.2.asked
    rw [hd, hr] at hre
    exact hre.trans ht

/-- A row of rounds is a chain of turns, each of which counts a renegotiation. -/
theorem Rounds.turns (max : Nat) {n : Nat} {s t : Session σ ω ε} (h : Rounds n s t)
    (hs : s.state = .connected) (hn : n ≤ maxRenegotiations - s.renegotiations) :
    Turns (.read max) s t ∧ t.state = .connected ∧ t.renegotiations = s.renegotiations + n := by
  induction h with
  | none s => exact ⟨.refl, hs, rfl⟩
  | @more n s t u h _ ih =>
    have hopen : Turn (.read max) s s.decryptOnce.2.asked.reopen :=
      .reopen hs h.request (by omega)
    obtain ⟨hchain, hconn, hcount⟩ := renegotiate_turns max h.done
    have hcount : t.renegotiations = s.renegotiations + 1 := hcount
    obtain ⟨hrest, hu, hcount'⟩ := ih (hconn () rfl) (by omega)
    exact ⟨.head hopen (hchain.trans hrest), hu, by omega⟩

/-! ### Within a read -/

omit [Engine σ ε] [Socket ω] in
theorem decryptions_answerRead (s : Session σ ω ε) (max : Nat) :
    (s.answerRead max).2.decryptions = s.decryptions := by
  unfold answerRead
  split
  · rfl
  split
  · rfl
  split
  · exact decryptions_of_silent (.fail _ _)
  · rfl

omit [Engine σ ε] in
theorem decryptions_finishRead (s : Session σ ω ε) (max : Nat) :
    (s.finishRead max).2.decryptions = s.decryptions := by
  have hflush := s.decryptions_flushPending
  unfold finishRead
  split
  · exact decryptions_answerRead s max
  · rcases h : s.flushPending with ⟨e | _, t⟩
    · rw [h] at hflush
      exact (decryptions_of_silent (.fail _ _)).trans hflush
    · rw [h] at hflush
      exact (decryptions_answerRead t max).trans hflush

/-- All that the engine is asked to decrypt once the socket was read: once in each round. -/
theorem decryptAndFinish_rounds (s : Session σ ω ε) (max : Nat) : ∃ n t,
    n ≤ maxRenegotiations - s.renegotiations ∧ Rounds n s t ∧
    LastRound t (maxRenegotiations - s.renegotiations - n)
      (decryptAvailable (maxRenegotiations - s.renegotiations) s) ∧
    (s.decryptAndFinish max).2.decryptions =
      s.decryptions ++ (List.replicate n (.ok .renegotiate) ++ [t.decryptOnce.1]) := by
  obtain ⟨n, t, hn, hrounds, hlast⟩ :=
    decryptAvailable_rounds (maxRenegotiations - s.renegotiations) s
  refine ⟨n, t, hn, hrounds, hlast, ?_⟩
  have hsame := hlast.decryptions
  rw [hrounds.decryptions, List.append_assoc] at hsame
  rw [← hsame]
  unfold decryptAndFinish
  rcases decryptAvailable (maxRenegotiations - s.renegotiations) s with ⟨_ | status, u⟩
  · exact decryptions_finishRead u max
  · rfl

/-- A session that is about to decrypt within a read, and what the read did before. -/
structure Opened (max : Nat) (s t : Session σ ω ε) : Prop where
  turns : Turns (.read max) s t
  connected : t.state = .connected
  renegotiations : t.renegotiations = s.renegotiations
  decryptions : t.decryptions = s.decryptions

theorem Ready.opened (max : Nat) {s t : Session σ ω ε} (h : Ready s t) : Opened max s t := by
  cases h with
  | connected h => exact ⟨.refl, h, rfl, rfl⟩
  | agreed h _ ht =>
    have hchain := runHandshake_turns (.read max) (.inl h)
    have hkeep := (Steady.runHandshake s).renegotiations
    have hsame := decryptions_runHandshake (.inl h)
    rw [ht] at hchain hkeep hsame
    exact ⟨hchain, runHandshake_ok ht, hkeep, hsame⟩

theorem Opened.filled {max : Nat} {s t u : Session σ ω ε} {answer : Except IoError Bytes}
    (h : Opened max s t) (hf : t.fillRaw (Nat.max max maxRecordLength) = (answer, u)) :
    Opened max s u := by
  have hu : u = (t.fillRaw (Nat.max max maxRecordLength)).2 := by rw [hf]
  have hturn : Turn (.read max) t u := hu ▸ .fill h.connected
  refine ⟨h.turns.tail hturn, ?_, ?_, ?_⟩
  · rw [hu, state_fillRaw, h.connected]
  · rw [hu, (Steady.fillRaw t _).renegotiations, h.renegotiations]
  · rw [hu, decryptions_fillRaw, h.decryptions]

theorem Opened.sawEnd {max : Nat} {s t : Session σ ω ε} (h : Opened max s t) :
    Opened max s { t with eof := true } :=
  ⟨h.turns.tail (.sawEnd h.connected), h.connected, h.renegotiations, h.decryptions⟩

/-- A read asks the engine for nothing, or it answers as decryption leads it to. -/
theorem readData_opened (s : Session σ ω ε) (max : Nat) :
    (s.readData max).2.decryptions = s.decryptions ∨
    ∃ t, Opened max s t ∧ s.readData max = t.decryptAndFinish max := by
  generalize hr : s.readData max = r
  have hcase := s.readData_case max
  rw [hr] at hcase
  cases hcase with
  | nothing | buffered | parted | lost => exact .inl rfl
  | waits h _ ht | failed h _ ht =>
    have hsame := decryptions_runHandshake (.inl h)
    rw [ht] at hsame
    exact .inl hsame
  | refused => exact .inl (decryptions_of_silent (.fail _ _))
  | @received t _ ht =>
    have hopen := ht.opened max
    generalize hq : t.receive max = q
    have hcase := t.receive_case max
    rw [hq] at hcase
    cases hcase with
    | failed hf =>
      exact .inl ((decryptions_of_silent (.fail _ _)).trans (hopen.filled hf).decryptions)
    | ended hf => exact .inr ⟨_, (hopen.filled hf).sawEnd, rfl⟩
    | arrived hf => exact .inr ⟨_, hopen.filled hf, rfl⟩

end Session
end TlsTransport
