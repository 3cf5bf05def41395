import TlsTransport.Proofs.Session.Entries

/-! # What becomes of a write that waits

Between two calls that write, a session reads, shakes hands again and fails. None of this encrypts a
piece of a payload, and the record of the write that waits stays as it is, or the session has failed
and never connects again.

* `Session.mismatches`: how often a write was repeated with other bytes.
* `Rests`: what one or more turns without a write leave; `Turns.rests`, `Session.perform_rests`.
-/

namespace TlsTransport

variable {σ ω ε α : Type}

/-- A report of a write that was repeated with other bytes. -/
def Event.mismatch : Event ε → List Unit
  | .notice (.failed _ .otherPayload) => [()]
  | _ => []

theorem mismatch_failed (state : SessionState) {f : Failure ε} (h : f ≠ .otherPayload) :
    Event.mismatch (.notice (.failed state f)) = [] := by
  cases f <;> first | rfl | exact absurd rfl h

theorem gather_mismatch_of_sockets (calls : List SocketCall) :
    gather (Event.mismatch (ε := ε)) (calls.map Event.socket).reverse = [] := by
  simp [gather, List.flatMap_map, Event.mismatch]

namespace Session

/-- How often a write was repeated with other bytes. -/
def mismatches (s : Session σ ω ε) : Nat := (gather Event.mismatch s.journal).length

/-- The session will never be connected again. -/
def Spent (s : Session σ ω ε) : Prop := s.state.begun = true ∧ s.state.live = false

/-- A write that waits goes on waiting, and nothing was encrypted. -/
structure Keeps (s t : Session σ ω ε) : Prop where
  encryptions : t.encryptions = s.encryptions
  mismatches : t.mismatches = s.mismatches
  inFlight : t.inFlight = s.inFlight

/-- Nothing was encrypted, and a write that waits goes on waiting or was given up for good. -/
structure Rests (s t : Session σ ω ε) : Prop where
  encryptions : t.encryptions = s.encryptions
  mismatches : t.mismatches = s.mismatches
  inFlight : t.inFlight = s.inFlight ∨ t.inFlight = none ∧ t.Spent

namespace Keeps

variable {s t u : Session σ ω ε}

theorem refl (s : Session σ ω ε) : Keeps s s := ⟨rfl, rfl, rfl⟩

theorem trans (h : Keeps s t) (k : Keeps t u) : Keeps s u :=
  ⟨k.encryptions.trans h.encryptions, k.mismatches.trans h.mismatches,
    k.inFlight.trans h.inFlight⟩

theorem rests (h : Keeps s t) (k : Rests t u) : Rests s u where
  encryptions := k.encryptions.trans h.encryptions
  mismatches := k.mismatches.trans h.mismatches
  inFlight := by
    rw [← h.inFlight]
    exact k.inFlight

theorem toRests (h : Keeps s t) : Rests s t := ⟨h.encryptions, h.mismatches, .inl h.inFlight⟩

/-- What was added to the journal is neither an encryption nor a mismatch. -/
theorem of_journal (newer : List (Event ε)) (hj : t.journal = newer ++ s.journal)
    (he : gather (Event.ofEngine EngineCall.encryption) newer = [])
    (hm : gather Event.mismatch newer = []) (hf : t.inFlight = s.inFlight) : Keeps s t := by
  refine ⟨?_, ?_, hf⟩
  · rw [Session.encryptions, Session.encryptions, hj, gather_append, he, List.append_nil]
  · rw [Session.mismatches, Session.mismatches, hj, gather_append, hm, List.append_nil]

theorem of_call {call : EngineCall ε} (hj : t.journal = .engine call :: s.journal)
    (he : call.encryption = []) (hf : t.inFlight = s.inFlight) : Keeps s t :=
  of_journal [.engine call] hj (by simpa [Event.ofEngine] using he)
    (by simp [Event.mismatch]) hf

theorem note (s : Session σ ω ε) {n : Notice ε} (h : Event.mismatch (Event.notice n) = []) :
    Keeps s (s.note n) :=
  of_journal [.notice n] rfl (by simp [Event.ofEngine]) (by simpa using h) rfl

theorem setState (s : Session σ ω ε) (next : SessionState) : Keeps s (s.setState next) := by
  rw [setState_eq]
  by_cases h : s.state = next
  · exact of_journal [] (if_pos h) rfl rfl rfl
  · exact of_journal [.notice (.stateChanged s.state next)] (if_neg h) rfl rfl rfl

theorem reopen (s : Session σ ω ε) : Keeps s s.reopen := by
  have hflags : Keeps (s.note (.renegotiationRequested s.renegotiations))
      { s.note (.renegotiationRequested s.renegotiations) with
        renegotiating := true, handshakeComplete := false } := ⟨rfl, rfl, rfl⟩
  exact ((note s rfl).trans hflags).trans (setState _ _)

theorem connectedAs [Engine σ ε] (s : Session σ ω ε) (v : TlsVersion) :
    Keeps s (s.connectedAs v) := by
  obtain ⟨remarks, hremarks, h⟩ := s.connectedAs_frame v
  have hm : gather Event.mismatch (remarks.map Event.notice) = [] := by
    rw [gather, List.flatMap_eq_nil_iff]
    intro e hmem
    obtain ⟨n, hn, rfl⟩ := List.mem_map.1 (List.mem_reverse.1 hmem)
    rcases hremarks n hn with rfl | rfl | rfl <;> rfl
  have he := gather_engine_of_notices (EngineCall.encryption (ε := ε)) remarks
  rw [h]
  by_cases hs : s.state = .connected
  · exact of_journal _ (if_pos hs) he hm rfl
  · refine of_journal (.notice (.stateChanged s.state .connected) ::
      remarks.map Event.notice) (if_neg hs) ?_ ?_ rfl
    · rw [gather_cons, he]
      rfl
    · rw [gather_cons, hm]
      rfl

section Moves

variable [Socket ω]

theorem flushPending (s : Session σ ω ε) : Keeps s s.flushPending.2 := by
  obtain ⟨k, b, calls, h⟩ := s.flushPending_frame
  rw [h]
  exact of_journal _ rfl (gather_engine_of_socket _ _) (gather_mismatch_of_sockets _) rfl

theorem of_flushed {answer : Except IoError Bool} (h : s.flushPending = (answer, t)) :
    Keeps s t := by
  have hk := flushPending s
  rwa [h] at hk

theorem fillRaw (s : Session σ ω ε) (max : Nat) : Keeps s (s.fillRaw max).2 := by
  obtain ⟨k, b, calls, h⟩ := s.fillRaw_frame max
  rw [h]
  exact of_journal _ rfl (gather_engine_of_socket _ _) (gather_mismatch_of_sockets _) rfl

theorem flushBestEffort (s : Session σ ω ε) : Keeps s s.flushBestEffort := by
  unfold Session.flushBestEffort
  split
  · exact flushPending s
  · exact refl s

end Moves
end Keeps

theorem fail_spent (s : Session σ ω ε) (f : Failure ε) : (s.fail f).Spent := by
  rcases s.fail_state f with h | ⟨h, -⟩ <;> exact ⟨by rw [h]; rfl, by rw [h]; rfl⟩

theorem fail_inFlight (s : Session σ ω ε) (f : Failure ε) : (s.fail f).inFlight = none := by
  rw [fail_eq]

namespace Rests

variable {s t u : Session σ ω ε}

theorem fail (s : Session σ ω ε) {f : Failure ε} (h : f ≠ .otherPayload) :
    Rests s (s.fail f) := by
  have hquiet := Silent.fail s f
  refine ⟨hquiet.gather_engine _, ?_, .inr ⟨s.fail_inFlight f, s.fail_spent f⟩⟩
  have hm := mismatch_failed s.state h
  rw [fail_eq, Session.mismatches, Session.mismatches]
  by_cases hs : s.state = .closed ∨ s.state = .error
  · simp only [if_pos hs, gather_cons, hm, List.append_nil]
  · simp only [if_neg hs, gather_cons, hm, List.append_nil]
    exact congrArg List.length (List.append_nil _)

/-- Writing out what can be written after a failure changes nothing about a write. -/
theorem flushed [Socket ω] (h : Rests s t) : Rests s t.flushBestEffort where
  encryptions := (Keeps.flushBestEffort t).encryptions.trans h.encryptions
  mismatches := (Keeps.flushBestEffort t).mismatches.trans h.mismatches
  inFlight := by
    have hspent : t.Spent → t.flushBestEffort.Spent := fun hs => by
      rw [Spent, state_flushBestEffort]
      exact hs
    rw [(Keeps.flushBestEffort t).inFlight]
    exact h.inFlight.imp id fun ⟨hn, hs⟩ => ⟨hn, hspent hs⟩

variable [Engine σ ε] [Socket ω]

theorem processHandshake (s : Session σ ω ε) : Rests s s.processHandshake.2 := by
  have honce : Keeps s s.handshakeOnce.2 := .of_call rfl rfl rfl
  rcases s.processHandshake_cases with ⟨e, -, he⟩ | ⟨progress, t, -, ht, hu⟩
  · rw [he]
    exact honce.rests (fail s.handshakeOnce.2 (by simp)).flushed
  · have hflag : Keeps s.handshakeOnce.2 t := by
      rw [ht]
      exact ⟨rfl, rfl, rfl⟩
    rw [hu]
    exact (honce.trans (hflag.trans (.setState _ _))).toRests

theorem step (s : Session σ ω ε) : Rests s s.step.2 := by
  have hstart : Keeps s s.startEngine.2 := .of_call rfl rfl rfl
  generalize hr : s.step = r
  have hcase := s.step_case
  rw [hr] at hcase
  cases hcase with
  | startFailed => exact hstart.rests (fail _ (by simp))
  | started =>
    have hready : Keeps s.startEngine.2 { s.startEngine.2 with handshakeComplete := false } :=
      ⟨rfl, rfl, rfl⟩
    exact (hstart.trans hready).rests (processHandshake _)
  | sent => exact ((Keeps.flushPending s).trans (.setState _ _)).toRests
  | sendBlocked => exact (Keeps.flushPending s).toRests
  | sendFailed => exact (Keeps.flushPending s).rests (fail _ (by simp))
  | ended => exact (Keeps.fillRaw s _).rests (fail _ (by simp))
  | arrived => exact (Keeps.fillRaw s _).rests (processHandshake _)
  | waits => exact (Keeps.fillRaw s _).toRests
  | receiveFailed => exact (Keeps.fillRaw s _).rests (fail _ (by simp))
  | finish =>
    rcases s.finishHandshake_cases with ⟨-, f, hf, he⟩ | ⟨-, v, -, hv⟩
    · rw [he]
      exact fail s hf
    · rw [hv]
      exact (Keeps.connectedAs s v).toRests
  | agreed => exact (Keeps.refl s).toRests
  | refused => exact fail s (by simp)

end Rests

end Session

/-! ## Turns without a write -/

/-- The calls that neither write nor close. -/
def Call.standsBy : Call ω → Prop
  | .write _ | .close => False
  | _ => True

section Turning

open Session

variable [Engine σ ε] [Socket ω] {c : Call ω} {s t : Session σ ω ε}

theorem Turn.rests (h : Turn c s t) (hc : c.standsBy) : Rests s t := by
  have hcounted : Keeps s { s.decryptOnce.2 with renegotiations := s.renegotiations + 1 } :=
    .of_call rfl rfl rfl
  cases h with
  | bind k =>
    have hbound : Keeps s { s with socket := some k } := ⟨rfl, rfl, rfl⟩
    exact (hbound.trans (.setState _ _)).toRests
  | nameServer | nameHost | outside | sawEnd => exact ⟨rfl, rfl, .inl rfl⟩
  | step => exact .step s
  | decrypt =>
    have hcall : Keeps s s.decryptOnce.2 := .of_call rfl rfl rfl
    exact hcall.toRests
  | notify =>
    have hcall : Keeps s s.notifyClose.2 := .of_call rfl rfl rfl
    exact hcall.toRests
  | reopen => exact (hcounted.trans (.reopen _)).toRests
  | overrun => exact hcounted.rests (.fail _ (by simp))
  | resume => exact .processHandshake s
  | fill => exact (Keeps.fillRaw s _).toRests
  | sawClose =>
    have hseen : Keeps (s.note .peerClosed) { s.note .peerClosed with peerClosed := true } :=
      ⟨rfl, rfl, rfl⟩
    exact ((Keeps.note s rfl).trans hseen).toRests
  | encrypt | track | release => cases hc
  | withdraw => exact (Keeps.setState s _).toRests
  | flush => exact (Keeps.flushPending s).toRests
  | remark n hn => exact (Keeps.note s (by cases n <;> first | rfl | cases hn)).toRests
  | fail f hf =>
    refine .fail s fun h => ?_
    obtain ⟨payload, rfl⟩ := hf h
    cases hc

theorem Turn.spent (h : Turn c s t) (hs : s.Spent) : t.Spent := by
  refine ⟨h.begun hs.1, ?_⟩
  cases hl : t.state.live with
  | false => rfl
  | true =>
    obtain ⟨-, hlive | ⟨hinit, -⟩⟩ := h.live hl
    · have := hs.2
      rw [hlive] at this
      cases this
    · have := hs.1
      rw [hinit] at this
      cases this

theorem Turns.spent (h : Turns c s t) (hs : s.Spent) : t.Spent := by
  induction h with
  | refl => exact hs
  | tail _ hlast ih => exact hlast.spent ih

theorem Turns.rests (h : Turns c s t) (hc : c.standsBy) : Rests s t := by
  induction h with
  | refl => exact (Keeps.refl s).toRests
  | tail _ hlast ih =>
    have hturn := hlast.rests hc
    refine ⟨hturn.encryptions.trans ih.encryptions, hturn.mismatches.trans ih.mismatches, ?_⟩
    rcases hturn.inFlight with hsame | hspent
    · rw [hsame]
      exact ih.inFlight.imp id fun ⟨hn, hs⟩ => ⟨hn, hlast.spent hs⟩
    · exact .inr hspent

end Turning

namespace Session

variable [Engine σ ε] [Socket ω]

theorem perform_rests (s : Session σ ω ε) {c : Call ω} (hc : c.standsBy) :
    Rests s (s.perform c).2 := by
  obtain ⟨t, ht, hout⟩ := s.perform_turns c
  have hrests := ht.rests hc
  rw [hout.frame]
  exact ⟨hrests.encryptions, hrests.mismatches, hrests.inFlight⟩

theorem perform_spent {s : Session σ ω ε} (h : s.Spent) (c : Call ω) : (s.perform c).2.Spent := by
  obtain ⟨t, ht, hout⟩ := s.perform_turns c
  have hspent := Turns.spent ht h
  rw [hout.frame]
  exact hspent

/-- Only a write answers that something was written. -/
theorem perform_not_wrote (s : Session σ ω ε) {c : Call ω} (hc : c.standsBy) (n : Nat) :
    (s.perform c).1 ≠ .wrote (.ok n) := by
  cases c with
  | write | close => cases hc
  | _ => simp [perform]

theorem runHandshake_rests {s : Session σ ω ε} (h : s.MayStep) : Rests s s.runHandshake.2 :=
  (runHandshake_turns .accept h).rests trivial

end Session
end TlsTransport
