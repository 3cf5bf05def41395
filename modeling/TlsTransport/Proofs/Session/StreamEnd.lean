import TlsTransport.Proofs.Session.Rounds
import TlsTransport.Proofs.Session.Terminal
import TlsTransport.Proofs.Session.Truncation

/-! # The end of the stream comes after the data

A read answers the end of the stream with a failure, and only if there is nothing decrypted to hand
out. It looks for the end last, so every byte decrypted before was handed out by then. A handshake
meets the end on its own and fails at once. When a read resumes a handshake this is the same, since
the read hands out what is decrypted first; but a handshake that begins within a read stands between
the decryption of that read and its answer, and what the read decrypted stays behind in the buffer.

* `Session.CutOff`: the stream ended in a handshake for which the peer asked within a read.
* `Session.readData_eof`: what a read that fails at the end of the stream leaves behind.
* `Session.eof_after_data`: over a whole run, every byte decrypted before was handed out.
-/

namespace TlsTransport.Session

variable {σ ω ε : Type}

/-! ## Failing -/

section Failing

variable {s t : Session σ ω ε}

/-- A failure of another kind is not the end of the stream. -/
theorem fail_ne_eof {f : Failure ε} (hf : f ≠ .eof) : (s.fail f).lastFailure ≠ some .eof := by
  rw [lastFailure_fail]
  exact fun h => hf (Option.some.inj h)

theorem lastFailure_flushBestEffort [Socket ω] (s : Session σ ω ε) :
    s.flushBestEffort.lastFailure = s.lastFailure := by
  obtain ⟨k, b, calls, h⟩ := s.flushBestEffort_frame
  rw [h]

variable [Engine σ ε] [Socket ω]

/-- An engine that fails in a handshake is not the end of the stream. -/
theorem processHandshake_ne_eof {status : Status TlsVersion Unit}
    (h : s.processHandshake = (.yield status, t)) : t.lastFailure ≠ some .eof := by
  rcases s.processHandshake_cases with ⟨e, -, he⟩ | ⟨progress, u, -, -, hu⟩
  · rw [he] at h
    injection h with _ ht
    rw [← ht, lastFailure_flushBestEffort]
    exact fail_ne_eof (by simp)
  · rw [hu] at h
    cases h

theorem plaintext_renegotiate (s : Session σ ω ε) : s.renegotiate.2.plaintext = s.plaintext := by
  have hopen : s.reopen.plaintext = s.plaintext := by rw [reopen_eq]
  have hfirst := (Steady.processHandshake s.reopen).plaintext.trans hopen
  rcases s.renegotiate_left with h | ⟨u, hu, h⟩
  · rw [h]
    exact hfirst
  · rw [hu] at hfirst
    rw [h, (Steady.runHandshake u).plaintext]
    exact hfirst

end Failing

/-! ## Answering a read -/

section Answering

variable {s : Session σ ω ε} {max : Nat}

/-- What is decrypted is handed out first. -/
theorem answerRead_failed (h : (s.answerRead max).1 = .error ()) :
    (s.answerRead max).2.plaintext.data = [] := by
  unfold answerRead at h ⊢
  cases hp : s.plaintext.isEmpty with
  | false =>
    simp only [hp, Bool.not_false, if_true] at h
    cases h
  | true =>
    have hempty := s.plaintext.isEmpty_iff.1 hp
    simp only [Bool.not_true, Bool.false_eq_true, if_false]
    split
    · exact hempty
    split
    · rw [(Steady.fail s .eof).plaintext]
      exact hempty
    · exact hempty

theorem finishRead_eof [Socket ω] (h : (s.finishRead max).1 = .error ())
    (he : (s.finishRead max).2.lastFailure = some .eof) :
    (s.finishRead max).2.plaintext.data = [] := by
  unfold finishRead at h he ⊢
  split at h
  · rename_i hp
    rw [if_pos hp]
    exact answerRead_failed h
  · rename_i hp
    rw [if_neg hp] at he ⊢
    rcases hf : s.flushPending with ⟨e | all, t⟩
    · rw [hf] at he
      exact absurd he (fail_ne_eof (by simp))
    · rw [hf] at h
      exact answerRead_failed h

variable [Engine σ ε] [Socket ω]

/-- A read hands out what is decrypted before it does anything else. -/
theorem readData_failed (h : (s.readData max).1 = .error ()) : s.plaintext.data = [] := by
  cases hp : s.plaintext.isEmpty with
  | true => exact s.plaintext.isEmpty_iff.1 hp
  | false =>
    by_cases hmax : max = 0
    · simp only [readData, hmax, if_true] at h
      cases h
    · simp only [readData, hmax, if_false, hp, Bool.not_false, if_true] at h
      cases h

end Answering

/-! ## A handshake that begins within a read -/

section Reading

variable [Engine σ ε] [Socket ω] {s t : Session σ ω ε} {max : Nat}

/-- A new handshake that fails at the end of the stream got past its first call of the engine. -/
theorem renegotiate_eof (h : s.renegotiate = (.error (some (.error ())), t))
    (he : t.lastFailure = some .eof) :
    ∃ u, s.reopen.processHandshake = (.proceed, u) ∧ u.runHandshake = (.error (), t) := by
  generalize hr : s.renegotiate = r at h
  have hcase := s.renegotiate_case
  rw [hr] at hcase
  cases hcase with
  | refused hp =>
    injection h with _ ht
    rw [← ht] at he
    exact absurd he (processHandshake_ne_eof hp)
  | done => cases h
  | failed hp hrun =>
    injection h with _ ht
    exact ⟨_, hp, ht ▸ hrun⟩
  | waits =>
    injection h with hended
    split at hended <;> cases hended

/-- Decryption meets the end of the stream only in a handshake for which the peer asked. -/
theorem LastRound.of_eof {n : Nat} {status : Status Bytes Unit}
    (h : LastRound s n (some status, t)) (hstatus : status = .error ())
    (he : t.lastFailure = some .eof) : s.decryptOnce.1 = .ok .renegotiate ∧
      s.decryptOnce.2.asked.renegotiate = (.error (some (.error ())), t) := by
  cases h with
  | refused hd =>
    rw [lastFailure_flushBestEffort] at he
    exact absurd he (fail_ne_eof (by simp))
  | overrun hd => exact absurd he (fail_ne_eof (by simp))
  | stopped hd hr =>
    rw [hstatus] at hr
    rw [hd]
    exact ⟨rfl, hr⟩

/-- The read of `s` that ended in `t` was cut off at `v`: there decryption stopped because the peer
asked for a new handshake, and the stream ended in that. -/
structure CutOff (max : Nat) (s v t : Session σ ω ε) : Prop where
  turns : Turns (.read max) s v
  connected : v.state = .connected
  request : v.decryptOnce.1 = .ok .renegotiate
  handshake : ∃ u, v.decryptOnce.2.asked.reopen.processHandshake = (.proceed, u) ∧
    u.runHandshake = (.error (), t)
  /-- What was decrypted so far stays in the buffer. -/
  plaintext : t.plaintext = v.decryptOnce.2.plaintext
  /-- The peer asked for nothing but handshakes; those before the last came to their end. -/
  answers : ∃ n, t.decryptions = s.decryptions ++ List.replicate (n + 1) (.ok .renegotiate)

/-- A read that was about to decrypt and fails at the end of the stream has nothing left, or it was
cut off. -/
theorem Opened.eof {u : Session σ ω ε} (hopen : Opened max s u)
    (h : (u.decryptAndFinish max).1 = .error ())
    (he : (u.decryptAndFinish max).2.lastFailure = some .eof) :
    (u.decryptAndFinish max).2.plaintext.data = [] ∨
      ∃ v, CutOff max s v (u.decryptAndFinish max).2 := by
  obtain ⟨n, v, hn, hrounds, hlast, hasked⟩ := u.decryptAndFinish_rounds max
  unfold decryptAndFinish at h he hasked ⊢
  rcases hd : decryptAvailable (maxRenegotiations - u.renegotiations) u with ⟨_ | status, t⟩
  · rw [hd] at h he
    exact .inl (finishRead_eof h he)
  · rw [hd] at h he hlast hasked
    obtain ⟨hrequest, hcut⟩ := hlast.of_eof h he
    obtain ⟨hchain, hconn, -⟩ := hrounds.turns max hopen.connected hn
    have hplain := plaintext_renegotiate v.decryptOnce.2.asked
    rw [hcut] at hplain
    refine .inr ⟨v, hopen.turns.trans hchain, hconn, hrequest, renegotiate_eof hcut he, hplain, n,
      ?_⟩
    rw [hrequest, ← List.replicate_succ', hopen.decryptions] at hasked
    exact hasked

/-- A read that fails at the end of the stream found nothing to hand out. Afterwards, too, nothing
is left, or the read was cut off by a handshake that began in it. -/
theorem readData_eof (h : (s.readData max).1 = .error ())
    (he : (s.readData max).2.lastFailure = some .eof) : s.plaintext.data = [] ∧
      ((s.readData max).2.plaintext.data = [] ∨ ∃ v, CutOff max s v (s.readData max).2) := by
  have hempty := readData_failed h
  refine ⟨hempty, ?_⟩
  generalize hr : s.readData max = r at h he ⊢
  have hcase := s.readData_case max
  rw [hr] at hcase
  cases hcase with
  | nothing | buffered | waits => cases h
  | parted | lost => exact .inl hempty
  | failed hin _ ht =>
    have hplain := (Steady.runHandshake s).plaintext
    rw [ht] at hplain
    exact .inl (by rw [hplain, hempty])
  | refused => exact absurd he (fail_ne_eof (by simp))
  | @received t _ ht =>
    have hopen := ht.opened max
    generalize hq : t.receive max = q at h he
    have hcase := t.receive_case max
    rw [hq] at hcase
    cases hcase with
    | failed => exact absurd he (fail_ne_eof (by simp))
    | ended hf => exact (hopen.filled hf).sawEnd.eof h he
    | arrived hf => exact (hopen.filled hf).eof h he

end Reading

/-! ## Every run -/

variable [Engine σ ε] [Socket ω]

/-- When a read fails at the end of the stream, every byte that was decrypted before this read was
handed out by the calls before it. Nothing is left, either, of what this read decrypted, unless it
was cut off; then just that is left, and the reads that follow hand it out. -/
theorem eof_after_data (engine : σ) (side : Side) (verifyPeer : Bool) (policy : CipherPolicy)
    (calls : List (Call ω)) (max : Nat) :
    let fresh : Session σ ω ε := ofEngine engine side verifyPeer policy
    let s := (fresh.run calls).2
    let r := s.readData max
    r.1 = .error () → r.2.lastFailure = some .eof →
      s.plaintext.data = [] ∧
      (r.2.plaintext.data = [] ∨ ∃ v, CutOff max s v r.2) ∧
      (KeepsBuffers σ → (fresh.run calls).1.flatMap Answer.handed = s.revealed ∧
        s.revealed ++ r.2.plaintext.data = r.2.revealed) ∧
      r.2.state = .error ∧
      ∀ n, 0 < n → r.2.plaintext.data ≠ [] →
        (r.2.readData n).1 = .ok (r.2.plaintext.data.take n) := by
  intro fresh s r h he
  have hmax : 0 < max := by
    refine Nat.pos_of_ne_zero fun hmax => ?_
    simp only [r, readData, hmax, if_true] at h
    cases h
  obtain ⟨hempty, hleft⟩ := readData_eof h he
  have hstate : r.2.state = .error :=
    (readData_reads (Candid.run engine side verifyPeer policy calls) hmax).failed h
  refine ⟨hempty, hleft, fun hσ => ?_, hstate, fun n hn hne => ?_⟩
  · have hbefore := (Balanced.ofEngine engine side verifyPeer policy).run (ω := ω) (ε := ε) hσ calls
    have hhanded := hbefore.opened
    have hafter := (hbefore.perform hσ (.read max)).opened
    have hread : (s.perform (.read max)).1.handed = [] :=
      congrArg (fun a => (Answer.got a).handed) h
    have hplain : s.plaintext.data = [] := hempty
    rw [hplain, List.append_nil, List.nil_append] at hhanded
    rw [hread, List.append_nil, List.nil_append, hhanded] at hafter
    exact ⟨hhanded, hafter⟩
  · obtain ⟨hdeclines, -⟩ := readData_over (SessionState.isOver_iff.2 (.inr hstate)) n
    have hgot := hdeclines hn
    rw [if_pos hne] at hgot
    exact Answer.got.inj hgot

/-- An engine that decrypts three bytes, after which the peer asks for a new handshake. -/
def askedEngine : ScriptedEngine false :=
  ⟨{ promptScript with
    handshakes := [⟨0, [], [], .complete, none⟩, ⟨0, [], [], .needsInput, none⟩]
    decryptions := [⟨3, [], [97, 98, 99], .renegotiate, none⟩] }⟩

/-- A client with this engine. -/
def askedClient : Session (ScriptedEngine false) ScriptedSocket String :=
  ofEngine askedEngine .client true .default

/-- When the new handshake has to wait, the three bytes are handed out. The read that resumes it
meets the end of the stream, and nothing is left. -/
theorem askedClient_ends :
    let reads := [.ok [1, 2, 3], .error (.bare .wouldBlock), .ok []]
    let calls := [.init (.ofScript reads [] []), .connect "localhost", .read 8]
    let s := (askedClient.run calls).2
    (askedClient.run calls).1.flatMap Answer.handed = [97, 98, 99] ∧
      (s.readData 8).1 = .error () ∧ (s.readData 8).2.lastFailure = some .eof ∧
      (s.readData 8).2.plaintext.data = [] ∧ (s.readData 8).2.revealed = [97, 98, 99] := by
  intro reads calls s
  have hfails : (s.readData 8).1 = .error () := by decide +kernel
  have heof : (s.readData 8).2.lastFailure = some .eof := by decide +kernel
  have hnone : (s.readData 8).2.decryptions = s.decryptions := by decide +kernel
  have hhanded : (askedClient.run calls).1.flatMap Answer.handed = [97, 98, 99] := by decide +kernel
  obtain ⟨-, hleft, hledger, -⟩ :=
    eof_after_data askedEngine .client true .default calls 8 hfails heof
  have hempty : (s.readData 8).2.plaintext.data = [] := by
    refine hleft.resolve_right fun ⟨v, hcut⟩ => ?_
    -- The peer asked for no other handshake within this read.
    obtain ⟨n, hn⟩ := hcut.answers
    cases List.self_eq_append_right.1 (hnone.symm.trans hn)
  obtain ⟨hsame, hrest⟩ := hledger (ScriptedEngine.keepsBuffers false)
  have hrevealed : (s.readData 8).2.revealed = [97, 98, 99] := calc
    (s.readData 8).2.revealed = s.revealed ++ (s.readData 8).2.plaintext.data := hrest.symm
    _ = s.revealed := by rw [hempty, List.append_nil]
    _ = [97, 98, 99] := hsame.symm.trans hhanded
  exact ⟨hhanded, hfails, heof, hempty, hrevealed⟩

/-- When the stream ends at once, the read fails and the three bytes are left, for the next one. -/
theorem askedClient_cut :
    let calls := [.init (.ofScript [.ok [1, 2, 3], .ok []] [] []), .connect "localhost"]
    let r := (askedClient.run calls).2.readData 8
    r.1 = .error () ∧ r.2.lastFailure = some .eof ∧ r.2.plaintext.data = [97, 98, 99] ∧
      (askedClient.run calls).1.flatMap Answer.handed = [] ∧
      (r.2.readData 8).1 = .ok [97, 98, 99] := by
  decide +kernel

end TlsTransport.Session
