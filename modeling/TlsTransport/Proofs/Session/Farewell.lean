import TlsTransport.Proofs.Session.Gate
import TlsTransport.Proofs.Session.Rounds

/-! # Answering the peer's end

When the peer says that no more data follows, the session answers that and leaves the connection.
Whatever becomes of the answer is not held against the read, but what is left of it is written once
more before the read ends, and that second attempt counts.

* `Session.answerClose_leaves`: answering leaves the connection whatever comes of it.
* `Session.refusal?`: why the socket refuses what is still to be written.
* `Session.read_answers_end`: a read in which the peer ended the data hands out what was decrypted,
  exactly if the second attempt is not refused.
-/

namespace TlsTransport.Session

variable {σ ω ε : Type}

section Moves

variable [Socket ω]

theorem leave_leaves (s : Session σ ω ε) : s.leave.peerClosed = s.peerClosed ∧
    s.leave.plaintext = s.plaintext ∧ (s.leave.state = .closing ∨
      s.leave.state = .closed ∧ s.leave.pendingWrite.data = []) := by
  have hflush := Steady.flushPending s
  unfold leave
  rcases h : s.flushPending with ⟨answer, t⟩
  rw [h] at hflush
  have hset : ∀ next, (t.setState next).peerClosed = s.peerClosed ∧
      (t.setState next).plaintext = s.plaintext := by
    intro next
    have hstate := Steady.setState t next
    exact ⟨hstate.peerClosed.trans hflush.peerClosed, hstate.plaintext.trans hflush.plaintext⟩
  simp only
  split
  · have hdone : t.pendingWrite.data = [] := by
      have hd := flushPending_done (s := s) (by rw [h])
      rwa [h] at hd
    refine ⟨(hset .closed).1, (hset .closed).2, .inr ⟨state_setState .., ?_⟩⟩
    rw [setState_eq]
    exact hdone
  · exact ⟨(hset .closing).1, (hset .closing).2, .inl (state_setState ..)⟩

/-- Answering leaves the connection, whatever the engine and the socket say to it. It is closed only
when all was written. -/
theorem answerClose_leaves [Engine σ ε] (s : Session σ ω ε) : s.answerClose.peerClosed = true ∧
    s.answerClose.plaintext = s.plaintext ∧ (s.answerClose.state = .closing ∨
      s.answerClose.state = .closed ∧ s.answerClose.pendingWrite.data = []) := by
  unfold answerClose
  rcases h : notifyClose { s.note .peerClosed with peerClosed := true } with ⟨answer, t⟩
  have ht : t = (notifyClose { s.note .peerClosed with peerClosed := true }).2 := by rw [h]
  have hseen : t.peerClosed = true ∧ t.plaintext = s.plaintext := by
    rw [ht]
    exact ⟨rfl, rfl⟩
  cases answer with
  | ok _ =>
    obtain ⟨hpeer, hplain, hstate⟩ := t.leave_leaves
    exact ⟨hpeer.trans hseen.1, hplain.trans hseen.2, hstate⟩
  | error e =>
    obtain ⟨hpeer, hplain, hstate⟩ := (t.note (.replyFailed e)).leave_leaves
    exact ⟨hpeer.trans hseen.1, hplain.trans hseen.2, hstate⟩

/-! ## The second attempt -/

/-- Why the socket refuses for good what is still to be written, if there is something and it does. -/
def refusal? (s : Session σ ω ε) : Option IoError :=
  if s.pendingWrite.isEmpty then none
  else
    match s.flushPending.1 with
    | .ok _ => none
    | .error e => some e

omit [Socket ω] in
theorem answerRead_of_peerClosed {s : Session σ ω ε} (h : s.peerClosed = true) (max : Nat) :
    (s.answerRead max).1 = .ok (s.plaintext.data.take max) ∧
    (s.answerRead max).2.state = s.state ∧
    (s.answerRead max).2.plaintext.data = s.plaintext.data.drop max := by
  unfold answerRead
  cases hp : s.plaintext.isEmpty with
  | false => exact ⟨rfl, rfl, rfl⟩
  | true =>
    have hnil := s.plaintext.isEmpty_iff.1 hp
    rw [if_neg (by simp), if_pos h, hnil]
    exact ⟨by rw [List.take_nil], rfl, by rw [List.drop_nil]⟩

theorem finishRead_of_written {s : Session σ ω ε} (h : s.peerClosed = true)
    (hr : s.refusal? = none) (max : Nat) :
    (s.finishRead max).1 = .ok (s.plaintext.data.take max) ∧
    (s.finishRead max).2.state = s.state ∧
    (s.finishRead max).2.plaintext.data = s.plaintext.data.drop max := by
  unfold finishRead
  by_cases hp : s.pendingWrite.isEmpty = true
  · rw [if_pos hp]
    exact answerRead_of_peerClosed h max
  · have hsteady := Steady.flushPending s
    have hstate := s.state_flushPending
    unfold refusal? at hr
    rw [if_neg hp] at hr ⊢
    rcases hf : s.flushPending with ⟨e | all, t⟩
    · rw [hf] at hr
      cases hr
    · rw [hf] at hsteady hstate
      obtain ⟨hok, hsame, hrest⟩ := answerRead_of_peerClosed (hsteady.peerClosed.trans h) max
      rw [hsteady.plaintext] at hok hrest
      exact ⟨hok, hsame.trans hstate, hrest⟩

theorem finishRead_of_refused {s : Session σ ω ε} {e : IoError} (hs : s.state = .closing ∨
    s.state = .closed ∧ s.pendingWrite.data = []) (hr : s.refusal? = some e) (max : Nat) :
    (s.finishRead max).1 = .error () ∧ (s.finishRead max).2.state = .error ∧
    (s.finishRead max).2.lastFailure = some (.io e) ∧
    (s.finishRead max).2.plaintext = s.plaintext := by
  have hsteady := Steady.flushPending s
  have hstate := s.state_flushPending
  unfold refusal? at hr
  unfold finishRead
  by_cases hp : s.pendingWrite.isEmpty = true
  · rw [if_pos hp] at hr
    cases hr
  rw [if_neg hp] at hr ⊢
  have hclosing : s.state = .closing := by
    rcases hs with hs | ⟨-, hnone⟩
    · exact hs
    · exact absurd (s.pendingWrite.isEmpty_iff.2 hnone) hp
  rcases hf : s.flushPending with ⟨e' | all, t⟩
  · rw [hf] at hr hsteady hstate
    have hstate : t.state = s.state := hstate
    injection hr with hr
    subst hr
    have hfail : (t.fail (.io e')).state = .error := by
      apply fail_error
      rw [hstate, hclosing]
      simp
    exact ⟨rfl, hfail, lastFailure_fail t _, (Steady.fail t (.io e')).plaintext.trans hsteady.plaintext⟩
  · rw [hf] at hr
    cases hr

variable [Engine σ ε]

/-- If the peer ended the data within a read, then at one moment of it the engine said so and the
session answered, which left the connection whatever became of the answer. The read then hands out
what was decrypted, no bytes if there are none, and the session stays as it is. Only if something of
the answer is left and the socket refuses that, too, does the read fail. -/
theorem read_answers_end (s : Session σ ω ε) (max : Nat) {answers : List (Except ε DecryptStop)}
    (hanswers : (s.readData max).2.decryptions = s.decryptions ++ answers)
    (hend : .ok .closeNotify ∈ answers) :
    ∃ v, Turns (.read max) s v ∧ v.state = .connected ∧ v.decryptOnce.1 = .ok .closeNotify ∧
      let t := v.decryptOnce.2.answerClose
      let r := s.readData max
      (t.state = .closing ∨ t.state = .closed) ∧ t.plaintext = v.decryptOnce.2.plaintext ∧
      (t.refusal? = none → r.1 = .ok (t.plaintext.data.take max) ∧ r.2.state = t.state ∧
        r.2.plaintext.data = t.plaintext.data.drop max) ∧
      (∀ e, t.refusal? = some e → r.1 = .error () ∧ r.2.state = .error ∧
        r.2.lastFailure = some (.io e) ∧ r.2.plaintext = t.plaintext) := by
  rcases s.readData_opened max with hsame | ⟨u, hopen, hread⟩
  · rw [hsame] at hanswers
    rw [List.self_eq_append_right.1 hanswers] at hend
    cases hend
  obtain ⟨n, v, hn, hrounds, hlast, hasked⟩ := u.decryptAndFinish_rounds max
  rw [← hread, hanswers, hopen.decryptions] at hasked
  -- Only the last round can have ended the data: in the others the peer asked for a handshake.
  have hclose : v.decryptOnce.1 = .ok .closeNotify := by
    rw [List.append_cancel_left hasked, List.mem_append, List.mem_replicate] at hend
    rcases hend with ⟨-, hend⟩ | hend
    · cases hend
    · exact (List.mem_singleton.1 hend).symm
  obtain ⟨hchain, hv, -⟩ := hrounds.turns max hopen.connected hn
  refine ⟨v, hopen.turns.trans hchain, hv, hclose, ?_⟩
  obtain ⟨hpeer, hplain, hstate⟩ := v.decryptOnce.2.answerClose_leaves
  have hlast := hlast.of_closeNotify hclose
  rw [hread]
  unfold decryptAndFinish
  rw [hlast]
  refine ⟨hstate.imp_right And.left, hplain, fun hr => finishRead_of_written hpeer hr max, ?_⟩
  intro e he
  exact finishRead_of_refused hstate he max

end Moves

/-- A connected client whose peer ends the data with one byte, over a socket that answers writes like
this. -/
def leavingClient (writes : List (Except IoError Nat)) :
    Session (ScriptedEngine false) ScriptedSocket String :=
  ((ofEngine ⟨{ promptScript with decryptions := [⟨0, [], [7], .close, none⟩] }⟩ .client true
    .default).run [.init (.ofScript [] writes []), .connect "localhost"]).2

/-- A broken pipe does not keep the byte back: at the second attempt the answer is written. -/
theorem leavingClient_answers :
    let s := leavingClient [.error (.bare .brokenPipe)]
    s.state = .connected ∧ (s.readData 4).2.decryptions = s.decryptions ++ [.ok .closeNotify] ∧
      (s.readData 4).1 = .ok [7] ∧ (s.readData 4).2.state = .closing ∧
      ∃ v, Turns (.read 4) s v ∧ v.decryptOnce.1 = .ok .closeNotify := by
  intro s
  have hanswers : (s.readData 4).2.decryptions = s.decryptions ++ [.ok .closeNotify] := by
    decide +kernel
  refine ⟨by decide +kernel, hanswers, by decide +kernel, by decide +kernel, ?_⟩
  obtain ⟨v, hchain, -, hclose, -⟩ := read_answers_end s 4 hanswers (by simp)
  exact ⟨v, hchain, hclose⟩

/-- If the pipe is broken at the second attempt, too, the read fails and keeps the byte. -/
theorem leavingClient_fails :
    let s := leavingClient [.error (.bare .brokenPipe), .error (.bare .brokenPipe)]
    s.state = .connected ∧ (s.readData 4).2.decryptions = s.decryptions ++ [.ok .closeNotify] ∧
      (s.readData 4).1 = .error () ∧ (s.readData 4).2.state = .error ∧
      (s.readData 4).2.plaintext.data = [7] := by
  decide +kernel

end TlsTransport.Session
