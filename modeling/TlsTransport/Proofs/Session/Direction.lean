import TlsTransport.Proofs.Session.Advance
import TlsTransport.Proofs.Session.Truncation
import TlsTransport.Script.Engine
import TlsTransport.Script.Socket

/-! # What a call waits for

A call that would block tells its caller in which direction, and it looks for that at what is pending
only. It is right: what is pending then is what the socket would not take, and where nothing is
pending the socket had nothing to give.

* `SocketCall.blockedIn`: in which direction a socket call was blocked.
* `Blocked`: the last socket call since some moment was blocked in a direction.
* `Session.Tidy`: between two calls a session that waits for handshake data has nothing to send.
* `Settled`: an operation leaves a session tidy, and the direction names what blocked it.
* `Session.direction_names_block`: every call settles.
-/

namespace TlsTransport

variable {σ ω ε α δ : Type}

/-! ## What blocked -/

/-- In which direction a call was blocked, if it was. -/
def SocketCall.blockedIn : SocketCall → Option Direction
  | read _ (.error e) => if e.isBlock then some .read else none
  | write _ (.error e) => if e.isBlock then some .write else none
  | _ => none

/-- Whether an entry is a socket call. -/
def Event.isSocket : Event ε → Bool
  | .socket _ => true
  | _ => false

namespace Session

/-- The last socket call since was blocked in this direction. -/
def Blocked (d : Direction) (s t : Session σ ω ε) : Prop := ∃ newer call older,
  t.journal = newer ++ .socket call :: older ∧ (∀ e ∈ newer, e.isSocket = false) ∧
    call.blockedIn = some d ∧ s.journal <:+ older

namespace Blocked

variable {d : Direction} {s t u : Session σ ω ε}

theorem since (h : Blocked d t u) (hs : s.journal <:+ t.journal) : Blocked d s u := by
  obtain ⟨newer, call, older, hj, hquiet, hblocks, hold⟩ := h
  exact ⟨newer, call, older, hj, hquiet, hblocks, hs.trans hold⟩

/-- Nothing but reports was added. -/
theorem silent (h : Blocked d s t) (k : Silent t u) : Blocked d s u := by
  obtain ⟨newer, call, older, hj, hquiet, hblocks, hold⟩ := h
  obtain ⟨notices, hk⟩ := k.journal
  refine ⟨notices.map Event.notice ++ newer, call, older, ?_, fun e he => ?_, hblocks, hold⟩
  · rw [hk, hj, List.append_assoc]
  · rcases List.mem_append.1 he with he | he
    · obtain ⟨n, -, rfl⟩ := List.mem_map.1 he
      rfl
    · exact hquiet e he

end Blocked

section Moves

variable [Socket ω] {s t : Session σ ω ε}

/-- A write that could not be finished was blocked, and leaves something pending. -/
theorem flushPending_waits (h : s.flushPending = (.ok false, t)) :
    Blocked .write s t ∧ t.pendingWrite.data ≠ [] := by
  have hrest := flushPending_rest (s := s) (by rw [h])
  rw [h] at hrest
  refine ⟨?_, hrest⟩
  obtain ⟨call, older, hj, hblocks, mid, hmid⟩ := flushPending_blocked h
  -- All that writing adds to the journal are writes, so the last call was one.
  obtain ⟨newer, hnewer, hfits⟩ : Adds .closed s t := by
    have hadds : Adds .closed s s.flushPending.2 := .flushPending s
    rwa [h] at hadds
  have hsame : newer ++ s.journal = .socket call :: mid ++ s.journal := by
    rw [← hnewer, hj, ← hmid]
    rfl
  have hcall : newer = .socket call :: mid := List.append_cancel_right hsame
  have hfit := hfits (.socket call) (by rw [hcall]; exact List.mem_cons_self)
  refine ⟨[], call, older, hj, by simp, ?_, mid, hmid⟩
  cases call with
  | write offered answer =>
    cases answer with
    | ok n => cases hblocks
    | error e => exact if_pos hblocks
  | read | flush => cases hfit

/-- A read of nothing was blocked. -/
theorem fillRaw_waits {max : Nat} {e : IoError} (h : s.fillRaw max = (.error e, t))
    (hb : e.isBlock = true) : Blocked .read s t := by
  rcases fillRaw_reads h with ⟨hnone, -⟩ | ⟨first, hj, -⟩
  · simp only [fillRaw, hnone, Prod.mk.injEq, Except.error.injEq] at h
    rw [← h.1] at hb
    cases hb
  · exact ⟨[], _, _, hj, by simp, if_pos hb, List.suffix_append _ _⟩

end Moves

theorem direction_write {s : Session σ ω ε} (h : s.pendingWrite.data ≠ []) :
    s.direction = .write := if_neg fun he => h (s.pendingWrite.isEmpty_iff.1 he)

theorem direction_read {s : Session σ ω ε} (h : s.pendingWrite.data = []) :
    s.direction = .read := if_pos (s.pendingWrite.isEmpty_iff.2 h)

/-! ## Tidy sessions -/

/-- A session that waits for handshake data has nothing to send. -/
def Tidy (s : Session σ ω ε) : Prop := s.state = .handshakeRead → s.pendingWrite.data = []

namespace Tidy

variable {s t : Session σ ω ε}

theorem of_state {state : SessionState} (h : s.state = state) (hne : state ≠ .handshakeRead) :
    s.Tidy := fun hs => absurd (h.symm.trans hs) hne

theorem congr (h : s.Tidy) (hs : t.state = s.state) (hp : t.pendingWrite = s.pendingWrite) :
    t.Tidy := by
  rw [Tidy, hs, hp]
  exact h

theorem fail (s : Session σ ω ε) (f : Failure ε) : (s.fail f).Tidy := by
  rcases s.fail_state f with h | ⟨h, -⟩ <;> exact of_state h (by simp)

section Moves

variable [Socket ω]

theorem flushPending (h : s.Tidy) : s.flushPending.2.Tidy := by
  intro hs
  rw [state_flushPending] at hs
  exact flushPending_of_empty (h hs)

theorem flushBestEffort (h : s.Tidy) : s.flushBestEffort.Tidy := by
  unfold Session.flushBestEffort
  split
  · exact h.flushPending
  · exact h

theorem fillRaw (h : s.Tidy) (max : Nat) : (s.fillRaw max).2.Tidy := by
  obtain ⟨k, b, calls, hf⟩ := s.fillRaw_frame max
  rw [hf]
  exact h

variable [Engine σ ε]

/-- The engine's part of a handshake decides anew whether there is something to send. -/
theorem processHandshake (s : Session σ ω ε) : s.processHandshake.2.Tidy := by
  rcases s.processHandshake_cases with ⟨e, -, he⟩ | ⟨progress, t, -, -, hu⟩
  · rw [he]
    exact (fail _ _).flushBestEffort
  · rw [hu]
    intro hs
    rw [state_setState] at hs
    rw [setState_eq]
    unfold nextHandshakeState at hs
    split at hs
    · cases hs
    · rename_i hp
      simpa [Buffer.isEmpty] using hp

theorem step (h : s.Tidy) : s.step.2.Tidy := by
  generalize hr : s.step = r
  have hcase := s.step_case
  rw [hr] at hcase
  cases hcase with
  | started => exact processHandshake _
  | sent _ ha =>
    intro _
    rw [setState_eq]
    exact flushPending_done ha
  | sendBlocked => exact h.flushPending
  | arrived => exact processHandshake _
  | waits => exact h.fillRaw _
  | startFailed | sendFailed | ended | receiveFailed | refused => exact fail _ _
  | finish =>
    rcases s.finishHandshake_cases with ⟨-, f, -, hf⟩ | ⟨-, v, -, hv⟩
    · rw [hf]
      exact fail _ _
    · rw [hv]
      exact of_state (by rw [connectedAs, state_setState]) (by simp)
  | agreed => exact h

end Moves
end Tidy

/-- An operation leaves a session tidy. If it has to wait, the direction that the session tells is
the one in which it was blocked, in case this direction is to be named. -/
structure Settled (named : Direction → Prop) (s : Session σ ω ε)
    (r : Status α δ × Session σ ω ε) : Prop where
  tidy : r.2.Tidy
  blocked : r.1 = .wouldBlock → named r.2.direction → Blocked r.2.direction s r.2

namespace Settled

variable {named : Direction → Prop} {s t : Session σ ω ε} {r : Status α δ × Session σ ω ε}

theorem since (h : Settled named t r) (hs : s.journal <:+ t.journal) : Settled named s r :=
  ⟨h.tidy, fun hr hd => (h.blocked hr hd).since hs⟩

theorem of_ended (ht : r.2.Tidy) (hr : r.1 ≠ .wouldBlock) : Settled named s r :=
  ⟨ht, fun h => absurd h hr⟩

theorem of_fail {e : δ} (f : Failure ε) :
    Settled named s ((.error e, t.fail f) : Status α δ × Session σ ω ε) :=
  of_ended (.fail t f) (by simp)

end Settled

variable [Engine σ ε] [Socket ω]

/-! ## The handshake -/

theorem step_waits {s t : Session σ ω ε} (h : s.step = (.yield .wouldBlock, t)) (hs : s.Tidy) :
    Blocked t.direction s t := by
  generalize hr : s.step = r at h
  have hcase := s.step_case
  rw [hr] at hcase
  cases hcase with
  | started | arrived => exact absurd h processHandshake_not_blocked
  | sendBlocked _ ha =>
    obtain ⟨hblocked, hrest⟩ := flushPending_waits (Prod.ext ha rfl)
    injection h with _ h
    rw [← h]
    rw [direction_write hrest]
    exact hblocked
  | waits e hstate ha hb =>
    have hblocked := fillRaw_waits (Prod.ext ha rfl) hb
    have hnone := hs.fillRaw maxRecordLength (by rw [state_fillRaw, hstate])
    injection h with _ h
    rw [← h, direction_read hnone]
    exact hblocked
  | finish => exact absurd h finishHandshake_not_blocked
  | _ => simp [failStep] at h

theorem runHandshake_settled {s : Session σ ω ε} (h : s.Tidy) :
    Settled (fun _ => True) s s.runHandshake := by
  fun_induction runHandshake s with
  | case1 s s' hs ih =>
    have htidy := h.step
    have hj := (Adds.step s).suffix
    rw [hs] at htidy hj
    exact (ih htidy).since hj
  | case2 s status s' hs =>
    have htidy := h.step
    rw [hs] at htidy
    refine ⟨htidy, fun hstatus _ => ?_⟩
    have hstatus : status = .wouldBlock := hstatus
    subst hstatus
    exact step_waits hs h

theorem handshakeStatus_settled {s : Session σ ω ε} (h : s.Tidy) :
    Settled (fun _ => True) s s.handshakeStatus := by
  have hrun : s.state = .initialized ∨ s.state.inHandshake = true →
      Settled (fun _ => True) s s.handshakeStatus := by
    intro hin
    have hsettled := runHandshake_settled h
    rcases hr : s.runHandshake with ⟨v | _ | _, t⟩ <;> rw [hr] at hsettled
    · rw [handshakeStatus_of_ok hin hr]
      exact .of_ended hsettled.tidy (by simp)
    · rw [handshakeStatus_of_wouldBlock hin hr]
      exact ⟨hsettled.tidy, fun _ => hsettled.blocked rfl⟩
    · rw [handshakeStatus_of_error hin hr]
      exact .of_ended hsettled.tidy (by simp)
  cases hs : s.state with
  | initialized => exact hrun (.inl hs)
  | handshakeWrite | handshakeRead | handshakeDone => exact hrun (.inr (by rw [hs]; rfl))
  | connected =>
    cases hv : s.version <;> simp only [handshakeStatus, hs, hv] <;> exact .of_ended h (by simp)
  | error => simp only [handshakeStatus, hs]; exact .of_ended h (by simp)
  | constructed | closing | closed =>
    simp only [handshakeStatus, hs, failWith]
    exact .of_fail _

/-! ## Writing -/

/-- An operation that only has to wait for the socket to take something. -/
structure Sends (s : Session σ ω ε) (r : Status α δ × Session σ ω ε) : Prop where
  tidy : r.2.Tidy
  waits : r.1 = .wouldBlock → r.2.direction = .write ∧ Blocked .write s r.2

namespace Sends

variable {s t : Session σ ω ε} {r : Status α δ × Session σ ω ε}

omit [Engine σ ε] [Socket ω]

theorem settled (h : Sends s r) (named : Direction → Prop) : Settled named s r := by
  refine ⟨h.tidy, fun hr _ => ?_⟩
  obtain ⟨hd, hblocked⟩ := h.waits hr
  rw [hd]
  exact hblocked

theorem since (h : Sends t r) (hs : s.journal <:+ t.journal) : Sends s r :=
  ⟨h.tidy, fun hr => (h.waits hr).imp_right (·.since hs)⟩

theorem of_ended (ht : r.2.Tidy) (hr : r.1 ≠ .wouldBlock) : Sends s r :=
  ⟨ht, fun h => absurd h hr⟩

theorem of_fail {e : δ} (f : Failure ε) :
    Sends s ((.error e, t.fail f) : Status α δ × Session σ ω ε) :=
  of_ended (.fail t f) (by simp)

end Sends

theorem sendRest_sends (fragment : Nat) (flight : InFlight) (rest : Bytes) {s : Session σ ω ε}
    (hs : s.state = .connected) : Sends s (s.sendRest fragment flight rest) := by
  induction flight, rest, s using sendRest.induct (σ := σ) (ω := ω) (ε := ε) fragment with
  | case1 flight rest s t e h₁ =>
    rw [sendRest_of_failed h₁]
    exact .of_fail _
  | case2 flight rest s t h₁ =>
    have ht := (flushPending_state h₁).trans hs
    obtain ⟨hblocked, hrest⟩ := flushPending_waits h₁
    have hnoted := hblocked.silent
      (.note t (.writeBlocked flight.locked flight.length t.pendingWrite.size))
    rw [sendRest_of_blocked h₁]
    exact ⟨.of_state ht (by simp), fun _ => ⟨direction_write hrest, hnoted⟩⟩
  | case3 flight rest s t hr h₁ =>
    have ht := (flushPending_state h₁).trans hs
    rw [sendRest_of_done h₁ (by simpa using hr)]
    exact .of_ended (.of_state ht (by simp)) (by simp)
  | case4 flight rest s t hr chunk u e h₁ h₂ =>
    rw [sendRest_of_refused h₁ (by simpa using hr) h₂]
    exact .of_fail _
  | case5 flight rest s t hr chunk u a h₁ h₂ ih =>
    obtain ⟨hflush, ht⟩ := flush_turn (.write rest) h₁
    obtain ⟨hencrypt, hu⟩ := encrypt_turn rest h₂ (ht.trans hs)
    rw [sendRest_of_encrypted h₁ (by simpa using hr) h₂]
    exact (ih hu).since (hflush.adds.suffix.trans hencrypt.adds.suffix)

theorem sendPayload_sends {s : Session σ ω ε} (payload : Bytes) (hs : s.state = .connected) :
    Sends s (s.sendPayload payload) := by
  unfold sendPayload
  cases s.inFlight with
  | some flight =>
    simp only
    split
    · exact .of_fail _
    · have hrest := sendRest_sends (Engine.maxFragment s.engine) flight
        (payload.drop flight.locked) (s := { s with inFlight := none }) hs
      exact hrest.since (List.suffix_refl _)
  | none =>
    simp only
    split
    · exact .of_ended (.of_state hs (by simp)) (by simp)
    · exact sendRest_sends _ _ _ hs

theorem writeData_settled {s : Session σ ω ε} (h : s.Tidy) (payload : Bytes) :
    Settled (fun _ => True) s (s.writeData payload) := by
  unfold writeData
  split
  · rename_i hs
    exact (sendPayload_sends payload hs).settled _
  split
  · rename_i hin
    have hsettled := runHandshake_settled h
    have hturns := runHandshake_turns (.write payload) (.inl (Bool.and_eq_true_iff.1 hin).1)
    rcases hr : s.runHandshake with ⟨v | _ | _, t⟩ <;> rw [hr] at hsettled hturns
    · exact ((sendPayload_sends payload (runHandshake_ok hr)).since hturns.journal).settled _
    · exact ⟨hsettled.tidy, fun _ => hsettled.blocked rfl⟩
    · exact .of_ended hsettled.tidy (by simp)
  split
  · exact .of_ended h (by simp)
  · exact .of_fail _

/-- Without a renegotiation a write only waits to send. -/
theorem writeData_sends {s : Session σ ω ε} (h : s.Tidy)
    (hr : s.renegotiating = false ∨ s.state = .connected) (payload : Bytes) :
    Sends s (s.writeData payload) := by
  unfold writeData
  split
  · rename_i hs
    exact sendPayload_sends payload hs
  rename_i hs
  rw [hr.resolve_right hs, Bool.and_false]
  split
  · rename_i hno
    cases hno
  split
  · exact .of_ended h (by simp)
  · exact .of_fail _

/-! ## Closing -/

omit [Engine σ ε] in
theorem finishClose_sends {s : Session σ ω ε} (h : s.Tidy) : Sends s s.finishClose := by
  have htidy := h.flushPending
  unfold finishClose
  rcases hf : s.flushPending with ⟨e | _ | _, t⟩ <;> rw [hf] at htidy
  · exact .of_fail _
  · obtain ⟨hblocked, hrest⟩ := flushPending_waits hf
    exact ⟨htidy, fun _ => ⟨direction_write hrest, hblocked⟩⟩
  · exact .of_ended (.of_state (state_setState ..) (by simp)) (by simp)

theorem close_sends {s : Session σ ω ε} (h : s.Tidy) : Sends s s.close := by
  unfold close
  split
  · rename_i hs
    rcases hn : s.notifyClose with ⟨e | a, t⟩
    · exact .of_fail _
    · obtain ⟨hnotify, -⟩ := notifyClose_turn (ω := ω) .close (.inl rfl) hn hs
      have hparted : ({ t with inFlight := none }.setState .closing).Tidy :=
        .of_state (state_setState ..) (by simp)
      have hquiet : Adds .closing { t with inFlight := none } _ := .silent (.setState _ .closing)
      have hj : t.journal <:+ ({ t with inFlight := none }.setState .closing).journal :=
        hquiet.suffix
      exact (finishClose_sends hparted).since (hnotify.adds.suffix.trans hj)
  split
  · exact finishClose_sends h
  split
  · exact .of_ended h (by simp)
  split
  · exact .of_ended h (by simp)
  · exact .of_fail _

/-! ## Reading -/

omit [Engine σ ε] [Socket ω] in
theorem answerRead_wouldBlock {s : Session σ ω ε} {max : Nat}
    (h : (s.answerRead max).1 = .wouldBlock) : (s.answerRead max).2 = s := by
  unfold answerRead at h ⊢
  split
  · rename_i hp
    rw [if_pos hp] at h
    cases h
  rename_i hp
  rw [if_neg hp] at h
  split
  · rfl
  split
  · rename_i hclosed heof
    rw [if_neg hclosed, if_pos heof] at h
    cases h
  · rfl

omit [Engine σ ε] [Socket ω] in
theorem answerRead_tidy {s : Session σ ω ε} (h : s.Tidy) (max : Nat) :
    (s.answerRead max).2.Tidy := by
  unfold answerRead
  split
  · exact h.congr rfl rfl
  split
  · exact h
  split
  · exact .fail _ _
  · exact h

omit [Engine σ ε] in
/-- What is left to send after a read is what the socket would not take. -/
theorem finishRead_settled {s : Session σ ω ε} (h : s.Tidy) (max : Nat) :
    Settled (· = .write) s (s.finishRead max) := by
  unfold finishRead
  split
  · rename_i hp
    refine ⟨answerRead_tidy h max, fun hr hd => ?_⟩
    rw [answerRead_wouldBlock hr, direction_read (s.pendingWrite.isEmpty_iff.1 hp)] at hd
    cases hd
  have htidy := h.flushPending
  rcases hf : s.flushPending with ⟨e | _ | _, t⟩ <;> rw [hf] at htidy
  · exact .of_fail _
  · obtain ⟨hblocked, hrest⟩ := flushPending_waits hf
    refine ⟨answerRead_tidy htidy max, fun hr _ => ?_⟩
    simp only at hr ⊢
    rw [answerRead_wouldBlock hr, direction_write hrest]
    exact hblocked
  · have hdone := flushPending_done (s := s) (by rw [hf])
    rw [hf] at hdone
    refine ⟨answerRead_tidy htidy max, fun hr hd => ?_⟩
    simp only at hr hd
    rw [answerRead_wouldBlock hr, direction_read hdone] at hd
    cases hd

theorem renegotiate_settled {s u : Session σ ω ε} {ended : Option (Status Bytes Unit)}
    (h : s.renegotiate = (.error ended, u)) (max : Nat) :
    Settled (· = .write) s (match (ended, u) with
      | (some status, v) => (status, v)
      | (none, v) => v.finishRead max) := by
  have hopen : s.journal <:+ s.reopen.journal :=
    (Adds.silent (.reopen s) : Adds .closing s _).suffix
  have hfirst := hopen.trans (Adds.processHandshake s.reopen (.inl rfl)).suffix
  have htidy := Tidy.processHandshake s.reopen
  generalize hq : s.renegotiate = q at h
  have hcase := s.renegotiate_case
  rw [hq] at hcase
  cases hcase with
  | refused hp =>
    rw [hp] at htidy
    cases h
    exact .of_ended htidy (by simp)
  | done => cases h
  | failed hp hrun =>
    rw [hp] at htidy
    have hsettled := runHandshake_settled htidy
    rw [hrun] at hsettled
    cases h
    exact .of_ended hsettled.tidy (by simp)
  | waits hp hrun =>
    rw [hp] at htidy hfirst
    have hsettled := runHandshake_settled htidy
    have hturns := runHandshake_turns (.read max) (.inl (processHandshake_goesOn hp))
    rw [hrun] at hsettled hturns
    cases h
    cases hempty : u.plaintext.isEmpty with
    | true => exact ⟨hsettled.tidy, fun _ _ => (hsettled.blocked rfl trivial).since hfirst⟩
    | false => exact (finishRead_settled hsettled.tidy max).since (hfirst.trans hturns.journal)

theorem decryptAndFinish_settled {s : Session σ ω ε} (hs : s.state = .connected) (max : Nat) :
    Settled (· = .write) s (s.decryptAndFinish max) := by
  obtain ⟨n, t, hn, hrounds, hlast, -⟩ := s.decryptAndFinish_rounds max
  obtain ⟨hchain, ht, -⟩ := hrounds.turns max hs hn
  have honce : t.journal <:+ t.decryptOnce.2.journal := List.suffix_cons _ _
  apply Settled.since _ hchain.journal
  unfold decryptAndFinish
  generalize maxRenegotiations - s.renegotiations - n = m at hlast
  generalize decryptAvailable (maxRenegotiations - s.renegotiations) s = r at hlast
  have hstate : t.decryptOnce.2.Tidy := .of_state ht (by simp)
  cases hlast with
  | drained hd =>
    rw [hd] at hstate honce
    exact (finishRead_settled hstate max).since honce
  | @noticed _ u hd =>
    rw [hd] at honce
    have hconn : u.state = .connected := by
      have hsame : u = t.decryptOnce.2 := by rw [hd]
      rw [hsame]
      exact ht
    have hparted : u.answerClose.Tidy := by
      obtain ⟨-, -, hleft⟩ := u.answerClose_leaves
      rcases hleft with h | ⟨h, -⟩ <;> exact .of_state h (by simp)
    exact (finishRead_settled hparted max).since
      (honce.trans (answerClose_turns max hconn).journal)
  | refused hd => exact .of_ended (Tidy.fail _ _).flushBestEffort (by simp)
  | overrun hd => exact .of_fail _
  | stopped hd hr =>
    rw [hd] at honce
    exact (renegotiate_settled hr max).since honce

theorem receive_settled {s : Session σ ω ε} (hs : s.state = .connected) (max : Nat) :
    Settled (· = .write) s (s.receive max) := by
  have hfill : ∀ {t : Session σ ω ε} {answer : Except IoError Bytes},
      s.fillRaw (Nat.max max maxRecordLength) = (answer, t) →
      s.journal <:+ t.journal ∧ t.state = .connected := by
    intro t answer h
    have ht : t = (s.fillRaw (Nat.max max maxRecordLength)).2 := by rw [h]
    rw [ht, state_fillRaw]
    exact ⟨(Adds.fillRaw s _ (.inr rfl)).suffix, hs⟩
  generalize hr : s.receive max = r
  have hcase := s.receive_case max
  rw [hr] at hcase
  cases hcase with
  | failed h => exact .of_fail _
  | @ended t h =>
    obtain ⟨hj, ht⟩ := hfill h
    have hconn : { t with eof := true }.state = .connected := ht
    exact (decryptAndFinish_settled hconn max).since hj
  | arrived h =>
    obtain ⟨hj, ht⟩ := hfill h
    exact (decryptAndFinish_settled ht max).since hj

theorem readData_settled {s : Session σ ω ε} (h : s.Tidy) (max : Nat) :
    Settled (· = .write) s (s.readData max) := by
  generalize hr : s.readData max = r
  have hcase := s.readData_case max
  rw [hr] at hcase
  cases hcase with
  | nothing | parted | lost => exact .of_ended h (by simp)
  | buffered => exact .of_ended (h.congr rfl rfl) (by simp [takePlaintext])
  | received _ ht =>
    exact (receive_settled ht.state max).since (ht.opened max).turns.journal
  | waits _ _ hrun =>
    have hsettled := runHandshake_settled h
    rw [hrun] at hsettled
    exact ⟨hsettled.tidy, fun _ _ => hsettled.blocked rfl trivial⟩
  | failed _ _ hrun =>
    have hsettled := runHandshake_settled h
    rw [hrun] at hsettled
    exact .of_ended hsettled.tidy (by simp)
  | refused => exact .of_fail _

/-! ## Every call -/

theorem connect_settled {s : Session σ ω ε} (h : s.Tidy) (host : String) :
    Settled (fun _ => True) s (s.connect host) := by
  unfold connect
  split
  · exact .of_fail _
  simp only
  split
  · have hnamed : { s with hostname := some host }.Tidy := h.congr rfl rfl
    exact (handshakeStatus_settled hnamed).since (List.suffix_refl _)
  · exact handshakeStatus_settled h

theorem accept_settled {s : Session σ ω ε} (h : s.Tidy) :
    Settled (fun _ => True) s s.accept := by
  unfold accept
  split
  · exact .of_fail _
  · exact handshakeStatus_settled h

theorem perform_tidy {s : Session σ ω ε} (h : s.Tidy) (c : Call ω) : (s.perform c).2.Tidy := by
  cases c with
  | init k =>
    simp only [perform, init]
    split
    · exact .of_state (state_setState ..) (by simp)
    · exact h
  | setServerName name =>
    simp only [perform, setServerName]
    split
    · exact h
    split
    · exact h
    · exact h.congr rfl rfl
  | connect host => exact (connect_settled h host).tidy
  | accept => exact (accept_settled h).tidy
  | write payload => exact (writeData_settled h payload).tidy
  | read max => exact (readData_settled h max).tidy
  | close => exact (close_sends h).tidy
  | outside change => exact h.congr rfl rfl

theorem run_tidy {s : Session σ ω ε} (h : s.Tidy) (calls : List (Call ω)) :
    (s.run calls).2.Tidy := by
  induction calls generalizing s with
  | nil => exact h
  | cons c calls ih => exact ih (perform_tidy h c)

end Session

/-- Whether a call is to be repeated once the socket is ready. -/
def Answer.waits : Answer → Bool
  | agreed .wouldBlock | wrote .wouldBlock | got .wouldBlock | closed .wouldBlock => true
  | _ => false

theorem Answer.waits_agreed {status : Status TlsVersion String}
    (h : (agreed status).waits = true) : status = .wouldBlock := by
  cases status <;> first | rfl | cases h

theorem Answer.waits_wrote {status : Status Nat Unit} (h : (wrote status).waits = true) :
    status = .wouldBlock := by
  cases status <;> first | rfl | cases h

theorem Answer.waits_got {status : Status Bytes Unit} (h : (got status).waits = true) :
    status = .wouldBlock := by
  cases status <;> first | rfl | cases h

theorem Answer.waits_closed {status : Status Unit Unit} (h : (closed status).waits = true) :
    status = .wouldBlock := by
  cases status <;> first | rfl | cases h

/-- Whether a call reads data. -/
def Call.reads : Call ω → Bool
  | .read _ => true
  | _ => false

namespace Session

variable [Engine σ ε] [Socket ω]

/-- What a call that would block waits for: the direction that the session tells, in which the last
socket call of this call was blocked. Only a read may have been blocked before it decrypted. -/
theorem perform_blocked {s : Session σ ω ε} (h : s.Tidy) {c : Call ω}
    (hw : (s.perform c).1.waits = true)
    (hd : c.reads = true → (s.perform c).2.direction = .write) :
    Blocked (s.perform c).2.direction s (s.perform c).2 := by
  cases c with
  | init | setServerName | outside => cases hw
  | connect host => exact (connect_settled h host).blocked (Answer.waits_agreed hw) trivial
  | accept => exact (accept_settled h).blocked (Answer.waits_agreed hw) trivial
  | write payload => exact (writeData_settled h payload).blocked (Answer.waits_wrote hw) trivial
  | read max => exact (readData_settled h max).blocked (Answer.waits_got hw) (hd rfl)
  | close =>
    exact ((close_sends h).settled fun _ => True).blocked (Answer.waits_closed hw) trivial

/-- At every point of every run, a session that waits for handshake data has nothing to send. When a
call would block then, the session tells to wait for writing exactly if something is pending, and the
last socket call of this call was a write that was blocked; or else it tells to wait for reading, and
the last socket call was a read that was blocked, unless the call itself reads. Closing only waits
for writing, and so does a write unless a renegotiation is under way. -/
theorem direction_names_block (engine : σ) (side : Side) (verifyPeer : Bool)
    (policy : CipherPolicy) (calls : List (Call ω)) (c : Call ω) :
    let s := ((ofEngine engine side verifyPeer policy : Session σ ω ε).run calls).2
    let r := s.perform c
    (s.state = .handshakeRead → s.pendingWrite.data = []) ∧
    (r.1.waits = true →
      (r.2.pendingWrite.data ≠ [] → r.2.direction = .write ∧ Blocked .write s r.2) ∧
      (r.2.pendingWrite.data = [] → r.2.direction = .read ∧
        (c.reads = false → Blocked .read s r.2)) ∧
      (c = .close → r.2.direction = .write) ∧
      (s.renegotiating = false ∨ s.state = .connected → ∀ payload, c = .write payload →
        r.2.direction = .write)) := by
  intro s r
  have hfresh : (ofEngine engine side verifyPeer policy : Session σ ω ε).Tidy :=
    .of_state (rfl : _ = SessionState.constructed) (by simp)
  have htidy : s.Tidy := run_tidy hfresh calls
  refine ⟨htidy, fun hw => ⟨fun hp => ?_, fun hp => ?_, ?_, ?_⟩⟩
  · have hd := direction_write hp
    have hblocked := perform_blocked htidy hw fun _ => hd
    rw [hd] at hblocked
    exact ⟨hd, hblocked⟩
  · have hd := direction_read hp
    refine ⟨hd, fun hc => ?_⟩
    have hblocked := perform_blocked htidy hw fun hreads => by rw [hc] at hreads; cases hreads
    rw [hd] at hblocked
    exact hblocked
  · rintro rfl
    exact ((close_sends htidy).waits (Answer.waits_closed hw)).1
  · rintro hre payload rfl
    exact ((writeData_sends htidy hre payload).waits (Answer.waits_wrote hw)).1

/-- An engine that says hello with two bytes and needs an answer then. -/
def greetingEngine : ScriptedEngine false :=
  ⟨{ promptScript with handshakes := [⟨0, [1, 2], [], .needsInput, none⟩] }⟩

/-- A client with that engine. -/
def greetingClient : Session (ScriptedEngine false) ScriptedSocket String :=
  ofEngine greetingEngine .client true .default

/-- Over a socket that is not ready at first, it waits to send its hello and, once that is sent, for
the answer. -/
theorem greetingClient_waits :
    let hello : Call ScriptedSocket := .connect "localhost"
    let calls := [.init (.ofScript [] [.error (.bare .wouldBlock)] [])]
    let s := (greetingClient.run calls).2
    let t := (greetingClient.run (calls ++ [hello])).2
    ((s.perform hello).1.waits = true ∧ (s.perform hello).2.direction = .write ∧
      Blocked .write s (s.perform hello).2) ∧
    ((t.perform hello).1.waits = true ∧ (t.perform hello).2.direction = .read ∧
      Blocked .read t (t.perform hello).2) := by
  intro hello calls s t
  obtain ⟨-, hfirst⟩ := direction_names_block greetingEngine .client true .default calls hello
  obtain ⟨-, hsecond⟩ := direction_names_block greetingEngine .client true .default
    (calls ++ [hello]) hello
  have hw : (s.perform hello).1.waits = true := by decide +kernel
  have hw' : (t.perform hello).1.waits = true := by decide +kernel
  exact ⟨⟨hw, (hfirst hw).1 (by decide +kernel)⟩, hw', ((hsecond hw').2.1 (by decide +kernel)).1,
    ((hsecond hw').2.1 (by decide +kernel)).2 rfl⟩

end Session
end TlsTransport
