import TlsTransport.Proofs.Session.Direction
import TlsTransport.Proofs.Session.Discipline
import TlsTransport.Proofs.Session.Resumption
import TlsTransport.Proofs.Socket.Interruption
import TlsTransport.Proofs.Tagged.Cutting

/-! # Calls that are repeated too early

The owner of a session that would block repeats the call once the socket is ready, or before that.
A call that is repeated too early would block again, however often, and all it leaves is a trace in
the journal of what it tried.

* `Blocks`: a socket that is not ready and stays so.
* `Sated`, `Settles`: an engine that has used its input does nothing when it is asked again.
* `Unmoved`: nothing happened to a session, but for futile calls.
* `Session.Waits`: what a call that would block leaves; `Session.perform_stalls`.
* `Session.repeated_unmoved`: repeating the call changes nothing.
-/

namespace TlsTransport

variable {σ ω ε : Type}

/-! ## Sockets that are not ready -/

section Blocks

variable [Socket ω]

/-- A socket on which every read and every write of something would block, now and later. -/
def Blocks (k : ω) : Prop := ∃ P : ω → Prop, P k ∧ ∀ k, P k →
  (∀ max, ∃ e k', Socket.read k max = (.error e, k') ∧ e.isBlock = true ∧ P k') ∧
  ∀ bytes ≠ [], ∃ e k', Socket.write k bytes = (.error e, k') ∧ e.isBlock = true ∧ P k'

namespace Blocks

variable {k : ω}

theorem read (h : Blocks k) (max : Nat) :
    ∃ e k', Socket.read k max = (.error e, k') ∧ e.isBlock = true ∧ Blocks k' := by
  obtain ⟨P, hk, hP⟩ := h
  obtain ⟨e, k', hread, he, hk'⟩ := (hP k hk).1 max
  exact ⟨e, k', hread, he, P, hk', hP⟩

theorem write (h : Blocks k) {bytes : Bytes} (hb : bytes ≠ []) :
    ∃ e k', Socket.write k bytes = (.error e, k') ∧ e.isBlock = true ∧ Blocks k' := by
  obtain ⟨P, hk, hP⟩ := h
  obtain ⟨e, k', hwrite, he, hk'⟩ := (hP k hk).2 bytes hb
  exact ⟨e, k', hwrite, he, P, hk', hP⟩

omit [Socket ω] in
theorem not_interruption {e : IoError} (h : e.isBlock = true) : e.isInterruption = false := by
  cases he : e.isInterruption with
  | false => rfl
  | true =>
    rw [IoError.isBlock_of_isInterruption he] at h
    cases h

theorem fill (h : Blocks k) (b : Buffer) (max : Nat) : ∃ e k', e.isBlock = true ∧ Blocks k' ∧
    fill b k max = ⟨.error e, b.reserve max, k', [.read max (.error e)]⟩ := by
  obtain ⟨e, k', hread, he, hk'⟩ := h.read max
  have hanswered : WriteAnswer.interrupts (Socket.read k max).1 = false := by
    rw [hread]
    exact not_interruption he
  refine ⟨e, k', he, hk', ?_⟩
  rw [fill_of_answered b hanswered, Buffer.fillFrom, hread]

theorem drain (h : Blocks k) {b : Buffer} (hb : b.data ≠ []) : ∃ e k', e.isBlock = true ∧
    Blocks k' ∧ drain b k = ⟨.ok false, b, k', [.write b.data (.error e)]⟩ := by
  obtain ⟨e, k', hwrite, he, hk'⟩ := h.write hb
  refine ⟨e, k', he, hk', ?_⟩
  rw [drain_of_error (fun hempty => hb (b.isEmpty_iff.1 hempty)) hwrite (not_interruption he),
    if_pos he]

end Blocks
end Blocks

/-! ## Engines that have used their input -/

theorem Buffer.taken_of_same {b c : Buffer} (h : c.data = b.data) : b.taken c = [] := by
  rw [Buffer.taken, Buffer.size, Buffer.size, h, Nat.sub_self, List.take_zero]

theorem Buffer.added_of_same {b c : Buffer} (h : c.data = b.data) : b.added c = [] := by
  rw [Buffer.added, h]
  exact List.drop_length

section Sated

variable [Engine σ ε]

/-- An engine that needs more than this input: decryption does nothing with it. -/
def Sated (e : σ) (input : Bytes) : Prop := ∀ b output plaintext : Buffer, b.data = input →
  let turn := Engine.decrypt e b output plaintext
  turn.answer = .ok .needsInput ∧ turn.engine = e ∧ turn.input.data = input ∧
    turn.output.data = output.data ∧ turn.plaintext.data = plaintext.data

variable (σ) in
/-- Engines that do nothing when they are asked again to decrypt what they just said is not
enough. -/
def Settles : Prop := ∀ (e : σ) (b output plaintext : Buffer),
  let turn := Engine.decrypt e b output plaintext
  turn.answer = .ok .needsInput → Sated turn.engine turn.input.data

end Sated

theorem Tagged.Engine.settles : Settles Tagged.Engine := by
  intro e b output plaintext turn hturn b' output' plaintext' hb
  have hfirst : (reveal e b.data).Of output plaintext turn := reveal_of e b output plaintext
  have hanswer : (reveal e b.data).answer = .ok .needsInput := hfirst.answer.symm.trans hturn
  have hengine : turn.engine = e := hfirst.engine.trans (reveal_resume hanswer []).1
  -- What is left of the input is where decryption stopped.
  have hidle : reveal e turn.input.data = ⟨.ok .needsInput, e, turn.input.data, []⟩ := by
    rw [hfirst.input]
    exact reveal_idle hanswer
  have hagain := reveal_of e b' output' plaintext'
  rw [hb, hidle] at hagain
  rw [hengine]
  refine ⟨hagain.answer, hagain.engine, hagain.input, congrArg Buffer.data hagain.output, ?_⟩
  exact hagain.plaintext.trans (List.append_nil _)

/-! ## Futile calls -/

/-- An entry of a call that comes to nothing: the socket was not ready, the engine needed more input
and moved nothing, or there was something to remark. -/
def Event.Futile : Event ε → Prop
  | .socket call => call.blockedIn.isSome = true
  | .engine call => ∃ input plaintext,
    call = .decrypt input plaintext ⟨[], [], []⟩ (.ok .needsInput)
  | .notice what => what.isRemark = true

theorem Event.Futile.accepted {e : Event ε} (h : e.Futile) :
    e.ofSocket SocketCall.accepted = [] := by
  cases e with
  | engine call | notice what => rfl
  | socket call =>
    cases call with
    | write bytes answer => cases answer with
      | ok n => cases h
      | error e => rfl
    | read | flush => rfl

section Unmoved

variable [Socket ω]

/-- Nothing happened to a session but futile calls, at most so many of them calls of the engine. Its
socket is not ready. -/
inductive Unmoved (n : Nat) (s : Session σ ω ε) : Session σ ω ε → Prop where
  | intro {k : ω} {pending raw plaintext : Buffer} {new : List (Event ε)} (hk : Blocks k)
      (hpending : pending.data = s.pendingWrite.data) (hraw : raw.data = s.rawRead.data)
      (hplaintext : plaintext.data = s.plaintext.data) (hnew : ∀ e ∈ new, e.Futile)
      (hcalls : new.countP Event.isCall ≤ n) :
      Unmoved n s { s with
        socket := some k, pendingWrite := pending, rawRead := raw, plaintext := plaintext
        journal := new ++ s.journal }

namespace Unmoved

variable {m n : Nat} {s t u : Session σ ω ε}

theorem refl {k : ω} (hk : Blocks k) (hs : s.socket = some k) : Unmoved n s s := by
  have h : Unmoved n s { s with socket := some k, journal := [] ++ s.journal } :=
    .intro hk rfl rfl rfl (by simp) (by simp)
  rw [← hs] at h
  exact h

theorem trans (h : Unmoved m s t) (k : Unmoved n t u) : Unmoved (m + n) s u := by
  obtain ⟨-, hpending, hraw, hplaintext, hnew, hcalls⟩ := h
  obtain ⟨hk', hpending', hraw', hplaintext', hnew', hcalls'⟩ := k
  rw [← List.append_assoc]
  refine .intro hk' (hpending'.trans hpending) (hraw'.trans hraw) (hplaintext'.trans hplaintext)
    ?_ ?_
  · intro e he
    exact (List.mem_append.1 he).elim (hnew' e) (hnew e)
  · rw [List.countP_append]
    omega

theorem unready (h : Unmoved n s t) : ∃ k, t.socket = some k ∧ Blocks k := by
  obtain ⟨hk, -⟩ := h
  exact ⟨_, rfl, hk⟩

theorem accepted (h : Unmoved n s t) : t.accepted = s.accepted := by
  obtain ⟨-, -, -, -, hnew, -⟩ := h
  have hnone : gather (Event.ofSocket SocketCall.accepted) _ = [] :=
    List.flatMap_eq_nil_iff.2 fun e he => (hnew e (List.mem_reverse.1 he)).accepted
  rw [Session.accepted, Session.accepted, gather_append, hnone, List.append_nil]

theorem engine (h : Unmoved 0 s t) : gather (Event.ofEngine ([·])) t.journal =
    gather (Event.ofEngine ([·])) s.journal := by
  obtain ⟨-, -, -, -, -, hcalls⟩ := h
  have hnone : gather (Event.ofEngine ([·])) _ = [] := List.flatMap_eq_nil_iff.2 fun e he => by
    have hno := List.countP_eq_zero.1 (Nat.le_zero.1 hcalls) e (List.mem_reverse.1 he)
    cases e with
    | engine call => exact absurd rfl hno
    | socket | notice => rfl
  rw [gather_append, hnone, List.append_nil]

theorem mono (h : Unmoved m s t) (hn : m ≤ n) : Unmoved n s t := by
  obtain ⟨hk, hpending, hraw, hplaintext, hnew, hcalls⟩ := h
  exact .intro hk hpending hraw hplaintext hnew (Nat.le_trans hcalls hn)

theorem of_blocked {k : ω} (hk : Blocks k) {call : SocketCall}
    (hcall : call.blockedIn.isSome = true) {raw : Buffer} (hraw : raw.data = s.rawRead.data) :
    Unmoved 0 s ({ s with socket := some k, rawRead := raw }.tellSocket [call]) := by
  have hnew : ∀ e ∈ [(Event.socket call : Event ε)], e.Futile := by
    intro e he
    rw [List.mem_singleton.1 he]
    exact hcall
  exact .intro hk rfl hraw rfl hnew (Nat.le_refl 0)

theorem note (h : Unmoved n s t) {what : Notice ε} (hw : what.isRemark = true) :
    Unmoved n s (t.note what) := by
  obtain @⟨k, pending, raw, plaintext, new, hk, hpending, hraw, hplaintext, hnew, hcalls⟩ := h
  have hnoted : ∀ e ∈ .notice what :: new, e.Futile := by
    intro e he
    rcases List.mem_cons.1 he with rfl | he
    · exact hw
    · exact hnew e he
  exact .intro hk hpending hraw hplaintext hnoted hcalls

/-- A write takes its record out and puts it back. -/
theorem tracked {flight : Option InFlight} (h : Unmoved n { s with inFlight := flight } t) :
    Unmoved n s { t with inFlight := s.inFlight } := by
  obtain ⟨hk, hpending, hraw, hplaintext, hnew, hcalls⟩ := h
  exact .intro hk hpending hraw hplaintext hnew hcalls

end Unmoved
end Unmoved

namespace Session

/-! ## What a session tries -/

section Moves

variable [Socket ω] {s t : Session σ ω ε}

def Unready (s : Session σ ω ε) : Prop := ∃ k, s.socket = some k ∧ Blocks k

theorem Unready.flushPending (h : s.Unready) (hp : s.pendingWrite.data ≠ []) :
    ∃ t, s.flushPending = (.ok false, t) ∧ Unmoved 0 s t := by
  obtain ⟨k, hs, hk⟩ := h
  obtain ⟨e, k', he, hk', hdrain⟩ := hk.drain hp
  have hcall : (SocketCall.write s.pendingWrite.data (.error e)).blockedIn.isSome = true := by
    simp [SocketCall.blockedIn, he]
  refine ⟨_, ?_, Unmoved.of_blocked hk' hcall rfl⟩
  simp only [Session.flushPending, hs, hdrain]

theorem Unready.fillRaw (h : s.Unready) (max : Nat) :
    ∃ e t, s.fillRaw max = (.error e, t) ∧ e.isBlock = true ∧ Unmoved 0 s t := by
  obtain ⟨k, hs, hk⟩ := h
  obtain ⟨e, k', he, hk', hfill⟩ := hk.fill s.rawRead max
  have hcall : (SocketCall.read max (.error e)).blockedIn.isSome = true := by
    simp [SocketCall.blockedIn, he]
  refine ⟨e, _, ?_, he, Unmoved.of_blocked hk' hcall (Buffer.data_reserve s.rawRead max)⟩
  simp only [Session.fillRaw, hs, hfill]

end Moves

/-! ## Handshakes that wait -/

/-- The session waits in the middle of a handshake, and if it waits to write it has something to
write. -/
def Stuck (s : Session σ ω ε) : Prop :=
  s.state = .handshakeWrite ∧ s.pendingWrite.data ≠ [] ∨ s.state = .handshakeRead

variable [Engine σ ε] [Socket ω] {s t : Session σ ω ε}

theorem step_stuck (h : s.step = (.yield .wouldBlock, t)) : t.Stuck := by
  generalize hr : s.step = r at h
  have hcase := s.step_case
  rw [hr] at hcase
  cases hcase with
  | started | arrived => exact absurd h processHandshake_not_blocked
  | sendBlocked hs ha =>
    injection h with _ ht
    rw [← ht]
    exact .inl ⟨(s.state_flushPending).trans hs, flushPending_rest ha⟩
  | waits _ hs =>
    injection h with _ ht
    rw [← ht]
    exact .inr ((s.state_fillRaw _).trans hs)
  | finish => exact absurd h finishHandshake_not_blocked
  | _ => simp [failStep] at h

theorem runHandshake_stuck (h : s.runHandshake = (.wouldBlock, t)) : t.Stuck := by
  fun_induction runHandshake s with
  | case1 s s' _ ih => exact ih h
  | case2 s status s' hs =>
    injection h with hstatus ht
    subst hstatus ht
    exact step_stuck hs

omit [Engine σ ε] [Socket ω] in
theorem Stuck.inHandshake (h : s.Stuck) : s.state.inHandshake = true := by
  rcases h with ⟨h, -⟩ | h <;> rw [h] <;> rfl

omit [Engine σ ε] [Socket ω] in
theorem Stuck.not_connected (h : s.Stuck) : s.state ≠ .connected := by
  rcases h with ⟨h, -⟩ | h <;> rw [h] <;> simp

omit [Engine σ ε] in
theorem Stuck.unmoved {n : Nat} (h : s.Stuck) (k : Unmoved n s t) : t.Stuck := by
  obtain ⟨-, hpending, -, -, -, -⟩ := k
  refine h.imp (fun ⟨hs, hp⟩ => ⟨hs, ?_⟩) id
  rw [hpending]
  exact hp

theorem Stuck.runHandshake (h : s.Stuck) (hs : s.Unready) :
    ∃ t, s.runHandshake = (.wouldBlock, t) ∧ Unmoved 0 s t := by
  rcases h with ⟨hstate, hp⟩ | hstate
  · obtain ⟨t, hflush, ht⟩ := hs.flushPending hp
    refine ⟨t, runHandshake_of_yield ?_, ht⟩
    simp only [step, hstate, hflush]
  · obtain ⟨e, t, hfill, he, ht⟩ := hs.fillRaw maxRecordLength
    refine ⟨t, runHandshake_of_yield ?_, ht⟩
    simp only [step, hstate, hfill, he, if_true]

theorem handshakeStatus_stuck (h : s.handshakeStatus = (.wouldBlock, t)) :
    t.Stuck ∧ t.side = s.side := by
  have hrun : s.state = .initialized ∨ s.state.inHandshake = true → t.Stuck ∧ t.side = s.side := by
    intro hs
    have hside := (Steady.runHandshake s).side
    rcases hr : s.runHandshake with ⟨v | _ | _, u⟩
    · rw [handshakeStatus_of_ok hs hr] at h
      cases h
    · rw [handshakeStatus_of_wouldBlock hs hr] at h
      cases h
      rw [hr] at hside
      exact ⟨runHandshake_stuck hr, hside⟩
    · rw [handshakeStatus_of_error hs hr] at h
      cases h
  cases hs : s.state with
  | initialized => exact hrun (.inl hs)
  | handshakeWrite | handshakeRead | handshakeDone => exact hrun (.inr (by rw [hs]; rfl))
  | connected =>
    simp only [handshakeStatus, hs] at h
    split at h <;> cases h
  | constructed | closing | closed | error =>
    simp only [handshakeStatus, hs, failWith] at h
    cases h

theorem connect_stalls {host : String} (h : s.connect host = (.wouldBlock, t)) :
    t.side = .client ∧ t.Stuck := by
  unfold connect at h
  split at h
  · cases h
  rename_i hside
  obtain ⟨hstuck, hsame⟩ := handshakeStatus_stuck h
  refine ⟨hsame.trans ?_, hstuck⟩
  split <;> simpa using hside

theorem accept_stalls (h : s.accept = (.wouldBlock, t)) : t.side = .server ∧ t.Stuck := by
  unfold accept at h
  split at h
  · cases h
  rename_i hside
  obtain ⟨hstuck, hsame⟩ := handshakeStatus_stuck h
  exact ⟨hsame.trans (by simpa using hside), hstuck⟩

theorem Stuck.handshakeStatus (h : s.Stuck) (hs : s.Unready) :
    ∃ t, s.handshakeStatus = (.wouldBlock, t) ∧ Unmoved 0 s t := by
  obtain ⟨t, hrun, ht⟩ := h.runHandshake hs
  exact ⟨t, handshakeStatus_of_wouldBlock (.inr h.inHandshake) hrun, ht⟩

theorem Stuck.connect (h : s.Stuck) (hside : s.side = .client) (hs : s.Unready) (host : String) :
    ∃ t, s.connect host = (.wouldBlock, t) ∧ Unmoved 0 s t := by
  have hgo : ¬ s.side ≠ .client := fun hn => hn hside
  have hlater : ¬ (s.hostname = none ∧ s.state = .initialized) := by
    rintro ⟨-, hinit⟩
    have hin := h.inHandshake
    rw [hinit] at hin
    cases hin
  unfold Session.connect
  rw [if_neg hgo, if_neg hlater]
  exact h.handshakeStatus hs

theorem Stuck.accept (h : s.Stuck) (hside : s.side = .server) (hs : s.Unready) :
    ∃ t, s.accept = (.wouldBlock, t) ∧ Unmoved 0 s t := by
  have hgo : ¬ s.side ≠ .server := fun hn => hn hside
  unfold Session.accept
  rw [if_neg hgo]
  exact h.handshakeStatus hs

/-! ## Writes that wait -/

theorem sendRest_stalls {fragment : Nat} {flight : InFlight} {rest : Bytes}
    (h : s.sendRest fragment flight rest = (.wouldBlock, t)) : t.state = s.state ∧
      t.pendingWrite.data ≠ [] ∧ ∃ locked, t.inFlight = some { flight with locked := locked } := by
  induction flight, rest, s using sendRest.induct (σ := σ) (ω := ω) (ε := ε) fragment with
  | case1 flight rest s u e h₁ =>
    rw [sendRest_of_failed h₁] at h
    cases h
  | case2 flight rest s u h₁ =>
    rw [sendRest_of_blocked h₁] at h
    cases h
    have hrest := flushPending_rest (s := s) (by rw [h₁])
    rw [h₁] at hrest
    have hstate : u.state = s.state := flushPending_state h₁
    exact ⟨hstate, hrest, flight.locked, rfl⟩
  | case3 flight rest s u hr h₁ =>
    rw [sendRest_of_done h₁ (by simpa using hr)] at h
    cases h
  | case4 flight rest s u hr chunk v e h₁ h₂ =>
    rw [sendRest_of_refused h₁ (by simpa using hr) h₂] at h
    cases h
  | case5 flight rest s u hr chunk v a h₁ h₂ ih =>
    rw [sendRest_of_encrypted h₁ (by simpa using hr) h₂] at h
    obtain ⟨hstate, hpending, hflight⟩ := ih h
    have hv : v.state = u.state := by
      have hsame : v = (u.encryptOnce chunk).2 := by rw [h₂]
      rw [hsame]
      rfl
    exact ⟨hstate.trans (hv.trans (flushPending_state h₁)), hpending, hflight⟩

/-- The session waits to send what it encrypted of this payload. -/
structure Unsent (s : Session σ ω ε) (payload : Bytes) : Prop where
  state : s.state = .connected
  pending : s.pendingWrite.data ≠ []
  inFlight : ∃ locked, s.Awaits payload locked

theorem sendPayload_stalls {payload : Bytes} (hs : s.state = .connected)
    (h : s.sendPayload payload = (.wouldBlock, t)) : t.Unsent payload := by
  have hsent : ∀ {u : Session σ ω ε} {fragment locked : Nat} {rest : Bytes},
      u.state = .connected →
      u.sendRest fragment ⟨payload.length, locked, Digest.sip payload⟩ rest = (.wouldBlock, t) →
      t.Unsent payload := by
    intro u fragment locked rest hu hrest
    obtain ⟨hstate, hpending, hflight⟩ := sendRest_stalls hrest
    exact ⟨hstate.trans hu, hpending, hflight⟩
  unfold sendPayload at h
  simp only at h
  split at h
  · rename_i flight hf
    split at h
    · cases h
    · rename_i hsame
      obtain ⟨hlength, hdigest⟩ := not_or.1 hsame
      obtain ⟨length, locked, digest⟩ := flight
      simp only [ne_eq, not_not] at hlength hdigest
      subst hlength hdigest
      exact hsent (u := { s with inFlight := none }) hs h
  · split at h
    · cases h
    · exact hsent hs h

theorem writeData_stalls {payload : Bytes} (h : s.writeData payload = (.wouldBlock, t)) :
    t.Stuck ∧ t.renegotiating = true ∨ t.Unsent payload := by
  unfold writeData at h
  split at h
  · rename_i hs
    exact .inr (sendPayload_stalls hs h)
  split at h
  · rename_i hin
    obtain ⟨hin, hre⟩ := Bool.and_eq_true_iff.1 hin
    have hends := runHandshake_ends (.inl hin)
    rcases hr : s.runHandshake with ⟨v | _ | _, u⟩
    · rw [hr] at h
      exact .inr (sendPayload_stalls (runHandshake_ok hr) h)
    · rw [hr] at h hends
      cases h
      cases hends with | wouldBlock _ ht =>
      exact .inl ⟨runHandshake_stuck hr, ht.2.trans hre⟩
    · rw [hr] at h
      cases h
  split at h <;> cases h

omit [Engine σ ε] in
theorem Unsent.unmoved {payload : Bytes} {n : Nat} (h : s.Unsent payload) (k : Unmoved n s t) :
    t.Unsent payload := by
  obtain ⟨hs, hp, hflight⟩ := h
  obtain ⟨-, hpending, -, -, -, -⟩ := k
  exact ⟨hs, by rw [hpending]; exact hp, hflight⟩

theorem Unsent.sendPayload {payload : Bytes} (h : s.Unsent payload) (hs : s.Unready) :
    ∃ t, s.sendPayload payload = (.wouldBlock, t) ∧ Unmoved 0 s t := by
  obtain ⟨locked, hflight⟩ := h.inFlight
  have hopen : { s with inFlight := none }.Unready := hs
  obtain ⟨t, hflush, ht⟩ := hopen.flushPending h.pending
  have hremark : (Notice.writeBlocked locked payload.length t.pendingWrite.size :
      Notice ε).isRemark = true := rfl
  have hnoted := (ht.note hremark).tracked
  rw [sendPayload_eq (.inl hflight)]
  refine ⟨_, sendRest_of_blocked hflush, ?_⟩
  rw [hflight] at hnoted
  exact hnoted

theorem Unsent.writeData {payload : Bytes} (h : s.Unsent payload) (hs : s.Unready) :
    ∃ t, s.writeData payload = (.wouldBlock, t) ∧ Unmoved 0 s t := by
  unfold Session.writeData
  rw [if_pos h.state]
  exact h.sendPayload hs

theorem Stuck.writeData (h : s.Stuck) (hre : s.renegotiating = true) (hs : s.Unready)
    (payload : Bytes) : ∃ t, s.writeData payload = (.wouldBlock, t) ∧ Unmoved 0 s t := by
  obtain ⟨t, hrun, ht⟩ := h.runHandshake hs
  have hin : (s.state.inHandshake && s.renegotiating) = true := by rw [h.inHandshake, hre]; rfl
  refine ⟨t, ?_, ht⟩
  unfold Session.writeData
  rw [if_neg h.not_connected, if_pos hin, hrun]

/-! ## Reads that wait -/

omit [Socket ω] in
/-- There is nothing to read: no plaintext is left, and the engine has used its input. -/
structure Exhausted (s : Session σ ω ε) : Prop where
  state : s.state = .connected
  plaintext : s.plaintext.data = []
  peerClosed : s.peerClosed = false
  eof : s.eof = false
  sated : Sated s.engine s.rawRead.data

omit [Engine σ ε] [Socket ω] in
theorem answerRead_stalls {max : Nat} (h : s.answerRead max = (.wouldBlock, t)) :
    t = s ∧ s.plaintext.data = [] ∧ s.peerClosed = false ∧ s.eof = false := by
  unfold answerRead at h
  split at h
  · cases h
  rename_i hplain
  split at h
  · cases h
  rename_i hpeer
  split at h
  · cases h
  rename_i heof
  cases h
  have hempty : s.plaintext.isEmpty = true := by simpa using hplain
  exact ⟨rfl, s.plaintext.isEmpty_iff.1 hempty, by simpa using hpeer, by simpa using heof⟩

omit [Engine σ ε] in
/-- A read that waits after decryption has at most written out what was pending. -/
theorem finishRead_stalls {max : Nat} (h : s.finishRead max = (.wouldBlock, t)) :
    (t = s ∨ t = s.flushPending.2) ∧ s.plaintext.data = [] ∧ s.peerClosed = false ∧
      s.eof = false := by
  unfold finishRead at h
  split at h
  · obtain ⟨ht, hrest⟩ := answerRead_stalls h
    exact ⟨.inl ht, hrest⟩
  · have hkeep := Steady.flushPending s
    rcases hf : s.flushPending with ⟨e | all, u⟩
    · rw [hf] at h
      cases h
    · rw [hf] at h hkeep
      obtain ⟨ht, hplain, hpeer, heof⟩ := answerRead_stalls h
      rw [hkeep.plaintext] at hplain
      rw [hkeep.peerClosed] at hpeer
      rw [hkeep.eof] at heof
      exact ⟨.inr ht, hplain, hpeer, heof⟩

/-- The session waits in the middle of a handshake that the peer asked for while there is nothing to
read. -/
structure Reopened (s : Session σ ω ε) : Prop where
  stuck : s.Stuck
  renegotiating : s.renegotiating = true
  plaintext : s.plaintext.data = []

/-- A new handshake that does not come through fails, or waits with nothing to read, or waits while
there is plaintext to hand out. -/
theorem renegotiate_pauses {ended : Option (Status Bytes Unit)}
    (h : s.renegotiate = (.error ended, t)) : ended = some (.error ()) ∨
      ended = some .wouldBlock ∧ t.Reopened ∨ ended = none ∧ t.plaintext.data ≠ [] := by
  generalize hr : s.renegotiate = r at h
  have hcase := s.renegotiate_case
  rw [hr] at hcase
  cases hcase with
  | done => cases h
  | refused | failed =>
    cases h
    exact .inl rfl
  | @waits u v hfirst hrun =>
    have hends := reopen_ends hfirst
    rw [hrun] at hends
    cases hends with | wouldBlock _ hv =>
    have hplain := v.plaintext.isEmpty_iff
    cases hempty : v.plaintext.isEmpty with
    | false =>
      rw [hempty] at h hplain
      cases h
      exact .inr (.inr ⟨rfl, fun hnil => Bool.false_ne_true (hplain.2 hnil)⟩)
    | true =>
      rw [hempty] at h hplain
      cases h
      exact .inr (.inl ⟨rfl, runHandshake_stuck hrun, hv.2, hplain.1 rfl⟩)

theorem decryptAndFinish_stalls {max : Nat} (hσ : Settles σ) (hs : s.state = .connected)
    (h : s.decryptAndFinish max = (.wouldBlock, t)) : t.Exhausted ∨ t.Reopened := by
  -- Only the last round counts: it asked the engine in vain, or was cut short by a new handshake.
  obtain ⟨n, u, hn, hrounds, hlast, -⟩ := s.decryptAndFinish_rounds max
  obtain ⟨-, hu, -⟩ := hrounds.turns max hs hn
  unfold decryptAndFinish at h
  generalize maxRenegotiations - s.renegotiations - n = m at hlast
  generalize decryptAvailable (maxRenegotiations - s.renegotiations) s = r at hlast h
  cases hlast with
  | @drained _ v hd =>
    obtain ⟨ht, hplain, hpeer, heof⟩ := finishRead_stalls h
    have hv : v = u.decryptOnce.2 := by rw [hd]
    have hsated : Sated v.engine v.rawRead.data := by
      have ha : u.decryptOnce.1 = .ok .needsInput := by rw [hd]
      rw [hv]
      exact hσ u.engine u.rawRead u.pendingWrite u.plaintext ha
    have hready : v.Exhausted := ⟨by rw [hv]; exact hu, hplain, hpeer, heof, hsated⟩
    rcases ht with rfl | rfl
    · exact .inl hready
    · obtain ⟨k, b, journal, hframe⟩ := v.flushPending_frame
      rw [hframe]
      exact .inl ⟨hready.state, hplain, hpeer, heof, hsated⟩
  | @noticed _ v hd =>
    obtain ⟨hgone, -⟩ := v.answerClose_leaves
    obtain ⟨-, -, hpeer, -⟩ := finishRead_stalls h
    rw [hgone] at hpeer
    cases hpeer
  | refused | overrun => cases h
  | @stopped _ v w ended hd hr =>
    rcases renegotiate_pauses hr with rfl | ⟨rfl, hw⟩ | ⟨rfl, hplaintext⟩
    · cases h
    · cases h
      exact .inr hw
    · obtain ⟨-, hplain, -⟩ := finishRead_stalls h
      exact absurd hplain hplaintext

theorem receive_stalls {max : Nat} (hσ : Settles σ) (hs : s.state = .connected)
    (h : s.receive max = (.wouldBlock, t)) : t.Exhausted ∨ t.Reopened := by
  have hstate := s.state_fillRaw (Nat.max max maxRecordLength)
  generalize hr : s.receive max = r at h
  have hcase := s.receive_case max
  rw [hr] at hcase
  cases hcase with
  | failed => cases h
  | @ended u hf =>
    rw [hf] at hstate
    have hu : { u with eof := true }.state = .connected := hstate.trans hs
    exact decryptAndFinish_stalls hσ hu h
  | arrived hf =>
    rw [hf] at hstate
    exact decryptAndFinish_stalls hσ (hstate.trans hs) h

theorem readData_stalls {max : Nat} (hσ : Settles σ) (h : s.readData max = (.wouldBlock, t)) :
    max ≠ 0 ∧ (t.Exhausted ∨ t.Reopened) := by
  have hmax : max ≠ 0 := by
    intro hmax
    unfold readData at h
    rw [if_pos hmax] at h
    cases h
  refine ⟨hmax, ?_⟩
  -- A read that finds plaintext hands it out.
  have hplain : s.plaintext.data = [] := by
    cases hp : s.plaintext.isEmpty with
    | true => exact s.plaintext.isEmpty_iff.1 hp
    | false =>
      unfold readData at h
      rw [if_neg hmax, hp] at h
      cases h
  generalize hr : s.readData max = r at h
  have hcase := s.readData_case max
  rw [hr] at hcase
  cases hcase with
  | nothing | buffered | failed | parted | lost | refused => cases h
  | received _ hready => exact receive_stalls hσ hready.state h
  | waits hin hre hrun =>
    have hends := runHandshake_ends (.inl hin)
    have hkeep := (Steady.runHandshake s).plaintext
    rw [hrun] at hends hkeep
    cases h
    cases hends with | wouldBlock _ ht =>
    exact .inr ⟨runHandshake_stuck hrun, ht.2.trans hre, by rw [hkeep]; exact hplain⟩

omit [Engine σ ε] in
theorem Reopened.unmoved {n : Nat} (h : s.Reopened) (k : Unmoved n s t) : t.Reopened := by
  obtain ⟨hstuck, hre, hplain⟩ := h
  have hstuck : t.Stuck := hstuck.unmoved k
  obtain ⟨-, -, -, hplaintext, -, -⟩ := k
  exact ⟨hstuck, hre, hplaintext.trans hplain⟩

theorem Exhausted.unmoved {n : Nat} (h : s.Exhausted) (k : Unmoved n s t) : t.Exhausted := by
  obtain ⟨hs, hplain, hpeer, heof, hsated⟩ := h
  obtain ⟨-, -, hraw, hplaintext, -, -⟩ := k
  exact ⟨hs, hplaintext.trans hplain, hpeer, heof, by rw [hraw]; exact hsated⟩

omit [Socket ω] in
theorem Exhausted.answerRead (h : s.Exhausted) (max : Nat) :
    s.answerRead max = (.wouldBlock, s) := by
  have hempty : s.plaintext.isEmpty = true := s.plaintext.isEmpty_iff.2 h.plaintext
  simp [Session.answerRead, hempty, h.peerClosed, h.eof]

theorem Exhausted.finishRead (h : s.Exhausted) (hs : s.Unready) (max : Nat) :
    ∃ t, s.finishRead max = (.wouldBlock, t) ∧ Unmoved 0 s t := by
  unfold Session.finishRead
  by_cases hp : s.pendingWrite.isEmpty = true
  · rw [if_pos hp, h.answerRead]
    obtain ⟨k, hs, hk⟩ := hs
    exact ⟨s, rfl, .refl hk hs⟩
  · obtain ⟨t, hflush, ht⟩ := hs.flushPending fun hempty => hp (s.pendingWrite.isEmpty_iff.2 hempty)
    rw [if_neg hp, hflush]
    exact ⟨t, (h.unmoved ht).answerRead max, ht⟩

theorem Exhausted.decryptOnce (h : s.Exhausted) (hs : s.Unready) :
    ∃ t, s.decryptOnce = (.ok .needsInput, t) ∧ Unmoved 1 s t := by
  obtain ⟨k, hs, hk⟩ := hs
  obtain ⟨hanswer, hengine, hinput, houtput, hplaintext⟩ :=
    h.sated s.rawRead s.pendingWrite s.plaintext rfl
  generalize hturn : Engine.decrypt s.engine s.rawRead s.pendingWrite s.plaintext = turn at *
  have hmoved : turn.traffic s.rawRead s.pendingWrite s.plaintext = ⟨[], [], []⟩ := by
    rw [DecryptTurn.traffic, Buffer.taken_of_same hinput, Buffer.added_of_same houtput,
      Buffer.added_of_same hplaintext]
  have hfutile : ∀ e ∈ [(Event.engine (.decrypt s.rawRead.size s.plaintext.size ⟨[], [], []⟩
      (.ok .needsInput)) : Event ε)], e.Futile := by
    intro e he
    rw [List.mem_singleton.1 he]
    exact ⟨_, _, rfl⟩
  have hunmoved := Unmoved.intro hk houtput hinput hplaintext hfutile (Nat.le_refl 1)
  refine ⟨_, ?_, hunmoved⟩
  rw [← hs]
  unfold Session.decryptOnce
  simp only [hturn, hanswer, hmoved, hengine]
  rfl

theorem Exhausted.receive (h : s.Exhausted) (hs : s.Unready) (max : Nat) :
    ∃ t, s.receive max = (.wouldBlock, t) ∧ Unmoved 1 s t := by
  obtain ⟨e, t, hfill, he, ht⟩ := hs.fillRaw (Nat.max max maxRecordLength)
  have hfilled := h.unmoved ht
  obtain ⟨u, hdecrypt, hu⟩ := hfilled.decryptOnce ht.unready
  obtain ⟨v, hfinish, hv⟩ := (hfilled.unmoved hu).finishRead hu.unready max
  refine ⟨v, ?_, (ht.trans hu).trans hv⟩
  unfold Session.receive
  rw [hfill]
  simp only [he, if_true]
  rw [decryptAndFinish, decryptAvailable_of_needsInput hdecrypt]
  exact hfinish

theorem Exhausted.readData (h : s.Exhausted) (hs : s.Unready) {max : Nat} (hmax : max ≠ 0) :
    ∃ t, s.readData max = (.wouldBlock, t) ∧ Unmoved 1 s t := by
  have hempty : s.plaintext.isEmpty = true := s.plaintext.isEmpty_iff.2 h.plaintext
  unfold Session.readData
  rw [if_neg hmax, if_neg (by simp [hempty]), if_pos h.state]
  exact h.receive hs max

theorem Reopened.readData (h : s.Reopened) (hs : s.Unready) {max : Nat} (hmax : max ≠ 0) :
    ∃ t, s.readData max = (.wouldBlock, t) ∧ Unmoved 1 s t := by
  have hempty : s.plaintext.isEmpty = true := s.plaintext.isEmpty_iff.2 h.plaintext
  have hin : (s.state.inHandshake && s.renegotiating) = true := by
    rw [h.stuck.inHandshake, h.renegotiating]
    rfl
  obtain ⟨t, hrun, ht⟩ := h.stuck.runHandshake hs
  refine ⟨t, ?_, ht.mono (Nat.zero_le 1)⟩
  unfold Session.readData
  rw [if_neg hmax, if_neg (by simp [hempty]), if_neg h.stuck.not_connected, if_pos hin,
    hrun]

/-! ## Closing that waits -/

theorem close_stalls (h : s.close = (.wouldBlock, t)) : t.CloseWaits := by
  have hends := s.close_ends
  rw [h] at hends
  cases hends with | ended hends =>
  cases hends with | wouldBlock _ ht =>
  exact ht

omit [Engine σ ε] in
theorem CloseWaits.finishClose (h : s.CloseWaits) (hs : s.Unready) :
    ∃ t, s.finishClose = (.wouldBlock, t) ∧ Unmoved 0 s t := by
  obtain ⟨t, hflush, ht⟩ := hs.flushPending h.2
  refine ⟨t, ?_, ht⟩
  rw [Session.finishClose, hflush]

theorem CloseWaits.close (h : s.CloseWaits) (hs : s.Unready) :
    ∃ t, s.close = (.wouldBlock, t) ∧ Unmoved 0 s t := by
  have hconn : ¬ s.state = .connected := by
    rw [h.1]
    simp
  unfold Session.close
  rw [if_neg hconn, if_pos h.1]
  exact h.finishClose hs

/-! ## Every call -/

/-- What a call that would block leaves. -/
def Waits : Call ω → Session σ ω ε → Prop
  | .connect _, s => s.side = .client ∧ s.Stuck
  | .accept, s => s.side = .server ∧ s.Stuck
  | .write payload, s => s.Stuck ∧ s.renegotiating = true ∨ s.Unsent payload
  | .read max, s => max ≠ 0 ∧ (s.Exhausted ∨ s.Reopened)
  | .close, s => s.CloseWaits
  | .init _, _ | .setServerName _, _ | .outside _, _ => False

theorem perform_stalls {c : Call ω} (hσ : c.reads = true → Settles σ)
    (h : (s.perform c).1.waits = true) : Waits c (s.perform c).2 := by
  cases c with
  | init | setServerName | outside => cases h
  | connect host => exact connect_stalls (Prod.ext (Answer.waits_agreed h) rfl)
  | accept => exact accept_stalls (Prod.ext (Answer.waits_agreed h) rfl)
  | write payload => exact writeData_stalls (Prod.ext (Answer.waits_wrote h) rfl)
  | read max => exact readData_stalls (hσ rfl) (Prod.ext (Answer.waits_got h) rfl)
  | close => exact close_stalls (Prod.ext (Answer.waits_closed h) rfl)

theorem Waits.unmoved {c : Call ω} {n : Nat} (h : Waits c s) (k : Unmoved n s t) : Waits c t := by
  have hframe : t.side = s.side ∧ t.renegotiating = s.renegotiating := by
    obtain ⟨-, -, -, -, -, -⟩ := k
    exact ⟨rfl, rfl⟩
  cases c with
  | init | setServerName | outside => cases h
  | connect host => exact ⟨hframe.1.trans h.1, h.2.unmoved k⟩
  | accept => exact ⟨hframe.1.trans h.1, h.2.unmoved k⟩
  | write payload =>
    refine h.imp (fun ⟨hstuck, hre⟩ => ⟨hstuck.unmoved k, hframe.2.trans hre⟩) fun hunsent => ?_
    exact hunsent.unmoved k
  | read max => exact ⟨h.1, h.2.imp (·.unmoved k) (·.unmoved k)⟩
  | close =>
    obtain ⟨-, hpending, -, -, -, -⟩ := k
    exact ⟨h.1, by rw [hpending]; exact h.2⟩

theorem Waits.perform {c : Call ω} (h : Waits c s) (hs : s.Unready) :
    (s.perform c).1.waits = true ∧ Unmoved c.reads.toNat s (s.perform c).2 := by
  cases c with
  | init | setServerName | outside => cases h
  | connect host =>
    obtain ⟨t, hcall, ht⟩ := h.2.connect h.1 hs host
    simp only [Session.perform, hcall]
    exact ⟨rfl, ht⟩
  | accept =>
    obtain ⟨t, hcall, ht⟩ := h.2.accept h.1 hs
    simp only [Session.perform, hcall]
    exact ⟨rfl, ht⟩
  | write payload =>
    obtain ⟨t, hcall, ht⟩ : ∃ t, s.writeData payload = (.wouldBlock, t) ∧ Unmoved 0 s t := by
      rcases h with ⟨hstuck, hre⟩ | hunsent
      · exact hstuck.writeData hre hs payload
      · exact hunsent.writeData hs
    simp only [Session.perform, hcall]
    exact ⟨rfl, ht⟩
  | read max =>
    obtain ⟨t, hcall, ht⟩ : ∃ t, s.readData max = (.wouldBlock, t) ∧ Unmoved 1 s t := by
      rcases h with ⟨hmax, hexhausted | hreopened⟩
      · exact hexhausted.readData hs hmax
      · exact hreopened.readData hs hmax
    simp only [Session.perform, hcall]
    exact ⟨rfl, ht⟩
  | close =>
    obtain ⟨t, hcall, ht⟩ := CloseWaits.close h hs
    simp only [Session.perform, hcall]
    exact ⟨rfl, ht⟩

/-- There is one way in which a call answers that it would block. -/
theorem waits_unique {c : Call ω} (hs : (s.perform c).1.waits = true)
    (ht : (t.perform c).1.waits = true) : (t.perform c).1 = (s.perform c).1 := by
  cases c with
  | init | setServerName | outside => cases hs
  | connect | accept =>
    exact congrArg Answer.agreed ((Answer.waits_agreed ht).trans (Answer.waits_agreed hs).symm)
  | write =>
    exact congrArg Answer.wrote ((Answer.waits_wrote ht).trans (Answer.waits_wrote hs).symm)
  | read => exact congrArg Answer.got ((Answer.waits_got ht).trans (Answer.waits_got hs).symm)
  | close =>
    exact congrArg Answer.closed ((Answer.waits_closed ht).trans (Answer.waits_closed hs).symm)

theorem Waits.run {c : Call ω} (h : Waits c s) (hs : s.Unready) (n : Nat) :
    (s.run (List.replicate n c)).1 = List.replicate n (s.perform c).1 ∧
      Unmoved (n * c.reads.toNat) s (s.run (List.replicate n c)).2 := by
  induction n generalizing s with
  | zero =>
    obtain ⟨k, hs, hk⟩ := hs
    exact ⟨rfl, .refl hk hs⟩
  | succ n ih =>
    obtain ⟨hanswer, hfirst⟩ := h.perform hs
    have hnext := h.unmoved hfirst
    obtain ⟨hanswers, hrest⟩ := ih hnext hfirst.unready
    obtain ⟨hagain, -⟩ := hnext.perform hfirst.unready
    constructor
    · rw [waits_unique hanswer hagain] at hanswers
      exact congrArg (List.cons (s.perform c).1) hanswers
    · have hsum : c.reads.toNat + n * c.reads.toNat = (n + 1) * c.reads.toNat := by
        rw [Nat.succ_mul, Nat.add_comm]
      rw [← hsum]
      exact hfirst.trans hrest

/-- A call that would block and is repeated, over a socket that is not ready for anything, any
number of times. -/
theorem repeated_unmoved (s : Session σ ω ε) (c : Call ω) (hw : (s.perform c).1.waits = true)
    (hσ : c.reads = true → Settles σ) {k : ω} (hk : Blocks k) (n : Nat) :
    let t := { (s.perform c).2 with socket := some k }
    let r := t.run (List.replicate n c)
    r.1 = List.replicate n (s.perform c).1 ∧ r.2.accepted = t.accepted ∧
      (c.reads = false → gather (Event.ofEngine ([·])) r.2.journal =
        gather (Event.ofEngine ([·])) t.journal) ∧
      Unmoved (n * c.reads.toNat) t r.2 := by
  intro t r
  have hnothing : ∀ e ∈ ([] : List (Event ε)), e.Futile := by simp
  have hplaced : Unmoved 0 (s.perform c).2 t :=
    .intro hk rfl rfl rfl hnothing (Nat.le_refl 0)
  have hwaits : Waits c t := (perform_stalls hσ hw).unmoved hplaced
  obtain ⟨hanswers, hunmoved⟩ := hwaits.run ⟨k, rfl, hk⟩ n
  refine ⟨?_, hunmoved.accepted, fun hreads => ?_, hunmoved⟩
  · rw [waits_unique hw (hwaits.perform ⟨k, rfl, hk⟩).1] at hanswers
    exact hanswers
  · rw [hreads] at hunmoved
    exact hunmoved.engine

/-- A client's end of a pipe that takes nothing and has nothing to give. -/
def stalledEnd : Pipe.End := ⟨⟨{ Wire.empty with budget := some 0 }, .empty⟩, .client⟩

theorem stalledEnd_blocks : Blocks stalledEnd := by
  refine ⟨(· = stalledEnd), rfl, ?_⟩
  rintro k rfl
  refine ⟨fun max => ⟨_, _, rfl, rfl, rfl⟩, fun bytes hb => ?_⟩
  obtain ⟨b, rest, rfl⟩ := List.exists_cons_of_ne_nil hb
  exact ⟨_, _, rfl, rfl, rfl⟩

/-- A tagged client whose server has answered its opening and said no more. -/
def idleClient : Session Tagged.Engine Pipe.End Tagged.Fault :=
  let answered := { Wire.empty with bytes := Tagged.Record.encode ⟨Tagged.helloDone, []⟩ }
  (run (ofEngine (.ofSide .client) .client false .default)
    [.init ⟨⟨.empty, answered⟩, .client⟩, .connect "localhost"]).2

/-- Its reads would block, and so do those that are made once its pipe has stalled. -/
theorem idleClient_unmoved :
    let t := { (idleClient.perform (.read 4)).2 with socket := some stalledEnd }
    let r := t.run (List.replicate 3 (.read 4))
    idleClient.state = .connected ∧ r.1 = List.replicate 3 (idleClient.perform (.read 4)).1 ∧
      Unmoved 3 t r.2 := by
  intro t r
  have hw : (idleClient.perform (.read 4)).1.waits = true := by decide +kernel
  obtain ⟨hanswers, -, -, hunmoved⟩ := repeated_unmoved idleClient (.read 4) hw
    (fun _ => Tagged.Engine.settles) stalledEnd_blocks 3
  exact ⟨by decide +kernel, hanswers, hunmoved⟩

end Session
end TlsTransport
