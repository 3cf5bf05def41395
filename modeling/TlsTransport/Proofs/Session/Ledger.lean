import TlsTransport.Proofs.Contract
import TlsTransport.Proofs.Session.Journal
import TlsTransport.Pipe

/-! # No byte is lost

A session's three buffers stand between the socket, the engine and the caller. What went in on one
side of a buffer came out on the other or is still inside, in the same order, at every moment and
whatever failed. That is the ledger of a session, `Balanced`; every turn keeps it, so every run
does.
-/

namespace TlsTransport

variable {σ ω ε : Type}

/-! ## Sockets -/

section Sockets

variable [Socket ω]

theorem drain_accepted (b : Buffer) (k : ω) :
    (drain b k).calls.flatMap SocketCall.accepted ++ (drain b k).buffer.data = b.data := by
  fun_induction drain b k with
  | case1 => rfl
  | case2 b k _ r call hr => simp [call, hr, SocketCall.accepted]
  | case3 b k _ r call n hr rest ih =>
    have hcall : call.accepted = b.data.take (n + 1) := by simp only [call, hr, SocketCall.accepted]
    rw [List.flatMap_cons, hcall, List.append_assoc, ih, Buffer.data_drop, List.take_append_drop]
  | case4 b k _ r call e hr => simp [call, hr, SocketCall.accepted]
  | case5 b k _ r call e hr _ _ rest ih =>
    have hcall : call.accepted = [] := by simp only [call, hr, SocketCall.accepted]
    rw [List.flatMap_cons, hcall, List.nil_append, ih]
  | case6 b k _ r call e hr => simp [call, hr, SocketCall.accepted]

theorem drain_delivered (b : Buffer) (k : ω) :
    (drain b k).calls.flatMap SocketCall.delivered = [] := by
  fun_induction drain b k with
  | case1 => rfl
  | case2 | case4 | case6 => rfl
  | case3 _ _ _ _ _ _ _ _ ih => exact ih
  | case5 _ _ _ _ _ _ _ _ _ _ ih => exact ih

theorem fill_delivered (b : Buffer) (k : ω) (max : Nat) :
    b.data ++ (fill b k max).calls.flatMap SocketCall.delivered = (fill b k max).buffer.data := by
  fun_induction fill b k max with
  | case1 b k r h rest ih =>
    have hr : r.answer = (Socket.read k max).1 := rfl
    have hcalls : r.calls = [.read max r.answer] := rfl
    have hbuffer : r.buffer.data = b.data := by
      unfold Filling.isInterrupted at h
      cases ha : (Socket.read k max).1 with
      | ok bytes => rw [hr, ha] at h; cases h
      | error e => simp [r, Buffer.fillFrom, ha]
    have hnone : r.calls.flatMap SocketCall.delivered = [] := by
      unfold Filling.isInterrupted at h
      cases ha : r.answer with
      | ok bytes => rw [ha] at h; cases h
      | error e => simp [hcalls, ha, SocketCall.delivered]
    rw [List.flatMap_append, hnone, List.nil_append, ← ih, hbuffer]
  | case2 b k r h =>
    cases ha : (Socket.read k max).1 <;> simp [r, Buffer.fillFrom, ha, SocketCall.delivered]

theorem fill_accepted (b : Buffer) (k : ω) (max : Nat) :
    (fill b k max).calls.flatMap SocketCall.accepted = [] := by
  fun_induction fill b k max with
  | case1 b k r h rest ih => rw [List.flatMap_append, ih]; rfl
  | case2 => rfl

end Sockets

/-! ## The ledger -/

/-- What went into each buffer is what came out of it and what is still inside; the caller was
handed so many bytes. -/
structure Balanced (handed : Bytes) (s : Session σ ω ε) : Prop where
  written : s.accepted ++ s.pendingWrite.data = s.emitted
  read : s.delivered = s.consumed ++ s.rawRead.data
  opened : handed ++ s.plaintext.data = s.revealed

namespace Balanced

open Session

variable {handed : Bytes} {s t : Session σ ω ε}

theorem silent (h : Balanced handed s) (hq : Silent s t) : Balanced handed t where
  written := by
    rw [accepted, emitted, hq.gather_socket, hq.gather_engine, hq.pendingWrite]
    exact h.written
  read := by
    rw [delivered, consumed, hq.gather_socket, hq.gather_engine, hq.rawRead]
    exact h.read
  opened := by
    rw [revealed, hq.gather_engine, hq.plaintext]
    exact h.opened

theorem engineCall (h : Balanced handed s) (call : EngineCall ε)
    (hj : t.journal = .engine call :: s.journal)
    (hin : call.traffic.consumed ++ t.rawRead.data = s.rawRead.data)
    (hout : s.pendingWrite.data ++ call.traffic.emitted = t.pendingWrite.data)
    (hplain : s.plaintext.data ++ call.traffic.revealed = t.plaintext.data) :
    Balanced handed t where
  written := by
    rw [accepted, emitted, hj, gather_cons, gather_cons, ← hout]
    have := h.written
    rw [accepted, emitted] at this
    simp only [Event.ofSocket, Event.ofEngine, List.append_nil, ← this, List.append_assoc]
  read := by
    rw [delivered, consumed, hj, gather_cons, gather_cons]
    have := h.read
    rw [delivered, consumed] at this
    simp only [Event.ofSocket, Event.ofEngine, List.append_nil, this, ← hin, List.append_assoc]
  opened := by
    rw [revealed, hj, gather_cons, ← hplain]
    have := h.opened
    rw [revealed] at this
    simp only [Event.ofEngine, ← this, List.append_assoc]

section Moves

variable [Socket ω]

theorem flushPending (h : Balanced handed s) : Balanced handed s.flushPending.2 := by
  unfold Session.flushPending
  cases hk : s.socket with
  | none => exact h
  | some k =>
    have hacc := drain_accepted s.pendingWrite k
    have hdel := drain_delivered s.pendingWrite k
    refine ⟨?_, ?_, ?_⟩
    · simp only [accepted, emitted, tellSocket, gather_append, gather_socket,
        gather_engine_of_socket, List.append_nil, List.append_assoc, hacc]
      exact h.written
    · simp only [delivered, consumed, tellSocket, gather_append, gather_socket,
        gather_engine_of_socket, List.append_nil, hdel]
      exact h.read
    · simp only [revealed, tellSocket, gather_append, gather_engine_of_socket, List.append_nil]
      exact h.opened

theorem fillRaw (h : Balanced handed s) (max : Nat) : Balanced handed (s.fillRaw max).2 := by
  unfold Session.fillRaw
  cases hk : s.socket with
  | none => exact h
  | some k =>
    have hacc := fill_accepted s.rawRead k max
    have hdel := fill_delivered s.rawRead k max
    have hread := h.read
    rw [delivered, consumed] at hread
    refine ⟨?_, ?_, ?_⟩
    · simp only [accepted, emitted, tellSocket, gather_append, gather_socket,
        gather_engine_of_socket, List.append_nil, hacc]
      exact h.written
    · simp only [delivered, consumed, tellSocket, gather_append, gather_socket,
        gather_engine_of_socket, List.append_nil, hread, ← hdel, List.append_assoc]
    · simp only [revealed, tellSocket, gather_append, gather_engine_of_socket, List.append_nil]
      exact h.opened

theorem flushBestEffort (h : Balanced handed s) : Balanced handed s.flushBestEffort := by
  unfold Session.flushBestEffort
  split
  · exact h.flushPending
  · exact h

end Moves

/-! ## Engine calls -/

section Calls

variable [Engine σ ε]

theorem startEngine (h : Balanced handed s) : Balanced handed s.startEngine.2 :=
  h.engineCall (.start s.requestedName s.startEngine.1) rfl rfl (List.append_nil _)
    (List.append_nil _)

theorem handshakeOnce (hσ : KeepsBuffers σ) (h : Balanced handed s) :
    Balanced handed s.handshakeOnce.2 :=
  h.engineCall _ rfl (Buffer.taken_append (hσ.handshake_input ..))
    (Buffer.append_added (hσ.handshake_output ..)) (List.append_nil _)

theorem encryptOnce (hσ : KeepsBuffers σ) (h : Balanced handed s) (chunk : Bytes) :
    Balanced handed (s.encryptOnce chunk).2 :=
  h.engineCall _ rfl rfl (Buffer.append_added (hσ.encrypt_output ..)) (List.append_nil _)

theorem decryptOnce (hσ : KeepsBuffers σ) (h : Balanced handed s) :
    Balanced handed s.decryptOnce.2 :=
  h.engineCall _ rfl (Buffer.taken_append (hσ.decrypt_input ..))
    (Buffer.append_added (hσ.decrypt_output ..)) (Buffer.append_added (hσ.decrypt_plaintext ..))

theorem notifyClose (hσ : KeepsBuffers σ) (h : Balanced handed s) :
    Balanced handed s.notifyClose.2 :=
  h.engineCall _ rfl rfl (Buffer.append_added (hσ.closeNotify_output ..)) (List.append_nil _)

end Calls

/-- A read may move the front of the plaintext to the caller. -/
theorem handsOut {r : Answer × Session σ ω ε} (h : Balanced handed s) (hr : HandsOut s r) :
    Balanced (handed ++ r.1.handed) r.2 := by
  have hw := h.written
  have hd := h.read
  rw [hr.frame]
  refine ⟨hw, hd, ?_⟩
  rw [List.append_assoc, hr.handed]
  exact h.opened

/-! ## Turns -/

section Turning

variable [Engine σ ε] [Socket ω]

theorem processHandshake (hσ : KeepsBuffers σ) (h : Balanced handed s) :
    Balanced handed s.processHandshake.2 := by
  have honce := h.handshakeOnce hσ
  rcases s.processHandshake_cases with ⟨e, -, he⟩ | ⟨progress, t, -, ht, hu⟩
  · rw [he]
    exact (honce.silent (.fail _ _)).flushBestEffort
  · rw [hu]
    have hquiet : Silent s.handshakeOnce.2 t := by
      rw [ht]
      exact ⟨rfl, rfl, rfl, [], rfl⟩
    exact honce.silent (hquiet.trans (.setState _ _))

theorem step (hσ : KeepsBuffers σ) (h : Balanced handed s) : Balanced handed s.step.2 := by
  generalize hr : s.step = r
  have hcase := s.step_case
  rw [hr] at hcase
  cases hcase with
  | startFailed => exact h.startEngine.silent (.fail _ _)
  | started =>
    have hready : Silent s.startEngine.2 { s.startEngine.2 with handshakeComplete := false } :=
      ⟨rfl, rfl, rfl, [], rfl⟩
    exact (h.startEngine.silent hready).processHandshake hσ
  | sent => exact h.flushPending.silent (.setState _ _)
  | sendBlocked => exact h.flushPending
  | sendFailed => exact h.flushPending.silent (.fail _ _)
  | ended => exact (h.fillRaw _).silent (.fail _ _)
  | arrived => exact (h.fillRaw _).processHandshake hσ
  | waits => exact h.fillRaw _
  | receiveFailed => exact (h.fillRaw _).silent (.fail _ _)
  | finish =>
    rcases s.finishHandshake_cases with ⟨-, f, -, hf⟩ | ⟨-, v, -, hv⟩
    · rw [hf]
      exact h.silent (.fail _ _)
    · rw [hv]
      exact h.silent (.connectedAs _ _)
  | agreed => exact h
  | refused => exact h.silent (.fail _ _)

theorem turn (hσ : KeepsBuffers σ) {c : Call ω} (h : Balanced handed s) (ht : Turn c s t) :
    Balanced handed t := by
  cases ht with
  | bind k =>
    have hbound : Silent s { s with socket := some k } := ⟨rfl, rfl, rfl, [], rfl⟩
    exact h.silent (hbound.trans (.setState _ _))
  | nameServer | nameHost | outside | sawEnd | track | release =>
    exact h.silent ⟨rfl, rfl, rfl, [], rfl⟩
  | step => exact h.step hσ
  | decrypt => exact h.decryptOnce hσ
  | reopen =>
    have hagain : Silent s.decryptOnce.2
        { s.decryptOnce.2 with renegotiations := s.renegotiations + 1 } := ⟨rfl, rfl, rfl, [], rfl⟩
    exact (h.decryptOnce hσ).silent (hagain.trans (.reopen _))
  | overrun =>
    have hagain : Silent s.decryptOnce.2
        { s.decryptOnce.2 with renegotiations := s.renegotiations + 1 } := ⟨rfl, rfl, rfl, [], rfl⟩
    exact (h.decryptOnce hσ).silent (hagain.trans (.fail _ _))
  | resume => exact h.processHandshake hσ
  | fill => exact h.fillRaw _
  | sawClose => exact h.silent ((Silent.note s .peerClosed).trans ⟨rfl, rfl, rfl, [], rfl⟩)
  | encrypt => exact h.encryptOnce hσ _
  | notify => exact h.notifyClose hσ
  | withdraw => exact h.silent (.setState _ _)
  | flush => exact h.flushPending
  | remark => exact h.silent (.note _ _)
  | fail => exact h.silent (.fail _ _)

theorem turns (hσ : KeepsBuffers σ) {c : Call ω} (h : Balanced handed s) (ht : Turns c s t) :
    Balanced handed t := by
  induction ht with
  | refl => exact h
  | tail _ hlast ih => exact ih.turn hσ hlast

theorem perform (hσ : KeepsBuffers σ) (h : Balanced handed s) (c : Call ω) :
    Balanced (handed ++ (s.perform c).1.handed) (s.perform c).2 := by
  obtain ⟨t, ht, hout⟩ := s.perform_turns c
  exact (h.turns hσ ht).handsOut hout

theorem run (hσ : KeepsBuffers σ) (h : Balanced handed s) (calls : List (Call ω)) :
    Balanced (handed ++ (s.run calls).1.flatMap Answer.handed) (s.run calls).2 := by
  induction calls generalizing handed s with
  | nil => simpa [Session.run] using h
  | cons c calls ih =>
    have hrest := ih (h.perform hσ c)
    rw [List.append_assoc] at hrest
    exact hrest

end Turning

theorem ofEngine (engine : σ) (side : Side) (verifyPeer : Bool) (policy : CipherPolicy) :
    Balanced [] (Session.ofEngine engine side verifyPeer policy : Session σ ω ε) :=
  ⟨rfl, rfl, rfl⟩

end Balanced

/-! ## Every run -/

namespace Session

variable [Engine σ ε] [Socket ω]

/-- Over an engine that keeps to its buffers the ledger of a session is balanced after every run,
and at every moment of the call that follows. -/
theorem run_balanced (hσ : KeepsBuffers σ) (engine : σ) (side : Side) (verifyPeer : Bool)
    (policy : CipherPolicy) (calls : List (Call ω)) :
    let r := (ofEngine engine side verifyPeer policy : Session σ ω ε).run calls
    Balanced (r.1.flatMap Answer.handed) r.2 ∧
      ∀ c x, Turns c r.2 x → Balanced (r.1.flatMap Answer.handed) x := by
  have h := (Balanced.ofEngine engine side verifyPeer policy).run (ω := ω) hσ calls
  exact ⟨h, fun c x hx => h.turns hσ hx⟩

/-- The run of a client over a pipe in which nothing arrives. -/
theorem run_balanced_client :
    let r := (ofEngine (Tagged.Engine.ofSide .client) .client false .default :
      Session Tagged.Engine Pipe.End Tagged.Fault).run
        [.init ⟨.empty, .client⟩, .connect "localhost", .read 5, .close]
    Balanced (r.1.flatMap Answer.handed) r.2 ∧
      ∀ c x, Turns c r.2 x → Balanced (r.1.flatMap Answer.handed) x :=
  run_balanced Tagged.Engine.keepsBuffers _ _ _ _ _

end Session
end TlsTransport
