import TlsTransport.Proofs.Session.Rounds

/-! # The loops of a session

A session goes round in five places: it repeats a read that was interrupted, it writes until nothing
is pending, it takes the steps of a handshake, it cuts a payload into pieces, and it decrypts again
after each new handshake. Each is written here as a loop that knows of no bound. All of them end,
whatever the engine and the socket answer, with what the session's operations answer.

* `Ends`: a loop ends after so many rounds.
* `Unrolls`: a function satisfies the equation of a loop that has a variant; `Unrolls.ends`: then the
  loop ends with the value of the function, and the variant bounds its rounds.
* `Session.fillRound`, `flushRound`, `handshakeRound`, `sendRound`, `decryptRound`: the bodies, each
  with the theorem that the operation of the session unrolls it.
-/

namespace TlsTransport

variable {σ ω ε : Type}

/-- A loop with this body ends with this result after so many rounds. A round either has the result
or says from where the next one starts. -/
inductive Ends {α β : Type} (body : α → β ⊕ α) : Nat → α → β → Prop where
  | stop {a : α} {b : β} (h : body a = .inl b) : Ends body 1 a b
  | again {n : Nat} {a a' : α} {b : β} (h : body a = .inr a') (k : Ends body n a' b) :
      Ends body (n + 1) a b

/-- A function has the results of a loop: it is what a round has, or itself from where the next round
starts. A variant says that there is an end to it. -/
structure Unrolls {α β : Type} (body : α → β ⊕ α) (f : α → β) (variant : α → Nat) : Prop where
  eq : ∀ a, f a = (body a).elim id f
  lower : ∀ {a a' : α}, body a = .inr a' → variant a' < variant a

theorem Unrolls.ends {α β : Type} {body : α → β ⊕ α} {f : α → β} {variant : α → Nat}
    (h : Unrolls body f variant) (a : α) : ∃ n ≤ variant a + 1, Ends body n a (f a) := by
  induction hm : variant a using Nat.strongRecOn generalizing a with
  | ind m ih =>
    have heq := h.eq a
    cases hround : body a with
    | inl b =>
      rw [hround] at heq
      exact ⟨1, by omega, heq ▸ .stop hround⟩
    | inr a' =>
      rw [hround] at heq
      obtain ⟨n, hn, hends⟩ := ih (variant a') (hm ▸ h.lower hround) a' rfl
      have hless := h.lower hround
      exact ⟨n + 1, by omega, .again hround (heq ▸ hends)⟩

namespace Session

/-! ## Reading and writing -/

section Moves

variable [Socket ω]

/-- Reads once, and once more if that was interrupted. -/
def fillRound (max : Nat) (s : Session σ ω ε) :
    (Except IoError Bytes × Session σ ω ε) ⊕ Session σ ω ε :=
  match s.socket with
  | none => .inl (.error (.bare .notConnected), s)
  | some k =>
    let r := s.rawRead.fillFrom k max
    let t := { s with socket := some r.socket, rawRead := r.buffer }.tellSocket r.calls
    if r.isInterrupted then .inr t else .inl (r.answer, t)

/-- Writes once, and once more if that was interrupted or took only a part. -/
def flushRound (s : Session σ ω ε) : (Except IoError Bool × Session σ ω ε) ⊕ Session σ ω ε :=
  match s.socket with
  | none => .inl (.error (.bare .notConnected), s)
  | some k =>
    if s.pendingWrite.isEmpty then .inl (.ok true, s)
    else
      let r := Socket.write k s.pendingWrite.data
      let t := { s with socket := some r.2 }.tellSocket [.write s.pendingWrite.data r.1]
      match r.1 with
      | .ok 0 => .inl (.error (.bare .writeZero), t)
      | .ok (n + 1) => .inr { t with pendingWrite := t.pendingWrite.drop (n + 1) }
      | .error e =>
        if e.isBlock then .inl (.ok false, t)
        else if e.isInterruption then .inr t
        else .inl (.error e, t)

omit [Socket ω] in
theorem tellSocket_append (s : Session σ ω ε) (first rest : List SocketCall) :
    s.tellSocket (first ++ rest) = (s.tellSocket first).tellSocket rest := by
  simp [tellSocket]

theorem fill_unrolls (max : Nat) :
    Unrolls (fillRound max) (fun s : Session σ ω ε => s.fillRaw max) supply where
  eq s := by
    unfold fillRound fillRaw
    cases hk : s.socket with
    | none => rfl
    | some k =>
      simp only
      rw [fill]
      split
      · simp only [tellSocket_append]
        rfl
      · rfl
  lower {s t} h := by
    unfold fillRound at h
    cases hk : s.socket with
    | none =>
      rw [hk] at h
      cases h
    | some k =>
      simp only [hk] at h
      split at h
      · rename_i hint
        have hless := supply_fillFrom_lt s.rawRead k max hint
        injection h with h
        rw [← h]
        simpa only [supply, tellSocket, hk] using hless
      · cases h

theorem flush_unrolls : Unrolls flushRound (fun s : Session σ ω ε => s.flushPending)
    (fun s => s.pendingWrite.size + s.supply) where
  eq s := by
    unfold flushRound
    cases hk : s.socket with
    | none => simp only [flushPending, hk]; rfl
    | some k =>
      simp only
      rw [flushPending, hk]
      simp only
      rw [drain]
      split
      · have hsame :
            { s with socket := some k, pendingWrite := s.pendingWrite }.tellSocket [] = s := by
          rw [← hk]
          rfl
        simp only [hsame]
        rfl
      · rcases hw : Socket.write k s.pendingWrite.data with ⟨e | _ | n, k'⟩
        · simp only
          split
          · rfl
          split
          · exact Prod.ext rfl (tellSocket_append _ [_] _)
          · rfl
        · rfl
        · exact Prod.ext rfl (tellSocket_append _ [_] _)
  lower {s t} h := by
    unfold flushRound at h
    cases hk : s.socket with
    | none =>
      rw [hk] at h
      cases h
    | some k =>
      simp only [hk] at h
      split at h
      · cases h
      · rename_i hp
        have hle := Socket.supply_write_le k s.pendingWrite.data
        have hlt := Socket.supply_write_lt k s.pendingWrite.data
        rcases hw : Socket.write k s.pendingWrite.data with ⟨e | _ | n, k'⟩
        · simp only [hw] at h hle hlt
          split at h
          · cases h
          split at h
          · rename_i hint
            injection h with h
            have hless := hlt hint
            rw [← h]
            simp only [supply, tellSocket, hk]
            omega
          · cases h
        · rw [hw] at h
          cases h
        · simp only [hw] at h hle
          injection h with h
          rw [← h]
          have hne : s.pendingWrite.data ≠ [] := fun hnil => hp (s.pendingWrite.isEmpty_iff.2 hnil)
          have hpos := List.length_pos_iff.2 hne
          simp only [supply, tellSocket, hk, Buffer.size, Buffer.data_drop, List.length_drop]
          omega

end Moves

variable [Engine σ ε] [Socket ω]

/-! ## The handshake -/

/-- Takes a step, and another one if that went on. -/
def handshakeRound (s : Session σ ω ε) :
    (Status TlsVersion Unit × Session σ ω ε) ⊕ Session σ ω ε :=
  match s.step with
  | (.proceed, t) => .inr t
  | (.yield status, t) => .inl (status, t)

theorem handshake_unrolls : Unrolls handshakeRound (fun s : Session σ ω ε => s.runHandshake)
    (fun s => 4 * s.supply + stepsLeft s.state) where
  eq s := by
    rw [runHandshake, handshakeRound]
    split <;> rename_i h <;> simp [h]
  lower {s t} h := by
    unfold handshakeRound at h
    split at h
    · rename_i t' hs
      cases h
      have hdecrease := step_decreases hs
      have hleft := stepsLeft_le t.state
      omega
    · cases h

/-! ## Writing a payload -/

/-- Writes out what is pending and encrypts the next piece, if there is one. -/
def sendRound (fragment : Nat) : InFlight × Bytes × Session σ ω ε →
    (Status Nat Unit × Session σ ω ε) ⊕ (InFlight × Bytes × Session σ ω ε)
  | (flight, rest, s) =>
    match s.flushPending with
    | (.error e, s) => .inl (.error (), s.fail (.io e))
    | (.ok false, s) => .inl (.wouldBlock,
        { s.note (.writeBlocked flight.locked flight.length s.pendingWrite.size) with
          inFlight := some flight })
    | (.ok true, s) =>
      if rest.isEmpty then .inl (.ok flight.length, s)
      else
        let chunk := rest.take (max 1 fragment)
        match s.encryptOnce chunk with
        | (.error e, s) => .inl (.error (), s.fail (.native e))
        | (.ok _, s) => .inr ({ flight with locked := flight.locked + chunk.length },
            rest.drop (max 1 fragment), s)

theorem send_unrolls (fragment : Nat) : Unrolls (sendRound (σ := σ) (ω := ω) (ε := ε) fragment)
    (fun p => p.2.2.sendRest fragment p.1 p.2.1) (fun p => p.2.1.length) where
  eq p := by
    obtain ⟨flight, rest, s⟩ := p
    simp only [sendRound]
    rcases h₁ : s.flushPending with ⟨e | _ | _, t⟩
    · exact sendRest_of_failed h₁
    · exact sendRest_of_blocked h₁
    · by_cases hr : rest = []
      · simp only [hr, List.isEmpty_nil, if_true]
        exact sendRest_of_done h₁ rfl
      · have hne : ¬rest.isEmpty = true := by simpa using hr
        simp only [if_neg hne]
        rcases h₂ : t.encryptOnce (rest.take (max 1 fragment)) with ⟨e | a, u⟩
        · exact sendRest_of_refused h₁ hr h₂
        · exact sendRest_of_encrypted h₁ hr h₂
  lower {p q} h := by
    obtain ⟨flight, rest, s⟩ := p
    simp only [sendRound] at h
    rcases h₁ : s.flushPending with ⟨e | _ | _, t⟩ <;> rw [h₁] at h
    · cases h
    · cases h
    · simp only at h
      split at h
      · cases h
      · rename_i hne
        have hpos := List.length_pos_iff.2 (show rest ≠ [] by simpa using hne)
        rcases h₂ : t.encryptOnce (rest.take (max 1 fragment)) with ⟨e | a, u⟩ <;> rw [h₂] at h
        · cases h
        · injection h with h
          rw [← h]
          simp only [List.length_drop]
          omega

/-! ## Decrypting -/

/-- Decrypts once. If the peer asks for a new handshake, counts that, gives up if it is one too many,
and goes on once the handshake is done. -/
def decryptRound (s : Session σ ω ε) :
    (Option (Status Bytes Unit) × Session σ ω ε) ⊕ Session σ ω ε :=
  match s.decryptOnce with
  | (.ok .needsInput, s) => .inl (none, s)
  | (.ok .closeNotify, s) => .inl (none, s.answerClose)
  | (.error e, s) => .inl (some (.error ()), (s.fail (.native e)).flushBestEffort)
  | (.ok .renegotiate, s) =>
    if maxRenegotiations < s.asked.renegotiations then
      .inl (some (.error ()), s.asked.fail .renegotiations)
    else
      match s.asked.renegotiate with
      | (.ok _, s) => .inr s
      | (.error ended, s) => .inl (ended, s)

/-- The counter after a new handshake, whatever came of that. -/
theorem renegotiations_renegotiated {s t u : Session σ ω ε} {answer : Except ε DecryptStop}
    {done : Except (Option (Status Bytes Unit)) Unit} (h : s.decryptOnce = (answer, t))
    (hr : t.asked.renegotiate = (done, u)) : u.renegotiations = s.renegotiations + 1 := by
  obtain ⟨-, -, hkept⟩ := renegotiate_turns 0 hr
  have hcount : t.renegotiations = s.renegotiations :=
    (congrArg (fun r => r.2.renegotiations) h).symm
  rw [hkept, asked, hcount]

theorem decrypt_unrolls : Unrolls decryptRound
    (fun s : Session σ ω ε => decryptAvailable (maxRenegotiations - s.renegotiations) s)
    (fun s => maxRenegotiations - s.renegotiations) where
  eq s := by
    unfold decryptRound
    rcases hd : s.decryptOnce with ⟨e | _ | _ | _, t⟩
    · exact decryptAvailable_of_failed hd
    · exact decryptAvailable_of_needsInput hd
    · have hasked : t.asked.renegotiations = s.renegotiations + 1 :=
        (congrArg (fun r => r.2.renegotiations + 1) hd).symm
      simp only
      split
      · rename_i hover
        have hnone : maxRenegotiations - s.renegotiations = 0 := by omega
        rw [hnone]
        exact decryptAvailable_of_overrun hd
      · rename_i hover
        obtain ⟨n, hn⟩ := Nat.exists_eq_add_one.2
          (show 0 < maxRenegotiations - s.renegotiations by omega)
        rw [hn]
        rcases hr : t.asked.renegotiate with ⟨ended | a, u⟩
        · exact decryptAvailable_of_ended hd hr
        · have hcount := renegotiations_renegotiated hd hr
          have hleft : n = maxRenegotiations - u.renegotiations := by omega
          rw [decryptAvailable_of_reopened hd hr, hleft]
          rfl
    · exact decryptAvailable_of_closeNotify hd
  lower {s t} h := by
    unfold decryptRound at h
    rcases hd : s.decryptOnce with ⟨e | _ | _ | _, u⟩ <;> rw [hd] at h
    · cases h
    · cases h
    · simp only at h
      split at h
      · cases h
      · rename_i hover
        rcases hr : u.asked.renegotiate with ⟨ended | a, v⟩ <;> rw [hr] at h
        · cases h
        · injection h with h
          have hcount := renegotiations_renegotiated hd hr
          have hasked : u.asked.renegotiations = s.renegotiations + 1 :=
            (congrArg (fun r => r.2.renegotiations + 1) hd).symm
          rw [← h]
          omega
    · cases h

end Session
end TlsTransport
