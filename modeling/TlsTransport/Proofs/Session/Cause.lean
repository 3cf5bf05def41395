import TlsTransport.Proofs.Session.Agreement

/-! # What a call ran into

A failure has a cause, and the cause lies in the call that failed: its engine or its socket answered
with an error just before, or the stream is at its end, or what was agreed on is not admitted, or
the call was not one that the session takes.

* `Event.raises`: the failure that an entry of the journal is the cause of.
* `Session.Struck`: at some moment of a call there is a cause to fail.
* `Session.Refused`: what is wrong with a call from the start.
* `Session.RanInto`: a call failed with a failure, and this was the cause.
* `Session.writeData_ranInto`, `readData_ranInto`, `close_ranInto`: no call fails without one.
-/

namespace TlsTransport

variable {σ ω ε α δ : Type}

/-! ## Errors of calls -/

/-- The error in an answer. -/
def refusalIn : Except δ α → Option δ
  | .ok _ => none
  | .error e => some e

/-- The error that a socket call answered. -/
def SocketCall.refusal : SocketCall → Option IoError
  | read _ answer => refusalIn answer
  | write _ answer => refusalIn answer
  | flush answer => refusalIn answer

/-- The error with which a session gives up its socket. Taking nothing without saying why is one. -/
def SocketCall.fault : SocketCall → Option IoError
  | write _ (.ok 0) => some (.bare .writeZero)
  | call => call.refusal.filter fun e => !e.isBlock

/-- The error that an engine call answered. -/
def EngineCall.refusal : EngineCall ε → Option ε
  | start _ answer => refusalIn answer
  | handshake _ _ answer => refusalIn answer
  | encrypt _ _ answer => refusalIn answer
  | decrypt _ _ _ answer => refusalIn answer
  | closeNotify _ answer => refusalIn answer

/-- The failure that an entry of the journal is the cause of, if any. -/
def Event.raises : Event ε → Option (Failure ε)
  | .engine call => call.refusal.map .native
  | .socket (.read _ (.ok [])) => some .eof
  | .socket call => call.fault.map .io
  | .notice _ => none

theorem SocketCall.raises_write {offered : Bytes} {answer : Except IoError Nat} {e : IoError}
    (h : (SocketCall.write offered answer).fault = some e) :
    (Event.socket (.write offered answer) : Event ε).raises = some (.io e) := by
  simp [Event.raises, h]

/-- When writing out fails, the last answer of the socket is why. -/
theorem drain_failed [Socket ω] (b : Buffer) (k : ω) {e : IoError}
    (h : (drain b k).answer = .error e) : ∃ first offered answer,
      (drain b k).calls = first ++ [.write offered answer] ∧
        (SocketCall.write offered answer).fault = some e := by
  fun_induction drain b k with
  | case1 | case4 => cases h
  | case2 b k hne r call hr =>
    injection h with h
    exact ⟨[], _, _, rfl, by rw [hr, ← h]; rfl⟩
  | case3 _ _ _ _ call _ _ _ ih =>
    obtain ⟨first, offered, answer, hcalls, hlast⟩ := ih h
    exact ⟨call :: first, offered, answer, by rw [hcalls, List.cons_append], hlast⟩
  | case5 _ _ _ _ call _ _ _ _ _ ih =>
    obtain ⟨first, offered, answer, hcalls, hlast⟩ := ih h
    exact ⟨call :: first, offered, answer, by rw [hcalls, List.cons_append], hlast⟩
  | case6 b k hne r call e' hr hb hi =>
    injection h with h
    refine ⟨[], _, _, rfl, ?_⟩
    rw [hr, ← h]
    simpa [SocketCall.fault, SocketCall.refusal, refusalIn] using hb

namespace Session

/-! ## Causes -/

/-- There is a cause to fail: an entry that was the last one to be made since some moment, or what
the session is like. -/
inductive Struck [Engine σ ε] (s u : Session σ ω ε) : Failure ε → Prop where
  | entry {e : Event ε} {f : Failure ε} {older : List (Event ε)} (hj : u.journal = e :: older)
      (hs : s.journal <:+ older) (h : e.raises = some f) : Struck s u f
  | unbound (h : u.socket = none) : Struck s u (.io (.bare .notConnected))
  | ended (h : u.eof = true) (hp : u.peerClosed = false) : Struck s u .eof
  | identity {fault : IdentityFault} (h : u.identityFault? = some fault) :
      Struck s u (.identity fault)
  | suite {suite : String} (h : u.blockedSuite? = some suite) : Struck s u (.cipher suite)
  | noVersion (h : Engine.version u.engine = none) : Struck s u (.misuse .noVersion)
  | renegotiations (h : maxRenegotiations < u.renegotiations) : Struck s u .renegotiations

/-- Data cannot be moved: the session is not connected and not in a new handshake. -/
def Barred (s : Session σ ω ε) : Prop :=
  s.state ≠ .connected ∧ ¬ (s.state.inHandshake = true ∧ s.renegotiating = true)

/-- What is wrong with a call: the state does not admit it, or it does not repeat the write that is
in flight. -/
inductive Refused (s : Session σ ω ε) : Call ω → Failure ε → Prop where
  | write (payload : Bytes) (h : s.Barred) : Refused s (.write payload) (.misuse (.writeIn s.state))
  | read (max : Nat) (h : s.Barred) : Refused s (.read max) (.misuse (.readIn s.state))
  | close (hs : s.state ≠ .connected) (hp : s.state ≠ .closing) :
      Refused s .close (.misuse (.closeIn s.state))
  | otherPayload {payload : Bytes} {flight : InFlight} (h : s.inFlight = some flight)
      (hne : flight.length ≠ payload.length ∨ flight.digest ≠ Digest.sip payload) :
      Refused s (.write payload) .otherPayload

/-- A session failed at a moment: it was as it was then but for the failure, and for what could be
written out of what its engine had to say. -/
def FailedAt [Socket ω] (u : Session σ ω ε) (f : Failure ε) (t : Session σ ω ε) : Prop :=
  t = u.fail f ∨ t = (u.fail f).flushBestEffort

section Running

variable [Engine σ ε] [Socket ω]

/-- A call failed with this, and had a cause to. -/
def RanInto (c : Call ω) (s t : Session σ ω ε) (f : Failure ε) : Prop :=
  ∃ u, s.journal <:+ u.journal ∧ (Struck s u f ∨ Refused s c f) ∧ FailedAt u f t

/-- Since some moment a session was struck by something and failed with it. -/
def Broke (s t : Session σ ω ε) : Prop :=
  ∃ u f, s.journal <:+ u.journal ∧ Struck s u f ∧ FailedAt u f t

/-- An operation does not fail without a cause. -/
def Breaks (s : Session σ ω ε) (r : Status α δ × Session σ ω ε) : Prop :=
  ∀ e, r.1 = .error e → Broke s r.2

variable {s t u : Session σ ω ε} {f : Failure ε}

omit [Engine σ ε] in
theorem FailedAt.lastFailure (h : FailedAt u f t) : t.lastFailure = some f := by
  rcases h with rfl | rfl
  · exact lastFailure_fail u f
  · obtain ⟨k, b, calls, hframe⟩ := (u.fail f).flushBestEffort_frame
    rw [hframe]
    exact lastFailure_fail u f

omit [Socket ω] in
theorem Struck.since (h : Struck t u f) (hs : s.journal <:+ t.journal) : Struck s u f := by
  cases h with
  | entry hj ht h => exact .entry hj (hs.trans ht) h
  | unbound h => exact .unbound h
  | ended h hp => exact .ended h hp
  | identity h => exact .identity h
  | suite h => exact .suite h
  | noVersion h => exact .noVersion h
  | renegotiations h => exact .renegotiations h

/-- All that was done is one call of the engine, and this was its answer. -/
def Called (s t : Session σ ω ε) (answer : Except ε α) : Prop :=
  ∃ call, t.journal = .engine call :: s.journal ∧ call.refusal = refusalIn answer

namespace Broke

theorem of_fail (hs : s.journal <:+ u.journal) (h : Struck s u f) : Broke s (u.fail f) :=
  ⟨u, f, hs, h, .inl rfl⟩

theorem of_flushed (hs : s.journal <:+ u.journal) (h : Struck s u f) :
    Broke s (u.fail f).flushBestEffort :=
  ⟨u, f, hs, h, .inr rfl⟩

theorem since (h : Broke t u) (hs : s.journal <:+ t.journal) : Broke s u := by
  obtain ⟨v, f, hj, hstruck, hfailed⟩ := h
  exact ⟨v, f, hs.trans hj, hstruck.since hs, hfailed⟩

theorem ranInto (h : Broke s t) (c : Call ω) : ∃ f, RanInto c s t f := by
  obtain ⟨u, f, hj, hstruck, hfailed⟩ := h
  exact ⟨f, u, hj, .inl hstruck, hfailed⟩

end Broke

namespace Breaks

variable {r : Status α δ × Session σ ω ε}

theorem since (h : Breaks t r) (hs : s.journal <:+ t.journal) : Breaks s r :=
  fun e he => (h e he).since hs

theorem of_ended (h : ∀ e, r.1 ≠ .error e) : Breaks s r := fun e he => absurd he (h e)

theorem of_broke {e : δ} (h : Broke s t) : Breaks s ((.error e, t) : Status α δ × Session σ ω ε) :=
  fun _ _ => h

end Breaks

/-! ## The engine and the socket -/

namespace Called

omit [Engine σ ε] [Socket ω] in
theorem suffix {answer : Except ε α} (h : Called s t answer) : s.journal <:+ t.journal := by
  obtain ⟨call, hj, -⟩ := h
  exact hj ▸ List.suffix_cons _ _

omit [Socket ω] in
theorem struck {e : ε} (h : Called s t (.error e : Except ε α)) : Struck s t (.native e) := by
  obtain ⟨call, hj, hrefused⟩ := h
  exact .entry hj (List.suffix_refl _) (congrArg (Option.map Failure.native) hrefused)

theorem broke {e : ε} (h : Called s t (.error e : Except ε α)) : Broke s (t.fail (.native e)) :=
  .of_fail h.suffix h.struck

omit [Socket ω]

omit [Engine σ ε] in
theorem of_eq {r : Except ε α × Session σ ω ε} {answer : Except ε α} (hr : r = (answer, t))
    (h : Called s r.2 r.1) : Called s t answer := by
  rwa [hr] at h

theorem startEngine (s : Session σ ω ε) : Called s s.startEngine.2 s.startEngine.1 :=
  ⟨_, rfl, rfl⟩

theorem handshakeOnce (s : Session σ ω ε) : Called s s.handshakeOnce.2 s.handshakeOnce.1 :=
  ⟨_, rfl, rfl⟩

theorem encryptOnce {chunk : Bytes} {answer : Except ε Unit}
    (h : s.encryptOnce chunk = (answer, t)) : Called s t answer :=
  .of_eq h ⟨_, rfl, rfl⟩

theorem decryptOnce {answer : Except ε DecryptStop} (h : s.decryptOnce = (answer, t)) :
    Called s t answer :=
  .of_eq h ⟨_, rfl, rfl⟩

theorem notifyClose {answer : Except ε Unit} (h : s.notifyClose = (answer, t)) :
    Called s t answer :=
  .of_eq h ⟨_, rfl, rfl⟩

end Called

omit [Engine σ ε] in
theorem flushPending_suffix {answer : Except IoError Bool} (h : s.flushPending = (answer, t)) :
    s.journal <:+ t.journal := by
  have hadds : Adds .closed s s.flushPending.2 := .flushPending s
  rw [h] at hadds
  exact hadds.suffix

theorem flushPending_struck {e : IoError} (h : s.flushPending = (.error e, t)) :
    Struck s t (.io e) := by
  unfold flushPending at h
  cases hk : s.socket with
  | none =>
    simp only [hk, Prod.mk.injEq, Except.error.injEq] at h
    obtain ⟨rfl, rfl⟩ := h
    exact .unbound hk
  | some k =>
    simp only [hk, Prod.mk.injEq] at h
    obtain ⟨ha, rfl⟩ := h
    obtain ⟨first, offered, answer, hcalls, hfault⟩ := drain_failed s.pendingWrite k ha
    refine .entry ?_ (List.suffix_append (first.map Event.socket).reverse s.journal)
      (SocketCall.raises_write hfault)
    simp only [tellSocket, hcalls, journal_of_last]

theorem fillRaw_struck {max : Nat} {e : IoError} (h : s.fillRaw max = (.error e, t))
    (hb : e.isBlock = false) : Struck s t (.io e) := by
  rcases fillRaw_reads h with ⟨hnone, rfl⟩ | ⟨first, hj, -⟩
  · simp only [fillRaw, hnone, Prod.mk.injEq, Except.error.injEq] at h
    rw [← h.1]
    exact .unbound hnone
  · refine .entry hj (List.suffix_append _ _) ?_
    simp [Event.raises, SocketCall.fault, SocketCall.refusal, refusalIn, hb]

theorem fillRaw_ended {max : Nat} (h : s.fillRaw max = (.ok [], t)) : Struck s t .eof := by
  rcases fillRaw_reads h with ⟨hnone, rfl⟩ | ⟨first, hj, -⟩
  · simp [fillRaw, hnone] at h
  · exact .entry hj (List.suffix_append _ _) rfl

/-! ## The handshake -/

theorem processHandshake_broke (h : s.processHandshake = (.yield (.error ()), t)) : Broke s t := by
  rcases s.processHandshake_cases with ⟨e, ha, he⟩ | ⟨progress, u, -, -, hu⟩
  · rw [he] at h
    injection h with _ ht
    rw [← ht]
    have hcalled := Called.handshakeOnce s
    rw [ha] at hcalled
    exact .of_flushed hcalled.suffix hcalled.struck
  · rw [hu] at h
    cases h

theorem finishHandshake_broke (h : s.finishHandshake = (.yield (.error ()), t)) : Broke s t := by
  have hfail : ∀ {f : Failure ε}, Struck s s f → s.failStep f = (.yield (.error ()), t) →
      Broke s t := by
    intro f hstruck hf
    injection hf with _ ht
    rw [← ht]
    exact .of_fail (List.suffix_refl _) hstruck
  unfold finishHandshake at h
  split at h
  · exact hfail (.identity ‹_›) h
  split at h
  · exact hfail (.suite ‹_›) h
  split at h
  · exact hfail (.noVersion ‹_›) h
  · cases h

theorem step_broke (h : s.step = (.yield (.error ()), t)) (hm : s.MayStep) : Broke s t := by
  have hflush := (Adds.flushPending s : Adds .closed s _).suffix
  have hfill := (Adds.fillRaw s maxRecordLength (.inl rfl)).suffix
  generalize hr : s.step = r at h
  have hcase := s.step_case
  rw [hr] at hcase
  cases hcase with
  | startFailed e _ ha =>
    injection h with _ ht
    rw [← ht]
    have hcalled := Called.startEngine s
    rw [ha] at hcalled
    exact hcalled.broke
  | started =>
    have hstart : s.journal <:+ { s.startEngine.2 with handshakeComplete := false }.journal :=
      List.suffix_cons _ _
    exact (processHandshake_broke h).since hstart
  | sendFailed e _ ha =>
    injection h with _ ht
    rw [← ht]
    exact .of_fail hflush (flushPending_struck (Prod.ext ha rfl))
  | ended _ ha =>
    injection h with _ ht
    rw [← ht]
    exact .of_fail hfill (fillRaw_ended (Prod.ext ha rfl))
  | arrived => exact (processHandshake_broke h).since hfill
  | receiveFailed e _ ha hb =>
    injection h with _ ht
    rw [← ht]
    exact .of_fail hfill (fillRaw_struck (Prod.ext ha rfl) hb)
  | finish => exact finishHandshake_broke h
  | refused _ hno hi =>
    rcases hm with hm | ⟨hm, -⟩
    · rw [hm] at hno
      cases hno
    · exact absurd hm hi
  | _ => cases h

theorem runHandshake_breaks (hm : s.MayStep) : Breaks s s.runHandshake := by
  fun_induction runHandshake s with
  | case1 s s' hs ih =>
    have hj := (Adds.step s).suffix
    rw [hs] at hj
    exact (ih (.inl (step_proceed hs))).since hj
  | case2 s status s' hs =>
    rintro ⟨⟩ rfl
    exact step_broke hs hm

/-! ## Writing -/

theorem sendRest_breaks (fragment : Nat) (flight : InFlight) (rest : Bytes) :
    Breaks s (s.sendRest fragment flight rest) := by
  induction flight, rest, s using sendRest.induct (σ := σ) (ω := ω) (ε := ε) fragment with
  | case1 flight rest s t e h₁ =>
    rw [sendRest_of_failed h₁]
    exact .of_broke (.of_fail (flushPending_suffix h₁) (flushPending_struck h₁))
  | case2 flight rest s t h₁ =>
    rw [sendRest_of_blocked h₁]
    exact .of_ended (by simp)
  | case3 flight rest s t hr h₁ =>
    rw [sendRest_of_done h₁ (by simpa using hr)]
    exact .of_ended (by simp)
  | case4 flight rest s t hr chunk u e h₁ h₂ =>
    rw [sendRest_of_refused h₁ (by simpa using hr) h₂]
    exact .of_broke ((Called.encryptOnce h₂).broke.since (flushPending_suffix h₁))
  | case5 flight rest s t hr chunk u a h₁ h₂ ih =>
    rw [sendRest_of_encrypted h₁ (by simpa using hr) h₂]
    exact ih.since ((flushPending_suffix h₁).trans (Called.encryptOnce h₂).suffix)

/-- A payload is refused when another one is in flight. -/
theorem sendPayload_breaks (payload : Bytes) : Breaks s (s.sendPayload payload) ∨
    Refused s (.write payload : Call ω) .otherPayload ∧
      s.sendPayload payload = (.error (), s.fail .otherPayload) := by
  unfold sendPayload
  simp only
  split
  · rename_i flight hflight
    have hfree : ({ s with inFlight := none } : Session σ ω ε).fail .otherPayload =
        s.fail .otherPayload := by simp only [fail_eq]
    split
    · rename_i hne
      exact .inr ⟨.otherPayload hflight hne, by rw [hfree]⟩
    · have hbreaks : Breaks ({ s with inFlight := none } : Session σ ω ε) _ :=
        sendRest_breaks (Engine.maxFragment s.engine) flight (payload.drop flight.locked)
      exact .inl (hbreaks.since (List.suffix_refl _))
  · split
    · exact .inl (.of_ended (by simp))
    · exact .inl (sendRest_breaks _ _ _)

/-- What is in flight stays so while a new handshake ends well. -/
theorem runHandshake_inFlight {v : TlsVersion} (hm : s.MayStep)
    (h : s.runHandshake = (.ok v, t)) (hsome : t.inFlight.isSome = true) :
    t.inFlight = s.inFlight := by
  have hrests := (runHandshake_rests hm).inFlight
  rw [h] at hrests
  rcases hrests with hsame | ⟨hnone, -⟩
  · exact hsame
  · rw [hnone] at hsome
    cases hsome

theorem sendPayload_ranInto {payload : Bytes} (hs : s.journal <:+ t.journal)
    (hflight : t.inFlight.isSome = true → t.inFlight = s.inFlight)
    (h : (t.sendPayload payload).1 = .error ()) :
    ∃ f, RanInto (.write payload) s (t.sendPayload payload).2 f := by
  rcases sendPayload_breaks (s := t) payload with hbreaks | ⟨hrefused, hr⟩
  · exact ((hbreaks () h).since hs).ranInto _
  · have hrefused : Refused s (.write payload : Call ω) .otherPayload := by
      cases hrefused with
      | otherPayload hsome hne => exact .otherPayload ((hflight (by rw [hsome]; rfl)) ▸ hsome) hne
    rw [hr]
    exact ⟨.otherPayload, t, hs, .inr hrefused, .inl rfl⟩

theorem writeData_ranInto (payload : Bytes) (herr : s.state ≠ .error)
    (h : (s.writeData payload).1 = .error ()) :
    ∃ f, RanInto (.write payload) s (s.writeData payload).2 f := by
  unfold writeData at h ⊢
  by_cases hs : s.state = .connected
  · rw [if_pos hs] at h ⊢
    exact sendPayload_ranInto (List.suffix_refl _) (fun _ => rfl) h
  rw [if_neg hs] at h ⊢
  by_cases hh : (s.state.inHandshake && s.renegotiating) = true
  · rw [if_pos hh] at h ⊢
    have hm : s.MayStep := .inl (Bool.and_eq_true_iff.1 hh).1
    have hbreaks := runHandshake_breaks hm
    have hturns := runHandshake_turns (.write payload) hm
    rcases hr : s.runHandshake with ⟨v | _ | _, t⟩ <;> rw [hr] at hbreaks hturns h
    · exact sendPayload_ranInto hturns.journal (runHandshake_inFlight hm hr) h
    · cases h
    · exact (hbreaks () rfl).ranInto _
  rw [if_neg hh, if_neg herr]
  have hbarred : s.Barred := ⟨hs, fun ⟨hin, hre⟩ => hh (by rw [hin, hre]; rfl)⟩
  exact ⟨_, s, List.suffix_refl _, .inr (.write payload hbarred), .inl rfl⟩

/-! ## Reading -/

theorem answerRead_breaks (max : Nat) : Breaks s (s.answerRead max) := by
  unfold answerRead
  split
  · exact .of_ended (by simp [takePlaintext])
  split
  · exact .of_ended (by simp)
  rename_i hp
  split
  · rename_i heof
    exact .of_broke (.of_fail (List.suffix_refl _) (.ended heof (by simpa using hp)))
  · exact .of_ended (by simp)

theorem finishRead_breaks (max : Nat) : Breaks s (s.finishRead max) := by
  unfold finishRead
  split
  · exact answerRead_breaks max
  · rcases hf : s.flushPending with ⟨e | all, t⟩
    · exact .of_broke (.of_fail (flushPending_suffix hf) (flushPending_struck hf))
    · exact (answerRead_breaks max).since (flushPending_suffix hf)

theorem renegotiate_breaks {ended : Option (Status Bytes Unit)}
    (h : s.renegotiate = (.error ended, u)) (max : Nat) : Breaks s (match (ended, u) with
      | (some status, v) => (status, v)
      | (none, v) => v.finishRead max) := by
  have hopen : s.journal <:+ s.reopen.journal :=
    (Adds.silent (.reopen s) : Adds .closing s _).suffix
  have hfirst := hopen.trans (Adds.processHandshake s.reopen (.inl rfl)).suffix
  generalize hq : s.renegotiate = q at h
  have hcase := s.renegotiate_case
  rw [hq] at hcase
  cases hcase with
  | refused hp =>
    cases h
    exact .of_broke ((processHandshake_broke hp).since hopen)
  | done => cases h
  | failed hp hrun =>
    have hbreaks := runHandshake_breaks (.inl (processHandshake_goesOn hp))
    rw [hp] at hfirst
    rw [hrun] at hbreaks
    cases h
    exact .of_broke ((hbreaks () rfl).since hfirst)
  | waits hp hrun =>
    have hturns := runHandshake_turns (.read max) (.inl (processHandshake_goesOn hp))
    rw [hp] at hfirst
    rw [hrun] at hturns
    cases h
    cases u.plaintext.isEmpty with
    | true => exact .of_ended (by simp)
    | false => exact (finishRead_breaks max).since (hfirst.trans hturns.journal)

theorem decryptAndFinish_breaks (hs : s.state = .connected) (max : Nat) :
    Breaks s (s.decryptAndFinish max) := by
  obtain ⟨n, t, hn, hrounds, hlast, -⟩ := s.decryptAndFinish_rounds max
  obtain ⟨hchain, ht, hcount⟩ := hrounds.turns max hs hn
  apply Breaks.since _ hchain.journal
  unfold decryptAndFinish
  generalize hm : maxRenegotiations - s.renegotiations - n = m at hlast
  generalize decryptAvailable (maxRenegotiations - s.renegotiations) s = r at hlast
  cases hlast with
  | drained hd => exact (finishRead_breaks max).since (Called.decryptOnce hd).suffix
  | @noticed _ u hd =>
    have hconn : u.state = .connected := (Clean.decryptOnce hd).2.trans ht
    exact (finishRead_breaks max).since
      ((Called.decryptOnce hd).suffix.trans (answerClose_turns max hconn).journal)
  | refused hd =>
    have hcalled := Called.decryptOnce hd
    exact .of_broke (.of_flushed hcalled.suffix hcalled.struck)
  | @overrun u hd =>
    have hkept : u.renegotiations = t.renegotiations :=
      (congrArg (fun r => r.2.renegotiations) hd).symm
    have hover : maxRenegotiations < u.asked.renegotiations := by
      show maxRenegotiations < u.renegotiations + 1
      omega
    exact .of_broke (.of_fail (Called.decryptOnce hd).suffix (.renegotiations hover))
  | @stopped _ u _ _ hd hr =>
    have hasked : t.journal <:+ u.asked.journal := (Called.decryptOnce hd).suffix
    exact (renegotiate_breaks hr max).since hasked

theorem receive_breaks (hs : s.state = .connected) (max : Nat) : Breaks s (s.receive max) := by
  have hfill : ∀ {t : Session σ ω ε} {answer : Except IoError Bytes},
      s.fillRaw (Nat.max max maxRecordLength) = (answer, t) →
      s.journal <:+ t.journal ∧ t.state = .connected := by
    intro t answer h
    have ht : t = (s.fillRaw (Nat.max max maxRecordLength)).2 := by rw [h]
    rw [ht, state_fillRaw]
    exact ⟨(Adds.fillRaw s _ (.inr rfl)).suffix, hs⟩
  generalize hr : s.receive max = r
  have hcase := s.receive_case max
  rw [hr] at hcase
  cases hcase with
  | failed h hb => exact .of_broke (.of_fail (hfill h).1 (fillRaw_struck h hb))
  | @ended t h =>
    obtain ⟨hj, ht⟩ := hfill h
    have hconn : { t with eof := true }.state = .connected := ht
    exact (decryptAndFinish_breaks hconn max).since hj
  | arrived h =>
    obtain ⟨hj, ht⟩ := hfill h
    exact (decryptAndFinish_breaks ht max).since hj

theorem readData_ranInto (max : Nat) (herr : s.state ≠ .error)
    (h : (s.readData max).1 = .error ()) : ∃ f, RanInto (.read max) s (s.readData max).2 f := by
  unfold readData at h ⊢
  by_cases hmax : max = 0
  · rw [if_pos hmax] at h
    cases h
  rw [if_neg hmax] at h ⊢
  by_cases hp : (!s.plaintext.isEmpty) = true
  · rw [if_pos hp] at h
    cases h
  rw [if_neg hp] at h ⊢
  by_cases hs : s.state = .connected
  · rw [if_pos hs] at h ⊢
    exact (receive_breaks hs max () h).ranInto _
  rw [if_neg hs] at h ⊢
  by_cases hh : (s.state.inHandshake && s.renegotiating) = true
  · rw [if_pos hh] at h ⊢
    have hm : s.MayStep := .inl (Bool.and_eq_true_iff.1 hh).1
    have hbreaks := runHandshake_breaks hm
    have hturns := runHandshake_turns (.read max) hm
    rcases hr : s.runHandshake with ⟨v | _ | _, t⟩ <;> rw [hr] at hbreaks hturns h
    · exact ((receive_breaks (runHandshake_ok hr) max () h).since hturns.journal).ranInto _
    · cases h
    · exact (hbreaks () rfl).ranInto _
  rw [if_neg hh] at h ⊢
  by_cases hgone : s.state = .closing ∨ s.state = .closed
  · rw [if_pos hgone] at h
    cases h
  rw [if_neg hgone, if_neg herr]
  have hbarred : s.Barred := ⟨hs, fun ⟨hin, hre⟩ => hh (by rw [hin, hre]; rfl)⟩
  exact ⟨_, s, List.suffix_refl _, .inr (.read max hbarred), .inl rfl⟩

/-! ## Closing -/

theorem finishClose_breaks : Breaks s s.finishClose := by
  unfold finishClose
  rcases hf : s.flushPending with ⟨e | _ | _, t⟩
  · exact .of_broke (.of_fail (flushPending_suffix hf) (flushPending_struck hf))
  · exact .of_ended (by simp)
  · exact .of_ended (by simp)

theorem close_ranInto (herr : s.state ≠ .error) (h : s.close.1 = .error ()) :
    ∃ f, RanInto .close s s.close.2 f := by
  unfold close at h ⊢
  by_cases hs : s.state = .connected
  · rw [if_pos hs] at h ⊢
    rcases hn : s.notifyClose with ⟨e | _, t⟩ <;> rw [hn] at h
    · exact (Called.notifyClose hn).broke.ranInto _
    · have hleft : s.journal <:+ ({ t with inFlight := none }.setState .closing).journal := by
        have hquiet : Adds .closing { t with inFlight := none } _ := .silent (.setState _ .closing)
        exact (Called.notifyClose hn).suffix.trans hquiet.suffix
      exact ((finishClose_breaks () h).since hleft).ranInto _
  rw [if_neg hs] at h ⊢
  by_cases hp : s.state = .closing
  · rw [if_pos hp] at h ⊢
    exact (finishClose_breaks () h).ranInto _
  rw [if_neg hp] at h ⊢
  by_cases hc : s.state = .closed
  · rw [if_pos hc] at h
    cases h
  rw [if_neg hc, if_neg herr]
  exact ⟨_, s, List.suffix_refl _, .inr (.close hs hp), .inl rfl⟩

end Running
end Session
end TlsTransport
